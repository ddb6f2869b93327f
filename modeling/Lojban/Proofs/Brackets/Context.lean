import Lojban.Proofs.Brackets.Outline
import Lojban.Proofs.Tree.Context

namespace Lojban

variable {m : Mode} {exempt : Exemption}

/-- Two nodes do the same in the place of a frame: as a member of a group, spliced into one, or
followed as a link, whichever the frame asks for. -/
structure Frame.Alike (m : Mode) (exempt : Exemption) (f : Frame) (t u : Tree) : Prop where
  member : f.isLink = false → Tree.outlines m exempt [t] = Tree.outlines m exempt [u]
  spliced : f.isTail → Tree.outlines m exempt t.splice = Tree.outlines m exempt u.splice
  link : f.isLink → t.outline m exempt = u.outline m exempt

namespace Frame

open Lojban.Tree (outlines outlines_append outlines_of_isVisible outline_of_shape_group)

variable {f : Frame} {t u : Tree}

theorem isVisible_plug (f : Frame) (t : Tree) : (f.plug t).isVisible m exempt := by
  cases f with
  | member front back => simp [plug, Tree.isVisible]
  | _ => rfl

theorem Alike.outlines_children (h : f.Alike m exempt t u) (inner : f.isLink = false) :
    outlines m exempt (f.plug t).children = outlines m exempt (f.plug u).children := by
  obtain ⟨front, back, children⟩ := children_plug inner
  rw [children, children]
  simp only [outlines_append]
  cases tail : f.isTail with
  | false => simp [h.member inner]
  | true => simp [h.spliced tail]

theorem Alike.outline (h : f.Alike m exempt t u) :
    (f.plug t).outline m exempt = (f.plug u).outline m exempt := by
  cases link : f.isLink with
  | true =>
    obtain ⟨conversion, follows⟩ := shape_plug_link link
    rw [Tree.outline_link (follows t), Tree.outline_link (follows u), h.link link]
  | false =>
    rcases shape_plug_cases link with ⟨s, fixed⟩ | group
    · exact Tree.outline_congr ((fixed t).trans (fixed u).symm)
    · rw [outline_of_shape_group (group t), outline_of_shape_group (group u),
        h.outlines_children link]

theorem Alike.outlines_splice (h : f.Alike m exempt t u) :
    outlines m exempt (f.plug t).splice = outlines m exempt (f.plug u).splice := by
  rcases splice_plug_cases f with single | ⟨inner, children⟩
  · rw [single, single, outlines_of_isVisible (isVisible_plug f t),
      outlines_of_isVisible (isVisible_plug f u), h.outline]
  · rw [children, children, h.outlines_children inner]

theorem Alike.plug (h : f.Alike m exempt t u) (g : Frame) :
    g.Alike m exempt (f.plug t) (f.plug u) where
  member _ := by
    rw [outlines_of_isVisible (isVisible_plug f t), outlines_of_isVisible (isVisible_plug f u),
      h.outline]
  spliced _ := h.outlines_splice
  link _ := h.outline

end Frame

namespace Tree

variable {f : Frame} {t u : Tree}

theorem alike_of_outline (ht : t.isVisible m exempt) (hu : u.isVisible m exempt)
    (same : t.outline m exempt = u.outline m exempt)
    (whole : f.isTail → t.splice = [t] ∧ u.splice = [u]) : f.Alike m exempt t u := by
  have member : outlines m exempt [t] = outlines m exempt [u] := by
    rw [outlines_of_isVisible ht, outlines_of_isVisible hu, same]
  refine ⟨fun _ => member, fun taken => ?_, fun _ => same⟩
  rw [(whole taken).1, (whole taken).2, member]

theorem splice_of_not_isVisible (h : t.isVisible m exempt = false) : t.splice = [t] := by
  cases t with
  | tail v => cases h
  | _ => rfl

theorem alike_of_not_isVisible (inner : f.isLink = false) (ht : t.isVisible m exempt = false)
    (hu : u.isVisible m exempt = false) : f.Alike m exempt t u := by
  have member : outlines m exempt [t] = outlines m exempt [u] := by
    rw [outlines_of_not_isVisible ht, outlines_of_not_isVisible hu]
  refine ⟨fun _ => member, fun _ => ?_, fun link => absurd link (by simp [inner])⟩
  rw [splice_of_not_isVisible ht, splice_of_not_isVisible hu, member]

end Tree

namespace Context

theorem outline_plug {f : Frame} {t u : Tree} (outer : Context) (h : f.Alike m exempt t u) :
    (outer.plug (f.plug t)).outline m exempt = (outer.plug (f.plug u)).outline m exempt := by
  induction outer generalizing f t u with
  | nil => exact h.outline
  | cons g outer ih => exact ih (h.plug g)

def atTail : Context → Bool
  | [] => false
  | f :: _ => f.isTail

theorem outline_plug_of_isVisible {outer : Context} {t u : Tree} (ht : t.isVisible m exempt)
    (hu : u.isVisible m exempt) (same : t.outline m exempt = u.outline m exempt)
    (whole : outer.atTail → t.splice = [t] ∧ u.splice = [u]) :
    (outer.plug t).outline m exempt = (outer.plug u).outline m exempt := by
  cases outer with
  | nil => exact same
  | cons f outer => exact outline_plug outer (Tree.alike_of_outline ht hu same whole)

end Context

end Lojban
