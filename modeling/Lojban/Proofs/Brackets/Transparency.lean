import Lojban.Proofs.Brackets.Context
import Lojban.Renderer

namespace Lojban

namespace Tree

variable {m : Mode} {exempt : Exemption} {t : Tree}

theorem outline_singleton (visible : t.isVisible m exempt) :
    (composite [t]).outline m exempt = t.outline m exempt := by
  rw [outline_of_shape_group rfl, outlines_of_isVisible visible, Outline.ofParts]

theorem outline_wrap : (wrap t).outline m exempt = t.outline m exempt := by
  have follows : (wrap t).shape = .link none t := rfl
  rw [outline_link follows, ite_self, Outline.label]

end Tree

/-- The same tree with layers around some of its nodes, groups of one and links: any number of them
around one node, and around any nodes that are visible and are not the tail of a relation. -/
inductive Tree.Padded (m : Mode) (exempt : Exemption) : Tree → Tree → Prop where
  | refl (t : Tree) : Padded m exempt t t
  | trans {t u v : Tree} : Padded m exempt t u → Padded m exempt u v → Padded m exempt t v
  | group (outer : Context) (t : Tree) : outer.atTail = false → t.isVisible m exempt →
    Padded m exempt (outer.plug t) (outer.plug (composite [t]))
  | wrap (outer : Context) (t : Tree) : outer.atTail = false → t.isVisible m exempt →
    Padded m exempt (outer.plug t) (outer.plug (wrap t))

theorem Tree.Padded.outline_eq {m : Mode} {exempt : Exemption} {t u : Tree}
    (h : t.Padded m exempt u) : t.outline m exempt = u.outline m exempt := by
  induction h with
  | refl t => rfl
  | trans _ _ first second => exact first.trans second
  | group outer t elsewhere visible =>
    apply Context.outline_plug_of_isVisible visible rfl (outline_singleton visible).symm
    simp [elsewhere]
  | wrap outer t elsewhere visible =>
    apply Context.outline_plug_of_isVisible visible rfl outline_wrap.symm
    simp [elsewhere]

theorem Renderer.brackets_padded (r : Renderer) (m : Mode) {t u : Tree}
    (h : t.Padded m r.exempt u) :
    (r.brackets m t).toString = (r.brackets m u).toString ∧
      r.formatAs .brackets t m = r.formatAs .brackets u m := by
  have same : r.brackets m t = r.brackets m u := h.outline_eq
  rw [formatAs, formatAs, same]
  exact ⟨rfl, rfl⟩

def Tail.goingTo (t : Tree) : Tail Tree := ⟨.word "klama", [], [t], none, none, []⟩

def Context.beforeGoingTo (t : Tree) : Context :=
  [.head ⟨.bridi, [], some (.tail (.goingTo t)), none, none, []⟩ [] [], .member [] [.text "ui"]]

def Context.afterGoing (t : Tree) : Context :=
  [.tailTerm (.goingTo t) [] [], .tail ⟨.bridi, [t], none, none, none, []⟩, .member [] [.text "ui"]]

/-- Two groups around the first term, a link to the last, and a link to the whole. -/
theorem Renderer.brackets_padded_going :
    ((Context.beforeGoingTo (.word "do")).plug (.word "mi")).Padded .blank blank.exempt
        (.wrap ((Context.beforeGoingTo (.wrap (.word "do"))).plug
          (.composite [.composite [.word "mi"]]))) ∧
      (blank.brackets .blank ((Context.beforeGoingTo (.word "do")).plug (.word "mi"))).toString =
        (blank.brackets .blank (.wrap ((Context.beforeGoingTo (.wrap (.word "do"))).plug
          (.composite [.composite [.word "mi"]])))).toString := by
  let padded := Tree.Padded Mode.blank blank.exempt
  have grouped : padded _ _ := .group (.beforeGoingTo (.word "do")) (.word "mi") rfl rfl
  have again : padded _ _ := .group (.beforeGoingTo (.word "do")) (.composite [.word "mi"]) rfl rfl
  have linked : padded _ _ :=
    .wrap (.afterGoing (.composite [.composite [.word "mi"]])) (.word "do") rfl rfl
  have whole : padded _ _ := ((grouped.trans again).trans linked).trans (.wrap [] _ rfl rfl)
  exact ⟨whole, (blank.brackets_padded .blank whole).1⟩

-- Around the tail of a relation a layer does show.
example :
    (Renderer.blank.brackets .blank (.bridi ⟨.bridi, [.word "mi"],
      some (.tail (.goingTo (.word "do"))), none, none, []⟩)).toString = "[mi klama do]" ∧
    (Renderer.blank.brackets .blank (.bridi ⟨.bridi, [.word "mi"],
      some (.composite [.tail (.goingTo (.word "do"))]), none, none, []⟩)).toString =
        "[mi [klama do]]" := by
  decide +kernel

end Lojban
