import Lojban.Outline
import Lojban.Proofs.Tree.Everywhere

/-!
The outline of a tree in brackets, shape by shape, and the structure that a tree displays: its words
in order, in groups of what is shown side by side. The outline is that structure and no other.
-/

namespace Lojban

inductive Leaf.WrittenAs (m : Mode) (l : Leaf) : String → Prop where
  | elided : l.elided → WrittenAs m l (Case.upper l.word)
  | tagged {s} : l.elided = false → m.classes → l.selmaho = some s →
    WrittenAs m l (s ++ ":" ++ l.word)
  | untagged : l.elided = false → l.selmaho = none → WrittenAs m l l.word
  | plain : l.elided = false → m.classes = false → WrittenAs m l l.word

theorem Leaf.writtenAs_iff {m : Mode} {l : Leaf} {s : String} :
    l.WrittenAs m s ↔ s = l.display m := by
  constructor
  · intro written
    cases written with
    | elided elided => rw [display, if_pos elided]
    | tagged elided classes tag => simp [display, elided, classes, tag]
    | untagged elided tag => simp [display, elided, tag]
    | plain elided classes =>
      rw [display, elided, classes]
      cases l.selmaho <;> rfl
  · rintro rfl
    rw [display]
    cases elided : l.elided with
    | true => exact .elided elided
    | false =>
      cases tag : l.selmaho with
      | none => exact .untagged elided tag
      | some s =>
        cases classes : m.classes with
        | true => exact .tagged elided classes tag
        | false => exact .plain elided classes

namespace Tree

variable {m : Mode} {exempt : Exemption} {t : Tree}

theorem outline_token {s : String} (h : t.shape = .token s) : t.outline m exempt = .text s := by
  rw [outline]
  split <;> simp_all

theorem outline_leaf {l : Leaf} (h : t.shape = .leaf l) :
    t.outline m exempt = .text (l.display m) := by
  rw [outline]
  split <;> simp_all

theorem outline_link {conversion : Option (List Nat)} {inner : Tree}
    (h : t.shape = .link conversion inner) :
    t.outline m exempt =
      .label (if m.tables then conversion else none) (inner.outline m exempt) := by
  rw [outline]
  split <;> simp_all

theorem outline_group {cs : List Tree} (h : t.shape = .group cs) :
    t.outline m exempt =
      .ofParts ((cs.filter (·.isVisible m exempt)).map (·.outline m exempt)) := by
  have visible : cs.filter (·.isVisible m exempt) =
      (cs.attach.filter fun c => c.1.isVisible m exempt).map Subtype.val := by
    conv => lhs; rw [← List.attach_map_subtype_val cs, List.filter_map]
    rfl
  rw [visible, List.map_map, outline]
  split
  · simp_all
  · simp_all
  · simp_all
  · rename_i cs' h'
    obtain rfl : cs' = cs := by simpa [h'] using h
    rfl
  · simp_all

theorem outline_unknown (h : t.shape = .unknown) : t.outline m exempt = .placeholder := by
  rw [outline]
  split <;> simp_all

def outlines (m : Mode) (exempt : Exemption) (ts : List Tree) : List Outline :=
  (ts.filter (·.isVisible m exempt)).map (·.outline m exempt)

@[simp] theorem outlines_append (ts us : List Tree) :
    outlines m exempt (ts ++ us) = outlines m exempt ts ++ outlines m exempt us := by
  simp [outlines]

theorem outlines_of_isVisible (h : t.isVisible m exempt) :
    outlines m exempt [t] = [t.outline m exempt] := by
  simp [outlines, h]

theorem outlines_of_not_isVisible (h : t.isVisible m exempt = false) :
    outlines m exempt [t] = [] := by
  simp [outlines, h]

theorem outline_of_shape_group {cs : List Tree} (h : t.shape = .group cs) :
    t.outline m exempt = .ofParts (outlines m exempt cs) := outline_group h

theorem outline_congr {u : Tree} (same : t.shape = u.shape) :
    t.outline m exempt = u.outline m exempt := by
  cases hs : u.shape with
  | token s => rw [outline_token hs, outline_token (same.trans hs)]
  | leaf l => rw [outline_leaf hs, outline_leaf (same.trans hs)]
  | link conversion inner => rw [outline_link hs, outline_link (same.trans hs)]
  | group cs => rw [outline_group hs, outline_group (same.trans hs)]
  | unknown => rw [outline_unknown hs, outline_unknown (same.trans hs)]

inductive Hidden (m : Mode) (exempt : Exemption) : Tree → Prop where
  | empty : Hidden m exempt (composite [])
  | blank : Hidden m exempt (text "")
  | elided {l : Leaf} : l.elided → m.elided = false → exempt l = false → Hidden m exempt (leaf l)
  | void {v : Json} : v.isVoid → Hidden m exempt (other v)

theorem isVisible_eq_false : t.isVisible m exempt = false ↔ t.Hidden m exempt := by
  constructor
  · intro h
    cases t with
    | composite cs =>
      cases cs with
      | nil => exact .empty
      | cons => cases h
    | text s =>
      obtain rfl : s = "" := by simpa [isVisible] using h
      exact .blank
    | leaf l =>
      simp only [isVisible, Bool.or_eq_false_iff, Bool.not_eq_false'] at h
      exact .elided h.1.1 h.1.2 h.2
    | other v => exact .void (by simpa [isVisible] using h)
    | _ => cases h
  · intro h
    cases h with
    | empty => rfl
    | blank => rfl
    | elided elided off bare => simp [isVisible, elided, off, bare]
    | void void => simp [isVisible, void]

theorem isVisible_iff : t.isVisible m exempt ↔ ¬t.Hidden m exempt := by
  rw [← isVisible_eq_false, Bool.not_eq_false]

/-- What stands side by side for a node without a link, in surface order. A tail without a link
stands in its relation by its parts. -/
inductive SideBySide : Tree → List Tree → Prop where
  | composite {cs} : SideBySide (composite cs) cs
  | bare {role head contents extra} :
    SideBySide (bridi ⟨role, head, none, contents, none, extra⟩) (head ++ contents.toList)
  | spliced {role head selbri preterms tailTerms tagged extra' contents extra} :
    SideBySide
      (bridi ⟨role, head, some (tail ⟨selbri, preterms, tailTerms, tagged, none, extra'⟩), contents,
        none, extra⟩)
      (head ++ contents.toList ++ preterms ++ selbri :: tailTerms)
  | whole {role head rear contents extra} :
    (∀ selbri preterms tailTerms tagged extra',
      rear ≠ tail ⟨selbri, preterms, tailTerms, tagged, none, extra'⟩) →
    SideBySide (bridi ⟨role, head, some rear, contents, none, extra⟩)
      (head ++ contents.toList ++ [rear])
  | conjunction {left right joiner scope tailTerms extra} :
    SideBySide (conjunction ⟨left, right, joiner, scope, tailTerms, none, extra⟩)
      (left.toList ++ joiner.toList ++ scope ++ right :: tailTerms)
  | tail {selbri preterms tailTerms tagged extra} :
    SideBySide (tail ⟨selbri, preterms, tailTerms, tagged, none, extra⟩)
      (preterms ++ selbri :: tailTerms)
  | term {place sumti extra} : SideBySide (term ⟨place, sumti, none, extra⟩) [sumti]

theorem splice_eq_self
    (h : ∀ selbri preterms tailTerms tagged extra,
      t ≠ tail ⟨selbri, preterms, tailTerms, tagged, none, extra⟩) : t.splice = [t] := by
  cases t with
  | tail u =>
    obtain ⟨selbri, preterms, tailTerms, tagged, link, extra⟩ := u
    cases link with
    | none => exact absurd rfl (h selbri preterms tailTerms tagged extra)
    | some inner => rfl
  | _ => rfl

theorem SideBySide.shape_eq {cs : List Tree} (h : t.SideBySide cs) : t.shape = .group cs := by
  cases h with
  | bare => simp [shape, Shape.ofLink, children]
  | spliced => simp [shape, Shape.ofLink, children, splice, Tail.children]
  | whole apart => simp [shape, Shape.ofLink, children, splice_eq_self apart]
  | _ => rfl

theorem sideBySide_of_shape {cs : List Tree} (h : t.shape = .group cs) : t.SideBySide cs := by
  have unlinked : t.link? = none := by
    cases link : t.link? with
    | none => rfl
    | some inner =>
      obtain ⟨conversion, linked⟩ := shape_of_link? link
      rw [linked] at h
      cases h
  obtain rfl := shape_group h
  cases t with
  | composite cs => exact .composite
  | bridi b =>
    obtain ⟨role, head, rear, contents, link, extra⟩ := b
    obtain rfl : link = none := unlinked
    cases rear with
    | none => simpa [children] using SideBySide.bare
    | some rear =>
      by_cases apart : ∀ selbri preterms tailTerms tagged extra',
          rear ≠ tail ⟨selbri, preterms, tailTerms, tagged, none, extra'⟩
      · simpa [children, splice_eq_self apart] using SideBySide.whole apart
      · obtain ⟨selbri, preterms, tailTerms, tagged, extra', rfl⟩ : ∃ selbri preterms tailTerms
            tagged extra', rear = tail ⟨selbri, preterms, tailTerms, tagged, none, extra'⟩ := by
          simpa using apart
        simpa [children, splice, Tail.children] using SideBySide.spliced
  | conjunction c =>
    obtain ⟨left, right, joiner, scope, tailTerms, link, extra⟩ := c
    obtain rfl : link = none := unlinked
    exact .conjunction
  | tail u =>
    obtain ⟨selbri, preterms, tailTerms, tagged, link, extra⟩ := u
    obtain rfl : link = none := unlinked
    exact .tail
  | term u =>
    obtain ⟨place, sumti, link, extra⟩ := u
    obtain rfl : link = none := unlinked
    exact .term
  | wrapper w =>
    obtain ⟨link, conversion, tertau, extra⟩ := w
    obtain rfl : link = none := unlinked
    cases h
  | text => cases h
  | leaf => cases h
  | other => cases h

mutual

/-- A tree is displayed as an outline, where conversion tables are not shown. What is left of its
parts stands in a group, unless only one is left. -/
inductive DisplayedAs (m : Mode) (exempt : Exemption) : Tree → Outline → Prop where
  | token {s} : DisplayedAs m exempt (text s) (.text s)
  | leaf {l s} : l.WrittenAs m s → DisplayedAs m exempt (leaf l) (.text s)
  | other {v} : DisplayedAs m exempt (other v) .placeholder
  | unlinked {conversion tertau extra} :
    DisplayedAs m exempt (wrapper ⟨none, conversion, tertau, extra⟩) .placeholder
  | link {t inner o} : t.link? = some inner → DisplayedAs m exempt inner o →
    DisplayedAs m exempt t o
  | only {t cs o} : t.SideBySide cs → AllDisplayedAs m exempt cs [o] → DisplayedAs m exempt t o
  | group {t cs os} : t.SideBySide cs → AllDisplayedAs m exempt cs os → os.length ≠ 1 →
    DisplayedAs m exempt t (.group os)

inductive AllDisplayedAs (m : Mode) (exempt : Exemption) : List Tree → List Outline → Prop where
  | nil : AllDisplayedAs m exempt [] []
  | hidden {c cs os} : c.Hidden m exempt → AllDisplayedAs m exempt cs os →
    AllDisplayedAs m exempt (c :: cs) os
  | shown {c cs o os} : ¬c.Hidden m exempt → DisplayedAs m exempt c o →
    AllDisplayedAs m exempt cs os → AllDisplayedAs m exempt (c :: cs) (o :: os)

end

mutual

theorem DisplayedAs.outline_eq (tables : m.tables = false) :
    ∀ {t : Tree} {o : Outline}, t.DisplayedAs m exempt o → t.outline m exempt = o
  | _, _, .token => outline_token rfl
  | _, _, .leaf written => by rw [outline_leaf rfl, Leaf.writtenAs_iff.mp written]
  | _, _, .other => outline_unknown rfl
  | _, _, .unlinked => outline_unknown rfl
  | _, _, .link linked inner => by
    obtain ⟨conversion, shape⟩ := shape_of_link? linked
    rw [outline_link shape, tables]
    exact inner.outline_eq tables
  | _, _, .only side parts => by
    rw [outline_of_shape_group side.shape_eq, parts.outlines_eq tables]
    rfl
  | _, _, .group side parts several => by
    rw [outline_of_shape_group side.shape_eq, parts.outlines_eq tables,
      Outline.ofParts_of_length_ne_one several]

theorem AllDisplayedAs.outlines_eq (tables : m.tables = false) :
    ∀ {cs : List Tree} {os : List Outline}, AllDisplayedAs m exempt cs os →
      outlines m exempt cs = os
  | _, _, .nil => rfl
  | _, _, .hidden hidden rest => by
    rw [← List.singleton_append, outlines_append,
      outlines_of_not_isVisible (isVisible_eq_false.mpr hidden), rest.outlines_eq tables]
    rfl
  | _, _, .shown shown first rest => by
    rw [← List.singleton_append, outlines_append, outlines_of_isVisible (isVisible_iff.mpr shown),
      first.outline_eq tables, rest.outlines_eq tables]
    rfl

end

theorem allDisplayedAs_outlines {cs : List Tree}
    (each : ∀ c ∈ cs, c.DisplayedAs m exempt (c.outline m exempt)) :
    AllDisplayedAs m exempt cs (outlines m exempt cs) := by
  induction cs with
  | nil => exact .nil
  | cons c cs ih =>
    have rest := ih fun d hd => each d (List.mem_cons_of_mem c hd)
    rw [← List.singleton_append, outlines_append]
    cases visible : c.isVisible m exempt with
    | false =>
      rw [outlines_of_not_isVisible visible]
      exact .hidden (isVisible_eq_false.mp visible) rest
    | true =>
      rw [outlines_of_isVisible visible]
      exact .shown (isVisible_iff.mp visible) (each c List.mem_cons_self) rest

theorem displayedAs_outline (tables : m.tables = false) :
    t.DisplayedAs m exempt (t.outline m exempt) := by
  induction t using shape_induction with
  | token t s hs =>
    rw [outline_token hs]
    obtain rfl := eq_text_of_shape hs
    exact .token
  | leaf t l hs =>
    rw [outline_leaf hs]
    obtain rfl := eq_leaf_of_shape hs
    exact .leaf (Leaf.writtenAs_iff.mpr rfl)
  | link t conversion inner hs ih =>
    rw [outline_link hs, tables]
    exact .link (link?_of_shape hs) ih
  | group t cs hs ih =>
    rw [outline_of_shape_group hs]
    have side := sideBySide_of_shape hs
    have parts := allDisplayedAs_outlines ih
    by_cases one : (outlines m exempt cs).length = 1
    · obtain ⟨o, only⟩ := List.length_eq_one_iff.mp one
      rw [only] at parts ⊢
      exact .only side parts
    · rw [Outline.ofParts_of_length_ne_one one]
      exact .group side parts one
  | unknown t hs =>
    rw [outline_unknown hs]
    cases t with
    | other v => exact .other
    | wrapper w =>
      obtain ⟨link, conversion, tertau, extra⟩ := w
      cases link with
      | none => exact .unlinked
      | some inner => cases hs
    | bridi | conjunction | tail | term => exact absurd hs (ofLink_ne_unknown _ _)
    | composite => cases hs
    | text => cases hs
    | leaf => cases hs

theorem displayedAs_iff (tables : m.tables = false) {o : Outline} :
    t.DisplayedAs m exempt o ↔ o = t.outline m exempt := by
  constructor
  · intro displayed
    exact (displayed.outline_eq tables).symm
  · rintro rfl
    exact displayedAs_outline tables

end Tree

end Lojban
