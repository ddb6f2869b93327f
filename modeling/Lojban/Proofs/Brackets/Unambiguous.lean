import Lojban.Proofs.Brackets.WellNested
import Lojban.Proofs.Outline.Reader

/-!
Brackets are unambiguous. If the words that a tree displays are solid, then the structure that it
displays can be read off its text, so two trees with one text display one structure.
-/

namespace Lojban

open Outline (Legible Solid isSeparator)

/-- The texts that a tree displays: its words and tokens, and the classes of its words where they
are shown. What is hidden or stands beside a link is not among them. -/
inductive Tree.Displays (m : Mode) (exempt : Exemption) : Tree → String → Prop where
  | token {t s} : t.shape = .token s → Displays m exempt t s
  | word {t l} : t.shape = .leaf l → Displays m exempt t l.word
  | tag {t l s} : t.shape = .leaf l → m.classes → l.elided = false → l.selmaho = some s →
    Displays m exempt t s
  | link {t conversion inner s} : t.shape = .link conversion inner → Displays m exempt inner s →
    Displays m exempt t s
  | child {t cs c s} : t.shape = .group cs → c ∈ cs → c.isVisible m exempt →
    Displays m exempt c s → Displays m exempt t s

theorem Tree.Displays.of_everywhere {m : Mode} {exempt : Exemption} {P : String → Prop} {t : Tree}
    {s : String} (h : t.Displays m exempt s) (all : t.Everywhere fun u => ∀ w ∈ u.texts, P w) :
    P s := by
  induction h with
  | token shape =>
    obtain rfl := eq_text_of_shape shape
    exact all.here _ (by simp [texts])
  | word shape =>
    obtain rfl := eq_leaf_of_shape shape
    exact all.here _ (by simp [texts])
  | tag shape _ _ tagged =>
    obtain rfl := eq_leaf_of_shape shape
    exact all.here _ (by simp [texts, tagged])
  | link shape _ ih => exact ih (all.link shape)
  | child shape child _ _ ih => exact ih (all.group shape _ child)

namespace Outline

theorem ascii_of_isSeparator {c : Char} (h : isSeparator c) : c.toNat < 128 ∧ c.isUpper = false := by
  simp only [isSeparator, Bool.or_eq_true, beq_iff_eq] at h
  rcases h with (rfl | rfl) | rfl <;> decide

theorem Solid.upper {s : String} (h : Solid s) : Solid (Case.upper s) := by
  constructor
  · exact Case.upper_ne_empty h.1
  · apply List.all_eq_true.mpr
    intro c hc
    have plain : ∀ d ∈ s.toList, isSeparator d = false := by
      intro d hd
      simpa using List.all_eq_true.mp h.2 d hd
    cases separator : isSeparator c with
    | false => rfl
    | true =>
      obtain ⟨small, lower⟩ := ascii_of_isSeparator separator
      rcases Case.mem_or_isUpper_of_mem_upper hc small with old | capital
      · rw [plain c old] at separator
        cases separator
      · rw [lower] at capital
        cases capital

theorem Solid.tagged {s w : String} (hs : Solid s) (hw : Solid w) : Solid (s ++ ":" ++ w) := by
  constructor
  · simp [hs.1]
  · have colon : isSeparator ':' = false := rfl
    simp only [String.toList_append, List.all_append, hs.2, hw.2]
    decide

end Outline

theorem Leaf.solid_display {m : Mode} {l : Leaf} (word : Solid l.word)
    (tag : ∀ s, m.classes → l.elided = false → l.selmaho = some s → Solid s) :
    Solid (l.display m) := by
  rw [display]
  cases elided : l.elided with
  | true => exact word.upper
  | false =>
    rw [if_neg Bool.false_ne_true]
    cases class? : l.selmaho with
    | none => exact word
    | some s =>
      simp only
      split
      · rename_i classes
        exact (tag s classes elided class?).tagged word
      · exact word

theorem Tree.legible_outline {m : Mode} {exempt : Exemption} {t : Tree} (tables : m.tables = false)
    (h : ∀ s, t.Displays m exempt s → Solid s) : (t.outline m exempt).Legible := by
  induction t using shape_induction with
  | token t s hs =>
    rw [outline_token hs]
    exact .text (h s (.token hs))
  | leaf t l hs =>
    rw [outline_leaf hs]
    apply Legible.text
    apply Leaf.solid_display (h l.word (.word hs))
    intro s classes elided class?
    exact h s (.tag hs classes elided class?)
  | link t conversion inner hs ih =>
    rw [outline_link hs, tables]
    exact ih fun s displayed => h s (.link hs displayed)
  | group t cs hs ih =>
    rw [outline_group hs]
    apply Legible.ofParts
    intro o ho
    obtain ⟨c, hc, rfl⟩ := List.mem_map.mp ho
    obtain ⟨child, visible⟩ := List.mem_filter.mp hc
    exact ih c child fun s displayed => h s (.child hs child visible displayed)
  | unknown t hs =>
    rw [outline_unknown hs]
    exact .placeholder

theorem Renderer.brackets_unambiguous (r : Renderer) (m : Mode) (tables : m.tables = false)
    {t : Tree} (ht : ∀ s, t.Displays m r.exempt s → Solid s) :
    (∀ (u : Tree) (o : Outline), u.DisplayedAs m r.exempt o ↔ o = r.brackets m u) ∧
      Outline.read? (r.brackets m t).toString = some (r.brackets m t) ∧
      ∀ u : Tree, (∀ s, u.Displays m r.exempt s → Solid s) →
        (r.brackets m t).toString = (r.brackets m u).toString → r.brackets m t = r.brackets m u := by
  have first : Outline.read? (r.brackets m t).toString = some (r.brackets m t) :=
    (Tree.legible_outline tables ht).read?_toString
  refine ⟨fun _ _ => Tree.displayedAs_iff tables, first, ?_⟩
  intro u hu same
  have second : Outline.read? (r.brackets m u).toString = some (r.brackets m u) :=
    (Tree.legible_outline tables hu).read?_toString
  rw [same, second] at first
  exact (Option.some.inj first).symm

/-- A group of one, an empty group, a hidden word and a placeholder. -/
def Tree.padded : Tree :=
  .composite [.composite [.composite [], .text "mi"], .leaf ⟨"ku", true, some "KU", none, []⟩,
    .wrapper ⟨none, none, some (.text "klama"), []⟩]

def Tree.bare : Tree := .composite [.word "mi", .other (.bool true)]

theorem Renderer.brackets_unambiguous_padded :
    (∀ s, Tree.padded.Displays { Mode.blank with elided := false } blank.exempt s → Solid s) ∧
      (∀ s, Tree.bare.Displays { Mode.blank with elided := false } blank.exempt s → Solid s) ∧
      (blank.brackets { Mode.blank with elided := false } .padded).toString =
        (blank.brackets { Mode.blank with elided := false } .bare).toString ∧
      blank.brackets { Mode.blank with elided := false } .padded =
        blank.brackets { Mode.blank with elided := false } .bare ∧
      Tree.padded.DisplayedAs { Mode.blank with elided := false } blank.exempt
        (.group [.text "mi", .placeholder]) := by
  have padded : ∀ s, Tree.padded.Displays { Mode.blank with elided := false } blank.exempt s →
      Solid s := by
    intro s displayed
    apply displayed.of_everywhere
    simp [Tree.padded, Tree.texts]
    decide
  have bare : ∀ s, Tree.bare.Displays { Mode.blank with elided := false } blank.exempt s →
      Solid s := by
    intro s displayed
    apply displayed.of_everywhere
    simp [Tree.bare, Tree.word, Tree.texts]
    decide
  have same : (blank.brackets { Mode.blank with elided := false } .padded).toString =
      (blank.brackets { Mode.blank with elided := false } .bare).toString := by
    decide +kernel
  obtain ⟨displayed, read, unambiguous⟩ :=
    blank.brackets_unambiguous { Mode.blank with elided := false } rfl padded
  have shown : (blank.brackets { Mode.blank with elided := false } .padded).toString =
      "[mi [???]]" := by
    decide +kernel
  rw [shown] at read
  exact ⟨padded, bare, same, unambiguous .bare bare same,
    (displayed .padded _).mpr (Option.some.inj read)⟩

end Lojban
