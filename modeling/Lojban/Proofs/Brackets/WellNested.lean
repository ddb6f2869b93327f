import Lojban.Proofs.Brackets.Outline
import Lojban.Proofs.Outline.Chars
import Lojban.Proofs.Text.Upper
import Lojban.Renderer

/-!
Brackets of trees nest. If no text of a tree holds a bracket of any kind, then what is shown for the
tree in brackets is well nested, its placeholders and conversion tables included.
-/

namespace Lojban

structure SquareNested (cs : List Char) : Prop where
  nested : Nested cs
  square : ∀ c ∈ cs, c ∈ Glyphs.brackets → c = '[' ∨ c = ']'

theorem SquareNested.closed : Outline.Closed SquareNested where
  nil := ⟨.nil, by simp⟩
  append hc hd := by
    refine ⟨hc.nested.append hd.nested, ?_⟩
    intro c member
    rcases List.mem_append.mp member with member | member
    · exact hc.square c member
    · exact hd.square c member
  enclosed h := by
    refine ⟨h.nested.enclosed, ?_⟩
    intro c member bracket
    simp only [List.cons_append, List.mem_cons, List.mem_append, List.not_mem_nil, or_false]
      at member
    rcases member with rfl | member | rfl
    · exact .inl rfl
    · exact h.square c member bracket
    · exact .inr rfl
  mark {c} plain := by
    have apart : c ≠ '[' ∧ c ≠ ']' :=
      ⟨fun h => plain (h ▸ by decide), fun h => plain (h ▸ by decide)⟩
    refine ⟨Nested.nil.plain apart.1 apart.2, ?_⟩
    intro d member bracket
    exact absurd (List.mem_singleton.mp member ▸ bracket) plain

def Glyphs.FreeOf (s : String) : Prop := ∀ c ∈ s.toList, c ∉ brackets

instance (s : String) : Decidable (Glyphs.FreeOf s) :=
  List.decidableBAll (fun c => c ∉ Glyphs.brackets) s.toList

def Tree.texts : Tree → List String
  | leaf l => l.word :: l.selmaho.toList
  | text s => [s]
  | _ => []

open Glyphs (FreeOf)

theorem Glyphs.FreeOf.append {s s' : String} (h : FreeOf s) (h' : FreeOf s') :
    FreeOf (s ++ s') := by
  intro c hc
  rw [String.toList_append] at hc
  rcases List.mem_append.mp hc with hc | hc
  · exact h c hc
  · exact h' c hc

/-- No bracket is a capital letter, so uppercasing creates none. -/
theorem Glyphs.FreeOf.upper {s : String} (h : FreeOf s) : FreeOf (Case.upper s) := by
  intro c hc bracket
  have ⟨small, lower, _⟩ := ascii_of_mem_brackets bracket
  rcases Case.mem_or_isUpper_of_mem_upper hc small with hc | capital
  · exact h c hc bracket
  · rw [lower] at capital
    cases capital

theorem Leaf.freeOf_display {l : Leaf} (word : FreeOf l.word)
    (selmaho : ∀ s ∈ l.selmaho, FreeOf s) (m : Mode) : FreeOf (l.display m) := by
  rw [display]
  split
  · exact word.upper
  · split
    · rename_i s hs
      split
      · have colon : FreeOf ":" := by decide
        exact ((selmaho s hs).append colon).append word
      · exact word
    · exact word

theorem Tree.squareNested_outline {m : Mode} {exempt : Exemption} {t : Tree}
    (h : t.Everywhere fun u => ∀ s ∈ u.texts, FreeOf s) :
    SquareNested (t.outline m exempt).chars := by
  induction t using shape_induction with
  | token t s hs =>
    rw [outline_token hs]
    obtain rfl := eq_text_of_shape hs
    exact SquareNested.closed.marks (h.here s (by simp [texts]))
  | leaf t l hs =>
    rw [outline_leaf hs]
    obtain rfl := eq_leaf_of_shape hs
    have word := h.here l.word (by simp [texts])
    have selmaho : ∀ s ∈ l.selmaho, FreeOf s := fun s hs =>
      h.here s (List.mem_cons_of_mem l.word (Option.mem_toList.mpr hs))
    exact SquareNested.closed.marks (Leaf.freeOf_display word selmaho m)
  | link t conversion inner hs ih =>
    rw [outline_link hs]
    exact SquareNested.closed.label (ih (h.link hs))
  | group t cs hs ih =>
    rw [outline_group hs]
    apply SquareNested.closed.ofParts
    intro o ho
    obtain ⟨c, hc, rfl⟩ := List.mem_map.mp ho
    have hc : c ∈ cs := (List.mem_filter.mp hc).1
    exact ih c hc (h.group hs c hc)
  | unknown t hs =>
    rw [outline_unknown hs]
    exact SquareNested.closed.placeholder

theorem Renderer.wellNested_brackets (r : Renderer) (m : Mode) {t : Tree}
    (h : t.Everywhere fun u => ∀ s ∈ u.texts, FreeOf s) :
    WellNested (prettify (r.brackets m t).toString) := by
  have shown : SquareNested (r.brackets m t).toString.toList := by
    rw [Outline.toString, String.toList_ofList]
    exact Tree.squareNested_outline h
  exact wellNested_prettify_of_nested shown.nested shown.square

/-- Groups five deep, a predicate with a conversion table, an elided word, and nodes with nothing to
show. -/
def Tree.deep : Tree :=
  .composite [.text "mi", .composite [.composite [.composite [.composite [.text "do",
    .wrapper ⟨none, none, none, []⟩], .leaf ⟨"cu", true, some "CU", none, []⟩], .text "ti"],
    .leaf ⟨"klama", false, some "BRIVLA", none, []⟩, .other (.bool true)],
    .wrapper ⟨some (.composite [.text "se", .text "klama"]), some [2, 1], none, []⟩]

theorem Renderer.wellNested_brackets_deep :
    (Tree.deep.Everywhere fun u => ∀ s ∈ u.texts, FreeOf s) ∧
      WellNested
        (prettify (blank.brackets ⟨"brackets", true, false, true, "text"⟩ .deep).toString) := by
  have free : Tree.deep.Everywhere fun u => ∀ s ∈ u.texts, FreeOf s := by
    simp [Tree.deep, Tree.texts]
    decide
  exact ⟨free, blank.wellNested_brackets _ free⟩

end Lojban
