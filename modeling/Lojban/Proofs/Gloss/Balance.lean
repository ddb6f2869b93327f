import Lojban.Proofs.Gloss.Outline
import Lojban.Proofs.Glyphs.Balance
import Lojban.Proofs.Table.Lookup
import Lojban.Proofs.Tree.Everywhere

namespace Lojban

open Glyphs (Unbracketed)

namespace Vocabulary

/-- Of the words whose English is fixed, one alone is put into a bracket. -/
theorem unbracketed_fixed {w e : String} (h : fixed? w = some e) : Unbracketed e ↔ w ≠ "vau" := by
  have entry : (w, e) ∈ marks ++ english := by
    have found : marks.lookup w = some e ∨ english.lookup w = some e := by
      rw [fixed?] at h
      cases hm : marks.lookup w with
      | some e' => exact .inl (by simpa [hm] using h)
      | none => exact .inr (by simpa [hm] using h)
    rcases found with found | found
    all_goals
      obtain ⟨front, back, whole, -⟩ := List.lookup_eq_some_iff.mp found
      simp [whole]
  have all : ∀ d ∈ marks ++ english, Unbracketed d.2 ↔ d.1 ≠ "vau" := by decide +kernel
  exact all (w, e) entry

theorem numbered_ne_vau (w : String) (n : Nat) : w ++ toString n ≠ "vau" := by
  intro h
  have shown : (toString n).toList = Nat.toDigits 10 n := by simp
  have last : (Nat.toDigits 10 n).getLast Nat.toDigits_ne_nil = 'u' := by
    have whole : (w.toList ++ Nat.toDigits 10 n).getLast? = some 'u' := by
      rw [← shown, ← String.toList_append, h]
      rfl
    rw [List.getLast?_append, List.getLast?_eq_some_getLast Nat.toDigits_ne_nil,
      Option.some_or] at whole
    exact Option.some.inj whole
  have digit := Nat.isDigit_of_mem_toDigits (by decide) (by decide)
    (List.getLast_mem (Nat.toDigits_ne_nil (n := n) (b := 10)))
  rw [last] at digit
  cases digit

end Vocabulary

/-- A word that can be said without a bracket: it holds none, and is not put into one. -/
def Tree.PlainWord (t : Tree) : Prop := ∀ w ∈ t.text?, Unbracketed w ∧ w ≠ "vau"

namespace Lexicon

structure Unbracketed (x : Lexicon) : Prop where
  record : ∀ e ∈ x.places.entries, ∀ s ∈ e.2.texts, Glyphs.Unbracketed s
  gloss : ∀ w, ∀ s ∈ x.dictionary.gloss w, Glyphs.Unbracketed s
  keyword : ∀ w place, ∀ s ∈ x.dictionary.keyword w place, Glyphs.Unbracketed s

def Plain (x : Lexicon) (size : Nat) : Phrase → Prop
  | .node t => sizeOf t < size ∧ t.Everywhere Tree.PlainWord
  | .word w => Glyphs.Unbracketed (x.say w)
  | .text s => Glyphs.Unbracketed s
  | .seq _ => False
  | .unknown => True

namespace Unbracketed

variable {x : Lexicon} (h : x.Unbracketed)

include h

theorem say {w : String} (plain : Glyphs.Unbracketed w) (other : w ≠ "vau") :
    Glyphs.Unbracketed (x.say w) := by
  rw [Lexicon.say]
  cases hf : Vocabulary.fixed? w with
  | some e => exact (Vocabulary.unbracketed_fixed hf).mpr other
  | none =>
    cases hg : x.dictionary.gloss w with
    | some s => exact h.gloss w s hg
    | none => exact plain

theorem admits (size : Nat) : x.Admits (x.Plain size) where
  down t ht c hc :=
    ⟨Nat.lt_trans (Tree.sizeOf_lt_of_mem_parts hc) ht.1, ht.2.part hc⟩
  word t ht w hw := by
    obtain ⟨u, plain, hu⟩ := ht.2.headWord hw
    exact h.say (plain w hu).1 (plain w hu).2
  numbered t ht w hw place := by
    obtain ⟨u, plain, hu⟩ := ht.2.headWord hw
    exact h.say ((plain w hu).1.append (.toString_nat place)) (Vocabulary.numbered_ne_vau w place)
  text w r hr s hs := h.record (w, r) (Entries.mem_of_get? hr) s hs
  keyword w s hs := h.keyword w 1 s hs

end Unbracketed

end Lexicon

namespace Renderer

variable {r : Renderer} {m : Mode}

theorem balanced_gloss (h : r.Unbracketed) (t : Tree) (words : t.Everywhere Tree.PlainWord) :
    Balanced (r.gloss m t).chars := by
  have pieces : (r.phrase t).Every (r.Plain (sizeOf t)) := by
    apply Lexicon.every_phrase (h.admits (sizeOf t))
    · intro c hc
      exact ⟨Tree.sizeOf_lt_of_mem_parts hc, words.part hc⟩
    · intro w hw
      exact h.say (words.here w hw).1 (words.here w hw).2
    · trivial
  rw [gloss_eq_shown]
  -- A relation puts nodes from deep below itself into its phrase, so the induction is on size.
  refine closed_shown Balanced.closed (fun q hq => ?_) (r.phrase t) pieces
  cases q with
  | node c =>
    have : sizeOf c < sizeOf t := hq.1
    rw [shown_node]
    exact balanced_gloss h c hq.2
  | word w =>
    rw [shown_word]
    exact Balanced.of_not_mem hq.1 hq.2
  | text s =>
    rw [shown_text]
    exact Balanced.of_not_mem hq.1 hq.2
  | seq ps => exact hq.elim
  | unknown =>
    rw [shown_unknown]
    exact Balanced.closed.placeholder
termination_by sizeOf t

end Renderer

/-- If no word of the tree stands for a bracket, and no word or text of the tables holds one, then no
start of the gloss closes more brackets than it opens, and the whole opens as many as it closes. -/
theorem Renderer.gloss_brackets_balance (r : Renderer) (m : Mode) {t : Tree}
    (words : t.Everywhere fun u => ∀ w ∈ u.text?, Unbracketed w ∧ w ≠ "vau")
    (texts : r.Unbracketed) :
    (∀ start, start <+: (r.gloss m t).toString.toList → start.count ']' ≤ start.count '[') ∧
      (bracketCount (r.gloss m t).toString).1 = (bracketCount (r.gloss m t).toString).2 ∧
      ∀ w e, Vocabulary.fixed? w = some e → (Unbracketed e ↔ w ≠ "vau") := by
  have balanced : Balanced (r.gloss m t).toString.toList := by
    rw [Outline.toString, String.toList_ofList]
    exact balanced_gloss texts t words
  exact ⟨balanced.start, balanced.whole, fun _ _ => Vocabulary.unbracketed_fixed⟩

/-- Two tails with a shared term, a compound predicate, a term by number, quotation marks, and nodes
with nothing to show. -/
def Tree.errand : Tree :=
  .composite [.text "lu",
    .bridi ⟨.bridi, [.term ⟨some 1, .word "mi", none, []⟩],
      some (.conjunction ⟨some (.tail ⟨.wrapper ⟨some (.composite [.word "se", .word "klama"]),
          some [2, 1], some (.wrapper ⟨some (.word "klama"), none, none, []⟩), []⟩,
          [.text "ti"], [.term ⟨some 3, .composite [.word "le", .word "zarci"], none, []⟩],
          none, none, []⟩),
        .tail ⟨.word "nelci", [], [.composite []], some [2], none, []⟩, some (.word "gi'e"),
        [.word "bo"], [.term ⟨some 2, .word "do", none, []⟩], none, []⟩), none, none, []⟩,
    .text "li'u", .wrapper ⟨none, none, none, []⟩, .other (.bool true)]

def Renderer.errand : Renderer :=
  ⟨⟨⟨[("klama", ⟨some "goes", some "to", none, ["from", "via"]⟩)], List.pairwise_singleton _ _⟩,
    ⟨fun w => if w = "zarci" then some "market" else none,
      fun w place => if w = "nelci" ∧ place = 1 then some "liking" else none⟩⟩, fun _ => false⟩

theorem Renderer.gloss_brackets_balance_errand :
    (Tree.errand.Everywhere fun u => ∀ w ∈ u.text?, Unbracketed w ∧ w ≠ "vau") ∧
      errand.Unbracketed ∧
      (bracketCount (errand.gloss .blank .errand).toString).1 =
        (bracketCount (errand.gloss .blank .errand).toString).2 := by
  have words : Tree.errand.Everywhere fun u => ∀ w ∈ u.text?, Unbracketed w ∧ w ≠ "vau" := by
    simp [Tree.errand, Tree.word, Tree.text?]
    decide
  have texts : errand.Unbracketed := by
    refine ⟨by decide, ?_, ?_⟩
    · intro w s hs
      obtain ⟨-, same⟩ := Option.ite_none_right_eq_some.mp hs
      exact Option.some.inj same ▸ by decide
    · intro w place s hs
      obtain ⟨-, same⟩ := Option.ite_none_right_eq_some.mp hs
      exact Option.some.inj same ▸ by decide
  exact ⟨words, texts, (errand.gloss_brackets_balance .blank words texts).2.1⟩

end Lojban
