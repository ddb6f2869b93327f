import Lojban.Proofs.Glyphs.Nesting
import Mathlib.Data.List.Basic

/-!
Which brackets belong together, in any text. A closing bracket closes an opening one if what stands
between them nests. Glyphs are chosen by a depth alone, but the depth is the number of brackets left
open, so both ends of a pair are of one kind and carry one number.
-/

namespace Lojban

namespace Glyphs

/-- The text closes a bracket that opens right before it. -/
def Closes (cs : List Char) : Prop := ∃ inner rest, cs = inner ++ ']' :: rest ∧ Nested inner

namespace Closes

variable {cs : List Char}

theorem now (cs : List Char) : Closes (']' :: cs) := ⟨[], cs, rfl, .nil⟩

theorem after {inner : List Char} (nested : Nested inner) (h : Closes cs) :
    Closes (inner ++ cs) := by
  obtain ⟨within, rest, rfl, hw⟩ := h
  exact ⟨inner ++ within, rest, by simp, nested.append hw⟩

end Closes

/-- A text is empty, or begins with a plain character, with a closing bracket that closes nothing,
with a pair, or with a bracket that stays open. -/
@[elab_as_elim]
theorem text_induction {P : List Char → Prop} (nil : P [])
    (plain : ∀ c cs, c ≠ '[' → c ≠ ']' → P cs → P (c :: cs))
    (stray : ∀ cs, P cs → P (']' :: cs))
    (pair : ∀ inner cs, Nested inner → P cs → P (('[' :: inner ++ [']']) ++ cs))
    (unpaired : ∀ cs, ¬Closes cs → P cs → P ('[' :: cs)) : ∀ cs, P cs
  | [] => nil
  | c :: cs => by
    have shorter : ∀ ds : List Char, ds.length ≤ cs.length → P ds := fun ds _ =>
      text_induction nil plain stray pair unpaired ds
    by_cases opens : c = '['
    · subst opens
      by_cases closed : Closes cs
      · obtain ⟨inner, rest, rfl, nested⟩ := closed
        have := pair inner rest nested (shorter rest (by simp; omega))
        simpa using this
      · exact unpaired cs closed (shorter cs (Nat.le_refl _))
    · by_cases closes : c = ']'
      · exact closes ▸ stray cs (shorter cs (Nat.le_refl _))
      · exact plain c cs opens closes (shorter cs (Nat.le_refl _))
termination_by cs => cs.length

theorem level_succ {cs : List Char} (h : ¬Closes cs) (depth : Nat) :
    level (depth + 1) cs = level depth cs + 1 := by
  -- A pair leaves the depth as it was, and behind a bracket that stays open the induction
  -- hypothesis is needed one level deeper.
  induction cs using text_induction generalizing depth with
  | nil => rfl
  | plain c cs hl hr ih =>
    have later : ¬Closes cs := fun hc => h (hc.after (Nested.nil.plain hl hr))
    rw [level_plain hl hr, level_plain hl hr, ih later]
  | stray cs => exact absurd (Closes.now cs) h
  | pair inner cs nested ih =>
    have later : ¬Closes cs := fun hc => h (hc.after nested.enclosed)
    rw [nested.enclosed.level_append, nested.enclosed.level_append, ih later]
  | unpaired cs later ih => exact ih later (depth + 1)

theorem closes_iff {cs : List Char} : Closes cs ↔ level 1 cs = level 0 cs := by
  constructor
  · rintro ⟨inner, rest, rfl, nested⟩
    rw [nested.level_append, nested.level_append]
    rfl
  · intro same
    refine Classical.byContradiction fun h => ?_
    have more : level 1 cs = level 0 cs + 1 := level_succ h 0
    omega

instance (cs : List Char) : Decidable (Closes cs) := decidable_of_iff _ closes_iff.symm

def unclosed : List Char → Nat
  | [] => 0
  | c :: cs => unclosed cs + if c = '[' ∧ ¬Closes cs then 1 else 0

theorem unclosed_of_ne {c : Char} (h : c ≠ '[') (cs : List Char) :
    unclosed (c :: cs) = unclosed cs := by
  rw [unclosed, if_neg fun both => h both.1, Nat.add_zero]

theorem unclosed_opening {cs : List Char} (h : ¬Closes cs) :
    unclosed ('[' :: cs) = unclosed cs + 1 := by
  rw [unclosed, if_pos ⟨rfl, h⟩]

theorem unclosed_append {cs : List Char} (h : Nested cs) (ds : List Char) :
    unclosed (cs ++ ds) = unclosed ds := by
  induction h generalizing ds with
  | nil => rfl
  | plain hl _ _ ih => rw [List.cons_append, unclosed_of_ne hl, ih]
  | @pair inner cs within _ ihInner ihRest =>
    have closed : Closes (inner ++ ']' :: (cs ++ ds)) := (Closes.now _).after within
    simp only [List.cons_append, List.append_assoc]
    rw [unclosed, if_neg fun both => both.2 closed, Nat.add_zero, ihInner,
      unclosed_of_ne (by decide), ihRest]

theorem level_eq_unclosed (cs : List Char) : level 0 cs = unclosed cs := by
  induction cs using text_induction with
  | nil => rfl
  | plain c cs hl hr ih => rw [level_plain hl hr, unclosed_of_ne hl, ih]
  | stray cs ih => rw [level_closing, unclosed_of_ne (by decide), Nat.zero_sub, ih]
  | pair inner cs nested ih =>
    rw [nested.enclosed.level_append, unclosed_append nested.enclosed, ih]
  | unpaired cs h ih => rw [level_opening, level_succ h, unclosed_opening h, ih]

example : unclosed "][a[[b]c".toList = 2 := by decide +kernel

theorem nested_of_unclosed_eq_zero {cs : List Char} (h : ¬Closes cs) (zero : unclosed cs = 0) :
    Nested cs := by
  induction cs using text_induction with
  | nil => exact .nil
  | plain c cs hl hr ih =>
    rw [unclosed_of_ne hl] at zero
    exact (ih (fun hc => h (hc.after (Nested.nil.plain hl hr))) zero).plain hl hr
  | stray cs => exact absurd (Closes.now cs) h
  | pair inner cs nested ih =>
    rw [unclosed_append nested.enclosed] at zero
    exact nested.enclosed.append (ih (fun hc => h (hc.after nested.enclosed)) zero)
  | unpaired cs later =>
    rw [unclosed_opening later] at zero
    exact absurd zero (Nat.succ_ne_zero _)

/-- The text opens a bracket that would be closed right after it. -/
def Opens (cs : List Char) : Prop := ∃ outer inner, cs = outer ++ '[' :: inner ∧ Nested inner

theorem Opens.behind {cs : List Char} (h : Opens cs) (front : List Char) : Opens (front ++ cs) := by
  obtain ⟨outer, inner, rfl, nested⟩ := h
  exact ⟨front ++ outer, inner, by simp, nested⟩

theorem opens_of_unclosed {cs : List Char} (h : unclosed cs ≠ 0) : Opens cs := by
  induction cs using text_induction with
  | nil => exact absurd rfl h
  | plain c cs hl _ ih =>
    rw [unclosed_of_ne hl] at h
    exact (ih h).behind [c]
  | stray cs ih =>
    rw [unclosed_of_ne (by decide)] at h
    exact (ih h).behind [']']
  | pair inner cs nested ih =>
    rw [unclosed_append nested.enclosed] at h
    exact (ih h).behind ('[' :: inner ++ [']'])
  | unpaired cs later ih =>
    by_cases zero : unclosed cs = 0
    · exact ⟨[], cs, rfl, nested_of_unclosed_eq_zero later zero⟩
    · exact (ih zero).behind ['[']

theorem unclosed_append_opening (outer : List Char) {inner : List Char} (nested : Nested inner) :
    unclosed (outer ++ '[' :: inner) = unclosed outer + 1 := by
  rw [← level_eq_unclosed, level_append, level_eq_unclosed, level_opening, nested.level_eq]

def written (depth : Nat) (cs : List Char) (i : Nat) : List Char :=
  shown (level depth (cs.take i)) cs[i]?.toList

theorem shown_eq_flatMap (depth : Nat) (cs : List Char) :
    shown depth cs = (List.range cs.length).flatMap (written depth cs) := by
  induction cs generalizing depth with
  | nil => rfl
  | cons c cs ih =>
    have tail (i : Nat) : written depth (c :: cs) (i + 1) = written (level depth [c]) cs i := by
      rw [written, List.take_succ_cons, ← List.singleton_append, level_append]
      rfl
    rw [← List.singleton_append, shown_append, ih, List.singleton_append, List.length_cons,
      List.range_succ_eq_map, List.flatMap_cons, List.flatMap_map]
    simp only [Nat.succ_eq_add_one, tail]
    rfl

section

variable (depth : Nat) (cs ds : List Char)

theorem written_at (c : Char) :
    written depth (cs ++ c :: ds) cs.length = shown (level depth cs) [c] := by
  simp [written]

theorem written_append_left {i : Nat} (h : i < cs.length) :
    written depth (cs ++ ds) i = written depth cs i := by
  rw [written, written, List.take_append_of_le_length (Nat.le_of_lt h), List.getElem?_append_left h]

theorem written_append_right (i : Nat) :
    written depth (cs ++ ds) (cs.length + i) = written (level depth cs) ds i := by
  rw [written, List.take_length_add_append, level_append,
    List.getElem?_append_right (Nat.le_add_right _ _), Nat.add_sub_cancel_left, written]

end

/-- What is written for each character of a text. A bracket that closes one of the text is written
like the one it closes, by how many are open around the pair. One that closes none stays as it is,
and nothing else changes if it is taken out. -/
structure InPairs (cs : List Char) (written : Nat → List Char) : Prop where
  opening : ∀ outer later, cs = outer ++ '[' :: later →
    written outer.length = Glyphs.opening (unclosed outer)
  closing : ∀ outer inner later, cs = outer ++ '[' :: inner ++ ']' :: later → Nested inner →
    written (outer ++ '[' :: inner).length = Glyphs.closing (unclosed outer)
  stray : ∀ front later, cs = front ++ ']' :: later → ¬Opens front →
    written front.length = [']'] ∧
      (∀ between, unclosed (front ++ ']' :: between) = unclosed (front ++ between)) ∧
      shown 0 (front ++ later) = (List.range front.length).flatMap written ++
        (List.range later.length).flatMap fun i => written (front.length + 1 + i)
  plain : ∀ front c later, cs = front ++ c :: later → c ≠ '[' → c ≠ ']' →
    written front.length = [c]

theorem level_stray {front : List Char} (later : List Char) (bare : unclosed front = 0) :
    level 0 (front ++ ']' :: later) = level 0 (front ++ later) := by
  rw [level_append, level_append, level_eq_unclosed, bare]
  rfl

theorem shown_without {front : List Char} (later : List Char) (bare : unclosed front = 0) :
    shown 0 (front ++ later) =
      (List.range front.length).flatMap (written 0 (front ++ ']' :: later)) ++
        (List.range later.length).flatMap fun i =>
          written 0 (front ++ ']' :: later) (front.length + 1 + i) := by
  have before : (List.range front.length).flatMap (written 0 (front ++ ']' :: later)) =
      (List.range front.length).flatMap (written 0 front) := by
    refine List.flatMap_congr fun i hi => ?_
    exact written_append_left 0 front _ (List.mem_range.mp hi)
  have behind (i : Nat) :
      written 0 (front ++ ']' :: later) (front.length + 1 + i) = written 0 later i := by
    have still : level 0 (front ++ [']']) = 0 := by
      rw [level_stray [] bare, List.append_nil, level_eq_unclosed, bare]
    have place : front.length + 1 = (front ++ [']']).length := by simp
    rw [List.append_cons, place, written_append_right, still]
  simp only [before, behind]
  rw [shown_append, level_eq_unclosed, bare, shown_eq_flatMap, shown_eq_flatMap]

theorem inPairs_written (cs : List Char) : InPairs cs (written 0 cs) where
  opening := by
    rintro outer later rfl
    rw [written_at, level_eq_unclosed]
    simp [shown]
  closing := by
    rintro outer inner later rfl nested
    rw [written_at, level_eq_unclosed, unclosed_append_opening outer nested]
    simp [shown]
  stray := by
    rintro front later rfl stray
    -- With a bracket left open before it, it would close that one.
    have bare : unclosed front = 0 := Classical.byContradiction fun h => stray (opens_of_unclosed h)
    refine ⟨?_, fun between => ?_, shown_without later bare⟩
    · rw [written_at, level_eq_unclosed, bare]
      rfl
    · rw [← level_eq_unclosed, ← level_eq_unclosed, level_stray between bare]
  plain := by
    rintro front c later rfl hl hr
    rw [written_at, shown_plain hl hr, shown]

theorem floor_ne_nil {depth : Nat} : floor depth ≠ [] ↔ 0 < depth ∧ depth % 4 = 0 := by
  rw [floor]
  split
  · rename_i round
    have numbered : depth / 4 ≠ 0 := by omega
    simpa [DigitSet.encode_eq_nil, numbered, Nat.pos_iff_ne_zero] using round
  · rename_i other
    simpa [Nat.pos_iff_ne_zero] using other

theorem value_floor {depth : Nat} (h : floor depth ≠ []) :
    DigitSet.superscript.value (floor depth) = depth / 4 := by
  rw [floor] at h ⊢
  split
  · exact DigitSet.value_encode (by decide) _
  · simp_all

end Glyphs

theorem prettify_in_pairs (s : String) :
    ∃ written : Nat → List Char,
      (prettify s).toList = (List.range s.toList.length).flatMap written ∧
      Glyphs.InPairs s.toList written ∧
      ∀ depth, ∃ (kind : BracketKind) (numeral : List Char),
        Glyphs.opening depth = kind.opening :: numeral ∧
        Glyphs.closing depth = numeral ++ [kind.closing] ∧
        [.round, .square, .curly, .angle][depth % 4]? = some kind ∧
        (numeral ≠ [] ↔ 0 < depth ∧ depth % 4 = 0) ∧
        (numeral ≠ [] → numeral = DigitSet.superscript.encode (depth / 4) ∧
          DigitSet.superscript.value numeral = depth / 4) := by
  refine ⟨Glyphs.written 0 s.toList, ?_, Glyphs.inPairs_written _, fun depth => ?_⟩
  · rw [prettify, String.toList_ofList, Glyphs.shown_eq_flatMap]
  · refine ⟨_, Glyphs.floor depth, rfl, rfl, BracketKind.ofDepth_eq depth, Glyphs.floor_ne_nil, ?_⟩
    intro numbered
    have round := Glyphs.floor_ne_nil.mp numbered
    refine ⟨?_, Glyphs.value_floor numbered⟩
    rw [Glyphs.floor, if_pos ⟨Nat.ne_of_gt round.1, round.2⟩]

end Lojban
