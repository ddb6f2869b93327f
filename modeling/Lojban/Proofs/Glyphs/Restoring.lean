import Lojban.Proofs.Glyphs.Nesting

/-!
Showing brackets as glyphs loses nothing. With every glyph turned back into the square bracket it
stands for, and without the numbers, what is shown is the text again, unless the text itself holds
characters that only showing brings in.
-/

namespace Lojban

open BracketKind (ofOpening? ofClosing?)

namespace Glyphs

def ornaments : List Char :=
  ['(', '\x7b', '<', ')', '\x7d', '>'] ++ DigitSet.superscript.glyphs

def Unadorned (s : String) : Prop := ∀ c ∈ s.toList, c ∉ ornaments

instance (s : String) : Decidable (Unadorned s) :=
  List.decidableBAll (fun c => c ∉ ornaments) s.toList

/-- The square bracket a glyph stands for. A digit of a number stands for nothing, and any other
character for itself. -/
def square? (c : Char) : Option Char :=
  if (ofOpening? c).isSome then some '['
  else if (ofClosing? c).isSome then some ']'
  else if c ∈ DigitSet.superscript.glyphs then none
  else some c

def restore (s : String) : String := String.ofList (s.toList.filterMap square?)

theorem square?_opening (k : BracketKind) : square? k.opening = some '[' := by
  cases k <;> rfl

theorem square?_closing (k : BracketKind) : square? k.closing = some ']' := by
  cases k <;> rfl

theorem square?_digit {c : Char} (h : c ∈ DigitSet.superscript.glyphs) : square? c = none := by
  have digits : DigitSet.superscript.glyphs.all fun c => (square? c).isNone := by decide
  exact Option.isNone_iff_eq_none.mp (List.all_eq_true.mp digits c h)

theorem square?_ornament {c : Char} (h : c ∈ ornaments) : square? c ≠ some c := by
  have changed : ornaments.all fun c => square? c != some c := by decide
  exact bne_iff_ne.mp (List.all_eq_true.mp changed c h)

theorem square?_eq_self {c : Char} : square? c = some c ↔ c ∉ ornaments := by
  constructor
  · intro same ornament
    exact square?_ornament ornament same
  · intro plain
    by_cases hl : c = '['
    · rw [hl]
      rfl
    by_cases hr : c = ']'
    · rw [hr]
      rfl
    have apart : c ∉ brackets := by
      simp only [ornaments, List.mem_append, List.mem_cons, List.not_mem_nil, or_false, not_or]
        at plain
      simp [brackets, plain, hl, hr]
    have undigited : c ∉ DigitSet.superscript.glyphs := fun h => plain (List.mem_append_right _ h)
    rw [square?, ofOpening?_eq_none apart, ofClosing?_eq_none apart, if_neg undigited]
    rfl

theorem filterMap_square?_eq_self {cs : List Char} :
    cs.filterMap square? = cs ↔ ∀ c ∈ cs, c ∉ ornaments := by
  induction cs with
  | nil => simp
  | cons c cs ih =>
    rw [List.forall_mem_cons, ← ih, ← square?_eq_self]
    cases hc : square? c with
    | none =>
      -- A digit leaves too few characters behind.
      have shorter := List.length_filterMap_le square? cs
      rw [List.filterMap_cons_none hc]
      constructor
      · intro same
        rw [same, List.length_cons] at shorter
        omega
      · intro both
        cases both.1
    | some d => rw [List.filterMap_cons_some hc, List.cons.injEq, Option.some.injEq]

theorem restore_eq_self {s : String} : restore s = s ↔ Unadorned s := by
  rw [restore, ← String.toList_inj, String.toList_ofList, filterMap_square?_eq_self, Unadorned]

theorem filterMap_floor (depth : Nat) : (floor depth).filterMap square? = [] := by
  apply List.filterMap_eq_nil_iff.mpr
  intro c hc
  rw [floor] at hc
  split at hc
  · exact square?_digit (DigitSet.mem_of_mem_encode hc)
  · cases hc

theorem filterMap_opening (depth : Nat) : (opening depth).filterMap square? = ['['] := by
  rw [opening, List.filterMap_cons_some (square?_opening _), filterMap_floor]

theorem filterMap_closing (depth : Nat) : (closing depth).filterMap square? = [']'] := by
  rw [closing, List.filterMap_append, filterMap_floor, List.filterMap_cons_some (square?_closing _)]
  rfl

/-- Whatever the depth, and whether or not the brackets of the text pair up. -/
theorem filterMap_shown (depth : Nat) (cs : List Char) :
    (shown depth cs).filterMap square? = cs.filterMap square? := by
  fun_induction shown depth cs with
  | case1 => rfl
  | case2 depth cs ih =>
    rw [List.filterMap_append, filterMap_opening, ih]
    rfl
  | case3 cs ih => rw [List.filterMap_cons, List.filterMap_cons, ih]
  | case4 cs outer ih =>
    rw [List.filterMap_append, filterMap_closing, ih]
    rfl
  | case5 depth c cs hl hr ih => rw [List.filterMap_cons, List.filterMap_cons, ih]

theorem restore_prettify (s : String) : restore (prettify s) = restore s := by
  rw [restore, prettify, String.toList_ofList, filterMap_shown, restore]

end Glyphs

theorem prettify_lossless (s : String) :
    (Glyphs.restore (prettify s) = s ↔ Glyphs.Unadorned s) ∧
      (Glyphs.Unadorned s → ∀ s', Glyphs.Unadorned s' → prettify s' = prettify s → s' = s) := by
  constructor
  · rw [Glyphs.restore_prettify, Glyphs.restore_eq_self]
  · intro plain s' plain' same
    calc
      s' = Glyphs.restore s' := (Glyphs.restore_eq_self.mpr plain').symm
      _ = Glyphs.restore (prettify s') := (Glyphs.restore_prettify s').symm
      _ = Glyphs.restore (prettify s) := by rw [same]
      _ = Glyphs.restore s := Glyphs.restore_prettify s
      _ = s := Glyphs.restore_eq_self.mpr plain

theorem prettify_lossless_ragged :
    Glyphs.Unadorned "a] [[[[[b]] c" ∧
      prettify "a] [[[[[b]] c" = "a] ([\x7b<(¹b¹)> c" ∧
      Glyphs.restore "a] ([\x7b<(¹b¹)> c" = "a] [[[[[b]] c" ∧
      ∀ s', Glyphs.Unadorned s' → prettify s' = "a] ([\x7b<(¹b¹)> c" → s' = "a] [[[[[b]] c" := by
  have plain : Glyphs.Unadorned "a] [[[[[b]] c" := by decide +kernel
  have shown : prettify "a] [[[[[b]] c" = "a] ([\x7b<(¹b¹)> c" := by decide +kernel
  have lossless := prettify_lossless "a] [[[[[b]] c"
  rw [shown] at lossless
  exact ⟨plain, shown, lossless.1.mpr plain, lossless.2 plain⟩

end Lojban
