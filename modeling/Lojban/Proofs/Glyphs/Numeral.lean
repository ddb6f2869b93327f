import Lojban.Glyphs
import Mathlib.Data.Nat.Digits.Lemmas

namespace Lojban

namespace DigitSet

variable {d : DigitSet}

theorem mod_radix_lt (n : Nat) : n % d.radix < d.glyphs.length :=
  Nat.mod_lt _ (Nat.lt_of_lt_of_le Nat.zero_lt_two d.two_le)

theorem div_radix_lt {n : Nat} (positive : n ≠ 0) : n / d.radix < n :=
  Nat.div_lt_self (Nat.pos_of_ne_zero positive) d.two_le

theorem mem_of_mem_encode {n : Nat} {c : Char} (h : c ∈ d.encode n) : c ∈ d.glyphs := by
  induction n using Nat.strongRecOn with
  | ind n ih =>
    rw [encode] at h
    split at h
    · cases h
    · rename_i positive
      rcases List.mem_append.mp h with h | h
      · exact ih _ (div_radix_lt positive) h
      · rw [List.mem_singleton.mp h, glyph, dif_pos (mod_radix_lt n)]
        exact List.getElem_mem _

theorem encode_eq_nil {n : Nat} : d.encode n = [] ↔ n = 0 := by
  rw [encode]
  split <;> simp_all

def value (d : DigitSet) (numeral : List Char) : Nat :=
  numeral.foldl (fun n c => n * d.radix + d.glyphs.idxOf c) 0

theorem value_concat (numeral : List Char) (c : Char) :
    d.value (numeral ++ [c]) = d.value numeral * d.radix + d.glyphs.idxOf c := by
  simp [value]

theorem idxOf_glyph (distinct : d.glyphs.Nodup) {n : Nat} (small : n < d.glyphs.length) :
    d.glyphs.idxOf (d.glyph n) = n := by
  rw [glyph, dif_pos small, distinct.idxOf_getElem]

theorem value_encode (distinct : d.glyphs.Nodup) (n : Nat) : d.value (d.encode n) = n := by
  induction n using Nat.strongRecOn with
  | ind n ih =>
    rw [encode]
    split
    · rename_i zero
      exact zero.symm
    · rename_i positive
      rw [value_concat, ih _ (div_radix_lt positive), idxOf_glyph distinct (mod_radix_lt n),
        Nat.div_add_mod']

theorem one_lt_radix (d : DigitSet) : 1 < d.radix := d.two_le

theorem glyph_idxOf {c : Char} (h : c ∈ d.glyphs) : d.glyph (d.glyphs.idxOf c) = c := by
  have inside : d.glyphs.idxOf c < d.glyphs.length := List.idxOf_lt_length_iff.mpr h
  rw [glyph, dif_pos inside, List.getElem_idxOf]

theorem encode_eq_digits (n : Nat) :
    d.encode n = ((Nat.digits d.radix n).map d.glyph).reverse := by
  induction n using Nat.strongRecOn with
  | ind n ih =>
    rw [encode]
    split
    · rename_i zero
      rw [zero, Nat.digits_zero]
      rfl
    · rename_i positive
      rw [Nat.digits_def' d.one_lt_radix (Nat.pos_of_ne_zero positive), List.map_cons,
        List.reverse_cons, ih _ (div_radix_lt positive)]

theorem value_eq_ofDigits (cs : List Char) :
    d.value cs = Nat.ofDigits d.radix (cs.reverse.map d.glyphs.idxOf) := by
  induction cs using List.reverseRecOn with
  | nil => rfl
  | append_singleton cs c ih =>
    rw [value_concat, ih, List.reverse_concat, List.map_cons, Nat.ofDigits_cons, Nat.add_comm,
      Nat.mul_comm]

structure IsNumeral (d : DigitSet) (cs : List Char) : Prop where
  digits : ∀ c ∈ cs, c ∈ d.glyphs
  lead : cs.head? ≠ some (d.glyph 0)

theorem isNumeral_encode (distinct : d.glyphs.Nodup) (n : Nat) : d.IsNumeral (d.encode n) where
  digits _ h := mem_of_mem_encode h
  lead := by
    intro h
    rw [encode_eq_digits, List.head?_reverse, List.getLast?_map, Option.map_eq_some_iff] at h
    obtain ⟨last, hlast, same⟩ := h
    have small : last < d.radix := Nat.digits_lt_base d.one_lt_radix (List.mem_of_getLast? hlast)
    have zero : last = 0 := by
      rw [← idxOf_glyph distinct small, same]
      exact idxOf_glyph distinct (Nat.lt_trans Nat.zero_lt_one d.one_lt_radix)
    have positive : n ≠ 0 := by
      intro none
      rw [none, Nat.digits_zero] at hlast
      cases hlast
    have leading := Nat.getLast_digit_ne_zero d.radix positive
    rw [List.getLast?_eq_some_getLast (Nat.digits_ne_nil_iff_ne_zero.mpr positive),
      Option.some.injEq] at hlast
    exact leading (hlast.trans zero)

theorem digits_value {cs : List Char} (h : d.IsNumeral cs) :
    Nat.digits d.radix (d.value cs) = cs.reverse.map d.glyphs.idxOf := by
  rw [value_eq_ofDigits]
  apply Nat.digits_ofDigits _ d.one_lt_radix
  · intro n hn
    obtain ⟨c, hc, rfl⟩ := List.mem_map.mp hn
    exact List.idxOf_lt_length_iff.mpr (h.digits c (List.mem_reverse.mp hc))
  · intro nonempty zero
    have some_digit : cs ≠ [] := by simpa using nonempty
    rw [List.getLast_map, List.getLast_reverse] at zero
    apply h.lead
    rw [List.head?_eq_some_head some_digit, ← zero, glyph_idxOf (h.digits _ (List.head_mem _))]

theorem encode_value {cs : List Char} (h : d.IsNumeral cs) : d.encode (d.value cs) = cs := by
  have glyphs : (cs.reverse.map d.glyphs.idxOf).map d.glyph = cs.reverse := by
    rw [List.map_map]
    refine (List.map_congr_left fun c hc => ?_).trans (List.map_id _)
    exact glyph_idxOf (h.digits c (List.mem_reverse.mp hc))
  rw [encode_eq_digits, digits_value h, glyphs, List.reverse_reverse]

theorem length_encode {n : Nat} (positive : n ≠ 0) :
    (d.encode n).length = Nat.log d.radix n + 1 := by
  rw [encode_eq_digits, List.length_reverse, List.length_map,
    Nat.length_digits _ _ d.one_lt_radix positive]

/-- One division: the last digit of what is left goes before the digits found so far. -/
def divide (d : DigitSet) (s : Nat × List Char) : Nat × List Char :=
  (s.1 / d.radix, d.glyph (s.1 % d.radix) :: s.2)

theorem iterate_divide_encode (n : Nat) (found : List Char) :
    d.divide^[(d.encode n).length] (n, found) = (0, d.encode n ++ found) := by
  induction n using Nat.strongRecOn generalizing found with
  | ind n ih =>
    rw [encode]
    split
    · rename_i zero
      rw [zero]
      rfl
    · rename_i positive
      rw [List.length_append, List.length_singleton, Function.iterate_succ_apply, divide,
        ih _ (div_radix_lt positive), List.append_assoc]
      rfl

theorem iterate_divide_fst (s : Nat × List Char) (k : Nat) :
    (d.divide^[k] s).1 = s.1 / d.radix ^ k := by
  induction k with
  | zero => simp
  | succ k ih => rw [Function.iterate_succ_apply', divide, ih, Nat.div_div_eq_div_mul, pow_succ]

theorem iterate_divide_ne_zero {n k : Nat} (h : k < (d.encode n).length) (found : List Char) :
    (d.divide^[k] (n, found)).1 ≠ 0 := by
  have positive : n ≠ 0 := by
    intro none
    rw [encode_eq_nil.mpr none, List.length_nil] at h
    omega
  rw [length_encode positive] at h
  have power : d.radix ^ k ≤ n := Nat.pow_le_of_le_log positive (by omega)
  have base : 0 < d.radix := Nat.lt_trans Nat.zero_lt_one d.one_lt_radix
  rw [iterate_divide_fst]
  exact Nat.ne_of_gt (Nat.div_pos power (Nat.pow_pos base))

/-- Every number has one numeral and every numeral is that of its number. The divisions by which the
digits are found come to an end: nothing is left after as many as there are digits, and not before. -/
theorem encode_one_to_one (distinct : d.glyphs.Nodup) :
    (∀ n, d.IsNumeral (d.encode n) ∧ d.value (d.encode n) = n ∧ (d.encode n = [] ↔ n = 0) ∧
      (n ≠ 0 → (d.encode n).length = Nat.log d.radix n + 1) ∧
      d.divide^[(d.encode n).length] (n, []) = (0, d.encode n) ∧
      ∀ k < (d.encode n).length, (d.divide^[k] (n, [])).1 ≠ 0) ∧
    ∀ cs, d.IsNumeral cs → d.encode (d.value cs) = cs := by
  constructor
  · intro n
    have ending := iterate_divide_encode (d := d) n []
    rw [List.append_nil] at ending
    refine ⟨isNumeral_encode distinct n, value_encode distinct n, encode_eq_nil, length_encode,
      ending, ?_⟩
    intro k hk
    exact iterate_divide_ne_zero hk []
  · intro cs numeral
    exact encode_value numeral

theorem encode_one_to_one_greatest :
    superscript.glyphs.Nodup ∧
      superscript.IsNumeral "¹⁸⁴⁴⁶⁷⁴⁴⁰⁷³⁷⁰⁹⁵⁵¹⁶¹⁵".toList ∧
      superscript.encode 18446744073709551615 = "¹⁸⁴⁴⁶⁷⁴⁴⁰⁷³⁷⁰⁹⁵⁵¹⁶¹⁵".toList ∧
      superscript.divide^[20] (18446744073709551615, []) =
        (0, "¹⁸⁴⁴⁶⁷⁴⁴⁰⁷³⁷⁰⁹⁵⁵¹⁶¹⁵".toList) := by
  have distinct : superscript.glyphs.Nodup := by decide
  have numeral : superscript.IsNumeral "¹⁸⁴⁴⁶⁷⁴⁴⁰⁷³⁷⁰⁹⁵⁵¹⁶¹⁵".toList := by
    refine ⟨fun c hc => ?_, by decide⟩
    have digits : ("¹⁸⁴⁴⁶⁷⁴⁴⁰⁷³⁷⁰⁹⁵⁵¹⁶¹⁵".toList.all superscript.glyphs.contains) = true := by
      decide
    exact List.contains_iff_mem.mp (List.all_eq_true.mp digits c hc)
  have number : superscript.value "¹⁸⁴⁴⁶⁷⁴⁴⁰⁷³⁷⁰⁹⁵⁵¹⁶¹⁵".toList = 18446744073709551615 := by decide
  obtain ⟨numerals, numbers⟩ := encode_one_to_one distinct
  have written := numbers _ numeral
  rw [number] at written
  obtain ⟨-, -, -, -, ending, -⟩ := numerals 18446744073709551615
  rw [written] at ending
  exact ⟨distinct, numeral, written, ending⟩

end DigitSet

end Lojban
