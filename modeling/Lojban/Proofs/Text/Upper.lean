import Lojban.Text.Case

namespace Lojban.Case

theorem toUpper_eq_or_isUpper {d : Char} (h : d.toNat < 128) :
    d.toUpper = d ∨ d.toUpper.isUpper = true := by
  have all : ∀ n : Fin 128, (Char.ofNat n).toUpper = Char.ofNat n ∨
      (Char.ofNat n).toUpper.isUpper = true := by decide
  simpa using all ⟨d.toNat, h⟩

theorem isUpper_of_upperSpecial {n : Nat} {ns : List Nat} (h : (n, ns) ∈ upperSpecial) :
    ∀ k ∈ ns, (Char.ofNat k).toNat < 128 → (Char.ofNat k).isUpper = true := by
  have all : ∀ e ∈ upperSpecial, ∀ k ∈ e.2, (Char.ofNat k).toNat < 128 →
      (Char.ofNat k).isUpper = true := by decide +kernel
  exact all (n, ns) h

theorem upperRuns_image {r : Run} (h : r ∈ upperRuns) :
    (128 ≤ r.first + r.shift ∧ r.last + r.shift < 0xD800) ∨
      (0xE000 ≤ r.first + r.shift ∧ r.last + r.shift < 0x110000) ∨
      (65 ≤ r.first + r.shift ∧ r.last + r.shift ≤ 90) := by
  have all : ∀ r ∈ upperRuns,
      (128 ≤ r.first + r.shift ∧ r.last + r.shift < 0xD800) ∨
      (0xE000 ≤ r.first + r.shift ∧ r.last + r.shift < 0x110000) ∨
      (65 ≤ r.first + r.shift ∧ r.last + r.shift ≤ 90) := by decide +kernel
  exact all r h

theorem Run.map?_eq_some {r : Run} {n : Nat} {c : Char} (h : r.map? n = some c) :
    r.first ≤ n ∧ n ≤ r.last ∧ c = Char.ofNat ((n : Int) + r.shift).toNat := by
  simp only [map?] at h
  split at h
  · rename_i inside
    simp only [Bool.and_eq_true, decide_eq_true_eq] at inside
    exact ⟨inside.1.1, inside.1.2, (Option.some.inj h).symm⟩
  · cases h

theorem toNat_ofNat_of_valid {k : Nat} (h : k.isValidChar) : (Char.ofNat k).toNat = k := by
  rw [Char.ofNat, dif_pos h]
  rfl

theorem isUpper_of_upperRuns {r : Run} (hr : r ∈ upperRuns) {n : Nat} {c : Char}
    (h : r.map? n = some c) (ascii : c.toNat < 128) : c.isUpper = true := by
  obtain ⟨low, high, rfl⟩ := Run.map?_eq_some h
  rcases upperRuns_image hr with image | image | image
  · have valid : ((n : Int) + r.shift).toNat.isValidChar := .inl (by omega)
    rw [toNat_ofNat_of_valid valid] at ascii
    omega
  · have valid : ((n : Int) + r.shift).toNat.isValidChar := .inr (by omega)
    rw [toNat_ofNat_of_valid valid] at ascii
    omega
  · have capital : ∀ k : Fin 26, (Char.ofNat (65 + k)).isUpper = true := by decide
    have value : ((n : Int) + r.shift).toNat = 65 + (((n : Int) + r.shift).toNat - 65) := by omega
    rw [value]
    exact capital ⟨((n : Int) + r.shift).toNat - 65, by omega⟩

theorem eq_or_isUpper_of_mem_upperChar {c d : Char} (h : c ∈ upperChar d)
    (ascii : c.toNat < 128) : c = d ∨ c.isUpper = true := by
  rw [upperChar] at h
  split at h
  · rename_i small
    rw [List.mem_singleton.mp h]
    exact toUpper_eq_or_isUpper small
  · rename_i large
    rw [mapChar] at h
    split at h
    · rename_i ns found
      obtain ⟨k, hk, rfl⟩ := List.mem_map.mp h
      have entry : (d.toNat, ns) ∈ upperSpecial := by
        obtain ⟨l₁, l₂, whole, -⟩ := List.lookup_eq_some_iff.mp found
        rw [whole]
        simp
      exact .inr (isUpper_of_upperSpecial entry k hk ascii)
    · rw [List.mem_singleton] at h
      cases found : upperRuns.findSome? (·.map? d.toNat) with
      | none =>
        rw [found, Option.getD_none] at h
        exact .inl h
      | some e =>
        rw [found, Option.getD_some] at h
        obtain ⟨r, hr, hmap⟩ := List.exists_of_findSome?_eq_some found
        exact .inr (isUpper_of_upperRuns hr (h ▸ hmap) ascii)

/-- A character of the uppercase form stood in the text, or it is a capital letter or beyond
ASCII. -/
theorem mem_or_isUpper_of_mem_upper {c : Char} {s : String} (h : c ∈ (upper s).toList)
    (ascii : c.toNat < 128) : c ∈ s.toList ∨ c.isUpper = true := by
  rw [upper, String.toList_ofList] at h
  obtain ⟨d, hd, hc⟩ := List.mem_flatMap.mp h
  rcases eq_or_isUpper_of_mem_upperChar hc ascii with rfl | capital
  · exact .inl hd
  · exact .inr capital

theorem upperChar_ne_nil (c : Char) : upperChar c ≠ [] := by
  have entries : ∀ e ∈ upperSpecial, e.2 ≠ [] := by decide +kernel
  rw [upperChar]
  split
  · exact List.cons_ne_nil _ _
  · rw [mapChar]
    split
    · rename_i ns found
      obtain ⟨front, back, whole, -⟩ := List.lookup_eq_some_iff.mp found
      have entry : (c.toNat, ns) ∈ upperSpecial := by simp [whole]
      simpa using entries _ entry
    · exact List.cons_ne_nil _ _

theorem upper_ne_empty {s : String} (h : s ≠ "") : upper s ≠ "" := by
  intro empty
  have none : s.toList.flatMap upperChar = [] := by
    rw [← String.toList_ofList (l := s.toList.flatMap upperChar), ← upper, empty]
    rfl
  rw [List.flatMap_eq_nil_iff] at none
  have blank : s.toList = [] :=
    List.eq_nil_iff_forall_not_mem.mpr fun c hc => upperChar_ne_nil c (none c hc)
  exact h (String.toList_eq_nil_iff.mp blank)

end Lojban.Case
