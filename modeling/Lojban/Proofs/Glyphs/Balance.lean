import Lojban.Proofs.Outline.Chars

namespace Lojban

/-- No start of the text closes more square brackets than it opens, and the whole opens as many as it
closes. -/
structure Balanced (cs : List Char) : Prop where
  start : ∀ ds, ds <+: cs → ds.count ']' ≤ ds.count '['
  whole : cs.count '[' = cs.count ']'

def Glyphs.Unbracketed (s : String) : Prop := '[' ∉ s.toList ∧ ']' ∉ s.toList

instance (s : String) : Decidable (Glyphs.Unbracketed s) :=
  inferInstanceAs (Decidable ('[' ∉ s.toList ∧ ']' ∉ s.toList))

namespace Balanced

theorem of_not_mem {cs : List Char} (opening : '[' ∉ cs) (closing : ']' ∉ cs) : Balanced cs where
  start ds hds := by
    have none : ']' ∉ ds := fun h => closing (hds.subset h)
    rw [List.count_eq_zero_of_not_mem none]
    exact Nat.zero_le _
  whole := by
    rw [List.count_eq_zero_of_not_mem opening, List.count_eq_zero_of_not_mem closing]

theorem append {cs ds : List Char} (hc : Balanced cs) (hd : Balanced ds) :
    Balanced (cs ++ ds) where
  start es hes := by
    obtain ⟨rest, h⟩ := hes
    rcases List.append_eq_append_iff.mp h with ⟨mid, hcs, -⟩ | ⟨mid, hes, hds⟩
    · exact hc.start es ⟨mid, hcs.symm⟩
    · have first := hc.whole
      have second := hd.start mid ⟨rest, hds.symm⟩
      rw [hes, List.count_append, List.count_append]
      omega
  whole := by rw [List.count_append, List.count_append, hc.whole, hd.whole]

theorem enclosed {cs : List Char} (h : Balanced cs) : Balanced ('[' :: cs ++ [']']) where
  start ds hds := by
    cases ds with
    | nil => exact Nat.le_refl 0
    | cons d ds =>
      obtain ⟨rfl, inner⟩ := List.cons_prefix_cons.mp hds
      have opened : ('[' :: ds).count '[' = ds.count '[' + 1 := by simp
      have closed : ('[' :: ds).count ']' = ds.count ']' := by simp
      rw [opened, closed]
      rcases List.prefix_concat_iff.mp inner with rfl | inner
      · have whole := h.whole
        rw [List.count_append, List.count_append, whole]
        exact Nat.add_le_add_left (by decide) _
      · have inside := h.start ds inner
        omega
  whole := by simp [h.whole]

theorem closed : Outline.Closed Balanced where
  nil := of_not_mem List.not_mem_nil List.not_mem_nil
  append := append
  enclosed := enclosed
  mark {c} plain := by
    have apart : '[' ≠ c ∧ ']' ≠ c :=
      ⟨fun h => plain (h ▸ by decide), fun h => plain (h ▸ by decide)⟩
    exact of_not_mem (by simpa using apart.1) (by simpa using apart.2)

end Balanced

namespace Glyphs.Unbracketed

theorem append {s s' : String} (h : Unbracketed s) (h' : Unbracketed s') :
    Unbracketed (s ++ s') := by
  constructor
  · simp [h.1, h'.1]
  · simp [h.2, h'.2]

theorem toString_nat (n : Nat) : Unbracketed (toString n) := by
  have shown : (toString n).toList = Nat.toDigits 10 n := by simp
  rw [Unbracketed, shown]
  constructor
  · intro h
    cases Nat.isDigit_of_mem_toDigits (by decide) (by decide) h
  · intro h
    cases Nat.isDigit_of_mem_toDigits (by decide) (by decide) h

end Glyphs.Unbracketed

end Lojban
