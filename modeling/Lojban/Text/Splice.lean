namespace Lojban

def spanLength (count pos len : UInt64) : UInt64 := min len (count - pos)

/-- Puts `sub` in place of the span, which ends where the text ends. A span past the end changes
nothing. -/
def spliceChars (s : List Char) (pos len : UInt64) (sub : List Char) : List Char :=
  let count := s.length.toUInt64
  if count ≤ pos then s
  else
    let stop := pos + spanLength count pos len
    s.take pos.toNat ++ sub ++ s.drop stop.toNat

def splice (s : String) (pos len : UInt64) (sub : String) : String :=
  String.ofList (spliceChars s.toList pos len sub.toList)

namespace Word

theorem toNat_toUInt64 {n : Nat} (fits : n < UInt64.size) : n.toUInt64.toNat = n :=
  Nat.mod_eq_of_lt fits

theorem toNat_min (a b : UInt64) : (min a b).toNat = min a.toNat b.toNat := by
  have unfolded : min a b = if a ≤ b then a else b := rfl
  rw [unfolded]
  split
  · rename_i h
    exact (Nat.min_eq_left (UInt64.le_iff_toNat_le.mp h)).symm
  · rename_i h
    rw [UInt64.le_iff_toNat_le] at h
    exact (Nat.min_eq_right (Nat.le_of_not_le h)).symm

def ofNat? (n : Nat) : Option UInt64 := if n < UInt64.size then some n.toUInt64 else none

def sub? (a b : UInt64) : Option UInt64 := if b ≤ a then some (a - b) else none

def add? (a b : UInt64) : Option UInt64 :=
  if a.toNat + b.toNat < UInt64.size then some (a + b) else none

end Word

section

variable {count pos : UInt64} (inside : pos ≤ count) (len : UInt64)

include inside

theorem toNat_spanLength :
    (spanLength count pos len).toNat = min len.toNat (count.toNat - pos.toNat) := by
  rw [spanLength, Word.toNat_min, UInt64.toNat_sub_of_le count pos inside]

/-- The end of a span is a word, since it is not behind the end of the text. -/
theorem stop_lt_size : pos.toNat + (spanLength count pos len).toNat < UInt64.size := by
  have start := UInt64.le_iff_toNat_le.mp inside
  have stop := count.toNat_lt_size
  rw [toNat_spanLength inside]
  omega

theorem toNat_stop :
    (pos + spanLength count pos len).toNat =
      pos.toNat + min len.toNat (count.toNat - pos.toNat) := by
  rw [UInt64.toNat_add, ← toNat_spanLength inside]
  exact Nat.mod_eq_of_lt (stop_lt_size inside len)

end

namespace Span

def before (s : String) (pos : UInt64) : String := String.ofList (s.toList.take pos.toNat)

def taken (s : String) (pos len : UInt64) : String :=
  String.ofList ((s.toList.drop pos.toNat).take len.toNat)

def behind (s : String) (pos len : UInt64) : String :=
  String.ofList ((s.toList.drop pos.toNat).drop len.toNat)

variable (s : String) (pos len : UInt64)

theorem taken_behind : taken s pos len ++ behind s pos len = String.ofList (s.toList.drop pos.toNat) := by
  rw [taken, behind, ← String.ofList_append, List.take_append_drop]

theorem before_taken_behind : before s pos ++ taken s pos len ++ behind s pos len = s := by
  rw [String.append_assoc, taken_behind, before, ← String.ofList_append, List.take_append_drop,
    String.ofList_toList]

theorem length_taken : (taken s pos len).length = min len.toNat (s.length - pos.toNat) := by
  rw [taken, String.length_ofList, List.length_take, List.length_drop, String.length_toList]

theorem length_taken_behind : (taken s pos len ++ behind s pos len).length = s.length - pos.toNat := by
  rw [taken_behind, String.length_ofList, List.length_drop, String.length_toList]

variable {s pos}

theorem length_before (inside : pos.toNat < s.length) : (before s pos).length = pos.toNat := by
  rw [before, String.length_ofList, List.length_take, String.length_toList]
  exact Nat.min_eq_left (Nat.le_of_lt inside)

end Span

end Lojban
