import Lojban.Text.Splice
import Mathlib.Data.String.Basic

/-!
Splicing changes a text in its span only. A text is what stands before the span, what the span takes,
and what stands behind it, and splicing puts the substitute between the first and the last. The same
equation, read from the result, takes the substitute out again. It asks for something to stand at the
position, so a span that was emptied at the end of the text is the one that cannot be filled again.

Positions, lengths and the number of characters are words. That no sum or difference of them leaves the
words is said by a second splice, which gives nothing where that happens.
-/

namespace Lojban

/-- A text in memory takes fewer than 2 ^ 63 bytes. -/
def Storable (s : String) : Prop := s.utf8ByteSize < 9223372036854775808

theorem length_le_utf8Len (cs : List Char) : cs.length ≤ String.utf8Len cs := by
  induction cs with
  | nil => exact Nat.le_refl 0
  | cons c cs ih =>
    rw [List.length_cons, String.utf8Len_cons]
    exact Nat.add_le_add ih c.utf8Size_pos

theorem Storable.length_lt {s : String} (h : Storable s) : s.length < 9223372036854775808 := by
  have bytes := length_le_utf8Len s.toList
  rw [String.length_toList, String.utf8Len_toList] at bytes
  exact Nat.lt_of_le_of_lt bytes h

/-- Splicing with every step on words checked. -/
def splice? (s : String) (pos len : UInt64) (sub : String) : Option String := do
  let count ← Word.ofNat? s.length
  if count ≤ pos then
    return s
  let room ← Word.sub? count pos
  let stop ← Word.add? pos (min len room)
  return String.ofList (s.toList.take pos.toNat ++ sub.toList ++ s.toList.drop stop.toNat)

theorem splice?_eq_some {s : String} (fits : s.length < UInt64.size) (pos len : UInt64)
    (sub : String) : splice? s pos len sub = some (splice s pos len sub) := by
  have counted : Word.ofNat? s.length = some s.length.toUInt64 := if_pos fits
  rw [splice?, counted, splice, spliceChars, String.length_toList, Option.bind_eq_bind,
    Option.bind_some]
  by_cases past : s.length.toUInt64 ≤ pos
  · rw [if_pos past, if_pos past, String.ofList_toList]
    rfl
  · have inside : pos ≤ s.length.toUInt64 := UInt64.le_of_lt (UInt64.not_le.mp past)
    have room : Word.sub? s.length.toUInt64 pos = some (s.length.toUInt64 - pos) := if_pos inside
    have stop : Word.add? pos (spanLength s.length.toUInt64 pos len) =
        some (pos + spanLength s.length.toUInt64 pos len) := if_pos (stop_lt_size inside len)
    rw [spanLength] at stop
    rw [if_neg past, if_neg past, room, Option.bind_some, stop]
    rfl

section

variable {pos len : UInt64}

theorem splice_of_le {s : String} (fits : s.length < UInt64.size) (past : s.length ≤ pos.toNat)
    (sub : String) : splice s pos len sub = s := by
  have refused : s.toList.length.toUInt64 ≤ pos := by
    rw [UInt64.le_iff_toNat_le, String.length_toList, Word.toNat_toUInt64 fits]
    exact past
  rw [splice, spliceChars, if_pos refused, String.ofList_toList]

theorem spliceChars_of_lt {s : List Char} (fits : s.length < UInt64.size)
    (inside : pos.toNat < s.length) (sub : List Char) :
    spliceChars s pos len sub =
      s.take pos.toNat ++ sub ++ s.drop (pos.toNat + min len.toNat (s.length - pos.toNat)) := by
  have count := Word.toNat_toUInt64 fits
  have accepted : ¬ s.length.toUInt64 ≤ pos := by
    rw [UInt64.le_iff_toNat_le, count]
    exact Nat.not_le_of_lt inside
  have start : pos ≤ s.length.toUInt64 := UInt64.le_of_lt (UInt64.not_le.mp accepted)
  rw [spliceChars, if_neg accepted]
  simp only [toNat_stop start, count]

theorem splice_append {front gone back : String}
    (fits : (front ++ gone ++ back).length < UInt64.size) (starts : front.length = pos.toNat)
    (takes : gone.length = min len.toNat (gone ++ back).length) (some_left : 0 < (gone ++ back).length)
    (sub : String) : splice (front ++ gone ++ back) pos len sub = front ++ sub ++ back := by
  rw [← String.length_toList] at fits
  simp only [String.length_append] at takes some_left
  have inside : pos.toNat < (front ++ gone ++ back).toList.length := by
    simp only [String.length_toList, String.length_append]
    omega
  have stop : pos.toNat + min len.toNat ((front ++ gone ++ back).toList.length - pos.toNat) =
      (front ++ gone).toList.length := by
    simp only [String.length_toList, String.length_append]
    omega
  apply String.toList_inj.mp
  rw [splice, String.toList_ofList, spliceChars_of_lt fits inside, stop]
  simp only [String.toList_append]
  rw [← starts, ← String.length_toList, List.drop_left, List.append_assoc front.toList,
    List.take_left]

theorem splice_back_iff {front gone back sub : String}
    (fits : (front ++ sub ++ back).length < UInt64.size) (starts : front.length = pos.toNat)
    (some_left : 0 < (gone ++ back).length) :
    splice (front ++ sub ++ back) pos sub.length.toUInt64 gone = front ++ gone ++ back ↔
      0 < (sub ++ back).length := by
  constructor
  · intro same
    by_contra nothing
    have lengths := congrArg String.length same
    have past : (front ++ sub ++ back).length ≤ pos.toNat := by
      simp only [String.length_append] at nothing ⊢
      omega
    rw [splice_of_le fits past] at lengths
    simp only [String.length_append] at lengths nothing some_left
    omega
  · intro something
    have word : sub.length.toUInt64.toNat = sub.length := by
      apply Word.toNat_toUInt64
      simp only [String.length_append] at fits
      omega
    apply splice_append fits starts _ something
    rw [word, String.length_append]
    exact (Nat.min_eq_left (Nat.le_add_right _ _)).symm

end

open Lojban.Span

section

variable {s : String} {pos : UInt64} (inside : pos.toNat < s.length) (len : UInt64) (sub : String)

include inside

theorem splice_of_lt (fits : s.length < UInt64.size) :
    splice s pos len sub = before s pos ++ sub ++ behind s pos len := by
  have whole := before_taken_behind s pos len
  have some_left := length_taken_behind s pos len
  have takes := length_taken s pos len
  rw [← some_left] at takes
  rw [← whole] at fits
  -- Only the text that is spliced is taken apart, not the text that its pieces are named by.
  conv_lhs => rw [← whole]
  exact splice_append fits (length_before inside) takes (by omega) sub

theorem splice_splice_iff (fits : s.length + sub.length < UInt64.size) :
    splice (splice s pos len sub) pos sub.length.toUInt64 (taken s pos len) = s ↔
      ¬ (sub = "" ∧ pos.toNat + (taken s pos len).length = s.length) := by
  have whole := before_taken_behind s pos len
  have starts := length_before inside
  have some_left : 0 < (taken s pos len ++ behind s pos len).length := by
    rw [length_taken_behind]
    omega
  have length : s.length = pos.toNat + (taken s pos len).length + (behind s pos len).length := by
    rw [← starts, ← String.length_append, ← String.length_append, whole]
  have fits_result : (before s pos ++ sub ++ behind s pos len).length < UInt64.size := by
    simp only [String.length_append]
    omega
  have undone := splice_back_iff fits_result starts some_left
  rw [whole] at undone
  rw [splice_of_lt inside len sub (by omega), undone, ← String.length_eq_zero_iff,
    String.length_append]
  omega

end

/-- No step leaves the words. The substitute stands in place of the span, with all around it as it
was, and what the span took can be put back over it, but not where the text now ends at the span. -/
theorem splice_within_span {s sub : String} (hs : Storable s) (hsub : Storable sub)
    (pos len : UInt64) :
    splice? s pos len sub = some (splice s pos len sub) ∧
    (s.length ≤ pos.toNat → splice s pos len sub = s) ∧
    (pos.toNat < s.length →
      before s pos ++ taken s pos len ++ behind s pos len = s ∧
      (before s pos).length = pos.toNat ∧
      (taken s pos len).length = min len.toNat (s.length - pos.toNat) ∧
      splice s pos len sub = before s pos ++ sub ++ behind s pos len ∧
      (splice s pos len sub).length = s.length - (taken s pos len).length + sub.length ∧
      (splice (splice s pos len sub) pos sub.length.toUInt64 (taken s pos len) = s ↔
        ¬ (sub = "" ∧ pos.toNat + (taken s pos len).length = s.length))) := by
  -- The characters of two texts of fewer than 2 ^ 63 bytes can be counted together by a word.
  have size : UInt64.size = 18446744073709551616 := rfl
  have small := hs.length_lt
  have small_sub := hsub.length_lt
  have fits : s.length < UInt64.size := by omega
  refine ⟨splice?_eq_some fits pos len sub, fun past => splice_of_le fits past sub, ?_⟩
  intro inside
  have result := splice_of_lt inside len sub fits
  have whole := before_taken_behind s pos len
  refine ⟨whole, length_before inside, length_taken s pos len, result, ?_,
    splice_splice_iff inside len sub (by omega)⟩
  have length := congrArg String.length whole
  rw [result]
  simp only [String.length_append] at length ⊢
  omega

theorem splice_within_span_klama :
    Storable "mi klama" ∧ Storable "cliva" ∧ Storable "" ∧
      splice "mi klama" 3 18446744073709551615 "cliva" = "mi cliva" ∧
      splice "mi cliva" 3 5 "klama" = "mi klama" ∧
      splice (splice "mi klama" 3 18446744073709551615 "") 3 0 "klama" ≠ "mi klama" ∧
      splice "mi klama" 8 1 "cliva" = "mi klama" := by
  have klama : Storable "mi klama" := by unfold Storable; decide +kernel
  have cliva : Storable "cliva" := by unfold Storable; decide +kernel
  have nothing : Storable "" := by unfold Storable; decide +kernel
  have inside : (3 : UInt64).toNat < "mi klama".length := by decide +kernel
  obtain ⟨-, -, -, result, -, undone⟩ :=
    (splice_within_span klama cliva 3 18446744073709551615).2.2 inside
  obtain ⟨-, -, -, -, -, lost⟩ :=
    (splice_within_span klama nothing 3 18446744073709551615).2.2 inside
  have spliced : splice "mi klama" 3 18446744073709551615 "cliva" = "mi cliva" := by
    rw [result]
    decide +kernel
  have gone : taken "mi klama" 3 18446744073709551615 = "klama" := by decide +kernel
  rw [spliced, gone] at undone
  rw [gone] at lost
  refine ⟨klama, cliva, nothing, spliced, ?_, ?_, ?_⟩
  · exact undone.mpr (by decide +kernel)
  · exact lost.not.mpr (by decide +kernel)
  · exact (splice_within_span klama cliva 8 1).2.1 (by decide +kernel)

end Lojban
