import Lojban.Glyphs
import Lojban.Proofs.Glyphs.Numeral

namespace Lojban

namespace BracketKind

def ofOpening? : Char → Option BracketKind
  | '(' => some round
  | '[' => some square
  | '\x7b' => some curly
  | '<' => some angle
  | _ => none

def ofClosing? : Char → Option BracketKind
  | ')' => some round
  | ']' => some square
  | '\x7d' => some curly
  | '>' => some angle
  | _ => none

@[simp] theorem ofOpening?_opening (k : BracketKind) : ofOpening? k.opening = some k := by
  cases k <;> rfl

@[simp] theorem ofOpening?_closing (k : BracketKind) : ofOpening? k.closing = none := by
  cases k <;> rfl

@[simp] theorem ofClosing?_closing (k : BracketKind) : ofClosing? k.closing = some k := by
  cases k <;> rfl

theorem ofDepth_eq (depth : Nat) :
    [round, square, curly, angle][depth % 4]? = some (ofDepth depth) := by
  have small : depth % 4 < 4 := Nat.mod_lt _ (by decide)
  rw [ofDepth]
  match depth % 4, small with
  | 0, _ => rfl
  | 1, _ => rfl
  | 2, _ => rfl
  | 3, _ => rfl

end BracketKind

open BracketKind (ofOpening? ofClosing? ofDepth)

namespace Glyphs

def brackets : List Char := ['(', '[', '\x7b', '<', ')', ']', '\x7d', '>']

/-- The brackets that are open after these characters, innermost first, if `stack` is open before
them. A bracket opens as the kind whose turn it is, and closes the innermost one if that is of its
kind. -/
def scan (stack : List BracketKind) : List Char → Option (List BracketKind)
  | [] => some stack
  | c :: cs =>
    match ofOpening? c, ofClosing? c with
    | some k, _ =>
      if [.round, .square, .curly, .angle][stack.length % 4]? = some k then scan (k :: stack) cs
      else none
    | none, some k =>
      match stack with
      | top :: outer => if top = k then scan outer cs else none
      | [] => none
    | none, none => scan stack cs

theorem ascii_of_mem_brackets {c : Char} (h : c ∈ brackets) :
    c.toNat < 128 ∧ c.isUpper = false ∧ c.isDigit = false := by
  simp only [brackets, List.mem_cons, List.not_mem_nil, or_false] at h
  rcases h with rfl | rfl | rfl | rfl | rfl | rfl | rfl | rfl <;> decide

theorem not_mem_brackets_of_all {cs : List Char} (h : cs.all fun c => !brackets.contains c) :
    ∀ c ∈ cs, c ∉ brackets := by
  simpa using h

theorem ofOpening?_eq_none {c : Char} (h : c ∉ brackets) : ofOpening? c = none := by
  simp only [brackets, List.mem_cons, List.not_mem_nil, or_false, not_or] at h
  simp [ofOpening?, h]

theorem ofClosing?_eq_none {c : Char} (h : c ∉ brackets) : ofClosing? c = none := by
  simp only [brackets, List.mem_cons, List.not_mem_nil, or_false, not_or] at h
  simp [ofClosing?, h]

theorem scan_plain (stack : List BracketKind) {cs : List Char} (h : ∀ c ∈ cs, c ∉ brackets)
    (rest : List Char) : scan stack (cs ++ rest) = scan stack rest := by
  induction cs with
  | nil => rfl
  | cons c cs ih =>
    have plain := h c List.mem_cons_self
    rw [List.cons_append, scan, ofOpening?_eq_none plain, ofClosing?_eq_none plain]
    exact ih fun d hd => h d (List.mem_cons_of_mem c hd)

theorem not_mem_brackets_of_mem_floor {depth : Nat} {c : Char} (h : c ∈ floor depth) :
    c ∉ brackets := by
  have plain : ∀ c ∈ DigitSet.superscript.glyphs, c ∉ brackets :=
    not_mem_brackets_of_all (by decide)
  rw [floor] at h
  split at h
  · exact plain c (DigitSet.mem_of_mem_encode h)
  · cases h

theorem scan_opening (stack : List BracketKind) (rest : List Char) :
    scan stack (opening stack.length ++ rest) = scan (ofDepth stack.length :: stack) rest := by
  rw [opening, List.cons_append, scan, BracketKind.ofOpening?_opening]
  simp only [BracketKind.ofDepth_eq, if_true]
  exact scan_plain _ (fun _ => not_mem_brackets_of_mem_floor) rest

theorem scan_closing (stack : List BracketKind) (rest : List Char) :
    scan (ofDepth stack.length :: stack) (closing stack.length ++ rest) = scan stack rest := by
  rw [closing, List.append_assoc, scan_plain _ fun _ => not_mem_brackets_of_mem_floor,
    List.singleton_append, scan, BracketKind.ofOpening?_closing, BracketKind.ofClosing?_closing]
  simp only [if_true]

def level (depth : Nat) : List Char → Nat
  | [] => depth
  | '[' :: cs => level (depth + 1) cs
  | ']' :: cs => level (depth - 1) cs
  | _ :: cs => level depth cs

@[simp] theorem level_nil (depth : Nat) : level depth [] = depth := rfl

@[simp] theorem level_opening (depth : Nat) (cs : List Char) :
    level depth ('[' :: cs) = level (depth + 1) cs := rfl

@[simp] theorem level_closing (depth : Nat) (cs : List Char) :
    level depth (']' :: cs) = level (depth - 1) cs := rfl

theorem level_plain {c : Char} (hl : c ≠ '[') (hr : c ≠ ']') (depth : Nat) (cs : List Char) :
    level depth (c :: cs) = level depth cs := by
  rw [level]
  · exact hl
  · exact hr

theorem shown_plain {c : Char} (hl : c ≠ '[') (hr : c ≠ ']') (depth : Nat) (cs : List Char) :
    shown depth (c :: cs) = c :: shown depth cs := by
  rw [shown]
  · exact hl
  · exact hr

theorem level_append (depth : Nat) (cs ds : List Char) :
    level depth (cs ++ ds) = level (level depth cs) ds := by
  fun_induction level depth cs with
  | case1 => rfl
  | case2 depth cs ih => exact ih
  | case3 depth cs ih => exact ih
  | case4 depth c cs hl hr ih => rw [List.cons_append, level_plain hl hr, ih]

theorem shown_append (depth : Nat) (cs ds : List Char) :
    shown depth (cs ++ ds) = shown depth cs ++ shown (level depth cs) ds := by
  fun_induction shown depth cs with
  | case1 => rfl
  | case2 depth cs ih => rw [List.cons_append, shown, ih, level_opening, List.append_assoc]
  | case3 cs ih => rw [List.cons_append, shown, ih, level_closing, List.cons_append]
  | case4 cs outer ih =>
    rw [List.cons_append, shown, ih, List.append_assoc]
    rfl
  | case5 depth c cs hl hr ih =>
    rw [List.cons_append, shown_plain hl hr, ih, level_plain hl hr, List.cons_append]

end Glyphs

inductive Nested : List Char → Prop where
  | nil : Nested []
  | plain {c : Char} {cs : List Char} (hl : c ≠ '[') (hr : c ≠ ']') (rest : Nested cs) :
    Nested (c :: cs)
  | pair {inner cs : List Char} (within : Nested inner) (rest : Nested cs) :
    Nested ('[' :: inner ++ ']' :: cs)

namespace Nested

theorem append {cs ds : List Char} (hc : Nested cs) (hd : Nested ds) : Nested (cs ++ ds) := by
  induction hc with
  | nil => exact hd
  | plain hl hr _ ih => exact ih.plain hl hr
  | pair within _ _ ih =>
    rw [List.append_assoc, List.cons_append]
    exact within.pair ih

theorem enclosed {cs : List Char} (h : Nested cs) : Nested ('[' :: cs ++ [']']) := h.pair nil

open Glyphs

theorem level_append {cs : List Char} (h : Nested cs) (depth : Nat) (rest : List Char) :
    level depth (cs ++ rest) = level depth rest := by
  induction h generalizing depth rest with
  | nil => rfl
  | plain hl hr _ ih => rw [List.cons_append, level_plain hl hr, ih]
  | @pair inner cs _ _ ihInner ihRest =>
    simp only [List.cons_append, List.append_assoc, level_opening, ihInner, level_closing, ihRest,
      Nat.add_sub_cancel]

theorem level_eq {cs : List Char} (h : Nested cs) (depth : Nat) : level depth cs = depth := by
  simpa using h.level_append depth []

theorem shown_append {cs : List Char} (h : Nested cs) (depth : Nat) (rest : List Char) :
    shown depth (cs ++ rest) = shown depth cs ++ shown depth rest := by
  rw [Glyphs.shown_append, h.level_eq]

/-- Nested brackets, shown at the depth of the stack, leave the stack as it was. -/
theorem scan_shown {cs : List Char} (h : Nested cs)
    (square : ∀ c ∈ cs, c ∈ brackets → c = '[' ∨ c = ']') (stack : List BracketKind)
    (rest : List Char) : scan stack (shown stack.length cs ++ rest) = scan stack rest := by
  induction h generalizing stack rest with
  | nil => rfl
  | @plain c cs hl hr _ ih =>
    have plain : c ∉ brackets := fun hc => (square c List.mem_cons_self hc).elim hl hr
    rw [shown_plain hl hr, List.cons_append, scan, ofOpening?_eq_none plain,
      ofClosing?_eq_none plain]
    exact ih (fun d hd => square d (List.mem_cons_of_mem c hd)) stack rest
  | @pair inner cs within _ ihInner ihRest =>
    have inside := ihInner (fun c hc => square c (by simp [hc]))
      (ofDepth stack.length :: stack)
    have after := ihRest (fun c hc => square c (by simp [hc])) stack rest
    rw [List.cons_append, shown, within.shown_append, shown]
    simp only [List.append_assoc]
    rw [scan_opening]
    exact (inside _).trans ((scan_closing stack _).trans after)

end Nested

def WellNested (s : String) : Prop := Glyphs.scan [] s.toList = some []

theorem wellNested_prettify_of_nested {s : String} (h : Nested s.toList)
    (square : ∀ c ∈ s.toList, c ∈ Glyphs.brackets → c = '[' ∨ c = ']') :
    WellNested (prettify s) := by
  have scanned := h.scan_shown square [] []
  rw [List.append_nil] at scanned
  rw [WellNested, prettify, String.toList_ofList]
  exact scanned

end Lojban
