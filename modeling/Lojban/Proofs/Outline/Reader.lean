import Lojban.Proofs.Outline.Chars

/-!
A reader for outlines in brackets. It reads back every outline whose words are solid and in which no
group has one part: a single question in brackets is then a placeholder and nothing else.
-/

namespace Lojban.Outline

/-- A word that can be told from what stands around it. -/
def Solid (s : String) : Prop := s ≠ "" ∧ s.toList.all (!isSeparator ·)

instance (s : String) : Decidable (Solid s) := inferInstanceAs (Decidable (_ ∧ _))

def ofItems : List Outline → Outline
  | [text "???"] => placeholder
  | os => group os

def endWord (word : List Char) (parts : List Outline) : List Outline :=
  if word.isEmpty then parts else text (String.ofList word.reverse) :: parts

/-- Reads on after the start of a word, in reverse, and the parts before it. The groups around it are
in `outer`, innermost first. -/
def readFrom (word : List Char) (parts : List Outline) (outer : List (List Outline)) :
    List Char → Option Outline
  | [] =>
    match endWord word parts, outer with
    | [o], [] => some o
    | _, _ => none
  | '[' :: cs => readFrom [] [] (endWord word parts :: outer) cs
  | ']' :: cs =>
    match outer with
    | before :: outer => readFrom [] (ofItems (endWord word parts).reverse :: before) outer cs
    | [] => none
  | ' ' :: cs => readFrom [] (endWord word parts) outer cs
  | c :: cs => readFrom (c :: word) parts outer cs

def read? (s : String) : Option Outline := readFrom [] [] [] s.toList

example : read? "[a [b c] [] [???]]" =
    some (group [text "a", group [text "b", text "c"], group [], placeholder]) := by
  rfl

/-- Shown without tables, its words solid and its groups not of one part. -/
inductive Legible : Outline → Prop where
  | text {s : String} : Solid s → Legible (text s)
  | placeholder : Legible placeholder
  | group {os : List Outline} : os.length ≠ 1 → (∀ o ∈ os, Legible o) → Legible (group os)

theorem Legible.ofParts {os : List Outline} (h : ∀ o ∈ os, Legible o) : Legible (ofParts os) := by
  match os with
  | [] => exact .group (by simp) h
  | [o] => exact h o List.mem_cons_self
  | o :: o' :: os => exact .group (by simp) h

theorem ofItems_eq_group {os : List Outline} (h : os.length ≠ 1) : ofItems os = group os := by
  match os with
  | [] => rfl
  | [o] => exact absurd rfl h
  | o :: o' :: os => simp [ofItems]

def Ended (rest : List Char) : Prop := ∀ c ∈ rest.head?, isSeparator c

/-- Reading its text adds an outline to the parts, whatever stands before and behind it. -/
def ReadsBack (o : Outline) : Prop :=
  ∀ parts outer rest, Ended rest →
    readFrom [] parts outer (o.chars ++ rest) = readFrom [] (o :: parts) outer rest

theorem ended_cons {c : Char} {rest : List Char} (h : isSeparator c) : Ended (c :: rest) := by
  intro d hd
  cases hd
  exact h

variable {parts : List Outline} {outer : List (List Outline)} {rest : List Char}

theorem readFrom_endWord (word : List Char) (ended : Ended rest) :
    readFrom word parts outer rest = readFrom [] (endWord word parts) outer rest := by
  have again : endWord [] (endWord word parts) = endWord word parts := rfl
  cases rest with
  | nil => simp only [readFrom, again]
  | cons c cs =>
    have separator : isSeparator c := ended c rfl
    simp only [isSeparator, Bool.or_eq_true, beq_iff_eq] at separator
    rcases separator with (rfl | rfl) | rfl
    · simp only [readFrom, again]
    · simp only [readFrom, again]
    · cases outer with
      | nil => simp only [readFrom]
      | cons before outer => simp only [readFrom, again]

theorem readFrom_cons {c : Char} (plain : isSeparator c = false) (word : List Char) :
    readFrom word parts outer (c :: rest) = readFrom (c :: word) parts outer rest := by
  rw [readFrom]
  all_goals
    rintro rfl
    cases plain

theorem readFrom_append {cs : List Char} (plain : cs.all (!isSeparator ·)) (word : List Char) :
    readFrom word parts outer (cs ++ rest) = readFrom (cs.reverse ++ word) parts outer rest := by
  induction cs generalizing word with
  | nil => rfl
  | cons c cs ih =>
    simp only [List.all_cons, Bool.and_eq_true, Bool.not_eq_true'] at plain
    rw [List.cons_append, readFrom_cons plain.1, ih plain.2, List.reverse_cons, List.append_assoc]
    rfl

theorem readsBack_text {s : String} (h : Solid s) : ReadsBack (text s) := by
  intro parts outer rest ended
  have word : endWord s.toList.reverse parts = text s :: parts := by
    simp [endWord, h.1]
  rw [chars, readFrom_append h.2, List.append_nil, readFrom_endWord _ ended, word]

theorem readFrom_charsAll {os : List Outline} (each : ∀ o ∈ os, ReadsBack o) (ended : Ended rest) :
    readFrom [] parts outer (charsAll os ++ rest) = readFrom [] (os.reverse ++ parts) outer rest := by
  induction os generalizing parts with
  | nil => rfl
  | cons o os ih =>
    have first : ReadsBack o := each o List.mem_cons_self
    cases os with
    | nil => exact first parts outer rest ended
    | cons o' os =>
      have others : ∀ o'' ∈ o' :: os, ReadsBack o'' := fun o'' h =>
        each o'' (List.mem_cons_of_mem o h)
      calc
        readFrom [] parts outer (charsAll (o :: o' :: os) ++ rest) =
            readFrom [] parts outer (o.chars ++ ' ' :: (charsAll (o' :: os) ++ rest)) := by
          rw [charsAll, List.append_assoc, List.cons_append]
          exact List.cons_ne_nil o' os
        _ = readFrom [] (o :: parts) outer (charsAll (o' :: os) ++ rest) := by
          rw [first parts outer _ (ended_cons rfl), readFrom]
          rfl
        _ = readFrom [] ((o' :: os).reverse ++ o :: parts) outer rest := ih others
        _ = readFrom [] ((o :: o' :: os).reverse ++ parts) outer rest := by
          rw [List.reverse_cons (a := o), List.append_assoc, List.singleton_append]

theorem readsBack_group {os : List Outline} (several : os.length ≠ 1)
    (each : ∀ o ∈ os, ReadsBack o) : ReadsBack (group os) := by
  intro parts outer rest _
  calc
    readFrom [] parts outer ((group os).chars ++ rest) =
        readFrom [] [] (parts :: outer) (charsAll os ++ ']' :: rest) := by
      rw [chars, List.append_assoc, List.cons_append, readFrom]
      rfl
    _ = readFrom [] os.reverse (parts :: outer) (']' :: rest) := by
      rw [readFrom_charsAll each (ended_cons rfl), List.append_nil]
    _ = readFrom [] (ofItems os :: parts) outer rest := by
      rw [readFrom, endWord, List.isEmpty_nil, if_pos rfl, List.reverse_reverse]
    _ = readFrom [] (group os :: parts) outer rest := by
      rw [ofItems_eq_group several]

theorem Legible.readsBack {o : Outline} (h : o.Legible) : ReadsBack o := by
  induction h with
  | text solid => exact readsBack_text solid
  | placeholder =>
    intro parts outer rest _
    rfl
  | group several _ ih => exact readsBack_group several ih

theorem Legible.read?_toString {o : Outline} (h : o.Legible) : read? o.toString = some o := by
  have whole := h.readsBack [] [] [] (by simp [Ended])
  rw [List.append_nil] at whole
  rw [read?, toString, String.toList_ofList, whole]
  rfl

end Lojban.Outline
