import Lojban.Mode
import Lojban.Table

namespace Lojban

structure PlaceRecord where
  afterFirst : Option String := none
  beforeSecond : Option String := none
  afterSecond : Option String := none
  /-- Before the third place and the ones after it. -/
  beforeRest : List String := []
  deriving DecidableEq, Repr

namespace PlaceRecord

def present (s : Option String) : Option String := s.filter (· != "")

def before (r : PlaceRecord) : Nat → Option String
  | 0 | 1 => none
  | 2 => present r.beforeSecond
  | n + 3 => present r.beforeRest[n]?

def after (r : PlaceRecord) : Nat → Option String
  | 1 => present r.afterFirst
  | 2 => present r.afterSecond
  | _ => none

def texts (r : PlaceRecord) : List String :=
  r.afterFirst.toList ++ r.beforeSecond.toList ++ r.afterSecond.toList ++ r.beforeRest

theorem mem_of_present {s : Option String} {text : String} (h : text ∈ present s) : text ∈ s :=
  (Option.filter_eq_some_iff.mp h).1

theorem ne_empty_of_present {s : Option String} {text : String} (h : text ∈ present s) :
    text ≠ "" := by
  simpa using (Option.filter_eq_some_iff.mp h).2

theorem ne_empty_of_before {r : PlaceRecord} {place : Nat} {s : String} (h : s ∈ r.before place) :
    s ≠ "" := by
  match place with
  | 0 => cases h
  | 1 => cases h
  | 2 => exact ne_empty_of_present h
  | _ + 3 => exact ne_empty_of_present h

theorem ne_empty_of_after {r : PlaceRecord} {place : Nat} {s : String} (h : s ∈ r.after place) :
    s ≠ "" := by
  match place with
  | 0 => cases h
  | 1 => exact ne_empty_of_present h
  | 2 => exact ne_empty_of_present h
  | _ + 3 => cases h

theorem mem_texts_of_before {r : PlaceRecord} {place : Nat} {s : String} (h : s ∈ r.before place) :
    s ∈ r.texts := by
  match place with
  | 0 => cases h
  | 1 => cases h
  | 2 => simp [texts, Option.mem_def.mp (mem_of_present h)]
  | n + 3 => simp [texts, List.mem_of_getElem? (mem_of_present h)]

theorem mem_texts_of_after {r : PlaceRecord} {place : Nat} {s : String} (h : s ∈ r.after place) :
    s ∈ r.texts := by
  match place with
  | 0 => cases h
  | 1 => simp [texts, Option.mem_def.mp (mem_of_present h)]
  | 2 => simp [texts, Option.mem_def.mp (mem_of_present h)]
  | n + 3 => cases h

open Json.Reader

def fields : List (RecordField PlaceRecord) :=
  [.of ["bridi1post"] (optional string) fun r v => { r with afterFirst := v },
   .of ["bridi2"] (optional string) fun r v => { r with beforeSecond := v },
   .of ["bridi2post"] (optional string) fun r v => { r with afterSecond := v },
   .of ["bridirest"] (list string) fun r v => { r with beforeRest := v }]

def reader : Json.Reader PlaceRecord := record fields ⟨none, none, none, []⟩

def ofText (text : String) : Except Error PlaceRecord := (reader.run text).mapError .json

end PlaceRecord

/-- Records by the word that heads the predicate, exactly as it is written. -/
abbrev PlaceTable := Table String PlaceRecord

namespace PlaceTable

def ofText (text : String) : Except Error PlaceTable := do
  let es ← ((Json.Reader.entries Json.Reader.text PlaceRecord.reader).run text).mapError .json
  return Table.ofList es

end PlaceTable

end Lojban
