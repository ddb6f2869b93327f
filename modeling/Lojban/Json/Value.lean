import Lojban.Json.Lexeme

/-!
Whole JSON values: read, passed over, or wanted in a given form. The first fault from the left
decides, so a value of another form is mismatched even if the text after it is malformed.

A record is an object, or an array of its fields in order. Fields left out keep what the blank
record has.
-/

namespace Lojban.Json

namespace Reader

def piece {α : Type} (scalar : Scalar → Reader α) (other : Char → Reader α) : Reader α := do
  match ← next with
  | none => fail .truncated
  | some c =>
    match Scalar.ofChar? c with
    | some s => scalar s
    | none => other c

def value : Nat → Reader Json
  | 0 => piece scalar fun _ => fail .malformed
  | depth + 1 => piece scalar fun c =>
    if c == '[' then do advance; .array <$> items (value depth)
    else if c == '\x7b' then do advance; .object <$> members text (value depth)
    else fail .malformed

def skipWithin : Nat → Reader Unit
  | 0 => piece skipScalar fun _ => fail .malformed
  | depth + 1 => piece skipScalar fun c =>
    if c == '[' then do advance; enclosed ']' (fun _ => skipWithin depth) ()
    else if c == '\x7b' then do
      advance
      enclosed '\x7d' (fun _ => member skipText fun _ => skipWithin depth) ()
    else fail .malformed

/-- Passes over a value of any depth; no text nests deeper than it is long. -/
def skip : Reader Unit := fun s => skipWithin s.length s

end Reader

def depthLimit : Nat := 127

def read (text : String) : Except Fault Json :=
  (Reader.value depthLimit).run text

namespace Reader

variable {α β σ : Type}

/-- A value of a form that is not wanted. One of a single piece is read to its end first. -/
def unfit (c : Char) : Reader α :=
  match Scalar.ofChar? c with
  | some s => do discard (scalar s); fail .mismatched
  | none => fail (if c == '[' || c == '\x7b' then .mismatched else .malformed)

def starting (c : Char) (body : Reader α) : Reader α := do
  match ← next with
  | none => fail .truncated
  | some d => if d = c then do advance; body else unfit d

def string : Reader String := starting '"' text

def flag : Reader Bool := do
  match ← next with
  | some 't' => do discard (scalar (.bool true)); pure true
  | some 'f' => do discard (scalar (.bool false)); pure false
  | some c => unfit c
  | none => fail .truncated

def optional (item : Reader α) : Reader (Option α) := do
  match ← next with
  | some 'n' => do discard (scalar .null); pure none
  | _ => some <$> item

def list (item : Reader α) : Reader (List α) := starting '[' (items item)

def entries (key : Reader α) (value : Reader β) : Reader (List (α × β)) :=
  starting '\x7b' (members key value)

/-- A place number in the quotes of a key, after the opening one, without blanks and escapes. -/
def placeKey : Reader Nat := do
  match ← peek with
  | none => fail .malformed
  | some c =>
    if c == '-' || isDigit c then
      match (← number).place? with
      | some n => if (← peek) == some '"' then do advance; pure n else fail .malformed
      | none => fail .mismatched
    else fail .malformed

structure RecordField (σ : Type) where
  names : List String
  set : σ → Reader σ

def RecordField.of (names : List String) (item : Reader α) (set : σ → α → σ) : RecordField σ :=
  ⟨names, fun a => set a <$> item⟩

abbrev Draft (σ : Type) := List (RecordField σ) × σ

/-- An entry of a record. A key of no field is passed over, whatever its value. -/
def setField (fields : List (RecordField σ)) (d : Draft σ) : Reader (Draft σ) := do
  match ← next with
  | none => fail .truncated
  | some '"' => do
    advance
    let key ← text
    let called (f : RecordField σ) : Bool := f.names.contains key
    match d.1.find? called with
    | some f => do
      mark ':'
      let a ← f.set d.2
      pure (d.1.filter (!called ·), a)
    | none =>
      if fields.any called then fail .mismatched
      else do
        mark ':'
        skip
        pure d
  | some _ => fail .malformed

def setInOrder : List (RecordField σ) → σ → Reader σ
  | [], a => do mark ']'; pure a
  | f :: fs, a => do
    match ← next with
    | none => fail .truncated
    | some ']' => do advance; pure a
    | some ',' => do advance; setInOrder fs (← f.set a)
    | some _ => fail .malformed

def record (fields : List (RecordField σ)) (blank : σ) : Reader σ := do
  match ← next with
  | none => fail .truncated
  | some c =>
    if c == '\x7b' then do
      advance
      Prod.snd <$> enclosed '\x7d' (setField fields) (fields, blank)
    else if c == '[' then do
      advance
      match fields, ← next with
      | f :: fs, some d =>
        if d == ']' then do advance; pure blank else setInOrder fs (← f.set blank)
      | fs, _ => setInOrder fs blank
    else unfit c

end Reader

end Lojban.Json
