import Lojban.Table

/-!
Readers of JSON text. A reader takes something off the front of the characters and never gives back
more of them than it got, so a loop that also takes a comma each round ends.
-/

namespace Lojban.Json

/-- Why a text could not be read: its form is wrong, it ends too early, or it is well formed so far
and something else was wanted. -/
inductive Fault where
  | malformed
  | truncated
  | mismatched
  deriving DecidableEq, Repr

structure Parsed (α : Type) (s : List Char) where
  value : α
  rest : List Char
  within : rest.length ≤ s.length

namespace Parsed

variable {α β : Type} {s t : List Char}

def map (f : α → β) (p : Parsed α s) : Parsed β s := ⟨f p.value, p.rest, p.within⟩

def widen (h : t.length ≤ s.length) (p : Parsed α t) : Parsed α s :=
  ⟨p.value, p.rest, Nat.le_trans p.within h⟩

end Parsed

def Reader (α : Type) := (s : List Char) → Except Fault (Parsed α s)

namespace Reader

variable {α β σ : Type}

instance : Monad Reader where
  pure a := fun s => .ok ⟨a, s, Nat.le_refl _⟩
  bind r f := fun s => do
    let a ← r s
    let b ← f a.value a.rest
    return b.widen a.within

instance : Inhabited (Reader α) := ⟨fun _ => .error .malformed⟩

def fail (f : Fault) : Reader α := fun _ => .error f

def peek : Reader (Option Char) := fun s => .ok ⟨s.head?, s, Nat.le_refl _⟩

def advance : Reader Unit := fun s => .ok ⟨(), s.tail, by simp⟩

def takeWhile (p : Char → Bool) : Reader (List Char) := fun s =>
  .ok ⟨s.takeWhile p, s.dropWhile p, (s.dropWhile_sublist p).length_le⟩

/-- Space, tab, line feed and carriage return; nothing else is blank. -/
def isBlank (c : Char) : Bool :=
  c == ' ' || c == '\t' || c == '\n' || c == '\r'

def isDigit (c : Char) : Bool := '0' ≤ c && c ≤ '9'

def next : Reader (Option Char) := do
  discard (takeWhile isBlank)
  peek

def literal : List Char → Reader Unit
  | [] => pure ()
  | c :: word => do
    match ← peek with
    | none => fail .truncated
    | some d => if c = d then do advance; literal word else fail .malformed

def mark (c : Char) : Reader Unit := do
  discard (takeWhile isBlank)
  literal [c]

def separated (close : Char) (step : σ → Reader σ) (a : σ) : Reader σ := fun s => do
  let b ← step a s
  let c ← next b.rest
  match h : c.rest with
  | [] => .error .truncated
  | d :: rest =>
    have shrinks : rest.length < s.length := by
      have := b.within
      have := c.within
      simp_all
      omega
    if d = close then
      return ⟨b.value, rest, Nat.le_of_lt shrinks⟩
    else if d = ',' then
      return (← separated close step b.value rest).widen (Nat.le_of_lt shrinks)
    else
      .error .malformed
termination_by s => s.length

def enclosed (close : Char) (step : σ → Reader σ) (a : σ) : Reader σ := do
  match ← next with
  | none => fail .truncated
  | some d => if d = close then do advance; pure a else separated close step a

def items (item : Reader α) : Reader (List α) :=
  List.reverse <$> enclosed ']' (fun acc => (· :: acc) <$> item) []

def member (key : Reader α) (value : α → Reader β) : Reader β := do
  match ← next with
  | none => fail .truncated
  | some '"' => do
    advance
    let k ← key
    mark ':'
    value k
  | some _ => fail .malformed

def members (key : Reader α) (value : Reader β) : Reader (List (α × β)) :=
  let entry (acc : List (α × β)) := member key fun k => (fun v => (k, v) :: acc) <$> value
  List.reverse <$> enclosed '\x7d' entry []

def run (r : Reader α) (text : String) : Except Fault α := do
  let a ← r text.toList
  match (← next a.rest).value with
  | none => return a.value
  | some _ => .error .malformed

theorem run_eq_ok {r : Reader α} {text : String} {a : α} (h : (r.run text).toOption = some a) :
    r.run text = .ok a := by
  cases outcome : r.run text with
  | error fault =>
    rw [outcome] at h
    cases h
  | ok b =>
    rw [outcome] at h
    exact congrArg Except.ok (Option.some.inj h)

end Reader

end Lojban.Json
