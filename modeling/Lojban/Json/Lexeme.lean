import Lojban.Json.Basic
import Lojban.Json.Reader

/-!
Strings, numbers and literals of JSON text.

A number with a point or an exponent, or too large for a word, is its leading digits, as many as fit
a 64-bit word, times a power of ten applied by one rounded multiplication or division.
-/

namespace Lojban.Json.Reader

def hexDigit? (c : Char) : Option Nat :=
  if isDigit c then some (c.toNat - 48)
  else if 'a' ≤ c && c ≤ 'f' then some (c.toNat - 87)
  else if 'A' ≤ c && c ≤ 'F' then some (c.toNat - 55)
  else none

/-- Four hexadecimal digits. A text too short for four bytes is truncated, whatever it holds. -/
def codeUnit : Reader Nat := fun s =>
  if (s.take 4).foldl (· + ·.utf8Size) 0 < 4 then .error .truncated
  else match h : s with
  | a :: b :: c :: d :: rest =>
    match hexDigit? a, hexDigit? b, hexDigit? c, hexDigit? d with
    | some a, some b, some c, some d =>
      .ok ⟨((a * 16 + b) * 16 + c) * 16 + d, rest, by simp; omega⟩
    | _, _, _, _ => .error .malformed
  | _ => .error .malformed

def isLead (n : Nat) : Bool := 0xD800 ≤ n && n ≤ 0xDBFF

def isTrail (n : Nat) : Bool := 0xDC00 ≤ n && n ≤ 0xDFFF

def shortEscape? : Char → Option Char
  | '"' => some '"'
  | '\\' => some '\\'
  | '/' => some '/'
  | 'b' => some '\x08'
  | 'f' => some '\x0c'
  | 'n' => some '\n'
  | 'r' => some '\r'
  | 't' => some '\t'
  | _ => none

def escape : Reader Char := do
  match ← peek with
  | none => fail .truncated
  | some 'u' => do
    advance
    let lead ← codeUnit
    if isTrail lead then fail .malformed
    else if isLead lead then do
      literal ['\\', 'u']
      let trail ← codeUnit
      if isTrail trail then
        pure (Char.ofNat (0x10000 + (lead - 0xD800) * 0x400 + (trail - 0xDC00)))
      else fail .malformed
    else pure (Char.ofNat lead)
  | some c =>
    match shortEscape? c with
    | some d => do advance; pure d
    | none => fail .malformed

/-- Passes over an escape; its code unit may be a lone surrogate. -/
def skipEscape : Reader Unit := do
  match ← peek with
  | none => fail .truncated
  | some 'u' => do advance; discard codeUnit
  | some c => if (shortEscape? c).isSome then advance else fail .malformed

def quoted {α : Type} (escape : Reader α) (plain : Char → α) : Reader (List α)
  | [] => .error .truncated
  | c :: rest => do
    if c = '"' then return ⟨[], rest, Nat.le_succ _⟩
    else if c = '\\' then
      let a ← escape rest
      let as ← quoted escape plain a.rest
      return ⟨a.value :: as.value, as.rest, Nat.le_succ_of_le (Nat.le_trans as.within a.within)⟩
    else if c < ' ' then .error .malformed
    else
      let as ← quoted escape plain rest
      return ⟨plain c :: as.value, as.rest, Nat.le_succ_of_le as.within⟩
termination_by s => s.length
decreasing_by
  · exact Nat.lt_succ_of_le a.within
  · exact Nat.lt_succ_self _

def text : Reader String := String.ofList <$> quoted escape id

def skipText : Reader Unit := discard (quoted skipEscape fun _ => ())

def wordLimit : Nat := 18446744073709551616

/-- Appends digits to `n` while the number fits a word; the digits left over follow. -/
def absorb (n : Nat) : List Char → Nat × List Char
  | [] => (n, [])
  | c :: cs =>
    let m := n * 10 + (c.toNat - 48)
    if m < wordLimit then absorb m cs else (n, c :: cs)

def pow10 (n : Nat) : Float := Float.ofScientific 1 false n

def shrink (x : Float) (n : Nat) : Float :=
  if n ≤ 308 then x / pow10 n
  else if x == 0.0 then x
  else shrink (x / pow10 308) (n - 308)
termination_by n

def scale? (n : Nat) (exponent : Int) : Option Float :=
  let x := Float.ofNat n
  if exponent < 0 then some (shrink x exponent.natAbs)
  else if exponent ≤ 308 then
    let y := x * pow10 exponent.natAbs
    if y.isInf then none else some y
  else if n = 0 then some x
  else none

def exponent? : Reader (Option (Bool × List Char)) := do
  match ← peek with
  | some 'e' | some 'E' => do
    advance
    let sign ← peek
    if sign == some '+' || sign == some '-' then advance
    match ← takeWhile isDigit with
    | [] => if (← peek).isNone then fail .truncated else fail .malformed
    | digits => pure (some (sign == some '-', digits))
  | _ => pure none

/-- Exponents beyond a signed 32-bit word are out of range by themselves. -/
def exponentLimit : Nat := 2147483648

/-- A float from its leading digits, the power of ten they still lack and a written exponent. -/
def float (negative : Bool) (n : Nat) (power : Int) (exponent : Option (Bool × List Char)) :
    Reader Number := do
  let signed (x : Float) : Number := .float (if negative then -x else x)
  match exponent with
  | none =>
    match scale? n power with
    | some x => pure (signed x)
    | none => fail .malformed
  | some (down, digits) =>
    let e := digits.foldl (fun e c => e * 10 + (c.toNat - 48)) 0
    if exponentLimit ≤ e then
      if n ≠ 0 && !down then fail .malformed else pure (signed 0.0)
    else
      match scale? n (if down then power - e else power + e) with
      | some x => pure (signed x)
      | none => fail .malformed

def negativeLimit : Nat := 9223372036854775808

def whole (negative : Bool) (digits : List Char) : Reader Number :=
  match absorb 0 digits with
  | (n, []) =>
    if !negative then pure (.int n)
    else if n = 0 || negativeLimit < n then pure (.float (-(Float.ofNat n)))
    else pure (.int (-(n : Int)))
  | (n, spare) => float negative n spare.length none

def number : Reader Number := do
  let negative := (← peek) == some '-'
  if negative then advance
  match ← takeWhile isDigit with
  | [] => if (← peek).isNone then fail .truncated else fail .malformed
  | '0' :: _ :: _ => fail .malformed
  | digits =>
    let (n, spare) := absorb 0 digits
    if (← peek) == some '.' then do
      advance
      match ← takeWhile isDigit with
      | [] => if (← peek).isNone then fail .truncated else fail .malformed
      | fraction =>
        let (n, past) := absorb n fraction
        let power := (spare.length : Int) - (fraction.length - past.length : Nat)
        float negative n power (← exponent?)
    else
      match ← exponent? with
      | none => whole negative digits
      | some e => float negative n spare.length (some e)

/-- Passes over a number. Its size does not matter, and one that ends too early is malformed. -/
def skipNumber : Reader Unit := do
  if (← peek) == some '-' then advance
  match ← takeWhile isDigit with
  | [] => fail .malformed
  | '0' :: _ :: _ => fail .malformed
  | _ =>
    if (← peek) == some '.' then do
      advance
      if (← takeWhile isDigit).isEmpty then fail .malformed
    let mark ← peek
    if mark == some 'e' || mark == some 'E' then do
      advance
      let sign ← peek
      if sign == some '+' || sign == some '-' then advance
      if (← takeWhile isDigit).isEmpty then fail .malformed

inductive Scalar where
  | null
  | bool (b : Bool)
  | number
  | string

def Scalar.ofChar? (c : Char) : Option Scalar :=
  if c == '"' then some .string
  else if c == '-' || isDigit c then some .number
  else if c == 't' then some (.bool true)
  else if c == 'f' then some (.bool false)
  else if c == 'n' then some .null
  else none

def scalar : Scalar → Reader Json
  | .null => do literal ['n', 'u', 'l', 'l']; pure .null
  | .bool true => do literal ['t', 'r', 'u', 'e']; pure (.bool true)
  | .bool false => do literal ['f', 'a', 'l', 's', 'e']; pure (.bool false)
  | .number => .number <$> number
  | .string => do advance; .string <$> text

def skipScalar : Scalar → Reader Unit
  | .number => skipNumber
  | .string => do advance; skipText
  | s => discard (scalar s)

end Lojban.Json.Reader
