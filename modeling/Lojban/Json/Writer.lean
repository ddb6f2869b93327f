import Lojban.Json.Basic

/-!
Compact JSON text. Of a float the fewest digits are written that read back as the float, and of those
the nearest.
-/

namespace Lojban

structure Decimal where
  digits : Nat
  power : Int
  deriving DecidableEq, Repr

namespace Decimal

/-- A positive float as `num / den`, between the least and the greatest number that round to it.
The bounds themselves round to it if its significand is even. -/
structure Span where
  least : Nat
  value : Nat
  greatest : Nat
  den : Nat
  closed : Bool

def hiddenBit : Nat := 4503599627370496

def exponentCount : Nat := 2048

def signBit : Nat := 9223372036854775808

def Span.ofBits (bits : Nat) : Span :=
  let fraction := bits % hiddenBit
  let exponent := bits / hiddenBit % exponentCount
  let m := if exponent = 0 then fraction else fraction + hiddenBit
  -- a unit is a quarter of the distance between neighbours
  let below := if fraction = 0 ∧ 1 < exponent then 1 else 2
  let shift := Nat.max exponent 1
  let up := Nat.pow 2 (shift - 1077)
  { least := (4 * m - below) * up
    value := 4 * m * up
    greatest := (4 * m + 2) * up
    den := Nat.pow 2 (1077 - shift)
    closed := m % 2 == 0 }

def Span.holds (s : Span) (n num den : Nat) : Bool :=
  let x := n * num * s.den
  if s.closed then s.least * den ≤ x && x ≤ s.greatest * den
  else s.least * den < x && x < s.greatest * den

def digitCount (n : Nat) : Nat := (Nat.toDigits 10 n).length

def magnitude (num den : Nat) : Int :=
  let e : Int := (digitCount num : Int) - digitCount den
  if den * Nat.pow 10 e.toNat ≤ num * Nat.pow 10 (-e).toNat then e else e - 1

/-- The neighbour of the value on the grid of ten to the `power` that reads back; of two the nearer,
and the even one of two that are equally near. -/
def Span.onGrid? (s : Span) (power : Int) : Option Decimal :=
  let num := Nat.pow 10 power.toNat
  let den := Nat.pow 10 (-power).toNat
  let value := s.value * den
  let unit := s.den * num
  let low := value / unit
  let rest := value % unit
  let up := unit < 2 * rest || (2 * rest == unit && low % 2 == 1)
  match s.holds low num den, s.holds (low + 1) num den with
  | true, true => some ⟨if up then low + 1 else low, power⟩
  | true, false => some ⟨low, power⟩
  | false, true => some ⟨low + 1, power⟩
  | false, false => none

/-- Seventeen digits always suffice. -/
def digitLimit : Nat := 17

def Span.shortest (s : Span) : Decimal :=
  let e := magnitude s.value s.den
  ((List.range digitLimit).findSome? fun n : Nat => s.onGrid? (e - n)).getD ⟨0, 0⟩

def trim (d : Decimal) : Decimal :=
  let digits := (Nat.toDigits 10 d.digits).reverse
  let zeros := (digits.takeWhile (· == '0')).length
  ⟨d.digits / Nat.pow 10 zeros, d.power + zeros⟩

/-- Positional from a hundred-thousandth on and below ten to the 16th, with a digit after the point;
else with an exponent that carries its sign. -/
def toString (d : Decimal) : String :=
  let digits := Nat.toDigits 10 d.digits
  let e := d.power + digits.length - 1
  let zeros (n : Int) := List.replicate n.toNat '0'
  String.ofList <|
    if e < -5 || 16 ≤ e then
      let fraction := digits.drop 1
      digits.take 1 ++ (if fraction.isEmpty then [] else '.' :: fraction) ++ ['e'] ++
        [if e < 0 then '-' else '+'] ++ Nat.toDigits 10 e.natAbs
    else if e < 0 then ['0', '.'] ++ zeros (-e - 1) ++ digits
    else
      let whole := e.toNat + 1
      let fraction := digits.drop whole
      digits.take whole ++ zeros d.power ++ ['.'] ++ (if fraction.isEmpty then ['0'] else fraction)

end Decimal

def decimalText (x : Float) : String :=
  let bits := x.toBits.toNat
  let size := bits % Decimal.signBit
  let sign := if bits = size then "" else "-"
  if size = 0 then sign ++ "0.0"
  else sign ++ (Decimal.Span.ofBits size).shortest.trim.toString

example : decimalText 0.1 = "0.1" := by decide +kernel
example : decimalText 1e15 = "1000000000000000.0" := by decide +kernel
example : decimalText 1e16 = "1e+16" := by decide +kernel
example : decimalText 1e-5 = "0.00001" := by decide +kernel
example : decimalText 1.5e-7 = "1.5e-7" := by decide +kernel
example : decimalText (-0.0) = "-0.0" := by decide +kernel

namespace Json

def hexDigit (n : Nat) : Char := (Nat.digitChar n)

def escaped (c : Char) : List Char :=
  match c with
  | '"' => ['\\', '"']
  | '\\' => ['\\', '\\']
  | '\x08' => ['\\', 'b']
  | '\x0c' => ['\\', 'f']
  | '\n' => ['\\', 'n']
  | '\r' => ['\\', 'r']
  | '\t' => ['\\', 't']
  | c =>
    if c < ' ' then ['\\', 'u', '0', '0', hexDigit (c.toNat / 16), hexDigit (c.toNat % 16)]
    else [c]

def quote (s : String) : String :=
  String.ofList ('"' :: s.toList.flatMap escaped ++ ['"'])

end Json

def Number.write : Number → String
  | int n => toString n
  | float x => decimalText x

namespace Json

mutual

def write : Json → String
  | null => "null"
  | bool b => if b then "true" else "false"
  | number n => n.write
  | string s => quote s
  | array vs => "[" ++ ",".intercalate (writeItems vs) ++ "]"
  | object es => "\x7b" ++ ",".intercalate (writeEntries es) ++ "\x7d"

def writeItems : List Json → List String
  | [] => []
  | v :: vs => v.write :: writeItems vs

def writeEntries : List (String × Json) → List String
  | [] => []
  | (k, v) :: es => (quote k ++ ":" ++ v.write) :: writeEntries es

end

end Json

end Lojban
