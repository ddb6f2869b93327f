/-!
Nested square brackets are shown in four kinds by their depth, and each full round of kinds is
numbered: the fifth bracket opens with a one, the ninth with a two. Numerals are positional, over
two or more glyphs.
-/

namespace Lojban

structure DigitSet where
  glyphs : List Char
  two_le : 2 ≤ glyphs.length
  deriving DecidableEq

namespace DigitSet

def radix (d : DigitSet) : Nat := d.glyphs.length

def ofList? (glyphs : List Char) : Option DigitSet :=
  if h : 2 ≤ glyphs.length then some ⟨glyphs, h⟩ else none

def tooFewMessage : String := "a digit set needs at least two glyphs"

def superscript : DigitSet :=
  ⟨['⁰', '¹', '²', '³', '⁴', '⁵', '⁶', '⁷', '⁸', '⁹'], by decide⟩

def glyph (d : DigitSet) (n : Nat) : Char :=
  if h : n < d.glyphs.length then d.glyphs[n] else ' '

/-- Most significant digit first, without leading zeros, so zero is empty. -/
def encode (d : DigitSet) (n : Nat) : List Char :=
  if n = 0 then [] else d.encode (n / d.radix) ++ [d.glyph (n % d.radix)]
termination_by n
decreasing_by exact Nat.div_lt_self (by omega) d.two_le

end DigitSet

inductive BracketKind where
  | round
  | square
  | curly
  | angle
  deriving DecidableEq, Repr

namespace BracketKind

def opening : BracketKind → Char
  | round => '('
  | square => '['
  | curly => '\x7b'
  | angle => '<'

def closing : BracketKind → Char
  | round => ')'
  | square => ']'
  | curly => '\x7d'
  | angle => '>'

def ofDepth (depth : Nat) : BracketKind :=
  match depth % 4 with
  | 0 => round
  | 1 => square
  | 2 => curly
  | _ => angle

end BracketKind

namespace Glyphs

/-- The number of a bracket inside `depth` others, on the first of each round but the lowest. -/
def floor (depth : Nat) : List Char :=
  if depth ≠ 0 ∧ depth % 4 = 0 then DigitSet.superscript.encode (depth / 4) else []

def opening (depth : Nat) : List Char :=
  (BracketKind.ofDepth depth).opening :: floor depth

def closing (depth : Nat) : List Char :=
  floor depth ++ [(BracketKind.ofDepth depth).closing]

/-- A closing bracket that closes nothing stays as it is. -/
def shown (depth : Nat) : List Char → List Char
  | [] => []
  | '[' :: cs => opening depth ++ shown (depth + 1) cs
  | ']' :: cs =>
    match depth with
    | 0 => ']' :: shown 0 cs
    | outer + 1 => closing outer ++ shown outer cs
  | c :: cs => c :: shown depth cs

end Glyphs

def prettify (s : String) : String := String.ofList (Glyphs.shown 0 s.toList)

def bracketCount (s : String) : Nat × Nat := (s.toList.count '[', s.toList.count ']')

example : prettify "[a [b c]]" = "(a [b c])" := by decide +kernel
example : prettify "a] [b" = "a] (b" := by decide +kernel
example : prettify "[[[[[x]]]]]" = "([\x7b<(¹x¹)>\x7d])" := by decide +kernel

end Lojban
