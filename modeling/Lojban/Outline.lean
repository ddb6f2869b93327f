import Lojban.Mode
import Lojban.Text.Case
import Lojban.Tree.Shape

/-!
What a renderer shows, before it is text: words, and groups of them in brackets. A group of one is
its only part. A tree in brackets has one group for each composite.
-/

namespace Lojban

inductive Outline where
  | text (s : String)
  | placeholder
  | labelled (places : List Nat) (body : Outline)
  | group (parts : List Outline)

namespace Outline

def ofParts : List Outline → Outline
  | [o] => o
  | os => group os

theorem ofParts_of_length_ne_one {os : List Outline} (h : os.length ≠ 1) :
    ofParts os = group os := by
  match os with
  | [] => rfl
  | [o] => exact absurd rfl h
  | o :: o' :: os => rfl

def label : Option (List Nat) → Outline → Outline
  | some places, o => labelled places o
  | none, o => o

mutual

def chars : Outline → List Char
  | text s => s.toList
  | placeholder => ['[', '?', '?', '?', ']']
  | labelled places body =>
    '[' :: [','].intercalate (places.map (Nat.toDigits 10)) ++ [']', ':'] ++ body.chars
  | group os => '[' :: charsAll os ++ [']']

def charsAll : List Outline → List Char
  | [] => []
  | [o] => o.chars
  | o :: os => o.chars ++ ' ' :: charsAll os

end

def toString (o : Outline) : String := String.ofList o.chars

end Outline

/-- Which elided leaves are shown where elided words are hidden. -/
abbrev Exemption := Leaf → Bool

/-- The parser supplies a tag for a place that is only implied. -/
def Leaf.isPlaceTag (l : Leaf) : Bool := l.selmaho == some "FA"

/-- Elided words stand in capitals and without their class. -/
def Leaf.display (m : Mode) (l : Leaf) : String :=
  if l.elided then Case.upper l.word
  else
    match l.selmaho with
    | some selmaho => if m.classes then selmaho ++ ":" ++ l.word else l.word
    | none => l.word

namespace Tree

def isVisible (m : Mode) (exempt : Exemption) : Tree → Bool
  | composite cs => !cs.isEmpty
  | text s => s != ""
  | leaf l => !l.elided || m.elided || exempt l
  | other v => !v.isVoid
  | _ => true

def outline (m : Mode) (exempt : Exemption) (t : Tree) : Outline :=
  match h : t.shape with
  | .token s => .text s
  | .leaf l => .text (l.display m)
  | .link conversion inner =>
    have := sizeOf_lt_of_shape_link h
    .label (if m.tables then conversion else none) (inner.outline m exempt)
  | .group cs =>
    .ofParts ((cs.attach.filter fun c => c.1.isVisible m exempt).map fun c =>
      have := sizeOf_lt_of_shape_group h c.2
      c.1.outline m exempt)
  | .unknown => .placeholder
termination_by sizeOf t

end Tree

end Lojban
