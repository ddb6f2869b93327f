import Lojban.Dictionary
import Lojban.Gloss.Phrase
import Lojban.Places

namespace Lojban

structure Lexicon where
  places : PlaceTable
  dictionary : Dictionary

structure Predicate where
  node : Option Tree
  word : Option String
  conversion : Option (List Nat)
  record : Option PlaceRecord

def Lexicon.predicate (x : Lexicon) (selbri : Option Tree) : Predicate :=
  let word := selbri.bind (·.headWord?)
  ⟨selbri, word, selbri.bind (·.conversion?), word.bind x.places.get?⟩

def Tree.declared? : Tree → Option (Nat × Tree)
  | .term t => t.place.map fun d => (d, t.sumti)
  | .leaf l => l.place.map fun d => (d, .leaf l)
  | _ => none

def Phrase.joined (left : Option Phrase) (joiner : Option Tree) (scope : List Tree)
    (right : Phrase) : Phrase :=
  .ofParts (left.toList ++ joiner.toList.map .node ++ scope.map .node ++ [right])

namespace Predicate

def place (p : Predicate) (declared : Nat) : Nat :=
  match declared with
  | 0 => 0
  | n + 1 => (p.conversion.bind (·[n]?)).getD (n + 1)

/-- A sumti with the texts around its place, or after its place by number where there are none. -/
def surround (p : Predicate) (place : Nat) (sumti : Tree) : Option Phrase :=
  match p.record, p.word with
  | some r, _ =>
    some (.ofParts ((r.before place).toList.map .text ++ .node sumti ::
      (r.after place).toList.map .text))
  | none, some w => some (.ofParts [.word (w ++ toString place), .node sumti])
  | none, none => none

def placed (p : Predicate) (t : Tree) : Phrase :=
  match t.declared? with
  | some (declared, sumti) =>
    if p.place declared = 0 then .node t
    else (p.surround (p.place declared) sumti).getD (.node t)
  | none => .node t

mutual

def resolve (p : Predicate) : Tree → Phrase
  | .conjunction ⟨left, right, joiner, scope, _, _, _⟩ =>
    .joined (p.resolveOption left) joiner scope (p.resolve right)
  | .composite ts => .ofParts (p.resolveAll ts)
  | t => p.placed t

def resolveAll (p : Predicate) : List Tree → List Phrase
  | [] => []
  | t :: ts => p.resolve t :: p.resolveAll ts

def resolveOption (p : Predicate) : Option Tree → Option Phrase
  | none => none
  | some t => some (p.resolve t)

end

def terms (p : Predicate) (ts : List Tree) : Phrase := .ofParts (p.resolveAll ts)

/-- What stands for the first place where word order no longer implies it. -/
def first (x : Lexicon) (p : Predicate) : Option Phrase :=
  match p.record, p.word with
  | some r, _ => (r.after 1).map .text
  | none, some w => some (((x.dictionary.keyword w 1).map .text).getD (.word w))
  | none, none => p.node.map .node

end Predicate

end Lojban
