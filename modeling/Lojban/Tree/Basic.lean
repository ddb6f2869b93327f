import Lojban.Json.Basic

/-!
Parse trees of Lojban texts. A node may carry a link to the surface structure below it; without one
its own parts, in surface order, stand for it.
-/

namespace Lojban

structure Leaf where
  word : String
  /-- Supplied by the parser, not written in the text. -/
  elided : Bool := false
  selmaho : Option String := none
  /-- The place it fills where it is a term by itself. -/
  place : Option Nat := none
  extra : Json.Fields := []
  deriving DecidableEq

inductive Role where
  | bridi
  | precedence
  | other (name : String)
  deriving DecidableEq

namespace Role

def ofName (name : String) : Role :=
  if name = "bridi" then bridi
  else if name = "precedence" then precedence
  else other name

def name : Role → String
  | bridi => "bridi"
  | precedence => "precedence"
  | other name => name

end Role

variable {τ : Type}

structure Bridi (τ : Type) where
  role : Role
  head : List τ := []
  tail : Option τ := none
  contents : Option τ := none
  link : Option τ := none
  extra : Json.Fields := []

/-- Two terms or two tails, joined. The tail terms belong to both. -/
structure Conjunction (τ : Type) where
  left : Option τ := none
  right : τ
  joiner : Option τ := none
  scope : List τ := []
  tailTerms : List τ := []
  link : Option τ := none
  extra : Json.Fields := []

structure Tail (τ : Type) where
  selbri : τ
  preterms : List τ := []
  tailTerms : List τ := []
  /-- Places that a tag after the tail names, if there is such a tag. -/
  tagged : Option (List Nat) := none
  link : Option τ := none
  extra : Json.Fields := []

structure Term (τ : Type) where
  place : Option Nat := none
  sumti : τ
  link : Option τ := none
  extra : Json.Fields := []

/-- A predicate may convert places, and a compound has a head of its own. -/
structure Wrapper (τ : Type) where
  link : Option τ := none
  conversion : Option (List Nat) := none
  tertau : Option τ := none
  extra : Json.Fields := []

inductive Tree where
  | composite (children : List Tree)
  | text (word : String)
  | leaf (l : Leaf)
  | bridi (b : Bridi Tree)
  | conjunction (c : Conjunction Tree)
  | tail (t : Tail Tree)
  | term (t : Term Tree)
  | wrapper (w : Wrapper Tree)
  | other (v : Json)

def Conjunction.children (c : Conjunction τ) : List τ :=
  c.left.toList ++ c.joiner.toList ++ c.scope ++ c.right :: c.tailTerms

def Tail.children (t : Tail τ) : List τ := t.preterms ++ t.selbri :: t.tailTerms

namespace Tree

def word (w : String) : Tree := leaf ⟨w, false, none, none, []⟩

def wrap (inner : Tree) : Tree := wrapper ⟨some inner, none, none, []⟩

def isLeaf : Tree → Bool
  | leaf _ => true
  | _ => false

def text? : Tree → Option String
  | leaf l => some l.word
  | text s => some s
  | _ => none

def isEmpty : Tree → Bool
  | composite cs => cs.isEmpty
  | _ => false

def link? : Tree → Option Tree
  | bridi b => b.link
  | conjunction c => c.link
  | tail t => t.link
  | term t => t.link
  | wrapper w => w.link
  | _ => none

/-- A tail without a link stands in its relation by its parts. -/
def splice : Tree → List Tree
  | tail t => if t.link.isNone then t.children else [tail t]
  | t => [t]

def children : Tree → List Tree
  | composite cs => cs
  | bridi b => b.head ++ b.contents.toList ++ b.tail.toList.flatMap splice
  | conjunction c => c.children
  | tail t => t.children
  | term t => [t.sumti]
  | wrapper w => w.tertau.toList
  | _ => []

def selbri? : Tree → Option Tree
  | tail t => some t.selbri
  | _ => none

def conversion? : Tree → Option (List Nat)
  | wrapper w => w.conversion
  | _ => none

def compoundHead : Tree → Tree
  | wrapper ⟨_, _, some head, _⟩ => head.compoundHead
  | t => t

def headWord? (t : Tree) : Option String :=
  match t.compoundHead with
  | wrapper ⟨some (composite cs), _, _, _⟩ => cs.findSome? text?
  | wrapper ⟨link, _, _, _⟩ => link.bind text?
  | head => head.text?

mutual

def beq : Tree → Tree → Bool
  | composite cs, composite cs' => beqAll cs cs'
  | text s, text s' => s == s'
  | leaf l, leaf l' => l == l'
  | bridi ⟨role, head, rear, contents, link, extra⟩,
    bridi ⟨role', head', rear', contents', link', extra'⟩ =>
    role == role' && beqAll head head' && beqOption rear rear' && beqOption contents contents' &&
      beqOption link link' && extra == extra'
  | conjunction ⟨left, right, joiner, scope, tailTerms, link, extra⟩,
    conjunction ⟨left', right', joiner', scope', tailTerms', link', extra'⟩ =>
    beqOption left left' && beq right right' && beqOption joiner joiner' && beqAll scope scope' &&
      beqAll tailTerms tailTerms' && beqOption link link' && extra == extra'
  | tail ⟨selbri, preterms, tailTerms, tagged, link, extra⟩,
    tail ⟨selbri', preterms', tailTerms', tagged', link', extra'⟩ =>
    beq selbri selbri' && beqAll preterms preterms' && beqAll tailTerms tailTerms' &&
      tagged == tagged' && beqOption link link' && extra == extra'
  | term ⟨place, sumti, link, extra⟩, term ⟨place', sumti', link', extra'⟩ =>
    place == place' && beq sumti sumti' && beqOption link link' && extra == extra'
  | wrapper ⟨link, conversion, tertau, extra⟩, wrapper ⟨link', conversion', tertau', extra'⟩ =>
    beqOption link link' && conversion == conversion' && beqOption tertau tertau' &&
      extra == extra'
  | other v, other v' => v == v'
  | _, _ => false

def beqAll : List Tree → List Tree → Bool
  | [], [] => true
  | t :: ts, t' :: ts' => beq t t' && beqAll ts ts'
  | _, _ => false

def beqOption : Option Tree → Option Tree → Bool
  | none, none => true
  | some t, some t' => beq t t'
  | _, _ => false

end

mutual

theorem beq_iff : ∀ t t' : Tree, beq t t' = true ↔ t = t'
  | composite cs, t' => by
    cases t' with
    | composite cs' => simp [beq, beqAll_iff cs cs']
    | _ => simp [beq]
  | text s, t' => by cases t' <;> simp [beq]
  | leaf l, t' => by cases t' <;> simp [beq]
  | bridi ⟨role, head, rear, contents, link, extra⟩, t' => by
    cases t' with
    | bridi b' =>
      cases b'
      simp [beq, beqAll_iff head, beqOption_iff rear, beqOption_iff contents, beqOption_iff link,
        and_assoc]
    | _ => simp [beq]
  | conjunction ⟨left, right, joiner, scope, tailTerms, link, extra⟩, t' => by
    cases t' with
    | conjunction c' =>
      cases c'
      simp [beq, beqOption_iff left, beq_iff right, beqOption_iff joiner, beqAll_iff scope,
        beqAll_iff tailTerms, beqOption_iff link, and_assoc]
    | _ => simp [beq]
  | tail ⟨selbri, preterms, tailTerms, tagged, link, extra⟩, t' => by
    cases t' with
    | tail u =>
      cases u
      simp [beq, beq_iff selbri, beqAll_iff preterms, beqAll_iff tailTerms, beqOption_iff link,
        and_assoc]
    | _ => simp [beq]
  | term ⟨place, sumti, link, extra⟩, t' => by
    cases t' with
    | term u =>
      cases u
      simp [beq, beq_iff sumti, beqOption_iff link, and_assoc]
    | _ => simp [beq]
  | wrapper ⟨link, conversion, tertau, extra⟩, t' => by
    cases t' with
    | wrapper w' =>
      cases w'
      simp [beq, beqOption_iff link, beqOption_iff tertau, and_assoc]
    | _ => simp [beq]
  | other v, t' => by cases t' <;> simp [beq]

theorem beqAll_iff : ∀ ts ts' : List Tree, beqAll ts ts' = true ↔ ts = ts'
  | [], ts' => by cases ts' <;> simp [beqAll]
  | t :: ts, ts' => by
    cases ts' with
    | nil => simp [beqAll]
    | cons t' ts' => simp [beqAll, beq_iff t t', beqAll_iff ts ts']

theorem beqOption_iff : ∀ t t' : Option Tree, beqOption t t' = true ↔ t = t'
  | none, t' => by cases t' <;> simp [beqOption]
  | some t, t' => by
    cases t' with
    | none => simp [beqOption]
    | some t' => simp [beqOption, beq_iff t t']

end

instance : DecidableEq Tree := fun t t' => decidable_of_iff _ (beq_iff t t')

instance : Inhabited Tree := ⟨composite []⟩

end Tree

end Lojban
