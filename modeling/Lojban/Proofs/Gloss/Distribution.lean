import Lojban.Gloss.Relation

namespace Lojban

inductive Side where
  | left
  | right
  deriving DecidableEq, Repr

/-- Where a node stands below a root: the sides it lies on, from its own conjunction outwards. -/
abbrev Position := List Side

namespace Position

def above : Position → List Position
  | [] => []
  | _ :: outer => outer :: above outer

end Position

namespace Tree

def side? : Tree → Side → Option Tree
  | conjunction c, .left => c.left
  | conjunction c, .right => some c.right
  | _, _ => none

def at? (root : Tree) : Position → Option Tree
  | [] => some root
  | side :: outer => (root.at? outer).bind (·.side? side)

def sharedAt (root : Tree) (p : Position) : List Tree :=
  match root.at? p with
  | some (conjunction c) => c.tailTerms
  | _ => []

mutual

/-- Conjunctions as left, joiner, scope, right, around what stands for the tail at each position. -/
def layout (tailAt : Position → Tail Tree → Phrase) (p : Position) : Tree → Phrase
  | conjunction ⟨left, right, joiner, scope, _, _, _⟩ =>
    .joined (layoutOption tailAt (.left :: p) left) joiner scope (layout tailAt (.right :: p) right)
  | tail t => tailAt p t
  | t => .node t

def layoutOption (tailAt : Position → Tail Tree → Phrase) (p : Position) :
    Option Tree → Option Phrase
  | none => none
  | some t => some (layout tailAt p t)

end

end Tree

/-- The tail at a position below `root`: what precedes it, its first place, its own terms, and then
the terms of every conjunction above it. -/
def Lexicon.tailAt (x : Lexicon) (root : Tree) (p : Position) (t : Tail Tree) : Phrase :=
  let predicate := x.predicate (some t.selbri)
  .ofParts (predicate.terms t.preterms :: (predicate.first x).toList ++
    predicate.terms t.tailTerms :: p.above.map fun q => predicate.terms (root.sharedAt q))

def Tree.sharedAbove (root : Tree) (p : Position) : List (List Tree) :=
  (p.above.map root.sharedAt).filter (!·.isEmpty)

theorem Tree.sharedAbove_cons {root : Tree} {p : Position} {c : Conjunction Tree} (side : Side)
    (h : root.at? p = some (.conjunction c)) :
    root.sharedAbove (side :: p) =
      (if c.tailTerms.isEmpty then [] else [c.tailTerms]) ++ root.sharedAbove p := by
  have own : root.sharedAt p = c.tailTerms := by rw [sharedAt, h]
  rw [sharedAbove, Position.above, List.map_cons, List.filter_cons, own, sharedAbove]
  cases c.tailTerms.isEmpty <;> rfl

theorem Predicate.ofParts_terms_filter (p : Predicate) (parts : List Phrase)
    (shared : List (List Tree)) :
    Phrase.ofParts (parts ++ (shared.filter (!·.isEmpty)).map p.terms) =
      Phrase.ofParts (parts ++ shared.map p.terms) := by
  have kept : ((shared.filter (!·.isEmpty)).map p.terms).filter (!·.isEmpty) =
      (shared.map p.terms).filter (!·.isEmpty) := by
    induction shared with
    | nil => rfl
    | cons ts shared ih =>
      cases ts with
      | nil => exact ih
      | cons t ts =>
        rw [List.filter_cons_of_pos rfl, List.map_cons, List.map_cons, List.filter_cons, ih,
          List.filter_cons]
  rw [Phrase.ofParts, Phrase.ofParts, List.filter_append, List.filter_append, kept]

namespace Lexicon

variable {x : Lexicon} {root : Tree}

theorem tail_sharedAbove (p : Position) (t : Tail Tree) :
    x.tail (some (root.sharedAbove p)) (x.predicate (some t.selbri)) t = x.tailAt root p t := by
  have kept := (x.predicate (some t.selbri)).ofParts_terms_filter
    ((x.predicate (some t.selbri)).terms t.preterms ::
      ((x.predicate (some t.selbri)).first x).toList ++
      [(x.predicate (some t.selbri)).terms t.tailTerms]) (p.above.map root.sharedAt)
  simpa [tail, tailAt, Tree.sharedAbove, Function.comp_def] using kept

mutual

theorem rear_eq_layout (p : Position) : ∀ t : Tree, root.at? p = some t →
    x.rear (some (root.sharedAbove p)) t = t.layout (x.tailAt root) p
  | .conjunction ⟨left, right, joiner, scope, tailTerms, link, extra⟩, h => by
    have shared (side : Side) := Tree.sharedAbove_cons side h
    have below (side : Side) : root.at? (side :: p) =
        (Tree.conjunction ⟨left, right, joiner, scope, tailTerms, link, extra⟩).side? side := by
      rw [Tree.at?, h, Option.bind_some]
    rw [rear, Tree.layout, Option.getD_some]
    rw [← rearOption_eq_layoutOption (.left :: p) left (fun t ht => (below .left).trans ht),
      ← rear_eq_layout (.right :: p) right (below .right), shared, shared]
  | .tail t, _ => by
    rw [rear, Tree.layout]
    exact tail_sharedAbove p t
  | .composite ts, _ => by rw [rear, Tree.layout] <;> simp
  | .text s, _ => by rw [rear, Tree.layout] <;> simp
  | .leaf l, _ => by rw [rear, Tree.layout] <;> simp
  | .bridi b, _ => by rw [rear, Tree.layout] <;> simp
  | .term t, _ => by rw [rear, Tree.layout] <;> simp
  | .wrapper w, _ => by rw [rear, Tree.layout] <;> simp
  | .other v, _ => by rw [rear, Tree.layout] <;> simp

theorem rearOption_eq_layoutOption (p : Position) : ∀ t : Option Tree,
    (∀ u, t = some u → root.at? p = some u) →
    x.rearOption (root.sharedAbove p) t = Tree.layoutOption (x.tailAt root) p t
  | none, _ => rfl
  | some t, h => by
    rw [rearOption, Tree.layoutOption, rear_eq_layout p t (h t rfl)]

end

theorem rear_none (c : Conjunction Tree) :
    x.rear none (.conjunction c) = x.rear (some []) (.conjunction c) := rfl

end Lexicon

example (s t u inner outer : Tree) :
    (Tree.conjunction ⟨some s, .conjunction ⟨some t, u, none, [], [inner], none, []⟩, none, [],
      [outer], none, []⟩).sharedAbove [.left, .right] = [[inner], [outer]] := rfl

end Lojban
