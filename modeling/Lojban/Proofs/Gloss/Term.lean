import Lojban.Gloss.Relation

namespace Lojban

namespace Tree

def isSimple : Tree → Bool
  | composite _ => false
  | conjunction _ => false
  | _ => true

@[elab_as_elim]
theorem term_induction {P : Tree → Prop} (group : ∀ ts, (∀ t ∈ ts, P t) → P (composite ts))
    (joined : ∀ c : Conjunction Tree, (∀ t ∈ c.left, P t) → P c.right → P (conjunction c))
    (simple : ∀ t : Tree, t.isSimple → P t) (t : Tree) : P t :=
  match t with
  | composite ts =>
    group ts fun t ht =>
      have : sizeOf t < sizeOf (composite ts) := sizeOf_lt_of_mem_parts ht
      term_induction group joined simple t
  | conjunction c =>
    have : sizeOf c.right < sizeOf (conjunction c) := sizeOf_lt_of_mem_parts (by simp [parts])
    have left : ∀ t ∈ c.left, P t := fun t ht =>
      have : sizeOf t < sizeOf (conjunction c) := sizeOf_lt_of_mem_parts (by simp_all [parts])
      term_induction group joined simple t
    joined c left (term_induction group joined simple c.right)
  | text s => simple (text s) rfl
  | leaf l => simple (leaf l) rfl
  | bridi b => simple (bridi b) rfl
  | tail t => simple (tail t) rfl
  | term t => simple (term t) rfl
  | wrapper w => simple (wrapper w) rfl
  | other v => simple (other v) rfl
termination_by sizeOf t
decreasing_by all_goals assumption

end Tree

namespace Predicate

variable (p : Predicate)

theorem resolveAll_eq_map (ts : List Tree) : p.resolveAll ts = ts.map p.resolve := by
  induction ts with
  | nil => rfl
  | cons t ts ih => rw [resolveAll, ih, List.map_cons]

theorem terms_eq (ts : List Tree) : p.terms ts = .ofParts (ts.map p.resolve) := by
  rw [terms, resolveAll_eq_map]

theorem resolve_group (ts : List Tree) : p.resolve (.composite ts) = p.terms ts := by
  rw [resolve, terms]

theorem resolve_joined (c : Conjunction Tree) :
    p.resolve (.conjunction c) =
      .joined (c.left.map p.resolve) c.joiner c.scope (p.resolve c.right) := by
  obtain ⟨left, right, joiner, scope, tailTerms, link, extra⟩ := c
  rw [resolve]
  cases left with
  | none => rfl
  | some t => rfl

theorem resolve_simple {t : Tree} (h : t.isSimple) : p.resolve t = p.placed t := by
  cases t with
  | composite ts => cases h
  | conjunction c => cases h
  | _ => simp only [resolve]

variable {p}

theorem resolve_congr {q : Predicate} (h : ∀ t, p.placed t = q.placed t) (t : Tree) :
    p.resolve t = q.resolve t := by
  induction t using Tree.term_induction with
  | group ts ih =>
    rw [resolve_group, resolve_group, terms_eq, terms_eq, List.map_congr_left ih]
  | joined c left right =>
    rw [resolve_joined, resolve_joined, right, Option.map_congr left]
  | simple t simple =>
    rw [resolve_simple p simple, resolve_simple q simple, h]

theorem terms_congr {q : Predicate} (h : ∀ t, p.placed t = q.placed t) : p.terms = q.terms := by
  funext ts
  rw [terms_eq, terms_eq, funext (resolve_congr h)]

end Predicate

/-- The terms that a conjunction shares, in front of those that reach it from above. -/
def Conjunction.shared (c : Conjunction Tree) (upper : Option (List (List Tree))) :
    List (List Tree) :=
  (if c.tailTerms.isEmpty then [] else [c.tailTerms]) ++ upper.getD []

theorem Lexicon.rear_joined (x : Lexicon) (upper : Option (List (List Tree)))
    (c : Conjunction Tree) :
    x.rear upper (.conjunction c) =
      .joined (c.left.map (x.rear (some (c.shared upper)))) c.joiner c.scope
        (x.rear (some (c.shared upper)) c.right) := by
  obtain ⟨left, right, joiner, scope, tailTerms, link, extra⟩ := c
  rw [rear]
  cases left with
  | none => rfl
  | some t => rfl

end Lojban
