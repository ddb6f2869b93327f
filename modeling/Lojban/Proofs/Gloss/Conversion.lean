import Lojban.Proofs.Gloss.Context

namespace Lojban

/-- Places count from one. A place that the table does not reach keeps its name. -/
def convert (table : List Nat) (d : Nat) : Nat :=
  if h : 1 ≤ d ∧ d ≤ table.length then table[d - 1] else d

namespace Tree

mutual

def redeclare (f : Nat → Nat) : Tree → Tree
  | composite ts => composite (redeclareAll f ts)
  | conjunction ⟨left, right, joiner, scope, tailTerms, link, extra⟩ =>
    conjunction ⟨redeclareOption f left, right.redeclare f, joiner, scope, tailTerms, link, extra⟩
  | term t => term { t with place := t.place.map f }
  | leaf l => leaf { l with place := l.place.map f }
  | t => t

def redeclareAll (f : Nat → Nat) : List Tree → List Tree
  | [] => []
  | t :: ts => t.redeclare f :: redeclareAll f ts

def redeclareOption (f : Nat → Nat) : Option Tree → Option Tree
  | none => none
  | some t => some (t.redeclare f)

end

variable {f : Nat → Nat}

theorem redeclareAll_eq (ts : List Tree) : redeclareAll f ts = ts.map (redeclare f) := by
  induction ts with
  | nil => rfl
  | cons t ts ih => rw [redeclareAll, ih, List.map_cons]

theorem redeclare_group (ts : List Tree) :
    (composite ts).redeclare f = composite (ts.map (redeclare f)) := by
  rw [redeclare, redeclareAll_eq]

theorem redeclare_joined (c : Conjunction Tree) :
    (conjunction c).redeclare f =
      conjunction { c with left := c.left.map (redeclare f), right := c.right.redeclare f } := by
  obtain ⟨left, right, joiner, scope, tailTerms, link, extra⟩ := c
  rw [redeclare]
  cases left with
  | none => rfl
  | some t => rfl

theorem isSimple_redeclare {t : Tree} (h : t.isSimple) : (t.redeclare f).isSimple := by
  cases t with
  | composite ts => cases h
  | conjunction c => cases h
  | _ => simp only [redeclare, isSimple]

end Tree

namespace Predicate

theorem place_eq_convert {p : Predicate} {table : List Nat} (h : p.conversion = some table)
    (d : Nat) : p.place d = convert table d := by
  cases d with
  | zero => rfl
  | succ n =>
    rw [place, h, Option.bind_some]
    by_cases reached : n < table.length
    · simp [convert, reached, Nat.succ_le_of_lt reached]
    · have beyond : ¬(1 ≤ n + 1 ∧ n + 1 ≤ table.length) := fun within => reached within.2
      rw [convert, dif_neg beyond, List.getElem?_eq_none (Nat.le_of_not_lt reached),
        Option.getD_none]

theorem place_of_unconverted {p : Predicate} (h : p.conversion = none) (d : Nat) :
    p.place d = d := by
  cases d with
  | zero => rfl
  | succ n => rw [place, h, Option.bind_none, Option.getD_none]

end Predicate

theorem Tree.headWord?_withConversion (w : Wrapper Tree) (conversion : Option (List Nat)) :
    (wrapper { w with conversion := conversion }).headWord? = (wrapper w).headWord? := by
  obtain ⟨link, table, tertau, extra⟩ := w
  cases tertau with
  | none =>
    cases link with
    | none => rfl
    | some inner => cases inner <;> rfl
  | some head => rfl

namespace Lexicon

variable {x : Lexicon}

theorem renames_convert (w : Wrapper Tree) (table : List Nat) :
    (x.predicate (some (.wrapper { w with conversion := some table }))).Renames
      (x.predicate (some (.wrapper { w with conversion := none }))) (convert table) where
  place d := (Predicate.place_of_unconverted rfl _).trans (Predicate.place_eq_convert rfl d).symm
  word := by
    simp only [predicate, Option.bind_some, Tree.headWord?_withConversion]
  record := by
    simp only [predicate, Option.bind_some, Tree.headWord?_withConversion]

end Lexicon

namespace Renderer

variable {r : Renderer} {m : Mode}

/-- An exemption that does not look at which place a leaf declares. It may look at whether the leaf
declares one. -/
def BlindToPlaces (r : Renderer) : Prop :=
  ∀ (l : Leaf) (f : Nat → Nat), r.exempt { l with place := l.place.map f } = r.exempt l

section

variable (blind : r.BlindToPlaces) {f : Nat → Nat}

include blind

theorem digest_leaf_redeclare (l : Leaf) :
    r.digest m [.node (.leaf l)] =
      r.digest m [.node (.leaf { l with place := l.place.map f })] := by
  have kept : r.keeps m (.node (.leaf { l with place := l.place.map f })) =
      r.keeps m (.node (.leaf l)) := by
    simp only [keeps, Tree.isVisible, Tree.text?, blind l]
  have same : r.gloss m (.leaf { l with place := l.place.map f }) = r.gloss m (.leaf l) := by
    rw [gloss_leaf rfl rfl, gloss_leaf rfl rfl]
  simp [digest, Phrase.isEmpty, Tree.isEmpty, kept, same]

omit blind in
theorem digest_term_place (u : Term Tree) (place : Option Nat) :
    r.digest m [.node (.term u)] = r.digest m [.node (.term { u with place := place })] := by
  have same : r.gloss m (.term { u with place := place }) = r.gloss m (.term u) := by
    rw [gloss_eq_ofShape rfl, gloss_eq_ofShape rfl]
    rfl
  rw [digest_node rfl, digest_node rfl, same]

theorem digest_placed_redeclare {p q : Predicate} (h : p.Renames q f) {t : Tree}
    (simple : t.isSimple) :
    r.digest m [p.placed t] = r.digest m [q.placed (t.redeclare f)] := by
  cases t with
  | composite ts => cases simple
  | conjunction c => cases simple
  | leaf l =>
    have member := digest_leaf_redeclare blind l (m := m) (f := f)
    simp only [Tree.redeclare]
    exact digest_placed_renamed h rfl (Option.map_map ..) member member
  | term u =>
    have member := digest_term_place u (u.place.map f) (r := r) (m := m)
    simp only [Tree.redeclare]
    exact digest_placed_renamed h rfl (Option.map_map ..) member rfl
  | _ => simp only [Tree.redeclare, Predicate.placed, Tree.declared?]

theorem digest_resolve_redeclare {p q : Predicate} (h : p.Renames q f) (t : Tree) :
    r.digest m [p.resolve t] = r.digest m [q.resolve (t.redeclare f)] := by
  induction t using Tree.term_induction with
  | group ts ih =>
    rw [Tree.redeclare_group, p.resolve_group, q.resolve_group, p.terms_eq, q.terms_eq,
      List.map_map]
    exact digest_ofParts_congr (digest_map_congr ih)
  | joined c left right =>
    rw [Tree.redeclare_joined, p.resolve_joined, q.resolve_joined]
    refine digest_joined_congr ?_ rfl rfl right
    cases side : c.left with
    | none => rfl
    | some t => exact left t side
  | simple t simple =>
    rw [p.resolve_simple simple, q.resolve_simple (Tree.isSimple_redeclare simple)]
    exact digest_placed_redeclare blind h simple

theorem digest_terms_redeclare {p q : Predicate} (h : p.Renames q f) (ts : List Tree) :
    r.digest m [p.terms ts] = r.digest m [q.terms (ts.map (Tree.redeclare f))] := by
  rw [p.terms_eq, q.terms_eq, List.map_map]
  exact digest_ofParts_congr (digest_map_congr fun t _ => digest_resolve_redeclare blind h t)

end

theorem digest_first_renamed {p q : Predicate} {f : Nat → Nat} (h : p.Renames q f)
    (node : r.digest m (p.node.toList.map .node) = r.digest m (q.node.toList.map .node)) :
    r.digest m (p.first r.toLexicon).toList = r.digest m (q.first r.toLexicon).toList := by
  rw [Predicate.first, Predicate.first, h.record, h.word]
  split
  · rfl
  · rfl
  · rw [Option.toList_map, Option.toList_map]
    exact node

theorem digest_wrapper (w : Wrapper Tree) (conversion conversion' : Option (List Nat)) :
    r.digest m [.node (.wrapper { w with conversion := conversion })] =
      r.digest m [.node (.wrapper { w with conversion := conversion' })] := by
  have same : r.gloss m (.wrapper { w with conversion := conversion }) =
      r.gloss m (.wrapper { w with conversion := conversion' }) := by
    rw [gloss_eq_ofShape rfl, gloss_eq_ofShape rfl]
    cases w.link with
    | none => rfl
    | some inner => rfl
  rw [digest_node rfl, digest_node rfl, same]

/-- A relation with a conversion table is glossed as the one whose terms declare the converted
places and whose predicate has no table. -/
theorem gloss_redeclared (r : Renderer) (m : Mode)
    (blind : ∀ (l : Leaf) (f : Nat → Nat),
      r.exempt { l with place := l.place.map f } = r.exempt l)
    (b : Bridi Tree) (role : b.role = .bridi) (t : Tail Tree) (w : Wrapper Tree)
    (table : List Nat) :
    r.gloss m (.bridi { b with
        tail := some (.tail { t with
          selbri := .wrapper { w with conversion := some table } }) }) =
      r.gloss m (.bridi { b with
        head := b.head.map (Tree.redeclare (convert table))
        tail := some (.tail { t with
          selbri := .wrapper { w with conversion := none }
          preterms := t.preterms.map (Tree.redeclare (convert table))
          tailTerms := t.tailTerms.map (Tree.redeclare (convert table)) }) }) := by
  have names := r.toLexicon.renames_convert w table
  have terms (ts : List Tree) := digest_terms_redeclare blind names ts (m := m)
  have first := digest_first_renamed names (digest_wrapper w (some table) none) (r := r) (m := m)
  refine (gloss_relation ?_).trans (Eq.trans ?_ (gloss_relation ?_).symm)
  · exact role
  · rw [Lexicon.relation, Lexicon.relation, shown_ofParts, shown_ofParts]
    apply congrArg digested
    apply digest_cons_congr (terms b.head)
    simp only [Option.toList_some, List.map_cons, List.map_nil, Lexicon.rear]
    exact digest_tail_parts rfl rfl (terms t.preterms) first (terms t.tailTerms) rfl
  · exact role

end Renderer

def Bridi.scattered : Bridi Tree :=
  ⟨.bridi, [.composite [.leaf ⟨"mi", true, none, some 1, []⟩,
      .conjunction ⟨some (.term ⟨some 2, .word "do", none, []⟩),
        .term ⟨some 3, .word "ti", none, []⟩, some (.word "e"), [], [], none, []⟩]],
    none, none, none, []⟩

/-- A place beyond the conversion table, and a tag after the tail that skips the first place. -/
def Tail.scattered : Tail Tree :=
  ⟨.word "klama", [.text "ca"], [.term ⟨some 4, .word "ta", none, []⟩], some [4], none, []⟩

def Wrapper.scattered : Wrapper Tree :=
  ⟨some (.composite [.word "se", .word "klama"]), none, some (.word "klama"), []⟩

def Renderer.scattered : Renderer :=
  ⟨⟨Table.ofList [("klama", ⟨some "goes", some "to", none, ["from", "via"]⟩)], .void⟩,
    fun l => l.place.isSome⟩

theorem Renderer.gloss_redeclared_scattered :
    (∀ (l : Leaf) (f : Nat → Nat),
        scattered.exempt { l with place := l.place.map f } = scattered.exempt l) ∧
      Bridi.scattered.role = .bridi ∧
      scattered.gloss { Mode.blank with elided := false } (.bridi { Bridi.scattered with
          tail := some (.tail { Tail.scattered with
            selbri := .wrapper { Wrapper.scattered with conversion := some [3, 0, 4294967295] } }) }) =
        scattered.gloss { Mode.blank with elided := false } (.bridi { Bridi.scattered with
          head := Bridi.scattered.head.map (Tree.redeclare (convert [3, 0, 4294967295]))
          tail := some (.tail { Tail.scattered with
            selbri := .wrapper { Wrapper.scattered with conversion := none }
            preterms := Tail.scattered.preterms.map (Tree.redeclare (convert [3, 0, 4294967295]))
            tailTerms :=
              Tail.scattered.tailTerms.map (Tree.redeclare (convert [3, 0, 4294967295])) }) }) := by
  have blind : scattered.BlindToPlaces := fun l _ => Option.isSome_map ..
  exact ⟨blind, rfl, scattered.gloss_redeclared _ blind .scattered rfl .scattered .scattered _⟩

end Lojban
