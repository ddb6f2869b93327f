import Lojban.Proofs.Brackets.Context
import Lojban.Proofs.Gloss.Digest
import Lojban.Proofs.Gloss.Term

/-!
A gloss depends on a node below its root only through what it adds to the sequences around it: by
itself, as a term, as a tail, or spliced into a relation. Links and predicates are seen otherwise.
-/

namespace Lojban

/-- Predicates that say the same of a place, where `f` puts the names of the second for those of the
first. -/
structure Predicate.Renames (p q : Predicate) (f : Nat → Nat) : Prop where
  place : ∀ d, q.place (f d) = p.place d
  word : q.word = p.word
  record : q.record = p.record

namespace Predicate

theorem Renames.refl (p : Predicate) : p.Renames p id := ⟨fun _ => rfl, rfl, rfl⟩

theorem Renames.surround {p q : Predicate} {f : Nat → Nat} (h : p.Renames q f) :
    q.surround = p.surround := by
  funext place sumti
  rw [Predicate.surround, Predicate.surround, h.record, h.word]

end Predicate

namespace Renderer

variable {r : Renderer} {m : Mode} {t u : Tree} {upper upper' : Option (List (List Tree))}

theorem gloss_eq_getD (t : Tree) :
    r.gloss m t = ((r.rephrase t).map (r.shown m)).getD (r.shown m (.ofShape t.shape)) := by
  rw [gloss_eq_shown, Lexicon.phrase]
  cases r.rephrase t <;> rfl

structure Shares (r : Renderer) (m : Mode) (upper upper' : Option (List (List Tree))) : Prop where
  below : upper.isSome = upper'.isSome
  terms : ∀ p : Predicate,
    r.digest m ((upper.getD []).map p.terms) = r.digest m ((upper'.getD []).map p.terms)

theorem Shares.refl (upper : Option (List (List Tree))) : r.Shares m upper upper :=
  ⟨rfl, fun _ => rfl⟩

theorem Shares.push (h : r.Shares m upper upper') {ts us : List Tree}
    (present : ts.isEmpty = us.isEmpty)
    (same : ∀ p : Predicate, r.digest m [p.terms ts] = r.digest m [p.terms us]) :
    r.Shares m (some ((if ts.isEmpty then [] else [ts]) ++ upper.getD []))
      (some ((if us.isEmpty then [] else [us]) ++ upper'.getD [])) where
  below := rfl
  terms p := by
    simp only [Option.getD_some, List.map_append, digest_append, h.terms, present]
    cases us.isEmpty with
    | true => rfl
    | false =>
      have own := same p
      simpa using own

theorem digest_tail_parts {p q : Predicate} {v w : Tail Tree}
    (below : upper.isSome = upper'.isSome) (tagged : v.tagged = w.tagged)
    (before : r.digest m [p.terms v.preterms] = r.digest m [q.terms w.preterms])
    (first : r.digest m (p.first r.toLexicon).toList = r.digest m (q.first r.toLexicon).toList)
    (after : r.digest m [p.terms v.tailTerms] = r.digest m [q.terms w.tailTerms])
    (shared : r.digest m ((upper.getD []).map p.terms) =
      r.digest m ((upper'.getD []).map q.terms)) :
    r.digest m [r.tail upper p v] = r.digest m [r.tail upper' q w] := by
  have said (must : Bool) : r.digest m (if must then (p.first r.toLexicon).toList else []) =
      r.digest m (if must then (q.first r.toLexicon).toList else []) := by
    cases must with
    | true => exact first
    | false => rfl
  apply digest_ofParts_congr
  rw [List.cons_append, List.cons_append, digest_cons, digest_cons (q.terms w.preterms),
    digest_append, digest_append, digest_cons (p.terms v.tailTerms),
    digest_cons (q.terms w.tailTerms), before, said, after, shared, below, tagged]

theorem digest_tail_congr (h : r.Shares m upper upper') (p : Predicate) {v w : Tail Tree}
    (before : r.digest m [p.terms v.preterms] = r.digest m [p.terms w.preterms])
    (after : r.digest m [p.terms v.tailTerms] = r.digest m [p.terms w.tailTerms])
    (tagged : v.tagged = w.tagged) :
    r.digest m [r.tail upper p v] = r.digest m [r.tail upper' p w] :=
  digest_tail_parts h.below tagged before rfl after (h.terms p)

theorem digest_conjunction_congr (h : r.Shares m upper upper') {c d : Conjunction Tree}
    (present : c.tailTerms.isEmpty = d.tailTerms.isEmpty)
    (terms : ∀ p : Predicate, r.digest m [p.terms c.tailTerms] = r.digest m [p.terms d.tailTerms])
    (left : ∀ {shared shared'}, r.Shares m (some shared) (some shared') →
      r.digest m (r.rearOption shared c.left).toList =
        r.digest m (r.rearOption shared' d.left).toList)
    (joiner : r.digest m (c.joiner.toList.map .node) = r.digest m (d.joiner.toList.map .node))
    (scope : r.digest m (c.scope.map .node) = r.digest m (d.scope.map .node))
    (right : ∀ {shared shared'}, r.Shares m (some shared) (some shared') →
      r.digest m [r.rear (some shared) c.right] = r.digest m [r.rear (some shared') d.right]) :
    r.digest m [r.rear upper (.conjunction c)] = r.digest m [r.rear upper' (.conjunction d)] := by
  have shared := h.push present terms
  rw [Lexicon.rear, Lexicon.rear]
  exact digest_joined_congr (left shared) joiner scope (right shared)

mutual

theorem digest_rear_congr : ∀ (t : Tree) {upper upper' : Option (List (List Tree))},
    r.Shares m upper upper' → r.digest m [r.rear upper t] = r.digest m [r.rear upper' t]
  | .conjunction ⟨left, right, joiner, scope, tailTerms, link, extra⟩, _, _, h =>
    digest_conjunction_congr h rfl (fun _ => rfl) (digest_rearOption_congr left) rfl rfl
      (digest_rear_congr right)
  | .tail v, _, _, h => by
    rw [Lexicon.rear, Lexicon.rear]
    exact digest_tail_congr h _ rfl rfl rfl
  | .composite ts, _, _, _ => by simp only [Lexicon.rear]
  | .text s, _, _, _ => by simp only [Lexicon.rear]
  | .leaf l, _, _, _ => by simp only [Lexicon.rear]
  | .bridi b, _, _, _ => by simp only [Lexicon.rear]
  | .term v, _, _, _ => by simp only [Lexicon.rear]
  | .wrapper w, _, _, _ => by simp only [Lexicon.rear]
  | .other v, _, _, _ => by simp only [Lexicon.rear]

theorem digest_rearOption_congr : ∀ (t : Option Tree) {shared shared' : List (List Tree)},
    r.Shares m (some shared) (some shared') →
    r.digest m (r.rearOption shared t).toList = r.digest m (r.rearOption shared' t).toList
  | none, _, _, _ => rfl
  | some t, _, _, h => digest_rear_congr t h

end

theorem digest_placed_renamed {p q : Predicate} {f : Nat → Nat} (h : p.Renames q f)
    {place : Option Nat} {a b : Tree} (ht : t.declared? = place.map (·, a))
    (hu : u.declared? = place.map (f ·, b)) (member : r.digest m [.node t] = r.digest m [.node u])
    (filler : r.digest m [.node a] = r.digest m [.node b]) :
    r.digest m [p.placed t] = r.digest m [q.placed u] := by
  rw [Predicate.placed, Predicate.placed, ht, hu]
  cases place with
  | none => exact member
  | some d =>
    simp only [Option.map_some, h.place, h.surround]
    split
    · exact member
    · simp only [Predicate.surround]
      split
      · exact digest_ofParts_congr (digest_among filler _ _)
      · exact digest_ofParts_congr (digest_among filler [_] [])
      · exact member

theorem digest_placed_congr (p : Predicate) {place : Option Nat} {a b : Tree}
    (ht : t.declared? = place.map (·, a)) (hu : u.declared? = place.map (·, b))
    (member : r.digest m [.node t] = r.digest m [.node u])
    (filler : r.digest m [.node a] = r.digest m [.node b]) :
    r.digest m [p.placed t] = r.digest m [p.placed u] :=
  digest_placed_renamed (.refl p) ht hu member filler

theorem keeps_plug (f : Frame) (t : Tree) : r.keeps m (.node (f.plug t)) := by
  have visible : (f.plug t).isVisible m r.exempt = true := Frame.isVisible_plug f t
  have wordless : (f.plug t).text? = none := by cases f <;> rfl
  rw [keeps, visible, wordless]
  rfl

theorem digest_plug {f : Frame} (same : r.gloss m (f.plug t) = r.gloss m (f.plug u)) :
    r.digest m [.node (f.plug t)] = r.digest m [.node (f.plug u)] := by
  rw [digest_node (keeps_plug f t), digest_node (keeps_plug f u), same]

/-- Two nodes that do the same in a gloss, wherever they are no link and no predicate. -/
structure Interchangeable (r : Renderer) (m : Mode) (t u : Tree) : Prop where
  member : r.digest m [.node t] = r.digest m [.node u]
  spliced : r.digest m (t.splice.map .node) = r.digest m (u.splice.map .node)
  term : ∀ p : Predicate, r.digest m [p.resolve t] = r.digest m [p.resolve u]
  rear : ∀ {upper upper'}, r.Shares m upper upper' →
    r.digest m [r.rear upper t] = r.digest m [r.rear upper' u]
  selbri : t.selbri? = u.selbri?

namespace Interchangeable

variable (h : r.Interchangeable m t u)

include h

theorem members (front back : List Tree) :
    r.digest m ((front ++ t :: back).map .node) = r.digest m ((front ++ u :: back).map .node) := by
  rw [List.map_append, List.map_append]
  exact digest_among h.member (front.map .node) (back.map .node)

theorem terms (front back : List Tree) (p : Predicate) :
    r.digest m [p.terms (front ++ t :: back)] = r.digest m [p.terms (front ++ u :: back)] := by
  apply digest_ofParts_congr
  rw [p.resolveAll_eq_map, p.resolveAll_eq_map, List.map_append, List.map_append]
  exact digest_among (h.term p) (front.map p.resolve) (back.map p.resolve)

theorem children {f : Frame} (inner : f.isLink = false) :
    r.digest m ((f.plug t).children.map .node) = r.digest m ((f.plug u).children.map .node) := by
  obtain ⟨front, back, children⟩ := Frame.children_plug inner
  rw [children, children]
  simp only [List.map_append, digest_append]
  cases f.isTail with
  | false => exact congrArg (_ ++ · ++ _) h.member
  | true => exact congrArg (_ ++ · ++ _) h.spliced

theorem shown_ofShape {f : Frame} (link : f.isLink → r.gloss m t = r.gloss m u) :
    r.shown m (.ofShape (f.plug t).shape) = r.shown m (.ofShape (f.plug u).shape) := by
  cases linked : f.isLink with
  | true =>
    obtain ⟨conversion, follows⟩ := Frame.shape_plug_link linked
    rw [follows, follows, Phrase.ofShape, Phrase.ofShape, shown_node, shown_node, link linked]
  | false =>
    rcases Frame.shape_plug_cases linked with ⟨s, fixed⟩ | group
    · rw [fixed, fixed]
    · rw [group, group, Phrase.ofShape, Phrase.ofShape, shown_seq_eq, shown_seq_eq,
        h.children linked]

theorem shown_relation_head (b : Bridi Tree) (front back : List Tree) :
    r.shown m (r.relation { b with head := front ++ t :: back }) =
      r.shown m (r.relation { b with head := front ++ u :: back }) := by
  rw [Lexicon.relation, Lexicon.relation, shown_ofParts, shown_ofParts]
  exact congrArg digested (digest_among (h.terms front back _) [] _)

theorem shown_relation_tail (b : Bridi Tree) :
    r.shown m (r.relation { b with tail := some t }) =
      r.shown m (r.relation { b with tail := some u }) := by
  have predicate : (some t).bind (·.selbri?) = (some u).bind (·.selbri?) := h.selbri
  rw [Lexicon.relation, Lexicon.relation, shown_ofParts, shown_ofParts, predicate]
  exact congrArg digested (digest_among (h.rear (.refl none)) [_] [])

theorem shown_rephrase {f : Frame} (contents : f.isPrecedence → r.gloss m t = r.gloss m u) :
    (r.rephrase (f.plug t)).map (r.shown m) = (r.rephrase (f.plug u)).map (r.shown m) := by
  cases f with
  | head b front back =>
    obtain ⟨role, head, rear, contents', link, extra⟩ := b
    cases role with
    | bridi => exact congrArg some (h.shown_relation_head _ front back)
    | precedence => rfl
    | other name => rfl
  | tail b =>
    obtain ⟨role, head, rear, contents', link, extra⟩ := b
    cases role with
    | bridi => exact congrArg some (h.shown_relation_tail _)
    | precedence => rfl
    | other name => rfl
  | contents b =>
    obtain ⟨role, head, rear, contents', link, extra⟩ := b
    cases role with
    | bridi => rfl
    | precedence =>
      have same : r.shown m (.node t) = r.shown m (.node u) := by
        rw [shown_node, shown_node]
        exact contents rfl
      exact congrArg some same
    | other name => rfl
  | bridiLink b =>
    obtain ⟨role, head, rear, contents', link, extra⟩ := b
    cases role <;> rfl
  | _ => rfl

theorem gloss_plug {f : Frame} (link : f.isLink → r.gloss m t = r.gloss m u)
    (contents : f.isPrecedence → r.gloss m t = r.gloss m u) :
    r.gloss m (f.plug t) = r.gloss m (f.plug u) := by
  rw [gloss_eq_getD, gloss_eq_getD, h.shown_rephrase contents, h.shown_ofShape link]

theorem digest_resolve_plug {f : Frame} (same : r.gloss m (f.plug t) = r.gloss m (f.plug u))
    (p : Predicate) :
    r.digest m [p.resolve (f.plug t)] = r.digest m [p.resolve (f.plug u)] := by
  have member := digest_plug same
  cases f with
  | member front back =>
    simp only [Frame.plug, Predicate.resolve]
    exact h.terms front back p
  | left c =>
    simp only [Frame.plug, Predicate.resolve]
    exact digest_joined_congr (h.term p) rfl rfl rfl
  | right c =>
    simp only [Frame.plug, Predicate.resolve]
    exact digest_joined_congr rfl rfl rfl (h.term p)
  | joiner c =>
    simp only [Frame.plug, Predicate.resolve]
    exact digest_joined_congr rfl h.member rfl rfl
  | scope c front back =>
    simp only [Frame.plug, Predicate.resolve]
    exact digest_joined_congr rfl rfl (h.members front back) rfl
  -- A conjunction of terms is resolved without them.
  | shared c front back => simp only [Frame.plug, Predicate.resolve]
  | conjunctionLink c => simp only [Frame.plug, Predicate.resolve]
  | sumti v =>
    simp only [Frame.plug, Predicate.resolve] at member ⊢
    exact digest_placed_congr p rfl rfl member h.member
  | termLink v =>
    simp only [Frame.plug, Predicate.resolve] at member ⊢
    exact digest_placed_congr p rfl rfl member rfl
  | _ =>
    simp only [Frame.plug, Predicate.resolve] at member ⊢
    exact member

theorem digest_rear_plug {f : Frame} (outside : f.isSelbri = false)
    (same : r.gloss m (f.plug t) = r.gloss m (f.plug u)) (hs : r.Shares m upper upper') :
    r.digest m [r.rear upper (f.plug t)] = r.digest m [r.rear upper' (f.plug u)] := by
  have member := digest_plug same
  cases f with
  | left c =>
    exact digest_conjunction_congr hs rfl (fun _ => rfl) h.rear rfl rfl (digest_rear_congr c.right)
  | right c =>
    exact digest_conjunction_congr hs rfl (fun _ => rfl) (digest_rearOption_congr c.left) rfl rfl
      h.rear
  | joiner c =>
    exact digest_conjunction_congr hs rfl (fun _ => rfl) (digest_rearOption_congr c.left) h.member
      rfl (digest_rear_congr c.right)
  | scope c front back =>
    exact digest_conjunction_congr hs rfl (fun _ => rfl) (digest_rearOption_congr c.left) rfl
      (h.members front back) (digest_rear_congr c.right)
  | shared c front back =>
    have present : (front ++ t :: back).isEmpty = (front ++ u :: back).isEmpty := by
      cases front <;> rfl
    exact digest_conjunction_congr hs present (h.terms front back) (digest_rearOption_congr c.left)
      rfl rfl (digest_rear_congr c.right)
  | conjunctionLink c =>
    exact digest_conjunction_congr hs rfl (fun _ => rfl) (digest_rearOption_congr c.left) rfl rfl
      (digest_rear_congr c.right)
  -- There the head word would decide what is said around the terms.
  | selbri v => cases outside
  | preterm v front back =>
    rw [Frame.plug, Frame.plug, Lexicon.rear, Lexicon.rear]
    exact digest_tail_congr hs _ (h.terms front back _) rfl rfl
  | tailTerm v front back =>
    rw [Frame.plug, Frame.plug, Lexicon.rear, Lexicon.rear]
    exact digest_tail_congr hs _ rfl (h.terms front back _) rfl
  | tailLink v =>
    rw [Frame.plug, Frame.plug, Lexicon.rear, Lexicon.rear]
    exact digest_tail_congr hs _ rfl rfl rfl
  | _ =>
    simp only [Frame.plug, Lexicon.rear] at member ⊢
    exact member

theorem plug {f : Frame} (outside : f.isSelbri = false)
    (same : r.gloss m (f.plug t) = r.gloss m (f.plug u)) :
    r.Interchangeable m (f.plug t) (f.plug u) where
  member := digest_plug same
  spliced := by
    rcases Frame.splice_plug_cases f with single | ⟨inner, children⟩
    · rw [single, single]
      exact digest_plug same
    · rw [children, children, h.children inner]
  term := h.digest_resolve_plug same
  rear := h.digest_rear_plug outside same
  selbri := by
    cases f with
    | selbri v => cases outside
    | _ => rfl

end Interchangeable

end Renderer

/-- Frames around nodes that are glossed alike and do the same make no difference, unless one holds
its predicate there. -/
theorem Context.gloss_plug {r : Renderer} {m : Mode} {t u : Tree} (outer : Context)
    (h : r.Interchangeable m t u) (outside : ∀ f ∈ outer, f.isSelbri = false)
    (same : r.gloss m t = r.gloss m u) :
    r.gloss m (outer.plug t) = r.gloss m (outer.plug u) := by
  induction outer generalizing t u with
  | nil => exact same
  | cons f outer ih =>
    have around : r.gloss m (f.plug t) = r.gloss m (f.plug u) :=
      h.gloss_plug (fun _ => same) fun _ => same
    have here : f.isSelbri = false := outside f List.mem_cons_self
    exact ih (h.plug here around) (fun g hg => outside g (List.mem_cons_of_mem f hg)) around

end Lojban
