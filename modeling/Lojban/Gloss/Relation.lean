import Lojban.Gloss.Predicate
import Lojban.Tree.Shape

/-!
Phrases of trees. A relation is put in order around its predicate, and the terms that conjoined
tails share go to each of them. Any other node is said as it is shown.

The nodes of a phrase lie below the node it is for, so glossing them in turn comes to an end.
-/

namespace Lojban

namespace Lexicon

/-- A tail: what precedes it, its first place if that must be said, its terms, and then the terms
shared with other tails. -/
def tail (x : Lexicon) (upper : Option (List (List Tree))) (p : Predicate) (t : Tail Tree) :
    Phrase :=
  let skipsFirst := t.tagged.any (!·.contains 1)
  .ofParts (p.terms t.preterms ::
    (if upper.isSome || skipsFirst then (p.first x).toList else []) ++
    p.terms t.tailTerms :: (upper.getD []).map p.terms)

mutual

/-- A tail of a relation. Below a conjunction, `upper` holds the shared terms, innermost first. -/
def rear (x : Lexicon) (upper : Option (List (List Tree))) : Tree → Phrase
  | .conjunction ⟨left, right, joiner, scope, tailTerms, _, _⟩ =>
    let shared := (if tailTerms.isEmpty then [] else [tailTerms]) ++ upper.getD []
    .joined (x.rearOption shared left) joiner scope (x.rear (some shared) right)
  | .tail t => x.tail upper (x.predicate (some t.selbri)) t
  | t => .node t

def rearOption (x : Lexicon) (shared : List (List Tree)) : Option Tree → Option Phrase
  | none => none
  | some t => some (x.rear (some shared) t)

end

def relation (x : Lexicon) (b : Bridi Tree) : Phrase :=
  let p := x.predicate (b.tail.bind (·.selbri?))
  .ofParts (p.terms b.head :: b.tail.toList.map (x.rear none))

def rephrase (x : Lexicon) : Tree → Option Phrase
  | .bridi b =>
    match b.role with
    | .bridi => some (x.relation b)
    | .precedence => b.contents.map .node
    | .other _ => none
  | _ => none

end Lexicon

def Phrase.ofShape : Shape → Phrase
  | .token s => .word s
  | .leaf l => .word l.word
  | .link _ inner => .node inner
  | .group cs => .seq (cs.map .node)
  | .unknown => .unknown

def Lexicon.phrase (x : Lexicon) (t : Tree) : Phrase := (x.rephrase t).getD (.ofShape t.shape)

def Tree.Downward (P : Tree → Prop) : Prop := ∀ t, P t → ∀ c ∈ t.parts, P c

structure Predicate.Every (p : Predicate) (P : Phrase → Prop) : Prop where
  node : ∀ t ∈ p.node, P (.node t)
  word : ∀ w ∈ p.word, P (.word w)
  numbered : ∀ w ∈ p.word, ∀ place : Nat, P (.word (w ++ toString place))
  text : ∀ r ∈ p.record, ∀ s ∈ r.texts, P (.text s)

/-- `P` passes from a node to its parts and to the words that a predicate takes from it, and holds of
all English that a lexicon adds. So it passes from the parts of a node to its phrase. -/
structure Lexicon.Admits (x : Lexicon) (P : Phrase → Prop) : Prop where
  down : Tree.Downward fun t => P (.node t)
  word : ∀ t, P (.node t) → ∀ w ∈ t.headWord?, P (.word w)
  numbered : ∀ t, P (.node t) → ∀ w ∈ t.headWord?, ∀ place : Nat, P (.word (w ++ toString place))
  text : ∀ w, ∀ r ∈ x.places.get? w, ∀ s ∈ r.texts, P (.text s)
  keyword : ∀ w, ∀ s ∈ x.dictionary.keyword w 1, P (.text s)

variable {P : Phrase → Prop}

theorem Phrase.every_joined {left : Option Phrase} {joiner : Option Tree} {scope : List Tree}
    {right : Phrase} (hl : ∀ q ∈ left, q.Every P) (hj : ∀ c ∈ joiner, P (.node c))
    (hs : ∀ c ∈ scope, P (.node c)) (hr : right.Every P) :
    (joined left joiner scope right).Every P := by
  apply every_ofParts
  intro q hq
  simp only [List.mem_append, List.mem_map, Option.mem_toList, List.mem_singleton] at hq
  rcases hq with ((hq | ⟨c, hc, rfl⟩) | ⟨c, hc, rfl⟩) | rfl
  · exact hl q hq
  · exact every_node.mpr (hj c hc)
  · exact every_node.mpr (hs c hc)
  · exact hr

namespace Predicate

open Phrase

variable {p : Predicate}

theorem every_surround (h : p.Every P) {place : Nat} {sumti : Tree} (hs : P (.node sumti)) :
    ∀ q ∈ p.surround place sumti, q.Every P := by
  intro q hq
  simp only [surround, Option.mem_def] at hq
  split at hq
  · rename_i r hr
    obtain rfl := Option.some.inj hq
    apply every_ofParts
    intro q hq
    simp only [List.mem_append, List.mem_map, List.mem_cons, Option.mem_toList] at hq
    rcases hq with ⟨s, hbefore, rfl⟩ | rfl | ⟨s, hafter, rfl⟩
    · exact every_text.mpr (h.text r hr s (PlaceRecord.mem_texts_of_before hbefore))
    · exact every_node.mpr hs
    · exact every_text.mpr (h.text r hr s (PlaceRecord.mem_texts_of_after hafter))
  · rename_i w _ hw
    obtain rfl := Option.some.inj hq
    apply every_ofParts
    intro q hq
    simp only [List.mem_cons, List.not_mem_nil, or_false] at hq
    rcases hq with rfl | rfl
    · exact every_word.mpr (h.numbered w hw place)
    · exact every_node.mpr hs
  · cases hq

theorem node_declared (down : Tree.Downward fun t => P (.node t)) {t : Tree} (ht : P (.node t))
    {declared : Nat} {sumti : Tree} (h : t.declared? = some (declared, sumti)) :
    P (.node sumti) := by
  cases t with
  | term u =>
    simp only [Tree.declared?, Option.map_eq_some_iff, Prod.mk.injEq] at h
    obtain ⟨_, _, _, rfl⟩ := h
    exact down _ ht _ (by simp [Tree.parts])
  | leaf l =>
    simp only [Tree.declared?, Option.map_eq_some_iff, Prod.mk.injEq] at h
    obtain ⟨_, _, _, rfl⟩ := h
    exact ht
  | _ => cases h

theorem every_placed (h : p.Every P) (down : Tree.Downward fun t => P (.node t)) {t : Tree}
    (ht : P (.node t)) : (p.placed t).Every P := by
  rw [placed]
  split
  · rename_i declared sumti hd
    split
    · exact every_node.mpr ht
    · cases hq : p.surround (p.place declared) sumti with
      | none => exact every_node.mpr ht
      | some q => exact every_surround h (node_declared down ht hd) q hq
  · exact every_node.mpr ht

mutual

theorem every_resolve (h : p.Every P) (down : Tree.Downward fun t => P (.node t)) :
    ∀ t : Tree, P (.node t) → (p.resolve t).Every P
  | .conjunction ⟨left, right, joiner, scope, tailTerms, link, extra⟩, ht => by
    have holds {c : Tree} (hc) : P (.node c) := down _ ht c hc
    rw [resolve]
    refine every_joined (every_resolveOption h down left ?_) ?_ ?_ (every_resolve h down right ?_)
    · exact fun c hc => holds (by simp_all [Tree.parts])
    · exact fun c hc => holds (by simp_all [Tree.parts])
    · exact fun c hc => holds (by simp_all [Tree.parts])
    · exact holds (by simp [Tree.parts])
  | .composite ts, ht => by
    rw [resolve]
    exact every_ofParts (every_resolveAll h down ts fun c hc => down _ ht c hc)
  | .text s, ht => by simpa only [resolve] using every_placed h down ht
  | .leaf l, ht => by simpa only [resolve] using every_placed h down ht
  | .bridi b, ht => by simpa only [resolve] using every_placed h down ht
  | .tail t, ht => by simpa only [resolve] using every_placed h down ht
  | .term t, ht => by simpa only [resolve] using every_placed h down ht
  | .wrapper w, ht => by simpa only [resolve] using every_placed h down ht
  | .other v, ht => by simpa only [resolve] using every_placed h down ht

theorem every_resolveAll (h : p.Every P) (down : Tree.Downward fun t => P (.node t)) :
    ∀ ts : List Tree, (∀ t ∈ ts, P (.node t)) → ∀ q ∈ p.resolveAll ts, q.Every P
  | [], _ => by simp [resolveAll]
  | t :: ts, hts => by
    intro q hq
    simp only [resolveAll, List.mem_cons] at hq
    rcases hq with rfl | hq
    · exact every_resolve h down t (hts t List.mem_cons_self)
    · exact every_resolveAll h down ts (fun u hu => hts u (List.mem_cons_of_mem t hu)) q hq

theorem every_resolveOption (h : p.Every P) (down : Tree.Downward fun t => P (.node t)) :
    ∀ t : Option Tree, (∀ u ∈ t, P (.node u)) → ∀ q ∈ p.resolveOption t, q.Every P
  | none, _ => by simp [resolveOption]
  | some t, ht => by
    intro q hq
    simp only [resolveOption, Option.mem_some_iff] at hq
    exact hq ▸ every_resolve h down t (ht t rfl)

end

theorem every_terms (h : p.Every P) (down : Tree.Downward fun t => P (.node t)) {ts : List Tree}
    (hts : ∀ t ∈ ts, P (.node t)) : (p.terms ts).Every P :=
  every_ofParts (every_resolveAll h down ts hts)

theorem every_first (h : p.Every P) {x : Lexicon}
    (keyword : ∀ w, ∀ s ∈ x.dictionary.keyword w 1, P (.text s)) : ∀ q ∈ p.first x, q.Every P := by
  intro q hq
  simp only [first, Option.mem_def] at hq
  split at hq
  · rename_i r hr
    obtain ⟨s, hs, rfl⟩ := Option.map_eq_some_iff.mp hq
    exact every_text.mpr (h.text r hr s (PlaceRecord.mem_texts_of_after hs))
  · rename_i w _ hw
    obtain rfl := Option.some.inj hq
    cases hk : x.dictionary.keyword w 1 with
    | none => exact every_word.mpr (h.word w hw)
    | some s => exact every_text.mpr (keyword w s hk)
  · obtain ⟨t, ht, rfl⟩ := Option.map_eq_some_iff.mp hq
    exact every_node.mpr (h.node t ht)

end Predicate

namespace Lexicon

open Phrase

variable {x : Lexicon}

theorem Admits.predicate (h : x.Admits P) {selbri : Option Tree}
    (hs : ∀ t ∈ selbri, P (.node t)) : (x.predicate selbri).Every P where
  node := hs
  word w hw := by
    obtain ⟨t, ht, hw⟩ := Option.bind_eq_some_iff.mp hw
    exact h.word t (hs t ht) w hw
  numbered w hw := by
    obtain ⟨t, ht, hw⟩ := Option.bind_eq_some_iff.mp hw
    exact h.numbered t (hs t ht) w hw
  text r hr := by
    obtain ⟨w, _, hr⟩ := Option.bind_eq_some_iff.mp hr
    exact h.text w r hr

theorem every_tail (h : x.Admits P) {upper : Option (List (List Tree))} {p : Predicate}
    {t : Tail Tree} (hp : p.Every P) (hu : ∀ ts ∈ upper.getD [], ∀ u ∈ ts, P (.node u))
    (ht : ∀ u ∈ (Tree.tail t).parts, P (.node u)) : (x.tail upper p t).Every P := by
  apply every_ofParts
  intro q hq
  simp only [List.mem_append, List.mem_cons, List.mem_map] at hq
  rcases hq with (rfl | hq) | rfl | ⟨ts, hts, rfl⟩
  · exact Predicate.every_terms hp h.down fun u hu => ht u (by simp [Tree.parts, hu])
  · split at hq
    · exact Predicate.every_first hp h.keyword q (by simpa using hq)
    · cases hq
  · exact Predicate.every_terms hp h.down fun u hu => ht u (by simp [Tree.parts, hu])
  · exact Predicate.every_terms hp h.down (hu ts hts)

mutual

theorem every_rear (h : x.Admits P) (upper : Option (List (List Tree)))
    (hu : ∀ ts ∈ upper.getD [], ∀ u ∈ ts, P (.node u)) :
    ∀ t : Tree, P (.node t) → (x.rear upper t).Every P
  | .conjunction ⟨left, right, joiner, scope, tailTerms, link, extra⟩, ht => by
    have holds {c : Tree} (hc) : P (.node c) := h.down _ ht c hc
    rw [rear]
    have shared : ∀ ts ∈ (if tailTerms.isEmpty then [] else [tailTerms]) ++ upper.getD [],
        ∀ u ∈ ts, P (.node u) := by
      intro ts hts u hu'
      rcases List.mem_append.mp hts with hts | hts
      · split at hts
        · cases hts
        · rw [List.mem_singleton.mp hts] at hu'
          exact holds (by simp [Tree.parts, hu'])
      · exact hu ts hts u hu'
    refine every_joined (every_rearOption h _ shared left ?_) ?_ ?_
      (every_rear h (some _) shared right ?_)
    · exact fun c hc => holds (by simp_all [Tree.parts])
    · exact fun c hc => holds (by simp_all [Tree.parts])
    · exact fun c hc => holds (by simp_all [Tree.parts])
    · exact holds (by simp [Tree.parts])
  | .tail t, ht => by
    rw [rear]
    have selbri : P (.node t.selbri) := h.down _ ht _ (by simp [Tree.parts])
    exact every_tail h (h.predicate (by simpa using selbri)) hu (h.down _ ht)
  | .composite ts, ht => by simpa only [rear] using every_node.mpr ht
  | .text s, ht => by simpa only [rear] using every_node.mpr ht
  | .leaf l, ht => by simpa only [rear] using every_node.mpr ht
  | .bridi b, ht => by simpa only [rear] using every_node.mpr ht
  | .term t, ht => by simpa only [rear] using every_node.mpr ht
  | .wrapper w, ht => by simpa only [rear] using every_node.mpr ht
  | .other v, ht => by simpa only [rear] using every_node.mpr ht

theorem every_rearOption (h : x.Admits P) (shared : List (List Tree))
    (hu : ∀ ts ∈ shared, ∀ u ∈ ts, P (.node u)) :
    ∀ t : Option Tree, (∀ u ∈ t, P (.node u)) → ∀ q ∈ x.rearOption shared t, q.Every P
  | none, _ => by simp [rearOption]
  | some t, ht => by
    intro q hq
    simp only [rearOption, Option.mem_some_iff] at hq
    exact hq ▸ every_rear h (some shared) hu t (ht t rfl)

end

theorem every_relation (h : x.Admits P) {b : Bridi Tree}
    (parts : ∀ c ∈ (Tree.bridi b).parts, P (.node c)) : (x.relation b).Every P := by
  have rear : ∀ t ∈ b.tail, P (.node t) := fun t ht => parts t (by simp_all [Tree.parts])
  have selbri : ∀ t ∈ b.tail.bind (·.selbri?), P (.node t) := by
    intro t ht
    obtain ⟨u, hu, ht⟩ := Option.bind_eq_some_iff.mp ht
    cases u with
    | tail v =>
      cases ht
      exact h.down _ (rear _ hu) _ (by simp [Tree.parts])
    | _ => cases ht
  apply every_ofParts
  intro q hq
  simp only [List.mem_cons, List.mem_map, Option.mem_toList] at hq
  rcases hq with rfl | ⟨t, ht, rfl⟩
  · have head : ∀ c ∈ b.head, P (.node c) := fun c hc => parts c (by simp [Tree.parts, hc])
    exact Predicate.every_terms (h.predicate selbri) h.down head
  · exact every_rear h none (by simp) t (rear t ht)

theorem every_rephrase (h : x.Admits P) {t : Tree} (parts : ∀ c ∈ t.parts, P (.node c)) :
    ∀ q ∈ x.rephrase t, q.Every P := by
  intro q hq
  cases t with
  | bridi b =>
    simp only [rephrase, Option.mem_def] at hq
    split at hq
    · obtain rfl := Option.some.inj hq
      exact every_relation h parts
    · obtain ⟨u, hu, rfl⟩ := Option.map_eq_some_iff.mp hq
      exact every_node.mpr (parts u (by simp [Tree.parts, hu]))
    · cases hq
  | _ => cases hq

theorem every_phrase (h : x.Admits P) {t : Tree} (parts : ∀ c ∈ t.parts, P (.node c))
    (word : ∀ w ∈ t.text?, P (.word w)) (unknown : P .unknown) : (x.phrase t).Every P := by
  rw [phrase]
  cases hr : x.rephrase t with
  | some q => exact every_rephrase h parts q hr
  | none =>
    rw [Option.getD_none]
    cases hs : t.shape with
    | token s =>
      rw [Tree.eq_text_of_shape hs] at word
      exact every_word.mpr (word s rfl)
    | leaf l =>
      rw [Tree.eq_leaf_of_shape hs] at word
      exact every_word.mpr (word l.word rfl)
    | link conversion inner => exact every_node.mpr (parts inner (Tree.shape_link hs))
    | group cs =>
      refine every_seq.mpr fun q hq => ?_
      obtain ⟨c, hc, rfl⟩ := List.mem_map.mp hq
      rw [Tree.shape_group hs] at hc
      apply every_node.mpr
      rcases Tree.mem_parts_of_mem_children hc with hc | ⟨u, hu, hc⟩
      · exact parts c hc
      · exact h.down u (parts u hu) c hc
    | unknown => exact every_unknown.mpr unknown

end Lexicon

theorem Lexicon.sizeOf_lt_of_mem_phrase {x : Lexicon} {t c : Tree} (h : c ∈ (x.phrase t).nodes) :
    sizeOf c < sizeOf t := by
  let Smaller (q : Phrase) : Prop := ∀ c, q = .node c → sizeOf c < sizeOf t
  have down : Tree.Downward fun u => Smaller (.node u) := by
    intro u hu c hc d hd
    obtain rfl := Phrase.node.inj hd
    exact Nat.lt_trans (Tree.sizeOf_lt_of_mem_parts hc) (hu u rfl)
  have admits : x.Admits Smaller := ⟨down, nofun, nofun, nofun, nofun⟩
  have parts : ∀ d ∈ t.parts, Smaller (.node d) := by
    intro d hd e he
    obtain rfl := Phrase.node.inj he
    exact Tree.sizeOf_lt_of_mem_parts hd
  exact (every_phrase admits parts nofun nofun).nodes c h c rfl

end Lojban
