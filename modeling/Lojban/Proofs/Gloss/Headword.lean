import Lojban.Proofs.Gloss.Outline
import Lojban.Proofs.Gloss.Term

namespace Lojban

namespace Tree

structure SameHead (s s' : Tree) : Prop where
  present : s.headWord?.isSome
  word : s.headWord? = s'.headWord?
  conversion : s.conversion? = s'.conversion?

/-- Tails, alone or joined, that differ in predicates of the same head, and in links. -/
inductive SameHeads : Tree → Tree → Prop where
  | tail {t : Tail Tree} {selbri : Tree} (link : Option Tree) (h : t.selbri.SameHead selbri) :
    SameHeads (tail t) (tail { t with selbri := selbri, link := link })
  | both {c : Conjunction Tree} {left left' right : Tree} (link : Option Tree)
    (side : c.left = some left) (hl : SameHeads left left') (hr : SameHeads c.right right) :
    SameHeads (conjunction c) (conjunction { c with left := some left', right, link })
  | right {c : Conjunction Tree} {right : Tree} (link : Option Tree) (side : c.left = none)
    (hr : SameHeads c.right right) :
    SameHeads (conjunction c) (conjunction { c with right, link })

/-- A compound: each wrapper has the next one as its head, and the last has `last`. -/
def compound (ws : List (Wrapper Tree)) (last : Tree) : Tree :=
  ws.foldr (fun w head => wrapper { w with tertau := some head }) last

theorem headWord?_compound (ws : List (Wrapper Tree)) (last : Tree) :
    (compound ws last).headWord? = last.headWord? := by
  induction ws with
  | nil => rfl
  | cons w ws ih => exact ih

end Tree

namespace Predicate

variable {p : Predicate}

theorem terms_withNode (node : Option Tree) : ({ p with node := node }).terms = p.terms :=
  terms_congr fun _ => rfl

theorem first_withNode {x : Lexicon} (present : p.word.isSome) (node : Option Tree) :
    ({ p with node := node }).first x = p.first x := by
  obtain ⟨w, word⟩ := Option.isSome_iff_exists.mp present
  simp only [first, word]
  cases p.record with
  | none => rfl
  | some r => rfl

end Predicate

namespace Lexicon

variable {x : Lexicon}

theorem predicate_sameHead {s s' : Tree} (h : s.SameHead s') :
    x.predicate (some s') = { x.predicate (some s) with node := some s' } := by
  simp only [predicate, Option.bind_some, h.word, h.conversion]

theorem tail_withNode {p : Predicate} (present : p.word.isSome) (node : Option Tree)
    (upper : Option (List (List Tree))) (t : Tail Tree) (selbri : Tree) (link : Option Tree) :
    x.tail upper { p with node := node } { t with selbri := selbri, link := link } =
      x.tail upper p t := by
  simp only [tail, Predicate.terms_withNode, Predicate.first_withNode present]

theorem rear_sameHeads {t t' : Tree} (h : t.SameHeads t') (upper : Option (List (List Tree))) :
    x.rear upper t = x.rear upper t' := by
  induction h generalizing upper with
  | tail link same =>
    rw [rear, rear, predicate_sameHead same]
    exact (tail_withNode same.present _ upper _ _ _).symm
  | both link side _ _ left right =>
    rw [rear_joined, rear_joined, side, Option.map_some, Option.map_some, left, right]
    rfl
  | right link side _ right =>
    rw [rear_joined, rear_joined, side, right]
    rfl

theorem terms_sameHeads {t t' : Tree} (h : t.SameHeads t') :
    (x.predicate t.selbri?).terms = (x.predicate t'.selbri?).terms := by
  cases h with
  | tail link same =>
    rw [Tree.selbri?, Tree.selbri?, predicate_sameHead same]
    exact (Predicate.terms_withNode _).symm
  | both => rfl
  | right => rfl

theorem relation_sameHeads {t t' : Tree} (h : t.SameHeads t') (b : Bridi Tree)
    (link : Option Tree) :
    x.relation { b with tail := some t } = x.relation { b with tail := some t', link := link } := by
  simp only [relation, Option.bind_some, Option.toList_some, List.map_cons, List.map_nil,
    terms_sameHeads h, rear_sameHeads h]

end Lexicon

/-- Relations whose predicates have the same heads are glossed alike, wherever their links lead. The
head word of a compound is that of its last node, and its conversion table that of its first. -/
theorem Renderer.gloss_same_heads (r : Renderer) (m : Mode) (b : Bridi Tree)
    (role : b.role = .bridi) {t t' : Tree} (h : t.SameHeads t') (link : Option Tree) :
    r.gloss m (.bridi { b with tail := some t }) =
        r.gloss m (.bridi { b with tail := some t', link := link }) ∧
      ∀ (w : Wrapper Tree) (ws : List (Wrapper Tree)) (last : Tree),
        (Tree.compound (w :: ws) last).headWord? = last.headWord? ∧
          (Tree.compound (w :: ws) last).conversion? = w.conversion := by
  constructor
  · refine (gloss_relation ?_).trans (Eq.trans ?_ (gloss_relation ?_).symm)
    · exact role
    · rw [Lexicon.relation_sameHeads h b link]
    · exact role
  · intro w ws last
    exact ⟨Tree.headWord?_compound (w :: ws) last, rfl⟩

def Tree.errands : Tree :=
  .compound [⟨some (.word "se"), some [2, 1], none, []⟩, ⟨some (.text "sutra"), none, none, []⟩]
    (.wrapper ⟨some (.composite [.other .null, .word "klama"]), some [3], none, []⟩)

def Tree.errandsHead : Tree := .wrapper ⟨some (.word "klama"), some [2, 1], none, []⟩

def Tree.twofold (selbri : Tree) (link : Option Tree) : Tree :=
  .conjunction ⟨some (.tail ⟨selbri, [.word "ti"], [], none, link, []⟩),
    .conjunction ⟨none,
      .tail ⟨selbri, [], [.term ⟨some 2, .word "do", none, []⟩], some [2], none, []⟩,
      some (.word "gi'e"), [], [], link, []⟩,
    some (.word "gi'a"), [.word "bo"], [.term ⟨some 1, .word "mi", none, []⟩], none, []⟩

def Bridi.errands : Bridi Tree := ⟨.bridi, [.word "mi"], none, none, none, []⟩

theorem Tree.sameHead_errands : errands.SameHead errandsHead := ⟨rfl, rfl, rfl⟩

theorem Renderer.gloss_same_heads_twofold :
    Bridi.errands.role = .bridi ∧
      (Tree.twofold .errands none).SameHeads (.twofold .errandsHead (some (.text "ku"))) ∧
      blank.gloss .blank (.bridi { Bridi.errands with tail := some (.twofold .errands none) }) =
        blank.gloss .blank (.bridi { Bridi.errands with
          tail := some (.twofold .errandsHead (some (.text "ku")))
          link := some (.text "vau") }) := by
  have heads : (Tree.twofold .errands none).SameHeads
      (.twofold .errandsHead (some (.text "ku"))) := by
    refine .both _ rfl (.tail _ Tree.sameHead_errands) (.right _ rfl ?_)
    exact .tail _ Tree.sameHead_errands
  exact ⟨rfl, heads, (blank.gloss_same_heads .blank .errands rfl heads (some (.text "vau"))).1⟩

end Lojban
