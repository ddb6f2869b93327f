import Lojban.Proofs.Gloss.Outline
import Lojban.Proofs.Tree.Context

namespace Lojban

namespace Tree

def height (t : Tree) : Nat :=
  (t.parts.attach.map fun c =>
    have := sizeOf_lt_of_mem_parts c.2
    c.1.height).max?.getD 0 + 1
termination_by sizeOf t

theorem height_lt_of_mem_parts {t c : Tree} (h : c ∈ t.parts) : c.height < t.height := by
  have listed : c.height ∈ t.parts.attach.map fun c => c.1.height :=
    List.mem_map.mpr ⟨⟨c, h⟩, List.mem_attach _ _, rfl⟩
  rw [height.eq_1 t]
  exact Nat.lt_succ_of_le (List.le_max?_getD_of_mem listed)

namespace Below

variable {root t : Tree}

theorem height_lt (h : root.Below t) : t.height < root.height := by
  induction h with
  | part child => exact height_lt_of_mem_parts child
  | within _ child ih => exact Nat.lt_trans (height_lt_of_mem_parts child) ih

theorem of_child (h : t ∈ root.children) : root.Below t := by
  rcases mem_parts_of_mem_children h with part | ⟨u, hu, part⟩
  · exact .part part
  · exact .within (.part hu) part

theorem of_link (h : root.link? = some t) : root.Below t := by
  apply Below.part
  cases root with
  | bridi | conjunction | tail | term | wrapper => simp_all [link?, parts]
  | _ => cases h

end Below

end Tree

namespace Lexicon

variable {x : Lexicon} {t c : Tree}

theorem below_of_mem_rephrase {q : Phrase} (h : q ∈ x.rephrase t) (hc : c ∈ q.nodes) :
    t.Below c := by
  let Inside (p : Phrase) : Prop := ∀ d, p = .node d → t.Below d
  have node {d : Tree} (hd : t.Below d) : Inside (.node d) := by
    intro e he
    obtain rfl := Phrase.node.inj he
    exact hd
  have down : Tree.Downward fun d => Inside (.node d) :=
    fun d hd e he => node (.within (hd d rfl) he)
  have admits : x.Admits Inside := ⟨down, nofun, nofun, nofun, nofun⟩
  have pieces : q.Every Inside := every_rephrase admits (fun d hd => node (.part hd)) q h
  exact pieces.nodes c hc c rfl

/-- `c` is looked at for the gloss of `t`: its rewrite holds it, a link leads to it, or it is one of
the children. -/
def Calls (x : Lexicon) (c t : Tree) : Prop :=
  (∃ q ∈ x.rephrase t, c ∈ q.nodes) ∨ t.link? = some c ∨ c ∈ t.children

theorem Calls.below (h : x.Calls c t) : t.Below c := by
  rcases h with ⟨q, hq, hc⟩ | link | child
  · exact below_of_mem_rephrase hq hc
  · exact .of_link link
  · exact .of_child child

theorem wellFounded_calls (x : Lexicon) : WellFounded x.Calls :=
  Subrelation.wf (fun h => h.below.height_lt) (measure Tree.height).wf

theorem calls_of_mem_phrase (h : c ∈ (x.phrase t).nodes) : x.Calls c t := by
  rw [phrase] at h
  cases rewritten : x.rephrase t with
  | some q =>
    rw [rewritten] at h
    exact .inl ⟨q, rewritten, h⟩
  | none =>
    rw [rewritten, Option.getD_none] at h
    cases shape : t.shape with
    | link conversion inner =>
      rw [shape] at h
      obtain rfl := List.mem_singleton.mp h
      exact .inr (.inl (Tree.link?_of_shape shape))
    | group cs =>
      rw [shape, Phrase.ofShape, Phrase.mem_nodes_seq] at h
      obtain ⟨p, hp, hc⟩ := h
      obtain ⟨d, hd, rfl⟩ := List.mem_map.mp hp
      obtain rfl := List.mem_singleton.mp hc
      exact .inr (.inr (Tree.shape_group shape ▸ hd))
    | token | leaf | unknown =>
      rw [shape] at h
      cases h

end Lexicon

mutual

/-- A phrase as it is shown, if the gloss of each node that is kept in it comes out. -/
def Phrase.outline? (kept : Phrase → Bool) (say : String → String)
    (gloss : Tree → Option Outline) : Phrase → Option Outline
  | node t => gloss t
  | seq ps => return .ofParts (← outlineAll? kept say gloss ps)
  | word w => return .text (say w)
  | text s => return .text s
  | unknown => return .placeholder

def Phrase.outlineAll? (kept : Phrase → Bool) (say : String → String)
    (gloss : Tree → Option Outline) : List Phrase → Option (List Outline)
  | [] => return []
  | p :: ps =>
    if kept p then
      return (← p.outline? kept say gloss) :: (← outlineAll? kept say gloss ps)
    else outlineAll? kept say gloss ps

end

namespace Renderer

variable {r : Renderer} {m : Mode}

/-- The gloss of a node, if at most `n` calls for a node stand within one another. -/
def glossWithin (r : Renderer) (m : Mode) : Nat → Tree → Option Outline
  | 0, _ => none
  | n + 1, t => (r.phrase t).outline? (r.keeps m) r.say (r.glossWithin m n)

mutual

theorem outline?_eq_shown {gloss : Tree → Option Outline} : ∀ p : Phrase,
    (∀ t ∈ p.nodes, gloss t = some (r.gloss m t)) →
    p.outline? (r.keeps m) r.say gloss = some (r.shown m p)
  | .node t, h => by
    rw [Phrase.outline?, shown_node]
    exact h t (by simp [Phrase.nodes])
  | .seq ps, h => by
    rw [Phrase.outline?, outlineAll?_eq_shown ps h, shown_seq]
    rfl
  | .word w, _ => by rw [Phrase.outline?, shown_word]; rfl
  | .text s, _ => by rw [Phrase.outline?, shown_text]; rfl
  | .unknown, _ => by rw [Phrase.outline?, shown_unknown]; rfl

theorem outlineAll?_eq_shown {gloss : Tree → Option Outline} : ∀ ps : List Phrase,
    (∀ t ∈ Phrase.nodesAll ps, gloss t = some (r.gloss m t)) →
    Phrase.outlineAll? (r.keeps m) r.say gloss ps =
      some ((ps.filter (r.keeps m)).map (r.shown m))
  | [], _ => rfl
  | p :: ps, h => by
    have first := outline?_eq_shown p fun t ht => h t (by simp [Phrase.nodesAll, ht])
    have rest := outlineAll?_eq_shown ps fun t ht => h t (by simp [Phrase.nodesAll, ht])
    rw [Phrase.outlineAll?, first, rest, List.filter_cons]
    split <;> rfl

end

theorem glossWithin_of_height_le {t : Tree} {n : Nat} (h : t.height ≤ n) :
    r.glossWithin m n t = some (r.gloss m t) := by
  induction n generalizing t with
  | zero =>
    rw [Tree.height] at h
    omega
  | succ n ih =>
    rw [glossWithin, gloss_eq_shown]
    apply outline?_eq_shown
    intro c hc
    have lower : c.height < t.height := (Lexicon.calls_of_mem_phrase hc).below.height_lt
    exact ih (by omega)

/-- Whatever a rewrite holds lies properly below the node it is for, no chain of calls goes on for
ever, and each gloss comes out within as many nested calls as the tree is high. -/
theorem gloss_terminates (r : Renderer) (m : Mode) :
    (∀ t, ∀ q ∈ r.rephrase t, ∀ c ∈ q.nodes, t.Below c ∧ c ≠ t) ∧
      WellFounded r.Calls ∧
      ∀ t n, t.height ≤ n → r.glossWithin m n t = some (r.gloss m t) := by
  refine ⟨?_, r.wellFounded_calls, fun t n => glossWithin_of_height_le⟩
  intro t q hq c hc
  have below := Lexicon.below_of_mem_rephrase hq hc
  refine ⟨below, ?_⟩
  rintro rfl
  exact Nat.lt_irrefl _ below.height_lt

end Renderer

def Tree.threefold : Tree :=
  .bridi ⟨.bridi, [.word "mi"],
    some (.conjunction ⟨some (.tail ⟨.word "klama", [], [], none, none, []⟩),
      .conjunction ⟨some (.tail ⟨.word "cliva", [], [], some [2], none, []⟩),
        .tail ⟨.wrapper ⟨some (.word "nelci"), some [2, 1], none, []⟩, [.text "ca"], [], none, none,
          []⟩,
        some (.word "gi'a"), [], [.word "ti"], none, []⟩,
      some (.word "gi'e"), [], [.term ⟨some 2, .word "do", none, []⟩], none, []⟩),
    none, none, []⟩

theorem Renderer.gloss_terminates_threefold :
    (∃ q ∈ blank.rephrase .threefold, q.nodes.count (.word "do") = 3 ∧
      Tree.threefold.Below (.word "do") ∧ .word "do" ≠ Tree.threefold) ∧
      Tree.threefold.height ≤ 6 ∧
      blank.glossWithin .blank 6 .threefold = some (blank.gloss .blank .threefold) := by
  have terminates := blank.gloss_terminates .blank
  have high : Tree.threefold.height ≤ 6 := by decide +kernel
  have rewritten : (blank.rephrase .threefold).isSome := by decide +kernel
  obtain ⟨q, hq⟩ := Option.isSome_iff_exists.mp rewritten
  have thrice : q.nodes.count (.word "do") = 3 := by
    have all : ∀ p ∈ blank.rephrase .threefold, p.nodes.count (.word "do") = 3 := by decide +kernel
    exact all q hq
  have held : Tree.word "do" ∈ q.nodes := List.count_pos_iff.mp (by omega)
  exact ⟨⟨q, hq, thrice, terminates.1 _ q hq _ held⟩, high, terminates.2.2 _ 6 high⟩

end Lojban
