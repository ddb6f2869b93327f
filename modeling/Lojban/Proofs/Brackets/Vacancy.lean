import Lojban.Proofs.Brackets.Context
import Lojban.Proofs.Brackets.WellNested
import Lojban.Proofs.Glyphs.Balance
import Mathlib.Data.List.Chain

/-!
What is not visible leaves no trace among other nodes. Visibility is settled node by node, before
the nodes below are looked at, so a node may be shown that has nothing to show: then, and only then,
an empty pair of brackets stands in the text.
-/

namespace Lojban

open Glyphs (Unbracketed)

def Glyphs.emptyPair : List Char := ['[', ']']

/-- Holds no empty pair of brackets, and makes none with what stands before or behind it. -/
structure Filled (cs : List Char) : Prop where
  inside : cs.IsChain fun c d => ¬(c = '[' ∧ d = ']')
  start : ']' ∉ cs.head?
  stop : '[' ∉ cs.getLast?

namespace Filled

theorem not_emptyPair {cs : List Char} (h : Filled cs) : ¬Glyphs.emptyPair <:+: cs := by
  intro found
  have neighbours := List.IsChain.infix h.inside found
  exact List.isChain_pair.mp neighbours ⟨rfl, rfl⟩

theorem append {cs ds : List Char} (hc : Filled cs) (hd : Filled ds) : Filled (cs ++ ds) where
  inside := by
    refine List.isChain_append.mpr ⟨hc.inside, hd.inside, ?_⟩
    rintro c last d _ ⟨rfl, -⟩
    exact hc.stop last
  start starts := by
    rw [Option.mem_def, List.head?_append, Option.or_eq_some_iff] at starts
    rcases starts with first | ⟨-, first⟩
    · exact hc.start first
    · exact hd.start first
  stop stops := by
    rw [Option.mem_def, List.getLast?_append, Option.or_eq_some_iff] at stops
    rcases stops with last | ⟨-, last⟩
    · exact hd.stop last
    · exact hc.stop last

theorem of_not_mem {cs : List Char} (opening : '[' ∉ cs) (closing : ']' ∉ cs) : Filled cs where
  inside := by
    apply List.Pairwise.isChain
    apply List.pairwise_of_forall_mem_list
    rintro c hc d _ ⟨rfl, -⟩
    exact opening hc
  start first := closing (List.mem_of_mem_head? first)
  stop last := opening (List.mem_of_mem_getLast? last)

theorem enclosed {cs : List Char} (h : Filled cs) (present : cs ≠ []) :
    Filled ('[' :: cs ++ [']']) where
  inside := by
    have before : List.IsChain (fun c d => ¬(c = '[' ∧ d = ']')) ('[' :: cs) := by
      refine List.isChain_cons.mpr ⟨?_, h.inside⟩
      rintro c first ⟨-, rfl⟩
      exact h.start first
    refine List.isChain_append.mpr ⟨before, List.isChain_singleton _, ?_⟩
    rintro c last d _ ⟨rfl, -⟩
    rw [List.getLast?_cons_of_ne_nil present] at last
    exact h.stop last
  start := by simp
  stop := by simp [List.getLast?_cons]

theorem charsAll {os : List Outline} (parts : ∀ o ∈ os, Filled o.chars) :
    Filled (Outline.charsAll os) := by
  induction os with
  | nil => exact of_not_mem List.not_mem_nil List.not_mem_nil
  | cons o os ih =>
    have first : Filled o.chars := parts o List.mem_cons_self
    cases os with
    | nil => exact first
    | cons o' os =>
      have space : Filled [' '] := of_not_mem (by decide) (by decide)
      have rest := ih fun p hp => parts p (List.mem_cons_of_mem o hp)
      rw [Outline.charsAll]
      · exact first.append (space.append rest)
      · exact List.cons_ne_nil o' os

theorem ofParts {os : List Outline} (present : os ≠ []) (parts : ∀ o ∈ os, Filled o.chars) :
    Filled (Outline.ofParts os).chars := by
  match os with
  | [] => exact absurd rfl present
  | [o] => exact parts o List.mem_cons_self
  | o :: o' :: os =>
    have several : Outline.charsAll (o :: o' :: os) ≠ [] := by simp [Outline.charsAll]
    exact (charsAll parts).enclosed several

end Filled

theorem Outline.chars_infix_ofParts {o : Outline} {os : List Outline} (h : o ∈ os) :
    o.chars <:+: (ofParts os).chars := by
  have within : o.chars <:+: charsAll os := by
    induction os with
    | nil => cases h
    | cons first os ih =>
      cases os with
      | nil =>
        obtain rfl := List.mem_singleton.mp h
        exact List.infix_refl _
      | cons second os =>
        rw [charsAll]
        · rcases List.mem_cons.mp h with rfl | h
          · exact List.infix_append_left
          · exact (ih h).trans ((List.suffix_cons ' ' _).isInfix.trans List.infix_append_right)
        · exact List.cons_ne_nil second os
  cases os with
  | nil => cases h
  | cons first os =>
    cases os with
    | nil => exact within
    | cons second os => exact within.trans (List.infix_append ['['] _ [']'])

theorem Glyphs.Unbracketed.upper {s : String} (h : Unbracketed s) : Unbracketed (Case.upper s) := by
  constructor
  · intro opens
    rcases Case.mem_or_isUpper_of_mem_upper opens (by decide) with old | capital
    · exact h.1 old
    · cases capital
  · intro closes
    rcases Case.mem_or_isUpper_of_mem_upper closes (by decide) with old | capital
    · exact h.2 old
    · cases capital

theorem Leaf.unbracketed_display {l : Leaf} (texts : ∀ s ∈ (Tree.leaf l).texts, Unbracketed s)
    (m : Mode) : Unbracketed (l.display m) := by
  have word : Unbracketed l.word := texts _ (by simp [Tree.texts])
  rw [display]
  split
  · exact word.upper
  · split
    · rename_i s tagged
      split
      · have tag : Unbracketed s := texts _ (by simp [Tree.texts, tagged])
        have colon : Unbracketed ":" := by decide
        exact (tag.append colon).append word
      · exact word
    · exact word

namespace Tree

variable {m : Mode} {exempt : Exemption} {t : Tree}

/-- The nodes that are shown: the root, what a shown link leads to, and the children of a shown node
that are visible. -/
inductive Shows (m : Mode) (exempt : Exemption) : Tree → Tree → Prop where
  | here (t : Tree) : Shows m exempt t t
  | link {t conversion inner u} : t.shape = .link conversion inner → Shows m exempt inner u →
    Shows m exempt t u
  | child {t cs c u} : t.shape = .group cs → c ∈ cs → c.isVisible m exempt →
    Shows m exempt c u → Shows m exempt t u

def Vacant (m : Mode) (exempt : Exemption) (t : Tree) : Prop :=
  ∃ cs, t.shape = .group cs ∧ ∀ c ∈ cs, c.isVisible m exempt = false

theorem emptyPair_infix_outline {u : Tree} (tables : m.tables = false) (shown : t.Shows m exempt u)
    (vacant : u.Vacant m exempt) : Glyphs.emptyPair <:+: (t.outline m exempt).chars := by
  induction shown with
  | here t =>
    obtain ⟨cs, shape, hidden⟩ := vacant
    have none : cs.filter (·.isVisible m exempt) = [] := by simpa using hidden
    rw [outline_group shape, none]
    exact List.infix_refl _
  | link shape _ ih =>
    rw [outline_link shape, tables]
    exact ih vacant
  | child shape hc visible _ ih =>
    rw [outline_group shape]
    apply (ih vacant).trans
    apply Outline.chars_infix_ofParts
    exact List.mem_map_of_mem (List.mem_filter.mpr ⟨hc, visible⟩)

theorem filled_outline (tables : m.tables = false)
    (texts : t.Everywhere fun u => ∀ s ∈ u.texts, Unbracketed s)
    (full : ∀ u, t.Shows m exempt u → ¬u.Vacant m exempt) : Filled (t.outline m exempt).chars := by
  induction t using shape_induction with
  | token t s hs =>
    rw [outline_token hs]
    obtain rfl := eq_text_of_shape hs
    have free := texts.here s (by simp [Tree.texts])
    exact .of_not_mem free.1 free.2
  | leaf t l hs =>
    rw [outline_leaf hs]
    obtain rfl := eq_leaf_of_shape hs
    have free := Leaf.unbracketed_display texts.here m
    exact .of_not_mem free.1 free.2
  | link t conversion inner hs ih =>
    rw [outline_link hs, tables]
    exact ih (texts.link hs) fun u shown => full u (.link hs shown)
  | group t cs hs ih =>
    have some : (cs.filter (·.isVisible m exempt)).map (·.outline m exempt) ≠ [] := by
      intro none
      apply full t (.here t)
      exact ⟨cs, hs, by simpa using none⟩
    rw [outline_group hs]
    apply Filled.ofParts some
    intro o ho
    obtain ⟨c, hc, rfl⟩ := List.mem_map.mp ho
    obtain ⟨child, visible⟩ := List.mem_filter.mp hc
    exact ih c child (texts.group hs c child) fun u shown => full u (.child hs child visible shown)
  | unknown t hs =>
    rw [outline_unknown hs]
    have marks : Filled ['?', '?', '?'] := .of_not_mem (by decide) (by decide)
    exact marks.enclosed (by decide)

end Tree

/-- An empty pair of brackets stands for a shown node with nothing to show, and for nothing else. A
node that is not visible leaves no trace: any other such node does as well in its place, and among
other members a group does without it. -/
theorem Renderer.emptyPair_iff_vacant (r : Renderer) (m : Mode) :
    (∀ t : Tree, m.tables = false → (t.Everywhere fun u => ∀ s ∈ u.texts, Unbracketed s) →
      (Glyphs.emptyPair <:+: (r.brackets m t).toString.toList ↔
        ∃ u, t.Shows m r.exempt u ∧ u.Vacant m r.exempt)) ∧
    (∀ (outer : Context) (f : Frame) (t u : Tree), f.isLink = false →
      t.isVisible m r.exempt = false → u.isVisible m r.exempt = false →
      r.brackets m (outer.plug (f.plug t)) = r.brackets m (outer.plug (f.plug u))) ∧
    ∀ (outer : Context) (front back : List Tree) (t : Tree), front ++ back ≠ [] →
      t.isVisible m r.exempt = false →
      r.brackets m (outer.plug (.composite (front ++ t :: back))) =
        r.brackets m (outer.plug (.composite (front ++ back))) := by
  refine ⟨fun t tables texts => ⟨fun found => ?_, ?_⟩, ?_, ?_⟩
  · rw [Outline.toString, String.toList_ofList] at found
    by_contra none
    have full : ∀ u, t.Shows m r.exempt u → ¬u.Vacant m r.exempt :=
      fun u shown vacant => none ⟨u, shown, vacant⟩
    exact (Tree.filled_outline tables texts full).not_emptyPair found
  · rintro ⟨u, shown, vacant⟩
    rw [Outline.toString, String.toList_ofList]
    exact Tree.emptyPair_infix_outline tables shown vacant
  · intro outer f t u inner ht hu
    exact outer.outline_plug (Tree.alike_of_not_isVisible inner ht hu)
  · intro outer front back t others hidden
    apply Context.outline_plug_of_isVisible
    · simp [Tree.isVisible]
    · simpa [Tree.isVisible] using others
    · rw [Tree.outline_of_shape_group rfl, Tree.outline_of_shape_group rfl,
        List.append_cons front t back]
      simp only [Tree.outlines_append, Tree.outlines_of_not_isVisible hidden, List.append_nil]
    · exact fun _ => ⟨rfl, rfl⟩

def Tree.amongWords (t : Tree) : Tree := .composite [.text "mi", t, .text "klama"]

def Tree.loneParticle : Tree := .composite [.leaf ⟨"cu", true, some "CU", none, []⟩]

def Mode.plain : Mode := { Mode.blank with elided := false }

theorem Renderer.emptyPair_iff_vacant_amongWords :
    Mode.plain.tables = false ∧
      ((Tree.amongWords .loneParticle).Everywhere fun u => ∀ s ∈ u.texts, Unbracketed s) ∧
      (∃ u, (Tree.amongWords .loneParticle).Shows .plain blank.exempt u ∧
        u.Vacant .plain blank.exempt) ∧
      (Tree.composite []).isVisible .plain blank.exempt = false ∧
      (Tree.other .null).isVisible .plain blank.exempt = false ∧
      blank.brackets .plain (.amongWords (.composite [])) =
        blank.brackets .plain (.amongWords (.other .null)) ∧
      blank.brackets .plain (.amongWords (.composite [])) =
        blank.brackets .plain (.composite [.text "mi", .text "klama"]) := by
  have texts : (Tree.amongWords .loneParticle).Everywhere
      fun u => ∀ s ∈ u.texts, Unbracketed s := by
    simp [Tree.amongWords, Tree.loneParticle, Tree.texts]
    decide
  have found : Glyphs.emptyPair <:+:
      (blank.brackets .plain (.amongWords .loneParticle)).toString.toList := by
    decide +kernel
  obtain ⟨vacant, exchanged, removed⟩ := blank.emptyPair_iff_vacant .plain
  exact ⟨rfl, texts, (vacant _ rfl texts).mp found, rfl, rfl,
    exchanged [] (.member [.text "mi"] [.text "klama"]) (.composite []) (.other .null) rfl rfl rfl,
    removed [] [.text "mi"] [.text "klama"] (.composite []) (by simp) rfl⟩

/-- A group is shown though all in it is hidden, and a link is followed though it leads to an empty
group. -/
theorem Renderer.vacant_groups_shown :
    Mode.plain.tables = false ∧
      ((Tree.amongWords .loneParticle).Everywhere fun u => ∀ s ∈ u.texts, Unbracketed s) ∧
      ¬((blank.brackets .plain (.amongWords .loneParticle)).toString = "[]" ∨
        ¬Glyphs.emptyPair <:+:
          (blank.brackets .plain (.amongWords .loneParticle)).toString.toList) ∧
      (blank.brackets .plain (.amongWords (.composite [.other .null]))).toString =
        "[mi [] klama]" ∧
      (blank.brackets .plain (.amongWords (.wrap (.composite [])))).toString = "[mi [] klama]" := by
  refine ⟨rfl, ?_, by decide +kernel⟩
  simp [Tree.amongWords, Tree.loneParticle, Tree.texts]
  decide

end Lojban
