import Lojban.Tree.Shape

namespace Lojban.Tree

@[elab_as_elim]
theorem shape_induction {P : Tree → Prop} (token : ∀ t s, t.shape = .token s → P t)
    (leaf : ∀ t l, t.shape = .leaf l → P t)
    (link : ∀ t conversion inner, t.shape = .link conversion inner → P inner → P t)
    (group : ∀ t cs, t.shape = .group cs → (∀ c ∈ cs, P c) → P t)
    (unknown : ∀ t, t.shape = .unknown → P t) (t : Tree) : P t :=
  match h : t.shape with
  | .token s => token t s h
  | .leaf l => leaf t l h
  | .link conversion inner =>
    have := sizeOf_lt_of_shape_link h
    link t conversion inner h (shape_induction token leaf link group unknown inner)
  | .group cs =>
    group t cs h fun c hc =>
      have := sizeOf_lt_of_shape_group h hc
      shape_induction token leaf link group unknown c
  | .unknown => unknown t h
termination_by sizeOf t

inductive Everywhere (P : Tree → Prop) : Tree → Prop where
  | intro {t : Tree} (here : P t) (parts : ∀ c ∈ t.parts, Everywhere P c) : Everywhere P t

namespace Everywhere

variable {P Q : Tree → Prop} {t : Tree}

theorem here (h : t.Everywhere P) : P t := by
  cases h
  assumption

theorem part (h : t.Everywhere P) {c : Tree} (hc : c ∈ t.parts) : c.Everywhere P := by
  cases h with
  | intro _ parts => exact parts c hc

theorem iff : t.Everywhere P ↔ P t ∧ ∀ c ∈ t.parts, c.Everywhere P :=
  ⟨fun h => ⟨h.here, fun _ => h.part⟩, fun h => .intro h.1 h.2⟩

@[simp] theorem text_iff {s : String} : (text s).Everywhere P ↔ P (text s) := by
  rw [iff]
  simp [parts]

@[simp] theorem leaf_iff {l : Leaf} : (leaf l).Everywhere P ↔ P (leaf l) := by
  rw [iff]
  simp [parts]

@[simp] theorem other_iff {v : Json} : (other v).Everywhere P ↔ P (other v) := by
  rw [iff]
  simp [parts]

@[simp] theorem composite_iff {cs : List Tree} :
    (composite cs).Everywhere P ↔ P (composite cs) ∧ ∀ c ∈ cs, c.Everywhere P := iff

@[simp] theorem bridi_iff {b : Bridi Tree} :
    (bridi b).Everywhere P ↔
      P (bridi b) ∧ (∀ c ∈ b.head, c.Everywhere P) ∧ (∀ c ∈ b.tail, c.Everywhere P) ∧
        (∀ c ∈ b.contents, c.Everywhere P) ∧ ∀ c ∈ b.link, c.Everywhere P := by
  rw [iff]
  simp [parts, or_imp, forall_and]

@[simp] theorem conjunction_iff {c : Conjunction Tree} :
    (conjunction c).Everywhere P ↔
      P (conjunction c) ∧ (∀ d ∈ c.left, d.Everywhere P) ∧ c.right.Everywhere P ∧
        (∀ d ∈ c.joiner, d.Everywhere P) ∧ (∀ d ∈ c.scope, d.Everywhere P) ∧
        (∀ d ∈ c.tailTerms, d.Everywhere P) ∧ ∀ d ∈ c.link, d.Everywhere P := by
  rw [iff]
  simp [parts, or_imp, forall_and]

@[simp] theorem tail_iff {u : Tail Tree} :
    (tail u).Everywhere P ↔
      P (tail u) ∧ u.selbri.Everywhere P ∧ (∀ c ∈ u.preterms, c.Everywhere P) ∧
        (∀ c ∈ u.tailTerms, c.Everywhere P) ∧ ∀ c ∈ u.link, c.Everywhere P := by
  rw [iff]
  simp [parts, or_imp, forall_and]

@[simp] theorem term_iff {u : Term Tree} :
    (term u).Everywhere P ↔
      P (term u) ∧ u.sumti.Everywhere P ∧ ∀ c ∈ u.link, c.Everywhere P := by
  rw [iff]
  simp [parts]

@[simp] theorem wrapper_iff {w : Wrapper Tree} :
    (wrapper w).Everywhere P ↔
      P (wrapper w) ∧ (∀ c ∈ w.link, c.Everywhere P) ∧ ∀ c ∈ w.tertau, c.Everywhere P := by
  rw [iff]
  simp [parts, or_imp, forall_and]

theorem children (h : t.Everywhere P) {c : Tree} (hc : c ∈ t.children) : c.Everywhere P := by
  rcases mem_parts_of_mem_children hc with hc | ⟨u, hu, hc⟩
  · exact h.part hc
  · exact (h.part hu).part hc

theorem link (h : t.Everywhere P) {conversion : Option (List Nat)} {inner : Tree}
    (hs : t.shape = .link conversion inner) : inner.Everywhere P :=
  h.part (shape_link hs)

theorem group (h : t.Everywhere P) {cs : List Tree} (hs : t.shape = .group cs) :
    ∀ c ∈ cs, c.Everywhere P := by
  rw [shape_group hs]
  exact fun c => h.children

theorem compoundHead (h : t.Everywhere P) : t.compoundHead.Everywhere P := by
  induction t using Tree.compoundHead.induct with
  | case1 link conversion head extra ih =>
    rw [Tree.compoundHead]
    exact ih (h.part (by simp [parts]))
  | case2 t other =>
    rw [Tree.compoundHead]
    · exact h
    · exact other

theorem headWord (h : t.Everywhere P) {w : String} (hw : t.headWord? = some w) :
    ∃ u, P u ∧ u.text? = some w := by
  have head := h.compoundHead
  rw [headWord?] at hw
  split at hw
  · rename_i cs conversion tertau extra found
    rw [found] at head
    obtain ⟨c, hc, hw⟩ := List.exists_of_findSome?_eq_some hw
    have group : (composite cs).Everywhere P := head.part (by simp [parts])
    exact ⟨c, (group.part hc).here, hw⟩
  · rename_i link conversion tertau extra other found
    rw [found] at head
    obtain ⟨u, hu, hw⟩ := Option.bind_eq_some_iff.mp hw
    exact ⟨u, (head.part (by simp_all [parts])).here, hw⟩
  · exact ⟨_, head.here, hw⟩

end Everywhere

end Lojban.Tree
