import Lojban.Tree.Basic

namespace Lojban

/-- One level of a tree, as every renderer sees it. -/
inductive Shape where
  | token (word : String)
  | leaf (l : Leaf)
  | link (conversion : Option (List Nat)) (inner : Tree)
  | group (children : List Tree)
  | unknown

/-- A link stands for the node that carries it. -/
def Shape.ofLink : Option Tree → List Tree → Shape
  | some inner, _ => link none inner
  | none, children => group children

namespace Tree

def shape : Tree → Shape
  | text s => .token s
  | leaf l => .leaf l
  | composite cs => .group cs
  | bridi b => .ofLink b.link (bridi b).children
  | conjunction c => .ofLink c.link c.children
  | tail t => .ofLink t.link t.children
  | term t => .ofLink t.link [t.sumti]
  | wrapper ⟨some inner, conversion, _, _⟩ => .link conversion inner
  | wrapper _ => .unknown
  | other _ => .unknown

def parts : Tree → List Tree
  | composite cs => cs
  | bridi b => b.head ++ b.tail.toList ++ b.contents.toList ++ b.link.toList
  | conjunction c =>
    c.left.toList ++ c.right :: c.joiner.toList ++ c.scope ++ c.tailTerms ++ c.link.toList
  | tail t => t.selbri :: t.preterms ++ t.tailTerms ++ t.link.toList
  | term t => t.sumti :: t.link.toList
  | wrapper w => w.link.toList ++ w.tertau.toList
  | _ => []

theorem sizeOf_lt_of_mem_parts {t c : Tree} (h : c ∈ t.parts) : sizeOf c < sizeOf t := by
  have inList {ts : List Tree} (m : c ∈ ts) : sizeOf c < sizeOf ts := List.sizeOf_lt_of_mem m
  cases t with
  | composite cs =>
    have : sizeOf c < sizeOf cs := inList h
    simp
    omega
  | bridi b =>
    obtain ⟨role, head, rear, contents, link, extra⟩ := b
    simp only [parts, List.mem_append, Option.mem_toList] at h
    rcases h with ((h | h) | h) | h
    · have := inList h
      simp
      omega
    all_goals
      cases h
      simp
      omega
  | conjunction c =>
    obtain ⟨left, right, joiner, scope, tailTerms, link, extra⟩ := c
    simp only [parts, List.mem_append, List.mem_cons, Option.mem_toList] at h
    rcases h with (((h | h | h) | h) | h) | h
    · cases h
      simp
      omega
    · subst h
      simp
      omega
    · cases h
      simp
      omega
    · have := inList h
      simp
      omega
    · have := inList h
      simp
      omega
    · cases h
      simp
      omega
  | tail t =>
    obtain ⟨selbri, preterms, tailTerms, tagged, link, extra⟩ := t
    simp only [parts, List.mem_append, List.cons_append, List.mem_cons, Option.mem_toList] at h
    rcases h with h | (h | h) | h
    · subst h
      simp
      omega
    · have := inList h
      simp
      omega
    · have := inList h
      simp
      omega
    · cases h
      simp
      omega
  | term t =>
    obtain ⟨place, sumti, link, extra⟩ := t
    simp only [parts, List.mem_cons, Option.mem_toList] at h
    rcases h with h | h
    · subst h
      simp
      omega
    · cases h
      simp
      omega
  | wrapper w =>
    obtain ⟨link, conversion, tertau, extra⟩ := w
    simp only [parts, List.mem_append, Option.mem_toList] at h
    rcases h with h | h
    all_goals
      cases h
      simp
      omega
  | text => simp [parts] at h
  | leaf => simp [parts] at h
  | other => simp [parts] at h

/-- A child is a part, or a part of a part where a tail is spliced in. -/
theorem mem_parts_of_mem_children {t c : Tree} (h : c ∈ t.children) :
    c ∈ t.parts ∨ ∃ u ∈ t.parts, c ∈ u.parts := by
  cases t with
  | bridi b =>
    simp only [children, List.mem_append, Option.mem_toList, List.mem_flatMap] at h
    rcases h with (h | h) | ⟨u, hu, h⟩
    · exact .inl (by simp [parts, h])
    · exact .inl (by simp [parts, h])
    · have hu : u ∈ (bridi b).parts := by simp [parts, hu]
      cases u with
      | tail u =>
        simp only [splice] at h
        split at h
        · refine .inr ⟨_, hu, ?_⟩
          simp only [Tail.children, List.mem_append, List.mem_cons] at h
          rcases h with h | h | h <;> simp [parts, h]
        · exact .inl (List.mem_singleton.mp h ▸ hu)
      | _ => exact .inl (List.mem_singleton.mp h ▸ hu)
  | conjunction c =>
    simp only [children, Conjunction.children, List.mem_append, List.mem_cons] at h
    rcases h with ((h | h) | h) | h | h <;> exact .inl (by simp [parts, h])
  | tail u =>
    simp only [children, Tail.children, List.mem_append, List.mem_cons] at h
    rcases h with h | h | h <;> exact .inl (by simp [parts, h])
  | composite cs => exact .inl h
  | term u => exact .inl (by simp_all [children, parts])
  | wrapper w => exact .inl (by simp_all [children, parts])
  | text => cases h
  | leaf => cases h
  | other => cases h

theorem sizeOf_lt_of_mem_children {t c : Tree} (h : c ∈ t.children) : sizeOf c < sizeOf t := by
  rcases mem_parts_of_mem_children h with hc | ⟨u, hu, hc⟩
  · exact sizeOf_lt_of_mem_parts hc
  · exact Nat.lt_trans (sizeOf_lt_of_mem_parts hc) (sizeOf_lt_of_mem_parts hu)

@[simp] theorem ofLink_ne_token (link : Option Tree) (cs : List Tree) (s : String) :
    Shape.ofLink link cs ≠ .token s := by
  cases link <;> simp [Shape.ofLink]

@[simp] theorem ofLink_ne_leaf (link : Option Tree) (cs : List Tree) (l : Leaf) :
    Shape.ofLink link cs ≠ .leaf l := by
  cases link <;> simp [Shape.ofLink]

@[simp] theorem ofLink_ne_unknown (link : Option Tree) (cs : List Tree) :
    Shape.ofLink link cs ≠ .unknown := by
  cases link <;> simp [Shape.ofLink]

theorem eq_text_of_shape {t : Tree} {s : String} (h : t.shape = .token s) : t = text s := by
  cases t with
  | text s' =>
    cases h
    rfl
  | wrapper w =>
    obtain ⟨link, conversion, tertau, extra⟩ := w
    cases link <;> simp [shape] at h
  | _ => simp [shape] at h

theorem eq_leaf_of_shape {t : Tree} {l : Leaf} (h : t.shape = .leaf l) : t = leaf l := by
  cases t with
  | leaf l' =>
    cases h
    rfl
  | wrapper w =>
    obtain ⟨link, conversion, tertau, extra⟩ := w
    cases link <;> simp [shape] at h
  | _ => simp [shape] at h

theorem shape_link {t inner : Tree} {conversion : Option (List Nat)}
    (h : t.shape = .link conversion inner) : inner ∈ t.parts := by
  cases t with
  | bridi b => cases hl : b.link <;> simp_all [shape, Shape.ofLink, parts]
  | conjunction c => cases hl : c.link <;> simp_all [shape, Shape.ofLink, parts]
  | tail t => cases hl : t.link <;> simp_all [shape, Shape.ofLink, parts]
  | term t => cases hl : t.link <;> simp_all [shape, Shape.ofLink, parts]
  | wrapper w =>
    obtain ⟨link, conversion, tertau, extra⟩ := w
    cases link <;> simp_all [shape, parts]
  | _ => simp [shape] at h

theorem link?_of_shape {t inner : Tree} {conversion : Option (List Nat)}
    (h : t.shape = .link conversion inner) : t.link? = some inner := by
  cases t with
  | bridi b => cases hl : b.link <;> simp_all [shape, Shape.ofLink, link?]
  | conjunction c => cases hl : c.link <;> simp_all [shape, Shape.ofLink, link?]
  | tail t => cases hl : t.link <;> simp_all [shape, Shape.ofLink, link?]
  | term t => cases hl : t.link <;> simp_all [shape, Shape.ofLink, link?]
  | wrapper w =>
    obtain ⟨link, conversion, tertau, extra⟩ := w
    cases link <;> simp_all [shape, link?]
  | _ => simp [shape] at h

theorem shape_of_link? {t inner : Tree} (h : t.link? = some inner) :
    ∃ conversion, t.shape = .link conversion inner := by
  cases t with
  | wrapper w =>
    obtain ⟨link, conversion, tertau, extra⟩ := w
    obtain rfl : link = some inner := h
    exact ⟨conversion, rfl⟩
  | bridi | conjunction | tail | term =>
    refine ⟨none, ?_⟩
    rw [link?] at h
    rw [shape, h, Shape.ofLink]
  | _ => cases h

theorem shape_group {t : Tree} {cs : List Tree} (h : t.shape = .group cs) : cs = t.children := by
  cases t with
  | bridi b => cases hl : b.link <;> simp_all [shape, Shape.ofLink]
  | conjunction c => cases hl : c.link <;> simp_all [shape, Shape.ofLink, children]
  | tail t => cases hl : t.link <;> simp_all [shape, Shape.ofLink, children]
  | term t => cases hl : t.link <;> simp_all [shape, Shape.ofLink, children]
  | wrapper w =>
    obtain ⟨link, conversion, tertau, extra⟩ := w
    cases link <;> simp [shape] at h
  | composite cs => simp_all [shape, children]
  | _ => simp [shape] at h

theorem sizeOf_lt_of_shape_link {t inner : Tree} {conversion : Option (List Nat)}
    (h : t.shape = .link conversion inner) : sizeOf inner < sizeOf t :=
  sizeOf_lt_of_mem_parts (shape_link h)

theorem sizeOf_lt_of_shape_group {t c : Tree} {cs : List Tree} (h : t.shape = .group cs)
    (hc : c ∈ cs) : sizeOf c < sizeOf t :=
  sizeOf_lt_of_mem_children (shape_group h ▸ hc)

end Tree

end Lojban
