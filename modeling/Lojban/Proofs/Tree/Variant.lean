import Lojban.Proofs.Tree.Field

/-!
The variants of nodes that are objects. A node of a variant is read from an object if and only if
each of its fields is, and what else the object holds is kept with it. So two objects whose fields
read the same are read as the same node.
-/

namespace Lojban

structure Field where
  kind : FieldKind
  value : kind.Value

@[simp] theorem Role.name_ofName (name : String) : (Role.ofName name).name = name := by
  rw [ofName]
  split
  · exact Eq.symm ‹_›
  · split
    · exact Eq.symm ‹_›
    · rfl

namespace Tree

def fields : Tree → Entries String Field
  | leaf l =>
    [⟨"word", .text, l.word⟩, ⟨"elided", .flag, l.elided⟩, ⟨"selmaho", .label, l.selmaho⟩,
      ⟨"place", .place, l.place⟩]
  | bridi b =>
    [⟨"role", .text, b.role.name⟩, ⟨"head", .nodes, b.head⟩, ⟨"tail", .link, b.tail⟩,
      ⟨"contents", .link, b.contents⟩, ⟨linkKey, .link, b.link⟩]
  | conjunction c =>
    [⟨"left", .link, c.left⟩, ⟨"right", .node, c.right⟩, ⟨"joiner", .link, c.joiner⟩,
      ⟨"scope", .nodes, c.scope⟩, ⟨"tail_terms", .nodes, c.tailTerms⟩, ⟨linkKey, .link, c.link⟩]
  | tail t =>
    [⟨"selbri", .node, t.selbri⟩, ⟨"preterms", .nodes, t.preterms⟩,
      ⟨"tail_terms", .nodes, t.tailTerms⟩, ⟨"fa_after_tail", .places, t.tagged⟩,
      ⟨linkKey, .link, t.link⟩]
  | term t => [⟨"place", .place, t.place⟩, ⟨"sumti", .node, t.sumti⟩, ⟨linkKey, .link, t.link⟩]
  | wrapper w =>
    [⟨linkKey, .link, w.link⟩, ⟨"se_table", .places, w.conversion⟩, ⟨"tertau", .link, w.tertau⟩]
  | _ => []

def keys (t : Tree) : List String := t.fields.keys

def extra : Tree → Json.Fields
  | leaf l => l.extra
  | bridi b => b.extra
  | conjunction c => c.extra
  | tail t => t.extra
  | term t => t.extra
  | wrapper w => w.extra
  | _ => []

def withExtra (es : Json.Fields) : Tree → Tree
  | leaf l => leaf { l with extra := es }
  | bridi b => bridi { b with extra := es }
  | conjunction c => conjunction { c with extra := es }
  | tail t => tail { t with extra := es }
  | term t => term { t with extra := es }
  | wrapper w => wrapper { w with extra := es }
  | t => t

def NamedRole : Tree → Prop
  | bridi b => Role.ofName b.role.name = b.role
  | _ => True

@[simp] theorem fields_withExtra (es : Json.Fields) (t : Tree) :
    (t.withExtra es).fields = t.fields := by
  cases t <;> rfl

@[simp] theorem keys_withExtra (es : Json.Fields) (t : Tree) : (t.withExtra es).keys = t.keys :=
  congrArg Entries.keys (fields_withExtra es t)

theorem extra_withExtra (es : Json.Fields) {t : Tree} (h : t.keys ≠ []) :
    (t.withExtra es).extra = es := by
  cases t with
  | composite => exact absurd rfl h
  | text => exact absurd rfl h
  | other => exact absurd rfl h
  | _ => rfl

theorem namedRole_withExtra (es : Json.Fields) {t : Tree} (h : t.NamedRole) :
    (t.withExtra es).NamedRole := by
  cases t <;> exact h

theorem ofKey?_of_mem_fields {t : Tree} {e : String × Field} (h : e ∈ t.fields) :
    FieldKind.ofKey? e.1 = some e.2.kind := by
  have all : ∀ e ∈ t.fields, FieldKind.ofKey? e.1 = some e.2.kind := by
    cases t <;> simp [fields, linkKey, FieldKind.ofKey?]
  exact all e h

/-- The node is what an object with these members says, if it is of the variant with these keys. -/
structure Fills (t : Tree) (ms : List Member) (own : List String) : Prop where
  keys : t.keys = own
  role : t.NamedRole
  fields : ∀ e ∈ t.fields, e.2.kind.read ms e.1 = some e.2.value
  extra : t.extra = Member.extra ms own

end Tree

/-- The variants of nodes that are objects, in the order in which they are tried. -/
inductive Variant where
  | leaf
  | bridi
  | conjunction
  | tail
  | term
  | wrapper
  deriving DecidableEq

namespace Variant

def all : List Variant := [leaf, bridi, conjunction, tail, term, wrapper]

def keys : Variant → List String
  | leaf => ["word", "elided", "selmaho", "place"]
  | bridi => ["role", "head", "tail", "contents", linkKey]
  | conjunction => ["left", "right", "joiner", "scope", "tail_terms", linkKey]
  | tail => ["selbri", "preterms", "tail_terms", "fa_after_tail", linkKey]
  | term => ["place", "sumti", linkKey]
  | wrapper => [linkKey, "se_table", "tertau"]

end Variant

namespace Member

open Lojban.Tree (Fills)

variable {ms : List Member} {t : Tree}

theorem leaf?_eq_some : leaf? ms = some t ↔ t.Fills ms Variant.leaf.keys := by
  constructor
  · intro h
    simp only [leaf?, bind, Option.bind_eq_some_iff, pure, Option.some.injEq] at h
    obtain ⟨word, hword, elided, helided, selmaho, hselmaho, place, hplace, rfl⟩ := h
    refine ⟨rfl, trivial, ?_, rfl⟩
    simp [Tree.fields, FieldKind.read, hword, helided, hselmaho, hplace]
  · rintro ⟨keys, -, fields, extra⟩
    cases t with
    | leaf l =>
      simp only [Tree.fields, List.forall_mem_cons, FieldKind.read] at fields
      obtain ⟨hword, helided, hselmaho, hplace, -⟩ := fields
      rw [Tree.extra, Variant.keys] at extra
      rw [leaf?, hword, helided, hselmaho, hplace, ← extra]
      rfl
    | _ => simp [Tree.keys, Tree.fields, Variant.keys] at keys

theorem bridi?_eq_some : bridi? ms = some t ↔ t.Fills ms Variant.bridi.keys := by
  constructor
  · intro h
    simp only [bridi?, bind, Option.bind_eq_some_iff, pure, Option.some.injEq] at h
    obtain ⟨role, hrole, head, hhead, rear, hrear, contents, hcontents, link, hlink, rfl⟩ := h
    refine ⟨rfl, ?_, ?_, rfl⟩
    · simp [Tree.NamedRole]
    simp [Tree.fields, FieldKind.read, hrole, hhead, hrear, hcontents, hlink]
  · rintro ⟨keys, role, fields, extra⟩
    cases t with
    | bridi b =>
      simp only [Tree.fields, List.forall_mem_cons, FieldKind.read] at fields
      obtain ⟨hrole, hhead, hrear, hcontents, hlink, -⟩ := fields
      rw [Tree.extra, Variant.keys] at extra
      rw [bridi?, hrole, hhead, hrear, hcontents, hlink, ← extra]
      simp only [bind, Option.bind_some]
      rw [show Role.ofName b.role.name = b.role from role]
      rfl
    | _ => simp [Tree.keys, Tree.fields, Variant.keys] at keys

theorem conjunction?_eq_some :
    conjunction? ms = some t ↔ t.Fills ms Variant.conjunction.keys := by
  constructor
  · intro h
    simp only [conjunction?, bind, Option.bind_eq_some_iff, pure, Option.some.injEq] at h
    obtain ⟨left, hleft, right, hright, joiner, hjoiner, scope, hscope, tailTerms, htailTerms,
      link, hlink, rfl⟩ := h
    refine ⟨rfl, trivial, ?_, rfl⟩
    simp [Tree.fields, FieldKind.read, hleft, hright, hjoiner, hscope, htailTerms, hlink]
  · rintro ⟨keys, -, fields, extra⟩
    cases t with
    | conjunction c =>
      simp only [Tree.fields, List.forall_mem_cons, FieldKind.read] at fields
      obtain ⟨hleft, hright, hjoiner, hscope, htailTerms, hlink, -⟩ := fields
      rw [Tree.extra, Variant.keys] at extra
      rw [conjunction?, hleft, hright, hjoiner, hscope, htailTerms, hlink, ← extra]
      rfl
    | _ => simp [Tree.keys, Tree.fields, Variant.keys] at keys

theorem tail?_eq_some : tail? ms = some t ↔ t.Fills ms Variant.tail.keys := by
  constructor
  · intro h
    simp only [tail?, bind, Option.bind_eq_some_iff, pure, Option.some.injEq] at h
    obtain ⟨selbri, hselbri, preterms, hpreterms, tailTerms, htailTerms, tagged, htagged, link,
      hlink, rfl⟩ := h
    refine ⟨rfl, trivial, ?_, rfl⟩
    simp [Tree.fields, FieldKind.read, hselbri, hpreterms, htailTerms, htagged, hlink]
  · rintro ⟨keys, -, fields, extra⟩
    cases t with
    | tail u =>
      simp only [Tree.fields, List.forall_mem_cons, FieldKind.read] at fields
      obtain ⟨hselbri, hpreterms, htailTerms, htagged, hlink, -⟩ := fields
      rw [Tree.extra, Variant.keys] at extra
      rw [tail?, hselbri, hpreterms, htailTerms, htagged, hlink, ← extra]
      rfl
    | _ => simp [Tree.keys, Tree.fields, Variant.keys] at keys

theorem term?_eq_some : term? ms = some t ↔ t.Fills ms Variant.term.keys := by
  constructor
  · intro h
    simp only [term?, bind, Option.bind_eq_some_iff, pure, Option.some.injEq] at h
    obtain ⟨place, hplace, sumti, hsumti, link, hlink, rfl⟩ := h
    refine ⟨rfl, trivial, ?_, rfl⟩
    simp [Tree.fields, FieldKind.read, hplace, hsumti, hlink]
  · rintro ⟨keys, -, fields, extra⟩
    cases t with
    | term u =>
      simp only [Tree.fields, List.forall_mem_cons, FieldKind.read] at fields
      obtain ⟨hplace, hsumti, hlink, -⟩ := fields
      rw [Tree.extra, Variant.keys] at extra
      rw [term?, hplace, hsumti, hlink, ← extra]
      rfl
    | _ => simp [Tree.keys, Tree.fields, Variant.keys] at keys

theorem wrapper?_eq_some : wrapper? ms = some t ↔ t.Fills ms Variant.wrapper.keys := by
  constructor
  · intro h
    simp only [wrapper?, bind, Option.bind_eq_some_iff, pure, Option.some.injEq] at h
    obtain ⟨link, hlink, conversion, hconversion, tertau, htertau, rfl⟩ := h
    refine ⟨rfl, trivial, ?_, rfl⟩
    simp [Tree.fields, FieldKind.read, hlink, hconversion, htertau]
  · rintro ⟨keys, -, fields, extra⟩
    cases t with
    | wrapper w =>
      simp only [Tree.fields, List.forall_mem_cons, FieldKind.read] at fields
      obtain ⟨hlink, hconversion, htertau, -⟩ := fields
      rw [Tree.extra, Variant.keys] at extra
      rw [wrapper?, hlink, hconversion, htertau, ← extra]
      rfl
    | _ => simp [Tree.keys, Tree.fields, Variant.keys] at keys

end Member

namespace Variant

def read : Variant → List Member → Option Tree
  | leaf => Member.leaf?
  | bridi => Member.bridi?
  | conjunction => Member.conjunction?
  | tail => Member.tail?
  | term => Member.term?
  | wrapper => Member.wrapper?

theorem keys_ne_nil (k : Variant) : k.keys ≠ [] := by
  cases k <;> decide

theorem nodup_keys (k : Variant) : k.keys.Nodup := by
  cases k <;> decide

theorem read_eq_some {k : Variant} {ms : List Member} {t : Tree} :
    k.read ms = some t ↔ t.Fills ms k.keys := by
  cases k with
  | leaf => exact Member.leaf?_eq_some
  | bridi => exact Member.bridi?_eq_some
  | conjunction => exact Member.conjunction?_eq_some
  | tail => exact Member.tail?_eq_some
  | term => exact Member.term?_eq_some
  | wrapper => exact Member.wrapper?_eq_some

theorem isSome_read {k : Variant} {ms : List Member} :
    (k.read ms).isSome ↔
      ∀ key ∈ k.keys, ∀ kind ∈ FieldKind.ofKey? key, (kind.read ms key).isSome := by
  have any_const {α : Type} (o : Option α) (b : Bool) :
      (o.any fun _ => b) = (o.isSome && b) := by
    cases o <;> rfl
  cases k with
  | leaf =>
    simp [read, Member.leaf?, keys, FieldKind.ofKey?, FieldKind.read, Option.isSome_bind, any_const]
  | bridi =>
    simp [read, Member.bridi?, keys, FieldKind.ofKey?, FieldKind.read, Option.isSome_bind,
      any_const, linkKey]
  | conjunction =>
    simp [read, Member.conjunction?, keys, FieldKind.ofKey?, FieldKind.read, Option.isSome_bind,
      any_const, linkKey]
  | tail =>
    simp [read, Member.tail?, keys, FieldKind.ofKey?, FieldKind.read, Option.isSome_bind,
      any_const, linkKey]
  | term =>
    simp [read, Member.term?, keys, FieldKind.ofKey?, FieldKind.read, Option.isSome_bind,
      any_const, linkKey]
  | wrapper =>
    simp [read, Member.wrapper?, keys, FieldKind.ofKey?, FieldKind.read, Option.isSome_bind,
      any_const, linkKey]

end Variant

namespace Member

variable {ms ms' : List Member}

theorem node_eq_findSome? (ms : List Member) :
    node ms = (Variant.all.findSome? (·.read ms)).getD (.other (.object (extra ms []))) := by
  simp only [node, Variant.all, List.findSome?_cons, List.findSome?_nil, Variant.read]
  cases leaf? ms with
  | some => rfl
  | none =>
  cases bridi? ms with
  | some => rfl
  | none =>
  cases conjunction? ms with
  | some => rfl
  | none =>
  cases tail? ms with
  | some => rfl
  | none =>
  cases term? ms with
  | some => rfl
  | none => cases wrapper? ms <;> rfl

theorem node_cases (ms : List Member) :
    (∃ k : Variant, (node ms).Fills ms k.keys) ∨
      node ms = .other (.object (extra ms [])) := by
  rw [node_eq_findSome?]
  cases h : Variant.all.findSome? (·.read ms) with
  | none => exact .inr rfl
  | some t =>
    obtain ⟨k, -, hk⟩ := List.exists_of_findSome?_eq_some h
    exact .inl ⟨k, Variant.read_eq_some.mp hk⟩

def Agree (ms ms' : List Member) : Prop :=
  ∀ key kind, FieldKind.ofKey? key = some kind → kind.read ms key = kind.read ms' key

theorem Agree.fills (h : Agree ms ms') {t : Tree} {own : List String} (filled : t.Fills ms own)
    (same : extra ms own = extra ms' own) : t.Fills ms' own where
  keys := filled.keys
  role := filled.role
  fields e he := by rw [← h e.1 e.2.kind (Tree.ofKey?_of_mem_fields he), filled.fields e he]
  extra := filled.extra.trans same

/-- Whether a variant fits does not depend on what else the object holds. -/
theorem Agree.read_eq_none (h : Agree ms ms') {k : Variant} (hk : k.read ms = none) :
    k.read ms' = none := by
  apply Option.eq_none_iff_forall_ne_some.mpr
  intro t ht
  have filled := Variant.read_eq_some.mp ht
  have fits : k.read ms = some (t.withExtra (extra ms k.keys)) := by
    refine Variant.read_eq_some.mpr ⟨?_, ?_, ?_, ?_⟩
    · rw [Tree.keys_withExtra, filled.keys]
    · exact Tree.namedRole_withExtra _ filled.role
    · intro e he
      rw [Tree.fields_withExtra] at he
      rw [h e.1 e.2.kind (Tree.ofKey?_of_mem_fields he), filled.fields e he]
    · exact Tree.extra_withExtra _ (filled.keys ▸ k.keys_ne_nil)
  rw [hk] at fits
  cases fits

theorem Agree.findSome? (h : Agree ms ms') (vs : List Variant)
    (same : ∀ t, vs.findSome? (·.read ms) = some t → extra ms t.keys = extra ms' t.keys) :
    vs.findSome? (·.read ms') = vs.findSome? (·.read ms) := by
  induction vs with
  | nil => rfl
  | cons k vs ih =>
    rw [List.findSome?_cons, List.findSome?_cons]
    cases hk : k.read ms with
    | some t =>
      have filled := Variant.read_eq_some.mp hk
      have same := same t (by rw [List.findSome?_cons, hk])
      have hk' : k.read ms' = some t :=
        Variant.read_eq_some.mpr (h.fills filled (filled.keys ▸ same))
      rw [hk']
    | none =>
      rw [h.read_eq_none hk]
      exact ih fun t ht => same t (by rw [List.findSome?_cons, hk, ht])

theorem Agree.node_eq (h : Agree ms ms')
    (same : extra ms (node ms).keys = extra ms' (node ms).keys) : node ms' = node ms := by
  have found : Variant.all.findSome? (·.read ms') = Variant.all.findSome? (·.read ms) := by
    apply h.findSome? Variant.all
    intro t ht
    rwa [node_eq_findSome?, ht] at same
  rw [node_eq_findSome?, node_eq_findSome?, found]
  cases ht : Variant.all.findSome? (·.read ms) with
  | some t => rfl
  | none =>
    rw [node_eq_findSome?, ht] at same
    exact congrArg (fun es => Tree.other (.object es)) same.symm

end Member

end Lojban
