import Lojban.Proofs.Tree.Variant

/-!
What a tree read from a value depends on. The order of entries does not matter, nor do the entries
that stand for nothing: an optional field that holds null, a flag that is not set, a list of no nodes.
-/

namespace Lojban

open Entries (DistinctKeys get? get?_filter get?_filterMap)
open Json (canonicalFields get?_canonicalFields canonicalFields_congr)

namespace Json

@[simp] theorem string?_canonical (v : Json) : v.canonical.string? = v.string? := by
  cases v <;> simp [canonical, string?]

@[simp] theorem bool?_canonical (v : Json) : v.canonical.bool? = v.bool? := by
  cases v <;> simp [canonical, bool?]

@[simp] theorem place?_canonical (v : Json) : v.canonical.place? = v.place? := by
  cases v <;> simp [canonical, place?]

@[simp] theorem places?_canonical (v : Json) : v.canonical.places? = v.places? := by
  cases v with
  | array vs => simp [places?, List.mapM_map, Function.comp_def]
  | object es =>
    rw [canonical_object]
    rfl
  | _ => rfl

end Json

namespace FieldKind

/-- What is kept of an own field that holds `v`, or holds `pruned` where it is read as nodes. -/
def prune : FieldKind → (v pruned : Json) → Option Json
  | text, v, _ => some v
  | label, v, _ => if v = .null then none else some v
  | flag, v, _ => if v = .bool false then none else some v
  | place, v, _ => if v = .null then none else some v
  | places, v, _ => if v = .null then none else some v
  | node, _, pruned => some pruned
  | link, v, pruned => if v = .null then none else some pruned
  | nodes, v, pruned => if v = .array [] then none else some pruned

theorem view_canonical (k : FieldKind) {o : Option Json}
    (same : ∀ v ∈ o, Tree.ofJson v.canonical = Tree.ofJson v) :
    k.view (o.map Json.canonical) = k.view o := by
  cases o with
  | none => rfl
  | some v =>
    have same := same v rfl
    cases k <;> simp [view, optionalView, defaultedView, same]

end FieldKind

namespace Tree

theorem ofJson_canonical {v : Json} (h : v.Distinct) : ofJson v.canonical = ofJson v := by
  induction v with
  | array vs ih =>
    rw [Json.distinct_array] at h
    rw [Json.canonical_array, ofJson_array, ofJson_array, List.map_map]
    exact congrArg composite (List.map_congr_left fun v hv => ih v hv (h v hv))
  | object es ih =>
    obtain ⟨keys, inner⟩ := Json.distinct_object.mp h
    have keys' : DistinctKeys (canonicalFields es) := (Json.ordered_canonicalFields es).distinctKeys
    have agree : Member.Agree (members es) (members (canonicalFields es)) := by
      intro key kind _
      rw [kind.read_members keys, kind.read_members keys', get?_canonicalFields keys,
        kind.view_canonical]
      intro v hv
      have member := Entries.mem_of_get? hv
      exact ih _ member (inner _ member)
    have extra (own : List String) :
        Member.extra (members es) own = Member.extra (members (canonicalFields es)) own := by
      rw [Member.extra_members, Member.extra_members]
      apply canonicalFields_congr (keys.filter _) (keys'.filter _)
      intro k
      rw [get?_filter (fun k => !own.contains k), get?_filter (fun k => !own.contains k),
        get?_canonicalFields keys]
      split
      · simp [Option.map_map, Function.comp_def]
      · rfl
    rw [Json.canonical_object, ofJson, ofJson]
    exact agree.node_eq (extra _)
  | _ => rfl

def pruneEntry (own : List String) (key : String) (v pruned : Json) : Option Json :=
  match FieldKind.ofKey? key with
  | some kind => if key ∈ own then kind.prune v pruned else some v
  | none => some v

theorem eq_or_eq_of_pruneEntry {own : List String} {key : String} {v pruned w : Json}
    (h : pruneEntry own key v pruned = some w) : w = v ∨ w = pruned := by
  simp only [pruneEntry] at h
  split at h
  · split at h
    · rename_i kind _ _
      cases kind <;> simp only [FieldKind.prune] at h <;> grind
    · exact .inl (Option.some.inj h).symm
  · exact .inl (Option.some.inj h).symm

mutual

/-- The value without the own fields of its nodes that hold nothing. -/
def prune : Json → Json
  | .array vs => .array (pruneAll vs)
  | .object es => .object (pruneEntries (Member.node (members es)).keys es)
  | v => v

def pruneAll : List Json → List Json
  | [] => []
  | v :: vs => prune v :: pruneAll vs

def pruneEntries (own : List String) : List (String × Json) → List (String × Json)
  | [] => []
  | (key, v) :: es =>
    ((pruneEntry own key v (prune v)).map (key, ·)).toList ++ pruneEntries own es

end

theorem pruneAll_eq (vs : List Json) : pruneAll vs = vs.map prune := by
  induction vs with
  | nil => rfl
  | cons v vs ih => simp only [pruneAll, ih, List.map_cons]

theorem pruneEntries_eq (own : List String) (es : Json.Fields) :
    pruneEntries own es =
      es.filterMap fun e => (pruneEntry own e.1 e.2 (prune e.2)).map fun v => (e.1, v) := by
  induction es with
  | nil => rfl
  | cons e es ih =>
    rw [pruneEntries, ih, List.filterMap_cons]
    cases pruneEntry own e.1 e.2 (prune e.2) <;> rfl

@[simp] theorem prune_array (vs : List Json) : prune (.array vs) = .array (vs.map prune) := by
  rw [prune, pruneAll_eq]

theorem prune_object (es : Json.Fields) :
    prune (.object es) = .object (pruneEntries (ofJson (.object es)).keys es) := by
  rw [prune, ofJson]

@[simp] theorem prune_eq_null {v : Json} : prune v = .null ↔ v = .null := by
  cases v <;> simp [prune]

theorem get?_pruneEntries {es : Json.Fields} (h : DistinctKeys es) (own : List String)
    (key : String) :
    get? key (pruneEntries own es) =
      (get? key es).bind fun v => pruneEntry own key v (prune v) := by
  rw [pruneEntries_eq, get?_filterMap h fun key v => pruneEntry own key v (prune v)]

theorem distinctKeys_pruneEntries {es : Json.Fields} (h : DistinctKeys es) (own : List String) :
    DistinctKeys (pruneEntries own es) := by
  rw [pruneEntries_eq]
  exact h.filterMap fun key v => pruneEntry own key v (prune v)

theorem get?_pruneEntries_of_not_mem {es : Json.Fields} (h : DistinctKeys es)
    {own : List String} {key : String} (other : key ∉ own) :
    get? key (pruneEntries own es) = get? key es := by
  have kept (v pruned : Json) : pruneEntry own key v pruned = some v := by
    rw [pruneEntry]
    split
    · rw [if_neg other]
    · rfl
  simp only [get?_pruneEntries h, kept, Option.bind_fun_some]

end Tree

namespace FieldKind

theorem optionalView_ite {α : Type} {read : Json → Option α} {v w : Json}
    (null : w = .null ↔ v = .null) (same : read w = read v) :
    optionalView read (if v = .null then none else some w) = optionalView read (some v) := by
  by_cases hv : v = .null
  · rw [if_pos hv, hv]
    rfl
  · have hw : w ≠ .null := fun h => hv (null.mp h)
    rw [if_neg hv, optionalView, if_neg hw, same, optionalView, if_neg hv]

theorem defaultedView_ite {α : Type} {blank : α} {read : Json → Option α} {empty v w : Json}
    (nothing : read empty = some blank) (same : read w = read v) :
    defaultedView blank read (if v = empty then none else some w) =
      defaultedView blank read (some v) := by
  by_cases hv : v = empty
  · rw [if_pos hv, hv]
    exact nothing.symm
  · rw [if_neg hv]
    exact same

theorem view_prune (k : FieldKind) {o : Option Json}
    (same : ∀ v ∈ o, Tree.ofJson (Tree.prune v) = Tree.ofJson v) :
    k.view (o.bind fun v => k.prune v (Tree.prune v)) = k.view o := by
  cases o with
  | none => rfl
  | some v =>
    have same : Tree.ofJson (Tree.prune v) = Tree.ofJson v := same v rfl
    cases k with
    | text => rfl
    | label => exact optionalView_ite Iff.rfl rfl
    | flag => exact defaultedView_ite rfl rfl
    | place => exact optionalView_ite Iff.rfl rfl
    | places => exact optionalView_ite Iff.rfl rfl
    | node => exact congrArg some same
    | link => exact optionalView_ite Tree.prune_eq_null (congrArg some same)
    | nodes =>
      have nothing : (Tree.ofJson (.array [])).items? = some [] := by
        rw [Tree.ofJson_array]
        rfl
      exact defaultedView_ite nothing (congrArg Tree.items? same)

end FieldKind

namespace Tree

theorem ofJson_prune {v : Json} (h : v.Distinct) : ofJson (prune v) = ofJson v := by
  induction v with
  | array vs ih =>
    rw [Json.distinct_array] at h
    rw [prune_array, ofJson_array, ofJson_array, List.map_map]
    exact congrArg composite (List.map_congr_left fun v hv => ih v hv (h v hv))
  | object es ih =>
    obtain ⟨keys, inner⟩ := Json.distinct_object.mp h
    have keys' := distinctKeys_pruneEntries keys (ofJson (.object es)).keys
    have agree : Member.Agree (members es)
        (members (pruneEntries (ofJson (.object es)).keys es)) := by
      intro key kind hkind
      rw [kind.read_members keys, kind.read_members keys']
      by_cases own : key ∈ (ofJson (.object es)).keys
      · rw [get?_pruneEntries keys]
        simp only [pruneEntry, hkind, if_pos own]
        refine (kind.view_prune fun v hv => ?_).symm
        have member := Entries.mem_of_get? hv
        exact ih _ member (inner _ member)
      · rw [get?_pruneEntries_of_not_mem keys own]
    have extra : Member.extra (members es) (ofJson (.object es)).keys =
        Member.extra (members (pruneEntries (ofJson (.object es)).keys es))
          (ofJson (.object es)).keys := by
      rw [Member.extra_members, Member.extra_members]
      apply canonicalFields_congr (keys.filter _) (keys'.filter _)
      intro k
      rw [get?_filter (fun k => !(ofJson (.object es)).keys.contains k),
        get?_filter (fun k => !(ofJson (.object es)).keys.contains k)]
      split
      · rename_i other
        have other : k ∉ (ofJson (.object es)).keys := by simpa using other
        rw [get?_pruneEntries_of_not_mem keys other]
      · rfl
    rw [prune_object, ofJson]
    conv => rhs; rw [ofJson]
    exact agree.node_eq (by simpa only [ofJson] using extra)
  | _ => rfl

theorem distinct_prune {v : Json} (h : v.Distinct) : (prune v).Distinct := by
  induction v with
  | array vs ih =>
    rw [Json.distinct_array] at h
    rw [prune_array, Json.distinct_array]
    intro w hw
    obtain ⟨v, hv, rfl⟩ := List.mem_map.mp hw
    exact ih v hv (h v hv)
  | object es ih =>
    obtain ⟨keys, inner⟩ := Json.distinct_object.mp h
    rw [prune_object, Json.distinct_object]
    refine ⟨distinctKeys_pruneEntries keys _, ?_⟩
    intro e he
    rw [pruneEntries_eq] at he
    obtain ⟨d, hd, hmap⟩ := List.mem_filterMap.mp he
    obtain ⟨w, hw, rfl⟩ := Option.map_eq_some_iff.mp hmap
    rcases eq_or_eq_of_pruneEntry hw with rfl | rfl
    · exact inner d hd
    · exact ih d hd (inner d hd)
  | _ => trivial

end Tree

end Lojban
