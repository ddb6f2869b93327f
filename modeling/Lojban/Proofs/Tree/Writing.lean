import Lojban.Proofs.Tree.Reading

namespace Lojban

open Entries (DistinctKeys get? get?_append get?_eq_none get?_filter get?_filterMap)
open Json (canonicalFields get?_canonicalFields canonicalFields_congr)

namespace Json

theorem string?_eq_some {v : Json} {s : String} : v.string? = some s ↔ v = string s := by
  cases v <;> simp [string?]

theorem bool?_eq_some {v : Json} {b : Bool} : v.bool? = some b ↔ v = bool b := by
  cases v <;> simp [bool?]

theorem eq_place_of_place? {v : Json} {n : Nat} (h : v.place? = some n) : v = place n := by
  cases v with
  | number m =>
    cases m with
    | int i =>
      simp only [place?, Number.place?] at h
      split at h
      · rename_i bound
        have value : (n : Int) = i := by
          rw [← Option.some.inj h]
          exact Int.toNat_of_nonneg bound.1
        rw [place, value]
      · cases h
    | float x => cases h
  | _ => cases h

theorem eq_places_of_places? {v : Json} {ns : List Nat} (h : v.places? = some ns) :
    v = places ns := by
  cases v with
  | array vs =>
    rw [places]
    rw [places?] at h
    congr
    induction vs generalizing ns with
    | nil =>
      cases h
      rfl
    | cons v vs ih =>
      simp only [List.mapM_cons, bind, Option.bind_eq_some_iff, pure, Option.some.injEq] at h
      obtain ⟨n, hn, ns', hns, rfl⟩ := h
      rw [List.map_cons, ← eq_place_of_place? hn, ← ih hns]
  | _ => cases h

end Json

namespace Field

def write (f : Field) : Option Json := f.kind.write f.value

end Field

namespace Tree

def written (t : Tree) : Json.Fields :=
  t.fields.filterMap fun e => e.2.write.map fun v => (e.1, v)

theorem written_eq_flatMap (t : Tree) :
    t.written = t.fields.flatMap fun e => Json.given e.1 e.2.write := by
  rw [written]
  induction t.fields with
  | nil => rfl
  | cons e fs ih =>
    rw [List.filterMap_cons, List.flatMap_cons, ← ih]
    cases e.2.write <;> rfl

theorem filled_toJsonAll (key : String) (ts : List Tree) :
    Json.filled key (toJsonAll ts) = Json.given key (FieldKind.nodes.write ts) := by
  cases ts with
  | nil => rfl
  | cons t ts => simp [toJsonAll, toJsonAll_eq, Json.filled, Json.given, FieldKind.write]

theorem toJson_eq_object {t : Tree} (h : t.keys ≠ []) :
    t.toJson = .object (t.written ++ t.extra) := by
  rw [written_eq_flatMap]
  cases t with
  | leaf l =>
    rw [toJson, Leaf.toJson]
    simp [fields, extra, Field.write, FieldKind.write, Json.given]
  | bridi b =>
    rw [toJson]
    simp [fields, extra, Field.write, filled_toJsonAll, toJsonOption_eq]
    simp [FieldKind.write, Json.given]
  | conjunction c =>
    rw [toJson]
    simp [fields, extra, Field.write, filled_toJsonAll, toJsonOption_eq]
    simp [FieldKind.write, Json.given]
  | tail u =>
    rw [toJson]
    simp [fields, extra, Field.write, filled_toJsonAll, toJsonOption_eq]
    simp [FieldKind.write, Json.given]
  | term u =>
    rw [toJson]
    simp [fields, extra, Field.write, toJsonOption_eq]
    simp [FieldKind.write, Json.given]
  | wrapper w =>
    rw [toJson]
    simp [fields, extra, Field.write, toJsonOption_eq]
    simp [FieldKind.write, Json.given]
  | composite => exact absurd rfl h
  | text => exact absurd rfl h
  | other => exact absurd rfl h

theorem items?_ofJson {v : Json} {ts : List Tree} (h : (ofJson v).items? = some ts) :
    ∃ vs, v = .array vs ∧ ts = vs.map ofJson := by
  cases v with
  | array vs =>
    rw [ofJson_array] at h
    exact ⟨vs, rfl, (Option.some.inj h).symm⟩
  | object es =>
    rw [ofJson] at h
    rcases Member.node_cases (members es) with ⟨k, filled⟩ | other
    · have keys := filled.keys
      cases hn : Member.node (members es) with
      | composite ts =>
        rw [hn] at keys
        exact absurd keys.symm k.keys_ne_nil
      | _ =>
        rw [hn] at h
        cases h
    · rw [other] at h
      cases h
  | _ => cases h

end Tree

namespace FieldKind

theorem map_eq_of_optionalView {α : Type} {read : Json → Option α} {back : α → Json}
    (exact : ∀ v a, read v = some a → v = back a) {o : Option Json} {a : Option α}
    (h : optionalView read o = some a) :
    a.map back = o.bind fun v => if v = .null then none else some v := by
  cases o with
  | none =>
    cases h
    rfl
  | some v =>
    simp only [optionalView] at h
    rw [Option.bind_some]
    split at h
    · cases h
      rw [if_pos ‹_›]
      rfl
    · rename_i hv
      obtain ⟨b, hb, rfl⟩ := Option.map_eq_some_iff.mp h
      rw [if_neg hv, exact v b hb]
      rfl

theorem canonical_write (k : FieldKind) {o : Option Json} {a : k.Value} (h : k.view o = some a)
    (same : ∀ v ∈ o, (Tree.ofJson v).toJson.canonical = (Tree.prune v).canonical) :
    (k.write a).map Json.canonical =
      (o.bind fun v => k.prune v (Tree.prune v)).map Json.canonical := by
  cases k with
  | text =>
    obtain ⟨v, rfl, hv⟩ := Option.bind_eq_some_iff.mp h
    rw [Json.string?_eq_some.mp hv]
    rfl
  | label =>
    rw [write, map_eq_of_optionalView (fun _ _ => Json.string?_eq_some.mp) h]
    rfl
  | place =>
    rw [write, map_eq_of_optionalView (fun _ _ => Json.eq_place_of_place?) h]
    rfl
  | places =>
    rw [write, map_eq_of_optionalView (fun _ _ => Json.eq_places_of_places?) h]
    rfl
  | flag =>
    cases o with
    | none =>
      cases h
      rfl
    | some v =>
      rw [Json.bool?_eq_some.mp h]
      cases a <;> rfl
  | node =>
    obtain ⟨v, rfl, rfl⟩ := Option.map_eq_some_iff.mp h
    exact congrArg some (same v rfl)
  | link =>
    cases o with
    | none =>
      cases h
      rfl
    | some v =>
      simp only [view, optionalView] at h
      simp only [prune, Option.bind_some]
      split at h
      · cases h
        rw [if_pos ‹_›]
        rfl
      · cases h
        rw [if_neg ‹_›]
        exact congrArg some (same v rfl)
  | nodes =>
    cases o with
    | none =>
      cases h
      rfl
    | some v =>
      obtain ⟨vs, rfl, rfl⟩ := Tree.items?_ofJson h
      cases vs with
      | nil => rfl
      | cons v vs =>
        have same := same _ rfl
        rw [Tree.ofJson_array, Tree.toJson_composite] at same
        simpa [write, prune] using same

theorem distinct_write (k : FieldKind) {o : Option Json} {a : k.Value} (h : k.view o = some a)
    (inner : ∀ v ∈ o, (Tree.ofJson v).toJson.Distinct) : ∀ w ∈ k.write a, w.Distinct := by
  intro w hw
  cases k with
  | text =>
    cases hw
    trivial
  | label =>
    obtain ⟨s, -, rfl⟩ := Option.map_eq_some_iff.mp hw
    trivial
  | flag =>
    simp only [write] at hw
    split at hw
    · cases hw
      trivial
    · cases hw
  | place =>
    obtain ⟨n, -, rfl⟩ := Option.map_eq_some_iff.mp hw
    trivial
  | places =>
    obtain ⟨ns, -, rfl⟩ := Option.map_eq_some_iff.mp hw
    simp [Json.places, Json.place]
  | node =>
    obtain ⟨v, rfl, rfl⟩ := Option.map_eq_some_iff.mp h
    cases hw
    exact inner v rfl
  | link =>
    obtain ⟨t, rfl, rfl⟩ := Option.map_eq_some_iff.mp hw
    cases o with
    | none => cases h
    | some v =>
      simp only [view, optionalView] at h
      split at h
      · cases h
      · cases h
        exact inner v rfl
  | nodes =>
    cases o with
    | none =>
      cases h
      cases hw
    | some v =>
      obtain ⟨vs, rfl, rfl⟩ := Tree.items?_ofJson h
      have inner := inner _ rfl
      rw [Tree.ofJson_array, Tree.toJson_composite] at inner
      simp only [write] at hw
      split at hw
      · cases hw
      · cases hw
        exact inner

end FieldKind

namespace Tree

theorem Fills.distinctKeys {t : Tree} {ms : List Member} {k : Variant} (h : t.Fills ms k.keys) :
    DistinctKeys t.fields := by
  have nodup := k.nodup_keys
  rw [← h.keys] at nodup
  exact nodup

theorem Fills.get?_extra {t : Tree} {es : Json.Fields} {own : List String}
    (h : t.Fills (members es) own) (keys : DistinctKeys es) (key : String) :
    get? key t.extra = if key ∈ own then none else (get? key es).map Json.canonical := by
  rw [h.extra, Member.extra_members, get?_canonicalFields (keys.filter _),
    get?_filter fun k => !own.contains k]
  by_cases hk : key ∈ own
  · simp [hk]
  · simp [hk]

theorem distinctKeys_written {t : Tree} (h : DistinctKeys t.fields) : DistinctKeys t.written :=
  h.filterMap fun _ f => f.write

theorem get?_written {t : Tree} (h : DistinctKeys t.fields) (key : String) :
    get? key t.written = (get? key t.fields).bind Field.write :=
  get?_filterMap h (fun _ f => f.write) key

theorem Fills.distinctKeys_toJson {t : Tree} {es : Json.Fields} {k : Variant}
    (h : t.Fills (members es) k.keys) (keys : DistinctKeys es) :
    DistinctKeys (t.written ++ t.extra) := by
  have extra : DistinctKeys t.extra := by
    rw [h.extra, Member.extra_members]
    exact (Json.ordered_canonicalFields _).distinctKeys
  apply (distinctKeys_written h.distinctKeys).append extra
  intro key hk
  have own : key ∈ k.keys := by
    apply Decidable.byContradiction
    intro other
    have absent : get? key t.fields = none := get?_eq_none.mpr (by rwa [← h.keys] at other)
    refine get?_eq_none.mp ?_ hk
    rw [get?_written h.distinctKeys, absent, Option.bind_none]
  rw [← get?_eq_none, h.get?_extra keys, if_pos own]

/-- A node writes each own field that holds something, and what else the object held. -/
theorem Fills.get?_toJson {t : Tree} {es : Json.Fields} {k : Variant}
    (h : t.Fills (members es) k.keys) (keys : DistinctKeys es)
    (same : ∀ e ∈ es, (ofJson e.2).toJson.canonical = (prune e.2).canonical) (key : String) :
    (get? key (t.written ++ t.extra)).map Json.canonical =
      (get? key (pruneEntries k.keys es)).map Json.canonical := by
  rw [get?_append, get?_written h.distinctKeys, h.get?_extra keys]
  cases hf : get? key t.fields with
  | none =>
    have other : key ∉ k.keys := h.keys ▸ get?_eq_none.mp hf
    rw [get?_pruneEntries_of_not_mem keys other, if_neg other]
    simp [Function.comp_def]
  | some f =>
    have member := Entries.mem_of_get? hf
    have own : key ∈ k.keys := h.keys ▸ List.mem_map_of_mem member
    have kind : FieldKind.ofKey? key = some f.kind := ofKey?_of_mem_fields member
    have value : f.kind.view (get? key es) = some f.value := by
      rw [← f.kind.read_members keys]
      exact h.fields _ member
    rw [get?_pruneEntries keys, if_pos own, Option.bind_some, Option.or_none]
    simp only [pruneEntry, kind, if_pos own]
    exact f.kind.canonical_write value fun v hv => same _ (Entries.mem_of_get? hv)

theorem distinct_toJson_ofJson {v : Json} (h : v.Distinct) : (ofJson v).toJson.Distinct := by
  induction v with
  | array vs ih =>
    rw [Json.distinct_array] at h
    rw [ofJson_array, toJson_composite, Json.distinct_array]
    intro w hw
    obtain ⟨t, ht, rfl⟩ := List.mem_map.mp hw
    obtain ⟨v, hv, rfl⟩ := List.mem_map.mp ht
    exact ih v hv (h v hv)
  | object es ih =>
    obtain ⟨keys, inner⟩ := Json.distinct_object.mp h
    rw [ofJson]
    rcases Member.node_cases (members es) with ⟨k, filled⟩ | other
    · rw [toJson_eq_object (filled.keys ▸ k.keys_ne_nil), Json.distinct_object]
      refine ⟨filled.distinctKeys_toJson keys, ?_⟩
      intro e he
      rcases List.mem_append.mp he with he | he
      · obtain ⟨⟨key, f⟩, hf, hmap⟩ := List.mem_filterMap.mp he
        obtain ⟨w, hw, rfl⟩ := Option.map_eq_some_iff.mp hmap
        have value := filled.fields _ hf
        rw [f.kind.read_members keys] at value
        refine f.kind.distinct_write value (fun v hv => ?_) w hw
        have member := Entries.mem_of_get? hv
        exact ih _ member (inner _ member)
      · rw [filled.extra] at he
        exact Json.distinct_of_mem_canonicalFields (Member.extra_members es k.keys ▸ he)
    · rw [other, Member.extra_members, toJson, ← Json.canonical_object]
      exact Json.distinct_canonical _
  | _ => trivial

theorem canonical_toJson_ofJson {v : Json} (h : v.Distinct) :
    (ofJson v).toJson.canonical = (prune v).canonical := by
  induction v with
  | array vs ih =>
    rw [Json.distinct_array] at h
    simp only [ofJson_array, toJson_composite, prune_array, Json.canonical_array, List.map_map]
    exact congrArg Json.array (List.map_congr_left fun v hv => ih v hv (h v hv))
  | object es ih =>
    obtain ⟨keys, inner⟩ := Json.distinct_object.mp h
    have same : ∀ e ∈ es, (ofJson e.2).toJson.canonical = (prune e.2).canonical :=
      fun e he => ih e he (inner e he)
    rw [prune, ofJson]
    rcases Member.node_cases (members es) with ⟨k, filled⟩ | other
    · rw [toJson_eq_object (filled.keys ▸ k.keys_ne_nil), filled.keys, Json.canonical_object,
        Json.canonical_object]
      refine congrArg Json.object ?_
      exact canonicalFields_congr (filled.distinctKeys_toJson keys)
        (distinctKeys_pruneEntries keys _) (filled.get?_toJson keys same)
    · have whole : Member.extra (members es) [] = canonicalFields es := by
        have all : es.filter (fun e => !List.contains [] e.1) = es :=
          List.filter_eq_self.mpr fun _ _ => rfl
        rw [Member.extra_members, all]
      have own : Tree.keys (.other (.object (canonicalFields es))) = [] := rfl
      rw [other, whole, own, toJson, ← Json.canonical_object, Json.canonical_canonical,
        Json.canonical_object, Json.canonical_object]
      refine congrArg Json.object ?_
      apply canonicalFields_congr keys (distinctKeys_pruneEntries keys _)
      intro key
      rw [get?_pruneEntries_of_not_mem keys List.not_mem_nil]
  | _ => rfl

end Tree

end Lojban
