import Lojban.Json.Basic
import Lojban.Proofs.Table.Lookup

namespace Lojban.Json

open Entries (DistinctKeys Ordered get? get?_filter get?_sort get?_map)

@[elab_as_elim, induction_eliminator]
theorem induct {P : Json → Prop} (null : P null) (bool : ∀ b, P (bool b))
    (number : ∀ n, P (number n)) (string : ∀ s, P (string s))
    (array : ∀ vs, (∀ v ∈ vs, P v) → P (array vs))
    (object : ∀ es, (∀ e ∈ es, P e.2) → P (object es)) (v : Json) : P v :=
  match v with
  | .null => null
  | .bool b => bool b
  | .number n => number n
  | .string s => string s
  | .array vs => array vs fun v _ => induct null bool number string array object v
  | .object es => object es fun e _ => induct null bool number string array object e.2
termination_by sizeOf v
decreasing_by
  · have := List.sizeOf_lt_of_mem ‹v ∈ vs›
    simp only [Json.array.sizeOf_spec]
    omega
  · have := List.sizeOf_lt_of_mem ‹e ∈ es›
    have : sizeOf e.2 < sizeOf e := by
      obtain ⟨key, u⟩ := e
      have pair : sizeOf (key, u) = 1 + sizeOf key + sizeOf u := Prod.mk.sizeOf_spec key u
      show sizeOf u < sizeOf (key, u)
      omega
    simp only [Json.object.sizeOf_spec]
    omega

theorem canonicalItems_eq (vs : List Json) : canonicalItems vs = vs.map canonical := by
  induction vs with
  | nil => rfl
  | cons v vs ih => simp only [canonicalItems, ih, List.map_cons]

theorem canonicalEntries_eq (es : Fields) :
    canonicalEntries es = es.map fun e => (e.1, e.2.canonical) := by
  induction es with
  | nil => rfl
  | cons e es ih => simp only [canonicalEntries, ih, List.map_cons]

@[simp] theorem canonical_array (vs : List Json) :
    (array vs).canonical = array (vs.map canonical) := by
  rw [canonical, canonicalItems_eq]

def canonicalFields (es : Fields) : Fields := Entries.sort (es.map fun e => (e.1, e.2.canonical))

@[simp] theorem canonical_object (es : Fields) :
    (object es).canonical = object (canonicalFields es) := by
  rw [canonical, canonicalEntries_eq, canonicalFields]

theorem ordered_canonicalFields (es : Fields) : Ordered (canonicalFields es) :=
  Entries.ordered_sort _

mutual

/-- No object repeats a key, at any depth. -/
def Distinct : Json → Prop
  | array vs => DistinctItems vs
  | object es => DistinctKeys es ∧ DistinctEntries es
  | _ => True

def DistinctItems : List Json → Prop
  | [] => True
  | v :: vs => v.Distinct ∧ DistinctItems vs

def DistinctEntries : List (String × Json) → Prop
  | [] => True
  | (_, v) :: es => v.Distinct ∧ DistinctEntries es

end

@[simp] theorem distinct_array {vs : List Json} :
    (array vs).Distinct ↔ ∀ v ∈ vs, v.Distinct := by
  rw [Distinct]
  induction vs with
  | nil => simp [DistinctItems]
  | cons v vs ih => simp [DistinctItems, ih]

@[simp] theorem distinct_object {es : Fields} :
    (object es).Distinct ↔ DistinctKeys es ∧ ∀ e ∈ es, e.2.Distinct := by
  have entries : DistinctEntries es ↔ ∀ e ∈ es, e.2.Distinct := by
    induction es with
    | nil => simp [DistinctEntries]
    | cons e es ih => simp [DistinctEntries, ih]
  rw [Distinct, entries]

@[simp] theorem distinct_null : null.Distinct := trivial
@[simp] theorem distinct_bool (b : Bool) : (bool b).Distinct := trivial
@[simp] theorem distinct_number (n : Number) : (number n).Distinct := trivial
@[simp] theorem distinct_string (s : String) : (string s).Distinct := trivial

theorem get?_canonicalFields {es : Fields} (h : DistinctKeys es) (k : String) :
    get? k (canonicalFields es) = (get? k es).map canonical := by
  have keys : DistinctKeys (es.map fun e => (e.1, e.2.canonical)) := by
    rw [DistinctKeys, Entries.keys_map]
    exact h
  rw [canonicalFields, get?_sort keys, get?_map]

theorem canonicalFields_congr {es fs : Fields} (he : DistinctKeys es) (hf : DistinctKeys fs)
    (same : ∀ k, (get? k es).map canonical = (get? k fs).map canonical) :
    canonicalFields es = canonicalFields fs := by
  apply (ordered_canonicalFields es).ext (ordered_canonicalFields fs)
  intro k
  rw [get?_canonicalFields he, get?_canonicalFields hf, same]

theorem distinct_canonical (v : Json) : v.canonical.Distinct := by
  induction v with
  | array vs ih => simpa using ih
  | object es ih =>
    rw [canonical_object, distinct_object]
    refine ⟨(ordered_canonicalFields es).distinctKeys, ?_⟩
    intro e he
    obtain ⟨d, hd, rfl⟩ := List.mem_map.mp (Entries.mem_of_mem_sort he)
    exact ih d hd
  | _ => trivial

theorem distinct_of_mem_canonicalFields {es : Fields} {e : String × Json}
    (h : e ∈ canonicalFields es) : e.2.Distinct := by
  have whole := distinct_canonical (object es)
  rw [canonical_object, distinct_object] at whole
  exact whole.2 e h

@[simp] theorem canonical_canonical (v : Json) : v.canonical.canonical = v.canonical := by
  induction v with
  | array vs ih =>
    rw [canonical_array, canonical_array, List.map_map]
    exact congrArg array (List.map_congr_left ih)
  | object es ih =>
    have fixed : (canonicalFields es).map (fun e => (e.1, e.2.canonical)) = canonicalFields es := by
      refine (List.map_congr_left fun e he => ?_).trans (List.map_id _)
      obtain ⟨d, hd, rfl⟩ := List.mem_map.mp (Entries.mem_of_mem_sort he)
      simp only [ih d hd, id]
    rw [canonical_object, canonical_object, canonicalFields, fixed,
      (ordered_canonicalFields es).sort_eq]
  | _ => rfl

@[simp] theorem canonical_eq_null {v : Json} : v.canonical = null ↔ v = null := by
  cases v <;> simp [canonical]

variable {key : String}

theorem eraseItems_eq (vs : List Json) : eraseItems key vs = vs.map (erase key) := by
  induction vs with
  | nil => rfl
  | cons v vs ih => simp only [eraseItems, ih, List.map_cons]

theorem eraseEntries_eq (es : Fields) :
    eraseEntries key es = (es.filter fun e => e.1 != key).map fun e => (e.1, e.2.erase key) := by
  induction es with
  | nil => rfl
  | cons e es ih =>
    rw [eraseEntries, List.filter_cons, ih]
    by_cases hk : e.1 = key
    · simp [hk]
    · simp [hk]

@[simp] theorem erase_array (vs : List Json) : (array vs).erase key = array (vs.map (erase key)) := by
  rw [erase, eraseItems_eq]

theorem eraseEntries_append (es fs : Fields) :
    eraseEntries key (es ++ fs) = eraseEntries key es ++ eraseEntries key fs := by
  rw [eraseEntries_eq, eraseEntries_eq, eraseEntries_eq, List.filter_append, List.map_append]

theorem eraseEntries_filter (p : String → Bool) (es : Fields) :
    eraseEntries key (es.filter fun e => p e.1) = (eraseEntries key es).filter fun e => p e.1 := by
  rw [eraseEntries_eq, eraseEntries_eq, List.filter_map, List.filter_filter, List.filter_filter]
  congr 2
  funext e
  exact Bool.and_comm _ _

theorem get?_eraseEntries (k : String) (es : Fields) :
    get? k (eraseEntries key es) = if k = key then none else (get? k es).map (erase key) := by
  rw [eraseEntries_eq, get?_map, get?_filter (fun k => k != key)]
  by_cases hk : k = key
  · simp [hk]
  · simp [hk]

theorem distinctKeys_eraseEntries {es : Fields} (h : DistinctKeys es) :
    DistinctKeys (eraseEntries key es) := by
  rw [eraseEntries_eq, DistinctKeys, Entries.keys_map]
  exact h.filter _

theorem ordered_eraseEntries {es : Fields} (h : Ordered es) : Ordered (eraseEntries key es) := by
  rw [eraseEntries_eq]
  exact List.pairwise_map.mpr (List.Pairwise.filter _ h)

theorem canonicalFields_eraseEntries {es : Fields} (keys : DistinctKeys es)
    (same : ∀ e ∈ es, (e.2.erase key).canonical = e.2.canonical.erase key) :
    canonicalFields (eraseEntries key es) = eraseEntries key (canonicalFields es) := by
  apply (ordered_canonicalFields _).ext (ordered_eraseEntries (ordered_canonicalFields es))
  intro k
  rw [get?_canonicalFields (distinctKeys_eraseEntries keys), get?_eraseEntries, get?_eraseEntries,
    get?_canonicalFields keys]
  by_cases hk : k = key
  · rw [if_pos hk, if_pos hk, Option.map_none]
  · rw [if_neg hk, if_neg hk, Option.map_map, Option.map_map]
    apply Option.map_congr
    intro v hv
    exact same (k, v) (Entries.mem_of_get? hv)

theorem canonical_erase {v : Json} (h : v.Distinct) :
    (v.erase key).canonical = v.canonical.erase key := by
  induction v with
  | array vs ih =>
    rw [distinct_array] at h
    simp only [erase_array, canonical_array, List.map_map]
    exact congrArg array (List.map_congr_left fun v hv => ih v hv (h v hv))
  | object es ih =>
    obtain ⟨keys, inner⟩ := distinct_object.mp h
    rw [erase, canonical_object, canonical_object, erase]
    exact congrArg object (canonicalFields_eraseEntries keys fun e he => ih e he (inner e he))
  | _ => rfl

end Lojban.Json
