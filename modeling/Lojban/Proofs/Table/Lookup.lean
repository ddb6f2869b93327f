import Lojban.Table

namespace Lojban.Entries

variable {κ α β : Type}

def keys (es : Entries κ α) : List κ := es.map Prod.fst

def DistinctKeys (es : Entries κ α) : Prop := es.keys.Nodup

@[simp] theorem keys_nil : keys ([] : Entries κ α) = [] := rfl

@[simp] theorem keys_cons (e : κ × α) (es : Entries κ α) : keys (e :: es) = e.1 :: keys es := rfl

@[simp] theorem keys_append (es fs : Entries κ α) : keys (es ++ fs) = keys es ++ keys fs :=
  List.map_append

@[simp] theorem distinctKeys_nil : DistinctKeys ([] : Entries κ α) := List.nodup_nil

@[simp] theorem distinctKeys_cons {e : κ × α} {es : Entries κ α} :
    DistinctKeys (e :: es) ↔ e.1 ∉ keys es ∧ DistinctKeys es := List.nodup_cons

theorem keys_map (f : κ × α → β) (es : Entries κ α) :
    keys (es.map fun e => (e.1, f e)) = keys es := by
  simp only [keys, List.map_map]
  rfl

theorem DistinctKeys.filterMap {es : Entries κ α} (h : DistinctKeys es) (f : κ → α → Option β) :
    DistinctKeys (es.filterMap fun e => (f e.1 e.2).map fun b => (e.1, b)) := by
  induction es with
  | nil => exact List.nodup_nil
  | cons e es ih =>
    have ⟨fresh, rest⟩ := distinctKeys_cons.mp h
    rw [List.filterMap_cons]
    cases hf : f e.1 e.2 with
    | none => exact ih rest
    | some b =>
      refine distinctKeys_cons.mpr ⟨fun member => fresh ?_, ih rest⟩
      obtain ⟨d', hd', heq⟩ := List.mem_map.mp member
      obtain ⟨d, hd, hfd⟩ := List.mem_filterMap.mp hd'
      obtain ⟨c, _, rfl⟩ := Option.map_eq_some_iff.mp hfd
      exact List.mem_map.mpr ⟨d, hd, heq⟩

theorem DistinctKeys.filter {es : Entries κ α} (h : DistinctKeys es) (p : κ × α → Bool) :
    DistinctKeys (es.filter p) :=
  h.sublist (List.filter_sublist.map Prod.fst)

theorem DistinctKeys.nodup {es : Entries κ α} (h : DistinctKeys es) : es.Nodup :=
  List.Pairwise.of_map Prod.fst (fun _ _ differ same => differ (congrArg Prod.fst same)) h

theorem DistinctKeys.append {es fs : Entries κ α} (he : DistinctKeys es) (hf : DistinctKeys fs)
    (apart : ∀ k ∈ keys es, k ∉ keys fs) : DistinctKeys (es ++ fs) := by
  rw [DistinctKeys, keys_append]
  refine List.nodup_append.mpr ⟨he, hf, ?_⟩
  intro j hj k hk same
  exact apart j hj (same ▸ hk)

variable [Ord κ]

@[simp] theorem get?_nil (k : κ) : get? k ([] : Entries κ α) = none := rfl

theorem mem_foldl_put {es acc : Entries κ α} {e : κ × α}
    (h : e ∈ es.foldl (fun acc e => acc.put e.1 e.2) acc) : e ∈ es ∨ e ∈ acc := by
  induction es generalizing acc with
  | nil => exact .inr h
  | cons f es ih =>
    rcases ih h with h | h
    · exact .inl (List.mem_cons_of_mem f h)
    · rcases mem_put h with rfl | h
      · exact .inl List.mem_cons_self
      · exact .inr h

theorem mem_of_mem_sort {es : Entries κ α} {e : κ × α} (h : e ∈ es.sort) : e ∈ es := by
  rcases mem_foldl_put h with h | h
  · exact h
  · simp at h

theorem Ordered.distinctKeys [Std.ReflOrd κ] {es : Entries κ α} (h : Ordered es) :
    DistinctKeys es := by
  refine List.pairwise_map.mpr (List.Pairwise.imp ?_ h)
  intro a b below same
  rw [same] at below
  exact absurd below (by simp [Std.ReflCmp.compare_self])

variable [Std.LawfulEqOrd κ] [DecidableEq κ]

theorem get?_cons (k : κ) (e : κ × α) (es : Entries κ α) :
    get? k (e :: es) = if k = e.1 then some e.2 else get? k es := by
  simp only [get?, beq_iff_eq, Std.LawfulEqCmp.compare_eq_iff_eq]

theorem get?_append (k : κ) (es fs : Entries κ α) :
    get? k (es ++ fs) = (get? k es).or (get? k fs) := by
  induction es with
  | nil => simp
  | cons e es ih =>
    simp only [List.cons_append, get?_cons, ih]
    split <;> simp

theorem get?_eq_none {k : κ} {es : Entries κ α} : get? k es = none ↔ k ∉ keys es := by
  induction es with
  | nil => simp
  | cons e es ih => by_cases hk : k = e.1 <;> simp [get?_cons, hk, ih]

theorem mem_of_get? {k : κ} {a : α} {es : Entries κ α} (h : get? k es = some a) : (k, a) ∈ es := by
  induction es with
  | nil => simp at h
  | cons e es ih =>
    rw [get?_cons] at h
    split at h
    · rename_i hk
      have ha : e.2 = a := Option.some.inj h
      rw [hk, ← ha]
      exact List.mem_cons_self
    · exact List.mem_cons_of_mem e (ih h)

theorem get?_of_mem {e : κ × α} {es : Entries κ α} (h : DistinctKeys es) (member : e ∈ es) :
    get? e.1 es = some e.2 := by
  induction es with
  | nil => simp at member
  | cons f es ih =>
    have ⟨fresh, rest⟩ := distinctKeys_cons.mp h
    rw [get?_cons]
    rcases List.mem_cons.mp member with rfl | member
    · simp
    · have differs : e.1 ≠ f.1 := fun hk => fresh (hk ▸ List.mem_map_of_mem member)
      rw [if_neg differs]
      exact ih rest member

/-- An entry may be dropped or given another value, each by its own key and value. -/
theorem get?_filterMap {es : Entries κ α} (h : DistinctKeys es) (f : κ → α → Option β) (k : κ) :
    get? k (es.filterMap fun e => (f e.1 e.2).map fun b => (e.1, b)) =
      (get? k es).bind (f k) := by
  induction es with
  | nil => rfl
  | cons e es ih =>
    have ⟨fresh, rest⟩ := distinctKeys_cons.mp h
    rw [get?_cons, List.filterMap_cons]
    cases hf : f e.1 e.2 with
    | none =>
      simp only [Option.map_none, ih rest]
      split
      · rename_i hk
        rw [get?_eq_none.mpr (hk ▸ fresh), Option.bind_none, Option.bind_some, hk, hf]
      · rfl
    | some b =>
      simp only [Option.map_some, get?_cons, ih rest]
      split
      · rename_i hk
        rw [Option.bind_some, hk, hf]
      · rfl

theorem get?_map_keyed (f : κ → α → β) (es : Entries κ α) (k : κ) :
    get? k (es.map fun e => (e.1, f e.1 e.2)) = (get? k es).map (f k) := by
  induction es with
  | nil => rfl
  | cons e es ih =>
    simp only [List.map_cons, get?_cons, ih]
    split
    · rename_i found
      rw [found, Option.map_some]
    · rfl

theorem get?_map (f : α → β) (es : Entries κ α) (k : κ) :
    get? k (es.map fun e => (e.1, f e.2)) = (get? k es).map f :=
  get?_map_keyed (fun _ => f) es k

theorem get?_filter (p : κ → Bool) (es : Entries κ α) (k : κ) :
    get? k (es.filter fun e => p e.1) = if p k then get? k es else none := by
  induction es with
  | nil => simp
  | cons e es ih =>
    rw [List.filter_cons]
    by_cases hk : k = e.1
    · subst hk
      by_cases hp : p e.1
      · simp [hp, get?_cons]
      · simpa [hp] using ih
    · by_cases hp : p e.1
      · simp [hp, get?_cons, hk, ih]
      · simp [hp, get?_cons, hk, ih]

theorem get?_put (k j : κ) (a : α) (es : Entries κ α) :
    get? k (es.put j a) = if k = j then some a else get? k es := by
  induction es with
  | nil => simp [put, get?_cons]
  | cons e es ih =>
    simp only [put]
    split
    · rw [get?_cons]
    · rename_i same
      have same : j = e.1 := Std.LawfulEqCmp.eq_of_compare same
      rw [get?_cons, get?_cons, same]
      split <;> rfl
    · rename_i above
      have differs : j ≠ e.1 := by
        rintro rfl
        simp at above
      rw [get?_cons, get?_cons, ih]
      by_cases hk : k = e.1
      · simp [hk, Ne.symm differs]
      · simp [hk]

theorem get?_foldl_put (es acc : Entries κ α) (k : κ) :
    get? k (es.foldl (fun acc e => acc.put e.1 e.2) acc) = (get? k es.reverse).or (get? k acc) := by
  induction es generalizing acc with
  | nil => simp
  | cons e es ih =>
    simp only [List.foldl_cons, List.reverse_cons, ih, get?_put, get?_append, get?_cons, get?_nil]
    rw [Option.or_assoc]
    split <;> simp

theorem get?_reverse {es : Entries κ α} (h : DistinctKeys es) (k : κ) :
    get? k es.reverse = get? k es := by
  induction es with
  | nil => rfl
  | cons e es ih =>
    have ⟨fresh, rest⟩ := distinctKeys_cons.mp h
    rw [List.reverse_cons, get?_append, ih rest, get?_cons, get?_cons, get?_nil]
    split
    · rename_i hk
      rw [get?_eq_none.mpr (hk ▸ fresh), Option.none_or]
    · rw [Option.or_none]

theorem get?_sort {es : Entries κ α} (h : DistinctKeys es) (k : κ) :
    get? k es.sort = get? k es := by
  rw [sort, get?_foldl_put, get?_reverse h, get?_nil, Option.or_none]

theorem DistinctKeys.get?_perm {es fs : Entries κ α} (h : DistinctKeys es) (perm : es.Perm fs)
    (k : κ) : get? k es = get? k fs := by
  have distinct : DistinctKeys fs := (perm.map Prod.fst).nodup h
  apply Option.ext
  intro v
  constructor
  · intro found
    exact get?_of_mem distinct (perm.subset (mem_of_get? found))
  · intro found
    exact get?_of_mem h (perm.symm.subset (mem_of_get? found))

theorem DistinctKeys.perm {es fs : Entries κ α} (he : DistinctKeys es) (hf : DistinctKeys fs)
    (same : ∀ k, get? k es = get? k fs) : es.Perm fs := by
  have member {es fs : Entries κ α} (hes : DistinctKeys es)
      (same : ∀ k, get? k es = get? k fs) {e : κ × α} (h : e ∈ es) : e ∈ fs := by
    have found : get? e.1 fs = some e.2 := by rw [← same, get?_of_mem hes h]
    exact mem_of_get? found
  apply (List.perm_ext_iff_of_nodup he.nodup hf.nodup).mpr
  intro e
  exact ⟨member he same, member hf fun k => (same k).symm⟩

variable [Std.TransOrd κ]

theorem DistinctKeys.perm_sort {es : Entries κ α} (h : DistinctKeys es) : es.sort.Perm es :=
  (ordered_sort es).distinctKeys.perm h (get?_sort h)

theorem Ordered.ext {es fs : Entries κ α} (he : Ordered es) (hf : Ordered fs)
    (same : ∀ k, get? k es = get? k fs) : es = fs := by
  have antisymm : ∀ a b : κ × α, a ∈ es → b ∈ fs →
      compare a.1 b.1 = .lt → compare b.1 a.1 = .lt → a = b := by
    intro a b _ _ hab hba
    exact absurd hba (Std.OrientedCmp.not_lt_of_lt hab)
  exact List.Perm.eq_of_pairwise antisymm he hf (he.distinctKeys.perm hf.distinctKeys same)

theorem Ordered.sort_eq {es : Entries κ α} (h : Ordered es) : es.sort = es :=
  (ordered_sort es).ext h (get?_sort h.distinctKeys)

end Lojban.Entries
