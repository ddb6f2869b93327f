import Lojban.Proofs.Json.Canonical
import Mathlib.Data.List.Perm.Basic

namespace Lojban.Json

open Entries (DistinctKeys)

inductive Step where
  | index (i : Nat)
  | key (k : String)
  deriving DecidableEq, Repr

abbrev Path := List Step

abbrev Listing := List (Path × Json)

def Listing.under (step : Step) (l : Listing) : Listing := l.map fun s => (step :: s.1, s.2)

mutual

/-- Every value inside and the value itself, each at its path and in writing order. Arrays and objects
stand there without what they hold. -/
def listing : Json → Listing
  | array vs => ([], array []) :: listingItems 0 vs
  | object es => ([], object []) :: listingEntries es
  | v => [([], v)]

def listingItems (i : Nat) : List Json → Listing
  | [] => []
  | v :: vs => v.listing.under (.index i) ++ listingItems (i + 1) vs

def listingEntries : List (String × Json) → Listing
  | [] => []
  | (k, v) :: es => v.listing.under (.key k) ++ listingEntries es

end

example : (object [("a", array [null, string "b"])]).listing =
    [([], object []), ([.key "a"], array []), ([.key "a", .index 0], null),
      ([.key "a", .index 1], string "b")] := by
  decide

theorem Listing.filter_under (p : Path × Json → Bool) (step : Step) (l : Listing) :
    (l.under step).filter p = under step (l.filter fun s => p (step :: s.1, s.2)) := by
  rw [under, List.filter_map]
  rfl

section

variable {key : String}

mutual

/-- Erasing a key leaves out what stands at a path through it, and nothing else. -/
theorem listing_erase : ∀ v : Json,
    (v.erase key).listing = v.listing.filter fun s => !s.1.contains (.key key)
  | array vs => by
    rw [erase, listing, listing, List.filter_cons_of_pos rfl, listingItems_eraseItems 0 vs]
  | object es => by
    rw [erase, listing, listing, List.filter_cons_of_pos rfl, listingEntries_eraseEntries es]
  | null => rfl
  | bool _ => rfl
  | number _ => rfl
  | string _ => rfl

theorem listingItems_eraseItems (i : Nat) : ∀ vs : List Json,
    listingItems i (eraseItems key vs) =
      (listingItems i vs).filter fun s => !s.1.contains (.key key)
  | [] => rfl
  | v :: vs => by
    rw [eraseItems, listingItems, listingItems, List.filter_append, Listing.filter_under,
      listing_erase v, listingItems_eraseItems (i + 1) vs]
    simp

theorem listingEntries_eraseEntries : ∀ es : Fields,
    listingEntries (eraseEntries key es) =
      (listingEntries es).filter fun s => !s.1.contains (.key key)
  | [] => rfl
  | (k, v) :: es => by
    rw [eraseEntries, listingEntries, List.filter_append, Listing.filter_under]
    split
    · rename_i hk
      simp [hk, listingEntries_eraseEntries es, Listing.under]
    · rename_i hk
      have apart : key ≠ k := fun h => hk h.symm
      rw [listingEntries, listing_erase v, listingEntries_eraseEntries es]
      simp [apart]

end

end

theorem listing_array (vs : List Json) :
    (array vs).listing =
      ([], array []) :: vs.zipIdx.flatMap fun e => e.1.listing.under (.index e.2) := by
  have items (i : Nat) : listingItems i vs =
      (vs.zipIdx i).flatMap fun e => e.1.listing.under (.index e.2) := by
    induction vs generalizing i with
    | nil => rfl
    | cons v vs ih => rw [listingItems, List.zipIdx_cons, List.flatMap_cons, ih]
  rw [listing, items]

theorem listing_object (es : Fields) :
    (object es).listing = ([], object []) :: es.flatMap fun e => e.2.listing.under (.key e.1) := by
  have entries : listingEntries es = es.flatMap fun e => e.2.listing.under (.key e.1) := by
    induction es with
    | nil => rfl
    | cons e es ih => rw [listingEntries, List.flatMap_cons, ih]
  rw [listing, entries]

theorem listing_canonical {v : Json} (h : v.Distinct) : v.canonical.listing.Perm v.listing := by
  induction v with
  | array vs ih =>
    rw [distinct_array] at h
    rw [canonical_array, listing_array, listing_array, List.zipIdx_map, List.flatMap_map]
    apply List.Perm.cons
    apply List.Perm.flatMap_left
    intro e he
    have member : e.1 ∈ vs := List.fst_mem_of_mem_zipIdx he
    exact (ih e.1 member (h e.1 member)).map _
  | object es ih =>
    obtain ⟨keys, inner⟩ := distinct_object.mp h
    rw [canonical_object, listing_object, listing_object, canonicalFields]
    apply List.Perm.cons
    have keys' : DistinctKeys (es.map fun e => (e.1, e.2.canonical)) := by
      rw [DistinctKeys, Entries.keys_map]
      exact keys
    refine (keys'.perm_sort.flatMap_right _).trans ?_
    rw [List.flatMap_map]
    apply List.Perm.flatMap_left
    intro e he
    exact (ih e he (inner e he)).map _
  | _ => exact List.Perm.refl _

def Avoids (key : String) (v : Json) : Prop := ∀ s ∈ v.listing, .key key ∉ s.1

section

variable {key : String}

theorem Listing.forall_mem_under {step : Step} {l : Listing} :
    (∀ s ∈ l.under step, .key key ∉ s.1) ↔ ∀ s ∈ l, step ≠ .key key ∧ .key key ∉ s.1 := by
  rw [under, List.forall_mem_map]
  simp [eq_comm]

theorem exists_mem_listing (v : Json) : ∃ w, ([], w) ∈ v.listing := by
  cases v <;> exact ⟨_, List.mem_cons_self⟩

theorem avoids_array {vs : List Json} : (array vs).Avoids key ↔ ∀ v ∈ vs, v.Avoids key := by
  have items (i : Nat) :
      (∀ s ∈ listingItems i vs, .key key ∉ s.1) ↔ ∀ v ∈ vs, v.Avoids key := by
    induction vs generalizing i with
    | nil => simp [listingItems]
    | cons v vs ih =>
      rw [listingItems, List.forall_mem_append, Listing.forall_mem_under, ih, List.forall_mem_cons]
      simp [Avoids]
  rw [Avoids, listing, List.forall_mem_cons, items]
  exact and_iff_right List.not_mem_nil

theorem avoids_object {es : Fields} :
    (object es).Avoids key ↔ ∀ e ∈ es, e.1 ≠ key ∧ e.2.Avoids key := by
  have entry (e : String × Json) :
      (∀ s ∈ e.2.listing.under (.key e.1), .key key ∉ s.1) ↔ e.1 ≠ key ∧ e.2.Avoids key := by
    obtain ⟨w, root⟩ := exists_mem_listing e.2
    rw [Listing.forall_mem_under]
    constructor
    · intro all
      have apart := (all _ root).1
      exact ⟨fun same => apart (congrArg Step.key same), fun s hs => (all s hs).2⟩
    · intro both s hs
      exact ⟨fun same => both.1 (Step.key.inj same), both.2 s hs⟩
  rw [Avoids, listing_object, List.forall_mem_cons, List.forall_mem_flatMap]
  exact (and_iff_right List.not_mem_nil).trans (forall₂_congr fun e _ => entry e)

theorem avoids_erase (v : Json) : (v.erase key).Avoids key := by
  intro s hs
  rw [listing_erase] at hs
  simpa using (List.mem_filter.mp hs).2

theorem map_eq_self {α : Type} {f : α → α} {as : List α} : as.map f = as ↔ ∀ a ∈ as, f a = a := by
  simpa using List.map_inj_left (l := as) (f := f) (g := id)

theorem eraseEntries_eq_self {es : Fields} :
    eraseEntries key es = es ↔ ∀ e ∈ es, e.1 ≠ key ∧ e.2.erase key = e.2 := by
  induction es with
  | nil => simp [eraseEntries]
  | cons e es ih =>
    rw [List.forall_mem_cons, ← ih, eraseEntries]
    split
    · rename_i hk
      have shorter : (eraseEntries key es).length ≤ es.length := by
        rw [eraseEntries_eq, List.length_map]
        exact List.length_filter_le _ es
      constructor
      · intro same
        rw [same, List.length_cons] at shorter
        omega
      · intro both
        exact absurd hk both.1.1
    · rename_i hk
      rw [List.cons.injEq, Prod.ext_iff]
      simp [hk]

theorem erase_eq_self {v : Json} : v.erase key = v ↔ v.Avoids key := by
  induction v with
  | array vs ih =>
    rw [erase_array, avoids_array, array.injEq, map_eq_self]
    exact forall₂_congr ih
  | object es ih =>
    rw [erase, avoids_object, object.injEq, eraseEntries_eq_self]
    exact forall₂_congr fun e he => and_congr_right fun _ => ih e he
  | _ => simp [erase, Avoids, listing]

end

end Lojban.Json
