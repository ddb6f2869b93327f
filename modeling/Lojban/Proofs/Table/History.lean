import Lojban.Dictionary
import Lojban.Places
import Lojban.Proofs.Table.Lookup
import Mathlib.Data.Finset.Card

/-!
Tables as what a history of insertions leaves. A table answers with the last entry made under a key,
its size counts the keys that were used, and entries under different keys may be made in any order.
What is inserted goes under a form of its word: lowercase in a word list, the word itself in a place
table. Nothing is asked of the form.
-/

namespace Lojban

namespace Entries

variable {ι κ α : Type} [DecidableEq κ]

def last? (form : ι → κ) (k : κ) (h : Entries ι α) : Option α :=
  (h.filter fun e => form e.1 = k).getLast?.map Prod.snd

theorem last?_cons (form : ι → κ) (k : κ) (e : ι × α) (h : Entries ι α) :
    last? form k (e :: h) = (last? form k h).or (if k = form e.1 then some e.2 else none) := by
  by_cases same : form e.1 = k
  · simp only [last?, List.filter_cons, same, decide_true, if_true, List.getLast?_cons,
      Option.map_some]
    cases (h.filter fun e => form e.1 = k).getLast? <;> rfl
  · simp [last?, same, Ne.symm same]

theorem last?_eq_none {form : ι → κ} {k : κ} {h : Entries ι α} :
    last? form k h = none ↔ k ∉ h.keys.map form := by
  simp [last?, keys]

end Entries

namespace Table

variable {ι κ α : Type} [Ord κ] [Std.TransOrd κ] [Std.LawfulEqOrd κ]

def insertAll (form : ι → κ) (t : Table κ α) (h : Entries ι α) : Table κ α :=
  h.foldl (fun t e => t.insert (form e.1) e.2) t

theorem entries_insertAll (form : ι → κ) (t : Table κ α) (h : Entries ι α) :
    (t.insertAll form h).entries = h.foldl (fun es e => es.put (form e.1) e.2) t.entries := by
  induction h generalizing t with
  | nil => rfl
  | cons e h ih => exact ih (t.insert (form e.1) e.2)

variable [DecidableEq κ]

theorem ext_get? {t u : Table κ α} (same : ∀ k, t.get? k = u.get? k) : t = u := by
  obtain ⟨es, ordered⟩ := t
  obtain ⟨fs, ordered'⟩ := u
  congr
  exact ordered.ext ordered' same

theorem get?_insert (t : Table κ α) (j : κ) (a : α) (k : κ) :
    (t.insert j a).get? k = if k = j then some a else t.get? k :=
  Entries.get?_put k j a t.entries

theorem insert_comm (t : Table κ α) {j k : κ} (different : j ≠ k) (a b : α) :
    (t.insert j a).insert k b = (t.insert k b).insert j a := by
  apply ext_get?
  intro i
  simp only [get?_insert]
  by_cases hj : i = j
  · simp [hj, different]
  · simp [hj]

theorem get?_insertAll (form : ι → κ) (t : Table κ α) (h : Entries ι α) (k : κ) :
    (t.insertAll form h).get? k = (h.last? form k).or (t.get? k) := by
  induction h generalizing t with
  | nil => rfl
  | cons e h ih =>
    rw [Entries.last?_cons, Option.or_assoc]
    refine (ih (t.insert (form e.1) e.2)).trans (congrArg _ ?_)
    rw [get?_insert]
    split <;> rfl

theorem get?_insertAll_empty (form : ι → κ) (h : Entries ι α) (k : κ) :
    ((∅ : Table κ α).insertAll form h).get? k = h.last? form k := by
  rw [get?_insertAll]
  exact Option.or_none

theorem ofList_eq_insertAll (h : Entries κ α) : ofList h = (∅ : Table κ α).insertAll id h := by
  apply ext_get?
  intro k
  rw [get?, get?, entries_insertAll]
  rfl

theorem mem_keys_insertAll {form : ι → κ} {t : Table κ α} {h : Entries ι α} {k : κ} :
    k ∈ (t.insertAll form h).entries.keys ↔ k ∈ h.keys.map form ∨ k ∈ t.entries.keys := by
  have looked : Entries.get? k (t.insertAll form h).entries =
      (h.last? form k).or (Entries.get? k t.entries) := get?_insertAll form t h k
  rw [← not_iff_not, not_or, ← Entries.get?_eq_none, looked, Option.or_eq_none_iff,
    Entries.last?_eq_none, Entries.get?_eq_none]

theorem size_insertAll (form : ι → κ) (h : Entries ι α) :
    ((∅ : Table κ α).insertAll form h).size = (h.keys.map form).toFinset.card := by
  have same : ((∅ : Table κ α).insertAll form h).entries.keys.toFinset =
      (h.keys.map form).toFinset := by
    ext k
    rw [List.mem_toFinset, List.mem_toFinset, mem_keys_insertAll]
    exact or_iff_left List.not_mem_nil
  have distinct := ((∅ : Table κ α).insertAll form h).ordered.distinctKeys
  rw [← same, List.toFinset_card_of_nodup distinct, size, Entries.keys, List.length_map]

/-- Two entries are the same one or have different forms, so any two of them may change places. -/
theorem insertAll_perm {form : ι → κ} {h g : Entries ι α} (distinct : (h.keys.map form).Nodup)
    (perm : h.Perm g) (t : Table κ α) : t.insertAll form h = t.insertAll form g := by
  rw [Entries.keys, List.map_map] at distinct
  apply perm.foldl_eq'
  intro x hx y hy t
  by_cases same : form x.1 = form y.1
  · rw [List.inj_on_of_nodup_map distinct hx hy same]
  · exact insert_comm t same x.2 y.2

end Table

namespace WordList

variable {lower : String → String}

theorem ofEntries_eq (h : Entries String Entry) :
    (ofEntries h : WordList lower) = ⟨(∅ : Table String Entry).insertAll lower h⟩ := by
  have step : ∀ l : WordList lower,
      h.foldl (fun l e => l.insert e.1 e.2) l = ⟨l.entries.insertAll lower h⟩ := by
    induction h with
    | nil => exact fun _ => rfl
    | cons e h ih => exact fun l => ih (l.insert e.1 e.2)
  exact step empty

theorem entry?_ofEntries (h : Entries String Entry) (w : String) :
    entry? (ofEntries h : WordList lower) w = h.last? lower (lower w) := by
  rw [ofEntries_eq, entry?, Table.get?_insertAll_empty]

theorem size_ofEntries (h : Entries String Entry) :
    (ofEntries h : WordList lower).size = (h.keys.map lower).toFinset.card := by
  rw [ofEntries_eq, size, Table.size_insertAll]

theorem ofEntries_perm {h g : Entries String Entry} (distinct : (h.keys.map lower).Nodup)
    (perm : h.Perm g) : (ofEntries h : WordList lower) = ofEntries g := by
  rw [ofEntries_eq, ofEntries_eq, Table.insertAll_perm distinct perm]

theorem ofText_of_object {text : String} {es : Entries String Entry}
    (object : reader.run text = .ok es) (walk : Table.Walk String Entry) :
    ofText text lower walk = .ok (ofEntries (walk.entries (Table.ofList es))) := by
  rw [ofText, object]
  rfl

theorem ofText_of_distinct {text : String} {es order : Entries String Entry}
    (object : reader.run text = .ok es) (distinct : (es.keys.map lower).Nodup)
    (perm : order.Perm es) (walk : Table.Walk String Entry) :
    ofText text lower walk = .ok (ofEntries order) := by
  have words : es.DistinctKeys := distinct.of_map
  have walked : (walk.entries (Table.ofList es)).Perm es :=
    (walk.perm (Table.ofList es)).trans words.perm_sort
  have same : order.Perm (walk.entries (Table.ofList es)) := perm.trans walked.symm
  have forms : (order.keys.map lower).Nodup := ((perm.map Prod.fst).map lower).nodup_iff.mpr distinct
  rw [ofText_of_object object, ofEntries_perm forms same]

end WordList

/-- A gloss and a keyword come from the last entry inserted for a word of the same lowercase form, and
a place record from the last one of the very word. Where the words of an object differ in lowercase,
its entries may be inserted in any order, however the table in between is walked. -/
theorem tables_keep_last_entries :
    (∀ (lower : String → String) (h : Entries String Entry),
      (∀ w, (WordList.ofEntries h : WordList lower).gloss w =
        (h.last? lower (lower w)).bind (·.gloss)) ∧
      (∀ w place, (WordList.ofEntries h : WordList lower).keyword w place =
        (h.last? lower (lower w)).bind (·.keywords.get? place)) ∧
      (WordList.ofEntries h : WordList lower).size = (h.keys.map lower).toFinset.card) ∧
    (∀ h : Entries String PlaceRecord,
      (∀ w, ((∅ : PlaceTable).insertAll id h).get? w = h.last? id w) ∧
      ((∅ : PlaceTable).insertAll id h).size = h.keys.toFinset.card ∧
      Table.ofList h = (∅ : PlaceTable).insertAll id h) ∧
    ∀ (lower : String → String) (text : String) (es : Entries String Entry),
      WordList.reader.run text = .ok es → (es.keys.map lower).Nodup →
        ∀ order, order.Perm es → ∀ walk,
          WordList.ofText text lower walk = .ok (WordList.ofEntries order) := by
  refine ⟨fun lower h => ⟨?_, ?_, WordList.size_ofEntries h⟩, fun h => ⟨?_, ?_, ?_⟩, ?_⟩
  · intro w
    rw [WordList.gloss, WordList.entry?_ofEntries]
    rfl
  · intro w place
    rw [WordList.keyword, WordList.entry?_ofEntries]
    rfl
  · exact Table.get?_insertAll_empty id h
  · rw [Table.size_insertAll, List.map_id]
  · exact Table.ofList_eq_insertAll h
  · intro lower text es object distinct order perm walk
    exact WordList.ofText_of_distinct object distinct perm walk

def WordList.coming : Entries String Entry :=
  [("KLAMA", ⟨some "come", ∅⟩), ("prami", ⟨some "love", Table.ofList [(1, "lover")]⟩)]

def WordList.comingText : String :=
  "\x7b\"KLAMA\": \x7b\"gloss\": \"come\"\x7d, \"prami\": [\"love\", \x7b\"1\": \"lover\"\x7d]\x7d"

theorem tables_keep_last_entries_coming :
    WordList.reader.run WordList.comingText = .ok WordList.coming ∧
      (WordList.coming.keys.map Case.lower).Nodup ∧ WordList.coming.reverse.Perm WordList.coming ∧
      WordList.ofText WordList.comingText = .ok (WordList.ofEntries WordList.coming.reverse) ∧
      (WordList.ofEntries (WordList.coming ++ [("Klama", ⟨none, ∅⟩)]) : WordList).gloss "klama" =
        none := by
  have object : WordList.reader.run WordList.comingText = .ok WordList.coming := by
    apply Json.Reader.run_eq_ok
    decide +kernel
  have distinct : (WordList.coming.keys.map Case.lower).Nodup := by decide +kernel
  have perm : WordList.coming.reverse.Perm WordList.coming := List.reverse_perm _
  obtain ⟨words, -, texts⟩ := tables_keep_last_entries
  refine ⟨object, distinct, perm, ?_, ?_⟩
  · exact texts Case.lower _ _ object distinct _ perm .inOrder
  · rw [(words Case.lower _).1]
    decide +kernel

end Lojban
