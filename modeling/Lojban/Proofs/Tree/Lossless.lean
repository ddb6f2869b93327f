import Lojban.Proofs.Json.Listing
import Lojban.Proofs.Tree.Strip
import Lojban.Proofs.Tree.Writing
import Lojban.Renderer

namespace Lojban

open Entries (DistinctKeys get?)
open Json (Listing Path Step)

namespace FieldKind

/-- Whether a field that holds the value is left out. One that a node must have never is, nor is a
list of places, empty or not. -/
def isIdle : FieldKind → Json → Bool
  | label, v => v = .null
  | flag, v => v = .bool false
  | place, v => v = .null
  | places, v => v = .null
  | link, v => v = .null
  | nodes, v => v = .array []
  | text, _ => false
  | node, _ => false

def holdsNodes : FieldKind → Bool
  | node => true
  | link => true
  | nodes => true
  | _ => false

theorem prune_eq (k : FieldKind) (v pruned : Json) :
    k.prune v pruned =
      if k.isIdle v then none else some (if k.holdsNodes then pruned else v) := by
  cases k <;> simp [prune, isIdle, holdsNodes]

end FieldKind

namespace Tree

def ownKind? (es : Json.Fields) (key : String) : Option FieldKind :=
  if key ∈ (ofJson (.object es)).keys then FieldKind.ofKey? key else none

/-- Whether what stands at a path is left out: the path goes from node to node up to an own field that
holds nothing, and maybe further. -/
def omits : Path → Json → Bool
  | .index i :: p, .array vs => vs[i]?.any (omits p)
  | .key key :: p, .object es =>
    (ownKind? es key).any fun kind =>
      (get? key es).any fun v => kind.isIdle v || kind.holdsNodes && omits p v
  | _, _ => false

theorem pruneEntry_eq (es : Json.Fields) (key : String) (v pruned : Json) :
    pruneEntry (ofJson (.object es)).keys key v pruned =
      match ownKind? es key with
      | some kind => kind.prune v pruned
      | none => some v := by
  rw [pruneEntry, ownKind?]
  cases FieldKind.ofKey? key with
  | none => simp
  | some kind =>
    simp only
    split <;> rfl

theorem listing_pruneEntry {es : Json.Fields} (keys : DistinctKeys es) {e : String × Json}
    (member : e ∈ es)
    (same : (prune e.2).listing = e.2.listing.filter fun s => !omits s.1 e.2) :
    ((pruneEntry (ofJson (.object es)).keys e.1 e.2 (prune e.2)).toList.flatMap fun v =>
        v.listing.under (.key e.1)) =
      (e.2.listing.under (.key e.1)).filter fun s => !omits s.1 (.object es) := by
  have found : get? e.1 es = some e.2 := Entries.get?_of_mem keys member
  rw [Listing.filter_under, pruneEntry_eq]
  simp only [omits, found, Option.any_some]
  cases ownKind? es e.1 with
  | none => simp
  | some kind =>
    simp only [kind.prune_eq, Option.any_some]
    cases kind.isIdle e.2 with
    | true => simp [Listing.under]
    | false =>
      cases kind.holdsNodes with
      | true => simp [same]
      | false => simp

theorem listing_prune {v : Json} (h : v.Distinct) :
    (prune v).listing = v.listing.filter fun s => !omits s.1 v := by
  induction v with
  | array vs ih =>
    rw [Json.distinct_array] at h
    rw [prune_array, Json.listing_array, Json.listing_array, List.filter_cons_of_pos rfl,
      List.zipIdx_map, List.flatMap_map, List.filter_flatMap]
    refine congrArg _ (List.flatMap_congr ?_)
    intro e he
    have found : vs[e.2]? = some e.1 := List.mem_zipIdx_iff_getElem?.mp he
    have member : e.1 ∈ vs := List.mem_of_getElem? found
    simp only [Listing.filter_under, omits, found, Option.any_some]
    exact congrArg _ (ih e.1 member (h e.1 member))
  | object es ih =>
    obtain ⟨keys, inner⟩ := Json.distinct_object.mp h
    rw [prune_object, pruneEntries_eq, Json.listing_object, Json.listing_object,
      List.filter_cons_of_pos rfl, List.filterMap_eq_flatMap_toList, List.flatMap_assoc,
      List.filter_flatMap]
    refine congrArg _ (List.flatMap_congr ?_)
    intro e he
    rw [← listing_pruneEntry keys he (ih e he (inner e he))]
    cases pruneEntry (ofJson (.object es)).keys e.1 e.2 (prune e.2) <;> simp
  | null => rfl
  | bool b => rfl
  | number n => rfl
  | string s => rfl

end Tree

/-- Of its empty lists only two are lists of nodes, and a wrapper has no head. -/
def Json.sparse : Json :=
  .array [.object [("word", .string "mi"), ("elided", .bool false), ("selmaho", .null),
      ("note", .object [("elided", .bool false)])],
    .object [("tertau", .null), ("se_table", .array []), ("head", .array [])],
    .object [("head", .array []), ("role", .string "bridi"),
      ("tail", .object [("selbri", .null), ("preterms", .array []), ("fa_after_tail", .array [])])]]

namespace Renderer

/-- Up to the order of entries, a tree that was read is written as the value it was read from without
the own fields that hold nothing: no path is written twice, and what stands at a path is written if
and only if it is not omitted. -/
theorem rawStructure_lossless (r : Renderer) (m : Mode) {v : Json} (h : v.Distinct) :
    r.formatAs .rawStructure (Tree.ofJson v) m = (Tree.ofJson v).toJson.write ∧
      (Tree.ofJson v).toJson.Distinct ∧
      (Tree.ofJson v).toJson.canonical = (Tree.prune v).canonical ∧
      (Tree.ofJson v).toJson.listing.Perm (v.listing.filter fun s => !Tree.omits s.1 v) := by
  have written : (Tree.ofJson v).toJson.Distinct := Tree.distinct_toJson_ofJson h
  have same : (Tree.ofJson v).toJson.canonical = (Tree.prune v).canonical :=
    Tree.canonical_toJson_ofJson h
  refine ⟨rfl, written, same, ?_⟩
  calc
    (Tree.ofJson v).toJson.listing.Perm (Tree.ofJson v).toJson.canonical.listing :=
      (Json.listing_canonical written).symm
    _ = (Tree.prune v).canonical.listing := by rw [same]
    List.Perm _ (Tree.prune v).listing := Json.listing_canonical (Tree.distinct_prune h)
    _ = v.listing.filter fun s => !Tree.omits s.1 v := Tree.listing_prune h

theorem rawStructure_lossless_sparse :
    Json.sparse.Distinct ∧
      (Json.sparse.listing.map Prod.fst).filter (Tree.omits · Json.sparse) =
        [[.index 0, .key "elided"], [.index 0, .key "selmaho"], [.index 1, .key "tertau"],
          [.index 2, .key "head"], [.index 2, .key "tail", .key "preterms"]] ∧
      blank.formatAs .rawStructure (Tree.ofJson Json.sparse) .blank =
        (Tree.ofJson Json.sparse).toJson.write ∧
      (Tree.ofJson Json.sparse).toJson.Distinct ∧
      (Tree.ofJson Json.sparse).toJson.canonical = (Tree.prune Json.sparse).canonical ∧
      (Tree.ofJson Json.sparse).toJson.listing.Perm
        (Json.sparse.listing.filter fun s => !Tree.omits s.1 Json.sparse) := by
  have distinct : Json.sparse.Distinct := by
    simp [Json.sparse]
  exact ⟨distinct, by decide +kernel, blank.rawStructure_lossless .blank distinct⟩

theorem raw_erases_links (r : Renderer) (m : Mode) (t : Tree) :
    r.formatAs .raw t m = (t.toJson.erase linkKey).write ∧
      t.strip.toJson = t.toJson.erase linkKey ∧
      t.strip.toJson.listing =
        (t.toJson.listing.filter fun s => !s.1.contains (.key linkKey)) ∧
      ∀ s ∈ t.strip.toJson.listing, .key linkKey ∉ s.1 := by
  have erased : t.strip.toJson = t.toJson.erase linkKey := Tree.toJson_strip t
  have kept : t.strip.toJson.listing =
      t.toJson.listing.filter fun s => !s.1.contains (.key linkKey) := by
    rw [erased, Json.listing_erase]
  refine ⟨congrArg Json.write erased, erased, kept, ?_⟩
  intro s hs
  rw [kept] at hs
  simpa using (List.mem_filter.mp hs).2

end Renderer

end Lojban
