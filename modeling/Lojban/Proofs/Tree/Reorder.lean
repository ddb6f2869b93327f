import Lojban.Proofs.Tree.Reading
import Lojban.Renderer

/-!
The order of entries. Values that hold the same entries in other orders, at any depth, have one
canonical form, so they are read as one tree and shown alike in every format.
-/

namespace Lojban

open Entries (DistinctKeys get? keys)

namespace Json

/-- The same value but for the order of the entries of its objects, at any depth. -/
inductive Reordered : Json → Json → Prop where
  | refl (v : Json) : Reordered v v
  | trans {u v w : Json} : Reordered u v → Reordered v w → Reordered u w
  | entries {es fs : Fields} : es.Perm fs → Reordered (object es) (object fs)
  | item (front back : List Json) {v w : Json} :
    Reordered v w → Reordered (array (front ++ v :: back)) (array (front ++ w :: back))
  | value (front back : Fields) (key : String) {v w : Json} : Reordered v w →
    Reordered (object (front ++ (key, v) :: back)) (object (front ++ (key, w) :: back))

namespace Reordered

theorem distinct {v w : Json} (h : v.Reordered w) : v.Distinct → w.Distinct := by
  induction h with
  | refl v => exact id
  | trans _ _ first second => exact second ∘ first
  | entries perm =>
    intro h
    obtain ⟨keys, values⟩ := distinct_object.mp h
    apply distinct_object.mpr
    constructor
    · exact (perm.map Prod.fst).nodup keys
    · intro e he
      exact values e (perm.symm.subset he)
  | item front back _ ih =>
    intro h
    simp only [distinct_array, List.forall_mem_append, List.forall_mem_cons] at h ⊢
    exact ⟨h.1, ih h.2.1, h.2.2⟩
  | value front back key _ ih =>
    intro h
    simp only [distinct_object, DistinctKeys, Entries.keys_append, Entries.keys_cons,
      List.forall_mem_append, List.forall_mem_cons] at h ⊢
    exact ⟨h.1, h.2.1, ih h.2.2.1, h.2.2.2⟩

theorem canonical_eq {v w : Json} (h : v.Reordered w) :
    v.Distinct → v.canonical = w.canonical := by
  induction h with
  | refl v => intro _; rfl
  | trans first _ ih ih' =>
    intro h
    exact (ih h).trans (ih' (first.distinct h))
  | entries perm =>
    intro h
    have keys := (distinct_object.mp h).1
    rw [canonical_object, canonical_object]
    congr 1
    apply canonicalFields_congr keys ((perm.map Prod.fst).nodup keys)
    intro key
    rw [keys.get?_perm perm]
  | item front back _ ih =>
    intro h
    have inner := distinct_array.mp h _ (List.mem_append_cons_self)
    simp only [canonical_array, List.map_append, List.map_cons, ih inner]
  | value front back key _ ih =>
    intro h
    have inner := (distinct_object.mp h).2 _ (List.mem_append_cons_self)
    simp only [canonical_object, canonicalFields, List.map_append, List.map_cons, ih inner]

end Reordered

end Json

theorem Renderer.format_reordered (r : Renderer) (m : Mode) {v w : Json} (h : v.Reordered w)
    (distinct : v.Distinct) :
    Tree.ofJson v = Tree.ofJson w ∧
      (∀ f, r.formatAs f (Tree.ofJson v) m = r.formatAs f (Tree.ofJson w) m) ∧
      r.format (Tree.ofJson v) m = r.format (Tree.ofJson w) m := by
  have same : Tree.ofJson v = Tree.ofJson w := by
    calc
      Tree.ofJson v = Tree.ofJson v.canonical := (Tree.ofJson_canonical distinct).symm
      _ = Tree.ofJson w.canonical := by rw [h.canonical_eq distinct]
      _ = Tree.ofJson w := Tree.ofJson_canonical (h.distinct distinct)
  rw [same]
  exact ⟨rfl, fun _ => rfl, rfl⟩

/-- Its word is no text, so it is a term, which keeps the word and the entries of its note. -/
def Json.jumble (note fields : Json.Fields → Json.Fields) : Json :=
  .object (fields [("word", .null), ("note", .array [.object (note [("se", .null), ("fa", .null)])]),
    ("sumti", .string "do"), ("place", .number (.int 2))])

theorem Renderer.format_reordered_jumble :
    (Json.jumble id id).Reordered (.jumble .reverse .reverse) ∧ (Json.jumble id id).Distinct ∧
      Json.jumble id id ≠ .jumble .reverse .reverse ∧
      Tree.ofJson (.jumble id id) = Tree.ofJson (.jumble .reverse .reverse) ∧
      blank.formatAs .rawStructure (Tree.ofJson (.jumble id id)) .blank =
        blank.formatAs .rawStructure (Tree.ofJson (.jumble .reverse .reverse)) .blank := by
  have reordered : (Json.jumble id id).Reordered (.jumble .reverse .reverse) := by
    have note : (Json.jumble id id).Reordered (.jumble .reverse id) := by
      apply Json.Reordered.value [_] [_, _] "note"
      apply Json.Reordered.item [] []
      exact .entries (List.reverse_perm _).symm
    exact note.trans (.entries (List.reverse_perm _).symm)
  have distinct : (Json.jumble id id).Distinct := by
    simp [Json.jumble]
  have same := blank.format_reordered .blank reordered distinct
  exact ⟨reordered, distinct, by decide, same.1, same.2.1 .rawStructure⟩

end Lojban
