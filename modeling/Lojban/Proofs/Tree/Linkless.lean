import Lojban.Proofs.Json.Listing
import Lojban.Proofs.Tree.Strip
import Lojban.Proofs.Tree.Writing
import Lojban.Tree.Shape

namespace Lojban

open Entries (get? get?_map_keyed)
open Json (map_eq_self stripFields)

namespace FieldKind

def trees : (k : FieldKind) → k.Value → List Tree
  | node, t => [t]
  | link, t => t.toList
  | nodes, ts => ts
  | _, _ => []

theorem trees_strip (k : FieldKind) (a : k.Value) :
    k.trees (k.strip a) = (k.trees a).map Tree.strip := by
  cases k with
  | link => cases a <;> rfl
  | _ => rfl

theorem strip_eq_self {k : FieldKind} {a : k.Value} :
    k.strip a = a ↔ ∀ t ∈ k.trees a, t.strip = t := by
  cases k with
  | node => simp [strip, trees]
  | link => cases a <;> simp [strip, trees]
  | nodes => exact map_eq_self
  | _ => simp [strip, trees]

theorem erase_write_eq_self {k : FieldKind} {a : k.Value} :
    (∀ v ∈ k.write a, v.erase linkKey = v) ↔
      ∀ t ∈ k.trees a, t.toJson.erase linkKey = t.toJson := by
  cases k with
  | text => simp [write, trees, Json.erase]
  | label => cases a <;> simp [write, trees, Json.erase]
  | flag => cases a <;> simp [write, trees, Json.erase]
  | place => cases a <;> simp [write, trees]
  | places => cases a <;> simp [write, trees]
  | node => simp [write, trees]
  | link => cases a <;> simp [write, trees]
  | nodes => cases a <;> simp [write, trees]

end FieldKind

namespace Field

def trees (f : Field) : List Tree := f.kind.trees f.value

theorem trees_strip (key : String) (f : Field) :
    (f.strip key).trees = if key = linkKey then [] else f.trees.map Tree.strip := by
  rw [strip]
  split
  · rfl
  · exact f.kind.trees_strip f.value

theorem strip_eq_self {key : String} {f : Field} (kind : FieldKind.ofKey? key = some f.kind)
    (same : ∀ t ∈ f.trees, t.toJson.erase linkKey = t.toJson ↔ t.strip = t) :
    f.strip key = f ↔ ∀ v ∈ f.write, key ≠ linkKey ∧ v.erase linkKey = v := by
  obtain ⟨k, a⟩ := f
  by_cases link : key = linkKey
  · subst link
    cases kind
    cases a <;> simp [strip, write, FieldKind.write]
  · have own : (Field.mk k a).strip key = ⟨k, a⟩ ↔ k.strip a = a := by
      rw [strip, if_neg link]
      simp
    have writes : (∀ v ∈ (Field.mk k a).write, key ≠ linkKey ∧ v.erase linkKey = v) ↔
        ∀ v ∈ k.write a, v.erase linkKey = v := by
      simp [write, link]
    rw [own, writes, FieldKind.strip_eq_self, FieldKind.erase_write_eq_self]
    exact forall₂_congr fun t ht => (same t ht).symm

end Field

namespace Tree

theorem mem_parts_of_mem_trees {t c : Tree} {e : String × Field} (he : e ∈ t.fields)
    (hc : c ∈ e.2.trees) : c ∈ t.parts := by
  have all : ∀ e ∈ t.fields, ∀ c ∈ e.2.trees, c ∈ t.parts := by
    cases t <;> simp +contextual [fields, parts, Field.trees, FieldKind.trees]
  exact all e he c hc

theorem forall_mem_written {t : Tree} {P : String × Json → Prop} :
    (∀ e ∈ t.written, P e) ↔ ∀ e ∈ t.fields, ∀ v ∈ e.2.write, P (e.1, v) := by
  constructor
  · intro all e he v hv
    exact all _ (List.mem_filterMap.mpr ⟨e, he, Option.map_eq_some_iff.mpr ⟨v, hv, rfl⟩⟩)
  · intro all e he
    obtain ⟨f, hf, mapped⟩ := List.mem_filterMap.mp he
    obtain ⟨v, hv, rfl⟩ := Option.map_eq_some_iff.mp mapped
    exact all f hf v hv

theorem strip_eq_self_iff_fields {t : Tree} (h : t.keys ≠ []) :
    t.strip = t ↔ (∀ e ∈ t.fields, e.2.strip e.1 = e.2) ∧ stripFields t.extra = t.extra := by
  have whole : t.strip = t ↔ t.strip.fields = t.fields ∧ t.strip.extra = t.extra := by
    cases t with
    | leaf l =>
      obtain ⟨word, elided, selmaho, place, extra⟩ := l
      simp [strip, fields, Tree.extra]
    | bridi b =>
      obtain ⟨role, head, rear, contents, link, extra⟩ := b
      simp [strip, fields, Tree.extra, and_assoc]
    | conjunction c =>
      obtain ⟨left, right, joiner, scope, tailTerms, link, extra⟩ := c
      simp [strip, fields, Tree.extra, and_assoc]
    | tail u =>
      obtain ⟨selbri, preterms, tailTerms, tagged, link, extra⟩ := u
      simp [strip, fields, Tree.extra, and_assoc]
    | term u =>
      obtain ⟨place, sumti, link, extra⟩ := u
      simp [strip, fields, Tree.extra, and_assoc]
    | wrapper w =>
      obtain ⟨link, conversion, tertau, extra⟩ := w
      simp [strip, fields, Tree.extra, and_assoc]
    | _ => exact absurd rfl h
  rw [whole, fields_strip, extra_strip, map_eq_self]
  simp only [Prod.ext_iff, true_and]

/-- Nothing is stripped from a tree if and only if nothing is erased from what is written for it. -/
theorem strip_eq_self_iff (t : Tree) :
    t.strip = t ↔ t.toJson.erase linkKey = t.toJson := by
  by_cases h : t.keys = []
  · cases t with
    | composite cs =>
      have fixed : (cs.map toJson).map (Json.erase linkKey) = cs.map toJson ↔
          ∀ c ∈ cs, c.toJson.erase linkKey = c.toJson := by
        rw [List.map_map, List.map_inj_left]
        rfl
      rw [toJson_composite, Json.erase_array, Json.array.injEq, fixed, strip, stripAll_eq,
        composite.injEq, map_eq_self]
      refine forall₂_congr fun c hc => ?_
      have := sizeOf_lt_of_mem_parts (t := composite cs) hc
      exact strip_eq_self_iff c
    | text s => exact iff_of_true rfl rfl
    | other v => rw [strip, toJson, other.injEq]
    | _ => cases h
  · have own : (∀ e ∈ t.written, e.1 ≠ linkKey ∧ e.2.erase linkKey = e.2) ↔
        ∀ e ∈ t.fields, e.2.strip e.1 = e.2 := by
      rw [forall_mem_written]
      refine forall₂_congr fun e he => ?_
      refine (Field.strip_eq_self (ofKey?_of_mem_fields he) fun c hc => ?_).symm
      have := sizeOf_lt_of_mem_parts (mem_parts_of_mem_trees he hc)
      exact (strip_eq_self_iff c).symm
    rw [strip_eq_self_iff_fields h, toJson_eq_object h, Json.erase, Json.object.injEq,
      Json.eraseEntries_eq_self, List.forall_mem_append, own, stripFields,
      Json.eraseEntries_eq_self]
termination_by sizeOf t

theorem strip_strip (t : Tree) : t.strip.strip = t.strip := by
  rw [strip_eq_self_iff, Json.erase_eq_self, toJson_strip]
  exact Json.avoids_erase t.toJson

/-- A step from a node to one that it holds: to a child of a composite, or into a field. A field that
is no list holds its node at the first place. -/
inductive Step where
  | child (i : Nat)
  | field (key : String) (i : Nat)
  deriving DecidableEq

def Step.isLink : Step → Bool
  | child _ => false
  | field key _ => key = linkKey

def step? (t : Tree) : Step → Option Tree
  | .child i => t.items?.bind (·[i]?)
  | .field key i => (get? key t.fields).bind (·.trees[i]?)

def follow? (t : Tree) : List Step → Option Tree
  | [] => some t
  | s :: p => (t.step? s).bind (·.follow? p)

/-- What a node says by itself, without the nodes it holds and what is kept with it. -/
inductive Label where
  | composite
  | text (word : String)
  | leaf (word : String) (elided : Bool) (selmaho : Option String) (place : Option Nat)
  | bridi (role : Role)
  | conjunction
  | tail (tagged : Option (List Nat))
  | term (place : Option Nat)
  | wrapper (conversion : Option (List Nat))
  | other
  deriving DecidableEq

def label : Tree → Label
  | composite _ => .composite
  | text s => .text s
  | leaf l => .leaf l.word l.elided l.selmaho l.place
  | bridi b => .bridi b.role
  | conjunction _ => .conjunction
  | tail t => .tail t.tagged
  | term t => .term t.place
  | wrapper w => .wrapper w.conversion
  | other _ => .other

theorem label_strip (t : Tree) : t.strip.label = t.label := by
  cases t <;> rfl

theorem step?_strip (t : Tree) (s : Step) :
    t.strip.step? s = if s.isLink then none else (t.step? s).map strip := by
  cases s with
  | child i =>
    rw [step?, step?, items?_strip]
    cases t.items? with
    | none => rfl
    | some ts => exact List.getElem?_map
  | field key i =>
    rw [step?, step?, fields_strip, get?_map_keyed Field.strip]
    cases get? key t.fields with
    | none => simp
    | some f =>
      rw [Option.map_some, Option.bind_some, Option.bind_some, Field.trees_strip]
      by_cases link : key = linkKey
      · simp [Step.isLink, link]
      · simp [Step.isLink, link]

theorem follow?_strip (t : Tree) (p : List Step) :
    t.strip.follow? p = if p.any Step.isLink then none else (t.follow? p).map strip := by
  induction p generalizing t with
  | nil => rfl
  | cons s p ih =>
    rw [follow?, follow?, step?_strip, List.any_cons]
    cases hs : s.isLink with
    | true => rfl
    | false =>
      rw [Bool.false_or, if_neg Bool.false_ne_true, Option.bind_map]
      cases t.step? s with
      | none => simp
      | some u => exact ih u

/-- At every path that passes no link stands a node that says the same by itself as before, if one
stood there, so the lists of nodes are as long as they were and in their order. -/
theorem strip_complete (t : Tree) :
    (t.strip = t ↔ t.toJson.Avoids linkKey) ∧
      t.strip.strip = t.strip ∧
      ∀ p, (t.strip.follow? p).map label =
        if p.any Step.isLink then none else (t.follow? p).map label := by
  refine ⟨(strip_eq_self_iff t).trans Json.erase_eq_self, strip_strip t, ?_⟩
  intro p
  rw [follow?_strip]
  split
  · rfl
  · rw [Option.map_map]
    exact congrArg (Option.map · (t.follow? p)) (funext label_strip)

end Tree

end Lojban
