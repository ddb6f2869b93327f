import Lojban.Proofs.Json.Canonical
import Lojban.Proofs.Tree.Reading
import Lojban.Tree.ToJson

/-!
Trees without links. Dropping the links of a tree and erasing their key from its written form come to
the same, and so do dropping them from a tree that is read and erasing their key from the value it is
read from: whether a variant fits does not depend on links, nor on what stands inside other fields.
-/

namespace Lojban

open Entries (DistinctKeys get?)
open Json (stripFields)

namespace Json

variable {key : String}

@[simp] theorem string?_erase (v : Json) : (v.erase key).string? = v.string? := by
  cases v <;> rfl

@[simp] theorem bool?_erase (v : Json) : (v.erase key).bool? = v.bool? := by
  cases v <;> rfl

@[simp] theorem place?_erase (v : Json) : (v.erase key).place? = v.place? := by
  cases v <;> rfl

@[simp] theorem places?_erase (v : Json) : (v.erase key).places? = v.places? := by
  cases v with
  | array vs => simp [places?, List.mapM_map, Function.comp_def]
  | _ => rfl

@[simp] theorem erase_eq_null {v : Json} : v.erase key = null ↔ v = null := by
  cases v <;> simp [erase]

@[simp] theorem given_none (k : String) : given k none = [] := rfl

theorem eraseEntries_cons {k : String} (h : k ≠ key) (v : Json) (es : Fields) :
    eraseEntries key ((k, v) :: es) = (k, v.erase key) :: eraseEntries key es := by
  rw [eraseEntries, if_neg h]

@[simp] theorem erase_place (n : Nat) : (place n).erase key = place n := rfl

@[simp] theorem erase_places (ns : List Nat) : (places ns).erase key = places ns := by
  simp [places, Function.comp_def]

theorem eraseEntries_given {k : String} (h : k ≠ key) (o : Option Json) :
    eraseEntries key (given k o) = given k (o.map (erase key)) := by
  cases o with
  | none => rfl
  | some v => exact eraseEntries_cons h v []

theorem eraseEntries_given_self (o : Option Json) : eraseEntries key (given key o) = [] := by
  cases o with
  | none => rfl
  | some v => rw [given, eraseEntries, if_pos rfl, eraseEntries]

theorem eraseEntries_filled {k : String} (h : k ≠ key) (vs : List Json) :
    eraseEntries key (filled k vs) = filled k (vs.map (erase key)) := by
  cases vs with
  | nil => rfl
  | cons v vs => simp [filled, eraseEntries_cons h, eraseEntries]

end Json

namespace Tree

open Json (eraseEntries_append eraseEntries_cons eraseEntries_given eraseEntries_given_self
  eraseEntries_filled)

mutual

theorem toJson_strip : ∀ t : Tree, t.strip.toJson = t.toJson.erase linkKey
  | composite cs => by
    rw [strip, toJson, toJson, Json.erase, toJsonAll_stripAll cs, Json.eraseItems_eq]
  | text s => rfl
  | leaf l => by
    rw [strip, toJson, toJson, Leaf.toJson, Leaf.toJson, Json.erase]
    simp (disch := decide) [eraseEntries_append, eraseEntries_cons, eraseEntries_given,
      Function.comp_def, Json.erase, stripFields]
  | bridi ⟨role, head, rear, contents, link, extra⟩ => by
    rw [strip, toJson, toJson, Json.erase, toJsonAll_stripAll head, toJsonOption_stripOption rear,
      toJsonOption_stripOption contents, toJsonOption]
    simp (disch := decide) [eraseEntries_append, eraseEntries_cons, eraseEntries_given,
      eraseEntries_given_self, eraseEntries_filled, Json.erase, stripFields]
  | conjunction ⟨left, right, joiner, scope, tailTerms, link, extra⟩ => by
    rw [strip, toJson, toJson, Json.erase, toJsonOption_stripOption left, toJson_strip right,
      toJsonOption_stripOption joiner, toJsonAll_stripAll scope, toJsonAll_stripAll tailTerms,
      toJsonOption]
    simp (disch := decide) [eraseEntries_append, eraseEntries_cons, eraseEntries_given,
      eraseEntries_given_self, eraseEntries_filled, stripFields]
  | tail ⟨selbri, preterms, tailTerms, tagged, link, extra⟩ => by
    rw [strip, toJson, toJson, Json.erase, toJson_strip selbri, toJsonAll_stripAll preterms,
      toJsonAll_stripAll tailTerms, toJsonOption]
    simp (disch := decide) [eraseEntries_append, eraseEntries_cons, eraseEntries_given,
      eraseEntries_given_self, eraseEntries_filled, stripFields, Function.comp_def]
  | term ⟨place, sumti, link, extra⟩ => by
    rw [strip, toJson, toJson, Json.erase, toJson_strip sumti, toJsonOption]
    simp (disch := decide) [eraseEntries_append, eraseEntries_cons, eraseEntries_given,
      eraseEntries_given_self, stripFields, Function.comp_def]
  | wrapper ⟨link, conversion, tertau, extra⟩ => by
    rw [strip, toJson, toJson, Json.erase, toJsonOption_stripOption tertau, toJsonOption]
    simp (disch := decide) [eraseEntries_append, eraseEntries_given, eraseEntries_given_self,
      stripFields, Function.comp_def]
  | other v => rfl

theorem toJsonAll_stripAll : ∀ ts : List Tree,
    toJsonAll (stripAll ts) = (toJsonAll ts).map (Json.erase linkKey)
  | [] => rfl
  | t :: ts => by
    rw [stripAll, toJsonAll, toJsonAll, List.map_cons, toJson_strip t, toJsonAll_stripAll ts]

theorem toJsonOption_stripOption : ∀ t : Option Tree,
    toJsonOption (stripOption t) = (toJsonOption t).map (Json.erase linkKey)
  | none => rfl
  | some t => by
    rw [stripOption, toJsonOption, toJsonOption, Option.map_some, toJson_strip t]

end

theorem stripAll_eq (ts : List Tree) : stripAll ts = ts.map strip := by
  induction ts with
  | nil => rfl
  | cons t ts ih => rw [stripAll, ih, List.map_cons]

theorem stripOption_eq (t : Option Tree) : stripOption t = t.map strip := by
  cases t <;> rfl

@[simp] theorem items?_strip (t : Tree) : t.strip.items? = t.items?.map (List.map strip) := by
  cases t with
  | composite ts => rw [strip, stripAll_eq, items?, items?, Option.map_some]
  | _ => rfl

end Tree

namespace FieldKind

def strip : (k : FieldKind) → k.Value → k.Value
  | node, t => t.strip
  | link, t => t.map Tree.strip
  | nodes, ts => ts.map Tree.strip
  | text, s => s
  | label, s => s
  | flag, b => b
  | place, n => n
  | places, ns => ns

theorem strip_eq_id : strip text = id ∧ strip label = id ∧ strip flag = id ∧ strip place = id ∧
    strip places = id := ⟨rfl, rfl, rfl, rfl, rfl⟩

theorem view_erase (k : FieldKind) {o : Option Json}
    (same : ∀ v ∈ o, Tree.ofJson (v.erase linkKey) = (Tree.ofJson v).strip) :
    k.view (o.map (Json.erase linkKey)) = (k.view o).map k.strip := by
  cases o with
  | none => cases k <;> rfl
  | some v =>
    have same : Tree.ofJson (v.erase linkKey) = (Tree.ofJson v).strip := same v rfl
    cases k with
    | node => exact congrArg some same
    | link =>
      simp only [view, Option.map_some, optionalView, Json.erase_eq_null, same]
      split <;> rfl
    | nodes =>
      simp only [view, Option.map_some, defaultedView, same, Tree.items?_strip]
      rfl
    | _ => simp [view, optionalView, defaultedView, strip_eq_id]

theorem isSome_view_link (o : Option Json) : (link.view o).isSome := by
  cases o with
  | none => rfl
  | some v =>
    simp only [view, optionalView]
    split <;> rfl

end FieldKind

def Field.strip (key : String) (f : Field) : Field :=
  if key = linkKey then ⟨.link, none⟩ else ⟨f.kind, f.kind.strip f.value⟩

namespace Tree

theorem fields_strip (t : Tree) : t.strip.fields = t.fields.map fun e => (e.1, e.2.strip e.1) := by
  cases t <;> simp [strip, fields, Field.strip, FieldKind.strip, linkKey, stripAll_eq, stripOption_eq]

theorem keys_strip (t : Tree) : t.strip.keys = t.keys := by
  rw [keys, fields_strip, Entries.keys_map]
  rfl

theorem extra_strip (t : Tree) : t.strip.extra = stripFields t.extra := by
  cases t <;> rfl

theorem namedRole_strip {t : Tree} (h : t.NamedRole) : t.strip.NamedRole := by
  cases t <;> exact h

variable {es : Json.Fields}

theorem extra_eraseEntries (keys : DistinctKeys es) (inner : ∀ e ∈ es, e.2.Distinct)
    (own : List String) :
    Member.extra (members (Json.eraseEntries linkKey es)) own =
      stripFields (Member.extra (members es) own) := by
  rw [Member.extra_members, Member.extra_members, stripFields,
    ← Json.eraseEntries_filter fun k => !own.contains k]
  apply Json.canonicalFields_eraseEntries (keys.filter _)
  intro e he
  exact Json.canonical_erase (inner e (List.mem_filter.mp he).1)

theorem read_eraseEntries (keys : DistinctKeys es)
    (same : ∀ e ∈ es, ofJson (e.2.erase linkKey) = (ofJson e.2).strip) {key : String}
    (other : key ≠ linkKey) (kind : FieldKind) :
    kind.read (members (Json.eraseEntries linkKey es)) key =
      (kind.read (members es) key).map kind.strip := by
  rw [kind.read_members keys, kind.read_members (Json.distinctKeys_eraseEntries keys),
    Json.get?_eraseEntries, if_neg other]
  exact kind.view_erase fun v hv => same (key, v) (Entries.mem_of_get? hv)

theorem read_link_eraseEntries (keys : DistinctKeys es) :
    FieldKind.link.read (members (Json.eraseEntries linkKey es)) linkKey = some none := by
  rw [FieldKind.read_members (Json.distinctKeys_eraseEntries keys), Json.get?_eraseEntries,
    if_pos rfl]
  rfl

theorem Fills.strip {t : Tree} {own : List String} (h : t.Fills (members es) own)
    (keys : DistinctKeys es) (inner : ∀ e ∈ es, e.2.Distinct)
    (same : ∀ e ∈ es, ofJson (e.2.erase linkKey) = (ofJson e.2).strip) :
    t.strip.Fills (members (Json.eraseEntries linkKey es)) own where
  keys := (keys_strip t).trans h.keys
  role := namedRole_strip h.role
  fields := by
    intro e he
    rw [fields_strip] at he
    obtain ⟨⟨key, f⟩, hf, rfl⟩ := List.mem_map.mp he
    show (f.strip key).kind.read _ key = some (f.strip key).value
    by_cases link : key = linkKey
    · rw [Field.strip, if_pos link, link]
      exact read_link_eraseEntries keys
    · rw [Field.strip, if_neg link, read_eraseEntries keys same link, h.fields _ hf]
      rfl
  extra := by rw [extra_strip, h.extra, extra_eraseEntries keys inner]

end Tree

namespace Variant

open Lojban.Tree (members)

variable {es : Json.Fields}

/-- A variant fits without links if and only if it fits with them: a link may be left out, and any
value will do for one. -/
theorem read_eraseEntries (k : Variant) (keys : DistinctKeys es) (inner : ∀ e ∈ es, e.2.Distinct)
    (same : ∀ e ∈ es, Tree.ofJson (e.2.erase linkKey) = (Tree.ofJson e.2).strip) :
    k.read (members (Json.eraseEntries linkKey es)) = (k.read (members es)).map Tree.strip := by
  cases hk : k.read (members es) with
  | some t => exact read_eq_some.mpr ((read_eq_some.mp hk).strip keys inner same)
  | none =>
    rw [Option.map_none, ← Option.not_isSome_iff_eq_none, isSome_read]
    intro fits
    have misfit : ¬ (k.read (members es)).isSome := by simp [hk]
    apply misfit
    apply isSome_read.mpr
    intro key own kind hkind
    by_cases link : key = linkKey
    · subst link
      cases hkind
      rw [FieldKind.read_members keys]
      exact FieldKind.isSome_view_link _
    · have fits := fits key own kind hkind
      rwa [Tree.read_eraseEntries keys same link, Option.isSome_map] at fits

end Variant

namespace Tree

theorem node_eraseEntries {es : Json.Fields} (keys : DistinctKeys es)
    (inner : ∀ e ∈ es, e.2.Distinct)
    (same : ∀ e ∈ es, ofJson (e.2.erase linkKey) = (ofJson e.2).strip) :
    Member.node (members (Json.eraseEntries linkKey es)) = (Member.node (members es)).strip := by
  have found : Variant.all.findSome? (·.read (members (Json.eraseEntries linkKey es))) =
      (Variant.all.findSome? (·.read (members es))).map strip := by
    rw [List.map_findSome?]
    congr 1
    funext k
    exact k.read_eraseEntries keys inner same
  have rest : other (.object (Member.extra (members (Json.eraseEntries linkKey es)) [])) =
      strip (other (.object (Member.extra (members es) []))) := by
    rw [extra_eraseEntries keys inner, strip, Json.erase, stripFields]
  rw [Member.node_eq_findSome?, Member.node_eq_findSome?, found, rest]
  exact Option.getD_map strip _ _

theorem ofJson_erase {v : Json} (h : v.Distinct) : ofJson (v.erase linkKey) = (ofJson v).strip := by
  induction v with
  | array vs ih =>
    rw [Json.distinct_array] at h
    rw [Json.erase_array, ofJson_array, ofJson_array, strip, stripAll_eq, List.map_map, List.map_map]
    exact congrArg composite (List.map_congr_left fun v hv => ih v hv (h v hv))
  | object es ih =>
    obtain ⟨keys, inner⟩ := Json.distinct_object.mp h
    rw [Json.erase, ofJson, ofJson]
    exact node_eraseEntries keys inner fun e he => ih e he (inner e he)
  | _ => rfl

end Tree

end Lojban
