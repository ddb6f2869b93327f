import Lojban.Proofs.Json.Canonical
import Lojban.Tree.OfJson

namespace Lojban

open Entries (DistinctKeys get? get?_cons get?_eq_none)

namespace Tree

theorem ofJsonAll_eq (vs : List Json) : ofJsonAll vs = vs.map ofJson := by
  induction vs with
  | nil => rfl
  | cons v vs ih => simp only [ofJsonAll, ih, List.map_cons]

theorem members_eq (es : Json.Fields) :
    members es = es.map fun e => ⟨e.1, e.2, ofJson e.2⟩ := by
  induction es with
  | nil => rfl
  | cons e es ih => simp only [members, ih, List.map_cons]

theorem toJsonAll_eq (ts : List Tree) : toJsonAll ts = ts.map toJson := by
  induction ts with
  | nil => rfl
  | cons t ts ih => simp only [toJsonAll, ih, List.map_cons]

theorem toJsonOption_eq (t : Option Tree) : toJsonOption t = t.map toJson := by
  cases t <;> rfl

@[simp] theorem ofJson_array (vs : List Json) :
    ofJson (.array vs) = composite (vs.map ofJson) := by
  rw [ofJson, ofJsonAll_eq]

@[simp] theorem toJson_composite (ts : List Tree) :
    (composite ts).toJson = .array (ts.map toJson) := by
  rw [toJson, toJsonAll_eq]

def items? : Tree → Option (List Tree)
  | composite ts => some ts
  | _ => none

end Tree

inductive FieldKind where
  | text
  | label
  | flag
  | place
  | places
  | node
  | link
  | nodes
  deriving DecidableEq

namespace FieldKind

def ofKey? (key : String) : Option FieldKind :=
  match key with
  | "word" | "role" => some text
  | "selmaho" => some label
  | "elided" => some flag
  | "place" => some place
  | "se_table" | "fa_after_tail" => some places
  | "right" | "selbri" | "sumti" => some node
  | "tail" | "contents" | "left" | "joiner" | "tertau" | "structure" => some link
  | "head" | "scope" | "preterms" | "tail_terms" => some nodes
  | _ => none

abbrev Value : FieldKind → Type
  | text => String
  | label => Option String
  | flag => Bool
  | place => Option Nat
  | places => Option (List Nat)
  | node => Tree
  | link => Option Tree
  | nodes => List Tree

def read : (k : FieldKind) → List Member → String → Option k.Value
  | text, ms, key => Member.required ms key (·.value.string?)
  | label, ms, key => Member.optional ms key (·.value.string?)
  | flag, ms, key => Member.defaulted ms key false (·.value.bool?)
  | place, ms, key => Member.optional ms key (·.value.place?)
  | places, ms, key => Member.optional ms key (·.value.places?)
  | node, ms, key => Member.required ms key Member.tree?
  | link, ms, key => Member.optional ms key Member.tree?
  | nodes, ms, key => Member.defaulted ms key [] Member.trees?

/-- What stands in the object for a value, if anything does. -/
def write : (k : FieldKind) → k.Value → Option Json
  | text, s => some (.string s)
  | label, s => s.map .string
  | flag, b => if b then some (.bool true) else none
  | place, n => n.map Json.place
  | places, ns => ns.map Json.places
  | node, t => some t.toJson
  | link, t => t.map Tree.toJson
  | nodes, ts => if ts.isEmpty then none else some (.array (ts.map Tree.toJson))

def optionalView {α : Type} (read : Json → Option α) : Option Json → Option (Option α)
  | none => some none
  | some v => if v = .null then some none else some <$> read v

def defaultedView {α : Type} (blank : α) (read : Json → Option α) : Option Json → Option α
  | none => some blank
  | some v => read v

def view : (k : FieldKind) → Option Json → Option k.Value
  | text, o => o.bind Json.string?
  | label, o => optionalView Json.string? o
  | flag, o => defaultedView false Json.bool? o
  | place, o => optionalView Json.place? o
  | places, o => optionalView Json.places? o
  | node, o => o.map Tree.ofJson
  | link, o => optionalView (fun v => some (Tree.ofJson v)) o
  | nodes, o => defaultedView [] (fun v => (Tree.ofJson v).items?) o

end FieldKind

namespace Member

variable {α : Type}

theorem only?_members {es : Json.Fields} (h : DistinctKeys es) (key : String) :
    only? (Tree.members es) key =
      some ((get? key es).map fun v => ⟨key, v, Tree.ofJson v⟩) := by
  have none_of_absent {es : Json.Fields} (h : key ∉ Entries.keys es) :
      (Tree.members es).filter (·.key == key) = [] := by
    apply List.filter_eq_nil_iff.mpr
    intro m hm
    rw [Tree.members_eq] at hm
    obtain ⟨e, he, rfl⟩ := List.mem_map.mp hm
    have : e.1 ≠ key := fun hk => h (hk ▸ List.mem_map_of_mem he)
    simpa using this
  induction es with
  | nil => rfl
  | cons e es ih =>
    have ⟨fresh, rest⟩ := Entries.distinctKeys_cons.mp h
    rw [get?_cons, only?, Tree.members, List.filter_cons]
    by_cases hk : key = e.1
    · subst hk
      simp [none_of_absent fresh]
    · have differs : (e.1 == key) = false := by simpa using Ne.symm hk
      simp only [differs, Bool.false_eq_true, if_false, if_neg hk]
      exact ih rest

theorem extra_members (es : Json.Fields) (own : List String) :
    extra (Tree.members es) own =
      Json.canonicalFields (es.filter fun e => !own.contains e.1) := by
  rw [extra, Json.canonicalFields, Tree.members_eq, List.filter_map, List.map_map]
  rfl

theorem required_members {es : Json.Fields} (h : DistinctKeys es) (key : String)
    (read : Member → Option α) :
    required (Tree.members es) key read =
      (get? key es).bind fun v => read ⟨key, v, Tree.ofJson v⟩ := by
  rw [required, only?_members h]
  cases get? key es <;> rfl

theorem optional_members {es : Json.Fields} (h : DistinctKeys es) (key : String)
    (read : Member → Option α) :
    optional (Tree.members es) key read =
      FieldKind.optionalView (fun v => read ⟨key, v, Tree.ofJson v⟩) (get? key es) := by
  rw [optional, only?_members h]
  cases get? key es <;> rfl

theorem defaulted_members {es : Json.Fields} (h : DistinctKeys es) (key : String) (blank : α)
    (read : Member → Option α) :
    defaulted (Tree.members es) key blank read =
      FieldKind.defaultedView blank (fun v => read ⟨key, v, Tree.ofJson v⟩) (get? key es) := by
  rw [defaulted, only?_members h]
  cases get? key es <;> rfl

end Member

theorem FieldKind.read_members {es : Json.Fields} (h : DistinctKeys es) (k : FieldKind)
    (key : String) : k.read (Tree.members es) key = k.view (get? key es) := by
  cases k with
  | text => exact Member.required_members h key _
  | label => exact Member.optional_members h key _
  | flag => exact Member.defaulted_members h key _ _
  | place => exact Member.optional_members h key _
  | places => exact Member.optional_members h key _
  | node =>
    rw [read, Member.required_members h, view]
    cases get? key es <;> rfl
  | link => exact Member.optional_members h key _
  | nodes =>
    rw [read, Member.defaulted_members h, view]
    cases get? key es with
    | none => rfl
    | some v =>
      simp only [defaultedView, Member.trees?]
      cases Tree.ofJson v <;> rfl

end Lojban
