import Lojban.Json.Value
import Lojban.Mode
import Lojban.Tree.ToJson

/-!
Trees from JSON values. Arrays and strings are read by their kind alone. An object is the first
variant whose own fields are all well typed; what else it holds is kept with the node. Any other
value is a node that holds it, so every value is read.
-/

namespace Lojban

structure Member where
  key : String
  value : Json
  tree : Tree

namespace Json

def string? : Json → Option String
  | string s => some s
  | _ => none

def bool? : Json → Option Bool
  | bool b => some b
  | _ => none

def place? : Json → Option Nat
  | number n => n.place?
  | _ => none

def places? : Json → Option (List Nat)
  | array vs => vs.mapM place?
  | _ => none

end Json

namespace Member

def tree? (m : Member) : Option Tree := some m.tree

def trees? (m : Member) : Option (List Tree) :=
  match m.tree with
  | .composite cs => some cs
  | _ => none

variable {α : Type}

/-- The member called `key`, if there is one. More than one fit no variant. -/
def only? (ms : List Member) (key : String) : Option (Option Member) :=
  match ms.filter (·.key == key) with
  | [] => some none
  | [m] => some (some m)
  | _ => none

def required (ms : List Member) (key : String) (read : Member → Option α) : Option α := do
  (← only? ms key).bind read

def optional (ms : List Member) (key : String) (read : Member → Option α) : Option (Option α) := do
  match ← only? ms key with
  | none => some none
  | some m => if m.value = .null then some none else some <$> read m

def defaulted (ms : List Member) (key : String) (blank : α) (read : Member → Option α) :
    Option α := do
  match ← only? ms key with
  | none => some blank
  | some m => read m

def extra (ms : List Member) (own : List String) : Json.Fields :=
  Entries.sort ((ms.filter fun m => !own.contains m.key).map fun m => (m.key, m.value.canonical))

def leaf? (ms : List Member) : Option Tree := do
  let word ← required ms "word" (·.value.string?)
  let elided ← defaulted ms "elided" false (·.value.bool?)
  let selmaho ← optional ms "selmaho" (·.value.string?)
  let place ← optional ms "place" (·.value.place?)
  return .leaf ⟨word, elided, selmaho, place, extra ms ["word", "elided", "selmaho", "place"]⟩

def bridi? (ms : List Member) : Option Tree := do
  let role ← required ms "role" (·.value.string?)
  let head ← defaulted ms "head" [] trees?
  let tail ← optional ms "tail" tree?
  let contents ← optional ms "contents" tree?
  let link ← optional ms linkKey tree?
  return .bridi ⟨Role.ofName role, head, tail, contents, link,
    extra ms ["role", "head", "tail", "contents", linkKey]⟩

def conjunction? (ms : List Member) : Option Tree := do
  let left ← optional ms "left" tree?
  let right ← required ms "right" tree?
  let joiner ← optional ms "joiner" tree?
  let scope ← defaulted ms "scope" [] trees?
  let tailTerms ← defaulted ms "tail_terms" [] trees?
  let link ← optional ms linkKey tree?
  return .conjunction ⟨left, right, joiner, scope, tailTerms, link,
    extra ms ["left", "right", "joiner", "scope", "tail_terms", linkKey]⟩

def tail? (ms : List Member) : Option Tree := do
  let selbri ← required ms "selbri" tree?
  let preterms ← defaulted ms "preterms" [] trees?
  let tailTerms ← defaulted ms "tail_terms" [] trees?
  let tagged ← optional ms "fa_after_tail" (·.value.places?)
  let link ← optional ms linkKey tree?
  return .tail ⟨selbri, preterms, tailTerms, tagged, link,
    extra ms ["selbri", "preterms", "tail_terms", "fa_after_tail", linkKey]⟩

def term? (ms : List Member) : Option Tree := do
  let place ← optional ms "place" (·.value.place?)
  let sumti ← required ms "sumti" tree?
  let link ← optional ms linkKey tree?
  return .term ⟨place, sumti, link, extra ms ["place", "sumti", linkKey]⟩

def wrapper? (ms : List Member) : Option Tree := do
  let link ← optional ms linkKey tree?
  let conversion ← optional ms "se_table" (·.value.places?)
  let tertau ← optional ms "tertau" tree?
  return .wrapper ⟨link, conversion, tertau, extra ms [linkKey, "se_table", "tertau"]⟩

def node (ms : List Member) : Tree :=
  (leaf? ms <|> bridi? ms <|> conjunction? ms <|> tail? ms <|> term? ms <|> wrapper? ms).getD
    (.other (.object (extra ms [])))

end Member

namespace Tree

mutual

def ofJson : Json → Tree
  | .array vs => composite (ofJsonAll vs)
  | .string s => text s
  | .object es => Member.node (members es)
  | v => other v

def ofJsonAll : List Json → List Tree
  | [] => []
  | v :: vs => ofJson v :: ofJsonAll vs

def members : List (String × Json) → List Member
  | [] => []
  | (k, v) :: es => ⟨k, v, ofJson v⟩ :: members es

end

def ofText (text : String) : Except Error Tree := ((Json.read text).map ofJson).mapError .json

end Tree

end Lojban
