import Lojban.Tree.Basic

namespace Lojban

namespace Json

def given (key : String) : Option Json → Fields
  | none => []
  | some v => [(key, v)]

def filled (key : String) : List Json → Fields
  | [] => []
  | vs => [(key, array vs)]

def place (n : Nat) : Json := number (.int n)

def places (ns : List Nat) : Json := array (ns.map place)

end Json

open Json (given filled)

def linkKey : String := "structure"

namespace Leaf

def toJson (l : Leaf) : Json :=
  .object (("word", .string l.word) ::
    given "elided" (if l.elided then some (.bool true) else none) ++
    given "selmaho" (l.selmaho.map .string) ++ given "place" (l.place.map Json.place) ++ l.extra)

end Leaf

namespace Tree

mutual

/-- Fields stand in a fixed order, what the node also holds after them. A field that would hold nothing
is left out. -/
def toJson : Tree → Json
  | composite cs => .array (toJsonAll cs)
  | text s => .string s
  | leaf l => l.toJson
  | bridi ⟨role, head, rear, contents, link, extra⟩ =>
    .object (("role", .string role.name) :: filled "head" (toJsonAll head) ++
      given "tail" (toJsonOption rear) ++ given "contents" (toJsonOption contents) ++
      given linkKey (toJsonOption link) ++ extra)
  | conjunction ⟨left, right, joiner, scope, tailTerms, link, extra⟩ =>
    .object (given "left" (toJsonOption left) ++ ("right", right.toJson) ::
      given "joiner" (toJsonOption joiner) ++ filled "scope" (toJsonAll scope) ++
      filled "tail_terms" (toJsonAll tailTerms) ++ given linkKey (toJsonOption link) ++ extra)
  | tail ⟨selbri, preterms, tailTerms, tagged, link, extra⟩ =>
    .object (("selbri", selbri.toJson) :: filled "preterms" (toJsonAll preterms) ++
      filled "tail_terms" (toJsonAll tailTerms) ++
      given "fa_after_tail" (tagged.map Json.places) ++ given linkKey (toJsonOption link) ++ extra)
  | term ⟨place, sumti, link, extra⟩ =>
    .object (given "place" (place.map Json.place) ++ ("sumti", sumti.toJson) ::
      given linkKey (toJsonOption link) ++ extra)
  | wrapper ⟨link, conversion, tertau, extra⟩ =>
    .object (given linkKey (toJsonOption link) ++ given "se_table" (conversion.map Json.places) ++
      given "tertau" (toJsonOption tertau) ++ extra)
  | other v => v

def toJsonAll : List Tree → List Json
  | [] => []
  | t :: ts => t.toJson :: toJsonAll ts

def toJsonOption : Option Tree → Option Json
  | none => none
  | some t => some t.toJson

end

end Tree

def Json.stripFields (es : Json.Fields) : Json.Fields := Json.eraseEntries linkKey es

namespace Tree

open Json (stripFields)

mutual

def strip : Tree → Tree
  | composite cs => composite (stripAll cs)
  | text s => text s
  | leaf l => leaf { l with extra := stripFields l.extra }
  | bridi ⟨role, head, rear, contents, _, extra⟩ =>
    bridi ⟨role, stripAll head, stripOption rear, stripOption contents, none, stripFields extra⟩
  | conjunction ⟨left, right, joiner, scope, tailTerms, _, extra⟩ =>
    conjunction ⟨stripOption left, right.strip, stripOption joiner, stripAll scope,
      stripAll tailTerms, none, stripFields extra⟩
  | tail ⟨selbri, preterms, tailTerms, tagged, _, extra⟩ =>
    tail ⟨selbri.strip, stripAll preterms, stripAll tailTerms, tagged, none, stripFields extra⟩
  | term ⟨place, sumti, _, extra⟩ => term ⟨place, sumti.strip, none, stripFields extra⟩
  | wrapper ⟨_, conversion, tertau, extra⟩ =>
    wrapper ⟨none, conversion, stripOption tertau, stripFields extra⟩
  | other v => other (v.erase linkKey)

def stripAll : List Tree → List Tree
  | [] => []
  | t :: ts => t.strip :: stripAll ts

def stripOption : Option Tree → Option Tree
  | none => none
  | some t => some t.strip

end

end Tree

end Lojban
