import Lojban.Renderer
import Lojban.Tree.OfJson

namespace Lojban

namespace CommandLine

structure Settings where
  file : String
  mode : Mode
  places : Option String
  dictionary : Option String
  deriving DecidableEq, Repr

inductive Setting where
  | classes
  | elided (shown : Bool)
  | tables
  | format (name : String)
  | places (file : String)
  | dictionary (file : String)
  deriving DecidableEq, Repr

inductive Argument where
  | help
  | set (s : Setting)
  | valued (setting : String → Setting)
  | positional

def Argument.ofText (text : String) : Argument :=
  match text with
  | "-h" | "--help" => help
  | "-s" => set .classes
  | "-f" => set (.elided true)
  | "--no-f" => set (.elided false)
  | "-p" => set .tables
  | "--format" => valued .format
  | "--places" => valued .places
  | "--dictionary" => valued .dictionary
  | _ => positional

structure Draft where
  file : Option String := none
  mode : Mode := .blank
  places : Option String := none
  dictionary : Option String := none
  deriving DecidableEq, Repr

def Draft.set (d : Draft) : Setting → Draft
  | .classes => { d with mode := { d.mode with classes := true } }
  | .elided shown => { d with mode := { d.mode with elided := shown } }
  | .tables => { d with mode := { d.mode with tables := true } }
  | .format name => { d with mode := { d.mode with format := name } }
  | .places file => { d with places := some file }
  | .dictionary file => { d with dictionary := some file }

inductive UsageError where
  | needsValue (option : String)
  | secondFile
  | noFile
  deriving DecidableEq, Repr

inductive Request where
  | help
  | render (s : Settings)
  | refused (e : UsageError)
  deriving DecidableEq, Repr

def Draft.request (d : Draft) : Request :=
  match d.file with
  | some file => .render ⟨file, d.mode, d.places, d.dictionary⟩
  | none => .refused .noFile

/-- Scans arguments from the left. An option with a value takes the next one, whatever it is. -/
def scan (d : Draft) : List String → Request
  | [] => d.request
  | a :: rest =>
    match Argument.ofText a, rest with
    | .help, _ => .help
    | .set s, rest => scan (d.set s) rest
    | .valued _, [] => .refused (.needsValue a)
    | .valued setting, b :: rest => scan (d.set (setting b)) rest
    | .positional, rest =>
      if d.file.isNone then scan { d with file := some a } rest else .refused .secondFile

def request (args : List String) : Request := scan ⟨none, .blank, none, none⟩ args

def usage (program : String) : String :=
  "\n".intercalate
    ["Usage: " ++ program ++ " FILE [options]",
     "",
     "Renders a parse tree (JSON, `-` for stdin).",
     "",
     "Options:",
     "  -h, --help             Print this message",
     "  --format NAME          brackets (default), gloss, raw, or rawstructure",
     "  -s                     Show selma'o names",
     "  -f, --no-f             Show (default) or hide elided terminators",
     "  -p                     Show place tables",
     "  --places FILE          Place table used by the gloss format (JSON)",
     "  --dictionary FILE      Word list used by the gloss format (JSON)"]

def UsageError.reason : UsageError → String
  | needsValue option => option ++ " needs a value"
  | secondFile => "invalid arguments"
  | noFile => "missing filename"

def UsageError.message (program : String) (e : UsageError) : String :=
  "argument error: " ++ e.reason ++ ".\n\n" ++ usage program

inductive Source where
  | input
  | file (name : String)
  deriving DecidableEq, Repr

def Source.ofName (name : String) : Source :=
  if name = "-" then input else file name

variable {m : Type → Type} [Monad m]

/-- Reads the tables before the tree, and looks at the format last. -/
def render (read : Source → ExceptT Error m String) (s : Settings) : ExceptT Error m String := do
  let places ← match s.places with
    | some file => do PlaceTable.ofText (← read (.file file))
    | none => pure ∅
  let dictionary ← match s.dictionary with
    | some file => do
      let words ← WordList.ofText (← read (.file file))
      pure words.toDictionary
    | none => pure Dictionary.void
  let tree ← Tree.ofText (← read (.ofName s.file))
  Renderer.format ⟨⟨places, dictionary⟩, Leaf.isPlaceTag⟩ tree s.mode

structure Exit where
  code : UInt8
  stdout : String
  stderr : String
  deriving DecidableEq, Repr

def run (read : Source → ExceptT Error m String) (program : String) (args : List String) :
    ExceptT Error m Exit := do
  match request args with
  | .help => return ⟨0, usage program ++ "\n", ""⟩
  | .refused e => return ⟨255, "", e.message program ++ "\n"⟩
  | .render s => return ⟨0, (← render read s) ++ "\n", ""⟩

end CommandLine

end Lojban
