import Lojban.Json.Value
import Lojban.Json.Writer

namespace Lojban

inductive Error where
  | json (f : Json.Fault)
  | unknownFormat (name : String)
  | notFound
  | notText
  deriving DecidableEq, Repr

def Error.message : Error → String
  | json .malformed => "malformed JSON"
  | json .truncated => "JSON text ends too early"
  | json .mismatched => "JSON value of another form"
  | unknownFormat name => "unrecognized mode: " ++ name
  | notFound => "no such file"
  | notText => "file is not UTF-8 text"

def textOfBytes (bytes : ByteArray) : Except Error String :=
  match String.fromUTF8? bytes with
  | some text => .ok text
  | none => .error .notText

inductive Format where
  | brackets
  | gloss
  | raw
  | rawStructure
  deriving DecidableEq, Repr

namespace Format

def name : Format → String
  | brackets => "brackets"
  | gloss => "gloss"
  | raw => "raw"
  | rawStructure => "rawstructure"

def ofName (name : String) : Except Error Format :=
  match name with
  | "brackets" | "b" => .ok brackets
  | "gloss" | "g" => .ok gloss
  | "raw" | "r" => .ok raw
  | "rawstructure" => .ok rawStructure
  | other => .error (.unknownFormat other)

end Format

structure Mode where
  /-- The name of a format, known or not. -/
  format : String := Format.brackets.name
  classes : Bool := false
  elided : Bool := true
  tables : Bool := false
  startRule : String := "text"
  deriving DecidableEq, Repr

namespace Mode

def blank : Mode := ⟨Format.brackets.name, false, true, false, "text"⟩

def ofFormat (f : Format) : Mode := { blank with format := f.name }

def format? (m : Mode) : Except Error Format := Format.ofName m.format

open Json Json.Reader

def fields : List (RecordField Mode) :=
  [.of ["format"] string fun m v => { m with format := v },
   .of ["s"] flag fun m v => { m with classes := v },
   .of ["f"] flag fun m v => { m with elided := v },
   .of ["p"] flag fun m v => { m with tables := v },
   .of ["start_rule", "startRule"] string fun m v => { m with startRule := v }]

def reader : Reader Mode := record fields blank

def ofText (text : String) : Except Error Mode := (reader.run text).mapError .json

def toJson (m : Mode) : Json :=
  .object [("format", .string m.format), ("s", .bool m.classes), ("f", .bool m.elided),
    ("p", .bool m.tables), ("start_rule", .string m.startRule)]

end Mode

end Lojban
