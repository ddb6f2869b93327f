import Lojban.Mode
import Lojban.Table
import Lojban.Text.Case

namespace Lojban

namespace Vocabulary

/-- Terminators and other particles that only mark structure. A gloss leaves them out. -/
def removed : List String :=
  ["ku", "ke", "ke'e", "vau", "ku'o", "kei", "boi"]

def marks : List (String × String) :=
  [("lu", "«"), ("li'u", "»"), ("lo'u", "«"), ("le'u", "»"), ("to", "("), ("toi", ")"),
   ("sei", "("), ("se'u", ")")]

def english : List (String × String) :=
  [("lo", "a(n)"), ("le", "the"), ("la", "that-named"), ("nu", "event-of"), ("zo", "the-word:"),
   ("coi", "hello"), ("co'o", "goodbye"), ("ro", "each-of"), ("ma", "what"), ("na", "not"),
   ("na'e", "not"), ("nai", "-not"), ("nelci", "fond-of"), ("ka", "being"), ("tu'a", "about"),
   ("ie", "yeah"), ("e'u", "I-suggest"), ("e", "and"), ("a", "and/or"), ("je", "and"),
   ("ja", "and/or"), ("gi'e", ",-and"), ("gi'a", ",-and/or"), ("bu'u", "at"), ("ca", "at-present"),
   ("zo'u", ":"), ("za'a", "as-I-can-see"), ("za'adai", "as-you-can-see"), ("pu", "in-past"),
   ("ba", "in-future"), ("vau", "]"), ("doi", "oh"), ("uinai", "unfortunately"), ("u'u", "sorry"),
   ("ko", "do-it-so-that-you"), ("poi", "that"), ("noi", ", which"), ("me", "among"),
   ("pe'i", "in-my-opinion"), ("ui", "yay"), ("ju", "whether-or-not"), ("gu", "whether-or-not"),
   ("gi'u", "whether-or-not"), ("u", "whether-or-not"), ("xu", "is-it-true-that"),
   ("ka'e", "possibly-can"), ("re'u", "time"), ("roi", "times"), ("mi", "me")]

def isRemoved (w : String) : Bool := removed.contains w

def fixed? (w : String) : Option String := marks.lookup w <|> english.lookup w

end Vocabulary

structure Dictionary where
  gloss : String → Option String
  keyword : String → Nat → Option String

def Dictionary.void : Dictionary := ⟨fun _ => none, fun _ _ => none⟩

structure Entry where
  gloss : Option String := none
  keywords : Table Nat String := ∅
  deriving DecidableEq

namespace Entry

open Json.Reader

def fields : List (RecordField Entry) :=
  [.of ["gloss"] (optional string) fun e v => { e with gloss := v },
   .of ["keywords"] (entries placeKey string) fun e v => { e with keywords := Table.ofList v }]

def reader : Json.Reader Entry := record fields ⟨none, ∅⟩

def ofText (text : String) : Except Error Entry := (reader.run text).mapError .json

end Entry

/-- Entries by word, whatever its case. Words with the same lowercase form share an entry, and what
counts as the lowercase form is part of the type, so no list is filled by one and searched by another. -/
structure WordList (lower : String → String := Case.lower) where
  entries : Table String Entry := ∅
  deriving DecidableEq

namespace WordList

variable {lower : String → String}

def empty : WordList lower := ⟨∅⟩

def insert (l : WordList lower) (word : String) (e : Entry) : WordList lower :=
  ⟨l.entries.insert (lower word) e⟩

def size (l : WordList lower) : Nat := l.entries.size

def isEmpty (l : WordList lower) : Bool := l.entries.isEmpty

def entry? (l : WordList lower) (word : String) : Option Entry := l.entries.get? (lower word)

def gloss (l : WordList lower) (word : String) : Option String := l.entry? word >>= (·.gloss)

def keyword (l : WordList lower) (word : String) (place : Nat) : Option String :=
  l.entry? word >>= (·.keywords.get? place)

def toDictionary (l : WordList lower) : Dictionary := ⟨l.gloss, l.keyword⟩

def ofEntries (es : Entries String Entry) : WordList lower :=
  es.foldl (fun l e => l.insert e.1 e.2) empty

def reader : Json.Reader (Entries String Entry) := Json.Reader.entries Json.Reader.text Entry.reader

/-- An object goes through a table by its exact words, and its entries are inserted as that table is
walked. -/
def ofText (text : String) (lower : String → String := Case.lower)
    (walk : Table.Walk String Entry := .inOrder) : Except Error (WordList lower) := do
  let es ← (reader.run text).mapError .json
  return ofEntries (walk.entries (Table.ofList es))

end WordList

end Lojban
