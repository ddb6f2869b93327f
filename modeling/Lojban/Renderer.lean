import Lojban.Gloss.Relation
import Lojban.Glyphs
import Lojban.Outline
import Lojban.Tree.ToJson

namespace Lojban

/-- Fixed English first, then the dictionary, then the word itself. -/
def Lexicon.say (x : Lexicon) (w : String) : String :=
  (Vocabulary.fixed? w <|> x.dictionary.gloss w).getD w

namespace Phrase

mutual

def outline (kept : Phrase → Bool) (say : String → String) :
    (p : Phrase) → ((t : Tree) → t ∈ p.nodes → Outline) → Outline
  | node t, gloss => gloss t (by simp [nodes])
  | seq ps, gloss => .ofParts (outlineAll kept say ps fun t h => gloss t (by simpa [nodes] using h))
  | word w, _ => .text (say w)
  | text s, _ => .text s
  | unknown, _ => .placeholder

def outlineAll (kept : Phrase → Bool) (say : String → String) :
    (ps : List Phrase) → ((t : Tree) → t ∈ nodesAll ps → Outline) → List Outline
  | [], _ => []
  | p :: ps, gloss =>
    let rest := outlineAll kept say ps fun t h => gloss t (by simp [nodesAll, h])
    if kept p then p.outline kept say (fun t h => gloss t (by simp [nodesAll, h])) :: rest else rest

end

end Phrase

structure Renderer extends Lexicon where
  exempt : Exemption

namespace Renderer

def blank : Renderer := ⟨⟨∅, .void⟩, Leaf.isPlaceTag⟩

def keeps (r : Renderer) (m : Mode) : Phrase → Bool
  | .node t => t.isVisible m r.exempt && !t.text?.any Vocabulary.isRemoved
  | .word w => w != "" && !Vocabulary.isRemoved w
  | p => !p.isEmpty

def brackets (r : Renderer) (m : Mode) (t : Tree) : Outline := t.outline m r.exempt

def gloss (r : Renderer) (m : Mode) (t : Tree) : Outline :=
  (r.phrase t).outline (r.keeps m) r.say fun c h =>
    have := Lexicon.sizeOf_lt_of_mem_phrase h
    r.gloss m c
termination_by sizeOf t

/-- A tree in `f`, whatever format the mode names. -/
def formatAs (r : Renderer) (f : Format) (t : Tree) (m : Mode) : String :=
  match f with
  | .rawStructure => t.toJson.write
  | .raw => t.strip.toJson.write
  | .brackets => prettify (r.brackets m t).toString
  | .gloss => prettify (r.gloss m t).toString

def format (r : Renderer) (t : Tree) (m : Mode) : Except Error String := do
  return r.formatAs (← m.format?) t m

end Renderer

end Lojban
