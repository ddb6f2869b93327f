import Lojban.Tree.Basic

/-!
What a gloss says before its words are put into English: nodes still to be glossed, words, and English
that stays as it is.
-/

namespace Lojban

inductive Phrase where
  | node (t : Tree)
  | seq (parts : List Phrase)
  | word (w : String)
  | text (s : String)
  | unknown

namespace Phrase

def isEmpty : Phrase → Bool
  | node t => t.isEmpty
  | seq ps => ps.isEmpty
  | word w => w == ""
  | text s => s == ""
  | unknown => false

def ofParts (ps : List Phrase) : Phrase := seq (ps.filter (!·.isEmpty))

mutual

def nodes : Phrase → List Tree
  | node t => [t]
  | seq ps => nodesAll ps
  | _ => []

def nodesAll : List Phrase → List Tree
  | [] => []
  | p :: ps => p.nodes ++ nodesAll ps

end

mutual

/-- `P` holds of every piece of a phrase: of all in it that is no sequence. -/
def Every (P : Phrase → Prop) : Phrase → Prop
  | seq ps => EveryAll P ps
  | node t => P (node t)
  | word w => P (word w)
  | text s => P (text s)
  | unknown => P unknown

def EveryAll (P : Phrase → Prop) : List Phrase → Prop
  | [] => True
  | p :: ps => p.Every P ∧ EveryAll P ps

end

variable {P : Phrase → Prop}

@[simp] theorem every_node {t : Tree} : (node t).Every P ↔ P (node t) := by rw [Every]

@[simp] theorem every_word {w : String} : (word w).Every P ↔ P (word w) := by rw [Every]

@[simp] theorem every_text {s : String} : (text s).Every P ↔ P (text s) := by rw [Every]

@[simp] theorem every_unknown : unknown.Every P ↔ P unknown := by rw [Every]

@[simp] theorem every_seq {ps : List Phrase} : (seq ps).Every P ↔ ∀ p ∈ ps, p.Every P := by
  rw [Every]
  induction ps with
  | nil => simp [EveryAll]
  | cons p ps ih => simp [EveryAll, ih]

theorem every_ofParts {ps : List Phrase} (h : ∀ p ∈ ps, p.Every P) : (ofParts ps).Every P :=
  every_seq.mpr fun p hp => h p (List.mem_filter.mp hp).1

mutual

theorem Every.nodes : ∀ {p : Phrase}, p.Every P → ∀ c ∈ p.nodes, P (node c)
  | node _, h => by
    intro c hc
    rw [List.mem_singleton.mp hc]
    exact every_node.mp h
  | seq _, h => EveryAll.nodes h
  | word _, _ => by simp [Phrase.nodes]
  | text _, _ => by simp [Phrase.nodes]
  | unknown, _ => by simp [Phrase.nodes]

theorem EveryAll.nodes : ∀ {ps : List Phrase}, EveryAll P ps → ∀ c ∈ nodesAll ps, P (node c)
  | [], _ => by simp [nodesAll]
  | p :: ps, h => by
    intro c hc
    rcases List.mem_append.mp hc with hc | hc
    · exact h.1.nodes c hc
    · exact h.2.nodes c hc

end

end Phrase

end Lojban
