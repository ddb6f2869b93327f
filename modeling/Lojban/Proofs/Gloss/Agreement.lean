import Lojban.Proofs.Brackets.Outline
import Lojban.Proofs.Gloss.Outline
import Lojban.Proofs.Tree.Reword

/-!
Glosses and brackets agree. Where no role rewrites a node and no word is left out, a gloss is the
tree in brackets with its words in English.
-/

namespace Lojban

theorem Vocabulary.isRemoved_eq_false {w : String} (h : w ∉ removed) : isRemoved w = false := by
  rw [isRemoved]
  simpa using h

open Lojban.Vocabulary (marks english removed)

theorem Lexicon.say_eq (x : Lexicon) (w : String) :
    x.say w = (marks.lookup w <|> english.lookup w <|> x.dictionary.gloss w).getD w := by
  rw [say, Vocabulary.fixed?]
  cases marks.lookup w <;> rfl

namespace Renderer

variable {r : Renderer} {t : Tree}

/-- A node that no role rewrites, and whose word is neither left out nor empty in English. -/
def Literal (r : Renderer) : Tree → Prop
  | .bridi b => b.role ≠ .bridi ∧ b.role ≠ .precedence
  | .leaf l => l.word ∉ removed
  | .text s =>
    s ≠ "" ∧ s ∉ removed ∧
      (marks.lookup s <|> english.lookup s <|> r.dictionary.gloss s).getD s ≠ ""
  | _ => True

theorem rephrase_eq_none (h : r.Literal t) : r.rephrase t = none := by
  cases t with
  | bridi b =>
    rw [Lexicon.rephrase]
    cases hr : b.role with
    | bridi => exact absurd hr h.1
    | precedence => exact absurd hr h.2
    | other name => rfl
  | _ => rfl

theorem keeps_node (h : r.Literal t) {m m' : Mode} (hm : m.elided = true) :
    r.keeps m (.node t) = (t.reword r.say).isVisible m' r.exempt := by
  cases t with
  | composite cs =>
    cases cs with
    | nil => rfl
    | cons c cs => rfl
  | text s =>
    obtain ⟨present, kept, said⟩ := h
    have present : (s != "") = true := bne_iff_ne.mpr present
    have kept : Vocabulary.isRemoved s = false := Vocabulary.isRemoved_eq_false kept
    have said : (r.say s != "") = true := by
      rw [r.say_eq]
      exact bne_iff_ne.mpr said
    simp [keeps, Tree.isVisible, Tree.text?, Tree.reword, present, said, kept]
  | leaf l =>
    have kept : Vocabulary.isRemoved l.word = false := Vocabulary.isRemoved_eq_false h
    simp [keeps, Tree.isVisible, Tree.text?, Tree.reword, hm, kept]
  | other v => simp [keeps, Tree.isVisible, Tree.text?, Tree.reword]
  | _ => rfl

theorem gloss_eq_brackets_reword (h : t.Everywhere r.Literal) {m m' : Mode} (hm : m.elided = true)
    (classes : m'.classes = false) (tables : m'.tables = false) :
    r.gloss m t = r.brackets m' (t.reword r.say) := by
  induction t using Tree.shape_induction with
  | token u s hs =>
    have worded : (u.reword r.say).shape = .token (r.say s) := Tree.shape_reword_of_eq hs
    rw [gloss_token (rephrase_eq_none h.here) hs, brackets, Tree.outline_token worded]
  | leaf u l hs =>
    have worded : (u.reword r.say).shape =
        .leaf { l with word := r.say l.word, elided := false } :=
      Tree.shape_reword_of_eq hs
    have display : Leaf.display m' { l with word := r.say l.word, elided := false } =
        r.say l.word := by
      simp only [Leaf.display, classes]
      cases l.selmaho <;> rfl
    rw [gloss_leaf (rephrase_eq_none h.here) hs, brackets, Tree.outline_leaf worded, display]
  | link u conversion inner hs ih =>
    have worded : (u.reword r.say).shape = .link conversion (inner.reword r.say) :=
      Tree.shape_reword_of_eq hs
    rw [gloss_link (rephrase_eq_none h.here) hs, ih (h.link hs), brackets, brackets,
      Tree.outline_link worded, tables]
    rfl
  | group u cs hs ih =>
    have worded : (u.reword r.say).shape = .group (cs.map (·.reword r.say)) :=
      Tree.shape_reword_of_eq hs
    have kept : (cs.map (·.reword r.say)).filter (·.isVisible m' r.exempt) =
        (cs.filter fun c => r.keeps m (.node c)).map (·.reword r.say) := by
      rw [List.filter_map]
      congr 1
      apply List.filter_congr
      intro c hc
      exact (keeps_node (h.group hs c hc).here hm).symm
    have inside : ∀ c ∈ cs.filter fun c => r.keeps m (.node c),
        r.gloss m c = r.brackets m' (c.reword r.say) := by
      intro c hc
      have hc : c ∈ cs := (List.mem_filter.mp hc).1
      exact ih c hc (h.group hs c hc)
    calc
      r.gloss m u = .ofParts ((cs.filter fun c => r.keeps m (.node c)).map (r.gloss m)) :=
        gloss_group (rephrase_eq_none h.here) hs
      _ = .ofParts ((cs.filter fun c => r.keeps m (.node c)).map fun c =>
            r.brackets m' (c.reword r.say)) := by
        rw [List.map_congr_left inside]
      _ = .ofParts (((cs.map (·.reword r.say)).filter (·.isVisible m' r.exempt)).map
            (r.brackets m')) := by
        rw [kept, List.map_map]
        rfl
      _ = r.brackets m' (u.reword r.say) := (Tree.outline_group worded).symm
  | unknown u hs =>
    have worded : (u.reword r.say).shape = .unknown := Tree.shape_reword_of_eq hs
    rw [gloss_unknown (rephrase_eq_none h.here) hs, brackets, Tree.outline_unknown worded]

theorem gloss_agrees_with_brackets (r : Renderer) (m m' : Mode) {t : Tree}
    (h : t.Everywhere r.Literal) :
    let worded := t.reword fun w =>
      (marks.lookup w <|> english.lookup w <|> r.dictionary.gloss w).getD w
    (r.gloss { m with elided := true } t).toString =
        (r.brackets { m' with classes := false, elided := true, tables := false } worded).toString ∧
      r.formatAs .gloss t { m with elided := true } =
        r.formatAs .brackets worded
          { m' with classes := false, elided := true, tables := false } := by
  intro worded
  have said : worded = t.reword r.say := congrArg (Tree.reword · t) (funext r.say_eq).symm
  have same : r.gloss { m with elided := true } t =
      r.brackets { m' with classes := false, elided := true, tables := false } worded := by
    rw [said]
    exact gloss_eq_brackets_reword h rfl rfl rfl
  constructor
  · rw [same]
  · rw [formatAs, formatAs, same]

end Renderer

/-- A relation of another role with its tail spliced in, between quotation marks, with an elided word,
a link past a conversion, groups of one and of none, and nodes with nothing to show. -/
def Tree.medley : Tree :=
  .composite [.text "lu", .bridi ⟨.other "fragment", [.composite [.text "mi"]],
    some (.tail ⟨.wrapper ⟨some (.composite [.text "se", .word "klama"]), some [2, 1], none, []⟩,
      [.leaf ⟨"cu", true, some "CU", none, []⟩], [.term ⟨some 2, .word "do", none, []⟩], none, none,
      []⟩), some (.composite []), none, []⟩, .text "li'u",
    .other .null, .other (.bool true), .wrapper ⟨none, none, none, []⟩]

def Renderer.small : Renderer :=
  ⟨⟨∅, ⟨fun w => [("lu", "quote"), ("mi", "I"), ("klama", "go")].lookup w, fun _ _ => none⟩⟩,
    fun _ => false⟩

theorem Renderer.gloss_agrees_with_brackets_medley :
    Tree.medley.Everywhere small.Literal ∧
      (small.gloss { Mode.blank with elided := true } .medley).toString =
        "[« [me cu [se go] do] » [???] [???]]" ∧
      (small.gloss { Mode.blank with elided := true } .medley).toString =
        (small.brackets { Mode.blank with classes := false, elided := true, tables := false }
          (Tree.medley.reword fun w =>
            (marks.lookup w <|> english.lookup w <|> small.dictionary.gloss w).getD w)).toString := by
  have literal : Tree.medley.Everywhere small.Literal := by
    simp [Tree.medley, Tree.word, Literal]
    decide
  exact ⟨literal, by decide +kernel, (small.gloss_agrees_with_brackets .blank .blank literal).1⟩

end Lojban
