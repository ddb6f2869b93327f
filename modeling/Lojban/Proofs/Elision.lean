import Lojban.Proofs.Brackets.Outline
import Lojban.Proofs.Gloss.Outline
import Lojban.Proofs.Outline.Chars

/-!
Hiding elided words. In brackets and in a gloss it takes pieces away and changes nothing else, and it
takes none away if every elided word is exempt.
-/

namespace Lojban

open Outline (pieces pieces_ofParts_sublist)

def Mode.withElided (m : Mode) (shown : Bool) : Mode := { m with elided := shown }

variable {m : Mode}

namespace Tree

variable {exempt : Exemption} {t : Tree}

theorem isVisible_of_hidden (h : t.isVisible (m.withElided false) exempt) :
    t.isVisible (m.withElided true) exempt := by
  cases t with
  | leaf l => simp [isVisible, Mode.withElided]
  | _ => exact h

def Exempt (exempt : Exemption) (t : Tree) : Prop := ∀ l, t = leaf l → l.elided → exempt l

theorem isVisible_of_exempt (h : t.Exempt exempt) :
    t.isVisible (m.withElided false) exempt =
      t.isVisible (m.withElided true) exempt := by
  cases t with
  | leaf l =>
    cases elided : l.elided with
    | false => simp [isVisible, elided]
    | true => simp [isVisible, h l rfl elided]
  | _ => rfl

theorem pieces_outline_sublist (tables : m.tables = false) :
    (pieces (t.outline (m.withElided false) exempt).chars).Sublist
      (pieces (t.outline (m.withElided true) exempt).chars) := by
  induction t using shape_induction with
  | token t s hs =>
    simp only [outline_token hs, List.Sublist.refl]
  | leaf t l hs =>
    have same : l.display (m.withElided false) = l.display (m.withElided true) := rfl
    simp only [outline_leaf hs, same, List.Sublist.refl]
  | link t conversion inner hs ih =>
    have untabled (shown : Bool) : (m.withElided shown).tables = false := tables
    rw [outline_link hs, outline_link hs, untabled, untabled]
    exact ih
  | group t cs hs ih =>
    rw [outline_group hs, outline_group hs]
    exact pieces_ofParts_sublist (fun _ _ => isVisible_of_hidden) ih
  | unknown t hs =>
    simp only [outline_unknown hs, List.Sublist.refl]

theorem outline_of_exempt (h : t.Everywhere (Exempt exempt)) :
    t.outline (m.withElided false) exempt = t.outline (m.withElided true) exempt := by
  induction t using shape_induction with
  | token t s hs => rw [outline_token hs, outline_token hs]
  | leaf t l hs =>
    rw [outline_leaf hs, outline_leaf hs]
    rfl
  | link t conversion inner hs ih =>
    rw [outline_link hs, outline_link hs, ih (h.link hs)]
    rfl
  | group t cs hs ih =>
    have visible : cs.filter (·.isVisible (m.withElided false) exempt) =
        cs.filter (·.isVisible (m.withElided true) exempt) :=
      List.filter_congr fun c hc => isVisible_of_exempt (h.group hs c hc).here
    rw [outline_group hs, outline_group hs, visible]
    congr 1
    apply List.map_congr_left
    intro c hc
    have hc : c ∈ cs := (List.mem_filter.mp hc).1
    exact ih c hc (h.group hs c hc)
  | unknown t hs => rw [outline_unknown hs, outline_unknown hs]

end Tree

namespace Renderer

variable {r : Renderer}

theorem keeps_of_hidden {p : Phrase} (h : r.keeps (m.withElided false) p) :
    r.keeps (m.withElided true) p := by
  cases p with
  | node t =>
    simp only [keeps, Bool.and_eq_true] at h ⊢
    exact ⟨Tree.isVisible_of_hidden h.1, h.2⟩
  | _ => exact h

theorem keeps_of_exempt {p : Phrase} (h : ∀ t ∈ p.nodes, t.Everywhere (Tree.Exempt r.exempt)) :
    r.keeps (m.withElided false) p = r.keeps (m.withElided true) p := by
  cases p with
  | node t =>
    have exempt := (h t (by simp [Phrase.nodes])).here
    simp only [keeps, Tree.isVisible_of_exempt exempt]
  | _ => rfl

theorem pieces_shown_sublist : ∀ p : Phrase,
    (∀ t ∈ p.nodes, (pieces (r.gloss (m.withElided false) t).chars).Sublist
      (pieces (r.gloss (m.withElided true) t).chars)) →
    (pieces (r.shown (m.withElided false) p).chars).Sublist
      (pieces (r.shown (m.withElided true) p).chars)
  | .seq ps, h => by
    rw [shown_seq, shown_seq]
    apply pieces_ofParts_sublist
    · intro q _
      exact keeps_of_hidden
    · intro q hq
      exact pieces_shown_sublist q fun t ht => h t (Phrase.mem_nodes_seq.mpr ⟨q, hq, ht⟩)
  | .node t, h => by
    rw [shown_node, shown_node]
    exact h t (by simp [Phrase.nodes])
  | .word w, _ => by simp only [shown_word, List.Sublist.refl]
  | .text s, _ => by simp only [shown_text, List.Sublist.refl]
  | .unknown, _ => by simp only [shown_unknown, List.Sublist.refl]

theorem pieces_gloss_sublist (t : Tree) :
    (pieces (r.gloss (m.withElided false) t).chars).Sublist
      (pieces (r.gloss (m.withElided true) t).chars) := by
  rw [gloss_eq_shown, gloss_eq_shown]
  apply pieces_shown_sublist
  intro c hc
  have : sizeOf c < sizeOf t := Lexicon.sizeOf_lt_of_mem_phrase hc
  exact pieces_gloss_sublist c
termination_by sizeOf t

theorem shown_of_exempt : ∀ p : Phrase,
    (∀ t ∈ p.nodes, t.Everywhere (Tree.Exempt r.exempt)) →
    (∀ t ∈ p.nodes, r.gloss (m.withElided false) t = r.gloss (m.withElided true) t) →
    r.shown (m.withElided false) p = r.shown (m.withElided true) p
  | .seq ps, exempt, same => by
    have within {q : Phrase} (hq : q ∈ ps) {t : Tree} (ht : t ∈ q.nodes) : t ∈ (Phrase.seq ps).nodes :=
      Phrase.mem_nodes_seq.mpr ⟨q, hq, ht⟩
    have kept : ps.filter (r.keeps (m.withElided false)) = ps.filter (r.keeps (m.withElided true)) :=
      List.filter_congr fun q hq => keeps_of_exempt fun t ht => exempt t (within hq ht)
    rw [shown_seq, shown_seq, kept]
    congr 1
    apply List.map_congr_left
    intro q hq
    have hq : q ∈ ps := (List.mem_filter.mp hq).1
    apply shown_of_exempt q
    · exact fun t ht => exempt t (within hq ht)
    · exact fun t ht => same t (within hq ht)
  | .node t, _, same => by
    rw [shown_node, shown_node]
    exact same t (by simp [Phrase.nodes])
  | .word w, _, _ => by rw [shown_word, shown_word]
  | .text s, _, _ => by rw [shown_text, shown_text]
  | .unknown, _, _ => by rw [shown_unknown, shown_unknown]

theorem gloss_of_exempt (t : Tree) (h : t.Everywhere (Tree.Exempt r.exempt)) :
    r.gloss (m.withElided false) t = r.gloss (m.withElided true) t := by
  rw [gloss_eq_shown, gloss_eq_shown]
  apply shown_of_exempt
  · exact fun c hc => Lexicon.everywhere_of_mem_phrase h hc
  · intro c hc
    have : sizeOf c < sizeOf t := Lexicon.sizeOf_lt_of_mem_phrase hc
    exact gloss_of_exempt c (Lexicon.everywhere_of_mem_phrase h hc)
termination_by sizeOf t

theorem hiding_elided_takes_pieces (r : Renderer) (m : Mode) (tables : m.tables = false)
    (t : Tree) :
    (pieces (r.brackets { m with elided := false } t).toString.toList).Sublist
        (pieces (r.brackets { m with elided := true } t).toString.toList) ∧
      (pieces (r.gloss { m with elided := false } t).toString.toList).Sublist
        (pieces (r.gloss { m with elided := true } t).toString.toList) ∧
      ((t.Everywhere fun u => ∀ l, u = .leaf l → l.elided → r.exempt l) →
        (r.brackets { m with elided := false } t).toString =
            (r.brackets { m with elided := true } t).toString ∧
          (r.gloss { m with elided := false } t).toString =
            (r.gloss { m with elided := true } t).toString) := by
  simp only [Outline.toString, String.toList_ofList]
  refine ⟨Tree.pieces_outline_sublist tables, pieces_gloss_sublist t, ?_⟩
  intro exempt
  constructor
  · exact congrArg _ (congrArg _ (Tree.outline_of_exempt exempt))
  · exact congrArg _ (congrArg _ (gloss_of_exempt t exempt))

end Renderer

/-- Two tails that share a term, with elided place tags in front of it and behind a link. -/
def Tree.tagged : Tree :=
  .composite [.leaf ⟨"fa", true, some "FA", none, []⟩,
    .bridi ⟨.bridi, [.term ⟨some 1, .word "mi", some (.leaf ⟨"fa", true, some "FA", none, []⟩), []⟩],
      some (.conjunction ⟨some (.tail ⟨.word "klama", [], [.word "ti"], none, none, []⟩),
        .tail ⟨.word "cliva", [], [], some [2], none, []⟩, some (.word "gi'e"), [],
        [.composite [.leaf ⟨"fe", true, some "FA", some 2, []⟩, .word "do"]], none, []⟩),
      none, none, []⟩]

theorem Renderer.hiding_elided_takes_pieces_tagged :
    Mode.blank.tables = false ∧
      (Tree.tagged.Everywhere fun u => ∀ l, u = .leaf l → l.elided → blank.exempt l) ∧
      (pieces (blank.gloss { Mode.blank with elided := false } .tagged).toString.toList).Sublist
        (pieces (blank.gloss { Mode.blank with elided := true } .tagged).toString.toList) ∧
      (blank.brackets { Mode.blank with elided := false } .tagged).toString =
        (blank.brackets { Mode.blank with elided := true } .tagged).toString := by
  have exempt : Tree.tagged.Everywhere fun u => ∀ l, u = .leaf l → l.elided → blank.exempt l := by
    simp [Tree.tagged, Tree.word, blank, Leaf.isPlaceTag]
  have takes := blank.hiding_elided_takes_pieces .blank rfl .tagged
  exact ⟨rfl, exempt, takes.2.1, (takes.2.2 exempt).1⟩

end Lojban
