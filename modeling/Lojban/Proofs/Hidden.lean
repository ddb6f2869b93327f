import Lojban.Proofs.Gloss.Context

namespace Lojban

namespace Tree

variable {m : Mode} {exempt : Exemption}

theorem isVisible_of_elided {l : Leaf} (hidden : m.elided = false) (elided : l.elided)
    (shown : ¬exempt l) : (leaf l).isVisible m exempt = false := by
  simp [isVisible, hidden, elided, shown]

end Tree

namespace Renderer

variable {r : Renderer} {m : Mode}

/-- A particle that is left out still counts as a part. -/
theorem digest_removed {t : Tree} {w : String} (word : t.text? = some w)
    (removed : Vocabulary.isRemoved w) : r.digest m [.node t] = [none] := by
  have present : t.isEmpty = false := by
    cases t with
    | composite cs => cases word
    | _ => rfl
  apply digest_node_of_not_keeps present
  rw [keeps, word, Option.any_some, removed, Bool.not_true, Bool.and_false]

theorem interchangeable_leaf {l l' : Leaf} (place : l.place = l'.place)
    (h : Vocabulary.isRemoved l.word) (h' : Vocabulary.isRemoved l'.word) :
    r.Interchangeable m (.leaf l) (.leaf l') := by
  have member : r.digest m [.node (.leaf l)] = r.digest m [.node (.leaf l')] := by
    rw [digest_removed rfl h, digest_removed rfl h']
  refine ⟨member, member, fun p => ?_, fun _ => ?_, rfl⟩
  · have declared : (Tree.leaf l').declared? = l.place.map (·, .leaf l') := by
      rw [Tree.declared?, place]
    simp only [Predicate.resolve]
    exact digest_placed_congr p rfl declared member member
  · simp only [Lexicon.rear]
    exact member

theorem interchangeable_text {s s' : String} (h : Vocabulary.isRemoved s)
    (h' : Vocabulary.isRemoved s') : r.Interchangeable m (.text s) (.text s') := by
  have member : r.digest m [.node (.text s)] = r.digest m [.node (.text s')] := by
    rw [digest_removed rfl h, digest_removed rfl h']
  refine ⟨member, member, fun p => ?_, fun _ => ?_, rfl⟩
  · simp only [Predicate.resolve, Predicate.placed, Tree.declared?]
    exact member
  · simp only [Lexicon.rear]
    exact member

theorem Interchangeable.gloss_in_context {t u : Tree} (h : r.Interchangeable m t u) {f : Frame}
    (inner : f.isLink = false) (whole : f.isPrecedence = false) {outer : Context}
    (outside : ∀ g ∈ f :: outer, g.isSelbri = false) :
    r.gloss m (outer.plug (f.plug t)) = r.gloss m (outer.plug (f.plug u)) := by
  have here : r.gloss m (f.plug t) = r.gloss m (f.plug u) := by
    apply h.gloss_plug
    · simp [inner]
    · simp [whole]
  have around := h.plug (outside f List.mem_cons_self) here
  exact outer.gloss_plug around (fun g hg => outside g (List.mem_cons_of_mem f hg)) here

/-- What a leaf or a token below a root hides, where its node does not follow it as a link: in
brackets the word of an elided leaf that is not exempt, and in a gloss, outside predicates, which
particle was left out, where it is not all that its node is said as. -/
theorem hidden_words_leave_no_trace (r : Renderer) (m : Mode) (outer : Context) (f : Frame)
    (inner : f.isLink = false) :
    (∀ (l : Leaf) (w : String), m.elided = false → l.elided → ¬r.exempt l →
        ¬r.exempt { l with word := w } →
      (r.brackets m (outer.plug (f.plug (.leaf l)))).toString =
        (r.brackets m (outer.plug (f.plug (.leaf { l with word := w })))).toString) ∧
    ((∀ g ∈ f :: outer, g.isSelbri = false) → f.isPrecedence = false →
      ∀ w w' : String, Vocabulary.isRemoved w → Vocabulary.isRemoved w' →
        (∀ l : Leaf,
          (r.gloss m (outer.plug (f.plug (.leaf { l with word := w })))).toString =
            (r.gloss m (outer.plug (f.plug (.leaf { l with word := w' })))).toString) ∧
        (r.gloss m (outer.plug (f.plug (.text w)))).toString =
          (r.gloss m (outer.plug (f.plug (.text w')))).toString) := by
  constructor
  · intro l w hidden elided before after
    have alike : f.Alike m r.exempt (.leaf l) (.leaf { l with word := w }) :=
      Tree.alike_of_not_isVisible inner (Tree.isVisible_of_elided hidden elided before)
        (Tree.isVisible_of_elided hidden elided after)
    exact congrArg Outline.toString (outer.outline_plug alike)
  · intro outside whole w w' h h'
    constructor
    · intro l
      have same : r.Interchangeable m (.leaf { l with word := w }) (.leaf { l with word := w' }) :=
        interchangeable_leaf rfl h h'
      exact congrArg Outline.toString (same.gloss_in_context inner whole outside)
    · have same : r.Interchangeable m (.text w) (.text w') := interchangeable_text h h'
      exact congrArg Outline.toString (same.gloss_in_context inner whole outside)

end Renderer

def Leaf.supplied (w : String) : Leaf := ⟨w, true, none, none, []⟩

def Mode.terse : Mode := { Mode.blank with elided := false }

def Context.sharedTerms : Context :=
  [.shared ⟨some (.tail ⟨.word "klama", [], [.word "ti"], none, none, []⟩),
      .tail ⟨.word "cliva", [], [], some [2], none, []⟩, some (.word "gi'e"), [], [], none, []⟩
      [.word "do"] [],
    .tail ⟨.bridi, [.word "mi"], none, none, none, []⟩, .member [.text "ui"] []]

def Tree.amidShared (t : Tree) : Tree :=
  Context.sharedTerms.plug (Frame.plug (.member [.word "re"] []) t)

theorem Renderer.hidden_words_leave_no_trace_shared :
    Mode.terse.elided = false ∧ (Leaf.supplied "ku").elided ∧ ¬blank.exempt (.supplied "ku") ∧
      ¬blank.exempt (.supplied "cu") ∧ Vocabulary.isRemoved "ku" ∧ Vocabulary.isRemoved "boi" ∧
      (blank.brackets .terse (.amidShared (.leaf (.supplied "ku")))).toString =
        (blank.brackets .terse (.amidShared (.leaf (.supplied "cu")))).toString ∧
      (blank.gloss .terse (.amidShared (.leaf (.supplied "ku")))).toString =
        (blank.gloss .terse (.amidShared (.leaf (.supplied "boi")))).toString ∧
      (blank.gloss .terse (.amidShared (.text "ku"))).toString =
        (blank.gloss .terse (.amidShared (.text "boi"))).toString := by
  have before : ¬blank.exempt (.supplied "ku") := by decide
  have after : ¬blank.exempt (.supplied "cu") := by decide
  have outside : ∀ g ∈ .member [.word "re"] [] :: Context.sharedTerms, g.isSelbri = false := by
    simp [Context.sharedTerms, Frame.isSelbri]
  have unseen := blank.hidden_words_leave_no_trace .terse Context.sharedTerms
    (.member [.word "re"] []) rfl
  have gloss := unseen.2 outside rfl "ku" "boi" (by decide) (by decide)
  exact ⟨rfl, rfl, before, after, by decide, by decide,
    unseen.1 (.supplied "ku") "cu" rfl rfl before after, gloss.1 (.supplied "ku"), gloss.2⟩

def Tree.beside (t : Tree) : Tree := .composite [t, .word "klama"]

def Tree.precedent (t : Tree) : Tree := .bridi ⟨.precedence, [], none, some t, none, []⟩

/-- A link is followed whatever word it leads to, and so are the contents of a node that is said as
they are. -/
theorem Renderer.links_show_hidden_words :
    (Mode.terse.elided = false ∧ ¬blank.exempt (.supplied "cu") ∧ ¬blank.exempt (.supplied "boi") ∧
      (blank.brackets .terse (.beside (.wrap (.leaf (.supplied "cu"))))).toString = "[CU klama]" ∧
      (blank.brackets .terse (.beside (.wrap (.leaf (.supplied "cu"))))).toString ≠
        (blank.brackets .terse (.beside (.wrap (.leaf (.supplied "boi"))))).toString) ∧
    Vocabulary.isRemoved "ku" ∧ Vocabulary.isRemoved "kei" ∧
      (blank.gloss .terse (.beside (.wrap (.text "ku")))).toString = "[ku klama]" ∧
      (blank.gloss .terse (.beside (.wrap (.text "ku")))).toString ≠
        (blank.gloss .terse (.beside (.wrap (.text "kei")))).toString ∧
      (blank.gloss .terse (.beside (.precedent (.text "ku")))).toString = "[ku klama]" ∧
      (blank.gloss .terse (.beside (.precedent (.text "ku")))).toString ≠
        (blank.gloss .terse (.beside (.precedent (.text "kei")))).toString := by
  decide +kernel

end Lojban
