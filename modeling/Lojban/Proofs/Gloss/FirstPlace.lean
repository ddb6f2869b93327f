import Lojban.Proofs.Gloss.Distribution
import Lojban.Proofs.Gloss.Term
import Lojban.Renderer

namespace Lojban

def Tail.mustSayFirst (t : Tail Tree) (p : Position) : Bool :=
  !p.isEmpty || t.tagged.any (!·.contains 1)

namespace Lexicon

def tailWith (x : Lexicon) (root : Tree) (p : Position) (t : Tail Tree) (opening : List Phrase) :
    Phrase :=
  let predicate := x.predicate (some t.selbri)
  .ofParts (predicate.terms t.preterms :: opening ++
    predicate.terms t.tailTerms :: p.above.map fun q => predicate.terms (root.sharedAt q))

def tailIn (x : Lexicon) (root : Tree) (p : Position) (t : Tail Tree) : Phrase :=
  x.tailWith root p t
    (if t.mustSayFirst p then ((x.predicate (some t.selbri)).first x).toList else [])

/-- What says a predicate with head word `w`: the text after its first place, failing that the
keyword of the place, and failing that the word. -/
def introduction (x : Lexicon) (w : String) : Phrase :=
  match (x.places.get? w).bind (·.after 1), PlaceRecord.present (x.dictionary.keyword w 1) with
  | some s, _ => .text s
  | none, some s => .text s
  | none, none => .word w

/-- A record without text after the first place, or else a keyword without text for it. -/
def Mutes (x : Lexicon) (w : String) : Prop :=
  match x.places.get? w with
  | some r => r.after 1 = none
  | none => x.dictionary.keyword w 1 = some ""

variable {x : Lexicon} {w : String}

theorem introduction_cases (x : Lexicon) (w : String) :
    x.introduction w = .word w ∨ ∃ s, s ≠ "" ∧ x.introduction w = .text s := by
  rw [introduction]
  split
  · rename_i s hs
    obtain ⟨r, -, hr⟩ := Option.bind_eq_some_iff.mp hs
    exact .inr ⟨s, PlaceRecord.ne_empty_of_after hr, rfl⟩
  · rename_i s _ hs
    exact .inr ⟨s, PlaceRecord.ne_empty_of_present hs, rfl⟩
  · exact .inl rfl

theorem isEmpty_introduction (h : w ≠ "") : (x.introduction w).isEmpty = false := by
  obtain same | ⟨s, present, same⟩ := x.introduction_cases w
  · rw [same]
    exact beq_false_of_ne h
  · rw [same]
    exact beq_false_of_ne present

theorem first_of_headWord {s : Tree} (word : s.headWord? = some w) :
    (x.predicate (some s)).first x =
      match x.places.get? w with
      | some r => (r.after 1).map .text
      | none => some (((x.dictionary.keyword w 1).map .text).getD (.word w)) := by
  simp only [Predicate.first, predicate, Option.bind_some, word]
  cases x.places.get? w with
  | some r => rfl
  | none => rfl

theorem first_of_mutes {s : Tree} (word : s.headWord? = some w) (mute : x.Mutes w) :
    ∀ q ∈ (x.predicate (some s)).first x, q.isEmpty := by
  intro q hq
  rw [first_of_headWord word, Option.mem_def] at hq
  rw [Mutes] at mute
  cases record : x.places.get? w with
  | some r =>
    simp only [record] at hq mute
    rw [mute] at hq
    cases hq
  | none =>
    simp only [record] at hq mute
    rw [mute] at hq
    obtain rfl := Option.some.inj hq
    rfl

theorem first_of_not_mutes {s : Tree} (word : s.headWord? = some w) (audible : ¬x.Mutes w) :
    (x.predicate (some s)).first x = some (x.introduction w) := by
  rw [first_of_headWord word, introduction]
  rw [Mutes] at audible
  cases record : x.places.get? w with
  | some r =>
    simp only [record] at audible ⊢
    obtain ⟨s, hs⟩ := Option.ne_none_iff_exists'.mp audible
    simp only [Option.bind_some, hs, Option.map_some]
  | none =>
    simp only [record] at audible ⊢
    cases keyword : x.dictionary.keyword w 1 with
    | none => rfl
    | some s =>
      have present : PlaceRecord.present (some s) = some s :=
        Option.filter_eq_some_iff.mpr ⟨rfl, bne_iff_ne.mpr fun empty =>
          audible (by rw [keyword, empty])⟩
      simp only [Option.bind_none, present, Option.map_some, Option.getD_some]

variable {root : Tree} {p : Position} {t : Tail Tree}

theorem tailWith_of_isEmpty {opening : List Phrase} (h : ∀ q ∈ opening, q.isEmpty) :
    x.tailWith root p t opening = x.tailWith root p t [] := by
  have none : opening.filter (!·.isEmpty) = [] := by
    rw [List.filter_eq_nil_iff]
    intro q hq
    simp [h q hq]
  simp only [tailWith, Phrase.ofParts, List.cons_append, List.filter_cons, List.filter_append, none,
    List.filter_nil]

theorem tailWith_singleton_ne {q : Phrase} (h : q.isEmpty = false) :
    x.tailWith root p t [q] ≠ x.tailWith root p t [] := by
  intro same
  have longer := congrArg List.length (Phrase.seq.inj same)
  simp only [List.cons_append, List.nil_append, ← List.countP_eq_length_filter, List.countP_cons, h,
    Bool.not_false, if_true] at longer
  omega

theorem tailIn_below (x : Lexicon) (root : Tree) (side : Side) (p : Position) (t : Tail Tree) :
    x.tailIn root (side :: p) t = x.tailAt root (side :: p) t := rfl

end Lexicon

theorem Tree.layout_joined (tailAt : Position → Tail Tree → Phrase) (p : Position)
    (c : Conjunction Tree) :
    (conjunction c).layout tailAt p =
      .joined (c.left.map (layout tailAt (.left :: p))) c.joiner c.scope
        (c.right.layout tailAt (.right :: p)) := by
  obtain ⟨left, right, joiner, scope, tailTerms, link, extra⟩ := c
  rw [layout]
  cases left with
  | none => rfl
  | some t => rfl

theorem Tree.layout_congr {tailAt tailAt' : Position → Tail Tree → Phrase}
    (h : ∀ side p t, tailAt (side :: p) t = tailAt' (side :: p) t) (t : Tree) (side : Side)
    (p : Position) : t.layout tailAt (side :: p) = t.layout tailAt' (side :: p) := by
  induction t using Tree.term_induction generalizing side p with
  | group ts ih => simp only [layout]
  | joined c left right =>
    rw [layout_joined, layout_joined, right, Option.map_congr fun t ht => left t ht .left _]
  | simple t simple =>
    cases t with
    | conjunction c => cases simple
    | tail t => simp only [layout, h]
    | _ => simp only [layout]

theorem Lexicon.rephrase_tails (x : Lexicon) (head : List Tree) (root : Tree)
    (contents link : Option Tree) (extra : Json.Fields) :
    x.rephrase (.bridi ⟨.bridi, head, some root, contents, link, extra⟩) =
      some (.ofParts [(x.predicate root.selbri?).terms head, root.layout (x.tailIn root) []]) := by
  have relation : x.rephrase (.bridi ⟨.bridi, head, some root, contents, link, extra⟩) =
      some (.ofParts [(x.predicate root.selbri?).terms head, x.rear none root]) := rfl
  have rear : x.rear none root = root.layout (x.tailIn root) [] := by
    cases root with
    | conjunction c =>
      -- Every tail of the relation lies below `c`, so none of them asks whether it skips the place.
      have below := Tree.layout_congr fun side p t => x.tailIn_below (.conjunction c) side p t
      calc
        x.rear none (.conjunction c) = (Tree.conjunction c).layout (x.tailAt (.conjunction c)) [] :=
          (rear_none c).trans (rear_eq_layout [] (.conjunction c) rfl)
        _ = (Tree.conjunction c).layout (x.tailIn (.conjunction c)) [] := by
          rw [Tree.layout_joined, Tree.layout_joined, below,
            Option.map_congr fun t _ => below t .left []]
    | tail t =>
      rw [Lexicon.rear, Tree.layout]
      rfl
    | _ => rfl
  rw [relation, rear]

/-- What the gloss has to say of a predicate is lost if and only if the head word is muted. In any
other tail it stands between what precedes it and its terms: the text after the first place, or the
keyword, or the word, and it is shown. -/
theorem Renderer.first_place_said_iff (r : Renderer) (m : Mode) (head : List Tree) (root : Tree)
    (contents link : Option Tree) (extra : Json.Fields) :
    r.rephrase (.bridi ⟨.bridi, head, some root, contents, link, extra⟩) =
        some (.ofParts [(r.predicate root.selbri?).terms head, root.layout (r.tailIn root) []]) ∧
      ∀ (p : Position) (t : Tail Tree) (w : String), t.mustSayFirst p →
        t.selbri.headWord? = some w → w ≠ "" → Vocabulary.isRemoved w = false →
        r.keeps m (r.introduction w) ∧
          (r.tailIn root p t = r.tailWith root p t [r.introduction w] ↔ ¬r.Mutes w) ∧
          (r.Mutes w → r.tailIn root p t = r.tailWith root p t []) := by
  constructor
  · exact r.rephrase_tails head root contents link extra
  · intro p t w shown word present kept
    have said : r.tailIn root p t =
        r.tailWith root p t ((r.predicate (some t.selbri)).first r.toLexicon).toList := by
      rw [Lexicon.tailIn, if_pos shown]
    have lost : r.Mutes w → r.tailIn root p t = r.tailWith root p t [] := by
      intro mute
      rw [said]
      exact Lexicon.tailWith_of_isEmpty fun q hq =>
        Lexicon.first_of_mutes word mute q (Option.mem_toList.mp hq)
    refine ⟨?_, ⟨?_, ?_⟩, lost⟩
    · obtain same | ⟨s, text, same⟩ := r.introduction_cases w
      · rw [same, keeps, kept, bne_iff_ne.mpr present]
        rfl
      · rw [same]
        exact bne_iff_ne.mpr text
    · intro introduced mute
      exact Lexicon.tailWith_singleton_ne (Lexicon.isEmpty_introduction present)
        (introduced.symm.trans (lost mute))
    · intro audible
      rw [said, Lexicon.first_of_not_mutes word audible, Option.toList_some]

def Tail.gone : Tail Tree := ⟨.word "klama", [], [], none, none, []⟩

def Tail.fond : Tail Tree := ⟨.word "nelci", [], [], none, none, []⟩

def Tree.fondness : Tree :=
  .conjunction ⟨some (.tail .gone), .tail .fond, some (.word "gi'e"), [], [], none, []⟩

def Tree.fondRelation : Tree := .bridi ⟨.bridi, [], some .fondness, none, none, []⟩

def Renderer.reticent : Renderer :=
  ⟨⟨Table.ofList [("klama", ⟨some "goes", some "to", none, []⟩),
    ("nelci", ⟨none, some "of", none, []⟩)], .void⟩, Leaf.isPlaceTag⟩

def Renderer.inarticulate : Renderer :=
  ⟨⟨∅, ⟨fun _ => none, fun _ _ => some ""⟩⟩, Leaf.isPlaceTag⟩

theorem Renderer.first_place_said_iff_fondness :
    Tree.fondness.at? [.left] = some (.tail .gone) ∧ Tail.gone.mustSayFirst [.left] ∧
      Tail.gone.selbri.headWord? = some "klama" ∧ Vocabulary.isRemoved "klama" = false ∧
      Tree.fondness.at? [.right] = some (.tail .fond) ∧ Tail.fond.mustSayFirst [.right] ∧
      Tail.fond.selbri.headWord? = some "nelci" ∧ Vocabulary.isRemoved "nelci" = false ∧
      reticent.tailIn .fondness [.left] .gone =
        reticent.tailWith .fondness [.left] .gone [.text "goes"] ∧
      reticent.tailIn .fondness [.right] .fond = reticent.tailWith .fondness [.right] .fond [] := by
  have audible : ¬reticent.Mutes "klama" := nofun
  have mute : reticent.Mutes "nelci" := rfl
  have said := (reticent.first_place_said_iff .blank [] .fondness none none []).2
  have gone := said [.left] .gone "klama" rfl rfl (by decide) (by decide)
  have fond := said [.right] .fond "nelci" rfl rfl (by decide) (by decide)
  exact ⟨rfl, rfl, rfl, by decide, rfl, rfl, rfl, by decide, gone.2.1.mpr audible, fond.2.2 mute⟩

/-- The predicate is gone where its record has a text for the second place only, or where its keyword
is empty. -/
theorem Renderer.fondness_lost :
    Tree.fondness.at? [.right] = some (.tail .fond) ∧ Tail.fond.mustSayFirst [.right] ∧
      Tail.fond.selbri.headWord? = some "nelci" ∧ Vocabulary.isRemoved "nelci" = false ∧
      reticent.introduction "nelci" = .word "nelci" ∧
      reticent.tailIn .fondness [.right] .fond ≠
        reticent.tailWith .fondness [.right] .fond [.word "nelci"] ∧
      (reticent.gloss .blank .fondRelation).toString = "[goes ,-and]" ∧
      inarticulate.introduction "nelci" = .word "nelci" ∧
      inarticulate.tailIn .fondness [.right] .fond ≠
        inarticulate.tailWith .fondness [.right] .fond [.word "nelci"] ∧
      (inarticulate.gloss .blank .fondRelation).toString = ",-and" := by
  refine ⟨rfl, rfl, rfl, by decide, rfl, ?_, by decide +kernel, rfl, ?_, by decide +kernel⟩
  · nofun
  · nofun

end Lojban
