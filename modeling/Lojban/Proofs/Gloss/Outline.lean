import Lojban.Proofs.Outline.Chars
import Lojban.Proofs.Tree.Everywhere
import Lojban.Renderer

namespace Lojban

theorem Phrase.mem_nodes_seq {ps : List Phrase} {c : Tree} :
    c ∈ (seq ps).nodes ↔ ∃ p ∈ ps, c ∈ p.nodes := by
  rw [nodes]
  induction ps with
  | nil => simp [nodesAll]
  | cons p ps ih => simp [nodesAll, ih]

/-- What holds of every node of a tree holds of every node below those of its phrase. -/
theorem Lexicon.everywhere_of_mem_phrase {x : Lexicon} {P : Tree → Prop} {t c : Tree}
    (h : t.Everywhere P) (hc : c ∈ (x.phrase t).nodes) : c.Everywhere P := by
  let Within (q : Phrase) : Prop := ∀ d, q = .node d → d.Everywhere P
  have node {d : Tree} (hd : d.Everywhere P) : Within (.node d) := by
    intro e he
    obtain rfl := Phrase.node.inj he
    exact hd
  have admits : x.Admits Within := by
    refine ⟨?_, nofun, nofun, nofun, nofun⟩
    intro d hd e he
    exact node ((hd d rfl).part he)
  have pieces : (x.phrase t).Every Within :=
    every_phrase admits (fun d hd => node (h.part hd)) nofun nofun
  exact pieces.nodes c hc c rfl

namespace Renderer

variable {r : Renderer} {m : Mode}

def shown (r : Renderer) (m : Mode) (p : Phrase) : Outline :=
  p.outline (r.keeps m) r.say fun t _ => r.gloss m t

theorem gloss_eq_shown (t : Tree) : r.gloss m t = r.shown m (r.phrase t) := by
  rw [gloss]
  rfl

@[simp] theorem shown_node (t : Tree) : r.shown m (.node t) = r.gloss m t := by
  rw [shown, Phrase.outline]

@[simp] theorem shown_word (w : String) : r.shown m (.word w) = .text (r.say w) := by
  rw [shown, Phrase.outline]

@[simp] theorem shown_text (s : String) : r.shown m (.text s) = .text s := by
  rw [shown, Phrase.outline]

@[simp] theorem shown_unknown : r.shown m .unknown = .placeholder := by
  rw [shown, Phrase.outline]

theorem outlineAll_eq (ps : List Phrase) :
    (Phrase.outlineAll (r.keeps m) r.say ps fun t _ => r.gloss m t) =
      (ps.filter (r.keeps m)).map (r.shown m) := by
  induction ps with
  | nil => rfl
  | cons p ps ih =>
    rw [Phrase.outlineAll, List.filter_cons]
    split
    · rw [List.map_cons, ih, shown]
    · exact ih

@[simp] theorem shown_seq (ps : List Phrase) :
    r.shown m (.seq ps) = .ofParts ((ps.filter (r.keeps m)).map (r.shown m)) := by
  rw [shown, Phrase.outline, outlineAll_eq]

theorem gloss_relation {b : Bridi Tree} (role : b.role = .bridi) :
    r.gloss m (.bridi b) = r.shown m (r.relation b) := by
  rw [gloss_eq_shown, Lexicon.phrase, Lexicon.rephrase, role, Option.getD_some]

theorem closed_shown {Q : List Char → Prop} (h : Outline.Closed Q) {P : Phrase → Prop}
    (pieces : ∀ q, P q → Q (r.shown m q).chars) :
    ∀ p : Phrase, p.Every P → Q (r.shown m p).chars
  | .seq ps, hp => by
    rw [shown_seq]
    apply h.ofParts
    intro o ho
    obtain ⟨q, hq, rfl⟩ := List.mem_map.mp ho
    have hq : q ∈ ps := (List.mem_filter.mp hq).1
    exact closed_shown h pieces q (Phrase.every_seq.mp hp q hq)
  | .node t, hp => pieces _ (Phrase.every_node.mp hp)
  | .word w, hp => pieces _ (Phrase.every_word.mp hp)
  | .text s, hp => pieces _ (Phrase.every_text.mp hp)
  | .unknown, hp => pieces _ (Phrase.every_unknown.mp hp)

section

variable {t : Tree} (plain : r.rephrase t = none)

include plain

theorem gloss_eq_ofShape : r.gloss m t = r.shown m (.ofShape t.shape) := by
  rw [gloss_eq_shown, Lexicon.phrase, plain, Option.getD_none]

theorem gloss_token {s : String} (h : t.shape = .token s) : r.gloss m t = .text (r.say s) := by
  rw [gloss_eq_ofShape plain, h, Phrase.ofShape, shown_word]

theorem gloss_leaf {l : Leaf} (h : t.shape = .leaf l) : r.gloss m t = .text (r.say l.word) := by
  rw [gloss_eq_ofShape plain, h, Phrase.ofShape, shown_word]

theorem gloss_link {conversion : Option (List Nat)} {inner : Tree}
    (h : t.shape = .link conversion inner) : r.gloss m t = r.gloss m inner := by
  rw [gloss_eq_ofShape plain, h, Phrase.ofShape, shown_node]

theorem gloss_group {cs : List Tree} (h : t.shape = .group cs) :
    r.gloss m t = .ofParts ((cs.filter fun c => r.keeps m (.node c)).map (r.gloss m)) := by
  rw [gloss_eq_ofShape plain, h, Phrase.ofShape, shown_seq, List.filter_map, List.map_map]
  rfl

theorem gloss_unknown (h : t.shape = .unknown) : r.gloss m t = .placeholder := by
  rw [gloss_eq_ofShape plain, h, Phrase.ofShape, shown_unknown]

end

end Renderer

end Lojban
