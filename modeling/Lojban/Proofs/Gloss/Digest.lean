import Lojban.Proofs.Gloss.Outline

namespace Lojban.Renderer

variable {r : Renderer} {m : Mode}

/-- What a sequence makes of its parts: nothing of one that is empty, and of any other what it is
shown as, if it is kept. -/
def digest (r : Renderer) (m : Mode) (ps : List Phrase) : List (Option Outline) :=
  (ps.filter (!·.isEmpty)).map fun p => if r.keeps m p then some (r.shown m p) else none

@[simp] theorem digest_append (ps qs : List Phrase) :
    r.digest m (ps ++ qs) = r.digest m ps ++ r.digest m qs := by
  simp [digest]

theorem digest_cons (p : Phrase) (ps : List Phrase) :
    r.digest m (p :: ps) = r.digest m [p] ++ r.digest m ps :=
  digest_append [p] ps

theorem digest_cons_congr {p q : Phrase} {ps qs : List Phrase}
    (first : r.digest m [p] = r.digest m [q]) (rest : r.digest m ps = r.digest m qs) :
    r.digest m (p :: ps) = r.digest m (q :: qs) := by
  rw [digest_cons, digest_cons q, first, rest]

theorem digest_map_congr {f g : Tree → Phrase} {ts : List Tree}
    (same : ∀ t ∈ ts, r.digest m [f t] = r.digest m [g t]) :
    r.digest m (ts.map f) = r.digest m (ts.map g) := by
  induction ts with
  | nil => rfl
  | cons t ts ih =>
    exact digest_cons_congr (same t List.mem_cons_self)
      (ih fun u hu => same u (List.mem_cons_of_mem t hu))

theorem digest_among {p q : Phrase} (same : r.digest m [p] = r.digest m [q])
    (front back : List Phrase) :
    r.digest m (front ++ p :: back) = r.digest m (front ++ q :: back) := by
  rw [digest_append, digest_append, digest_cons, digest_cons q, same]

theorem isEmpty_of_keeps {p : Phrase} (h : r.keeps m p) : p.isEmpty = false := by
  cases p with
  | node t =>
    cases t with
    | composite cs =>
      cases cs with
      | nil => simp [keeps, Tree.isVisible] at h
      | cons c cs => rfl
    | _ => rfl
  | seq ps => simpa [keeps] using h
  | word w =>
    simp only [keeps, Bool.and_eq_true, bne_iff_ne] at h
    exact beq_false_of_ne h.1
  | text s => simpa [keeps] using h
  | unknown => rfl

def digested (parts : List (Option Outline)) : Outline := .ofParts (parts.filterMap id)

theorem shown_seq_eq (ps : List Phrase) : r.shown m (.seq ps) = digested (r.digest m ps) := by
  have shown : (r.digest m ps).filterMap id = (ps.filter (r.keeps m)).map (r.shown m) := by
    induction ps with
    | nil => rfl
    | cons p ps ih =>
      rw [digest_cons, List.filterMap_append, ih, List.filter_cons]
      cases kept : r.keeps m p with
      | true => simp [digest, isEmpty_of_keeps kept, kept]
      | false => cases empty : p.isEmpty <;> simp [digest, empty, kept]
  rw [shown_seq, digested, shown]

theorem digest_filter (ps : List Phrase) :
    r.digest m (ps.filter (!·.isEmpty)) = r.digest m ps := by
  simp [digest]

theorem shown_ofParts (ps : List Phrase) :
    r.shown m (.ofParts ps) = digested (r.digest m ps) := by
  rw [Phrase.ofParts, shown_seq_eq, digest_filter]

theorem digest_ofParts (ps : List Phrase) :
    r.digest m [.ofParts ps] =
      if (r.digest m ps).isEmpty then [] else [some (digested (r.digest m ps))] := by
  have empty : (r.digest m ps).isEmpty = (Phrase.ofParts ps).isEmpty := by
    simp [digest, Phrase.ofParts, Phrase.isEmpty]
  rw [empty, ← shown_ofParts]
  cases h : (Phrase.ofParts ps).isEmpty with
  | true => simp [digest, h]
  | false =>
    have kept : r.keeps m (.ofParts ps) = true := by
      rw [Phrase.ofParts] at h ⊢
      simp [keeps, h]
    simp [digest, h, kept]

theorem digest_ofParts_congr {ps qs : List Phrase} (h : r.digest m ps = r.digest m qs) :
    r.digest m [.ofParts ps] = r.digest m [.ofParts qs] := by
  rw [digest_ofParts, digest_ofParts, h]

theorem digest_node {t : Tree} (h : r.keeps m (.node t)) :
    r.digest m [.node t] = [some (r.gloss m t)] := by
  simp [digest, isEmpty_of_keeps h, h]

theorem digest_node_of_not_keeps {t : Tree} (present : t.isEmpty = false)
    (h : r.keeps m (.node t) = false) : r.digest m [.node t] = [none] := by
  simp [digest, Phrase.isEmpty, present, h]

theorem digest_joined_congr {left left' : Option Phrase} {joiner joiner' : Option Tree}
    {scope scope' : List Tree} {right right' : Phrase}
    (hl : r.digest m left.toList = r.digest m left'.toList)
    (hj : r.digest m (joiner.toList.map .node) = r.digest m (joiner'.toList.map .node))
    (hs : r.digest m (scope.map .node) = r.digest m (scope'.map .node))
    (hr : r.digest m [right] = r.digest m [right']) :
    r.digest m [.joined left joiner scope right] =
      r.digest m [.joined left' joiner' scope' right'] := by
  apply digest_ofParts_congr
  simp only [digest_append, hl, hj, hs, hr]

end Lojban.Renderer
