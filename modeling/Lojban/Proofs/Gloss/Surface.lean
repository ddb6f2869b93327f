import Lojban.Proofs.Gloss.Term
import Mathlib.Data.List.Basic

namespace Lojban

namespace Phrase

mutual

def flatten : Phrase → List Phrase
  | seq ps => flattenAll ps
  | node t => [node t]
  | word w => [word w]
  | text s => [text s]
  | unknown => [unknown]

def flattenAll : List Phrase → List Phrase
  | [] => []
  | p :: ps => p.flatten ++ flattenAll ps

end

theorem flatten_seq (ps : List Phrase) : (seq ps).flatten = ps.flatMap flatten := by
  rw [flatten]
  induction ps with
  | nil => rfl
  | cons p ps ih => rw [flattenAll, ih, List.flatMap_cons]

def node? : Phrase → Option Tree
  | node t => some t
  | _ => none

mutual

theorem nodes_eq_filterMap : ∀ p : Phrase, p.nodes = p.flatten.filterMap node?
  | seq ps => nodesAll_eq_filterMap ps
  | node _ => rfl
  | word _ => rfl
  | text _ => rfl
  | unknown => rfl

theorem nodesAll_eq_filterMap : ∀ ps : List Phrase, nodesAll ps = (flattenAll ps).filterMap node?
  | [] => rfl
  | p :: ps => by
    rw [nodesAll, flattenAll, List.filterMap_append, nodes_eq_filterMap p, nodesAll_eq_filterMap ps]

end

def read (ps : List Phrase) : List Phrase := (ps.filter (!·.isEmpty)).flatMap flatten

@[simp] theorem read_append (ps qs : List Phrase) : read (ps ++ qs) = read ps ++ read qs := by
  simp [read]

theorem read_cons (p : Phrase) (ps : List Phrase) : read (p :: ps) = read [p] ++ read ps :=
  read_append [p] ps

theorem flatten_ofParts (ps : List Phrase) : (ofParts ps).flatten = read ps := by
  rw [ofParts, flatten_seq, read]

theorem read_ofParts (ps : List Phrase) : read [ofParts ps] = read ps := by
  cases empty : (ofParts ps).isEmpty with
  | true =>
    have none : ps.filter (!·.isEmpty) = [] := List.isEmpty_iff.mp empty
    simp [read, empty, none]
  | false => simp [read, empty, flatten_ofParts]

theorem read_map (f : Tree → Phrase) (ts : List Tree) :
    read (ts.map f) = ts.flatMap fun t => read [f t] := by
  induction ts with
  | nil => rfl
  | cons t ts ih => rw [List.map_cons, read_cons, ih, List.flatMap_cons]

def present (t : Tree) : List Phrase := if t.isEmpty then [] else [node t]

theorem read_node (t : Tree) : read [node t] = present t := by
  cases empty : t.isEmpty <;> simp [read, present, isEmpty, empty, flatten]

theorem read_word {w : String} (h : w ≠ "") : read [word w] = [word w] := by
  have present : (word w).isEmpty = false := beq_false_of_ne h
  simp [read, present, flatten]

theorem read_texts {o : Option String} (h : ∀ s ∈ o, s ≠ "") :
    read (o.toList.map text) = o.toList.map text := by
  cases o with
  | none => rfl
  | some s =>
    have present : (text s).isEmpty = false := beq_false_of_ne (h s rfl)
    simp [read, present, flatten]

theorem read_joined (left : Option Phrase) (joiner : Option Tree) (scope : List Tree)
    (right : Phrase) :
    read [joined left joiner scope right] =
      read left.toList ++ joiner.toList.flatMap present ++ scope.flatMap present ++
        read [right] := by
  rw [joined, read_ofParts]
  simp only [read_append, read_map, read_node]

end Phrase

inductive Constituent where
  | term (t : Tree)
  | particle (t : Tree)

namespace Tree

mutual

/-- The constituents of a term in surface order. Terms that joined terms would share are not among
them: only tails share terms. -/
def constituents : Tree → List Constituent
  | composite ts => constituentsAll ts
  | conjunction ⟨left, right, joiner, scope, _, _, _⟩ =>
    constituentsOption left ++ joiner.toList.map .particle ++ scope.map .particle ++
      right.constituents
  | t => [.term t]

def constituentsAll : List Tree → List Constituent
  | [] => []
  | t :: ts => t.constituents ++ constituentsAll ts

def constituentsOption : Option Tree → List Constituent
  | none => []
  | some t => t.constituents

end

theorem constituents_group (ts : List Tree) :
    (composite ts).constituents = ts.flatMap constituents := by
  rw [constituents]
  induction ts with
  | nil => rfl
  | cons t ts ih => rw [constituentsAll, ih, List.flatMap_cons]

theorem constituents_joined (c : Conjunction Tree) :
    (conjunction c).constituents =
      c.left.toList.flatMap constituents ++ c.joiner.toList.map .particle ++
        c.scope.map .particle ++ c.right.constituents := by
  obtain ⟨left, right, joiner, scope, tailTerms, link, extra⟩ := c
  rw [constituents]
  cases left with
  | none => rfl
  | some t => simp [constituentsOption]

example (s t u and shared : Tree) :
    (conjunction ⟨some (composite [.term ⟨none, s, none, []⟩, .term ⟨none, t, none, []⟩]),
      .term ⟨none, u, none, []⟩, some and, [], [shared], none, []⟩).constituents =
    [.term (.term ⟨none, s, none, []⟩), .term (.term ⟨none, t, none, []⟩), .particle and,
      .term (.term ⟨none, u, none, []⟩)] := rfl

theorem constituents_simple {t : Tree} (h : t.isSimple) : t.constituents = [.term t] := by
  cases t with
  | composite ts => cases h
  | conjunction c => cases h
  | _ => simp only [constituents]

end Tree

namespace Predicate

def place? (p : Predicate) : Constituent → Option Nat
  | .term t => (t.declared?.map fun d => p.place d.1).filter (0 < ·)
  | .particle _ => none

def filler (p : Predicate) : Constituent → Tree
  | .term t =>
    match t.declared? with
    | some (declared, sumti) => if 0 < p.place declared ∧ p.word.isSome then sumti else t
    | none => t
  | .particle t => t

/-- What stands directly in front of what fills a place: the text of the record, or the place by
number where there is no record. -/
def lead (p : Predicate) (place : Nat) : List Phrase :=
  match p.record, p.word with
  | some r, _ => (r.before place).toList.map .text
  | none, some w => [.word (w ++ toString place)]
  | none, none => []

def trail (p : Predicate) (place : Nat) : List Phrase :=
  match p.record with
  | some r => (r.after place).toList.map .text
  | none => []

/-- A constituent between the texts of its place. The texts stand even if the node is empty. -/
def reading (p : Predicate) (c : Constituent) : List Phrase :=
  (p.place? c).elim [] p.lead ++ Phrase.present (p.filler c) ++ (p.place? c).elim [] p.trail

end Predicate

namespace Predicate

variable {p : Predicate}

theorem numbered_ne_empty (w : String) (place : Nat) : w ++ toString place ≠ "" := by
  intro empty
  have length := congrArg String.length empty
  simp at length

theorem read_surround (worded : p.record.isSome → p.word.isSome) (place : Nat) (sumti t : Tree) :
    Phrase.read [(p.surround place sumti).getD (.node t)] =
      p.lead place ++ Phrase.present (if p.word.isSome then sumti else t) ++ p.trail place := by
  rw [surround, lead, trail]
  cases record : p.record with
  | some r =>
    have word : p.word.isSome := worded (by simp [record])
    simp only [word, Option.getD_some, if_true]
    rw [Phrase.read_ofParts, Phrase.read_append, Phrase.read_cons, Phrase.read_node,
      Phrase.read_texts fun _ => PlaceRecord.ne_empty_of_before,
      Phrase.read_texts fun _ => PlaceRecord.ne_empty_of_after, List.append_assoc]
  | none =>
    cases word : p.word with
    | some w =>
      simp only [Option.getD_some, Option.isSome_some, if_true, List.append_nil]
      rw [Phrase.read_ofParts, Phrase.read_cons, Phrase.read_node,
        Phrase.read_word (numbered_ne_empty w place)]
    | none => simp [Phrase.read_node]

theorem read_placed (worded : p.record.isSome → p.word.isSome) (t : Tree) :
    Phrase.read [p.placed t] = p.reading (.term t) := by
  rw [placed, reading, place?, filler]
  cases declared : t.declared? with
  | none => simp [Phrase.read_node]
  | some d =>
    obtain ⟨d, sumti⟩ := d
    by_cases none : p.place d = 0
    · simp [none, Phrase.read_node, Option.filter]
    · have place : 0 < p.place d := Nat.pos_of_ne_zero none
      simp [none, place, Option.filter, read_surround worded]

theorem read_particle (t : Tree) : p.reading (.particle t) = Phrase.present t := by
  simp [reading, place?, filler]

theorem read_resolve (worded : p.record.isSome → p.word.isSome) (t : Tree) :
    Phrase.read [p.resolve t] = t.constituents.flatMap p.reading := by
  induction t using Tree.term_induction with
  | group ts ih =>
    rw [p.resolve_group, p.terms_eq, Phrase.read_ofParts, Phrase.read_map, Tree.constituents_group,
      List.flatMap_assoc]
    exact List.flatMap_congr ih
  | joined c left right =>
    have first : Phrase.read (c.left.map p.resolve).toList =
        (c.left.toList.flatMap Tree.constituents).flatMap p.reading := by
      cases side : c.left with
      | none => rfl
      | some t => simpa using left t side
    rw [p.resolve_joined, Phrase.read_joined, Tree.constituents_joined, first, right]
    simp only [List.flatMap_append, List.flatMap_map, read_particle]
  | simple t simple =>
    rw [p.resolve_simple simple, Tree.constituents_simple simple, read_placed worded,
      List.flatMap_singleton]

def readings (p : Predicate) (ts : List Tree) : List Phrase :=
  (ts.flatMap Tree.constituents).flatMap p.reading

theorem read_terms (worded : p.record.isSome → p.word.isSome) (ts : List Tree) :
    Phrase.read [p.terms ts] = p.readings ts := by
  rw [p.terms_eq, Phrase.read_ofParts, Phrase.read_map, readings, List.flatMap_assoc]
  exact List.flatMap_congr fun t _ => read_resolve worded t

def fillers (p : Predicate) (ts : List Tree) : List Tree :=
  ((ts.flatMap Tree.constituents).map p.filler).filter (!·.isEmpty)

theorem filterMap_node?_texts (o : Option String) :
    (o.toList.map Phrase.text).filterMap Phrase.node? = [] := by
  cases o with
  | none => rfl
  | some s => rfl

theorem filterMap_node?_lead (place : Nat) : (p.lead place).filterMap Phrase.node? = [] := by
  rw [lead]
  split
  · exact filterMap_node?_texts _
  · rfl
  · rfl

theorem filterMap_node?_trail (place : Nat) : (p.trail place).filterMap Phrase.node? = [] := by
  rw [trail]
  split
  · exact filterMap_node?_texts _
  · rfl

theorem filterMap_node?_present (t : Tree) :
    (Phrase.present t).filterMap Phrase.node? = [t].filter (!·.isEmpty) := by
  cases empty : t.isEmpty <;> simp [Phrase.present, Phrase.node?, empty]

theorem filterMap_node?_reading (c : Constituent) :
    (p.reading c).filterMap Phrase.node? = [p.filler c].filter (!·.isEmpty) := by
  rw [reading, List.filterMap_append, List.filterMap_append, filterMap_node?_present]
  cases p.place? c with
  | none => simp
  | some place => simp [filterMap_node?_lead, filterMap_node?_trail]

theorem filterMap_node?_readings (ts : List Tree) :
    (p.readings ts).filterMap Phrase.node? = p.fillers ts := by
  rw [readings, fillers]
  induction ts.flatMap Tree.constituents with
  | nil => rfl
  | cons c cs ih =>
    rw [List.flatMap_cons, List.filterMap_append, ih, filterMap_node?_reading, List.map_cons,
      ← List.filter_append, List.singleton_append]

theorem first_cases {x : Lexicon} {q : Phrase} (h : q ∈ p.first x) :
    (∃ s, q = .text s) ∨ (∃ w, q = .word w) ∨ ∃ t, p.word = none ∧ q = .node t := by
  simp only [first, Option.mem_def] at h
  split at h
  · obtain ⟨s, -, rfl⟩ := Option.map_eq_some_iff.mp h
    exact .inl ⟨s, rfl⟩
  · rename_i w _ _
    obtain rfl := Option.some.inj h
    cases x.dictionary.keyword w 1 with
    | some s => exact .inl ⟨s, rfl⟩
    | none => exact .inr (.inl ⟨w, rfl⟩)
  · rename_i word
    obtain ⟨t, -, rfl⟩ := Option.map_eq_some_iff.mp h
    exact .inr (.inr ⟨t, word, rfl⟩)

def opening (x : Lexicon) (p : Predicate) : List Phrase :=
  (p.first x).toList.filter (!·.isEmpty)

theorem read_first (x : Lexicon) : Phrase.read (p.first x).toList = p.opening x := by
  have piece : ∀ q ∈ p.first x, q.flatten = [q] := by
    intro q hq
    obtain ⟨s, rfl⟩ | ⟨w, rfl⟩ | ⟨t, -, rfl⟩ := first_cases hq <;> rfl
  rw [opening, Phrase.read]
  cases first : p.first x with
  | none => rfl
  | some q => cases empty : q.isEmpty <;> simp [empty, piece q first]

end Predicate

namespace Lexicon

variable (x : Lexicon)

theorem isSome_word_of_record (selbri : Tree) (h : (x.predicate (some selbri)).record.isSome) :
    (x.predicate (some selbri)).word.isSome := by
  obtain ⟨r, record⟩ := Option.isSome_iff_exists.mp h
  obtain ⟨w, word, -⟩ := Option.bind_eq_some_iff.mp record
  exact Option.isSome_iff_exists.mpr ⟨w, word⟩

theorem filterMap_node?_opening (selbri : Tree) :
    ((x.predicate (some selbri)).opening x).filterMap Phrase.node? =
      if selbri.headWord? = none then [selbri].filter (!·.isEmpty) else [] := by
  cases word : selbri.headWord? with
  | none =>
    have first : (x.predicate (some selbri)).first x = some (.node selbri) := by
      simp [predicate, Predicate.first, word]
    cases empty : selbri.isEmpty <;>
      simp [Predicate.opening, first, Phrase.node?, Phrase.isEmpty, empty]
  | some w =>
    have wordless : ∀ q ∈ (x.predicate (some selbri)).first x, q.node? = none := by
      intro q hq
      obtain ⟨s, rfl⟩ | ⟨w, rfl⟩ | ⟨t, absent, rfl⟩ := Predicate.first_cases hq
      · rfl
      · rfl
      · rw [predicate, Option.bind_some, word] at absent
        cases absent
    rw [if_neg (by simp), List.filterMap_eq_nil_iff]
    intro q hq
    exact wordless q (Option.mem_toList.mp (List.mem_filter.mp hq).1)

theorem read_tail (t : Tail Tree) :
    Phrase.read [x.tail none (x.predicate (some t.selbri)) t] =
      (x.predicate (some t.selbri)).readings t.preterms ++
        (if t.tagged.any (!·.contains 1) then (x.predicate (some t.selbri)).opening x else []) ++
        (x.predicate (some t.selbri)).readings t.tailTerms := by
  have worded := x.isSome_word_of_record t.selbri
  have said : Phrase.read (if t.tagged.any (!·.contains 1) then
      ((x.predicate (some t.selbri)).first x).toList else []) =
      if t.tagged.any (!·.contains 1) then (x.predicate (some t.selbri)).opening x else [] := by
    split
    · exact Predicate.read_first x
    · rfl
  rw [tail, Phrase.read_ofParts]
  simp only [Option.isSome_none, Bool.false_or, Option.getD_none, List.map_nil, List.cons_append]
  rw [Phrase.read_cons, Phrase.read_append, said, Predicate.read_terms worded,
    Predicate.read_terms worded, List.append_assoc]

/-- Read from left to right, a relation with one tail holds the nodes of its head, of the terms
before its predicate and of the terms after it, each between the texts of its place, and nothing else
but what stands for the first place. -/
theorem rephrase_in_surface_order (head : List Tree) (t : Tail Tree) (contents link : Option Tree)
    (extra : Json.Fields) :
    let p := x.predicate (some t.selbri)
    let skipsFirst := t.tagged.any (!·.contains 1)
    ∃ q, x.rephrase (.bridi ⟨.bridi, head, some (.tail t), contents, link, extra⟩) = some q ∧
      q.nodes = p.fillers head ++ p.fillers t.preterms ++
        (if skipsFirst ∧ t.selbri.headWord? = none then [t.selbri].filter (!·.isEmpty) else []) ++
        p.fillers t.tailTerms ∧
      q.flatten = p.readings head ++ p.readings t.preterms ++
        (if skipsFirst then p.opening x else []) ++ p.readings t.tailTerms := by
  intro p skipsFirst
  have flat : (Phrase.ofParts [p.terms head, x.tail none p t]).flatten = p.readings head ++
      p.readings t.preterms ++ (if skipsFirst then p.opening x else []) ++
      p.readings t.tailTerms := by
    rw [Phrase.flatten_ofParts, Phrase.read_cons, read_tail,
      Predicate.read_terms (x.isSome_word_of_record t.selbri)]
    simp only [List.append_assoc, p, skipsFirst]
  refine ⟨.ofParts [p.terms head, x.tail none p t], rfl, ?_, flat⟩
  have shown : (if skipsFirst then p.opening x else []).filterMap Phrase.node? =
      if skipsFirst ∧ t.selbri.headWord? = none then [t.selbri].filter (!·.isEmpty) else [] := by
    cases skipsFirst with
    | false => simp
    | true => simpa using x.filterMap_node?_opening t.selbri
  rw [Phrase.nodes_eq_filterMap, flat]
  simp only [List.filterMap_append, Predicate.filterMap_node?_readings, shown]

end Lexicon

end Lojban
