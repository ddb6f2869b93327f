import Lojban.Tree.Shape

namespace Lojban

/-- A node without one of its parts. -/
inductive Frame where
  | member (front back : List Tree)
  | head (b : Bridi Tree) (front back : List Tree)
  | tail (b : Bridi Tree)
  | contents (b : Bridi Tree)
  | bridiLink (b : Bridi Tree)
  | left (c : Conjunction Tree)
  | right (c : Conjunction Tree)
  | joiner (c : Conjunction Tree)
  | scope (c : Conjunction Tree) (front back : List Tree)
  | shared (c : Conjunction Tree) (front back : List Tree)
  | conjunctionLink (c : Conjunction Tree)
  | selbri (t : Tail Tree)
  | preterm (t : Tail Tree) (front back : List Tree)
  | tailTerm (t : Tail Tree) (front back : List Tree)
  | tailLink (t : Tail Tree)
  | sumti (t : Term Tree)
  | termLink (t : Term Tree)
  | tertau (w : Wrapper Tree)
  | wrapperLink (w : Wrapper Tree)

inductive Tree.Below (root : Tree) : Tree → Prop where
  | part {c : Tree} : c ∈ root.parts → Below root c
  | within {t c : Tree} : Below root t → c ∈ t.parts → Below root c

namespace Frame

def plug : Frame → Tree → Tree
  | member front back, t => .composite (front ++ t :: back)
  | head b front back, t => .bridi { b with head := front ++ t :: back }
  | tail b, t => .bridi { b with tail := some t }
  | contents b, t => .bridi { b with contents := some t }
  | bridiLink b, t => .bridi { b with link := some t }
  | left c, t => .conjunction { c with left := some t }
  | right c, t => .conjunction { c with right := t }
  | joiner c, t => .conjunction { c with joiner := some t }
  | scope c front back, t => .conjunction { c with scope := front ++ t :: back }
  | shared c front back, t => .conjunction { c with tailTerms := front ++ t :: back }
  | conjunctionLink c, t => .conjunction { c with link := some t }
  | selbri u, t => .tail { u with selbri := t }
  | preterm u front back, t => .tail { u with preterms := front ++ t :: back }
  | tailTerm u front back, t => .tail { u with tailTerms := front ++ t :: back }
  | tailLink u, t => .tail { u with link := some t }
  | sumti u, t => .term { u with sumti := t }
  | termLink u, t => .term { u with link := some t }
  | tertau w, t => .wrapper { w with tertau := some t }
  | wrapperLink w, t => .wrapper { w with link := some t }

def isLink : Frame → Bool
  | bridiLink _ => true
  | conjunctionLink _ => true
  | tailLink _ => true
  | termLink _ => true
  | wrapperLink _ => true
  | _ => false

def isTail : Frame → Bool
  | tail _ => true
  | _ => false

def isSelbri : Frame → Bool
  | selbri _ => true
  | _ => false

def isPrecedence : Frame → Bool
  | contents b => b.role = .precedence
  | _ => false

theorem exists_plug {t u : Tree} (h : u ∈ t.parts) : ∃ f : Frame, f.plug u = t := by
  have split {ts : List Tree} (hu : u ∈ ts) : ∃ front back, ts = front ++ u :: back :=
    List.append_of_mem hu
  cases t with
  | composite ts =>
    obtain ⟨front, back, rfl⟩ := split h
    exact ⟨member front back, rfl⟩
  | bridi b =>
    simp only [Tree.parts, List.mem_append, Option.mem_toList] at h
    rcases h with ((h | h) | h) | h
    · obtain ⟨front, back, whole⟩ := split h
      exact ⟨head b front back, by rw [plug, ← whole]⟩
    · exact ⟨tail b, by rw [plug, ← h]⟩
    · exact ⟨contents b, by rw [plug, ← h]⟩
    · exact ⟨bridiLink b, by rw [plug, ← h]⟩
  | conjunction c =>
    simp only [Tree.parts, List.mem_append, List.mem_cons, Option.mem_toList] at h
    rcases h with (((h | h | h) | h) | h) | h
    · exact ⟨left c, by rw [plug, ← h]⟩
    · exact ⟨right c, by rw [plug, h]⟩
    · exact ⟨joiner c, by rw [plug, ← h]⟩
    · obtain ⟨front, back, whole⟩ := split h
      exact ⟨scope c front back, by rw [plug, ← whole]⟩
    · obtain ⟨front, back, whole⟩ := split h
      exact ⟨shared c front back, by rw [plug, ← whole]⟩
    · exact ⟨conjunctionLink c, by rw [plug, ← h]⟩
  | tail v =>
    simp only [Tree.parts, List.mem_append, List.cons_append, List.mem_cons, Option.mem_toList] at h
    rcases h with h | (h | h) | h
    · exact ⟨selbri v, by rw [plug, h]⟩
    · obtain ⟨front, back, whole⟩ := split h
      exact ⟨preterm v front back, by rw [plug, ← whole]⟩
    · obtain ⟨front, back, whole⟩ := split h
      exact ⟨tailTerm v front back, by rw [plug, ← whole]⟩
    · exact ⟨tailLink v, by rw [plug, ← h]⟩
  | term v =>
    simp only [Tree.parts, List.mem_cons, Option.mem_toList] at h
    rcases h with h | h
    · exact ⟨sumti v, by rw [plug, h]⟩
    · exact ⟨termLink v, by rw [plug, ← h]⟩
  | wrapper w =>
    simp only [Tree.parts, List.mem_append, Option.mem_toList] at h
    rcases h with h | h
    · exact ⟨wrapperLink w, by rw [plug, ← h]⟩
    · exact ⟨tertau w, by rw [plug, ← h]⟩
  | text => cases h
  | leaf => cases h
  | other => cases h

theorem shape_plug_link {f : Frame} (h : f.isLink) :
    ∃ conversion, ∀ t, (f.plug t).shape = .link conversion t := by
  cases f with
  | wrapperLink w => exact ⟨w.conversion, fun _ => rfl⟩
  | bridiLink b => exact ⟨none, fun _ => rfl⟩
  | conjunctionLink c => exact ⟨none, fun _ => rfl⟩
  | tailLink u => exact ⟨none, fun _ => rfl⟩
  | termLink u => exact ⟨none, fun _ => rfl⟩
  | _ => cases h

/-- Children are not looked at beside a link. -/
theorem shape_ofLink_cases (link : Option Tree) (children : Tree → List Tree) :
    (∃ s, ∀ t, Shape.ofLink link (children t) = s) ∨
      ∀ t, Shape.ofLink link (children t) = .group (children t) := by
  cases link with
  | none => exact .inr fun _ => rfl
  | some inner => exact .inl ⟨.link none inner, fun _ => rfl⟩

theorem shape_plug_cases {f : Frame} (h : f.isLink = false) :
    (∃ s, ∀ t, (f.plug t).shape = s) ∨ ∀ t, (f.plug t).shape = .group (f.plug t).children := by
  cases f with
  | member front back => exact .inr fun _ => rfl
  | head b front back => exact shape_ofLink_cases b.link _
  | tail b => exact shape_ofLink_cases b.link _
  | contents b => exact shape_ofLink_cases b.link _
  | left c => exact shape_ofLink_cases c.link _
  | right c => exact shape_ofLink_cases c.link _
  | joiner c => exact shape_ofLink_cases c.link _
  | scope c front back => exact shape_ofLink_cases c.link _
  | shared c front back => exact shape_ofLink_cases c.link _
  | selbri u => exact shape_ofLink_cases u.link _
  | preterm u front back => exact shape_ofLink_cases u.link _
  | tailTerm u front back => exact shape_ofLink_cases u.link _
  | sumti u => exact shape_ofLink_cases u.link _
  | tertau w =>
    obtain ⟨link, conversion, tertau', extra⟩ := w
    cases link with
    | none => exact .inl ⟨.unknown, fun _ => rfl⟩
    | some inner => exact .inl ⟨.link conversion inner, fun _ => rfl⟩
  | _ => cases h

theorem children_plug {f : Frame} (h : f.isLink = false) :
    ∃ front back, ∀ t, (f.plug t).children =
      front ++ (if f.isTail then t.splice else [t]) ++ back := by
  cases f with
  | member front back => exact ⟨front, back, fun t => by simp [plug, Tree.children, isTail]⟩
  | head b front back =>
    exact ⟨front, back ++ b.contents.toList ++ b.tail.toList.flatMap Tree.splice,
      fun t => by simp [plug, Tree.children, isTail]⟩
  | tail b =>
    exact ⟨b.head ++ b.contents.toList, [], fun t => by simp [plug, Tree.children, isTail]⟩
  | contents b =>
    exact ⟨b.head, b.tail.toList.flatMap Tree.splice,
      fun t => by simp [plug, Tree.children, isTail]⟩
  | left c =>
    exact ⟨[], c.joiner.toList ++ c.scope ++ c.right :: c.tailTerms,
      fun t => by simp [plug, Tree.children, Conjunction.children, isTail]⟩
  | right c =>
    exact ⟨c.left.toList ++ c.joiner.toList ++ c.scope, c.tailTerms,
      fun t => by simp [plug, Tree.children, Conjunction.children, isTail]⟩
  | joiner c =>
    exact ⟨c.left.toList, c.scope ++ c.right :: c.tailTerms,
      fun t => by simp [plug, Tree.children, Conjunction.children, isTail]⟩
  | scope c front back =>
    exact ⟨c.left.toList ++ c.joiner.toList ++ front, back ++ c.right :: c.tailTerms,
      fun t => by simp [plug, Tree.children, Conjunction.children, isTail]⟩
  | shared c front back =>
    exact ⟨c.left.toList ++ c.joiner.toList ++ c.scope ++ c.right :: front, back,
      fun t => by simp [plug, Tree.children, Conjunction.children, isTail]⟩
  | selbri u =>
    exact ⟨u.preterms, u.tailTerms,
      fun t => by simp [plug, Tree.children, Tail.children, isTail]⟩
  | preterm u front back =>
    exact ⟨front, back ++ u.selbri :: u.tailTerms,
      fun t => by simp [plug, Tree.children, Tail.children, isTail]⟩
  | tailTerm u front back =>
    exact ⟨u.preterms ++ u.selbri :: front, back,
      fun t => by simp [plug, Tree.children, Tail.children, isTail]⟩
  | sumti u => exact ⟨[], [], fun t => by simp [plug, Tree.children, isTail]⟩
  | tertau w => exact ⟨[], [], fun t => by simp [plug, Tree.children, isTail]⟩
  | _ => cases h

theorem splice_plug_cases (f : Frame) :
    (∀ t, (f.plug t).splice = [f.plug t]) ∨
      f.isLink = false ∧ ∀ t, (f.plug t).splice = (f.plug t).children := by
  have tails (link : Option Tree) (u : Tree → Tail Tree) (same : ∀ t, (u t).link = link) :
      (∀ t, (Tree.tail (u t)).splice = [.tail (u t)]) ∨
        ∀ t, (Tree.tail (u t)).splice = (u t).children := by
    cases link with
    | none => exact .inr fun t => by simp [Tree.splice, same t]
    | some inner => exact .inl fun t => by simp [Tree.splice, same t]
  cases f with
  | selbri u =>
    exact (tails u.link (fun t => { u with selbri := t }) fun _ => rfl).imp_right (⟨rfl, ·⟩)
  | preterm u front back =>
    exact (tails u.link (fun t => { u with preterms := front ++ t :: back }) fun _ => rfl).imp_right
      (⟨rfl, ·⟩)
  | tailTerm u front back =>
    exact (tails u.link (fun t => { u with tailTerms := front ++ t :: back })
      fun _ => rfl).imp_right (⟨rfl, ·⟩)
  | _ => exact .inl fun _ => rfl

end Frame

/-- A tree with a place left open: the frames around the place, from the inside out. -/
abbrev Context := List Frame

def Context.plug : Context → Tree → Tree
  | [], t => t
  | f :: outer, t => plug outer (f.plug t)

theorem Context.exists_plug {root t : Tree} (h : root.Below t) :
    ∃ (outer : Context) (f : Frame), outer.plug (f.plug t) = root := by
  induction h with
  | part child =>
    obtain ⟨f, here⟩ := Frame.exists_plug child
    exact ⟨[], f, here⟩
  | within _ child ih =>
    obtain ⟨outer, g, around⟩ := ih
    obtain ⟨f, here⟩ := Frame.exists_plug child
    refine ⟨g :: outer, f, ?_⟩
    rw [plug, here, around]

end Lojban
