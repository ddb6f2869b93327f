import Lojban.Tree.Shape

namespace Lojban

namespace Tree

mutual

/-- Words and tokens are replaced by what they are said as, and no leaf is elided any more. -/
def reword (say : String → String) : Tree → Tree
  | composite cs => composite (rewordAll say cs)
  | text s => text (say s)
  | leaf l => leaf { l with word := say l.word, elided := false }
  | bridi ⟨role, head, rear, contents, link, extra⟩ =>
    bridi ⟨role, rewordAll say head, rewordOption say rear, rewordOption say contents,
      rewordOption say link, extra⟩
  | conjunction ⟨left, right, joiner, scope, tailTerms, link, extra⟩ =>
    conjunction ⟨rewordOption say left, right.reword say, rewordOption say joiner,
      rewordAll say scope, rewordAll say tailTerms, rewordOption say link, extra⟩
  | tail ⟨selbri, preterms, tailTerms, tagged, link, extra⟩ =>
    tail ⟨selbri.reword say, rewordAll say preterms, rewordAll say tailTerms, tagged,
      rewordOption say link, extra⟩
  | term ⟨place, sumti, link, extra⟩ =>
    term ⟨place, sumti.reword say, rewordOption say link, extra⟩
  | wrapper ⟨link, conversion, tertau, extra⟩ =>
    wrapper ⟨rewordOption say link, conversion, rewordOption say tertau, extra⟩
  | other v => other v

def rewordAll (say : String → String) : List Tree → List Tree
  | [] => []
  | t :: ts => t.reword say :: rewordAll say ts

def rewordOption (say : String → String) : Option Tree → Option Tree
  | none => none
  | some t => some (t.reword say)

end

end Tree

def Shape.reword (say : String → String) : Shape → Shape
  | token s => token (say s)
  | leaf l => leaf { l with word := say l.word, elided := false }
  | link conversion inner => link conversion (inner.reword say)
  | group cs => group (cs.map (·.reword say))
  | unknown => unknown

namespace Tree

variable {say : String → String}

theorem rewordAll_eq (ts : List Tree) : rewordAll say ts = ts.map (·.reword say) := by
  induction ts with
  | nil => rfl
  | cons t ts ih => rw [rewordAll, ih, List.map_cons]

theorem rewordOption_eq (t : Option Tree) : rewordOption say t = t.map (·.reword say) := by
  cases t with
  | none => rfl
  | some t => rfl

theorem toList_rewordOption (t : Option Tree) :
    (rewordOption say t).toList = t.toList.map (·.reword say) := by
  rw [rewordOption_eq]
  exact Option.toList_map

theorem splice_reword (t : Tree) : (t.reword say).splice = t.splice.map (·.reword say) := by
  cases t with
  | tail t =>
    obtain ⟨selbri, preterms, tailTerms, tagged, link, extra⟩ := t
    cases link with
    | none => simp [reword, splice, Tail.children, rewordAll_eq, rewordOption]
    | some inner => simp [reword, splice, rewordOption]
  | _ => rfl

theorem children_reword (t : Tree) : (t.reword say).children = t.children.map (·.reword say) := by
  cases t with
  | composite cs => exact rewordAll_eq cs
  | bridi b =>
    obtain ⟨role, head, rear, contents, link, extra⟩ := b
    have spliced : (rewordOption say rear).toList.flatMap splice =
        (rear.toList.flatMap splice).map (·.reword say) := by
      rw [toList_rewordOption, List.flatMap_map, List.map_flatMap]
      exact congrArg (List.flatMap · rear.toList) (funext splice_reword)
    simp only [reword, children, rewordAll_eq, toList_rewordOption contents, spliced,
      List.map_append]
  | conjunction c =>
    obtain ⟨left, right, joiner, scope, tailTerms, link, extra⟩ := c
    simp only [reword, children, Conjunction.children, rewordAll_eq, toList_rewordOption,
      List.map_append, List.map_cons]
  | tail t =>
    obtain ⟨selbri, preterms, tailTerms, tagged, link, extra⟩ := t
    simp only [reword, children, Tail.children, rewordAll_eq, List.map_append, List.map_cons]
  | wrapper w =>
    obtain ⟨link, conversion, tertau, extra⟩ := w
    exact toList_rewordOption tertau
  | _ => rfl

theorem ofLink_reword (link : Option Tree) (cs : List Tree) :
    Shape.ofLink (rewordOption say link) (cs.map (·.reword say)) =
      (Shape.ofLink link cs).reword say := by
  cases link with
  | none => rfl
  | some inner => rfl

theorem shape_reword (t : Tree) : (t.reword say).shape = t.shape.reword say := by
  have children : (t.reword say).children = t.children.map (·.reword say) := children_reword t
  cases t with
  | composite cs => exact congrArg Shape.group children
  | bridi b => exact (congrArg (Shape.ofLink _) children).trans (ofLink_reword b.link _)
  | conjunction c => exact (congrArg (Shape.ofLink _) children).trans (ofLink_reword c.link _)
  | tail t => exact (congrArg (Shape.ofLink _) children).trans (ofLink_reword t.link _)
  | term t => exact (congrArg (Shape.ofLink _) children).trans (ofLink_reword t.link _)
  | wrapper w =>
    obtain ⟨link, conversion, tertau, extra⟩ := w
    cases link with
    | none => rfl
    | some inner => rfl
  | _ => rfl

theorem shape_reword_of_eq {t : Tree} {s : Shape} (h : t.shape = s) :
    (t.reword say).shape = s.reword say := by
  rw [shape_reword, h]

end Tree

end Lojban
