import Lojban.Outline
import Lojban.Proofs.Glyphs.Nesting

/-!
The text of an outline. A property of texts that brackets, marks and joining keep passes from the
parts of an outline to the whole. The text falls into the pieces of the parts, however groups stand
around them, so an outline with fewer parts has fewer pieces.
-/

namespace Lojban.Outline

theorem charsAll_eq (os : List Outline) : charsAll os = [' '].intercalate (os.map chars) := by
  induction os with
  | nil => rfl
  | cons o os ih =>
    cases os with
    | nil => rw [charsAll, List.map_cons, List.map_nil, List.intercalate_singleton]
    | cons o' os =>
      rw [charsAll, ih]
      · simp only [List.map_cons, List.intercalate_cons_cons, List.append_assoc,
          List.singleton_append]
      · exact List.cons_ne_nil o' os

/-- Kept by joining texts and by brackets around a text, and had by every character that is no
bracket. -/
structure Closed (P : List Char → Prop) : Prop where
  nil : P []
  append : ∀ {cs ds}, P cs → P ds → P (cs ++ ds)
  enclosed : ∀ {cs}, P cs → P ('[' :: cs ++ [']'])
  mark : ∀ {c}, c ∉ Glyphs.brackets → P [c]

namespace Closed

variable {P : List Char → Prop} (h : Closed P)

include h

theorem marks {cs : List Char} (plain : ∀ c ∈ cs, c ∉ Glyphs.brackets) : P cs := by
  induction cs with
  | nil => exact h.nil
  | cons c cs ih =>
    have first : P [c] := h.mark (plain c List.mem_cons_self)
    exact h.append first (ih fun d hd => plain d (List.mem_cons_of_mem c hd))

theorem intercalate {sep : List Char} (hsep : P sep) {parts : List (List Char)}
    (hparts : ∀ cs ∈ parts, P cs) : P (sep.intercalate parts) := by
  induction parts with
  | nil => exact h.nil
  | cons cs parts ih =>
    have first := hparts cs List.mem_cons_self
    have rest := ih fun ds hds => hparts ds (List.mem_cons_of_mem cs hds)
    cases parts with
    | nil => rwa [List.intercalate_singleton]
    | cons ds parts =>
      rw [List.intercalate_cons_cons]
      exact h.append (h.append first hsep) rest

theorem placeholder : P Outline.placeholder.chars := by
  have marks : P ['?', '?', '?'] := h.marks (Glyphs.not_mem_brackets_of_all (by decide))
  exact h.enclosed marks

theorem ofParts {os : List Outline} (parts : ∀ o ∈ os, P o.chars) : P (ofParts os).chars := by
  have group : P (Outline.group os).chars := by
    have space : P [' '] := h.mark (by decide)
    have each : ∀ cs ∈ os.map chars, P cs := by
      intro cs hcs
      obtain ⟨o, ho, rfl⟩ := List.mem_map.mp hcs
      exact parts o ho
    rw [chars, charsAll_eq]
    exact h.enclosed (h.intercalate space each)
  cases os with
  | nil => exact group
  | cons o os =>
    cases os with
    | nil => exact parts o List.mem_cons_self
    | cons o' os => exact group

theorem label {places : Option (List Nat)} {o : Outline} (body : P o.chars) :
    P (label places o).chars := by
  cases places with
  | none => exact body
  | some places =>
    have digits : ∀ cs ∈ places.map (Nat.toDigits 10), P cs := by
      intro cs hcs
      obtain ⟨n, -, rfl⟩ := List.mem_map.mp hcs
      apply h.marks
      intro c hc bracket
      have digit : c.isDigit = true := Nat.isDigit_of_mem_toDigits (by decide) (by decide) hc
      rw [(Glyphs.ascii_of_mem_brackets bracket).2.2] at digit
      cases digit
    have comma : P [','] := h.mark (by decide)
    have colon : P [':'] := h.mark (by decide)
    have table := h.enclosed (h.intercalate comma digits)
    have whole := h.append (h.append table colon) body
    rw [Outline.label, chars]
    simpa using whole

end Closed

/-- Spaces and square brackets stand between words, never in them. -/
def isSeparator (c : Char) : Bool := c == ' ' || c == '[' || c == ']'

def pieces (cs : List Char) : List (List Char) := (cs.splitOnP isSeparator).filter (!·.isEmpty)

example : pieces "[a [b [c]] ]".toList = ["a", "b", "c"].map String.toList := by decide +kernel

@[simp] theorem pieces_nil : pieces [] = [] := by
  rw [pieces, List.splitOnP_nil]
  rfl

theorem pieces_append_cons {sep : Char} (h : isSeparator sep) (cs ds : List Char) :
    pieces (cs ++ sep :: ds) = pieces cs ++ pieces ds := by
  rw [pieces, List.splitOnP_append_cons _ _ h, List.filter_append, pieces, pieces]

theorem pieces_enclosed (cs : List Char) : pieces ('[' :: cs ++ [']']) = pieces cs := by
  calc
    pieces ('[' :: cs ++ [']']) = pieces ('[' :: cs) ++ pieces [] := pieces_append_cons rfl _ _
    _ = pieces ([] ++ '[' :: cs) := by rw [pieces_nil, List.append_nil, List.nil_append]
    _ = pieces [] ++ pieces cs := pieces_append_cons rfl [] cs
    _ = pieces cs := by rw [pieces_nil, List.nil_append]

theorem pieces_charsAll (os : List Outline) :
    pieces (charsAll os) = os.flatMap fun o => pieces o.chars := by
  induction os with
  | nil => exact pieces_nil
  | cons o os ih =>
    cases os with
    | nil => rw [charsAll, List.flatMap_singleton]
    | cons o' os =>
      rw [charsAll, pieces_append_cons rfl, ih, List.flatMap_cons (x := o)]
      exact List.cons_ne_nil o' os

theorem pieces_ofParts (os : List Outline) :
    pieces (ofParts os).chars = os.flatMap fun o => pieces o.chars := by
  match os with
  | [o] => rw [ofParts, List.flatMap_singleton]
  | [] => rfl
  | o :: o' :: os =>
    rw [ofParts_of_length_ne_one (by simp), chars, pieces_enclosed, pieces_charsAll]

theorem pieces_ofParts_sublist {α : Type} {as : List α} {p q : α → Bool} {f g : α → Outline}
    (fewer : ∀ a ∈ as, p a → q a)
    (parts : ∀ a ∈ as, (pieces (f a).chars).Sublist (pieces (g a).chars)) :
    (pieces (ofParts ((as.filter p).map f)).chars).Sublist
      (pieces (ofParts ((as.filter q).map g)).chars) := by
  rw [pieces_ofParts, pieces_ofParts, List.flatMap_map, List.flatMap_map]
  induction as with
  | nil => exact List.Sublist.slnil
  | cons a as ih =>
    have first := parts a List.mem_cons_self
    have rest := ih (fun b hb => fewer b (List.mem_cons_of_mem a hb))
      fun b hb => parts b (List.mem_cons_of_mem a hb)
    rw [List.filter_cons, List.filter_cons]
    split
    · rename_i kept
      rw [if_pos (fewer a List.mem_cons_self kept), List.flatMap_cons, List.flatMap_cons]
      exact first.append rest
    · split
      · rw [List.flatMap_cons]
        exact rest.trans (List.sublist_append_right _ _)
      · exact rest

end Lojban.Outline
