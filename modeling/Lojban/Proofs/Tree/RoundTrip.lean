import Lojban.Proofs.Tree.Strip
import Lojban.Proofs.Tree.Writing
import Lojban.Renderer

/-!
Round trips of trees through their written forms. What is written for a tree that was read is read as
that tree again: the entries that are left out are those that no variant needs, and none is left out
or moved that would let an earlier variant fit. Without its links such a tree is one that was read
too, from the value without their key, so it makes the same trip.
-/

namespace Lojban

namespace Tree

theorem ofJson_toJson_ofJson {v : Json} (h : v.Distinct) :
    ofJson (ofJson v).toJson = ofJson v := by
  have pruned : (prune v).Distinct := distinct_prune h
  calc
    ofJson (ofJson v).toJson = ofJson (ofJson v).toJson.canonical :=
      (ofJson_canonical (distinct_toJson_ofJson h)).symm
    _ = ofJson (prune v).canonical := by rw [canonical_toJson_ofJson h]
    _ = ofJson (prune v) := ofJson_canonical pruned
    _ = ofJson v := ofJson_prune h

theorem ofJson_toJson_strip_ofJson {v : Json} (h : v.Distinct) :
    ofJson (ofJson v).strip.toJson = (ofJson v).strip := by
  have written : (ofJson v).toJson.Distinct := distinct_toJson_ofJson h
  calc
    ofJson (ofJson v).strip.toJson = ofJson ((ofJson v).toJson.erase linkKey) := by
      rw [toJson_strip]
    _ = (ofJson (ofJson v).toJson).strip := ofJson_erase written
    _ = (ofJson v).strip := by rw [ofJson_toJson_ofJson h]

end Tree

/-- The second part is about texts: it asks of the text of this value only that it is read back as
the value. -/
theorem Renderer.rawStructure_round_trip (r : Renderer) (m : Mode) {v : Json} (h : v.Distinct) :
    Tree.ofJson (Tree.ofJson v).toJson = Tree.ofJson v ∧
      (Json.read (r.formatAs .rawStructure (Tree.ofJson v) m) = .ok (Tree.ofJson v).toJson →
        Tree.ofText (r.formatAs .rawStructure (Tree.ofJson v) m) = .ok (Tree.ofJson v)) := by
  have values := Tree.ofJson_toJson_ofJson h
  refine ⟨values, ?_⟩
  intro text
  rw [Tree.ofText, text]
  exact congrArg Except.ok values

/-- Its word is no text and its tail terms are no list, so it is a wrapper. -/
def Json.misfit : Json :=
  .object [("word", .number (.int 5)), ("selbri", .string "klama"), ("tail_terms", .string "do"),
    ("se_table", .null), ("structure", .array [.object [("place", .null), ("sumti", .null)]]),
    ("elided", .bool false)]

theorem Renderer.rawStructure_round_trip_misfit :
    Json.misfit.Distinct ∧
      Tree.ofJson (Tree.ofJson Json.misfit).toJson = Tree.ofJson Json.misfit ∧
      Tree.ofText (Renderer.blank.formatAs .rawStructure (Tree.ofJson Json.misfit) .blank) =
        .ok (Tree.ofJson Json.misfit) := by
  have distinct : Json.misfit.Distinct := by
    simp [Json.misfit]
  have text : Json.read (Renderer.blank.formatAs .rawStructure (Tree.ofJson Json.misfit) .blank) =
      .ok (Tree.ofJson Json.misfit).toJson := by
    apply Json.Reader.run_eq_ok
    decide +kernel
  have trip := Renderer.blank.rawStructure_round_trip .blank distinct
  exact ⟨distinct, trip.1, trip.2 text⟩

theorem Renderer.raw_round_trip (r : Renderer) (m : Mode) {v : Json} (h : v.Distinct) :
    Tree.ofJson (Tree.ofJson v).strip.toJson = (Tree.ofJson v).strip ∧
      (Json.read (r.formatAs .raw (Tree.ofJson v) m) = .ok (Tree.ofJson v).strip.toJson →
        Tree.ofText (r.formatAs .raw (Tree.ofJson v) m) = .ok (Tree.ofJson v).strip) := by
  have values := Tree.ofJson_toJson_strip_ofJson h
  refine ⟨values, ?_⟩
  intro text
  rw [Tree.ofText, text]
  exact congrArg Except.ok values

def Json.tangle : Json :=
  .object [("word", .number (.int 5)), ("note", .object [("structure", .null), ("role", .null)]),
    ("structure", .string "mi"),
    ("tertau", .array [.object [("structure", .bool true), ("right", .null)],
      .object [("se_table", .string "se"), ("structure", .object [("word", .string "do")])]])]

theorem Renderer.raw_round_trip_tangle :
    Json.tangle.Distinct ∧
      Tree.ofJson (Tree.ofJson Json.tangle).strip.toJson = (Tree.ofJson Json.tangle).strip ∧
      Tree.ofText (Renderer.blank.formatAs .raw (Tree.ofJson Json.tangle) .blank) =
        .ok (Tree.ofJson Json.tangle).strip := by
  have distinct : Json.tangle.Distinct := by
    simp [Json.tangle]
  have text : Json.read (Renderer.blank.formatAs .raw (Tree.ofJson Json.tangle) .blank) =
      .ok (Tree.ofJson Json.tangle).strip.toJson := by
    apply Json.Reader.run_eq_ok
    decide +kernel
  have trip := Renderer.blank.raw_round_trip .blank distinct
  exact ⟨distinct, trip.1, trip.2 text⟩

end Lojban
