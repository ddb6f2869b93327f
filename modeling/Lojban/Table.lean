/-!
Finite tables, one entry a key, in the order of the keys. The order is part of the type, so two
tables with the same entries are equal, whatever history built them.
-/

namespace Lojban

/-- Entries in writing order; a key may stand there more than once. -/
abbrev Entries (κ α : Type) := List (κ × α)

namespace Entries

variable {κ α : Type} [Ord κ]

def put (k : κ) (a : α) : Entries κ α → Entries κ α
  | [] => [(k, a)]
  | (j, b) :: es =>
    match compare k j with
    | .lt => (k, a) :: (j, b) :: es
    | .eq => (k, a) :: es
    | .gt => (j, b) :: put k a es

/-- Entries in the order of their keys; the last of a repeated key stays. -/
def sort (es : Entries κ α) : Entries κ α :=
  es.foldl (fun acc e => acc.put e.1 e.2) []

def get? (k : κ) : Entries κ α → Option α
  | [] => none
  | (j, b) :: es => if compare k j == .eq then some b else get? k es

def Ordered (es : Entries κ α) : Prop :=
  es.Pairwise fun a b => compare a.1 b.1 = .lt

theorem mem_put {k : κ} {a : α} {es : Entries κ α} {e : κ × α} (h : e ∈ es.put k a) :
    e = (k, a) ∨ e ∈ es := by
  induction es with
  | nil => simpa [put] using h
  | cons f es ih =>
    simp only [put] at h
    split at h
    · simpa using h
    · rcases List.mem_cons.mp h with h | h
      · exact .inl h
      · exact .inr (List.mem_cons_of_mem f h)
    · rcases List.mem_cons.mp h with h | h
      · exact .inr (h ▸ List.mem_cons_self)
      · exact (ih h).imp_right (List.mem_cons_of_mem f)

theorem ordered_put [Std.TransOrd κ] [Std.LawfulEqOrd κ] {k : κ} {a : α} {es : Entries κ α}
    (h : Ordered es) : Ordered (es.put k a) := by
  induction es with
  | nil => simp [put, Ordered]
  | cons f es ih =>
    have ⟨first, rest⟩ := List.pairwise_cons.mp h
    simp only [put]
    split
    · rename_i below
      refine List.pairwise_cons.mpr ⟨fun e he => ?_, h⟩
      rcases List.mem_cons.mp he with rfl | he
      · exact below
      · exact Std.TransCmp.lt_trans below (first e he)
    · rename_i same
      have same : k = f.1 := Std.LawfulEqCmp.eq_of_compare same
      exact List.pairwise_cons.mpr ⟨fun e he => same ▸ first e he, rest⟩
    · rename_i above
      refine List.pairwise_cons.mpr ⟨fun e he => ?_, ih rest⟩
      rcases mem_put he with rfl | he
      · exact Std.OrientedCmp.lt_of_gt above
      · exact first e he

theorem ordered_sort [Std.TransOrd κ] [Std.LawfulEqOrd κ] (es : Entries κ α) :
    Ordered es.sort := by
  have step : ∀ acc : Entries κ α, Ordered acc →
      Ordered (es.foldl (fun acc e => acc.put e.1 e.2) acc) := by
    induction es with
    | nil => exact fun _ h => h
    | cons e es ih => exact fun acc h => ih _ (ordered_put h)
  exact step [] List.Pairwise.nil

end Entries

structure Table (κ α : Type) [Ord κ] where
  entries : Entries κ α
  ordered : entries.Ordered
  deriving DecidableEq

namespace Table

variable {κ α : Type} [Ord κ]

def empty : Table κ α := ⟨[], List.Pairwise.nil⟩

instance : EmptyCollection (Table κ α) := ⟨empty⟩
instance : Inhabited (Table κ α) := ⟨empty⟩

def get? (t : Table κ α) (k : κ) : Option α := t.entries.get? k

def size (t : Table κ α) : Nat := t.entries.length

def isEmpty (t : Table κ α) : Bool := t.entries.isEmpty

/-- A way through the entries of each table. Any order will do. -/
structure Walk (κ α : Type) [Ord κ] where
  entries : Table κ α → Entries κ α
  perm : ∀ t, (entries t).Perm t.entries

def Walk.inOrder : Walk κ α := ⟨Table.entries, fun t => .refl t.entries⟩

variable [Std.TransOrd κ] [Std.LawfulEqOrd κ]

def insert (t : Table κ α) (k : κ) (a : α) : Table κ α :=
  ⟨t.entries.put k a, Entries.ordered_put t.ordered⟩

def ofList (es : Entries κ α) : Table κ α := ⟨es.sort, es.ordered_sort⟩

end Table

end Lojban
