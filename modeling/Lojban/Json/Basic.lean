import Lojban.Table

namespace Lojban

/-- Whole numbers stay whole in the range of 64-bit words, and all others are binary floats. -/
inductive Number where
  | int (n : Int)
  | float (x : Float)
  deriving DecidableEq

/-- Place numbers are below it: they fit a 32-bit word. -/
def placeLimit : Nat := 4294967296

namespace Number

def place? : Number → Option Nat
  | int n => if 0 ≤ n ∧ n < placeLimit then some n.toNat else none
  | float _ => none

def isZero : Number → Bool
  | int n => n == 0
  | float x => x == 0.0

end Number

inductive Json where
  | null
  | bool (b : Bool)
  | number (n : Number)
  | string (s : String)
  | array (items : List Json)
  | object (entries : List (String × Json))

namespace Json

instance : Inhabited Json := ⟨null⟩

abbrev Fields := Entries String Json

mutual

def beq : Json → Json → Bool
  | null, null => true
  | bool b, bool b' => b == b'
  | number n, number n' => n == n'
  | string s, string s' => s == s'
  | array vs, array vs' => beqItems vs vs'
  | object es, object es' => beqEntries es es'
  | _, _ => false

def beqItems : List Json → List Json → Bool
  | [], [] => true
  | v :: vs, v' :: vs' => beq v v' && beqItems vs vs'
  | _, _ => false

def beqEntries : List (String × Json) → List (String × Json) → Bool
  | [], [] => true
  | (k, v) :: es, (k', v') :: es' => k == k' && beq v v' && beqEntries es es'
  | _, _ => false

end

mutual

theorem beq_iff : ∀ v v' : Json, beq v v' = true ↔ v = v'
  | null, v' => by cases v' <;> simp [beq]
  | bool b, v' => by cases v' <;> simp [beq]
  | number n, v' => by cases v' <;> simp [beq]
  | string s, v' => by cases v' <;> simp [beq]
  | array vs, v' => by
    cases v' with
    | array vs' => simp [beq, beqItems_iff vs vs']
    | _ => simp [beq]
  | object es, v' => by
    cases v' with
    | object es' => simp [beq, beqEntries_iff es es']
    | _ => simp [beq]

theorem beqItems_iff : ∀ vs vs' : List Json, beqItems vs vs' = true ↔ vs = vs'
  | [], vs' => by cases vs' <;> simp [beqItems]
  | v :: vs, vs' => by
    cases vs' with
    | nil => simp [beqItems]
    | cons v' vs' => simp [beqItems, beq_iff v v', beqItems_iff vs vs']

theorem beqEntries_iff : ∀ es es' : List (String × Json), beqEntries es es' = true ↔ es = es'
  | [], es' => by cases es' <;> simp [beqEntries]
  | (k, v) :: es, es' => by
    cases es' with
    | nil => simp [beqEntries]
    | cons e es' =>
      obtain ⟨k', v'⟩ := e
      simp [beqEntries, beq_iff v v', beqEntries_iff es es']

end

instance : DecidableEq Json := fun v v' => decidable_of_iff _ (beq_iff v v')

mutual

/-- One entry a key, the last one, in the order of the keys, at every depth. -/
def canonical : Json → Json
  | array vs => array (canonicalItems vs)
  | object es => object (Entries.sort (canonicalEntries es))
  | v => v

def canonicalItems : List Json → List Json
  | [] => []
  | v :: vs => v.canonical :: canonicalItems vs

def canonicalEntries : List (String × Json) → List (String × Json)
  | [] => []
  | (k, v) :: es => (k, v.canonical) :: canonicalEntries es

end

mutual

def erase (key : String) : Json → Json
  | array vs => array (eraseItems key vs)
  | object es => object (eraseEntries key es)
  | v => v

def eraseItems (key : String) : List Json → List Json
  | [] => []
  | v :: vs => v.erase key :: eraseItems key vs

def eraseEntries (key : String) : List (String × Json) → List (String × Json)
  | [] => []
  | (k, v) :: es => if k = key then eraseEntries key es else (k, v.erase key) :: eraseEntries key es

end

/-- Null, false, zero and the empty string. Arrays and objects are never void. -/
def isVoid : Json → Bool
  | null => true
  | bool b => !b
  | number n => n.isZero
  | string s => s.isEmpty
  | array _ => false
  | object _ => false

end Json

end Lojban
