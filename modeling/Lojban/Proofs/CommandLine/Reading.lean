import Lojban.CommandLine

namespace Lojban.CommandLine

def Setting.spelling : Setting → List String
  | .classes => ["-s"]
  | .elided true => ["-f"]
  | .elided false => ["--no-f"]
  | .tables => ["-p"]
  | .format name => ["--format", name]
  | .places file => ["--places", file]
  | .dictionary file => ["--dictionary", file]

def helpOptions : List String := ["-h", "--help"]

def flags : List String := ["-s", "-f", "--no-f", "-p"]

def valueOptions : List String := ["--format", "--places", "--dictionary"]

inductive Item where
  | help
  | set (s : Setting)
  | bare (option : String)
  | file (name : String)
  deriving DecidableEq

def items : List String → List Item
  | [] => []
  | a :: rest =>
    match Argument.ofText a, rest with
    | .help, rest => .help :: items rest
    | .set s, rest => .set s :: items rest
    | .valued _, [] => [.bare a]
    | .valued setting, b :: rest => .set (setting b) :: items rest
    | .positional, rest => .file a :: items rest

/-- Which arguments are options, which are values and which are files, by how each is spelled. -/
inductive Reads : List String → List Item → Prop where
  | done : Reads [] []
  | help {option rest is} : option ∈ helpOptions → Reads rest is → Reads (option :: rest) (.help :: is)
  | set {rest is} (s : Setting) : Reads rest is → Reads (s.spelling ++ rest) (.set s :: is)
  | bare {option} : option ∈ valueOptions → Reads [option] [.bare option]
  | file {name rest is} : name ∉ helpOptions ++ flags ++ valueOptions → Reads rest is →
      Reads (name :: rest) (.file name :: is)

def Argument.Spelled (a : String) : Argument → Prop
  | help => a ∈ helpOptions
  | set s => s.spelling = [a]
  | valued setting => a ∈ valueOptions ∧ ∀ b, (setting b).spelling = [a, b]
  | positional => a ∉ helpOptions ++ flags ++ valueOptions

theorem Argument.spelled_of_ofText {a : String} {as : Argument} (h : ofText a = as) :
    as.Spelled a := by
  subst h
  unfold ofText
  split <;> simp_all [Spelled, Setting.spelling, helpOptions, flags, valueOptions]

theorem Argument.ofText_eq_positional {a : String} (h : a ∉ helpOptions ++ flags ++ valueOptions) :
    ofText a = positional := by
  unfold ofText
  split <;> simp_all [helpOptions, flags, valueOptions]

theorem items_help {option : String} (h : option ∈ helpOptions) (rest : List String) :
    items (option :: rest) = .help :: items rest := by
  simp only [helpOptions, List.mem_cons, List.not_mem_nil, or_false] at h
  rcases h with rfl | rfl <;> simp [items, Argument.ofText]

theorem items_spelling (s : Setting) (rest : List String) :
    items (s.spelling ++ rest) = .set s :: items rest := by
  cases s with
  | elided shown => cases shown <;> simp [Setting.spelling, items, Argument.ofText]
  | _ => simp [Setting.spelling, items, Argument.ofText]

theorem items_bare {option : String} (h : option ∈ valueOptions) :
    items [option] = [.bare option] := by
  simp only [valueOptions, List.mem_cons, List.not_mem_nil, or_false] at h
  rcases h with rfl | rfl | rfl <;> simp [items, Argument.ofText]

theorem items_file {name : String} (h : name ∉ helpOptions ++ flags ++ valueOptions)
    (rest : List String) : items (name :: rest) = .file name :: items rest := by
  simp only [items, Argument.ofText_eq_positional h]

theorem items_spellings (ss : List Setting) (rest : List String) :
    items (ss.flatMap Setting.spelling ++ rest) = ss.map .set ++ items rest := by
  induction ss with
  | nil => rfl
  | cons s ss ih =>
    rw [List.flatMap_cons, List.append_assoc, items_spelling, ih]
    rfl

theorem reads_items (args : List String) : Reads args (items args) := by
  induction args using items.induct with
  | case1 => exact .done
  | case2 a rest h ih =>
    rw [items.eq_2 a rest h]
    exact .help (Argument.spelled_of_ofText h) ih
  | case3 a s rest h ih =>
    have spelled : s.spelling = [a] := Argument.spelled_of_ofText h
    have read := Reads.set s ih
    rw [items.eq_3 a rest s h]
    rwa [spelled] at read
  | case4 a setting h =>
    rw [items.eq_4 a setting h]
    exact .bare (Argument.spelled_of_ofText h).1
  | case5 a setting b rest h ih =>
    have spelled : (setting b).spelling = [a, b] := (Argument.spelled_of_ofText h).2 b
    have read := Reads.set (setting b) ih
    rw [items.eq_5 a setting b rest h]
    rwa [spelled] at read
  | case6 a rest h ih =>
    rw [items.eq_6 a rest h]
    exact .file (Argument.spelled_of_ofText h) ih

theorem reads_iff {args : List String} {is : List Item} : Reads args is ↔ items args = is := by
  constructor
  · intro read
    induction read with
    | done => rfl
    | help spelled _ ih => rw [items_help spelled, ih]
    | set s _ ih => rw [items_spelling, ih]
    | bare spelled => exact items_bare spelled
    | file spelled _ ih => rw [items_file spelled, ih]
  · intro h
    rw [← h]
    exact reads_items args

theorem not_bare_of_cons {i : Item} {is : List Item} (h : ∀ option, Item.bare option ∉ i :: is) :
    ∀ option, Item.bare option ∉ is := by
  intro option later
  exact h option (List.mem_cons_of_mem i later)

/-- What is read does not depend on what stands behind it, unless an option lacks its value. -/
theorem Reads.append {front back : List String} {is js : List Item} (read : Reads front is)
    (whole : ∀ option, Item.bare option ∉ is) (next : Reads back js) :
    Reads (front ++ back) (is ++ js) := by
  induction read with
  | done => exact next
  | help spelled _ ih =>
    exact .help spelled (ih (not_bare_of_cons whole))
  | set s _ ih =>
    rw [List.append_assoc]
    exact .set s (ih (not_bare_of_cons whole))
  | bare => exact absurd List.mem_cons_self (whole _)
  | file spelled _ ih =>
    exact .file spelled (ih (not_bare_of_cons whole))

theorem items_append {front : List String} (whole : ∀ option, Item.bare option ∉ items front)
    (back : List String) : items (front ++ back) = items front ++ items back :=
  reads_iff.mp ((reads_items front).append whole (reads_items back))

end Lojban.CommandLine
