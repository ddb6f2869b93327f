import Lojban.Proofs.CommandLine.Reading

namespace Lojban.CommandLine

namespace Setting

inductive Field where
  | format
  | classes
  | elided
  | tables
  | places
  | dictionary
  deriving DecidableEq

def Field.Value : Field → Type
  | format | places | dictionary => String
  | classes | elided | tables => Bool

def field : Setting → Field
  | .classes => .classes
  | .elided _ => .elided
  | .tables => .tables
  | .format _ => .format
  | .places _ => .places
  | .dictionary _ => .dictionary

def value? : (f : Field) → Setting → Option f.Value
  | .format, .format name => some name
  | .classes, .classes => some true
  | .elided, .elided shown => some shown
  | .tables, .tables => some true
  | .places, .places file => some file
  | .dictionary, .dictionary file => some file
  | _, _ => none

def Field.default? : (f : Field) → Option f.Value
  | format => some "brackets"
  | classes => some false
  | elided => some true
  | tables => some false
  | places => none
  | dictionary => none

end Setting

def Item.file? : Item → Option String
  | file name => some name
  | _ => none

def Item.value? (f : Setting.Field) : Item → Option f.Value
  | set s => s.value? f
  | _ => none

def files (is : List Item) : List String := is.filterMap Item.file?

def lastValue? (f : Setting.Field) (is : List Item) : Option f.Value :=
  (is.filterMap (Item.value? f)).getLast?

/-- Nothing to stop at while these items are scanned, with a file already held or not. -/
structure Uneventful (held : Option String) (is : List Item) : Prop where
  not_help : Item.help ∉ is
  not_bare : ∀ option, Item.bare option ∉ is
  files_le : (held.toList ++ files is).length ≤ 1

theorem files_cons (i : Item) (is : List Item) : files (i :: is) = i.file?.toList ++ files is := by
  cases i <;> rfl

theorem lastValue?_cons (f : Setting.Field) (i : Item) (is : List Item) :
    lastValue? f (i :: is) = (lastValue? f is).or (i.value? f) := by
  unfold lastValue?
  rw [List.filterMap_cons]
  cases i.value? f with
  | none => simp
  | some v => rw [List.getLast?_cons]; cases List.getLast? _ <;> rfl

theorem Uneventful.nil (held : Option String) : Uneventful held [] := by
  cases held <;> constructor <;> simp [files]

namespace Draft

def blank : Draft := ⟨none, .blank, none, none⟩

def step (d : Draft) : Item → Draft
  | .set s => d.set s
  | .file name => { d with file := some name }
  | .help | .bare _ => d

def Takes (d : Draft) : Item → Prop
  | .set _ => True
  | .file _ => d.file = none
  | .help | .bare _ => False

def after (d : Draft) (is : List Item) : Draft := is.foldl step d

def value? (d : Draft) : (f : Setting.Field) → Option f.Value
  | .format => some d.mode.format
  | .classes => some d.mode.classes
  | .elided => some d.mode.elided
  | .tables => some d.mode.tables
  | .places => d.places
  | .dictionary => d.dictionary

theorem value?_blank (f : Setting.Field) : blank.value? f = f.default? := by
  cases f <;> rfl

theorem value?_step (d : Draft) (i : Item) (f : Setting.Field) :
    (d.step i).value? f = (i.value? f).or (d.value? f) := by
  cases i with
  | set s => cases s <;> cases f <;> rfl
  | file name => cases f <;> rfl
  | help | bare => rfl

theorem startRule_step (d : Draft) (i : Item) : (d.step i).mode.startRule = d.mode.startRule := by
  cases i with
  | set s => cases s <;> rfl
  | _ => rfl

theorem file_set (d : Draft) (s : Setting) : (d.set s).file = d.file := by
  cases s <;> rfl

theorem file_step {d : Draft} {i : Item} (takes : d.Takes i) :
    (d.step i).file.toList = d.file.toList ++ i.file?.toList := by
  cases i with
  | set s => simp [step, file_set, Item.file?]
  | file name =>
    have free : d.file = none := takes
    rw [free]
    rfl
  | help | bare => exact takes.elim

theorem set_comm {s s' : Setting} (different : s.field ≠ s'.field) (d : Draft) :
    (d.set s).set s' = (d.set s').set s := by
  cases s <;> cases s' <;> first | rfl | exact absurd rfl different

theorem value?_after (d : Draft) (is : List Item) (f : Setting.Field) :
    (d.after is).value? f = (lastValue? f is).or (d.value? f) := by
  induction is generalizing d with
  | nil => rfl
  | cons i is ih =>
    calc (d.after (i :: is)).value? f
        = (lastValue? f is).or ((d.step i).value? f) := ih (d.step i)
      _ = (lastValue? f (i :: is)).or (d.value? f) := by
        rw [value?_step, lastValue?_cons, Option.or_assoc]

theorem startRule_after (d : Draft) (is : List Item) :
    (d.after is).mode.startRule = d.mode.startRule := by
  induction is generalizing d with
  | nil => rfl
  | cons i is ih => exact (ih (d.step i)).trans (startRule_step d i)

end Draft

theorem uneventful_cons {d : Draft} {i : Item} {is : List Item} :
    Uneventful d.file (i :: is) ↔ d.Takes i ∧ Uneventful (d.step i).file is := by
  constructor
  · rintro ⟨not_help, not_bare, files_le⟩
    have takes : d.Takes i := by
      cases i with
      | help => exact absurd List.mem_cons_self not_help
      | bare option => exact absurd List.mem_cons_self (not_bare option)
      | set s => trivial
      | file name =>
        cases held : d.file with
        | none => exact held
        | some other =>
          -- With the file that is held this would be the second.
          rw [held, files_cons] at files_le
          simp [Item.file?] at files_le
    refine ⟨takes, fun h => not_help (List.mem_cons_of_mem i h), not_bare_of_cons not_bare, ?_⟩
    rwa [Draft.file_step takes, List.append_assoc, ← files_cons]
  · rintro ⟨takes, not_help, not_bare, files_le⟩
    rw [Draft.file_step takes, List.append_assoc, ← files_cons] at files_le
    refine ⟨?_, ?_, files_le⟩
    · intro h
      cases h with
      | head => exact takes
      | tail _ h => exact not_help h
    · intro option h
      cases h with
      | head => exact takes
      | tail _ h => exact not_bare option h

theorem Draft.file_after {d : Draft} {is : List Item} (quiet : Uneventful d.file is) :
    (d.after is).file.toList = d.file.toList ++ files is := by
  induction is generalizing d with
  | nil => exact (List.append_nil _).symm
  | cons i is ih =>
    obtain ⟨takes, later⟩ := uneventful_cons.mp quiet
    calc (d.after (i :: is)).file.toList
        = (d.step i).file.toList ++ files is := ih later
      _ = d.file.toList ++ files (i :: is) := by
        rw [file_step takes, files_cons, List.append_assoc]

def Settings.draft (s : Settings) : Draft := ⟨some s.file, s.mode, s.places, s.dictionary⟩

theorem Draft.eq_draft {d : Draft} {name : String} (held : d.file = some name) :
    d = Settings.draft ⟨name, d.mode, d.places, d.dictionary⟩ := by
  rw [Settings.draft, ← held]

def Settings.value? (s : Settings) (f : Setting.Field) : Option f.Value := s.draft.value? f

def answer (d : Draft) : List Item → Request
  | [] => d.request
  | .help :: _ => .help
  | .set s :: is => answer (d.set s) is
  | .bare option :: _ => .refused (.needsValue option)
  | .file name :: is =>
    if d.file.isNone then answer { d with file := some name } is else .refused .secondFile

theorem scan_eq_answer (d : Draft) (args : List String) : scan d args = answer d (items args) := by
  induction args using items.induct generalizing d with
  | case1 => rfl
  | case2 a rest h ih => rw [items.eq_2 a rest h, scan.eq_2 d a rest h, answer]
  | case3 a s rest h ih => rw [items.eq_3 a rest s h, scan.eq_3 d a rest s h, answer, ih]
  | case4 a setting h => rw [items.eq_4 a setting h, scan.eq_4 d a setting h, answer]
  | case5 a setting b rest h ih =>
    rw [items.eq_5 a setting b rest h, scan.eq_5 d a setting b rest h, answer, ih]
  | case6 a rest h ih => rw [items.eq_6 a rest h, scan.eq_6 d a rest h, answer, ih]

theorem answer_cons {d : Draft} {i : Item} (takes : d.Takes i) (is : List Item) :
    answer d (i :: is) = answer (d.step i) is := by
  cases i with
  | set s => rfl
  | file name =>
    have free : d.file = none := takes
    rw [answer, free, Option.isNone_none, if_pos rfl]
    rfl
  | help | bare => exact takes.elim

theorem answer_append {d : Draft} {front : List Item} (quiet : Uneventful d.file front)
    (back : List Item) : answer d (front ++ back) = answer (d.after front) back := by
  induction front generalizing d with
  | nil => rfl
  | cons i front ih =>
    obtain ⟨takes, later⟩ := uneventful_cons.mp quiet
    rw [List.cons_append, answer_cons takes]
    exact ih later

/-- How a scan ends: at the leftmost event, or behind all the items. -/
inductive Outcome (d : Draft) (is : List Item) : Request → Prop where
  | render {s} (quiet : Uneventful d.file is) (final : d.after is = s.draft) : Outcome d is (.render s)
  | noFile (quiet : Uneventful d.file is) (final : (d.after is).file = none) :
      Outcome d is (.refused .noFile)
  | help {front back} (event : is = front ++ .help :: back) (quiet : Uneventful d.file front) :
      Outcome d is .help
  | needsValue {front option back} (event : is = front ++ .bare option :: back)
      (quiet : Uneventful d.file front) : Outcome d is (.refused (.needsValue option))
  | secondFile {front name back} (event : is = front ++ .file name :: back)
      (quiet : Uneventful d.file front) (held : (d.after front).file ≠ none) :
      Outcome d is (.refused .secondFile)

theorem Outcome.cons {d : Draft} {i : Item} {is : List Item} {r : Request} (takes : d.Takes i)
    (later : Outcome (d.step i) is r) : Outcome d (i :: is) r := by
  cases later with
  | render quiet final => exact .render (uneventful_cons.mpr ⟨takes, quiet⟩) final
  | noFile quiet final => exact .noFile (uneventful_cons.mpr ⟨takes, quiet⟩) final
  | help event quiet =>
    exact .help (congrArg (i :: ·) event) (uneventful_cons.mpr ⟨takes, quiet⟩)
  | needsValue event quiet =>
    exact .needsValue (congrArg (i :: ·) event) (uneventful_cons.mpr ⟨takes, quiet⟩)
  | secondFile event quiet held =>
    exact .secondFile (congrArg (i :: ·) event) (uneventful_cons.mpr ⟨takes, quiet⟩) held

theorem outcome_answer (d : Draft) (is : List Item) : Outcome d is (answer d is) := by
  induction is generalizing d with
  | nil =>
    rw [answer, Draft.request]
    cases held : d.file with
    | none => exact .noFile (Uneventful.nil _) held
    | some file => exact .render (Uneventful.nil _) (Draft.eq_draft held)
  | cons i is ih =>
    -- Either the rest is scanned from the draft that the item leaves, or the item is the event.
    by_cases takes : d.Takes i
    · rw [answer_cons takes]
      exact (ih (d.step i)).cons takes
    · cases i with
      | set s => exact absurd trivial takes
      | help => exact .help (List.nil_append _).symm (Uneventful.nil _)
      | bare option => exact .needsValue (List.nil_append _).symm (Uneventful.nil _)
      | file name =>
        have held : d.file ≠ none := takes
        rw [answer, if_neg (by simpa using held)]
        exact .secondFile (List.nil_append _).symm (Uneventful.nil _) held

theorem answer_eq_iff {d : Draft} {is : List Item} {r : Request} :
    answer d is = r ↔ Outcome d is r := by
  constructor
  · intro h
    rw [← h]
    exact outcome_answer d is
  · intro outcome
    cases outcome with
    | render quiet final =>
      rw [← List.append_nil is, answer_append quiet, final]
      rfl
    | noFile quiet final =>
      rw [← List.append_nil is, answer_append quiet, answer, Draft.request, final]
    | help event quiet => rw [event, answer_append quiet, answer]
    | needsValue event quiet => rw [event, answer_append quiet, answer]
    | secondFile event quiet held =>
      rw [event, answer_append quiet, answer, if_neg (by simpa using held)]

theorem Draft.file_blank_after {is : List Item} (quiet : Uneventful none is) :
    (blank.after is).file.toList = files is :=
  file_after (d := blank) quiet

theorem request_eq_iff {args : List String} {r : Request} :
    request args = r ↔ Outcome .blank (items args) r := by
  rw [request, scan_eq_answer]
  exact answer_eq_iff

theorem request_eq_render {args : List String} {s : Settings} (h : request args = .render s) :
    Uneventful none (items args) ∧ Draft.blank.after (items args) = s.draft := by
  cases request_eq_iff.mp h with
  | render quiet final => exact ⟨quiet, final⟩

theorem files_of_request_eq_render {args : List String} {s : Settings}
    (h : request args = .render s) : files (items args) = [s.file] := by
  obtain ⟨quiet, final⟩ := request_eq_render h
  rw [← Draft.file_blank_after quiet, final]
  rfl

theorem value?_of_request_eq_render {args : List String} {s : Settings}
    (h : request args = .render s) (f : Setting.Field) :
    s.value? f = (lastValue? f (items args)).or f.default? := by
  rw [Settings.value?, ← (request_eq_render h).2, Draft.value?_after, Draft.value?_blank]

theorem startRule_of_request_eq_render {args : List String} {s : Settings}
    (h : request args = .render s) : s.mode.startRule = "text" := by
  have final := (request_eq_render h).2
  calc s.mode.startRule
      = (Draft.blank.after (items args)).mode.startRule := by rw [final]; rfl
    _ = "text" := Draft.startRule_after .blank (items args)

theorem exists_request_eq_render_iff {args : List String} :
    (∃ s, request args = .render s) ↔
      Item.help ∉ items args ∧ (∀ option, Item.bare option ∉ items args) ∧
        ∃ name, files (items args) = [name] := by
  constructor
  · rintro ⟨s, h⟩
    obtain ⟨quiet, -⟩ := request_eq_render h
    exact ⟨quiet.not_help, quiet.not_bare, s.file, files_of_request_eq_render h⟩
  · rintro ⟨not_help, not_bare, name, h⟩
    have quiet : Uneventful none (items args) := ⟨not_help, not_bare, by simp [h]⟩
    have held : (Draft.blank.after (items args)).file = some name := by
      have := Draft.file_blank_after quiet
      rw [h] at this
      exact Option.toList_eq_singleton_iff.mp this
    exact ⟨_, request_eq_iff.mpr (.render quiet (Draft.eq_draft held))⟩

theorem request_eq_secondFile_iff {args : List String} :
    request args = .refused .secondFile ↔
      ∃ front name back, items args = front ++ .file name :: back ∧ Uneventful none front ∧
        files front ≠ [] := by
  constructor
  · intro h
    cases request_eq_iff.mp h with
    | @secondFile front name back event quiet held =>
      refine ⟨front, name, back, event, quiet, ?_⟩
      rw [← Draft.file_blank_after quiet]
      simpa using held
  · rintro ⟨front, name, back, event, quiet, held⟩
    refine request_eq_iff.mpr (.secondFile event quiet ?_)
    rw [← Draft.file_blank_after quiet] at held
    simpa using held

theorem request_eq_help_iff {args : List String} :
    request args = .help ↔
      ∃ front back, items args = front ++ .help :: back ∧ Uneventful none front := by
  constructor
  · intro h
    cases request_eq_iff.mp h with
    | @help front back event quiet => exact ⟨front, back, event, quiet⟩
  · rintro ⟨front, back, event, quiet⟩
    exact request_eq_iff.mpr (.help event quiet)

theorem request_eq_needsValue_iff {args : List String} {option : String} :
    request args = .refused (.needsValue option) ↔
      ∃ front back, items args = front ++ .bare option :: back ∧ Uneventful none front := by
  constructor
  · intro h
    cases request_eq_iff.mp h with
    | @needsValue front _ back event quiet => exact ⟨front, back, event, quiet⟩
  · rintro ⟨front, back, event, quiet⟩
    exact request_eq_iff.mpr (.needsValue event quiet)

theorem request_eq_noFile_iff {args : List String} :
    request args = .refused .noFile ↔ Uneventful none (items args) ∧ files (items args) = [] := by
  constructor
  · intro h
    cases request_eq_iff.mp h with
    | noFile quiet final =>
      refine ⟨quiet, ?_⟩
      rw [← Draft.file_blank_after quiet, final]
      rfl
  · rintro ⟨quiet, none_held⟩
    refine request_eq_iff.mpr (.noFile quiet ?_)
    rw [← Draft.file_blank_after quiet] at none_held
    simpa using none_held

theorem answer_congr_append {x y : List Item} (same : ∀ d, answer d x = answer d y)
    (front : List Item) (d : Draft) : answer d (front ++ x) = answer d (front ++ y) := by
  induction front generalizing d with
  | nil => exact same d
  | cons i front ih => cases i <;> simp only [List.cons_append, answer, ih]

theorem answer_set_set {s s' : Setting} (different : s.field ≠ s'.field) (is : List Item)
    (d : Draft) : answer d (.set s :: .set s' :: is) = answer d (.set s' :: .set s :: is) := by
  simp only [answer, Draft.set_comm different]

theorem answer_file_set (name : String) (s : Setting) (is : List Item) (d : Draft) :
    answer d (.file name :: .set s :: is) = answer d (.set s :: .file name :: is) := by
  have moved : Draft.set { d with file := some name } s = { d.set s with file := some name } := by
    cases s <;> rfl
  simp only [answer, Draft.file_set, moved]

theorem answer_file_sets (name : String) (mid : List Setting) (is : List Item) (d : Draft) :
    answer d (.file name :: (mid.map .set ++ is)) = answer d (mid.map .set ++ .file name :: is) := by
  induction mid generalizing d with
  | nil => rfl
  | cons s mid ih =>
    rw [List.map_cons, List.cons_append, answer_file_set]
    exact ih (d.set s)

theorem request_swap {front : List String} (whole : ∀ option, Item.bare option ∉ items front)
    {s s' : Setting} (different : s.field ≠ s'.field) (back : List String) :
    request (front ++ (s.spelling ++ (s'.spelling ++ back))) =
      request (front ++ (s'.spelling ++ (s.spelling ++ back))) := by
  simp only [request, scan_eq_answer, items_append whole, items_spelling]
  exact answer_congr_append (answer_set_set different _) _ _

theorem request_move_file {front : List String} (whole : ∀ option, Item.bare option ∉ items front)
    {name : String} (h : name ∉ helpOptions ++ flags ++ valueOptions) (mid : List Setting)
    (back : List String) :
    request (front ++ (name :: (mid.flatMap Setting.spelling ++ back))) =
      request (front ++ (mid.flatMap Setting.spelling ++ name :: back)) := by
  simp only [request, scan_eq_answer, items_append whole, items_spellings, items_file h]
  exact answer_congr_append (answer_file_sets name mid _) _ _

/-- The leftmost event decides, and without one each field has its last value. Settings for different
fields commute, and the file commutes with all of them. -/
theorem request_leftmost_event_last_setting (args : List String) :
    (∀ is, Reads args is ↔ items args = is) ∧
    ((∃ s, request args = .render s) ↔
      Item.help ∉ items args ∧ (∀ option, Item.bare option ∉ items args) ∧
        ∃ name, files (items args) = [name]) ∧
    (∀ s, request args = .render s →
      files (items args) = [s.file] ∧ s.mode.startRule = "text" ∧
        ∀ f, s.value? f = (lastValue? f (items args)).or f.default?) ∧
    (request args = .help ↔
      ∃ front back, items args = front ++ .help :: back ∧ Uneventful none front) ∧
    (∀ option, request args = .refused (.needsValue option) ↔
      ∃ front back, items args = front ++ .bare option :: back ∧ Uneventful none front) ∧
    (request args = .refused .secondFile ↔
      ∃ front name back, items args = front ++ .file name :: back ∧ Uneventful none front ∧
        files front ≠ []) ∧
    (request args = .refused .noFile ↔ Uneventful none (items args) ∧ files (items args) = []) ∧
    (∀ front (s s' : Setting) back, (∀ option, Item.bare option ∉ items front) → s.field ≠ s'.field →
      request (front ++ (s.spelling ++ (s'.spelling ++ back))) =
        request (front ++ (s'.spelling ++ (s.spelling ++ back)))) ∧
    (∀ front name (mid : List Setting) back, (∀ option, Item.bare option ∉ items front) →
      name ∉ helpOptions ++ flags ++ valueOptions →
      request (front ++ (name :: (mid.flatMap Setting.spelling ++ back))) =
        request (front ++ (mid.flatMap Setting.spelling ++ name :: back))) := by
  refine ⟨fun is => reads_iff, exists_request_eq_render_iff, ?_, request_eq_help_iff,
    fun option => request_eq_needsValue_iff, request_eq_secondFile_iff, request_eq_noFile_iff, ?_, ?_⟩
  · intro s h
    exact ⟨files_of_request_eq_render h, startRule_of_request_eq_render h,
      value?_of_request_eq_render h⟩
  · intro front s s' back whole different
    exact request_swap whole different back
  · intro front name mid back whole h
    exact request_move_file whole h mid back

theorem request_leftmost_event_last_setting_vectors :
    (∃ s, request ["--format", "--help", "a", "--format", "gloss"] = .render s ∧
      s.value? .format = some "gloss") ∧
    request ["a", "--help", "b"] = .help ∧
    request ["a", "b", "--help"] = .refused .secondFile ∧
    request ["--places", "-h", "-s", "--dictionary", "d", "a"] =
      request ["--places", "-h", "--dictionary", "d", "-s", "a"] ∧
    request ["--places", "-h", "a", "-f", "--format", "g", "b"] =
      request ["--places", "-h", "-f", "--format", "g", "a", "b"] := by
  have whole : ∀ option, Item.bare option ∉ items ["--places", "-h"] := by
    simp [items, Argument.ofText]
  refine ⟨?_, ?_, ?_, ?_, ?_⟩
  · have run := request_leftmost_event_last_setting ["--format", "--help", "a", "--format", "gloss"]
    have read : items ["--format", "--help", "a", "--format", "gloss"] =
        [.set (.format "--help"), .file "a", .set (.format "gloss")] := by
      simp [items, Argument.ofText]
    rw [read] at run
    obtain ⟨s, h⟩ := run.2.1.mpr ⟨by decide, by simp, "a", rfl⟩
    exact ⟨s, h, (run.2.2.1 s h).2.2 .format⟩
  · refine (request_leftmost_event_last_setting ["a", "--help", "b"]).2.2.2.1.mpr
      ⟨[.file "a"], [.file "b"], ?_, ?_⟩
    · simp [items, Argument.ofText]
    · constructor <;> simp [files, Item.file?]
  · refine (request_leftmost_event_last_setting ["a", "b", "--help"]).2.2.2.2.2.1.mpr
      ⟨[.file "a"], "b", [.help], ?_, ?_, ?_⟩
    · simp [items, Argument.ofText]
    · constructor <;> simp [files, Item.file?]
    · simp [files, Item.file?]
  · exact (request_leftmost_event_last_setting []).2.2.2.2.2.2.2.1 ["--places", "-h"] .classes
      (.dictionary "d") ["a"] whole (by decide)
  · exact (request_leftmost_event_last_setting []).2.2.2.2.2.2.2.2 ["--places", "-h"] "a"
      [.elided true, .format "g"] ["b"] whole (by decide)

end Lojban.CommandLine
