import Mathlib.Algebra.GroupWithZero.Nat
import RobotProgram.Listing
import RobotProgram.Proofs.Json.Nesting
import RobotProgram.Proofs.Program.Invariant

/-!
# One line for each item

A printed program has a line for each event and for each command just if no name of a parameter has
a line break in it: values are escaped, names are not. Then the place of every line is known, and
highlights decide over its first character and nothing else.

## Main definitions

* `Listing.lines`: the lines of a text.
* `Listing.lineOf`: the line of an event.
* `Listing.Unbroken`: no name of a parameter has a line break in it.
* `Listing.OneLineEach`: the lines of a printed program are its items.
-/

namespace RobotProgram

/-! ## Values on one line -/

namespace Json

theorem newline_notMem_of_isNumeric {text : List Char} (h : ∀ c ∈ text, isNumeric c = true) :
    '\n' ∉ text := fun mem => by
  have numeric := h _ mem
  contradiction

theorem newline_notMem_escaped (c : Char) : '\n' ∉ escaped c := by
  have digit : ∀ d < 16, Nat.digitChar d ≠ '\n' := by decide
  unfold escaped
  split_ifs with _ _ _ _ newline
  case pos | pos | pos | pos | pos | pos | pos => simp
  case pos =>
    have high := digit (c.toNat / 16) (by omega)
    have low := digit (c.toNat % 16) (by omega)
    simp [high.symm, low.symm]
  case neg => simpa using Ne.symm newline

theorem newline_notMem_stringText (s : String) : '\n' ∉ stringText s := by
  simp [stringText, newline_notMem_escaped]

mutual

/-- What is written of a value on one line stays on it. -/
theorem newline_notMem_compact : ∀ json : Json, '\n' ∉ compact json
  | .null => by simp [compact]
  | .bool b => by cases b <;> simp [compact, boolText]
  | .integer i => newline_notMem_of_isNumeric isNumeric_of_mem_intText
  | .float x => newline_notMem_of_isNumeric isNumeric_of_mem_floatText
  | .string s => newline_notMem_stringText s
  | .array [] => by simp [compact]
  | .array (x :: xs) => by
    simp [compact, newline_notMem_compact x, newline_notMem_compactItems xs]
  | .object [] => by simp [compact]
  | .object ((key, x) :: rest) => by
    simp [compact, newline_notMem_stringText key, newline_notMem_compact x,
      newline_notMem_compactMembers rest]

theorem newline_notMem_compactItems : ∀ items : List Json, '\n' ∉ compactItems items
  | [] => by simp [compactItems]
  | x :: xs => by simp [compactItems, newline_notMem_compact x, newline_notMem_compactItems xs]

theorem newline_notMem_compactMembers :
    ∀ members : List (String × Json), '\n' ∉ compactMembers members
  | [] => by simp [compactMembers]
  | (key, x) :: rest => by
    simp [compactMembers, newline_notMem_stringText key, newline_notMem_compact x,
      newline_notMem_compactMembers rest]

end

end Json

namespace Listing

/-! ## Lines -/

/-- The lines of a text: what stands before each line break. -/
def lines (text : String) : List String :=
  (text.toList.splitOn '\n').dropLast.map String.ofList

theorem splitOn_joinRows (rows : List String) :
    (joinRows rows).toList.splitOn '\n' =
      rows.flatMap (fun row => row.toList.splitOn '\n') ++ [[]] := by
  simp only [joinRows, String.toList_join, List.flatMap_map, String.toList_append]
  induction rows with
  | nil => simp
  | cons row rows ih =>
    have newline : "\n".toList = ['\n'] := rfl
    rw [List.flatMap_cons, newline, List.append_assoc, List.singleton_append,
      List.splitOn_append_cons_self, ← newline, ih, List.flatMap_cons, List.append_assoc]

theorem lines_joinRows {rows : List String} (whole : ∀ row ∈ rows, '\n' ∉ row.toList) :
    lines (joinRows rows) = rows := by
  have each : rows.flatMap (fun row => row.toList.splitOn '\n') = rows.map String.toList := by
    rw [List.map_eq_flatMap]
    exact List.flatMap_congr fun row mem => List.splitOn_eq_singleton (whole row mem)
  rw [lines, splitOn_joinRows, List.dropLast_concat, each, List.map_map]
  simp

theorem length_splitOn (text : List Char) :
    (text.splitOn '\n').length = text.count '\n' + 1 := by
  induction text with
  | nil => simp
  | cons c text ih =>
    rw [List.splitOn_cons_eq_if_modifyHead, List.count_cons]
    split <;> simp_all

theorem length_lines_joinRows (rows : List String) :
    (lines (joinRows rows)).length =
      rows.length + (rows.map fun row => row.toList.count '\n').sum := by
  rw [lines, splitOn_joinRows, List.dropLast_concat, List.length_map, List.length_flatMap]
  induction rows with
  | nil => rfl
  | cons row rows ih =>
    rw [List.map_cons, List.sum_cons, ih, length_splitOn, List.map_cons, List.sum_cons,
      List.length_cons]
    omega

/-! ## Rows -/

/-- No name in the parameters has a line break in it. -/
def unbroken (parameters : Parameters) : Prop :=
  ∀ bag ∈ parameters, ∀ member ∈ bag.members, '\n' ∉ member.1.toList

theorem newline_notMem_intercalate {texts : List (List Char)} :
    '\n' ∉ [',', ' '].intercalate texts ↔ ∀ text ∈ texts, '\n' ∉ text := by
  induction texts with
  | nil => simp
  | cons text rest ih =>
    cases rest with
    | nil => simp
    | cons next rest =>
      rw [List.intercalate_cons_cons, List.forall_mem_cons, ← ih]
      simp

theorem newline_notMem_parametersText {parameters : Parameters} :
    '\n' ∉ (parametersText parameters).toList ↔ unbroken parameters := by
  cases parameters with
  | none => simp [parametersText, unbroken]
  | some bag =>
    have each (member : String × Json) :
        '\n' ∉ (member.1 ++ "=" ++ String.ofList member.2.compact).toList ↔
          '\n' ∉ member.1.toList := by
      simp [Json.newline_notMem_compact]
    have inner := @newline_notMem_intercalate ((bag.members.map fun member =>
      member.1 ++ "=" ++ String.ofList member.2.compact).map String.toList)
    rw [List.map_map, List.forall_mem_map] at inner
    simp only [Function.comp, each] at inner
    rw [parametersText, unbroken]
    split
    · rename_i blank
      simp [List.isEmpty_iff.mp blank]
    · simpa [String.toList_intercalate] using inner

theorem newline_notMem_toDigits (n : Nat) : '\n' ∉ Nat.toDigits 10 n :=
  Json.newline_notMem_of_isNumeric Json.isNumeric_of_mem_natText

theorem newline_notMem_blanks (n : Nat) : '\n' ∉ (blanks n).toList := by
  simp [blanks]

theorem newline_notMem_eventTitle (kind : EventKind) : '\n' ∉ kind.title.toList := by
  cases kind <;> decide

theorem newline_notMem_commandTitle (kind : CommandKind) : '\n' ∉ kind.title.toList := by
  cases kind <;> decide

/-- With the default settings a margin is one character, which tells whether the row is lit. -/
theorem margin_default (lit : Bool) :
    (margin {} lit).toList = [if lit then '▶' else ' '] := by
  cases lit <;> decide

theorem newline_notMem_margin (lit : Bool) : '\n' ∉ (margin {} lit).toList := by
  cases lit <;> decide

theorem newline_notMem_eventRow {lit selected : Bool} {place : Nat} {event : Event} :
    '\n' ∉ (eventRow {} lit selected place event).toList ↔ unbroken event.parameters := by
  rw [← newline_notMem_parametersText]
  have star : '\n' ∉ (if selected then "*" else " ").toList := by cases selected <;> decide
  simp [eventRow, newline_notMem_margin, newline_notMem_eventTitle, star,
    newline_notMem_toDigits place]

theorem newline_notMem_commandRow {lit : Bool} {place : Nat} {command : Command} :
    '\n' ∉ (commandRow {} lit place command).toList ↔ unbroken command.parameters := by
  rw [← newline_notMem_parametersText]
  simp [commandRow, paddedRow, placeText, newline_notMem_margin, newline_notMem_blanks,
    newline_notMem_commandTitle, newline_notMem_toDigits place]

/-- The marker stands before a row just if the row is lit. -/
theorem marker_prefix_margin {lit : Bool} {rest : List Char} :
    "▶".toList <+: (margin {} lit).toList ++ rest ↔ lit = true := by
  rw [margin_default]
  cases lit <;> simp

theorem marker_prefix_eventRow {lit selected : Bool} {place : Nat} {event : Event} :
    "▶".toList <+: (eventRow {} lit selected place event).toList ↔ lit = true := by
  simp only [eventRow, String.toList_append, List.append_assoc]
  exact marker_prefix_margin

theorem marker_prefix_commandRow {lit : Bool} {place : Nat} {command : Command} :
    "▶".toList <+: (commandRow {} lit place command).toList ↔ lit = true := by
  simp only [commandRow, paddedRow, String.toList_append, List.append_assoc]
  exact marker_prefix_margin

/-- Behind its first character a row is the same whether it is lit or not. -/
theorem tail_eventRow (lit selected : Bool) (place : Nat) (event : Event) :
    (eventRow {} lit selected place event).toList.tail =
      (eventRow {} false selected place event).toList.tail := by
  simp only [eventRow, String.toList_append, List.append_assoc, margin_default]
  rfl

theorem tail_commandRow (lit : Bool) (place : Nat) (command : Command) :
    (commandRow {} lit place command).toList.tail =
      (commandRow {} false place command).toList.tail := by
  simp only [commandRow, paddedRow, String.toList_append, List.append_assoc, margin_default]
  rfl

/-! ## Places -/

theorem getElem?_flatMap {α β : Type} {f : α → List β} {xs : List α} {i k : Nat} {x : α}
    (at_i : xs[i]? = some x) (within : k < (f x).length) :
    (xs.flatMap f)[((xs.take i).map fun y => (f y).length).sum + k]? = (f x)[k]? := by
  induction xs generalizing i with
  | nil => simp at at_i
  | cons y ys ih =>
    cases i with
    | zero =>
      obtain rfl : y = x := by simpa using at_i
      simp [List.getElem?_append_left within]
    | succ i =>
      rw [List.flatMap_cons, List.take_succ_cons, List.map_cons, List.sum_cons,
        List.getElem?_append_right (by omega)]
      convert ih (by simpa using at_i) using 2
      omega

/-- The line of the event at a place: each event before it has a line, and so have its commands. -/
def lineOf (p : Program) (i : Nat) : Nat :=
  ((p.entries.take i).map fun entry => 1 + entry.2.routine.length).sum

/-- No name of a parameter has a line break in it, neither of an event nor of a command. -/
def Unbroken (p : Program) : Prop :=
  ∀ entry ∈ p.entries, unbroken entry.2.parameters ∧
    ∀ command ∈ entry.2.routine.entries, unbroken command.2.parameters

section Places

variable {p : Program} {highlights : Highlights} {display : DisplaySettings}

theorem rows_of_entries (wf : p.WellFormed) (some : p.entries ≠ []) :
    rows p highlights display = p.entries.zipIdx.flatMap fun e =>
      eventRows highlights display p.selected e.2 e.1.1 e.1.2 := by
  have length : p.length = p.entries.length := wf.events.length_entries.symm
  rw [rows_eq, if_neg (by simpa [length] using some)]

theorem rows_of_no_entries (wf : p.WellFormed) (none : p.entries = []) :
    rows p highlights display = ["(empty program)"] := by
  have length : p.length = p.entries.length := wf.events.length_entries.symm
  rw [rows_eq, if_pos (by simp [length, none])]

variable (wf : p.WellFormed)
include wf

theorem length_eventRows {h : Handle Event} {event : Event} (mem : (h, event) ∈ p.entries)
    (place : Nat) :
    (eventRows highlights display p.selected place h event).length = 1 + event.routine.length := by
  have commands : event.routine.entries.length = event.routine.length :=
    (wf.routines _ mem).commands.length_entries
  rw [eventRows_eq, List.length_cons, List.length_map, List.length_zipIdx, commands, Nat.add_comm]

/-- The rows of the events before a place come before the line of its event. -/
theorem sum_length_eventRows (i : Nat) :
    ((p.entries.zipIdx.take i).map fun e =>
      (eventRows highlights display p.selected e.2 e.1.1 e.1.2).length).sum = lineOf p i := by
  have fronts : (p.entries.zipIdx.take i).map Prod.fst = p.entries.take i := by
    rw [List.map_take, List.zipIdx_map_fst]
  rw [lineOf, ← fronts, List.map_map]
  congr 1
  refine List.map_congr_left fun e mem => length_eventRows wf ?_ e.2
  refine List.mem_of_mem_take (i := i) ?_
  rw [← fronts]
  exact List.mem_map_of_mem mem

theorem length_rows (some : p.entries ≠ []) :
    (rows p highlights display).length = lineOf p p.entries.length := by
  have whole := @sum_length_eventRows p highlights display wf p.entries.length
  rw [List.take_of_length_le (by simp)] at whole
  rw [rows_of_entries wf some, List.length_flatMap, whole]

variable {i : Nat} {h : Handle Event} {event : Event} (at_i : p.entries[i]? = some (h, event))
include at_i

theorem getElem?_rows {k : Nat} (within : k < 1 + event.routine.length) :
    (rows p highlights display)[lineOf p i + k]? =
      (eventRows highlights display p.selected i h event)[k]? := by
  have place : p.entries.zipIdx[i]? = some ((h, event), i) := by simp [at_i]
  have mem := List.mem_of_getElem? at_i
  rw [rows_of_entries wf (List.ne_nil_of_mem mem),
    ← @sum_length_eventRows p highlights display wf i]
  have step := getElem?_flatMap (f := fun e : (Handle Event × Event) × Nat =>
    eventRows highlights display p.selected e.2 e.1.1 e.1.2) place
    (by rwa [length_eventRows wf mem])
  dsimp only at step
  exact step

theorem getElem?_rows_event :
    (rows p highlights display)[lineOf p i]? =
      some (eventRow display (highlights.hasEvent h) (some h = p.selected) i event) := by
  rw [← Nat.add_zero (lineOf p i), getElem?_rows wf at_i (by omega), eventRows_eq,
    List.getElem?_cons_zero]

theorem getElem?_rows_command {k : Nat} {c : Handle Command} {command : Command}
    (at_k : event.routine.entries[k]? = some (c, command)) :
    (rows p highlights display)[lineOf p i + 1 + k]? =
      some (commandRow display (highlights.hasCommand h c) k command) := by
  have commands : event.routine.entries.length = event.routine.length :=
    (wf.routines _ (List.mem_of_getElem? at_i)).commands.length_entries
  have within := (List.getElem?_eq_some_iff.mp at_k).1
  rw [Nat.add_assoc, getElem?_rows wf at_i (by omega), Nat.add_comm 1 k, eventRows_eq,
    List.getElem?_cons_succ]
  simp [at_k]

end Places

/-! ## All rows -/

section Rows

variable {p : Program} (wf : p.WellFormed)
include wf

theorem forall_mem_rows_iff (highlights : Highlights) :
    (∀ row ∈ rows p highlights {}, '\n' ∉ row.toList) ↔ Unbroken p := by
  by_cases none : p.entries = []
  · simp [rows_of_no_entries wf none, Unbroken, none]
  have each (place : Nat) (h : Handle Event) (event : Event) :
      (∀ row ∈ eventRows highlights {} p.selected place h event, '\n' ∉ row.toList) ↔
        unbroken event.parameters ∧
          ∀ command ∈ event.routine.entries, unbroken command.2.parameters := by
    rw [eventRows_eq, List.forall_mem_cons, newline_notMem_eventRow, List.forall_mem_map]
    simp only [newline_notMem_commandRow]
    have commands := List.forall_mem_map (f := Prod.fst) (l := event.routine.entries.zipIdx)
      (P := fun command : Handle Command × Command => unbroken command.2.parameters)
    rw [List.zipIdx_map_fst] at commands
    rw [commands]
  have events := List.forall_mem_map (f := Prod.fst) (l := p.entries.zipIdx)
    (P := fun entry : Handle Event × Event => unbroken entry.2.parameters ∧
      ∀ command ∈ entry.2.routine.entries, unbroken command.2.parameters)
  rw [List.zipIdx_map_fst] at events
  rw [rows_of_entries wf none, Unbroken, events]
  simp only [List.forall_mem_flatMap, each]

/-- Only the first character of a row depends on what is lit. -/
theorem map_tail_rows (highlights : Highlights) :
    (rows p highlights {}).map (fun row => row.toList.tail) =
      (rows p .none {}).map fun row => row.toList.tail := by
  by_cases none : p.entries = []
  · rw [rows_of_no_entries wf none, rows_of_no_entries wf none]
  rw [rows_of_entries wf none, rows_of_entries wf none, List.map_flatMap, List.map_flatMap]
  refine List.flatMap_congr fun e _ => ?_
  simp only [eventRows_eq, List.map_cons, List.map_map]
  refine List.cons_eq_cons.mpr ⟨?_, List.map_congr_left fun c _ => ?_⟩
  · rw [tail_eventRow, tail_eventRow (Highlights.none.hasEvent _)]
  · dsimp only [Function.comp]
    rw [tail_commandRow, tail_commandRow (Highlights.none.hasCommand _ _)]

end Rows

/-! ## One line for each item -/

/--
With the default settings, the lines of a printed program are one for each event and one for each
command, in order; the marker stands before those that are lit, and the rest is as if none were.
-/
structure OneLineEach (p : Program) (highlights : Highlights) : Prop where
  /-- Nothing stands behind the last line break. -/
  whole : joinRows (lines (render p highlights {})) = render p highlights {}
  empty : p.entries = [] → lines (render p highlights {}) = ["(empty program)"]
  count : p.entries ≠ [] → (lines (render p highlights {})).length = lineOf p p.entries.length
  event : ∀ (i : Nat) (h : Handle Event) (event : Event), p.entries[i]? = some (h, event) →
    ∃ line, (lines (render p highlights {}))[lineOf p i]? = some line ∧
      line = eventRow {} (highlights.hasEvent h) (some h = p.selected) i event ∧
      ("▶".toList <+: line.toList ↔ highlights.hasEvent h = true)
  command : ∀ (i : Nat) (h : Handle Event) (event : Event) (k : Nat) (c : Handle Command)
    (command : Command), p.entries[i]? = some (h, event) →
    event.routine.entries[k]? = some (c, command) →
      ∃ line, (lines (render p highlights {}))[lineOf p i + 1 + k]? = some line ∧
        line = commandRow {} (highlights.hasCommand h c) k command ∧
        ("▶".toList <+: line.toList ↔ highlights.hasCommand h c = true)
  /-- Behind their first characters the lines are those of the program with nothing lit. -/
  unlit : (lines (render p highlights {})).map (fun line => line.toList.tail) =
    (lines (render p .none {})).map fun line => line.toList.tail

theorem lines_render {p : Program} (wf : p.WellFormed) (whole : Unbroken p)
    (highlights : Highlights) : lines (render p highlights {}) = rows p highlights {} :=
  lines_joinRows ((forall_mem_rows_iff wf highlights).mpr whole)

/-- If there are no more lines than rows, no row has a line break in it. -/
theorem unbroken_of_length {p : Program} (wf : p.WellFormed) {highlights : Highlights}
    (same : (lines (render p highlights {})).length = (rows p highlights {}).length) :
    Unbroken p := by
  rw [render, length_lines_joinRows] at same
  have none : ((rows p highlights {}).map fun row => row.toList.count '\n').sum = 0 := by omega
  rw [List.sum_eq_zero_iff_forall_eq_nat, List.forall_mem_map] at none
  exact (forall_mem_rows_iff wf highlights).mp fun row mem => List.count_eq_zero.mp (none row mem)

/--
Whatever has been done to an empty program and whatever is lit, it is printed with one line for each
item just if no name of a parameter has a line break in it.
-/
theorem oneLineEach_run_empty_iff (edits : List Program.Edit) (highlights : Highlights) :
    OneLineEach (Program.empty.run edits) highlights ↔ Unbroken (Program.empty.run edits) := by
  have wf := Program.wellFormed_empty.run edits
  generalize Program.empty.run edits = p at wf
  constructor
  · intro each
    by_cases none : p.entries = []
    · simp [Unbroken, none]
    · exact unbroken_of_length wf ((each.count none).trans (length_rows wf none).symm)
  · intro whole
    have text := lines_render wf whole
    constructor
    case whole => rw [text highlights, render]
    case empty => exact fun none => (text highlights).trans (rows_of_no_entries wf none)
    case count => exact fun some => text highlights ▸ length_rows wf some
    case event =>
      intro i h event at_i
      exact ⟨_, text highlights ▸ getElem?_rows_event wf at_i, rfl, marker_prefix_eventRow⟩
    case command =>
      intro i h event k c command at_i at_k
      exact ⟨_, text highlights ▸ getElem?_rows_command wf at_i at_k, rfl,
        marker_prefix_commandRow⟩
    case unlit => rw [text highlights, text .none, map_tail_rows wf]

/-- An event with a line break in the name of its parameter. -/
def torn : List Program.Edit :=
  [.add .keyPress (some (.ofMembers [("check\nKey", .string "A")])) []]

theorem not_oneLineEach_torn : ¬ OneLineEach (Program.empty.run torn) .none := fun each => by
  have lengths : (lines (render (Program.empty.run torn) .none {})).length = 2 ∧
      lineOf (Program.empty.run torn) (Program.empty.run torn).entries.length = 1 := by
    decide +kernel
  have one := each.count (List.ne_nil_of_length_pos (by decide +kernel))
  omega

end Listing

end RobotProgram
