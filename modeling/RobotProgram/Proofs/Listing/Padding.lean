import Mathlib.Algebra.GroupWithZero.Nat
import Mathlib.Data.List.Induction
import RobotProgram.Output
import RobotProgram.Proofs.Program.Invariant
import RobotProgram.SettingsFile

/-!
# Padding in words

A command is set off by its depth times the width of a level. Nothing bounds this product for a whole
program, and yet a machine never computes one that does not fit into a word. Depths grow by one at a
time, so a command at some depth stands below one that is a single level higher, whose blanks are at
least half as many; if they are too many for a word now, there was no room for a text of those.

## Main definitions

* `Listing.Stepwise`: depths that grow by one at a time.
* `Listing.Stops`: printing stops at a command for whose blanks there is no room.
* `Listing.PaddedExactly`: a machine computes the padding of all rows that it comes to as it is.
-/

namespace RobotProgram

/-! ## Depths of items -/

/-- Before a command below the first level stands one that is a level higher. -/
theorem Routine.mem_of_depths_eq {bs : List Bracket} {depth d : Nat} {before after : List Nat}
    (split : depths depth bs = before ++ (d + 1) :: after) (deeper : depth ≤ d) : d ∈ before := by
  induction bs generalizing depth before with
  | nil => simp [depths] at split
  | cons b rest ih =>
    have top : depthOf depth b ≤ depth := by cases b <;> simp [depthOf]
    rw [depths] at split
    cases before with
    | nil =>
      have here : depthOf depth b = d + 1 := (List.cons_eq_cons.mp split).1
      omega
    | cons first before =>
      obtain ⟨rfl, later⟩ := List.cons_eq_cons.mp split
      by_cases inner : depthAfter depth b ≤ d
      · exact List.mem_cons_of_mem _ (ih later inner)
      · -- Only an opening bracket leads below `d`, and it stands at `d` itself.
        have opens : depthOf depth b = d := by cases b <;> grind [depthOf, depthAfter]
        exact opens ▸ List.mem_cons_self

namespace Listing

/-- Depths in which each but the first level has the level above it somewhere before it. -/
def Stepwise (depths : List Nat) : Prop :=
  ∀ before d after, depths = before ++ (d + 1) :: after → d ∈ before

namespace Stepwise

variable {ds es : List Nat}

theorem append (hd : Stepwise ds) (he : Stepwise es) : Stepwise (ds ++ es) := by
  intro before d after split
  obtain ⟨middle, rfl, rest⟩ | ⟨middle, rfl, rest⟩ := List.append_eq_append_iff.mp split
  · exact List.mem_append_right _ (he _ _ _ rest)
  · cases middle with
    | nil => exact absurd (he [] d after rest.symm) List.not_mem_nil
    | cons first middle =>
      obtain ⟨rfl, -⟩ := List.cons_eq_cons.mp rest
      exact hd _ _ _ rfl

theorem of_append (h : Stepwise (ds ++ es)) : Stepwise ds := by
  rintro before d after rfl
  exact h before d (after ++ es) (by simp)

theorem flatMap {α : Type} {f : α → List Nat} {xs : List α} (each : ∀ x ∈ xs, Stepwise (f x)) :
    Stepwise (xs.flatMap f) := by
  induction xs with
  | nil => simp [Stepwise]
  | cons x xs ih =>
    rw [List.forall_mem_cons] at each
    exact each.1.append (ih each.2)

end Stepwise

theorem stepwise_depths (bs : List Bracket) : Stepwise (0 :: Routine.depths 0 bs) := by
  intro before d after split
  cases before with
  | nil => simp at split
  | cons first before =>
    have later := (List.cons_eq_cons.mp split).2
    exact List.mem_cons_of_mem _ (Routine.mem_of_depths_eq later (Nat.zero_le d))

/-- The depth at which an item stands. -/
def Item.depth : Item → Nat
  | command _ _ c => c.indent
  | _ => 0

theorem map_depth_eventItems (highlights : Highlights) (selected : Option (Handle Event))
    (place : Nat) (h : Handle Event) (event : Event) :
    (eventItems highlights selected place h event).map Item.depth = 0 :: event.routine.indents := by
  have commands := congrArg (List.map fun entry : Handle Command × Command => entry.2.indent)
    (List.zipIdx_map_fst 0 event.routine.entries)
  rw [List.map_map] at commands
  rw [eventItems, List.map_cons, List.map_map, Routine.indents, ← commands]
  rfl

theorem stepwise_items {p : Program} (wf : p.WellFormed) (highlights : Highlights) :
    Stepwise ((items p highlights).map Item.depth) := by
  unfold items
  split
  · exact stepwise_depths []
  · rw [List.map_flatMap]
    refine Stepwise.flatMap fun e mem => ?_
    have entry : e.1 ∈ p.entries := List.fst_mem_of_mem_zipIdx mem
    rw [map_depth_eventItems, (wf.routines _ entry).indents]
    exact stepwise_depths _

section Printing

variable {m : Machine} {display : DisplaySettings}

theorem Machine.product_of_lt (m : Machine) {a b : Nat} (fits : a * b < 2 ^ 64) :
    m.product (.ofNat a) (.ofNat b) = .ok (.ofNat (a * b)) := by
  have whole : a % 2 ^ 64 * (b % 2 ^ 64) ≤ a * b :=
    Nat.mul_le_mul (Nat.mod_le ..) (Nat.mod_le ..)
  rw [product, if_neg, UInt64.ofNat_mul]
  simp only [UInt64.toNat_ofNat', UInt64.size]
  omega

theorem Machine.blanks_of_lt (m : Machine) (rows : Nat) {n : Nat} (fits : n < 2 ^ 64) :
    m.blanks rows (.ofNat n) =
      if m.hasRoom rows n then .ok (Listing.blanks n) else .error (.noRoom n) := by
  rw [blanks, UInt64.toNat_ofNat_of_lt' fits]

/-- Items that a machine prints up to a command for whose blanks there is no room. -/
inductive Stops (m : Machine) (display : DisplaySettings) : List Item → Stop → Prop where
  | short {before after : List Item} {lit : Bool} {place : Nat} {command : Command} :
    printItems m display before = .ok (before.map (·.row display)) →
    m.hasRoom before.length (command.indent * display.indentWidth) = false →
    Stops m display (before ++ .command lit place command :: after)
      (.noRoom (command.indent * display.indentWidth))

theorem printItems_concat (m : Machine) (display : DisplaySettings) (before : List Item)
    (item : Item) :
    printItems m display (before ++ [item]) = do
      let rows ← printItems m display before
      return rows ++ [← item.print m display before.length] := by
  rw [printItems, List.zipIdx_append, List.mapM_append]
  simp [printItems]

/-- A row whose product fits into a word is printed as it is, if there is room for its blanks. -/
theorem Item.print_cases {item : Item} (fits : item.depth * display.indentWidth < 2 ^ 64)
    (rows : Nat) :
    (item.print m display rows = .ok (item.row display) ∧
        item.depth * display.indentWidth ≤ maxBytes) ∨
      ∃ lit place c, item = .command lit place c ∧
        m.hasRoom rows (c.indent * display.indentWidth) = false ∧
        item.print m display rows = .error (.noRoom (c.indent * display.indentWidth)) := by
  cases item with
  | nothing => exact .inl ⟨rfl, by simp [depth]⟩
  | event => exact .inl ⟨rfl, by simp [depth]⟩
  | command lit place c =>
    rw [depth] at fits ⊢
    have printed : (command lit place c).print m display rows =
        (m.blanks rows (.ofNat (c.indent * display.indentWidth))).map
          (paddedRow display lit place c) := by
      rw [print, m.product_of_lt fits]
      rfl
    rw [m.blanks_of_lt rows fits] at printed
    cases room : m.hasRoom rows (c.indent * display.indentWidth) with
    | true =>
      refine .inl ⟨?_, m.le_maxBytes _ _ room⟩
      rw [printed, room]
      rfl
    | false =>
      refine .inr ⟨lit, place, c, rfl, room, ?_⟩
      rw [printed, room]
      rfl

section Items

variable (word : display.indentWidth < 2 ^ 64)
include word

/-- Below rows for whose blanks there was room, the next product fits into a word. -/
theorem depth_mul_lt {before : List Item} {item : Item}
    (stepwise : Stepwise ((before ++ [item]).map Item.depth))
    (room : ∀ x ∈ before, x.depth * display.indentWidth ≤ maxBytes) :
    item.depth * display.indentWidth < 2 ^ 64 := by
  cases depth : item.depth with
  | zero => omega
  | succ d =>
    cases d with
    | zero => omega
    | succ d =>
      have above : d + 1 ∈ before.map Item.depth :=
        stepwise _ (d + 1) [] (by simp [depth])
      obtain ⟨x, mem, same⟩ := List.mem_map.mp above
      have half : (d + 1) * display.indentWidth ≤ maxBytes := same ▸ room x mem
      calc (d + 1 + 1) * display.indentWidth
          ≤ (2 * (d + 1)) * display.indentWidth := Nat.mul_le_mul_right _ (by omega)
        _ = 2 * ((d + 1) * display.indentWidth) := Nat.mul_assoc ..
        _ ≤ 2 * maxBytes := Nat.mul_le_mul_left 2 half
        _ < 2 ^ 64 := by decide

/-- All items are printed as they are, or those before one for whose blanks there is no room. -/
theorem printItems_cases {items : List Item} (stepwise : Stepwise (items.map Item.depth)) :
    (printItems m display items = .ok (items.map (·.row display)) ∧
        ∀ x ∈ items, x.depth * display.indentWidth ≤ maxBytes) ∨
      ∃ stop, printItems m display items = .error stop ∧ Stops m display items stop := by
  induction items using List.reverseRecOn with
  | nil => exact .inl ⟨rfl, by simp⟩
  | append_singleton before item ih =>
    obtain ⟨printed, room⟩ | ⟨stop, stopped, stops⟩ := ih (List.map_append ▸ stepwise).of_append
    · have fits := depth_mul_lt word stepwise room
      obtain ⟨row, small⟩ | ⟨lit, place, c, rfl, short, stop⟩ :=
        Item.print_cases (m := m) fits before.length
      · refine .inl ⟨?_, List.forall_mem_append.mpr ⟨room, by simpa using small⟩⟩
        rw [printItems_concat, printed, row, List.map_append]
        rfl
      · refine .inr ⟨_, ?_, .short printed short⟩
        rw [printItems_concat, printed, stop]
        rfl
    · refine .inr ⟨stop, by rw [printItems_concat, stopped]; rfl, ?_⟩
      cases stops with
      | short printed short => simpa using Stops.short printed short

end Items

end Printing

/-! ## Programs -/

theorem print_cases {m : Machine} {display : DisplaySettings}
    (word : display.indentWidth < 2 ^ 64) {p : Program} (wf : p.WellFormed)
    (highlights : Highlights) :
    print m p highlights display = .ok (render p highlights display) ∨
      ∃ stop, print m p highlights display = .error stop ∧
        Stops m display (items p highlights) stop := by
  rw [print]
  obtain ⟨printed, -⟩ | ⟨stop, stopped, stops⟩ :=
    printItems_cases (m := m) word (stepwise_items wf highlights)
  · rw [printed]
    exact .inl rfl
  · rw [stopped]
    exact .inr ⟨stop, rfl, stops⟩

/-- What is printed of a view below a text is all of it, or that text if printing stops. -/
theorem printBelow_cases {m : Machine} {v : View} (word : v.display.indentWidth < 2 ^ 64)
    (wf : v.program.WellFormed) (above : String) :
    v.printBelow m above = (some (above ++ v.render), none) ∨
      ∃ stop, v.printBelow m above = (some above, some stop) ∧
        Stops m v.display (items v.program v.highlights) stop := by
  rw [View.printBelow, View.render]
  obtain printed | ⟨stop, stopped, stops⟩ := print_cases (m := m) word wf v.highlights
  · exact .inl (by rw [printed])
  · exact .inr ⟨stop, by rw [stopped], stops⟩

end Listing

end RobotProgram
