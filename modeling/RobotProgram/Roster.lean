import RobotProgram.Fault
import RobotProgram.Notice

/-!
# Rosters

A roster keeps objects under handles, and beside them the handles in the order in which they are
shown. Handles are numbered from one and never given out twice, so the handle of an object that is
gone finds nothing, rather than another object.

## Main definitions

* `Handle`: the handle of an object, typed by what it stands for.
* `Roster`: objects by handle, the visual order, and the number of the next handle.
* `Roster.entries`: the handles and objects in visual order.
* `Roster.Edit`, `Roster.apply`: the operations that change a roster.
-/

namespace RobotProgram

/-- A handle for an object of type `α`. -/
structure Handle (α : Type) where
  id : Nat

instance {α : Type} : DecidableEq (Handle α) := fun a b =>
  decidable_of_iff (a.id = b.id) ⟨fun h => by cases a; cases b; simp_all, fun h => h ▸ rfl⟩

/-- Objects by handle, in the order of registration, and the handles in visual order. -/
structure Roster (α : Type) where
  label : String
  objects : List (Handle α × α)
  order : List (Handle α)
  next : Nat

namespace Roster

variable {α σ : Type}

/-- The roster without objects; `label` names its objects in faults. -/
def empty (label : String) : Roster α := ⟨label, [], [], 1⟩

/-- Puts an element before the one at `index`, or at the end when there is none. -/
def insertAt (index : Nat) (x : σ) (xs : List σ) : List σ := xs.insertIdx (min index xs.length) x

/-! ## Looking up -/

def find? (r : Roster α) (h : Handle α) : Option α := r.objects.lookup h

def contains (r : Roster α) (h : Handle α) : Bool := (r.find? h).isSome

def position? (r : Roster α) (h : Handle α) : Option Nat := r.order.idxOf? h

def handleAt? (r : Roster α) (index : Nat) : Option (Handle α) := r.order[index]?

def length (r : Roster α) : Nat := r.order.length

/-- The handles and their objects, in visual order. -/
def entries (r : Roster α) : List (Handle α × α) :=
  r.order.filterMap fun h => (r.find? h).map (h, ·)

/-- The fault of a handle that is not registered. -/
def fault (r : Roster α) (h : Handle α) : Fault := .unregistered r.label h.id

/-- The notice of a handle that is not registered. -/
def notice (r : Roster α) (h : Handle α) : Notice := .unregistered r.label h.id

/-- The notices of looking up a handle. -/
def lookupNotices (r : Roster α) (h : Handle α) : List Notice :=
  if r.contains h then [] else [r.notice h]

/-- The object of a handle, or the fault. -/
def resolve (r : Roster α) (h : Handle α) : Except Fault α :=
  match r.find? h with
  | some x => .ok x
  | none => .error (r.fault h)

/-! ## Changing -/

/-- The handle that the next registration gives out. -/
def nextHandle (r : Roster α) : Handle α := ⟨r.next⟩

/-- Registers an object before the one at `index`, or at the end. -/
def registerAt (r : Roster α) (index : Nat) (x : α) : Roster α :=
  { r with
    objects := r.objects ++ [(r.nextHandle, x)]
    order := insertAt index r.nextHandle r.order
    next := r.next + 1 }

/-- Registers an object at the end. -/
def register (r : Roster α) (x : α) : Roster α := r.registerAt r.length x

/-- Applies a function to the objects of one handle. -/
def alter (h : Handle α) (f : α → α) (objects : List (Handle α × α)) : List (Handle α × α) :=
  objects.map fun entry => if entry.1 = h then (entry.1, f entry.2) else entry

/-- Applies a function to the object of a handle, if it has one. -/
def modify (r : Roster α) (h : Handle α) (f : α → α) : Roster α :=
  { r with objects := alter h f r.objects }

/-- Takes a handle and its object away. -/
def remove (r : Roster α) (h : Handle α) : Roster α :=
  { r with
    objects := r.objects.filter (·.1 ≠ h)
    order := r.order.filter (· ≠ h) }

/-- Moves a handle to `index` in what is left of the order without it, or to the end. -/
def moveTo (r : Roster α) (h : Handle α) (index : Nat) : Roster α :=
  { r with order := insertAt index h (r.order.erase h) }

/-- Visits the objects of some handles in turn, with a state that goes along. -/
def walk (step : σ → α → σ × α) :
    σ → List (Handle α) → List (Handle α × α) → List (Handle α × α)
  | _, [], objects => objects
  | s, h :: rest, objects =>
    match objects.lookup h with
    | none => walk step s rest objects
    | some x => walk step (step s x).1 rest (alter h (fun _ => (step s x).2) objects)

/-- Visits every object in visual order, with a state that goes along. -/
def visit (r : Roster α) (step : σ → α → σ × α) (start : σ) : Roster α :=
  { r with objects := walk step start r.order r.objects }

/-- Applies a function to every object, in no particular order. -/
def mapObjects (r : Roster α) (f : α → α) : Roster α :=
  { r with objects := r.objects.map fun entry => (entry.1, f entry.2) }

/-- Takes all objects away; the numbering goes on. -/
def clear (r : Roster α) : Roster α := { r with objects := [], order := [] }

/-! ## Texts -/

/-- How a handle is written where objects are described. -/
def handleText (h : Handle α) : String := "Handle#" ++ toString h.id

/-- A description of the roster, with each object shown by `shown`. -/
def describe (r : Roster α) (shown : α → String) : String :=
  "Registry \x7b kind: " ++ Text.quoted r.label
    ++ ", order: [" ++ String.intercalate ", " (r.order.map handleText)
    ++ "], objects: \x7b"
    ++ String.intercalate ", " (r.objects.map fun (h, x) => handleText h ++ ": " ++ shown x)
    ++ "\x7d \x7d"

/-! ## Operations -/

/-- The operations that change a roster. -/
inductive Edit (α : Type) where
  | register (x : α)
  | registerAt (index : Nat) (x : α)
  | modify (h : Handle α) (f : α → α)
  | remove (h : Handle α)
  | replace (h : Handle α) (x : α)
  | moveTo (h : Handle α) (index : Nat)
  | visit (f : α → α)
  | mapObjects (f : α → α)
  | clear

/-- What an operation answers when it is carried out. -/
inductive Reply (α : Type) where
  | handle (h : Handle α)
  | object (x : α)
  | objects (xs : List α)
  | done

/-- Carries out an operation with what was found of a handle, which must be something. -/
def withFound (r : Roster α) (h : Handle α) (found : Option σ) (f : σ → Roster α × Reply α) :
    Outcome (Roster α) (Except Fault (Reply α)) :=
  match found with
  | none => ⟨.error (r.fault h), r, [r.notice h]⟩
  | some x => ⟨.ok (f x).2, (f x).1, []⟩

/-- Carries out an operation on a handle that must have an object. -/
def withObject (r : Roster α) (h : Handle α) (f : α → Roster α × Reply α) :
    Outcome (Roster α) (Except Fault (Reply α)) :=
  r.withFound h (r.find? h) f

/-- Carries out an operation. -/
def apply (r : Roster α) : Edit α → Outcome (Roster α) (Except Fault (Reply α))
  | .register x => ⟨.ok (.handle r.nextHandle), r.register x, []⟩
  | .registerAt index x => ⟨.ok (.handle r.nextHandle), r.registerAt index x, []⟩
  | .modify h f => r.withObject h fun x => (r.modify h f, .object (f x))
  | .remove h => r.withObject h fun x => (r.remove h, .object x)
  | .replace h y => r.withObject h fun x => (r.modify h fun _ => y, .object x)
  | .moveTo h index => r.withFound h (r.position? h) fun _ => (r.moveTo h index, .done)
  | .visit f => ⟨.ok (.objects (r.entries.map (·.2))), r.visit (fun _ x => ((), f x)) (), []⟩
  | .mapObjects f => ⟨.ok .done, r.mapObjects f, []⟩
  | .clear => ⟨.ok .done, r.clear, []⟩

end Roster

end RobotProgram
