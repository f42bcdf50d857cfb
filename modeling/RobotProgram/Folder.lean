/-!
# Files

What can keep a file from being read or written, and a folder of files as a session sees it.

A path is walked name by name. Besides the files of its folder a session knows how many folders lead
down to it from the root, and the folders that every system has there; what those hold is out of its
sight.

## Main definitions

* `FileFault`: the causes.
* `Path`: a path taken apart, and `Place`: a folder that a path may lead to.
* `Device`: what goes by the name of a file but keeps nothing.
* `Folder`: files by name.
* `Folder.read`, `Folder.write`: what becomes of a path; `Folder.read_write` says that what was
  written in the folder is read.
-/

namespace RobotProgram

/-- Why a file is not read or not written. -/
inductive FileFault where
  | missing
  | directory
  /-- The path leads through a file. -/
  | notDirectory
  /-- The path, or a name on it, has too many bytes. -/
  | tooLong
  /-- There is no room for what is written. -/
  | noSpace
  /-- The file holds something else than text. -/
  | notText
  /-- Another cause, in the words of the system. -/
  | other (text : String)
  deriving DecidableEq

def FileFault.message : FileFault → String
  | .missing => "No such file or directory (os error 2)"
  | .directory => "Is a directory (os error 21)"
  | .notDirectory => "Not a directory (os error 20)"
  | .tooLong => "File name too long (os error 36)"
  | .noSpace => "No space left on device (os error 28)"
  | .notText => "stream did not contain valid UTF-8"
  | .other text => text

/-! ## Paths -/

/-- A path taken apart. -/
structure Path where
  /-- Whether it starts at the root. -/
  absolute : Bool
  /-- The names of the folders that it leads through. -/
  through : List String
  /-- The last name, a point if there is none. -/
  name : String
  /-- Whether a slash follows the last name, which only a folder may have. -/
  slashed : Bool
  deriving DecidableEq

namespace Path

/-- The most bytes that a path may have. -/
def maxBytes : Nat := 4095

/-- The most bytes that a name on a path may have. -/
def maxNameBytes : Nat := 255

/-- Takes a path apart; slashes in a row count as one. -/
def parse (path : String) : Except FileFault Path :=
  if path.isEmpty then .error .missing
  else if maxBytes < path.utf8ByteSize then .error .tooLong
  else
    let names := (path.splitOn "/").filter (· ≠ "")
    .ok ⟨path.toList.head? = some '/', names.dropLast, names.getLast?.getD ".",
      path.toList.getLast? = some '/'⟩

end Path

/-- A folder that a path may lead to. -/
inductive Place where
  /-- The folder so many levels above that of the session. -/
  | above (levels : Nat)
  /-- A folder by the names that lead to it from the root. -/
  | system (names : List String)
  deriving DecidableEq

/-- A stream on which a session puts out text. -/
inductive Stream where
  | output
  | errors
  deriving DecidableEq

/-- What goes by the name of a file but keeps nothing, and reads as an empty text. -/
inductive Device where
  /-- It takes whatever is written to it. -/
  | null
  /-- It has no room for anything. -/
  | full
  /-- What is written to it goes out on a stream. -/
  | stream (stream : Stream)
  deriving DecidableEq

/-- The devices by name. Nothing comes in on the standard input. -/
def Device.ofName? : String → Option Device
  | "null" | "stdin" => some .null
  | "full" => some .full
  | "stdout" => some (.stream .output)
  | "stderr" => some (.stream .errors)
  | _ => none

/-- What a name stands for. -/
inductive Entry where
  | folder (place : Place)
  | file (text : String)
  | device (device : Device)
  deriving DecidableEq

namespace Place

/-- The folder of the session. -/
abbrev here : Place := .above 0

/-- The folders at the root of every system. -/
def rootFolders : List String :=
  ["bin", "boot", "dev", "etc", "home", "lib", "media", "mnt", "opt", "proc", "root", "run", "sbin",
   "srv", "sys", "tmp", "usr", "var"]

/-- What every system has in a place under a name. -/
def entry? : Place → String → Option Entry
  | .system [], name => if name ∈ rootFolders then some (.folder (.system [name])) else none
  | .system ["dev"], name => (Device.ofName? name).map .device
  | _, _ => none

end Place

/-! ## Folders -/

/-- Files by name, without folders among them. -/
structure Folder where
  files : List (String × String)
  /-- How many names lead to the folder from the root. -/
  depth : Nat
  deriving DecidableEq

namespace Folder

/-- The place above another one; above the root is the root itself. -/
def parent (folder : Folder) : Place → Place
  | .above levels => if levels + 1 < folder.depth then .above (levels + 1) else .system []
  | .system names => .system names.dropLast

/-- What is seen in a place under a name. -/
def entry? (folder : Folder) (place : Place) (name : String) : Option Entry :=
  if place = .here then (folder.files.lookup name).map .file else place.entry? name

/-- What a name on a path stands for: a point is the place itself, two are the one above. -/
def find (folder : Folder) (place : Place) (name : String) : Except FileFault (Option Entry) :=
  if name = "." then .ok (some (.folder place))
  else if name = ".." then .ok (some (.folder (folder.parent place)))
  else if Path.maxNameBytes < name.utf8ByteSize then .error .tooLong
  else .ok (folder.entry? place name)

/-- The place that a name leads to. -/
def enter (folder : Folder) (place : Place) (name : String) : Except FileFault Place := do
  match ← folder.find place name with
  | some (.folder place) => return place
  | some (.file _) | some (.device _) => throw .notDirectory
  | none => throw .missing

/-- The place that names lead to, one after the other. -/
def walk (folder : Folder) : Place → List String → Except FileFault Place
  | place, [] => .ok place
  | place, name :: names => do folder.walk (← folder.enter place name) names

/-- The place in which the last name of a path is looked for. -/
def placeOf (folder : Folder) (path : Path) : Except FileFault Place :=
  folder.walk (if path.absolute then .system [] else .here) path.through

def read (folder : Folder) (path : String) : Except FileFault String := do
  let path ← Path.parse path
  match ← folder.find (← folder.placeOf path) path.name with
  | some (.folder _) => throw .directory
  | some (.file text) => if path.slashed then throw .notDirectory else return text
  | some (.device _) => if path.slashed then throw .notDirectory else return ""
  | none => throw .missing

/-- The folder after writing a file, which takes the place of one of that name. -/
def put (folder : Folder) (name text : String) : Folder :=
  { folder with files := folder.files.filter (·.1 ≠ name) ++ [(name, text)] }

/-- Where a text went that was written. -/
inductive Written where
  /-- Into the folder, which is now this one. -/
  | inside (folder : Folder)
  /-- Out of sight. -/
  | outside
  /-- Out on a stream. -/
  | stream (stream : Stream)
  deriving DecidableEq

def write (folder : Folder) (path text : String) : Except FileFault Written := do
  let path ← Path.parse path
  let place ← folder.placeOf path
  if path.slashed then throw .directory
  match ← folder.find place path.name with
  | some (.folder _) => throw .directory
  | some (.device .null) => return .outside
  | some (.device .full) => throw .noSpace
  | some (.device (.stream stream)) => return .stream stream
  | some (.file _) | none =>
    return if place = .here then .inside (folder.put path.name text) else .outside

/-! ## What was written is found -/

@[simp] theorem lookup_files_put (folder : Folder) (name text : String) :
    (folder.put name text).files.lookup name = some text := by
  unfold put
  induction folder.files with
  | nil => simp
  | cons file files ih =>
    obtain ⟨other, written⟩ := file
    by_cases h : other = name
    · simpa [h] using ih
    · have h' : (name == other) = false := beq_false_of_ne (Ne.symm h)
      simpa [h, List.lookup_cons, h'] using ih

/-- Names lead to folders whatever the files are. -/
theorem entry?_folder {folder : Folder} (other : Folder) {place next : Place} {name : String}
    (h : folder.entry? place name = some (.folder next)) :
    other.entry? place name = some (.folder next) := by
  unfold entry? at h ⊢
  split at h
  · simp [Option.map_eq_some_iff] at h
  · rwa [if_neg ‹_›]

theorem parent_put (folder : Folder) (name text : String) (place : Place) :
    (folder.put name text).parent place = folder.parent place := by
  cases place <;> rfl

theorem find_put_folder {folder : Folder} {place next : Place} {name : String}
    (file text : String) (h : folder.find place name = .ok (some (.folder next))) :
    (folder.put file text).find place name = .ok (some (.folder next)) := by
  unfold find at h ⊢
  grind [entry?_folder, parent_put]

/-- A name that stands for no folder stands for the file that is put there. -/
theorem find_put {folder : Folder} {name text : String} {entry : Option Entry}
    (h : folder.find .here name = .ok entry) (he : ∀ place, entry ≠ some (.folder place)) :
    (folder.put name text).find .here name = .ok (some (.file text)) := by
  simp only [find, entry?, lookup_files_put] at h ⊢
  grind

theorem enter_eq_ok_iff {folder : Folder} {place next : Place} {name : String} :
    folder.enter place name = .ok next ↔
      folder.find place name = .ok (some (.folder next)) := by
  unfold enter
  cases folder.find place name with
  | error e => simp [bind, Except.bind]
  | ok entry =>
    rcases entry with _ | (_ | _ | _) <;>
      simp [bind, Except.bind, pure, Except.pure, throw, throwThe, MonadExceptOf.throw]

theorem walk_put {folder : Folder} {place last : Place} {names : List String}
    (file text : String) (h : folder.walk place names = .ok last) :
    (folder.put file text).walk place names = .ok last := by
  induction names generalizing place with
  | nil => exact h
  | cons name names ih =>
    unfold walk at h ⊢
    cases hn : folder.enter place name with
    | error e => rw [hn] at h; cases h
    | ok next =>
      rw [hn] at h
      rw [enter_eq_ok_iff.2 (find_put_folder file text (enter_eq_ok_iff.1 hn))]
      exact ih h

theorem read_write {folder written : Folder} {path text : String}
    (h : folder.write path text = .ok (.inside written)) : written.read path = .ok text := by
  unfold write at h
  unfold read
  cases hp : Path.parse path with
  | error e => rw [hp] at h; cases h
  | ok p =>
    simp only [hp, bind, Except.bind] at h ⊢
    cases hw : folder.placeOf p with
    | error e => rw [hw] at h; cases h
    | ok place =>
      simp only [hw] at h
      cases hs : p.slashed with
      | true => rw [hs] at h; cases h
      | false =>
        cases hf : folder.find place p.name with
        | error e => simp [hs, hf] at h
        | ok entry =>
          simp only [hs, hf, Bool.false_eq_true, if_false] at h ⊢
          by_cases hl : place = .here
          · subst hl
            have hw' (name : String) : (folder.put name text).placeOf p = .ok .here :=
              walk_put _ _ hw
            rcases entry with _ | (_ | _ | (_ | _ | _)) <;> cases h <;>
              simp [hw', find_put hf, pure, Except.pure]
          · rcases entry with _ | (_ | _ | (_ | _ | _)) <;> simp [hl] at h <;> cases h

end Folder

end RobotProgram
