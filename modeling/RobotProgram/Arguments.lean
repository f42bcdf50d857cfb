import RobotProgram.Listing
import RobotProgram.Notice

/-!
# Arguments

The words of a command line. Options have a long name after two dashes and a short one, a letter;
letters may stand together after one dash. The value of an option stands behind an equals sign, right
behind its letter, or in the next word. Words are read from left to right, and the first that settles
what is to be done does so.

## Main definitions

* `Arguments`: what a session is asked to do.
* `Arguments.read`: the arguments of words, or why there is no session.
-/

namespace RobotProgram

/-- What a session is asked to do. -/
structure Arguments where
  program : Option String := none
  settings : Option String := none
  output : Option String := none
  simulate : Bool := false
  quiet : Bool := false
  verbosity : Nat := 0
  deriving DecidableEq

namespace Arguments

/-- Why no session follows from a command line. -/
inductive Interruption where
  /-- A word that is not understood, is missing, or is there twice. -/
  | refused
  | help
  | version
  deriving DecidableEq

/-- The options without value. -/
inductive Switch where
  | simulate | quiet | verbose | help | version
  deriving DecidableEq

/-- The options whose value is the path of a file. -/
inductive Role where
  | program | settings | output
  deriving DecidableEq

inductive Key where
  | switch (s : Switch)
  | file (role : Role)
  deriving DecidableEq

/-! ## Names -/

/-- Every option with its long and its short name. -/
def keys : List (String × Char × Key) :=
  [("program", 'p', .file .program), ("config", 'c', .file .settings),
    ("simulate", 's', .switch .simulate), ("output", 'o', .file .output),
    ("verbose", 'v', .switch .verbose), ("quiet", 'q', .switch .quiet),
    ("help", 'h', .switch .help), ("version", 'V', .switch .version)]

def long? (name : String) : Option Key := (keys.find? (·.1 == name)).map (·.2.2)

def short? (letter : Char) : Option Key := (keys.find? (·.2.1 == letter)).map (·.2.2)

/-! ## One option -/

/-- Turns a switch on. Only the verbose one may be there more than once. -/
def turnOn (a : Arguments) : Switch → Except Interruption Arguments
  | .simulate => if a.simulate then .error .refused else .ok { a with simulate := true }
  | .quiet => if a.quiet then .error .refused else .ok { a with quiet := true }
  | .verbose => .ok { a with verbosity := a.verbosity + 1 }
  | .help => .error .help
  | .version => .error .version

/-- The file of a role. -/
def file? (a : Arguments) : Role → Option String
  | .program => a.program
  | .settings => a.settings
  | .output => a.output

/-- Gives a role its file, which must have a name and be the only one. -/
def setFile (a : Arguments) (role : Role) (path : String) : Except Interruption Arguments :=
  if path = "" ∨ (a.file? role).isSome then .error .refused
  else
    match role with
    | .program => .ok { a with program := some path }
    | .settings => .ok { a with settings := some path }
    | .output => .ok { a with output := some path }

/-! ## Words -/

/-- The arguments so far, and the role whose file the next word has to be. -/
abbrev Progress := Arguments × Option Role

/-- Reads a long name, with a value if an equals sign stands behind it. -/
def readLong (a : Arguments) (text : List Char) : Except Interruption Progress :=
  let name := String.ofList (text.takeWhile (· ≠ '='))
  match long? name, text.dropWhile (· ≠ '=') with
  | some (.switch s), [] => (a.turnOn s).map fun a => (a, none)
  | some (.file role), [] => .ok (a, some role)
  | some (.file role), _ :: value => (a.setFile role (String.ofList value)).map fun a => (a, none)
  | _, _ => .error .refused

/-- Reads short names; what stands behind that of a file is its path. -/
def readShort (a : Arguments) : List Char → Except Interruption Progress
  | [] => .ok (a, none)
  | letter :: rest =>
    match short? letter, rest with
    | none, _ => .error .refused
    | some (.switch s), _ => do (← a.turnOn s).readShort rest
    | some (.file role), [] => .ok (a, some role)
    | some (.file role), '=' :: value | some (.file role), value =>
      (a.setFile role (String.ofList value)).map fun a => (a, none)

/-- Reads one word. A path starts with a dash only if it is nothing else. -/
def readWord (progress : Progress) (word : String) : Except Interruption Progress :=
  match progress, word.toList with
  | (a, some role), text =>
    if text.head? = some '-' ∧ text ≠ ['-'] then .error .refused
    else (a.setFile role word).map fun a => (a, none)
  | (a, none), '-' :: '-' :: text => a.readLong text
  | (a, none), '-' :: letter :: rest => a.readShort (letter :: rest)
  | (_, none), _ => .error .refused

/-- Reads words. Two dashes alone end the options, and there is nothing that may follow them. -/
def readFrom (progress : Progress) : List String → Except Interruption Arguments
  | [] => if progress.2.isSome then .error .refused else .ok progress.1
  | word :: rest =>
    if word = "--" then
      if progress.2.isSome || !rest.isEmpty then .error .refused else .ok progress.1
    else do readFrom (← readWord progress word) rest

def read (words : List String) : Except Interruption Arguments := readFrom ({}, none) words

/-! ## Meaning -/

/-- The least urgent level of notices that are shown. -/
def level (a : Arguments) : Level :=
  if a.quiet then .error
  else if a.verbosity = 0 then .info
  else if a.verbosity = 1 then .debug
  else .trace

/-- Whether a notice is shown. -/
def shows (a : Arguments) (notice : Notice) : Bool := notice.level.rank ≤ a.level.rank

/-! ## Texts -/

def versionText : String := "program-cli " ++ Listing.version ++ "\n"

def usage : String := "Usage: program-cli [OPTIONS]\n"

def helpText : String :=
  "Inspect and simulate robot editor programs\n\n" ++ usage ++ "\n" ++ Listing.joinRows
    ["Options:",
      "  -p, --program <FILE>  Path to a saved program (JSON)",
      "  -c, --config <FILE>   Path to configuration file (config.toml)",
      "  -s, --simulate        Replay the configured interpreter snapshots and show live highlights",
      "  -o, --output <FILE>   Write the program back out as JSON",
      "  -v, --verbose...      Verbosity level (can be repeated: -v, -vv, -vvv)",
      "  -q, --quiet           Suppress all output except errors",
      "  -h, --help            Print help",
      "  -V, --version         Print version"]

/-- What is printed when the words are refused. -/
def refusalText : String :=
  "error: the arguments are not understood\n\n" ++ usage
    ++ "\nFor more information, try '--help'.\n"

end Arguments

end RobotProgram
