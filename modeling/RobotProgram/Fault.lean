import RobotProgram.Json.Fault

/-!
# Faults

What an operation answers when it cannot be carried out at all. What a user may run into (an edit
while a script runs, a duplicate, a declined question) is no fault but an outcome.

## Main definitions

* `Fault`: the causes.
* `Fault.message`: the wording.
-/

namespace RobotProgram

/-- What a kind is a kind of. -/
inductive Subject where
  | event | command
  deriving DecidableEq

def Subject.word : Subject → String
  | .event => "event"
  | .command => "command"

inductive Fault where
  /-- A handle that is not registered where it was looked up. -/
  | unregistered (label : String) (id : Nat)
  /-- A name that no kind has. -/
  | unknownKind (subject : Subject) (name : String)
  /-- A text or value that is not read. -/
  | json (fault : Json.Fault)
  deriving DecidableEq

def Fault.message : Fault → String
  | .unregistered label id => label ++ " handle #" ++ toString id ++ " is not registered"
  | .unknownKind subject name => "Unknown " ++ subject.word ++ " kind: " ++ name
  | .json fault => "JSON error: " ++ fault.message

end RobotProgram
