import Deployment.Host.Runner

/-!
A runner that starts nothing. It answers from a list of prepared outcomes and keeps a record of
every command. An outcome is prepared for a key, which stands for the command line equal to it and
for all that go on with a space; of several keys that stand for a line the longest one counts.
-/

namespace Deployment.Host

structure ScriptedRun where
  command : Command
  files : List (String × String)

structure ScriptedRunner where
  outcomes : List (String × Except IoErrorKind Output) := []
  runs : List ScriptedRun := []

namespace ScriptedRunner

/-- Prepares an outcome. It takes the place of an earlier one for the same key. -/
def prepare (r : ScriptedRunner) (key : String) (outcome : Except IoErrorKind Output) :
    ScriptedRunner :=
  { r with outcomes := (key, outcome) :: r.outcomes.filter (·.1 ≠ key) }

def covers (key line : String) : Bool :=
  line = key || (key ++ " ").toList.isPrefixOf line.toList

/-- The longer of two prepared outcomes, the first one if neither is longer. -/
def longer (a b : String × Except IoErrorKind Output) : String × Except IoErrorKind Output :=
  if a.1.utf8ByteSize < b.1.utf8ByteSize then b else a

def outcomeFor? (r : ScriptedRunner) (line : String) : Option (Except IoErrorKind Output) :=
  match r.outcomes.filter fun o => covers o.1 line with
  | [] => none
  | first :: rest => some (rest.foldl longer first).2

def insertSorted (key text : String) : List (String × String) → List (String × String)
  | [] => [(key, text)]
  | e :: rest =>
    if key < e.1 then (key, text) :: e :: rest
    else if key = e.1 then (key, text) :: rest
    else e :: insertSorted key text rest

/-- The texts of the files that arguments name, in ascending order of their paths. Files that hold
no text are left out. -/
def filesOf (files : FileTree) (working : Place) (args : List String) :
    List (String × String) :=
  args.foldl (fun found arg =>
    match files.readText working arg with
    | .ok text => insertSorted arg text found
    | .error _ => found) []

/-- Records a command and answers it. A command that nothing was prepared for succeeds without
output. -/
def run (working : Place) : Runner ScriptedRunner := fun command files r =>
  { outcome :=
      match r.outcomeFor? command.line with
      | some outcome => outcome.mapError .plain
      | none => .ok {}
    files
    state := { r with runs := r.runs ++ [⟨command, filesOf files working command.args⟩] } }

end ScriptedRunner

end Deployment.Host
