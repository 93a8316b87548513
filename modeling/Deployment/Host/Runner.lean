import Deployment.Host.Command
import Deployment.Host.FileTree

namespace Deployment.Host

/-- What a runner makes of one command: how the command came out, or why it could not be started,
and the files and the state of the runner afterwards. -/
structure Ran (State : Type) where
  outcome : Except IoError Output
  files : FileTree
  state : State

abbrev Runner (State : Type) :=
  Command → FileTree → State → Ran State

end Deployment.Host
