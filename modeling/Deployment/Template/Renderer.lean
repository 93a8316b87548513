import Deployment.Host.Runner
import Deployment.Template.Context
import Deployment.Template.DriverScript
import Deployment.Text.Blank
import Deployment.Text.Quoted

/-!
Rendering a template for one instance of a job. An interpreter runs the driver script, which finds
the context of the instance in a file; both stand in a temporary directory that is made for the
purpose and is gone afterwards, however the command came out.
-/

namespace Deployment

open Host (FileTree Place IoError Command Output Runner Ran)

inductive RenderError where
  | directory (path : String) (error : IoError)
  | write (path : String) (error : IoError)
  | start (program : String) (error : IoError)
  | command (line status stderr : String)
  deriving DecidableEq

def RenderError.message : RenderError → String
  | .directory path e =>
    "creating temporary directory: " ++ e.message ++ " at path " ++ Text.quoted path
  | .write path e => "writing " ++ path ++ ": " ++ e.message
  | .start program e => "running '" ++ program ++ "': " ++ e.message
  | .command line status stderr => "'" ++ line ++ "' exited with " ++ status ++ ": " ++ stderr

structure Renderer where
  interpreter : String := "ruby"
  temporaryRoot : String
  working : Place

/-- What comes of rendering: the command that was given to the runner, if it came to that, whether
it went well, and the files and the state of the runner afterwards. -/
structure Rendered (State : Type) where
  command : Option Command
  result : Except RenderError Unit
  files : FileTree
  state : State

namespace Renderer

def directoryName (suffix : String) : String :=
  "rigger-erb-" ++ suffix

def root (r : Renderer) : String :=
  if r.temporaryRoot.startsWith "/" then r.temporaryRoot
  else Host.joinPath (FileTree.path r.working) r.temporaryRoot

def makeDirectoryAt (r : Renderer) (files : FileTree) (path : String) :
    Except IoError (Place × FileTree) :=
  (files.locate r.working path).bind fun l =>
    ((files.makeDirectory l).mapError .system).map fun files => (l, files)

/-- Makes a temporary directory under the first name that is not taken. -/
def makeTemporary (r : Renderer) (files : FileTree) :
    List String → Except RenderError (String × Place × FileTree)
  | [] => .error (.directory r.root .namesExhausted)
  | suffix :: rest =>
    let path := Host.joinPath r.root (directoryName suffix)
    match r.makeDirectoryAt files path with
    | .ok (l, files) => .ok (path, l, files)
    | .error e =>
      -- Only a name that is taken leads on to the next one.
      if e.kind = .alreadyExists then r.makeTemporary files rest else .error (.directory path e)

def writeIn (r : Renderer) (files : FileTree) (directory name text : String) :
    Except RenderError FileTree :=
  let path := Host.joinPath directory name
  (files.write r.working path text.toUTF8.toList).mapError (.write path)

def scriptName : String :=
  "erb-render.rb"

def contextName : String :=
  "erb-context.json"

def prepare (r : Renderer) (files : FileTree) (directory : String)
    (context : EvaluationContext) : Except RenderError FileTree :=
  (r.writeIn files directory scriptName DriverScript.text).bind fun files =>
    r.writeIn files directory contextName context.toProperty.toJsonPretty

def prepared? (r : Renderer) (suffixes : List String) (context : EvaluationContext)
    (files : FileTree) : Option (String × Place × FileTree) :=
  match r.makeTemporary files suffixes with
  | .error _ => none
  | .ok (directory, l, files) =>
    (r.prepare files directory context).toOption.map fun files => (directory, l, files)

def commandIn (r : Renderer) (directory source target : String) : Command :=
  { name := r.interpreter
    args := [Host.joinPath directory scriptName, Host.joinPath directory contextName,
      source, target] }

def judge (r : Renderer) (command : Command) : Except IoError Output → Except RenderError Unit
  | .error e => .error (.start r.interpreter e)
  | .ok output =>
    if output.success then .ok ()
    else
      .error (.command command.line output.statusText (Text.trimString output.stderr))

def renderIn {State : Type} (r : Renderer) (run : Runner State) (directory source target : String)
    (context : EvaluationContext) (files : FileTree) (state : State) : Rendered State :=
  match r.prepare files directory context with
  | .error e => { command := none, result := .error e, files, state }
  | .ok files =>
    let command := r.commandIn directory source target
    let ran := run command files state
    { command := some command
      result := r.judge command ran.outcome
      files := ran.files
      state := ran.state }

def render {State : Type} (r : Renderer) (run : Runner State) (suffixes : List String)
    (source target : String) (context : EvaluationContext) (files : FileTree) (state : State) :
    Rendered State :=
  match r.makeTemporary files suffixes with
  | .error e => { command := none, result := .error e, files, state }
  | .ok (directory, l, files) =>
    let rendered := r.renderIn run directory source target context files state
    { rendered with files := rendered.files.removeTree l }

end Renderer

end Deployment
