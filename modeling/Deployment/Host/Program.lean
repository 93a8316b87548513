import Deployment.Host.Runner
import Deployment.Host.ShellScript
import Deployment.Host.Utility

/-!
Programs of a host: its utilities, its shell, and the files that may be executed. They stand in for
a real host where commands are to come to something. What is proved of a run holds for any runner;
of this one it is proved that it keeps the tree of files in order.
-/

namespace Deployment.Host

inductive Sink where
  | output
  | errors
  | file (place : Place)
  deriving DecidableEq

structure Script where
  name : String
  arguments : List String
  working : Place
  files : FileTree
  output : List UInt8 := []
  errors : List UInt8 := []
  status : Nat := 0

inductive Ending where
  | exited (code : Nat)
  | killed

namespace Script

def processNumber : String :=
  "4096"

def value (s : Script) (name : String) : String :=
  match name with
  | "@" => " ".intercalate s.arguments
  | "*" => " ".intercalate s.arguments
  | "#" => Decimal.ofNat s.arguments.length
  | "?" => Decimal.ofNat s.status
  | "$" => processNumber
  | "0" => s.name
  | _ =>
    match Decimal.read 10 name.toList with
    | some (n + 1) => s.arguments[n]?.getD ""
    | _ => ""

structure Fields where
  done : List String := []
  current : Option String := none

namespace Fields

def append (f : Fields) (text : String) : Fields :=
  { f with current := some (f.current.getD "" ++ text) }

def finish (f : Fields) : Fields :=
  match f.current with
  | some text => { done := f.done ++ [text] }
  | none => f

/-- Text that falls into fields at its blanks. -/
def appendSplit (f : Fields) (text : String) : Fields :=
  text.toList.foldl (fun f c =>
    if c = ' ' || c = '\t' || c = '\n' then f.finish else f.append c.toString) f

def appendEach (f : Fields) : List String → Fields
  | [] => f
  | [text] => f.append text
  | text :: rest => appendEach (f.append text).finish rest

end Fields

def expand (s : Script) (w : Word) : List String :=
  (w.foldl (fun (f : Fields) part =>
    match part with
    | .text cs => f.append (String.ofList cs)
    | .parameter "@" true => f.appendEach s.arguments
    | .parameter name true => f.append (s.value name)
    | .parameter name false => f.appendSplit (s.value name))
    { current := if w.isEmpty then some "" else none }).finish.done

def complain (s : Script) (line : Nat) (text : String) : Script :=
  { s with
    errors := s.errors ++
      Utility.octets (s.name ++ ": " ++ Decimal.ofNat line ++ ": " ++ text ++ "\n") }

def deliver (s : Script) (sink : Sink) (octets : List UInt8) : Script :=
  match sink with
  | .output => { s with output := s.output ++ octets }
  | .errors => { s with errors := s.errors ++ octets }
  | .file place =>
    match s.files.find? place with
    | some (.file content executable) =>
      { s with files := s.files.put place (.file (content ++ octets) executable) }
    | _ => s

abbrev Sinks := List (Nat × Sink)

def Sinks.get (sinks : Sinks) (stream : Nat) : Sink :=
  (sinks.lookup stream).getD (if stream = 2 then .errors else .output)

def creationFault : SystemError → String
  | .noSuchFile => "Directory nonexistent"
  | e => e.text

def redirect (s : Script) (sinks : Sinks) : Redirection → Except String (Script × Sinks)
  | .stream stream target => .ok (s, (stream, sinks.get target) :: sinks)
  | .file stream append target =>
    let path := " ".intercalate (s.expand target)
    let fault (e : SystemError) : Except String (Script × Sinks) :=
      .error ("cannot create " ++ path ++ ": " ++ creationFault e)
    match s.files.locate s.working path with
    | .error (.system e) => fault e
    | .error _ => fault .noSuchFile
    | .ok place =>
      match append, s.files.find? place with
      | true, some (.file _ _) => .ok (s, (stream, .file place) :: sinks)
      | _, _ =>
        match s.files.writeAt place [] with
        | .ok files => .ok ({ s with files }, (stream, .file place) :: sinks)
        | .error e => fault e

def redirectAll (s : Script) (sinks : Sinks) : List Redirection → Except String (Script × Sinks)
  | [] => .ok (s, sinks)
  | r :: rest => (s.redirect sinks r).bind fun (s, sinks) => s.redirectAll sinks rest

def killArguments : List String → String × List String
  | "-s" :: signal :: rest => (signal, rest)
  | first :: rest =>
    match first.toList with
    | '-' :: signal => (String.ofList signal, rest)
    | _ => ("TERM", first :: rest)
  | [] => ("TERM", [])

def isDeadly (signal : String) : Bool :=
  !(["0", "17", "18", "23", "28", "CHLD", "CONT", "URG", "WINCH"].contains signal)

def runCommand (s : Script) (sinks : Sinks) (line : Nat) :
    List String → Script × Option Ending
  | [] => ({ s with status := 0 }, none)
  | ":" :: _ => ({ s with status := 0 }, none)
  | "exit" :: args =>
    match args with
    | [] => (s, some (.exited s.status))
    | code :: _ =>
      match Decimal.read 10 code.toList with
      | some n => (s, some (.exited (n % 256)))
      | none => (s.complain line ("exit: Illegal number: " ++ code), some (.exited 2))
  | "kill" :: args =>
    let (signal, targets) := killArguments args
    if targets = [processNumber] then
      if isDeadly signal then (s, some .killed) else ({ s with status := 0 }, none)
    else ({ s.complain line "kill: No such process" with status := 1 }, none)
  | name :: args =>
    let effect? :=
      if name = "echo" then some (Utility.echo true s.files args)
      else Utility.run? s.working s.files name args
    match effect? with
    | some effect =>
      let s := { s with files := effect.files, status := effect.status }
      ((s.deliver (sinks.get 1) effect.output).deliver (sinks.get 2) effect.errors, none)
    | none =>
      let text := s.name ++ ": " ++ Decimal.ofNat line ++ ": " ++ name ++ ": not found\n"
      (({ s with status := 127 }).deliver (sinks.get 2) (Utility.octets text), none)

def applies (connective : Connective) (status : Nat) : Bool :=
  match connective with
  | .always => true
  | .onSuccess => status = 0
  | .onFailure => status ≠ 0

def runSteps (s : Script) : List ScriptStep → Script × Ending
  | [] => (s, .exited s.status)
  | step :: rest =>
    if applies step.connective s.status then
      match s.redirectAll [] step.redirections with
      | .error text => ({ s.complain step.line text with status := 2 }).runSteps rest
      | .ok (redirected, sinks) =>
        match redirected.runCommand sinks step.line (step.words.flatMap s.expand) with
        | (s, some ending) => (s, ending)
        | (s, none) => s.runSteps rest
    else s.runSteps rest

end Script

def outputOf (code : Option Int) (output errors : List UInt8) : Output :=
  { code
    stdout := String.ofList (Text.Utf8.decodeLossy output)
    stderr := String.ofList (Text.Utf8.decodeLossy errors) }

def runScript (working : Place) (files : FileTree) (name : String) (arguments : List String)
    (text : List Char) : Output × FileTree :=
  match ShellScript.read text with
  | none => (outputOf (some 2) [] (Utility.octets (name ++ ": 1: Syntax error\n")), files)
  | some steps =>
    let (script, ending) := ({ name, arguments, working, files } : Script).runSteps steps
    let code : Option Int := match ending with
      | .exited code => some code
      | .killed => none
    (outputOf code script.output script.errors, script.files)

def runShell (working : Place) (files : FileTree) (args : List String) : Output × FileTree :=
  match args with
  | "-c" :: text :: name :: arguments => runScript working files name arguments text.toList
  | ["-c", text] => runScript working files "sh" [] text.toList
  | path :: arguments =>
    match files.read working path with
    | .ok content => runScript working files path arguments (Text.Utf8.decodeLossy content)
    | .error _ =>
      (outputOf (some 2) [] (Utility.octets ("sh: 0: cannot open " ++ path ++
        ": No such file\n")), files)
  | [] => ({}, files)

def runNamed? (working : Place) (files : FileTree) (name : String) (args : List String) :
    Option (Output × FileTree) :=
  if name = "sh" || name = "bash" || name = "dash" then some (runShell working files args)
  else
    (Utility.run? working files name args).map fun effect =>
      (outputOf (some effect.status) effect.output effect.errors, effect.files)

def interpreter? (content : List UInt8) : Option String :=
  match Text.Utf8.decodeLossy content with
  | '#' :: '!' :: rest =>
    let words := (rest.takeWhile (· ≠ '\n')).dropWhile (· = ' ')
    some (String.ofList (words.takeWhile (· ≠ ' ')))
  | _ => none

def nameAt? : Place → Option String
  | ["bin", name] => some name
  | ["usr", "bin", name] => some name
  | _ => none

def runFile (working : Place) (files : FileTree) (place : Place) (path : String)
    (args : List String) : Except IoError (Output × FileTree) :=
  match files.find? place with
  | some (.file content true) =>
    match interpreter? content with
    | none => .error (.system .notExecutable)
    | some interpreter =>
      match (files.locate working interpreter).toOption.bind nameAt? with
      | some _ => .ok (runShell working files (path :: args))
      | none => .error (.system .noSuchFile)
  | some _ => .error (.system .permissionDenied)
  | none => .error (.system .noSuchFile)

/-- The path of the program that a name stands for: the name itself if it has a slash, and else a
name in the directory of the programs. -/
def programPath (name : String) : String :=
  if name = "" || name.toList.contains '/' then name else "/usr/bin/" ++ name

def start (working : Place) (files : FileTree) (command : Command) :
    Except IoError (Output × FileTree) :=
  if (command.name :: command.args).any fun s => s.toList.any (·.toNat = 0) then
    .error .nulInCommand
  else
    (files.locate working (programPath command.name)).bind fun place =>
      match (nameAt? place).bind fun name => runNamed? working files name command.args with
      | some result => .ok result
      | none => runFile working files place command.name command.args

def runOnHost (working : Place) : Runner Unit := fun command files _ =>
  match start working files command with
  | .ok (output, after) => { outcome := .ok output, files := after, state := () }
  | .error e => { outcome := .error e, files, state := () }

end Deployment.Host
