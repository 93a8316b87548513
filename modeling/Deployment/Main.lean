import Deployment.CommandLine.Session

namespace Deployment.CommandLine

open Host (FileTree Place Entry Runner)

def placeNames (path : String) : List String :=
  (FileTree.names path).filter (· ≠ "")

def standing (e : Entry) (t : FileTree) (l : Place) : List String → FileTree
  | [] =>
    match e with
    | .directory => t.makeDirectories l
    | _ => t.put l e
  | name :: rest =>
    let t := t.makeDirectories l
    if name = "." then standing e t l rest
    else if name = ".." then standing e t l.dropLast rest
    else standing e t (l ++ [name]) rest

def Invocation.paths (i : Invocation) (home : Option String) : List String :=
  let settings := (i.config <|> home.map defaultSettingsPath).toList
  match i.request with
  | .parse manifest _ => settings ++ [manifest]
  | .render manifest .. => settings ++ [manifest]
  | .completions _ => settings

def entryAt (path : String) : IO (Option Entry) := do
  try
    let content ← IO.FS.readBinFile path
    return some (.file content.toList false)
  catch e =>
    match e with
    | .inappropriateType .. => return some .directory
    | .permissionDenied .. => return some .locked
    | _ => return none

def snapshot (working : Place) (paths : List String) : IO FileTree := do
  let mut t := FileTree.empty.makeDirectories working
  for path in paths do
    match ← entryAt path with
    | some e => t := standing e t (if path.startsWith "/" then [] else working) (placeNames path)
    | none => pure ()
  return t

def refuse : Runner Unit := fun _ files _ =>
  { outcome := .error (.plain .unsupported), files, state := () }

def runHere (args : List String) : IO (RunResult Unit) := do
  let home ← IO.getEnv "HOME"
  let logVariable ← IO.getEnv "RIGGER_LOG"
  let working := placeNames (← IO.currentDir).toString
  let paths := match Invocation.ofArguments args with
    | .ok i => i.paths home
    | .error _ => []
  let files := (← snapshot working paths).makeDirectories ["tmp"]
  return runProgram args
    { files, working, home, logVariable, temporaryRoot := "/tmp", suffixes := ["000000"] }
    refuse ()

end Deployment.CommandLine

def main (args : List String) : IO UInt32 := do
  let result ← Deployment.CommandLine.runHere args
  (← IO.getStdout).putStr result.stdout
  (← IO.getStderr).putStr result.stderr
  return result.code.toUInt32
