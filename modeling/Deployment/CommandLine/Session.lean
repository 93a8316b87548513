import Deployment.CommandLine.Failure
import Deployment.CommandLine.LogFilter
import Deployment.CommandLine.Settings
import Deployment.CommandLine.Streams
import Deployment.CommandLine.Summary
import Deployment.CommandLine.Usage

/-!
One run of the program. What a command does and what there is to write is worked out first, with the
state of things at every text; then the texts are written in order, and the first one that is
refused for good ends the run with what stands at that time.
-/

namespace Deployment.CommandLine

open Host (FileTree Place IoError Runner)

/-- What a run finds: the files, the working directory, the home directory of the user, the value
of the variable that sets the log filter, where temporary directories go and which ends their
names may have, where the streams lead, and the words of the libraries. -/
structure Surroundings where
  files : FileTree
  working : Place
  home : Option String := none
  logVariable : Option String := none
  temporaryRoot : String := "/tmp"
  suffixes : List String
  streams : Streams := {}
  wording : Wording := {}

/-- How things stand in the middle of a run: the files, the files without the temporary directory
that is in use, and the state of the runner. -/
structure Standing (State : Type) where
  files : FileTree
  tidied : FileTree
  state : State

structure Noted (State : Type) where
  line : LogLine
  standing : Standing State

/-- What comes of a command: what it tells the user on the way, its output or its failure, and the
files and the state of the runner afterwards. -/
structure Finished (State : Type) where
  log : List (Noted State)
  result : Except Failure String
  files : FileTree
  state : State

structure Utterance (State : Type) where
  manner : Manner
  text : String
  standing : Standing State

/-- The course of a run whose texts are all written: the texts, and what it leaves behind. -/
structure Course (State : Type) where
  utterances : List (Utterance State)
  code : UInt8
  files : FileTree
  state : State

structure RunResult (State : Type) where
  code : UInt8
  stdout : String := ""
  stderr : String := ""
  files : FileTree
  state : State

def Surroundings.untouched {State : Type} (s : Surroundings) (state : State) : Standing State where
  files := s.files
  tidied := s.files
  state := state

def LogLine.ofEvent (e : LogEvent) : LogLine :=
  ⟨"rigger_manifest::parser", e.level, e.message⟩

def nestedTags : String :=
  "serializing nested enums in YAML is not supported yet"

def shownManifest (format : OutputFormat) (m : Manifest) : Except Failure String :=
  match format with
  | .summary => .ok (summary m)
  | .json => .ok (m.toJson ++ "\n")
  | .yaml =>
    match m.toYamlText with
    | some text => .ok text
    | none => .error (.unprintable .yaml nestedTags)

def Surroundings.manifest (s : Surroundings) (path : String) :
    List LogLine × Except Failure Manifest :=
  let (events, parsed) := Manifest.parse path ((s.files.read s.working path).mapError (·.message))
  (events.map .ofEvent, parsed.mapError .manifest)

def instanceOf (m : Manifest) (job : String) (index : UInt64) :
    Except Failure (Job × EvaluationContext) :=
  match m.job? job with
  | none => .error (.unknownJob job m.name)
  | some j => ((EvaluationContext.forInstance m j index).mapError .context).map fun c => (j, c)

def Surroundings.renderer (s : Surroundings) (settings : Settings) : Renderer where
  interpreter := settings.ruby
  temporaryRoot := s.temporaryRoot
  working := s.working

def Surroundings.announced {State : Type} (s : Surroundings) (settings : Settings)
    (context : EvaluationContext) (source target : String) (state : State) : List (Noted State) :=
  let renderer := s.renderer settings
  (renderer.prepared? s.suffixes context s.files).toList.map fun (directory, l, files) =>
    { line := ⟨"rigger_templates::erb", .debug, "rendering " ++ source ++ " -> " ++ target ++ ": " ++
        (renderer.commandIn directory source target).line⟩
      -- Both files are in place by now, and a quiet end leaves them and their directory behind.
      standing := { files, tidied := files.removeTree l, state } }

def render {State : Type} (s : Surroundings) (settings : Settings) (run : Runner State)
    (manifest job : String) (index : UInt64) (source target : String) (state : State) :
    Finished State :=
  let (events, parsed) := s.manifest manifest
  let log := events.map fun line => ⟨line, s.untouched state⟩
  match parsed.bind fun m => instanceOf m job index with
  | .error e => { log, result := .error e, files := s.files, state }
  | .ok (j, context) =>
    let rendered :=
      (s.renderer settings).render run s.suffixes source target context s.files state
    let log := log ++ s.announced settings context source target state
    let instanceName := j.name ++ "/" ++ Decimal.ofNat index.toNat
    match rendered.result with
    | .error e =>
      { log
        result := .error (.rendering source e)
        files := rendered.files
        state := rendered.state }
    | .ok _ =>
      let done : LogLine :=
        ⟨"rigger::commands::render", .info, "rendered " ++ instanceName ++ " -> " ++ target⟩
      { log := log ++ [⟨done, rendered.files, rendered.files, rendered.state⟩]
        result := .ok ("rendered " ++ target ++ " for " ++ instanceName ++ "\n")
        files := rendered.files
        state := rendered.state }

def perform {State : Type} (s : Surroundings) (settings : Settings) (run : Runner State)
    (request : Request) (state : State) : Finished State :=
  match request with
  | .parse manifest format =>
    let (events, parsed) := s.manifest manifest
    { log := events.map fun line => ⟨line, s.untouched state⟩
      result := parsed.bind (shownManifest format)
      files := s.files
      state }
  | .render manifest job index source target =>
    render s settings run manifest job index source target state
  | .completions shell =>
    { log := [], result := .ok (s.wording.completion shell), files := s.files, state }

def Surroundings.settingsAt (s : Surroundings) (path : String) : Except SettingsError Settings :=
  match s.files.readText s.working path with
  | .error e => .error (.reading path e)
  | .ok text =>
    match Settings.ofText text with
    | some settings => .ok settings
    | none => .error (.malformed path (s.wording.settingsFault text))

def defaultSettingsPath (home : String) : String :=
  Host.joinPath home ".config/rigger/config.toml"

/-- The settings for a run: those at the path that was given, or else those of the user, or else
the standard ones. -/
def Surroundings.settings (s : Surroundings) (given : Option String) :
    Except SettingsError Settings :=
  match given with
  | some path => s.settingsAt path
  | none =>
    match s.home.map defaultSettingsPath with
    | some path => if s.files.isFile s.working path then s.settingsAt path else .ok {}
    | none => .ok {}

/-- The log filter for a run, and the complaints about it. A variable that is well formed counts;
otherwise the options and the settings do. -/
def Surroundings.filter (s : Surroundings) (i : Invocation) (settings : Settings) :
    LogFilter × List String :=
  match s.logVariable.bind LogFilter.ofText? with
  | some filter => (filter, [])
  | none =>
    LogFilter.ofTextLossy (if i.trace then "trace" else if i.verbose then "debug"
      else settings.log.getD "warn")

def Request.manner : Request → Manner
  | .parse .. => .print .stdout
  | .render .. => .print .stdout
  | .completions _ => .script

/-- The texts of a run before the last one: the complaints about the filter, and the lines of the
log that it shows. -/
def told {State : Type} (filter : LogFilter) (complaints : List String) (start : Standing State)
    (log : List (Noted State)) : List (Utterance State) :=
  -- The log starts after the complaints, which are printed and not logged.
  complaints.map (fun complaint => ⟨.print .stderr, complaint ++ "\n", start⟩) ++
    (log.filter fun n => filter.shows n.line).map fun n => ⟨.log, n.line.shown, n.standing⟩

def lastText (request : Request) (result : Except Failure String) : Manner × String :=
  match result with
  | .ok output => (request.manner, output)
  | .error e => (.print .stderr, failureLine e.message)

def resultCode (result : Except Failure String) : UInt8 :=
  match result with
  | .ok _ => 0
  | .error e => exitCode e.message

def Invocation.course {State : Type} (i : Invocation) (s : Surroundings) (run : Runner State)
    (state : State) : Course State :=
  match s.settings i.config with
  | .error e =>
    let (manner, text) := lastText i.request (.error (.settings e))
    { utterances := [⟨manner, text, s.untouched state⟩]
      code := resultCode (.error (.settings e))
      files := s.files
      state }
  | .ok settings =>
    let (filter, complaints) := s.filter i settings
    let finished := perform s settings run i.request state
    let (manner, text) := lastText i.request finished.result
    { utterances := told filter complaints (s.untouched state) finished.log ++
        [⟨manner, text, finished.files, finished.files, finished.state⟩]
      code := resultCode finished.result
      files := finished.files
      state := finished.state }

/-- Writes the texts of a course. A panic ends the run: on the spot if it is quiet, otherwise the
temporary directory is removed before the end. -/
def Course.write {State : Type} (c : Course State) (streams : Streams) :
    Written → List (Utterance State) → RunResult State
  | w, [] =>
    { code := c.code, stdout := w.stdout, stderr := w.stderr, files := c.files, state := c.state }
  | w, u :: rest =>
    match streams.write w u.manner u.text with
    | (w, none) => c.write streams w rest
    | (w, some panic) =>
      { code := panic.code
        stdout := w.stdout
        stderr := w.stderr
        files := if panic.isQuiet then u.standing.files else u.standing.tidied
        state := u.standing.state }

def Invocation.carryOut {State : Type} (i : Invocation) (s : Surroundings) (run : Runner State)
    (state : State) : RunResult State :=
  let course := i.course s run state
  course.write s.streams {} course.utterances

/-- One run of the program. Whether the help, the version or a complaint about the arguments can be
written makes no difference. -/
def runProgram {State : Type} (args : List String) (s : Surroundings) (run : Runner State)
    (state : State) : RunResult State :=
  -- There is no log yet, and a refused answer is dropped.
  let answer (code : UInt8) (stream : Stream) (text : String) : RunResult State :=
    let w := (s.streams.take {} stream text).1
    { code, stdout := w.stdout, stderr := w.stderr, files := s.files, state }
  match Invocation.ofArguments args with
  | .ok i => i.carryOut s run state
  | .error .help => answer 0 .stdout (s.wording.help args)
  | .error .version => answer 0 .stdout s.wording.version
  | .error .misuse => answer 2 .stderr (s.wording.misuse args)

end Deployment.CommandLine
