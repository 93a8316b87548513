import Deployment.Proofs.FileTrees
import Deployment.Proofs.Numerals
import Deployment.Template.Renderer

namespace Deployment

open Host (FileTree Place IoError Command Output Runner)
open Host.FileTree (EntryName directory_of_slash directory_put find?_put_of_ne find?_put_self
  locate_eq_ok_iff locate_of_directories makeDirectory_eq_ok_iff read_eq_ok_iff read_write
  read_write_of_ne rooted_empty)
open Outcome (bind_eq_ok bind_eq_error map_eq_ok mapError_eq_ok mapError_eq_error)

namespace Host

/-- A command that a runner was given, and the files of that time. -/
structure Call where
  command : Command
  files : FileTree

/-- The runner that also keeps the calls it gets, in order. -/
def Runner.recorded {State : Type} (run : Runner State) : Runner (State × List Call) :=
  fun command files s =>
    let ran := run command files s.1
    { outcome := ran.outcome
      files := ran.files
      state := (ran.state, s.2 ++ [⟨command, files⟩]) }

end Host

namespace Renderer

variable {r : Renderer} {files made prepared : FileTree} {suffixes : List String}
  {directory source target text : String} {l : Place} {context : EvaluationContext}
  {e : RenderError} {command : Command}

section Directory

/-- What is known of a temporary directory when it is made. -/
structure Made (r : Renderer) (files : FileTree) (suffixes : List String) (directory : String)
    (l : Place) (made : FileTree) : Prop where
  named : ∃ suffix ∈ suffixes, directory = Host.joinPath r.root (directoryName suffix)
  led : files.locate r.working directory = .ok l
  made : files.makeDirectory l = .ok made

theorem makeDirectoryAt_eq_ok_iff :
    r.makeDirectoryAt files directory = .ok (l, made) ↔
      files.locate r.working directory = .ok l ∧ files.makeDirectory l = .ok made := by
  rw [makeDirectoryAt]
  apply bind_eq_ok.trans
  simp [map_eq_ok, mapError_eq_ok]

theorem makeTemporary_ok (success : r.makeTemporary files suffixes = .ok (directory, l, made)) :
    Made r files suffixes directory l made := by
  induction suffixes with
  | nil => cases success
  | cons suffix rest ih =>
    rw [makeTemporary] at success
    split at success
    · rename_i first
      cases success
      obtain ⟨led, made⟩ := makeDirectoryAt_eq_ok_iff.mp first
      exact ⟨⟨suffix, List.mem_cons_self, rfl⟩, led, made⟩
    · split at success
      · obtain ⟨⟨other, later, named⟩, led, made⟩ := ih success
        exact ⟨⟨other, List.mem_cons_of_mem _ later, named⟩, led, made⟩
      · cases success

theorem makeTemporary_error (failure : r.makeTemporary files suffixes = .error e) :
    ∃ path fault, e = .directory path fault := by
  induction suffixes with
  | nil =>
    cases failure
    exact ⟨_, _, rfl⟩
  | cons suffix rest ih =>
    rw [makeTemporary] at failure
    split at failure
    · cases failure
    · split at failure
      · exact ih failure
      · cases failure
        exact ⟨_, _, rfl⟩

namespace Made

variable (m : Made r files suffixes directory l made)
include m

theorem free : files.find? l = none :=
  (makeDirectory_eq_ok_iff.mp m.made).1

theorem eq_put : made = files.put l .directory :=
  (makeDirectory_eq_ok_iff.mp m.made).2.2

theorem below_root : l ≠ [] := by
  intro top
  have free := m.free
  subst top
  cases free

theorem outside (place : Place) (apart : ¬ l <+: place) : made.find? place = files.find? place := by
  have other : place ≠ l := by
    intro same
    exact apart (same ▸ List.prefix_refl l)
  rw [m.eq_put, find?_put_of_ne files _ other]

theorem opens : made.Opens r.working directory l := by
  constructor
  · apply locate_of_directories _ m.led
    rw [m.eq_put]
    apply directory_put
    simp [m.free]
  · rw [m.eq_put, find?_put_self files _ m.below_root]

theorem joinPath_entry {name : String} (simple : EntryName name) :
    Host.joinPath directory name = directory ++ "/" ++ name := by
  have present : directory ≠ "" := (locate_eq_ok_iff.mp m.led).2.1
  apply Host.FileTree.joinPath_entry present _ simple
  rw [Bool.eq_false_iff]
  intro ends
  have stood := directory_of_slash m.led ends
  rw [m.free] at stood
  cases stood

end Made

end Directory

section Files

theorem entryName_script : EntryName scriptName := by
  constructor <;> decide

theorem entryName_context : EntryName contextName := by
  constructor <;> decide

theorem Made.prepare_eq_ok_iff (m : Made r files suffixes directory l made) :
    r.prepare made directory context = .ok prepared ↔
      ∃ middle,
        made.write r.working (directory ++ "/" ++ scriptName) DriverScript.text.toUTF8.toList =
          .ok middle ∧
        middle.write r.working (directory ++ "/" ++ contextName)
          context.toProperty.toJsonPretty.toUTF8.toList = .ok prepared := by
  rw [prepare]
  apply bind_eq_ok.trans
  simp only [writeIn, mapError_eq_ok, m.joinPath_entry entryName_script,
    m.joinPath_entry entryName_context]

theorem writeIn_error {name : String} (failure : r.writeIn files directory name text = .error e) :
    ∃ path fault, e = .write path fault := by
  rw [writeIn, mapError_eq_error] at failure
  obtain ⟨fault, _, rfl⟩ := failure
  exact ⟨_, _, rfl⟩

theorem prepare_error (failure : r.prepare files directory context = .error e) :
    ∃ path fault, e = .write path fault := by
  rcases bind_eq_error.mp failure with first | ⟨middle, _, second⟩
  · exact writeIn_error first
  · exact writeIn_error second

/-- What is known of the files when a template is about to be rendered: both texts are read at
their paths, and nothing has changed outside the directory. -/
structure Ready (r : Renderer) (made : FileTree) (directory : String) (l : Place)
    (context : EvaluationContext) (prepared : FileTree) : Prop where
  script : prepared.read r.working (directory ++ "/" ++ scriptName) =
    .ok DriverScript.text.toUTF8.toList
  context : prepared.read r.working (directory ++ "/" ++ contextName) =
    .ok context.toProperty.toJsonPretty.toUTF8.toList
  outside : ∀ m, ¬ l <+: m → prepared.find? m = made.find? m

theorem Made.ready (m : Made r files suffixes directory l made)
    (success : r.prepare made directory context = .ok prepared) :
    Ready r made directory l context prepared := by
  obtain ⟨middle, first, second⟩ := m.prepare_eq_ok_iff.mp success
  obtain ⟨found, bare, executable, rfl⟩ := m.opens.write_entry entryName_script first
  have opens := m.opens.put bare (.file DriverScript.text.toUTF8.toList executable)
  have kept := locate_of_directories
    (directory_put (e := .file DriverScript.text.toUTF8.toList executable) bare) found
  obtain ⟨other, _, _, rfl⟩ := opens.write_entry entryName_context second
  refine ⟨?_, read_write second, ?_⟩
  · apply read_write_of_ne second _ (read_write first)
    rw [other, kept]
    intro same
    exact absurd (List.append_cancel_left (Except.ok.inj same)) (by decide)
  · intro place outside
    have different (name : String) : place ≠ l ++ [name] := by
      intro same
      exact outside (same ▸ List.prefix_append l [name])
    rw [find?_put_of_ne _ _ (different _),
      find?_put_of_ne _ _ (different _)]

/-- Both files can be made in a new directory exactly if their paths are not too long. -/
theorem Made.exists_prepare_iff (m : Made r files suffixes directory l made)
    (rooted : files.Rooted) :
    (∃ prepared, r.prepare made directory context = .ok prepared) ↔
      (directory ++ "/" ++ contextName).utf8ByteSize < 4096 := by
  constructor
  · intro success
    obtain ⟨prepared, success⟩ := success
    obtain ⟨_, _, found, _⟩ := read_eq_ok_iff.mp (m.ready success).context
    exact (locate_eq_ok_iff.mp found).2.2.1
  · intro short
    have shorter : (directory ++ "/" ++ scriptName).utf8ByteSize < 4096 := by
      have sizes : scriptName.utf8ByteSize ≤ contextName.utf8ByteSize := by decide
      rw [String.utf8ByteSize_append] at short ⊢
      omega
    have free (name : String) : made.find? (l ++ [name]) = none := by
      rw [m.eq_put, find?_put_of_ne _ _ (by simp)]
      exact rooted.free_below (by simp [m.free]) (List.prefix_append l [name]) (by simp)
    have first := m.opens.write_new entryName_script shorter (free _) DriverScript.text.toUTF8.toList
    have bare : made.find? (l ++ [scriptName]) ≠ some .directory := by simp [free]
    have opens := m.opens.put bare (.file DriverScript.text.toUTF8.toList false)
    have apart : l ++ [contextName] ≠ l ++ [scriptName] := by simp [scriptName, contextName]
    have second := opens.write_new entryName_context short
      (by rw [find?_put_of_ne _ _ apart, free])
      context.toProperty.toJsonPretty.toUTF8.toList
    exact ⟨_, m.prepare_eq_ok_iff.mpr ⟨_, first, second⟩⟩

end Files

section Verdict

/-- What the outcome of a command makes of a rendering. -/
inductive Verdict (r : Renderer) (command : Command) :
    Except IoError Output → Except RenderError Unit → Prop
  | succeeded {output : Output} (zero : output.code = some 0) :
    Verdict r command (.ok output) (.ok ())
  | unstarted {fault : IoError} :
    Verdict r command (.error fault) (.error (.start r.interpreter fault))
  | exited {output : Output} {code : Int} {stderr : String} (ended : output.code = some code)
      (nonzero : code ≠ 0) (trimmed : Text.Trimmed output.stderr.toList stderr.toList) :
    Verdict r command (.ok output)
      (.error (.command command.line ("exit code " ++ toString code) stderr))
  | killed {output : Output} {stderr : String} (ended : output.code = none)
      (trimmed : Text.Trimmed output.stderr.toList stderr.toList) :
    Verdict r command (.ok output) (.error (.command command.line "signal" stderr))

theorem verdict_iff {outcome : Except IoError Output} {result : Except RenderError Unit} :
    Verdict r command outcome result ↔ r.judge command outcome = result := by
  constructor
  · intro verdict
    cases verdict with
    | succeeded zero => simp [judge, Output.success, zero]
    | unstarted => rfl
    | exited ended nonzero trimmed =>
      simp [judge, Output.success, Output.statusText, ended, nonzero,
        Text.trimmed_toList_iff.mp trimmed, Decimal.ofInt_eq_toString]
    | killed ended trimmed =>
      simp [judge, Output.success, Output.statusText, ended, Text.trimmed_toList_iff.mp trimmed]
  · intro same
    subst same
    cases outcome with
    | error fault => exact .unstarted
    | ok output =>
      have trimmed := Text.trimmed_toList_iff.mpr (rfl : Text.trimString output.stderr = _)
      cases ended : output.code with
      | none =>
        simpa [judge, Output.success, Output.statusText, ended] using
          Verdict.killed ended trimmed
      | some code =>
        by_cases zero : code = 0
        · subst zero
          simpa [judge, Output.success, ended] using Verdict.succeeded ended
        · simpa [judge, Output.success, Output.statusText, ended, zero,
            Decimal.ofInt_eq_toString] using Verdict.exited ended zero trimmed

end Verdict

section Render

variable {State : Type} {run : Runner State} {state : State}

theorem render_of_refused (failure : r.makeTemporary files suffixes = .error e) :
    r.render run suffixes source target context files state =
      { command := none, result := .error e, files, state } := by
  simp only [render, failure]

theorem render_of_unwritten
    (success : r.makeTemporary files suffixes = .ok (directory, l, made))
    (failure : r.prepare made directory context = .error e) :
    r.render run suffixes source target context files state =
      { command := none, result := .error e, files := made.removeTree l, state } := by
  simp only [render, renderIn, success, failure]

theorem render_of_prepared (success : r.makeTemporary files suffixes = .ok (directory, l, made))
    (written : r.prepare made directory context = .ok prepared) :
    r.render run suffixes source target context files state =
      let command := r.commandIn directory source target
      let ran := run command prepared state
      { command := some command
        result := r.judge command ran.outcome
        files := ran.files.removeTree l
        state := ran.state } := by
  simp only [render, renderIn, success, written]

theorem prepared?_eq_some
    (found : r.prepared? suffixes context files = some (directory, l, prepared)) :
    ∃ made, r.makeTemporary files suffixes = .ok (directory, l, made) ∧
      r.prepare made directory context = .ok prepared := by
  rw [prepared?] at found
  split at found
  · cases found
  · rename_i other place made success
    obtain ⟨after, written, same⟩ := Option.map_eq_some_iff.mp found
    cases same
    cases outcome : r.prepare made directory context with
    | error e => simp [outcome, Except.toOption] at written
    | ok after =>
      simp only [outcome, Except.toOption, Option.some.injEq] at written
      exact ⟨made, success, written ▸ outcome⟩

theorem command_render : (r.render run suffixes source target context files state).command =
    (r.prepared? suffixes context files).map fun p => r.commandIn p.1 source target := by
  rw [prepared?]
  cases success : r.makeTemporary files suffixes with
  | error e => rw [render_of_refused success]; rfl
  | ok temporary =>
    obtain ⟨directory, l, made⟩ := temporary
    cases written : r.prepare made directory context with
    | error e => simp [render_of_unwritten success written, written, Except.toOption]
    | ok prepared => simp [render_of_prepared success written, written, Except.toOption]

/-- Keeping the calls changes nothing else. -/
theorem render_recorded (r : Renderer) (run : Runner State) (suffixes : List String)
    (source target : String) (context : EvaluationContext) (files : FileTree) (state : State)
    (calls : List Host.Call) :
    let recorded := r.render run.recorded suffixes source target context files (state, calls)
    let plain := r.render run suffixes source target context files state
    recorded.command = plain.command ∧ recorded.result = plain.result ∧
      recorded.files = plain.files ∧ recorded.state.1 = plain.state := by
  intro recorded plain
  simp only [recorded, plain]
  cases success : r.makeTemporary files suffixes with
  | error e =>
    rw [render_of_refused success, render_of_refused success]
    exact ⟨rfl, rfl, rfl, rfl⟩
  | ok temporary =>
    obtain ⟨directory, l, made⟩ := temporary
    cases written : r.prepare made directory context with
    | error e =>
      rw [render_of_unwritten success written, render_of_unwritten success written]
      exact ⟨rfl, rfl, rfl, rfl⟩
    | ok prepared =>
      rw [render_of_prepared success written, render_of_prepared success written]
      exact ⟨rfl, rfl, rfl, rfl⟩

theorem rooted_render (rooted : files.Rooted)
    (kept : ∀ command files state, files.Rooted → (run command files state).files.Rooted) :
    (r.render run suffixes source target context files state).files.Rooted := by
  cases success : r.makeTemporary files suffixes with
  | error e =>
    rw [render_of_refused success]
    exact rooted
  | ok temporary =>
    obtain ⟨directory, l, made⟩ := temporary
    have temporary := makeTemporary_ok success
    have entered := rooted.makeDirectory temporary.made
    cases written : r.prepare made directory context with
    | error e =>
      rw [render_of_unwritten success written]
      exact entered.removeTree l
    | ok prepared =>
      rw [render_of_prepared success written]
      obtain ⟨middle, first, second⟩ := temporary.prepare_eq_ok_iff.mp written
      exact (kept _ _ _ ((entered.write first).write second)).removeTree l

/-- Rendering changes nothing below a place that the runner leaves alone. -/
theorem sameBelow_render (rooted : files.Rooted) (root : Place)
    (spared : ∀ call ∈
        (r.render run.recorded suffixes source target context files (state, [])).state.2,
      call.files.SameBelow root (run call.command call.files state).files) :
    files.SameBelow root (r.render run suffixes source target context files state).files := by
  cases success : r.makeTemporary files suffixes with
  | error e =>
    rw [render_of_refused success]
    exact fun _ _ => rfl
  | ok temporary =>
    obtain ⟨directory, l, made⟩ := temporary
    have temporary := makeTemporary_ok success
    cases written : r.prepare made directory context with
    | error e =>
      rw [render_of_unwritten success written]
      exact rooted.sameBelow_removeTree temporary.free temporary.outside fun _ _ => rfl
    | ok prepared =>
      rw [render_of_prepared success written] at spared ⊢
      apply rooted.sameBelow_removeTree temporary.free _ (spared _ List.mem_cons_self)
      intro place apart
      rw [(temporary.ready written).outside place apart, temporary.outside place apart]

end Render

end Renderer

end Deployment
