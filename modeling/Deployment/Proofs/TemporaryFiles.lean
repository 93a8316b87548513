import Deployment.Proofs.ExitCodes
import Deployment.Proofs.Rendering

namespace Deployment.CommandLine

open Host (Command FileTree Place Runner)

variable {State : Type} {s : Surroundings} {settings : Settings} {run : Runner State}
  {state : State} {root : Place} {files : FileTree}

/-- Whether a runner leaves alone what stands below a place. -/
def Spares (run : Runner State) (root : Place) : Prop :=
  ∀ (command : Command) (files : FileTree) (state : State),
    files.SameBelow root (run command files state).files

/-- The files hold the driver script and a context in a directory made for them. -/
def Staged (s : Surroundings) (files : FileTree) : Prop :=
  ∃ settings context directory l, (s.renderer settings).prepared? s.suffixes context s.files =
    some (directory, l, files)

/-- How things may stand during a run: without the directory in use everything below a place is as
it was, and that is how the files are unless a template is about to be rendered. -/
structure Standing.Clean (s : Surroundings) (root : Place) (standing : Standing State) :
    Prop where
  tidied : s.files.SameBelow root standing.tidied
  files : standing.files = standing.tidied ∨ Staged s standing.files

theorem Standing.clean_of_same (same : s.files.SameBelow root files) :
    Standing.Clean s root ⟨files, files, state⟩ :=
  ⟨same, .inl rfl⟩

theorem Standing.clean_untouched : (s.untouched state).Clean s root :=
  clean_of_same fun _ _ => rfl

theorem sameBelow_tidied {context : EvaluationContext} {directory : String} {l : Place}
    (rooted : s.files.Rooted)
    (found : (s.renderer settings).prepared? s.suffixes context s.files =
      some (directory, l, files)) : s.files.SameBelow root (files.removeTree l) := by
  obtain ⟨made, success, written⟩ := Renderer.prepared?_eq_some found
  have temporary := Renderer.makeTemporary_ok success
  apply rooted.sameBelow_removeTree temporary.free _ fun _ _ => rfl
  intro place apart
  rw [(temporary.ready written).outside place apart, temporary.outside place apart]

theorem announced_command (context : EvaluationContext) (source target : String) :
    (s.announced settings context source target state).map (·.line.text) =
      ((s.renderer settings).render run s.suffixes source target context s.files
        state).command.toList.map fun c =>
          "rendering " ++ source ++ " -> " ++ target ++ ": " ++ c.line := by
  rw [Surroundings.announced, Renderer.command_render]
  cases (s.renderer settings).prepared? s.suffixes context s.files <;> rfl

theorem clean_announced (rooted : s.files.Rooted) (settings : Settings) (state : State)
    (context : EvaluationContext) (source target : String) :
    ∀ n ∈ s.announced settings context source target state,
      n.standing.Clean s root := by
  rw [Surroundings.announced, List.forall_mem_map]
  rintro ⟨directory, l, files⟩ found
  rw [Option.mem_toList] at found
  exact ⟨sameBelow_tidied rooted found, .inr ⟨settings, context, directory, l, found⟩⟩

/-- Whatever a command does, things stand well at every line of its log and in the end. -/
theorem clean_perform (rooted : s.files.Rooted) (spared : Spares run root) (settings : Settings)
    (request : Request) (state : State) :
    (∀ n ∈ (perform s settings run request state).log, n.standing.Clean s root) ∧
      s.files.SameBelow root (perform s settings run request state).files := by
  have kept : s.files.SameBelow root s.files := fun _ _ => rfl
  have early (events : List LogLine) :
      ∀ n ∈ events.map fun line => (⟨line, s.untouched state⟩ : Noted State),
        n.standing.Clean s root :=
    List.forall_mem_map.mpr fun _ _ => Standing.clean_untouched
  cases request with
  | parse path format => exact ⟨early _, kept⟩
  | completions shell => exact ⟨by simp [perform], kept⟩
  | render path job index source target =>
    rw [perform, render]
    obtain ⟨events, parsed⟩ := s.manifest path
    dsimp only
    cases parsed.bind fun m => instanceOf m job index with
    | error e => exact ⟨early _, kept⟩
    | ok pair =>
      have after : s.files.SameBelow root
          ((s.renderer settings).render run s.suffixes source target pair.2 s.files state).files :=
        Renderer.sameBelow_render rooted root fun call _ => spared call.command call.files state
      -- What is told before the runner starts may still find the temporary directory in place.
      have told := List.forall_mem_append.mpr
        ⟨early events, clean_announced rooted settings state pair.2 source target⟩
      dsimp only
      cases ((s.renderer settings).render run s.suffixes source target pair.2 s.files state).result
        with
      | error e => exact ⟨told, after⟩
      | ok done =>
        refine ⟨List.forall_mem_append.mpr ⟨told, ?_⟩, after⟩
        rw [List.forall_mem_singleton]
        exact Standing.clean_of_same after

theorem clean_course (rooted : s.files.Rooted) (spared : Spares run root) (i : Invocation)
    (state : State) :
    (∀ u ∈ (i.course s run state).utterances, u.standing.Clean s root) ∧
      s.files.SameBelow root (i.course s run state).files := by
  rw [Invocation.course]
  split
  · rw [List.forall_mem_singleton]
    exact ⟨Standing.clean_untouched, fun _ _ => rfl⟩
  · rename_i settings _
    obtain ⟨lines, after⟩ := clean_perform rooted spared settings i.request state
    refine ⟨List.forall_mem_append.mpr ⟨?_, ?_⟩, after⟩
    · rw [told, List.forall_mem_append, List.forall_mem_map, List.forall_mem_map]
      refine ⟨fun _ _ => Standing.clean_untouched, ?_⟩
      intro n shown
      exact lines n (List.mem_of_mem_filter shown)
    · rw [List.forall_mem_singleton]
      exact Standing.clean_of_same after

/-- A run changes nothing below a place that its runner leaves alone, unless the hook for panics ends
it on the spot while a template is about to be rendered. -/
theorem Invocation.sameBelow_carryOut (i : Invocation) (rooted : s.files.Rooted)
    (spared : Spares run root) (state : State) :
    s.files.SameBelow root (i.carryOut s run state).files ∨
      ∃ panic, i.CutOff s run state panic ∧ panic.isQuiet = true ∧
        Staged s (i.carryOut s run state).files := by
  obtain ⟨standings, after⟩ := clean_course rooted spared i state
  rcases i.heard_or_cutOff s run state with ⟨last, heard⟩ | ⟨panic, u, last, cut⟩
  · left
    rw [carryOut, heard.write_eq]
    exact after
  · obtain ⟨tidied, files⟩ := standings u cut.mem
    cases quiet : panic.isQuiet with
    | false =>
      left
      rw [carryOut, cut.write_eq, quiet]
      exact tidied
    | true =>
      rw [carryOut, cut.write_eq, quiet]
      rcases files with same | staged
      · left
        exact same ▸ tidied
      · right
        exact ⟨panic, ⟨u, last, cut⟩, quiet, staged⟩

/-- The line that announces a rendering is the one that may leave the directory behind. -/
example :
    let files : FileTree := ⟨[(["tmp"], .directory),
      (["m"], .file "name: d\njobs: [\x7bname: j, instances: 1\x7d]".toUTF8.toList false)]⟩
    let s : Surroundings := {
      files
      working := []
      suffixes := ["a"]
      logVariable := some "rigger_templates=debug"
      streams := { stderr := ⟨fun _ _ => some ⟨0, "Broken pipe (os error 32)", ""⟩⟩ } }
    let run : Runner Unit := fun _ files _ => { outcome := .ok {}, files, state := () }
    let result := runProgram ["render", "m", "--job", "j", "t.erb", "t"] s run ()
    result.code = 0 ∧ files.find? ["tmp", "rigger-erb-a"] = none ∧
      result.files.find? ["tmp", "rigger-erb-a"] = some .directory := by
  decide +kernel

end Deployment.CommandLine
