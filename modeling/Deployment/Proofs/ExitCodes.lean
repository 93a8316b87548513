import Deployment.Proofs.NormalForm
import Deployment.Proofs.RefusedTexts

/-!
What the exit code of a run tells. The code is picked by how a message begins, and messages hold
names, paths and the output of programs; but what comes first in them is always a phrase of the step
that failed, and no phrase of one step begins like that of another. So the code tells which step it
was, unless a stream refuses a text and the run is cut off.
-/

namespace Deployment

open Host (Runner)
open Yaml (Entries Value)

namespace Yaml.Printer

theorem areWritable_iff {items : List Value} :
    areWritable items = true ↔ ∀ v ∈ items, isWritable false v = true := by
  induction items with
  | nil => simp [areWritable]
  | cons v rest ih => simp [areWritable, ih]

theorem haveWritable_iff {es : Entries} :
    haveWritable es = true ↔
      ∀ e ∈ es, isWritable false e.1 = true ∧ isWritable false e.2 = true := by
  induction es with
  | nil => simp [haveWritable]
  | cons e rest ih => simp [haveWritable, ih]

end Yaml.Printer

theorem Property.isWritable_toYaml (p : Property) :
    Yaml.Printer.isWritable false p.toYaml = true := by
  induction p using inward with
  | list items ih =>
    rw [toYaml, Yaml.Printer.isWritable, Yaml.Printer.areWritable_iff, itemsToYaml_eq]
    exact List.forall_mem_map.mpr ih
  | map m ih =>
    have writable : Yaml.Printer.haveWritable (entriesToYaml m) = true := by
      rw [Yaml.Printer.haveWritable_iff, entriesToYaml_eq]
      exact List.forall_mem_map.mpr fun e member => ⟨rfl, ih e member⟩
    have named (tag : Yaml.Tag) (k v : Value) : entriesToYaml m ≠ [(.tagged tag k, v)] := by
      simp [entriesToYaml_eq, List.map_eq_singleton_iff]
    rw [toYaml, Yaml.Printer.isWritable, writable]
    · rfl
    · exact named
  | _ => rfl

namespace CommandLine

theorem exists_shownManifest (format : OutputFormat) (m : Manifest) :
    ∃ text, shownManifest format m = .ok text := by
  cases format with
  | summary => exact ⟨_, rfl⟩
  | json => exact ⟨_, rfl⟩
  | yaml =>
    rw [shownManifest, Manifest.toYamlText, Property.toYamlText, Value.print,
      if_pos (Property.isWritable_toYaml _)]
    exact ⟨_, rfl⟩

/-- The ways in which a run can end: the command succeeds, the manifest cannot be parsed, the
renderer fails, or anything else is wrong. -/
inductive Ending where
  | success
  | manifest
  | renderer
  | other
  deriving DecidableEq

def Ending.code : Ending → UInt8
  | .success => 0
  | .manifest => 2
  | .renderer => 3
  | .other => 1

theorem Ending.code_inj {ending another : Ending} (same : ending.code = another.code) :
    ending = another := by
  cases ending <;> cases another <;> first | rfl | exact absurd same (by decide)

/-- The ending that a failure means. -/
def Failure.ending : Failure → Ending
  | .manifest _ => .manifest
  | .rendering .. => .renderer
  | .settings _ | .unknownJob .. | .context _ | .unprintable .. => .other

section Message

/-- The beginnings by which messages are told apart. -/
def knownBeginnings : List String :=
  ["parsing deployment manifest", "rendering "]

theorem exitCode_eq (message : String) :
    exitCode message =
      if "parsing deployment manifest".toList <+: message.toList then 2
      else if "rendering ".toList <+: message.toList then 3 else 1 := by
  simp only [exitCode, String.startsWith_string_iff]

/-- Words that no longer can become one of the beginnings decide the code, whatever follows them. -/
theorem exitCode_of_begins {phrase message : String} (begins : phrase.toList <+: message.toList)
    (decisive : ∀ known ∈ knownBeginnings,
      known.toList <+: phrase.toList ∨ ¬ phrase.toList <+: known.toList) :
    exitCode message = exitCode phrase := by
  have same (known : String) (member : known ∈ knownBeginnings) :
      known.toList <+: message.toList ↔ known.toList <+: phrase.toList := by
    constructor
    · intro other
      rcases List.prefix_or_prefix_of_prefix other begins with inside | beyond
      · exact inside
      · exact (decisive known member).resolve_right (not_not_intro beyond)
    · intro inside
      exact inside.trans begins
  rw [exitCode_eq, exitCode_eq]
  simp only [same _ List.mem_cons_self, same _ (List.mem_cons_of_mem _ List.mem_cons_self)]

/-- The words with which messages begin, and the endings that they stand for. -/
def phrases : List (String × Ending) :=
  [("config error: ", .other), ("parsing deployment manifest '", .manifest),
    ("no job named '", .other), ("job '", .other), ("JSON serialization failed: ", .other),
    ("YAML serialization failed: ", .other), ("rendering ", .renderer)]

theorem Failure.exists_phrase (f : Failure) :
    ∃ phrase, (phrase, f.ending) ∈ phrases ∧ phrase.toList <+: f.message.toList := by
  have alone (phrase : String) : phrase.toList <+: phrase.toList := List.prefix_refl _
  cases f with
  | settings e =>
    have listed : ("config error: ", Ending.other) ∈ phrases := by decide
    refine ⟨_, listed, ?_⟩
    cases e with
    | reading path e =>
      have longer : "config error: ".toList <+: "config error: reading ".toList := by decide
      exact prefix_toList_append (prefix_toList_append (prefix_toList_append longer _) _) _
    | malformed path reason =>
      exact prefix_toList_append (prefix_toList_append (prefix_toList_append (alone _) _) _) _
  | manifest e =>
    have listed : ("parsing deployment manifest '", Ending.manifest) ∈ phrases := by decide
    refine ⟨_, listed, ?_⟩
    exact prefix_toList_append (prefix_toList_append (prefix_toList_append (alone _) _) _) _
  | unknownJob job deployment =>
    have listed : ("no job named '", Ending.other) ∈ phrases := by decide
    refine ⟨_, listed, ?_⟩
    exact prefix_toList_append (prefix_toList_append (prefix_toList_append
      (prefix_toList_append (alone _) _) _) _) _
  | context e =>
    have listed : ("job '", Ending.other) ∈ phrases := by decide
    refine ⟨_, listed, ?_⟩
    exact prefix_toList_append (prefix_toList_append (prefix_toList_append (prefix_toList_append
      (prefix_toList_append (prefix_toList_append (alone _) _) _) _) _) _) _
  | unprintable format reason =>
    have listed : (format.name ++ " serialization failed: ", Ending.other) ∈ phrases := by
      cases format <;> decide
    exact ⟨_, listed, prefix_toList_append (alone _) _⟩
  | rendering source e =>
    have listed : ("rendering ", Ending.renderer) ∈ phrases := by decide
    refine ⟨_, listed, ?_⟩
    exact prefix_toList_append (prefix_toList_append (prefix_toList_append (alone _) _) _) _

/-- The code for a message is that for the ending which the failure means, whatever texts stand in
the message. -/
theorem exitCode_message (f : Failure) : exitCode f.message = f.ending.code := by
  have decisive : ∀ p ∈ phrases, ∀ known ∈ knownBeginnings,
      known.toList <+: p.1.toList ∨ ¬ p.1.toList <+: known.toList := by decide
  have codes : ∀ p ∈ phrases, exitCode p.1 = p.2.code := by
    simp only [exitCode_eq]
    decide
  obtain ⟨phrase, listed, begins⟩ := f.exists_phrase
  rw [exitCode_of_begins begins (decisive _ listed)]
  exact codes _ listed

end Message

section Run

variable {State : Type} {s : Surroundings} {settings : Settings} {run : Runner State}
  {state : State} {request : Request} {i : Invocation} {ending : Ending}

def Surroundings.parsed (s : Surroundings) (path : String) : Except ManifestError Manifest :=
  (Manifest.parse path ((s.files.read s.working path).mapError (·.message))).2

def Request.manifest? : Request → Option String
  | .parse manifest _ => some manifest
  | .render manifest .. => some manifest
  | .completions _ => none

/-- How a request ends, by the step that settles it. -/
inductive Request.Ends (s : Surroundings) (settings : Settings) (run : Runner State)
    (state : State) : Request → Ending → Prop
  | unparsed {request : Request} {path : String} {e : ManifestError}
      (about : request.manifest? = some path) (refused : s.parsed path = .error e) :
      Ends s settings run state request .manifest
  | shown {path : String} {format : OutputFormat} {m : Manifest} (parsed : s.parsed path = .ok m) :
      Ends s settings run state (.parse path format) .success
  | unknownJob {path job source target : String} {index : UInt64} {m : Manifest}
      (parsed : s.parsed path = .ok m) (unknown : m.job? job = none) :
      Ends s settings run state (.render path job index source target) .other
  | outOfRange {path job source target : String} {index : UInt64} {m : Manifest} {j : Job}
      (parsed : s.parsed path = .ok m) (known : m.job? job = some j)
      (beyond : j.instances ≤ index) :
      Ends s settings run state (.render path job index source target) .other
  | unrendered {path job source target : String} {index : UInt64} {m : Manifest} {j : Job}
      {context : EvaluationContext} {e : RenderError}
      (parsed : s.parsed path = .ok m) (known : m.job? job = some j)
      (seen : EvaluationContext.forInstance m j index = .ok context)
      (refused : ((s.renderer settings).render run s.suffixes source target context s.files
        state).result = .error e) :
      Ends s settings run state (.render path job index source target) .renderer
  | rendered {path job source target : String} {index : UInt64} {m : Manifest} {j : Job}
      {context : EvaluationContext}
      (parsed : s.parsed path = .ok m) (known : m.job? job = some j)
      (seen : EvaluationContext.forInstance m j index = .ok context)
      (done : ((s.renderer settings).render run s.suffixes source target context s.files
        state).result = .ok ()) :
      Ends s settings run state (.render path job index source target) .success
  | completed {shell : Shell} : Ends s settings run state (.completions shell) .success

/-- How a run ends: with settings that cannot be had, or as its request does. -/
inductive Invocation.Ends (s : Surroundings) (run : Runner State) (state : State)
    (i : Invocation) : Ending → Prop
  | unset {e : SettingsError} (refused : s.settings i.config = .error e) : Ends s run state i .other
  | performed {settings : Settings} {ending : Ending} (set : s.settings i.config = .ok settings)
      (ends : i.request.Ends s settings run state ending) : Ends s run state i ending

def endingOf : Except Failure String → Ending
  | .ok _ => .success
  | .error e => e.ending

theorem result_parse {path : String} {format : OutputFormat} :
    (perform s settings run (.parse path format) state).result =
      ((s.parsed path).mapError .manifest).bind (shownManifest format) :=
  rfl

theorem result_render {path job source target : String} {index : UInt64} :
    endingOf (perform s settings run (.render path job index source target) state).result =
      match ((s.parsed path).mapError .manifest).bind fun m => instanceOf m job index with
      | .error e => e.ending
      | .ok (_, context) =>
        match ((s.renderer settings).render run s.suffixes source target context s.files
          state).result with
        | .error _ => .renderer
        | .ok _ => .success := by
  have found : (s.manifest path).2 = (s.parsed path).mapError .manifest := rfl
  rw [perform, render, ← found]
  obtain ⟨events, parsed⟩ := s.manifest path
  dsimp only
  cases parsed.bind fun m => instanceOf m job index with
  | error e => rfl
  | ok pair =>
    dsimp only
    cases (Renderer.render _ run s.suffixes source target pair.2 s.files state).result <;> rfl

theorem Request.Ends.endingOf_eq (ends : request.Ends s settings run state ending) :
    endingOf (perform s settings run request state).result = ending := by
  cases ends with
  | unparsed about refused =>
    cases request with
    | parse path format =>
      cases about
      rw [result_parse, refused]
      rfl
    | render path job index source target =>
      cases about
      rw [result_render, refused]
      rfl
    | completions shell => cases about
  | @shown path format m parsed =>
    obtain ⟨text, shown⟩ := exists_shownManifest format m
    have result : (perform s settings run (.parse path format) state).result = .ok text := by
      rw [result_parse, parsed]
      exact shown
    rw [result]
    rfl
  | unknownJob parsed unknown =>
    rw [result_render, parsed]
    simp only [Except.mapError, Except.bind, instanceOf, unknown]
    rfl
  | outOfRange parsed known beyond =>
    rw [result_render, parsed]
    simp only [Except.mapError, Except.bind, instanceOf, known,
      EvaluationContext.forInstance, if_neg (UInt64.not_lt.mpr beyond)]
    rfl
  | unrendered parsed known seen refused =>
    rw [result_render, parsed]
    simp only [Except.mapError, Except.bind, instanceOf, known, seen]
    simp only [Except.map, refused]
  | rendered parsed known seen done =>
    rw [result_render, parsed]
    simp only [Except.mapError, Except.bind, instanceOf, known, seen]
    simp only [Except.map, done]
  | completed => rfl

theorem Request.exists_ends (s : Surroundings) (settings : Settings) (run : Runner State)
    (state : State) (request : Request) : ∃ ending, request.Ends s settings run state ending := by
  cases request with
  | parse path format =>
    cases parsed : s.parsed path with
    | error e => exact ⟨_, .unparsed rfl parsed⟩
    | ok m => exact ⟨_, .shown parsed⟩
  | render path job index source target =>
    cases parsed : s.parsed path with
    | error e => exact ⟨_, .unparsed rfl parsed⟩
    | ok m =>
      cases known : m.job? job with
      | none => exact ⟨_, .unknownJob parsed known⟩
      | some j =>
        by_cases within : index < j.instances
        · have seen : ∃ context, EvaluationContext.forInstance m j index = .ok context :=
            ⟨_, if_pos within⟩
          obtain ⟨context, seen⟩ := seen
          cases done : ((s.renderer settings).render run s.suffixes source target context s.files
            state).result with
          | error e => exact ⟨_, .unrendered parsed known seen done⟩
          | ok _ => exact ⟨_, .rendered parsed known seen done⟩
        · exact ⟨_, .outOfRange parsed known (UInt64.not_lt.mp within)⟩
  | completions shell => exact ⟨_, .completed⟩

theorem Invocation.exists_ends (s : Surroundings) (run : Runner State) (state : State)
    (i : Invocation) : ∃ ending, i.Ends s run state ending := by
  cases set : s.settings i.config with
  | error e => exact ⟨_, .unset set⟩
  | ok settings =>
    obtain ⟨ending, ends⟩ := i.request.exists_ends s settings run state
    exact ⟨ending, .performed set ends⟩

theorem Invocation.Ends.code_eq (ends : i.Ends s run state ending) :
    (i.course s run state).code = ending.code := by
  cases ends with
  | @unset e refused =>
    rw [course, refused]
    exact exitCode_message (.settings e)
  | @performed settings _ set ends =>
    rw [course, set, ← ends.endingOf_eq]
    dsimp only
    cases (perform s settings run i.request state).result with
    | error e => exact exitCode_message e
    | ok output => rfl

theorem Invocation.code_eq_iff (ending : Ending) :
    (i.course s run state).code = ending.code ↔ i.Ends s run state ending := by
  constructor
  · intro same
    obtain ⟨actual, ends⟩ := i.exists_ends s run state
    rw [ends.code_eq] at same
    exact Ending.code_inj same ▸ ends
  · exact Ends.code_eq

theorem Invocation.existsUnique_ends (i : Invocation) (s : Surroundings) (run : Runner State)
    (state : State) : ∃! ending, i.Ends s run state ending := by
  obtain ⟨ending, ends⟩ := i.exists_ends s run state
  refine ⟨ending, ends, ?_⟩
  intro another other
  exact Ending.code_inj (other.code_eq.symm.trans ends.code_eq)

theorem Invocation.ends_success_iff :
    i.Ends s run state .success ↔ ∃ settings output, s.settings i.config = .ok settings ∧
      (perform s settings run i.request state).result = .ok output := by
  constructor
  · intro ends
    cases ends with
    | @performed settings _ set ends =>
      have ended := ends.endingOf_eq
      cases returned : (perform s settings run i.request state).result with
      | error e =>
        rw [returned] at ended
        cases e <;> cases ended
      | ok output => exact ⟨settings, output, set, returned⟩
  · rintro ⟨settings, output, set, returned⟩
    obtain ⟨ending, ends⟩ := i.request.exists_ends s settings run state
    have ended := ends.endingOf_eq
    rw [returned] at ended
    cases ended
    exact .performed set ends

/-- Both streams take every text of the run. -/
def Invocation.Heard (i : Invocation) (s : Surroundings) (run : Runner State) (state : State) :
    Prop :=
  ∃ last, CommandLine.Heard s.streams {} (i.course s run state).utterances last

/-- A text of the run is refused, which ends it with a panic. -/
def Invocation.CutOff (i : Invocation) (s : Surroundings) (run : Runner State) (state : State)
    (panic : Panic) : Prop :=
  ∃ u last, CommandLine.CutOff s.streams {} (i.course s run state).utterances u panic last

theorem Invocation.heard_or_cutOff (i : Invocation) (s : Surroundings) (run : Runner State)
    (state : State) : i.Heard s run state ∨ ∃ panic, i.CutOff s run state panic := by
  rcases CommandLine.heard_or_cutOff s.streams {} (i.course s run state).utterances with
    heard | ⟨u, panic, last, cut⟩
  · exact .inl heard
  · exact .inr ⟨panic, u, last, cut⟩

theorem Invocation.Heard.not_cutOff {panic : Panic} (heard : i.Heard s run state) :
    ¬ i.CutOff s run state panic := by
  rintro ⟨u, other, cut⟩
  obtain ⟨last, heard⟩ := heard
  exact heard.not_cutOff cut

theorem Invocation.Heard.code_eq (heard : i.Heard s run state) :
    (i.carryOut s run state).code = (i.course s run state).code := by
  obtain ⟨last, heard⟩ := heard
  rw [carryOut, heard.write_eq]

theorem Invocation.CutOff.code_eq {panic : Panic} (cut : i.CutOff s run state panic) :
    (i.carryOut s run state).code = panic.code := by
  obtain ⟨u, last, cut⟩ := cut
  rw [carryOut, cut.write_eq]

theorem Invocation.manner_ne_script {path : String} (about : i.request.manifest? = some path) :
    ∀ u ∈ (i.course s run state).utterances, u.manner ≠ .script := by
  have printed (result : Except Failure String) : (lastText i.request result).1 ≠ .script := by
    cases result with
    | error e => simp [lastText]
    | ok output =>
      cases request : i.request with
      | parse => simp [lastText, Request.manner]
      | render => simp [lastText, Request.manner]
      | completions shell =>
        rw [request] at about
        cases about
  intro u member
  rw [course] at member
  split at member
  · simp only [List.mem_singleton] at member
    exact member ▸ printed _
  · simp only [told, List.mem_append, List.mem_map, List.mem_singleton] at member
    rcases member with (⟨complaint, -, rfl⟩ | ⟨line, -, rfl⟩) | rfl
    · simp
    · simp
    · exact printed _

/-- What cuts off a command that reads a manifest decides the code by its stream and its words. -/
theorem Invocation.CutOff.code_of_about {path : String} {panic : Panic}
    (about : i.request.manifest? = some path) (cut : i.CutOff s run state panic) :
    ∃ stream e, panic = .printing stream e ∧
      ((i.carryOut s run state).code = 0 ↔ stream = .stdout ∨ Panic.BrokenPipe e) := by
  have code := cut.code_eq
  obtain ⟨u, last, cut⟩ := cut
  obtain ⟨stream, e, rfl⟩ := cut.exists_printing (manner_ne_script about)
  refine ⟨stream, e, rfl, ?_⟩
  rw [code, Panic.code_eq_zero_iff]
  cases stream with
  | stdout => simp [Panic.isQuiet_stdout]
  | stderr => simp [Panic.isQuiet_stderr_iff]

end Run

/-- A run whose arguments are understood ends in exactly one way, and if both streams take its texts
its code tells which: 0 if its command returns, 2 if the manifest cannot be parsed, 3 if the
renderer fails, and 1 if the settings cannot be had, the job is unknown or the index is out of
range. A manifest that is parsed can always be shown, but the message for one that cannot would have
code 1 as well: every failure has the code of its step, whatever texts stand in the message. A run
that is cut off has code 0 if its output is refused or the words of the error are those of a broken
pipe, and otherwise 101. Arguments that are not understood give 2, and questions about the program
give 0, whatever the streams do. -/
theorem runProgram_code {State : Type} (args : List String) (s : Surroundings) (run : Runner State)
    (state : State) :
    let code := (runProgram args s run state).code
    (∀ refusal, Invocation.ofArguments args = .error refusal →
      code = if refusal = .misuse then 2 else 0) ∧
    (∀ f : Failure, exitCode f.message = f.ending.code) ∧
    ∀ i, Invocation.ofArguments args = .ok i →
      (∃! ending, i.Ends s run state ending) ∧
      (i.Ends s run state .success ↔ ∃ settings output, s.settings i.config = .ok settings ∧
        (perform s settings run i.request state).result = .ok output) ∧
      (s.streams = {} → i.Heard s run state) ∧
      (i.Heard s run state ↔ ∀ panic, ¬ i.CutOff s run state panic) ∧
      (i.Heard s run state →
        (code = 0 ↔ i.Ends s run state .success) ∧ (code = 2 ↔ i.Ends s run state .manifest) ∧
        (code = 3 ↔ i.Ends s run state .renderer) ∧ (code = 1 ↔ i.Ends s run state .other)) ∧
      ∀ panic, i.CutOff s run state panic →
        (code = 0 ∨ code = 101) ∧ code = panic.code ∧
        ∀ path, i.request.manifest? = some path → ∃ stream e, panic = .printing stream e ∧
          (code = 0 ↔ stream = .stdout ∨ Panic.BrokenPipe e) := by
  intro code
  refine ⟨?_, exitCode_message, ?_⟩
  · intro refusal refused
    cases refusal <;> simp [code, runProgram, refused]
  intro i understood
  have carried : code = (i.carryOut s run state).code := by
    simp only [code, runProgram, understood]
  rw [carried]
  refine ⟨i.existsUnique_ends s run state, Invocation.ends_success_iff, ?_, ?_, ?_, ?_⟩
  · intro unlimited
    rw [Invocation.Heard, unlimited]
    exact exists_heard_unlimited _ _
  · constructor
    · intro heard panic
      exact heard.not_cutOff
    · intro whole
      rcases i.heard_or_cutOff s run state with heard | ⟨panic, cut⟩
      · exact heard
      · exact absurd cut (whole panic)
  · intro heard
    rw [heard.code_eq]
    exact ⟨Invocation.code_eq_iff .success, Invocation.code_eq_iff .manifest,
      Invocation.code_eq_iff .renderer, Invocation.code_eq_iff .other⟩
  · intro panic cut
    refine ⟨?_, cut.code_eq, fun path about => cut.code_of_about about⟩
    rw [cut.code_eq]
    exact panic.code_eq_zero_or

/-- A template whose name and whose interpreter say what a faulty manifest says, told once to
streams that take everything and once to a standard error stream that is stuck. -/
theorem runProgram_code_rendering :
    let args := ["render", "m", "--job", "j", "parsing deployment manifest", "t"]
    let i : Invocation := { request := .render "m" "j" 0 "parsing deployment manifest" "t" }
    let s (streams : Streams) : Surroundings := {
      files := ⟨[(["tmp"], .directory),
        (["m"], .file "name: d\njobs: [\x7bname: j, instances: 1\x7d]".toUTF8.toList false)]⟩
      working := []
      suffixes := ["a"]
      streams }
    let run : Runner Unit := fun _ files _ =>
      { outcome := .ok { code := some 2, stderr := "parsing deployment manifest" }
        files
        state := () }
    let stuck : Streams := { stderr := ⟨fun _ _ => some ⟨0, "Input/output error (os error 5)", ""⟩⟩ }
    Invocation.ofArguments args = .ok i ∧ (runProgram args (s {}) run ()).code = 3 ∧
      i.Ends (s {}) run () .renderer ∧ ¬ i.Ends (s {}) run () .manifest ∧
      (runProgram args (s stuck) run ()).code = 101 ∧ ∃ panic, i.CutOff (s stuck) run () panic := by
  intro args i s run stuck
  have understood : Invocation.ofArguments args = .ok i := by decide +kernel
  have code : (runProgram args (s {}) run ()).code = 3 := by decide +kernel
  have lost : (runProgram args (s stuck) run ()).code = 101 := by decide +kernel
  obtain ⟨_, _, told⟩ := runProgram_code args (s {}) run ()
  obtain ⟨_, _, unlimited, _, decided, _⟩ := told i understood
  obtain ⟨_, parsing, rendering, _⟩ := decided (unlimited rfl)
  refine ⟨understood, code, rendering.mp code, ?_, lost, ?_⟩
  · intro ends
    cases code.symm.trans (parsing.mpr ends)
  · obtain ⟨_, _, untold⟩ := runProgram_code args (s stuck) run ()
    obtain ⟨⟨ending, ends, _⟩, _, _, whole, decided, _⟩ := untold i understood
    by_contra kept
    obtain ⟨success, manifest, renderer, other⟩ := decided (whole.mpr (not_exists.mp kept))
    cases ending with
    | success => cases lost.symm.trans (success.mpr ends)
    | manifest => cases lost.symm.trans (manifest.mpr ends)
    | renderer => cases lost.symm.trans (renderer.mpr ends)
    | other => cases lost.symm.trans (other.mpr ends)

/-- The code of a faulty manifest whose failure cannot be told, because the reader of the standard
error stream is gone or because the stream is stuck, and that of a command without its manifest. -/
theorem runProgram_code_unheard :
    let s (stderr : Outlet) : Surroundings := {
      files := ⟨[(["m"], .file "name: ''".toUTF8.toList false)]⟩
      working := []
      suffixes := []
      streams := { stderr } }
    let closed : Outlet := ⟨fun _ _ => some ⟨0, "Broken pipe (os error 32)", ""⟩⟩
    let stuck : Outlet := ⟨fun _ _ => some ⟨0, "Input/output error (os error 5)", ""⟩⟩
    let i : Invocation := { request := .parse "m" .summary }
    let run : Runner Unit := fun _ files _ => { outcome := .ok {}, files, state := () }
    Invocation.ofArguments ["parse", "m"] = .ok i ∧
      (i.Ends (s closed) run () .manifest ∧ (runProgram ["parse", "m"] (s closed) run ()).code = 0) ∧
      (i.Ends (s stuck) run () .manifest ∧ (runProgram ["parse", "m"] (s stuck) run ()).code = 101) ∧
      Invocation.ofArguments ["parse"] = .error .misuse ∧
        (runProgram ["parse"] (s .unlimited) run ()).code = 2 := by
  intro s closed stuck i run
  have understood : Invocation.ofArguments ["parse", "m"] = .ok i := by decide +kernel
  have refused : Invocation.ofArguments ["parse"] = .error .misuse := by decide +kernel
  have faulty : i.Ends (s closed) run () .manifest := by
    apply (Invocation.code_eq_iff .manifest).mp
    decide +kernel
  have again : i.Ends (s stuck) run () .manifest := by
    apply (Invocation.code_eq_iff .manifest).mp
    decide +kernel
  have silent : (runProgram ["parse", "m"] (s closed) run ()).code = 0 := by decide +kernel
  have lost : (runProgram ["parse", "m"] (s stuck) run ()).code = 101 := by decide +kernel
  have misused : (runProgram ["parse"] (s .unlimited) run ()).code = 2 := by decide +kernel
  exact ⟨understood, ⟨faulty, silent⟩, ⟨again, lost⟩, refused, misused⟩

end CommandLine

end Deployment
