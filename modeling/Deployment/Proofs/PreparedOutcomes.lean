import Deployment.Host.ScriptedRunner
import Mathlib.Data.List.Basic

namespace Deployment.Host.ScriptedRunner

/-- What is prepared for a key. -/
abbrev Prepared := String × Except IoErrorKind Output

/-- Whether a key stands for a command line: the line is equal to it, or goes on after it with a
space. -/
def StandsFor (key line : String) : Prop :=
  line = key ∨ ∃ rest, line = key ++ " " ++ rest

theorem covers_iff {key line : String} : covers key line = true ↔ StandsFor key line := by
  rw [covers, Bool.or_eq_true, decide_eq_true_iff, List.isPrefixOf_iff_prefix, StandsFor]
  apply or_congr_right
  constructor
  · intro front
    obtain ⟨rest, joined⟩ := front
    refine ⟨String.ofList rest, ?_⟩
    rw [← String.toList_inj, ← joined]
    simp
  · intro longer
    obtain ⟨rest, rfl⟩ := longer
    exact ⟨rest.toList, by simp⟩

theorem StandsFor.toList_prefix {key line : String} (stands : StandsFor key line) :
    key.toList <+: line.toList := by
  rcases stands with rfl | ⟨rest, rfl⟩
  · exact List.prefix_refl _
  · exact ⟨' ' :: rest.toList, by simp⟩

private theorem eq_of_leading {k j : String} (front : k.toList <+: j.toList)
    (size : k.utf8ByteSize = j.utf8ByteSize) : k = j := by
  obtain ⟨rest, joined⟩ := front
  have whole : j = k ++ String.ofList rest := by
    rw [← String.toList_inj, ← joined]
    simp
  have nothing : (String.ofList rest).utf8ByteSize = 0 := by
    rw [whole, String.utf8ByteSize_append] at size
    omega
  rw [whole, String.utf8ByteSize_eq_zero_iff.mp nothing, String.append_empty]

theorem StandsFor.eq_of_size {k j line : String} (one : StandsFor k line)
    (other : StandsFor j line) (size : k.utf8ByteSize = j.utf8ByteSize) : k = j := by
  rcases List.prefix_or_prefix_of_prefix one.toList_prefix other.toList_prefix with shorter | longer
  · exact eq_of_leading shorter size
  · exact (eq_of_leading longer size.symm).symm

/-- Whether an outcome is what a history of preparations makes of a command line: the last one
that was prepared for the longest of the keys that stand for the line, and success without output
where there is none. -/
def Chosen (history : List Prepared) (line : String) (outcome : Except IoError Output) : Prop :=
  (outcome = .ok {} ∧ ∀ o ∈ history, ¬ StandsFor o.1 line) ∨
    ∃ key prepared, outcome = prepared.mapError .plain ∧ StandsFor key line ∧
      history.reverse.lookup key = some prepared ∧
      ∀ o ∈ history, StandsFor o.1 line → o.1 ≠ key → o.1.utf8ByteSize < key.utf8ByteSize

private theorem mem_of_lookup {entries : List Prepared} {key : String}
    {outcome : Except IoErrorKind Output} (found : entries.lookup key = some outcome) :
    (key, outcome) ∈ entries := by
  obtain ⟨before, after, rfl, _⟩ := List.lookup_eq_some_iff.mp found
  simp

theorem Chosen.unique {history : List Prepared} {line : String} {a b : Except IoError Output}
    (one : Chosen history line a) (other : Chosen history line b) : a = b := by
  rcases one with ⟨rfl, none⟩ | ⟨key, prepared, rfl, stands, found, longest⟩
  · rcases other with ⟨rfl, _⟩ | ⟨key, _, _, stands, found, _⟩
    · rfl
    · exact absurd stands (none _ (List.mem_reverse.mp (mem_of_lookup found)))
  · have member := List.mem_reverse.mp (mem_of_lookup found)
    rcases other with ⟨_, none⟩ | ⟨second, again, rfl, also, present, greatest⟩
    · exact absurd stands (none _ member)
    · have same : key = second := by
        by_contra apart
        have shorter : key.utf8ByteSize < second.utf8ByteSize := greatest _ member stands apart
        have longer : second.utf8ByteSize < key.utf8ByteSize :=
          longest _ (List.mem_reverse.mp (mem_of_lookup present)) also (Ne.symm apart)
        exact Nat.lt_asymm shorter longer
      subst same
      rw [Option.some.inj (found.symm.trans present)]

private theorem foldl_longer (first : Prepared) (rest : List Prepared) :
    rest.foldl longer first ∈ first :: rest ∧
      ∀ o ∈ first :: rest, o.1.utf8ByteSize ≤ (rest.foldl longer first).1.utf8ByteSize := by
  induction rest generalizing first with
  | nil => simp
  | cons second rest ih =>
    obtain ⟨member, greatest⟩ := ih (longer first second)
    rw [List.foldl_cons]
    -- The longer of the first two stands for both of them in what follows.
    have either : longer first second = first ∨ longer first second = second := by
      rw [longer]
      split
      · exact .inr rfl
      · exact .inl rfl
    have bounds : first.1.utf8ByteSize ≤ (longer first second).1.utf8ByteSize ∧
        second.1.utf8ByteSize ≤ (longer first second).1.utf8ByteSize := by
      rw [longer]
      split <;> omega
    have top := greatest _ List.mem_cons_self
    constructor
    · rcases List.mem_cons.mp member with same | later
      · rw [same]
        rcases either with left | right
        · rw [left]
          exact List.mem_cons_self
        · rw [right]
          exact List.mem_cons_of_mem _ List.mem_cons_self
      · exact List.mem_cons_of_mem _ (List.mem_cons_of_mem _ later)
    · intro o within
      rcases List.mem_cons.mp within with rfl | others
      · exact Nat.le_trans bounds.1 top
      rcases List.mem_cons.mp others with rfl | later
      · exact Nat.le_trans bounds.2 top
      · exact greatest o (List.mem_cons_of_mem _ later)

/-- Whether a runner keeps, in whatever order, the last of what was prepared for each key. -/
def Keeps (r : ScriptedRunner) (history : List Prepared) : Prop :=
  ∀ key outcome, (key, outcome) ∈ r.outcomes ↔ history.reverse.lookup key = some outcome

variable {r s : ScriptedRunner} {history : List Prepared}

theorem keeps_empty : Keeps {} [] := by
  intro key outcome
  simp

theorem Keeps.arranged (keeps : Keeps r history) (order : s.outcomes.Perm r.outcomes) :
    Keeps s history := by
  intro key outcome
  rw [order.mem_iff]
  exact keeps key outcome

/-- A preparation takes the place of earlier ones for its key, and of no others. -/
theorem Keeps.prepare (keeps : Keeps r history) (key : String)
    (outcome : Except IoErrorKind Output) :
    Keeps (r.prepare key outcome) (history ++ [(key, outcome)]) := by
  intro other prepared
  rw [List.reverse_append, List.reverse_singleton, List.singleton_append, List.lookup_cons]
  by_cases same : other = key
  · subst same
    simp [ScriptedRunner.prepare, eq_comm]
  · have different : (other == key) = false := by simpa using same
    simp [ScriptedRunner.prepare, same, different, keeps other prepared]

private theorem Keeps.exists_mem (keeps : Keeps r history) {o : Prepared} (member : o ∈ history) :
    ∃ prepared, (o.1, prepared) ∈ r.outcomes := by
  have present : history.reverse.lookup o.1 ≠ none := by
    intro absent
    have different := List.lookup_eq_none_iff.mp absent o (List.mem_reverse.mpr member)
    simp at different
  obtain ⟨prepared, found⟩ := Option.ne_none_iff_exists'.mp present
  exact ⟨prepared, (keeps _ _).mpr found⟩

theorem Keeps.chosen (keeps : Keeps r history) (working : Place) (command : Command)
    (files : FileTree) : Chosen history command.line (run working command files r).outcome := by
  have matches_of_stands {o : Prepared} (member : o ∈ history) (stands : StandsFor o.1 command.line) :
      ∃ prepared, (o.1, prepared) ∈ r.outcomes.filter fun o => covers o.1 command.line := by
    obtain ⟨prepared, kept⟩ := keeps.exists_mem member
    exact ⟨prepared, List.mem_filter.mpr ⟨kept, covers_iff.mpr stands⟩⟩
  simp only [run, outcomeFor?]
  cases matching : r.outcomes.filter fun o => covers o.1 command.line with
  | nil =>
    refine .inl ⟨rfl, ?_⟩
    intro o member stands
    obtain ⟨prepared, within⟩ := matches_of_stands member stands
    rw [matching] at within
    cases within
  | cons first rest =>
    obtain ⟨member, greatest⟩ := foldl_longer first rest
    rw [← matching] at member greatest
    obtain ⟨kept, covered⟩ := List.mem_filter.mp member
    refine .inr ⟨_, _, rfl, covers_iff.mp covered, (keeps _ _).mp kept, ?_⟩
    intro o earlier stands other
    obtain ⟨prepared, within⟩ := matches_of_stands earlier stands
    apply Nat.lt_of_le_of_ne (greatest _ within)
    intro size
    exact other (stands.eq_of_size (covers_iff.mp covered) size)

/-- One use of a runner: an outcome is prepared, or a command is run, on the files of that time. -/
inductive Step where
  | prepare (key : String) (outcome : Except IoErrorKind Output)
  | run (command : Command) (files : FileTree)

namespace Step

def preparations (steps : List Step) : List Prepared :=
  steps.filterMap fun
    | .prepare key outcome => some (key, outcome)
    | .run .. => none

def commands (steps : List Step) : List Command :=
  steps.filterMap fun
    | .prepare .. => none
    | .run command _ => some command

end Step

open Step (preparations commands)

/-- How steps are taken, one after the other, and what the runs among them answer. Between any two
of them the prepared outcomes may come to stand in another order. -/
inductive Uses (working : Place) :
    ScriptedRunner → List Step → List (Except IoError Output) → ScriptedRunner → Prop where
  | done {r : ScriptedRunner} : Uses working r [] [] r
  | arranged {r s last : ScriptedRunner} {steps : List Step}
      {answers : List (Except IoError Output)} (order : s.outcomes.Perm r.outcomes)
      (same : s.runs = r.runs) (later : Uses working s steps answers last) :
    Uses working r steps answers last
  | prepare {r last : ScriptedRunner} {steps : List Step} {answers : List (Except IoError Output)}
      {key : String} {outcome : Except IoErrorKind Output}
      (later : Uses working (r.prepare key outcome) steps answers last) :
    Uses working r (.prepare key outcome :: steps) answers last
  | run {r last : ScriptedRunner} {steps : List Step} {answers : List (Except IoError Output)}
      {command : Command} {files : FileTree}
      (later : Uses working (ScriptedRunner.run working command files r).state steps answers last) :
    Uses working r (.run command files :: steps)
      ((ScriptedRunner.run working command files r).outcome :: answers) last

variable {working : Place} {last : ScriptedRunner} {steps : List Step}
  {answers : List (Except IoError Output)}

theorem exists_uses (working : Place) (r : ScriptedRunner) (steps : List Step) :
    ∃ answers last, Uses working r steps answers last := by
  induction steps generalizing r with
  | nil => exact ⟨_, _, .done⟩
  | cons step steps ih =>
    cases step with
    | prepare key outcome =>
      obtain ⟨answers, last, later⟩ := ih (r.prepare key outcome)
      exact ⟨_, _, .prepare later⟩
    | run command files =>
      obtain ⟨answers, last, later⟩ := ih (ScriptedRunner.run working command files r).state
      exact ⟨_, _, .run later⟩

theorem Uses.runs (uses : Uses working r steps answers last) :
    last.runs.map (·.command) = r.runs.map (·.command) ++ commands steps ∧
      answers.length = (commands steps).length := by
  induction uses with
  | done => simp [commands]
  | arranged order same later ih => rwa [same] at ih
  | prepare later ih => simpa [commands, ScriptedRunner.prepare] using ih
  | run later ih => simpa [commands, ScriptedRunner.run] using ih

theorem Uses.chosen (uses : Uses working r steps answers last) (keeps : Keeps r history)
    {before after : List Step} {command : Command} {files : FileTree}
    (split : steps = before ++ .run command files :: after) :
    ∃ outcome, answers[(commands before).length]? = some outcome ∧
      Chosen (history ++ preparations before) command.line outcome := by
  induction uses generalizing history before with
  | done => simp at split
  | arranged order same later ih => exact ih (keeps.arranged order) split
  | prepare later ih =>
    cases before with
    | nil => cases split
    | cons step before =>
      cases split
      simpa [commands, preparations] using ih (keeps.prepare _ _) rfl
  | run later ih =>
    cases before with
    | nil =>
      cases split
      refine ⟨_, rfl, ?_⟩
      simpa [preparations] using keeps.chosen working command files
    | cons step before =>
      cases split
      simpa [commands, preparations] using ih keeps rfl

/-- However a runner keeps what is prepared, each run is answered by the last outcome that was
prepared before it for the longest key that stands for its line, there being one such key at most;
and the record has each run once, in order. -/
theorem uses_answers {working : Place} {steps : List Step} {answers : List (Except IoError Output)}
    {last : ScriptedRunner} (uses : Uses working {} steps answers last) :
    (∀ before command files after, steps = before ++ .run command files :: after →
      ∃ outcome, answers[(commands before).length]? = some outcome ∧
        ∀ o, Chosen (preparations before) command.line o ↔ o = outcome) ∧
      (∀ k j line : String, StandsFor k line → StandsFor j line →
        k.utf8ByteSize = j.utf8ByteSize → k = j) ∧
      last.runs.map (·.command) = commands steps ∧ answers.length = (commands steps).length := by
  refine ⟨?_, ?_, uses.runs⟩
  · intro before command files after split
    obtain ⟨outcome, answered, chosen⟩ := uses.chosen keeps_empty split
    refine ⟨outcome, answered, ?_⟩
    intro o
    constructor
    · intro other
      exact other.unique chosen
    · intro same
      exact same ▸ chosen
  · intro k j line one other
    exact one.eq_of_size other

/-- Two keys stand for a line, and the runner comes to keep them the other way round. -/
theorem uses_answers_arranged :
    let steps : List Step := [
      .prepare "ruby" (.ok { code := some 1 }), .prepare "ruby a" (.error .notFound),
      .run ⟨"ruby", ["a", "b"]⟩ .empty]
    ∃ answers last, Uses [] {} steps answers last ∧
      (∃ outcome, answers[0]? = some outcome ∧
        ∀ o, Chosen [("ruby", .ok { code := some 1 }), ("ruby a", .error .notFound)]
          "ruby a b" o ↔ o = outcome) ∧
      last.runs.map (·.command) = [⟨"ruby", ["a", "b"]⟩] := by
  intro steps
  let kept : ScriptedRunner := ⟨[("ruby", .ok { code := some 1 }), ("ruby a", .error .notFound)], []⟩
  have later : Uses [] kept [.run ⟨"ruby", ["a", "b"]⟩ .empty] _ _ := .run .done
  have order : kept.outcomes.Perm
      ((prepare {} "ruby" (.ok { code := some 1 })).prepare "ruby a" (.error .notFound)).outcomes :=
    List.Perm.swap _ _ _
  have uses := Uses.prepare (Uses.prepare (Uses.arranged order rfl later))
  refine ⟨_, _, uses, ?_⟩
  have facts := uses_answers uses
  refine ⟨?_, facts.2.2.1⟩
  exact facts.1 (steps.take 2) ⟨"ruby", ["a", "b"]⟩ .empty [] rfl

end Deployment.Host.ScriptedRunner
