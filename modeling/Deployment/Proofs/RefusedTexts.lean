import Deployment.CommandLine.Session

namespace Deployment.CommandLine

/-- Every text is written, and the streams hold so much in the end. -/
inductive Heard {State : Type} (streams : Streams) :
    Written → List (Utterance State) → Written → Prop where
  | done {w : Written} : Heard streams w [] w
  | next {w next last : Written} {u : Utterance State} {us : List (Utterance State)}
      (taken : streams.write w u.manner u.text = (next, none))
      (rest : Heard streams next us last) : Heard streams w (u :: us) last

/-- One text is refused after others that were written, and the streams hold so much then. -/
inductive CutOff {State : Type} (streams : Streams) :
    Written → List (Utterance State) → Utterance State → Panic → Written → Prop where
  | here {w last : Written} {u : Utterance State} {us : List (Utterance State)} {panic : Panic}
      (refused : streams.write w u.manner u.text = (last, some panic)) :
      CutOff streams w (u :: us) u panic last
  | later {w next last : Written} {u v : Utterance State} {us : List (Utterance State)}
      {panic : Panic} (taken : streams.write w u.manner u.text = (next, none))
      (rest : CutOff streams next us v panic last) : CutOff streams w (u :: us) v panic last

section Course

variable {State : Type} {streams : Streams} {w last : Written} {u v : Utterance State}
  {us : List (Utterance State)} {panic : Panic}

theorem heard_or_cutOff (streams : Streams) (w : Written) (us : List (Utterance State)) :
    (∃ last, Heard streams w us last) ∨ ∃ u panic last, CutOff streams w us u panic last := by
  induction us generalizing w with
  | nil => exact .inl ⟨w, .done⟩
  | cons u us ih =>
    cases written : streams.write w u.manner u.text with
    | mk next refusal =>
      cases refusal with
      | some panic => exact .inr ⟨u, panic, next, .here written⟩
      | none =>
        rcases ih next with ⟨last, rest⟩ | ⟨v, panic, last, rest⟩
        · exact .inl ⟨last, .next written rest⟩
        · exact .inr ⟨v, panic, last, .later written rest⟩

theorem Heard.not_cutOff {other : Written} (heard : Heard streams w us last) :
    ¬ CutOff streams w us v panic other := by
  intro cut
  induction heard with
  | done => cases cut
  | next taken rest ih =>
    cases cut with
    | here refused => cases taken.symm.trans refused
    | later again cut =>
      cases taken.symm.trans again
      exact ih cut

theorem Heard.write_eq (heard : Heard streams w us last) (c : Course State) :
    c.write streams w us =
      { code := c.code, stdout := last.stdout, stderr := last.stderr, files := c.files,
        state := c.state } := by
  induction heard with
  | done => rfl
  | next taken rest ih =>
    simp only [Course.write, taken]
    exact ih

/-- A run that is cut off leaves things as they stood at the refused text. -/
theorem CutOff.write_eq (cut : CutOff streams w us u panic last) (c : Course State) :
    c.write streams w us =
      { code := panic.code, stdout := last.stdout, stderr := last.stderr,
        files := if panic.isQuiet then u.standing.files else u.standing.tidied,
        state := u.standing.state } := by
  induction cut with
  | here refused => simp only [Course.write, refused]
  | later taken rest ih =>
    simp only [Course.write, taken]
    exact ih

theorem CutOff.mem (cut : CutOff streams w us u panic last) : u ∈ us := by
  induction cut with
  | here => exact List.mem_cons_self
  | later _ _ ih => exact List.mem_cons_of_mem _ ih

theorem CutOff.exists_refused (cut : CutOff streams w us u panic last) :
    ∃ before, streams.write before u.manner u.text = (last, some panic) := by
  induction cut with
  | here refused => exact ⟨_, refused⟩
  | later _ _ ih => exact ih

theorem Streams.take_unlimited (w : Written) (stream : Stream) (text : String) :
    (({} : Streams).take w stream text).2 = none := by
  cases stream <;> rfl

theorem exists_heard_unlimited (w : Written) (us : List (Utterance State)) :
    ∃ last, Heard {} w us last := by
  rcases heard_or_cutOff {} w us with heard | ⟨u, panic, last, cut⟩
  · exact heard
  · obtain ⟨before, refused⟩ := cut.exists_refused
    have fault := congrArg Prod.snd refused
    cases manner : u.manner with
    | print stream => simp [manner, Streams.write, Streams.take_unlimited] at fault
    | log => simp [manner, Streams.write, Streams.take, Outlet.take, Outlet.unlimited] at fault
    | script => simp [manner, Streams.write, Streams.take_unlimited] at fault

/-- Only the script for a shell is refused without a word about a stream. -/
theorem CutOff.exists_printing (cut : CutOff streams w us u panic last)
    (printed : ∀ u ∈ us, u.manner ≠ .script) : ∃ stream e, panic = .printing stream e := by
  obtain ⟨before, refused⟩ := cut.exists_refused
  have fault := congrArg Prod.snd refused
  cases manner : u.manner with
  | print stream =>
    simp only [manner, Streams.write, Option.map_eq_some_iff] at fault
    obtain ⟨e, -, rfl⟩ := fault
    exact ⟨stream, e, rfl⟩
  | log =>
    simp only [manner, Streams.write] at fault
    split at fault
    · cases fault
    · simp only [Option.map_eq_some_iff] at fault
      obtain ⟨e, -, rfl⟩ := fault
      exact ⟨.stderr, e, rfl⟩
  | script => exact absurd manner (printed u cut.mem)

end Course

theorem prefix_toList_append {phrase front : String} (begins : phrase.toList <+: front.toList)
    (rest : String) : phrase.toList <+: (front ++ rest).toList := by
  rw [String.toList_append]
  exact begins.trans (List.prefix_append _ _)

namespace Panic

variable {panic : Panic}

theorem occursIn_iff {word text : List Char} : occursIn word text = true ↔ word <:+: text := by
  induction text with
  | nil => simp [occursIn]
  | cons c rest ih => simp [occursIn, ih, List.infix_cons_iff]

/-- The words of an error by which a pipe without a reader is known. -/
def BrokenPipe (e : WriteError) : Prop :=
  ∃ word ∈ quietWords, word.toList <:+: e.message.toList

theorem isQuiet_iff :
    panic.isQuiet = true ↔ ∃ word ∈ quietWords, occursIn word.toList panic.message.toList = true := by
  rw [isQuiet, List.any_eq_true]

theorem isQuiet_stdout (e : WriteError) : (printing .stdout e).isQuiet = true := by
  have listed : "failed printing to stdout" ∈ quietWords := by simp [quietWords]
  have begins : "failed printing to stdout".toList <+:
      ("failed printing to " ++ Stream.stdout.name).toList := by decide
  have within : "failed printing to stdout".toList <:+: (printing .stdout e).message.toList :=
    (prefix_toList_append (prefix_toList_append begins _) _).isInfix
  exact isQuiet_iff.mpr ⟨_, listed, occursIn_iff.mpr within⟩

theorem toList_message_stderr (e : WriteError) :
    (printing .stderr e).message.toList =
      "failed printing to stderr: ".toList ++ e.message.toList := by
  have front : "failed printing to " ++ Stream.stderr.name ++ ": " =
      "failed printing to stderr: " := by decide
  rw [← String.toList_append, ← front]
  rfl

/-- No word of the hook begins within what stands before the error. -/
theorem occursIn_stderr {word : String} (listed : word ∈ quietWords) (rest : List Char) :
    occursIn word.toList ("failed printing to stderr: ".toList ++ rest) =
      occursIn word.toList rest := by
  simp only [quietWords, List.mem_cons, List.not_mem_nil, or_false] at listed
  rcases listed with rfl | rfl | rfl | rfl <;> simp [occursIn, List.isPrefixOf]

theorem isQuiet_stderr_iff (e : WriteError) :
    (printing .stderr e).isQuiet = true ↔ BrokenPipe e := by
  rw [isQuiet_iff, toList_message_stderr]
  constructor
  · rintro ⟨word, listed, occurs⟩
    rw [occursIn_stderr listed, occursIn_iff] at occurs
    exact ⟨word, listed, occurs⟩
  · rintro ⟨word, listed, within⟩
    rw [← occursIn_iff, ← occursIn_stderr listed] at within
    exact ⟨word, listed, within⟩

theorem code_eq_zero_iff : panic.code = 0 ↔ panic.isQuiet = true := by
  cases quiet : panic.isQuiet <;> simp [code, quiet]

theorem code_eq_zero_or (panic : Panic) : panic.code = 0 ∨ panic.code = 101 := by
  cases quiet : panic.isQuiet <;> simp [code, quiet]

end Panic

end Deployment.CommandLine
