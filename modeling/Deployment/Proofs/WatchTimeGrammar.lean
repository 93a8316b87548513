import Deployment.Proofs.WatchTimes

namespace Deployment

namespace Decimal

private theorem digitIn_ten (c : Char) :
    digitIn 10 c = if isDigit c then some (c.toNat - 48) else none := by
  by_cases digit : 48 ≤ c.toNat ∧ c.toNat ≤ 57
  · have small : c.toNat - 48 < 10 := by omega
    simp [digitIn, digitValue, isDigit, digit, small]
  · have letter : ∀ d, digitValue c = some d → ¬ d < 10 := by
      intro d found
      simp only [digitValue, if_neg digit] at found
      split at found
      · have value := Option.some.inj found
        omega
      · split at found
        · have value := Option.some.inj found
          omega
        · cases found
    rw [digitIn, Option.filter_eq_none_iff.mpr (by simpa using letter), isDigit]
    simpa using digit

private theorem readFrom_eq_some_iff {cs : List Char} {sofar n : Nat} :
    readFrom 10 sofar cs = some n ↔
      (∀ c ∈ cs, isDigit c) ∧ cs.foldl (fun sofar c => sofar * 10 + (c.toNat - 48)) sofar = n := by
  induction cs generalizing sofar with
  | nil => simp [readFrom]
  | cons c rest ih =>
    rw [readFrom, digitIn_ten]
    by_cases digit : isDigit c <;> simp [digit, ih]

theorem read_eq_some_iff {cs : List Char} {n : Nat} :
    read 10 cs = some n ↔ cs ≠ [] ∧ (∀ c ∈ cs, isDigit c) ∧ value cs = n := by
  cases cs with
  | nil => simp [read]
  | cons c rest =>
    rw [read, List.isEmpty_cons, if_neg Bool.false_ne_true, readFrom_eq_some_iff]
    simp [value]

end Decimal

namespace WatchTime

/-- Whether a text spells a number of 64 bits: one or more decimal digits, with a plus sign before
them or without. -/
def Numeral (t : List Char) (n : UInt64) : Prop :=
  ∃ sign ds, t = sign ++ ds ∧ (sign = [] ∨ sign = ['+']) ∧ ds ≠ [] ∧
    (∀ c ∈ ds, Decimal.isDigit c) ∧ Decimal.value ds = n.toNat

/-- Whether a text, blanks at its ends aside, spells a bound. -/
def Bound (cs : List Char) (n : UInt64) : Prop :=
  ∃ t, Text.Trimmed cs t ∧ Numeral t n

/-- The two sides of a text with exactly one hyphen. -/
def Halves (cs left right : List Char) : Prop :=
  left ++ '-' :: right = cs ∧ '-' ∉ left ∧ '-' ∉ right

/-- The first side of a text that is no bound. A text without a hyphen has only itself. -/
inductive FirstUnbound : List Char → List Char → Prop where
  | whole {cs : List Char} (single : '-' ∉ cs) (unbound : ∀ n, ¬ Bound cs n) : FirstUnbound cs cs
  | left {cs left right : List Char} (halves : Halves cs left right)
      (unbound : ∀ n, ¬ Bound left n) : FirstUnbound cs left
  | right {cs left right : List Char} {a : UInt64} (halves : Halves cs left right)
      (bound : Bound left a) (unbound : ∀ n, ¬ Bound right n) : FirstUnbound cs right

/-- The part by which an unbound side of an expression is reported: the side without the blanks
at its ends, or the expression without them where the side is blank. -/
inductive Named (expression : String) (side : List Char) (part : String) : Prop where
  | whole (blank : ∀ c ∈ side, Text.isBlank c)
      (trimmed : Text.Trimmed expression.toList part.toList) : Named expression side part
  | side (solid : ¬ ∀ c ∈ side, Text.isBlank c) (trimmed : Text.Trimmed side part.toList) :
    Named expression side part

/-- What an expression means: an interval, or what is wrong with it. -/
inductive Means (s : String) : Except WatchTimeError WatchTime → Prop where
  | stop {n : UInt64} (single : '-' ∉ s.toList) (bound : Bound s.toList n) : Means s (.ok ⟨0, n⟩)
  | interval {left right : List Char} {a b : UInt64} (halves : Halves s.toList left right)
      (start : Bound left a) (stop : Bound right b) (forward : a ≤ b) : Means s (.ok ⟨a, b⟩)
  | inverted {left right : List Char} {a b : UInt64} (halves : Halves s.toList left right)
      (start : Bound left a) (stop : Bound right b) (backward : b < a) :
      Means s (.error (.inverted a b))
  | tooManyBounds (hyphens : 2 ≤ s.toList.count '-') : Means s (.error (.tooManyBounds s))
  | malformed {side : List Char} {part : String} (first : FirstUnbound s.toList side)
      (named : Named s side part) : Means s (.error (.malformed s part))

private theorem fitting_eq_some_iff {m : List Char} {n : UInt64} :
    ((Decimal.read 10 m).filter (· < 0x10000000000000000)).map UInt64.ofNat = some n ↔
      Decimal.read 10 m = some n.toNat := by
  have fits : n.toNat < 0x10000000000000000 := n.toNat_lt
  cases Decimal.read 10 m with
  | none => simp
  | some k =>
    by_cases small : k < 0x10000000000000000
    · simp [Option.filter, small, ← UInt64.toNat_inj, Nat.mod_eq_of_lt small]
    · have other : k ≠ n.toNat := by omega
      simp [Option.filter, small, other]

private theorem readBound_eq_some_iff {t : List Char} {n : UInt64} :
    readBound t = some n ↔ Numeral t n := by
  unfold readBound
  dsimp only
  rw [fitting_eq_some_iff, Decimal.read_eq_some_iff]
  constructor
  · intro spelled
    split at spelled
    · exact ⟨['+'], _, rfl, .inr rfl, spelled⟩
    · exact ⟨[], t, rfl, .inl rfl, spelled⟩
  · intro numeral
    obtain ⟨sign, ds, rfl, unsigned | signed, spelled⟩ := numeral
    · subst unsigned
      -- Digits that stand alone do not begin with a sign.
      split
      · rename_i rest plus
        rw [List.nil_append] at plus
        have digit : Decimal.isDigit '+' = true := spelled.2.1 _ (plus ▸ List.mem_cons_self)
        cases digit
      · exact spelled
    · subst signed
      exact spelled

private theorem bound_iff_readBound {side : List Char} {n : UInt64} :
    Bound side n ↔ readBound (Text.trim side) = some n := by
  rw [readBound_eq_some_iff]
  constructor
  · intro spelled
    obtain ⟨t, trimmed, numeral⟩ := spelled
    rwa [← trimmed.eq_trim]
  · intro numeral
    exact ⟨_, Text.trimmed_trim side, numeral⟩

theorem bound_eq_ok_iff {expression : String} {side : List Char} {n : UInt64} :
    bound expression side = .ok n ↔ Bound side n := by
  rw [bound_iff_readBound, bound]
  cases readBound (Text.trim side) with
  | none => simp
  | some m => simp

theorem named_iff {expression part : String} {side : List Char} :
    Named expression side part ↔ part =
      if (Text.trim side).isEmpty then Text.trimString expression
      else String.ofList (Text.trim side) := by
  have blank_iff : (∀ c ∈ side, Text.isBlank c) ↔ (Text.trim side).isEmpty := by
    rw [← Text.trimmed_nil_iff, Text.trimmed_iff, List.isEmpty_iff, eq_comm]
  have whole_iff : Text.Trimmed side part.toList ↔ part = String.ofList (Text.trim side) := by
    rw [Text.trimmed_iff, ← String.toList_inj, String.toList_ofList]
  constructor
  · intro named
    cases named with
    | whole blank trimmed =>
      rw [if_pos (blank_iff.mp blank)]
      exact Text.trimmed_toList_iff.mp trimmed
    | side solid trimmed =>
      rw [if_neg (fun empty => solid (blank_iff.mpr empty))]
      exact whole_iff.mp trimmed
  · intro same
    split at same
    · rename_i empty
      exact .whole (blank_iff.mpr empty) (Text.trimmed_toList_iff.mpr same)
    · rename_i present
      exact .side (fun blank => present (blank_iff.mp blank)) (whole_iff.mpr same)

/-- Every other text is reported by its name. -/
theorem bound_eq_error_iff {expression : String} {side : List Char} {e : WatchTimeError} :
    bound expression side = .error e ↔
      (∀ n, ¬ Bound side n) ∧ ∃ part, Named expression side part ∧ .malformed expression part = e := by
  simp only [bound_iff_readBound, ← Option.eq_none_iff_forall_ne_some, named_iff, exists_eq_left]
  rw [bound]
  cases readBound (Text.trim side) with
  | none => simp
  | some m => simp

theorem parse_single {s : String} (single : '-' ∉ s.toList) :
    parse s = (bound s s.toList).map (⟨0, ·⟩) := by
  rw [parse, Text.splitAt_of_not_mem single]
  dsimp only
  cases bound s s.toList <;> rfl

theorem parse_halves {s : String} {left right : List Char} (halves : Halves s.toList left right) :
    parse s = (bound s left).bind fun a => (bound s right).bind fun b =>
      if b < a then .error (.inverted a b) else .ok ⟨a, b⟩ := by
  rw [parse, Text.splitAt_eq_pair_iff.mpr halves]
  rfl

theorem parse_hyphens {s : String} (hyphens : 2 ≤ s.toList.count '-') :
    parse s = .error (.tooManyBounds s) := by
  have pieces := Text.length_splitAt '-' s.toList
  rw [parse]
  split
  · simp_all
  · simp_all
  · rfl

theorem Means.parse {s : String} {outcome : Except WatchTimeError WatchTime}
    (means : Means s outcome) : WatchTime.parse s = outcome := by
  cases means with
  | stop single bound => rw [parse_single single, bound_eq_ok_iff.mpr bound]; rfl
  | interval halves start stop forward =>
    rw [parse_halves halves, bound_eq_ok_iff.mpr start, bound_eq_ok_iff.mpr stop]
    exact if_neg (UInt64.not_lt.mpr forward)
  | inverted halves start stop backward =>
    rw [parse_halves halves, bound_eq_ok_iff.mpr start, bound_eq_ok_iff.mpr stop]
    exact if_pos backward
  | tooManyBounds hyphens => exact parse_hyphens hyphens
  | malformed first named =>
    cases first with
    | whole single unbound =>
      rw [parse_single single, bound_eq_error_iff.mpr ⟨unbound, _, named, rfl⟩]
      rfl
    | left halves unbound =>
      rw [parse_halves halves, bound_eq_error_iff.mpr ⟨unbound, _, named, rfl⟩]
      rfl
    | right halves bound unbound =>
      rw [parse_halves halves, bound_eq_ok_iff.mpr bound,
        bound_eq_error_iff.mpr ⟨unbound, _, named, rfl⟩]
      rfl

theorem exists_halves {cs : List Char} (present : '-' ∈ cs) (once : cs.count '-' < 2) :
    ∃ left right, Halves cs left right := by
  obtain ⟨left, right, rfl⟩ := List.append_of_mem present
  rw [List.count_append, List.count_cons_self] at once
  have before : left.count '-' = 0 := by omega
  have after : right.count '-' = 0 := by omega
  exact ⟨left, right, rfl, List.count_eq_zero.mp before, List.count_eq_zero.mp after⟩

theorem exists_means (s : String) : ∃ outcome, Means s outcome := by
  have side (t : List Char) : (∃ n, Bound t n) ∨ (∀ n, ¬ Bound t n) ∧ ∃ part, Named s t part := by
    by_cases bound : ∃ n, Bound t n
    · exact .inl bound
    · exact .inr ⟨not_exists.mp bound, _, named_iff.mpr rfl⟩
  by_cases single : '-' ∉ s.toList
  · rcases side s.toList with ⟨n, bound⟩ | ⟨unbound, part, named⟩
    · exact ⟨_, .stop single bound⟩
    · exact ⟨_, .malformed (.whole single unbound) named⟩
  by_cases hyphens : 2 ≤ s.toList.count '-'
  · exact ⟨_, .tooManyBounds hyphens⟩
  obtain ⟨left, right, halves⟩ := exists_halves (Classical.not_not.mp single) (by omega)
  rcases side left with ⟨a, start⟩ | ⟨unbound, part, named⟩
  · rcases side right with ⟨b, stop⟩ | ⟨unbound, part, named⟩
    · rcases UInt64.le_or_lt a b with forward | backward
      · exact ⟨_, .interval halves start stop forward⟩
      · exact ⟨_, .inverted halves start stop backward⟩
    · exact ⟨_, .malformed (.right halves start unbound) named⟩
  · exact ⟨_, .malformed (.left halves unbound) named⟩

private theorem hyphen_not_mem_numeral {t : List Char} {n : UInt64} (numeral : Numeral t n) :
    '-' ∉ t := by
  obtain ⟨sign, ds, rfl, signed, _, digits, _⟩ := numeral
  intro member
  rcases List.mem_append.mp member with early | late
  · rcases signed with rfl | rfl <;> simp at early
  · have digit := digits _ late
    cases digit

/-- The part that is named is no bound itself. -/
theorem Named.unbound {s part : String} {side : List Char} (named : Named s side part)
    (first : FirstUnbound s.toList side) (n : UInt64) : ¬ Bound part.toList n := by
  intro bound
  obtain ⟨t, again, numeral⟩ := bound
  have spelled {cs : List Char} (trimmed : Text.Trimmed cs part.toList) :
      Numeral part.toList n := by
    have same : t = part.toList := again.eq_trim.trans trimmed.again.eq_trim.symm
    exact same ▸ numeral
  cases named with
  | whole _ named =>
    -- The whole expression is named: it has a hyphen, unless it is the side itself.
    have apart {left right : List Char} (halves : Halves s.toList left right) : False := by
      have hyphen : '-' ∈ s.toList := halves.1 ▸ List.mem_append_right _ List.mem_cons_self
      exact hyphen_not_mem_numeral (spelled named) (named.mem hyphen (by decide))
    cases first with
    | whole single unbound => exact unbound n ⟨_, named, spelled named⟩
    | left halves unbound => exact apart halves
    | right halves bound unbound => exact apart halves
  | side _ named =>
    have bound : Bound side n := ⟨_, named, spelled named⟩
    cases first with
    | whole single unbound => exact unbound n bound
    | left halves unbound => exact unbound n bound
    | right halves other unbound => exact unbound n bound

/-- Reading an expression follows the grammar exactly, errors included, and the part that it names
when it finds no bound is none. -/
theorem parse_grammar (s : String) :
    (∀ outcome, parse s = outcome ↔ Means s outcome) ∧
      ∀ x part, parse s = .error (.malformed x part) → ∀ n, ¬ Bound part.toList n := by
  have follows (outcome) : parse s = outcome ↔ Means s outcome := by
    constructor
    · intro read
      obtain ⟨meant, means⟩ := exists_means s
      have same : meant = outcome := means.parse.symm.trans read
      exact same ▸ means
    · exact Means.parse
  refine ⟨follows, ?_⟩
  intro x part malformed
  cases (follows _).mp malformed with
  | malformed first named => exact named.unbound first

/-- An expression that is named as a whole because of its blank side. -/
theorem parse_grammar_blank :
    parse " 5- " = .error (.malformed " 5- " "5-") ∧ ∀ n, ¬ Bound "5-".toList n := by
  have malformed : parse " 5- " = .error (.malformed " 5- " "5-") := by decide
  exact ⟨malformed, (parse_grammar " 5- ").2 _ _ malformed⟩

end WatchTime

end Deployment
