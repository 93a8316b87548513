import Deployment.Proofs.FieldSlots
import Deployment.Proofs.FloatTexts
import Deployment.Proofs.PrintedTexts
import Deployment.Proofs.WatchTimeGrammar

namespace Deployment

open Yaml (Value Entries Slot)
open Outcome

namespace WatchTime

section Unbound

variable {cs : List Char} {s : String}

/-- Whether some piece of a text between its hyphens is no bound. -/
def Unbound (cs : List Char) : Prop :=
  ∃ piece ∈ Text.splitAt '-' cs, ∀ n, ¬ Bound piece n

/-- A text with an unbound piece and no more than one hyphen is reported as malformed. -/
theorem Unbound.parse (unbound : Unbound s.toList) (few : s.toList.count '-' < 2) :
    ∃ part, WatchTime.parse s = .error (.malformed s part) := by
  obtain ⟨piece, member, none⟩ := unbound
  have halved {left right : List Char} {a b : UInt64} (halves : Halves s.toList left right)
      (start : Bound left a) (stop : Bound right b) : False := by
    rw [Text.splitAt_eq_pair_iff.mpr halves] at member
    rcases List.mem_pair.mp member with rfl | rfl
    · exact none _ start
    · exact none _ stop
  obtain ⟨outcome, means⟩ := exists_means s
  have read := means.parse
  cases means with
  | stop single bound =>
    rw [Text.splitAt_of_not_mem single, List.mem_singleton] at member
    exact absurd (member ▸ bound) (none _)
  | interval halves start stop => exact (halved halves start stop).elim
  | inverted halves start stop => exact (halved halves start stop).elim
  | tooManyBounds hyphens => omega
  | malformed first named => exact ⟨_, read⟩

theorem Bound.mem {n : UInt64} {c : Char} (bound : Bound cs n) (member : c ∈ cs) :
    Text.isBlank c ∨ c = '+' ∨ Decimal.isDigit c := by
  obtain ⟨t, trimmed, sign, ds, rfl, signed, _, digits, _⟩ := bound
  by_cases blank : Text.isBlank c
  · exact .inl blank
  · rcases List.mem_append.mp (trimmed.mem member blank) with front | back
    · rcases signed with rfl | rfl
      · cases front
      · exact .inr (.inl (List.mem_singleton.mp front))
    · exact .inr (.inr (digits c back))

theorem not_bound_nil (n : UInt64) : ¬ Bound [] n := by
  intro bound
  have read := (@bound_eq_ok_iff "" [] n).mpr bound
  cases read

theorem unbound_nil : Unbound [] :=
  ⟨[], List.mem_singleton_self [], not_bound_nil⟩

theorem unbound_of_head? (first : cs.head? = some '-') : Unbound cs := by
  obtain ⟨rest, rfl⟩ := List.head?_eq_some_iff.mp first
  exact ⟨[], List.mem_cons_self, not_bound_nil⟩

/-- Whether a character is found in no bound and does not separate them. -/
def isForeign (c : Char) : Bool :=
  !(Text.isBlank c || c == '+' || c == '-' || Decimal.isDigit c)

theorem unbound_of_foreign {c : Char} (foreign : isForeign c = true) (member : c ∈ cs) :
    Unbound cs := by
  simp only [isForeign, Bool.not_eq_true', Bool.or_eq_false_iff, beq_eq_false_iff_ne] at foreign
  obtain ⟨⟨⟨solid, unsigned⟩, other⟩, letter⟩ := foreign
  obtain ⟨piece, within, found⟩ := Text.exists_mem_splitAt member other
  refine ⟨piece, within, fun n bound => ?_⟩
  rcases bound.mem found with blank | sign | digit
  · simp [solid] at blank
  · exact unsigned sign
  · simp [letter] at digit

end Unbound

end WatchTime

namespace Yaml

theorem Whole.exists_ofUInt64 {k : Whole} (nonnegative : 0 ≤ k.val) : ∃ n, k = .ofUInt64 n := by
  obtain ⟨i, lower, upper⟩ := k
  have fits : i.toNat < 2 ^ 64 := by omega
  refine ⟨UInt64.ofNat i.toNat, ?_⟩
  simp only [Whole.ofUInt64, Whole.mk.injEq, UInt64.toNat_ofNat', Nat.mod_eq_of_lt fits]
  exact (Int.toNat_of_nonneg nonnegative).symm

theorem Number.text_ofUInt64 (n : UInt64) :
    (Number.whole (.ofUInt64 n)).text = Decimal.ofNat n.toNat := by
  have nonnegative : ¬ ((n.toNat : Int) < 0) := by omega
  rw [Number.text, Whole.ofUInt64, Decimal.ofInt, Decimal.signedDigits, if_neg nonnegative,
    Int.natAbs_natCast]
  rfl

/-- The float that a value is, if it is one. -/
def Value.float? : Value → Option Float
  | .number (.float f) => some f
  | _ => none

theorem Value.eq_number_of_float? {v : Value} {f : Float} (float : v.float? = some f) :
    v = .number (.float f) := by
  unfold float? at float
  split at float <;> cases float
  rfl

end Yaml

namespace Manifest

open WatchTime

section Expressions

theorem unbound_number {k : Yaml.Number} (other : ∀ n, k ≠ .whole (.ofUInt64 n)) :
    Unbound k.text.toList := by
  have point {cs : List Char} (member : '.' ∈ cs) : Unbound cs :=
    unbound_of_foreign (by decide) member
  cases k with
  | whole n =>
    have negative : n.val < 0 := by
      by_contra nonnegative
      obtain ⟨word, rfl⟩ := Yaml.Whole.exists_ofUInt64 (not_lt.mp nonnegative)
      exact other word rfl
    refine unbound_of_head? ?_
    rw [Yaml.Number.text, Decimal.ofInt, Decimal.signedDigits, if_pos negative,
      String.toList_ofList, List.head?_cons]
  | float f =>
    rw [Yaml.Number.text]
    rcases Decimal.mark_mem_text Yaml.floatLayout f with ⟨c, member, rfl | rfl⟩ | word | word | word
    · exact point member
    · exact unbound_of_foreign (by decide) member
    all_goals
      rw [word]
      exact point (by decide)

theorem two_le_count_watchTimeExpression_iff {v : Value}
    (scalar : (∃ b, v = .bool b) ∨ ∃ k, v = .number k) :
    2 ≤ (watchTimeExpression v).toList.count '-' ↔ ∃ f, v.float? = some f ∧ Yaml.IsSlight f := by
  rcases scalar with ⟨b, rfl⟩ | ⟨⟨n⟩ | f, rfl⟩
  · have few : (watchTimeExpression (.bool b)).toList.count '-' = 0 := by cases b <;> decide
    simp [few, Value.float?]
  · have hyphens := Decimal.count_signedDigits n.val
    have few : ¬ 2 ≤ (Decimal.signedDigits n.val).count '-' := by split at hyphens <;> omega
    simp [watchTimeExpression, Yaml.Number.text, Decimal.ofInt, few, Value.float?]
  · rw [watchTimeExpression, Yaml.Number.text, Yaml.two_le_count_text_iff]
    simp [Value.float?]

theorem unbound_written {v : Value}
    (each : ∀ text, v.print = some text → Unbound (Text.trimRight text.toList)) :
    Unbound ((v.print.map fun text =>
      String.ofList (Text.trimRight text.toList)).getD "").toList := by
  cases printed : v.print with
  | none => exact unbound_nil
  | some text =>
    rw [Option.map_some, Option.getD_some, String.toList_ofList]
    exact each text printed

theorem unbound_trimRight {c : Char} {cs : List Char} (foreign : isForeign c = true)
    (member : c ∈ cs) : Unbound (Text.trimRight cs) := by
  refine unbound_of_foreign foreign (Text.mem_trimRight member ?_)
  intro blank
  simp [isForeign, blank] at foreign

/-- Only a word without a sign has a text that is bound, texts and null aside. -/
theorem unbound_watchTimeExpression {v : Value} (present : v ≠ .null) (nonText : ∀ s, v ≠ .string s)
    (other : ∀ n, v ≠ .number (.whole (.ofUInt64 n))) : Unbound (watchTimeExpression v).toList := by
  cases v with
  | null => exact absurd rfl present
  | string s => exact absurd rfl (nonText s)
  | bool b =>
    have letter : isForeign 'e' = true := by decide
    cases b <;> exact unbound_of_foreign letter (by decide)
  | number k =>
    refine unbound_number fun n same => ?_
    exact other n (congrArg Value.number same)
  | sequence items =>
    refine unbound_written fun text printed => ?_
    cases items with
    | nil =>
      cases printed
      exact unbound_trimRight (c := '[') (by decide) (by decide)
    | cons v rest =>
      exact unbound_of_head? (Text.head?_trimRight (Value.head?_print_sequence printed) (by decide))
  | mapping es =>
    refine unbound_written fun text printed => ?_
    cases es with
    | nil =>
      cases printed
      exact unbound_trimRight (c := '{') (by decide) (by decide)
    | cons e rest => exact unbound_trimRight (by decide) (Value.colon_mem_print_mapping printed)
  | tagged t v =>
    refine unbound_written fun text printed => ?_
    exact unbound_trimRight (by decide) (Value.mark_mem_print_tagged printed)

section Value

variable {v : Value} (present : v ≠ .null) (nonText : ∀ s, v ≠ .string s)

include present nonText

theorem parse_watchTimeExpression_ok_iff {x : WatchTime} :
    WatchTime.parse (watchTimeExpression v) = .ok x ↔
      ∃ n, v = .number (.whole (.ofUInt64 n)) ∧ x = ⟨0, n⟩ := by
  constructor
  · intro read
    by_contra other
    have unbound : Unbound (watchTimeExpression v).toList := by
      refine unbound_watchTimeExpression present nonText ?_
      rintro n rfl
      rw [watchTimeExpression, Yaml.Number.text_ofUInt64, parse_ofNat] at read
      exact other ⟨n, rfl, (Except.ok.inj read).symm⟩
    rcases Nat.lt_or_ge ((watchTimeExpression v).toList.count '-') 2 with few | several
    · obtain ⟨part, malformed⟩ := unbound.parse few
      cases malformed.symm.trans read
    · cases (parse_hyphens several).symm.trans read
  · rintro ⟨n, rfl, rfl⟩
    rw [watchTimeExpression, Yaml.Number.text_ofUInt64, parse_ofNat]

theorem parse_watchTimeExpression_error {fault : WatchTimeError}
    (refused : WatchTime.parse (watchTimeExpression v) = .error fault)
    (scalar : (∃ b, v = .bool b) ∨ ∃ k, v = .number k) :
    (∀ f, v.float? = some f → Yaml.IsSlight f → fault = .tooManyBounds (watchTimeExpression v)) ∧
      ((∀ f, v.float? = some f → ¬ Yaml.IsSlight f) →
        ∃ part, fault = .malformed (watchTimeExpression v) part) := by
  have hyphens := two_le_count_watchTimeExpression_iff scalar
  constructor
  · intro f float slight
    cases (parse_hyphens (hyphens.mpr ⟨f, float, slight⟩)).symm.trans refused
    rfl
  · intro large
    have unbound : Unbound (watchTimeExpression v).toList := by
      refine unbound_watchTimeExpression present nonText fun n whole => ?_
      have accepted := (parse_watchTimeExpression_ok_iff present nonText).mpr ⟨n, whole, rfl⟩
      cases refused.symm.trans accepted
    have few : (watchTimeExpression v).toList.count '-' < 2 := by
      refine not_le.mp fun several => ?_
      obtain ⟨f, float, slight⟩ := hyphens.mp several
      exact large f float slight
    obtain ⟨part, malformed⟩ := unbound.parse few
    cases malformed.symm.trans refused
    exact ⟨part, rfl⟩

end Value

end Expressions

section Documents

variable {origin : String} {update watchTime : Slot} {v w : Value} {m : Manifest}

theorem setBy_watchTime : Yaml.Shape.SetBy UpdateEntry.fields "update_watch_time"
    (Yaml.Shape.optional Yaml.Shape.anything) fun a e => { e with watchTime := a } := by
  constructor <;> simp [UpdateEntry.fields]

theorem setBy_update : Yaml.Shape.SetBy ManifestEntry.fields "update"
    (Yaml.Shape.withDefault {} UpdateEntry.read) fun a e => { e with update := a } := by
  constructor <;> simp [ManifestEntry.fields]

theorem ofEntry_update {e : ManifestEntry} (success : ofEntry e = .ok m) (u : UpdateEntry) :
    ofEntry { e with update := u } =
      ((watchTimeOf u).mapError .watchTime).map fun x => { m with watchTime := x } := by
  obtain ⟨nonblank, name, networks, resourcePools, diskPools, jobs, properties, _⟩ :=
    ofEntry_ok success
  unfold ofEntry
  dsimp only
  rw [if_neg nonblank, networks, resourcePools, diskPools, jobs, properties, ← name]
  cases watchTimeOf u <;> rfl

/-- A document that is a manifest with one watch time is one with any other value in its place,
except for what comes of reading the value. -/
theorem ofDocument_fill (policy : update.key.asString? = some "update")
    (field : watchTime.key.asString? = some "update_watch_time")
    (valid : ofDocument origin (update.fill (watchTime.fill w)) = .ok m) (present : v ≠ .null) :
    ofDocument origin (update.fill (watchTime.fill v)) =
      ((WatchTime.parse (watchTimeExpression v)).mapError fun fault =>
        ⟨origin, .watchTime fault⟩).map fun x => { m with watchTime := x } := by
  obtain ⟨e, entry, built⟩ := bind_eq_ok.mp (mapError_eq_ok.mp valid)
  rw [entryOf_eq, mapError_eq_ok] at entry
  have filled (u : Value) : ManifestEntry.read (update.fill (watchTime.fill u)) =
      (UpdateEntry.read (watchTime.fill u)).map fun a => { e with update := a } := by
    have one := Yaml.Shape.record_fill setBy_update (by decide) policy entry (watchTime.fill u)
    rw [Yaml.Shape.withDefault_of_ne_null (watchTime.fill_ne_null u)] at one
    exact one
  rw [filled w] at entry
  obtain ⟨a, read, _⟩ := map_eq_ok.mp entry
  have replaced : UpdateEntry.read (watchTime.fill v) = .ok ⟨some v⟩ := by
    have one := Yaml.Shape.record_fill setBy_watchTime (by decide) field read v
    rw [Yaml.Shape.optional_of_ne_null present] at one
    exact one
  have expression : watchTimeOf ⟨some v⟩ = WatchTime.parse (watchTimeExpression v) := rfl
  have rest := ofEntry_update built ⟨some v⟩
  rw [expression] at rest
  rw [ofDocument, entryOf_eq, filled v, replaced]
  refine (congrArg (Except.mapError (ManifestError.mk origin)) rest).trans ?_
  cases WatchTime.parse (watchTimeExpression v) <;> rfl

/-- What comes of a value in the place of a watch time that is neither text nor null, in a document
that is a manifest with some other value there. Only whole numbers without a sign are accepted, as
the end of an interval from zero. Everything else is a fault of the watch time. Truth values and
other numbers are malformed, except that slight floats are taken for too many bounds, because of
the hyphen in their exponent. -/
theorem parse_watchTime_value (policy : update.key.asString? = some "update")
    (field : watchTime.key.asString? = some "update_watch_time")
    (valid : ofDocument origin (update.fill (watchTime.fill w)) = .ok m) (present : v ≠ .null)
    (nonText : ∀ s, v ≠ .string s) {octets : List UInt8}
    (decoded : .decoded origin (update.fill (watchTime.fill v)) ∈ (parse origin (.ok octets)).1) :
    (∀ result, (parse origin (.ok octets)).2 = .ok result ↔
      ∃ n, v = .number (.whole (.ofUInt64 n)) ∧ result = { m with watchTime := ⟨0, n⟩ }) ∧
    ∀ e, (parse origin (.ok octets)).2 = .error e → ∃ fault, e = ⟨origin, .watchTime fault⟩ ∧
      ((∃ b, v = .bool b) ∨ (∃ k, v = .number k) →
        (∀ f, v.float? = some f → Yaml.IsSlight f →
          fault = .tooManyBounds (watchTimeExpression v)) ∧
        ((∀ f, v.float? = some f → ¬ Yaml.IsSlight f) →
          ∃ part, fault = .malformed (watchTimeExpression v) part)) := by
  rw [parse_eq_ofDocument decoded, ofDocument_fill policy field valid present]
  constructor
  · intro result
    simp only [map_eq_ok, mapError_eq_ok, parse_watchTimeExpression_ok_iff present nonText]
    constructor
    · rintro ⟨_, ⟨n, whole, rfl⟩, rfl⟩
      exact ⟨n, whole, rfl⟩
    · rintro ⟨n, whole, rfl⟩
      exact ⟨_, ⟨n, whole, rfl⟩, rfl⟩
  · intro e failed
    cases read : WatchTime.parse (watchTimeExpression v) with
    | ok x =>
      rw [read] at failed
      cases failed
    | error fault =>
      rw [read] at failed
      cases failed
      exact ⟨fault, rfl, parse_watchTimeExpression_error present nonText read⟩

/-- The text of a slight float has two hyphens, and a manifest is refused for too many bounds. -/
theorem parse_watchTime_value_slight :
    let octets := "name: d\nupdate:\n  update_watch_time: -1e-7".toList.map
      fun c => UInt8.ofNat c.toNat
    ∃ (update watchTime : Slot) (v : Value) (f : Float) (m : Manifest),
      update.key.asString? = some "update" ∧
      watchTime.key.asString? = some "update_watch_time" ∧
      ofDocument "d" (update.fill (watchTime.fill .null)) = .ok m ∧
      .decoded "d" (update.fill (watchTime.fill v)) ∈ (parse "d" (.ok octets)).1 ∧
      v.float? = some f ∧ Yaml.IsSlight f ∧
      (parse "d" (.ok octets)).2 = .error ⟨"d", .watchTime (.tooManyBounds "-1e-7")⟩ := by
  intro octets
  have text : octets.all Text.isBlankOctet = false := by decide +kernel
  have shape : ((documentValue octets).toOption.any fun document =>
      document.entries[1]?.any fun e => e.1.asString? == some "update" &&
        e.2.entries[0]?.any fun g => g.1.asString? == some "update_watch_time" &&
          (g.2.float?.any fun f => decide (Yaml.IsSlight f)) &&
          watchTimeExpression g.2 == "-1e-7" &&
          (ofDocument "d" ((Slot.ofEntry document.entries 1 e).fill
            ((Slot.ofEntry e.2.entries 0 g).fill .null))).isOk) = true := by
    decide +kernel
  cases value : documentValue octets with
  | error e =>
    rw [value] at shape
    cases shape
  | ok document =>
    rw [value] at shape
    simp only [Except.toOption, Option.any_some, Option.any_eq_true, Bool.and_eq_true, beq_iff_eq,
      decide_eq_true_eq] at shape
    obtain ⟨e, second, policy, g, first, ⟨⟨field, f, float, slight⟩, spelled⟩, valid⟩ := shape
    have whole := Slot.fill_ofEntry second
    rw [← Slot.fill_ofEntry first] at whole
    have decoded : .decoded "d" ((Slot.ofEntry document.entries 1 e).fill
        ((Slot.ofEntry e.2.entries 0 g).fill g.2)) ∈ (parse "d" (.ok octets)).1 :=
      decoded_mem_iff.mpr ⟨text, value.trans (congrArg Except.ok whole.symm)⟩
    cases manifest : ofDocument "d" ((Slot.ofEntry document.entries 1 e).fill
        ((Slot.ofEntry e.2.entries 0 g).fill .null)) with
    | error e =>
      rw [manifest] at valid
      cases valid
    | ok m =>
      refine ⟨_, _, g.2, f, m, policy, field, manifest, decoded, float, slight, ?_⟩
      have number := Value.eq_number_of_float? float
      have present : g.2 ≠ .null := by simp [number]
      have nonText (s : String) : g.2 ≠ .string s := by simp [number]
      obtain ⟨accepted, refused⟩ :=
        parse_watchTime_value policy field manifest present nonText decoded
      cases result : (parse "d" (.ok octets)).2 with
      | ok m =>
        obtain ⟨n, whole, _⟩ := (accepted m).mp result
        cases number.symm.trans whole
      | error e =>
        obtain ⟨fault, rfl, scalar⟩ := refused e result
        rw [(scalar (.inr ⟨_, number⟩)).1 f float slight, spelled]

end Documents

end Manifest

end Deployment
