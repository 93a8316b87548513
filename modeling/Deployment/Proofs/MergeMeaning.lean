import Deployment.Proofs.MergeWalk
import Deployment.Proofs.Stages

/-!
What merge keys mean, key by key: a mapping has for a key what it says itself, and otherwise what
the first of its sources says that has the key. Resolution gives every mapping that it comes to
exactly these values, and it fails exactly when it comes to a mapping whose merge entry is neither
a mapping nor a sequence of mappings.
-/

namespace Deployment.Yaml.MergeKey

open Outcome
open Value (valueAt WellKeyed)

/-- The entries of a mapping other than its merge entry. -/
def explicit (es : Entries) : Entries :=
  es.filter fun e => !e.1.isString "<<"

/-- Whether the merge entry of a mapping, if it has one, is a mapping or a sequence of mappings. -/
def Mergeable (es : Entries) : Prop :=
  ∀ merge, valueAt es (.string "<<") = some merge →
    (∃ source, merge = .mapping source) ∨
      ∃ items, merge = .sequence items ∧ ∀ v ∈ items, ∃ source, v = .mapping source

/-- The sources that the merge entry lists, in order. -/
def listed (es : Entries) : List Entries :=
  match valueAt es (.string "<<") with
  | some merge => sources merge
  | none => []

/-- What a mapping has for a key: the explicit value, or else that of the first source with one. -/
def chosen (es : Entries) (k : Value) : Option Value :=
  (explicit es :: listed es).findSome? (valueAt · k)

/-- The plain meaning of merge keys, as a relation of a value and what it stands for. A mapping
stands for one with the chosen keys, and each chosen value for the value that is there. -/
inductive Agrees : Value → Value → Prop where
  | null : Agrees .null .null
  | bool (b : Bool) : Agrees (.bool b) (.bool b)
  | number (n : Number) : Agrees (.number n) (.number n)
  | string (s : String) : Agrees (.string s) (.string s)
  | sequence {items rs : List Value} (length : rs.length = items.length)
      (each : ∀ (i : Nat) (v r : Value), items[i]? = some v → rs[i]? = some r → Agrees v r) :
      Agrees (.sequence items) (.sequence rs)
  | mapping {es fs : Entries} (mergeable : Mergeable es)
      (distinct : fs.Pairwise fun a b => a.1.same b.1 = false)
      (keys : ∀ k, valueAt fs k = none ↔ chosen es k = none)
      (values : ∀ k v r, chosen es k = some v → valueAt fs k = some r → Agrees v r) :
      Agrees (.mapping es) (.mapping fs)
  | tagged {tag : Tag} {v r : Value} (below : Agrees v r) : Agrees (.tagged tag v) (.tagged tag r)

/-- The values that the plain meaning of a value has to do with: those chosen for the keys of a
mapping, the items of a sequence, and what is below a tag. -/
inductive Meets : Value → Value → Prop where
  | here {v : Value} : Meets v v
  | kept {es : Entries} {k v w : Value} (mergeable : Mergeable es) (choice : chosen es k = some v)
      (further : Meets v w) : Meets (.mapping es) w
  | item {items : List Value} {v w : Value} (member : v ∈ items) (further : Meets v w) :
      Meets (.sequence items) w
  | beneath {tag : Tag} {v w : Value} (further : Meets v w) : Meets (.tagged tag v) w

/-- The entries that are left, and in which order, when the merge entry is taken out. -/
def remaining (es : Entries) : Entries :=
  match extract es with
  | some (_, others) => others
  | none => es

theorem same_mergeKey_iff {k : Value} :
    k.same (.string "<<") = true ↔ k.isString "<<" = true := by
  cases k <;> simp [Value.same, Value.isString]

theorem extract_value (es : Entries) :
    (extract es).map (·.1) = valueAt es (.string "<<") := by
  induction es with
  | nil => rfl
  | cons e rest ih =>
    rw [Value.valueAt_cons, extract]
    by_cases isMerge : e.1.isString "<<" = true
    · rw [if_pos isMerge, if_pos (same_mergeKey_iff.mpr isMerge)]
      rfl
    · rw [if_neg isMerge, if_neg (mt same_mergeKey_iff.mp isMerge), ← ih]
      cases extract rest <;> rfl

theorem adoptEach_eq_ok_iff {es own : Entries} {items : List Value} :
    adoptEach es items = .ok own ↔
      (∀ v ∈ items, ∃ source, v = .mapping source) ∧
        own = (sources (.sequence items)).foldl adopt es := by
  induction items generalizing es with
  | nil => simp [adoptEach, sources, eq_comm]
  | cons v rest ih =>
    cases v with
    | mapping source => simp [adoptEach, ih, sources]
    | _ => simp [adoptEach]

theorem merged_eq_ok_iff {es own : Entries} :
    merged es = .ok own ↔ Mergeable es ∧ own = (listed es).foldl adopt (remaining es) := by
  unfold merged Mergeable listed remaining
  rw [← extract_value]
  cases extract es with
  | none => simp [eq_comm]
  | some found =>
    obtain ⟨merge, others⟩ := found
    cases merge with
    | mapping source => simp [sources, eq_comm]
    | sequence items => simp [adoptEach_eq_ok_iff]
    | _ => simp

theorem explicit_eq_self {es : Entries} (absent : hasMergeKey es = false) : explicit es = es := by
  refine List.filter_eq_self.mpr fun e member => ?_
  have other := List.any_eq_false.mp absent e member
  simpa using other

theorem remaining_perm {es : Entries} (sound : (Value.mapping es).WellKeyed) :
    (remaining es).Perm (explicit es) := by
  unfold remaining
  cases found : extract es with
  | none =>
    rw [explicit_eq_self (extract_none found)]
  | some taken =>
    obtain ⟨merge, others⟩ := taken
    cases sound with
    | mapping distinct keys values =>
      have none := explicit_eq_self (hasMergeKey_others distinct found)
      have kept : (explicit es).Perm (explicit ((.string "<<", merge) :: others)) :=
        (extract_perm found).filter _
      have same : explicit ((.string "<<", merge) :: others) = others := by
        simpa [explicit, Value.isString] using none
      rw [same] at kept
      exact kept.symm

section Adopting

variable {es source : Entries}

theorem adopt_cons (e : Value × Value) :
    adopt es (e :: source) =
      adopt (if es.any (·.1.same e.1) then es else es ++ [e]) source := by
  rfl

/-- An adopting mapping has for a key what it had, or else what the source has. -/
theorem valueAt_adopt (keys : ∀ e ∈ es, e.1.WellKeyed) (others : ∀ e ∈ source, e.1.WellKeyed)
    (k : Value) : valueAt (adopt es source) k = (valueAt es k).or (valueAt source k) := by
  induction source generalizing es with
  | nil =>
    rw [adopt, List.foldl_nil]
    cases valueAt es k <;> rfl
  | cons e rest ih =>
    have othersRest : ∀ f ∈ rest, f.1.WellKeyed :=
      fun f member => others f (List.mem_cons_of_mem _ member)
    rw [adopt_cons, Value.valueAt_cons]
    by_cases known : es.any (·.1.same e.1) = true
    · rw [if_pos known, ih keys othersRest]
      by_cases same : e.1.same k = true
      -- A key that equals this one equals one that was there before.
      · obtain ⟨f, present, equal⟩ := List.any_eq_true.mp known
        have before : valueAt es k ≠ none := by
          intro missing
          have apart := Value.valueAt_eq_none_iff.mp missing f present
          simp [(keys f present).same_trans equal same] at apart
        obtain ⟨v, found⟩ := Option.ne_none_iff_exists'.mp before
        rw [found]
        rfl
      · rw [if_neg same]
    · have keysNext : ∀ f ∈ es ++ [e], f.1.WellKeyed := by
        intro f member
        rcases List.mem_append.mp member with old | new
        · exact keys f old
        · obtain rfl := List.mem_singleton.mp new
          exact others f List.mem_cons_self
      rw [if_neg known, ih keysNext othersRest, Value.valueAt_append, Value.valueAt_cons,
        Option.or_assoc]
      by_cases same : e.1.same k = true
      · simp [same]
      · simp [same, Value.valueAt]

theorem adopt_wellKeyed (sound : (Value.mapping es).WellKeyed)
    (others : ∀ e ∈ source, e.1.WellKeyed ∧ e.2.WellKeyed) :
    (Value.mapping (adopt es source)).WellKeyed := by
  induction source generalizing es with
  | nil => exact sound
  | cons e rest ih =>
    obtain ⟨first, othersRest⟩ := List.forall_mem_cons.mp others
    rw [adopt_cons]
    by_cases known : es.any (·.1.same e.1) = true
    · rw [if_pos known]
      exact ih sound othersRest
    · rw [if_neg known]
      exact ih (sound.append_single first.1 first.2 (by simpa using known)) othersRest

theorem adoptAll_wellKeyed {all : List Entries} (sound : (Value.mapping es).WellKeyed)
    (others : ∀ source ∈ all, (Value.mapping source).WellKeyed) :
    (Value.mapping (all.foldl adopt es)).WellKeyed := by
  induction all generalizing es with
  | nil => exact sound
  | cons source rest ih =>
    obtain ⟨first, othersRest⟩ := List.forall_mem_cons.mp others
    cases first with
    | mapping distinct keys values =>
      exact ih (adopt_wellKeyed sound fun e member => ⟨keys e member, values e member⟩) othersRest

theorem valueAt_adoptAll {all : List Entries} (sound : (Value.mapping es).WellKeyed)
    (others : ∀ source ∈ all, (Value.mapping source).WellKeyed) (k : Value) :
    valueAt (all.foldl adopt es) k = (es :: all).findSome? (valueAt · k) := by
  induction all generalizing es with
  | nil =>
    rw [List.foldl_nil, List.findSome?_cons]
    cases valueAt es k <;> rfl
  | cons source rest ih =>
    obtain ⟨first, othersRest⟩ := List.forall_mem_cons.mp others
    cases first with
    | mapping distinct keys values =>
      have adopting := adopt_wellKeyed sound fun e member => ⟨keys e member, values e member⟩
      cases sound with
      | mapping _ own _ =>
        rw [List.foldl_cons, ih adopting othersRest, List.findSome?_cons, List.findSome?_cons,
          List.findSome?_cons, valueAt_adopt own keys]
        cases valueAt es k <;> rfl

end Adopting

theorem listed_eq_sourcesOf (es : Entries) : listed es = sourcesOf es := by
  unfold listed sourcesOf
  rw [← extract_value]
  cases extract es <;> rfl

theorem listed_wellKeyed {es : Entries} (sound : (Value.mapping es).WellKeyed) :
    ∀ source ∈ listed es, (Value.mapping source).WellKeyed := by
  rw [listed_eq_sourcesOf]
  exact fun source member => sound.part (source_mem_parts member)

theorem remaining_wellKeyed {es : Entries} (sound : (Value.mapping es).WellKeyed) :
    (Value.mapping (remaining es)).WellKeyed :=
  (sound.sublist List.filter_sublist).perm (remaining_perm sound).symm

theorem merged_wellKeyed {es own : Entries} (sound : (Value.mapping es).WellKeyed)
    (adopted : merged es = .ok own) : (Value.mapping own).WellKeyed := by
  obtain ⟨_, rfl⟩ := merged_eq_ok_iff.mp adopted
  exact adoptAll_wellKeyed (remaining_wellKeyed sound) (listed_wellKeyed sound)

theorem valueAt_merged {es own : Entries} (sound : (Value.mapping es).WellKeyed)
    (adopted : merged es = .ok own) (k : Value) : valueAt own k = chosen es k := by
  obtain ⟨_, rfl⟩ := merged_eq_ok_iff.mp adopted
  have left := remaining_wellKeyed sound
  rw [valueAt_adoptAll left (listed_wellKeyed sound), chosen, List.findSome?_cons,
    List.findSome?_cons, left.valueAt_perm (remaining_perm sound)]

private theorem valueAt_each {own fs : Entries} (each : List.Forall₂ EntryResolves own fs)
    (k : Value) : (valueAt own k = none ∧ valueAt fs k = none) ∨
      ∃ v r, valueAt own k = some v ∧ valueAt fs k = some r ∧ Resolves v r := by
  induction each with
  | nil => exact .inl ⟨rfl, rfl⟩
  | @cons e f own fs head tail ih =>
    rw [Value.valueAt_cons, Value.valueAt_cons, head.1]
    by_cases same : e.1.same k = true
    · exact .inr ⟨e.2, f.2, if_pos same, if_pos same, head.2⟩
    · rw [if_neg same, if_neg same]
      exact ih

private theorem distinct_each {own fs : Entries} (each : List.Forall₂ EntryResolves own fs)
    (distinct : own.Pairwise fun a b => a.1.same b.1 = false) :
    fs.Pairwise fun a b => a.1.same b.1 = false := by
  have keys : fs.map (·.1) = own.map (·.1) := by
    induction each with
    | nil => rfl
    | cons head tail ih => rw [List.map_cons, List.map_cons, head.1, ih distinct.of_cons]
  have onKeys : (own.map (·.1)).Pairwise fun a b => a.same b = false :=
    List.pairwise_map.mpr distinct
  exact List.pairwise_map.mp (keys ▸ onKeys)

theorem Resolves.wellKeyed {v r : Value} (sound : v.WellKeyed) (resolved : Resolves v r) :
    r.WellKeyed := by
  induction r using Value.inward generalizing v with
  | null => exact .null
  | bool b => exact .bool b
  | number n => exact .number n
  | string s => exact .string s
  | sequence rs ih =>
    cases resolved.becomes with
    | sequence each =>
      cases sound with
      | sequence sound =>
        refine .sequence fun r member => ?_
        obtain ⟨v, within, pair⟩ := related_left each r member
        exact ih r member (sound v within) pair
  | mapping fs ih =>
    cases resolved.becomes with
    | @mapping es own _ adopted each =>
      cases merged_wellKeyed sound adopted with
      | mapping distinct keys values =>
        -- The keys are those of the merged mapping; only the values below them are new.
        refine .mapping (distinct_each each distinct) (fun f member => ?_) fun f member => ?_
        · obtain ⟨e, within, pair⟩ := related_left each f member
          exact pair.1 ▸ keys e within
        · obtain ⟨e, within, pair⟩ := related_left each f member
          exact ih f member (values e within) pair.2
  | tagged tag r ih =>
    cases resolved.becomes with
    | tagged below =>
      cases sound with
      | tagged sound => exact .tagged (ih sound below)

theorem Resolves.agrees {v r : Value} (sound : v.WellKeyed) (resolved : Resolves v r) :
    Agrees v r := by
  -- On the result, in which every value of a resolved mapping has its place.
  induction r using Value.inward generalizing v with
  | null | bool b | number n | string s =>
    cases resolved.becomes
    constructor
  | sequence rs ih =>
    cases resolved.becomes with
    | sequence each =>
      cases sound with
      | sequence sound =>
        refine .sequence each.length_eq.symm fun i v r before after => ?_
        have pair : Resolves v r := by
          obtain ⟨first, rfl⟩ := List.getElem?_eq_some_iff.mp before
          obtain ⟨second, rfl⟩ := List.getElem?_eq_some_iff.mp after
          exact List.Forall₂.get each first second
        exact ih r (List.mem_of_getElem? after) (sound v (List.mem_of_getElem? before)) pair
  | mapping fs ih =>
    cases resolved.becomes with
    | @mapping es own _ adopted each =>
      have whole := merged_wellKeyed sound adopted
      cases whole with
      | mapping distinct keys values =>
        refine .mapping (merged_eq_ok_iff.mp adopted).1 (distinct_each each distinct) ?_ ?_
        · intro k
          rw [← valueAt_merged sound adopted]
          rcases valueAt_each each k with ⟨before, after⟩ | ⟨v, r, before, after, _⟩
          · simp [before, after]
          · simp [before, after]
        · intro k v r before after
          rw [← valueAt_merged sound adopted] at before
          obtain ⟨e, inOwn, _, rfl⟩ := Value.exists_mem_of_valueAt before
          obtain ⟨f, inResult, _, rfl⟩ := Value.exists_mem_of_valueAt after
          refine ih f inResult (values e inOwn) ?_
          rcases valueAt_each each k with ⟨missing, _⟩ | ⟨w, q, first, second, pair⟩
          · simp [missing] at before
          · obtain rfl := Option.some.inj (before.symm.trans first)
            obtain rfl := Option.some.inj (after.symm.trans second)
            exact pair
  | tagged tag r ih =>
    cases resolved.becomes with
    | tagged below =>
      cases sound with
      | tagged sound => exact .tagged (ih sound below)

/-- The plain meaning has to do with the very values that the resolution comes to. -/
theorem meets_iff_reaches {v w : Value} (sound : v.WellKeyed) : Meets v w ↔ Reaches v w := by
  constructor
  · intro path
    induction path with
    | here => exact .here
    | kept mergeable choice further ih =>
      -- The value that is chosen for a key is the one that the merged mapping has for it.
      have adopted := merged_eq_ok_iff.mpr ⟨mergeable, rfl⟩
      rw [← valueAt_merged sound adopted] at choice
      obtain ⟨e, member, _, rfl⟩ := Value.exists_mem_of_valueAt choice
      cases merged_wellKeyed sound adopted with
      | mapping distinct keys values => exact .entry adopted member (ih (values e member))
    | item member further ih =>
      cases sound with
      | sequence each => exact .item member (ih (each _ member))
    | beneath further ih =>
      cases sound with
      | tagged below => exact .beneath (ih below)
  · intro path
    induction path with
    | here => exact .here
    | @entry es own e w adopted member further ih =>
      have whole := merged_wellKeyed sound adopted
      cases whole with
      | mapping distinct keys values =>
        have found := (Value.WellKeyed.mapping distinct keys values).valueAt_of_mem member
          (keys e member).same_refl
        rw [valueAt_merged sound adopted] at found
        exact .kept (merged_eq_ok_iff.mp adopted).1 found (ih (values e member))
    | item member further ih =>
      cases sound with
      | sequence each => exact .item member (ih (each _ member))
    | beneath further ih =>
      cases sound with
      | tagged below => exact .beneath (ih below)

private theorem exists_fromLast {α β : Type} {f : α → Except MergeError β} {xs : List α}
    (each : ∀ x ∈ xs, ∃ y, f x = .ok y) : ∃ ys, fromLast f xs = .ok ys := by
  induction xs with
  | nil => exact ⟨[], rfl⟩
  | cons x rest ih =>
    obtain ⟨y, head⟩ := each x List.mem_cons_self
    obtain ⟨ys, tail⟩ := ih fun z member => each z (List.mem_cons_of_mem _ member)
    refine ⟨y :: ys, ?_⟩
    rw [fromLast, tail, head]
    rfl

theorem exists_resolves_mapping {es own : Entries} (adopted : merged es = .ok own)
    (each : ∀ e ∈ own, ∃ r, Resolves e.2 r) : ∃ fs, Resolves (.mapping es) (.mapping fs) := by
  have entries : ∀ e ∈ own, ∃ f, (resolve e.2).map (e.1, ·) = .ok f := by
    intro e member
    obtain ⟨r, value⟩ := each e member
    exact ⟨(e.1, r), map_eq_ok.mpr ⟨r, value, rfl⟩⟩
  obtain ⟨fs, all⟩ := exists_fromLast entries
  refine ⟨fs, ?_⟩
  rw [Resolves, resolve_mapping, adopted]
  exact map_eq_ok.mpr ⟨fs, all, rfl⟩

theorem exists_resolves {v : Value} (all : ∀ es, Reaches v (.mapping es) → Mergeable es) :
    ∃ r, Resolves v r := by
  unfold Resolves
  induction v using onward with
  | null | bool b | number n | string s => simp [resolve]
  | sequence items ih =>
    obtain ⟨rs, each⟩ := exists_fromLast fun v member =>
      ih v member fun es path => all es (.item member path)
    rw [resolve, resolveItems_eq, each]
    exact ⟨_, rfl⟩
  | mapping es ih =>
    have adopted := merged_eq_ok_iff.mpr ⟨all es .here, rfl⟩
    obtain ⟨fs, resolved⟩ := exists_resolves_mapping adopted fun e member =>
      ih _ adopted e member fun es path => all es (.entry adopted member path)
    exact ⟨.mapping fs, resolved⟩
  | tagged tag v ih =>
    obtain ⟨r, below⟩ := ih fun es path => all es (.beneath path)
    rw [resolve, below]
    exact ⟨_, rfl⟩

theorem merged_free {es : Entries} (free : hasMergeKey es = false) : merged es = .ok es := by
  cases found : extract es with
  | none => rw [merged, found]
  | some taken =>
    have entry := (extract_perm found).mem_iff.mpr List.mem_cons_self
    have held := hasMergeKey_iff.mpr ⟨taken.1, entry⟩
    rw [free] at held
    cases held

theorem resolves_self {v : Value}
    (free : ∀ es, .mapping es ∈ v.parts → hasMergeKey es = false) : Resolves v v := by
  induction v using Value.inward with
  | null | bool b | number n | string s => simp [Resolves, resolve]
  | sequence items ih =>
    have each : ∀ v ∈ items, resolve v = .ok v := fun v member =>
      ih v member fun es part => free es (Value.mem_parts_sequence.mpr (.inr ⟨v, member, part⟩))
    rw [Resolves, resolve, resolveItems_eq, fromLast_self each]
    rfl
  | mapping es ih =>
    have each : ∀ e ∈ es, (resolve e.2).map (e.1, ·) = .ok e := by
      intro e member
      have value : resolve e.2 = .ok e.2 := ih e member fun fs part =>
        free fs (Value.mem_parts_mapping.mpr (.inr ⟨e, member, part⟩))
      rw [value]
      rfl
    rw [Resolves, resolve_mapping, merged_free (free es (Value.mem_parts_self _))]
    exact map_eq_ok.mpr ⟨es, fromLast_self each, rfl⟩
  | tagged tag v ih =>
    have below : resolve v = .ok v :=
      ih fun es part => free es (Value.mem_parts_tagged.mpr (.inr part))
    rw [Resolves, resolve, below]
    rfl

/-- Resolution succeeds when all mappings that it has to do with can merge, and only then. -/
theorem resolve_ok_iff {v : Value} (sound : v.WellKeyed) :
    (∃ r, resolve v = .ok r) ↔ ∀ es, Meets v (.mapping es) → Mergeable es := by
  constructor
  · rintro ⟨r, success⟩ es path
    obtain ⟨q, _, result⟩ := ((meets_iff_reaches sound).mp path).resolves success
    cases result.becomes with
    | mapping adopted each => exact (merged_eq_ok_iff.mp adopted).1
  · intro all
    exact exists_resolves fun es path => all es ((meets_iff_reaches sound).mpr path)

end Deployment.Yaml.MergeKey

namespace Deployment.Manifest

open Outcome
open Yaml (Value)
open Yaml.MergeKey

theorem documentValue_eq {octets : List UInt8} {document : Value}
    (decoded : Value.ofOctets octets = .ok document) :
    documentValue octets = (resolve document).mapError .merge := by
  rw [documentValue, decoded]
  rfl

theorem documentValue_ok_iff {octets : List UInt8} {document resolved : Value}
    (decoded : Value.ofOctets octets = .ok document) :
    documentValue octets = .ok resolved ↔ Resolves document resolved := by
  rw [documentValue_eq decoded]
  exact mapError_eq_ok

theorem documentValue_wellKeyed {octets : List UInt8} {v : Value}
    (success : documentValue octets = .ok v) : v.WellKeyed := by
  obtain ⟨document, decoded, resolved⟩ := bind_eq_ok.mp success
  rw [mapError_eq_ok] at decoded resolved
  exact Resolves.wellKeyed (Value.ofOctets_wellKeyed decoded) resolved

theorem documentValue_error_iff {octets : List UInt8} {document : Value}
    (decoded : Value.ofOctets octets = .ok document) :
    (∃ error, documentValue octets = .error error) ↔
      ∃ es, Meets document (.mapping es) ∧ ¬ Mergeable es := by
  rw [documentValue_eq decoded]
  have settled := resolve_ok_iff (Value.ofOctets_wellKeyed decoded)
  cases result : resolve document with
  | error error =>
    rw [result] at settled
    have unmergeable : ¬ ∀ es, Meets document (.mapping es) → Mergeable es := by
      intro all
      obtain ⟨resolved, success⟩ := settled.mpr all
      cases success
    push Not at unmergeable
    exact ⟨fun _ => unmergeable, fun _ => ⟨.merge error, rfl⟩⟩
  | ok resolved =>
    have all := settled.mp ⟨resolved, result⟩
    constructor
    · rintro ⟨error, failed⟩
      cases failed
    · rintro ⟨es, path, unmergeable⟩
      exact absurd (all es path) unmergeable

theorem decode_merge_iff {origin : String} {octets : List UInt8} {document : Value}
    (text : octets.all Text.isBlankOctet = false) (decoded : Value.ofOctets octets = .ok document) :
    (∃ error, (decode origin octets).2 = .error (.decode (.merge error))) ↔
      ∃ error, documentValue octets = .error error := by
  rw [decode_eq text, documentValue_eq decoded]
  cases resolve document with
  | error error => simp [Except.mapError, bind, Except.bind]
  | ok resolved =>
    simp only [Except.mapError, bind, Except.bind]
    constructor
    · rintro ⟨error, failed⟩
      obtain ⟨m, other⟩ := entryOf_error failed
      cases other
    · rintro ⟨error, failed⟩
      cases failed

/-- The value of a document is where the walk through it ends, and it is what the document means:
every mapping has for every key the explicit value or that of its first source with one. There is
a merge fault exactly when this meaning has to do with a mapping that cannot merge. -/
theorem documentValue_agrees {octets : List UInt8} {document : Value}
    (decoded : Value.ofOctets octets = .ok document) :
    (∃ n, ∀ m ≥ n, (Walk.run m ⟨document, [[]]⟩).mapError .merge =
      (documentValue octets).map (⟨·, []⟩)) ∧
    (∀ resolved, documentValue octets = .ok resolved → Agrees document resolved) ∧
    ((∃ error, documentValue octets = .error error) ↔
      ∃ es, Meets document (.mapping es) ∧ ¬ Mergeable es) ∧
    (octets.all Text.isBlankOctet = false → ∀ origin,
      ((∃ error, (decode origin octets).2 = .error (.decode (.merge error))) ↔
        ∃ es, Meets document (.mapping es) ∧ ¬ Mergeable es)) := by
  have fails := documentValue_error_iff decoded
  refine ⟨?_, ?_, fails, ?_⟩
  · obtain ⟨n, stops⟩ := Walk.run_eq_resolve document
    refine ⟨n, fun m late => ?_⟩
    rw [stops m late, documentValue_eq decoded]
    cases resolve document <;> rfl
  · intro resolved success
    have resolves := (documentValue_ok_iff decoded).mp success
    exact resolves.agrees (Value.ofOctets_wellKeyed decoded)
  · intro text origin
    exact (decode_merge_iff text decoded).trans fails

/-- Two sources in a list, one of which has a merge key of its own. -/
theorem documentValue_agrees_listed :
    let octets := "a: &a {x: 1}\nb: {<<: [{x: 2}, {<<: *a, y: 3}], y: 4}".toList.map
      fun c => UInt8.ofNat c.toNat
    ∃ document resolved, Value.ofOctets octets = .ok document ∧
      documentValue octets = .ok resolved ∧ Agrees document resolved ∧
      octets.all Text.isBlankOctet = false ∧
      ¬ ∃ error, (decode "d" octets).2 = .error (.decode (.merge error)) := by
  intro octets
  have readable : (Value.ofOctets octets).isOk = true := by decide +kernel
  have sound : (documentValue octets).isOk = true := by decide +kernel
  have text : octets.all Text.isBlankOctet = false := by decide +kernel
  cases decoded : Value.ofOctets octets with
  | error e =>
    rw [decoded] at readable
    cases readable
  | ok document =>
    cases success : documentValue octets with
    | error e =>
      rw [success] at sound
      cases sound
    | ok resolved =>
      obtain ⟨_, means, fails, ends⟩ := documentValue_agrees decoded
      refine ⟨document, resolved, rfl, rfl, means resolved success, text, ?_⟩
      rw [ends text "d", ← fails, success]
      rintro ⟨error, failed⟩
      cases failed

end Deployment.Manifest
