import Deployment.Proofs.EntryGrammar
import Deployment.Proofs.Texts

namespace Deployment

open Yaml (Mismatch Value)
open Outcome

/-- The entries of a section of a document. -/
def Section.entriesOf (e : ManifestEntry) : Section → List Value
  | .networks => e.networks
  | .resourcePools => e.resourcePools
  | .diskPools => e.diskPools
  | .jobs => e.jobs

section Sections

variable {ρ α : Type} {part : Section} {decode : Value → Except Mismatch ρ}
  {checks : ρ → List EntryCheck} {build : ρ → Except EntryError α} {entries : List Value}

theorem decode_check_of_mem {outline : Value → Prop} (accepts : Yaml.Shape.Accepts decode outline)
    (content : ∀ x, ∀ check ∈ checks x, ∀ mismatch, check ≠ .decode mismatch) {c : SectionCheck}
    {mismatch : Option Mismatch} (member : c ∈ sectionChecks part decode checks entries)
    (decodes : c.check = .decode mismatch) :
    c.part = part ∧ ∃ entry, entries[c.label.index]? = some entry ∧
      (mismatch = none ↔ outline entry) := by
  simp only [sectionChecks, checksOfEach, List.mem_flatten, List.mem_mapIdx] at member
  obtain ⟨_, ⟨i, bound, rfl⟩, member⟩ := member
  obtain ⟨check, listed, rfl⟩ := List.mem_map.mp member
  refine ⟨rfl, entries[i], List.getElem?_eq_getElem bound, ?_⟩
  rw [← accepts, entryChecks] at *
  change check = _ at decodes
  subst decodes
  cases decoded : decode entries[i] with
  | error fault =>
    rw [decoded, List.mem_singleton] at listed
    cases listed
    simp
  | ok x =>
    rw [decoded, List.mem_cons] at listed
    rcases listed with same | inside
    · cases same
      simp
    · exact absurd rfl (content x _ inside mismatch)

variable (part decode) in
theorem section_passes_iff (content : ∀ e, Takes EntryCheck.verdict (checks e) (build e)) :
    (∀ c ∈ (sectionChecks part decode checks entries).map Check.entry, c.verdict = none) ↔
      ∃ xs, readEach (parseEntry part decode build) 0 entries = .ok xs := by
  rw [← (section_takes content entries).exists_ok_iff]
  simp only [mapError_eq_ok]

end Sections

theorem content_of_job (e : JobEntry) :
    ∀ check ∈ e.checks, ∀ mismatch, check ≠ .decode mismatch := by
  intro check member mismatch
  simp only [JobEntry.checks, checksOfEach, List.mem_append, List.mem_flatten, List.mem_mapIdx,
    List.mem_singleton] at member
  rcases member with (⟨_, ⟨i, _, rfl⟩, inside⟩ | ⟨_, ⟨i, _, rfl⟩, inside⟩) | rfl
  · simp [List.mem_singleton.mp inside]
  · simp [List.mem_singleton.mp inside]
  · simp

namespace ManifestEntry

theorem decode_check {e : ManifestEntry} {c : SectionCheck} {mismatch : Option Mismatch}
    (member : Check.entry c ∈ e.checks) (decodes : c.check = .decode mismatch) :
    ∃ entry, (c.part.entriesOf e)[c.label.index]? = some entry ∧
      (mismatch = none ↔ c.part.outline.Fits entry) := by
  simp only [checks, List.mem_append, List.mem_map, List.mem_cons, List.not_mem_nil, or_false,
    reduceCtorEq, Check.entry.injEq, exists_eq_right] at member
  rcases member with ((networks | resourcePools) | diskPools) | jobs
  · obtain ⟨same, found⟩ := decode_check_of_mem NetworkEntry.accepts
      (by simp [NetworkEntry.checks]) networks decodes
    rw [same]
    exact found
  · obtain ⟨same, found⟩ := decode_check_of_mem ResourcePoolEntry.accepts
      (by simp [ResourcePoolEntry.checks]) resourcePools decodes
    rw [same]
    exact found
  · obtain ⟨same, found⟩ := decode_check_of_mem DiskPoolEntry.accepts
      (by simp [DiskPoolEntry.checks]) diskPools decodes
    rw [same]
    exact found
  · obtain ⟨same, found⟩ := decode_check_of_mem JobEntry.accepts content_of_job jobs decodes
    rw [same]
    exact found

theorem passes_iff (e : ManifestEntry) :
    (∀ c ∈ e.checks, c.verdict = none) ↔
      (∀ part : Section, ∀ entry ∈ part.entriesOf e, part.grammar.Fits entry) ∧
        Value.OrNull IsBlock e.properties ∧ ∃ w, Manifest.watchTimeOf e.update = .ok w := by
  have networks := (section_passes_iff .networks NetworkEntry.read
    Network.ofEntry_takes).trans (Section.accepts_iff .networks e.networks)
  have resourcePools := (section_passes_iff .resourcePools ResourcePoolEntry.read
    ResourcePool.ofEntry_takes).trans (Section.accepts_iff .resourcePools e.resourcePools)
  have diskPools := (section_passes_iff .diskPools DiskPoolEntry.read
    DiskPool.ofEntry_takes).trans (Section.accepts_iff .diskPools e.diskPools)
  have jobs := (section_passes_iff .jobs JobEntry.read
    Job.ofEntry_takes).trans (Section.accepts_iff .jobs e.jobs)
  have properties : (Check.properties e.properties).verdict = none ↔
      Value.OrNull IsBlock e.properties := by
    rw [Check.verdict, Option.map_eq_none_iff, error?_eq_none_iff, exists_build_iff]
  have watchTime : (Check.watchTime e.update).verdict = none ↔
      ∃ w, Manifest.watchTimeOf e.update = .ok w := by
    rw [Check.verdict, Option.map_eq_none_iff, error?_eq_none_iff]
  simp only [checks, List.forall_mem_append, networks, resourcePools, diskPools, jobs,
    List.forall_mem_cons, properties, watchTime]
  constructor
  · rintro ⟨⟨⟨⟨first, second⟩, third⟩, fourth⟩, block, interval, -⟩
    refine ⟨?_, block, interval⟩
    intro part
    cases part <;> assumption
  · rintro ⟨fits, block, interval⟩
    exact ⟨⟨⟨⟨fits .networks, fits .resourcePools⟩, fits .diskPools⟩, fits .jobs⟩, block, interval,
      by simp⟩

end ManifestEntry

namespace Manifest

/-- A decoded document without a name is reported as such. With a name, it is a manifest when all
of its checks pass, and otherwise it has the fault of the first that does not: any other document
whose checks are the same so far has the same fault. All checks pass exactly if every entry fits the
grammar of its section, the properties are a block and the watch time can be had, and an entry
decodes exactly if it has the outline of this grammar. -/
theorem parse_first_fault {origin : String} {octets : List UInt8} {e : ManifestEntry}
    (decoded : (decode origin octets).2 = .ok e) :
    (Text.Trimmed e.name.toList [] →
      (parse origin (.ok octets)).2 = .error ⟨origin, .missingName⟩) ∧
    (¬ Text.Trimmed e.name.toList [] →
      ((∃ m, (parse origin (.ok octets)).2 = .ok m) ↔ ∀ c ∈ e.checks, c.verdict = none) ∧
      (∀ error, (parse origin (.ok octets)).2 = .error error ↔
        error.origin = origin ∧ ∃ before c after, e.checks = before ++ c :: after ∧
          c.verdict = some error.fault ∧ ∀ b ∈ before, b.verdict = none) ∧
      ∀ origin' octets' e', (decode origin' octets').2 = .ok e' →
        ¬ Text.Trimmed e'.name.toList [] →
        ∀ before c after changed, e.checks = before ++ c :: after →
          e'.checks = before ++ c :: changed → c.verdict ≠ none →
          ∃ fault, (parse origin (.ok octets)).2 = .error ⟨origin, fault⟩ ∧
            (parse origin' (.ok octets')).2 = .error ⟨origin', fault⟩) ∧
    ((∀ c ∈ e.checks, c.verdict = none) ↔
      (∀ part : Section, ∀ entry ∈ part.entriesOf e, part.grammar.Fits entry) ∧
        Value.OrNull IsBlock e.properties ∧ ∃ w, watchTimeOf e.update = .ok w) ∧
    ∀ c mismatch, Check.entry c ∈ e.checks → c.check = .decode mismatch →
      ∃ entry, (c.part.entriesOf e)[c.label.index]? = some entry ∧
        (mismatch = none ↔ c.part.outline.Fits entry) := by
  rw [parse_eq_ofEntry decoded]
  simp only [Text.trimmed_empty_iff]
  refine ⟨?_, ?_, e.passes_iff, fun c mismatch => ManifestEntry.decode_check⟩
  · intro blank
    rw [ofEntry, if_pos blank]
    rfl
  · intro nonblank
    refine ⟨?_, fun error => ?_, ?_⟩
    · simp only [mapError_eq_ok]
      exact ofEntry_ok_iff nonblank
    · rw [← error?_eq_some_iff, error?_mapError, ← ofEntry_error_iff nonblank,
        ← error?_eq_some_iff, Option.map_eq_some_iff]
      constructor
      · rintro ⟨fault, failed, rfl⟩
        exact ⟨rfl, failed⟩
      · rintro ⟨rfl, failed⟩
        exact ⟨error.fault, failed, rfl⟩
    · intro origin' octets' e' decoded' nonblank' before c after changed checks common fails
      obtain ⟨fault, first, second⟩ :=
        ofEntry_fault_stable nonblank nonblank' checks common fails
      rw [parse_eq_ofEntry decoded', first, second]
      exact ⟨fault, rfl, rfl⟩

/-- The second network is at fault before the job that is no mapping. -/
theorem parse_first_fault_network :
    let octets := "name: d\nnetworks: [{}, {name: b, cloud_properties: 1}]\njobs: [1]".toList.map
      fun c => UInt8.ofNat c.toNat
    ∃ e error, (decode "d" octets).2 = .ok e ∧ ¬ Text.Trimmed e.name.toList [] ∧
      (parse "d" (.ok octets)).2 = .error error ∧
      error.message = "parsing deployment manifest 'd': parsing networks: " ++
        "network 'b' (index 1): cloud_properties: expected a mapping, found 'integer'" ∧
      ∃ before c after, e.checks = before ++ c :: after ∧ c.verdict = some error.fault ∧
        ∀ b ∈ before, b.verdict = none := by
  intro octets
  have named : (match (decode "d" octets).2 with
      | .ok e => decide (Text.trimString e.name ≠ "")
      | .error _ => false) = true := by decide +kernel
  have reported : (error? (parse "d" (.ok octets)).2).map (·.message) =
      some ("parsing deployment manifest 'd': parsing networks: " ++
        "network 'b' (index 1): cloud_properties: expected a mapping, found 'integer'") := by
    decide +kernel
  cases decoded : (decode "d" octets).2 with
  | error fault =>
    rw [decoded] at named
    cases named
  | ok e =>
    rw [decoded] at named
    have nonblank := mt Text.trimmed_empty_iff.mp (of_decide_eq_true named)
    obtain ⟨error, failed, message⟩ := Option.map_eq_some_iff.mp reported
    rw [error?_eq_some_iff] at failed
    have first := (((parse_first_fault decoded).2.1 nonblank).2.1 error).mp failed
    exact ⟨e, error, rfl, nonblank, failed, message, first.2⟩

end Manifest

end Deployment
