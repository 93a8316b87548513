import Deployment.Proofs.Stages

/-!
Which fault a manifest is reported with, when there may be many: its checks have a fixed order, and
the first that does not pass decides. What comes after it does not matter.
-/

namespace Deployment

open Yaml (Value Mismatch)
open Outcome

/-- A check that an entry of a section has to pass. Whether it decodes is known with the entry. -/
inductive EntryCheck where
  | decode (mismatch : Option Mismatch)
  | templateName (index : Nat) (name : String)
  | networkName (index : Nat) (name : String)
  | block (b : Block) (v : Value)

def EntryCheck.verdict : EntryCheck → Option EntryError
  | .decode mismatch => mismatch.map .decode
  | .templateName i name => if name = "" then some (.missingTemplateName i) else none
  | .networkName i name => if name = "" then some (.missingNetworkName i) else none
  | .block b v => (error? (PropertyMap.build v)).map (.properties b)

structure SectionCheck where
  part : Section
  label : EntryLabel
  check : EntryCheck

def SectionCheck.verdict (c : SectionCheck) : Option SectionError :=
  c.check.verdict.map (⟨c.part, c.label, ·⟩)

/-- A check that a manifest has to pass. -/
inductive Check where
  | entry (c : SectionCheck)
  | properties (v : Value)
  | watchTime (e : UpdateEntry)

def Check.verdict : Check → Option ManifestFault
  | .entry c => c.verdict.map .entries
  | .properties v => (error? (PropertyMap.build v)).map .properties
  | .watchTime e => (error? (Manifest.watchTimeOf e)).map .watchTime

def checksOfEach {α γ : Type} (checks : Nat → α → List γ) (xs : List α) : List γ :=
  (xs.mapIdx checks).flatten

def NetworkEntry.checks (e : NetworkEntry) : List EntryCheck :=
  [.block .cloudProperties e.cloudProperties]

def ResourcePoolEntry.checks (e : ResourcePoolEntry) : List EntryCheck :=
  [.block .cloudProperties e.cloudProperties, .block .env e.env]

def DiskPoolEntry.checks (e : DiskPoolEntry) : List EntryCheck :=
  [.block .cloudProperties e.cloudProperties]

def JobEntry.checks (e : JobEntry) : List EntryCheck :=
  checksOfEach (fun i t => [.templateName i t.name]) e.templates ++
    checksOfEach (fun i n => [.networkName i n.name]) e.networks ++
      [.block .properties e.properties]

/-- The checks of an entry: whether it decodes and, if so, those of its content. -/
def entryChecks {ρ : Type} (decode : Value → Except Mismatch ρ) (checks : ρ → List EntryCheck)
    (entry : Value) : List EntryCheck :=
  match decode entry with
  | .ok e => .decode none :: checks e
  | .error mismatch => [.decode (some mismatch)]

def sectionChecks {ρ : Type} (part : Section) (decode : Value → Except Mismatch ρ)
    (checks : ρ → List EntryCheck) (entries : List Value) : List SectionCheck :=
  checksOfEach (fun i entry =>
    (entryChecks decode checks entry).map (⟨part, ⟨i, entryName entry⟩, ·⟩)) entries

/-- The checks of a manifest that has a name, in their order. -/
def ManifestEntry.checks (e : ManifestEntry) : List Check :=
  (sectionChecks .networks NetworkEntry.read NetworkEntry.checks e.networks).map .entry ++
    (sectionChecks .resourcePools ResourcePoolEntry.read ResourcePoolEntry.checks
      e.resourcePools).map .entry ++
    (sectionChecks .diskPools DiskPoolEntry.read DiskPoolEntry.checks e.diskPools).map .entry ++
    (sectionChecks .jobs JobEntry.read JobEntry.checks e.jobs).map .entry ++
    [.properties e.properties, .watchTime e.update]

private theorem readEach_takes_from {α β γ ε : Type} {verdict : γ → Option ε}
    {checks : Nat → α → List γ} {read : Nat → α → Except ε β}
    (each : ∀ i x, Takes verdict (checks i x) (read i x)) (xs : List α) (i : Nat) :
    Takes verdict (checksOfEach (fun k x => checks (i + k) x) xs) (readEach read i xs) := by
  -- The recursion moves the first index on, so the indices are counted from any `i`.
  induction xs generalizing i with
  | nil => exact takes_ok
  | cons x rest ih =>
    have shifted : checksOfEach (fun k x => checks (i + k) x) (x :: rest) =
        checks i x ++ (checksOfEach (fun k x => checks (i + 1 + k) x) rest ++ []) := by
      simp [checksOfEach, List.mapIdx_cons, Nat.add_assoc, Nat.add_comm 1]
    rw [shifted, readEach]
    refine (each i x).bind fun y => ?_
    exact (ih (i + 1)).bind fun ys => takes_ok

theorem readEach_takes {α β γ ε : Type} {verdict : γ → Option ε} {checks : Nat → α → List γ}
    {read : Nat → α → Except ε β} (each : ∀ i x, Takes verdict (checks i x) (read i x))
    (xs : List α) : Takes verdict (checksOfEach checks xs) (readEach read 0 xs) := by
  have fromZero := readEach_takes_from each xs 0
  simpa only [Nat.zero_add] using fromZero

theorem propertyBlock_takes (block : Block) (v : Value) :
    Takes EntryCheck.verdict [.block block v] (propertyBlock block v) :=
  takes_single error?_mapError

theorem Network.ofEntry_takes (e : NetworkEntry) :
    Takes EntryCheck.verdict e.checks (Network.ofEntry e) :=
  (propertyBlock_takes .cloudProperties e.cloudProperties).bind fun _ => takes_ok

theorem ResourcePool.ofEntry_takes (e : ResourcePoolEntry) :
    Takes EntryCheck.verdict e.checks (ResourcePool.ofEntry e) :=
  (propertyBlock_takes .cloudProperties e.cloudProperties).bind fun _ =>
    (propertyBlock_takes .env e.env).bind fun _ => takes_ok

theorem DiskPool.ofEntry_takes (e : DiskPoolEntry) :
    Takes EntryCheck.verdict e.checks (DiskPool.ofEntry e) :=
  (propertyBlock_takes .cloudProperties e.cloudProperties).bind fun _ => takes_ok

private theorem template_takes (i : Nat) (e : TemplateEntry) :
    Takes EntryCheck.verdict [.templateName i e.name] (TemplateRef.ofEntry i e) := by
  refine takes_single ?_
  unfold TemplateRef.ofEntry
  by_cases nameless : e.name = ""
  · simp [EntryCheck.verdict, nameless, error?]
  · simp [EntryCheck.verdict, nameless, error?]

private theorem attachment_takes (i : Nat) (e : JobNetworkEntry) :
    Takes EntryCheck.verdict [.networkName i e.name] (JobNetwork.ofEntry i e) := by
  refine takes_single ?_
  unfold JobNetwork.ofEntry
  by_cases nameless : e.name = ""
  · simp [EntryCheck.verdict, nameless, error?]
  · simp [EntryCheck.verdict, nameless, error?]

theorem Job.ofEntry_takes (e : JobEntry) :
    Takes EntryCheck.verdict e.checks (Job.ofEntry e) := by
  rw [JobEntry.checks, List.append_assoc]
  refine (readEach_takes template_takes e.templates).bind fun _ => ?_
  refine (readEach_takes attachment_takes e.networks).bind fun _ => ?_
  exact (propertyBlock_takes .properties e.properties).bind fun _ => takes_ok

section Sections

variable {ρ α : Type} {part : Section} {decode : Value → Except Mismatch ρ}
  {checks : ρ → List EntryCheck} {build : ρ → Except EntryError α}

theorem parseEntry_takes (content : ∀ e, Takes EntryCheck.verdict (checks e) (build e)) (i : Nat)
    (entry : Value) :
    Takes SectionCheck.verdict
      ((entryChecks decode checks entry).map (⟨part, ⟨i, entryName entry⟩, ·⟩))
      (parseEntry part decode build i entry) := by
  have unplaced : Takes EntryCheck.verdict (entryChecks decode checks entry)
      (((decode entry).mapError .decode).bind build) := by
    unfold entryChecks
    cases decoded : decode entry with
    | error mismatch => rfl
    | ok e => exact content e
  exact unplaced.placed fun _ => rfl

theorem section_takes (content : ∀ e, Takes EntryCheck.verdict (checks e) (build e))
    (entries : List Value) :
    Takes Check.verdict ((sectionChecks part decode checks entries).map .entry)
      ((readEach (parseEntry part decode build) 0 entries).mapError .entries) :=
  (readEach_takes (parseEntry_takes content) entries).placed fun _ => rfl

end Sections

namespace Manifest

theorem ofEntry_takes {e : ManifestEntry} (nonblank : Text.trimString e.name ≠ "") :
    Takes Check.verdict e.checks (ofEntry e) := by
  unfold ofEntry ManifestEntry.checks
  rw [if_neg nonblank]
  simp only [List.append_assoc]
  refine (section_takes Network.ofEntry_takes e.networks).bind fun _ => ?_
  refine (section_takes ResourcePool.ofEntry_takes e.resourcePools).bind fun _ => ?_
  refine (section_takes DiskPool.ofEntry_takes e.diskPools).bind fun _ => ?_
  refine (section_takes Job.ofEntry_takes e.jobs).bind fun _ => ?_
  have properties : Takes Check.verdict [.properties e.properties]
      ((PropertyMap.build e.properties).mapError .properties) := takes_single error?_mapError
  have watchTime : Takes Check.verdict [.watchTime e.update]
      ((watchTimeOf e.update).mapError .watchTime) := takes_single error?_mapError
  exact properties.bind fun _ => watchTime.bind fun _ => takes_ok

theorem parse_eq_ofEntry {origin : String} {octets : List UInt8} {e : ManifestEntry}
    (decoded : (decode origin octets).2 = .ok e) :
    (parse origin (.ok octets)).2 = (ofEntry e).mapError (ManifestError.mk origin) := by
  rw [parse_octets, decoded]
  rfl

theorem ofEntry_error_iff {e : ManifestEntry} (nonblank : Text.trimString e.name ≠ "")
    {fault : ManifestFault} :
    ofEntry e = .error fault ↔ ∃ before c after, e.checks = before ++ c :: after ∧
      c.verdict = some fault ∧ ∀ b ∈ before, b.verdict = none := by
  rw [← error?_eq_some_iff, ofEntry_takes nonblank, List.findSome?_eq_some_iff]

theorem ofEntry_ok_iff {e : ManifestEntry} (nonblank : Text.trimString e.name ≠ "") :
    (∃ m, ofEntry e = .ok m) ↔ ∀ c ∈ e.checks, c.verdict = none :=
  (ofEntry_takes nonblank).exists_ok_iff

theorem ofEntry_fault_stable {e other : ManifestEntry} {before after changed : List Check}
    {c : Check} (nonblank : Text.trimString e.name ≠ "")
    (named : Text.trimString other.name ≠ "") (checks : e.checks = before ++ c :: after)
    (common : other.checks = before ++ c :: changed) (fails : c.verdict ≠ none) :
    ∃ fault, ofEntry e = .error fault ∧ ofEntry other = .error fault := by
  -- The check that fails ends the search, whatever the rest is.
  have start (rest : List Check) : (before ++ c :: rest).findSome? Check.verdict =
      (before ++ [c]).findSome? Check.verdict := by
    cases verdict : c.verdict with
    | none => exact absurd verdict fails
    | some fault => simp [verdict]
  have failing : (before ++ [c]).findSome? Check.verdict ≠ none := by
    rw [ne_eq, List.findSome?_eq_none_iff]
    exact fun all => fails (all c (by simp))
  obtain ⟨fault, first⟩ := Option.ne_none_iff_exists'.mp failing
  refine ⟨fault, error?_eq_some_iff.mp ?_, error?_eq_some_iff.mp ?_⟩
  · rw [ofEntry_takes nonblank, checks, start, first]
  · rw [ofEntry_takes named, common, start, first]

end Manifest

end Deployment
