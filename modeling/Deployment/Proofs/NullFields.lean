import Deployment.Proofs.Blocks
import Deployment.Proofs.MergeMeaning
import Deployment.Proofs.NullRecords
import Deployment.Proofs.UnknownKeys

namespace Deployment

open Yaml
open Yaml.Shape
open Outcome

namespace Yaml.Shape

theorem withDefault_null {α : Type} {default : α} {shape : Value → Except Mismatch α} :
    withDefault default shape .null = pure default :=
  rfl

theorem optional_null {α : Type} {shape : Value → Except Mismatch α} :
    optional shape .null = pure none :=
  rfl

end Yaml.Shape

section Thinned

/-- A template of a job with null fields left out. -/
def TemplateEntry.Thinned : Value → Value → Prop :=
  RecordThinned (TemplateEntry.fields.map (·.name)) []

def JobNetworkEntry.Thinned : Value → Value → Prop :=
  RecordThinned (JobNetworkEntry.fields.map (·.name)) []

def UpdateEntry.Thinned : Value → Value → Prop :=
  RecordThinned (UpdateEntry.fields.map (·.name)) []

/-- An entry of a section with null fields left out, and for a job also those of its templates and
of its network attachments. -/
def Section.Thinned : Section → Value → Value → Prop
  | .networks => RecordThinned (NetworkEntry.fields.map (·.name)) []
  | .resourcePools => RecordThinned (ResourcePoolEntry.fields.map (·.name)) []
  | .diskPools => RecordThinned (DiskPoolEntry.fields.map (·.name)) []
  | .jobs => RecordThinned (JobEntry.fields.map (·.name))
    [("templates", ListThinned TemplateEntry.Thinned),
     ("networks", ListThinned JobNetworkEntry.Thinned)]

/-- A document with null fields of the manifest left out, and those of the update policy and of the
entries in the sections. -/
def Manifest.Thinned : Value → Value → Prop :=
  RecordThinned ManifestEntry.keys
    [("update", UpdateEntry.Thinned),
     ("networks", ListThinned Section.networks.Thinned),
     ("resource_pools", ListThinned Section.resourcePools.Thinned),
     ("disk_pools", ListThinned Section.diskPools.Thinned),
     ("jobs", ListThinned Section.jobs.Thinned)]

end Thinned

section Defaults

theorem NetworkEntry.nullDefault : NullDefault NetworkEntry.fields {} := by
  constructor <;> simp [NetworkEntry.fields, withDefault_null, optional_null]

theorem ResourcePoolEntry.nullDefault : NullDefault ResourcePoolEntry.fields {} := by
  constructor <;> simp [ResourcePoolEntry.fields, withDefault_null]

theorem DiskPoolEntry.nullDefault : NullDefault DiskPoolEntry.fields {} := by
  constructor <;> simp [DiskPoolEntry.fields, withDefault_null]

theorem TemplateEntry.nullDefault : NullDefault TemplateEntry.fields {} := by
  constructor <;> simp [TemplateEntry.fields, withDefault_null]

theorem JobNetworkEntry.nullDefault : NullDefault JobNetworkEntry.fields {} := by
  constructor <;> simp [JobNetworkEntry.fields, withDefault_null]

theorem JobEntry.nullDefault : NullDefault JobEntry.fields {} := by
  constructor <;> simp [JobEntry.fields, withDefault_null, optional_null]

theorem UpdateEntry.nullDefault : NullDefault UpdateEntry.fields {} := by
  constructor <;> simp [UpdateEntry.fields, optional_null]

theorem ManifestEntry.nullDefault : NullDefault ManifestEntry.fields {} := by
  constructor <;> simp [ManifestEntry.fields, withDefault_null]

end Defaults

section Reading

variable {v w : Value} (once : v.TextsOnce)

include once

theorem TemplateEntry.read_thinned (thinned : TemplateEntry.Thinned v w) :
    TemplateEntry.read v = TemplateEntry.read w :=
  record_eq_flat (by decide) nullDefault once thinned _

theorem JobNetworkEntry.read_thinned (thinned : JobNetworkEntry.Thinned v w) :
    JobNetworkEntry.read v = JobNetworkEntry.read w :=
  record_eq_flat (by decide) nullDefault once thinned _

theorem UpdateEntry.read_thinned (thinned : UpdateEntry.Thinned v w) :
    UpdateEntry.read v = UpdateEntry.read w :=
  record_eq_flat (by decide) nullDefault once thinned _

theorem NetworkEntry.read_thinned (thinned : Section.networks.Thinned v w) :
    NetworkEntry.read v = NetworkEntry.read w :=
  record_eq_flat (by decide) nullDefault once thinned _

theorem ResourcePoolEntry.read_thinned (thinned : Section.resourcePools.Thinned v w) :
    ResourcePoolEntry.read v = ResourcePoolEntry.read w :=
  record_eq_flat (by decide) nullDefault once thinned _

theorem DiskPoolEntry.read_thinned (thinned : Section.diskPools.Thinned v w) :
    DiskPoolEntry.read v = DiskPoolEntry.read w :=
  record_eq_flat (by decide) nullDefault once thinned _

theorem JobEntry.read_thinned (thinned : Section.jobs.Thinned v w) :
    JobEntry.read v = JobEntry.read w := by
  have templates (v w : Value) (once : v.TextsOnce)
      (thinned : ListThinned TemplateEntry.Thinned v w) :
      withDefault [] (list TemplateEntry.read) v = withDefault [] (list TemplateEntry.read) w :=
    withDefault_list_eq .same (fun _ _ => TemplateEntry.read_thinned) once thinned
  have networks (v w : Value) (once : v.TextsOnce)
      (thinned : ListThinned JobNetworkEntry.Thinned v w) :
      withDefault [] (list JobNetworkEntry.read) v = withDefault [] (list JobNetworkEntry.read) w :=
    withDefault_list_eq .same (fun _ _ => JobNetworkEntry.read_thinned) once thinned
  have inhabited : Nonempty JobEntry := ⟨{}⟩
  refine record_eq (by decide) nullDefault ?_ once thinned _
  simpa [JobEntry.fields] using And.intro templates networks

theorem Section.entryName_thinned {part : Section} (thinned : part.Thinned v w) :
    entryName v = entryName w := by
  have text : (v.get? "name").bind Value.asString? = (w.get? "name").bind Value.asString? := by
    cases part <;> exact RecordThinned.get?_text thinned once (by simp)
  rw [entryName, entryName, text]

end Reading

section Sections

theorem readEach_eq {α β ε : Type} {read : Nat → α → Except ε β} {xs ys : List α} (i : Nat)
    (each : List.Forall₂ (fun x y => ∀ i, read i x = read i y) xs ys) :
    readEach read i xs = readEach read i ys := by
  induction each generalizing i with
  | nil => rfl
  | cons head tail ih => rw [readEach, readEach, head, ih]

theorem section_eq {ρ α : Type} {part : Section} {decode : Value → Except Mismatch ρ}
    {build : ρ → Except EntryError α} {vs ws : List Value}
    (decodes : ∀ v w, v.TextsOnce → part.Thinned v w → decode v = decode w)
    (thinned : List.Forall₂ (fun v w => v.TextsOnce ∧ part.Thinned v w) vs ws) :
    readEach (parseEntry part decode build) 0 vs =
      readEach (parseEntry part decode build) 0 ws := by
  refine readEach_eq 0 (thinned.imp ?_)
  rintro v w ⟨once, pair⟩ i
  rw [parseEntry, parseEntry, decodes v w once pair, Section.entryName_thinned once pair]

end Sections

/-- The content of a manifest with null fields left out in the entries of its sections. -/
structure ManifestEntry.Thinned (e f : ManifestEntry) : Prop where
  name : e.name = f.name
  update : e.update = f.update
  entries : ∀ part, List.Forall₂ (fun v w => v.TextsOnce ∧ part.Thinned v w)
    (e.entries part) (f.entries part)
  properties : e.properties = f.properties

namespace ManifestEntry

/-- The content of a manifest with other entries in a section. -/
def withEntries (e : ManifestEntry) (xs : List Value) : Section → ManifestEntry
  | .networks => { e with networks := xs }
  | .resourcePools => { e with resourcePools := xs }
  | .diskPools => { e with diskPools := xs }
  | .jobs => { e with jobs := xs }

theorem entries_withEntries (e : ManifestEntry) (xs : List Value) (part other : Section) :
    (e.withEntries xs part).entries other = if other = part then xs else e.entries other := by
  cases part <;> cases other <;> rfl

theorem Thinned.withEntries {e f : ManifestEntry} (start : e.Thinned f) (part : Section)
    {vs ws : List Value}
    (each : List.Forall₂ (fun v w => v.TextsOnce ∧ part.Thinned v w) vs ws) :
    (e.withEntries vs part).Thinned (f.withEntries ws part) where
  name := by cases part <;> exact start.name
  update := by cases part <;> exact start.update
  entries other := by
    rw [entries_withEntries, entries_withEntries]
    by_cases here : other = part
    · rw [if_pos here, if_pos here, here]
      exact each
    · rw [if_neg here, if_neg here]
      exact start.entries other
  properties := by cases part <;> exact start.properties

end ManifestEntry

namespace Manifest

theorem ofEntry_thinned {e f : ManifestEntry} (thinned : e.Thinned f) : ofEntry e = ofEntry f := by
  have networks : parseNetworks e.networks = parseNetworks f.networks :=
    section_eq (fun _ _ => NetworkEntry.read_thinned) (thinned.entries .networks)
  have resourcePools : parseResourcePools e.resourcePools = parseResourcePools f.resourcePools :=
    section_eq (fun _ _ => ResourcePoolEntry.read_thinned) (thinned.entries .resourcePools)
  have diskPools : parseDiskPools e.diskPools = parseDiskPools f.diskPools :=
    section_eq (fun _ _ => DiskPoolEntry.read_thinned) (thinned.entries .diskPools)
  have jobs : parseJobs e.jobs = parseJobs f.jobs :=
    section_eq (fun _ _ => JobEntry.read_thinned) (thinned.entries .jobs)
  rw [ofEntry, ofEntry, thinned.name, thinned.update, thinned.properties, networks, resourcePools,
    diskPools, jobs]

section Entries

variable {v w : Value} (once : v.TextsOnce)

include once

private theorem entries_alike (part : Section)
    (within : v = w ∨ ListThinned part.Thinned v w) :
    Alike (List.Forall₂ fun v w => v.TextsOnce ∧ part.Thinned v w)
      (withDefault [] (list anything) v) (withDefault [] (list anything) w) := by
  have thinned : ListThinned part.Thinned v w := by
    rcases within with rfl | below
    · exact .same v
    · exact below
  have itself (v : Value) : part.Thinned v v := by
    cases part <;> exact .same v
  have each (v w : Value) (once : v.TextsOnce) (pair : part.Thinned v w) :
      Alike (fun v w => v.TextsOnce ∧ part.Thinned v w) (anything v) (anything w) :=
    ⟨once, pair⟩
  exact withDefault_alike thinned.null_iff .nil (list_alike itself each once thinned)

private theorem update_eq (within : v = w ∨ UpdateEntry.Thinned v w) :
    withDefault {} UpdateEntry.read v = withDefault {} UpdateEntry.read w := by
  rcases within with rfl | thinned
  · rfl
  · have read := UpdateEntry.read_thinned once thinned
    exact alike_eq_iff.mp (withDefault_alike thinned.null_iff rfl (alike_eq_iff.mpr read))

theorem read_alike (thinned : Manifest.Thinned v w) :
    Alike ManifestEntry.Thinned (ManifestEntry.read v) (ManifestEntry.read w) := by
  refine record_alike (by decide) ManifestEntry.nullDefault ?_ ?_ once thinned _
  · intro f member v w once within r s start
    simp only [ManifestEntry.fields, List.mem_cons, List.not_mem_nil, or_false] at member
    rcases member with rfl | rfl | rfl | rfl | rfl | rfl | rfl
    · obtain rfl : v = w := by simpa using within
      refine (alike_eq_iff.mpr rfl).bind ?_
      rintro name _ _ _ rfl
      exact { start with name := rfl }
    · have same := update_eq once (by simpa using within)
      refine (alike_eq_iff.mpr same).bind ?_
      rintro update _ _ _ rfl
      exact { start with update := rfl }
    · exact (entries_alike once .networks (by simpa using within)).bind
        fun _ _ _ _ each => start.withEntries .networks each
    · exact (entries_alike once .resourcePools (by simpa using within)).bind
        fun _ _ _ _ each => start.withEntries .resourcePools each
    · exact (entries_alike once .diskPools (by simpa using within)).bind
        fun _ _ _ _ each => start.withEntries .diskPools each
    · exact (entries_alike once .jobs (by simpa using within)).bind
        fun _ _ _ _ each => start.withEntries .jobs each
    · obtain rfl : v = w := by simpa using within
      exact { start with properties := rfl }
  · refine ⟨rfl, rfl, fun part => ?_, rfl⟩
    cases part <;> exact .nil

end Entries

theorem ofDocument_thinned {origin : String} {v w : Value} (once : v.TextsOnce)
    (thinned : Manifest.Thinned v w) : ofDocument origin v = ofDocument origin w := by
  have entries : Alike ManifestEntry.Thinned (entryOf v) (entryOf w) := by
    rw [entryOf_eq, entryOf_eq]
    exact (read_alike once thinned).mapError
  have result : Alike Eq (entryOf v >>= ofEntry) (entryOf w >>= ofEntry) :=
    entries.bind fun e f _ _ pair => alike_eq_iff.mpr (ofEntry_thinned pair)
  rw [ofDocument, ofDocument, alike_eq_iff.mp result]

/-- Null fields can be left out of a decoded document whose keys have no tags, any of them and at
every level that is decoded. What is left leads to the same manifest or to the same error, and so
does every source that is decoded to it. -/
theorem nullFields_ignored {origin : String} {octets : List UInt8} {v w : Value}
    (decoded : .decoded origin v ∈ (parse origin (.ok octets)).1) (plain : v.PlainKeys)
    (thinned : Manifest.Thinned v w) :
    ofDocument origin w = (parse origin (.ok octets)).2 ∧
      ∀ others, .decoded origin w ∈ (parse origin (.ok others)).1 →
        (parse origin (.ok others)).2 = (parse origin (.ok octets)).2 := by
  obtain ⟨_, value⟩ := decoded_mem_iff.mp decoded
  have distinct : v.DistinctKeys := (documentValue_wellKeyed value).distinctKeys
  have same : ofDocument origin w = (parse origin (.ok octets)).2 := by
    rw [parse_eq_ofDocument decoded, ofDocument_thinned (distinct.textsOnce plain) thinned]
  exact ⟨same, fun others other => (parse_eq_ofDocument other).trans same⟩

/-- Of two null fields and an unknown key that is null, the fields are left out. -/
theorem nullFields_ignored_update :
    let octets := "name: d\nupdate: null\nnotes: null\njobs: ~".toList.map
      fun c => UInt8.ofNat c.toNat
    ∃ es fs, .decoded "d" (.mapping es) ∈ (parse "d" (.ok octets)).1 ∧
      (Value.mapping es).PlainKeys ∧ Manifest.Thinned (.mapping es) (.mapping fs) ∧
      es.length = 4 ∧ fs.length = 2 ∧
      ofDocument "d" (.mapping fs) = (parse "d" (.ok octets)).2 ∧
      (parse "d" (.ok octets)).2.isOk = true := by
  intro octets
  let keep (e : Value × Value) : Bool := !(recognized e && e.2.same .null)
  have text : octets.all Text.isBlankOctet = false := by decide +kernel
  have accepted : (parse "d" (.ok octets)).2.isOk = true := by decide +kernel
  have shape : ((documentValue octets).toOption.any fun v =>
      (v.parts.all fun w => w.entries.all fun e => !e.1.isTagged) &&
        v.entries.length == 4 && (v.entries.filter keep).length == 2) = true := by
    decide +kernel
  cases value : documentValue octets with
  | error e =>
    rw [value] at shape
    cases shape
  | ok v =>
    rw [value] at shape
    simp only [Except.toOption, Option.any_some, Bool.and_eq_true, beq_iff_eq] at shape
    obtain ⟨⟨untagged, four⟩, two⟩ := shape
    cases v with
    | mapping es =>
      have decoded : .decoded "d" (.mapping es) ∈ (parse "d" (.ok octets)).1 :=
        decoded_mem_iff.mpr ⟨text, value⟩
      have plain : (Value.mapping es).PlainKeys := by
        rintro w part gs rfl e member
        simpa using List.all_eq_true.mp (List.all_eq_true.mp untagged _ part) e member
      have thinned : Manifest.Thinned (.mapping es) (.mapping (es.filter keep)) := by
        refine .mapping (.filter fun e member left => ?_)
        have fields : recognized e = true ∧ e.2.same .null = true := by simpa [keep] using left
        cases key : e.1.asString? with
        | none => simp [recognized_of_nonText key] at fields
        | some name =>
          have known : name ∈ ManifestEntry.keys := by
            simpa [recognized_of_text key] using fields.1
          have own := eq_string_of_untagged (plain _ (Value.mem_parts_self _) es rfl e member) key
          have null : e.2 = .null := by
            cases said : e.2 <;> simp [said, Value.same] at fields ⊢
          exact ⟨name, known, Prod.ext own null⟩
      have same := (nullFields_ignored decoded plain thinned).1
      exact ⟨es, es.filter keep, decoded, plain, thinned, four, two, same, accepted⟩
    | _ => cases four

end Manifest

end Deployment
