import Deployment.Proofs.EntryGrammar
import Deployment.Proofs.NullRecords
import Deployment.Proofs.SectionLists

namespace Deployment

open Yaml
open Yaml.Shape
open Outcome

/-- Whether a mapping has a text among its keys, but under a tag. -/
def Yaml.Value.TagsKey (v : Value) (name : String) : Prop :=
  ∃ es, v.untagged = .mapping es ∧ ∃ e ∈ es, e.1.isTagged = true ∧ e.1.asString? = some name

/-- The name of an entry of a section, once it is decoded. -/
def Section.nameOf : Section → Value → Except Mismatch String
  | .networks, v => (NetworkEntry.read v).map (·.name)
  | .resourcePools, v => (ResourcePoolEntry.read v).map (·.name)
  | .diskPools, v => (DiskPoolEntry.read v).map (·.name)
  | .jobs, v => (JobEntry.read v).map (·.name)

section Written

variable {names : List String} {name s : String} {v : Value}

/-- In a record, the value under a plain key is that of the field, unless the key has a tag. -/
theorem get?_of_record (record : v.IsRecord names) (known : name ∈ names) :
    (v.TagsKey name → v.get? name = none) ∧
      (¬ v.TagsKey name → (v.get? name).getD .null = v.field name) := by
  rcases record with null | ⟨es, mapping, _, once⟩
  · simp [Value.TagsKey, Value.get?, Value.field, null]
  · have tags : v.TagsKey name ↔ ∃ e ∈ es, e.1.isTagged = true ∧ e.1.asString? = some name := by
      simp [Value.TagsKey, mapping]
    simp only [tags, Value.get?, Value.field, mapping]
    constructor
    · rintro ⟨e, member, tagged, text⟩
      rw [Value.find?, Option.map_eq_none_iff, List.find?_eq_none]
      intro f other plain
      have own : f.1 = .string name := Value.isString_iff.mp plain
      have first := find?_text_of_mem once known member text
      have second := find?_text_of_mem once known other (by rw [own]; rfl)
      -- A plain key of that name would be a second one, which a record does not have.
      obtain rfl : e = f := Option.some.inj (first.symm.trans second)
      rw [own] at tagged
      cases tagged
    · intro untagged
      rw [Value.find?]
      cases found : es.find? fun e => e.1.isString name with
      | some e =>
        have own : e.1 = .string name := Value.isString_iff.mp (by simpa using List.find?_some found)
        have member := List.mem_of_find?_eq_some found
        exact (fieldOf_of_mem once known member (by rw [own]; rfl)).symm
      | none =>
        have absent : es.find? (·.1.asString? == some name) = none := by
          refine List.find?_eq_none.mpr fun e member text => ?_
          have key : e.1.asString? = some name := by simpa using text
          have plain : e.1.isTagged = false := by
            simpa using fun tagged => untagged ⟨e, member, tagged, key⟩
          have own := eq_string_of_untagged plain key
          exact List.find?_eq_none.mp found e member (Value.isString_iff.mpr own)
        rw [fieldOf, absent]

theorem asString?_of_text (read : withDefault "" text v = .ok s) :
    v.asString?.filter (· ≠ "") = if s = "" then none else some s := by
  by_cases null : v = .null
  · subst null
    cases read
    rfl
  · rw [withDefault_of_ne_null null, text] at read
    split at read
    · rename_i t own
      cases read
      by_cases empty : s = ""
      · simp [Value.asString?, own, empty]
      · simp [Value.asString?, own, empty]
    · cases read

theorem entryName_eq (record : v.IsRecord names) (known : "name" ∈ names)
    (read : withDefault "" text (v.field "name") = .ok s) :
    (v.TagsKey "name" → entryName v = none) ∧
      (¬ v.TagsKey "name" → entryName v = if s = "" then none else some s) := by
  obtain ⟨hidden, shown⟩ := get?_of_record record known
  constructor
  · intro tagged
    rw [entryName, hidden tagged]
    rfl
  · intro plain
    rw [← asString?_of_text read, ← shown plain, entryName]
    cases v.get? "name" <;> rfl

end Written

section Sections

variable {part : Section} {v : Value} {name : String}

private theorem name_of_record {ρ : Type} {fields : List (RecordField ρ)} {title : String}
    {initial : ρ} {outline : Grammar} {get : ρ → String}
    (accepts : Accepts (record title fields initial) outline.Fits)
    (governs : Governs fields "name" (withDefault "" text) get) (absent : get initial = "")
    (decoded : (record title fields initial v).map get = .ok name) :
    v.IsRecord (outline.map (·.1)) ∧ withDefault "" text (v.field "name") = .ok name := by
  obtain ⟨e, read, rfl⟩ := map_eq_ok.mp decoded
  refine ⟨((accepts v).mp ⟨e, read⟩).1, record_field governs ?_ read⟩
  rw [absent]
  rfl

theorem Section.nameOf_ok (decoded : part.nameOf v = .ok name) :
    v.IsRecord (part.outline.map (·.1)) ∧ withDefault "" text (v.field "name") = .ok name := by
  cases part with
  | networks =>
    refine name_of_record NetworkEntry.accepts ?_ rfl decoded
    constructor <;> simp [NetworkEntry.fields, bind_eq_ok, pure, Except.pure]
  | resourcePools =>
    refine name_of_record ResourcePoolEntry.accepts ?_ rfl decoded
    constructor <;> simp [ResourcePoolEntry.fields, bind_eq_ok, pure, Except.pure]
  | diskPools =>
    refine name_of_record DiskPoolEntry.accepts ?_ rfl decoded
    constructor <;> simp [DiskPoolEntry.fields, bind_eq_ok, pure, Except.pure]
  | jobs =>
    refine name_of_record JobEntry.accepts ?_ rfl decoded
    constructor <;> simp [JobEntry.fields, bind_eq_ok, pure, Except.pure]

theorem not_decode_of_takes {α : Type} {checks : List EntryCheck} {x : Except EntryError α}
    {cause : EntryError} (taken : Takes EntryCheck.verdict checks x)
    (content : ∀ mismatch, .decode mismatch ∉ checks) (failed : x = .error cause) :
    ∀ m, cause ≠ .decode m := by
  rintro m rfl
  obtain ⟨c, member, verdict⟩ := taken.exists_check failed
  cases c with
  | decode mismatch => exact content mismatch member
  | templateName i name =>
    rw [EntryCheck.verdict] at verdict
    split at verdict <;> cases verdict
  | networkName i name =>
    rw [EntryCheck.verdict] at verdict
    split at verdict <;> cases verdict
  | block b v =>
    obtain ⟨_, _, same⟩ := Option.map_eq_some_iff.mp verdict
    cases same

private theorem label_of_readEach {ρ α : Type} {decode : Value → Except Mismatch ρ}
    {build : ρ → Except EntryError α} {checks : ρ → List EntryCheck} {entries : List Value}
    {error : SectionError} (taken : ∀ r, Takes EntryCheck.verdict (checks r) (build r))
    (content : ∀ r mismatch, .decode mismatch ∉ checks r)
    (failed : readEach (parseEntry part decode build) 0 entries = .error error) :
    ∃ entry, entries[error.label.index]? = some entry ∧ error.label.name = entryName entry ∧
      ((∃ r, decode entry = .ok r) ↔ ∀ m, error.cause ≠ .decode m) := by
  obtain ⟨before, entry, after, _, rfl, _, fault⟩ := readEach_error failed
  obtain ⟨cause, rfl, reason⟩ := parseEntry_error fault
  refine ⟨entry, by simp, rfl, ?_⟩
  rcases reason with ⟨m, miss, rfl⟩ | ⟨r, decoded, unbuilt⟩
  · simp [miss]
  · simpa [decoded] using not_decode_of_takes (taken r) (content r) unbuilt

theorem Section.label_of_parse {entries : List Value} {error : SectionError}
    (failed : part.parse entries = .error error) :
    ∃ entry, entries[error.label.index]? = some entry ∧ error.label.name = entryName entry ∧
      ((∃ name, part.nameOf entry = .ok name) ↔ ∀ m, error.cause ≠ .decode m) := by
  cases part with
  | networks =>
    simp only [nameOf, exists_map_iff]
    exact label_of_readEach Network.ofEntry_takes (by simp [NetworkEntry.checks]) failed
  | resourcePools =>
    simp only [nameOf, exists_map_iff]
    exact label_of_readEach ResourcePool.ofEntry_takes (by simp [ResourcePoolEntry.checks]) failed
  | diskPools =>
    simp only [nameOf, exists_map_iff]
    exact label_of_readEach DiskPool.ofEntry_takes (by simp [DiskPoolEntry.checks]) failed
  | jobs =>
    simp only [nameOf, exists_map_iff]
    refine label_of_readEach Job.ofEntry_takes (fun e mismatch => ?_) failed
    simp [JobEntry.checks, checksOfEach]

/-- An error of a section is labelled with the entry at its index. When this entry is decoded, the
label shows its name, or none for an empty one, except that it misses the name of a key that is under
a tag. -/
theorem Section.label_names {entries : List Value} {error : SectionError}
    (failed : part.parse entries = .error error) :
    ∃ entry, entries[error.label.index]? = some entry ∧
      ((∃ name, part.nameOf entry = .ok name) ↔ ∀ m, error.cause ≠ .decode m) ∧
      ∀ name, part.nameOf entry = .ok name →
        (error.label.name = (if name = "" then none else some name) ↔
          name = "" ∨ ¬ entry.TagsKey "name") ∧
        (entry.TagsKey "name" → error.label.name = none) := by
  obtain ⟨entry, place, label, decoded⟩ := label_of_parse failed
  refine ⟨entry, place, decoded, fun name read => ?_⟩
  obtain ⟨record, field⟩ := nameOf_ok read
  have known : "name" ∈ part.outline.map (·.1) := by
    cases part <;> simp [outline, grammarWith]
  obtain ⟨hidden, shown⟩ := entryName_eq record known field
  rw [label]
  refine ⟨?_, hidden⟩
  by_cases tagged : entry.TagsKey "name"
  · by_cases empty : name = ""
    · simp [hidden tagged, empty]
    · simp [hidden tagged, empty, tagged]
  · simp [shown tagged, tagged]

/-- A network whose name has a tagged key, behind a null: it is decoded under its name, and its
label shows none. -/
theorem Section.label_names_tagged :
    let entry : Value := .mapping
      [(.tagged ⟨"k"⟩ (.string "name"), .string "web"), (.string "cloud_properties", .bool true)]
    ∃ error, networks.parse [.null, entry] = .error error ∧ error.label.index = 1 ∧
      networks.nameOf entry = .ok "web" ∧ entry.TagsKey "name" ∧ error.label.name = none ∧
      error.label.name ≠ some "web" := by
  intro entry
  have failed : networks.parse [.null, entry] =
      .error ⟨networks, ⟨1, none⟩, .properties .cloudProperties (.notMapping "bool")⟩ := rfl
  have tagged : entry.TagsKey "name" := ⟨_, rfl, _, List.mem_cons_self, rfl, rfl⟩
  have decoded : networks.nameOf entry = .ok "web" := rfl
  obtain ⟨found, place, _, labelled⟩ := label_names failed
  obtain rfl : entry = found := Option.some.inj place
  obtain ⟨extent, nameless⟩ := labelled "web" decoded
  have missed := extent.not.mpr (by simpa using tagged)
  exact ⟨_, failed, rfl, decoded, tagged, nameless tagged, missed⟩

end Sections

end Deployment
