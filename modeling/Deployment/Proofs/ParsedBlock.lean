import Deployment.Proofs.Blocks
import Deployment.Proofs.MergeMeaning
import Deployment.Proofs.Names

namespace Deployment

open Outcome
open Yaml (Value Entries)
open Yaml.MergeKey (Resolves EntryResolves Reaches hasMergeKey merged)

namespace Property

theorem namesOf_resolved {own fs : Entries} (each : List.Forall₂ EntryResolves own fs) :
    namesOf fs = namesOf own := by
  induction each with
  | nil => rfl
  | cons head tail ih =>
    rw [namesOf, namesOf, List.filterMap_cons, List.filterMap_cons, head.1]
    cases keyText _ with
    | none => exact ih
    | some name => exact congrArg _ ih

/-- Whether the map is what a mapping with these entries comes to, its merge keys resolved. -/
def ParsedFrom (es : Entries) (m : PropertyMap) : Prop :=
  ∃ fs, Resolves (.mapping es) (.mapping fs) ∧ MadeFrom (.mapping fs) (.map m)

theorem ParsedFrom.stages {es : Entries} {m : PropertyMap} (parsed : ParsedFrom es m) :
    ∃ own fs, merged es = .ok own ∧ List.Forall₂ EntryResolves own fs ∧
      List.Forall₂ EntryMadeFrom fs m ∧ m.keys.Nodup := by
  obtain ⟨fs, resolved, l, success⟩ := parsed
  obtain ⟨map, built, same⟩ := map_eq_ok.mp success
  cases same
  obtain ⟨related, distinct, _⟩ := ofEntries_ok built
  cases resolved.becomes with
  | mapping adopted each => exact ⟨_, fs, adopted, each, related, distinct⟩

section Merged

variable {es own : Entries} {m : PropertyMap} (adopted : merged es = .ok own)
  (parsed : ParsedFrom es m)

include adopted parsed

theorem ParsedFrom.keys_eq : m.keys = namesOf own := by
  obtain ⟨others, fs, merging, each, related, _⟩ := parsed.stages
  obtain rfl := Except.ok.inj (adopted.symm.trans merging)
  rw [keys_eq_namesOf related, namesOf_resolved each]

theorem ParsedFrom.namesOf_nodup : (namesOf own).Nodup := by
  obtain ⟨_, _, _, _, _, distinct⟩ := parsed.stages
  rw [← parsed.keys_eq adopted]
  exact distinct

theorem ParsedFrom.ready :
    ∀ e ∈ own, (∃ name, keyText e.1 = some name) ∧ ∃ r, Resolves e.2 r ∧ r.Plain := by
  obtain ⟨others, fs, merging, each, related, _⟩ := parsed.stages
  obtain rfl := Except.ok.inj (adopted.symm.trans merging)
  intro e member
  obtain ⟨f, within, key, result⟩ := related_right each e member
  obtain ⟨g, _, named, l, made⟩ := related_right related f within
  exact ⟨⟨g.1, key ▸ named⟩, f.2, result, exists_ofValue_iff.mp ⟨g.2, made⟩⟩

end Merged

/-- The properties that a block comes to, entry by entry. -/
theorem ParsedFrom.get?_eq_some_iff {es own : Entries} {m : PropertyMap}
    (adopted : merged es = .ok own) (parsed : ParsedFrom es m) {name : String} {p : Property} :
    m.get? name = some p ↔
      ∃ e ∈ own, keyText e.1 = some name ∧ ∃ r, Resolves e.2 r ∧ MadeFrom r p := by
  obtain ⟨others, fs, merging, each, related, distinct⟩ := parsed.stages
  obtain rfl := Except.ok.inj (adopted.symm.trans merging)
  rw [PropertyMap.get?_eq_some_iff distinct]
  constructor
  · intro member
    obtain ⟨f, within, text, made⟩ := related_left related _ member
    obtain ⟨e, source, key, below⟩ := related_left each f within
    exact ⟨e, source, key ▸ text, f.2, below, made⟩
  · rintro ⟨e, member, text, r, below, made⟩
    obtain ⟨f, within, key, result⟩ := related_right each e member
    obtain rfl := Except.ok.inj (below.symm.trans result)
    obtain ⟨g, present, named, remade⟩ := related_right related f within
    have sameName := Option.some.inj (text.symm.trans (key ▸ named))
    have sameProperty := made.unique remade
    rwa [sameName, sameProperty]

theorem parsedFrom_of_build {es : Entries} {m : PropertyMap}
    (free : ∀ fs, .mapping fs ∈ (Value.mapping es).parts → hasMergeKey fs = false)
    (built : PropertyMap.build (.mapping es) = .ok m) : ParsedFrom es m :=
  ⟨es, Yaml.MergeKey.resolves_self free, [], map_eq_ok.mpr ⟨m, built, rfl⟩⟩

theorem ParsedFrom.get?_eq_none_iff {es own : Entries} {m : PropertyMap}
    (adopted : merged es = .ok own) (parsed : ParsedFrom es m) {name : String} :
    m.get? name = none ↔ ∀ e ∈ own, keyText e.1 ≠ some name := by
  constructor
  · intro missing e member text
    obtain ⟨_, r, below, plain⟩ := parsed.ready adopted e member
    obtain ⟨p, made⟩ := exists_ofValue_iff.mpr plain
    have present := (parsed.get?_eq_some_iff adopted).mpr ⟨e, member, text, r, below, [], made⟩
    rw [missing] at present
    cases present
  · intro unnamed
    refine Option.eq_none_iff_forall_ne_some.mpr fun p present => ?_
    obtain ⟨e, member, text, _⟩ := (parsed.get?_eq_some_iff adopted).mp present
    exact unnamed e member text

end Property

open Property (ParsedFrom)

section Block

variable {value resolved : Value} {m : PropertyMap}

theorem Builds.exists_part (success : Resolves value resolved) (built : Builds resolved m)
    {es : Entries} (path : Reaches value (.mapping es)) :
    ∃ map, .map map ∈ (Property.map m).parts ∧ ParsedFrom es map := by
  obtain ⟨q, part, result⟩ := path.resolves success
  cases result.becomes with
  | @mapping _ own fs adopted each =>
    rcases PropertyMap.build_ok built with ⟨rfl, _⟩ | whole
    · cases List.mem_singleton.mp part
    · obtain ⟨p, within, l, made⟩ := related_right (Property.parts_ofValue whole) _ part
      obtain ⟨map, entries, rfl⟩ := map_eq_ok.mp made
      exact ⟨map, within, fs, result, l, made⟩

/-- Each map in a block is that of a mapping to which the walk comes; but no value is one too. -/
theorem Builds.parsedFrom (success : Resolves value resolved) (built : Builds resolved m)
    {map : PropertyMap} (part : .map map ∈ (Property.map m).parts) :
    map = [] ∨ ∃ es, Reaches value (.mapping es) ∧ ParsedFrom es map := by
  rcases PropertyMap.build_ok built with ⟨_, rfl⟩ | whole
  · cases List.mem_singleton.mp part
    exact .inl rfl
  · right
    obtain ⟨w, within, made⟩ := related_left (Property.parts_ofValue whole) _ part
    obtain ⟨fs, rfl⟩ := Property.mapping_of_madeFrom made
    obtain ⟨v, path, result⟩ := Yaml.MergeKey.exists_reaches success within
    cases result.becomes with
    | @mapping es own _ adopted each => exact ⟨es, path, fs, result, made⟩

end Block

namespace Manifest

theorem exists_blocks {origin : String} {octets : List UInt8} {m : Manifest}
    (success : (parse origin (.ok octets)).2 = .ok m) :
    ∃ document resolved, Value.ofOctets octets = .ok document ∧ Resolves document resolved ∧
      List.Forall₂ Builds (blocksVia Value.field resolved) m.blocks := by
  obtain ⟨e, decoded, made⟩ := parse_ok_iff.mp success
  have built := ofEntry_ok made
  rcases decode_ok decoded with rfl | ⟨document, resolved, text, merged, read⟩
  -- Without a document there is no name.
  · exact absurd rfl built.nonblank
  · exact ⟨document, resolved, text, merged, built.blocks read⟩

end Manifest

end Deployment
