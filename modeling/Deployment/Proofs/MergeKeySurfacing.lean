import Deployment.Manifest.Parse
import Deployment.Proofs.Blocks
import Deployment.Proofs.MergeResolution
import Deployment.Proofs.Numerals

namespace Deployment

namespace Yaml.MergeKey

/-- The value that a mapping has under a field name once its own merge entry is resolved. -/
def field (v : Value) (name : String) : Value :=
  match v.untagged with
  | .mapping es =>
    match merged es with
    | .ok own => fieldOf own name
    | .error _ => .null
  | _ => .null

/-- The values that a document has for the property blocks of its manifest. -/
def blocks (document : Value) : List Value :=
  blocksVia field document

theorem Resolves.untagged {v r : Value} (resolved : Resolves v r) :
    Resolves v.untagged r.untagged := by
  induction v using Value.inward generalizing r with
  | tagged tag u ih =>
    cases resolved.becomes with
    | @tagged _ _ w below =>
      have inner : Resolves u.untagged w.untagged := ih below
      exact inner
  | _ =>
    cases resolved.becomes
    exact resolved

private theorem fieldOf_resolves {own fs : Entries} (name : String)
    (each : List.Forall₂ EntryResolves own fs) :
    Resolves (fieldOf own name) (fieldOf fs name) := by
  induction each with
  | nil => exact resolves_null
  | @cons e f own fs head tail ih =>
    obtain ⟨key, value⟩ := head
    by_cases named : e.1.asString? = some name
    · simpa [fieldOf, key, named] using value
    · simpa [fieldOf, key, named] using ih

theorem Resolves.field {v r : Value} (resolved : Resolves v r) (name : String) :
    Resolves (field v name) (r.field name) := by
  have below := resolved.untagged.becomes
  unfold MergeKey.field Value.field
  generalize v.untagged = u at below ⊢
  generalize r.untagged = t at below ⊢
  cases below with
  | mapping adopted each =>
    simp only [adopted]
    exact fieldOf_resolves name each
  | _ => exact resolves_null

theorem Resolves.elements {v r : Value} (resolved : Resolves v r) :
    List.Forall₂ Resolves v.elements r.elements := by
  have below := resolved.untagged.becomes
  unfold Value.elements
  generalize v.untagged = u at below ⊢
  generalize r.untagged = t at below ⊢
  cases below with
  | sequence each => exact each
  | _ => exact .nil

/-- The blocks of the resolved document are the resolved blocks of the document. -/
theorem blocks_resolved {document resolved : Value} (success : Resolves document resolved) :
    List.Forall₂ Resolves (blocks document) (blocksVia Value.field resolved) :=
  blocksVia_related success (fun _ _ name related => related.field name)
    fun _ _ related => related.elements

private theorem distinctKeys_null : Value.null.DistinctKeys := by
  simp [Value.DistinctKeys, Value.parts]

private theorem field_distinct {v : Value} (name : String) (distinct : v.DistinctKeys) :
    (field v name).DistinctKeys := by
  have below := distinct.part v.untagged_mem_parts
  unfold field
  split
  · rename_i es mapping
    rw [mapping] at below
    split
    · rename_i own adopted
      unfold fieldOf
      cases found : own.find? fun e => e.1.asString? == some name with
      | none => exact distinctKeys_null
      | some e =>
        have pairs := (Value.distinctKeys_mapping.mp below).1
        have member := List.mem_of_find?_eq_some found
        exact below.part (mem_parts_of_merged pairs adopted member)
    · exact distinctKeys_null
  · exact distinctKeys_null

private theorem elements_distinct {v : Value} (distinct : v.DistinctKeys) :
    ∀ w ∈ v.elements, w.DistinctKeys := by
  have below := distinct.part v.untagged_mem_parts
  unfold Value.elements
  split
  · rename_i items sequence
    rw [sequence] at below
    exact Value.distinctKeys_sequence.mp below
  · simp

theorem blocks_distinct {document : Value} (distinct : document.DistinctKeys) :
    ∀ b ∈ blocks document, b.DistinctKeys :=
  forall_blocksVia distinct (fun _ name => field_distinct name) fun _ => elements_distinct

end Yaml.MergeKey

open Yaml (Value Entries MergeKey.hasMergeKey MergeKey.blocks MergeKey.Chained)
open Outcome

namespace Property

def names : Property → List String
  | .map m => PropertyMap.keys m
  | _ => []

private theorem keyText_merge_iff {k : Value} : keyText k = some "<<" ↔ k = .string "<<" := by
  constructor
  · intro text
    cases k with
    | string s => exact congrArg Value.string (Option.some.inj text)
    | number n =>
      cases n with
      | whole n =>
        have member : '<' ∈ (Decimal.ofInt n.val).toList := by
          rw [Option.some.inj text]
          decide
        rcases Decimal.isDigit_or_minus_of_mem_ofInt member with digit | minus
        · exact absurd digit (by decide)
        · exact absurd minus (by decide)
      | float f => cases text
    | _ => cases text
  · rintro rfl
    rfl

private theorem names_ofNumber (n : Yaml.Number) : (ofNumber n).names = [] := by
  cases n with
  | float f => rfl
  | whole n =>
    simp only [ofNumber]
    split <;> rfl

theorem mergeKey_mem_names_iff {l : Location} {v : Value} {p : Property}
    (success : ofValue l v = .ok p) :
    "<<" ∈ p.names ↔ ∃ es, v = .mapping es ∧ MergeKey.hasMergeKey es = true := by
  cases v with
  | mapping es =>
    obtain ⟨m, built, rfl⟩ := map_eq_ok.mp success
    have keys : (∃ e ∈ es, e.1 = .string "<<") ↔ ∃ f ∈ m, f.1 = "<<" := by
      refine exists_iff_of_related (ofEntries_ok built).1 ?_
      rintro e f ⟨text, _⟩
      rw [← keyText_merge_iff, text, Option.some.injEq]
    simp only [names, PropertyMap.keys, List.mem_map, ← keys, Value.mapping.injEq,
      exists_eq_left', Yaml.MergeKey.hasMergeKey_iff]
    constructor
    · rintro ⟨⟨k, v⟩, member, key⟩
      exact ⟨v, key ▸ member⟩
    · rintro ⟨v, member⟩
      exact ⟨_, member, rfl⟩
  | number n =>
    cases success
    simp [names_ofNumber]
  | sequence items =>
    obtain ⟨ps, _, rfl⟩ := map_eq_ok.mp success
    simp [names]
  | tagged tag v => cases success
  | _ =>
    cases success
    simp [names]

end Property

theorem Builds.mergeKey_iff {v : Value} {m : PropertyMap} (built : Builds v m) :
    (∃ fs, .mapping fs ∈ v.parts ∧ MergeKey.hasMergeKey fs = true) ↔
      ∃ p ∈ (Property.map m).parts, "<<" ∈ p.names := by
  rcases PropertyMap.build_ok built with ⟨rfl, rfl⟩ | success
  · simp [Value.parts, Property.parts, Property.partsOfEntries, Property.names, PropertyMap.keys]
  · have parts : (∃ w ∈ v.parts, ∃ fs, w = .mapping fs ∧ MergeKey.hasMergeKey fs = true) ↔
        ∃ p ∈ (Property.map m).parts, "<<" ∈ p.names := by
      refine exists_iff_of_related (Property.parts_ofValue success) ?_
      rintro w q ⟨l, part⟩
      exact (Property.mergeKey_mem_names_iff part).symm
    rw [← parts]
    constructor
    · rintro ⟨fs, member, isMerge⟩
      exact ⟨_, member, fs, rfl, isMerge⟩
    · rintro ⟨_, member, fs, rfl, isMerge⟩
      exact ⟨fs, member, isMerge⟩

namespace Manifest

/-- A manifest has a property named `<<`, in whichever block and at whichever depth, exactly when
merges are chained in a block of its document. -/
theorem mergeKey_surfaces_iff {origin : String} {octets : List UInt8} {m : Manifest}
    (success : (parse origin (.ok octets)).2 = .ok m) :
    ∃ document, Value.ofOctets octets = .ok document ∧
      ((∃ p ∈ m.parts, "<<" ∈ p.names) ↔
        ∃ b ∈ MergeKey.blocks document, MergeKey.Chained b) := by
  obtain ⟨e, decoded, made⟩ := parse_ok_iff.mp success
  have built := ofEntry_ok made
  rcases decode_ok decoded with rfl | ⟨document, resolved, text, merged, read⟩
  -- Without a document there is no name, and the parse would have failed.
  · exact absurd rfl built.nonblank
  · refine ⟨document, text, ?_⟩
    have distinct := Yaml.MergeKey.blocks_distinct (Value.ofOctets_distinctKeys text)
    have resolves := related_with_member (Yaml.MergeKey.blocks_resolved merged)
    have chained : (∃ b ∈ MergeKey.blocks document, MergeKey.Chained b) ↔
        ∃ c ∈ blocksVia Value.field resolved,
          ∃ fs, .mapping fs ∈ c.parts ∧ MergeKey.hasMergeKey fs = true := by
      refine exists_iff_of_related resolves ?_
      rintro b c ⟨member, result⟩
      exact (Yaml.MergeKey.hasMergeKey_iff_chained (distinct b member) result).symm
    have surfaces := exists_iff_of_related (built.blocks read) fun c block builds =>
      builds.mergeKey_iff
    rw [chained, surfaces]
    constructor
    · rintro ⟨p, member, named⟩
      obtain ⟨block, within, part⟩ := List.mem_flatMap.mp member
      exact ⟨block, within, p, part, named⟩
    · rintro ⟨block, within, p, part, named⟩
      exact ⟨p, List.mem_flatMap.mpr ⟨block, within, part⟩, named⟩

/-- The property `c` merges `b`, which merges `a`: the merge key of `b` comes out as a name. -/
theorem mergeKey_surfaces_chained :
    let octets := "name: d\nproperties: {a: &a {x: 1}, b: &b {<<: *a}, c: {<<: *b}}".toList.map
      fun c => UInt8.ofNat c.toNat
    ∃ m document, (parse "d" (.ok octets)).2 = .ok m ∧ Value.ofOctets octets = .ok document ∧
      (∃ p ∈ m.parts, "<<" ∈ p.names) ∧ ∃ b ∈ MergeKey.blocks document, MergeKey.Chained b := by
  intro octets
  have named : (match (parse "d" (.ok octets)).2 with
      | .ok m => m.parts.any fun p => p.names.contains "<<"
      | .error _ => false) = true := by decide +kernel
  cases success : (parse "d" (.ok octets)).2 with
  | error e =>
    rw [success] at named
    cases named
  | ok m =>
    rw [success] at named
    have surfaces : ∃ p ∈ m.parts, "<<" ∈ p.names := by simpa using named
    obtain ⟨document, text, chained⟩ := mergeKey_surfaces_iff success
    exact ⟨m, document, rfl, text, surfaces, chained.mp surfaces⟩

end Manifest

end Deployment
