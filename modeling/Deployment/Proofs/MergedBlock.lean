import Deployment.Proofs.SourceOrder

namespace Deployment

namespace Yaml.MergeKey

open Value (valueAt)

/-- The entries of a source whose keys are new. -/
def newFrom (source es : Entries) : Entries :=
  source.filter fun e => !es.any (·.1.same e.1)

theorem adopt_eq_append {es source : Entries}
    (distinct : source.Pairwise fun a b => a.1.same b.1 = false) :
    adopt es source = es ++ newFrom source es := by
  induction source generalizing es with
  | nil => exact (List.append_nil es).symm
  | cons e rest ih =>
    obtain ⟨first, pairs⟩ := List.pairwise_cons.mp distinct
    rw [adopt_cons]
    by_cases known : es.any (·.1.same e.1) = true
    · simp [newFrom, known, ih pairs]
    · -- The adopted entry is in nobody's way, for its key does not come again.
      have unchanged : newFrom rest (es ++ [e]) = newFrom rest es := by
        refine List.filter_congr fun f member => ?_
        simp [first f member]
      rw [if_neg known, ih pairs, unchanged]
      simp [newFrom, known]

section OneSource

variable {before : Entries} (merge : Value) (after : Entries)

theorem remaining_append (free : hasMergeKey before = false) :
    remaining (before ++ (.string "<<", merge) :: after) = before ++ lastToFront after := by
  have others : ∀ e ∈ before, (!e.1.isString "<<") = true := by
    simpa [hasMergeKey] using free
  have first : beforeMerge (before ++ (.string "<<", merge) :: after) = before := by
    rw [beforeMerge, List.takeWhile_append_of_pos others]
    simp [Value.isString]
  have last : afterMerge (before ++ (.string "<<", merge) :: after) = after := by
    rw [afterMerge, List.dropWhile_append_of_pos others]
    simp [Value.isString]
  rw [remaining_eq, first, last]

theorem valueAt_append_merge (free : hasMergeKey before = false) :
    valueAt (before ++ (.string "<<", merge) :: after) (.string "<<") = some merge := by
  have absent : valueAt before (.string "<<") = none := by
    refine Value.valueAt_eq_none_iff.mpr fun e member => ?_
    have other := List.any_eq_false.mp free e member
    exact Bool.eq_false_iff.mpr (mt same_mergeKey_iff.mp other)
  rw [Value.valueAt_append, absent, Option.none_or, Value.valueAt_cons]
  rfl

variable {merge} {source : Entries}

theorem merged_one (single : merge = .mapping source ∨ merge = .sequence [.mapping source])
    (free : hasMergeKey before = false) :
    merged (before ++ (.string "<<", merge) :: after) =
      .ok (adopt (before ++ lastToFront after) source) := by
  have found := valueAt_append_merge merge after free
  have alone : sources merge = [source] := by
    rcases single with rfl | rfl <;> rfl
  refine merged_eq_ok_iff.mpr ⟨?_, ?_⟩
  · intro v value
    obtain rfl := Option.some.inj (found.symm.trans value)
    rcases single with rfl | rfl
    · exact .inl ⟨source, rfl⟩
    · exact .inr ⟨_, rfl, fun w member => ⟨source, List.mem_singleton.mp member⟩⟩
  · rw [listed, found, remaining_append merge after free]
    simp [alone]

end OneSource

end Yaml.MergeKey

open Outcome
open Yaml (Value Entries)
open Yaml.MergeKey (Resolves hasMergeKey merged lastToFront newFrom)

namespace Property

/-- Whether an own key and a key of the source are different spellings of the name. -/
def Clash (own source : Entries) (name : String) : Prop :=
  ∃ e ∈ own, ∃ f ∈ source,
    keyText e.1 = some name ∧ keyText f.1 = some name ∧ e.1 ≠ f.1

section OneSource

variable {block own left source : Entries} {m n : PropertyMap} (ownMerged : merged own = .ok own)
  (sourceMerged : merged source = .ok source) (ownParsed : ParsedFrom own m)
  (sourceParsed : ParsedFrom source n) (reordered : left.Perm own)
  (adopted : merged block = .ok (left ++ newFrom source left))

include ownMerged ownParsed reordered

theorem mem_newFrom {e : Value × Value} :
    e ∈ newFrom source left ↔ e ∈ source ∧ ∀ f ∈ own, f.1 ≠ e.1 := by
  rw [newFrom, List.mem_filter, Bool.not_eq_true', List.any_eq_false]
  refine and_congr_right fun _ => ?_
  have ready := ownParsed.ready ownMerged
  constructor
  · intro apart f member
    obtain ⟨⟨name, text⟩, _⟩ := ready f member
    exact mt (same_iff_of_keyText text).mpr (apart f (reordered.mem_iff.mpr member))
  · intro apart f member
    obtain ⟨⟨name, text⟩, _⟩ := ready f (reordered.mem_iff.mp member)
    exact mt (same_iff_of_keyText text).mp (apart f (reordered.mem_iff.mp member))

theorem newFrom_of_clash {name : String} (clash : Clash own source name) :
    ∃ e ∈ left, ∃ f ∈ newFrom source left,
      keyText e.1 = some name ∧ keyText f.1 = some name ∧ e.1 ≠ f.1 := by
  obtain ⟨e, member, f, within, text, other, apart⟩ := clash
  have unique := ownParsed.namesOf_nodup ownMerged
  refine ⟨e, reordered.mem_iff.mpr member, f, ?_, text, other, apart⟩
  rw [mem_newFrom ownMerged ownParsed reordered]
  refine ⟨within, fun g present same => apart ?_⟩
  have one := eq_of_namesOf_nodup unique member present text (same ▸ other)
  rw [one, same]

theorem clash_of_newFrom {name : String} (first : name ∈ namesOf left)
    (second : name ∈ namesOf (newFrom source left)) : Clash own source name := by
  obtain ⟨e, member, text⟩ := mem_namesOf.mp first
  obtain ⟨f, within, other⟩ := mem_namesOf.mp second
  have inOwn := reordered.mem_iff.mp member
  obtain ⟨inSource, apart⟩ := (mem_newFrom ownMerged ownParsed reordered).mp within
  exact ⟨e, inOwn, f, inSource, text, other, apart e inOwn⟩

include sourceMerged sourceParsed

theorem ready_newFrom : ∀ e ∈ left ++ newFrom source left,
    (∃ name, keyText e.1 = some name) ∧ ∃ r, Resolves e.2 r ∧ r.Plain := by
  intro e member
  rcases List.mem_append.mp member with old | new
  · exact ownParsed.ready ownMerged e (reordered.mem_iff.mp old)
  · exact sourceParsed.ready sourceMerged e (List.mem_of_mem_filter new)

/-- Only a name that has two spellings is in the block twice. -/
theorem clash_of_count {name : String}
    (twice : 2 ≤ (namesOf (left ++ newFrom source left)).count name) : Clash own source name := by
  have leftNames : (namesOf left).Nodup := by
    have same : (namesOf left).Perm (namesOf own) := reordered.filterMap _
    exact same.nodup_iff.mpr (ownParsed.namesOf_nodup ownMerged)
  have newNames : (namesOf (newFrom source left)).Nodup :=
    (sourceParsed.namesOf_nodup sourceMerged).sublist
      (List.filter_sublist.filterMap _)
  have one := List.nodup_iff_count_le_one.mp leftNames name
  have other := List.nodup_iff_count_le_one.mp newNames name
  rw [namesOf_append, List.count_append] at twice
  exact clash_of_newFrom ownMerged ownParsed reordered (List.count_pos_iff.mp (by omega))
    (List.count_pos_iff.mp (by omega))

include adopted

theorem get?_newFrom {map : PropertyMap} (parsed : ParsedFrom block map) (name : String) :
    map.get? name = (m.get? name).or (n.get? name) := by
  cases mine : m.get? name with
  | some p =>
    obtain ⟨e, member, made⟩ := (ownParsed.get?_eq_some_iff ownMerged).mp mine
    have inBlock := List.mem_append_left (newFrom source left) (reordered.mem_iff.mpr member)
    exact (parsed.get?_eq_some_iff adopted).mpr ⟨e, inBlock, made⟩
  | none =>
    have unnamed := (ownParsed.get?_eq_none_iff ownMerged).mp mine
    rw [Option.none_or]
    refine Option.ext fun p => ?_
    rw [parsed.get?_eq_some_iff adopted, sourceParsed.get?_eq_some_iff sourceMerged]
    constructor
    · rintro ⟨e, member, text, made⟩
      rcases List.mem_append.mp member with old | new
      · exact absurd text (unnamed e (reordered.mem_iff.mp old))
      · exact ⟨e, List.mem_of_mem_filter new, text, made⟩
    · rintro ⟨e, member, text, made⟩
      have fresh : ∀ f ∈ own, f.1 ≠ e.1 :=
        fun f present same => unnamed f present (same ▸ text)
      have new := (mem_newFrom ownMerged ownParsed reordered).mpr ⟨member, fresh⟩
      exact ⟨e, List.mem_append_right _ new, text, made⟩

/-- What becomes of the block: it is built when no name has two spellings, and collides at such a
name otherwise. -/
theorem build_newFrom : ∃ fs, Resolves (.mapping block) (.mapping fs) ∧
    ((∃ map, PropertyMap.build (.mapping fs) = .ok map) → ∀ name, ¬ Clash own source name) ∧
    ∀ error, PropertyMap.build (.mapping fs) = .error error →
      ∃ name, Clash own source name ∧ error = .collision [] name := by
  have ready := ready_newFrom ownMerged sourceMerged ownParsed sourceParsed reordered
  obtain ⟨fs, resolved⟩ := Yaml.MergeKey.exists_resolves_mapping adopted fun e member => by
    obtain ⟨_, r, below, _⟩ := ready e member
    exact ⟨r, below⟩
  refine ⟨fs, resolved, ?_, ?_⟩
  · rintro ⟨map, built⟩ name clash
    have parsed : ParsedFrom block map := ⟨fs, resolved, [], map_eq_ok.mpr ⟨map, built, rfl⟩⟩
    have unique := parsed.namesOf_nodup adopted
    obtain ⟨e, old, f, new, text, other, apart⟩ :=
      newFrom_of_clash ownMerged ownParsed reordered clash
    have same := eq_of_namesOf_nodup unique (List.mem_append_left _ old)
      (List.mem_append_right _ new) text other
    exact apart (congrArg Prod.fst same)
  · intro error failed
    cases resolved.becomes with
    | mapping merging each =>
      obtain rfl := Except.ok.inj (adopted.symm.trans merging)
      -- Every key has a name and every value can be built, so only a name can be at fault.
      have sound : ∀ f ∈ fs, (∃ name, keyText f.1 = some name) ∧ f.2.Plain := by
        intro f member
        obtain ⟨e, source, key, below⟩ := related_left each f member
        obtain ⟨named, r, result, plain⟩ := ready e source
        obtain rfl := Except.ok.inj (below.symm.trans result)
        exact ⟨key ▸ named, plain⟩
      obtain ⟨name, collision, twice⟩ := ofEntries_error (fun f member => (sound f member).1)
        (fun f member => (sound f member).2) failed
      rw [List.nil_append, namesOf_resolved each] at twice
      exact ⟨name, clash_of_count ownMerged sourceMerged ownParsed sourceParsed reordered twice,
        collision⟩

end OneSource

end Property

open Property (ParsedFrom Clash parsedFrom_of_build)

namespace PropertyMap

/-- A block with one merge source, when its own entries and the source are blocks without merge
keys: it has the own property of a name or else that of the source. The exception is a name that
an own key and a key of the source spell differently; with such a name there is a collision. -/
theorem build_mergedBlock {before after source : Entries} {merge : Value} {m n : PropertyMap}
    (single : merge = .mapping source ∨ merge = .sequence [.mapping source])
    (ownFree : hasMergeKey (before ++ after) = false) (sourceFree : hasMergeKey source = false)
    (own : ParsedFrom (before ++ after) m) (other : ParsedFrom source n) :
    ∃ fs, Resolves (.mapping (before ++ (.string "<<", merge) :: after)) (.mapping fs) ∧
      ((∃ block, PropertyMap.build (.mapping fs) = .ok block) ↔
        ∀ name, ¬ Clash (before ++ after) source name) ∧
      (∀ block, PropertyMap.build (.mapping fs) = .ok block →
        ∀ name, block.get? name = (m.get? name).or (n.get? name)) ∧
      ∀ error, PropertyMap.build (.mapping fs) = .error error →
        ∃ name, Clash (before ++ after) source name ∧ error = .collision [] name := by
  have beforeFree : hasMergeKey before = false := by
    rw [hasMergeKey, List.any_append, Bool.or_eq_false_iff] at ownFree
    exact ownFree.1
  have ownMerged := Yaml.MergeKey.merged_free ownFree
  have sourceMerged := Yaml.MergeKey.merged_free sourceFree
  have distinct := Property.distinct_of_namesOf_nodup
    (fun e member => (other.ready sourceMerged e member).1) (other.namesOf_nodup sourceMerged)
  have adopted := Yaml.MergeKey.merged_one after single beforeFree
  rw [Yaml.MergeKey.adopt_eq_append distinct] at adopted
  have reordered : (before ++ lastToFront after).Perm (before ++ after) :=
    (Yaml.MergeKey.lastToFront_perm after).append_left before
  obtain ⟨fs, resolved, safe, collides⟩ :=
    Property.build_newFrom ownMerged sourceMerged own other reordered adopted
  refine ⟨fs, resolved, ⟨safe, fun apart => ?_⟩, ?_, collides⟩
  · cases built : PropertyMap.build (.mapping fs) with
    | ok block => exact ⟨block, rfl⟩
    | error error =>
      obtain ⟨name, clash, _⟩ := collides error built
      exact absurd clash (apart name)
  · intro block built name
    have parsed : ParsedFrom _ block := ⟨fs, resolved, [], map_eq_ok.mpr ⟨block, built, rfl⟩⟩
    exact Property.get?_newFrom ownMerged sourceMerged own other reordered adopted parsed name

/-- The own `b` stays, and the integer key of the source becomes the name `80`. -/
theorem build_mergedBlock_integer :
    let eighty : Value := .number (.whole ⟨80, by decide, by decide⟩)
    let own : Entries := [(.string "a", .bool true), (.string "b", .null)]
    let source : Entries := [(.string "b", .bool false), (eighty, .string "x")]
    ∃ fs block, Resolves (.mapping ((.string "<<", .mapping source) :: own)) (.mapping fs) ∧
      PropertyMap.build (.mapping fs) = .ok block ∧
      block.get? "b" = some .null ∧ block.get? "80" = some (.string "x") := by
  intro eighty own source
  have text : Property.keyText eighty = some "80" := by decide +kernel
  have onlyOwn : ∀ fs, .mapping fs ∈ (Value.mapping own).parts → fs = own := by
    simp [own, Value.parts, Value.partsOfEntries]
  have onlySource : ∀ fs, .mapping fs ∈ (Value.mapping source).parts → fs = source := by
    simp [source, Value.parts, Value.partsOfEntries]
  have ownFree : hasMergeKey own = false := by decide
  have sourceFree : hasMergeKey source = false := by decide
  have ownBuilt : PropertyMap.build (.mapping own) = .ok [("a", .bool true), ("b", .null)] := rfl
  have sourceBuilt : PropertyMap.build (.mapping source) =
      .ok [("b", .bool false), ("80", .string "x")] := by
    have first : Property.keyText (.string "b") = some "b" := rfl
    simp [PropertyMap.build, source, Property.ofEntries, Property.ofValue, first, text, bind,
      Except.bind, pure, Except.pure]
  have ownParsed := parsedFrom_of_build (fun fs part => onlyOwn fs part ▸ ownFree) ownBuilt
  have sourceParsed :=
    parsedFrom_of_build (fun fs part => onlySource fs part ▸ sourceFree) sourceBuilt
  obtain ⟨fs, resolved, builds, values, _⟩ :=
    @build_mergedBlock [] own source (.mapping source) _ _ (.inl rfl) ownFree sourceFree ownParsed
      sourceParsed
  have apart : ∀ name, ¬ Clash own source name := by
    rintro name ⟨e, member, f, within, first, second, different⟩
    have agree := first.trans second.symm
    simp only [own, source, List.mem_cons, List.not_mem_nil, or_false] at member within
    rcases member with rfl | rfl <;> rcases within with rfl | rfl
    · exact absurd (Option.some.inj agree) (by decide)
    · exact absurd (Option.some.inj (agree.trans text)) (by decide)
    · exact different rfl
    · exact absurd (Option.some.inj (agree.trans text)) (by decide)
  obtain ⟨block, built⟩ := builds.mpr apart
  refine ⟨fs, block, resolved, built, ?_, ?_⟩
  · rw [values block built]
    rfl
  · rw [values block built]
    rfl

/-- Two blocks that are in order on their own, but spell the name `80` differently. -/
theorem spellings_collide :
    let eighty : Value := .number (.whole ⟨80, by decide, by decide⟩)
    let own : Entries := [(.string "80", .string "b")]
    let source : Entries := [(eighty, .string "a")]
    hasMergeKey own = false ∧ hasMergeKey source = false ∧
      PropertyMap.build (.mapping own) = .ok [("80", .string "b")] ∧
      PropertyMap.build (.mapping source) = .ok [("80", .string "a")] ∧
      ∃ fs, Resolves (.mapping ((.string "<<", .mapping source) :: own)) (.mapping fs) ∧
        PropertyMap.build (.mapping fs) = .error (.collision [] "80") := by
  intro eighty own source
  have text : Property.keyText eighty = some "80" := by decide +kernel
  refine ⟨rfl, rfl, rfl, ?_, [(.string "80", .string "b"), (eighty, .string "a")], ?_, ?_⟩
  · simp [PropertyMap.build, source, Property.ofEntries, Property.ofValue, text, bind, Except.bind,
      pure, Except.pure]
  · have adopted : merged ((.string "<<", .mapping source) :: own) =
        .ok [(.string "80", .string "b"), (eighty, .string "a")] := rfl
    rw [Resolves, Yaml.MergeKey.resolve_mapping, adopted]
    simp [bind, Except.bind, Except.map, Yaml.MergeKey.fromLast, Yaml.MergeKey.resolve, pure,
      Except.pure]
  · have other : Property.keyText (.string "80") = some "80" := rfl
    simp [PropertyMap.build, Property.ofEntries, Property.ofValue, text, other, bind, Except.bind]

end PropertyMap

end Deployment
