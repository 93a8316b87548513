import Deployment.Proofs.MergeKeySurfacing
import Deployment.Proofs.ParsedBlock

namespace Deployment

namespace Yaml.MergeKey

open Value (valueAt)

/-- The entries before the merge entry, or all of them when there is none. -/
def beforeMerge (es : Entries) : Entries :=
  es.takeWhile fun e => !e.1.isString "<<"

/-- The entries behind the merge entry. -/
def afterMerge (es : Entries) : Entries :=
  (es.dropWhile fun e => !e.1.isString "<<").tail

theorem remaining_cons (e : Value × Value) (rest : Entries) :
    remaining (e :: rest) =
      if e.1.isString "<<" then lastToFront rest else e :: remaining rest := by
  rw [remaining, extract]
  by_cases isMerge : e.1.isString "<<" = true
  · rw [if_pos isMerge, if_pos isMerge]
  · rw [if_neg isMerge, if_neg isMerge, remaining]
    cases extract rest <;> rfl

/-- Taking the merge entry out moves the last entry and no other one. -/
theorem remaining_eq (es : Entries) :
    remaining es = beforeMerge es ++ lastToFront (afterMerge es) := by
  induction es with
  | nil => rfl
  | cons e rest ih =>
    rw [remaining_cons]
    by_cases isMerge : e.1.isString "<<" = true
    · simp [isMerge, beforeMerge, afterMerge]
    · simpa [isMerge, beforeMerge, afterMerge] using ih

theorem explicit_eq {es : Entries} (distinct : es.Pairwise fun a b => a.1.same b.1 = false) :
    explicit es = beforeMerge es ++ afterMerge es := by
  induction es with
  | nil => rfl
  | cons e rest ih =>
    obtain ⟨first, pairs⟩ := List.pairwise_cons.mp distinct
    by_cases isMerge : e.1.isString "<<" = true
    · have alone : hasMergeKey rest = false := by
        have found : extract (e :: rest) = some (e.2, lastToFront rest) := by
          rw [extract, if_pos isMerge]
        have others := hasMergeKey_others distinct found
        rw [hasMergeKey, List.any_eq_false] at others ⊢
        exact fun f member => others f ((lastToFront_perm rest).mem_iff.mpr member)
      have kept := explicit_eq_self alone
      simpa [explicit, beforeMerge, afterMerge, isMerge] using kept
    · simpa [explicit, beforeMerge, afterMerge, isMerge] using ih pairs

theorem append_adopted (es source : Entries) : ∃ adopted, adopt es source = es ++ adopted := by
  induction source generalizing es with
  | nil => exact ⟨[], (List.append_nil es).symm⟩
  | cons e rest ih =>
    rw [adopt_cons]
    by_cases known : es.any (·.1.same e.1) = true
    · rw [if_pos known]
      exact ih es
    · rw [if_neg known]
      obtain ⟨adopted, later⟩ := ih (es ++ [e])
      exact ⟨e :: adopted, by rw [later, List.append_assoc, List.singleton_append]⟩

theorem append_adoptedAll (es : Entries) (all : List Entries) :
    ∃ adopted, all.foldl adopt es = es ++ adopted := by
  induction all generalizing es with
  | nil => exact ⟨[], (List.append_nil es).symm⟩
  | cons source rest ih =>
    obtain ⟨first, head⟩ := append_adopted es source
    obtain ⟨later, tail⟩ := ih (es ++ first)
    refine ⟨first ++ later, ?_⟩
    rw [List.foldl_cons, head, tail, List.append_assoc]

theorem merged_append {es own : Entries} (success : merged es = .ok own) :
    ∃ adopted, own = beforeMerge es ++ lastToFront (afterMerge es) ++ adopted := by
  obtain ⟨_, rfl⟩ := merged_eq_ok_iff.mp success
  rw [← remaining_eq]
  exact append_adoptedAll (remaining es) (listed es)

end Yaml.MergeKey

open Outcome
open Yaml (Value Entries)
open Yaml.MergeKey (Reaches beforeMerge afterMerge lastToFront explicit)

namespace Property

/-- Moving the last of some distinct things to their front keeps the order only of a single one. -/
private theorem sublist_rotated_iff {α : Type} {before middle rest : List α} {last : α}
    (distinct : (before ++ last :: (middle ++ rest)).Nodup) :
    (before ++ (middle ++ [last])).Sublist (before ++ last :: (middle ++ rest)) ↔
      middle = [] := by
  rw [List.append_sublist_append_left]
  constructor
  · intro inOrder
    have unique := (List.nodup_cons.mp (List.nodup_append.mp distinct).2.1).1
    cases middle with
    | nil => rfl
    | cons first middle =>
      -- The last one would have to stand again behind the first one.
      have apart : first ≠ last := by
        rintro rfl
        exact unique List.mem_cons_self
      cases inOrder with
      | cons _ later => exact absurd (later.subset (by simp)) unique
      | cons_cons _ later => exact absurd rfl apart
  · rintro rfl
    exact List.Sublist.cons_cons last (List.nil_sublist _)

/-- The names of some entries are in their order with the last entry at the front only when there
are no two entries. -/
theorem sublist_lastToFront_iff {before rest : List String} {es : Entries}
    (named : ∀ e ∈ es, ∃ name, keyText e.1 = some name)
    (unique : (before ++ namesOf (lastToFront es) ++ rest).Nodup) :
    (before ++ namesOf es).Sublist (before ++ namesOf (lastToFront es) ++ rest) ↔
      es.length ≤ 1 := by
  rcases List.eq_nil_or_concat es with rfl | ⟨middle, last, rfl⟩
  · simp [namesOf, lastToFront]
  · have front : lastToFront (middle.concat last) = last :: middle := by simp [lastToFront]
    obtain ⟨name, text⟩ := named last (by simp)
    have moved : namesOf (last :: middle) = name :: namesOf middle := by
      rw [namesOf, List.filterMap_cons, text]
      rfl
    have written : namesOf (middle.concat last) = namesOf middle ++ [name] := by
      simp [namesOf, text]
    have middleNamed : ∀ e ∈ middle, ∃ name, keyText e.1 = some name :=
      fun e member => named e (by simp [member])
    have counted : (middle.concat last).length ≤ 1 ↔ namesOf middle = [] := by
      rw [namesOf_eq_nil_iff middleNamed, List.length_concat, Nat.succ_le_succ_iff, Nat.le_zero,
        List.length_eq_zero_iff]
    rw [front, moved, List.append_assoc, List.cons_append] at unique ⊢
    rw [counted, written]
    exact sublist_rotated_iff unique

/-- The names that a mapping has itself come first in its map, the last of those behind the merge
key before the others. So they are in their order unless there are two of these or more. -/
theorem ParsedFrom.order {es : Entries} {m : PropertyMap}
    (distinct : es.Pairwise fun a b => a.1.same b.1 = false) (parsed : ParsedFrom es m) :
    (∃ adopted,
      m.keys = namesOf (beforeMerge es) ++ namesOf (lastToFront (afterMerge es)) ++ adopted) ∧
    ((namesOf (explicit es)).Sublist m.keys ↔ (afterMerge es).length ≤ 1) := by
  obtain ⟨own, _, success, _, _, unique⟩ := parsed.stages
  obtain ⟨adopted, rfl⟩ := Yaml.MergeKey.merged_append success
  have keys := parsed.keys_eq success
  rw [namesOf_append, namesOf_append] at keys
  have named : ∀ e ∈ afterMerge es, ∃ name, keyText e.1 = some name := by
    intro e member
    have moved := (Yaml.MergeKey.lastToFront_perm (afterMerge es)).mem_iff.mpr member
    have within := List.mem_append_left adopted (List.mem_append_right (beforeMerge es) moved)
    exact (parsed.ready success e within).1
  refine ⟨⟨namesOf adopted, keys⟩, ?_⟩
  rw [Yaml.MergeKey.explicit_eq distinct, namesOf_append, keys]
  exact sublist_lastToFront_iff named (keys ▸ unique)

end Property

open Property (ParsedFrom namesOf)

namespace Manifest

/-- The names in every map of a manifest, at whichever depth: those of the mapping that it comes
from stand first, and they are in the order in which they were written exactly when at most one
of them was written behind the merge key. -/
theorem explicit_order_iff {origin : String} {octets : List UInt8} {m : Manifest}
    (success : (parse origin (.ok octets)).2 = .ok m) :
    ∃ document, Value.ofOctets octets = .ok document ∧
      (∀ map, .map map ∈ m.parts → map = [] ∨
        ∃ b ∈ Yaml.MergeKey.blocks document, ∃ es, Reaches b (.mapping es) ∧ ParsedFrom es map) ∧
      ∀ b ∈ Yaml.MergeKey.blocks document, ∀ es, Reaches b (.mapping es) →
        (∃ map, .map map ∈ m.parts ∧ ParsedFrom es map) ∧
        ∀ map, ParsedFrom es map →
          (∃ adopted, map.keys =
            namesOf (beforeMerge es) ++ namesOf (lastToFront (afterMerge es)) ++ adopted) ∧
          ((namesOf (explicit es)).Sublist map.keys ↔ (afterMerge es).length ≤ 1) := by
  obtain ⟨document, resolved, text, merged, built⟩ := exists_blocks success
  have resolves := Yaml.MergeKey.blocks_resolved merged
  refine ⟨document, text, ?_, ?_⟩
  · intro map member
    obtain ⟨block, within, part⟩ := List.mem_flatMap.mp member
    obtain ⟨r, among, builds⟩ := related_left built block within
    obtain ⟨b, present, result⟩ := related_left resolves r among
    rcases builds.parsedFrom result part with empty | ⟨es, path, parsed⟩
    · exact .inl empty
    · exact .inr ⟨b, present, es, path, parsed⟩
  · intro b present es path
    obtain ⟨r, among, result⟩ := related_right resolves b present
    obtain ⟨block, within, builds⟩ := related_right built r among
    obtain ⟨map, part, parsed⟩ := builds.exists_part result path
    have sound := Yaml.MergeKey.blocks_distinct (Value.ofOctets_distinctKeys text) b present
    have distinct := (Value.distinctKeys_mapping.mp (sound.part (path.mem_parts sound))).1
    exact ⟨⟨map, List.mem_flatMap.mpr ⟨block, within, part⟩, parsed⟩,
      fun map parsed => parsed.order distinct⟩

/-- Three properties are written behind a merge key, and the last of them comes out first. -/
theorem explicit_order_disturbed :
    let octets := "name: d\nproperties: {<<: {x: 1}, a: 1, b: 2, c: 3}".toList.map
      fun c => UInt8.ofNat c.toNat
    ∃ m document, (parse "d" (.ok octets)).2 = .ok m ∧ Value.ofOctets octets = .ok document ∧
      m.properties.keys = ["c", "a", "b", "x"] ∧
      ∃ b ∈ Yaml.MergeKey.blocks document, ∃ es map, Reaches b (.mapping es) ∧
        .map map ∈ m.parts ∧ ParsedFrom es map ∧ ¬ (namesOf (explicit es)).Sublist map.keys := by
  intro octets
  have order : ((parse "d" (.ok octets)).2.toOption.any fun m =>
      m.properties.keys == ["c", "a", "b", "x"]) = true := by decide +kernel
  have behind : ((Value.ofOctets octets).toOption.any fun document =>
      (Yaml.MergeKey.blocks document).any fun b =>
        (afterMerge b.entries).length == 3) = true := by decide +kernel
  cases success : (parse "d" (.ok octets)).2 with
  | error e =>
    rw [success] at order
    cases order
  | ok m =>
    obtain ⟨document, text, _, ordered⟩ := explicit_order_iff success
    rw [success] at order
    rw [text] at behind
    obtain ⟨b, present, three⟩ := List.any_eq_true.mp behind
    cases b with
    | mapping es =>
      have length : (afterMerge es).length = 3 := by simpa [Value.entries] using three
      obtain ⟨⟨map, part, parsed⟩, each⟩ := ordered _ present es .here
      refine ⟨m, document, rfl, text, by simpa [Except.toOption] using order, _, present, es, map,
        .here, part, parsed, ?_⟩
      rw [(each map parsed).2, length]
      decide
    | _ => cases three

end Manifest

end Deployment
