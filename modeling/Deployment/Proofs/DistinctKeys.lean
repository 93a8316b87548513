import Deployment.Proofs.Equality
import Deployment.Proofs.Outcome
import Deployment.Yaml.Decoding

namespace Deployment.Yaml

open Outcome

/-- Whether no mapping inside the value, itself included, has two equal keys. -/
def Value.DistinctKeys (v : Value) : Prop :=
  ∀ w ∈ v.parts, ∀ es, w = .mapping es → es.Pairwise fun a b => a.1.same b.1 = false

namespace Value

theorem distinctKeys_sequence {items : List Value} :
    (Value.sequence items).DistinctKeys ↔ ∀ v ∈ items, v.DistinctKeys :=
  eachMapping_sequence

theorem distinctKeys_mapping {es : Entries} :
    (Value.mapping es).DistinctKeys ↔
      (es.Pairwise fun a b => a.1.same b.1 = false) ∧ ∀ e ∈ es, e.2.DistinctKeys :=
  eachMapping_mapping

theorem distinctKeys_tagged {tag : Tag} {v : Value} :
    (Value.tagged tag v).DistinctKeys ↔ v.DistinctKeys :=
  eachMapping_tagged

theorem DistinctKeys.part {v w : Value} (distinct : v.DistinctKeys) (member : w ∈ v.parts) :
    w.DistinctKeys :=
  EachMapping.part distinct member

theorem WellKeyed.distinctKeys {v : Value} (sound : v.WellKeyed) : v.DistinctKeys := by
  induction sound with
  | sequence each ih => exact distinctKeys_sequence.mpr ih
  | mapping distinct keys values ihKeys ihValues =>
    exact distinctKeys_mapping.mpr ⟨distinct, ihValues⟩
  | tagged below ih => exact distinctKeys_tagged.mpr ih
  | _ => simp [DistinctKeys, parts]

theorem WellKeyed.part {v w : Value} (sound : v.WellKeyed) (member : w ∈ v.parts) :
    w.WellKeyed := by
  induction sound with
  | null | bool b | number n | string s =>
    obtain rfl := List.mem_singleton.mp member
    constructor
  | sequence each ih =>
    rcases mem_parts_sequence.mp member with rfl | ⟨v, within, inside⟩
    · exact .sequence each
    · exact ih v within inside
  | mapping distinct keys values ihKeys ihValues =>
    rcases mem_parts_mapping.mp member with rfl | ⟨e, within, inside⟩
    · exact .mapping distinct keys values
    · exact ihValues e within inside
  | tagged below ih =>
    rcases mem_parts_tagged.mp member with rfl | inside
    · exact .tagged below
    · exact ih inside

end Value

namespace Decoding

theorem wellKeyed_withTag {inTag : Bool} {h : Node.Heading} {v : Value} (sound : v.WellKeyed) :
    (withTag inTag h v).WellKeyed := by
  unfold withTag
  split
  · exact .tagged sound
  · exact sound

private theorem ofScalar_wellKeyed {path : Path} {position : Position} {s : Scalar} {v : Value}
    (success : ofScalar path position s = .ok v) : v.WellKeyed := by
  cases s <;> simp only [ofScalar] at success
  case whole i =>
    split at success <;> cases success
    constructor
  all_goals
    cases success
    constructor

private theorem scalar_wellKeyed {path : Path} {inTag : Bool} {h : Node.Heading}
    {text : List Char} {plain : Bool} {v : Value}
    (success : scalar path inTag h text plain = .ok v) : v.WellKeyed := by
  simp only [scalar] at success
  split at success
  · exact ofScalar_wellKeyed success
  · split at success
    · exact ofScalar_wellKeyed success
    · split at success
      · cases success
        constructor
      · split at success
        · exact ofScalar_wellKeyed success
        · cases success

/-- A reader whose values repeat no keys. -/
def Reader.WellKeyed (read : Reader) : Prop :=
  ∀ path inTag n jumps v after, read path inTag n jumps = .ok (v, after) → v.WellKeyed

theorem items_wellKeyed {decode : Nat → Node → Nat → Except DecodeError (Value × Nat)}
    {ns : List Node} {i jumps after : Nat} {vs : List Value}
    (each : ∀ i n jumps v after, decode i n jumps = .ok (v, after) → v.WellKeyed)
    (success : items decode i ns jumps = .ok (vs, after)) : ∀ v ∈ vs, v.WellKeyed := by
  induction ns generalizing i jumps vs after with
  | nil =>
    cases success
    simp
  | cons n rest ih =>
    simp only [items, bind_eq_ok, pure, Except.pure, Except.ok.injEq, Prod.mk.injEq,
      Prod.exists] at success
    obtain ⟨v, middle, head, others, last, tail, rfl, rfl⟩ := success
    intro w member
    rcases List.mem_cons.mp member with rfl | later
    · exact each _ _ _ _ _ head
    · exact ih tail w later

theorem entries_wellKeyed {decodeKey : Node → Nat → Except DecodeError (Value × Nat)}
    {decodeValue : Step → Node → Nat → Except DecodeError (Value × Nat)}
    {repeated : Value → DecodeError} {ns : List (Node × Node)} {done es : Entries}
    {jumps after : Nat}
    (eachKey : ∀ n jumps v after, decodeKey n jumps = .ok (v, after) → v.WellKeyed)
    (eachValue : ∀ step n jumps v after,
      decodeValue step n jumps = .ok (v, after) → v.WellKeyed)
    (sound : (Value.mapping done).WellKeyed)
    (success : entries decodeKey decodeValue repeated ns done jumps = .ok (es, after)) :
    (Value.mapping es).WellKeyed := by
  induction ns generalizing done jumps with
  | nil =>
    cases success
    exact sound
  | cons n rest ih =>
    obtain ⟨k, v⟩ := n
    simp only [entries, bind_eq_ok, Prod.exists] at success
    obtain ⟨key, middle, readKey, success⟩ := success
    cases fresh : done.find? (·.1.same key) with
    | some earlier =>
      rw [fresh] at success
      cases success
    | none =>
      simp only [fresh, bind_eq_ok, Prod.exists] at success
      obtain ⟨value, later, read, tail⟩ := success
      refine ih (sound.append_single (eachKey _ _ _ _ readKey) (eachValue _ _ _ _ _ read) ?_) tail
      intro e member
      simpa using List.find?_eq_none.mp fresh e member

theorem content_wellKeyed {inside : Option Reader} {path : Path} {inTag : Bool} {n : Node}
    {jumps after : Nat} {v : Value} (readers : ∀ read, inside = some read → Reader.WellKeyed read)
    (success : content inside path inTag n jumps = .ok (v, after)) : v.WellKeyed := by
  unfold content at success
  split at success
  · cases success
  · cases success
  · simp only [bind_eq_ok, pure, Except.pure, Except.ok.injEq, Prod.mk.injEq] at success
    obtain ⟨w, read, rfl, _⟩ := success
    exact wellKeyed_withTag (scalar_wellKeyed read)
  · rename_i read
    simp only [bind_eq_ok, pure, Except.pure, Except.ok.injEq, Prod.mk.injEq,
      Prod.exists] at success
    obtain ⟨vs, _, each, rfl, _⟩ := success
    have sound := items_wellKeyed (fun _ => readers read rfl _ _) each
    exact wellKeyed_withTag (.sequence sound)
  · rename_i read
    simp only [bind_eq_ok, pure, Except.pure, Except.ok.injEq, Prod.mk.injEq,
      Prod.exists] at success
    obtain ⟨es, _, each, rfl, _⟩ := success
    have empty : (Value.mapping []).WellKeyed := .mapping .nil (by simp) (by simp)
    exact wellKeyed_withTag (entries_wellKeyed (readers read rfl _ _)
      (fun _ => readers read rfl _ _) empty each)
  · cases success
  · cases success

theorem node_wellKeyed (d : Document) (depth : Nat) : Reader.WellKeyed (node d depth) := by
  -- The reader for what is inside a collection is the one that has a level less to go.
  induction depth with
  | zero =>
    intro path inTag n jumps v after success
    simp only [node, enter, bind_eq_ok, Prod.exists] at success
    obtain ⟨target, middle, _, read⟩ := success
    exact content_wellKeyed (by simp) read
  | succ depth ih =>
    intro path inTag n jumps v after success
    simp only [node, enter, bind_eq_ok, Prod.exists] at success
    obtain ⟨target, middle, _, read⟩ := success
    exact content_wellKeyed (fun _ same => Option.some.inj same ▸ ih) read

end Decoding

theorem Value.ofOctets_wellKeyed {octets : List UInt8} {v : Value}
    (success : Value.ofOctets octets = .ok v) : v.WellKeyed := by
  simp only [ofOctets, Document.value, bind_eq_ok, Prod.exists] at success
  obtain ⟨w, _, read, rest⟩ := success
  split at rest
  · cases rest
  · split at rest <;> cases rest
    exact Decoding.node_wellKeyed _ _ _ _ _ _ _ _ read

theorem Value.ofOctets_distinctKeys {octets : List UInt8} {v : Value}
    (success : Value.ofOctets octets = .ok v) : v.DistinctKeys :=
  (ofOctets_wellKeyed success).distinctKeys

end Deployment.Yaml
