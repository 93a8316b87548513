import Deployment.Property.Build
import Deployment.Proofs.Numerals
import Deployment.Proofs.Outcome
import Deployment.Proofs.Parts
import Mathlib.Data.List.Nodup

namespace Deployment

namespace Yaml.Value

/-- Whether the value can be the name of a property: a string or an integer. -/
def isName : Value → Bool
  | .string _ => true
  | .number (.whole _) => true
  | _ => false

/-- A key with an integer replaced by the string of its decimal text. -/
def decimalKey : Value → Value
  | .number (.whole n) => .string (toString n.val)
  | k => k

mutual
/-- A value in which each integer key is replaced by the string of its decimal text. -/
def withDecimalKeys : Value → Value
  | .sequence items => .sequence (itemsWithDecimalKeys items)
  | .mapping es => .mapping (entriesWithDecimalKeys es)
  | .tagged tag v => .tagged tag v.withDecimalKeys
  | v => v

def itemsWithDecimalKeys : List Value → List Value
  | [] => []
  | v :: rest => v.withDecimalKeys :: itemsWithDecimalKeys rest

def entriesWithDecimalKeys : Entries → Entries
  | [] => []
  | (k, v) :: rest => (k.decimalKey, v.withDecimalKeys) :: entriesWithDecimalKeys rest
end

/-- What each part of a value must be for properties to be built from it: nothing with a tag, and
no mapping but one whose keys are strings or integers, no two of them with the same text. -/
def isAllowed : Value → Prop
  | .tagged .. => False
  | .mapping es => (∀ e ∈ es, e.1.isName) ∧ (es.map (·.1.decimalKey)).Nodup
  | _ => True

/-- A value that properties can be built from. -/
def Plain (v : Value) : Prop :=
  ∀ w ∈ v.parts, w.isAllowed

theorem plain_sequence {items : List Value} :
    (Value.sequence items).Plain ↔ ∀ v ∈ items, v.Plain := by
  rw [Plain, forall_parts_sequence]
  exact and_iff_right trivial

theorem plain_mapping {es : Entries} :
    (Value.mapping es).Plain ↔
      ((∀ e ∈ es, e.1.isName) ∧ (es.map (·.1.decimalKey)).Nodup) ∧ ∀ e ∈ es, e.2.Plain := by
  rw [Plain, forall_parts_mapping]
  rfl

theorem not_plain_tagged {tag : Tag} {v : Value} : ¬ (Value.tagged tag v).Plain :=
  fun plain => plain _ (mem_parts_self _)

end Yaml.Value

namespace Property

open Yaml (Value Entries)
open Outcome

theorem keyText_eq_some_iff {k : Value} {name : String} :
    keyText k = some name ↔ k.isName ∧ k.decimalKey = .string name := by
  cases k with
  | number n =>
    cases n with
    | whole n => simp [keyText, Value.isName, Value.decimalKey, Decimal.ofInt_eq_toString]
    | float f => simp [keyText, Value.isName]
  | _ => simp [keyText, Value.isName, Value.decimalKey]

/-- Whether the tree is built from the value, wherever that stands. -/
def MadeFrom (v : Value) (p : Property) : Prop :=
  ∃ l, ofValue l v = .ok p

/-- Whether the property is made from the entry. -/
def EntryMadeFrom (e : Value × Value) (f : String × Property) : Prop :=
  keyText e.1 = some f.1 ∧ MadeFrom e.2 f.2

theorem ofItems_ok {l : Location} {items : List Value} {ps : List Property} {i : Nat}
    (success : ofItems l i items = .ok ps) :
    List.Forall₂ MadeFrom items ps := by
  induction items generalizing i ps with
  | nil =>
    cases success
    exact .nil
  | cons v rest ih =>
    simp only [ofItems, bind_eq_ok, pure, Except.pure, Except.ok.injEq] at success
    obtain ⟨p, head, qs, tail, rfl⟩ := success
    exact .cons ⟨_, head⟩ (ih tail)

theorem ofEntries_ok {l : Location} {taken : List String} {es : Entries} {m : PropertyMap}
    (success : ofEntries l taken es = .ok m) :
    List.Forall₂ EntryMadeFrom es m ∧ m.keys.Nodup ∧ ∀ name ∈ m.keys, name ∉ taken := by
  induction es generalizing taken m with
  | nil =>
    cases success
    exact ⟨.nil, by simp [PropertyMap.keys], by simp [PropertyMap.keys]⟩
  | cons e rest ih =>
    obtain ⟨k, v⟩ := e
    simp only [ofEntries] at success
    split at success
    · cases success
    · rename_i name named
      split at success
      · cases success
      · rename_i free
        simp only [bind_eq_ok, pure, Except.pure, Except.ok.injEq] at success
        obtain ⟨p, head, qs, tail, rfl⟩ := success
        obtain ⟨related, distinct, fresh⟩ := ih tail
        have freeName : name ∉ taken := by simpa using free
        refine ⟨.cons ⟨named, _, head⟩ related, ?_, ?_⟩
        -- The rest was built with this name among those that are taken.
        · refine List.nodup_cons.mpr ⟨fun repeated => ?_, distinct⟩
          exact fresh name repeated (by simp)
        · intro other member
          rcases List.mem_cons.mp member with rfl | later
          · exact freeName
          · exact fun earlier => fresh other later (by simp [earlier])

private theorem exists_ofItems {l : Location} {items : List Value} {i : Nat}
    (ready : ∀ v ∈ items, ∀ l, ∃ p, ofValue l v = .ok p) : ∃ ps, ofItems l i items = .ok ps := by
  induction items generalizing i with
  | nil => exact ⟨[], rfl⟩
  | cons v rest ih =>
    obtain ⟨p, head⟩ := ready v (by simp) (l ++ [.index i])
    obtain ⟨ps, tail⟩ := ih fun w member => ready w (by simp [member])
    exact ⟨p :: ps, by rw [ofItems, head, tail]; rfl⟩

private theorem exists_keyText {k : Value} (named : k.isName) : ∃ name, keyText k = some name := by
  cases k with
  | string s => exact ⟨s, rfl⟩
  | number n =>
    cases n with
    | whole n => exact ⟨_, rfl⟩
    | float f => cases named
  | _ => cases named

private theorem exists_ofEntries {l : Location} {taken : List String} {es : Entries}
    (named : ∀ e ∈ es, e.1.isName) (distinct : (es.map (·.1.decimalKey)).Nodup)
    (fresh : ∀ e ∈ es, ∀ name ∈ taken, e.1.decimalKey ≠ .string name)
    (ready : ∀ e ∈ es, ∀ l, ∃ p, ofValue l e.2 = .ok p) : ∃ m, ofEntries l taken es = .ok m := by
  induction es generalizing taken with
  | nil => exact ⟨[], rfl⟩
  | cons e rest ih =>
    obtain ⟨k, v⟩ := e
    obtain ⟨first, others⟩ := List.nodup_cons.mp distinct
    obtain ⟨name, text⟩ := exists_keyText (named (k, v) (by simp))
    have key := (keyText_eq_some_iff.mp text).2
    have free : taken.contains name = false := by
      simpa using fun member => fresh (k, v) (by simp) name member key
    have freshRest : ∀ e ∈ rest, ∀ other ∈ taken ++ [name], e.1.decimalKey ≠ .string other := by
      intro e member other earlier same
      rcases List.mem_append.mp earlier with before | now
      · exact fresh e (by simp [member]) other before same
      · obtain rfl := List.mem_singleton.mp now
        exact first (List.mem_map.mpr ⟨e, member, same.trans key.symm⟩)
    obtain ⟨p, head⟩ := ready (k, v) (by simp) (l ++ [.key name])
    obtain ⟨m, tail⟩ := ih (fun e member => named e (by simp [member])) others freshRest
      fun e member => ready e (by simp [member])
    refine ⟨(name, p) :: m, ?_⟩
    simp only [ofEntries, text, free]
    rw [head, tail]
    rfl

private theorem names_of_related {es : Entries} {m : PropertyMap}
    (related : List.Forall₂ EntryMadeFrom es m) :
    (∀ e ∈ es, e.1.isName) ∧ es.map (·.1.decimalKey) = m.keys.map .string := by
  induction related with
  | nil => exact ⟨by simp, rfl⟩
  | cons head tail ih =>
    obtain ⟨isName, key⟩ := keyText_eq_some_iff.mp head.1
    constructor
    · intro e member
      rcases List.mem_cons.mp member with rfl | later
      · exact isName
      · exact ih.1 e later
    · simp only [List.map_cons, PropertyMap.keys, key]
      exact congrArg _ ih.2

theorem exists_ofValue_iff {l : Location} {v : Value} : (∃ p, ofValue l v = .ok p) ↔ v.Plain := by
  induction v using Value.inward generalizing l with
  | null | bool b | number n | string s =>
    refine ⟨fun _ => ?_, fun _ => ⟨_, rfl⟩⟩
    simp [Value.Plain, Value.parts, Value.isAllowed]
  | sequence items ih =>
    rw [Value.plain_sequence]
    constructor
    · rintro ⟨p, success⟩ v member
      obtain ⟨ps, built, _⟩ := map_eq_ok.mp success
      obtain ⟨q, _, _, success⟩ := related_right (ofItems_ok built) v member
      exact (ih v member).mp ⟨q, success⟩
    · intro each
      obtain ⟨ps, built⟩ := exists_ofItems fun v member l => (ih v member).mpr (each v member)
      exact ⟨.list ps, by rw [ofValue, built]; rfl⟩
  | mapping es ih =>
    rw [Value.plain_mapping]
    constructor
    · rintro ⟨p, success⟩
      obtain ⟨m, built, _⟩ := map_eq_ok.mp success
      obtain ⟨related, distinct, _⟩ := ofEntries_ok built
      obtain ⟨named, keys⟩ := names_of_related related
      refine ⟨⟨named, ?_⟩, fun e member => ?_⟩
      · rw [keys]
        exact distinct.map fun _ _ same => Value.string.inj same
      · obtain ⟨f, _, _, l, success⟩ := related_right related e member
        exact (ih e member).mp ⟨f.2, success⟩
    · rintro ⟨⟨named, distinct⟩, each⟩
      obtain ⟨m, built⟩ : ∃ m, ofEntries l [] es = .ok m :=
        exists_ofEntries named distinct (by simp)
          fun e member l => (ih e member).mpr (each e member)
      exact ⟨.map m, by rw [ofValue, built]; rfl⟩
  | tagged tag v ih =>
    constructor
    · rintro ⟨p, success⟩
      cases success
    · intro plain
      exact (Value.not_plain_tagged plain).elim

theorem toYaml_ofNumber (n : Yaml.Number) : (ofNumber n).toYaml = .number n := by
  cases n with
  | float f => rfl
  | whole n =>
    obtain ⟨val, lower, upper⟩ := n
    simp only [ofNumber]
    split
    · rename_i small
      have back : (Int64.ofInt val).toInt = val := Int64.toInt_ofInt_of_le lower small
      simp [toYaml, Yaml.Whole.ofInt64, back]
    · rename_i large
      have back : (UInt64.ofNat val.toNat).toNat = val.toNat :=
        UInt64.toNat_ofNat_of_lt' (by simp only [UInt64.size]; omega)
      have positive : (val.toNat : Int) = val := Int.toNat_of_nonneg (by omega)
      simp [toYaml, Yaml.Whole.ofUInt64, back, positive]

private theorem itemsToYaml_of_related {items : List Value} {ps : List Property}
    (related : List.Forall₂ (fun v p => p.toYaml = v.withDecimalKeys) items ps) :
    itemsToYaml ps = Value.itemsWithDecimalKeys items := by
  induction related with
  | nil => rfl
  | cons head tail ih => rw [itemsToYaml, Value.itemsWithDecimalKeys, head, ih]

private theorem entriesToYaml_of_related {es : Entries} {m : PropertyMap}
    (related : List.Forall₂
      (fun e f => e.1.decimalKey = .string f.1 ∧ f.2.toYaml = e.2.withDecimalKeys) es m) :
    entriesToYaml m = Value.entriesWithDecimalKeys es := by
  induction related with
  | nil => rfl
  | cons head tail ih =>
    rw [entriesToYaml, Value.entriesWithDecimalKeys, head.1, head.2, ih]

theorem toYaml_ofValue {l : Location} {v : Value} {p : Property} (success : ofValue l v = .ok p) :
    p.toYaml = v.withDecimalKeys := by
  induction v using Value.inward generalizing l p with
  | null | bool b | string s =>
    cases success
    rfl
  | number n =>
    cases success
    exact toYaml_ofNumber n
  | sequence items ih =>
    obtain ⟨ps, built, rfl⟩ := map_eq_ok.mp success
    have related := related_with_member (ofItems_ok built)
    rw [toYaml, Value.withDecimalKeys]
    refine congrArg Value.sequence (itemsToYaml_of_related (related.imp ?_))
    rintro v p ⟨member, _, success⟩
    exact ih v member success
  | mapping es ih =>
    obtain ⟨m, built, rfl⟩ := map_eq_ok.mp success
    have related := related_with_member (ofEntries_ok built).1
    rw [toYaml, Value.withDecimalKeys]
    refine congrArg Value.mapping (entriesToYaml_of_related (related.imp ?_))
    rintro e f ⟨member, text, _, success⟩
    exact ⟨(keyText_eq_some_iff.mp text).2, ih e member success⟩
  | tagged tag v ih => cases success

/-- Every part of a tree is the tree of the part of the value in its place. -/
theorem parts_ofValue {l : Location} {v : Value} {p : Property} (success : ofValue l v = .ok p) :
    List.Forall₂ MadeFrom v.parts p.parts := by
  induction v using Value.inward generalizing l p with
  | null | bool b | string s =>
    cases success
    exact .cons ⟨l, rfl⟩ .nil
  | number n =>
    cases success
    have single : (ofNumber n).parts = [ofNumber n] := by
      cases n with
      | float f => rfl
      | whole n =>
        simp only [ofNumber]
        split <;> rfl
    rw [single]
    exact .cons ⟨l, rfl⟩ .nil
  | sequence items ih =>
    obtain ⟨ps, built, rfl⟩ := map_eq_ok.mp success
    have related := related_with_member (ofItems_ok built)
    rw [Value.parts, parts, Value.partsOfItems_eq, partsOfItems_eq]
    refine .cons ⟨l, success⟩ (List.rel_flatMap related ?_)
    rintro v p ⟨member, _, success⟩
    exact ih v member success
  | mapping es ih =>
    obtain ⟨m, built, rfl⟩ := map_eq_ok.mp success
    -- Keys become names and are no parts, so the entries are compared by their values.
    have related := related_with_member (ofEntries_ok built).1
    rw [Value.parts, parts, Value.partsOfEntries_eq, partsOfEntries_eq]
    refine .cons ⟨l, success⟩ (List.rel_flatMap related ?_)
    rintro e f ⟨member, _, _, success⟩
    exact ih e member success
  | tagged tag v ih => cases success

theorem MadeFrom.unique {v : Value} {p q : Property} (first : MadeFrom v p)
    (second : MadeFrom v q) : p = q := by
  induction v using Value.inward generalizing p q with
  | null | bool b | number n | string s =>
    obtain ⟨_, one⟩ := first
    obtain ⟨_, other⟩ := second
    exact Except.ok.inj (one.symm.trans other)
  | sequence items ih =>
    obtain ⟨_, one⟩ := first
    obtain ⟨_, other⟩ := second
    obtain ⟨ps, built, rfl⟩ := map_eq_ok.mp one
    obtain ⟨qs, again, rfl⟩ := map_eq_ok.mp other
    refine congrArg Property.list (List.right_unique_forall₂' ?_
      (related_with_member (ofItems_ok built)) (related_with_member (ofItems_ok again)))
    rintro v p q ⟨member, made⟩ ⟨_, remade⟩
    exact ih v member made remade
  | mapping es ih =>
    obtain ⟨_, one⟩ := first
    obtain ⟨_, other⟩ := second
    obtain ⟨ps, built, rfl⟩ := map_eq_ok.mp one
    obtain ⟨qs, again, rfl⟩ := map_eq_ok.mp other
    refine congrArg Property.map (List.right_unique_forall₂' ?_
      (related_with_member (ofEntries_ok built).1) (related_with_member (ofEntries_ok again).1))
    rintro e f g ⟨member, text, made⟩ ⟨_, named, remade⟩
    exact Prod.ext (Option.some.inj (text.symm.trans named)) (ih e member made remade)
  | tagged tag v ih =>
    obtain ⟨_, one⟩ := first
    cases one

theorem MadeFrom.anywhere {v : Value} {p : Property} (made : MadeFrom v p) (l : Location) :
    ofValue l v = .ok p := by
  obtain ⟨_, success⟩ := made
  obtain ⟨q, again⟩ : ∃ q, ofValue l v = .ok q :=
    exists_ofValue_iff.mpr (exists_ofValue_iff.mp ⟨p, success⟩)
  rw [again, MadeFrom.unique ⟨l, again⟩ ⟨_, success⟩]

theorem ofItems_of_related {items : List Value} {ps : List Property}
    (related : List.Forall₂ MadeFrom items ps) (l : Location) (i : Nat) :
    ofItems l i items = .ok ps := by
  induction related generalizing i with
  | nil => rfl
  | cons head tail ih =>
    rw [ofItems, head.anywhere, ih]
    rfl

theorem ofEntries_of_related {es : Entries} {m : PropertyMap} {taken : List String}
    (related : List.Forall₂ EntryMadeFrom es m) (distinct : m.keys.Nodup)
    (fresh : ∀ name ∈ m.keys, name ∉ taken) (l : Location) : ofEntries l taken es = .ok m := by
  induction related generalizing taken with
  | nil => rfl
  | @cons e f es m head tail ih =>
    obtain ⟨first, others⟩ := List.nodup_cons.mp distinct
    have free : f.1 ∉ taken := fresh f.1 List.mem_cons_self
    have freshRest : ∀ other ∈ PropertyMap.keys m, other ∉ taken ++ [f.1] := by
      intro other member used
      rcases List.mem_append.mp used with earlier | now
      · exact fresh other (List.mem_cons_of_mem _ member) earlier
      · obtain rfl := List.mem_singleton.mp now
        exact first member
    simp only [ofEntries, head.1, List.contains_iff_mem, if_neg free, head.2.anywhere,
      ih others freshRest]
    rfl

theorem madeFrom_sequence {items : List Value} {ps : List Property}
    (related : List.Forall₂ MadeFrom items ps) : MadeFrom (.sequence items) (.list ps) :=
  ⟨[], by rw [ofValue, ofItems_of_related related]; rfl⟩

theorem madeFrom_mapping {es : Entries} {m : PropertyMap}
    (related : List.Forall₂ EntryMadeFrom es m) (distinct : m.keys.Nodup) :
    MadeFrom (.mapping es) (.map m) :=
  ⟨[], by rw [ofValue, ofEntries_of_related related distinct (by simp)]; rfl⟩

theorem mapping_of_madeFrom {v : Value} {m : PropertyMap} (made : MadeFrom v (.map m)) :
    ∃ fs, v = .mapping fs := by
  obtain ⟨l, success⟩ := made
  cases v with
  | mapping fs => exact ⟨fs, rfl⟩
  | number n =>
    cases n with
    | float f => cases success
    | whole n =>
      simp only [ofValue, ofNumber] at success
      split at success <;> cases success
  | sequence items =>
    obtain ⟨ps, _, same⟩ := map_eq_ok.mp success
    cases same
  | _ => cases success

theorem build_eq_ofValue {v : Value} (present : v ≠ .null) : build v = ofValue [] v := by
  cases v with
  | null => exact (present rfl).elim
  | _ => rfl

/-- Trees are built from exactly the plain values, and what is built stands for the whole value:
only integer keys have become strings. -/
theorem build_faithful {v : Value} (present : v ≠ .null) :
    ((∃ p, build v = .ok p) ↔ v.Plain) ∧
      ∀ p, build v = .ok p → p.toYaml = v.withDecimalKeys := by
  rw [build_eq_ofValue present]
  exact ⟨exists_ofValue_iff, fun p success => toYaml_ofValue success⟩

/-- An integer key below a list comes back as its text, and the string of digits stays a string. -/
theorem build_faithful_nested :
    let v : Value := .mapping [(.string "hosts", .sequence [.null,
      .mapping [(.number (.whole ⟨-80, by decide, by decide⟩), .string "30")]])]
    v ≠ .null ∧ v.Plain ∧ ∃ p, build v = .ok p ∧
      p.toYaml = .mapping [(.string "hosts", .sequence [.null,
        .mapping [(.string "-80", .string "30")]])] := by
  intro v
  have present : v ≠ .null := by simp [v]
  obtain ⟨p, success⟩ : ∃ p, build v = .ok p := ⟨_, rfl⟩
  exact ⟨present, (build_faithful present).1.mp ⟨p, success⟩, p, success,
    (build_faithful present).2 p success⟩

end Property

theorem PropertyMap.build_ok {v : Yaml.Value} {m : PropertyMap}
    (success : PropertyMap.build v = .ok m) :
    (v = .null ∧ m = []) ∨ Property.ofValue [] v = .ok (.map m) := by
  cases v with
  | null =>
    cases success
    exact .inl ⟨rfl, rfl⟩
  | mapping es => exact .inr (Outcome.map_eq_ok.mpr ⟨m, success, rfl⟩)
  | _ => cases success

end Deployment
