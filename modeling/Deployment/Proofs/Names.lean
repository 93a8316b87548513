import Deployment.Proofs.PropertyMaps
import Deployment.Proofs.PropertyTree
import Mathlib.Data.List.Pairwise

namespace Deployment

open Yaml (Value Entries)

namespace Property

theorem same_iff_of_keyText {k j : Value} {name : String} (text : keyText k = some name) :
    k.same j = true ↔ k = j := by
  cases k with
  | string s => cases j <;> simp [Value.same]
  | number n =>
    cases n with
    | whole n =>
      cases j with
      | number i => cases i <;> simp [Value.same, Yaml.Number.same]
      | _ => simp [Value.same]
    | float f => cases text
  | _ => cases text

/-- The names that the keys of a mapping stand for, in order. -/
def namesOf (es : Entries) : List String :=
  es.filterMap fun e => keyText e.1

theorem namesOf_append (es fs : Entries) : namesOf (es ++ fs) = namesOf es ++ namesOf fs :=
  List.filterMap_append

theorem namesOf_eq_nil_iff {es : Entries} (named : ∀ e ∈ es, ∃ name, keyText e.1 = some name) :
    namesOf es = [] ↔ es = [] := by
  cases es with
  | nil => simp [namesOf]
  | cons e rest =>
    obtain ⟨name, text⟩ := named e List.mem_cons_self
    simp [namesOf, text]

theorem keys_eq_namesOf {es : Entries} {m : PropertyMap}
    (related : List.Forall₂ EntryMadeFrom es m) : m.keys = namesOf es := by
  induction related with
  | nil => rfl
  | cons head tail ih =>
    rw [namesOf, List.filterMap_cons, head.1, PropertyMap.keys, List.map_cons]
    exact congrArg _ ih

theorem mem_namesOf {es : Entries} {name : String} :
    name ∈ namesOf es ↔ ∃ e ∈ es, keyText e.1 = some name :=
  List.mem_filterMap

def NamesDiffer (e f : Value × Value) : Prop :=
  ∀ name, keyText e.1 = some name → keyText f.1 ≠ some name

instance : Std.Symm NamesDiffer :=
  ⟨fun _ _ different name one two => different name two one⟩

theorem pairwise_namesDiffer {es : Entries} (unique : (namesOf es).Nodup) :
    es.Pairwise NamesDiffer := by
  refine (List.pairwise_filterMap.mp unique).imp fun apart name text again => ?_
  exact apart name text name again rfl

theorem eq_of_namesOf_nodup {es : Entries} (unique : (namesOf es).Nodup) {e f : Value × Value}
    {name : String} (first : e ∈ es) (second : f ∈ es) (text : keyText e.1 = some name)
    (other : keyText f.1 = some name) : e = f := by
  by_contra apart
  exact (pairwise_namesDiffer unique).forall first second apart name text other

theorem distinct_of_namesOf_nodup {es : Entries}
    (named : ∀ e ∈ es, ∃ name, keyText e.1 = some name) (unique : (namesOf es).Nodup) :
    es.Pairwise fun a b => a.1.same b.1 = false := by
  refine (pairwise_namesDiffer unique).imp_of_mem fun {e f} member _ different => ?_
  obtain ⟨name, text⟩ := named e member
  rw [Bool.eq_false_iff, ne_eq, same_iff_of_keyText text]
  intro same
  exact different name text (same ▸ text)

/-- A block of plain values under names fails to build only where it repeats a name. -/
theorem ofEntries_error {l : Location} {taken : List String} {es : Entries}
    {error : PropertyError} (named : ∀ e ∈ es, ∃ name, keyText e.1 = some name)
    (ready : ∀ e ∈ es, e.2.Plain) (failed : ofEntries l taken es = .error error) :
    ∃ name, error = .collision l name ∧ 2 ≤ (taken ++ namesOf es).count name := by
  induction es generalizing taken with
  | nil => cases failed
  | cons e rest ih =>
    obtain ⟨name, text⟩ := named e List.mem_cons_self
    have names : namesOf (e :: rest) = name :: namesOf rest := by
      rw [namesOf, List.filterMap_cons, text]
      rfl
    simp only [ofEntries, text] at failed
    -- Either this name is taken already, or it is one of those taken for the rest.
    by_cases used : taken.contains name = true
    · rw [if_pos used] at failed
      cases failed
      refine ⟨name, rfl, ?_⟩
      have earlier : 0 < taken.count name := List.count_pos_iff.mpr (by simpa using used)
      rw [names, List.count_append, List.count_cons_self]
      omega
    · obtain ⟨p, made⟩ := exists_ofValue_iff.mpr (ready e List.mem_cons_self)
      rw [if_neg used, made] at failed
      have tail : ofEntries l (taken ++ [name]) rest = .error error := by
        cases result : ofEntries l (taken ++ [name]) rest with
        | error other =>
          simp only [bind, Except.bind, result] at failed
          exact failed
        | ok m =>
          simp only [bind, Except.bind, result] at failed
          cases failed
      have repeated := ih (fun f member => named f (List.mem_cons_of_mem _ member))
        (fun f member => ready f (List.mem_cons_of_mem _ member)) tail
      rwa [List.append_assoc, List.singleton_append, ← names] at repeated

end Property

end Deployment
