import Deployment.Proofs.Parts
import Mathlib

namespace Deployment.Yaml

namespace Number

theorem float_same_iff {f g : Float} :
    (Number.float f).same (.float g) = true ↔ (f == g) = true ∨ (f = .nan ∧ g = .nan) := by
  simp [same]

theorem same_refl (n : Number) : n.same n = true := by
  cases n with
  | whole m => simp [same]
  | float f =>
    rw [float_same_iff, Float.beq_self_iff]
    by_cases nan : f = .nan
    · exact .inr ⟨nan, nan⟩
    · exact .inl nan

theorem same_symm {a b : Number} (equal : a.same b = true) : b.same a = true := by
  cases a with
  | whole m =>
    cases b with
    | whole n => simpa [same, eq_comm] using equal
    | float g => cases equal
  | float f =>
    cases b with
    | whole n => cases equal
    | float g =>
      rcases float_same_iff.mp equal with comparable | ⟨first, second⟩
      · exact float_same_iff.mpr (.inl (BEq.symm comparable))
      · exact float_same_iff.mpr (.inr ⟨second, first⟩)

theorem same_trans {a b c : Number} (first : a.same b = true) (second : b.same c = true) :
    a.same c = true := by
  cases b with
  | whole n =>
    cases a with
    | whole m =>
      obtain rfl : m = n := by simpa [same] using first
      exact second
    | float f => cases first
  | float g =>
    cases a with
    | whole m => cases first
    | float f =>
      cases c with
      | whole n => cases second
      | float h =>
        -- A comparison with what is not a number fails, so both equalities are of one kind.
        rcases float_same_iff.mp first with one | ⟨nan, rfl⟩
        · rcases float_same_iff.mp second with other | ⟨rfl, _⟩
          · exact float_same_iff.mpr (.inl (BEq.trans one other))
          · simp at one
        · rcases float_same_iff.mp second with other | ⟨_, too⟩
          · simp at other
          · exact float_same_iff.mpr (.inr ⟨nan, too⟩)

end Number

namespace Value

/-- A value in which no mapping has two equal keys, the mappings inside keys included. -/
inductive WellKeyed : Value → Prop where
  | null : WellKeyed .null
  | bool (b : Bool) : WellKeyed (.bool b)
  | number (n : Number) : WellKeyed (.number n)
  | string (s : String) : WellKeyed (.string s)
  | sequence {items : List Value} (each : ∀ v ∈ items, WellKeyed v) : WellKeyed (.sequence items)
  | mapping {es : Entries} (distinct : es.Pairwise fun a b => a.1.same b.1 = false)
      (keys : ∀ e ∈ es, WellKeyed e.1) (values : ∀ e ∈ es, WellKeyed e.2) :
      WellKeyed (.mapping es)
  | tagged {tag : Tag} {v : Value} (below : WellKeyed v) : WellKeyed (.tagged tag v)

theorem sameItems_iff {xs ys : List Value} :
    sameItems xs ys = true ↔ List.Forall₂ (fun x y => x.same y = true) xs ys := by
  induction xs generalizing ys with
  | nil => cases ys <;> simp [sameItems]
  | cons x xs ih => cases ys <;> simp [sameItems, ih]

theorem sameEntries_iff {es fs : Entries} : sameEntries es fs = true ↔
    ∀ e ∈ es, ∃ f ∈ fs, e.1.same f.1 = true ∧ e.2.same f.2 = true := by
  induction es with
  | nil => simp [sameEntries]
  | cons e rest ih => simp [sameEntries, ih]

theorem WellKeyed.same_refl {v : Value} (sound : v.WellKeyed) : v.same v = true := by
  induction sound with
  | null | bool b | string s => simp [same]
  | number n => exact n.same_refl
  | sequence each ih => exact sameItems_iff.mpr (List.forall₂_same.mpr ih)
  | mapping distinct keys values ihKeys ihValues =>
    rw [same, Bool.and_eq_true, sameEntries_iff]
    exact ⟨by simp, fun e member => ⟨e, member, ihKeys e member, ihValues e member⟩⟩
  | tagged below ih => simp [same, ih]

theorem WellKeyed.same_trans {u v w : Value} (sound : u.WellKeyed) (first : u.same v = true)
    (second : v.same w = true) : u.same w = true := by
  induction sound generalizing v w with
  | null | bool b | string s =>
    cases v <;> cases w <;> simp_all [same]
  | number n =>
    cases v <;> simp only [same, Bool.false_eq_true] at first
    cases w <;> simp only [same, Bool.false_eq_true] at second
    exact Number.same_trans first second
  | @sequence xs each ih =>
    cases v <;> simp only [same, Bool.false_eq_true] at first
    cases w <;> simp only [same, Bool.false_eq_true] at second
    rename_i ys zs
    rw [sameItems_iff] at first second
    refine sameItems_iff.mpr ?_
    -- The items are compared in step, so the induction is on the first comparison.
    clear each
    induction first generalizing zs with
    | nil => exact second
    | cons head tail rest =>
      cases second with
      | cons next others =>
        refine .cons (ih _ (by simp) head next)
          (rest (fun x member => ih x (by simp [member])) _ others)
  | @mapping es distinct keys values ihKeys ihValues =>
    cases v <;> simp only [same, Bool.false_eq_true] at first
    cases w <;> simp only [same, Bool.false_eq_true] at second
    rename_i fs gs
    simp only [Bool.and_eq_true, beq_iff_eq, sameEntries_iff] at first second
    rw [same, Bool.and_eq_true, beq_iff_eq, sameEntries_iff]
    refine ⟨first.1.trans second.1, fun e member => ?_⟩
    obtain ⟨f, inSecond, key, value⟩ := first.2 e member
    obtain ⟨g, inThird, nextKey, nextValue⟩ := second.2 f inSecond
    exact ⟨g, inThird, ihKeys e member key nextKey, ihValues e member value nextValue⟩
  | tagged below ih =>
    cases v <;> simp only [same, Bool.false_eq_true] at first
    cases w <;> simp only [same, Bool.false_eq_true] at second
    simp only [Bool.and_eq_true, beq_iff_eq] at first second
    rw [same, Bool.and_eq_true, beq_iff_eq]
    exact ⟨first.1.trans second.1, ih first.2 second.2⟩

/-- When no two things on the left are related to one thing on the right, and the right is no
longer than the left, a relation that leaves out nothing on the left leaves out nothing at all. -/
private theorem related_onto {α β : Type} {r : α → β → Prop} {xs : List α} {ys : List β}
    (total : ∀ x ∈ xs, ∃ y ∈ ys, r x y) (apart : xs.Pairwise fun a b => ∀ y, r a y → ¬ r b y)
    (short : ys.length ≤ xs.length) : ∀ y ∈ ys, ∃ x ∈ xs, r x y := by
  induction xs generalizing ys with
  | nil =>
    obtain rfl : ys = [] := List.eq_nil_of_length_eq_zero (Nat.le_zero.mp short)
    simp
  | cons a rest ih =>
    obtain ⟨partner, within, related⟩ := total a List.mem_cons_self
    obtain ⟨before, after, rfl⟩ := List.append_of_mem within
    obtain ⟨alone, others⟩ := List.pairwise_cons.mp apart
    have totalRest : ∀ x ∈ rest, ∃ y ∈ before ++ after, r x y := by
      intro x member
      obtain ⟨y, present, pair⟩ := total x (List.mem_cons_of_mem _ member)
      have different : y ≠ partner := by
        rintro rfl
        exact alone x member y related pair
      refine ⟨y, ?_, pair⟩
      simpa [different] using present
    have shortRest : (before ++ after).length ≤ rest.length := by
      simp only [List.length_append, List.length_cons] at short ⊢
      omega
    intro y member
    by_cases isPartner : y = partner
    · exact ⟨a, List.mem_cons_self, isPartner ▸ related⟩
    · obtain ⟨x, present, pair⟩ :=
        ih totalRest others shortRest y (by simpa [isPartner] using member)
      exact ⟨x, List.mem_cons_of_mem _ present, pair⟩

theorem WellKeyed.same_symm {u v : Value} (sound : u.WellKeyed) (equal : u.same v = true) :
    v.same u = true := by
  induction sound generalizing v with
  | null | bool b | string s =>
    cases v <;> simp_all [same]
  | number n =>
    cases v <;> simp only [same, Bool.false_eq_true] at equal
    exact Number.same_symm equal
  | @sequence xs each ih =>
    cases v <;> simp only [same, Bool.false_eq_true] at equal
    rename_i ys
    have related := related_with_member (sameItems_iff.mp equal)
    refine sameItems_iff.mpr (related.flip.imp ?_)
    rintro y x ⟨member, pair⟩
    exact ih x member pair
  | @mapping es distinct keys values ihKeys ihValues =>
    cases v <;> simp only [same, Bool.false_eq_true] at equal
    rename_i fs
    simp only [Bool.and_eq_true, beq_iff_eq, sameEntries_iff] at equal
    -- Two entries with one counterpart would have equal keys, so no counterpart is left over.
    have apart : es.Pairwise fun a b => ∀ f : Value × Value,
        (a.1.same f.1 = true ∧ a.2.same f.2 = true) →
          ¬ (b.1.same f.1 = true ∧ b.2.same f.2 = true) := by
      refine distinct.imp_of_mem fun {a b} inA inB different f first second => ?_
      have back := ihKeys b inB second.1
      simp [(keys a inA).same_trans first.1 back] at different
    have onto := related_onto equal.2 apart (Nat.le_of_eq equal.1.symm)
    rw [same, Bool.and_eq_true, beq_iff_eq, sameEntries_iff]
    refine ⟨equal.1.symm, fun f member => ?_⟩
    obtain ⟨e, within, key, value⟩ := onto f member
    exact ⟨e, within, ihKeys e within key, ihValues e within value⟩
  | tagged below ih =>
    cases v <;> simp only [same, Bool.false_eq_true] at equal
    simp only [Bool.and_eq_true, beq_iff_eq] at equal
    rw [same, Bool.and_eq_true, beq_iff_eq]
    exact ⟨equal.1.symm, ih equal.2⟩

/-- The value that the entries have for a key. -/
def valueAt (es : Entries) (k : Value) : Option Value :=
  (es.find? (·.1.same k)).map (·.2)

theorem valueAt_cons (e : Value × Value) (rest : Entries) (k : Value) :
    valueAt (e :: rest) k = if e.1.same k then some e.2 else valueAt rest k := by
  by_cases same : e.1.same k = true
  · simp [valueAt, same]
  · simp [valueAt, same]

theorem valueAt_append (es fs : Entries) (k : Value) :
    valueAt (es ++ fs) k = (valueAt es k).or (valueAt fs k) := by
  simp only [valueAt, List.find?_append]
  cases es.find? (·.1.same k) <;> rfl

theorem valueAt_eq_none_iff {es : Entries} {k : Value} :
    valueAt es k = none ↔ ∀ e ∈ es, e.1.same k = false := by
  simp [valueAt]

theorem exists_mem_of_valueAt {es : Entries} {k v : Value} (found : valueAt es k = some v) :
    ∃ e ∈ es, e.1.same k = true ∧ e.2 = v := by
  obtain ⟨e, first, rfl⟩ := Option.map_eq_some_iff.mp found
  exact ⟨e, List.mem_of_find?_eq_some first, by simpa using List.find?_some first, rfl⟩

/-- Where no two keys are equal, any entry under a key gives its value. -/
theorem WellKeyed.valueAt_of_mem {es : Entries} (sound : (Value.mapping es).WellKeyed)
    {e : Value × Value} (member : e ∈ es) {k : Value} (same : e.1.same k = true) :
    valueAt es k = some e.2 := by
  cases sound with
  | mapping distinct keys values =>
    clear values
    induction es with
    | nil => cases member
    | cons first rest ih =>
      obtain ⟨apart, distinctRest⟩ := List.pairwise_cons.mp distinct
      rw [valueAt_cons]
      rcases List.mem_cons.mp member with rfl | later
      · rw [if_pos same]
      · have other : first.1.same k = false := by
          by_contra equal
          have back := (keys e member).same_symm same
          have clash := (keys first List.mem_cons_self).same_trans (by simpa using equal) back
          simp [apart e later] at clash
        rw [if_neg (by simp [other])]
        exact ih later distinctRest fun f inRest => keys f (List.mem_cons_of_mem _ inRest)

theorem WellKeyed.sublist {es fs : Entries} (sound : (Value.mapping es).WellKeyed)
    (within : fs.Sublist es) : (Value.mapping fs).WellKeyed := by
  cases sound with
  | mapping distinct keys values =>
    exact .mapping (distinct.sublist within) (fun e member => keys e (within.subset member))
      fun e member => values e (within.subset member)

theorem WellKeyed.append_single {es : Entries} {e : Value × Value}
    (sound : (Value.mapping es).WellKeyed) (key : e.1.WellKeyed) (value : e.2.WellKeyed)
    (new : ∀ f ∈ es, f.1.same e.1 = false) : (Value.mapping (es ++ [e])).WellKeyed := by
  cases sound with
  | mapping distinct keys values =>
    constructor
    · refine List.pairwise_append.mpr ⟨distinct, List.pairwise_singleton _ _, ?_⟩
      intro f member g single
      obtain rfl := List.mem_singleton.mp single
      exact new f member
    · intro f member
      rcases List.mem_append.mp member with earlier | single
      · exact keys f earlier
      · exact List.mem_singleton.mp single ▸ key
    · intro f member
      rcases List.mem_append.mp member with earlier | single
      · exact values f earlier
      · exact List.mem_singleton.mp single ▸ value

theorem WellKeyed.perm {es fs : Entries} (sound : (Value.mapping es).WellKeyed)
    (perm : es.Perm fs) : (Value.mapping fs).WellKeyed := by
  cases sound with
  | mapping distinct keys values =>
    have bothWays : es.Pairwise fun a b => a.1.same b.1 = false ∧ b.1.same a.1 = false := by
      refine distinct.imp_of_mem fun {a b} _ inB apart => ⟨apart, ?_⟩
      by_contra equal
      simp [(keys b inB).same_symm (by simpa using equal)] at apart
    have permuted := (perm.pairwise_iff fun {a b} apart => ⟨apart.2, apart.1⟩).mp bothWays
    exact .mapping (permuted.imp And.left) (fun e member => keys e (perm.mem_iff.mpr member))
      fun e member => values e (perm.mem_iff.mpr member)

theorem WellKeyed.valueAt_perm {es fs : Entries} (sound : (Value.mapping es).WellKeyed)
    (perm : es.Perm fs) (k : Value) : valueAt es k = valueAt fs k := by
  cases found : valueAt fs k with
  | none =>
    rw [valueAt_eq_none_iff] at found ⊢
    exact fun e member => found e (perm.mem_iff.mp member)
  | some v =>
    obtain ⟨e, member, same, rfl⟩ := exists_mem_of_valueAt found
    exact sound.valueAt_of_mem (perm.mem_iff.mpr member) same

end Value

end Deployment.Yaml
