import Deployment.Property.Basic
import Mathlib.Data.List.Forall2

namespace Deployment

section Related

variable {α β : Type} {r : α → β → Prop} {xs : List α} {ys : List β}

theorem related_right (related : List.Forall₂ r xs ys) : ∀ x ∈ xs, ∃ y ∈ ys, r x y := by
  induction related with
  | nil => simp
  | cons head tail ih =>
    intro x member
    rcases List.mem_cons.mp member with rfl | later
    · exact ⟨_, List.mem_cons_self, head⟩
    · obtain ⟨y, within, related⟩ := ih x later
      exact ⟨y, List.mem_cons_of_mem _ within, related⟩

theorem related_left (related : List.Forall₂ r xs ys) : ∀ y ∈ ys, ∃ x ∈ xs, r x y := by
  have flipped : List.Forall₂ (flip r) ys xs := List.Forall₂.flip related
  exact related_right flipped

theorem exists_iff_of_related {P : α → Prop} {Q : β → Prop} (related : List.Forall₂ r xs ys)
    (same : ∀ x y, r x y → (P x ↔ Q y)) : (∃ x ∈ xs, P x) ↔ ∃ y ∈ ys, Q y := by
  constructor
  · intro ⟨x, member, holds⟩
    obtain ⟨y, within, pair⟩ := related_right related x member
    exact ⟨y, within, (same x y pair).mp holds⟩
  · intro ⟨y, member, holds⟩
    obtain ⟨x, within, pair⟩ := related_left related y member
    exact ⟨x, within, (same x y pair).mpr holds⟩

theorem forall_iff_of_related {P : α → Prop} {Q : β → Prop} (related : List.Forall₂ r xs ys)
    (same : ∀ x y, r x y → (P x ↔ Q y)) : (∀ x ∈ xs, P x) ↔ ∀ y ∈ ys, Q y := by
  constructor
  · intro all y member
    obtain ⟨x, within, pair⟩ := related_left related y member
    exact (same x y pair).mp (all x within)
  · intro all x member
    obtain ⟨y, within, pair⟩ := related_right related x member
    exact (same x y pair).mpr (all y within)

theorem related_with_member (related : List.Forall₂ r xs ys) :
    List.Forall₂ (fun x y => x ∈ xs ∧ r x y) xs ys :=
  (List.forall₂_and_left _ _).mpr ⟨fun _ member => member, related⟩

end Related

namespace Yaml.Value

theorem isString_iff {v : Value} {s : String} : v.isString s = true ↔ v = .string s := by
  cases v <;> simp [isString]

/-- Induction in which what a collection holds is known by membership. -/
@[elab_as_elim]
theorem inward {motive : Value → Prop} (null : motive .null) (bool : ∀ b, motive (.bool b))
    (number : ∀ n, motive (.number n)) (string : ∀ s, motive (.string s))
    (sequence : ∀ items, (∀ v ∈ items, motive v) → motive (.sequence items))
    (mapping : ∀ es, (∀ e ∈ es, motive e.2) → motive (.mapping es))
    (tagged : ∀ tag v, motive v → motive (.tagged tag v)) : ∀ v, motive v
  | .null => null
  | .bool b => bool b
  | .number n => number n
  | .string s => string s
  | .sequence items =>
    sequence items fun v _ =>
      inward null bool number string sequence mapping tagged v
  | .mapping es =>
    mapping es fun e _ =>
      inward null bool number string sequence mapping tagged e.2
  | .tagged tag v => tagged tag v (inward null bool number string sequence mapping tagged v)
decreasing_by
  · have := List.sizeOf_lt_of_mem ‹v ∈ items›
    simp only [Value.sequence.sizeOf_spec]
    omega
  · have := List.sizeOf_lt_of_mem ‹e ∈ es›
    cases e
    simp only [Value.mapping.sizeOf_spec, Prod.mk.sizeOf_spec] at this ⊢
    omega
  · simp only [Value.tagged.sizeOf_spec]
    omega

mutual
def parts : Value → List Value
  | .sequence items => .sequence items :: partsOfItems items
  | .mapping es => .mapping es :: partsOfEntries es
  | .tagged tag v => .tagged tag v :: v.parts
  | v => [v]

def partsOfItems : List Value → List Value
  | [] => []
  | v :: rest => v.parts ++ partsOfItems rest

def partsOfEntries : Entries → List Value
  | [] => []
  | (_, v) :: rest => v.parts ++ partsOfEntries rest
end

theorem partsOfItems_eq (items : List Value) : partsOfItems items = items.flatMap parts := by
  induction items with
  | nil => rfl
  | cons v rest ih => simp [partsOfItems, ih]

theorem partsOfEntries_eq (es : Entries) : partsOfEntries es = es.flatMap (·.2.parts) := by
  induction es with
  | nil => rfl
  | cons e rest ih => simp [partsOfEntries, ih]

theorem mem_parts_self (v : Value) : v ∈ v.parts := by
  cases v <;> simp [parts]

theorem untagged_mem_parts (v : Value) : v.untagged ∈ v.parts := by
  induction v using inward with
  | tagged tag w ih => exact List.mem_cons_of_mem _ ih
  | _ => exact mem_parts_self _

@[simp] theorem mem_parts_sequence {w : Value} {items : List Value} :
    w ∈ (Value.sequence items).parts ↔ w = .sequence items ∨ ∃ v ∈ items, w ∈ v.parts := by
  simp [parts, partsOfItems_eq]

@[simp] theorem mem_parts_mapping {w : Value} {es : Entries} :
    w ∈ (Value.mapping es).parts ↔ w = .mapping es ∨ ∃ e ∈ es, w ∈ e.2.parts := by
  simp [parts, partsOfEntries_eq]

@[simp] theorem mem_parts_tagged {w v : Value} {tag : Tag} :
    w ∈ (Value.tagged tag v).parts ↔ w = .tagged tag v ∨ w ∈ v.parts := by
  simp [parts]

theorem forall_parts_sequence {P : Value → Prop} {items : List Value} :
    (∀ w ∈ (Value.sequence items).parts, P w) ↔
      P (.sequence items) ∧ ∀ v ∈ items, ∀ w ∈ v.parts, P w := by
  constructor
  · intro each
    refine ⟨each _ (mem_parts_self _), fun v member w within => each w ?_⟩
    exact mem_parts_sequence.mpr (.inr ⟨v, member, within⟩)
  · intro ⟨whole, inner⟩ w within
    rcases mem_parts_sequence.mp within with rfl | ⟨v, member, inside⟩
    · exact whole
    · exact inner v member w inside

theorem forall_parts_mapping {P : Value → Prop} {es : Entries} :
    (∀ w ∈ (Value.mapping es).parts, P w) ↔
      P (.mapping es) ∧ ∀ e ∈ es, ∀ w ∈ e.2.parts, P w := by
  constructor
  · intro each
    refine ⟨each _ (mem_parts_self _), fun e member w within => each w ?_⟩
    exact mem_parts_mapping.mpr (.inr ⟨e, member, within⟩)
  · intro ⟨whole, inner⟩ w within
    rcases mem_parts_mapping.mp within with rfl | ⟨e, member, inside⟩
    · exact whole
    · exact inner e member w inside

theorem forall_parts_tagged {P : Value → Prop} {tag : Tag} {v : Value} :
    (∀ w ∈ (Value.tagged tag v).parts, P w) ↔ P (.tagged tag v) ∧ ∀ w ∈ v.parts, P w := by
  simp

theorem parts_trans {u v w : Value} (inner : u ∈ v.parts) (outer : v ∈ w.parts) : u ∈ w.parts := by
  induction w using inward with
  | null | bool b | number n | string s =>
    have same : v = _ := List.mem_singleton.mp outer
    rwa [← same]
  | sequence items ih =>
    rcases mem_parts_sequence.mp outer with rfl | ⟨x, member, within⟩
    · exact inner
    · exact mem_parts_sequence.mpr (.inr ⟨x, member, ih x member within⟩)
  | mapping es ih =>
    rcases mem_parts_mapping.mp outer with rfl | ⟨e, member, within⟩
    · exact inner
    · exact mem_parts_mapping.mpr (.inr ⟨e, member, ih e member within⟩)
  | tagged tag x ih =>
    rcases mem_parts_tagged.mp outer with rfl | within
    · exact inner
    · exact mem_parts_tagged.mpr (.inr (ih within))

/-- Whether something holds of the entries of every mapping inside a value, the whole included. -/
def EachMapping (holds : Entries → Prop) (v : Value) : Prop :=
  ∀ w ∈ v.parts, ∀ es, w = .mapping es → holds es

section EachMapping

variable {holds : Entries → Prop}

theorem eachMapping_sequence {items : List Value} :
    (Value.sequence items).EachMapping holds ↔ ∀ v ∈ items, v.EachMapping holds := by
  rw [EachMapping, forall_parts_sequence]
  exact and_iff_right fun es same => nomatch same

theorem eachMapping_mapping {es : Entries} :
    (Value.mapping es).EachMapping holds ↔ holds es ∧ ∀ e ∈ es, e.2.EachMapping holds := by
  rw [EachMapping, forall_parts_mapping]
  refine and_congr_left fun _ => ⟨fun all => all es rfl, fun whole fs same => ?_⟩
  cases same
  exact whole

theorem eachMapping_tagged {tag : Tag} {v : Value} :
    (Value.tagged tag v).EachMapping holds ↔ v.EachMapping holds := by
  rw [EachMapping, forall_parts_tagged]
  exact and_iff_right fun es same => nomatch same

theorem EachMapping.part {v w : Value} (each : v.EachMapping holds) (member : w ∈ v.parts) :
    w.EachMapping holds :=
  fun u within => each u (parts_trans within member)

end EachMapping

end Yaml.Value

namespace Property

/-- Induction in which what a list or a map holds is known by membership. -/
@[elab_as_elim]
theorem inward {motive : Property → Prop} (null : motive .null) (bool : ∀ b, motive (.bool b))
    (int : ∀ i, motive (.int i)) (uint : ∀ n, motive (.uint n)) (float : ∀ f, motive (.float f))
    (string : ∀ s, motive (.string s))
    (list : ∀ items, (∀ p ∈ items, motive p) → motive (.list items))
    (map : ∀ m, (∀ e ∈ m, motive e.2) → motive (.map m)) : ∀ p, motive p
  | .null => null
  | .bool b => bool b
  | .int i => int i
  | .uint n => uint n
  | .float f => float f
  | .string s => string s
  | .list items => list items fun p _ => inward null bool int uint float string list map p
  | .map m => map m fun e _ => inward null bool int uint float string list map e.2
decreasing_by
  · have := List.sizeOf_lt_of_mem ‹p ∈ items›
    simp only [Property.list.sizeOf_spec]
    omega
  · have := List.sizeOf_lt_of_mem ‹e ∈ m›
    cases e
    simp only [Property.map.sizeOf_spec, Prod.mk.sizeOf_spec] at this ⊢
    omega

mutual
def parts : Property → List Property
  | .list items => .list items :: partsOfItems items
  | .map es => .map es :: partsOfEntries es
  | p => [p]

def partsOfItems : List Property → List Property
  | [] => []
  | p :: rest => p.parts ++ partsOfItems rest

def partsOfEntries : PropertyMap → List Property
  | [] => []
  | (_, p) :: rest => p.parts ++ partsOfEntries rest
end

theorem partsOfItems_eq (items : List Property) : partsOfItems items = items.flatMap parts := by
  induction items with
  | nil => rfl
  | cons p rest ih => simp [partsOfItems, ih]

theorem partsOfEntries_eq (m : PropertyMap) : partsOfEntries m = m.flatMap (·.2.parts) := by
  induction m with
  | nil => rfl
  | cons e rest ih => simp [partsOfEntries, ih]

theorem mem_parts_self (p : Property) : p ∈ p.parts := by
  cases p <;> simp [parts]

@[simp] theorem mem_parts_list {q : Property} {items : List Property} :
    q ∈ (Property.list items).parts ↔ q = .list items ∨ ∃ p ∈ items, q ∈ p.parts := by
  simp [parts, partsOfItems_eq]

@[simp] theorem mem_parts_map {q : Property} {m : PropertyMap} :
    q ∈ (Property.map m).parts ↔ q = .map m ∨ ∃ e ∈ m, q ∈ e.2.parts := by
  simp [parts, partsOfEntries_eq]

theorem forall_parts_list {P : Property → Prop} {items : List Property} :
    (∀ q ∈ (Property.list items).parts, P q) ↔
      P (.list items) ∧ ∀ p ∈ items, ∀ q ∈ p.parts, P q := by
  constructor
  · intro each
    refine ⟨each _ (mem_parts_self _), fun p member q within => each q ?_⟩
    exact mem_parts_list.mpr (.inr ⟨p, member, within⟩)
  · intro ⟨whole, inner⟩ q within
    rcases mem_parts_list.mp within with rfl | ⟨p, member, inside⟩
    · exact whole
    · exact inner p member q inside

theorem forall_parts_map {P : Property → Prop} {m : PropertyMap} :
    (∀ q ∈ (Property.map m).parts, P q) ↔ P (.map m) ∧ ∀ e ∈ m, ∀ q ∈ e.2.parts, P q := by
  constructor
  · intro each
    refine ⟨each _ (mem_parts_self _), fun e member q within => each q ?_⟩
    exact mem_parts_map.mpr (.inr ⟨e, member, within⟩)
  · intro ⟨whole, inner⟩ q within
    rcases mem_parts_map.mp within with rfl | ⟨e, member, inside⟩
    · exact whole
    · exact inner e member q inside

end Property

end Deployment
