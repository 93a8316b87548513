import Deployment.Proofs.Outcome
import Deployment.Yaml.Shape
import Mathlib.Data.List.Forall2
import Mathlib.Data.List.Nodup

namespace Deployment

namespace Yaml

open Outcome

/-- The value of the first entry under a field name, tags on keys aside; null without such an
entry. -/
def fieldOf (es : Entries) (name : String) : Value :=
  ((es.find? fun e => e.1.asString? == some name).map (·.2)).getD .null

/-- The value that a mapping has under a field name, tags aside. -/
def Value.field (v : Value) (name : String) : Value :=
  match v.untagged with
  | .mapping es => fieldOf es name
  | _ => .null

def Value.entries : Value → Entries
  | .mapping es => es
  | _ => []

def Value.isTagged : Value → Bool
  | .tagged .. => true
  | _ => false

def Value.elements (v : Value) : List Value :=
  match v.untagged with
  | .sequence items => items
  | _ => []

namespace Shape

/-- A field that alone decides what `get` reads off a record. -/
structure Governs {ρ α : Type} (fields : List (RecordField ρ)) (name : String)
    (shape : Value → Except Mismatch α) (get : ρ → α) : Prop where
  present : ∃ f ∈ fields, f.name = name
  sets : ∀ f ∈ fields, f.name = name → ∀ v r r', f.read v r = .ok r' → shape v = .ok (get r')
  keeps : ∀ f ∈ fields, f.name ≠ name → ∀ v r r', f.read v r = .ok r' → get r' = get r

variable {ρ α : Type} {fields : List (RecordField ρ)} {name : String}
  {shape : Value → Except Mismatch α} {get : ρ → α}

theorem entries_cons_ok {seen : List String} {r r' : ρ} {k v : Value} {rest : Entries}
    (success : entries fields seen r ((k, v) :: rest) = .ok r') :
    ∃ key, k.asString? = some key ∧
      ((fields.find? (·.name == key) = none ∧ entries fields seen r rest = .ok r') ∨
        ∃ f ∈ fields, f.name = key ∧ key ∉ seen ∧ ∃ next, f.read v r = .ok next ∧
          entries fields (key :: seen) next rest = .ok r') := by
  simp only [entries] at success
  split at success
  · cases success
  · rename_i key text
    refine ⟨key, text, ?_⟩
    split at success
    · rename_i unknown
      exact .inl ⟨unknown, success⟩
    · rename_i f found
      split at success
      · cases success
      · rename_i fresh
        obtain ⟨next, read, others⟩ := bind_eq_ok.mp success
        have named : f.name = key := by simpa using List.find?_some found
        exact .inr ⟨f, List.mem_of_find?_eq_some found, named, by simpa using fresh, next, read,
          others⟩

theorem find?_field (distinct : (fields.map (·.name)).Nodup) {f : RecordField ρ}
    (member : f ∈ fields) : fields.find? (·.name == f.name) = some f := by
  induction fields with
  | nil => cases member
  | cons g rest ih =>
    obtain ⟨first, others⟩ := List.nodup_cons.mp distinct
    rcases List.mem_cons.mp member with rfl | later
    · simp
    · have different : g.name ≠ f.name := fun same =>
        first (List.mem_map.mpr ⟨f, later, same.symm⟩)
      rw [List.find?_cons_of_neg (by simpa using different)]
      exact ih others later

private theorem entries_after (governs : Governs fields name shape get) {seen : List String}
    {r r' : ρ} {es : Entries} (taken : name ∈ seen)
    (success : entries fields seen r es = .ok r') : get r' = get r := by
  induction es generalizing seen r with
  | nil =>
    cases success
    rfl
  | cons e rest ih =>
    obtain ⟨key, _, ⟨_, others⟩ | ⟨f, member, named, fresh, next, read, others⟩⟩ :=
      entries_cons_ok success
    · exact ih taken others
    · have different : f.name ≠ name := fun same => fresh (named ▸ same ▸ taken)
      rw [ih (List.mem_cons_of_mem _ taken) others]
      exact governs.keeps f member different _ _ _ read

/-- The first entry under the name decides the field; without one it keeps its value. -/
theorem entries_field (governs : Governs fields name shape get) {seen : List String} {r r' : ρ}
    {es : Entries} (success : entries fields seen r es = .ok r') :
    match es.find? fun e => e.1.asString? == some name with
    | some e => shape e.2 = .ok (get r')
    | none => get r' = get r := by
  -- An entry under the name settles the field; under another it leaves the field as it is.
  induction es generalizing seen r with
  | nil =>
    cases success
    rfl
  | cons e rest ih =>
    obtain ⟨key, text, step⟩ := entries_cons_ok success
    by_cases same : key = name
    · subst same
      have first : (e :: rest).find? (fun e => e.1.asString? == some key) = some e := by
        simp [text]
      rw [first]
      rcases step with ⟨unknown, _⟩ | ⟨f, member, named, _, next, read, others⟩
      · obtain ⟨f, member, named⟩ := governs.present
        have known := List.find?_eq_none.mp unknown f member
        exact absurd named (by simpa using known)
      · rw [entries_after governs List.mem_cons_self others]
        exact governs.sets f member named _ _ _ read
    · have later : (e :: rest).find? (fun e => e.1.asString? == some name) =
          rest.find? (fun e => e.1.asString? == some name) := by
        simp [text, same]
      rw [later]
      rcases step with ⟨_, others⟩ | ⟨f, member, named, _, next, read, others⟩
      · exact ih others
      · have kept := governs.keeps f member (named ▸ same) _ _ _ read
        simpa only [kept] using ih others

theorem record_field (governs : Governs fields name shape get) {title : String} {initial r : ρ}
    {v : Value} (absent : shape .null = .ok (get initial))
    (success : record title fields initial v = .ok r) : shape (v.field name) = .ok (get r) := by
  simp only [record] at success
  simp only [Value.field]
  split at success
  · rename_i es mapping
    simp only [mapping, fieldOf]
    have field := entries_field governs success
    cases found : es.find? fun e => e.1.asString? == some name with
    | some e => simpa [found] using field
    | none =>
      simp only [found] at field
      simpa [field] using absent
  · rename_i null
    cases success
    simpa only [null] using absent
  · cases success

theorem mapM_ok {item : Value → Except Mismatch α} {items : List Value} {xs : List α}
    (success : items.mapM item = .ok xs) : List.Forall₂ (fun v x => item v = .ok x) items xs := by
  induction items generalizing xs with
  | nil =>
    cases success
    exact .nil
  | cons v rest ih =>
    rw [List.mapM_cons] at success
    obtain ⟨x, head, others⟩ := bind_eq_ok.mp success
    obtain ⟨ys, tail, same⟩ := bind_eq_ok.mp others
    cases same
    exact .cons head (ih tail)

theorem optional_of_ne_null {shape : Value → Except Mismatch α} {v : Value} (present : v ≠ .null) :
    optional shape v = (shape v).map some := by
  rw [optional]
  exact present

theorem withDefault_of_ne_null {default : α} {shape : Value → Except Mismatch α} {v : Value}
    (present : v ≠ .null) : withDefault default shape v = shape v := by
  rw [withDefault, optional_of_ne_null present]
  cases shape v <;> rfl

theorem list_ok {item : Value → Except Mismatch α} {v : Value} {xs : List α}
    (success : withDefault [] (list item) v = .ok xs) :
    List.Forall₂ (fun w x => item w = .ok x) v.elements xs := by
  obtain ⟨found, read, rfl⟩ := map_eq_ok.mp success
  by_cases null : v = .null
  · subst null
    cases read
    exact .nil
  · rw [optional_of_ne_null null] at read
    obtain ⟨items, listed, rfl⟩ := map_eq_ok.mp read
    simp only [list] at listed
    simp only [Value.elements, Option.getD_some]
    split at listed
    · rename_i own sequence
      simpa only [sequence] using mapM_ok listed
    · rename_i absent
      cases listed
      simp only [absent]
      exact .nil
    · cases listed

theorem list_anything_ok {v : Value} {vs : List Value}
    (success : withDefault [] (list anything) v = .ok vs) : vs = v.elements := by
  have same : List.Forall₂ (· = ·) v.elements vs := (list_ok success).imp fun _ _ => Except.ok.inj
  exact (List.forall₂_eq_eq_eq ▸ same).symm

end Shape

end Yaml

end Deployment
