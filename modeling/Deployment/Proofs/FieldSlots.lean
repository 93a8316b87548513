import Deployment.Proofs.RecordShape

namespace Deployment.Yaml

open Outcome

/-- A place for a value in a mapping: its key, the entries around it, and the tags around the
mapping, outermost first. -/
structure Slot where
  tags : List Tag := []
  before : Entries
  key : Value
  after : Entries

namespace Slot

/-- The tagged mapping with a value in the place. -/
def fill (s : Slot) (v : Value) : Value :=
  s.tags.foldr Value.tagged (.mapping (s.before ++ (s.key, v) :: s.after))

@[simp] theorem untagged_fill (s : Slot) (v : Value) :
    (s.fill v).untagged = .mapping (s.before ++ (s.key, v) :: s.after) := by
  rw [fill]
  induction s.tags with
  | nil => rfl
  | cons tag rest ih => exact ih

theorem fill_ne_null (s : Slot) (v : Value) : s.fill v ≠ .null := by
  intro null
  have mapping := s.untagged_fill v
  rw [null] at mapping
  cases mapping

/-- The place of an entry of a mapping. -/
def ofEntry (es : Entries) (i : Nat) (e : Value × Value) : Slot where
  before := es.take i
  key := e.1
  after := es.drop (i + 1)

theorem fill_ofEntry {v : Value} {i : Nat} {e : Value × Value} (found : v.entries[i]? = some e) :
    (ofEntry v.entries i e).fill e.2 = v := by
  cases v with
  | mapping es =>
    obtain ⟨bound, here⟩ := List.getElem?_eq_some_iff.mp (show es[i]? = some e from found)
    have joined : es.take i ++ e :: es.drop (i + 1) = es := by
      rw [← here, ← List.drop_eq_getElem_cons bound, List.take_append_drop]
    exact congrArg Value.mapping joined
  | _ => cases found

end Slot

namespace Shape

/-- A field that is put into a record by `set`, whatever the record is so far. The other fields do
not depend on it, and what is set later takes the place of what was set before. -/
structure SetBy {ρ α : Type} (fields : List (RecordField ρ)) (name : String)
    (shape : Value → Except Mismatch α) (set : α → ρ → ρ) : Prop where
  present : ∃ f ∈ fields, f.name = name ∧ ∀ v r, f.read v r = (set · r) <$> shape v
  apart : ∀ f ∈ fields, f.name ≠ name → ∀ v a r, f.read v (set a r) = set a <$> f.read v r
  again : ∀ a b r, set a (set b r) = set a r

section SetBy

variable {ρ α : Type} {fields : List (RecordField ρ)} {name : String}
  {shape : Value → Except Mismatch α} {set : α → ρ → ρ} {seen : List String} {r r' : ρ}

theorem enter_set (setBy : SetBy fields name shape set) (taken : name ∈ seen) (a : α)
    (e : Value × Value) :
    enter fields seen (set a r) e =
      (enter fields seen r e).map fun next => (next.1, set a next.2) := by
  unfold enter
  split
  · rfl
  · rename_i key text
    split
    · rfl
    · rename_i f found
      split
      · rfl
      · rename_i fresh
        have named : f.name = key := by simpa using List.find?_some found
        have different : f.name ≠ name := by
          rintro rfl
          exact fresh (by simpa [← named] using taken)
        rw [setBy.apart f (List.mem_of_find?_eq_some found) different]
        cases f.read e.2 r <;> rfl

theorem subset_of_enter {next : List String × ρ} {e : Value × Value}
    (success : enter fields seen r e = .ok next) : seen ⊆ next.1 := by
  unfold enter at success
  split at success
  · cases success
  · split at success
    · cases success
      exact List.Subset.refl seen
    · split at success
      · cases success
      · obtain ⟨_, _, rfl⟩ := map_eq_ok.mp success
        exact List.subset_cons_self _ seen

theorem entries_set (setBy : SetBy fields name shape set) (taken : name ∈ seen) (a : α)
    (es : Entries) : entries fields seen (set a r) es = (entries fields seen r es).map (set a) := by
  induction es generalizing seen r with
  | nil => rfl
  | cons e rest ih =>
    rw [entries_cons, entries_cons, enter_set setBy taken]
    cases step : enter fields seen r e with
    | error mismatch => rfl
    | ok next => exact ih (subset_of_enter step taken)

/-- Entries that are read with one value of a field are read with any other value of it that has
the shape of the field. -/
theorem entries_fill (setBy : SetBy fields name shape set) (distinct : (fields.map (·.name)).Nodup)
    {key v w : Value} {before after : Entries} (named : key.asString? = some name)
    (success : entries fields seen r (before ++ (key, w) :: after) = .ok r') :
    entries fields seen r (before ++ (key, v) :: after) = (shape v).map (set · r') := by
  -- Up to the field the entries are the same; after it they do not notice the difference.
  induction before generalizing seen r with
  | nil =>
    obtain ⟨f, member, rfl, reads⟩ := setBy.present
    rw [List.nil_append, entries_cons] at success
    have fresh : f.name ∉ seen := by
      intro again
      rw [enter_again distinct member named again] at success
      cases success
    rw [enter_field distinct member named fresh, reads] at success
    obtain ⟨next, first, rest⟩ := bind_eq_ok.mp success
    obtain ⟨_, entered, rfl⟩ := map_eq_ok.mp first
    obtain ⟨a, _, rfl⟩ := map_eq_ok.mp entered
    have later (b : α) : entries fields (f.name :: seen) (set b r) after =
        (entries fields (f.name :: seen) r after).map (set b) :=
      entries_set setBy List.mem_cons_self b after
    rw [later a] at rest
    obtain ⟨others, read, rfl⟩ := map_eq_ok.mp rest
    rw [List.nil_append, entries_cons, enter_field distinct member named fresh, reads]
    cases shape v with
    | error mismatch => rfl
    | ok b =>
      have replaced := later b
      rw [read] at replaced
      exact replaced.trans (congrArg Except.ok (setBy.again b a others).symm)
  | cons e rest ih =>
    rw [List.cons_append, entries_cons] at success ⊢
    obtain ⟨next, first, others⟩ := bind_eq_ok.mp success
    rw [first]
    exact ih others

/-- A record that is read with one value of a field is read with any other one that has the shape
of the field, and differs in nothing else. -/
theorem record_fill (setBy : SetBy fields name shape set) (distinct : (fields.map (·.name)).Nodup)
    {title : String} {initial : ρ} {s : Slot} {w : Value} (named : s.key.asString? = some name)
    (success : record title fields initial (s.fill w) = .ok r') (v : Value) :
    record title fields initial (s.fill v) = (shape v).map (set · r') := by
  unfold record at success ⊢
  simp only [Slot.untagged_fill] at success ⊢
  exact entries_fill setBy distinct named success

end SetBy

end Shape

end Deployment.Yaml
