import Deployment.Proofs.RecordShape
import Mathlib.Data.List.Pairwise

/-!
Document values whose mappings have their entries in another order, and what is read of them. A
record is read from its entries in any order, since its fields do not get in each other's way.
-/

namespace Deployment.Yaml

open Outcome

mutual
/-- Whether a value is another one with the entries of its mappings in another order, at any depth.
What stands under one of the names that are held is left as it is. -/
inductive Value.Reordered (held : List String) : Value → Value → Prop where
  | same (v : Value) : Value.Reordered held v v
  | sequence {vs ws : List Value} (items : List.Forall₂ (Value.Reordered held) vs ws) :
    Value.Reordered held (.sequence vs) (.sequence ws)
  | mapping {es gs fs : Entries} (order : es.Perm gs) (values : EntriesReordered held gs fs) :
    Value.Reordered held (.mapping es) (.mapping fs)
  | tagged (tag : Tag) {v w : Value} (below : Value.Reordered held v w) :
    Value.Reordered held (.tagged tag v) (.tagged tag w)

/-- Entries with the same keys whose values are reordered. -/
inductive EntriesReordered (held : List String) : Entries → Entries → Prop where
  | nil : EntriesReordered held [] []
  | cons {k v w : Value} {es fs : Entries} (value : Value.Reordered held v w)
    (fixed : ∀ name ∈ held, k.asString? = some name → v = w)
    (others : EntriesReordered held es fs) :
    EntriesReordered held ((k, v) :: es) ((k, w) :: fs)
end

/-- Whether a value stands in the place of another one under a name, where it is the same if the
name is held. -/
def Value.ReorderedAt (held : List String) (name : String) (v w : Value) : Prop :=
  v.Reordered held w ∧ (name ∈ held → v = w)

theorem Value.ReorderedAt.refl {held : List String} {name : String} (v : Value) :
    v.ReorderedAt held name v :=
  ⟨.same v, fun _ => rfl⟩

theorem EntriesReordered.refl {held : List String} (es : Entries) :
    EntriesReordered held es es := by
  induction es with
  | nil => exact .nil
  | cons e rest ih => exact .cons (.same e.2) (fun _ _ _ => rfl) ih

namespace Value.Reordered

variable {held : List String} {v w : Value}

theorem exists_sequence {vs : List Value} (reordered : (Value.sequence vs).Reordered held w) :
    ∃ ws, w = .sequence ws ∧ List.Forall₂ (Value.Reordered held) vs ws := by
  cases reordered with
  | same => exact ⟨vs, rfl, List.forall₂_same.mpr fun v _ => .same v⟩
  | sequence items => exact ⟨_, rfl, items⟩

theorem exists_mapping {es : Entries} (reordered : (Value.mapping es).Reordered held w) :
    ∃ gs fs, w = .mapping fs ∧ es.Perm gs ∧ EntriesReordered held gs fs := by
  cases reordered with
  | same => exact ⟨es, es, rfl, .refl es, .refl es⟩
  | mapping order values => exact ⟨_, _, rfl, order, values⟩

theorem null_iff (reordered : v.Reordered held w) : v = .null ↔ w = .null := by
  cases reordered <;> simp

theorem untagged (reordered : v.Reordered held w) : v.untagged.Reordered held w.untagged := by
  induction v using Value.inward generalizing w with
  | null | bool b | number n | string s =>
    cases reordered
    exact .same _
  | sequence vs ih =>
    obtain ⟨ws, rfl, _⟩ := reordered.exists_sequence
    exact reordered
  | mapping es ih =>
    obtain ⟨gs, fs, rfl, _⟩ := reordered.exists_mapping
    exact reordered
  | tagged tag v ih =>
    cases reordered with
    | same => exact .same _
    | tagged _ below => simpa only [Value.untagged] using ih below

end Value.Reordered

namespace Shape

/-- Whether a value in another order is read in a shape where the value is, with a related
result. -/
def Respects {α : Type} (held : List String) (related : α → α → Prop)
    (shape : Value → Except Mismatch α) : Prop :=
  ∀ v w, v.Reordered held w → Follows related (shape v) (shape w)

section Respects

variable {α : Type} {held : List String} {related : α → α → Prop}
  {shape : Value → Except Mismatch α}

theorem Respects.imp {after : α → α → Prop} (respects : Respects held related shape)
    (weaker : ∀ a b, related a b → after a b) : Respects held after shape := by
  intro v w reordered a success
  obtain ⟨b, again, pair⟩ := respects v w reordered a success
  exact ⟨b, again, weaker a b pair⟩

theorem respects_text : Respects held Eq text := by
  intro v w reordered
  have below := reordered.untagged
  rw [text, text]
  generalize v.untagged = own at below
  generalize w.untagged = other at below
  cases below with
  | same => exact follows_refl _
  | _ => exact follows_error

theorem respects_natural : Respects held Eq natural := by
  intro v w reordered
  have below := reordered.untagged
  rw [natural, natural]
  generalize v.untagged = own at below
  generalize w.untagged = other at below
  cases below with
  | same => exact follows_refl _
  | _ => exact follows_error

theorem respects_anything : Respects held (Value.Reordered held) anything :=
  fun _ _ reordered => follows_ok reordered

theorem Respects.optional (respects : Respects held related shape) :
    Respects held (Option.Rel related) (optional shape) := by
  intro v w reordered
  by_cases null : v = .null
  · rw [null, reordered.null_iff.mp null]
    exact follows_ok .none
  · rw [optional_of_ne_null null, optional_of_ne_null (mt reordered.null_iff.mpr null)]
    exact (respects v w reordered).map fun _ _ pair => .some pair

theorem Respects.withDefault (respects : Respects held related shape) {default : α}
    (start : related default default) : Respects held related (withDefault default shape) := by
  intro v w reordered
  by_cases null : v = .null
  · rw [null, reordered.null_iff.mp null]
    exact follows_ok start
  · rw [withDefault_of_ne_null null, withDefault_of_ne_null (mt reordered.null_iff.mpr null)]
    exact respects v w reordered

theorem follows_mapM (respects : Respects held related shape) {vs ws : List Value}
    (items : List.Forall₂ (Value.Reordered held) vs ws) :
    Follows (List.Forall₂ related) (vs.mapM shape) (ws.mapM shape) := by
  induction items with
  | nil => exact follows_ok .nil
  | cons head tail ih =>
    rw [List.mapM_cons, List.mapM_cons]
    refine (respects _ _ head).bind fun x y first => ih.bind fun xs ys others => ?_
    exact follows_ok (.cons first others)

theorem Respects.list (respects : Respects held related shape) :
    Respects held (List.Forall₂ related) (list shape) := by
  intro v w reordered
  have below := reordered.untagged
  rw [Shape.list, Shape.list]
  cases own : v.untagged with
  | sequence vs =>
    rw [own] at below
    obtain ⟨ws, same, items⟩ := below.exists_sequence
    rw [same]
    exact follows_mapM respects items
  | null =>
    rw [own] at below
    rw [below.null_iff.mp rfl]
    exact follows_ok .nil
  | _ => exact follows_error

theorem Respects.optional_eq (respects : Respects held Eq shape) :
    Respects held Eq (Shape.optional shape) := by
  refine respects.optional.imp ?_
  rintro _ _ (⟨rfl⟩ | _) <;> rfl

theorem Respects.list_eq (respects : Respects held Eq shape) :
    Respects held Eq (Shape.list shape) := by
  refine respects.list.imp ?_
  rw [List.forall₂_eq_eq_eq]
  exact fun _ _ same => same

end Respects

section Record

variable {ρ α β : Type} {fields : List (RecordField ρ)} {seen : List String} {r r' : ρ}
  {es gs : Entries}

/-- Whether it does not matter which of two fields is read first. -/
def Interchange (f g : RecordField ρ) : Prop :=
  ∀ v w r r', (f.read v r >>= g.read w) = .ok r' ↔ (g.read w r >>= f.read v) = .ok r'

instance : Std.Symm (Interchange (ρ := ρ)) :=
  ⟨fun _ _ either v w r r' => (either w v r r').symm⟩

theorem interchange_set {name name' : String} (shape : Value → Except Mismatch α)
    (shape' : Value → Except Mismatch β) {set : α → ρ → ρ} {set' : β → ρ → ρ}
    (apart : ∀ a b r, set' b (set a r) = set a (set' b r)) :
    Interchange ⟨name, fun v r => (set · r) <$> shape v⟩
      ⟨name', fun v r => (set' · r) <$> shape' v⟩ := by
  intro v w r r'
  have mapped {γ : Type} (f : γ → ρ) (x : Except Mismatch γ) : f <$> x = x.map f := rfl
  simp only [mapped, bind_eq_ok, map_eq_ok]
  constructor
  · rintro ⟨_, ⟨a, read, rfl⟩, b, other, rfl⟩
    exact ⟨_, ⟨b, other, rfl⟩, a, read, (apart a b r).symm⟩
  · rintro ⟨_, ⟨b, other, rfl⟩, a, read, rfl⟩
    exact ⟨_, ⟨a, read, rfl⟩, b, other, apart a b r⟩

theorem interchange_written {name name' : String} (shape : Value → Except Mismatch α)
    {set : α → ρ → ρ} {set' : Value → ρ → ρ}
    (apart : ∀ a b r, set' b (set a r) = set a (set' b r)) :
    Interchange ⟨name, fun v r => (set · r) <$> shape v⟩ ⟨name', fun v r => pure (set' v r)⟩ :=
  interchange_set shape anything apart

theorem interchange_both_written {name name' : String} {set set' : Value → ρ → ρ}
    (apart : ∀ a b r, set' b (set a r) = set a (set' b r)) :
    Interchange ⟨name, fun v r => pure (set v r)⟩ ⟨name', fun v r => pure (set' v r)⟩ :=
  interchange_set anything anything apart

theorem entries_seen {seen' : List String} (same : ∀ name, name ∈ seen ↔ name ∈ seen') :
    entries fields seen r es = entries fields seen' r es := by
  induction es generalizing seen seen' r with
  | nil => rfl
  | cons e rest ih =>
    have later (name other : String) : other ∈ name :: seen ↔ other ∈ name :: seen' := by
      rw [List.mem_cons, List.mem_cons, same]
    have contains (name : String) : seen.contains name = seen'.contains name := by
      rw [Bool.eq_iff_iff, List.contains_iff_mem, List.contains_iff_mem, same]
    simp only [entries, contains, ih same, ih (later _)]

section Cons

variable {e : Value × Value} {rest : Entries} {name : String}

theorem entries_ignored (key : e.1.asString? = some name)
    (unknown : fields.find? (·.name == name) = none) :
    entries fields seen r (e :: rest) = entries fields seen r rest := by
  rw [entries, key]
  simp only [unknown]

theorem entries_read (distinct : (fields.map (·.name)).Nodup) {f : RecordField ρ} {next : ρ}
    (member : f ∈ fields) (key : e.1.asString? = some f.name) (fresh : f.name ∉ seen)
    (read : f.read e.2 r = .ok next) :
    entries fields seen r (e :: rest) = entries fields (f.name :: seen) next rest := by
  rw [entries_cons, enter_field distinct member key fresh, read]
  rfl

end Cons

/-- Two entries that stand next to each other are read in either order. -/
theorem entries_swap (independent : fields.Pairwise Interchange)
    (distinct : (fields.map (·.name)).Nodup) {e f : Value × Value} {rest : Entries}
    (success : entries fields seen r (e :: f :: rest) = .ok r') :
    entries fields seen r (f :: e :: rest) = .ok r' := by
  obtain ⟨_, first, ⟨ignored, success⟩ | ⟨g, known, rfl, fresh, next, read, success⟩⟩ :=
    entries_cons_ok success
  · obtain ⟨_, second, ⟨passed, success⟩ | ⟨h, listed, rfl, new, last, done, success⟩⟩ :=
      entries_cons_ok success
    · rwa [entries_ignored second passed, entries_ignored first ignored]
    · rwa [entries_read distinct listed second new done, entries_ignored first ignored]
  · obtain ⟨_, second, ⟨passed, success⟩ | ⟨h, listed, rfl, new, last, done, success⟩⟩ :=
      entries_cons_ok success
    · rwa [entries_ignored second passed, entries_read distinct known first fresh read]
    · obtain ⟨other, unseen⟩ := not_or.mp (List.mem_cons.not.mp new)
      have apart : g ≠ h := fun same => other (congrArg RecordField.name same).symm
      have either := independent.forall known listed apart
      obtain ⟨between, before, after⟩ :=
        bind_eq_ok.mp ((either _ _ _ _).mp (bind_eq_ok.mpr ⟨next, read, done⟩))
      have still : g.name ∉ h.name :: seen := by
        simpa [fresh] using Ne.symm other
      rw [entries_read distinct listed second unseen before,
        entries_read distinct known first still after]
      rw [← success]
      exact entries_seen fun name => by simp only [List.mem_cons]; tauto

theorem entries_perm (independent : fields.Pairwise Interchange)
    (distinct : (fields.map (·.name)).Nodup) (order : es.Perm gs)
    (success : entries fields seen r es = .ok r') : entries fields seen r gs = .ok r' := by
  induction order generalizing seen r with
  | nil => exact success
  | cons e order ih =>
    rw [entries_cons] at success ⊢
    obtain ⟨next, entered, later⟩ := bind_eq_ok.mp success
    exact bind_eq_ok.mpr ⟨next, entered, ih later⟩
  | swap e f rest => exact entries_swap independent distinct success
  | trans _ _ ih ih' => exact ih' (ih success)

/-- Whether a field is read of a value in another order where it is read of the value, and keeps
records related. -/
def FieldRespects (held : List String) (related : ρ → ρ → Prop) (f : RecordField ρ) : Prop :=
  ∀ v w, v.ReorderedAt held f.name w → ∀ r s, related r s →
    Follows related (f.read v r) (f.read w s)

section Related

variable {held : List String} {related : ρ → ρ → Prop} {name : String}

theorem fieldRespects_set_of {before : α → α → Prop} {shape : Value → Except Mismatch α}
    {set : α → ρ → ρ} (respects : Respects held before shape)
    (keeps : ∀ a b r s, before a b → related r s → related (set a r) (set b s)) :
    FieldRespects held related ⟨name, fun v r => shape v >>= fun a => pure (set a r)⟩ := by
  intro v w reordered r s start
  exact (respects v w reordered.1).bind fun a b pair => follows_ok (keeps a b r s pair start)

theorem fieldRespects_set {shape : Value → Except Mismatch α} {set : α → ρ → ρ}
    (respects : Respects held Eq shape)
    (keeps : ∀ a r s, related r s → related (set a r) (set a s)) :
    FieldRespects held related ⟨name, fun v r => shape v >>= fun a => pure (set a r)⟩ :=
  fieldRespects_set_of respects fun a _ r s same start => same ▸ keeps a r s start

theorem fieldRespects_written {set : Value → ρ → ρ}
    (keeps : ∀ v w r s, v.ReorderedAt held name w → related r s → related (set v r) (set w s)) :
    FieldRespects held related ⟨name, fun v r => pure (set v r)⟩ :=
  fun v w reordered r s start => follows_ok (keeps v w r s reordered start)

theorem enter_follows (respects : ∀ f ∈ fields, FieldRespects held related f) {k v w : Value}
    {s : ρ} (reordered : v.Reordered held w)
    (fixed : ∀ name ∈ held, k.asString? = some name → v = w) (start : related r s) :
    Follows (fun a b => a.1 = b.1 ∧ related a.2 b.2) (enter fields seen r (k, v))
      (enter fields seen s (k, w)) := by
  rw [enter, enter]
  cases key : k.asString? with
  | none => exact follows_error
  | some name =>
    simp only
    cases found : fields.find? (·.name == name) with
    | none => exact follows_ok ⟨rfl, start⟩
    | some f =>
      have named : f.name = name := by simpa using List.find?_some found
      have below : v.ReorderedAt held f.name w :=
        ⟨reordered, fun inside => fixed f.name inside (named ▸ key)⟩
      simp only
      split
      · exact follows_error
      · exact (respects f (List.mem_of_find?_eq_some found) v w below r s start).map
          fun _ _ pair => ⟨rfl, pair⟩

theorem entries_follow (respects : ∀ f ∈ fields, FieldRespects held related f) {fs : Entries}
    (values : EntriesReordered held gs fs) {s : ρ} (start : related r s) :
    Follows related (entries fields seen r gs) (entries fields seen s fs) := by
  induction gs generalizing fs seen r s with
  | nil =>
    cases values
    exact follows_ok start
  | cons e rest ih =>
    cases values with
    | cons value fixed others =>
      rw [entries_cons, entries_cons]
      refine (enter_follows respects value fixed start).bind ?_
      rintro ⟨_, r'⟩ ⟨names, s'⟩ ⟨rfl, next⟩
      exact ih others next

theorem record_respects (independent : fields.Pairwise Interchange)
    (distinct : (fields.map (·.name)).Nodup)
    (respects : ∀ f ∈ fields, FieldRespects held related f) {initial : ρ}
    (start : related initial initial) (title : String) :
    Respects held related (record title fields initial) := by
  intro v w reordered
  have below := reordered.untagged
  rw [record, record]
  cases own : v.untagged with
  | mapping es =>
    rw [own] at below
    obtain ⟨gs, fs, same, order, values⟩ := below.exists_mapping
    rw [same]
    intro r success
    exact entries_follow respects values start r (entries_perm independent distinct order success)
  | null =>
    rw [own] at below
    rw [below.null_iff.mp rfl]
    exact follows_ok start
  | _ => exact follows_error

end Related

end Record

end Shape

end Deployment.Yaml
