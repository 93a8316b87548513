import Deployment.Proofs.Parts
import Deployment.Proofs.UnknownKeys
import Mathlib.Data.List.Nodup

/-!
Which values can be read in a shape. A shape is described by what it accepts, and a record by what
each of its fields has to be.
-/

namespace Deployment.Yaml

open Outcome

/-- A text, tags aside. -/
def Value.IsText (v : Value) : Prop :=
  ∃ s, v.untagged = .string s

/-- A whole number that an unsigned word holds, tags aside. -/
def Value.IsNatural (v : Value) : Prop :=
  ∃ n, v.untagged = .number (.whole n) ∧ 0 ≤ n.val ∧ n.val < 0x10000000000000000

/-- A sequence of values of some kind, tags aside. A null below tags counts as an empty one. -/
def Value.IsList (kind : Value → Prop) (v : Value) : Prop :=
  v.untagged = .null ∨ ∃ items, v.untagged = .sequence items ∧ ∀ w ∈ items, kind w

/-- A null, or a value of some kind. -/
def Value.OrNull (kind : Value → Prop) (v : Value) : Prop :=
  v = .null ∨ kind v

/-- The texts among the keys of entries, tags aside. -/
def textsOf (es : Entries) : List String :=
  es.filterMap (·.1.asString?)

/-- The names, among those given, under which a mapping has entries, tags on keys aside. -/
def namesGiven (names : List String) (es : Entries) : List String :=
  (textsOf es).filter (names.contains ·)

/-- A mapping whose keys are texts, none of the names coming twice, tags aside. A null counts as
one without entries. -/
def Value.IsRecord (names : List String) (v : Value) : Prop :=
  v.untagged = .null ∨
    ∃ es, v.untagged = .mapping es ∧ (∀ e ∈ es, e.1.IsText) ∧ (namesGiven names es).Nodup

/-- The names of fields, each with the kind of value that it has. -/
abbrev Grammar := List (String × (Value → Prop))

/-- A record in which every field is absent or null, or else of its kind. -/
def Grammar.Fits (g : Grammar) (v : Value) : Prop :=
  v.IsRecord (g.map (·.1)) ∧ ∀ f ∈ g, Value.OrNull f.2 (v.field f.1)

theorem textsOf_cons_sublist (e : Value × Value) (rest : Entries) :
    (textsOf rest).Sublist (textsOf (e :: rest)) :=
  (List.sublist_cons_self e rest).filterMap _

theorem Value.isText_iff {v : Value} : v.IsText ↔ v.asString? ≠ none := by
  rw [IsText, asString?]
  cases v.untagged <;> simp

namespace Shape

/-- Whether a shape is read from the values of a kind, and from no others. -/
def Accepts {α : Type} (shape : Value → Except Mismatch α) (kind : Value → Prop) : Prop :=
  ∀ v, (∃ x, shape v = .ok x) ↔ kind v

theorem accepts_text : Accepts text Value.IsText := by
  intro v
  rw [Value.IsText, text]
  cases v.untagged <;> simp

theorem accepts_natural : Accepts natural Value.IsNatural := by
  intro v
  rw [Value.IsNatural, natural]
  cases v.untagged with
  | number n =>
    cases n with
    | whole n =>
      by_cases negative : n.val < 0
      · simp [negative, Int.not_le.mpr negative]
      · simp [negative, Int.not_lt.mp negative, n.upper]
    | float f => simp
  | _ => simp

section Accepts

variable {α : Type} {shape : Value → Except Mismatch α} {kind : Value → Prop}

theorem Accepts.optional (accepts : Accepts shape kind) :
    Accepts (optional shape) (Value.OrNull kind) := by
  intro v
  by_cases null : v = .null
  · subst null
    exact ⟨fun _ => .inl rfl, fun _ => ⟨none, rfl⟩⟩
  · rw [optional_of_ne_null null, Value.OrNull, or_iff_right null, ← accepts v]
    exact exists_map_iff

theorem Accepts.withDefault (accepts : Accepts shape kind) (default : α) :
    Accepts (withDefault default shape) (Value.OrNull kind) := by
  intro v
  rw [← accepts.optional v]
  exact exists_map_iff

theorem exists_mapM_iff {items : List Value} :
    (∃ xs, items.mapM shape = .ok xs) ↔ ∀ w ∈ items, ∃ x, shape w = .ok x := by
  induction items with
  | nil => exact ⟨fun _ => by simp, fun _ => ⟨[], rfl⟩⟩
  | cons w rest ih =>
    rw [List.forall_mem_cons, ← ih, List.mapM_cons, exists_bind_iff]
    simp [exists_bind_iff, pure, Except.pure]

theorem Accepts.list (accepts : Accepts shape kind) : Accepts (list shape) (Value.IsList kind) := by
  intro v
  rw [Value.IsList, Shape.list]
  cases v.untagged with
  | sequence items =>
    have each : (∀ w ∈ items, ∃ x, shape w = .ok x) ↔ ∀ w ∈ items, kind w :=
      forall₂_congr fun w _ => accepts w
    simpa [← each] using exists_mapM_iff
  | _ => simp

end Accepts

section Record

variable {ρ : Type} {fields : List (RecordField ρ)} {g : Grammar}

/-- Whether a field goes by a name, and is read from null and the values of a kind whatever the
record is so far. -/
def FieldAccepts (f : RecordField ρ) (p : String × (Value → Prop)) : Prop :=
  f.name = p.1 ∧ ∀ r, Accepts (f.read · r) (Value.OrNull p.2)

theorem names_of_accepts (accepts : List.Forall₂ FieldAccepts fields g) :
    fields.map (·.name) = g.map (·.1) := by
  induction accepts with
  | nil => rfl
  | cons head tail ih => rw [List.map_cons, List.map_cons, head.1, ih]

section Entries

variable {seen : List String} {r : ρ} {e : Value × Value} {rest : Entries} {name : String}

theorem enter_field (distinct : (fields.map (·.name)).Nodup) {f : RecordField ρ}
    (member : f ∈ fields) (key : e.1.asString? = some f.name) (fresh : f.name ∉ seen) :
    enter fields seen r e = (f.read e.2 r).map (f.name :: seen, ·) := by
  rw [enter, key]
  simp [find?_field distinct member, fresh]

theorem enter_again (distinct : (fields.map (·.name)).Nodup) {f : RecordField ρ}
    (member : f ∈ fields) (key : e.1.asString? = some f.name) (again : f.name ∈ seen) :
    enter fields seen r e = .error (.repeatedField f.name) := by
  rw [enter, key]
  simp [find?_field distinct member, again]

theorem namesGiven_cons {names : List String} (key : e.1.asString? = some name) :
    namesGiven names (e :: rest) =
      if name ∈ names then name :: namesGiven names rest else namesGiven names rest := by
  simp [namesGiven, textsOf, key, List.filter_cons]

theorem namesGiven_sublist {names : List String} (e : Value × Value) (rest : Entries) :
    (namesGiven names rest).Sublist (namesGiven names (e :: rest)) :=
  (textsOf_cons_sublist e rest).filter _

theorem mem_namesGiven {names : List String} {es : Entries} :
    name ∈ namesGiven names es ↔ name ∈ names ∧ ∃ e ∈ es, e.1.asString? = some name := by
  simp [namesGiven, textsOf, and_comm]

/-- What entries must be that come after fields with the names seen. -/
structure Suits (g : Grammar) (seen : List String) (es : Entries) : Prop where
  texts : ∀ e ∈ es, e.1.IsText
  once : (namesGiven (g.map (·.1)) es).Nodup
  fresh : ∀ name ∈ namesGiven (g.map (·.1)) es, name ∉ seen
  kinds : ∀ e ∈ es, ∀ p ∈ g, e.1.asString? = some p.1 → Value.OrNull p.2 e.2

theorem suits_nil : Suits g seen [] := by
  constructor <;> simp [namesGiven, textsOf]

theorem suits_unknown (key : e.1.asString? = some name) (unknown : name ∉ g.map (·.1)) :
    Suits g seen (e :: rest) ↔ Suits g seen rest := by
  have names : namesGiven (g.map (·.1)) (e :: rest) = namesGiven (g.map (·.1)) rest := by
    rw [namesGiven_cons key, if_neg unknown]
  constructor
  · rintro ⟨texts, once, fresh, kinds⟩
    rw [names] at once fresh
    exact ⟨fun f later => texts f (List.mem_cons_of_mem _ later), once, fresh,
      fun f later => kinds f (List.mem_cons_of_mem _ later)⟩
  · rintro ⟨texts, once, fresh, kinds⟩
    refine ⟨List.forall_mem_cons.mpr ⟨Value.isText_iff.mpr (by simp [key]), texts⟩, names ▸ once,
      names ▸ fresh, List.forall_mem_cons.mpr ⟨fun p member same => ?_, kinds⟩⟩
    have mine : name = p.1 := Option.some.inj (key.symm.trans same)
    exact absurd (List.mem_map.mpr ⟨p, member, mine.symm⟩) unknown

theorem suits_known {p : String × (Value → Prop)} (distinct : (g.map (·.1)).Nodup) (member : p ∈ g)
    (key : e.1.asString? = some p.1) : Suits g seen (e :: rest) ↔
      p.1 ∉ seen ∧ Value.OrNull p.2 e.2 ∧ Suits g (p.1 :: seen) rest := by
  have names : namesGiven (g.map (·.1)) (e :: rest) = p.1 :: namesGiven (g.map (·.1)) rest := by
    rw [namesGiven_cons key, if_pos (List.mem_map.mpr ⟨p, member, rfl⟩)]
  constructor
  · rintro ⟨texts, once, fresh, kinds⟩
    rw [names] at once fresh
    obtain ⟨first, others⟩ := List.nodup_cons.mp once
    refine ⟨fresh _ List.mem_cons_self, kinds e List.mem_cons_self p member key,
      fun f later => texts f (List.mem_cons_of_mem _ later), others, fun other later => ?_,
      fun f later => kinds f (List.mem_cons_of_mem _ later)⟩
    intro earlier
    rcases List.mem_cons.mp earlier with rfl | before
    · exact first later
    · exact fresh other (List.mem_cons_of_mem _ later) before
  · rintro ⟨unseen, kind, texts, once, fresh, kinds⟩
    refine ⟨List.forall_mem_cons.mpr ⟨Value.isText_iff.mpr (by simp [key]), texts⟩, ?_, ?_,
      List.forall_mem_cons.mpr ⟨fun q other same => ?_, kinds⟩⟩
    · rw [names]
      exact List.nodup_cons.mpr ⟨fun later => fresh _ later List.mem_cons_self, once⟩
    · rw [names]
      exact List.forall_mem_cons.mpr
        ⟨unseen, fun other later before => fresh other later (List.mem_cons_of_mem _ before)⟩
    · have mine : p.1 = q.1 := Option.some.inj (key.symm.trans same)
      exact List.inj_on_of_nodup_map distinct member other mine ▸ kind

theorem exists_entries_iff (accepts : List.Forall₂ FieldAccepts fields g)
    (distinct : (g.map (·.1)).Nodup) {es : Entries} :
    (∃ r', entries fields seen r es = .ok r') ↔ Suits g seen es := by
  have names := names_of_accepts accepts
  induction es generalizing seen r with
  | nil =>
    constructor
    · intro
      exact suits_nil
    · intro
      exact ⟨r, rfl⟩
  | cons e rest ih =>
    rw [entries_cons]
    cases key : e.1.asString? with
    | none =>
      have refused : enter fields seen r e = .error (.kind e.1.untagged "field identifier") := by
        rw [enter, key]
      constructor
      · rintro ⟨r', success⟩
        rw [refused] at success
        cases success
      · intro suits
        exact absurd key (Value.isText_iff.mp (suits.texts e List.mem_cons_self))
    | some name =>
      -- A name outside the grammar is passed over; one inside must be new and of its kind.
      by_cases known : name ∈ g.map (·.1)
      · obtain ⟨p, inGrammar, rfl⟩ := List.mem_map.mp known
        obtain ⟨f, _, inFields, named, reads⟩ :=
          related_left (related_with_member accepts) p inGrammar
        rw [suits_known distinct inGrammar key, ← reads r e.2, ← named]
        by_cases again : f.name ∈ seen
        · rw [enter_again (names ▸ distinct) inFields (named ▸ key) again]
          simp [again, bind, Except.bind]
        · rw [enter_field (names ▸ distinct) inFields (named ▸ key) again, and_iff_right again,
            exists_bind_iff]
          simp only [map_eq_ok]
          constructor
          · rintro ⟨_, ⟨next, read, rfl⟩, others⟩
            exact ⟨⟨next, read⟩, ih.mp others⟩
          · rintro ⟨⟨next, read⟩, suits⟩
            exact ⟨_, ⟨next, read, rfl⟩, ih.mpr suits⟩
      · have unknown : isField fields e = false := by
          rw [isField, key, names]
          simpa using known
        rw [enter_unknown (by simp [key]) unknown, suits_unknown key known]
        exact ih

end Entries

theorem find?_text_of_mem {names : List String} {es : Entries} {e : Value × Value} {name : String}
    (once : (namesGiven names es).Nodup) (known : name ∈ names) (member : e ∈ es)
    (key : e.1.asString? = some name) : es.find? (·.1.asString? == some name) = some e := by
  induction es with
  | nil => cases member
  | cons f rest ih =>
    by_cases here : f.1.asString? = some name
    · rcases List.mem_cons.mp member with rfl | later
      · simp [here]
      · rw [namesGiven_cons here, if_pos known] at once
        have again : name ∈ namesGiven names rest := mem_namesGiven.mpr ⟨known, e, later, key⟩
        exact absurd again (List.nodup_cons.mp once).1
    · have later : e ∈ rest := (List.mem_cons.mp member).resolve_left fun same => here (same ▸ key)
      rw [List.find?_cons_of_neg (by simpa using here)]
      exact ih (once.sublist (namesGiven_sublist f rest)) later

/-- Under names that do not come twice, an entry is the one that its field is read from. -/
theorem fieldOf_of_mem {names : List String} {es : Entries} {e : Value × Value} {name : String}
    (once : (namesGiven names es).Nodup) (known : name ∈ names) (member : e ∈ es)
    (key : e.1.asString? = some name) : fieldOf es name = e.2 := by
  rw [fieldOf, find?_text_of_mem once known member key]
  rfl

/-- Of fields that do not come twice, each is null or of its kind when all its entries are. -/
theorem kinds_iff_fieldOf {es : Entries} (once : (namesGiven (g.map (·.1)) es).Nodup) :
    (∀ e ∈ es, ∀ p ∈ g, e.1.asString? = some p.1 → Value.OrNull p.2 e.2) ↔
      ∀ p ∈ g, Value.OrNull p.2 (fieldOf es p.1) := by
  constructor
  · intro kinds p member
    rw [fieldOf]
    cases found : es.find? fun e => e.1.asString? == some p.1 with
    | none => exact .inl rfl
    | some e =>
      have key : e.1.asString? = some p.1 := by simpa using List.find?_some found
      exact kinds e (List.mem_of_find?_eq_some found) p member key
  · intro kinds e given p member key
    rw [← fieldOf_of_mem once (List.mem_map.mpr ⟨p, member, rfl⟩) given key]
    exact kinds p member

theorem Accepts.record (accepts : List.Forall₂ FieldAccepts fields g)
    (distinct : (g.map (·.1)).Nodup) (title : String) (initial : ρ) :
    Accepts (record title fields initial) g.Fits := by
  intro v
  rw [Shape.record, Grammar.Fits, Value.IsRecord]
  simp only [Value.field]
  cases v.untagged with
  | mapping es =>
    simp only
    rw [exists_entries_iff accepts distinct]
    constructor
    · rintro ⟨texts, once, _, kinds⟩
      exact ⟨.inr ⟨es, rfl, texts, once⟩, (kinds_iff_fieldOf once).mp kinds⟩
    · rintro ⟨record, kinds⟩
      rcases record with null | ⟨_, same, texts, once⟩
      · cases null
      · cases same
        exact ⟨texts, once, by simp, (kinds_iff_fieldOf once).mpr kinds⟩
  | null => simp [Value.OrNull]
  | _ => simp

end Record

end Shape

end Deployment.Yaml
