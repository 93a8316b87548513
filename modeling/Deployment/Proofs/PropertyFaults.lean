import Deployment.Proofs.Names
import Deployment.Proofs.Numerals
import Deployment.Proofs.PropertyWalk

/-!
Where a document value is refused as a property tree, when there may be many faults in it. A value
is gone through in source order and depth first, at each entry of a mapping its key before its
value, and the fault that is met first decides. It is reported with the names and indices that lead
to it from the root.
-/

namespace Deployment

open Yaml (Value Entries)

/-- Whether a position comes no later than another one. The first turn that differs decides, and
what is met on the way to a position comes before it. -/
def NoLater : List Nat → List Nat → Prop
  | [], _ => True
  | _ :: _, [] => False
  | i :: p, j :: q => i < j ∨ i = j ∧ NoLater p q

@[simp] theorem noLater_nil (q : List Nat) : NoLater [] q := by
  cases q <;> exact trivial

@[simp] theorem noLater_cons_iff {i j : Nat} {p q : List Nat} :
    NoLater (i :: p) (j :: q) ↔ i < j ∨ i = j ∧ NoLater p q :=
  Iff.rfl

theorem NoLater.antisymm {p q : List Nat} (before : NoLater p q) (after : NoLater q p) :
    p = q := by
  induction p generalizing q with
  | nil =>
    cases q with
    | nil => rfl
    | cons j q => exact absurd after id
  | cons i p ih =>
    cases q with
    | nil => exact absurd before id
    | cons j q =>
      rcases before with less | ⟨rfl, before⟩
      · rcases after with more | ⟨same, _⟩ <;> omega
      · rcases after with more | ⟨_, after⟩
        · omega
        · rw [ih before after]

section Settles

variable {ε α β : Type} {faults inner : List Nat → ε → Prop} {x : Except ε α}
  {part : Nat → List Nat → ε → Prop}

/-- Whether a computation fails with the fault that has the first of all positions, and succeeds
only where there is no fault. -/
def Settles (faults : List Nat → ε → Prop) : Except ε α → Prop
  | .error e => ∃ p, faults p e ∧ ∀ q f, faults q f → NoLater p q
  | .ok _ => ∀ p e, ¬ faults p e

/-- The faults of parts, at positions that begin with the number of the part. -/
def Placed (part : Nat → List Nat → ε → Prop) (p : List Nat) (e : ε) : Prop :=
  ∃ i q, p = i :: q ∧ part i q e

theorem settles_map {f : α → β} : Settles faults (x.map f) ↔ Settles faults x := by
  cases x <;> exact Iff.rfl

theorem settles_bind_pure {f : α → β} :
    Settles faults (x >>= fun a => pure (f a)) ↔ Settles faults x := by
  cases x <;> exact Iff.rfl

theorem Settles.congr (settles : Settles inner x) (same : ∀ p e, faults p e ↔ inner p e) :
    Settles faults x := by
  have equal : faults = inner := by
    funext p e
    exact propext (same p e)
  rwa [equal]

theorem Settles.turn {n : Nat} (settles : Settles inner x)
    (same : ∀ p e, faults p e ↔ ∃ q, p = n :: q ∧ inner q e) : Settles faults x := by
  cases x with
  | error e =>
    obtain ⟨p, fault, least⟩ := settles
    refine ⟨n :: p, (same _ _).mpr ⟨p, rfl, fault⟩, ?_⟩
    intro q f other
    obtain ⟨r, rfl, within⟩ := (same _ _).mp other
    exact noLater_cons_iff.mpr (.inr ⟨rfl, least r f within⟩)
  | ok a =>
    intro p e fault
    obtain ⟨q, -, within⟩ := (same _ _).mp fault
    exact settles q e within

theorem settles_ok {a : α} (faultless : ∀ i q e, ¬ part i q e) :
    Settles (Placed part) (.ok a : Except ε α) := by
  intro p e fault
  obtain ⟨i, q, rfl, within⟩ := fault
  exact faultless i q e within

/-- A fault of the first part comes before those of all others. -/
theorem settles_error {p : List Nat} {e : ε} (fault : part 0 p e)
    (least : ∀ q f, part 0 q f → NoLater p q) : Settles (Placed part) (.error e : Except ε α) := by
  refine ⟨0 :: p, ⟨0, p, rfl, fault⟩, ?_⟩
  intro q f other
  obtain ⟨_ | i, q, rfl, within⟩ := other
  · exact noLater_cons_iff.mpr (.inr ⟨rfl, least q f within⟩)
  · exact noLater_cons_iff.mpr (.inl (Nat.succ_pos i))

theorem Settles.cons {f : α → Except ε β} (head : Settles (part 0) x)
    (tail : ∀ a, Settles (Placed fun i => part (i + 1)) (f a)) :
    Settles (Placed part) (x >>= f) := by
  cases x with
  | error e =>
    obtain ⟨p, fault, least⟩ := head
    exact settles_error fault least
  | ok a =>
    have rest := tail a
    change Settles (Placed part) (f a)
    cases result : f a with
    | error e =>
      rw [result] at rest
      obtain ⟨p, ⟨i, q, rfl, fault⟩, least⟩ := rest
      refine ⟨(i + 1) :: q, ⟨i + 1, q, rfl, fault⟩, ?_⟩
      intro r g other
      obtain ⟨_ | j, r, rfl, within⟩ := other
      · exact absurd within (head r g)
      · have later := least (j :: r) g ⟨j, r, rfl, within⟩
        rw [noLater_cons_iff] at later ⊢
        rcases later with less | ⟨same, after⟩
        · exact .inl (Nat.succ_lt_succ less)
        · exact .inr ⟨congrArg (· + 1) same, after⟩
    | ok b =>
      rw [result] at rest
      intro p e fault
      obtain ⟨_ | i, q, rfl, within⟩ := fault
      · exact head q e within
      · exact rest _ e ⟨i, q, rfl, within⟩

end Settles

namespace Property

/-- The faults of a value at a location, with their positions. A position takes one turn at each
level: the number of an item, or the number of an entry and then what of it is looked at, which is
the kind of its key, whether its name is new, and its value, in this order. -/
inductive Fault : Location → Value → List Nat → PropertyError → Prop where
  | tagged {l : Location} {tag : Yaml.Tag} {v : Value} :
    Fault l (.tagged tag v) [] (.unsupportedValue l (Value.tagged tag v).kindName)
  | item {l : Location} {items : List Value} {i : Nat} {v : Value} {p : List Nat}
      {e : PropertyError} (found : items[i]? = some v) (inner : Fault (l ++ [.index i]) v p e) :
    Fault l (.sequence items) (i :: p) e
  | key {l : Location} {es : Entries} {i : Nat} {k v : Value} (found : es[i]? = some (k, v))
      (nameless : keyText k = none) : Fault l (.mapping es) [i, 0] (.unsupportedKey l k.kindName)
  | collision {l : Location} {es : Entries} {i : Nat} {k v : Value} {name : String}
      (found : es[i]? = some (k, v)) (named : keyText k = some name)
      (earlier : name ∈ namesOf (es.take i)) : Fault l (.mapping es) [i, 1] (.collision l name)
  | entry {l : Location} {es : Entries} {i : Nat} {k v : Value} {name : String} {p : List Nat}
      {e : PropertyError} (found : es[i]? = some (k, v)) (named : keyText k = some name)
      (inner : Fault (l ++ [.key name]) v p e) : Fault l (.mapping es) (i :: 2 :: p) e

/-- The faults of one entry of a mapping, after names that were given before. -/
inductive EntryFault (l : Location) (taken : List String) :
    Value × Value → List Nat → PropertyError → Prop where
  | key {k v : Value} (nameless : keyText k = none) :
    EntryFault l taken (k, v) [0] (.unsupportedKey l k.kindName)
  | collision {k v : Value} {name : String} (named : keyText k = some name)
      (earlier : name ∈ taken) : EntryFault l taken (k, v) [1] (.collision l name)
  | value {k v : Value} {name : String} {p : List Nat} {e : PropertyError}
      (named : keyText k = some name) (inner : Fault (l ++ [.key name]) v p e) :
    EntryFault l taken (k, v) (2 :: p) e

variable {l : Location} {p : List Nat} {e : PropertyError}

theorem fault_sequence_iff {items : List Value} :
    Fault l (.sequence items) p e ↔
      Placed (fun i q e => ∃ v, items[i]? = some v ∧ Fault (l ++ [.index i]) v q e) p e := by
  constructor
  · intro fault
    cases fault with
    | item found inner => exact ⟨_, _, rfl, _, found, inner⟩
  · intro placed
    obtain ⟨i, q, rfl, v, found, inner⟩ := placed
    exact .item found inner

theorem fault_mapping_iff {es : Entries} :
    Fault l (.mapping es) p e ↔
      Placed (fun i q e => ∃ f, es[i]? = some f ∧ EntryFault l (namesOf (es.take i)) f q e) p e := by
  constructor
  · intro fault
    cases fault with
    | key found nameless => exact ⟨_, _, rfl, _, found, .key nameless⟩
    | collision found named earlier => exact ⟨_, _, rfl, _, found, .collision named earlier⟩
    | entry found named inner => exact ⟨_, _, rfl, _, found, .value named inner⟩
  · intro placed
    obtain ⟨i, q, rfl, f, found, fault⟩ := placed
    cases fault with
    | key nameless => exact .key found nameless
    | collision named earlier => exact .collision found named earlier
    | value named inner => exact .entry found named inner

private theorem ofItems_settles {items : List Value} {k : Nat}
    (each : ∀ v ∈ items, ∀ l, Settles (Fault l v) (ofValue l v)) :
    Settles (Placed fun i q e => ∃ v, items[i]? = some v ∧ Fault (l ++ [.index (k + i)]) v q e)
      (ofItems l k items) := by
  -- The recursion moves the first index on, so the indices are counted from any `k`.
  induction items generalizing k with
  | nil =>
    apply settles_ok
    intro i q e fault
    obtain ⟨v, found, -⟩ := fault
    cases found
  | cons v rest ih =>
    have first : Settles (Fault (l ++ [.index k]) v) (ofValue (l ++ [.index k]) v) :=
      each v List.mem_cons_self _
    have later := ih (k := k + 1) fun w member => each w (List.mem_cons_of_mem _ member)
    have shifted (i : Nat) : k + 1 + i = k + (i + 1) := by omega
    rw [ofItems]
    apply Settles.cons
    · simpa using first
    · intro p
      apply settles_bind_pure.mpr
      simpa [shifted] using later

section Entry

variable {taken : List String} {k v : Value} {name : String}

private theorem key_first (nameless : keyText k = none) {q : List Nat} {f : PropertyError}
    (fault : EntryFault l taken (k, v) q f) : NoLater [0] q := by
  cases fault with
  | key _ => exact .inr ⟨rfl, noLater_nil _⟩
  | collision named _ => simp [nameless] at named
  | value named _ => simp [nameless] at named

private theorem collision_first (named : keyText k = some name) {q : List Nat} {f : PropertyError}
    (fault : EntryFault l taken (k, v) q f) : NoLater [1] q := by
  cases fault with
  | key nameless => simp [nameless] at named
  | collision _ _ => exact .inr ⟨rfl, noLater_nil _⟩
  | value _ _ => exact noLater_cons_iff.mpr (.inl (by decide))

private theorem fault_in_value_iff (named : keyText k = some name) (free : name ∉ taken)
    {q : List Nat} {f : PropertyError} :
    EntryFault l taken (k, v) q f ↔ ∃ r, q = 2 :: r ∧ Fault (l ++ [.key name]) v r f := by
  constructor
  · intro fault
    cases fault with
    | key nameless => simp [nameless] at named
    | collision other earlier =>
      cases Option.some.inj (named.symm.trans other)
      exact absurd earlier free
    | value other inner =>
      cases Option.some.inj (named.symm.trans other)
      exact ⟨_, rfl, inner⟩
  · intro within
    obtain ⟨r, rfl, inner⟩ := within
    exact .value named inner

end Entry

private theorem ofEntries_settles {es : Entries} {taken : List String}
    (each : ∀ f ∈ es, ∀ l, Settles (Fault l f.2) (ofValue l f.2)) :
    Settles (Placed fun i q e => ∃ f, es[i]? = some f ∧
      EntryFault l (taken ++ namesOf (es.take i)) f q e) (ofEntries l taken es) := by
  -- The recursion moves names on to those that are taken, so there may be any at the beginning.
  induction es generalizing taken with
  | nil =>
    apply settles_ok
    intro i q e fault
    obtain ⟨v, found, -⟩ := fault
    cases found
  | cons f rest ih =>
    obtain ⟨k, v⟩ := f
    rw [ofEntries]
    cases text : keyText k with
    | none =>
      apply settles_error (p := [0])
      · exact ⟨_, rfl, .key text⟩
      · intro q f other
        obtain ⟨_, found, fault⟩ := other
        cases found
        exact key_first text fault
    | some name =>
      dsimp only
      by_cases used : name ∈ taken
      · rw [if_pos (by simpa using used)]
        apply settles_error (p := [1])
        · exact ⟨_, rfl, .collision text (List.mem_append_left _ used)⟩
        · intro q f other
          obtain ⟨_, found, fault⟩ := other
          cases found
          exact collision_first text fault
      · rw [if_neg (by simpa using used)]
        have value : Settles (EntryFault l taken (k, v)) (ofValue (l ++ [.key name]) v) :=
          (each _ List.mem_cons_self _).turn fun p e => fault_in_value_iff text used
        have later := @ih (taken ++ [name]) fun g member => each g (List.mem_cons_of_mem _ member)
        have names (i : Nat) : taken ++ namesOf (((k, v) :: rest).take (i + 1)) =
            taken ++ [name] ++ namesOf (rest.take i) := by
          simp [namesOf, text]
        apply Settles.cons
        · simpa [namesOf] using value
        · intro p
          apply settles_bind_pure.mpr
          simpa only [names, List.getElem?_cons_succ] using later

/-- Going through a value settles which of its faults is reported. -/
theorem ofValue_settles (l : Location) (v : Value) : Settles (Fault l v) (ofValue l v) := by
  induction v using Value.inward generalizing l with
  | null | bool _ | number _ | string _ =>
    intro p e fault
    cases fault
  | sequence items ih =>
    have placed := ofItems_settles (l := l) (k := 0) ih
    simp only [Nat.zero_add] at placed
    exact settles_map.mpr (placed.congr fun p e => fault_sequence_iff)
  | mapping es ih =>
    have placed := @ofEntries_settles l es [] ih
    exact settles_map.mpr (placed.congr fun p e => fault_mapping_iff)
  | tagged tag v ih =>
    refine ⟨[], .tagged, ?_⟩
    intro q f other
    exact noLater_nil q

theorem Fault.unique {v : Value} {f : PropertyError} (fault : Fault l v p e)
    (other : Fault l v p f) : e = f := by
  induction fault with
  | tagged =>
    cases other with
    | tagged => rfl
  | item found inner ih =>
    cases other with
    | item again within =>
      cases Option.some.inj (found.symm.trans again)
      exact ih within
  | key found nameless =>
    cases other with
    | key again _ =>
      cases Option.some.inj (found.symm.trans again)
      rfl
  | collision found named _ =>
    cases other with
    | collision again given _ =>
      cases Option.some.inj (found.symm.trans again)
      cases Option.some.inj (named.symm.trans given)
      rfl
  | entry found named inner ih =>
    cases other with
    | entry again given within =>
      cases Option.some.inj (found.symm.trans again)
      cases Option.some.inj (named.symm.trans given)
      exact ih within

/-- The first of the faults of a value that is a property block. -/
def FirstFault (v : Value) (e : PropertyError) : Prop :=
  ∃ p, Fault [] v p e ∧ ∀ q f, Fault [] v q f → NoLater p q

theorem ofValue_eq_error_iff {v : Value} : ofValue [] v = .error e ↔ FirstFault v e := by
  have settles := ofValue_settles [] v
  constructor
  · intro failed
    rwa [failed] at settles
  · intro first
    obtain ⟨p, fault, least⟩ := first
    cases result : ofValue [] v with
    | error f =>
      rw [result] at settles
      obtain ⟨q, other, before⟩ := settles
      have same : p = q := (least q f other).antisymm (before p e fault)
      subst same
      rw [fault.unique other]
    | ok a =>
      rw [result] at settles
      exact absurd fault (settles p e)

end Property

namespace PropertyError

/-- The location that an error names. -/
def location? : PropertyError → Option Location
  | .unsupportedKey l _ => some l
  | .unsupportedValue l _ => some l
  | .collision l _ => some l
  | .notMapping _ => none

end PropertyError

/-- A segment as it is shown at its place in a path: a key after others has a dot before it. -/
def Segment.shownAt (place : Nat) : Segment → String
  | .key name => (if place = 0 then "" else ".") ++ name
  | .index i => "[" ++ toString i ++ "]"

/-- A location as messages show it. -/
def Location.shown (l : Location) : String :=
  if l = [] then "(root)" else String.join (l.mapIdx Segment.shownAt)

theorem Location.continued_eq (l : Location) (before : Nat) :
    continued l = String.join (l.mapIdx fun place => Segment.shownAt (before + place + 1)) := by
  induction l generalizing before with
  | nil => rfl
  | cons segment rest ih =>
    have later := ih (before + 1)
    have moved (place : Nat) : before + 1 + place + 1 = before + (place + 1) + 1 := by omega
    simp only [moved] at later
    cases segment <;>
      simp [continued, List.mapIdx_cons, Segment.shownAt, Decimal.ofNat_eq_repr, ← later,
        String.append_assoc]

theorem Location.text_eq_shown (l : Location) : l.text = l.shown := by
  cases l with
  | nil => rfl
  | cons segment rest =>
    have later := continued_eq rest 0
    simp only [Nat.zero_add] at later
    cases segment <;>
      simp [text, shown, continued, List.mapIdx_cons, Segment.shownAt, Decimal.ofNat_eq_repr, later,
        String.append_assoc]

namespace Property

/-- The value that a location leads to. A name leads to the first entry that has it. -/
def reached? : Value → Location → Option Value
  | v, [] => some v
  | .sequence items, .index i :: l => items[i]?.bind (reached? · l)
  | .mapping es, .key name :: l => (es.find? (keyText ·.1 == some name)).bind (reached? ·.2 l)
  | _, _ :: _ => none
termination_by structural _ l => l

@[simp] theorem reached?_nil (v : Value) : reached? v [] = some v := by
  cases v <;> rfl

/-- What an error says of the value at the location that it names: a mapping with a key that is no
name, a mapping that repeats a name, or a value with a tag. -/
inductive Faulty : Value → PropertyError → Prop where
  | key {l : Location} {es : Entries} {k v : Value} (member : (k, v) ∈ es)
      (nameless : keyText k = none) : Faulty (.mapping es) (.unsupportedKey l k.kindName)
  | collision {l : Location} {es : Entries} {name : String} (repeated : 2 ≤ (namesOf es).count name) :
      Faulty (.mapping es) (.collision l name)
  | tagged {l : Location} {tag : Yaml.Tag} {v : Value} :
      Faulty (.tagged tag v) (.unsupportedValue l ("tagged " ++ tag.display))

/-- The words for what is wrong with a value that a path leads to. -/
inductive Tells (path : String) : Value → String → Prop where
  | key {es : Entries} {k v : Value} (member : (k, v) ∈ es) (nameless : keyText k = none) :
      Tells path (.mapping es)
        ("unsupported key type '" ++ k.kindName ++ "' in mapping at '" ++ path ++ "'")
  | collision {es : Entries} {name : String} (repeated : 2 ≤ (namesOf es).count name) :
      Tells path (.mapping es) ("key '" ++ name ++ "' at '" ++ path ++
        "' collides with an earlier key after normalization")
  | tagged {tag : Yaml.Tag} {v : Value} :
      Tells path (.tagged tag v)
        ("unsupported value type '" ++ ("tagged " ++ tag.display) ++ "' at '" ++ path ++ "'")

theorem Faulty.tells {w : Value} {e : PropertyError} (faulty : Faulty w e) {l : Location}
    (names : e.location? = some l) : Tells l.text w e.message := by
  cases faulty with
  | key member nameless =>
    cases names
    exact .key member nameless
  | collision repeated =>
    cases names
    exact .collision repeated
  | tagged =>
    cases names
    exact .tagged

private theorem repeated_of_earlier {es : Entries} {i : Nat} {f : Value × Value} {name : String}
    (found : es[i]? = some f) (named : keyText f.1 = some name)
    (earlier : name ∈ namesOf (es.take i)) : 2 ≤ (namesOf es).count name := by
  obtain ⟨inside, rfl⟩ := List.getElem?_eq_some_iff.mp found
  have before : 0 < (namesOf (es.take i)).count name := List.count_pos_iff.mpr earlier
  have split : namesOf es = namesOf (es.take i) ++ name :: namesOf (es.drop (i + 1)) :=
    calc namesOf es
      _ = namesOf (es.take i ++ es.drop i) := by rw [List.take_append_drop]
      _ = namesOf (es.take i) ++ namesOf (es[i] :: es.drop (i + 1)) := by
        rw [namesOf_append, List.getElem_cons_drop]
      _ = namesOf (es.take i) ++ name :: namesOf (es.drop (i + 1)) := by
        simp only [namesOf, List.filterMap_cons, named]
  rw [split, List.count_append, List.count_cons_self]
  omega

private theorem find?_of_new {es : Entries} {i : Nat} {f : Value × Value} {name : String}
    (found : es[i]? = some f) (named : keyText f.1 = some name)
    (new : name ∉ namesOf (es.take i)) : es.find? (keyText ·.1 == some name) = some f := by
  obtain ⟨inside, rfl⟩ := List.getElem?_eq_some_iff.mp found
  apply List.find?_eq_some_iff_getElem.mpr
  refine ⟨by simpa using named, i, inside, rfl, ?_⟩
  intro j earlier
  have within : es[j] ∈ es.take i :=
    List.mem_take_iff_getElem.mpr ⟨j, by omega, rfl⟩
  have other : keyText es[j].1 ≠ some name := fun same => new (mem_namesOf.mpr ⟨_, within, same⟩)
  simpa using other

/-- The first fault of a value is at the end of the location that its error names. -/
theorem Fault.reached {v : Value} (fault : Fault l v p e)
    (least : ∀ q f, Fault l v q f → NoLater p q) :
    ∃ way w, e.location? = some (l ++ way) ∧ reached? v way = some w ∧ Faulty w e := by
  induction fault with
  | tagged =>
    exact ⟨[], _, by simp [PropertyError.location?], reached?_nil _, .tagged⟩
  | key found nameless =>
    exact ⟨[], _, by simp [PropertyError.location?], reached?_nil _,
      .key (List.mem_of_getElem? found) nameless⟩
  | collision found named earlier =>
    exact ⟨[], _, by simp [PropertyError.location?], reached?_nil _,
      .collision (repeated_of_earlier found named earlier)⟩
  | @item l items i v p e found inner ih =>
    have first (q : List Nat) (f : PropertyError) (other : Fault (l ++ [.index i]) v q f) :
        NoLater p q := by
      simpa using least _ _ (.item found other)
    obtain ⟨way, w, names, leads, faulty⟩ := ih first
    refine ⟨.index i :: way, w, ?_, ?_, faulty⟩
    · simpa using names
    · simpa [reached?, found] using leads
  | @entry l es i k v name p e found named inner ih =>
    have first (q : List Nat) (f : PropertyError) (other : Fault (l ++ [.key name]) v q f) :
        NoLater p q := by
      simpa using least _ _ (.entry found named other)
    -- A name that was given before would have been met as a fault of its own.
    have new : name ∉ namesOf (es.take i) := by
      intro earlier
      have before := least _ _ (.collision found named earlier)
      simp at before
    obtain ⟨way, w, names, leads, faulty⟩ := ih first
    refine ⟨.key name :: way, w, ?_, ?_, faulty⟩
    · simpa using names
    · simpa [reached?, find?_of_new found named new] using leads

theorem build_eq_error_iff {v : Value} : build v = .error e ↔ FirstFault v e := by
  rw [← ofValue_eq_error_iff]
  cases v with
  | null => simp [build, ofValue]
  | _ => rfl

theorem walk_eq_error_iff {v : Value} : (walk v).run [] = .error e ↔ FirstFault v e := by
  rw [← ofValue_eq_error_iff, walk_eq]
  cases ofValue [] v <;> simp [Except.map]

theorem buildMap_eq_error_iff {v : Value} :
    (PropertyMap.build v = .error e ∧ ∀ kind, e ≠ .notMapping kind) ↔
      (∃ es, v = .mapping es) ∧ FirstFault v e := by
  cases v with
  | mapping es =>
    have inside : PropertyMap.build (.mapping es) = .error e ↔ FirstFault (.mapping es) e := by
      rw [← ofValue_eq_error_iff, PropertyMap.build, ofValue]
      cases ofEntries [] [] es <;> simp [Except.map]
    rw [inside]
    constructor
    · intro refused
      exact ⟨⟨es, rfl⟩, refused.1⟩
    · intro refused
      obtain ⟨-, p, fault, least⟩ := refused
      refine ⟨⟨p, fault, least⟩, ?_⟩
      intro kind same
      subst same
      obtain ⟨_, _, names, _⟩ := fault.reached least
      cases names
  | null => simp [PropertyMap.build]
  | _ =>
    constructor
    · intro refused
      cases refused.1
      exact absurd rfl (refused.2 _)
    · intro refused
      obtain ⟨⟨es, same⟩, -⟩ := refused
      cases same

/-- The error with which a value is refused is that of its first fault, depth first and in source
order; so it is for a block that must be a mapping and is one, and so it is where one path is kept
for all parts, which is what it was whenever a part is completed. The error names the location that
leads to the faulty mapping or to the value with a tag, and its message shows that location and what
is wrong there. -/
theorem build_first_fault (v : Value) (e : PropertyError) :
    (build v = .error e ↔ FirstFault v e) ∧
      ((PropertyMap.build v = .error e ∧ ∀ kind, e ≠ .notMapping kind) ↔
        (∃ es, v = .mapping es) ∧ FirstFault v e) ∧
      ((walk v).run [] = .error e ↔ FirstFault v e) ∧
      (∀ l p m, (walk v).run l = .ok (p, m) → m = l) ∧
      (FirstFault v e → ∃ l w, e.location? = some l ∧ reached? v l = some w ∧ Faulty w e ∧
        l.text = l.shown ∧ Tells l.text w e.message) := by
  refine ⟨build_eq_error_iff, buildMap_eq_error_iff, walk_eq_error_iff, ?_, ?_⟩
  · intro l p m finished
    exact walk_returns finished
  intro first
  obtain ⟨p, fault, least⟩ := first
  obtain ⟨way, w, names, leads, faulty⟩ := fault.reached least
  exact ⟨way, w, names, leads, faulty, way.text_eq_shown, faulty.tells names⟩

/-- A value with two faults, the first of them further inside. -/
theorem build_first_fault_nested :
    let v : Value := .mapping [
      (.string "a", .sequence [.null, .mapping [(.string "x", .null), (.bool true, .null)]]),
      (.string "b", .tagged ⟨"t"⟩ .null)]
    let e : PropertyError := .unsupportedKey [.key "a", .index 1] "bool"
    FirstFault v e ∧ e.message = "unsupported key type 'bool' in mapping at 'a[1]'" ∧
      ∃ l w, e.location? = some l ∧ reached? v l = some w ∧ Faulty w e ∧ l.text = l.shown ∧
        Tells l.text w e.message := by
  intro v e
  have refused : build v = .error e := rfl
  have first : FirstFault v e := (build_first_fault v e).1.mp refused
  have words : e.message = "unsupported key type 'bool' in mapping at 'a[1]'" := by decide +kernel
  exact ⟨first, words, (build_first_fault v e).2.2.2.2 first⟩

end Property

end Deployment
