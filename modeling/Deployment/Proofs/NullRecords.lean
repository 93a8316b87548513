import Deployment.Proofs.DistinctKeys
import Deployment.Proofs.RecordShape

namespace Deployment.Yaml

open Outcome

/-- What happens to the values under some names. -/
abbrev Nested := List (String × (Value → Value → Prop))

/-- Entries of which some that say null under one of the names are left out. What stays is as it
was, unless it stands under a name with a relation of its own. -/
inductive EntriesThinned (names : List String) (nested : Nested) : Entries → Entries → Prop where
  | nil : EntriesThinned names nested [] []
  | dropped {name : String} {es fs : Entries} (known : name ∈ names)
      (others : EntriesThinned names nested es fs) :
      EntriesThinned names nested ((.string name, .null) :: es) fs
  | kept {e : Value × Value} {es fs : Entries} (others : EntriesThinned names nested es fs) :
      EntriesThinned names nested (e :: es) (e :: fs)
  | inside {name : String} {thinned : Value → Value → Prop} {v w : Value} {es fs : Entries}
      (known : (name, thinned) ∈ nested) (within : thinned v w)
      (others : EntriesThinned names nested es fs) :
      EntriesThinned names nested ((.string name, v) :: es) ((.string name, w) :: fs)

/-- A record in which null fields are left out, tags on it aside. -/
inductive RecordThinned (names : List String) (nested : Nested) : Value → Value → Prop where
  | same (v : Value) : RecordThinned names nested v v
  | mapping {es fs : Entries} (entries : EntriesThinned names nested es fs) :
      RecordThinned names nested (.mapping es) (.mapping fs)
  | tagged {tag : Tag} {v w : Value} (below : RecordThinned names nested v w) :
      RecordThinned names nested (.tagged tag v) (.tagged tag w)

/-- A list in the items of which something is left out, tags on it aside. -/
inductive ListThinned (item : Value → Value → Prop) : Value → Value → Prop where
  | same (v : Value) : ListThinned item v v
  | sequence {vs ws : List Value} (each : List.Forall₂ item vs ws) :
      ListThinned item (.sequence vs) (.sequence ws)
  | tagged {tag : Tag} {v w : Value} (below : ListThinned item v w) :
      ListThinned item (.tagged tag v) (.tagged tag w)

section Texts

variable {e : Value × Value} {k v : Value} {rest : Entries}

theorem textsOf_cons {name : String} (key : k.asString? = some name) :
    textsOf ((k, v) :: rest) = name :: textsOf rest := by
  simp [textsOf, key]

theorem find?_cons {key : String} : Value.find? (e :: rest) key =
    if e.1.isString key then some e.2 else Value.find? rest key := by
  rw [Value.find?, List.find?_cons, Value.find?]
  cases e.1.isString key <;> rfl

theorem find?_of_not_mem_textsOf {es : Entries} {key : String} (absent : key ∉ textsOf es) :
    Value.find? es key = none := by
  rw [Value.find?, Option.map_eq_none_iff, List.find?_eq_none]
  intro e member same
  refine absent (List.mem_filterMap.mpr ⟨e, member, ?_⟩)
  cases own : e.1 <;> simp_all [Value.isString, Value.asString?, Value.untagged]

end Texts

/-- Whether no mapping inside a value has one text under two keys, tags on keys aside. -/
def Value.TextsOnce : Value → Prop :=
  Value.EachMapping fun es => (textsOf es).Nodup

/-- Whether no mapping inside a value has a key with a tag. -/
def Value.PlainKeys : Value → Prop :=
  Value.EachMapping fun es => ∀ e ∈ es, e.1.isTagged = false

theorem eq_string_of_untagged {k : Value} {s : String} (plain : k.isTagged = false)
    (text : k.asString? = some s) : k = .string s := by
  cases k <;> simp_all [Value.isTagged, Value.asString?, Value.untagged]

theorem Value.DistinctKeys.textsOnce {v : Value} (distinct : v.DistinctKeys) (plain : v.PlainKeys) :
    v.TextsOnce := by
  intro w member es same
  have untagged := plain w member es same
  have pairs := List.Pairwise.and_mem.mp (distinct w member es same)
  refine List.Pairwise.filterMap _ ?_ pairs
  rintro e f ⟨first, second, apart⟩ s key t other rfl
  rw [eq_string_of_untagged (untagged e first) key,
    eq_string_of_untagged (untagged f second) other] at apart
  simp [Value.same] at apart

section Thinned

variable {names : List String} {nested : Nested} {es fs : Entries} {v w : Value}

theorem EntriesThinned.refl (es : Entries) : EntriesThinned names nested es es := by
  induction es with
  | nil => exact .nil
  | cons e rest ih => exact .kept ih

theorem EntriesThinned.filter {keep : Value × Value → Bool}
    (dropped : ∀ e ∈ es, keep e = false → ∃ name ∈ names, e = (.string name, .null)) :
    EntriesThinned names nested es (es.filter keep) := by
  induction es with
  | nil => exact .nil
  | cons e rest ih =>
    have others := ih fun f later => dropped f (List.mem_cons_of_mem _ later)
    by_cases kept : keep e = true
    · rw [List.filter_cons_of_pos kept]
      exact .kept others
    · obtain ⟨name, known, rfl⟩ := dropped e List.mem_cons_self (by simpa using kept)
      rw [List.filter_cons_of_neg kept]
      exact .dropped known others

theorem EntriesThinned.textsOf_sublist (thinned : EntriesThinned names nested es fs) :
    (textsOf fs).Sublist (textsOf es) := by
  have keys : (fs.map (·.1)).Sublist (es.map (·.1)) := by
    induction thinned with
    | nil => exact .slnil
    | dropped known others ih => exact ih.cons _
    | kept others ih => exact ih.cons_cons _
    | inside known within others ih => exact ih.cons_cons _
  simpa [textsOf, List.filterMap_map] using keys.filterMap Value.asString?

theorem EntriesThinned.find?_text {key : String} (thinned : EntriesThinned names nested es fs)
    (once : (textsOf es).Nodup) (plain : ∀ p ∈ nested, p.1 ≠ key) :
    (Value.find? es key).bind Value.asString? = (Value.find? fs key).bind Value.asString? := by
  induction thinned with
  | nil => rfl
  | @dropped name es fs known others ih =>
    have text : (Value.string name).asString? = some name := rfl
    rw [textsOf_cons text] at once
    obtain ⟨first, once⟩ := List.nodup_cons.mp once
    rw [find?_cons]
    by_cases same : name = key
    · have absent : Value.find? fs key = none :=
        find?_of_not_mem_textsOf fun member => first (same ▸ others.textsOf_sublist.mem member)
      rw [if_pos (by simp [Value.isString, same]), absent]
      rfl
    · rw [if_neg (by simp [Value.isString, same])]
      exact ih once
  | @kept e es fs others ih =>
    rw [find?_cons, find?_cons]
    by_cases same : e.1.isString key = true
    · rw [if_pos same, if_pos same]
    · rw [if_neg same, if_neg same]
      exact ih (once.sublist (textsOf_cons_sublist e es))
  | @inside name thinned v w es fs known within others ih =>
    have other : ¬ (Value.string name).isString key = true := by
      simpa [Value.isString] using plain _ known
    rw [find?_cons, find?_cons, if_neg other, if_neg other]
    exact ih (once.sublist (textsOf_cons_sublist _ es))

theorem RecordThinned.get?_text {key : String} (thinned : RecordThinned names nested v w)
    (once : v.TextsOnce) (plain : ∀ p ∈ nested, p.1 ≠ key) :
    (v.get? key).bind Value.asString? = (w.get? key).bind Value.asString? := by
  induction thinned with
  | same v => rfl
  | mapping entries => exact entries.find?_text (Value.eachMapping_mapping.mp once).1 plain
  | tagged below ih => exact ih (Value.eachMapping_tagged.mp once)

theorem RecordThinned.null_iff (thinned : RecordThinned names nested v w) :
    v = .null ↔ w = .null := by
  cases thinned <;> simp

theorem ListThinned.null_iff {item : Value → Value → Prop} (thinned : ListThinned item v w) :
    v = .null ↔ w = .null := by
  cases thinned <;> simp

end Thinned

namespace Shape

/-- Fields that are at their defaults at the start, and of which a null says the same before and
after another field is read. -/
structure NullDefault {ρ : Type} (fields : List (RecordField ρ)) (initial : ρ) : Prop where
  atStart : ∀ f ∈ fields, f.read .null initial = pure initial
  apart : ∀ f ∈ fields, ∀ g ∈ fields, f.name ≠ g.name → ∀ v r,
    (g.read v r >>= f.read .null) = f.read .null r >>= g.read v

/-- Whether fields are read alike before and after something is left out in their values. -/
def ReadAlike {ρ : Type} (fields : List (RecordField ρ)) (nested : Nested)
    (related : ρ → ρ → Prop) : Prop :=
  ∀ f ∈ fields, ∀ v w, v.TextsOnce →
    (v = w ∨ ∃ thinned, (f.name, thinned) ∈ nested ∧ thinned v w) →
      ∀ r s, related r s → Alike related (f.read v r) (f.read w s)

section Record

variable {ρ : Type} {fields : List (RecordField ρ)} {nested : Nested} {related : ρ → ρ → Prop}
  {initial : ρ}

/-- Whether the fields that are not among those seen are at their defaults. -/
def Untouched (fields : List (RecordField ρ)) (seen : List String) (r : ρ) : Prop :=
  ∀ f ∈ fields, f.name ∉ seen → f.read .null r = .ok r

theorem Untouched.read (defaults : NullDefault fields initial) {seen : List String} {r r' : ρ}
    {v : Value} {g : RecordField ρ} (untouched : Untouched fields seen r) (member : g ∈ fields)
    (success : g.read v r = .ok r') : Untouched fields (g.name :: seen) r' := by
  intro f known unseen
  obtain ⟨different, before⟩ := not_or.mp (List.mem_cons.not.mp unseen)
  have null := untouched f known before
  calc f.read .null r'
    _ = g.read v r >>= f.read .null := by rw [success]; rfl
    _ = f.read .null r >>= g.read v := defaults.apart f known g member different v r
    _ = .ok r' := by rw [null, ← success]; rfl

/-- Entries in which no text comes again that has been seen or is yet to come. -/
structure Ahead (es : Entries) (seen : List String) : Prop where
  once : (textsOf es).Nodup
  fresh : ∀ name ∈ textsOf es, name ∉ seen
  values : ∀ e ∈ es, e.2.TextsOnce

section Entry

variable {seen seen' : List String} {r s : ρ} {e : Value × Value} {k v w : Value} {rest : Entries}
  {next : List String × ρ}

theorem seen_of_enter (success : enter fields seen r e = .ok next) :
    ∀ name ∈ next.1, name ∈ seen ∨ e.1.asString? = some name := by
  intro name later
  rw [enter] at success
  split at success
  · cases success
  · rename_i key text
    split at success
    · cases success
      exact .inl later
    · split at success
      · cases success
      · obtain ⟨_, _, rfl⟩ := map_eq_ok.mp success
        rcases List.mem_cons.mp later with rfl | before
        · exact .inr text
        · exact .inl before

theorem Ahead.tail (ahead : Ahead (e :: rest) seen) : Ahead rest seen where
  once := ahead.once.sublist (textsOf_cons_sublist e rest)
  fresh name member := ahead.fresh name ((textsOf_cons_sublist e rest).mem member)
  values f member := ahead.values f (List.mem_cons_of_mem _ member)

theorem Ahead.enter (ahead : Ahead ((k, v) :: rest) seen)
    (success : Shape.enter fields seen r (k, w) = .ok next) : Ahead rest next.1 where
  once := ahead.tail.once
  fresh name member again := by
    rcases seen_of_enter success name again with before | key
    · exact ahead.tail.fresh name member before
    · have once := ahead.once
      rw [textsOf_cons key] at once
      exact (List.nodup_cons.mp once).1 member
  values := ahead.tail.values

theorem Untouched.enter (defaults : NullDefault fields initial)
    (untouched : Untouched fields seen r) (success : Shape.enter fields seen r e = .ok next) :
    Untouched fields next.1 next.2 := by
  rw [Shape.enter] at success
  split at success
  · cases success
  · rename_i name text
    split at success
    · cases success
      exact untouched
    · rename_i f found
      split at success
      · cases success
      · obtain ⟨r', read, rfl⟩ := map_eq_ok.mp success
        have named : f.name = name := by simpa using List.find?_some found
        exact named ▸ untouched.read defaults (List.mem_of_find?_eq_some found) read

theorem enter_null (distinct : (fields.map (·.name)).Nodup) (untouched : Untouched fields seen r)
    {name : String} (known : name ∈ fields.map (·.name))
    (ahead : Ahead ((.string name, .null) :: rest) seen) :
    enter fields seen r (.string name, .null) = .ok (name :: seen, r) := by
  obtain ⟨f, member, rfl⟩ := List.mem_map.mp known
  have key : (Value.string f.name).asString? = some f.name := rfl
  have unseen := ahead.fresh f.name (by simp [textsOf_cons key])
  rw [enter_field distinct member key unseen, untouched f member unseen]
  rfl

theorem enter_alike (distinct : (fields.map (·.name)).Nodup)
    (reads : ReadAlike fields nested related) (ahead : Ahead ((k, v) :: rest) seen)
    (ahead' : Ahead ((k, v) :: rest) seen') (start : related r s)
    (within : v = w ∨ ∃ name thinned, k = .string name ∧ (name, thinned) ∈ nested ∧ thinned v w) :
    Alike (fun a b => related a.2 b.2) (enter fields seen r (k, v))
      (enter fields seen' s (k, w)) := by
  cases key : k.asString? with
  | none => simp [enter, key, Alike]
  | some name =>
    have first : name ∈ textsOf ((k, v) :: rest) := by simp [textsOf_cons key]
    by_cases known : name ∈ fields.map (·.name)
    · obtain ⟨f, member, rfl⟩ := List.mem_map.mp known
      rw [enter_field distinct member key (ahead.fresh _ first),
        enter_field distinct member key (ahead'.fresh _ first)]
      have below : v = w ∨ ∃ thinned, (f.name, thinned) ∈ nested ∧ thinned v w := by
        refine within.imp_right ?_
        rintro ⟨other, thinned, rfl, listed, below⟩
        obtain rfl : other = f.name := Option.some.inj key
        exact ⟨thinned, listed, below⟩
      have once := ahead.values (k, v) List.mem_cons_self
      exact (reads f member v w once below r s start).map fun _ _ result => result
    · have unknown (u : Value) : isField fields (k, u) = false := by
        simpa [isField, key] using known
      rw [enter_unknown (by simp [key]) (unknown v), enter_unknown (by simp [key]) (unknown w)]
      exact start

end Entry

theorem entries_alike (distinct : (fields.map (·.name)).Nodup)
    (defaults : NullDefault fields initial) (reads : ReadAlike fields nested related)
    {es fs : Entries} (thinned : EntriesThinned (fields.map (·.name)) nested es fs)
    {seen seen' : List String} {r s : ρ} (ahead : Ahead es seen) (ahead' : Ahead es seen')
    (untouched : Untouched fields seen r) (start : related r s) :
    Alike related (entries fields seen r es) (entries fields seen' s fs) := by
  -- The names seen differ on the two sides by those of fields that were left out.
  induction thinned generalizing seen seen' r s with
  | nil => exact start
  | dropped known others ih =>
    have entered := enter_null distinct untouched known ahead
    rw [entries_cons, entered]
    exact ih (ahead.enter entered) ahead'.tail (untouched.enter defaults entered) start
  | kept others ih =>
    rw [entries_cons, entries_cons]
    refine (enter_alike distinct reads ahead ahead' start (.inl rfl)).bind ?_
    intro a b first second next
    exact ih (ahead.enter first) (ahead'.enter second) (untouched.enter defaults first) next
  | inside known within others ih =>
    rw [entries_cons, entries_cons]
    refine (enter_alike distinct reads ahead ahead' start (.inr ⟨_, _, rfl, known, within⟩)).bind ?_
    intro a b first second next
    exact ih (ahead.enter first) (ahead'.enter second) (untouched.enter defaults first) next

/-- A record is read alike before and after null fields in it are left out. -/
theorem record_alike (distinct : (fields.map (·.name)).Nodup)
    (defaults : NullDefault fields initial) (reads : ReadAlike fields nested related)
    (start : related initial initial) {v w : Value} (once : v.TextsOnce)
    (thinned : RecordThinned (fields.map (·.name)) nested v w) (title : String) :
    Alike related (record title fields initial v) (record title fields initial w) := by
  have mapping {es fs : Entries} (thinned : EntriesThinned (fields.map (·.name)) nested es fs)
      (once : (Value.mapping es).TextsOnce) :
      Alike related (entries fields [] initial es) (entries fields [] initial fs) := by
    obtain ⟨texts, values⟩ := Value.eachMapping_mapping.mp once
    have ahead : Ahead es [] := ⟨texts, by simp, values⟩
    exact entries_alike distinct defaults reads thinned ahead ahead
      (fun f member _ => defaults.atStart f member) start
  induction thinned with
  | same v =>
    rw [record]
    split
    · rename_i es same
      have below : v.untagged.TextsOnce := Value.EachMapping.part once (Value.untagged_mem_parts v)
      exact mapping (.refl es) (same ▸ below)
    · exact start
    · rfl
  | mapping entries => exact mapping entries once
  | tagged below ih => exact ih (Value.eachMapping_tagged.mp once)

end Record

section Value

variable {α β : Type} {related : α → α → Prop} {shape : Value → Except Mismatch α} {v w : Value}

theorem withDefault_alike {default : α} (nulls : v = .null ↔ w = .null)
    (start : related default default) (alike : Alike related (shape v) (shape w)) :
    Alike related (withDefault default shape v) (withDefault default shape w) := by
  by_cases null : v = .null
  · rw [null, nulls.mp null]
    exact start
  · rw [withDefault_of_ne_null null, withDefault_of_ne_null (mt nulls.mpr null)]
    exact alike

theorem mapM_alike {vs ws : List Value}
    (each : List.Forall₂ (fun v w => Alike related (shape v) (shape w)) vs ws) :
    Alike (List.Forall₂ related) (vs.mapM shape) (ws.mapM shape) := by
  induction each with
  | nil => exact .nil
  | cons head tail ih =>
    rw [List.mapM_cons, List.mapM_cons]
    refine head.bind fun x y _ _ first => ih.bind fun xs ys _ _ others => ?_
    exact .cons first others

theorem list_alike {item : Value → Value → Prop} (itself : ∀ v, item v v)
    (each : ∀ v w, v.TextsOnce → item v w → Alike related (shape v) (shape w))
    (once : v.TextsOnce) (thinned : ListThinned item v w) :
    Alike (List.Forall₂ related) (list shape v) (list shape w) := by
  have sequence {vs ws : List Value} (items : List.Forall₂ item vs ws)
      (once : (Value.sequence vs).TextsOnce) :
      Alike (List.Forall₂ related) (vs.mapM shape) (ws.mapM shape) := by
    refine mapM_alike ((related_with_member items).imp fun v w pair => ?_)
    exact each v w (Value.eachMapping_sequence.mp once v pair.1) pair.2
  induction thinned with
  | same v =>
    rw [list]
    split
    · rename_i items same
      have below : v.untagged.TextsOnce := Value.EachMapping.part once (Value.untagged_mem_parts v)
      exact sequence (List.forall₂_same.mpr fun v _ => itself v) (same ▸ below)
    · exact .nil
    · rfl
  | sequence items => exact sequence items once
  | tagged below ih => exact ih (Value.eachMapping_tagged.mp once)

end Value

section Same

variable {v w : Value}

section Record

variable {ρ : Type} {fields : List (RecordField ρ)} {nested : Nested} {initial : ρ}

theorem record_eq (distinct : (fields.map (·.name)).Nodup)
    (defaults : NullDefault fields initial)
    (inner : ∀ f ∈ fields, ∀ thinned, (f.name, thinned) ∈ nested → ∀ v w, v.TextsOnce →
      thinned v w → ∀ r, f.read v r = f.read w r)
    (once : v.TextsOnce) (thinned : RecordThinned (fields.map (·.name)) nested v w)
    (title : String) : record title fields initial v = record title fields initial w := by
  have reads : ReadAlike fields nested Eq := by
    rintro f member v w once within r _ rfl
    rw [alike_eq_iff]
    rcases within with rfl | ⟨thinned, known, below⟩
    · rfl
    · exact inner f member thinned known v w once below r
  exact alike_eq_iff.mp (record_alike distinct defaults reads rfl once thinned title)

/-- A record in whose fields nothing is left out is read as it was. -/
theorem record_eq_flat (distinct : (fields.map (·.name)).Nodup)
    (defaults : NullDefault fields initial) (once : v.TextsOnce)
    (thinned : RecordThinned (fields.map (·.name)) [] v w) (title : String) :
    record title fields initial v = record title fields initial w :=
  record_eq distinct defaults (by simp) once thinned title

end Record

theorem withDefault_list_eq {α : Type} {shape : Value → Except Mismatch α}
    {item : Value → Value → Prop} (itself : ∀ v, item v v)
    (each : ∀ v w, v.TextsOnce → item v w → shape v = shape w) (once : v.TextsOnce)
    (thinned : ListThinned item v w) :
    withDefault [] (list shape) v = withDefault [] (list shape) w := by
  have alike := list_alike itself (fun v w once pair => alike_eq_iff.mpr (each v w once pair)) once
    thinned
  rw [List.forall₂_eq_eq_eq] at alike
  exact alike_eq_iff.mp (withDefault_alike thinned.null_iff rfl alike)

end Same

end Shape

end Deployment.Yaml
