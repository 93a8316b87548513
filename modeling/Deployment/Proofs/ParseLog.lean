import Deployment.Proofs.UnknownKeys

namespace Deployment.Manifest

open Yaml (Value)

/-- The document with its merge keys resolved, where a source can be read and there is one. -/
def document? : Except String (List UInt8) → Option Value
  | .error _ => none
  | .ok octets => if octets.all Text.isBlankOctet then none else (documentValue octets).toOption

/-- One event for each entry of a document, tags aside, that is none of a manifest. -/
def ignored (origin : String) (v : Value) : List LogEvent :=
  (v.untagged.entries.filter fun e => !recognized e).map (ignoring origin)

theorem ignored_eq_nil_iff (origin : String) (v : Value) :
    ignored origin v = [] ↔ ∀ e ∈ v.untagged.entries, recognized e = true := by
  simp [ignored]

/-- The events for the keys of a document, of which there are none under a tag. -/
def reported (origin : String) (v : Value) : List LogEvent :=
  if v.isTagged then [] else ignored origin v

theorem reported_eq_ignored_iff {origin : String} {v : Value} :
    reported origin v = ignored origin v ↔
      (v.isTagged → ∀ e ∈ v.untagged.entries, recognized e = true) := by
  rw [reported, ← ignored_eq_nil_iff origin v]
  cases v.isTagged with
  | false => simp
  | true => simp

/-- The course of a parse, given what is said about the keys of the document: it begins with the
origin, tells of the document once that is there, and ends with the manifest if there is one. -/
def courseWith (aboutKeys : Value → List LogEvent) (origin : String)
    (source : Except String (List UInt8)) : List LogEvent :=
  .started origin ::
    ((match document? source with
      | some v => .decoded origin v :: aboutKeys v
      | none => []) ++
    match (parse origin source).2 with
      | .ok m => [.finished m]
      | .error _ => [])

theorem keyEvents_eq (origin : String) (v : Value) : keyEvents origin v = reported origin v := by
  cases v with
  | mapping es => exact keyEvents_mapping origin es
  | _ => rfl

theorem decode_events (origin : String) (octets : List UInt8) :
    (decode origin octets).1 = match document? (.ok octets) with
      | some v => .decoded origin v :: keyEvents origin v
      | none => [] := by
  rw [decode, document?]
  by_cases blank : octets.all Text.isBlankOctet = true
  · rw [if_pos blank, if_pos blank]
  · rw [if_neg blank, if_neg blank]
    cases documentValue octets <;> rfl

theorem parse_events_eq (origin : String) (source : Except String (List UInt8)) :
    (parse origin source).1 = courseWith (keyEvents origin) origin source := by
  cases source with
  | error reason => rfl
  | ok octets =>
    rw [courseWith, ← decode_events, parse]
    simp only
    cases (decode origin octets).2.bind ofEntry with
    | error fault => simp
    | ok m => simp

theorem courseWith_eq_iff {one other : Value → List LogEvent} {origin : String}
    {source : Except String (List UInt8)} :
    courseWith one origin source = courseWith other origin source ↔
      ∀ v, document? source = some v → one v = other v := by
  unfold courseWith
  cases document? source <;> simp

theorem level_of_reported {origin : String} {v : Value} {event : LogEvent}
    (member : event ∈ reported origin v) : event.level = .warn := by
  unfold reported at member
  split at member
  · cases member
  · obtain ⟨e, _, rfl⟩ := List.mem_map.mp member
    unfold ignoring
    split <;> rfl

theorem courseWith_levels {aboutKeys : Value → List LogEvent} {origin : String}
    {source : Except String (List UInt8)}
    (warnings : ∀ v, ∀ event ∈ aboutKeys v, event.level = .warn) :
    (courseWith aboutKeys origin source).map LogEvent.level =
      .info ::
        ((match document? source with
          | some v => .debug :: List.replicate (aboutKeys v).length .warn
          | none => []) ++
        match (parse origin source).2 with
          | .ok _ => [.info]
          | .error _ => []) := by
  have each (v : Value) :
      (aboutKeys v).map LogEvent.level = List.replicate (aboutKeys v).length .warn :=
    List.eq_replicate_iff.mpr ⟨List.length_map .., by simpa using warnings v⟩
  unfold courseWith
  cases document? source <;> cases (parse origin source).2 <;> simp [each, LogEvent.level]

/-- The course of every parse: the origin, the document if there is one, a warning for each key
that means nothing, in their order, and the manifest if the parse succeeds. There are no warnings
under a tag, although a manifest is read from what is there: they are missing exactly when a
document with a tag has a key that means nothing. -/
theorem parse_course (origin : String) (source : Except String (List UInt8)) :
    (parse origin source).1 = courseWith (reported origin) origin source ∧
    (parse origin source).1.map LogEvent.level =
      .info ::
        ((match document? source with
          | some v => .debug :: List.replicate (reported origin v).length .warn
          | none => []) ++
        match (parse origin source).2 with
          | .ok _ => [.info]
          | .error _ => []) ∧
    ((parse origin source).1 = courseWith (ignored origin) origin source ↔
      ∀ v, document? source = some v → v.isTagged →
        ∀ e ∈ v.untagged.entries, recognized e = true) := by
  have events : (parse origin source).1 = courseWith (reported origin) origin source := by
    rw [parse_events_eq, courseWith_eq_iff]
    exact fun v _ => keyEvents_eq origin v
  refine ⟨events, ?_, ?_⟩
  · rw [events]
    exact courseWith_levels fun v event => level_of_reported
  · rw [events, courseWith_eq_iff]
    exact forall_congr' fun v => imp_congr_right fun _ => reported_eq_ignored_iff

/-- A document with a tag is a manifest like any other, but nothing is said about its second key. -/
theorem parse_course_tagged :
    let octets := "!m {name: d, extra: 1}".toList.map fun c => UInt8.ofNat c.toNat
    (parse "d" (.ok octets)).2.isOk = true ∧
      (parse "d" (.ok octets)).1.map LogEvent.level = [.info, .debug, .info] ∧
      (parse "d" (.ok octets)).1 ≠ courseWith (ignored "d") "d" (.ok octets) := by
  intro octets
  have accepted : (parse "d" (.ok octets)).2.isOk = true := by decide +kernel
  have shape : ((document? (.ok octets)).any fun v =>
      v.isTagged && v.untagged.entries.any fun e => !recognized e) = true := by decide +kernel
  obtain ⟨_, levels, complete⟩ := parse_course "d" (.ok octets)
  cases found : document? (.ok octets) with
  | none =>
    rw [found] at shape
    cases shape
  | some v =>
    rw [found, Option.any_some, Bool.and_eq_true] at shape
    obtain ⟨tagged, unknown⟩ := shape
    refine ⟨accepted, ?_, fun same => ?_⟩
    · rw [levels, found]
      cases result : (parse "d" (.ok octets)).2 with
      | error e =>
        rw [result] at accepted
        cases accepted
      | ok m => simp [reported, tagged]
    · obtain ⟨e, member, other⟩ := List.any_eq_true.mp unknown
      rw [complete.mp same v found tagged e member] at other
      cases other

end Deployment.Manifest
