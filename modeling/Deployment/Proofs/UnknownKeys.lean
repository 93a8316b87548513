import Deployment.Proofs.Fields
import Deployment.Proofs.Stages

namespace Deployment

open Yaml (Value Entries Mismatch)
open Yaml.Shape (RecordField)
open Outcome

namespace Yaml.Shape

variable {ρ : Type} {fields : List (RecordField ρ)}

/-- Whether the key of an entry is the text of a field name. -/
def isField (fields : List (RecordField ρ)) (e : Value × Value) : Bool :=
  match e.1.asString? with
  | some name => (fields.map (·.name)).contains name
  | none => false

/-- The names seen and the record after one entry. -/
def enter (fields : List (RecordField ρ)) (seen : List String) (r : ρ) (e : Value × Value) :
    Except Mismatch (List String × ρ) :=
  match e.1.asString? with
  | none => .error (.kind e.1.untagged "field identifier")
  | some name =>
    match fields.find? (·.name == name) with
    | none => .ok (seen, r)
    | some field =>
      if seen.contains name then .error (.repeatedField name)
      else (field.read e.2 r).map (name :: seen, ·)

theorem entries_cons (seen : List String) (r : ρ) (e : Value × Value) (rest : Entries) :
    entries fields seen r (e :: rest) =
      enter fields seen r e >>= fun next => entries fields next.1 next.2 rest := by
  rw [entries, enter]
  cases e.1.asString? with
  | none => rfl
  | some name =>
    simp only
    cases fields.find? (·.name == name) with
    | none => rfl
    | some field =>
      simp only
      by_cases again : seen.contains name = true
      · rw [if_pos again, if_pos again]
        rfl
      · rw [if_neg again, if_neg again]
        cases field.read e.2 r <;> rfl

theorem enter_unknown {seen : List String} {r : ρ} {e : Value × Value}
    (text : e.1.asString? ≠ none) (unknown : isField fields e = false) :
    enter fields seen r e = .ok (seen, r) := by
  obtain ⟨name, key⟩ := Option.ne_none_iff_exists'.mp text
  have nothing : fields.find? (·.name == name) = none := by
    simpa [isField, key] using unknown
  rw [enter, key]
  simp only [nothing]

theorem entries_filter {keep : Value × Value → Bool} {seen : List String} {r : ρ} {es : Entries}
    (dropped : ∀ e ∈ es, keep e = false → e.1.asString? ≠ none ∧ isField fields e = false) :
    entries fields seen r (es.filter keep) = entries fields seen r es := by
  induction es generalizing seen r with
  | nil => rfl
  | cons e rest ih =>
    have later : ∀ f ∈ rest, keep f = false → f.1.asString? ≠ none ∧ isField fields f = false :=
      fun f member => dropped f (List.mem_cons_of_mem _ member)
    by_cases kept : keep e = true
    · rw [List.filter_cons_of_pos kept, entries_cons, entries_cons]
      cases enter fields seen r e with
      | error mismatch => rfl
      | ok next => exact ih later
    · obtain ⟨text, unknown⟩ := dropped e List.mem_cons_self (by simpa using kept)
      rw [List.filter_cons_of_neg kept, entries_cons, enter_unknown text unknown]
      exact ih later

theorem entries_nonText {seen : List String} {r : ρ} {front back : Entries} {k v : Value}
    (nonText : k.asString? = none) :
    entries fields seen r (front ++ (k, v) :: back) =
      entries fields seen r front >>= fun _ => .error (.kind k.untagged "field identifier") := by
  induction front generalizing seen r with
  | nil =>
    rw [List.nil_append, entries_cons, enter, nonText]
    rfl
  | cons e rest ih =>
    rw [List.cons_append, entries_cons, entries_cons]
    cases enter fields seen r e with
    | error mismatch => rfl
    | ok next => exact ih

end Yaml.Shape

namespace Manifest

open Yaml.Shape (isField)

/-- Whether an entry of a document is one of a manifest. -/
def recognized : Value × Value → Bool :=
  isField ManifestEntry.fields

theorem recognized_of_text {e : Value × Value} {key : String} (text : e.1.asString? = some key) :
    recognized e = ManifestEntry.keys.contains key := by
  rw [recognized, isField, text]
  rfl

theorem recognized_of_nonText {e : Value × Value} (nonText : e.1.asString? = none) :
    recognized e = false := by
  rw [recognized, isField, nonText]

/-- The event that tells that an entry is ignored. -/
def ignoring (origin : String) (e : Value × Value) : LogEvent :=
  match e.1.asString? with
  | some key => .unknownKey origin key
  | none => .nonStringKey origin e.1

theorem keyEvents_mapping (origin : String) (es : Entries) :
    keyEvents origin (.mapping es) = (es.filter fun e => !recognized e).map (ignoring origin) := by
  induction es with
  | nil => rfl
  | cons e rest ih =>
    rw [keyEvents] at ih ⊢
    rw [List.filterMap_cons, List.filter_cons, ih]
    cases text : e.1.asString? with
    | none => simp [recognized_of_nonText text, ignoring, text]
    | some key =>
      rw [recognized_of_text text]
      by_cases known : ManifestEntry.keys.contains key = true
      · simp only [text, known]
        rfl
      · have event : ignoring origin e = .unknownKey origin key := by rw [ignoring, text]
        simp only [text, known]
        exact congrArg (· :: _) event.symm

theorem not_decoded_mem_keyEvents {origin : String} {v w : Value} :
    .decoded origin w ∉ keyEvents origin v := by
  cases v with
  | mapping es =>
    rw [keyEvents_mapping]
    intro member
    obtain ⟨e, _, same⟩ := List.mem_map.mp member
    unfold ignoring at same
    split at same <;> cases same
  | _ => exact List.not_mem_nil

theorem parse_events (origin : String) (octets : List UInt8) :
    ∃ last, (parse origin (.ok octets)).1 =
      .started origin :: (decode origin octets).1 ++ last ∧
        ∀ event ∈ last, ∃ m, event = .finished m := by
  rw [parse]
  simp only
  cases (decode origin octets).2.bind ofEntry with
  | error fault => exact ⟨[], by simp, by simp⟩
  | ok m => exact ⟨[.finished m], by simp, by simp⟩

theorem mem_events {origin : String} {octets : List UInt8} {event : LogEvent}
    (member : event ∈ (decode origin octets).1) : event ∈ (parse origin (.ok octets)).1 := by
  obtain ⟨last, events, _⟩ := parse_events origin octets
  rw [events]
  exact List.mem_append_left _ (List.mem_cons_of_mem _ member)

theorem decoded_mem_iff {origin : String} {octets : List UInt8} {v : Value} :
    .decoded origin v ∈ (parse origin (.ok octets)).1 ↔
      octets.all Text.isBlankOctet = false ∧ documentValue octets = .ok v := by
  obtain ⟨last, events, finished⟩ := parse_events origin octets
  have outside : .decoded origin v ∉ last := by
    intro member
    obtain ⟨m, same⟩ := finished _ member
    cases same
  rw [events]
  simp only [List.cons_append, List.mem_cons, List.mem_append, outside, or_false, reduceCtorEq,
    false_or]
  unfold decode
  by_cases blank : octets.all Text.isBlankOctet = true
  · simp [blank]
  · rw [if_neg blank]
    cases documentValue octets with
    | error e => simp [blank]
    | ok w => simp [blank, not_decoded_mem_keyEvents, eq_comm]

/-- What comes of a document with this value. -/
def ofDocument (origin : String) (v : Value) : Except ManifestError Manifest :=
  (entryOf v >>= ofEntry).mapError (ManifestError.mk origin)

theorem parse_eq_ofDocument {origin : String} {octets : List UInt8} {v : Value}
    (decoded : .decoded origin v ∈ (parse origin (.ok octets)).1) :
    (parse origin (.ok octets)).2 = ofDocument origin v := by
  obtain ⟨text, value⟩ := decoded_mem_iff.mp decoded
  rw [parse_octets, decode_eq text, value]
  rfl

theorem entryOf_mapping (es : Entries) : entryOf (.mapping es) =
    (Yaml.Shape.entries ManifestEntry.fields [] {} es).mapError fun m => .decode (.shape m) := by
  rfl

theorem ofDocument_filter {origin : String} {keep : Value × Value → Bool} {es : Entries}
    (dropped : ∀ e ∈ es, keep e = false → e.1.asString? ≠ none ∧ recognized e = false) :
    ofDocument origin (.mapping (es.filter keep)) = ofDocument origin (.mapping es) := by
  rw [ofDocument, ofDocument, entryOf_mapping, entryOf_mapping,
    Yaml.Shape.entries_filter dropped]

/-- The fault of a document with a key that is no text is one of the entries before that key, or
else it is that key. -/
theorem entryOf_nonText {front back : Entries} {k v : Value} (nonText : k.asString? = none) :
    entryOf (.mapping (front ++ (k, v) :: back)) = entryOf (.mapping front) >>= fun _ =>
      .error (.decode (.shape (.kind k.untagged "field identifier"))) := by
  rw [entryOf_mapping, entryOf_mapping, Yaml.Shape.entries_nonText nonText]
  cases Yaml.Shape.entries ManifestEntry.fields [] {} front <;> rfl

/-- What is done with the entries of a decoded document that are none of a manifest. They are all
reported as ignored. Those under texts can be left out, any of them, and when all keys are texts
nothing but the recognized entries counts. But a key that is no text is a fault, unless there is a
fault before it. -/
theorem unknownKeys_ignored {origin : String} {octets : List UInt8} {es : Entries}
    (decoded : .decoded origin (.mapping es) ∈ (parse origin (.ok octets)).1) :
    (parse origin (.ok octets)).2 = ofDocument origin (.mapping es) ∧
    (∀ e ∈ es, recognized e = false → ignoring origin e ∈ (parse origin (.ok octets)).1) ∧
    (∀ keep : Value × Value → Bool,
      (∀ e ∈ es, keep e = false → e.1.asString? ≠ none ∧ recognized e = false) →
        ofDocument origin (.mapping (es.filter keep)) = (parse origin (.ok octets)).2) ∧
    ((∀ e ∈ es, e.1.asString? ≠ none) →
      ofDocument origin (.mapping (es.filter recognized)) = (parse origin (.ok octets)).2) ∧
    ∀ front k v back, es = front ++ (k, v) :: back → k.asString? = none →
      (parse origin (.ok octets)).2 =
        (entryOf (.mapping front) >>= fun _ =>
          .error (.decode (.shape (.kind k.untagged "field identifier")))).mapError
            (ManifestError.mk origin) := by
  obtain ⟨text, value⟩ := decoded_mem_iff.mp decoded
  have result := parse_eq_ofDocument decoded
  refine ⟨result, ?_, ?_, ?_, ?_⟩
  · intro e member unknown
    have event : ignoring origin e ∈ keyEvents origin (.mapping es) := by
      rw [keyEvents_mapping]
      exact List.mem_map.mpr ⟨e, List.mem_filter.mpr ⟨member, by simp [unknown]⟩, rfl⟩
    refine mem_events ?_
    rw [decode, text, value]
    exact List.mem_cons_of_mem _ event
  · intro keep dropped
    rw [result]
    exact ofDocument_filter dropped
  · intro texts
    rw [result]
    exact ofDocument_filter fun e member unknown => ⟨texts e member, unknown⟩
  · rintro front k v back rfl nonText
    rw [result, ofDocument, entryOf_nonText nonText]
    cases entryOf (.mapping front) <;> rfl

/-- An integer key is reported as ignored, and yet it is what the document is refused for. -/
theorem unknownKeys_ignored_integer :
    let octets := "name: d\n5: x\nother: y".toList.map fun c => UInt8.ofNat c.toNat
    ∃ es k v, .decoded "d" (.mapping es) ∈ (parse "d" (.ok octets)).1 ∧ (k, v) ∈ es ∧
      k.asString? = none ∧ .nonStringKey "d" k ∈ (parse "d" (.ok octets)).1 ∧
      (parse "d" (.ok octets)).2 =
        .error ⟨"d", .decode (.shape (.kind k.untagged "field identifier"))⟩ ∧
      (ofDocument "d" (.mapping (es.filter recognized))).isOk = true := by
  intro octets
  have text : octets.all Text.isBlankOctet = false := by decide +kernel
  have shape : ((documentValue octets).toOption.any fun v =>
      (entryOf (.mapping (v.entries.take 1))).isOk &&
        (v.entries[1]?.any fun e => e.1.asString?.isNone) &&
        (ofDocument "d" (.mapping (v.entries.filter recognized))).isOk) = true := by
    decide +kernel
  cases value : documentValue octets with
  | error e =>
    rw [value] at shape
    cases shape
  | ok w =>
    rw [value] at shape
    cases w with
    | mapping es =>
      have decoded : .decoded "d" (.mapping es) ∈ (parse "d" (.ok octets)).1 :=
        decoded_mem_iff.mpr ⟨text, value⟩
      obtain ⟨_, events, _, _, refused⟩ := unknownKeys_ignored decoded
      simp only [Except.toOption, Option.any_some, Value.entries, Bool.and_eq_true] at shape
      obtain ⟨⟨before, second⟩, accepted⟩ := shape
      cases present : es[1]? with
      | none =>
        rw [present] at second
        cases second
      | some e =>
        have nonText : e.1.asString? = none := by simpa [present] using second
        obtain ⟨bound, here⟩ := List.getElem?_eq_some_iff.mp present
        have split : es = es.take 1 ++ e :: es.drop 2 := by
          rw [← here, ← List.drop_eq_getElem_cons bound, List.take_append_drop]
        have member := List.mem_of_getElem? present
        have event := events e member (recognized_of_nonText nonText)
        rw [ignoring, nonText] at event
        refine ⟨es, e.1, e.2, decoded, member, nonText, event, ?_, accepted⟩
        rw [refused _ e.1 e.2 _ split nonText]
        cases entry : entryOf (.mapping (es.take 1)) with
        | error fault =>
          rw [entry] at before
          cases before
        | ok first => rfl
    | _ => cases shape

end Manifest

end Deployment
