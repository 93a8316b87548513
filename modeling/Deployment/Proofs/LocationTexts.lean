import Deployment.Proofs.Numerals
import Deployment.Proofs.PropertyFaults
import Deployment.Proofs.Texts

/-!
What the text of a location tells. Keys stand in it as they are, so a key with a dot or a bracket
looks like more than one step. Without such keys the text is read in one way only: a key ends at the
dot or bracket after it, and an index at the end of its digits. The text in an error then points to
one place.
-/

namespace Deployment

theorem Decimal.digits_append_inj {i j : Nat} {cs ds : List Char}
    (same : digits i ++ ']' :: cs = digits j ++ ']' :: ds) : i = j ∧ cs = ds := by
  have bracket (cs : List Char) : ∀ c ∈ (']' :: cs).head?, isDigit c = false := by
    intro c first
    cases first
    rfl
  obtain ⟨front, back⟩ := Text.append_inj_of_stops (fun _ => isDigit_of_mem_digits)
    (fun _ => isDigit_of_mem_digits) (bracket cs) (bracket ds) same
  refine ⟨?_, (List.cons.inj back).2⟩
  rw [← value_digits i, front, value_digits]

namespace Segment

/-- Whether a segment keeps apart from those around it: a key must not be empty and must not have in
it what begins another step. -/
def Plain : Segment → Prop
  | .key name => name ≠ "" ∧ '.' ∉ name.toList ∧ '[' ∉ name.toList
  | .index _ => True

instance : DecidablePred Plain
  | .key _ => inferInstanceAs (Decidable (_ ∧ _ ∧ _))
  | .index _ => .isTrue trivial

/-- The text of a segment after others. -/
def step : Segment → List Char
  | .key name => '.' :: name.toList
  | .index i => '[' :: (Decimal.digits i ++ [']'])

/-- Whether a character may stand in a plain key. -/
def staysInKey (c : Char) : Bool :=
  c ≠ '.' && c ≠ '['

theorem staysInKey_of_mem {name : String} (plain : (key name).Plain) :
    ∀ c ∈ name.toList, staysInKey c = true := by
  intro c member
  obtain ⟨-, dotless, bracketless⟩ := plain
  have noDot : c ≠ '.' := fun same => dotless (same ▸ member)
  have noBracket : c ≠ '[' := fun same => bracketless (same ▸ member)
  simp [staysInKey, noDot, noBracket]

end Segment

namespace Location

open Segment (staysInKey staysInKey_of_mem)

/-- Whether all segments of a location keep apart, and it does not begin as the root is written. -/
structure Plain (l : Location) : Prop where
  segments : ∀ segment ∈ l, segment.Plain
  unlike_root : l.head? ≠ some (.key "(root)")

instance : DecidablePred Plain := fun l =>
  decidable_of_iff ((∀ segment ∈ l, segment.Plain) ∧ l.head? ≠ some (.key "(root)"))
    ⟨fun both => ⟨both.1, both.2⟩, fun plain => ⟨plain.1, plain.2⟩⟩

variable {l m : Location} {name other : String}

theorem toList_continued_cons (segment : Segment) (l : Location) :
    (continued (segment :: l)).toList = segment.step ++ (continued l).toList := by
  cases segment <;> simp [continued, Segment.step, Decimal.ofNat]

theorem toList_text_key (name : String) (l : Location) :
    (text (.key name :: l)).toList = name.toList ++ (continued l).toList := by
  rw [text, String.toList_append]

theorem leavesKey_of_head? (l : Location) :
    ∀ c ∈ (continued l).toList.head?, staysInKey c = false := by
  intro c first
  cases l with
  | nil => simp [continued] at first
  | cons segment rest =>
    rw [toList_continued_cons] at first
    cases segment <;> cases first <;> rfl

theorem key_append_inj (plain : (Segment.key name).Plain) (plainOther : (Segment.key other).Plain)
    (same : name.toList ++ (continued l).toList = other.toList ++ (continued m).toList) :
    name = other ∧ continued l = continued m := by
  obtain ⟨names, rests⟩ := Text.append_inj_of_stops (staysInKey_of_mem plain)
    (staysInKey_of_mem plainOther) (leavesKey_of_head? l) (leavesKey_of_head? m) same
  exact ⟨String.toList_inj.mp names, String.toList_inj.mp rests⟩

/-- The first character of a step tells its kind, and the kind tells where it ends. -/
theorem step_append_inj {segment segmentOther : Segment} (plain : segment.Plain)
    (plainOther : segmentOther.Plain)
    (same : segment.step ++ (continued l).toList = segmentOther.step ++ (continued m).toList) :
    segment = segmentOther ∧ continued l = continued m := by
  cases segment with
  | key name =>
    cases segmentOther with
    | key other =>
      obtain ⟨rfl, rests⟩ := key_append_inj plain plainOther (List.cons.inj same).2
      exact ⟨rfl, rests⟩
    | index j => exact absurd (List.cons.inj same).1 (by decide)
  | index i =>
    cases segmentOther with
    | key other => exact absurd (List.cons.inj same).1 (by decide)
    | index j =>
      have digits : Decimal.digits i ++ [']'] ++ (continued l).toList =
          Decimal.digits j ++ [']'] ++ (continued m).toList := (List.cons.inj same).2
      rw [List.append_assoc, List.append_assoc] at digits
      obtain ⟨rfl, rests⟩ := Decimal.digits_append_inj digits
      exact ⟨rfl, String.toList_inj.mp rests⟩

theorem continued_inj (plain : ∀ segment ∈ l, segment.Plain)
    (plainOther : ∀ segment ∈ m, segment.Plain) (same : continued l = continued m) : l = m := by
  have nonempty (segment : Segment) (rest : Location) : continued (segment :: rest) ≠ "" := by
    rw [ne_eq, ← String.toList_inj, toList_continued_cons]
    cases segment <;> simp [Segment.step]
  induction l generalizing m with
  | nil =>
    cases m with
    | nil => rfl
    | cons segment rest => exact absurd same.symm (nonempty segment rest)
  | cons segment rest ih =>
    cases m with
    | nil => exact absurd same (nonempty segment rest)
    | cons segmentOther restOther =>
      obtain ⟨first, later⟩ := List.forall_mem_cons.mp plain
      obtain ⟨firstOther, laterOther⟩ := List.forall_mem_cons.mp plainOther
      rw [← String.toList_inj, toList_continued_cons, toList_continued_cons] at same
      obtain ⟨rfl, rests⟩ := step_append_inj first firstOther same
      rw [ih later laterOther rests]

theorem text_ne_root {segment : Segment} (plain : Plain (segment :: l)) :
    text (segment :: l) ≠ "(root)" := by
  intro same
  rw [← String.toList_inj] at same
  cases segment with
  | key name =>
    have first : (Segment.key name).Plain := plain.segments _ List.mem_cons_self
    have root : (Segment.key "(root)").Plain := by decide
    have whole : name.toList ++ (continued l).toList =
        "(root)".toList ++ (continued []).toList := by
      rw [← toList_text_key, same]
      rfl
    obtain ⟨rfl, -⟩ := key_append_inj first root whole
    exact plain.unlike_root rfl
  | index i =>
    rw [text, toList_continued_cons] at same
    exact absurd (List.cons.inj same).1 (by decide)

theorem text_key_ne_text_index (plain : (Segment.key name).Plain) {i : Nat} :
    text (.key name :: l) ≠ text (.index i :: m) := by
  intro same
  rw [← String.toList_inj, toList_text_key, text, toList_continued_cons] at same
  obtain ⟨c, cs, begins⟩ := List.exists_cons_of_ne_nil (mt String.toList_eq_nil_iff.mp plain.1)
  rw [begins] at same
  have stays := staysInKey_of_mem plain c (by rw [begins]; exact List.mem_cons_self)
  rw [(List.cons.inj same).1] at stays
  cases stays

theorem text_inj (plain : l.Plain) (plainOther : m.Plain) (same : l.text = m.text) : l = m := by
  cases l with
  | nil =>
    cases m with
    | nil => rfl
    | cons segment rest => exact absurd same.symm (text_ne_root plainOther)
  | cons segment rest =>
    cases m with
    | nil => exact absurd same (text_ne_root plain)
    | cons segmentOther restOther =>
      obtain ⟨first, later⟩ := List.forall_mem_cons.mp plain.segments
      obtain ⟨firstOther, laterOther⟩ := List.forall_mem_cons.mp plainOther.segments
      cases segment with
      | key name =>
        cases segmentOther with
        | key other =>
          rw [← String.toList_inj, toList_text_key, toList_text_key] at same
          obtain ⟨rfl, rests⟩ := key_append_inj first firstOther same
          rw [continued_inj later laterOther rests]
        | index j => exact absurd same (text_key_ne_text_index first)
      | index i =>
        cases segmentOther with
        | key other => exact absurd same.symm (text_key_ne_text_index firstOther)
        | index j => exact continued_inj plain.segments plainOther.segments same

end Location

namespace Property

open Yaml (Value)

theorem faulty_of_location {v : Value} {e : PropertyError} {l : Location}
    (refused : build v = .error e ∨ PropertyMap.build v = .error e)
    (names : e.location? = some l) : ∃ w, reached? v l = some w ∧ Faulty w e := by
  have first : FirstFault v e := by
    rcases refused with refused | refused
    · exact build_eq_error_iff.mp refused
    · have inside (kind : String) : e ≠ .notMapping kind := by
        rintro rfl
        cases names
      exact (buildMap_eq_error_iff.mp ⟨refused, inside⟩).2
  obtain ⟨p, fault, least⟩ := first
  obtain ⟨way, w, named, leads, faulty⟩ := fault.reached least
  cases Option.some.inj (names.symm.trans named)
  exact ⟨w, leads, faulty⟩

end Property

namespace Location

open Property (Faulty reached?)
open Yaml (Value)

/-- Locations whose segments keep apart are written alike only if they are the same, the root being
one of them. So the text of the location in an error, however it is read as a location, leads to the
place of the fault. -/
theorem text_unambiguous {l m : Location} (plain : l.Plain) (plainOther : m.Plain) :
    (l.text = m.text ↔ l = m) ∧
      ∀ v e, (Property.build v = .error e ∨ PropertyMap.build v = .error e) →
        e.location? = some l → m.text = l.text → ∃ w, reached? v m = some w ∧ Faulty w e := by
  refine ⟨⟨text_inj plain plainOther, congrArg text⟩, ?_⟩
  intro v e refused names same
  rw [text_inj plainOther plain same]
  exact Property.faulty_of_location refused names

/-- Two ways to share digits and brackets between a key, an index and another key. -/
theorem text_unambiguous_digits :
    let l : Location := [.key "a]", .index 1, .key "23"]
    let m : Location := [.key "a]", .index 12, .key "3"]
    let v : Value := .mapping [(.string "a]", .sequence [.null, .mapping [
      (.string "23", .tagged ⟨"t"⟩ .null)]])]
    let e : PropertyError := .unsupportedValue l "tagged !t"
    l.Plain ∧ m.Plain ∧ l.text ≠ m.text ∧ Property.build v = .error e ∧ e.location? = some l ∧
      ∃ w, reached? v l = some w ∧ Faulty w e := by
  intro l m v e
  have plain : l.Plain := by decide
  have plainOther : m.Plain := by decide
  have different : l ≠ m := by decide
  have refused : Property.build v = .error e := rfl
  exact ⟨plain, plainOther, mt (text_unambiguous plain plainOther).1.mp different, refused, rfl,
    (text_unambiguous plain plain).2 v e (.inl refused) rfl rfl⟩

-- Each of the conditions is needed: a dot, a bracket, the name of the root, an empty first key.
example :
    text [.key "a.b"] = text [.key "a", .key "b"] ∧ text [.key "a[0]"] = text [.key "a", .index 0] ∧
      text [.key "(root)"] = text [] ∧ text [.key "", .index 0] = text [.index 0] := by
  decide +kernel

end Location

end Deployment
