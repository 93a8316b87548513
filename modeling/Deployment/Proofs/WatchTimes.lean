import Deployment.Manifest.WatchTime
import Deployment.Proofs.Numerals
import Deployment.Proofs.Outcome
import Deployment.Proofs.Texts

namespace Deployment

open Outcome

namespace Decimal

theorem digitIn_digit {n : Nat} (small : n < 10) : digitIn 10 (digit n) = some n := by
  have all : ∀ n < 10, digitIn 10 (digit n) = some n := by decide
  exact all n small

theorem readFrom_append (radix sofar : Nat) (cs ds : List Char) :
    readFrom radix sofar (cs ++ ds) =
      (readFrom radix sofar cs).bind fun front => readFrom radix front ds := by
  induction cs generalizing sofar with
  | nil => rfl
  | cons c rest ih =>
    rw [List.cons_append, readFrom, readFrom]
    cases digitIn radix c with
    | none => rfl
    | some d => exact ih _

theorem readFrom_digits (n : Nat) : readFrom 10 0 (digits n) = some n := by
  induction n using digits.induct with
  | case1 n small => simp [digits, small, readFrom, digitIn_digit small]
  | case2 n large ih =>
    have last := digitIn_digit (Nat.mod_lt n (by decide : 10 > 0))
    have whole : n / 10 * 10 + n % 10 = n := by omega
    rw [digits, if_neg large, readFrom_append, ih]
    simp [readFrom, last, whole]

theorem read_digits (n : Nat) : read 10 (digits n) = some n := by
  have present : (digits n).isEmpty = false := by simpa using digits_ne_nil n
  rw [read, present]
  exact readFrom_digits n

end Decimal

namespace WatchTime

private theorem not_blank_of_digit {c : Char} (digit : Decimal.isDigit c = true) :
    Text.isBlank c = false := by
  simp only [Decimal.isDigit, Bool.and_eq_true, decide_eq_true_eq] at digit
  obtain ⟨lower, upper⟩ := digit
  simp [Text.isBlank]
  omega

private theorem readBound_digits (n : UInt64) :
    readBound (Decimal.digits n.toNat) = some n := by
  have fits : n.toNat < 0x10000000000000000 := n.toNat_lt
  unfold readBound
  dsimp only
  split
  · rename_i rest plus
    have digit : Decimal.isDigit '+' = true :=
      Decimal.isDigit_of_mem_digits (n := n.toNat) (by simp [plus])
    cases digit
  · rw [Decimal.read_digits, Option.filter_some, if_pos (by simpa using fits), Option.map_some,
      UInt64.ofNat_toNat]

private theorem bound_digits (expression : String) (n : UInt64) :
    bound expression (Decimal.digits n.toNat) = .ok n := by
  have trimmed : Text.trim (Decimal.digits n.toNat) = Decimal.digits n.toNat :=
    Text.trim_of_not_blank fun c member =>
      not_blank_of_digit (Decimal.isDigit_of_mem_digits member)
  simp only [bound, trimmed, readBound_digits]

/-- The text of an interval is read as this interval, unless the bounds are the wrong way round. -/
theorem parse_text_eq (w : WatchTime) :
    parse w.text = if w.start ≤ w.stop then .ok w else .error (.inverted w.start w.stop) := by
  have parts : Text.splitAt '-' w.text.toList =
      [Decimal.digits w.start.toNat, Decimal.digits w.stop.toNat] := by
    rw [← Text.splitAt_of_not_mem (Decimal.hyphen_not_mem_digits w.stop.toNat),
      ← Text.splitAt_append (Decimal.hyphen_not_mem_digits _)]
    simp [text, Decimal.ofNat]
  simp only [parse, parts, bound_digits, bind, Except.bind]
  by_cases ordered : w.start ≤ w.stop
  · rw [if_pos ordered, if_neg (UInt64.not_lt.mpr ordered)]
    rfl
  · rw [if_neg ordered, if_pos (UInt64.not_le.mp ordered)]

theorem parse_text {w : WatchTime} (ordered : w.start ≤ w.stop) : parse w.text = .ok w := by
  rw [parse_text_eq, if_pos ordered]

theorem parse_ofNat (n : UInt64) : parse (Decimal.ofNat n.toNat) = .ok ⟨0, n⟩ := by
  have pieces : Text.splitAt '-' (Decimal.ofNat n.toNat).toList = [Decimal.digits n.toNat] := by
    rw [Decimal.ofNat, String.toList_ofList,
      Text.splitAt_of_not_mem (Decimal.hyphen_not_mem_digits n.toNat)]
  simp only [parse, pieces, bound_digits, bind, Except.bind]
  rfl

theorem parse_ordered {expression : String} {w : WatchTime}
    (success : parse expression = .ok w) : w.start ≤ w.stop := by
  simp only [parse] at success
  split at success
  · obtain ⟨stop, _, same⟩ := bind_eq_ok.mp success
    cases same
    exact UInt64.zero_le
  · obtain ⟨start, _, rest⟩ := bind_eq_ok.mp success
    obtain ⟨stop, _, rest⟩ := bind_eq_ok.mp rest
    by_cases inverted : start > stop
    · rw [if_pos inverted] at rest
      cases rest
    · rw [if_neg inverted] at rest
      cases rest
      exact UInt64.not_lt.mp inverted
  · cases success

/-- The text of an interval is the normal form of all expressions of it: it is read as the interval
itself, and so is the text of whatever has been read, which is never inverted. -/
theorem text_normal :
    (∀ w : WatchTime, w.start ≤ w.stop → parse w.text = .ok w) ∧
    (∀ s w, parse s = .ok w → w.start ≤ w.stop ∧ parse w.text = .ok w) ∧
    ∀ s t w x, parse s = .ok w → parse t = .ok x → (w.text = x.text ↔ w = x) := by
  have again {s : String} {w : WatchTime} (read : parse s = .ok w) : parse w.text = .ok w :=
    parse_text (parse_ordered read)
  refine ⟨fun w => parse_text, fun s w read => ⟨parse_ordered read, again read⟩, ?_⟩
  intro s t w x first second
  constructor
  · intro same
    have both := again first
    rw [same, again second] at both
    exact (Except.ok.inj both).symm
  · exact congrArg text

/-- An interval of the two largest bounds, and one that is read from a bound with blanks, a sign and
zeros. -/
theorem text_normal_largest :
    let w : WatchTime := ⟨18446744073709551614, 18446744073709551615⟩
    let x : WatchTime := ⟨0, 7⟩
    w.start ≤ w.stop ∧ parse w.text = .ok w ∧ parse " +007 " = .ok x ∧ parse x.text = .ok x := by
  intro w x
  have ordered : w.start ≤ w.stop := by decide
  have read : parse " +007 " = .ok x := by decide
  exact ⟨ordered, text_normal.1 w ordered, read, (text_normal.2.1 _ x read).2⟩

end WatchTime

end Deployment
