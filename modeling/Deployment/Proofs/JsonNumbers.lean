import Deployment.Json.Printer
import Deployment.Json.Reader
import Deployment.Proofs.Numerals
import Mathlib.Data.List.TakeWhile

namespace Deployment.Json

/-- Whether a text is at its end or goes on with a mark that ends a value. -/
def Delimited (rest : List Char) : Prop :=
  ∀ c ∈ rest.head?, c = ',' ∨ c = ']' ∨ c = '\x7d'

theorem delimited_nil : Delimited [] := by
  simp [Delimited]

theorem delimited_cons {c : Char} (mark : c = ',' ∨ c = ']' ∨ c = '\x7d') (rest : List Char) :
    Delimited (c :: rest) := by
  simpa [Delimited] using mark

theorem mark_apart {c : Char} (mark : c = ',' ∨ c = ']' ∨ c = '\x7d') :
    Decimal.isDigit c = false ∧ c ≠ '.' ∧ c ≠ 'e' ∧ c ≠ 'E' ∧
      (c = ' ' || c = '\n' || c = '\t' || c = '\r') = false := by
  rcases mark with rfl | rfl | rfl <;> decide

theorem skipBlanks_delimited {rest : List Char} (ended : Delimited rest) :
    skipBlanks rest = rest := by
  cases rest with
  | nil => rfl
  | cons c tail =>
    have apart := mark_apart (ended c rfl)
    simp [skipBlanks, apart.2.2.2.2]

/-- Whether a text does not go on with a number that ends before it. -/
def Apart (rest : List Char) : Prop :=
  ∀ c ∈ rest.head?, Decimal.isDigit c = false ∧ c ≠ '.' ∧ c ≠ 'e' ∧ c ≠ 'E'

theorem Delimited.apart {rest : List Char} (ended : Delimited rest) : Apart rest := by
  intro c first
  obtain ⟨digit, point, lower, upper, _⟩ := mark_apart (ended c first)
  exact ⟨digit, point, lower, upper⟩

namespace Numeral

/-- The digits of an exponent once its sign is known. -/
def exponentDigits (negative : Bool) (cs : List Char) : Option (Option Int × List Char) :=
  match takeDigits cs with
  | ([], _) => none
  | (ds, rest) =>
    let n : Int := Decimal.value ds
    some (some (if negative then -n else n), rest)

/-- Whether an exponent is negative, and what comes after its sign. -/
def exponentSign (cs : List Char) : Bool × List Char :=
  match cs with
  | '+' :: rest => (false, rest)
  | '-' :: rest => (true, rest)
  | _ => (false, cs)

theorem readExponent_mark {c : Char} (mark : c = 'e' ∨ c = 'E') (cs : List Char) :
    readExponent (c :: cs) = exponentDigits (exponentSign cs).1 (exponentSign cs).2 := by
  unfold readExponent
  simp only [if_pos mark]
  rfl

theorem readExponent_other {c : Char} (other : ¬ (c = 'e' ∨ c = 'E')) (cs : List Char) :
    readExponent (c :: cs) = some (none, c :: cs) := by
  unfold readExponent
  simp only [if_neg other]

theorem exponentSign_append {cs : List Char} (present : cs ≠ []) (rest : List Char) :
    exponentSign (cs ++ rest) = ((exponentSign cs).1, (exponentSign cs).2 ++ rest) := by
  cases cs with
  | nil => exact absurd rfl present
  | cons d others =>
    by_cases plus : d = '+'
    · simp [plus, exponentSign]
    · by_cases minus : d = '-'
      · simp [minus, exponentSign]
      · simp [plus, minus, exponentSign]

/-- Whether a number is negative, and what comes after its sign. -/
def sign (cs : List Char) : Bool × List Char :=
  match cs with
  | '-' :: rest => (true, rest)
  | _ => (false, cs)

/-- Whether digits cannot stand before the point: there are none, or a zero leads others. -/
def unfit (digits : List Char) : Bool :=
  digits.isEmpty || (digits.head? == some '0' && digits.length > 1)

theorem read_eq (cs : List Char) :
    read cs =
      if unfit (takeDigits (sign cs).2).1 then none
      else
        (readFraction (takeDigits (sign cs).2).2).bind fun fraction =>
          (readExponent fraction.2).bind fun exponent =>
            some (⟨(sign cs).1, (takeDigits (sign cs).2).1, fraction.1, exponent.1⟩, exponent.2) :=
  rfl

theorem sign_append {cs : List Char} (present : cs ≠ []) (rest : List Char) :
    sign (cs ++ rest) = ((sign cs).1, (sign cs).2 ++ rest) := by
  cases cs with
  | nil => exact absurd rfl present
  | cons d others =>
    by_cases minus : d = '-'
    · simp [minus, sign]
    · simp [minus, sign]

section Apart

variable {rest : List Char} (ended : Apart rest)

include ended

theorem takeDigits_append (cs : List Char) :
    takeDigits (cs ++ rest) = ((takeDigits cs).1, (takeDigits cs).2 ++ rest) := by
  induction cs with
  | nil =>
    cases rest with
    | nil => rfl
    | cons c tail =>
      have apart := ended c rfl
      simp [takeDigits, apart.1]
  | cons c tail ih =>
    simp only [takeDigits, Prod.mk.injEq] at ih ⊢
    by_cases digit : Decimal.isDigit c = true
    · simp [digit, ih.1, ih.2]
    · simp [digit]

theorem readFraction_append {cs tail : List Char} {fraction : Option (List Char)}
    (read : readFraction cs = some (fraction, tail)) :
    readFraction (cs ++ rest) = some (fraction, tail ++ rest) := by
  unfold readFraction at read
  split at read
  · split at read
    · cases read
    · rename_i found
      cases read
      simp only [List.cons_append, readFraction, takeDigits_append ended, found]
  · rename_i other
    cases read
    have pointless : ∀ more, cs ++ rest ≠ '.' :: more := by
      intro more same
      cases cs with
      | nil =>
        rw [List.nil_append] at same
        have apart := ended '.' (by simp [same])
        exact apart.2.1 rfl
      | cons c others => exact other others (by simp [(List.cons.inj same).1])
    unfold readFraction
    split
    · rename_i more same
      exact absurd same (pointless more)
    · rfl

theorem exponentDigits_append {negative : Bool} {cs tail : List Char} {exponent : Option Int}
    (read : exponentDigits negative cs = some (exponent, tail)) :
    exponentDigits negative (cs ++ rest) = some (exponent, tail ++ rest) := by
  unfold exponentDigits at read
  split at read
  · cases read
  · rename_i found
    cases read
    simp only [exponentDigits, takeDigits_append ended, found]

theorem readExponent_append {cs tail : List Char} {exponent : Option Int}
    (read : readExponent cs = some (exponent, tail)) :
    readExponent (cs ++ rest) = some (exponent, tail ++ rest) := by
  cases cs with
  | nil =>
    cases read
    cases rest with
    | nil => rfl
    | cons c more =>
      have apart := ended c rfl
      exact readExponent_other (not_or.mpr ⟨apart.2.2.1, apart.2.2.2⟩) more
  | cons c cs =>
    by_cases mark : c = 'e' ∨ c = 'E'
    · rw [readExponent_mark mark] at read
      have present : cs ≠ [] := by
        rintro rfl
        cases read
      rw [List.cons_append, readExponent_mark mark, exponentSign_append present]
      exact exponentDigits_append ended read
    · rw [readExponent_other mark] at read
      cases read
      exact readExponent_other mark _

/-- What follows a number does not change it. -/
theorem read_append {cs tail : List Char} {n : Numeral} (found : read cs = some (n, tail)) :
    read (cs ++ rest) = some (n, tail ++ rest) := by
  have present : cs ≠ [] := by
    rintro rfl
    cases found
  rw [read_eq] at found ⊢
  rw [sign_append present, takeDigits_append ended]
  split at found
  · cases found
  · rename_i fit
    obtain ⟨fraction, one, found⟩ := Option.bind_eq_some_iff.mp found
    obtain ⟨exponent, other, same⟩ := Option.bind_eq_some_iff.mp found
    cases same
    rw [if_neg fit, readFraction_append ended one, Option.bind_some,
      readExponent_append ended other]
    rfl

end Apart

theorem absorb_eq {significand : Nat} {ds : List Char}
    (fits : ds.foldl (fun sofar c => sofar * 10 + (c.toNat - 48)) significand <
      0x10000000000000000) :
    absorb significand ds =
      (ds.foldl (fun sofar c => sofar * 10 + (c.toNat - 48)) significand, ds.length) := by
  induction ds generalizing significand with
  | nil => rfl
  | cons d rest ih =>
    have grows (start : Nat) (cs : List Char) :
        start ≤ cs.foldl (fun sofar c => sofar * 10 + (c.toNat - 48)) start := by
      induction cs generalizing start with
      | nil => exact Nat.le_refl start
      | cons c others later =>
        have next := later (start * 10 + (c.toNat - 48))
        rw [List.foldl_cons]
        omega
    have now := grows (significand * 10 + (d.toNat - 48)) rest
    rw [List.foldl_cons] at fits ⊢
    have taken : significand * 10 + (d.toNat - 48) < 0x10000000000000000 := by omega
    simp only [absorb, if_pos taken, ih fits, List.length_cons]

theorem absorb_digits {n : Nat} (fits : n < 0x10000000000000000) :
    absorb 0 (Decimal.digits n) = (n, (Decimal.digits n).length) := by
  have value := Decimal.value_digits n
  rw [Decimal.value] at value
  rw [absorb_eq (by rwa [value]), value]

theorem takeDigits_digits (n : Nat) : takeDigits (Decimal.digits n) = (Decimal.digits n, []) := by
  simp only [takeDigits, Prod.mk.injEq]
  have all : ∀ c ∈ Decimal.digits n, Decimal.isDigit c = true := fun c member =>
    Decimal.isDigit_of_mem_digits member
  exact ⟨List.takeWhile_eq_self_iff.mpr all, List.dropWhile_eq_nil_iff.mpr all⟩

theorem unfit_digits (n : Nat) : unfit (Decimal.digits n) = false := by
  by_cases zero : n = 0
  · subst zero
    rw [Decimal.digits]
    rfl
  · have head := mt Decimal.eq_zero_of_head_digits zero
    have present := Decimal.digits_ne_nil n
    simp [unfit, head, present]

theorem sign_digits (n : Nat) : sign (Decimal.digits n) = (false, Decimal.digits n) := by
  unfold sign
  split
  · rename_i rest same
    have digit : Decimal.isDigit '-' = true :=
      Decimal.isDigit_of_mem_digits (n := n) (by simp [same])
    cases digit
  · rfl

theorem read_signedDigits (i : Int) :
    read (Decimal.signedDigits i) = some (⟨i < 0, Decimal.digits i.natAbs, none, none⟩, []) := by
  have parts : sign (Decimal.signedDigits i) = (decide (i < 0), Decimal.digits i.natAbs) := by
    by_cases negative : i < 0
    · simp [Decimal.signedDigits, negative, sign]
    · rw [Decimal.signedDigits, if_neg negative, sign_digits]
      simp [negative]
  rw [read_eq, parts, takeDigits_digits, unfit_digits]
  rfl

theorem toProperty_digits {i : Int} (lower : -0x8000000000000000 ≤ i)
    (upper : i < 0x10000000000000000) :
    (Numeral.mk (i < 0) (Decimal.digits i.natAbs) none none).toProperty =
      some (if i < 0x8000000000000000 then .int (Int64.ofInt i)
        else .uint (UInt64.ofNat i.toNat)) := by
  have fits : i.natAbs < 0x10000000000000000 := by omega
  by_cases negative : i < 0
  · have present : 0 < i.natAbs ∧ i.natAbs ≤ 0x8000000000000000 := by omega
    have signed : i < 0x8000000000000000 := by omega
    have value : -(i.natAbs : Int) = i := by omega
    simp only [toProperty, absorb_digits fits, value]
    simp [negative, present, signed]
  · obtain ⟨n, rfl⟩ : ∃ n : Nat, i = n := ⟨i.toNat, by omega⟩
    simp only [toProperty, absorb_digits fits]
    by_cases signed : (n : Int) < 0x8000000000000000
    · have small : n < 0x8000000000000000 := by omega
      simp [signed, small, Int64.ofInt_eq_ofNat]
    · have large : ¬ n < 0x8000000000000000 := by omega
      simp [signed, large]

end Numeral

end Deployment.Json
