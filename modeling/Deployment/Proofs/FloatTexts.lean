import Deployment.Proofs.ShortestDecimals
import Deployment.Yaml.Number
import Mathlib

/-!
The texts of floats: the marks by which they are told from whole numbers, and the hyphens in them.
Only a negative float that is closer to zero than a hundred-thousandth has two hyphens in its text,
one before its digits and one before its exponent.
-/

namespace Deployment

namespace Decimal

section Marks

theorem point_mem_writtenOut (ds : List Char) (magnitude : Int) :
    '.' ∈ writtenOut ds magnitude := by
  unfold writtenOut
  split
  · simp
  · exact List.mem_append_right _ List.mem_cons_self

theorem mark_mem_spell (layout : Layout) (s : Scientific) :
    '.' ∈ layout.spell s ∨ 'e' ∈ layout.spell s := by
  unfold Layout.spell
  dsimp only
  split
  all_goals
    split
    · exact .inl (point_mem_writtenOut _ _)
    · exact .inr (by simp)

/-- The text of a float has a point or an exponent, unless it is a word for what has no digits. -/
theorem mark_mem_text (layout : Layout) (f : Float) :
    (∃ c ∈ (layout.text f).toList, c = '.' ∨ c = 'e') ∨ layout.text f = layout.notANumber ∨
      layout.text f = layout.infinity ∨ layout.text f = "-" ++ layout.infinity := by
  have spelled (sign : List Char) (s : Scientific) :
      ∃ c ∈ sign ++ layout.spell s, c = '.' ∨ c = 'e' := by
    rcases mark_mem_spell layout s with point | letter
    · exact ⟨'.', List.mem_append_right _ point, .inl rfl⟩
    · exact ⟨'e', List.mem_append_right _ letter, .inr rfl⟩
  unfold Layout.text Layout.textOfBits
  dsimp only
  split
  · exact .inr (.inl rfl)
  · split
    · split
      · exact .inr (.inr (.inl String.empty_append))
      · exact .inr (.inr (.inr rfl))
    · split
      · exact .inl ⟨'.', by simp, .inl rfl⟩
      · rw [String.toList_ofList]
        exact .inl (spelled _ _)

end Marks

section Hyphens

variable {ds : List Char}

theorem hyphen_not_mem_writtenOut (free : '-' ∉ ds) (magnitude : Int) :
    '-' ∉ writtenOut ds magnitude := by
  unfold writtenOut
  split
  · simp [free]
  · dsimp only
    have filled (n : Nat) : '-' ∉ (ds ++ List.replicate n '0').take (magnitude.toNat + 1) :=
      fun member => absurd (List.mem_of_mem_take member) (by simp [free])
    have rest : '-' ∉ ds.drop (magnitude.toNat + 1) :=
      fun member => free (List.mem_of_mem_drop member)
    split <;> simp [filled, rest]

theorem hyphen_not_mem_pointed (free : '-' ∉ ds) : '-' ∉ pointed ds := by
  unfold pointed
  split <;> simp_all

theorem count_signedDigits (i : Int) :
    (signedDigits i).count '-' = if i < 0 then 1 else 0 := by
  unfold signedDigits
  split <;> simp [List.count_eq_zero.mpr (hyphen_not_mem_digits _)]

end Hyphens

end Decimal

namespace Yaml

open Decimal

theorem count_spell (s : Scientific) :
    (floatLayout.spell s).count '-' = if s.magnitude < -5 then 1 else 0 := by
  have kept : '-' ∉ ((digits s.digits).reverse.dropWhile (· == '0')).reverse := by
    intro member
    have within := (List.dropWhile_sublist _).mem (List.mem_reverse.mp member)
    exact hyphen_not_mem_digits s.digits (List.mem_reverse.mp within)
  unfold Layout.spell
  simp only [floatLayout, Bool.and_eq_true, decide_eq_true_eq]
  rw [← Scientific.magnitude]
  split
  · rw [List.count_eq_zero.mpr (hyphen_not_mem_writtenOut kept _), if_neg (by omega)]
  · have letter : List.count '-' ['e'] = 0 := by decide
    rw [List.count_append, List.count_append,
      List.count_eq_zero.mpr (hyphen_not_mem_pointed kept), count_signedDigits]
    simp only [Bool.false_eq_true, and_false, if_false, letter]
    split <;> split <;> omega

theorem two_le_count_text_iff_bits (f : Float) : 2 ≤ (floatLayout.text f).toList.count '-' ↔
    2 ^ 63 < f.toBits.toNat ∧ f.toBits.toNat < 2 ^ 63 + 0x3EE4F8B588E368F1 := by
  have bound : f.toBits.toNat < 2 ^ 64 := f.toBits.toNat_lt
  unfold Layout.text Layout.textOfBits
  generalize f.toBits.toNat = bits at *
  generalize sign : (if bits < 0x8000000000000000 then [] else ['-']) = mark
  have marked : mark.count '-' = if bits < 0x8000000000000000 then 0 else 1 := by
    rw [← sign]
    split <;> decide
  dsimp only
  split
  · have hyphens : floatLayout.notANumber.toList.count '-' = 0 := by decide
    rw [hyphens]
    omega
  · split
    · have hyphens : floatLayout.infinity.toList.count '-' = 0 := by decide
      rw [String.toList_append, String.toList_ofList, List.count_append, marked, hyphens]
      split <;> omega
    · split
      · have hyphens : List.count '-' ['0', '.', '0'] = 0 := by decide
        rw [String.toList_ofList, List.count_append, marked, hyphens]
        split <;> omega
      · have tiny : (shortest (bits % 0x8000000000000000)).magnitude < -5 ↔ _ :=
          magnitude_shortest_lt_iff (by omega) (by omega)
        rw [String.toList_ofList, List.count_append, marked, count_spell,
          ite_cond_congr (propext tiny)]
        split <;> split <;> omega

/-- Whether a float lies between minus a hundred-thousandth and zero, both excluded. -/
def IsSlight (f : Float) : Prop :=
  -1e-5 < f ∧ f < 0

instance (f : Float) : Decidable (IsSlight f) :=
  inferInstanceAs (Decidable (_ ∧ _))

section Order

open Float.Model

/-- The same of an unpacked float. -/
def IsSlightForm : UnpackedFloat → Prop
  | .finite .negative m e _ => e < -69 ∨ e = -69 ∧ m < 5902958103587057
  | _ => False

theorem isSlightForm_finite {sign : UnpackedFloat.Sign} {m : Nat} {e : Int} {positive : 0 < m} :
    IsSlightForm (.finite sign m e positive) ↔
      sign = .negative ∧ (e < -69 ∨ e = -69 ∧ m < 5902958103587057) := by
  cases sign <;> simp [IsSlightForm]

theorem float_lt_iff (f g : Float) : f < g ↔ f.toModel.unpack.lt g.toModel.unpack = true := by
  change Float.lt f g = true ↔ _
  rw [Float.lt, decide_eq_true_iff]
  rfl

theorem isSlightForm_unpack_iff (f : Float) :
    IsSlightForm f.toModel.unpack ↔ IsSlight f := by
  have bound : (-1e-5 : Float).toModel.unpack =
    .finite .negative 5902958103587057 (-69) (by decide) := by rfl
  have zero : (0 : Float).toModel.unpack = .zero .positive := by rfl
  rw [IsSlight, float_lt_iff, float_lt_iff, bound, zero]
  unfold UnpackedFloat.lt UnpackedFloat.compare
  cases f.toModel.unpack with
  | infinity sign => cases sign <;> simp [IsSlightForm]
  | notANumber => simp [IsSlightForm]
  | zero sign => cases sign <;> simp [IsSlightForm]
  | finite sign m e positive =>
    rw [isSlightForm_finite]
    cases sign
    · have turned : -69 = e ↔ e = -69 := eq_comm
      simp [Ordering.swap_eq_iff_eq_swap, Ordering.then_eq_gt, compare_gt_iff_gt, turned]
    · simp

variable (b : BitVec Format.binary64.numBits)

private theorem toNat_extract (b : BitVec 64) (start length : Nat) :
    (BitVec.extractLsb' start length b).toNat = b.toNat / 2 ^ start % 2 ^ length := by
  simp [BitVec.extractLsb'_toNat, Nat.shiftRight_eq_div_pow]

theorem toNat_unpackMantissa :
    (UnpackedFloat.unpackMantissa b).toNat = b.toNat % 2 ^ 52 := by
  rw [UnpackedFloat.unpackMantissa]
  exact (toNat_extract b 0 52).trans (by simp)

theorem toNat_unpackExponent :
    (UnpackedFloat.unpackExponent b).toNat = b.toNat / 2 ^ 52 % 2 ^ 11 := by
  rw [UnpackedFloat.unpackExponent]
  exact toNat_extract b 52 11

theorem ofBitVec_unpackSign :
    UnpackedFloat.Sign.ofBitVec (UnpackedFloat.unpackSign b) = .negative ↔
      2 ^ 63 ≤ b.toNat := by
  have sign : (UnpackedFloat.unpackSign b).toNat = b.toNat / 2 ^ 63 % 2 ^ 1 := by
    rw [UnpackedFloat.unpackSign]
    exact toNat_extract b 63 1
  have bound : b.toNat < 2 ^ 64 := b.isLt
  have zero : (0#1).toNat = 0 := rfl
  unfold UnpackedFloat.Sign.ofBitVec
  simp only [← BitVec.toNat_inj, sign, zero]
  split <;> simp only [reduceCtorEq, false_iff, true_iff] <;> omega

theorem toNat_leading_append :
    (1#1 ++ UnpackedFloat.unpackMantissa b).toNat = 2 ^ 52 + b.toNat % 2 ^ 52 := by
  have small : b.toNat % 2 ^ 52 < 2 ^ 52 := Nat.mod_lt _ (by decide)
  rw [BitVec.toNat_append, toNat_unpackMantissa, ← Nat.shiftLeft_add_eq_or_of_lt small]
  rfl

theorem isSlightForm_bits_iff : IsSlightForm (UnpackedFloat.unpack Format.binary64 b) ↔
    2 ^ 63 < b.toNat ∧ b.toNat < 2 ^ 63 + 0x3EE4F8B588E368F1 := by
  have bias : ((Format.binary64.exponentBias : Nat) : Int) = 1023 := rfl
  have bound : b.toNat < 2 ^ 64 := b.isLt
  have mantissa := toNat_unpackMantissa b
  have exponent := toNat_unpackExponent b
  have signed := ofBitVec_unpackSign b
  have joined := toNat_leading_append b
  unfold UnpackedFloat.unpack
  dsimp only
  -- The kinds of float are told apart by the exponent bits, and zero by its mantissa.
  split
  · rename_i special
    have all : b.toNat / 2 ^ 52 % 2 ^ 11 = 2047 := by
      rw [← exponent, special]
      rfl
    split <;> simp only [IsSlightForm, false_iff] <;> omega
  · rename_i ordinary
    have finite : b.toNat / 2 ^ 52 % 2 ^ 11 ≠ 2047 := fun same =>
      ordinary (BitVec.eq_of_toNat_eq (exponent.trans same))
    split
    · rename_i subnormal
      have least : b.toNat / 2 ^ 52 % 2 ^ 11 = 0 := by
        rw [← exponent, subnormal]
        rfl
      split
      · rename_i zero
        have none : b.toNat % 2 ^ 52 = 0 := by
          rw [← mantissa, zero]
          rfl
        simp only [IsSlightForm, false_iff]
        omega
      · rename_i positive
        have some : b.toNat % 2 ^ 52 ≠ 0 := fun same =>
          positive (BitVec.eq_of_toNat_eq (mantissa.trans same))
        rw [isSlightForm_finite, signed, mantissa, exponent, bias]
        omega
    · rename_i normal
      have more : b.toNat / 2 ^ 52 % 2 ^ 11 ≠ 0 := fun same =>
        normal (BitVec.eq_of_toNat_eq (exponent.trans same))
      rw [isSlightForm_finite, signed, joined, exponent, bias]
      omega

end Order

/-- Exactly the negative floats that are closer to zero than a hundred-thousandth have two hyphens
in their text. -/
theorem two_le_count_text_iff (f : Float) :
    2 ≤ (floatLayout.text f).toList.count '-' ↔ IsSlight f := by
  rw [two_le_count_text_iff_bits, ← isSlightForm_unpack_iff]
  exact (isSlightForm_bits_iff f.toBits.toBitVec).symm

end Yaml

end Deployment
