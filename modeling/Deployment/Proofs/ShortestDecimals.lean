import Deployment.Decimal.Shortest
import Deployment.Proofs.Numerals
import Mathlib.Algebra.Order.Field.Power
import Mathlib.Algebra.Order.Field.Rat
import Mathlib.Tactic.Linarith
import Mathlib.Tactic.NormNum
import Mathlib.Tactic.Positivity

/-!
The shortest decimal of a float. It lies in the interval of the reals that round to the float, so
that its magnitude is known from the ends of the interval.
-/

namespace Deployment.Decimal

theorem lt_pow_length_digits (n : Nat) : n < 10 ^ (digits n).length := by
  induction n using digits.induct with
  | case1 n small => rwa [digits, if_pos small]
  | case2 n large ih =>
    rw [digits, if_neg large, List.length_append, List.length_singleton, pow_succ]
    omega

theorem pow_length_digits_le {n : Nat} (positive : 0 < n) : 10 ^ ((digits n).length - 1) ≤ n := by
  induction n using digits.induct with
  | case1 n small =>
    have single : (digits n).length - 1 = 0 := by simp [digits, small]
    rwa [single]
  | case2 n large ih =>
    have shorter := ih (by omega)
    have present := List.length_pos_iff.mpr (digits_ne_nil (n / 10))
    have more : (digits (n / 10)).length = (digits (n / 10)).length - 1 + 1 := by omega
    rw [digits, if_neg large, List.length_append, List.length_singleton, Nat.add_sub_cancel, more,
      pow_succ]
    omega

theorem scaled_le_iff (a b : Nat) (e : Int) :
    a * 10 ^ e.toNat ≤ b * 10 ^ (-e).toNat ↔ (a : ℚ) * 10 ^ e ≤ b := by
  have positive : (0 : ℚ) < 10 ^ (-e).toNat := by positivity
  have split : (10 : ℚ) ^ e.toNat = 10 ^ e * 10 ^ (-e).toNat := by
    rw [← zpow_natCast, ← zpow_natCast, ← zpow_add₀ (by norm_num)]
    congr 1
    omega
  rw [← Nat.cast_le (α := ℚ)]
  push_cast
  rw [split, ← mul_assoc, mul_le_mul_iff_left₀ positive]

/-- The power of ten that the first digit stands for. -/
def Scientific.magnitude (s : Scientific) : Int :=
  s.exponent + ((Decimal.digits s.digits).length - 1 : Nat)

namespace Interval

/-- What makes an interval wide enough for seventeen digits to fall into it. -/
structure Proper (i : Interval) : Prop where
  low : 0 < i.low
  mid : i.low < i.mid
  high : i.mid < i.high
  denominator : 0 < i.denominator
  wide : i.mid ≤ 2 ^ 55 * (i.mid - i.low)

variable {i : Interval} {n : Nat} {s : Scientific} {e : Int}

theorem bounds_of_contains (within : i.contains n e = true) :
    (i.low : ℚ) ≤ n * i.denominator * 10 ^ e ∧ (n : ℚ) * i.denominator * 10 ^ e ≤ i.high := by
  have between : i.low * 10 ^ (-e).toNat ≤ n * i.denominator * 10 ^ e.toNat ∧
      n * i.denominator * 10 ^ e.toNat ≤ i.high * 10 ^ (-e).toNat := by
    rw [Nat.mul_right_comm]
    unfold contains at within
    dsimp only at within
    split at within <;>
      simp only [Bool.and_eq_true, decide_eq_true_eq, Nat.pow_eq] at within <;> omega
  have below := (scaled_le_iff i.low (n * i.denominator) (-e)).mp (by simpa using between.1)
  have above := (scaled_le_iff (n * i.denominator) i.high e).mp between.2
  rw [zpow_neg, mul_inv_le_iff₀ (by positivity)] at below
  push_cast at below above
  exact ⟨below, above⟩

theorem magnitude_le (proper : i.Proper) : (i.denominator : ℚ) * 10 ^ i.magnitude ≤ i.mid := by
  rw [← scaled_le_iff, Nat.mul_comm]
  unfold magnitude
  dsimp only
  split
  · rename_i reached
    simpa using reached
  · split
    · rename_i reached
      simpa using reached
    · -- The estimate is off by one at most.
      rw [Nat.mul_comm, scaled_le_iff]
      have middle : (10 : ℚ) ^ ((digits i.mid).length - 1 : Nat) ≤ i.mid := by
        exact_mod_cast pow_length_digits_le (lt_trans proper.low proper.mid)
      have beneath : (i.denominator : ℚ) ≤ 10 ^ (digits i.denominator).length := by
        exact_mod_cast (lt_pow_length_digits i.denominator).le
      have present := List.length_pos_iff.mpr (digits_ne_nil i.mid)
      calc (i.denominator : ℚ) * 10 ^ (_ : Int)
        _ ≤ 10 ^ (digits i.denominator).length *
            10 ^ (((digits i.mid).length : Int) - (digits i.denominator).length - 1) := by gcongr
        _ = 10 ^ ((digits i.mid).length - 1 : Nat) := by
          rw [← zpow_natCast, ← zpow_natCast, ← zpow_add₀ (by norm_num)]
          congr 1
          omega
        _ ≤ i.mid := middle

/-- On the grid of seventeen more digits the neighbour below the middle lies in the interval. -/
theorem contains_finest (proper : i.Proper) :
    i.contains (i.mid * 10 ^ (-(i.magnitude - 17)).toNat /
      (i.denominator * 10 ^ (i.magnitude - 17).toNat)) (i.magnitude - 17) = true := by
  generalize grid : i.magnitude - 17 = e
  -- A step of this grid is no longer than the way from the lower end to the middle.
  have fine : i.denominator * 10 ^ e.toNat ≤ (i.mid - i.low) * 10 ^ (-e).toNat := by
    rw [scaled_le_iff]
    have wide : (i.mid : ℚ) ≤ 2 ^ 55 * ((i.mid - i.low : Nat) : ℚ) := by
      exact_mod_cast proper.wide
    have reached := magnitude_le proper
    have split : (10 : ℚ) ^ i.magnitude = 10 ^ e * 10 ^ 17 := by
      rw [← zpow_natCast, ← zpow_add₀ (by norm_num)]
      congr 1
      omega
    rw [split] at reached
    have size : (2 : ℚ) ^ 55 ≤ 10 ^ 17 := by norm_num
    nlinarith
  have unit : 0 < i.denominator * 10 ^ e.toNat := Nat.mul_pos proper.denominator (by positivity)
  have shift : 0 < 10 ^ (-e).toNat := by positivity
  have ends : i.low * 10 ^ (-e).toNat + i.denominator * 10 ^ e.toNat ≤ i.mid * 10 ^ (-e).toNat := by
    rw [Nat.sub_mul] at fine
    have ordered := Nat.mul_le_mul_right (10 ^ (-e).toNat) proper.mid.le
    omega
  have top := Nat.mul_lt_mul_of_pos_right proper.high shift
  generalize i.mid * 10 ^ (-e).toNat = middle at *
  generalize hit : middle / (i.denominator * 10 ^ e.toNat) = n
  have below : n * (i.denominator * 10 ^ e.toNat) ≤ middle := hit ▸ Nat.div_mul_le_self _ _
  have above : middle < (n + 1) * (i.denominator * 10 ^ e.toNat) :=
    (Nat.div_lt_iff_lt_mul unit).mp (by omega)
  rw [Nat.succ_mul] at above
  have scaled : n * 10 ^ e.toNat * i.denominator = n * (i.denominator * 10 ^ e.toNat) := by
    rw [Nat.mul_assoc, Nat.mul_comm (10 ^ e.toNat)]
  unfold contains
  simp only [Nat.pow_eq, scaled]
  split <;> simp only [Bool.and_eq_true, decide_eq_true_eq] <;> omega

theorem contains_of_onGrid (hit : i.onGrid e = some n) : i.contains n e = true := by
  unfold onGrid at hit
  dsimp only at hit
  split at hit
  · rename_i first second
    cases hit
    exact first
  · rename_i first second
    cases hit
    exact second
  · rename_i first second
    split at hit <;> cases hit
    · exact first
    · exact second
  · cases hit

theorem exists_onGrid (proper : i.Proper) : ∃ n, i.onGrid (i.magnitude - 17) = some n := by
  have finest := contains_finest proper
  unfold onGrid
  simp only [Nat.pow_eq, finest]
  split
  · exact ⟨_, rfl⟩
  · rename_i contradiction _
    cases contradiction
  · split <;> exact ⟨_, rfl⟩
  · rename_i contradiction _
    cases contradiction

theorem contains_shortest (proper : i.Proper) :
    i.contains i.shortest.digits i.shortest.exponent = true := by
  have all (s : Scientific) (hit : s ∈ (List.range 18).filterMap fun (k : Nat) =>
      (i.onGrid (i.magnitude - k)).map fun n => (⟨n, i.magnitude - k⟩ : Scientific)) :
      i.contains s.digits s.exponent = true := by
    obtain ⟨k, _, hit⟩ := List.mem_filterMap.mp hit
    obtain ⟨n, found, rfl⟩ := Option.map_eq_some_iff.mp hit
    exact contains_of_onGrid found
  obtain ⟨n, finest⟩ := exists_onGrid proper
  unfold shortest
  dsimp only
  generalize hits : (List.range 18).filterMap _ = found at all ⊢
  cases found with
  | nil =>
    have missed := List.filterMap_eq_nil_iff.mp hits 17 (by simp)
    simp [finest] at missed
  | cons s rest => exact all s List.mem_cons_self

theorem magnitude_lt (proper : i.Proper) (within : i.contains s.digits s.exponent = true)
    (below : (i.high : ℚ) < i.denominator * 10 ^ e) : s.magnitude < e := by
  obtain ⟨low, high⟩ := bounds_of_contains within
  have positive : 0 < s.digits := by
    refine Nat.pos_of_ne_zero fun zero => ?_
    have start := proper.low
    have nothing : i.low = 0 := by simpa [zero] using low
    omega
  have denominator : (0 : ℚ) < i.denominator := by exact_mod_cast proper.denominator
  have first : (10 : ℚ) ^ ((digits s.digits).length - 1 : Nat) ≤ s.digits := by
    exact_mod_cast pow_length_digits_le positive
  have less : (s.digits : ℚ) * 10 ^ s.exponent < 10 ^ e := by
    rw [← mul_lt_mul_iff_right₀ denominator]
    linarith
  have power : (10 : ℚ) ^ s.magnitude < 10 ^ e :=
    calc (10 : ℚ) ^ s.magnitude
      _ = 10 ^ s.exponent * 10 ^ ((digits s.digits).length - 1 : Nat) := by
        rw [Scientific.magnitude, zpow_add₀ (by norm_num), zpow_natCast]
      _ ≤ 10 ^ s.exponent * s.digits := by gcongr
      _ < 10 ^ e := by rwa [mul_comm]
  exact (zpow_lt_zpow_iff_right₀ (by norm_num)).mp power

theorem le_magnitude (proper : i.Proper) (within : i.contains s.digits s.exponent = true)
    (above : (i.denominator : ℚ) * 10 ^ e ≤ i.low) : e ≤ s.magnitude := by
  obtain ⟨low, high⟩ := bounds_of_contains within
  have denominator : (0 : ℚ) < i.denominator := by exact_mod_cast proper.denominator
  have first : (s.digits : ℚ) < 10 ^ (digits s.digits).length := by
    exact_mod_cast lt_pow_length_digits s.digits
  have more : (10 : ℚ) ^ e ≤ s.digits * 10 ^ s.exponent := by
    rw [← mul_le_mul_iff_right₀ denominator]
    linarith
  have present := List.length_pos_iff.mpr (digits_ne_nil s.digits)
  have power : (10 : ℚ) ^ e < 10 ^ (s.magnitude + 1) :=
    calc (10 : ℚ) ^ e
      _ ≤ s.digits * 10 ^ s.exponent := more
      _ < 10 ^ (digits s.digits).length * 10 ^ s.exponent := by gcongr
      _ = 10 ^ (s.magnitude + 1) := by
        rw [← zpow_natCast, ← zpow_add₀ (by norm_num), Scientific.magnitude]
        congr 1
        omega
  have ordered := (zpow_lt_zpow_iff_right₀ (by norm_num)).mp power
  omega

theorem proper_ofBits {bits : Nat} (positive : 0 < bits) (finite : bits < 0x7FF0000000000000) :
    (ofBits bits).Proper := by
  simp only [ofBits, Nat.pow_eq]
  generalize fraction : bits % 2 ^ 52 = f
  generalize field : bits / 2 ^ 52 % 2 ^ 11 = k
  generalize mantissa : (if k = 0 then f else 2 ^ 52 + f) = m
  generalize gap : (if f = 0 ∧ 1 < k then 1 else 2) = below
  generalize (if k = 0 then (-1074 : Int) else (k : Int) - 1075) = power
  have small : m < 2 ^ 53 := by split at mantissa <;> omega
  have some : 0 < m := by split at mantissa <;> omega
  have one : 1 ≤ below ∧ below ≤ 2 := by split at gap <;> omega
  have scale : 0 < 2 ^ power.toNat := by positivity
  generalize 2 ^ power.toNat = scale at *
  constructor <;> dsimp only
  · exact Nat.mul_pos (by omega) scale
  · exact Nat.mul_lt_mul_of_pos_right (by omega) scale
  · exact Nat.mul_lt_mul_of_pos_right (by omega) scale
  · positivity
  · rw [← Nat.sub_mul, ← Nat.mul_assoc]
    exact Nat.mul_le_mul_right _ (by omega)

private theorem scale_near :
    ((1006 : Nat) - 1075 : Int).toNat = 0 ∧ (-((1006 : Nat) - 1075 : Int)).toNat = 69 := by
  decide

theorem high_ofBits_lt {bits : Nat} (below : bits < 0x3EE4F8B588E368F1) :
    (ofBits bits).high * 10 ^ 5 < (ofBits bits).denominator := by
  simp only [ofBits, Nat.pow_eq]
  generalize fraction : bits % 2 ^ 52 = f
  generalize field : bits / 2 ^ 52 % 2 ^ 11 = k
  generalize mantissa : (if k = 0 then f else 2 ^ 52 + f) = m
  generalize exponent : (if k = 0 then (-1074 : Int) else (k : Int) - 1075) = power
  have small : m < 2 ^ 53 := by split at mantissa <;> omega
  by_cases less : k < 1006
  · have whole : power.toNat = 0 := by split at exponent <;> omega
    have divisor : 2 ^ 70 ≤ 2 ^ (-power).toNat :=
      Nat.pow_le_pow_right (by decide) (by split at exponent <;> omega)
    rw [whole]
    omega
  · -- The float shares its exponent with the one nearest to a hundred-thousandth.
    obtain rfl : k = 1006 := by omega
    subst exponent mantissa
    rw [if_neg (by decide), if_neg (by decide), scale_near.1, scale_near.2]
    omega

theorem le_low_ofBits {bits : Nat} (above : 0x3EE4F8B588E368F1 < bits)
    (finite : bits < 0x7FF0000000000000) :
    (ofBits bits).denominator ≤ (ofBits bits).low * 10 ^ 5 := by
  simp only [ofBits, Nat.pow_eq]
  generalize fraction : bits % 2 ^ 52 = f
  generalize field : bits / 2 ^ 52 % 2 ^ 11 = k
  have normal : k ≠ 0 := by omega
  rw [if_neg normal, if_neg normal]
  generalize gap : (if f = 0 ∧ 1 < k then 1 else 2) = width
  have one : 1 ≤ width ∧ width ≤ 2 := by split at gap <;> omega
  by_cases more : 1006 < k
  · have divisor : 2 ^ (-((k : Int) - 1075)).toNat ≤ 2 ^ 68 :=
      Nat.pow_le_pow_right (by decide) (by omega)
    have scale : 1 ≤ 2 ^ ((k : Int) - 1075).toNat := Nat.one_le_two_pow
    calc 4 * 2 ^ (-((k : Int) - 1075)).toNat
      _ ≤ (4 * (2 ^ 52 + f) - width) * 1 * 10 ^ 5 := by omega
      _ ≤ _ := by gcongr
  · obtain rfl : k = 1006 := by omega
    rw [scale_near.1, scale_near.2]
    omega

end Interval

/-- Exactly the floats below a hundred-thousandth have a shortest decimal that begins after five
places. -/
theorem magnitude_shortest_lt_iff {bits : Nat} (positive : 0 < bits)
    (finite : bits < 0x7FF0000000000000) :
    (shortest bits).magnitude < -5 ↔ bits < 0x3EE4F8B588E368F1 := by
  have proper := Interval.proper_ofBits positive finite
  have within := Interval.contains_shortest proper
  constructor
  · intro early
    by_contra notBelow
    rcases Nat.eq_or_lt_of_le (Nat.not_lt.mp notBelow) with same | above
    · subst same
      revert early
      decide +kernel
    · have reached : -5 ≤ (shortest bits).magnitude := by
        refine Interval.le_magnitude proper within ?_
        have ends : ((Interval.ofBits bits).denominator : ℚ) ≤
            (Interval.ofBits bits).low * 10 ^ 5 := by
          exact_mod_cast Interval.le_low_ofBits above finite
        rw [zpow_neg, mul_inv_le_iff₀ (by positivity)]
        exact_mod_cast ends
      omega
  · intro below
    refine Interval.magnitude_lt proper within ?_
    have ends : ((Interval.ofBits bits).high : ℚ) * 10 ^ 5 <
        (Interval.ofBits bits).denominator := by
      exact_mod_cast Interval.high_ofBits_lt below
    rw [zpow_neg, lt_mul_inv_iff₀ (by positivity)]
    exact_mod_cast ends

end Deployment.Decimal
