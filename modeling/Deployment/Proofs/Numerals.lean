import Deployment.Decimal.Digits

namespace Deployment.Decimal

private theorem digit_eq_digitChar {n : Nat} (small : n < 10) : digit n = n.digitChar := by
  have all : ∀ n < 10, digit n = n.digitChar := by decide
  exact all n small

theorem digits_eq_toDigits (n : Nat) : digits n = Nat.toDigits 10 n := by
  induction n using digits.induct with
  | case1 n small =>
    rw [digits, if_pos small, Nat.toDigits_of_lt_base small, digit_eq_digitChar small]
  | case2 n large ih =>
    rw [digits, if_neg large, ih, digit_eq_digitChar (Nat.mod_lt n (by decide))]
    exact (Nat.toDigits_of_base_le (by decide) (by omega)).symm

theorem ofNat_eq_repr (n : Nat) : ofNat n = n.repr := by
  rw [ofNat, digits_eq_toDigits, Nat.repr_eq_ofList_toDigits]

theorem ofInt_eq_toString (i : Int) : ofInt i = toString i := by
  cases i with
  | ofNat n =>
    have positive : ¬ (Int.ofNat n < 0) := by simp
    rw [ofInt, signedDigits, if_neg positive]
    exact ofNat_eq_repr n
  | negSucc n =>
    rw [ofInt, signedDigits, if_pos (Int.negSucc_lt_zero n), String.ofList_cons]
    exact congrArg ("-" ++ ·) (ofNat_eq_repr (n + 1))

theorem isDigit_or_minus_of_mem_ofInt {i : Int} {c : Char} (member : c ∈ (ofInt i).toList) :
    c.isDigit ∨ c = '-' := by
  have ofDigits {n : Nat} (within : c ∈ digits n) : c.isDigit := by
    rw [digits_eq_toDigits] at within
    exact Nat.isDigit_of_mem_toDigits (by decide) (by decide) within
  simp only [ofInt, signedDigits, String.toList_ofList] at member
  split at member
  · rcases List.mem_cons.mp member with minus | within
    · exact .inr minus
    · exact .inl (ofDigits within)
  · exact .inl (ofDigits member)

theorem isDigit_of_mem_digits {n : Nat} {c : Char} (member : c ∈ digits n) :
    isDigit c = true := by
  induction n using digits.induct with
  | case1 n small =>
    rw [digits, if_pos small] at member
    have all : ∀ n < 10, isDigit (digit n) = true := by decide
    exact List.mem_singleton.mp member ▸ all n small
  | case2 n large ih =>
    rw [digits, if_neg large] at member
    rcases List.mem_append.mp member with front | last
    · exact ih front
    · have all : ∀ n < 10, isDigit (digit n) = true := by decide
      exact List.mem_singleton.mp last ▸ all _ (Nat.mod_lt n (by decide))

theorem digits_ne_nil (n : Nat) : digits n ≠ [] := by
  rw [digits]
  split <;> simp

theorem hyphen_not_mem_digits (n : Nat) : '-' ∉ digits n := by
  intro member
  have digit := isDigit_of_mem_digits member
  cases digit

theorem eq_zero_of_head_digits {n : Nat} (zero : (digits n).head? = some '0') : n = 0 := by
  induction n using digits.induct with
  | case1 n small =>
    have all : ∀ n < 10, digit n = '0' → n = 0 := by decide
    rw [digits, if_pos small] at zero
    exact all n small (Option.some.inj zero)
  | case2 n large ih =>
    obtain ⟨d, rest, front⟩ := List.exists_cons_of_ne_nil (digits_ne_nil (n / 10))
    rw [digits, if_neg large, front] at zero
    have none := ih (by rw [front]; exact zero)
    omega

theorem value_digits (n : Nat) : value (digits n) = n := by
  have single : ∀ n < 10, (digit n).toNat - 48 = n := by decide
  induction n using digits.induct with
  | case1 n small =>
    rw [digits, if_pos small]
    simpa [value] using single n small
  | case2 n large ih =>
    have last := single (n % 10) (Nat.mod_lt n (by decide))
    rw [value] at ih
    rw [digits, if_neg large, value, List.foldl_append, ih, List.foldl_cons, List.foldl_nil, last]
    omega

end Deployment.Decimal
