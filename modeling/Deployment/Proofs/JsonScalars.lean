import Deployment.Proofs.JsonNumbers

namespace Deployment.Json

theorem skipBlanks_append {cs : List Char} (present : skipBlanks cs ≠ []) (rest : List Char) :
    skipBlanks (cs ++ rest) = skipBlanks cs ++ rest := by
  rw [skipBlanks] at present ⊢
  rw [List.dropWhile_append, if_neg (by simpa using present)]
  rfl

theorem skipBlanks_append_of_nil {cs : List Char} (blank : skipBlanks cs = [])
    (rest : List Char) : skipBlanks (cs ++ rest) = skipBlanks rest := by
  rw [skipBlanks] at blank
  rw [skipBlanks, List.dropWhile_append, blank]
  rfl

section Text

private theorem digitIn_hexDigit {n : Nat} (small : n < 16) :
    Decimal.digitIn 16 (Text.hexDigit n) = some n := by
  have all : ∀ n < 16, Decimal.digitIn 16 (Text.hexDigit n) = some n := by decide
  exact all n small

section Steps

variable {state next : TextState} {c : Char} (inside : state = .text → c ≠ '"')

include inside

private theorem readText_between (moved : state.step c = some (none, next)) (rest : List Char) :
    readText state (c :: rest) = readText next rest := by
  rw [readText, moved]
  · exact congrFun Option.map_id _
  · exact inside

private theorem readText_found {d : Char} (moved : state.step c = some (some d, next))
    (rest : List Char) :
    readText state (c :: rest) = (readText next rest).map fun read => (d :: read.1, read.2) := by
  rw [readText, moved]
  · rfl
  · exact inside

end Steps

private theorem readText_hexPadded {c : Char} (control : c.toNat < 0x20) (rest : List Char) :
    readText (.digits none 4 0) (Text.hexPadded 4 c.toNat ++ rest) =
      (readText .text rest).map fun read => (c :: read.1, read.2) := by
  have zero : Decimal.digitIn 16 (Text.hexDigit 0) = some 0 := digitIn_hexDigit (by decide)
  have high := digitIn_hexDigit (n := c.toNat / 16 % 16) (Nat.mod_lt _ (by decide))
  have low := digitIn_hexDigit (n := c.toNat % 16) (Nat.mod_lt _ (by decide))
  have first : c.toNat / 16 / 16 / 16 % 16 = 0 := by omega
  have second : c.toNat / 16 / 16 % 16 = 0 := by omega
  have value : c.toNat / 16 % 16 * 16 + c.toNat % 16 = c.toNat := by omega
  have whole : TextState.unit none c.toNat = some (some c, .text) := by
    have apart : ¬ 0xD800 ≤ c.toNat ∧ ¬ 0xDC00 ≤ c.toNat := by omega
    simp [TextState.unit, apart]
  have one : (TextState.digits none 4 0).step (Text.hexDigit 0) =
      some (none, .digits none 3 0) := by
    simp [TextState.step, zero]
  have two : (TextState.digits none 3 0).step (Text.hexDigit 0) =
      some (none, .digits none 2 0) := by
    simp [TextState.step, zero]
  have three : (TextState.digits none 2 0).step (Text.hexDigit (c.toNat / 16 % 16)) =
      some (none, .digits none 1 (c.toNat / 16 % 16)) := by
    simp [TextState.step, high]
  have four : (TextState.digits none 1 (c.toNat / 16 % 16)).step (Text.hexDigit (c.toNat % 16)) =
      some (some c, .text) := by
    simp [TextState.step, low, value, whole]
  simp only [Text.hexPadded, first, second, List.nil_append, List.cons_append]
  rw [readText_between (by simp) one, readText_between (by simp) two,
    readText_between (by simp) three, readText_found (by simp) four]

/-- The characters that are written as a letter after a backslash, with this letter. -/
def shortEscapes : List (Char × Char) :=
  [('"', '"'), ('\\', '\\'), (Char.ofNat 8, 'b'), ('\t', 't'), ('\n', 'n'), (Char.ofNat 12, 'f'),
    ('\r', 'r')]

theorem stringChar_short : ∀ e ∈ shortEscapes, stringChar e.1 = ['\\', e.2] ∧ e.2 ≠ 'u' ∧
    TextState.simpleEscape e.2 = some e.1 := by
  decide

/-- Any other character is written as it is, or with its code when it is a control. -/
theorem stringChar_long {c : Char} (long : ∀ e ∈ shortEscapes, e.1 ≠ c) :
    stringChar c = if c.toNat < 0x20 then ['\\', 'u'] ++ Text.hexPadded 4 c.toNat else [c] := by
  have coded (n : Nat) (different : Char.ofNat n ≠ c) : c.toNat ≠ n := by
    rintro rfl
    exact different (Char.ofNat_toNat c)
  simp only [shortEscapes, List.forall_mem_cons] at long
  obtain ⟨quote, backslash, backspace, tab, line, feed, home, _⟩ := long
  rw [stringChar, if_neg (Ne.symm quote), if_neg (Ne.symm backslash),
    if_neg (coded 8 backspace), if_neg (Ne.symm tab), if_neg (Ne.symm line),
    if_neg (coded 12 feed), if_neg (Ne.symm home)]

theorem readText_stringChar (c : Char) (rest : List Char) :
    readText .text (stringChar c ++ rest) =
      (readText .text rest).map fun read => (c :: read.1, read.2) := by
  have escape (d : Char) (more : List Char) :
      readText .text ('\\' :: d :: more) = readText .escape (d :: more) :=
    readText_between (by simp) rfl _
  by_cases short : ∃ e ∈ shortEscapes, e.1 = c
  · obtain ⟨e, member, rfl⟩ := short
    obtain ⟨spelled, letter, stands⟩ := stringChar_short e member
    have known : TextState.escape.step e.2 = some (some e.1, .text) := by
      simp [TextState.step, letter, stands]
    rw [spelled, List.cons_append, List.singleton_append, escape, readText_found (by simp) known]
  · have long : ∀ e ∈ shortEscapes, e.1 ≠ c := fun e member same => short ⟨e, member, same⟩
    have quote : c ≠ '"' := Ne.symm (long ('"', '"') (by decide))
    have backslash : c ≠ '\\' := Ne.symm (long ('\\', '\\') (by decide))
    rw [stringChar_long long]
    by_cases control : c.toNat < 0x20
    · have code : TextState.escape.step 'u' = some (none, .digits none 4 0) := rfl
      rw [if_pos control, List.append_assoc, List.cons_append, List.singleton_append, escape,
        readText_between (by simp) code, readText_hexPadded control]
    · rw [if_neg control, List.singleton_append]
      exact readText_found (fun _ => quote) (by simp [TextState.step, backslash, control]) rest

theorem readText_flatMap (cs rest : List Char) :
    readText .text (cs.flatMap stringChar ++ '"' :: rest) = some (cs, rest) := by
  induction cs with
  | nil => rfl
  | cons c others ih =>
    rw [List.flatMap_cons, List.append_assoc, readText_stringChar, ih]
    rfl

end Text

section Scalars

variable {cs tail : List Char}

theorem readScalar_of_read {n : Numeral} (found : Numeral.read cs = some (n, tail)) :
    readScalar cs = n.toProperty.map (·, tail) := by
  unfold readScalar
  split
  · cases found
  · cases found
  · cases found
  · cases found
  · rw [found]
    rfl

theorem readScalar_cases {p : Property} (found : readScalar cs = some (p, tail)) :
    p = .null ∨ (∃ b, p = .bool b) ∨ (∃ s, p = .string s) ∨
      ∃ n, Numeral.read cs = some (n, tail) ∧ n.toProperty = some p := by
  unfold readScalar at found
  split at found
  · cases found
    exact .inl rfl
  · cases found
    exact .inr (.inl ⟨true, rfl⟩)
  · cases found
    exact .inr (.inl ⟨false, rfl⟩)
  · obtain ⟨⟨text, rest⟩, _, same⟩ := Option.map_eq_some_iff.mp found
    cases same
    exact .inr (.inr (.inl ⟨_, rfl⟩))
  · obtain ⟨⟨n, rest⟩, read, found⟩ := Option.bind_eq_some_iff.mp found
    obtain ⟨q, value, same⟩ := Option.map_eq_some_iff.mp found
    cases same
    exact .inr (.inr (.inr ⟨n, read, value⟩))

theorem skipBlanks_of_readScalar {p : Property} (found : readScalar cs = some (p, tail)) :
    skipBlanks cs = cs := by
  cases cs with
  | nil => rfl
  | cons c rest =>
    have solid : ¬ (c = ' ' || c = '\n' || c = '\t' || c = '\r') = true := by
      simp only [Bool.or_eq_true, decide_eq_true_eq]
      rintro (((rfl | rfl) | rfl) | rfl) <;> cases found
    exact List.dropWhile_cons_of_neg solid

theorem readTree_of_readScalar {p : Property} (found : readScalar (skipBlanks cs) = some (p, tail))
    (depth : Nat) : readTree depth cs = some (p, tail) := by
  cases depth with
  | zero => exact found
  | succ depth =>
    unfold readTree
    split
    · rename_i rest bracket
      rw [bracket] at found
      cases found
    · rename_i rest brace
      rw [brace] at found
      cases found
    · exact found

def readEntry (depth : Nat) (cs : List Char) : Option ((String × Property) × List Char) :=
  (readKey cs).bind fun (key, rest) => (readTree depth rest).map fun (p, rest) => ((key, p), rest)

theorem readTree_cases {depth : Nat} {p : Property}
    (found : readTree (depth + 1) cs = some (p, tail)) :
    readScalar (skipBlanks cs) = some (p, tail) ∨
      (∃ rest items, skipBlanks cs = '[' :: rest ∧
        readAll ']' (readTree depth) rest = some (items, tail) ∧ p = .list items) ∨
      ∃ rest es, skipBlanks cs = '\x7b' :: rest ∧
        readAll '\x7d' (readEntry depth) rest = some (es, tail) ∧ p = .map (collect es) := by
  unfold readTree at found
  split at found
  · rename_i rest bracket
    obtain ⟨⟨items, after⟩, read, same⟩ := Option.map_eq_some_iff.mp found
    cases same
    exact .inr (.inl ⟨rest, items, bracket, read, rfl⟩)
  · rename_i rest brace
    obtain ⟨⟨es, after⟩, read, same⟩ := Option.map_eq_some_iff.mp found
    cases same
    exact .inr (.inr ⟨rest, es, brace, read, rfl⟩)
  · exact .inl found

theorem readScalar_string (s : String) (rest : List Char) :
    readScalar ((string s).toList ++ rest) = some (.string s, rest) := by
  have text := readText_flatMap s.toList rest
  rw [string, String.toList_ofList, stringChars, List.append_assoc, List.cons_append, readScalar,
    List.singleton_append, text]
  exact congrArg (fun read => some (Property.string read, rest)) String.ofList_toList

variable {rest : List Char} (ended : Apart rest)

include ended

theorem readScalar_signedDigits {i : Int} (lower : -0x8000000000000000 ≤ i)
    (upper : i < 0x10000000000000000) : readScalar (Decimal.signedDigits i ++ rest) =
      some (if i < 0x8000000000000000 then .int (Int64.ofInt i)
        else .uint (UInt64.ofNat i.toNat), rest) := by
  have read := Numeral.read_append ended (Numeral.read_signedDigits i)
  rw [readScalar_of_read read, Numeral.toProperty_digits lower upper]
  rfl

theorem readScalar_int (i : Int64) :
    readScalar ((Decimal.ofInt i.toInt).toList ++ rest) = some (.int i, rest) := by
  have lower : -0x8000000000000000 ≤ i.toInt := i.le_toInt
  have upper : i.toInt < 0x8000000000000000 := i.toInt_lt
  rw [Decimal.ofInt, String.toList_ofList, readScalar_signedDigits ended lower (by omega),
    if_pos upper, Int64.ofInt_toInt]

theorem readScalar_uint (n : UInt64) : readScalar ((Decimal.ofNat n.toNat).toList ++ rest) =
    some (if Int64.maxValue.toInt < n.toNat then .uint n else .int (Int64.ofNat n.toNat),
      rest) := by
  have greatest : Int64.maxValue.toInt = 0x7fffffffffffffff := by decide
  have fits : n.toNat < 0x10000000000000000 := n.toNat_lt
  have unsigned : Decimal.digits n.toNat = Decimal.signedDigits n.toNat := by
    simp [Decimal.signedDigits]
  rw [Decimal.ofNat, String.toList_ofList, unsigned,
    readScalar_signedDigits ended (by omega) (by omega), greatest]
  by_cases large : (0x7fffffffffffffff : Int) < n.toNat
  · rw [if_pos large, if_neg (by omega), Int.toNat_natCast, UInt64.ofNat_toNat]
  · rw [if_neg large, if_pos (by omega), Int64.ofInt_eq_ofNat]

end Scalars

end Deployment.Json
