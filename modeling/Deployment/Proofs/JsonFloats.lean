import Deployment.Proofs.FloatTexts
import Deployment.Proofs.JsonScalars

namespace Deployment

/-- The number that a property stands for, as a float. -/
def Property.number? : Property → Option Float
  | .int i => some i.toFloat
  | .uint n => some n.toFloat
  | .float f => some f
  | _ => none

namespace Json

theorem mark_mem_float (f : Float) : (∃ c ∈ (float f).toList, c = '.' ∨ c = 'e') ∨
    float f = "null" ∨ float f = "-null" := by
  unfold float
  split
  · rcases Decimal.mark_mem_text floatLayout f with marked | word | word | word
    · exact .inl marked
    · exact .inr (.inl word)
    · exact .inr (.inl word)
    · exact .inr (.inr word)
  · exact .inr (.inl rfl)

private theorem mem_dropWhile {dropped : Char → Bool} {c : Char} {cs : List Char} (member : c ∈ cs)
    (stops : dropped c = false) : c ∈ cs.dropWhile dropped := by
  rw [← List.takeWhile_append_dropWhile (p := dropped) (l := cs)] at member
  rcases List.mem_append.mp member with before | after
  · simp [List.mem_takeWhile_imp before] at stops
  · exact after

namespace Numeral

theorem readFraction_none {cs tail : List Char} (read : readFraction cs = some (none, tail)) :
    tail = cs := by
  unfold readFraction at read
  split at read
  · split at read <;> cases read
  · cases read
    rfl

theorem readExponent_none {cs tail : List Char} (read : readExponent cs = some (none, tail)) :
    tail = cs := by
  cases cs with
  | nil =>
    cases read
    rfl
  | cons c rest =>
    by_cases mark : c = 'e' ∨ c = 'E'
    · rw [readExponent_mark mark, exponentDigits] at read
      split at read <;> cases read
    · rw [readExponent_other mark] at read
      cases read
      rfl

theorem mem_tail_of_integer {cs tail : List Char} {n : Numeral} (found : read cs = some (n, tail))
    (fraction : n.fraction = none) (exponent : n.exponent = none) {c : Char} (member : c ∈ cs)
    (sign : c ≠ '-') (digit : Decimal.isDigit c = false) : c ∈ tail := by
  rw [read_eq] at found
  split at found
  · cases found
  · obtain ⟨⟨one, afterFraction⟩, first, found⟩ := Option.bind_eq_some_iff.mp found
    obtain ⟨⟨other, afterExponent⟩, second, same⟩ := Option.bind_eq_some_iff.mp found
    cases same
    cases fraction
    cases exponent
    rw [readExponent_none second, readFraction_none first]
    have unsigned : c ∈ (Numeral.sign cs).2 := by
      unfold Numeral.sign
      split
      · exact (List.mem_cons.mp member).resolve_left sign
      · exact member
    exact mem_dropWhile unsigned digit

theorem toProperty_inexact {n : Numeral} {p : Property} (stands : n.toProperty = some p)
    (inexact : n.fraction ≠ none ∨ n.exponent ≠ none) : ∃ f, p = .float f := by
  unfold toProperty at stands
  dsimp only at stands
  split at stands
  · rename_i whole integral
    rcases inexact with fraction | exponent
    · exact absurd whole fraction
    · exact absurd integral exponent
  · obtain ⟨f, _, rfl⟩ := Option.map_eq_some_iff.mp stands
    exact ⟨_, rfl⟩

end Numeral

theorem readScalar_of_number {cs tail : List Char} {p : Property}
    (found : readScalar cs = some (p, tail)) (number : p.number? ≠ none) :
    ∃ n, Numeral.read cs = some (n, tail) ∧ n.toProperty = some p := by
  rcases readScalar_cases found with rfl | ⟨b, rfl⟩ | ⟨s, rfl⟩ | spelled
  · exact absurd rfl number
  · exact absurd rfl number
  · exact absurd rfl number
  · exact spelled

theorem readScalar_of_readTree {depth : Nat} {cs tail : List Char} {p : Property}
    (found : readTree depth cs = some (p, tail)) (number : p.number? ≠ none) :
    readScalar (skipBlanks cs) = some (p, tail) := by
  cases depth with
  | zero => exact found
  | succ depth =>
    rcases readTree_cases found with scalar | ⟨_, _, _, _, rfl⟩ | ⟨_, _, _, _, rfl⟩
    · exact scalar
    · exact absurd rfl number
    · exact absurd rfl number

theorem read_of_ofJson {text : String} {p : Property} (found : Property.ofJson text = some p)
    (number : p.number? ≠ none) : ∃ n tail,
      Numeral.read (skipBlanks text.toList) = some (n, tail) ∧ n.toProperty = some p ∧
        skipBlanks tail = [] := by
  unfold Property.ofJson at found
  split at found
  · rename_i q tail tree
    split at found
    · rename_i finished
      cases found
      obtain ⟨n, read, value⟩ := readScalar_of_number (readScalar_of_readTree tree number) number
      exact ⟨n, tail, read, value, by simpa [atEnd] using finished⟩
    · cases found
  · cases found

/-- A text that spells a number on its own is this number in front of what may follow a value. -/
theorem readTree_append_of_number {text : String} {p : Property}
    (found : Property.ofJson text = some p) (number : p.number? ≠ none) (depth : Nat)
    {rest : List Char} (ended : Apart rest) :
    ∃ tail, readTree depth (text.toList ++ rest) = some (p, tail) ∧
      skipBlanks tail = skipBlanks rest := by
  obtain ⟨n, tail, read, value, blank⟩ := read_of_ofJson found number
  have present : skipBlanks text.toList ≠ [] := by
    intro empty
    rw [empty] at read
    cases read
  refine ⟨tail ++ rest, readTree_of_readScalar ?_ depth, ?_⟩
  · rw [skipBlanks_append present, readScalar_of_read (Numeral.read_append ended read), value]
    rfl
  · exact skipBlanks_append_of_nil blank rest

theorem eq_float_of_number {f : Float} {p : Property} (found : Property.ofJson (float f) = some p)
    (number : p.number? = some f) : p = .float f := by
  have present : p.number? ≠ none := by simp [number]
  obtain ⟨n, tail, read, value, blank⟩ := read_of_ofJson found present
  have inexact : n.fraction ≠ none ∨ n.exponent ≠ none := by
    rcases mark_mem_float f with ⟨c, member, mark⟩ | word | word
    · have apart : c ≠ '-' ∧ Decimal.isDigit c = false ∧
          (c = ' ' || c = '\n' || c = '\t' || c = '\r') = false := by
        rcases mark with rfl | rfl <;> decide
      by_contra integer
      obtain ⟨fraction, exponent⟩ := not_or.mp integer
      -- The mark would come after the integer, where there are only blanks.
      have after := Numeral.mem_tail_of_integer read (not_not.mp fraction) (not_not.mp exponent)
        (mem_dropWhile member apart.2.2) apart.1 apart.2.1
      have left : c ∈ skipBlanks tail := mem_dropWhile after apart.2.2
      simp [blank] at left
    · rw [word] at read
      cases read
    · rw [word] at read
      cases read
  obtain ⟨g, rfl⟩ := Numeral.toProperty_inexact value inexact
  rw [Option.some.inj number]

end Json

end Deployment
