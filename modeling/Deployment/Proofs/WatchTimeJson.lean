import Deployment.Json.Shape
import Deployment.Proofs.JsonScalars
import Deployment.Proofs.WatchTimes
import Mathlib.Data.List.Permutation

namespace Deployment

namespace Json

theorem readHead_of_readScalar {cs rest : List Char} {p : Property}
    (found : readScalar cs = some (p, rest)) : readHead cs = .ok (p, rest) := by
  rw [readHead, skipBlanks_of_readScalar found]
  split
  · cases found
  · cases found
  · rw [found]
    rfl

theorem readNatural_ofNat {rest : List Char} (ended : Delimited rest) (n : UInt64) :
    readNatural ((Decimal.ofNat n.toNat).toList ++ rest) = .ok (n, rest) := by
  have head := readHead_of_readScalar (readScalar_uint ended.apart n)
  have greatest : Int64.maxValue.toInt = 0x7fffffffffffffff := by decide
  rw [greatest] at head
  by_cases large : (0x7fffffffffffffff : Int) < n.toNat
  · rw [if_pos large] at head
    rw [readNatural, head]
    rfl
  · rw [if_neg large] at head
    have value : (Int64.ofNat n.toNat).toInt = n.toNat :=
      Int64.toInt_ofNat_of_lt (by omega)
    have natural : ¬ Int64.ofNat n.toNat < 0 := by
      rw [Int64.lt_iff_toInt_lt, value]
      simp
    simp only [readNatural, head, bind, Except.bind, if_neg natural, value]
    simp [pure, Except.pure]

namespace WatchTimeText

variable {b : Bounds} {rest : List Char}

theorem entry_string (key : String) : entry b ((string key).toList ++ ':' :: rest) =
    (if key == "start" && b.start.isSome then .error (.repeatedField "start")
    else if key == "end" && b.stop.isSome then .error (.repeatedField "end")
    else if key == "start" then
      (readNatural rest).map fun (n, rest) => ({ b with start := some n }, rest)
    else if key == "end" then
      (readNatural rest).map fun (n, rest) => ({ b with stop := some n }, rest)
    else (wellFormed (skipTree rest.length rest)).map fun rest => (b, rest)) := by
  have text := readText_flatMap key.toList (':' :: rest)
  have opening (cs : List Char) : skipBlanks ('"' :: cs) = '"' :: cs := rfl
  have colon : skipBlanks (':' :: rest) = ':' :: rest := rfl
  rw [string, String.toList_ofList, stringChars, List.append_assoc, List.cons_append,
    List.singleton_append]
  simp only [entry, opening, text, wellFormed, bind, Except.bind, String.ofList_toList, colon]
  rfl

theorem entry_start (absent : b.start = none) (ended : Delimited rest) (n : UInt64) :
    entry b ((string "start").toList ++ ':' :: ((Decimal.ofNat n.toNat).toList ++ rest)) =
      .ok ({ b with start := some n }, rest) := by
  rw [entry_string, readNatural_ofNat ended, absent]
  rfl

theorem entry_end (absent : b.stop = none) (ended : Delimited rest) (n : UInt64) :
    entry b ((string "end").toList ++ ':' :: ((Decimal.ofNat n.toNat).toList ++ rest)) =
      .ok ({ b with stop := some n }, rest) := by
  rw [entry_string, readNatural_ofNat ended, absent]
  rfl

theorem ofMap_entries {key : String} {cs more : List Char} {b : Bounds} {w : WatchTime}
    (first : entry {} ((string key).toList ++ cs) = .ok (b, ',' :: more))
    (second : entry b more = .ok (⟨some w.start, some w.stop⟩, '\x7d' :: rest)) :
    ofMap ((string key).toList ++ cs) = .ok (w, rest) := by
  have quoted : (string key).toList ++ cs =
      '"' :: (key.toList.flatMap stringChar ++ '"' :: cs) := by
    simp [string, stringChars]
  have opening (cs : List Char) : skipBlanks ('"' :: cs) = '"' :: cs := rfl
  have comma : skipBlanks (',' :: more) = ',' :: more := rfl
  have brace : skipBlanks ('\x7d' :: rest) = '\x7d' :: rest := rfl
  rw [quoted] at first ⊢
  simp only [ofMap, opening, List.length_cons, entries, first, second, comma, brace, bind,
    Except.bind]
  rfl

theorem ofList_digits (w : WatchTime) (rest : List Char) :
    ofList ((Decimal.ofNat w.start.toNat).toList ++
      ',' :: ((Decimal.ofNat w.stop.toNat).toList ++ ']' :: rest)) = .ok (w, rest) := by
  have start := delimited_cons (c := ',') (.inl rfl)
    ((Decimal.ofNat w.stop.toNat).toList ++ ']' :: rest)
  have stop := delimited_cons (c := ']') (.inr (.inl rfl)) rest
  have scalar := readScalar_uint start.apart w.start
  have comma (cs : List Char) : skipBlanks (',' :: cs) = ',' :: cs := rfl
  have bracket : skipBlanks (']' :: rest) = ']' :: rest := rfl
  rw [ofList, skipBlanks_of_readScalar scalar]
  split
  · rename_i closed
    rw [closed] at scalar
    cases scalar
  · rw [readNatural_ofNat start]
    simp only [bind, Except.bind, comma, readNatural_ofNat stop, bracket]
    rfl

end WatchTimeText

end Json

namespace WatchTime

open Json

theorem ofJson_list (w : WatchTime) :
    ofJson (Property.list [.uint w.start, .uint w.stop]).toJson = .ok w := by
  have bounds := WatchTimeText.ofList_digits w []
  have opening (cs : List Char) : readHead ('[' :: cs) = .ok (.list [], cs) := rfl
  have text : (Property.list [.uint w.start, .uint w.stop]).toJson.toList =
      '[' :: ((Decimal.ofNat w.start.toNat).toList ++
        ',' :: ((Decimal.ofNat w.stop.toNat).toList ++ [']'])) := by
    simp [Property.toJson, compact, compactItems, scalar]
  simp only [ofJson, text, opening, bind, Except.bind, bounds]
  rfl

theorem ofJson_pair {first second : String} {m n : UInt64} {b : WatchTimeText.Bounds}
    {w : WatchTime}
    (front : ∀ rest, Delimited rest → WatchTimeText.entry {}
      ((string first).toList ++ ':' :: ((Decimal.ofNat m.toNat).toList ++ rest)) = .ok (b, rest))
    (back : ∀ rest, Delimited rest → WatchTimeText.entry b
      ((string second).toList ++ ':' :: ((Decimal.ofNat n.toNat).toList ++ rest)) =
        .ok (⟨some w.start, some w.stop⟩, rest)) :
    ofJson (Property.map [(first, .uint m), (second, .uint n)]).toJson = .ok w := by
  have opening (cs : List Char) : readHead ('\x7b' :: cs) = .ok (.map [], cs) := rfl
  have text : (Property.map [(first, .uint m), (second, .uint n)]).toJson.toList =
      '\x7b' :: ((string first).toList ++ ':' :: ((Decimal.ofNat m.toNat).toList ++
        ',' :: ((string second).toList ++ ':' :: ((Decimal.ofNat n.toNat).toList ++
          ['\x7d'])))) := by
    simp [Property.toJson, compact, compactEntries, scalar]
  have bounds := WatchTimeText.ofMap_entries (front _ (delimited_cons (.inl rfl) _))
    (back _ (delimited_cons (.inr (.inr rfl)) []))
  simp only [ofJson, text, opening, bind, Except.bind, bounds]
  rfl

theorem ofJson_map {w : WatchTime} {es : PropertyMap}
    (order : es.Perm [("start", .uint w.start), ("end", .uint w.stop)]) :
    ofJson (Property.map es).toJson = .ok w := by
  rcases List.perm_pair.mp order with rfl | rfl
  · exact ofJson_pair (fun _ ended => WatchTimeText.entry_start rfl ended w.start)
      (fun _ ended => WatchTimeText.entry_end rfl ended w.stop)
  · exact ofJson_pair (fun _ ended => WatchTimeText.entry_end rfl ended w.stop)
      (fun _ ended => WatchTimeText.entry_start rfl ended w.start)

/-- Every interval is decoded from JSON, its bounds in a map in either order or in a list, but only
an ordered one is spelled by an expression: its text is read again, and the text of any other is
refused. -/
theorem ofJson_unchecked (w : WatchTime) :
    (∀ es, es.Perm [("start", .uint w.start), ("end", .uint w.stop)] →
      ofJson (Property.map es).toJson = .ok w) ∧
    ofJson (Property.list [.uint w.start, .uint w.stop]).toJson = .ok w ∧
    ((∃ s, parse s = .ok w) ↔ w.start ≤ w.stop) ∧
    parse w.text = if w.start ≤ w.stop then .ok w else .error (.inverted w.start w.stop) := by
  refine ⟨fun es => ofJson_map, ofJson_list w, ?_, parse_text_eq w⟩
  constructor
  · rintro ⟨s, read⟩
    exact parse_ordered read
  · intro ordered
    exact ⟨w.text, parse_text ordered⟩

/-- An interval that ends before it starts. -/
theorem ofJson_unchecked_inverted :
    let w : WatchTime := ⟨5, 2⟩
    let es : PropertyMap := [("start", .uint 5), ("end", .uint 2)]
    es.Perm [("start", .uint w.start), ("end", .uint w.stop)] ∧
      (Property.map es).toJson = "\x7b\"start\":5,\"end\":2\x7d" ∧
      ofJson (Property.map es).toJson = .ok w ∧ parse w.text = .error (.inverted 5 2) := by
  intro w es
  have order : es.Perm [("start", .uint w.start), ("end", .uint w.stop)] := .refl _
  obtain ⟨decoded, _, _, text⟩ := ofJson_unchecked w
  exact ⟨order, by decide +kernel, decoded es order, text⟩

end WatchTime

end Deployment
