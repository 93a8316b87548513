import Deployment.Proofs.JsonFloats
import Deployment.Proofs.JsonReading

namespace Deployment

namespace Json

/-- Whether a reader finds a part at the beginning of a text, whatever may follow a value. Blanks
after the part may be left over. -/
def Reads {α : Type} (read : List Char → Option (α × List Char)) (text : List Char) (x : α) :
    Prop :=
  ∀ rest, Apart rest →
    ∃ tail, read (text ++ rest) = some (x, tail) ∧ skipBlanks tail = skipBlanks rest

theorem Reads.delimited {α : Type} {read : List Char → Option (α × List Char)} {text : List Char}
    {x : α} (reads : Reads read text x) {rest : List Char} (ended : Delimited rest) :
    ∃ tail, read (text ++ rest) = some (x, tail) ∧ skipBlanks tail = rest := by
  obtain ⟨tail, found, left⟩ := reads rest ended.apart
  exact ⟨tail, found, left.trans (skipBlanks_delimited ended)⟩

theorem reads_of_readScalar {text : List Char} {p : Property} {depth : Nat}
    (found : ∀ rest, Apart rest → readScalar (text ++ rest) = some (p, rest)) :
    Reads (readTree depth) text p := by
  intro rest ended
  have scalar := found rest ended
  refine ⟨rest, readTree_of_readScalar ?_ depth, rfl⟩
  rwa [skipBlanks_of_readScalar scalar]

section Parts

variable {α : Type} {part : List Char → Option (α × List Char)}

/-- A text of one or more parts with commas between them. -/
inductive Spelled (part : List Char → Option (α × List Char)) : List Char → List α → Prop where
  | last {text : List Char} {x : α} (found : Reads part text x) : Spelled part text [x]
  | more {text others : List Char} {x : α} {xs : List α} (found : Reads part text x)
      (later : Spelled part others xs) : Spelled part (text ++ ',' :: others) (x :: xs)

theorem Spelled.length_le {text : List Char} {xs : List α} (spelled : Spelled part text xs) :
    xs.length ≤ text.length + 1 := by
  induction spelled with
  | last found => simp
  | more found later ih =>
    simp only [List.length_cons, List.length_append]
    omega

variable {close : Char} (mark : close = ']' ∨ close = '\x7d')

include mark

theorem readParts_spelled {text : List Char} {xs : List α} (spelled : Spelled part text xs)
    {fuel : Nat} (enough : xs.length ≤ fuel) (rest : List Char) :
    readParts close part fuel (text ++ close :: rest) = some (xs, rest) := by
  have apart : close ≠ ',' := by
    rcases mark with rfl | rfl <;> decide
  induction spelled generalizing fuel with
  | last found =>
    obtain ⟨fuel, rfl⟩ := Nat.exists_eq_add_of_le' enough
    obtain ⟨tail, read, left⟩ := found.delimited (delimited_cons (.inr mark) rest)
    simp [readParts, read, left, apart]
  | @more text others x xs found later ih =>
    obtain ⟨fuel, rfl⟩ : ∃ n, fuel = n + 1 := Nat.exists_eq_add_of_le' (Nat.one_le_of_lt enough)
    obtain ⟨tail, read, left⟩ :=
      found.delimited (delimited_cons (.inl rfl) (others ++ close :: rest))
    have next := ih (Nat.le_of_succ_le_succ enough)
    rw [List.append_assoc, List.cons_append, readParts, read]
    simp [left, next]

/-- The parts are read one after the other when none of them begins with the closing mark. -/
theorem readAll_spelled {text : List Char} {xs : List α} (spelled : Spelled part text xs)
    (opens : ∀ cs x tail, part cs = some (x, tail) →
      ∃ c more, skipBlanks cs = c :: more ∧ c ≠ close)
    (rest : List Char) : readAll close part (text ++ close :: rest) = some (xs, rest) := by
  have enough : xs.length ≤ (text ++ close :: rest).length := by
    have bound := spelled.length_le
    simp only [List.length_append, List.length_cons]
    omega
  -- A first part can be read, so the text does not begin with the closing mark.
  have first : ∃ x tail, part (text ++ close :: rest) = some (x, tail) := by
    cases spelled with
    | last found =>
      obtain ⟨tail, read, _⟩ := found.delimited (delimited_cons (.inr mark) rest)
      exact ⟨_, tail, read⟩
    | more found later =>
      obtain ⟨tail, read, _⟩ := found.delimited (delimited_cons (.inl rfl) (_ ++ close :: rest))
      exact ⟨_, tail, by simpa using read⟩
  obtain ⟨x, tail, read⟩ := first
  obtain ⟨c, more, starts, other⟩ := opens _ _ _ read
  simp only [readAll, starts, if_neg other]
  exact readParts_spelled mark spelled enough rest

end Parts

theorem readTree_list {depth : Nat} {items : List Property} {cs rest : List Char}
    (read : readAll ']' (readTree depth) cs = some (items, rest)) :
    readTree (depth + 1) ('[' :: cs) = some (.list items, rest) := by
  have opening : skipBlanks ('[' :: cs) = '[' :: cs := rfl
  simp only [readTree, opening, read]
  rfl

theorem readTree_map {depth : Nat} {es : List (String × Property)} {cs rest : List Char}
    (read : readAll '\x7d' (readEntry depth) cs = some (es, rest)) :
    readTree (depth + 1) ('\x7b' :: cs) = some (.map (collect es), rest) := by
  have opening : skipBlanks ('\x7b' :: cs) = '\x7b' :: cs := rfl
  unfold readEntry at read
  simp only [readTree, opening, read]
  rfl

theorem readKey_string (key : String) (rest : List Char) :
    readKey ((string key).toList ++ ':' :: rest) = some (key, rest) := by
  have text := readText_flatMap key.toList (':' :: rest)
  have opening (cs : List Char) : skipBlanks ('"' :: cs) = '"' :: cs := rfl
  have colon : skipBlanks (':' :: rest) = ':' :: rest := rfl
  rw [string, String.toList_ofList, stringChars, List.append_assoc, List.cons_append,
    List.singleton_append]
  simp only [readKey, opening, text, Option.bind_some, colon]
  rw [String.ofList_toList]

theorem reads_entry {depth : Nat} {text : List Char} {p : Property}
    (value : Reads (readTree depth) text p) (key : String) :
    Reads (readEntry depth) ((string key).toList ++ ':' :: text) (key, p) := by
  intro rest ended
  obtain ⟨tail, read, left⟩ := value rest ended
  refine ⟨tail, ?_, left⟩
  rw [List.append_assoc, List.cons_append]
  simp only [readEntry, readKey_string, Option.bind_some, read]
  rfl

theorem collect_of_nodup {es : List (String × Property)} (distinct : (PropertyMap.keys es).Nodup) :
    collect es = es := by
  induction es using List.reverseRecOn with
  | nil => rfl
  | append_singleton front e ih =>
    rw [PropertyMap.keys_append, List.nodup_append'] at distinct
    have fresh : e.1 ∉ PropertyMap.keys front := by
      intro member
      exact distinct.2.2 member List.mem_cons_self
    rw [collect_append_single, ih distinct.1, PropertyMap.insert_new fresh]

theorem opens_readTree {depth : Nat} {cs tail : List Char} {p : Property}
    (found : readTree depth cs = some (p, tail)) :
    ∃ c more, skipBlanks cs = c :: more ∧ c ≠ ']' := by
  have refused (found : readScalar (skipBlanks cs) = some (p, tail)) :
      ∃ c more, skipBlanks cs = c :: more ∧ c ≠ ']' := by
    cases start : skipBlanks cs with
    | nil =>
      rw [start] at found
      cases found
    | cons c more =>
      refine ⟨c, more, rfl, ?_⟩
      rintro rfl
      rw [start] at found
      cases found
  cases depth with
  | zero => exact refused found
  | succ depth =>
    rcases readTree_cases found with scalar | ⟨rest, _, bracket, _⟩ | ⟨rest, _, brace, _⟩
    · exact refused scalar
    · exact ⟨'[', rest, bracket, by decide⟩
    · exact ⟨'\x7b', rest, brace, by decide⟩

theorem opens_readEntry {depth : Nat} {cs tail : List Char} {e : String × Property}
    (found : readEntry depth cs = some (e, tail)) :
    ∃ c more, skipBlanks cs = c :: more ∧ c ≠ '\x7d' := by
  obtain ⟨⟨key, rest⟩, read, _⟩ := Option.bind_eq_some_iff.mp found
  unfold readKey at read
  split at read
  · rename_i more quote
    exact ⟨'"', more, quote, by decide⟩
  · cases read

end Json

namespace Property

mutual
/-- What comes back of a tree from its JSON text: what is no finite number is null, and an unsigned
integer is signed where a signed word holds it. -/
def jsonForm : Property → Property
  | .uint n => if Int64.maxValue.toInt < n.toNat then .uint n else .int (Int64.ofNat n.toNat)
  | .float f => if f.isFinite then .float f else .null
  | .list items => .list (jsonItems items)
  | .map es => .map (jsonEntries es)
  | p => p

def jsonItems : List Property → List Property
  | [] => []
  | p :: rest => p.jsonForm :: jsonItems rest

def jsonEntries : PropertyMap → PropertyMap
  | [] => []
  | (k, p) :: rest => (k, p.jsonForm) :: jsonEntries rest
end

mutual
/-- How many lists and maps lie inside one another. -/
def depth : Property → Nat
  | .list items => depthOfItems items + 1
  | .map es => depthOfEntries es + 1
  | _ => 0

def depthOfItems : List Property → Nat
  | [] => 0
  | p :: rest => max p.depth (depthOfItems rest)

def depthOfEntries : PropertyMap → Nat
  | [] => 0
  | (_, p) :: rest => max p.depth (depthOfEntries rest)
end

theorem depthOfItems_le_iff {items : List Property} {n : Nat} :
    depthOfItems items ≤ n ↔ ∀ p ∈ items, p.depth ≤ n := by
  induction items with
  | nil => simp [depthOfItems]
  | cons p rest ih => rw [depthOfItems, Nat.max_le, ih, List.forall_mem_cons]

theorem depthOfEntries_le_iff {m : PropertyMap} {n : Nat} :
    depthOfEntries m ≤ n ↔ ∀ e ∈ m, e.2.depth ≤ n := by
  induction m with
  | nil => simp [depthOfEntries]
  | cons e rest ih => rw [depthOfEntries, Nat.max_le, ih, List.forall_mem_cons]

theorem keys_jsonEntries (m : PropertyMap) : (jsonEntries m).keys = m.keys := by
  induction m with
  | nil => rfl
  | cons e rest ih =>
    obtain ⟨key, p⟩ := e
    exact congrArg (key :: ·) ih

open Json (Reads Spelled readTree readEntry compact compactItems compactEntries)

theorem spelled_compactItems {depth : Nat} {items : List Property} (present : items ≠ [])
    (each : ∀ p ∈ items, Reads (readTree depth) (compact p).toList p.jsonForm) :
    Spelled (readTree depth) (compactItems items).toList (jsonItems items) := by
  induction items with
  | nil => exact absurd rfl present
  | cons p rest ih =>
    have head := each p List.mem_cons_self
    cases rest with
    | nil => exact .last head
    | cons q others =>
      have later : ∀ r ∈ q :: others, Reads (readTree depth) (compact r).toList r.jsonForm := by
        intro r member
        exact each r (List.mem_cons_of_mem _ member)
      have spelled := Spelled.more head (ih (by simp) later)
      simpa [compactItems, jsonItems] using spelled

theorem spelled_compactEntries {depth : Nat} {m : PropertyMap} (present : m ≠ [])
    (each : ∀ e ∈ m, Reads (readTree depth) (compact e.2).toList e.2.jsonForm) :
    Spelled (readEntry depth) (compactEntries m).toList (jsonEntries m) := by
  induction m with
  | nil => exact absurd rfl present
  | cons e rest ih =>
    obtain ⟨key, p⟩ := e
    have head := Json.reads_entry (each (key, p) List.mem_cons_self) key
    cases rest with
    | nil => simpa [compactEntries, jsonEntries] using Spelled.last head
    | cons f others =>
      have later : ∀ r ∈ f :: others,
          Reads (readTree depth) (compact r.2).toList r.2.jsonForm := by
        intro r member
        exact each r (List.mem_cons_of_mem _ member)
      have spelled := Spelled.more head (ih (by simp) later)
      simpa [compactEntries, jsonEntries] using spelled

theorem reads_list {depth : Nat} {items : List Property}
    (each : ∀ p ∈ items, Reads (readTree depth) (compact p).toList p.jsonForm) :
    Reads (readTree (depth + 1)) (compact (.list items)).toList (Property.list items).jsonForm := by
  intro rest ended
  refine ⟨rest, ?_, rfl⟩
  have text : (compact (.list items)).toList ++ rest =
      '[' :: ((compactItems items).toList ++ ']' :: rest) := by
    simp [compact]
  rw [text, jsonForm]
  by_cases empty : items = []
  · subst empty
    rfl
  · have spelled := spelled_compactItems empty each
    have read := Json.readAll_spelled (.inl rfl) spelled (fun _ _ _ => Json.opens_readTree) rest
    exact Json.readTree_list read

theorem reads_map {depth : Nat} {m : PropertyMap} (names : m.keys.Nodup)
    (each : ∀ e ∈ m, Reads (readTree depth) (compact e.2).toList e.2.jsonForm) :
    Reads (readTree (depth + 1)) (compact (.map m)).toList (Property.map m).jsonForm := by
  intro rest ended
  refine ⟨rest, ?_, rfl⟩
  have text : (compact (.map m)).toList ++ rest =
      '\x7b' :: ((compactEntries m).toList ++ '\x7d' :: rest) := by
    simp [compact]
  have kept : Json.collect (jsonEntries m) = jsonEntries m :=
    Json.collect_of_nodup (keys_jsonEntries m ▸ names)
  rw [text, jsonForm, ← kept]
  by_cases empty : m = []
  · subst empty
    rfl
  · have spelled := spelled_compactEntries empty each
    have read := Json.readAll_spelled (.inr rfl) spelled (fun _ _ _ => Json.opens_readEntry) rest
    exact Json.readTree_map read

/-- A way of writing trees can be read back when what is neither list nor map is written as a scalar,
and lists and maps are read as soon as their parts are. -/
theorem reads_written (write : Nat → Property → String)
    (scalars : ∀ column p, (∀ items, p ≠ .list items) → (∀ m, p ≠ .map m) →
      write column p = Json.scalar p)
    (lists : ∀ {depth column : Nat} {items : List Property},
      (∀ p ∈ items, Reads (readTree depth) (write (column + 1) p).toList p.jsonForm) →
        Reads (readTree (depth + 1)) (write column (.list items)).toList
          (Property.list items).jsonForm)
    (maps : ∀ {depth column : Nat} {m : PropertyMap}, m.keys.Nodup →
      (∀ e ∈ m, Reads (readTree depth) (write (column + 1) e.2).toList e.2.jsonForm) →
        Reads (readTree (depth + 1)) (write column (.map m)).toList (Property.map m).jsonForm)
    {p : Property} (distinct : p.DistinctNames) {depth : Nat} (shallow : p.depth ≤ depth)
    (floats : ∀ f, .float f ∈ p.parts → f.isFinite →
      ∃ q, ofJson (toJson (.float f)) = some q ∧ q.number? = some f) (column : Nat) :
    Reads (readTree depth) (write column p).toList p.jsonForm := by
  -- What lies inside a list or a map is read with a level less to go.
  induction p using inward generalizing depth column with
  | null =>
    rw [scalars column _ (by simp) (by simp)]
    exact Json.reads_of_readScalar fun _ _ => rfl
  | bool b =>
    rw [scalars column _ (by simp) (by simp)]
    cases b <;> exact Json.reads_of_readScalar fun _ _ => rfl
  | int i =>
    rw [scalars column _ (by simp) (by simp)]
    exact Json.reads_of_readScalar fun _ ended => Json.readScalar_int ended i
  | uint n =>
    rw [scalars column _ (by simp) (by simp), jsonForm]
    exact Json.reads_of_readScalar fun _ ended => Json.readScalar_uint ended n
  | float f =>
    have text : compact (.float f) = Json.float f := by simp [compact, Json.scalar]
    rw [scalars column _ (by simp) (by simp), jsonForm, Json.scalar]
    by_cases finite : f.isFinite = true
    · obtain ⟨q, found, number⟩ := floats f (mem_parts_self _) finite
      rw [toJson, text] at found
      rw [if_pos finite, ← Json.eq_float_of_number found number]
      intro rest ended
      exact Json.readTree_append_of_number found (by simp [number]) depth ended
    · rw [if_neg finite, Json.float, if_neg finite]
      exact Json.reads_of_readScalar fun _ _ => rfl
  | string s =>
    rw [scalars column _ (by simp) (by simp)]
    exact Json.reads_of_readScalar fun rest _ => Json.readScalar_string s rest
  | list items ih =>
    obtain ⟨depth, rfl⟩ : ∃ n, depth = n + 1 := Nat.exists_eq_add_of_le' (Nat.one_le_of_lt shallow)
    have inside := depthOfItems_le_iff.mp (Nat.le_of_succ_le_succ shallow)
    apply lists
    intro p member
    apply ih p member (eachMap_list.mp distinct p member) (inside p member)
    intro f within
    exact floats f (mem_parts_list.mpr (.inr ⟨p, member, within⟩))
  | map m ih =>
    obtain ⟨depth, rfl⟩ : ∃ n, depth = n + 1 := Nat.exists_eq_add_of_le' (Nat.one_le_of_lt shallow)
    have inside := depthOfEntries_le_iff.mp (Nat.le_of_succ_le_succ shallow)
    obtain ⟨names, values⟩ := eachMap_map.mp distinct
    apply maps names
    intro e member
    apply ih e member (values e member) (inside e member)
    intro f within
    exact floats f (mem_parts_map.mpr (.inr ⟨e, member, within⟩))

theorem compact_of_scalar {p : Property} (noList : ∀ items, p ≠ .list items)
    (noMap : ∀ m, p ≠ .map m) : compact p = Json.scalar p := by
  cases p with
  | list items => exact absurd rfl (noList items)
  | map m => exact absurd rfl (noMap m)
  | _ => simp [compact]

theorem ofJson_of_reads {text : String} {p : Property}
    (reads : Reads (readTree Json.depthLimit) text.toList p) : ofJson text = some p := by
  obtain ⟨tail, read, left⟩ := reads.delimited Json.delimited_nil
  rw [List.append_nil] at read
  have finished : Json.atEnd tail = true := by simp [Json.atEnd, left]
  simp only [ofJson, read, if_pos finished]

/-- A tree that is written as JSON and read again comes back in its JSON form. What is assumed of a
finite float is that its text, read on its own, spells this number. -/
theorem ofJson_toJson {p : Property} (distinct : p.DistinctNames)
    (shallow : p.depth ≤ Json.depthLimit)
    (floats : ∀ f, .float f ∈ p.parts → f.isFinite →
      ∃ q, ofJson (toJson (.float f)) = some q ∧ q.number? = some f) :
    ofJson p.toJson = some p.jsonForm := by
  apply ofJson_of_reads
  exact reads_written (fun _ => compact) (fun _ _ => compact_of_scalar) reads_list reads_map distinct
    shallow floats 0

/-- A whole float, what is not a number, integers on either side of the greatest signed one, a
string with escapes, and collections without anything in them. -/
theorem ofJson_toJson_mixed :
    let p : Property := .map [("f", .list [.float 2.0, .float (0.0 / 0.0)]),
      ("\"\n", .list [.uint 7, .uint 9223372036854775808, .int (-1)]),
      ("e", .list [.list [], .map [], .string "\u0001\\é"])]
    p.DistinctNames ∧ p.depth ≤ Json.depthLimit ∧
      (∀ f, .float f ∈ p.parts → f.isFinite →
        ∃ q, ofJson (toJson (.float f)) = some q ∧ q.number? = some f) ∧
      ofJson p.toJson = some (.map [("f", .list [.float 2.0, .null]),
        ("\"\n", .list [.int 7, .uint 9223372036854775808, .int (-1)]),
        ("e", .list [.list [], .map [], .string "\u0001\\é"])]) := by
  intro p
  have distinct : p.DistinctNames := by
    simp [p, DistinctNames, EachMap, parts, partsOfItems, partsOfEntries, PropertyMap.keys]
  have shallow : p.depth ≤ Json.depthLimit := by decide
  have infinite : (0.0 / 0.0 : Float).isFinite = false := by decide +kernel
  have finite : (2.0 : Float).isFinite = true := by decide +kernel
  have floats : ∀ f, .float f ∈ p.parts → f.isFinite →
      ∃ q, ofJson (toJson (.float f)) = some q ∧ q.number? = some f := by
    intro f member whole
    have which : f = 2.0 ∨ f = 0.0 / 0.0 := by
      simpa [p, parts, partsOfItems, partsOfEntries] using member
    rcases which with rfl | rfl
    · have back : ((ofJson (toJson (.float 2.0))).bind number?) = some 2.0 := by decide +kernel
      exact Option.bind_eq_some_iff.mp back
    · simp [infinite] at whole
  have small : ¬ Int64.maxValue.toInt < (7 : UInt64).toNat := by decide
  have large : Int64.maxValue.toInt < (9223372036854775808 : UInt64).toNat := by decide
  refine ⟨distinct, shallow, floats, ?_⟩
  rw [ofJson_toJson distinct shallow floats]
  simp only [p, jsonForm, jsonItems, jsonEntries, infinite, finite, if_neg small, if_pos large]
  rfl

end Property

end Deployment
