import Deployment.Proofs.Attachments
import Deployment.Proofs.JsonRoundTrip
import Deployment.Proofs.ParsedBlock
import Deployment.Proofs.ReorderedManifests

/-!
The text that a template finds its context in. JSON text with one entry per line is read as the
same tree as that on one line, and from this tree the context is had back field by field.
-/

namespace Deployment

namespace Json

section Blanks

variable {blanks : List Char} (blank : skipBlanks blanks = [])

include blank

theorem Apart.after_blanks {rest : List Char} (ended : Apart rest) : Apart (blanks ++ rest) := by
  cases blanks with
  | nil => exact ended
  | cons c others =>
    intro d first
    obtain rfl : c = d := Option.some.inj first
    have white := List.dropWhile_eq_nil_iff.mp blank c List.mem_cons_self
    simp only [Bool.or_eq_true, decide_eq_true_eq] at white
    rcases white with ((rfl | rfl) | rfl) | rfl <;> decide

theorem Reads.before_blanks {α : Type} {read : List Char → Option (α × List Char)}
    {text : List Char} {x : α} (reads : Reads read text x) : Reads read (text ++ blanks) x := by
  intro rest ended
  obtain ⟨tail, found, left⟩ := reads (blanks ++ rest) (ended.after_blanks blank)
  refine ⟨tail, ?_, left.trans (skipBlanks_append_of_nil blank rest)⟩
  rw [List.append_assoc, found]

theorem Spelled.before_blanks {α : Type} {part : List Char → Option (α × List Char)}
    {text : List Char} {xs : List α} (spelled : Spelled part text xs) :
    Spelled part (text ++ blanks) xs := by
  induction spelled with
  | last found => exact .last (found.before_blanks blank)
  | more found later ih =>
    rw [List.append_assoc, List.cons_append]
    exact .more found ih

theorem Reads.after_blanks {α : Type} {read : List Char → Option (α × List Char)}
    (ignored : ∀ cs, read (skipBlanks cs) = read cs) {text : List Char} {x : α}
    (reads : Reads read text x) : Reads read (blanks ++ text) x := by
  intro rest ended
  obtain ⟨tail, found, left⟩ := reads rest ended
  refine ⟨tail, ?_, left⟩
  rw [List.append_assoc, ← ignored, skipBlanks_append_of_nil blank, ignored, found]

end Blanks

theorem skipBlanks_skipBlanks (cs : List Char) : skipBlanks (skipBlanks cs) = skipBlanks cs :=
  List.dropWhile_idempotent _ _

theorem readTree_skipBlanks (depth : Nat) (cs : List Char) :
    readTree depth (skipBlanks cs) = readTree depth cs := by
  cases depth <;> simp only [readTree, skipBlanks_skipBlanks]

theorem readEntry_skipBlanks (depth : Nat) (cs : List Char) :
    readEntry depth (skipBlanks cs) = readEntry depth cs := by
  simp only [readEntry, readKey, skipBlanks_skipBlanks]

theorem skipBlanks_newline (column : Nat) : skipBlanks (newline column).toList = [] := by
  apply List.dropWhile_eq_nil_iff.mpr
  intro c member
  have which : c = '\n' ∨ c = ' ' := by
    have spelled : (newline column).toList = '\n' :: List.replicate (2 * column) ' ' := by
      simp [newline]
    rw [spelled] at member
    exact (List.mem_cons.mp member).imp_right List.eq_of_mem_replicate
  rcases which with rfl | rfl <;> decide

end Json

namespace Property

open Json (Reads Spelled readTree readEntry newline pretty prettyItems prettyEntries)

theorem pretty_of_scalar (column : Nat) {p : Property} (noList : ∀ items, p ≠ .list items)
    (noMap : ∀ m, p ≠ .map m) : pretty column p = Json.scalar p := by
  cases p with
  | list items => exact absurd rfl (noList items)
  | map m => exact absurd rfl (noMap m)
  | _ => simp [pretty]

section Lines

variable {depth column : Nat}

theorem spelled_prettyItems {items : List Property} (present : items ≠ [])
    (each : ∀ p ∈ items, Reads (readTree depth) (pretty column p).toList p.jsonForm) :
    Spelled (readTree depth) (prettyItems column items).toList (jsonItems items) := by
  induction items with
  | nil => exact absurd rfl present
  | cons p rest ih =>
    have head := (each p List.mem_cons_self).after_blanks (Json.skipBlanks_newline column)
      (Json.readTree_skipBlanks depth)
    cases rest with
    | nil => simpa [prettyItems, jsonItems] using Spelled.last head
    | cons q others =>
      have later : ∀ r ∈ q :: others,
          Reads (readTree depth) (pretty column r).toList r.jsonForm := by
        intro r member
        exact each r (List.mem_cons_of_mem _ member)
      have spelled := Spelled.more head (ih (by simp) later)
      simpa [prettyItems, jsonItems] using spelled

theorem spelled_prettyEntries {m : PropertyMap} (present : m ≠ [])
    (each : ∀ e ∈ m, Reads (readTree depth) (pretty column e.2).toList e.2.jsonForm) :
    Spelled (readEntry depth) (prettyEntries column m).toList (jsonEntries m) := by
  induction m with
  | nil => exact absurd rfl present
  | cons e rest ih =>
    obtain ⟨key, p⟩ := e
    have value : Reads (readTree depth) ([' '] ++ (pretty column p).toList) p.jsonForm :=
      (each (key, p) List.mem_cons_self).after_blanks rfl
        (Json.readTree_skipBlanks depth)
    have head := (Json.reads_entry value key).after_blanks (Json.skipBlanks_newline column)
      (Json.readEntry_skipBlanks depth)
    cases rest with
    | nil => simpa [prettyEntries, jsonEntries] using Spelled.last head
    | cons f others =>
      have later : ∀ r ∈ f :: others,
          Reads (readTree depth) (pretty column r.2).toList r.2.jsonForm := by
        intro r member
        exact each r (List.mem_cons_of_mem _ member)
      have spelled := Spelled.more head (ih (by simp) later)
      simpa [prettyEntries, jsonEntries] using spelled

theorem reads_prettyList {items : List Property}
    (each : ∀ p ∈ items, Reads (readTree depth) (pretty (column + 1) p).toList p.jsonForm) :
    Reads (readTree (depth + 1)) (pretty column (.list items)).toList
      (Property.list items).jsonForm := by
  intro rest ended
  refine ⟨rest, ?_, rfl⟩
  by_cases empty : items = []
  · have text : (pretty column (.list [])).toList = ['[', ']'] := by simp [pretty]
    rw [empty, text]
    rfl
  -- The line break before the closing mark is left over by the last item.
  · have spelled := (spelled_prettyItems empty each).before_blanks (Json.skipBlanks_newline column)
    have read := Json.readAll_spelled (.inl rfl) spelled (fun _ _ _ => Json.opens_readTree) rest
    have text : (pretty column (.list items)).toList ++ rest = '[' ::
        ((prettyItems (column + 1) items).toList ++ (newline column).toList ++ ']' :: rest) := by
      cases items with
      | nil => exact absurd rfl empty
      | cons p others => simp [pretty]
    rw [text, jsonForm]
    exact Json.readTree_list read

theorem reads_prettyMap {m : PropertyMap} (names : m.keys.Nodup)
    (each : ∀ e ∈ m, Reads (readTree depth) (pretty (column + 1) e.2).toList e.2.jsonForm) :
    Reads (readTree (depth + 1)) (pretty column (.map m)).toList (Property.map m).jsonForm := by
  intro rest ended
  refine ⟨rest, ?_, rfl⟩
  have kept : Json.collect (jsonEntries m) = jsonEntries m :=
    Json.collect_of_nodup (keys_jsonEntries m ▸ names)
  by_cases empty : m = []
  · have text : (pretty column (.map [])).toList = ['\x7b', '\x7d'] := by simp [pretty]
    rw [empty, text]
    rfl
  · have spelled :=
      (spelled_prettyEntries empty each).before_blanks (Json.skipBlanks_newline column)
    have read := Json.readAll_spelled (.inr rfl) spelled (fun _ _ _ => Json.opens_readEntry) rest
    have text : (pretty column (.map m)).toList ++ rest = '\x7b' ::
        ((prettyEntries (column + 1) m).toList ++ (newline column).toList ++ '\x7d' :: rest) := by
      cases m with
      | nil => exact absurd rfl empty
      | cons e others => simp [pretty]
    rw [text, jsonForm, ← kept]
    exact Json.readTree_map read

end Lines

/-- Line breaks and indentation do not change what a JSON text is read as. -/
theorem ofJson_toJsonPretty {p : Property} (distinct : p.DistinctNames)
    (shallow : p.depth ≤ Json.depthLimit)
    (floats : ∀ f, .float f ∈ p.parts → f.isFinite →
      ∃ q, ofJson (toJson (.float f)) = some q ∧ q.number? = some f) :
    ofJson p.toJsonPretty = some p.jsonForm := by
  apply ofJson_of_reads
  exact reads_written pretty (fun column _ => pretty_of_scalar column) reads_prettyList
    reads_prettyMap distinct shallow floats 0

/-- An unsigned word, which may have come back signed. -/
def asUInt64? : Property → Option UInt64
  | .int i => if 0 ≤ i then some (UInt64.ofNat i.toInt.toNat) else none
  | .uint n => some n
  | _ => none

def asOptionalText? : Property → Option (Option String)
  | .null => some none
  | p => p.asString?.map some

def asTexts? (p : Property) : Option (List String) :=
  p.asList?.bind (·.mapM asString?)

theorem asUInt64?_jsonForm (n : UInt64) : (Property.uint n).jsonForm.asUInt64? = some n := by
  have greatest : Int64.maxValue.toInt = 0x7fffffffffffffff := by decide
  rw [jsonForm, greatest]
  by_cases large : (0x7fffffffffffffff : Int) < n.toNat
  · rw [if_pos large]
    rfl
  · have value : (Int64.ofNat n.toNat).toInt = n.toNat := Int64.toInt_ofNat_of_lt (by omega)
    have natural : (0 : Int64) ≤ Int64.ofNat n.toNat := by
      rw [Int64.le_iff_toInt_le, value]
      simp
    rw [if_neg large]
    simp only [asUInt64?, if_pos natural, value]
    simp

theorem jsonForm_ofText? (s : Option String) : (ofText? s).jsonForm = ofText? s := by
  cases s <;> simp [ofText?, jsonForm]

theorem asOptionalText?_ofText? (s : Option String) : (ofText? s).asOptionalText? = some s := by
  cases s <;> rfl

theorem jsonForm_ofTexts (texts : List String) : (ofTexts texts).jsonForm = ofTexts texts := by
  have each : jsonItems (texts.map .string) = texts.map .string := by
    induction texts with
    | nil => rfl
    | cons s rest ih => simp [jsonItems, jsonForm, ih]
  rw [ofTexts, jsonForm, each]

theorem asTexts?_ofTexts (texts : List String) : (ofTexts texts).asTexts? = some texts := by
  have each : (texts.map Property.string).mapM asString? = some texts := by
    induction texts with
    | nil => rfl
    | cons s rest ih => simp [asString?, ih]
  exact each

end Property

namespace NetworkContext

def ofProperty? (p : Property) : Option NetworkContext := do
  let m ← p.asMap?
  return {
    ip := ← (← m.get? "ip").asOptionalText?
    netmask := ← (← m.get? "netmask").asOptionalText?
    gateway := ← (← m.get? "gateway").asOptionalText?
    dns := ← (← m.get? "dns").asTexts?
    default := (← (← m.get? "default").asTexts?).map (⟨·⟩) }

theorem jsonForm_toProperty (n : NetworkContext) : n.toProperty.jsonForm = n.toProperty := by
  simp only [toProperty, Property.jsonForm, Property.jsonEntries, Property.jsonForm_ofText?,
    Property.jsonForm_ofTexts]

theorem ofProperty?_toProperty (n : NetworkContext) : ofProperty? n.toProperty = some n := by
  have roles : (n.default.map (·.text)).map (fun text => (⟨text⟩ : NetworkDefault)) =
      n.default := by
    rw [List.map_map]
    exact List.map_id _
  simp only [ofProperty?, toProperty, PropertyMap.get?_cons, String.reduceEq, if_true, if_false,
    Property.asMap?, Property.asOptionalText?_ofText?, Property.asTexts?_ofTexts, roles,
    Option.bind_eq_bind, Option.bind_some, Option.pure_def]

theorem part_toProperty {n : NetworkContext} {q : Property} (part : q ∈ n.toProperty.parts) :
    q = n.toProperty ∨ q = .null ∨ (∃ s, q = .string s) ∨ ∃ items, q = .list items := by
  have text {s : Option String} (within : q ∈ (Property.ofText? s).parts) :
      q = .null ∨ ∃ s, q = .string s := by
    cases s with
    | none => exact .inl (List.mem_singleton.mp within)
    | some s => exact .inr ⟨s, List.mem_singleton.mp within⟩
  have texts {ss : List String} (within : q ∈ (Property.ofTexts ss).parts) :
      (∃ items, q = .list items) ∨ ∃ s, q = .string s := by
    rcases Property.mem_parts_list.mp within with rfl | ⟨p, member, within⟩
    · exact .inl ⟨_, rfl⟩
    · obtain ⟨s, _, rfl⟩ := List.mem_map.mp member
      exact .inr ⟨s, List.mem_singleton.mp within⟩
  rcases Property.mem_parts_map.mp part with whole | ⟨e, member, within⟩
  · exact .inl whole
  · simp only [List.mem_cons, List.not_mem_nil, or_false] at member
    rcases member with rfl | rfl | rfl | rfl | rfl
    · exact .inr ((text within).imp_right .inl)
    · exact .inr ((text within).imp_right .inl)
    · exact .inr ((text within).imp_right .inl)
    · exact .inr (.inr (texts within).symm)
    · exact .inr (.inr (texts within).symm)

theorem distinctNames_toProperty (n : NetworkContext) : n.toProperty.DistinctNames := by
  intro q part m same
  rcases part_toProperty part with rfl | rfl | ⟨s, rfl⟩ | ⟨items, rfl⟩
  · cases same
    rw [PropertyMap.keys]
    simp
  · cases same
  · cases same
  · cases same

theorem depth_toProperty (n : NetworkContext) : n.toProperty.depth = 2 := by
  have text (s : Option String) : (Property.ofText? s).depth = 0 := by cases s <;> rfl
  have texts (ss : List String) : (Property.ofTexts ss).depth = 1 := by
    have items : Property.depthOfItems (ss.map .string) ≤ 0 := by
      rw [Property.depthOfItems_le_iff, List.forall_mem_map]
      intro s _
      exact Nat.zero_le _
    rw [Property.ofTexts, Property.depth, Nat.le_zero.mp items]
  simp [toProperty, Property.depth, Property.depthOfEntries, text, texts]

end NetworkContext

namespace EvaluationContext

def ofProperty? (p : Property) : Option EvaluationContext := do
  let m ← p.asMap?
  let networks ← (← m.get? "networks").asMap?
  return {
    deployment := ← (← m.get? "deployment").asString?
    jobName := ← (← m.get? "job_name").asString?
    index := ← (← m.get? "index").asUInt64?
    properties := ← (← m.get? "properties").asMap?
    networks := ← networks.mapM fun e => (NetworkContext.ofProperty? e.2).map (e.1, ·) }

def networkTrees (c : EvaluationContext) : PropertyMap :=
  c.networks.map fun e => (e.1, e.2.toProperty)

theorem jsonEntries_networkTrees (c : EvaluationContext) :
    Property.jsonEntries c.networkTrees = c.networkTrees := by
  unfold networkTrees
  induction c.networks with
  | nil => rfl
  | cons e rest ih =>
    rw [List.map_cons, Property.jsonEntries, NetworkContext.jsonForm_toProperty, ih]

theorem ofProperty?_jsonForm (c : EvaluationContext) : ofProperty? c.toProperty.jsonForm =
    some { c with properties := Property.jsonEntries c.properties } := by
  have written : c.toProperty.jsonForm = .map [
      ("deployment", .string c.deployment),
      ("job_name", .string c.jobName),
      ("index", (Property.uint c.index).jsonForm),
      ("properties", .map (Property.jsonEntries c.properties)),
      ("networks", .map c.networkTrees)] := by
    have networks := c.jsonEntries_networkTrees
    rw [networkTrees] at networks
    simp only [toProperty, Property.jsonForm, Property.jsonEntries, networkTrees, networks]
  have networks : c.networkTrees.mapM
      (fun e => (NetworkContext.ofProperty? e.2).map (e.1, ·)) = some c.networks := by
    unfold networkTrees
    induction c.networks with
    | nil => rfl
    | cons e rest ih => simp [NetworkContext.ofProperty?_toProperty, ih]
  rw [written]
  simp only [ofProperty?, PropertyMap.get?_cons, String.reduceEq, if_true, if_false,
    Property.asMap?, Property.asString?, Property.asUInt64?_jsonForm, networks,
    Option.bind_eq_bind, Option.bind_some, Option.pure_def]

theorem part_toProperty {c : EvaluationContext} {q : Property} (part : q ∈ c.toProperty.parts) :
    q = c.toProperty ∨ (∃ s, q = .string s) ∨ q = .uint c.index ∨
      q ∈ (Property.map c.properties).parts ∨ q = .map c.networkTrees ∨
      ∃ n : NetworkContext, q ∈ n.toProperty.parts := by
  rcases Property.mem_parts_map.mp part with whole | ⟨e, member, within⟩
  · exact .inl whole
  · simp only [List.mem_cons, List.not_mem_nil, or_false] at member
    rcases member with rfl | rfl | rfl | rfl | rfl
    · exact .inr (.inl ⟨_, List.mem_singleton.mp within⟩)
    · exact .inr (.inl ⟨_, List.mem_singleton.mp within⟩)
    · exact .inr (.inr (.inl (List.mem_singleton.mp within)))
    · exact .inr (.inr (.inr (.inl within)))
    · rcases Property.mem_parts_map.mp within with all | ⟨e, member, inside⟩
      · exact .inr (.inr (.inr (.inr (.inl all))))
      · obtain ⟨f, _, rfl⟩ := List.mem_map.mp member
        exact .inr (.inr (.inr (.inr (.inr ⟨f.2, inside⟩))))

variable {c : EvaluationContext}

theorem distinctNames_toProperty (networks : (c.networks.map (·.1)).Nodup)
    (properties : (Property.map c.properties).DistinctNames) : c.toProperty.DistinctNames := by
  intro q part m same
  rcases part_toProperty part with rfl | ⟨s, rfl⟩ | rfl | inside | rfl | ⟨n, inside⟩
  · cases same
    rw [PropertyMap.keys]
    simp
  · cases same
  · cases same
  · exact properties q inside m same
  · cases same
    rwa [networkTrees, PropertyMap.keys, List.map_map]
  · exact n.distinctNames_toProperty q inside m same

theorem float_mem_parts {f : Float} (part : .float f ∈ c.toProperty.parts) :
    .float f ∈ (Property.map c.properties).parts := by
  rcases part_toProperty part with whole | ⟨s, text⟩ | word | inside | all | ⟨n, inside⟩
  · cases whole
  · cases text
  · cases word
  · exact inside
  · cases all
  · rcases n.part_toProperty inside with whole | null | ⟨s, text⟩ | ⟨items, list⟩
    · cases whole
    · cases null
    · cases text
    · cases list

theorem depth_toProperty_le {limit : Nat} (shallow : (Property.map c.properties).depth < limit)
    (room : 4 ≤ limit) : c.toProperty.depth ≤ limit := by
  have networks : Property.depthOfEntries c.networkTrees ≤ 2 := by
    rw [Property.depthOfEntries_le_iff]
    intro e member
    obtain ⟨f, _, rfl⟩ := List.mem_map.mp member
    exact f.2.depth_toProperty.le
  have trees : (Property.map c.networkTrees).depth ≤ 3 := Nat.succ_le_succ networks
  obtain ⟨limit, rfl⟩ : ∃ n, limit = n + 1 := Nat.exists_eq_add_of_le' (Nat.one_le_of_lt room)
  refine Nat.succ_le_succ (Property.depthOfEntries_le_iff.mpr ?_)
  simp only [List.forall_mem_cons, List.not_mem_nil, false_implies, implies_true, and_true]
  refine ⟨Nat.zero_le _, Nat.zero_le _, Nat.zero_le _, Nat.le_of_lt_succ shallow, ?_⟩
  exact trees.trans (Nat.le_of_succ_le_succ room)

/-- The context file holds the context: its JSON text is read as a tree that gives back every field,
the properties as they come back from JSON. -/
theorem ofJson_toProperty (networks : (c.networks.map (·.1)).Nodup)
    (properties : (Property.map c.properties).DistinctNames)
    (shallow : (Property.map c.properties).depth < Json.depthLimit)
    (floats : ∀ f, .float f ∈ (Property.map c.properties).parts → f.isFinite →
      ∃ q, Property.ofJson (Property.float f).toJson = some q ∧ q.number? = some f) :
    (Property.ofJson c.toProperty.toJsonPretty).bind ofProperty? =
      some { c with properties := Property.jsonEntries c.properties } := by
  have distinct := distinctNames_toProperty networks properties
  have room := depth_toProperty_le shallow (by decide)
  rw [Property.ofJson_toJsonPretty distinct room fun f part => floats f (float_mem_parts part)]
  exact ofProperty?_jsonForm c

/-- The instances of a parsed manifest have contexts that are read back from their files. -/
theorem ofJson_forInstance {origin : String} {octets : List UInt8} {m : Manifest} {job : Job}
    {index : UInt64} (parsed : (Manifest.parse origin (.ok octets)).2 = .ok m)
    (member : job ∈ m.jobs)
    (made : forInstance m job index = .ok c)
    (shallow : (Property.map c.properties).depth < Json.depthLimit)
    (floats : ∀ f, .float f ∈ (Property.map c.properties).parts → f.isFinite →
      ∃ q, Property.ofJson (Property.float f).toJson = some q ∧ q.number? = some f) :
    (Property.ofJson c.toProperty.toJsonPretty).bind ofProperty? =
      some { c with properties := Property.jsonEntries c.properties } := by
  obtain ⟨_, _, _, _, blocks⟩ := Manifest.exists_blocks parsed
  have distinct : ∀ b ∈ m.blocks, (Property.map b).DistinctNames := by
    intro b within
    obtain ⟨_, _, built⟩ := related_left blocks b within
    exact built.distinctNames
  obtain ⟨globals, _, _, _, ofJobs⟩ := Manifest.forall_blocks.mp distinct
  unfold forInstance at made
  split at made
  · cases made
    exact ofJson_toProperty (nodup_foldl _ List.nodup_nil) (globals.merge (ofJobs job member))
      shallow floats
  · cases made

end EvaluationContext

end Deployment
