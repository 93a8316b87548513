import Deployment.Proofs.DistinctKeys
import Deployment.Yaml.MergeKey

namespace Deployment.Yaml.MergeKey

open Outcome

def hasMergeKey (es : Entries) : Bool :=
  es.any (·.1.isString "<<")

/-- The mappings named by the value of a merge entry. -/
def sources : Value → List Entries
  | .mapping source => [source]
  | .sequence items => items.filterMap fun v =>
    match v with
    | .mapping source => some source
    | _ => none
  | _ => []

/-- The mappings that a mapping adopts entries from. -/
def sourcesOf (es : Entries) : List Entries :=
  match extract es with
  | some (merge, _) => sources merge
  | none => []

theorem hasMergeKey_iff {es : Entries} :
    hasMergeKey es = true ↔ ∃ v, (Value.string "<<", v) ∈ es := by
  simp only [hasMergeKey, List.any_eq_true, Value.isString_iff]
  constructor
  · intro ⟨⟨k, v⟩, member, same⟩
    exact ⟨v, same ▸ member⟩
  · intro ⟨v, member⟩
    exact ⟨_, member, rfl⟩

theorem lastToFront_perm (es : Entries) : (lastToFront es).Perm es := by
  rcases List.eq_nil_or_concat es with rfl | ⟨rest, e, rfl⟩
  · exact .refl _
  · have swap : ([e] ++ rest).Perm (rest ++ [e]) := List.perm_append_comm
    simpa [lastToFront] using swap

theorem extract_none {es : Entries} (absent : extract es = none) : hasMergeKey es = false := by
  induction es with
  | nil => rfl
  | cons e rest ih =>
    obtain ⟨k, v⟩ := e
    simp only [extract] at absent
    split at absent
    · cases absent
    · rename_i other
      have later := ih (Option.map_eq_none_iff.mp absent)
      simp [hasMergeKey, other] at later ⊢
      exact later

/-- Taking the merge entry out keeps all other entries, in some order. -/
theorem extract_perm {es others : Entries} {merge : Value}
    (found : extract es = some (merge, others)) : es.Perm ((.string "<<", merge) :: others) := by
  induction es generalizing others with
  | nil => cases found
  | cons e rest ih =>
    obtain ⟨k, v⟩ := e
    simp only [extract] at found
    split at found
    · rename_i isMerge
      cases found
      obtain rfl := Value.isString_iff.mp isMerge
      exact (lastToFront_perm rest).symm.cons _
    · obtain ⟨⟨w, inner⟩, kept, same⟩ := Option.map_eq_some_iff.mp found
      cases same
      exact ((ih kept).cons _).trans (.swap _ _ _)

private theorem hasMergeKey_append {es fs : Entries} :
    hasMergeKey (es ++ fs) = (hasMergeKey es || hasMergeKey fs) := by
  simp [hasMergeKey]

theorem hasMergeKey_others {es others : Entries} {merge : Value}
    (distinct : es.Pairwise fun a b => a.1.same b.1 = false)
    (found : extract es = some (merge, others)) : hasMergeKey others = false := by
  induction es generalizing others with
  | nil => cases found
  | cons e rest ih =>
    obtain ⟨k, v⟩ := e
    obtain ⟨first, pairs⟩ := List.pairwise_cons.mp distinct
    simp only [extract] at found
    split at found
    · rename_i isMerge
      cases found
      obtain rfl := Value.isString_iff.mp isMerge
      refine Bool.eq_false_iff.mpr fun again => ?_
      obtain ⟨w, member⟩ := hasMergeKey_iff.mp again
      have repeated := first _ ((lastToFront_perm rest).mem_iff.mp member)
      simp [Value.same] at repeated
    · rename_i other
      obtain ⟨⟨w, inner⟩, kept, same⟩ := Option.map_eq_some_iff.mp found
      cases same
      have later := ih pairs kept
      simp [hasMergeKey, other] at later ⊢
      exact later

theorem mem_adopt {e : Value × Value} {es source : Entries} (member : e ∈ adopt es source) :
    e ∈ es ∨ e ∈ source := by
  induction source generalizing es with
  | nil => exact .inl member
  | cons f rest ih =>
    simp only [adopt, List.foldl_cons] at member ih
    split at member
    · rcases ih member with old | new
      · exact .inl old
      · exact .inr (List.mem_cons_of_mem _ new)
    · rcases ih member with old | new
      · rcases List.mem_append.mp old with own | single
        · exact .inl own
        · exact .inr (List.mem_singleton.mp single ▸ List.mem_cons_self)
      · exact .inr (List.mem_cons_of_mem _ new)

/-- A merge key that a source was written with is adopted like any other key. -/
theorem hasMergeKey_adopt (es source : Entries) :
    hasMergeKey (adopt es source) = (hasMergeKey es || hasMergeKey source) := by
  induction source generalizing es with
  | nil => simp [adopt, hasMergeKey]
  | cons f rest ih =>
    simp only [adopt, List.foldl_cons] at ih ⊢
    rw [ih]
    have split : hasMergeKey (f :: rest) = (hasMergeKey [f] || hasMergeKey rest) := by
      simp [hasMergeKey]
    rw [split]
    by_cases known : es.any (·.1.same f.1) = true
    · rw [if_pos known]
      by_cases isMerge : hasMergeKey [f] = true
      · obtain ⟨v, member⟩ := hasMergeKey_iff.mp isMerge
        obtain ⟨g, present, same⟩ := List.any_eq_true.mp known
        obtain rfl := List.mem_singleton.mp member
        -- A merge key is passed over only where there is one already.
        have owned : hasMergeKey es = true := by
          refine List.any_eq_true.mpr ⟨g, present, ?_⟩
          cases key : g.1 <;> simp [key, Value.same] at same
          simp [Value.isString, same]
        simp [owned]
      · simp [isMerge]
    · rw [if_neg known, hasMergeKey_append, Bool.or_assoc]

theorem adoptEach_ok {es own : Entries} {items : List Value}
    (success : adoptEach es items = .ok own) :
    hasMergeKey own = (hasMergeKey es || (sources (.sequence items)).any hasMergeKey) ∧
      ∀ e ∈ own, e ∈ es ∨ ∃ source ∈ sources (.sequence items), e ∈ source := by
  induction items generalizing es with
  | nil =>
    cases success
    exact ⟨by simp [sources], fun e member => .inl member⟩
  | cons v rest ih =>
    cases v with
    | mapping source =>
      obtain ⟨keys, members⟩ := ih success
      have first : sources (.sequence (.mapping source :: rest)) =
          source :: sources (.sequence rest) := rfl
      rw [first]
      refine ⟨by rw [keys, hasMergeKey_adopt, List.any_cons, Bool.or_assoc], fun e member => ?_⟩
      rcases members e member with old | ⟨later, within, new⟩
      · rcases mem_adopt old with own | adopted
        · exact .inl own
        · exact .inr ⟨source, List.mem_cons_self, adopted⟩
      · exact .inr ⟨later, List.mem_cons_of_mem _ within, new⟩
    | _ => cases success

/-- The entries of a mapping after its own merge entry is resolved: whether a merge key is among
them, and where they come from. -/
theorem merged_ok {es own : Entries} (distinct : es.Pairwise fun a b => a.1.same b.1 = false)
    (success : merged es = .ok own) :
    hasMergeKey own = (sourcesOf es).any hasMergeKey ∧
      ∀ e ∈ own, e ∈ es ∨ ∃ source ∈ sourcesOf es, e ∈ source := by
  simp only [merged] at success
  simp only [sourcesOf]
  split at success
  · rename_i absent
    cases success
    simp only [absent]
    exact ⟨extract_none absent, fun e member => .inl member⟩
  · rename_i source others found
    cases success
    simp only [found]
    refine ⟨by simp [hasMergeKey_adopt, hasMergeKey_others distinct found, sources], ?_⟩
    intro e member
    rcases mem_adopt member with old | new
    · exact .inl ((extract_perm found).mem_iff.mpr (List.mem_cons_of_mem _ old))
    · exact .inr ⟨source, by simp [sources], new⟩
  · rename_i items others found
    obtain ⟨keys, members⟩ := adoptEach_ok success
    simp only [found]
    refine ⟨by rw [keys, hasMergeKey_others distinct found, Bool.false_or], fun e member => ?_⟩
    rcases members e member with old | new
    · exact .inl ((extract_perm found).mem_iff.mpr (List.mem_cons_of_mem _ old))
    · exact .inr new
  · cases success
  · cases success

theorem source_mem_parts {es source : Entries} (member : source ∈ sourcesOf es) :
    .mapping source ∈ (Value.mapping es).parts := by
  simp only [sourcesOf] at member
  split at member
  · rename_i merge others found
    have entry := (extract_perm found).mem_iff.mpr List.mem_cons_self
    refine Value.mem_parts_mapping.mpr (.inr ⟨_, entry, ?_⟩)
    cases merge with
    | mapping own =>
      obtain rfl := List.mem_singleton.mp member
      exact Value.mem_parts_self _
    | sequence items =>
      obtain ⟨v, within, named⟩ := List.mem_filterMap.mp member
      refine Value.mem_parts_sequence.mpr (.inr ⟨v, within, ?_⟩)
      cases v with
      | mapping own =>
        cases named
        exact Value.mem_parts_self _
      | _ => cases named
    | _ => simp [sources] at member
  · simp at member

theorem mem_parts_of_merged {es own : Entries} {e : Value × Value}
    (distinct : es.Pairwise fun a b => a.1.same b.1 = false) (adopted : merged es = .ok own)
    (member : e ∈ own) : e.2 ∈ (Value.mapping es).parts := by
  rcases (merged_ok distinct adopted).2 e member with old | ⟨source, within, new⟩
  · exact Value.mem_parts_mapping.mpr (.inr ⟨e, old, Value.mem_parts_self _⟩)
  · have inSource : e.2 ∈ (Value.mapping source).parts :=
      Value.mem_parts_mapping.mpr (.inr ⟨e, new, Value.mem_parts_self _⟩)
    exact Value.parts_trans inSource (source_mem_parts within)

/-- The walk that resolves merge keys: it goes on to the values that a mapping is left with, to
items, and below tags. -/
inductive Reaches : Value → Value → Prop where
  | here {v : Value} : Reaches v v
  | entry {es own : Entries} {e : Value × Value} {w : Value} (adopted : merged es = .ok own)
      (member : e ∈ own) (further : Reaches e.2 w) : Reaches (.mapping es) w
  | item {items : List Value} {v w : Value} (member : v ∈ items) (further : Reaches v w) :
      Reaches (.sequence items) w
  | beneath {tag : Tag} {v w : Value} (further : Reaches v w) : Reaches (.tagged tag v) w

theorem Reaches.mem_parts {v w : Value} (path : Reaches v w) (distinct : v.DistinctKeys) :
    w ∈ v.parts := by
  induction path with
  | here => exact Value.mem_parts_self _
  | entry adopted member further ih =>
    have held := mem_parts_of_merged (Value.distinctKeys_mapping.mp distinct).1 adopted member
    exact Value.parts_trans (ih (distinct.part held)) held
  | item member further ih =>
    have below := Value.distinctKeys_sequence.mp distinct _ member
    exact Value.mem_parts_sequence.mpr (.inr ⟨_, member, ih below⟩)
  | beneath further ih =>
    exact Value.mem_parts_tagged.mpr (.inr (ih (Value.distinctKeys_tagged.mp distinct)))

/-- Whether a value becomes the other one when its merge keys are resolved. -/
def Resolves (v r : Value) : Prop :=
  resolve v = .ok r

def EntryResolves (e f : Value × Value) : Prop :=
  f.1 = e.1 ∧ Resolves e.2 f.2

theorem resolveItems_ok {items rs : List Value} (success : resolveItems items = .ok rs) :
    List.Forall₂ Resolves items rs := by
  induction items generalizing rs with
  | nil =>
    simp only [resolveItems, Except.ok.injEq] at success
    exact success ▸ .nil
  | cons v rest ih =>
    simp only [resolveItems, bind_eq_ok, pure, Except.pure, Except.ok.injEq] at success
    obtain ⟨ws, tail, w, head, rfl⟩ := success
    exact .cons head (ih tail)

theorem resolveEntries_ok {es fs : Entries} (success : resolveEntries es = .ok fs) :
    List.Forall₂ EntryResolves es fs := by
  induction es generalizing fs with
  | nil =>
    simp only [resolveEntries, Except.ok.injEq] at success
    exact success ▸ .nil
  | cons e rest ih =>
    obtain ⟨k, v⟩ := e
    simp only [resolveEntries, bind_eq_ok, pure, Except.pure, Except.ok.injEq] at success
    obtain ⟨gs, tail, w, head, rfl⟩ := success
    exact .cons ⟨rfl, head⟩ (ih tail)

/-- What becomes of a value of each kind. A mapping first adopts entries, and then the values that
it has are resolved. -/
inductive Becomes : Value → Value → Prop where
  | null : Becomes .null .null
  | bool (b : Bool) : Becomes (.bool b) (.bool b)
  | number (n : Number) : Becomes (.number n) (.number n)
  | string (s : String) : Becomes (.string s) (.string s)
  | sequence {items rs : List Value} (each : List.Forall₂ Resolves items rs) :
      Becomes (.sequence items) (.sequence rs)
  | mapping {es own fs : Entries} (adopted : merged es = .ok own)
      (each : List.Forall₂ EntryResolves own fs) : Becomes (.mapping es) (.mapping fs)
  | tagged {tag : Tag} {v r : Value} (below : Resolves v r) :
      Becomes (.tagged tag v) (.tagged tag r)

theorem Resolves.becomes {v r : Value} (resolved : Resolves v r) : Becomes v r := by
  unfold Resolves at resolved
  cases v with
  | sequence items =>
    rw [resolve] at resolved
    obtain ⟨rs, each, rfl⟩ := map_eq_ok.mp resolved
    exact .sequence (resolveItems_ok each)
  | mapping es =>
    rw [resolve] at resolved
    split at resolved
    · cases resolved
    · rename_i own adopted
      obtain ⟨fs, each, rfl⟩ := map_eq_ok.mp resolved
      exact .mapping adopted (resolveEntries_ok each)
  | tagged tag v =>
    rw [resolve] at resolved
    obtain ⟨r, below, rfl⟩ := map_eq_ok.mp resolved
    exact .tagged below
  | _ =>
    simp only [resolve, Except.ok.injEq] at resolved
    subst resolved
    constructor

theorem resolves_null : Resolves .null .null := by
  simp [Resolves, resolve]

/-- Every part of the result is what became of a value that the walk came to. -/
theorem exists_reaches {v r q : Value} (resolved : Resolves v r) (part : q ∈ r.parts) :
    ∃ w, Reaches v w ∧ Resolves w q := by
  -- On the result: the entries that a mapping adopts are not among its own.
  induction r using Value.inward generalizing v with
  | null | bool b | number n | string s =>
    obtain rfl := List.mem_singleton.mp part
    exact ⟨v, .here, resolved⟩
  | sequence rs ih =>
    rcases Value.mem_parts_sequence.mp part with rfl | ⟨x, member, within⟩
    · exact ⟨v, .here, resolved⟩
    · cases resolved.becomes with
      | sequence each =>
        obtain ⟨y, source, below⟩ := related_left each x member
        obtain ⟨w, path, result⟩ := ih x member below within
        exact ⟨w, .item source path, result⟩
  | mapping fs ih =>
    rcases Value.mem_parts_mapping.mp part with rfl | ⟨f, member, within⟩
    · exact ⟨v, .here, resolved⟩
    · cases resolved.becomes with
      | mapping adopted each =>
        obtain ⟨e, source, _, below⟩ := related_left each f member
        obtain ⟨w, path, result⟩ := ih f member below within
        exact ⟨w, .entry adopted source path, result⟩
  | tagged tag x ih =>
    rcases Value.mem_parts_tagged.mp part with rfl | within
    · exact ⟨v, .here, resolved⟩
    · cases resolved.becomes with
      | tagged below =>
        obtain ⟨w, path, result⟩ := ih below within
        exact ⟨w, .beneath path, result⟩

/-- Every value that the walk comes to is resolved and has its place in the result. -/
theorem Reaches.resolves {v w r : Value} (path : Reaches v w) (resolved : Resolves v r) :
    ∃ q ∈ r.parts, Resolves w q := by
  induction path generalizing r with
  | here => exact ⟨r, Value.mem_parts_self r, resolved⟩
  | entry adopted member further ih =>
    cases resolved.becomes with
    | mapping same each =>
      obtain rfl := Except.ok.inj (adopted.symm.trans same)
      obtain ⟨f, within, _, below⟩ := related_right each _ member
      obtain ⟨q, part, result⟩ := ih below
      exact ⟨q, Value.mem_parts_mapping.mpr (.inr ⟨f, within, part⟩), result⟩
  | item member further ih =>
    cases resolved.becomes with
    | sequence each =>
      obtain ⟨x, within, below⟩ := related_right each _ member
      obtain ⟨q, part, result⟩ := ih below
      exact ⟨q, Value.mem_parts_sequence.mpr (.inr ⟨x, within, part⟩), result⟩
  | beneath further ih =>
    cases resolved.becomes with
    | tagged below =>
      obtain ⟨q, part, result⟩ := ih below
      exact ⟨q, Value.mem_parts_tagged.mpr (.inr part), result⟩

/-- Whether the walk comes to a mapping that adopts from one which was itself written with a merge
key. -/
def Chained (v : Value) : Prop :=
  ∃ es, Reaches v (.mapping es) ∧ ∃ source ∈ sourcesOf es, hasMergeKey source = true

private theorem hasMergeKey_each {own fs : Entries} (each : List.Forall₂ EntryResolves own fs) :
    hasMergeKey fs = hasMergeKey own := by
  induction each with
  | nil => rfl
  | cons head tail ih =>
    simp only [hasMergeKey, List.any_cons, head.1] at ih ⊢
    rw [ih]

private theorem hasMergeKey_of_resolves {es fs : Entries}
    (distinct : (Value.mapping es).DistinctKeys) (resolved : Resolves (.mapping es) (.mapping fs)) :
    hasMergeKey fs = (sourcesOf es).any hasMergeKey := by
  cases resolved.becomes with
  | mapping adopted each =>
    rw [hasMergeKey_each each]
    exact (merged_ok (Value.distinctKeys_mapping.mp distinct).1 adopted).1

/-- Resolution leaves a merge key behind exactly where merges are chained. -/
theorem hasMergeKey_iff_chained {v r : Value} (distinct : v.DistinctKeys)
    (resolved : Resolves v r) :
    (∃ fs, .mapping fs ∈ r.parts ∧ hasMergeKey fs = true) ↔ Chained v := by
  constructor
  · intro ⟨fs, part, isMerge⟩
    obtain ⟨w, path, result⟩ := exists_reaches resolved part
    have within := distinct.part (path.mem_parts distinct)
    cases result.becomes with
    | @mapping es own _ adopted each =>
      rw [hasMergeKey_of_resolves within result] at isMerge
      exact ⟨es, path, List.any_eq_true.mp isMerge⟩
  · intro ⟨es, path, chain⟩
    obtain ⟨q, part, result⟩ := path.resolves resolved
    have within := distinct.part (path.mem_parts distinct)
    cases result.becomes with
    | mapping adopted each =>
      refine ⟨_, part, ?_⟩
      rw [hasMergeKey_of_resolves within result]
      exact List.any_eq_true.mpr chain

end Deployment.Yaml.MergeKey
