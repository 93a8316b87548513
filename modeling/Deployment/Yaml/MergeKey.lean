import Deployment.Yaml.Value

/-!
Merge keys. The entry `<<` of a mapping names one mapping or several whose entries the mapping
adopts where it has no entry of its own. Resolution goes from the root inwards. It takes each merge
entry out by putting the last entry in its place, and appends what is adopted, without looking at
adopted merge keys again. Keys are not searched.
-/

namespace Deployment.Yaml

inductive MergeError where
  | scalar
  | tagged
  | scalarElement
  | sequenceElement
  deriving DecidableEq

def MergeError.message : MergeError → String
  | .scalar => "expected a mapping or list of mappings for merging, but found scalar"
  | .tagged => "unexpected tagged value in merge"
  | .scalarElement => "expected a mapping for merging, but found scalar"
  | .sequenceElement => "expected a mapping for merging, but found sequence"

namespace Value

mutual
def size : Value → Nat
  | .sequence items => sizeItems items + 1
  | .mapping es => sizeEntries es + 1
  | .tagged _ v => v.size + 1
  | _ => 1

def sizeItems : List Value → Nat
  | [] => 0
  | v :: rest => v.size + sizeItems rest

def sizeEntries : Entries → Nat
  | [] => 0
  | (_, v) :: rest => v.size + sizeEntries rest
end

theorem size_pos (v : Value) : 0 < v.size := by
  cases v <;> simp [size]

theorem sizeEntries_append (es fs : Entries) :
    sizeEntries (es ++ fs) = sizeEntries es + sizeEntries fs := by
  induction es with
  | nil => simp [sizeEntries]
  | cons e rest ih => simp [sizeEntries, ih, Nat.add_assoc]

end Value

namespace MergeKey

def lastToFront (es : Entries) : Entries :=
  match es.getLast? with
  | none => []
  | some e => e :: es.dropLast

/-- The value of the merge entry and the entries without it, in which the last one has taken its
place. -/
def extract : Entries → Option (Value × Entries)
  | [] => none
  | (k, v) :: rest =>
    if k.isString "<<" then some (v, lastToFront rest)
    else (extract rest).map fun (merge, others) => (merge, (k, v) :: others)

/-- The entries, followed by those of a source whose keys are new. -/
def adopt (es source : Entries) : Entries :=
  source.foldl (fun es e => if es.any (·.1.same e.1) then es else es ++ [e]) es

def adoptEach : Entries → List Value → Except MergeError Entries
  | es, [] => .ok es
  | es, .mapping source :: rest => adoptEach (adopt es source) rest
  | _, .sequence _ :: _ => .error .sequenceElement
  | _, .tagged _ _ :: _ => .error .tagged
  | _, _ :: _ => .error .scalarElement

def merged (es : Entries) : Except MergeError Entries :=
  match extract es with
  | none => .ok es
  -- A merge key among the entries of a source is adopted like any other and stays.
  | some (.mapping source, others) => .ok (adopt others source)
  | some (.sequence sources, others) => adoptEach others sources
  | some (.tagged _ _, _) => .error .tagged
  | some (_, _) => .error .scalar

theorem sizeEntries_lastToFront (es : Entries) :
    Value.sizeEntries (lastToFront es) = Value.sizeEntries es := by
  rcases List.eq_nil_or_concat es with rfl | ⟨rest, e, rfl⟩
  · rfl
  · simp [lastToFront, Value.sizeEntries_append, Value.sizeEntries, Nat.add_comm]

theorem sizeEntries_extract {es others : Entries} {v : Value}
    (found : extract es = some (v, others)) :
    v.size + Value.sizeEntries others = Value.sizeEntries es := by
  induction es generalizing v others with
  | nil => simp [extract] at found
  | cons e rest ih =>
    obtain ⟨k, w⟩ := e
    simp only [extract] at found
    split at found
    · cases found
      simp [Value.sizeEntries, sizeEntries_lastToFront]
    · obtain ⟨⟨u, inner⟩, kept, same⟩ := Option.map_eq_some_iff.mp found
      cases same
      have := ih kept
      simp only [Value.sizeEntries]
      omega

theorem sizeEntries_adopt_le (es source : Entries) :
    Value.sizeEntries (adopt es source) ≤ Value.sizeEntries es + Value.sizeEntries source := by
  induction source generalizing es with
  | nil => simp [adopt, Value.sizeEntries]
  | cons e rest ih =>
    obtain ⟨k, v⟩ := e
    simp only [adopt, List.foldl_cons] at ih ⊢
    split
    · have := ih es
      simp only [Value.sizeEntries]
      omega
    · have := ih (es ++ [(k, v)])
      simp only [Value.sizeEntries_append, Value.sizeEntries] at this ⊢
      omega

theorem sizeEntries_adoptEach_le {es adopted : Entries} {sources : List Value}
    (success : adoptEach es sources = .ok adopted) :
    Value.sizeEntries adopted ≤ Value.sizeEntries es + Value.sizeItems sources := by
  induction sources generalizing es with
  | nil =>
    cases success
    simp [Value.sizeItems]
  | cons v rest ih =>
    cases v <;> simp only [adoptEach, reduceCtorEq] at success
    have := ih success
    have := sizeEntries_adopt_le es ‹Entries›
    simp only [Value.sizeItems, Value.size]
    omega

/-- Resolving a merge entry leaves no more values to visit than there were. -/
theorem sizeEntries_merged_le {es resolved : Entries} (success : merged es = .ok resolved) :
    Value.sizeEntries resolved ≤ Value.sizeEntries es := by
  unfold merged at success
  split at success
  · cases success
    exact Nat.le_refl _
  · rename_i source others found
    cases success
    have := sizeEntries_extract found
    have := sizeEntries_adopt_le others source
    simp only [Value.size] at *
    omega
  · rename_i sources others found
    have := sizeEntries_extract found
    have := sizeEntries_adoptEach_le success
    simp only [Value.size] at *
    omega
  · cases success
  · cases success

mutual
def resolve : Value → Except MergeError Value
  | .mapping es =>
    match _resolved : merged es with
    | .error e => .error e
    | .ok own => (resolveEntries own).map .mapping
  | .sequence items => (resolveItems items).map .sequence
  | .tagged tag v => (resolve v).map (.tagged tag)
  | v => .ok v
termination_by v => 2 * v.size
decreasing_by
  · have := sizeEntries_merged_le _resolved
    simp only [Value.size]
    omega
  · simp only [Value.size]
    omega
  · simp only [Value.size]
    omega

/-- Items with their merge keys resolved, the last one first. -/
def resolveItems : List Value → Except MergeError (List Value)
  | [] => .ok []
  | v :: rest => do
    let rest ← resolveItems rest
    let v ← resolve v
    return v :: rest
termination_by items => 2 * Value.sizeItems items + 1
decreasing_by
  · have := v.size_pos
    simp only [Value.sizeItems]
    omega
  · simp only [Value.sizeItems]
    omega

def resolveEntries : Entries → Except MergeError Entries
  | [] => .ok []
  | (k, v) :: rest => do
    let rest ← resolveEntries rest
    let v ← resolve v
    return (k, v) :: rest
termination_by es => 2 * Value.sizeEntries es + 1
decreasing_by
  · have := v.size_pos
    simp only [Value.sizeEntries]
    omega
  · simp only [Value.sizeEntries]
    omega
end

end MergeKey

end Deployment.Yaml
