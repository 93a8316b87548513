import Deployment.Proofs.Parts
import Deployment.Property.Build

namespace Deployment.Property

open Yaml (Value Entries)

/-- A walk keeps the segments that lead to where it is. -/
abbrev Walk := StateT Location (Except PropertyError)

/-- One step down, and the same step back after what is done there. -/
def Walk.below {α : Type} (segment : Segment) (walk : Walk α) : Walk α := do
  modify (· ++ [segment])
  let a ← walk
  modify List.dropLast
  return a

mutual
/-- The tree of a value, in a walk. -/
def walk : Value → Walk Property
  | .null => return .null
  | .bool b => return .bool b
  | .number n => return ofNumber n
  | .string s => return .string s
  | .sequence items => do return .list (← walkItems 0 items)
  | .mapping es => do return .map (← walkEntries [] es)
  | .tagged tag v => do throw (.unsupportedValue (← get) (Value.tagged tag v).kindName)

def walkItems (i : Nat) : List Value → Walk (List Property)
  | [] => return []
  | v :: rest => do
    let p ← Walk.below (.index i) (walk v)
    let ps ← walkItems (i + 1) rest
    return p :: ps

def walkEntries (taken : List String) : Entries → Walk PropertyMap
  | [] => return []
  | (k, v) :: rest =>
    match keyText k with
    | none => do throw (.unsupportedKey (← get) k.kindName)
    | some name => do
      if taken.contains name then throw (.collision (← get) name)
      let p ← Walk.below (.key name) (walk v)
      let ps ← walkEntries (taken ++ [name]) rest
      return (name, p) :: ps
end

theorem Walk.run_below {α : Type} {segment : Segment} {walk : Walk α} {l : Location}
    {x : Except PropertyError α}
    (returns : walk.run (l ++ [segment]) = x.map fun a => (a, l ++ [segment])) :
    (below segment walk).run l = x.map fun a => (a, l) := by
  simp only [below, StateT.run_bind, StateT.run_modify, pure_bind, returns]
  cases x with
  | error e => rfl
  | ok a =>
    have back : (l ++ [segment]).dropLast = l := List.dropLast_concat
    exact congrArg (fun l => Except.ok (a, l)) back

private theorem walkItems_eq {items : List Value} {i : Nat} {l : Location}
    (each : ∀ v ∈ items, ∀ l, (walk v).run l = (ofValue l v).map fun p => (p, l)) :
    (walkItems i items).run l = (ofItems l i items).map fun ps => (ps, l) := by
  induction items generalizing i with
  | nil => rfl
  | cons v rest ih =>
    have first := Walk.run_below (each v List.mem_cons_self (l ++ [.index i]))
    have later := @ih (i + 1) fun w member => each w (List.mem_cons_of_mem _ member)
    rw [walkItems, ofItems, StateT.run_bind, first]
    cases ofValue (l ++ [.index i]) v with
    | error e => rfl
    | ok p =>
      change ((walkItems (i + 1) rest >>= fun ps => pure (p :: ps)).run l) = _
      rw [StateT.run_bind, later]
      cases ofItems l (i + 1) rest <;> rfl

private theorem walkEntries_eq {es : Entries} {taken : List String} {l : Location}
    (each : ∀ f ∈ es, ∀ l, (walk f.2).run l = (ofValue l f.2).map fun p => (p, l)) :
    (walkEntries taken es).run l = (ofEntries l taken es).map fun ps => (ps, l) := by
  induction es generalizing taken with
  | nil => rfl
  | cons f rest ih =>
    obtain ⟨k, v⟩ := f
    rw [walkEntries, ofEntries]
    cases keyText k with
    | none => rfl
    | some name =>
      dsimp only
      cases taken.contains name with
      | true => rfl
      | false =>
        have first := Walk.run_below (each _ List.mem_cons_self (l ++ [.key name]))
        have later := @ih (taken ++ [name]) fun g member => each g (List.mem_cons_of_mem _ member)
        change ((Walk.below (.key name) (walk v) >>= fun p =>
          walkEntries (taken ++ [name]) rest >>= fun ps => pure ((name, p) :: ps)).run l) = _
        rw [StateT.run_bind, first]
        simp only [Bool.false_eq_true, if_false]
        cases ofValue (l ++ [.key name]) v with
        | error e => rfl
        | ok p =>
          change ((walkEntries (taken ++ [name]) rest >>= fun ps =>
            pure ((name, p) :: ps)).run l) = _
          rw [StateT.run_bind, later]
          cases ofEntries l (taken ++ [name]) rest <;> rfl

/-- A walk comes to what is built at its location, and returns to where it began. -/
theorem walk_eq (v : Value) (l : Location) :
    (walk v).run l = (ofValue l v).map fun p => (p, l) := by
  induction v using Value.inward generalizing l with
  | null | bool _ | number _ | string _ => rfl
  | sequence items ih =>
    rw [walk, StateT.run_bind, walkItems_eq ih, ofValue]
    cases ofItems l 0 items <;> rfl
  | mapping es ih =>
    rw [walk, StateT.run_bind, walkEntries_eq ih, ofValue]
    cases ofEntries l [] es <;> rfl
  | tagged tag v ih => rfl

theorem walk_returns {v : Value} {l m : Location} {p : Property}
    (finished : (walk v).run l = .ok (p, m)) : m = l := by
  rw [walk_eq] at finished
  cases built : ofValue l v with
  | error e => simp [built, Except.map] at finished
  | ok q =>
    rw [built] at finished
    cases finished
    rfl

end Deployment.Property
