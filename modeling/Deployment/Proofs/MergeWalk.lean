import Deployment.Proofs.MergeResolution

/-!
Resolution in place, on a stack of places that are still to be visited. A mapping that is visited
takes in what it merges and puts its values on the stack, so that the last one comes next. The
stack runs empty, and then the document is the one that recursion yields; where recursion fails, so
does the walk, with the same error.
-/

namespace Deployment.Yaml

/-- A place in a value: which item, which entry's value, or what is below a tag, step by step. -/
abbrev Place := List Nat

namespace Value

def at? : Value → Place → Option Value
  | v, [] => some v
  | .sequence items, i :: p => items[i]?.bind (·.at? p)
  | .mapping es, i :: p => es[i]?.bind (·.2.at? p)
  | .tagged _ v, 0 :: p => v.at? p
  | _, _ :: _ => none
termination_by structural _ p => p

/-- The value with another one put into a place. -/
def put : Value → Place → Value → Value
  | _, [], w => w
  | .sequence items, i :: p, w => .sequence (items.modify i (·.put p w))
  | .mapping es, i :: p, w => .mapping (es.modify i fun e => (e.1, e.2.put p w))
  | .tagged tag v, 0 :: p, w => .tagged tag (v.put p w)
  | v, _ :: _, _ => v
termination_by structural _ p => p

@[simp] theorem at?_nil (v : Value) : v.at? [] = some v := by
  cases v <;> rfl

@[simp] theorem put_nil (v w : Value) : v.put [] w = w := by
  cases v <;> rfl

theorem at?_append (v : Value) (p q : Place) : v.at? (p ++ q) = (v.at? p).bind (·.at? q) := by
  induction p generalizing v with
  | nil => simp
  | cons i p ih =>
    cases v with
    | sequence items =>
      simp only [List.cons_append, at?]
      cases items[i]? <;> simp [ih]
    | mapping es =>
      simp only [List.cons_append, at?]
      cases es[i]? <;> simp [ih]
    | tagged tag v =>
      cases i with
      | zero => exact ih v
      | succ i => rfl
    | _ => rfl

theorem at?_put {v u : Value} {p : Place} (found : v.at? p = some u) (w : Value) :
    (v.put p w).at? p = some w := by
  induction p generalizing v with
  | nil => simp
  | cons i p ih =>
    cases v with
    | sequence items =>
      obtain ⟨x, present, inside⟩ := Option.bind_eq_some_iff.mp found
      simpa [put, at?, present] using ih inside
    | mapping es =>
      obtain ⟨e, present, inside⟩ := Option.bind_eq_some_iff.mp found
      simpa [put, at?, present] using ih inside
    | tagged tag v =>
      cases i with
      | zero => exact ih found
      | succ i => cases found
    | _ => cases found

theorem put_append_put (v u w : Value) (p q : Place) :
    (v.put p u).put (p ++ q) w = v.put p (u.put q w) := by
  induction p generalizing v with
  | nil => simp
  | cons i p ih =>
    cases v with
    | sequence items => simp [put, List.modify_modify_eq, Function.comp_def, ih]
    | mapping es => simp [put, List.modify_modify_eq, Function.comp_def, ih]
    | tagged tag v =>
      cases i with
      | zero => simp [put, ih]
      | succ i => rfl
    | _ => rfl

theorem put_put (v u w : Value) (p : Place) : (v.put p u).put p w = v.put p w := by
  have inside := put_append_put v u w p []
  rwa [List.append_nil, put_nil] at inside

private theorem modify_fixed {α : Type} {xs : List α} {i : Nat} {x : α} {f : α → α}
    (present : xs[i]? = some x) (fixed : f x = x) : xs.modify i f = xs := by
  apply List.ext_getElem?
  intro j
  rw [List.getElem?_modify]
  by_cases same : i = j
  · subst same
    simp [present, fixed]
  · simp [same]

theorem put_self {v u : Value} {p : Place} (found : v.at? p = some u) : v.put p u = v := by
  induction p generalizing v with
  | nil =>
    rw [at?_nil] at found
    rw [put_nil, Option.some.inj found]
  | cons i p ih =>
    cases v with
    | sequence items =>
      obtain ⟨x, present, inside⟩ := Option.bind_eq_some_iff.mp found
      exact congrArg Value.sequence (modify_fixed present (ih inside))
    | mapping es =>
      obtain ⟨e, present, inside⟩ := Option.bind_eq_some_iff.mp found
      refine congrArg Value.mapping (modify_fixed present ?_)
      rw [ih inside]
    | tagged tag v =>
      cases i with
      | zero => exact congrArg (Value.tagged tag) (ih found)
      | succ i => cases found
    | _ => cases found

end Value

namespace MergeKey

open Outcome

/-- A document and the places in it that are still to be visited, the next one first. -/
structure Walk where
  document : Value
  pending : List Place

namespace Walk

/-- The places of what is directly inside a collection, from an index on. -/
def inside (p : Place) (start n : Nat) : List Place :=
  (List.range' start n).map fun i => p ++ [i]

/-- The walk after the visit of the next place. What is inside comes before all that is pending
already, and the last of it comes first. -/
def step (w : Walk) : Except MergeError Walk :=
  match w.pending with
  | [] => .ok w
  | p :: rest =>
    match w.document.at? p with
    | some (.mapping es) =>
      (merged es).map fun own =>
        ⟨w.document.put p (.mapping own), (inside p 0 own.length).reverse ++ rest⟩
    | some (.sequence items) =>
      .ok ⟨w.document, (inside p 0 items.length).reverse ++ rest⟩
    | some (.tagged _ _) => .ok ⟨w.document, (p ++ [0]) :: rest⟩
    | _ => .ok ⟨w.document, rest⟩

/-- The walk after a number of steps. When nothing is pending any more, it stays as it is. -/
def run : Nat → Walk → Except MergeError Walk
  | 0, w => .ok w
  | n + 1, w => w.step >>= run n

theorem run_add (n m : Nat) (w : Walk) : run (n + m) w = run n w >>= run m := by
  induction n generalizing w with
  | zero =>
    rw [Nat.zero_add]
    rfl
  | succ n ih =>
    rw [Nat.add_right_comm, run, run]
    cases w.step with
    | error e => rfl
    | ok next => exact ih next

theorem run_finished (document : Value) (n : Nat) :
    run n ⟨document, []⟩ = .ok ⟨document, []⟩ := by
  induction n with
  | zero => rfl
  | succ n ih => exact ih

/-- Whether steps lead from a walk to another one, or to an error. -/
def Leads (w : Walk) (out : Except MergeError Walk) : Prop :=
  ∃ n, run n w = out

theorem Leads.here {w : Walk} : Leads w (.ok w) :=
  ⟨0, rfl⟩

theorem Leads.step {w next : Walk} {out : Except MergeError Walk} (taken : w.step = .ok next)
    (further : Leads next out) : Leads w out := by
  obtain ⟨n, reached⟩ := further
  refine ⟨n + 1, ?_⟩
  rw [run, taken]
  exact reached

theorem Leads.fault {w : Walk} {e : MergeError} (failed : w.step = .error e) :
    Leads w (.error e) := by
  refine ⟨1, ?_⟩
  rw [run, failed]
  rfl

theorem Leads.trans {w middle : Walk} {out : Except MergeError Walk} (first : Leads w (.ok middle))
    (second : Leads middle out) : Leads w out := by
  obtain ⟨n, reached⟩ := first
  obtain ⟨m, further⟩ := second
  refine ⟨n + m, ?_⟩
  rw [run_add, reached]
  exact further

/-- A walk that does the work of one computation and then that of the next. -/
theorem Leads.bind {α : Type} {w : Walk} {x : Except MergeError α} {place : α → Walk}
    {f : α → Except MergeError Walk} (first : Leads w (x.map place))
    (next : ∀ a, Leads (place a) (f a)) : Leads w (x >>= f) := by
  cases x with
  | error e => exact first
  | ok a => exact first.trans (next a)

end Walk

/-- The results for all items, found from the last item on. The first failure ends it. -/
def fromLast {α β : Type} (f : α → Except MergeError β) : List α → Except MergeError (List β)
  | [] => .ok []
  | x :: rest => do
    let ys ← fromLast f rest
    let y ← f x
    return y :: ys

theorem fromLast_self {α : Type} {f : α → Except MergeError α} {xs : List α}
    (each : ∀ x ∈ xs, f x = .ok x) : fromLast f xs = .ok xs := by
  induction xs with
  | nil => rfl
  | cons x rest ih =>
    have later := ih fun y member => each y (List.mem_cons_of_mem _ member)
    rw [fromLast, later, each x List.mem_cons_self]
    rfl

theorem resolveItems_eq (items : List Value) : resolveItems items = fromLast resolve items := by
  induction items with
  | nil => rw [resolveItems, fromLast]
  | cons v rest ih => rw [resolveItems, fromLast, ih]

theorem resolveEntries_eq (es : Entries) :
    resolveEntries es = fromLast (fun e => (resolve e.2).map (e.1, ·)) es := by
  induction es with
  | nil => rw [resolveEntries, fromLast]
  | cons e rest ih =>
    obtain ⟨k, v⟩ := e
    rw [resolveEntries, fromLast, ih]
    cases resolve v <;> rfl

theorem resolve_mapping (es : Entries) : resolve (.mapping es) =
    merged es >>= fun own =>
      (fromLast (fun e => (resolve e.2).map (e.1, ·)) own).map .mapping := by
  rw [resolve]
  split
  · rename_i e failed
    rw [failed]
    rfl
  · rename_i own adopted
    rw [adopted, resolveEntries_eq]
    rfl

section Size

theorem size_le_sizeItems {items : List Value} {v : Value} (member : v ∈ items) :
    v.size ≤ Value.sizeItems items := by
  induction member with
  | head rest => simp [Value.sizeItems]
  | tail w later ih => exact Nat.le_trans ih (Nat.le_add_left _ _)

theorem size_le_sizeEntries {es : Entries} {e : Value × Value} (member : e ∈ es) :
    e.2.size ≤ Value.sizeEntries es := by
  induction member with
  | head rest => simp [Value.sizeEntries]
  | tail f later ih => exact Nat.le_trans ih (Nat.le_add_left _ _)

end Size

/-- Induction along the resolution of merge keys: of a mapping, it is known for the values that the
mapping has after it took in what it merges. -/
@[elab_as_elim]
theorem onward {motive : Value → Prop} (null : motive .null) (bool : ∀ b, motive (.bool b))
    (number : ∀ n, motive (.number n)) (string : ∀ s, motive (.string s))
    (sequence : ∀ items, (∀ v ∈ items, motive v) → motive (.sequence items))
    (mapping : ∀ es, (∀ own, merged es = .ok own → ∀ e ∈ own, motive e.2) → motive (.mapping es))
    (tagged : ∀ tag v, motive v → motive (.tagged tag v)) : ∀ v, motive v
  | .null => null
  | .bool b => bool b
  | .number n => number n
  | .string s => string s
  | .sequence items =>
    sequence items fun v _ => onward null bool number string sequence mapping tagged v
  | .mapping es =>
    mapping es fun own _ e _ => onward null bool number string sequence mapping tagged e.2
  | .tagged tag v => tagged tag v (onward null bool number string sequence mapping tagged v)
termination_by v => v.size
decreasing_by
  · have := size_le_sizeItems ‹v ∈ items›
    simp only [Value.size]
    omega
  · have := size_le_sizeEntries ‹e ∈ own›
    have := sizeEntries_merged_le ‹merged es = .ok own›
    simp only [Value.size]
    omega
  · simp only [Value.size]
    omega

namespace Walk

/-- Whether a walk that comes to the value anywhere leaves the resolved value in its place, and then
goes on with what was pending. -/
def Visits (v : Value) : Prop :=
  ∀ document p rest, document.at? p = some v →
    Leads ⟨document, p :: rest⟩ ((resolve v).map fun r => ⟨document.put p r, rest⟩)

section Collection

variable {α : Type} {wrap : List α → Value} (value : α → Value) (withValue : α → Value → α)
  {resolveOne : α → Except MergeError α}

private theorem modify_length_append (before : List α) (x : α) (after : List α) (f : α → α) :
    (before ++ x :: after).modify before.length f = before ++ f x :: after := by
  induction before with
  | nil => rfl
  | cons y before ih => simp [ih]

/-- The places inside a collection are visited from the last one on. The collection has been
resolved behind the place that comes next, and is as it was before it. -/
theorem leads_inside (find : ∀ xs i, (wrap xs).at? [i] = xs[i]?.map value)
    (change : ∀ xs i w, (wrap xs).put [i] w = wrap (xs.modify i (withValue · w)))
    (acts : ∀ x, resolveOne x = (resolve (value x)).map (withValue x)) {items : List α}
    (each : ∀ x ∈ items, Visits (value x)) {document : Value} {p : Place} (rest : List Place)
    (before : List α) (here : document.at? p = some (wrap (before ++ items))) :
    Leads ⟨document, (inside p before.length items.length).reverse ++ rest⟩
      ((fromLast resolveOne items).map fun ys => ⟨document.put p (wrap (before ++ ys)), rest⟩) := by
  induction items generalizing before rest with
  | nil =>
    have same := Value.put_self here
    simp only [fromLast, Except.map, same]
    exact .here
  | cons x items ih =>
    -- The places behind this one are visited before it, as the last of them is on top.
    have later : Leads ⟨document, (inside p before.length (items.length + 1)).reverse ++ rest⟩
        ((fromLast resolveOne items).map fun ys =>
          ⟨document.put p (wrap (before ++ x :: ys)), (p ++ [before.length]) :: rest⟩) := by
      have found : document.at? p = some (wrap ((before ++ [x]) ++ items)) := by
        simpa using here
      have previous := ih (fun y member => each y (List.mem_cons_of_mem _ member))
        ((p ++ [before.length]) :: rest) (before ++ [x]) found
      simpa [inside, List.range'_succ] using previous
    have visit (ys : List α) :
        Leads ⟨document.put p (wrap (before ++ x :: ys)), (p ++ [before.length]) :: rest⟩
          ((resolve (value x)).map fun r =>
            ⟨document.put p (wrap (before ++ withValue x r :: ys)), rest⟩) := by
      have found : (document.put p (wrap (before ++ x :: ys))).at? (p ++ [before.length]) =
          some (value x) := by
        rw [Value.at?_append, Value.at?_put here, Option.bind_some, find]
        simp
      have resolved := each x List.mem_cons_self _ _ rest found
      simp only [Value.put_append_put, change] at resolved
      simpa [modify_length_append] using resolved
    have both := later.bind visit
    simp only [List.length_cons, fromLast, acts x]
    generalize fromLast resolveOne items = behind at both ⊢
    generalize resolve (value x) = next at both ⊢
    cases behind with
    | error e => exact both
    | ok ys => cases next <;> exact both

end Collection

theorem visits (v : Value) : Visits v := by
  induction v using onward with
  | null | bool b | number n | string s =>
    intro document p rest here
    have same := Value.put_self here
    have taken : step ⟨document, p :: rest⟩ = .ok ⟨document, rest⟩ := by simp only [step, here]
    refine .step taken ?_
    simp only [resolve, Except.map, same]
    exact .here
  | sequence items ih =>
    intro document p rest here
    have acts (x : Value) : resolve x = (resolve x).map fun w => w := by
      cases resolve x <;> rfl
    have children := leads_inside (fun v => v) (fun _ w => w)
      (fun xs i => by cases found : xs[i]? <;> simp [Value.at?, found])
      (fun xs i w => by simp [Value.put]) acts ih rest [] here
    have taken : step ⟨document, p :: rest⟩ =
        .ok ⟨document, (inside p 0 items.length).reverse ++ rest⟩ := by simp only [step, here]
    refine .step taken ?_
    rw [resolve, resolveItems_eq]
    generalize fromLast resolve items = result at children ⊢
    cases result <;> exact children
  | mapping es ih =>
    -- What is adopted comes into the document first, and the walk goes on in what is left there.
    intro document p rest here
    cases adopted : merged es with
    | error e =>
      rw [resolve_mapping, adopted]
      exact .fault (by simp only [step, here, adopted, Except.map])
    | ok own =>
      have found := Value.at?_put here (.mapping own)
      have children := leads_inside Prod.snd (fun e w => (e.1, w))
        (fun xs i => by cases found : xs[i]? <;> simp [Value.at?, found])
        (fun xs i w => by simp [Value.put]) (fun e => rfl) (ih own adopted) rest [] found
      have taken : step ⟨document, p :: rest⟩ = .ok ⟨document.put p (.mapping own),
          (inside p 0 own.length).reverse ++ rest⟩ := by
        simp only [step, here, adopted, Except.map]
      refine .step taken ?_
      simp only [Value.put_put] at children
      rw [resolve_mapping, adopted]
      change Leads _ (((fromLast _ own).map Value.mapping).map _)
      generalize fromLast (fun e => (resolve e.2).map (e.1, ·)) own = result at children ⊢
      cases result <;> exact children
  | tagged tag v ih =>
    intro document p rest here
    have taken : step ⟨document, p :: rest⟩ = .ok ⟨document, (p ++ [0]) :: rest⟩ := by
      simp only [step, here]
    refine .step taken ?_
    have below : document.at? (p ++ [0]) = some v := by
      rw [Value.at?_append, here]
      rfl
    have visit := ih document (p ++ [0]) rest below
    -- Below a tag the walk changes the place one step further in, which is the value itself.
    have change (r : Value) : document.put (p ++ [0]) r = document.put p (.tagged tag r) := by
      rw [← Value.put_self here, Value.put_append_put, Value.put_put]
      rfl
    simp only [change] at visit
    rw [resolve]
    generalize resolve v = result at visit ⊢
    cases result <;> exact visit

/-- From a certain number of steps on, the walk through a document has nothing left to visit and
holds the resolved document, or it has failed as the resolution does. -/
theorem run_eq_resolve (v : Value) :
    ∃ n, ∀ m ≥ n, run m ⟨v, [[]]⟩ = (resolve v).map (⟨·, []⟩) := by
  obtain ⟨n, reached⟩ := visits v v [] [] (Value.at?_nil v)
  refine ⟨n, fun m enough => ?_⟩
  obtain ⟨more, rfl⟩ := Nat.exists_eq_add_of_le enough
  rw [run_add, reached]
  cases resolve v with
  | error e => rfl
  | ok r =>
    simp only [Except.map, Value.put_nil]
    exact run_finished r more

end Walk

end MergeKey

end Deployment.Yaml
