namespace Deployment.Outcome

variable {ε ζ α β : Type}

theorem bind_eq_ok {x : Except ε α} {f : α → Except ε β} {b : β} :
    (x >>= f) = .ok b ↔ ∃ a, x = .ok a ∧ f a = .ok b := by
  cases x with
  | error e => simp [bind, Except.bind]
  | ok a => simp [bind, Except.bind]

theorem map_eq_ok {x : Except ε α} {f : α → β} {b : β} :
    x.map f = .ok b ↔ ∃ a, x = .ok a ∧ f a = b := by
  cases x with
  | error e => simp [Except.map]
  | ok a => simp [Except.map]

theorem bind_eq_error {x : Except ε α} {f : α → Except ε β} {e : ε} :
    (x >>= f) = .error e ↔ x = .error e ∨ ∃ a, x = .ok a ∧ f a = .error e := by
  cases x with
  | error e => simp [bind, Except.bind]
  | ok a => simp [bind, Except.bind]

theorem exists_bind_iff {x : Except ε α} {f : α → Except ε β} :
    (∃ b, (x >>= f) = .ok b) ↔ ∃ a, x = .ok a ∧ ∃ b, f a = .ok b := by
  cases x with
  | error e => simp [bind, Except.bind]
  | ok a => simp [bind, Except.bind]

theorem exists_map_iff {x : Except ε α} {f : α → β} :
    (∃ b, x.map f = .ok b) ↔ ∃ a, x = .ok a := by
  cases x with
  | error e => simp [Except.map]
  | ok a => simp [Except.map]

theorem mapError_eq_ok {x : Except ε α} {f : ε → ζ} {a : α} :
    x.mapError f = .ok a ↔ x = .ok a := by
  cases x with
  | error e =>
    constructor <;> intro same <;> cases same
  | ok b =>
    constructor
    · intro same
      cases same
      rfl
    · intro same
      cases same
      rfl

theorem mapError_eq_error {x : Except ε α} {f : ε → ζ} {e : ζ} :
    x.mapError f = .error e ↔ ∃ fault, x = .error fault ∧ f fault = e := by
  constructor
  · intro failed
    cases x with
    | error fault =>
      cases failed
      exact ⟨fault, rfl, rfl⟩
    | ok a => cases failed
  · intro failed
    obtain ⟨fault, rfl, rfl⟩ := failed
    rfl

/-- The error of a computation that failed. -/
def error? : Except ε α → Option ε
  | .error e => some e
  | .ok _ => none

theorem error?_eq_none_iff {x : Except ε α} : error? x = none ↔ ∃ a, x = .ok a := by
  cases x with
  | error e => simp [error?]
  | ok a => simp [error?]

theorem error?_eq_some_iff {x : Except ε α} {e : ε} : error? x = some e ↔ x = .error e := by
  cases x with
  | error e => simp [error?]
  | ok a => simp [error?]

theorem error?_mapError {x : Except ε α} {f : ε → ζ} :
    error? (x.mapError f) = (error? x).map f := by
  cases x with
  | error e => rfl
  | ok a => rfl

/-- Whether a computation takes checks in turn: it fails with the error of the first one that does
not pass, and only then. -/
def Takes {γ : Type} (verdict : γ → Option ε) (checks : List γ) (x : Except ε α) : Prop :=
  error? x = checks.findSome? verdict

section Takes

variable {γ δ : Type} {verdict : γ → Option ε} {checks : List γ} {x : Except ε α}

theorem Takes.exists_ok_iff (taken : Takes verdict checks x) :
    (∃ a, x = .ok a) ↔ ∀ c ∈ checks, verdict c = none := by
  rw [← error?_eq_none_iff, taken, List.findSome?_eq_none_iff]

theorem Takes.exists_check {e : ε} (taken : Takes verdict checks x) (failed : x = .error e) :
    ∃ c ∈ checks, verdict c = some e := by
  rw [Takes, error?_eq_some_iff.mpr failed] at taken
  exact List.exists_of_findSome?_eq_some taken.symm

theorem takes_ok {a : α} : Takes verdict [] (.ok a) :=
  rfl

/-- The checks of a step come before those of what follows it. -/
theorem Takes.bind {later : List γ} {f : α → Except ε β} (first : Takes verdict checks x)
    (next : ∀ a, Takes verdict later (f a)) : Takes verdict (checks ++ later) (x >>= f) := by
  rw [Takes, List.findSome?_append, ← first]
  cases x with
  | error e => rfl
  | ok a => exact next a

theorem takes_single {c : γ} (same : error? x = verdict c) : Takes verdict [c] x := by
  rw [Takes, List.findSome?_singleton]
  exact same

theorem Takes.placed {outer : δ → Option ζ} {within : γ → δ} {place : ε → ζ}
    (taken : Takes verdict checks x) (same : ∀ c, outer (within c) = (verdict c).map place) :
    Takes outer (checks.map within) (x.mapError place) := by
  have verdicts : outer ∘ within = Option.map place ∘ verdict := funext same
  rw [Takes, error?_mapError, taken, List.findSome?_map, List.map_findSome?, verdicts]

end Takes

/-- Whether two computations fail with the same error, or else have results that are related. -/
def Alike {γ : Type} (related : α → γ → Prop) : Except ε α → Except ε γ → Prop
  | .ok a, .ok c => related a c
  | .error e, .error f => e = f
  | _, _ => False

section Alike

variable {γ δ : Type} {related : α → γ → Prop} {x : Except ε α} {y : Except ε γ}

theorem alike_eq_iff {x y : Except ε α} : Alike (· = ·) x y ↔ x = y := by
  cases x <;> cases y <;> simp [Alike]

theorem Alike.map {after : β → δ → Prop} {f : α → β} {g : γ → δ} (alike : Alike related x y)
    (next : ∀ a c, related a c → after (f a) (g c)) : Alike after (x.map f) (y.map g) := by
  cases x <;> cases y
  · exact alike
  · cases alike
  · cases alike
  · exact next _ _ alike

theorem Alike.mapError {f : ε → ζ} (alike : Alike related x y) :
    Alike related (x.mapError f) (y.mapError f) := by
  cases x <;> cases y
  · exact congrArg f alike
  · cases alike
  · cases alike
  · exact alike

/-- What follows may depend on how the results came about. -/
theorem Alike.bind {after : β → δ → Prop} {f : α → Except ε β} {g : γ → Except ε δ}
    (alike : Alike related x y)
    (next : ∀ a c, x = .ok a → y = .ok c → related a c → Alike after (f a) (g c)) :
    Alike after (x >>= f) (y >>= g) := by
  cases x <;> cases y
  · exact alike
  · cases alike
  · cases alike
  · exact next _ _ rfl rfl alike

end Alike

/-- Whether a second computation succeeds wherever the first one does, with a related result. -/
def Follows {γ : Type} (related : α → γ → Prop) (x : Except ε α) (y : Except ζ γ) : Prop :=
  ∀ a, x = .ok a → ∃ c, y = .ok c ∧ related a c

section Follows

variable {γ δ : Type} {related : α → γ → Prop} {x : Except ε α} {y : Except ζ γ}

theorem follows_ok {a : α} {c : γ} (pair : related a c) :
    Follows related (.ok a : Except ε α) (.ok c : Except ζ γ) := by
  rintro _ ⟨⟩
  exact ⟨c, rfl, pair⟩

theorem follows_error {e : ε} : Follows related (.error e : Except ε α) y := by
  rintro _ ⟨⟩

theorem follows_refl (x : Except ε α) : Follows Eq x x :=
  fun a success => ⟨a, success, rfl⟩

theorem Follows.bind {after : β → δ → Prop} {f : α → Except ε β} {g : γ → Except ζ δ}
    (follows : Follows related x y) (next : ∀ a c, related a c → Follows after (f a) (g c)) :
    Follows after (x >>= f) (y >>= g) := by
  intro b success
  obtain ⟨a, first, later⟩ := bind_eq_ok.mp success
  obtain ⟨c, again, pair⟩ := follows a first
  obtain ⟨d, finished, result⟩ := next a c pair b later
  exact ⟨d, bind_eq_ok.mpr ⟨c, again, finished⟩, result⟩

theorem Follows.map {after : β → δ → Prop} {f : α → β} {g : γ → δ}
    (follows : Follows related x y) (next : ∀ a c, related a c → after (f a) (g c)) :
    Follows after (x.map f) (y.map g) := by
  intro b success
  obtain ⟨a, first, rfl⟩ := map_eq_ok.mp success
  obtain ⟨c, again, pair⟩ := follows a first
  exact ⟨g c, map_eq_ok.mpr ⟨c, again, rfl⟩, next a c pair⟩

theorem Follows.mapError {η θ : Type} {f : ε → η} {g : ζ → θ} (follows : Follows related x y) :
    Follows related (x.mapError f) (y.mapError g) := by
  intro a success
  obtain ⟨c, again, pair⟩ := follows a (mapError_eq_ok.mp success)
  exact ⟨c, mapError_eq_ok.mpr again, pair⟩

end Follows

end Deployment.Outcome
