import Deployment.Proofs.Stages

namespace Deployment

open Yaml (Value Mismatch)
open Outcome

/-- What the entries of a section describe. -/
def Section.Entity : Section → Type
  | .networks => Network
  | .resourcePools => ResourcePool
  | .diskPools => DiskPool
  | .jobs => Job

/-- The entities that the entries of a section describe. -/
def Section.parse : (part : Section) → List Value → Except SectionError (List part.Entity)
  | .networks => parseNetworks
  | .resourcePools => parseResourcePools
  | .diskPools => parseDiskPools
  | .jobs => parseJobs

/-- The same error at an entry that stands so many places further on. -/
def SectionError.moved (n : Nat) (e : SectionError) : SectionError :=
  { e with label := { e.label with index := e.label.index + n } }

section ReadEach

variable {α β ε : Type} {read : Nat → α → Except ε β} {i : Nat} {xs : List α}

theorem readEach_append (read : Nat → α → Except ε β) (i : Nat) (xs ys : List α) :
    readEach read i (xs ++ ys) = do
      let as ← readEach read i xs
      let bs ← readEach read (i + xs.length) ys
      return as ++ bs := by
  induction xs generalizing i with
  | nil =>
    rw [List.nil_append, readEach]
    cases readEach read i ys <;> rfl
  | cons x rest ih =>
    have next : i + 1 + rest.length = i + (x :: rest).length := by
      rw [List.length_cons]
      omega
    rw [List.cons_append, readEach, readEach, ih, next]
    cases read i x with
    | error e => rfl
    | ok a =>
      cases readEach read (i + 1) rest with
      | error e => rfl
      | ok as => cases readEach read (i + (x :: rest).length) ys <;> rfl

/-- When single items fail further on as they fail here, a list of them does. -/
theorem readEach_moved {n : Nat} {moved : ε → ε}
    (moves : ∀ i x, read (i + n) x = (read i x).mapError moved) (i : Nat) (xs : List α) :
    readEach read (i + n) xs = (readEach read i xs).mapError moved := by
  induction xs generalizing i with
  | nil => rfl
  | cons x rest ih =>
    rw [readEach, readEach, moves, Nat.add_right_comm, ih]
    cases read i x with
    | error e => rfl
    | ok a => cases readEach read (i + 1) rest <;> rfl

theorem readEach_error {e : ε} (failed : readEach read i xs = .error e) :
    ∃ before x after ys, xs = before ++ x :: after ∧ readEach read i before = .ok ys ∧
      read (i + before.length) x = .error e := by
  induction xs generalizing i with
  | nil => cases failed
  | cons x rest ih =>
    rw [readEach] at failed
    rcases bind_eq_error.mp failed with here | ⟨y, head, later⟩
    · exact ⟨[], x, rest, [], rfl, rfl, here⟩
    · rcases bind_eq_error.mp later with tail | ⟨ys, _, done⟩
      · obtain ⟨before, z, after, ys, rfl, passed, fault⟩ := ih tail
        refine ⟨x :: before, z, after, y :: ys, rfl, ?_, ?_⟩
        · rw [readEach, head, passed]
          rfl
        · rwa [List.length_cons, Nat.add_comm before.length, ← Nat.add_assoc]
      · cases done

end ReadEach

/-- Whether entities come of entries one by one, and errors with the index of their entry. -/
structure Entrywise {α : Type} (parse : List Value → Except SectionError (List α)) : Prop where
  /-- What follows a list that fails does not matter. -/
  first : ∀ xs ys e, parse xs = .error e → parse (xs ++ ys) = .error e
  /-- Behind a list that does not fail, only the index of an error is another one. -/
  second : ∀ xs ys as e, parse xs = .ok as → parse ys = .error e →
    parse (xs ++ ys) = .error (e.moved xs.length)
  /-- Two lists that do not fail give what they give by themselves, in a row. -/
  both : ∀ xs ys as bs, parse xs = .ok as → parse ys = .ok bs → parse (xs ++ ys) = .ok (as ++ bs)
  /-- There is one entity for each entry. -/
  length : ∀ xs as, parse xs = .ok as → as.length = xs.length
  /-- An entity is the one that its entry alone gives. -/
  alone : ∀ xs as (i : Nat) entry, parse xs = .ok as → xs[i]? = some entry →
    ∃ a, as[i]? = some a ∧ parse [entry] = .ok [a]
  /-- An error is the one that an entry alone gives, at the place of this entry. -/
  fault : ∀ xs e, parse xs = .error e → ∃ entry cause, xs[e.label.index]? = some entry ∧
    parse [entry] = .error cause ∧ e = cause.moved e.label.index

section Entries

variable {ρ α : Type} {part : Section} {decode : Value → Except Mismatch ρ}
  {build : ρ → Except EntryError α}

theorem parseEntry_moved (n i : Nat) (entry : Value) : parseEntry part decode build (i + n) entry =
    (parseEntry part decode build i entry).mapError (SectionError.moved n) := by
  rw [parseEntry, parseEntry]
  cases ((decode entry).mapError .decode).bind build <;> rfl

theorem parseEntry_error {i : Nat} {entry : Value} {e : SectionError}
    (failed : parseEntry part decode build i entry = .error e) :
    ∃ cause, e = ⟨part, ⟨i, entryName entry⟩, cause⟩ ∧
      ((∃ m, decode entry = .error m ∧ cause = .decode m) ∨
        ∃ r, decode entry = .ok r ∧ build r = .error cause) := by
  rw [parseEntry, mapError_eq_error] at failed
  obtain ⟨cause, fault, rfl⟩ := failed
  refine ⟨cause, rfl, ?_⟩
  rcases bind_eq_error.mp fault with undecoded | ⟨r, decoded, unbuilt⟩
  · obtain ⟨m, miss, rfl⟩ := mapError_eq_error.mp undecoded
    exact .inl ⟨m, miss, rfl⟩
  · exact .inr ⟨r, mapError_eq_ok.mp decoded, unbuilt⟩

theorem readEach_single {i : Nat} {entry : Value} :
    readEach (parseEntry part decode build) i [entry] =
      (parseEntry part decode build i entry).map ([·]) := by
  rw [readEach]
  cases parseEntry part decode build i entry <;> rfl

theorem entrywise_readEach : Entrywise (readEach (parseEntry part decode build) 0) := by
  -- A list that begins at a later index gives what it gives at the first, but for the indices.
  have further (n : Nat) (xs : List Value) : readEach (parseEntry part decode build) (0 + n) xs =
      (readEach (parseEntry part decode build) 0 xs).mapError (SectionError.moved n) :=
    readEach_moved (parseEntry_moved n) 0 xs
  constructor
  · intro xs ys e failed
    rw [readEach_append, failed]
    rfl
  · intro xs ys as e passed failed
    rw [readEach_append, passed, further, failed]
    rfl
  · intro xs ys as bs passed also
    rw [readEach_append, passed, further, also]
    rfl
  · intro xs as passed
    exact (readEach_ok passed).length_eq.symm
  · intro xs as i entry passed here
    obtain ⟨lengths, each⟩ := List.forall₂_iff_get.mp (section_ok passed)
    obtain ⟨bound, rfl⟩ := List.getElem?_eq_some_iff.mp here
    have within : i < as.length := lengths ▸ bound
    have own : parseEntry part decode build 0 xs[i] = .ok as[i] :=
      parseEntry_ok.mpr (each i bound within)
    refine ⟨as[i], List.getElem?_eq_getElem within, ?_⟩
    rw [readEach_single, own]
    rfl
  · intro xs e failed
    obtain ⟨before, entry, after, _, rfl, _, fault⟩ := readEach_error failed
    rw [parseEntry_moved] at fault
    obtain ⟨cause, alone, rfl⟩ := mapError_eq_error.mp fault
    have place : (cause.moved before.length).label.index = before.length := by
      obtain ⟨_, rfl, _⟩ := parseEntry_error alone
      exact Nat.zero_add _
    refine ⟨entry, cause, ?_, ?_, ?_⟩
    · rw [place]
      simp
    · rw [readEach_single, alone]
      rfl
    · rw [place]

end Entries

/-- Each section reads its entries by themselves and in their order. -/
theorem Section.parse_entrywise (part : Section) : Entrywise part.parse := by
  cases part with
  | networks => exact entrywise_readEach
  | resourcePools => exact entrywise_readEach
  | diskPools => exact entrywise_readEach
  | jobs => exact entrywise_readEach

/-- A job whose second template has no name, behind a job that is null. -/
theorem Section.parse_entrywise_template :
    let unnamed : Value := .mapping
      [(.string "templates", .sequence [.mapping [(.string "name", .string "t")], .null])]
    let cause : EntryError := .missingTemplateName 1
    (∃ jobs, parseJobs [.null] = .ok jobs) ∧
      parseJobs [unnamed, .null] = .error ⟨.jobs, ⟨0, none⟩, cause⟩ ∧
      parseJobs ([.null] ++ [unnamed, .null]) = .error ⟨.jobs, ⟨1, none⟩, cause⟩ := by
  intro unnamed cause
  have failed : parseJobs [unnamed, .null] = .error ⟨.jobs, ⟨0, none⟩, cause⟩ := rfl
  have passed : ∃ jobs, parseJobs [.null] = .ok jobs := ⟨_, rfl⟩
  obtain ⟨jobs, read⟩ := passed
  exact ⟨⟨jobs, read⟩, failed, (Section.parse_entrywise .jobs).second _ _ _ _ read failed⟩

end Deployment
