import Deployment.Host.FileTree
import Deployment.Proofs.Outcome
import Deployment.Proofs.Texts
import Mathlib.Data.List.Induction

namespace Deployment.Host.FileTree

open Outcome (bind_eq_ok mapError_eq_ok)

variable {t u : FileTree} {working l m : Place} {name path : String} {xs ys : List String}
  {content : List UInt8} {e : Entry}

section Paths

theorem directory_of_follow_cons (led : t.follow l (name :: xs) = .ok m) :
    t.find? l = some .directory := by
  rw [follow] at led
  cases stands : t.find? l with
  | none => simp [stands] at led
  | some e =>
    cases e with
    | directory => rfl
    | file content executable => simp [stands] at led
    | locked => simp [stands] at led

theorem follow_append (t : FileTree) (l : Place) (xs ys : List String) :
    t.follow l (xs ++ ys) = (t.follow l xs).bind fun m => t.follow m ys := by
  induction xs generalizing l with
  | nil => rfl
  | cons name xs ih =>
    rw [List.cons_append, follow, follow]
    cases t.find? l with
    | none => rfl
    | some e =>
      cases e with
      | directory =>
        simp only [ih]
        split
        · rfl
        · split
          · rfl
          · split <;> rfl
      | file content executable => rfl
      | locked => rfl

theorem follow_of_directories
    (kept : ∀ m, t.find? m = some .directory → u.find? m = some .directory)
    (led : t.follow l xs = .ok m) : u.follow l xs = .ok m := by
  induction xs generalizing l with
  | nil => exact led
  | cons name xs ih =>
    have stands := directory_of_follow_cons led
    simp only [follow, stands] at led
    simp only [follow, kept l stands]
    by_cases own : (name = "" || name = ".") = true
    · rw [if_pos own] at led ⊢
      exact ih led
    rw [if_neg own] at led ⊢
    by_cases upper : name = ".."
    · rw [if_pos upper] at led ⊢
      exact ih led
    rw [if_neg upper] at led ⊢
    by_cases long : 255 < name.utf8ByteSize
    · rw [if_pos long] at led
      cases led
    · rw [if_neg long] at led ⊢
      exact ih led

theorem locate_eq_ok_iff :
    t.locate working path = .ok l ↔
      path.toList.any (·.toNat = 0) = false ∧ path ≠ "" ∧ path.utf8ByteSize < 4096 ∧
        t.follow (if path.startsWith "/" then [] else working) (names path) = .ok l := by
  rw [locate]
  by_cases nul : path.toList.any (·.toNat = 0) = true
  · simp only [nul, ↓reduceIte, reduceCtorEq, false_and]
  by_cases nothing : path = ""
  · simp [nothing]
  by_cases long : 4096 ≤ path.utf8ByteSize
  · have notShort : ¬ path.utf8ByteSize < 4096 := Nat.not_lt.mpr long
    simp only [nul, nothing, long, notShort, ↓reduceIte, reduceCtorEq, false_and, and_false]
  · rw [if_neg nul, if_neg nothing, if_neg long, mapError_eq_ok]
    have short : path.utf8ByteSize < 4096 := Nat.not_le.mp long
    simp only [Bool.eq_false_iff.mpr nul, ne_eq, nothing, not_false_eq_true, short, true_and]

theorem locate_of_directories
    (kept : ∀ m, t.find? m = some .directory → u.find? m = some .directory)
    (led : t.locate working path = .ok l) : u.locate working path = .ok l := by
  obtain ⟨nonzero, present, short, led⟩ := locate_eq_ok_iff.mp led
  exact locate_eq_ok_iff.mpr ⟨nonzero, present, short, follow_of_directories kept led⟩

/-- A name that stands for an entry of a directory. -/
structure EntryName (name : String) : Prop where
  whole : '/' ∉ name.toList
  nonzero : name.toList.any (·.toNat = 0) = false
  present : name ≠ ""
  own : name ≠ "."
  upper : name ≠ ".."
  short : name.utf8ByteSize ≤ 255

theorem names_below (base : String) (simple : EntryName name) :
    names (base ++ "/" ++ name) = names base ++ [name] := by
  have joined : (base ++ "/" ++ name).toList = base.toList ++ '/' :: name.toList := by simp
  rw [names, joined, Text.splitAt_append_cons, Text.splitAt_of_not_mem simple.whole, names]
  simp

theorem follow_entry (stands : t.find? l = some .directory) (simple : EntryName name) :
    t.follow l [name] = .ok (l ++ [name]) := by
  have fits : ¬ 255 < name.utf8ByteSize := Nat.not_lt.mpr simple.short
  simp [follow, stands, simple.present, simple.own, simple.upper, fits]

/-- Whether a path leads to a place with a directory. -/
structure Opens (t : FileTree) (working : Place) (path : String) (l : Place) : Prop where
  led : t.locate working path = .ok l
  stands : t.find? l = some .directory

theorem Opens.locate_below {base : String} (opens : t.Opens working base l)
    (simple : EntryName name) :
    t.locate working (base ++ "/" ++ name) =
      if (base ++ "/" ++ name).utf8ByteSize < 4096 then .ok (l ++ [name])
      else .error (.system .nameTooLong) := by
  obtain ⟨nonzero, present, _, led⟩ := locate_eq_ok_iff.mp opens.led
  have solid : (base ++ "/" ++ name).toList.any (·.toNat = 0) = false := by
    simp only [String.toList_append, List.any_append, nonzero, simple.nonzero]
    decide
  have longer : base ++ "/" ++ name ≠ "" := by
    intro nothing
    have size := congrArg String.utf8ByteSize nothing
    simp only [String.utf8ByteSize_append] at size
    have slash : "/".utf8ByteSize = 1 := by decide
    have none : "".utf8ByteSize = 0 := by decide
    omega
  have begins : (base ++ "/" ++ name).startsWith "/" = base.startsWith "/" := by
    rw [Bool.eq_iff_iff, String.startsWith_string_iff, String.startsWith_string_iff]
    cases cs : base.toList with
    | nil => exact absurd (String.toList_eq_nil_iff.mp cs) present
    | cons c rest => simp [cs, List.cons_prefix_cons]
  split
  · rename_i short
    rw [locate_eq_ok_iff]
    refine ⟨solid, longer, short, ?_⟩
    rw [begins, names_below base simple, follow_append, led]
    exact follow_entry opens.stands simple
  · rename_i long
    rw [locate, if_neg (Bool.eq_false_iff.mp solid), if_neg longer, if_pos (Nat.not_lt.mp long)]

theorem directory_of_slash (led : t.locate working path = .ok l) (ends : path.endsWith "/" = true) :
    t.find? l = some .directory := by
  obtain ⟨_, _, _, led⟩ := locate_eq_ok_iff.mp led
  rw [String.endsWith_eq_endsWith_toSlice, String.Slice.endsWith_string_iff] at ends
  obtain ⟨front, joined⟩ := ends
  have cut : names path = (Text.splitAt '/' front).map String.ofList ++ [""] := by
    have whole : path.toList = front ++ '/' :: [] := by
      rw [← String.copy_toSlice (s := path), ← joined]
      simp
    rw [names, whole, Text.splitAt_append_cons]
    simp [Text.splitAt]
  rw [cut, follow_append] at led
  obtain ⟨m, _, last⟩ := bind_eq_ok.mp led
  have stands := directory_of_follow_cons last
  have same : m = l := by simpa [follow, stands] using last
  rwa [same] at stands

theorem joinPath_entry {base : String} (present : base ≠ "") (plain : base.endsWith "/" = false)
    (simple : EntryName name) : joinPath base name = base ++ "/" ++ name := by
  have relative : name.startsWith "/" = false := by
    rw [Bool.eq_false_iff, ne_eq, String.startsWith_string_iff]
    intro front
    exact simple.whole (front.subset (by simp))
  simp only [joinPath, relative, present, plain, decide_false, Bool.or_self, Bool.false_eq_true,
    ↓reduceIte]

end Paths

section Writing

theorem writeAt_eq_ok (written : t.writeAt l content = .ok u) :
    l ≠ [] ∧ t.find? l ≠ some .directory ∧ ∃ executable, u = t.put l (.file content executable) := by
  have below (free : t.find? l ≠ some .directory) : l ≠ [] := by
    intro top
    subst top
    exact free rfl
  rw [writeAt] at written
  split at written
  · cases written
  · cases written
  · rename_i stands
    cases written
    exact ⟨below (by simp [stands]), by simp [stands], _, rfl⟩
  · rename_i stands
    split at written
    · cases written
    · cases written
      exact ⟨below (by simp [stands]), by simp [stands], _, rfl⟩

theorem writeAt_of_free (free : t.find? (l ++ [name]) = none)
    (stands : t.find? l = some .directory) :
    t.writeAt (l ++ [name]) content = .ok (t.put (l ++ [name]) (.file content false)) := by
  simp [writeAt, free, parentFault?, stands]

theorem write_eq_ok_iff :
    t.write working path content = .ok u ↔
      ∃ l, t.locate working path = .ok l ∧ t.writeAt l content = .ok u := by
  rw [write]
  apply bind_eq_ok.trans
  simp only [mapError_eq_ok]

theorem read_eq_ok_iff :
    t.read working path = .ok content ↔
      ∃ l executable, t.locate working path = .ok l ∧
        t.find? l = some (.file content executable) := by
  rw [read]
  constructor
  · intro found
    obtain ⟨l, led, found⟩ := bind_eq_ok.mp found
    split at found
    · cases found
      exact ⟨l, _, led, by assumption⟩
    · cases found
    · cases found
    · cases found
  · intro found
    obtain ⟨l, executable, led, stands⟩ := found
    simp [led, Except.bind, stands]

theorem directory_put (free : t.find? l ≠ some .directory) (m : Place)
    (stands : t.find? m = some .directory) : (t.put l e).find? m = some .directory := by
  have different : m ≠ l := by
    intro same
    subst same
    exact free stands
  rw [find?_put_of_ne t e different, stands]

theorem Opens.put (opens : t.Opens working path l) (free : t.find? m ≠ some .directory)
    (e : Entry) : (t.put m e).Opens working path l :=
  ⟨locate_of_directories (directory_put free) opens.led, directory_put free l opens.stands⟩

theorem Opens.write_entry {base : String} (opens : t.Opens working base l)
    (simple : EntryName name) (written : t.write working (base ++ "/" ++ name) content = .ok u) :
    t.locate working (base ++ "/" ++ name) = .ok (l ++ [name]) ∧
      t.find? (l ++ [name]) ≠ some .directory ∧
      ∃ executable, u = t.put (l ++ [name]) (.file content executable) := by
  obtain ⟨m, found, written⟩ := write_eq_ok_iff.mp written
  have below := opens.locate_below simple
  rw [found] at below
  split at below
  · cases below
    exact ⟨found, (writeAt_eq_ok written).2⟩
  · cases below

theorem Opens.write_new {base : String} (opens : t.Opens working base l) (simple : EntryName name)
    (short : (base ++ "/" ++ name).utf8ByteSize < 4096) (free : t.find? (l ++ [name]) = none)
    (content : List UInt8) :
    t.write working (base ++ "/" ++ name) content =
      .ok (t.put (l ++ [name]) (.file content false)) := by
  rw [write_eq_ok_iff]
  refine ⟨l ++ [name], ?_, writeAt_of_free free opens.stands⟩
  rw [opens.locate_below simple, if_pos short]

theorem read_write (written : t.write working path content = .ok u) :
    u.read working path = .ok content := by
  obtain ⟨l, led, written⟩ := write_eq_ok_iff.mp written
  obtain ⟨below, free, executable, rfl⟩ := writeAt_eq_ok written
  exact read_eq_ok_iff.mpr
    ⟨l, executable, locate_of_directories (directory_put free) led, find?_put_self t _ below⟩

theorem read_write_of_ne {other : String} {before : List UInt8}
    (written : t.write working path content = .ok u)
    (apart : t.locate working path ≠ t.locate working other)
    (present : t.read working other = .ok before) : u.read working other = .ok before := by
  obtain ⟨l, led, written⟩ := write_eq_ok_iff.mp written
  obtain ⟨_, free, _, rfl⟩ := writeAt_eq_ok written
  obtain ⟨m, executable, found, stands⟩ := read_eq_ok_iff.mp present
  have different : m ≠ l := by
    intro same
    subst same
    exact apart (led.trans found.symm)
  refine read_eq_ok_iff.mpr ⟨m, executable, locate_of_directories (directory_put free) found, ?_⟩
  rw [find?_put_of_ne t _ different, stands]

theorem makeDirectory_eq_ok_iff :
    t.makeDirectory l = .ok u ↔
      t.find? l = none ∧ t.parentFault? l = none ∧ u = t.put l .directory := by
  rw [makeDirectory]
  cases t.find? l with
  | some e => simp
  | none =>
    cases t.parentFault? l with
    | some fault => simp
    | none => simp [eq_comm]

/-- Whether two trees are the same at a place and below it. -/
def SameBelow (l : Place) (t u : FileTree) : Prop :=
  ∀ m, l <+: m → u.find? m = t.find? m

end Writing

section Rooted

/-- Whether every entry stands in a directory. -/
def Rooted (t : FileTree) : Prop :=
  ∀ l name, t.find? (l ++ [name]) ≠ none → t.find? l = some .directory

theorem Rooted.free_below (rooted : t.Rooted) (bare : t.find? l ≠ some .directory)
    (below : l <+: m) (other : m ≠ l) : t.find? m = none := by
  obtain ⟨rest, rfl⟩ := below
  induction rest using List.reverseRecOn with
  | nil => exact absurd (List.append_nil l) other
  | append_singleton rest name ih =>
    by_contra present
    rw [← List.append_assoc] at present
    have parent := rooted _ _ present
    by_cases same : l ++ rest = l
    · rw [same] at parent
      exact bare parent
    · rw [ih same] at parent
      cases parent

/-- A place that was free, and is free again, holds what it held before, however much was put and
left there in between. -/
theorem Rooted.sameBelow_removeTree {root : Place} {middle : FileTree} (rooted : t.Rooted)
    (free : t.find? l = none) (outside : ∀ m, ¬ l <+: m → middle.find? m = t.find? m)
    (spared : SameBelow root middle u) : SameBelow root t (u.removeTree l) := by
  intro m below
  by_cases top : m = []
  · subst top
    rfl
  rw [find?_removeTree u l top]
  by_cases within : l <+: m
  · rw [if_pos (List.isPrefixOf_iff_prefix.mpr within)]
    by_cases same : m = l
    · rw [same, free]
    · rw [rooted.free_below (by simp [free]) within same]
  · rw [if_neg (fun found => within (List.isPrefixOf_iff_prefix.mp found)), spared m below,
      outside m within]

theorem rooted_empty : Rooted .empty := by
  intro l name present
  simp [empty, find?] at present

theorem Rooted.put (rooted : t.Rooted) (free : t.find? l ≠ some .directory)
    (held : t.find? l.dropLast = some .directory) : (t.put l e).Rooted := by
  intro m name present
  by_cases same : m ++ [name] = l
  · subst same
    rw [List.dropLast_concat] at held
    exact directory_put free m held
  · rw [find?_put_of_ne t e same] at present
    exact directory_put free m (rooted m name present)

theorem directory_of_parentFault? (sound : t.parentFault? l = none) :
    t.find? l.dropLast = some .directory := by
  rw [parentFault?] at sound
  split at sound
  · assumption
  · cases sound
  · cases sound

theorem Rooted.makeDirectory (rooted : t.Rooted) (made : t.makeDirectory l = .ok u) :
    u.Rooted := by
  obtain ⟨free, sound, rfl⟩ := makeDirectory_eq_ok_iff.mp made
  exact rooted.put (by simp [free]) (directory_of_parentFault? sound)

theorem Rooted.writeAt (rooted : t.Rooted) (written : t.writeAt l content = .ok u) :
    u.Rooted := by
  obtain ⟨below, free, _, rfl⟩ := writeAt_eq_ok written
  apply rooted.put free
  by_cases present : t.find? l = none
  · rw [FileTree.writeAt, present] at written
    cases fault : t.parentFault? l with
    | some fault => simp [fault] at written
    | none => exact directory_of_parentFault? fault
  · obtain ⟨front, name, rfl⟩ := List.eq_nil_or_concat l |>.resolve_left below
    simpa using rooted front name (by simpa using present)

theorem Rooted.write (rooted : t.Rooted) (written : t.write working path content = .ok u) :
    u.Rooted := by
  obtain ⟨l, _, written⟩ := write_eq_ok_iff.mp written
  exact rooted.writeAt written

theorem Rooted.removeTree (rooted : t.Rooted) (l : Place) : (t.removeTree l).Rooted := by
  intro m name present
  rw [find?_removeTree t l (by simp)] at present
  split at present
  · exact absurd rfl present
  · rename_i apart
    by_cases top : m = []
    · subst top
      rfl
    · have outside : l.isPrefixOf m = false := by
        rw [Bool.eq_false_iff]
        intro within
        rw [List.isPrefixOf_iff_prefix] at within apart
        exact apart (within.trans (List.prefix_append m [name]))
      rw [find?_removeTree t l top, outside]
      exact rooted m name present

end Rooted

end Deployment.Host.FileTree
