import Deployment.Text.Blank
import Deployment.Text.Split
import Mathlib.Data.List.DropRight
import Mathlib.Data.List.TakeWhile

namespace Deployment.Text

section Split

variable {separator : Char} {cs : List Char}

theorem splitAt_eq_splitOn (separator : Char) (cs : List Char) :
    splitAt separator cs = cs.splitOn separator := by
  induction cs with
  | nil => rfl
  | cons c rest ih =>
    rw [splitAt, ih, List.splitOn_cons_eq_if_modifyHead]
    by_cases same : c = separator
    · simp [same]
    · rw [if_neg same, if_neg (by simpa using same)]
      cases pieces : rest.splitOn separator with
      | nil => exact absurd pieces (List.splitOn_ne_nil _ _)
      | cons first others => rfl

theorem splitAt_append_cons (separator : Char) (cs ds : List Char) :
    splitAt separator (cs ++ separator :: ds) = splitAt separator cs ++ splitAt separator ds := by
  simp only [splitAt_eq_splitOn, List.splitOn_append_cons_self]

theorem splitAt_of_not_mem (absent : separator ∉ cs) : splitAt separator cs = [cs] := by
  rw [splitAt_eq_splitOn, List.splitOn_eq_singleton absent]

theorem splitAt_append (absent : separator ∉ cs) (rest : List Char) :
    splitAt separator (cs ++ separator :: rest) = cs :: splitAt separator rest := by
  rw [splitAt_append_cons, splitAt_of_not_mem absent, List.singleton_append]

/-- Cutting once at the first separator, and then cutting what stands after it, is cutting. -/
theorem splitAt_eq_splitFirst (separator : Char) (cs : List Char) : splitAt separator cs =
    match splitFirst separator cs with
    | (before, none) => [before]
    | (before, some after) => before :: splitAt separator after := by
  induction cs with
  | nil => rfl
  | cons c rest ih =>
    by_cases cut : c = separator
    · simp [splitAt, splitFirst, cut]
    · rw [splitAt, if_neg cut, ih, splitFirst, if_neg cut]
      obtain ⟨before, after⟩ := splitFirst separator rest
      cases after <;> rfl

theorem not_mem_of_mem_splitAt {piece : List Char} (member : piece ∈ splitAt separator cs) :
    separator ∉ piece := by
  induction cs generalizing piece with
  | nil => simp_all [splitAt]
  | cons c rest ih =>
    rw [splitAt] at member
    split at member
    · rcases List.mem_cons.mp member with rfl | later
      · exact List.not_mem_nil
      · exact ih later
    · rename_i other
      split at member
      · rename_i first others pieces
        rw [pieces] at ih
        rcases List.mem_cons.mp member with rfl | later
        · simp [Ne.symm other, ih List.mem_cons_self]
        · exact ih (List.mem_cons_of_mem _ later)
      · simp_all [Ne.symm other]

/-- The pieces of a text are what the separator joins to it without occurring in it. -/
theorem splitAt_eq_iff {pieces : List (List Char)} (present : pieces ≠ []) :
    splitAt separator cs = pieces ↔
      [separator].intercalate pieces = cs ∧ ∀ piece ∈ pieces, separator ∉ piece := by
  constructor
  · intro same
    subst same
    refine ⟨?_, fun piece => not_mem_of_mem_splitAt⟩
    rw [splitAt_eq_splitOn, List.intercalate_splitOn]
  · intro joined
    obtain ⟨rfl, free⟩ := joined
    rw [splitAt_eq_splitOn, List.splitOn_intercalate separator free present]

theorem splitAt_eq_pair_iff {left right : List Char} :
    splitAt separator cs = [left, right] ↔
      left ++ separator :: right = cs ∧ separator ∉ left ∧ separator ∉ right := by
  simp [splitAt_eq_iff]

theorem length_splitAt (separator : Char) (cs : List Char) :
    (splitAt separator cs).length = cs.count separator + 1 := by
  induction cs with
  | nil => rfl
  | cons c rest ih =>
    rw [splitAt_eq_splitOn] at ih
    rw [splitAt_eq_splitOn, List.splitOn_cons_eq_if_modifyHead, List.count_cons]
    by_cases same : c = separator <;> simp [same, ih]

theorem exists_mem_splitAt {c : Char} (member : c ∈ cs) (other : c ≠ separator) :
    ∃ piece ∈ splitAt separator cs, c ∈ piece := by
  induction cs with
  | nil => cases member
  | cons d rest ih =>
    rw [splitAt]
    split
    · rename_i cut
      have later : c ∈ rest :=
        (List.mem_cons.mp member).resolve_left fun same => other (same.trans cut)
      obtain ⟨piece, within, found⟩ := ih later
      exact ⟨piece, List.mem_cons_of_mem _ within, found⟩
    · split
      · rename_i first others pieces
        rw [pieces] at ih
        rcases List.mem_cons.mp member with rfl | later
        · exact ⟨_, List.mem_cons_self, List.mem_cons_self⟩
        · obtain ⟨piece, within, found⟩ := ih later
          rcases List.mem_cons.mp within with rfl | among
          · exact ⟨_, List.mem_cons_self, List.mem_cons_of_mem _ found⟩
          · exact ⟨piece, List.mem_cons_of_mem _ among, found⟩
      · rename_i pieces
        exact absurd (length_splitAt separator rest) (by simp [pieces])

end Split

section Trim

/-- Whether a text is what another one is without the blanks at its ends. -/
def Trimmed (cs t : List Char) : Prop :=
  ∃ front back, cs = front ++ t ++ back ∧ (∀ c ∈ front, isBlank c) ∧ (∀ c ∈ back, isBlank c) ∧
    (∀ c ∈ t.head?, ¬ isBlank c) ∧ ∀ c ∈ t.getLast?, ¬ isBlank c

variable {cs t : List Char}

private theorem not_blank_of_head?_dropWhile {c : Char} (cs : List Char)
    (first : c ∈ (cs.dropWhile isBlank).head?) : ¬ isBlank c := by
  have stopped := List.head?_dropWhile_not isBlank cs
  rw [first] at stopped
  simpa using stopped

private theorem dropWhile_of_head? (stops : ∀ c ∈ cs.head?, ¬ isBlank c) :
    cs.dropWhile isBlank = cs := by
  cases cs with
  | nil => rfl
  | cons c rest => exact List.dropWhile_cons_of_neg (stops c rfl)

theorem exists_trimRight_append (cs : List Char) :
    ∃ back, trimRight cs ++ back = cs ∧ ∀ c ∈ back, isBlank c :=
  ⟨cs.rtakeWhile isBlank, List.rdropWhile_append_rtakeWhile, fun _ => List.mem_rtakeWhile_imp⟩

theorem trimmed_trim (cs : List Char) : Trimmed cs (trim cs) := by
  have front : cs.takeWhile isBlank ++ cs.dropWhile isBlank = cs :=
    List.takeWhile_append_dropWhile
  obtain ⟨back, whole, blank⟩ := exists_trimRight_append (cs.dropWhile isBlank)
  rw [← trim] at whole
  refine ⟨cs.takeWhile isBlank, back, ?_, fun c => List.mem_takeWhile_imp, blank, ?_, ?_⟩
  · rw [List.append_assoc, whole, front]
  · intro c first
    apply not_blank_of_head?_dropWhile cs
    rw [← whole]
    exact List.mem_head?_append_of_mem_head? first
  · intro c last
    apply not_blank_of_head?_dropWhile (cs.dropWhile isBlank).reverse
    simpa [trim, trimRight] using last

/-- Trimming is determined by what it leaves. -/
theorem Trimmed.eq_trim (trimmed : Trimmed cs t) : t = trim cs := by
  obtain ⟨front, back, rfl, before, after, first, last⟩ := trimmed
  have behind : trimRight (t ++ back) = t := by
    rw [trimRight, List.reverse_append, List.dropWhile_append_of_pos fun c member =>
      after c (List.mem_reverse.mp member), dropWhile_of_head? (by simpa using last),
      List.reverse_reverse]
  rw [trim, List.append_assoc, List.dropWhile_append_of_pos before]
  cases t with
  | nil =>
    have nothing : back.dropWhile isBlank = [] := List.dropWhile_eq_nil_iff.mpr after
    rw [List.nil_append, nothing]
    rfl
  | cons c rest =>
    have stops : ((c :: rest) ++ back).dropWhile isBlank = (c :: rest) ++ back :=
      dropWhile_of_head? first
    rw [stops, behind]

theorem trimmed_iff : Trimmed cs t ↔ t = trim cs := by
  constructor
  · exact Trimmed.eq_trim
  · intro same
    subst same
    exact trimmed_trim cs

theorem trimmed_toList_iff {s t : String} : Trimmed s.toList t.toList ↔ t = trimString s := by
  rw [trimmed_iff, trimString, ← String.toList_inj, String.toList_ofList]

theorem trimmed_empty_iff {s : String} : Trimmed s.toList [] ↔ trimString s = "" := by
  rw [← String.toList_empty, trimmed_toList_iff, eq_comm]

theorem trimmed_nil_iff : Trimmed cs [] ↔ ∀ c ∈ cs, isBlank c := by
  constructor
  · intro nothing c member
    obtain ⟨front, back, rfl, before, after, _⟩ := nothing
    rw [List.append_nil] at member
    rcases List.mem_append.mp member with early | late
    · exact before c early
    · exact after c late
  · intro blank
    exact ⟨cs, [], by simp, blank, by simp, by simp, by simp⟩

theorem Trimmed.mem {c : Char} (trimmed : Trimmed cs t) (member : c ∈ cs)
    (solid : ¬ isBlank c) : c ∈ t := by
  obtain ⟨front, back, rfl, before, after, _⟩ := trimmed
  rcases List.mem_append.mp member with early | late
  · rcases List.mem_append.mp early with first | within
    · exact absurd (before c first) solid
    · exact within
  · exact absurd (after c late) solid

theorem Trimmed.again (trimmed : Trimmed cs t) : Trimmed t t := by
  obtain ⟨_, _, _, _, _, first, last⟩ := trimmed
  exact ⟨[], [], by simp, by simp, by simp, first, last⟩

theorem mem_trimRight {c : Char} (member : c ∈ cs) (solid : ¬ isBlank c) : c ∈ trimRight cs := by
  obtain ⟨back, whole, blank⟩ := exists_trimRight_append cs
  rw [← whole] at member
  exact (List.mem_append.mp member).resolve_right fun late => solid (blank c late)

theorem head?_trimRight {c : Char} (first : cs.head? = some c) (solid : ¬ isBlank c) :
    (trimRight cs).head? = some c := by
  obtain ⟨back, whole, blank⟩ := exists_trimRight_append cs
  rw [← whole, List.head?_append] at first
  cases front : (trimRight cs).head? with
  | some d => simpa [front] using first
  | none =>
    rw [front] at first
    exact absurd (blank c (List.mem_of_head? first)) solid

theorem trim_of_not_blank (solid : ∀ c ∈ cs, isBlank c = false) : trim cs = cs := by
  have within (c : Char) (member : c ∈ cs) : ¬ isBlank c := by simp [solid c member]
  have unchanged : Trimmed cs cs :=
    ⟨[], [], by simp, by simp, by simp, fun c first => within c (List.mem_of_mem_head? first),
      fun c last => within c (List.mem_of_getLast? last)⟩
  exact unchanged.eq_trim.symm

end Trim

theorem append_inj_of_stops {inside : Char → Bool} {front other back rest : List Char}
    (within : ∀ c ∈ front, inside c = true) (withinOther : ∀ c ∈ other, inside c = true)
    (stops : ∀ c ∈ back.head?, inside c = false) (stopsOther : ∀ c ∈ rest.head?, inside c = false)
    (same : front ++ back = other ++ rest) : front = other ∧ back = rest := by
  have taken {front back : List Char} (within : ∀ c ∈ front, inside c = true)
      (stops : ∀ c ∈ back.head?, inside c = false) : (front ++ back).takeWhile inside = front := by
    rw [List.takeWhile_append_of_pos within]
    cases back with
    | nil => simp
    | cons c cs => simp [stops c rfl]
  have fronts : front = other := by
    rw [← taken within stops, same, taken withinOther stopsOther]
  subst fronts
  exact ⟨rfl, List.append_cancel_left same⟩

end Deployment.Text
