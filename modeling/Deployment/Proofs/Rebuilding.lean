import Deployment.Proofs.JsonReading

namespace Deployment.Property

open Yaml (Value)

/-- The trees that come about: built from values, read from JSON text, or maps of these laid over
one another any number of times. -/
inductive Obtained : Property → Prop where
  | built {v : Value} {p : Property} (success : build v = .ok p) : Obtained p
  | block {v : Value} {m : PropertyMap} (success : PropertyMap.build v = .ok m) : Obtained (.map m)
  | read {text : String} {p : Property} (success : ofJson text = some p) : Obtained p
  | merged {lower upper : PropertyMap} (below : Obtained (.map lower))
      (above : Obtained (.map upper)) : Obtained (.map (lower.merge upper))

theorem normal_empty : (Property.map []).Normal :=
  normal_map.mpr (by simp [PropertyMap.keys])

theorem normal_build {v : Value} {p : Property} (success : build v = .ok p) : p.Normal := by
  by_cases null : v = .null
  · subst null
    cases success
    exact normal_empty
  · rw [build_eq_ofValue null] at success
    exact normal_ofValue success

/-- Nothing is built as a null: on its own it stands for no properties. -/
theorem build_ne_null {v : Value} {p : Property} (success : build v = .ok p) : p ≠ .null := by
  rintro rfl
  by_cases null : v = .null
  · subst null
    cases success
  · rw [build_eq_ofValue null] at success
    have stands : Value.null = v.withDecimalKeys := toYaml_ofValue success
    cases v with
    | null => exact null rfl
    | _ => simp [Value.withDecimalKeys] at stands

theorem Obtained.normal {p : Property} (obtained : Obtained p) : p.Normal := by
  induction obtained with
  | built success => exact normal_build success
  | block success =>
    rcases PropertyMap.build_ok success with ⟨_, rfl⟩ | whole
    · exact normal_empty
    · exact normal_ofValue whole
  | read success => exact Json.normal_ofJson success
  | merged below above lower upper => exact lower.merge upper

/-- A tree that has come about is built anew from the value it stands for, unless it is a null on
its own. A tree that was built is none. -/
theorem build_toYaml_obtained :
    (∀ p, Obtained p → p ≠ .null → build p.toYaml = .ok p) ∧
      ∀ v p, build v = .ok p → build p.toYaml = .ok p := by
  constructor
  · intro p obtained present
    exact build_toYaml_iff.mpr ⟨present, obtained.normal⟩
  · intro v p success
    exact build_toYaml_iff.mpr ⟨build_ne_null success, normal_build success⟩

/-- A map with a repeated name read from JSON text, under one with an integer key and no number. -/
theorem build_toYaml_obtained_layers :
    let text := "\x7b\"port\":-0,\"port\":9223372036854775808,\"web\":\x7b\x7d\x7d"
    let v : Value := .mapping [(.string "web", .mapping [
      (.number (.whole ⟨80, by decide, by decide⟩), .number (.float (0.0 / 0.0)))])]
    ∃ lower upper : PropertyMap, ofJson text = some (.map lower) ∧
      PropertyMap.build v = .ok upper ∧ Obtained (.map (lower.merge upper)) ∧
      Property.map (lower.merge upper) ≠ .null ∧
      build (Property.map (lower.merge upper)).toYaml = .ok (.map (lower.merge upper)) ∧
      ∃ p, build .null = .ok p ∧ build p.toYaml = .ok p := by
  intro text v
  have shape : ((ofJson text).bind asMap?).isSome = true := by decide +kernel
  obtain ⟨lower, found⟩ := Option.isSome_iff_exists.mp shape
  obtain ⟨p, read, isMap⟩ := Option.bind_eq_some_iff.mp found
  cases p with
  | map m =>
    cases isMap
    obtain ⟨upper, built⟩ : ∃ upper, PropertyMap.build v = .ok upper := ⟨_, rfl⟩
    have obtained : Obtained (.map (lower.merge upper)) :=
      .merged (.read read) (.block built)
    have present : Property.map (lower.merge upper) ≠ .null := by simp
    exact ⟨lower, upper, read, built, obtained, present, build_toYaml_obtained.1 _ obtained present,
      .map [], rfl, build_toYaml_obtained.2 .null _ rfl⟩
  | _ => cases isMap

end Deployment.Property
