import Deployment.Proofs.JsonScalars
import Deployment.Proofs.NormalForm
import Mathlib.Data.List.Induction

namespace Deployment.Json

open Property (normal_list normal_map normal_of_single)

theorem absorb_lt {significand : Nat} (fits : significand < 0x10000000000000000)
    (cs : List Char) : (Numeral.absorb significand cs).1 < 0x10000000000000000 := by
  induction cs generalizing significand with
  | nil => exact fits
  | cons d rest ih =>
    by_cases grows : significand * 10 + (d.toNat - 48) < 0x10000000000000000
    · simpa only [Numeral.absorb, if_pos grows] using ih grows
    · simpa only [Numeral.absorb, if_neg grows] using fits

private theorem normal_uint {n : Nat} (large : ¬ n < 0x8000000000000000)
    (fits : n < 0x10000000000000000) : (Property.uint (UInt64.ofNat n)).Normal := by
  have value : (UInt64.ofNat n).toNat = n := UInt64.toNat_ofNat_of_lt' fits
  have greatest : Int64.maxValue.toInt = 0x7fffffffffffffff := by decide
  refine normal_of_single rfl ?_
  rw [Property.Canonical, value, greatest]
  omega

theorem normal_toProperty {n : Numeral} {p : Property} (success : n.toProperty = some p) :
    p.Normal := by
  have ofFloat (f : Float) : (Property.float f).Normal := normal_of_single rfl trivial
  have ofInt (i : Int64) : (Property.int i).Normal := normal_of_single rfl trivial
  have fits : (Numeral.absorb 0 n.whole).1 < 0x10000000000000000 := absorb_lt (by decide) n.whole
  simp only [Numeral.toProperty] at success
  split at success
  · split at success
    · obtain ⟨f, _, rfl⟩ := Option.map_eq_some_iff.mp success
      exact ofFloat _
    · split at success
      · split at success
        · cases success
          exact ofInt _
        · rename_i large
          cases success
          exact normal_uint large fits
      · split at success
        · cases success
          exact ofInt _
        · cases success
          exact ofFloat _
  · obtain ⟨f, _, rfl⟩ := Option.map_eq_some_iff.mp success
    exact ofFloat _

theorem normal_readScalar {cs rest : List Char} {p : Property}
    (success : readScalar cs = some (p, rest)) : p.Normal := by
  rcases readScalar_cases success with rfl | ⟨b, rfl⟩ | ⟨s, rfl⟩ | ⟨n, _, value⟩
  · exact normal_of_single rfl trivial
  · exact normal_of_single rfl trivial
  · exact normal_of_single rfl trivial
  · exact normal_toProperty value

section Parts

variable {α : Type} {P : α → Prop} {part : List Char → Option (α × List Char)} {close : Char}

theorem forall_readParts (each : ∀ cs x rest, part cs = some (x, rest) → P x) {fuel : Nat}
    {cs rest : List Char} {xs : List α}
    (success : readParts close part fuel cs = some (xs, rest)) : ∀ x ∈ xs, P x := by
  induction fuel generalizing cs rest xs with
  | zero => cases success
  | succ fuel ih =>
    obtain ⟨⟨x, tail⟩, first, success⟩ := Option.bind_eq_some_iff.mp success
    have head := each _ _ _ first
    simp only at success
    split at success
    · split at success
      · obtain ⟨⟨others, after⟩, more, same⟩ := Option.map_eq_some_iff.mp success
        cases same
        exact List.forall_mem_cons.mpr ⟨head, ih more⟩
      · split at success
        · cases success
          exact List.forall_mem_singleton.mpr head
        · cases success
    · cases success

theorem forall_readAll (each : ∀ cs x rest, part cs = some (x, rest) → P x)
    {cs rest : List Char} {xs : List α} (success : readAll close part cs = some (xs, rest)) :
    ∀ x ∈ xs, P x := by
  unfold readAll at success
  split at success
  · split at success
    · cases success
      simp
    · exact forall_readParts each success
  · cases success

end Parts

theorem collect_append_single (es : List (String × Property)) (e : String × Property) :
    collect (es ++ [e]) = (collect es).insert e.1 e.2 := by
  simp [collect]

theorem normal_collect {es : List (String × Property)} (values : ∀ e ∈ es, e.2.Normal) :
    (Property.map (collect es)).Normal := by
  induction es using List.reverseRecOn with
  | nil => simp [collect, normal_map, PropertyMap.keys]
  | append_singleton front e ih =>
    have earlier := ih fun f member => values f (List.mem_append_left _ member)
    rw [collect_append_single]
    exact earlier.insert (values e (by simp))

theorem normal_readTree {depth : Nat} {cs rest : List Char} {p : Property}
    (success : readTree depth cs = some (p, rest)) : p.Normal := by
  -- What lies inside a list or a map is read with a level less to go.
  induction depth generalizing cs rest p with
  | zero => exact normal_readScalar success
  | succ depth ih =>
    rcases readTree_cases success with
      scalar | ⟨after, items, _, read, rfl⟩ | ⟨after, es, _, read, rfl⟩
    · exact normal_readScalar scalar
    · exact normal_list.mpr (forall_readAll (fun _ _ _ => ih) read)
    · refine normal_collect (forall_readAll (P := fun e => e.2.Normal) ?_ read)
      intro text e tail entry
      obtain ⟨key, _, value⟩ := Option.bind_eq_some_iff.mp entry
      obtain ⟨q, tree, same⟩ := Option.map_eq_some_iff.mp value
      cases same
      exact ih tree

theorem normal_ofJson {text : String} {p : Property} (success : Property.ofJson text = some p) :
    p.Normal := by
  unfold Property.ofJson at success
  split at success
  · rename_i q rest tree
    split at success
    · cases success
      exact normal_readTree tree
    · cases success
  · cases success

end Deployment.Json
