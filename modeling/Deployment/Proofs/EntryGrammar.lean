import Deployment.Proofs.Blocks
import Deployment.Proofs.FirstFault
import Deployment.Proofs.RecordShape

/-!
Which entries the sections of a manifest accept. An entry is a record whose fields are each absent,
null or of a kind of their own; nulls count as records and lists without content.
-/

namespace Deployment

open Yaml
open Yaml.Shape
open Outcome

/-- A mapping without a tag that properties can be built from. -/
def IsBlock (v : Value) : Prop :=
  ∃ es m, v = .mapping es ∧ PropertyMap.build v = .ok m

/-- A record that gives itself a name which is not empty. -/
def HasName (v : Value) : Prop :=
  ∃ s, s ≠ "" ∧ (v.field "name").untagged = .string s

def Named (g : Grammar) (v : Value) : Prop :=
  g.Fits v ∧ HasName v

def TemplateEntry.grammar : Grammar :=
  [("name", Value.IsText), ("release", Value.IsText)]

def JobNetworkEntry.grammar : Grammar :=
  [("name", Value.IsText),
   ("default", Value.IsList Value.IsText),
   ("static_ips", Value.IsList Value.IsText)]

/-- The fields of the entries of a section, given what is asked of property blocks and of the items
in the lists of a job. -/
def Section.grammarWith (block : Value → Prop) (item : Grammar → Value → Prop) : Section → Grammar
  | .networks =>
    [("name", Value.IsText),
     ("type", Value.IsText),
     ("ip", Value.IsText),
     ("netmask", Value.IsText),
     ("gateway", Value.IsText),
     ("dns", Value.IsList Value.IsText),
     ("cloud_properties", block)]
  | .resourcePools =>
    [("name", Value.IsText),
     ("network", Value.IsText),
     ("cloud_properties", block),
     ("env", block)]
  | .diskPools =>
    [("name", Value.IsText),
     ("disk_size", Value.IsNatural),
     ("cloud_properties", block)]
  | .jobs =>
    [("name", Value.IsText),
     ("instances", Value.IsNatural),
     ("lifecycle", Value.IsText),
     ("templates", Value.IsList (item TemplateEntry.grammar)),
     ("networks", Value.IsList (item JobNetworkEntry.grammar)),
     ("persistent_disk", Value.IsNatural),
     ("persistent_disk_pool", Value.IsText),
     ("properties", block)]

/-- What is asked of an entry of a section: its blocks can be built, and the items in its lists
have names. -/
def Section.grammar : Section → Grammar :=
  Section.grammarWith IsBlock Named

/-- What is asked of an entry of a section before its content is looked at. -/
def Section.outline : Section → Grammar :=
  Section.grammarWith (fun _ => True) Grammar.Fits

/-- Whether entities come of all the entries of a section. -/
def Section.Accepts : Section → List Value → Prop
  | .networks, entries => ∃ networks, parseNetworks entries = .ok networks
  | .resourcePools, entries => ∃ pools, parseResourcePools entries = .ok pools
  | .diskPools, entries => ∃ pools, parseDiskPools entries = .ok pools
  | .jobs, entries => ∃ jobs, parseJobs entries = .ok jobs

namespace Yaml.Shape

variable {ρ α : Type} {name : String} {shape : Value → Except Mismatch α} {kind : Value → Prop}

theorem fieldAccepts_set {set : α → ρ → ρ} (accepts : Accepts shape (Value.OrNull kind)) :
    FieldAccepts ⟨name, fun v r => shape v >>= fun x => pure (set x r)⟩ (name, kind) := by
  refine ⟨rfl, fun r v => ?_⟩
  rw [← accepts v]
  simp [exists_bind_iff, pure, Except.pure]

theorem fieldAccepts_anything {set : Value → ρ → ρ} :
    FieldAccepts ⟨name, fun v r => pure (set v r)⟩ (name, fun _ => True) :=
  ⟨rfl, fun r v => ⟨fun _ => .inr trivial, fun _ => ⟨set v r, rfl⟩⟩⟩

end Yaml.Shape

section Reading

theorem TemplateEntry.accepts : Accepts TemplateEntry.read TemplateEntry.grammar.Fits := by
  refine Accepts.record ?_ (by decide) _ _
  exact .cons (fieldAccepts_set (accepts_text.withDefault "")) <|
    .cons (fieldAccepts_set (accepts_text.withDefault "")) .nil

theorem JobNetworkEntry.accepts : Accepts JobNetworkEntry.read JobNetworkEntry.grammar.Fits := by
  refine Accepts.record ?_ (by decide) _ _
  exact .cons (fieldAccepts_set (accepts_text.withDefault "")) <|
    .cons (fieldAccepts_set (accepts_text.list.withDefault [])) <|
    .cons (fieldAccepts_set (accepts_text.list.withDefault [])) .nil

theorem NetworkEntry.accepts : Accepts NetworkEntry.read Section.networks.outline.Fits := by
  refine Accepts.record ?_ (by decide) _ _
  exact .cons (fieldAccepts_set (accepts_text.withDefault "")) <|
    .cons (fieldAccepts_set (accepts_text.withDefault "")) <|
    .cons (fieldAccepts_set accepts_text.optional) <|
    .cons (fieldAccepts_set accepts_text.optional) <|
    .cons (fieldAccepts_set accepts_text.optional) <|
    .cons (fieldAccepts_set (accepts_text.list.withDefault [])) <|
    .cons fieldAccepts_anything .nil

theorem ResourcePoolEntry.accepts :
    Accepts ResourcePoolEntry.read Section.resourcePools.outline.Fits := by
  refine Accepts.record ?_ (by decide) _ _
  exact .cons (fieldAccepts_set (accepts_text.withDefault "")) <|
    .cons (fieldAccepts_set (accepts_text.withDefault "")) <|
    .cons fieldAccepts_anything <|
    .cons fieldAccepts_anything .nil

theorem DiskPoolEntry.accepts : Accepts DiskPoolEntry.read Section.diskPools.outline.Fits := by
  refine Accepts.record ?_ (by decide) _ _
  exact .cons (fieldAccepts_set (accepts_text.withDefault "")) <|
    .cons (fieldAccepts_set (accepts_natural.withDefault 0)) <|
    .cons fieldAccepts_anything .nil

theorem JobEntry.accepts : Accepts JobEntry.read Section.jobs.outline.Fits := by
  refine Accepts.record ?_ (by decide) _ _
  exact .cons (fieldAccepts_set (accepts_text.withDefault "")) <|
    .cons (fieldAccepts_set (accepts_natural.withDefault 0)) <|
    .cons (fieldAccepts_set accepts_text.optional) <|
    .cons (fieldAccepts_set (TemplateEntry.accepts.list.withDefault [])) <|
    .cons (fieldAccepts_set (JobNetworkEntry.accepts.list.withDefault [])) <|
    .cons (fieldAccepts_set (accepts_natural.withDefault 0)) <|
    .cons (fieldAccepts_set accepts_text.optional) <|
    .cons fieldAccepts_anything .nil

end Reading

section Content

theorem exists_build_iff {v : Value} :
    (∃ m, PropertyMap.build v = .ok m) ↔ Value.OrNull IsBlock v := by
  cases v with
  | null => exact ⟨fun _ => .inl rfl, fun _ => ⟨[], rfl⟩⟩
  | mapping es => simp [Value.OrNull, IsBlock]
  | _ => simp [Value.OrNull, IsBlock, PropertyMap.build]

theorem verdict_block_eq_none_iff {b : Block} {v : Value} :
    (EntryCheck.block b v).verdict = none ↔ Value.OrNull IsBlock v := by
  rw [EntryCheck.verdict, Option.map_eq_none_iff, error?_eq_none_iff, exists_build_iff]

theorem Network.exists_ofEntry_iff {e : NetworkEntry} :
    (∃ n, Network.ofEntry e = .ok n) ↔ Value.OrNull IsBlock e.cloudProperties := by
  simp [(Network.ofEntry_takes e).exists_ok_iff, NetworkEntry.checks,
    verdict_block_eq_none_iff]

theorem ResourcePool.exists_ofEntry_iff {e : ResourcePoolEntry} :
    (∃ p, ResourcePool.ofEntry e = .ok p) ↔
      Value.OrNull IsBlock e.cloudProperties ∧ Value.OrNull IsBlock e.env := by
  simp [(ResourcePool.ofEntry_takes e).exists_ok_iff, ResourcePoolEntry.checks,
    verdict_block_eq_none_iff]

theorem DiskPool.exists_ofEntry_iff {e : DiskPoolEntry} :
    (∃ p, DiskPool.ofEntry e = .ok p) ↔ Value.OrNull IsBlock e.cloudProperties := by
  simp [(DiskPool.ofEntry_takes e).exists_ok_iff, DiskPoolEntry.checks,
    verdict_block_eq_none_iff]

theorem forall_checksOfEach_iff {α γ : Type} {checks : Nat → α → List γ} {xs : List α}
    {passes : γ → Prop} {holds : α → Prop}
    (each : ∀ i x, (∀ c ∈ checks i x, passes c) ↔ holds x) :
    (∀ c ∈ checksOfEach checks xs, passes c) ↔ ∀ x ∈ xs, holds x := by
  simp only [checksOfEach, List.mem_flatten, List.mem_mapIdx]
  constructor
  · intro all x member
    obtain ⟨i, bound, rfl⟩ := List.getElem_of_mem member
    exact (each i _).mp fun c check => all c ⟨_, ⟨i, bound, rfl⟩, check⟩
  · rintro all c ⟨_, ⟨i, bound, rfl⟩, check⟩
    exact (each i _).mpr (all _ (List.getElem_mem bound)) c check

theorem Job.exists_ofEntry_iff {e : JobEntry} :
    (∃ j, Job.ofEntry e = .ok j) ↔
      (∀ t ∈ e.templates, t.name ≠ "") ∧ (∀ n ∈ e.networks, n.name ≠ "") ∧
        Value.OrNull IsBlock e.properties := by
  rw [(Job.ofEntry_takes e).exists_ok_iff, JobEntry.checks, List.append_assoc,
    List.forall_mem_append, List.forall_mem_append, List.forall_mem_singleton,
    verdict_block_eq_none_iff]
  refine and_congr ?_ (and_congr_left' ?_)
  · exact forall_checksOfEach_iff fun i t => by simp [EntryCheck.verdict]
  · exact forall_checksOfEach_iff fun i n => by simp [EntryCheck.verdict]

/-- The default takes the place of a text only where there is none. -/
theorem ne_empty_iff {v : Value} {s : String} (read : withDefault "" text v = .ok s) :
    s ≠ "" ↔ ∃ t, t ≠ "" ∧ v.untagged = .string t := by
  obtain ⟨o, found, rfl⟩ := map_eq_ok.mp read
  by_cases null : v = .null
  · subst null
    cases found
    simp [Value.untagged]
  · rw [optional_of_ne_null null] at found
    obtain ⟨t, own, rfl⟩ := map_eq_ok.mp found
    rw [text] at own
    split at own
    · rename_i u same
      cases own
      simp [same]
    · cases own

theorem TemplateEntry.name_ne_empty_iff {v : Value} {e : TemplateEntry}
    (read : TemplateEntry.read v = .ok e) : e.name ≠ "" ↔ HasName v := by
  have governs : Governs TemplateEntry.fields "name" (withDefault "" text) (·.name) := by
    constructor <;> simp [TemplateEntry.fields, bind_eq_ok, pure, Except.pure]
  exact ne_empty_iff (record_field governs rfl read)

theorem JobNetworkEntry.name_ne_empty_iff {v : Value} {e : JobNetworkEntry}
    (read : JobNetworkEntry.read v = .ok e) : e.name ≠ "" ↔ HasName v := by
  have governs : Governs JobNetworkEntry.fields "name" (withDefault "" text) (·.name) := by
    constructor <;> simp [JobNetworkEntry.fields, bind_eq_ok, pure, Except.pure]
  exact ne_empty_iff (record_field governs rfl read)

theorem JobEntry.templates_named_iff {v : Value} {e : JobEntry} (read : JobEntry.read v = .ok e) :
    (∀ t ∈ e.templates, t.name ≠ "") ↔ ∀ w ∈ (v.field "templates").elements, HasName w := by
  have governs : Governs JobEntry.fields "templates" (withDefault [] (list TemplateEntry.read))
      (·.templates) := by
    constructor <;> simp [JobEntry.fields, bind_eq_ok, pure, Except.pure]
  exact (forall_iff_of_related (list_ok (record_field governs rfl read)) fun _ _ item =>
    (TemplateEntry.name_ne_empty_iff item).symm).symm

theorem JobEntry.networks_named_iff {v : Value} {e : JobEntry} (read : JobEntry.read v = .ok e) :
    (∀ n ∈ e.networks, n.name ≠ "") ↔ ∀ w ∈ (v.field "networks").elements, HasName w := by
  have governs : Governs JobEntry.fields "networks" (withDefault [] (list JobNetworkEntry.read))
      (·.networks) := by
    constructor <;> simp [JobEntry.fields, bind_eq_ok, pure, Except.pure]
  exact (forall_iff_of_related (list_ok (record_field governs rfl read)) fun _ _ item =>
    (JobNetworkEntry.name_ne_empty_iff item).symm).symm

theorem orNull_isList_and_iff {kind more : Value → Prop} {v : Value} :
    Value.OrNull (Value.IsList fun w => kind w ∧ more w) v ↔
      Value.OrNull (Value.IsList kind) v ∧ ∀ w ∈ v.elements, more w := by
  rw [Value.OrNull, Value.OrNull, Value.IsList, Value.IsList, Value.elements]
  cases own : v.untagged with
  | sequence items =>
    have present : v ≠ .null := fun null => by simp [null, Value.untagged] at own
    simp [present, forall_and]
  | null => simp
  | _ => simp

end Content

section Sections

variable {ρ α : Type} {part : Section} {decode : Value → Except Mismatch ρ}
  {build : ρ → Except EntryError α} {entries : List Value}

theorem exists_section_iff (i : Nat) :
    (∃ xs, readEach (parseEntry part decode build) i entries = .ok xs) ↔
      ∀ entry ∈ entries, ∃ e, decode entry = .ok e ∧ ∃ x, build e = .ok x := by
  induction entries generalizing i with
  | nil => exact ⟨fun _ => by simp, fun _ => ⟨[], rfl⟩⟩
  | cons entry rest ih =>
    have first : (∃ x, parseEntry part decode build i entry = .ok x) ↔
        ∃ e, decode entry = .ok e ∧ ∃ x, build e = .ok x := by
      simp only [parseEntry_ok]
      rw [exists_comm]
      simp
    rw [List.forall_mem_cons, ← ih (i + 1), ← first, readEach, exists_bind_iff]
    simp [exists_bind_iff, pure, Except.pure]

/-- Where the content that is still to be checked is known field by field, a section accepts the
entries that have both the outline and this content. -/
theorem section_accepts_iff {outline : Value → Prop} {content : Value → Prop}
    (accepts : Accepts decode outline)
    (builds : ∀ v e, decode v = .ok e → ((∃ x, build e = .ok x) ↔ content v)) :
    (∃ xs, readEach (parseEntry part decode build) 0 entries = .ok xs) ↔
      ∀ entry ∈ entries, outline entry ∧ content entry := by
  rw [exists_section_iff]
  refine forall₂_congr fun entry _ => ?_
  rw [← accepts entry]
  constructor
  · rintro ⟨e, decoded, built⟩
    exact ⟨⟨e, decoded⟩, (builds entry e decoded).mp built⟩
  · rintro ⟨⟨e, decoded⟩, holds⟩
    exact ⟨e, decoded, (builds entry e decoded).mpr holds⟩

end Sections

namespace Section

section Fits

variable {v : Value}

private theorem orNull_true : Value.OrNull (fun _ => True) v :=
  .inr trivial

theorem networks_fits_iff : networks.outline.Fits v ∧
    Value.OrNull IsBlock (v.field "cloud_properties") ↔ networks.grammar.Fits v := by
  simp [Grammar.Fits, outline, grammar, grammarWith, orNull_true, and_assoc]

theorem resourcePools_fits_iff : resourcePools.outline.Fits v ∧
    Value.OrNull IsBlock (v.field "cloud_properties") ∧ Value.OrNull IsBlock (v.field "env") ↔
      resourcePools.grammar.Fits v := by
  simp [Grammar.Fits, outline, grammar, grammarWith, orNull_true, and_assoc]

theorem diskPools_fits_iff : diskPools.outline.Fits v ∧
    Value.OrNull IsBlock (v.field "cloud_properties") ↔ diskPools.grammar.Fits v := by
  simp [Grammar.Fits, outline, grammar, grammarWith, orNull_true, and_assoc]

theorem jobs_fits_iff : jobs.outline.Fits v ∧
    (∀ w ∈ (v.field "templates").elements, HasName w) ∧
    (∀ w ∈ (v.field "networks").elements, HasName w) ∧
    Value.OrNull IsBlock (v.field "properties") ↔ jobs.grammar.Fits v := by
  have items (g : Grammar) (w : Value) : Value.OrNull (Value.IsList (Named g)) w ↔
      Value.OrNull (Value.IsList g.Fits) w ∧ ∀ u ∈ w.elements, HasName u := orNull_isList_and_iff
  simp only [Grammar.Fits, outline, grammar, grammarWith, List.forall_mem_cons, items]
  simp [orNull_true]
  tauto

end Fits

/-- The entries of a section are all accepted when each of them fits its grammar, and only then. -/
theorem accepts_iff (part : Section) (entries : List Value) :
    part.Accepts entries ↔ ∀ entry ∈ entries, part.grammar.Fits entry := by
  cases part with
  | networks =>
    simp only [← networks_fits_iff]
    refine section_accepts_iff NetworkEntry.accepts fun v e read => ?_
    rw [Network.exists_ofEntry_iff, NetworkEntry.cloudProperties_eq read]
  | resourcePools =>
    simp only [← resourcePools_fits_iff]
    refine section_accepts_iff ResourcePoolEntry.accepts fun v e read => ?_
    rw [ResourcePool.exists_ofEntry_iff, ResourcePoolEntry.cloudProperties_eq read,
      ResourcePoolEntry.env_eq read]
  | diskPools =>
    simp only [← diskPools_fits_iff]
    refine section_accepts_iff DiskPoolEntry.accepts fun v e read => ?_
    rw [DiskPool.exists_ofEntry_iff, DiskPoolEntry.cloudProperties_eq read]
  | jobs =>
    simp only [← jobs_fits_iff]
    refine section_accepts_iff JobEntry.accepts fun v e read => ?_
    rw [Job.exists_ofEntry_iff, JobEntry.templates_named_iff read, JobEntry.networks_named_iff read,
      JobEntry.properties_eq read]

/-- An entry of any section may be null, and a list in it may be a null below a tag. -/
theorem accepts_null :
    (∀ part : Section, part.Accepts [.null]) ∧ (¬ ∃ es, Value.null.untagged = .mapping es) ∧
      jobs.Accepts [.mapping [(.string "templates", .tagged ⟨"x"⟩ .null)]] ∧
      ¬ ∃ items, (Value.tagged ⟨"x"⟩ .null).untagged = .sequence items := by
  refine ⟨?_, by simp [Value.untagged], ⟨_, rfl⟩, by simp [Value.untagged]⟩
  intro part
  cases part <;> exact ⟨_, rfl⟩

end Section

end Deployment
