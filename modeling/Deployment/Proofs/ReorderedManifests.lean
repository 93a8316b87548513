import Deployment.Proofs.Contexts
import Deployment.Proofs.MergeMeaning
import Deployment.Proofs.ReorderedEntries
import Deployment.Proofs.ReorderedTrees
import Deployment.Proofs.WellFormed

namespace Deployment

open Outcome
open Yaml (Value Entries EntriesReordered)

namespace Yaml

variable {held : List String}

/-- Whether no mapping of a value has a merge key. -/
def Value.MergeFree (v : Value) : Prop :=
  v.EachMapping fun es => MergeKey.hasMergeKey es = false

theorem EntriesReordered.exists_before {gs fs : Entries} (values : EntriesReordered held gs fs)
    {f : Value × Value} (member : f ∈ fs) : ∃ e ∈ gs, e.1 = f.1 ∧ e.2.Reordered held f.2 := by
  induction gs generalizing fs with
  | nil =>
    cases values
    cases member
  | cons e rest ih =>
    cases values with
    | cons value fixed others =>
      rcases List.mem_cons.mp member with rfl | later
      · exact ⟨_, List.mem_cons_self, rfl, value⟩
      · obtain ⟨e, within, pair⟩ := ih others later
        exact ⟨e, List.mem_cons_of_mem _ within, pair⟩

theorem Value.MergeFree.reordered {v w : Value} (free : v.MergeFree)
    (reordered : v.Reordered held w) : w.MergeFree := by
  induction v using Value.inward generalizing w with
  | null | bool b | number n | string s =>
    cases reordered
    exact free
  | sequence vs ih =>
    obtain ⟨ws, rfl, items⟩ := reordered.exists_sequence
    refine Value.eachMapping_sequence.mpr fun w member => ?_
    obtain ⟨v, within, pair⟩ := related_left items w member
    exact ih v within (Value.eachMapping_sequence.mp free v within) pair
  | mapping es ih =>
    obtain ⟨gs, fs, rfl, order, values⟩ := reordered.exists_mapping
    obtain ⟨keys, inner⟩ := Value.eachMapping_mapping.mp free
    refine Value.eachMapping_mapping.mpr ⟨Bool.eq_false_iff.mpr fun has => ?_, fun f member => ?_⟩
    · obtain ⟨w, member⟩ := MergeKey.hasMergeKey_iff.mp has
      obtain ⟨⟨_, v⟩, within, rfl, _⟩ := values.exists_before member
      have before := MergeKey.hasMergeKey_iff.mpr ⟨v, order.mem_iff.mpr within⟩
      exact Bool.false_ne_true (keys.symm.trans before)
    · obtain ⟨e, within, _, pair⟩ := values.exists_before member
      have inside := order.mem_iff.mpr within
      exact ih e inside (inner e inside) pair
  | tagged tag v ih =>
    cases reordered with
    | same => exact free
    | tagged _ below =>
      exact Value.eachMapping_tagged.mpr (ih (Value.eachMapping_tagged.mp free) below)

end Yaml

/-- Whether maps answer alike: the one is the other in another order, and under every dotted path
both have properties that are the same but for the order, or neither has one. -/
structure PropertyMap.AnswersAlike (m n : PropertyMap) : Prop where
  reordered : m.Reordered n
  lookup : ∀ path, Option.Rel Property.Reordered (m.lookup path) (n.lookup path)

theorem PropertyMap.Reordered.answersAlike {m n : PropertyMap} (reordered : m.Reordered n)
    (distinct : (Property.map m).DistinctNames) : m.AnswersAlike n :=
  ⟨reordered, fun path => reordered.lookup distinct path⟩

theorem Builds.distinctNames {v : Value} {m : PropertyMap} (built : Builds v m) :
    (Property.map m).DistinctNames := by
  rintro _ part n rfl
  exact built.canonical _ part

section Blocks

variable {held : List String}

theorem blocksFollow_answersAlike : BlocksFollow held PropertyMap.AnswersAlike := by
  intro b v w block m success
  obtain ⟨n, again, reordered⟩ := PropertyMap.build_follows block.1 m success
  exact ⟨n, again, reordered.answersAlike (Builds.distinctNames success)⟩

theorem blocksFollow_eq : BlocksFollow Block.keys Eq := by
  intro b v w block
  have same : v = w := block.2 (by cases b <;> decide)
  rw [same]
  exact follows_refl _

end Blocks

section UpTo

variable {maps : PropertyMap → PropertyMap → Prop}

theorem eq_of_related {α : Type} {related : α → α → Prop} {xs ys : List α}
    (same : ∀ x y, related x y → x = y) (pairs : List.Forall₂ related xs ys) : xs = ys := by
  have each := pairs.imp same
  rwa [List.forall₂_eq_eq_eq] at each

theorem Manifest.UpTo.eq {m n : Manifest} (upTo : m.UpTo Eq n) : m = n := by
  have networks : m.networks = n.networks := by
    refine eq_of_related ?_ upTo.networks
    rintro _ _ ⟨_, rfl, rfl⟩
    rfl
  have resourcePools : m.resourcePools = n.resourcePools := by
    refine eq_of_related ?_ upTo.resourcePools
    rintro _ _ ⟨_, _, rfl, rfl, rfl⟩
    rfl
  have diskPools : m.diskPools = n.diskPools := by
    refine eq_of_related ?_ upTo.diskPools
    rintro _ _ ⟨_, rfl, rfl⟩
    rfl
  have jobs : m.jobs = n.jobs := by
    refine eq_of_related ?_ upTo.jobs
    rintro _ _ ⟨_, rfl, rfl⟩
    rfl
  obtain ⟨name, watchTime, _, _, _, _, properties⟩ := upTo
  cases m
  cases n
  congr

theorem find?_related {α : Type} {related : α → α → Prop} {key : α → Bool} {xs ys : List α}
    (same : ∀ x y, related x y → key x = key y) (pairs : List.Forall₂ related xs ys) :
    Option.Rel related (xs.find? key) (ys.find? key) := by
  induction pairs with
  | nil => exact .none
  | cons head tail ih =>
    rw [List.find?_cons, List.find?_cons, same _ _ head]
    split
    · exact .some head
    · exact ih

theorem NetworkContext.ofAttachment_upTo {m n : Manifest} (upTo : m.UpTo maps n) (a : JobNetwork)
    (index : UInt64) : ofAttachment m a index = ofAttachment n a index := by
  have pair : Option.Rel (Network.UpTo maps) (m.network? a.name) (n.network? a.name) := by
    refine find?_related ?_ upTo.networks
    rintro _ _ ⟨_, _, rfl⟩
    rfl
  rw [ofAttachment, ofAttachment]
  generalize m.network? a.name = network at pair
  generalize n.network? a.name = other at pair
  cases pair with
  | none => rfl
  | some upTo =>
    obtain ⟨_, _, rfl⟩ := upTo
    rfl

/-- Whether contexts are the same but for their properties, which are related. -/
def EvaluationContext.UpTo (maps : PropertyMap → PropertyMap → Prop) (c d : EvaluationContext) :
    Prop :=
  ∃ m, maps c.properties m ∧ d = { c with properties := m }

/-- The contexts of jobs that are the same but for their blocks, too, are the same but for their
properties. -/
theorem EvaluationContext.forInstance_upTo {m n : Manifest} {j k : Job} (manifests : m.UpTo maps n)
    (jobs : j.UpTo maps k)
    (layers : maps (m.properties.merge j.properties) (n.properties.merge k.properties))
    (index : UInt64) : Alike (UpTo maps) (forInstance m j index) (forInstance n k index) := by
  obtain ⟨p, _, rfl⟩ := jobs
  have networks : networksOf n { j with properties := p } index = networksOf m j index :=
    networksOf_congr fun a _ => (NetworkContext.ofAttachment_upTo manifests a index).symm
  rw [forInstance, forInstance, networks]
  by_cases inRange : index < j.instances
  · rw [if_pos inRange, if_pos inRange, ← manifests.name]
    exact ⟨_, layers, rfl⟩
  · rw [if_neg inRange, if_neg inRange]
    rfl

end UpTo

namespace Manifest

open Yaml (MergeKey.resolve MergeKey.resolves_self)

/-- What comes of a document with this value, before its merge keys are resolved. -/
def ofValue (origin : String) (v : Value) : Except ManifestError Manifest :=
  ((MergeKey.resolve v).mapError fun e => ⟨origin, .decode (.merge e)⟩) >>= ofDocument origin

variable {origin : String} {v w : Value} {m : Manifest}

theorem parse_eq_ofValue {octets : List UInt8} (text : octets.all Text.isBlankOctet = false)
    (decoded : Value.ofOctets octets = .ok v) :
    (parse origin (.ok octets)).2 = ofValue origin v := by
  rw [parse_octets, decode_eq text, documentValue_eq decoded, ofValue]
  cases MergeKey.resolve v <;> rfl

theorem ofValue_mergeFree (free : v.MergeFree) : ofValue origin v = ofDocument origin v := by
  have resolved : MergeKey.resolve v = .ok v :=
    MergeKey.resolves_self fun es part => free _ part es rfl
  rw [ofValue, resolved]
  rfl

theorem distinctNames_of_ofDocument (success : ofDocument origin v = .ok m) :
    ∀ b ∈ m.blocks, (Property.map b).DistinctNames := by
  obtain ⟨e, read, made⟩ := bind_eq_ok.mp (mapError_eq_ok.mp success)
  rw [entryOf_eq, mapError_eq_ok] at read
  intro b member
  obtain ⟨v, _, built⟩ := related_left ((ofEntry_ok made).blocks read) b member
  exact Builds.distinctNames built

theorem contexts_answer_alike {n : Manifest} (upTo : m.UpTo PropertyMap.AnswersAlike n)
    (distinct : ∀ b ∈ m.blocks, (Property.map b).DistinctNames) :
    List.Forall₂ (fun j k => ∀ index,
      Alike (EvaluationContext.UpTo PropertyMap.AnswersAlike)
        (EvaluationContext.forInstance m j index) (EvaluationContext.forInstance n k index))
      m.jobs n.jobs := by
  obtain ⟨globals, _, _, _, ofJobs⟩ := forall_blocks.mp distinct
  refine (related_with_member upTo.jobs).imp ?_
  rintro j k ⟨member, jobs⟩ index
  have own := ofJobs j member
  have layers : (m.properties.merge j.properties).AnswersAlike
      (n.properties.merge k.properties) := by
    obtain ⟨p, pair, rfl⟩ := jobs
    exact (upTo.properties.reordered.merge pair.reordered globals own).answersAlike
      (globals.merge own)
  exact EvaluationContext.forInstance_upTo upTo jobs layers index

/-- The entries of a document without merge keys can be put in another order. Outside property
blocks this changes nothing about the manifest. Anywhere, with blocks at any depth, it changes no
more than the order of the maps that are built: all of them answer every dotted lookup alike, and so
do the contexts of all instances. -/
theorem ofValue_reordered (origin : String) :
    (∀ octets v, octets.all Text.isBlankOctet = false → Value.ofOctets octets = .ok v →
      (parse origin (.ok octets)).2 = ofValue origin v) ∧
    ∀ v m, v.MergeFree → ofValue origin v = .ok m →
      (∀ w, v.Reordered Block.keys w → ofValue origin w = .ok m) ∧
      ∀ w, v.Reordered [] w → ∃ n, ofValue origin w = .ok n ∧
        m.UpTo PropertyMap.AnswersAlike n ∧
        List.Forall₂ (fun j k => ∀ index,
          Alike (EvaluationContext.UpTo PropertyMap.AnswersAlike)
            (EvaluationContext.forInstance m j index) (EvaluationContext.forInstance n k index))
          m.jobs n.jobs := by
  refine ⟨fun octets v => parse_eq_ofValue, fun v m free success => ?_⟩
  have document := success
  rw [ofValue_mergeFree free] at document
  constructor
  · intro w reordered
    obtain ⟨n, again, upTo⟩ := ofDocument_follows blocksFollow_eq reordered origin m document
    rw [ofValue_mergeFree (free.reordered reordered), again, upTo.eq]
  · intro w reordered
    obtain ⟨n, again, upTo⟩ :=
      ofDocument_follows blocksFollow_answersAlike reordered origin m document
    rw [ofValue_mergeFree (free.reordered reordered)]
    exact ⟨n, again, upTo, contexts_answer_alike upTo (distinctNames_of_ofDocument document)⟩

/-- The entries of a manifest and of one of its jobs, turned around without their blocks and with
them. -/
theorem ofValue_reordered_reversed :
    let port : Entries := [(.string "port", .string "80")]
    let block : Entries := [(.string "web", .mapping [(.string "tls", .null),
      (.string "port", .string "8080")]), (.string "log", .bool true)]
    let turned : Entries := [(.string "log", .bool true), (.string "web", .mapping
      [(.string "port", .string "8080"), (.string "tls", .null)])]
    let job : Entries := [(.string "name", .string "j"), (.string "templates", .null),
      (.string "properties", .mapping port)]
    let document (job block : Entries) : Entries := [(.string "name", .string "d"),
      (.string "jobs", .sequence [.mapping job]), (.string "properties", .mapping block)]
    let v : Value := .mapping (document job block)
    let u : Value := .mapping (document job.reverse block).reverse
    let w : Value := .mapping (document job.reverse turned).reverse
    v.MergeFree ∧ v.Reordered Block.keys u ∧ v.Reordered [] w ∧
      ∃ m, ofValue "o" v = .ok m ∧ ofValue "o" u = .ok m ∧
        ∃ n, ofValue "o" w = .ok n ∧ m.UpTo PropertyMap.AnswersAlike n := by
  intro port block turned job document v u w
  have free : v.MergeFree := by
    simp [v, document, job, block, port, Value.MergeFree, Value.EachMapping, Value.parts,
      Value.partsOfEntries, Value.partsOfItems]
    decide
  have accepted : (ofDocument "o" v).isOk = true := by decide +kernel
  cases success : ofDocument "o" v with
  | error e =>
    rw [success] at accepted
    cases accepted
  | ok m =>
    rw [← ofValue_mergeFree free] at success
    have jobs (held : List String) :
        (Value.sequence [.mapping job]).Reordered held (.sequence [.mapping job.reverse]) :=
      .sequence (.cons (.mapping (List.reverse_perm _).symm (.refl _)) .nil)
    have inside : (Value.mapping block).Reordered [] (.mapping turned) :=
      .mapping (.swap _ _ _) (.cons (.same _) (by simp)
        (.cons (.mapping (.swap _ _ _) (.refl _)) (by simp) .nil))
    have around : v.Reordered Block.keys u := by
      refine .mapping (List.reverse_perm _).symm (.cons (.same _) (by simp) ?_)
      refine .cons (jobs _) (fun name held key => absurd held ?_) (.refl _)
      cases key
      decide
    have within : v.Reordered [] w := by
      refine .mapping (List.reverse_perm _).symm (.cons inside (by simp) ?_)
      exact .cons (jobs _) (by simp) (.refl _)
    obtain ⟨same, alike⟩ := (ofValue_reordered "o").2 v m free success
    obtain ⟨n, again, upTo, _⟩ := alike w within
    exact ⟨free, around, within, m, success, same u around, n, again, upTo⟩

end Manifest

end Deployment
