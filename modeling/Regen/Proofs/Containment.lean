import Regen.Proofs.CallCounts
import Regen.Proofs.FaultTraces
import Regen.Proofs.Seeding
import Regen.Proofs.Untouched

/-!
# Failures stay in tables

A pass over the leaves of a pipeline that nobody asks to stop runs to its end, whatever selectors and
transforms do: they may return errors or panic on any entry. A stage that fails gets a table with a
fault, and so does every stage downstream that is pulled; its fault is that of one of the failing
stages upstream. A fault names the stage that failed, except where the error of a transform names
a stage itself: then it is kept as it is. The calls of the pass are logged, so that a failure is
something that a transform did in this very pass. Comparers are asked to answer, and the tables of
the pass before to be in step: the panic of a comparer is not kept in a table but goes through the
pull.
-/

namespace Regen

variable {S σ : Type}

/-- A stop that does not name a stage is kept under the stage that ran into it. -/
theorem Stage.transformFault_eq {info : StageInfo} {why : Stop}
    (h : ∀ named message, why ≠ .failed (.transformFailed named message)) :
    transformFault info why = .inStage info.name why.describe := by
  unfold transformFault
  split
  · next named message => exact absurd rfl (h named message)
  · rfl

section

variable (pipeline : Pipeline S σ) (snapshot : S) (pass : Evaluation (Logbook σ))

/-- A stage fails in a pass, with this fault. -/
inductive Stage.Fails : Stage σ → Fault → Prop
  /-- The values of a leaf were not selected. -/
  | selection {leaf same failure} : leaf ∈ pipeline.leaves →
      leaf.select snapshot = .error failure →
      Fails (.input leaf.stage same) (.inStage leaf.stage.name failure.describe)
  /-- A call of a transform panicked or returned an error. -/
  | transform {info source transform same value why} :
      ⟨info.id, value, .error why⟩ ∈ pass.callsOf info.id →
      (∀ named message, why ≠ .failed (.transformFailed named message)) →
      Fails (.map info source transform same) (.inStage info.name why.describe)
  /-- A call of a transform returned an error that names a stage. -/
  | named {info source transform same value named message} :
      ⟨info.id, value, .error (.failed (.transformFailed named message))⟩ ∈ pass.callsOf info.id →
      Fails (.map info source transform same) (.inStage named message)
  /-- The right source of a combining stage does not hold one value. -/
  | notSingle {info left right table lefts rights} :
      pass.pass.current.find? info.id = some table →
      pass.pass.current.find? left.id = some lefts → lefts.fault = none →
      pass.pass.current.find? right.id = some rights → rights.fault = none →
      rights.liveValues.length ≠ 1 →
      Fails (.combine info left right) (notSingle info right.name rights.liveValues.length)

end

theorem Stage.fails_of_call {pipeline : Pipeline S σ} {snapshot : S}
    {pass : Evaluation (Logbook σ)} {info : StageInfo} {value : Value} {why : Stop}
    (h : ⟨info.id, value, .error why⟩ ∈ pass.callsOf info.id) (source : Stage σ)
    (transform : Transform σ) (same : Comparer Value) :
    (Stage.map info source transform same).Fails pipeline snapshot pass
      (transformFault info why) := by
  by_cases hn : ∃ named message, why = .failed (.transformFailed named message)
  · obtain ⟨named, message, rfl⟩ := hn
    exact .named h
  · have hne : ∀ named message, why ≠ .failed (.transformFailed named message) :=
      fun named message he => hn ⟨named, message, he⟩
    rw [transformFault_eq hne]
    exact .transform h hne

/-! What the calls of a stage say of its fault. -/

section

variable {info : StageInfo} {values : List Value} {calls : List Call} {fault : Option Fault}
  {previous current : PassTables} {source : StageId} {table sources : Table Value} {value : Value}
  {why : Stop} {kept : Fault}

theorem CallsThrough.fault_of_mem (h : CallsThrough info values calls fault)
    (hm : ⟨info.id, value, .error why⟩ ∈ calls) : fault = some (Stage.transformFault info why) := by
  induction h with
  | done => cases hm
  | returned _ ih =>
    rcases List.mem_cons.mp hm with he | hm
    · cases he
    · exact ih hm
  | failed =>
    cases List.mem_singleton.mp hm
    rfl

theorem CallsThrough.exists_of_fault (h : CallsThrough info values calls fault)
    (hf : fault = some kept) : ∃ value why, ⟨info.id, value, .error why⟩ ∈ calls ∧
      kept = Stage.transformFault info why := by
  induction h with
  | done => cases hf
  | returned _ ih =>
    obtain ⟨value, why, hm, he⟩ := ih hf
    exact ⟨value, why, List.mem_cons_of_mem _ hm, he⟩
  | @failed value why =>
    cases hf
    exact ⟨value, why, List.mem_cons_self, rfl⟩

theorem CalledFor.fault_of_mem (h : CalledFor previous current info source table calls)
    (hm : ⟨info.id, value, .error why⟩ ∈ calls) :
    table.fault = some (Stage.transformFault info why) := by
  cases h with
  | blocked => cases hm
  | through _ _ hcalls => exact hcalls.fault_of_mem hm

theorem CalledFor.exists_of_fault (h : CalledFor previous current info source table calls)
    (hf : table.fault = some kept) :
    (∃ sources, current.find? source = some sources ∧ sources.fault = some kept) ∨
      ∃ value why, ⟨info.id, value, .error why⟩ ∈ calls ∧
        kept = Stage.transformFault info why := by
  cases h with
  | blocked hfound hs ht => exact .inl ⟨_, hfound, hs.trans (ht.symm.trans hf)⟩
  | through _ _ hcalls => exact .inr (hcalls.exists_of_fault hf)

theorem CalledFor.fault_of_source (h : CalledFor previous current info source table calls)
    (hf : current.find? source = some sources) (hs : sources.fault = some kept) :
    table.fault = some kept := by
  cases h with
  | blocked hfound hn ht =>
    cases hfound.symm.trans hf
    exact ht.trans (hn.symm.trans hs)
  | through hfound hn _ =>
    cases hfound.symm.trans hf
    cases hn.symm.trans hs

end

namespace Pipeline

/-- The leaves that a pipeline feeds are leaves of the graph, and they are told apart. -/
structure FeedsLeaves (pipeline : Pipeline S σ) (graph : StageGraph σ) : Prop where
  leaves : ∀ info ∈ pipeline.leafInfos, ∃ same, graph.Has (.input info same)
  distinct : (pipeline.leafInfos.map (·.id)).Nodup

/-- The fault of a leaf whose values were not selected. -/
def refused (pipeline : Pipeline S σ) (snapshot : S) (inputs : List AdditionalInput)
    (id : StageId) : Option Fault :=
  match pipeline.given snapshot inputs id with
  | some (.error fault) => some fault
  | _ => none

variable {pipeline : Pipeline S σ} {graph : StageGraph σ} {snapshot : S}
  {inputs : List AdditionalInput}

theorem refused_eq_some {id : StageId} {fault : Fault} :
    pipeline.refused snapshot inputs id = some fault ↔
      pipeline.given snapshot inputs id = some (.error fault) := by
  unfold refused
  split <;> simp_all

theorem exists_of_refused {id : StageId} {fault : Fault}
    (h : pipeline.refused snapshot inputs id = some fault) :
    ∃ leaf ∈ pipeline.leaves, ∃ failure, leaf.stage.id = id ∧
      leaf.select snapshot = .error failure ∧
      fault = .inStage leaf.stage.name failure.describe := by
  obtain ⟨info, hm, rfl⟩ := mem_of_offered (refused_eq_some.mp h)
  rcases List.mem_append.mp hm with hm | hm
  · obtain ⟨leaf, hleaf, he⟩ := List.mem_map.mp hm
    obtain ⟨rfl, hgiven⟩ := Prod.mk.inj he
    unfold SnapshotLeaf.given at hgiven
    cases hs : leaf.select snapshot with
    | ok values =>
      rw [hs] at hgiven
      cases hgiven
    | error failure =>
      rw [hs] at hgiven
      cases hgiven
      exact ⟨leaf, hleaf, failure, rfl, hs, rfl⟩
  · obtain ⟨stage, -, he⟩ := List.mem_map.mp hm
    cases he

namespace FeedsLeaves

theorem nodup_offers (hp : pipeline.FeedsLeaves graph) (snapshot : S)
    (inputs : List AdditionalInput) :
    ((pipeline.offers snapshot inputs).map (·.1.id)).Nodup := by
  rw [pipeline.ids_offers]
  exact hp.distinct

theorem refused_of_select (hp : pipeline.FeedsLeaves graph) (inputs : List AdditionalInput)
    {leaf : SnapshotLeaf S} (hm : leaf ∈ pipeline.leaves) {failure : SelectionFailure}
    (hs : leaf.select snapshot = .error failure) :
    pipeline.refused snapshot inputs leaf.stage.id =
      some (.inStage leaf.stage.name failure.describe) := by
  have hgiven : leaf.given snapshot = .error (.inStage leaf.stage.name failure.describe) := by
    rw [SnapshotLeaf.given, hs]
    rfl
  refine refused_eq_some.mpr (offered_of_mem (hp.nodup_offers snapshot inputs) ?_)
  exact List.mem_append_left _ (List.mem_map.mpr ⟨leaf, hm, by rw [hgiven]⟩)

/-- A fed pass holds the faults of the leaves that were refused, and no other table. -/
theorem seed_tables (hp : pipeline.FeedsLeaves graph) (snapshot : S)
    (inputs : List AdditionalInput) (previous : PassTables) (trackSteps : Bool) :
    let fed := pipeline.seed snapshot inputs (.start previous trackSteps)
    fed.previous = previous ∧ ∀ id,
      fed.current.find? id = (pipeline.refused snapshot inputs id).map Table.faulted := by
  obtain ⟨hprevious, hids⟩ :=
    Pass.offer_all _ (hp.nodup_offers snapshot inputs) (.start previous trackSteps)
  rw [← pipeline.seed_eq_offers] at hprevious hids
  refine ⟨hprevious, fun id => (hids id).1.trans ?_⟩
  unfold refused given
  cases offered (pipeline.offers snapshot inputs) id with
  | none => rfl
  | some shown => cases shown <;> rfl

theorem has_of_refused (hp : pipeline.FeedsLeaves graph) {id : StageId} {fault : Fault}
    (h : pipeline.refused snapshot inputs id = some fault) :
    ∃ info same, info.id = id ∧ graph.Has (.input info same) := by
  obtain ⟨leaf, hm, failure, rfl, -, -⟩ := exists_of_refused h
  obtain ⟨same, hhas⟩ := hp.leaves leaf.stage
    (List.mem_append_left _ (List.mem_map.mpr ⟨leaf, hm, rfl⟩))
  exact ⟨leaf.stage, same, rfl, hhas⟩

end FeedsLeaves

end Pipeline

namespace StageGraph

/-- A pass in which the faults of all tables are accounted for: those of map stages by their calls,
and the others by what the leaves and the sources did. -/
structure Audited (graph : StageGraph σ) (previous : PassTables)
    (refused : StageId → Option Fault) (pass : Evaluation (Logbook σ)) : Prop where
  lawful : graph.LawfulBy Stage.observed previous pass.pass
  accounts : graph.Accounts previous pass
  traced : graph.Traced refused pass.pass

namespace Audited

variable {graph : StageGraph σ} {previous : PassTables} {pipeline : Pipeline S σ} {snapshot : S}
  {inputs : List AdditionalInput} {pass : Evaluation (Logbook σ)} {stage source reader : Stage σ}
  {table sources : Table Value} {fault : Fault}

theorem fault_of_call {info : StageInfo} {transform : Transform σ} {same : Comparer Value}
    {refused : StageId → Option Fault} (h : graph.Audited previous refused pass)
    (hm : graph.Has (.map info source transform same)) {value : Value} {why : Stop}
    (hc : ⟨info.id, value, .error why⟩ ∈ pass.callsOf info.id) :
    ∃ table, pass.pass.current.find? info.id = some table ∧
      table.fault = some (Stage.transformFault info why) := by
  obtain ⟨hnone, hsome⟩ := h.accounts info source transform same hm
  cases hf : pass.pass.current.find? info.id with
  | none =>
    rw [hnone hf] at hc
    cases hc
  | some table => exact ⟨table, rfl, (hsome table hf).fault_of_mem hc⟩

/-- A stage that fails has its table, with the fault of its failure. -/
theorem fault_of_fails (h : graph.Audited previous (pipeline.refused snapshot inputs) pass)
    (hp : pipeline.FeedsLeaves graph) (hm : graph.Has stage)
    (hfails : stage.Fails pipeline snapshot pass fault) :
    ∃ table, pass.pass.current.find? stage.id = some table ∧ table.fault = some fault := by
  cases hfails with
  | @selection leaf same failure hleaf hselect =>
    have hrefused := hp.refused_of_select inputs hleaf hselect
    obtain ⟨table, hf⟩ := h.traced.stored leaf.stage same _ hm hrefused
    have hfrom : table.fault = pipeline.refused snapshot inputs leaf.stage.id :=
      h.traced.faults _ table hm hf
    exact ⟨table, hf, hfrom.trans hrefused⟩
  | transform hc hne => exact Stage.transformFault_eq hne ▸ h.fault_of_call hm hc
  | named hc => exact h.fault_of_call hm hc
  | @notSingle info left right table lefts rights hf hl hln hr hrn hlen =>
    obtain ⟨lefts', rights', hl', hr', he⟩ := h.traced.faults _ table hm hf
    cases hl.symm.trans hl'
    cases hr.symm.trans hr'
    refine ⟨table, hf, he.trans ?_⟩
    rw [hln, hrn, if_neg hlen]
    rfl

/-- A stage that reads a faulted one is faulted. -/
theorem faulted_of_source {refused : StageId → Option Fault}
    (h : graph.Audited previous refused pass) (hm : graph.Has reader)
    (hs : source ∈ reader.sources) (hf : pass.pass.current.find? source.id = some sources)
    (hfault : sources.fault = some fault)
    (ht : pass.pass.current.find? reader.id = some table) :
    ∃ kept, table.fault = some kept := by
  have hfrom := h.traced.faults reader table hm ht
  cases reader with
  | input info same => cases hs
  | map info inner transform same =>
    cases List.mem_singleton.mp hs
    obtain ⟨-, hsome⟩ := h.accounts info source transform same hm
    exact ⟨fault, (hsome table ht).fault_of_source hf hfault⟩
  | collect info inner =>
    cases List.mem_singleton.mp hs
    obtain ⟨found, hfound, he⟩ := hfrom
    cases hfound.symm.trans hf
    exact ⟨fault, he.trans hfault⟩
  | combine info left right =>
    obtain ⟨lefts, rights, hl, hr, he⟩ := hfrom
    rcases List.mem_cons.mp hs with rfl | hs
    · cases hl.symm.trans hf
      rw [he, hfault]
      exact ⟨fault, rfl⟩
    · cases List.mem_singleton.mp hs
      cases hr.symm.trans hf
      rw [he, hfault]
      cases lefts.fault <;> exact ⟨_, rfl⟩
  | custom info update => cases hs

/-- Faults flow down to every stage that has a table. -/
theorem faulted_downstream {refused : StageId → Option Fault}
    (h : graph.Audited previous refused pass) (hm : graph.Has reader)
    (hu : stage.Upstream reader) (hf : pass.pass.current.find? stage.id = some sources)
    (hfault : sources.fault = some fault)
    (ht : pass.pass.current.find? reader.id = some table) :
    ∃ kept, table.fault = some kept := by
  induction hu generalizing table with
  | refl =>
    cases hf.symm.trans ht
    exact ⟨fault, hfault⟩
  | step hs _ ih =>
    obtain ⟨found, hfound⟩ := h.lawful.find?_source hm hs ht
    obtain ⟨kept, hkept⟩ := ih (graph.has_source hm hs) hfound
    exact h.faulted_of_source hm hs hfound hkept ht

/-- Every fault is that of a stage upstream that fails. -/
theorem fails_of_fault (hg : graph.Builtin) (hp : pipeline.FeedsLeaves graph)
    (h : graph.Audited previous (pipeline.refused snapshot inputs) pass) (hm : graph.Has reader)
    (ht : pass.pass.current.find? reader.id = some table) (hfault : table.fault = some fault) :
    ∃ stage : Stage σ, stage.Upstream reader ∧ stage.Fails pipeline snapshot pass fault := by
  have upstream {source reader : Stage σ} (hs : source ∈ reader.sources) :
      (∃ stage : Stage σ, stage.Upstream source ∧ stage.Fails pipeline snapshot pass fault) →
        ∃ stage : Stage σ, stage.Upstream reader ∧ stage.Fails pipeline snapshot pass fault :=
    fun ⟨stage, hu, hfails⟩ => ⟨stage, hu.trans (.step hs .refl), hfails⟩
  have hfrom := h.traced.faults reader table hm ht
  induction reader generalizing table with
  | input info same =>
    obtain ⟨leaf, hleaf, failure, hid, hselect, rfl⟩ :=
      Pipeline.exists_of_refused (hfrom.symm.trans hfault)
    obtain ⟨same', hhas⟩ := hp.leaves leaf.stage
      (List.mem_append_left _ (List.mem_map.mpr ⟨leaf, hleaf, rfl⟩))
    cases graph.eq_of_id hhas hm hid
    exact ⟨_, .refl, .selection hleaf hselect⟩
  | map info source transform same ih =>
    obtain ⟨-, hsome⟩ := h.accounts info source transform same hm
    rcases (hsome table ht).exists_of_fault hfault with ⟨found, hfound, hn⟩ | ⟨value, why, hc, rfl⟩
    · have hsource := graph.has_source hm List.mem_cons_self
      exact upstream List.mem_cons_self
        (ih hsource hfound hn (h.traced.faults source found hsource hfound))
    · exact ⟨_, .refl, Stage.fails_of_call hc source transform same⟩
  | collect info source ih =>
    have hsource := graph.has_source hm List.mem_cons_self
    obtain ⟨found, hfound, he⟩ := hfrom
    exact upstream List.mem_cons_self
      (ih hsource hfound (he.symm.trans hfault) (h.traced.faults source found hsource hfound))
  | combine info left right ihl ihr =>
    have hleft := graph.has_source hm List.mem_cons_self
    have hright := graph.has_source hm (List.mem_cons_of_mem _ List.mem_cons_self)
    obtain ⟨lefts, rights, hl, hr, he⟩ := hfrom
    rw [hfault] at he
    cases hln : lefts.fault with
    | some kept =>
      rw [hln] at he
      cases he
      exact upstream List.mem_cons_self
        (ihl hleft hl hln (h.traced.faults left lefts hleft hl))
    | none =>
      cases hrn : rights.fault with
      | some kept =>
        rw [hln, hrn] at he
        cases he
        exact upstream (List.mem_cons_of_mem _ List.mem_cons_self)
          (ihr hright hr hrn (h.traced.faults right rights hright hr))
      | none =>
        rw [hln, hrn] at he
        by_cases hlen : rights.liveValues.length = 1
        · rw [if_pos hlen] at he
          cases he
        · rw [if_neg hlen] at he
          cases he
          exact ⟨_, .refl, .notSingle ht hl hln hr hrn hlen⟩
  | custom info update => exact (hg _ hm).elim

end Audited

end StageGraph

namespace Pipeline.FeedsLeaves

variable {pipeline : Pipeline S σ} {graph : StageGraph σ} {snapshot : S}
  {inputs : List AdditionalInput} {previous : PassTables} {trackSteps : Bool}

/-- A stage that has a table in the fed pass is a leaf that was refused. -/
theorem refused_of_seed (hp : pipeline.FeedsLeaves graph) {stage : Stage σ} {table : Table Value}
    (hm : graph.Has stage)
    (hf : (pipeline.seed snapshot inputs (.start previous trackSteps)).current.find? stage.id =
      some table) :
    ∃ info same fault, stage = .input info same ∧
      pipeline.refused snapshot inputs info.id = some fault ∧ table = .faulted fault := by
  rw [(hp.seed_tables snapshot inputs previous trackSteps).2] at hf
  obtain ⟨fault, hrefused, rfl⟩ := Option.map_eq_some_iff.mp hf
  obtain ⟨info, same, hid, hhas⟩ := hp.has_of_refused hrefused
  obtain rfl := graph.eq_of_id hhas hm hid
  exact ⟨info, same, fault, rfl, hrefused, rfl⟩

theorem audited_seed (hp : pipeline.FeedsLeaves graph) (snapshot : S)
    (inputs : List AdditionalInput) (previous : PassTables) (trackSteps : Bool)
    (ambient : Ambient σ) :
    graph.Audited previous (pipeline.refused snapshot inputs)
      ⟨pipeline.seed snapshot inputs (.start previous trackSteps), ambient.logged []⟩ where
  lawful := by
    refine ⟨(hp.seed_tables snapshot inputs previous trackSteps).1, fun stage table hm hf => ?_⟩
    obtain ⟨info, same, fault, rfl, -, rfl⟩ := hp.refused_of_seed hm hf
    exact .refused
  accounts info source transform same hm := by
    refine ⟨fun _ => rfl, fun table hf => ?_⟩
    obtain ⟨_, _, _, he, -, -⟩ := hp.refused_of_seed hm hf
    cases he
  traced := by
    refine ⟨fun info same fault _ hrefused => ?_, fun stage table hm hf => ?_⟩
    · rw [(hp.seed_tables snapshot inputs previous trackSteps).2, hrefused]
      exact ⟨_, rfl⟩
    · obtain ⟨info, same, fault, rfl, hrefused, rfl⟩ := hp.refused_of_seed hm hf
      exact hrefused.symm

end Pipeline.FeedsLeaves

/-- One pass over a pipeline: what its leaves are fed from, and what is done when they were fed. -/
structure PipelineRun (S σ : Type) extends PassRun σ where
  snapshot : S
  inputs : List AdditionalInput

namespace PipelineRun

variable (run : PipelineRun S σ) (pipeline : Pipeline S σ) (previous : PassTables)

/-- The pass when the leaves were fed. -/
def seeded : Evaluation σ :=
  ⟨pipeline.seed run.snapshot run.inputs (.start previous run.trackSteps), run.ambient⟩

/-- The pass when everything was done. -/
def evaluation : Evaluation σ :=
  PassStep.performAll Evaluation.pull (run.seeded pipeline previous) run.steps

/-- The same pass over logged stages. -/
def loggedEvaluation : Evaluation (Logbook σ) :=
  PassStep.performAllLogged
    ⟨pipeline.seed run.snapshot run.inputs (.start previous run.trackSteps), run.ambient.logged []⟩
    run.steps

/-- The tables of the last of some passes over a pipeline, each on top of the one before. -/
def tables (runs : List (PipelineRun S σ)) : PassTables :=
  runs.foldl (fun tables run => (run.evaluation pipeline tables).pass.finish.1) .empty

variable {run pipeline previous} {graph : StageGraph σ}

theorem lawful_seeded (hp : pipeline.FeedsLeaves graph) :
    graph.LawfulBy Stage.observed previous (run.seeded pipeline previous).pass :=
  (hp.audited_seed run.snapshot run.inputs previous run.trackSteps run.ambient).lawful

/-- Every sequence of passes over a pipeline ends in a baseline. -/
theorem baseline_tables (hg : graph.Builtin) (hp : pipeline.FeedsLeaves graph)
    (runs : List (PipelineRun S σ)) (ho : ∀ run ∈ runs, run.Over graph) :
    graph.BaselineBy Stage.observed (tables pipeline runs) := by
  have hfold (previous : PassTables) (hb : graph.BaselineBy Stage.observed previous) :
      graph.BaselineBy Stage.observed (runs.foldl
        (fun tables run => (run.evaluation pipeline tables).pass.finish.1) previous) := by
    induction runs generalizing previous with
    | nil => exact hb
    | cons run rest ih =>
      obtain ⟨hl, -⟩ := StageGraph.LawfulBy.performAll hg run.steps (ho run List.mem_cons_self)
        (run.seeded pipeline previous) (lawful_seeded hp)
      exact ih (fun other hm => ho other (List.mem_cons_of_mem _ hm)) _ (hb.finish hg hl)
  exact hfold .empty (graph.baselineBy_empty Stage.observed)

end PipelineRun

namespace TwoStages

/-- A pipeline whose leaf has a value only in the snapshot that holds it. -/
def lookup : Pipeline Bool Unit where
  shape := ⟨"lookup", [], []⟩
  leaves := [⟨others.info, fun there =>
    if there then .ok [large] else .error (.refused "nothing there")⟩]
  additionalInputs := none
  outputs := []

theorem lookup_feedsLeaves : lookup.FeedsLeaves (pairedStages twice) where
  leaves info hm := by
    cases List.mem_singleton.mp hm
    exact ⟨Comparer.equality, .inr (.inr (.inl rfl))⟩
  distinct := by decide

/-- The pass that feeds the other leaf by hand and pulls the stage that depends on both. -/
def lookingUp (there : Bool) (values : List Value) : PipelineRun Bool Unit :=
  ⟨⟨false, ⟨false, ()⟩, [.feed ⟨0⟩ values, .pull (paired twice)]⟩, there, []⟩

theorem lookingUp_over (there : Bool) (values : List Value) :
    (lookingUp there values).Over (pairedStages twice) := by
  intro step hm
  simp only [lookingUp, List.mem_cons, List.not_mem_nil, or_false] at hm
  rcases hm with rfl | rfl
  · trivial
  · exact .inr (.inr (.inr rfl))

theorem lookingUp_inStep : (pairedStages twice).InStep
    (PipelineRun.tables lookup [lookingUp true [large, large]]) := by
  rintro stage source table (rfl | rfl | rfl | rfl) hrow hf -
  · cases hrow
  · cases hrow
    obtain rfl := Option.some.inj (show some _ = some table from hf)
    exact ⟨_, rfl, rfl⟩
  · cases hrow
  · cases hrow
    obtain rfl := Option.some.inj (show some _ = some table from hf)
    exact ⟨_, rfl, rfl⟩

theorem total_paired (transform : Transform Unit) :
    ∀ stage, (pairedStages transform).Has stage → stage.comparer.Total := by
  rintro stage (rfl | rfl | rfl | rfl) <;> exact Comparer.total_equality

/-- A transform that blames a stage which is not there. -/
def blaming : Transform Unit :=
  fun _ => .stop (.failed (.transformFailed "elsewhere" "not here"))

end TwoStages

/-- Failures of selectors and transforms stay in tables. In a pass that nobody asks to stop every
pull returns a table. A stage that fails has a table with the fault of its failure, a stage downstream
of it that has a table is faulted too, and every fault is that of a failing stage upstream. -/
theorem PipelineRun.failures_contained {graph : StageGraph σ} (hg : graph.Builtin)
    (ht : ∀ stage, graph.Has stage → stage.comparer.Total) (pipeline : Pipeline S σ)
    (hp : pipeline.FeedsLeaves graph) (runs : List (PipelineRun S σ))
    (hruns : ∀ run ∈ runs, run.Over graph) (hi : graph.InStep (tables pipeline runs))
    (run : PipelineRun S σ) (ho : run.Over graph)
    (hc : PassStep.Uncancelled (run.seeded pipeline (tables pipeline runs)) run.steps) :
    let logged := run.loggedEvaluation pipeline (tables pipeline runs)
    logged.plain = run.evaluation pipeline (tables pipeline runs) ∧
    PassStep.AllReturn (run.seeded pipeline (tables pipeline runs)) run.steps ∧
    (∀ (stage : Stage σ) fault, graph.Has stage →
      stage.Fails pipeline run.snapshot logged fault →
      ∃ table, logged.pass.current.find? stage.id = some table ∧ table.fault = some fault) ∧
    (∀ (stage reader : Stage σ) fault table, graph.Has reader → stage.Upstream reader →
      stage.Fails pipeline run.snapshot logged fault →
      logged.pass.current.find? reader.id = some table → ∃ kept, table.fault = some kept) ∧
    ∀ (reader : Stage σ) table kept, graph.Has reader →
      logged.pass.current.find? reader.id = some table → table.fault = some kept →
      ∃ stage : Stage σ, stage.Upstream reader ∧
        stage.Fails pipeline run.snapshot logged kept := by
  intro logged
  have hstart := hp.audited_seed run.snapshot run.inputs (tables pipeline runs) run.trackSteps
    run.ambient
  have hplain : logged.plain = run.evaluation pipeline (tables pipeline runs) :=
    PassStep.plain_performAllLogged run.steps _
  obtain ⟨hreturn, htraced⟩ := PassStep.contained_performAll hg ht
    (baseline_tables hg hp runs hruns) hi run.steps ho (run.seeded pipeline (tables pipeline runs))
    hstart.lawful hstart.traced hc
  have hcounted := PassStep.counted_performAll hg run.steps ho _ hstart.lawful hstart.accounts
    hreturn
  have haudited :
      graph.Audited (tables pipeline runs) (pipeline.refused run.snapshot run.inputs) logged := by
    refine ⟨hcounted.lawful, hcounted.accounts, ?_⟩
    rw [← Evaluation.pass_plain logged, hplain]
    exact htraced
  refine ⟨hplain, hreturn, fun stage fault hm hfails => haudited.fault_of_fails hp hm hfails, ?_,
    fun reader table kept hm hf hk => haudited.fails_of_fault hg hp hm hf hk⟩
  intro stage reader fault table hm hu hfails hf
  obtain ⟨failed, hfailed, hfault⟩ :=
    haudited.fault_of_fails hp (graph.has_of_upstream hu hm) hfails
  exact haudited.faulted_downstream hm hu hfailed hfault hf

open TwoStages in
/-- One leaf is not found in the snapshot, and the transform over the other one panics: the stage that
reads both is faulted with one of the two faults, and the pass goes on. -/
theorem PipelineRun.failures_contained_lookup :
    let previous := tables lookup [lookingUp true [large, large]]
    let run := lookingUp false [large, small]
    let logged := run.loggedEvaluation lookup previous
    PassStep.AllReturn (run.seeded lookup previous) run.steps ∧
    ∃ table kept, logged.pass.current.find? ⟨3⟩ = some table ∧ table.fault = some kept ∧
      ∃ stage : Stage Unit, stage.Upstream (paired twice) ∧ stage.Fails lookup false logged kept := by
  intro previous run logged
  have hruns : ∀ run ∈ [lookingUp true [large, large]], run.Over (pairedStages twice) :=
    fun run hm => List.mem_singleton.mp hm ▸ lookingUp_over true [large, large]
  obtain ⟨-, hreturn, -, -, hfrom⟩ := failures_contained (builtin_paired twice) (total_paired twice)
    lookup lookup_feedsLeaves _ hruns lookingUp_inStep run (lookingUp_over false [large, small])
    ⟨rfl, rfl, rfl⟩
  exact ⟨hreturn, _, _, rfl, rfl, hfrom (paired twice) _ _ (.inr (.inr (.inr rfl))) rfl rfl⟩

open TwoStages in
/-- The fault of a stage may name another one, when that is what the error of its transform does. -/
theorem PassRun.fault_elsewhere :
    let run : PassRun Unit := ⟨false, ⟨false, ()⟩, [.feed ⟨0⟩ [small], .pull (derived blaming)]⟩
    run.Over (stages blaming) ∧ PassStep.Uncancelled (run.begin .empty) run.steps ∧
      (∃ table, (run.evaluation .empty).pass.current.find? (derived blaming).id = some table ∧
        table.fault = some (.inStage "elsewhere" "not here")) ∧
      ∀ stage, (stages blaming).Has stage → stage.name ≠ "elsewhere" := by
  refine ⟨fun step hm => ?_, ⟨rfl, rfl, rfl⟩, ⟨_, rfl, rfl⟩, ?_⟩
  · simp only [List.mem_cons, List.not_mem_nil, or_false] at hm
    rcases hm with rfl | rfl
    · trivial
    · exact .inr rfl
  · rintro stage (rfl | rfl) <;> decide

/-- A comparer is called without protection. Where that of a leaf panics on a value and the one that is
there, a panic goes through the pull, and the leaf has no table, not even one with a fault. -/
theorem Evaluation.pull_leaf_panics {info : StageInfo} {same : Comparer Value}
    {before : Evaluation σ} {table : Table Value} {slot : Slot Value} {values : List Value}
    {value old : Value} {i : Nat} {panic : Panic}
    (hf : before.pass.current.find? info.id = none) (hc : before.ambient.cancelled = false)
    (hfed : before.pass.fed? info.id = some values)
    (hprevious : Table.usable? (before.pass.previous.find? info.id) = some table)
    (hvalue : values[i]? = some value) (hslot : table.slots[i]? = some slot)
    (hold : slot.values = [old]) (hpanic : same value old = .error panic) :
    ∃ raised after, Evaluation.pull (.input info same) before = .error (.panicked raised) after ∧
      after.pass.current.find? info.id = none := by
  obtain ⟨raised, hdiff⟩ := Table.diffInputs_panics hvalue hslot hold hpanic
  refine ⟨raised, { before with pass := before.pass.consume info.id }, ?_, hf⟩
  refine memoize_error hf hc ((Act.bind_ok (Act.get_apply before)).trans ?_)
  simp only [hfed, hprevious]
  have hconsumed : modifyPass (·.consume info.id) before =
      .ok () { before with pass := before.pass.consume info.id } := rfl
  refine (Act.bind_ok hconsumed).trans ?_
  rw [hdiff]
  rfl

namespace TwoStages

def exploding : Comparer Value :=
  fun _ _ => .error (.text "comparer exploded")

/-- A stage with one value for every entry, and with a comparer of its own. -/
def compared : Stage Unit :=
  .map ⟨⟨1⟩, "derived"⟩ numbers (fun _ => .done [small]) exploding

end TwoStages

open TwoStages in
/-- The panic of a comparer escapes from the pull of a leaf that is fed again and from that of a stage
that is recomputed. -/
theorem PassRun.comparer_escapes :
    let leaf : Stage Unit := .input numbers.info exploding
    let run (values : List Value) (stage : Stage Unit) : PassRun Unit :=
      ⟨false, ⟨false, ()⟩, [.feed ⟨0⟩ values, .pull stage]⟩
    let again (stage : Stage Unit) : Evaluation Unit := PassStep.performAll Evaluation.pull
      ((run [large] stage).begin (PassRun.tables [run [small] stage])) [.feed ⟨0⟩ [large]]
    (∃ after, Evaluation.pull leaf (again leaf) =
      .error (.panicked (.text "comparer exploded")) after) ∧
    ∃ after, Evaluation.pull compared (again compared) =
      .error (.panicked (.text "comparer exploded")) after :=
  ⟨⟨_, rfl⟩, ⟨_, rfl⟩⟩

end Regen
