import Regen.Proofs.Assembling
import Regen.Proofs.Collecting
import Regen.Proofs.DriverHistory

/-!
# What a generator makes in a full pass

The plug-ins considered here have the default execution, pure callbacks and a plain pipeline that
need not tell apart what `==` takes for equal, and they declare the same pipeline whenever they
declare it, up to the identities of its stages. What such a plug-in makes in a full pass is a function
of the snapshot, the additional inputs and the options, `PlugIns.report`. The tables that are kept of
it have no part in it: they stay a baseline of its stage graph and hold what its stages may hold, also
where it fails to declare or to execute.
-/

namespace Regen

variable {S σ : Type}

/-- How a run of a declaration ends that declares this, up to the identities of the stages. It never
asks the pass to stop. -/
inductive Declaration.Ends (generator : String) (declared : Except Stop (Pipeline S σ))
    (begun : Declaration S σ) : EStateM.Result Stop (Declaration S σ) Unit → Prop
  | built {pipeline ρ ended} : declared = .ok pipeline → Function.Injective ρ →
      pipeline.Renames ρ (ended.build generator) →
      ended.ambient.cancelled = begun.ambient.cancelled → Ends generator declared begun (.ok () ended)
  | failed {why ended} : declared = .error why →
      ended.ambient.cancelled = begun.ambient.cancelled → Ends generator declared begun (.error why ended)

/-- Whenever the generator declares its pipeline, it declares this. -/
def Generator.Declares (generator : Generator S σ) (declared : Except Stop (Pipeline S σ)) : Prop :=
  ∀ fresh ambient, Declaration.Ends generator.name declared (.start fresh ambient)
    (generator.declare.run Declaration.answer (.start fresh ambient))

/-- An execution completes, fails with what it stopped with, or was asked to stop. -/
theorem Generator.executePipeline_of_run (generator : Generator S σ) {pipeline : Pipeline S σ}
    {tables : PassTables} {options : DriverOptions} {briefing : Briefing S} {session : Session σ}
    {result : EStateM.Result Stop (Execution σ) Unit}
    (h : (generator.execute briefing).run (Execution.answer pipeline options briefing)
      (.start ⟨.start tables options.trackIncrementalSteps, session.ambient⟩) = result) :
    generator.executePipeline pipeline tables options briefing session = match result with
      | .ok _ ended => .ok (.completed ended) { session with ambient := ended.evaluation.ambient }
      | .error why ended =>
        if why = .failed .cancelled then
          .error (.failed .cancelled) { session with ambient := ended.evaluation.ambient }
        else .ok (.failed (.ofError (.execution generator.name why.describe)))
          { session with ambient := ended.evaluation.ambient } := by
  refine (Act.bind_ok (Act.get_apply session)).trans ?_
  simp only [h]
  cases result with
  | ok _ ended => rfl
  | error why ended => by_cases hw : why = .failed .cancelled <;> simp [hw] <;> rfl

/-- Plug-ins that are told apart by their identities and work by their pipelines alone. -/
structure PlugIns (S σ : Type) where
  Has : Generator S σ → Prop
  /-- What a plug-in declares, or why it fails to. -/
  declared : Generator S σ → Except Stop (Pipeline S σ)
  eq_of_identity : ∀ {generator other}, Has generator → Has other →
    generator.identity = other.identity → generator = other
  execute_eq : ∀ {generator}, Has generator → generator.execute = fun _ => Execution.runPipeline
  declares : ∀ {generator}, Has generator → generator.Declares (declared generator)
  plain : ∀ {generator pipeline}, Has generator → declared generator = .ok pipeline →
    ∃ graph, pipeline.Plain graph ∧ ∃ like : graph.Likeness, pipeline.Faithful like

/-- What a generator made, without the records of its steps. -/
structure Report where
  outputs : List GeneratedOutput
  stageFaults : List Fault
  error : Option Fault
  deriving DecidableEq

/-- The report of a generator that failed. -/
def Report.failed (error : EngineError) : Report :=
  ⟨[], [], some (.ofError error)⟩

def GeneratorState.report (state : GeneratorState S σ) : Report :=
  ⟨state.outputs, state.stageFaults, state.error⟩

/-- Sending events changes only the events that were kept. -/
theorem Session.emitAll_apply (sink : Sink) (events : List EngineEvent) (session : Session σ) :
    ∃ kept, Session.emitAll sink events session = .ok () { session with events := kept } :=
  ⟨_, emitAll_eq sink events session⟩

namespace PlugIns

variable (plugins : PlugIns S σ) (sample : Ambient σ)

/-- What a plug-in makes of a snapshot and additional inputs from scratch. -/
def report (options : DriverOptions) (snapshot : S) (inputs : List AdditionalInput)
    (generator : Generator S σ) : Report :=
  match plugins.declared generator with
  | .error why => .failed (.initialization generator.name why.describe)
  | .ok pipeline =>
    match gather generator.name options (pipeline.showings sample snapshot inputs) with
    | .ok (outputs, stageFaults) => ⟨outputs, stageFaults, none⟩
    | .error error => .failed (.execution generator.name error.message)

/-- A pipeline that stands for the one that a plug-in declares, with tables to go on from. -/
structure Ready (generator : Generator S σ) (made : Pipeline S σ) {graph : StageGraph σ}
    (like : graph.Likeness) (tables : PassTables) : Prop where
  plain : made.Plain graph
  faithful : made.Faithful like
  baseline : graph.Baseline sample tables
  covers : like.typing.Covers tables
  report_eq : ∀ options snapshot inputs, plugins.report sample options snapshot inputs generator =
    match gather generator.name options (made.showings sample snapshot inputs) with
    | .ok (outputs, stageFaults) => ⟨outputs, stageFaults, none⟩
    | .error error => .failed (.execution generator.name error.message)

/-- A member is settled when it declared no pipeline and has no tables, or when it has a pipeline and
its tables are a baseline. -/
inductive Settled (member : Member S σ) : Prop
  | undeclared : member.state.pipeline = none → member.state.tables = .empty → Settled member
  | declared {made} {graph : StageGraph σ} {like : graph.Likeness} : member.state.pipeline = some made →
      plugins.Ready sample member.generator made like member.state.tables → Settled member

variable {plugins sample}
variable {generator : Generator S σ} {made : Pipeline S σ} {graph : StageGraph σ}
  {like : graph.Likeness} {tables : PassTables}

theorem settled_join (generator : Generator S σ) : plugins.Settled sample (.join generator) :=
  .undeclared rfl rfl

/-- Other outputs leave a member settled. -/
theorem Settled.edited {member edited : Member S σ} (h : plugins.Settled sample member)
    (he : member.Edited edited) : plugins.Settled sample edited := by
  obtain ⟨outputs, rfl⟩ := he
  cases h with
  | undeclared hp ht => exact .undeclared hp ht
  | declared hp hr => exact .declared hp hr

/-- A declared pipeline is ready without tables. -/
theorem ready_of_renames (sample : Ambient σ) {pipeline : Pipeline S σ} {ρ : StageId → StageId}
    (hg : plugins.Has generator) (hd : plugins.declared generator = .ok pipeline)
    (hρ : Function.Injective ρ) (hr : pipeline.Renames ρ made) :
    ∃ (graph : StageGraph σ) (like : graph.Likeness), plugins.Ready sample generator made like .empty := by
  obtain ⟨graph, hplain, like, hfaithful⟩ := plugins.plain hg hd
  refine ⟨graph.rename ρ hρ, like.rename ρ hρ, hr.plain hρ hplain, hr.faithful hρ hfaithful,
    StageGraph.baseline_empty _ sample, StageGraph.Typing.covers_empty, ?_⟩
  intro options snapshot inputs
  rw [report, hd, hr.showings_eq hρ]

/-- The pipeline that a settled member runs, or the report of its failure to declare one. -/
theorem Settled.pipelineOf {member : Member S σ} (h : plugins.Settled sample member)
    (hg : plugins.Has member.generator) (session : Session σ) :
    ∃ r ended, Driver.pipelineOf member session = .ok r ended ∧
      ended.ambient.cancelled = session.ambient.cancelled ∧
      ((∃ (made : Pipeline S σ) (graph : StageGraph σ) (like : graph.Likeness), r = .ok made ∧
          plugins.Ready sample member.generator made like member.state.tables) ∨
        ∃ error, r = .error (.ofError error) ∧ ∀ options snapshot inputs,
          plugins.report sample options snapshot inputs member.generator = .failed error) := by
  cases h with
  | @declared made graph like hp hr =>
    refine ⟨.ok made, session, ?_, rfl, .inl ⟨made, graph, like, rfl, hr⟩⟩
    rw [Driver.pipelineOf, hp]
    rfl
  | undeclared hp ht =>
    rw [Driver.pipelineOf, hp, ht]
    have hends := plugins.declares hg session.fresh session.ambient
    change ∃ r ended, member.generator.declarePipeline session = .ok r ended ∧ _
    generalize hrun : member.generator.declare.run Declaration.answer
      (.start session.fresh session.ambient) = result at hends
    cases hends with
    | @built pipeline ρ ended hd hρ hr hc =>
      obtain ⟨graph, like, hready⟩ := ready_of_renames sample hg hd hρ hr
      refine ⟨.ok (ended.build member.generator.name),
        { session with fresh := ended.fresh, ambient := ended.ambient }, ?_, hc,
        .inl ⟨_, graph, like, rfl, hready⟩⟩
      refine (Act.bind_ok (Act.get_apply session)).trans ?_
      simp only [hrun]
      rfl
    | @failed why ended hd hc =>
      refine ⟨.error (.ofError (.initialization member.generator.name why.describe)),
        { session with fresh := ended.fresh, ambient := ended.ambient }, ?_, hc,
        .inr ⟨_, rfl, fun options snapshot inputs => by rw [report, hd]⟩⟩
      refine (Act.bind_ok (Act.get_apply session)).trans ?_
      simp only [hrun]
      rfl

/-- An execution ends with what the report says, in a sound pass, or with the error that the report
says, unless it was asked to stop. -/
theorem Ready.executePipeline (h : plugins.Ready sample generator made like tables)
    (hg : plugins.Has generator) (options : DriverOptions) (snapshot : S)
    (inputs : List AdditionalInput) (session : Session σ) :
    let run := generator.executePipeline made tables options ⟨generator.name, snapshot, inputs⟩ session
    let report := plugins.report sample options snapshot inputs generator
    (∃ ended, ended.ambient.cancelled = session.ambient.cancelled ∧
      ((∃ execution, run = .ok (.completed execution) ended ∧
          report = ⟨execution.outputs, execution.stageFaults, none⟩ ∧
          graph.Sound sample (made.given snapshot inputs) tables execution.evaluation.pass) ∨
        ∃ error, run = .ok (.failed (.ofError error)) ended ∧ report = .failed error)) ∨
    session.ambient.cancelled = true ∧ ∃ why ended, run = .error why ended := by
  intro run report
  have hreport : report = _ := h.report_eq options snapshot inputs
  have hstep := h.baseline.inStep h.plain.productive
  have hgov : like.Governs tables (made.given snapshot inputs) :=
    ⟨h.faithful.equal, h.covers, h.faithful.admits snapshot inputs⟩
  let begun : Execution σ :=
    ⟨⟨made.seed snapshot inputs (.start tables options.trackIncrementalSteps), session.ambient⟩, [], []⟩
  have hcollects := Execution.collectBindings_collects generator.name options h.plain.standard
    h.baseline hgov hstep made.outputs h.plain.outputs h.faithful.registered begun
    (h.plain.sound_seed sample tables options.trackIncrementalSteps snapshot inputs)
  have hshown : (made.outputs.map fun binding => (binding.kind, binding.stage.meaning sample
      (tables.leafShows (made.given snapshot inputs)))) = made.showings sample snapshot inputs :=
    List.map_congr_left fun binding hm => by
      rw [h.plain.meaning_eq sample tables snapshot inputs (h.plain.outputs binding hm)]
  rw [hshown] at hcollects
  have hexecute : (generator.execute ⟨generator.name, snapshot, inputs⟩).run
      (Execution.answer made options ⟨generator.name, snapshot, inputs⟩)
      (.start ⟨.start tables options.trackIncrementalSteps, session.ambient⟩) =
        Execution.collectBindings generator.name options made.outputs begun := by
    rw [plugins.execute_eq hg]
    exact Execution.run_runPipeline made options _ _
  generalize Execution.collectBindings generator.name options made.outputs begun = result
    at hcollects hexecute
  have hrun := generator.executePipeline_of_run hexecute
  cases hcollects with
  | @made after hr hs hc =>
    refine .inl ⟨_, ?_, .inl ⟨after, hrun, ?_, hs⟩⟩
    · exact hc
    · rw [hreport, gather, hr]
  | @failed error after hr hn hc =>
    refine .inl ⟨_, ?_, .inr ⟨_, hrun.trans (if_neg ?_), ?_⟩⟩
    · exact hc
    · exact fun he => hn (by simpa using he)
    · rw [hreport, gather, hr]
      rfl
  | cancelled hc => exact .inr ⟨hc, _, _, hrun.trans (if_pos rfl)⟩

variable {driver : Driver S σ} {member : Member S σ} {runId : String} {snapshot : S}
  {inputs : List AdditionalInput} {session : Session σ}

/-- A full pass leaves a settled member settled and makes what its plug-in makes from scratch, unless
it was asked to stop. -/
theorem Settled.runMember (h : plugins.Settled sample member) (hg : plugins.Has member.generator) :
    (∃ state ended, driver.runMember runId snapshot inputs member session = .ok state ended ∧
      ended.ambient.cancelled = session.ambient.cancelled ∧
      plugins.Settled sample ⟨member.generator, state⟩ ∧
      state.report = plugins.report sample driver.options snapshot inputs member.generator) ∨
    session.ambient.cancelled = true ∧
      ∃ why ended, driver.runMember runId snapshot inputs member session = .error why ended := by
  obtain ⟨r, middle, hpipeline, hcancelled,
      ⟨made, graph, like, rfl, hready⟩ | ⟨error, rfl, hreport⟩⟩ :=
    h.pipelineOf hg session
  · rcases hready.executePipeline hg driver.options snapshot inputs middle with
      ⟨last, hc, ⟨execution, hrun, hreport, hs⟩ | ⟨error, hrun, hreport⟩⟩ | ⟨hc, why, last, hrun⟩
    · obtain ⟨events, hemit⟩ := Session.emitAll_apply driver.sink
        (execution.stageFaults.map fun fault =>
          .stageFaulted runId member.generator.name fault.stage fault.message) last
      refine .inl ⟨.ofExecution made execution, { last with events }, ?_, hc.trans hcancelled, ?_,
        hreport.symm⟩
      · exact (Act.bind_ok hpipeline).trans ((Act.bind_ok hrun).trans (Act.bind_ok hemit))
      · have hcovers := StageGraph.Typing.covers_of_sound hready.covers
          (hready.faithful.admits snapshot inputs) hs
        exact .declared rfl ⟨hready.plain, hready.faithful,
          hready.baseline.finish hready.plain.standard.regular.builtin hs.lawful, hcovers.compact,
          hready.report_eq⟩
    · obtain ⟨events, hemit⟩ := Session.emit_apply driver.sink
        (.generatorExecutionFailed runId member.generator.name (Fault.ofError error).describe) last
      refine .inl ⟨.unexecuted made member.state.tables (.ofError error), { last with events }, ?_,
        hc.trans hcancelled, .declared rfl hready, hreport.symm⟩
      exact (Act.bind_ok hpipeline).trans ((Act.bind_ok hrun).trans (Act.bind_ok hemit))
    · exact .inr ⟨hcancelled.symm.trans hc, why, last,
        (Act.bind_ok hpipeline).trans (Act.bind_error hrun)⟩
  · obtain ⟨events, hemit⟩ := Session.emit_apply driver.sink
      (.generatorInitializationFailed runId member.generator.name (Fault.ofError error).describe)
      middle
    refine .inl ⟨.undeclared (.ofError error), { middle with events }, ?_, hcancelled,
      .undeclared rfl rfl, (hreport driver.options snapshot inputs).symm⟩
    exact (Act.bind_ok hpipeline).trans (Act.bind_ok hemit)

/-- A full pass over settled members makes what their plug-ins make from scratch. -/
theorem runMembers_reports (members : List (Member S σ))
    (h : ∀ member ∈ members, plugins.Has member.generator ∧ plugins.Settled sample member) :
    (∃ made ended, driver.runMembers runId snapshot inputs members session = .ok made ended ∧
      (∀ member ∈ made, plugins.Has member.generator ∧ plugins.Settled sample member) ∧
      made.map (fun member => (member.generator, member.state.report)) = members.map fun member =>
        (member.generator,
          plugins.report sample driver.options snapshot inputs member.generator)) ∨
    session.ambient.cancelled = true ∧
      ∃ why ended, driver.runMembers runId snapshot inputs members session = .error why ended := by
  induction members generalizing session with
  | nil => exact .inl ⟨[], session, rfl, fun _ hm => (by cases hm), rfl⟩
  | cons member rest ih =>
    obtain ⟨hg, hsettled⟩ := h member List.mem_cons_self
    rcases hsettled.runMember hg with ⟨state, middle, hx, hc, hstate, hreport⟩ | ⟨hc, why, middle, hx⟩
    · rcases ih fun other hm => h other (List.mem_cons_of_mem _ hm) with
        ⟨made, ended, hrest, hmade, hreports⟩ | ⟨hc', why, ended, hrest⟩
      · refine .inl ⟨{ member with state } :: made, ended,
          (Act.bind_ok hx).trans (Act.bind_ok hrest), ?_, ?_⟩
        · intro other hm
          rcases List.mem_cons.mp hm with rfl | hm
          · exact ⟨hg, hstate⟩
          · exact hmade other hm
        · rw [List.map_cons, List.map_cons, hreports, hreport]
      · exact .inr ⟨hc.symm.trans hc', why, ended, (Act.bind_ok hx).trans (Act.bind_error hrest)⟩
    · exact .inr ⟨hc, why, middle, Act.bind_error hx⟩

end PlugIns

end Regen
