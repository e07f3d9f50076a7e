import Regen.Proofs.MemberPass
import Regen.Proofs.Simulation

/-!
# The timeline of a pass

Code of plug-ins can ask the pass to stop and can read and write the memory that plug-ins share, so it
can also note there when it asks for the stop and when a transform is started. The timed form of a
driver does that, for all of its plug-ins: their declarations, their executions and the callbacks of
their stages. A full pass of the timed driver is the full pass of the driver once the timeline is
forgotten, and in its timeline no transform is started after a request to stop. A pass that was asked
to stop before it began has that request at the front of its timeline.
-/

namespace Regen

variable {S σ α : Type}

/-- What the timeline of a pass tells: a request to stop, or the start of the transform of a stage. -/
inductive Moment where
  | cancelled
  | started (stage : StageId) (value : Value)
  deriving DecidableEq

/-- The memory of plug-ins, and the moments so far. -/
structure Timeline (σ : Type) where
  memory : σ
  moments : List Moment

namespace Timeline

def note (moment : Moment) : Callback (Timeline σ) Unit :=
  .ask .readMemory fun timeline =>
    .ask (.writeMemory { timeline with moments := timeline.moments ++ [moment] }) .done

/-- What a plug-in asks, asked of the memory in a timeline. A request to stop is noted. -/
def offer : (request : Ambient.Request σ) →
    Callback (Timeline σ) ((Ambient.interface σ).Answer request)
  | .cancel => (note .cancelled).bind fun _ => .ask .cancel .done
  | .readMemory => .ask .readMemory fun timeline => .done timeline.memory
  | .writeMemory memory =>
    .ask .readMemory fun timeline => .ask (.writeMemory { timeline with memory }) .done

end Timeline

/-- The transform of a stage that notes when it is started. -/
def Transform.timed (id : StageId) (transform : Transform σ) : Transform (Timeline σ) :=
  fun value => (Timeline.note (.started id value)).bind fun _ =>
    (transform value).embed Timeline.offer

/-- The stage with all its callbacks timed. -/
def Stage.timed : Stage σ → Stage (Timeline σ)
  | .input info same => .input info same
  | .map info source transform same => .map info source.timed (transform.timed info.id) same
  | .collect info source => .collect info source.timed
  | .combine info left right => .combine info left.timed right.timed
  | .custom info update => .custom info fun previous => (update previous).embed Timeline.offer

namespace Timeline

def offerEditing : (request : Editing.Request σ) →
    EditProgram (Timeline σ) ((Editing.interface σ).Answer request)
  | .ambient request => (offer request).embed fun request => .ask (.ambient request) .done
  | .outputs => .ask .outputs .done
  | .addOutput output => .ask (.addOutput output) .done
  | .replaceOutput output => .ask (.replaceOutput output) .done
  | .removeOutput hintName => .ask (.removeOutput hintName) .done

end Timeline

def EditHandler.timed (handler : EditHandler σ) : EditHandler (Timeline σ) where
  accepts := handler.accepts
  handle content context := (handler.handle content context).embed Timeline.offerEditing

namespace Timeline

def offerDeclaration : (request : Declaration.Request S σ) →
    DeclareProgram S (Timeline σ) ((Declaration.interface S σ).Answer request)
  | .ambient request => (offer request).embed fun request => .ask (.ambient request) .done
  | .newStage name => .ask (.newStage name) .done
  | .snapshotLeaf name select => .ask (.snapshotLeaf name select) .done
  | .additionalInputs => .ask .additionalInputs .done
  | .registerOutput stage kind => .ask (.registerOutput stage.timed kind) .done
  | .onEdit kind handler => .ask (.onEdit kind handler.timed) .done

def offerExecution : (request : Execution.Request σ) →
    ExecuteProgram (Timeline σ) ((Execution.interface σ).Answer request)
  | .ambient request => (offer request).embed fun request => .ask (.ambient request) .done
  | .seed => .ask .seed .done
  | .collect => .ask .collect .done
  | .addOutput output => .ask (.addOutput output) .done
  | .outputs => .ask .outputs .done
  | .pull stage => .ask (.pull stage.timed) .done
  | .isComputed stage => .ask (.isComputed stage) .done
  | .addInput stage values => .ask (.addInput stage values) .done
  | .setTable stage table => .ask (.setTable stage table) .done
  | .steps => .ask .steps .done
  | .checkCancelled => .ask .checkCancelled .done

end Timeline

def OutputBinding.timed (binding : OutputBinding σ) : OutputBinding (Timeline σ) :=
  ⟨binding.stage.timed, binding.kind⟩

def Declaration.timedHandlers (handlers : List (String × EditHandler σ)) :
    List (String × EditHandler (Timeline σ)) :=
  handlers.map fun (kind, handler) => (kind, handler.timed)

def Pipeline.timed (pipeline : Pipeline S σ) : Pipeline S (Timeline σ) where
  shape := {
    generator := pipeline.shape.generator
    outputs := pipeline.shape.outputs
    handlers := Declaration.timedHandlers pipeline.shape.handlers }
  leaves := pipeline.leaves
  additionalInputs := pipeline.additionalInputs
  outputs := pipeline.outputs.map OutputBinding.timed

/-- The generator with all its code timed. -/
def Generator.timed (generator : Generator S σ) : Generator S (Timeline σ) where
  identity := generator.identity
  name := generator.name
  declare := generator.declare.embed Timeline.offerDeclaration
  execute briefing := (generator.execute briefing).embed Timeline.offerExecution

def GeneratorState.timed (state : GeneratorState S σ) : GeneratorState S (Timeline σ) where
  pipeline := state.pipeline.map Pipeline.timed
  tables := state.tables
  outputs := state.outputs
  stageFaults := state.stageFaults
  error := state.error
  steps := state.steps

def Member.timed (member : Member S σ) : Member S (Timeline σ) :=
  ⟨member.generator.timed, member.state.timed⟩

/-- The edit as far as a full pass has to do with it: it is committed, and not applied. -/
def Edit.timed (edit : Edit σ) : Edit (Timeline σ) where
  kind := edit.kind
  typeName := edit.typeName
  content := edit.content
  commit := edit.commit

/-- The driver with all code of its generators timed. -/
def Driver.timed (driver : Driver S σ) : Driver S (Timeline σ) where
  members := driver.members.map Member.timed
  additionalInputs := driver.additionalInputs
  pendingEdits := driver.pendingEdits.map Edit.timed
  editsFailed := driver.editsFailed
  snapshot := driver.snapshot
  assembled := driver.assembled
  options := driver.options
  host := driver.host
  sink := driver.sink

namespace Ambient

/-- The moments so far. -/
def moments (ambient : Ambient (Timeline σ)) : List Moment :=
  ambient.memory.moments

/-- The ambience at the front of a timeline. -/
def timed (ambient : Ambient σ) : Ambient (Timeline σ) :=
  ⟨ambient.cancelled, ambient.memory, if ambient.cancelled then [.cancelled] else []⟩

/-- The ambience without the timeline. -/
def untimed (ambient : Ambient (Timeline σ)) : Ambient σ :=
  ⟨ambient.cancelled, ambient.memory.memory⟩

/-- The flag is set as soon as a request to stop was noted, and after such a request no transform is
started. -/
structure Orderly (ambient : Ambient (Timeline σ)) : Prop where
  marked : ambient.cancelled = true ↔ .cancelled ∈ ambient.moments
  still : ambient.moments.Pairwise fun earlier later =>
    earlier = .cancelled → ∀ stage value, later ≠ .started stage value

/-- The ambience with its orderly timeline, and the same one without. -/
structure Tells (t : Ambient (Timeline σ)) (s : Ambient σ) : Prop where
  untimed : t.untimed = s
  orderly : t.Orderly

end Ambient

def Session.timed (session : Session σ) : Session (Timeline σ) :=
  ⟨session.ambient.timed, session.fresh, session.events⟩

namespace Ambient

theorem tells_timed (ambient : Ambient σ) : ambient.timed.Tells ambient where
  untimed := rfl
  orderly := by
    refine ⟨?_, ?_⟩ <;> unfold timed moments <;> cases ambient.cancelled <;> simp

variable {t : Ambient (Timeline σ)} {s : Ambient σ}

theorem Tells.cancelled (h : t.Tells s) : t.cancelled = s.cancelled :=
  h.untimed ▸ rfl

/-- Only the memory of the plug-ins changes. -/
theorem Tells.write (h : t.Tells s) (memory : σ) :
    Tells { t with memory := { t.memory with memory } } { s with memory } where
  untimed := by rw [← h.untimed]; rfl
  orderly := ⟨h.orderly.marked, h.orderly.still⟩

/-- A transform is started while nobody asked to stop. -/
theorem Tells.start (h : t.Tells s) (hc : t.cancelled = false) (stage : StageId) (value : Value) :
    Tells { t with memory := { t.memory with moments := t.moments ++ [.started stage value] } } s where
  untimed := h.untimed
  orderly := by
    have hnone : Moment.cancelled ∉ t.moments := fun hm =>
      Bool.false_ne_true (hc.symm.trans (h.orderly.marked.mpr hm))
    refine ⟨?_, ?_⟩
    · change t.cancelled = true ↔ .cancelled ∈ t.moments ++ [.started stage value]
      simp [hc, hnone]
    · refine List.pairwise_append.mpr ⟨h.orderly.still, List.pairwise_singleton _ _, ?_⟩
      rintro earlier hm later - rfl
      exact absurd hm hnone

/-- The pass is asked to stop. -/
theorem Tells.cancel (h : t.Tells s) :
    Tells ⟨true, { t.memory with moments := t.moments ++ [.cancelled] }⟩
      { s with cancelled := true } where
  untimed := by rw [← h.untimed]; rfl
  orderly := by
    refine ⟨?_, ?_⟩
    · change true = true ↔ .cancelled ∈ t.moments ++ [.cancelled]
      simp
    · refine List.pairwise_append.mpr ⟨h.orderly.still, List.pairwise_singleton _ _, ?_⟩
      rintro earlier - later hl - stage value rfl
      cases List.mem_singleton.mp hl

end Ambient

namespace Timeline

/-- What is asked is answered as without a timeline. -/
theorem offer_simulates (request : Ambient.Request σ) :
    ((offer request).run Ambient.answer).Simulates Ambient.Tells Eq (Ambient.answer request) := by
  intro t s h
  cases request with
  | cancel => exact .ok rfl h.cancel
  | readMemory => exact .ok (h.untimed ▸ rfl) h
  | writeMemory memory => exact .ok rfl (h.write memory)

theorem embed_simulates (callback : Callback σ α) :
    ((callback.embed offer).run Ambient.answer).Simulates Ambient.Tells Eq
      (callback.run Ambient.answer) :=
  Program.embed_simulates offer_simulates callback

/-- A transform is started only when the check before it went through: this is where the note that it
is started cannot come after a request to stop. -/
theorem applyTransform_simulates (info : StageInfo) (transform : Transform σ) (value : Value) :
    (Stage.applyTransform info (transform.timed info.id) value).Simulates Ambient.Tells Eq
      (Stage.applyTransform info transform value) := by
  intro t s h
  unfold Stage.applyTransform
  cases hc : t.cancelled with
  | true =>
    rw [Act.bind_error (Evaluation.checkCancelled_cancelled hc),
      Act.bind_error (Evaluation.checkCancelled_cancelled (h.cancelled ▸ hc))]
    exact .error h
  | false =>
    rw [Act.bind_ok (Evaluation.checkCancelled_apply hc),
      Act.bind_ok (Evaluation.checkCancelled_apply (h.cancelled ▸ hc))]
    have hrun : Act.Alike Ambient.Tells Eq
        ((transform.timed info.id value).run Ambient.answer t)
        ((transform value).run Ambient.answer s) :=
      embed_simulates (transform value) _ s (h.start hc info.id value)
    rcases hrun.endings with ⟨values, _, t', s', ht, hs, rfl, h'⟩ | ⟨why, t', s', ht, hs, h'⟩
    · rw [Act.bind_ok (Act.outcome_apply (r := .ok values) ht),
        Act.bind_ok (Act.outcome_apply (r := .ok values) hs)]
      exact .ok rfl h'
    · rw [Act.bind_ok (Act.outcome_apply (r := .error why) ht),
        Act.bind_ok (Act.outcome_apply (r := .error why) hs)]
      exact .ok rfl h'

end Timeline

/-- A timed stage does what the stage does, and keeps the timeline orderly. -/
theorem Stage.simulates_timed (stage : Stage σ) : stage.timed.Simulates Ambient.Tells stage := by
  induction stage with
  | input info same => exact .input info same
  | map info source transform same ih =>
    exact .map same ih (Timeline.applyTransform_simulates info transform)
  | collect info source ih => exact .collect info ih
  | combine info left right ihl ihr => exact .combine info ihl ihr
  | custom info update => exact .custom info fun old => Timeline.embed_simulates (update old)

@[simp] theorem Stage.info_timed (stage : Stage σ) : stage.timed.info = stage.info :=
  stage.simulates_timed.info_eq

namespace Evaluation

/-- The same pass, with a timeline and without. -/
abbrev Tells (t : Evaluation (Timeline σ)) (s : Evaluation σ) : Prop :=
  Related Ambient.Tells t s

theorem pull_timed (stage : Stage σ) : (pull stage.timed).Simulates Tells Eq (pull stage) :=
  pull_simulates (fun _ _ h => h.cancelled) stage.simulates_timed

end Evaluation

namespace Execution

/-- The same execution, with a timeline and without. -/
structure Tells (t : Execution (Timeline σ)) (s : Execution σ) : Prop where
  evaluation : t.evaluation.Tells s.evaluation
  outputs : t.outputs = s.outputs
  stageFaults : t.stageFaults = s.stageFaults

theorem onEvaluation_simulates {act : Act (Evaluation (Timeline σ)) α} {plain : Act (Evaluation σ) α}
    (h : act.Simulates Evaluation.Tells Eq plain) :
    (onEvaluation act).Simulates Tells Eq (onEvaluation plain) :=
  h.within (fun _ _ hr => hr.evaluation) fun _ _ _ _ hr he => ⟨he, hr.outputs, hr.stageFaults⟩

theorem addOutput_simulates (generator : String) (output : GeneratedOutput) :
    (addOutput generator output : Act (Execution (Timeline σ)) Unit).Simulates Tells Eq
      (addOutput generator output) := by
  refine Act.simulates_get_bind fun t s hr => ?_
  rw [hr.outputs]
  split
  · exact .error hr
  · exact .ok rfl ⟨hr.evaluation, congrArg (· ++ [output]) hr.outputs, hr.stageFaults⟩

theorem addOutputs_simulates (generator : String) (outputs : List GeneratedOutput) :
    (addOutputs generator outputs : Act (Execution (Timeline σ)) Unit).Simulates Tells Eq
      (addOutputs generator outputs) := by
  induction outputs with
  | nil => exact Act.simulates_pure rfl
  | cons output rest ih => exact (addOutput_simulates generator output).bind_eq fun _ => ih

theorem collectBinding_simulates (generator : String) (binding : OutputBinding σ) :
    (collectBinding generator binding.timed).Simulates Tells Eq (collectBinding generator binding) := by
  refine (onEvaluation_simulates (Evaluation.pull_timed binding.stage)).bind_eq fun table => ?_
  cases table.fault with
  | some fault =>
    exact Act.simulates_modify fun t s hr =>
      ⟨hr.evaluation, hr.outputs, congrArg (· ++ [fault]) hr.stageFaults⟩
  | none => exact addOutputs_simulates generator _

theorem collectBindings_simulates (generator : String) (options : DriverOptions)
    (bindings : List (OutputBinding σ)) :
    (collectBindings generator options (bindings.map OutputBinding.timed)).Simulates Tells Eq
      (collectBindings generator options bindings) := by
  induction bindings with
  | nil => exact Act.simulates_pure rfl
  | cons binding rest ih =>
    rw [List.map_cons]
    unfold collectBindings
    change Act.Simulates _ _ (if options.isEnabled binding.kind then _ else _) _
    split
    · exact (collectBinding_simulates generator binding).bind_eq fun _ => ih
    · exact ih

/-- What a plug-in asks of the ambience while it executes is asked of the ambience. -/
theorem run_embed_ambient (pipeline : Pipeline S σ) (options : DriverOptions) (briefing : Briefing S)
    (callback : Callback σ α) :
    (callback.embed fun request => .ask (.ambient request) .done :
      ExecuteProgram σ α).run (answer pipeline options briefing) =
      onEvaluation (Evaluation.onAmbient (callback.run Ambient.answer)) := by
  let part (execution : Execution σ) : Ambient σ := execution.evaluation.ambient
  let replace (ambient : Ambient σ) (execution : Execution σ) : Execution σ :=
    { execution with evaluation := { execution.evaluation with ambient } }
  have hnested : ∀ {β : Type} (act : Act (Ambient σ) β),
      onEvaluation (Evaluation.onAmbient act) = act.within part replace := by
    intro β act
    funext execution
    unfold onEvaluation Evaluation.onAmbient Act.within
    dsimp only [part]
    cases act execution.evaluation.ambient <;> rfl
  rw [hnested]
  refine Program.run_embed_within part replace (fun _ _ => rfl) (fun _ => rfl)
    (fun _ _ _ => rfl) (fun request => ?_) callback
  exact (Program.run_ask _ _).trans (hnested (Ambient.answer request))

theorem answer_simulates (pipeline : Pipeline S σ) (options : DriverOptions) (briefing : Briefing S)
    (request : Request σ) :
    ((Timeline.offerExecution request).run (answer pipeline.timed options briefing)).Simulates Tells
      Eq (answer pipeline options briefing request) := by
  have hpass (f : Pass → Pass) : (onEvaluation (Evaluation.modifyPass f) :
      Act (Execution (Timeline σ)) Unit).Simulates Tells Eq (onEvaluation (Evaluation.modifyPass f)) :=
    onEvaluation_simulates (Evaluation.modifyPass_simulates f)
  cases request with
  | ambient request =>
    refine (run_embed_ambient pipeline.timed options briefing (Timeline.offer request)).symm ▸ ?_
    exact onEvaluation_simulates
      (Evaluation.onAmbient_simulates (Timeline.offer_simulates request))
  | seed => exact (Program.run_ask _ _).symm ▸ hpass _
  | collect =>
    exact (Program.run_ask _ _).symm ▸
      (collectBindings_simulates briefing.generator options pipeline.outputs).orError
  | addOutput output =>
    exact (Program.run_ask _ _).symm ▸ (addOutput_simulates briefing.generator output).orError
  | outputs => exact (Program.run_ask _ _).symm ▸ fun t s hr => .ok hr.outputs hr
  | pull stage =>
    exact (Program.run_ask _ _).symm ▸ onEvaluation_simulates (Evaluation.pull_timed stage).orError
  | isComputed stage =>
    exact (Program.run_ask _ _).symm ▸ fun t s hr =>
      .ok (congrArg (Pass.isComputed · stage) hr.evaluation.pass) hr
  | addInput stage values => exact (Program.run_ask _ _).symm ▸ hpass _
  | setTable stage table => exact (Program.run_ask _ _).symm ▸ hpass _
  | steps =>
    exact (Program.run_ask _ _).symm ▸ fun t s hr =>
      .ok (congrArg Pass.recordedSteps hr.evaluation.pass) hr
  | checkCancelled =>
    exact (Program.run_ask _ _).symm ▸ onEvaluation_simulates (Evaluation.onAmbient_simulates
      (Ambient.checkCancelled_simulates fun _ _ h => h.cancelled)).orError

end Execution

namespace Declaration

/-- The same declaration, with timed stages and handlers and without. -/
structure Tells (t : Declaration S (Timeline σ)) (s : Declaration S σ) : Prop where
  leaves : t.leaves = s.leaves
  additionalInputs : t.additionalInputs = s.additionalInputs
  outputs : t.outputs = s.outputs.map OutputBinding.timed
  handlers : t.handlers = timedHandlers s.handlers
  fresh : t.fresh = s.fresh
  ambient : t.ambient.Tells s.ambient

theorem register_timed (stage : Stage σ) (kind : OutputKind) (outputs : List (OutputBinding σ)) :
    register stage.timed kind (outputs.map OutputBinding.timed) =
      (register stage kind outputs).map OutputBinding.timed := by
  have hany : (outputs.map OutputBinding.timed).any (·.stage.id == stage.timed.id) =
      outputs.any (·.stage.id == stage.id) := by
    simp only [List.any_map, OutputBinding.timed, Stage.id, Stage.info_timed, Function.comp_def]
  unfold register
  rw [hany]
  split
  · rfl
  · rw [List.map_append]
    rfl

theorem setHandler_timed (kind : String) (handler : EditHandler σ)
    (handlers : List (String × EditHandler σ)) :
    setHandler kind handler.timed (timedHandlers handlers) =
      timedHandlers (setHandler kind handler handlers) := by
  unfold setHandler timedHandlers
  rw [List.map_append, List.filter_map]
  rfl

theorem takeFresh_simulates (name : String) :
    (takeFresh name : Act (Declaration S (Timeline σ)) StageInfo).Simulates Tells Eq
      (takeFresh name) := by
  intro t s hr
  have hnames : (⟨⟨t.fresh⟩, name⟩ : StageInfo) = ⟨⟨s.fresh⟩, name⟩ := by rw [hr.fresh]
  exact .ok hnames { hr with fresh := congrArg (· + 1) hr.fresh }

theorem run_embed_ambient (callback : Callback σ α) :
    (callback.embed fun request => .ask (.ambient request) .done :
      DeclareProgram S σ α).run answer =
      (callback.run Ambient.answer).within ambient fun ambient declaration =>
        { declaration with ambient } :=
  Program.run_embed_within ambient
    (fun ambient (declaration : Declaration S σ) => { declaration with ambient })
    (fun _ _ => rfl) (fun _ => rfl) (fun _ _ _ => rfl)
    (fun request => (Program.run_ask (I := interface S σ) answer (.ambient request)).trans rfl) callback

theorem answer_simulates (request : Request S σ) :
    ((Timeline.offerDeclaration request).run answer).Simulates Tells Eq (answer request) := by
  cases request with
  | ambient request =>
    refine (run_embed_ambient (Timeline.offer request)).symm ▸ ?_
    exact (Timeline.offer_simulates request).within (fun _ _ hr => hr.ambient)
      fun _ _ _ _ hr ha => { hr with ambient := ha }
  | newStage name => exact (Program.run_ask _ _).symm ▸ takeFresh_simulates name
  | snapshotLeaf name select =>
    exact (Program.run_ask _ _).symm ▸ (takeFresh_simulates name).bind_eq fun stage =>
      (Act.simulates_modify fun t s hr =>
        { hr with leaves := congrArg (· ++ [⟨stage, select⟩]) hr.leaves }).bind_eq fun _ =>
          Act.simulates_pure (Eq.refl stage)
  | additionalInputs =>
    refine (Program.run_ask _ _).symm ▸ Act.simulates_get_bind fun t s hr => ?_
    rw [hr.additionalInputs]
    cases s.additionalInputs with
    | some stage => exact .ok rfl hr
    | none =>
      have htaken := (takeFresh_simulates (S := S) (σ := σ) additionalInputsName).bind_eq fun stage =>
        (Act.simulates_modify (g := fun s => { s with additionalInputs := some stage })
          (f := fun t => { t with additionalInputs := some stage }) fun t s hr =>
            { hr with additionalInputs := rfl }).bind_eq fun _ => Act.simulates_pure (Eq.refl stage)
      exact htaken t s hr
  | registerOutput stage kind =>
    exact (Program.run_ask _ _).symm ▸ Act.simulates_modify fun t s hr =>
      { hr with outputs := hr.outputs ▸ register_timed stage kind s.outputs }
  | onEdit kind handler =>
    exact (Program.run_ask _ _).symm ▸ Act.simulates_modify fun t s hr =>
      { hr with handlers := hr.handlers ▸ setHandler_timed kind handler s.handlers }

theorem Tells.build {t : Declaration S (Timeline σ)} {s : Declaration S σ} (h : t.Tells s)
    (generator : String) : t.build generator = (s.build generator).timed := by
  unfold Declaration.build Pipeline.timed
  rw [h.leaves, h.additionalInputs, h.outputs, h.handlers, List.map_map]
  congr 2
  exact List.map_congr_left fun binding _ => congrArg (·, binding.kind) binding.stage.info_timed

end Declaration

namespace Session

/-- The same session, with a timeline and without. -/
structure Tells (t : Session (Timeline σ)) (s : Session σ) : Prop where
  ambient : t.ambient.Tells s.ambient
  fresh : t.fresh = s.fresh
  events : t.events = s.events

theorem tells_timed (session : Session σ) : session.timed.Tells session :=
  ⟨session.ambient.tells_timed, rfl, rfl⟩

theorem takeFresh_simulates :
    (takeFresh : Act (Session (Timeline σ)) Nat).Simulates Tells Eq takeFresh := by
  intro t s hr
  exact .ok hr.fresh { hr with fresh := congrArg (· + 1) hr.fresh }

theorem newRunId_simulates :
    (newRunId : Act (Session (Timeline σ)) String).Simulates Tells Eq newRunId :=
  takeFresh_simulates.bind_eq fun _ => Act.simulates_pure rfl

theorem emit_simulates (sink : Sink) (event : EngineEvent) :
    (emit sink event : Act (Session (Timeline σ)) Unit).Simulates Tells Eq (emit sink event) :=
  Act.simulates_modify fun _ _ hr =>
    { hr with events := congrArg (fun kept => (sink.deliver event kept).2) hr.events }

theorem emitAll_simulates (sink : Sink) (events : List EngineEvent) :
    (emitAll sink events : Act (Session (Timeline σ)) Unit).Simulates Tells Eq
      (emitAll sink events) := by
  induction events with
  | nil => exact Act.simulates_pure rfl
  | cons event rest ih => exact (emit_simulates sink event).bind_eq fun _ => ih

end Session

theorem Host.assemble_simulates (host : Host S) (sink : Sink) (runId : String)
    (outputs : List (String × GeneratedOutput)) (snapshot : Snapshot S) :
    (host.assemble sink runId snapshot outputs :
      Act (Session (Timeline σ)) (Snapshot S)).Simulates Session.Tells Eq
        (host.assemble sink runId snapshot outputs) := by
  induction outputs generalizing snapshot with
  | nil => exact Act.simulates_pure rfl
  | cons entry rest ih =>
    obtain ⟨generator, output⟩ := entry
    unfold Host.assemble
    cases host.mergeOutput snapshot.content generator output with
    | ok content => exact Session.takeFresh_simulates.bind_eq fun identity => ih ⟨identity, content⟩
    | error error => exact (Session.emit_simulates sink _).bind_eq fun _ => ih snapshot

namespace Generator

theorem declarePipeline_simulates (generator : Generator S σ) :
    generator.timed.declarePipeline.Simulates Session.Tells
      (fun t s => t = s.map Pipeline.timed) generator.declarePipeline := by
  refine Act.simulates_get_bind fun t s hr => ?_
  have hbegun : (Declaration.start t.fresh t.ambient : Declaration S (Timeline σ)).Tells
      (.start s.fresh s.ambient) := ⟨rfl, rfl, rfl, rfl, hr.fresh, hr.ambient⟩
  have hrun := Program.embed_simulates Declaration.answer_simulates generator.declare _ _ hbegun
  rcases hrun.endings with ⟨_, _, t', s', ht, hs, -, h'⟩ | ⟨why, t', s', ht, hs, h'⟩
  all_goals
    change generator.timed.declare.run Declaration.answer _ = _ at ht
    simp only [ht, hs]
  · exact .ok (congrArg Except.ok (h'.build generator.name)) ⟨h'.ambient, h'.fresh, hr.events⟩
  · exact .ok rfl ⟨h'.ambient, h'.fresh, hr.events⟩

/-- The same ending of an execution, with a timeline and without. -/
inductive Ending.Tells : Ending (Timeline σ) → Ending σ → Prop
  | completed {t s} (execution : t.Tells s) : Tells (.completed t) (.completed s)
  | failed (fault : Fault) : Tells (.failed fault) (.failed fault)

theorem executePipeline_simulates (generator : Generator S σ) (pipeline : Pipeline S σ)
    (tables : PassTables) (options : DriverOptions) (briefing : Briefing S) :
    (generator.timed.executePipeline pipeline.timed tables options briefing).Simulates Session.Tells
      Ending.Tells (generator.executePipeline pipeline tables options briefing) := by
  intro t s hr
  have hbegun : Execution.Tells
      (.start ⟨.start tables options.trackIncrementalSteps, t.ambient⟩)
      (.start ⟨.start tables options.trackIncrementalSteps, s.ambient⟩) :=
    ⟨⟨rfl, hr.ambient⟩, rfl, rfl⟩
  have hrun := Program.embed_simulates (Execution.answer_simulates pipeline options briefing)
    (generator.execute briefing) _ _ hbegun
  rcases hrun.endings with ⟨_, _, t', s', ht, hs, -, h'⟩ | ⟨why, t', s', ht, hs, h'⟩
  all_goals rw [generator.timed.executePipeline_of_run ht, generator.executePipeline_of_run hs]
  · exact .ok (.completed h') { hr with ambient := h'.evaluation.ambient }
  · by_cases hw : why = .failed .cancelled
    · simp only [if_pos hw]
      exact .error { hr with ambient := h'.evaluation.ambient }
    · simp only [if_neg hw]
      exact .ok (.failed _) { hr with ambient := h'.evaluation.ambient }

end Generator

theorem GeneratorState.ofExecution_timed (pipeline : Pipeline S σ) {t : Execution (Timeline σ)}
    {s : Execution σ} (h : t.Tells s) :
    ofExecution pipeline.timed t = (ofExecution pipeline s).timed := by
  unfold ofExecution
  rw [h.evaluation.pass, h.outputs, h.stageFaults]
  rfl

namespace Driver

theorem pipelineOf_simulates (member : Member S σ) :
    (pipelineOf member.timed).Simulates Session.Tells (fun t s => t = s.map Pipeline.timed)
      (pipelineOf member) := by
  obtain ⟨generator, pipeline, tables, outputs, stageFaults, error, steps⟩ := member
  cases pipeline with
  | some pipeline => exact Act.simulates_pure rfl
  | none => exact generator.declarePipeline_simulates

theorem runMember_simulates (driver : Driver S σ) (runId : String) (snapshot : S)
    (inputs : List AdditionalInput) (member : Member S σ) :
    (driver.timed.runMember runId snapshot inputs member.timed).Simulates Session.Tells
      (fun t s => t = s.timed) (driver.runMember runId snapshot inputs member) := by
  refine (pipelineOf_simulates member).bind fun _ declared he => ?_
  subst he
  cases declared with
  | error fault =>
    exact (Session.emit_simulates _ _).bind_eq fun _ => Act.simulates_pure rfl
  | ok pipeline =>
    refine (Generator.executePipeline_simulates member.generator pipeline _ _ _).bind
      fun _ _ hending => ?_
    cases hending with
    | completed h =>
      change Act.Simulates _ _ (Session.emitAll _ _ >>= fun _ => _) _
      rw [h.stageFaults, GeneratorState.ofExecution_timed pipeline h]
      exact (Session.emitAll_simulates _ _).bind_eq fun _ => Act.simulates_pure rfl
    | failed fault =>
      exact (Session.emit_simulates _ _).bind_eq fun _ => Act.simulates_pure rfl

theorem runMembers_simulates (driver : Driver S σ) (runId : String) (snapshot : S)
    (inputs : List AdditionalInput) (members : List (Member S σ)) :
    (driver.timed.runMembers runId snapshot inputs (members.map Member.timed)).Simulates Session.Tells
      (fun t s => t = s.map Member.timed) (driver.runMembers runId snapshot inputs members) := by
  induction members with
  | nil => exact Act.simulates_pure rfl
  | cons member rest ih =>
    refine (driver.runMember_simulates runId snapshot inputs member).bind fun _ state he => ?_
    subst he
    refine ih.bind fun _ made he => Act.simulates_pure ?_
    subst he
    rfl

theorem commitAll_timed (edits : List (Edit σ)) (inputs : List AdditionalInput) :
    Edit.commitAll (edits.map Edit.timed) inputs = Edit.commitAll edits inputs := by
  induction edits generalizing inputs with
  | nil => rfl
  | cons edit rest ih =>
    change (edit.commit inputs >>= fun inputs => Edit.commitAll (rest.map Edit.timed) inputs) = _
    simp only [ih]
    rfl

theorem assembleMembers_simulates (driver : Driver S σ) (runId : String) (snapshot : Snapshot S)
    (members : List (Member S σ)) :
    (driver.timed.assembleMembers runId snapshot (members.map Member.timed)).Simulates Session.Tells
      Eq (driver.assembleMembers runId snapshot members) := by
  unfold assembleMembers
  rw [List.flatMap_map]
  exact Host.assemble_simulates driver.host driver.sink runId _ snapshot

theorem executePass_simulates (driver : Driver S σ) (runId : String) (snapshot : Snapshot S) :
    (driver.timed.executePass runId snapshot).Simulates Session.Tells (fun t s => t = s.timed)
      (driver.executePass runId snapshot) := by
  have hcommit : Edit.commitAll driver.timed.pendingEdits driver.timed.additionalInputs =
      Edit.commitAll driver.pendingEdits driver.additionalInputs :=
    commitAll_timed driver.pendingEdits driver.additionalInputs
  have hcount : driver.timed.members.length = driver.members.length := List.length_map ..
  unfold executePass
  rw [hcount, hcommit]
  refine (Session.emit_simulates _ _).bind_eq fun _ => ?_
  refine (Act.simulates_ofPanic _).bind_eq fun inputs => ?_
  refine (driver.runMembers_simulates runId snapshot.content inputs driver.members).bind
    fun _ members he => ?_
  subst he
  refine (driver.assembleMembers_simulates runId snapshot members).bind_eq fun assembled => ?_
  rw [List.foldl_map, List.countP_map]
  exact (Session.emit_simulates _ _).bind_eq fun _ => Act.simulates_pure rfl

/-- A full pass of the timed driver is the full pass of the driver, in an orderly timeline. -/
theorem fullPass_simulates (driver : Driver S σ) (snapshot : Snapshot S) :
    (driver.timed.fullPass snapshot).Simulates Session.Tells (fun t s => t = s.timed)
      (driver.fullPass snapshot) := by
  refine Session.newRunId_simulates.bind_eq fun runId => ?_
  change Act.Simulates _ _ (if driver.isUpToDate snapshot then _ else _) _
  split
  · exact (Session.emit_simulates _ _).bind_eq fun _ => Act.simulates_pure rfl
  · exact driver.executePass_simulates runId snapshot

end Driver

end Regen
