import Regen.Proofs.Coherence

/-!
# The events of a full pass

What a full pass tells can be read off the driver that it makes. `Member.events` reads off a
generator what was told about it, and `Driver.passEvents` the whole sequence: the start, each
generator in order, the outputs that were not merged, and the counts at the end. A pass that is
cancelled has told the beginning of such a sequence, up to the generator that ended it. This is about
sinks that keep the events; what they do with them is left out.
-/

namespace Regen

variable {S σ : Type}

namespace Member

/-- What a pass tells about a generator that it leaves in this state. -/
def events (runId : String) (member : Member S σ) : List EngineEvent :=
  match member.state.error, member.state.pipeline with
  | some fault, none =>
    [.generatorInitializationFailed runId member.generator.name fault.describe]
  | some fault, some _ => [.generatorExecutionFailed runId member.generator.name fault.describe]
  | none, _ => member.state.stageFaults.map fun fault =>
      .stageFaulted runId member.generator.name fault.stage fault.message

/-- Nothing that the generator made is kept if it failed. -/
def BareIfFailed (member : Member S σ) : Prop :=
  member.state.error.isSome = true →
    member.state.outputs = [] ∧ member.state.stageFaults = [] ∧ member.state.steps = []

/-- All that is told about a generator are failures of this run. -/
theorem events_fail {runId : String} {member : Member S σ} {event : EngineEvent}
    (h : event ∈ member.events runId) : event.runId = runId ∧ event.isFailure = true := by
  unfold events at h
  split at h
  · rw [List.mem_singleton.mp h]
    exact ⟨rfl, rfl⟩
  · rw [List.mem_singleton.mp h]
    exact ⟨rfl, rfl⟩
  · obtain ⟨fault, -, rfl⟩ := List.mem_map.mp h
    exact ⟨rfl, rfl⟩

end Member

theorem Host.failures_fail {host : Host S} {runId : String} {content : S}
    {outputs : List (String × GeneratedOutput)} {event : EngineEvent}
    (h : event ∈ host.failures runId content outputs) :
    event.runId = runId ∧ event.isFailure = true := by
  obtain ⟨turn, -, hturn⟩ := List.mem_filterMap.mp h
  cases ht : turn.2 with
  | ok next =>
    rw [ht] at hturn
    cases hturn
  | error error =>
    rw [ht] at hturn
    obtain rfl := Option.some.inj hturn
    exact ⟨rfl, rfl⟩

namespace Driver

/-- What a full pass over this content tells that makes the driver. -/
def passEvents (driver : Driver S σ) (runId : String) (content : S) : List EngineEvent :=
  [.passStarted runId driver.generators.length] ++ driver.members.flatMap (Member.events runId) ++
    driver.host.failures runId content driver.namedOutputs ++
      [.passCompleted runId driver.outputs.length driver.failed.length]

variable {driver next : Driver S σ} {runId : String} {content : S} {inputs : List AdditionalInput}
  {member : Member S σ} {session : Session σ}

theorem runId_of_mem_passEvents {event : EngineEvent}
    (h : event ∈ driver.passEvents runId content) : event.runId = runId := by
  simp only [passEvents, List.mem_append, List.mem_singleton, List.mem_flatMap] at h
  rcases h with ((rfl | ⟨member, -, hevent⟩) | hfailure) | rfl
  · rfl
  · exact (Member.events_fail hevent).1
  · exact (Host.failures_fail hfailure).1
  · rfl

/-- What is told begins with what is told about the first members. -/
theorem prefix_passEvents (driver : Driver S σ) (runId : String) (content : S)
    (front back : List (Member S σ)) (h : driver.members = front ++ back) :
    [.passStarted runId driver.generators.length] ++ front.flatMap (Member.events runId) <+:
      driver.passEvents runId content := by
  rw [passEvents, h, List.flatMap_append, ← List.append_assoc [_], List.append_assoc,
    List.append_assoc]
  exact List.prefix_append ..

/-! The counts of a pass are those of the results that it leaves. -/

theorem length_outputs (driver : Driver S σ) : driver.outputs.length =
    driver.members.foldl (fun count member => count + member.state.outputs.length) 0 := by
  rw [outputs, runResults, List.flatMap_map, List.length_flatMap, List.sum_eq_foldl, List.foldl_map]
  rfl

theorem length_failed (driver : Driver S σ) :
    driver.failed.length = driver.members.countP (·.state.error.isSome) := by
  rw [failed, ← List.countP_eq_length_filter, runResults, List.countP_map]
  rfl

/-! One generator. -/

/-- Declaring a pipeline sends nothing. -/
theorem pipelineOf_events (member : Member S σ) (session : Session σ) :
    ∃ r ended, pipelineOf member session = .ok r ended ∧ ended.events = session.events := by
  unfold pipelineOf
  cases member.state.pipeline with
  | some pipeline => exact ⟨_, session, rfl, rfl⟩
  | none =>
    simp only [Generator.declarePipeline, Act.bind_ok (Act.get_apply session)]
    cases hrun : member.generator.declare.run Declaration.answer
      (.start session.fresh session.ambient) <;> exact ⟨_, _, rfl, rfl⟩

/-- A generator that does not cancel the pass is left in a state from which what was told about it can
be read. One that does is not told about. -/
theorem runMember_tells (driver : Driver S σ) (runId : String) (content : S)
    (inputs : List AdditionalInput) (member : Member S σ) (session : Session σ) :
    (∃ state ended, driver.runMember runId content inputs member session = .ok state ended ∧
      ended.events =
        driver.sink.keepAll (Member.events runId { member with state }) session.events ∧
      Member.BareIfFailed { member with state }) ∨
    ∃ ended, driver.runMember runId content inputs member session =
      .error (.failed .cancelled) ended ∧ ended.events = session.events := by
  obtain ⟨r, declared, hpipeline, hevents⟩ := pipelineOf_events member session
  rw [← hevents]
  cases r with
  | error fault =>
    refine .inl ⟨.undeclared fault, _, (Act.bind_ok hpipeline).trans
      (Act.bind_ok (Session.emit_eq ..)), rfl, fun _ => ⟨rfl, rfl, rfl⟩⟩
  | ok pipeline =>
    generalize hrun : (member.generator.execute ⟨member.generator.name, content, inputs⟩).run
      (Execution.answer pipeline driver.options ⟨member.generator.name, content, inputs⟩)
      (.start ⟨.start member.state.tables driver.options.trackIncrementalSteps,
        declared.ambient⟩) = result
    have hexecuted := member.generator.executePipeline_of_run hrun
    cases result with
    | ok _ execution =>
      exact .inl ⟨.ofExecution pipeline execution, _, (Act.bind_ok hpipeline).trans
        ((Act.bind_ok hexecuted).trans (Act.bind_ok (Session.emitAll_eq ..))), rfl,
        fun h => by cases h⟩
    | error why stopped =>
      by_cases hc : why = .failed .cancelled
      · exact .inr ⟨_, (Act.bind_ok hpipeline).trans
          (Act.bind_error (hexecuted.trans (if_pos hc))), rfl⟩
      · exact .inl ⟨.unexecuted pipeline member.state.tables _, _, (Act.bind_ok hpipeline).trans
          ((Act.bind_ok (hexecuted.trans (if_neg hc))).trans (Act.bind_ok (Session.emit_eq ..))), rfl,
          fun _ => ⟨rfl, rfl, rfl⟩⟩

/-! All generators. -/

/-- A pass over some members makes `ran` of the first ones and ends in the next one, which cancels
it. -/
def Interrupted (driver : Driver S σ) (runId : String) (content : S) (inputs : List AdditionalInput)
    (members : List (Member S σ)) (session : Session σ) (ran : List (Member S σ))
    (ended : Session σ) : Prop :=
  ∃ front asked back middle, members = front ++ asked :: back ∧
    driver.runMembers runId content inputs front session = .ok ran middle ∧
    driver.runMember runId content inputs asked middle = .error (.failed .cancelled) ended

theorem Interrupted.cons {members ran : List (Member S σ)} {state : GeneratorState S σ}
    {middle ended : Session σ}
    (hx : driver.runMember runId content inputs member session = .ok state middle)
    (h : driver.Interrupted runId content inputs members middle ran ended) :
    driver.Interrupted runId content inputs (member :: members) session
      ({ member with state } :: ran) ended := by
  obtain ⟨front, asked, back, last, rfl, hran, hasked⟩ := h
  exact ⟨member :: front, asked, back, last, rfl, (Act.bind_ok hx).trans (Act.bind_ok hran), hasked⟩

/-- The generators that ran are the first ones, and there is another one. -/
theorem Interrupted.generators_eq {members ran : List (Member S σ)} {ended : Session σ}
    (h : driver.Interrupted runId content inputs members session ran ended) :
    ∃ asked back, (ran ++ asked :: back).map Member.generator = members.map Member.generator := by
  obtain ⟨front, asked, back, last, rfl, hran, -⟩ := h
  refine ⟨asked, back, ?_⟩
  rw [List.map_append, List.map_append, runMembers_generators front ran hran]

/-- Running the members tells about each of them in order, up to one that cancels the pass. -/
theorem runMembers_tells (driver : Driver S σ) (runId : String) (content : S)
    (inputs : List AdditionalInput) (members : List (Member S σ)) (session : Session σ) :
    (∃ made ended, driver.runMembers runId content inputs members session = .ok made ended ∧
      ended.events = driver.sink.keepAll (made.flatMap (Member.events runId)) session.events ∧
      ∀ member ∈ made, member.BareIfFailed) ∨
    ∃ ran ended, driver.runMembers runId content inputs members session =
        .error (.failed .cancelled) ended ∧
      driver.Interrupted runId content inputs members session ran ended ∧
      ended.events = driver.sink.keepAll (ran.flatMap (Member.events runId)) session.events := by
  induction members generalizing session with
  | nil => exact .inl ⟨[], session, rfl, rfl, fun _ hm => by cases hm⟩
  | cons member rest ih =>
    rcases driver.runMember_tells runId content inputs member session with
      ⟨state, middle, hx, hevents, hbare⟩ | ⟨middle, hx, hevents⟩
    · rcases ih middle with
        ⟨made, ended, hmade, hrest, hbares⟩ | ⟨ran, ended, hran, hinterrupted, hrest⟩
      · refine .inl ⟨{ member with state } :: made, ended,
          (Act.bind_ok hx).trans (Act.bind_ok hmade), ?_, List.forall_mem_cons.mpr ⟨hbare, hbares⟩⟩
        rw [hrest, hevents, List.flatMap_cons, Sink.keepAll_append]
      · refine .inr ⟨{ member with state } :: ran, ended,
          (Act.bind_ok hx).trans (Act.bind_error hran), hinterrupted.cons hx, ?_⟩
        rw [hrest, hevents, List.flatMap_cons, Sink.keepAll_append]
    · exact .inr ⟨[], middle, Act.bind_error hx, ⟨[], member, rest, session, rfl, rfl, hx⟩, hevents⟩

/-! The whole pass. -/

/-- The session in which the generators of a full pass run: the start was told. -/
def startedIn (driver : Driver S σ) (runId : String) (session : Session σ) : Session σ :=
  { session with
    events := driver.sink.keepAll [.passStarted runId driver.generators.length] session.events }

theorem executePass_tells (driver : Driver S σ) (runId : String) (snapshot : Snapshot S)
    (session : Session σ)
    (hinputs : Edit.commitAll driver.pendingEdits driver.additionalInputs = .ok inputs) :
    (∃ next ended, driver.executePass runId snapshot session = .ok next ended ∧
      next.generators = driver.generators ∧
      next.assembled.map (·.content) =
        some (driver.host.mergeAll snapshot.content next.namedOutputs) ∧
      (∀ member ∈ next.members, member.BareIfFailed) ∧
      ended.events =
        driver.sink.keepAll (next.passEvents runId snapshot.content) session.events) ∨
    ∃ ran ended, driver.executePass runId snapshot session = .error (.failed .cancelled) ended ∧
      driver.Interrupted runId snapshot.content inputs driver.members (driver.startedIn runId session)
        ran ended ∧
      ended.events = driver.sink.keepAll
        ([.passStarted runId driver.generators.length] ++ ran.flatMap (Member.events runId))
        session.events := by
  have hstarted : Session.emit driver.sink (.passStarted runId driver.members.length) session =
      .ok () (driver.startedIn runId session) := by
    rw [startedIn, generators, List.length_map]
    exact Session.emit_eq ..
  have hcommitted := Act.ofPanic_ok hinputs (driver.startedIn runId session)
  rcases driver.runMembers_tells runId snapshot.content inputs driver.members
    (driver.startedIn runId session) with
    ⟨made, ran, hran, hevents, hbare⟩ | ⟨ran, ended, hran, hinterrupted, hevents⟩
  · have hassembled := driver.host.assemble_eq driver.sink runId (made.flatMap Member.namedOutputs)
      snapshot ran
    refine .inl ⟨_, _, (Act.bind_ok hstarted).trans ((Act.bind_ok hcommitted).trans
      ((Act.bind_ok hran).trans ((Act.bind_ok hassembled).trans (Act.bind_ok (Session.emit_eq ..))))),
      runMembers_generators driver.members made hran, ?_, hbare, ?_⟩
    · rw [← flatMap_namedOutputs, Option.map_some, Host.content_assembledFrom]
    · have hcount := congrArg List.length (runMembers_generators driver.members made hran)
      simp only [passEvents, Sink.keepAll_append, length_outputs, length_failed,
        ← flatMap_namedOutputs, generators, hcount, hevents]
      rfl
  · refine .inr ⟨ran, ended, (Act.bind_ok hstarted).trans ((Act.bind_ok hcommitted).trans
      (Act.bind_error hran)), hinterrupted, ?_⟩
    rw [hevents, Sink.keepAll_append]
    rfl

end Driver

/-- The events of a full pass that is executed tell exactly what happened in it, under one run
identity. If the pass returns, they are those of the driver that it makes: the number of generators,
then for each of them how it failed or which of its stages did, then each output that was not merged
into the snapshot, and the counts of the outputs and of the failures among its results. A generator
that failed has nothing but its error in them. If the pass is cancelled, they are the beginning of
such a sequence, which ends before the generator that cancelled. -/
theorem fullPass_events (driver : Driver S σ) (snapshot : Snapshot S) (session : Session σ)
    {inputs : List AdditionalInput} (hsink : driver.sink = .recording)
    (hneeded : driver.isUpToDate snapshot = false)
    (hinputs : Edit.commitAll driver.pendingEdits driver.additionalInputs = .ok inputs) :
    let runId := "run-" ++ toString session.fresh
    let started := driver.startedIn runId { session with fresh := session.fresh + 1 }
    ∃ sent ended, ended.events = session.events ++ sent ∧ (∀ event ∈ sent, event.runId = runId) ∧
      ((∃ next, driver.fullPass snapshot session = .ok next ended ∧
          next.generators = driver.generators ∧
          next.assembled.map (·.content) =
            some (driver.host.mergeAll snapshot.content next.namedOutputs) ∧
          sent = next.passEvents runId snapshot.content ∧
          ∀ result ∈ next.failed,
            result.outputs = [] ∧ result.stageFaults = [] ∧ result.steps = []) ∨
        driver.fullPass snapshot session = .error (.failed .cancelled) ended ∧
          ∃ ran, driver.Interrupted runId snapshot.content inputs driver.members started ran ended ∧
            sent = [.passStarted runId driver.generators.length] ++
              ran.flatMap (Member.events runId) ∧
            (∀ outputs failed, .passCompleted runId outputs failed ∉ sent) ∧
            ∃ other : Driver S σ, other.generators = driver.generators ∧ ran <+: other.members ∧
              sent <+: other.passEvents runId snapshot.content) := by
  intro runId started
  have hx := driver.fullPass_eq_executePass hneeded session
  rcases driver.executePass_tells runId snapshot { session with fresh := session.fresh + 1 } hinputs
    with ⟨next, ended, hnext, hgenerators, hassembled, hbare, hevents⟩ |
      ⟨ran, ended, hran, hinterrupted, hevents⟩
  · rw [hsink, Sink.keepAll_recording] at hevents
    refine ⟨_, ended, hevents, fun event => Driver.runId_of_mem_passEvents,
      .inl ⟨next, hx.trans hnext, hgenerators, hassembled, rfl, fun result hr => ?_⟩⟩
    obtain ⟨hresult, herror⟩ := List.mem_filter.mp hr
    obtain ⟨member, hm, rfl⟩ := List.mem_map.mp hresult
    exact hbare member hm herror
  · rw [hsink, Sink.keepAll_recording] at hevents
    -- another driver whose members begin with those that ran: what it tells begins in the same way
    obtain ⟨asked, back, hgenerators⟩ := hinterrupted.generators_eq
    let other : Driver S σ := { driver with members := ran ++ asked :: back }
    have hcount : other.generators.length = driver.generators.length :=
      congrArg List.length hgenerators
    have hbegins := other.prefix_passEvents runId snapshot.content ran (asked :: back) rfl
    rw [hcount] at hbegins
    refine ⟨_, ended, hevents, fun event hm => ?_, .inr ⟨hx.trans hran, ran, hinterrupted, rfl, ?_,
      other, hgenerators, List.prefix_append .., hbegins⟩⟩
    · exact Driver.runId_of_mem_passEvents (hbegins.subset hm)
    · intro outputs failed hm
      obtain ⟨member, -, hevent⟩ := List.mem_flatMap.mp ((List.mem_cons.mp hm).resolve_left (by simp))
      exact absurd (Member.events_fail hevent).2 Bool.false_ne_true

/-! Generators that fail in each way, and one that cancels. -/

namespace Failing

def undeclared : Generator (List String) Unit where
  identity := 0
  name := "undeclared"
  declare := .panic (.text "no pipeline")

def unexecuted : Generator (List String) Unit where
  identity := 1
  name := "unexecuted"
  declare := .done ()
  execute _ := .fail (.serialization "no text")

/-- A generator whose stage is refused and that adds two outputs, of which the host refuses one. -/
def refused : Generator (List String) Unit where
  identity := 2
  name := "refused"
  declare :=
    .ask (.snapshotLeaf "names" fun _ => .error (.refused "not here")) fun names =>
      .ask (.registerOutput (.leaf names) .source) fun _ => .done ()
  execute _ :=
    .ask Execution.Request.seed fun _ =>
      .ask Execution.Request.collect fun _ =>
        .ask (Execution.Request.addOutput ⟨"a", "", .source⟩) fun _ =>
          .ask (Execution.Request.addOutput ⟨"broken", "", .source⟩) fun _ => .done ()

def cancelling : Generator (List String) Unit where
  identity := 3
  name := "cancelling"
  declare := .done ()
  execute _ := .fail .cancelled

def driver (generators : List (Generator (List String) Unit)) : Driver (List String) Unit :=
  ((Driver.new OnceEach.host).withSink .recording).addGenerators generators

def session : Session Unit :=
  ⟨⟨false, ()⟩, 0, []⟩

/-- What is told of a generator that is not declared, one that is not executed, and one of whose
outputs the host refuses. -/
def completed : List EngineEvent :=
  [.passStarted "run-0" 3,
    .generatorInitializationFailed "run-0" "undeclared"
      "Generator 'undeclared' failed to initialize: panicked: no pipeline",
    .generatorExecutionFailed "run-0" "unexecuted"
      "Generator 'unexecuted' failed during execution: Serialization error: no text",
    .stageFaulted "run-0" "refused" (some "names") "not here",
    .artifactFailed "run-0" "refused" "broken"
      "Artifact 'broken' from generator 'refused' failed: panicked",
    .passCompleted "run-0" 2 2]

/-- What is told until a generator cancels. -/
def cancelled : List EngineEvent :=
  [.passStarted "run-0" 3,
    .generatorExecutionFailed "run-0" "unexecuted"
      "Generator 'unexecuted' failed during execution: Serialization error: no text"]

end Failing

open Failing in
/-- A pass over generators that fail in each way tells so; one that is cancelled has told the
beginning. -/
theorem fullPass_events_failing :
    (∃ next ended, (driver [undeclared, unexecuted, refused]).fullPass ⟨0, []⟩ session =
        .ok next ended ∧
      next.passEvents "run-0" [] = completed ∧ ended.events = completed) ∧
    ∃ ended, (driver [unexecuted, cancelling, refused]).fullPass ⟨0, []⟩ session =
        .error (.failed .cancelled) ended ∧ ended.events = cancelled := by
  have hcompleted : (((driver [undeclared, unexecuted, refused]).fullPass ⟨0, []⟩).after
      session).events = completed := by decide +kernel
  have hcancelled : (((driver [unexecuted, cancelling, refused]).fullPass ⟨0, []⟩).after
      session).events = cancelled := by decide +kernel
  constructor
  · have hreturns : (((driver [undeclared, unexecuted, refused]).fullPass ⟨0, []⟩).result
        session).isOk = true := by decide +kernel
    obtain ⟨sent, ended, hevents, -, ⟨next, hx, -, -, hsent, -⟩ | ⟨hx, -⟩⟩ :=
      fullPass_events (driver [undeclared, unexecuted, refused]) ⟨0, []⟩ session rfl rfl rfl
    · rw [Act.after_of_ending (r := .ok next) hx] at hcompleted
      exact ⟨next, ended, hx, hsent.symm.trans (hevents.symm.trans hcompleted), hcompleted⟩
    · rw [Act.result_of_ending (r := .error _) hx] at hreturns
      cases hreturns
  · have hstops : (((driver [unexecuted, cancelling, refused]).fullPass ⟨0, []⟩).result
        session).isOk = false := by decide +kernel
    obtain ⟨sent, ended, hevents, -, ⟨next, hx, -⟩ | ⟨hx, -⟩⟩ :=
      fullPass_events (driver [unexecuted, cancelling, refused]) ⟨0, []⟩ session rfl rfl rfl
    · rw [Act.result_of_ending (r := .ok next) hx] at hstops
      cases hstops
    · rw [Act.after_of_ending (r := .error _) hx] at hcancelled
      exact ⟨ended, hx, hcancelled⟩

end Regen
