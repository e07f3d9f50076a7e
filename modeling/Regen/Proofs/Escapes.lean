import Regen.Proofs.EditQueue
import Regen.Proofs.FreshDriver

/-!
# What escapes from the operations of a driver

A full pass and an application of edits call plug-ins, edits and the host. What these do wrong is
recorded and reported, and the operation goes on, with two exceptions: where an edit is asked
whether a pipeline accepts it, and where it is committed, its panic ends the operation. A full pass
ends besides where a generator ends its execution with a request to cancel, and in no other way. An
edit whose commit panics stays in the queue whatever is done, so that no later pass returns.
-/

namespace Regen

variable {S σ : Type}

section

variable {P : Stop → Session σ → Prop}

theorem Session.stopsOnly_newRunId : (Session.newRunId : Act (Session σ) String).StopsOnly P :=
  Act.stopsOnly_of_ok fun session => ⟨_, _, newRunId_apply session⟩

theorem Session.stopsOnly_emit (sink : Sink) (event : EngineEvent) :
    (Session.emit sink event : Act (Session σ) Unit).StopsOnly P :=
  Act.stopsOnly_of_ok fun session =>
    let ⟨events, h⟩ := emit_apply sink event session
    ⟨(), { session with events }, h⟩

/-- To report and return is what most parts of an operation end with. -/
theorem Session.stopsOnly_emit_pure {α : Type} (sink : Sink) (event : EngineEvent) (a : α) :
    (Session.emit sink event >>= fun _ => pure a : Act (Session σ) α).StopsOnly P :=
  (stopsOnly_emit sink event).bind fun _ _ _ _ => Act.stopsOnly_pure a

theorem Session.stopsOnly_emitAll (sink : Sink) (events : List EngineEvent) :
    (Session.emitAll sink events : Act (Session σ) Unit).StopsOnly P :=
  Act.stopsOnly_of_ok fun session =>
    let ⟨events, h⟩ := emitAll_apply sink events session
    ⟨(), { session with events }, h⟩

/-- Whatever the host does, assembling goes on. -/
theorem Driver.stopsOnly_assembleMembers (driver : Driver S σ) (runId : String)
    (snapshot : Snapshot S) (members : List (Member S σ)) :
    (driver.assembleMembers runId snapshot members).StopsOnly P :=
  Act.stopsOnly_of_ok fun session =>
    let ⟨assembled, ended, h, _⟩ := driver.host.assemble_apply driver.sink runId
      (members.flatMap Member.namedOutputs) snapshot session
    ⟨assembled, ended, h⟩

/-- However a generator declares its pipeline, the pass goes on. -/
theorem Driver.stopsOnly_pipelineOf (member : Member S σ) : (pipelineOf member).StopsOnly P := by
  unfold pipelineOf
  cases member.state.pipeline with
  | some pipeline => exact Act.stopsOnly_pure _
  | none =>
    refine Act.stopsOnly_get.bind fun _ session _ _ => ?_
    dsimp only
    split
    · exact (Act.stopsOnly_set _).bind fun _ _ _ _ => Act.stopsOnly_pure _
    · exact (Act.stopsOnly_set _).bind fun _ _ _ _ => Act.stopsOnly_pure _

/-- Whatever a handler does, the application of the edit returns. -/
theorem Edit.stopsOnly_applyTo (edit : Edit σ) (shape : PipelineShape σ) (context : EditContext)
    (outputs : List GeneratedOutput) : (edit.applyTo shape context outputs).StopsOnly P := by
  refine Act.stopsOnly_get.bind fun _ session _ _ => ?_
  split
  · exact (Act.stopsOnly_set _).bind fun _ _ _ _ => Act.stopsOnly_pure _
  · exact (Act.stopsOnly_set _).bind fun _ _ _ _ => Act.stopsOnly_pure _

end

namespace Edit

/-- The edit panics when it is asked whether the pipeline of the member accepts it. -/
def PanicsOn (edit : Edit σ) (member : Member S σ) (panic : Panic) : Prop :=
  ∃ pipeline, member.state.pipeline = some pipeline ∧
    edit.acceptedBy pipeline.shape = .error panic

/-- Whatever the additional inputs are, the edit panics when it is committed to them. -/
def NeverCommits (edit : Edit σ) : Prop :=
  ∀ inputs, ∃ panic, edit.commit inputs = .error panic

/-- What an application of some edits to some members stops with. -/
def AcceptanceStops (edits : List (Edit σ)) (members : List (Member S σ)) : Stop → Prop
  | .panicked panic => ∃ edit ∈ edits, ∃ member ∈ members, edit.PanicsOn member panic
  | .failed _ => False

variable {edit : Edit σ} {edits others : List (Edit σ)} {inputs : List AdditionalInput}
  {member : Member S σ} {members made : List (Member S σ)} {why : Stop}

theorem PanicsOn.of_edited {made : Member S σ} {panic : Panic} (h : edit.PanicsOn made panic)
    (he : member.Edited made) : edit.PanicsOn member panic := by
  obtain ⟨outputs, rfl⟩ := he
  exact h

/-- More edits and more members give more to stop with. -/
theorem AcceptanceStops.mono (h : AcceptanceStops edits members why)
    (hedits : ∀ edit ∈ edits, edit ∈ others) (hmembers : ∀ member ∈ members, member ∈ made) :
    AcceptanceStops others made why := by
  cases why with
  | failed error => exact h
  | panicked panic =>
    obtain ⟨edit, hedit, member, hmember, hpanics⟩ := h
    exact ⟨edit, hedits edit hedit, member, hmembers member hmember, hpanics⟩

/-- Edits of the outputs make no difference to what is stopped with. -/
theorem AcceptanceStops.of_edited (h : AcceptanceStops edits made why)
    (he : List.Forall₂ Member.Edited members made) : AcceptanceStops edits members why := by
  cases why with
  | failed error => exact h
  | panicked panic =>
    obtain ⟨edit, hedit, changed, hchanged, hpanics⟩ := h
    obtain ⟨index, hlt, rfl⟩ := List.getElem_of_mem hchanged
    have hlen : index < members.length := he.length_eq ▸ hlt
    exact ⟨edit, hedit, members[index], List.getElem_mem hlen,
      hpanics.of_edited (he.get hlen hlt)⟩

theorem applyToMember_stopsOnly (edit : Edit σ) (inputs : List AdditionalInput)
    (member : Member S σ) : (edit.applyToMember inputs member).StopsOnly
      fun why _ => AcceptanceStops [edit] [member] why := by
  unfold applyToMember
  cases hp : member.state.pipeline with
  | none => exact Act.stopsOnly_pure _
  | some pipeline =>
    refine (Act.stopsOnly_ofPanic fun panic _ hpanics => ?_).bind fun _ accepted _ _ => ?_
    · exact ⟨edit, List.mem_singleton_self edit, member, List.mem_singleton_self member, pipeline,
        hp, hpanics⟩
    · cases accepted with
      | false => exact Act.stopsOnly_pure _
      | true =>
        refine (edit.stopsOnly_applyTo _ _ _).bind fun _ applied _ _ => ?_
        cases applied <;> exact Act.stopsOnly_pure _

theorem applyToMembers_stopsOnly (edit : Edit σ) (inputs : List AdditionalInput)
    (members : List (Member S σ)) : (edit.applyToMembers inputs members).StopsOnly
      fun why _ => AcceptanceStops [edit] members why := by
  induction members with
  | nil => exact Act.stopsOnly_pure _
  | cons member rest ih =>
    have hfirst : (edit.applyToMember inputs member).StopsOnly fun why _ =>
        AcceptanceStops [edit] (member :: rest) why :=
      (edit.applyToMember_stopsOnly inputs member).mono fun why _ h =>
        h.mono (fun _ hm => hm) (by simp)
    refine hfirst.bind fun _ applied _ _ => ?_
    cases applied with
    | error rejection => exact Act.stopsOnly_pure _
    | ok made =>
      have hrest : (edit.applyToMembers inputs rest).StopsOnly fun why _ =>
          AcceptanceStops [edit] (member :: rest) why :=
        ih.mono fun why _ h =>
          h.mono (fun _ hm => hm) fun other hm => List.mem_cons_of_mem member hm
      refine hrest.bind fun _ others _ _ => ?_
      cases others <;> exact Act.stopsOnly_pure _

/-- Applying a queue stops only where one of its edits panics about the pipeline of a member, as it
was before the queue was applied. -/
theorem applyAll_stopsOnly (inputs : List AdditionalInput) (edits : List (Edit σ))
    (members : List (Member S σ)) : (applyAll inputs edits members).StopsOnly
      fun why _ => AcceptanceStops edits members why := by
  induction edits generalizing members with
  | nil => exact Act.stopsOnly_pure _
  | cons edit rest ih =>
    have hfirst : (edit.applyToMembers inputs members).StopsOnly fun why _ =>
        AcceptanceStops (edit :: rest) members why :=
      (edit.applyToMembers_stopsOnly inputs members).mono fun why _ h =>
        h.mono (by simp) fun _ hm => hm
    refine hfirst.bind fun _ applied _ hx => ?_
    cases applied with
    | error rejection => exact Act.stopsOnly_pure _
    | ok made =>
      exact (ih made).mono fun why _ h =>
        (h.of_edited (applyToMembers_edited members made hx)).mono
          (fun other hm => List.mem_cons_of_mem edit hm) fun _ hm => hm

/-- A queue with an edit that never commits is not committed. -/
theorem NeverCommits.commitAll (h : edit.NeverCommits) (hm : edit ∈ edits)
    (inputs : List AdditionalInput) : ∃ panic, commitAll edits inputs = .error panic := by
  induction edits generalizing inputs with
  | nil => cases hm
  | cons first rest ih =>
    unfold Edit.commitAll
    cases hfirst : first.commit inputs with
    | error panic => exact ⟨panic, rfl⟩
    | ok committed =>
      rcases List.mem_cons.mp hm with rfl | hrest
      · obtain ⟨panic, hpanics⟩ := h inputs
        rw [hfirst] at hpanics
        cases hpanics
      · exact ih hrest committed

end Edit

/-- The member declares or has a pipeline, and in a pass that starts there its execution ends with a
request to cancel. -/
def Member.Cancels (member : Member S σ) (options : DriverOptions) (snapshot : S)
    (inputs : List AdditionalInput) (session : Session σ) : Prop :=
  let briefing : Briefing S := ⟨member.generator.name, snapshot, inputs⟩
  ∃ pipeline declared ended, Driver.pipelineOf member session = .ok (.ok pipeline) declared ∧
    (member.generator.execute briefing).run (Execution.answer pipeline options briefing)
      (.start ⟨.start member.state.tables options.trackIncrementalSteps, declared.ambient⟩) =
        .error (.failed .cancelled) ended

/-- An execution stops only with a request to cancel. -/
theorem Generator.executePipeline_stops {generator : Generator S σ} {pipeline : Pipeline S σ}
    {tables : PassTables} {options : DriverOptions} {briefing : Briefing S}
    {session ended : Session σ} {why : Stop}
    (h : generator.executePipeline pipeline tables options briefing session = .error why ended) :
    why = .failed .cancelled ∧ ∃ last,
      (generator.execute briefing).run (Execution.answer pipeline options briefing)
        (.start ⟨.start tables options.trackIncrementalSteps, session.ambient⟩) =
          .error (.failed .cancelled) last := by
  generalize hrun : (generator.execute briefing).run (Execution.answer pipeline options briefing)
    (.start ⟨.start tables options.trackIncrementalSteps, session.ambient⟩) = result
  rw [generator.executePipeline_of_run hrun] at h
  cases result with
  | ok _ last => cases h
  | error reason last =>
    dsimp only at h
    by_cases hc : reason = .failed .cancelled
    · rw [if_pos hc] at h
      cases h
      exact ⟨rfl, last, by rw [hc]⟩
    · rw [if_neg hc] at h
      cases h

namespace Driver

/-- The queued edits panic when they are committed. -/
def CommitPanics (driver : Driver S σ) (panic : Panic) : Prop :=
  Edit.commitAll driver.pendingEdits driver.additionalInputs = .error panic

/-- What a full pass over a snapshot stops with: the panic of a commit, or a request to cancel that
a generator ended its execution with, over the committed inputs. -/
def PassStops (driver : Driver S σ) (snapshot : S) : Stop → Prop
  | .panicked panic => driver.CommitPanics panic
  | .failed error => error = .cancelled ∧ ∃ inputs,
      Edit.commitAll driver.pendingEdits driver.additionalInputs = .ok inputs ∧
      ∃ member ∈ driver.members, ∃ session, member.Cancels driver.options snapshot inputs session

/-- What an application of edits stops with: the panic of an edit about the pipeline of a member, or
of a commit. -/
def ApplicationStops (driver : Driver S σ) (why : Stop) : Prop :=
  Edit.AcceptanceStops driver.pendingEdits driver.members why ∨
    ∃ panic, why = .panicked panic ∧ driver.CommitPanics panic

variable {driver : Driver S σ} {snapshot : Snapshot S} {session : Session σ} {edit : Edit σ}

/-- One generator ends a pass only by a request to cancel. -/
theorem runMember_stopsOnly (driver : Driver S σ) (runId : String) (snapshot : S)
    (inputs : List AdditionalInput) (member : Member S σ) :
    (driver.runMember runId snapshot inputs member).StopsOnly fun why _ =>
      why = .failed .cancelled ∧
        ∃ session, member.Cancels driver.options snapshot inputs session := by
  intro session why ended h
  rcases Act.bind_eq_ending (r := .error why) h with ⟨_, -, hp⟩ | ⟨declaration, declared, hp, h⟩
  · exact absurd hp (stopsOnly_pipelineOf member).not_error
  cases declaration with
  | error fault =>
    exact absurd h (Session.stopsOnly_emit_pure _ _ _).not_error
  | ok pipeline =>
    rcases Act.bind_eq_ending (r := .error why) h with ⟨_, hwhy, hx⟩ | ⟨ending, executed, -, h⟩
    · cases hwhy
      obtain ⟨rfl, last, hrun⟩ := Generator.executePipeline_stops hx
      exact ⟨rfl, session, pipeline, declared, last, hp, hrun⟩
    · cases ending with
      | completed execution =>
        exact absurd h
          ((Session.stopsOnly_emitAll _ _).bind fun _ _ _ _ => Act.stopsOnly_pure _).not_error
      | failed fault =>
        exact absurd h (Session.stopsOnly_emit_pure _ _ _).not_error

theorem runMembers_stopsOnly (driver : Driver S σ) (runId : String) (snapshot : S)
    (inputs : List AdditionalInput) (members : List (Member S σ)) :
    (driver.runMembers runId snapshot inputs members).StopsOnly fun why _ =>
      why = .failed .cancelled ∧ ∃ member ∈ members, ∃ session,
        member.Cancels driver.options snapshot inputs session := by
  induction members with
  | nil => exact Act.stopsOnly_pure _
  | cons member rest ih =>
    refine ((driver.runMember_stopsOnly runId snapshot inputs member).mono ?_).bind fun _ _ _ _ =>
      (ih.mono ?_).bind fun _ _ _ _ => Act.stopsOnly_pure _
    · exact fun why _ ⟨hwhy, hc⟩ => ⟨hwhy, member, List.mem_cons_self, hc⟩
    · exact fun why _ ⟨hwhy, other, hm, hc⟩ => ⟨hwhy, other, List.mem_cons_of_mem member hm, hc⟩

theorem executePass_stopsOnly (driver : Driver S σ) (runId : String) (snapshot : Snapshot S) :
    (driver.executePass runId snapshot).StopsOnly
      fun why _ => driver.PassStops snapshot.content why := by
  unfold executePass
  refine (Session.stopsOnly_emit _ _).bind fun _ _ _ _ => ?_
  refine (Act.stopsOnly_ofPanic fun panic _ h => h).bind fun _ inputs _ hcommit => ?_
  refine ((driver.runMembers_stopsOnly runId snapshot.content inputs driver.members).mono ?_).bind
    fun _ _ _ _ => (driver.stopsOnly_assembleMembers _ _ _).bind fun _ _ _ _ =>
      Session.stopsOnly_emit_pure _ _ _
  rintro why _ ⟨rfl, hc⟩
  exact ⟨rfl, inputs, (Act.ofPanic_eq_ok hcommit).1, hc⟩

theorem fullPass_stopsOnly (driver : Driver S σ) (snapshot : Snapshot S) :
    (driver.fullPass snapshot).StopsOnly fun why _ => driver.PassStops snapshot.content why := by
  refine Session.stopsOnly_newRunId.bind fun _ runId _ _ => ?_
  split
  · exact Session.stopsOnly_emit_pure _ _ _
  · exact driver.executePass_stopsOnly runId snapshot

theorem applyQueue_stopsOnly (driver : Driver S σ) (runId : String) (snapshot : Snapshot S) :
    (driver.applyQueue runId snapshot).StopsOnly fun why _ => driver.ApplicationStops why := by
  refine ((Edit.applyAll_stopsOnly driver.additionalInputs driver.pendingEdits
    driver.members).mono fun _ _ h => .inl h).bind fun _ applied _ _ => ?_
  cases applied with
  | error rejection =>
    exact Session.stopsOnly_emit_pure _ _ _
  | ok members =>
    refine (Act.stopsOnly_ofPanic fun panic _ h => .inr ⟨panic, rfl, h⟩).bind fun _ _ _ _ => ?_
    refine (driver.stopsOnly_assembleMembers _ _ _).bind fun _ _ _ _ => ?_
    exact Session.stopsOnly_emit_pure _ _ _

theorem tryApplyEdits_stopsOnly (driver : Driver S σ) (snapshot : Snapshot S) :
    (driver.tryApplyEdits snapshot).StopsOnly fun why _ => driver.ApplicationStops why := by
  refine Session.stopsOnly_newRunId.bind fun _ runId _ _ => ?_
  split
  · exact Act.stopsOnly_pure _
  · split
    · exact Act.stopsOnly_pure _
    · exact driver.applyQueue_stopsOnly runId snapshot

/-- The panic of a commit goes through every full pass: where edits are pending, the pass is
needed. -/
theorem CommitPanics.fullPass {panic : Panic} (h : driver.CommitPanics panic)
    (hquiet : driver.Quiet) (snapshot : Snapshot S) (session : Session σ) :
    ∃ ended, driver.fullPass snapshot session = .error (.panicked panic) ended := by
  have hneeded : driver.isUpToDate snapshot = false := by
    rw [Bool.eq_false_iff]
    intro hup
    unfold CommitPanics at h
    rw [(hquiet.of_isUpToDate hup).1] at h
    cases h
  obtain ⟨events, hstarted⟩ := Session.emit_apply driver.sink
    (.passStarted ("run-" ++ toString session.fresh) driver.members.length)
    { session with fresh := session.fresh + 1 }
  refine ⟨{ session with fresh := session.fresh + 1, events }, ?_⟩
  rw [driver.fullPass_eq_executePass hneeded]
  refine (Act.bind_ok hstarted).trans (Act.bind_error ?_)
  rw [show Edit.commitAll driver.pendingEdits driver.additionalInputs = .error panic from h]
  rfl

/-- No operation takes an edit that never commits out of the queue. -/
theorem mem_pendingEdits_perform (hedit : edit.NeverCommits) (hm : edit ∈ driver.pendingEdits)
    (op : DriverOp S σ) : edit ∈ (op.perform driver).pendingEdits := by
  cases hc : op.consumes driver with
  | true =>
    obtain ⟨panic, hpanics⟩ := hedit.commitAll hm driver.additionalInputs
    rw [(DriverOp.perform_of_consumes hc).1] at hpanics
    cases hpanics
  | false =>
    rw [(DriverOp.perform_of_not_consumes hc).1]
    exact List.mem_append_left _ hm

end Driver

/-- A full pass of a driver returns, except that it ends with the panic of a commit, and does where
the queued edits panic when they are committed, or with a request to cancel that some generator
ended its execution with. An application of edits returns, except that it ends with the panic of a
commit or of an edit that was asked whether a pipeline accepts it. Nothing else that plug-ins, edits
or the host do ends one of the two. But an edit that never commits stays in the queue whatever is
done next, and every later full pass ends with a panic. -/
theorem operations_stop_only (host : Host S) (ops : List (DriverOp S σ)) (snapshot : Snapshot S)
    (session : Session σ) :
    let driver := Driver.reached host ops
    (∀ why ended, driver.fullPass snapshot session = .error why ended →
      driver.PassStops snapshot.content why) ∧
    (∀ panic, driver.CommitPanics panic →
      ∃ ended, driver.fullPass snapshot session = .error (.panicked panic) ended) ∧
    (∀ why ended, driver.tryApplyEdits snapshot session = .error why ended →
      driver.ApplicationStops why) ∧
    ∀ edit ∈ driver.pendingEdits, edit.NeverCommits → ∀ later : List (DriverOp S σ),
      let last := later.foldl DriverOp.perform driver
      edit ∈ last.pendingEdits ∧ ∀ snapshot session, ∃ panic ended,
        last.fullPass snapshot session = .error (.panicked panic) ended := by
  intro driver
  have hquiet : driver.Quiet := Driver.quiet_reached host ops
  refine ⟨driver.fullPass_stopsOnly snapshot session,
    fun panic h => h.fullPass hquiet snapshot session,
    driver.tryApplyEdits_stopsOnly snapshot session, fun edit hm hedit later => ?_⟩
  -- what never commits stays in the queue, and the driver stays quiet, operation by operation
  obtain ⟨hlast, hstays⟩ := Driver.perform_induction
    (P := fun driver => driver.Quiet ∧ edit ∈ driver.pendingEdits) later
    (fun op _ _ h => ⟨h.1.perform op, Driver.mem_pendingEdits_perform hedit h.2 op⟩) ⟨hquiet, hm⟩
  refine ⟨hstays, fun snapshot session => ?_⟩
  obtain ⟨panic, hpanics⟩ := hedit.commitAll hstays _
  exact ⟨panic, Driver.CommitPanics.fullPass hpanics hlast snapshot session⟩

namespace Notes

/-- An edit that every generator notes, and that panics when it is committed. -/
def uncommitted : Edit Unit :=
  { note "b" none with commit := fun _ => .error (.text "commit exploded") }

/-- An edit that panics when it is asked whether a pipeline accepts it. -/
def unasked : Edit Unit :=
  { note "c" none with acceptedBy := fun _ => .error .other }

/-- A plug-in after its first pass, and an edit that is queued. -/
def queued (edit : Edit Unit) : List (DriverOp Unit Unit) :=
  [.addGenerators [plugIn 0 "first"], .fullPass (session false) snapshot, .queueEdits [edit]]

end Notes

open Notes in
/-- The edit whose commit panics stays in the queue when it was to be applied, when another one is
queued and through a full pass, and the next full pass panics. -/
theorem operations_stop_only_uncommitted :
    let later := [.tryApplyEdits (session false) snapshot, .queueEdits [note "d" none],
      .fullPass (session false) snapshot]
    let last := later.foldl DriverOp.perform (Driver.reached host (queued uncommitted))
    uncommitted ∈ last.pendingEdits ∧ ∃ panic ended,
      last.fullPass snapshot (session false) = .error (.panicked panic) ended := by
  intro later last
  obtain ⟨-, -, -, hstuck⟩ :=
    operations_stop_only host (queued uncommitted) snapshot (session false)
  have hpending : uncommitted ∈ (Driver.reached host (queued uncommitted)).pendingEdits :=
    List.mem_singleton_self uncommitted
  obtain ⟨hstays, hpanics⟩ :=
    hstuck uncommitted hpending (fun _ => ⟨.text "commit exploded", rfl⟩) later
  exact ⟨hstays, hpanics snapshot (session false)⟩

open Notes in
/-- Panics of an edit escape: that of a commit from a full pass and from an application of edits,
and that of an edit which is asked whether a pipeline accepts it from an application of edits. -/
theorem edit_panics_escape :
    (∃ ended, (Driver.reached host (queued uncommitted)).fullPass snapshot (session false) =
      .error (.panicked (.text "commit exploded")) ended) ∧
    (∃ ended, (Driver.reached host (queued uncommitted)).tryApplyEdits snapshot (session false) =
      .error (.panicked (.text "commit exploded")) ended) ∧
    ∃ ended, (Driver.reached host (queued unasked)).tryApplyEdits snapshot (session false) =
      .error (.panicked .other) ended :=
  ⟨⟨_, rfl⟩, ⟨_, rfl⟩, ⟨_, rfl⟩⟩

end Regen
