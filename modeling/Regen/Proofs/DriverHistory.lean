import Mathlib.Data.List.Forall2
import Regen.Driver.Changes
import Regen.Driver.Edits
import Regen.Driver.FullPass
import Regen.Proofs.Act

/-!
# Histories of a driver

A history is a list of operations, each in a session of its own. A full pass that fails and an
operation from which a panic escapes leave the driver as it was. Here is everything that a full
pass and an application of edits can do to a driver when they return.
-/

namespace Regen

variable {S σ : Type}

/-- An operation on a driver, with the session that it runs in where it needs one. -/
inductive DriverOp (S σ : Type) where
  | withSink (sink : Sink)
  | addGenerators (generators : List (Generator S σ))
  | removeGenerators (generators : List (Generator S σ))
  | replaceGenerators (generators : List (Generator S σ))
  | addInputs (inputs : List AdditionalInput)
  | removeInputs (inputs : List AdditionalInput)
  | replaceInput (old new : AdditionalInput)
  | queueEdits (edits : List (Edit σ))
  | withOptions (options : DriverOptions)
  | fullPass (session : Session σ) (snapshot : Snapshot S)
  | tryApplyEdits (session : Session σ) (snapshot : Snapshot S)

/-- The driver after an operation. -/
def DriverOp.perform (driver : Driver S σ) : DriverOp S σ → Driver S σ
  | .withSink sink => driver.withSink sink
  | .addGenerators generators => driver.addGenerators generators
  | .removeGenerators generators => driver.removeGenerators generators
  | .replaceGenerators generators => driver.replaceGenerators generators
  | .addInputs inputs => driver.addInputs inputs
  | .removeInputs inputs => driver.removeInputs inputs
  | .replaceInput old new => driver.replaceInput old new
  | .queueEdits edits => driver.queueEdits edits
  | .withOptions options => driver.withOptions options
  | .fullPass session snapshot =>
    match driver.fullPass snapshot session with
    | .ok next _ => next
    | .error _ _ => driver
  | .tryApplyEdits session snapshot =>
    match driver.tryApplyEdits snapshot session with
    | .ok application _ => application.driver
    | .error _ _ => driver

namespace Driver

/-- The generators of a driver in order. -/
def generators (driver : Driver S σ) : List (Generator S σ) :=
  driver.members.map (·.generator)

/-- The driver after a history of operations on a new one. -/
def reached (host : Host S) (ops : List (DriverOp S σ)) : Driver S σ :=
  ops.foldl DriverOp.perform (.new host)

/-- What every operation of a history keeps holds after the history. -/
theorem perform_induction {P : Driver S σ → Prop} (ops : List (DriverOp S σ))
    (hop : ∀ op ∈ ops, ∀ driver, P driver → P (op.perform driver)) {driver : Driver S σ}
    (h : P driver) : P (ops.foldl DriverOp.perform driver) := by
  induction ops generalizing driver with
  | nil => exact h
  | cons op rest ih =>
    exact ih (fun other hm => hop other (List.mem_cons_of_mem _ hm))
      (hop op List.mem_cons_self driver h)

theorem reached_induction {P : Driver S σ → Prop} (host : Host S) (ops : List (DriverOp S σ))
    (hnew : P (.new host)) (hop : ∀ op ∈ ops, ∀ driver, P driver → P (op.perform driver)) :
    P (reached host ops) :=
  perform_induction ops hop hnew

/-- A generator keeps the state of a member with its identity or joins. -/
theorem keepOrJoin_cases (driver : Driver S σ) (generator : Generator S σ) :
    (∃ member ∈ driver.members, member.generator.identity = generator.identity ∧
        driver.keepOrJoin generator = ⟨generator, member.state⟩) ∨
      driver.keepOrJoin generator = .join generator := by
  unfold keepOrJoin
  cases hf : driver.members.find? (·.generator.identity == generator.identity) with
  | none => exact .inr rfl
  | some member =>
    exact .inl ⟨member, List.mem_of_find?_eq_some hf, by simpa using List.find?_some hf, rfl⟩

/-- A full pass ran the generators of a driver and made the next one. -/
def Executed (driver : Driver S σ) (session : Session σ) (snapshot : Snapshot S)
    (next : Driver S σ) : Prop :=
  ∃ runId inputs members assembled first second third fourth,
    Edit.commitAll driver.pendingEdits driver.additionalInputs = .ok inputs ∧
    first.ambient = session.ambient ∧
    driver.runMembers runId snapshot.content inputs driver.members first = .ok members second ∧
    driver.assembleMembers runId snapshot members third = .ok assembled fourth ∧
    next = { driver with
      members
      additionalInputs := inputs
      pendingEdits := []
      editsFailed := false
      snapshot := some snapshot
      assembled := some assembled }

/-- The queued edits of a driver were applied and made the next one. -/
def Applied (driver : Driver S σ) (snapshot : Snapshot S) (next : Driver S σ) : Prop :=
  driver.editsFailed = false ∧ ∃ runId inputs members assembled first second third,
    Edit.applyAll driver.additionalInputs driver.pendingEdits driver.members first =
      .ok (.ok members) second ∧
    Edit.commitAll driver.pendingEdits driver.additionalInputs = .ok inputs ∧
    driver.assembleMembers runId snapshot members second = .ok assembled third ∧
    next = { driver with
      members
      additionalInputs := inputs
      pendingEdits := []
      snapshot := some snapshot
      assembled := some assembled }

end Driver

/-- The member with other outputs. -/
def Member.Edited (member made : Member S σ) : Prop :=
  ∃ outputs, made = { member with state := { member.state with outputs } }

theorem Session.newRunId_apply (session : Session σ) : Session.newRunId session =
    .ok ("run-" ++ toString session.fresh) { session with fresh := session.fresh + 1 } :=
  rfl

theorem Session.emit_apply (sink : Sink) (event : EngineEvent) (session : Session σ) :
    ∃ events, Session.emit sink event session = .ok () { session with events } :=
  ⟨_, rfl⟩

namespace Edit

variable {session ended : Session σ} {inputs : List AdditionalInput}

/-- An edit changes at most the outputs of a member. -/
theorem applyToMember_edited {edit : Edit σ} {member made : Member S σ}
    (h : edit.applyToMember inputs member session = .ok (.ok made) ended) :
    member.Edited made := by
  unfold applyToMember at h
  cases hp : member.state.pipeline with
  | none =>
    rw [hp] at h
    cases h
    exact ⟨member.state.outputs, rfl⟩
  | some pipeline =>
    rw [hp] at h
    obtain ⟨accepted, middle, -, h⟩ := Act.bind_eq_ok h
    cases accepted with
    | false =>
      cases h
      exact ⟨member.state.outputs, rfl⟩
    | true =>
      obtain ⟨r, last, -, h⟩ := Act.bind_eq_ok h
      cases r with
      | ok outputs =>
        cases h
        exact ⟨outputs, rfl⟩
      | error error => cases h

/-- An accepted edit is applied to the outputs of the member. -/
theorem applyToMember_accepted {edit : Edit σ} {member : Member S σ} {pipeline : Pipeline S σ}
    {r : Except EngineError (List GeneratedOutput)} (hp : member.state.pipeline = some pipeline)
    (haccepted : edit.acceptedBy pipeline.shape = .ok true)
    (happlied : edit.applyTo pipeline.shape ⟨member.generator.name, edit.kind, inputs⟩
      member.state.outputs session = .ok r ended) :
    edit.applyToMember inputs member session = .ok (match r with
      | .ok outputs => .ok { member with state := { member.state with outputs } }
      | .error error => .error ⟨edit.kind, member.generator.name, error⟩) ended := by
  have haccepts := Act.ofPanic_ok haccepted session
  unfold applyToMember
  rw [hp]
  refine (Act.bind_ok haccepts).trans ((Act.bind_ok happlied).trans ?_)
  cases r <;> rfl

theorem applyToMembers_edited {edit : Edit σ} (members made : List (Member S σ))
    (h : edit.applyToMembers inputs members session = .ok (.ok made) ended) :
    List.Forall₂ Member.Edited members made := by
  induction members generalizing made session ended with
  | nil =>
    cases h
    exact .nil
  | cons member rest ih =>
    obtain ⟨first, middle, hfirst, h⟩ := Act.bind_eq_ok h
    cases first with
    | error rejection => cases h
    | ok edited =>
      obtain ⟨others, last, hothers, h⟩ := Act.bind_eq_ok h
      cases others with
      | error rejection => cases h
      | ok editeds =>
        cases h
        exact .cons (applyToMember_edited hfirst) (ih editeds hothers)

theorem edited_trans {members middle made : List (Member S σ)}
    (h : List.Forall₂ Member.Edited members middle) (h' : List.Forall₂ Member.Edited middle made) :
    List.Forall₂ Member.Edited members made := by
  induction h generalizing made with
  | nil => exact h'
  | cons hedit _ ih =>
    cases h' with
    | cons hedit' hrest =>
      obtain ⟨_, rfl⟩ := hedit
      obtain ⟨outputs, rfl⟩ := hedit'
      exact .cons ⟨outputs, rfl⟩ (ih hrest)

theorem edited_generators {members made : List (Member S σ)}
    (h : List.Forall₂ Member.Edited members made) :
    made.map (·.generator) = members.map (·.generator) := by
  induction h with
  | nil => rfl
  | cons hedit _ ih =>
    obtain ⟨outputs, rfl⟩ := hedit
    rw [List.map_cons, List.map_cons, ih]

/-- What edits of the outputs cannot change still holds of all members. -/
theorem forall_of_edited {P : Member S σ → Prop} {members edited : List (Member S σ)}
    (hP : ∀ member made, member.Edited made → P member → P made)
    (he : List.Forall₂ Member.Edited members edited) (h : ∀ member ∈ members, P member) :
    ∀ member ∈ edited, P member := by
  induction he with
  | nil => exact h
  | @cons member made rest others hedited _ ih =>
    rw [List.forall_mem_cons] at h ⊢
    exact ⟨hP member made hedited h.1, ih h.2⟩

/-- A queue of edits changes at most the outputs of the members. -/
theorem applyAll_edited (edits : List (Edit σ)) (members made : List (Member S σ))
    (h : applyAll inputs edits members session = .ok (.ok made) ended) :
    List.Forall₂ Member.Edited members made := by
  induction edits generalizing members session with
  | nil =>
    cases h
    exact List.forall₂_same.mpr fun member _ => ⟨member.state.outputs, rfl⟩
  | cons edit rest ih =>
    obtain ⟨r, middle, hedit, h⟩ := Act.bind_eq_ok h
    cases r with
    | error rejection => cases h
    | ok edited =>
      exact edited_trans (applyToMembers_edited _ _ hedit) (ih edited h)

end Edit

namespace Driver

variable {driver next : Driver S σ} {snapshot : Snapshot S} {session ended : Session σ}

/-- What a full pass makes of a member: its pipeline is not declared, is executed to the end, or
fails. -/
theorem runMember_ok {runId : String} {content : S} {inputs : List AdditionalInput}
    {member : Member S σ} {state : GeneratorState S σ}
    (h : driver.runMember runId content inputs member session = .ok state ended) :
    ∃ r declared, pipelineOf member session = .ok r declared ∧
      ((∃ fault, r = .error fault ∧ state = .undeclared fault) ∨
        ∃ pipeline, r = .ok pipeline ∧ ∃ ending executed,
          member.generator.executePipeline pipeline member.state.tables driver.options
            ⟨member.generator.name, content, inputs⟩ declared = .ok ending executed ∧
          ((∃ execution, ending = .completed execution ∧ state = .ofExecution pipeline execution) ∨
            ∃ fault, ending = .failed fault ∧
              state = .unexecuted pipeline member.state.tables fault)) := by
  obtain ⟨r, declared, hpipeline, h⟩ := Act.bind_eq_ok h
  refine ⟨r, declared, hpipeline, ?_⟩
  cases r with
  | error fault =>
    obtain ⟨_, _, _, h⟩ := Act.bind_eq_ok h
    cases h
    exact .inl ⟨fault, rfl, rfl⟩
  | ok pipeline =>
    obtain ⟨ending, executed, hexecuted, h⟩ := Act.bind_eq_ok h
    refine .inr ⟨pipeline, rfl, ending, executed, hexecuted, ?_⟩
    cases ending with
    | completed execution =>
      obtain ⟨_, _, _, h⟩ := Act.bind_eq_ok h
      cases h
      exact .inl ⟨execution, rfl, rfl⟩
    | failed fault =>
      obtain ⟨_, _, _, h⟩ := Act.bind_eq_ok h
      cases h
      exact .inr ⟨fault, rfl, rfl⟩

/-- A member that a pass left without an error has a pipeline. -/
theorem runMember_pipeline {runId : String} {content : S} {inputs : List AdditionalInput}
    {member : Member S σ} {state : GeneratorState S σ}
    (h : driver.runMember runId content inputs member session = .ok state ended)
    (herror : state.error = none) : state.pipeline.isSome = true := by
  obtain ⟨_, _, -, ⟨fault, -, rfl⟩ | ⟨pipeline, -, _, _, -, hstate⟩⟩ := runMember_ok h
  · cases herror
  · rcases hstate with ⟨execution, -, rfl⟩ | ⟨fault, -, rfl⟩ <;> rfl

/-- What a full pass makes of each member, it makes of all of them. -/
theorem runMembers_forall {P Q : Member S σ → Prop} {runId : String} {content : S}
    {inputs : List AdditionalInput}
    (hstep : ∀ {member state} {session ended : Session σ},
      driver.runMember runId content inputs member session = .ok state ended → P member →
        Q { member with state })
    (members made : List (Member S σ)) (hm : ∀ member ∈ members, P member)
    (hran : driver.runMembers runId content inputs members session = .ok made ended) :
    ∀ member ∈ made, Q member := by
  induction members generalizing made session with
  | nil =>
    cases hran
    exact fun _ hmem => by cases hmem
  | cons member rest ih =>
    obtain ⟨state, middle, hstate, hran⟩ := Act.bind_eq_ok hran
    obtain ⟨others, last, hrest, hran⟩ := Act.bind_eq_ok hran
    cases hran
    rw [List.forall_mem_cons] at hm ⊢
    exact ⟨hstep hstate hm.1, ih others hm.2 hrest⟩

/-- A full pass makes new states for the members and keeps their generators. -/
theorem runMembers_generators {runId : String} {content : S} {inputs : List AdditionalInput}
    (members made : List (Member S σ))
    (h : driver.runMembers runId content inputs members session = .ok made ended) :
    made.map (·.generator) = members.map (·.generator) := by
  induction members generalizing made session ended with
  | nil =>
    cases h
    rfl
  | cons member rest ih =>
    obtain ⟨state, middle, -, h⟩ := Act.bind_eq_ok h
    obtain ⟨others, last, hrest, h⟩ := Act.bind_eq_ok h
    cases h
    rw [List.map_cons, List.map_cons, ih others hrest]

theorem Executed.generators_eq (h : driver.Executed session snapshot next) :
    next.generators = driver.generators := by
  obtain ⟨_, _, members, _, _, _, _, _, -, -, hran, -, rfl⟩ := h
  exact runMembers_generators driver.members members hran

theorem Executed.pipeline_isSome (h : driver.Executed session snapshot next) :
    ∀ member ∈ next.members, member.state.error = none → member.state.pipeline.isSome = true := by
  obtain ⟨_, _, members, _, _, _, _, _, -, -, hran, -, rfl⟩ := h
  exact runMembers_forall (P := fun _ => True) (fun hmember _ => runMember_pipeline hmember)
    driver.members members (fun _ _ => trivial) hran

theorem Executed.allows_edits (h : driver.Executed session snapshot next) :
    next.pendingEdits = [] ∧ next.editsFailed = false := by
  obtain ⟨_, _, _, _, _, _, _, _, -, -, -, -, rfl⟩ := h
  exact ⟨rfl, rfl⟩

/-- A driver that is up to date for a snapshot holds a result over it. -/
theorem isUpToDate_iff :
    driver.isUpToDate snapshot = true ↔ ∃ last, driver.snapshot = some last ∧
      driver.assembled.isSome ∧ last.identity = snapshot.identity := by
  unfold isUpToDate
  cases driver.snapshot <;> cases driver.assembled <;> simp

theorem isUpToDate_of_cleared (h : driver.assembled = none) (snapshot : Snapshot S) :
    driver.isUpToDate snapshot = false := by
  unfold isUpToDate
  rw [h]
  cases driver.snapshot <;> rfl

/-- A full pass that is not needed returns the driver and says so. -/
theorem fullPass_reused (h : driver.isUpToDate snapshot = true) (session : Session σ) :
    ∃ runId, driver.fullPass snapshot session = .ok driver
      { session with
        fresh := session.fresh + 1
        events := (driver.sink.deliver (.passReused runId) session.events).2 } := by
  refine ⟨"run-" ++ toString session.fresh, (Act.bind_ok (Session.newRunId_apply session)).trans ?_⟩
  rw [h, if_pos rfl]
  rfl

/-- A full pass that is needed is executed, under a new run identity. -/
theorem fullPass_eq_executePass (h : driver.isUpToDate snapshot = false) (session : Session σ) :
    driver.fullPass snapshot session =
      driver.executePass ("run-" ++ toString session.fresh) snapshot
        { session with fresh := session.fresh + 1 } := by
  refine (Act.bind_ok (Session.newRunId_apply session)).trans ?_
  rw [h, if_neg Bool.false_ne_true]

/-- Where edits are pending and allowed, the queue is applied. -/
theorem tryApplyEdits_eq_applyQueue (hqueue : driver.pendingEdits ≠ [])
    (hvalid : driver.editsFailed = false) (snapshot : Snapshot S) (session : Session σ) :
    driver.tryApplyEdits snapshot session =
      driver.applyQueue ("run-" ++ toString session.fresh) snapshot
        { session with fresh := session.fresh + 1 } := by
  refine (Act.bind_ok (Session.newRunId_apply session)).trans ?_
  rw [if_neg (by simpa using hqueue), if_neg (by simp [hvalid])]

/-- A full pass that returns was not needed or ran the generators. -/
theorem fullPass_ok (h : driver.fullPass snapshot session = .ok next ended) :
    driver.isUpToDate snapshot = true ∧ next = driver ∨
      driver.isUpToDate snapshot = false ∧ driver.Executed session snapshot next := by
  obtain ⟨runId, named, hnamed, h⟩ := Act.bind_eq_ok h
  have hambient : named.ambient = session.ambient := by
    cases hnamed
    rfl
  cases hup : driver.isUpToDate snapshot with
  | true =>
    rw [hup, if_pos rfl] at h
    obtain ⟨_, _, _, h⟩ := Act.bind_eq_ok h
    cases h
    exact .inl ⟨rfl, rfl⟩
  | false =>
    rw [hup, if_neg Bool.false_ne_true] at h
    refine .inr ⟨rfl, ?_⟩
    unfold executePass at h
    obtain ⟨_, started, hstarted, h⟩ := Act.bind_eq_ok h
    have hstart : started.ambient = session.ambient := by
      cases hstarted
      exact hambient
    obtain ⟨inputs, committed, hcommit, hrest⟩ := Act.bind_eq_ok h
    obtain ⟨hcommitted, rfl⟩ := Act.ofPanic_eq_ok hcommit
    obtain ⟨members, ran, hran, hrest⟩ := Act.bind_eq_ok hrest
    obtain ⟨assembled, built, hbuilt, hrest⟩ := Act.bind_eq_ok hrest
    obtain ⟨_, _, _, hrest⟩ := Act.bind_eq_ok hrest
    cases hrest
    exact ⟨runId, inputs, members, assembled, committed, ran, ran, built, hcommitted, hstart, hran,
      hbuilt, rfl⟩

/-- An application of edits that returns was refused, rejected or went through. Without edits in the
queue it is refused. -/
theorem tryApplyEdits_ok {application : EditApplication S σ}
    (h : driver.tryApplyEdits snapshot session = .ok application ended) :
    (∃ error, application = ⟨driver, .error error⟩) ∨
      (∃ error, driver.pendingEdits ≠ [] ∧
        application = ⟨{ driver with editsFailed := true }, .error error⟩) ∨
      ∃ assembled, application.outcome = .ok assembled ∧ driver.Applied snapshot application.driver := by
  obtain ⟨runId, named, -, h⟩ := Act.bind_eq_ok h
  split at h
  · cases h
    exact .inl ⟨_, rfl⟩
  · next hqueue =>
    split at h
    · cases h
      exact .inl ⟨_, rfl⟩
    · next hfailed =>
      obtain ⟨r, edited, hedited, h⟩ := Act.bind_eq_ok h
      cases r with
      | error rejection =>
        obtain ⟨_, _, _, h⟩ := Act.bind_eq_ok h
        cases h
        exact .inr (.inl ⟨_, by simpa using hqueue, rfl⟩)
      | ok members =>
        obtain ⟨inputs, committed, hcommit, h⟩ := Act.bind_eq_ok h
        obtain ⟨hcommitted, hsame⟩ := Act.ofPanic_eq_ok hcommit
        obtain ⟨assembled, built, hbuilt, h⟩ := Act.bind_eq_ok h
        obtain ⟨_, _, _, h⟩ := Act.bind_eq_ok h
        cases h
        exact .inr (.inr ⟨assembled, rfl, by simpa using hfailed, runId, inputs, members, assembled,
          named, edited, built, hedited, hcommitted, hsame ▸ hbuilt, rfl⟩)

/-- A full pass keeps the driver or runs the generators. -/
theorem perform_fullPass (driver : Driver S σ) (session : Session σ) (snapshot : Snapshot S) :
    (DriverOp.fullPass session snapshot).perform driver = driver ∨
      driver.Executed session snapshot ((DriverOp.fullPass session snapshot).perform driver) := by
  simp only [DriverOp.perform]
  cases hx : driver.fullPass snapshot session with
  | error why ended => exact .inl rfl
  | ok next ended => exact (fullPass_ok hx).imp And.right And.right

/-- An application of edits keeps the driver, rules the pending edits out, or applies them. -/
theorem perform_tryApplyEdits (driver : Driver S σ) (session : Session σ) (snapshot : Snapshot S) :
    (DriverOp.tryApplyEdits session snapshot).perform driver = driver ∨
      (driver.pendingEdits ≠ [] ∧
        (DriverOp.tryApplyEdits session snapshot).perform driver =
          { driver with editsFailed := true }) ∨
      driver.Applied snapshot ((DriverOp.tryApplyEdits session snapshot).perform driver) := by
  simp only [DriverOp.perform]
  cases hx : driver.tryApplyEdits snapshot session with
  | error why ended => exact .inl rfl
  | ok application ended =>
    rcases tryApplyEdits_ok hx with ⟨error, rfl⟩ | ⟨error, hqueue, rfl⟩ | ⟨_, -, ha⟩
    · exact .inl rfl
    · exact .inr (.inl ⟨hqueue, rfl⟩)
    · exact .inr (.inr ha)

end Driver

end Regen
