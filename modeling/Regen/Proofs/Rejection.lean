import Regen.Proofs.EditQueue

/-!
# Rejected edits

An application of edits goes through the queue edit by edit and through the generators one by one.
Where one handler stops, whether it rejects the edit, fails or panics, the whole batch is given up:
the driver stays as it was, also where earlier edits went through, except that edits may not be
applied any more. They may not until a full pass returns, and that pass runs the generators. Panics
of what decides whether an edit is accepted are left out; they end the operation.
-/

namespace Regen

variable {S σ : Type}

namespace Edit

/-- The pipeline of a member accepts the edit, and what applies it to the outputs of the member stops
in this ambience. -/
def StopsOn (edit : Edit σ) (inputs : List AdditionalInput) (member : Member S σ)
    (ambient : Ambient σ) (why : Stop) : Prop :=
  ∃ pipeline ended, member.state.pipeline = some pipeline ∧
    edit.acceptedBy pipeline.shape = .ok true ∧
    (edit.apply pipeline.shape ⟨member.generator.name, edit.kind, inputs⟩).run
      (Editing.answer ⟨member.generator.name, edit.kind, inputs⟩)
      ⟨member.state.outputs, ambient⟩ = .error why ended

variable {edit : Edit σ} {inputs : List AdditionalInput} {member : Member S σ} {why : Stop}
  {session : Session σ}

/-- The rejection of an edit by a member on which it stopped. -/
def rejectedBy (edit : Edit σ) (member : Member S σ) (why : Stop) : Rejection :=
  ⟨edit.kind, member.generator.name, edit.rejection member.generator.name why⟩

theorem StopsOn.applyToMember (h : edit.StopsOn inputs member session.ambient why) :
    ∃ ended, edit.applyToMember inputs member session =
      .ok (.error (edit.rejectedBy member why)) ended := by
  obtain ⟨pipeline, editing, hp, haccepted, hrun⟩ := h
  have happlied : edit.applyTo pipeline.shape ⟨member.generator.name, edit.kind, inputs⟩
      member.state.outputs session = .ok (.error (edit.rejection member.generator.name why))
        { session with ambient := editing.ambient } := by
    refine (Act.bind_ok (Act.get_apply session)).trans ?_
    simp only [hrun]
    rfl
  exact ⟨_, applyToMember_accepted hp haccepted happlied⟩

/-- The members before the one on which the edit stops are passed over. -/
theorem applyToMembers_stops (before after passed : List (Member S σ)) {middle : Session σ}
    (hpassed : edit.applyToMembers inputs before session = .ok (.ok passed) middle)
    (h : edit.StopsOn inputs member middle.ambient why) :
    ∃ ended, edit.applyToMembers inputs (before ++ member :: after) session =
      .ok (.error (edit.rejectedBy member why)) ended := by
  induction before generalizing passed session with
  | nil =>
    cases hpassed
    obtain ⟨ended, hx⟩ := h.applyToMember
    exact ⟨ended, Act.bind_ok hx⟩
  | cons first rest ih =>
    obtain ⟨r, next, hfirst, hpassed⟩ := Act.bind_eq_ok hpassed
    cases r with
    | error rejection => cases hpassed
    | ok made =>
      obtain ⟨r, last, hrest, hpassed⟩ := Act.bind_eq_ok hpassed
      cases r with
      | error rejection => cases hpassed
      | ok others =>
        cases hpassed
        obtain ⟨ended, hx⟩ := ih others hrest
        exact ⟨ended, (Act.bind_ok hfirst).trans (Act.bind_ok hx)⟩

/-- The edits before the one that stops are applied to all members. -/
theorem applyAll_stops (earlier later : List (Edit σ)) (members applied : List (Member S σ))
    {middle : Session σ} {rejection : Rejection}
    (happlied : applyAll inputs earlier members session = .ok (.ok applied) middle)
    (h : ∃ ended, edit.applyToMembers inputs applied middle = .ok (.error rejection) ended) :
    ∃ ended, applyAll inputs (earlier ++ edit :: later) members session =
      .ok (.error rejection) ended := by
  induction earlier generalizing members session with
  | nil =>
    cases happlied
    obtain ⟨ended, hx⟩ := h
    exact ⟨ended, Act.bind_ok hx⟩
  | cons first rest ih =>
    obtain ⟨r, next, hfirst, happlied⟩ := Act.bind_eq_ok happlied
    cases r with
    | error rejection => cases happlied
    | ok made =>
      obtain ⟨ended, hx⟩ := ih made happlied
      exact ⟨ended, (Act.bind_ok hfirst).trans hx⟩

end Edit

/-- Whether the operation is a full pass that returns. -/
def DriverOp.passes (driver : Driver S σ) : DriverOp S σ → Bool
  | .fullPass session snapshot =>
    match driver.fullPass snapshot session with
    | .ok _ _ => true
    | .error _ _ => false
  | _ => false

namespace Driver

/-- An application of the queued edits, which are allowed, comes to an edit and a member on which it
stops: all earlier edits went through, and the edit itself on the members before that one. -/
def StopsAt (driver : Driver S σ) (session : Session σ) (edit : Edit σ) (member : Member S σ)
    (why : Stop) : Prop :=
  driver.editsFailed = false ∧ ∃ earlier later before after passed first second,
    driver.pendingEdits = earlier ++ edit :: later ∧
    Edit.applyAll driver.additionalInputs earlier driver.members
        { session with fresh := session.fresh + 1 } = .ok (.ok (before ++ member :: after)) first ∧
    edit.applyToMembers driver.additionalInputs before first = .ok (.ok passed) second ∧
    edit.StopsOn driver.additionalInputs member second.ambient why

/-- Edits are pending and may not be applied. -/
structure Refusing (driver : Driver S σ) : Prop where
  pending : driver.pendingEdits ≠ []
  failed : driver.editsFailed = true

variable {driver next : Driver S σ} {snapshot : Snapshot S} {session ended : Session σ}
  {edit : Edit σ} {member : Member S σ} {why : Stop}

/-- The driver that a rejection leaves. -/
def refuse (driver : Driver S σ) : Driver S σ :=
  { driver with editsFailed := true }

theorem StopsAt.tryApplyEdits (h : driver.StopsAt session edit member why) (snapshot : Snapshot S) :
    ∃ ended, driver.tryApplyEdits snapshot session =
      .ok ⟨driver.refuse, .error (edit.rejection member.generator.name why)⟩ ended := by
  obtain ⟨hvalid, earlier, later, before, after, passed, first, second, hqueue, happlied, hpassed,
    hstops⟩ := h
  obtain ⟨stopped, hx⟩ := Edit.applyAll_stops earlier later driver.members _ happlied
    (Edit.applyToMembers_stops before after passed hpassed hstops)
  rw [← hqueue] at hx
  have hsome : driver.pendingEdits ≠ [] := by
    rw [hqueue]
    simp
  rw [tryApplyEdits_eq_applyQueue hsome hvalid]
  obtain ⟨events, hemit⟩ := Session.emit_apply driver.sink (.editRejected
    ("run-" ++ toString session.fresh) edit.kind member.generator.name
    (edit.rejection member.generator.name why).message) stopped
  exact ⟨{ stopped with events }, (Act.bind_ok hx).trans (Act.bind_ok hemit)⟩

theorem StopsAt.refusing (h : driver.StopsAt session edit member why) : driver.refuse.Refusing := by
  obtain ⟨-, earlier, later, _, _, _, _, _, hqueue, -⟩ := h
  refine ⟨?_, rfl⟩
  change driver.pendingEdits ≠ []
  rw [hqueue]
  simp

/-- Where edits are refused no handler is run and no event sent. -/
theorem Refusing.tryApplyEdits (h : driver.Refusing) (snapshot : Snapshot S) (session : Session σ) :
    driver.tryApplyEdits snapshot session = .ok ⟨driver, .error .editsInvalidated⟩
      { session with fresh := session.fresh + 1 } := by
  refine (Act.bind_ok (Session.newRunId_apply session)).trans ?_
  rw [if_neg (by simpa using h.pending), if_pos h.failed]
  rfl

/-- Nothing but a full pass that returns allows edits again. -/
theorem Refusing.perform (h : driver.Refusing) {op : DriverOp S σ} (hop : op.passes driver = false) :
    (op.perform driver).Refusing := by
  cases op with
  | withSink sink => exact ⟨h.pending, h.failed⟩
  | addGenerators generators => exact ⟨h.pending, rfl⟩
  | removeGenerators generators => exact ⟨h.pending, rfl⟩
  | replaceGenerators generators => exact ⟨h.pending, rfl⟩
  | addInputs inputs => exact ⟨h.pending, h.failed⟩
  | removeInputs inputs => exact ⟨h.pending, h.failed⟩
  | replaceInput old new =>
    change (driver.replaceInput old new).Refusing
    unfold replaceInput
    split
    · exact ⟨h.pending, h.failed⟩
    · exact h
  | queueEdits edits => exact ⟨List.append_ne_nil_of_left_ne_nil h.pending edits, h.failed⟩
  | withOptions options => exact ⟨h.pending, h.failed⟩
  | fullPass session snapshot =>
    simp only [DriverOp.passes, DriverOp.perform] at hop ⊢
    cases hx : driver.fullPass snapshot session with
    | error why ended => exact h
    | ok next ended =>
      rw [hx] at hop
      cases hop
  | tryApplyEdits session snapshot =>
    simp only [DriverOp.perform, h.tryApplyEdits snapshot session]
    exact h

theorem Refusing.performAll {ops : List (DriverOp S σ)} (h : driver.Refusing)
    (hops : driver.Throughout (fun driver op => op.passes driver = false) ops) :
    (ops.foldl DriverOp.perform driver).Refusing := by
  induction ops generalizing driver with
  | nil => exact h
  | cons op rest ih => exact ih (h.perform hops.1) hops.2

theorem Quiet.performAll (h : driver.Quiet) (ops : List (DriverOp S σ)) :
    (ops.foldl DriverOp.perform driver).Quiet :=
  perform_induction ops (fun op _ _ h => h.perform op) h

/-- A full pass that returns where edits are refused runs the generators, and allows edits. -/
theorem Refusing.fullPass_ok (h : driver.Refusing) (hquiet : driver.Quiet)
    (hx : driver.fullPass snapshot session = .ok next ended) :
    driver.Executed session snapshot next ∧ next.editsValid = true := by
  rcases Driver.fullPass_ok hx with ⟨hup, -⟩ | ⟨-, he⟩
  · exact absurd (hquiet.of_isUpToDate hup).1 h.pending
  · refine ⟨he, ?_⟩
    rw [editsValid, (hquiet.fullPass_ok hx).2]
    rfl

end Driver

/-- An application of edits that stops at some edit and some generator returns the rejection and the
driver as it was, except that edits may not be applied. They may not through whatever is done
without a full pass that returns: every application of edits is refused with the driver unchanged,
without running a handler or sending an event. The next full pass that returns runs the generators,
and then edits may be applied. -/
theorem rejection_sticks (host : Host S) (ops : List (DriverOp S σ)) (session : Session σ)
    {edit : Edit σ} {member : Member S σ} {why : Stop}
    (h : (Driver.reached host ops).StopsAt session edit member why) (snapshot : Snapshot S) :
    let driver := Driver.reached host ops
    let refused := { driver with editsFailed := true }
    (∃ ended, driver.tryApplyEdits snapshot session =
      .ok ⟨refused, .error (edit.rejection member.generator.name why)⟩ ended) ∧
    ∀ later, refused.Throughout (fun driver op => op.passes driver = false) later →
      let last := later.foldl DriverOp.perform refused
      last.editsValid = false ∧
      (∀ snapshot session, last.tryApplyEdits snapshot session =
        .ok ⟨last, .error .editsInvalidated⟩ { session with fresh := session.fresh + 1 }) ∧
      ∀ snapshot session next ended, last.fullPass snapshot session = .ok next ended →
        last.Executed session snapshot next ∧ next.editsValid = true := by
  intro driver refused
  have hquiet : refused.Quiet := fun hsome =>
    absurd (Driver.quiet_reached host ops hsome).1 h.refusing.pending
  refine ⟨h.tryApplyEdits snapshot, fun later hlater => ?_⟩
  have hlast := h.refusing.performAll hlater
  refine ⟨?_, hlast.tryApplyEdits, fun snapshot session next ended hx => ?_⟩
  · rw [Driver.editsValid]
    exact congrArg (!·) hlast.failed
  · exact hlast.fullPass_ok (hquiet.performAll later) hx

namespace Notes

def noted (text name : String) : GeneratedOutput :=
  ⟨text, name, .source⟩

/-- A plug-in after the first pass, with some outputs. -/
def member (identity : Nat) (name : String) (outputs : List GeneratedOutput) : Member Unit Unit :=
  ⟨plugIn identity name, ⟨some ⟨⟨name, [], []⟩, [], none, []⟩, .empty, outputs, [], none, []⟩⟩

/-- The second plug-in when the edits before the refused one went through. -/
def second : Member Unit Unit :=
  member 1 "second" [noted "b" "second", noted "c" "second"]

theorem stopsAt_refusal : (Driver.reached host refusal).StopsAt (session false)
    (note "d" (some "second")) second (.failed (.editRejected "d" "second" "refused")) := by
  have hmembers : (Driver.reached host refusal).members =
      [member 0 "first" [], member 1 "second" []] := rfl
  refine ⟨rfl, [note "b" none, note "c" none], [],
    [member 0 "first" [noted "b" "first", noted "c" "first"]], [],
    [member 0 "first" [noted "b" "first", noted "c" "first", noted "d" "first"]],
    { session false with fresh := 1 }, { session false with fresh := 1 }, rfl, ?_, rfl,
    _, _, rfl, rfl, rfl⟩
  rw [hmembers]
  rfl

end Notes

open Notes in
/-- The third edit of the batch stops at the second plug-in, when the other two and its own first
application went through. An edit that is queued afterwards and a pass that is asked to stop change
nothing about it, a further pass does. -/
theorem rejection_sticks_refusal :
    let driver := Driver.reached host refusal
    let refused := { driver with editsFailed := true }
    let later := [.queueEdits [note "e" none], .fullPass (session true) snapshot]
    let last := later.foldl DriverOp.perform refused
    (∃ ended, driver.tryApplyEdits snapshot (session false) =
      .ok ⟨refused, .error (.editRejected "d" "second" "refused")⟩ ended) ∧
    last.pendingEdits.map (·.kind) = ["b", "c", "d", "e"] ∧ last.editsValid = false ∧
    last.tryApplyEdits snapshot (session false) =
      .ok ⟨last, .error .editsInvalidated⟩ { session false with fresh := 1 } ∧
    ∃ next ended, last.fullPass snapshot (session false) = .ok next ended ∧ next.editsValid = true := by
  intro driver refused later last
  obtain ⟨hreturns, hlater⟩ :=
    rejection_sticks host refusal (session false) stopsAt_refusal snapshot
  obtain ⟨hinvalid, hrefuses, hpass⟩ := hlater later ⟨rfl, rfl, trivial⟩
  refine ⟨hreturns, rfl, hinvalid, hrefuses snapshot (session false), ?_⟩
  obtain ⟨next, ended, hx⟩ : ∃ next ended,
      last.fullPass snapshot (session false) = .ok next ended := ⟨_, _, rfl⟩
  exact ⟨next, ended, hx, (hpass _ _ _ _ hx).2⟩

end Regen
