import Regen.Driver.Shared
import Regen.Proofs.Rejection

/-!
# The published driver

Calls on a published driver run one at a time. Whatever calls are made, the driver that is published is
the one that the same operations make of a driver of one's own, one after the other, where an operation
that stops leaves the driver as it was; and every call answers as its operation does. A full pass that
returns answers with the result that the published driver holds. All handles to a published driver lead
to the same one, so that it makes no difference through which of them a call is made. Changes that call
back into the published driver are left out.
-/

namespace Regen

variable {S σ : Type}

/-- The session of an operation that got a flag with which it may be asked to stop; the flag may be set
already. -/
def Session.handed (session : Session σ) (cancelled : Bool) : Session σ :=
  { session with ambient := { session.ambient with cancelled } }

/-- A call on a published driver. -/
inductive SharedCall (S σ : Type) where
  | fullPass (cancelled : Bool) (snapshot : Snapshot S)
  | tryApplyEdits (snapshot : Snapshot S)
  /-- The driver is replaced. What replaces it runs in the session only, and may stop. -/
  | update (change : Driver S σ → Act (Session σ) (Driver S σ))

/-- What a call that returns answers. -/
inductive Reply (S : Type) where
  /-- The result of a full pass, if there is one. -/
  | assembled (result : Option (Snapshot S))
  | edits (outcome : Except EngineError (Snapshot S))
  | updated

namespace SharedCall

/-- The call on a published driver. -/
def onPublished : SharedCall S σ → Act (Published S σ) (Reply S)
  | .fullPass cancelled snapshot => do
    Published.onSession (modify (·.handed cancelled))
    return .assembled (some (← Published.fullPass snapshot))
  | .tryApplyEdits snapshot => return .edits (← Published.tryApplyEdits snapshot)
  | .update change => do
    Published.updateBy change
    return .updated

/-- The same operation on a driver of one's own. A full pass answers with the result that the driver
holds afterwards. -/
def onDriver (driver : Driver S σ) : SharedCall S σ → Act (Session σ) (Driver S σ × Reply S)
  | .fullPass cancelled snapshot => do
    modify (·.handed cancelled)
    let next ← driver.fullPass snapshot
    return (next, .assembled next.assembled)
  | .tryApplyEdits snapshot => do
    let application ← driver.tryApplyEdits snapshot
    return (application.driver, .edits application.outcome)
  | .update change => return (← change driver, .updated)

/-- Operations on a driver of one's own, one after the other in one session, with their answers. An
operation that stops leaves the driver as it was. -/
def inTurn (driver : Driver S σ) (session : Session σ) :
    List (SharedCall S σ) → (Driver S σ × Session σ) × List (Except Stop (Reply S))
  | [] => ((driver, session), [])
  | call :: rest =>
    match call.onDriver driver session with
    | .ok (next, reply) ended =>
      let (last, replies) := inTurn next ended rest
      (last, .ok reply :: replies)
    | .error why ended =>
      let (last, replies) := inTurn driver ended rest
      (last, .error why :: replies)

end SharedCall

/-- Calls on a published driver, one after the other, with their answers. -/
def Published.serve (published : Published S σ) :
    List (SharedCall S σ) → Published S σ × List (Except Stop (Reply S))
  | [] => (published, [])
  | call :: rest =>
    let (last, replies) := (call.onPublished.after published).serve rest
    (last, call.onPublished.result published :: replies)

/-- The error says that an edit was rejected. -/
def EngineError.IsRejection (error : EngineError) : Prop :=
  ∃ kind generator message, error = .editRejected kind generator message

namespace Edit

variable {edit : Edit σ} {inputs : List AdditionalInput} {session ended : Session σ}
  {rejection : Rejection}

theorem isRejection_rejection (edit : Edit σ) (generator : String) (why : Stop) :
    (edit.rejection generator why).IsRejection := by
  unfold rejection
  split <;> exact ⟨_, _, _, rfl⟩

theorem applyTo_isRejection {shape : PipelineShape σ} {context : EditContext}
    {outputs : List GeneratedOutput} {error : EngineError}
    (h : edit.applyTo shape context outputs session = .ok (.error error) ended) :
    error.IsRejection := by
  obtain ⟨begun, _, -, h⟩ := Act.bind_eq_ok h
  cases hrun : (edit.apply shape context).run (Editing.answer context) ⟨outputs, begun.ambient⟩ with
  | ok _ edited =>
    rw [hrun] at h
    cases h
  | error why edited =>
    rw [hrun] at h
    cases h
    exact edit.isRejection_rejection context.generator why

theorem applyToMember_isRejection {member : Member S σ}
    (h : edit.applyToMember inputs member session = .ok (.error rejection) ended) :
    rejection.error.IsRejection := by
  unfold applyToMember at h
  cases hp : member.state.pipeline with
  | none =>
    rw [hp] at h
    cases h
  | some pipeline =>
    rw [hp] at h
    obtain ⟨accepted, asked, -, h⟩ := Act.bind_eq_ok h
    cases accepted with
    | false => cases h
    | true =>
      obtain ⟨r, applied, happlied, h⟩ := Act.bind_eq_ok h
      cases r with
      | ok outputs => cases h
      | error error =>
        cases h
        exact applyTo_isRejection happlied

theorem applyToMembers_isRejection (members : List (Member S σ))
    (h : edit.applyToMembers inputs members session = .ok (.error rejection) ended) :
    rejection.error.IsRejection := by
  induction members generalizing session with
  | nil => cases h
  | cons member rest ih =>
    obtain ⟨r, middle, hfirst, h⟩ := Act.bind_eq_ok h
    cases r with
    | error rejected =>
      cases h
      exact applyToMember_isRejection hfirst
    | ok made =>
      obtain ⟨r, last, hrest, h⟩ := Act.bind_eq_ok h
      cases r with
      | error rejected =>
        cases h
        exact ih hrest
      | ok others => cases h

theorem applyAll_isRejection (edits : List (Edit σ)) (members : List (Member S σ))
    (h : applyAll inputs edits members session = .ok (.error rejection) ended) :
    rejection.error.IsRejection := by
  induction edits generalizing members session with
  | nil => cases h
  | cons edit rest ih =>
    obtain ⟨r, middle, hfirst, h⟩ := Act.bind_eq_ok h
    cases r with
    | error rejected =>
      cases h
      exact applyToMembers_isRejection members hfirst
    | ok made => exact ih made h

end Edit

namespace Driver

variable {driver next : Driver S σ} {snapshot : Snapshot S} {session ended : Session σ}

/-- A full pass that returns leaves a driver with a result. -/
theorem assembled_of_fullPass (h : driver.fullPass snapshot session = .ok next ended) :
    ∃ assembled, next.assembled = some assembled := by
  rcases fullPass_ok h with ⟨hup, rfl⟩ | ⟨-, he⟩
  · obtain ⟨-, -, hsome, -⟩ := isUpToDate_iff.mp hup
    exact Option.isSome_iff_exists.mp hsome
  · obtain ⟨_, _, _, assembled, _, _, _, _, -, -, -, -, rfl⟩ := he
    exact ⟨assembled, rfl⟩

/-- Edits that are not applied are refused, which leaves the driver as it was, or rejected, after which
no edits may be applied. -/
theorem tryApplyEdits_error {application : EditApplication S σ} {error : EngineError}
    (h : driver.tryApplyEdits snapshot session = .ok application ended)
    (he : application.outcome = .error error) :
    (error = .noPendingEdits ∨ error = .editsInvalidated) ∧ application.driver = driver ∨
      error.IsRejection ∧ application.driver = { driver with editsFailed := true } := by
  obtain ⟨runId, named, -, h⟩ := Act.bind_eq_ok h
  split at h
  · cases h
    cases he
    exact .inl ⟨.inl rfl, rfl⟩
  · split at h
    · cases h
      cases he
      exact .inl ⟨.inr rfl, rfl⟩
    · obtain ⟨r, edited, hedited, h⟩ := Act.bind_eq_ok h
      cases r with
      | error rejection =>
        obtain ⟨_, _, _, h⟩ := Act.bind_eq_ok h
        cases h
        cases he
        exact .inr ⟨Edit.applyAll_isRejection _ _ hedited, rfl⟩
      | ok members =>
        obtain ⟨_, _, -, h⟩ := Act.bind_eq_ok h
        obtain ⟨_, _, -, h⟩ := Act.bind_eq_ok h
        obtain ⟨_, _, _, h⟩ := Act.bind_eq_ok h
        cases h
        cases he

end Driver

/-! What each operation does to the published driver. -/

namespace Published

variable (published : Published S σ)

/-- What is published when an operation on the session ends: the driver that it returns, or else the
driver from before. -/
def settle {α β : Type} (driver : α → Driver S σ) (answer : α → β) :
    EStateM.Result Stop (Session σ) α → EStateM.Result Stop (Published S σ) β
  | .ok made session => .ok (answer made) ⟨driver made, session⟩
  | .error why session => .error why ⟨published.current, session⟩

theorem publish_apply {α β : Type} (operation : Act (Session σ) α) (driver : α → Driver S σ)
    (answer : α → β) :
    (do
      let made ← onSession operation
      publish (driver made)
      return answer made : Act (Published S σ) β) published =
    published.settle driver answer (operation published.session) := by
  cases hx : operation published.session with
  | ok made ended =>
    have hon : onSession operation published = .ok made { published with session := ended } :=
      Act.within_apply (r := .ok made) hx
    exact Act.bind_ok hon
  | error why ended =>
    have hon : onSession operation published = .error why { published with session := ended } :=
      Act.within_apply (r := .error why) hx
    exact Act.bind_error hon

theorem fullPass_apply (snapshot : Snapshot S) : fullPass snapshot published =
    published.settle id (fun next => next.assembled.getD snapshot)
      (published.current.fullPass snapshot published.session) :=
  (Act.bind_ok (Act.get_apply published)).trans (published.publish_apply _ _ _)

theorem tryApplyEdits_apply (snapshot : Snapshot S) : tryApplyEdits snapshot published =
    published.settle EditApplication.driver EditApplication.outcome
      (published.current.tryApplyEdits snapshot published.session) :=
  (Act.bind_ok (Act.get_apply published)).trans (published.publish_apply _ _ _)

theorem updateBy_apply (change : Driver S σ → Act (Session σ) (Driver S σ)) :
    updateBy change published =
      published.settle id (fun _ => ()) (change published.current published.session) :=
  (Act.bind_ok (Act.get_apply published)).trans (published.publish_apply _ _ _)

end Published

namespace SharedCall

/-- A call on the published driver does what the operation does to a driver of one's own. -/
theorem onPublished_apply (call : SharedCall S σ) (published : Published S σ) :
    call.onPublished published =
      published.settle Prod.fst Prod.snd (call.onDriver published.current published.session) := by
  cases call with
  | fullPass cancelled snapshot =>
    have hown : (modify (·.handed cancelled) : Act (Session σ) Unit) published.session =
        .ok () (published.session.handed cancelled) := rfl
    have hflag : Published.onSession (modify (·.handed cancelled)) published =
        .ok () ⟨published.current, published.session.handed cancelled⟩ := rfl
    rw [onPublished, Act.bind_ok hflag, onDriver, Act.bind_ok hown, Act.bind_apply, Act.bind_apply,
      Published.fullPass_apply]
    cases hx : published.current.fullPass snapshot (published.session.handed cancelled) with
    | ok next ended =>
      -- The driver holds a result, so that the raw snapshot is never the answer.
      obtain ⟨assembled, hassembled⟩ := Driver.assembled_of_fullPass hx
      simp [Published.settle, hassembled]
    | error why ended => rfl
  | tryApplyEdits snapshot =>
    rw [onPublished, onDriver, Act.bind_apply, Act.bind_apply, published.tryApplyEdits_apply]
    cases published.current.tryApplyEdits snapshot published.session <;> rfl
  | update change =>
    rw [onPublished, onDriver, Act.bind_apply, Act.bind_apply, published.updateBy_apply]
    cases change published.current published.session <;> rfl

/-- What a call answers and publishes where a driver is published. -/
inductive Publishes (before : Published S σ) :
    SharedCall S σ → Except Stop (Reply S) → Published S σ → Prop
  /-- A full pass that returns answers with the result that the driver holds which it publishes. -/
  | passed {cancelled snapshot next assembled ended} :
      before.current.fullPass snapshot (before.session.handed cancelled) = .ok next ended →
      next.assembled = some assembled →
      Publishes before (.fullPass cancelled snapshot) (.ok (.assembled (some assembled)))
        ⟨next, ended⟩
  | applied {snapshot driver assembled ended} :
      before.current.tryApplyEdits snapshot before.session = .ok ⟨driver, .ok assembled⟩ ended →
      Publishes before (.tryApplyEdits snapshot) (.ok (.edits (.ok assembled))) ⟨driver, ended⟩
  /-- There are no edits, or edits may not be applied. -/
  | refused {snapshot error ended} :
      before.current.tryApplyEdits snapshot before.session =
        .ok ⟨before.current, .error error⟩ ended →
      error = .noPendingEdits ∨ error = .editsInvalidated →
      Publishes before (.tryApplyEdits snapshot) (.ok (.edits (.error error)))
        ⟨before.current, ended⟩
  /-- The driver differs only in that edits may not be applied any more. -/
  | rejected {snapshot error ended} :
      before.current.tryApplyEdits snapshot before.session =
        .ok ⟨{ before.current with editsFailed := true }, .error error⟩ ended →
      error.IsRejection →
      Publishes before (.tryApplyEdits snapshot) (.ok (.edits (.error error)))
        ⟨{ before.current with editsFailed := true }, ended⟩
  | updated {change next ended} : change before.current before.session = .ok next ended →
      Publishes before (.update change) (.ok .updated) ⟨next, ended⟩
  /-- A pass that is cancelled, or an operation from which a panic escapes. -/
  | stopped {call : SharedCall S σ} {why ended} :
      call.onDriver before.current before.session = .error why ended →
      Publishes before call (.error why) ⟨before.current, ended⟩

/-- A full pass never answers with the raw snapshot. -/
theorem Publishes.assembled {before after : Published S σ} {cancelled : Bool} {snapshot : Snapshot S}
    {reply : Reply S} (h : (fullPass cancelled snapshot).Publishes before (.ok reply) after) :
    ∃ assembled, reply = .assembled (some assembled) ∧ after.current.assembled = some assembled := by
  cases h with
  | passed _ hassembled => exact ⟨_, rfl, hassembled⟩

theorem publishes (call : SharedCall S σ) (before : Published S σ) :
    call.Publishes before (call.onPublished.result before) (call.onPublished.after before) := by
  have hcall := call.onPublished_apply before
  cases hx : call.onDriver before.current before.session with
  | error why ended =>
    rw [hx] at hcall
    rw [Act.result_of_ending (r := .error why) hcall, Act.after_of_ending (r := .error why) hcall]
    exact .stopped hx
  | ok made ended =>
    rw [hx] at hcall
    rw [Act.result_of_ending (r := .ok made.2) hcall, Act.after_of_ending (r := .ok made.2) hcall]
    cases call with
    | fullPass cancelled snapshot =>
      obtain ⟨_, _, hflag, hx⟩ := Act.bind_eq_ok hx
      cases hflag
      obtain ⟨next, _, hpass, hx⟩ := Act.bind_eq_ok hx
      cases hx
      obtain ⟨assembled, hassembled⟩ := Driver.assembled_of_fullPass hpass
      rw [hassembled]
      exact .passed hpass hassembled
    | tryApplyEdits snapshot =>
      obtain ⟨⟨driver, outcome⟩, _, hedits, hx⟩ := Act.bind_eq_ok hx
      cases hx
      cases outcome with
      | ok assembled => exact .applied hedits
      | error error =>
        rcases Driver.tryApplyEdits_error hedits rfl with ⟨herror, hd⟩ | ⟨herror, hd⟩
        · cases hd
          exact .refused hedits herror
        · cases hd
          exact .rejected hedits herror
    | update change =>
      obtain ⟨next, _, hchange, hx⟩ := Act.bind_eq_ok hx
      cases hx
      exact .updated hchange

end SharedCall

namespace Published

/-- However many calls are made, the published driver is the one that the operations make in turn. -/
theorem serve_eq (published : Published S σ) (calls : List (SharedCall S σ)) :
    published.serve calls =
      (⟨(SharedCall.inTurn published.current published.session calls).1.1,
        (SharedCall.inTurn published.current published.session calls).1.2⟩,
        (SharedCall.inTurn published.current published.session calls).2) := by
  induction calls generalizing published with
  | nil => rfl
  | cons call rest ih =>
    have hcall := call.onPublished_apply published
    cases hx : call.onDriver published.current published.session with
    | ok made ended =>
      rw [hx] at hcall
      simp only [serve, SharedCall.inTurn, hx, ih, Act.result_of_ending (r := .ok made.2) hcall,
        Act.after_of_ending (r := .ok made.2) hcall]
    | error why ended =>
      rw [hx] at hcall
      simp only [serve, SharedCall.inTurn, hx, ih, Act.result_of_ending (r := .error why) hcall,
        Act.after_of_ending (r := .error why) hcall]

/-- The published driver refines a driver of one's own. Whatever calls are made, it is the driver that
the same operations make one after the other, where an operation that stops leaves the driver as it was,
and every call answers as its operation does. What the next call publishes depends on the call: a full
pass the driver whose result it answers with, an application of edits what came of it, also when edits
are rejected, a change its result, and a call that stops nothing. -/
theorem refines_driver (start : Published S σ) (calls : List (SharedCall S σ)) :
    let served := start.serve calls
    let own := SharedCall.inTurn start.current start.session calls
    served.1.current = own.1.1 ∧ served.1.session = own.1.2 ∧ served.2 = own.2 ∧
    ∀ call : SharedCall S σ, call.Publishes served.1 (call.onPublished.result served.1)
      (call.onPublished.after served.1) := by
  intro served own
  have heq := start.serve_eq calls
  exact ⟨congrArg (·.1.current) heq, congrArg (·.1.session) heq, congrArg (·.2) heq,
    fun call => call.publishes served.1⟩

end Published

namespace Notes

/-- A pass is cancelled, a change panics, and an edit is rejected. -/
def stopping : List (SharedCall Unit Unit) :=
  [.fullPass true snapshot, .update fun _ => throw (.panicked .other), .tryApplyEdits snapshot]

end Notes

open Notes in
/-- Two calls stop and the third one is rejected. The next pass goes through and answers with the result
that it publishes. -/
theorem Published.refines_driver_stopping :
    let start : Published Unit Unit := ⟨Driver.reached host refusal, Notes.session false⟩
    let served := start.serve stopping
    served.2.map (fun | .error why => some why | .ok _ => none) =
      [some (.failed .cancelled), some (.panicked .other), none] ∧
    served.1.current.editsValid = false ∧
    served.1.current.pendingEdits.map (·.kind) = ["b", "c", "d"] ∧
    ∃ assembled after, (SharedCall.fullPass false snapshot).onPublished served.1 =
      .ok (.assembled (some assembled)) after ∧ after.current.assembled = some assembled := by
  intro start served
  obtain ⟨hcurrent, -, hreplies, hnext⟩ := Published.refines_driver start stopping
  refine ⟨?_, ?_, ?_, ?_⟩
  · rw [hreplies]
    decide +kernel
  · rw [hcurrent]
    decide +kernel
  · rw [hcurrent]
    decide +kernel
  · have hpass : (SharedCall.fullPass false snapshot).Publishes served.1 _ _ := hnext _
    obtain ⟨reply, after, hx⟩ : ∃ reply after,
        (SharedCall.fullPass false snapshot).onPublished served.1 = .ok reply after :=
      Act.exists_ok_of_isOk (by decide +kernel)
    rw [Act.result_of_ending (r := .ok reply) hx, Act.after_of_ending (r := .ok reply) hx] at hpass
    obtain ⟨assembled, rfl, hassembled⟩ := hpass.assembled
    exact ⟨assembled, after, hx, hassembled⟩

end Regen
