import Regen.Driver.Basic

/-!
# Applying edits

The queued edits are applied to the outputs of the generators that accept them, without running
any pipeline. One rejection drops the whole batch: the driver stays as it was, except that edits
cannot be applied any more until a full pass succeeds.
-/

namespace Regen

/-- The driver after edits were applied or not, with the assembled snapshot or the reason why
there is none. -/
structure EditApplication (S σ : Type) where
  driver : Driver S σ
  outcome : Except EngineError (Snapshot S)

structure Rejection where
  kind : String
  generator : String
  error : EngineError
  deriving DecidableEq, Repr

namespace Edit

variable {S σ : Type}

/-- The error of an edit whose handler stopped: every failure counts as a rejection. -/
def rejection (edit : Edit σ) (generator : String) : Stop → EngineError
  | .failed (.editRejected kind generator message) => .editRejected kind generator message
  | why => .editRejected edit.kind generator why.describe

def applyTo (edit : Edit σ) (shape : PipelineShape σ) (context : EditContext)
    (outputs : List GeneratedOutput) :
    Act (Session σ) (Except EngineError (List GeneratedOutput)) := do
  let session ← get
  match (edit.apply shape context).run (Editing.answer context) ⟨outputs, session.ambient⟩ with
  | .ok _ ended =>
    set { session with ambient := ended.ambient }
    return .ok ended.outputs
  | .error why ended =>
    set { session with ambient := ended.ambient }
    return .error (edit.rejection context.generator why)

/-- Apply an edit to one generator, if its pipeline accepts it. -/
def applyToMember (edit : Edit σ) (additionalInputs : List AdditionalInput)
    (member : Member S σ) : Act (Session σ) (Except Rejection (Member S σ)) := do
  match member.state.pipeline with
  | none => return .ok member
  | some pipeline =>
    if ← Act.ofPanic (edit.acceptedBy pipeline.shape) then
      let name := member.generator.name
      match ← edit.applyTo pipeline.shape ⟨name, edit.kind, additionalInputs⟩
          member.state.outputs with
      | .ok outputs => return .ok { member with state := { member.state with outputs } }
      | .error error => return .error ⟨edit.kind, name, error⟩
    else return .ok member

/-- Apply an edit to the generators in order, up to the first rejection. -/
def applyToMembers (edit : Edit σ) (additionalInputs : List AdditionalInput) :
    List (Member S σ) → Act (Session σ) (Except Rejection (List (Member S σ)))
  | [] => return .ok []
  | member :: rest => do
    match ← edit.applyToMember additionalInputs member with
    | .error rejection => return .error rejection
    | .ok member =>
      match ← edit.applyToMembers additionalInputs rest with
      | .error rejection => return .error rejection
      | .ok members => return .ok (member :: members)

/-- Apply a queue of edits in order, up to the first rejection. -/
def applyAll (additionalInputs : List AdditionalInput) :
    List (Edit σ) → List (Member S σ) → Act (Session σ) (Except Rejection (List (Member S σ)))
  | [], members => return .ok members
  | edit :: edits, members => do
    match ← edit.applyToMembers additionalInputs members with
    | .error rejection => return .error rejection
    | .ok members => applyAll additionalInputs edits members

end Edit

namespace Driver

variable {S σ : Type}

/-- Apply the queued edits and assemble the result into a snapshot. -/
def applyQueue (driver : Driver S σ) (runId : String) (snapshot : Snapshot S) :
    Act (Session σ) (EditApplication S σ) := do
  match ← Edit.applyAll driver.additionalInputs driver.pendingEdits driver.members with
  | .error rejection =>
    Session.emit driver.sink
      (.editRejected runId rejection.kind rejection.generator rejection.error.message)
    return ⟨{ driver with editsFailed := true }, .error rejection.error⟩
  | .ok members =>
    let additionalInputs ←
      Act.ofPanic (Edit.commitAll driver.pendingEdits driver.additionalInputs)
    let assembled ← driver.assembleMembers runId snapshot members
    Session.emit driver.sink (.editsApplied runId driver.pendingEdits.length)
    return ⟨
      { driver with
        members
        additionalInputs
        pendingEdits := []
        snapshot := some snapshot
        assembled := some assembled },
      .ok assembled⟩

/-- Apply the queued edits, if there are any and a full pass is not required first. -/
def tryApplyEdits (driver : Driver S σ) (snapshot : Snapshot S) :
    Act (Session σ) (EditApplication S σ) := do
  let runId ← Session.newRunId
  if driver.pendingEdits.isEmpty then return ⟨driver, .error .noPendingEdits⟩
  else if driver.editsFailed then return ⟨driver, .error .editsInvalidated⟩
  else driver.applyQueue runId snapshot

end Driver

end Regen
