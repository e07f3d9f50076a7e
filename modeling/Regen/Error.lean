/-!
# Errors and faults

`EngineError` lists why an operation of the engine or a callback of a plug-in fails, and
`EngineError.message` words each cause. A `Fault` is a failure that was caught and kept: in a
table, in the result of a generator, or in an event.
-/

namespace Regen

/-- Why an operation failed. Only `cancelled` ever ends a whole pass; every other cause is
caught at the table, the generator, the edit or the artifact that it concerns. -/
inductive EngineError where
  | transformFailed (stage message : String)
  | initialization (generator message : String)
  | execution (generator message : String)
  | duplicateHintName (generator hintName : String)
  | editRejected (kind generator message : String)
  | noPendingEdits
  | editsInvalidated
  | artifact (generator hintName message : String)
  | tableTypeMismatch (stage : String)
  | cancelled
  | serialization (detail : String)
  deriving DecidableEq, Repr, Inhabited

def EngineError.message : EngineError → String
  | .transformFailed stage message =>
    "Transform failed in stage '" ++ stage ++ "': " ++ message
  | .initialization generator message =>
    "Generator '" ++ generator ++ "' failed to initialize: " ++ message
  | .execution generator message =>
    "Generator '" ++ generator ++ "' failed during execution: " ++ message
  | .duplicateHintName generator hintName =>
    "Generator '" ++ generator ++ "' produced duplicate hint name '" ++ hintName ++ "'"
  | .editRejected kind generator message =>
    "Edit '" ++ kind ++ "' was rejected by generator '" ++ generator ++ "': " ++ message
  | .noPendingEdits => "No pending edits to apply"
  | .editsInvalidated => "Pending edits were invalidated; run a full generation pass"
  | .artifact generator hintName message =>
    "Artifact '" ++ hintName ++ "' from generator '" ++ generator ++ "' failed: " ++ message
  | .tableTypeMismatch stage =>
    "Stage '" ++ stage ++ "' holds a table of a different element type"
  | .cancelled => "Pass cancelled"
  | .serialization detail => "Serialization error: " ++ detail

/-- Whether the error ends the whole pass. -/
def EngineError.isCancelled : EngineError → Bool
  | .cancelled => true
  | _ => false

/-- A failure that was caught, with the stage it arose in when that is known. -/
structure Fault where
  stage : Option String
  message : String
  deriving DecidableEq, Repr, Inhabited

namespace Fault

def inStage (stage message : String) : Fault :=
  ⟨some stage, message⟩

/-- The fault that keeps an error: a failed transform names its stage, any other error is kept
by its wording alone. -/
def ofError : EngineError → Fault
  | .transformFailed stage message => inStage stage message
  | error => ⟨none, error.message⟩

def describe (fault : Fault) : String :=
  match fault.stage with
  | some stage => fault.message ++ " (stage '" ++ stage ++ "')"
  | none => fault.message

end Fault

end Regen
