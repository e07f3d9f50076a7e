import Regen.Act

/-!
# Events

Events tell what a driver does and every failure that it recovered from. All events of one
operation carry the same run identity. Delivering an event never changes what the operation does.
-/

namespace Regen

/-- Something that happened in an operation of a driver. -/
inductive EngineEvent where
  | passStarted (runId : String) (generators : Nat)
  | passCompleted (runId : String) (outputs failedGenerators : Nat)
  | passReused (runId : String)
  | generatorInitializationFailed (runId generator error : String)
  | generatorExecutionFailed (runId generator error : String)
  | stageFaulted (runId generator : String) (stage : Option String) (error : String)
  | editRejected (runId kind generator error : String)
  | editsApplied (runId : String) (count : Nat)
  | artifactFailed (runId generator hintName error : String)
  deriving DecidableEq, Repr

namespace EngineEvent

def runId : EngineEvent → String
  | .passStarted runId .. => runId
  | .passCompleted runId .. => runId
  | .passReused runId => runId
  | .generatorInitializationFailed runId .. => runId
  | .generatorExecutionFailed runId .. => runId
  | .stageFaulted runId .. => runId
  | .editRejected runId .. => runId
  | .editsApplied runId .. => runId
  | .artifactFailed runId .. => runId

def isFailure : EngineEvent → Bool
  | .generatorInitializationFailed .. => true
  | .generatorExecutionFailed .. => true
  | .stageFaulted .. => true
  | .editRejected .. => true
  | .artifactFailed .. => true
  | _ => false

end EngineEvent

/-- Why an event could not be delivered. -/
structure EventError where
  message : String
  deriving DecidableEq, Repr

def EventError.describe (error : EventError) : String :=
  "Event error: " ++ error.message

/-- Where the events of a driver go. -/
inductive Sink where
  /-- Events are kept. -/
  | recording
  /-- Events are kept, and every delivery fails with an error. -/
  | failing (error : EventError)
  /-- Events are dropped. -/
  | silent
  deriving DecidableEq, Repr

/-- Deliver an event behind the ones that were kept before. -/
def Sink.deliver (sink : Sink) (event : EngineEvent) (kept : List EngineEvent) :
    Except EventError Unit × List EngineEvent :=
  match sink with
  | .recording => (.ok (), kept ++ [event])
  | .failing error => (.error error, kept ++ [event])
  | .silent => (.ok (), kept)

end Regen
