import Regen.Event
import Regen.Wire.Record

/-!
# Serialized form of events

An event is an object whose field `type` names what happened, beside the fields of the event. An
event is also read from an array that begins with that name.
-/

namespace Regen.EngineEvent

def type : EngineEvent → String
  | .passStarted .. => "passStarted"
  | .passCompleted .. => "passCompleted"
  | .passReused .. => "passReused"
  | .generatorInitializationFailed .. => "generatorInitializationFailed"
  | .generatorExecutionFailed .. => "generatorExecutionFailed"
  | .stageFaulted .. => "stageFaulted"
  | .editRejected .. => "editRejected"
  | .editsApplied .. => "editsApplied"
  | .artifactFailed .. => "artifactFailed"

def details : EngineEvent → List (String × Json)
  | .passStarted _ generators => [("generators", .ofNat generators)]
  | .passCompleted _ outputs failedGenerators =>
    [("outputs", .ofNat outputs), ("failedGenerators", .ofNat failedGenerators)]
  | .passReused _ => []
  | .generatorInitializationFailed _ generator error =>
    [("generator", .str generator), ("error", .str error)]
  | .generatorExecutionFailed _ generator error =>
    [("generator", .str generator), ("error", .str error)]
  | .stageFaulted _ generator stage error =>
    [("generator", .str generator), ("stage", .ofStr? stage), ("error", .str error)]
  | .editRejected _ kind generator error =>
    [("kind", .str kind), ("generator", .str generator), ("error", .str error)]
  | .editsApplied _ count => [("count", .ofNat count)]
  | .artifactFailed _ generator hintName error =>
    [("generator", .str generator), ("hintName", .str hintName), ("error", .str error)]

def toJsonWithRun (event : EngineEvent) (run : Json) : Json :=
  .object (("type", .str event.type) :: ("runId", run) :: event.details)

def toJson (event : EngineEvent) : Json :=
  event.toJsonWithRun (.str event.runId)

def ofFields? (type : String) (json : Json) : Option EngineEvent :=
  match type with
  | "passStarted" => do
    match ← Wire.fields? ["runId", "generators"] json with
    | [some runId, some generators] =>
      some (.passStarted (← runId.asStr?) (← Wire.count? generators))
    | _ => none
  | "passCompleted" => do
    match ← Wire.fields? ["runId", "outputs", "failedGenerators"] json with
    | [some runId, some outputs, some failedGenerators] =>
      some (.passCompleted (← runId.asStr?) (← Wire.count? outputs)
        (← Wire.count? failedGenerators))
    | _ => none
  | "passReused" => do
    match ← Wire.fields? ["runId"] json with
    | [some runId] => some (.passReused (← runId.asStr?))
    | _ => none
  | "generatorInitializationFailed" => do
    match ← Wire.fields? ["runId", "generator", "error"] json with
    | [some runId, some generator, some error] =>
      some (.generatorInitializationFailed (← runId.asStr?) (← generator.asStr?)
        (← error.asStr?))
    | _ => none
  | "generatorExecutionFailed" => do
    match ← Wire.fields? ["runId", "generator", "error"] json with
    | [some runId, some generator, some error] =>
      some (.generatorExecutionFailed (← runId.asStr?) (← generator.asStr?) (← error.asStr?))
    | _ => none
  | "stageFaulted" => do
    match ← Wire.fields? ["runId", "generator", "stage", "error"] json with
    | [some runId, some generator, stage, some error] =>
      some (.stageFaulted (← runId.asStr?) (← generator.asStr?) (← Wire.optionalText? stage)
        (← error.asStr?))
    | _ => none
  | "editRejected" => do
    match ← Wire.fields? ["runId", "kind", "generator", "error"] json with
    | [some runId, some kind, some generator, some error] =>
      some (.editRejected (← runId.asStr?) (← kind.asStr?) (← generator.asStr?)
        (← error.asStr?))
    | _ => none
  | "editsApplied" => do
    match ← Wire.fields? ["runId", "count"] json with
    | [some runId, some count] => some (.editsApplied (← runId.asStr?) (← Wire.count? count))
    | _ => none
  | "artifactFailed" => do
    match ← Wire.fields? ["runId", "generator", "hintName", "error"] json with
    | [some runId, some generator, some hintName, some error] =>
      some (.artifactFailed (← runId.asStr?) (← generator.asStr?) (← hintName.asStr?)
        (← error.asStr?))
    | _ => none
  | _ => none

def ofJson? : Json → Option EngineEvent
  | .arr (.str type :: rest) => ofFields? type (.arr rest)
  | .obj fields => do ofFields? (← (← (Json.obj fields).get? "type").asStr?) (.obj fields)
  | _ => none

end Regen.EngineEvent
