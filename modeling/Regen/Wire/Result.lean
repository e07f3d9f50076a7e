import Regen.Generator
import Regen.Wire.Output

/-!
# Serialized forms of values, faults and results

The JSON forms of what tables hold, of faults, of step records and of the results of generators.
Step records can be read again.
-/

namespace Regen

def Fault.toJson (fault : Fault) : Json :=
  .object [("stage", .ofStr? fault.stage), ("message", .str fault.message)]

def Fault.toJson? (fault : Option Fault) : Json :=
  (fault.map Fault.toJson).getD .null

namespace StepRecord

def toJson (step : StepRecord) : Json :=
  .object [("stage", .str step.stage), ("added", .ofNat step.added),
    ("modified", .ofNat step.modified), ("cached", .ofNat step.cached),
    ("removed", .ofNat step.removed), ("faulted", .bool step.faulted)]

def ofJson? (json : Json) : Option StepRecord := do
  match ← Wire.fields? ["stage", "added", "modified", "cached", "removed", "faulted"] json with
  | [some stage, some added, some modified, some cached, some removed, some faulted] =>
    some ⟨← stage.asStr?, ← Wire.count? added, ← Wire.count? modified, ← Wire.count? cached,
      ← Wire.count? removed, ← Wire.flag? faulted⟩
  | _ => none

end StepRecord

namespace Value

mutual

/-- A value as a document: a pair is an array of two. -/
def toJson : Value → Json
  | .data document => document
  | .output o => o.toJson
  | .input i => i.toJson
  | .list values => .arr (listToJson values)
  | .pair left right => .arr [left.toJson, right.toJson]

def listToJson : List Value → List Json
  | [] => []
  | value :: rest => value.toJson :: listToJson rest

end

end Value

def GeneratorRunResult.toJson (result : GeneratorRunResult) : Json :=
  .object [("generator", .str result.generator),
    ("outputs", .arr (result.outputs.map GeneratedOutput.toJson)),
    ("stageFaults", .arr (result.stageFaults.map Fault.toJson)),
    ("error", Fault.toJson? result.error),
    ("steps", .arr (result.steps.map StepRecord.toJson))]

end Regen
