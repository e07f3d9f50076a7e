import Regen.Script.Comparison
import Regen.Script.Notebook
import Regen.Wire.Table

/-!
# Stages of scripts

The description of a stage, and the stage that it describes. A description refers to the stages
described before it by their labels. Every call of a scripted transform is noted before it
computes anything.
-/

namespace Regen.Script

/-- How the values of a stage are written as documents. -/
inductive Shape where
  | data
  | output
  | input
  | list (item : Shape)
  | pair (left right : Shape)

/-- The additional input that a document describes. -/
def inputOfJson (json : Json) : AdditionalInput :=
  ⟨(json.get "path").asStr, (json.get "text").asStr⟩

/-- Read a value of a shape. An output is read from its specification. -/
def Shape.read : Shape → Json → Value
  | .data, json => .data json
  | .output, json => .output ((OutputSpec.ofJson json).output .null)
  | .input, json => .input (inputOfJson json)
  | .list item, json => .list (json.items.map item.read)
  | .pair left right, json =>
    .pair (left.read (json.item 0)) (right.read (json.item 1))

/-- The ways in which a function becomes a transform. -/
inductive Route where
  /-- One value for each entry: a single result, or all results as an array. A failure panics. -/
  | single
  /-- All results as values. A failure panics. -/
  | many
  /-- All results as values. A failure fails the stage. -/
  | tryMany
  /-- All results as values. An error of the engine is returned as it is. -/
  | node
  deriving DecidableEq, Repr

namespace Route

/-- The route with a name. -/
def ofName : String → Route
  | "select_many" => .many
  | "try_select_many" => .tryMany
  | "node" => .node
  | _ => .single

/-- The results of a function as they become values. -/
def shape (route : Route) (results : List Json) : List Json :=
  match route, results with
  | .single, [result] => [result]
  | .single, results => [.arr results]
  | _, results => results

/-- What becomes of a failure on a route, in a stage with this name. -/
def stop (route : Route) (stage : String) : Halt → Stop
  | .panicked panic => .panicked panic
  | .failed failure =>
    match route, failure with
    | .single, failure => .panicked (.text failure.describe)
    | .many, failure => .panicked (.text failure.describe)
    | .tryMany, failure => .failed (.transformFailed stage failure.describe)
    | .node, .engine error => .failed error
    | .node, .message text => .failed (.transformFailed stage text)

end Route

/-- What a stage does. -/
inductive StageKind where
  | input (same : Comparison)
  | map (route : Route) (source : String) (function : Function) (same : Comparison)
      (output : Option OutputSpec)
  | collect (source : String)
  | combine (left right : String)
  | abort (error : EngineError)
  | snapshot (field : String) (fallible : Bool)
  | additional

/-- The description of a stage. -/
structure StageSpec where
  label : String
  name : String
  kind : StageKind

namespace StageSpec

def kindOfJson (json : Json) : StageKind :=
  let source := (json.get "source").asStr
  let function := Function.ofJson (json.get "f")
  let same := Comparison.ofJson (json.get "comparer")
  let field := (json.get "field").asStr
  match (json.get "kind").asStr with
  | "input" => .input same
  | "emit" =>
    .map (Route.ofName (json.get "via").asStr) source function same
      (some (OutputSpec.ofJson (json.get "output")))
  | "collect" => .collect source
  | "combine" => .combine source (json.get "right").asStr
  | "abort" => .abort ((EngineError.ofDetails? (json.get "error")).getD .cancelled)
  | "snapshot" => .snapshot field false
  | "try_snapshot" => .snapshot field true
  | "additional" => .additional
  | route => .map (Route.ofName route) source function same none

/-- Read the description of a stage. Without a name it is named by its label. -/
def ofJson (json : Json) : StageSpec :=
  let label := (json.get "id").asStr
  ⟨label, (json.get "name").asStr?.getD label, kindOfJson json⟩

def listOfJson (json : Json) : List StageSpec :=
  json.items.map ofJson

end StageSpec

/-- A stage that was described, with its label and the shape of its values. -/
structure BuiltStage where
  label : String
  stage : Stage Notebook
  shape : Shape

abbrev Graph : Type := List BuiltStage

namespace Graph

def find? (graph : Graph) (label : String) : Option BuiltStage :=
  List.find? (·.label == label) graph

end Graph

/-- The stage that stands for one that was not described: it can never be evaluated. -/
def missingStage : BuiltStage :=
  ⟨"", .custom ⟨⟨0⟩, ""⟩ fun _ => Program.fail (.transformFailed "" "no such stage"), .data⟩

namespace StageSpec

def transform (label name : String) (route : Route) (function : Function)
    (output : Option OutputSpec) : Transform Notebook := fun value => do
  let json := value.toJson
  note (.arr [.str "call", .str label, json])
  match ← call function json with
  | .ok results =>
    return (route.shape results).map fun result =>
      match output with
      | some spec => .output (spec.output result)
      | none => .data result
  | .error halt => .stop (route.stop name halt)

/-- Only a node chooses how its values are compared. -/
def mapComparer (route : Route) (same : Comparison) : Comparer Value :=
  if route = .node then same.comparer else Comparer.equality

def build (spec : StageSpec) (graph : Graph) (info : StageInfo) : BuiltStage :=
  match spec.kind with
  | .input same => ⟨spec.label, .input info same.comparer, .data⟩
  | .map route source function same output =>
    let source := (graph.find? source).getD missingStage
    ⟨spec.label,
      .map info source.stage (transform spec.label info.name route function output)
        (mapComparer route same),
      if output.isSome then .output else .data⟩
  | .collect source =>
    let source := (graph.find? source).getD missingStage
    ⟨spec.label, .collect info source.stage, .list source.shape⟩
  | .combine left right =>
    let left := (graph.find? left).getD missingStage
    let right := (graph.find? right).getD missingStage
    ⟨spec.label, .combine info left.stage right.stage, .pair left.shape right.shape⟩
  | .abort error => ⟨spec.label, .custom info fun _ => Program.fail error, .data⟩
  | .snapshot _ _ => ⟨spec.label, .leaf info, .data⟩
  | .additional => ⟨spec.label, .leaf info, .input⟩

/-- Build stages in order behind the ones that were built before, under given identities. -/
def buildAll : Graph → List StageSpec → List StageInfo → Graph
  | graph, spec :: specs, info :: infos =>
    buildAll (graph ++ [spec.build graph info]) specs infos
  | graph, _, _ => graph

end StageSpec

/-- The identities of stages that are numbered from `first` on. -/
def numbered (first : Nat) (specs : List StageSpec) : List StageInfo :=
  specs.zipIdx.map fun (spec, i) => ⟨⟨first + i⟩, spec.name⟩

def stateOfJson (json : Json) : EntryState :=
  (EntryState.ofJson? json).getD .added

/-- The table that a document describes, with values of a shape. -/
def tableOfJson (shape : Shape) (json : Json) : Table Value :=
  let builder := (json.get "slots").items.foldl
    (fun (builder : TableBuilder Value) slot =>
      builder.addEntries ((slot.item 0).items.map shape.read) (stateOfJson (slot.item 1)))
    .empty
  let builder := match json.get "fault" with
    | .null => builder
    | fault => builder.setFaulted (.ofJson fault)
  if (json.get "compact").isTrue then builder.build.compact else builder.build

end Regen.Script
