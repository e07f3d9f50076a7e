import Regen.Generator
import Regen.Script.EditSpec
import Regen.Script.HostSpec

/-!
# Generators of scripts

The description of a generator: how often declaring its pipeline fails, its stages, its outputs,
its handlers of edits, and what it does when it executes. All generators with one label are one
generator, which refers to the stages of its last finished declaration.
-/

namespace Regen.Script

/-- Use the ambience of plug-ins from a declaration. -/
def onDeclare {α : Type} (callback : Callback Notebook α) :
    DeclareProgram Document Notebook α :=
  callback.embed fun request => .request (I := Declaration.interface Document Notebook)
    (Declaration.Request.ambient request)

/-- Use the ambience of plug-ins from an execution. -/
def onExecute {α : Type} (callback : Callback Notebook α) :
    ExecuteProgram Notebook α :=
  callback.embed fun request => .request (I := Execution.interface Notebook)
    (Execution.Request.ambient request)

/-- What a generator does in one step of its execution. -/
inductive ExecuteStep where
  | runPipeline
  | seed
  | collect
  | addOutput (output : OutputSpec) (ignoreError : Bool)
  | fail (error : EngineError)
  | panic (panic : Panic)
  | cancel
  | check
  | latest (stage : String)
  | input (stage : String) (values : List Json)
  | setTable (stage : String) (table : Json)
  | steps
  | observe
  | pass

/-- A step of an execution, which may depend on fields of the snapshot. -/
structure ExecuteAction where
  ifTrue : Option String
  ifNotTrue : Option String
  step : ExecuteStep

namespace ExecuteAction

def stepOfJson (json : Json) : ExecuteStep :=
  let stage := (json.get "stage").asStr
  match (json.get "do").asStr with
  | "run_pipeline" => .runPipeline
  | "seed" => .seed
  | "collect" => .collect
  | "add_output" => .addOutput (OutputSpec.ofJson json) (json.get "ignore").isTrue
  | "fail" => .fail ((EngineError.ofDetails? (json.get "error")).getD .cancelled)
  | "panic" => .panic (Panic.ofDetails json)
  | "cancel" => .cancel
  | "check" => .check
  | "latest" => .latest stage
  | "input" => .input stage (json.get "values").items
  | "set_table" => .setTable stage (json.get "table")
  | "steps" => .steps
  | "observe" => .observe
  | _ => .pass

def ofJson (json : Json) : ExecuteAction :=
  ⟨(json.get "when").asStr?, (json.get "unless").asStr?, stepOfJson json⟩

def applies (action : ExecuteAction) (document : Document) : Bool :=
  (action.ifTrue.all fun field => (document.data.get field).isTrue) &&
    (action.ifNotTrue.all fun field => !(document.data.get field).isTrue)

def take (step : ExecuteStep) (graph : Graph) (briefing : Briefing Document) :
    ExecuteProgram Notebook Unit :=
  let find (label : String) := (graph.find? label).getD missingStage
  match step with
  | .runPipeline => Execution.runPipeline
  | .seed => .ask Execution.Request.seed .done
  | .collect =>
    Program.orFail (.request (I := Execution.interface Notebook) Execution.Request.collect)
  | .addOutput output ignoreError =>
    .ask (Execution.Request.addOutput (output.output briefing.snapshot.data)) fun
      | .ok _ => .done ()
      | .error error => if ignoreError then onExecute (note error.toJson) else Program.fail error
  | .fail error => Program.fail error
  | .panic panic => Program.panic panic
  | .cancel => onExecute cancel
  | .check =>
    Program.orFail
      (.request (I := Execution.interface Notebook) Execution.Request.checkCancelled)
  | .latest label => do
    let table ← Program.orFail
      (.request (I := Execution.interface Notebook) (Execution.Request.pull (find label).stage))
    onExecute (note (.arr [.str "table", .str label, table.toJson]))
  | .input label values =>
    let built := find label
    .ask (Execution.Request.addInput built.stage.id (values.map built.shape.read)) .done
  | .setTable label table =>
    let built := find label
    .ask (Execution.Request.setTable built.stage.info (tableOfJson built.shape table)) .done
  | .steps =>
    .ask Execution.Request.steps fun steps =>
      onExecute (note (.arr [.str "steps", .arr (steps.map StepRecord.toJson)]))
  | .observe =>
    .ask Execution.Request.outputs fun outputs =>
      onExecute (note (.arr [.str "observe", .str briefing.generator,
        .str briefing.snapshot.name,
        .arr (briefing.additionalInputs.map AdditionalInput.toJson),
        .arr (outputs.map GeneratedOutput.toJson)]))
  | .pass => .done ()

def takeAll (graph : Graph) (briefing : Briefing Document) :
    List ExecuteAction → ExecuteProgram Notebook Unit
  | [] => .done ()
  | action :: rest =>
    if action.applies briefing.snapshot then do
      take action.step graph briefing
      takeAll graph briefing rest
    else takeAll graph briefing rest

end ExecuteAction

/-- The description of a generator. -/
structure GeneratorSpec where
  label : String
  name : String
  /-- How many of the first declarations stop, and why. -/
  stops : Nat
  why : Stop
  stages : List StageSpec
  outputs : List (String × OutputKind)
  handlers : List HandlerSpec
  execute : Option (List ExecuteAction)

namespace GeneratorSpec

def ofJson (json : Json) : GeneratorSpec :=
  let begin := json.get "init"
  { label := (json.get "id").asStr
    name := (json.get "name").asStr
    stops := ((begin.get "fail_first").asInt?.getD 0).toNat
    why := match begin.get? "panic" with
      | some (.obj fields) => .panicked (.ofDetails (.obj fields))
      | _ => .failed ((EngineError.ofDetails? (begin.get "error")).getD .cancelled)
    stages := StageSpec.listOfJson (json.get "stages")
    outputs := (json.get "outputs").items.map fun output =>
      ((output.item 0).asStr, OutputSpec.kindOfJson (output.item 1))
    handlers := (json.get "edits").items.map HandlerSpec.ofJson
    execute := match json.get "execute" with
      | .arr actions => some (actions.map ExecuteAction.ofJson)
      | _ => none }

/-- Select the values of a field of a snapshot; one field stands for the hint names of the
artifacts merged so far. -/
def select (field : String) (document : Document) : Except String (List Value) :=
  if field = "@generated" then
    .ok (document.generated.map fun artifact => .data (.str artifact.hintName))
  else
    match document.data.get? field with
    | some (.arr items) => .ok (items.map .data)
    | some _ => .error ("field '" ++ field ++ "' is not a list")
    | none => .error ("no field '" ++ field ++ "'")

def declareStage (spec : StageSpec) :
    DeclareProgram Document Notebook StageInfo :=
  match spec.kind with
  | .snapshot field fallible =>
    .request (I := Declaration.interface Document Notebook)
      (Declaration.Request.snapshotLeaf spec.name fun document =>
        (select field document).mapError fun message =>
          if fallible then .refused message else .panicked (.text message))
  | .additional =>
    .request (I := Declaration.interface Document Notebook)
      (Declaration.Request.additionalInputs : Declaration.Request Document Notebook)
  | _ =>
    .request (I := Declaration.interface Document Notebook)
      (Declaration.Request.newStage spec.name : Declaration.Request Document Notebook)

def declareStages : List StageSpec →
    DeclareProgram Document Notebook (List StageInfo)
  | [] => .done []
  | spec :: rest => do
    let info ← declareStage spec
    return info :: (← declareStages rest)

def registerOutputs (graph : Graph) : List (String × OutputKind) →
    DeclareProgram Document Notebook Unit
  | [] => .done ()
  | (label, kind) :: rest => do
    match graph.find? label with
    | some built =>
      .ask (Declaration.Request.registerOutput built.stage kind) fun _ =>
        registerOutputs graph rest
    | none => registerOutputs graph rest

def registerHandlers (types : EditTypes) : List HandlerSpec → DeclareProgram Document Notebook Unit
  | [] => .done ()
  | spec :: rest =>
    .ask (Declaration.Request.onEdit spec.kind (spec.handler types)) fun _ =>
      registerHandlers types rest

/-- Declare the pipeline. The first declarations may stop before they declare anything. -/
def declare (spec : GeneratorSpec) (types : EditTypes) : DeclareProgram Document Notebook Unit := do
  let times ← onDeclare do
    note (.arr [.str "init", .str spec.name])
    let times := (← readNotebook).timesBegun spec.label
    update (·.begin spec.label)
    return times
  if times < spec.stops then .stop spec.why
  else do
    let infos ← declareStages spec.stages
    registerOutputs (StageSpec.buildAll [] spec.stages infos) spec.outputs
    registerHandlers types spec.handlers
    onDeclare (update (·.declare spec.label infos))

def program (spec : GeneratorSpec) (briefing : Briefing Document) : ExecuteProgram Notebook Unit :=
  match spec.execute with
  | none => Execution.runPipeline
  | some actions => do
    let infos := (← onExecute readNotebook).stagesOf spec.label
    ExecuteAction.takeAll (StageSpec.buildAll [] spec.stages infos) briefing actions

def generator (spec : GeneratorSpec) (types : EditTypes) (identity : Nat) :
    Generator Document Notebook where
  identity
  name := spec.name
  declare := spec.declare types
  execute := spec.program

end GeneratorSpec

end Regen.Script
