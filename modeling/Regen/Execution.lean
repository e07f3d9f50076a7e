import Regen.Pipeline

/-!
# Execution of a generator

What a generator may do in a full pass: feed the leaves of its pipeline, pull stages, collect the
outputs of the registered stages and add outputs of its own. By default it feeds all leaves and
collects all registered outputs. Hint names stay unique whatever it does.
-/

namespace Regen

/-- What a generator is told when it executes. -/
structure Briefing (S : Type) where
  generator : String
  snapshot : S
  additionalInputs : List AdditionalInput

/-- What a generator did so far in a pass. -/
structure Execution (σ : Type) where
  evaluation : Evaluation σ
  outputs : List GeneratedOutput
  /-- The faults of registered stages. -/
  stageFaults : List Fault

namespace Execution

variable {S σ α : Type}

/-- What the code of a generator may ask while it executes. -/
inductive Request (σ : Type) where
  | ambient (request : Ambient.Request σ)
  | seed
  | collect
  | addOutput (output : GeneratedOutput)
  | outputs
  | pull (stage : Stage σ)
  | isComputed (stage : StageId)
  | addInput (stage : StageId) (values : List Value)
  | setTable (stage : StageInfo) (table : Table Value)
  | steps
  | checkCancelled

/-- The interface of an executing generator. The errors of its operations are answers: it may go
on after them. -/
def interface (σ : Type) : Interface where
  Request := Request σ
  Answer
    | .ambient request => (Ambient.interface σ).Answer request
    | .seed => Unit
    | .collect => Except EngineError Unit
    | .addOutput _ => Except EngineError Unit
    | .outputs => List GeneratedOutput
    | .pull _ => Except EngineError (Table Value)
    | .isComputed _ => Bool
    | .addInput _ _ => Unit
    | .setTable _ _ => Unit
    | .steps => List StepRecord
    | .checkCancelled => Except EngineError Unit

def start (evaluation : Evaluation σ) : Execution σ :=
  ⟨evaluation, [], []⟩

def onEvaluation (act : Act (Evaluation σ) α) : Act (Execution σ) α :=
  act.within evaluation fun evaluation execution => { execution with evaluation }

/-- Add an output unless its hint name is taken. -/
def addOutput (generator : String) (output : GeneratedOutput) : Act (Execution σ) Unit := do
  if GeneratedOutput.hinted output.hintName (← get).outputs then
    Act.fail (.duplicateHintName generator output.hintName)
  else
    modify fun execution => { execution with outputs := execution.outputs ++ [output] }

/-- Add outputs in order, up to the first one whose hint name is taken. -/
def addOutputs (generator : String) : List GeneratedOutput → Act (Execution σ) Unit
  | [] => return ()
  | output :: rest => do
    addOutput generator output
    addOutputs generator rest

def liveOutputs (kind : OutputKind) (table : Table Value) : List GeneratedOutput :=
  (table.liveValues.filterMap Value.output?).map fun output => { output with kind }

/-- Pull a registered stage and add its outputs; a fault of its table is recorded instead. -/
def collectBinding (generator : String) (binding : OutputBinding σ) :
    Act (Execution σ) Unit := do
  let table ← onEvaluation (Evaluation.pull binding.stage)
  match table.fault with
  | some fault =>
    modify fun execution => { execution with stageFaults := execution.stageFaults ++ [fault] }
  | none => addOutputs generator (liveOutputs binding.kind table)

/-- Collect the registered stages in order, without those of disabled kinds. -/
def collectBindings (generator : String) (options : DriverOptions) :
    List (OutputBinding σ) → Act (Execution σ) Unit
  | [] => return ()
  | binding :: rest => do
    if options.isEnabled binding.kind then collectBinding generator binding
    collectBindings generator options rest

def answer (pipeline : Pipeline S σ) (options : DriverOptions) (briefing : Briefing S) :
    (request : Request σ) → Act (Execution σ) ((interface σ).Answer request)
  | .ambient request => onEvaluation (Evaluation.onAmbient (Ambient.answer request))
  | .seed =>
    onEvaluation (Evaluation.modifyPass
      (pipeline.seed briefing.snapshot briefing.additionalInputs))
  | .collect => (collectBindings briefing.generator options pipeline.outputs).orError
  | .addOutput output => (addOutput briefing.generator output).orError
  | .outputs => return (← get).outputs
  | .pull stage => onEvaluation (Evaluation.pull stage).orError
  | .isComputed stage => return (← get).evaluation.pass.isComputed stage
  | .addInput stage values => onEvaluation (Evaluation.modifyPass (·.addInput stage values))
  | .setTable stage table => onEvaluation (Evaluation.modifyPass (·.store stage table))
  | .steps => return (← get).evaluation.pass.recordedSteps
  | .checkCancelled => onEvaluation (Evaluation.onAmbient Ambient.checkCancelled).orError

/-- The default execution: feed the leaves and collect the registered outputs. -/
def runPipeline : Program (interface σ) Unit :=
  .ask Request.seed fun _ =>
    Program.orFail (Program.request (I := interface σ) (Request.collect : Request σ))

end Execution

abbrev ExecuteProgram (σ α : Type) : Type := Program (Execution.interface σ) α

end Regen
