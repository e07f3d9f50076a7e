import Regen.Output
import Regen.Program

/-!
# Editing the outputs of a generator

What the handler of an edit may do: look at the outputs of the generator, add, replace or remove
one, and use the ambience. Hint names stay unique whatever it does.
-/

namespace Regen

namespace GeneratedOutput

/-- Put an output at the place of the first one with its hint name, or at the end. -/
def replaceIn (output : GeneratedOutput) : List GeneratedOutput → List GeneratedOutput
  | [] => [output]
  | other :: rest =>
    if other.hintName == output.hintName then output :: rest
    else other :: output.replaceIn rest

/-- The outputs without those of a hint name. -/
def removeFrom (hintName : String) (outputs : List GeneratedOutput) : List GeneratedOutput :=
  outputs.filter (·.hintName != hintName)

end GeneratedOutput

/-- What the handler of an edit is told. -/
structure EditContext where
  generator : String
  kind : String
  /-- The additional inputs before the edits are committed. -/
  additionalInputs : List AdditionalInput
  deriving DecidableEq, Repr

def EditContext.reject (context : EditContext) (message : String) : EngineError :=
  .editRejected context.kind context.generator message

/-- The outputs of a generator while an edit is applied to them. -/
structure Editing (σ : Type) where
  outputs : List GeneratedOutput
  ambient : Ambient σ

namespace Editing

variable {σ α : Type}

/-- What the handler of an edit may ask. -/
inductive Request (σ : Type) where
  | ambient (request : Ambient.Request σ)
  | outputs
  | addOutput (output : GeneratedOutput)
  | replaceOutput (output : GeneratedOutput)
  | removeOutput (hintName : String)

/-- The interface of the handler of an edit. Adding fails when the hint name is taken; replacing
and removing tell whether there was an output with the hint name. -/
def interface (σ : Type) : Interface where
  Request := Request σ
  Answer
    | .ambient request => (Ambient.interface σ).Answer request
    | .outputs => List GeneratedOutput
    | .addOutput _ => Except EngineError Unit
    | .replaceOutput _ => Bool
    | .removeOutput _ => Bool

def answer (context : EditContext) :
    (request : Request σ) → Act (Editing σ) ((interface σ).Answer request)
  | .ambient request =>
    (Ambient.answer request).within ambient fun ambient editing => { editing with ambient }
  | .outputs => return (← get).outputs
  | .addOutput output => do
    if GeneratedOutput.hinted output.hintName (← get).outputs then
      return .error (.duplicateHintName context.generator output.hintName)
    else
      modify fun editing => { editing with outputs := editing.outputs ++ [output] }
      return .ok ()
  | .replaceOutput output => do
    let found := GeneratedOutput.hinted output.hintName (← get).outputs
    modify fun editing => { editing with outputs := output.replaceIn editing.outputs }
    return found
  | .removeOutput hintName => do
    let found := GeneratedOutput.hinted hintName (← get).outputs
    modify fun editing =>
      { editing with outputs := GeneratedOutput.removeFrom hintName editing.outputs }
    return found

end Editing

abbrev EditProgram (σ α : Type) : Type := Program (Editing.interface σ) α

end Regen
