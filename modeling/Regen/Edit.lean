import Regen.Pipeline

/-!
# Pending edits

An edit describes a change that should show in the outputs without a full pass. Every generator
whose pipeline accepts it applies it to its outputs; once all of them did, it is committed to the
additional inputs.
-/

namespace Regen

/-- A change that is queued on a driver. By default a pipeline accepts an edit when it has a
handler for its kind, the handler applies it, and nothing is committed. -/
structure Edit (σ : Type) where
  kind : String
  /-- The name of the type of the edit, which its handlers must expect. -/
  typeName : String
  /-- What the edit hands to its handlers. -/
  content : Value
  acceptedBy : PipelineShape σ → Except Panic Bool := fun shape => .ok (shape.handles kind)
  apply : PipelineShape σ → EditContext → EditProgram σ Unit := fun shape context =>
    match shape.handler? kind with
    | none => Program.fail (context.reject "no handler registered")
    | some handler =>
      if handler.accepts == typeName then handler.handle content context
      else Program.fail (context.reject ("expected edit of type " ++ handler.accepts))
  commit : List AdditionalInput → Except Panic (List AdditionalInput) := .ok

namespace Edit

variable {σ : Type}

def inputAddedKind : String := "additional-input-added"

/-- Put an input at the place of the first one with its path, or at the end. -/
def upsertInput (input : AdditionalInput) : List AdditionalInput → List AdditionalInput
  | [] => [input]
  | other :: rest =>
    if other.path == input.path then input :: rest else other :: upsertInput input rest

/-- The edit that adds an additional input, or replaces the one with its path. -/
def inputAdded (typeName : String) (input : AdditionalInput) : Edit σ where
  kind := inputAddedKind
  typeName
  content := .input input
  commit := fun inputs => .ok (upsertInput input inputs)

/-- Fold the commits of a queue of edits into the additional inputs, in order. -/
def commitAll : List (Edit σ) → List AdditionalInput → Except Panic (List AdditionalInput)
  | [], inputs => return inputs
  | edit :: edits, inputs => do commitAll edits (← edit.commit inputs)

end Edit

end Regen
