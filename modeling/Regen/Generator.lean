import Regen.Execution

/-!
# Generators

A generator is a plug-in with two programs: one declares its pipeline, once; the other executes
in every full pass. What it made last is kept in its state, from pass to pass.
-/

namespace Regen

/-- A plug-in that derives outputs from snapshots. -/
structure Generator (S σ : Type) where
  /-- What tells generators apart; names may repeat. -/
  identity : Nat
  name : String
  declare : DeclareProgram S σ Unit
  execute : Briefing S → ExecuteProgram σ Unit := fun _ => Execution.runPipeline

/-- What is kept of a generator between operations. -/
structure GeneratorState (S σ : Type) where
  /-- The declared pipeline, once declaring it succeeded. -/
  pipeline : Option (Pipeline S σ)
  /-- The baseline of the next pass. -/
  tables : PassTables
  outputs : List GeneratedOutput
  stageFaults : List Fault
  /-- The failure of the last pass to declare or to execute. -/
  error : Option Fault
  steps : List StepRecord

def GeneratorState.uninitialized {S σ : Type} : GeneratorState S σ :=
  ⟨none, .empty, [], [], none, []⟩

/-- What a generator made in the last operation. -/
structure GeneratorRunResult where
  generator : String
  outputs : List GeneratedOutput
  stageFaults : List Fault
  error : Option Fault
  steps : List StepRecord
  deriving DecidableEq, Repr

/-- A generator of a driver with its state. -/
structure Member (S σ : Type) where
  generator : Generator S σ
  state : GeneratorState S σ

namespace Member

variable {S σ : Type}

def join (generator : Generator S σ) : Member S σ :=
  ⟨generator, .uninitialized⟩

def runResult (member : Member S σ) : GeneratorRunResult where
  generator := member.generator.name
  outputs := member.state.outputs
  stageFaults := member.state.stageFaults
  error := member.state.error
  steps := member.state.steps

/-- The outputs of the generator, each under its name. -/
def namedOutputs (member : Member S σ) : List (String × GeneratedOutput) :=
  member.state.outputs.map (member.generator.name, ·)

end Member

end Regen
