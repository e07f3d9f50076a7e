import Regen.Pass.Tables

/-!
# Passes

A pass starts from the tables of the pass before and collects one table per stage that is pulled
or set. When it is finished, its tables are compacted and become the baseline of the next pass;
a stage that was not touched loses its table.
-/

namespace Regen

/-- What one stage did in a pass: the number of its entries in each state. -/
structure StepRecord where
  stage : String
  added : Nat
  modified : Nat
  cached : Nat
  removed : Nat
  faulted : Bool
  deriving DecidableEq, Repr, Inhabited

def StepRecord.ofTable (stage : String) (table : Table Value) : StepRecord where
  stage
  added := table.count .added
  modified := table.count .modified
  cached := table.count .cached
  removed := table.count .removed
  faulted := table.isFaulted

/-- A pass in progress. -/
structure Pass where
  /-- The baseline. -/
  previous : PassTables
  /-- The tables made or set so far. -/
  current : PassTables
  /-- Values fed to leaves that were not pulled yet. -/
  inputs : List (StageId × List Value)
  /-- The records so far, if the pass keeps any. -/
  steps : Option (List StepRecord)

namespace Pass

def start (previous : PassTables) (trackSteps : Bool) : Pass where
  previous
  current := .empty
  inputs := []
  steps := if trackSteps then some [] else none

instance : Inhabited Pass := ⟨start .empty false⟩

def isComputed (pass : Pass) (id : StageId) : Bool :=
  pass.current.contains id

def recordedSteps (pass : Pass) : List StepRecord :=
  pass.steps.getD []

/-- Feed values to a leaf; they replace values fed before. -/
def addInput (pass : Pass) (id : StageId) (values : List Value) : Pass :=
  { pass with inputs := (id, values) :: pass.inputs.filter (·.1 != id) }

def fed? (pass : Pass) (id : StageId) : Option (List Value) :=
  (pass.inputs.find? (·.1 == id)).map (·.2)

/-- The pass after the values fed to a leaf were used. -/
def consume (pass : Pass) (id : StageId) : Pass :=
  { pass with inputs := pass.inputs.filter (·.1 != id) }

/-- Store the table of a stage and record the step. -/
def store (pass : Pass) (info : StageInfo) (table : Table Value) : Pass :=
  { pass with
    current := pass.current.insert info table
    steps := pass.steps.map (· ++ [.ofTable info.name table]) }

/-- The baseline for the next pass and the records of this one. -/
def finish (pass : Pass) : PassTables × List StepRecord :=
  (pass.current.compact, pass.recordedSteps)

end Pass

end Regen
