import Regen.Pass.Rules
import Regen.Table.Leaf

/-!
# Pulling a stage

A stage is evaluated when it is pulled: its sources are pulled first, and its table is kept for
the rest of the pass, so that it is evaluated at most once. No table is started once the pass was
asked to stop, and a stage whose evaluation stops gets no table.
-/

namespace Regen

/-- A pass with the ambience its callbacks run in. -/
structure Evaluation (σ : Type) where
  pass : Pass
  ambient : Ambient σ

namespace Evaluation

variable {σ α : Type}

def onAmbient (act : Act (Ambient σ) α) : Act (Evaluation σ) α :=
  act.within ambient fun ambient evaluation => { evaluation with ambient }

def modifyPass (f : Pass → Pass) : Act (Evaluation σ) Unit :=
  modify fun evaluation => { evaluation with pass := f evaluation.pass }

/-- The table of a stage in this pass. It is computed from the stage's table of the pass before
unless it is there already. -/
def memoize (info : StageInfo)
    (compute : Option (Table Value) → Act (Evaluation σ) (Table Value)) :
    Act (Evaluation σ) (Table Value) := do
  let pass := (← get).pass
  match pass.current.find? info.id with
  | some table => return table
  | none =>
    onAmbient Ambient.checkCancelled
    let table ← compute (pass.previous.find? info.id)
    modifyPass (·.store info table)
    return table

/-- The table of a leaf: the values fed to it against its previous table, or that table unchanged
when nothing was fed. -/
def leafTable (info : StageInfo) (same : Comparer Value) (previous : Option (Table Value)) :
    Act (Evaluation σ) (Table Value) := do
  match (← get).pass.fed? info.id with
  | some values =>
    modifyPass (·.consume info.id)
    Act.ofPanic (Table.diffInputs previous values same)
  | none => return (previous.map Table.compact).getD .empty

def pull : Stage σ → Act (Evaluation σ) (Table Value)
  | .input info same =>
    memoize info fun previous => leafTable info same (Table.usable? previous)
  | .map info source transform same =>
    memoize info fun previous => do
      let sourceTable ← pull source
      onAmbient (Stage.mapTable info transform same (Table.usable? previous) sourceTable)
  | .collect info source =>
    memoize info fun previous => do
      let sourceTable ← pull source
      Act.ofPanic (Stage.collectTable (Table.usable? previous) sourceTable)
  | .combine info left right =>
    memoize info fun previous => do
      let leftTable ← pull left
      let rightTable ← pull right
      Act.ofPanic
        (Stage.combineTable info right.name (Table.usable? previous) leftTable rightTable)
  | .custom info update =>
    memoize info fun previous => onAmbient ((update previous).run Ambient.answer)

end Evaluation

end Regen
