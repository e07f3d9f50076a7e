import Regen.Program
import Regen.Table.Builder
import Regen.Value

/-!
# Stages

A stage graph is a value: every stage holds the stages it reads. Two stages are the same stage
when they have the same identity, which is how a stage finds its table of the pass before and
how a stage with several consumers is evaluated once.
-/

namespace Regen

/-- The identity of a stage across passes. -/
structure StageId where
  number : Nat
  deriving DecidableEq, Repr, Inhabited

def StageId.describe (id : StageId) : String :=
  "stage#" ++ toString id.number

/-- Identity and name of a stage. -/
structure StageInfo where
  id : StageId
  name : String
  deriving DecidableEq, Repr, Inhabited

/-- The function of a map stage: zero or more values for one entry of the source. -/
abbrev Transform (σ : Type) : Type := Value → Callback σ (List Value)

/-- A stage with the stages it reads. -/
inductive Stage (σ : Type) : Type where
  /-- A leaf that is fed values, compared position by position. -/
  | input (info : StageInfo) (same : Comparer Value)
  /-- A transform applied to every entry of the source; recomputed values are compared with the
  old ones. -/
  | map (info : StageInfo) (source : Stage σ) (transform : Transform σ) (same : Comparer Value)
  /-- All live values of the source as one list. -/
  | collect (info : StageInfo) (source : Stage σ)
  /-- Every entry of the left stage paired with the one live value of the right stage. -/
  | combine (info : StageInfo) (left right : Stage σ)
  /-- A stage that computes its table on its own, from its table of the pass before. -/
  | custom (info : StageInfo) (update : Option (Table Value) → Callback σ (Table Value))

namespace Stage

variable {σ : Type}

def info : Stage σ → StageInfo
  | .input info .. => info
  | .map info .. => info
  | .collect info .. => info
  | .combine info .. => info
  | .custom info .. => info

def id (stage : Stage σ) : StageId :=
  stage.info.id

def name (stage : Stage σ) : String :=
  stage.info.name

/-- A leaf that compares values for equality. -/
def leaf (info : StageInfo) : Stage σ :=
  .input info Comparer.equality

/-- One value for every entry. -/
def mapping (info : StageInfo) (source : Stage σ) (f : Value → Callback σ Value) : Stage σ :=
  .map info source (fun value => do return [← f value]) Comparer.equality

/-- Zero or more values for every entry. -/
def selectMany (info : StageInfo) (source : Stage σ) (f : Transform σ) : Stage σ :=
  .map info source f Comparer.equality

/-- Zero or more values for every entry; a failure message fails the stage. -/
def trySelectMany (info : StageInfo) (source : Stage σ)
    (f : Value → Callback σ (Except String (List Value))) : Stage σ :=
  .map info source
    (fun value => do
      match ← f value with
      | .ok values => return values
      | .error message => Program.fail (.transformFailed info.name message))
    Comparer.equality

end Stage

end Regen
