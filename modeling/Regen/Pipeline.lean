import Regen.Editing
import Regen.Pass.Pull

/-!
# Pipelines

A generator declares its pipeline once: leaves that are fed from the snapshot, at most one leaf
that is fed the additional inputs, the stages whose values become outputs, and the handlers of
edits. A declaration is a program; `Declaration.build` makes the pipeline of what it declared.
-/

namespace Regen

/-- What becomes of the edits of one kind. -/
structure EditHandler (σ : Type) where
  /-- The name of the type of edits that the handler expects. -/
  accepts : String
  handle : Value → EditContext → EditProgram σ Unit

/-- The part of a pipeline that does not depend on the snapshot. -/
structure PipelineShape (σ : Type) where
  generator : String
  outputs : List (StageInfo × OutputKind)
  handlers : List (String × EditHandler σ)

namespace PipelineShape

variable {σ : Type}

def handler? (shape : PipelineShape σ) (kind : String) : Option (EditHandler σ) :=
  (shape.handlers.find? (·.1 == kind)).map (·.2)

def handles (shape : PipelineShape σ) (kind : String) : Bool :=
  (shape.handler? kind).isSome

/-- The handled kinds of edits in sorted order. -/
def editKinds (shape : PipelineShape σ) : List String :=
  (shape.handlers.map (·.1)).mergeSort fun a b => !(b < a)

end PipelineShape

/-- Why the values of a leaf could not be selected from a snapshot. -/
inductive SelectionFailure where
  | refused (message : String)
  | panicked (panic : Panic)
  deriving DecidableEq, Repr

def SelectionFailure.describe : SelectionFailure → String
  | .refused message => message
  | .panicked panic => panic.describe

/-- A leaf that is fed from the snapshot. -/
structure SnapshotLeaf (S : Type) where
  stage : StageInfo
  select : S → Except SelectionFailure (List Value)

/-- A stage whose live values become outputs of a kind. -/
structure OutputBinding (σ : Type) where
  stage : Stage σ
  kind : OutputKind

/-- The stage graph that a generator declared. -/
structure Pipeline (S σ : Type) where
  shape : PipelineShape σ
  leaves : List (SnapshotLeaf S)
  additionalInputs : Option StageInfo
  outputs : List (OutputBinding σ)

namespace Pipeline

variable {S σ : Type}

/-- Feed one leaf from the snapshot; when that fails, its table is the fault. -/
def seedLeaf (snapshot : S) (pass : Pass) (leaf : SnapshotLeaf S) : Pass :=
  match leaf.select snapshot with
  | .ok values => pass.addInput leaf.stage.id values
  | .error failure =>
    pass.store leaf.stage (.faulted (.inStage leaf.stage.name failure.describe))

/-- Feed every leaf for a new pass. -/
def seed (pipeline : Pipeline S σ) (snapshot : S) (additionalInputs : List AdditionalInput)
    (pass : Pass) : Pass :=
  let pass := pipeline.leaves.foldl (seedLeaf snapshot) pass
  match pipeline.additionalInputs with
  | some stage => pass.addInput stage.id (additionalInputs.map .input)
  | none => pass

end Pipeline

/-- What a generator declared so far. -/
structure Declaration (S σ : Type) where
  leaves : List (SnapshotLeaf S)
  additionalInputs : Option StageInfo
  outputs : List (OutputBinding σ)
  handlers : List (String × EditHandler σ)
  /-- The next unused stage identity. -/
  fresh : Nat
  ambient : Ambient σ

namespace Declaration

variable {S σ α : Type}

inductive Request (S σ : Type) where
  | ambient (request : Ambient.Request σ)
  | newStage (name : String)
  | snapshotLeaf (name : String) (select : S → Except SelectionFailure (List Value))
  | additionalInputs
  | registerOutput (stage : Stage σ) (kind : OutputKind)
  | onEdit (kind : String) (handler : EditHandler σ)

/-- The interface of a declaration. A new stage is answered by its identity and name. -/
def interface (S σ : Type) : Interface where
  Request := Request S σ
  Answer
    | .ambient request => (Ambient.interface σ).Answer request
    | .newStage _ => StageInfo
    | .snapshotLeaf _ _ => StageInfo
    | .additionalInputs => StageInfo
    | .registerOutput _ _ => Unit
    | .onEdit _ _ => Unit

def start (fresh : Nat) (ambient : Ambient σ) : Declaration S σ :=
  ⟨[], none, [], [], fresh, ambient⟩

def takeFresh (name : String) : Act (Declaration S σ) StageInfo := do
  let declaration ← get
  set { declaration with fresh := declaration.fresh + 1 }
  return ⟨⟨declaration.fresh⟩, name⟩

/-- Register an output stage. A stage that is registered already keeps its first kind. -/
def register (stage : Stage σ) (kind : OutputKind) (outputs : List (OutputBinding σ)) :
    List (OutputBinding σ) :=
  if outputs.any (·.stage.id == stage.id) then outputs else outputs ++ [⟨stage, kind⟩]

/-- Set the handler of a kind of edit; a later one replaces an earlier one. -/
def setHandler (kind : String) (handler : EditHandler σ)
    (handlers : List (String × EditHandler σ)) : List (String × EditHandler σ) :=
  handlers.filter (·.1 != kind) ++ [(kind, handler)]

/-- The name of the leaf that holds the additional inputs. -/
def additionalInputsName : String := "additional_inputs"

def answer : (request : Request S σ) →
    Act (Declaration S σ) ((interface S σ).Answer request)
  | .ambient request =>
    (Ambient.answer request).within ambient fun ambient declaration =>
      { declaration with ambient }
  | .newStage name => takeFresh name
  | .snapshotLeaf name select => do
    let stage ← takeFresh name
    modify fun declaration => { declaration with leaves := declaration.leaves ++ [⟨stage, select⟩] }
    return stage
  | .additionalInputs => do
    match (← get).additionalInputs with
    | some stage => return stage
    | none =>
      let stage ← takeFresh additionalInputsName
      modify fun declaration => { declaration with additionalInputs := some stage }
      return stage
  | .registerOutput stage kind =>
    modify fun declaration =>
      { declaration with outputs := register stage kind declaration.outputs }
  | .onEdit kind handler =>
    modify fun declaration =>
      { declaration with handlers := setHandler kind handler declaration.handlers }

def build (generator : String) (declaration : Declaration S σ) : Pipeline S σ where
  shape := {
    generator
    outputs := declaration.outputs.map fun binding => (binding.stage.info, binding.kind)
    handlers := declaration.handlers }
  leaves := declaration.leaves
  additionalInputs := declaration.additionalInputs
  outputs := declaration.outputs

def snapshotInput (name : String) (select : S → Except Panic (List Value)) :
    Program (interface S σ) (Stage σ) :=
  .ask (.snapshotLeaf name fun snapshot => (select snapshot).mapError .panicked)
    fun info => .done (.leaf info)

/-- Declare a leaf whose selection may be refused. -/
def trySnapshotInput (name : String)
    (select : S → Except SelectionFailure (List Value)) :
    Program (interface S σ) (Stage σ) :=
  .ask (.snapshotLeaf name select) fun info => .done (.leaf info)

end Declaration

abbrev DeclareProgram (S σ α : Type) : Type := Program (Declaration.interface S σ) α

end Regen
