import Regen.Script.Function
import Regen.Stage

/-!
# The notebook of scripts

The memory that scripted plug-ins share: what they noted, how often each generator began to
declare its pipeline, and the stages of its last declaration. While the flag of the running pass
is out of reach, a request to cancel does nothing.
-/

namespace Regen.Script

/-- The memory of scripted plug-ins. -/
structure Notebook where
  /-- The notes, newest first. -/
  notes : List Json
  /-- How often each generator began to declare its pipeline. -/
  begun : List (String × Nat)
  /-- The stages of the last finished declaration of each generator. -/
  declared : List (String × List StageInfo)
  /-- Whether a request to cancel reaches the running pass. -/
  canCancel : Bool

namespace Notebook

def empty : Notebook :=
  ⟨[], [], [], true⟩

instance : Inhabited Notebook := ⟨empty⟩

def note (notebook : Notebook) (json : Json) : Notebook :=
  { notebook with notes := json :: notebook.notes }

def timesBegun (notebook : Notebook) (generator : String) : Nat :=
  (notebook.begun.lookup generator).getD 0

def begin (notebook : Notebook) (generator : String) : Notebook :=
  { notebook with
    begun := (generator, notebook.timesBegun generator + 1) ::
      notebook.begun.filter (·.1 != generator) }

def declare (notebook : Notebook) (generator : String) (stages : List StageInfo) : Notebook :=
  { notebook with
    declared := (generator, stages) :: notebook.declared.filter (·.1 != generator) }

def stagesOf (notebook : Notebook) (generator : String) : List StageInfo :=
  (notebook.declared.lookup generator).getD []

end Notebook

/-- Look into the notebook. -/
def readNotebook : Callback Notebook Notebook :=
  .ask Ambient.Request.readMemory .done

def update (change : Notebook → Notebook) : Callback Notebook Unit := do
  let notebook ← readNotebook
  .ask (Ambient.Request.writeMemory (change notebook)) .done

def note (json : Json) : Callback Notebook Unit :=
  update (·.note json)

/-- Ask to cancel the running pass, if it is within reach. -/
def cancel : Callback Notebook Unit := do
  if (← readNotebook).canCancel then .ask Ambient.Request.cancel .done

/-- Run a function inside a plug-in, and go on with how it ended. -/
def call (function : Function) (json : Json) :
    Callback Notebook (Except Halt (List Json)) := do
  match function.run json false with
  | .ok results cancels =>
    if cancels then cancel
    return .ok results
  | .error halt cancels =>
    if cancels then cancel
    return .error halt

end Regen.Script
