import Regen.Act

/-!
# Programs of plug-ins

The code of a plug-in never touches the state of the engine. It is a program that asks for the
operations an interface offers, one at a time, and goes on with the answers. The smallest
interface is the ambience that all code of a plug-in has: the memory that plug-ins share and the
flag that cancels the running pass, which can be set but not cleared.
-/

namespace Regen

/-- The operations that a context offers, each with the type of its answer. -/
structure Interface where
  Request : Type
  Answer : Request → Type

/-- Code over an interface: it is done, it stops, or it asks and goes on with the answer. -/
inductive Program (I : Interface) (α : Type) : Type where
  | done (value : α)
  | stop (why : Stop)
  | ask (request : I.Request) (next : I.Answer request → Program I α)

namespace Program

variable {I : Interface} {α β σ : Type}

def bind : Program I α → (α → Program I β) → Program I β
  | .done value, f => f value
  | .stop why, _ => .stop why
  | .ask request next, f => .ask request fun answer => (next answer).bind f

instance : Monad (Program I) where
  pure := .done
  bind := .bind

/-- The program that asks one thing and returns the answer. -/
def request (request : I.Request) : Program I (I.Answer request) :=
  .ask request .done

def fail (error : EngineError) : Program I α :=
  .stop (.failed error)

def panic (panic : Panic) : Program I α :=
  .stop (.panicked panic)

/-- Go on with the value of an answer that may be an error, or fail with the error. -/
def orFail (program : Program I (Except EngineError α)) : Program I α :=
  program.bind fun
    | .ok value => .done value
    | .error error => fail error

/-- The same program over another interface, which answers its requests. -/
def embed {J : Interface} (offer : (request : I.Request) → Program J (I.Answer request)) :
    Program I α → Program J α
  | .done value => .done value
  | .stop why => .stop why
  | .ask request next => (offer request).bind fun answer => (next answer).embed offer

/-- Run a program against a state that can answer its requests. -/
def run (answer : (request : I.Request) → Act σ (I.Answer request)) : Program I α → Act σ α
  | .done value => pure value
  | .stop why => throw why
  | .ask request next => answer request >>= fun given => (next given).run answer

end Program

/-- What all code of plug-ins shares while a pass runs. -/
structure Ambient (σ : Type) where
  /-- Whether the running pass was asked to stop. -/
  cancelled : Bool
  /-- State that belongs to the plug-ins. -/
  memory : σ

namespace Ambient

variable {σ : Type}

/-- What any code of a plug-in may ask. -/
inductive Request (σ : Type) where
  | cancel
  | readMemory
  | writeMemory (memory : σ)

/-- The interface of code that has nothing but the ambience. -/
def interface (σ : Type) : Interface where
  Request := Request σ
  Answer
    | .cancel => Unit
    | .readMemory => σ
    | .writeMemory _ => Unit

def answer : (request : Request σ) → Act (Ambient σ) ((interface σ).Answer request)
  | .cancel => modify fun ambient => { ambient with cancelled := true }
  | .readMemory => return (← get).memory
  | .writeMemory memory => modify fun ambient => { ambient with memory }

/-- Fail when the pass was asked to stop. -/
def checkCancelled : Act (Ambient σ) Unit := do
  if (← get).cancelled then Act.fail .cancelled

end Ambient

/-- A callback that has nothing but the ambience. -/
abbrev Callback (σ α : Type) : Type := Program (Ambient.interface σ) α

end Regen
