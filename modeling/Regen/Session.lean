import Regen.Event
import Regen.Program

/-!
# Sessions

A session is what the operations of drivers run in: the ambience of the plug-ins, a supply of
unused identities, and the events that were kept so far.
-/

namespace Regen

/-- The surroundings of the operations of drivers. -/
structure Session (σ : Type) where
  ambient : Ambient σ
  /-- The next unused identity. -/
  fresh : Nat
  /-- The events kept so far, oldest first. -/
  events : List EngineEvent

namespace Session

variable {σ α : Type}

def takeFresh : Act (Session σ) Nat := do
  let session ← get
  set { session with fresh := session.fresh + 1 }
  return session.fresh

/-- The identity of a new operation. -/
def newRunId : Act (Session σ) String :=
  return "run-" ++ toString (← takeFresh)

/-- Send an event; whether it could be delivered makes no difference. -/
def emit (sink : Sink) (event : EngineEvent) : Act (Session σ) Unit :=
  modify fun session => { session with events := (sink.deliver event session.events).2 }

def emitAll (sink : Sink) : List EngineEvent → Act (Session σ) Unit
  | [] => return ()
  | event :: rest => do
    emit sink event
    emitAll sink rest

end Session

end Regen
