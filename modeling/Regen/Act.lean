import Regen.Error

/-!
# Acts

An act is code that runs on a state and ends in one of three ways: it returns a value, it fails
with an error, or it panics. What it did to the state before it failed or panicked stays done.
-/

namespace Regen

/-- What a panic carries: a text, or something that is no text. -/
inductive Panic where
  | text (message : String)
  | other
  deriving DecidableEq, Repr, Inhabited

def Panic.describe : Panic → String
  | .text message => "panicked: " ++ message
  | .other => "panicked"

/-- Why an act did not return. -/
inductive Stop where
  | failed (error : EngineError)
  | panicked (panic : Panic)
  deriving DecidableEq, Repr, Inhabited

def Stop.describe : Stop → String
  | .failed error => error.message
  | .panicked panic => panic.describe

/-- Code that runs on a state of type `σ` and returns an `α` unless it stops. -/
abbrev Act (σ α : Type) : Type := EStateM Stop σ α

namespace Act

variable {σ τ α : Type}

def fail (error : EngineError) : Act σ α :=
  throw (.failed error)

def ofPanic : Except Panic α → Act σ α
  | .ok a => pure a
  | .error panic => throw (.panicked panic)

def ofExcept : Except Stop α → Act σ α
  | .ok a => pure a
  | .error stop => throw stop

/-- Run an act and go on with how it ended. -/
def outcome (act : Act σ α) : Act σ (Except Stop α) := fun s =>
  match act s with
  | .ok a s => .ok (.ok a) s
  | .error stop s => .ok (.error stop) s

/-- Run an act and go on with its value or its error; a panic goes through. -/
def orError (act : Act σ α) : Act σ (Except EngineError α) := fun s =>
  match act s with
  | .ok a s => .ok (.ok a) s
  | .error (.failed error) s => .ok (.error error) s
  | .error stop s => .error stop s

/-- Run an act on a part of the state. -/
def within (part : τ → σ) (replace : σ → τ → τ) (act : Act σ α) : Act τ α := fun t =>
  match act (part t) with
  | .ok a s => .ok a (replace s t)
  | .error stop s => .error stop (replace s t)

end Act

end Regen
