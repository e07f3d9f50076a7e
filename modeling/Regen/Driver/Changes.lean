import Regen.Driver.Basic

/-!
# Changing a driver

The changes that a host makes between operations. After any of them the result is no longer up to
date, so that the next full pass runs also over the snapshot that was processed last. A change of
the generators makes it impossible to apply the queued edits without a full pass.
-/

namespace Regen.Driver

variable {S σ : Type}

/-- Whether a generator is one of a list, by identity. -/
def isAmong (generator : Generator S σ) (generators : List (Generator S σ)) : Bool :=
  generators.any (·.identity == generator.identity)

def withMembers (driver : Driver S σ) (members : List (Member S σ)) : Driver S σ :=
  { driver with members, editsFailed := true, assembled := none }

def withInputs (driver : Driver S σ) (additionalInputs : List AdditionalInput) : Driver S σ :=
  { driver with additionalInputs, assembled := none }

def addGenerators (driver : Driver S σ) (generators : List (Generator S σ)) : Driver S σ :=
  driver.withMembers (driver.members ++ generators.map Member.join)

def removeGenerators (driver : Driver S σ) (generators : List (Generator S σ)) : Driver S σ :=
  driver.withMembers (driver.members.filter fun member => !isAmong member.generator generators)

/-- The member for a generator that stays or joins: one that was there keeps the state of its
first occurrence. -/
def keepOrJoin (driver : Driver S σ) (generator : Generator S σ) : Member S σ :=
  match driver.members.find? (·.generator.identity == generator.identity) with
  | some member => ⟨generator, member.state⟩
  | none => .join generator

def replaceGenerators (driver : Driver S σ) (generators : List (Generator S σ)) : Driver S σ :=
  driver.withMembers (generators.map driver.keepOrJoin)

def addInputs (driver : Driver S σ) (inputs : List AdditionalInput) : Driver S σ :=
  driver.withInputs (driver.additionalInputs ++ inputs)

/-- Remove the inputs that equal one of a list. -/
def removeInputs (driver : Driver S σ) (inputs : List AdditionalInput) : Driver S σ :=
  driver.withInputs (driver.additionalInputs.filter fun input => !inputs.contains input)

/-- Replace the first occurrence of an input; without one the driver stays as it is. -/
def replaceInput (driver : Driver S σ) (old new : AdditionalInput) : Driver S σ :=
  if driver.additionalInputs.contains old then
    driver.withInputs (driver.additionalInputs.replace old new)
  else driver

def queueEdits (driver : Driver S σ) (edits : List (Edit σ)) : Driver S σ :=
  { driver with pendingEdits := driver.pendingEdits ++ edits, assembled := none }

def withOptions (driver : Driver S σ) (options : DriverOptions) : Driver S σ :=
  { driver with options, assembled := none }

end Regen.Driver
