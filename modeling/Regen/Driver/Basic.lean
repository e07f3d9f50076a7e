import Regen.Assembly
import Regen.Edit
import Regen.Generator

/-!
# Drivers

A driver is a value: generators with their states, additional inputs, queued edits and options,
and what the last successful operation made of which snapshot. Its operations return a new
driver.
-/

namespace Regen

/-- Everything that is kept between operations. -/
structure Driver (S σ : Type) where
  members : List (Member S σ)
  additionalInputs : List AdditionalInput
  pendingEdits : List (Edit σ)
  /-- Whether the queued edits may no longer be applied without a full pass. -/
  editsFailed : Bool
  /-- The snapshot of the last successful operation. -/
  snapshot : Option (Snapshot S)
  /-- What that operation assembled, while it is up to date. -/
  assembled : Option (Snapshot S)
  options : DriverOptions
  host : Host S
  sink : Sink

namespace Driver

variable {S σ : Type}

/-- A driver without generators, whose events are dropped. -/
def new (host : Host S) : Driver S σ where
  members := []
  additionalInputs := []
  pendingEdits := []
  editsFailed := false
  snapshot := none
  assembled := none
  options := .standard
  host
  sink := .silent

def withSink (driver : Driver S σ) (sink : Sink) : Driver S σ :=
  { driver with sink }

/-- Whether the queued edits may be applied without a full pass. -/
def editsValid (driver : Driver S σ) : Bool :=
  !driver.editsFailed

def runResults (driver : Driver S σ) : List GeneratorRunResult :=
  driver.members.map Member.runResult

def outputs (driver : Driver S σ) : List GeneratedOutput :=
  driver.runResults.flatMap (·.outputs)

/-- The results of the generators that failed to declare or to execute. -/
def failed (driver : Driver S σ) : List GeneratorRunResult :=
  driver.runResults.filter (·.error.isSome)

/-- Merge the outputs of all members into a snapshot, in the order of the members. -/
def assembleMembers (driver : Driver S σ) (runId : String) (snapshot : Snapshot S)
    (members : List (Member S σ)) : Act (Session σ) (Snapshot S) :=
  driver.host.assemble driver.sink runId snapshot (members.flatMap Member.namedOutputs)

end Driver

end Regen
