import Regen.Driver.Basic

/-!
# Full passes

A full pass commits the queued edits, runs every generator over a snapshot and assembles the
outputs. A generator that fails to declare or to execute is reported and contributes nothing; it
never fails the pass. Only a request to cancel ends the pass, and then nothing is kept. A pass
over the snapshot that was processed last is not run again while its result is up to date.
-/

namespace Regen

namespace Generator

variable {S σ : Type}

def declarePipeline (generator : Generator S σ) :
    Act (Session σ) (Except Fault (Pipeline S σ)) := do
  let session ← get
  let begun : Declaration S σ := .start session.fresh session.ambient
  match generator.declare.run Declaration.answer begun with
  | .ok _ ended =>
    set { session with fresh := ended.fresh, ambient := ended.ambient }
    return .ok (ended.build generator.name)
  | .error why ended =>
    set { session with fresh := ended.fresh, ambient := ended.ambient }
    return .error (.ofError (.initialization generator.name why.describe))

inductive Ending (σ : Type) where
  | completed (execution : Execution σ)
  | failed (fault : Fault)

/-- Execute a generator on top of its tables. A request to cancel goes through. -/
def executePipeline (generator : Generator S σ) (pipeline : Pipeline S σ) (tables : PassTables)
    (options : DriverOptions) (briefing : Briefing S) : Act (Session σ) (Ending σ) := do
  let session ← get
  let pass := Pass.start tables options.trackIncrementalSteps
  let begun := Execution.start ⟨pass, session.ambient⟩
  match (generator.execute briefing).run (Execution.answer pipeline options briefing) begun with
  | .ok _ ended =>
    set { session with ambient := ended.evaluation.ambient }
    return .completed ended
  | .error why ended =>
    set { session with ambient := ended.evaluation.ambient }
    if why = .failed .cancelled then Act.fail .cancelled
    else return .failed (.ofError (.execution generator.name why.describe))

end Generator

namespace GeneratorState

variable {S σ : Type}

def undeclared (fault : Fault) : GeneratorState S σ :=
  ⟨none, .empty, [], [], some fault, []⟩

/-- The state after an execution that failed. The tables stay the baseline of the next pass. -/
def unexecuted (pipeline : Pipeline S σ) (tables : PassTables) (fault : Fault) :
    GeneratorState S σ :=
  ⟨some pipeline, tables, [], [], some fault, []⟩

def ofExecution (pipeline : Pipeline S σ) (execution : Execution σ) : GeneratorState S σ :=
  let (tables, steps) := execution.evaluation.pass.finish
  { pipeline := some pipeline
    tables
    outputs := execution.outputs
    stageFaults := execution.stageFaults
    error := none
    steps }

end GeneratorState

namespace Driver

variable {S σ : Type}

/-- The pipeline of a member, which is declared when it has none. -/
def pipelineOf (member : Member S σ) : Act (Session σ) (Except Fault (Pipeline S σ)) :=
  match member.state.pipeline with
  | some pipeline => return .ok pipeline
  | none => member.generator.declarePipeline

def runMember (driver : Driver S σ) (runId : String) (snapshot : S)
    (additionalInputs : List AdditionalInput) (member : Member S σ) :
    Act (Session σ) (GeneratorState S σ) := do
  let name := member.generator.name
  match ← pipelineOf member with
  | .error fault =>
    Session.emit driver.sink (.generatorInitializationFailed runId name fault.describe)
    return .undeclared fault
  | .ok pipeline =>
    let briefing : Briefing S := ⟨name, snapshot, additionalInputs⟩
    match ← member.generator.executePipeline pipeline member.state.tables driver.options
        briefing with
    | .completed execution =>
      Session.emitAll driver.sink (execution.stageFaults.map fun fault =>
        .stageFaulted runId name fault.stage fault.message)
      return .ofExecution pipeline execution
    | .failed fault =>
      Session.emit driver.sink (.generatorExecutionFailed runId name fault.describe)
      return .unexecuted pipeline member.state.tables fault

def runMembers (driver : Driver S σ) (runId : String) (snapshot : S)
    (additionalInputs : List AdditionalInput) :
    List (Member S σ) → Act (Session σ) (List (Member S σ))
  | [] => return []
  | member :: rest => do
    let state ← driver.runMember runId snapshot additionalInputs member
    return { member with state } :: (← driver.runMembers runId snapshot additionalInputs rest)

/-- Whether the result over a snapshot is there and up to date. -/
def isUpToDate (driver : Driver S σ) (snapshot : Snapshot S) : Bool :=
  match driver.snapshot, driver.assembled with
  | some previous, some _ => previous.identity == snapshot.identity
  | _, _ => false

def executePass (driver : Driver S σ) (runId : String) (snapshot : Snapshot S) :
    Act (Session σ) (Driver S σ) := do
  Session.emit driver.sink (.passStarted runId driver.members.length)
  let additionalInputs ← Act.ofPanic (Edit.commitAll driver.pendingEdits driver.additionalInputs)
  let members ← driver.runMembers runId snapshot.content additionalInputs driver.members
  let assembled ← driver.assembleMembers runId snapshot members
  let outputs := members.foldl (fun count member => count + member.state.outputs.length) 0
  let failedGenerators := members.countP (·.state.error.isSome)
  Session.emit driver.sink (.passCompleted runId outputs failedGenerators)
  return { driver with
    members
    additionalInputs
    pendingEdits := []
    editsFailed := false
    snapshot := some snapshot
    assembled := some assembled }

/-- Run every generator over a snapshot and assemble the result, unless the result is up to date.
The pass ends with an error only when it was asked to stop. -/
def fullPass (driver : Driver S σ) (snapshot : Snapshot S) : Act (Session σ) (Driver S σ) := do
  let runId ← Session.newRunId
  if driver.isUpToDate snapshot then
    Session.emit driver.sink (.passReused runId)
    return driver
  else driver.executePass runId snapshot

end Driver

end Regen
