import Regen.DebugText
import Regen.Driver.Changes
import Regen.Driver.Shared
import Regen.Script.GeneratorSpec
import Regen.Wire.Event
import Regen.Proofs.Act
import Regen.Proofs.Rows
import Regen.Proofs.StageTables
import Regen.Proofs.LeafDiffs
import Regen.Proofs.LeafTables
import Regen.Proofs.PassTables
import Regen.Proofs.Pulling
import Regen.Proofs.Baseline
import Regen.Proofs.Typing
import Regen.Proofs.Likeness
import Regen.Proofs.Meaning
import Regen.Proofs.Alignment
import Regen.Proofs.PassChain
import Regen.Proofs.VacatedSlots
import Regen.Proofs.DriverHistory
import Regen.Proofs.Reuse
import Regen.Proofs.Renaming
import Regen.Proofs.Seeding
import Regen.Proofs.Collecting
import Regen.Proofs.Assembling
import Regen.Proofs.MemberPass
import Regen.Proofs.FreshDriver
import Regen.Proofs.Arising
import Regen.Proofs.Simulation
import Regen.Proofs.LawfulPulls
import Regen.Proofs.PassRuns
import Regen.Proofs.Replaying
import Regen.Proofs.Retention
import Regen.Proofs.Recomputing
import Regen.Proofs.FastPaths
import Regen.Proofs.CallLog
import Regen.Proofs.CallCounts
import Regen.Proofs.Untouched
import Regen.Proofs.FaultTraces
import Regen.Proofs.Containment
import Regen.Proofs.Columns
import Regen.Proofs.Coherence
import Regen.Proofs.Members
import Regen.Proofs.PassEvents
import Regen.Proofs.HintNames
import Regen.Proofs.RegisteredOutputs
import Regen.Proofs.EditQueue
import Regen.Proofs.Rejection
import Regen.Proofs.Mirror
import Regen.Proofs.MirroredEdits
import Regen.Proofs.Escapes
import Regen.Proofs.EditFolds
import Regen.Proofs.FinishedTables
import Regen.Proofs.PullOrder
import Regen.Proofs.Timeline
import Regen.Proofs.Cancellation
import Regen.Proofs.SlotLayout
import Regen.Proofs.Compaction
import Regen.Proofs.SlotDiffs
import Regen.Proofs.StepRecords
import Regen.Proofs.PublishedDriver
import Regen.Proofs.RoundTrips
