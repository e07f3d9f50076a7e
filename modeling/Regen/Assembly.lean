import Regen.Json.Reader
import Regen.Output
import Regen.Session

/-!
# Assembling outputs into a snapshot

The host turns each output into an artifact and merges it into the snapshot reached so far. An
output for which one of the two fails is left out and reported; the others are merged as if it
had not been there.
-/

namespace Regen

/-- The form of an output that can be merged. -/
structure Artifact where
  generator : String
  hintName : String
  content : Json
  deriving DecidableEq

/-- The owner of the snapshots, who knows how outputs become part of them. -/
structure Host (S : Type) where
  materialize : (generator : String) → GeneratedOutput → Except Stop Artifact
  merge : S → Artifact → Except Stop S

/-- The artifact of an output whose text is a JSON document. -/
def Artifact.ofJsonText (generator : String) (output : GeneratedOutput) :
    Except Stop Artifact :=
  match Json.parse? output.text with
  | some content => .ok ⟨generator, output.hintName, content⟩
  | none => .error (.failed (.serialization "the text is no JSON document"))

/-- A snapshot with its identity: two snapshots are the same one only if their identities
agree. -/
structure Snapshot (S : Type) where
  identity : Nat
  content : S

namespace Host

variable {S σ : Type}

def mergeOutput (host : Host S) (content : S) (generator : String) (output : GeneratedOutput) :
    Except EngineError S :=
  let merged := do
    let artifact ← host.materialize generator output
    host.merge content artifact
  merged.mapError fun why => .artifact generator output.hintName why.describe

/-- Merge outputs in order, each with the name of its generator. Every merge makes a new
snapshot; when nothing is merged the snapshot stays the same one. -/
def assemble (host : Host S) (sink : Sink) (runId : String) :
    Snapshot S → List (String × GeneratedOutput) → Act (Session σ) (Snapshot S)
  | snapshot, [] => return snapshot
  | snapshot, (generator, output) :: rest => do
    match host.mergeOutput snapshot.content generator output with
    | .ok content =>
      let identity ← Session.takeFresh
      assemble host sink runId ⟨identity, content⟩ rest
    | .error error =>
      Session.emit sink (.artifactFailed runId generator output.hintName error.message)
      assemble host sink runId snapshot rest

end Host

end Regen
