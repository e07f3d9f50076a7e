import Regen.Assembly
import Regen.Wire.Error
import Regen.Wire.Output

/-!
# Hosts of scripts

The snapshots of scripts are named documents with the artifacts that were merged into them. A
host decides how outputs become artifacts and whether artifacts keep their content; an artifact
may itself demand that merging it fails.
-/

namespace Regen.Script

/-- A snapshot: a named document with the artifacts merged into it, in order. -/
structure Document where
  name : String
  data : Json
  generated : List Artifact
  deriving DecidableEq

namespace Document

/-- The artifacts of a snapshot: generator, hint name and content of each. -/
def generatedToJson (document : Document) : Json :=
  .arr (document.generated.map fun artifact =>
    .arr [.str artifact.generator, .str artifact.hintName, artifact.content])

def toJson (document : Document) : Json :=
  .object [("name", .str document.name), ("generated", document.generatedToJson)]

end Document

/-- What a host does with outputs. -/
structure HostSpec where
  /-- Whether artifacts hold the text of their output as it is. -/
  asText : Bool
  /-- Whether the content of artifacts is kept. -/
  keepContent : Bool
  deriving DecidableEq, Repr

namespace HostSpec

def ofJson (json : Json) : HostSpec :=
  ⟨json.get "materialize" == .str "text", json.get "content" != .bool false⟩

/-- The artifact with the text of an output; two hint names demand a failure. -/
def textArtifact (generator : String) (output : GeneratedOutput) : Except Stop Artifact :=
  match output.hintName with
  | "fail" => .error (.failed .noPendingEdits)
  | "panic" => .error (.panicked (.text "materialize exploded"))
  | hintName => .ok ⟨generator, hintName, .str output.text⟩

/-- Merge an artifact, unless its content demands a failure. -/
def merge (spec : HostSpec) (document : Document) (artifact : Artifact) :
    Except Stop Document :=
  if (artifact.content.get "reject").isTrue then
    .error (.failed (.execution artifact.generator
      ("host rejected '" ++ artifact.hintName ++ "'")))
  else if (artifact.content.get "panic").isTrue then
    .error (.panicked (.ofDetails artifact.content))
  else
    let content := if spec.keepContent then artifact.content else .null
    .ok { document with generated := document.generated ++ [{ artifact with content }] }

def host (spec : HostSpec) : Host Document where
  materialize := if spec.asText then textArtifact else Artifact.ofJsonText
  merge := spec.merge

end HostSpec

end Regen.Script
