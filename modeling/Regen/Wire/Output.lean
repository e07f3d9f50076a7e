import Regen.Assembly
import Regen.Stage
import Regen.Wire.Record

/-!
# Serialized forms of outputs, options and identities

The JSON forms of the types that cross the boundary of the engine, and their readers.
-/

namespace Regen

namespace EntryState

def name : EntryState → String
  | .added => "added"
  | .removed => "removed"
  | .modified => "modified"
  | .cached => "cached"

def ofName? : String → Option EntryState
  | "added" => some .added
  | "removed" => some .removed
  | "modified" => some .modified
  | "cached" => some .cached
  | _ => none

def toJson (state : EntryState) : Json :=
  .str state.name

def ofJson? (json : Json) : Option EntryState := do
  ofName? (← Wire.choice? json)

end EntryState

namespace OutputKind

def name : OutputKind → String
  | .source => "source"
  | .implementation => "implementation"

def ofName? : String → Option OutputKind
  | "source" => some .source
  | "implementation" => some .implementation
  | _ => none

def toJson (kind : OutputKind) : Json :=
  .str kind.name

def ofJson? (json : Json) : Option OutputKind := do
  ofName? (← Wire.choice? json)

end OutputKind

namespace StageId

def toJson (id : StageId) : Json :=
  .ofNat id.number

def ofJson? (json : Json) : Option StageId :=
  (Wire.count? json).map StageId.mk

end StageId

namespace GeneratedOutput

def toJson (output : GeneratedOutput) : Json :=
  .object [("hintName", .str output.hintName), ("text", .str output.text),
    ("kind", output.kind.toJson)]

def ofJson? (json : Json) : Option GeneratedOutput := do
  match ← Wire.fields? ["hintName", "text", "kind"] json with
  | [some hintName, some text, some kind] =>
    some ⟨← hintName.asStr?, ← text.asStr?, ← OutputKind.ofJson? kind⟩
  | _ => none

end GeneratedOutput

namespace AdditionalInput

def toJson (input : AdditionalInput) : Json :=
  .object [("path", .str input.path), ("text", .str input.text)]

def ofJson? (json : Json) : Option AdditionalInput := do
  match ← Wire.fields? ["path", "text"] json with
  | [some path, some text] => some ⟨← path.asStr?, ← text.asStr?⟩
  | _ => none

end AdditionalInput

namespace Artifact

def toJson (artifact : Artifact) : Json :=
  .object [("generator", .str artifact.generator), ("hintName", .str artifact.hintName),
    ("content", artifact.content)]

/-- Read an artifact. Its content may be any value, but must be there. -/
def ofJson? (json : Json) : Option Artifact := do
  match ← Wire.fields? ["generator", "hintName", "content"] json with
  | [some generator, some hintName, some content] =>
    some ⟨← generator.asStr?, ← hintName.asStr?, content⟩
  | _ => none

end Artifact

namespace DriverOptions

def toJson (options : DriverOptions) : Json :=
  .object [("trackIncrementalSteps", .bool options.trackIncrementalSteps),
    ("disabledOutputs", .arr (options.disabledOutputs.map OutputKind.toJson))]

/-- Read options. A missing field has its value of the standard options. -/
def ofJson? (json : Json) : Option DriverOptions := do
  match ← Wire.defaultedFields? ["trackIncrementalSteps", "disabledOutputs"] json with
  | [track, disabled] =>
    let track ← match track with
      | some track => Wire.flag? track
      | none => some standard.trackIncrementalSteps
    let disabled ← match disabled with
      | some disabled => Wire.listOf? OutputKind.ofJson? disabled
      | none => some standard.disabledOutputs
    some ⟨track, disabled⟩
  | _ => none

end DriverOptions

end Regen
