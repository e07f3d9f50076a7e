import Regen.Act
import Regen.Json.Basic

/-!
# Serialized forms of errors and panics

Errors are written by the name of their cause and their wording. They are read from the name of
the cause and its details, and panics from their text.
-/

namespace Regen

namespace EngineError

def kind : EngineError → String
  | .transformFailed .. => "transform"
  | .initialization .. => "initialization"
  | .execution .. => "execution"
  | .duplicateHintName .. => "duplicate_hint_name"
  | .editRejected .. => "edit_rejected"
  | .noPendingEdits => "no_pending_edits"
  | .editsInvalidated => "edits_invalidated"
  | .artifact .. => "artifact"
  | .tableTypeMismatch .. => "table_type_mismatch"
  | .cancelled => "cancelled"
  | .serialization .. => "serialization"

def toJson (error : EngineError) : Json :=
  .object [("error", .str error.kind), ("message", .str error.message)]

def ofDetails? (json : Json) : Option EngineError :=
  let text (key : String) := (json.get key).asStr
  match (json.get "kind").asStr with
  | "transform" => some (.transformFailed (text "stage") (text "message"))
  | "initialization" => some (.initialization (text "generator") (text "message"))
  | "execution" => some (.execution (text "generator") (text "message"))
  | "duplicate_hint_name" => some (.duplicateHintName (text "generator") (text "hint_name"))
  | "edit_rejected" => some (.editRejected (text "edit") (text "generator") (text "message"))
  | "no_pending_edits" => some .noPendingEdits
  | "edits_invalidated" => some .editsInvalidated
  | "artifact" => some (.artifact (text "generator") (text "hint_name") (text "message"))
  | "table_type_mismatch" => some (.tableTypeMismatch (text "stage"))
  | "cancelled" => some .cancelled
  | "serialization" => some (.serialization (text "text"))
  | _ => none

end EngineError

def Fault.ofJson (json : Json) : Fault :=
  ⟨(json.get "stage").asStr?, (json.get "message").asStr⟩

namespace Panic

/-- The serialized form of what a panic carries: its text, or `null`. -/
def toJson : Panic → Json
  | .text message => .object [("error", .str "panic"), ("message", .str message)]
  | .other => .object [("error", .str "panic"), ("message", .null)]

/-- Read what a panic carries. -/
def ofDetails (json : Json) : Panic :=
  if json.get "payload" == .str "other" then .other else .text (json.get "message").asStr

end Panic

def Stop.toJson : Stop → Json
  | .failed error => error.toJson
  | .panicked panic => panic.toJson

end Regen
