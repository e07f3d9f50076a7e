import Regen.Driver.Basic
import Regen.Text.Printable

/-!
# Debug texts

One-line descriptions of stages, pass tables, pipelines and drivers for a developer: the name of
the type, and its fields in braces. Texts stand in quotes.
-/

namespace Regen.DebugText

/-- A character inside quotes. Quotes, backslashes and characters that are not printable are
escaped. -/
def escapeChar (c : Char) : String :=
  match c with
  | '"' => "\\\""
  | '\\' => "\\\\"
  | '\n' => "\\n"
  | '\r' => "\\r"
  | '\t' => "\\t"
  | '\x00' => "\\0"
  | c =>
    if Text.isPrintable c then String.singleton c
    else "\\u\x7b" ++ String.ofList (Nat.toDigits 16 c.toNat) ++ "\x7d"

def quote (s : String) : String :=
  s.foldl (fun out c => out ++ escapeChar c) "\"" ++ "\""

def list (items : List String) : String :=
  "[" ++ ", ".intercalate items ++ "]"

def record (name : String) (fields : List (String × String)) : String :=
  name ++ " \x7b " ++ ", ".intercalate (fields.map fun (field, text) => field ++ ": " ++ text) ++
    " \x7d"

def bool (b : Bool) : String :=
  if b then "true" else "false"

end Regen.DebugText

namespace Regen

open DebugText

def sortedNames (names : List String) : List String :=
  names.mergeSort fun a b => !(b < a)

def StageId.debugText (id : StageId) : String :=
  "StageId(" ++ toString id.number ++ ")"

def StageInfo.debugText (info : StageInfo) (typeName : String) : String :=
  record typeName [("id", info.id.debugText), ("name", quote info.name)]

def Stage.debugText {σ : Type} (stage : Stage σ) : String :=
  stage.info.debugText "Stage"

def PassTables.debugText (tables : PassTables) : String :=
  record "PassTables"
    [("stages", list ((sortedNames (tables.entries.map (·.1.name))).map quote))]

def OutputKind.debugText : OutputKind → String
  | .source => "Source"
  | .implementation => "Implementation"

def PipelineShape.debugText {σ : Type} (shape : PipelineShape σ) : String :=
  record "PipelineShape"
    [("generator", quote shape.generator),
      ("outputs", list (shape.outputs.map fun (info, kind) =>
        "(" ++ info.debugText "StageInfo" ++ ", " ++ kind.debugText ++ ")")),
      ("edit_kinds", list (shape.editKinds.map quote))]

def Driver.debugText {S σ : Type} (driver : Driver S σ) : String :=
  record "GeneratorDriver"
    [("generators", list (driver.members.map fun member => quote member.generator.name)),
      ("additional_inputs", toString driver.additionalInputs.length),
      ("pending_edits", toString driver.pendingEdits.length),
      ("edits_failed", bool driver.editsFailed),
      ("has_assembled", bool driver.assembled.isSome)]

end Regen
