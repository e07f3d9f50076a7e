import Regen.Json.Printer
import Regen.Output

/-!
# Templates

A template is a text with places into which parts of a document are put. A path names a part of a
document by keys and indices; a path that leads nowhere names `null`.
-/

namespace Regen.Script

/-- A step of a path: the key of a field or the index of an item. -/
inductive PathStep where
  | key (key : String)
  | index (index : Int)
  deriving DecidableEq, Repr

/-- A path into a document. -/
abbrev Path : Type := List PathStep

namespace Path

def ofJson (json : Json) : Path :=
  json.items.map fun
    | .int i => .index i
    | step => .key step.asStr

/-- The part of a document at a step. -/
def step : PathStep → Json → Json
  | .key key, json => json.get key
  | .index (.ofNat i), json => json.item i
  | .index _, _ => .null

def lookup (path : Path) (json : Json) : Json :=
  path.foldl (fun part next => step next part) json

end Path

/-- A part of a template: a literal text, or the place of a part of the document. -/
inductive TemplatePart where
  | literal (text : String)
  | place (path : Path)
  deriving DecidableEq, Repr

/-- A text with places for parts of a document. -/
abbrev Template : Type := List TemplatePart

/-- A document as it is shown in a text: a string as itself, anything else as JSON. -/
def shown : Json → String
  | .str s => s
  | json => json.text

namespace Template

def ofJson : Json → Template
  | .str s => [.literal s]
  | json => json.items.map fun
    | .str s => .literal s
    | path => .place (Path.ofJson path)

def render (template : Template) (json : Json) : String :=
  String.join (template.map fun
    | .literal text => text
    | .place path => shown (path.lookup json))

end Template

/-- The output that a document gives rise to. -/
structure OutputSpec where
  hint : Template
  text : Template
  kind : OutputKind
  deriving DecidableEq, Repr

namespace OutputSpec

/-- Read a kind of outputs; outputs are source outputs unless stated otherwise. -/
def kindOfJson (json : Json) : OutputKind :=
  if json == .str "implementation" then .implementation else .source

def ofJson (json : Json) : OutputSpec :=
  ⟨Template.ofJson (json.get "hint"), Template.ofJson (json.get "text"),
    kindOfJson (json.get "kind")⟩

def output (spec : OutputSpec) (json : Json) : GeneratedOutput :=
  ⟨spec.hint.render json, spec.text.render json, spec.kind⟩

end OutputSpec

end Regen.Script
