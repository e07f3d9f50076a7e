import Regen.Json.Reader
import Regen.Script.Integer
import Regen.Script.Template
import Regen.Wire.Error

/-!
# Functions of scripts

A function takes a document and returns a list of documents, unless it fails or panics. It may
also ask to cancel the pass that it runs in. Every function ends.
-/

namespace Regen.Script

/-- Why a function fails: with a message, or with an error of the engine. -/
inductive Failure where
  | message (text : String)
  | engine (error : EngineError)
  deriving DecidableEq, Repr

namespace Failure

def ofJson (json : Json) : Failure :=
  match json, EngineError.ofDetails? json with
  | .str text, _ => .message text
  | _, some error => .engine error
  | _, none => .message ""

def describe : Failure → String
  | .message text => text
  | .engine error => error.message

end Failure

/-- Why a function did not return. -/
inductive Halt where
  | failed (failure : Failure)
  | panicked (panic : Panic)
  deriving DecidableEq, Repr

/-- A test of a document. -/
inductive Test where
  | eq (json : Json)
  | among (items : List Json)
  | lt (bound : Json)
  | gt (bound : Json)
  | even (expected : Bool)
  | unknown

namespace Test

def ofJson : Json → Test
  | .obj [("eq", json)] => .eq json
  | .obj [("in", json)] => .among json.items
  | .obj [("lt", json)] => .lt json
  | .obj [("gt", json)] => .gt json
  | .obj [("even", json)] => .even json.isTrue
  | _ => .unknown

def holds (test : Test) (json : Json) : Bool :=
  match test with
  | .eq expected => json == expected
  | .among items => items.contains json
  | .lt bound =>
    match integer? json, integer? bound with
    | some i, some b => i < b
    | _, _ => false
  | .gt bound =>
    match integer? json, integer? bound with
    | some i, some b => b < i
    | _, _ => false
  | .even expected =>
    match integer? json with
    | some i => (i % 2 == 0) == expected
    | none => false
  | .unknown => false

end Test

/-- A function from documents to lists of documents. -/
inductive Function where
  | same
  | nothing
  | const (value : Json)
  | add (n : Json)
  | mul (n : Json)
  | modulo (n : Json)
  | range
  | copies (n : Json)
  | spread
  | size
  | sum
  | written
  | filled (template : Template)
  | part (path : Path)
  | each (functions : List Function)
  | chain (functions : List Function)
  | branch (test : Test) (yes no : Function)
  | failing (failure : Failure)
  | panicking (panic : Panic)
  | cancel
  deriving Inhabited

namespace Function

/-- Read a function whose description has at most `depth` levels. -/
def ofJsonWithin : (depth : Nat) → Json → Function
  | 0, _ => .same
  | depth + 1, json =>
    match (json.get "fn").asStr with
    | "none" => .nothing
    | "const" => .const (json.get "value")
    | "add" => .add (json.get "n")
    | "mul" => .mul (json.get "n")
    | "mod" => .modulo (json.get "n")
    | "range" => .range
    | "repeat" => .copies (json.get "n")
    | "items" => .spread
    | "len" => .size
    | "sum" => .sum
    | "json" => .written
    | "text" => .filled (Template.ofJson (json.get "template"))
    | "get" => .part (Path.ofJson (json.get "path"))
    | "list" => .each ((json.get "fns").items.map (ofJsonWithin depth))
    | "seq" => .chain ((json.get "fns").items.map (ofJsonWithin depth))
    | "if" => .branch (Test.ofJson (json.get "test")) (ofJsonWithin depth (json.get "then"))
        (ofJsonWithin depth (json.get "else"))
    | "fail" => .failing (Failure.ofJson (json.get "error"))
    | "panic" => .panicking (Panic.ofDetails json)
    | "cancel" => .cancel
    | _ => .same

def ofJson (json : Json) : Function :=
  ofJsonWithin (Json.Reader.maxDepth + 1) json

/-- A run of a function. Its state tells whether it asked to cancel the pass. -/
abbrev Run (α : Type) : Type := EStateM Halt Bool α

def orPanic {α : Type} : Except Panic α → Run α
  | .ok a => pure a
  | .error panic => throw (.panicked panic)

/-- An operation on the document and an operand, which is looked at second. -/
def arithmetic (operation : Int → Int → Int) (x n : Json) : Except Panic (List Json) := do
  let x ← integer x
  let n ← integer n
  return [.int (← checked (operation x n))]

/-- The items of a document that must be an array. -/
def itemsOf : Json → Except Panic (List Json)
  | .arr items => .ok items
  | json => .error (.text ("not an array: " ++ json.text))

mutual

/-- Apply a function to a document. -/
def run : Function → Json → Run (List Json)
  | .same, x => return [x]
  | .nothing, _ => return []
  | .const value, _ => return [value]
  | .add n, x => orPanic (arithmetic (· + ·) x n)
  | .mul n, x => orPanic (arithmetic (· * ·) x n)
  | .modulo n, x => return [.int (← orPanic (remainderOf x n))]
  | .range, x => return (List.range (← orPanic (integer x)).toNat).map Json.ofNat
  | .copies n, x => return List.replicate (← orPanic (integer n)).toNat x
  | .spread, x => orPanic (itemsOf x)
  | .size, x => return [.ofNat (Script.length x)]
  | .sum, x => return [.int (← orPanic (sumFrom 0 x.items))]
  | .written, x => return [.str x.text]
  | .filled template, x => return [.str (template.render x)]
  | .part path, x => return [path.lookup x]
  | .each functions, x => runEach functions x
  | .chain functions, x => runChain functions [x]
  | .branch test yes no, x => if test.holds x then run yes x else run no x
  | .failing failure, _ => throw (.failed failure)
  | .panicking panic, _ => throw (.panicked panic)
  | .cancel, x => do
    set true
    return [x]

/-- Apply functions to one document and join the results. -/
def runEach : List Function → Json → Run (List Json)
  | [], _ => return []
  | function :: rest, x => do
    let results ← run function x
    return results ++ (← runEach rest x)

/-- Feed documents through functions one after another. -/
def runChain : List Function → List Json → Run (List Json)
  | [], xs => return xs
  | function :: rest, xs => do
    let results ← xs.mapM (run function)
    runChain rest results.flatten

end

end Function

end Regen.Script
