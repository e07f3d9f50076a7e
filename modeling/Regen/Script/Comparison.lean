import Regen.Script.Integer
import Regen.Script.Template
import Regen.Wire.Result

/-!
# Comparisons

The ways in which a script compares a new value with an old one. Values are compared as
documents.
-/

namespace Regen.Script

/-- A way to compare a new document with an old one. -/
inductive Comparison where
  | equality
  | always
  | never
  | ignoreCase
  | length
  | modulo (divisor : Json)
  | at (path : Path)
  | panicking

namespace Comparison

def ofJson : Json → Comparison
  | .str "always" => .always
  | .str "never" => .never
  | .str "ignore_case" => .ignoreCase
  | .str "len" => .length
  | .str "panic" => .panicking
  | json =>
    match json.get? "mod", json.get? "at" with
    | some divisor, _ => .modulo divisor
    | none, some path => .at (Path.ofJson path)
    | none, none => .equality

def judge (comparison : Comparison) (new old : Json) : Except Panic Bool :=
  match comparison with
  | .equality => return new == old
  | .always => return true
  | .never => return false
  | .ignoreCase =>
    match new, old with
    | .str new, .str old => return new.map Char.toLower == old.map Char.toLower
    | _, _ => return new == old
  | .length => return Script.length new == Script.length old
  | .modulo divisor => return (← remainderOf new divisor) == (← remainderOf old divisor)
  | .at path => return path.lookup new == path.lookup old
  | .panicking => .error (.text "comparer exploded")

def comparer (comparison : Comparison) : Comparer Value := fun new old =>
  comparison.judge new.toJson old.toJson

end Comparison

end Regen.Script
