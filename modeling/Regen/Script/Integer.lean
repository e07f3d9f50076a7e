import Regen.Json.Printer
import Regen.Table.Builder

/-!
# Integers of scripts

Scripts compute with integers of 64 bits. An operand that is none panics, and so does a result
that does not fit.
-/

namespace Regen.Script

/-- Whether an integer fits in 64 bits with a sign. -/
def fits (i : Int) : Bool :=
  Int64.minValue.toInt ≤ i && i ≤ Int64.maxValue.toInt

def integer? (json : Json) : Option Int :=
  json.asInt?.filter fits

/-- The integer of a document that must be one. -/
def integer (json : Json) : Except Panic Int :=
  match integer? json with
  | some i => .ok i
  | none => .error (.text ("not an integer: " ++ json.text))

def checked (i : Int) : Except Panic Int :=
  if fits i then .ok i else .error (.text "overflow")

/-- The remainder of a division, which is never negative. The divisor must not be zero, and the
quotient must fit. -/
def remainder (x n : Int) : Except Panic Int :=
  if n = 0 ∨ (x = Int64.minValue.toInt ∧ n = -1) then .error (.text "overflow") else .ok (x.emod n)

def remainderOf (x n : Json) : Except Panic Int := do
  let x ← integer x
  let n ← integer n
  remainder x n

/-- The sum of the integers of a list of documents, added up from a start. -/
def sumFrom (total : Int) : List Json → Except Panic Int
  | [] => return total
  | json :: rest => do sumFrom (← checked (total + (← integer json))) rest

/-- The length of a document: the characters of a text, the items of an array or the fields of
an object. -/
def length : Json → Nat
  | .str s => s.length
  | .arr items => items.length
  | .obj fields => fields.length
  | _ => 0

end Regen.Script
