import Regen.Json.Basic

/-!
# Reading serialized records

A record is read from an object by the names of its fields, where unknown fields are ignored, or
from an array by position. A plain choice is read from its name, or from an object whose only
field has that name and the value `null`. Counts are natural numbers below `2 ^ 64`.
-/

namespace Regen.Wire

/-- The values of the named fields of a record. In an object any of them may be missing; an array
holds all of them and nothing else. -/
def fields? (names : List String) : Json → Option (List (Option Json))
  | .obj fields => some (names.map (Json.obj fields).get?)
  | .arr items => if items.length = names.length then some (items.map some) else none
  | _ => none

/-- The values of the named fields of a record with default values: an array may end before the
last field. -/
def defaultedFields? (names : List String) : Json → Option (List (Option Json))
  | .obj fields => some (names.map (Json.obj fields).get?)
  | .arr items =>
    if items.length ≤ names.length then
      some (items.map some ++ List.replicate (names.length - items.length) none)
    else none
  | _ => none

def choice? : Json → Option String
  | .str name => some name
  | .obj [(name, .null)] => some name
  | _ => none

def count? : Json → Option Nat
  | .int (.ofNat n) => if n < UInt64.size then some n else none
  | _ => none

def flag? : Json → Option Bool
  | .bool b => some b
  | _ => none

/-- A text that may be missing or `null`. -/
def optionalText? : Option Json → Option (Option String)
  | none => some none
  | some .null => some none
  | some (.str s) => some (some s)
  | some _ => none

/-- The items of an array, each read in the same way. -/
def listOf? {α : Type} (read : Json → Option α) : Json → Option (List α)
  | .arr items => items.mapM read
  | _ => none

end Regen.Wire
