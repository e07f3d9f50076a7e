import Regen.Table.Builder

/-!
# Diffing the values of a leaf

A leaf stage has no source. The values fed to it are compared with its previous table position
by position, one value a slot. The values are looked up by position, while the builder copies
slots from the position that is aligned with its next slot.
-/

namespace Regen.Table

variable {α : Type}

/-- Add the slot of the value at a position. The old slot is kept when it held one value and the
comparer accepts it. -/
def diffValue (previous : Option (Table α)) (same : Comparer α) (builder : TableBuilder α)
    (index : Nat) (value : α) : Except Panic (TableBuilder α) :=
  match previous, previous.bind fun table => table.slots[index]?.map Slot.values with
  | some table, some [oldValue] => do
    if ← same value oldValue then builder.addEntriesFromPrevious table .cached
    else return builder.addEntries [value] .modified
  | _, some _ => return builder.addEntries [value] .modified
  | _, none => return builder.addEntries [value] .added

/-- Add the slots of the values from a position on. -/
def diffValues (previous : Option (Table α)) (same : Comparer α) :
    TableBuilder α → Nat → List α → Except Panic (TableBuilder α)
  | builder, _, [] => return builder
  | builder, index, value :: values => do
    let builder ← diffValue previous same builder index value
    diffValues previous same builder (index + 1) values

/-- Add so many slots of the table before as removed. -/
def addRemoved (previous : Table α) : TableBuilder α → Nat → Except Panic (TableBuilder α)
  | builder, 0 => return builder
  | builder, count + 1 => do
    let builder ← builder.addEntriesFromPrevious previous .removed
    addRemoved previous builder count

/-- The table of a leaf that is fed `values`: old slots beyond the values are removed. -/
def diffInputs (previous : Option (Table α)) (values : List α) (same : Comparer α) :
    Except Panic (Table α) := do
  let builder ← diffValues previous same .empty 0 values
  match previous with
  | none => return builder.build
  | some table =>
    return (← addRemoved table builder (table.slots.length - values.length)).build

end Regen.Table
