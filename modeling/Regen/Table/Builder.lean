import Regen.Act
import Regen.Table.Basic

/-!
# Building a table against the one before

A builder appends one slot per entry of the source. Slots that were added have no counterpart in
the table of the pass before; the builder counts them, so that every other slot stays aligned
with the slot it replaces. Asking for a counterpart that is not there panics and leaves the
builder as it was.
-/

namespace Regen

/-- Judges a new value against an old one. It may panic. -/
abbrev Comparer (α : Type) : Type := α → α → Except Panic Bool

/-- The comparer of a type that has `==`. Nothing is asked of `==`: it may take different values for
equal, and a value for different from itself. -/
def Comparer.equality {α : Type} [BEq α] : Comparer α := fun new old =>
  .ok (new == old)

/-- A table in the making. -/
structure TableBuilder (α : Type) where
  slots : List (Slot α)
  /-- How many slots have no counterpart in the table before. -/
  inserted : Nat
  fault : Option Fault
  deriving DecidableEq, Repr

/-- The slot at a position of the table before; panics when there is none. -/
def Table.slotAt {α : Type} (table : Table α) (index : Nat) : Except Panic (Slot α) :=
  match table.slots[index]? with
  | some slot => .ok slot
  | none => .error (.text ("previous table has " ++ toString table.slots.length ++
      " slots but slot " ++ toString index ++
      " was requested; upstream and downstream tables are out of step"))

namespace TableBuilder

variable {α : Type}

def empty : TableBuilder α :=
  ⟨[], 0, none⟩

instance : Inhabited (TableBuilder α) := ⟨empty⟩

/-- The position in the table before that is aligned with the next slot. -/
def previousIndex (builder : TableBuilder α) : Nat :=
  builder.slots.length - builder.inserted

def push (builder : TableBuilder α) (slot : Slot α) : TableBuilder α :=
  { builder with slots := builder.slots ++ [slot] }

/-- Append one slot with all values in one state. -/
def addEntries (builder : TableBuilder α) (values : List α) (state : EntryState) :
    TableBuilder α :=
  let inserted := if state = .added then builder.inserted + 1 else builder.inserted
  { builder with inserted }.push (.uniform values state)

/-- Append the aligned slot of the table before, in one state. -/
def addEntriesFromPrevious (builder : TableBuilder α) (previous : Table α)
    (state : EntryState) : Except Panic (TableBuilder α) := do
  let old ← previous.slotAt builder.previousIndex
  return builder.push (old.retagged state)

/-- Recomputed values beside the old ones, position by position: an equal value is unchanged and
the old one is kept, a different one is modified; new values beyond the old ones are added, and
old values beyond the new ones are removed. -/
def recompute (same : Comparer α) : List α → List α → Except Panic (List (α × EntryState))
  | [], olds => return olds.map (·, .removed)
  | new :: news, [] => return (new :: news).map (·, .added)
  | new :: news, old :: olds => do
    let entry := if ← same new old then (old, .cached) else (new, .modified)
    return entry :: (← recompute same news olds)

/-- Append a recomputed slot, compared with the aligned slot of the table before. -/
def addModifiedEntries (builder : TableBuilder α) (previous : Table α) (values : List α)
    (same : Comparer α) : Except Panic (TableBuilder α) := do
  let old ← previous.slotAt builder.previousIndex
  return builder.push (.ofEntries (← recompute same values old.values))

/-- Record a fault. The last one recorded counts. -/
def setFaulted (builder : TableBuilder α) (fault : Fault) : TableBuilder α :=
  { builder with fault := some fault }

/-- The table: the slots, or only the fault if there is one. -/
def build (builder : TableBuilder α) : Table α :=
  match builder.fault with
  | some fault => .faulted fault
  | none => ⟨builder.slots, false, none⟩

end TableBuilder

end Regen
