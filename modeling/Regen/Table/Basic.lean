import Regen.Error
import Regen.Table.Slot

/-!
# Tables

The table of a stage is what the stage made in one pass: a list of slots, or a fault. While a
pass runs, the tags of a table tell its consumers what changed. At the end of the pass the table
is compacted and becomes the baseline of the next one.
-/

namespace Regen

/-- The output of one stage in one pass. -/
structure Table (α : Type) where
  slots : List (Slot α)
  isCompacted : Bool
  fault : Option Fault
  deriving BEq, DecidableEq, Repr

namespace Table

variable {α : Type}

def empty : Table α :=
  ⟨[], true, none⟩

instance : Inhabited (Table α) := ⟨empty⟩

def faulted (fault : Fault) : Table α :=
  ⟨[], false, some fault⟩

def isFaulted (table : Table α) : Bool :=
  table.fault.isSome

def isEmpty (table : Table α) : Bool :=
  table.slots.isEmpty

def entries (table : Table α) : List (α × EntryState) :=
  table.slots.flatMap Slot.entries

/-- The values of the entries that are not removed. -/
def liveValues (table : Table α) : List α :=
  (table.entries.filter (·.2.isLive)).map (·.1)

def count (table : Table α) (state : EntryState) : Nat :=
  table.entries.countP (·.2 == state)

/-- The baseline for the next pass: slots that are gone are dropped, and so are removed entries
of the others; what remains counts as unchanged. A fault stays. -/
def compact (table : Table α) : Table α :=
  if table.isCompacted then table
  else
    { table with
      slots := (table.slots.filter (!·.isRemoved)).map Slot.compacted
      isCompacted := true }

/-- A table of the pass before serves as a baseline only if it did not fail. -/
def usable? (previous : Option (Table α)) : Option (Table α) :=
  previous.filter (!·.isFaulted)

end Table

end Regen
