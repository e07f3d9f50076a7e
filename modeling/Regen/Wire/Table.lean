import Regen.Pass.Basic
import Regen.Wire.Result

/-!
# Serialized form of tables

A table is written with its slots, its live values, its counts and its fault.
-/

namespace Regen

/-- The serialized form of entries: each value with its state. -/
def Slot.entriesToJson (entries : List (Value × EntryState)) : Json :=
  .arr (entries.map fun (value, state) => .arr [value.toJson, state.toJson])

namespace Table

/-- The numbers of added, modified, unchanged and removed entries. -/
def counts {α : Type} (table : Table α) : List Nat :=
  [table.count .added, table.count .modified, table.count .cached, table.count .removed]

def toJson (table : Table Value) : Json :=
  .object [
    ("slots", .arr (table.slots.map fun slot => Slot.entriesToJson slot.entries)),
    ("size", .ofNat table.entries.length),
    ("live", .arr (table.liveValues.map Value.toJson)),
    ("counts", .arr (table.counts.map Json.ofNat)),
    ("empty", .bool table.isEmpty),
    ("compacted", .bool table.isCompacted),
    ("faulted", .bool table.isFaulted),
    ("fault", Fault.toJson? table.fault)]

end Table

end Regen
