/-!
# Slots

A slot holds the values that a stage made from one entry of its source, each tagged with how it
relates to the pass before. An empty slot carries a tag as well: it tells whether the entry
behind it is gone. `entries` is the view through which the rest of the library reads a slot.
-/

namespace Regen

/-- How an entry relates to the pass before. -/
inductive EntryState where
  /-- New in this pass. -/
  | added
  /-- There in the pass before and gone now; shown once, so that consumers can see it go. -/
  | removed
  /-- Recomputed, with a different value. -/
  | modified
  /-- Unchanged. -/
  | cached
  deriving DecidableEq, Repr, Inhabited

/-- Whether consumers still see the value of an entry in this state. -/
def EntryState.isLive (state : EntryState) : Bool :=
  state != .removed

/-- The values made from one entry of the source. -/
inductive Slot (α : Type) where
  | vacant (state : EntryState)
  | filled (first : α × EntryState) (rest : List (α × EntryState))
  deriving BEq, DecidableEq, Repr

namespace Slot

variable {α : Type}

def entries : Slot α → List (α × EntryState)
  | .vacant _ => []
  | .filled first rest => first :: rest

/-- The values of a slot, of whatever state. -/
def values (slot : Slot α) : List α :=
  slot.entries.map (·.1)

/-- The values of the entries that are not removed. -/
def liveValues (slot : Slot α) : List α :=
  (slot.entries.filter (·.2.isLive)).map (·.1)

/-- A slot whose entries all have one state. -/
def uniform (values : List α) (state : EntryState) : Slot α :=
  match values with
  | [] => .vacant state
  | value :: rest => .filled (value, state) (rest.map (·, state))

/-- A slot with the given entries; without any it counts as unchanged. -/
def ofEntries : List (α × EntryState) → Slot α
  | [] => .vacant .cached
  | first :: rest => .filled first rest

/-- Whether the whole slot is gone. -/
def isRemoved : Slot α → Bool
  | .vacant state => state == .removed
  | .filled first rest => (first :: rest).all (·.2 == .removed)

/-- The same values, all in one state. -/
def retagged (slot : Slot α) (state : EntryState) : Slot α :=
  uniform slot.values state

/-- The slot as the next pass finds it: without its removed entries, all others unchanged. -/
def compacted (slot : Slot α) : Slot α :=
  uniform slot.liveValues .cached

end Slot

end Regen
