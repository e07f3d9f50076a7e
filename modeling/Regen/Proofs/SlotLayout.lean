import Regen.Proofs.Slots

/-!
# How tables are laid out

In memory a slot is its values beside states: one state that all its entries share, or one for each
entry. The layout itself does not say that there are as many states as values, and one slot could be
laid out in several ways. Here every operation that makes or changes slots does to the layouts what it
does to the slots, so that a slot has one layout only and no state is read outside of it. Removal and
compaction look at the two kinds of states in different ways, and compaction only at slots that are not
gone. What a panic says is left out.
-/

namespace Regen

variable {α : Type}

/-- The states of the entries of one slot. -/
inductive SlotStates where
  /-- One state for all entries, and for the slot itself when it has none. -/
  | shared (state : EntryState)
  /-- One state for each entry. -/
  | each (states : List EntryState)
  deriving DecidableEq, Repr

/-- A slot in memory. -/
structure SlotLayout (α : Type) where
  values : List α
  states : SlotStates
  deriving DecidableEq, Repr

namespace SlotLayout

def uniform (values : List α) (state : EntryState) : SlotLayout α :=
  ⟨values, .shared state⟩

/-- Values with a state for each. States that all agree are kept as one. -/
def withStates (values : List α) : List EntryState → SlotLayout α
  | [] => ⟨values, .shared .cached⟩
  | first :: rest =>
    if rest.all (· == first) then ⟨values, .shared first⟩ else ⟨values, .each (first :: rest)⟩

/-- The state at an index; there is none outside of the states. -/
def stateAt? (slot : SlotLayout α) (index : Nat) : Option EntryState :=
  match slot.states with
  | .shared state => some state
  | .each states => states[index]?

/-- Values from an index on with the states that are read for them; nothing if one is not there. -/
def readFrom? (slot : SlotLayout α) : (index : Nat) → List α → Option (List (α × EntryState))
  | _, [] => some []
  | index, value :: rest => do
    let state ← slot.stateAt? index
    return (value, state) :: (← slot.readFrom? (index + 1) rest)

/-- All entries, each read at its index. -/
def read? (slot : SlotLayout α) : Option (List (α × EntryState)) :=
  slot.readFrom? 0 slot.values

def isRemoved (slot : SlotLayout α) : Bool :=
  match slot.states with
  | .shared state => state == .removed
  | .each states => states.all (· == .removed)

def retagged (slot : SlotLayout α) (state : EntryState) : SlotLayout α :=
  uniform slot.values state

/-- The slot for the next pass. A state that is shared is not looked at. -/
def compacted (slot : SlotLayout α) : SlotLayout α :=
  match slot.states with
  | .shared _ => slot.retagged .cached
  | .each states => uniform (((slot.values.zip states).filter (·.2.isLive)).map (·.1)) .cached

end SlotLayout

namespace Slot

/-- The one way in which a slot is laid out. -/
def layout : Slot α → SlotLayout α
  | .vacant state => .uniform [] state
  | .filled first rest =>
    .withStates (first.1 :: rest.map (·.1)) (first.2 :: rest.map (·.2))

@[simp] theorem values_layout (slot : Slot α) : slot.layout.values = slot.values := by
  cases slot with
  | vacant state => rfl
  | filled first rest =>
    simp only [layout, SlotLayout.withStates, values, entries, List.map_cons]
    split <;> rfl

theorem layout_uniform (values : List α) (state : EntryState) :
    (uniform values state).layout = .uniform values state := by
  cases values with
  | nil => rfl
  | cons value rest =>
    simp [uniform, layout, SlotLayout.withStates, SlotLayout.uniform, Function.comp_def]

theorem layout_ofEntries (entries : List (α × EntryState)) :
    (ofEntries entries).layout = .withStates (entries.map (·.1)) (entries.map (·.2)) := by
  cases entries <;> rfl

theorem layout_retagged (slot : Slot α) (state : EntryState) :
    (slot.retagged state).layout = slot.layout.retagged state := by
  rw [retagged, layout_uniform, SlotLayout.retagged, values_layout]

/-- States of their own are those of the entries, and a shared one is the state of each of them. -/
theorem states_layout (slot : Slot α) :
    (∃ state, slot = uniform slot.values state ∧ slot.layout.states = .shared state) ∨
      slot.entries ≠ [] ∧ slot.layout.states = .each (slot.entries.map (·.2)) := by
  cases slot with
  | vacant state => exact .inl ⟨state, rfl, rfl⟩
  | filled first rest =>
    obtain ⟨value, state⟩ := first
    simp only [layout, SlotLayout.withStates]
    split
    · next hall =>
      refine .inl ⟨state, ?_, rfl⟩
      have hsame : rest.map (fun entry => (entry.1, state)) = rest := by
        refine (List.map_congr_left fun entry hm => ?_).trans (List.map_id rest)
        simp only [List.all_map, List.all_eq_true, Function.comp_apply, beq_iff_eq] at hall
        rw [← hall entry hm]
        rfl
      simp only [values, entries, uniform, List.map_cons, List.map_map, Function.comp_def, hsame]
    · exact .inr ⟨List.cons_ne_nil _ _, rfl⟩

/-- The state that is read at an index is that of the entry there. -/
theorem stateAt?_layout (slot : Slot α) {index : Nat} (h : index < slot.entries.length) :
    slot.layout.stateAt? index = some slot.entries[index].2 := by
  unfold SlotLayout.stateAt?
  rcases slot.states_layout with ⟨state, hslot, hstates⟩ | ⟨-, hstates⟩ <;> rw [hstates]
  · have hentries : slot.entries = slot.values.map (·, state) := by
      rw [hslot, entries_uniform, values_uniform]
    simp [hentries]
  · simp [h]

theorem readFrom?_layout (slot : Slot α) (front back : List (α × EntryState))
    (h : slot.entries = front ++ back) :
    slot.layout.readFrom? front.length (back.map (·.1)) = some back := by
  induction back generalizing front with
  | nil => rfl
  | cons entry rest ih =>
    have hstate : slot.layout.stateAt? front.length = some entry.2 := by
      rw [slot.stateAt?_layout (by simp [h])]
      simp [h]
    have hrest := ih (front ++ [entry]) (by simp [h])
    rw [List.length_append, List.length_singleton] at hrest
    simp only [List.map_cons, SlotLayout.readFrom?, hstate, hrest]
    rfl

/-- No state is read outside of the states. -/
theorem read?_layout (slot : Slot α) : slot.layout.read? = some slot.entries := by
  rw [SlotLayout.read?, values_layout]
  exact slot.readFrom?_layout [] _ rfl

theorem isRemoved_layout (slot : Slot α) : slot.layout.isRemoved = slot.isRemoved := by
  unfold SlotLayout.isRemoved
  rcases slot.states_layout with ⟨state, hslot, hstates⟩ | ⟨hne, hstates⟩ <;> rw [hstates]
  · rw [hslot, isRemoved_uniform]
  · cases slot with
    | vacant state => exact absurd rfl hne
    | filled first rest => simp [isRemoved, entries, Function.comp_def]

/-- A slot that is not gone is compacted in the same way, whichever states it has. -/
theorem layout_compacted {slot : Slot α} (h : slot.isRemoved = false) :
    slot.compacted.layout = slot.layout.compacted := by
  rw [compacted, layout_uniform]
  unfold SlotLayout.compacted
  rcases slot.states_layout with ⟨state, hslot, hstates⟩ | ⟨-, hstates⟩ <;> rw [hstates]
  · have hlive : state ≠ .removed := by
      rintro rfl
      rw [hslot, isRemoved_uniform] at h
      cases h
    have hvalues : slot.liveValues = slot.values := by
      rw [hslot, liveValues_uniform hlive, values_uniform]
    rw [SlotLayout.retagged, values_layout, hvalues]
  · have hzip : slot.layout.values.zip (slot.entries.map (·.2)) = slot.entries := by
      rw [values_layout, values]
      exact (List.zip_of_prod rfl rfl).symm
    simp only [hzip]
    rfl

end Slot

/-- A table in memory. -/
structure TableLayout (α : Type) where
  slots : List (SlotLayout α)
  isCompacted : Bool
  fault : Option Fault
  deriving DecidableEq, Repr

namespace TableLayout

def empty : TableLayout α :=
  ⟨[], true, none⟩

/-- All entries in slot order; nothing if the state of one of them is not there. -/
def read? (table : TableLayout α) : Option (List (α × EntryState)) := do
  return (← table.slots.mapM SlotLayout.read?).flatten

def compact (table : TableLayout α) : TableLayout α :=
  if table.isCompacted then table
  else
    { table with
      slots := (table.slots.filter (!·.isRemoved)).map SlotLayout.compacted
      isCompacted := true }

end TableLayout

/-- A builder in memory. -/
structure BuilderLayout (α : Type) where
  slots : List (SlotLayout α)
  inserted : Nat
  fault : Option Fault
  deriving DecidableEq, Repr

namespace BuilderLayout

def empty : BuilderLayout α :=
  ⟨[], 0, none⟩

def push (builder : BuilderLayout α) (slot : SlotLayout α) : BuilderLayout α :=
  { builder with slots := builder.slots ++ [slot] }

def addEntries (builder : BuilderLayout α) (values : List α) (state : EntryState) :
    BuilderLayout α :=
  let inserted := if state = .added then builder.inserted + 1 else builder.inserted
  { builder with inserted }.push (.uniform values state)

/-- The slot before that is aligned with the next one; none where asking for it panics. -/
def aligned? (builder : BuilderLayout α) (previous : TableLayout α) : Option (SlotLayout α) :=
  previous.slots[builder.slots.length - builder.inserted]?

def addEntriesFromPrevious (builder : BuilderLayout α) (previous : TableLayout α)
    (state : EntryState) : Option (BuilderLayout α) := do
  let old ← builder.aligned? previous
  return builder.push (old.retagged state)

def addModifiedEntries (builder : BuilderLayout α) (previous : TableLayout α) (values : List α)
    (same : Comparer α) : Option (BuilderLayout α) := do
  let old ← builder.aligned? previous
  let entries ← (TableBuilder.recompute same values old.values).toOption
  return builder.push (.withStates (entries.map (·.1)) (entries.map (·.2)))

def setFaulted (builder : BuilderLayout α) (fault : Fault) : BuilderLayout α :=
  { builder with fault := some fault }

def build (builder : BuilderLayout α) : TableLayout α :=
  match builder.fault with
  | some fault => ⟨[], false, some fault⟩
  | none => ⟨builder.slots, false, none⟩

end BuilderLayout

namespace Table

def layout (table : Table α) : TableLayout α :=
  ⟨table.slots.map Slot.layout, table.isCompacted, table.fault⟩

theorem read?_layout (table : Table α) : table.layout.read? = some table.entries := by
  have hslots : table.layout.slots.mapM SlotLayout.read? = some (table.slots.map Slot.entries) := by
    rw [layout, List.mapM_map]
    exact (congrArg (table.slots.mapM ·) (funext Slot.read?_layout)).trans List.mapM_pure
  rw [TableLayout.read?, hslots]
  rfl

theorem layout_compact (table : Table α) : table.compact.layout = table.layout.compact := by
  unfold compact TableLayout.compact
  cases hc : table.isCompacted with
  | true => simp [layout, hc]
  | false =>
    have hkept : (table.slots.map Slot.layout).filter (!·.isRemoved) =
        (table.slots.filter (!·.isRemoved)).map Slot.layout := by
      rw [List.filter_map]
      simp only [Function.comp_def, Slot.isRemoved_layout]
    have hslots : ((table.slots.filter (!·.isRemoved)).map Slot.compacted).map Slot.layout =
        ((table.slots.filter (!·.isRemoved)).map Slot.layout).map SlotLayout.compacted := by
      rw [List.map_map, List.map_map]
      refine List.map_congr_left fun slot hm => Slot.layout_compacted ?_
      simpa using (List.mem_filter.mp hm).2
    simp [layout, hc, hkept, hslots]

end Table

namespace TableBuilder

def layout (builder : TableBuilder α) : BuilderLayout α :=
  ⟨builder.slots.map Slot.layout, builder.inserted, builder.fault⟩

theorem layout_push (builder : TableBuilder α) (slot : Slot α) :
    (builder.push slot).layout = builder.layout.push slot.layout := by
  simp [layout, push, BuilderLayout.push]

theorem layout_addEntries (builder : TableBuilder α) (values : List α) (state : EntryState) :
    (builder.addEntries values state).layout = builder.layout.addEntries values state := by
  rw [addEntries, layout_push, Slot.layout_uniform]
  rfl

/-- The aligned slots are the same. -/
theorem aligned?_layout (builder : TableBuilder α) (previous : Table α) :
    builder.layout.aligned? previous.layout =
      ((previous.slotAt builder.previousIndex).toOption).map Slot.layout := by
  unfold BuilderLayout.aligned? Table.slotAt layout Table.layout previousIndex
  rw [List.length_map, List.getElem?_map]
  cases previous.slots[builder.slots.length - builder.inserted]? <;> rfl

theorem layout_addEntriesFromPrevious (builder : TableBuilder α) (previous : Table α)
    (state : EntryState) :
    (builder.addEntriesFromPrevious previous state).toOption.map layout =
      builder.layout.addEntriesFromPrevious previous.layout state := by
  unfold addEntriesFromPrevious BuilderLayout.addEntriesFromPrevious
  rw [aligned?_layout]
  cases previous.slotAt builder.previousIndex with
  | error panic => rfl
  | ok old =>
    change some (builder.push (old.retagged state)).layout =
      some (builder.layout.push (old.layout.retagged state))
    rw [layout_push, Slot.layout_retagged]

theorem layout_addModifiedEntries (builder : TableBuilder α) (previous : Table α)
    (values : List α) (same : Comparer α) :
    (builder.addModifiedEntries previous values same).toOption.map layout =
      builder.layout.addModifiedEntries previous.layout values same := by
  unfold addModifiedEntries BuilderLayout.addModifiedEntries
  rw [aligned?_layout]
  cases previous.slotAt builder.previousIndex with
  | error panic => rfl
  | ok old =>
    simp only [bind, Except.bind, Except.toOption, Option.map_some, Option.bind_some,
      Slot.values_layout]
    cases recompute same values old.values with
    | error panic => rfl
    | ok entries =>
      change some (builder.push (.ofEntries entries)).layout =
        some (builder.layout.push (.withStates (entries.map (·.1)) (entries.map (·.2))))
      rw [layout_push, Slot.layout_ofEntries]

theorem layout_build (builder : TableBuilder α) : builder.build.layout = builder.layout.build := by
  unfold build BuilderLayout.build layout
  cases builder.fault <;> rfl

end TableBuilder

end Regen
