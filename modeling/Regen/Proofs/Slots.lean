import Mathlib.Data.List.Forall2
import Regen.Table.Builder

/-!
# Slots, live values and compaction

A slot is read through its entries. Compaction of a table keeps exactly the live values, in order,
and drops the slots that are wholly removed; a table that says that it is compacted must already
look like that.
-/

namespace Regen

variable {α : Type}

namespace Slot

@[simp] theorem entries_uniform (values : List α) (state : EntryState) :
    (uniform values state).entries = values.map (·, state) := by
  cases values <;> rfl

@[simp] theorem values_uniform (values : List α) (state : EntryState) :
    (uniform values state).values = values := by
  simp [Slot.values, Function.comp_def]

theorem liveValues_uniform {state : EntryState} (h : state ≠ .removed) (values : List α) :
    (uniform values state).liveValues = values := by
  simp [liveValues, EntryState.isLive, List.filter_map, h, Function.comp_def]

@[simp] theorem liveValues_uniform_removed (values : List α) :
    (uniform values .removed).liveValues = [] := by
  simp [liveValues, EntryState.isLive, List.filter_map]

@[simp] theorem isRemoved_uniform (values : List α) (state : EntryState) :
    (uniform values state).isRemoved = (state == .removed) := by
  cases values <;> cases state <;> simp [uniform, isRemoved]

@[simp] theorem entries_ofEntries (entries : List (α × EntryState)) :
    (ofEntries entries).entries = entries := by
  cases entries <;> rfl

theorem isRemoved_ofEntries (entries : List (α × EntryState)) :
    (ofEntries entries).isRemoved = true ↔ entries ≠ [] ∧ ∀ entry ∈ entries, entry.2 = .removed := by
  cases entries <;> simp [ofEntries, isRemoved]

/-- A slot that is gone has nothing to show. -/
theorem liveValues_eq_nil {slot : Slot α} (h : slot.isRemoved = true) : slot.liveValues = [] := by
  cases slot with
  | vacant state => rfl
  | filled first rest =>
    simp only [isRemoved, List.all_eq_true, beq_iff_eq] at h
    simp only [liveValues, entries, List.map_eq_nil_iff, List.filter_eq_nil_iff]
    intro entry he
    simp [EntryState.isLive, h entry he]

/-- A slot as a baseline holds it: all entries unchanged. -/
def Settled (slot : Slot α) : Prop :=
  slot = uniform slot.values .cached

theorem settled_uniform (values : List α) : (uniform values .cached).Settled := by
  simp [Settled]

theorem settled_compacted (slot : Slot α) : slot.compacted.Settled :=
  settled_uniform _

@[simp] theorem values_compacted (slot : Slot α) : slot.compacted.values = slot.liveValues := by
  simp [compacted]

namespace Settled

variable {slot : Slot α}

theorem liveValues_eq (h : slot.Settled) : slot.liveValues = slot.values := by
  rw [h, liveValues_uniform (by decide), values_uniform]

theorem isRemoved_eq (h : slot.Settled) : slot.isRemoved = false := by
  rw [h, isRemoved_uniform]
  rfl

theorem compacted_eq (h : slot.Settled) : slot.compacted = slot := by
  rw [compacted, h.liveValues_eq]
  exact h.symm

end Settled

end Slot

namespace Table

/-- The values of all entries, in slot order. -/
def values (table : Table α) : List α :=
  table.entries.map (·.1)

theorem values_eq_flatMap (table : Table α) : table.values = table.slots.flatMap Slot.values := by
  rw [values, entries, List.map_flatMap]
  rfl

theorem liveValues_eq_flatMap (table : Table α) :
    table.liveValues = table.slots.flatMap Slot.liveValues := by
  rw [liveValues, entries, List.filter_flatMap, List.map_flatMap]
  rfl

/-- A table that says that it is compacted is. -/
def Honest (table : Table α) : Prop :=
  table.isCompacted = true → ∀ slot ∈ table.slots, slot.Settled

theorem honest_empty : (empty : Table α).Honest := by
  simp [Honest, empty]

theorem honest_of_open {table : Table α} (h : table.isCompacted = false) : table.Honest := by
  intro hc
  rw [h] at hc
  cases hc

theorem honest_faulted (fault : Fault) : (faulted fault : Table α).Honest :=
  honest_of_open rfl

@[simp] theorem fault_compact (table : Table α) : table.compact.fault = table.fault := by
  unfold compact
  split <;> rfl

theorem isCompacted_compact (table : Table α) : table.compact.isCompacted = true := by
  unfold compact
  split
  · assumption
  · rfl

@[simp] theorem isFaulted_eq_false (table : Table α) :
    table.isFaulted = false ↔ table.fault = none := by
  simp [isFaulted]

/-- Nothing is dropped from slots that are settled. -/
theorem compacted_settled {slots : List (Slot α)} (h : ∀ slot ∈ slots, slot.Settled) :
    (slots.filter (!·.isRemoved)).map Slot.compacted = slots := by
  have hkeep : slots.filter (!·.isRemoved) = slots :=
    List.filter_eq_self.mpr fun slot hm => by simp [(h slot hm).isRemoved_eq]
  rw [hkeep]
  calc slots.map Slot.compacted = slots.map id :=
        List.map_congr_left fun slot hm => (h slot hm).compacted_eq
    _ = slots := List.map_id _

/-- Compaction drops the slots that are gone and the removed entries of the others. -/
theorem slots_compact {table : Table α} (h : table.Honest) :
    table.compact.slots = (table.slots.filter (!·.isRemoved)).map Slot.compacted := by
  unfold compact
  split
  · next hc => exact (compacted_settled (h hc)).symm
  · rfl

theorem slots_compact_settled {table : Table α} (h : ∀ slot ∈ table.slots, slot.Settled) :
    table.compact.slots = table.slots := by
  rw [slots_compact fun _ => h, compacted_settled h]

theorem settled_compact {table : Table α} (h : table.Honest) :
    ∀ slot ∈ table.compact.slots, slot.Settled := by
  rw [slots_compact h]
  intro slot hm
  obtain ⟨old, -, rfl⟩ := List.mem_map.mp hm
  exact old.settled_compacted

/-- Compaction keeps exactly the live values. -/
theorem values_compact {table : Table α} (h : table.Honest) :
    table.compact.values = table.liveValues := by
  rw [values_eq_flatMap, liveValues_eq_flatMap, slots_compact h, List.flatMap_map]
  induction table.slots with
  | nil => rfl
  | cons slot rest ih =>
    cases hr : slot.isRemoved with
    | true => simpa [hr, Slot.liveValues_eq_nil hr] using ih
    | false => simpa [hr] using ih

/-- In a settled table every entry is unchanged. -/
theorem entries_settled {table : Table α} (h : ∀ slot ∈ table.slots, slot.Settled) :
    table.entries = table.values.map (·, .cached) := by
  rw [values_eq_flatMap, List.map_flatMap, entries]
  refine List.flatMap_congr fun slot hm => ?_
  rw [h slot hm, Slot.entries_uniform, Slot.values_uniform]

/-- Compaction makes every live value an unchanged entry. -/
theorem entries_compact_live {table : Table α} (h : table.Honest) :
    table.compact.entries = table.liveValues.map (·, .cached) := by
  rw [entries_settled (settled_compact h), values_compact h]

theorem liveValues_settled {table : Table α} (h : ∀ slot ∈ table.slots, slot.Settled) :
    table.liveValues = table.values := by
  rw [liveValues_eq_flatMap, values_eq_flatMap]
  exact List.flatMap_congr fun slot hm => (h slot hm).liveValues_eq

theorem usable?_eq_some {previous : Option (Table α)} {table : Table α}
    (h : usable? previous = some table) : previous = some table ∧ table.fault = none := by
  unfold usable? at h
  obtain ⟨hp, hf⟩ := Option.filter_eq_some_iff.mp h
  exact ⟨hp, by simpa using hf⟩

theorem usable?_of_unfaulted {table : Table α} (h : table.fault = none) :
    usable? (some table) = some table := by
  simp [usable?, Option.filter, isFaulted, h]

end Table

end Regen
