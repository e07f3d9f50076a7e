import Regen.Pass.Basic

/-!
# Looking up tables and fed values

The tables of a pass and the values that wait for its leaves are association lists. Here is what a
look-up finds after each operation on them.
-/

namespace Regen

namespace PassTables

@[simp] theorem find?_empty (id : StageId) : empty.find? id = none := rfl

/-- A stored table is found; every other table stays. -/
theorem find?_insert (tables : PassTables) (info : StageInfo) (table : Table Value) (id : StageId) :
    (tables.insert info table).find? id = if info.id = id then some table else tables.find? id := by
  unfold find? insert
  induction tables.entries with
  | nil => by_cases h : info.id = id <;> simp [insertEntry, h]
  | cons entry rest ih =>
    unfold insertEntry
    by_cases he : entry.1.id = info.id
    · by_cases h : info.id = id
      · simp [he, h]
      · simp [he, h]
    · by_cases hi : entry.1.id = id
      · have hne : id ≠ info.id := fun h => he (hi.trans h)
        simp [hi, hne, hne.symm]
      · simpa [he, hi] using ih

theorem find?_insert_self (tables : PassTables) (info : StageInfo) (table : Table Value) :
    (tables.insert info table).find? info.id = some table := by
  rw [find?_insert, if_pos rfl]

theorem find?_insert_of_ne (tables : PassTables) {info : StageInfo} (table : Table Value)
    {id : StageId} (h : info.id ≠ id) : (tables.insert info table).find? id = tables.find? id := by
  rw [find?_insert, if_neg h]

/-- Compaction of the tables compacts each of them. -/
theorem find?_compact (tables : PassTables) (id : StageId) :
    tables.compact.find? id = (tables.find? id).map Table.compact := by
  unfold find? compact
  rw [List.find?_map]
  simp [Option.map_map, Function.comp_def]

theorem find?_compact_eq_some {tables : PassTables} {id : StageId} {table : Table Value}
    (h : tables.compact.find? id = some table) :
    ∃ current, tables.find? id = some current ∧ table = current.compact := by
  rw [find?_compact] at h
  obtain ⟨current, hf, rfl⟩ := Option.map_eq_some_iff.mp h
  exact ⟨current, hf, rfl⟩

/-- Every table of the first is one of the second. -/
def Within (tables others : PassTables) : Prop :=
  ∀ id table, tables.find? id = some table → others.find? id = some table

theorem Within.refl (tables : PassTables) : tables.Within tables :=
  fun _ _ h => h

theorem Within.trans {a b c : PassTables} (hab : a.Within b) (hbc : b.Within c) : a.Within c :=
  fun id table h => hbc id table (hab id table h)

theorem within_insert {tables : PassTables} {info : StageInfo} (h : tables.find? info.id = none)
    (table : Table Value) : tables.Within (tables.insert info table) := by
  intro id other ho
  have hne : info.id ≠ id := by
    rintro rfl
    rw [h] at ho
    cases ho
  rw [find?_insert_of_ne tables table hne]
  exact ho

end PassTables

namespace Pass

variable (pass : Pass)

theorem fed?_addInput (id other : StageId) (values : List Value) :
    (pass.addInput id values).fed? other = if id = other then some values else pass.fed? other := by
  unfold addInput fed?
  by_cases h : id = other
  · simp [h]
  · have hb : (id == other) = false := by simpa using h
    simp only [List.find?_cons, hb, if_neg h]
    rw [List.find?_filter]
    congr 2
    funext entry
    by_cases he : entry.1 = other
    · simp [he, Ne.symm h]
    · simp [he]

theorem fed?_consume_of_ne {id other : StageId} (h : id ≠ other) :
    (pass.consume id).fed? other = pass.fed? other := by
  unfold consume fed?
  rw [List.find?_filter]
  congr 2
  funext entry
  by_cases he : entry.1 = other
  · simp [he, Ne.symm h]
  · simp [he]

theorem fed?_consume_self (id : StageId) : (pass.consume id).fed? id = none := by
  simp [consume, fed?, List.find?_filter]

@[simp] theorem current_addInput (id : StageId) (values : List Value) :
    (pass.addInput id values).current = pass.current := rfl

@[simp] theorem previous_addInput (id : StageId) (values : List Value) :
    (pass.addInput id values).previous = pass.previous := rfl

@[simp] theorem current_consume (id : StageId) : (pass.consume id).current = pass.current := rfl

@[simp] theorem previous_consume (id : StageId) : (pass.consume id).previous = pass.previous := rfl

@[simp] theorem current_store (info : StageInfo) (table : Table Value) :
    (pass.store info table).current = pass.current.insert info table := rfl

@[simp] theorem previous_store (info : StageInfo) (table : Table Value) :
    (pass.store info table).previous = pass.previous := rfl

@[simp] theorem fed?_store (info : StageInfo) (table : Table Value) (id : StageId) :
    (pass.store info table).fed? id = pass.fed? id := rfl

end Pass

end Regen
