import Regen.Proofs.SlotLayout

/-!
# Compaction

A table is made by calls on a builder, some of which copy from tables made before or compare with them.
However that was done, compaction keeps exactly the live entries, as unchanged ones, and drops the slots
that are gone. The same calls on the layouts in memory make the layouts of the same tables, so that no
state of an entry is ever read that is not there. A call that panics leaves its builder as it was. Tables
that are put together without a builder are left out.
-/

namespace Regen

variable {α T B : Type}

/-- One call. It is on the builder in progress or on a table made before, and the tables are known by
their place in the order in which they were made. -/
inductive TableStep (α : Type) where
  | addEntries (values : List α) (state : EntryState)
  | addEntriesFromPrevious (previous : Nat) (state : EntryState)
  | addModifiedEntries (previous : Nat) (values : List α) (same : Comparer α)
  | setFaulted (fault : Fault)
  /-- The builder makes its table, and a new one is begun. -/
  | build
  | compact (table : Nat)

/-- What the calls do to one kind of tables and builders. A call that panics makes no builder. -/
structure TableKit (α T B : Type) where
  noEntries : T
  begin : B
  addEntries : B → List α → EntryState → B
  addEntriesFromPrevious : B → T → EntryState → Option B
  addModifiedEntries : B → T → List α → Comparer α → Option B
  setFaulted : B → Fault → B
  build : B → T
  compact : T → T

/-- The tables made so far and the builder in progress. -/
structure Workshop (T B : Type) where
  tables : List T
  builder : B

/-- Go on with a builder, if there is one. -/
def Workshop.proceed (shop : Workshop T B) (made : Option B) : Workshop T B :=
  { shop with builder := made.getD shop.builder }

namespace TableKit

variable (kit : TableKit α T B)

def start : Workshop T B :=
  ⟨[kit.noEntries], kit.begin⟩

def perform (shop : Workshop T B) : TableStep α → Workshop T B
  | .addEntries values state => { shop with builder := kit.addEntries shop.builder values state }
  | .addEntriesFromPrevious previous state =>
    shop.proceed (shop.tables[previous]?.bind (kit.addEntriesFromPrevious shop.builder · state))
  | .addModifiedEntries previous values same =>
    shop.proceed
      (shop.tables[previous]?.bind (kit.addModifiedEntries shop.builder · values same))
  | .setFaulted fault => { shop with builder := kit.setFaulted shop.builder fault }
  | .build => ⟨shop.tables ++ [kit.build shop.builder], kit.begin⟩
  | .compact table => { shop with tables := shop.tables ++ (shop.tables[table]?.map kit.compact).toList }

def run (steps : List (TableStep α)) : Workshop T B :=
  steps.foldl kit.perform kit.start

/-- Tables and builders of slots. -/
def ofSlots : TableKit α (Table α) (TableBuilder α) where
  noEntries := .empty
  begin := .empty
  addEntries := .addEntries
  addEntriesFromPrevious builder previous state :=
    (builder.addEntriesFromPrevious previous state).toOption
  addModifiedEntries builder previous values same :=
    (builder.addModifiedEntries previous values same).toOption
  setFaulted := .setFaulted
  build := TableBuilder.build
  compact := .compact

/-- Tables and builders in memory. -/
def ofLayouts : TableKit α (TableLayout α) (BuilderLayout α) where
  noEntries := .empty
  begin := .empty
  addEntries := .addEntries
  addEntriesFromPrevious := BuilderLayout.addEntriesFromPrevious
  addModifiedEntries := BuilderLayout.addModifiedEntries
  setFaulted := .setFaulted
  build := BuilderLayout.build
  compact := .compact

end TableKit

namespace Workshop

open TableKit (ofSlots ofLayouts)

def layout (shop : Workshop (Table α) (TableBuilder α)) :
    Workshop (TableLayout α) (BuilderLayout α) :=
  ⟨shop.tables.map Table.layout, shop.builder.layout⟩

variable (shop : Workshop (Table α) (TableBuilder α))

/-- A call on the builder that refers to a table made before. -/
theorem layout_proceed (call : TableBuilder α → Table α → Option (TableBuilder α))
    (laidOut : BuilderLayout α → TableLayout α → Option (BuilderLayout α))
    (h : ∀ builder table, (call builder table).map TableBuilder.layout =
      laidOut builder.layout table.layout) (previous : Nat) :
    (shop.proceed (shop.tables[previous]?.bind (call shop.builder))).layout =
      shop.layout.proceed (shop.layout.tables[previous]?.bind (laidOut shop.layout.builder)) := by
  simp only [layout, proceed, List.getElem?_map]
  cases shop.tables[previous]? with
  | none => rfl
  | some table =>
    simp only [Option.bind_some, Option.map_some, ← h]
    cases call shop.builder table <;> rfl

/-- A call does to the layouts what it does to the slots. -/
theorem layout_perform (step : TableStep α) :
    (ofSlots.perform shop step).layout = ofLayouts.perform shop.layout step := by
  cases step with
  | addEntries values state =>
    exact congrArg (Workshop.mk _) (shop.builder.layout_addEntries values state)
  | addEntriesFromPrevious previous state =>
    exact shop.layout_proceed (ofSlots.addEntriesFromPrevious · · state)
      (ofLayouts.addEntriesFromPrevious · · state)
      (fun builder table => builder.layout_addEntriesFromPrevious table state) previous
  | addModifiedEntries previous values same =>
    exact shop.layout_proceed (ofSlots.addModifiedEntries · · values same)
      (ofLayouts.addModifiedEntries · · values same)
      (fun builder table => builder.layout_addModifiedEntries table values same) previous
  | setFaulted fault => rfl
  | build =>
    simp [layout, TableKit.perform, ofSlots, ofLayouts, TableBuilder.layout_build,
      TableBuilder.layout, TableBuilder.empty, BuilderLayout.empty]
  | compact table =>
    simp only [layout, TableKit.perform, List.map_append, List.getElem?_map]
    cases shop.tables[table]? with
    | none => rfl
    | some found => simp [ofSlots, ofLayouts, Table.layout_compact]

/-- The same calls make the same tables in memory. -/
theorem layout_run (steps : List (TableStep α)) :
    (ofSlots.run steps).layout = ofLayouts.run steps :=
  (List.foldl_hom layout (fun shop step => (shop.layout_perform step).symm)).symm

end Workshop

namespace Table

theorem honest_build (builder : TableBuilder α) : builder.build.Honest := by
  refine honest_of_open ?_
  unfold TableBuilder.build
  cases builder.fault <;> rfl

theorem honest_compact {table : Table α} (h : table.Honest) : table.compact.Honest :=
  fun _ => settled_compact h

/-- Every table that calls make is as compacted as it says. -/
theorem honest_run (steps : List (TableStep α)) :
    ∀ table ∈ (TableKit.ofSlots.run steps).tables, table.Honest := by
  unfold TableKit.run
  suffices h : ∀ shop : Workshop (Table α) (TableBuilder α), (∀ table ∈ shop.tables, table.Honest) →
      ∀ table ∈ (steps.foldl TableKit.ofSlots.perform shop).tables, table.Honest by
    refine h _ fun table hm => ?_
    cases List.mem_singleton.mp hm
    exact honest_empty
  induction steps with
  | nil => exact fun _ h => h
  | cons step rest ih =>
    intro shop hshop
    refine ih _ ?_
    cases step with
    | addEntries values state => exact hshop
    | addEntriesFromPrevious previous state => exact hshop
    | addModifiedEntries previous values same => exact hshop
    | setFaulted fault => exact hshop
    | build =>
      intro table hm
      rcases List.mem_append.mp hm with hm | hm
      · exact hshop table hm
      · cases List.mem_singleton.mp hm
        exact honest_build shop.builder
    | compact index =>
      intro table hm
      rcases List.mem_append.mp hm with hm | hm
      · exact hshop table hm
      · obtain ⟨found, hfound, rfl⟩ := Option.map_eq_some_iff.mp (Option.mem_toList.mp hm)
        exact honest_compact (hshop found (List.mem_of_getElem? hfound))

/-- A compacted table is compacted to itself, also when it is not known to be compacted. -/
theorem compact_reopened {table : Table α} (h : table.Honest) :
    { table.compact with isCompacted := false }.compact = table.compact := by
  have hslots := compacted_settled (settled_compact h)
  have hc := table.isCompacted_compact
  generalize table.compact = kept at hslots hc
  obtain ⟨slots, isCompacted, fault⟩ := kept
  subst hc
  exact congrArg (Table.mk · true fault) hslots

/-- Every entry is counted in its state. -/
theorem count_all (table : Table α) : table.count .added + table.count .modified +
    table.count .cached + table.count .removed = table.entries.length := by
  unfold count
  induction table.entries with
  | nil => rfl
  | cons entry rest ih =>
    obtain ⟨value, state⟩ := entry
    simp only [List.countP_cons, List.length_cons]
    cases state <;> simp <;> omega

/-- The entries that are not removed are the live ones. -/
theorem count_live (table : Table α) : table.count .added + table.count .modified +
    table.count .cached = table.liveValues.length := by
  unfold count liveValues
  rw [List.length_map, ← List.countP_eq_length_filter]
  induction table.entries with
  | nil => rfl
  | cons entry rest ih =>
    obtain ⟨value, state⟩ := entry
    simp only [List.countP_cons]
    cases state <;> simp [EntryState.isLive] at ih ⊢ <;> omega

end Table

/-- A slot is gone if all its entries are removed; without entries, if it was tagged so. -/
theorem Slot.isRemoved_iff (slot : Slot α) : slot.isRemoved = true ↔
    slot = .vacant .removed ∨ slot.entries ≠ [] ∧ ∀ entry ∈ slot.entries, entry.2 = .removed := by
  cases slot with
  | vacant state => simp [isRemoved, entries]
  | filled first rest => simp [isRemoved, entries]

namespace Table

/-- Whatever calls made a table: in memory it is what the same calls on layouts make, and the state of
every entry is there. Compaction keeps exactly the live entries in order, as unchanged ones. Its slots
are those that are not gone, in order and without their removed entries; a slot is gone if all its
entries are removed, and one without entries if it was tagged so. A fault stays. Compacting again changes
nothing, also when the table is not known to be compacted. The four counts make up all entries, and
those of the entries that are not removed all entries after compaction. -/
theorem compact_exact (steps : List (TableStep α)) :
    let made := TableKit.ofSlots.run steps
    let laidOut := TableKit.ofLayouts.run steps
    laidOut.tables = made.tables.map layout ∧
    (∀ table ∈ laidOut.tables, ∀ slot ∈ table.slots, ∀ index, index < slot.values.length →
      ∃ state, slot.stateAt? index = some state) ∧
    ∀ table ∈ made.tables,
      table.layout.read? = some table.entries ∧
      table.layout.compact = table.compact.layout ∧
      table.compact.entries = table.liveValues.map (·, .cached) ∧
      table.compact.slots = (table.slots.filter (!·.isRemoved)).map
        (fun slot => .uniform slot.liveValues .cached) ∧
      (∀ slot ∈ table.slots, slot.isRemoved = true ↔ slot = .vacant .removed ∨
        slot.entries ≠ [] ∧ ∀ entry ∈ slot.entries, entry.2 = .removed) ∧
      table.compact.fault = table.fault ∧
      { table.compact with isCompacted := false }.compact = table.compact ∧
      table.count .added + table.count .modified + table.count .cached + table.count .removed =
        table.entries.length ∧
      table.count .added + table.count .modified + table.count .cached =
        table.compact.entries.length := by
  intro made laidOut
  have hlayouts : laidOut.tables = made.tables.map layout :=
    congrArg Workshop.tables (Workshop.layout_run steps).symm
  refine ⟨hlayouts, fun laid hm => ?_, fun table hm => ?_⟩
  · rw [hlayouts] at hm
    obtain ⟨table, -, rfl⟩ := List.mem_map.mp hm
    intro kept hkept index hi
    obtain ⟨slot, -, rfl⟩ := List.mem_map.mp hkept
    rw [Slot.values_layout, Slot.values, List.length_map] at hi
    exact ⟨_, slot.stateAt?_layout hi⟩
  · have hhonest := honest_run steps table hm
    refine ⟨table.read?_layout, table.layout_compact.symm, entries_compact_live hhonest,
      slots_compact hhonest, fun slot _ => slot.isRemoved_iff, table.fault_compact,
      compact_reopened hhonest, table.count_all, ?_⟩
    rw [table.count_live, entries_compact_live hhonest, List.length_map]

/-- A slot of three values is recomputed to two of which one is another, the next slot is copied as
removed, and two slots without entries follow, of which one is gone. -/
def recomputing : List (TableStep Nat) :=
  [.addEntries [1, 2, 3] .added, .addEntries [4] .added, .build, .compact 1,
    .addModifiedEntries 2 [1, 9] .equality, .addEntriesFromPrevious 2 .removed,
    .addEntries [] .removed, .addEntries [] .cached, .build]

/-- Compaction keeps the two live entries of the first slot, and the slot without entries that is not
gone. In memory the states of the first slot are read one by one. -/
theorem compact_exact_recomputing : ∃ table ∈ (TableKit.ofSlots.run recomputing).tables,
    table.layout.slots = [⟨[1, 9, 3], .each [.cached, .modified, .removed]⟩,
      .uniform [4] .removed, .uniform [] .removed, .uniform [] .cached] ∧
    table.layout.read? = some [(1, .cached), (9, .modified), (3, .removed), (4, .removed)] ∧
    table.compact.entries = [(1, .cached), (9, .cached)] ∧
    table.compact.slots = [.uniform [1, 9] .cached, .vacant .cached] ∧
    { table.compact with isCompacted := false }.compact = table.compact := by
  obtain ⟨-, -, hexact⟩ := compact_exact recomputing
  let table : Table Nat := ⟨[.ofEntries [(1, .cached), (9, .modified), (3, .removed)],
    .uniform [4] .removed, .vacant .removed, .vacant .cached], false, none⟩
  have hm : table ∈ (TableKit.ofSlots.run recomputing).tables :=
    List.mem_of_getElem? (i := 3) rfl
  obtain ⟨hread, -, hentries, hslots, -, -, hagain, -, -⟩ := hexact table hm
  exact ⟨table, hm, rfl, hread, hentries, hslots, hagain⟩

end Table

end Regen
