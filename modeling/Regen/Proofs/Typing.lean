import Regen.Proofs.Baseline

/-!
# What the stages of a graph hold

Stages are typed, and here the values of all types are one type. A typing says which values a stage may
hold: a stage may hold whatever it makes of what its sources may hold. Whatever passes do, their tables
hold such values only, if the leaves are given such values. Nothing is asked of `==` on them; where a
result asks for more, it does so of the values of a typing.
-/

namespace Regen

variable {σ α β : Type}

theorem Table.mem_values_of_live {table : Table α} {value : α} (h : value ∈ table.liveValues) :
    value ∈ table.values :=
  List.map_subset _ (List.filter_subset_self _) h

/-- Compaction brings in no values. -/
theorem Table.mem_values_of_compact {table : Table α} {value : α}
    (h : value ∈ table.compact.values) : value ∈ table.values := by
  cases hc : table.isCompacted with
  | true =>
    rw [compact, if_pos hc] at h
    exact h
  | false =>
    rw [values_compact (honest_of_open hc)] at h
    exact mem_values_of_live h

/-- A stage that reads others holds values of its table before and what is made of live values. -/
theorem LaidBy.mem_values {makes : α → List β → Prop} {same : Comparer β} {copies : Bool}
    {previous : Option (Table β)} {entries : List (α × EntryState)} {table : Table β}
    (h : LaidBy makes same copies previous entries table) {kept : β} (hm : kept ∈ table.values) :
    (∃ old, previous = some old ∧ kept ∈ old.values) ∨
      ∃ value ∈ liveOf entries, ∃ new, makes value new ∧ kept ∈ new := by
  cases h with
  | @rows used left slots hused hrows =>
    rw [Table.values_eq_flatMap] at hm
    refine (hrows.mem_values hm).imp_left fun hold => ?_
    cases previous with
    | none =>
      obtain ⟨rfl, -⟩ := List.append_eq_nil_iff.mp hused.symm
      cases hold
    | some old =>
      refine ⟨old, rfl, ?_⟩
      rw [Table.values_eq_flatMap, show old.slots = used ++ left from hused, List.flatMap_append]
      exact List.mem_append_left _ hold
  | faulted => cases hm

/-- What a transform makes in one ambience is what some call of it makes. -/
theorem Stage.observed_of_sampled {sample : Ambient σ} {info : StageInfo} {transform : Transform σ}
    {value : Value} {new : List Value} (h : sampled sample info transform value new) :
    observed info transform value new := by
  change (((transform value).run Ambient.answer).result sample).mapError _ = .ok new at h
  cases hx : (transform value).run Ambient.answer sample with
  | ok made after =>
    rw [Act.result, hx] at h
    cases h
    exact ⟨sample, after, hx⟩
  | error why after =>
    rw [Act.result, hx] at h
    cases h

namespace StageGraph

/-- Which values the stages may hold. -/
structure Typing (graph : StageGraph σ) where
  Holds : StageId → Value → Prop
  made : ∀ {info source transform same value new}, graph.Has (.map info source transform same) →
    Holds source.id value → Stage.observed info transform value new →
    ∀ kept ∈ new, Holds info.id kept
  gathered : ∀ {info source values}, graph.Has (.collect info source) →
    (∀ value ∈ values, Holds source.id value) → Holds info.id (.list values)
  paired : ∀ {info left right value other}, graph.Has (.combine info left right) →
    Holds left.id value → Holds right.id other → Holds info.id (.pair value other)

namespace Typing

variable {graph : StageGraph σ} (typing : graph.Typing)

/-- All values in the tables of the graph are ones that their stages may hold. -/
def Covers (tables : PassTables) : Prop :=
  ∀ stage table, graph.Has stage → tables.find? stage.id = some table →
    ∀ value ∈ table.values, typing.Holds stage.id value

/-- Leaves are given values that they may hold. -/
def Admits (given : StageId → Option (Except Fault (List Value))) : Prop :=
  ∀ leaf values, graph.Has leaf → leaf.IsLeaf → given leaf.id = some (.ok values) →
    ∀ value ∈ values, typing.Holds leaf.id value

/-- What the stages that read others may hold their comparers accept beside itself. -/
def Reflexive : Prop :=
  ∀ stage value, graph.Has stage → ¬ stage.IsLeaf → typing.Holds stage.id value →
    stage.comparer value value = .ok true

variable {typing} {making : Making σ} {sample : Ambient σ}
  {given : StageId → Option (Except Fault (List Value))} {previous : PassTables} {pass : Pass}
  {stage : Stage σ} {table : Table Value}

theorem covers_empty : typing.Covers .empty := by
  intro stage table _ hf
  cases hf

/-- Finished tables hold what the tables held. -/
theorem Covers.compact {tables : PassTables} (h : typing.Covers tables) :
    typing.Covers tables.compact := by
  intro stage table hm hf value hv
  obtain ⟨made, hmade, rfl⟩ := PassTables.find?_compact_eq_some hf
  exact h stage made hm hmade value (Table.mem_values_of_compact hv)

theorem Covers.holds_old (h : typing.Covers previous) (hm : graph.Has stage) {value : Value}
    (hv : ∃ old, Table.usable? (previous.find? stage.id) = some old ∧ value ∈ old.values) :
    typing.Holds stage.id value := by
  obtain ⟨old, hu, hv⟩ := hv
  exact h stage old hm (Table.usable?_eq_some hu).1 value hv

theorem Covers.holds_oldValues (h : typing.Covers previous) (hm : graph.Has stage) :
    ∀ value ∈ previous.oldValues stage.id, typing.Holds stage.id value := by
  intro value hv
  unfold PassTables.oldValues at hv
  cases hu : Table.usable? (previous.find? stage.id) with
  | none =>
    rw [hu] at hv
    cases hv
  | some old =>
    rw [hu] at hv
    exact h.holds_old hm ⟨old, hu, hv⟩

theorem Covers.holds_live {tables : PassTables} (h : typing.Covers tables) (hm : graph.Has stage)
    (hf : tables.find? stage.id = some table) :
    ∀ value ∈ table.liveValues, typing.Holds stage.id value :=
  fun value hv => h stage table hm hf value (Table.mem_values_of_live hv)

/-- A stage that reads others makes what it may hold of what they may hold. -/
theorem holds_of_arises {current : PassTables} (hold : typing.Covers previous)
    (hmaking : ∀ info transform value new, making info transform value new →
      Stage.observed info transform value new)
    (hm : graph.Has stage) (hreads : ¬ stage.IsLeaf)
    (hsources : ∀ source ∈ stage.sources, ∀ sources, current.find? source.id = some sources →
      ∀ value ∈ sources.values, typing.Holds source.id value)
    (h : stage.ArisesBy making previous current table) :
    ∀ value ∈ table.values, typing.Holds stage.id value := by
  intro value hv
  cases h with
  | refused => exact (hreads trivial).elim
  | fed => exact (hreads trivial).elim
  | unfed => exact (hreads trivial).elim
  | mapFault => cases hv
  | @map info source transform same sources _ hfind _ hlaid =>
    rcases hlaid.mem_values hv with hkept | ⟨read, hread, new, hnew, hkept⟩
    · exact hold.holds_old hm hkept
    · have hread' := hsources source List.mem_cons_self sources hfind read
        (Table.mem_values_of_live hread)
      exact typing.made hm hread' (hmaking _ _ _ _ hnew) value hkept
  | collectFault => cases hv
  | @collect info source sources _ hfind _ hlaid =>
    rcases hlaid.mem_values hv with hkept | ⟨whole, hwhole, new, hnew, hkept⟩
    · exact hold.holds_old hm hkept
    · obtain ⟨entry, hentry, rfl⟩ := List.mem_map.mp hwhole
      obtain rfl := List.mem_singleton.mp (List.mem_of_mem_filter hentry)
      cases hnew
      obtain rfl := List.mem_singleton.mp hkept
      exact typing.gathered hm fun read hread =>
        hsources source List.mem_cons_self sources hfind read (Table.mem_values_of_live hread)
  | combineFault => cases hv
  | combineMany => cases hv
  | @combine info left right lefts rights other state _ hl hr _ _ hother hlaid =>
    rcases hlaid.mem_values hv with hkept | ⟨read, hread, new, hnew, hkept⟩
    · exact hold.holds_old hm hkept
    · cases hnew
      obtain rfl := List.mem_singleton.mp hkept
      have hlive : other ∈ rights.liveValues := by
        rw [Table.liveValues, hother]
        exact List.mem_cons_self
      exact typing.paired hm
        (hsources left List.mem_cons_self lefts hl read (Table.mem_values_of_live hread))
        (hsources right (List.mem_cons_of_mem _ List.mem_cons_self) rights hr other
          (Table.mem_values_of_live hlive))

/-- The tables of a lawful pass hold what their stages may hold if those of the leaves do. -/
theorem covers_of_lawful (hold : typing.Covers previous)
    (hmaking : ∀ info transform value new, making info transform value new →
      Stage.observed info transform value new)
    (hl : graph.LawfulBy making previous pass)
    (hleaf : ∀ leaf table, graph.Has leaf → leaf.IsLeaf →
      pass.current.find? leaf.id = some table → ∀ value ∈ table.values, typing.Holds leaf.id value) :
    typing.Covers pass.current := by
  intro stage table hm hf
  induction hn : stage.height using Nat.strongRecOn generalizing stage table with
  | ind height ih =>
    subst hn
    by_cases hreads : stage.IsLeaf
    · exact hleaf stage table hm hreads hf
    · exact holds_of_arises hold hmaking hm hreads
        (fun source hs sources hfind =>
          ih _ (Stage.height_lt hs) source sources (graph.has_source hm hs) hfind rfl)
        (hl.arises stage table hm hf)

/-- A fed leaf holds what it may hold if it is fed such values. -/
theorem Covers.holds_fed {info : StageInfo} {same : Comparer Value} {values : List Value}
    (hold : typing.Covers previous) (hm : graph.Has (.input info same))
    (hvalues : ∀ value ∈ values, typing.Holds info.id value)
    (hd : Table.diffInputs (Table.usable? (previous.find? info.id)) values same = .ok table) :
    ∀ value ∈ table.values, typing.Holds info.id value := by
  intro value hv
  rcases Table.diffInputs_mem hd hv with hkept | hfed
  · exact hold.holds_old hm hkept
  · exact hvalues value hfed

/-- A leaf that is not fed keeps what it held. -/
theorem Covers.holds_unfed {info : StageInfo} {same : Comparer Value} (hold : typing.Covers previous)
    (hm : graph.Has (.input info same)) :
    ∀ value ∈ (((Table.usable? (previous.find? info.id)).map Table.compact).getD .empty).values,
      typing.Holds info.id value := by
  intro value hv
  cases hu : Table.usable? (previous.find? info.id) with
  | none =>
    rw [hu] at hv
    cases hv
  | some old =>
    rw [hu] at hv
    exact hold.holds_old hm ⟨old, hu, Table.mem_values_of_compact hv⟩

/-- The tables of a sound pass hold what their stages may hold. -/
theorem covers_of_sound (hold : typing.Covers previous)
    (hgiven : typing.Admits given) (hs : graph.Sound sample given previous pass) :
    typing.Covers pass.current := by
  refine covers_of_lawful hold (fun _ _ _ _ => Stage.observed_of_sampled) hs.lawful ?_
  intro leaf table hm hl hf
  cases leaf with
  | input info same =>
    cases hs.yields _ table hm hf with
    | refused =>
      intro value hv
      cases hv
    | @fed _ _ values _ hg hd =>
      exact hold.holds_fed hm (hgiven _ values hm hl hg) (ok_of_mapError hd)
    | unfed => exact hold.holds_unfed hm
  | map => exact hl.elim
  | collect => exact hl.elim
  | combine => exact hl.elim
  | custom => exact hl.elim

end Typing

end StageGraph

end Regen
