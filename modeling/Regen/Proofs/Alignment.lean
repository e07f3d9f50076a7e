import Regen.Proofs.Baseline

/-!
# Baselines in step

A finished pass leaves a baseline for the next one. The baseline is in step when every stage that
makes a slot for each entry of its source still has as many slots as its source has entries. In step
no pull stops. A pass leaves its baseline in step unless it vacates a slot: a modified entry of a
source from which a transform makes nothing any more loses the slot that showed values before.
-/

namespace Regen

variable {σ : Type}

/-- The source whose entries the slots of a stage stand for, one for one. -/
def Stage.rowSource? : Stage σ → Option (Stage σ)
  | .map _ source .. => some source
  | .combine _ left _ => some left
  | _ => none

namespace StageGraph

variable (graph : StageGraph σ) (sample : Ambient σ)

/-- Every unfaulted table has one slot for each entry of the source that its slots stand for. -/
def InStep (tables : PassTables) : Prop :=
  ∀ stage source table, graph.Has stage → stage.rowSource? = some source →
    tables.find? stage.id = some table → table.fault = none →
      ∃ sources, tables.find? source.id = some sources ∧
        table.slots.length = sources.entries.length

/-- In some unfaulted table of the pass a modified entry of the source is recomputed to nothing,
while its slot shows that there was something before. -/
def Vacates (current : PassTables) : Prop :=
  ∃ info source transform same sources table value slot,
    graph.Has (.map info source transform same) ∧ current.find? source.id = some sources ∧
      current.find? info.id = some table ∧ table.fault = none ∧
      ((value, .modified), slot) ∈ sources.entries.zip table.slots ∧ slot.entries ≠ [] ∧
      Stage.image info transform sample value = .ok []

variable {graph sample}
variable {given : StageId → Option (Except Fault (List Value))} {previous : PassTables}
  {pass : Pass} {stage source : Stage σ} {table : Table Value}

theorem inStep_empty : graph.InStep .empty := by
  intro stage source table _ _ hf
  cases hf

/-- How the slots of a finished table count against the entries of its finished source. -/
theorem length_finished_iff {sources : Table Value} {R : Value → List Value → Prop}
    (ht : table.Honest) (hs : sources.Honest)
    (h : List.Forall₂ (Stands R) sources.entries table.slots) :
    table.compact.slots.length = sources.compact.entries.length ↔
      ∀ row ∈ sources.entries.zip table.slots, row.1.2.isLive = true → row.2.isRemoved = false := by
  have hslots : table.compact.slots.length = (compactedValues table.slots).length := by
    rw [Table.slots_compact ht, List.length_map, length_compactedValues]
  have hentries : sources.compact.entries.length = (liveOf sources.entries).length := by
    rw [Table.entries_settled (Table.settled_compact hs), List.length_map, Table.values_compact hs]
    rfl
  rw [hslots, hentries]
  exact length_compacted_iff h

/-- The slots that stand for the entries of a source rest on its values. -/
theorem rests_row (h : stage.Rests sample previous table) (hrow : stage.rowSource? = some source) :
    ∃ sources R, previous.find? source.id = some sources ∧ sources.fault = none ∧
      Fits R sources.values (table.slots.map Slot.values) := by
  cases stage with
  | input info same => cases hrow
  | map info inner transform same =>
    cases hrow
    obtain ⟨sources, hf, hn, hfits⟩ := h
    exact ⟨sources, _, hf, hn, hfits⟩
  | collect info inner => cases hrow
  | combine info left right =>
    cases hrow
    obtain ⟨lefts, rights, value, hf, hn, -, -, -, hfits⟩ := h
    exact ⟨lefts, _, hf, hn, hfits⟩
  | custom info update => cases hrow

theorem inLine_row {current : PassTables} (h : stage.InLine sample current table)
    (hrow : stage.rowSource? = some source) :
    ∃ sources R, current.find? source.id = some sources ∧ sources.fault = none ∧
      List.Forall₂ (Stands R) sources.entries table.slots := by
  cases stage with
  | input info same => cases hrow
  | map info inner transform same =>
    cases hrow
    obtain ⟨sources, hf, hn, hstands⟩ := h
    exact ⟨sources, _, hf, hn, hstands⟩
  | collect info inner => cases hrow
  | combine info left right =>
    cases hrow
    obtain ⟨lefts, rights, value, hf, hn, -, -, -, hstands⟩ := h
    exact ⟨lefts, _, hf, hn, hstands⟩
  | custom info update => cases hrow

/-- Slots that fit the values of a source are as many when none of them was lost. -/
theorem length_of_fits {sources : Table Value} {R : Value → List Value → Prop}
    (h : Fits R sources.values (table.slots.map Slot.values)) (hne : ∀ value, ¬ R value []) :
    table.slots.length = sources.entries.length := by
  have hlen := (h.forall₂_of_ne_nil fun value _ => hne value).length_eq
  rw [Table.values, List.length_map, List.length_map] at hlen
  exact hlen.symm

/-- Where something is made of every value no slot is ever lost. -/
theorem Baseline.inStep (hb : graph.Baseline sample previous) (hp : graph.Productive) :
    graph.InStep previous := by
  intro stage source table hm hrow hf hn
  have hrests := hb.rests stage table hm hf hn
  cases stage with
  | input info same => cases hrow
  | map info inner transform same =>
    cases hrow
    obtain ⟨sources, hsource, -, hfits⟩ := hrests
    refine ⟨sources, hsource, length_of_fits hfits fun value hmade => ?_⟩
    obtain ⟨made, hi, hkept⟩ := hmade
    cases hkept
    exact hp.image_ne hm sample value hi
  | collect info inner => cases hrow
  | combine info left right =>
    cases hrow
    obtain ⟨lefts, rights, value, hl, -, -, -, -, hfits⟩ := hrests
    refine ⟨lefts, hl, length_of_fits hfits fun left hmade => ?_⟩
    obtain ⟨made, hi, hkept⟩ := hmade
    cases hkept
    cases hi
  | custom info update => cases hrow

/-- In step, a stage has a slot for every entry of its source that was there before. -/
theorem InStep.oldCount_eq {making : Making σ} (h : graph.InStep previous) (hg : graph.Builtin)
    (hb : graph.BaselineBy making previous) (hl : graph.LawfulBy making previous pass)
    (hm : graph.Has stage) (hrow : stage.rowSource? = some source) {sources old : Table Value}
    (hf : pass.current.find? source.id = some sources) (hn : sources.fault = none)
    (hu : Table.usable? (previous.find? stage.id) = some old) :
    oldCount sources.entries = old.slots.length := by
  have hs : source ∈ stage.sources := by
    cases stage <;> cases hrow <;> exact List.mem_cons_self
  obtain ⟨hold, holdn⟩ := Table.usable?_eq_some hu
  obtain ⟨before, hbefore, hlen⟩ := h stage source old hm hrow hold holdn
  obtain ⟨found, hfound, hbn⟩ := hb.unfaulted_source hm hs hold holdn
  rw [hbefore] at hfound
  cases hfound
  have hscript := (known_of_lawful hg hb hl source (graph.has_source hm hs) sources hf hn).script
  rw [PassTables.oldValues_eq hbefore hbn] at hscript
  rw [hscript.oldCount_eq, hlen, Table.values, List.length_map]

/-- In step, the entries of a source always find their slots. -/
theorem InStep.not_outOfStep {making : Making σ} (h : graph.InStep previous) (hg : graph.Builtin)
    (hb : graph.BaselineBy making previous) (hl : graph.LawfulBy making previous pass)
    (hm : graph.Has stage) (hrow : stage.rowSource? = some source) {sources : Table Value}
    (hf : pass.current.find? source.id = some sources) (hn : sources.fault = none)
    {image : Value → Except Fault (List Value)} {same : Comparer Value} {copies : Bool}
    {why : Stop} :
    ¬ Formed image same copies (Table.usable? (previous.find? stage.id)) sources.entries
      (.error why) := by
  cases hu : Table.usable? (previous.find? stage.id) with
  | none => exact Formed.not_error_fresh
  | some old => exact Formed.not_error (h.oldCount_eq hg hb hl hm hrow hf hn hu)

/-- The one slot of a collecting stage is never lost. -/
theorem BaselineBy.collect_not_outOfStep {making : Making σ} (hb : graph.BaselineBy making previous)
    {info : StageInfo} (hm : graph.Has (.collect info source)) {sources : Table Value} {why : Stop} :
    ¬ Formed Stage.gathered Comparer.equality true (Table.usable? (previous.find? info.id))
      [(Value.list sources.liveValues,
        Stage.collectState (Table.usable? (previous.find? info.id)) sources)] (.error why) := by
  rcases hb.usable_cases hm with ⟨hu, -⟩ | ⟨old, hu, -, -, _, _, -, -, hslots, -⟩
  · rw [show Table.usable? (previous.find? info.id) = none from hu]
    exact Formed.not_error_fresh
  · rw [show Table.usable? (previous.find? info.id) = some old from hu]
    have hone : old.slots.length = 1 := by
      have hlen := congrArg List.length hslots
      rwa [List.length_map] at hlen
    refine Formed.not_error ?_
    rw [hone, oldCount_cons, if_neg]
    · rfl
    · unfold Stage.collectState
      rw [Option.isNone_some, if_neg Bool.false_ne_true]
      split <;> decide

/-- In step, no stage is stuck. -/
theorem InStep.not_stuck (h : graph.InStep previous) (hg : graph.Regular)
    (hb : graph.Baseline sample previous) (hs : graph.Sound sample given previous pass)
    (hm : graph.Has stage) (why : Stop) :
    ¬ stage.Yields sample given previous pass.current (.error why) := by
  intro hy
  cases hy with
  | @fed info same values _ hgiven hd =>
    obtain ⟨table, hok⟩ :=
      Table.diffInputs_total (hg _ hm) (Table.usable? (previous.find? info.id)) values
    rw [hok] at hd
    cases hd
  | map hf hn hformed =>
    exact h.not_outOfStep hg.builtin hb hs.lawful hm rfl hf hn hformed
  | collect hf hn hformed => exact hb.collect_not_outOfStep hm hformed
  | combine hl hr hln hrn hvalue hformed =>
    exact h.not_outOfStep hg.builtin hb hs.lawful hm rfl hl hln hformed

/-- A live entry that lost its slot is a modified one of which a transform makes nothing. -/
theorem vacates_of_isRemoved (hs : graph.Sound sample given previous pass) (hm : graph.Has stage)
    (hrow : stage.rowSource? = some source) (hf : pass.current.find? stage.id = some table)
    (hn : table.fault = none) {sources : Table Value}
    (hsource : pass.current.find? source.id = some sources)
    {row : (Value × EntryState) × Slot Value} (hmem : row ∈ sources.entries.zip table.slots)
    (hl : row.1.2.isLive = true) (hgone : row.2.isRemoved = true) :
    graph.Vacates sample pass.current := by
  cases hs.yields stage table hm hf with
  | @map info inner transform same found _ hfound _ hformed =>
    cases hrow
    rw [hsource] at hfound
    cases hfound
    obtain ⟨hstate | ⟨-, hc⟩, hi, hentries⟩ := (hformed.isRemoved_iff hn row hmem hl).mp hgone
    · obtain ⟨⟨value, state⟩, slot⟩ := row
      cases hstate
      exact ⟨info, _, transform, same, sources, table, value, slot, hm, hsource, hf, hn, hmem,
        hentries, hi⟩
    · cases hc
  | combine hl' _ _ _ _ hformed =>
    cases hrow
    rw [hsource] at hl'
    cases hl'
    obtain ⟨-, hi, -⟩ := (hformed.isRemoved_iff hn row hmem hl).mp hgone
    cases hi
  | mapFault => cases hn
  | combineFault => cases hn
  | combineMany => cases hn
  | refused => cases hrow
  | fed => cases hrow
  | unfed => cases hrow
  | collectFault => cases hrow
  | collect => cases hrow

/-- A vacated slot is gone although the entry behind it is live. -/
theorem isRemoved_of_vacated (hs : graph.Sound sample given previous pass) {info : StageInfo}
    {transform : Transform σ} {same : Comparer Value}
    (hm : graph.Has (.map info source transform same))
    (hf : pass.current.find? info.id = some table) (hn : table.fault = none)
    {sources : Table Value} (hsource : pass.current.find? source.id = some sources)
    {value : Value} {slot : Slot Value}
    (hrow : ((value, .modified), slot) ∈ sources.entries.zip table.slots)
    (hentries : slot.entries ≠ []) (hi : Stage.image info transform sample value = .ok []) :
    slot.isRemoved = true := by
  cases hs.yields _ _ hm hf with
  | mapFault => cases hn
  | map hfound _ hformed =>
    rw [hsource] at hfound
    cases hfound
    exact (hformed.isRemoved_iff hn _ hrow rfl).mpr ⟨.inl rfl, hi, hentries⟩

/-- A pass leaves its tables in step unless it vacates a slot. -/
theorem inStep_finish_iff (hg : graph.Regular) (hb : graph.Baseline sample previous)
    (hs : graph.Sound sample given previous pass) :
    graph.InStep pass.current.compact ↔ ¬ graph.Vacates sample pass.current := by
  constructor
  · rintro hstep ⟨info, source, transform, same, sources, table, value, slot, hm, hsource, hf, hn,
      hrow, hentries, hi⟩
    obtain ⟨hfind, hfn⟩ := find?_finished pass.current hf hn
    obtain ⟨finished, hfinished, hlen⟩ := hstep _ source _ hm rfl hfind hfn
    obtain ⟨t, ht, htn, hstands⟩ := (known_of_sound hg hb hs _ hm table hf hn).inLine
    rw [hsource] at ht
    cases ht
    rw [(find?_finished pass.current hsource htn).1] at hfinished
    cases hfinished
    have hkept := (length_finished_iff (hs.lawful.honest hg.builtin hb hm hf)
      (hs.lawful.honest hg.builtin hb (graph.has_source hm List.mem_cons_self) hsource) hstands).mp hlen _ hrow rfl
    have hgone := isRemoved_of_vacated hs hm hf hn hsource hrow hentries hi
    rw [hkept] at hgone
    cases hgone
  · intro hvacates stage source table hm hrow hf hn
    obtain ⟨made, hmade, rfl⟩ := PassTables.find?_compact_eq_some hf
    rw [Table.fault_compact] at hn
    obtain ⟨sources, R, hsource, hsn, hstands⟩ :=
      inLine_row (known_of_sound hg hb hs stage hm made hmade hn).inLine hrow
    have hsource' : graph.Has source := by
      cases stage <;> cases hrow <;> exact graph.has_source hm List.mem_cons_self
    refine ⟨sources.compact, (find?_finished pass.current hsource hsn).1,
      (length_finished_iff (hs.lawful.honest hg.builtin hb hm hmade) (hs.lawful.honest hg.builtin hb hsource' hsource)
        hstands).mpr fun row hmem hl => ?_⟩
    cases hgone : row.2.isRemoved with
    | false => rfl
    | true => exact absurd (vacates_of_isRemoved hs hm hrow hmade hn hsource hmem hl hgone) hvacates

/-- A stage that is stuck is out of step. -/
theorem outOfStep_of_stuck (hg : graph.Regular) (hm : graph.Has stage) {why : Stop}
    (hy : stage.Yields sample given previous pass.current (.error why)) :
    ∃ slots index, why = .panicked (.outOfStep slots index) := by
  cases hy with
  | @fed info same values _ hgiven hd =>
    obtain ⟨table, hok⟩ :=
      Table.diffInputs_total (hg _ hm) (Table.usable? (previous.find? info.id)) values
    rw [hok] at hd
    cases hd
  | map _ _ hformed => exact hformed.outOfStep_of_error
  | collect _ _ hformed => exact hformed.outOfStep_of_error
  | combine _ _ _ _ _ hformed => exact hformed.outOfStep_of_error

/-- A stage that gets an unfaulted table beside an unfaulted baseline is in step there. -/
theorem inStep_of_unfaulted (hg : graph.Regular) (hb : graph.Baseline sample previous)
    (hs : graph.Sound sample given previous pass) (hm : graph.Has stage)
    (hrow : stage.rowSource? = some source) (hf : pass.current.find? stage.id = some table)
    (hn : table.fault = none) {old before : Table Value}
    (hold : previous.find? stage.id = some old) (holdn : old.fault = none)
    (hbefore : previous.find? source.id = some before) :
    old.slots.length = before.entries.length := by
  have hu := Table.usable?_of_unfaulted holdn
  obtain ⟨before', R, hbefore', hbn, hfits⟩ := rests_row (hb.rests stage old hm hold holdn) hrow
  rw [hbefore] at hbefore'
  cases hbefore'
  have hlen : before.entries.length = before.values.length := (List.length_map _).symm
  have script : ∀ sources, pass.current.find? source.id = some sources → sources.fault = none →
      graph.Has source → EditScript source.comparer before.values sources.entries := by
    intro sources hsource hsn hhas
    rw [← PassTables.oldValues_eq hbefore hbn]
    exact (known_of_sound hg hb hs source hhas sources hsource hsn).script
  rw [hlen]
  cases hs.yields stage table hm hf with
  | @map info inner transform same found _ hfound hfn hformed =>
    cases hrow
    rw [show previous.find? info.id = some old from hold, hu] at hformed
    exact (hformed.laid.rows_of_fits hn
      (script found hfound hfn (graph.has_source hm List.mem_cons_self)) hfits).2
  | @combine info left right lefts rights _ _ _ hfound _ hfn _ _ hformed =>
    cases hrow
    rw [show previous.find? info.id = some old from hold, hu] at hformed
    exact (hformed.laid.rows_of_fits hn
      (script lefts hfound hfn (graph.has_source hm List.mem_cons_self)) hfits).2
  | mapFault => cases hn
  | combineFault => cases hn
  | combineMany => cases hn
  | refused => cases hrow
  | fed => cases hrow
  | unfed => cases hrow
  | collectFault => cases hrow
  | collect => cases hrow

/-- An unfaulted baseline of a stage is found again in a pass, with nothing changed. -/
def Unchanged (previous current : PassTables) (stage : Stage σ) : Prop :=
  ∀ old table, previous.find? stage.id = some old → old.fault = none →
    current.find? stage.id = some table →
      table.fault = none ∧ ∀ entry ∈ table.entries, entry.2 = .cached

theorem unchanged_leaf {info : StageInfo} {same : Comparer Value}
    (hb : graph.Baseline sample previous) (hm : graph.Has (.input info same))
    (hs : graph.Sound sample (fun _ => none) previous pass) :
    Unchanged previous pass.current (.input info same : Stage σ) := by
  intro old table hold holdn hf
  have hu := Table.usable?_of_unfaulted holdn
  cases hs.yields _ table hm hf with
  | refused hgiven => cases hgiven
  | fed hgiven => cases hgiven
  | unfed =>
    rw [show previous.find? info.id = some old from hold, hu, Option.map_some, Option.getD_some,
      Table.fault_compact]
    have hsettled := hb.settled _ old hm hold
    rw [← Table.slots_compact_settled hsettled] at hsettled
    refine ⟨holdn, fun entry he => ?_⟩
    rw [Table.entries_settled hsettled] at he
    obtain ⟨value, -, rfl⟩ := List.mem_map.mp he
    rfl

theorem unchanged_map {info : StageInfo} {source : Stage σ} {transform : Transform σ}
    {same : Comparer Value} (hg : graph.Regular) (hb : graph.Baseline sample previous)
    (hm : graph.Has (.map info source transform same))
    (hs : graph.Sound sample given previous pass)
    (hsource : Unchanged previous pass.current source) :
    Unchanged previous pass.current (.map info source transform same) := by
  intro old table hold holdn hf
  obtain ⟨before, hbefore, hbn, hfits⟩ := hb.rests _ old hm hold holdn
  cases hs.yields _ table hm hf with
  | mapFault hfound hfault =>
    rw [(hsource before _ hbefore hbn hfound).1] at hfault
    cases hfault
  | @map _ _ _ _ found _ hfound hfn hformed =>
    obtain ⟨-, hcached⟩ := hsource before found hbefore hbn hfound
    rw [show previous.find? info.id = some old from hold, Table.usable?_of_unfaulted holdn]
      at hformed
    have hscript := (known_of_sound hg hb hs source (graph.has_source hm List.mem_cons_self)
      found hfound hfn).script
    rw [PassTables.oldValues_eq hbefore hbn] at hscript
    refine ⟨hformed.unfaulted fun entry he => ?_, hformed.laid.unchanged hcached⟩
    obtain ⟨value, state⟩ := entry
    obtain rfl : state = .cached := hcached _ he
    obtain ⟨kept, made, hi, -⟩ := hfits.exists_of_mem (hscript.mem_of_cached he)
    exact ⟨made, hi⟩

theorem unchanged_collect {info : StageInfo} {source : Stage σ}
    (hb : graph.Baseline sample previous) (hm : graph.Has (.collect info source))
    (hs : graph.Sound sample given previous pass)
    (hsource : Unchanged previous pass.current source) :
    Unchanged previous pass.current (.collect info source) := by
  intro old table hold holdn hf
  obtain ⟨before, -, hbefore, hbn, -⟩ := hb.rests _ old hm hold holdn
  cases hs.yields _ table hm hf with
  | collectFault hfound hfault =>
    rw [(hsource before _ hbefore hbn hfound).1] at hfault
    cases hfault
  | @collect _ _ found _ hfound hfn hformed =>
    obtain ⟨-, hcached⟩ := hsource before found hbefore hbn hfound
    rw [show previous.find? info.id = some old from hold, Table.usable?_of_unfaulted holdn]
      at hformed
    refine ⟨hformed.unfaulted fun entry _ => ⟨_, rfl⟩, hformed.laid.unchanged fun entry he => ?_⟩
    have hall : found.entries.all (·.2 == .cached) = true :=
      List.all_eq_true.mpr fun e hmem => by simp [hcached e hmem]
    rw [List.mem_singleton.mp he]
    simp [Stage.collectState, hall]

theorem unchanged_combine {info : StageInfo} {left right : Stage σ} (hg : graph.Regular)
    (hb : graph.Baseline sample previous) (hm : graph.Has (.combine info left right))
    (hs : graph.Sound sample given previous pass)
    (hleft : Unchanged previous pass.current left)
    (hright : Unchanged previous pass.current right) :
    Unchanged previous pass.current (.combine info left right) := by
  intro old table hold holdn hf
  obtain ⟨lefts', rights', value', hl', hln', hr', hrn', hvalue', -⟩ :=
    hb.rests _ old hm hold holdn
  cases hs.yields _ table hm hf with
  | combineFault hl hr hfault =>
    rw [(hleft lefts' _ hl' hln' hl).1, (hright rights' _ hr' hrn' hr).1] at hfault
    cases hfault
  | @combineMany _ _ _ lefts rights hl hr hln hrn hmany =>
    have hhas := graph.has_source hm (List.mem_cons_of_mem _ List.mem_cons_self)
    have hscript := (known_of_sound hg hb hs right hhas rights hr hrn).script
    rw [PassTables.oldValues_eq hr' hrn', hvalue'] at hscript
    have hlive : rights.liveValues = [value'] := by
      rw [show rights.liveValues = liveOf rights.entries from rfl,
        hscript.eq_of_all_cached (hright rights' rights hr' hrn' hr).2, liveOf_cached]
    rw [hlive] at hmany
    exact absurd rfl hmany
  | @combine _ _ _ lefts rights value state _ hl hr hln hrn hvalue hformed =>
    obtain ⟨-, hcachedl⟩ := hleft lefts' lefts hl' hln' hl
    obtain ⟨-, hcachedr⟩ := hright rights' rights hr' hrn' hr
    rw [show previous.find? info.id = some old from hold, Table.usable?_of_unfaulted holdn]
      at hformed
    obtain rfl : state = .cached :=
      hcachedr (value, state) (List.mem_of_mem_filter (hvalue ▸ List.mem_cons_self))
    exact ⟨hformed.unfaulted fun entry _ => ⟨_, rfl⟩, hformed.laid.unchanged hcachedl⟩

/-- Where no leaf is given anything, every unfaulted baseline is found again unchanged. -/
theorem unchanged_of_unfed (hg : graph.Regular) (hb : graph.Baseline sample previous)
    (hs : graph.Sound sample (fun _ => none) previous pass) (stage : Stage σ)
    (hm : graph.Has stage) : Unchanged previous pass.current stage := by
  induction stage with
  | input info same => exact unchanged_leaf hb hm hs
  | map info source transform same ih =>
    exact unchanged_map hg hb hm hs (ih (graph.has_source hm List.mem_cons_self))
  | collect info source ih =>
    exact unchanged_collect hb hm hs (ih (graph.has_source hm List.mem_cons_self))
  | combine info left right ihl ihr =>
    exact unchanged_combine hg hb hm hs (ihl (graph.has_source hm List.mem_cons_self))
      (ihr (graph.has_source hm (List.mem_cons_of_mem _ List.mem_cons_self)))
  | custom info update => exact (hg _ hm).elim

end StageGraph

end Regen
