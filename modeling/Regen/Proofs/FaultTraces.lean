import Regen.Proofs.PassRuns

/-!
# Pulls that return, and where faults come from

In a pass that nobody asks to stop a pull returns whatever transforms do, provided that comparers
answer and that the baseline is in step: what a transform does wrong becomes the fault of a table.
The same induction traces faults. A leaf has the fault of its selection, a collecting stage the fault
of its source, and a combining stage the fault of a source or a fault of its own. The fault of a map
stage is told by the calls of its transform, so that nothing is said of it here.
-/

namespace Regen

variable {σ τ α β : Type}

/-- The pass was asked to stop. -/
def Ambient.Stopped (_ : Stop) (ambient : Ambient σ) : Prop :=
  ambient.cancelled = true

theorem Ambient.stopsOnly_checkCancelled :
    (checkCancelled : Act (Ambient σ) Unit).StopsOnly Ambient.Stopped := by
  intro ambient why after h
  cases hc : ambient.cancelled with
  | false =>
    rw [Evaluation.checkCancelled_apply hc] at h
    cases h
  | true =>
    rw [Evaluation.checkCancelled_cancelled hc] at h
    cases h
    exact hc

namespace TableBuilder

/-- The table before has a slot for every entry that was there before. -/
def HasRoom (builder : TableBuilder β) (previous : Option (Table β))
    (entries : List (α × EntryState)) : Prop :=
  previous.isSome = true → oldCount entries ≤ (builder.ahead previous).length

variable {makes : α → List β → Prop} {same : Comparer β} {copies : Bool}
  {previous : Option (Table β)} {table : Table β} {builder next : TableBuilder β} {value : α}
  {state : EntryState} {entries : List (α × EntryState)}

theorem HasRoom.ahead_eq (h : builder.HasRoom (some table) ((value, state) :: entries))
    (hs : state ≠ .added) : ∃ old olds, builder.ahead (some table) = old :: olds := by
  have hlen := h rfl
  rw [oldCount_cons, if_neg hs] at hlen
  cases ha : builder.ahead (some table) with
  | nil =>
    rw [ha, List.length_nil] at hlen
    omega
  | cons old olds => exact ⟨old, olds, rfl⟩

/-- After a slot was added there is room for what follows. -/
theorem HasRoom.tail (h : builder.HasRoom previous ((value, state) :: entries))
    (he : builder.ExtendsBy makes same copies previous value state next) :
    next.HasRoom previous entries := by
  intro hp
  have hlen := h hp
  rw [oldCount_cons] at hlen
  cases he with
  | inserted hadd _ _ _ _ hahead =>
    rw [if_pos (hadd hp)] at hlen
    rwa [hahead]
  | replaced _ hne _ _ _ _ hahead =>
    rw [if_neg hne, hahead, List.length_cons] at hlen
    omega

end TableBuilder

namespace Stage

variable {info : StageInfo} {transform : Transform σ} {same : Comparer Value}
  {previous : Option (Table Value)}

/-- Whatever a transform does, running it ends in values or a fault. -/
theorem applyTransform_stops (info : StageInfo) (transform : Transform σ) (value : Value) :
    (applyTransform info transform value).StopsOnly Ambient.Stopped := by
  refine Ambient.stopsOnly_checkCancelled.bind fun _ _ _ _ =>
    (Act.stopsOnly_outcome _).bind fun _ ended _ _ => ?_
  cases ended <;> exact Act.stopsOnly_pure _

theorem addEntry_stops (info : StageInfo) (transform : Transform σ) (builder : TableBuilder Value)
    (value : Value) :
    (applyTransform info transform value >>= fun
        | .ok values => pure (.ok (builder.addEntries values .added))
        | .error fault => pure (.error fault) :
      Act (Ambient σ) (Except Fault (TableBuilder Value))).StopsOnly Ambient.Stopped := by
  refine (applyTransform_stops info transform value).bind fun _ made _ _ => ?_
  cases made <;> exact Act.stopsOnly_pure _

/-- One entry, for which there is room. -/
theorem mapEntry_stops (ht : same.Total) {builder : TableBuilder Value} {value : Value}
    {state : EntryState} {rest : List (Value × EntryState)}
    (hroom : builder.HasRoom previous ((value, state) :: rest)) :
    (mapEntry info transform same previous builder value state).StopsOnly Ambient.Stopped := by
  have hfresh := addEntry_stops info transform builder value
  cases previous with
  | none =>
    cases state with
    | removed => exact Act.stopsOnly_pure _
    | _ => exact hfresh
  | some table =>
    have hkept (hs : state ≠ .added) (kept : EntryState) :
        (do return .ok (← Act.ofPanic (builder.addEntriesFromPrevious table kept)) :
          Act (Ambient σ) (Except Fault (TableBuilder Value))).StopsOnly Ambient.Stopped := by
      obtain ⟨old, olds, ha⟩ := hroom.ahead_eq hs
      exact (Act.stopsOnly_ofPanic_ok ⟨_, TableBuilder.addEntriesFromPrevious_ahead ha kept⟩).bind
        fun _ _ _ _ => Act.stopsOnly_pure _
    cases state with
    | removed => exact hkept (by decide) .removed
    | cached => exact hkept (by decide) .cached
    | added => exact hfresh
    | modified =>
      refine (applyTransform_stops info transform value).bind fun _ made _ _ => ?_
      cases made with
      | error fault => exact Act.stopsOnly_pure _
      | ok values =>
        obtain ⟨old, olds, ha⟩ := hroom.ahead_eq (by decide)
        obtain ⟨entries, he⟩ := TableBuilder.recompute_total ht values old.values
        exact (Act.stopsOnly_ofPanic_ok ⟨_, TableBuilder.addModifiedEntries_ahead ha he⟩).bind
          fun _ _ _ _ => Act.stopsOnly_pure _

theorem mapEntries_stops (ht : same.Total) (entries : List (Value × EntryState))
    {builder : TableBuilder Value} (hw : builder.WellFormed)
    (hroom : builder.HasRoom previous entries) :
    (mapEntries info transform same previous builder entries).StopsOnly Ambient.Stopped := by
  induction entries generalizing builder with
  | nil => exact Act.stopsOnly_pure builder
  | cons entry rest ih =>
    refine (mapEntry_stops ht hroom).bind fun _ made _ hmade => ?_
    cases made with
    | ok next =>
      have hnext := mapEntry_ok hw hmade
      exact ih hnext.wellFormed (hroom.tail hnext)
    | error fault => exact Act.stopsOnly_pure _

/-- A map stage with room for the entries of its source gets a table. -/
theorem mapTable_stops (ht : same.Total) (info : StageInfo) (transform : Transform σ)
    {source : Table Value} (hroom : source.fault = none → ∀ old, previous = some old →
      oldCount source.entries ≤ old.slots.length) :
    (mapTable info transform same previous source).StopsOnly Ambient.Stopped := by
  unfold mapTable
  cases hf : source.fault with
  | some fault => exact Act.stopsOnly_pure _
  | none =>
    refine (mapEntries_stops ht source.entries TableBuilder.wellFormed_empty ?_).bind
      fun _ _ _ _ => Act.stopsOnly_pure _
    intro hp
    obtain ⟨old, rfl⟩ := Option.isSome_iff_exists.mp hp
    rw [TableBuilder.ahead_empty]
    exact hroom hf old rfl

/-- Where the fault of a table comes from in a pass, when some leaves were refused their values. -/
def FaultFrom (refused : StageId → Option Fault) (current : PassTables) :
    Stage σ → Table Value → Prop
  | .input info _, table => table.fault = refused info.id
  | .map .., _ => True
  | .collect _ source, table =>
    ∃ sources, current.find? source.id = some sources ∧ table.fault = sources.fault
  | .combine info left right, table =>
    ∃ lefts rights, current.find? left.id = some lefts ∧ current.find? right.id = some rights ∧
      table.fault = (lefts.fault.or rights.fault).or
        (if rights.liveValues.length = 1 then none
          else some (notSingle info right.name rights.liveValues.length))
  | .custom .., _ => True

theorem FaultFrom.mono {refused : StageId → Option Fault} {current next : PassTables}
    {stage : Stage σ} {table : Table Value} (h : stage.FaultFrom refused current table)
    (hw : current.Within next) : stage.FaultFrom refused next table := by
  cases stage with
  | input info same => exact h
  | map info source transform same => trivial
  | collect info source =>
    obtain ⟨sources, hf, he⟩ := h
    exact ⟨sources, hw _ _ hf, he⟩
  | combine info left right =>
    obtain ⟨lefts, rights, hl, hr, he⟩ := h
    exact ⟨lefts, rights, hw _ _ hl, hw _ _ hr, he⟩
  | custom info update => trivial

section

variable {sample : Ambient σ} {given : StageId → Option (Except Fault (List Value))}
  {previous current : PassTables} {table : Table Value} {refused : StageId → Option Fault}

/-- A collecting stage fails only with its source. -/
theorem Yields.collect_faultFrom {source : Stage σ}
    (h : (Stage.collect info source).Yields sample given previous current (.ok table)) :
    (Stage.collect info source).FaultFrom refused current table := by
  cases h with
  | collectFault hf he => exact ⟨_, hf, he.symm⟩
  | collect hf hn hformed => exact ⟨_, hf, (hformed.unfaulted fun _ _ => ⟨_, rfl⟩).trans hn.symm⟩

/-- A combining stage fails with a source, or else where the right one does not hold one value. -/
theorem Yields.combine_faultFrom {left right : Stage σ}
    (h : (Stage.combine info left right).Yields sample given previous current (.ok table)) :
    (Stage.combine info left right).FaultFrom refused current table := by
  cases h with
  | @combineFault _ _ _ lefts rights fault hl hr he =>
    refine ⟨lefts, rights, hl, hr, ?_⟩
    rw [he]
    rfl
  | @combineMany _ _ _ lefts rights hl hr hln hrn hlen =>
    refine ⟨lefts, rights, hl, hr, ?_⟩
    rw [hln, hrn, if_neg hlen]
    rfl
  | @combine _ _ _ lefts rights value state _ hl hr hln hrn hlive hformed =>
    have hone : rights.liveValues.length = 1 := by rw [Table.liveValues, hlive]; rfl
    refine ⟨lefts, rights, hl, hr, ?_⟩
    rw [hln, hrn, if_pos hone]
    exact hformed.unfaulted fun _ _ => ⟨_, rfl⟩

end

end Stage

namespace StageGraph

/-- Every leaf that was refused has its table, and the faults of all tables are traced. -/
structure Traced (graph : StageGraph σ) (refused : StageId → Option Fault) (pass : Pass) :
    Prop where
  stored : ∀ info same fault, graph.Has (.input info same) → refused info.id = some fault →
    ∃ table, pass.current.find? info.id = some table
  faults : ∀ stage table, graph.Has stage → pass.current.find? stage.id = some table →
    stage.FaultFrom refused pass.current table

variable {graph : StageGraph σ} {refused : StageId → Option Fault} {stage : Stage σ}
  {table : Table Value}

theorem Traced.store {pass : Pass} (h : graph.Traced refused pass) (hm : graph.Has stage)
    (hn : pass.current.find? stage.id = none) (hf : stage.FaultFrom refused pass.current table) :
    graph.Traced refused (pass.store stage.info table) := by
  have hw : pass.current.Within (pass.store stage.info table).current :=
    PassTables.within_insert hn table
  refine ⟨fun info same fault hleaf hr => ?_, fun other found ho hfind => ?_⟩
  · obtain ⟨old, hold⟩ := h.stored info same fault hleaf hr
    exact ⟨old, hw _ _ hold⟩
  · by_cases he : stage.id = other.id
    · obtain rfl := graph.eq_of_id hm ho he
      rw [Pass.current_store, show stage.id = stage.info.id from rfl,
        PassTables.find?_insert_self] at hfind
      cases hfind
      exact hf.mono hw
    · rw [Pass.current_store, PassTables.find?_insert_of_ne _ _ he] at hfind
      exact (h.faults other found ho hfind).mono hw

end StageGraph

namespace Evaluation

variable {graph : StageGraph σ} {refused : StageId → Option Fault} {previous : PassTables}
  {stage : Stage σ} {info : StageInfo}

section

variable (graph refused previous stage)

/-- However a pull of the stage ends, faults stay traced; and it stops only where the pass was asked
to stop. -/
def PullsContained : Prop :=
  ∀ (before after : Evaluation σ) (r : Except Stop (Table Value)),
    graph.LawfulBy Stage.observed previous before.pass → graph.Traced refused before.pass →
      pull stage before = Act.ending r after →
      graph.Traced refused after.pass ∧
        ∀ why, r = .error why → after.ambient.cancelled = true

/-- The same of computing the table of the stage, with the fault of that table. -/
def ComputesContained : Prop :=
  ∀ (before after : Evaluation σ) (r : Except Stop (Table Value)),
    graph.LawfulBy Stage.observed previous before.pass → graph.Traced refused before.pass →
      before.pass.current.find? stage.id = none →
      compute stage (previous.find? stage.id) before = Act.ending r after →
      graph.Traced refused after.pass ∧
        (∀ table, r = .ok table → stage.FaultFrom refused after.pass.current table) ∧
        ∀ why, r = .error why → after.ambient.cancelled = true

end

theorem contained_of_computes (hg : graph.Builtin) (hm : graph.Has stage)
    (h : ComputesContained graph refused previous stage) :
    PullsContained graph refused previous stage := by
  intro before after r hl ht hx
  rw [pull_eq] at hx
  rcases memoize_cases hx with ⟨table, -, rfl, rfl⟩ | ⟨hc, why, rfl, rfl⟩ |
    ⟨hn, made, middle, hmade, hr⟩
  · exact ⟨ht, nofun⟩
  · exact ⟨ht, fun _ _ => hc⟩
  · rw [hl.baseline] at hmade
    obtain ⟨hmiddle, hfault, hstop⟩ := h before middle made hl ht hn hmade
    cases made with
    | error why =>
      obtain ⟨rfl, rfl⟩ := hr
      exact ⟨hmiddle, hstop⟩
    | ok table =>
      obtain ⟨rfl, rfl⟩ := hr
      obtain ⟨hadv, -⟩ := compute_advances hg previous stage hm before middle (.ok table) hl hmade
      exact ⟨hmiddle.store hm (hadv.find?_eq_none hm hn) (hfault table rfl), nofun⟩

/-- A leaf that has no table yet was not refused. -/
theorem contained_leaf {same : Comparer Value} (hm : graph.Has (.input info same))
    (ht : same.Total) : ComputesContained graph refused previous (.input info same) := by
  intro before after r hl htraced hn hx
  have hgiven : refused info.id = none := by
    cases hr : refused info.id with
    | none => rfl
    | some fault =>
      obtain ⟨table, hf⟩ := htraced.stored info same fault hm hr
      cases hn.symm.trans hf
  change leafTable info same (Table.usable? (previous.find? info.id)) before = _ at hx
  cases hf : before.pass.fed? info.id with
  | some values =>
    obtain ⟨table, hd⟩ := Table.diffInputs_total ht (Table.usable? (previous.find? info.id)) values
    rw [leafTable_fed hf hd] at hx
    obtain ⟨rfl, rfl⟩ := Act.ending_inj (r := .ok table) hx
    obtain ⟨slots, -, rfl⟩ := Table.diffInputs_eq_ok hd
    refine ⟨⟨htraced.stored, htraced.faults⟩, fun found he => ?_, nofun⟩
    cases he
    exact hgiven.symm
  | none =>
    rw [leafTable_unfed hf] at hx
    obtain ⟨rfl, rfl⟩ := Act.ending_inj (r := .ok _) hx
    refine ⟨htraced, fun found he => ?_, nofun⟩
    cases he
    change Table.fault _ = refused info.id
    rw [hgiven]
    cases hu : Table.usable? (previous.find? info.id) with
    | none => rfl
    | some old =>
      rw [Option.map_some, Option.getD_some, Table.fault_compact]
      exact (Table.usable?_eq_some hu).2

theorem contained_map {source : Stage σ} {transform : Transform σ} {same : Comparer Value}
    (hg : graph.Builtin) (hb : graph.BaselineBy Stage.observed previous)
    (hi : graph.InStep previous) (hm : graph.Has (.map info source transform same))
    (ht : same.Total) (hsource : PullsContained graph refused previous source) :
    ComputesContained graph refused previous (.map info source transform same) := by
  intro before after r hl htraced _ hx
  rcases Act.bind_eq_ending hx with ⟨why, rfl, hs⟩ | ⟨sources, middle, hs, hx⟩
  · obtain ⟨hmiddle, hstop⟩ := hsource before after (.error why) hl htraced hs
    exact ⟨hmiddle, nofun, fun _ _ => hstop why rfl⟩
  · obtain ⟨hmiddle, -⟩ := hsource before middle (.ok sources) hl htraced hs
    obtain ⟨hlawful, hfound⟩ := hl.pulled hg (graph.has_source hm List.mem_cons_self) hs
    obtain ⟨hmake, hpass⟩ := onAmbient_ending hx
    rw [hpass]
    refine ⟨hmiddle, fun _ _ => trivial, fun why he => ?_⟩
    subst he
    refine Stage.mapTable_stops ht info transform (fun hfault old hu => ?_) _ _ _ hmake
    exact Nat.le_of_eq (hi.oldCount_eq hg hb hlawful hm rfl hfound hfault hu)

theorem contained_collect {source : Stage σ} (hg : graph.Builtin)
    (hb : graph.BaselineBy Stage.observed previous) (hm : graph.Has (.collect info source))
    (hsource : PullsContained graph refused previous source) :
    ComputesContained graph refused previous (.collect info source) := by
  intro before after r hl htraced _ hx
  rcases Act.bind_eq_ending hx with ⟨why, rfl, hs⟩ | ⟨sources, middle, hs, hx⟩
  · obtain ⟨hmiddle, hstop⟩ := hsource before after (.error why) hl htraced hs
    exact ⟨hmiddle, nofun, fun _ _ => hstop why rfl⟩
  · obtain ⟨hmiddle, -⟩ := hsource before middle (.ok sources) hl htraced hs
    obtain ⟨-, hfound⟩ := hl.pulled hg (graph.has_source hm List.mem_cons_self) hs
    have hy := Stage.collect_yields middle.ambient (fun _ => none) previous info hfound
    rw [Act.ofPanic_apply] at hx
    obtain ⟨hr, rfl⟩ := Act.ending_inj hx
    rw [show (Stage.collect info source).id = info.id from rfl] at hr
    rw [hr] at hy
    refine ⟨hmiddle, fun table he => (he ▸ hy).collect_faultFrom, fun why he => ?_⟩
    subst he
    cases hy with
    | collect _ _ hformed => exact (hb.collect_not_outOfStep hm hformed).elim

theorem contained_combine {left right : Stage σ} (hg : graph.Builtin)
    (hb : graph.BaselineBy Stage.observed previous) (hi : graph.InStep previous)
    (hm : graph.Has (.combine info left right))
    (hleft : PullsContained graph refused previous left)
    (hright : PullsContained graph refused previous right) :
    ComputesContained graph refused previous (.combine info left right) := by
  intro before after r hl htraced _ hx
  have hhasl := graph.has_source hm List.mem_cons_self
  have hhasr := graph.has_source hm (List.mem_cons_of_mem _ List.mem_cons_self)
  rcases Act.bind_eq_ending hx with ⟨why, rfl, hs⟩ | ⟨lefts, first, hxl, hx⟩
  · obtain ⟨hfirst, hstop⟩ := hleft before after (.error why) hl htraced hs
    exact ⟨hfirst, nofun, fun _ _ => hstop why rfl⟩
  · obtain ⟨hfirst, -⟩ := hleft before first (.ok lefts) hl htraced hxl
    obtain ⟨hlawful, hfoundl⟩ := hl.pulled hg hhasl hxl
    rcases Act.bind_eq_ending hx with ⟨why, rfl, hs⟩ | ⟨rights, middle, hxr, hx⟩
    · obtain ⟨hmiddle, hstop⟩ := hright first after (.error why) hlawful hfirst hs
      exact ⟨hmiddle, nofun, fun _ _ => hstop why rfl⟩
    · obtain ⟨hmiddle, -⟩ := hright first middle (.ok rights) hlawful hfirst hxr
      obtain ⟨hadv, hstored⟩ := pull_advances hg previous right hhasr first middle (.ok rights)
        hlawful hxr
      have hfoundr := hstored rights rfl
      have hfoundl := hadv.within _ _ hfoundl
      have hy := Stage.combine_yields middle.ambient (fun _ => none) previous info hfoundl hfoundr
      rw [Act.ofPanic_apply] at hx
      obtain ⟨hr, rfl⟩ := Act.ending_inj hx
      rw [show (Stage.combine info left right).id = info.id from rfl] at hr
      rw [hr] at hy
      refine ⟨hmiddle, fun table he => (he ▸ hy).combine_faultFrom, fun why he => ?_⟩
      subst he
      cases hy with
      | combine hf _ hn _ _ hformed =>
        exact (hi.not_outOfStep hg hb hadv.lawful hm rfl hf hn hformed).elim

/-- Every pull of a stage of the graph is contained. -/
theorem pull_contained (hg : graph.Builtin) (ht : ∀ stage, graph.Has stage → stage.comparer.Total)
    (hb : graph.BaselineBy Stage.observed previous) (hi : graph.InStep previous)
    (refused : StageId → Option Fault) (stage : Stage σ) (hm : graph.Has stage) :
    PullsContained graph refused previous stage := by
  induction stage with
  | input info same => exact contained_of_computes hg hm (contained_leaf hm (ht _ hm))
  | map info source transform same ih =>
    exact contained_of_computes hg hm
      (contained_map hg hb hi hm (ht _ hm) (ih (graph.has_source hm List.mem_cons_self)))
  | collect info source ih =>
    exact contained_of_computes hg hm
      (contained_collect hg hb hm (ih (graph.has_source hm List.mem_cons_self)))
  | combine info left right ihl ihr =>
    exact contained_of_computes hg hm
      (contained_combine hg hb hi hm (ihl (graph.has_source hm List.mem_cons_self))
        (ihr (graph.has_source hm (List.mem_cons_of_mem _ List.mem_cons_self))))
  | custom info update => exact (hg _ hm).elim

end Evaluation

namespace PassStep

/-- The pass is not asked to stop: the flag is down now and after every step. -/
def Uncancelled (evaluation : Evaluation σ) : List (PassStep σ) → Prop
  | [] => evaluation.ambient.cancelled = false
  | step :: rest =>
    evaluation.ambient.cancelled = false ∧
      Uncancelled (step.perform Evaluation.pull evaluation) rest

theorem Uncancelled.now {evaluation : Evaluation σ} {steps : List (PassStep σ)}
    (h : Uncancelled evaluation steps) : evaluation.ambient.cancelled = false := by
  cases steps with
  | nil => exact h
  | cons step rest => exact h.1

/-- Where nobody asks the pass to stop, every pull returns and all faults are traced. -/
theorem contained_performAll {graph : StageGraph σ} {previous : PassTables}
    {refused : StageId → Option Fault} (hg : graph.Builtin)
    (ht : ∀ stage, graph.Has stage → stage.comparer.Total)
    (hb : graph.BaselineBy Stage.observed previous) (hi : graph.InStep previous)
    (steps : List (PassStep σ)) (ho : ∀ step ∈ steps, step.Over graph) (evaluation : Evaluation σ)
    (hl : graph.LawfulBy Stage.observed previous evaluation.pass)
    (htraced : graph.Traced refused evaluation.pass) (hc : Uncancelled evaluation steps) :
    AllReturn evaluation steps ∧
      graph.Traced refused (performAll Evaluation.pull evaluation steps).pass := by
  induction steps generalizing evaluation with
  | nil => exact ⟨trivial, htraced⟩
  | cons step rest ih =>
    have hstep : graph.Traced refused (step.perform Evaluation.pull evaluation).pass ∧
        ∀ stage, step = .pull stage →
          ∃ table after, Evaluation.pull stage evaluation = .ok table after := by
      cases step with
      | feed leaf values => exact ⟨⟨htraced.stored, htraced.faults⟩, nofun⟩
      | disturb ambient => exact ⟨htraced, nofun⟩
      | pull stage =>
        have hx := Act.eq_ending (Evaluation.pull stage) evaluation
        obtain ⟨hafter, hstop⟩ := Evaluation.pull_contained hg ht hb hi refused stage
          (ho _ List.mem_cons_self) evaluation _ _ hl htraced hx
        refine ⟨hafter, fun other he => ?_⟩
        cases he
        cases hr : (Evaluation.pull stage).result evaluation with
        | ok table => exact ⟨table, _, hr ▸ hx⟩
        | error why =>
          have hdown := hc.2.now
          rw [perform, hstop why hr] at hdown
          cases hdown
    obtain ⟨hlawful, -⟩ := hl.perform hg (ho step List.mem_cons_self)
    obtain ⟨hreturn, hlast⟩ :=
      ih (fun other hm => ho other (List.mem_cons_of_mem _ hm)) _ hlawful hstep.1 hc.2
    exact ⟨⟨hstep.2, hreturn⟩, hlast⟩

end PassStep

end Regen
