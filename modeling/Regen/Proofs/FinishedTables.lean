import Regen.Proofs.Containment

/-!
# Finished tables

What a pass leaves behind is closed: a finished table comes with the tables of everything upstream,
and one without a fault only with tables without one. So a baseline that is usable downstream is usable
upstream. A fault flows down: a finished table has a fault of its own stage, which its own transform or
its own sources brought about in this pass, or it has the fault of a source. This holds also where
pulls stop half-way, whatever the callbacks do and whatever the baseline is. Tables that are set by hand
and stages that make their table on their own are left out.
-/

namespace Regen

variable {σ : Type}

namespace Table

variable {α : Type}

/-- What is live stays live, also in a table that says wrongly that it is compacted. -/
theorem liveValues_compact (table : Table α) : table.compact.liveValues = table.liveValues := by
  cases hc : table.isCompacted with
  | true =>
    unfold compact
    rw [if_pos hc]
  | false =>
    have hhonest := honest_of_open hc
    rw [liveValues_settled (settled_compact hhonest), values_compact hhonest]

end Table

namespace Stage

/-- Where the fault of a table comes from in a pass with these tables and these calls: from the stage
itself or from a stage that it reads. -/
inductive FaultOrigin (current : PassTables) (calls : List Call) : Stage σ → Fault → Prop
  /-- A call of the transform in this pass did not return. -/
  | call {info source transform same sources value why} :
      current.find? source.id = some sources → sources.fault = none →
      ⟨info.id, value, .error why⟩ ∈ calls →
      FaultOrigin current calls (.map info source transform same) (transformFault info why)
  /-- The right source does not hold exactly one value. -/
  | single {info left right lefts rights} :
      current.find? left.id = some lefts → lefts.fault = none →
      current.find? right.id = some rights → rights.fault = none →
      rights.liveValues.length ≠ 1 →
      FaultOrigin current calls (.combine info left right)
        (notSingle info right.name rights.liveValues.length)
  | mapped {info source transform same sources fault} :
      current.find? source.id = some sources → sources.fault = some fault →
      FaultOrigin current calls (.map info source transform same) fault
  | collected {info source sources fault} :
      current.find? source.id = some sources → sources.fault = some fault →
      FaultOrigin current calls (.collect info source) fault
  | left {info left right lefts fault} :
      current.find? left.id = some lefts → lefts.fault = some fault →
      FaultOrigin current calls (.combine info left right) fault
  /-- The fault of the right source counts where the left one has none. -/
  | right {info left right lefts rights fault} :
      current.find? left.id = some lefts → lefts.fault = none →
      current.find? right.id = some rights → rights.fault = some fault →
      FaultOrigin current calls (.combine info left right) fault

variable {current next : PassTables} {calls more : List Call} {stage : Stage σ} {fault : Fault}

/-- More tables and more calls make no difference to where a fault comes from. -/
theorem FaultOrigin.mono (h : stage.FaultOrigin current calls fault) (hw : current.Within next)
    (hc : calls ⊆ more) : stage.FaultOrigin next more fault := by
  cases h with
  | call hf hn hm => exact .call (hw _ _ hf) hn (hc hm)
  | single hl hln hr hrn hlen => exact .single (hw _ _ hl) hln (hw _ _ hr) hrn hlen
  | mapped hf hs => exact .mapped (hw _ _ hf) hs
  | collected hf hs => exact .collected (hw _ _ hf) hs
  | left hf hs => exact .left (hw _ _ hf) hs
  | right hl hln hr hs => exact .right (hw _ _ hl) hln (hw _ _ hr) hs

/-- Compaction leaves faults and the number of live values as they are. -/
theorem FaultOrigin.compact (h : stage.FaultOrigin current calls fault) :
    stage.FaultOrigin current.compact calls fault := by
  have hfind {id : StageId} {table : Table Value} (hf : current.find? id = some table) :
      current.compact.find? id = some table.compact := by
    rw [PassTables.find?_compact, hf]
    rfl
  have hfault {table : Table Value} {r : Option Fault} (hf : table.fault = r) :
      table.compact.fault = r := (Table.fault_compact table).trans hf
  cases h with
  | call hf hn hm => exact .call (hfind hf) (hfault hn) hm
  | @single info left right lefts rights hl hln hr hrn hlen =>
    rw [← Table.liveValues_compact rights] at hlen ⊢
    exact .single (hfind hl) (hfault hln) (hfind hr) (hfault hrn) hlen
  | mapped hf hs => exact .mapped (hfind hf) (hfault hs)
  | collected hf hs => exact .collected (hfind hf) (hfault hs)
  | left hf hs => exact .left (hfind hf) (hfault hs)
  | right hl hln hr hs => exact .right (hfind hl) (hfault hln) (hfind hr) (hfault hs)

/-- A combining stage whose table fails has the fault of a source or one of its own. -/
theorem FaultFrom.combine_origin {info : StageInfo} {left right : Stage σ} {table : Table Value}
    {refused : StageId → Option Fault}
    (h : (Stage.combine info left right).FaultFrom refused current table)
    (hf : table.fault = some fault) : (Stage.combine info left right).FaultOrigin current calls fault := by
  obtain ⟨lefts, rights, hl, hr, he⟩ := h
  rw [hf] at he
  cases hln : lefts.fault with
  | some kept =>
    rw [hln] at he
    cases he
    exact .left hl hln
  | none =>
    cases hrn : rights.fault with
    | some kept =>
      rw [hln, hrn] at he
      cases he
      exact .right hl hln hr hrn
    | none =>
      rw [hln, hrn] at he
      by_cases hlen : rights.liveValues.length = 1
      · rw [if_pos hlen] at he
        cases he
      · rw [if_neg hlen] at he
        cases he
        exact .single hl hln hr hrn hlen

end Stage

/-- A noted call leaves the calls before it in the book. -/
theorem Logbook.noting_grows {id : StageId} (calls : List Call) (value : Value)
    (callback : Callback σ (List Value)) : ((noting id value callback).run Ambient.answer).Keeps
      (fun ambient => calls ⊆ ambient.calls) := by
  intro ambient hcalls
  have hplain := Act.eq_ending (callback.run Ambient.answer) ambient.plain
  rw [Act.after_of_ending (run_noting id value callback ambient hplain), Ambient.calls_logged]
  exact List.subset_append_of_subset_left _ hcalls

namespace StageGraph

variable (graph : StageGraph σ)

/-- Every fault of the pass so far has its origin there. -/
def FaultsTold (evaluation : Evaluation (Logbook σ)) : Prop :=
  ∀ stage table fault, graph.Has stage → evaluation.pass.current.find? stage.id = some table →
    table.fault = some fault →
    stage.FaultOrigin evaluation.pass.current evaluation.ambient.calls fault

variable {graph} {stage : Stage σ} {table : Table Value} {before after : Evaluation (Logbook σ)}

theorem FaultsTold.grow (h : graph.FaultsTold before)
    (hcur : after.pass.current = before.pass.current)
    (hcalls : before.ambient.calls ⊆ after.ambient.calls) : graph.FaultsTold after := by
  intro stage table fault hm hf hn
  rw [hcur] at hf ⊢
  exact (h stage table fault hm hf hn).mono (.refl _) hcalls

/-- A table whose fault has its origin in the pass is stored. -/
theorem FaultsTold.store (h : graph.FaultsTold before) (hm : graph.Has stage)
    (hnone : before.pass.current.find? stage.id = none)
    (htold : ∀ fault, table.fault = some fault →
      stage.FaultOrigin before.pass.current before.ambient.calls fault) :
    graph.FaultsTold { before with pass := before.pass.store stage.info table } := by
  have hw : before.pass.current.Within (before.pass.store stage.info table).current :=
    PassTables.within_insert hnone table
  intro other found fault ho hf hn
  by_cases he : stage.id = other.id
  · obtain rfl := graph.eq_of_id hm ho he
    rw [Pass.current_store, show stage.id = stage.info.id from rfl,
      PassTables.find?_insert_self] at hf
    cases hf
    exact (htold fault hn).mono hw (List.Subset.refl _)
  · rw [Pass.current_store, PassTables.find?_insert_of_ne _ _ he] at hf
    exact (h other found fault ho hf hn).mono hw (List.Subset.refl _)

end StageGraph

namespace Evaluation

variable {graph : StageGraph σ} {previous : PassTables} {stage : Stage σ} {info : StageInfo}

section

variable (graph previous stage)

/-- However a pull of the stage ends, all faults are told. -/
def PullsTold : Prop :=
  ∀ (before after : Evaluation (Logbook σ)) (r : Except Stop (Table Value)),
    graph.LawfulBy Stage.observed previous before.pass → graph.FaultsTold before →
      pull stage.logged before = Act.ending r after → graph.FaultsTold after

/-- The same of computing the table of the stage; the fault of the table that it makes has its origin
in the pass. -/
def ComputesTold : Prop :=
  ∀ (before after : Evaluation (Logbook σ)) (r : Except Stop (Table Value)),
    graph.LawfulBy Stage.observed previous before.pass → graph.FaultsTold before →
      compute stage.logged (previous.find? stage.id) before = Act.ending r after →
      graph.FaultsTold after ∧
        ∀ table fault, r = .ok table → table.fault = some fault →
          stage.FaultOrigin after.pass.current after.ambient.calls fault

end

theorem told_of_computes (hg : graph.Builtin) (hm : graph.Has stage)
    (h : ComputesTold graph previous stage) : PullsTold graph previous stage := by
  intro before after r hl htold hx
  rw [pull_eq, Stage.info_logged] at hx
  rcases memoize_cases hx with ⟨found, -, -, rfl⟩ | ⟨-, why, -, rfl⟩ | ⟨hn, made, computed, hmade, hr⟩
  · exact htold
  · exact htold
  · rw [hl.baseline] at hmade
    obtain ⟨hcomputed, horigin⟩ := h before computed made hl htold hmade
    cases made with
    | error why =>
      obtain ⟨-, rfl⟩ := hr
      exact hcomputed
    | ok table =>
      obtain ⟨-, rfl⟩ := hr
      have hplain := under_compute stage _ before (.ok table)
        computed hmade
      obtain ⟨hadv, -⟩ := compute_advances hg previous stage hm before.plain computed.plain
        (.ok table) hl hplain
      exact hcomputed.store hm (hadv.find?_eq_none hm hn) fun fault hf => horigin table fault rfl hf

/-- A leaf that is fed or keeps its table has no fault. -/
theorem told_leaf {same : Comparer Value} : ComputesTold graph previous (.input info same) := by
  intro before after r hl htold hx
  change leafTable info same (Table.usable? (previous.find? info.id)) before = _ at hx
  cases hf : before.pass.fed? info.id with
  | some values =>
    rw [leafTable_consumed hf] at hx
    obtain ⟨rfl, rfl⟩ := Act.ending_inj hx
    refine ⟨htold.grow rfl (List.Subset.refl _), fun table fault he hn => ?_⟩
    obtain ⟨slots, -, rfl⟩ := Table.diffInputs_eq_ok (ok_of_mapError he)
    cases hn
  | none =>
    rw [leafTable_unfed hf] at hx
    obtain ⟨rfl, rfl⟩ := Act.ending_inj (r := .ok _) hx
    refine ⟨htold, fun table fault he hn => ?_⟩
    cases he
    cases hu : Table.usable? (previous.find? info.id) with
    | none =>
      rw [hu] at hn
      cases hn
    | some old =>
      rw [hu, Option.map_some, Option.getD_some, Table.fault_compact,
        (Table.usable?_eq_some hu).2] at hn
      cases hn

theorem told_map {source : Stage σ} {transform : Transform σ} {same : Comparer Value}
    (hg : graph.Builtin) (hm : graph.Has source) (hsource : PullsTold graph previous source) :
    ComputesTold graph previous (.map info source transform same) := by
  intro before after r hl htold hx
  rcases Act.bind_eq_ending hx with ⟨why, rfl, hs⟩ | ⟨sources, middle, hs, hx⟩
  · exact ⟨hsource before after (.error why) hl htold hs, nofun⟩
  · have hmiddle := hsource before middle (.ok sources) hl htold hs
    obtain ⟨-, hfound⟩ := hl.pulled hg hm (pull_plain (r := .ok sources) hs)
    obtain ⟨hmake, hpass⟩ := onAmbient_ending hx
    have hgrows : (Stage.mapTable info (transform.logged info.id) same
        (Table.usable? (previous.find? info.id)) sources).Keeps
          (fun ambient => middle.ambient.calls ⊆ ambient.calls) :=
      Stage.mapTable_keeps (Stage.applyTransform_keeps
        (fun value => Logbook.noting_grows _ value (transform value)) info) same _ sources
    refine ⟨hmiddle.grow (by rw [hpass]) (hgrows.of_ending hmake (List.Subset.refl _)),
      fun table fault he hn => ?_⟩
    subst he
    rw [hpass]
    cases hfault : sources.fault with
    | some kept =>
      obtain ⟨-, hblocked⟩ := Stage.mapTable_blocked hfault hmake
      cases hblocked.symm.trans hn
      exact .mapped hfound hfault
    | none =>
      obtain ⟨calls, hnoted, hthrough⟩ := Stage.mapTable_logged hfault hmake
      obtain ⟨value, why, hcall, rfl⟩ := hthrough.exists_of_fault hn
      have hmem : ⟨info.id, value, .error why⟩ ∈ after.ambient.calls := by
        rw [hnoted]
        exact List.mem_append_right _ hcall
      exact .call hfound hfault hmem

theorem told_collect {source : Stage σ} (hg : graph.Builtin) (hm : graph.Has source)
    (hsource : PullsTold graph previous source) :
    ComputesTold graph previous (.collect info source) := by
  intro before after r hl htold hx
  rcases Act.bind_eq_ending hx with ⟨why, rfl, hs⟩ | ⟨sources, middle, hs, hx⟩
  · exact ⟨hsource before after (.error why) hl htold hs, nofun⟩
  · have hmiddle := hsource before middle (.ok sources) hl htold hs
    obtain ⟨-, hfound⟩ := hl.pulled hg hm (pull_plain (r := .ok sources) hs)
    rw [Act.ofPanic_apply] at hx
    obtain ⟨hr, rfl⟩ := Act.ending_inj hx
    refine ⟨hmiddle, fun table fault he hn => ?_⟩
    have hy := Stage.collect_yields middle.plain.ambient (fun _ => none) previous info hfound
    rw [show (Stage.collect info source).id = info.id from rfl] at hr
    rw [hr, he] at hy
    have hfrom : (Stage.collect info source).FaultFrom (fun _ => none) middle.pass.current table :=
      hy.collect_faultFrom
    obtain ⟨found, hf, hsame⟩ := hfrom
    exact .collected hf (hsame.symm.trans hn)

theorem told_combine {left right : Stage σ} (hg : graph.Builtin) (hml : graph.Has left)
    (hmr : graph.Has right) (hleft : PullsTold graph previous left)
    (hright : PullsTold graph previous right) :
    ComputesTold graph previous (.combine info left right) := by
  intro before after r hl htold hx
  rcases Act.bind_eq_ending hx with ⟨why, rfl, hs⟩ | ⟨lefts, first, hxl, hx⟩
  · exact ⟨hleft before after (.error why) hl htold hs, nofun⟩
  · have hfirst := hleft before first (.ok lefts) hl htold hxl
    obtain ⟨hlawful, hfoundl⟩ := hl.pulled hg hml (pull_plain (r := .ok lefts) hxl)
    rcases Act.bind_eq_ending hx with ⟨why, rfl, hs⟩ | ⟨rights, middle, hxr, hx⟩
    · exact ⟨hright first after (.error why) hlawful hfirst hs, nofun⟩
    · have hmiddle := hright first middle (.ok rights) hlawful hfirst hxr
      have hplain := pull_plain (r := .ok rights) hxr
      obtain ⟨hadv, hstored⟩ := pull_advances hg previous right hmr first.plain middle.plain
        (.ok rights) hlawful hplain
      rw [Act.ofPanic_apply, Stage.name_logged] at hx
      obtain ⟨hr, rfl⟩ := Act.ending_inj hx
      refine ⟨hmiddle, fun table fault he hn => ?_⟩
      have hy := Stage.combine_yields middle.plain.ambient (fun _ => none) previous info
        (hadv.within _ _ hfoundl) (hstored rights rfl)
      rw [show (Stage.combine info left right).id = info.id from rfl] at hr
      rw [hr, he] at hy
      have hfrom : (Stage.combine info left right).FaultFrom (fun _ => none) middle.pass.current
          table := hy.combine_faultFrom
      exact hfrom.combine_origin hn

/-- However a pull ends, all faults are told. -/
theorem pull_told (hg : graph.Builtin) (previous : PassTables) (stage : Stage σ)
    (hm : graph.Has stage) : PullsTold graph previous stage := by
  induction stage with
  | input info same => exact told_of_computes hg hm told_leaf
  | map info source transform same ih =>
    have hsource := graph.has_source hm List.mem_cons_self
    exact told_of_computes hg hm (told_map hg hsource (ih hsource))
  | collect info source ih =>
    have hsource := graph.has_source hm List.mem_cons_self
    exact told_of_computes hg hm (told_collect hg hsource (ih hsource))
  | combine info left right ihl ihr =>
    have hleft := graph.has_source hm List.mem_cons_self
    have hright := graph.has_source hm (List.mem_cons_of_mem _ List.mem_cons_self)
    exact told_of_computes hg hm (told_combine hg hleft hright (ihl hleft) (ihr hright))
  | custom info update => exact (hg _ hm).elim

end Evaluation

namespace StageGraph

variable {graph : StageGraph σ} {making : Making σ} {previous : PassTables} {pass : Pass}
  {stage other source : Stage σ} {table sources : Table Value}

/-- In a lawful pass a stage without a fault reads only stages without one. -/
theorem LawfulBy.unfaulted_source (hl : graph.LawfulBy making previous pass) (hm : graph.Has stage)
    (hs : source ∈ stage.sources) (hf : pass.current.find? stage.id = some table)
    (hn : table.fault = none) (hfound : pass.current.find? source.id = some sources) :
    sources.fault = none := by
  have harises := hl.arises stage table hm hf
  cases harises with
  | refused => cases hs
  | fed => cases hs
  | unfed => cases hs
  | mapFault => cases hn
  | map hsource hsn =>
    cases List.mem_singleton.mp hs
    exact Option.some.inj (hsource.symm.trans hfound) ▸ hsn
  | collectFault => cases hn
  | collect hsource hsn =>
    cases List.mem_singleton.mp hs
    exact Option.some.inj (hsource.symm.trans hfound) ▸ hsn
  | combineFault => cases hn
  | combineMany => cases hn
  | combine hleft hright hln hrn =>
    rcases List.mem_cons.mp hs with rfl | hs
    · exact Option.some.inj (hleft.symm.trans hfound) ▸ hln
    · cases List.mem_singleton.mp hs
      exact Option.some.inj (hright.symm.trans hfound) ▸ hrn

theorem LawfulBy.unfaulted_upstream (hl : graph.LawfulBy making previous pass) (hm : graph.Has stage)
    (hu : other.Upstream stage) (hf : pass.current.find? stage.id = some table)
    (hn : table.fault = none) :
    ∃ found, pass.current.find? other.id = some found ∧ found.fault = none := by
  induction hu generalizing table with
  | refl => exact ⟨table, hf, hn⟩
  | step hs _ ih =>
    obtain ⟨sources, hfound⟩ := hl.find?_source hm hs hf
    exact ih (graph.has_source hm hs) hfound (hl.unfaulted_source hm hs hf hn hfound)

/-- Over tables that are as compacted as they say, a pass makes only such tables. -/
theorem LawfulBy.honest_of_honest (hl : graph.LawfulBy making previous pass) (hm : graph.Has stage)
    (hold : ∀ old, previous.find? stage.id = some old → old.Honest)
    (hf : pass.current.find? stage.id = some table) : table.Honest := by
  cases hl.arises stage table hm hf with
  | refused => exact Table.honest_faulted _
  | fed hd =>
    obtain ⟨slots, -, rfl⟩ := Table.diffInputs_eq_ok hd
    exact Table.honest_of_open rfl
  | @unfed info same =>
    cases hu : Table.usable? (previous.find? info.id) with
    | none => exact Table.honest_empty
    | some old => exact fun _ => Table.settled_compact (hold old (Table.usable?_eq_some hu).1)
  | mapFault => exact Table.honest_faulted _
  | map _ _ hlaid => exact hlaid.honest
  | collectFault => exact Table.honest_faulted _
  | collect _ _ hlaid => exact hlaid.honest
  | combineFault => exact Table.honest_faulted _
  | combineMany => exact Table.honest_faulted _
  | combine _ _ _ _ _ hlaid => exact hlaid.honest

/-- Every sequence of steps keeps the faults told. -/
theorem FaultsTold.performAllLogged (hg : graph.Builtin) (steps : List (PassStep σ))
    (ho : ∀ step ∈ steps, step.Over graph) (before : Evaluation (Logbook σ))
    (hl : graph.LawfulBy Stage.observed previous before.pass) (htold : graph.FaultsTold before) :
    graph.FaultsTold (PassStep.performAllLogged before steps) := by
  induction steps generalizing before with
  | nil => exact htold
  | cons step rest ih =>
    rw [List.forall_mem_cons] at ho
    have hlawful : graph.LawfulBy Stage.observed previous (step.performLogged before).pass := by
      have hplain : graph.LawfulBy Stage.observed previous before.plain.pass := hl
      rw [← Evaluation.pass_plain, PassStep.plain_performLogged]
      exact (hplain.perform hg ho.1).1
    refine ih ho.2 (step.performLogged before) hlawful ?_
    cases step with
    | feed leaf values => exact htold.grow rfl (List.Subset.refl _)
    | disturb ambient => exact htold.grow rfl (List.Subset.refl _)
    | pull stage =>
      exact Evaluation.pull_told hg previous stage ho.1 before _ _ hl htold (Act.eq_ending _ before)

end StageGraph

theorem PassTables.compact_entries {tables : PassTables} {entry : StageInfo × Table Value}
    (h : entry ∈ tables.compact.entries) : entry.2.isCompacted = true := by
  obtain ⟨⟨info, table⟩, -, rfl⟩ := List.mem_map.mp h
  exact table.isCompacted_compact

/-- The finished tables of a pass are compacted and closed under upstream, and faults flow down. A
stage has a finished table only if everything upstream has one; if its table has no fault, neither have
they. The fault of a table is the fault of a source, of the left one if both failed, or it was brought
about in this pass, by a call of the transform of the stage or by a right source that does not hold one
value. -/
theorem PassRun.finish_closed {graph : StageGraph σ} (hg : graph.Builtin) (previous : PassTables)
    (run : PassRun σ) (ho : run.Over graph) :
    let logged := run.loggedEvaluation previous
    let tables := run.finish previous
    logged.plain = run.evaluation previous ∧
    (∀ entry ∈ tables.entries, entry.2.isCompacted = true) ∧
    ∀ stage table, graph.Has stage → tables.find? stage.id = some table →
      ((∀ old, previous.find? stage.id = some old → old.Honest) →
        ∀ entry ∈ table.entries, entry.2 = .cached) ∧
      (∀ other : Stage σ, other.Upstream stage → ∃ found, tables.find? other.id = some found ∧
        (table.fault = none → found.fault = none)) ∧
      ∀ fault, table.fault = some fault → stage.FaultOrigin tables logged.ambient.calls fault := by
  intro logged tables
  have hplain : logged.plain = run.evaluation previous := run.plain_loggedEvaluation previous
  have hpass : (run.evaluation previous).pass = logged.pass := by
    rw [← hplain]
    rfl
  have hl : graph.LawfulBy Stage.observed previous logged.pass :=
    hpass ▸ lawful_evaluation hg ho previous
  have htold : graph.FaultsTold logged :=
    StageGraph.FaultsTold.performAllLogged hg run.steps ho _
      (graph.lawful_start Stage.observed previous run.trackSteps) fun _ _ _ _ hf => by cases hf
  have htables : tables = logged.pass.current.compact := congrArg (fun pass => pass.finish.1) hpass
  refine ⟨hplain, fun entry hm => ?_, fun stage table hm hf => ?_⟩
  · rw [htables] at hm
    exact PassTables.compact_entries hm
  · rw [htables] at hf ⊢
    obtain ⟨made, hmade, rfl⟩ := PassTables.find?_compact_eq_some hf
    rw [Table.fault_compact]
    refine ⟨fun hold entry hentry => ?_, fun other hu => ?_, fun fault hn => ?_⟩
    · rw [Table.entries_settled (Table.settled_compact (hl.honest_of_honest hm hold hmade))] at hentry
      obtain ⟨value, -, rfl⟩ := List.mem_map.mp hentry
      rfl
    · obtain ⟨found, hfound⟩ := hl.find?_upstream hm hu hmade
      refine ⟨found.compact, by rw [PassTables.find?_compact, hfound]; rfl, fun hn => ?_⟩
      obtain ⟨same, hsame, hclean⟩ := hl.unfaulted_upstream hm hu hmade hn
      cases hsame.symm.trans hfound
      exact (Table.fault_compact found).trans hclean
    · exact (htold stage made fault hm hmade hn).compact

open TwoStages in
/-- The transform panics, and its stage fails; so does the stage that reads it, with the same fault,
although its right source does not hold one value either. -/
theorem PassRun.finish_closed_panicked :
    let run : PassRun Unit := ⟨false, ⟨false, ()⟩,
      [.feed ⟨0⟩ [small], .feed ⟨2⟩ [large, large], .pull (paired twice)]⟩
    let previous := tables [pairing twice large]
    let finished := run.finish previous
    let calls := (run.loggedEvaluation previous).ambient.calls
    ∃ derivedTable pairedTable fault, finished.find? ⟨1⟩ = some derivedTable ∧
      finished.find? ⟨3⟩ = some pairedTable ∧ derivedTable.fault = some fault ∧
      pairedTable.fault = some fault ∧ (derived twice).FaultOrigin finished calls fault ∧
      (paired twice).FaultOrigin finished calls fault := by
  intro run previous finished calls
  have ho : run.Over (pairedStages twice) := by
    intro step hm
    simp only [run, List.mem_cons, List.not_mem_nil, or_false] at hm
    rcases hm with rfl | rfl | rfl
    · trivial
    · trivial
    · exact .inr (.inr (.inr rfl))
  obtain ⟨-, -, hclosed⟩ := finish_closed (builtin_paired twice) previous run ho
  obtain ⟨-, -, hderived⟩ := hclosed (derived twice) _ (.inr (.inl rfl)) rfl
  obtain ⟨-, -, hpaired⟩ := hclosed (paired twice) _ (.inr (.inr (.inr rfl))) rfl
  exact ⟨_, _, _, rfl, rfl, rfl, rfl, hderived _ rfl, hpaired _ rfl⟩

end Regen
