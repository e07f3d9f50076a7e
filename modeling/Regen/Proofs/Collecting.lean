import Regen.Execution
import Regen.Proofs.Alignment
import Regen.Proofs.Seeding

/-!
# Collecting the outputs of a generator

The default execution feeds the pipeline and collects what its registered stages show. What becomes
of it is a function of what the stages show from scratch, `gather`: outputs and faults, or the first
hint name that is taken. Only a pass that was asked to stop may end otherwise.
-/

namespace Regen

variable {S σ : Type}

/-- Add outputs to those made so far, in order, up to the first one whose hint name is taken. -/
def accept (generator : String) :
    List GeneratedOutput → List GeneratedOutput → Except EngineError (List GeneratedOutput)
  | made, [] => .ok made
  | made, output :: rest =>
    if GeneratedOutput.hinted output.hintName made then
      .error (.duplicateHintName generator output.hintName)
    else accept generator (made ++ [output]) rest

/-- The outputs among some values, as outputs of a kind. -/
def outputsOf (kind : OutputKind) (values : List Value) : List GeneratedOutput :=
  (values.filterMap Value.output?).map fun output => { output with kind }

/-- Add what a registered stage shows to the outputs and faults so far. -/
def gatherOne (generator : String) (options : DriverOptions)
    (made : List GeneratedOutput × List Fault)
    (entry : OutputKind × Except Fault (List Value)) :
    Except EngineError (List GeneratedOutput × List Fault) :=
  if options.isEnabled entry.1 then
    match entry.2 with
    | .ok values => do return (← accept generator made.1 (outputsOf entry.1 values), made.2)
    | .error fault => .ok (made.1, made.2 ++ [fault])
  else .ok made

/-- The outputs and the faults that registered stages make when they show this. -/
def gather (generator : String) (options : DriverOptions)
    (showings : List (OutputKind × Except Fault (List Value))) :
    Except EngineError (List GeneratedOutput × List Fault) :=
  showings.foldlM (gatherOne generator options) ([], [])

theorem accept_error {generator : String} {made new : List GeneratedOutput} {error : EngineError}
    (h : accept generator made new = .error error) : error ≠ .cancelled := by
  induction new generalizing made with
  | nil => cases h
  | cons output rest ih =>
    unfold accept at h
    split at h
    · cases h
      exact fun he => by cases he
    · exact ih h

namespace Evaluation

variable {graph : StageGraph σ} {like : graph.Likeness} {sample : Ambient σ}
  {given : StageId → Option (Except Fault (List Value))} {previous : PassTables}
  {before : Evaluation σ}

/-- A pull in a pass over a baseline in step ends with a table that shows what the stage means,
unless the pass was asked to stop. Here only one and the same value is alike. -/
theorem pull_shows (hg : graph.Standard) (hb : graph.Baseline sample previous)
    (hgov : like.Governs previous given) (hstep : graph.InStep previous)
    (hs : graph.Sound sample given previous before.pass) {stage : Stage σ} (hm : graph.Has stage)
    (hexact : ∀ value other, like.Like stage.id value other → value = other) :
    (∃ table after, pull stage before = .ok table after ∧
        table.shows = stage.meaning sample (previous.leafShows given) ∧
        graph.Sound sample given previous after.pass ∧
        after.ambient.cancelled = before.ambient.cancelled) ∨
      before.ambient.cancelled = true ∧
        ∃ after, pull stage before = .error (.failed .cancelled) after := by
  cases hc : before.ambient.cancelled with
  | true =>
    rcases pull_cancelled stage hc with ⟨table, hf, hx⟩ | hx
    · have hshows := (graph.shows_meaning hg hb hgov hs stage hm table hf).eq_of_exact hexact
      exact .inl ⟨table, before, hx, hshows, hs, hc⟩
    · exact .inr ⟨rfl, before, hx⟩
  | false =>
    obtain ⟨r, after, hx, hp⟩ := pulls_of_regular hg.regular stage hm before hs hc
    cases r with
    | ok table =>
      have hshows := (graph.shows_meaning hg hb hgov hp.sound stage hm table
        (hp.stored table rfl)).eq_of_exact hexact
      exact .inl ⟨table, after, hx, hshows, hp.sound, hp.uncancelled⟩
    | error why =>
      obtain ⟨other, hu, hy⟩ := hp.stuck why rfl
      exact (hstep.not_stuck hg.regular hb hp.sound (graph.has_of_upstream hu hm) why hy).elim

end Evaluation

namespace Execution

variable (graph : StageGraph σ) (sample : Ambient σ)
  (given : StageId → Option (Except Fault (List Value))) (previous : PassTables)

/-- An execution that ends as `r` says, in a sound pass, unless it was asked to stop. -/
inductive Collects (before : Execution σ)
    (r : Except EngineError (List GeneratedOutput × List Fault)) :
    EStateM.Result Stop (Execution σ) Unit → Prop
  | made {after} : r = .ok (after.outputs, after.stageFaults) →
      graph.Sound sample given previous after.evaluation.pass →
      after.evaluation.ambient.cancelled = before.evaluation.ambient.cancelled →
      Collects before r (.ok () after)
  | failed {error after} : r = .error error → error ≠ .cancelled →
      after.evaluation.ambient.cancelled = before.evaluation.ambient.cancelled →
      Collects before r (.error (.failed error) after)
  | cancelled {after} : before.evaluation.ambient.cancelled = true →
      Collects before r (.error (.failed .cancelled) after)

variable {graph sample given previous}
variable {generator : String} {before : Execution σ}

theorem addOutput_free {output : GeneratedOutput} (before : Execution σ)
    (h : ¬ GeneratedOutput.hinted output.hintName before.outputs = true) :
    addOutput generator output before =
      .ok () { before with outputs := before.outputs ++ [output] } := by
  refine (Act.bind_ok (Act.get_apply before)).trans ?_
  rw [if_neg h]
  rfl

theorem addOutput_taken {output : GeneratedOutput} (before : Execution σ)
    (h : GeneratedOutput.hinted output.hintName before.outputs = true) :
    addOutput generator output before =
      .error (.failed (.duplicateHintName generator output.hintName)) before := by
  refine (Act.bind_ok (Act.get_apply before)).trans ?_
  rw [if_pos h]
  rfl

theorem addOutputs_ok {made : List GeneratedOutput} (new : List GeneratedOutput)
    (before : Execution σ) (h : accept generator before.outputs new = .ok made) :
    addOutputs generator new before = .ok () { before with outputs := made } := by
  induction new generalizing before with
  | nil =>
    cases h
    rfl
  | cons output rest ih =>
    unfold accept at h
    split at h
    · cases h
    · next hfree => exact (Act.bind_ok (addOutput_free before hfree)).trans (ih _ h)

theorem addOutputs_error {error : EngineError} (new : List GeneratedOutput)
    (before : Execution σ) (h : accept generator before.outputs new = .error error) :
    ∃ after, addOutputs generator new before = .error (.failed error) after ∧
      after.evaluation = before.evaluation := by
  induction new generalizing before with
  | nil => cases h
  | cons output rest ih =>
    unfold accept at h
    split at h
    · next htaken =>
      cases h
      exact ⟨before, Act.bind_error (addOutput_taken before htaken), rfl⟩
    · next hfree =>
      obtain ⟨after, hx, he⟩ := ih { before with outputs := before.outputs ++ [output] } h
      exact ⟨after, (Act.bind_ok (addOutput_free before hfree)).trans hx, he⟩

theorem collectBindings_enabled {options : DriverOptions} {binding : OutputBinding σ}
    {rest : List (OutputBinding σ)} (h : options.isEnabled binding.kind = true) :
    collectBindings generator options (binding :: rest) =
      collectBinding generator binding >>= fun _ => collectBindings generator options rest := by
  rw [collectBindings, if_pos h]

theorem collectBindings_disabled {options : DriverOptions} {binding : OutputBinding σ}
    {rest : List (OutputBinding σ)} (h : options.isEnabled binding.kind = false) :
    collectBindings generator options (binding :: rest) = collectBindings generator options rest := by
  rw [collectBindings, if_neg (h ▸ Bool.false_ne_true)]

/-- What follows an execution that ended well goes on from there. -/
theorem Collects.bind {act next : Act (Execution σ) Unit}
    {r : Except EngineError (List GeneratedOutput × List Fault)}
    {f : List GeneratedOutput × List Fault → Except EngineError (List GeneratedOutput × List Fault)}
    (h : Collects graph sample given previous before r (act before))
    (hnext : ∀ after : Execution σ, graph.Sound sample given previous after.evaluation.pass →
      Collects graph sample given previous after (f (after.outputs, after.stageFaults))
        (next after)) :
    Collects graph sample given previous before (r >>= f) ((act >>= fun _ => next) before) := by
  generalize hx : act before = result at h
  cases h with
  | @made after hr hs hc =>
    rw [Act.bind_ok hx, hr]
    have hrest := hnext after hs
    change Collects graph sample given previous before (f (after.outputs, after.stageFaults)) _
    generalize next after = ended at hrest
    cases hrest with
    | made hr' hs' hc' => exact .made hr' hs' (hc'.trans hc)
    | failed hr' hn hc' => exact .failed hr' hn (hc'.trans hc)
    | cancelled hc' => exact .cancelled (hc.symm.trans hc')
  | failed hr hn hc =>
    rw [Act.bind_error hx, hr]
    exact .failed rfl hn hc
  | cancelled hc =>
    rw [Act.bind_error hx]
    exact .cancelled hc

/-- A registered stage adds what it shows. -/
theorem collectBinding_collects (generator : String) (options : DriverOptions)
    (hg : graph.Standard) (hb : graph.Baseline sample previous) {like : graph.Likeness}
    (hgov : like.Governs previous given) (hstep : graph.InStep previous)
    (binding : OutputBinding σ) (hm : graph.Has binding.stage)
    (hexact : ∀ value other, like.Like binding.stage.id value other → value = other)
    (he : options.isEnabled binding.kind = true)
    (hs : graph.Sound sample given previous before.evaluation.pass) :
    Collects graph sample given previous before
      (gatherOne generator options (before.outputs, before.stageFaults)
        (binding.kind, binding.stage.meaning sample (previous.leafShows given)))
      (collectBinding generator binding before) := by
  unfold gatherOne collectBinding
  rw [if_pos he]
  rcases Evaluation.pull_shows hg hb hgov hstep hs hm hexact with
    ⟨table, after, hx, hshows, hsound, hc⟩ | ⟨hc, after, hx⟩
  · have hpull : onEvaluation (Evaluation.pull binding.stage) before =
        .ok table { before with evaluation := after } :=
      Act.within_apply (r := .ok table) hx
    rw [Act.bind_ok hpull, ← hshows]
    cases hf : table.fault with
    | some fault =>
      rw [Table.shows_of_fault hf]
      exact .made rfl hsound hc
    | none =>
      rw [Table.shows_of_unfaulted hf]
      change Collects graph sample given previous before
        (do return (← accept generator before.outputs (outputsOf binding.kind table.liveValues),
          before.stageFaults))
        (addOutputs generator (outputsOf binding.kind table.liveValues)
          { before with evaluation := after })
      cases ha : accept generator before.outputs (outputsOf binding.kind table.liveValues) with
      | ok made =>
        rw [addOutputs_ok _ { before with evaluation := after } ha]
        exact .made rfl hsound hc
      | error error =>
        obtain ⟨last, hlast, hsame⟩ := addOutputs_error _ { before with evaluation := after } ha
        rw [hlast]
        exact .failed rfl (accept_error ha) (by rw [hsame]; exact hc)
  · have hpull : onEvaluation (Evaluation.pull binding.stage) before =
        .error (.failed .cancelled) { before with evaluation := after } :=
      Act.within_apply (r := .error (.failed .cancelled)) hx
    rw [Act.bind_error hpull]
    exact .cancelled hc

theorem collectBindings_collects (generator : String) (options : DriverOptions)
    (hg : graph.Standard) (hb : graph.Baseline sample previous) {like : graph.Likeness}
    (hgov : like.Governs previous given) (hstep : graph.InStep previous)
    (bindings : List (OutputBinding σ)) (hm : ∀ binding ∈ bindings, graph.Has binding.stage)
    (hexact : ∀ binding ∈ bindings, ∀ value other,
      like.Like binding.stage.id value other → value = other)
    (before : Execution σ) (hs : graph.Sound sample given previous before.evaluation.pass) :
    Collects graph sample given previous before
      ((bindings.map fun binding =>
        (binding.kind, binding.stage.meaning sample (previous.leafShows given))).foldlM
          (gatherOne generator options) (before.outputs, before.stageFaults))
      (collectBindings generator options bindings before) := by
  induction bindings generalizing before with
  | nil => exact .made rfl hs rfl
  | cons binding rest ih =>
    have hrest : ∀ after : Execution σ, graph.Sound sample given previous after.evaluation.pass → _ :=
      fun after hsound => ih (fun other ho => hm other (List.mem_cons_of_mem _ ho))
        (fun other ho => hexact other (List.mem_cons_of_mem _ ho)) after hsound
    rw [List.map_cons, List.foldlM_cons]
    cases he : options.isEnabled binding.kind with
    | true =>
      have hone := collectBinding_collects generator options hg hb hgov hstep binding
        (hm binding List.mem_cons_self) (hexact binding List.mem_cons_self) he hs
      rw [collectBindings_enabled he]
      exact hone.bind hrest
    | false =>
      have hone : gatherOne generator options (before.outputs, before.stageFaults)
          (binding.kind, binding.stage.meaning sample (previous.leafShows given)) =
            .ok (before.outputs, before.stageFaults) := by
        rw [gatherOne, if_neg (by simp [he])]
      rw [collectBindings_disabled he, hone]
      exact hrest before hs

/-- The default execution feeds the leaves and collects the registered stages. -/
theorem run_runPipeline (pipeline : Pipeline S σ) (options : DriverOptions) (briefing : Briefing S)
    (begun : Execution σ) :
    runPipeline.run (answer pipeline options briefing) begun =
      collectBindings briefing.generator options pipeline.outputs
        { begun with evaluation := { begun.evaluation with
          pass := pipeline.seed briefing.snapshot briefing.additionalInputs
            begun.evaluation.pass } } := by
  have hseed : answer pipeline options briefing .seed begun =
      .ok () { begun with evaluation := { begun.evaluation with
        pass := pipeline.seed briefing.snapshot briefing.additionalInputs
          begun.evaluation.pass } } := rfl
  refine (Act.bind_ok hseed).trans ?_
  generalize { begun with evaluation := _ } = fed
  cases hx : collectBindings briefing.generator options pipeline.outputs fed with
  | ok _ after =>
    have hcollect : answer pipeline options briefing .collect fed = .ok (.ok ()) after :=
      Act.orError_ok hx
    exact Act.bind_ok hcollect
  | error why after =>
    cases why with
    | failed error =>
      have hcollect : answer pipeline options briefing .collect fed = .ok (.error error) after :=
        Act.orError_failed hx
      exact Act.bind_ok hcollect
    | panicked panic =>
      have hcollect : answer pipeline options briefing .collect fed =
          .error (.panicked panic) after := Act.orError_panicked hx
      exact Act.bind_error hcollect

end Execution

end Regen
