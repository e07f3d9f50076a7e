import Regen.Proofs.LawfulPulls
import Regen.Proofs.PassChain

/-!
# Runs of passes

In a pass leaves are fed and stages are pulled in any order, pulls may stop and are passed over, and
the ambience may change from outside, as when the pass is asked to stop. The finished tables of
every sequence of such passes are a baseline, whatever the callbacks of the plug-ins do, and hold what
their stages may hold, if the leaves are fed such values. Setting tables by hand is left out.
-/

namespace Regen

variable {σ : Type}

/-- One thing that is done in a pass. -/
inductive PassStep (σ : Type) where
  | feed (leaf : StageId) (values : List Value)
  /-- A pull. When it stops, what it did stays done. -/
  | pull (stage : Stage σ)
  /-- The ambience changes from outside. -/
  | disturb (ambient : Ambient σ)

namespace PassStep

/-- The pass after a step, with this way to pull a stage. -/
def perform (pulling : Stage σ → Act (Evaluation σ) (Table Value)) (evaluation : Evaluation σ) :
    PassStep σ → Evaluation σ
  | .feed leaf values => { evaluation with pass := evaluation.pass.addInput leaf values }
  | .pull stage => (pulling stage).after evaluation
  | .disturb ambient => { evaluation with ambient }

def performAll (pulling : Stage σ → Act (Evaluation σ) (Table Value)) (evaluation : Evaluation σ)
    (steps : List (PassStep σ)) : Evaluation σ :=
  steps.foldl (perform pulling) evaluation

/-- Every pull among the steps returns a table. -/
def AllReturn (evaluation : Evaluation σ) : List (PassStep σ) → Prop
  | [] => True
  | step :: rest =>
    (∀ stage, step = .pull stage → ∃ table after, Evaluation.pull stage evaluation = .ok table after) ∧
      AllReturn (step.perform Evaluation.pull evaluation) rest

/-- Only stages of the graph are pulled. -/
def Over (graph : StageGraph σ) : PassStep σ → Prop
  | .pull stage => graph.Has stage
  | _ => True

end PassStep

/-- What is done in one pass, from its first ambience on. -/
structure PassRun (σ : Type) where
  trackSteps : Bool
  ambient : Ambient σ
  steps : List (PassStep σ)

namespace PassRun

def begin (run : PassRun σ) (previous : PassTables) : Evaluation σ :=
  ⟨.start previous run.trackSteps, run.ambient⟩

/-- The pass when everything was done. -/
def evaluation (run : PassRun σ) (previous : PassTables) : Evaluation σ :=
  PassStep.performAll Evaluation.pull (run.begin previous) run.steps

/-- The tables of the finished pass. -/
def finish (run : PassRun σ) (previous : PassTables) : PassTables :=
  (run.evaluation previous).pass.finish.1

/-- The tables of the last of some passes, each on top of the one before. -/
def tables (runs : List (PassRun σ)) : PassTables :=
  runs.foldl (fun tables run => run.finish tables) .empty

/-- Only stages of the graph are pulled in the pass. -/
def Over (graph : StageGraph σ) (run : PassRun σ) : Prop :=
  ∀ step ∈ run.steps, step.Over graph

end PassRun

variable {graph : StageGraph σ} {previous : PassTables} {before after : Evaluation σ}
  {stage : Stage σ} {table : Table Value}

namespace StageGraph

theorem lawful_start (graph : StageGraph σ) (making : Making σ) (previous : PassTables)
    (trackSteps : Bool) : graph.LawfulBy making previous (.start previous trackSteps) where
  baseline := rfl
  arises _ _ _ hf := by cases hf

/-- A table that a pull in a lawful pass returned stays in the pass. -/
theorem LawfulBy.pulled (hg : graph.Builtin)
    (hl : graph.LawfulBy Stage.observed previous before.pass) (hm : graph.Has stage)
    (hx : Evaluation.pull stage before = .ok table after) :
    graph.LawfulBy Stage.observed previous after.pass ∧
      after.pass.current.find? stage.id = some table := by
  obtain ⟨hadv, hstored⟩ :=
    Evaluation.pull_advances hg previous stage hm before after (.ok table) hl hx
  exact ⟨hadv.lawful, hstored table rfl⟩

/-- A step keeps the pass lawful and its tables. -/
theorem LawfulBy.perform (hg : graph.Builtin) {step : PassStep σ} (ho : step.Over graph)
    (hl : graph.LawfulBy Stage.observed previous before.pass) :
    graph.LawfulBy Stage.observed previous (step.perform Evaluation.pull before).pass ∧
      before.pass.current.Within (step.perform Evaluation.pull before).pass.current := by
  cases step with
  | feed leaf values => exact ⟨⟨hl.baseline, hl.arises⟩, .refl _⟩
  | disturb ambient => exact ⟨hl, .refl _⟩
  | pull stage =>
    obtain ⟨hadv, -⟩ := Evaluation.pull_advances hg previous stage ho before _ _ hl
      (Act.eq_ending _ before)
    exact ⟨hadv.lawful, hadv.within⟩

theorem LawfulBy.performAll (hg : graph.Builtin) (steps : List (PassStep σ))
    (ho : ∀ step ∈ steps, step.Over graph) (before : Evaluation σ)
    (hl : graph.LawfulBy Stage.observed previous before.pass) :
    let after := PassStep.performAll Evaluation.pull before steps
    graph.LawfulBy Stage.observed previous after.pass ∧
      before.pass.current.Within after.pass.current := by
  induction steps generalizing before with
  | nil => exact ⟨hl, .refl _⟩
  | cons step rest ih =>
    obtain ⟨hstep, hwithin⟩ := hl.perform hg (ho step List.mem_cons_self)
    obtain ⟨hrest, hwithin'⟩ := ih (fun other hm => ho other (List.mem_cons_of_mem _ hm)) _ hstep
    exact ⟨hrest, hwithin.trans hwithin'⟩

end StageGraph

/-! What every change of a pass by a pull keeps, pulls keep. -/

namespace StageGraph

/-- A leaf made the table of what waited for it in the pass. -/
def MakesLeaf (previous : PassTables) (pass : Pass) (table : Table Value) : Stage σ → Prop
  | .input info same =>
    match pass.fed? info.id with
    | some values => Table.diffInputs (Table.usable? (previous.find? info.id)) values same = .ok table
    | none => table = ((Table.usable? (previous.find? info.id)).map Table.compact).getD .empty
  | _ => True

/-- A property of passes that lasts when values of a leaf are used up, and when a stage of the graph
without a table gets one, a leaf of what waited for it in a pass with the property. -/
structure Lasts (graph : StageGraph σ) (previous : PassTables) (P : Pass → Prop) : Prop where
  consume : ∀ pass id, P pass → P (pass.consume id)
  store : ∀ (pass : Pass) (stage : Stage σ) table, graph.Has stage →
    graph.LawfulBy Stage.observed previous pass → pass.current.find? stage.id = none →
    stage.ArisesBy Stage.observed previous pass.current table →
    (∃ before, P before ∧ MakesLeaf previous before table stage) → P pass →
      P (pass.store stage.info table)

end StageGraph

namespace Evaluation

variable {graph : StageGraph σ} {previous : PassTables} {P : Pass → Prop} {stage : Stage σ}

section

variable (graph previous P stage)

/-- However a pull of the stage ends, the property is kept. -/
def PullKeeps : Prop :=
  ∀ (before after : Evaluation σ) (r : Except Stop (Table Value)),
    graph.LawfulBy Stage.observed previous before.pass → P before.pass →
      pull stage before = Act.ending r after → P after.pass

/-- The same of computing the table of the stage. -/
def ComputeKeeps : Prop :=
  ∀ (before after : Evaluation σ) (r : Except Stop (Table Value)),
    graph.LawfulBy Stage.observed previous before.pass → P before.pass →
      compute stage (previous.find? stage.id) before = Act.ending r after → P after.pass

end

theorem makesLeaf_of_compute {before middle : Evaluation σ} {table : Table Value}
    (h : compute stage (previous.find? stage.id) before = Act.ending (.ok table) middle) :
    StageGraph.MakesLeaf previous before.pass table stage := by
  cases stage with
  | input info same =>
    change leafTable info same (Table.usable? (previous.find? info.id)) before = _ at h
    cases hf : before.pass.fed? info.id with
    | some values =>
      rw [leafTable_consumed hf] at h
      rw [StageGraph.MakesLeaf, hf]
      exact ok_of_mapError (Act.ending_inj h).1
    | none =>
      rw [leafTable_unfed hf] at h
      obtain ⟨he, -⟩ := Act.ending_inj (r := .ok _) h
      rw [StageGraph.MakesLeaf, hf]
      exact (Except.ok.inj he).symm
  | map => trivial
  | collect => trivial
  | combine => trivial
  | custom => trivial

theorem keeps_of_computes (hg : graph.Builtin) (hP : graph.Lasts previous P) (hm : graph.Has stage)
    (h : ComputeKeeps graph previous P stage) : PullKeeps graph previous P stage := by
  intro before after r hl hp hx
  rw [pull_eq] at hx
  rcases memoize_cases hx with ⟨found, -, -, rfl⟩ | ⟨-, why, -, rfl⟩ | ⟨hn, made, middle, hmade, hr⟩
  · exact hp
  · exact hp
  · rw [hl.baseline] at hmade
    have hmiddle := h before middle made hl hp hmade
    cases made with
    | error why =>
      obtain ⟨-, rfl⟩ := hr
      exact hmiddle
    | ok table =>
      obtain ⟨-, rfl⟩ := hr
      obtain ⟨hadv, harises⟩ := compute_advances hg previous stage hm before middle (.ok table) hl hmade
      exact hP.store _ stage table hm hadv.lawful (hadv.find?_eq_none hm hn) (harises table rfl)
        ⟨before.pass, hp, makesLeaf_of_compute hmade⟩ hmiddle

/-- Beside the pulls of its sources, only a leaf changes the pass while its table is computed. -/
theorem computes_of_sources (hg : graph.Builtin) (hP : graph.Lasts previous P) (hm : graph.Has stage)
    (h : ∀ source ∈ stage.sources, PullKeeps graph previous P source) :
    ComputeKeeps graph previous P stage := by
  intro before after r hl hp hx
  cases stage with
  | input info same =>
    change leafTable info same (Table.usable? (previous.find? info.id)) before = _ at hx
    cases hf : before.pass.fed? info.id with
    | some values =>
      rw [leafTable_consumed hf] at hx
      obtain ⟨-, rfl⟩ := Act.ending_inj hx
      exact hP.consume _ info.id hp
    | none =>
      rw [leafTable_unfed hf] at hx
      obtain ⟨-, rfl⟩ := Act.ending_inj (r := .ok _) hx
      exact hp
  | map info source transform same =>
    have hsource := h source List.mem_cons_self
    rcases Act.bind_eq_ending hx with ⟨why, -, hs⟩ | ⟨sources, middle, hs, hx⟩
    · exact hsource before after (.error why) hl hp hs
    · rw [(onAmbient_ending hx).2]
      exact hsource before middle (.ok sources) hl hp hs
  | collect info source =>
    have hsource := h source List.mem_cons_self
    rcases Act.bind_eq_ending hx with ⟨why, -, hs⟩ | ⟨sources, middle, hs, hx⟩
    · exact hsource before after (.error why) hl hp hs
    · rw [Act.ofPanic_apply] at hx
      obtain ⟨-, rfl⟩ := Act.ending_inj hx
      exact hsource before middle (.ok sources) hl hp hs
  | combine info left right =>
    have hleft := h left List.mem_cons_self
    have hright := h right (List.mem_cons_of_mem _ List.mem_cons_self)
    rcases Act.bind_eq_ending hx with ⟨why, -, hs⟩ | ⟨lefts, first, hs, hx⟩
    · exact hleft before after (.error why) hl hp hs
    · have hfirst := hleft before first (.ok lefts) hl hp hs
      obtain ⟨hlawful, -⟩ := hl.pulled hg (graph.has_source hm List.mem_cons_self) hs
      rcases Act.bind_eq_ending hx with ⟨why, -, hs⟩ | ⟨rights, middle, hs, hx⟩
      · exact hright first after (.error why) hlawful hfirst hs
      · rw [Act.ofPanic_apply] at hx
        obtain ⟨-, rfl⟩ := Act.ending_inj hx
        exact hright first middle (.ok rights) hlawful hfirst hs
  | custom info update => exact (hg _ hm).elim

theorem pull_keeps_pass (hg : graph.Builtin) (hP : graph.Lasts previous P) (stage : Stage σ)
    (hm : graph.Has stage) : PullKeeps graph previous P stage := by
  induction hn : stage.height using Nat.strongRecOn generalizing stage with
  | ind height ih =>
    subst hn
    exact keeps_of_computes hg hP hm (computes_of_sources hg hP hm fun source hs =>
      ih _ (Stage.height_lt hs) source (graph.has_source hm hs) rfl)

end Evaluation

/-- What also lasts when leaves are fed, every sequence of steps keeps. -/
theorem StageGraph.Lasts.performAll {graph : StageGraph σ} {previous : PassTables} {P : Pass → Prop}
    (hP : graph.Lasts previous P) (hg : graph.Builtin) (steps : List (PassStep σ))
    (hfeed : ∀ pass leaf values, .feed leaf values ∈ steps → P pass → P (pass.addInput leaf values))
    (ho : ∀ step ∈ steps, step.Over graph) (before : Evaluation σ)
    (hl : graph.LawfulBy Stage.observed previous before.pass) (hp : P before.pass) :
    P (PassStep.performAll Evaluation.pull before steps).pass := by
  induction steps generalizing before with
  | nil => exact hp
  | cons step rest ih =>
    rw [List.forall_mem_cons] at ho
    refine ih (fun pass leaf values hm => hfeed pass leaf values (List.mem_cons_of_mem _ hm)) ho.2
      (step.perform Evaluation.pull before) (hl.perform hg ho.1).1 ?_
    cases step with
    | feed leaf values => exact hfeed _ leaf values List.mem_cons_self hp
    | disturb ambient => exact hp
    | pull stage =>
      exact Evaluation.pull_keeps_pass hg hP stage ho.1 before _ _ hl hp (Act.eq_ending _ before)

namespace PassRun

theorem lawful_evaluation (hg : graph.Builtin) {run : PassRun σ} (ho : run.Over graph)
    (previous : PassTables) :
    graph.LawfulBy Stage.observed previous (run.evaluation previous).pass :=
  (StageGraph.LawfulBy.performAll hg run.steps ho _
    (graph.lawful_start Stage.observed previous run.trackSteps)).1

/-- Every sequence of passes ends in a baseline. -/
theorem baseline_tables (hg : graph.Builtin) (runs : List (PassRun σ))
    (ho : ∀ run ∈ runs, run.Over graph) : graph.BaselineBy Stage.observed (tables runs) :=
  List.foldlRecOn runs _ (graph.baselineBy_empty Stage.observed) fun previous hb run hm =>
    hb.finish hg (lawful_evaluation hg (ho run hm) previous)

/-- Leaves of the graph are fed what they may hold. -/
def Admitted (run : PassRun σ) (typing : graph.Typing) : Prop :=
  ∀ leaf values, graph.Has leaf → leaf.IsLeaf → .feed leaf.id values ∈ run.steps →
    ∀ value ∈ values, typing.Holds leaf.id value

end PassRun

namespace StageGraph.Typing

variable {typing : graph.Typing}

/-- Leaves hold what they may hold, and such values wait for them. -/
def LeavesHold (typing : graph.Typing) (pass : Pass) : Prop :=
  ∀ leaf, graph.Has leaf → leaf.IsLeaf →
    (∀ values, pass.fed? leaf.id = some values → ∀ value ∈ values, typing.Holds leaf.id value) ∧
    ∀ table, pass.current.find? leaf.id = some table →
      ∀ value ∈ table.values, typing.Holds leaf.id value

theorem LeavesHold.feed {pass : Pass} (h : typing.LeavesHold pass) {id : StageId}
    {values : List Value} (hv : ∀ leaf, graph.Has leaf → leaf.IsLeaf → leaf.id = id →
      ∀ value ∈ values, typing.Holds leaf.id value) : typing.LeavesHold (pass.addInput id values) := by
  intro leaf hm hl
  refine ⟨fun fed hf => ?_, (h leaf hm hl).2⟩
  rw [Pass.fed?_addInput] at hf
  split at hf
  · next he =>
    cases hf
    exact hv leaf hm hl he.symm
  · exact (h leaf hm hl).1 fed hf

theorem LeavesHold.consume {pass : Pass} (h : typing.LeavesHold pass) (id : StageId) :
    typing.LeavesHold (pass.consume id) := by
  intro leaf hm hl
  refine ⟨fun fed hf => ?_, (h leaf hm hl).2⟩
  by_cases he : id = leaf.id
  · rw [he, Pass.fed?_consume_self] at hf
    cases hf
  · rw [Pass.fed?_consume_of_ne _ he] at hf
    exact (h leaf hm hl).1 fed hf

/-- A leaf makes what it may hold of such values. -/
theorem LeavesHold.makesLeaf {pass : Pass} (h : typing.LeavesHold pass)
    (hold : typing.Covers previous) (hm : graph.Has stage) (hl : stage.IsLeaf)
    (hmakes : MakesLeaf previous pass table stage) :
    ∀ value ∈ table.values, typing.Holds stage.id value := by
  cases stage with
  | input info same =>
    rw [MakesLeaf] at hmakes
    cases hf : pass.fed? info.id with
    | some values =>
      rw [hf] at hmakes
      exact hold.holds_fed hm ((h _ hm hl).1 values hf) hmakes
    | none =>
      rw [hf] at hmakes
      rw [hmakes]
      exact hold.holds_unfed hm
  | map => exact hl.elim
  | collect => exact hl.elim
  | combine => exact hl.elim
  | custom => exact hl.elim

theorem lasts_leavesHold (hold : typing.Covers previous) :
    graph.Lasts previous typing.LeavesHold where
  consume _ id h := h.consume id
  store pass stage table hm _ _ _ hmakes h := by
    obtain ⟨before, hbefore, hmakes⟩ := hmakes
    intro leaf ho hl
    refine ⟨(h leaf ho hl).1, fun found hf => ?_⟩
    by_cases he : stage.id = leaf.id
    · obtain rfl := graph.eq_of_id hm ho he
      rw [Pass.current_store, show stage.id = stage.info.id from rfl,
        PassTables.find?_insert_self] at hf
      cases hf
      exact hbefore.makesLeaf hold hm hl hmakes
    · rw [Pass.current_store, PassTables.find?_insert_of_ne _ _ he] at hf
      exact (h leaf ho hl).2 found hf

end StageGraph.Typing

namespace PassRun

/-- A pass that is fed what leaves may hold finishes with what stages may hold. -/
theorem covers_finish (hg : graph.Builtin) {typing : graph.Typing} {run : PassRun σ}
    (ho : run.Over graph) (hfed : run.Admitted typing) (hold : typing.Covers previous) :
    typing.Covers (run.finish previous) := by
  have hleaves : typing.LeavesHold (run.evaluation previous).pass := by
    refine (StageGraph.Typing.lasts_leavesHold hold).performAll hg run.steps ?_ ho _
      (graph.lawful_start Stage.observed previous run.trackSteps) ?_
    · intro pass leaf values hm h
      exact h.feed fun stage hs hl he => hfed stage values hs hl (he ▸ hm)
    · intro leaf hm hl
      exact ⟨nofun, nofun⟩
  exact (StageGraph.Typing.covers_of_lawful hold (fun _ _ _ _ h => h) (lawful_evaluation hg ho previous)
    fun leaf table hm hl => (hleaves leaf hm hl).2 table).compact

/-- Whatever passes are fed what leaves may hold, stages hold what they may hold. -/
theorem covers_tables (hg : graph.Builtin) {typing : graph.Typing} (runs : List (PassRun σ))
    (ho : ∀ run ∈ runs, run.Over graph) (hfed : ∀ run ∈ runs, run.Admitted typing) :
    typing.Covers (tables runs) :=
  List.foldlRecOn runs _ StageGraph.Typing.covers_empty fun _ hold run hm =>
    covers_finish hg (ho run hm) (hfed run hm) hold

end PassRun

namespace TwoStages

/-- The pass that feeds the leaf and pulls the stage that reads it. -/
def running (transform : Transform Unit) (values : List Value) : PassRun Unit :=
  ⟨false, ⟨false, ()⟩, [.feed ⟨0⟩ values, .pull (derived transform)]⟩

theorem running_over (transform : Transform Unit) (values : List Value) :
    (running transform values).Over (stages transform) := by
  intro step hm
  simp only [running, List.mem_cons, List.not_mem_nil, or_false] at hm
  rcases hm with rfl | rfl
  · trivial
  · exact .inr rfl

theorem running_over_all (transform : Transform Unit) (passes : List (List Value)) :
    ∀ run ∈ passes.map (running transform), run.Over (stages transform) := by
  intro run hm
  obtain ⟨values, -, rfl⟩ := List.mem_map.mp hm
  exact running_over transform values

theorem admitted_running {transform : Transform Unit} {typing : (stages transform).Typing}
    {values : List Value} (h : ∀ value ∈ values, typing.Holds ⟨0⟩ value) :
    (running transform values).Admitted typing := by
  rintro leaf fed (rfl | rfl) hl hm
  · simp only [running, List.mem_cons, PassStep.feed.injEq, reduceCtorEq, List.not_mem_nil,
      or_false] at hm
    exact hm.2 ▸ h
  · exact hl.elim

end TwoStages

end Regen
