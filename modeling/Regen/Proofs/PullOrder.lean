import Regen.Proofs.CallCounts
import Regen.Proofs.PassChain
import Regen.Proofs.Untouched

/-!
# The order of pulls

In a pass that nobody asks to stop the table of a stage is a function of the baseline and of the values
fed to the leaves, as long as transforms are pure: `Stage.product`. What a pass has so far always agrees
with it, whichever stages were pulled in whichever order, and every pull that returns returns it. So two
passes that pull the same stages, counting what is upstream, end with the same tables and have called
their transforms on the same values. Comparers may panic; pulls that do not return are left out, and so
are tables that are set by hand.
-/

namespace Regen

variable {σ α β : Type}

namespace Act

/-- In every pass that was not asked to stop the act ends in the same way. -/
def Settles (act : Act (Ambient σ) α) : Prop :=
  ∃ r, act.Steady r

/-- Begun in two ambiences of passes that were not asked to stop, a steady act ends alike. -/
theorem Steady.simulates {act : Act (Ambient σ) α} {r : Except Stop α} (h : act.Steady r) :
    act.Simulates (fun t s => t.cancelled = false ∧ s.cancelled = false) Eq act := by
  rintro t s ⟨ht, hs⟩
  obtain ⟨_, htold⟩ := h t ht
  obtain ⟨_, hplain⟩ := h s hs
  rw [htold, hplain]
  cases r with
  | ok a => exact .ok rfl ⟨ht, hs⟩
  | error why => exact .error ⟨ht, hs⟩

/-- An act that always ends as in one sample settles. -/
theorem Simulates.settles {act : Act (Ambient σ) α}
    (h : act.Simulates (fun t s => t.cancelled = false ∧ s.cancelled = false) Eq act)
    (memory : σ) : act.Settles := by
  refine ⟨act.result ⟨false, memory⟩, fun ambient hc => ?_⟩
  have hsame : ∀ after : Ambient σ, after.cancelled = false →
      after = { ambient with memory := after.memory } := fun after hafter => by
    rw [hc, ← hafter]
  rcases (h ambient ⟨false, memory⟩ ⟨hc, rfl⟩).endings with
    ⟨a, _, after, _, ht, hs, rfl, hafter, -⟩ | ⟨why, after, _, ht, hs, hafter, -⟩
  · refine ⟨after.memory, ?_⟩
    rw [result_of_ending (r := .ok a) hs, ← hsame after hafter]
    exact ht
  · refine ⟨after.memory, ?_⟩
    rw [result_of_ending (r := .error why) hs, ← hsame after hafter]
    exact ht

end Act

namespace Stage

theorem mapTable_settles {transform : Transform σ} (info : StageInfo) (same : Comparer Value)
    (previous : Option (Table Value)) (h : transform.Pure) (sample : Ambient σ)
    (source : Table Value) : (mapTable info transform same previous source).Settles := by
  have happly : ∀ value, (applyTransform info transform value).Simulates
      (fun t s => t.cancelled = false ∧ s.cancelled = false) Eq (applyTransform info transform value) :=
    fun value => (applyTransform_steady info h sample value).simulates
  exact (mapTable_simulates happly same previous source).settles sample.memory

section

variable (previous : PassTables) (fed : StageId → Option (List Value)) (sample : Ambient σ)

/-- The table that a stage gets in a pass that nobody asks to stop, from the baseline and the values
that the leaves are fed; or why it gets none. -/
def product : Stage σ → Except Stop (Table Value)
  | .input info same =>
    match fed info.id with
    | some values =>
      (Table.diffInputs (Table.usable? (previous.find? info.id)) values same).mapError .panicked
    | none => .ok (((Table.usable? (previous.find? info.id)).map Table.compact).getD .empty)
  | .map info source transform same => do
    let sources ← source.product
    (mapTable info transform same (Table.usable? (previous.find? info.id)) sources).result sample
  | .collect info source => do
    let sources ← source.product
    (collectTable (Table.usable? (previous.find? info.id)) sources).mapError .panicked
  | .combine info left right => do
    let lefts ← left.product
    let rights ← right.product
    (combineTable info right.name (Table.usable? (previous.find? info.id)) lefts rights).mapError
      .panicked
  | .custom .. => .ok .empty

end

/-- The stage has a pure transform or none, and does not make its table on its own. -/
def Pure : Stage σ → Prop
  | .map _ _ transform _ => transform.Pure
  | .custom .. => False
  | _ => True

end Stage

namespace StageGraph

variable (graph : StageGraph σ)

/-- Every stage of the graph is pure. -/
def Pure : Prop :=
  ∀ stage, graph.Has stage → stage.Pure

variable {graph}

theorem Pure.builtin (h : graph.Pure) : graph.Builtin := by
  intro stage hm
  have hpure := h stage hm
  cases stage with
  | custom info update => exact hpure
  | _ => trivial

variable (graph) (previous : PassTables) (fed : StageId → Option (List Value)) (sample : Ambient σ)

/-- What the pass has so far are products of its stages, the values fed to leaves without a table are
still waiting, and the pass was not asked to stop. -/
structure Agrees (evaluation : Evaluation σ) : Prop where
  baseline : evaluation.pass.previous = previous
  uncancelled : evaluation.ambient.cancelled = false
  tables : ∀ stage table, graph.Has stage → evaluation.pass.current.find? stage.id = some table →
    stage.product previous fed sample = .ok table
  waits : ∀ stage, graph.Has stage → stage.IsLeaf → evaluation.pass.current.find? stage.id = none →
    evaluation.pass.fed? stage.id = fed stage.id

variable {graph previous fed sample} {stage : Stage σ} {table : Table Value}
  {before after : Evaluation σ}

/-- The product of a stage is stored, whether or not the values that waited for it were taken away. -/
theorem Agrees.store (h : graph.Agrees previous fed sample before) (hm : graph.Has stage)
    (hproduct : stage.product previous fed sample = .ok table)
    (hc : after.ambient.cancelled = false) (hp : after.pass.previous = before.pass.previous)
    (hcur : after.pass.current = before.pass.current)
    (hf : ∀ id, stage.id ≠ id → after.pass.fed? id = before.pass.fed? id) :
    graph.Agrees previous fed sample { after with pass := after.pass.store stage.info table } where
  baseline := hp.trans h.baseline
  uncancelled := hc
  tables other found ho hfind := by
    rw [Pass.current_store, hcur] at hfind
    by_cases he : stage.id = other.id
    · obtain rfl := graph.eq_of_id hm ho he
      rw [show stage.id = stage.info.id from rfl, PassTables.find?_insert_self] at hfind
      cases hfind
      exact hproduct
    · rw [PassTables.find?_insert_of_ne _ _ he] at hfind
      exact h.tables other found ho hfind
  waits other ho hleaf hfind := by
    rw [Pass.current_store, hcur] at hfind
    have he : stage.id ≠ other.id := by
      intro he
      rw [← he, show stage.id = stage.info.id from rfl, PassTables.find?_insert_self] at hfind
      cases hfind
    rw [PassTables.find?_insert_of_ne _ _ he] at hfind
    rw [Pass.fed?_store, hf _ he]
    exact h.waits other ho hleaf hfind

end StageGraph

namespace Evaluation

variable {graph : StageGraph σ} {previous : PassTables} {fed : StageId → Option (List Value)}
  {sample : Ambient σ} {stage : Stage σ} {info : StageInfo}

section

variable (graph previous fed sample stage)

/-- A pull of the stage that returns returns its product, and the pass still agrees with all
products. -/
def PullsProduct : Prop :=
  ∀ (before after : Evaluation σ) (table : Table Value), graph.Agrees previous fed sample before →
    pull stage before = .ok table after →
    graph.Agrees previous fed sample after ∧ stage.product previous fed sample = .ok table

/-- What a stage without a table computes is its product; until it is stored only the values that
waited for the stage may be missing. -/
def ComputesProduct : Prop :=
  ∀ (before after : Evaluation σ) (table : Table Value), graph.Agrees previous fed sample before →
    before.pass.current.find? stage.id = none →
    compute stage (previous.find? stage.id) before = .ok table after →
    stage.product previous fed sample = .ok table ∧ after.ambient.cancelled = false ∧
      ∃ middle, graph.Agrees previous fed sample middle ∧
        after.pass.previous = middle.pass.previous ∧ after.pass.current = middle.pass.current ∧
        ∀ id, stage.id ≠ id → after.pass.fed? id = middle.pass.fed? id

end

theorem product_of_computes (hm : graph.Has stage)
    (h : ComputesProduct graph previous fed sample stage) :
    PullsProduct graph previous fed sample stage := by
  intro before after table hagrees hx
  rw [pull_eq] at hx
  rcases memoize_cases (r := .ok table) hx with ⟨found, hfound, he, rfl⟩ | ⟨-, why, he, -⟩ |
    ⟨hn, made, computed, hmade, hr⟩
  · cases he
    exact ⟨hagrees, hagrees.tables stage table hm hfound⟩
  · cases he
  · rw [hagrees.baseline] at hmade
    cases made with
    | error why => cases hr.1
    | ok found =>
      obtain ⟨he, rfl⟩ := hr
      cases he
      obtain ⟨hproduct, hc, middle, hmiddle, hp, hcur, hf⟩ :=
        h before computed table hagrees hn hmade
      exact ⟨hmiddle.store hm hproduct hc hp hcur hf, hproduct⟩

theorem product_leaf {same : Comparer Value} (hm : graph.Has (.input info same)) :
    ComputesProduct graph previous fed sample (.input info same) := by
  intro before after table hagrees hn hx
  change leafTable info same (Table.usable? (previous.find? info.id)) before = .ok table after at hx
  have hwaits : before.pass.fed? info.id = fed info.id := hagrees.waits _ hm trivial hn
  unfold Stage.product
  cases hfed : fed info.id with
  | some values =>
    rw [leafTable_consumed (hwaits.trans hfed)] at hx
    obtain ⟨hr, rfl⟩ := Act.ending_inj (r := .ok table) hx.symm
    exact ⟨hr.symm, hagrees.uncancelled, before, hagrees, rfl, rfl, fun id hne =>
      before.pass.fed?_consume_of_ne hne⟩
  | none =>
    rw [leafTable_unfed (hwaits.trans hfed)] at hx
    cases hx
    exact ⟨rfl, hagrees.uncancelled, before, hagrees, rfl, rfl, fun _ _ => rfl⟩

theorem product_map {source : Stage σ} {transform : Transform σ} {same : Comparer Value}
    (hpure : transform.Pure) (hs : sample.cancelled = false)
    (hsource : PullsProduct graph previous fed sample source) :
    ComputesProduct graph previous fed sample (.map info source transform same) := by
  intro before after table hagrees _ hx
  obtain ⟨sources, middle, hpull, hx⟩ := Act.bind_eq_ok hx
  obtain ⟨hmiddle, hsources⟩ := hsource before middle sources hagrees hpull
  obtain ⟨hmake, hpass⟩ := onAmbient_ending (r := .ok table) hx
  obtain ⟨r, hsteady⟩ := Stage.mapTable_settles info same
    (Table.usable? (previous.find? info.id)) hpure sample sources
  obtain ⟨memory, hends⟩ := hsteady middle.ambient hmiddle.uncancelled
  obtain ⟨hr, hambient⟩ := Act.ending_inj (r := .ok table) (hmake.symm.trans hends)
  refine ⟨?_, ?_, middle, hmiddle, by rw [hpass], by rw [hpass], fun _ _ => by rw [hpass]⟩
  · unfold Stage.product
    rw [hsources]
    exact (hsteady.result hs).trans hr.symm
  · rw [hambient]
    exact hmiddle.uncancelled

theorem product_collect {source : Stage σ} (hsource : PullsProduct graph previous fed sample source) :
    ComputesProduct graph previous fed sample (.collect info source) := by
  intro before after table hagrees _ hx
  obtain ⟨sources, middle, hpull, hx⟩ := Act.bind_eq_ok hx
  obtain ⟨hmiddle, hsources⟩ := hsource before middle sources hagrees hpull
  rw [Act.ofPanic_apply] at hx
  obtain ⟨hr, rfl⟩ := Act.ending_inj (r := .ok table) hx.symm
  refine ⟨?_, hmiddle.uncancelled, _, hmiddle, rfl, rfl, fun _ _ => rfl⟩
  unfold Stage.product
  rw [hsources]
  exact hr.symm

theorem product_combine {left right : Stage σ} (hleft : PullsProduct graph previous fed sample left)
    (hright : PullsProduct graph previous fed sample right) :
    ComputesProduct graph previous fed sample (.combine info left right) := by
  intro before after table hagrees _ hx
  obtain ⟨lefts, first, hxl, hx⟩ := Act.bind_eq_ok hx
  obtain ⟨hfirst, hlefts⟩ := hleft before first lefts hagrees hxl
  obtain ⟨rights, middle, hxr, hx⟩ := Act.bind_eq_ok hx
  obtain ⟨hmiddle, hrights⟩ := hright first middle rights hfirst hxr
  rw [Act.ofPanic_apply] at hx
  obtain ⟨hr, rfl⟩ := Act.ending_inj (r := .ok table) hx.symm
  refine ⟨?_, hmiddle.uncancelled, _, hmiddle, rfl, rfl, fun _ _ => rfl⟩
  unfold Stage.product
  rw [hlefts, hrights]
  exact hr.symm

theorem pull_product (hg : graph.Pure) (previous : PassTables)
    (fed : StageId → Option (List Value)) (hs : sample.cancelled = false) (stage : Stage σ)
    (hm : graph.Has stage) : PullsProduct graph previous fed sample stage := by
  induction stage with
  | input info same => exact product_of_computes hm (product_leaf hm)
  | map info source transform same ih =>
    exact product_of_computes hm
      (product_map (hg _ hm) hs (ih (graph.has_source hm List.mem_cons_self)))
  | collect info source ih =>
    exact product_of_computes hm (product_collect (ih (graph.has_source hm List.mem_cons_self)))
  | combine info left right ihl ihr =>
    exact product_of_computes hm (product_combine (ihl (graph.has_source hm List.mem_cons_self))
      (ihr (graph.has_source hm (List.mem_cons_of_mem _ List.mem_cons_self))))
  | custom info update => exact (hg _ hm).elim

end Evaluation

section

variable (graph : StageGraph σ) (sample : Ambient σ)

/-- Every call in the book ended as the transform of its stage does in the sample ambience. -/
def StageGraph.Genuine (ambient : Ambient (Logbook σ)) : Prop :=
  ∀ call ∈ ambient.calls, ∀ info source transform same,
    graph.Has (.map info source transform same) → call.stage = info.id →
    call.ended = ((transform call.value).run Ambient.answer).result sample

variable {graph}

/-- A pure transform of the graph notes what it always does. -/
theorem Logbook.noting_genuine (hg : graph.Pure) {info : StageInfo} {source : Stage σ}
    {transform : Transform σ} {same : Comparer Value}
    (hm : graph.Has (.map info source transform same)) (value : Value) :
    ((noting info.id value (transform value)).run Ambient.answer).Keeps (graph.Genuine sample) := by
  intro ambient hgenuine
  have hpure : transform.Pure := hg _ hm
  obtain ⟨memory, hrun⟩ := (hpure value).run_eq sample ambient.plain
  rw [Act.after_of_ending (run_noting info.id value (transform value) ambient hrun)]
  intro call hcall other otherSource otherTransform otherSame ho he
  rcases List.mem_append.mp hcall with hcall | hcall
  · exact hgenuine call hcall other otherSource otherTransform otherSame ho he
  · rw [List.mem_singleton.mp hcall] at he ⊢
    cases graph.eq_of_id hm ho he
    rfl

theorem StageGraph.Pure.respects (hg : graph.Pure) (stage : Stage σ) (hm : graph.Has stage) :
    stage.logged.Respects (graph.Genuine sample) := by
  induction stage with
  | input info same => trivial
  | map info source transform same ih =>
    exact ⟨ih (graph.has_source hm List.mem_cons_self),
      Stage.applyTransform_keeps (Logbook.noting_genuine sample hg hm) info⟩
  | collect info source ih => exact ih (graph.has_source hm List.mem_cons_self)
  | combine info left right ihl ihr =>
    exact ⟨ihl (graph.has_source hm List.mem_cons_self),
      ihr (graph.has_source hm (List.mem_cons_of_mem _ List.mem_cons_self))⟩
  | custom info update => exact (hg _ hm).elim

end

/-- Calls that go through the same values and are genuine are the same calls. -/
theorem CallsThrough.unique {info : StageInfo} {f : Value → Except Stop (List Value)}
    {values : List Value} {calls others : List Call} {fault fault' : Option Fault}
    (h : CallsThrough info values calls fault) (h' : CallsThrough info values others fault')
    (hf : ∀ call ∈ calls, call.ended = f call.value)
    (hf' : ∀ call ∈ others, call.ended = f call.value) : calls = others := by
  induction h generalizing others fault' with
  | done =>
    cases h'
    rfl
  | @returned value made rest calls fault _ ih =>
    rw [List.forall_mem_cons] at hf
    cases h' with
    | returned hrest =>
      rw [List.forall_mem_cons] at hf'
      have hmade := hf.1.trans hf'.1.symm
      simp only at hmade
      rw [hmade, ih hrest hf.2 hf'.2]
    | failed => cases hf.1.trans (hf' _ List.mem_cons_self).symm
  | failed =>
    cases h' with
    | returned _ => cases (hf' _ List.mem_cons_self).trans (hf _ List.mem_cons_self).symm
    | failed =>
      have hwhy := (hf _ List.mem_cons_self).trans (hf' _ List.mem_cons_self).symm
      simp only at hwhy
      rw [hwhy]

/-- Genuine calls that come with the same table are the same. -/
theorem CalledFor.unique {previous current : PassTables} {info : StageInfo} {source : StageId}
    {table : Table Value} {f : Value → Except Stop (List Value)} {calls others : List Call}
    (h : CalledFor previous current info source table calls)
    (h' : CalledFor previous current info source table others)
    (hf : ∀ call ∈ calls, call.ended = f call.value)
    (hf' : ∀ call ∈ others, call.ended = f call.value) : calls = others := by
  cases h with
  | blocked hfound hs _ =>
    cases h' with
    | blocked => rfl
    | through hfound' hs' _ =>
      cases hfound.symm.trans hfound'
      cases hs.symm.trans hs'
  | through hfound hs hthrough =>
    cases h' with
    | blocked hfound' hs' _ =>
      cases hfound.symm.trans hfound'
      cases hs.symm.trans hs'
    | through hfound' _ hthrough' =>
      cases hfound.symm.trans hfound'
      exact hthrough.unique hthrough' hf hf'

theorem StageGraph.Genuine.callsOf {graph : StageGraph σ} {sample : Ambient σ}
    {evaluation : Evaluation (Logbook σ)} (h : graph.Genuine sample evaluation.ambient)
    {info : StageInfo} {source : Stage σ} {transform : Transform σ} {same : Comparer Value}
    (hm : graph.Has (.map info source transform same)) :
    ∀ call ∈ evaluation.callsOf info.id,
      call.ended = ((transform call.value).run Ambient.answer).result sample := by
  intro call hcall
  obtain ⟨hmem, hstage⟩ := List.mem_filter.mp hcall
  exact h call hmem info source transform same hm (by simpa using hstage)

namespace PassPlan

/-- The stage is pulled in the pass, or upstream of one that is. -/
def Reaches (plan : PassPlan σ) (stage : Stage σ) : Prop :=
  ∃ pulled ∈ plan.pulls, stage.Upstream pulled

/-- Every pull of the pass returns a table. -/
def AllReturn (plan : PassPlan σ) (previous : PassTables) : Prop :=
  PassStep.AllReturn (plan.begin previous) (plan.pulls.map .pull)

/-- The pass over logged stages, from no calls on. -/
def loggedEvaluation (plan : PassPlan σ) (previous : PassTables) : Evaluation (Logbook σ) :=
  PassStep.performAllLogged ⟨(plan.begin previous).pass, plan.ambient.logged []⟩
    (plan.pulls.map .pull)

variable {graph : StageGraph σ} {sample : Ambient σ} {fed : StageId → Option (List Value)}
  {plan : PassPlan σ} {previous : PassTables}

theorem performAll_pulls (pulls : List (Stage σ)) (before : Evaluation σ) :
    PassStep.performAll Evaluation.pull before (pulls.map .pull) =
      pulls.foldl (fun evaluation stage => (Evaluation.pull stage).after evaluation) before :=
  List.foldl_map

/-- Once the calls are forgotten, the pass over logged stages is the pass. -/
theorem plain_loggedEvaluation (plan : PassPlan σ) (previous : PassTables) :
    (plan.loggedEvaluation previous).plain = plan.evaluation previous :=
  (PassStep.plain_performAllLogged _ _).trans (performAll_pulls plan.pulls _)

theorem agrees_begin (ho : plan.Over graph)
    (hfed : ∀ leaf, graph.Has leaf → leaf.IsLeaf → plan.fed? leaf.id = fed leaf.id) :
    graph.Agrees previous fed sample (plan.begin previous) := by
  obtain ⟨hc, hp, hf⟩ := Pass.feed_all plan.feeds (.start previous plan.trackSteps)
  refine ⟨hp, ho.uncancelled, ?_, fun leaf hm hleaf _ => ?_⟩
  · intro stage table _ hfind
    rw [show (plan.begin previous).pass.current = PassTables.empty from hc] at hfind
    cases hfind
  · rw [← hfed leaf hm hleaf, show (plan.begin previous).pass.fed? leaf.id = _ from hf leaf.id]
    exact Option.or_none

/-- Pulls that all return keep a pass in agreement with the products, and return them. -/
theorem agrees_pulls (hg : graph.Pure) (hs : sample.cancelled = false) (pulls : List (Stage σ))
    (hm : ∀ stage ∈ pulls, graph.Has stage) (before : Evaluation σ)
    (hagrees : graph.Agrees previous fed sample before)
    (hr : PassStep.AllReturn before (pulls.map .pull)) :
    graph.Agrees previous fed sample
        (PassStep.performAll Evaluation.pull before (pulls.map .pull)) ∧
      ∀ front stage rest, pulls = front ++ stage :: rest → ∃ table after,
        Evaluation.pull stage (PassStep.performAll Evaluation.pull before (front.map .pull)) =
          .ok table after ∧ stage.product previous fed sample = .ok table := by
  induction pulls generalizing before with
  | nil => exact ⟨hagrees, fun front stage rest he => by simp at he⟩
  | cons pulled others ih =>
    rw [List.forall_mem_cons] at hm
    obtain ⟨table, after, hx⟩ := hr.1 pulled rfl
    obtain ⟨hafter, hproduct⟩ :=
      Evaluation.pull_product hg previous fed hs pulled hm.1 before after table hagrees hx
    have hstep : (PassStep.pull pulled).perform Evaluation.pull before = after :=
      Act.after_of_ending (r := .ok table) hx
    have hrest : PassStep.AllReturn after (others.map .pull) := hstep ▸ hr.2
    obtain ⟨hlast, hpulls⟩ := ih hm.2 after hafter hrest
    have hperform (rest : List (Stage σ)) :
        PassStep.performAll Evaluation.pull before ((pulled :: rest).map .pull) =
          PassStep.performAll Evaluation.pull after (rest.map .pull) :=
      congrArg (PassStep.performAll Evaluation.pull · (rest.map .pull)) hstep
    refine ⟨(hperform others) ▸ hlast, fun front stage rest he => ?_⟩
    cases front with
    | nil =>
      cases he
      exact ⟨table, after, hx, hproduct⟩
    | cons first front =>
      rw [List.cons_append, List.cons_eq_cons] at he
      obtain ⟨rfl, hothers⟩ := he
      rw [hperform front]
      exact hpulls front stage rest hothers

/-- The products of the stages are what the pass ends with. -/
theorem agrees_evaluation (hg : graph.Pure) (ho : plan.Over graph)
    (hfed : ∀ leaf, graph.Has leaf → leaf.IsLeaf → plan.fed? leaf.id = fed leaf.id)
    (hs : sample.cancelled = false) (hr : plan.AllReturn previous) :
    graph.Agrees previous fed sample (plan.evaluation previous) ∧
      ∀ front stage rest, plan.pulls = front ++ stage :: rest → ∃ table after,
        Evaluation.pull stage ({ plan with pulls := front }.evaluation previous) = .ok table after ∧
          stage.product previous fed sample = .ok table := by
  have hagrees := agrees_pulls hg hs plan.pulls ho.pulls (plan.begin previous)
    (agrees_begin ho hfed) hr
  simp only [performAll_pulls] at hagrees
  exact hagrees

/-- The accounts of the pass are right, and the stages with a table are those that it reaches. -/
theorem counted_evaluation (hg : graph.Builtin) (ho : plan.Over graph) (hr : plan.AllReturn previous) :
    PassStep.Counted graph previous (plan.pulls.map .pull)
      ⟨(plan.begin previous).pass, plan.ambient.logged []⟩ (plan.loggedEvaluation previous) := by
  obtain ⟨hc, hp, -⟩ := Pass.feed_all plan.feeds (.start previous plan.trackSteps)
  have hover : ∀ step ∈ plan.pulls.map PassStep.pull, step.Over graph := by
    intro step hm
    obtain ⟨stage, hpulled, rfl⟩ := List.mem_map.mp hm
    exact ho.pulls stage hpulled
  have hlawful : graph.LawfulBy Stage.observed previous (plan.begin previous).pass := by
    refine ⟨hp, fun stage table _ hf => ?_⟩
    rw [show (plan.begin previous).pass.current = PassTables.empty from hc] at hf
    cases hf
  refine PassStep.counted_performAll hg (plan.pulls.map .pull) hover _ hlawful ?_ hr
  intro info source transform same _
  refine ⟨fun _ => rfl, fun table hf => ?_⟩
  rw [show (plan.begin previous).pass.current = PassTables.empty from hc] at hf
  cases hf

theorem find?_iff_reaches (hg : graph.Builtin) (ho : plan.Over graph) (hr : plan.AllReturn previous)
    (id : StageId) : (∃ table, (plan.evaluation previous).pass.current.find? id = some table) ↔
      ∃ stage : Stage σ, plan.Reaches stage ∧ stage.id = id := by
  have hcounted := counted_evaluation hg ho hr
  rw [← plain_loggedEvaluation, Evaluation.pass_plain]
  constructor
  · rintro ⟨table, hf⟩
    rcases hcounted.new id table hf with hnone | ⟨pulled, hpulled, stage, hu, hid⟩
    · obtain ⟨hc, -, -⟩ := Pass.feed_all plan.feeds (.start previous plan.trackSteps)
      rw [show (plan.begin previous).pass.current = PassTables.empty from hc] at hnone
      cases hnone
    · obtain ⟨other, hother, he⟩ := List.mem_map.mp hpulled
      cases he
      exact ⟨stage, ⟨pulled, hother, hu⟩, hid⟩
  · rintro ⟨stage, ⟨pulled, hpulled, hu⟩, rfl⟩
    obtain ⟨table, hf⟩ := hcounted.pulled pulled (List.mem_map_of_mem hpulled)
    exact hcounted.lawful.find?_upstream (ho.pulls pulled hpulled) hu hf

/-- All calls of the pass ended as their transforms always do. -/
theorem genuine_evaluation (hg : graph.Pure) (sample : Ambient σ) (ho : plan.Over graph) :
    graph.Genuine sample (plan.loggedEvaluation previous).ambient := by
  have hpulls (pulls : List (Stage σ)) (hm : ∀ stage ∈ pulls, graph.Has stage)
      (before : Evaluation (Logbook σ)) (hgenuine : graph.Genuine sample before.ambient) :
      graph.Genuine sample (PassStep.performAllLogged before (pulls.map .pull)).ambient := by
    induction pulls generalizing before with
    | nil => exact hgenuine
    | cons stage rest ih =>
      rw [List.forall_mem_cons] at hm
      exact ih hm.2 _
        (Evaluation.pull_keeps stage.logged (hg.respects sample stage hm.1) before hgenuine)
  exact hpulls plan.pulls ho.pulls _ fun call hcall => by cases hcall

/-- Passes that agree with the same products and reach the same stages have the same tables. -/
theorem find?_eq_of_reaches (hg : graph.Builtin) {first second : PassPlan σ}
    (hfirst : first.Over graph) (hsecond : second.Over graph)
    (hagrees : graph.Agrees previous fed sample (first.evaluation previous))
    (hagrees' : graph.Agrees previous fed sample (second.evaluation previous))
    (hreach : ∀ stage, first.Reaches stage ↔ second.Reaches stage)
    (hreturn : first.AllReturn previous) (hreturn' : second.AllReturn previous) (id : StageId) :
    (first.evaluation previous).pass.current.find? id =
      (second.evaluation previous).pass.current.find? id := by
  have hdomain := find?_iff_reaches hg hfirst hreturn
  have hdomain' := find?_iff_reaches hg hsecond hreturn'
  cases hf : (first.evaluation previous).pass.current.find? id with
  | some table =>
    obtain ⟨stage, hreached, rfl⟩ := (hdomain id).mp ⟨table, hf⟩
    obtain ⟨found, hfound⟩ := (hdomain' stage.id).mpr ⟨stage, (hreach stage).mp hreached, rfl⟩
    obtain ⟨pulled, hpulled, hu⟩ := hreached
    have hm := graph.has_of_upstream hu (hfirst.pulls pulled hpulled)
    cases (hagrees.tables stage table hm hf).symm.trans (hagrees'.tables stage found hm hfound)
    exact hfound.symm
  | none =>
    cases hf' : (second.evaluation previous).pass.current.find? id with
    | none => rfl
    | some found =>
      obtain ⟨stage, hreached, rfl⟩ := (hdomain' id).mp ⟨found, hf'⟩
      obtain ⟨table, htable⟩ := (hdomain stage.id).mpr ⟨stage, (hreach stage).mpr hreached, rfl⟩
      cases hf.symm.trans htable

/-- Passes that end with the same tables have called the transforms alike. -/
theorem callsOf_eq_of_find?_eq (hg : graph.Pure) (sample : Ambient σ) {first second : PassPlan σ}
    (hfirst : first.Over graph) (hsecond : second.Over graph)
    (hreturn : first.AllReturn previous) (hreturn' : second.AllReturn previous)
    (hsame : ∀ id, (first.evaluation previous).pass.current.find? id =
      (second.evaluation previous).pass.current.find? id)
    {info : StageInfo} {source : Stage σ} {transform : Transform σ} {same : Comparer Value}
    (hm : graph.Has (.map info source transform same)) :
    (first.loggedEvaluation previous).callsOf info.id =
      (second.loggedEvaluation previous).callsOf info.id := by
  have hcounted := counted_evaluation hg.builtin hfirst hreturn
  have hcounted' := counted_evaluation hg.builtin hsecond hreturn'
  obtain ⟨hnone, hsome⟩ := hcounted.accounts info source transform same hm
  obtain ⟨hnone', hsome'⟩ := hcounted'.accounts info source transform same hm
  rw [← Evaluation.pass_plain, plain_loggedEvaluation] at hnone hsome hnone' hsome'
  rw [← hsame] at hnone' hsome'
  cases hf : (first.evaluation previous).pass.current.find? info.id with
  | none => rw [hnone hf, hnone' hf]
  | some table =>
    have hcalls := (hsome' table hf).mono fun id found hfound => (hsame id).trans hfound
    exact (hsome table hf).unique
      (f := fun value => ((transform value).run Ambient.answer).result sample) hcalls
      ((genuine_evaluation hg sample hfirst).callsOf hm)
      ((genuine_evaluation hg sample hsecond).callsOf hm)

end PassPlan

/-- The order of pulls does not matter. Two passes over one baseline that feed the leaves the same
values and whose pulls, all of which return, reach the same stages finish with the same tables, for
exactly those stages. The transform of every stage was called on the same values in the same order, and
ended the same way; and wherever a stage is pulled in them, the pull returns the same table. -/
theorem PassPlan.pull_order_irrelevant {graph : StageGraph σ} (hg : graph.Pure)
    (previous : PassTables) {first second : PassPlan σ} (hfirst : first.Over graph)
    (hsecond : second.Over graph)
    (hfed : ∀ leaf, graph.Has leaf → leaf.IsLeaf → first.fed? leaf.id = second.fed? leaf.id)
    (hreach : ∀ stage, first.Reaches stage ↔ second.Reaches stage)
    (hreturn : first.AllReturn previous) (hreturn' : second.AllReturn previous) :
    let logged := first.loggedEvaluation previous
    let logged' := second.loggedEvaluation previous
    (logged.plain = first.evaluation previous ∧ logged'.plain = second.evaluation previous) ∧
    (∀ id, (first.finish previous).find? id = (second.finish previous).find? id) ∧
    (∀ id, (∃ table, (first.finish previous).find? id = some table) ↔
      ∃ stage : Stage σ, first.Reaches stage ∧ stage.id = id) ∧
    (∀ info source transform same, graph.Has (.map info source transform same) →
      logged.callsOf info.id = logged'.callsOf info.id) ∧
    ∀ stage front rest front' rest', first.pulls = front ++ stage :: rest →
      second.pulls = front' ++ stage :: rest' → ∃ table after after',
        Evaluation.pull stage ({ first with pulls := front }.evaluation previous) =
          .ok table after ∧
        Evaluation.pull stage ({ second with pulls := front' }.evaluation previous) =
          .ok table after' := by
  intro logged logged'
  obtain ⟨hagrees, hpulls⟩ := agrees_evaluation hg hfirst hfed hfirst.uncancelled hreturn
  obtain ⟨hagrees', hpulls'⟩ :=
    agrees_evaluation hg hsecond (fun _ _ _ => rfl) hfirst.uncancelled hreturn'
  have hsame := find?_eq_of_reaches hg.builtin hfirst hsecond hagrees hagrees' hreach hreturn hreturn'
  refine ⟨⟨first.plain_loggedEvaluation previous, second.plain_loggedEvaluation previous⟩,
    fun id => ?_, fun id => ?_, fun info source transform same hm => ?_, ?_⟩
  · have hcompact := congrArg (Option.map Table.compact) (hsame id)
    rwa [← PassTables.find?_compact, ← PassTables.find?_compact] at hcompact
  · rw [← find?_iff_reaches hg.builtin hfirst hreturn id]
    change (∃ table, (first.evaluation previous).pass.current.compact.find? id = some table) ↔ _
    rw [PassTables.find?_compact]
    simp
  · exact callsOf_eq_of_find?_eq hg first.ambient hfirst hsecond hreturn hreturn' hsame hm
  · intro stage front rest front' rest' hsplit hsplit'
    obtain ⟨table, after, hx, hproduct⟩ := hpulls front stage rest hsplit
    obtain ⟨table', after', hx', hproduct'⟩ := hpulls' front' stage rest' hsplit'
    cases hproduct.symm.trans hproduct'
    exact ⟨table, after, after', hx, hx'⟩

namespace TwoStages

theorem pure_paired {transform : Transform Unit} (h : transform.Pure) :
    (pairedStages transform).Pure := by
  rintro stage (rfl | rfl | rfl | rfl)
  · trivial
  · exact h
  · trivial
  · trivial

/-- The pass that feeds both leaves and pulls some stages of the four. -/
def pullingPaired (pulls : List (Stage Unit)) : PassPlan Unit :=
  ⟨[(⟨0⟩, [large, small, large]), (⟨2⟩, [small])], pulls, false, ⟨false, ()⟩⟩

end TwoStages

open TwoStages in
/-- The stage that reads the others is pulled first, or last and twice; the transform panics on the
way. -/
theorem PassPlan.pull_order_irrelevant_paired :
    let first := pullingPaired [paired twice]
    let second := pullingPaired [others, derived twice, paired twice, numbers, paired twice]
    let previous := PassRun.tables [pairing twice large]
    let calls := (first.loggedEvaluation previous).callsOf ⟨1⟩
    (∀ id, (first.finish previous).find? id = (second.finish previous).find? id) ∧
    calls = [⟨⟨1⟩, small, .error (.panicked .other)⟩] ∧
    (second.loggedEvaluation previous).callsOf ⟨1⟩ = calls := by
  intro first second previous calls
  have hfirst : first.Over (pairedStages twice) := by
    refine ⟨fun stage hm => ?_, rfl⟩
    cases List.mem_singleton.mp hm
    exact .inr (.inr (.inr rfl))
  have hsecond : second.Over (pairedStages twice) := by
    refine ⟨fun stage hm => ?_, rfl⟩
    simp only [second, pullingPaired, List.mem_cons, List.not_mem_nil, or_false] at hm
    rcases hm with rfl | rfl | rfl | rfl | rfl
    · exact .inr (.inr (.inl rfl))
    · exact .inr (.inl rfl)
    · exact .inr (.inr (.inr rfl))
    · exact .inl rfl
    · exact .inr (.inr (.inr rfl))
  have hderived : (derived twice).Upstream (paired twice) := .step List.mem_cons_self .refl
  have hreach : ∀ stage, first.Reaches stage ↔ second.Reaches stage := by
    intro stage
    constructor
    · rintro ⟨pulled, hm, hu⟩
      cases List.mem_singleton.mp hm
      exact ⟨paired twice, by simp [second, pullingPaired], hu⟩
    · rintro ⟨pulled, hm, hu⟩
      refine ⟨paired twice, List.mem_singleton.mpr rfl, hu.trans ?_⟩
      simp only [second, pullingPaired, List.mem_cons, List.not_mem_nil, or_false] at hm
      rcases hm with rfl | rfl | rfl | rfl | rfl
      · exact .step (List.mem_cons_of_mem _ List.mem_cons_self) .refl
      · exact hderived
      · exact .refl
      · exact Stage.Upstream.trans (.step List.mem_cons_self .refl) hderived
      · exact .refl
  have hreturn : first.AllReturn previous := by
    refine ⟨?_, trivial⟩
    rintro stage ⟨⟩
    exact Act.exists_ok_of_isOk (by decide +kernel)
  have hreturn' : second.AllReturn previous := by
    refine ⟨?_, ?_, ?_, ?_, ?_, trivial⟩ <;> rintro stage ⟨⟩ <;>
      exact Act.exists_ok_of_isOk (by decide +kernel)
  obtain ⟨-, htables, -, hcalls, -⟩ := pull_order_irrelevant (pure_paired pure_twice) previous hfirst
    hsecond (fun _ _ _ => rfl) hreach hreturn hreturn'
  exact ⟨htables, rfl, (hcalls _ _ _ _ (.inr (.inl rfl))).symm⟩

end Regen
