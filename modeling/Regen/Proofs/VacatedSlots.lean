import Regen.Proofs.PassChain

/-!
# Vacated slots

Finished tables stay in step along a chain of passes exactly as long as no pass vacates a slot.
While they are in step no pull stops. Once they are not, some stage panics in the next pass, also
when nothing is fed to it. A transform that makes something of a value in one pass and nothing in
the next is enough.
-/

namespace Regen

variable {σ : Type} {graph : StageGraph σ}

/-- A stage out of step panics when the next pass feeds nothing. -/
theorem pull_outOfStep (hg : graph.Regular) {sample : Ambient σ} {previous : PassTables}
    (hb : graph.Baseline sample previous) {stage source : Stage σ} (hm : graph.Has stage)
    (hrow : stage.rowSource? = some source) {old before : Table Value}
    (hold : previous.find? stage.id = some old) (hn : old.fault = none)
    (hbefore : previous.find? source.id = some before)
    (hne : old.slots.length ≠ before.entries.length) {plan : PassPlan σ} (ho : plan.Over graph)
    (hfed : plan.feeds = []) :
    ∃ slots index after, Evaluation.pull stage (plan.evaluation previous) =
      .error (.panicked (.outOfStep slots index)) after := by
  have hgiven : plan.given = fun _ => none := by
    funext id
    rw [PassPlan.given, PassPlan.fed?, hfed]
    rfl
  obtain ⟨r, after, hx, hpulled⟩ := PassPlan.pull_evaluation hg ho sample previous hm
  cases r with
  | ok table =>
    have hf := hpulled.stored table rfl
    have hs := hpulled.sound
    rw [hgiven] at hs
    have hunfaulted := (graph.unchanged_of_unfed hg hb hs stage hm old table hold hn hf).1
    exact absurd (graph.inStep_of_unfaulted hg hb hs hm hrow hf hunfaulted hold hn hbefore) hne
  | error why =>
    obtain ⟨other, hu, hy⟩ := hpulled.stuck why rfl
    obtain ⟨slots, index, rfl⟩ := graph.outOfStep_of_stuck hg (graph.has_of_upstream hu hm) hy
    exact ⟨slots, index, after, hx⟩

/-- The finished tables of a chain are in step exactly when no pass of it vacates a slot. In step,
every stage gets a table in the next pass; out of step, some stage panics when nothing is fed. -/
theorem inStep_chain_iff (hg : graph.Regular) (sample : Ambient σ) (plans : List (PassPlan σ))
    (hplans : ∀ plan ∈ plans, plan.Over graph) :
    ((∀ done, done <+: plans → graph.InStep (chain done)) ↔
      ∀ done plan, done ++ [plan] <+: plans →
        ¬ graph.Vacates sample (plan.evaluation (chain done)).pass.current) ∧
    (graph.InStep (chain plans) → ∀ next : PassPlan σ, next.Over graph →
      ∀ stage, graph.Has stage → ∃ table after,
        Evaluation.pull stage (next.evaluation (chain plans)) = .ok table after) ∧
    (¬ graph.InStep (chain plans) → ∃ stage, graph.Has stage ∧
      ∀ next : PassPlan σ, next.Over graph → next.feeds = [] → ∃ slots index after,
        Evaluation.pull stage (next.evaluation (chain plans)) =
          .error (.panicked (.outOfStep slots index)) after) := by
  have hbase : ∀ done, done <+: plans → graph.Baseline sample (chain done) := fun done hd =>
    baseline_chain hg sample done fun plan hm => hplans plan (hd.subset hm)
  have hstep : ∀ done plan, done ++ [plan] <+: plans →
      (graph.InStep (chain (done ++ [plan])) ↔
        ¬ graph.Vacates sample (plan.evaluation (chain done)).pass.current) := by
    intro done plan hd
    have hover : plan.Over graph := hplans plan (hd.subset (by simp))
    rw [chain_append_singleton]
    exact graph.inStep_finish_iff hg (hbase done ((List.prefix_append done [plan]).trans hd))
      (PassPlan.sound_evaluation hg hover sample (chain done)).1
  refine ⟨⟨fun h done plan hd => (hstep done plan hd).mp (h _ hd), ?_⟩, ?_, ?_⟩
  · intro h done hd
    rcases List.eq_nil_or_concat done with rfl | ⟨rest, plan, rfl⟩
    · exact graph.inStep_empty
    · rw [List.concat_eq_append] at hd ⊢
      exact (hstep rest plan hd).mpr (h rest plan hd)
  · intro hin next hnext stage hm
    exact pull_of_inStep hg (hbase plans List.prefix_rfl) hin hnext hm
  · intro hout
    unfold StageGraph.InStep at hout
    push Not at hout
    obtain ⟨stage, source, old, hm, hrow, hold, hn, hne⟩ := hout
    have hb := hbase plans List.prefix_rfl
    obtain ⟨before, -, hbefore, -, -⟩ := StageGraph.rests_row (hb.rests stage old hm hold hn) hrow
    exact ⟨stage, hm, fun next hnext hfed =>
      pull_outOfStep hg hb hm hrow hold hn hbefore (hne before hbefore) hnext hfed⟩

namespace TwoStages

/-- The large value once and nothing of the small one. -/
def onlyLarge : Transform Unit
  | .list _ => .done []
  | value => .done [value]

theorem pure_onlyLarge : Transform.Pure onlyLarge := by
  intro value
  cases value <;> exact Callback.pure_done _

/-- Two passes: the second one changes the first value from large to small. -/
def vacating : List (PassPlan Unit) :=
  [[large, large], [small, large]].map (feeding onlyLarge)

/-- The finished table of the stage has one slot for the two entries of the leaf. -/
theorem not_inStep_vacating : ¬ (stages onlyLarge).InStep (chain vacating) := by
  intro h
  have hold : (chain vacating).find? (derived onlyLarge).id =
      some ⟨[.filled (large, .cached) []], true, none⟩ := by decide
  have hbefore : (chain vacating).find? numbers.id =
      some ⟨[.filled (small, .cached) [], .filled (large, .cached) []], true, none⟩ := by decide
  obtain ⟨sources, hsources, hlen⟩ := h (derived onlyLarge) numbers _ (.inr rfl) rfl hold rfl
  rw [hbefore] at hsources
  cases hsources
  cases hlen

end TwoStages

open TwoStages in
/-- A recomputed value of which nothing is left puts the stage out of step, and the next pass over
the same values panics. -/
theorem inStep_chain_fails :
    ¬ (stages onlyLarge).InStep (chain vacating) ∧ ∃ after,
      Evaluation.pull (derived onlyLarge)
          ((feeding onlyLarge [small, large]).begin (chain vacating)) =
        .error (.panicked (.outOfStep 1 1)) after :=
  ⟨not_inStep_vacating, _, rfl⟩

open TwoStages in
/-- The chain that vacates a slot: the tables are not in step all along, and a pass that feeds
nothing panics. -/
theorem inStep_chain_iff_vacating :
    (∃ done plan, done ++ [plan] <+: vacating ∧
      (stages onlyLarge).Vacates ⟨false, ()⟩ (plan.evaluation (chain done)).pass.current) ∧
    ∃ slots index after, Evaluation.pull (derived onlyLarge)
      ((⟨[], [], false, ⟨false, ()⟩⟩ : PassPlan Unit).evaluation (chain vacating)) =
        .error (.panicked (.outOfStep slots index)) after := by
  obtain ⟨hiff, -, hout⟩ := inStep_chain_iff (standard pure_onlyLarge).regular ⟨false, ()⟩ vacating
    (feeding_over_all onlyLarge _)
  constructor
  · by_contra hnone
    push Not at hnone
    exact not_inStep_vacating (hiff.mpr hnone vacating List.prefix_rfl)
  · obtain ⟨stage, hm, hpanics⟩ := hout not_inStep_vacating
    have hnext : (⟨[], [], false, ⟨false, ()⟩⟩ : PassPlan Unit).Over (stages onlyLarge) :=
      ⟨fun _ h => absurd h List.not_mem_nil, rfl⟩
    rcases hm with rfl | rfl
    · obtain ⟨slots, index, after, hx⟩ := hpanics _ hnext rfl
      cases hx
    · exact hpanics _ hnext rfl

end Regen
