import Regen.Proofs.Alignment
import Regen.Proofs.Meaning

/-!
# Chains of passes

A pass feeds leaves and pulls stages; its finished tables are the baseline of the next pass. Pulls
that stop are passed over. Every chain of passes over a regular graph ends in a baseline, so that
what a stage shows in the next pass does not depend on the chain, up to a likeness under which values
that `==` takes for equal are alike. Where `==` takes only one and the same value for equal, nothing
depends on the chain. Passes that were asked to stop, and tables that are set by hand, are left out.
-/

namespace Regen

variable {σ : Type}

/-- What is done in one pass: leaves are fed, then stages are pulled in order. -/
structure PassPlan (σ : Type) where
  feeds : List (StageId × List Value)
  pulls : List (Stage σ)
  trackSteps : Bool
  ambient : Ambient σ

namespace PassPlan

variable (plan : PassPlan σ) (previous : PassTables)

/-- The values fed last to a leaf. -/
def fed? (id : StageId) : Option (List Value) :=
  (plan.feeds.reverse.find? (·.1 == id)).map (·.2)

/-- What the leaves are given: values or nothing. -/
def given (id : StageId) : Option (Except Fault (List Value)) :=
  (plan.fed? id).map .ok

/-- The pass when its leaves were fed. -/
def begin : Evaluation σ where
  pass := plan.feeds.foldl (fun pass feed => pass.addInput feed.1 feed.2)
    (.start previous plan.trackSteps)
  ambient := plan.ambient

/-- The pass after the pulls, whether or not they stopped. -/
def evaluation : Evaluation σ :=
  plan.pulls.foldl (fun evaluation stage => (Evaluation.pull stage).after evaluation)
    (plan.begin previous)

/-- The tables of the finished pass. -/
def finish : PassTables :=
  (plan.evaluation previous).pass.finish.1

/-- The pass pulls stages of the graph and is not asked to stop. -/
structure Over (graph : StageGraph σ) : Prop where
  pulls : ∀ stage ∈ plan.pulls, graph.Has stage
  uncancelled : plan.ambient.cancelled = false

end PassPlan

/-- The tables of the last of some passes, each on top of the one before. -/
def chain (plans : List (PassPlan σ)) : PassTables :=
  plans.foldl (fun tables plan => plan.finish tables) .empty

theorem chain_append_singleton (plans : List (PassPlan σ)) (plan : PassPlan σ) :
    chain (plans ++ [plan]) = plan.finish (chain plans) := by
  simp [chain]

/-- Feeding leaves leaves the tables alone, and the last values fed to a leaf wait for it. -/
theorem Pass.feed_all (feeds : List (StageId × List Value)) (pass : Pass) :
    let fed := feeds.foldl (fun pass feed => pass.addInput feed.1 feed.2) pass
    fed.current = pass.current ∧ fed.previous = pass.previous ∧ ∀ id,
      fed.fed? id = ((feeds.reverse.find? (·.1 == id)).map (·.2)).or (pass.fed? id) := by
  induction feeds generalizing pass with
  | nil => exact ⟨rfl, rfl, fun id => rfl⟩
  | cons feed rest ih =>
    obtain ⟨hc, hp, hf⟩ := ih (pass.addInput feed.1 feed.2)
    refine ⟨hc, hp, fun id => ?_⟩
    rw [List.foldl_cons, hf id, Pass.fed?_addInput, List.reverse_cons, List.find?_append]
    cases rest.reverse.find? (·.1 == id) with
    | some found => rfl
    | none => by_cases he : feed.1 = id <;> simp [he]

namespace PassPlan

variable {plan : PassPlan σ} {graph : StageGraph σ} {sample : Ambient σ} {previous : PassTables}

theorem sound_begin (plan : PassPlan σ) (previous : PassTables) :
    graph.Sound sample plan.given previous (plan.begin previous).pass := by
  obtain ⟨hc, hp, hf⟩ := Pass.feed_all plan.feeds (.start previous plan.trackSteps)
  refine ⟨hp, ?_, ?_⟩
  · intro stage table _ hfind
    rw [show (plan.begin previous).pass.current = PassTables.empty from hc] at hfind
    cases hfind
  · intro stage _ _ _
    rw [show (plan.begin previous).pass.fed? stage.id = _ from hf stage.id]
    unfold given fed?
    cases plan.feeds.reverse.find? (·.1 == stage.id) <;> rfl

/-- Pulls keep a pass sound, also those that stop. -/
theorem sound_pulls (hg : graph.Regular) {given : StageId → Option (Except Fault (List Value))}
    (pulls : List (Stage σ)) (hp : ∀ stage ∈ pulls, graph.Has stage) (before : Evaluation σ)
    (hs : graph.Sound sample given previous before.pass) (hc : before.ambient.cancelled = false) :
    let after := pulls.foldl (fun evaluation stage => (Evaluation.pull stage).after evaluation) before
    graph.Sound sample given previous after.pass ∧ after.ambient.cancelled = false := by
  induction pulls generalizing before with
  | nil => exact ⟨hs, hc⟩
  | cons stage rest ih =>
    obtain ⟨r, after, hx, hpulled⟩ :=
      Evaluation.pulls_of_regular hg stage (hp stage List.mem_cons_self) before hs hc
    rw [List.foldl_cons, Act.after_of_ending hx]
    exact ih (fun other hm => hp other (List.mem_cons_of_mem _ hm)) after hpulled.sound
      hpulled.uncancelled

theorem sound_evaluation (hg : graph.Regular) (ho : plan.Over graph) (sample : Ambient σ)
    (previous : PassTables) :
    graph.Sound sample plan.given previous (plan.evaluation previous).pass ∧
      (plan.evaluation previous).ambient.cancelled = false :=
  sound_pulls hg plan.pulls ho.pulls (plan.begin previous) (sound_begin plan previous)
    ho.uncancelled

/-- One more pull in a pass over the graph. -/
theorem pull_evaluation (hg : graph.Regular) (ho : plan.Over graph) (sample : Ambient σ)
    (previous : PassTables) {stage : Stage σ} (hm : graph.Has stage) :
    ∃ r after, Evaluation.pull stage (plan.evaluation previous) = Act.ending r after ∧
      graph.Pulled sample plan.given previous stage (plan.evaluation previous) r after := by
  obtain ⟨hs, hc⟩ := sound_evaluation hg ho sample previous
  exact Evaluation.pulls_of_regular hg stage hm _ hs hc

theorem baseline_finish (hg : graph.Regular) (ho : plan.Over graph)
    (hb : graph.Baseline sample previous) : graph.Baseline sample (plan.finish previous) :=
  hb.finish hg.builtin (sound_evaluation hg ho sample previous).1.lawful

end PassPlan

variable {graph : StageGraph σ}

/-- Every chain of passes ends in a baseline. -/
theorem baseline_chain (hg : graph.Regular) (sample : Ambient σ) (plans : List (PassPlan σ))
    (ho : ∀ plan ∈ plans, plan.Over graph) : graph.Baseline sample (chain plans) :=
  List.foldlRecOn plans _ (graph.baseline_empty sample) fun _ hb plan hm =>
    PassPlan.baseline_finish hg (ho plan hm) hb

/-- In step with its baseline a pass over the graph gives every stage a table. -/
theorem pull_of_inStep (hg : graph.Regular) {sample : Ambient σ} {previous : PassTables}
    (hb : graph.Baseline sample previous) (hstep : graph.InStep previous) {plan : PassPlan σ}
    (ho : plan.Over graph) {stage : Stage σ} (hm : graph.Has stage) :
    ∃ table after, Evaluation.pull stage (plan.evaluation previous) = .ok table after := by
  obtain ⟨r, after, hx, hpulled⟩ := PassPlan.pull_evaluation hg ho sample previous hm
  cases r with
  | ok table => exact ⟨table, after, hx⟩
  | error why =>
    obtain ⟨other, hu, hy⟩ := hpulled.stuck why rfl
    exact (hstep.not_stuck hg hb hpulled.sound (graph.has_of_upstream hu hm) why hy).elim

/-- What a stage of a standard graph shows in a pass over a baseline, up to a likeness. -/
theorem shows_of_pull (hg : graph.Standard) {sample : Ambient σ} {previous : PassTables}
    (hb : graph.Baseline sample previous) {like : graph.Likeness} {plan : PassPlan σ}
    (hgov : like.Governs previous plan.given) (ho : plan.Over graph)
    {stage : Stage σ} (hm : graph.Has stage) {table : Table Value} {after : Evaluation σ}
    (hx : Evaluation.pull stage (plan.evaluation previous) = .ok table after) :
    like.Shows stage (stage.meaning sample (previous.leafShows plan.given)) table := by
  obtain ⟨r, after', hx', hpulled⟩ := PassPlan.pull_evaluation hg.regular ho sample previous hm
  have hr : r = .ok table := by
    have hresult := Act.result_of_ending hx'
    rw [Act.result, hx] at hresult
    exact hresult.symm
  exact graph.shows_meaning hg hb hgov hpulled.sound stage hm table (hpulled.stored table hr)

/-- A pass that is given what leaves may hold finishes with what stages may hold. -/
theorem PassPlan.covers_finish (hg : graph.Regular) {typing : graph.Typing} {plan : PassPlan σ}
    (ho : plan.Over graph) {previous : PassTables} (hold : typing.Covers previous)
    (hgiven : typing.Admits plan.given) : typing.Covers (plan.finish previous) := by
  obtain ⟨hs, -⟩ := plan.sound_evaluation hg ho plan.ambient previous
  exact (StageGraph.Typing.covers_of_sound hold hgiven hs).compact

/-- Whatever passes are given what leaves may hold, stages hold what they may hold. -/
theorem covers_chain (hg : graph.Regular) {typing : graph.Typing} (plans : List (PassPlan σ))
    (ho : ∀ plan ∈ plans, plan.Over graph) (hgiven : ∀ plan ∈ plans, typing.Admits plan.given) :
    typing.Covers (chain plans) :=
  List.foldlRecOn plans _ StageGraph.Typing.covers_empty fun _ hold plan hm =>
    PassPlan.covers_finish hg (ho plan hm) hold (hgiven plan hm)

/-- A chain of passes cannot be told from a pass from scratch but for values that are alike. When
every leaf is fed, a stage that gets a table in a pass after the chain gets one from scratch as well,
with the same fault or alike live values in the same order, for every likeness under which equal values
are alike; and when every transform makes something of every value, it does get one. -/
theorem pull_chain_like_scratch (hg : graph.Standard) (plans : List (PassPlan σ))
    (hplans : ∀ plan ∈ plans, plan.Over graph) (last : PassPlan σ) (hlast : last.Over graph) :
    (∀ like : graph.Likeness, like.EqualAlike → (∀ plan ∈ plans, like.typing.Admits plan.given) →
      like.typing.Admits last.given →
      (∀ leaf, graph.Has leaf → leaf.IsLeaf → (last.fed? leaf.id).isSome) →
      ∀ stage table after, graph.Has stage →
        Evaluation.pull stage (last.evaluation (chain plans)) = .ok table after →
        ∀ scratch : PassPlan σ, scratch.Over graph →
          (∀ leaf, graph.Has leaf → leaf.IsLeaf → scratch.fed? leaf.id = last.fed? leaf.id) →
          ∃ table' after', Evaluation.pull stage (scratch.evaluation .empty) = .ok table' after' ∧
            table.fault = table'.fault ∧
            (table.fault = none →
              List.Forall₂ (like.Like stage.id) table.liveValues table'.liveValues)) ∧
    (graph.Productive → ∀ stage, graph.Has stage → ∃ table after,
      Evaluation.pull stage (last.evaluation (chain plans)) = .ok table after) := by
  have hb := baseline_chain hg.regular last.ambient plans hplans
  have hempty := graph.baseline_empty last.ambient
  constructor
  · intro like hequal hgiven hlastGiven hfed stage table after hm hx scratch hscratch hsame
    obtain ⟨table', after', hx'⟩ :=
      pull_of_inStep hg.regular hempty graph.inStep_empty hscratch hm
    have hgov : like.Governs (chain plans) last.given :=
      ⟨hequal, covers_chain hg.regular plans hplans hgiven, hlastGiven⟩
    have hgivens : ∀ leaf, graph.Has leaf → leaf.IsLeaf → scratch.given leaf.id = last.given leaf.id :=
      fun leaf hleaf hl => congrArg (Option.map Except.ok) (hsame leaf hleaf hl)
    have hgov' : like.Governs .empty scratch.given :=
      ⟨hequal, StageGraph.Typing.covers_empty, fun leaf values hleaf hl h =>
        hlastGiven leaf values hleaf hl ((hgivens leaf hleaf hl).symm.trans h)⟩
    have hleaves : ∀ other, Stage.Upstream other stage → other.IsLeaf →
        (chain plans).leafShows last.given other.id =
          PassTables.empty.leafShows scratch.given other.id := by
      intro other hu hleaf
      have hother := graph.has_of_upstream hu hm
      obtain ⟨values, hvalues⟩ := Option.isSome_iff_exists.mp (hfed other hother hleaf)
      have hlastg : last.given other.id = some (.ok values) := by
        rw [PassPlan.given, hvalues, Option.map_some]
      rw [PassTables.leafShows_of_given _ hlastg,
        PassTables.leafShows_of_given _ ((hgivens other hother hleaf).trans hlastg)]
    have hshows := shows_of_pull hg hb hgov hlast hm hx
    have hshows' := shows_of_pull hg hempty hgov' hscratch hm hx'
    rw [← stage.meaning_congr last.ambient hleaves] at hshows'
    exact ⟨table', after', hx', hshows.alike hshows'⟩
  · intro hp stage hm
    exact pull_of_inStep hg.regular hb (hb.inStep hp) hlast hm

/-! A leaf and one stage that reads it. -/

namespace TwoStages

/-- A value that the transforms below treat in a way of its own. -/
def small : Value := .list []

def large : Value := .pair small small

def numbers : Stage Unit :=
  .leaf ⟨⟨0⟩, "numbers"⟩

def derived (transform : Transform Unit) : Stage Unit :=
  .selectMany ⟨⟨1⟩, "derived"⟩ numbers transform

def stages (transform : Transform Unit) : StageGraph Unit where
  Has stage := stage = numbers ∨ stage = derived transform
  has_source hm hs := by
    rcases hm with rfl | rfl
    · cases hs
    · exact .inl (List.mem_singleton.mp hs)
  eq_of_id hm ho he := by
    rcases hm with rfl | rfl <;> rcases ho with rfl | rfl <;> first | rfl | cases he

theorem standard {transform : Transform Unit} (h : transform.Pure) :
    (stages transform).Standard := by
  rintro stage (rfl | rfl)
  · exact ⟨Comparer.total_equality, rfl⟩
  · exact ⟨⟨h, Comparer.total_equality⟩, rfl⟩

/-- The pass that feeds the leaf and pulls the stage. -/
def feeding (transform : Transform Unit) (values : List Value) : PassPlan Unit :=
  ⟨[(⟨0⟩, values)], [derived transform], false, ⟨false, ()⟩⟩

theorem feeding_over (transform : Transform Unit) (values : List Value) :
    (feeding transform values).Over (stages transform) where
  pulls _ hm := .inr (List.mem_singleton.mp hm)
  uncancelled := rfl

theorem feeding_over_all (transform : Transform Unit) (passes : List (List Value)) :
    ∀ plan ∈ passes.map (feeding transform), plan.Over (stages transform) := by
  intro plan hm
  obtain ⟨values, -, rfl⟩ := List.mem_map.mp hm
  exact feeding_over transform values

/-- Both stages hold values that equal nothing but themselves, if the transform makes such values of
such values. -/
def strict {transform : Transform Unit}
    (h : ∀ info value new, value.Strict → Stage.observed info transform value new →
      ∀ kept ∈ new, kept.Strict) : (stages transform).Typing where
  Holds _ value := value.Strict
  made {info _ _ _ value new} hm hv hnew := by
    rcases hm with hm | hm
    · cases hm
    · cases hm
      exact h _ value new hv hnew
  gathered hm := by rcases hm with hm | hm <;> cases hm
  paired hm := by rcases hm with hm | hm <;> cases hm

theorem strict_small : small.Strict :=
  Value.strict_list nofun

theorem strict_large : large.Strict :=
  Value.strict_pair strict_small strict_small

/-- Strict values are given. -/
theorem admits_feeding {transform : Transform Unit} {typing : (stages transform).Typing}
    {values : List Value} (h : ∀ value ∈ values, typing.Holds ⟨0⟩ value) :
    typing.Admits (feeding transform values).given := by
  rintro leaf fed (rfl | rfl) hl hg
  · cases hg
    exact h
  · exact hl.elim

/-- Every value twice. The transform panics at the small value. -/
def twice : Transform Unit
  | .list _ => .stop (.panicked .other)
  | value => .done [value, value]

theorem pure_twice : Transform.Pure twice := by
  intro value
  cases value <;> first | exact Callback.pure_stop _ | exact Callback.pure_done _

theorem productive_twice : (stages twice).Productive := by
  rintro info source transform same (h | h) value ambient
  · cases h
  · cases h
    cases value <;> simp [twice, Program.run, Act.result]

theorem strict_twice (info : StageInfo) (value : Value) (new : List Value) (hv : value.Strict)
    (hnew : Stage.observed info twice value new) : ∀ kept ∈ new, kept.Strict := by
  obtain ⟨ambient, after, hrun⟩ := hnew
  have hmade : new = [value, value] := by
    cases value <;> cases hrun <;> rfl
  simpa [hmade] using hv

/-- The text of a double. -/
def writing : Transform Unit
  | .data (.double bits) => .done [.data (.str (Double.text bits))]
  | value => .done [value]

theorem pure_writing : Transform.Pure writing := by
  intro value
  unfold writing
  split <;> exact Callback.pure_done _

def zero : Value := .data (.double 0)

def minusZero : Value := .data (.double 0x8000000000000000)

end TwoStages

open TwoStages in
/-- After a pass that failed and one with more values, the stage still shows what it shows from
scratch. -/
theorem pull_chain_like_scratch_twice :
    let chained := (feeding twice [large]).evaluation
      (chain ([[large, small], [large, large]].map (feeding twice)))
    ∃ table after table' after',
      Evaluation.pull (derived twice) chained = .ok table after ∧
      Evaluation.pull (derived twice) ((feeding twice [large]).evaluation .empty) =
        .ok table' after' ∧
      table.fault = table'.fault ∧ (table.fault = none → table.liveValues = table'.liveValues) := by
  obtain ⟨hsame, htotal⟩ := pull_chain_like_scratch (standard pure_twice) _
    (feeding_over_all twice [[large, small], [large, large]]) (feeding twice [large])
    (feeding_over twice [large])
  obtain ⟨table, after, hx⟩ := htotal productive_twice (derived twice) (.inr rfl)
  have hequal : (strict strict_twice).identity.EqualAlike :=
    StageGraph.Typing.equalAlike_identity fun _ _ other _ hv => (hv other).mp
  have hlarge : (strict strict_twice).identity.typing.Holds ⟨0⟩ large := ⟨rfl, strict_large⟩
  have hgiven : ∀ plan ∈ [[large, small], [large, large]].map (feeding twice),
      (strict strict_twice).identity.typing.Admits plan.given := by
    have hsmall : (strict strict_twice).identity.typing.Holds ⟨0⟩ small := ⟨rfl, strict_small⟩
    refine List.forall_mem_map.mpr (List.forall_mem_cons.mpr ⟨?_, List.forall_mem_singleton.mpr ?_⟩)
    · exact admits_feeding (List.forall_mem_cons.mpr ⟨hlarge, List.forall_mem_singleton.mpr hsmall⟩)
    · exact admits_feeding (List.forall_mem_cons.mpr ⟨hlarge, List.forall_mem_singleton.mpr hlarge⟩)
  have hfed : ∀ leaf, (stages twice).Has leaf → leaf.IsLeaf →
      ((feeding twice [large]).fed? leaf.id).isSome := by
    rintro leaf (rfl | rfl) hleaf
    · rfl
    · exact hleaf.elim
  obtain ⟨table', after', hx', hfault, hlive⟩ := hsame _ hequal hgiven
    (admits_feeding (List.forall_mem_singleton.mpr hlarge)) hfed (derived twice) table after (.inr rfl)
    hx (feeding twice [large]) (feeding_over twice [large]) fun _ _ _ => rfl
  exact ⟨table, after, table', after', hx, hx', hfault,
    fun hn => StageGraph.Typing.eq_of_identity (hlive hn)⟩

open TwoStages in
/-- The leaf takes a zero for the one of the other sign that it was fed before, and the stage keeps the
text of that one. -/
theorem chain_keeps_zero :
    (stages writing).Standard ∧
    ∃ table after table' after',
      Evaluation.pull (derived writing)
        ((feeding writing [minusZero]).evaluation (chain [feeding writing [zero]])) = .ok table after ∧
      Evaluation.pull (derived writing) ((feeding writing [minusZero]).evaluation .empty) =
        .ok table' after' ∧
      table.fault = none ∧ table.liveValues = [.data (.str "0.0")] ∧
      table'.fault = none ∧ table'.liveValues = [.data (.str "-0.0")] :=
  ⟨standard pure_writing, _, _, _, _, rfl, rfl, rfl, rfl, rfl, rfl⟩

end Regen
