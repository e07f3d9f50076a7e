import Regen.Proofs.Timeline

/-!
# Cancelling a pass

Once a pass was asked to stop, no transform is started in it any more and no stage gets a table by
being pulled. That holds for all that comes later in the pass, in the same generator and in the ones
after it, also where a generator goes on after the errors of its pulls. `PassPulls` says where a full
pass comes to pull a stage, by its own code or on the way of another pull. Where all generators have
the default execution, the first pull that is refused ends the pass.
-/

namespace Regen

variable {S σ : Type}

namespace Evaluation

/-- In the evaluation `before`, a pull of a stage comes to pull another one in the evaluation
`middle`: the stage itself, or one that it needs to compute its table. -/
inductive PullsOn : Stage σ → Evaluation σ → Stage σ → Evaluation σ → Prop
  | here (stage before) : PullsOn stage before stage before
  | map {info source transform same before other middle}
      (missing : before.pass.current.find? info.id = none) (running : before.ambient.cancelled = false)
      (pulls : PullsOn source before other middle) :
      PullsOn (.map info source transform same) before other middle
  | collect {info source before other middle}
      (missing : before.pass.current.find? info.id = none) (running : before.ambient.cancelled = false)
      (pulls : PullsOn source before other middle) :
      PullsOn (.collect info source) before other middle
  | left {info left right before other middle}
      (missing : before.pass.current.find? info.id = none) (running : before.ambient.cancelled = false)
      (pulls : PullsOn left before other middle) :
      PullsOn (.combine info left right) before other middle
  | right {info left right before lefts between other middle}
      (missing : before.pass.current.find? info.id = none) (running : before.ambient.cancelled = false)
      (returned : pull left before = .ok lefts between)
      (pulls : PullsOn right between other middle) :
      PullsOn (.combine info left right) before other middle

variable {stage other : Stage σ} {before middle after : Evaluation σ} {why : Stop}

/-- Where a pull stops, the pulls that came to it stop. -/
theorem PullsOn.error (h : PullsOn stage before other middle) (hx : pull other middle = .error why after) :
    pull stage before = .error why after := by
  induction h with
  | here => exact hx
  | map missing running _ ih => exact memoize_error missing running (Act.bind_error (ih hx))
  | collect missing running _ ih => exact memoize_error missing running (Act.bind_error (ih hx))
  | left missing running _ ih => exact memoize_error missing running (Act.bind_error (ih hx))
  | right missing running returned _ ih =>
    exact memoize_error missing running ((Act.bind_ok returned).trans (Act.bind_error (ih hx)))

/-- The pulls of the timed evaluation. -/
theorem PullsOn.timed (h : PullsOn stage before other middle) {told : Evaluation (Timeline σ)}
    (ht : told.Tells before) :
    ∃ telling, PullsOn stage.timed told other.timed telling ∧ telling.Tells middle := by
  induction h generalizing told with
  | here => exact ⟨told, .here _ _, ht⟩
  | map missing running _ ih =>
    obtain ⟨telling, hpulls, htells⟩ := ih ht
    exact ⟨telling, .map (ht.pass ▸ missing) (ht.ambient.cancelled ▸ running) hpulls, htells⟩
  | collect missing running _ ih =>
    obtain ⟨telling, hpulls, htells⟩ := ih ht
    exact ⟨telling, .collect (ht.pass ▸ missing) (ht.ambient.cancelled ▸ running) hpulls, htells⟩
  | left missing running _ ih =>
    obtain ⟨telling, hpulls, htells⟩ := ih ht
    exact ⟨telling, .left (ht.pass ▸ missing) (ht.ambient.cancelled ▸ running) hpulls, htells⟩
  | @right info left _ _ _ _ _ _ missing running returned _ ih =>
    obtain ⟨_, told', htold, rfl, ht'⟩ := (pull_timed left).of_ok ht returned
    obtain ⟨telling, hpulls, htells⟩ := ih ht'
    exact ⟨telling, .right (ht.pass ▸ missing) (ht.ambient.cancelled ▸ running) htold hpulls, htells⟩

end Evaluation

namespace Execution

/-- Collecting registered stages comes to pull a stage. -/
inductive CollectsOn (generator : String) (options : DriverOptions) :
    List (OutputBinding σ) → Execution σ → Stage σ → Evaluation σ → Prop
  | here {binding rest before other middle} (enabled : options.isEnabled binding.kind = true)
      (pulls : Evaluation.PullsOn binding.stage before.evaluation other middle) :
      CollectsOn generator options (binding :: rest) before other middle
  | later {binding rest before between other middle} (enabled : options.isEnabled binding.kind = true)
      (returned : collectBinding generator binding before = .ok () between)
      (pulls : CollectsOn generator options rest between other middle) :
      CollectsOn generator options (binding :: rest) before other middle
  | skipped {binding rest before other middle} (disabled : options.isEnabled binding.kind = false)
      (pulls : CollectsOn generator options rest before other middle) :
      CollectsOn generator options (binding :: rest) before other middle

/-- The code of a generator comes to pull a stage. -/
inductive PullsIn (pipeline : Pipeline S σ) (options : DriverOptions) (briefing : Briefing S) :
    ExecuteProgram σ Unit → Execution σ → Stage σ → Evaluation σ → Prop
  | pull {stage next before other middle}
      (pulls : Evaluation.PullsOn stage before.evaluation other middle) :
      PullsIn pipeline options briefing (.ask (.pull stage) next) before other middle
  | collect {next before other middle}
      (pulls : CollectsOn briefing.generator options pipeline.outputs before other middle) :
      PullsIn pipeline options briefing (.ask .collect next) before other middle
  | later {request next before given between other middle}
      (answered : answer pipeline options briefing request before = .ok given between)
      (pulls : PullsIn pipeline options briefing (next given) between other middle) :
      PullsIn pipeline options briefing (.ask request next) before other middle

section

variable {generator : String} {options : DriverOptions} {bindings : List (OutputBinding σ)}
  {before : Execution σ} {other : Stage σ} {middle after : Evaluation σ} {why : Stop}

/-- Where a pull stops, the collecting that came to it stops. -/
theorem CollectsOn.error (h : CollectsOn generator options bindings before other middle)
    (hx : Evaluation.pull other middle = .error why after) :
    ∃ ended, collectBindings generator options bindings before = .error why ended ∧
      ended.evaluation = after := by
  induction h with
  | @here binding rest before other middle enabled pulls =>
    refine ⟨{ before with evaluation := after }, ?_, rfl⟩
    have hpull : onEvaluation (Evaluation.pull binding.stage) before =
        .error why { before with evaluation := after } :=
      Act.within_apply (r := .error why) (pulls.error hx)
    rw [collectBindings_enabled enabled]
    exact Act.bind_error (Act.bind_error hpull)
  | later enabled returned _ ih =>
    obtain ⟨ended, hended, he⟩ := ih hx
    rw [collectBindings_enabled enabled]
    exact ⟨ended, (Act.bind_ok returned).trans hended, he⟩
  | skipped disabled _ ih =>
    rw [collectBindings_disabled disabled]
    exact ih hx

theorem CollectsOn.timed (h : CollectsOn generator options bindings before other middle)
    {told : Execution (Timeline σ)} (ht : told.Tells before) :
    ∃ telling, CollectsOn generator options (bindings.map OutputBinding.timed) told other.timed telling ∧
      telling.Tells middle := by
  induction h generalizing told with
  | here enabled pulls =>
    obtain ⟨telling, hpulls, htells⟩ := pulls.timed ht.evaluation
    exact ⟨telling, .here enabled hpulls, htells⟩
  | later enabled returned _ ih =>
    obtain ⟨_, told', htold, -, ht'⟩ := (collectBinding_simulates generator _).of_ok ht returned
    obtain ⟨telling, hpulls, htells⟩ := ih ht'
    exact ⟨telling, .later enabled htold hpulls, htells⟩
  | skipped disabled _ ih =>
    obtain ⟨telling, hpulls, htells⟩ := ih ht
    exact ⟨telling, .skipped disabled hpulls, htells⟩

end

section

variable {pipeline : Pipeline S σ} {options : DriverOptions} {briefing : Briefing S}
  {before : Execution σ} {other : Stage σ} {middle after : Evaluation σ} {error : EngineError}

/-- What comes after a program pulls where that program ended. -/
theorem PullsIn.after_ok {α : Type} {program : Program (interface σ) α} {f : α → ExecuteProgram σ Unit}
    {given : α} {between : Execution σ}
    (hrun : program.run (answer pipeline options briefing) before = .ok given between)
    (h : PullsIn pipeline options briefing (f given) between other middle) :
    PullsIn pipeline options briefing (program.bind f) before other middle := by
  induction program generalizing before with
  | done a =>
    cases hrun
    exact h
  | stop why => cases hrun
  | ask request next ih =>
    obtain ⟨answered, reached, hanswer, hrun⟩ := Act.bind_eq_ok hrun
    exact .later hanswer (ih answered hrun)

theorem PullsIn.timed {program : ExecuteProgram σ Unit}
    (h : PullsIn pipeline options briefing program before other middle)
    {told : Execution (Timeline σ)} (ht : told.Tells before) :
    ∃ telling, PullsIn pipeline.timed options briefing (program.embed Timeline.offerExecution) told
      other.timed telling ∧ telling.Tells middle := by
  induction h generalizing told with
  | pull pulls =>
    obtain ⟨telling, hpulls, htells⟩ := pulls.timed ht.evaluation
    exact ⟨telling, .pull hpulls, htells⟩
  | collect pulls =>
    obtain ⟨telling, hpulls, htells⟩ := pulls.timed ht
    exact ⟨telling, .collect hpulls, htells⟩
  | later answered _ ih =>
    obtain ⟨_, told', htold, rfl, ht'⟩ :=
      (answer_simulates pipeline options briefing _).of_ok ht answered
    obtain ⟨telling, hpulls, htells⟩ := ih ht'
    exact ⟨telling, .after_ok htold hpulls, htells⟩

/-- The default execution pulls where it collects the registered stages. -/
theorem PullsIn.collectsOn
    (h : PullsIn pipeline options briefing runPipeline before other middle) :
    ∃ fed, answer pipeline options briefing .seed before = .ok () fed ∧
      CollectsOn briefing.generator options pipeline.outputs fed other middle := by
  cases h with
  | later seeded h =>
    refine ⟨_, seeded, ?_⟩
    cases h with
    | collect pulls => exact pulls
    | @later _ _ _ given _ _ _ _ h =>
      cases given with
      | ok value => cases h
      | error error => cases h

/-- Where a pull fails, the default execution that came to it fails. -/
theorem PullsIn.error_runPipeline
    (h : PullsIn pipeline options briefing runPipeline before other middle)
    (hx : Evaluation.pull other middle = .error (.failed error) after) :
    ∃ ended, runPipeline.run (answer pipeline options briefing) before = .error (.failed error) ended ∧
      ended.evaluation = after := by
  obtain ⟨fed, hseed, hcollects⟩ := h.collectsOn
  obtain ⟨ended, hended, he⟩ := hcollects.error hx
  refine ⟨ended, ?_, he⟩
  rw [run_runPipeline]
  cases hseed
  exact hended

end

end Execution

namespace Driver

/-- Running members of a driver comes to pull a stage. -/
inductive MembersPull (driver : Driver S σ) (runId : String) (snapshot : S)
    (inputs : List AdditionalInput) :
    List (Member S σ) → Session σ → Stage σ → Evaluation σ → Prop
  | here {member rest before pipeline declared other middle}
      (declares : pipelineOf member before = .ok (.ok pipeline) declared)
      (pulls : Execution.PullsIn pipeline driver.options ⟨member.generator.name, snapshot, inputs⟩
        (member.generator.execute ⟨member.generator.name, snapshot, inputs⟩)
        (.start ⟨.start member.state.tables driver.options.trackIncrementalSteps, declared.ambient⟩)
        other middle) :
      MembersPull driver runId snapshot inputs (member :: rest) before other middle
  | later {member rest before state between other middle}
      (ran : driver.runMember runId snapshot inputs member before = .ok state between)
      (pulls : MembersPull driver runId snapshot inputs rest between other middle) :
      MembersPull driver runId snapshot inputs (member :: rest) before other middle

/-- In a full pass of the driver, a stage comes to be pulled in the evaluation `middle`. -/
def PassPulls (driver : Driver S σ) (snapshot : Snapshot S) (session : Session σ) (stage : Stage σ)
    (middle : Evaluation σ) : Prop :=
  driver.isUpToDate snapshot = false ∧ ∃ runId named started inputs,
    Session.newRunId session = .ok runId named ∧
    Session.emit driver.sink (.passStarted runId driver.members.length) named = .ok () started ∧
    Edit.commitAll driver.pendingEdits driver.additionalInputs = .ok inputs ∧
    driver.MembersPull runId snapshot.content inputs driver.members started stage middle

variable {driver : Driver S σ} {runId : String} {content : S} {snapshot : Snapshot S}
  {inputs : List AdditionalInput} {members : List (Member S σ)} {before session : Session σ}
  {other : Stage σ} {middle after : Evaluation σ}

theorem MembersPull.timed (h : driver.MembersPull runId content inputs members before other middle)
    {told : Session (Timeline σ)} (ht : told.Tells before) :
    ∃ telling, driver.timed.MembersPull runId content inputs (members.map Member.timed) told
      other.timed telling ∧ telling.Tells middle := by
  induction h generalizing told with
  | @here member rest before pipeline declared other middle declares pulls =>
    obtain ⟨_, told', htold, rfl, ht'⟩ := (pipelineOf_simulates member).of_ok ht declares
    have hbegun : Execution.Tells
        (.start ⟨.start member.state.tables driver.options.trackIncrementalSteps, told'.ambient⟩)
        (.start ⟨.start member.state.tables driver.options.trackIncrementalSteps,
          declared.ambient⟩) :=
      ⟨⟨rfl, ht'.ambient⟩, rfl, rfl⟩
    obtain ⟨telling, hpulls, htells⟩ := pulls.timed hbegun
    exact ⟨telling, .here htold hpulls, htells⟩
  | later ran _ ih =>
    obtain ⟨_, told', htold, -, ht'⟩ :=
      (driver.runMember_simulates runId content inputs _).of_ok ht ran
    obtain ⟨telling, hpulls, htells⟩ := ih ht'
    exact ⟨telling, .later htold hpulls, htells⟩

/-- Where a pull is refused, the generator with the default execution that came to it ends the pass. -/
theorem MembersPull.cancelled
    (h : driver.MembersPull runId content inputs members before other middle)
    (hdefault : ∀ member ∈ members, ∀ briefing,
      member.generator.execute briefing = Execution.runPipeline)
    (hx : Evaluation.pull other middle = .error (.failed .cancelled) after) :
    ∃ ended, driver.runMembers runId content inputs members before =
      .error (.failed .cancelled) ended ∧ ended.ambient = after.ambient := by
  induction h with
  | @here member rest before pipeline declared other middle declares pulls =>
    rw [hdefault member List.mem_cons_self] at pulls
    obtain ⟨stopped, hstopped, he⟩ := pulls.error_runPipeline hx
    refine ⟨{ declared with ambient := stopped.evaluation.ambient }, Act.bind_error ?_, by rw [he]⟩
    refine (Act.bind_ok declares).trans (Act.bind_error ?_)
    have hrun : (member.generator.execute ⟨member.generator.name, content, inputs⟩).run
        (Execution.answer pipeline driver.options ⟨member.generator.name, content, inputs⟩)
        (.start ⟨.start member.state.tables driver.options.trackIncrementalSteps,
          declared.ambient⟩) = .error (.failed .cancelled) stopped := by
      rw [hdefault member List.mem_cons_self]
      exact hstopped
    exact (member.generator.executePipeline_of_run hrun).trans (if_pos rfl)
  | later ran _ ih =>
    obtain ⟨ended, hended, he⟩ := ih (fun member hm => hdefault member (List.mem_cons_of_mem _ hm)) hx
    exact ⟨ended, (Act.bind_ok ran).trans (Act.bind_error hended), he⟩

theorem PassPulls.timed (h : driver.PassPulls snapshot session other middle)
    {told : Session (Timeline σ)} (ht : told.Tells session) :
    ∃ telling, driver.timed.PassPulls snapshot told other.timed telling ∧ telling.Tells middle := by
  obtain ⟨hneeded, runId, named, started, inputs, hnamed, hstarted, hcommitted, hpulls⟩ := h
  obtain ⟨_, named', hnamed', rfl, ht⟩ := Session.newRunId_simulates.of_ok ht hnamed
  obtain ⟨_, started', hstarted', -, ht⟩ := (Session.emit_simulates driver.sink _).of_ok ht hstarted
  obtain ⟨telling, hpulls', htells⟩ := hpulls.timed ht
  have hcount : driver.timed.members.length = driver.members.length := List.length_map ..
  refine ⟨telling, ⟨hneeded, _, named', started', inputs, hnamed', ?_, ?_, hpulls'⟩, htells⟩
  · rw [hcount]
    exact hstarted'
  · exact (commitAll_timed driver.pendingEdits driver.additionalInputs).trans hcommitted

theorem PassPulls.cancelled (h : driver.PassPulls snapshot session other middle)
    (hdefault : ∀ member ∈ driver.members, ∀ briefing,
      member.generator.execute briefing = Execution.runPipeline)
    (hx : Evaluation.pull other middle = .error (.failed .cancelled) after) :
    ∃ ended, driver.fullPass snapshot session = .error (.failed .cancelled) ended ∧
      ended.ambient = after.ambient := by
  obtain ⟨hneeded, runId, named, started, inputs, hnamed, hstarted, hcommitted, hpulls⟩ := h
  obtain ⟨ended, hended, he⟩ := hpulls.cancelled hdefault hx
  refine ⟨ended, (Act.bind_ok hnamed).trans ?_, he⟩
  rw [hneeded, if_neg Bool.false_ne_true]
  refine (Act.bind_ok hstarted).trans ?_
  rw [hcommitted]
  exact (Act.bind_ok rfl).trans (Act.bind_error hended)

/-- Once a full pass was asked to stop, before it began or by any code of a plug-in, it starts no
transform and computes no table. The timed pass ends as the pass does, and in its timeline no transform
is started after a request to stop. Wherever the pass comes to pull a stage, its flag is set if and only
if there is such a request in the timeline so far; when it is set and the stage has no table, the pull
is refused and nothing changes. Where all generators have the default execution, that ends the pass, and
no code of a plug-in runs any more. -/
theorem fullPass_stops_calls (driver : Driver S σ) (snapshot : Snapshot S) (session : Session σ) :
    let timed := driver.timed.fullPass snapshot
    let plain := driver.fullPass snapshot
    Act.Alike Session.Tells (fun t s => t = s.timed) (timed session.timed) (plain session) ∧
    (∀ earlier later, (timed.after session.timed).ambient.moments = earlier ++ .cancelled :: later →
      ∀ stage value, .started stage value ∉ later) ∧
    ∀ stage middle, driver.PassPulls snapshot session stage middle →
      (∃ telling, driver.timed.PassPulls snapshot session.timed stage.timed telling ∧
        telling.Tells middle ∧
        (middle.ambient.cancelled = true ↔ .cancelled ∈ telling.ambient.moments)) ∧
      (middle.ambient.cancelled = true → middle.pass.current.find? stage.id = none →
        Evaluation.pull stage middle = .error (.failed .cancelled) middle ∧
        ((∀ member ∈ driver.members, ∀ briefing,
            member.generator.execute briefing = Execution.runPipeline) →
          ∃ ended, plain session = .error (.failed .cancelled) ended ∧
            ended.ambient = middle.ambient)) := by
  intro timed plain
  have halike := driver.fullPass_simulates snapshot _ _ session.tells_timed
  refine ⟨halike, fun earlier later he stage value hm => ?_, fun stage middle hpulls =>
    ⟨?_, fun hc hnone => ?_⟩⟩
  · have horderly : (timed.after session.timed).ambient.Orderly := by
      rcases halike.endings with ⟨_, _, _, _, ht, -, -, htells⟩ | ⟨_, _, _, ht, -, htells⟩
      · exact Act.after_of_ending (r := .ok _) ht ▸ htells.ambient.orderly
      · exact Act.after_of_ending (r := .error _) ht ▸ htells.ambient.orderly
    have hstill := horderly.still
    rw [he] at hstill
    have hlater := (List.pairwise_cons.mp (List.pairwise_append.mp hstill).2.1).1
    exact hlater _ hm rfl stage value rfl
  · obtain ⟨telling, htelling, htells⟩ := hpulls.timed session.tells_timed
    exact ⟨telling, htelling, htells, htells.ambient.cancelled ▸ htells.ambient.orderly.marked⟩
  · have hx : Evaluation.pull stage middle = .error (.failed .cancelled) middle := by
      rcases Evaluation.pull_cancelled stage hc with ⟨table, hf, -⟩ | hx
      · cases hnone.symm.trans hf
      · exact hx
    exact ⟨hx, fun hdefault => hpulls.cancelled hdefault hx⟩

end Driver

/-! A generator whose first transform asks the pass to stop. -/

namespace Halting

def entry : Value :=
  .list []

def numbers : Stage Unit :=
  .leaf ⟨⟨1⟩, "numbers"⟩

def halting : Stage Unit :=
  .selectMany ⟨⟨2⟩, "halting"⟩ numbers fun _ => .ask .cancel fun _ => .done []

def copied : Stage Unit :=
  .selectMany ⟨⟨3⟩, "copied"⟩ numbers fun value => .done [value]

def generator : Generator Unit Unit where
  identity := 0
  name := "halting"
  declare :=
    .ask (.snapshotLeaf "numbers" fun _ => .ok [entry]) fun _ =>
      .ask (.newStage "halting") fun _ =>
        .ask (.newStage "copied") fun _ =>
          .ask (.registerOutput halting .source) fun _ =>
            .ask (.registerOutput copied .source) .done

/-- What the generator declares. -/
def pipeline : Pipeline Unit Unit where
  shape := ⟨"halting", [(halting.info, .source), (copied.info, .source)], []⟩
  leaves := [⟨numbers.info, fun _ => .ok [entry]⟩]
  additionalInputs := none
  outputs := [⟨halting, .source⟩, ⟨copied, .source⟩]

def driver : Driver Unit Unit :=
  { Driver.new ⟨fun generator output => .ok ⟨generator, output.hintName, .null⟩,
      fun content _ => .ok content⟩ with
    members := [.join generator] }

def session : Session Unit :=
  ⟨⟨false, ()⟩, 0, []⟩

/-- The evaluation after the first registered stage was pulled. -/
def halted : Evaluation Unit where
  pass := {
    previous := .empty
    current := ⟨[(numbers.info, ⟨[.filled (entry, .added) []], false, none⟩),
      (halting.info, ⟨[.vacant .added], false, none⟩)]⟩
    inputs := []
    steps := none }
  ambient := ⟨true, ()⟩

/-- With the second registered stage the pass comes to a pull after the request to stop. -/
theorem passPulls_copied : driver.PassPulls ⟨1, ()⟩ session copied halted := by
  let begun : Execution Unit := .start ⟨.start .empty false, ⟨false, ()⟩⟩
  let fed : Execution Unit := .start ⟨(Pass.start .empty false).addInput ⟨1⟩ [entry], ⟨false, ()⟩⟩
  let briefing : Briefing Unit := ⟨"halting", (), []⟩
  have hdeclared : Driver.pipelineOf (.join generator) { session with fresh := 1 } =
      .ok (.ok pipeline) { session with fresh := 4 } := rfl
  have hseeded : Execution.answer pipeline .standard briefing .seed begun = .ok () fed := rfl
  have hcollected : Execution.collectBinding "halting" ⟨halting, .source⟩ fed =
      .ok () (.start halted) := rfl
  refine ⟨rfl, _, _, { session with fresh := 1 }, [], rfl, rfl, rfl, ?_⟩
  exact .here hdeclared (.later hseeded (.collect (.later rfl hcollected (.here rfl (.here _ _)))))

end Halting

open Halting in
/-- The second stage is not computed any more, and the pass ends with the pull of it. -/
theorem Driver.fullPass_stops_calls_halting :
    let moments := ((driver.timed.fullPass ⟨1, ()⟩).after session.timed).ambient.moments
    driver.PassPulls ⟨1, ()⟩ session copied halted ∧ halted.ambient.cancelled = true ∧
      Evaluation.pull copied halted = .error (.failed .cancelled) halted ∧
      (∃ ended, driver.fullPass ⟨1, ()⟩ session = .error (.failed .cancelled) ended) ∧
      moments = [.started ⟨2⟩ entry, .cancelled] := by
  intro moments
  obtain ⟨-, -, hcomes⟩ := fullPass_stops_calls driver ⟨1, ()⟩ session
  obtain ⟨-, hrefused⟩ := hcomes copied halted passPulls_copied
  obtain ⟨hx, hends⟩ := hrefused rfl rfl
  obtain ⟨ended, hended, -⟩ := hends fun member hm briefing => by
    cases List.mem_singleton.mp hm
    rfl
  exact ⟨passPulls_copied, rfl, hx, ⟨ended, hended⟩, by decide +kernel⟩

end Regen
