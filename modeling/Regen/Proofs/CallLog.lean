import Regen.Proofs.PassRuns

/-!
# Calls of transforms

A transform may read and write the memory that plug-ins share, so it can note its own calls. The
logged form of a stage does that: its memory is a logbook, which holds the memory of the plain stage
beside the calls so far, and every call of a transform is written there when it ends, together with
how it ended. Otherwise a logged stage does what the plain one does: a pass over logged stages is the
plain pass once the calls are forgotten. What is shown here about the calls of a pass is therefore
shown about transforms that can run, not about a second evaluator.
-/

namespace Regen

variable {σ τ α β : Type}

/-- One call of the transform of a stage, with the value it was called on and how it ended. -/
structure Call where
  stage : StageId
  value : Value
  ended : Except Stop (List Value)

/-- The memory of plug-ins, and the calls so far. -/
structure Logbook (σ : Type) where
  memory : σ
  calls : List Call

namespace Ambient

/-- The ambience without the calls. -/
def plain (ambient : Ambient (Logbook σ)) : Ambient σ :=
  ⟨ambient.cancelled, ambient.memory.memory⟩

/-- The ambience with some calls noted. -/
def logged (ambient : Ambient σ) (calls : List Call) : Ambient (Logbook σ) :=
  ⟨ambient.cancelled, ambient.memory, calls⟩

def calls (ambient : Ambient (Logbook σ)) : List Call :=
  ambient.memory.calls

@[simp] theorem calls_logged (ambient : Ambient σ) (calls : List Call) :
    (ambient.logged calls).calls = calls := rfl

end Ambient

namespace Evaluation

/-- The evaluation without the calls. -/
def plain (evaluation : Evaluation (Logbook σ)) : Evaluation σ :=
  ⟨evaluation.pass, evaluation.ambient.plain⟩

@[simp] theorem pass_plain (evaluation : Evaluation (Logbook σ)) :
    evaluation.plain.pass = evaluation.pass := rfl

/-- The calls of the transform of one stage, in order. -/
def callsOf (evaluation : Evaluation (Logbook σ)) (id : StageId) : List Call :=
  evaluation.ambient.calls.filter (·.stage == id)

end Evaluation

namespace Logbook

/-- What a plug-in asks, asked of the memory in a logbook. -/
def offer : (request : Ambient.Request σ) →
    Callback (Logbook σ) ((Ambient.interface σ).Answer request)
  | .cancel => .ask .cancel .done
  | .readMemory => .ask .readMemory fun book => .done book.memory
  | .writeMemory memory =>
    .ask .readMemory fun book => .ask (.writeMemory { book with memory }) .done

def note (call : Call) : Callback (Logbook σ) Unit :=
  .ask .readMemory fun book => .ask (.writeMemory { book with calls := book.calls ++ [call] }) .done

/-- The same call of a transform, noted when it ends. -/
def noting (id : StageId) (value : Value) :
    Callback σ (List Value) → Callback (Logbook σ) (List Value)
  | .done values => (note ⟨id, value, .ok values⟩).bind fun _ => .done values
  | .stop why => (note ⟨id, value, .error why⟩).bind fun _ => .stop why
  | .ask request next => (offer request).bind fun answer => noting id value (next answer)

end Logbook

/-- The transform of a stage that notes its calls. -/
def Transform.logged (id : StageId) (transform : Transform σ) : Transform (Logbook σ) :=
  fun value => Logbook.noting id value (transform value)

/-- The stage with all its transforms logged. -/
def Stage.logged : Stage σ → Stage (Logbook σ)
  | .input info same => .input info same
  | .map info source transform same => .map info source.logged (transform.logged info.id) same
  | .collect info source => .collect info source.logged
  | .combine info left right => .combine info left.logged right.logged
  | .custom info update => .custom info fun previous => (update previous).embed Logbook.offer

@[simp] theorem Stage.info_logged (stage : Stage σ) : stage.logged.info = stage.info := by
  cases stage <;> rfl

@[simp] theorem Stage.name_logged (stage : Stage σ) : stage.logged.name = stage.name := by
  cases stage <;> rfl

namespace PassStep

/-- The same step over logged stages. What changes the ambience from outside leaves the calls. -/
def logged (calls : List Call) : PassStep σ → PassStep (Logbook σ)
  | .feed leaf values => .feed leaf values
  | .pull stage => .pull stage.logged
  | .disturb ambient => .disturb (ambient.logged calls)

/-- The pass over logged stages after a step. -/
def performLogged (evaluation : Evaluation (Logbook σ)) (step : PassStep σ) :
    Evaluation (Logbook σ) :=
  (step.logged evaluation.ambient.calls).perform Evaluation.pull evaluation

def performAllLogged (evaluation : Evaluation (Logbook σ)) (steps : List (PassStep σ)) :
    Evaluation (Logbook σ) :=
  steps.foldl performLogged evaluation

end PassStep

/-- The pass over logged stages when everything was done, from no calls on. -/
def PassRun.loggedEvaluation (run : PassRun σ) (previous : PassTables) : Evaluation (Logbook σ) :=
  PassStep.performAllLogged ⟨.start previous run.trackSteps, run.ambient.logged []⟩ run.steps

namespace Act

/-- Under a view of its state the act does what another one does. -/
def Under (view : τ → σ) (act : Act τ α) (plain : Act σ α) : Prop :=
  ∀ t r t', act t = ending r t' → plain (view t) = ending r (view t')

section

variable {view : τ → σ} {act : Act τ α} {plain : Act σ α}

/-- To act under a view is to simulate the other act where the view shows its state. -/
theorem under_iff_simulates :
    act.Under view plain ↔ act.Simulates (fun t s => view t = s) Eq plain := by
  constructor
  · rintro h t _ rfl
    have hx := eq_ending act t
    rw [hx, h t _ _ hx]
    cases act.result t with
    | ok a => exact .ok rfl rfl
    | error why => exact .error rfl
  · intro h t r t' hx
    rcases (h t (view t) rfl).endings with ⟨a, b, u, v, ht, hs, rfl, rfl⟩ | ⟨why, u, v, ht, hs, rfl⟩
    · obtain ⟨rfl, rfl⟩ := ending_inj (r := .ok a) (ht.symm.trans hx)
      exact hs
    · obtain ⟨rfl, rfl⟩ := ending_inj (r := .error why) (ht.symm.trans hx)
      exact hs

/-- Under a view the act ends in a state that the other one ends in. -/
theorem Under.after_eq (h : act.Under view plain) (t : τ) :
    plain.after (view t) = view (act.after t) :=
  after_of_ending (h t _ _ (eq_ending act t))

end

end Act

namespace Logbook

/-- What is asked is answered as without a logbook, and leaves the calls alone. -/
theorem run_offer (request : Ambient.Request σ) (ambient : Ambient (Logbook σ)) :
    ∃ given after, Ambient.answer request ambient.plain = .ok given after ∧
      (offer request).run Ambient.answer ambient = .ok given (after.logged ambient.calls) := by
  cases request <;> exact ⟨_, _, rfl, rfl⟩

/-- A noted call ends as the call does, with one more call in the book. -/
theorem run_noting (id : StageId) (value : Value) (callback : Callback σ (List Value))
    (ambient : Ambient (Logbook σ)) {r : Except Stop (List Value)} {after : Ambient σ}
    (h : callback.run Ambient.answer ambient.plain = Act.ending r after) :
    (noting id value callback).run Ambient.answer ambient =
      Act.ending r (after.logged (ambient.calls ++ [⟨id, value, r⟩])) := by
  induction callback generalizing ambient with
  | done values =>
    obtain ⟨rfl, rfl⟩ := Act.ending_inj (r := .ok values) h
    rfl
  | stop why =>
    obtain ⟨rfl, rfl⟩ := Act.ending_inj (r := .error why) h
    rfl
  | ask request next ih =>
    obtain ⟨given, middle, hanswer, hoffer⟩ := run_offer request ambient
    have hnext : (next given).run Ambient.answer middle = Act.ending r after :=
      (Act.bind_ok hanswer).symm.trans h
    have hrun := Program.run_bind Ambient.answer (offer request) fun given =>
      noting id value (next given)
    exact (congrFun hrun ambient).trans
      ((Act.bind_ok hoffer).trans (ih given (middle.logged ambient.calls) hnext))

/-- A program that is offered a logbook does what it does without. -/
theorem under_embed (callback : Callback σ α) :
    Act.Under Ambient.plain ((callback.embed offer).run Ambient.answer)
      (callback.run Ambient.answer) := by
  refine Act.under_iff_simulates.mpr (Program.embed_simulates (fun request => ?_) callback)
  rintro ambient _ rfl
  obtain ⟨given, after, hanswer, hoffer⟩ := run_offer request ambient
  rw [hanswer, hoffer]
  exact .ok rfl rfl

theorem under_noting (id : StageId) (value : Value) (callback : Callback σ (List Value)) :
    Act.Under Ambient.plain ((noting id value callback).run Ambient.answer)
      (callback.run Ambient.answer) := by
  intro ambient r after h
  have hplain := Act.eq_ending (callback.run Ambient.answer) ambient.plain
  rw [run_noting id value callback ambient hplain] at h
  obtain ⟨hr, rfl⟩ := Act.ending_inj h
  rw [hr] at hplain
  exact hplain

end Logbook

theorem Ambient.cancelled_of_plain {t : Ambient (Logbook σ)} {s : Ambient σ} (h : t.plain = s) :
    t.cancelled = s.cancelled :=
  h ▸ rfl

theorem Stage.simulates_logged (stage : Stage σ) :
    stage.logged.Simulates (fun t s => t.plain = s) stage := by
  induction stage with
  | input info same => exact .input info same
  | map info source transform same ih =>
    exact .map same ih fun value =>
      applyTransform_simulates (fun _ _ => Ambient.cancelled_of_plain) info
        (Act.under_iff_simulates.mp (Logbook.under_noting info.id value (transform value)))
  | collect info source ih => exact .collect info ih
  | combine info left right ihl ihr => exact .combine info ihl ihr
  | custom info update =>
    exact .custom info fun old => Act.under_iff_simulates.mp (Logbook.under_embed (update old))

namespace Evaluation

/-- Evaluations of one pass, in ambiences that differ by the calls, differ by the calls. -/
theorem related_plain : (Related fun (t : Ambient (Logbook σ)) (s : Ambient σ) => t.plain = s) =
    fun t s => t.plain = s := by
  funext t s
  refine propext ⟨fun ⟨hpass, hambient⟩ => ?_, fun h => h ▸ ⟨rfl, rfl⟩⟩
  rw [plain, hpass, hambient]

/-- A logged stage computes its table as the stage does. -/
theorem under_compute (stage : Stage σ) (old : Option (Table Value)) :
    Act.Under Evaluation.plain (compute stage.logged old) (compute stage old) := by
  have h := compute_simulates (fun _ _ => Ambient.cancelled_of_plain) stage.simulates_logged old
  rw [related_plain] at h
  exact Act.under_iff_simulates.mpr h

/-- Once the calls are forgotten, a pull of a logged stage is a pull of the stage. -/
theorem under_pull (stage : Stage σ) :
    Act.Under Evaluation.plain (pull stage.logged) (pull stage) := by
  have h := pull_simulates (fun _ _ => Ambient.cancelled_of_plain) stage.simulates_logged
  rw [related_plain] at h
  exact Act.under_iff_simulates.mpr h

/-- A pull of a logged stage that ended is a pull of the stage that ended likewise. -/
theorem pull_plain {stage : Stage σ} {before after : Evaluation (Logbook σ)}
    {r : Except Stop (Table Value)} (h : pull stage.logged before = Act.ending r after) :
    pull stage before.plain = Act.ending r after.plain :=
  under_pull stage before r after h

end Evaluation

namespace PassStep

theorem plain_performLogged (evaluation : Evaluation (Logbook σ)) (step : PassStep σ) :
    (step.performLogged evaluation).plain = step.perform Evaluation.pull evaluation.plain := by
  cases step with
  | feed leaf values => rfl
  | disturb ambient => rfl
  | pull stage => exact ((Evaluation.under_pull stage).after_eq evaluation).symm

/-- Once the calls are forgotten, steps over logged stages are the steps. -/
theorem plain_performAllLogged (steps : List (PassStep σ)) (evaluation : Evaluation (Logbook σ)) :
    (performAllLogged evaluation steps).plain =
      performAll Evaluation.pull evaluation.plain steps := by
  induction steps generalizing evaluation with
  | nil => rfl
  | cons step rest ih =>
    exact (ih (performLogged evaluation step)).trans
      (congrArg (performAll Evaluation.pull · rest) (plain_performLogged evaluation step))

end PassStep

/-- Once the calls are forgotten, the pass over logged stages is the pass. -/
theorem PassRun.plain_loggedEvaluation (run : PassRun σ) (previous : PassTables) :
    (run.loggedEvaluation previous).plain = run.evaluation previous :=
  PassStep.plain_performAllLogged run.steps _

end Regen
