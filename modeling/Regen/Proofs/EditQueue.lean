import Mathlib.Data.List.Induction
import Regen.Proofs.DriverHistory

/-!
# The queue of edits

Edits are queued and later committed to the additional inputs: by a full pass that runs the
generators, or by an application of edits that goes through. No other operation takes an edit out of
the queue or commits one. So over a whole history every queued edit is committed once, in the order
of queueing, or is still pending. A full pass whose result is reused leaves the queue alone; it is
empty then. Nothing is asked of the edits: where one of their callbacks panics nothing is committed.
-/

namespace Regen

variable {S σ : Type}

namespace DriverOp

/-- The edits that an operation puts into the queue. -/
def queued : DriverOp S σ → List (Edit σ)
  | .queueEdits edits => edits
  | _ => []

/-- Whether an operation consumes the queue of a driver: a full pass that runs the generators and
returns, or an application of edits that goes through. -/
def consumes (driver : Driver S σ) : DriverOp S σ → Bool
  | .fullPass session snapshot =>
    match driver.fullPass snapshot session with
    | .ok _ _ => !driver.isUpToDate snapshot
    | .error _ _ => false
  | .tryApplyEdits session snapshot =>
    match driver.tryApplyEdits snapshot session with
    | .ok application _ => application.outcome.isOk
    | .error _ _ => false
  | _ => false

/-- What an operation other than those makes of the additional inputs. -/
def changeInputs : DriverOp S σ → List AdditionalInput → List AdditionalInput
  | .addInputs inputs, held => held ++ inputs
  | .removeInputs inputs, held => held.filter fun input => !inputs.contains input
  | .replaceInput old new, held => held.replace old new
  | _, held => held

variable {op : DriverOp S σ} {driver : Driver S σ}

theorem queued_of_consumes (h : op.consumes driver = true) : op.queued = [] := by
  cases op <;> first | rfl | cases h

/-- An operation that consumes the queue commits it to the additional inputs and empties it. -/
theorem perform_of_consumes (h : op.consumes driver = true) :
    Edit.commitAll driver.pendingEdits driver.additionalInputs =
      .ok (op.perform driver).additionalInputs ∧ (op.perform driver).pendingEdits = [] := by
  cases op with
  | fullPass session snapshot =>
    simp only [consumes, perform] at h ⊢
    cases hx : driver.fullPass snapshot session with
    | error why ended =>
      rw [hx] at h
      cases h
    | ok next ended =>
      rw [hx] at h
      rcases Driver.fullPass_ok hx with ⟨hup, -⟩ | ⟨-, he⟩
      · simp [hup] at h
      · obtain ⟨_, inputs, members, assembled, _, _, _, _, hcommit, -, -, -, rfl⟩ := he
        exact ⟨hcommit, rfl⟩
  | tryApplyEdits session snapshot =>
    simp only [consumes, perform] at h ⊢
    cases hx : driver.tryApplyEdits snapshot session with
    | error why ended =>
      rw [hx] at h
      cases h
    | ok application ended =>
      rw [hx] at h
      rcases Driver.tryApplyEdits_ok hx with ⟨error, rfl⟩ | ⟨error, -, rfl⟩ | ⟨_, -, ha⟩
      · cases h
      · cases h
      · obtain ⟨-, _, inputs, members, assembled, _, _, _, -, hcommit, -, hnext⟩ := ha
        change _ = Except.ok application.driver.additionalInputs ∧ application.driver.pendingEdits = []
        rw [hnext]
        exact ⟨hcommit, rfl⟩
  | _ => cases h

/-- Every other operation at most queues edits, and commits none: it changes the additional inputs
as it would without a queue. -/
theorem perform_of_not_consumes (h : op.consumes driver = false) :
    (op.perform driver).pendingEdits = driver.pendingEdits ++ op.queued ∧
      (op.perform driver).additionalInputs = op.changeInputs driver.additionalInputs := by
  have hnone : driver.pendingEdits = driver.pendingEdits ++ [] := (List.append_nil _).symm
  cases op with
  | replaceInput old new =>
    change (driver.replaceInput old new).pendingEdits = _ ∧
      (driver.replaceInput old new).additionalInputs = _
    unfold Driver.replaceInput
    split
    · exact ⟨hnone, rfl⟩
    · next habsent =>
      refine ⟨hnone, ?_⟩
      rw [changeInputs, List.replace_of_not_mem (by simpa using habsent)]
  | queueEdits edits => exact ⟨rfl, rfl⟩
  | fullPass session snapshot =>
    simp only [consumes, perform] at h ⊢
    cases hx : driver.fullPass snapshot session with
    | error why ended => exact ⟨hnone, rfl⟩
    | ok next ended =>
      rw [hx] at h
      rcases Driver.fullPass_ok hx with ⟨-, rfl⟩ | ⟨hup, -⟩
      · exact ⟨hnone, rfl⟩
      · simp [hup] at h
  | tryApplyEdits session snapshot =>
    simp only [consumes, perform] at h ⊢
    cases hx : driver.tryApplyEdits snapshot session with
    | error why ended => exact ⟨hnone, rfl⟩
    | ok application ended =>
      rw [hx] at h
      rcases Driver.tryApplyEdits_ok hx with ⟨error, rfl⟩ | ⟨error, -, rfl⟩ | ⟨_, ho, -⟩
      · exact ⟨hnone, rfl⟩
      · exact ⟨hnone, rfl⟩
      · dsimp only at h
        rw [ho] at h
        cases h
  | _ => exact ⟨hnone, rfl⟩

end DriverOp

namespace Driver

/-- A property of every operation of a history and the driver that it is performed on. -/
def Throughout (P : Driver S σ → DriverOp S σ → Prop) : Driver S σ → List (DriverOp S σ) → Prop
  | _, [] => True
  | driver, op :: rest => P driver op ∧ Throughout P (op.perform driver) rest

/-- The edits that the operations of a history take out of the queue and commit, in order. -/
def committed : Driver S σ → List (DriverOp S σ) → List (Edit σ)
  | _, [] => []
  | driver, op :: rest =>
    (if op.consumes driver then driver.pendingEdits else []) ++ committed (op.perform driver) rest

/-- No operation of a history consumes the queue. -/
def Undisturbed : Driver S σ → List (DriverOp S σ) → Prop :=
  Throughout fun driver op => op.consumes driver = false

/-- While there is a result, no edits are pending and those to come may be applied. -/
def Quiet (driver : Driver S σ) : Prop :=
  driver.assembled.isSome → driver.pendingEdits = [] ∧ driver.editsFailed = false

variable {P : Driver S σ → DriverOp S σ → Prop} {driver next : Driver S σ} {snapshot : Snapshot S}
  {session ended : Session σ}

theorem Throughout.snoc {ops : List (DriverOp S σ)} {op : DriverOp S σ}
    (h : Throughout P driver ops) (hop : P (ops.foldl DriverOp.perform driver) op) :
    Throughout P driver (ops ++ [op]) := by
  induction ops generalizing driver with
  | nil => exact ⟨hop, trivial⟩
  | cons first rest ih => exact ⟨h.1, ih h.2 hop⟩

/-- What is there and what is queued is committed or stays. -/
theorem pendingEdits_append_queued (driver : Driver S σ) (ops : List (DriverOp S σ)) :
    driver.pendingEdits ++ ops.flatMap DriverOp.queued =
      driver.committed ops ++ (ops.foldl DriverOp.perform driver).pendingEdits := by
  induction ops generalizing driver with
  | nil => simp [committed]
  | cons op rest ih =>
    have hrest := ih (op.perform driver)
    rw [List.flatMap_cons, List.foldl_cons, committed, List.append_assoc, ← hrest]
    cases hc : op.consumes driver with
    | true =>
      rw [if_pos rfl, DriverOp.queued_of_consumes hc, (DriverOp.perform_of_consumes hc).2]
    | false =>
      rw [if_neg Bool.false_ne_true, (DriverOp.perform_of_not_consumes hc).1, List.append_assoc]
      exact List.nil_append _

theorem Undisturbed.pendingEdits_eq {ops : List (DriverOp S σ)} (h : driver.Undisturbed ops) :
    (ops.foldl DriverOp.perform driver).pendingEdits =
      driver.pendingEdits ++ ops.flatMap DriverOp.queued := by
  have hnone : driver.committed ops = [] := by
    induction ops generalizing driver with
    | nil => rfl
    | cons op rest ih =>
      rw [committed, h.1, if_neg Bool.false_ne_true, ih h.2]
      rfl
  rw [pendingEdits_append_queued, hnone, List.nil_append]

theorem quiet_of_cleared (h : next.assembled = none) : next.Quiet := by
  intro hsome
  rw [h] at hsome
  cases hsome

/-- Every operation keeps a driver quiet. -/
theorem Quiet.perform (h : driver.Quiet) (op : DriverOp S σ) : (op.perform driver).Quiet := by
  cases op with
  | withSink sink => exact h
  | replaceInput old new =>
    change (driver.replaceInput old new).Quiet
    unfold replaceInput
    split
    · exact quiet_of_cleared rfl
    · exact h
  | fullPass session snapshot =>
    rcases driver.perform_fullPass session snapshot with hsame | he
    · rwa [hsame]
    · exact fun _ => he.allows_edits
  | tryApplyEdits session snapshot =>
    rcases driver.perform_tryApplyEdits session snapshot with hsame | ⟨hqueue, hrejected⟩ | ha
    · rwa [hsame]
    · rw [hrejected]
      exact fun hsome => absurd (h hsome).1 hqueue
    · obtain ⟨hvalid, _, inputs, members, assembled, _, _, _, -, -, -, hnext⟩ := ha
      rw [hnext]
      exact fun _ => ⟨rfl, hvalid⟩
  | _ => exact quiet_of_cleared rfl

theorem quiet_reached (host : Host S) (ops : List (DriverOp S σ)) : (reached host ops).Quiet :=
  reached_induction host ops (quiet_of_cleared rfl) fun op _ _ h => h.perform op

/-- A full pass is not run again only where nothing is pending. -/
theorem Quiet.of_isUpToDate (h : driver.Quiet) (hup : driver.isUpToDate snapshot = true) :
    driver.pendingEdits = [] ∧ driver.editsFailed = false := by
  obtain ⟨_, -, hsome, -⟩ := isUpToDate_iff.mp hup
  exact h hsome

/-- A full pass that returns, reused or not, leaves an empty queue, and edits may be applied. -/
theorem Quiet.fullPass_ok (h : driver.Quiet) (hx : driver.fullPass snapshot session = .ok next ended) :
    next.pendingEdits = [] ∧ next.editsFailed = false := by
  rcases Driver.fullPass_ok hx with ⟨hup, rfl⟩ | ⟨-, he⟩
  · exact h.of_isUpToDate hup
  · exact he.allows_edits

/-- A history falls into two: what led to the last operation that consumed the queue, and what was
done since. -/
theorem exists_undisturbed (host : Host S) (ops : List (DriverOp S σ)) :
    ∃ before since, ops = before ++ since ∧
      (before = [] ∨ ∃ earlier op, before = earlier ++ [op] ∧
        op.consumes (reached host earlier) = true) ∧
      (reached host before).Undisturbed since := by
  induction ops using List.reverseRecOn with
  | nil => exact ⟨[], [], rfl, .inl rfl, trivial⟩
  | append_singleton ops op ih =>
    cases hc : op.consumes (reached host ops) with
    | true =>
      exact ⟨ops ++ [op], [], (List.append_nil _).symm, .inr ⟨ops, op, rfl, hc⟩, trivial⟩
    | false =>
      obtain ⟨before, since, rfl, hlast, hsince⟩ := ih
      rw [reached, List.foldl_append] at hc
      exact ⟨before, since ++ [op], List.append_assoc .., hlast, hsince.snoc hc⟩

/-- Nothing is pending at the start and after an operation that consumed the queue. -/
theorem pendingEdits_eq_nil {host : Host S} {before : List (DriverOp S σ)}
    (h : before = [] ∨ ∃ earlier op, before = earlier ++ [op] ∧
      op.consumes (reached host earlier) = true) : (reached host before).pendingEdits = [] := by
  rcases h with rfl | ⟨earlier, op, rfl, hc⟩
  · rfl
  · rw [reached, List.foldl_append]
    exact (DriverOp.perform_of_consumes hc).2

end Driver

/-- Committing a queue folds the commits of its edits, each once and in order. -/
theorem Edit.commitAll_eq_foldlM (edits : List (Edit σ)) (inputs : List AdditionalInput) :
    commitAll edits inputs = edits.foldlM (fun held edit => edit.commit held) inputs := by
  induction edits generalizing inputs with
  | nil => rfl
  | cons edit rest ih =>
    rw [commitAll, List.foldlM_cons]
    exact congrArg _ (funext ih)

/-- Every queued edit is committed once. Over a history the edits committed so far and those that are
pending are the ones queued, in their order; the pending ones are those queued since the last
operation that consumed the queue. Such an operation folds the commits of exactly the pending edits
into the additional inputs held and empties the queue; any other one adds what it queues and commits
nothing. A full pass that returns leaves nothing pending, also where its result is reused. -/
theorem queued_committed_once (host : Host S) (ops : List (DriverOp S σ)) :
    let driver := Driver.reached host ops
    ops.flatMap DriverOp.queued = (Driver.new host).committed ops ++ driver.pendingEdits ∧
    (∃ before since, ops = before ++ since ∧
      (before = [] ∨ ∃ earlier op, before = earlier ++ [op] ∧
        op.consumes (.reached host earlier) = true) ∧
      (Driver.reached host before).Undisturbed since ∧
      driver.pendingEdits = since.flatMap DriverOp.queued) ∧
    (∀ op : DriverOp S σ, if op.consumes driver then
        driver.pendingEdits.foldlM (fun held edit => edit.commit held) driver.additionalInputs =
            .ok (op.perform driver).additionalInputs ∧
          (op.perform driver).pendingEdits = []
      else (op.perform driver).pendingEdits = driver.pendingEdits ++ op.queued ∧
        (op.perform driver).additionalInputs = op.changeInputs driver.additionalInputs) ∧
    ∀ snapshot session next ended, driver.fullPass snapshot session = .ok next ended →
      next.pendingEdits = [] := by
  intro driver
  refine ⟨?_, ?_, fun op => ?_, fun snapshot session next ended hx => ?_⟩
  · exact Driver.pendingEdits_append_queued (.new host) ops
  · obtain ⟨before, since, hops, hlast, hsince⟩ := Driver.exists_undisturbed host ops
    refine ⟨before, since, hops, hlast, hsince, ?_⟩
    have hpending := hsince.pendingEdits_eq
    rw [Driver.pendingEdits_eq_nil hlast, Driver.reached, ← List.foldl_append, ← hops] at hpending
    exact hpending
  · cases hc : op.consumes driver with
    | true =>
      rw [if_pos rfl, ← Edit.commitAll_eq_foldlM]
      exact DriverOp.perform_of_consumes hc
    | false => exact DriverOp.perform_of_not_consumes hc
  · exact ((Driver.quiet_reached host ops).fullPass_ok hx).1

/-! Plug-ins that do nothing but look whether the pass is to stop, and edits that note a text. -/

namespace Notes

def plugIn (identity : Nat) (name : String) : Generator Unit Unit where
  identity
  name
  declare := .done ()
  execute _ := Program.orFail (Program.request (I := Execution.interface Unit) .checkCancelled)

/-- Every generator notes the text as an output, but those of one name refuse to. -/
def note (text : String) (refusedBy : Option String) : Edit Unit where
  kind := text
  typeName := "note"
  content := .list []
  acceptedBy _ := .ok true
  apply _ context :=
    if refusedBy = some context.generator then Program.fail (context.reject "refused")
    else .ask (Editing.Request.replaceOutput ⟨text, context.generator, .source⟩) fun _ => .done ()
  commit held := .ok (held ++ [⟨text, "noted"⟩])

def host : Host Unit where
  materialize generator output := .ok ⟨generator, output.hintName, .null⟩
  merge content _ := .ok content

def session (cancelled : Bool) : Session Unit :=
  ⟨⟨cancelled, ()⟩, 0, []⟩

def snapshot : Snapshot Unit := ⟨1, ()⟩

/-- Edits that are not applied before the first pass, a pass that commits them, and three more of
which the last one is refused by the second plug-in, after others went through. -/
def refusal : List (DriverOp Unit Unit) :=
  [.addGenerators [plugIn 0 "first", plugIn 1 "second"], .queueEdits [note "a" none],
    .tryApplyEdits (session false) snapshot, .fullPass (session false) snapshot,
    .queueEdits [note "b" none], .queueEdits [note "c" none, note "d" (some "second")]]

/-- The three edits are refused, one more is queued, and a pass is asked to stop. -/
def waiting : List (DriverOp Unit Unit) :=
  refusal ++ [.tryApplyEdits (session false) snapshot, .queueEdits [note "e" none],
    .fullPass (session true) snapshot]

end Notes

open Notes in
/-- One edit is committed and four are pending until a further pass commits them in order. -/
theorem queued_committed_once_waiting :
    (waiting.flatMap DriverOp.queued).map (·.kind) = ["a"] ++ ["b", "c", "d", "e"] ∧
    ∃ next ended, (Driver.reached host waiting).fullPass snapshot (session false) = .ok next ended ∧
      next.additionalInputs.map (·.path) = ["a", "b", "c", "d", "e"] ∧ next.pendingEdits = [] := by
  obtain ⟨hqueued, -, -, hpass⟩ := queued_committed_once host waiting
  constructor
  · have hcommitted : ((Driver.new host).committed waiting).map (·.kind) = ["a"] := by decide +kernel
    have hpending : (Driver.reached host waiting).pendingEdits.map (·.kind) = ["b", "c", "d", "e"] := by
      decide +kernel
    rw [hqueued, List.map_append, hcommitted, hpending]
  · have hinputs : (match (Driver.reached host waiting).fullPass snapshot (session false) with
        | .ok next _ => next.additionalInputs.map (·.path)
        | .error _ _ => []) = ["a", "b", "c", "d", "e"] := by decide +kernel
    cases hx : (Driver.reached host waiting).fullPass snapshot (session false) with
    | ok next ended =>
      rw [hx] at hinputs
      exact ⟨next, ended, rfl, hinputs, hpass _ _ _ _ hx⟩
    | error why ended =>
      rw [hx] at hinputs
      cases hinputs

end Regen
