import Mathlib.Data.Prod.Lex
import Regen.Proofs.FreshDriver
import Regen.Proofs.Rejection

/-!
# Applied edits as folds

An application of edits goes through the queue edit by edit, and with every edit through all
generators. Where the handlers are pure the generators do not notice each other: the outputs of each
are a fold of the queue over its own outputs. Where several folds fail the order of the two loops
decides which failure is reported: the earliest edit wins, and under it the first generator. A handler
may still fail or panic. What decides whether an edit is accepted, and the commits, are taken to return.
-/

namespace Regen

variable {S σ : Type}

/-- The member with these outputs. -/
def Member.withOutputs (member : Member S σ) (outputs : List GeneratedOutput) : Member S σ :=
  { member with state := { member.state with outputs } }

namespace Edit

/-- Whether the pipeline of the member accepts the edit is decided, and what applies the edit there
ends the same way, with the same outputs, in every ambience. -/
def PureOn (edit : Edit σ) (member : Member S σ) : Prop :=
  ∀ pipeline, member.state.pipeline = some pipeline →
    (∃ accepted, edit.acceptedBy pipeline.shape = .ok accepted) ∧
    ∀ context outputs, ∃ r made, ∀ ambient, ∃ after,
      (edit.apply pipeline.shape context).run (Editing.answer context) ⟨outputs, ambient⟩ =
        Act.ending r ⟨made, after⟩

/-- What an edit makes of the outputs of a member, applied in some ambience. It is passed over by a
member without a pipeline and by one whose pipeline does not accept it. -/
def onOutputs (edit : Edit σ) (inputs : List AdditionalInput) (sample : Ambient σ)
    (member : Member S σ) (outputs : List GeneratedOutput) :
    Except EngineError (List GeneratedOutput) :=
  match member.state.pipeline with
  | none => .ok outputs
  | some pipeline =>
    match edit.acceptedBy pipeline.shape with
    | .ok true =>
      let context : EditContext := ⟨member.generator.name, edit.kind, inputs⟩
      match (edit.apply pipeline.shape context).run (Editing.answer context) ⟨outputs, sample⟩ with
      | .ok _ ended => .ok ended.outputs
      | .error why _ => .error (edit.rejection member.generator.name why)
    | _ => .ok outputs

/-- The edit fails on the outputs of the member at a position. -/
def FailsOn (edit : Edit σ) (inputs : List AdditionalInput) (sample : Ambient σ)
    (members : List (Member S σ)) (position : Nat) (rejection : Rejection) : Prop :=
  ∃ member error, members[position]? = some member ∧
    edit.onOutputs inputs sample member member.state.outputs = .error error ∧
    rejection = ⟨edit.kind, member.generator.name, error⟩

end Edit

/-- The outputs of a member after a queue of edits, each applied to what the ones before it left. -/
def Member.fold (inputs : List AdditionalInput) (sample : Ambient σ) (member : Member S σ)
    (queue : List (Edit σ)) : Except EngineError (List GeneratedOutput) :=
  queue.foldlM (fun outputs edit => edit.onOutputs inputs sample member outputs) member.state.outputs

/-- The fold of a member succeeds and makes its outputs; nothing else of the member changes. -/
def Member.Folds (inputs : List AdditionalInput) (sample : Ambient σ) (queue : List (Edit σ))
    (member made : Member S σ) : Prop :=
  ∃ outputs, member.fold inputs sample queue = .ok outputs ∧ made = member.withOutputs outputs

/-- The fold of the member at the second position gets to the edit at the first one, and fails. -/
def FailsAt (inputs : List AdditionalInput) (sample : Ambient σ) (queue : List (Edit σ))
    (members : List (Member S σ)) (place : Nat × Nat) (rejection : Rejection) : Prop :=
  ∃ edit member outputs error, queue[place.1]? = some edit ∧ members[place.2]? = some member ∧
    member.fold inputs sample (queue.take place.1) = .ok outputs ∧
    edit.onOutputs inputs sample member outputs = .error error ∧
    rejection = ⟨edit.kind, member.generator.name, error⟩

/-- The failure at the earliest edit, and there of the first member. -/
def FirstFailure (inputs : List AdditionalInput) (sample : Ambient σ) (queue : List (Edit σ))
    (members : List (Member S σ)) (rejection : Rejection) : Prop :=
  ∃ place, FailsAt inputs sample queue members place rejection ∧
    ∀ other rejection', FailsAt inputs sample queue members other rejection' →
      toLex place ≤ toLex other

/-- Elements of related lists in one place are related. -/
theorem forall₂_getElem? {α β : Type} {R : α → β → Prop} {as : List α} {bs : List β}
    (h : List.Forall₂ R as bs) {j : Nat} {a : α} (ha : as[j]? = some a) :
    ∃ b, bs[j]? = some b ∧ R a b := by
  induction h generalizing j with
  | nil => simp at ha
  | @cons first second _ _ hr _ ih =>
    cases j with
    | zero =>
      obtain rfl : first = a := by simpa using ha
      exact ⟨second, rfl, hr⟩
    | succ j => exact ih ha

section

variable {inputs : List AdditionalInput} {sample : Ambient σ} {edit : Edit σ} {queue : List (Edit σ)}
  {member : Member S σ} {members made : List (Member S σ)} {session : Session σ}
  {rejection : Rejection}

theorem Member.fold_cons {outputs : List GeneratedOutput}
    (h : edit.onOutputs inputs sample member member.state.outputs = .ok outputs) :
    member.fold inputs sample (edit :: queue) =
      (member.withOutputs outputs).fold inputs sample queue := by
  unfold fold
  rw [List.foldlM_cons, h]
  rfl

theorem Member.fold_cons_error {error : EngineError}
    (h : edit.onOutputs inputs sample member member.state.outputs = .error error) :
    member.fold inputs sample (edit :: queue) = .error error := by
  unfold fold
  rw [List.foldlM_cons, h]
  rfl

theorem Member.fold_singleton :
    member.fold inputs sample [edit] = edit.onOutputs inputs sample member member.state.outputs := by
  cases h : edit.onOutputs inputs sample member member.state.outputs with
  | ok outputs => exact Member.fold_cons h
  | error error => exact Member.fold_cons_error h

/-- The fold of a whole queue fails where it gets to an edit and fails there. -/
theorem FailsAt.fold_eq_error {place : Nat × Nat}
    (h : FailsAt inputs sample queue members place rejection) :
    ∃ member ∈ members, member.fold inputs sample queue = .error rejection.error := by
  obtain ⟨edit, member, outputs, error, hedit, hmember, hfold, hfails, rfl⟩ := h
  refine ⟨member, List.mem_of_getElem? hmember, ?_⟩
  obtain ⟨hlt, rfl⟩ := List.getElem?_eq_some_iff.mp hedit
  unfold Member.fold at hfold ⊢
  conv_lhs => rw [← List.take_append_drop place.1 queue, List.drop_eq_getElem_cons hlt]
  rw [List.foldlM_append, hfold]
  change List.foldlM _ outputs _ = _
  rw [List.foldlM_cons, hfails]
  rfl

/-- A failure at the first edit is one of its single step. -/
theorem failsAt_zero {j : Nat} : FailsAt inputs sample (edit :: queue) members (0, j) rejection ↔
    edit.FailsOn inputs sample members j rejection := by
  constructor
  · rintro ⟨_, member, outputs, error, hedit, hmember, hfold, hfails, hrejection⟩
    cases hedit
    cases hfold
    exact ⟨member, error, hmember, hfails, hrejection⟩
  · rintro ⟨member, error, hmember, hfails, hrejection⟩
    exact ⟨edit, member, member.state.outputs, error, rfl, hmember, rfl, hfails, hrejection⟩

/-- Where the first edit went through for all members, a later failure is one of the members that it
made. -/
theorem failsAt_succ (h : List.Forall₂ (Member.Folds inputs sample [edit]) members made) {i j : Nat} :
    FailsAt inputs sample (edit :: queue) members (i + 1, j) rejection ↔
      FailsAt inputs sample queue made (i, j) rejection := by
  constructor
  · rintro ⟨later, member, outputs, error, hlater, hmember, hfold, hfails, hrejection⟩
    obtain ⟨_, hmade, first, hstep, rfl⟩ := forall₂_getElem? h hmember
    rw [Member.fold_singleton] at hstep
    exact ⟨later, _, outputs, error, hlater, hmade, (Member.fold_cons hstep).symm.trans hfold, hfails,
      hrejection⟩
  · rintro ⟨later, _, outputs, error, hlater, hmade, hfold, hfails, hrejection⟩
    obtain ⟨member, hmember, first, hstep, rfl⟩ := forall₂_getElem? h.flip hmade
    rw [Member.fold_singleton] at hstep
    exact ⟨later, member, outputs, error, hlater, hmember, (Member.fold_cons hstep).trans hfold, hfails,
      hrejection⟩

/-- The first member on which the first edit fails is the first failure. -/
theorem firstFailure_zero {j : Nat} (hfails : edit.FailsOn inputs sample members j rejection)
    (hleast : ∀ j' rejection', edit.FailsOn inputs sample members j' rejection' → j ≤ j') :
    FirstFailure inputs sample (edit :: queue) members rejection := by
  refine ⟨(0, j), failsAt_zero.mpr hfails, ?_⟩
  rintro ⟨i', j'⟩ rejection' hother
  rw [Prod.Lex.toLex_le_toLex]
  cases i' with
  | zero => exact .inr ⟨rfl, hleast j' rejection' (failsAt_zero.mp hother)⟩
  | succ i' => exact .inl (Nat.succ_pos i')

/-- Where the first edit went through for all members, the first failure is the one among the members
that it made. -/
theorem firstFailure_succ (h : List.Forall₂ (Member.Folds inputs sample [edit]) members made)
    (hfirst : FirstFailure inputs sample queue made rejection) :
    FirstFailure inputs sample (edit :: queue) members rejection := by
  obtain ⟨⟨i, j⟩, hfails, hleast⟩ := hfirst
  refine ⟨(i + 1, j), (failsAt_succ h).mpr hfails, ?_⟩
  rintro ⟨i', j'⟩ rejection' hother
  rw [Prod.Lex.toLex_le_toLex]
  cases i' with
  | zero =>
    obtain ⟨member, error, hmember, hstep, -⟩ := failsAt_zero.mp hother
    obtain ⟨_, -, outputs, hok, -⟩ := forall₂_getElem? h hmember
    rw [Member.fold_singleton, hstep] at hok
    cases hok
  | succ i' =>
    rcases Prod.Lex.toLex_le_toLex.mp (hleast ⟨i', j'⟩ rejection' ((failsAt_succ h).mp hother))
      with hlt | ⟨heq, hle⟩
    · exact .inl (Nat.succ_lt_succ hlt)
    · exact .inr ⟨congrArg Nat.succ heq, hle⟩

theorem pureOn_of_folds (h : List.Forall₂ (Member.Folds inputs sample queue) members made)
    (hpure : ∀ member ∈ members, edit.PureOn member) : ∀ member ∈ made, edit.PureOn member := by
  induction h with
  | nil => exact hpure
  | cons hfold _ ih =>
    obtain ⟨outputs, -, rfl⟩ := hfold
    rw [List.forall_mem_cons] at hpure ⊢
    exact ⟨hpure.1, ih hpure.2⟩

theorem forall_fold_ok (h : List.Forall₂ (Member.Folds inputs sample queue) members made) :
    ∀ member ∈ members, ∃ outputs, member.fold inputs sample queue = .ok outputs := by
  induction h with
  | nil => exact fun _ hmem => by cases hmem
  | cons hfold _ ih =>
    obtain ⟨outputs, hok, -⟩ := hfold
    exact List.forall_mem_cons.mpr ⟨⟨outputs, hok⟩, ih⟩

/-- Folding an edit and then a queue folds the edit before the queue. -/
theorem folds_cons {middle : List (Member S σ)}
    (h : List.Forall₂ (Member.Folds inputs sample [edit]) members middle)
    (h' : List.Forall₂ (Member.Folds inputs sample queue) middle made) :
    List.Forall₂ (Member.Folds inputs sample (edit :: queue)) members made := by
  induction h generalizing made with
  | nil =>
    cases h'
    exact .nil
  | cons hstep _ ih =>
    cases h' with
    | cons hfold hrest =>
      obtain ⟨first, hstep, rfl⟩ := hstep
      obtain ⟨outputs, hfold, rfl⟩ := hfold
      rw [Member.fold_singleton] at hstep
      exact .cons ⟨outputs, (Member.fold_cons hstep).trans hfold, rfl⟩ (ih hrest)

namespace Edit

/-- An edit that was applied makes the outputs that its handler leaves, or is rejected. -/
theorem applyTo_of_run {shape : PipelineShape σ} {context : EditContext}
    {outputs made : List GeneratedOutput} {session : Session σ} {ambient : Ambient σ}
    {r : Except Stop Unit}
    (h : (edit.apply shape context).run (Editing.answer context) ⟨outputs, session.ambient⟩ =
      Act.ending r ⟨made, ambient⟩) :
    edit.applyTo shape context outputs session = .ok (match r with
      | .ok _ => .ok made
      | .error why => .error (edit.rejection context.generator why)) { session with ambient } := by
  refine (Act.bind_ok (Act.get_apply session)).trans ?_
  simp only [h]
  cases r <;> rfl

/-- A pure edit makes of a member what it makes of its outputs. -/
theorem PureOn.applyToMember (h : edit.PureOn member) (inputs : List AdditionalInput)
    (sample : Ambient σ) (session : Session σ) :
    ∃ ambient, edit.applyToMember inputs member session =
      .ok (match edit.onOutputs inputs sample member member.state.outputs with
        | .ok outputs => .ok (member.withOutputs outputs)
        | .error error => .error ⟨edit.kind, member.generator.name, error⟩)
        { session with ambient } := by
  unfold onOutputs
  cases hp : member.state.pipeline with
  | none =>
    refine ⟨session.ambient, ?_⟩
    unfold Edit.applyToMember
    rw [hp]
    rfl
  | some pipeline =>
    obtain ⟨⟨accepted, haccepted⟩, happlies⟩ := h pipeline hp
    cases accepted with
    | false =>
      refine ⟨session.ambient, ?_⟩
      unfold Edit.applyToMember
      simp only [hp, haccepted]
      rfl
    | true =>
      simp only [haccepted]
      obtain ⟨r, made, hruns⟩ :=
        happlies ⟨member.generator.name, edit.kind, inputs⟩ member.state.outputs
      obtain ⟨_, hsample⟩ := hruns sample
      obtain ⟨ambient, hrun⟩ := hruns session.ambient
      refine ⟨ambient, ?_⟩
      rw [hsample]
      refine (applyToMember_accepted hp haccepted (applyTo_of_run hrun)).trans ?_
      cases r <;> rfl

/-- One edit goes through for all members, or is rejected by the first one that it fails on. -/
theorem applyToMembers_folds (inputs : List AdditionalInput) (sample : Ambient σ) (members : List (Member S σ))
    (hpure : ∀ member ∈ members, edit.PureOn member) (session : Session σ) :
    ∃ r ambient, edit.applyToMembers inputs members session = .ok r { session with ambient } ∧
      match r with
      | .ok made => List.Forall₂ (Member.Folds inputs sample [edit]) members made
      | .error rejection => ∃ j, edit.FailsOn inputs sample members j rejection ∧
          ∀ j' rejection', edit.FailsOn inputs sample members j' rejection' → j ≤ j' := by
  induction members generalizing session with
  | nil => exact ⟨_, session.ambient, rfl, .nil⟩
  | cons member rest ih =>
    rw [List.forall_mem_cons] at hpure
    obtain ⟨ambient, hfirst⟩ := hpure.1.applyToMember inputs sample session
    cases hstep : edit.onOutputs inputs sample member member.state.outputs with
    | error error =>
      rw [hstep] at hfirst
      exact ⟨_, ambient, Act.bind_ok hfirst, 0, ⟨member, error, rfl, hstep, rfl⟩,
        fun _ _ _ => Nat.zero_le _⟩
    | ok outputs =>
      rw [hstep] at hfirst
      obtain ⟨r, last, hrest, hr⟩ := ih hpure.2 { session with ambient }
      cases r with
      | ok others =>
        exact ⟨_, last, (Act.bind_ok hfirst).trans (Act.bind_ok hrest),
          .cons ⟨outputs, Member.fold_singleton.trans hstep, rfl⟩ hr⟩
      | error rejection =>
        obtain ⟨j, hfails, hleast⟩ := hr
        refine ⟨_, last, (Act.bind_ok hfirst).trans (Act.bind_ok hrest), j + 1, hfails, ?_⟩
        intro j' rejection' hfails'
        cases j' with
        | zero =>
          obtain ⟨_, error, hmember, herror, -⟩ := hfails'
          cases hmember
          rw [hstep] at herror
          cases herror
        | succ j' => exact Nat.succ_le_succ (hleast j' rejection' hfails')

/-- A queue of edits goes through where all folds do, with what they make, and is rejected with the
first failure elsewhere. -/
theorem applyAll_folds (inputs : List AdditionalInput) (sample : Ambient σ) (queue : List (Edit σ))
    (members : List (Member S σ))
    (hpure : ∀ edit ∈ queue, ∀ member ∈ members, edit.PureOn member) (session : Session σ) :
    ∃ r ambient, applyAll inputs queue members session = .ok r { session with ambient } ∧
      match r with
      | .ok made => List.Forall₂ (Member.Folds inputs sample queue) members made
      | .error rejection => FirstFailure inputs sample queue members rejection := by
  induction queue generalizing members session with
  | nil => exact ⟨_, session.ambient, rfl,
      List.forall₂_same.mpr fun member _ => ⟨member.state.outputs, rfl, rfl⟩⟩
  | cons edit rest ih =>
    rw [List.forall_mem_cons] at hpure
    obtain ⟨r, ambient, hstep, hr⟩ :=
      applyToMembers_folds inputs sample members hpure.1 session
    cases r with
    | error rejection =>
      obtain ⟨j, hfails, hleast⟩ := hr
      exact ⟨_, ambient, Act.bind_ok hstep, firstFailure_zero hfails hleast⟩
    | ok middle =>
      obtain ⟨r, last, hrest, hr'⟩ := ih middle
        (fun later hlater => pureOn_of_folds hr (hpure.2 later hlater)) { session with ambient }
      refine ⟨r, last, (Act.bind_ok hstep).trans hrest, ?_⟩
      cases r with
      | ok made => exact folds_cons hr hr'
      | error rejection => exact firstFailure_succ hr hr'

end Edit

end

namespace Driver

/-- The callbacks that an application of the queued edits runs are pure, on every generator, and the
edits can be committed. -/
structure PureEdits (driver : Driver S σ) : Prop where
  pureOn : ∀ edit ∈ driver.pendingEdits, ∀ member ∈ driver.members, edit.PureOn member
  commits : ∃ inputs, Edit.commitAll driver.pendingEdits driver.additionalInputs = .ok inputs

variable {driver : Driver S σ} {session : Session σ}

/-- An application of edits that may not be refused outright ends as the folds do. -/
theorem PureEdits.tryApplyEdits (h : driver.PureEdits) (hqueue : driver.pendingEdits ≠ [])
    (hvalid : driver.editsFailed = false) (sample : Ambient σ) (session : Session σ)
    (snapshot : Snapshot S) : ∃ application ended,
      driver.tryApplyEdits snapshot session = .ok application ended ∧
      ((∃ members inputs assembled,
          List.Forall₂ (Member.Folds driver.additionalInputs sample driver.pendingEdits)
            driver.members members ∧
          application = ⟨{ driver with
            members
            additionalInputs := inputs
            pendingEdits := []
            snapshot := some snapshot
            assembled := some assembled }, .ok assembled⟩) ∨
        ∃ rejection,
          FirstFailure driver.additionalInputs sample driver.pendingEdits driver.members rejection ∧
          application = ⟨driver.refuse, .error rejection.error⟩ ∧
          ended.events = (driver.sink.deliver (.editRejected ("run-" ++ toString session.fresh)
            rejection.kind rejection.generator rejection.error.message) session.events).2) := by
  rw [tryApplyEdits_eq_applyQueue hqueue hvalid]
  obtain ⟨r, ambient, happlied, hr⟩ := Edit.applyAll_folds driver.additionalInputs sample
    driver.pendingEdits driver.members h.pureOn
    { session with fresh := session.fresh + 1 }
  cases r with
  | error rejection => exact ⟨_, _, Act.bind_ok happlied, .inr ⟨rejection, hr, rfl, rfl⟩⟩
  | ok members =>
    obtain ⟨inputs, hcommits⟩ := h.commits
    obtain ⟨assembled, built, hbuilt, -⟩ := driver.host.assemble_apply driver.sink
      ("run-" ++ toString session.fresh) (members.flatMap Member.namedOutputs) snapshot
      { session with fresh := session.fresh + 1, ambient }
    exact ⟨_, _, (Act.bind_ok happlied).trans
      ((Act.bind_ok (Act.ofPanic_ok hcommits _)).trans (Act.bind_ok hbuilt)),
      .inl ⟨members, inputs, assembled, hr, rfl⟩⟩

end Driver

theorem folds_generators {inputs : List AdditionalInput} {sample : Ambient σ} {queue : List (Edit σ)}
    {members made : List (Member S σ)} (h : List.Forall₂ (Member.Folds inputs sample queue) members made) :
    made.map (·.generator) = members.map (·.generator) :=
  Edit.edited_generators (h.imp fun _ _ ⟨outputs, _, hmade⟩ => ⟨outputs, hmade⟩)

/-- Applying a queue of edits is a fold for each generator. For pure callbacks and edits that may be
applied it succeeds where every fold does: the outputs of each generator are what its fold made, and
nothing else of the generators, of their states and of the options changes. Where some fold fails the
error is that of the failure at the earliest edit, and there of the first generator; the driver only
remembers that edits may not be applied, and the one event that is sent names the edit and the generator
of that failure. -/
theorem tryApplyEdits_eq_folds {driver : Driver S σ} (hpure : driver.PureEdits)
    (hvalid : driver.editsValid = true) (hqueue : driver.pendingEdits ≠ []) (sample : Ambient σ)
    (session : Session σ) (snapshot : Snapshot S) :
    let inputs := driver.additionalInputs
    let queue := driver.pendingEdits
    ∃ application ended, driver.tryApplyEdits snapshot session = .ok application ended ∧
      ((∃ assembled, application.outcome = .ok assembled) ↔
        ∀ member ∈ driver.members, ∃ outputs, member.fold inputs sample queue = .ok outputs) ∧
      (∀ assembled, application.outcome = .ok assembled →
        List.Forall₂ (fun member made => ∃ outputs, member.fold inputs sample queue = .ok outputs ∧
          made = { member with state := { member.state with outputs } })
          driver.members application.driver.members ∧
        application.driver.generators = driver.generators ∧
        application.driver.options = driver.options ∧
        application.driver.assembled = some assembled) ∧
      ∀ error, application.outcome = .error error →
        application.driver = { driver with editsFailed := true } ∧
        ∃ rejection, FirstFailure inputs sample queue driver.members rejection ∧
          rejection.error = error ∧
          ended.events = (driver.sink.deliver (.editRejected ("run-" ++ toString session.fresh)
            rejection.kind rejection.generator error.message) session.events).2 := by
  intro inputs queue
  have hallowed : driver.editsFailed = false := by simpa [Driver.editsValid] using hvalid
  obtain ⟨application, ended, hx, hcases⟩ :=
    hpure.tryApplyEdits hqueue hallowed sample session snapshot
  refine ⟨application, ended, hx, ?_⟩
  rcases hcases with ⟨members, committed, assembled, hfolds, rfl⟩ | ⟨rejection, hfirst, rfl, hevents⟩
  · refine ⟨⟨fun _ => ?_, fun _ => ⟨assembled, rfl⟩⟩, ?_, ?_⟩
    · exact forall_fold_ok hfolds
    · rintro _ ⟨⟩
      exact ⟨hfolds, folds_generators hfolds, rfl, rfl⟩
    · rintro _ ⟨⟩
  · refine ⟨⟨?_, fun hall => ?_⟩, ?_, ?_⟩
    · rintro ⟨_, ⟨⟩⟩
    · obtain ⟨_, hfails, -⟩ := hfirst
      obtain ⟨member, hmem, herror⟩ := hfails.fold_eq_error
      obtain ⟨outputs, hok⟩ := hall member hmem
      rw [hok] at herror
      cases herror
    · rintro _ ⟨⟩
    · rintro _ ⟨⟩
      exact ⟨rfl, rejection, hfirst, rfl, hevents⟩

namespace Notes

theorem pureOn_note (text : String) (refusedBy : Option String) (member : Member Unit Unit) :
    (note text refusedBy).PureOn member := by
  refine fun pipeline _ => ⟨⟨true, rfl⟩, fun context outputs => ?_⟩
  by_cases hrefused : refusedBy = some context.generator
  · refine ⟨.error (.failed (context.reject "refused")), outputs, fun ambient => ⟨ambient, ?_⟩⟩
    simp only [note, if_pos hrefused]
    rfl
  · refine ⟨.ok (), GeneratedOutput.replaceIn ⟨text, context.generator, .source⟩ outputs,
      fun ambient => ⟨ambient, ?_⟩⟩
    simp only [note, if_neg hrefused]
    rfl

/-- Two plug-ins and three edits: the second plug-in refuses the second edit, the first one the
third. -/
def refusedTwice : List (DriverOp Unit Unit) :=
  [.withSink .recording, .addGenerators [plugIn 0 "first", plugIn 1 "second"],
    .fullPass (session false) snapshot,
    .queueEdits [note "a" none, note "b" (some "second"), note "c" (some "first")]]

theorem pureEdits_refusedTwice : (Driver.reached host refusedTwice).PureEdits := by
  refine ⟨fun edit hmem member _ => ?_, _, rfl⟩
  have hqueue : (Driver.reached host refusedTwice).pendingEdits =
    [note "a" none, note "b" (some "second"), note "c" (some "first")] := rfl
  obtain ⟨text, refusedBy, rfl⟩ : ∃ text refusedBy, edit = note text refusedBy := by
    simp only [hqueue, List.mem_cons, List.not_mem_nil, or_false] at hmem
    rcases hmem with rfl | rfl | rfl <;> exact ⟨_, _, rfl⟩
  exact pureOn_note text refusedBy member

end Notes

open Notes in
/-- Both folds fail, that of the second plug-in at the earlier edit; this failure is the one that is
reported, in the one event. -/
theorem tryApplyEdits_eq_folds_refusedTwice :
    let driver := Driver.reached host refusedTwice
    let error := EngineError.editRejected "b" "second" "refused"
    ∃ application ended, driver.tryApplyEdits snapshot (session false) = .ok application ended ∧
      application.outcome = .error error ∧
      application.driver = { driver with editsFailed := true } ∧
      FirstFailure [] (session false).ambient driver.pendingEdits driver.members
        ⟨"b", "second", error⟩ ∧
      ended.events = [.editRejected "run-0" "b" "second" error.message] := by
  intro driver error
  obtain ⟨application, ended, hx, -, -, hfailed⟩ := tryApplyEdits_eq_folds pureEdits_refusedTwice rfl
    (by decide +kernel) (session false).ambient (session false) snapshot
  have hrejected : driver.tryApplyEdits snapshot (session false) =
      .ok ⟨driver.refuse, .error error⟩ { session false with
        fresh := 1
        events := [.editRejected "run-0" "b" "second" error.message] } := rfl
  cases hx.symm.trans hrejected
  obtain ⟨hdriver, ⟨kind, generator, _⟩, hfirst, rfl, hevents⟩ := hfailed error rfl
  have hnames : "b" = kind ∧ "second" = generator := by
    have hevent := List.singleton_inj.mp hevents
    injection hevent with _ hkind hgenerator
    exact ⟨hkind, hgenerator⟩
  obtain ⟨rfl, rfl⟩ := hnames
  exact ⟨_, _, hx, rfl, hdriver, hfirst, rfl⟩

end Regen
