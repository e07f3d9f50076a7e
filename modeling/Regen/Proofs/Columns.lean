import Regen.Proofs.Assembling
import Regen.Proofs.DriverHistory

/-!
# Generators and states in two lists

A driver may as well keep its generators in one list and their states in another one, and tell by
the position which of them belong together. Here is what the operations do to two such lists when
they visit them side by side. Each of them keeps the lists equally long, so that no visit ends
early, and together the lists are then the members that the same history leads to.
-/

namespace Regen

variable {S σ : Type}

/-- Generators and states; the state at a position belongs to the generator there. -/
structure Columns (S σ : Type) where
  generators : List (Generator S σ)
  states : List (GeneratorState S σ)

namespace Columns

/-- Every generator has a state, and every state a generator. -/
def Aligned (columns : Columns S σ) : Prop :=
  columns.generators.length = columns.states.length

def add (columns : Columns S σ) (generators : List (Generator S σ)) : Columns S σ where
  generators := columns.generators ++ generators
  states := columns.states ++ generators.map fun _ => .uninitialized

/-- Join the lists, filter the pairs and part them again. -/
def remove (columns : Columns S σ) (generators : List (Generator S σ)) : Columns S σ :=
  let kept := ((columns.generators.zip columns.states).filter fun row =>
    !Driver.isAmong row.1 generators).unzip
  ⟨kept.1, kept.2⟩

/-- The state at the first position of a generator. -/
def stateOf (columns : Columns S σ) (generator : Generator S σ) : GeneratorState S σ :=
  ((columns.generators.findIdx? (·.identity == generator.identity)).bind
    (columns.states[·]?)).getD .uninitialized

def replace (columns : Columns S σ) (generators : List (Generator S σ)) : Columns S σ where
  generators
  states := generators.map columns.stateOf

/-- Run generators, each on top of the state beside it, for a new state each. -/
def runAll (driver : Driver S σ) (runId : String) (content : S) (inputs : List AdditionalInput) :
    List (Generator S σ × GeneratorState S σ) → Act (Session σ) (List (GeneratorState S σ))
  | [] => return []
  | (generator, state) :: rows => do
    let made ← driver.runMember runId content inputs ⟨generator, state⟩
    return made :: (← runAll driver runId content inputs rows)

/-- Apply an edit in the states beside the generators. States behind the last generator stay. -/
def applyEdit (edit : Edit σ) (inputs : List AdditionalInput) :
    List (Generator S σ) → List (GeneratorState S σ) →
      Act (Session σ) (Except Rejection (List (GeneratorState S σ)))
  | [], states => return .ok states
  | _ :: _, [] => return .ok []
  | generator :: generators, state :: states => do
    match ← edit.applyToMember inputs ⟨generator, state⟩ with
    | .error rejection => return .error rejection
    | .ok member =>
      match ← applyEdit edit inputs generators states with
      | .error rejection => return .error rejection
      | .ok states => return .ok (member.state :: states)

def applyEdits (inputs : List AdditionalInput) (generators : List (Generator S σ)) :
    List (Edit σ) → List (GeneratorState S σ) →
      Act (Session σ) (Except Rejection (List (GeneratorState S σ)))
  | [], states => return .ok states
  | edit :: edits, states => do
    match ← applyEdit edit inputs generators states with
    | .error rejection => return .error rejection
    | .ok states => applyEdits inputs generators edits states

/-- The states that a full pass of a driver leaves. Assembling the outputs afterwards never fails. -/
def fullPass (driver : Driver S σ) (snapshot : Snapshot S) (columns : Columns S σ) :
    Act (Session σ) (List (GeneratorState S σ)) := do
  let runId ← Session.newRunId
  if driver.isUpToDate snapshot then return columns.states
  else
    Session.emit driver.sink (.passStarted runId columns.generators.length)
    let inputs ← Act.ofPanic (Edit.commitAll driver.pendingEdits driver.additionalInputs)
    runAll driver runId snapshot.content inputs (columns.generators.zip columns.states)

/-- The states that an application of the queue of a driver leaves: the old ones unless every edit
goes through. -/
def tryApplyEdits (driver : Driver S σ) (columns : Columns S σ) :
    Act (Session σ) (List (GeneratorState S σ)) := do
  let _ ← Session.newRunId
  if driver.pendingEdits.isEmpty || driver.editsFailed then return columns.states
  else
    match ← applyEdits driver.additionalInputs columns.generators driver.pendingEdits
        columns.states with
    | .error _ => return columns.states
    | .ok states =>
      let _ ← Act.ofPanic (Edit.commitAll driver.pendingEdits driver.additionalInputs)
      return states

/-- The lists with the states that an act returns; an act that stops changes nothing. -/
def after (columns : Columns S σ) (act : Act (Session σ) (List (GeneratorState S σ)))
    (session : Session σ) : Columns S σ :=
  match act session with
  | .ok states _ => { columns with states }
  | .error _ _ => columns

/-- The lists after an operation of a driver, from which everything else is taken. -/
def perform (driver : Driver S σ) (columns : Columns S σ) : DriverOp S σ → Columns S σ
  | .addGenerators generators => columns.add generators
  | .removeGenerators generators => columns.remove generators
  | .replaceGenerators generators => columns.replace generators
  | .fullPass session snapshot => columns.after (fullPass driver snapshot columns) session
  | .tryApplyEdits session _ => columns.after (tryApplyEdits driver columns) session
  | .withSink _ | .addInputs _ | .removeInputs _ | .replaceInput _ _ | .queueEdits _
  | .withOptions _ => columns

/-- A driver and two lists after a history, each operation performed on both. -/
def performAll (ops : List (DriverOp S σ)) (start : Driver S σ × Columns S σ) :
    Driver S σ × Columns S σ :=
  ops.foldl (fun reached op => (op.perform reached.1, reached.2.perform reached.1 op)) start

/-- The two lists after a history of a new driver. -/
def reached (host : Host S) (ops : List (DriverOp S σ)) : Columns S σ :=
  (performAll ops (.new host, ⟨[], []⟩)).2

/-! The lists stay equally long. -/

variable {driver : Driver S σ} {columns : Columns S σ} {session ended : Session σ} {runId : String}
  {content : S} {inputs : List AdditionalInput}

theorem runAll_length (rows : List (Generator S σ × GeneratorState S σ))
    (made : List (GeneratorState S σ))
    (h : runAll driver runId content inputs rows session = .ok made ended) :
    made.length = rows.length := by
  induction rows generalizing made session with
  | nil =>
    cases h
    rfl
  | cons row rows ih =>
    obtain ⟨first, middle, -, h⟩ := Act.bind_eq_ok h
    obtain ⟨others, last, hothers, h⟩ := Act.bind_eq_ok h
    cases h
    rw [List.length_cons, List.length_cons, ih others hothers]

theorem applyEdit_length {edit : Edit σ} (generators : List (Generator S σ))
    (states made : List (GeneratorState S σ))
    (h : applyEdit edit inputs generators states session = .ok (.ok made) ended) :
    made.length = states.length := by
  induction generators, states using applyEdit.induct generalizing made session with
  | case1 states | case2 =>
    cases h
    rfl
  | case3 generator generators state states ih =>
    obtain ⟨first, middle, -, h⟩ := Act.bind_eq_ok h
    cases first with
    | error rejection => cases h
    | ok member =>
      obtain ⟨others, last, hothers, h⟩ := Act.bind_eq_ok h
      cases others with
      | error rejection => cases h
      | ok others =>
        cases h
        rw [List.length_cons, List.length_cons, ih others hothers]

theorem applyEdits_length {generators : List (Generator S σ)} (edits : List (Edit σ))
    (states made : List (GeneratorState S σ))
    (h : applyEdits inputs generators edits states session = .ok (.ok made) ended) :
    made.length = states.length := by
  induction edits generalizing states session with
  | nil =>
    cases h
    rfl
  | cons edit edits ih =>
    obtain ⟨first, middle, hfirst, h⟩ := Act.bind_eq_ok h
    cases first with
    | error rejection => cases h
    | ok edited => exact (ih edited h).trans (applyEdit_length generators states edited hfirst)

theorem fullPass_length {snapshot : Snapshot S} {made : List (GeneratorState S σ)}
    (haligned : columns.Aligned) (h : fullPass driver snapshot columns session = .ok made ended) :
    made.length = columns.states.length := by
  obtain ⟨runId, named, -, h⟩ := Act.bind_eq_ok h
  split at h
  · cases h
    rfl
  · obtain ⟨_, started, -, h⟩ := Act.bind_eq_ok h
    obtain ⟨inputs, committed, -, h⟩ := Act.bind_eq_ok h
    rw [runAll_length _ made h, List.length_zip]
    unfold Aligned at haligned
    omega

theorem tryApplyEdits_length {made : List (GeneratorState S σ)}
    (h : tryApplyEdits driver columns session = .ok made ended) :
    made.length = columns.states.length := by
  obtain ⟨runId, named, -, h⟩ := Act.bind_eq_ok h
  split at h
  · cases h
    rfl
  · obtain ⟨edited, applied, hedited, h⟩ := Act.bind_eq_ok h
    cases edited with
    | error rejection =>
      cases h
      rfl
    | ok states =>
      obtain ⟨_, committed, -, h⟩ := Act.bind_eq_ok h
      cases h
      exact applyEdits_length _ _ _ hedited

namespace Aligned

theorem after (haligned : columns.Aligned) {act : Act (Session σ) (List (GeneratorState S σ))}
    (hlength : ∀ made ended, act session = .ok made ended → made.length = columns.states.length) :
    (columns.after act session).Aligned := by
  unfold Columns.after
  cases hact : act session with
  | ok made ended => exact haligned.trans (hlength made ended hact).symm
  | error why ended => exact haligned

/-- Every operation keeps the lists equally long. -/
theorem perform (haligned : columns.Aligned) (driver : Driver S σ) (op : DriverOp S σ) :
    (columns.perform driver op).Aligned := by
  cases op with
  | addGenerators generators =>
    change (columns.generators ++ generators).length = (columns.states ++ generators.map _).length
    rw [List.length_append, List.length_append, List.length_map]
    exact congrArg (· + generators.length) haligned
  | removeGenerators generators =>
    change List.length (List.unzip _).1 = List.length (List.unzip _).2
    rw [List.unzip_eq_map, List.length_map, List.length_map]
  | replaceGenerators generators => exact (List.length_map _).symm
  | fullPass session snapshot => exact haligned.after fun _ _ => fullPass_length haligned
  | tryApplyEdits session snapshot => exact haligned.after fun _ _ => tryApplyEdits_length
  | withSink | addInputs | removeInputs | replaceInput | queueEdits | withOptions => exact haligned

theorem performAll (haligned : columns.Aligned) (driver : Driver S σ) (ops : List (DriverOp S σ)) :
    (Columns.performAll ops (driver, columns)).2.Aligned := by
  induction ops generalizing driver columns with
  | nil => exact haligned
  | cons op rest ih => exact ih (haligned.perform driver op) (op.perform driver)

end Aligned

/-- Every history leaves two lists that are equally long. -/
theorem reached_aligned (host : Host S) (ops : List (DriverOp S σ)) : (reached host ops).Aligned :=
  Aligned.performAll (show Aligned ⟨[], []⟩ from rfl) (.new host) ops

end Columns

/-! The lists hold what the members hold. -/

namespace Driver

/-- The states of the generators in order. -/
def states (driver : Driver S σ) : List (GeneratorState S σ) :=
  driver.members.map (·.state)

/-- The members of a driver, taken apart. -/
def columns (driver : Driver S σ) : Columns S σ :=
  ⟨driver.generators, driver.states⟩

/-- Joining the two lists gives the members; no end of a list is cut off. -/
theorem zip_states (driver : Driver S σ) :
    driver.generators.zip driver.states = driver.members.map fun member =>
      (member.generator, member.state) :=
  List.zip_map' ..

theorem columns_addGenerators (driver : Driver S σ) (generators : List (Generator S σ)) :
    (driver.addGenerators generators).columns = driver.columns.add generators := by
  simp only [columns, Columns.add, Driver.generators, states, addGenerators, withMembers,
    List.map_append, List.map_map, Function.comp_def, Member.join, List.map_id']

theorem columns_removeGenerators (driver : Driver S σ) (generators : List (Generator S σ)) :
    (driver.removeGenerators generators).columns = driver.columns.remove generators := by
  have hrows : (driver.generators.zip driver.states).filter (fun row => !isAmong row.1 generators) =
      (driver.removeGenerators generators).members.map fun member =>
        (member.generator, member.state) := by
    rw [zip_states, List.filter_map]
    rfl
  simp only [columns, Columns.remove, hrows, List.unzip_eq_map, List.map_map]
  rfl

/-- The state at the first position of a generator is that of its member. -/
theorem stateOf_columns (driver : Driver S σ) (generator : Generator S σ) :
    driver.columns.stateOf generator = (driver.keepOrJoin generator).state := by
  have hposition : ∀ members : List (Member S σ),
      ((members.map (·.generator)).findIdx? (·.identity == generator.identity)).bind
          ((members.map (·.state))[·]?) =
        (members.find? (·.generator.identity == generator.identity)).map (·.state) := by
    intro members
    induction members with
    | nil => rfl
    | cons member rest ih =>
      rw [List.find?_cons, List.map_cons, List.findIdx?_cons]
      cases hsame : member.generator.identity == generator.identity with
      | true => rfl
      | false => simpa [Option.bind_map, Function.comp_def] using ih
  rw [Columns.stateOf, columns, generators, states, hposition, keepOrJoin]
  cases driver.members.find? (·.generator.identity == generator.identity) <;> rfl

@[simp] theorem keepOrJoin_generator (driver : Driver S σ) (generator : Generator S σ) :
    (driver.keepOrJoin generator).generator = generator := by
  unfold keepOrJoin
  split <;> rfl

theorem columns_replaceGenerators (driver : Driver S σ) (generators : List (Generator S σ)) :
    (driver.replaceGenerators generators).columns = driver.columns.replace generators := by
  simp only [columns, Columns.replace, Driver.generators, states, replaceGenerators, withMembers,
    List.map_map, Function.comp_def, keepOrJoin_generator, List.map_id']
  congr 1
  exact List.map_congr_left fun generator _ => (driver.stateOf_columns generator).symm

/-- Running the pairs of generators and states runs the members. -/
theorem runAll_members (driver : Driver S σ) (runId : String) (content : S)
    (inputs : List AdditionalInput) (members : List (Member S σ)) :
    Columns.runAll driver runId content inputs
        (members.map fun member => (member.generator, member.state)) =
      List.map (·.state) <$> driver.runMembers runId content inputs members := by
  induction members with
  | nil => rfl
  | cons member rest ih =>
    simp only [List.map_cons, Columns.runAll, runMembers, ih, map_bind, map_pure, bind_map_left]

theorem applyEdit_members (edit : Edit σ) (inputs : List AdditionalInput)
    (members : List (Member S σ)) :
    Columns.applyEdit edit inputs (members.map (·.generator)) (members.map (·.state)) =
      Except.map (List.map (·.state)) <$> edit.applyToMembers inputs members := by
  induction members with
  | nil => rfl
  | cons member rest ih =>
    simp only [List.map_cons, Columns.applyEdit, Edit.applyToMembers, ih, map_bind]
    refine bind_congr fun first => ?_
    cases first with
    | error rejection => rfl
    | ok edited =>
      simp only [map_bind, bind_map_left]
      refine bind_congr fun others => ?_
      cases others <;> rfl

/-- Edits change no generator, so that every edit of a queue finds the same ones. -/
theorem applyEdits_members (inputs : List AdditionalInput) (edits : List (Edit σ))
    (members : List (Member S σ)) :
    Columns.applyEdits inputs (members.map (·.generator)) edits (members.map (·.state)) =
      Except.map (List.map (·.state)) <$> Edit.applyAll inputs edits members := by
  induction edits generalizing members with
  | nil => rfl
  | cons edit rest ih =>
    simp only [Columns.applyEdits, Edit.applyAll, applyEdit_members, bind_map_left, map_bind]
    funext session
    rw [Act.bind_apply, Act.bind_apply]
    cases happlied : edit.applyToMembers inputs members session with
    | error why ended => rfl
    | ok first middle =>
      cases first with
      | error rejection => rfl
      | ok edited =>
        rw [← Edit.edited_generators (Edit.applyToMembers_edited members edited happlied)]
        exact congrFun (ih edited) middle

theorem assembleMembers_ok (driver : Driver S σ) (runId : String) (snapshot : Snapshot S)
    (members : List (Member S σ)) (session : Session σ) : ∃ assembled ended,
      driver.assembleMembers runId snapshot members session = .ok assembled ended := by
  obtain ⟨assembled, ended, hassembled, -⟩ := driver.host.assemble_apply driver.sink runId
    (members.flatMap Member.namedOutputs) snapshot session
  exact ⟨assembled, ended, hassembled⟩

theorem columns_fullPass (driver : Driver S σ) (session : Session σ) (snapshot : Snapshot S) :
    ((DriverOp.fullPass session snapshot).perform driver).columns =
      driver.columns.after (Columns.fullPass driver snapshot driver.columns) session := by
  unfold Columns.after Columns.fullPass
  rw [Act.bind_ok (Session.newRunId_apply session), DriverOp.perform]
  cases hup : driver.isUpToDate snapshot with
  | true =>
    obtain ⟨runId, hreused⟩ := fullPass_reused hup session
    rw [hreused]
    rfl
  | false =>
    rw [fullPass_eq_executePass hup, executePass, if_neg Bool.false_ne_true]
    obtain ⟨events, hstarted⟩ := Session.emit_apply driver.sink
      (.passStarted ("run-" ++ toString session.fresh) driver.members.length)
      { session with fresh := session.fresh + 1 }
    have hcount : driver.columns.generators.length = driver.members.length := List.length_map ..
    rw [Act.bind_ok hstarted, hcount, Act.bind_ok hstarted]
    cases hcommit : Edit.commitAll driver.pendingEdits driver.additionalInputs with
    | error panic => rfl
    | ok inputs =>
      have hrows : driver.columns.generators.zip driver.columns.states = driver.members.map
          fun member => (member.generator, member.state) := driver.zip_states
      rw [Act.bind_ok (Act.ofPanic_ok rfl _), Act.bind_ok (Act.ofPanic_ok rfl _), hrows,
        runAll_members, Act.bind_apply, Act.map_apply]
      cases hran : driver.runMembers ("run-" ++ toString session.fresh) snapshot.content inputs
          driver.members { session with fresh := session.fresh + 1, events } with
      | error why ended => rfl
      | ok members ran =>
        -- from here on nothing can stop
        obtain ⟨assembled, built, hbuilt⟩ := driver.assembleMembers_ok
          ("run-" ++ toString session.fresh) snapshot members ran
        have hgenerators := runMembers_generators driver.members members hran
        simp only [Act.bind_ok hbuilt]
        exact congrArg (Columns.mk · (members.map (·.state))) hgenerators

theorem columns_tryApplyEdits (driver : Driver S σ) (session : Session σ) (snapshot : Snapshot S) :
    ((DriverOp.tryApplyEdits session snapshot).perform driver).columns =
      driver.columns.after (Columns.tryApplyEdits driver driver.columns) session := by
  unfold Columns.after Columns.tryApplyEdits
  rw [Act.bind_ok (Session.newRunId_apply session), DriverOp.perform, tryApplyEdits,
    Act.bind_ok (Session.newRunId_apply session)]
  cases hempty : driver.pendingEdits.isEmpty with
  | true => rfl
  | false =>
    cases hfailed : driver.editsFailed with
    | true => rfl
    | false =>
      have happlied : Columns.applyEdits driver.additionalInputs driver.columns.generators
          driver.pendingEdits driver.columns.states = _ :=
        applyEdits_members driver.additionalInputs driver.pendingEdits driver.members
      simp only [Bool.or_false, Bool.false_eq_true, if_false]
      rw [applyQueue, happlied, Act.bind_apply, Act.bind_apply, Act.map_apply]
      cases hall : Edit.applyAll driver.additionalInputs driver.pendingEdits driver.members
          { session with fresh := session.fresh + 1 } with
      | error why ended => rfl
      | ok r applied =>
        cases r with
        | error rejection => rfl
        | ok members =>
          have hgenerators := Edit.edited_generators
            (Edit.applyAll_edited driver.pendingEdits driver.members members hall)
          simp only [Except.map]
          cases hcommit : Edit.commitAll driver.pendingEdits driver.additionalInputs with
          | error panic => rfl
          | ok inputs =>
            obtain ⟨assembled, built, hbuilt⟩ := driver.assembleMembers_ok
              ("run-" ++ toString session.fresh) snapshot members applied
            rw [Act.bind_ok (Act.ofPanic_ok rfl _), Act.bind_ok hbuilt]
            exact congrArg (Columns.mk · (members.map (·.state))) hgenerators

/-- What an operation makes of the members, it makes of the two lists. -/
theorem columns_perform (driver : Driver S σ) (op : DriverOp S σ) :
    (op.perform driver).columns = driver.columns.perform driver op := by
  cases op with
  | addGenerators generators => exact driver.columns_addGenerators generators
  | removeGenerators generators => exact driver.columns_removeGenerators generators
  | replaceGenerators generators => exact driver.columns_replaceGenerators generators
  | fullPass session snapshot => exact driver.columns_fullPass session snapshot
  | tryApplyEdits session snapshot => exact driver.columns_tryApplyEdits session snapshot
  | replaceInput old new =>
    change (driver.replaceInput old new).columns = driver.columns
    unfold replaceInput
    split <;> rfl
  | withSink | addInputs | removeInputs | queueEdits | withOptions => rfl

theorem columns_performAll (driver : Driver S σ) (ops : List (DriverOp S σ)) :
    Columns.performAll ops (driver, driver.columns) =
      (ops.foldl DriverOp.perform driver, (ops.foldl DriverOp.perform driver).columns) := by
  induction ops generalizing driver with
  | nil => rfl
  | cons op rest ih =>
    rw [List.foldl_cons, ← ih (op.perform driver), driver.columns_perform op]
    rfl

/-- Every history leads to the same two lists, whether they are kept apart or as members. -/
theorem columns_reached (host : Host S) (ops : List (DriverOp S σ)) :
    (reached host ops).columns = Columns.reached host ops :=
  (congrArg Prod.snd (columns_performAll (.new host) ops)).symm

end Driver

end Regen
