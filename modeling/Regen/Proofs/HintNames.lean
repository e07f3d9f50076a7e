import Mathlib.Data.List.Nodup
import Std.Data.HashSet.Lemmas
import Regen.Proofs.Members
import Regen.Proofs.Simulation

/-!
# Unique hint names

Outputs are made in two places: a generator adds them while it executes, and the handler of an edit
adds, replaces and removes them later. Whatever either of them asks for, and whichever refusal it
goes on after, no two outputs of a generator ever have the same hint name. Nothing is asked of the
plug-ins.
-/

namespace Regen

variable {S σ : Type}

namespace GeneratedOutput

/-- The hint names of some outputs in order. -/
def hintNames (outputs : List GeneratedOutput) : List String :=
  outputs.map (·.hintName)

/-- No two of the outputs have the same hint name. -/
def Distinct (outputs : List GeneratedOutput) : Prop :=
  (hintNames outputs).Nodup

instance (outputs : List GeneratedOutput) : Decidable (Distinct outputs) :=
  inferInstanceAs (Decidable (hintNames outputs).Nodup)

variable {outputs : List GeneratedOutput} {output : GeneratedOutput} {hintName : String}

theorem hinted_iff : hinted hintName outputs = true ↔ hintName ∈ hintNames outputs := by
  simp [hinted, hintNames]

theorem distinct_nil : Distinct [] :=
  List.nodup_nil

/-- An output whose hint name is free goes to the end. -/
theorem Distinct.add (h : Distinct outputs) (hfree : ¬ hinted output.hintName outputs = true) :
    Distinct (outputs ++ [output]) := by
  rw [hinted_iff] at hfree
  unfold Distinct hintNames
  rw [List.map_append, List.map_singleton]
  exact List.Nodup.append h (List.nodup_singleton _) (List.disjoint_singleton.mpr hfree)

/-- Where all hint names are different, that of an output is not among those before it. -/
theorem Distinct.free {rest : List GeneratedOutput} (h : Distinct (outputs ++ output :: rest)) :
    ¬ hinted output.hintName outputs = true := by
  rw [hinted_iff]
  intro hm
  rw [Distinct, hintNames, List.map_append, List.nodup_append] at h
  exact h.2.2 _ hm _ List.mem_cons_self rfl

theorem Distinct.of_append {new : List GeneratedOutput} (h : Distinct (outputs ++ new)) :
    Distinct outputs :=
  h.sublist ((List.sublist_append_left outputs new).map _)

/-- Replacing an output keeps the hint names in their order; without one to replace it adds. -/
theorem replaceIn_cases (output : GeneratedOutput) (outputs : List GeneratedOutput) :
    hinted output.hintName outputs = true ∧
        hintNames (output.replaceIn outputs) = hintNames outputs ∨
      ¬ hinted output.hintName outputs = true ∧ output.replaceIn outputs = outputs ++ [output] := by
  induction outputs with
  | nil => exact .inr ⟨Bool.false_ne_true, rfl⟩
  | cons other rest ih =>
    unfold replaceIn
    by_cases hsame : other.hintName = output.hintName
    · exact .inl (by simp [hinted, hintNames, hsame])
    · rw [if_neg (by simpa using hsame)]
      refine ih.imp ?_ ?_
      · rintro ⟨hfound, hnames⟩
        exact ⟨by simpa [hinted, hsame] using hfound, congrArg (other.hintName :: ·) hnames⟩
      · rintro ⟨hfree, hend⟩
        exact ⟨by simpa [hinted, hsame] using hfree, congrArg (other :: ·) hend⟩

theorem Distinct.replaceIn (h : Distinct outputs) (output : GeneratedOutput) :
    Distinct (output.replaceIn outputs) := by
  rcases replaceIn_cases output outputs with ⟨-, hnames⟩ | ⟨hfree, hend⟩
  · unfold Distinct
    rw [hnames]
    exact h
  · rw [hend]
    exact h.add hfree

theorem Distinct.removeFrom (h : Distinct outputs) (hintName : String) :
    Distinct (removeFrom hintName outputs) :=
  h.sublist (List.filter_sublist.map _)

end GeneratedOutput

open GeneratedOutput (Distinct)

namespace Execution

/-- The outputs made so far have unique hint names. -/
def Tidy (execution : Execution σ) : Prop :=
  Distinct execution.outputs

theorem tidy_start (evaluation : Evaluation σ) : (start evaluation).Tidy :=
  GeneratedOutput.distinct_nil

theorem keeps_onEvaluation {α : Type} (act : Act (Evaluation σ) α) :
    (onEvaluation act).Keeps Tidy := by
  refine Act.keeps_within ?_ act
  exact fun _ _ h => h

theorem keeps_addOutput (generator : String) (output : GeneratedOutput) :
    (addOutput generator output : Act (Execution σ) Unit).Keeps Tidy :=
  Act.keeps_get_ite (fun _ _ h => h) fun _ hfree h => h.add hfree

theorem keeps_addOutputs (generator : String) (outputs : List GeneratedOutput) :
    (addOutputs generator outputs : Act (Execution σ) Unit).Keeps Tidy := by
  induction outputs with
  | nil => exact Act.keeps_pure ()
  | cons output rest ih => exact (keeps_addOutput generator output).bind fun _ => ih

theorem keeps_collectBinding (generator : String) (binding : OutputBinding σ) :
    (collectBinding generator binding).Keeps Tidy := by
  refine (keeps_onEvaluation _).bind fun table => ?_
  split
  · exact Act.keeps_modify fun _ h => h
  · exact keeps_addOutputs generator _

theorem keeps_collectBindings (generator : String) (options : DriverOptions)
    (bindings : List (OutputBinding σ)) :
    (collectBindings generator options bindings).Keeps Tidy := by
  induction bindings with
  | nil => exact Act.keeps_pure ()
  | cons binding rest ih =>
    unfold collectBindings
    split
    · exact (keeps_collectBinding generator binding).bind fun _ => ih
    · exact ih

/-- Whatever a generator asks for, the hint names stay unique. -/
theorem keeps_answer (pipeline : Pipeline S σ) (options : DriverOptions) (briefing : Briefing S)
    (request : Request σ) : (answer pipeline options briefing request).Keeps Tidy := by
  cases request with
  | ambient request => exact keeps_onEvaluation _
  | seed => exact keeps_onEvaluation _
  | collect => exact (keeps_collectBindings briefing.generator options pipeline.outputs).orError
  | addOutput output => exact (keeps_addOutput briefing.generator output).orError
  | outputs => exact Act.keeps_get_bind fun _ h => h
  | pull stage => exact keeps_onEvaluation (Evaluation.pull stage).orError
  | isComputed stage => exact Act.keeps_get_bind fun _ h => h
  | addInput stage values => exact keeps_onEvaluation _
  | setTable stage table => exact keeps_onEvaluation _
  | steps => exact Act.keeps_get_bind fun _ h => h
  | checkCancelled => exact keeps_onEvaluation _

end Execution

/-! An executing generator may as well keep the hint names that are taken in a set beside its outputs.
Every output is then added or refused as if the outputs themselves were searched, whatever the
generator asks for. -/

/-- An execution with the set of the hint names that are taken. -/
structure Roll (σ : Type) where
  execution : Execution σ
  taken : Std.HashSet String

namespace Roll

def onExecution {α : Type} (act : Act (Execution σ) α) : Act (Roll σ) α :=
  act.within execution fun execution roll => { roll with execution }

/-- Add an output unless its hint name is in the set. -/
def addOutput (generator : String) (output : GeneratedOutput) : Act (Roll σ) Unit := do
  if (← get).taken.contains output.hintName then
    Act.fail (.duplicateHintName generator output.hintName)
  else
    modify fun roll =>
      { execution := { roll.execution with outputs := roll.execution.outputs ++ [output] }
        taken := roll.taken.insert output.hintName }

def addOutputs (generator : String) : List GeneratedOutput → Act (Roll σ) Unit
  | [] => return ()
  | output :: rest => do
    addOutput generator output
    addOutputs generator rest

def collectBinding (generator : String) (binding : OutputBinding σ) : Act (Roll σ) Unit := do
  let table ← onExecution (Execution.onEvaluation (Evaluation.pull binding.stage))
  match table.fault with
  | some fault =>
    onExecution (modify fun execution =>
      { execution with stageFaults := execution.stageFaults ++ [fault] })
  | none => addOutputs generator (Execution.liveOutputs binding.kind table)

def collectBindings (generator : String) (options : DriverOptions) :
    List (OutputBinding σ) → Act (Roll σ) Unit
  | [] => return ()
  | binding :: rest => do
    if options.isEnabled binding.kind then collectBinding generator binding
    collectBindings generator options rest

/-- Requests to add outputs look at the set, the others do not. -/
def answer (pipeline : Pipeline S σ) (options : DriverOptions) (briefing : Briefing S) :
    (request : Execution.Request σ) → Act (Roll σ) ((Execution.interface σ).Answer request)
  | .collect => (collectBindings briefing.generator options pipeline.outputs).orError
  | .addOutput output => (addOutput briefing.generator output).orError
  | request => onExecution (Execution.answer pipeline options briefing request)

/-- The set holds exactly the hint names of the outputs. -/
structure Exact (roll : Roll σ) (execution : Execution σ) : Prop where
  same : roll.execution = execution
  taken : ∀ hintName,
    roll.taken.contains hintName = GeneratedOutput.hinted hintName execution.outputs

theorem exact_start (evaluation : Evaluation σ) :
    Exact ⟨.start evaluation, ∅⟩ (.start evaluation) where
  same := rfl
  taken hintName := by simp [Execution.start, GeneratedOutput.hinted]

/-- What leaves the outputs alone may be done beside any set. -/
theorem onExecution_simulates {α : Type} {act : Act (Execution σ) α}
    (h : ∀ outputs, act.Keeps (·.outputs = outputs)) :
    (onExecution act).Simulates Exact Eq act := by
  rintro ⟨execution, taken⟩ _ ⟨rfl, htaken⟩
  have hkept := h execution.outputs execution rfl
  unfold Act.after at hkept
  unfold onExecution Act.within
  dsimp only at hkept ⊢
  cases hact : act execution with
  | ok a ended =>
    rw [hact] at hkept
    exact .ok rfl ⟨rfl, fun hintName => hkept ▸ htaken hintName⟩
  | error why ended =>
    rw [hact] at hkept
    exact .error ⟨rfl, fun hintName => hkept ▸ htaken hintName⟩

theorem addOutput_simulates (generator : String) (output : GeneratedOutput) :
    (addOutput generator output : Act (Roll σ) Unit).Simulates Exact Eq
      (Execution.addOutput generator output) := by
  refine Act.simulates_get_bind fun roll _ ⟨hsame, htaken⟩ => ?_
  subst hsame
  rw [htaken]
  split
  · exact .error ⟨rfl, htaken⟩
  · refine .ok rfl ⟨rfl, fun hintName => ?_⟩
    have hold := htaken hintName
    simp only [GeneratedOutput.hinted] at hold ⊢
    simp [hold, Bool.or_comm]

theorem addOutputs_simulates (generator : String) (outputs : List GeneratedOutput) :
    (addOutputs generator outputs : Act (Roll σ) Unit).Simulates Exact Eq
      (Execution.addOutputs generator outputs) := by
  induction outputs with
  | nil => exact Act.simulates_pure rfl
  | cons output rest ih => exact (addOutput_simulates generator output).bind_eq fun _ => ih

theorem onEvaluation_simulates {α : Type} (act : Act (Evaluation σ) α) :
    (onExecution (Execution.onEvaluation act)).Simulates Exact Eq (Execution.onEvaluation act) := by
  refine onExecution_simulates fun outputs => Act.keeps_within ?_ act
  exact fun _ _ h => h

theorem collectBinding_simulates (generator : String) (binding : OutputBinding σ) :
    (collectBinding generator binding).Simulates Exact Eq
      (Execution.collectBinding generator binding) := by
  refine (onEvaluation_simulates _).bind_eq fun table => ?_
  cases table.fault with
  | some fault => exact onExecution_simulates fun _ => Act.keeps_modify fun _ h => h
  | none => exact addOutputs_simulates generator _

theorem collectBindings_simulates (generator : String) (options : DriverOptions)
    (bindings : List (OutputBinding σ)) :
    (collectBindings generator options bindings).Simulates Exact Eq
      (Execution.collectBindings generator options bindings) := by
  induction bindings with
  | nil => exact Act.simulates_pure rfl
  | cons binding rest ih =>
    unfold collectBindings Execution.collectBindings
    split
    · exact (collectBinding_simulates generator binding).bind_eq fun _ => ih
    · exact ih

theorem answer_simulates (pipeline : Pipeline S σ) (options : DriverOptions)
    (briefing : Briefing S) (request : Execution.Request σ) :
    (answer pipeline options briefing request).Simulates Exact Eq
      (Execution.answer pipeline options briefing request) := by
  cases request with
  | collect => exact (collectBindings_simulates briefing.generator options pipeline.outputs).orError
  | addOutput output => exact (addOutput_simulates briefing.generator output).orError
  | ambient | seed | pull | addInput | setTable | checkCancelled => exact onEvaluation_simulates _
  | outputs | isComputed | steps =>
    exact onExecution_simulates fun _ => Act.keeps_get_bind fun _ h => h

/-- A generator that runs with the set ends as it does without one, and leaves the same outputs. -/
theorem run_start (pipeline : Pipeline S σ) (options : DriverOptions) (briefing : Briefing S)
    {α : Type} (program : ExecuteProgram σ α) (evaluation : Evaluation σ) :
    Act.Alike Exact Eq
      (program.run (answer pipeline options briefing) ⟨.start evaluation, ∅⟩)
      (program.run (Execution.answer pipeline options briefing) (.start evaluation)) := by
  have hrun : (program.run (answer pipeline options briefing)).Simulates Exact Eq
      (program.run (Execution.answer pipeline options briefing)) := by
    induction program with
    | done a => exact Act.simulates_pure rfl
    | stop why => exact Act.simulates_throw why
    | ask request next ih =>
      exact (answer_simulates pipeline options briefing request).bind_eq ih
  exact hrun _ _ (exact_start evaluation)

end Roll

namespace Editing

/-- The outputs that are edited have unique hint names. -/
def Tidy (editing : Editing σ) : Prop :=
  Distinct editing.outputs

/-- Whatever the handler of an edit asks for, the hint names stay unique. -/
theorem keeps_answer (context : EditContext) (request : Request σ) :
    (answer context request).Keeps Tidy := by
  cases request with
  | ambient request =>
    refine Act.keeps_within ?_ (Ambient.answer request)
    exact fun _ _ h => h
  | outputs => exact Act.keeps_get_bind fun _ h => h
  | addOutput output => exact Act.keeps_get_ite (fun _ _ h => h) fun _ hfree h => h.add hfree
  | replaceOutput output => exact Act.keeps_get_bind fun editing h => h.replaceIn output
  | removeOutput hintName => exact Act.keeps_get_bind fun editing h => h.removeFrom hintName

end Editing

/-- The outputs of the member have unique hint names. -/
def Member.Tidy (member : Member S σ) : Prop :=
  Distinct member.state.outputs

theorem Generator.executePipeline_tidy {generator : Generator S σ} {pipeline : Pipeline S σ}
    {tables : PassTables} {options : DriverOptions} {briefing : Briefing S}
    {session ended : Session σ} {execution : Execution σ}
    (h : generator.executePipeline pipeline tables options briefing session =
      .ok (.completed execution) ended) : execution.Tidy := by
  have hkeeps := Program.run_keeps (Execution.keeps_answer pipeline options briefing)
    (generator.execute briefing)
  generalize hrun : (generator.execute briefing).run (Execution.answer pipeline options briefing)
    (.start ⟨.start tables options.trackIncrementalSteps, session.ambient⟩) = result
  have hends := generator.executePipeline_of_run hrun
  rw [h] at hends
  cases result with
  | ok _ made =>
    cases hends
    exact hkeeps.of_ok hrun (Execution.tidy_start _)
  | error why made =>
    dsimp only at hends
    split at hends <;> cases hends

/-- A full pass starts each generator without outputs. -/
theorem Driver.runMember_tidy {driver : Driver S σ} {runId : String} {content : S}
    {inputs : List AdditionalInput} {member : Member S σ} {state : GeneratorState S σ}
    {session ended : Session σ}
    (h : driver.runMember runId content inputs member session = .ok state ended) :
    Distinct state.outputs := by
  obtain ⟨_, _, -, ⟨fault, -, rfl⟩ | ⟨pipeline, -, _, _, hexecuted, hstate⟩⟩ := runMember_ok h
  · exact GeneratedOutput.distinct_nil
  · rcases hstate with ⟨execution, rfl, rfl⟩ | ⟨fault, -, rfl⟩
    · exact Generator.executePipeline_tidy hexecuted
    · exact GeneratedOutput.distinct_nil

theorem Edit.applyTo_tidy {edit : Edit σ} {shape : PipelineShape σ} {context : EditContext}
    {outputs made : List GeneratedOutput} {session ended : Session σ}
    (h : edit.applyTo shape context outputs session = .ok (.ok made) ended)
    (hu : Distinct outputs) : Distinct made := by
  obtain ⟨_, _, hget, h⟩ := Act.bind_eq_ok h
  cases hget
  cases hrun : (edit.apply shape context).run (Editing.answer context)
      ⟨outputs, session.ambient⟩ with
  | ok _ editing =>
    simp only [hrun] at h
    cases h
    have hkeeps := Program.run_keeps (Editing.keeps_answer context) (edit.apply shape context)
    exact hkeeps.of_ok hrun hu
  | error why editing =>
    simp only [hrun] at h
    cases h

theorem Edit.applyToMember_tidy {edit : Edit σ} {inputs : List AdditionalInput}
    {member made : Member S σ} {session ended : Session σ}
    (h : edit.applyToMember inputs member session = .ok (.ok made) ended) (hm : member.Tidy) :
    made.Tidy := by
  unfold applyToMember at h
  cases hp : member.state.pipeline with
  | none =>
    rw [hp] at h
    cases h
    exact hm
  | some pipeline =>
    rw [hp] at h
    obtain ⟨accepted, _, -, h⟩ := Act.bind_eq_ok h
    cases accepted with
    | false =>
      cases h
      exact hm
    | true =>
      obtain ⟨r, _, happlied, h⟩ := Act.bind_eq_ok h
      cases r with
      | ok outputs =>
        cases h
        exact applyTo_tidy happlied hm
      | error error => cases h

/-- Nothing that gives a member another state makes two outputs of one hint name. -/
theorem memberInvariant_tidy :
    MemberInvariant (fun _ => True) (Member.Tidy : Member S σ → Prop) where
  join _ := GeneratedOutput.distinct_nil
  takeOver _ _ h := h
  run h _ := Driver.runMember_tidy h
  edit h hm := Edit.applyToMember_tidy h hm

/-- However a driver was reached, the outputs of each of its generators have pairwise distinct hint
names. -/
theorem reached_hintNames_nodup (host : Host S) (ops : List (DriverOp S σ)) :
    ∀ member ∈ (Driver.reached host ops).members,
      (member.state.outputs.map (·.hintName)).Nodup :=
  memberInvariant_tidy.reached host ops fun _ _ _ _ => trivial

/-! A plug-in and an edit that go on after every refusal. -/

namespace Careless

def output (hintName text : String) : GeneratedOutput :=
  ⟨hintName, text, .source⟩

def generator : Generator Unit Unit where
  identity := 0
  name := "careless"
  declare := .done ()
  execute _ :=
    .ask (Execution.Request.addOutput (output "a" "first")) fun _ =>
      .ask (Execution.Request.addOutput (output "a" "second")) fun _ =>
        .ask Execution.Request.collect fun _ =>
          .ask (Execution.Request.addOutput (output "b" "third")) fun _ => .done ()

def edit : Edit Unit where
  kind := "careless"
  typeName := "careless"
  content := .list []
  acceptedBy _ := .ok true
  apply _ _ :=
    .ask (Editing.Request.addOutput (output "b" "fourth")) fun _ =>
      .ask (Editing.Request.removeOutput "a") fun _ =>
        .ask (Editing.Request.replaceOutput (output "b" "fifth")) fun _ =>
          .ask (Editing.Request.replaceOutput (output "c" "sixth")) fun _ => .done ()

def host : Host Unit where
  materialize generator output := .ok ⟨generator, output.hintName, .null⟩
  merge content _ := .ok content

def session : Session Unit :=
  ⟨⟨false, ()⟩, 0, []⟩

/-- A full pass, after which edits may be applied, and one edit. -/
def history : List (DriverOp Unit Unit) :=
  [.addGenerators [generator], .fullPass session ⟨1, ()⟩, .queueEdits [edit],
    .tryApplyEdits session ⟨1, ()⟩]

end Careless

open Careless in
/-- Of the outputs added twice the first one stays; the edit replaces one and adds one. -/
theorem reached_hintNames_nodup_careless : ∃ member ∈ (Driver.reached host history).members,
    member.state.outputs = [output "b" "fifth", output "c" "sixth"] ∧
    (member.state.outputs.map (·.hintName)).Nodup := by
  have hunique := reached_hintNames_nodup host history
  obtain ⟨member, hmembers⟩ : ∃ member, (Driver.reached host history).members = [member] := ⟨_, rfl⟩
  have hmem : member ∈ (Driver.reached host history).members := by
    rw [hmembers]
    exact List.mem_singleton_self member
  have houtputs : (Driver.reached host history).members.map (·.state.outputs) =
      [[output "b" "fifth", output "c" "sixth"]] := rfl
  rw [hmembers] at houtputs
  exact ⟨member, hmem, List.singleton_inj.mp houtputs, hunique member hmem⟩

end Regen
