import Regen.Proofs.Collecting
import Regen.Proofs.HintNames

/-!
# Collecting what the registered stages hold

Whatever a generator did before it collects its outputs, collecting appends the live values of its
registered stages: each stage once, under the kind that it was registered under first, without those of
disabled kinds and those that failed. The first hint name that repeats ends it, and what was appended
before stays. The tables are those that the pulls of the enabled stages return, one after the other;
nothing is asked of what is in them. A registered stage holds outputs, and other values would be left
out.
-/

namespace Regen

variable {S σ α : Type}

/-! Which stages are registered. -/

/-- The first registration of each stage. -/
def OutputBinding.firsts : List (OutputBinding σ) → List (OutputBinding σ)
  | [] => []
  | binding :: rest => binding :: (firsts rest).filter (·.stage.id != binding.stage.id)

namespace Declaration

/-- The stage and the kind that a request registers. -/
def Request.registered : Request S σ → List (OutputBinding σ)
  | .registerOutput stage kind => [⟨stage, kind⟩]
  | _ => []

/-- What a program asks to register in a run, in order. -/
def registrations : DeclareProgram S σ α → Declaration S σ → List (OutputBinding σ)
  | .done _, _ => []
  | .stop _, _ => []
  | .ask request next, declaration =>
    match answer request declaration with
    | .ok given later => request.registered ++ registrations (next given) later
    | .error _ _ => request.registered

/-- Register stages one after the other. -/
def registerAll (registered outputs : List (OutputBinding σ)) : List (OutputBinding σ) :=
  registered.foldl (fun outputs binding => register binding.stage binding.kind outputs) outputs

/-- Registering keeps those that were registered before, and of the others the first registration of
each stage. -/
theorem registerAll_eq (registered outputs : List (OutputBinding σ)) :
    registerAll registered outputs =
      outputs ++ (OutputBinding.firsts registered).filter fun binding =>
        !outputs.any (·.stage.id == binding.stage.id) := by
  induction registered generalizing outputs with
  | nil => exact (List.append_nil outputs).symm
  | cons binding rest ih =>
    rw [registerAll, List.foldl_cons, ← registerAll, ih, OutputBinding.firsts, List.filter_cons,
      List.filter_filter, register]
    by_cases htaken : outputs.any (·.stage.id == binding.stage.id) = true
    · -- the stage is there already, and so are all of its later registrations
      rw [if_pos htaken, if_neg (by simp [htaken])]
      refine congrArg (outputs ++ ·) (List.filter_congr fun other _ => ?_)
      by_cases hsame : other.stage.id = binding.stage.id
      · simp [hsame, htaken]
      · simp [hsame]
    · rw [if_neg htaken, if_pos (by simp [htaken]), List.append_assoc]
      refine congrArg (outputs ++ binding :: ·) (List.filter_congr fun other _ => ?_)
      simp only [List.any_append, List.any_cons, List.any_nil, Bool.or_false, Bool.not_or, bne]
      rw [BEq.comm, Bool.and_comm]

/-- Each request is answered, and adds what it registers. -/
theorem answer_ok (request : Request S σ) (declaration : Declaration S σ) :
    ∃ given later, answer request declaration = .ok given later ∧
      later.outputs = registerAll request.registered declaration.outputs := by
  cases request with
  | ambient request => cases request <;> exact ⟨_, _, rfl, rfl⟩
  | newStage name => exact ⟨_, _, rfl, rfl⟩
  | snapshotLeaf name select => exact ⟨_, _, rfl, rfl⟩
  | additionalInputs =>
    rcases declaration with ⟨leaves, inputs, outputs, handlers, fresh, ambient⟩
    cases inputs <;> exact ⟨_, _, rfl, rfl⟩
  | registerOutput stage kind => exact ⟨_, _, rfl, rfl⟩
  | onEdit kind handler => exact ⟨_, _, rfl, rfl⟩

/-- A run adds the registrations that it asks for, one after the other. -/
theorem outputs_after_run (program : DeclareProgram S σ α) (declaration : Declaration S σ) :
    ((program.run answer).after declaration).outputs =
      registerAll (registrations program declaration) declaration.outputs := by
  induction program generalizing declaration with
  | done value => rfl
  | stop why => rfl
  | ask request next ih =>
    obtain ⟨given, later, hx, houtputs⟩ := answer_ok request declaration
    have hrun : (Program.ask request next).run answer declaration = (next given).run answer later :=
      Act.bind_ok hx
    rw [registrations, hx, registerAll, List.foldl_append, ← registerAll, ← registerAll, ← houtputs,
      ← ih given later, Act.after, hrun]
    rfl

/-- The registrations of a declaration are the first ones that it asks for, stage by stage. -/
theorem outputs_of_run (program : DeclareProgram S σ α) (fresh : Nat) (ambient : Ambient σ) :
    ((program.run answer).after (start fresh ambient)).outputs =
      OutputBinding.firsts (registrations program (start fresh ambient)) := by
  rw [outputs_after_run, registerAll_eq]
  exact List.filter_eq_self.mpr fun _ _ => rfl

end Declaration

/-! The first hint name that repeats. -/

namespace GeneratedOutput

/-- Appending new outputs to those that were made, the first hint name that is taken is that of
`output`, which comes after `front`. -/
structure FirstRepeat (made new front : List GeneratedOutput) (output : GeneratedOutput) : Prop where
  comes_next : ∃ back, new = front ++ output :: back
  distinct : Distinct (made ++ front)
  taken : output.hintName ∈ hintNames (made ++ front)

variable {made new more front : List GeneratedOutput} {output : GeneratedOutput}

theorem FirstRepeat.not_distinct (h : FirstRepeat made new front output) :
    ¬ Distinct (made ++ new) := by
  obtain ⟨⟨back, rfl⟩, -, htaken⟩ := h
  intro hd
  rw [← List.append_assoc] at hd
  exact hd.free (hinted_iff.mpr htaken)

/-- Where hint names repeat, there is a first one. -/
theorem exists_firstRepeat (new : List GeneratedOutput) (h : Distinct made)
    (hn : ¬ Distinct (made ++ new)) : ∃ front output, FirstRepeat made new front output := by
  induction new generalizing made with
  | nil => exact absurd (by rwa [List.append_nil]) hn
  | cons output rest ih =>
    by_cases htaken : hinted output.hintName made = true
    · exact ⟨[], output, ⟨rest, rfl⟩, by rwa [List.append_nil],
        by rw [List.append_nil]; exact hinted_iff.mp htaken⟩
    · obtain ⟨front, repeated, ⟨back, rfl⟩, hdistinct, hrepeated⟩ :=
        ih (h.add htaken) (by rwa [List.append_assoc])
      rw [List.append_assoc] at hdistinct hrepeated
      exact ⟨output :: front, repeated, ⟨back, rfl⟩, hdistinct, hrepeated⟩

theorem FirstRepeat.eq_of_prefix {other : GeneratedOutput} {longer : List GeneratedOutput}
    (h : FirstRepeat made new front output) (h' : FirstRepeat made new longer other)
    (hp : front <+: longer) : longer = front ∧ other = output := by
  obtain ⟨back, hsplit⟩ := h.comes_next
  obtain ⟨back', hsplit'⟩ := h'.comes_next
  obtain ⟨later, rfl⟩ := hp
  rw [hsplit', List.append_assoc] at hsplit
  have hlater := List.append_cancel_left hsplit
  cases later with
  | nil => exact ⟨List.append_nil front, (List.cons_eq_cons.mp hlater).1⟩
  | cons repeated rest =>
    obtain rfl := (List.cons_eq_cons.mp hlater).1
    exact absurd h'.distinct (FirstRepeat.not_distinct ⟨⟨rest, rfl⟩, h.distinct, h.taken⟩)

/-- There is one first repetition. -/
theorem FirstRepeat.unique {other : GeneratedOutput} {further : List GeneratedOutput}
    (h : FirstRepeat made new front output) (h' : FirstRepeat made new further other) :
    further = front ∧ other = output := by
  obtain ⟨back, hsplit⟩ := h.comes_next
  obtain ⟨back', hsplit'⟩ := h'.comes_next
  rcases List.prefix_or_prefix_of_prefix ⟨_, hsplit.symm⟩ ⟨_, hsplit'.symm⟩ with hp | hp
  · exact h.eq_of_prefix h' hp
  · exact (h'.eq_of_prefix h hp).imp Eq.symm Eq.symm

/-- The first repetition in two lists is in the first list or after it. -/
theorem FirstRepeat.append_cases (h : FirstRepeat made (new ++ more) front output) :
    FirstRepeat made new front output ∨
      ∃ later, front = new ++ later ∧ FirstRepeat (made ++ new) more later output := by
  obtain ⟨⟨back, hsplit⟩, hdistinct, htaken⟩ := h
  rcases List.append_eq_append_iff.mp hsplit with ⟨later, rfl, hmore⟩ | ⟨later, rfl, hback⟩
  · exact .inr ⟨later, rfl, ⟨back, hmore⟩, by rwa [List.append_assoc], by rwa [List.append_assoc]⟩
  · cases later with
    | nil =>
      rw [List.append_nil] at *
      exact .inr ⟨[], (List.append_nil _).symm, ⟨back, hback.symm⟩, by rwa [List.append_nil],
        by rwa [List.append_nil]⟩
    | cons other rest =>
      obtain ⟨rfl, rfl⟩ := List.cons_eq_cons.mp hback
      exact .inl ⟨⟨rest, rfl⟩, hdistinct, htaken⟩

end GeneratedOutput

open GeneratedOutput (Distinct FirstRepeat hintNames)

/-- Outputs whose hint names are all different are added one after the other. -/
theorem accept_distinct (generator : String) (made new : List GeneratedOutput)
    (h : Distinct (made ++ new)) : accept generator made new = .ok (made ++ new) := by
  induction new generalizing made with
  | nil => rw [accept, List.append_nil]
  | cons output rest ih =>
    rw [accept, if_neg h.free]
    rw [List.append_cons made output rest] at h ⊢
    exact ih _ h

namespace Evaluation

/-- Pull stages in order, each in the evaluation that the one before left. -/
def pullAll : List (Stage σ) → Act (Evaluation σ) (List (Table Value))
  | [] => return []
  | stage :: rest => do
    let table ← pull stage
    return table :: (← pullAll rest)

end Evaluation

namespace Execution

/-- The live values in the table of a registered stage, as outputs of the registered kind. A table that
is faulted has none. -/
def outputsIn (binding : OutputBinding σ) (table : Table Value) : List GeneratedOutput :=
  if table.isFaulted then [] else liveOutputs binding.kind table

/-- The outputs in the tables of registered stages, in order. -/
def collected (bindings : List (OutputBinding σ)) (tables : List (Table Value)) :
    List GeneratedOutput :=
  (bindings.zip tables).flatMap fun row => outputsIn row.1 row.2

variable {generator : String} {options : DriverOptions} {binding : OutputBinding σ}
  {bindings : List (OutputBinding σ)} {before : Execution σ} {table : Table Value}
  {tables : List (Table Value)} {after : Evaluation σ} {new front : List GeneratedOutput}
  {output : GeneratedOutput}

theorem addOutputs_distinct (new : List GeneratedOutput) (before : Execution σ)
    (h : Distinct (before.outputs ++ new)) :
    addOutputs generator new before = .ok () { before with outputs := before.outputs ++ new } :=
  addOutputs_ok new before (accept_distinct generator before.outputs new h)

theorem addOutputs_append (front back : List GeneratedOutput) :
    (addOutputs generator (front ++ back) : Act (Execution σ) Unit) =
      addOutputs generator front >>= fun _ => addOutputs generator back := by
  induction front with
  | nil => rfl
  | cons output rest ih => rw [List.cons_append, addOutputs, ih, addOutputs, bind_assoc]

theorem addOutputs_firstRepeat (before : Execution σ)
    (h : FirstRepeat before.outputs new front output) :
    addOutputs generator new before =
      .error (.failed (.duplicateHintName generator output.hintName))
        { before with outputs := before.outputs ++ front } := by
  obtain ⟨⟨back, rfl⟩, hdistinct, htaken⟩ := h
  rw [addOutputs_append, Act.bind_ok (addOutputs_distinct front before hdistinct)]
  exact Act.bind_error (addOutput_taken _ (GeneratedOutput.hinted_iff.mpr htaken))

/-! One stage. -/

/-- A stage whose table is there adds what is in it and records its fault. -/
theorem collectBinding_of_pull (generator : String) (before : Execution σ)
    (hx : Evaluation.pull binding.stage before.evaluation = .ok table after) :
    collectBinding generator binding before = addOutputs generator (outputsIn binding table)
      { before with
        evaluation := after
        stageFaults := before.stageFaults ++ table.fault.toList } := by
  refine (Act.bind_ok (Act.within_apply (r := .ok table) hx)).trans ?_
  cases hf : table.fault with
  | some fault =>
    rw [outputsIn, if_pos (by rw [Table.isFaulted, hf]; rfl)]
    rfl
  | none =>
    rw [outputsIn, if_neg (by rw [Table.isFaulted, hf]; exact Bool.false_ne_true), Option.toList_none,
      List.append_nil]

theorem pullAll_cons {stage : Stage σ} {rest : List (Stage σ)} {evaluation : Evaluation σ}
    (h : Evaluation.pullAll (stage :: rest) evaluation = .ok tables after) :
    ∃ table middle others, Evaluation.pull stage evaluation = .ok table middle ∧
      Evaluation.pullAll rest middle = .ok others after ∧ tables = table :: others := by
  obtain ⟨table, middle, hfirst, h⟩ := Act.bind_eq_ok h
  obtain ⟨others, last, hrest, h⟩ := Act.bind_eq_ok h
  cases h
  exact ⟨table, middle, others, hfirst, hrest, rfl⟩

/-! All stages. -/

/-- Stages of disabled kinds might as well not be there. -/
theorem collectBindings_filter (generator : String) (options : DriverOptions)
    (bindings : List (OutputBinding σ)) : collectBindings generator options bindings =
      collectBindings generator options (bindings.filter (options.isEnabled ·.kind)) := by
  induction bindings with
  | nil => rfl
  | cons binding rest ih =>
    cases he : options.isEnabled binding.kind with
    | true =>
      rw [List.filter_cons, if_pos he, collectBindings_enabled he, collectBindings_enabled he, ih]
    | false =>
      rw [List.filter_cons, if_neg (by simp [he]), collectBindings_disabled he, ih]

theorem collected_cons (rest : List (OutputBinding σ)) (others : List (Table Value)) :
    collected (binding :: rest) (table :: others) = outputsIn binding table ++ collected rest others :=
  rfl

theorem faults_cons (table : Table Value) (others : List (Table Value)) :
    (table :: others).filterMap (·.fault) = table.fault.toList ++ others.filterMap (·.fault) := by
  rw [List.filterMap_cons]
  cases table.fault <;> rfl

/-- Where no hint name repeats, everything is appended. -/
theorem collectBindings_distinct (henabled : ∀ binding ∈ bindings, options.isEnabled binding.kind = true)
    (before : Execution σ)
    (hpulls : Evaluation.pullAll (bindings.map (·.stage)) before.evaluation = .ok tables after)
    (hd : Distinct (before.outputs ++ collected bindings tables)) :
    collectBindings generator options bindings before =
      .ok () ⟨after, before.outputs ++ collected bindings tables,
        before.stageFaults ++ tables.filterMap (·.fault)⟩ := by
  induction bindings generalizing before tables with
  | nil =>
    cases hpulls
    rw [collected, List.zip_nil_right, List.flatMap_nil, List.filterMap_nil, List.append_nil,
      List.append_nil]
    rfl
  | cons binding rest ih =>
    rw [List.forall_mem_cons] at henabled
    obtain ⟨table, middle, others, hx, hrest, rfl⟩ := pullAll_cons hpulls
    rw [collected_cons, ← List.append_assoc] at hd ⊢
    rw [collectBindings_enabled henabled.1, faults_cons, ← List.append_assoc]
    have hone := (collectBinding_of_pull generator before hx).trans (addOutputs_distinct _ _ hd.of_append)
    exact (Act.bind_ok hone).trans (ih henabled.2 _ hrest hd)

/-- Where a hint name repeats, what comes before the first such output is appended. The stages that
come after are not pulled. -/
theorem collectBindings_firstRepeat
    (henabled : ∀ binding ∈ bindings, options.isEnabled binding.kind = true) (before : Execution σ)
    (hpulls : Evaluation.pullAll (bindings.map (·.stage)) before.evaluation = .ok tables after)
    (h : FirstRepeat before.outputs (collected bindings tables) front output) :
    ∃ last count, collectBindings generator options bindings before =
        .error (.failed (.duplicateHintName generator output.hintName)) last ∧
      last.outputs = before.outputs ++ front ∧
      last.stageFaults = before.stageFaults ++ (tables.take count).filterMap (·.fault) ∧
      Evaluation.pullAll ((bindings.map (·.stage)).take count) before.evaluation =
        .ok (tables.take count) last.evaluation := by
  induction bindings generalizing before tables front with
  | nil =>
    obtain ⟨back, hback⟩ := h.comes_next
    rw [collected, List.zip_nil_left, List.flatMap_nil] at hback
    exact absurd hback.symm (by simp)
  | cons binding rest ih =>
    rw [List.forall_mem_cons] at henabled
    obtain ⟨table, middle, others, hx, hrest, rfl⟩ := pullAll_cons hpulls
    rw [collectBindings_enabled henabled.1]
    rw [collected_cons] at h
    rcases h.append_cases with hhere | ⟨later, rfl, hlater⟩
    · have hone := (collectBinding_of_pull generator before hx).trans (addOutputs_firstRepeat _ hhere)
      refine ⟨_, 1, Act.bind_error hone, rfl, ?_, Act.bind_ok hx⟩
      rw [List.take_succ_cons, List.take_zero, faults_cons, List.filterMap_nil, List.append_nil]
    · let passed : Execution σ := ⟨middle, before.outputs ++ outputsIn binding table,
        before.stageFaults ++ table.fault.toList⟩
      have hone : collectBinding generator binding before = .ok () passed :=
        (collectBinding_of_pull generator before hx).trans
          (addOutputs_distinct _ _ hlater.distinct.of_append)
      obtain ⟨last, count, hended, houtputs, hfaults, hpulled⟩ :=
        ih henabled.2 passed hrest hlater
      refine ⟨last, count + 1, (Act.bind_ok hone).trans hended, ?_, ?_, ?_⟩
      · rw [houtputs, List.append_assoc]
      · rw [hfaults, List.take_succ_cons, faults_cons, List.append_assoc]
      · exact (Act.bind_ok hx).trans (Act.bind_ok hpulled)

end Execution

/-- Collecting the registered stages when every enabled one has a table, whatever was done before in
the execution. `found` are the live values of the unfaulted ones in the order of registration, each
stage once, as outputs of the kind of its first registration. Either no hint name repeats in the
outputs so far and `found`: then all are there afterwards, and the faults are recorded. Or the first
repeated one is refused, and the outputs found before it are there. Nothing but enabled stages is
pulled, and after a repetition no further one. -/
theorem collect_registered (generator : Generator S σ) (fresh : Nat) (ambient : Ambient σ)
    (options : DriverOptions) (briefing : Briefing S) (evaluation : Evaluation σ)
    (earlier : ExecuteProgram σ α) :
    let begun := Declaration.start fresh ambient
    let pipeline := ((generator.declare.run Declaration.answer).after begun).build generator.name
    let answer := Execution.answer pipeline options briefing
    let before := (earlier.run answer).after (.start evaluation)
    let enabled := (OutputBinding.firsts (Declaration.registrations generator.declare begun)).filter
      (options.isEnabled ·.kind)
    ∀ tables after,
      Evaluation.pullAll (enabled.map (·.stage)) before.evaluation = .ok tables after →
      let found := Execution.collected enabled tables
      (hintNames (before.outputs ++ found)).Nodup ∧
          answer .collect before = .ok (.ok ()) ⟨after, before.outputs ++ found,
            before.stageFaults ++ tables.filterMap (·.fault)⟩ ∨
        ¬ (hintNames (before.outputs ++ found)).Nodup ∧
          ∃ front output last count, FirstRepeat before.outputs found front output ∧
            answer .collect before =
              .ok (.error (.duplicateHintName briefing.generator output.hintName)) last ∧
            last.outputs = before.outputs ++ front ∧
            last.stageFaults = before.stageFaults ++ (tables.take count).filterMap (·.fault) ∧
            Evaluation.pullAll ((enabled.map (·.stage)).take count) before.evaluation =
              .ok (tables.take count) last.evaluation := by
  intro begun pipeline answer before enabled tables after hpulls found
  have houtputs : pipeline.outputs.filter (options.isEnabled ·.kind) = enabled :=
    congrArg (List.filter (options.isEnabled ·.kind))
      (Declaration.outputs_of_run generator.declare fresh ambient)
  have htidy : before.Tidy := Program.run_keeps (Execution.keeps_answer pipeline options briefing)
    earlier _ (Execution.tidy_start evaluation)
  have henabled : ∀ binding ∈ enabled, options.isEnabled binding.kind = true :=
    fun binding hm => (List.mem_filter.mp hm).2
  have hcollect : answer .collect before =
      (Execution.collectBindings briefing.generator options enabled).orError before := by
    rw [← houtputs, ← Execution.collectBindings_filter]
    rfl
  rw [hcollect]
  by_cases hd : Distinct (before.outputs ++ found)
  · exact .inl ⟨hd, Act.orError_ok (Execution.collectBindings_distinct henabled before hpulls hd)⟩
  · obtain ⟨front, output, hrepeat⟩ := GeneratedOutput.exists_firstRepeat found htidy hd
    obtain ⟨last, count, hended, hlast⟩ :=
      Execution.collectBindings_firstRepeat henabled before hpulls hrepeat
    exact .inr ⟨hd, front, output, last, count, hrepeat, Act.orError_failed hended, hlast⟩

/-! A generator whose stages are registered under both kinds, refused, and disabled. -/

namespace Registering

def listed (hintNames : List String) : Unit → Except SelectionFailure (List Value) :=
  fun _ => .ok (hintNames.map fun hintName => .output ⟨hintName, "", .implementation⟩)

def generator : Generator Unit Unit where
  identity := 0
  name := "lists"
  declare :=
    .ask (.snapshotLeaf "first" (listed ["a", "b"])) fun first =>
      .ask (.snapshotLeaf "hidden" (listed ["a"])) fun hidden =>
        .ask (.snapshotLeaf "refused" fun _ => .error (.refused "not here")) fun refused =>
          .ask (.snapshotLeaf "last" (listed ["c", "d"])) fun last =>
            .ask (.registerOutput (.leaf first) .source) fun _ =>
              .ask (.registerOutput (.leaf hidden) .implementation) fun _ =>
                .ask (.registerOutput (.leaf refused) .source) fun _ =>
                  .ask (.registerOutput (.leaf first) .implementation) fun _ =>
                    .ask (.registerOutput (.leaf last) .source) fun _ => .done ()

def ambient : Ambient Unit :=
  ⟨false, ()⟩

def briefing : Briefing Unit :=
  ⟨"lists", (), []⟩

/-- The leaves are fed and an output is added. -/
def earlier (hintName : String) : ExecuteProgram Unit Unit :=
  .ask Execution.Request.seed fun _ =>
    .ask (Execution.Request.addOutput ⟨hintName, "", .implementation⟩) fun _ => .done ()

/-- Only outputs of the kind `source` are enabled. -/
def options : DriverOptions :=
  ⟨false, [.implementation]⟩

def pipeline : Pipeline Unit Unit :=
  ((generator.declare.run Declaration.answer).after (Declaration.start 0 ambient)).build
    generator.name

def evaluation : Evaluation Unit :=
  ⟨.start .empty false, ambient⟩

/-- What was made before the outputs are collected. -/
def before (hintName : String) : Execution Unit :=
  ((earlier hintName).run (Execution.answer pipeline options briefing)).after (.start evaluation)

/-- What becomes of it when they are collected. -/
def collect (hintName : String) :=
  Execution.answer pipeline options briefing .collect (before hintName)

end Registering

open Registering in
/-- All that is found is appended, unless it repeats the output that is there. -/
theorem collect_registered_lists :
    (∃ last, collect "e" = .ok (.ok ()) last ∧
      last.outputs = [⟨"e", "", .implementation⟩, ⟨"a", "", .source⟩, ⟨"b", "", .source⟩,
        ⟨"c", "", .source⟩, ⟨"d", "", .source⟩] ∧
      last.stageFaults = [.inStage "refused" "not here"]) ∧
    ∃ last, collect "c" = .ok (.error (.duplicateHintName "lists" "c")) last ∧
      last.outputs = [⟨"c", "", .implementation⟩, ⟨"a", "", .source⟩, ⟨"b", "", .source⟩] := by
  constructor
  · rcases collect_registered generator 0 ambient options briefing evaluation (earlier "e") _ _ rfl with
      ⟨-, hx⟩ | ⟨hn, -⟩
    · exact ⟨_, hx, by decide +kernel, by decide +kernel⟩
    · exact absurd (by decide +kernel) hn
  · rcases collect_registered generator 0 ambient options briefing evaluation (earlier "c") _ _ rfl with
      ⟨hd, -⟩ | ⟨-, front, output, last, count, hrepeat, hx, houtputs, -⟩
    · exact absurd hd (by decide +kernel)
    · obtain ⟨rfl, rfl⟩ : front = [⟨"a", "", .source⟩, ⟨"b", "", .source⟩] ∧
          output = ⟨"c", "", .source⟩ :=
        FirstRepeat.unique ⟨⟨[⟨"d", "", .source⟩], by decide +kernel⟩, by decide +kernel,
          by decide +kernel⟩ hrepeat
      exact ⟨last, hx, houtputs⟩

end Regen
