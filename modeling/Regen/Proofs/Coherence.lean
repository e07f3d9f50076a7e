import Regen.Proofs.Columns
import Regen.Proofs.FreshDriver
import Regen.Proofs.Reuse

/-!
# Coherent drivers

However a driver was reached, its fields fit together. A pipeline that a generator has was declared
by this generator. While a result is there, so is the snapshot that it was made from, no edits are
pending, those to come may be applied, and the result is what the present outputs of all generators
make of the snapshot. That is why a rejected edit may leave the result alone: where edits are
pending there is none. Nothing is asked of the plug-ins but that their identities tell them apart.
-/

namespace Regen

variable {S σ : Type}

/-- The pipeline is what a run of the generator's declaration built. -/
def Pipeline.DeclaredBy (pipeline : Pipeline S σ) (generator : Generator S σ) : Prop :=
  ∃ fresh ambient ended,
    generator.declare.run Declaration.answer (.start fresh ambient) = .ok () ended ∧
      pipeline = ended.build generator.name

/-- The pipeline of the member, if it has one, is its generator's. -/
def Member.Declared (member : Member S σ) : Prop :=
  ∀ pipeline, member.state.pipeline = some pipeline → pipeline.DeclaredBy member.generator

theorem Generator.declarePipeline_declaredBy {generator : Generator S σ} {pipeline : Pipeline S σ}
    {session ended : Session σ}
    (h : generator.declarePipeline session = .ok (.ok pipeline) ended) :
    pipeline.DeclaredBy generator := by
  obtain ⟨_, _, hget, h⟩ := Act.bind_eq_ok h
  cases hget
  cases hrun : generator.declare.run Declaration.answer (.start session.fresh session.ambient) with
  | ok _ declared =>
    simp only [hrun] at h
    cases h
    exact ⟨session.fresh, session.ambient, declared, hrun, rfl⟩
  | error why declared =>
    simp only [hrun] at h
    cases h

namespace Member

variable {member made : Member S σ}

theorem declared_join (generator : Generator S σ) : (join generator).Declared := by
  intro pipeline h
  cases h

theorem Edited.declared (h : member.Edited made) (hm : member.Declared) : made.Declared := by
  obtain ⟨outputs, rfl⟩ := h
  exact hm

end Member

namespace Driver

/-- The present outputs of all generators in their order, each with the name of its generator. -/
def namedOutputs (driver : Driver S σ) : List (String × GeneratedOutput) :=
  (driver.generators.zip driver.states).flatMap fun row => row.2.outputs.map (row.1.name, ·)

/-- The snapshot is what assembling the present outputs into another snapshot gives in some
operation. -/
def Assembles (driver : Driver S σ) (snapshot assembled : Snapshot S) : Prop :=
  ∃ sink runId session ended, driver.host.assemble sink runId snapshot driver.namedOutputs
    (session : Session σ) = .ok assembled ended

/-- What fits together in a driver whose generators are all among some known ones. -/
structure Coherent (Known : Generator S σ → Prop) (driver : Driver S σ) : Prop where
  members : ∀ member ∈ driver.members, Known member.generator ∧ member.Declared
  result : ∀ assembled, driver.assembled = some assembled → ∃ snapshot,
    driver.snapshot = some snapshot ∧ driver.pendingEdits = [] ∧ driver.editsFailed = false ∧
      driver.Assembles snapshot assembled

variable {Known : Generator S σ → Prop} {driver next : Driver S σ} {snapshot assembled : Snapshot S}
  {session ended : Session σ} {runId : String} {inputs : List AdditionalInput}

theorem flatMap_namedOutputs (driver : Driver S σ) :
    driver.members.flatMap Member.namedOutputs = driver.namedOutputs := by
  rw [namedOutputs, zip_states, List.flatMap_map]
  rfl

/-- The content of what is assembled depends on the host, the snapshot and the outputs alone. -/
theorem Assembles.content_eq (h : driver.Assembles snapshot assembled) : assembled.content =
    driver.host.mergeAll snapshot.content driver.namedOutputs := by
  obtain ⟨sink, runId, session, ended, hx⟩ := h
  obtain ⟨made, last, hx', hcontent⟩ := driver.host.assemble_apply sink runId
    driver.namedOutputs snapshot session
  rw [hx] at hx'
  cases hx'
  exact hcontent

/-! The members of a pass. -/

/-- A member keeps its pipeline or gets the one that its generator declares. -/
theorem runMember_declared {content : S} {member : Member S σ} {state : GeneratorState S σ}
    (hm : member.Declared)
    (h : driver.runMember runId content inputs member session = .ok state ended) :
    Member.Declared ⟨member.generator, state⟩ := by
  obtain ⟨_, _, hr, ⟨fault, rfl, rfl⟩ | ⟨pipeline, rfl, _, _, -, hstate⟩⟩ := runMember_ok h
  · intro pipeline hp
    cases hp
  · have hdeclared : pipeline.DeclaredBy member.generator := by
      unfold pipelineOf at hr
      cases hp : member.state.pipeline with
      | some kept =>
        rw [hp] at hr
        cases hr
        exact hm _ hp
      | none =>
        rw [hp] at hr
        exact Generator.declarePipeline_declaredBy hr
    rcases hstate with ⟨execution, -, rfl⟩ | ⟨fault, -, rfl⟩ <;>
    · intro found hf
      cases hf
      exact hdeclared

namespace Coherent

theorem new (Known : Generator S σ → Prop) (host : Host S) : Coherent Known (.new host) where
  members _ hm := by cases hm
  result _ ha := by cases ha

/-- A change that gives up the result. -/
theorem clear (ha : next.assembled = none)
    (hm : ∀ member ∈ next.members, Known member.generator ∧ member.Declared) :
    Coherent Known next where
  members := hm
  result assembled h := by
    rw [ha] at h
    cases h

theorem executed (h : Coherent Known driver) (he : driver.Executed session snapshot next) :
    Coherent Known next := by
  obtain ⟨runId, inputs, members, assembled, first, second, third, fourth, -, -, hran, hbuilt, rfl⟩ :=
    he
  have hmembers := runMembers_forall (Q := fun member => Known member.generator ∧ member.Declared)
    (fun hmember hm => ⟨hm.1, runMember_declared hm.2 hmember⟩) _ _ h.members hran
  refine ⟨hmembers, fun made hmade => ?_⟩
  cases hmade
  refine ⟨snapshot, rfl, rfl, rfl, driver.sink, runId, third, fourth, ?_⟩
  rw [← flatMap_namedOutputs]
  exact hbuilt

theorem applied (h : Coherent Known driver) (ha : driver.Applied snapshot next) :
    Coherent Known next := by
  obtain ⟨hvalid, runId, inputs, members, assembled, first, second, third, hmembers, -, hbuilt, rfl⟩ :=
    ha
  refine ⟨Edit.forall_of_edited ?_ (Edit.applyAll_edited _ _ _ hmembers) h.members, ?_⟩
  · rintro member made hedited ⟨hknown, hdeclared⟩
    refine ⟨?_, hedited.declared hdeclared⟩
    obtain ⟨outputs, rfl⟩ := hedited
    exact hknown
  · intro made hmade
    cases hmade
    refine ⟨snapshot, rfl, rfl, hvalid, driver.sink, runId, second, third, ?_⟩
    rw [← flatMap_namedOutputs]
    exact hbuilt

/-- Where edits are pending there is no result, so that ruling the edits out contradicts none. -/
theorem reject (h : Coherent Known driver) (hqueue : driver.pendingEdits ≠ []) :
    Coherent Known { driver with editsFailed := true } where
  members := h.members
  result assembled ha := by
    obtain ⟨_, -, hempty, -⟩ := h.result assembled ha
    exact absurd hempty hqueue

/-- A generator that stays or joins: its identity tells it. -/
theorem keepOrJoin (h : Coherent Known driver)
    (hid : ∀ {generator other}, Known generator → Known other →
      generator.identity = other.identity → generator = other)
    {generator : Generator S σ} (hg : Known generator) :
    Known (driver.keepOrJoin generator).generator ∧ (driver.keepOrJoin generator).Declared := by
  rcases driver.keepOrJoin_cases generator with ⟨member, hmem, hsame, heq⟩ | heq <;> rw [heq]
  · obtain ⟨hknown, hdeclared⟩ := h.members member hmem
    obtain rfl := hid hknown hg hsame
    exact ⟨hknown, hdeclared⟩
  · exact ⟨hg, Member.declared_join generator⟩

/-- Every operation keeps a driver coherent. -/
theorem perform (h : Coherent Known driver)
    (hid : ∀ {generator other}, Known generator → Known other →
      generator.identity = other.identity → generator = other)
    (op : DriverOp S σ) (hop : ∀ generator ∈ op.generators, Known generator) :
    Coherent Known (op.perform driver) := by
  cases op with
  | withSink sink => exact ⟨h.members, h.result⟩
  | addGenerators generators =>
    refine clear rfl fun member hm => ?_
    rcases List.mem_append.mp hm with hm | hm
    · exact h.members member hm
    · obtain ⟨generator, hg, rfl⟩ := List.mem_map.mp hm
      exact ⟨hop generator hg, Member.declared_join generator⟩
  | removeGenerators generators =>
    exact clear rfl fun member hm => h.members member (List.mem_of_mem_filter hm)
  | replaceGenerators generators =>
    refine clear rfl fun member hm => ?_
    obtain ⟨generator, hg, rfl⟩ := List.mem_map.mp hm
    exact h.keepOrJoin hid (hop generator hg)
  | addInputs inputs => exact clear rfl h.members
  | removeInputs inputs => exact clear rfl h.members
  | replaceInput old new =>
    change Coherent Known (driver.replaceInput old new)
    unfold Driver.replaceInput
    split
    · exact clear rfl h.members
    · exact h
  | queueEdits edits => exact clear rfl h.members
  | withOptions options => exact clear rfl h.members
  | fullPass session snapshot =>
    rcases driver.perform_fullPass session snapshot with hsame | he
    · rwa [hsame]
    · exact h.executed he
  | tryApplyEdits session snapshot =>
    rcases driver.perform_tryApplyEdits session snapshot with hsame | ⟨hqueue, hrejected⟩ | ha
    · rwa [hsame]
    · rw [hrejected]
      exact h.reject hqueue
    · exact h.applied ha

/-- Every history of generators that their identities tell apart leads to a coherent driver. -/
theorem reached (host : Host S) (ops : List (DriverOp S σ))
    (hid : ∀ generator ∈ ops.flatMap DriverOp.generators,
      ∀ other ∈ ops.flatMap DriverOp.generators,
        generator.identity = other.identity → generator = other) :
    Coherent (· ∈ ops.flatMap DriverOp.generators) (Driver.reached host ops) :=
  Driver.reached_induction host ops (.new _ host) fun op hop _ h =>
    h.perform (fun hg ho => hid _ hg _ ho) op fun _ hg => List.mem_flatMap.mpr ⟨op, hop, hg⟩

end Coherent

/-- A full pass that returns leaves a result over the snapshot, and nothing to apply. -/
theorem Coherent.fullPass_ok (h : Coherent Known driver)
    (hx : driver.fullPass snapshot session = .ok next ended) : ∃ taken assembled,
      next.snapshot = some taken ∧ taken.identity = snapshot.identity ∧
      next.assembled = some assembled ∧ next.pendingEdits = [] ∧ next.editsValid = true := by
  rcases Driver.fullPass_ok hx with ⟨hup, rfl⟩ | ⟨-, he⟩
  · obtain ⟨last, hlast, hsome, hid⟩ := isUpToDate_iff.mp hup
    obtain ⟨assembled, hassembled⟩ := Option.isSome_iff_exists.mp hsome
    obtain ⟨_, -, hqueue, hvalid, -⟩ := h.result assembled hassembled
    exact ⟨last, assembled, hlast, hid, hassembled, hqueue, by rw [editsValid, hvalid]; rfl⟩
  · obtain ⟨_, inputs, members, assembled, _, _, _, _, -, -, -, -, rfl⟩ := he
    exact ⟨snapshot, assembled, rfl, rfl, rfl, rfl, rfl⟩

end Driver

/-- Every driver that a history reaches is coherent: the lists of generators and of their states are
equally long, and they are the lists that the same history leads to when it is performed on two lists;
a pipeline at a position was declared by the generator there; a result that is there is what
assembling the present outputs of all generators into the present snapshot gives, with no edits
pending and edits allowed. So every full pass that returns, whether its result is reused or not, leaves
a result over its snapshot, an empty queue and edits allowed. -/
theorem reached_coherent (host : Host S) (ops : List (DriverOp S σ))
    (hid : ∀ generator ∈ ops.flatMap DriverOp.generators,
      ∀ other ∈ ops.flatMap DriverOp.generators,
        generator.identity = other.identity → generator = other) :
    let driver := Driver.reached host ops
    driver.generators.length = driver.states.length ∧
    driver.columns = Columns.reached host ops ∧
    (∀ (i : Nat) generator state pipeline, driver.generators[i]? = some generator →
      driver.states[i]? = some state → state.pipeline = some pipeline →
      pipeline.DeclaredBy generator) ∧
    (∀ assembled, driver.assembled = some assembled → ∃ snapshot,
      driver.snapshot = some snapshot ∧ driver.pendingEdits = [] ∧ driver.editsValid = true ∧
      driver.Assembles snapshot assembled ∧
      assembled.content = driver.host.mergeAll snapshot.content driver.namedOutputs) ∧
    ∀ snapshot session next ended, driver.fullPass snapshot session = .ok next ended →
      ∃ taken assembled, next.snapshot = some taken ∧ taken.identity = snapshot.identity ∧
        next.assembled = some assembled ∧ next.pendingEdits = [] ∧ next.editsValid = true := by
  intro driver
  have hcoherent := Driver.Coherent.reached host ops hid
  have hcolumns := Driver.columns_reached host ops
  have haligned : driver.columns.Aligned := hcolumns ▸ Columns.reached_aligned host ops
  refine ⟨haligned, hcolumns, ?_, ?_, fun snapshot session next ended hx => hcoherent.fullPass_ok hx⟩
  · intro i generator state pipeline hg hs hp
    rw [Driver.generators, List.getElem?_map] at hg
    rw [Driver.states, List.getElem?_map] at hs
    obtain ⟨member, hm, rfl⟩ := Option.map_eq_some_iff.mp hg
    rw [hm, Option.map_some] at hs
    cases hs
    exact (hcoherent.members member (List.mem_of_getElem? hm)).2 pipeline hp
  · intro assembled ha
    obtain ⟨snapshot, hs, hqueue, hvalid, hassembles⟩ := hcoherent.result assembled ha
    exact ⟨snapshot, hs, hqueue, by rw [Driver.editsValid, hvalid]; rfl, hassembles,
      hassembles.content_eq⟩

open Copying in
/-- After a pass over one snapshot and an edit over another one, the generator has the pipeline that
it declared, and a further pass leaves a result over the other snapshot. -/
theorem reached_coherent_moved : ∃ state pipeline next ended taken assembled,
    (Driver.reached host moved).states[0]? = some state ∧ state.pipeline = some pipeline ∧
    pipeline.DeclaredBy copier ∧
    (Driver.reached host moved).fullPass second session = .ok next ended ∧
    next.snapshot = some taken ∧ taken.identity = 2 ∧ next.assembled = some assembled ∧
    next.pendingEdits = [] ∧ next.editsValid = true := by
  have hid : ∀ generator ∈ moved.flatMap DriverOp.generators,
      ∀ other ∈ moved.flatMap DriverOp.generators,
        generator.identity = other.identity → generator = other := by
    intro generator hg other ho _
    exact (List.mem_singleton.mp hg).trans (List.mem_singleton.mp ho).symm
  obtain ⟨-, -, hdeclared, -, hpass⟩ := reached_coherent host moved hid
  obtain ⟨_, hx⟩ := Driver.fullPass_reused
    (show (Driver.reached host moved).isUpToDate second = true from rfl) session
  obtain ⟨taken, assembled, hsnapshot, hsame, hassembled, hqueue, hvalid⟩ := hpass _ _ _ _ hx
  exact ⟨_, _, _, _, taken, assembled, rfl, rfl, hdeclared 0 _ _ _ rfl rfl rfl, hx, hsnapshot, hsame,
    hassembled, hqueue, hvalid⟩

end Regen
