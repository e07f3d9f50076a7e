import Regen.Proofs.Mirror

/-!
# Edits applied without a pass

Applying edits to the outputs of a mirror makes what a full pass makes of the committed inputs. On
the one side outputs are replaced, on the other one inputs are put at their places and the stage is
evaluated again; replacing the output of an input mirrors putting the input at its place. In the
history before, other plug-ins may do anything.
-/

namespace Regen

variable {S σ : Type}

open GeneratedOutput (Distinct)

namespace Edit

/-- Put inputs at their places one after the other. -/
def upsertInputs (queue inputs : List AdditionalInput) : List AdditionalInput :=
  queue.foldl (fun held input => upsertInput input held) inputs

/-- Edits that add inputs commit them in order. -/
theorem commitAll_inputAdded (typeName : String) (queue inputs : List AdditionalInput) :
    commitAll (queue.map (inputAdded typeName) : List (Edit σ)) inputs =
      .ok (upsertInputs queue inputs) := by
  induction queue generalizing inputs with
  | nil => rfl
  | cons input rest ih => exact ih (upsertInput input inputs)

variable {shape : PipelineShape σ} {handler : EditHandler σ}

/-- A pipeline with a handler of added inputs accepts an edit that adds one. -/
theorem inputAdded_accepted (h : shape.handler? inputAddedKind = some handler) (typeName : String)
    (input : AdditionalInput) : (inputAdded typeName input).acceptedBy shape = .ok true := by
  unfold inputAdded PipelineShape.handles
  dsimp only
  rw [h]
  rfl

/-- The edit is handed to the handler, which expects it. -/
theorem inputAdded_apply (h : shape.handler? inputAddedKind = some handler)
    (input : AdditionalInput) (context : EditContext) :
    (inputAdded handler.accepts input).apply shape context =
      handler.handle (.input input) context := by
  unfold inputAdded
  dsimp only
  rw [h]
  dsimp only
  rw [if_pos (beq_self_eq_true _)]

end Edit

/-- Queued edits that all generators take are applied. -/
theorem Driver.tryApplyEdits_applied {driver : Driver S σ} {session middle : Session σ}
    {members : List (Member S σ)} {inputs : List AdditionalInput} (snapshot : Snapshot S)
    (hqueue : driver.pendingEdits ≠ []) (hvalid : driver.editsFailed = false)
    (hmembers : Edit.applyAll driver.additionalInputs driver.pendingEdits driver.members
      { session with fresh := session.fresh + 1 } = .ok (.ok members) middle)
    (hinputs : Edit.commitAll driver.pendingEdits driver.additionalInputs = .ok inputs) :
    ∃ assembled ended, driver.tryApplyEdits snapshot session = .ok ⟨
        { driver with
          members
          additionalInputs := inputs
          pendingEdits := []
          snapshot := some snapshot
          assembled := some assembled }, .ok assembled⟩ ended ∧
      assembled.content =
        driver.host.mergeAll snapshot.content (members.flatMap Member.namedOutputs) := by
  have hcommitted := Act.ofPanic_ok hinputs middle
  rw [tryApplyEdits_eq_applyQueue hqueue hvalid]
  obtain ⟨assembled, built, hbuilt, hcontent⟩ := driver.host.assemble_apply driver.sink
    ("run-" ++ toString session.fresh) (members.flatMap Member.namedOutputs) snapshot middle
  obtain ⟨events, hemit⟩ := Session.emit_apply driver.sink
    (.editsApplied ("run-" ++ toString session.fresh) driver.pendingEdits.length) built
  exact ⟨assembled, { built with events }, (Act.bind_ok hmembers).trans
    ((Act.bind_ok hcommitted).trans ((Act.bind_ok hbuilt).trans (Act.bind_ok hemit))), hcontent⟩

namespace Mirror

variable (mirror : Mirror S σ)

/-- The edit that adds an input. -/
def edit (input : AdditionalInput) : Edit σ :=
  Edit.inputAdded mirror.handler.accepts input

/-- Replacing the output of an input mirrors putting the input at its place. -/
theorem replaceIn_output (input : AdditionalInput) (inputs : List AdditionalInput) :
    (mirror.output input).replaceIn (inputs.map mirror.output) =
      (Edit.upsertInput input inputs).map mirror.output := by
  induction inputs with
  | nil => rfl
  | cons other rest ih =>
    have hname : ∀ input, (mirror.output input).hintName = input.path := fun _ => rfl
    rw [List.map_cons, GeneratedOutput.replaceIn, Edit.upsertInput, hname, hname]
    cases other.path == input.path with
    | true => rfl
    | false => exact congrArg (mirror.output other :: ·) ih

/-- Inputs that are put at their places keep the paths different. -/
theorem distinct_upsertInputs (queue : List AdditionalInput) {inputs : List AdditionalInput}
    (h : Distinct (inputs.map mirror.output)) :
    Distinct ((Edit.upsertInputs queue inputs).map mirror.output) := by
  induction queue generalizing inputs with
  | nil => exact h
  | cons input rest ih =>
    have hnext : Distinct ((Edit.upsertInput input inputs).map mirror.output) := by
      rw [← replaceIn_output]
      exact h.replaceIn _
    exact ih hnext

/-- A member of the mirror that takes edits and has the outputs of some inputs. -/
structure Shows (inputs : List AdditionalInput) (member : Member S σ) : Prop where
  generator_eq : member.generator = mirror.generator
  takes : ∃ pipeline, member.state.pipeline = some pipeline ∧
    pipeline.shape.handler? Edit.inputAddedKind = some mirror.handler
  outputs_eq : member.state.outputs = inputs.map mirror.output

variable {mirror}
variable {inputs : List AdditionalInput} {member : Member S σ}

/-- An edit makes the outputs of the inputs with the added one at its place. -/
theorem Shows.applyToMember (h : mirror.Shows inputs member) (held : List AdditionalInput)
    (input : AdditionalInput) (session : Session σ) : ∃ made,
      (mirror.edit input).applyToMember held member session = .ok (.ok made) session ∧
        mirror.Shows (Edit.upsertInput input inputs) made := by
  obtain ⟨pipeline, hp, hhandler⟩ := h.takes
  let context : EditContext := ⟨member.generator.name, Edit.inputAddedKind, held⟩
  have haccepted : (mirror.edit input).acceptedBy pipeline.shape = .ok true :=
    Edit.inputAdded_accepted hhandler mirror.handler.accepts input
  have hprogram : (mirror.edit input).apply pipeline.shape context =
      .ask (Editing.Request.replaceOutput (mirror.output input)) fun _ => .done () :=
    (Edit.inputAdded_apply hhandler input context).trans (mirror.handle_input input context)
  have happlied : (mirror.edit input).applyTo pipeline.shape context member.state.outputs session =
      .ok (.ok ((Edit.upsertInput input inputs).map mirror.output)) session := by
    rw [← replaceIn_output, ← h.outputs_eq]
    unfold Edit.applyTo
    rw [hprogram]
    rfl
  exact ⟨_, Edit.applyToMember_accepted hp haccepted happlied,
    ⟨h.generator_eq, ⟨pipeline, hp, hhandler⟩, rfl⟩⟩

/-- The edits of a queue, applied in order, make the outputs of the inputs that they commit. -/
theorem Shows.applyAll (h : mirror.Shows inputs member) (held queue : List AdditionalInput)
    (session : Session σ) : ∃ made,
      Edit.applyAll held (queue.map mirror.edit) [member] session = .ok (.ok [made]) session ∧
        mirror.Shows (Edit.upsertInputs queue inputs) made := by
  induction queue generalizing member inputs with
  | nil => exact ⟨member, rfl, h⟩
  | cons input rest ih =>
    obtain ⟨edited, hedited, hshows⟩ := h.applyToMember held input session
    obtain ⟨made, hmade, hlast⟩ := ih hshows
    have hmembers : (mirror.edit input).applyToMembers held [member] session =
        .ok (.ok [edited]) session := (Act.bind_ok hedited).trans rfl
    exact ⟨made, (Act.bind_ok hmembers).trans hmade, hlast⟩

/-- A driver holds what a mirror that is alone makes of some inputs, merged into a snapshot. -/
structure Holds (mirror : Mirror S σ) (host : Host S) (content : S) (inputs : List AdditionalInput)
    (driver : Driver S σ) : Prop where
  additionalInputs_eq : driver.additionalInputs = inputs
  outputs_eq : driver.outputs = inputs.map mirror.output
  assembled : ∃ whole, driver.assembled = some whole ∧ whole.content =
    host.mergeAll content ((inputs.map mirror.output).map (mirror.generator.name, ·))

theorem outputs_of_alone {driver : Driver S σ} (h : driver.members = [member]) :
    driver.outputs = member.state.outputs := by
  rw [Driver.outputs, Driver.runResults, h]
  exact List.append_nil _

theorem namedOutputs_of_alone (member : Member S σ) : [member].flatMap Member.namedOutputs =
    member.state.outputs.map (member.generator.name, ·) :=
  List.append_nil _

/-- A mirror that is alone and shows the inputs takes the edits that add inputs. -/
theorem Shows.tryApplyEdits {driver : Driver S σ} (h : mirror.Shows driver.additionalInputs member)
    (halone : driver.members = [member]) (hvalid : driver.editsFailed = false)
    {queue : List AdditionalInput} (hpending : driver.pendingEdits = queue.map mirror.edit)
    (hqueue : queue ≠ []) (snapshot : Snapshot S) (session : Session σ) :
    ∃ applied assembled ended,
      driver.tryApplyEdits snapshot session = .ok ⟨applied, .ok assembled⟩ ended ∧
      applied.assembled = some assembled ∧ mirror.Holds driver.host snapshot.content
        (Edit.upsertInputs queue driver.additionalInputs) applied := by
  obtain ⟨made, hmade, hshows⟩ := h.applyAll driver.additionalInputs queue
    { session with fresh := session.fresh + 1 }
  rw [← halone, ← hpending] at hmade
  have hcommit : Edit.commitAll driver.pendingEdits driver.additionalInputs =
      .ok (Edit.upsertInputs queue driver.additionalInputs) := by
    rw [hpending]
    exact Edit.commitAll_inputAdded _ queue driver.additionalInputs
  have hsome : driver.pendingEdits ≠ [] := by simpa [hpending] using hqueue
  obtain ⟨assembled, ended, hx, hcontent⟩ :=
    Driver.tryApplyEdits_applied snapshot hsome hvalid hmade hcommit
  refine ⟨_, assembled, ended, hx, rfl, rfl, ?_, assembled, rfl, ?_⟩
  · exact (outputs_of_alone rfl).trans hshows.outputs_eq
  · rw [hcontent, namedOutputs_of_alone, hshows.outputs_eq, hshows.generator_eq]

/-- What a full pass makes of a mirror that is alone. -/
theorem members_of_made {sample : Ambient σ} {host : Host S} {driver next : Driver S σ}
    {snapshot : Snapshot S} (h : Driver.Made mirror.plugins sample host driver snapshot next)
    (halone : next.generators = [mirror.generator])
    (hsource : next.options.isEnabled .source = true)
    (hdistinct : Distinct (next.additionalInputs.map mirror.output)) :
    ∃ state, next.members = [⟨mirror.generator, state⟩] ∧
      state.outputs = next.additionalInputs.map mirror.output ∧ state.error = none := by
  have hreports := h.reports_eq
  rw [halone, List.map_singleton, mirror.report_generator sample hsource _ hdistinct,
    Driver.reports] at hreports
  obtain ⟨⟨generator, state⟩, hmembers, hreport⟩ := List.map_eq_singleton_iff.mp hreports
  obtain ⟨rfl, hreport⟩ := Prod.mk.inj hreport
  exact ⟨state, hmembers, congrArg Report.outputs hreport, congrArg Report.error hreport⟩

/-- A full pass commits the edits that add inputs and evaluates the stage over all inputs. -/
theorem fullPass_holds {sample : Ambient σ} {host : Host S} {driver : Driver S σ}
    (h : driver.Settled mirror.plugins sample host)
    (halone : driver.generators = [mirror.generator])
    (hsource : driver.options.isEnabled .source = true)
    (hdistinct : Distinct (driver.additionalInputs.map mirror.output))
    {queue : List AdditionalInput} (hpending : driver.pendingEdits = queue.map mirror.edit)
    {snapshot : Snapshot S} (hneeded : driver.isUpToDate snapshot = false)
    {session : Session σ} (hc : session.ambient.cancelled = false) :
    ∃ next ended, driver.fullPass snapshot session = .ok next ended ∧
      mirror.Holds host snapshot.content (Edit.upsertInputs queue driver.additionalInputs) next := by
  have hcommit : Edit.commitAll driver.pendingEdits driver.additionalInputs =
      .ok (Edit.upsertInputs queue driver.additionalInputs) := by
    rw [hpending]
    exact Edit.commitAll_inputAdded _ queue driver.additionalInputs
  obtain ⟨next, ended, hx⟩ := h.fullPass_returns snapshot session hneeded hcommit hc
  rcases Driver.fullPass_ok hx with ⟨hup, -⟩ | ⟨-, he⟩
  · rw [hneeded] at hup
    cases hup
  have hmade := h.executed he
  have hinputs : next.additionalInputs = Edit.upsertInputs queue driver.additionalInputs :=
    Except.ok.inj (hmade.inputs.symm.trans hcommit)
  have hnext : Distinct (next.additionalInputs.map mirror.output) := by
    rw [hinputs]
    exact mirror.distinct_upsertInputs queue hdistinct
  obtain ⟨state, hmembers, houtputs, -⟩ := members_of_made hmade
    (hmade.generators_eq.trans halone) (by rw [hmade.options_eq, hsource]) hnext
  obtain ⟨whole, hwhole, hcontent⟩ := hmade.assembled
  rw [← Driver.namedOutputs_eq, hmembers, namedOutputs_of_alone, houtputs, hinputs] at hcontent
  refine ⟨next, ended, hx, hinputs, ?_, whole, hwhole, hcontent⟩
  rw [outputs_of_alone hmembers, houtputs, hinputs]

/-- The member of a mirror that is alone in a driver that a full pass returned. -/
theorem shows_of_executed (mirror : Mirror S σ) (host : Host S) (ops : List (DriverOp S σ))
    (hid : ∀ generator ∈ ops.flatMap DriverOp.generators,
      ∀ other ∈ ops.flatMap DriverOp.generators,
        generator.identity = other.identity → generator = other)
    {snapshot : Snapshot S} {session : Session σ} {driver : Driver S σ}
    (he : (Driver.reached host ops).Executed session snapshot driver)
    (halone : driver.generators = [mirror.generator])
    (hsource : driver.options.isEnabled .source = true)
    (hdistinct : Distinct (driver.additionalInputs.map mirror.output)) :
    driver.Settled mirror.plugins session.ambient driver.host ∧
      ∃ member, driver.members = [member] ∧ mirror.Shows driver.additionalInputs member := by
  have hcoherent := Driver.Coherent.reached host ops hid
  have hmembers := (mirror.plugins.memberInvariant session.ambient
    fun hg ho => hid _ hg _ ho).reached host ops fun op hop generator hg =>
      List.mem_flatMap.mpr ⟨op, hop, hg⟩
  generalize Driver.reached host ops = before at he hcoherent hmembers
  have hbefore : before.generators = [mirror.generator] := he.generators_eq.symm.trans halone
  have hsettled : before.Settled mirror.plugins session.ambient before.host := by
    refine ⟨fun member hm => ?_, rfl⟩
    have hg : member.generator ∈ before.generators := List.mem_map_of_mem hm
    rw [hbefore, List.mem_singleton] at hg
    exact ⟨hg, (hmembers member hm).2 hg⟩
  have hmade := hsettled.executed he
  obtain ⟨state, hstate, houtputs, herror⟩ := members_of_made hmade halone hsource hdistinct
  have hmem : ⟨mirror.generator, state⟩ ∈ driver.members := by
    rw [hstate]
    exact List.mem_singleton_self _
  obtain ⟨pipeline, hpipeline⟩ :=
    Option.isSome_iff_exists.mp (he.pipeline_isSome _ hmem herror)
  have hdeclared := ((hcoherent.executed he).members _ hmem).2 pipeline hpipeline
  refine ⟨⟨hmade.settled.members, rfl⟩, _, hstate, rfl, ⟨pipeline, hpipeline, ?_⟩, houtputs⟩
  exact mirror.handles hdeclared

end Mirror

/-- Edits applied without a pass make what a full pass makes. Take a driver that a full pass returned,
whatever was done to it before, that has a mirror alone, and whose additional inputs have different
paths; and queue edits that add inputs, of new paths or of those that are there, also several of one
path. Applying them over the snapshot of that pass succeeds, and leaves the outputs in their order,
the additional inputs and the content of the assembled snapshot that a full pass over it makes. -/
theorem appliedEdits_eq_fullPass (mirror : Mirror S σ) (host : Host S) (ops : List (DriverOp S σ))
    (hid : ∀ generator ∈ ops.flatMap DriverOp.generators,
      ∀ other ∈ ops.flatMap DriverOp.generators,
        generator.identity = other.identity → generator = other)
    {snapshot : Snapshot S} {session ended : Session σ} {driver : Driver S σ}
    (hneeded : (Driver.reached host ops).isUpToDate snapshot = false)
    (hpass : (Driver.reached host ops).fullPass snapshot session = .ok driver ended)
    (halone : driver.generators = [mirror.generator])
    (hsource : driver.options.isEnabled .source = true)
    (hpaths : (driver.additionalInputs.map (·.path)).Nodup)
    {queue : List AdditionalInput} (hqueue : queue ≠ [])
    (first second : Session σ) (hsecond : second.ambient.cancelled = false) :
    let queued := driver.queueEdits (queue.map mirror.edit)
    ∃ applied assembled last next whole last',
      queued.tryApplyEdits snapshot first = .ok ⟨applied, .ok assembled⟩ last ∧
      queued.fullPass snapshot second = .ok next last' ∧
      applied.outputs = next.outputs ∧ applied.additionalInputs = next.additionalInputs ∧
      next.outputs = (Edit.upsertInputs queue driver.additionalInputs).map mirror.output ∧
      applied.assembled = some assembled ∧ next.assembled = some whole ∧
      assembled.content = whole.content := by
  intro queued
  have hdistinct : Distinct (driver.additionalInputs.map mirror.output) := by
    rw [Distinct, mirror.hintNames_output]
    exact hpaths
  rcases Driver.fullPass_ok hpass with ⟨hup, -⟩ | ⟨-, he⟩
  · rw [hneeded] at hup
    cases hup
  obtain ⟨hsettled, member, hmembers, hshows⟩ :=
    mirror.shows_of_executed host ops hid he halone hsource hdistinct
  obtain ⟨hempty, hvalid⟩ := he.allows_edits
  have hpending : queued.pendingEdits = queue.map mirror.edit := by
    change driver.pendingEdits ++ queue.map mirror.edit = _
    rw [hempty, List.nil_append]
  have hshown : mirror.Shows queued.additionalInputs member := hshows
  obtain ⟨applied, assembled, last, happlied, hassembled, hheld⟩ :=
    hshown.tryApplyEdits hmembers hvalid hpending hqueue snapshot first
  have hneeded' : queued.isUpToDate snapshot = false := Driver.isUpToDate_of_cleared rfl snapshot
  have hqueued : queued.Settled mirror.plugins session.ambient queued.host :=
    ⟨hsettled.members, rfl⟩
  obtain ⟨next, last', hnext, hmade⟩ :=
    Mirror.fullPass_holds hqueued halone hsource hdistinct hpending hneeded' hsecond
  obtain ⟨whole, hwhole, hcontent⟩ := hmade.assembled
  obtain ⟨whole', hwhole', hcontent'⟩ := hheld.assembled
  obtain rfl := Option.some.inj (hassembled.symm.trans hwhole')
  exact ⟨applied, assembled, last, next, whole, last', happlied, hnext,
    hheld.outputs_eq.trans hmade.outputs_eq.symm,
    hheld.additionalInputs_eq.trans hmade.additionalInputs_eq.symm, hmade.outputs_eq, hassembled,
    hwhole, hcontent'.trans hcontent.symm⟩

/-! A mirror that makes headings, beside a plug-in that makes nothing, for a while. -/

namespace Headings

def mirror : Mirror String Unit :=
  .rendering 0 "headings" fun text => "# " ++ text

def idle : Generator String Unit where
  identity := 1
  name := "idle"
  declare := .done ()

def host : Host String where
  materialize generator output := .ok ⟨generator, output.hintName, .null⟩
  merge content artifact := .ok (content ++ artifact.hintName)

def session : Session Unit :=
  ⟨⟨false, ()⟩, 0, []⟩

def snapshot : Snapshot String := ⟨1, "s"⟩

/-- A pass that fails over two inputs of one path; then one of them goes, and the other plug-in. -/
def history : List (DriverOp String Unit) :=
  [.addGenerators [mirror.generator, idle], .addInputs [⟨"a", "1"⟩, ⟨"a", "2"⟩],
    .fullPass session snapshot, .removeInputs [⟨"a", "2"⟩], .removeGenerators [idle],
    .addInputs [⟨"b", "3"⟩]]

/-- One path that is there, a new one, and the first one again. -/
def queue : List AdditionalInput :=
  [⟨"b", "4"⟩, ⟨"c", "5"⟩, ⟨"b", "6"⟩]

end Headings

open Headings in
/-- After the pass that follows, the queued edits are applied as a full pass commits them. -/
theorem appliedEdits_eq_fullPass_headings :
    ∃ driver ended applied assembled last next whole last',
      (Driver.reached host history).fullPass snapshot session = .ok driver ended ∧
      (driver.queueEdits (queue.map mirror.edit)).tryApplyEdits snapshot session =
        .ok ⟨applied, .ok assembled⟩ last ∧
      (driver.queueEdits (queue.map mirror.edit)).fullPass snapshot session = .ok next last' ∧
      applied.outputs = next.outputs ∧ applied.additionalInputs = next.additionalInputs ∧
      next.outputs = [⟨"a", "# 1", .source⟩, ⟨"b", "# 6", .source⟩, ⟨"c", "# 5", .source⟩] ∧
      applied.assembled = some assembled ∧ next.assembled = some whole ∧
      assembled.content = whole.content := by
  have hknown : history.flatMap DriverOp.generators = [mirror.generator, idle] := rfl
  have hid : ∀ generator ∈ history.flatMap DriverOp.generators,
      ∀ other ∈ history.flatMap DriverOp.generators,
        generator.identity = other.identity → generator = other := by
    rw [hknown]
    intro generator hg other ho hsame
    rw [List.mem_pair] at hg ho
    rcases hg with rfl | rfl <;> rcases ho with rfl | rfl <;> first | rfl | cases hsame
  have hneeded := Driver.isUpToDate_of_cleared
    (show (Driver.reached host history).assembled = none from rfl) snapshot
  have hmade : (match (Driver.reached host history).fullPass snapshot session with
      | .ok driver _ => (driver.generators.map (·.identity), driver.options.isEnabled .source,
          driver.additionalInputs)
      | .error _ _ => ([], false, [])) = ([0], true, [⟨"a", "1"⟩, ⟨"b", "3"⟩]) := by
    decide +kernel
  cases hpass : (Driver.reached host history).fullPass snapshot session with
  | error why ended =>
    rw [hpass] at hmade
    cases hmade
  | ok driver ended =>
    rw [hpass] at hmade
    obtain ⟨hidentities, hmade⟩ := Prod.mk.inj hmade
    obtain ⟨hsource, hinputs⟩ := Prod.mk.inj hmade
    obtain ⟨generator, halone, hidentity⟩ := List.map_eq_singleton_iff.mp hidentities
    have hgenerator : generator = mirror.generator := by
      have he := (Driver.fullPass_ok hpass).resolve_left fun h => by rw [hneeded] at h; cases h.1
      have hmem : generator ∈ (Driver.reached host history).generators := by
        rw [← he.2.generators_eq, halone]
        exact List.mem_singleton_self generator
      obtain ⟨member, hmember, rfl⟩ := List.mem_map.mp hmem
      have hg := ((Driver.Coherent.reached host history hid).members member hmember).1
      rw [hknown, List.mem_pair] at hg
      refine hg.resolve_right fun hidle => ?_
      rw [hidle] at hidentity
      cases hidentity
    obtain ⟨applied, assembled, last, next, whole, last', happlied, hnext, houtputs, hsame, hall,
        hcontent⟩ :=
      appliedEdits_eq_fullPass mirror host history hid hneeded hpass (hgenerator ▸ halone) hsource
        (by rw [hinputs]; decide) (List.cons_ne_nil _ _) session session rfl
    refine ⟨driver, ended, applied, assembled, last, next, whole, last', rfl, happlied, hnext,
      houtputs, hsame, hall.trans ?_, hcontent⟩
    rw [hinputs]
    decide +kernel

end Regen
