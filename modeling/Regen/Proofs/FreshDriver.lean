import Regen.Proofs.MemberPass
import Regen.Proofs.PassChain

/-!
# A driver with a history and a fresh one

Whatever was done to a driver, its members stay settled: mutations of generators, inputs, options and
edits, passes that were asked to stop, passes in which generators failed. So a full pass that runs
the generators makes what it makes of a fresh driver. A result that is reused is left out. The pipelines
of the plug-ins need not tell apart what `==` takes for equal; a plug-in that does may keep what it made
of an equal value.
-/

namespace Regen

variable {S σ : Type}

/-- The generators that an operation brings in. -/
def DriverOp.generators : DriverOp S σ → List (Generator S σ)
  | .addGenerators generators => generators
  | .replaceGenerators generators => generators
  | _ => []

namespace Driver

/-- What each generator made, in order. -/
def reports (driver : Driver S σ) : List (Generator S σ × Report) :=
  driver.members.map fun member => (member.generator, member.state.report)

/-- The driver that has done nothing yet, with the generators, the additional inputs and the options
of another one. -/
def fresh (host : Host S) (driver : Driver S σ) : Driver S σ :=
  (((Driver.new host).addGenerators driver.generators).addInputs driver.additionalInputs).withOptions
    driver.options

/-- The members of the driver are plug-ins that are settled. -/
structure Settled (plugins : PlugIns S σ) (sample : Ambient σ) (host : Host S)
    (driver : Driver S σ) : Prop where
  members : ∀ member ∈ driver.members,
    plugins.Has member.generator ∧ plugins.Settled sample member
  host_eq : driver.host = host

variable {plugins : PlugIns S σ} {sample : Ambient σ} {host : Host S} {driver next : Driver S σ}
  {snapshot : Snapshot S} {session ended : Session σ}

/-- The generators with their outputs under their names. -/
theorem namedOutputs_eq (driver : Driver S σ) : driver.members.flatMap Member.namedOutputs =
    driver.reports.flatMap fun made => made.2.outputs.map (made.1.name, ·) := by
  rw [reports, List.flatMap_map]
  rfl

theorem generators_eq (driver : Driver S σ) : driver.generators = driver.reports.map (·.1) := by
  rw [reports, List.map_map]
  rfl

theorem settled_new (host : Host S) : (Driver.new host : Driver S σ).Settled plugins sample host where
  members _ hm := by cases hm
  host_eq := rfl

/-- A generator that stays keeps a settled state: its identity tells it. -/
theorem Settled.keepOrJoin (h : driver.Settled plugins sample host) {generator : Generator S σ}
    (hg : plugins.Has generator) : plugins.Has (driver.keepOrJoin generator).generator ∧
      plugins.Settled sample (driver.keepOrJoin generator) := by
  rcases driver.keepOrJoin_cases generator with ⟨member, hmem, hid, heq⟩ | heq <;> rw [heq]
  · obtain ⟨hm, hsettled⟩ := h.members member hmem
    obtain rfl := plugins.eq_of_identity hm hg hid
    exact ⟨hg, hsettled⟩
  · exact ⟨hg, PlugIns.settled_join generator⟩

theorem Settled.withMembers (h : driver.Settled plugins sample host) {members : List (Member S σ)}
    (hm : ∀ member ∈ members, plugins.Has member.generator ∧ plugins.Settled sample member) :
    (driver.withMembers members).Settled plugins sample host :=
  ⟨hm, h.host_eq⟩

theorem Settled.addGenerators (h : driver.Settled plugins sample host)
    {generators : List (Generator S σ)} (hg : ∀ generator ∈ generators, plugins.Has generator) :
    (driver.addGenerators generators).Settled plugins sample host := by
  refine h.withMembers fun member hm => ?_
  rcases List.mem_append.mp hm with hm | hm
  · exact h.members member hm
  · obtain ⟨generator, hgen, rfl⟩ := List.mem_map.mp hm
    exact ⟨hg generator hgen, PlugIns.settled_join generator⟩

theorem Settled.applied (h : driver.Settled plugins sample host)
    (ha : driver.Applied snapshot next) : next.Settled plugins sample host := by
  obtain ⟨-, runId, inputs, members, assembled, first, second, third, hmembers, -, -, rfl⟩ := ha
  refine ⟨Edit.forall_of_edited ?_ (Edit.applyAll_edited _ _ _ hmembers) h.members, h.host_eq⟩
  rintro member made hedited ⟨hg, hsettled⟩
  refine ⟨?_, hsettled.edited hedited⟩
  obtain ⟨outputs, rfl⟩ := hedited
  exact hg

/-- What a full pass that ran the generators of a settled driver made. -/
structure Made (plugins : PlugIns S σ) (sample : Ambient σ) (host : Host S) (driver : Driver S σ)
    (snapshot : Snapshot S) (next : Driver S σ) : Prop where
  settled : next.Settled plugins sample host
  generators_eq : next.generators = driver.generators
  options_eq : next.options = driver.options
  inputs : Edit.commitAll driver.pendingEdits driver.additionalInputs = .ok next.additionalInputs
  reports_eq : next.reports = next.generators.map fun generator =>
    (generator,
      plugins.report sample next.options snapshot.content next.additionalInputs generator)
  assembled : ∃ whole, next.assembled = some whole ∧
    whole.content = host.mergeAll snapshot.content
      (next.reports.flatMap fun made => made.2.outputs.map (made.1.name, ·))

theorem Settled.executed (h : driver.Settled plugins sample host)
    (he : driver.Executed session snapshot next) :
    Made plugins sample host driver snapshot next := by
  obtain ⟨runId, inputs, members, assembled, first, second, third, fourth, hinputs, -, hran, hbuilt,
    rfl⟩ := he
  rcases PlugIns.runMembers_reports driver.members h.members with
    ⟨made, last, hx, hmade, hreports⟩ | ⟨-, why, last, hx⟩
  · rw [hran] at hx
    cases hx
    have hgenerators := runMembers_generators driver.members members hran
    refine ⟨⟨hmade, h.host_eq⟩, hgenerators, rfl, hinputs, ?_, assembled, rfl, ?_⟩
    · rw [reports, hreports, generators, hgenerators, List.map_map]
      rfl
    · rw [← namedOutputs_eq]
      obtain ⟨whole, last, hwhole, hcontent⟩ := driver.host.assemble_apply driver.sink runId
        (members.flatMap Member.namedOutputs) snapshot third
      obtain rfl : assembled = whole := by
        have hsame := hbuilt.symm.trans hwhole
        cases hsame
        rfl
      rw [← h.host_eq]
      exact hcontent
  · rw [hran] at hx
    cases hx

/-- Operations keep a driver settled. -/
theorem Settled.perform (h : driver.Settled plugins sample host) (op : DriverOp S σ)
    (hop : ∀ generator ∈ op.generators, plugins.Has generator) :
    (op.perform driver).Settled plugins sample host := by
  cases op with
  | withSink sink => exact ⟨h.members, h.host_eq⟩
  | addGenerators generators => exact h.addGenerators hop
  | removeGenerators generators =>
    exact h.withMembers fun member hm => h.members member (List.mem_of_mem_filter hm)
  | replaceGenerators generators =>
    refine h.withMembers fun member hm => ?_
    obtain ⟨generator, hg, rfl⟩ := List.mem_map.mp hm
    exact h.keepOrJoin (hop generator hg)
  | addInputs inputs => exact ⟨h.members, h.host_eq⟩
  | removeInputs inputs => exact ⟨h.members, h.host_eq⟩
  | replaceInput old new =>
    change (driver.replaceInput old new).Settled plugins sample host
    unfold replaceInput
    split
    · exact ⟨h.members, h.host_eq⟩
    · exact h
  | queueEdits edits => exact ⟨h.members, h.host_eq⟩
  | withOptions options => exact ⟨h.members, h.host_eq⟩
  | fullPass session snapshot =>
    rcases driver.perform_fullPass session snapshot with hsame | he
    · rwa [hsame]
    · exact (h.executed he).settled
  | tryApplyEdits session snapshot =>
    rcases driver.perform_tryApplyEdits session snapshot with hsame | ⟨-, hrejected⟩ | happlied
    · rwa [hsame]
    · rw [hrejected]
      exact ⟨h.members, h.host_eq⟩
    · exact h.applied happlied

/-- Every history of operations leads to a settled driver. -/
theorem settled_reached (sample : Ambient σ) (host : Host S) (ops : List (DriverOp S σ))
    (hops : ∀ op ∈ ops, ∀ generator ∈ op.generators, plugins.Has generator) :
    (reached host ops).Settled plugins sample host :=
  reached_induction host ops (settled_new host) fun op hm _ h => h.perform op (hops op hm)

/-- A pass that is needed and not asked to stop returns. -/
theorem Settled.fullPass_returns (h : driver.Settled plugins sample host) (snapshot : Snapshot S)
    (session : Session σ) (hneeded : driver.isUpToDate snapshot = false) {inputs : List AdditionalInput}
    (hinputs : Edit.commitAll driver.pendingEdits driver.additionalInputs = .ok inputs)
    (hc : session.ambient.cancelled = false) :
    ∃ next ended, driver.fullPass snapshot session = .ok next ended := by
  rw [driver.fullPass_eq_executePass hneeded]
  generalize "run-" ++ toString session.fresh = runId
  obtain ⟨events, hstarted⟩ := Session.emit_apply driver.sink
    (.passStarted runId driver.members.length) { session with fresh := session.fresh + 1 }
  rcases PlugIns.runMembers_reports driver.members h.members with
    ⟨members, ran, hran, -, -⟩ | ⟨hcancelled, -⟩
  · obtain ⟨whole, built, hbuilt, -⟩ := driver.host.assemble_apply driver.sink runId
      (members.flatMap Member.namedOutputs) snapshot ran
    exact ⟨_, _, (Act.bind_ok hstarted).trans ((Act.bind_ok (Act.ofPanic_ok hinputs _)).trans
      ((Act.bind_ok hran).trans (Act.bind_ok hbuilt)))⟩
  · exact absurd (hc.symm.trans hcancelled) Bool.false_ne_true

theorem generators_fresh (driver : Driver S σ) (host : Host S) :
    (fresh host driver).generators = driver.generators := by
  have hjoin : ((driver.generators.map Member.join).map (·.generator)) = driver.generators := by
    rw [List.map_map]
    exact List.map_id _
  exact hjoin

theorem Settled.fresh (h : driver.Settled plugins sample host) :
    (Driver.fresh host driver).Settled plugins sample host := by
  have hadded : ((Driver.new host).addGenerators driver.generators).Settled plugins sample host := by
    refine (settled_new host).addGenerators fun generator hg => ?_
    obtain ⟨member, hm, rfl⟩ := List.mem_map.mp hg
    exact (h.members member hm).1
  exact ⟨hadded.members, hadded.host_eq⟩

end Driver

/-- The history of a driver of faithful plug-ins is invisible in the results of a full pass that runs
the generators: a fresh driver of the same generators, options and additional inputs makes the same
outputs, stage faults and errors, and assembles the same snapshot. -/
theorem fullPass_eq_fresh (plugins : PlugIns S σ) (host : Host S) (ops : List (DriverOp S σ))
    (hops : ∀ op ∈ ops, ∀ generator ∈ op.generators, plugins.Has generator)
    {snapshot : Snapshot S} {session ended : Session σ} {next : Driver S σ}
    (hneeded : (Driver.reached host ops).isUpToDate snapshot = false)
    (hpass : (Driver.reached host ops).fullPass snapshot session = .ok next ended)
    (other : Session σ) (hother : other.ambient.cancelled = false) :
    ∃ made last whole whole', (Driver.fresh host next).fullPass snapshot other = .ok made last ∧
      made.reports = next.reports ∧ next.assembled = some whole ∧ made.assembled = some whole' ∧
      whole'.content = whole.content := by
  have hsettled := Driver.settled_reached session.ambient host ops hops
  rcases Driver.fullPass_ok hpass with ⟨hup, -⟩ | ⟨-, he⟩
  · rw [hneeded] at hup
    cases hup
  · have hnext := hsettled.executed he
    obtain ⟨whole, hwhole, hcontent⟩ := hnext.assembled
    have hfresh := hnext.settled.fresh
    obtain ⟨made, last, hx⟩ := hfresh.fullPass_returns snapshot other rfl rfl hother
    rcases Driver.fullPass_ok hx with ⟨hup, -⟩ | ⟨-, he'⟩
    · cases hup
    · have hmade := hfresh.executed he'
      obtain ⟨whole', hwhole', hcontent'⟩ := hmade.assembled
      have hgenerators : made.generators = next.generators :=
        hmade.generators_eq.trans (next.generators_fresh host)
      have hinputs : made.additionalInputs = next.additionalInputs :=
        (Except.ok.inj hmade.inputs).symm
      have hreports : made.reports = next.reports := by
        rw [hmade.reports_eq, hnext.reports_eq, hgenerators, hinputs, hmade.options_eq]
        rfl
      exact ⟨made, last, whole, whole', hx, hreports, hwhole, hwhole',
        by rw [hcontent, hcontent', hreports]⟩

/-! A plug-in with one leaf and one stage that is registered. -/

namespace Readers

open TwoStages

variable {S : Type} (select : S → Except SelectionFailure (List Value)) (f : Value → Callback Unit Value)

/-- What the plug-in declares when the identities from `fresh` on are unused. -/
def pipeline (name : String) (fresh : Nat) : Pipeline S Unit where
  shape := ⟨name, [(⟨⟨fresh + 1⟩, "derived"⟩, .source)], []⟩
  leaves := [⟨⟨⟨fresh⟩, "numbers"⟩, select⟩]
  additionalInputs := none
  outputs := [⟨.mapping ⟨⟨fresh + 1⟩, "derived"⟩ (.leaf ⟨⟨fresh⟩, "numbers"⟩) f, .source⟩]

def reader (name : String) : Generator S Unit where
  identity := 0
  name
  declare :=
    .ask (.snapshotLeaf "numbers" select) fun numbers =>
      .ask (.newStage "derived") fun derived =>
        .ask (.registerOutput (.mapping derived (.leaf numbers) f) .source) fun _ => .done ()

variable {select f} {name : String}

theorem plain_pipeline (hf : ∀ value, (f value).Pure) :
    (pipeline select f name 0).Plain (stages (.single f)) where
  standard := standard (Transform.pure_single hf)
  productive := by
    rintro info source transform same (h | h) value ambient
    · cases h
    · cases h
      exact Transform.single_ne_nil f value ambient
  outputs binding hm := by
    obtain rfl := List.mem_singleton.mp hm
    exact .inr rfl
  leaves info hm := by
    obtain rfl := List.mem_singleton.mp hm
    exact .inl rfl
  fed := by
    rintro stage (rfl | rfl) hl
    · exact List.mem_singleton.mpr rfl
    · exact hl.elim
  distinct := List.pairwise_singleton _ _

/-- Strict values that are selected and made are not told apart. -/
theorem faithful_pipeline (hs : ∀ info value new, value.Strict →
      Stage.observed info (.single f) value new → ∀ kept ∈ new, kept.Strict)
    (hselect : ∀ snapshot values, select snapshot = .ok values → ∀ value ∈ values, value.Strict) :
    (pipeline select f name 0).Faithful (strict hs).identity where
  equal := StageGraph.Typing.equalAlike_identity fun _ _ other _ hv => (hv other).mp
  admits := by
    rintro snapshot inputs leaf values (rfl | rfl) hl hgiven value hv
    · have hgiven' : (select snapshot).mapError (fun failure =>
          Fault.inStage "numbers" failure.describe) = .ok values := Option.some.inj hgiven
      exact ⟨rfl, hselect snapshot values (ok_of_mapError hgiven') value hv⟩
    · exact hl.elim
  registered _ _ _ _ h := h.1

theorem declares_reader : (reader select f name).Declares (.ok (pipeline select f name 0)) := by
  intro fresh ambient
  exact .built rfl (StageId.shift_injective fresh) ⟨rfl, rfl, rfl⟩ rfl

def session (fresh : Nat) : Session Unit :=
  ⟨⟨false, ()⟩, fresh, []⟩

end Readers

/-! A plug-in that copies what a snapshot holds, unless it is refused. -/

namespace Copies

open TwoStages Readers

def select : String → Except SelectionFailure (List Value)
  | "refused" => .error (.refused "refused")
  | text => .ok [.output ⟨"copy", text, .source⟩]

def copier : Generator String Unit :=
  reader select .done "copier"

theorem strict_single_done (info : StageInfo) (value : Value) (new : List Value) (hv : value.Strict)
    (hnew : Stage.observed (σ := Unit) info (.single .done) value new) : ∀ kept ∈ new, kept.Strict := by
  obtain ⟨ambient, after, hrun⟩ := hnew
  cases hrun
  exact List.forall_mem_singleton.mpr hv

theorem strict_select (snapshot : String) (values : List Value) (h : select snapshot = .ok values) :
    ∀ value ∈ values, value.Strict := by
  unfold select at h
  split at h
  · cases h
  · cases h
    exact List.forall_mem_singleton.mpr (Value.strict_output _)

def plugins : PlugIns String Unit where
  Has generator := generator = copier
  declared _ := .ok (pipeline select .done "copier" 0)
  eq_of_identity h h' _ := h.trans h'.symm
  execute_eq h := by rw [h]; rfl
  declares h := by rw [h]; exact declares_reader
  plain _ h := by
    cases h
    exact ⟨_, plain_pipeline Callback.pure_done, _, faithful_pipeline strict_single_done strict_select⟩

def host : Host String where
  materialize generator output := .ok ⟨generator, output.hintName, .null⟩
  merge content artifact := .ok (content ++ artifact.generator)

/-- A pass, one that the snapshot makes fail, one without any outputs, and an edit that waits. -/
def history : List (DriverOp String Unit) :=
  [.addGenerators [copier], .fullPass (session 0) ⟨1, "first"⟩,
    .fullPass (session 7) ⟨2, "refused"⟩, .withOptions ⟨false, [.source]⟩,
    .fullPass (session 9) ⟨3, "third"⟩, .withOptions .standard,
    .queueEdits [.inputAdded "input" ⟨"p", "t"⟩]]

end Copies

open Readers Copies in
/-- After the history the full pass over a further snapshot makes what a fresh driver makes. -/
theorem fullPass_eq_fresh_copies : ∃ next ended made last whole whole',
    (Driver.reached host history).fullPass ⟨4, "last"⟩ (session 12) = .ok next ended ∧
    (Driver.fresh host next).fullPass ⟨4, "last"⟩ (session 40) = .ok made last ∧
    made.reports = next.reports ∧ next.assembled = some whole ∧ made.assembled = some whole' ∧
    whole'.content = whole.content := by
  have hops : ∀ op ∈ history, ∀ generator ∈ op.generators, plugins.Has generator := by
    intro op hm generator hg
    simp only [history, List.mem_cons, List.not_mem_nil, or_false] at hm
    rcases hm with rfl | rfl | rfl | rfl | rfl | rfl | rfl
    · exact List.mem_singleton.mp hg
    all_goals cases hg
  have hneeded : (Driver.reached host history).isUpToDate ⟨4, "last"⟩ = false := by decide +kernel
  have hqueue : (Edit.commitAll (Driver.reached host history).pendingEdits
      (Driver.reached host history).additionalInputs).toOption = some [⟨"p", "t"⟩] := by
    decide +kernel
  cases hinputs : Edit.commitAll (Driver.reached host history).pendingEdits
      (Driver.reached host history).additionalInputs with
  | error panic =>
    rw [hinputs] at hqueue
    cases hqueue
  | ok inputs =>
    have hsettled := Driver.settled_reached (session 12).ambient host history hops
    obtain ⟨next, ended, hpass⟩ := hsettled.fullPass_returns ⟨4, "last"⟩ (session 12) hneeded hinputs rfl
    obtain ⟨made, last, whole, whole', hmade, hsame⟩ :=
      fullPass_eq_fresh plugins host history hops hneeded hpass (session 40) rfl
    exact ⟨next, ended, made, last, whole, whole', hpass, hmade, hsame⟩

/-! A plug-in that writes down the double that a snapshot is. -/

namespace Written

open TwoStages Readers

def select (bits : UInt64) : Except SelectionFailure (List Value) :=
  .ok [.data (.double bits)]

def write : Value → Callback Unit Value
  | .data (.double bits) => .done (.output ⟨"double", Double.text bits, .source⟩)
  | value => .done value

theorem pure_write (value : Value) : (write value).Pure := by
  unfold write
  split <;> exact Callback.pure_done _

def writer : Generator UInt64 Unit :=
  reader select write "writer"

def host : Host UInt64 where
  materialize generator output := .ok ⟨generator, output.hintName, .str output.text⟩
  merge content _ := .ok content

def history : List (DriverOp UInt64 Unit) :=
  [.addGenerators [writer], .fullPass (session 0) ⟨1, 0⟩]

end Written

open Readers Written in
/-- The driver was shown the one zero and is shown the other one. It keeps the text of the first, where
a fresh driver makes the text of the second. -/
theorem fullPass_keeps_zero :
    (pipeline select write "writer" 0).Plain (TwoStages.stages (.single write)) ∧
    writer.Declares (.ok (pipeline select write "writer" 0)) ∧
    (Driver.reached host history).isUpToDate ⟨2, 0x8000000000000000⟩ = false ∧
    ∃ next ended made last,
      (Driver.reached host history).fullPass ⟨2, 0x8000000000000000⟩ (session 12) = .ok next ended ∧
      (Driver.fresh host next).fullPass ⟨2, 0x8000000000000000⟩ (session 40) = .ok made last ∧
      next.reports.map (·.2) = [⟨[⟨"double", "0.0", .source⟩], [], none⟩] ∧
      made.reports.map (·.2) = [⟨[⟨"double", "-0.0", .source⟩], [], none⟩] := by
  refine ⟨plain_pipeline pure_write, declares_reader, by decide +kernel, ?_⟩
  have hreports : (Act.result ((Driver.reached host history).fullPass ⟨2, 0x8000000000000000⟩)
        (session 12)).toOption.map (fun next =>
      (next.reports.map (·.2), (Act.result ((Driver.fresh host next).fullPass ⟨2, 0x8000000000000000⟩)
        (session 40)).toOption.map fun made => made.reports.map (·.2))) =
      some ([⟨[⟨"double", "0.0", .source⟩], [], none⟩],
        some [⟨[⟨"double", "-0.0", .source⟩], [], none⟩]) := by
    decide +kernel
  obtain ⟨next, hnext, hpair⟩ := Option.map_eq_some_iff.mp hreports
  obtain ⟨hkept, hfresh⟩ := Prod.mk.inj hpair
  obtain ⟨made, hmade, hfresh⟩ := Option.map_eq_some_iff.mp hfresh
  obtain ⟨ended, hx⟩ := Act.eq_ok_of_toOption hnext
  obtain ⟨last, hy⟩ := Act.eq_ok_of_toOption hmade
  exact ⟨next, ended, made, last, hx, hy, hkept, hfresh⟩

end Regen
