import Regen.Proofs.DriverHistory

/-!
# When a full pass is not run again

A ledger beside the driver keeps what the last full pass that ran the generators was run with, and
what the applications of edits since then did. A driver that is up to date for a snapshot still has
the generators of that pass. It stands for that pass exactly when no edits were applied since, or
the last application ran over the same snapshot, with the same options, and with inputs that only
the commits of edits changed. Otherwise outputs of another snapshot or of other options are handed
out as the result.
-/

namespace Regen

variable {S σ : Type}

/-- What a result of a driver was made from. -/
structure Basis (S σ : Type) where
  /-- The identity of the snapshot. -/
  snapshot : Nat
  generators : List (Generator S σ)
  options : DriverOptions
  inputs : List AdditionalInput

/-- What a result over a snapshot would be made from. -/
def Driver.basis (driver : Driver S σ) (snapshot : Snapshot S) : Basis S σ :=
  ⟨snapshot.identity, driver.generators, driver.options, driver.additionalInputs⟩

/-- What a history did as far as results go. -/
structure Ledger (S σ : Type) where
  /-- The last full pass that ran the generators. -/
  executed : Option (Basis S σ)
  /-- The edits that were applied since, in order. -/
  commits : List (Edit σ)
  /-- The last application of edits since. -/
  applied : Option (Basis S σ)

namespace Ledger

def empty : Ledger S σ :=
  ⟨none, [], none⟩

/-- The generators that the last full pass ran; without one there were none. -/
def generators (ledger : Ledger S σ) : List (Generator S σ) :=
  (ledger.executed.map Basis.generators).getD []

/-- The ledger after an operation on a driver. -/
def enter (driver : Driver S σ) (ledger : Ledger S σ) : DriverOp S σ → Ledger S σ
  | .fullPass session snapshot =>
    match driver.fullPass snapshot session with
    | .ok next _ =>
      if driver.isUpToDate snapshot then ledger else ⟨some (next.basis snapshot), [], none⟩
    | .error _ _ => ledger
  | .tryApplyEdits session snapshot =>
    match driver.tryApplyEdits snapshot session with
    | .ok ⟨next, .ok _⟩ _ =>
      { ledger with
        commits := ledger.commits ++ driver.pendingEdits
        applied := some (next.basis snapshot) }
    | _ => ledger
  | _ => ledger

/-- The driver that a history reaches, with its ledger. -/
def recorded (host : Host S) (ops : List (DriverOp S σ)) : Driver S σ × Ledger S σ :=
  ops.foldl (fun entry op => (op.perform entry.1, enter entry.1 entry.2 op)) (.new host, empty)

/-- A result over a snapshot stands for the last full pass that ran the generators: same snapshot,
same generators, same options, and the inputs of that pass with the commits made since. -/
def Justifies (ledger : Ledger S σ) (driver : Driver S σ) (snapshot : Snapshot S) : Prop :=
  ∃ pass, ledger.executed = some pass ∧ pass.snapshot = snapshot.identity ∧
    pass.generators = driver.generators ∧ pass.options = driver.options ∧
    Edit.commitAll ledger.commits pass.inputs = .ok driver.additionalInputs

/-- What the ledger knows of the driver beside it. -/
structure Fits (driver : Driver S σ) (ledger : Ledger S σ) : Prop where
  generators : driver.assembled.isSome ∨ driver.editsFailed = false →
    driver.generators = ledger.generators
  executed : ledger.applied = none → ledger.commits = [] ∧
    ∀ snapshot, driver.snapshot = some snapshot → driver.assembled.isSome →
      ledger.executed = some (driver.basis snapshot)
  applied : ∀ basis, ledger.applied = some basis →
    ∀ snapshot, driver.snapshot = some snapshot → driver.assembled.isSome →
      driver.basis snapshot = basis

theorem fits_new (host : Host S) : (empty : Ledger S σ).Fits (.new host) where
  generators _ := rfl
  executed _ := ⟨rfl, fun _ h => by cases h⟩
  applied _ h := by cases h

variable {driver next : Driver S σ} {ledger : Ledger S σ}

/-- A change that gives up the result keeps the ledger; if it changes the generators it rules out
edits as well. -/
theorem Fits.clear (h : ledger.Fits driver) (ha : next.assembled = none)
    (hg : next.editsFailed = false → driver.editsFailed = false ∧
      next.generators = driver.generators) : ledger.Fits next where
  generators hn := by
    rcases hn with hn | hn
    · rw [ha] at hn
      cases hn
    · obtain ⟨he, hgen⟩ := hg hn
      rw [hgen]
      exact h.generators (.inr he)
  executed hn := ⟨(h.executed hn).1, fun _ _ hs => by rw [ha] at hs; cases hs⟩
  applied _ _ _ _ hs := by
    rw [ha] at hs
    cases hs

/-- A change of nothing that the ledger knows about keeps it. -/
theorem Fits.keep (h : ledger.Fits driver) (hs : next.snapshot = driver.snapshot)
    (ha : next.assembled = driver.assembled)
    (he : next.editsFailed = false → driver.editsFailed = false)
    (hg : next.generators = driver.generators) (ho : next.options = driver.options)
    (hi : next.additionalInputs = driver.additionalInputs) : ledger.Fits next := by
  have hb : ∀ snapshot, next.basis snapshot = driver.basis snapshot := by
    intro snapshot
    rw [Driver.basis, hg, ho, hi]
    rfl
  constructor
  · intro hn
    rw [hg]
    exact h.generators (hn.imp (fun h => ha ▸ h) he)
  · rw [hs, ha]
    simp only [hb]
    exact h.executed
  · rw [hs, ha]
    simp only [hb]
    exact h.applied

/-- The ledger after a pass that ran the generators. -/
theorem fits_executed {session : Session σ} {snapshot : Snapshot S}
    (h : driver.Executed session snapshot next) :
    (⟨some (next.basis snapshot), [], none⟩ : Ledger S σ).Fits next := by
  obtain ⟨_, inputs, members, assembled, _, _, _, _, -, -, -, -, rfl⟩ := h
  refine ⟨fun _ => rfl, fun _ => ⟨rfl, fun last hlast _ => ?_⟩, fun _ h => by cases h⟩
  cases hlast
  rfl

/-- The ledger after edits were applied. -/
theorem Fits.apply (h : ledger.Fits driver) {snapshot : Snapshot S}
    (ha : driver.Applied snapshot next) :
    Fits next { ledger with
      commits := ledger.commits ++ driver.pendingEdits
      applied := some (next.basis snapshot) } := by
  obtain ⟨hfailed, _, inputs, members, assembled, _, _, _, hedited, -, -, rfl⟩ := ha
  have hgen : members.map (·.generator) = driver.generators :=
    Edit.edited_generators (Edit.applyAll_edited _ _ _ hedited)
  refine ⟨fun _ => hgen.trans (h.generators (.inr hfailed)), (fun hn => by cases hn), ?_⟩
  intro basis hbasis last hlast _
  cases hbasis
  cases hlast
  rfl

/-- Every operation keeps the ledger and the driver together. -/
theorem Fits.enter (h : ledger.Fits driver) (op : DriverOp S σ) :
    Fits (op.perform driver) (enter driver ledger op) := by
  cases op with
  | withSink sink => exact h.keep rfl rfl (fun h => h) rfl rfl rfl
  | addGenerators generators => exact h.clear rfl fun h => by cases h
  | removeGenerators generators => exact h.clear rfl fun h => by cases h
  | replaceGenerators generators => exact h.clear rfl fun h => by cases h
  | addInputs inputs => exact h.clear rfl fun h => ⟨h, rfl⟩
  | removeInputs inputs => exact h.clear rfl fun h => ⟨h, rfl⟩
  | replaceInput old new =>
    change Fits (driver.replaceInput old new) ledger
    unfold Driver.replaceInput
    split
    · exact h.clear rfl fun h => ⟨h, rfl⟩
    · exact h
  | queueEdits edits => exact h.clear rfl fun h => ⟨h, rfl⟩
  | withOptions options => exact h.clear rfl fun h => ⟨h, rfl⟩
  | fullPass session snapshot =>
    simp only [DriverOp.perform, Ledger.enter]
    cases hx : driver.fullPass snapshot session with
    | error why ended => exact h
    | ok made ended =>
      rcases Driver.fullPass_ok hx with ⟨hup, rfl⟩ | ⟨hup, hexecuted⟩
      · simp only [hup, if_true]
        exact h
      · simp only [hup, Bool.false_eq_true, if_false]
        exact fits_executed hexecuted
  | tryApplyEdits session snapshot =>
    simp only [DriverOp.perform, Ledger.enter]
    cases hx : driver.tryApplyEdits snapshot session with
    | error why ended => exact h
    | ok application ended =>
      rcases Driver.tryApplyEdits_ok hx with ⟨error, rfl⟩ | ⟨error, -, rfl⟩ | ⟨assembled, ho, ha⟩
      · exact h
      · exact h.keep rfl rfl (fun h => by cases h) rfl rfl rfl
      · obtain ⟨made, outcome⟩ := application
        cases ho
        exact h.apply ha

/-- The ledger of a history fits the driver that it reaches. -/
theorem fits_recorded (host : Host S) (ops : List (DriverOp S σ)) :
    (recorded host ops).2.Fits (recorded host ops).1 := by
  have hrun : ∀ (ops : List (DriverOp S σ)) (entry : Driver S σ × Ledger S σ),
      entry.2.Fits entry.1 →
      let last := ops.foldl (fun entry op => (op.perform entry.1, enter entry.1 entry.2 op)) entry
      last.2.Fits last.1 := by
    intro ops
    induction ops with
    | nil => exact fun _ h => h
    | cons op rest ih => exact fun entry h => ih _ (h.enter op)
  exact hrun ops _ (fits_new host)

/-- The driver beside the ledger is the one that the history reaches. -/
theorem recorded_fst (host : Host S) (ops : List (DriverOp S σ)) :
    (recorded host ops).1 = .reached host ops := by
  have hrun : ∀ (ops : List (DriverOp S σ)) (entry : Driver S σ × Ledger S σ),
      (ops.foldl (fun entry op => (op.perform entry.1, enter entry.1 entry.2 op)) entry).1 =
        ops.foldl DriverOp.perform entry.1 := by
    intro ops
    induction ops with
    | nil => exact fun _ => rfl
    | cons op rest ih => exact fun entry => ih _
  exact hrun ops _

end Ledger

/-- When a history makes the next full pass over a snapshot reuse the result, the generators are
those of the last full pass that ran them. The result stands for that pass if no edits were applied
since; if edits were applied, exactly when the last application ran over the same snapshot and with
the same options, and the inputs differ by commits only. -/
theorem reuse_justified_iff (host : Host S) (ops : List (DriverOp S σ)) (snapshot : Snapshot S)
    (h : (Driver.reached host ops).isUpToDate snapshot = true) :
    let driver := Driver.reached host ops
    let ledger := (Ledger.recorded host ops).2
    driver.generators = ledger.generators ∧
    (ledger.Justifies driver snapshot ↔ ledger.applied = none ∨
      ∃ applied pass, ledger.applied = some applied ∧ ledger.executed = some pass ∧
        pass.snapshot = applied.snapshot ∧ pass.options = applied.options ∧
        Edit.commitAll ledger.commits pass.inputs = .ok applied.inputs) := by
  intro driver ledger
  have hfits : ledger.Fits driver := by
    have := Ledger.fits_recorded host ops
    rwa [Ledger.recorded_fst] at this
  obtain ⟨last, hlast, hsome, hid⟩ := Driver.isUpToDate_iff.mp h
  have hbasis : driver.basis last = driver.basis snapshot := by
    rw [Driver.basis, hid]
    rfl
  have hgen := hfits.generators (.inl hsome)
  refine ⟨hgen, ?_⟩
  cases ha : ledger.applied with
  | none =>
    obtain ⟨hcommits, hexecuted⟩ := hfits.executed ha
    have hpass := hexecuted last hlast hsome
    rw [hbasis] at hpass
    refine iff_of_true ⟨_, hpass, rfl, rfl, rfl, ?_⟩ (.inl rfl)
    rw [hcommits]
    rfl
  | some applied =>
    have hap := hfits.applied applied ha last hlast hsome
    rw [hbasis] at hap
    subst hap
    constructor
    · rintro ⟨pass, hpass, hs, -, ho, hc⟩
      exact .inr ⟨_, pass, rfl, hpass, hs, ho, hc⟩
    · rintro (hn | ⟨applied, pass, hap, hpass, hs, ho, hc⟩)
      · cases hn
      · cases hap
        refine ⟨pass, hpass, hs, ?_, ho, hc⟩
        rw [hgen, Ledger.generators, hpass]
        rfl

namespace Copying

/-- Snapshots are texts that nothing is merged into. -/
def host : Host String where
  materialize generator output := .ok ⟨generator, output.hintName, .null⟩
  merge content _ := .ok content

/-- The generator copies the snapshot into its only output. -/
def copier : Generator String Unit where
  identity := 0
  name := "copier"
  declare := .done ()
  execute briefing := .ask (Execution.Request.addOutput ⟨"copy", briefing.snapshot, .source⟩)
    fun _ => .done ()

def session : Session Unit :=
  ⟨⟨false, ()⟩, 0, []⟩

def first : Snapshot String := ⟨1, "first"⟩

def second : Snapshot String := ⟨2, "second"⟩

/-- A full pass over the first snapshot, then an edit applied over the second one. -/
def moved : List (DriverOp String Unit) :=
  [.addGenerators [copier], .fullPass session first, .queueEdits [.inputAdded "input" ⟨"p", "t"⟩],
    .tryApplyEdits session second]

/-- A full pass over a snapshot, then other options and an edit applied over the same snapshot. -/
def reconfigured : List (DriverOp String Unit) :=
  [.addGenerators [copier], .fullPass session first, .withOptions ⟨false, [.source]⟩,
    .queueEdits [.inputAdded "input" ⟨"p", "t"⟩], .tryApplyEdits session first]

end Copying

open Copying in
/-- The next full pass is reused although no pass ran over its snapshot, and the copy is that of
the other one; it is reused as well although the options changed. -/
theorem reuse_unjustified :
    ((Driver.reached host moved).isUpToDate second = true ∧
      ¬ (Ledger.recorded host moved).2.Justifies (.reached host moved) second ∧
      (Driver.reached host moved).outputs = [⟨"copy", "first", .source⟩]) ∧
    (Driver.reached host reconfigured).isUpToDate first = true ∧
      ¬ (Ledger.recorded host reconfigured).2.Justifies (.reached host reconfigured) first := by
  refine ⟨⟨rfl, ?_, rfl⟩, rfl, ?_⟩
  · rintro ⟨pass, hpass, hid, -⟩
    have hran : (Ledger.recorded host moved).2.executed.map Basis.snapshot = some 1 := rfl
    rw [hpass, Option.map_some, hid] at hran
    cases hran
  · rintro ⟨pass, hpass, -, -, ho, -⟩
    have hran : (Ledger.recorded host reconfigured).2.executed.map Basis.options =
        some .standard := rfl
    rw [hpass, Option.map_some, ho] at hran
    cases hran

open Copying in
/-- The reused result after the edit was applied over the second snapshot: its generators are those
of the pass over the first one, but it does not stand for that pass. -/
theorem reuse_justified_iff_moved :
    (Driver.reached host moved).isUpToDate second = true ∧
    (Driver.reached host moved).generators = (Ledger.recorded host moved).2.generators ∧
    ¬ (Ledger.recorded host moved).2.Justifies (.reached host moved) second := by
  have hup : (Driver.reached host moved).isUpToDate second = true := rfl
  obtain ⟨hgen, hiff⟩ := reuse_justified_iff host moved second hup
  refine ⟨hup, hgen, fun hjust => ?_⟩
  rcases hiff.mp hjust with hn | ⟨applied, pass, hap, hpass, hid, -⟩
  · have hlast : (Ledger.recorded host moved).2.applied.map Basis.snapshot = some 2 := rfl
    rw [hn] at hlast
    cases hlast
  · have hlast : (Ledger.recorded host moved).2.applied.map Basis.snapshot = some 2 := rfl
    have hran : (Ledger.recorded host moved).2.executed.map Basis.snapshot = some 1 := rfl
    rw [hap, Option.map_some] at hlast
    rw [hpass, Option.map_some, hid, hlast] at hran
    cases hran

end Regen
