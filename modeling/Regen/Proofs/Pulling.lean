import Regen.Pass.Pull
import Regen.Proofs.LeafTables
import Regen.Proofs.PassTables
import Regen.Proofs.StageGraph

/-!
# Pulling the stages of a graph

Within one pass every table comes about in one way: from the tables that the stage reads in this
pass and from its own table of the pass before. `Stage.Yields` says which way that is, and a sound
pass holds only such tables. A pull of a stage of a regular graph keeps the pass sound, adds only
tables of stages upstream, and ends with the table of the stage, or with the panic of a stage
upstream whose table of the pass before has too few slots. A pull in a pass that was asked to stop
adds nothing.
-/

namespace Regen

variable {σ α : Type}

section

variable (sample : Ambient σ) (given : StageId → Option (Except Fault (List Value)))
  (previous current : PassTables)

/-- What a stage makes in a pass with the baseline `previous`, when the tables of the stages that
it reads are in `current` and the leaves are given values, a fault or nothing. -/
inductive Stage.Yields : Stage σ → Except Stop (Table Value) → Prop
  | refused {info same fault} : given info.id = some (.error fault) →
      Yields (.input info same) (.ok (.faulted fault))
  | fed {info same values r} : given info.id = some (.ok values) →
      (Table.diffInputs (Table.usable? (previous.find? info.id)) values same).mapError .panicked = r →
      Yields (.input info same) r
  | unfed {info same} : given info.id = none →
      Yields (.input info same)
        (.ok (((Table.usable? (previous.find? info.id)).map Table.compact).getD .empty))
  | mapFault {info source transform same table fault} :
      current.find? source.id = some table → table.fault = some fault →
      Yields (.map info source transform same) (.ok (.faulted fault))
  | map {info source transform same table r} :
      current.find? source.id = some table → table.fault = none →
      Formed (image info transform sample) same true (Table.usable? (previous.find? info.id))
        table.entries r →
      Yields (.map info source transform same) r
  | collectFault {info source table fault} :
      current.find? source.id = some table → table.fault = some fault →
      Yields (.collect info source) (.ok (.faulted fault))
  | collect {info source table r} :
      current.find? source.id = some table → table.fault = none →
      Formed gathered Comparer.equality true (Table.usable? (previous.find? info.id))
        [(Value.list table.liveValues,
          collectState (Table.usable? (previous.find? info.id)) table)] r →
      Yields (.collect info source) r
  | combineFault {info left right lefts rights fault} :
      current.find? left.id = some lefts → current.find? right.id = some rights →
      lefts.fault.or rights.fault = some fault →
      Yields (.combine info left right) (.ok (.faulted fault))
  | combineMany {info left right lefts rights} :
      current.find? left.id = some lefts → current.find? right.id = some rights →
      lefts.fault = none → rights.fault = none → rights.liveValues.length ≠ 1 →
      Yields (.combine info left right)
        (.ok (.faulted (notSingle info right.name rights.liveValues.length)))
  | combine {info left right lefts rights value state r} :
      current.find? left.id = some lefts → current.find? right.id = some rights →
      lefts.fault = none → rights.fault = none →
      rights.entries.filter (·.2.isLive) = [(value, state)] →
      Formed (pairWith value) Comparer.equality (state == .cached)
        (Table.usable? (previous.find? info.id)) lefts.entries r →
      Yields (.combine info left right) r

end

/-- More tables in the pass make no difference to what a stage yields. -/
theorem Stage.Yields.mono {sample : Ambient σ} {given : StageId → Option (Except Fault (List Value))}
    {previous current next : PassTables} {stage : Stage σ} {r : Except Stop (Table Value)}
    (h : stage.Yields sample given previous current r) (hw : current.Within next) :
    stage.Yields sample given previous next r := by
  cases h with
  | refused hg => exact .refused hg
  | fed hg hd => exact .fed hg hd
  | unfed hg => exact .unfed hg
  | mapFault ht hf => exact .mapFault (hw _ _ ht) hf
  | map ht hf hm => exact .map (hw _ _ ht) hf hm
  | collectFault ht hf => exact .collectFault (hw _ _ ht) hf
  | collect ht hf hm => exact .collect (hw _ _ ht) hf hm
  | combineFault hl hr hf => exact .combineFault (hw _ _ hl) (hw _ _ hr) hf
  | combineMany hl hr hlf hrf hn => exact .combineMany (hw _ _ hl) (hw _ _ hr) hlf hrf hn
  | combine hl hr hlf hrf hv hm => exact .combine (hw _ _ hl) (hw _ _ hr) hlf hrf hv hm

/-- What a collecting stage makes of the table of its source. -/
theorem Stage.collect_yields (sample : Ambient σ)
    (given : StageId → Option (Except Fault (List Value))) (previous : PassTables)
    (info : StageInfo) {current : PassTables} {source : Stage σ} {table : Table Value}
    (hf : current.find? source.id = some table) :
    (Stage.collect info source).Yields sample given previous current
      ((collectTable (Table.usable? (previous.find? info.id)) table).mapError .panicked) := by
  cases hfault : table.fault with
  | some fault =>
    unfold collectTable
    rw [hfault]
    exact .collectFault hf hfault
  | none => exact .collect hf hfault (collectTable_formed _ hfault)

/-- What a combining stage makes of the tables of its sources. -/
theorem Stage.combine_yields (sample : Ambient σ)
    (given : StageId → Option (Except Fault (List Value))) (previous : PassTables)
    (info : StageInfo) {current : PassTables} {left right : Stage σ} {lefts rights : Table Value}
    (hl : current.find? left.id = some lefts) (hr : current.find? right.id = some rights) :
    (Stage.combine info left right).Yields sample given previous current
      ((combineTable info right.name (Table.usable? (previous.find? info.id)) lefts rights).mapError
        .panicked) := by
  cases hf : lefts.fault.or rights.fault with
  | some fault =>
    unfold combineTable
    rw [hf]
    exact .combineFault hl hr hf
  | none =>
    obtain ⟨hlf, hrf⟩ := Option.or_eq_none_iff.mp hf
    by_cases hv : ∃ value state, rights.entries.filter (·.2.isLive) = [(value, state)]
    · obtain ⟨value, state, hv⟩ := hv
      exact .combine hl hr hlf hrf hv (combineTable_formed info right.name _ hlf hrf hv)
    · have hlen : (rights.entries.filter (·.2.isLive)).length = rights.liveValues.length :=
        (List.length_map _).symm
      have hmany : combineTable info right.name (Table.usable? (previous.find? info.id)) lefts
          rights = .ok (.faulted (notSingle info right.name rights.liveValues.length)) := by
        unfold combineTable
        rw [hf]
        split
        · next h => cases h
        · split
          · next value state hx => exact absurd ⟨value, state, hx⟩ hv
          · rw [← hlen]
            rfl
      rw [hmany]
      refine .combineMany hl hr hlf hrf fun h1 => hv ?_
      obtain ⟨⟨value, state⟩, he⟩ := List.length_eq_one_iff.mp (hlen.trans h1)
      exact ⟨value, state, he⟩

namespace StageGraph

variable (graph : StageGraph σ) (sample : Ambient σ)
  (given : StageId → Option (Except Fault (List Value))) (previous : PassTables)

/-- Every table of the pass is one that its stage yields, and what the leaves are given waits for
those that have no table yet. -/
structure Sound (pass : Pass) : Prop where
  baseline : pass.previous = previous
  yields : ∀ stage table, graph.Has stage → pass.current.find? stage.id = some table →
    stage.Yields sample given previous pass.current (.ok table)
  waits : ∀ stage, graph.Has stage → stage.IsLeaf → pass.current.find? stage.id = none →
    (pass.fed? stage.id).map Except.ok = given stage.id

/-- The state of a pull after some of the sources of a stage were pulled. -/
structure Prepared (stage : Stage σ) (before after : Evaluation σ) : Prop where
  sound : graph.Sound sample given previous after.pass
  uncancelled : after.ambient.cancelled = false
  within : before.pass.current.Within after.pass.current
  new : ∀ id table, after.pass.current.find? id = some table →
    before.pass.current.find? id = some table ∨
      ∃ source ∈ stage.sources, ∃ other : Stage σ, other.Upstream source ∧ other.id = id

/-- The state after a pull that ended in `r`. -/
structure Pulled (stage : Stage σ) (before : Evaluation σ) (r : Except Stop (Table Value))
    (after : Evaluation σ) : Prop where
  sound : graph.Sound sample given previous after.pass
  uncancelled : after.ambient.cancelled = false
  within : before.pass.current.Within after.pass.current
  new : ∀ id table, after.pass.current.find? id = some table →
    before.pass.current.find? id = some table ∨
      ∃ other : Stage σ, other.Upstream stage ∧ other.id = id
  stored : ∀ table, r = .ok table → after.pass.current.find? stage.id = some table
  stuck : ∀ why, r = .error why → ∃ other : Stage σ, other.Upstream stage ∧
    other.Yields sample given previous after.pass.current (.error why)

/-- How computing the table of a stage that has none yet may end. -/
inductive Computed (stage : Stage σ) (before : Evaluation σ) :
    Except Stop (Table Value) → Evaluation σ → Prop
  | stopped {why after} :
      graph.Pulled sample given previous stage before (.error why) after →
      Computed stage before (.error why) after
  | made {table middle after} :
      graph.Prepared sample given previous stage before middle →
      stage.Yields sample given previous middle.pass.current (.ok table) →
      after.ambient.cancelled = false → after.pass.previous = middle.pass.previous →
      after.pass.current = middle.pass.current →
      (∀ id, stage.id ≠ id → after.pass.fed? id = middle.pass.fed? id) →
      Computed stage before (.ok table) after

variable {graph sample given previous}
variable {stage source : Stage σ} {before middle after : Evaluation σ}
  {r : Except Stop (Table Value)} {table : Table Value}

/-- Storing what a stage yields keeps a pass sound, whether or not the values that waited for the
stage were taken away. -/
theorem Sound.store {pass next : Pass} (h : graph.Sound sample given previous pass)
    (hm : graph.Has stage) (hn : pass.current.find? stage.id = none)
    (hy : stage.Yields sample given previous pass.current (.ok table))
    (hp : next.previous = pass.previous) (hc : next.current = pass.current)
    (hf : ∀ id, stage.id ≠ id → next.fed? id = pass.fed? id) :
    graph.Sound sample given previous (next.store stage.info table) := by
  have hw : pass.current.Within (next.store stage.info table).current := by
    rw [Pass.current_store, hc]
    exact PassTables.within_insert hn table
  refine ⟨by rw [Pass.previous_store, hp, h.baseline], ?_, ?_⟩
  · intro other found ho hfind
    by_cases he : stage.id = other.id
    · obtain rfl := graph.eq_of_id hm ho he
      rw [Pass.current_store, show stage.id = stage.info.id from rfl,
        PassTables.find?_insert_self] at hfind
      cases hfind
      exact hy.mono hw
    · rw [Pass.current_store, hc, PassTables.find?_insert_of_ne _ _ he] at hfind
      exact (h.yields other found ho hfind).mono hw
  · intro other ho hleaf hfind
    have he : stage.id ≠ other.id := by
      intro he
      rw [Pass.current_store, ← he, show stage.id = stage.info.id from rfl,
        PassTables.find?_insert_self] at hfind
      cases hfind
    rw [Pass.current_store, hc, PassTables.find?_insert_of_ne _ _ he] at hfind
    rw [Pass.fed?_store, hf _ he]
    exact h.waits other ho hleaf hfind

namespace Prepared

theorem refl (h : graph.Sound sample given previous before.pass)
    (hc : before.ambient.cancelled = false) :
    graph.Prepared sample given previous stage before before where
  sound := h
  uncancelled := hc
  within := .refl _
  new _ _ hf := .inl hf

/-- One more source was pulled. -/
theorem pull (h : graph.Prepared sample given previous stage before middle)
    (hs : source ∈ stage.sources) (hp : graph.Pulled sample given previous source middle r after) :
    graph.Prepared sample given previous stage before after where
  sound := hp.sound
  uncancelled := hp.uncancelled
  within := h.within.trans hp.within
  new id found hf := by
    rcases hp.new id found hf with hf | ⟨other, hu, he⟩
    · exact h.new id found hf
    · exact .inr ⟨source, hs, other, hu, he⟩

/-- The stage itself is not among the tables yet. -/
theorem find?_eq_none (h : graph.Prepared sample given previous stage before after)
    (hm : graph.Has stage) (hn : before.pass.current.find? stage.id = none) :
    after.pass.current.find? stage.id = none := by
  cases hf : after.pass.current.find? stage.id with
  | none => rfl
  | some found =>
    rcases h.new _ _ hf with hb | ⟨source, hs, other, hu, he⟩
    · rw [hn] at hb
      cases hb
    · exact absurd he (graph.id_ne_of_upstream hm hs hu)

theorem new_upstream (h : graph.Prepared sample given previous stage before after)
    (id : StageId) (found : Table Value) (hf : after.pass.current.find? id = some found) :
    before.pass.current.find? id = some found ∨
      ∃ other : Stage σ, other.Upstream stage ∧ other.id = id := by
  rcases h.new id found hf with hb | ⟨source, hs, other, hu, he⟩
  · exact .inl hb
  · exact .inr ⟨other, hu.trans (.step hs .refl), he⟩

/-- A source that stops the pull stops the pull of the stage. -/
theorem stopped (h : graph.Prepared sample given previous stage before middle)
    (hs : source ∈ stage.sources) {why : Stop}
    (hp : graph.Pulled sample given previous source middle (.error why) after) :
    graph.Pulled sample given previous stage before (.error why) after where
  sound := hp.sound
  uncancelled := hp.uncancelled
  within := h.within.trans hp.within
  new := (h.pull hs hp).new_upstream
  stored _ he := by cases he
  stuck why' he := by
    obtain ⟨other, hu, hy⟩ := hp.stuck why' he
    exact ⟨other, hu.trans (.step hs .refl), hy⟩

/-- The stage stops itself. -/
theorem failed (h : graph.Prepared sample given previous stage before after) {why : Stop}
    (hy : stage.Yields sample given previous after.pass.current (.error why)) :
    graph.Pulled sample given previous stage before (.error why) after where
  sound := h.sound
  uncancelled := h.uncancelled
  within := h.within
  new := h.new_upstream
  stored _ he := by cases he
  stuck why' he := by
    cases he
    exact ⟨stage, .refl, hy⟩

/-- The table of the stage is stored. -/
theorem finished (h : graph.Prepared sample given previous stage before after)
    (hm : graph.Has stage) (hn : before.pass.current.find? stage.id = none)
    (hy : stage.Yields sample given previous after.pass.current (.ok table)) {next : Evaluation σ}
    (hc : next.ambient.cancelled = false) (hp : next.pass.previous = after.pass.previous)
    (hcur : next.pass.current = after.pass.current)
    (hf : ∀ id, stage.id ≠ id → next.pass.fed? id = after.pass.fed? id) :
    graph.Pulled sample given previous stage before (.ok table)
      { next with pass := next.pass.store stage.info table } where
  sound := h.sound.store hm (h.find?_eq_none hm hn) hy hp hcur hf
  uncancelled := hc
  within := by
    simp only [Pass.current_store, hcur]
    exact h.within.trans (PassTables.within_insert (h.find?_eq_none hm hn) table)
  new id found hfind := by
    by_cases he : stage.id = id
    · exact .inr ⟨stage, .refl, he⟩
    · simp only [Pass.current_store, hcur] at hfind
      rw [PassTables.find?_insert_of_ne _ _ he] at hfind
      exact h.new_upstream id found hfind
  stored found he := by
    cases he
    exact PassTables.find?_insert_self _ _ _
  stuck _ he := by cases he

end Prepared

/-- A stage that has its table already. -/
theorem Pulled.found (h : graph.Sound sample given previous before.pass)
    (hc : before.ambient.cancelled = false)
    (hf : before.pass.current.find? stage.id = some table) :
    graph.Pulled sample given previous stage before (.ok table) before where
  sound := h
  uncancelled := hc
  within := .refl _
  new _ _ hf := .inl hf
  stored found he := by
    cases he
    exact hf
  stuck _ he := by cases he

/-- A stage that ends as it yields, after its sources were pulled and with some other memory. -/
theorem Prepared.computed (h : graph.Prepared sample given previous stage before middle)
    (hy : stage.Yields sample given previous middle.pass.current r) (memory : σ) :
    graph.Computed sample given previous stage before r
      { middle with ambient := { middle.ambient with memory } } := by
  cases r with
  | ok table => exact .made h hy h.uncancelled rfl rfl fun _ _ => rfl
  | error why =>
    have hp : graph.Prepared sample given previous stage before
        { middle with ambient := { middle.ambient with memory } } :=
      ⟨h.sound, h.uncancelled, h.within, h.new⟩
    exact .stopped (hp.failed hy)

end StageGraph

namespace Evaluation

/-- How a stage computes its table when it has none yet. -/
def compute : Stage σ → Option (Table Value) → Act (Evaluation σ) (Table Value)
  | .input info same, previous => leafTable info same (Table.usable? previous)
  | .map info source transform same, previous => do
    let sourceTable ← pull source
    onAmbient (Stage.mapTable info transform same (Table.usable? previous) sourceTable)
  | .collect _ source, previous => do
    let sourceTable ← pull source
    Act.ofPanic (Stage.collectTable (Table.usable? previous) sourceTable)
  | .combine info left right, previous => do
    let leftTable ← pull left
    let rightTable ← pull right
    Act.ofPanic (Stage.combineTable info right.name (Table.usable? previous) leftTable rightTable)
  | .custom _ update, previous => onAmbient ((update previous).run Ambient.answer)

theorem pull_eq (stage : Stage σ) : pull stage = memoize stage.info (compute stage) := by
  cases stage <;> rfl

section

variable {info : StageInfo} {compute : Option (Table Value) → Act (Evaluation σ) (Table Value)}
  {before after : Evaluation σ} {table : Table Value}

theorem checkCancelled_apply {ambient : Ambient σ} (h : ambient.cancelled = false) :
    Ambient.checkCancelled ambient = .ok () ambient := by
  obtain ⟨cancelled, memory⟩ := ambient
  simp only at h
  subst h
  rfl

theorem checkCancelled_cancelled {ambient : Ambient σ} (h : ambient.cancelled = true) :
    Ambient.checkCancelled ambient = .error (.failed .cancelled) ambient := by
  obtain ⟨cancelled, memory⟩ := ambient
  simp only at h
  subst h
  rfl

theorem onAmbient_apply {act : Act (Ambient σ) α} {r : Except Stop α} {memory : σ}
    (h : act before.ambient = Act.ending r { before.ambient with memory }) :
    onAmbient act before =
      Act.ending r { before with ambient := { before.ambient with memory } } :=
  Act.within_apply h

theorem memoize_found (h : before.pass.current.find? info.id = some table) :
    memoize info compute before = .ok table before := by
  refine (Act.bind_ok (Act.get_apply before)).trans ?_
  simp only [h]
  rfl

theorem memoize_missing (h : before.pass.current.find? info.id = none)
    (hc : before.ambient.cancelled = false) :
    memoize info compute before = (do
      let table ← compute (before.pass.previous.find? info.id)
      modifyPass (·.store info table)
      return table : Act (Evaluation σ) (Table Value)) before := by
  refine (Act.bind_ok (Act.get_apply before)).trans ?_
  simp only [h]
  have hcheck : onAmbient Ambient.checkCancelled before = .ok () before :=
    Act.within_apply (r := .ok ()) (checkCancelled_apply hc)
  exact Act.bind_ok hcheck

theorem memoize_ok (h : before.pass.current.find? info.id = none)
    (hc : before.ambient.cancelled = false)
    (hx : compute (before.pass.previous.find? info.id) before = .ok table after) :
    memoize info compute before = .ok table { after with pass := after.pass.store info table } :=
  (memoize_missing h hc).trans (Act.bind_ok hx)

theorem memoize_error {why : Stop} (h : before.pass.current.find? info.id = none)
    (hc : before.ambient.cancelled = false)
    (hx : compute (before.pass.previous.find? info.id) before = .error why after) :
    memoize info compute before = .error why after :=
  (memoize_missing h hc).trans (Act.bind_error hx)

theorem memoize_cancelled (h : before.pass.current.find? info.id = none)
    (hc : before.ambient.cancelled = true) :
    memoize info compute before = .error (.failed .cancelled) before := by
  refine (Act.bind_ok (Act.get_apply before)).trans ?_
  simp only [h]
  exact Act.bind_error (Act.within_apply (r := .error _) (checkCancelled_cancelled hc))

/-- A pull in a pass that was asked to stop finds the table or fails, and changes nothing. -/
theorem pull_cancelled (stage : Stage σ) (hc : before.ambient.cancelled = true) :
    (∃ table, before.pass.current.find? stage.id = some table ∧ pull stage before = .ok table before) ∨
      pull stage before = .error (.failed .cancelled) before := by
  cases hf : before.pass.current.find? stage.id with
  | some table =>
    refine .inl ⟨table, rfl, ?_⟩
    cases stage <;> exact memoize_found hf
  | none =>
    refine .inr ?_
    cases stage <;> exact memoize_cancelled hf hc

theorem leafTable_fed {same : Comparer Value} {previous : Option (Table Value)}
    {values : List Value} (hf : before.pass.fed? info.id = some values)
    (hd : Table.diffInputs previous values same = .ok table) :
    leafTable info same previous before =
      .ok table { before with pass := before.pass.consume info.id } := by
  refine (Act.bind_ok (Act.get_apply before)).trans ?_
  simp only [hf]
  have hm : modifyPass (·.consume info.id) before =
      .ok () { before with pass := before.pass.consume info.id } := rfl
  refine (Act.bind_ok hm).trans ?_
  rw [hd]
  rfl

theorem leafTable_unfed {same : Comparer Value} {previous : Option (Table Value)}
    (hf : before.pass.fed? info.id = none) :
    leafTable info same previous before = .ok ((previous.map Table.compact).getD .empty) before := by
  refine (Act.bind_ok (Act.get_apply before)).trans ?_
  simp only [hf]
  rfl

end

variable {graph : StageGraph σ} {sample : Ambient σ}
  {given : StageId → Option (Except Fault (List Value))} {previous : PassTables}
  {before : Evaluation σ}

/-- It is enough to compute the stages that have no table yet. -/
theorem pulled_of_computed {stage : Stage σ} (hm : graph.Has stage)
    (hs : graph.Sound sample given previous before.pass) (hc : before.ambient.cancelled = false)
    (h : before.pass.current.find? stage.id = none → ∃ r after,
      compute stage (previous.find? stage.id) before = Act.ending r after ∧
        graph.Computed sample given previous stage before r after) :
    ∃ r after, pull stage before = Act.ending r after ∧
      graph.Pulled sample given previous stage before r after := by
  rw [pull_eq]
  cases hf : before.pass.current.find? stage.id with
  | some table => exact ⟨.ok table, before, memoize_found hf, .found hs hc hf⟩
  | none =>
    obtain ⟨r, after, hx, hcomputed⟩ := h hf
    rw [← hs.baseline] at hx
    cases hcomputed with
    | @stopped why _ hp => exact ⟨.error why, after, memoize_error hf hc hx, hp⟩
    | @made table _ _ hp hy hca hprev hcur hfed =>
      exact ⟨.ok table, _, memoize_ok hf hc hx, hp.finished hm hf hy hca hprev hcur hfed⟩

theorem compute_leaf {info : StageInfo} {same : Comparer Value} (ht : same.Total)
    (hm : graph.Has (.input info same)) (hs : graph.Sound sample given previous before.pass)
    (hc : before.ambient.cancelled = false) (hf : before.pass.current.find? info.id = none) :
    ∃ r after, compute (.input info same) (previous.find? info.id) before = Act.ending r after ∧
      graph.Computed sample given previous (.input info same) before r after := by
  have hwaits : (before.pass.fed? info.id).map Except.ok = given info.id := hs.waits _ hm trivial hf
  cases hfed : before.pass.fed? info.id with
  | some values =>
    obtain ⟨table, hd⟩ := Table.diffInputs_total ht (Table.usable? (previous.find? info.id)) values
    have hg : given info.id = some (.ok values) := by rw [← hwaits, hfed, Option.map_some]
    refine ⟨.ok table, _, leafTable_fed hfed hd, .made (.refl hs hc) (.fed hg ?_) hc rfl rfl ?_⟩
    · rw [hd]
      rfl
    · intro id hne
      exact before.pass.fed?_consume_of_ne hne
  | none =>
    have hg : given info.id = none := by rw [← hwaits, hfed, Option.map_none]
    exact ⟨.ok _, before, leafTable_unfed hfed,
      .made (.refl hs hc) (.unfed hg) hc rfl rfl fun _ _ => rfl⟩

/-- Pulls of a stage do what they should in every sound pass that was not asked to stop. -/
def Pulls (graph : StageGraph σ) (sample : Ambient σ)
    (given : StageId → Option (Except Fault (List Value))) (previous : PassTables)
    (stage : Stage σ) : Prop :=
  ∀ before : Evaluation σ, graph.Sound sample given previous before.pass →
    before.ambient.cancelled = false → ∃ r after, pull stage before = Act.ending r after ∧
      graph.Pulled sample given previous stage before r after

theorem compute_map {info : StageInfo} {source : Stage σ} {transform : Transform σ}
    {same : Comparer Value} (hr : (Stage.map info source transform same).Regular)
    (hsource : Pulls graph sample given previous source)
    (hs : graph.Sound sample given previous before.pass) (hc : before.ambient.cancelled = false) :
    ∃ r after, compute (.map info source transform same) (previous.find? info.id) before =
        Act.ending r after ∧
      graph.Computed sample given previous (.map info source transform same) before r after := by
  obtain ⟨hpure, ht⟩ := hr
  have hsrc : source ∈ (Stage.map info source transform same).sources := List.mem_cons_self
  obtain ⟨rs, middle, hx, hp⟩ := hsource before hs hc
  have hprep := (StageGraph.Prepared.refl hs hc).pull hsrc hp
  cases rs with
  | error why =>
    exact ⟨_, middle, Act.bind_error hx, .stopped ((StageGraph.Prepared.refl hs hc).stopped hsrc hp)⟩
  | ok table =>
    have hfound := hp.stored table rfl
    cases hfault : table.fault with
    | some fault =>
      have hmake : Stage.mapTable info transform same (Table.usable? (previous.find? info.id)) table
          middle.ambient = Act.ending (.ok (.faulted fault)) middle.ambient := by
        unfold Stage.mapTable
        rw [hfault]
        rfl
      exact ⟨_, _, (Act.bind_ok hx).trans (onAmbient_apply hmake),
        hprep.computed (.mapFault hfound hfault) middle.ambient.memory⟩
    | none =>
      obtain ⟨r, hsteady, hwalked⟩ := Stage.mapTable_steady info hpure ht sample
        (Table.usable? (previous.find? info.id)) hfault
      obtain ⟨memory, hmake⟩ := hsteady middle.ambient hp.uncancelled
      exact ⟨_, _, (Act.bind_ok hx).trans (onAmbient_apply hmake),
        hprep.computed (.map hfound hfault hwalked.filled.formed) memory⟩

theorem compute_collect {info : StageInfo} {source : Stage σ}
    (hsource : Pulls graph sample given previous source)
    (hs : graph.Sound sample given previous before.pass) (hc : before.ambient.cancelled = false) :
    ∃ r after, compute (.collect info source) (previous.find? info.id) before =
        Act.ending r after ∧
      graph.Computed sample given previous (.collect info source) before r after := by
  have hsrc : source ∈ (Stage.collect info source).sources := List.mem_cons_self
  obtain ⟨rs, middle, hx, hp⟩ := hsource before hs hc
  have hprep := (StageGraph.Prepared.refl hs hc).pull hsrc hp
  cases rs with
  | error why =>
    exact ⟨_, middle, Act.bind_error hx, .stopped ((StageGraph.Prepared.refl hs hc).stopped hsrc hp)⟩
  | ok table =>
    have hy := Stage.collect_yields sample given previous info (hp.stored table rfl)
    exact ⟨_, _, (Act.bind_ok hx).trans (Act.ofPanic_apply _ middle),
      hprep.computed hy middle.ambient.memory⟩

theorem compute_combine {info : StageInfo} {left right : Stage σ}
    (hleft : Pulls graph sample given previous left)
    (hright : Pulls graph sample given previous right)
    (hs : graph.Sound sample given previous before.pass) (hc : before.ambient.cancelled = false) :
    ∃ r after, compute (.combine info left right) (previous.find? info.id) before =
        Act.ending r after ∧
      graph.Computed sample given previous (.combine info left right) before r after := by
  have hl : left ∈ (Stage.combine info left right).sources := List.mem_cons_self
  have hr : right ∈ (Stage.combine info left right).sources :=
    List.mem_cons_of_mem _ List.mem_cons_self
  obtain ⟨rl, first, hxl, hpl⟩ := hleft before hs hc
  have hprepl := (StageGraph.Prepared.refl hs hc).pull hl hpl
  cases rl with
  | error why =>
    exact ⟨_, first, Act.bind_error hxl, .stopped ((StageGraph.Prepared.refl hs hc).stopped hl hpl)⟩
  | ok lefts =>
    obtain ⟨rr, middle, hxr, hpr⟩ := hright first hpl.sound hpl.uncancelled
    have hprep := hprepl.pull hr hpr
    cases rr with
    | error why =>
      exact ⟨.error why, middle, (Act.bind_ok hxl).trans (Act.bind_error hxr),
        .stopped (hprepl.stopped hr hpr)⟩
    | ok rights =>
      have hy := Stage.combine_yields sample given previous info
        (hpr.within _ _ (hpl.stored lefts rfl)) (hpr.stored rights rfl)
      exact ⟨_, _, (Act.bind_ok hxl).trans ((Act.bind_ok hxr).trans (Act.ofPanic_apply _ middle)),
        hprep.computed hy middle.ambient.memory⟩

/-- A pull of a stage of a regular graph keeps the pass sound and ends with the table of the stage,
or with the panic of a stage upstream. -/
theorem pulls_of_regular (hg : graph.Regular) (stage : Stage σ) (hm : graph.Has stage) :
    Pulls graph sample given previous stage := by
  induction stage with
  | input info same =>
    intro before hs hc
    exact pulled_of_computed hm hs hc fun hf => compute_leaf (hg _ hm) hm hs hc hf
  | map info source transform same ih =>
    intro before hs hc
    have hsource := ih (graph.has_source hm List.mem_cons_self)
    exact pulled_of_computed hm hs hc fun _ => compute_map (hg _ hm) hsource hs hc
  | collect info source ih =>
    intro before hs hc
    have hsource := ih (graph.has_source hm List.mem_cons_self)
    exact pulled_of_computed hm hs hc fun _ => compute_collect hsource hs hc
  | combine info left right ihl ihr =>
    intro before hs hc
    have hleft := ihl (graph.has_source hm List.mem_cons_self)
    have hright := ihr (graph.has_source hm (List.mem_cons_of_mem _ List.mem_cons_self))
    exact pulled_of_computed hm hs hc fun _ => compute_combine hleft hright hs hc
  | custom info update => exact (hg _ hm).elim

end Evaluation

end Regen
