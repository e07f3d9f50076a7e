import Regen.Proofs.CallLog

/-!
# How often transforms are called

A pass in which every pull returns calls the transforms of its map stages as seldom as it can. The
transform of a map stage is called when the stage gets its table, and only then: once for each entry
of its source that is new or changed, in order, and where the stage has no table of the pass before,
once for each live entry; the first call that does not return is the last one. A stage that was
pulled once is not computed again, and one that no pulled stage reads is not computed at all.
Callbacks may do what they like, and nothing is asked of the baseline.
-/

namespace Regen

variable {σ υ : Type}

/-- Whether a transform is called for an entry: where it is new or changed, and without a table of
the pass before wherever it is live. -/
def EntryState.isDue (fresh : Bool) : EntryState → Bool
  | .added => true
  | .modified => true
  | .cached => fresh
  | .removed => false

/-- The values that the transform of a stage is called on, unless a call does not return. -/
def Stage.dueValues (previous : Option (Table Value)) (entries : List (Value × EntryState)) :
    List Value :=
  (entries.filter (·.2.isDue previous.isNone)).map (·.1)

/-- The calls of a stage go through some values in order, one call for each, up to the first one
that does not return; then its fault is the fault of the stage. -/
inductive CallsThrough (info : StageInfo) : List Value → List Call → Option Fault → Prop
  | done : CallsThrough info [] [] none
  | returned {value values rest calls fault} : CallsThrough info rest calls fault →
      CallsThrough info (value :: rest) (⟨info.id, value, .ok values⟩ :: calls) fault
  | failed {value why rest} :
      CallsThrough info (value :: rest) [⟨info.id, value, .error why⟩]
        (some (Stage.transformFault info why))

/-- The calls that come with the table of a map stage: none when its source failed. -/
inductive CalledFor (previous current : PassTables) (info : StageInfo) (source : StageId)
    (table : Table Value) : List Call → Prop
  | blocked {sources fault} : current.find? source = some sources → sources.fault = some fault →
      table.fault = some fault → CalledFor previous current info source table []
  | through {sources calls} : current.find? source = some sources → sources.fault = none →
      CallsThrough info (Stage.dueValues (Table.usable? (previous.find? info.id)) sources.entries)
        calls table.fault →
      CalledFor previous current info source table calls

theorem CallsThrough.stage_eq {info : StageInfo} {values : List Value} {calls : List Call}
    {fault : Option Fault} (h : CallsThrough info values calls fault) :
    ∀ call ∈ calls, call.stage = info.id := by
  induction h with
  | done => intro call hm; cases hm
  | returned _ ih =>
    intro call hm
    rcases List.mem_cons.mp hm with rfl | hm
    · rfl
    · exact ih call hm
  | failed =>
    intro call hm
    rw [List.mem_singleton.mp hm]

/-- More tables in the pass make no difference to the calls that come with a table. -/
theorem CalledFor.mono {previous current next : PassTables} {info : StageInfo} {source : StageId}
    {table : Table Value} {calls : List Call} (h : CalledFor previous current info source table calls)
    (hw : current.Within next) : CalledFor previous next info source table calls := by
  cases h with
  | blocked hf hs ht => exact .blocked (hw _ _ hf) hs ht
  | through hf hs hc => exact .through (hw _ _ hf) hs hc

theorem Evaluation.callsOf_append {before after : Evaluation (Logbook σ)} {calls : List Call}
    (h : after.ambient.calls = before.ambient.calls ++ calls) (id : StageId) :
    after.callsOf id = before.callsOf id ++ calls.filter (·.stage == id) := by
  rw [callsOf, h, List.filter_append]
  rfl

namespace Stage

theorem dueValues_cons_due {previous : Option (Table Value)} {value : Value} {state : EntryState}
    (rest : List (Value × EntryState)) (h : state.isDue previous.isNone = true) :
    dueValues previous ((value, state) :: rest) = value :: dueValues previous rest := by
  simp [dueValues, h]

theorem dueValues_cons_kept {previous : Option (Table Value)} {value : Value} {state : EntryState}
    (rest : List (Value × EntryState)) (h : state.isDue previous.isNone = false) :
    dueValues previous ((value, state) :: rest) = dueValues previous rest := by
  simp [dueValues, h]

variable {info : StageInfo} {transform : Transform σ} {same : Comparer Value}
  {previous : Option (Table Value)} {ambient after : Ambient (Logbook σ)}

/-- What becomes of one entry, with the calls made for it. -/
inductive EntryCalls (info : StageInfo) (value : Value) (due : Bool) :
    Except Fault (TableBuilder Value) → List Call → Prop
  | kept {next} : due = false → EntryCalls info value due (.ok next) []
  | returned {next values} : due = true →
      EntryCalls info value due (.ok next) [⟨info.id, value, .ok values⟩]
  | failed {why} : due = true →
      EntryCalls info value due (.error (transformFault info why)) [⟨info.id, value, .error why⟩]

/-- A transform that was started was called once. -/
theorem applyTransform_logged {value : Value} {r : Except Fault (List Value)}
    (h : applyTransform info (transform.logged info.id) value ambient = .ok r after) :
    ∃ ended, after.calls = ambient.calls ++ [⟨info.id, value, ended⟩] ∧
      r = ended.mapError (transformFault info) := by
  obtain ⟨_, checked, hcheck, h⟩ := Act.bind_eq_ok h
  obtain ⟨ended, ran, hran, h⟩ := Act.bind_eq_ok h
  have hcalls : checked.calls = ambient.calls := by
    cases hc : ambient.cancelled with
    | false =>
      rw [Evaluation.checkCancelled_apply hc] at hcheck
      cases hcheck
      rfl
    | true =>
      rw [Evaluation.checkCancelled_cancelled hc] at hcheck
      cases hcheck
  have hplain := Act.eq_ending ((transform value).run Ambient.answer) checked.plain
  have hnoted := Logbook.run_noting info.id value (transform value) checked hplain
  obtain ⟨he, hs⟩ := Act.ending_inj (hnoted.symm.trans (Act.outcome_eq_ok hran))
  rw [he] at hs
  refine ⟨ended, ?_, ?_⟩
  · cases ended <;> cases h <;> rw [← hs, Ambient.calls_logged, hcalls]
  · cases ended <;> cases h <;> rfl

/-- An entry for which the transform is called once. -/
theorem entryCalls_of_applied {value : Value} {ended : Except Stop (List Value)} {due : Bool}
    (hd : due = true) {f : List Value → Act (Ambient (Logbook σ)) (Except Fault (TableBuilder Value))}
    {r : Except Fault (TableBuilder Value)} {middle : Ambient (Logbook σ)}
    (hf : ∀ values, ended = .ok values → f values middle = .ok r after →
      after = middle ∧ ∃ next, r = .ok next)
    (h : (match ended.mapError (transformFault info) with
      | .ok values => f values
      | .error fault => pure (.error fault)) middle = .ok r after) :
    after = middle ∧ EntryCalls info value due r [⟨info.id, value, ended⟩] := by
  cases ended with
  | ok values =>
    obtain ⟨rfl, next, rfl⟩ := hf values rfl h
    exact ⟨rfl, .returned hd⟩
  | error why =>
    cases h
    exact ⟨rfl, .failed hd⟩

/-- A slot that is there is no fault. -/
theorem slot_ok {made : Except Panic (TableBuilder Value)} {r : Except Fault (TableBuilder Value)}
    (h : (do return .ok (← Act.ofPanic made) :
      Act (Ambient (Logbook σ)) (Except Fault (TableBuilder Value))) ambient = .ok r after) :
    after = ambient ∧ ∃ next, r = .ok next := by
  obtain ⟨next, middle, hnext, hpure⟩ := Act.bind_eq_ok h
  obtain ⟨-, rfl⟩ := Act.ofPanic_eq_ok hnext
  cases hpure
  exact ⟨rfl, next, rfl⟩

/-- An entry that gets a slot or fails was called for once if it was due, and else not at all. -/
theorem mapEntry_logged {builder : TableBuilder Value} {value : Value} {state : EntryState}
    {r : Except Fault (TableBuilder Value)}
    (h : mapEntry info (transform.logged info.id) same previous builder value state ambient =
      .ok r after) :
    ∃ calls, after.calls = ambient.calls ++ calls ∧
      EntryCalls info value (state.isDue previous.isNone) r calls := by
  have hadded (hd : state.isDue previous.isNone = true)
      (h : (applyTransform info (transform.logged info.id) value >>= fun
          | .ok values => pure (.ok (builder.addEntries values .added))
          | .error fault => pure (.error fault) :
        Act (Ambient (Logbook σ)) (Except Fault (TableBuilder Value))) ambient = .ok r after) :
      ∃ calls, after.calls = ambient.calls ++ calls ∧
        EntryCalls info value (state.isDue previous.isNone) r calls := by
    obtain ⟨_, middle, happly, h⟩ := Act.bind_eq_ok h
    obtain ⟨ended, hcalls, rfl⟩ := applyTransform_logged happly
    obtain ⟨rfl, hentry⟩ := entryCalls_of_applied hd
      (fun values _ h => by cases h; exact ⟨rfl, _, rfl⟩) h
    exact ⟨_, hcalls, hentry⟩
  cases previous with
  | none =>
    cases state with
    | removed =>
      cases h
      exact ⟨[], (List.append_nil _).symm, .kept rfl⟩
    | added => exact hadded rfl h
    | modified => exact hadded rfl h
    | cached => exact hadded rfl h
  | some table =>
    cases state with
    | removed =>
      obtain ⟨rfl, next, rfl⟩ := slot_ok h
      exact ⟨[], (List.append_nil _).symm, .kept rfl⟩
    | cached =>
      obtain ⟨rfl, next, rfl⟩ := slot_ok h
      exact ⟨[], (List.append_nil _).symm, .kept rfl⟩
    | added => exact hadded rfl h
    | modified =>
      obtain ⟨_, middle, happly, h⟩ := Act.bind_eq_ok h
      obtain ⟨ended, hcalls, rfl⟩ := applyTransform_logged happly
      have hd : EntryState.isDue (some table).isNone .modified = true := rfl
      obtain ⟨rfl, hentry⟩ := entryCalls_of_applied hd (fun _ _ h => slot_ok h) h
      exact ⟨_, hcalls, hentry⟩

/-- The calls for the entries of a source go through those that are due. -/
theorem mapEntries_logged (entries : List (Value × EntryState)) {builder next : TableBuilder Value}
    (hw : builder.WellFormed) (hf : builder.fault = none)
    (h : mapEntries info (transform.logged info.id) same previous builder entries ambient =
      .ok next after) :
    ∃ calls, after.calls = ambient.calls ++ calls ∧
      CallsThrough info (dueValues previous entries) calls next.fault := by
  induction entries generalizing builder ambient with
  | nil =>
    cases h
    exact ⟨[], (List.append_nil _).symm, hf ▸ .done⟩
  | cons entry rest ih =>
    obtain ⟨value, state⟩ := entry
    obtain ⟨r, middle, hr, h⟩ := Act.bind_eq_ok h
    obtain ⟨calls, hcalls, hentry⟩ := mapEntry_logged hr
    cases hentry with
    | @kept extended hd =>
      have hext := mapEntry_ok hw hr
      obtain ⟨others, hothers, hthrough⟩ := ih hext.wellFormed (hext.fault_eq.trans hf) h
      rw [dueValues_cons_kept rest hd]
      exact ⟨others, by rw [hothers, hcalls, List.append_nil], hthrough⟩
    | @returned extended values hd =>
      have hext := mapEntry_ok hw hr
      obtain ⟨others, hothers, hthrough⟩ := ih hext.wellFormed (hext.fault_eq.trans hf) h
      rw [dueValues_cons_due rest hd]
      exact ⟨_ :: others, by rw [hothers, hcalls, List.append_assoc]; rfl, .returned hthrough⟩
    | failed hd =>
      cases h
      rw [dueValues_cons_due rest hd]
      exact ⟨_, hcalls, .failed⟩

theorem mapTable_logged {source table : Table Value} (hs : source.fault = none)
    (h : mapTable info (transform.logged info.id) same previous source ambient = .ok table after) :
    ∃ calls, after.calls = ambient.calls ++ calls ∧
      CallsThrough info (dueValues previous source.entries) calls table.fault := by
  unfold mapTable at h
  rw [hs] at h
  obtain ⟨builder, last, hbuilder, h⟩ := Act.bind_eq_ok h
  cases h
  rw [TableBuilder.fault_build]
  exact mapEntries_logged source.entries TableBuilder.wellFormed_empty rfl hbuilder

/-- A stage whose source failed calls nothing. -/
theorem mapTable_blocked {source table : Table Value} {fault : Fault} {transform : Transform υ}
    {ambient after : Ambient υ} (hs : source.fault = some fault)
    (h : mapTable info transform same previous source ambient = .ok table after) :
    after = ambient ∧ table.fault = some fault := by
  unfold mapTable at h
  rw [hs] at h
  cases h
  exact ⟨rfl, rfl⟩

end Stage

namespace StageGraph

variable (graph : StageGraph σ) (previous : PassTables)

/-- A map stage without a table was not called, and the calls of one with a table are those that
come with it. -/
def Accounts (evaluation : Evaluation (Logbook σ)) : Prop :=
  ∀ info source transform same, graph.Has (.map info source transform same) →
    (evaluation.pass.current.find? info.id = none → evaluation.callsOf info.id = []) ∧
      ∀ table, evaluation.pass.current.find? info.id = some table →
        CalledFor previous evaluation.pass.current info source.id table (evaluation.callsOf info.id)

variable {graph previous} {stage : Stage σ} {table : Table Value}
  {before middle after : Evaluation (Logbook σ)} {calls : List Call}

/-- The table of a stage is stored, with the calls of its transform that came with it. -/
theorem Accounts.store (h : graph.Accounts previous middle) (hm : graph.Has stage)
    (hn : middle.pass.current.find? stage.id = none)
    (hcur : after.pass.current = middle.pass.current)
    (hcalls : after.ambient.calls = middle.ambient.calls ++ calls)
    (hof : ∀ call ∈ calls, call.stage = stage.id)
    (hown : ∀ info source transform same, stage = .map info source transform same →
      CalledFor previous middle.pass.current info source.id table calls) :
    graph.Accounts previous { after with pass := after.pass.store stage.info table } := by
  have hw : middle.pass.current.Within (after.pass.store stage.info table).current := by
    rw [Pass.current_store, hcur]
    exact PassTables.within_insert hn table
  intro info source transform same hmap
  obtain ⟨hnone, hsome⟩ := h info source transform same hmap
  have hsplit := Evaluation.callsOf_append hcalls info.id
  change ((after.pass.store stage.info table).current.find? info.id = none →
      after.callsOf info.id = []) ∧
    ∀ found, (after.pass.store stage.info table).current.find? info.id = some found →
      CalledFor previous (after.pass.store stage.info table).current info source.id found
        (after.callsOf info.id)
  rw [Pass.current_store, hcur] at hw ⊢
  by_cases he : stage.id = info.id
  · obtain rfl := graph.eq_of_id hm hmap he
    have hfilter : calls.filter (·.stage == info.id) = calls :=
      List.filter_eq_self.mpr fun call hc => beq_iff_eq.mpr (hof call hc)
    rw [hnone hn, List.nil_append, hfilter] at hsplit
    rw [hsplit, show Stage.info (.map info source transform same) = info from rfl,
      PassTables.find?_insert_self]
    refine ⟨nofun, fun found hx => ?_⟩
    cases hx
    exact (hown info source transform same rfl).mono hw
  · have hfilter : calls.filter (·.stage == info.id) = [] :=
      List.filter_eq_nil_iff.mpr fun call hc hx => he ((hof call hc).symm.trans (by simpa using hx))
    rw [hfilter, List.append_nil] at hsplit
    rw [hsplit, PassTables.find?_insert_of_ne _ _ he]
    exact ⟨hnone, fun found hx => (hsome found hx).mono hw⟩

end StageGraph

namespace Evaluation

variable {graph : StageGraph σ} {previous : PassTables} {stage : Stage σ} {info : StageInfo}

section

variable (graph previous stage)

/-- A pull of the stage that returns leaves the accounts of all stages right. -/
def PullsAccounted : Prop :=
  ∀ (before after : Evaluation (Logbook σ)) (table : Table Value),
    graph.LawfulBy Stage.observed previous before.pass → graph.Accounts previous before →
      pull stage.logged before = .ok table after → graph.Accounts previous after

/-- When computing the table of the stage returns, only its own calls are missing from the accounts
that its sources left. -/
def ComputesAccounted : Prop :=
  ∀ (before after : Evaluation (Logbook σ)) (table : Table Value),
    graph.LawfulBy Stage.observed previous before.pass → graph.Accounts previous before →
      compute stage.logged (previous.find? stage.id) before = .ok table after →
      ∃ middle calls, graph.Accounts previous middle ∧
        after.pass.current = middle.pass.current ∧
        after.ambient.calls = middle.ambient.calls ++ calls ∧
        (∀ call ∈ calls, call.stage = stage.id) ∧
        ∀ info source transform same, stage = .map info source transform same →
          CalledFor previous middle.pass.current info source.id table calls

end

theorem accounted_of_computes (hg : graph.Builtin) (hm : graph.Has stage)
    (h : ComputesAccounted graph previous stage) : PullsAccounted graph previous stage := by
  intro before after table hl ha hx
  rw [pull_eq, Stage.info_logged] at hx
  rcases memoize_cases (r := .ok table) hx with ⟨found, -, -, rfl⟩ | ⟨-, why, hr, -⟩ |
    ⟨hn, made, computed, hmade, hr⟩
  · exact ha
  · cases hr
  · rw [hl.baseline] at hmade
    cases made with
    | error why => cases hr.1
    | ok found =>
      obtain ⟨he, rfl⟩ := hr
      cases he
      obtain ⟨middle, calls, hmiddle, hcur, hcalls, hof, hown⟩ := h before computed table hl ha hmade
      have hplain := under_compute stage _ before (.ok table)
        computed hmade
      obtain ⟨hadv, -⟩ := compute_advances hg previous stage hm before.plain computed.plain
        (.ok table) hl hplain
      have hnone := hadv.find?_eq_none hm hn
      exact hmiddle.store hm (hcur ▸ hnone) hcur hcalls hof hown

theorem accounted_leaf {same : Comparer Value} :
    ComputesAccounted graph previous (.input info same) := by
  intro before after table hl ha hx
  refine ⟨before, [], ha, ?_⟩
  change leafTable info same (Table.usable? (previous.find? info.id)) before = .ok table after at hx
  cases hf : before.pass.fed? info.id with
  | some values =>
    rw [leafTable_consumed hf] at hx
    obtain ⟨-, rfl⟩ := Act.ending_inj (r := .ok table) hx.symm
    exact ⟨rfl, (List.append_nil _).symm, nofun, nofun⟩
  | none =>
    rw [leafTable_unfed hf] at hx
    cases hx
    exact ⟨rfl, (List.append_nil _).symm, nofun, nofun⟩

theorem accounted_map {source : Stage σ} {transform : Transform σ} {same : Comparer Value}
    (hg : graph.Builtin) (hm : graph.Has source) (hsource : PullsAccounted graph previous source) :
    ComputesAccounted graph previous (.map info source transform same) := by
  intro before after table hl ha hx
  obtain ⟨sources, middle, hs, hx⟩ := Act.bind_eq_ok hx
  have hmiddle := hsource before middle sources hl ha hs
  obtain ⟨-, hfound⟩ := hl.pulled hg hm (pull_plain (r := .ok sources) hs)
  obtain ⟨hmake, hpass⟩ := onAmbient_ending (r := .ok table) hx
  have hcur : after.pass.current = middle.pass.current := by rw [hpass]
  cases hfault : sources.fault with
  | some fault =>
    obtain ⟨hambient, hblocked⟩ := Stage.mapTable_blocked hfault hmake
    refine ⟨middle, [], hmiddle, hcur, ?_, nofun, fun _ _ _ _ he => ?_⟩
    · rw [hambient, List.append_nil]
    · cases he
      exact .blocked hfound hfault hblocked
  | none =>
    obtain ⟨calls, hcalls, hthrough⟩ := Stage.mapTable_logged hfault hmake
    refine ⟨middle, calls, hmiddle, hcur, hcalls, hthrough.stage_eq, fun _ _ _ _ he => ?_⟩
    cases he
    exact .through hfound hfault hthrough

theorem accounted_collect {source : Stage σ} (hsource : PullsAccounted graph previous source) :
    ComputesAccounted graph previous (.collect info source) := by
  intro before after table hl ha hx
  obtain ⟨sources, middle, hs, hx⟩ := Act.bind_eq_ok hx
  obtain ⟨-, rfl⟩ := Act.ofPanic_eq_ok hx
  exact ⟨after, [], hsource before after sources hl ha hs, rfl, (List.append_nil _).symm,
    nofun, nofun⟩

theorem accounted_combine {left right : Stage σ} (hg : graph.Builtin) (hm : graph.Has left)
    (hleft : PullsAccounted graph previous left) (hright : PullsAccounted graph previous right) :
    ComputesAccounted graph previous (.combine info left right) := by
  intro before after table hl ha hx
  obtain ⟨lefts, first, hxl, hx⟩ := Act.bind_eq_ok hx
  obtain ⟨rights, middle, hxr, hx⟩ := Act.bind_eq_ok hx
  obtain ⟨-, rfl⟩ := Act.ofPanic_eq_ok hx
  have hfirst := hleft before first lefts hl ha hxl
  obtain ⟨hlawful, -⟩ := hl.pulled hg hm (pull_plain (r := .ok lefts) hxl)
  exact ⟨after, [], hright first after rights hlawful hfirst hxr, rfl, (List.append_nil _).symm,
    nofun, nofun⟩

/-- Every pull that returns leaves the accounts right. -/
theorem pull_accounted (hg : graph.Builtin) (previous : PassTables) (stage : Stage σ)
    (hm : graph.Has stage) : PullsAccounted graph previous stage := by
  induction stage with
  | input info same => exact accounted_of_computes hg hm accounted_leaf
  | map info source transform same ih =>
    have hsource := graph.has_source hm List.mem_cons_self
    exact accounted_of_computes hg hm (accounted_map hg hsource (ih hsource))
  | collect info source ih =>
    exact accounted_of_computes hg hm
      (accounted_collect (ih (graph.has_source hm List.mem_cons_self)))
  | combine info left right ihl ihr =>
    have hleft := graph.has_source hm List.mem_cons_self
    exact accounted_of_computes hg hm (accounted_combine hg hleft (ihl hleft)
      (ihr (graph.has_source hm (List.mem_cons_of_mem _ List.mem_cons_self))))
  | custom info update => exact (hg _ hm).elim

end Evaluation

namespace StageGraph

variable {graph : StageGraph σ} {previous : PassTables} {stage source other : Stage σ}
  {table : Table Value}

/-- In a lawful pass a stage that has a table reads only stages that have one. -/
theorem LawfulBy.find?_source {making : Making σ} {pass : Pass}
    (hl : graph.LawfulBy making previous pass) (hm : graph.Has stage) (hs : source ∈ stage.sources)
    (hf : pass.current.find? stage.id = some table) :
    ∃ sources, pass.current.find? source.id = some sources := by
  cases hl.arises stage table hm hf with
  | refused => cases hs
  | fed => cases hs
  | unfed => cases hs
  | mapFault hfound => exact List.mem_singleton.mp hs ▸ ⟨_, hfound⟩
  | map hfound => exact List.mem_singleton.mp hs ▸ ⟨_, hfound⟩
  | collectFault hfound => exact List.mem_singleton.mp hs ▸ ⟨_, hfound⟩
  | collect hfound => exact List.mem_singleton.mp hs ▸ ⟨_, hfound⟩
  | combineFault hleft hright =>
    rcases List.mem_cons.mp hs with rfl | hs
    · exact ⟨_, hleft⟩
    · exact List.mem_singleton.mp hs ▸ ⟨_, hright⟩
  | combineMany hleft hright =>
    rcases List.mem_cons.mp hs with rfl | hs
    · exact ⟨_, hleft⟩
    · exact List.mem_singleton.mp hs ▸ ⟨_, hright⟩
  | combine hleft hright =>
    rcases List.mem_cons.mp hs with rfl | hs
    · exact ⟨_, hleft⟩
    · exact List.mem_singleton.mp hs ▸ ⟨_, hright⟩

theorem LawfulBy.find?_upstream {making : Making σ} {pass : Pass}
    (hl : graph.LawfulBy making previous pass) (hm : graph.Has stage) (hu : other.Upstream stage)
    (hf : pass.current.find? stage.id = some table) :
    ∃ found, pass.current.find? other.id = some found := by
  induction hu generalizing table with
  | refl => exact ⟨table, hf⟩
  | step hs _ ih =>
    obtain ⟨sources, hfound⟩ := hl.find?_source hm hs hf
    exact ih (graph.has_source hm hs) hfound

end StageGraph

namespace PassStep

section

variable (graph : StageGraph σ) (previous : PassTables)

/-- A pass after some steps in which every pull returned: the accounts are right, and the tables
that are new are those of the pulled stages and of stages upstream of them. -/
structure Counted (steps : List (PassStep σ)) (before after : Evaluation (Logbook σ)) : Prop where
  lawful : graph.LawfulBy Stage.observed previous after.pass
  accounts : graph.Accounts previous after
  within : before.pass.current.Within after.pass.current
  pulled : ∀ stage, .pull stage ∈ steps → ∃ table, after.pass.current.find? stage.id = some table
  new : ∀ id table, after.pass.current.find? id = some table →
    before.pass.current.find? id = some table ∨
      ∃ stage, .pull stage ∈ steps ∧ ∃ other : Stage σ, other.Upstream stage ∧ other.id = id

end

variable {graph : StageGraph σ} {previous : PassTables} {steps others : List (PassStep σ)}
  {before middle after : Evaluation (Logbook σ)}

theorem Counted.trans (h : Counted graph previous steps before middle)
    (h' : Counted graph previous others middle after) :
    Counted graph previous (steps ++ others) before after where
  lawful := h'.lawful
  accounts := h'.accounts
  within := h.within.trans h'.within
  pulled stage hm := by
    rcases List.mem_append.mp hm with hm | hm
    · obtain ⟨table, hf⟩ := h.pulled stage hm
      exact ⟨table, h'.within _ _ hf⟩
    · exact h'.pulled stage hm
  new id table hf := by
    rcases h'.new id table hf with hf | ⟨stage, hm, hother⟩
    · refine (h.new id table hf).imp_right fun ⟨stage, hm, hother⟩ => ?_
      exact ⟨stage, List.mem_append_left _ hm, hother⟩
    · exact .inr ⟨stage, List.mem_append_right _ hm, hother⟩

/-- A pull that returns over plain stages returns the same over logged ones. -/
theorem pull_logged {stage : Stage σ} {table : Table Value} {plain : Evaluation σ}
    (h : Evaluation.pull stage before.plain = .ok table plain) :
    ∃ after, Evaluation.pull stage.logged before = .ok table after ∧ after.plain = plain := by
  have hlogged := Act.eq_ending (Evaluation.pull stage.logged) before
  obtain ⟨hr, hs⟩ := Act.ending_inj (r := .ok table) (h.symm.trans (Evaluation.pull_plain hlogged))
  rw [← hr] at hlogged
  exact ⟨_, hlogged, hs.symm⟩

/-- One step, in which a pull returns. -/
theorem counted_perform (hg : graph.Builtin) {step : PassStep σ} (ho : step.Over graph)
    (hl : graph.LawfulBy Stage.observed previous before.pass) (ha : graph.Accounts previous before)
    (hr : ∀ stage, step = .pull stage →
      ∃ table after, Evaluation.pull stage before.plain = .ok table after) :
    Counted graph previous [step] before (step.performLogged before) := by
  cases step with
  | feed leaf values => exact ⟨⟨hl.baseline, hl.arises⟩, ha, .refl _, by simp, fun _ _ hf => .inl hf⟩
  | disturb ambient => exact ⟨hl, ha, .refl _, by simp, fun _ _ hf => .inl hf⟩
  | pull stage =>
    obtain ⟨table, plain, hx⟩ := hr stage rfl
    obtain ⟨after, hlogged, rfl⟩ := pull_logged hx
    have hafter : (PassStep.pull stage).performLogged before = after :=
      Act.after_of_ending (r := .ok table) hlogged
    obtain ⟨hadv, hstored⟩ :=
      Evaluation.pull_advances hg previous stage ho before.plain after.plain (.ok table) hl hx
    rw [hafter]
    refine ⟨hadv.lawful, Evaluation.pull_accounted hg previous stage ho before after table hl ha
      hlogged, hadv.within, fun other hm => ?_, fun id found hf => ?_⟩
    · cases List.mem_singleton.mp hm
      exact ⟨table, hstored table rfl⟩
    · refine (hadv.new id found hf).imp_right fun ⟨_, rfl, hother⟩ => ?_
      exact ⟨stage, List.mem_singleton.mpr rfl, hother⟩

theorem counted_performAll (hg : graph.Builtin) (steps : List (PassStep σ))
    (ho : ∀ step ∈ steps, step.Over graph) (before : Evaluation (Logbook σ))
    (hl : graph.LawfulBy Stage.observed previous before.pass) (ha : graph.Accounts previous before)
    (hr : AllReturn before.plain steps) :
    Counted graph previous steps before (performAllLogged before steps) := by
  induction steps generalizing before with
  | nil => exact ⟨hl, ha, .refl _, nofun, fun _ _ hf => .inl hf⟩
  | cons step rest ih =>
    have hstep := counted_perform hg (ho step List.mem_cons_self) hl ha hr.1
    have hrest : AllReturn (step.performLogged before).plain rest :=
      plain_performLogged before step ▸ hr.2
    exact hstep.trans (ih (fun other hm => ho other (List.mem_cons_of_mem _ hm)) _ hstep.lawful
      hstep.accounts hrest)

end PassStep

/-- No transform is called more often than it has to be. In a pass in which every pull returns, the
transform of a map stage that some pulled stage reads was called as its table asks for, whatever
else was pulled and how often, and the transform of any other stage was not called. -/
theorem PassRun.callsOf_of_allReturn {graph : StageGraph σ} (hg : graph.Builtin)
    (previous : PassTables) (run : PassRun σ) (ho : run.Over graph)
    (hr : PassStep.AllReturn (run.begin previous) run.steps) :
    let logged := run.loggedEvaluation previous
    logged.plain = run.evaluation previous ∧
    ∀ info source transform same, graph.Has (.map info source transform same) →
      ((∃ pulled, .pull pulled ∈ run.steps ∧
          (Stage.map info source transform same).Upstream pulled) →
        ∃ table, logged.pass.current.find? info.id = some table ∧
          CalledFor previous logged.pass.current info source.id table (logged.callsOf info.id)) ∧
      ((¬ ∃ pulled, .pull pulled ∈ run.steps ∧
          (Stage.map info source transform same).Upstream pulled) →
        logged.callsOf info.id = []) := by
  have hcounted := PassStep.counted_performAll hg run.steps ho
    ⟨.start previous run.trackSteps, run.ambient.logged []⟩
    (graph.lawful_start Stage.observed previous run.trackSteps)
    (fun _ _ _ _ _ => ⟨fun _ => rfl, nofun⟩) hr
  refine ⟨run.plain_loggedEvaluation previous, fun info source transform same hm => ?_⟩
  obtain ⟨hnone, hsome⟩ := hcounted.accounts info source transform same hm
  constructor
  · rintro ⟨pulled, hpull, hu⟩
    obtain ⟨table, hf⟩ := hcounted.pulled pulled hpull
    obtain ⟨found, hfound⟩ := hcounted.lawful.find?_upstream (ho _ hpull) hu hf
    exact ⟨found, hfound, hsome found hfound⟩
  · intro hidle
    refine hnone (Option.eq_none_iff_forall_ne_some.mpr fun table hf => ?_)
    rcases hcounted.new _ table hf with hf | ⟨pulled, hpull, other, hu, hid⟩
    · cases hf
    · obtain rfl := graph.eq_of_id hm (graph.has_of_upstream hu (ho _ hpull)) hid.symm
      exact hidle ⟨pulled, hpull, hu⟩

open TwoStages in
/-- The stage is pulled twice over a baseline with one value. The first value is kept, the call on
the second one panics, and so the third one is never called for. -/
theorem PassRun.callsOf_of_allReturn_twice :
    let run : PassRun Unit := ⟨false, ⟨false, ()⟩,
      [.feed ⟨0⟩ [large, small, large], .pull (derived twice), .pull (derived twice)]⟩
    let previous := tables [running twice [large]]
    let logged := run.loggedEvaluation previous
    ∃ table, logged.pass.current.find? ⟨1⟩ = some table ∧
      CalledFor previous logged.pass.current ⟨⟨1⟩, "derived"⟩ ⟨0⟩ table (logged.callsOf ⟨1⟩) ∧
      logged.callsOf ⟨1⟩ = [⟨⟨1⟩, small, .error (.panicked .other)⟩] := by
  intro run previous logged
  have ho : run.Over (stages twice) := by
    intro step hm
    simp only [run, List.mem_cons, List.not_mem_nil, or_false] at hm
    rcases hm with rfl | rfl | rfl
    · trivial
    · exact .inr rfl
    · exact .inr rfl
  have hr : PassStep.AllReturn (run.begin previous) run.steps := by
    refine ⟨nofun, ?_, ?_, trivial⟩
    · intro stage he
      cases he
      exact ⟨_, _, rfl⟩
    · intro stage he
      cases he
      exact ⟨_, _, rfl⟩
  obtain ⟨-, hcalls⟩ := callsOf_of_allReturn (standard pure_twice).regular.builtin previous run ho hr
  obtain ⟨table, hf, hcalled⟩ := (hcalls _ _ _ _ (.inr rfl)).1
    ⟨derived twice, List.mem_cons_of_mem _ List.mem_cons_self, .refl⟩
  exact ⟨table, hf, hcalled, rfl⟩

end Regen
