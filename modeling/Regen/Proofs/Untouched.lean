import Regen.Proofs.CallLog

/-!
# What a pass leaves untouched

A stage whose baseline did not fail is untouched by a pass in which no leaf upstream of it changes:
each of them is unfed, or fed values that its comparer accepts one by one in place of the old ones.
Then every table upstream is the old one with all entries unchanged, and no transform upstream is
called, whatever else is fed and pulled, and however those pulls end. The invariant says this of the
pass so far; one lemma per kind of stage shows that a pull keeps it.
-/

namespace Regen

variable {σ υ α : Type}

namespace Table

/-- A table in which nothing failed and nothing changed. -/
def AllCached (table : Table α) : Prop :=
  table.fault = none ∧ ∀ entry ∈ table.entries, entry.2 = .cached

/-- A settled table is unchanged when it is compacted. -/
theorem allCached_compact {table : Table α} (hn : table.fault = none)
    (hs : ∀ slot ∈ table.slots, slot.Settled) : table.compact.AllCached := by
  rw [AllCached, fault_compact]
  refine ⟨hn, fun entry he => ?_⟩
  rw [entries_settled ((slots_compact_settled hs).symm ▸ hs)] at he
  obtain ⟨value, -, rfl⟩ := List.mem_map.mp he
  rfl

variable {same : Comparer α}

theorem allCached_diffInputs {old table : Table α} (ho : ∀ slot ∈ old.slots, slot.Single)
    {values : List α}
    (hv : List.Forall₂ (fun new old => same new old = .ok true) values old.values)
    (h : diffInputs (some old) values same = .ok table) : table.AllCached := by
  obtain ⟨slots, hslots, rfl⟩ := diffInputs_eq_ok h
  rw [values_eq_flatMap] at hv
  obtain rfl := Except.ok.inj (hslots.symm.trans (diffSlots_accepted ho hv))
  refine ⟨rfl, fun entry he => ?_⟩
  obtain ⟨slot, hslot, he⟩ := List.mem_flatMap.mp he
  obtain ⟨before, -, rfl⟩ := List.mem_map.mp hslot
  rw [Slot.retagged, Slot.entries_uniform] at he
  obtain ⟨value, -, rfl⟩ := List.mem_map.mp he
  rfl

end Table

namespace Stage

variable {info : StageInfo} {transform : Transform υ} {same : Comparer Value}
  {ambient after : Ambient υ}

/-- Where no entry changed, the transform is not called: slots are kept, or one is missing. -/
theorem mapEntries_cached (old : Table Value) (entries : List (Value × EntryState))
    (hc : ∀ entry ∈ entries, entry.2 = .cached) {builder : TableBuilder Value}
    (hw : builder.WellFormed) {r : Except Stop (TableBuilder Value)}
    (h : mapEntries info transform same (some old) builder entries ambient = Act.ending r after) :
    after = ambient ∧ ∀ next, r = .ok next → next.fault = builder.fault := by
  induction entries generalizing builder with
  | nil =>
    obtain ⟨rfl, rfl⟩ := Act.ending_inj (r := .ok builder) h
    exact ⟨rfl, fun next he => by cases he; rfl⟩
  | cons entry rest ih =>
    obtain ⟨value, state⟩ := entry
    obtain rfl : state = .cached := hc _ List.mem_cons_self
    cases hadd : builder.addEntriesFromPrevious old .cached with
    | error panic =>
      have hentry : mapEntry info transform same (some old) builder value .cached ambient =
          .error (.panicked panic) ambient := by
        change ((Act.ofPanic (builder.addEntriesFromPrevious old .cached) >>= _) ambient) = _
        rw [hadd]
        rfl
      obtain ⟨rfl, rfl⟩ := Act.ending_inj (r := .error _) ((Act.bind_error hentry).symm.trans h)
      exact ⟨rfl, nofun⟩
    | ok next =>
      have hentry : mapEntry info transform same (some old) builder value .cached ambient =
          .ok (.ok next) ambient := by
        change ((Act.ofPanic (builder.addEntriesFromPrevious old .cached) >>= _) ambient) = _
        rw [hadd]
        rfl
      have hext : builder.ExtendsBy (observed info transform) same true (some old) value .cached
          next := TableBuilder.extends_kept hw (.inr ⟨rfl, rfl⟩) hadd
      obtain ⟨rfl, hfault⟩ := ih (fun entry hm => hc entry (List.mem_cons_of_mem _ hm))
        hext.wellFormed ((Act.bind_ok hentry).symm.trans h)
      exact ⟨rfl, fun last he => (hfault last he).trans hext.fault_eq⟩

/-- The table of a map stage over a source in which nothing changed. -/
theorem mapTable_cached {old source : Table Value} (hs : source.AllCached)
    {r : Except Stop (Table Value)}
    (h : mapTable info transform same (some old) source ambient = Act.ending r after) :
    after = ambient ∧ ∀ table, r = .ok table → table.AllCached := by
  have hmade := h
  unfold mapTable at hmade
  rw [hs.1] at hmade
  rcases Act.bind_eq_ending hmade with ⟨why, rfl, hentries⟩ | ⟨builder, middle, hentries, hpure⟩
  · obtain ⟨rfl, -⟩ := mapEntries_cached (r := .error why) old source.entries hs.2
      TableBuilder.wellFormed_empty hentries
    exact ⟨rfl, nofun⟩
  · obtain ⟨rfl, hfault⟩ := mapEntries_cached (r := .ok builder) old source.entries hs.2
      TableBuilder.wellFormed_empty hentries
    obtain ⟨rfl, rfl⟩ := Act.ending_inj (r := .ok builder.build) hpure
    refine ⟨rfl, fun table he => ?_⟩
    cases he
    refine ⟨?_, (mapTable_ok hs.1 h).unchanged hs.2⟩
    rw [TableBuilder.fault_build, hfault builder rfl]
    rfl

/-- The list of a source in which nothing changed. -/
theorem collectTable_cached {old source table : Table Value} (hs : source.AllCached)
    (h : collectTable (some old) source = .ok table) : table.AllCached := by
  have hformed := collectTable_formed (some old) hs.1
  rw [h] at hformed
  refine ⟨hformed.unfaulted fun entry _ => ⟨_, rfl⟩, hformed.laid.unchanged fun entry he => ?_⟩
  have hall : source.entries.all (·.2 == .cached) = true :=
    List.all_eq_true.mpr fun entry hm => by simp [hs.2 entry hm]
  rw [List.mem_singleton.mp he]
  simp [collectState, hall]

/-- The pairs of sources in which nothing changed. -/
theorem combineTable_cached {rightName : String} {old left right table : Table Value}
    (hl : left.AllCached) (hr : right.AllCached) {value : Value} (hv : right.liveValues = [value])
    (h : combineTable info rightName (some old) left right = .ok table) : table.AllCached := by
  obtain ⟨⟨shown, state⟩, hlive⟩ := List.length_eq_one_iff.mp
    (show (right.entries.filter (·.2.isLive)).length = 1 by
      rw [← List.length_map (f := (·.1))]
      exact congrArg List.length hv)
  obtain rfl : state = .cached :=
    hr.2 (shown, state) (List.mem_of_mem_filter (hlive ▸ List.mem_cons_self))
  have hformed := combineTable_formed info rightName (some old) hl.1 hr.1 hlive
  rw [h] at hformed
  exact ⟨hformed.unfaulted fun entry _ => ⟨_, rfl⟩, hformed.laid.unchanged hl.2⟩

end Stage

/-- A noted call leaves the calls of other stages alone. -/
theorem Logbook.noting_keeps {id other : StageId} (h : id ≠ other) (calls : List Call)
    (value : Value) (callback : Callback σ (List Value)) :
    ((noting id value callback).run Ambient.answer).Keeps
      (fun ambient => ambient.calls.filter (·.stage == other) = calls) := by
  intro ambient hcalls
  have hplain := Act.eq_ending (callback.run Ambient.answer) ambient.plain
  have hnone : [(⟨id, value, (callback.run Ambient.answer).result ambient.plain⟩ : Call)].filter
      (·.stage == other) = [] := List.filter_cons_of_neg (by simpa using h)
  rw [Act.after_of_ending (run_noting id value callback ambient hplain), Ambient.calls_logged,
    List.filter_append, hcalls, hnone, List.append_nil]

/-- The values are accepted one by one in place of those that the leaf had. -/
def AcceptedBy (previous : PassTables) (info : StageInfo) (same : Comparer Value)
    (values : List Value) : Prop :=
  ∃ old, previous.find? info.id = some old ∧
    List.Forall₂ (fun new old => same new old = .ok true) values old.values

/-- The baselines of a stage and of everything upstream did not fail. -/
def Rested (previous : PassTables) (target : Stage σ) : Prop :=
  ∀ stage, Stage.Upstream stage target →
    ∃ old, previous.find? stage.id = some old ∧ old.fault = none

/-- In the pass so far nothing upstream of a stage failed, changed or was called, and no change
waits for a leaf there. -/
structure Untouched (previous : PassTables) (target : Stage σ)
    (evaluation : Evaluation (Logbook σ)) : Prop where
  cached : ∀ stage table, Stage.Upstream stage target →
    evaluation.pass.current.find? stage.id = some table → table.AllCached
  waits : ∀ info same values, Stage.Upstream (.input info same) target →
    evaluation.pass.fed? info.id = some values → AcceptedBy previous info same values
  uncalled : ∀ stage, Stage.Upstream stage target → evaluation.callsOf stage.id = []

namespace StageGraph

variable {graph : StageGraph σ} {previous : PassTables} {target stage source : Stage σ}
  {making : Making σ} {pass : Pass} {before after : Evaluation (Logbook σ)} {table : Table Value}

theorem BaselineBy.rested (hb : graph.BaselineBy making previous) (hm : graph.Has target)
    {old : Table Value} (hold : previous.find? target.id = some old) (hn : old.fault = none) :
    Rested previous target := by
  intro stage hu
  induction hu generalizing old with
  | refl => exact ⟨old, hold, hn⟩
  | step hs _ ih =>
    obtain ⟨old, hold, hn⟩ := hb.unfaulted_source hm hs hold hn
    exact ih (graph.has_source hm hs) hold hn

/-- A table in which nothing changed holds the old entries. -/
theorem LawfulBy.entries_eq (hl : graph.LawfulBy making previous pass) (hg : graph.Builtin)
    (hb : graph.BaselineBy making previous) (hm : graph.Has stage)
    (hf : pass.current.find? stage.id = some table) (hc : table.AllCached) {old : Table Value}
    (hold : previous.find? stage.id = some old) (hn : old.fault = none) :
    table.entries = old.entries := by
  have hscript := (known_of_lawful hg hb hl stage hm table hf hc.1).script
  rw [PassTables.oldValues_eq hold hn] at hscript
  rw [hscript.eq_of_all_cached hc.2, Table.entries_settled (hb.settled stage old hm hold)]

/-- A source of a combining stage in which nothing changed still holds one value. -/
theorem BaselineBy.single_right (hb : graph.BaselineBy making previous) (hg : graph.Builtin)
    (hl : graph.LawfulBy making previous pass) {info : StageInfo} {left right : Stage σ}
    (hm : graph.Has (.combine info left right)) {old rights : Table Value}
    (hold : previous.find? info.id = some old) (hn : old.fault = none)
    (hf : pass.current.find? right.id = some rights) (hc : rights.AllCached) :
    ∃ value, rights.liveValues = [value] := by
  obtain ⟨-, before, value, -, -, hbefore, hbn, hvalue, -⟩ := hb.rests _ old hm hold hn
  have hright := graph.has_source hm (List.mem_cons_of_mem _ List.mem_cons_self)
  have hscript := (known_of_lawful hg hb hl right hright rights hf hc.1).script
  rw [PassTables.oldValues_eq hbefore hbn, hvalue] at hscript
  refine ⟨value, ?_⟩
  rw [show rights.liveValues = liveOf rights.entries from rfl, hscript.eq_of_all_cached hc.2,
    liveOf_cached]

/-- Storing the table of a stage leaves the others as they are. -/
theorem store_untouched (hm : graph.Has stage) (ht : graph.Has target)
    (h : Untouched previous target after)
    (hc : Stage.Upstream stage target → table.AllCached) :
    Untouched previous target { after with pass := after.pass.store stage.info table } := by
  refine ⟨fun other found hu hf => ?_, h.waits, h.uncalled⟩
  by_cases he : stage.id = other.id
  · obtain rfl := graph.eq_of_id hm (graph.has_of_upstream hu ht) he
    rw [Pass.current_store, show stage.id = stage.info.id from rfl,
      PassTables.find?_insert_self] at hf
    cases hf
    exact hc hu
  · rw [Pass.current_store, PassTables.find?_insert_of_ne _ _ he] at hf
    exact h.cached other found hu hf

end StageGraph

namespace Evaluation

variable {graph : StageGraph σ} {previous : PassTables} {target stage : Stage σ} {info : StageInfo}

section

variable (graph previous target stage)

/-- However a pull of the stage ends, it leaves the target untouched. -/
def PullsUntouched : Prop :=
  ∀ (before after : Evaluation (Logbook σ)) (r : Except Stop (Table Value)),
    graph.LawfulBy Stage.observed previous before.pass → Untouched previous target before →
      pull stage.logged before = Act.ending r after → Untouched previous target after

/-- However computing the table of the stage ends, it leaves the target untouched; and upstream of
the target the table is one in which nothing changed. -/
def ComputesUntouched : Prop :=
  ∀ (before after : Evaluation (Logbook σ)) (r : Except Stop (Table Value)),
    graph.LawfulBy Stage.observed previous before.pass → Untouched previous target before →
      compute stage.logged (previous.find? stage.id) before = Act.ending r after →
      Untouched previous target after ∧
        (stage.Upstream target → ∀ table, r = .ok table → table.AllCached)

end

theorem untouched_of_computes (hm : graph.Has stage) (ht : graph.Has target)
    (h : ComputesUntouched graph previous target stage) :
    PullsUntouched graph previous target stage := by
  intro before after r hl hu hx
  rw [pull_eq, Stage.info_logged] at hx
  rcases memoize_cases hx with ⟨table, -, -, rfl⟩ | ⟨-, why, -, rfl⟩ | ⟨-, made, middle, hmade, hr⟩
  · exact hu
  · exact hu
  · rw [hl.baseline] at hmade
    obtain ⟨hmiddle, hcached⟩ := h before middle made hl hu hmade
    cases made with
    | error why =>
      obtain ⟨-, rfl⟩ := hr
      exact hmiddle
    | ok table =>
      obtain ⟨-, rfl⟩ := hr
      exact StageGraph.store_untouched hm ht hmiddle fun hu => hcached hu table rfl

theorem untouched_leaf {same : Comparer Value} (hm : graph.Has (.input info same))
    (hb : graph.BaselineBy Stage.observed previous) (hrest : Rested previous target) :
    ComputesUntouched graph previous target (.input info same) := by
  intro before after r _ hu hx
  change leafTable info same (Table.usable? (previous.find? info.id)) before = _ at hx
  cases hf : before.pass.fed? info.id with
  | some values =>
    rw [leafTable_consumed hf] at hx
    obtain ⟨rfl, rfl⟩ := Act.ending_inj hx
    constructor
    · refine ⟨hu.cached, fun other same' values' hup hfed => ?_, hu.uncalled⟩
      by_cases he : info.id = other.id
      · rw [← he, Pass.fed?_consume_self] at hfed
        cases hfed
      · rw [Pass.fed?_consume_of_ne _ he] at hfed
        exact hu.waits other same' values' hup hfed
    · intro hup table he
      obtain ⟨old, hold, hn⟩ := hrest _ hup
      obtain ⟨found, hfound, haccepted⟩ := hu.waits info same values hup hf
      obtain rfl := Option.some.inj (hold.symm.trans hfound)
      rw [hfound, Table.usable?_of_unfaulted hn] at he
      exact Table.allCached_diffInputs (hb.rests _ old hm hold hn) haccepted (ok_of_mapError he)
  | none =>
    rw [leafTable_unfed hf] at hx
    obtain ⟨rfl, rfl⟩ := Act.ending_inj (r := .ok _) hx
    refine ⟨hu, fun hup table he => ?_⟩
    obtain ⟨old, hold, hn⟩ := hrest _ hup
    cases he
    rw [show previous.find? info.id = some old from hold, Table.usable?_of_unfaulted hn]
    exact Table.allCached_compact hn (hb.settled _ old hm hold)

theorem untouched_map {source : Stage σ} {transform : Transform σ} {same : Comparer Value}
    (hg : graph.Builtin) (hm : graph.Has (.map info source transform same)) (ht : graph.Has target)
    (hrest : Rested previous target) (hsource : PullsUntouched graph previous target source) :
    ComputesUntouched graph previous target (.map info source transform same) := by
  intro before after r hl hu hx
  have hmem : source ∈ (Stage.map info source transform same).sources := List.mem_cons_self
  rcases Act.bind_eq_ending hx with ⟨why, rfl, hs⟩ | ⟨sources, middle, hs, hx⟩
  · exact ⟨hsource before after (.error why) hl hu hs, fun _ => nofun⟩
  · have hmiddle := hsource before middle (.ok sources) hl hu hs
    obtain ⟨-, hfound⟩ := hl.pulled hg (graph.has_source hm hmem) (pull_plain (r := .ok sources) hs)
    obtain ⟨hmake, hpass⟩ := onAmbient_ending hx
    by_cases hup : (Stage.map info source transform same).Upstream target
    · obtain ⟨old, hold, hn⟩ := hrest _ hup
      rw [show previous.find? (Stage.map info source transform same).id = some old from hold,
        Table.usable?_of_unfaulted hn] at hmake
      have hsourceup : source.Upstream target := (Stage.Upstream.step hmem .refl).trans hup
      obtain ⟨hambient, hcached⟩ :=
        Stage.mapTable_cached (hmiddle.cached source sources hsourceup hfound) hmake
      have hafter : after = middle := by
        cases after
        simp only at hpass hambient
        rw [hpass, hambient]
      exact ⟨hafter ▸ hmiddle, fun _ => hcached⟩
    · refine ⟨⟨?_, ?_, fun other hother => ?_⟩, fun h => absurd h hup⟩
      · rw [hpass]
        exact hmiddle.cached
      · rw [hpass]
        exact hmiddle.waits
      · have hne : info.id ≠ other.id := fun he =>
          hup (graph.eq_of_id hm (graph.has_of_upstream hother ht) he ▸ hother)
        have hkeeps : (Stage.mapTable info (transform.logged info.id) same
            (Table.usable? (previous.find? info.id)) sources).Keeps
              (fun ambient => ambient.calls.filter (·.stage == other.id) = []) :=
          Stage.mapTable_keeps (Stage.applyTransform_keeps
            (fun value => Logbook.noting_keeps hne [] value (transform value)) info) same _ sources
        exact hkeeps.of_ending hmake (hmiddle.uncalled other hother)

theorem untouched_collect {source : Stage σ} (hg : graph.Builtin)
    (hm : graph.Has (.collect info source)) (hrest : Rested previous target)
    (hsource : PullsUntouched graph previous target source) :
    ComputesUntouched graph previous target (.collect info source) := by
  intro before after r hl hu hx
  have hmem : source ∈ (Stage.collect info source).sources := List.mem_cons_self
  rcases Act.bind_eq_ending hx with ⟨why, rfl, hs⟩ | ⟨sources, middle, hs, hx⟩
  · exact ⟨hsource before after (.error why) hl hu hs, fun _ => nofun⟩
  · have hmiddle := hsource before middle (.ok sources) hl hu hs
    obtain ⟨-, hfound⟩ := hl.pulled hg (graph.has_source hm hmem) (pull_plain (r := .ok sources) hs)
    rw [Act.ofPanic_apply] at hx
    obtain ⟨rfl, rfl⟩ := Act.ending_inj hx
    refine ⟨hmiddle, fun hup table he => ?_⟩
    obtain ⟨old, hold, hn⟩ := hrest _ hup
    rw [show previous.find? (Stage.collect info source).id = some old from hold,
      Table.usable?_of_unfaulted hn] at he
    have hsourceup : source.Upstream target := (Stage.Upstream.step hmem .refl).trans hup
    exact Stage.collectTable_cached (hmiddle.cached source sources hsourceup hfound)
      (ok_of_mapError he)

theorem untouched_combine {left right : Stage σ} (hg : graph.Builtin)
    (hb : graph.BaselineBy Stage.observed previous) (hm : graph.Has (.combine info left right))
    (hrest : Rested previous target) (hleft : PullsUntouched graph previous target left)
    (hright : PullsUntouched graph previous target right) :
    ComputesUntouched graph previous target (.combine info left right) := by
  intro before after r hl hu hx
  have hmeml : left ∈ (Stage.combine info left right).sources := List.mem_cons_self
  have hmemr : right ∈ (Stage.combine info left right).sources :=
    List.mem_cons_of_mem _ List.mem_cons_self
  rcases Act.bind_eq_ending hx with ⟨why, rfl, hs⟩ | ⟨lefts, first, hxl, hx⟩
  · exact ⟨hleft before after (.error why) hl hu hs, fun _ => nofun⟩
  · have hfirst := hleft before first (.ok lefts) hl hu hxl
    have hxl := pull_plain (r := .ok lefts) hxl
    obtain ⟨hlfirst, hfoundl⟩ := hl.pulled hg (graph.has_source hm hmeml) hxl
    rcases Act.bind_eq_ending hx with ⟨why, rfl, hs⟩ | ⟨rights, middle, hxr, hx⟩
    · exact ⟨hright first after (.error why) hlfirst hfirst hs, fun _ => nofun⟩
    · have hmiddle := hright first middle (.ok rights) hlfirst hfirst hxr
      have hxr := pull_plain (r := .ok rights) hxr
      obtain ⟨hlmiddle, hfoundr⟩ := hlfirst.pulled hg (graph.has_source hm hmemr) hxr
      rw [Act.ofPanic_apply] at hx
      obtain ⟨rfl, rfl⟩ := Act.ending_inj hx
      refine ⟨hmiddle, fun hup table he => ?_⟩
      obtain ⟨old, hold, hn⟩ := hrest _ hup
      have hcachedl := hfirst.cached left lefts ((Stage.Upstream.step hmeml .refl).trans hup) hfoundl
      have hcachedr :=
        hmiddle.cached right rights ((Stage.Upstream.step hmemr .refl).trans hup) hfoundr
      obtain ⟨value, hvalue⟩ := hb.single_right hg hlmiddle hm hold hn hfoundr hcachedr
      rw [show previous.find? (Stage.combine info left right).id = some old from hold,
        Table.usable?_of_unfaulted hn] at he
      exact Stage.combineTable_cached hcachedl hcachedr hvalue (ok_of_mapError he)

/-- Every pull leaves the target untouched, however it ends. -/
theorem pull_untouched (hg : graph.Builtin) (hb : graph.BaselineBy Stage.observed previous)
    (ht : graph.Has target) (hrest : Rested previous target) (stage : Stage σ)
    (hm : graph.Has stage) : PullsUntouched graph previous target stage := by
  induction stage with
  | input info same => exact untouched_of_computes hm ht (untouched_leaf hm hb hrest)
  | map info source transform same ih =>
    exact untouched_of_computes hm ht
      (untouched_map hg hm ht hrest (ih (graph.has_source hm List.mem_cons_self)))
  | collect info source ih =>
    exact untouched_of_computes hm ht
      (untouched_collect hg hm hrest (ih (graph.has_source hm List.mem_cons_self)))
  | combine info left right ihl ihr =>
    exact untouched_of_computes hm ht (untouched_combine hg hb hm hrest
      (ihl (graph.has_source hm List.mem_cons_self))
      (ihr (graph.has_source hm (List.mem_cons_of_mem _ List.mem_cons_self))))
  | custom info update => exact (hg _ hm).elim

end Evaluation

namespace PassStep

variable {graph : StageGraph σ} {previous : PassTables} {target : Stage σ}
  {before : Evaluation (Logbook σ)}

/-- Whatever leaf upstream of a stage the step feeds, it feeds what the comparer accepts. -/
def FeedsAccepted (previous : PassTables) (target : Stage σ) (step : PassStep σ) : Prop :=
  ∀ info same values, Stage.Upstream (.input info same) target → step = .feed info.id values →
    AcceptedBy previous info same values

theorem untouched_perform (hg : graph.Builtin) (hb : graph.BaselineBy Stage.observed previous)
    (ht : graph.Has target) (hrest : Rested previous target) {step : PassStep σ}
    (ho : step.Over graph) (hfeeds : step.FeedsAccepted previous target)
    (hl : graph.LawfulBy Stage.observed previous before.pass)
    (hu : Untouched previous target before) :
    graph.LawfulBy Stage.observed previous (step.performLogged before).pass ∧
      Untouched previous target (step.performLogged before) := by
  cases step with
  | feed leaf values =>
    refine ⟨⟨hl.baseline, hl.arises⟩, hu.cached, fun info same waiting hup hf => ?_, hu.uncalled⟩
    change (before.pass.addInput leaf values).fed? info.id = some waiting at hf
    rw [Pass.fed?_addInput] at hf
    split at hf
    · next he =>
      cases hf
      exact hfeeds info same values hup (by rw [he])
    · exact hu.waits info same waiting hup hf
  | disturb ambient => exact ⟨hl, hu.cached, hu.waits, hu.uncalled⟩
  | pull stage =>
    have hx := Act.eq_ending (Evaluation.pull stage.logged) before
    obtain ⟨hadv, -⟩ := Evaluation.pull_advances hg previous stage ho before.plain _ _ hl
      (Evaluation.pull_plain hx)
    exact ⟨hadv.lawful, Evaluation.pull_untouched hg hb ht hrest stage ho before _ _ hl hu hx⟩

theorem untouched_performAll (hg : graph.Builtin) (hb : graph.BaselineBy Stage.observed previous)
    (ht : graph.Has target) (hrest : Rested previous target) (steps : List (PassStep σ))
    (ho : ∀ step ∈ steps, step.Over graph)
    (hfeeds : ∀ step ∈ steps, step.FeedsAccepted previous target) (before : Evaluation (Logbook σ))
    (hl : graph.LawfulBy Stage.observed previous before.pass)
    (hu : Untouched previous target before) :
    graph.LawfulBy Stage.observed previous (performAllLogged before steps).pass ∧
      Untouched previous target (performAllLogged before steps) := by
  induction steps generalizing before with
  | nil => exact ⟨hl, hu⟩
  | cons step rest ih =>
    obtain ⟨hlawful, huntouched⟩ := untouched_perform hg hb ht hrest (ho step List.mem_cons_self)
      (hfeeds step List.mem_cons_self) hl hu
    exact ih (fun other hm => ho other (List.mem_cons_of_mem _ hm))
      (fun other hm => hfeeds other (List.mem_cons_of_mem _ hm)) _ hlawful huntouched

end PassStep

/-- Unchanged parts of a graph are untouched. After any passes and in any pass, a stage whose table
of the pass before did not fail, and upstream of which no leaf is fed anything but what its comparer
accepts in place of the old values, gets a table with the old entries, all unchanged; and neither
its transform nor one upstream of it is called in the whole pass, whatever else is fed and pulled. -/
theorem PassRun.pull_unchanged {graph : StageGraph σ} (hg : graph.Builtin) (runs : List (PassRun σ))
    (hruns : ∀ run ∈ runs, run.Over graph) (run : PassRun σ) (hrun : run.Over graph)
    {target : Stage σ} (hm : graph.Has target) {old : Table Value}
    (hold : (tables runs).find? target.id = some old) (hn : old.fault = none)
    (hfeeds : ∀ step ∈ run.steps, step.FeedsAccepted (tables runs) target) :
    (∀ table after, Evaluation.pull target (run.evaluation (tables runs)) = .ok table after →
      table.fault = none ∧ table.entries = old.entries ∧
        ∀ entry ∈ table.entries, entry.2 = .cached) ∧
    ∀ stage, Stage.Upstream stage target →
      ((Evaluation.pull target.logged).after
        (run.loggedEvaluation (tables runs))).callsOf stage.id = [] := by
  have hb := baseline_tables hg runs hruns
  have hrest := hb.rested hm hold hn
  obtain ⟨hl, hu⟩ := PassStep.untouched_performAll hg hb hm hrest run.steps hrun hfeeds
    ⟨.start (tables runs) run.trackSteps, run.ambient.logged []⟩
    (graph.lawful_start Stage.observed (tables runs) run.trackSteps)
    ⟨nofun, nofun, fun _ _ => rfl⟩
  have hlogged := Act.eq_ending (Evaluation.pull target.logged) (run.loggedEvaluation (tables runs))
  have hafter := Evaluation.pull_untouched hg hb hm hrest target hm _ _ _ hl hu hlogged
  refine ⟨fun table after hx => ?_, hafter.uncalled⟩
  have hplain := Evaluation.pull_plain hlogged
  rw [run.plain_loggedEvaluation, hx] at hplain
  obtain ⟨-, rfl⟩ := Act.ending_inj (r := .ok table) hplain
  obtain ⟨hlafter, hfound⟩ := (lawful_evaluation hg hrun (tables runs)).pulled hg hm hx
  have hcached := hafter.cached target table .refl hfound
  exact ⟨hcached.1, hlafter.entries_eq hg hb hm hfound hcached hold hn, hcached.2⟩

namespace TwoStages

def others : Stage Unit :=
  .leaf ⟨⟨2⟩, "others"⟩

/-- A stage that reads a second leaf beside the derived values. -/
def paired (transform : Transform Unit) : Stage Unit :=
  .combine ⟨⟨3⟩, "paired"⟩ (derived transform) others

def pairedStages (transform : Transform Unit) : StageGraph Unit where
  Has stage := stage = numbers ∨ stage = derived transform ∨ stage = others ∨
    stage = paired transform
  has_source hm hs := by
    rcases hm with rfl | rfl | rfl | rfl
    · cases hs
    · exact .inl (List.mem_singleton.mp hs)
    · cases hs
    · rcases List.mem_cons.mp hs with rfl | hs
      · exact .inr (.inl rfl)
      · exact .inr (.inr (.inl (List.mem_singleton.mp hs)))
  eq_of_id hm ho he := by
    rcases hm with rfl | rfl | rfl | rfl <;> rcases ho with rfl | rfl | rfl | rfl <;>
      first | rfl | cases he

theorem builtin_paired (transform : Transform Unit) : (pairedStages transform).Builtin := by
  rintro stage (rfl | rfl | rfl | rfl) <;> trivial

/-- The pass that feeds both leaves and pulls the stage that depends on both. -/
def pairing (transform : Transform Unit) (value : Value) : PassRun Unit :=
  ⟨false, ⟨false, ()⟩,
    [.feed ⟨0⟩ [large, large], .feed ⟨2⟩ [value], .pull (paired transform)]⟩

theorem pairing_over (transform : Transform Unit) (value : Value) :
    (pairing transform value).Over (pairedStages transform) := by
  intro step hm
  simp only [pairing, List.mem_cons, List.not_mem_nil, or_false] at hm
  rcases hm with rfl | rfl | rfl
  · trivial
  · trivial
  · exact .inr (.inr (.inr rfl))

theorem eq_numbers_of_upstream {transform : Transform Unit} {info : StageInfo}
    {same : Comparer Value} (h : Stage.Upstream (.input info same) (derived transform)) :
    Stage.input info same = numbers := by
  cases h with
  | step hs hu =>
    cases List.mem_singleton.mp hs
    cases hu with
    | refl => rfl
    | step hs _ => cases hs

/-- The leaf behind the derived values is fed what it held before. -/
theorem pairing_feedsAccepted : ∀ step ∈ (pairing twice small).steps,
    step.FeedsAccepted (PassRun.tables [pairing twice large]) (derived twice) := by
  rintro step hm info same values hu rfl
  cases eq_numbers_of_upstream hu
  simp only [pairing, List.mem_cons, List.not_mem_nil, or_false] at hm
  rcases hm with he | he | he
  · cases he
    exact ⟨_, rfl, .cons rfl (.cons rfl .nil)⟩
  · cases he
  · cases he

end TwoStages

open TwoStages in
/-- The other leaf changes, so that the stage that reads both is made anew; the derived values are
kept, and their transform is not called. -/
theorem PassRun.pull_unchanged_pairing :
    let previous := tables [pairing twice large]
    ∃ old table after, previous.find? ⟨1⟩ = some old ∧
      Evaluation.pull (derived twice) ((pairing twice small).evaluation previous) =
        .ok table after ∧
      table.entries = old.entries ∧ table.entries.length = 4 ∧
      ((Evaluation.pull (derived twice).logged).after
        ((pairing twice small).loggedEvaluation previous)).callsOf ⟨1⟩ = [] := by
  have hruns : ∀ run ∈ [pairing twice large], run.Over (pairedStages twice) :=
    fun run hm => List.mem_singleton.mp hm ▸ pairing_over twice large
  have hm : (pairedStages twice).Has (derived twice) := .inr (.inl rfl)
  obtain ⟨htable, hcalls⟩ := pull_unchanged (builtin_paired twice) _ hruns (pairing twice small)
    (pairing_over twice small) hm rfl rfl pairing_feedsAccepted
  obtain ⟨-, hentries, -⟩ := htable _ _ rfl
  exact ⟨_, _, _, rfl, rfl, hentries, rfl, hcalls _ .refl⟩

end Regen
