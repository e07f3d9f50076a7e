import Regen.Proofs.PassRuns
import Regen.Proofs.Recomputing

/-!
# The short cuts of stages

The doubtful evaluator pulls stages that trust nothing that is tagged as unchanged. Along a pass it
mirrors the evaluator: after every step both have the same tables and records, and a pull returns a
table in the one exactly when it returns the same table in the other. So what a stage keeps, at the
level of an entry, of a collected list or of a pair, is what it would have made anew. Transforms are
pure, and comparers accept beside itself whatever the stages may hold, as `==` does where it is
reflexive. Stages that make their table on their own are left out.
-/

namespace Regen

variable {σ α β : Type}

theorem Agree.mapError {ε ε' δ δ' : Type} {R : α → β → Prop} {f : ε → δ} {g : ε' → δ'}
    {r : Except ε α} {r' : Except ε' β} (h : Agree R r r') :
    Agree R (r.mapError f) (r'.mapError g) := by
  cases h with
  | ok h => exact .ok h
  | error => exact .error

namespace Stage

variable {info : StageInfo} {transform : Transform σ} {same : Comparer Value}
  {previous : Option (Table Value)} {source left right : Table Value}

/-- What a map stage, doubtful or not, needs to know of its table of the pass before. -/
def MapRests (image : Value → Except Fault (List Value)) (same : Comparer Value)
    (previous : Option (Table Value)) (source : Table Value) : Prop :=
  ∀ old, previous = some old → ∃ same' sources, EditScript same' sources source.entries ∧
    Fits (Made image same) sources (old.slots.map Slot.values) ∧ SelfAccepted image same sources

theorem mapTable_doubting (info : StageInfo) (hp : transform.Pure) (ht : same.Total)
    (sample : Ambient σ)
    (hold : source.fault = none → MapRests (image info transform sample) same previous source) :
    ∃ r r', (mapTable info transform same previous source).Steady r ∧
      (mapTable info transform same previous (doubting previous source)).Steady r' ∧
      Agree Eq r r' := by
  cases hf : source.fault with
  | some fault =>
    have hfaulted : ∀ other : Table Value, other.fault = some fault →
        mapTable info transform same previous other = pure (.faulted fault) := by
      intro other ho
      unfold mapTable
      rw [ho]
    have hdoubting : (doubting previous source).fault = some fault := by
      cases previous <;> exact hf
    rw [hfaulted source hf, hfaulted _ hdoubting]
    exact ⟨_, _, Act.steady_pure _, Act.steady_pure _, .refl _⟩
  | none =>
    obtain ⟨r, hr, hw⟩ := mapTable_steady info hp ht sample previous hf
    cases previous with
    | none => exact ⟨_, _, hr, hr, .refl _⟩
    | some old =>
      obtain ⟨r', hr', hw'⟩ := mapTable_steady info hp ht sample (some old)
        (show source.doubted.fault = none from hf)
      obtain ⟨same', sources, hs, hfits, hself⟩ := hold hf old rfl
      rw [Table.entries_doubted] at hw'
      refine ⟨_, _, hr, hr', hw.build_doubted hw' hs hfits (fun _ => ⟨rfl, hself⟩) ?_⟩
      rintro ⟨value, _⟩ hm rfl
      obtain ⟨slot, new, hnew, -⟩ := hfits.exists_of_mem (hs.mem_of_cached hm)
      exact ⟨new, hnew⟩

/-- On a baseline with one slot for the whole list, a collecting stage makes its list anew for
nothing. -/
theorem collectTable_eq (hold : source.fault = none → ∀ old, previous = some old →
      ∃ same olds kept, EditScript same olds source.entries ∧ old.slots.map Slot.values = [[kept]] ∧
        Comparer.equality.Kept (Value.list olds) kept ∧
        Comparer.equality (Value.list olds) (Value.list olds) = .ok true) :
    recollectTable previous source = collectTable previous source := by
  unfold collectTable recollectTable
  cases hf : source.fault with
  | some fault => rfl
  | none =>
    cases previous with
    | none => rfl
    | some old =>
      obtain ⟨same, olds, kept, hs, hslots, hkept, hself⟩ := hold hf old rfl
      by_cases hc : source.entries.all (·.2 == .cached) = true
      · have hall : ∀ entry ∈ source.entries, entry.2 = .cached := by
          intro entry he
          simpa using List.all_eq_true.mp hc entry he
        have hlive : source.liveValues = olds := by
          rw [show source.liveValues = liveOf source.entries from rfl, hs.eq_of_all_cached hall,
            liveOf_cached]
        obtain ⟨slot, hone, hvalues⟩ : ∃ slot, old.slots = [slot] ∧ slot.values = [kept] := by
          match hslot : old.slots with
          | [] => simp [hslot] at hslots
          | [slot] => exact ⟨slot, rfl, by simpa [hslot] using hslots⟩
          | _ :: _ :: _ => simp [hslot] at hslots
        have ha : (.empty : TableBuilder Value).ahead (some old) = [slot] := by
          rw [TableBuilder.ahead_empty, Option.map_some, Option.getD_some, hone]
        simp only [hc, if_true]
        have hone : List.Forall₂ Comparer.equality.Kept [.list olds] slot.values :=
          hvalues ▸ .cons hkept .nil
        rw [hlive, TableBuilder.addModifiedEntries_kept ha hone (List.forall_mem_singleton.mpr hself)]
      · simp only [hc]
        rfl

theorem filter_doubt (entries : List (Value × EntryState)) :
    (doubt entries).filter (·.2.isLive) = doubt (entries.filter (·.2.isLive)) := by
  rw [doubt, List.filter_map]
  refine congrArg (List.map _) (List.filter_congr fun entry _ => ?_)
  exact entry.2.isLive_doubted

/-- What a combining stage, doubtful or not, needs to know of its table of the pass before: a right
value that is unchanged is the one that the slots were made with. -/
def CombineRests (previous : Option (Table Value)) (left right : Table Value) : Prop :=
  ∀ old, previous = some old → ∀ value state,
    right.entries.filter (·.2.isLive) = [(value, state)] →
    ∃ same sources oldValue, EditScript same sources left.entries ∧
      Fits (Made (pairWith oldValue) Comparer.equality) sources (old.slots.map Slot.values) ∧
      (state = .cached → oldValue = value ∧ SelfAccepted (pairWith value) Comparer.equality sources)

theorem combineTable_doubting (info : StageInfo) (rightName : String)
    (hold : left.fault = none → right.fault = none → CombineRests previous left right) :
    Agree Eq (combineTable info rightName previous left right)
      (combineTable info rightName previous (doubting previous left) (doubting previous right)) := by
  cases previous with
  | none => exact .refl _
  | some old =>
    change Agree Eq (combineTable info rightName (some old) left right)
      (combineTable info rightName (some old) left.doubted right.doubted)
    unfold combineTable
    rw [show left.doubted.fault = left.fault from rfl, show right.doubted.fault = right.fault from rfl,
      Table.entries_doubted, Table.entries_doubted, filter_doubt]
    cases hf : left.fault.or right.fault with
    | some fault => exact .refl _
    | none =>
      obtain ⟨hlf, hrf⟩ := Option.or_eq_none_iff.mp hf
      match hv : right.entries.filter (·.2.isLive) with
      | [] =>
        rw [hv]
        exact .refl _
      | [(value, state)] =>
        obtain ⟨same, sources, oldValue, hs, hfits, hcached⟩ := hold hlf hrf old rfl value state hv
        have hw := combineEntries_walked (some old) value state left.entries
          TableBuilder.wellFormed_empty
        have hw' := combineEntries_walked (some old) value state.doubted (doubt left.entries)
          TableBuilder.wellFormed_empty
        have hagree := hw.build_doubted hw' hs hfits
          (fun hc => (hcached (by simpa using hc)).imp_left fun he => by rw [he]) fun _ _ _ => ⟨_, rfl⟩
        rw [hv]
        change Agree Eq
          (combineEntries (some old) value state .empty left.entries >>= fun b => pure b.build)
          (combineEntries (some old) value state.doubted .empty (doubt left.entries) >>=
            fun b => pure b.build)
        cases hx : combineEntries (some old) value state .empty left.entries <;>
          cases hx' : combineEntries (some old) value state.doubted .empty (doubt left.entries) <;>
          rw [hx, hx'] at hagree <;> cases hagree
        · exact .error
        · next h => exact .ok h
      | first :: second :: rest =>
        rw [hv]
        have hlength : (doubt (first :: second :: rest)).length = (first :: second :: rest).length :=
          List.length_map _
        exact .ok (congrArg (fun found => Table.faulted (notSingle info rightName found)) hlength.symm)

end Stage

namespace Evaluation

variable {before before' : Evaluation σ} {info : StageInfo} {stage source left right : Stage σ}

/-- How a doubtful stage computes its table when it has none yet. -/
def recompute : Stage σ → Option (Table Value) → Act (Evaluation σ) (Table Value)
  | .input info same, previous => leafTable info same (Table.usable? previous)
  | .map info source transform same, previous => do
    let sourceTable ← repull source
    onAmbient (Stage.mapTable info transform same (Table.usable? previous)
      (Stage.doubting (Table.usable? previous) sourceTable))
  | .collect _ source, previous => do
    let sourceTable ← repull source
    Act.ofPanic (Stage.recollectTable (Table.usable? previous) sourceTable)
  | .combine info left right, previous => do
    let leftTable ← repull left
    let rightTable ← repull right
    Act.ofPanic (Stage.combineTable info right.name (Table.usable? previous)
      (Stage.doubting (Table.usable? previous) leftTable)
      (Stage.doubting (Table.usable? previous) rightTable))
  | .custom _ update, previous => onAmbient ((update previous).run Ambient.answer)

theorem repull_eq (stage : Stage σ) : repull stage = memoize stage.info (recompute stage) := by
  cases stage <;> rfl

/-- Two passes at the same point; only the memory of the plug-ins may differ. -/
structure Alike (before before' : Evaluation σ) : Prop where
  pass : before.pass = before'.pass
  cancelled : before.ambient.cancelled = before'.ambient.cancelled

/-- Both acts return the same or both stop, in passes that are alike again and were not asked to
stop meanwhile. -/
def Mirrored (act act' : Act (Evaluation σ) α) (before before' : Evaluation σ) : Prop :=
  ∃ r r' after after', act before = Act.ending r after ∧ act' before' = Act.ending r' after' ∧
    Agree Eq r r' ∧ after.Alike after' ∧ after.ambient.cancelled = before.ambient.cancelled

theorem Mirrored.bind {act act' : Act (Evaluation σ) α} {f f' : α → Act (Evaluation σ) β}
    (h : Mirrored act act' before before')
    (hf : ∀ a after after', act before = .ok a after → after.Alike after' →
      after.ambient.cancelled = before.ambient.cancelled → Mirrored (f a) (f' a) after after') :
    Mirrored (act >>= f) (act' >>= f') before before' := by
  obtain ⟨r, r', after, after', hx, hx', hagree, ha, hc⟩ := h
  cases hagree with
  | @ok a _ he =>
    subst he
    obtain ⟨r, r', last, last', hy, hy', hagree, ha', hc'⟩ := hf a after after' hx ha hc
    exact ⟨r, r', last, last', (Act.bind_ok hx).trans hy, (Act.bind_ok hx').trans hy', hagree, ha',
      hc'.trans hc⟩
  | error =>
    exact ⟨_, _, after, after', Act.bind_error hx, Act.bind_error hx', .error, ha, hc⟩

theorem mirrored_ofPanic {r r' : Except Panic α} (h : Agree Eq r r') (ha : before.Alike before') :
    Mirrored (Act.ofPanic r) (Act.ofPanic r') before before' :=
  ⟨_, _, _, _, Act.ofPanic_apply r before, Act.ofPanic_apply r' before', h.mapError, ha, rfl⟩

theorem mirrored_onAmbient {act act' : Act (Ambient σ) α} {r r' : Except Stop α}
    (h : act.Steady r) (h' : act'.Steady r') (hagree : Agree Eq r r') (ha : before.Alike before')
    (hc : before.ambient.cancelled = false) :
    Mirrored (onAmbient act) (onAmbient act') before before' := by
  obtain ⟨memory, hx⟩ := h before.ambient hc
  obtain ⟨memory', hx'⟩ := h' before'.ambient (ha.cancelled.symm.trans hc)
  exact ⟨r, r', _, _, onAmbient_apply hx, onAmbient_apply hx', hagree, ⟨ha.pass, ha.cancelled⟩, rfl⟩

theorem mirrored_leafTable (info : StageInfo) (same : Comparer Value) (old : Option (Table Value))
    (ha : before.Alike before') :
    Mirrored (leafTable info same old) (leafTable info same old) before before' := by
  cases hf : before.pass.fed? info.id with
  | some values =>
    exact ⟨_, _, _, _, leafTable_consumed hf, leafTable_consumed (ha.pass ▸ hf), .refl _,
      ⟨congrArg (Pass.consume · info.id) ha.pass, ha.cancelled⟩, rfl⟩
  | none =>
    exact ⟨.ok _, .ok _, _, _, leafTable_unfed hf, leafTable_unfed (ha.pass ▸ hf), .ok rfl, ha, rfl⟩

/-- What is computed alike is stored alike. -/
theorem mirrored_memoize {compute compute' : Option (Table Value) → Act (Evaluation σ) (Table Value)}
    (ha : before.Alike before')
    (h : before.ambient.cancelled = false → Mirrored (compute (before.pass.previous.find? info.id))
      (compute' (before.pass.previous.find? info.id)) before before') :
    Mirrored (memoize info compute) (memoize info compute') before before' := by
  cases hf : before.pass.current.find? info.id with
  | some table =>
    exact ⟨.ok table, .ok table, before, before', memoize_found hf, memoize_found (ha.pass ▸ hf),
      .ok rfl, ha, rfl⟩
  | none =>
    have hf' : before'.pass.current.find? info.id = none := ha.pass ▸ hf
    cases hc : before.ambient.cancelled with
    | true =>
      exact ⟨.error _, .error _, before, before', memoize_cancelled hf hc,
        memoize_cancelled hf' (ha.cancelled.symm.trans hc), .error, ha, rfl⟩
    | false =>
      have hc' : before'.ambient.cancelled = false := ha.cancelled.symm.trans hc
      obtain ⟨r, r', after, after', hx, hx', hagree, hafter, hkept⟩ := h hc
      rw [ha.pass] at hx'
      cases hagree with
      | @ok table _ he =>
        subst he
        exact ⟨.ok table, .ok table, _, _, memoize_ok hf hc hx, memoize_ok hf' hc' hx', .ok rfl,
          ⟨congrArg (Pass.store · info table) hafter.pass, hafter.cancelled⟩, hkept⟩
      | error =>
        exact ⟨.error _, .error _, after, after', memoize_error hf hc hx, memoize_error hf' hc' hx',
          .error, hafter, hkept⟩

section

variable {graph : StageGraph σ} {typing : graph.Typing} {previous : PassTables}

/-- A doubtful pull of the stage mirrors a pull of it in every lawful pass. -/
def Mirrors (graph : StageGraph σ) (previous : PassTables) (stage : Stage σ) : Prop :=
  ∀ before before' : Evaluation σ, graph.LawfulBy Stage.observed previous before.pass →
    before.Alike before' → Mirrored (pull stage) (repull stage) before before'

theorem mirrors_of_computes
    (h : ∀ before before' : Evaluation σ, graph.LawfulBy Stage.observed previous before.pass →
      before.Alike before' → before.ambient.cancelled = false →
      Mirrored (compute stage (previous.find? stage.id)) (recompute stage (previous.find? stage.id))
        before before') : Mirrors graph previous stage := by
  intro before before' hl ha
  rw [pull_eq, repull_eq]
  refine mirrored_memoize ha fun hc => ?_
  rw [hl.baseline]
  exact h before before' hl ha hc

/-- In a lawful pass the table of a source is an edit script on its table of the pass before. -/
theorem script_of_lawful (hg : graph.Builtin) (hb : graph.BaselineBy Stage.observed previous)
    {pass : Pass} (hl : graph.LawfulBy Stage.observed previous pass) (hm : graph.Has source)
    {sources old : Table Value} (hf : pass.current.find? source.id = some sources)
    (hn : sources.fault = none) (hold : previous.find? source.id = some old) (hon : old.fault = none) :
    EditScript source.comparer old.values sources.entries := by
  rw [← PassTables.oldValues_eq hold hon]
  exact (StageGraph.known_of_lawful hg hb hl source hm sources hf hn).script

theorem mirrors_map (hg : graph.Regular) (hb : graph.BaselineBy Stage.observed previous)
    (hrefl : typing.Reflexive) (hcovers : typing.Covers previous)
    {transform : Transform σ} {same : Comparer Value}
    (hm : graph.Has (.map info source transform same)) (hsource : Mirrors graph previous source) :
    Mirrors graph previous (.map info source transform same) := by
  refine mirrors_of_computes fun before before' hl ha hc => ?_
  have hgb := hg.builtin
  have hms := graph.has_source hm List.mem_cons_self
  obtain ⟨hpure, htotal⟩ : transform.Pure ∧ same.Total := hg _ hm
  refine (hsource before before' hl ha).bind fun sources after after' hx ha' hc' => ?_
  obtain ⟨hl', hf⟩ := hl.pulled hgb hms hx
  have hrests : sources.fault = none → Stage.MapRests (Stage.image info transform before.ambient)
      same (Table.usable? (previous.find? info.id)) sources := by
    intro hn old hu
    obtain ⟨hold, hon⟩ := Table.usable?_eq_some hu
    obtain ⟨earlier, hearlier, hen, hfits⟩ := hb.rests _ old hm hold hon
    refine ⟨_, _, script_of_lawful hgb hb hl' hms hf hn hearlier hen, hfits.imp ?_, ?_⟩
    · rintro value slot ⟨new, hnew, hkept⟩
      have hmakes : Stage.sampled before.ambient info transform value new :=
        Stage.sampled_of_observed hpure hnew before.ambient
      exact ⟨new, hmakes, hkept⟩
    · intro value hv new hnew made hmade
      exact hrefl _ made hm (fun h => h) (typing.made hm (hcovers source earlier hms hearlier value hv)
        (Stage.observed_of_sampled hnew) made hmade)
  obtain ⟨r, r', hr, hr', hagree⟩ := Stage.mapTable_doubting info hpure htotal before.ambient hrests
  exact mirrored_onAmbient hr hr' hagree ha' (hc'.trans hc)

theorem mirrors_collect (hg : graph.Builtin) (hb : graph.BaselineBy Stage.observed previous)
    (hrefl : typing.Reflexive) (hcovers : typing.Covers previous)
    (hm : graph.Has (.collect info source)) (hsource : Mirrors graph previous source) :
    Mirrors graph previous (.collect info source) := by
  refine mirrors_of_computes fun before before' hl ha _ => ?_
  have hms := graph.has_source hm List.mem_cons_self
  refine (hsource before before' hl ha).bind fun sources after after' hx ha' _ => ?_
  obtain ⟨hl', hf⟩ := hl.pulled hg hms hx
  have hsame : Stage.recollectTable (Table.usable? (previous.find? info.id)) sources =
      Stage.collectTable (Table.usable? (previous.find? info.id)) sources := by
    refine Stage.collectTable_eq fun hn old hu => ?_
    obtain ⟨hold, hon⟩ := Table.usable?_eq_some hu
    obtain ⟨earlier, kept, hearlier, hen, hslots, hkept⟩ := hb.rests _ old hm hold hon
    refine ⟨_, _, kept, script_of_lawful hg hb hl' hms hf hn hearlier hen, hslots, hkept, ?_⟩
    exact hrefl _ _ hm (fun h => h) (typing.gathered hm (hcovers source earlier hms hearlier))
  change Mirrored (Act.ofPanic (Stage.collectTable (Table.usable? (previous.find? info.id)) sources))
    (Act.ofPanic (Stage.recollectTable (Table.usable? (previous.find? info.id)) sources)) after after'
  rw [hsame]
  exact mirrored_ofPanic (.refl _) ha'

theorem mirrors_combine (hg : graph.Builtin) (hb : graph.BaselineBy Stage.observed previous)
    (hrefl : typing.Reflexive) (hcovers : typing.Covers previous)
    (hm : graph.Has (.combine info left right)) (hleft : Mirrors graph previous left)
    (hright : Mirrors graph previous right) : Mirrors graph previous (.combine info left right) := by
  refine mirrors_of_computes fun before before' hl ha _ => ?_
  have hml := graph.has_source hm List.mem_cons_self
  have hmr := graph.has_source hm (List.mem_cons_of_mem _ List.mem_cons_self)
  refine (hleft before before' hl ha).bind fun lefts first first' hxl ha _ => ?_
  obtain ⟨hl, hfl⟩ := hl.pulled hg hml hxl
  refine (hright first first' hl ha).bind fun rights after after' hxr ha' _ => ?_
  obtain ⟨hl', hfr⟩ := hl.pulled hg hmr hxr
  have hfl' : after.pass.current.find? left.id = some lefts :=
    (pull_advances hg previous right hmr first after (.ok rights) hl hxr).1.within _ _ hfl
  refine mirrored_ofPanic (Stage.combineTable_doubting info right.name ?_) ha'
  intro hln hrn old hu value state hv
  obtain ⟨hold, hon⟩ := Table.usable?_eq_some hu
  obtain ⟨oldLefts, oldRights, oldValue, hol, holn, hor, horn, hvalue, hfits⟩ :=
    hb.rests _ old hm hold hon
  refine ⟨_, _, oldValue, script_of_lawful hg hb hl' hml hfl' hln hol holn, hfits, fun hc => ?_⟩
  have hs := script_of_lawful hg hb hl' hmr hfr hrn hor horn
  have hmem : (value, EntryState.cached) ∈ rights.entries :=
    hc ▸ List.mem_of_mem_filter (hv ▸ List.mem_cons_self)
  rw [hvalue] at hs
  obtain rfl := List.mem_singleton.mp (hs.mem_of_cached hmem)
  refine ⟨rfl, fun read hread new hnew => ?_⟩
  cases hnew
  have hother := hcovers right oldRights hmr hor value (hvalue ▸ List.mem_cons_self)
  exact List.forall_mem_singleton.mpr (hrefl _ _ hm (fun h => h)
    (typing.paired hm (hcovers left oldLefts hml hol read hread) hother))

/-- Whatever a doubtful stage does not keep, it makes the same table. -/
theorem mirrors (hg : graph.Regular) (hb : graph.BaselineBy Stage.observed previous)
    (hrefl : typing.Reflexive) (hcovers : typing.Covers previous)
    (stage : Stage σ) (hm : graph.Has stage) : Mirrors graph previous stage := by
  have hgb := hg.builtin
  induction stage with
  | input info same =>
    exact mirrors_of_computes fun before before' _ ha _ => mirrored_leafTable info same _ ha
  | map info source transform same ih =>
    exact mirrors_map hg hb hrefl hcovers hm (ih (graph.has_source hm List.mem_cons_self))
  | collect info source ih =>
    exact mirrors_collect hgb hb hrefl hcovers hm (ih (graph.has_source hm List.mem_cons_self))
  | combine info left right ihl ihr =>
    exact mirrors_combine hgb hb hrefl hcovers hm (ihl (graph.has_source hm List.mem_cons_self))
      (ihr (graph.has_source hm (List.mem_cons_of_mem _ List.mem_cons_self)))
  | custom info update => exact (hgb _ hm).elim

/-- Steps that pull doubtfully mirror those that do not. -/
theorem Alike.performAll (hg : graph.Regular) (hb : graph.BaselineBy Stage.observed previous)
    (hrefl : typing.Reflexive) (hcovers : typing.Covers previous)
    (steps : List (PassStep σ)) (ho : ∀ step ∈ steps, step.Over graph)
    (hl : graph.LawfulBy Stage.observed previous before.pass) (ha : before.Alike before') :
    (PassStep.performAll pull before steps).Alike (PassStep.performAll repull before' steps) := by
  induction steps generalizing before before' with
  | nil => exact ha
  | cons step rest ih =>
    have hstep := ho step List.mem_cons_self
    obtain ⟨hl', -⟩ := hl.perform hg.builtin hstep
    refine ih (fun other hm => ho other (List.mem_cons_of_mem _ hm)) hl' ?_
    cases step with
    | feed leaf values => exact ⟨congrArg (Pass.addInput · leaf values) ha.pass, ha.cancelled⟩
    | disturb ambient => exact ⟨ha.pass, rfl⟩
    | pull stage =>
      obtain ⟨r, r', after, after', hx, hx', -, hafter, -⟩ :=
        mirrors hg hb hrefl hcovers stage hstep before before' hl ha
      simp only [PassStep.perform]
      rw [Act.after_of_ending hx, Act.after_of_ending hx']
      exact hafter

end

end Evaluation

/-- The pass when everything was done, with doubtful pulls. -/
def PassRun.reevaluation (run : PassRun σ) (previous : PassTables) : Evaluation σ :=
  PassStep.performAll Evaluation.repull (run.begin previous) run.steps

/-- The short cuts agree with recomputing where comparers accept beside itself whatever the stages
may hold. After any passes that feed what leaves may hold and in any pass, a pull of a stage returns
a table exactly when a doubtful pull in the doubtful pass returns it, with the same slots, tags and
fault; and the two passes hold the same tables and records. -/
theorem pull_iff_repull {graph : StageGraph σ} (hg : graph.Regular) {typing : graph.Typing}
    (hrefl : typing.Reflexive) (runs : List (PassRun σ)) (hruns : ∀ run ∈ runs, run.Over graph)
    (hfed : ∀ run ∈ runs, run.Admitted typing) (run : PassRun σ) (hrun : run.Over graph)
    {stage : Stage σ} (hm : graph.Has stage) :
    (∀ table, (∃ after, Evaluation.pull stage (run.evaluation (PassRun.tables runs)) = .ok table after) ↔
      ∃ after, Evaluation.repull stage (run.reevaluation (PassRun.tables runs)) = .ok table after) ∧
    (run.evaluation (PassRun.tables runs)).pass = (run.reevaluation (PassRun.tables runs)).pass := by
  have hgb := hg.builtin
  have hb := PassRun.baseline_tables hgb runs hruns
  have hcovers := PassRun.covers_tables hgb runs hruns hfed
  have halike : (run.evaluation (PassRun.tables runs)).Alike (run.reevaluation (PassRun.tables runs)) :=
    Evaluation.Alike.performAll hg hb hrefl hcovers run.steps hrun
      (graph.lawful_start Stage.observed (PassRun.tables runs) run.trackSteps) ⟨rfl, rfl⟩
  obtain ⟨r, r', after, after', hx, hx', hagree, -, -⟩ :=
    Evaluation.mirrors hg hb hrefl hcovers stage hm _ _ (PassRun.lawful_evaluation hgb hrun _) halike
  refine ⟨fun table => ?_, halike.pass⟩
  rw [hx, hx']
  cases hagree with
  | ok he => rw [he]; simp
  | error => simp

open TwoStages in
/-- Of three values one stays, one changes and one goes: the doubtful stage computes the one that
stays again and makes the same table. -/
theorem pull_iff_repull_twice :
    let changed := Value.pair large small
    let runs := [[large, large, large]].map (running twice)
    ∃ table after after', Evaluation.pull (derived twice)
        ((running twice [large, changed]).evaluation (PassRun.tables runs)) = .ok table after ∧
      Evaluation.repull (derived twice)
        ((running twice [large, changed]).reevaluation (PassRun.tables runs)) = .ok table after' ∧
      table.entries = [(large, .cached), (large, .cached), (changed, .modified), (changed, .modified),
        (large, .removed), (large, .removed)] := by
  have hm : (stages twice).Has (derived twice) := .inr rfl
  have hrefl : (strict strict_twice).Reflexive := by
    rintro stage value (rfl | rfl) hreads hv
    · exact (hreads trivial).elim
    · exact congrArg Except.ok ((hv value).mpr rfl)
  have hlarge : ∀ value ∈ [large, large, large], (strict strict_twice).Holds ⟨0⟩ value := by
    intro value hm
    obtain rfl : value = large := by simpa using hm
    exact strict_large
  have hfed : ∀ run ∈ [[large, large, large]].map (running twice), run.Admitted (strict strict_twice) :=
    List.forall_mem_singleton.mpr (admitted_running hlarge)
  obtain ⟨hiff, -⟩ := pull_iff_repull (standard pure_twice).regular hrefl
    ([[large, large, large]].map (running twice)) (running_over_all twice _) hfed
    (running twice [large, .pair large small]) (running_over twice _) hm
  obtain ⟨after', hx'⟩ := (hiff _).mp ⟨_, rfl⟩
  exact ⟨_, _, after', rfl, hx', rfl⟩

namespace TwoStages

/-- A double that is not a number. -/
def notNumber : Value := .data (.double 0x7ff8000000000000)

/-- No number, of every value. -/
def voiding : Transform Unit :=
  fun _ => .done [notNumber]

end TwoStages

open TwoStages in
/-- Fed the same value again, the stage keeps what is no number, and the doubtful one takes it for
modified. -/
theorem repull_modifies_notNumber :
    (stages voiding).Standard ∧
    ∃ table after table' after',
      Evaluation.pull (derived voiding)
        ((running voiding [large]).evaluation (PassRun.tables [running voiding [large]])) =
          .ok table after ∧
      Evaluation.repull (derived voiding)
        ((running voiding [large]).reevaluation (PassRun.tables [running voiding [large]])) =
          .ok table' after' ∧
      table.entries = [(notNumber, .cached)] ∧ table'.entries = [(notNumber, .modified)] :=
  ⟨standard fun _ => Callback.pure_done _, _, _, _, _, rfl, rfl, rfl, rfl⟩

end Regen
