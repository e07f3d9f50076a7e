import Regen.Proofs.Baseline
import Regen.Proofs.Simulation

/-!
# Pulls keep a pass lawful

A pull keeps a pass lawful whatever the callbacks of the plug-ins do: they may write memory, fail,
panic or ask the pass to stop, and comparers may panic. It also does so however it ends. What it
adds are tables of stages upstream. Stages that make their table on their own are left out.
-/

namespace Regen

variable {σ : Type}

namespace Stage

variable {info : StageInfo} {transform : Transform σ} {same : Comparer Value}
  {previous : Option (Table Value)} {ambient after : Ambient σ}

theorem applyTransform_ok {value : Value} {values : List Value}
    (h : applyTransform info transform value ambient = .ok (.ok values) after) :
    observed info transform value values := by
  obtain ⟨_, checked, -, h⟩ := Act.bind_eq_ok h
  obtain ⟨r, ran, hran, h⟩ := Act.bind_eq_ok h
  cases r with
  | ok made =>
    cases h
    exact ⟨checked, _, Act.outcome_eq_ok hran⟩
  | error why => cases h

/-- An entry that was kept, whatever the ambience. -/
theorem keepEntry_ok {makes : Value → List Value → Prop} {table : Table Value}
    {builder next : TableBuilder Value} {value : Value} {state : EntryState}
    (hw : builder.WellFormed) (hs : state = .removed ∨ state = .cached ∧ true = true)
    (h : (do return .ok (← Act.ofPanic (builder.addEntriesFromPrevious table state)) :
      Act (Ambient σ) (Except Fault (TableBuilder Value))) ambient = .ok (.ok next) after) :
    builder.ExtendsBy makes same true (some table) value state next := by
  obtain ⟨made, _, hmade, h⟩ := Act.bind_eq_ok h
  cases h
  exact TableBuilder.extends_kept hw hs (Act.ofPanic_eq_ok hmade).1

/-- An entry that got its first slot. -/
theorem addEntry_ok {builder next : TableBuilder Value} {value : Value} {state : EntryState}
    (hw : builder.WellFormed) (hl : state ≠ .removed)
    (hadd : previous.isSome = true → state = .added)
    (h : (applyTransform info transform value >>= fun
        | .ok values => pure (.ok (builder.addEntries values .added))
        | .error fault => pure (.error fault) :
      Act (Ambient σ) (Except Fault (TableBuilder Value))) ambient = .ok (.ok next) after) :
    builder.ExtendsBy (observed info transform) same true previous value state next := by
  obtain ⟨r, _, hr, h⟩ := Act.bind_eq_ok h
  cases r with
  | ok values =>
    cases h
    exact TableBuilder.extends_added hw hl (applyTransform_ok hr) hadd
  | error fault => cases h

/-- An entry whose slot was recomputed. -/
theorem recomputeEntry_ok {table : Table Value} {builder next : TableBuilder Value} {value : Value}
    (hw : builder.WellFormed)
    (h : (applyTransform info transform value >>= fun
        | .ok values => do
          return .ok (← Act.ofPanic (builder.addModifiedEntries table values same))
        | .error fault => pure (.error fault) :
      Act (Ambient σ) (Except Fault (TableBuilder Value))) ambient = .ok (.ok next) after) :
    builder.ExtendsBy (observed info transform) same true (some table) value .modified next := by
  obtain ⟨r, _, hr, h⟩ := Act.bind_eq_ok h
  cases r with
  | ok values =>
    obtain ⟨made, _, hmade, h⟩ := Act.bind_eq_ok h
    cases h
    exact TableBuilder.extends_recomputed hw (applyTransform_ok hr) (.inl rfl)
      (Act.ofPanic_eq_ok hmade).1
  | error fault => cases h

theorem mapEntry_ok {builder next : TableBuilder Value} {value : Value} {state : EntryState}
    (hw : builder.WellFormed)
    (h : mapEntry info transform same previous builder value state ambient =
      .ok (.ok next) after) :
    builder.ExtendsBy (observed info transform) same true previous value state next := by
  cases previous with
  | none =>
    have hnone : (none : Option (Table Value)).isSome = true → state = .added := fun h => by cases h
    cases state with
    | removed =>
      cases h
      exact TableBuilder.extends_skipped hw
    | cached => exact addEntry_ok hw (by decide) hnone h
    | modified => exact addEntry_ok hw (by decide) hnone h
    | added => exact addEntry_ok hw (by decide) hnone h
  | some table =>
    cases state with
    | removed => exact keepEntry_ok hw (.inl rfl) h
    | cached => exact keepEntry_ok hw (.inr ⟨rfl, rfl⟩) h
    | modified => exact recomputeEntry_ok hw h
    | added => exact addEntry_ok hw (by decide) (fun _ => rfl) h

theorem mapEntries_ok (entries : List (Value × EntryState)) {builder next : TableBuilder Value}
    (hw : builder.WellFormed)
    (h : mapEntries info transform same previous builder entries ambient = .ok next after) :
    GrownBy (observed info transform) same true previous builder entries next ∨
      ∃ fault, next.fault = some fault := by
  induction entries generalizing builder ambient with
  | nil =>
    cases h
    exact .inl (.nil _)
  | cons entry rest ih =>
    obtain ⟨value, state⟩ := entry
    obtain ⟨r, middle, hr, h⟩ := Act.bind_eq_ok h
    cases r with
    | ok extended =>
      have he := mapEntry_ok hw hr
      exact (ih he.wellFormed h).imp_left (·.cons he)
    | error fault =>
      cases h
      exact .inr ⟨fault, rfl⟩

/-- The table of a map stage whose source did not fail. -/
theorem mapTable_ok {source table : Table Value} (hs : source.fault = none)
    (h : mapTable info transform same previous source ambient = .ok table after) :
    LaidBy (observed info transform) same true previous source.entries table := by
  unfold mapTable at h
  rw [hs] at h
  obtain ⟨builder, last, hbuilder, h⟩ := Act.bind_eq_ok h
  cases h
  rcases mapEntries_ok source.entries TableBuilder.wellFormed_empty hbuilder with
    hgrown | ⟨fault, hfault⟩
  · exact hgrown.laid
  · rw [TableBuilder.build, hfault]
    exact .faulted

/-! What every call of the transform keeps, the map stage keeps, however its table ends. -/

variable {P : Ambient σ → Prop}

theorem applyTransform_keeps (h : ∀ value, ((transform value).run Ambient.answer).Keeps P)
    (info : StageInfo) (value : Value) : (applyTransform info transform value).Keeps P :=
  Act.keeps_iff_simulates.mpr <|
    applyTransform_simulates (fun _ _ hr => congrArg Ambient.cancelled hr.1) info
      (Act.keeps_iff_simulates.mp (h value))

theorem mapTable_keeps (h : ∀ value, (applyTransform info transform value).Keeps P)
    (same : Comparer Value) (previous : Option (Table Value)) (source : Table Value) :
    (mapTable info transform same previous source).Keeps P :=
  Act.keeps_iff_simulates.mpr <|
    mapTable_simulates (fun value => Act.keeps_iff_simulates.mp (h value)) same previous source

/-- Whatever the stage and the stages upstream run in the ambience keeps a property of it. -/
def Respects (P : Ambient σ → Prop) : Stage σ → Prop
  | .input .. => True
  | .map info source transform _ =>
    source.Respects P ∧ ∀ value, (applyTransform info transform value).Keeps P
  | .collect _ source => source.Respects P
  | .combine _ left right => left.Respects P ∧ right.Respects P
  | .custom _ update => ∀ old, ((update old).run Ambient.answer).Keeps P

/-- Such a stage simulates itself in one and the same ambience. -/
theorem Respects.simulates {stage : Stage σ} (h : stage.Respects P) :
    stage.Simulates (fun t s => t = s ∧ P t) stage := by
  induction stage with
  | input info same => exact .input info same
  | map info source transform same ih =>
    exact .map same (ih h.1) fun value => Act.keeps_iff_simulates.mp (h.2 value)
  | collect info source ih => exact .collect info (ih h)
  | combine info left right ihl ihr => exact .combine info (ihl h.1) (ihr h.2)
  | custom info update => exact .custom info fun old => Act.keeps_iff_simulates.mp (h old)

end Stage

namespace StageGraph

variable (graph : StageGraph σ) (previous : PassTables)

/-- A lawful pass after a pull that added tables of stages upstream of some. -/
structure Advanced (among : Stage σ → Prop) (before after : Evaluation σ) : Prop where
  lawful : graph.LawfulBy Stage.observed previous after.pass
  within : before.pass.current.Within after.pass.current
  new : ∀ id table, after.pass.current.find? id = some table →
    before.pass.current.find? id = some table ∨
      ∃ stage, among stage ∧ ∃ other : Stage σ, other.Upstream stage ∧ other.id = id

variable {graph previous}
variable {stage source : Stage σ} {table : Table Value} {before middle after : Evaluation σ}

/-- Storing a table that comes about keeps a pass lawful. -/
theorem LawfulBy.store {making : Making σ} {pass : Pass} (h : graph.LawfulBy making previous pass)
    (hm : graph.Has stage) (hn : pass.current.find? stage.id = none)
    (ha : stage.ArisesBy making previous pass.current table) :
    graph.LawfulBy making previous (pass.store stage.info table) := by
  have hw : pass.current.Within (pass.store stage.info table).current :=
    PassTables.within_insert hn table
  refine ⟨h.baseline, fun other found ho hfind => ?_⟩
  by_cases he : stage.id = other.id
  · obtain rfl := graph.eq_of_id hm ho he
    rw [Pass.current_store, show stage.id = stage.info.id from rfl,
      PassTables.find?_insert_self] at hfind
    cases hfind
    exact ha.mono hw
  · rw [Pass.current_store, PassTables.find?_insert_of_ne _ _ he] at hfind
    exact (h.arises other found ho hfind).mono hw

namespace Advanced

variable {among : Stage σ → Prop}

theorem refl (h : graph.LawfulBy Stage.observed previous before.pass) :
    graph.Advanced previous among before before :=
  ⟨h, .refl _, fun _ _ hf => .inl hf⟩

/-- Only the tables count. -/
theorem congr (h : graph.Advanced previous among before middle)
    (hp : after.pass.previous = middle.pass.previous)
    (hc : after.pass.current = middle.pass.current) : graph.Advanced previous among before after where
  lawful := ⟨hp.trans h.lawful.baseline, by rw [hc]; exact h.lawful.arises⟩
  within := by
    rw [hc]
    exact h.within
  new := by
    rw [hc]
    exact h.new

theorem mono {others : Stage σ → Prop} (h : graph.Advanced previous among before after)
    (hi : ∀ stage, among stage → ∃ reader, others reader ∧ stage.Upstream reader) :
    graph.Advanced previous others before after where
  lawful := h.lawful
  within := h.within
  new id table hf := by
    rcases h.new id table hf with hb | ⟨stage, hs, other, hu, he⟩
    · exact .inl hb
    · obtain ⟨reader, hr, hur⟩ := hi stage hs
      exact .inr ⟨reader, hr, other, hu.trans hur, he⟩

theorem trans (h : graph.Advanced previous among before middle)
    (h' : graph.Advanced previous among middle after) :
    graph.Advanced previous among before after where
  lawful := h'.lawful
  within := h.within.trans h'.within
  new id table hf := by
    rcases h'.new id table hf with hb | hnew
    · exact h.new id table hb
    · exact .inr hnew

/-- A stage is not among the tables that its sources added. -/
theorem find?_eq_none (h : graph.Advanced previous (· ∈ stage.sources) before after)
    (hm : graph.Has stage) (hn : before.pass.current.find? stage.id = none) :
    after.pass.current.find? stage.id = none := by
  cases hf : after.pass.current.find? stage.id with
  | none => rfl
  | some found =>
    rcases h.new _ _ hf with hb | ⟨source, hs, other, hu, he⟩
    · rw [hn] at hb
      cases hb
    · exact absurd he (graph.id_ne_of_upstream hm hs hu)

/-- The table of a stage is stored after its sources were pulled. -/
theorem store (h : graph.Advanced previous (· ∈ stage.sources) before after) (hm : graph.Has stage)
    (hn : before.pass.current.find? stage.id = none)
    (ha : stage.ArisesBy Stage.observed previous after.pass.current table) :
    graph.Advanced previous (· = stage) before
      { after with pass := after.pass.store stage.info table } where
  lawful := h.lawful.store hm (h.find?_eq_none hm hn) ha
  within := h.within.trans (PassTables.within_insert (h.find?_eq_none hm hn) table)
  new id found hfind := by
    by_cases he : stage.id = id
    · exact .inr ⟨stage, rfl, stage, .refl, he⟩
    · simp only [Pass.current_store] at hfind
      rw [PassTables.find?_insert_of_ne _ _ he] at hfind
      rcases h.new id found hfind with hb | ⟨source, hs, other, hu, heq⟩
      · exact .inl hb
      · exact .inr ⟨stage, rfl, other, hu.trans (.step hs .refl), heq⟩

end Advanced

end StageGraph

namespace Evaluation

variable {graph : StageGraph σ} {previous : PassTables} {stage : Stage σ} {info : StageInfo}
  {before after : Evaluation σ} {r : Except Stop (Table Value)}

/-- What an act on the ambience ends with; it leaves the pass alone. -/
theorem onAmbient_ending {α : Type} {act : Act (Ambient σ) α} {r : Except Stop α}
    (h : onAmbient act before = Act.ending r after) :
    act before.ambient = Act.ending r after.ambient ∧ after.pass = before.pass := by
  unfold onAmbient Act.within at h
  cases hact : act before.ambient <;> rw [hact] at h <;> cases r <;> cases h <;> exact ⟨rfl, rfl⟩

/-- A pull finds the table, is refused, or computes it. -/
theorem memoize_cases {compute : Option (Table Value) → Act (Evaluation σ) (Table Value)}
    (h : memoize info compute before = Act.ending r after) :
    (∃ table, before.pass.current.find? info.id = some table ∧ r = .ok table ∧ after = before) ∨
      (before.ambient.cancelled = true ∧ ∃ why, r = .error why ∧ after = before) ∨
      before.pass.current.find? info.id = none ∧ ∃ made middle,
        compute (before.pass.previous.find? info.id) before = Act.ending made middle ∧
          match made with
          | .ok table => r = .ok table ∧ after = { middle with pass := middle.pass.store info table }
          | .error why => r = .error why ∧ after = middle := by
  cases hf : before.pass.current.find? info.id with
  | some table =>
    rw [memoize_found hf] at h
    obtain ⟨rfl, rfl⟩ := Act.ending_inj (r := .ok table) h
    exact .inl ⟨table, rfl, rfl, rfl⟩
  | none =>
    refine .inr ?_
    cases hc : before.ambient.cancelled with
    | true =>
      rw [memoize_cancelled hf hc] at h
      obtain ⟨rfl, rfl⟩ := Act.ending_inj (r := .error _) h
      exact .inl ⟨rfl, _, rfl, rfl⟩
    | false =>
      refine .inr ⟨rfl, ?_⟩
      cases hx : compute (before.pass.previous.find? info.id) before with
      | ok table middle =>
        rw [memoize_ok hf hc hx] at h
        obtain ⟨rfl, rfl⟩ := Act.ending_inj (r := .ok table) h
        exact ⟨.ok table, middle, rfl, rfl, rfl⟩
      | error why middle =>
        rw [memoize_error hf hc hx] at h
        obtain ⟨rfl, rfl⟩ := Act.ending_inj (r := .error why) h
        exact ⟨.error why, middle, rfl, rfl, rfl⟩

/-- A leaf that is fed uses up its values, also where its comparer panics. -/
theorem leafTable_consumed {same : Comparer Value} {old : Option (Table Value)}
    {values : List Value} (hf : before.pass.fed? info.id = some values) :
    leafTable info same old before =
      Act.ending ((Table.diffInputs old values same).mapError .panicked)
        { before with pass := before.pass.consume info.id } := by
  refine (Act.bind_ok (Act.get_apply before)).trans ?_
  simp only [hf]
  have hm : modifyPass (·.consume info.id) before =
      .ok () { before with pass := before.pass.consume info.id } := rfl
  exact (Act.bind_ok hm).trans (Act.ofPanic_apply _ _)

/-- What the callbacks of a stage and of everything upstream keep, a pull of the stage keeps, however
it ends. -/
theorem pull_keeps {P : Ambient σ → Prop} (stage : Stage σ) (h : stage.Respects P) :
    (pull stage).Keeps fun evaluation => P evaluation.ambient :=
  (pull_simulates (fun _ _ hr => congrArg Ambient.cancelled hr.1) h.simulates).keeps
    (fun t ht => ⟨t, rfl, rfl, ht⟩) fun _ _ hr => hr.ambient.2

section

variable (graph previous stage)

/-- However a pull of the stage ends, the pass stays lawful; when it returns, the table is kept. -/
def Advances : Prop :=
  ∀ (before after : Evaluation σ) (r : Except Stop (Table Value)),
    graph.LawfulBy Stage.observed previous before.pass → pull stage before = Act.ending r after →
      graph.Advanced previous (· = stage) before after ∧
        ∀ table, r = .ok table → after.pass.current.find? stage.id = some table

/-- However computing the table of the stage ends, its sources leave the pass lawful; when it
returns, the table comes about. -/
def ComputesLawfully : Prop :=
  ∀ (before after : Evaluation σ) (r : Except Stop (Table Value)),
    graph.LawfulBy Stage.observed previous before.pass →
      compute stage (previous.find? stage.id) before = Act.ending r after →
      graph.Advanced previous (· ∈ stage.sources) before after ∧
        ∀ table, r = .ok table → stage.ArisesBy Stage.observed previous after.pass.current table

end

theorem advances_of_computes (hm : graph.Has stage) (h : ComputesLawfully graph previous stage) :
    Advances graph previous stage := by
  intro before after r hl hx
  rw [pull_eq] at hx
  rcases memoize_cases hx with ⟨table, hf, rfl, rfl⟩ | ⟨-, why, rfl, rfl⟩ | ⟨hn, made, middle, hmade, hr⟩
  · refine ⟨.refl hl, fun found he => ?_⟩
    cases he
    exact hf
  · exact ⟨.refl hl, fun _ he => by cases he⟩
  · rw [hl.baseline] at hmade
    obtain ⟨hadv, harises⟩ := h before middle made hl hmade
    cases made with
    | ok table =>
      obtain ⟨rfl, rfl⟩ := hr
      refine ⟨hadv.store hm hn (harises table rfl), fun found he => ?_⟩
      cases he
      exact PassTables.find?_insert_self _ _ _
    | error why =>
      obtain ⟨rfl, rfl⟩ := hr
      refine ⟨hadv.mono fun source hs => ⟨stage, rfl, .step hs .refl⟩, fun _ he => by cases he⟩

theorem computes_leaf {same : Comparer Value} :
    ComputesLawfully graph previous (.input info same) := by
  intro before after r hl hx
  change leafTable info same (Table.usable? (previous.find? info.id)) before = _ at hx
  cases hf : before.pass.fed? info.id with
  | some values =>
    rw [leafTable_consumed hf] at hx
    obtain ⟨rfl, rfl⟩ := Act.ending_inj hx
    exact ⟨(StageGraph.Advanced.refl hl).congr rfl rfl,
      fun table he => .fed (ok_of_mapError he)⟩
  | none =>
    rw [leafTable_unfed hf] at hx
    obtain ⟨rfl, rfl⟩ := Act.ending_inj (r := .ok _) hx
    refine ⟨.refl hl, fun table he => ?_⟩
    cases he
    exact .unfed

theorem computes_map {source : Stage σ} {transform : Transform σ} {same : Comparer Value}
    (hsource : Advances graph previous source) :
    ComputesLawfully graph previous (.map info source transform same) := by
  intro before after r hl hx
  have hmem : source ∈ (Stage.map info source transform same).sources := List.mem_cons_self
  rcases Act.bind_eq_ending hx with ⟨why, rfl, hs⟩ | ⟨sources, middle, hs, hx⟩
  · obtain ⟨hadv, -⟩ := hsource _ _ (.error why) hl hs
    exact ⟨hadv.mono fun stage he => ⟨source, hmem, he ▸ .refl⟩, fun _ he => by cases he⟩
  · obtain ⟨hadv, hstored⟩ := hsource _ _ (.ok sources) hl hs
    have hfound := hstored sources rfl
    obtain ⟨hmake, hpass⟩ := onAmbient_ending hx
    refine ⟨(hadv.mono fun stage he => ⟨source, hmem, he ▸ .refl⟩).congr (by rw [hpass])
      (by rw [hpass]), fun table he => ?_⟩
    subst he
    rw [hpass]
    cases hfault : sources.fault with
    | some fault =>
      unfold Stage.mapTable at hmake
      rw [hfault] at hmake
      obtain ⟨he, -⟩ := Act.ending_inj (r := .ok _) hmake
      cases he
      exact .mapFault hfound hfault
    | none => exact .map hfound hfault (Stage.mapTable_ok hfault hmake)

theorem computes_collect {source : Stage σ} (hsource : Advances graph previous source) :
    ComputesLawfully graph previous (.collect info source) := by
  intro before after r hl hx
  have hmem : source ∈ (Stage.collect info source).sources := List.mem_cons_self
  rcases Act.bind_eq_ending hx with ⟨why, rfl, hs⟩ | ⟨sources, middle, hs, hx⟩
  · obtain ⟨hadv, -⟩ := hsource _ _ (.error why) hl hs
    exact ⟨hadv.mono fun stage he => ⟨source, hmem, he ▸ .refl⟩, fun _ he => by cases he⟩
  · obtain ⟨hadv, hstored⟩ := hsource _ _ (.ok sources) hl hs
    have hfound := hstored sources rfl
    rw [Act.ofPanic_apply] at hx
    obtain ⟨rfl, rfl⟩ := Act.ending_inj hx
    refine ⟨hadv.mono fun stage he => ⟨source, hmem, he ▸ .refl⟩, fun table he => ?_⟩
    cases hfault : sources.fault with
    | some fault =>
      unfold Stage.collectTable at he
      rw [hfault] at he
      cases he
      exact .collectFault hfound hfault
    | none =>
      have hformed := Stage.collectTable_formed (Table.usable? (previous.find? info.id)) hfault
      change Except.mapError Stop.panicked (Stage.collectTable _ sources) = _ at he
      rw [show (Stage.collect info source).id = info.id from rfl] at he
      rw [he] at hformed
      exact .collect hfound hfault hformed.laid

theorem computes_combine {left right : Stage σ} (hleft : Advances graph previous left)
    (hright : Advances graph previous right) :
    ComputesLawfully graph previous (.combine info left right) := by
  intro before after r hl hx
  have among : ∀ source ∈ (Stage.combine info left right).sources, ∀ stage, stage = source →
      ∃ reader, reader ∈ (Stage.combine info left right).sources ∧ stage.Upstream reader :=
    fun source hs stage he => ⟨source, hs, he ▸ .refl⟩
  have hmeml : left ∈ (Stage.combine info left right).sources := List.mem_cons_self
  have hmemr : right ∈ (Stage.combine info left right).sources :=
    List.mem_cons_of_mem _ List.mem_cons_self
  rcases Act.bind_eq_ending hx with ⟨why, rfl, hs⟩ | ⟨lefts, first, hxl, hx⟩
  · obtain ⟨hadv, -⟩ := hleft _ _ (.error why) hl hs
    exact ⟨hadv.mono (among left hmeml), fun _ he => by cases he⟩
  · obtain ⟨hadvl, hstoredl⟩ := hleft _ _ (.ok lefts) hl hxl
    have hprep := hadvl.mono (among left hmeml)
    rcases Act.bind_eq_ending hx with ⟨why, rfl, hs⟩ | ⟨rights, middle, hxr, hx⟩
    · obtain ⟨hadvr, -⟩ := hright _ _ (.error why) hadvl.lawful hs
      exact ⟨hprep.trans (hadvr.mono (among right hmemr)), fun _ he => by cases he⟩
    · obtain ⟨hadvr, hstoredr⟩ := hright _ _ (.ok rights) hadvl.lawful hxr
      rw [Act.ofPanic_apply] at hx
      obtain ⟨rfl, rfl⟩ := Act.ending_inj hx
      refine ⟨hprep.trans (hadvr.mono (among right hmemr)), fun table he => ?_⟩
      have hy := Stage.combine_yields before.ambient (fun _ => none) previous info
        (hadvr.within _ _ (hstoredl lefts rfl)) (hstoredr rights rfl)
      rw [show (Stage.combine info left right).id = info.id from rfl] at he
      rw [he] at hy
      exact hy.arises.combined Stage.observed

/-- Whatever callbacks do and however a pull ends, the pass stays lawful. -/
theorem pull_advances (hg : graph.Builtin) (previous : PassTables) (stage : Stage σ)
    (hm : graph.Has stage) : Advances graph previous stage := by
  induction stage with
  | input info same => exact advances_of_computes hm computes_leaf
  | map info source transform same ih =>
    exact advances_of_computes hm (computes_map (ih (graph.has_source hm List.mem_cons_self)))
  | collect info source ih =>
    exact advances_of_computes hm (computes_collect (ih (graph.has_source hm List.mem_cons_self)))
  | combine info left right ihl ihr =>
    exact advances_of_computes hm
      (computes_combine (ihl (graph.has_source hm List.mem_cons_self))
        (ihr (graph.has_source hm (List.mem_cons_of_mem _ List.mem_cons_self))))
  | custom info update => exact (hg _ hm).elim

/-- The same of what a stage without a table computes. -/
theorem compute_advances (hg : graph.Builtin) (previous : PassTables) (stage : Stage σ)
    (hm : graph.Has stage) : ComputesLawfully graph previous stage := by
  have hsource : ∀ source ∈ stage.sources, Advances graph previous source :=
    fun source hs => pull_advances hg previous source (graph.has_source hm hs)
  cases stage with
  | input info same => exact computes_leaf
  | map info source transform same => exact computes_map (hsource source List.mem_cons_self)
  | collect info source => exact computes_collect (hsource source List.mem_cons_self)
  | combine info left right =>
    exact computes_combine (hsource left List.mem_cons_self)
      (hsource right (List.mem_cons_of_mem _ List.mem_cons_self))
  | custom info update => exact (hg _ hm).elim

end Evaluation

end Regen
