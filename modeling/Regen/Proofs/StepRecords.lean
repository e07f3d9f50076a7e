import Regen.Proofs.Compaction
import Regen.Proofs.FinishedTables

/-!
# Records of steps

A pass that tracks its steps keeps one record for each table that it makes, in the order in which the
tables are made: a stage after everything upstream of it. The counts of a record make up the entries of
the table as it was made, and those that are not removed make up the entries of the finished table. This
holds whatever pulls do on the way. Tables that are set by hand and stages that make their table on
their own are left out.
-/

namespace Regen

variable {σ : Type}

/-- A table that is new goes to the end. -/
theorem PassTables.entries_insert {tables : PassTables} {info : StageInfo} (table : Table Value)
    (h : tables.find? info.id = none) :
    (tables.insert info table).entries = tables.entries ++ [(info, table)] := by
  obtain ⟨entries⟩ := tables
  change insertEntry info table entries = entries ++ [(info, table)]
  induction entries with
  | nil => rfl
  | cons entry rest ih =>
    rw [find?, Option.map_eq_none_iff, List.find?_cons] at h
    split at h
    · cases h
    · next hne => simp [insertEntry, hne, ih (Option.map_eq_none_iff.mpr h)]

namespace StageGraph

variable (graph : StageGraph σ)

/-- Tables of stages of the graph, stored one after the other, each of them after those of the stages
that its stage reads. -/
inductive Stored : List (StageInfo × Table Value) → Prop
  | nil : Stored []
  | snoc {entries : List (StageInfo × Table Value)} {stage : Stage σ} (table : Table Value) :
      Stored entries → graph.Has stage → (∀ entry ∈ entries, entry.1.id ≠ stage.id) →
      (∀ source ∈ stage.sources, ∃ made, (source.info, made) ∈ entries) →
      Stored (entries ++ [(stage.info, table)])

variable {graph} {entries : List (StageInfo × Table Value)} {stage other : Stage σ}
  {table : Table Value}

namespace Stored

theorem exists_stage (h : graph.Stored entries) {entry : StageInfo × Table Value}
    (hm : entry ∈ entries) : ∃ stage, graph.Has stage ∧ stage.info = entry.1 := by
  induction h with
  | nil => cases hm
  | snoc table _ hstage _ _ ih =>
    rcases List.mem_append.mp hm with hm | hm
    · exact ih hm
    · cases List.mem_singleton.mp hm
      exact ⟨_, hstage, rfl⟩

theorem nodup (h : graph.Stored entries) : (entries.map (·.1.id)).Nodup := by
  induction h with
  | nil => exact List.nodup_nil
  | snoc table _ _ hnew _ ih =>
    rw [List.map_append, List.nodup_append]
    refine ⟨ih, by simp, fun id hid last hlast => ?_⟩
    obtain ⟨entry, hm, rfl⟩ := List.mem_map.mp hid
    cases List.mem_singleton.mp hlast
    exact hnew entry hm

/-- Each stored table is found under its stage. -/
theorem find?_of_mem (h : graph.Stored entries) {entry : StageInfo × Table Value}
    (hm : entry ∈ entries) : (PassTables.mk entries).find? entry.1.id = some entry.2 := by
  have hnodup := h.nodup
  clear h
  unfold PassTables.find?
  induction entries with
  | nil => cases hm
  | cons first rest ih =>
    rw [List.map_cons, List.nodup_cons] at hnodup
    rcases List.mem_cons.mp hm with rfl | hm
    · simp
    · have hne : first.1.id ≠ entry.1.id :=
        fun he => hnodup.1 (he ▸ List.mem_map_of_mem hm)
      simpa [hne] using ih hm hnodup.2

/-- A stage of the graph whose table is found was stored. -/
theorem mem_of_find? (h : graph.Stored entries) (hm : graph.Has stage)
    (hf : (PassTables.mk entries).find? stage.id = some table) : (stage.info, table) ∈ entries := by
  obtain ⟨⟨info, found⟩, hfound, rfl⟩ := Option.map_eq_some_iff.mp hf
  have hentry := List.mem_of_find?_eq_some hfound
  obtain ⟨owner, ho, rfl⟩ := h.exists_stage hentry
  have hid := List.find?_some hfound
  rw [beq_iff_eq] at hid
  obtain rfl := graph.eq_of_id ho hm hid
  exact hentry

/-- Whatever is upstream of a stored stage was stored before it. -/
theorem upstream_before (h : graph.Stored entries) (hm : graph.Has stage) (hu : other.Upstream stage)
    (hne : other ≠ stage) {index : Nat} (hi : entries[index]? = some (stage.info, table)) :
    ∃ earlier < index, ∃ made, entries[earlier]? = some (other.info, made) := by
  induction h generalizing stage table index with
  | nil => cases hi
  | @snoc entries last made hstored hlast _ hsources ih =>
    have hshift {earlier : Nat} {entry : StageInfo × Table Value}
        (he : entries[earlier]? = some entry) :
        (entries ++ [(last.info, made)])[earlier]? = some entry := by
      rw [List.getElem?_append_left (List.getElem?_eq_some_iff.mp he).1]
      exact he
    by_cases hlt : index < entries.length
    · rw [List.getElem?_append_left hlt] at hi
      obtain ⟨earlier, hlt, found, he⟩ := ih hm hu hne hi
      exact ⟨earlier, hlt, found, hshift he⟩
    · rw [List.getElem?_append_right (Nat.le_of_not_lt hlt)] at hi
      have hlen : entries.length ≤ index := Nat.le_of_not_lt hlt
      have hinfo := congrArg Prod.fst (List.mem_singleton.mp (List.mem_of_getElem? hi))
      obtain rfl := graph.eq_of_id hm hlast (congrArg StageInfo.id hinfo)
      cases hu with
      | refl => exact absurd rfl hne
      | @step source _ hs hu =>
        obtain ⟨found, hfound⟩ := hsources source hs
        obtain ⟨place, hplace⟩ := List.getElem?_of_mem hfound
        have hbound : place < entries.length := (List.getElem?_eq_some_iff.mp hplace).1
        by_cases he : other = source
        · subst he
          exact ⟨place, by omega, found, hshift hplace⟩
        · obtain ⟨earlier, hlt, first, hfirst⟩ := ih (graph.has_source hm hs) hu he hplace
          exact ⟨earlier, by omega, first, hshift hfirst⟩

end Stored

/-- The stages of the pass are stored in order, and if the pass tracks its steps there is one record
for each of them. -/
def Recorded (graph : StageGraph σ) (tracked : Bool) (pass : Pass) : Prop :=
  graph.Stored pass.current.entries ∧
    pass.steps = if tracked then
      some (pass.current.entries.map fun entry => .ofTable entry.1.name entry.2) else none

theorem lasts_recorded (graph : StageGraph σ) (previous : PassTables) (tracked : Bool) :
    graph.Lasts previous (graph.Recorded tracked) where
  consume _ _ h := h
  store pass stage table hm hl hn harises _ h := by
    obtain ⟨hstored, hsteps⟩ := h
    have hsources : ∀ source ∈ stage.sources, ∃ made, (source.info, made) ∈ pass.current.entries := by
      intro source hs
      obtain ⟨made, hfound⟩ := (hl.store hm hn harises).find?_source hm hs
        (PassTables.find?_insert_self pass.current stage.info table)
      have hne : stage.id ≠ source.id := (graph.id_ne_of_upstream hm hs .refl).symm
      rw [Pass.current_store, PassTables.find?_insert_of_ne pass.current table hne] at hfound
      exact ⟨made, hstored.mem_of_find? (graph.has_source hm hs) hfound⟩
    have hnew : ∀ entry ∈ pass.current.entries, entry.1.id ≠ stage.id := by
      intro entry hentry he
      have hfound := hstored.find?_of_mem hentry
      rw [he, hn] at hfound
      cases hfound
    have hentries : (pass.store stage.info table).current.entries =
        pass.current.entries ++ [(stage.info, table)] := PassTables.entries_insert table hn
    refine ⟨hentries ▸ hstored.snoc table hm hnew hsources, ?_⟩
    rw [hentries, List.map_append]
    change pass.steps.map (· ++ [StepRecord.ofTable stage.info.name table]) = _
    rw [hsteps]
    cases tracked <;> rfl

end StageGraph

/-- The counts of a record make up all entries of the table as it was made and, without those that are
removed, all entries of the finished table. The record of a table with a fault counts nothing. -/
structure StepRecord.Accounts (step : StepRecord) (made finished : Table Value) : Prop where
  all : step.added + step.modified + step.cached + step.removed = made.entries.length
  kept : step.added + step.modified + step.cached = finished.entries.length
  faulted : step.faulted = finished.isFaulted
  empty : step.faulted = true →
    step.added = 0 ∧ step.modified = 0 ∧ step.cached = 0 ∧ step.removed = 0

theorem StepRecord.accounts_ofTable {name : String} {table : Table Value} (h : table.Honest)
    (hf : ∀ fault, table.fault = some fault → table = .faulted fault) :
    (ofTable name table).Accounts table table.compact where
  all := table.count_all
  kept := by
    rw [Table.entries_compact_live h, List.length_map]
    exact table.count_live
  faulted := congrArg Option.isSome table.fault_compact.symm
  empty hfaulted := by
    obtain ⟨fault, hfault⟩ := Option.isSome_iff_exists.mp hfaulted
    rw [hf fault hfault]
    exact ⟨rfl, rfl, rfl, rfl⟩

namespace PassRun

variable {graph : StageGraph σ} {previous : PassTables} {run : PassRun σ}

theorem recorded (hg : graph.Builtin) (ho : run.Over graph) (previous : PassTables) :
    graph.Recorded run.trackSteps (run.evaluation previous).pass := by
  refine (graph.lasts_recorded previous run.trackSteps).performAll hg run.steps (fun _ _ _ _ h => h) ho _
    (graph.lawful_start Stage.observed previous run.trackSteps) ⟨.nil, ?_⟩
  rfl

/-- A finished table is as compacted as it says if those of the baseline are. -/
theorem honest_finish (hg : graph.Builtin) (ho : run.Over graph)
    (hold : ∀ id old, previous.find? id = some old → old.Honest) {id : StageId} {table : Table Value}
    (hf : (run.finish previous).find? id = some table) : table.Honest := by
  obtain ⟨made, hmade, rfl⟩ := PassTables.find?_compact_eq_some hf
  obtain ⟨⟨info, found⟩, hfound, rfl⟩ := Option.map_eq_some_iff.mp hmade
  obtain ⟨hstored, -⟩ := recorded hg ho previous
  obtain ⟨stage, hstage, hinfo⟩ := hstored.exists_stage (List.mem_of_find?_eq_some hfound)
  have hid := List.find?_some hfound
  rw [beq_iff_eq, ← hinfo] at hid
  subst hid
  exact Table.honest_compact
    ((lawful_evaluation hg ho previous).honest_of_honest hstage (fun old => hold stage.id old) hmade)

/-- The records of a finished pass account for what it did, over every baseline of tables that are as
compacted as they say. There is one record for each finished table, in the same order, and every stage
comes after everything upstream of it. The counts of a record make up the entries of the table that was
made, and those without the removed ones the entries of the finished table; a stage is recorded as
faulted just when its finished table is, and then nothing is counted. -/
theorem finish_accounts (hg : graph.Builtin) (previous : PassTables)
    (hold : ∀ id old, previous.find? id = some old → old.Honest) (run : PassRun σ)
    (ho : run.Over graph) (ht : run.trackSteps = true) :
    let pass := (run.evaluation previous).pass
    let tables := pass.finish.1
    let steps := pass.finish.2
    steps.length = tables.entries.length ∧ (tables.entries.map (·.1.id)).Nodup ∧
    ∀ (index : Nat) info finished, tables.entries[index]? = some (info, finished) →
      ∃ (stage : Stage σ) (made : Table Value) (step : StepRecord),
        graph.Has stage ∧ stage.info = info ∧
        pass.current.find? stage.id = some made ∧ finished = made.compact ∧
        steps[index]? = some step ∧ step.stage = stage.name ∧ step.Accounts made finished ∧
        ∀ other : Stage σ, other.Upstream stage → other ≠ stage →
          ∃ earlier < index, ∃ before, tables.entries[earlier]? = some (other.info, before) := by
  intro pass tables steps
  have hl : graph.LawfulBy Stage.observed previous pass := lawful_evaluation hg ho previous
  obtain ⟨hstored, hsteps⟩ : graph.Recorded run.trackSteps pass := recorded hg ho previous
  have htables : tables.entries =
      pass.current.entries.map fun entry => (entry.1, entry.2.compact) := rfl
  have hrecords : steps = pass.current.entries.map fun entry => .ofTable entry.1.name entry.2 := by
    rw [ht, if_pos rfl] at hsteps
    exact congrArg (Option.getD · []) hsteps
  refine ⟨?_, ?_, fun index info finished hi => ?_⟩
  · rw [hrecords, htables, List.length_map, List.length_map]
  · rw [htables, List.map_map]
    exact hstored.nodup
  · rw [htables, List.getElem?_map] at hi
    obtain ⟨⟨_, made⟩, hmade, hentry⟩ := Option.map_eq_some_iff.mp hi
    cases hentry
    have hm := List.mem_of_getElem? hmade
    obtain ⟨stage, hstage, hinfo⟩ := hstored.exists_stage hm
    cases hinfo
    have hfound : pass.current.find? stage.id = some made := hstored.find?_of_mem hm
    have hhonest := hl.honest_of_honest hstage (fun old => hold stage.id old) hfound
    refine ⟨stage, made, .ofTable stage.name made, hstage, rfl, hfound, rfl, ?_, rfl,
      StepRecord.accounts_ofTable hhonest fun fault =>
        (hl.arises stage made hstage hfound).eq_faulted, fun other hu hne => ?_⟩
    · rw [hrecords, List.getElem?_map, hmade]
      rfl
    · obtain ⟨earlier, hlt, before, hbefore⟩ := hstored.upstream_before hstage hu hne hmade
      refine ⟨earlier, hlt, before.compact, ?_⟩
      rw [htables, List.getElem?_map, hbefore]
      rfl

open TwoStages in
/-- The first pull is refused, and the second one computes two stages until the transform panics. The
stage that reads them both is recorded last. -/
theorem finish_accounts_panicked :
    let run : PassRun Unit := ⟨true, ⟨true, ()⟩,
      [.feed ⟨0⟩ [large, small], .feed ⟨2⟩ [small], .pull (paired twice), .disturb ⟨false, ()⟩,
        .pull (derived twice), .pull (paired twice)]⟩
    let pass := (run.evaluation (tables [pairing twice large])).pass
    pass.finish.2 = [⟨"numbers", 0, 1, 1, 0, false⟩, ⟨"derived", 0, 0, 0, 0, true⟩,
      ⟨"others", 0, 1, 0, 0, false⟩, ⟨"paired", 0, 0, 0, 0, true⟩] ∧
    ∃ made finished step, pass.current.find? ⟨3⟩ = some made ∧ pass.finish.2[3]? = some step ∧
      step.Accounts made finished ∧
      ∃ earlier < 3, ∃ before,
        pass.finish.1.entries[earlier]? = some ((derived twice).info, before) := by
  intro run pass
  have hruns := pairing_over twice large
  have hold : ∀ id old, (tables [pairing twice large]).find? id = some old → old.Honest :=
    fun _ _ => honest_finish (builtin_paired twice) hruns fun _ _ hf => by cases hf
  have ho : run.Over (pairedStages twice) := by
    intro step hm
    simp only [run, List.mem_cons, List.not_mem_nil, or_false] at hm
    rcases hm with rfl | rfl | rfl | rfl | rfl | rfl
    · trivial
    · trivial
    · exact .inr (.inr (.inr rfl))
    · trivial
    · exact .inr (.inl rfl)
    · exact .inr (.inr (.inr rfl))
  obtain ⟨-, -, haccounts⟩ := finish_accounts (builtin_paired twice) _ hold run ho rfl
  have hlast : (pass.finish.1.entries.map (·.1))[3]? = some (paired twice).info := by decide +kernel
  rw [List.getElem?_map] at hlast
  obtain ⟨⟨info, finished⟩, hentry, rfl⟩ := Option.map_eq_some_iff.mp hlast
  obtain ⟨stage, made, step, hstage, hinfo, hmade, -, hstep, -, hcounts, hupstream⟩ :=
    haccounts 3 _ _ hentry
  obtain rfl := (pairedStages twice).eq_of_id hstage (.inr (.inr (.inr rfl)))
    (congrArg StageInfo.id hinfo)
  exact ⟨by decide +kernel, made, _, step, hmade, hstep, hcounts,
    hupstream (derived twice) (.step List.mem_cons_self .refl) nofun⟩

end PassRun

end Regen
