import Regen.Proofs.PassRuns

/-!
# Replaying the tags of a stage

The tags of a table tell a consumer everything: entry by entry they go through the values of the
baseline, so that a consumer that reads them in every pass holds the live values of the stage. The
comparers may accept whatever they like, and the transforms need not be pure. After a pass in which
the stage has no table or a fault, the consumer starts anew, as the stage does.
-/

namespace Regen

variable {σ α : Type}

/-- What an entry that was not added says about the old value in its place. -/
def Retells (same : Comparer α) (entry : α × EntryState) (old : α) : Prop :=
  match entry.2 with
  | .added => False
  | .removed | .cached => entry.1 = old
  | .modified => same entry.1 old = .ok false

/-- The values of a consumer that held some and reads the tags. It keeps its own value where an
entry is unchanged, and it is lost where the entries do not go through its values one by one. -/
def replay : List α → List (α × EntryState) → Option (List α)
  | [], [] => some []
  | _ :: _, [] => none
  | held, (value, state) :: rest =>
    match state, held with
    | .added, held => (replay held rest).map (value :: ·)
    | .removed, _ :: held => replay held rest
    | .modified, _ :: held => (replay held rest).map (value :: ·)
    | .cached, old :: held => (replay held rest).map (old :: ·)
    | _, [] => none

namespace EditScript

variable {same : Comparer α} {olds : List α} {entries : List (α × EntryState)}

/-- The entries that were not added tell of the old values, one by one and in order. -/
theorem retells (h : EditScript same olds entries) :
    List.Forall₂ (Retells same) (entries.filter (·.2 != .added)) olds := by
  induction h with
  | nil => exact .nil
  | added value _ ih => exact ih
  | removed value _ ih => exact .cons rfl ih
  | modified new old hs _ ih => exact .cons hs ih
  | cached value _ ih => exact .cons rfl ih

theorem replay_eq (h : EditScript same olds entries) : replay olds entries = some (liveOf entries) := by
  induction h with
  | nil => rfl
  | added value _ ih => simp [replay, ih, liveOf_cons, EntryState.isLive]
  | removed value _ ih => simp [replay, ih, liveOf_cons, EntryState.isLive]
  | modified new old _ _ ih => simp [replay, ih, liveOf_cons, EntryState.isLive]
  | cached value _ ih => simp [replay, ih, liveOf_cons, EntryState.isLive]

end EditScript

/-- A compacted table holds the entries that were not removed. -/
theorem Table.entries_compact {table : Table α} (h : table.Honest) :
    table.compact.entries = (table.entries.filter (·.2 != .removed)).map (·.1, .cached) := by
  rw [entries_compact_live h, liveValues, List.map_map]
  rfl

namespace PassRun

/-- What a consumer holds after a pass: it reads the tags of the table, and without a usable one it
starts anew. -/
def follow (held : Option (List Value)) (table : Option (Table Value)) : Option (List Value) :=
  match Table.usable? table with
  | some table => held.bind (replay · table.entries)
  | none => some []

/-- What a consumer of the stage holds after some more passes. -/
def heldAfter (stage : Stage σ) :
    PassTables → Option (List Value) → List (PassRun σ) → Option (List Value)
  | _, held, [] => held
  | previous, held, run :: rest =>
    heldAfter stage (run.finish previous)
      (follow held ((run.evaluation previous).pass.current.find? stage.id)) rest

/-- What a consumer that starts with nothing holds after some passes. -/
def held (stage : Stage σ) (runs : List (PassRun σ)) : Option (List Value) :=
  heldAfter stage .empty (some []) runs

variable {graph : StageGraph σ} {previous : PassTables} {stage : Stage σ}

/-- A consumer that holds the values of the baseline holds those of the next one. -/
theorem follow_finish (hg : graph.Builtin) (hb : graph.BaselineBy Stage.observed previous)
    {run : PassRun σ} (ho : run.Over graph) (hm : graph.Has stage) :
    follow (some (previous.oldValues stage.id))
        ((run.evaluation previous).pass.current.find? stage.id) =
      some ((run.finish previous).oldValues stage.id) := by
  have hl := lawful_evaluation hg ho previous
  have hfinish : (run.finish previous).find? stage.id =
      ((run.evaluation previous).pass.current.find? stage.id).map Table.compact :=
    PassTables.find?_compact _ _
  unfold follow PassTables.oldValues
  rw [hfinish]
  cases hf : (run.evaluation previous).pass.current.find? stage.id with
  | none => rfl
  | some table =>
    cases hn : table.fault with
    | some fault => simp [Table.usable?, Option.filter, Table.isFaulted, hn]
    | none =>
      have hknown := StageGraph.known_of_lawful hg hb hl stage hm table hf hn
      rw [Table.usable?_of_unfaulted hn, Option.map_some,
        Table.usable?_of_unfaulted ((Table.fault_compact table).trans hn), Option.map_some,
        Option.getD_some, Table.values_compact hknown.honest]
      exact hknown.script.replay_eq

theorem heldAfter_eq (hg : graph.Builtin) (hm : graph.Has stage) (runs : List (PassRun σ))
    (ho : ∀ run ∈ runs, run.Over graph) (previous : PassTables)
    (hb : graph.BaselineBy Stage.observed previous) :
    heldAfter stage previous (some (previous.oldValues stage.id)) runs =
      some ((runs.foldl (fun tables run => run.finish tables) previous).oldValues stage.id) := by
  induction runs generalizing previous with
  | nil => rfl
  | cons run rest ih =>
    have hrun := ho run List.mem_cons_self
    rw [heldAfter, follow_finish hg hb hrun hm]
    exact ih (fun other hmem => ho other (List.mem_cons_of_mem _ hmem)) _
      (hb.finish hg (lawful_evaluation hg hrun previous))

/-- A consumer that follows a stage holds the values of its baseline. -/
theorem held_eq (hg : graph.Builtin) (hm : graph.Has stage) (runs : List (PassRun σ))
    (ho : ∀ run ∈ runs, run.Over graph) : held stage runs = some ((tables runs).oldValues stage.id) :=
  heldAfter_eq hg hm runs ho .empty (graph.baselineBy_empty Stage.observed)

end PassRun

section

variable {graph : StageGraph σ} {stage : Stage σ} {table : Table Value} {after : Evaluation σ}

/-- The table of a pull is found in the finished pass, whatever is done in between. -/
theorem PassRun.find?_finished (hg : graph.Builtin) {previous : PassTables}
    (hl : graph.LawfulBy Stage.observed previous after.pass)
    (hf : after.pass.current.find? stage.id = some table) (more : List (PassStep σ))
    (ho : ∀ step ∈ more, step.Over graph) :
    (PassStep.performAll Evaluation.pull after more).pass.finish.1.find? stage.id =
      some table.compact := by
  obtain ⟨-, hwithin⟩ := hl.performAll hg more ho after
  rw [Pass.finish, PassTables.find?_compact, hwithin _ _ hf, Option.map_some]

/-- The tags of an unfaulted table are an exact account of what became of the stage's values. Its
entries that were not added tell of the values of the baseline, one by one and in order; the
baseline of the next pass holds exactly the entries that were not removed; and a consumer that read
the tags of the stage in all passes before and reads these holds the live values. -/
theorem pull_retells (hg : graph.Builtin) (runs : List (PassRun σ))
    (hruns : ∀ run ∈ runs, run.Over graph) (run : PassRun σ) (hrun : run.Over graph)
    (hm : graph.Has stage)
    (hx : Evaluation.pull stage (run.evaluation (PassRun.tables runs)) = .ok table after)
    (hn : table.fault = none) :
    (∀ old, (PassRun.tables runs).find? stage.id = some old → old.fault = none →
      List.Forall₂ (Retells stage.comparer) (table.entries.filter (·.2 != .added)) old.values) ∧
    (∀ more : List (PassStep σ), (∀ step ∈ more, step.Over graph) → ∃ finished,
      (PassStep.performAll Evaluation.pull after more).pass.finish.1.find? stage.id =
        some finished ∧ finished.fault = none ∧
      finished.entries = (table.entries.filter (·.2 != .removed)).map (·.1, .cached)) ∧
    (PassRun.held stage runs).bind (replay · table.entries) = some table.liveValues := by
  have hb := PassRun.baseline_tables hg runs hruns
  obtain ⟨hl, hf⟩ :=
    (PassRun.lawful_evaluation hg hrun (PassRun.tables runs)).pulled hg hm hx
  have hknown := StageGraph.known_of_lawful hg hb hl stage hm table hf hn
  refine ⟨fun old hold hon => ?_, fun more hmore => ?_, ?_⟩
  · rw [← PassTables.oldValues_eq hold hon]
    exact hknown.script.retells
  · exact ⟨table.compact, PassRun.find?_finished hg hl hf more hmore,
      (Table.fault_compact table).trans hn, Table.entries_compact hknown.honest⟩
  · rw [PassRun.held_eq hg hm runs hruns]
    exact hknown.script.replay_eq

end

open TwoStages in
/-- Two of three values stay or change, the last one goes. -/
theorem pull_retells_twice :
    let changed := Value.pair large small
    let runs := [[large, large, large]].map (running twice)
    ∃ old table after, (PassRun.tables runs).find? (derived twice).id = some old ∧
      Evaluation.pull (derived twice)
        ((running twice [large, changed]).evaluation (PassRun.tables runs)) = .ok table after ∧
      List.Forall₂ (Retells Comparer.equality) (table.entries.filter (·.2 != .added)) old.values ∧
      (PassRun.held (derived twice) runs).bind (replay · table.entries) =
        some [large, large, changed, changed] := by
  have hm : (stages twice).Has (derived twice) := .inr rfl
  obtain ⟨hretells, -, hheld⟩ := pull_retells (standard pure_twice).regular.builtin
    ([[large, large, large]].map (running twice)) (running_over_all twice _)
    (running twice [large, .pair large small]) (running_over twice _) hm rfl rfl
  exact ⟨_, _, _, rfl, rfl, hretells _ rfl rfl, hheld⟩

end Regen
