import Regen.Proofs.LeafTables
import Regen.Proofs.PassTables
import Regen.Proofs.StageGraph

/-!
# How the tables of a pass come about

A table that a stage gets in a pass comes about in one of few ways: from the tables that the stage
reads in this pass and from its own table of the pass before. `Stage.ArisesBy` says which ways these
are; what a transform makes of a value is a relation in it, so that nothing is asked of transforms,
and comparers may panic where they are not asked. A lawful pass holds only such tables.
-/

namespace Regen

variable {σ : Type}

/-- What the transforms of map stages may make of a value. -/
abbrev Making (σ : Type) : Type :=
  StageInfo → Transform σ → Value → List Value → Prop

namespace Stage

/-- What a transform makes when it is called in one ambience. -/
abbrev sampled (sample : Ambient σ) : Making σ := fun info transform =>
  Makes (image info transform sample)

/-- What some call of a transform makes. -/
def observed : Making σ := fun _ transform value new =>
  ∃ ambient after, (transform value).run Ambient.answer ambient = .ok new after

/-- A pure transform makes the same of a value in every ambience. -/
theorem result_of_observed {info : StageInfo} {transform : Transform σ} {value : Value}
    {new : List Value} (h : transform.Pure) (hm : observed info transform value new)
    (ambient : Ambient σ) : ((transform value).run Ambient.answer).result ambient = .ok new := by
  obtain ⟨started, after, hrun⟩ := hm
  obtain ⟨memory, hpure⟩ := (h value).run_eq ambient started
  rw [hrun] at hpure
  obtain ⟨he, -⟩ := Act.ending_inj (r := .ok new) hpure
  exact he.symm

theorem sampled_of_observed {info : StageInfo} {transform : Transform σ} {value : Value}
    {new : List Value} (h : transform.Pure) (hm : observed info transform value new)
    (sample : Ambient σ) : sampled sample info transform value new := by
  change (((transform value).run Ambient.answer).result sample).mapError _ = _
  rw [result_of_observed h hm sample]
  rfl

section

variable (making : Making σ) (previous current : PassTables)

/-- How a stage may get a table in a pass with the baseline `previous`, when the tables of the
stages that it reads are in `current`. -/
inductive ArisesBy : Stage σ → Table Value → Prop
  | refused {info same fault} : ArisesBy (.input info same) (.faulted fault)
  | fed {info same values table} :
      Table.diffInputs (Table.usable? (previous.find? info.id)) values same = .ok table →
      ArisesBy (.input info same) table
  | unfed {info same} :
      ArisesBy (.input info same)
        (((Table.usable? (previous.find? info.id)).map Table.compact).getD .empty)
  | mapFault {info source transform same sources fault} :
      current.find? source.id = some sources → sources.fault = some fault →
      ArisesBy (.map info source transform same) (.faulted fault)
  | map {info source transform same sources table} :
      current.find? source.id = some sources → sources.fault = none →
      LaidBy (making info transform) same true (Table.usable? (previous.find? info.id))
        sources.entries table →
      ArisesBy (.map info source transform same) table
  | collectFault {info source sources fault} :
      current.find? source.id = some sources → sources.fault = some fault →
      ArisesBy (.collect info source) (.faulted fault)
  | collect {info source sources table} :
      current.find? source.id = some sources → sources.fault = none →
      LaidBy (Makes gathered) Comparer.equality true (Table.usable? (previous.find? info.id))
        [(Value.list sources.liveValues,
          collectState (Table.usable? (previous.find? info.id)) sources)] table →
      ArisesBy (.collect info source) table
  | combineFault {info left right lefts rights fault} :
      current.find? left.id = some lefts → current.find? right.id = some rights →
      lefts.fault.or rights.fault = some fault →
      ArisesBy (.combine info left right) (.faulted fault)
  | combineMany {info left right lefts rights} :
      current.find? left.id = some lefts → current.find? right.id = some rights →
      lefts.fault = none → rights.fault = none → rights.liveValues.length ≠ 1 →
      ArisesBy (.combine info left right)
        (.faulted (notSingle info right.name rights.liveValues.length))
  | combine {info left right lefts rights value state table} :
      current.find? left.id = some lefts → current.find? right.id = some rights →
      lefts.fault = none → rights.fault = none →
      rights.entries.filter (·.2.isLive) = [(value, state)] →
      LaidBy (Makes (pairWith value)) Comparer.equality (state == .cached)
        (Table.usable? (previous.find? info.id)) lefts.entries table →
      ArisesBy (.combine info left right) table

end

variable {making : Making σ} {previous current next : PassTables} {stage : Stage σ}
  {table : Table Value}

/-- More tables in the pass make no difference to how a table may come about. -/
theorem ArisesBy.mono (h : stage.ArisesBy making previous current table)
    (hw : current.Within next) : stage.ArisesBy making previous next table := by
  cases h with
  | refused => exact .refused
  | fed hd => exact .fed hd
  | unfed => exact .unfed
  | mapFault ht hf => exact .mapFault (hw _ _ ht) hf
  | map ht hf hl => exact .map (hw _ _ ht) hf hl
  | collectFault ht hf => exact .collectFault (hw _ _ ht) hf
  | collect ht hf hl => exact .collect (hw _ _ ht) hf hl
  | combineFault hl hr hf => exact .combineFault (hw _ _ hl) (hw _ _ hr) hf
  | combineMany hl hr hlf hrf hn => exact .combineMany (hw _ _ hl) (hw _ _ hr) hlf hrf hn
  | combine hl hr hlf hrf hv hlaid => exact .combine (hw _ _ hl) (hw _ _ hr) hlf hrf hv hlaid

/-- Combining stages have no transform. -/
theorem ArisesBy.combined {info : StageInfo} {left right : Stage σ}
    (h : (Stage.combine info left right).ArisesBy making previous current table)
    (other : Making σ) : (Stage.combine info left right).ArisesBy other previous current table := by
  cases h with
  | combineFault hl hr hf => exact .combineFault hl hr hf
  | combineMany hl hr hlf hrf hn => exact .combineMany hl hr hlf hrf hn
  | combine hl hr hlf hrf hv hlaid => exact .combine hl hr hlf hrf hv hlaid

/-- The stage makes its table by one of the rules of this library. -/
def Builtin : Stage σ → Prop
  | .custom .. => False
  | _ => True

theorem Regular.builtin (h : stage.Regular) : stage.Builtin := by
  cases stage with
  | custom info update => exact h
  | _ => trivial

end Stage

namespace StageGraph

variable (graph : StageGraph σ)

/-- No stage of the graph makes its table on its own. -/
def Builtin : Prop :=
  ∀ stage, graph.Has stage → stage.Builtin

/-- Every table of the pass comes about in one of the ways that there are. -/
structure LawfulBy (making : Making σ) (previous : PassTables) (pass : Pass) : Prop where
  baseline : pass.previous = previous
  arises : ∀ stage table, graph.Has stage → pass.current.find? stage.id = some table →
    stage.ArisesBy making previous pass.current table

variable {graph}

theorem Regular.builtin (h : graph.Regular) : graph.Builtin :=
  fun stage hm => (h stage hm).builtin

end StageGraph

end Regen
