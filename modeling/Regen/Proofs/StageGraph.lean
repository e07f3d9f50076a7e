import Regen.Proofs.StageTables

/-!
# Stage graphs and what they compute

A stage graph is a set of stages, closed under reading, in which a stage is known by its identity.
`Stage.meaning` says what a stage shows when it is computed from scratch, without tables, tags or
baselines: it is a function of what the leaves show. The callbacks of the stages are pure; a graph
is regular when its comparers always answer, and standard when they compare by `==`, whatever that is.
-/

namespace Regen

variable {α β σ : Type}

namespace Stage

/-- The stages that a stage reads. -/
def sources : Stage σ → List (Stage σ)
  | .input .. => []
  | .map _ source .. => [source]
  | .collect _ source => [source]
  | .combine _ left right => [left, right]
  | .custom .. => []

/-- The comparer of recomputed values. -/
def comparer : Stage σ → Comparer Value
  | .input _ same => same
  | .map _ _ _ same => same
  | _ => Comparer.equality

/-- The transform is pure and the comparer always answers. Stages that compute their table on their
own are left out. -/
def Regular : Stage σ → Prop
  | .input _ same => same.Total
  | .map _ _ transform same => transform.Pure ∧ same.Total
  | .collect .. => True
  | .combine .. => True
  | .custom .. => False

/-- A regular stage that compares by `==`. -/
def Standard (stage : Stage σ) : Prop :=
  stage.Regular ∧ stage.comparer = Comparer.equality

/-- Whether the stage is a leaf. -/
def IsLeaf : Stage σ → Prop
  | .input .. => True
  | _ => False

/-- A stage is upstream of itself and of every stage that reads one that it is upstream of. -/
inductive Upstream (stage : Stage σ) : Stage σ → Prop
  | refl : Upstream stage stage
  | step {source reader} : source ∈ reader.sources → Upstream stage source → Upstream stage reader

/-- The length of the longest way down to a leaf. -/
def height : Stage σ → Nat
  | .input .. => 0
  | .map _ source .. => source.height + 1
  | .collect _ source => source.height + 1
  | .combine _ left right => max left.height right.height + 1
  | .custom .. => 0

theorem height_lt {source reader : Stage σ} (h : source ∈ reader.sources) :
    source.height < reader.height := by
  cases reader with
  | input info same => simp [sources] at h
  | map info inner transform same =>
    obtain rfl := List.mem_singleton.mp h
    exact Nat.lt_succ_self _
  | collect info inner =>
    obtain rfl := List.mem_singleton.mp h
    exact Nat.lt_succ_self _
  | combine info left right =>
    simp only [sources, List.mem_cons, List.not_mem_nil, or_false] at h
    simp only [height]
    rcases h with rfl | rfl <;> omega
  | custom info update => simp [sources] at h

theorem Upstream.height_le {stage reader : Stage σ} (h : Upstream stage reader) :
    stage.height ≤ reader.height := by
  induction h with
  | refl => exact Nat.le_refl _
  | step hs _ ih => exact Nat.le_trans ih (Nat.le_of_lt (height_lt hs))

theorem Upstream.trans {a b c : Stage σ} (hab : Upstream a b) (hbc : Upstream b c) :
    Upstream a c := by
  induction hbc with
  | refl => exact hab
  | step hs _ ih => exact .step hs ih

end Stage

/-- A set of stages with everything that they read, in which no two stages share an identity. -/
structure StageGraph (σ : Type) where
  Has : Stage σ → Prop
  has_source : ∀ {stage source}, Has stage → source ∈ stage.sources → Has source
  eq_of_id : ∀ {stage other}, Has stage → Has other → stage.id = other.id → stage = other

namespace StageGraph

variable (graph : StageGraph σ)

/-- Every stage of the graph is regular. -/
def Regular : Prop :=
  ∀ stage, graph.Has stage → stage.Regular

/-- Every stage of the graph is standard. -/
def Standard : Prop :=
  ∀ stage, graph.Has stage → stage.Standard

/-- No transform of the graph ever returns an empty list. -/
def Productive : Prop :=
  ∀ info source transform same, graph.Has (.map info source transform same) →
    ∀ value ambient, ((transform value).run Ambient.answer).result ambient ≠ .ok []

variable {graph}

theorem Standard.regular (h : graph.Standard) : graph.Regular :=
  fun stage hm => (h stage hm).1

theorem Standard.input_eq (h : graph.Standard) {info : StageInfo} {same : Comparer Value}
    (hm : graph.Has (.input info same)) : same = Comparer.equality :=
  (h _ hm).2

theorem Standard.map_eq (h : graph.Standard) {info : StageInfo} {source : Stage σ}
    {transform : Transform σ} {same : Comparer Value}
    (hm : graph.Has (.map info source transform same)) : same = Comparer.equality :=
  (h _ hm).2

theorem Productive.image_ne (h : graph.Productive) {info : StageInfo} {source : Stage σ}
    {transform : Transform σ} {same : Comparer Value}
    (hm : graph.Has (.map info source transform same)) (sample : Ambient σ) (value : Value) :
    Stage.image info transform sample value ≠ .ok [] := by
  intro hi
  have hne := h info source transform same hm value sample
  unfold Stage.image at hi
  cases hr : ((transform value).run Ambient.answer).result sample with
  | ok values =>
    rw [hr] at hi
    exact hne (hr.trans (congrArg Except.ok (Except.ok.inj hi)))
  | error why =>
    rw [hr] at hi
    cases hi

theorem has_of_upstream {stage reader : Stage σ} (h : Stage.Upstream stage reader)
    (hm : graph.Has reader) : graph.Has stage := by
  induction h with
  | refl => exact hm
  | step hs _ ih => exact ih (graph.has_source hm hs)

/-- A stage is not found among the stages upstream of its sources. -/
theorem id_ne_of_upstream {stage source reader : Stage σ} (hm : graph.Has reader)
    (hs : source ∈ reader.sources) (hu : Stage.Upstream stage source) : stage.id ≠ reader.id := by
  intro he
  have hsource := graph.has_source hm hs
  obtain rfl := graph.eq_of_id (has_of_upstream hu hsource) hm he
  have hle := hu.height_le
  have hlt := Stage.height_lt hs
  omega

end StageGraph

section

variable (image : α → Except Fault (List β))

/-- Everything that is made of some values, one after the other, up to the first fault. -/
def images : List α → Except Fault (List β)
  | [] => .ok []
  | value :: rest => do
    let made ← image value
    return made ++ (← images rest)

variable {image}

theorem images_cons_ok {value : α} {rest : List α} {made tail : List β}
    (hi : image value = .ok made) (hr : images image rest = .ok tail) :
    images image (value :: rest) = .ok (made ++ tail) := by
  simp [images, hi, hr, bind, Except.bind, pure, Except.pure]

/-- Rows that are cut off by a fault are cut off by the same one when they are made from scratch. -/
theorem images_of_blocked {hasBaseline : Bool} {entries : List (α × EntryState)} {fault : Fault}
    (h : Blocked image hasBaseline entries fault)
    (hc : hasBaseline = true → ∀ value, (value, .cached) ∈ entries → ∃ made, image value = .ok made) :
    images image (liveOf entries) = .error fault := by
  induction h with
  | @here value state rest fault hl hi =>
    rw [liveOf_cons, if_pos hl]
    simp [images, hi, bind, Except.bind]
  | @later value state rest fault hv _ ih =>
    have hrest := ih fun hb v hm => hc hb v (List.mem_cons_of_mem _ hm)
    rw [liveOf_cons]
    split
    · next hl =>
      have hok : ∃ made, image value = .ok made := by
        rcases hv hl with hok | ⟨rfl, hb⟩
        · exact hok
        · exact hc hb value List.mem_cons_self
      obtain ⟨made, hi⟩ := hok
      simp [images, hi, hrest, bind, Except.bind]
    · exact hrest

theorem not_blocked {hasBaseline : Bool} {entries : List (α × EntryState)} {fault : Fault}
    (hi : ∀ entry ∈ entries, ∃ made, image entry.1 = .ok made) :
    ¬ Blocked image hasBaseline entries fault := by
  intro h
  induction h with
  | here hl he =>
    obtain ⟨made, hm⟩ := hi _ List.mem_cons_self
    rw [he] at hm
    cases hm
  | later _ _ ih => exact ih fun entry hm => hi entry (List.mem_cons_of_mem _ hm)

end

/-- What consumers see of a table: its fault or its live values. -/
def Table.shows (table : Table α) : Except Fault (List α) :=
  match table.fault with
  | some fault => .error fault
  | none => .ok table.liveValues

namespace Table

theorem shows_of_unfaulted {table : Table α} (h : table.fault = none) :
    table.shows = .ok table.liveValues := by
  rw [shows, h]

theorem shows_of_fault {table : Table α} {fault : Fault} (h : table.fault = some fault) :
    table.shows = .error fault := by
  rw [shows, h]

end Table

namespace Stage

variable (sample : Ambient σ) (leaf : StageId → Except Fault (List Value))

/-- What a stage shows when it is computed from scratch, given what the leaves show. -/
def meaning : Stage σ → Except Fault (List Value)
  | .input info _ => leaf info.id
  | .map info source transform _ => do images (image info transform sample) (← source.meaning)
  | .collect _ source => return [.list (← source.meaning)]
  | .combine info left right => do
    let lefts ← left.meaning
    match ← right.meaning with
    | [value] => images (pairWith value) lefts
    | rights => .error (notSingle info right.name rights.length)
  | .custom .. => .ok []

/-- The meaning of a stage depends only on the leaves upstream of it. -/
theorem meaning_congr {leaf leaf' : StageId → Except Fault (List Value)} (stage : Stage σ)
    (h : ∀ other, Upstream other stage → other.IsLeaf → leaf other.id = leaf' other.id) :
    stage.meaning sample leaf = stage.meaning sample leaf' := by
  induction stage with
  | input info same => exact h _ .refl trivial
  | map info source transform same ih =>
    have hs := ih fun other hu => h other (hu.trans (.step List.mem_cons_self .refl))
    simp only [meaning, hs]
  | collect info source ih =>
    have hs := ih fun other hu => h other (hu.trans (.step List.mem_cons_self .refl))
    simp only [meaning, hs]
  | combine info left right ihl ihr =>
    have hl := ihl fun other hu => h other (hu.trans (.step List.mem_cons_self .refl))
    have hr := ihr fun other hu =>
      h other (hu.trans (.step (List.mem_cons_of_mem _ List.mem_cons_self) .refl))
    simp only [meaning, hl, hr]
  | custom info update => rfl

end Stage

end Regen
