import Regen.Proofs.Likeness

/-!
# Renaming stages

A plug-in that declares its stages again gets other identities for them. Stages under other
identities, no two of them under the same one, make up the same graph: they show what the stages
show whose leaves are fed under the old identities, and what is alike there is alike here.
-/

namespace Regen

variable {σ : Type}

/-- Counting identities from another one on keeps them apart. -/
theorem StageId.shift_injective (fresh : Nat) :
    Function.Injective fun id : StageId => (⟨fresh + id.number⟩ : StageId) := by
  rintro ⟨a⟩ ⟨b⟩ h
  simpa using h

/-- A stage of the same name under another identity. -/
def StageInfo.rename (ρ : StageId → StageId) (info : StageInfo) : StageInfo :=
  { info with id := ρ info.id }

namespace Stage

variable (ρ : StageId → StageId)

/-- The stage with other identities for itself and for everything upstream of it. -/
def rename : Stage σ → Stage σ
  | .input info same => .input (info.rename ρ) same
  | .map info source transform same => .map (info.rename ρ) source.rename transform same
  | .collect info source => .collect (info.rename ρ) source.rename
  | .combine info left right => .combine (info.rename ρ) left.rename right.rename
  | .custom info update => .custom (info.rename ρ) update

@[simp] theorem info_rename (stage : Stage σ) : (stage.rename ρ).info = stage.info.rename ρ := by
  cases stage <;> rfl

@[simp] theorem id_rename (stage : Stage σ) : (stage.rename ρ).id = ρ stage.id := by
  rw [id, info_rename]
  rfl

@[simp] theorem name_rename (stage : Stage σ) : (stage.rename ρ).name = stage.name := by
  rw [name, info_rename]
  rfl

@[simp] theorem sources_rename (stage : Stage σ) :
    (stage.rename ρ).sources = stage.sources.map (rename ρ) := by
  cases stage <;> rfl

@[simp] theorem comparer_rename (stage : Stage σ) : (stage.rename ρ).comparer = stage.comparer := by
  cases stage <;> rfl

@[simp] theorem isLeaf_rename (stage : Stage σ) : (stage.rename ρ).IsLeaf ↔ stage.IsLeaf := by
  cases stage <;> rfl

@[simp] theorem regular_rename (stage : Stage σ) : (stage.rename ρ).Regular ↔ stage.Regular := by
  cases stage <;> rfl

@[simp] theorem standard_rename (stage : Stage σ) : (stage.rename ρ).Standard ↔ stage.Standard := by
  unfold Standard
  rw [regular_rename, comparer_rename]

/-- A renamed stage shows what the stage shows with the leaves under their old identities. -/
theorem meaning_rename (sample : Ambient σ) (leaf : StageId → Except Fault (List Value))
    (stage : Stage σ) : (stage.rename ρ).meaning sample leaf =
      stage.meaning sample fun id => leaf (ρ id) := by
  induction stage with
  | input info same => rfl
  | map info source transform same ih =>
    have himage : image (info.rename ρ) transform sample = image info transform sample := rfl
    rw [rename, meaning, meaning, ih, himage]
  | collect info source ih => rw [rename, meaning, meaning, ih]
  | combine info left right ihl ihr =>
    have hmany : ∀ found, notSingle (info.rename ρ) right.name found =
        notSingle info right.name found := fun _ => rfl
    simp only [rename, meaning, ihl, ihr, name_rename, hmany]
  | custom info update => rfl

end Stage

namespace StageGraph

variable {ρ : StageId → StageId}

/-- The graph with other identities, which still tell its stages apart. -/
def rename (graph : StageGraph σ) (ρ : StageId → StageId) (hρ : Function.Injective ρ) :
    StageGraph σ where
  Has stage := ∃ original, graph.Has original ∧ original.rename ρ = stage
  has_source := by
    rintro _ source ⟨original, hm, rfl⟩ hs
    rw [Stage.sources_rename] at hs
    obtain ⟨inner, hinner, rfl⟩ := List.mem_map.mp hs
    exact ⟨inner, graph.has_source hm hinner, rfl⟩
  eq_of_id := by
    rintro _ _ ⟨stage, hm, rfl⟩ ⟨other, ho, rfl⟩ he
    rw [Stage.id_rename, Stage.id_rename] at he
    rw [graph.eq_of_id hm ho (hρ he)]

variable {graph : StageGraph σ}

theorem has_rename (hρ : Function.Injective ρ) {stage : Stage σ} (hm : graph.Has stage) :
    (graph.rename ρ hρ).Has (stage.rename ρ) :=
  ⟨stage, hm, rfl⟩

theorem Standard.rename (h : graph.Standard) (hρ : Function.Injective ρ) :
    (graph.rename ρ hρ).Standard := by
  rintro _ ⟨original, hm, rfl⟩
  exact (Stage.standard_rename ρ original).mpr (h original hm)

theorem Productive.rename (h : graph.Productive) (hρ : Function.Injective ρ) :
    (graph.rename ρ hρ).Productive := by
  rintro info source transform same ⟨original, hm, he⟩ value ambient
  cases original with
  | map inner innerSource =>
    cases he
    exact h inner innerSource transform same hm value ambient
  | input => cases he
  | collect => cases he
  | combine => cases he
  | custom => cases he

/-- The likeness of the stages under their old identities. -/
def Likeness.rename (like : graph.Likeness) (ρ : StageId → StageId) (hρ : Function.Injective ρ) :
    (graph.rename ρ hρ).Likeness where
  Like id value other := ∃ original, ρ original = id ∧ like.Like original value other
  symm := by
    rintro _ value other ⟨id, rfl, h⟩
    exact ⟨id, rfl, like.symm h⟩
  trans := by
    rintro _ a b c ⟨id, rfl, h⟩ ⟨_, he, h'⟩
    obtain rfl := hρ he
    exact ⟨_, rfl, like.trans h h'⟩
  transformed := by
    rintro info source transform same value other ⟨original, hm, he⟩ ⟨id, hid, h⟩ sample
    cases original with
    | map inner innerSource =>
      cases he
      rw [Stage.id_rename] at hid
      obtain rfl := hρ hid
      exact (like.transformed hm h sample).mono fun _ _ hnew =>
        hnew.imp fun _ _ hkept => ⟨inner.id, rfl, hkept⟩
    | input => cases he
    | collect => cases he
    | combine => cases he
    | custom => cases he
  gathered := by
    rintro info source values others ⟨original, hm, he⟩ h
    cases original with
    | collect inner innerSource =>
      cases he
      refine ⟨inner.id, rfl, like.gathered hm (h.imp fun value other hlike => ?_)⟩
      obtain ⟨id, hid, hlike⟩ := hlike
      rw [Stage.id_rename] at hid
      exact hρ hid ▸ hlike
    | input => cases he
    | map => cases he
    | combine => cases he
    | custom => cases he
  paired := by
    rintro info left right value value' other other' ⟨original, hm, he⟩ ⟨id, hid, h⟩ ⟨id', hid', h'⟩
    cases original with
    | combine inner innerLeft innerRight =>
      cases he
      rw [Stage.id_rename] at hid hid'
      obtain rfl := hρ hid
      obtain rfl := hρ hid'
      exact ⟨inner.id, rfl, like.paired hm h h'⟩
    | input => cases he
    | map => cases he
    | collect => cases he
    | custom => cases he

/-- Under the new identity the same values are alike. -/
theorem Likeness.like_rename {like : graph.Likeness} (hρ : Function.Injective ρ) {id : StageId}
    {value other : Value} : (like.rename ρ hρ).Like (ρ id) value other ↔ like.Like id value other := by
  constructor
  · rintro ⟨original, he, h⟩
    exact hρ he ▸ h
  · exact fun h => ⟨id, rfl, h⟩

theorem Likeness.EqualAlike.rename {like : graph.Likeness} (h : like.EqualAlike)
    (hρ : Function.Injective ρ) : (like.rename ρ hρ).EqualAlike := by
  rintro _ value other ⟨original, hm, rfl⟩ hv ho heq
  rw [Stage.id_rename] at hv ho ⊢
  exact (like_rename hρ).mpr
    (h original value other hm ((like_rename hρ).mp hv) ((like_rename hρ).mp ho) heq)

end StageGraph

end Regen
