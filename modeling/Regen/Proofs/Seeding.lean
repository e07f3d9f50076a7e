import Regen.Proofs.Meaning
import Regen.Proofs.Renaming
import Regen.Pipeline

/-!
# Feeding a pipeline

Before a pipeline is pulled each of its leaves is given values, selected from the snapshot, or the
fault of a selection that failed. A plain pipeline feeds exactly the leaves of its stage graph, each
of them once, so that the fed pass is sound and the meaning of its stages is the same on every baseline.
A faithful one shows this meaning, although `==` may take different values for equal on the way.
-/

namespace Regen

variable {S σ : Type}

/-- What is offered last to a leaf is what the first one under its identity says. -/
def offered (offers : List (StageInfo × Except Fault (List Value))) (id : StageId) :
    Option (Except Fault (List Value)) :=
  (offers.find? (·.1.id == id)).map (·.2)

theorem offered_cons (offer : StageInfo × Except Fault (List Value))
    (offers : List (StageInfo × Except Fault (List Value))) (id : StageId) :
    offered (offer :: offers) id = if offer.1.id = id then some offer.2 else offered offers id := by
  unfold offered
  by_cases he : offer.1.id = id <;> simp [he]

theorem offered_eq_none {offers : List (StageInfo × Except Fault (List Value))} {id : StageId}
    (h : id ∉ offers.map (·.1.id)) : offered offers id = none := by
  unfold offered
  rw [Option.map_eq_none_iff, List.find?_eq_none]
  intro offer hm he
  exact h (List.mem_map.mpr ⟨offer, hm, by simpa using he⟩)

theorem mem_of_offered {offers : List (StageInfo × Except Fault (List Value))} {id : StageId}
    {shown : Except Fault (List Value)} (h : offered offers id = some shown) :
    ∃ info, (info, shown) ∈ offers ∧ info.id = id := by
  obtain ⟨offer, hfind, rfl⟩ := Option.map_eq_some_iff.mp h
  exact ⟨offer.1, List.mem_of_find?_eq_some hfind, by simpa using List.find?_some hfind⟩

/-- A leaf that is told apart is offered what it was offered. -/
theorem offered_of_mem {offers : List (StageInfo × Except Fault (List Value))}
    (hd : (offers.map (·.1.id)).Nodup) {info : StageInfo} {shown : Except Fault (List Value)}
    (hm : (info, shown) ∈ offers) : offered offers info.id = some shown := by
  induction offers with
  | nil => cases hm
  | cons offer rest ih =>
    obtain ⟨hnew, hrest⟩ := List.nodup_cons.mp hd
    rw [offered_cons]
    rcases List.mem_cons.mp hm with rfl | hm
    · exact if_pos rfl
    · rw [if_neg fun he => hnew (List.mem_map.mpr ⟨_, hm, he.symm⟩), ih hrest hm]

theorem offered_isSome {offers : List (StageInfo × Except Fault (List Value))} {id : StageId}
    (h : id ∈ offers.map (·.1.id)) : ∃ shown, offered offers id = some shown := by
  cases ho : offered offers id with
  | some shown => exact ⟨shown, rfl⟩
  | none =>
    rw [offered, Option.map_eq_none_iff, List.find?_eq_none] at ho
    obtain ⟨offer, hm, rfl⟩ := List.mem_map.mp h
    exact absurd (beq_self_eq_true _) (ho offer hm)

theorem offered_rename {ρ : StageId → StageId} (hρ : Function.Injective ρ)
    (offers : List (StageInfo × Except Fault (List Value))) (id : StageId) :
    offered (offers.map fun offer => (offer.1.rename ρ, offer.2)) (ρ id) = offered offers id := by
  induction offers with
  | nil => rfl
  | cons offer rest ih =>
    have hid : (offer.1.rename ρ).id = ρ id ↔ offer.1.id = id := hρ.eq_iff
    simp only [List.map_cons, offered_cons, hid, ih]

namespace Pass

/-- Feed a leaf, or store the fault that it is offered. -/
def offer (pass : Pass) (offer : StageInfo × Except Fault (List Value)) : Pass :=
  match offer.2 with
  | .ok values => pass.addInput offer.1.id values
  | .error fault => pass.store offer.1 (.faulted fault)

theorem previous_offer (pass : Pass) (entry : StageInfo × Except Fault (List Value)) :
    (pass.offer entry).previous = pass.previous := by
  unfold offer
  split <;> rfl

theorem find?_offer (pass : Pass) (info : StageInfo) (shown : Except Fault (List Value))
    (id : StageId) : (pass.offer (info, shown)).current.find? id =
      match if info.id = id then some shown else none with
      | some (.error fault) => some (.faulted fault)
      | _ => pass.current.find? id := by
  cases shown with
  | ok values => split <;> simp_all [offer]
  | error fault =>
    rw [offer, current_store, PassTables.find?_insert]
    split <;> simp_all

theorem fed?_offer (pass : Pass) (info : StageInfo) (shown : Except Fault (List Value))
    (id : StageId) : (pass.offer (info, shown)).fed? id =
      match if info.id = id then some shown else none with
      | some (.ok values) => some values
      | _ => pass.fed? id := by
  cases shown with
  | ok values =>
    rw [offer, fed?_addInput]
    split <;> simp_all
  | error fault => split <;> simp_all [offer]

/-- Leaves that are told apart are each given what they are offered. -/
theorem offer_all (offers : List (StageInfo × Except Fault (List Value)))
    (hd : (offers.map (·.1.id)).Nodup) (pass : Pass) :
    let fed := offers.foldl offer pass
    fed.previous = pass.previous ∧ ∀ id,
      (fed.current.find? id = match offered offers id with
        | some (.error fault) => some (.faulted fault)
        | _ => pass.current.find? id) ∧
      (fed.fed? id = match offered offers id with
        | some (.ok values) => some values
        | _ => pass.fed? id) := by
  induction offers generalizing pass with
  | nil => exact ⟨rfl, fun id => ⟨rfl, rfl⟩⟩
  | cons entry rest ih =>
    obtain ⟨info, shown⟩ := entry
    obtain ⟨hnew, hrest⟩ := List.nodup_cons.mp hd
    obtain ⟨hprevious, hids⟩ := ih hrest (pass.offer (info, shown))
    refine ⟨hprevious.trans (previous_offer pass (info, shown)), fun id => ?_⟩
    obtain ⟨hcurrent, hfed⟩ := hids id
    rw [List.foldl_cons, hcurrent, hfed, find?_offer, fed?_offer, offered_cons]
    by_cases he : info.id = id
    · subst he
      rw [offered_eq_none hnew, if_pos rfl]
      exact ⟨rfl, rfl⟩
    · rw [if_neg he, if_neg he]
      exact ⟨rfl, rfl⟩

end Pass

/-- What a leaf is given for a snapshot. -/
def SnapshotLeaf.given (leaf : SnapshotLeaf S) (snapshot : S) : Except Fault (List Value) :=
  (leaf.select snapshot).mapError fun failure => .inStage leaf.stage.name failure.describe

namespace Pipeline

/-- The leaves that a pipeline feeds. -/
def leafInfos (pipeline : Pipeline S σ) : List StageInfo :=
  pipeline.leaves.map (·.stage) ++ pipeline.additionalInputs.toList

/-- The leaves that a pipeline feeds, with what they are given. -/
def offers (pipeline : Pipeline S σ) (snapshot : S) (inputs : List AdditionalInput) :
    List (StageInfo × Except Fault (List Value)) :=
  pipeline.leaves.map (fun leaf => (leaf.stage, leaf.given snapshot)) ++
    pipeline.additionalInputs.toList.map fun stage => (stage, .ok (inputs.map .input))

/-- What the leaves of a pipeline are given. -/
def given (pipeline : Pipeline S σ) (snapshot : S) (inputs : List AdditionalInput) :
    StageId → Option (Except Fault (List Value)) :=
  offered (pipeline.offers snapshot inputs)

/-- What the registered stages show when they are computed from scratch, each with its kind. -/
def showings (pipeline : Pipeline S σ) (sample : Ambient σ) (snapshot : S)
    (inputs : List AdditionalInput) : List (OutputKind × Except Fault (List Value)) :=
  pipeline.outputs.map fun binding =>
    (binding.kind, binding.stage.meaning sample
      (PassTables.empty.leafShows (pipeline.given snapshot inputs)))

/-- The stages of the pipeline are those of a standard graph, of whose transforms none ever makes an
empty list, and whose leaves are exactly the leaves that the pipeline feeds. -/
structure Plain (pipeline : Pipeline S σ) (graph : StageGraph σ) : Prop where
  standard : graph.Standard
  productive : graph.Productive
  outputs : ∀ binding ∈ pipeline.outputs, graph.Has binding.stage
  leaves : ∀ info ∈ pipeline.leafInfos, graph.Has (.leaf info)
  fed : ∀ stage, graph.Has stage → stage.IsLeaf → stage.info ∈ pipeline.leafInfos
  distinct : (pipeline.leafInfos.map (·.id)).Nodup

/-- The pipeline need not tell apart what `==` takes for equal: whatever the snapshot and the inputs,
its leaves are given what they may hold, equal values are alike there, and of a registered stage only
one and the same value is alike. -/
structure Faithful (pipeline : Pipeline S σ) {graph : StageGraph σ} (like : graph.Likeness) : Prop where
  equal : like.EqualAlike
  admits : ∀ snapshot inputs, like.typing.Admits (pipeline.given snapshot inputs)
  registered : ∀ binding ∈ pipeline.outputs, ∀ value other,
    like.Like binding.stage.id value other → value = other

/-- The leaves and the registered stages of the second pipeline are those of the first one under
other identities. What becomes of edits may be different. -/
structure Renames (ρ : StageId → StageId) (pipeline made : Pipeline S σ) : Prop where
  leaves : made.leaves = pipeline.leaves.map fun leaf =>
    { leaf with stage := leaf.stage.rename ρ }
  additionalInputs : made.additionalInputs = pipeline.additionalInputs.map (StageInfo.rename ρ)
  outputs : made.outputs = pipeline.outputs.map fun binding =>
    { binding with stage := binding.stage.rename ρ }

variable {pipeline made : Pipeline S σ} {graph : StageGraph σ} {ρ : StageId → StageId}

theorem infos_offers (pipeline : Pipeline S σ) (snapshot : S) (inputs : List AdditionalInput) :
    (pipeline.offers snapshot inputs).map (·.1) = pipeline.leafInfos := by
  simp [offers, leafInfos, Function.comp_def]

theorem ids_offers (pipeline : Pipeline S σ) (snapshot : S) (inputs : List AdditionalInput) :
    (pipeline.offers snapshot inputs).map (·.1.id) = pipeline.leafInfos.map (·.id) := by
  rw [← pipeline.infos_offers snapshot inputs, List.map_map]
  rfl

theorem seedLeaf_eq_offer (snapshot : S) (pass : Pass) (leaf : SnapshotLeaf S) :
    seedLeaf snapshot pass leaf = pass.offer (leaf.stage, leaf.given snapshot) := by
  unfold seedLeaf Pass.offer SnapshotLeaf.given
  cases leaf.select snapshot <;> rfl

/-- Feeding a pipeline offers each leaf what it is given. -/
theorem seed_eq_offers (pipeline : Pipeline S σ) (snapshot : S) (inputs : List AdditionalInput)
    (pass : Pass) : pipeline.seed snapshot inputs pass =
      (pipeline.offers snapshot inputs).foldl Pass.offer pass := by
  have hleaves : pipeline.leaves.foldl (seedLeaf snapshot) pass =
      (pipeline.leaves.map fun leaf => (leaf.stage, leaf.given snapshot)).foldl Pass.offer pass := by
    rw [List.foldl_map]
    congr 1
    funext pass leaf
    exact seedLeaf_eq_offer snapshot pass leaf
  rw [seed, offers, List.foldl_append, ← hleaves]
  cases pipeline.additionalInputs <;> rfl

theorem Plain.has_of_given (hp : pipeline.Plain graph) {snapshot : S}
    {inputs : List AdditionalInput} {id : StageId} {shown : Except Fault (List Value)}
    (h : pipeline.given snapshot inputs id = some shown) :
    ∃ info, info.id = id ∧ graph.Has (.leaf info) := by
  obtain ⟨info, hm, he⟩ := mem_of_offered h
  refine ⟨info, he, hp.leaves info ?_⟩
  rw [← pipeline.infos_offers snapshot inputs]
  exact List.mem_map.mpr ⟨_, hm, rfl⟩

theorem Plain.given_of_isLeaf (hp : pipeline.Plain graph) (snapshot : S)
    (inputs : List AdditionalInput) {stage : Stage σ} (hm : graph.Has stage) (hl : stage.IsLeaf) :
    ∃ shown, pipeline.given snapshot inputs stage.id = some shown := by
  refine offered_isSome ?_
  rw [pipeline.ids_offers]
  exact List.mem_map.mpr ⟨stage.info, hp.fed stage hm hl, rfl⟩

/-- The fed pass of a plain pipeline is sound. -/
theorem Plain.sound_seed (hp : pipeline.Plain graph) (sample : Ambient σ) (tables : PassTables)
    (trackSteps : Bool) (snapshot : S) (inputs : List AdditionalInput) :
    graph.Sound sample (pipeline.given snapshot inputs) tables
      (pipeline.seed snapshot inputs (.start tables trackSteps)) := by
  have hd : ((pipeline.offers snapshot inputs).map (·.1.id)).Nodup := by
    rw [pipeline.ids_offers]
    exact hp.distinct
  obtain ⟨hprevious, hids⟩ := Pass.offer_all _ hd (.start tables trackSteps)
  rw [← pipeline.seed_eq_offers] at hprevious hids
  refine ⟨hprevious, ?_, ?_⟩
  · intro stage table hm hfind
    rw [(hids stage.id).1] at hfind
    split at hfind
    · next fault hgiven =>
      cases hfind
      obtain ⟨info, he, hleaf⟩ := hp.has_of_given hgiven
      obtain rfl := graph.eq_of_id hleaf hm he
      exact .refused hgiven
    · cases hfind
  · intro stage _ _ hfind
    rw [(hids stage.id).1] at hfind
    rw [(hids stage.id).2, given]
    cases ho : offered (pipeline.offers snapshot inputs) stage.id with
    | none => rfl
    | some shown =>
      cases shown with
      | ok values => rfl
      | error fault =>
        rw [ho] at hfind
        cases hfind

/-- On every baseline the leaves of a plain pipeline show what they show from scratch. -/
theorem Plain.meaning_eq (hp : pipeline.Plain graph) (sample : Ambient σ) (tables : PassTables)
    (snapshot : S) (inputs : List AdditionalInput) {stage : Stage σ} (hm : graph.Has stage) :
    stage.meaning sample (tables.leafShows (pipeline.given snapshot inputs)) =
      stage.meaning sample (PassTables.empty.leafShows (pipeline.given snapshot inputs)) := by
  refine stage.meaning_congr sample fun other hu hl => ?_
  obtain ⟨shown, hshown⟩ :=
    hp.given_of_isLeaf snapshot inputs (graph.has_of_upstream hu hm) hl
  rw [PassTables.leafShows_of_given _ hshown, PassTables.leafShows_of_given _ hshown]

namespace Renames

theorem leafInfos_eq (h : pipeline.Renames ρ made) :
    made.leafInfos = pipeline.leafInfos.map (StageInfo.rename ρ) := by
  rw [leafInfos, leafInfos, h.leaves, h.additionalInputs]
  cases pipeline.additionalInputs <;> simp

theorem given_eq (h : pipeline.Renames ρ made) (hρ : Function.Injective ρ) (snapshot : S)
    (inputs : List AdditionalInput) (id : StageId) :
    made.given snapshot inputs (ρ id) = pipeline.given snapshot inputs id := by
  have hoffers : made.offers snapshot inputs =
      (pipeline.offers snapshot inputs).map fun offer => (offer.1.rename ρ, offer.2) := by
    rw [offers, offers, h.leaves, h.additionalInputs]
    cases pipeline.additionalInputs <;> simp [SnapshotLeaf.given, StageInfo.rename]
  rw [given, hoffers]
  exact offered_rename hρ (pipeline.offers snapshot inputs) id

/-- Pipelines that are the same up to identities show the same from scratch. -/
theorem showings_eq (h : pipeline.Renames ρ made) (hρ : Function.Injective ρ)
    (sample : Ambient σ) (snapshot : S) (inputs : List AdditionalInput) :
    made.showings sample snapshot inputs = pipeline.showings sample snapshot inputs := by
  rw [showings, showings, h.outputs, List.map_map]
  refine List.map_congr_left fun binding _ => ?_
  simp only [Function.comp_apply, Stage.meaning_rename, PassTables.leafShows, h.given_eq hρ]
  rfl

/-- A plain pipeline is plain under other identities. -/
theorem plain (h : pipeline.Renames ρ made) (hρ : Function.Injective ρ)
    (hp : pipeline.Plain graph) : made.Plain (graph.rename ρ hρ) where
  standard := hp.standard.rename hρ
  productive := hp.productive.rename hρ
  outputs := by
    rw [h.outputs]
    intro binding hm
    obtain ⟨original, ho, rfl⟩ := List.mem_map.mp hm
    exact graph.has_rename hρ (hp.outputs original ho)
  leaves := by
    rw [h.leafInfos_eq]
    intro info hm
    obtain ⟨original, ho, rfl⟩ := List.mem_map.mp hm
    exact ⟨.leaf original, hp.leaves original ho, rfl⟩
  fed := by
    rw [h.leafInfos_eq]
    rintro _ ⟨original, hm, rfl⟩ hl
    rw [Stage.info_rename]
    exact List.mem_map_of_mem (hp.fed original hm ((Stage.isLeaf_rename ρ original).mp hl))
  distinct := by
    rw [h.leafInfos_eq, List.map_map]
    have hids : pipeline.leafInfos.map ((·.id) ∘ StageInfo.rename ρ) =
        (pipeline.leafInfos.map (·.id)).map ρ := by
      rw [List.map_map]
      rfl
    rw [hids]
    exact List.Pairwise.map ρ (fun _ _ hne he => hne (hρ he)) hp.distinct

/-- What need not be told apart need not be told apart under other identities. -/
theorem faithful (h : pipeline.Renames ρ made) (hρ : Function.Injective ρ) {like : graph.Likeness}
    (hf : pipeline.Faithful like) : made.Faithful (like.rename ρ hρ) where
  equal := hf.equal.rename hρ
  admits := by
    rintro snapshot inputs _ values ⟨original, hm, rfl⟩ hl hgiven value hv
    rw [Stage.id_rename] at hgiven ⊢
    rw [h.given_eq hρ] at hgiven
    exact (StageGraph.Likeness.like_rename hρ).mpr (hf.admits snapshot inputs original values hm
      ((Stage.isLeaf_rename ρ original).mp hl) hgiven value hv)
  registered := by
    rw [h.outputs]
    intro binding hm value other hlike
    obtain ⟨original, ho, rfl⟩ := List.mem_map.mp hm
    rw [Stage.id_rename] at hlike
    exact hf.registered original ho value other ((StageGraph.Likeness.like_rename hρ).mp hlike)

end Renames

end Pipeline

end Regen
