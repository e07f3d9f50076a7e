import Regen.Proofs.LeafDiffs

/-!
# The tables of leaves

A leaf that is fed compares its values with its slots of the pass before, position by position.
Every slot it makes holds one value. On slots that hold one value each, the table is an edit script
and shows the values that were fed, up to the comparer.
-/

namespace Regen

variable {α : Type}

namespace Slot

/-- Compaction keeps the value of a slot that is not gone. -/
theorem Single.compacted {slot : Slot α} (h : slot.Single) (hr : slot.isRemoved = false) :
    slot.compacted.Single := by
  obtain ⟨value, state, he⟩ := h
  have hs : state ≠ .removed := by
    rintro rfl
    cases slot with
    | vacant state => simp [entries] at he
    | filled first rest =>
      obtain ⟨rfl, rfl⟩ := List.cons.inj he
      simp [isRemoved] at hr
  have hl : slot.liveValues = [value] := by
    simp [liveValues, he, EntryState.isLive, hs]
  rw [Slot.compacted, hl]
  exact single_uniform value .cached

end Slot

namespace Table

variable {same : Comparer α}

/-- What the slots of a fed leaf are, beside the slots before and the values. -/
structure Diffed (same : Comparer α) (olds : List (Slot α)) (values : List α)
    (slots : List (Slot α)) : Prop where
  script : EditScript same (olds.flatMap Slot.values) (slots.flatMap Slot.entries)
  kept : List.Forall₂ same.Kept values (slots.flatMap Slot.liveValues)
  single : ∀ slot ∈ slots, slot.Single

theorem script_removed (olds : List (Slot α)) : EditScript same (olds.flatMap Slot.values)
    ((olds.map (·.retagged .removed)).flatMap Slot.entries) := by
  rw [List.flatMap_map]
  simpa [Slot.retagged, List.map_flatMap] using EditScript.allRemoved same (olds.flatMap Slot.values)

theorem script_added (values : List α) : EditScript same []
    ((values.map fun value => Slot.uniform [value] .added).flatMap Slot.entries) := by
  rw [List.flatMap_map]
  simpa [List.map_eq_flatMap] using EditScript.allAdded same values

/-- On slots with one value each, whatever slots a fed leaf gets. -/
theorem diffSlots_diffed {olds : List (Slot α)} (ho : ∀ old ∈ olds, old.Single) {values : List α}
    {slots : List (Slot α)} (h : diffSlots same olds values = .ok slots) :
    Diffed same olds values slots := by
  suffices hslots : EditScript same (olds.flatMap Slot.values) (slots.flatMap Slot.entries) ∧
      ∀ slot ∈ slots, slot.Single from ⟨hslots.1, diffSlots_kept h, hslots.2⟩
  induction olds generalizing values slots with
  | nil =>
    rw [diffSlots_beyond] at h
    cases h
    refine ⟨script_added values, fun slot hm => ?_⟩
    obtain ⟨value, -, rfl⟩ := List.mem_map.mp hm
    exact Slot.single_uniform value .added
  | cons old olds ih =>
    obtain ⟨oldValue, hv⟩ := (ho old List.mem_cons_self).values_eq
    cases values with
    | nil =>
      cases h
      refine ⟨script_removed (old :: olds), fun slot hm => ?_⟩
      obtain ⟨before, hb, rfl⟩ := List.mem_map.mp hm
      obtain ⟨value, hbefore⟩ := (ho before hb).values_eq
      rw [Slot.retagged, hbefore]
      exact Slot.single_uniform value .removed
    | cons value values =>
      obtain ⟨slot, rest, hslot, hrest, rfl⟩ := diffSlots_cons h
      obtain ⟨hscript, hsingle⟩ := ih (fun other hm => ho other (List.mem_cons_of_mem _ hm)) hrest
      rw [List.flatMap_cons, List.flatMap_cons, List.forall_mem_cons]
      cases leafSlot_position hslot with
      | kept hold hs =>
        rw [hold]
        exact ⟨.cached _ hscript, Slot.single_uniform _ _, hsingle⟩
      | replaced hrejects =>
        rw [hv]
        exact ⟨.modified value oldValue (hrejects oldValue hv) hscript, Slot.single_uniform _ _,
          hsingle⟩

end Table

end Regen
