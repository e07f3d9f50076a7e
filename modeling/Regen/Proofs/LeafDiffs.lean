import Regen.Proofs.StageTables
import Regen.Table.Leaf

/-!
# Diffing position by position

The values of a leaf are looked up by position, and the builder copies old slots from a position of
its own. The two never part: as long as there are old slots nothing is inserted, and once there are
none nothing is copied. So the table of a leaf that is fed is what its values make of its old slots
one by one, whatever these hold, and no copy is out of step. The old table may be any at all.
-/

namespace Regen

variable {α : Type}

/-- The slot holds exactly one value. -/
def Slot.Single (slot : Slot α) : Prop :=
  ∃ value state, slot.entries = [(value, state)]

theorem Slot.single_uniform (value : α) (state : EntryState) : (uniform [value] state).Single :=
  ⟨value, state, rfl⟩

theorem Slot.Single.values_eq {slot : Slot α} (h : slot.Single) :
    ∃ value, slot.values = [value] := by
  obtain ⟨value, state, he⟩ := h
  exact ⟨value, by simp [Slot.values, he]⟩

namespace Table

/-- The slot of a value whose position was there before. It is unchanged when the old slot held
one value and the comparer accepts it. -/
def leafSlot (same : Comparer α) (old : Slot α) (value : α) : Except Panic (Slot α) :=
  match old.values with
  | [oldValue] => do
    if ← same value oldValue then return old.retagged .cached
    else return .uniform [value] .modified
  | _ => return .uniform [value] .modified

/-- The slots of the values beside the old slots: values beyond the old slots are added, and old
slots beyond the values are removed. -/
def diffSlots (same : Comparer α) : List (Slot α) → List α → Except Panic (List (Slot α))
  | olds, [] => return olds.map (·.retagged .removed)
  | [], value :: values => return (value :: values).map fun value => .uniform [value] .added
  | old :: olds, value :: values => do
    let slot ← leafSlot same old value
    return slot :: (← diffSlots same olds values)

/-- What a leaf makes of one position, from the old slot and the value there. -/
inductive PositionDiff (same : Comparer α) : Option (Slot α) → Option α → Slot α → Prop
  | kept {old oldValue value} : old.values = [oldValue] → same value oldValue = .ok true →
      PositionDiff same (some old) (some value) (.uniform [oldValue] .cached)
  | replaced {old value} :
      (∀ oldValue, old.values = [oldValue] → same value oldValue = .ok false) →
      PositionDiff same (some old) (some value) (.uniform [value] .modified)
  | added {value} : PositionDiff same none (some value) (.uniform [value] .added)
  | removed {old} : PositionDiff same (some old) none (.uniform old.values .removed)

variable {same : Comparer α} {table : Table α} {builder : TableBuilder α} {old slot : Slot α}
  {olds slots : List (Slot α)} {value : α} {values : List α}

/-! The builder beside the position. -/

/-- At a position that was there before. -/
theorem diffValue_ahead {index : Nat} {old : Slot α} {rest : List (Slot α)}
    (ha : builder.ahead (some table) = old :: rest) (hi : table.slots[index]? = some old)
    (value : α) :
    diffValue (some table) same builder index value = (leafSlot same old value).map builder.push := by
  have hkept : builder.addEntriesFromPrevious table .cached =
      .ok (builder.push (old.retagged .cached)) :=
    TableBuilder.addEntriesFromPrevious_ahead ha .cached
  unfold diffValue leafSlot
  rw [Option.bind_some, hi, Option.map_some]
  match old.values with
  | [] => rfl
  | [oldValue] =>
    simp only [bind, Except.bind]
    cases same value oldValue with
    | error panic => rfl
    | ok accepted =>
      cases accepted with
      | true => exact hkept
      | false => rfl
  | _ :: _ :: _ => rfl

/-- At a position that is new. -/
theorem diffValue_beyond {index : Nat} (hi : table.slots[index]? = none) (value : α) :
    diffValue (some table) same builder index value = .ok (builder.addEntries [value] .added) := by
  unfold diffValue
  rw [Option.bind_some, hi]
  rfl

/-- A builder that has these slots ahead adds them as removed. -/
theorem addRemoved_ahead (olds : List (Slot α)) (builder : TableBuilder α)
    (hw : builder.WellFormed) (ha : builder.ahead (some table) = olds) :
    addRemoved table builder olds.length =
      .ok { builder with slots := builder.slots ++ olds.map (·.retagged .removed) } := by
  induction olds generalizing builder with
  | nil => simp [addRemoved, pure, Except.pure]
  | cons old rest ih =>
    have hpush : builder.addEntriesFromPrevious table .removed =
        .ok (builder.push (old.retagged .removed)) :=
      TableBuilder.addEntriesFromPrevious_ahead ha .removed
    have hrest := ih _ (hw.push (old.retagged .removed)) (TableBuilder.ahead_push hw ha _)
    simp only [List.length_cons, addRemoved, hpush, bind, Except.bind]
    rw [hrest]
    simp [TableBuilder.push]

theorem diffSlots_beyond (values : List α) :
    diffSlots same [] values = .ok (values.map fun value => .uniform [value] .added) := by
  cases values <;> rfl

/-- From a position on, where the builder has the slots of this position ahead. -/
theorem diffValues_slots (values : List α) (builder : TableBuilder α) (index : Nat)
    (hw : builder.WellFormed) (hf : builder.fault = none)
    (ha : builder.ahead (some table) = table.slots.drop index) :
    (do
      let made ← diffValues (some table) same builder index values
      return (← addRemoved table made (table.slots.length - (index + values.length))).build) =
    (diffSlots same (table.slots.drop index) values).map fun slots =>
      ⟨builder.slots ++ slots, false, none⟩ := by
  induction values generalizing builder index with
  | nil =>
    have hremoved := addRemoved_ahead (table.slots.drop index) builder hw ha
    rw [List.length_drop] at hremoved
    simp [diffValues, diffSlots, hremoved, bind, Except.bind, pure, Except.pure, Except.map,
      TableBuilder.build, hf]
  | cons value rest ih =>
    have hcount : index + (value :: rest).length = (index + 1) + rest.length := by
      rw [List.length_cons, Nat.add_right_comm, Nat.add_assoc]
    rw [hcount]
    cases hd : table.slots.drop index with
    | nil =>
      have hadded : diffValue (some table) same builder index value =
          .ok (builder.addEntries [value] .added) :=
        diffValue_beyond (List.getElem?_eq_none (List.drop_eq_nil_iff.mp hd)) value
      have hbeyond : table.slots.drop (index + 1) = [] := by
        rw [← List.drop_drop, hd, List.drop_nil]
      have hrest := ih (builder.addEntries [value] .added) (index + 1)
        (by simpa [TableBuilder.WellFormed, TableBuilder.addEntries, TableBuilder.push] using hw)
        hf (by rw [TableBuilder.ahead_added, ha, hd, hbeyond])
      rw [hbeyond, diffSlots_beyond] at hrest
      rw [diffSlots_beyond]
      simp only [diffValues, hadded, bind, Except.bind] at hrest ⊢
      rw [hrest]
      simp [Except.map, TableBuilder.addEntries, TableBuilder.push]
    | cons old olds =>
      have hold : table.slots[index]? = some old := by
        have h := congrArg (·[0]?) hd
        simpa [List.getElem?_drop] using h
      have hnext : table.slots.drop (index + 1) = olds := by
        rw [← List.drop_drop, hd]
        rfl
      have hslot : diffValue (some table) same builder index value =
          (leafSlot same old value).map builder.push := diffValue_ahead (ha.trans hd) hold value
      cases hl : leafSlot same old value with
      | error panic =>
        rw [hl] at hslot
        simp [diffValues, diffSlots, hslot, hl, bind, Except.bind, Except.map]
      | ok slot =>
        rw [hl] at hslot
        have hrest := ih (builder.push slot) (index + 1) (hw.push slot) hf
          (by rw [TableBuilder.ahead_push hw (ha.trans hd), hnext])
        rw [hnext] at hrest
        simp only [diffValues, hslot, diffSlots, hl, bind, Except.bind, Except.map] at hrest ⊢
        rw [hrest]
        cases diffSlots same olds rest with
        | error panic => rfl
        | ok slots => simp [TableBuilder.push, pure, Except.pure]

/-- Without a table before, as with an empty one. -/
theorem diffValues_none (values : List α) (builder : TableBuilder α) (index : Nat) :
    diffValues none same builder index values =
      diffValues (some .empty) same builder index values := by
  induction values generalizing builder index with
  | nil => rfl
  | cons value rest ih =>
    have hadded : diffValue (some .empty) same builder index value =
        .ok (builder.addEntries [value] .added) := diffValue_beyond rfl value
    simp only [diffValues, hadded, ← ih]
    rfl

/-- The table of a fed leaf, slot by slot: the builder never copies from another position than the
one that is compared, and never lacks a slot. -/
theorem diffInputs_eq (previous : Option (Table α)) (values : List α) :
    diffInputs previous values same =
      (diffSlots same ((previous.map (·.slots)).getD []) values).map (⟨·, false, none⟩) := by
  have hsome (table : Table α) : diffInputs (some table) values same =
      (diffSlots same table.slots values).map (⟨·, false, none⟩) := by
    have hslots := @diffValues_slots _ same table values .empty 0 TableBuilder.wellFormed_empty rfl
      (TableBuilder.ahead_empty _)
    rw [Nat.zero_add] at hslots
    exact hslots
  cases previous with
  | some table => exact hsome table
  | none =>
    have hfirst : diffInputs none values same = diffInputs (some .empty) values same := by
      have hrest : (empty : Table α).slots.length - values.length = 0 := Nat.zero_sub _
      simp only [diffInputs, diffValues_none, hrest]
      cases diffValues (some .empty) same .empty 0 values <;> rfl
    rw [hfirst]
    exact hsome .empty

/-! The slots that the values make of the old ones. -/

/-- What becomes of a position that was there before. -/
theorem leafSlot_position (h : leafSlot same old value = .ok slot) :
    PositionDiff same (some old) (some value) slot := by
  unfold leafSlot at h
  split at h
  · next oldValue hold =>
    simp only [bind, Except.bind, pure, Except.pure] at h
    cases hs : same value oldValue with
    | error panic => simp [hs] at h
    | ok accepted =>
      cases accepted with
      | true =>
        obtain rfl : .uniform [oldValue] .cached = slot := by
          simpa [hs, Slot.retagged, hold] using h
        exact .kept hold hs
      | false =>
        obtain rfl : .uniform [value] .modified = slot := by simpa [hs] using h
        refine .replaced fun other hother => ?_
        obtain rfl : oldValue = other := by simpa using hold.symm.trans hother
        exact hs
  · next hmany =>
    cases h
    exact .replaced fun oldValue hold => (hmany oldValue hold).elim

/-- A value makes one live value, itself or the old one that the comparer accepts. -/
theorem PositionDiff.live {old : Option (Slot α)} (h : PositionDiff same old (some value) slot) :
    ∃ kept state, slot = .uniform [kept] state ∧ state ≠ .removed ∧ same.Kept value kept := by
  cases h with
  | kept _ hs => exact ⟨_, _, rfl, by decide, .inr hs⟩
  | replaced _ => exact ⟨_, _, rfl, by decide, .inl rfl⟩
  | added => exact ⟨_, _, rfl, by decide, .inl rfl⟩

/-- The slot of a position holds the value there or what the old slot held. -/
theorem PositionDiff.mem_values {old : Option (Slot α)} {value : Option α}
    (h : PositionDiff same old value slot) {kept : α} (hm : kept ∈ slot.values) :
    (∃ before, old = some before ∧ kept ∈ before.values) ∨ value = some kept := by
  cases h with
  | @kept before oldValue value hold _ =>
    obtain rfl := List.mem_singleton.mp hm
    exact .inl ⟨before, rfl, hold ▸ List.mem_cons_self⟩
  | replaced =>
    obtain rfl := List.mem_singleton.mp hm
    exact .inr rfl
  | added =>
    obtain rfl := List.mem_singleton.mp hm
    exact .inr rfl
  | @removed before =>
    rw [Slot.values_uniform] at hm
    exact .inl ⟨before, rfl, hm⟩

theorem diffSlots_cons (h : diffSlots same (old :: olds) (value :: values) = .ok slots) :
    ∃ slot rest, leafSlot same old value = .ok slot ∧ diffSlots same olds values = .ok rest ∧
      slots = slot :: rest := by
  simp only [diffSlots, bind, Except.bind, pure, Except.pure] at h
  cases hs : leafSlot same old value with
  | error panic => simp [hs] at h
  | ok slot =>
    cases hr : diffSlots same olds values with
    | error panic => simp [hs, hr] at h
    | ok rest => exact ⟨slot, rest, rfl, rfl, by simpa [hs, hr] using h.symm⟩

/-- There are as many slots as positions on either side, each made of what is at its position. -/
theorem diffSlots_positions (h : diffSlots same olds values = .ok slots) :
    slots.length = max values.length olds.length ∧
      ∀ (i : Nat) slot, slots[i]? = some slot → PositionDiff same olds[i]? values[i]? slot := by
  induction olds generalizing values slots with
  | nil =>
    rw [diffSlots_beyond] at h
    cases h
    refine ⟨by simp, fun i slot hi => ?_⟩
    rw [List.getElem?_map] at hi
    obtain ⟨value, hv, rfl⟩ := Option.map_eq_some_iff.mp hi
    rw [hv]
    exact .added
  | cons old olds ih =>
    cases values with
    | nil =>
      cases h
      refine ⟨by simp, fun i slot hi => ?_⟩
      rw [List.getElem?_map] at hi
      obtain ⟨before, hb, rfl⟩ := Option.map_eq_some_iff.mp hi
      rw [hb]
      exact .removed
    | cons value values =>
      obtain ⟨slot, rest, hslot, hrest, rfl⟩ := diffSlots_cons h
      obtain ⟨hlength, hpositions⟩ := ih hrest
      refine ⟨by simp only [List.length_cons, hlength]; omega, fun i made hi => ?_⟩
      cases i with
      | zero =>
        cases hi
        exact leafSlot_position hslot
      | succ i => exact hpositions i made hi

/-- With a comparer that always answers a leaf always gets its slots. -/
theorem diffSlots_total (ht : same.Total) (olds : List (Slot α)) (values : List α) :
    ∃ slots, diffSlots same olds values = .ok slots := by
  induction olds generalizing values with
  | nil => exact ⟨_, diffSlots_beyond values⟩
  | cons old olds ih =>
    cases values with
    | nil => exact ⟨_, rfl⟩
    | cons value values =>
      obtain ⟨slots, hd⟩ := ih values
      have hl : ∃ slot, leafSlot same old value = .ok slot := by
        unfold leafSlot
        split
        · next oldValue _ =>
          obtain ⟨accepted, hs⟩ := ht value oldValue
          cases accepted <;> exact ⟨_, by simp [hs, bind, Except.bind]; rfl⟩
        · exact ⟨_, rfl⟩
      obtain ⟨slot, hx⟩ := hl
      exact ⟨slot :: slots, by simp [diffSlots, hx, hd, bind, Except.bind]; rfl⟩

/-- The live values are those that were fed, up to the comparer. -/
theorem diffSlots_kept (h : diffSlots same olds values = .ok slots) :
    List.Forall₂ same.Kept values (slots.flatMap Slot.liveValues) := by
  induction olds generalizing values slots with
  | nil =>
    rw [diffSlots_beyond] at h
    cases h
    rw [List.flatMap_map]
    simpa [Slot.liveValues_uniform] using same.forall₂_kept_self values
  | cons old olds ih =>
    cases values with
    | nil =>
      cases h
      rw [List.flatMap_map]
      simp [Slot.retagged]
    | cons value values =>
      obtain ⟨slot, rest, hslot, hrest, rfl⟩ := diffSlots_cons h
      obtain ⟨kept, state, rfl, hlive, hkept⟩ := (leafSlot_position hslot).live
      rw [List.flatMap_cons, Slot.liveValues_uniform hlive]
      exact .cons hkept (ih hrest)

/-- Compaction leaves one slot for each live value. -/
theorem diffSlots_compacted (h : diffSlots same olds values = .ok slots) :
    (slots.filter (!·.isRemoved)).map Slot.compacted =
      (slots.flatMap Slot.liveValues).map fun value => .uniform [value] .cached := by
  induction olds generalizing values slots with
  | nil =>
    rw [diffSlots_beyond] at h
    cases h
    have hstay : values.filter ((!·.isRemoved) ∘ fun value => Slot.uniform [value] .added) = values :=
      List.filter_eq_self.mpr fun value _ => by simp
    rw [List.flatMap_map, List.filter_map, hstay]
    simp [Slot.liveValues_uniform, Slot.compacted]
  | cons old olds ih =>
    cases values with
    | nil =>
      cases h
      rw [List.flatMap_map, List.filter_map]
      simp [Slot.retagged, Function.comp_def]
    | cons value values =>
      obtain ⟨slot, rest, hslot, hrest, rfl⟩ := diffSlots_cons h
      obtain ⟨kept, state, rfl, hlive, -⟩ := (leafSlot_position hslot).live
      have hstays : (Slot.uniform [kept] state).isRemoved = false := by simp [hlive]
      rw [List.filter_cons_of_pos (by simp [hstays]), List.map_cons, ih hrest, List.flatMap_cons,
        Slot.compacted, Slot.liveValues_uniform hlive]
      rfl

/-- A leaf that is fed what its comparer accepts keeps its slots. -/
theorem diffSlots_accepted (ho : ∀ old ∈ olds, old.Single)
    (h : List.Forall₂ (fun new old => same new old = .ok true) values
      (olds.flatMap Slot.values)) :
    diffSlots same olds values = .ok (olds.map (·.retagged .cached)) := by
  induction olds generalizing values with
  | nil =>
    cases h
    rfl
  | cons old olds ih =>
    obtain ⟨oldValue, hv⟩ := (ho old List.mem_cons_self).values_eq
    rw [List.flatMap_cons, hv, List.singleton_append] at h
    cases h with
    | @cons value _ values _ hsame hrest =>
      have hslot : leafSlot same old value = .ok (old.retagged .cached) := by
        simp [leafSlot, hv, hsame, bind, Except.bind, pure, Except.pure]
      have hslots := ih (fun slot hm => ho slot (List.mem_cons_of_mem _ hm)) hrest
      simp [diffSlots, hslot, hslots, bind, Except.bind, pure, Except.pure]

/-! The table. -/

/-- The table of a fed leaf is not compacted yet and never has a fault. -/
theorem diffInputs_eq_ok {previous : Option (Table α)}
    (h : diffInputs previous values same = .ok table) :
    ∃ slots, diffSlots same ((previous.map (·.slots)).getD []) values = .ok slots ∧
      table = ⟨slots, false, none⟩ := by
  rw [diffInputs_eq] at h
  cases hd : diffSlots same ((previous.map (·.slots)).getD []) values with
  | error panic =>
    rw [hd] at h
    cases h
  | ok slots =>
    rw [hd] at h
    cases h
    exact ⟨slots, rfl, rfl⟩

/-- A fed leaf holds what it was fed and values of its table before. -/
theorem diffInputs_mem {previous : Option (Table α)} (h : diffInputs previous values same = .ok table)
    {kept : α} (hm : kept ∈ table.values) :
    (∃ old, previous = some old ∧ kept ∈ old.values) ∨ kept ∈ values := by
  obtain ⟨slots, hd, rfl⟩ := diffInputs_eq_ok h
  rw [values_eq_flatMap, List.mem_flatMap] at hm
  obtain ⟨slot, hslot, hkept⟩ := hm
  obtain ⟨i, hi⟩ := List.getElem?_of_mem hslot
  rcases ((diffSlots_positions hd).2 i slot hi).mem_values hkept with ⟨before, hbefore, hold⟩ | hvalue
  · cases previous with
    | none => cases hbefore
    | some old =>
      refine .inl ⟨old, rfl, ?_⟩
      rw [values_eq_flatMap]
      exact List.mem_flatMap.mpr ⟨before, List.mem_of_getElem? hbefore, hold⟩
  · exact .inr (List.mem_of_getElem? hvalue)

/-- Where the comparer panics on a value and the one it may replace, diffing panics, there or
earlier. -/
theorem diffInputs_panics {i : Nat} {old : α} {panic : Panic} (hvalue : values[i]? = some value)
    (hslot : table.slots[i]? = some slot) (hold : slot.values = [old])
    (hpanic : same value old = .error panic) :
    ∃ raised, diffInputs (some table) values same = .error raised := by
  cases h : diffInputs (some table) values same with
  | error raised => exact ⟨raised, rfl⟩
  | ok made =>
    obtain ⟨slots, hd, rfl⟩ := diffInputs_eq_ok h
    obtain ⟨hlength, hpositions⟩ := diffSlots_positions hd
    obtain ⟨hi, -⟩ := List.getElem?_eq_some_iff.mp hvalue
    obtain ⟨made, hmade⟩ : ∃ made, slots[i]? = some made :=
      ⟨_, List.getElem?_eq_getElem (by omega)⟩
    have hposition : PositionDiff same table.slots[i]? values[i]? made := hpositions i made hmade
    rw [hslot, hvalue] at hposition
    cases hposition with
    | kept hold' hs =>
      cases hold.symm.trans hold'
      cases hpanic.symm.trans hs
    | replaced hs => cases hpanic.symm.trans (hs old hold)

theorem diffInputs_total (ht : same.Total) (previous : Option (Table α)) (values : List α) :
    ∃ table, diffInputs previous values same = .ok table := by
  obtain ⟨slots, hd⟩ := diffSlots_total ht ((previous.map (·.slots)).getD []) values
  exact ⟨⟨slots, false, none⟩, by rw [diffInputs_eq, hd]; rfl⟩

/-- Fed the same values again, on top of its table, a leaf keeps what it shows if the comparer
accepts every value beside itself and whatever was accepted before. -/
theorem diffInputs_again {previous : Option (Table α)}
    (h : diffInputs previous values same = .ok table) {other : Comparer α}
    (hrefl : ∀ value, other value value = .ok true)
    (haccepts : ∀ new old, same new old = .ok true → other new old = .ok true) :
    diffInputs (some table.compact) values other =
      .ok ⟨table.liveValues.map fun value => .uniform [value] .cached, false, none⟩ := by
  obtain ⟨slots, hd, rfl⟩ := diffInputs_eq_ok h
  have hcompact : (⟨slots, false, none⟩ : Table α).compact.slots =
      (slots.flatMap Slot.liveValues).map fun value => .uniform [value] .cached :=
    diffSlots_compacted hd
  have hshown : List.Forall₂ (fun new old => other new old = .ok true) values
      (((slots.flatMap Slot.liveValues).map fun value => Slot.uniform [value] .cached).flatMap
        Slot.values) := by
    rw [List.flatMap_map]
    simp only [Slot.values_uniform, List.flatMap_singleton']
    refine (diffSlots_kept hd).imp ?_
    rintro value kept (rfl | hs)
    · exact hrefl kept
    · exact haccepts value kept hs
  have hsingle : ∀ old ∈ (slots.flatMap Slot.liveValues).map fun value => Slot.uniform [value] .cached,
      old.Single := by
    intro old hm
    obtain ⟨value, -, rfl⟩ := List.mem_map.mp hm
    exact Slot.single_uniform value .cached
  rw [diffInputs_eq, Option.map_some, Option.getD_some, hcompact, diffSlots_accepted hsingle hshown,
    List.map_map, liveValues_eq_flatMap]
  rfl

/-- Diffing is exact. Whatever the table before holds, if any, a leaf with a comparer that always
answers gets a table, with a slot for every position of the values or of the old slots. Up to the
comparer it shows the values that were fed, one for one. Fed the same values again, on top of what it
shows, nothing changes for a reflexive comparer: for the same one, or for any that accepts what it
accepted. -/
theorem diffInputs_exact (ht : same.Total) (previous : Option (Table α)) (values : List α) :
    let olds := (previous.map (·.slots)).getD []
    ∃ table, diffInputs previous values same = .ok table ∧ table.fault = none ∧
      table.slots.length = max values.length olds.length ∧
      (∀ (i : Nat) slot, table.slots[i]? = some slot → PositionDiff same olds[i]? values[i]? slot) ∧
      table.liveValues.length = values.length ∧
      List.Forall₂ same.Kept values table.liveValues ∧
      ∀ other : Comparer α, (∀ value, other value value = .ok true) →
        (∀ new old, same new old = .ok true → other new old = .ok true) →
        ∃ again, diffInputs (some table.compact) values other = .ok again ∧ again.fault = none ∧
          again.entries = table.liveValues.map (·, .cached) := by
  intro olds
  obtain ⟨table, h⟩ := diffInputs_total ht previous values
  obtain ⟨slots, hd, rfl⟩ := diffInputs_eq_ok h
  obtain ⟨hlength, hpositions⟩ := diffSlots_positions hd
  have hkept : List.Forall₂ same.Kept values (⟨slots, false, none⟩ : Table α).liveValues := by
    rw [liveValues_eq_flatMap]
    exact diffSlots_kept hd
  refine ⟨_, h, rfl, hlength, hpositions, hkept.length_eq.symm, hkept, fun other hrefl haccepts => ?_⟩
  refine ⟨_, diffInputs_again h hrefl haccepts, rfl, ?_⟩
  rw [entries, List.flatMap_map]
  simp [List.map_eq_flatMap]

/-! A table with slots of all kinds, and a comparer that looks at the last digit. -/

namespace OddSlots

def before : Table Nat where
  slots := [.uniform [1] .removed, .vacant .cached, .filled (3, .added) [(4, .removed)],
    .uniform [5] .modified, .uniform [6, 7] .cached, .vacant .removed]
  isCompacted := true
  fault := some (.inStage "numbers" "refused")

def sameDigit : Comparer Nat := fun new old => .ok (new % 10 == old % 10)

end OddSlots

open OddSlots in
/-- One value is kept, the other three replace what was there, two slots are left over. -/
theorem diffInputs_exact_odd : ∃ made again,
    diffInputs (some before) [11, 2, 3, 8] sameDigit = .ok made ∧
    made.slots = [.uniform [1] .cached, .uniform [2] .modified, .uniform [3] .modified,
      .uniform [8] .modified, .uniform [6, 7] .removed, .vacant .removed] ∧
    List.Forall₂ sameDigit.Kept [11, 2, 3, 8] made.liveValues ∧
    diffInputs (some made.compact) [11, 2, 3, 8] sameDigit = .ok again ∧
    again.entries = [(1, .cached), (2, .cached), (3, .cached), (8, .cached)] := by
  have ht : sameDigit.Total := fun new old => ⟨new % 10 == old % 10, rfl⟩
  have hrefl : ∀ value, sameDigit value value = .ok true := fun value => by simp [sameDigit]
  obtain ⟨made, hmade, -, -, -, -, hkept, hagain⟩ :=
    diffInputs_exact ht (some before) [11, 2, 3, 8]
  obtain ⟨again, hx, -, hentries⟩ := hagain sameDigit hrefl fun _ _ hs => hs
  cases hmade
  exact ⟨_, again, rfl, rfl, hkept, hx, hentries⟩

end Table

end Regen
