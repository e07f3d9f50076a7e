import Regen.Proofs.EditScript

/-!
# One slot for each entry of the source

A stage that reads another one makes one slot for each entry of its source. `Row` says what a
single slot may be, and `Rows` strings them together: every entry that was there before uses up
the next slot of the table before. What is made of a value is a relation in `RowBy` and `RowsBy`, so
that it need not be the same whenever it is made. From the rows follow the edit script of the whole table, the
values that are live in it, and what compaction leaves of it. `Fits` is the relation between a
source and its slots in a baseline; it allows for slots that compaction dropped although the entry
behind them stayed, which is why it is weaker than `List.Forall₂`.
-/

namespace Regen

variable {α β : Type}

section

variable (makes : α → List β → Prop) (same : Comparer β) (copies : Bool)

/-- The slot that stands for an entry of the source, from the slot that it replaces if there is
one. Unchanged entries keep their slot when slots may be copied, and are recomputed like modified
ones otherwise. -/
inductive RowBy : α → EntryState → Option (Slot β) → Slot β → Prop
  | dropped (value old) : RowBy value .removed (some old) (.uniform old.values .removed)
  | skipped (value) : RowBy value .removed none (.uniform [] .removed)
  | copied {value old} : copies = true → RowBy value .cached (some old) (.uniform old.values .cached)
  | recomputed {value state old new entries} :
      (state = .modified ∨ state = .cached ∧ copies = false) → makes value new →
      TableBuilder.recompute same new old.values = .ok entries →
      RowBy value state (some old) (.ofEntries entries)
  | fresh {value state new} : state ≠ .removed → makes value new →
      RowBy value state none (.uniform new .added)

/-- The slots for the entries of a source. With a baseline, the entries that were there before use
up its slots in order; without one, no slot replaces another. -/
inductive RowsBy (hasBaseline : Bool) :
    List (α × EntryState) → List (Slot β) → List (Slot β) → Prop
  | nil : RowsBy hasBaseline [] [] []
  | inserted {value state slot rest olds slots} : (hasBaseline = true → state = .added) →
      RowBy makes same copies value state none slot → RowsBy hasBaseline rest olds slots →
      RowsBy hasBaseline ((value, state) :: rest) olds (slot :: slots)
  | replaced {value state old slot rest olds slots} : hasBaseline = true → state ≠ .added →
      RowBy makes same copies value state (some old) slot → RowsBy hasBaseline rest olds slots →
      RowsBy hasBaseline ((value, state) :: rest) (old :: olds) (slot :: slots)

/-- The values that may stand in the slot of a source value. -/
def MadeBy (value : α) (kept : List β) : Prop :=
  ∃ new, makes value new ∧ List.Forall₂ same.Kept new kept

end

section

variable (image : α → Except Fault (List β)) (same : Comparer β) (copies : Bool)

/-- What is made of a value by a function that may fail. -/
abbrev Makes (value : α) (new : List β) : Prop :=
  image value = .ok new

abbrev Row := RowBy (Makes image) same copies

abbrev Rows := RowsBy (Makes image) same copies

abbrev Made := MadeBy (Makes image) same

/-- The entries up to the first one whose value cannot be computed. Entries that are copied are
not computed. -/
inductive Blocked (hasBaseline : Bool) : List (α × EntryState) → Fault → Prop
  | here {value state rest fault} : state.isLive = true → image value = .error fault →
      Blocked hasBaseline ((value, state) :: rest) fault
  | later {value state rest fault} :
      (state.isLive = true → (∃ new, image value = .ok new) ∨ state = .cached ∧ hasBaseline = true) →
      Blocked hasBaseline rest fault → Blocked hasBaseline ((value, state) :: rest) fault

end

/-- What a slot shows for an entry of the source: the entry's values while it is live, and nothing
once it is gone. -/
def Stands (R : α → List β → Prop) (entry : α × EntryState) (slot : Slot β) : Prop :=
  if entry.2.isLive = true then R entry.1 slot.liveValues else slot.isRemoved = true

/-- The slots of a baseline beside the values of its source, in order. A value for which nothing is
made may have lost its slot. -/
inductive Fits (R : α → List β → Prop) : List α → List (List β) → Prop
  | nil : Fits R [] []
  | keep {value values slot slots} : R value slot → Fits R values slots →
      Fits R (value :: values) (slot :: slots)
  | lose {value values slots} : R value [] → Fits R values slots → Fits R (value :: values) slots

namespace RowBy

variable {makes : α → List β → Prop} {image : α → Except Fault (List β)} {same : Comparer β}
  {copies : Bool} {value : α} {state : EntryState} {old slot : Slot β}

theorem script (h : RowBy makes same copies value state (some old) slot) :
    EditScript same old.values slot.entries := by
  cases h with
  | dropped => simpa using EditScript.allRemoved same old.values
  | copied => simpa using EditScript.allCached same old.values
  | recomputed _ _ hr => simpa using TableBuilder.recompute_script hr

theorem script_inserted (h : RowBy makes same copies value state none slot) :
    EditScript same [] slot.entries := by
  cases h with
  | skipped => exact .nil
  | fresh _ hi => simpa using EditScript.allAdded same _

theorem stands_inserted (h : RowBy makes same copies value state none slot) :
    Stands (MadeBy makes same) (value, state) slot := by
  cases h with
  | skipped => simp [Stands, EntryState.isLive]
  | fresh hs hi =>
    have hl : state.isLive = true := by simpa [EntryState.isLive] using hs
    simp only [Stands, hl, if_true]
    rw [Slot.liveValues_uniform (by decide)]
    exact ⟨_, hi, same.forall₂_kept_self _⟩

theorem stands (h : RowBy makes same copies value state (some old) slot)
    (hcopy : copies = true → state = .cached → MadeBy makes same value old.values) :
    Stands (MadeBy makes same) (value, state) slot := by
  cases h with
  | dropped => simp [Stands, EntryState.isLive]
  | copied hc =>
    simp only [Stands, EntryState.isLive, bne_iff_ne, ne_eq, reduceCtorEq, not_false_eq_true, if_true]
    rw [Slot.liveValues_uniform (by decide)]
    exact hcopy hc rfl
  | recomputed hs hi hr =>
    have hl : state.isLive = true := by rcases hs with rfl | ⟨rfl, -⟩ <;> rfl
    simp only [Stands, hl, if_true]
    have hk := TableBuilder.recompute_kept hr
    exact ⟨_, hi, by simpa [Slot.liveValues, liveOf] using hk⟩

/-- A live entry loses its slot exactly when it was recomputed to nothing and the slot still shows
what was there before. -/
theorem isRemoved_iff {previous : Option (Slot β)}
    (h : Row image same copies value state previous slot) (hl : state.isLive = true) :
    slot.isRemoved = true ↔ (state = .modified ∨ state = .cached ∧ copies = false) ∧
      image value = .ok [] ∧ slot.entries ≠ [] := by
  cases h with
  | dropped => simp [EntryState.isLive] at hl
  | skipped => simp [EntryState.isLive] at hl
  | copied hc => simp [hc]
  | recomputed hs hi hr =>
    rw [Slot.isRemoved_ofEntries, TableBuilder.recompute_all_removed hr, Slot.entries_ofEntries, hi,
      Except.ok.injEq]
    constructor
    · rintro ⟨hentries, hnil⟩
      exact ⟨hs, hnil, hentries⟩
    · rintro ⟨-, hnil, hentries⟩
      exact ⟨hentries, hnil⟩
  | @fresh _ new hs hi =>
    have hne : (Slot.uniform new EntryState.added).isRemoved = false := by
      rw [Slot.isRemoved_uniform]
      rfl
    rw [hne, hi]
    constructor
    · intro h
      cases h
    · rintro ⟨-, hnew, hentries⟩
      cases hnew
      exact absurd rfl hentries

/-- A slot holds old values and what is made of a live value. -/
theorem mem_values {previous : Option (Slot β)}
    (h : RowBy makes same copies value state previous slot) {kept : β} (hm : kept ∈ slot.values) :
    (∃ old, previous = some old ∧ kept ∈ old.values) ∨
      state.isLive = true ∧ ∃ new, makes value new ∧ kept ∈ new := by
  cases h with
  | dropped =>
    rw [Slot.values_uniform] at hm
    exact .inl ⟨_, rfl, hm⟩
  | skipped => cases hm
  | copied =>
    rw [Slot.values_uniform] at hm
    exact .inl ⟨_, rfl, hm⟩
  | recomputed hs hi hr =>
    have hl : state.isLive = true := by rcases hs with rfl | ⟨rfl, -⟩ <;> rfl
    rw [Slot.values, Slot.entries_ofEntries] at hm
    obtain ⟨entry, hentry, rfl⟩ := List.mem_map.mp hm
    rcases TableBuilder.recompute_mem hr entry hentry with hnew | hold
    · exact .inr ⟨hl, _, hi, hnew⟩
    · exact .inl ⟨_, rfl, hold⟩
  | fresh hs hi =>
    rw [Slot.values_uniform] at hm
    exact .inr ⟨by simpa [EntryState.isLive] using hs, _, hi, hm⟩

/-- An entry that has a slot was computed or is copied. -/
theorem image_ok {previous : Option (Slot β)} (h : Row image same copies value state previous slot)
    (hl : state.isLive = true) :
    (∃ new, image value = .ok new) ∨ state = .cached ∧ previous.isSome = true := by
  cases h with
  | dropped => simp [EntryState.isLive] at hl
  | skipped => simp [EntryState.isLive] at hl
  | copied => exact .inr ⟨rfl, rfl⟩
  | recomputed _ hi _ => exact .inl ⟨_, hi⟩
  | fresh _ hi => exact .inl ⟨_, hi⟩

end RowBy

namespace RowsBy

variable {makes : α → List β → Prop} {image : α → Except Fault (List β)} {same : Comparer β}
  {copies hasBaseline : Bool} {entries : List (α × EntryState)} {olds slots : List (Slot β)}

/-- The table is an edit script on the slots that were used up. -/
theorem script (h : RowsBy makes same copies hasBaseline entries olds slots) :
    EditScript same (olds.flatMap Slot.values) (slots.flatMap Slot.entries) := by
  induction h with
  | nil => exact .nil
  | inserted _ hr _ ih => simpa using hr.script_inserted.append ih
  | replaced _ _ hr _ ih => simpa using hr.script.append ih

/-- The table holds values of the slots that were used up and what is made of live values. -/
theorem mem_values (h : RowsBy makes same copies hasBaseline entries olds slots) {kept : β}
    (hm : kept ∈ slots.flatMap Slot.values) : kept ∈ olds.flatMap Slot.values ∨
      ∃ value ∈ liveOf entries, ∃ new, makes value new ∧ kept ∈ new := by
  induction h with
  | nil => cases hm
  | @inserted value state slot rest olds slots _ hr _ ih =>
    rw [List.flatMap_cons, List.mem_append] at hm
    rw [liveOf_cons]
    rcases hm with hm | hm
    · obtain ⟨_, hnone, -⟩ | ⟨hl, hmade⟩ := hr.mem_values hm
      · cases hnone
      · rw [if_pos hl]
        exact .inr ⟨value, List.mem_cons_self, hmade⟩
    · refine (ih hm).imp_right fun ⟨made, hlive, hmade⟩ => ⟨made, ?_, hmade⟩
      split
      · exact List.mem_cons_of_mem _ hlive
      · exact hlive
  | @replaced value state old slot rest olds slots _ _ hr _ ih =>
    rw [List.flatMap_cons, List.mem_append] at hm
    rw [liveOf_cons, List.flatMap_cons, List.mem_append]
    rcases hm with hm | hm
    · obtain ⟨_, hsome, hold⟩ | ⟨hl, hmade⟩ := hr.mem_values hm
      · cases hsome
        exact .inl (.inl hold)
      · rw [if_pos hl]
        exact .inr ⟨value, List.mem_cons_self, hmade⟩
    · refine (ih hm).imp .inr fun ⟨made, hlive, hmade⟩ => ⟨made, ?_, hmade⟩
      split
      · exact List.mem_cons_of_mem _ hlive
      · exact hlive

/-- Which of the slots are gone although their entries are live. -/
theorem isRemoved_iff (h : Rows image same copies hasBaseline entries olds slots) :
    ∀ row ∈ entries.zip slots, row.1.2.isLive = true → (row.2.isRemoved = true ↔
      (row.1.2 = .modified ∨ row.1.2 = .cached ∧ copies = false) ∧ image row.1.1 = .ok [] ∧
        row.2.entries ≠ []) := by
  induction h with
  | nil =>
    intro row hm
    cases hm
  | inserted _ hr _ ih =>
    intro row hm hl
    rcases List.mem_cons.mp hm with rfl | hm
    · exact hr.isRemoved_iff hl
    · exact ih row hm hl
  | replaced _ _ hr _ ih =>
    intro row hm hl
    rcases List.mem_cons.mp hm with rfl | hm
    · exact hr.isRemoved_iff hl
    · exact ih row hm hl

/-- With a baseline every entry that was there before uses up one slot. -/
theorem length_olds (h : RowsBy makes same copies true entries olds slots) :
    olds.length = oldCount entries := by
  induction h with
  | nil => rfl
  | inserted hs _ _ ih => simp [oldCount_cons, hs rfl, ih]
  | replaced _ hs _ _ ih => simp [oldCount_cons, hs, ih]

/-- When slots may be copied, entries that did not change keep theirs. -/
theorem unchanged (h : RowsBy makes same true true entries olds slots)
    (hc : ∀ entry ∈ entries, entry.2 = .cached) :
    ∀ entry ∈ slots.flatMap Slot.entries, entry.2 = .cached := by
  induction h with
  | nil =>
    intro entry hm
    cases hm
  | inserted hadd _ _ _ => cases (hadd rfl).symm.trans (hc _ List.mem_cons_self)
  | replaced _ _ hr _ ih =>
    obtain rfl := hc _ List.mem_cons_self
    intro entry hm
    rw [List.flatMap_cons, List.mem_append] at hm
    rcases hm with hm | hm
    · cases hr with
      | copied =>
        rw [Slot.entries_uniform] at hm
        obtain ⟨value, -, rfl⟩ := List.mem_map.mp hm
        rfl
      | recomputed hs => rcases hs with h | ⟨-, h⟩ <;> cases h
    · exact ih (fun e he => hc e (List.mem_cons_of_mem _ he)) entry hm

theorem olds_eq_nil (h : RowsBy makes same copies false entries olds slots) : olds = [] := by
  induction h with
  | nil => rfl
  | inserted _ _ _ ih => exact ih
  | replaced hb => cases hb

theorem stands_fresh (h : RowsBy makes same copies false entries olds slots) :
    List.Forall₂ (Stands (MadeBy makes same)) entries slots := by
  induction h with
  | nil => exact .nil
  | inserted _ hr _ ih => exact .cons hr.stands_inserted ih
  | replaced hb => cases hb

/-- On a baseline whose slots stand for the old values of the source, the new slots stand for its
entries. Slots are copied only where the old image of a value still is its image. -/
theorem stands {same' : Comparer α} {oldMakes : α → List β → Prop} {sources : List α}
    (h : RowsBy makes same copies true entries olds slots) (hs : EditScript same' sources entries)
    (ho : List.Forall₂ (fun value old => MadeBy oldMakes same value old.values) sources olds)
    (hcopy : copies = true → oldMakes = makes) :
    List.Forall₂ (Stands (MadeBy makes same)) entries slots := by
  induction h generalizing sources with
  | nil => exact .nil
  | @inserted value state slot rest olds slots hadd hr _ ih =>
    obtain rfl := hadd rfl
    cases hs with
    | added _ hs => exact .cons hr.stands_inserted (ih hs ho)
  | @replaced value state old slot rest olds slots _ hne hr _ ih =>
    cases hs with
    | added _ hs => exact absurd rfl hne
    | removed _ hs =>
      cases ho with
      | cons _ ho => exact .cons (hr.stands fun _ h => by cases h) (ih hs ho)
    | modified _ _ _ hs =>
      cases ho with
      | cons _ ho => exact .cons (hr.stands fun _ h => by cases h) (ih hs ho)
    | cached _ hs =>
      cases ho with
      | cons hm ho => exact .cons (hr.stands fun hc _ => hcopy hc ▸ hm) (ih hs ho)

end RowsBy

namespace Fits

variable {R : α → List β → Prop} {values : List α} {slots : List (List β)}

theorem length_le (h : Fits R values slots) : slots.length ≤ values.length := by
  induction h with
  | nil => exact Nat.le_refl 0
  | keep _ _ ih => simpa using ih
  | lose _ _ ih => exact Nat.le_succ_of_le ih

/-- Slots that are as many as the values are one for each. -/
theorem forall₂ (h : Fits R values slots) (hl : values.length ≤ slots.length) :
    List.Forall₂ R values slots := by
  induction h with
  | nil => exact .nil
  | keep hr _ ih => exact .cons hr (ih (by simpa using hl))
  | lose _ hf _ =>
    have := hf.length_le
    simp only [List.length_cons] at hl
    omega

/-- When something is made of every value, no slot is lost. -/
theorem forall₂_of_ne_nil (h : Fits R values slots) (hne : ∀ value ∈ values, ¬ R value []) :
    List.Forall₂ R values slots := by
  induction h with
  | nil => exact .nil
  | keep hr _ ih => exact .cons hr (ih fun v hv => hne v (List.mem_cons_of_mem _ hv))
  | lose hr => exact absurd hr (hne _ List.mem_cons_self)

theorem imp {S : α → List β → Prop} (h : Fits R values slots)
    (hi : ∀ value slot, R value slot → S value slot) : Fits S values slots := by
  induction h with
  | nil => exact .nil
  | keep hr _ ih => exact .keep (hi _ _ hr) ih
  | lose hr _ ih => exact .lose (hi _ _ hr) ih

/-- Every value has an image that is related to it, lost or not. -/
theorem exists_of_mem (h : Fits R values slots) {value : α} (hm : value ∈ values) :
    ∃ slot, R value slot := by
  induction h with
  | nil => simp at hm
  | keep hr _ ih =>
    rcases List.mem_cons.mp hm with rfl | hm
    · exact ⟨_, hr⟩
    · exact ih hm
  | lose hr _ ih =>
    rcases List.mem_cons.mp hm with rfl | hm
    · exact ⟨_, hr⟩
    · exact ih hm

end Fits

/-- The compacted slots beside the live entries that they stand for. -/
def compactedValues (slots : List (Slot β)) : List (List β) :=
  ((slots.filter (!·.isRemoved)).map Slot.compacted).map Slot.values

theorem compactedValues_cons (slot : Slot β) (slots : List (Slot β)) :
    compactedValues (slot :: slots) =
      if slot.isRemoved = true then compactedValues slots
      else slot.liveValues :: compactedValues slots := by
  cases h : slot.isRemoved <;> simp [compactedValues, h]

/-- Compaction keeps the slots in line with the live entries, but for the slots of entries of
which nothing is left. -/
theorem fits_compacted {R : α → List β → Prop} {entries : List (α × EntryState)}
    {slots : List (Slot β)} (h : List.Forall₂ (Stands R) entries slots) :
    Fits R (liveOf entries) (compactedValues slots) := by
  induction h with
  | nil => exact .nil
  | @cons entry slot _ _ hs _ ih =>
    rw [compactedValues_cons, liveOf_cons]
    unfold Stands at hs
    split at hs
    · next hl =>
      rw [if_pos hl]
      split
      · next hr =>
        rw [Slot.liveValues_eq_nil hr] at hs
        exact .lose hs ih
      · exact .keep hs ih
    · next hl =>
      rw [if_neg hl, if_pos hs]
      exact ih

theorem length_compactedValues (slots : List (Slot β)) :
    (compactedValues slots).length = (slots.filter (!·.isRemoved)).length := by
  rw [compactedValues, List.length_map, List.length_map]

/-- Compaction leaves one slot for each live entry exactly when no live entry lost its slot. -/
theorem length_compacted_iff {R : α → List β → Prop} {entries : List (α × EntryState)}
    {slots : List (Slot β)} (h : List.Forall₂ (Stands R) entries slots) :
    (compactedValues slots).length = (liveOf entries).length ↔
      ∀ row ∈ entries.zip slots, row.1.2.isLive = true → row.2.isRemoved = false := by
  induction h with
  | nil => simp [compactedValues, liveOf]
  | @cons entry slot rest others hs hrest ih =>
    have hle := (fits_compacted hrest).length_le
    rw [compactedValues_cons, liveOf_cons, List.zip_cons_cons, List.forall_mem_cons, ← ih]
    unfold Stands at hs
    by_cases hl : entry.2.isLive = true
    · cases hr : slot.isRemoved with
      | true =>
        simp only [hl, if_true, List.length_cons]
        constructor
        · intro h
          omega
        · rintro ⟨h, -⟩
          cases h trivial
      | false => simp [hl]
    · rw [if_neg hl] at hs
      simp [hl, hs]

/-- The live values of the slots, entry by entry. -/
theorem liveValues_of_stands {R : α → List β → Prop} {entries : List (α × EntryState)}
    {slots : List (Slot β)} (h : List.Forall₂ (Stands R) entries slots) :
    ∃ parts, List.Forall₂ R (liveOf entries) parts ∧ slots.flatMap Slot.liveValues = parts.flatten := by
  induction h with
  | nil => exact ⟨[], .nil, rfl⟩
  | @cons entry slot _ _ hs _ ih =>
    obtain ⟨parts, hp, he⟩ := ih
    rw [liveOf_cons, List.flatMap_cons, he]
    unfold Stands at hs
    split at hs
    · next hl => exact ⟨slot.liveValues :: parts, by rw [if_pos hl]; exact .cons hs hp, rfl⟩
    · next hl => exact ⟨parts, by rw [if_neg hl]; exact hp, by rw [Slot.liveValues_eq_nil hs]; rfl⟩

end Regen
