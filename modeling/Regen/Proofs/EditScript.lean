import Regen.Proofs.Slots

/-!
# Entries as edit scripts

The tags of a table tell how its values came from the values before: read in order, the entries
that were not added go through the old values one by one. An edit script is a list of entries that
does so. Recomputed slots and diffed leaves are edit scripts by construction, for any comparer that
does not panic; nothing is assumed about what the comparer accepts.
-/

namespace Regen

variable {α : Type}

/-- The comparer gives an answer for all values. -/
def Comparer.Total (same : Comparer α) : Prop :=
  ∀ new old, ∃ accepted, same new old = .ok accepted

/-- What may stand for a new value: the value itself, or an old one that the comparer accepts. -/
def Comparer.Kept (same : Comparer α) (new kept : α) : Prop :=
  kept = new ∨ same new kept = .ok true

theorem Comparer.total_equality [BEq α] : (Comparer.equality : Comparer α).Total :=
  fun new old => ⟨new == old, rfl⟩

theorem Comparer.kept_equality [BEq α] {new kept : α} :
    (Comparer.equality : Comparer α).Kept new kept ↔ kept = new ∨ (new == kept) = true := by
  simp [Kept, equality]

theorem Comparer.forall₂_kept_self (same : Comparer α) (values : List α) :
    List.Forall₂ same.Kept values values :=
  List.forall₂_same.mpr fun _ _ => .inl rfl

/-- The values of the entries that are not removed. -/
def liveOf (entries : List (α × EntryState)) : List α :=
  (entries.filter (·.2.isLive)).map (·.1)

theorem liveOf_cons (value : α) (state : EntryState) (rest : List (α × EntryState)) :
    liveOf ((value, state) :: rest) = if state.isLive then value :: liveOf rest else liveOf rest := by
  cases h : state.isLive <;> simp [liveOf, h]

/-- The number of entries that were there before. -/
def oldCount (entries : List (α × EntryState)) : Nat :=
  entries.countP (·.2 != .added)

theorem oldCount_cons (value : α) (state : EntryState) (rest : List (α × EntryState)) :
    oldCount ((value, state) :: rest) = oldCount rest + if state = .added then 0 else 1 := by
  cases state <;> simp [oldCount]

/-- Entries that go through the old values in order: each old value is kept, gone, or replaced by
one that the comparer rejects beside it; added entries stand between them. -/
inductive EditScript (same : Comparer α) : List α → List (α × EntryState) → Prop
  | nil : EditScript same [] []
  | added {olds entries} (value) : EditScript same olds entries →
      EditScript same olds ((value, .added) :: entries)
  | removed {olds entries} (value) : EditScript same olds entries →
      EditScript same (value :: olds) ((value, .removed) :: entries)
  | modified {olds entries} (new old) : same new old = .ok false → EditScript same olds entries →
      EditScript same (old :: olds) ((new, .modified) :: entries)
  | cached {olds entries} (value) : EditScript same olds entries →
      EditScript same (value :: olds) ((value, .cached) :: entries)

namespace EditScript

variable {same : Comparer α} {olds olds' : List α} {entries entries' : List (α × EntryState)}

theorem append (h : EditScript same olds entries) (h' : EditScript same olds' entries') :
    EditScript same (olds ++ olds') (entries ++ entries') := by
  induction h with
  | nil => exact h'
  | added value _ ih => exact .added value ih
  | removed value _ ih => exact .removed value ih
  | modified new old hr _ ih => exact .modified new old hr ih
  | cached value _ ih => exact .cached value ih

/-- The entries that were not added are as many as the old values. -/
theorem oldCount_eq (h : EditScript same olds entries) : oldCount entries = olds.length := by
  induction h with
  | nil => rfl
  | added value _ ih => simp [oldCount_cons, ih]
  | removed value _ ih => simp [oldCount_cons, ih]
  | modified new old _ _ ih => simp [oldCount_cons, ih]
  | cached value _ ih => simp [oldCount_cons, ih]

theorem allAdded (same : Comparer α) (values : List α) :
    EditScript same [] (values.map (·, .added)) := by
  induction values with
  | nil => exact .nil
  | cons value rest ih => exact .added value ih

theorem allRemoved (same : Comparer α) (values : List α) :
    EditScript same values (values.map (·, .removed)) := by
  induction values with
  | nil => exact .nil
  | cons value rest ih => exact .removed value ih

theorem allCached (same : Comparer α) (values : List α) :
    EditScript same values (values.map (·, .cached)) := by
  induction values with
  | nil => exact .nil
  | cons value rest ih => exact .cached value ih

/-- An unchanged entry carries an old value. -/
theorem mem_of_cached (h : EditScript same olds entries) {value : α}
    (hm : (value, .cached) ∈ entries) : value ∈ olds := by
  induction h with
  | nil => simp at hm
  | added v _ ih => exact ih (by simpa using hm)
  | removed v _ ih => exact List.mem_cons_of_mem _ (ih (by simpa using hm))
  | modified new old _ _ ih => exact List.mem_cons_of_mem _ (ih (by simpa using hm))
  | cached v _ ih =>
    rcases List.mem_cons.mp hm with he | hm
    · exact (Prod.mk.inj he).1 ▸ List.mem_cons_self
    · exact List.mem_cons_of_mem _ (ih hm)

end EditScript

namespace TableBuilder

variable {same : Comparer α}

/-- Values are recomputed if the comparer answers for those that stand beside each other. -/
theorem recompute_answered {news olds : List α}
    (h : ∀ pair ∈ news.zip olds, ∃ accepted, same pair.1 pair.2 = .ok accepted) :
    ∃ entries, recompute same news olds = .ok entries := by
  induction news generalizing olds with
  | nil => exact ⟨_, rfl⟩
  | cons new news ih =>
    cases olds with
    | nil => exact ⟨_, rfl⟩
    | cons old olds =>
      rw [List.zip_cons_cons, List.forall_mem_cons] at h
      obtain ⟨⟨accepted, hs⟩, hrest⟩ := h
      obtain ⟨entries, he⟩ := ih hrest
      cases accepted <;> exact ⟨_, by simp [recompute, hs, he, bind, Except.bind, pure, Except.pure]; rfl⟩

theorem recompute_total (h : same.Total) (news olds : List α) :
    ∃ entries, recompute same news olds = .ok entries :=
  recompute_answered fun pair _ => h pair.1 pair.2

/-- How one pair of values is recomputed. -/
theorem recompute_cons {new old : α} {news olds : List α} {entries : List (α × EntryState)}
    (h : recompute same (new :: news) (old :: olds) = .ok entries) :
    ∃ rest, recompute same news olds = .ok rest ∧
      (same new old = .ok true ∧ entries = (old, .cached) :: rest ∨
        same new old = .ok false ∧ entries = (new, .modified) :: rest) := by
  simp only [recompute, bind, Except.bind, pure, Except.pure] at h
  cases hs : same new old with
  | error panic => simp [hs] at h
  | ok accepted =>
    cases hr : recompute same news olds with
    | error panic => simp [hs, hr] at h
    | ok rest =>
      simp only [hs, hr, Except.ok.injEq] at h
      refine ⟨rest, rfl, ?_⟩
      cases accepted
      · exact .inr ⟨rfl, h.symm⟩
      · exact .inl ⟨rfl, h.symm⟩

theorem recompute_script {news olds : List α} {entries : List (α × EntryState)}
    (h : recompute same news olds = .ok entries) : EditScript same olds entries := by
  induction news generalizing olds entries with
  | nil =>
    obtain rfl := Except.ok.inj h
    exact .allRemoved same olds
  | cons new news ih =>
    cases olds with
    | nil =>
      obtain rfl := Except.ok.inj h
      exact .allAdded same (new :: news)
    | cons old olds =>
      obtain ⟨rest, hr, ⟨-, rfl⟩ | ⟨hs, rfl⟩⟩ := recompute_cons h
      · exact .cached old (ih hr)
      · exact .modified new old hs (ih hr)

/-- The live entries of recomputed values are these values, up to the comparer. -/
theorem recompute_kept {news olds : List α} {entries : List (α × EntryState)}
    (h : recompute same news olds = .ok entries) :
    List.Forall₂ same.Kept news (liveOf entries) := by
  induction news generalizing olds entries with
  | nil =>
    obtain rfl := Except.ok.inj h
    simp [liveOf, List.filter_map, EntryState.isLive, Function.comp_def]
  | cons new news ih =>
    cases olds with
    | nil =>
      obtain rfl := Except.ok.inj h
      have hl : liveOf ((new :: news).map (·, EntryState.added)) = new :: news := by
        simp [liveOf, List.filter_map, EntryState.isLive, Function.comp_def]
      rw [hl]
      exact same.forall₂_kept_self _
    | cons old olds =>
      obtain ⟨rest, hr, ⟨hs, rfl⟩ | ⟨-, rfl⟩⟩ := recompute_cons h
      · exact .cons (.inr hs) (ih hr)
      · exact .cons (.inl rfl) (ih hr)

/-- Recomputing brings in no other values. -/
theorem recompute_mem {news olds : List α} {entries : List (α × EntryState)}
    (h : recompute same news olds = .ok entries) :
    ∀ entry ∈ entries, entry.1 ∈ news ∨ entry.1 ∈ olds := by
  induction news generalizing olds entries with
  | nil =>
    obtain rfl := Except.ok.inj h
    rintro entry hm
    obtain ⟨old, hold, rfl⟩ := List.mem_map.mp hm
    exact .inr hold
  | cons new news ih =>
    cases olds with
    | nil =>
      obtain rfl := Except.ok.inj h
      rintro entry hm
      obtain ⟨value, hvalue, rfl⟩ := List.mem_map.mp hm
      exact .inl hvalue
    | cons old olds =>
      obtain ⟨rest, hr, hentries⟩ := recompute_cons h
      have hrest : ∀ entry ∈ rest, entry.1 ∈ new :: news ∨ entry.1 ∈ old :: olds := fun entry hm =>
        (ih hr entry hm).imp (List.mem_cons_of_mem _) (List.mem_cons_of_mem _)
      rcases hentries with ⟨-, rfl⟩ | ⟨-, rfl⟩
      · exact List.forall_mem_cons.mpr ⟨.inr List.mem_cons_self, hrest⟩
      · exact List.forall_mem_cons.mpr ⟨.inl List.mem_cons_self, hrest⟩

/-- All entries are removed exactly when nothing was recomputed. -/
theorem recompute_all_removed {news olds : List α} {entries : List (α × EntryState)}
    (h : recompute same news olds = .ok entries) :
    (∀ entry ∈ entries, entry.2 = .removed) ↔ news = [] := by
  cases news with
  | nil =>
    obtain rfl := Except.ok.inj h
    simp
  | cons new news =>
    cases olds with
    | nil =>
      obtain rfl := Except.ok.inj h
      simp
    | cons old olds =>
      obtain ⟨rest, -, ⟨-, rfl⟩ | ⟨-, rfl⟩⟩ := recompute_cons h <;> simp

end TableBuilder

end Regen
