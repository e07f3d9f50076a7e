import Regen.Proofs.EditScript
import Regen.Proofs.SlotLayout

/-!
# Recomputed slots and their positions

A recomputed slot is what its new values make of the old ones, position by position. In memory two
loops make it, and the second one starts where the first one ended. Which slot is the old one is
counted by the builder, which knows only how many slots it has and how many of them were inserted.
That count is the number of calls so far that took up a position before, whatever the states in the
slots are and whatever tables the calls refer to. A call that panics counts for nothing. A recorded
fault is left out, since it neither makes a slot nor moves a position.
-/

namespace Regen

variable {α : Type}

/-- What a recomputed slot holds at one position, from the old value and the new one there. -/
inductive EntryDiff (same : Comparer α) : Option α → Option α → α × EntryState → Prop
  | kept {old new} : same new old = .ok true →
      EntryDiff same (some old) (some new) (old, .cached)
  | replaced {old new} : same new old = .ok false →
      EntryDiff same (some old) (some new) (new, .modified)
  | added {new} : EntryDiff same none (some new) (new, .added)
  | removed {old} : EntryDiff same (some old) none (old, .removed)

namespace EntryDiff

variable {same : Comparer α} {old new : Option α} {entry : α × EntryState}

/-- An entry is live where there is a new value. -/
theorem isLive_eq (h : EntryDiff same old new entry) : entry.2.isLive = new.isSome := by
  cases h <;> rfl

/-- An entry was there before where there is an old value. -/
theorem ne_added_eq (h : EntryDiff same old new entry) : (entry.2 != .added) = old.isSome := by
  cases h <;> rfl

end EntryDiff

/-- Entries that are an exact diff of new values beside old ones: one for every position, made of what
is there. The live ones stand for the new values, and those that were not added for the old ones. -/
structure ExactDiff (same : Comparer α) (olds news : List α) (entries : List (α × EntryState)) :
    Prop where
  length_eq : entries.length = max news.length olds.length
  positions : ∀ (i : Nat) entry, entries[i]? = some entry → EntryDiff same olds[i]? news[i]? entry
  live_eq : entries.filter (·.2.isLive) = entries.take news.length
  live_length : (liveOf entries).length = news.length
  old_eq : entries.filter (·.2 != .added) = entries.take olds.length
  old_length : oldCount entries = olds.length

/-- A test that tells the first elements from the others selects these. -/
theorem filter_eq_take {test : α → Bool} (entries : List α) (count : Nat)
    (h : ∀ (i : Nat) entry, entries[i]? = some entry → test entry = decide (i < count)) :
    entries.filter test = entries.take count := by
  induction entries generalizing count with
  | nil => simp
  | cons entry rest ih =>
    have hfirst := h 0 entry rfl
    cases count with
    | zero =>
      have hrest := ih 0 fun i later hi => by simpa using h (i + 1) later hi
      simpa [hfirst] using hrest
    | succ count =>
      have hrest := ih count fun i later hi => by simpa using h (i + 1) later hi
      simpa [hfirst] using hrest

namespace TableBuilder

variable {same : Comparer α} {news olds : List α} {entries : List (α × EntryState)}

theorem recompute_beyond (news : List α) :
    recompute same news [] = .ok (news.map (·, .added)) := by
  cases news <;> rfl

/-- There are as many entries as positions on either side, each made of what is at its position. -/
theorem recompute_positions (h : recompute same news olds = .ok entries) :
    entries.length = max news.length olds.length ∧
      ∀ (i : Nat) entry, entries[i]? = some entry → EntryDiff same olds[i]? news[i]? entry := by
  induction news generalizing olds entries with
  | nil =>
    cases h
    refine ⟨by simp, fun i entry hi => ?_⟩
    rw [List.getElem?_map] at hi
    obtain ⟨old, ho, rfl⟩ := Option.map_eq_some_iff.mp hi
    rw [ho]
    exact .removed
  | cons new news ih =>
    cases olds with
    | nil =>
      cases h
      refine ⟨by simp, fun i entry hi => ?_⟩
      rw [List.getElem?_map] at hi
      obtain ⟨value, hv, rfl⟩ := Option.map_eq_some_iff.mp hi
      rw [hv]
      exact .added
    | cons old olds =>
      obtain ⟨rest, hrest, hfirst⟩ := recompute_cons h
      obtain ⟨hlength, hpositions⟩ := ih hrest
      have hentry : ∃ first, entries = first :: rest ∧ EntryDiff same (some old) (some new) first := by
        rcases hfirst with ⟨hs, rfl⟩ | ⟨hs, rfl⟩
        · exact ⟨_, rfl, .kept hs⟩
        · exact ⟨_, rfl, .replaced hs⟩
      obtain ⟨first, rfl, hdiff⟩ := hentry
      refine ⟨by simp only [List.length_cons, hlength]; omega, fun i entry hi => ?_⟩
      cases i with
      | zero =>
        cases hi
        exact hdiff
      | succ i => exact hpositions i entry hi

/-- Which entries are live and which were there before can be told from their positions. -/
theorem recompute_exact (h : recompute same news olds = .ok entries) :
    ExactDiff same olds news entries := by
  obtain ⟨hlength, hpositions⟩ := recompute_positions h
  have hlive : entries.filter (·.2.isLive) = entries.take news.length := by
    refine filter_eq_take entries news.length fun i entry hi => ?_
    rw [(hpositions i entry hi).isLive_eq, Bool.eq_iff_iff]
    simp
  have hold : entries.filter (·.2 != .added) = entries.take olds.length := by
    refine filter_eq_take entries olds.length fun i entry hi => ?_
    rw [(hpositions i entry hi).ne_added_eq, Bool.eq_iff_iff]
    simp
  exact ⟨hlength, hpositions, hlive, (recompute_kept h).length_eq.symm, hold,
    (recompute_script h).oldCount_eq⟩

end TableBuilder

namespace SlotLayout

/-- What the first loop adds for the new value at an index. -/
def compareValue (same : Comparer α) (olds : List α) (made : List α × List EntryState) (index : Nat)
    (new : α) : Except Panic (List α × List EntryState) :=
  match olds[index]? with
  | some old => do
    if ← same new old then return (made.1 ++ [old], made.2 ++ [.cached])
    else return (made.1 ++ [new], made.2 ++ [.modified])
  | none => return (made.1 ++ [new], made.2 ++ [.added])

/-- The first loop goes through the new values from an index on. -/
def compareValues (same : Comparer α) (olds : List α) (made : List α × List EntryState) :
    Nat → List α → Except Panic (List α × List EntryState)
  | _, [] => return made
  | index, new :: news => do
    compareValues same olds (← compareValue same olds made index new) (index + 1) news

/-- The second loop goes through the old values from where the first one ended. -/
def keepRemoved (olds : List α) (made : List α × List EntryState) : List α × List EntryState :=
  let left := olds.drop made.1.length
  (made.1 ++ left, made.2 ++ left.map fun _ => .removed)

/-- A recomputed slot as both loops lay it out. -/
def recomputed (same : Comparer α) (news olds : List α) : Except Panic (SlotLayout α) := do
  let made ← compareValues same olds ([], []) 0 news
  let all := keepRemoved olds made
  return withStates all.1 all.2

variable {same : Comparer α}

/-- From an index on both loops make what is left to recompute there. The first loop has made one entry
for each index before, so that the second one starts where the new values end. -/
theorem compareValues_eq (olds news : List α) (made : List α × List EntryState) :
    (compareValues same olds made made.1.length news).map (keepRemoved olds) =
      (TableBuilder.recompute same news (olds.drop made.1.length)).map fun entries =>
        (made.1 ++ entries.map (·.1), made.2 ++ entries.map (·.2)) := by
  induction news generalizing made with
  | nil => simp [compareValues, keepRemoved, TableBuilder.recompute, pure, Except.pure, Except.map,
      Function.comp_def]
  | cons new news ih =>
    -- Whichever entry the first loop adds, the rest goes on from the next index.
    have hnext (value : α) (state : EntryState) :
        (compareValues same olds (made.1 ++ [value], made.2 ++ [state]) (made.1.length + 1) news).map
            (keepRemoved olds) =
          (TableBuilder.recompute same news (olds.drop (made.1.length + 1))).map fun entries =>
            (made.1 ++ value :: entries.map (·.1), made.2 ++ state :: entries.map (·.2)) := by
      simpa using ih (made.1 ++ [value], made.2 ++ [state])
    simp only [compareValues, compareValue, bind, Except.bind]
    by_cases hi : made.1.length < olds.length
    · rw [List.getElem?_eq_getElem hi, List.drop_eq_getElem_cons hi]
      simp only [TableBuilder.recompute, bind, Except.bind]
      cases same new olds[made.1.length] with
      | error panic => rfl
      | ok accepted =>
        cases accepted with
        | false =>
          refine (hnext new .modified).trans ?_
          cases TableBuilder.recompute same news (olds.drop (made.1.length + 1)) <;> rfl
        | true =>
          refine (hnext olds[made.1.length] .cached).trans ?_
          cases TableBuilder.recompute same news (olds.drop (made.1.length + 1)) <;> rfl
    · have hend : olds.length ≤ made.1.length := Nat.le_of_not_lt hi
      rw [List.getElem?_eq_none hend, List.drop_eq_nil_of_le hend]
      refine (hnext new .added).trans ?_
      rw [List.drop_eq_nil_of_le (Nat.le_succ_of_le hend), TableBuilder.recompute_beyond]
      rfl

/-- Both loops lay out the entries that are recomputed. -/
theorem recomputed_eq (news olds : List α) :
    recomputed same news olds =
      (TableBuilder.recompute same news olds).map fun entries => (Slot.ofEntries entries).layout := by
  have hloops : (compareValues same olds ([], []) 0 news).map (keepRemoved olds) =
      (TableBuilder.recompute same news olds).map fun entries =>
        (entries.map (·.1), entries.map (·.2)) := compareValues_eq olds news ([], [])
  have hsplit : recomputed same news olds =
      ((compareValues same olds ([], []) 0 news).map (keepRemoved olds)).map
        fun all => withStates all.1 all.2 := by
    unfold recomputed
    cases compareValues same olds ([], []) 0 news <;> rfl
  rw [hsplit, hloops]
  cases TableBuilder.recompute same news olds with
  | error panic => rfl
  | ok entries => exact congrArg Except.ok (Slot.layout_ofEntries entries).symm

end SlotLayout

/-- A call on a builder that appends a slot. Each call may refer to a table of its own. -/
inductive SlotCall (α : Type) where
  | addEntries (values : List α) (state : EntryState)
  | addEntriesFromPrevious (previous : Table α) (state : EntryState)
  | addModifiedEntries (previous : Table α) (values : List α) (same : Comparer α)

namespace SlotCall

def perform (builder : TableBuilder α) : SlotCall α → Except Panic (TableBuilder α)
  | .addEntries values state => .ok (builder.addEntries values state)
  | .addEntriesFromPrevious previous state => builder.addEntriesFromPrevious previous state
  | .addModifiedEntries previous values same => builder.addModifiedEntries previous values same

/-- The slot takes up no position before. States inside a slot that is copied or recomputed do not
count. -/
def inserts : SlotCall α → Bool
  | .addEntries _ state => state == .added
  | .addEntriesFromPrevious _ _ => false
  | .addModifiedEntries _ _ _ => false

/-- The slot that a call appends where it is aligned with a position before. -/
def slotFor (position : Nat) : SlotCall α → Except Panic (Slot α)
  | .addEntries values state => .ok (.uniform values state)
  | .addEntriesFromPrevious previous state => do
    return (← previous.slotAt position).retagged state
  | .addModifiedEntries previous values same => do
    let old ← previous.slotAt position
    return .ofEntries (← TableBuilder.recompute same values old.values)

/-- The builder after calls, one after another. One that panics leaves the builder as it was. -/
def performAll (builder : TableBuilder α) : List (SlotCall α) → TableBuilder α
  | [] => builder
  | call :: rest =>
    match call.perform builder with
    | .ok next => performAll next rest
    | .error _ => performAll builder rest

/-- Those of the calls that do not panic. -/
def completed (builder : TableBuilder α) : List (SlotCall α) → List (SlotCall α)
  | [] => []
  | call :: rest =>
    match call.perform builder with
    | .ok next => call :: completed next rest
    | .error _ => completed builder rest

variable {builder next : TableBuilder α} {call : SlotCall α}

/-- What a call does: it appends the slot for the aligned position, and counts it if it is inserted. -/
theorem perform_eq (builder : TableBuilder α) (call : SlotCall α) :
    call.perform builder = (call.slotFor builder.previousIndex).map fun slot =>
      ⟨builder.slots ++ [slot], builder.inserted + call.inserts.toNat, builder.fault⟩ := by
  cases call with
  | addEntries values state => cases state <;> rfl
  | addEntriesFromPrevious previous state =>
    simp only [perform, slotFor, TableBuilder.addEntriesFromPrevious]
    cases previous.slotAt builder.previousIndex <;> rfl
  | addModifiedEntries previous values same =>
    simp only [perform, slotFor, TableBuilder.addModifiedEntries, bind, Except.bind]
    cases previous.slotAt builder.previousIndex with
    | error panic => rfl
    | ok old =>
      dsimp only
      cases TableBuilder.recompute same values old.values <;> rfl

/-- A call that does not panic adds one slot. -/
theorem perform_counts (h : call.perform builder = .ok next) :
    next.slots.length = builder.slots.length + 1 ∧
      next.inserted = builder.inserted + call.inserts.toNat := by
  rw [perform_eq] at h
  cases hs : call.slotFor builder.previousIndex with
  | error panic =>
    rw [hs] at h
    cases h
  | ok slot =>
    rw [hs] at h
    cases h
    exact ⟨List.length_append, rfl⟩

/-- After any calls the builder has a slot for each that did not panic, and knows which were inserted. -/
theorem performAll_counts (calls : List (SlotCall α)) (builder : TableBuilder α) :
    (performAll builder calls).slots.length =
        builder.slots.length + (completed builder calls).length ∧
      (performAll builder calls).inserted =
        builder.inserted + (completed builder calls).countP inserts := by
  induction calls generalizing builder with
  | nil => exact ⟨rfl, rfl⟩
  | cons call rest ih =>
    simp only [performAll, completed]
    cases h : call.perform builder with
    | error panic => exact ih builder -- it is left out on both sides
    | ok next =>
      obtain ⟨hslots, hinserted⟩ := perform_counts h
      obtain ⟨hlength, hcount⟩ := ih next
      rw [hlength, hcount, hslots, hinserted, List.length_cons, List.countP_cons]
      cases call.inserts <;> simp <;> omega

/-- The aligned position is the number of calls that were not inserted, and there are enough slots to
count it. -/
theorem performAll_position (calls : List (SlotCall α)) :
    (performAll .empty calls).inserted ≤ (performAll .empty calls).slots.length ∧
      (performAll .empty calls).previousIndex = (completed .empty calls).countP (!·.inserts) := by
  obtain ⟨hlength, hinserted⟩ := performAll_counts calls .empty
  replace hlength := hlength.trans (Nat.zero_add _)
  replace hinserted := hinserted.trans (Nat.zero_add _)
  have hsplit : (completed .empty calls).length =
      (completed .empty calls).countP inserts + (completed .empty calls).countP (!·.inserts) := by
    simpa using List.length_eq_countP_add_countP inserts (l := completed .empty calls)
  unfold TableBuilder.previousIndex
  omega

end SlotCall

namespace TableBuilder

/-- Recomputed slots are exact diffs. Where the table before has a slot at the aligned position, and the
comparer answers for the values at the positions of both, a builder in any state gets exactly one slot,
whose entries are the exact diff of the new values beside those of that slot. In memory the two loops lay
that slot out, and its states are read back as those of the entries.

Any calls on a new builder leave it aligned. Those that did not panic have appended a slot each, and no
more slots are counted as inserted than there are. A call is aligned with the position that is the number
of calls before it that took one up, and appends the slot for that position or panics as that slot does. -/
theorem addModifiedEntries_exact_aligned :
    (∀ (builder : TableBuilder α) (previous : Table α) (old : Slot α) (news : List α)
        (same : Comparer α),
      previous.slots[builder.previousIndex]? = some old →
      (∀ pair ∈ news.zip old.values, ∃ accepted, same pair.1 pair.2 = .ok accepted) →
      ∃ entries,
        builder.addModifiedEntries previous news same = .ok (builder.push (.ofEntries entries)) ∧
        ExactDiff same old.values news entries ∧
        SlotLayout.recomputed same news old.values = .ok (Slot.ofEntries entries).layout ∧
        (Slot.ofEntries entries).layout.read? = some entries) ∧
    ∀ (calls : List (SlotCall α)) (call : SlotCall α),
      let builder := SlotCall.performAll .empty calls
      let done := SlotCall.completed .empty calls
      let position := done.countP (!·.inserts)
      builder.slots.length = done.length ∧
      builder.inserted = done.countP (·.inserts) ∧
      builder.inserted ≤ builder.slots.length ∧
      builder.previousIndex = position ∧
      (call.perform builder).map (·.slots) =
        (call.slotFor position).map (builder.slots ++ [·]) := by
  refine ⟨fun builder previous old news same hold hanswers => ?_, fun calls call => ?_⟩
  · obtain ⟨entries, he⟩ := recompute_answered hanswers
    have hslot : previous.slotAt builder.previousIndex = .ok old := by simp [Table.slotAt, hold]
    have hlaid : SlotLayout.recomputed same news old.values = .ok (Slot.ofEntries entries).layout := by
      rw [SlotLayout.recomputed_eq, he]
      rfl
    refine ⟨entries, ?_, recompute_exact he, hlaid, ?_⟩
    · simp [addModifiedEntries, hslot, he, bind, Except.bind, pure, Except.pure]
    · rw [Slot.read?_layout, Slot.entries_ofEntries]
  · intro builder done position
    obtain ⟨hslots, hinserted⟩ := SlotCall.performAll_counts calls .empty
    obtain ⟨hle, hposition⟩ := SlotCall.performAll_position calls
    refine ⟨hslots.trans (Nat.zero_add _), hinserted.trans (Nat.zero_add _), hle, hposition, ?_⟩
    rw [SlotCall.perform_eq, hposition]
    cases call.slotFor position <;> rfl

/-! A builder on which one slot is inserted and one call panics. -/

namespace InsertedSlots

/-- Looks at the last digit, and refuses zero. -/
def sameDigit : Comparer Nat := fun new old =>
  if new = 0 then .error (.text "zero") else .ok (new % 10 == old % 10)

def before : Table Nat where
  slots := [.uniform [1, 2, 3] .cached, .uniform [20] .cached, .uniform [5, 6, 7] .cached]
  isCompacted := true
  fault := none

/-- The first slot is recomputed and gets an added entry, the second one is inserted. The third call
panics, and the last one copies a slot as added. -/
def calls : List (SlotCall Nat) :=
  [.addModifiedEntries before [11, 9, 3, 4] sameDigit, .addEntries [15] .added,
    .addModifiedEntries before [0] sameDigit, .addEntriesFromPrevious before .added]

end InsertedSlots

open InsertedSlots in
/-- Of the three slots one was inserted, so that the next one is aligned with the last slot before. -/
theorem addModifiedEntries_exact_aligned_inserting :
    let builder := SlotCall.performAll .empty calls
    builder.slots = [.ofEntries [(1, .cached), (9, .modified), (3, .cached), (4, .added)],
      .uniform [15] .added, .uniform [20] .added] ∧
    builder.inserted = 1 ∧ builder.previousIndex = 2 ∧
    before.slots[builder.previousIndex]? = some (.uniform [5, 6, 7] .cached) ∧
    (∀ pair ∈ [25, 8].zip [5, 6, 7], ∃ accepted, sameDigit pair.1 pair.2 = .ok accepted) ∧
    ∃ entries,
      builder.addModifiedEntries before [25, 8] sameDigit = .ok (builder.push (.ofEntries entries)) ∧
      entries = [(5, .cached), (8, .modified), (7, .removed)] ∧
      entries.filter (·.2.isLive) = [(5, .cached), (8, .modified)] ∧
      entries.filter (·.2 != .added) = entries ∧
      SlotLayout.recomputed sameDigit [25, 8] [5, 6, 7] =
        .ok ⟨[5, 8, 7], .each [.cached, .modified, .removed]⟩ := by
  intro builder
  obtain ⟨hexact, haligned⟩ := addModifiedEntries_exact_aligned (α := Nat)
  obtain ⟨-, hinserted, -, hposition, -⟩ := haligned calls (.addEntries [] .cached)
  have hold : before.slots[builder.previousIndex]? = some (.uniform [5, 6, 7] .cached) := by decide
  have hanswers : ∀ pair ∈ [25, 8].zip [5, 6, 7], ∃ accepted,
      sameDigit pair.1 pair.2 = .ok accepted := by
    simp [sameDigit]
  obtain ⟨entries, hpush, hdiff, hlaid, -⟩ := hexact builder before _ [25, 8] sameDigit hold hanswers
  have hentries : [(5, .cached), (8, .modified), (7, .removed)] = entries := by
    have hrun : builder.addModifiedEntries before [25, 8] sameDigit =
        .ok (builder.push (.ofEntries [(5, .cached), (8, .modified), (7, .removed)])) := rfl
    have hslot : Slot.ofEntries [(5, .cached), (8, .modified), (7, .removed)] = .ofEntries entries := by
      simpa [push] using Except.ok.inj (hrun.symm.trans hpush)
    simpa using congrArg Slot.entries hslot
  subst hentries
  exact ⟨rfl, hinserted, hposition, hold, hanswers, _, hpush, rfl, hdiff.live_eq, hdiff.old_eq, hlaid⟩

end TableBuilder

end Regen
