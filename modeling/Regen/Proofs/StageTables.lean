import Regen.Proofs.Act
import Regen.Proofs.Rows

/-!
# The tables that the rules of stages make

What a builder still has ahead of it in the previous table decides whether the next slot is there.
With that view every rule of a stage is one inversion lemma: the table it makes is the fault of a
source, a fault of its own, or rows; and it panics only when the previous table has fewer slots
than the source has entries that were there before.
-/

namespace Regen

variable {α β σ : Type}

/-- The panic of a builder that asks for a slot which the previous table does not have. -/
def Panic.outOfStep (slots index : Nat) : Panic :=
  .text ("previous table has " ++ toString slots ++ " slots but slot " ++ toString index ++
    " was requested; upstream and downstream tables are out of step")

namespace TableBuilder

/-- The slots of the previous table from the aligned position on. -/
def ahead (builder : TableBuilder β) : Option (Table β) → List (Slot β)
  | some previous => previous.slots.drop builder.previousIndex
  | none => []

/-- No more slots were inserted than there are. -/
def WellFormed (builder : TableBuilder β) : Prop :=
  builder.inserted ≤ builder.slots.length

theorem wellFormed_empty : (empty : TableBuilder β).WellFormed := Nat.le_refl 0

theorem WellFormed.push {builder : TableBuilder β} (h : builder.WellFormed) (slot : Slot β) :
    (builder.push slot).WellFormed := by
  simp only [WellFormed, TableBuilder.push, List.length_append, List.length_singleton]
  exact Nat.le_succ_of_le h

@[simp] theorem ahead_empty (previous : Option (Table β)) :
    (empty : TableBuilder β).ahead previous = (previous.map Table.slots).getD [] := by
  cases previous <;> rfl

@[simp] theorem ahead_added (builder : TableBuilder β) (values : List β)
    (previous : Option (Table β)) :
    (builder.addEntries values .added).ahead previous = builder.ahead previous := by
  cases previous with
  | none => rfl
  | some table => simp [ahead, addEntries, push, previousIndex]

theorem ahead_push {builder : TableBuilder β} (hw : builder.WellFormed) {previous : Table β}
    {old : Slot β} {rest : List (Slot β)} (ha : builder.ahead (some previous) = old :: rest)
    (slot : Slot β) : (builder.push slot).ahead (some previous) = rest := by
  have hi : (builder.push slot).previousIndex = builder.previousIndex + 1 := by
    simp only [push, previousIndex, List.length_append, List.length_singleton]
    exact Nat.succ_sub hw
  simp only [ahead] at ha ⊢
  rw [hi, ← List.drop_drop, ha]
  rfl

theorem slotAt_ahead {builder : TableBuilder β} {previous : Table β} {old : Slot β}
    {rest : List (Slot β)} (ha : builder.ahead (some previous) = old :: rest) :
    previous.slotAt builder.previousIndex = .ok old := by
  have hs : previous.slots[builder.previousIndex]? = some old := by
    have h := congrArg (·[0]?) ha
    simpa [ahead, List.getElem?_drop] using h
  simp [Table.slotAt, hs]

theorem slotAt_ahead_nil {builder : TableBuilder β} {previous : Table β}
    (ha : builder.ahead (some previous) = []) : previous.slotAt builder.previousIndex =
      .error (.outOfStep previous.slots.length builder.previousIndex) := by
  have hs : previous.slots[builder.previousIndex]? = none :=
    List.getElem?_eq_none (List.drop_eq_nil_iff.mp ha)
  simp only [Table.slotAt, hs]
  rfl

/-- One slot was added for an entry of the source. -/
inductive ExtendsBy (makes : α → List β → Prop) (same : Comparer β) (copies : Bool)
    (previous : Option (Table β)) (builder : TableBuilder β) (value : α) (state : EntryState)
    (next : TableBuilder β) : Prop
  | inserted {slot} : (previous.isSome = true → state = .added) →
      RowBy makes same copies value state none slot → next.slots = builder.slots ++ [slot] →
      next.fault = builder.fault → next.WellFormed →
      next.ahead previous = builder.ahead previous →
      ExtendsBy makes same copies previous builder value state next
  | replaced {old slot} : previous.isSome = true → state ≠ .added →
      RowBy makes same copies value state (some old) slot → next.slots = builder.slots ++ [slot] →
      next.fault = builder.fault → next.WellFormed →
      builder.ahead previous = old :: next.ahead previous →
      ExtendsBy makes same copies previous builder value state next

abbrev Extends (image : α → Except Fault (List β)) :=
  ExtendsBy (Makes image)

variable {makes : α → List β → Prop} {image : α → Except Fault (List β)} {same : Comparer β}
  {copies : Bool} {previous : Option (Table β)} {builder : TableBuilder β} {value : α}
  {state : EntryState}

theorem extends_added (hw : builder.WellFormed) (hs : state ≠ .removed) {new : List β}
    (hi : makes value new) (hadd : previous.isSome = true → state = .added) :
    ExtendsBy makes same copies previous builder value state (builder.addEntries new .added) := by
  refine .inserted hadd (.fresh hs hi) rfl rfl ?_ (ahead_added builder new previous)
  simpa [WellFormed, addEntries, push] using hw

theorem extends_skipped (hw : builder.WellFormed) :
    ExtendsBy makes same copies none builder value .removed (builder.addEntries [] .removed) := by
  exact .inserted (fun h => by cases h) (.skipped value) rfl rfl (hw.push (.vacant .removed)) rfl

theorem extends_push (hw : builder.WellFormed) {table : Table β} {old slot : Slot β}
    {rest : List (Slot β)} (ha : builder.ahead (some table) = old :: rest) (hs : state ≠ .added)
    (hr : RowBy makes same copies value state (some old) slot) :
    ExtendsBy makes same copies (some table) builder value state (builder.push slot) := by
  exact .replaced rfl hs hr rfl rfl (hw.push slot) (by rw [ahead_push hw ha, ha])

theorem ExtendsBy.wellFormed {next : TableBuilder β}
    (h : ExtendsBy makes same copies previous builder value state next) : next.WellFormed := by
  cases h with
  | inserted _ _ _ _ hw => exact hw
  | replaced _ _ _ _ _ hw => exact hw

theorem ExtendsBy.fault_eq {next : TableBuilder β}
    (h : ExtendsBy makes same copies previous builder value state next) :
    next.fault = builder.fault := by
  cases h with
  | inserted _ _ _ hf => exact hf
  | replaced _ _ _ _ hf => exact hf

theorem fault_build (builder : TableBuilder β) : builder.build.fault = builder.fault := by
  unfold build
  cases builder.fault <;> rfl

theorem addEntriesFromPrevious_ahead {table : Table β} {old : Slot β} {rest : List (Slot β)}
    (ha : builder.ahead (some table) = old :: rest) (state : EntryState) :
    builder.addEntriesFromPrevious table state = .ok (builder.push (.uniform old.values state)) := by
  rw [addEntriesFromPrevious, slotAt_ahead ha]
  rfl

theorem addEntriesFromPrevious_outOfStep {table : Table β} (ha : builder.ahead (some table) = [])
    (state : EntryState) : builder.addEntriesFromPrevious table state =
      .error (.outOfStep table.slots.length builder.previousIndex) := by
  rw [addEntriesFromPrevious, slotAt_ahead_nil ha]
  rfl

theorem addModifiedEntries_ahead {table : Table β} {old : Slot β} {rest : List (Slot β)}
    (ha : builder.ahead (some table) = old :: rest) {values : List β}
    {entries : List (β × EntryState)} (hr : recompute same values old.values = .ok entries) :
    builder.addModifiedEntries table values same = .ok (builder.push (.ofEntries entries)) := by
  rw [addModifiedEntries, slotAt_ahead ha]
  simp [bind, Except.bind, hr, pure, Except.pure]

theorem addModifiedEntries_outOfStep {table : Table β} (ha : builder.ahead (some table) = [])
    (values : List β) : builder.addModifiedEntries table values same =
      .error (.outOfStep table.slots.length builder.previousIndex) := by
  rw [addModifiedEntries, slotAt_ahead_nil ha]
  rfl

/-- An entry that kept its slot. -/
theorem extends_kept {table : Table β} {next : TableBuilder β} (hw : builder.WellFormed)
    (hs : state = .removed ∨ state = .cached ∧ copies = true)
    (h : builder.addEntriesFromPrevious table state = .ok next) :
    ExtendsBy makes same copies (some table) builder value state next := by
  cases ha : builder.ahead (some table) with
  | nil =>
    rw [addEntriesFromPrevious_outOfStep ha] at h
    cases h
  | cons old rest =>
    rw [addEntriesFromPrevious_ahead ha] at h
    cases h
    rcases hs with rfl | ⟨rfl, hc⟩
    · exact extends_push hw ha (by decide) (.dropped value old)
    · exact extends_push hw ha (by decide) (.copied hc)

/-- An entry whose slot was recomputed. -/
theorem extends_recomputed {table : Table β} {next : TableBuilder β} {new : List β}
    (hw : builder.WellFormed) (hi : makes value new)
    (hs : state = .modified ∨ state = .cached ∧ copies = false)
    (h : builder.addModifiedEntries table new same = .ok next) :
    ExtendsBy makes same copies (some table) builder value state next := by
  cases ha : builder.ahead (some table) with
  | nil =>
    rw [addModifiedEntries_outOfStep ha] at h
    cases h
  | cons old rest =>
    cases hr : recompute same new old.values with
    | error panic =>
      rw [addModifiedEntries, slotAt_ahead ha] at h
      simp [bind, Except.bind, hr] at h
    | ok entries =>
      rw [addModifiedEntries_ahead ha hr] at h
      cases h
      refine extends_push hw ha ?_ (.recomputed hs hi hr)
      rcases hs with rfl | ⟨rfl, -⟩ <;> decide

/-- Where an entry is recomputed, the builder gets a slot or is out of step. -/
theorem addModifiedEntries_cases (copies : Bool) (table : Table β) (hw : builder.WellFormed)
    (ht : same.Total) {new : List β} (hi : image value = .ok new) {state : EntryState}
    (hs : state = .modified ∨ state = .cached ∧ copies = false) :
    (∃ next, builder.addModifiedEntries table new same = .ok next ∧
        Extends image same copies (some table) builder value state next) ∨
      builder.addModifiedEntries table new same =
          .error (.outOfStep table.slots.length builder.previousIndex) ∧
        builder.ahead (some table) = [] := by
  cases ha : builder.ahead (some table) with
  | nil => exact .inr ⟨addModifiedEntries_outOfStep ha new, rfl⟩
  | cons old rest =>
    obtain ⟨entries, he⟩ := recompute_total ht new old.values
    have hx := addModifiedEntries_ahead ha he
    exact .inl ⟨_, hx, extends_recomputed hw hi hs hx⟩

/-- Where an entry keeps its slot, the builder gets it or is out of step. -/
theorem addEntriesFromPrevious_cases (image : α → Except Fault (List β)) (same : Comparer β)
    (copies : Bool) (table : Table β) (value : α) (hw : builder.WellFormed) {state : EntryState}
    (hs : state = .removed ∨ state = .cached ∧ copies = true) :
    (∃ next, builder.addEntriesFromPrevious table state = .ok next ∧
        Extends image same copies (some table) builder value state next) ∨
      builder.addEntriesFromPrevious table state =
          .error (.outOfStep table.slots.length builder.previousIndex) ∧
        builder.ahead (some table) = [] := by
  cases ha : builder.ahead (some table) with
  | nil => exact .inr ⟨addEntriesFromPrevious_outOfStep ha state, rfl⟩
  | cons old rest =>
    have hx := addEntriesFromPrevious_ahead ha state
    exact .inl ⟨_, hx, extends_kept hw hs hx⟩

end TableBuilder

section

variable (makes : α → List β → Prop) (same : Comparer β) (copies : Bool)
  (previous : Option (Table β))

/-- The builder after slots for some entries of a source were added. -/
def GrownBy (builder : TableBuilder β) (entries : List (α × EntryState))
    (next : TableBuilder β) : Prop :=
  ∃ used left slots, builder.ahead previous = used ++ left ∧
    RowsBy makes same copies previous.isSome entries used slots ∧
    next.slots = builder.slots ++ slots ∧ next.fault = builder.fault

/-- A table that holds rows for the entries of a source, or else a fault. -/
inductive LaidBy (entries : List (α × EntryState)) : Table β → Prop
  | rows {used left slots} : (previous.map Table.slots).getD [] = used ++ left →
      RowsBy makes same copies previous.isSome entries used slots →
      LaidBy entries ⟨slots, false, none⟩
  | faulted {fault} : LaidBy entries (.faulted fault)

variable {makes same copies previous} {builder next last : TableBuilder β} {value : α}
  {state : EntryState} {rest entries : List (α × EntryState)}

theorem GrownBy.nil (builder : TableBuilder β) :
    GrownBy makes same copies previous builder [] builder :=
  ⟨[], builder.ahead previous, [], rfl, .nil, (List.append_nil _).symm, rfl⟩

/-- A slot that was added goes in front of those that follow. -/
theorem GrownBy.cons (he : builder.ExtendsBy makes same copies previous value state next)
    (h : GrownBy makes same copies previous next rest last) :
    GrownBy makes same copies previous builder ((value, state) :: rest) last := by
  obtain ⟨used, left, slots, ha, hr, hs, hf⟩ := h
  cases he with
  | @inserted slot hadd hrow hslots hfault _ hahead =>
    refine ⟨used, left, slot :: slots, hahead ▸ ha, .inserted hadd hrow hr, ?_, hf.trans hfault⟩
    rw [hs, hslots, List.append_assoc]
    rfl
  | @replaced old slot hsome hne hrow hslots hfault _ hahead =>
    rw [ha, ← List.cons_append] at hahead
    refine ⟨old :: used, left, slot :: slots, hahead, .replaced hsome hne hrow hr, ?_,
      hf.trans hfault⟩
    rw [hs, hslots, List.append_assoc]
    rfl

/-- The table of a builder that started without slots. -/
theorem GrownBy.build_eq (h : GrownBy makes same copies previous .empty entries next) :
    ∃ used left slots, (previous.map Table.slots).getD [] = used ++ left ∧
      RowsBy makes same copies previous.isSome entries used slots ∧
      next.build = ⟨slots, false, none⟩ := by
  obtain ⟨used, left, slots, ha, hr, hs, hf⟩ := h
  rw [TableBuilder.ahead_empty] at ha
  refine ⟨used, left, slots, ha, hr, ?_⟩
  rw [TableBuilder.build, hf, hs]
  rfl

theorem GrownBy.laid (h : GrownBy makes same copies previous .empty entries next) :
    LaidBy makes same copies previous entries next.build := by
  obtain ⟨used, left, slots, ha, hr, hb⟩ := h.build_eq
  rw [hb]
  exact .rows ha hr

end

section

variable (image : α → Except Fault (List β)) (same : Comparer β) (copies : Bool)
  (previous : Option (Table β))

/-- What becomes of one entry of the source: a slot, a fault, or no slot to replace. -/
inductive EntryOutcome (builder : TableBuilder β) (value : α) (state : EntryState) :
    Except Stop (Except Fault (TableBuilder β)) → Prop
  | slot {next} : builder.Extends image same copies previous value state next →
      EntryOutcome builder value state (.ok (.ok next))
  | fault {fault} : state.isLive = true → image value = .error fault →
      EntryOutcome builder value state (.ok (.error fault))
  | outOfStep {table} : previous = some table → builder.ahead previous = [] → state ≠ .added →
      (state = .modified → ∃ new, image value = .ok new) →
      EntryOutcome builder value state
        (.error (.panicked (.outOfStep table.slots.length builder.previousIndex)))

/-- How the entries of the source are gone through: one after the other, up to the first one that
does not get a slot. -/
inductive Walked : TableBuilder β → List (α × EntryState) → Except Stop (TableBuilder β) → Prop
  | done {builder} : Walked builder [] (.ok builder)
  | slot {builder value state next rest r} :
      EntryOutcome image same copies previous builder value state (.ok (.ok next)) → Walked next rest r →
      Walked builder ((value, state) :: rest) r
  | fault {builder value state fault rest} :
      EntryOutcome image same copies previous builder value state (.ok (.error fault)) →
      Walked builder ((value, state) :: rest) (.ok (builder.setFaulted fault))
  | stopped {builder value state why rest} :
      EntryOutcome image same copies previous builder value state (.error why) →
      Walked builder ((value, state) :: rest) (.error why)

/-- How the slots for the entries of a source are added to a builder: all of them, or up to a fault,
or up to an entry for which the previous table has no slot. -/
inductive Filled (builder : TableBuilder β) (entries : List (α × EntryState)) :
    Except Stop (TableBuilder β) → Prop
  | rows {next} : GrownBy (Makes image) same copies previous builder entries next →
      Filled builder entries (.ok next)
  | blocked {fault next} : Blocked image previous.isSome entries fault → next.fault = some fault →
      Filled builder entries (.ok next)
  | outOfStep {table index} : previous = some table →
      (builder.ahead previous).length < oldCount entries →
      Filled builder entries (.error (.panicked (.outOfStep table.slots.length index)))

/-- The table that a stage makes of the entries of its source. -/
inductive Formed (entries : List (α × EntryState)) : Except Stop (Table β) → Prop
  | rows {used left slots} : (previous.map Table.slots).getD [] = used ++ left →
      Rows image same copies previous.isSome entries used slots →
      Formed entries (.ok ⟨slots, false, none⟩)
  | blocked {fault} : Blocked image previous.isSome entries fault →
      Formed entries (.ok (.faulted fault))
  | outOfStep {table index} : previous = some table → table.slots.length < oldCount entries →
      Formed entries (.error (.panicked (.outOfStep table.slots.length index)))

end

section

variable {image : α → Except Fault (List β)} {same : Comparer β} {copies : Bool}
  {previous : Option (Table β)} {builder next : TableBuilder β} {value : α} {state : EntryState}
  {rest : List (α × EntryState)}

/-- A slot that was added goes in front of those that follow. -/
theorem Filled.cons {r : Except Stop (TableBuilder β)}
    (he : builder.Extends image same copies previous value state next)
    (hf : Filled image same copies previous next rest r) :
    Filled image same copies previous builder ((value, state) :: rest) r := by
  cases hf with
  | rows hg => exact .rows (hg.cons he)
  | blocked hb hn =>
    refine .blocked (.later (fun hl => ?_) hb) hn
    cases he with
    | inserted _ hrow =>
      rcases hrow.image_ok hl with hi | ⟨_, hp⟩
      · exact .inl hi
      · cases hp
    | replaced hsome _ hrow =>
      rcases hrow.image_ok hl with hi | ⟨hc, _⟩
      · exact .inl hi
      · exact .inr ⟨hc, hsome⟩
  | outOfStep hp hlt =>
    refine .outOfStep hp ?_
    rw [oldCount_cons]
    cases he with
    | inserted hadd _ _ _ _ hahead => rw [← hahead]; omega
    | replaced _ hne _ _ _ _ hahead => rw [hahead, List.length_cons, if_neg hne]; omega

/-- The table of a builder that started without slots. -/
theorem Filled.formed {entries : List (α × EntryState)} {r : Except Stop (TableBuilder β)}
    (h : Filled image same copies previous .empty entries r) :
    Formed image same copies previous entries (r.map TableBuilder.build) := by
  cases h with
  | rows hg =>
    obtain ⟨used, left, slots, ha, hr, hb⟩ := hg.build_eq
    rw [Except.map, hb]
    exact .rows ha hr
  | blocked hb hn =>
    rw [Except.map, TableBuilder.build, hn]
    exact .blocked hb
  | outOfStep hp hlt =>
    refine .outOfStep hp ?_
    rw [TableBuilder.ahead_empty, hp] at hlt
    exact hlt

theorem Formed.laid {entries : List (α × EntryState)} {table : Table β}
    (h : Formed image same copies previous entries (.ok table)) :
    LaidBy (Makes image) same copies previous entries table := by
  cases h with
  | rows ha hr => exact .rows ha hr
  | blocked => exact .faulted

theorem Walked.filled {entries : List (α × EntryState)} {r : Except Stop (TableBuilder β)}
    (h : Walked image same copies previous builder entries r) :
    Filled image same copies previous builder entries r := by
  induction h with
  | @done builder => exact .rows (.nil builder)
  | slot ho _ ih =>
    cases ho with
    | slot he => exact ih.cons he
  | fault ho =>
    cases ho with
    | fault hl hi => exact .blocked (.here hl hi) rfl
  | stopped ho =>
    cases ho with
    | outOfStep hp ha hs _ =>
      exact .outOfStep hp (by rw [ha, oldCount_cons, if_neg hs]; exact Nat.succ_pos _)

end

namespace Stage

variable {transform : Transform σ} {same : Comparer Value}

section

variable {builder : TableBuilder Value} {state : EntryState}

/-- An entry that keeps its slot. -/
theorem keepEntry_steady (image : Value → Except Fault (List Value)) (same : Comparer Value)
    (table : Table Value) (hw : builder.WellFormed) (value : Value)
    (hs : state = .removed ∨ state = .cached ∧ true = true) :
    ∃ r, (do return .ok (← Act.ofPanic (builder.addEntriesFromPrevious table state)) :
        Act (Ambient σ) (Except Fault (TableBuilder Value))).Steady r ∧
      EntryOutcome image same true (some table) builder value state r := by
  rcases TableBuilder.addEntriesFromPrevious_cases image same true table value hw hs with
    ⟨next, hx, he⟩ | ⟨hx, ha⟩
  · exact ⟨_, (Act.steady_ofPanic_ok hx).bind_ok (Act.steady_pure _), .slot he⟩
  · refine ⟨_, (Act.steady_ofPanic_error hx).bind_error, .outOfStep rfl ha ?_ ?_⟩ <;>
      rcases hs with rfl | ⟨rfl, -⟩ <;> simp

/-- An entry that gets its first slot. -/
theorem addEntry_steady (info : StageInfo) (same : Comparer Value) (hp : Transform.Pure transform)
    (sample : Ambient σ) {previous : Option (Table Value)} (hw : builder.WellFormed)
    (value : Value) (hl : state ≠ .removed) (hadd : previous.isSome = true → state = .added) :
    ∃ r, (applyTransform info transform value >>= fun
        | .ok values => pure (.ok (builder.addEntries values .added))
        | .error fault => pure (.error fault) :
        Act (Ambient σ) (Except Fault (TableBuilder Value))).Steady r ∧
      EntryOutcome (image info transform sample) same true previous builder value state r := by
  have happly := applyTransform_steady info hp sample value
  cases hi : image info transform sample value with
  | ok new =>
    rw [hi] at happly
    exact ⟨_, happly.bind_ok (Act.steady_pure _),
      .slot (TableBuilder.extends_added hw hl hi hadd)⟩
  | error fault =>
    rw [hi] at happly
    exact ⟨_, happly.bind_ok (Act.steady_pure _),
      .fault (by simpa [EntryState.isLive] using hl) hi⟩

/-- An entry whose slot is recomputed. -/
theorem recomputeEntry_steady (info : StageInfo) (hp : Transform.Pure transform) (ht : same.Total)
    (sample : Ambient σ) (table : Table Value) (hw : builder.WellFormed) (value : Value) :
    ∃ r, (applyTransform info transform value >>= fun
        | .ok values => do
          return .ok (← Act.ofPanic (builder.addModifiedEntries table values same))
        | .error fault => pure (.error fault) :
        Act (Ambient σ) (Except Fault (TableBuilder Value))).Steady r ∧
      EntryOutcome (image info transform sample) same true (some table) builder value .modified
        r := by
  have happly := applyTransform_steady info hp sample value
  cases hi : image info transform sample value with
  | ok new =>
    rw [hi] at happly
    rcases TableBuilder.addModifiedEntries_cases true table hw ht hi (.inl rfl) with
      ⟨next, hx, he⟩ | ⟨hx, ha⟩
    · exact ⟨_, happly.bind_ok ((Act.steady_ofPanic_ok hx).bind_ok (Act.steady_pure _)), .slot he⟩
    · exact ⟨_, happly.bind_ok (Act.steady_ofPanic_error hx).bind_error,
        .outOfStep rfl ha (by decide) fun _ => ⟨new, hi⟩⟩
  | error fault =>
    rw [hi] at happly
    exact ⟨_, happly.bind_ok (Act.steady_pure _), .fault rfl hi⟩

end

/-- One entry of the source of a map stage. -/
theorem mapEntry_steady (info : StageInfo) (hp : Transform.Pure transform) (ht : same.Total)
    (sample : Ambient σ) (previous : Option (Table Value)) {builder : TableBuilder Value}
    (hw : builder.WellFormed) (value : Value) (state : EntryState) :
    ∃ r, (mapEntry info transform same previous builder value state).Steady r ∧
      EntryOutcome (image info transform sample) same true previous builder value state r := by
  cases previous with
  | none =>
    have hnone : (none : Option (Table Value)).isSome = true → state = .added := fun h => by cases h
    cases state with
    | removed => exact ⟨_, Act.steady_pure _, .slot (TableBuilder.extends_skipped hw)⟩
    | cached => exact addEntry_steady info same hp sample hw value (by decide) hnone
    | modified => exact addEntry_steady info same hp sample hw value (by decide) hnone
    | added => exact addEntry_steady info same hp sample hw value (by decide) hnone
  | some table =>
    cases state with
    | removed => exact keepEntry_steady _ same table hw value (.inl rfl)
    | cached => exact keepEntry_steady _ same table hw value (.inr ⟨rfl, rfl⟩)
    | modified => exact recomputeEntry_steady info hp ht sample table hw value
    | added => exact addEntry_steady info same hp sample hw value (by decide) fun _ => rfl

theorem mapEntries_steady (info : StageInfo) (hp : Transform.Pure transform) (ht : same.Total)
    (sample : Ambient σ) (previous : Option (Table Value)) (entries : List (Value × EntryState))
    {builder : TableBuilder Value} (hw : builder.WellFormed) :
    ∃ r, (mapEntries info transform same previous builder entries).Steady r ∧
      Walked (image info transform sample) same true previous builder entries r := by
  induction entries generalizing builder with
  | nil => exact ⟨_, Act.steady_pure _, .done⟩
  | cons entry rest ih =>
    obtain ⟨value, state⟩ := entry
    obtain ⟨r, hr, ho⟩ := mapEntry_steady info hp ht sample previous hw value state
    cases ho with
    | slot he =>
      obtain ⟨r, hrest, hwalk⟩ := ih he.wellFormed
      exact ⟨r, hr.bind_ok hrest, .slot (.slot he) hwalk⟩
    | fault hl hi => exact ⟨_, hr.bind_ok (Act.steady_pure _), .fault (.fault hl hi)⟩
    | outOfStep hp ha hs hi => exact ⟨_, hr.bind_error, .stopped (.outOfStep hp ha hs hi)⟩

/-- The table of a map stage whose source did not fail. -/
theorem mapTable_steady (info : StageInfo) (hp : Transform.Pure transform) (ht : same.Total)
    (sample : Ambient σ) (previous : Option (Table Value)) {source : Table Value}
    (hs : source.fault = none) :
    ∃ r, (mapTable info transform same previous source).Steady (r.map TableBuilder.build) ∧
      Walked (image info transform sample) same true previous .empty source.entries r := by
  obtain ⟨r, hr, hw⟩ := mapEntries_steady info hp ht sample previous source.entries
    TableBuilder.wellFormed_empty
  refine ⟨r, ?_, hw⟩
  unfold mapTable
  rw [hs]
  have hb := hr.bind (g := fun builder => .ok builder.build)
    (fun builder _ => Act.steady_pure builder.build)
  cases r <;> exact hb

/-- What a combining stage makes of a left value beside a right one. -/
def pairWith (right left : Value) : Except Fault (List Value) :=
  .ok [.pair left right]

/-- A left entry whose slot is recomputed or kept: it gets its slot or the stage is out of step. -/
theorem combineEntry_replaced {table : Table Value} {builder : TableBuilder Value} {left right : Value}
    {state : EntryState} {copies : Bool} {r : Except Panic (TableBuilder Value)} (hs : state ≠ .added)
    (h : (∃ next, r = .ok next ∧ builder.Extends (pairWith right) Comparer.equality copies (some table)
        left state next) ∨
      r = .error (.outOfStep table.slots.length builder.previousIndex) ∧
        builder.ahead (some table) = []) :
    EntryOutcome (pairWith right) Comparer.equality copies (some table) builder left state
      ((r.map Except.ok).mapError .panicked) := by
  rcases h with ⟨next, rfl, he⟩ | ⟨rfl, ha⟩
  · exact .slot he
  · exact .outOfStep rfl ha hs fun _ => ⟨_, rfl⟩

theorem combineEntry_outcome (previous : Option (Table Value)) (right : Value)
    (rightState : EntryState) {builder : TableBuilder Value} (hw : builder.WellFormed)
    (left : Value) (state : EntryState) :
    EntryOutcome (pairWith right) Comparer.equality (rightState == .cached) previous builder left state
      (((combineEntry previous right rightState builder left state).map Except.ok).mapError
        .panicked) := by
  have ht : (Comparer.equality : Comparer Value).Total := Comparer.total_equality
  have hi : pairWith right left = .ok [.pair left right] := rfl
  cases previous with
  | none =>
    have hnone : (none : Option (Table Value)).isSome = true → state = .added := fun h => by cases h
    cases state with
    | removed => exact .slot (TableBuilder.extends_skipped hw)
    | added => exact .slot (TableBuilder.extends_added hw (by decide) hi hnone)
    | modified => exact .slot (TableBuilder.extends_added hw (by decide) hi hnone)
    | cached => exact .slot (TableBuilder.extends_added hw (by decide) hi hnone)
  | some table =>
    cases state with
    | removed =>
      exact combineEntry_replaced (by decide) (TableBuilder.addEntriesFromPrevious_cases
        (pairWith right) Comparer.equality (rightState == .cached) table left hw (.inl rfl))
    | added => exact .slot (TableBuilder.extends_added hw (by decide) hi fun _ => rfl)
    | modified =>
      exact combineEntry_replaced (by decide) (TableBuilder.addModifiedEntries_cases
        (rightState == .cached) table hw ht hi (.inl rfl))
    | cached =>
      by_cases hr : rightState = .cached
      · subst hr
        exact combineEntry_replaced (by decide) (TableBuilder.addEntriesFromPrevious_cases
          (pairWith right) Comparer.equality true table left hw (.inr ⟨rfl, rfl⟩))
      · have hc : (rightState == EntryState.cached) = false := by simpa using hr
        have hx : combineEntry (some table) right rightState builder left .cached =
            builder.addModifiedEntries table [.pair left right] Comparer.equality := by
          simp [combineEntry, hr]
        rw [hx, hc]
        exact combineEntry_replaced (by decide) (TableBuilder.addModifiedEntries_cases false table
          hw ht hi (.inr ⟨rfl, rfl⟩))

theorem combineEntries_walked (previous : Option (Table Value)) (right : Value)
    (rightState : EntryState) (entries : List (Value × EntryState))
    {builder : TableBuilder Value} (hw : builder.WellFormed) :
    Walked (pairWith right) Comparer.equality (rightState == .cached) previous builder entries
      ((combineEntries previous right rightState builder entries).mapError .panicked) := by
  induction entries generalizing builder with
  | nil => exact .done
  | cons entry rest ih =>
    obtain ⟨left, state⟩ := entry
    have ho := combineEntry_outcome previous right rightState hw left state
    rw [combineEntries]
    cases hx : combineEntry previous right rightState builder left state with
    | ok next =>
      rw [hx] at ho
      cases ho with
      | slot he => exact .slot (.slot he) (ih he.wellFormed)
    | error panic =>
      rw [hx] at ho
      exact .stopped ho

/-- The table of a combining stage whose sources did not fail and whose right source holds exactly
one live value. -/
theorem combineTable_formed (info : StageInfo) (rightName : String)
    (previous : Option (Table Value)) {left right : Table Value} (hl : left.fault = none)
    (hr : right.fault = none) {value : Value} {state : EntryState}
    (hv : right.entries.filter (·.2.isLive) = [(value, state)]) :
    Formed (pairWith value) Comparer.equality (state == .cached) previous left.entries
      ((combineTable info rightName previous left right).mapError .panicked) := by
  have hf := (combineEntries_walked previous value state left.entries
    TableBuilder.wellFormed_empty).filled.formed
  unfold combineTable
  rw [hl, hr]
  simp only [Option.or_none, hv]
  cases hc : combineEntries previous value state .empty left.entries <;> rw [hc] at hf <;> exact hf

/-- How the one entry of a collecting stage counts: as unchanged only when nothing changed in the
source. -/
def collectState (previous : Option (Table Value)) (source : Table Value) : EntryState :=
  if previous.isNone then .added
  else if source.entries.all (·.2 == .cached) then .cached
  else .modified

/-- What a collecting stage makes of everything that it gathers. -/
def gathered (whole : Value) : Except Fault (List Value) :=
  .ok [whole]

/-- A collecting stage makes one row, for everything that it gathers. -/
theorem collectTable_formed (previous : Option (Table Value)) {source : Table Value}
    (hs : source.fault = none) :
    Formed gathered Comparer.equality true previous
      [(Value.list source.liveValues, collectState previous source)]
      ((collectTable previous source).mapError .panicked) := by
  have hw : (.empty : TableBuilder Value).WellFormed := TableBuilder.wellFormed_empty
  have hi : gathered (Value.list source.liveValues) = .ok [.list source.liveValues] := rfl
  unfold collectTable
  rw [hs]
  cases previous with
  | none =>
    have he : (.empty : TableBuilder Value).Extends gathered Comparer.equality true none
        (Value.list source.liveValues) .added _ :=
      TableBuilder.extends_added hw (by decide) hi fun _ => rfl
    exact (Walked.slot (.slot he) .done).filled.formed
  | some table =>
    by_cases hc : source.entries.all (·.2 == .cached) = true
    · simp only [collectState, hc, Option.isNone_some, if_true, Bool.false_eq_true, if_false]
      rcases TableBuilder.addEntriesFromPrevious_cases gathered Comparer.equality true table
        (Value.list source.liveValues) hw (.inr ⟨rfl, rfl⟩) with ⟨next, hx, he⟩ | ⟨hx, ha⟩
      · rw [hx]
        exact (Walked.slot (.slot he) .done).filled.formed
      · rw [hx]
        exact (Walked.stopped (.outOfStep rfl ha (by decide) fun _ => ⟨_, hi⟩)).filled.formed
    · simp only [collectState, hc, Option.isNone_some, Bool.false_eq_true, if_false]
      rcases TableBuilder.addModifiedEntries_cases true table hw Comparer.total_equality hi
        (.inl rfl)
        with ⟨next, hx, he⟩ | ⟨hx, ha⟩
      · rw [hx]
        exact (Walked.slot (.slot he) .done).filled.formed
      · rw [hx]
        exact (Walked.stopped (.outOfStep rfl ha (by decide) fun _ => ⟨_, hi⟩)).filled.formed

end Stage

end Regen
