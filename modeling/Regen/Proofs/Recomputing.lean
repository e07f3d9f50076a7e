import Regen.Proofs.Baseline

/-!
# Recomputing what did not change

A stage keeps what it made of an entry that did not change. A doubtful stage does not: it takes an
unchanged entry of its source for a modified one, recomputes it and compares. Here is that both make
the same table. Entry by entry they both get a slot, both have the same fault, or both are out of
step, since what was made of a kept entry before can be made again; and where all slots are there,
the slots of the baseline are in line with the values of the source, so that a kept slot is what
recomputing gives. That needs comparers that accept what is made beside itself. `==` on doubles that are
no numbers does not, and then recomputing calls modified what was kept.
-/

namespace Regen

variable {α β σ ε ε' : Type}

/-- The state of an entry that is not trusted to be unchanged. -/
def EntryState.doubted : EntryState → EntryState
  | .cached => .modified
  | state => state

def doubt (entries : List (α × EntryState)) : List (α × EntryState) :=
  entries.map fun entry => (entry.1, entry.2.doubted)

/-- The same values, none of which counts as unchanged. -/
def Table.doubted (table : Table α) : Table α :=
  { table with slots := table.slots.map fun slot => .ofEntries (doubt slot.entries) }

namespace Stage

/-- The table of a source as a doubtful stage reads it. Without a table of the pass before there is
nothing to keep. -/
def doubting (previous : Option (Table Value)) (source : Table Value) : Table Value :=
  match previous with
  | some _ => source.doubted
  | none => source

/-- The table of a collecting stage that always makes its list anew and compares. -/
def recollectTable (previous : Option (Table Value)) (source : Table Value) :
    Except Panic (Table Value) :=
  match source.fault with
  | some fault => return .faulted fault
  | none => do
    let gathered := Value.list source.liveValues
    let builder : TableBuilder Value := .empty
    match previous with
    | none => return (builder.addEntries [gathered] .added).build
    | some previous =>
      return (← builder.addModifiedEntries previous [gathered] Comparer.equality).build

end Stage

namespace Evaluation

/-- A pull of a doubtful stage, whose sources are doubtful as well. -/
def repull : Stage σ → Act (Evaluation σ) (Table Value)
  | .input info same =>
    memoize info fun previous => leafTable info same (Table.usable? previous)
  | .map info source transform same =>
    memoize info fun previous => do
      let sourceTable ← repull source
      onAmbient (Stage.mapTable info transform same (Table.usable? previous)
        (Stage.doubting (Table.usable? previous) sourceTable))
  | .collect info source =>
    memoize info fun previous => do
      let sourceTable ← repull source
      Act.ofPanic (Stage.recollectTable (Table.usable? previous) sourceTable)
  | .combine info left right =>
    memoize info fun previous => do
      let leftTable ← repull left
      let rightTable ← repull right
      Act.ofPanic (Stage.combineTable info right.name (Table.usable? previous)
        (Stage.doubting (Table.usable? previous) leftTable)
        (Stage.doubting (Table.usable? previous) rightTable))
  | .custom info update =>
    memoize info fun previous => onAmbient ((update previous).run Ambient.answer)

end Evaluation

theorem EntryState.isLive_doubted (state : EntryState) : state.doubted.isLive = state.isLive := by
  cases state <;> rfl

theorem EntryState.doubted_ne_cached (state : EntryState) : state.doubted ≠ .cached := by
  cases state <;> decide

theorem EntryState.doubted_eq_added {state : EntryState} : state.doubted = .added ↔ state = .added := by
  cases state <;> decide

theorem Table.entries_doubted (table : Table α) : table.doubted.entries = doubt table.entries := by
  rw [entries, doubted, List.flatMap_map, entries, doubt, List.map_flatMap]
  exact List.flatMap_congr fun slot _ => Slot.entries_ofEntries _

/-- Both are there and related, or neither is. -/
inductive Agree (R : α → β → Prop) : Except ε α → Except ε' β → Prop
  | ok {a b} : R a b → Agree R (.ok a) (.ok b)
  | error {why why'} : Agree R (.error why) (.error why')

theorem Agree.refl (r : Except ε α) : Agree Eq r r := by
  cases r with
  | ok a => exact .ok rfl
  | error why => exact .error

section

variable {image oldImage : α → Except Fault (List β)} {same : Comparer β} {copies copies' : Bool}
  {previous : Option (Table β)} {builder builder' : TableBuilder β} {value : α} {state : EntryState}
  {entries : List (α × EntryState)}

/-- What becomes of one entry: a slot in both tables, one fault, or a stop. -/
inductive SameOutcome (previous : Option (Table β)) :
    Except Stop (Except Fault (TableBuilder β)) → Except Stop (Except Fault (TableBuilder β)) → Prop
  | slot {next next'} : next.ahead previous = next'.ahead previous → next.fault = next'.fault →
      SameOutcome previous (.ok (.ok next)) (.ok (.ok next'))
  | fault {fault} : SameOutcome previous (.ok (.error fault)) (.ok (.error fault))
  | stopped {why why'} : SameOutcome previous (.error why) (.error why')

/-- An entry of a live value gets a slot only if something can be made of the value. -/
theorem TableBuilder.ExtendsBy.image_ok {next : TableBuilder β}
    (h : builder.Extends image same copies previous value state next) (hl : state.isLive = true) :
    (∃ new, image value = .ok new) ∨ state = .cached := by
  cases h with
  | inserted _ hr => exact (hr.image_ok hl).imp_right (·.1)
  | replaced _ _ hr => exact (hr.image_ok hl).imp_right (·.1)

/-- A builder that added a slot for an entry that was there before had one ahead. -/
theorem TableBuilder.ExtendsBy.ahead_ne_nil {makes : α → List β → Prop} {table : Table β}
    {next : TableBuilder β} (h : builder.ExtendsBy makes same copies (some table) value state next)
    (hs : state ≠ .added) : builder.ahead (some table) ≠ [] := by
  cases h with
  | inserted hadd => exact absurd (hadd rfl) hs
  | replaced _ _ _ _ _ _ hahead =>
    rw [hahead]
    exact List.cons_ne_nil _ _

/-- Builders that look at the same slots ahead still do so after one entry, doubted or not. -/
theorem TableBuilder.ExtendsBy.ahead_eq {makes makes' : α → List β → Prop} {table : Table β}
    {next next' : TableBuilder β} (h : builder.ExtendsBy makes same copies (some table) value state next)
    (h' : builder'.ExtendsBy makes' same copies' (some table) value state.doubted next')
    (ha : builder.ahead (some table) = builder'.ahead (some table)) :
    next.ahead (some table) = next'.ahead (some table) := by
  cases h with
  | inserted hadd _ _ _ _ hahead =>
    cases h' with
    | inserted _ _ _ _ _ hahead' => rw [hahead, hahead', ha]
    | replaced _ hne => exact absurd (EntryState.doubted_eq_added.mpr (hadd rfl)) hne
  | replaced _ hne _ _ _ _ hahead =>
    cases h' with
    | inserted hadd' => exact absurd (EntryState.doubted_eq_added.mp (hadd' rfl)) hne
    | replaced _ _ _ _ _ _ hahead' =>
      rw [hahead, hahead'] at ha
      exact (List.cons.inj ha).2

/-- One entry, doubted and not. -/
theorem EntryOutcome.doubted {table : Table β} {r r' : Except Stop (Except Fault (TableBuilder β))}
    (h : EntryOutcome image same copies (some table) builder value state r)
    (h' : EntryOutcome image same copies' (some table) builder' value state.doubted r')
    (ha : builder.ahead (some table) = builder'.ahead (some table))
    (hf : builder.fault = builder'.fault)
    (hc : state = .cached → ∃ new, image value = .ok new) : SameOutcome (some table) r r' := by
  have hlive := EntryState.isLive_doubted state
  -- something can be made of a value that got a slot: it was made now, or it was before
  have made : (∃ new, image value = .ok new) ∨ state = .cached → ∀ fault, image value ≠ .error fault := by
    rintro hi fault he
    obtain ⟨new, hnew⟩ := hi.elim id hc
    rw [he] at hnew
    cases hnew
  cases h with
  | slot he =>
    cases h' with
    | slot he' => exact .slot (he.ahead_eq he' ha) (by rw [he.fault_eq, he'.fault_eq, hf])
    | fault hl hi => exact absurd hi (made (he.image_ok (hlive ▸ hl)) _)
    | outOfStep _ hnil hs =>
      exact absurd (ha.trans hnil) (he.ahead_ne_nil (mt EntryState.doubted_eq_added.mpr hs))
  | fault hl hi =>
    cases h' with
    | slot he' =>
      have hmade := (he'.image_ok (hlive.trans hl)).resolve_right state.doubted_ne_cached
      exact absurd hi (made (.inl hmade) _)
    | fault _ hi' =>
      rw [hi] at hi'
      cases hi'
      exact .fault
    | outOfStep _ _ hs hmod =>
      have hm : state.doubted = .modified := by
        cases state <;> first | rfl | exact absurd rfl hs | cases hl
      exact absurd hi (made (.inl (hmod hm)) _)
  | outOfStep _ hnil hs hmod =>
    cases h' with
    | slot he' =>
      exact absurd (ha.symm.trans hnil) (he'.ahead_ne_nil (mt EntryState.doubted_eq_added.mp hs))
    | fault hl hi =>
      have hi' : (∃ new, image value = .ok new) ∨ state = .cached := by
        rw [hlive] at hl
        cases state with
        | removed => cases hl
        | added => exact absurd rfl hs
        | modified => exact .inl (hmod rfl)
        | cached => exact .inr rfl
      exact absurd hi (made hi' _)
    | outOfStep => exact .stopped

/-- All entries, doubted and not: both loops go through with the same fault or none, or both
stop. -/
theorem Walked.doubted {table : Table β} {r r' : Except Stop (TableBuilder β)}
    (h : Walked image same copies (some table) builder entries r)
    (h' : Walked image same copies' (some table) builder' (doubt entries) r')
    (ha : builder.ahead (some table) = builder'.ahead (some table))
    (hf : builder.fault = builder'.fault)
    (hc : ∀ entry ∈ entries, entry.2 = .cached → ∃ new, image entry.1 = .ok new) :
    Agree (fun next next' => next.fault = next'.fault) r r' := by
  induction h generalizing builder' with
  | done =>
    cases h'
    exact .ok hf
  | @slot builder value state next rest r ho _ ih =>
    have hhead := hc _ List.mem_cons_self
    cases h' with
    | slot ho' hrest' =>
      cases ho.doubted ho' ha hf hhead with
      | slot ha' hf' => exact ih hrest' ha' hf' fun entry hm => hc entry (List.mem_cons_of_mem _ hm)
    | fault ho' => cases ho.doubted ho' ha hf hhead
    | stopped ho' => cases ho.doubted ho' ha hf hhead
  | @fault builder value state fault rest ho =>
    have hhead := hc _ List.mem_cons_self
    cases h' with
    | slot ho' => cases ho.doubted ho' ha hf hhead
    | fault ho' =>
      cases ho.doubted ho' ha hf hhead
      exact .ok rfl
    | stopped ho' => cases ho.doubted ho' ha hf hhead
  | @stopped builder value state why rest ho =>
    have hhead := hc _ List.mem_cons_self
    cases h' with
    | slot ho' => cases ho.doubted ho' ha hf hhead
    | fault ho' => cases ho.doubted ho' ha hf hhead
    | stopped => exact .error

/-- What is made of the values is accepted beside itself. -/
def SelfAccepted (image : α → Except Fault (List β)) (same : Comparer β) (values : List α) : Prop :=
  ∀ value ∈ values, ∀ new, image value = .ok new → ∀ made ∈ new, same made made = .ok true

theorem SelfAccepted.head {values : List α} (h : SelfAccepted image same (value :: values)) :
    SelfAccepted image same [value] :=
  List.forall_mem_singleton.mpr (h value List.mem_cons_self)

theorem SelfAccepted.tail {values : List α} (h : SelfAccepted image same (value :: values)) :
    SelfAccepted image same values :=
  fun other hm => h other (List.mem_cons_of_mem _ hm)

/-- Recomputing what the old values were kept for leaves them as they are. -/
theorem TableBuilder.recompute_cached {news olds : List β} (h : List.Forall₂ same.Kept news olds)
    (hself : ∀ new ∈ news, same new new = .ok true) :
    recompute same news olds = .ok (olds.map (·, .cached)) := by
  induction h with
  | nil => rfl
  | @cons new kept news olds hkept _ ih =>
    rw [List.forall_mem_cons] at hself
    have hsame : same new kept = .ok true := hkept.elim (fun he => he ▸ hself.1) id
    simp [recompute, hsame, ih hself.2, bind, Except.bind, pure, Except.pure]

theorem Slot.ofEntries_cached (values : List β) :
    ofEntries (values.map (·, .cached)) = uniform values .cached := by
  cases values <;> rfl

/-- Recomputing what the slot ahead was kept for is copying it. -/
theorem TableBuilder.addModifiedEntries_kept {table : Table β} {slot : Slot β}
    {rest : List (Slot β)} (ha : builder.ahead (some table) = slot :: rest) {news : List β}
    (h : List.Forall₂ same.Kept news slot.values) (hself : ∀ new ∈ news, same new new = .ok true) :
    builder.addModifiedEntries table news same = builder.addEntriesFromPrevious table .cached := by
  rw [addModifiedEntries_ahead ha (recompute_cached h hself), addEntriesFromPrevious_ahead ha,
    Slot.ofEntries_cached]

/-- A slot that was kept is the one that recomputing gives, if what is made of the value did not
change. -/
theorem RowBy.eq_of_doubted {old slot slot' : Slot β}
    (h : Row image same copies value state (some old) slot)
    (h' : Row image same copies' value state.doubted (some old) slot')
    (hcopy : copies = true → state = .cached →
      Made image same value old.values ∧ SelfAccepted image same [value]) : slot = slot' := by
  cases h with
  | dropped =>
    cases h' with
    | dropped => rfl
    | recomputed hs => rcases hs with hs | ⟨hs, -⟩ <;> cases hs
  | copied hc =>
    cases h' with
    | recomputed _ hi' hr' =>
      obtain ⟨⟨new, hnew, hkept⟩, hself⟩ := hcopy hc rfl
      cases hnew.symm.trans hi'
      rw [TableBuilder.recompute_cached hkept (hself value List.mem_cons_self _ hnew)] at hr'
      cases hr'
      exact (Slot.ofEntries_cached _).symm
  | recomputed hs hi hr =>
    have hm : state.doubted = .modified := by rcases hs with rfl | ⟨rfl, -⟩ <;> rfl
    rw [hm] at h'
    cases h' with
    | recomputed _ hi' hr' =>
      cases hi.symm.trans hi'
      cases hr.symm.trans hr'
      rfl

/-- On slots that are in line with the old values of the source, both ways give the same slots. -/
theorem RowsBy.eq_of_doubted {same' : Comparer α} {sources : List α}
    {olds slots slots' : List (Slot β)}
    (h : Rows image same copies true entries olds slots)
    (h' : Rows image same copies' true (doubt entries) olds slots')
    (hs : EditScript same' sources entries)
    (ho : List.Forall₂ (fun value old => Made oldImage same value old.values) sources olds)
    (hcopy : copies = true → oldImage = image ∧ SelfAccepted image same sources) : slots = slots' := by
  induction h generalizing sources slots' with
  | nil =>
    cases h'
    rfl
  | @inserted value state slot rest olds slots hadd hr _ ih =>
    obtain rfl := hadd rfl
    cases hs with
    | added _ hs =>
      cases h' with
      | inserted _ hr' h' =>
        cases hr with
        | fresh _ hi =>
          cases hr' with
          | fresh _ hi' =>
            cases hi.symm.trans hi'
            rw [ih h' hs ho hcopy]
      | replaced _ hne => exact absurd rfl hne
  | @replaced value state old slot rest olds slots _ hne hr _ ih =>
    cases h' with
    | inserted hadd => exact absurd (EntryState.doubted_eq_added.mp (hadd rfl)) hne
    | replaced _ _ hr' h' =>
      cases hs with
      | added => exact absurd rfl hne
      | removed _ hs =>
        cases ho with
        | cons _ ho =>
          rw [hr.eq_of_doubted hr' (fun _ h => by cases h),
            ih h' hs ho fun hc => (hcopy hc).imp_right SelfAccepted.tail]
      | modified _ _ _ hs =>
        cases ho with
        | cons _ ho =>
          rw [hr.eq_of_doubted hr' (fun _ h => by cases h),
            ih h' hs ho fun hc => (hcopy hc).imp_right SelfAccepted.tail]
      | cached _ hs =>
        cases ho with
        | cons hm ho =>
          rw [hr.eq_of_doubted hr' (fun hc _ => ⟨(hcopy hc).1 ▸ hm, (hcopy hc).2.head⟩),
            ih h' hs ho fun hc => (hcopy hc).imp_right SelfAccepted.tail]

/-- Doubted entries go through the same old values. -/
theorem EditScript.doubted {olds : List α} {same : Comparer α} (h : EditScript same olds entries) :
    EditScript (fun _ _ => .ok false) olds (doubt entries) := by
  induction h with
  | nil => exact .nil
  | added value _ ih => exact .added value ih
  | removed value _ ih => exact .removed value ih
  | modified new old _ _ ih => exact .modified new old rfl ih
  | cached value _ ih => exact .modified value value rfl ih

/-- Tables that are laid on a baseline that fits, one with doubts and one without, are the same if
they have the same fault. -/
theorem LaidBy.eq_of_doubted {same' : Comparer α} {sources : List α}
    {old table table' : Table β}
    (h : LaidBy (Makes image) same copies (some old) entries table)
    (h' : LaidBy (Makes image) same copies' (some old) (doubt entries) table')
    (hf : table.fault = table'.fault) (hs : EditScript same' sources entries)
    (hfits : Fits (Made oldImage same) sources (old.slots.map Slot.values))
    (hcopy : copies = true → oldImage = image ∧ SelfAccepted image same sources) : table = table' := by
  cases hn : table.fault with
  | some fault =>
    rw [hn] at hf
    cases h with
    | rows => cases hn
    | faulted =>
      cases h' with
      | rows => cases hf
      | faulted =>
        cases hn
        cases hf
        rfl
  | none =>
    obtain ⟨hr, -⟩ := h.rows_of_fits hn hs hfits
    obtain ⟨hr', -⟩ := h'.rows_of_fits (hf ▸ hn) hs.doubted hfits
    have hslots := hr.eq_of_doubted hr' hs (h.aligned hn hs hfits) hcopy
    cases h with
    | rows =>
      cases h' with
      | rows => simpa using hslots
      | faulted => cases hf
    | faulted => cases hn

/-- On a baseline that fits, both ways through the entries end with the same table. -/
theorem Walked.build_doubted {same' : Comparer α} {sources : List α} {old : Table β}
    {r r' : Except Stop (TableBuilder β)}
    (h : Walked image same copies (some old) .empty entries r)
    (h' : Walked image same copies' (some old) .empty (doubt entries) r')
    (hs : EditScript same' sources entries)
    (hfits : Fits (Made oldImage same) sources (old.slots.map Slot.values))
    (hcopy : copies = true → oldImage = image ∧ SelfAccepted image same sources)
    (hc : ∀ entry ∈ entries, entry.2 = .cached → ∃ new, image entry.1 = .ok new) :
    Agree Eq (r.map TableBuilder.build) (r'.map TableBuilder.build) := by
  cases h.doubted h' rfl rfl hc with
  | ok hf =>
    refine .ok (h.filled.formed.laid.eq_of_doubted h'.filled.formed.laid ?_ hs hfits hcopy)
    rw [TableBuilder.fault_build, TableBuilder.fault_build, hf]
  | error => exact .error

end

end Regen
