import Regen.Proofs.Arising
import Regen.Proofs.Pulling

/-!
# What a baseline knows about a graph

The finished tables of a pass are related only through what they show: the slots of a stage fit the
values of its source, but an entry of which nothing is left may have lost its slot. This is the
invariant that finished passes keep. A table that a pass makes without a fault can only come about
when no slot of its baseline was lost, and then it is in line with the tables of its sources entry
by entry.
-/

namespace Regen

variable {σ α β : Type}

/-- The values that the baseline has for a stage; a table with a fault has none. -/
def PassTables.oldValues (previous : PassTables) (id : StageId) : List Value :=
  ((Table.usable? (previous.find? id)).map Table.values).getD []

/-- An unfaulted table of the baseline is found as such. -/
theorem PassTables.oldValues_eq {previous : PassTables} {id : StageId} {table : Table Value}
    (hf : previous.find? id = some table) (hn : table.fault = none) :
    previous.oldValues id = table.values := by
  rw [oldValues, hf, Table.usable?_of_unfaulted hn]
  rfl

section

variable (making : Making σ)

/-- How the slots of an unfaulted table of a baseline stand to the tables of the sources there. -/
def Stage.RestsBy (previous : PassTables) : Stage σ → Table Value → Prop
  | .input .., table => ∀ slot ∈ table.slots, slot.Single
  | .map info source transform same, table =>
    ∃ sources, previous.find? source.id = some sources ∧ sources.fault = none ∧
      Fits (MadeBy (making info transform) same) sources.values (table.slots.map Slot.values)
  | .collect _ source, table =>
    ∃ sources kept, previous.find? source.id = some sources ∧ sources.fault = none ∧
      table.slots.map Slot.values = [[kept]] ∧ Comparer.equality.Kept (.list sources.values) kept
  | .combine _ left right, table =>
    ∃ lefts rights value, previous.find? left.id = some lefts ∧ lefts.fault = none ∧
      previous.find? right.id = some rights ∧ rights.fault = none ∧ rights.values = [value] ∧
      Fits (Made (pairWith value) Comparer.equality) lefts.values (table.slots.map Slot.values)
  | .custom .., _ => False

/-- How the slots of an unfaulted table of a pass stand to the tables of the sources. -/
def Stage.InLineBy (current : PassTables) : Stage σ → Table Value → Prop
  | .input .., table => ∀ slot ∈ table.slots, slot.Single
  | .map info source transform same, table =>
    ∃ sources, current.find? source.id = some sources ∧ sources.fault = none ∧
      List.Forall₂ (Stands (MadeBy (making info transform) same)) sources.entries table.slots
  | .collect _ source, table =>
    ∃ sources slot kept, current.find? source.id = some sources ∧ sources.fault = none ∧
      table.slots = [slot] ∧ slot.liveValues = [kept] ∧
        Comparer.equality.Kept (.list sources.liveValues) kept
  | .combine _ left right, table =>
    ∃ lefts rights value, current.find? left.id = some lefts ∧ lefts.fault = none ∧
      current.find? right.id = some rights ∧ rights.fault = none ∧ rights.liveValues = [value] ∧
      List.Forall₂ (Stands (Made (pairWith value) Comparer.equality)) lefts.entries table.slots
  | .custom .., _ => False

/-- The tables of the graph are compacted, and the unfaulted ones rest on those of their sources. -/
structure StageGraph.BaselineBy (graph : StageGraph σ) (previous : PassTables) : Prop where
  settled : ∀ stage table, graph.Has stage → previous.find? stage.id = some table →
    ∀ slot ∈ table.slots, slot.Settled
  rests : ∀ stage table, graph.Has stage → previous.find? stage.id = some table →
    table.fault = none → stage.RestsBy making previous table

end

abbrev Stage.Rests (sample : Ambient σ) : PassTables → Stage σ → Table Value → Prop :=
  RestsBy (sampled sample)

abbrev Stage.InLine (sample : Ambient σ) : PassTables → Stage σ → Table Value → Prop :=
  InLineBy (sampled sample)

abbrev StageGraph.Baseline (graph : StageGraph σ) (sample : Ambient σ) (previous : PassTables) :
    Prop :=
  graph.BaselineBy (Stage.sampled sample) previous

theorem StageGraph.baselineBy_empty (graph : StageGraph σ) (making : Making σ) :
    graph.BaselineBy making .empty where
  settled _ _ _ hf := by cases hf
  rests _ _ _ hf := by cases hf

theorem StageGraph.baseline_empty (graph : StageGraph σ) (sample : Ambient σ) :
    graph.Baseline sample .empty :=
  graph.baselineBy_empty (Stage.sampled sample)

/-- A script without a change leaves the old values. -/
theorem EditScript.eq_of_all_cached {same : Comparer α} {olds : List α}
    {entries : List (α × EntryState)} (h : EditScript same olds entries)
    (hc : ∀ entry ∈ entries, entry.2 = .cached) : entries = olds.map (·, .cached) := by
  induction h with
  | nil => rfl
  | added value _ _ => cases hc _ List.mem_cons_self
  | removed value _ _ => cases hc _ List.mem_cons_self
  | modified new old _ _ _ => cases hc _ List.mem_cons_self
  | cached value _ ih =>
    rw [ih fun entry hm => hc entry (List.mem_cons_of_mem _ hm)]
    rfl

theorem liveOf_cached (olds : List α) : liveOf (olds.map (·, EntryState.cached)) = olds := by
  simp [liveOf, List.filter_map, EntryState.isLive, Function.comp_def]

namespace LaidBy

variable {makes oldMakes : α → List β → Prop} {same : Comparer β} {copies : Bool}
  {entries : List (α × EntryState)} {old table : Table β}

/-- Without a baseline all rows are fresh. -/
theorem fresh (h : LaidBy makes same copies none entries table) (hn : table.fault = none) :
    EditScript same [] table.entries ∧
      List.Forall₂ (Stands (MadeBy makes same)) entries table.slots := by
  cases h with
  | rows ha hr =>
    obtain rfl := hr.olds_eq_nil
    exact ⟨hr.script, hr.stands_fresh⟩
  | faulted => cases hn

/-- On a baseline whose slots fit the old values of the source, rows exist only when no slot was
lost: the new entries ask for one slot for each old value. -/
theorem rows_of_fits {same' : Comparer α} {sources : List α} {R : α → List β → Prop}
    (h : LaidBy makes same copies (some old) entries table) (hn : table.fault = none)
    (hs : EditScript same' sources entries) (hf : Fits R sources (old.slots.map Slot.values)) :
    RowsBy makes same copies true entries old.slots table.slots ∧
      old.slots.length = sources.length := by
  cases h with
  | @rows used left slots ha hr =>
    have hused : used.length = sources.length := hr.length_olds.trans hs.oldCount_eq
    have hle := hf.length_le
    have hslots : old.slots = used ++ left := ha
    rw [List.length_map, hslots, List.length_append] at hle
    have hleft : left = [] := List.eq_nil_of_length_eq_zero (by omega)
    rw [hleft, List.append_nil] at hslots
    rw [hslots]
    exact ⟨hr, hused⟩
  | faulted => cases hn

/-- Slots that fit the old values of the source are in line with them where rows exist. -/
theorem aligned {same' : Comparer α} {sources : List α} {R : α → List β → Prop}
    (h : LaidBy makes same copies (some old) entries table) (hn : table.fault = none)
    (hs : EditScript same' sources entries) (hf : Fits R sources (old.slots.map Slot.values)) :
    List.Forall₂ (fun value slot => R value slot.values) sources old.slots := by
  obtain ⟨-, hlen⟩ := h.rows_of_fits hn hs hf
  have hfit := hf.forall₂ (Nat.le_of_eq ((List.length_map _).trans hlen).symm)
  rw [List.forall₂_map_right_iff] at hfit
  exact hfit

/-- Rows on a baseline that fits are an edit script on it and in line with the source. -/
theorem inLine {same' : Comparer α} {sources : List α}
    (h : LaidBy makes same copies (some old) entries table) (hn : table.fault = none)
    (hs : EditScript same' sources entries)
    (hf : Fits (MadeBy oldMakes same) sources (old.slots.map Slot.values))
    (hcopy : copies = true → oldMakes = makes) :
    EditScript same old.values table.entries ∧
      List.Forall₂ (Stands (MadeBy makes same)) entries table.slots := by
  obtain ⟨hr, -⟩ := h.rows_of_fits hn hs hf
  refine ⟨?_, hr.stands hs (h.aligned hn hs hf) hcopy⟩
  rw [Table.values_eq_flatMap]
  exact hr.script

/-- Whatever a stage makes of its source is not compacted yet. -/
theorem honest {previous : Option (Table β)}
    (h : LaidBy makes same copies previous entries table) : table.Honest := by
  cases h <;> exact Table.honest_of_open rfl

/-- When slots may be copied, entries that did not change keep theirs. -/
theorem unchanged (h : LaidBy makes same true (some old) entries table)
    (hc : ∀ entry ∈ entries, entry.2 = .cached) : ∀ entry ∈ table.entries, entry.2 = .cached := by
  cases h with
  | rows _ hr => exact hr.unchanged hc
  | faulted =>
    intro entry hm
    cases hm

end LaidBy

namespace Formed

variable {image : α → Except Fault (List β)} {same : Comparer β} {copies : Bool}
  {entries : List (α × EntryState)} {old table : Table β}

/-- Which slots of the table are gone although the entries behind them are live. -/
theorem isRemoved_iff {previous : Option (Table β)}
    (h : Formed image same copies previous entries (.ok table)) (hn : table.fault = none) :
    ∀ row ∈ entries.zip table.slots, row.1.2.isLive = true → (row.2.isRemoved = true ↔
      (row.1.2 = .modified ∨ row.1.2 = .cached ∧ copies = false) ∧ image row.1.1 = .ok [] ∧
        row.2.entries ≠ []) := by
  cases h with
  | rows _ hr => exact hr.isRemoved_iff
  | blocked hb => cases hn

/-- Where something is made of every entry no fault arises. -/
theorem unfaulted {previous : Option (Table β)}
    (h : Formed image same copies previous entries (.ok table))
    (hi : ∀ entry ∈ entries, ∃ made, image entry.1 = .ok made) : table.fault = none := by
  cases h with
  | rows => rfl
  | blocked hb => exact (not_blocked hi hb).elim

/-- A builder is not out of step with a baseline that has a slot for every old entry. -/
theorem not_error {why : Stop} (hl : oldCount entries = old.slots.length) :
    ¬ Formed image same copies (some old) entries (.error why) := by
  intro h
  cases h with
  | outOfStep hp hlt =>
    cases hp
    omega

/-- Nothing but a missing slot stops a stage. -/
theorem outOfStep_of_error {previous : Option (Table β)} {why : Stop}
    (h : Formed image same copies previous entries (.error why)) :
    ∃ slots index, why = .panicked (.outOfStep slots index) := by
  cases h with
  | outOfStep => exact ⟨_, _, rfl⟩

theorem not_error_fresh {why : Stop} : ¬ Formed image same copies none entries (.error why) := by
  intro h
  cases h with
  | outOfStep hp _ => cases hp

end Formed

theorem ok_of_mapError {ε ε' : Type} {f : ε → ε'} {r : Except ε α} {a : α}
    (h : r.mapError f = .ok a) : r = .ok a := by
  cases r with
  | ok b =>
    obtain rfl : b = a := Except.ok.inj h
    rfl
  | error why => cases h

variable {making : Making σ} {graph : StageGraph σ} {sample : Ambient σ}
  {given : StageId → Option (Except Fault (List Value))} {previous : PassTables} {pass : Pass}
  {stage : Stage σ} {table : Table Value}

/-- What a stage yields in a pass is one of the ways its table may come about. -/
theorem Stage.Yields.arises {current : PassTables}
    (h : stage.Yields sample given previous current (.ok table)) :
    stage.ArisesBy (sampled sample) previous current table := by
  cases h with
  | refused => exact .refused
  | fed _ hd => exact .fed (ok_of_mapError hd)
  | unfed => exact .unfed
  | mapFault ht hf => exact .mapFault ht hf
  | map ht hf hm => exact .map ht hf hm.laid
  | collectFault ht hf => exact .collectFault ht hf
  | collect ht hf hm => exact .collect ht hf hm.laid
  | combineFault hl hr hf => exact .combineFault hl hr hf
  | combineMany hl hr hlf hrf hn => exact .combineMany hl hr hlf hrf hn
  | combine hl hr hlf hrf hv hm => exact .combine hl hr hlf hrf hv hm.laid

/-- A table with a fault holds nothing else. -/
theorem LaidBy.eq_faulted {α β : Type} {makes : α → List β → Prop} {same : Comparer β} {copies : Bool}
    {previous : Option (Table β)} {entries : List (α × EntryState)} {table : Table β} {fault : Fault}
    (h : LaidBy makes same copies previous entries table) (hf : table.fault = some fault) :
    table = .faulted fault := by
  cases h with
  | rows => cases hf
  | faulted =>
    cases hf
    rfl

theorem Stage.ArisesBy.eq_faulted {current : PassTables} {fault : Fault}
    (h : stage.ArisesBy making previous current table) (hf : table.fault = some fault) :
    table = .faulted fault := by
  cases h with
  | refused =>
    cases hf
    rfl
  | fed hd =>
    obtain ⟨slots, -, rfl⟩ := Table.diffInputs_eq_ok hd
    cases hf
  | @unfed info same =>
    cases hu : Table.usable? (previous.find? info.id) with
    | none =>
      rw [hu] at hf
      cases hf
    | some old =>
      rw [hu, Option.map_some, Option.getD_some, Table.fault_compact,
        (Table.usable?_eq_some hu).2] at hf
      cases hf
  | mapFault =>
    cases hf
    rfl
  | map _ _ hlaid => exact hlaid.eq_faulted hf
  | collectFault =>
    cases hf
    rfl
  | collect _ _ hlaid => exact hlaid.eq_faulted hf
  | combineFault =>
    cases hf
    rfl
  | combineMany =>
    cases hf
    rfl
  | combine _ _ _ _ _ hlaid => exact hlaid.eq_faulted hf

/-- Only fresh tables have a fault. -/
theorem Stage.ArisesBy.honest_of_fault {current : PassTables} {fault : Fault}
    (h : stage.ArisesBy making previous current table) (hf : table.fault = some fault) :
    table.Honest := by
  rw [h.eq_faulted hf]
  exact Table.honest_faulted fault

namespace StageGraph

/-- A sound pass is lawful. -/
theorem Sound.lawful (hs : graph.Sound sample given previous pass) :
    graph.LawfulBy (Stage.sampled sample) previous pass :=
  ⟨hs.baseline, fun stage table hm hf => (hs.yields stage table hm hf).arises⟩

/-- What is known of an unfaulted table of a lawful pass over a baseline. -/
structure Known (making : Making σ) (previous current : PassTables) (stage : Stage σ)
    (table : Table Value) : Prop where
  script : EditScript stage.comparer (previous.oldValues stage.id) table.entries
  honest : table.Honest
  inLine : stage.InLineBy making current table

/-- The usable baseline of a stage: none, or an unfaulted table that rests on its sources. -/
theorem BaselineBy.usable_cases (hb : graph.BaselineBy making previous) (hm : graph.Has stage) :
    (Table.usable? (previous.find? stage.id) = none ∧ previous.oldValues stage.id = []) ∨
      ∃ old, Table.usable? (previous.find? stage.id) = some old ∧
        previous.oldValues stage.id = old.values ∧ (∀ slot ∈ old.slots, slot.Settled) ∧
        stage.RestsBy making previous old := by
  cases hu : Table.usable? (previous.find? stage.id) with
  | none => exact .inl ⟨rfl, by rw [PassTables.oldValues, hu]; rfl⟩
  | some old =>
    obtain ⟨hf, hn⟩ := Table.usable?_eq_some hu
    exact .inr ⟨old, rfl, PassTables.oldValues_eq hf hn, hb.settled stage old hm hf,
      hb.rests stage old hm hf hn⟩

/-- An unfaulted baseline rests on unfaulted ones. -/
theorem BaselineBy.unfaulted_source (hb : graph.BaselineBy making previous) (hm : graph.Has stage)
    {source : Stage σ} (hs : source ∈ stage.sources) {old : Table Value}
    (hold : previous.find? stage.id = some old) (hn : old.fault = none) :
    ∃ old, previous.find? source.id = some old ∧ old.fault = none := by
  have hrests := hb.rests stage old hm hold hn
  cases stage with
  | input info same => cases hs
  | map info inner transform same =>
    obtain ⟨sources, hf, hsn, -⟩ := hrests
    exact List.mem_singleton.mp hs ▸ ⟨sources, hf, hsn⟩
  | collect info inner =>
    obtain ⟨sources, -, hf, hsn, -⟩ := hrests
    exact List.mem_singleton.mp hs ▸ ⟨sources, hf, hsn⟩
  | combine info left right =>
    obtain ⟨lefts, rights, -, hl, hln, hr, hrn, -⟩ := hrests
    rcases List.mem_cons.mp hs with rfl | hs
    · exact ⟨lefts, hl, hln⟩
    · exact List.mem_singleton.mp hs ▸ ⟨rights, hr, hrn⟩
  | custom info update => cases hs

/-- What a fed leaf makes on a baseline. -/
theorem BaselineBy.diffed {info : StageInfo} {same : Comparer Value} {values : List Value}
    (hb : graph.BaselineBy making previous) (hm : graph.Has (.input info same))
    (hd : Table.diffInputs (Table.usable? (previous.find? info.id)) values same = .ok table) :
    ∃ slots, table = ⟨slots, false, none⟩ ∧
      Table.Diffed same (((Table.usable? (previous.find? info.id)).map Table.slots).getD []) values
        slots ∧
      previous.oldValues info.id =
        (((Table.usable? (previous.find? info.id)).map Table.slots).getD []).flatMap Slot.values := by
  obtain ⟨slots, hslots, rfl⟩ := Table.diffInputs_eq_ok hd
  rcases hb.usable_cases hm with ⟨hu, hold⟩ | ⟨old, hu, hold, -, hrests⟩
  · rw [show Table.usable? (previous.find? info.id) = none from hu] at hslots ⊢
    have hnone : ∀ old ∈ ([] : List (Slot Value)), old.Single := fun _ hmem => by cases hmem
    exact ⟨slots, rfl, Table.diffSlots_diffed hnone hslots, hold⟩
  · rw [show Table.usable? (previous.find? info.id) = some old from hu] at hslots ⊢
    exact ⟨slots, rfl, Table.diffSlots_diffed hrests hslots, hold.trans old.values_eq_flatMap⟩

theorem known_leaf {info : StageInfo} {same : Comparer Value}
    (hb : graph.BaselineBy making previous) (hm : graph.Has (.input info same))
    (hy : (Stage.input info same).ArisesBy making previous pass.current table)
    (hn : table.fault = none) :
    Known making previous pass.current (.input info same) table := by
  cases hy with
  | refused => cases hn
  | fed hd =>
    obtain ⟨slots, rfl, hdiff, hold⟩ := hb.diffed hm hd
    refine ⟨?_, Table.honest_of_open rfl, hdiff.single⟩
    change EditScript same (previous.oldValues info.id) _
    rw [hold]
    exact hdiff.script
  | unfed =>
    rcases hb.usable_cases hm with ⟨hu, hold⟩ | ⟨old, hu, hold, hsettled, hrests⟩
    · rw [show Table.usable? (previous.find? info.id) = none from hu]
      exact ⟨by rw [hold]; exact .nil, Table.honest_empty, by simp [Stage.InLineBy, Table.empty]⟩
    · rw [show Table.usable? (previous.find? info.id) = some old from hu]
      have hslots : old.compact.slots = old.slots := Table.slots_compact_settled hsettled
      have hcompact : ∀ slot ∈ old.compact.slots, slot.Settled := hslots ▸ hsettled
      refine ⟨?_, fun _ => hcompact, ?_⟩
      · rw [hold]
        simp only [Option.map_some, Option.getD_some]
        rw [Table.entries_settled hcompact, Table.values_eq_flatMap old.compact, hslots,
          ← Table.values_eq_flatMap]
        exact .allCached same _
      · simp only [Option.map_some, Option.getD_some, Stage.InLineBy, hslots]
        exact hrests

/-- The unfaulted table that a pass has for a source is known. -/
def KnownSource (making : Making σ) (previous current : PassTables) (source : Stage σ) : Prop :=
  ∀ table, current.find? source.id = some table → table.fault = none →
    Known making previous current source table

theorem known_map {info : StageInfo} {source : Stage σ} {transform : Transform σ}
    {same : Comparer Value} (hb : graph.BaselineBy making previous)
    (hm : graph.Has (.map info source transform same))
    (hsource : KnownSource making previous pass.current source)
    (hy : (Stage.map info source transform same).ArisesBy making previous pass.current table)
    (hn : table.fault = none) :
    Known making previous pass.current (.map info source transform same) table := by
  cases hy with
  | mapFault => cases hn
  | @map _ _ _ _ sources _ hfind hsn hlaid =>
    have hhonest : table.Honest := hlaid.honest
    rcases hb.usable_cases hm with ⟨hu, hold⟩ | ⟨old, hu, hold, -, hrests⟩
    · rw [show Table.usable? (previous.find? info.id) = none from hu] at hlaid
      obtain ⟨hscript, hstands⟩ := hlaid.fresh hn
      exact ⟨by rw [hold]; exact hscript, hhonest, sources, hfind, hsn, hstands⟩
    · rw [show Table.usable? (previous.find? info.id) = some old from hu] at hlaid
      obtain ⟨before, hbefore, hbn, hfits⟩ := hrests
      have hs := (hsource sources hfind hsn).script
      rw [PassTables.oldValues_eq hbefore hbn] at hs
      obtain ⟨hscript, hstands⟩ := hlaid.inLine hn hs hfits fun _ => rfl
      exact ⟨by rw [hold]; exact hscript, hhonest, sources, hfind, hsn, hstands⟩

/-- The one row of a collecting stage is live. -/
theorem isLive_collectState (old : Option (Table Value)) (source : Table Value) :
    (Stage.collectState old source).isLive = true := by
  unfold Stage.collectState
  split
  · rfl
  · split <;> rfl

/-- The one entry behind a collecting stage is an edit script on the one before. -/
theorem collect_script {source old : Table Value} {same : Comparer Value} {olds : List Value}
    (h : EditScript same olds source.entries) :
    EditScript (fun _ _ => .ok false) [Value.list olds]
      [(Value.list source.liveValues, Stage.collectState (some old) source)] := by
  unfold Stage.collectState
  by_cases hc : source.entries.all (·.2 == .cached) = true
  · have hall : ∀ entry ∈ source.entries, entry.2 = .cached := by
      intro entry he
      simpa using List.all_eq_true.mp hc entry he
    have hlive : source.liveValues = olds := by
      rw [show source.liveValues = liveOf source.entries from rfl, h.eq_of_all_cached hall,
        liveOf_cached]
    rw [hlive, if_neg (by simp), if_pos hc]
    exact .cached _ .nil
  · rw [if_neg (by simp), if_neg hc]
    exact .modified _ _ rfl .nil

/-- A gathered list is kept as one value. -/
theorem made_gathered_iff {same : Comparer Value} {value : Value} {slot : List Value} :
    Made Stage.gathered same value slot ↔ ∃ kept, slot = [kept] ∧ same.Kept value kept := by
  constructor
  · rintro ⟨new, hnew, hkept⟩
    cases hnew
    cases hkept with
    | cons h hrest =>
      cases hrest
      exact ⟨_, rfl, h⟩
  · rintro ⟨kept, rfl, h⟩
    exact ⟨[value], rfl, .cons h .nil⟩

theorem inLine_collect {current : PassTables} {info : StageInfo} {source : Stage σ}
    {sources : Table Value} {state : EntryState} (hfind : current.find? source.id = some sources)
    (hsn : sources.fault = none) (hlive : state.isLive = true)
    (h : List.Forall₂ (Stands (Made Stage.gathered Comparer.equality))
      [(Value.list sources.liveValues, state)] table.slots) :
    (Stage.collect info source).InLineBy making current table := by
  generalize hslots : table.slots = slots at h
  cases h with
  | @cons _ slot _ _ hs hrest =>
    cases hrest
    unfold Stands at hs
    rw [if_pos hlive] at hs
    obtain ⟨kept, hkept, hsame⟩ := made_gathered_iff.mp hs
    exact ⟨sources, slot, kept, hfind, hsn, hslots, hkept, hsame⟩

theorem known_collect {info : StageInfo} {source : Stage σ} (hb : graph.BaselineBy making previous)
    (hm : graph.Has (.collect info source))
    (hsource : KnownSource making previous pass.current source)
    (hy : (Stage.collect info source).ArisesBy making previous pass.current table)
    (hn : table.fault = none) :
    Known making previous pass.current (.collect info source) table := by
  cases hy with
  | collectFault => cases hn
  | @collect _ _ sources _ hfind hsn hlaid =>
    have hhonest : table.Honest := hlaid.honest
    rcases hb.usable_cases hm with ⟨hu, hold⟩ | ⟨old, hu, hold, -, hrests⟩
    · rw [show Table.usable? (previous.find? info.id) = none from hu] at hlaid
      obtain ⟨hscript, hstands⟩ := hlaid.fresh hn
      exact ⟨by rw [hold]; exact hscript, hhonest,
        inLine_collect hfind hsn (isLive_collectState _ _) hstands⟩
    · rw [show Table.usable? (previous.find? info.id) = some old from hu] at hlaid
      obtain ⟨before, kept, hbefore, hbn, hslots, hkept⟩ := hrests
      have hs := (hsource sources hfind hsn).script
      rw [PassTables.oldValues_eq hbefore hbn] at hs
      have hfits : Fits (Made Stage.gathered Comparer.equality) [Value.list before.values]
          (old.slots.map Slot.values) := by
        rw [hslots]
        exact .keep (made_gathered_iff.mpr ⟨kept, rfl, hkept⟩) .nil
      obtain ⟨hscript, hstands⟩ := hlaid.inLine hn (collect_script hs) hfits fun _ => rfl
      exact ⟨by rw [hold]; exact hscript, hhonest,
        inLine_collect hfind hsn (isLive_collectState _ _) hstands⟩

theorem known_combine {info : StageInfo} {left right : Stage σ}
    (hb : graph.BaselineBy making previous) (hm : graph.Has (.combine info left right))
    (hleft : KnownSource making previous pass.current left)
    (hright : KnownSource making previous pass.current right)
    (hy : (Stage.combine info left right).ArisesBy making previous pass.current table)
    (hn : table.fault = none) :
    Known making previous pass.current (.combine info left right) table := by
  cases hy with
  | combineFault => cases hn
  | combineMany => cases hn
  | @combine _ _ _ lefts rights value state _ hl hr hln hrn hvalue hlaid =>
    have hlive : rights.liveValues = [value] := by rw [Table.liveValues, hvalue]; rfl
    have hhonest : table.Honest := hlaid.honest
    rcases hb.usable_cases hm with ⟨hu, hold⟩ | ⟨old, hu, hold, -, hrests⟩
    · rw [show Table.usable? (previous.find? info.id) = none from hu] at hlaid
      obtain ⟨hscript, hstands⟩ := hlaid.fresh hn
      exact ⟨by rw [hold]; exact hscript, hhonest, lefts, rights, value, hl, hln, hr, hrn, hlive,
        hstands⟩
    · rw [show Table.usable? (previous.find? info.id) = some old from hu] at hlaid
      obtain ⟨lefts', rights', value', hl', hln', hr', hrn', hvalue', hfits⟩ := hrests
      have hls := (hleft lefts hl hln).script
      have hrs := (hright rights hr hrn).script
      rw [PassTables.oldValues_eq hl' hln'] at hls
      rw [PassTables.oldValues_eq hr' hrn', hvalue'] at hrs
      -- a copied slot still holds the right value: the right entry is unchanged
      have hcopy : (state == EntryState.cached) = true →
          Makes (Stage.pairWith value') = Makes (Stage.pairWith value) := by
        intro hc
        obtain rfl : state = .cached := by simpa using hc
        have hmem : (value, EntryState.cached) ∈ rights.entries :=
          List.mem_of_mem_filter (hvalue ▸ List.mem_cons_self)
        rw [List.mem_singleton.mp (hrs.mem_of_cached hmem)]
      obtain ⟨hscript, hstands⟩ := hlaid.inLine hn hls hfits hcopy
      exact ⟨by rw [hold]; exact hscript, hhonest, lefts, rights, value, hl, hln, hr, hrn, hlive,
        hstands⟩

/-- Every unfaulted table of a lawful pass over a baseline is an edit script on the values of its
own baseline and in line with the tables of its sources. -/
theorem known_of_lawful (hg : graph.Builtin) (hb : graph.BaselineBy making previous)
    (hl : graph.LawfulBy making previous pass) (stage : Stage σ) (hm : graph.Has stage)
    (table : Table Value) (hf : pass.current.find? stage.id = some table)
    (hn : table.fault = none) : Known making previous pass.current stage table := by
  have hy := hl.arises stage table hm hf
  induction stage generalizing table with
  | input info same => exact known_leaf hb hm hy hn
  | map info source transform same ih =>
    have hsource := graph.has_source hm List.mem_cons_self
    exact known_map hb hm
      (fun t hf hn => ih hsource t hf hn (hl.arises source t hsource hf)) hy hn
  | collect info source ih =>
    have hsource := graph.has_source hm List.mem_cons_self
    exact known_collect hb hm
      (fun t hf hn => ih hsource t hf hn (hl.arises source t hsource hf)) hy hn
  | combine info left right ihl ihr =>
    have hleft := graph.has_source hm List.mem_cons_self
    have hright := graph.has_source hm (List.mem_cons_of_mem _ List.mem_cons_self)
    exact known_combine hb hm
      (fun t hf hn => ihl hleft t hf hn (hl.arises left t hleft hf))
      (fun t hf hn => ihr hright t hf hn (hl.arises right t hright hf)) hy hn
  | custom info update => exact (hg _ hm).elim

theorem known_of_sound (hg : graph.Regular) (hb : graph.Baseline sample previous)
    (hs : graph.Sound sample given previous pass) (stage : Stage σ) (hm : graph.Has stage)
    (table : Table Value) (hf : pass.current.find? stage.id = some table)
    (hn : table.fault = none) :
    Known (Stage.sampled sample) previous pass.current stage table :=
  known_of_lawful hg.builtin hb hs.lawful stage hm table hf hn

/-! The finished tables of a pass. -/

/-- Whatever a lawful pass holds is not compacted, or looks like it. -/
theorem LawfulBy.honest (hl : graph.LawfulBy making previous pass) (hg : graph.Builtin)
    (hb : graph.BaselineBy making previous) (hm : graph.Has stage)
    (hf : pass.current.find? stage.id = some table) : table.Honest := by
  cases hn : table.fault with
  | none => exact (known_of_lawful hg hb hl stage hm table hf hn).honest
  | some fault => exact (hl.arises stage table hm hf).honest_of_fault hn

theorem find?_finished (current : PassTables) {id : StageId} (hf : current.find? id = some table)
    (hn : table.fault = none) :
    current.compact.find? id = some table.compact ∧ table.compact.fault = none := by
  rw [PassTables.find?_compact, hf, Table.fault_compact]
  exact ⟨rfl, hn⟩

/-- The finished table of a source holds its live values. -/
theorem LawfulBy.source_finished (hl : graph.LawfulBy making previous pass) (hg : graph.Builtin)
    (hb : graph.BaselineBy making previous) {source : Stage σ} (hm : graph.Has source)
    {sources : Table Value} (hf : pass.current.find? source.id = some sources)
    (hn : sources.fault = none) :
    pass.current.compact.find? source.id = some sources.compact ∧ sources.compact.fault = none ∧
      sources.compact.values = sources.liveValues := by
  obtain ⟨hfind, hfn⟩ := find?_finished pass.current hf hn
  exact ⟨hfind, hfn, Table.values_compact (hl.honest hg hb hm hf)⟩

/-- A finished table rests on the finished tables of its sources. -/
theorem LawfulBy.rests_finished (hl : graph.LawfulBy making previous pass) (hg : graph.Builtin)
    (hb : graph.BaselineBy making previous) (hm : graph.Has stage)
    (hf : pass.current.find? stage.id = some table) (hn : table.fault = none) :
    stage.RestsBy making pass.current.compact table.compact := by
  have hknown := known_of_lawful hg hb hl stage hm table hf hn
  have hslots : table.compact.slots.map Slot.values = compactedValues table.slots := by
    rw [Table.slots_compact hknown.honest]
    rfl
  have hline := hknown.inLine
  cases stage with
  | input info same =>
    intro slot hslot
    rw [Table.slots_compact hknown.honest] at hslot
    obtain ⟨old, hold, rfl⟩ := List.mem_map.mp hslot
    obtain ⟨hmem, hkept⟩ := List.mem_filter.mp hold
    exact (hline old hmem).compacted (by simpa using hkept)
  | map info inner transform same =>
    obtain ⟨sources, hsource, hsn, hstands⟩ := hline
    obtain ⟨hfind, hfn, hvalues⟩ :=
      hl.source_finished hg hb (graph.has_source hm List.mem_cons_self) hsource hsn
    refine ⟨sources.compact, hfind, hfn, ?_⟩
    rw [hslots, hvalues]
    exact fits_compacted hstands
  | collect info inner =>
    obtain ⟨sources, slot, kept, hsource, hsn, hone, hlive, hsame⟩ := hline
    obtain ⟨hfind, hfn, hvalues⟩ :=
      hl.source_finished hg hb (graph.has_source hm List.mem_cons_self) hsource hsn
    refine ⟨sources.compact, kept, hfind, hfn, ?_, hvalues ▸ hsame⟩
    have hkept : slot.isRemoved = false := by
      cases hr : slot.isRemoved with
      | false => rfl
      | true =>
        rw [Slot.liveValues_eq_nil hr] at hlive
        cases hlive
    rw [hslots, hone, compactedValues_cons, hkept, hlive]
    rfl
  | combine info left right =>
    obtain ⟨lefts, rights, value, hleft, hln, hr, hrn, hright, hstands⟩ := hline
    obtain ⟨hfindl, hfnl, hvaluesl⟩ :=
      hl.source_finished hg hb (graph.has_source hm List.mem_cons_self) hleft hln
    obtain ⟨hfindr, hfnr, hvaluesr⟩ := hl.source_finished hg hb
      (graph.has_source hm (List.mem_cons_of_mem _ List.mem_cons_self)) hr hrn
    refine ⟨lefts.compact, rights.compact, value, hfindl, hfnl, hfindr, hfnr,
      hvaluesr.trans hright, ?_⟩
    rw [hslots, hvaluesl]
    exact fits_compacted hstands
  | custom info update => exact (hg _ hm).elim

/-- The finished tables of a lawful pass are a baseline again. -/
theorem BaselineBy.finish (hb : graph.BaselineBy making previous) (hg : graph.Builtin)
    (hl : graph.LawfulBy making previous pass) :
    graph.BaselineBy making pass.current.compact := by
  constructor
  · intro stage table hm hf
    obtain ⟨made, hmade, rfl⟩ := PassTables.find?_compact_eq_some hf
    exact Table.settled_compact (hl.honest hg hb hm hmade)
  · intro stage table hm hf hn
    obtain ⟨made, hmade, rfl⟩ := PassTables.find?_compact_eq_some hf
    rw [Table.fault_compact] at hn
    exact hl.rests_finished hg hb hm hmade hn

end StageGraph

end Regen
