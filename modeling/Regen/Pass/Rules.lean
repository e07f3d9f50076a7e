import Regen.Pass.Basic

/-!
# How each kind of stage makes its table

The table of a stage from the tables of its sources and its own table of the pass before. An
entry of the source that did not change keeps its slot without being recomputed. Whatever a
transform does wrong becomes the fault of the table.
-/

namespace Regen.Stage

variable {σ : Type}

/-- The fault of a transform that stopped. A failed transform that names a stage keeps it. -/
def transformFault (info : StageInfo) : Stop → Fault
  | .failed (.transformFailed stage message) => .inStage stage message
  | why => .inStage info.name why.describe

/-- Run a transform on one value. It is not started once the pass was asked to stop. -/
def applyTransform (info : StageInfo) (transform : Transform σ) (value : Value) :
    Act (Ambient σ) (Except Fault (List Value)) := do
  Ambient.checkCancelled
  match ← ((transform value).run Ambient.answer).outcome with
  | .ok values => return .ok values
  | .error why => return .error (transformFault info why)

/-- Add the slot for one entry of the source. -/
def mapEntry (info : StageInfo) (transform : Transform σ) (same : Comparer Value)
    (previous : Option (Table Value)) (builder : TableBuilder Value) (value : Value)
    (state : EntryState) : Act (Ambient σ) (Except Fault (TableBuilder Value)) :=
  match state, previous with
  | .removed, some previous =>
    return .ok (← Act.ofPanic (builder.addEntriesFromPrevious previous .removed))
  | .removed, none => return .ok (builder.addEntries [] .removed)
  | .cached, some previous =>
    return .ok (← Act.ofPanic (builder.addEntriesFromPrevious previous .cached))
  | .modified, some previous => do
    match ← applyTransform info transform value with
    | .ok values => return .ok (← Act.ofPanic (builder.addModifiedEntries previous values same))
    | .error fault => return .error fault
  | _, _ => do
    match ← applyTransform info transform value with
    | .ok values => return .ok (builder.addEntries values .added)
    | .error fault => return .error fault

/-- Add the slots for the entries of the source in order, up to the first fault. -/
def mapEntries (info : StageInfo) (transform : Transform σ) (same : Comparer Value)
    (previous : Option (Table Value)) :
    TableBuilder Value → List (Value × EntryState) → Act (Ambient σ) (TableBuilder Value)
  | builder, [] => return builder
  | builder, (value, state) :: rest => do
    match ← mapEntry info transform same previous builder value state with
    | .ok builder => mapEntries info transform same previous builder rest
    | .error fault => return builder.setFaulted fault

/-- The table of a map stage: one slot per entry of the source. -/
def mapTable (info : StageInfo) (transform : Transform σ) (same : Comparer Value)
    (previous : Option (Table Value)) (source : Table Value) :
    Act (Ambient σ) (Table Value) :=
  match source.fault with
  | some fault => return .faulted fault
  | none =>
    return (← mapEntries info transform same previous .empty source.entries).build

/-- The table of a collecting stage: one slot with one list. The old list is kept when no entry
of the source changed. -/
def collectTable (previous : Option (Table Value)) (source : Table Value) :
    Except Panic (Table Value) :=
  match source.fault with
  | some fault => return .faulted fault
  | none => do
    let gathered := Value.list source.liveValues
    let builder : TableBuilder Value := .empty
    match previous with
    | none => return (builder.addEntries [gathered] .added).build
    | some previous =>
      if source.entries.all (·.2 == .cached) then
        return (← builder.addEntriesFromPrevious previous .cached).build
      else return (← builder.addModifiedEntries previous [gathered] Comparer.equality).build

/-- Add the slot for one entry of the left source. It is kept when neither the entry nor the
right value changed. -/
def combineEntry (previous : Option (Table Value)) (right : Value) (rightState : EntryState)
    (builder : TableBuilder Value) (left : Value) (state : EntryState) :
    Except Panic (TableBuilder Value) :=
  match state, previous with
  | .removed, some previous => builder.addEntriesFromPrevious previous .removed
  | .removed, none => return builder.addEntries [] .removed
  | .added, _ => return builder.addEntries [.pair left right] .added
  | _, none => return builder.addEntries [.pair left right] .added
  | state, some previous =>
    if state = .cached ∧ rightState = .cached then
      builder.addEntriesFromPrevious previous .cached
    else builder.addModifiedEntries previous [.pair left right] Comparer.equality

def combineEntries (previous : Option (Table Value)) (right : Value) (rightState : EntryState) :
    TableBuilder Value → List (Value × EntryState) → Except Panic (TableBuilder Value)
  | builder, [] => return builder
  | builder, (left, state) :: rest => do
    let builder ← combineEntry previous right rightState builder left state
    combineEntries previous right rightState builder rest

/-- The fault of a combining stage whose right source does not hold exactly one live value. -/
def notSingle (info : StageInfo) (rightName : String) (found : Nat) : Fault :=
  .inStage info.name ("right input '" ++ rightName ++ "' must hold exactly one value, found " ++
    toString found)

/-- The table of a combining stage: one slot per entry of the left source. -/
def combineTable (info : StageInfo) (rightName : String) (previous : Option (Table Value))
    (left right : Table Value) : Except Panic (Table Value) :=
  match left.fault.or right.fault with
  | some fault => return .faulted fault
  | none =>
    match right.entries.filter (·.2.isLive) with
    | [(value, state)] => do
      return (← combineEntries previous value state .empty left.entries).build
    | live => return .faulted (notSingle info rightName live.length)

end Regen.Stage
