import Regen.Wire.Event
import Regen.Wire.Result

/-!
# Reading back what was written

Every type that crosses the boundary of the engine is written as a JSON value and read again. What is
written is read back, as long as its counts fit into 64 bits; and what is read from any JSON value at
all, with fields that are not known, missing or given by position, is read back from the form in which
it is written again. An event is never read as another one. The text of a JSON value is left out, and so
is which field names the forms share with other programs.
-/

namespace Regen

namespace Json

/-- A field that was put in is found; every other one stays. -/
theorem find?_insertField (key other : String) (value : Json) (fields : List (String × Json)) :
    (insertField key value fields).find? (·.1 == other) =
      if key = other then some (key, value) else fields.find? (·.1 == other) := by
  induction fields with
  | nil => by_cases h : key = other <;> simp [insertField, h]
  | cons field rest ih =>
    obtain ⟨k, v⟩ := field
    unfold insertField
    by_cases hk : key = k
    · subst hk
      by_cases h : key = other <;> simp [h]
    · rw [if_neg hk]
      split
      · by_cases h : key = other <;> simp [h]
      · by_cases hko : k = other
        · have hne : key ≠ other := fun h => hk (h.trans hko.symm)
          simp [hko, hne]
        · simpa [hko] using ih

/-- Of the fields that an object is made of, the last one with a key counts. -/
theorem get?_object (fields : List (String × Json)) (key : String) :
    (object fields).get? key = (fields.reverse.find? (·.1 == key)).map (·.2) := by
  suffices h : ∀ sorted : List (String × Json),
      (fields.foldl (fun sorted field => insertField field.1 field.2 sorted) sorted).find?
        (·.1 == key) = (fields.reverse.find? (·.1 == key)).or (sorted.find? (·.1 == key)) by
    rw [object, get?, h []]
    simp
  induction fields with
  | nil => simp
  | cons field rest ih =>
    intro sorted
    rw [List.foldl_cons, ih, find?_insertField]
    obtain ⟨k, v⟩ := field
    by_cases hk : k = key <;> simp [List.find?_append, hk]

@[simp] theorem asStr?_str (s : String) : (str s).asStr? = some s := rfl

end Json

namespace Wire

@[simp] theorem fields?_object (names : List String) (fields : List (String × Json)) :
    fields? names (.object fields) = some (names.map (Json.object fields).get?) := rfl

@[simp] theorem defaultedFields?_object (names : List String) (fields : List (String × Json)) :
    defaultedFields? names (.object fields) = some (names.map (Json.object fields).get?) := rfl

@[simp] theorem count?_ofNat (n : Nat) :
    count? (.ofNat n) = if n < UInt64.size then some n else none := rfl

theorem count?_lt {json : Json} {n : Nat} (h : count? json = some n) : n < UInt64.size := by
  unfold count? at h
  split at h
  · split at h
    · next hn =>
      cases h
      exact hn
    · cases h
  · cases h

@[simp] theorem flag?_bool (b : Bool) : flag? (.bool b) = some b := rfl

@[simp] theorem optionalText?_ofStr? (text : Option String) :
    optionalText? (some (.ofStr? text)) = some text := by
  cases text <;> rfl

/-- What is read back item by item is read back as a list. -/
theorem listOf?_map {α : Type} {write : α → Json} {read : Json → Option α}
    (h : ∀ a, read (write a) = some a) (as : List α) :
    listOf? read (.arr (as.map write)) = some as := by
  change (as.map write).mapM read = some as
  rw [List.mapM_map]
  exact (congrArg (as.mapM ·) (funext h)).trans (List.mapM_pure.trans (congrArg some as.map_id))

/-- Values that fit are read back from their form, and values that are read fit and are read back from
the form in which they are written again. -/
structure RoundTrips {α : Type} (Fits : α → Prop) (write : α → Json) (read : Json → Option α) :
    Prop where
  read_write : ∀ a, Fits a → read (write a) = some a
  reread : ∀ json a, read json = some a → Fits a ∧ read (write a) = some a

namespace RoundTrips

variable {α : Type} {Fits : α → Prop} {write : α → Json} {read : Json → Option α}

theorem of_fits (h : ∀ a, Fits a → read (write a) = some a)
    (hfits : ∀ json a, read json = some a → Fits a) : RoundTrips Fits write read :=
  ⟨h, fun json a ha => ⟨hfits json a ha, h a (hfits json a ha)⟩⟩

/-- Where every value fits. -/
theorem of_total (h : ∀ a, read (write a) = some a) : RoundTrips (fun _ => True) write read :=
  of_fits (fun a _ => h a) fun _ _ _ => trivial

end RoundTrips

end Wire

theorem EntryState.ofJson?_toJson (state : EntryState) : ofJson? state.toJson = some state := by
  cases state <;> rfl

@[simp] theorem OutputKind.ofJson?_toJson (kind : OutputKind) : ofJson? kind.toJson = some kind := by
  cases kind <;> rfl

namespace StageId

/-- The number of the identity fits into 64 bits. -/
def Fits (id : StageId) : Prop :=
  id.number < UInt64.size

theorem roundTrips : Wire.RoundTrips Fits toJson ofJson? := by
  refine .of_fits (fun id hid => ?_) fun json id hid => ?_
  · unfold Fits at hid
    simp [toJson, ofJson?, hid]
  · obtain ⟨n, hn, rfl⟩ := Option.map_eq_some_iff.mp hid
    exact Wire.count?_lt hn

end StageId

theorem GeneratedOutput.ofJson?_toJson (output : GeneratedOutput) :
    ofJson? output.toJson = some output := by
  simp [toJson, ofJson?, Json.get?_object]

theorem AdditionalInput.ofJson?_toJson (input : AdditionalInput) :
    ofJson? input.toJson = some input := by
  simp [toJson, ofJson?, Json.get?_object]

theorem Artifact.ofJson?_toJson (artifact : Artifact) :
    ofJson? artifact.toJson = some artifact := by
  simp [toJson, ofJson?, Json.get?_object]

theorem DriverOptions.ofJson?_toJson (options : DriverOptions) :
    ofJson? options.toJson = some options := by
  simp [toJson, ofJson?, Json.get?_object, Wire.listOf?_map OutputKind.ofJson?_toJson]

namespace StepRecord

/-- The four counts fit into 64 bits. -/
def Fits (step : StepRecord) : Prop :=
  step.added < UInt64.size ∧ step.modified < UInt64.size ∧ step.cached < UInt64.size ∧
    step.removed < UInt64.size

theorem fits_of_ofJson? {json : Json} {step : StepRecord} (h : ofJson? json = some step) :
    step.Fits := by
  obtain ⟨values, -, h⟩ := Option.bind_eq_some_iff.mp h
  split at h
  · simp only [Option.bind_eq_bind, Option.bind_eq_some_iff, Option.some.injEq] at h
    obtain ⟨stage, -, added, ha, modified, hm, cached, hc, removed, hr, faulted, -, rfl⟩ := h
    exact ⟨Wire.count?_lt ha, Wire.count?_lt hm, Wire.count?_lt hc, Wire.count?_lt hr⟩
  · cases h

theorem roundTrips : Wire.RoundTrips Fits toJson ofJson? := by
  refine .of_fits (fun step ⟨ha, hm, hc, hr⟩ => ?_) fun json step => fits_of_ofJson?
  simp [toJson, ofJson?, Json.get?_object, ha, hm, hc, hr]

end StepRecord

namespace EngineEvent

def counts : EngineEvent → List Nat
  | .passStarted _ generators => [generators]
  | .passCompleted _ outputs failedGenerators => [outputs, failedGenerators]
  | .editsApplied _ count => [count]
  | _ => []

/-- All counts of the event fit into 64 bits. -/
def Fits (event : EngineEvent) : Prop :=
  ∀ n ∈ event.counts, n < UInt64.size

theorem ofJson?_object (fields : List (String × Json)) : ofJson? (.object fields) =
    ((Json.object fields).get? "type").bind fun tag =>
      tag.asStr?.bind fun type => ofFields? type (.object fields) := rfl

/-- The tag of a form names the event. -/
theorem get?_type (event : EngineEvent) : event.toJson.get? "type" = some (.str event.type) := by
  rw [toJson, toJsonWithRun, Json.get?_object]
  cases event <;> simp [details]

/-- Only the event that is named is read, and its counts fit. -/
theorem ofFields?_some {type : String} {json : Json} {event : EngineEvent}
    (h : ofFields? type json = some event) : event.type = type ∧ event.Fits := by
  unfold ofFields? at h
  split at h
  case h_10 => cases h
  all_goals
    obtain ⟨values, -, h⟩ := Option.bind_eq_some_iff.mp h
    split at h
    case h_2 => cases h
    simp only [Option.bind_eq_bind, Option.bind_eq_some_iff, Option.some.injEq] at h
    grind [Fits, counts, EngineEvent.type, Wire.count?_lt]

/-- The form of an event is read by the fields of that event. -/
theorem ofJson?_toJson_eq (event : EngineEvent) :
    ofJson? event.toJson = ofFields? event.type event.toJson := by
  have hobject : event.toJson = .object (("type", .str event.type) ::
    ("runId", .str event.runId) :: event.details) := rfl
  rw [hobject, ofJson?_object, ← hobject, get?_type]
  rfl

theorem ofJson?_toJson {event : EngineEvent} (h : event.Fits) :
    ofJson? event.toJson = some event := by
  rw [ofJson?_toJson_eq, toJson, toJsonWithRun]
  cases event <;> simp_all [type, runId, details, ofFields?, Json.get?_object, Fits, counts]

/-- From an object the event of its tag is read, and from an array that of its first item. -/
theorem fits_of_ofJson? {json : Json} {event : EngineEvent} (h : ofJson? json = some event) :
    event.Fits := by
  unfold ofJson? at h
  split at h
  · exact (ofFields?_some h).2
  · simp only [Option.bind_eq_bind, Option.bind_eq_some_iff] at h
    obtain ⟨tag, -, type, -, h⟩ := h
    exact (ofFields?_some h).2
  · cases h

theorem roundTrips : Wire.RoundTrips Fits toJson ofJson? :=
  .of_fits (fun _ => ofJson?_toJson) fun _ _ => fits_of_ofJson?

/-- No event is read from the form of another one, whether its counts fit or not. -/
theorem eq_of_ofJson?_toJson {event other : EngineEvent}
    (h : ofJson? event.toJson = some other) : other = event := by
  rw [ofJson?_toJson_eq, toJson, toJsonWithRun] at h
  cases event <;> simp [type, runId, details, ofFields?, Json.get?_object] at h <;> grind

end EngineEvent

/-- Every type that crosses the boundary is read back from its form, and what is read from any JSON
value is read back from the form in which it is written again. No event is read from the form of
another one. -/
theorem forms_roundTrip :
    Wire.RoundTrips (fun _ => True) EntryState.toJson EntryState.ofJson? ∧
    Wire.RoundTrips (fun _ => True) OutputKind.toJson OutputKind.ofJson? ∧
    Wire.RoundTrips StageId.Fits StageId.toJson StageId.ofJson? ∧
    Wire.RoundTrips (fun _ => True) GeneratedOutput.toJson GeneratedOutput.ofJson? ∧
    Wire.RoundTrips (fun _ => True) AdditionalInput.toJson AdditionalInput.ofJson? ∧
    Wire.RoundTrips (fun _ => True) Artifact.toJson Artifact.ofJson? ∧
    Wire.RoundTrips (fun _ => True) DriverOptions.toJson DriverOptions.ofJson? ∧
    Wire.RoundTrips StepRecord.Fits StepRecord.toJson StepRecord.ofJson? ∧
    Wire.RoundTrips EngineEvent.Fits EngineEvent.toJson EngineEvent.ofJson? ∧
    ∀ event other, EngineEvent.ofJson? event.toJson = some other → other = event :=
  ⟨.of_total EntryState.ofJson?_toJson, .of_total OutputKind.ofJson?_toJson, StageId.roundTrips,
    .of_total GeneratedOutput.ofJson?_toJson, .of_total AdditionalInput.ofJson?_toJson,
    .of_total Artifact.ofJson?_toJson, .of_total DriverOptions.ofJson?_toJson,
    StepRecord.roundTrips, EngineEvent.roundTrips, fun _ _ => EngineEvent.eq_of_ofJson?_toJson⟩

namespace RoundTrips

/-- Options with an unknown field and without the first known one. -/
def sparseOptions : Json :=
  .object [("colour", .str "red"), ("disabledOutputs", .arr [.str "implementation"])]

/-- A fault without the stage it belongs to, with an unknown field. -/
def bareFault : Json :=
  .object [("error", .str "boom"), ("since", .ofNat 3), ("runId", .str "r-1"),
    ("generator", .str "Docs"), ("type", .str "stageFaulted")]

end RoundTrips

/-- The options and the fault are read with what is missing filled in, and are read back after they
were written in full. -/
theorem forms_roundTrip_sparse :
    DriverOptions.ofJson? RoundTrips.sparseOptions = some ⟨false, [.implementation]⟩ ∧
    DriverOptions.ofJson? (DriverOptions.toJson ⟨false, [.implementation]⟩) =
      some ⟨false, [.implementation]⟩ ∧
    EngineEvent.ofJson? RoundTrips.bareFault = some (.stageFaulted "r-1" "Docs" none "boom") ∧
    EngineEvent.ofJson? (EngineEvent.stageFaulted "r-1" "Docs" none "boom").toJson =
      some (.stageFaulted "r-1" "Docs" none "boom") := by
  obtain ⟨-, -, -, -, -, -, options, -, event, -⟩ := forms_roundTrip
  have hoptions : DriverOptions.ofJson? RoundTrips.sparseOptions =
      some ⟨false, [.implementation]⟩ := by
    simp [RoundTrips.sparseOptions, DriverOptions.ofJson?, DriverOptions.standard, Wire.listOf?,
      Json.get?_object, OutputKind.ofJson?, Wire.choice?, OutputKind.ofName?]
  have hevent : EngineEvent.ofJson? RoundTrips.bareFault =
      some (.stageFaulted "r-1" "Docs" none "boom") := by
    simp [RoundTrips.bareFault, EngineEvent.ofJson?_object, EngineEvent.ofFields?,
      Json.get?_object, Wire.optionalText?]
  exact ⟨hoptions, (options.reread _ _ hoptions).2, hevent, (event.reread _ _ hevent).2⟩

end Regen
