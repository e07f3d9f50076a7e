import Regen.Proofs.Pulling

/-!
# Acts on related states

The same code can run on two kinds of states: a stage whose callbacks keep a record beside the memory
of the plug-ins does what the plain stage does. One act simulates another when from related states
both end alike: they return related values or stop for the same reason, in related states. The
evaluator is the same on both sides, so all that has to be shown of two stages is what their callbacks
do. With one stage on both sides, simulation is preservation of an invariant.
-/

namespace Regen

variable {σ τ α β γ δ : Type}

namespace Act

/-- Both acts returned, with related values, or stopped for the same reason, in related states. -/
inductive Alike (R : τ → σ → Prop) (Q : α → β → Prop) :
    EStateM.Result Stop τ α → EStateM.Result Stop σ β → Prop
  | ok {a b t s} (values : Q a b) (states : R t s) : Alike R Q (.ok a t) (.ok b s)
  | error {why t s} (states : R t s) : Alike R Q (.error why t) (.error why s)

/-- From related states the act ends like the other one. -/
def Simulates (R : τ → σ → Prop) (Q : α → β → Prop) (act : Act τ α) (plain : Act σ β) : Prop :=
  ∀ t s, R t s → Alike R Q (act t) (plain s)

section

variable {R : τ → σ → Prop} {Q : α → β → Prop} {Q' : γ → δ → Prop} {act : Act τ α} {plain : Act σ β}

theorem simulates_pure {a : α} {b : β} (h : Q a b) : (pure a : Act τ α).Simulates R Q (pure b) :=
  fun _ _ hr => .ok h hr

theorem simulates_throw (why : Stop) : (throw why : Act τ α).Simulates R Q (throw why) :=
  fun _ _ hr => .error hr

theorem simulates_ofPanic (r : Except Panic α) :
    (ofPanic r : Act τ α).Simulates R Eq (ofPanic r) := by
  cases r with
  | ok a => exact simulates_pure rfl
  | error panic => exact simulates_throw _

theorem simulates_modify {f : τ → τ} {g : σ → σ} (h : ∀ t s, R t s → R (f t) (g s)) :
    (modify f : Act τ Unit).Simulates R Eq (modify g) :=
  fun t s hr => .ok rfl (h t s hr)

/-- How the two acts ended, each on its own. -/
theorem Alike.endings {x : EStateM.Result Stop τ α} {y : EStateM.Result Stop σ β}
    (h : Alike R Q x y) : (∃ a b t s, x = .ok a t ∧ y = .ok b s ∧ Q a b ∧ R t s) ∨
      ∃ why t s, x = .error why t ∧ y = .error why s ∧ R t s := by
  cases h with
  | ok values states => exact .inl ⟨_, _, _, _, rfl, rfl, values, states⟩
  | error states => exact .inr ⟨_, _, _, rfl, rfl, states⟩

/-- Where the other act returns, so does the act that simulates it. -/
theorem Simulates.of_ok (h : act.Simulates R Q plain) {t : τ} {s s' : σ} {b : β} (hr : R t s)
    (hx : plain s = .ok b s') : ∃ a t', act t = .ok a t' ∧ Q a b ∧ R t' s' := by
  rcases (h t s hr).endings with ⟨a, _, t', _, ht, hs, hq, hr'⟩ | ⟨_, _, _, -, hs, -⟩
  · cases hx.symm.trans hs
    exact ⟨a, t', ht, hq, hr'⟩
  · cases hx.symm.trans hs

theorem Simulates.bind {f : α → Act τ γ} {g : β → Act σ δ} (h : act.Simulates R Q plain)
    (hf : ∀ a b, Q a b → (f a).Simulates R Q' (g b)) : (act >>= f).Simulates R Q' (plain >>= g) := by
  intro t s hr
  rcases (h t s hr).endings with ⟨a, b, t', s', ht, hs, hq, hr'⟩ | ⟨why, t', s', ht, hs, hr'⟩
  · rw [bind_ok ht, bind_ok hs]
    exact hf a b hq t' s' hr'
  · rw [bind_error ht, bind_error hs]
    exact .error hr'

/-- What comes after acts that return the same value may use that value. -/
theorem Simulates.bind_eq {plain : Act σ α} {f : α → Act τ γ} {g : α → Act σ δ}
    (h : act.Simulates R Eq plain) (hf : ∀ a, (f a).Simulates R Q' (g a)) :
    (act >>= f).Simulates R Q' (plain >>= g) :=
  h.bind fun a _ he => he ▸ hf a

/-- What comes after a look at the states may use how they are related. -/
theorem simulates_get_bind {f : τ → Act τ γ} {g : σ → Act σ δ}
    (hf : ∀ t s, R t s → Alike R Q' (f t t) (g s s)) :
    ((get : Act τ τ) >>= f).Simulates R Q' ((get : Act σ σ) >>= g) :=
  hf

theorem Simulates.outcome {plain : Act σ α} (h : act.Simulates R Eq plain) :
    act.outcome.Simulates R Eq plain.outcome := by
  intro t s hr
  rcases (h t s hr).endings with ⟨a, b, t', s', ht, hs, rfl, hr'⟩ | ⟨why, t', s', ht, hs, hr'⟩
  · rw [outcome_apply (r := .ok a) ht, outcome_apply (r := .ok a) hs]
    exact .ok rfl hr'
  · rw [outcome_apply (r := .error why) ht, outcome_apply (r := .error why) hs]
    exact .ok rfl hr'

theorem Simulates.orError {plain : Act σ α} (h : act.Simulates R Eq plain) :
    act.orError.Simulates R Eq plain.orError := by
  intro t s hr
  rcases (h t s hr).endings with ⟨a, b, t', s', ht, hs, rfl, hr'⟩ | ⟨why, t', s', ht, hs, hr'⟩
  · rw [orError_ok ht, orError_ok hs]
    exact .ok rfl hr'
  · cases why with
    | failed error =>
      rw [orError_failed ht, orError_failed hs]
      exact .ok rfl hr'
    | panicked panic =>
      rw [orError_panicked ht, orError_panicked hs]
      exact .error hr'

/-- Acts on parts of the states simulate each other when the parts may be replaced by related
ones. -/
theorem Simulates.within {υ ω : Type} {R' : υ → ω → Prop} {part : υ → τ} {replace : τ → υ → υ}
    {part' : ω → σ} {replace' : σ → ω → ω} (h : act.Simulates R Q plain)
    (hpart : ∀ u w, R' u w → R (part u) (part' w))
    (hreplace : ∀ u w t s, R' u w → R t s → R' (replace t u) (replace' s w)) :
    (act.within part replace).Simulates R' Q (plain.within part' replace') := by
  intro u w hr
  rcases (h _ _ (hpart u w hr)).endings with ⟨a, b, t, s, ht, hs, hq, hr'⟩ | ⟨why, t, s, ht, hs, hr'⟩
  · rw [within_apply (r := .ok a) ht, within_apply (r := .ok b) hs]
    exact .ok hq (hreplace u w t s hr hr')
  · rw [within_apply (r := .error why) ht, within_apply (r := .error why) hs]
    exact .error (hreplace u w t s hr hr')

/-- An act that simulates another keeps what its related states have. -/
theorem Simulates.keeps {P : τ → Prop} (h : act.Simulates R Q plain)
    (hR : ∀ t, P t → ∃ s, R t s) (hP : ∀ t s, R t s → P t) : act.Keeps P := by
  intro t ht
  obtain ⟨s, hr⟩ := hR t ht
  rcases (h t s hr).endings with ⟨a, b, t', s', hact, -, -, hr'⟩ | ⟨why, t', s', hact, -, hr'⟩
  · exact after_of_ending (r := .ok a) hact ▸ hP t' s' hr'
  · exact after_of_ending (r := .error why) hact ▸ hP t' s' hr'

/-- To keep a property is to simulate oneself on equal states that have it. -/
theorem keeps_iff_simulates {P : τ → Prop} :
    act.Keeps P ↔ act.Simulates (fun t s => t = s ∧ P t) Eq act := by
  refine ⟨fun h => ?_, fun h => h.keeps (fun t ht => ⟨t, rfl, ht⟩) fun _ _ hr => hr.2⟩
  rintro t _ ⟨rfl, ht⟩
  have hx := eq_ending act t
  rw [hx]
  cases act.result t with
  | ok a => exact .ok rfl ⟨rfl, h t ht⟩
  | error why => exact .error ⟨rfl, h t ht⟩

end

end Act

/-- To ask one thing is to answer it. -/
theorem Program.run_ask {I : Interface} (answer : (request : I.Request) → Act σ (I.Answer request))
    (request : I.Request) : (Program.ask request .done).run answer = answer request := by
  funext s
  change (answer request >>= pure) s = answer request s
  rw [Act.bind_apply]
  cases answer request s <;> rfl

/-- A program whose requests are answered alike does the same, also where one of its requests is a
program of the other side. -/
theorem Program.embed_simulates {I J : Interface} {R : τ → σ → Prop}
    {offer : (request : I.Request) → Program J (I.Answer request)}
    {answer : (request : J.Request) → Act τ (J.Answer request)}
    {plain : (request : I.Request) → Act σ (I.Answer request)}
    (h : ∀ request, ((offer request).run answer).Simulates R Eq (plain request))
    (program : Program I α) :
    ((program.embed offer).run answer).Simulates R Eq (program.run plain) := by
  induction program with
  | done a => exact Act.simulates_pure rfl
  | stop why => exact Act.simulates_throw why
  | ask request next ih =>
    have hrun := Program.run_bind answer (offer request) fun given => (next given).embed offer
    exact hrun ▸ (h request).bind_eq ih

/-- A program whose requests are answered on a part of the state runs on that part. -/
theorem Program.run_embed_within {I J : Interface} (part : τ → σ) (replace : σ → τ → τ)
    {ask : (request : I.Request) → Program J (I.Answer request)}
    {answer : (request : I.Request) → Act σ (I.Answer request)}
    {answer' : (request : J.Request) → Act τ (J.Answer request)}
    (hpart : ∀ s t, part (replace s t) = s) (hself : ∀ t, replace (part t) t = t)
    (hagain : ∀ s s' t, replace s (replace s' t) = replace s t)
    (h : ∀ request, (ask request).run answer' = (answer request).within part replace)
    (program : Program I α) :
    (program.embed ask).run answer' = (program.run answer).within part replace := by
  induction program with
  | done a =>
    funext t
    exact congrArg (EStateM.Result.ok a) (hself t).symm
  | stop why =>
    funext t
    exact congrArg (EStateM.Result.error why) (hself t).symm
  | ask request next ih =>
    have hrun := Program.run_bind answer' (ask request) fun given => (next given).embed ask
    refine hrun.trans ?_
    funext t
    change _ = Act.within part replace (answer request >>= fun given => (next given).run answer) t
    rw [h]
    cases hx : answer request (part t) with
    | ok given s =>
      rw [Act.bind_ok (Act.within_apply (r := .ok given) hx), ih]
      unfold Act.within
      rw [Act.bind_ok hx, hpart]
      cases (next given).run answer s <;> simp only [hagain]
    | error why s =>
      rw [Act.bind_error (Act.within_apply (r := .error why) hx)]
      exact (Act.within_apply (r := .error why) (Act.bind_error hx)).symm

namespace Ambient

variable {R : Ambient τ → Ambient σ → Prop}

theorem checkCancelled_simulates (hc : ∀ t s, R t s → t.cancelled = s.cancelled) :
    (checkCancelled : Act (Ambient τ) Unit).Simulates R Eq checkCancelled := by
  intro t s hr
  cases ht : t.cancelled with
  | false =>
    rw [Evaluation.checkCancelled_apply ht, Evaluation.checkCancelled_apply (hc t s hr ▸ ht)]
    exact .ok rfl hr
  | true =>
    rw [Evaluation.checkCancelled_cancelled ht, Evaluation.checkCancelled_cancelled (hc t s hr ▸ ht)]
    exact .error hr

end Ambient

namespace Stage

variable {R : Ambient τ → Ambient σ → Prop} {info : StageInfo} {transform : Transform τ}
  {plain : Transform σ}

theorem applyTransform_simulates (hc : ∀ t s, R t s → t.cancelled = s.cancelled)
    (info : StageInfo) {value : Value}
    (h : ((transform value).run Ambient.answer).Simulates R Eq ((plain value).run Ambient.answer)) :
    (applyTransform info transform value).Simulates R Eq (applyTransform info plain value) := by
  refine (Ambient.checkCancelled_simulates hc).bind_eq fun _ => h.outcome.bind_eq fun r => ?_
  cases r <;> exact Act.simulates_pure rfl

theorem addEntry_simulates
    (h : ∀ value, (applyTransform info transform value).Simulates R Eq
      (applyTransform info plain value))
    (builder : TableBuilder Value) (value : Value) :
    (applyTransform info transform value >>= fun
        | .ok values => pure (.ok (builder.addEntries values .added))
        | .error fault => pure (.error fault) :
      Act (Ambient τ) (Except Fault (TableBuilder Value))).Simulates R Eq
    (applyTransform info plain value >>= fun
        | .ok values => pure (.ok (builder.addEntries values .added))
        | .error fault => pure (.error fault) :
      Act (Ambient σ) (Except Fault (TableBuilder Value))) := by
  refine (h value).bind_eq fun r => ?_
  cases r <;> exact Act.simulates_pure rfl

theorem mapEntry_simulates
    (h : ∀ value, (applyTransform info transform value).Simulates R Eq
      (applyTransform info plain value))
    (same : Comparer Value) (previous : Option (Table Value)) (builder : TableBuilder Value)
    (value : Value) (state : EntryState) :
    (mapEntry info transform same previous builder value state).Simulates R Eq
      (mapEntry info plain same previous builder value state) := by
  have hfresh := addEntry_simulates h builder value
  have hkept (table : Table Value) (state : EntryState) :
      (do return .ok (← Act.ofPanic (builder.addEntriesFromPrevious table state)) :
        Act (Ambient τ) (Except Fault (TableBuilder Value))).Simulates R Eq
      (do return .ok (← Act.ofPanic (builder.addEntriesFromPrevious table state)) :
        Act (Ambient σ) (Except Fault (TableBuilder Value))) :=
    (Act.simulates_ofPanic _).bind_eq fun _ => Act.simulates_pure rfl
  cases previous with
  | none =>
    cases state with
    | removed => exact Act.simulates_pure rfl
    | _ => exact hfresh
  | some table =>
    cases state with
    | removed => exact hkept table .removed
    | cached => exact hkept table .cached
    | added => exact hfresh
    | modified =>
      refine (h value).bind_eq fun r => ?_
      cases r with
      | ok values =>
        exact (Act.simulates_ofPanic _).bind_eq fun next => Act.simulates_pure rfl
      | error fault => exact Act.simulates_pure rfl

theorem mapEntries_simulates
    (h : ∀ value, (applyTransform info transform value).Simulates R Eq
      (applyTransform info plain value))
    (same : Comparer Value) (previous : Option (Table Value))
    (entries : List (Value × EntryState)) (builder : TableBuilder Value) :
    (mapEntries info transform same previous builder entries).Simulates R Eq
      (mapEntries info plain same previous builder entries) := by
  induction entries generalizing builder with
  | nil => exact Act.simulates_pure rfl
  | cons entry rest ih =>
    refine (mapEntry_simulates h same previous builder entry.1 entry.2).bind_eq fun r => ?_
    cases r with
    | ok next => exact ih next
    | error fault => exact Act.simulates_pure rfl

theorem mapTable_simulates
    (h : ∀ value, (applyTransform info transform value).Simulates R Eq
      (applyTransform info plain value))
    (same : Comparer Value) (previous : Option (Table Value)) (source : Table Value) :
    (mapTable info transform same previous source).Simulates R Eq
      (mapTable info plain same previous source) := by
  unfold mapTable
  cases source.fault with
  | some fault => exact Act.simulates_pure rfl
  | none =>
    exact (mapEntries_simulates h same previous source.entries .empty).bind_eq fun builder =>
      Act.simulates_pure rfl

/-- Two stages of the same shape, whose callbacks simulate each other. -/
inductive Simulates (R : Ambient τ → Ambient σ → Prop) : Stage τ → Stage σ → Prop
  | input (info : StageInfo) (same : Comparer Value) : Simulates R (.input info same) (.input info same)
  | map {info : StageInfo} {source : Stage τ} {source' : Stage σ} {transform : Transform τ}
      {plain : Transform σ} (same : Comparer Value) (hs : Simulates R source source')
      (h : ∀ value, (applyTransform info transform value).Simulates R Eq
        (applyTransform info plain value)) :
      Simulates R (.map info source transform same) (.map info source' plain same)
  | collect {source : Stage τ} {source' : Stage σ} (info : StageInfo)
      (hs : Simulates R source source') : Simulates R (.collect info source) (.collect info source')
  | combine {left right : Stage τ} {left' right' : Stage σ} (info : StageInfo)
      (hl : Simulates R left left') (hr : Simulates R right right') :
      Simulates R (.combine info left right) (.combine info left' right')
  | custom {update : Option (Table Value) → Callback τ (Table Value)}
      {plain : Option (Table Value) → Callback σ (Table Value)} (info : StageInfo)
      (h : ∀ old, ((update old).run Ambient.answer).Simulates R Eq
        ((plain old).run Ambient.answer)) :
      Simulates R (.custom info update) (.custom info plain)

theorem Simulates.info_eq {stage : Stage τ} {plain : Stage σ} (h : Simulates R stage plain) :
    stage.info = plain.info := by
  cases h <;> rfl

end Stage

namespace Evaluation

variable {R : Ambient τ → Ambient σ → Prop}

/-- The same pass, in related ambiences. -/
structure Related (R : Ambient τ → Ambient σ → Prop) (t : Evaluation τ) (s : Evaluation σ) :
    Prop where
  pass : t.pass = s.pass
  ambient : R t.ambient s.ambient

theorem onAmbient_simulates {Q : α → β → Prop} {act : Act (Ambient τ) α} {plain : Act (Ambient σ) β}
    (h : act.Simulates R Q plain) : (onAmbient act).Simulates (Related R) Q (onAmbient plain) :=
  h.within (fun _ _ hr => hr.ambient) fun _ _ _ _ hr ha => ⟨hr.pass, ha⟩

theorem modifyPass_simulates (f : Pass → Pass) :
    (modifyPass f : Act (Evaluation τ) Unit).Simulates (Related R) Eq (modifyPass f) :=
  Act.simulates_modify fun _ _ hr => ⟨congrArg f hr.pass, hr.ambient⟩

theorem leafTable_simulates (info : StageInfo) (same : Comparer Value)
    (previous : Option (Table Value)) :
    (leafTable info same previous : Act (Evaluation τ) _).Simulates (Related R) Eq
      (leafTable info same previous) := by
  refine Act.simulates_get_bind fun t s hr => ?_
  rw [hr.pass]
  cases s.pass.fed? info.id with
  | some values =>
    exact ((modifyPass_simulates _).bind_eq fun _ => Act.simulates_ofPanic _) t s hr
  | none => exact .ok rfl hr

theorem memoize_simulates (hc : ∀ t s, R t s → t.cancelled = s.cancelled) (info : StageInfo)
    {compute : Option (Table Value) → Act (Evaluation τ) (Table Value)}
    {plain : Option (Table Value) → Act (Evaluation σ) (Table Value)}
    (h : ∀ old, (compute old).Simulates (Related R) Eq (plain old)) :
    (memoize info compute).Simulates (Related R) Eq (memoize info plain) := by
  refine Act.simulates_get_bind fun t s hr => ?_
  rw [hr.pass]
  cases s.pass.current.find? info.id with
  | some table => exact .ok rfl hr
  | none =>
    have hmade := (onAmbient_simulates (Ambient.checkCancelled_simulates hc)).bind_eq fun _ =>
      (h (s.pass.previous.find? info.id)).bind_eq fun table =>
        (modifyPass_simulates (R := R) (·.store info table)).bind_eq fun _ =>
          Act.simulates_pure (Eq.refl table)
    exact hmade t s hr

/-- A stage computes its table as the other one does, if its sources are pulled alike. -/
theorem compute_simulates {stage : Stage τ} {plain : Stage σ}
    (hc : ∀ t s, R t s → t.cancelled = s.cancelled) (h : stage.Simulates R plain)
    (previous : Option (Table Value)) :
    (compute stage previous).Simulates (Related R) Eq (compute plain previous) := by
  induction h generalizing previous with
  | input info same => exact leafTable_simulates info same _
  | @map info _ _ _ _ same hs h ih =>
    rw [compute, compute, pull_eq, pull_eq, hs.info_eq]
    exact (memoize_simulates hc _ ih).bind_eq fun sources =>
      onAmbient_simulates (Stage.mapTable_simulates h same _ sources)
  | collect info hs ih =>
    rw [compute, compute, pull_eq, pull_eq, hs.info_eq]
    exact (memoize_simulates hc _ ih).bind_eq fun sources => Act.simulates_ofPanic _
  | combine info hl hr ihl ihr =>
    rw [compute, compute, pull_eq, pull_eq, pull_eq, pull_eq, hl.info_eq, hr.info_eq,
      Stage.name, Stage.name, hr.info_eq]
    exact (memoize_simulates hc _ ihl).bind_eq fun lefts =>
      (memoize_simulates hc _ ihr).bind_eq fun rights => Act.simulates_ofPanic _
  | custom info h => exact onAmbient_simulates (h previous)

/-- A pull of a stage ends like a pull of the other one. -/
theorem pull_simulates {stage : Stage τ} {plain : Stage σ}
    (hc : ∀ t s, R t s → t.cancelled = s.cancelled) (h : stage.Simulates R plain) :
    (pull stage).Simulates (Related R) Eq (pull plain) := by
  rw [pull_eq, pull_eq, h.info_eq]
  exact memoize_simulates hc _ (compute_simulates hc h)

end Evaluation

end Regen
