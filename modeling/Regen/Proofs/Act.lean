import Regen.Pass.Rules

/-!
# How acts end

An act ends with a result in a last state. A pure callback ends the same way in every ambience and
writes at most the memory. An act of the engine that runs pure callbacks is steady: in every pass
that nobody asked to stop it ends the same way. Whether callbacks of a plug-in are pure is not
shown here; it is what the results about repeated passes ask of them.
-/

namespace Regen

variable {σ τ α β : Type}

namespace Act

/-- The ending of an act with this result in this state. -/
def ending (result : Except Stop α) (s : σ) : EStateM.Result Stop σ α :=
  match result with
  | .ok a => .ok a s
  | .error why => .error why s

/-- The result of an act, without the state it ends in. -/
def result (act : Act σ α) (s : σ) : Except Stop α :=
  match act s with
  | .ok a _ => .ok a
  | .error why _ => .error why

/-- The state an act ends in, however it ends. -/
def after (act : Act σ α) (s : σ) : σ :=
  match act s with
  | .ok _ s => s
  | .error _ s => s

@[simp] theorem ending_ok (a : α) (s : σ) : ending (.ok a) s = .ok a s := rfl

@[simp] theorem ending_error (why : Stop) (s : σ) :
    ending (.error why : Except Stop α) s = .error why s := rfl

@[simp] theorem pure_apply (a : α) (s : σ) : (pure a : Act σ α) s = .ok a s := rfl

@[simp] theorem throw_apply (why : Stop) (s : σ) : (throw why : Act σ α) s = .error why s := rfl

@[simp] theorem fail_apply (error : EngineError) (s : σ) :
    (fail error : Act σ α) s = .error (.failed error) s := rfl

@[simp] theorem get_apply (s : σ) : (get : Act σ σ) s = .ok s s := rfl

@[simp] theorem set_apply (s t : σ) : (set t : Act σ Unit) s = .ok () t := rfl

@[simp] theorem modify_apply (f : σ → σ) (s : σ) :
    (modify f : Act σ Unit) s = .ok () (f s) := rfl

theorem bind_apply (act : Act σ α) (f : α → Act σ β) (s : σ) :
    (act >>= f) s = match act s with
      | .ok a s => f a s
      | .error why s => .error why s := by
  change EStateM.bind act f s = _
  unfold EStateM.bind
  cases act s <;> rfl

theorem map_apply (f : α → β) (act : Act σ α) (s : σ) :
    (f <$> act) s = match act s with
      | .ok a s => .ok (f a) s
      | .error why s => .error why s := by
  rw [map_eq_pure_bind, bind_apply]
  rfl

theorem bind_ok {act : Act σ α} {f : α → Act σ β} {a : α} {s t : σ} (h : act s = .ok a t) :
    (act >>= f) s = f a t := by
  rw [bind_apply, h]

theorem bind_error {act : Act σ α} {f : α → Act σ β} {why : Stop} {s t : σ}
    (h : act s = .error why t) : (act >>= f) s = .error why t := by
  rw [bind_apply, h]

/-- An act that went through did so step by step. -/
theorem bind_eq_ok {act : Act σ α} {f : α → Act σ β} {b : β} {s u : σ}
    (h : (act >>= f) s = .ok b u) : ∃ a t, act s = .ok a t ∧ f a t = .ok b u := by
  rw [bind_apply] at h
  cases ha : act s with
  | ok a t => exact ⟨a, t, rfl, by simpa [ha] using h⟩
  | error why t => simp [ha] at h

/-- A sequence ends with its first act or goes on after it. -/
theorem bind_eq_ending {act : Act σ α} {f : α → Act σ β} {r : Except Stop β} {s t : σ}
    (h : (act >>= f) s = ending r t) : (∃ why, r = .error why ∧ act s = .error why t) ∨
      ∃ a u, act s = .ok a u ∧ f a u = ending r t := by
  cases hact : act s with
  | ok a u =>
    rw [bind_ok hact] at h
    exact .inr ⟨a, u, rfl, h⟩
  | error why u =>
    rw [bind_error hact] at h
    cases r <;> cases h
    exact .inl ⟨why, rfl, rfl⟩

theorem ending_inj {r r' : Except Stop α} {s t : σ} (h : ending r s = ending r' t) :
    r = r' ∧ s = t := by
  cases r <;> cases r' <;> cases h <;> exact ⟨rfl, rfl⟩

@[simp] theorem ofPanic_apply (r : Except Panic α) (s : σ) :
    ofPanic r s = ending (r.mapError .panicked) s := by
  cases r <;> rfl

theorem ofPanic_ok {r : Except Panic α} {a : α} (h : r = .ok a) (s : σ) : ofPanic r s = .ok a s := by
  rw [h]
  rfl

theorem ofPanic_eq_ok {r : Except Panic α} {a : α} {s t : σ} (h : ofPanic r s = .ok a t) :
    r = .ok a ∧ t = s := by
  cases r with
  | ok b =>
    cases h
    exact ⟨rfl, rfl⟩
  | error panic => cases h

theorem within_apply {part : τ → σ} {replace : σ → τ → τ} {act : Act σ α} {t : τ}
    {r : Except Stop α} {s : σ} (h : act (part t) = ending r s) :
    act.within part replace t = ending r (replace s t) := by
  unfold within
  cases r <;> simp_all

theorem outcome_apply {act : Act σ α} {r : Except Stop α} {s t : σ} (h : act s = ending r t) :
    act.outcome s = .ok r t := by
  unfold outcome
  cases r <;> simp_all

theorem outcome_eq_ok {act : Act σ α} {r : Except Stop α} {s t : σ} (h : act.outcome s = .ok r t) :
    act s = ending r t := by
  unfold outcome at h
  cases hact : act s <;> rw [hact] at h <;> cases h <;> rfl

theorem orError_ok {act : Act σ α} {a : α} {s t : σ} (h : act s = .ok a t) :
    act.orError s = .ok (.ok a) t := by
  rw [orError, h]

theorem orError_failed {act : Act σ α} {error : EngineError} {s t : σ}
    (h : act s = .error (.failed error) t) : act.orError s = .ok (.error error) t := by
  rw [orError, h]

theorem orError_panicked {act : Act σ α} {panic : Panic} {s t : σ}
    (h : act s = .error (.panicked panic) t) : act.orError s = .error (.panicked panic) t := by
  rw [orError, h]

theorem result_of_ending {act : Act σ α} {s t : σ} {r : Except Stop α}
    (h : act s = ending r t) : act.result s = r := by
  unfold result
  cases r <;> simp_all

theorem after_of_ending {act : Act σ α} {s t : σ} {r : Except Stop α}
    (h : act s = ending r t) : act.after s = t := by
  unfold after
  cases r <;> simp_all

theorem eq_ending (act : Act σ α) (s : σ) : act s = ending (act.result s) (act.after s) := by
  unfold result after
  cases act s <;> rfl

theorem eq_ok_of_toOption {act : Act σ α} {a : α} {s : σ} (h : (act.result s).toOption = some a) :
    ∃ t, act s = .ok a t := by
  unfold result at h
  cases hx : act s with
  | ok b t =>
    rw [hx] at h
    cases h
    exact ⟨t, rfl⟩
  | error why t =>
    rw [hx] at h
    cases h

/-- An act whose result is a value returned. -/
theorem exists_ok_of_isOk {act : Act σ α} {s : σ} (h : (act.result s).isOk = true) :
    ∃ a t, act s = .ok a t := by
  unfold result at h
  cases hx : act s with
  | ok a t => exact ⟨a, t, rfl⟩
  | error why t =>
    rw [hx] at h
    cases h

/-- The act keeps a property of the state, however it ends. -/
def Keeps (P : σ → Prop) (act : Act σ α) : Prop :=
  ∀ s, P s → P (act.after s)

section

variable {P : σ → Prop} {act : Act σ α}

theorem Keeps.of_ending (h : act.Keeps P) {r : Except Stop α} {s t : σ} (hx : act s = ending r t)
    (hs : P s) : P t :=
  after_of_ending hx ▸ h s hs

theorem Keeps.of_ok (h : act.Keeps P) {a : α} {s t : σ} (hx : act s = .ok a t) (hs : P s) : P t :=
  h.of_ending (r := .ok a) hx hs

theorem keeps_pure (a : α) : (pure a : Act σ α).Keeps P :=
  fun _ hs => hs

theorem keeps_throw (why : Stop) : (throw why : Act σ α).Keeps P :=
  fun _ hs => hs

theorem keeps_modify {f : σ → σ} (h : ∀ s, P s → P (f s)) : (modify f : Act σ Unit).Keeps P :=
  h

theorem Keeps.bind {f : α → Act σ β} (h : act.Keeps P) (hf : ∀ a, (f a).Keeps P) :
    (act >>= f).Keeps P := by
  intro s hs
  have hact := h s hs
  unfold after at hact ⊢
  rw [bind_apply]
  cases hx : act s with
  | ok a t =>
    rw [hx] at hact
    exact hf a t hact
  | error why t =>
    rw [hx] at hact
    exact hact

/-- What comes after a look at the state may use the property. -/
theorem keeps_get_bind {f : σ → Act σ β} (hf : ∀ s, P s → P ((f s).after s)) :
    ((get : Act σ σ) >>= f).Keeps P :=
  hf

/-- A choice by the state may use the property and what was found. -/
theorem keeps_get_ite {c : σ → Prop} [DecidablePred c] {yes no : σ → Act σ β}
    (hyes : ∀ s, c s → P s → P ((yes s).after s)) (hno : ∀ s, ¬ c s → P s → P ((no s).after s)) :
    ((get : Act σ σ) >>= fun s => if c s then yes s else no s).Keeps P := by
  refine keeps_get_bind fun s hs => ?_
  by_cases hc : c s
  · rw [if_pos hc]
    exact hyes s hc hs
  · rw [if_neg hc]
    exact hno s hc hs

theorem Keeps.orError (h : act.Keeps P) : act.orError.Keeps P := by
  intro s hs
  have hact := h s hs
  unfold after at hact ⊢
  unfold Act.orError
  cases hx : act s with
  | ok a t =>
    rw [hx] at hact
    exact hact
  | error why t =>
    rw [hx] at hact
    cases why <;> exact hact

/-- An act on a part of the state keeps what does not depend on the part. -/
theorem keeps_within {Q : τ → Prop} {part : τ → σ} {replace : σ → τ → τ}
    (hreplace : ∀ s t, Q t → Q (replace s t)) (act : Act σ α) :
    (act.within part replace).Keeps Q := by
  intro t ht
  unfold after within
  cases act (part t) <;> exact hreplace _ t ht

end

/-- Where the act stops, this holds of what it stops with and of the state it leaves. -/
def StopsOnly (P : Stop → σ → Prop) (act : Act σ α) : Prop :=
  ∀ s why t, act s = .error why t → P why t

section

variable {P Q : Stop → σ → Prop} {act : Act σ α}

theorem StopsOnly.mono (h : act.StopsOnly P) (hP : ∀ why s, P why s → Q why s) : act.StopsOnly Q :=
  fun s why t hx => hP why t (h s why t hx)

/-- Nothing is what the act stops with. -/
theorem StopsOnly.not_error (h : act.StopsOnly fun _ _ => False) {s t : σ} {why : Stop} :
    act s ≠ .error why t :=
  h s why t

theorem stopsOnly_of_ok (h : ∀ s, ∃ a t, act s = .ok a t) : act.StopsOnly P := by
  intro s why t hx
  obtain ⟨a, u, hok⟩ := h s
  rw [hok] at hx
  cases hx

theorem stopsOnly_pure (a : α) : (pure a : Act σ α).StopsOnly P :=
  stopsOnly_of_ok fun s => ⟨a, s, rfl⟩

theorem stopsOnly_get : (get : Act σ σ).StopsOnly P :=
  stopsOnly_of_ok fun s => ⟨s, s, rfl⟩

theorem stopsOnly_set (s : σ) : (set s : Act σ Unit).StopsOnly P :=
  stopsOnly_of_ok fun _ => ⟨(), s, rfl⟩

theorem stopsOnly_ofPanic {r : Except Panic α}
    (h : ∀ panic s, r = .error panic → P (.panicked panic) s) :
    (ofPanic r : Act σ α).StopsOnly P := by
  intro s why t hx
  cases r with
  | ok a => cases hx
  | error panic =>
    cases hx
    exact h panic s rfl

theorem stopsOnly_ofPanic_ok {r : Except Panic α} (h : ∃ a, r = .ok a) :
    (ofPanic r : Act σ α).StopsOnly P := by
  obtain ⟨a, rfl⟩ := h
  exact stopsOnly_pure a

theorem stopsOnly_outcome (act : Act σ α) : act.outcome.StopsOnly P :=
  stopsOnly_of_ok fun s => ⟨_, _, outcome_apply (eq_ending act s)⟩

/-- What comes after an act may use what the act returned. -/
theorem StopsOnly.bind {f : α → Act σ β} (h : act.StopsOnly P)
    (hf : ∀ s a t, act s = .ok a t → (f a).StopsOnly P) : (act >>= f).StopsOnly P := by
  intro s why t hx
  rcases bind_eq_ending (r := .error why) hx with ⟨_, hwhy, hact⟩ | ⟨a, u, hact, hfa⟩
  · cases hwhy
    exact h s why t hact
  · exact hf s a u hact u why t hfa

end

/-- In every pass that was not asked to stop the act ends in `r` and changes at most the memory. -/
def Steady (act : Act (Ambient σ) α) (r : Except Stop α) : Prop :=
  ∀ ambient, ambient.cancelled = false →
    ∃ memory, act ambient = ending r { ambient with memory }

theorem steady_pure (a : α) : (pure a : Act (Ambient σ) α).Steady (.ok a) :=
  fun ambient _ => ⟨ambient.memory, rfl⟩

theorem steady_ofPanic (r : Except Panic α) :
    (ofPanic r : Act (Ambient σ) α).Steady (r.mapError .panicked) :=
  fun ambient _ => ⟨ambient.memory, ofPanic_apply r ambient⟩

theorem steady_ofPanic_ok {r : Except Panic α} {a : α} (h : r = .ok a) :
    (ofPanic r : Act (Ambient σ) α).Steady (.ok a) :=
  h ▸ steady_ofPanic _

theorem steady_ofPanic_error {r : Except Panic α} {panic : Panic} (h : r = .error panic) :
    (ofPanic r : Act (Ambient σ) α).Steady (.error (.panicked panic)) :=
  h ▸ steady_ofPanic _

theorem steady_checkCancelled : (Ambient.checkCancelled : Act (Ambient σ) Unit).Steady (.ok ()) := by
  intro ambient h
  obtain ⟨cancelled, memory⟩ := ambient
  simp only at h
  subst h
  exact ⟨memory, rfl⟩

/-- Steady acts in sequence: an error of the first one is the error of both. -/
theorem Steady.bind {act : Act (Ambient σ) α} {f : α → Act (Ambient σ) β} {r : Except Stop α}
    {g : α → Except Stop β} (h : act.Steady r) (hf : ∀ a, r = .ok a → (f a).Steady (g a)) :
    (act >>= f).Steady (r >>= g) := by
  intro ambient hc
  obtain ⟨memory, hact⟩ := h ambient hc
  cases r with
  | error why => exact ⟨memory, bind_error hact⟩
  | ok a =>
    obtain ⟨memory', hfa⟩ := hf a rfl { ambient with memory } hc
    exact ⟨memory', (bind_ok hact).trans hfa⟩

theorem Steady.bind_ok {act : Act (Ambient σ) α} {f : α → Act (Ambient σ) β} {a : α}
    {r : Except Stop β} (h : act.Steady (.ok a)) (hf : (f a).Steady r) : (act >>= f).Steady r :=
  h.bind (g := fun _ => r) fun _ ha => Except.ok.inj ha ▸ hf

theorem Steady.bind_error {act : Act (Ambient σ) α} {f : α → Act (Ambient σ) β} {why : Stop}
    (h : act.Steady (.error why)) : (act >>= f).Steady (.error why) :=
  h.bind (g := fun _ => .error why) fun _ ha => by cases ha

theorem Steady.result {act : Act (Ambient σ) α} {r : Except Stop α} (h : act.Steady r)
    {ambient : Ambient σ} (hc : ambient.cancelled = false) : act.result ambient = r := by
  obtain ⟨_, hact⟩ := h ambient hc
  exact result_of_ending hact

end Act

/-- The callback ends the same way in every ambience and changes at most the memory. -/
def Callback.Pure (callback : Callback σ α) : Prop :=
  ∃ r, ∀ ambient, ∃ memory,
    callback.run Ambient.answer ambient = Act.ending r { ambient with memory }

theorem Callback.Pure.run_eq {callback : Callback σ α} (h : callback.Pure)
    (sample ambient : Ambient σ) :
    ∃ memory, callback.run Ambient.answer ambient =
      Act.ending ((callback.run Ambient.answer).result sample) { ambient with memory } := by
  obtain ⟨r, hr⟩ := h
  obtain ⟨_, hs⟩ := hr sample
  rw [Act.result_of_ending hs]
  exact hr ambient

/-- A callback that only computes is pure. -/
theorem Callback.pure_done (a : α) : Callback.Pure (.done a : Callback σ α) :=
  ⟨.ok a, fun ambient => ⟨ambient.memory, rfl⟩⟩

theorem Callback.pure_stop (why : Stop) : Callback.Pure (.stop why : Callback σ α) :=
  ⟨.error why, fun ambient => ⟨ambient.memory, rfl⟩⟩

/-- A program that goes on with the value of another one runs after it. -/
theorem Program.run_bind {I : Interface} (answer : (request : I.Request) → Act σ (I.Answer request))
    (program : Program I α) (f : α → Program I β) :
    (program.bind f).run answer = program.run answer >>= fun a => (f a).run answer := by
  induction program with
  | done a => rfl
  | stop why => rfl
  | ask request next ih =>
    funext s
    change (answer request >>= fun given => ((next given).bind f).run answer) s =
      ((answer request >>= fun given => (next given).run answer) >>= fun a => (f a).run answer) s
    cases hx : answer request s with
    | error why t => rw [Act.bind_error hx, Act.bind_error (Act.bind_error hx)]
    | ok given t =>
      rw [Act.bind_ok hx, ih, Act.bind_apply, Act.bind_apply, Act.bind_ok hx]

/-- What the answers to all requests keep, every program keeps. -/
theorem Program.run_keeps {I : Interface} {P : σ → Prop}
    {answer : (request : I.Request) → Act σ (I.Answer request)}
    (h : ∀ request, (answer request).Keeps P) (program : Program I α) :
    (program.run answer).Keeps P := by
  induction program with
  | done a => exact Act.keeps_pure a
  | stop why => exact Act.keeps_throw why
  | ask request next ih => exact (h request).bind ih

/-- Every call of the transform is pure. -/
def Transform.Pure (transform : Transform σ) : Prop :=
  ∀ value, Callback.Pure (transform value)

/-- The transform that makes one value of every value. -/
def Transform.single (f : Value → Callback σ Value) : Transform σ :=
  fun value => do return [← f value]

theorem Transform.single_apply (f : Value → Callback σ Value) (value : Value)
    (ambient : Ambient σ) : (single f value).run Ambient.answer ambient =
      match (f value).run Ambient.answer ambient with
      | .ok made after => .ok [made] after
      | .error why after => .error why after := by
  have hrun := Program.run_bind Ambient.answer (f value) fun made => .done [made]
  refine (congrFun hrun ambient).trans ?_
  rw [Act.bind_apply]
  cases (f value).run Ambient.answer ambient <;> rfl

theorem Transform.pure_single {f : Value → Callback σ Value} (h : ∀ value, (f value).Pure) :
    Transform.Pure (single f) := by
  intro value
  obtain ⟨r, hr⟩ := h value
  refine ⟨r.map fun made => [made], fun ambient => ?_⟩
  obtain ⟨memory, hrun⟩ := hr ambient
  refine ⟨memory, ?_⟩
  rw [single_apply, hrun]
  cases r <;> rfl

theorem Transform.single_ne_nil (f : Value → Callback σ Value) (value : Value)
    (ambient : Ambient σ) : ((single f value).run Ambient.answer).result ambient ≠ .ok [] := by
  unfold Act.result
  rw [single_apply]
  cases (f value).run Ambient.answer ambient <;> simp

namespace Stage

/-- What a transform makes of a value, called in some ambience. -/
def image (info : StageInfo) (transform : Transform σ) (sample : Ambient σ) (value : Value) :
    Except Fault (List Value) :=
  (((transform value).run Ambient.answer).result sample).mapError (transformFault info)

theorem applyTransform_steady (info : StageInfo) {transform : Transform σ}
    (h : Transform.Pure transform) (sample : Ambient σ) (value : Value) :
    (applyTransform info transform value).Steady (.ok (image info transform sample value)) := by
  intro ambient hc
  obtain ⟨m, hcheck⟩ := Act.steady_checkCancelled ambient hc
  obtain ⟨memory, hrun⟩ := (h value).run_eq sample { ambient with memory := m }
  refine ⟨memory, (Act.bind_ok hcheck).trans ((Act.bind_ok (Act.outcome_apply hrun)).trans ?_)⟩
  unfold image
  cases ((transform value).run Ambient.answer).result sample <;> rfl

end Stage

end Regen
