import Regen.Proofs.FreshDriver

/-!
# What holds of every member

A member joins without a state. From then on only a full pass, an application of edits and a
generator that takes its place by its identity give it another one. What these keep holds of every
member of every driver that a history reaches, whatever its other members do. So the members of a
plug-in stay settled beside any others.
-/

namespace Regen

variable {S σ : Type}

/-- A property of the members whose generators are known: those that join have it, and whatever
gives a member another state keeps it. -/
structure MemberInvariant (Known : Generator S σ → Prop) (P : Member S σ → Prop) : Prop where
  join : ∀ {generator}, Known generator → P (.join generator)
  takeOver : ∀ {member generator}, Known generator →
    member.generator.identity = generator.identity → P member → P ⟨generator, member.state⟩
  run : ∀ {driver : Driver S σ} {runId content inputs member state} {session ended : Session σ},
    driver.runMember runId content inputs member session = .ok state ended → P member →
      P { member with state }
  edit : ∀ {edit : Edit σ} {inputs member made} {session ended : Session σ},
    edit.applyToMember inputs member session = .ok (.ok made) ended → P member → P made

namespace MemberInvariant

variable {Known : Generator S σ → Prop} {P : Member S σ → Prop} {driver next : Driver S σ}
  {inputs : List AdditionalInput} {session ended : Session σ} {snapshot : Snapshot S}

theorem runMembers (h : MemberInvariant Known P) {runId : String} {content : S}
    (members made : List (Member S σ)) (hm : ∀ member ∈ members, P member)
    (hran : driver.runMembers runId content inputs members session = .ok made ended) :
    ∀ member ∈ made, P member :=
  Driver.runMembers_forall h.run members made hm hran

theorem applyToMembers (h : MemberInvariant Known P) {edit : Edit σ} (members made : List (Member S σ))
    (hm : ∀ member ∈ members, P member)
    (hedit : edit.applyToMembers inputs members session = .ok (.ok made) ended) :
    ∀ member ∈ made, P member := by
  induction members generalizing made session with
  | nil =>
    cases hedit
    exact hm
  | cons member rest ih =>
    obtain ⟨first, middle, hfirst, hedit⟩ := Act.bind_eq_ok hedit
    cases first with
    | error rejection => cases hedit
    | ok edited =>
      obtain ⟨others, last, hothers, hedit⟩ := Act.bind_eq_ok hedit
      cases others with
      | error rejection => cases hedit
      | ok editeds =>
        cases hedit
        rw [List.forall_mem_cons] at hm ⊢
        exact ⟨h.edit hfirst hm.1, ih editeds hm.2 hothers⟩

theorem applyAll (h : MemberInvariant Known P) (edits : List (Edit σ))
    (members made : List (Member S σ)) (hm : ∀ member ∈ members, P member)
    (hedits : Edit.applyAll inputs edits members session = .ok (.ok made) ended) :
    ∀ member ∈ made, P member := by
  induction edits generalizing members session with
  | nil =>
    cases hedits
    exact hm
  | cons edit rest ih =>
    obtain ⟨r, middle, hedit, hedits⟩ := Act.bind_eq_ok hedits
    cases r with
    | error rejection => cases hedits
    | ok edited => exact ih edited (h.applyToMembers members edited hm hedit) hedits

theorem keepOrJoin (h : MemberInvariant Known P) (hm : ∀ member ∈ driver.members, P member)
    {generator : Generator S σ} (hg : Known generator) : P (driver.keepOrJoin generator) := by
  rcases driver.keepOrJoin_cases generator with ⟨member, hmem, hid, heq⟩ | heq <;> rw [heq]
  · exact h.takeOver hg hid (hm member hmem)
  · exact h.join hg

/-- Every operation keeps an invariant of the members. -/
theorem perform (h : MemberInvariant Known P) (op : DriverOp S σ)
    (hop : ∀ generator ∈ op.generators, Known generator) (hm : ∀ member ∈ driver.members, P member) :
    ∀ member ∈ (op.perform driver).members, P member := by
  cases op with
  | withSink sink => exact hm
  | addGenerators generators =>
    intro member hmem
    rcases List.mem_append.mp hmem with hmem | hmem
    · exact hm member hmem
    · obtain ⟨generator, hg, rfl⟩ := List.mem_map.mp hmem
      exact h.join (hop generator hg)
  | removeGenerators generators => exact fun member hmem => hm member (List.mem_of_mem_filter hmem)
  | replaceGenerators generators =>
    intro member hmem
    obtain ⟨generator, hg, rfl⟩ := List.mem_map.mp hmem
    exact h.keepOrJoin hm (hop generator hg)
  | addInputs inputs => exact hm
  | removeInputs inputs => exact hm
  | replaceInput old new =>
    change ∀ member ∈ (driver.replaceInput old new).members, P member
    unfold Driver.replaceInput
    split <;> exact hm
  | queueEdits edits => exact hm
  | withOptions options => exact hm
  | fullPass session snapshot =>
    rcases driver.perform_fullPass session snapshot with hsame | he
    · rwa [hsame]
    · obtain ⟨_, inputs, members, assembled, _, _, _, _, -, -, hran, -, hnext⟩ := he
      rw [hnext]
      exact h.runMembers driver.members members hm hran
  | tryApplyEdits session snapshot =>
    rcases driver.perform_tryApplyEdits session snapshot with hsame | ⟨-, hrejected⟩ | ha
    · rwa [hsame]
    · rwa [hrejected]
    · obtain ⟨-, _, inputs, members, assembled, _, _, _, hedits, -, -, hnext⟩ := ha
      rw [hnext]
      exact h.applyAll driver.pendingEdits driver.members members hm hedits

/-- An invariant holds of the members of every driver that a history of known generators reaches. -/
theorem reached (h : MemberInvariant Known P) (host : Host S) (ops : List (DriverOp S σ))
    (hops : ∀ op ∈ ops, ∀ generator ∈ op.generators, Known generator) :
    ∀ member ∈ (Driver.reached host ops).members, P member :=
  Driver.reached_induction (P := fun driver => ∀ member ∈ driver.members, P member) host ops
    (fun _ hm => by cases hm) fun op hmem _ hm => h.perform op (hops op hmem) hm

end MemberInvariant

/-- Passes and edits keep a member of a plug-in settled, whatever else is in the driver. -/
theorem PlugIns.memberInvariant (plugins : PlugIns S σ) (sample : Ambient σ)
    {Known : Generator S σ → Prop} (hid : ∀ {generator other}, Known generator → Known other →
      generator.identity = other.identity → generator = other) :
    MemberInvariant Known fun member =>
      Known member.generator ∧ (plugins.Has member.generator → plugins.Settled sample member) where
  join hg := ⟨hg, fun _ => PlugIns.settled_join _⟩
  takeOver hg hsame hm := by
    obtain rfl := hid hm.1 hg hsame
    exact hm
  run hran hm := by
    refine ⟨hm.1, fun hhas => ?_⟩
    rcases (hm.2 hhas).runMember hhas with ⟨state, ended, hx, -, hstate, -⟩ | ⟨-, why, ended, hx⟩
    · rw [hran] at hx
      cases hx
      exact hstate
    · rw [hran] at hx
      cases hx
  edit hedit hm := by
    obtain ⟨outputs, rfl⟩ := Edit.applyToMember_edited hedit
    exact ⟨hm.1, fun hhas => (hm.2 hhas).edited ⟨outputs, rfl⟩⟩

end Regen
