import Regen.Assembly
import Regen.Proofs.Act

/-!
# Assembling outputs, turn by turn

Each output has its turn at the snapshot that those before it made. It is merged there, or it is
reported and leaves the snapshot as it is. So the outputs that cannot be merged may as well not be
in the list, and a list may be assembled in parts. A host may fail and panic as it likes; that it
answers alike for the same snapshot and output is what makes it a host.
-/

namespace Regen

variable {S σ : Type}

/-- What a sink has kept after some more events. -/
def Sink.keepAll (sink : Sink) (events kept : List EngineEvent) : List EngineEvent :=
  events.foldl (fun kept event => (sink.deliver event kept).2) kept

theorem Sink.keepAll_append (sink : Sink) (front back kept : List EngineEvent) :
    sink.keepAll (front ++ back) kept = sink.keepAll back (sink.keepAll front kept) :=
  List.foldl_append ..

theorem Sink.keepAll_recording (events kept : List EngineEvent) :
    Sink.recording.keepAll events kept = kept ++ events := by
  induction events generalizing kept with
  | nil => exact (List.append_nil kept).symm
  | cons event rest ih => exact (ih (kept ++ [event])).trans (List.append_assoc ..)

theorem Session.emit_eq (sink : Sink) (event : EngineEvent) (session : Session σ) :
    Session.emit sink event session =
      .ok () { session with events := sink.keepAll [event] session.events } :=
  rfl

theorem Session.emitAll_eq (sink : Sink) (events : List EngineEvent) (session : Session σ) :
    Session.emitAll sink events session =
      .ok () { session with events := sink.keepAll events session.events } := by
  induction events generalizing session with
  | nil => rfl
  | cons event rest ih => exact (Act.bind_ok (emit_eq sink event session)).trans (ih _)

namespace Host

/-- The snapshot with some outputs merged, in order. An output that cannot be merged is left out. -/
def mergeAll (host : Host S) (content : S) (outputs : List (String × GeneratedOutput)) : S :=
  outputs.foldl
    (fun content named => (host.mergeOutput content named.1 named.2).toOption.getD content) content

/-- Each output with how it merges in its turn, into the snapshot with those before it. -/
def turns (host : Host S) (content : S) (outputs : List (String × GeneratedOutput)) :
    List ((String × GeneratedOutput) × Except EngineError S) :=
  outputs.mapIdx fun i named =>
    (named, host.mergeOutput (host.mergeAll content (outputs.take i)) named.1 named.2)

/-- The outputs that merge in their turn. -/
def merged (host : Host S) (content : S) (outputs : List (String × GeneratedOutput)) :
    List (String × GeneratedOutput) :=
  ((host.turns content outputs).filter (·.2.isOk)).map (·.1)

/-- The reports of the other outputs, one for each. -/
def failures (host : Host S) (runId : String) (content : S)
    (outputs : List (String × GeneratedOutput)) : List EngineEvent :=
  (host.turns content outputs).filterMap fun turn =>
    match turn.2 with
    | .ok _ => none
    | .error error => some (.artifactFailed runId turn.1.1 turn.1.2.hintName error.message)

/-- The snapshot that is made of another one, with identities that are unused from `fresh` on. -/
def assembledFrom (host : Host S) (fresh : Nat) (snapshot : Snapshot S)
    (outputs : List (String × GeneratedOutput)) : Snapshot S :=
  match (host.merged snapshot.content outputs).length with
  | 0 => snapshot
  | count + 1 => ⟨fresh + count, host.mergeAll snapshot.content outputs⟩

variable {host : Host S} {content next : S} {named : String × GeneratedOutput} {error : EngineError}
  {sink : Sink} {runId : String}

/-! One turn. -/

/-- An output is materialized, and its artifact merged. Where one of the two stops, the error says
why. -/
theorem mergeOutput_eq (host : Host S) (content : S) (generator : String)
    (output : GeneratedOutput) : host.mergeOutput content generator output =
      match host.materialize generator output with
      | .error why => .error (.artifact generator output.hintName why.describe)
      | .ok artifact =>
        match host.merge content artifact with
        | .error why => .error (.artifact generator output.hintName why.describe)
        | .ok next => .ok next := by
  unfold mergeOutput
  cases host.materialize generator output with
  | error why => rfl
  | ok artifact =>
    change Except.mapError _ (host.merge content artifact) = match host.merge content artifact with
      | .error why => _
      | .ok next => _
    cases host.merge content artifact <;> rfl

theorem mergeOutput_eq_ok : host.mergeOutput content named.1 named.2 = .ok next ↔
    ∃ artifact, host.materialize named.1 named.2 = .ok artifact ∧
      host.merge content artifact = .ok next := by
  rw [mergeOutput_eq]
  cases host.materialize named.1 named.2 with
  | error why => simp
  | ok artifact => cases hmerge : host.merge content artifact <;> simp [hmerge]

theorem mergeOutput_eq_error : host.mergeOutput content named.1 named.2 = .error error ↔
    ∃ why, (host.materialize named.1 named.2 = .error why ∨
        ∃ artifact, host.materialize named.1 named.2 = .ok artifact ∧
          host.merge content artifact = .error why) ∧
      error = .artifact named.1 named.2.hintName why.describe := by
  rw [mergeOutput_eq]
  cases host.materialize named.1 named.2 with
  | error why => simp [eq_comm]
  | ok artifact => cases hmerge : host.merge content artifact <;> simp [hmerge, eq_comm]

theorem turns_cons (host : Host S) (content : S) (named : String × GeneratedOutput)
    (rest : List (String × GeneratedOutput)) : host.turns content (named :: rest) =
      (named, host.mergeOutput content named.1 named.2) ::
        host.turns (host.mergeAll content [named]) rest := by
  unfold turns
  rw [List.mapIdx_cons]
  rfl

theorem mergeAll_cons (host : Host S) (content : S) (named : String × GeneratedOutput)
    (rest : List (String × GeneratedOutput)) :
    host.mergeAll content (named :: rest) = host.mergeAll (host.mergeAll content [named]) rest :=
  rfl

theorem mergeAll_ok (h : host.mergeOutput content named.1 named.2 = .ok next) :
    host.mergeAll content [named] = next := by
  simp [mergeAll, h, Except.toOption]

theorem mergeAll_error (h : host.mergeOutput content named.1 named.2 = .error error) :
    host.mergeAll content [named] = content := by
  simp [mergeAll, h, Except.toOption]

theorem merged_ok (h : host.mergeOutput content named.1 named.2 = .ok next)
    (rest : List (String × GeneratedOutput)) :
    host.merged content (named :: rest) = named :: host.merged next rest := by
  simp [merged, turns_cons, mergeAll_ok h, h, Except.isOk, Except.toBool]

theorem merged_error (h : host.mergeOutput content named.1 named.2 = .error error)
    (rest : List (String × GeneratedOutput)) :
    host.merged content (named :: rest) = host.merged content rest := by
  simp [merged, turns_cons, mergeAll_error h, h, Except.isOk, Except.toBool]

theorem failures_ok (h : host.mergeOutput content named.1 named.2 = .ok next)
    (rest : List (String × GeneratedOutput)) :
    host.failures runId content (named :: rest) = host.failures runId next rest := by
  simp [failures, turns_cons, mergeAll_ok h, h]

theorem failures_error (h : host.mergeOutput content named.1 named.2 = .error error)
    (rest : List (String × GeneratedOutput)) : host.failures runId content (named :: rest) =
      .artifactFailed runId named.1 named.2.hintName error.message ::
        host.failures runId content rest := by
  simp [failures, turns_cons, mergeAll_error h, h]

theorem assemble_ok (h : host.mergeOutput content named.1 named.2 = .ok next)
    (rest : List (String × GeneratedOutput)) (identity : Nat) (session : Session σ) :
    host.assemble sink runId ⟨identity, content⟩ (named :: rest) session =
      host.assemble sink runId ⟨session.fresh, next⟩ rest
        { session with fresh := session.fresh + 1 } := by
  have hfresh : Session.takeFresh session =
      .ok session.fresh { session with fresh := session.fresh + 1 } := rfl
  rw [assemble, h]
  exact Act.bind_ok hfresh

theorem assemble_error (h : host.mergeOutput content named.1 named.2 = .error error)
    (rest : List (String × GeneratedOutput)) (identity : Nat) (session : Session σ) :
    host.assemble sink runId ⟨identity, content⟩ (named :: rest) session =
      host.assemble sink runId ⟨identity, content⟩ rest { session with
        events := sink.keepAll
          [.artifactFailed runId named.1 named.2.hintName error.message] session.events } := by
  rw [assemble, h]
  exact Act.bind_ok (Session.emit_eq ..)

/-! All turns. -/

/-- Where nothing is merged the snapshot stays. -/
theorem mergeAll_of_merged_eq_nil {outputs : List (String × GeneratedOutput)}
    (h : host.merged content outputs = []) : host.mergeAll content outputs = content := by
  induction outputs with
  | nil => rfl
  | cons named rest ih =>
    cases hm : host.mergeOutput content named.1 named.2 with
    | ok next =>
      rw [merged_ok hm] at h
      cases h
    | error error =>
      rw [merged_error hm] at h
      rw [mergeAll_cons, mergeAll_error hm, ih h]

/-- The outputs that merge in their turn merge one after the other. -/
theorem foldlM_merged (host : Host S) (content : S) (outputs : List (String × GeneratedOutput)) :
    (host.merged content outputs).foldlM
      (fun content named => host.mergeOutput content named.1 named.2) content =
        .ok (host.mergeAll content outputs) := by
  induction outputs generalizing content with
  | nil => rfl
  | cons named rest ih =>
    cases hm : host.mergeOutput content named.1 named.2 with
    | ok next =>
      rw [merged_ok hm, List.foldlM_cons, hm, mergeAll_cons, mergeAll_ok hm]
      exact ih next
    | error error =>
      rw [merged_error hm, mergeAll_cons, mergeAll_error hm]
      exact ih content

/-- Without the others they still all merge, and make the same snapshot. -/
theorem merged_again (host : Host S) (runId : String) (content : S)
    (outputs : List (String × GeneratedOutput)) :
    host.merged content (host.merged content outputs) = host.merged content outputs ∧
      host.mergeAll content (host.merged content outputs) = host.mergeAll content outputs ∧
      host.failures runId content (host.merged content outputs) = [] := by
  induction outputs generalizing content with
  | nil => exact ⟨rfl, rfl, rfl⟩
  | cons named rest ih =>
    cases hm : host.mergeOutput content named.1 named.2 with
    | ok next =>
      obtain ⟨hmerged, hall, hfailures⟩ := ih next
      rw [merged_ok hm, merged_ok hm, mergeAll_cons host content named rest,
        mergeAll_cons host content named, mergeAll_ok hm, failures_ok hm]
      exact ⟨congrArg (named :: ·) hmerged, hall, hfailures⟩
    | error error =>
      rw [merged_error hm, mergeAll_cons host content named rest, mergeAll_error hm]
      exact ih content

theorem assembledFrom_ok (h : host.mergeOutput content named.1 named.2 = .ok next)
    (rest : List (String × GeneratedOutput)) (identity fresh : Nat) :
    host.assembledFrom fresh ⟨identity, content⟩ (named :: rest) =
      host.assembledFrom (fresh + 1) ⟨fresh, next⟩ rest := by
  unfold assembledFrom
  rw [merged_ok h, mergeAll_cons, mergeAll_ok h, List.length_cons]
  cases hcount : (host.merged next rest).length with
  | zero => simp [mergeAll_of_merged_eq_nil (List.length_eq_zero_iff.mp hcount)]
  | succ count => simp [Nat.add_comm, Nat.add_left_comm]

theorem assembledFrom_error (h : host.mergeOutput content named.1 named.2 = .error error)
    (rest : List (String × GeneratedOutput)) (identity fresh : Nat) :
    host.assembledFrom fresh ⟨identity, content⟩ (named :: rest) =
      host.assembledFrom fresh ⟨identity, content⟩ rest := by
  unfold assembledFrom
  rw [merged_error h, mergeAll_cons, mergeAll_error h]

/-- Assembling never stops. It takes one identity for each output that merges and sends one report
for each that does not. -/
theorem assemble_eq (host : Host S) (sink : Sink) (runId : String)
    (outputs : List (String × GeneratedOutput)) (snapshot : Snapshot S) (session : Session σ) :
    host.assemble sink runId snapshot outputs session =
      .ok (host.assembledFrom session.fresh snapshot outputs) { session with
        fresh := session.fresh + (host.merged snapshot.content outputs).length
        events := sink.keepAll (host.failures runId snapshot.content outputs) session.events } := by
  induction outputs generalizing snapshot session with
  | nil => rfl
  | cons named rest ih =>
    obtain ⟨identity, content⟩ := snapshot
    cases hm : host.mergeOutput content named.1 named.2 with
    | ok next =>
      rw [assemble_ok hm, ih, assembledFrom_ok hm, merged_ok hm, failures_ok hm, List.length_cons,
        Nat.add_right_comm, Nat.add_assoc]
    | error error =>
      rw [assemble_error hm, ih, assembledFrom_error hm, merged_error hm, failures_error hm]
      rfl

theorem content_assembledFrom (host : Host S) (fresh : Nat) (snapshot : Snapshot S)
    (outputs : List (String × GeneratedOutput)) :
    (host.assembledFrom fresh snapshot outputs).content =
      host.mergeAll snapshot.content outputs := by
  unfold assembledFrom
  cases hcount : (host.merged snapshot.content outputs).length with
  | zero => exact (mergeAll_of_merged_eq_nil (List.length_eq_zero_iff.mp hcount)).symm
  | succ count => rfl

theorem assemble_apply (host : Host S) (sink : Sink) (runId : String)
    (outputs : List (String × GeneratedOutput)) (snapshot : Snapshot S) (session : Session σ) :
    ∃ assembled ended, host.assemble sink runId snapshot outputs session = .ok assembled ended ∧
      assembled.content = host.mergeAll snapshot.content outputs :=
  ⟨_, _, host.assemble_eq sink runId outputs snapshot session,
    host.content_assembledFrom session.fresh snapshot outputs⟩

/-- A list may be assembled in parts. -/
theorem assemble_append (host : Host S) (sink : Sink) (runId : String)
    (front back : List (String × GeneratedOutput)) (snapshot : Snapshot S) (session : Session σ) :
    host.assemble sink runId snapshot (front ++ back) session =
      (host.assemble sink runId snapshot front >>= fun reached =>
        host.assemble sink runId reached back) session := by
  induction front generalizing snapshot session with
  | nil => rfl
  | cons named rest ih =>
    obtain ⟨identity, content⟩ := snapshot
    rw [List.cons_append, Act.bind_apply]
    cases hm : host.mergeOutput content named.1 named.2 with
    | ok next => rw [assemble_ok hm, assemble_ok hm, ih, Act.bind_apply]
    | error error => rw [assemble_error hm, assemble_error hm, ih, Act.bind_apply]

theorem mem_turns {outputs : List (String × GeneratedOutput)}
    {turn : (String × GeneratedOutput) × Except EngineError S} :
    turn ∈ host.turns content outputs ↔ ∃ (i : Nat) (named : String × GeneratedOutput),
      outputs[i]? = some named ∧
        turn = (named, host.mergeOutput (host.mergeAll content (outputs.take i)) named.1 named.2) := by
  rw [turns, List.mem_mapIdx]
  constructor
  · rintro ⟨i, hi, rfl⟩
    exact ⟨i, outputs[i], List.getElem?_eq_getElem hi, rfl⟩
  · rintro ⟨i, named, hnamed, rfl⟩
    obtain ⟨hi, rfl⟩ := List.getElem?_eq_some_iff.mp hnamed
    exact ⟨i, hi, rfl⟩

/-- Merged are the outputs that are materialized and whose artifacts merge into the snapshot that
their turn finds. -/
theorem mem_merged {outputs : List (String × GeneratedOutput)} :
    named ∈ host.merged content outputs ↔ ∃ (i : Nat) (artifact : Artifact) (next : S),
      outputs[i]? = some named ∧ host.materialize named.1 named.2 = .ok artifact ∧
        host.merge (host.mergeAll content (outputs.take i)) artifact = .ok next := by
  rw [merged, List.mem_map]
  constructor
  · rintro ⟨turn, hturn, rfl⟩
    obtain ⟨hturn, hok⟩ := List.mem_filter.mp hturn
    obtain ⟨i, named, hnamed, rfl⟩ := mem_turns.mp hturn
    cases hm : host.mergeOutput (host.mergeAll content (outputs.take i)) named.1 named.2 with
    | ok next =>
      obtain ⟨artifact, hartifact, hmerge⟩ := mergeOutput_eq_ok.mp hm
      exact ⟨i, artifact, next, hnamed, hartifact, hmerge⟩
    | error error =>
      rw [hm] at hok
      cases hok
  · rintro ⟨i, artifact, next, hnamed, hartifact, hmerge⟩
    have hm := mergeOutput_eq_ok.mpr ⟨artifact, hartifact, hmerge⟩
    refine ⟨_, List.mem_filter.mpr ⟨mem_turns.mpr ⟨i, named, hnamed, rfl⟩, ?_⟩, rfl⟩
    rw [hm]
    rfl

/-- Reported are the outputs for which the host fails or panics in one of the two. -/
theorem mem_failures {outputs : List (String × GeneratedOutput)} {event : EngineEvent} :
    event ∈ host.failures runId content outputs ↔
      ∃ (i : Nat) (named : String × GeneratedOutput) (why : Stop), outputs[i]? = some named ∧
        (host.materialize named.1 named.2 = .error why ∨
          ∃ artifact, host.materialize named.1 named.2 = .ok artifact ∧
            host.merge (host.mergeAll content (outputs.take i)) artifact = .error why) ∧
        event = .artifactFailed runId named.1 named.2.hintName
          (EngineError.artifact named.1 named.2.hintName why.describe).message := by
  rw [failures, List.mem_filterMap]
  constructor
  · rintro ⟨turn, hturn, hevent⟩
    obtain ⟨i, named, hnamed, rfl⟩ := mem_turns.mp hturn
    cases hm : host.mergeOutput (host.mergeAll content (outputs.take i)) named.1 named.2 with
    | ok next =>
      rw [hm] at hevent
      cases hevent
    | error error =>
      rw [hm] at hevent
      cases hevent
      obtain ⟨why, hstopped, rfl⟩ := mergeOutput_eq_error.mp hm
      exact ⟨i, named, why, hnamed, hstopped, rfl⟩
  · rintro ⟨i, named, why, hnamed, hstopped, rfl⟩
    refine ⟨_, mem_turns.mpr ⟨i, named, hnamed, rfl⟩, ?_⟩
    rw [mergeOutput_eq_error.mpr ⟨why, hstopped, rfl⟩]

/-- Assembling is a fold that goes on after failures. It returns the snapshot with exactly those
outputs merged, in order, that merge in their turn; it reports each of the others once, in order, and
sends nothing else. Without the others it makes the same snapshot and sends nothing; cut in two
anywhere, it makes and sends the same; and where nothing is merged the snapshot is the very same. -/
theorem assemble_failSoft (host : Host S) (sink : Sink) (runId : String) (snapshot : Snapshot S)
    (outputs : List (String × GeneratedOutput)) (session : Session σ) :
    let merged := host.merged snapshot.content outputs
    ∃ assembled ended, host.assemble sink runId snapshot outputs session = .ok assembled ended ∧
      merged.foldlM (fun content named => host.mergeOutput content named.1 named.2)
        snapshot.content = .ok assembled.content ∧
      ended = { session with
        fresh := session.fresh + merged.length
        events := sink.keepAll (host.failures runId snapshot.content outputs) session.events } ∧
      host.assemble sink runId snapshot merged session =
        .ok assembled { ended with events := session.events } ∧
      (∀ i, (host.assemble sink runId snapshot (outputs.take i) >>= fun reached =>
        host.assemble sink runId reached (outputs.drop i)) session = .ok assembled ended) ∧
      (merged = [] → assembled = snapshot) := by
  intro merged
  have hassembled := host.assemble_eq sink runId outputs snapshot session
  refine ⟨_, _, hassembled, ?_, rfl, ?_, fun i => ?_, fun hnone => ?_⟩
  · rw [content_assembledFrom]
    exact host.foldlM_merged snapshot.content outputs
  · obtain ⟨hmerged, hall, hfailures⟩ := host.merged_again runId snapshot.content outputs
    have hsame : host.assembledFrom session.fresh snapshot merged =
        host.assembledFrom session.fresh snapshot outputs := by
      unfold assembledFrom
      rw [hmerged, hall]
    rw [assemble_eq, hsame, hmerged, hfailures]
    rfl
  · rw [← assemble_append, List.take_append_drop]
    exact hassembled
  · unfold assembledFrom
    rw [show host.merged snapshot.content outputs = [] from hnone]
    rfl

end Host

/-! A host that takes a name once, and panics on a broken output. -/

namespace OnceEach

def host : Host (List String) where
  materialize generator output :=
    if output.hintName = "broken" then .error (.panicked .other)
    else .ok ⟨generator, output.hintName, .null⟩
  merge content artifact :=
    if artifact.hintName ∈ content then .error (.failed (.serialization "taken"))
    else .ok (content ++ [artifact.hintName])

def outputs : List (String × GeneratedOutput) :=
  ["a", "broken", "b", "a"].map fun hintName => ("writer", ⟨hintName, "", .source⟩)

def session : Session Unit :=
  ⟨⟨false, ()⟩, 1, []⟩

end OnceEach

open OnceEach in
/-- Of two outputs with one name the first is merged; the other one and the broken one are reported,
each once. -/
theorem Host.assemble_failSoft_onceEach : ∃ assembled ended,
    host.assemble .recording "run" ⟨0, ["c"]⟩ outputs session = .ok assembled ended ∧
      assembled.content = ["c", "a", "b"] ∧ ended.fresh = 3 ∧ ended.events =
        [.artifactFailed "run" "writer" "broken"
            "Artifact 'broken' from generator 'writer' failed: panicked",
          .artifactFailed "run" "writer" "a"
            "Artifact 'a' from generator 'writer' failed: Serialization error: taken"] := by
  obtain ⟨assembled, ended, hassembled, hmerged, rfl, -⟩ :=
    host.assemble_failSoft .recording "run" ⟨0, ["c"]⟩ outputs session
  have hturns : host.merged ["c"] outputs =
      [("writer", ⟨"a", "", .source⟩), ("writer", ⟨"b", "", .source⟩)] := by
    decide +kernel
  refine ⟨assembled, _, hassembled, ?_, ?_, by decide +kernel⟩
  · rw [hturns] at hmerged
    exact Except.ok.inj (hmerged.symm.trans rfl)
  · rw [hturns]
    rfl

end Regen
