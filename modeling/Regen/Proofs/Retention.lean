import Regen.Proofs.Replaying

/-!
# What a comparer may retain

A comparer that accepts a new value keeps the old one, in every pass anew, and nothing is asked of
what it accepts: it need not be reflexive, symmetric or transitive. Still a map stage never drifts
away from its source. What it shows for a value of the source is, value by value, what the transform
makes of this very value, or something that the comparer accepts in its place. Only the transform of
the stage itself has to be pure.
-/

namespace Regen

variable {σ : Type} {graph : StageGraph σ}

/-- The slot of an entry of the source: nothing is live behind an entry that was removed, and behind
another one there is, position by position, what the transform makes of its value, or what the
comparer accepts in its place. -/
def Retained (transform : Transform σ) (same : Comparer Value) (entry : Value × EntryState)
    (slot : Slot Value) : Prop :=
  if entry.2 = .removed then slot.liveValues = []
  else ∃ made, (∀ ambient, ((transform entry.1).run Ambient.answer).result ambient = .ok made) ∧
    List.Forall₂ same.Kept made slot.liveValues

theorem retained_of_stands {info : StageInfo} {transform : Transform σ} {same : Comparer Value}
    (hp : transform.Pure) {entry : Value × EntryState} {slot : Slot Value}
    (h : Stands (MadeBy (Stage.observed info transform) same) entry slot) :
    Retained transform same entry slot := by
  unfold Stands at h
  unfold Retained
  split
  · next hr =>
    rw [hr, if_neg (by decide)] at h
    exact Slot.liveValues_eq_nil h
  · next hr =>
    rw [if_pos (by simpa [EntryState.isLive] using hr)] at h
    obtain ⟨made, hmade, hkept⟩ := h
    exact ⟨made, Stage.result_of_observed hp hmade, hkept⟩

/-- A map stage never drifts away from its source. After any passes and in any pass, an unfaulted
table of the stage has one slot for each entry of the table that its source has in the pass, and the
live values of the slot are what the transform makes of the value of the entry, up to one judgement
of the comparer. -/
theorem pull_map_retains (hg : graph.Builtin) (runs : List (PassRun σ))
    (hruns : ∀ run ∈ runs, run.Over graph) (run : PassRun σ) (hrun : run.Over graph)
    {info : StageInfo} {source : Stage σ} {transform : Transform σ} {same : Comparer Value}
    (hm : graph.Has (.map info source transform same)) (hp : transform.Pure)
    {table : Table Value} {after : Evaluation σ}
    (hx : Evaluation.pull (.map info source transform same)
      (run.evaluation (PassRun.tables runs)) = .ok table after) (hn : table.fault = none) :
    ∃ sources, Evaluation.pull source after = .ok sources after ∧ sources.fault = none ∧
      List.Forall₂ (Retained transform same) sources.entries table.slots := by
  have hb := PassRun.baseline_tables hg runs hruns
  obtain ⟨hl, hf⟩ := (PassRun.lawful_evaluation hg hrun (PassRun.tables runs)).pulled hg hm hx
  obtain ⟨sources, hsources, hsn, hstands⟩ :=
    (StageGraph.known_of_lawful hg hb hl _ hm table hf hn).inLine
  refine ⟨sources, ?_, hsn, hstands.imp fun entry slot => retained_of_stands hp⟩
  rw [Evaluation.pull_eq]
  exact Evaluation.memoize_found hsources

namespace TwoStages

/-- Accepts a list in place of one that is longer or shorter by at most one value. -/
def nearby : Comparer Value
  | .list news, .list olds =>
    .ok (decide (news.length ≤ olds.length + 1 ∧ olds.length ≤ news.length + 1))
  | _, _ => .ok false

def copied : Transform Unit := fun value => .done [value]

def tolerant : Stage Unit :=
  .map ⟨⟨1⟩, "tolerant"⟩ numbers copied nearby

def tolerantStages : StageGraph Unit where
  Has stage := stage = numbers ∨ stage = tolerant
  has_source hm hs := by
    rcases hm with rfl | rfl
    · cases hs
    · exact .inl (List.mem_singleton.mp hs)
  eq_of_id hm ho he := by
    rcases hm with rfl | rfl <;> rcases ho with rfl | rfl <;> first | rfl | cases he

theorem builtin_tolerant : tolerantStages.Builtin := by
  rintro stage (rfl | rfl) <;> trivial

/-- The pass that feeds one list of small values. -/
def listing (length : Nat) : PassRun Unit :=
  ⟨false, ⟨false, ()⟩, [.feed ⟨0⟩ [.list (List.replicate length small)], .pull tolerant]⟩

theorem listing_over (length : Nat) : (listing length).Over tolerantStages := by
  intro step hm
  simp only [listing, List.mem_cons, List.not_mem_nil, or_false] at hm
  rcases hm with rfl | rfl
  · trivial
  · exact .inr rfl

end TwoStages

open TwoStages in
/-- A value that is longer by one in each of three passes: the first value is retained once, then
the comparer rejects it, although it accepts each step. -/
theorem pull_map_retains_listing :
    ∃ table after sources, Evaluation.pull tolerant
        ((listing 1).evaluation (PassRun.tables [listing 0])) = .ok table after ∧
      table.liveValues = [.list []] ∧
      Evaluation.pull numbers after = .ok sources after ∧
      List.Forall₂ (Retained copied nearby) sources.entries table.slots ∧
      ∃ later after', Evaluation.pull tolerant
        ((listing 2).evaluation (PassRun.tables [listing 0, listing 1])) = .ok later after' ∧
      later.liveValues = [.list [small, small]] := by
  have hpure : Transform.Pure copied := fun value => Callback.pure_done [value]
  have hm : tolerantStages.Has (.map ⟨⟨1⟩, "tolerant"⟩ numbers copied nearby) := .inr rfl
  obtain ⟨sources, hx, -, hretained⟩ := pull_map_retains builtin_tolerant [listing 0]
    (fun run hm => List.mem_singleton.mp hm ▸ listing_over 0) (listing 1) (listing_over 1) hm hpure
    rfl rfl
  exact ⟨_, _, sources, rfl, rfl, hx, hretained, _, _, rfl, rfl⟩

end Regen
