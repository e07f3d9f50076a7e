import Regen.Proofs.Likeness

/-!
# What a pass shows

Whatever the baseline, a stage of a standard graph shows what it would show if it was computed from
scratch, its meaning under what the leaves are given, up to a likeness: where `==` takes only alike
values for equal, the old value that stands for a new one is alike to it, and so is all that is made of
it. A leaf that is given nothing shows its values of the pass before.
-/

namespace Regen

variable {σ α β : Type}

/-- What a leaf shows: what it is given, or else its old values. -/
def PassTables.leafShows (previous : PassTables)
    (given : StageId → Option (Except Fault (List Value))) (id : StageId) :
    Except Fault (List Value) :=
  (given id).getD (.ok (previous.oldValues id))

theorem PassTables.leafShows_of_given (previous : PassTables)
    {given : StageId → Option (Except Fault (List Value))} {id : StageId}
    {shown : Except Fault (List Value)} (h : given id = some shown) :
    previous.leafShows given id = shown := by
  rw [leafShows, h, Option.getD_some]

/-- Something is made of each value, and what stands there was kept for it. -/
theorem images_of_made {image : α → Except Fault (List β)} {same : Comparer β} {values : List α}
    {parts : List (List β)} (h : List.Forall₂ (Made image same) values parts) :
    ∃ news, images image values = .ok news ∧ List.Forall₂ same.Kept news parts.flatten := by
  induction h with
  | nil => exact ⟨[], rfl, .nil⟩
  | cons hmade _ ih =>
    obtain ⟨new, hnew, hkept⟩ := hmade
    obtain ⟨news, hnews, hrest⟩ := ih
    exact ⟨new ++ news, images_cons_ok hnew hnews, List.rel_append hkept hrest⟩

/-- Slots in line with the entries of a source hold what was kept for what is made of its live
values. -/
theorem images_liveValues {image : α → Except Fault (List Value)} {source : Table α}
    {table : Table Value} {same : Comparer Value}
    (h : List.Forall₂ (Stands (Made image same)) source.entries table.slots) :
    ∃ news, images image source.liveValues = .ok news ∧
      List.Forall₂ same.Kept news table.liveValues := by
  obtain ⟨parts, hparts, hflat⟩ := liveValues_of_stands h
  rw [table.liveValues_eq_flatMap, hflat]
  exact images_of_made hparts

/-- The fault that cuts off the rows is the first one from scratch: what is copied was made before. -/
theorem images_blocked {image : α → Except Fault (List β)} {same : Comparer β} {copies : Bool}
    {same' : Comparer α} {old : Option (Table β)} {source : Table α} {olds : List α} {fault : Fault}
    {table : Table β} (h : Formed image same copies old source.entries (.ok table))
    (hf : table.fault = some fault) (hs : EditScript same' olds source.entries)
    (hold : old.isSome = true → ∀ value ∈ olds, ∃ made, image value = .ok made) :
    images image source.liveValues = .error fault := by
  cases h with
  | rows => cases hf
  | blocked hb =>
    cases hf
    exact images_of_blocked hb fun hsome value hm => hold hsome value (hs.mem_of_cached hm)

namespace StageGraph

variable {graph : StageGraph σ} {like : graph.Likeness} {sample : Ambient σ}
  {given : StageId → Option (Except Fault (List Value))} {previous : PassTables} {pass : Pass}
  {table : Table Value}

section

variable (like) (stage : Stage σ) (shown : Except Fault (List Value)) (table : Table Value)

/-- The table shows this up to the likeness: the same fault or alike values, one by one. -/
def Likeness.Shows : Prop :=
  Matches (List.Forall₂ (like.Like stage.id)) shown table.shows

end

namespace Likeness

variable {stage : Stage σ} {shown : Except Fault (List Value)}

theorem Shows.eq_error (h : like.Shows stage shown table) {fault : Fault}
    (hf : table.fault = some fault) : shown = .error fault := by
  unfold Shows at h
  rw [Table.shows_of_fault hf] at h
  cases h
  rfl

theorem Shows.eq_ok (h : like.Shows stage shown table) (hn : table.fault = none) :
    ∃ values, shown = .ok values ∧ List.Forall₂ (like.Like stage.id) values table.liveValues := by
  unfold Shows at h
  rw [Table.shows_of_unfaulted hn] at h
  cases h with
  | ok hvalues => exact ⟨_, rfl, hvalues⟩

/-- Where only one and the same value is alike, the table shows just this. -/
theorem Shows.eq_of_exact (h : like.Shows stage shown table)
    (hexact : ∀ value other, like.Like stage.id value other → value = other) : table.shows = shown := by
  cases hf : table.fault with
  | some fault => rw [h.eq_error hf, Table.shows_of_fault hf]
  | none =>
    obtain ⟨values, rfl, hvalues⟩ := h.eq_ok hf
    obtain rfl : values = table.liveValues := List.forall₂_eq_eq_eq ▸ hvalues.imp hexact
    exact Table.shows_of_unfaulted hf

/-- Two tables that show the same up to the likeness have the same fault, or alike live values. -/
theorem Shows.alike {other : Table Value} (h : like.Shows stage shown table)
    (h' : like.Shows stage shown other) : table.fault = other.fault ∧
      (table.fault = none → List.Forall₂ (like.Like stage.id) table.liveValues other.liveValues) := by
  cases hf : table.fault with
  | some fault =>
    refine ⟨?_, nofun⟩
    cases hn : other.fault with
    | some fault' =>
      have he := (h.eq_error hf).symm.trans (h'.eq_error hn)
      rw [Except.error.inj he]
    | none =>
      obtain ⟨values, he, -⟩ := h'.eq_ok hn
      cases (h.eq_error hf).symm.trans he
  | none =>
    obtain ⟨values, rfl, hvalues⟩ := h.eq_ok hf
    cases hn : other.fault with
    | some fault' => cases h'.eq_error hn
    | none =>
      obtain ⟨values', he, hvalues'⟩ := h'.eq_ok hn
      cases he
      exact ⟨rfl, fun _ => forall₂_trans (forall₂_symm hvalues) hvalues'⟩

/-- What is kept for alike values is alike to them. -/
theorem Governs.shows_kept (h : like.Governs previous given) (hm : graph.Has stage)
    (hs : graph.Sound sample given previous pass) (hf : pass.current.find? stage.id = some table)
    (hn : table.fault = none) {news : List Value}
    (hnews : Matches (List.Forall₂ (like.Like stage.id)) shown (.ok news))
    (hkept : List.Forall₂ Comparer.equality.Kept news table.liveValues) :
    like.Shows stage shown table := by
  have hcovers := Typing.covers_of_sound h.covers h.admits hs
  unfold Shows
  rw [Table.shows_of_unfaulted hn]
  cases hnews with
  | ok hvalues =>
    have hself : ∀ value ∈ news, like.Like stage.id value value :=
      List.forall₂_same.mp (forall₂_trans (forall₂_symm hvalues) hvalues)
    exact .ok (forall₂_trans hvalues
      (h.equal.forall₂_of_kept hm hself (hcovers.holds_live hm hf) hkept))

end Likeness

theorem shows_leaf {info : StageInfo} (hb : graph.Baseline sample previous)
    (hgov : like.Governs previous given) (hs : graph.Sound sample given previous pass)
    (hm : graph.Has (.input info Comparer.equality))
    (hf : pass.current.find? info.id = some table) :
    like.Shows (.input info Comparer.equality) (previous.leafShows given info.id) table := by
  cases hs.yields _ table hm hf with
  | refused hg =>
    rw [previous.leafShows_of_given hg]
    exact .error
  | @fed _ _ values _ hg hd =>
    rw [previous.leafShows_of_given hg]
    obtain ⟨slots, rfl, hdiff, -⟩ := hb.diffed hm (ok_of_mapError hd)
    refine hgov.shows_kept hm hs hf rfl
      (.ok (List.forall₂_same.mpr (hgov.admits _ values hm trivial hg))) ?_
    rw [Table.liveValues_eq_flatMap]
    exact hdiff.kept
  | unfed hg =>
    unfold Likeness.Shows
    rw [PassTables.leafShows, hg, Option.getD_none]
    rcases hb.usable_cases hm with ⟨hu, hold⟩ | ⟨old, hu, hold, hsettled, -⟩
    · rw [show Table.usable? (previous.find? info.id) = none from hu,
        show previous.oldValues info.id = [] from hold]
      exact .ok .nil
    · have hn : old.compact.fault = none := by
        rw [Table.fault_compact]
        exact (Table.usable?_eq_some hu).2
      have hslots := Table.slots_compact_settled hsettled
      have hshows : old.compact.shows = .ok (previous.oldValues info.id) := by
        rw [Table.shows_of_unfaulted hn, Table.liveValues_settled (hslots ▸ hsettled),
          Table.values_eq_flatMap, hslots, ← Table.values_eq_flatMap]
        exact congrArg Except.ok hold.symm
      rw [show Table.usable? (previous.find? info.id) = some old from hu, Option.map_some,
        Option.getD_some, hshows]
      exact .ok (List.forall₂_same.mpr (hgov.covers.holds_oldValues hm))

theorem shows_map {info : StageInfo} {source : Stage σ} {transform : Transform σ}
    {leaf : StageId → Except Fault (List Value)} (hg : graph.Standard)
    (hb : graph.Baseline sample previous) (hgov : like.Governs previous given)
    (hs : graph.Sound sample given previous pass)
    (hm : graph.Has (.map info source transform Comparer.equality))
    (hf : pass.current.find? info.id = some table)
    (hsource : ∀ t, pass.current.find? source.id = some t →
      like.Shows source (source.meaning sample leaf) t) :
    like.Shows (.map info source transform Comparer.equality)
      ((Stage.map info source transform Comparer.equality).meaning sample leaf) table := by
  have hhas := graph.has_source hm List.mem_cons_self
  unfold Stage.meaning
  cases hs.yields _ _ hm hf with
  | mapFault hfind hsf =>
    rw [(hsource _ hfind).eq_error hsf]
    exact .error
  | @map _ _ _ _ sources _ hfind hsn hformed =>
    obtain ⟨values, hmeaning, hvalues⟩ := (hsource _ hfind).eq_ok hsn
    rw [hmeaning]
    change like.Shows _ (images (Stage.image info transform sample) values) table
    have himages : Matches (List.Forall₂ (like.Like info.id))
        (images (Stage.image info transform sample) values)
        (images (Stage.image info transform sample) sources.liveValues) :=
      images_matches (R := like.Like source.id) (fun _ _ hv => like.transformed hm hv sample) hvalues
    cases hn : table.fault with
    | none =>
      obtain ⟨t, ht, -, hstands⟩ := (known_of_sound hg.regular hb hs _ hm table hf hn).inLine
      rw [hfind] at ht
      cases ht
      obtain ⟨news, hnews, hkept⟩ := images_liveValues hstands
      rw [hnews] at himages
      exact hgov.shows_kept hm hs hf hn himages hkept
    | some fault =>
      have hscript := (known_of_sound hg.regular hb hs source hhas sources hfind hsn).script
      have hblocked : images (Stage.image info transform sample) sources.liveValues = .error fault := by
        refine images_blocked hformed hn hscript fun hsome value hv => ?_
        rcases hb.usable_cases hm with ⟨hu, -⟩ | ⟨old, -, -, -, before, hbefore, hbn, hfits⟩
        · rw [show Table.usable? (previous.find? info.id) = none from hu] at hsome
          cases hsome
        · rw [PassTables.oldValues_eq hbefore hbn] at hv
          obtain ⟨kept, new, hnew, -⟩ := hfits.exists_of_mem hv
          exact ⟨new, hnew⟩
      rw [hblocked] at himages
      unfold Likeness.Shows
      rw [Table.shows_of_fault hn]
      exact himages

theorem shows_collect {info : StageInfo} {source : Stage σ}
    {leaf : StageId → Except Fault (List Value)} (hg : graph.Regular)
    (hb : graph.Baseline sample previous) (hgov : like.Governs previous given)
    (hs : graph.Sound sample given previous pass)
    (hm : graph.Has (.collect info source)) (hf : pass.current.find? info.id = some table)
    (hsource : ∀ t, pass.current.find? source.id = some t →
      like.Shows source (source.meaning sample leaf) t) :
    like.Shows (.collect info source) ((Stage.collect info source).meaning sample leaf) table := by
  unfold Stage.meaning
  cases hs.yields _ _ hm hf with
  | collectFault hfind hsf =>
    rw [(hsource _ hfind).eq_error hsf]
    exact .error
  | @collect _ _ sources _ hfind hsn hformed =>
    obtain ⟨values, hmeaning, hvalues⟩ := (hsource _ hfind).eq_ok hsn
    rw [hmeaning]
    change like.Shows _ (.ok [.list values]) table
    cases hn : table.fault with
    | none =>
      obtain ⟨t, slot, kept, ht, -, hslots, hlive, hkept⟩ :=
        (known_of_sound hg hb hs _ hm table hf hn).inLine
      rw [hfind] at ht
      cases ht
      refine hgov.shows_kept hm hs hf hn (.ok (.cons (like.gathered hm hvalues) .nil)) ?_
      rw [table.liveValues_eq_flatMap, hslots, List.flatMap_singleton, hlive]
      exact .cons hkept .nil
    | some fault =>
      rw [hformed.unfaulted fun entry _ => ⟨_, rfl⟩] at hn
      cases hn

theorem shows_combine {info : StageInfo} {left right : Stage σ}
    {leaf : StageId → Except Fault (List Value)} (hg : graph.Regular)
    (hb : graph.Baseline sample previous) (hgov : like.Governs previous given)
    (hs : graph.Sound sample given previous pass)
    (hm : graph.Has (.combine info left right)) (hf : pass.current.find? info.id = some table)
    (hleft : ∀ t, pass.current.find? left.id = some t →
      like.Shows left (left.meaning sample leaf) t)
    (hright : ∀ t, pass.current.find? right.id = some t →
      like.Shows right (right.meaning sample leaf) t) :
    like.Shows (.combine info left right) ((Stage.combine info left right).meaning sample leaf)
      table := by
  unfold Stage.meaning
  cases hs.yields _ _ hm hf with
  | @combineFault _ _ _ lefts rights fault hl hr hfault =>
    cases hlf : lefts.fault with
    | some f =>
      obtain rfl : f = fault := by simpa [hlf] using hfault
      rw [(hleft _ hl).eq_error hlf]
      exact .error
    | none =>
      have hrf : rights.fault = some fault := by simpa [hlf] using hfault
      obtain ⟨values, hmeaning, -⟩ := (hleft _ hl).eq_ok hlf
      rw [hmeaning, (hright _ hr).eq_error hrf]
      exact .error
  | @combineMany _ _ _ lefts rights hl hr hln hrn hmany =>
    obtain ⟨values, hmeaning, -⟩ := (hleft _ hl).eq_ok hln
    obtain ⟨others, hothers, hlike⟩ := (hright _ hr).eq_ok hrn
    have hlength := hlike.length_eq
    rw [hmeaning, hothers, ← hlength]
    rw [← hlength] at hmany
    rcases others with - | ⟨other, - | ⟨next, rest⟩⟩
    · exact .error
    · exact absurd rfl hmany
    · exact .error
  | @combine _ _ _ lefts rights other state _ hl hr hln hrn hother hformed =>
    obtain ⟨values, hmeaning, hvalues⟩ := (hleft _ hl).eq_ok hln
    obtain ⟨others, hothers, hlike⟩ := (hright _ hr).eq_ok hrn
    have hlive : rights.liveValues = [other] := by rw [Table.liveValues, hother]; rfl
    rw [hlive] at hlike
    obtain ⟨scratch, rest, hscratch, hrest, rfl⟩ := List.forall₂_cons_right_iff.mp hlike
    cases hrest
    rw [hmeaning, hothers]
    change like.Shows _ (images (Stage.pairWith scratch) values) table
    have himages : Matches (List.Forall₂ (like.Like info.id))
        (images (Stage.pairWith scratch) values)
        (images (Stage.pairWith other) lefts.liveValues) :=
      images_matches (R := like.Like left.id)
        (fun _ _ hv => .ok (.cons (like.paired hm hv hscratch) .nil)) hvalues
    cases hn : table.fault with
    | none =>
      obtain ⟨tl, tr, right', htl, -, htr, -, hright', hstands⟩ :=
        (known_of_sound hg hb hs _ hm table hf hn).inLine
      rw [hl] at htl
      rw [hr] at htr
      cases htl
      cases htr
      rw [hlive] at hright'
      cases hright'
      obtain ⟨news, hnews, hkept⟩ := images_liveValues hstands
      rw [hnews] at himages
      exact hgov.shows_kept hm hs hf hn himages hkept
    | some fault =>
      rw [hformed.unfaulted fun entry _ => ⟨_, rfl⟩] at hn
      cases hn

/-- A stage of a standard graph shows its meaning up to a likeness, whatever was there before. -/
theorem shows_meaning (hg : graph.Standard) (hb : graph.Baseline sample previous)
    (hgov : like.Governs previous given) (hs : graph.Sound sample given previous pass)
    (stage : Stage σ) (hm : graph.Has stage) (table : Table Value)
    (hf : pass.current.find? stage.id = some table) :
    like.Shows stage (stage.meaning sample (previous.leafShows given)) table := by
  induction stage generalizing table with
  | input info same =>
    obtain rfl := hg.input_eq hm
    exact shows_leaf hb hgov hs hm hf
  | map info source transform same ih =>
    obtain rfl := hg.map_eq hm
    exact shows_map hg hb hgov hs hm hf fun t ht => ih (graph.has_source hm List.mem_cons_self) t ht
  | collect info source ih =>
    exact shows_collect hg.regular hb hgov hs hm hf fun t ht =>
      ih (graph.has_source hm List.mem_cons_self) t ht
  | combine info left right ihl ihr =>
    exact shows_combine hg.regular hb hgov hs hm hf
      (fun t ht => ihl (graph.has_source hm List.mem_cons_self) t ht)
      (fun t ht => ihr (graph.has_source hm (List.mem_cons_of_mem _ List.mem_cons_self)) t ht)
  | custom info update => exact (hg.regular _ hm).elim

end StageGraph

end Regen
