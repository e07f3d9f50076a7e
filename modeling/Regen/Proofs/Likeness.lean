import Regen.Proofs.Typing

/-!
# Values that are alike

The comparer of a stage decides whether a recomputed value replaces the old one. `==` may take two
values for equal that a transform tells apart, as it does the two zeros, and then what a stage shows
depends on which of them came first. A likeness says which values need not be told apart, stage by
stage: transforms make alike values, or the same fault, of alike values, and lists and pairs of alike
values are alike. It is a partial equivalence; the values that are alike to themselves are those that
the stages may hold. Where `==` takes only alike values for equal, old values may stand for new ones.
Identity is a likeness of every typing.
-/

namespace Regen

variable {σ α β γ δ ε : Type}

/-- Both are there and related, or both failed in the same way. -/
inductive Matches (R : α → β → Prop) : Except ε α → Except ε β → Prop
  | ok {a b} : R a b → Matches R (.ok a) (.ok b)
  | error {why} : Matches R (.error why) (.error why)

namespace Matches

variable {R : α → β → Prop} {r : Except ε α} {r' : Except ε β}

theorem mono {R' : α → β → Prop} (h : Matches R r r') (hR : ∀ a b, R a b → R' a b) :
    Matches R' r r' := by
  cases h with
  | ok hab => exact .ok (hR _ _ hab)
  | error => exact .error

/-- What goes on with related results is related. -/
theorem bind {T : γ → δ → Prop} {f : α → Except ε γ} {g : β → Except ε δ} (h : Matches R r r')
    (hf : ∀ a b, R a b → Matches T (f a) (g b)) : Matches T (r >>= f) (r' >>= g) := by
  cases h with
  | ok hab => exact hf _ _ hab
  | error => exact .error

end Matches

/-- Related values make related lists, up to the same fault. -/
theorem images_matches {α' β' : Type} {R : α → α' → Prop} {S : β → β' → Prop}
    {image : α → Except Fault (List β)} {image' : α' → Except Fault (List β')}
    (hi : ∀ value value', R value value' → Matches (List.Forall₂ S) (image value) (image' value'))
    {values : List α} {values' : List α'} (h : List.Forall₂ R values values') :
    Matches (List.Forall₂ S) (images image values) (images image' values') := by
  induction h with
  | nil => exact .ok .nil
  | cons hv _ ih =>
    exact (hi _ _ hv).bind fun made made' hmade =>
      ih.bind fun tail tail' htail => .ok (List.rel_append hmade htail)

namespace Value

/-- The value equals itself and nothing else. -/
def Strict (value : Value) : Prop :=
  ∀ other, (value == other) = true ↔ value = other

theorem strict_output (output : GeneratedOutput) : (Value.output output).Strict := by
  intro other
  cases other <;> simp [BEq.beq, agree]

theorem strict_input (input : AdditionalInput) : (Value.input input).Strict := by
  intro other
  cases other <;> simp [BEq.beq, agree]

theorem strict_list {values : List Value} (h : ∀ value ∈ values, value.Strict) :
    (Value.list values).Strict := by
  intro other
  cases other with
  | list others =>
    change agreeList (· == ·) values others = true ↔ _
    rw [Value.list.injEq]
    induction values generalizing others with
    | nil => cases others <;> simp [agreeList]
    | cons value rest ih =>
      rw [List.forall_mem_cons] at h
      cases others with
      | nil => simp [agreeList]
      | cons other others =>
        have hhead : agree (· == ·) value other = true ↔ value = other := h.1 other
        rw [agreeList, Bool.and_eq_true, hhead, ih h.2, List.cons.injEq]
  | _ => simp [BEq.beq, agree]

theorem strict_pair {left right : Value} (hl : left.Strict) (hr : right.Strict) :
    (Value.pair left right).Strict := by
  intro other
  cases other with
  | pair otherLeft otherRight =>
    have hleft : agree (· == ·) left otherLeft = true ↔ left = otherLeft := hl otherLeft
    have hright : agree (· == ·) right otherRight = true ↔ right = otherRight := hr otherRight
    change agree (· == ·) (.pair left right) (.pair otherLeft otherRight) = true ↔ _
    rw [agree, Bool.and_eq_true, hleft, hright, Value.pair.injEq]
  | _ => simp [BEq.beq, agree]

end Value

namespace StageGraph

/-- Which values of a stage need not be told apart. -/
structure Likeness (graph : StageGraph σ) where
  Like : StageId → Value → Value → Prop
  symm : ∀ {id value other}, Like id value other → Like id other value
  trans : ∀ {id a b c}, Like id a b → Like id b c → Like id a c
  transformed : ∀ {info source transform same value other},
    graph.Has (.map info source transform same) → Like source.id value other →
    ∀ sample, Matches (List.Forall₂ (Like info.id)) (Stage.image info transform sample value)
      (Stage.image info transform sample other)
  gathered : ∀ {info source values others}, graph.Has (.collect info source) →
    List.Forall₂ (Like source.id) values others → Like info.id (.list values) (.list others)
  paired : ∀ {info left right value value' other other'}, graph.Has (.combine info left right) →
    Like left.id value value' → Like right.id other other' →
    Like info.id (.pair value other) (.pair value' other')

namespace Likeness

variable {graph : StageGraph σ}

/-- The stages may hold the values that are alike to themselves. -/
def typing (like : graph.Likeness) : graph.Typing where
  Holds id value := like.Like id value value
  made {info source transform same value new} hm hv hnew kept hkept := by
    obtain ⟨ambient, after, hrun⟩ := hnew
    have himage : Stage.image info transform ambient value = .ok new := by
      change (((transform value).run Ambient.answer).result ambient).mapError _ = .ok new
      rw [Act.result, hrun]
      rfl
    have hself := like.transformed hm hv ambient
    rw [himage] at hself
    cases hself with
    | ok hnew => exact List.forall₂_same.mp hnew kept hkept
  gathered hm hv := like.gathered hm (List.forall₂_same.mpr hv)
  paired hm hv ho := like.paired hm hv ho

/-- Values that compare equal are alike if their stage may hold them. -/
def EqualAlike (like : graph.Likeness) : Prop :=
  ∀ stage value other, graph.Has stage → like.Like stage.id value value →
    like.Like stage.id other other → (value == other) = true → like.Like stage.id value other

/-- The tables of the pass before and what the leaves are given hold what the stages may hold, and
values that compare equal are alike. -/
structure Governs (like : graph.Likeness) (previous : PassTables)
    (given : StageId → Option (Except Fault (List Value))) : Prop where
  equal : like.EqualAlike
  covers : like.typing.Covers previous
  admits : like.typing.Admits given

variable {like : graph.Likeness} {stage : Stage σ}

/-- What stands for a new value is alike to it. -/
theorem EqualAlike.like_of_kept (h : like.EqualAlike) (hm : graph.Has stage) {new kept : Value}
    (hnew : like.Like stage.id new new) (hkept : like.Like stage.id kept kept)
    (hk : Comparer.equality.Kept new kept) : like.Like stage.id new kept := by
  rcases Comparer.kept_equality.mp hk with rfl | heq
  · exact hnew
  · exact h stage new kept hm hnew hkept heq

theorem EqualAlike.forall₂_of_kept (h : like.EqualAlike) (hm : graph.Has stage)
    {news keeps : List Value} (hnews : ∀ value ∈ news, like.Like stage.id value value)
    (hkeeps : ∀ value ∈ keeps, like.Like stage.id value value)
    (hk : List.Forall₂ Comparer.equality.Kept news keeps) :
    List.Forall₂ (like.Like stage.id) news keeps := by
  induction hk with
  | nil => exact .nil
  | cons hkept _ ih =>
    rw [List.forall_mem_cons] at hnews hkeeps
    exact .cons (h.like_of_kept hm hnews.1 hkeeps.1 hkept) (ih hnews.2 hkeeps.2)

theorem forall₂_trans {id : StageId} {as bs cs : List Value}
    (h : List.Forall₂ (like.Like id) as bs) (h' : List.Forall₂ (like.Like id) bs cs) :
    List.Forall₂ (like.Like id) as cs := by
  induction h generalizing cs with
  | nil =>
    cases h'
    exact .nil
  | cons hab _ ih =>
    cases h' with
    | cons hbc hrest => exact .cons (like.trans hab hbc) (ih hrest)

theorem forall₂_symm {id : StageId} {as bs : List Value} (h : List.Forall₂ (like.Like id) as bs) :
    List.Forall₂ (like.Like id) bs as :=
  h.flip.imp fun _ _ hab => like.symm hab

end Likeness

namespace Typing

variable {graph : StageGraph σ}

/-- Where only equal values are identified, nothing is alike but what is one and the same. -/
def identity (typing : graph.Typing) : graph.Likeness where
  Like id value other := value = other ∧ typing.Holds id value
  symm := by
    rintro id value _ ⟨rfl, hv⟩
    exact ⟨rfl, hv⟩
  trans := by
    rintro id value _ _ ⟨rfl, hv⟩ ⟨rfl, -⟩
    exact ⟨rfl, hv⟩
  transformed := by
    rintro info source transform same value _ hm ⟨rfl, hv⟩ sample
    cases hi : Stage.image info transform sample value with
    | ok new =>
      exact .ok (List.forall₂_same.mpr fun kept hkept =>
        ⟨rfl, typing.made hm hv (Stage.observed_of_sampled hi) kept hkept⟩)
    | error fault => exact .error
  gathered := by
    intro info source values others hm h
    obtain rfl : values = others := List.forall₂_eq_eq_eq ▸ h.imp fun _ _ hab => hab.1
    exact ⟨rfl, typing.gathered hm fun value hv => (List.forall₂_same.mp h value hv).2⟩
  paired := by
    rintro info left right value _ other _ hm ⟨rfl, hv⟩ ⟨rfl, ho⟩
    exact ⟨rfl, typing.paired hm hv ho⟩

/-- Where no value compares equal to another one, identity is likeness enough. -/
theorem equalAlike_identity {typing : graph.Typing}
    (h : ∀ stage value other, graph.Has stage → typing.Holds stage.id value →
      (value == other) = true → value = other) : typing.identity.EqualAlike :=
  fun stage value other hm hv _ heq => ⟨h stage value other hm hv.2 heq, hv.2⟩

/-- What is alike by identity is the same. -/
theorem eq_of_identity {typing : graph.Typing} {id : StageId} {values others : List Value}
    (h : List.Forall₂ (typing.identity.Like id) values others) : values = others :=
  List.forall₂_eq_eq_eq ▸ h.imp fun _ _ hab => hab.1

end Typing

end StageGraph

end Regen
