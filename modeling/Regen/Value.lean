import Regen.Json.Basic
import Regen.Output

/-!
# Values of stages

What flows from stage to stage: documents, outputs and additional inputs, lists that a collecting
stage gathers and pairs that a combining stage makes. Lists and pairs are compared part by part, and
documents as documents are, so that `==` need not be reflexive and need not tell apart all that a
transform can. Whether two values are one and the same is decidable as well.
-/

namespace Regen

/-- A value in the table of a stage. -/
inductive Value where
  | data (document : Json)
  | output (output : GeneratedOutput)
  | input (input : AdditionalInput)
  | list (values : List Value)
  | pair (left right : Value)
  deriving Inhabited

namespace Value

section

variable (document : Json → Json → Bool)

mutual

/-- Whether two values agree up to documents, which are compared in a way of their own. -/
def agree : Value → Value → Bool
  | .data a, .data b => document a b
  | .output a, .output b => a == b
  | .input a, .input b => a == b
  | .list as, .list bs => agreeList as bs
  | .pair a b, .pair c d => agree a c && agree b d
  | _, _ => false

def agreeList : List Value → List Value → Bool
  | [], [] => true
  | a :: as, b :: bs => agree a b && agreeList as bs
  | _, _ => false

end

end

instance : BEq Value := ⟨agree (· == ·)⟩

mutual

private theorem eq_of_agree_value : ∀ a b : Value, agree (decide <| · = ·) a b = true → a = b
  | .data _, b, h => by cases b <;> simp_all [agree]
  | .output _, b, h => by cases b <;> simp_all [agree]
  | .input _, b, h => by cases b <;> simp_all [agree]
  | .list as, b, h => by
    cases b <;> simp [agree] at h
    rw [eq_of_agree_list as _ h]
  | .pair a b, c, h => by
    cases c <;> simp [agree] at h
    rw [eq_of_agree_value a _ h.1, eq_of_agree_value b _ h.2]

private theorem eq_of_agree_list :
    ∀ as bs : List Value, agreeList (decide <| · = ·) as bs = true → as = bs
  | [], [], _ => rfl
  | [], _ :: _, h => by simp [agreeList] at h
  | _ :: _, [], h => by simp [agreeList] at h
  | a :: as, b :: bs, h => by
    simp only [agreeList, Bool.and_eq_true] at h
    rw [eq_of_agree_value a b h.1, eq_of_agree_list as bs h.2]

end

mutual

private theorem agree_refl_value : ∀ a : Value, agree (decide <| · = ·) a a = true
  | .data _ => by simp [agree]
  | .output _ => by simp [agree]
  | .input _ => by simp [agree]
  | .list as => by simp [agree, agree_refl_list as]
  | .pair a b => by simp [agree, agree_refl_value a, agree_refl_value b]

private theorem agree_refl_list : ∀ as : List Value, agreeList (decide <| · = ·) as as = true
  | [] => by simp [agreeList]
  | a :: as => by simp [agreeList, agree_refl_value a, agree_refl_list as]

end

instance : DecidableEq Value := fun a b =>
  if h : agree (decide <| · = ·) a b = true then .isTrue (eq_of_agree_value a b h)
  else .isFalse fun hab => h (hab ▸ agree_refl_value a)

/-- The output that a value is. -/
def output? : Value → Option GeneratedOutput
  | .output o => some o
  | _ => none

end Value

end Regen
