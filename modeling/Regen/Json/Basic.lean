import Regen.Json.Double

/-!
# JSON values

Documents that flow through stages, artifacts and serialized records. Numbers are exact integers
or double-precision numbers kept by their bits. The fields of an object are kept sorted by key
and no key occurs twice, so that no comparison depends on the order in which fields were written.

Documents are compared by `==`, which compares doubles as numbers. It is not the equality of
documents: it does not tell the two zeros apart, and a double that is not a number is different from
itself. Whether two documents are one and the same is decidable as well.
-/

namespace Regen

/-- A JSON value. -/
inductive Json where
  | null
  | bool (value : Bool)
  | int (value : Int)
  | double (bits : UInt64)
  | str (value : String)
  | arr (items : List Json)
  | obj (fields : List (String × Json))
  deriving Inhabited

namespace Json

section

variable (double : UInt64 → UInt64 → Bool)

mutual

/-- Whether two documents agree up to doubles, which are compared in a way of their own. -/
def agree : Json → Json → Bool
  | .null, .null => true
  | .bool a, .bool b => a == b
  | .int a, .int b => a == b
  | .double a, .double b => double a b
  | .str a, .str b => a == b
  | .arr as, .arr bs => agreeItems as bs
  | .obj as, .obj bs => agreeFields as bs
  | _, _ => false

def agreeItems : List Json → List Json → Bool
  | [], [] => true
  | a :: as, b :: bs => agree a b && agreeItems as bs
  | _, _ => false

def agreeFields : List (String × Json) → List (String × Json) → Bool
  | [], [] => true
  | (k, a) :: as, (l, b) :: bs => k == l && agree a b && agreeFields as bs
  | _, _ => false

end

end

instance : BEq Json := ⟨agree Double.equal⟩

mutual

private theorem eq_of_agree_value : ∀ a b : Json, agree (· == ·) a b = true → a = b := by
  intro a b h
  cases a <;> cases b <;> simp_all [agree]
  case arr.arr as bs => exact eq_of_agree_items as bs h
  case obj.obj as bs => exact eq_of_agree_fields as bs h

private theorem eq_of_agree_items :
    ∀ as bs : List Json, agreeItems (· == ·) as bs = true → as = bs
  | [], [], _ => rfl
  | [], _ :: _, h => by simp [agreeItems] at h
  | _ :: _, [], h => by simp [agreeItems] at h
  | a :: as, b :: bs, h => by
    simp only [agreeItems, Bool.and_eq_true] at h
    rw [eq_of_agree_value a b h.1, eq_of_agree_items as bs h.2]

private theorem eq_of_agree_fields :
    ∀ as bs : List (String × Json), agreeFields (· == ·) as bs = true → as = bs
  | [], [], _ => rfl
  | [], _ :: _, h => by simp [agreeFields] at h
  | _ :: _, [], h => by simp [agreeFields] at h
  | (k, a) :: as, (l, b) :: bs, h => by
    simp only [agreeFields, Bool.and_eq_true, beq_iff_eq] at h
    rw [h.1.1, eq_of_agree_value a b h.1.2, eq_of_agree_fields as bs h.2]

end

mutual

private theorem agree_refl_value : ∀ a : Json, agree (· == ·) a a = true := by
  intro a
  cases a <;> simp [agree]
  case arr as => exact agree_refl_items as
  case obj as => exact agree_refl_fields as

private theorem agree_refl_items : ∀ as : List Json, agreeItems (· == ·) as as = true
  | [] => by simp [agreeItems]
  | a :: as => by simp [agreeItems, agree_refl_value a, agree_refl_items as]

private theorem agree_refl_fields :
    ∀ as : List (String × Json), agreeFields (· == ·) as as = true
  | [] => by simp [agreeFields]
  | (_, a) :: as => by simp [agreeFields, agree_refl_value a, agree_refl_fields as]

end

instance : DecidableEq Json := fun a b =>
  if h : agree (· == ·) a b = true then .isTrue (eq_of_agree_value a b h)
  else .isFalse fun hab => h (hab ▸ agree_refl_value a)

/-- Put a field at its place in a sorted list of fields; an equal key is replaced. -/
def insertField (key : String) (value : Json) : List (String × Json) → List (String × Json)
  | [] => [(key, value)]
  | (k, v) :: rest =>
    if key = k then (key, value) :: rest
    else if key < k then (key, value) :: (k, v) :: rest
    else (k, v) :: insertField key value rest

/-- The object with the given fields, of which the last one with a key counts. -/
def object (fields : List (String × Json)) : Json :=
  .obj (fields.foldl (fun sorted field => insertField field.1 field.2 sorted) [])

/-- The value under a key of an object. -/
def get? (json : Json) (key : String) : Option Json :=
  match json with
  | .obj fields => (fields.find? (·.1 == key)).map (·.2)
  | _ => none

/-- The value under a key, where an absent field reads as `null`. -/
def get (json : Json) (key : String) : Json :=
  (json.get? key).getD .null

/-- The items of an array; any other value reads as the empty list. -/
def items : Json → List Json
  | .arr items => items
  | _ => []

/-- The item at a position of an array, where an absent one reads as `null`. -/
def item (json : Json) (index : Nat) : Json :=
  (json.items[index]?).getD .null

def asStr? : Json → Option String
  | .str s => some s
  | _ => none

/-- The text of a string value; any other value reads as the empty text. -/
def asStr (json : Json) : String :=
  json.asStr?.getD ""

def asInt? : Json → Option Int
  | .int i => some i
  | _ => none

def isTrue : Json → Bool
  | .bool b => b
  | _ => false

def ofNat (n : Nat) : Json :=
  .int (Int.ofNat n)

/-- A text that may be missing, where a missing one is `null`. -/
def ofStr? : Option String → Json
  | some s => .str s
  | none => .null

end Json

end Regen
