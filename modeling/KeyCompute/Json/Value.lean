import Mathlib

/-!
# JSON values

Values as `serde_json` holds them.  A number is kept as its text, since nothing here computes
with one.  `get` is the lookup of an object's field, and `none` on every other kind of value,
as `Value::get` with a string is.
-/

namespace KeyCompute

inductive JsonValue where
  | null
  | bool (b : Bool)
  | number (text : String)
  | string (s : String)
  | array (elements : List JsonValue)
  | object (fields : List (String × JsonValue))

namespace JsonValue

/-- `Value::get` with a field name. -/
def get (name : String) : JsonValue → Option JsonValue
  | object fields => fields.lookup name
  | _ => none

def asStr : JsonValue → Option String
  | string s => some s
  | _ => none

def asArray : JsonValue → Option (List JsonValue)
  | array elements => some elements
  | _ => none

/-- `get(name).and_then(Value::as_str)`. -/
def getStr (name : String) (value : JsonValue) : Option String :=
  (value.get name).bind asStr

/-- `get(name).and_then(Value::as_array)`. -/
def getArray (name : String) (value : JsonValue) : Option (List JsonValue) :=
  (value.get name).bind asArray

/-- `Value::pointer`, for a path of field names. -/
def pointer (path : List String) (value : JsonValue) : Option JsonValue :=
  path.foldlM (fun at' name => at'.get name) value

/-! ## Equality -/

mutual

/-- Equality of values, as `Value: PartialEq` computes it. -/
def beq : JsonValue → JsonValue → Bool
  | null, null => true
  | bool a, bool b => a == b
  | number a, number b => a == b
  | string a, string b => a == b
  | array a, array b => beqElements a b
  | object a, object b => beqFields a b
  | _, _ => false

def beqElements : List JsonValue → List JsonValue → Bool
  | [], [] => true
  | a :: as, b :: bs => beq a b && beqElements as bs
  | _, _ => false

def beqFields : List (String × JsonValue) → List (String × JsonValue) → Bool
  | [], [] => true
  | (n, a) :: as, (m, b) :: bs => n == m && beq a b && beqFields as bs
  | _, _ => false

end

mutual

theorem beq_iff : ∀ a b : JsonValue, beq a b = true ↔ a = b
  | null, b => by cases b <;> simp [beq]
  | bool _, b => by cases b <;> simp [beq]
  | number _, b => by cases b <;> simp [beq]
  | string _, b => by cases b <;> simp [beq]
  | array as, b => by cases b <;> simp [beq, beqElements_iff as]
  | object as, b => by cases b <;> simp [beq, beqFields_iff as]

theorem beqElements_iff : ∀ as bs : List JsonValue, beqElements as bs = true ↔ as = bs
  | [], bs => by cases bs <;> simp [beqElements]
  | a :: as, bs => by cases bs <;> simp [beqElements, beq_iff a, beqElements_iff as]

theorem beqFields_iff : ∀ as bs : List (String × JsonValue), beqFields as bs = true ↔ as = bs
  | [], bs => by cases bs <;> simp [beqFields]
  | (n, a) :: as, bs => by
    rcases bs with _ | ⟨⟨m, b⟩, bs⟩ <;> simp [beqFields, beq_iff a, beqFields_iff as, and_assoc]

end

instance : DecidableEq JsonValue := fun a b => decidable_of_iff _ (beq_iff a b)

end JsonValue

end KeyCompute
