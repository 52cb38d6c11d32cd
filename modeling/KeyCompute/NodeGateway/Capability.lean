import KeyCompute.NodeGateway.Record

/-!
# Native capabilities

`permits` decides in Rust, and the predicate of `profile_matches` in SQL, whether a profile of a
node serves a task.  The predicate reads both as JSONB: `@>` is containment, a missing field is
NULL, and NULL goes through the comparisons and the connectives.

The counts are `u32`, so that no cast to a `bigint` fails.
-/

namespace KeyCompute.NodeGateway

open JsonValue

inductive NativeFeature where
  | sse
  | cancellation
  | tools
  | vision
  | structuredOutput
  | thinking
  deriving DecidableEq

def NativeFeature.wire : NativeFeature → String
  | sse => "sse"
  | cancellation => "cancellation"
  | tools => "tools"
  | vision => "vision"
  | structuredOutput => "structured_output"
  | thinking => "thinking"

theorem NativeFeature.wire_injective : Function.Injective wire := by
  intro a b h
  revert h
  cases a <;> cases b <;> decide

theorem NodeNativeOperation.asStr_injective : Function.Injective asStr := by
  intro a b h
  revert h
  cases a <;> cases b <;> decide

structure NativeModelProfile where
  version : UInt16
  model : String
  operation : NodeNativeOperation
  features : List NativeFeature
  maxRequestBytes : UInt32
  maxResponseBytes : UInt32
  maxOutputTokens : Option UInt32

structure NativeRequirements where
  version : UInt16
  model : String
  operation : NodeNativeOperation
  features : List NativeFeature
  requestBytes : UInt32
  outputTokens : Option UInt32

def nativeCapabilityVersion : UInt16 := 1

def maxNativeBodyBytes : UInt32 := 1024 * 1024

def NativeModelProfile.validate (p : NativeModelProfile) : Except String Unit :=
  if p.version ≠ nativeCapabilityVersion ∨ p.model = "" ∨ p.model.length > 100 ∨
      p.features.length > 6 ∨ p.features.toFinset.card ≠ p.features.length ∨
      p.maxRequestBytes = 0 ∨ p.maxRequestBytes > maxNativeBodyBytes ∨
      p.maxResponseBytes = 0 ∨ p.maxResponseBytes > maxNativeBodyBytes ∨
      p.maxOutputTokens.any fun tokens => tokens = 0 || tokens > 2 ^ 31 - 1 then
    .error "native_profile_invalid"
  else .ok ()

def NativeModelProfile.permits (p : NativeModelProfile) (needed : NativeRequirements) : Bool :=
  p.validate.isOk && p.version == needed.version && p.model == needed.model &&
    decide (p.operation = needed.operation) &&
    needed.features.all (fun feature => p.features.contains feature) &&
    decide (p.maxRequestBytes ≥ needed.requestBytes) &&
    p.maxOutputTokens.all fun max => needed.outputTokens.any fun tokens => tokens ≤ max

/-! ## As JSON -/

def featuresJson (features : List NativeFeature) : JsonValue :=
  .array (features.map fun feature => .string feature.wire)

def countJson (count : Option UInt32) : JsonValue := .ofOption (count.map fun n => .ofInt n.toNat)

/-- `serde_json::to_value` of a profile. -/
def NativeModelProfile.toValue (p : NativeModelProfile) : JsonValue :=
  .object [("features", featuresJson p.features),
    ("max_output_tokens", countJson p.maxOutputTokens),
    ("max_request_bytes", .ofInt p.maxRequestBytes.toNat),
    ("max_response_bytes", .ofInt p.maxResponseBytes.toNat), ("model", .string p.model),
    ("operation", .string p.operation.asStr), ("version", .ofInt p.version.toNat)]

/-- `serde_json::to_value` of the requirements. -/
def NativeRequirements.toValue (r : NativeRequirements) : JsonValue :=
  .object [("features", featuresJson r.features), ("model", .string r.model),
    ("operation", .string r.operation.asStr), ("output_tokens", countJson r.outputTokens),
    ("request_bytes", .ofInt r.requestBytes.toNat), ("version", .ofInt r.version.toNat)]

/-! ## The predicate -/

mutual

/-- `left @> right`, below the top: there an array holds a scalar too. -/
def jsonbContains (left : JsonValue) : JsonValue → Bool
  | .object fields => left.isObject && containsFields left fields
  | .array elements => match left with
    | .array held => containsElements held elements
    | _ => false
  | scalar => left = scalar

def containsFields (left : JsonValue) : List (String × JsonValue) → Bool
  | [] => true
  | (name, value) :: rest =>
    (match left.get name with
      | some held => jsonbContains held value
      | none => false) && containsFields left rest

def containsElements (held : List JsonValue) : List JsonValue → Bool
  | [] => true
  | value :: rest => (held.any fun element => jsonbContains element value) &&
      containsElements held rest

end

/-- `AND` of SQL. -/
def sqlAnd : Option Bool → Option Bool → Option Bool
  | some false, _ | _, some false => some false
  | some true, some true => some true
  | _, _ => none

/-- `OR` of SQL. -/
def sqlOr : Option Bool → Option Bool → Option Bool
  | some true, _ | _, some true => some true
  | some false, some false => some false
  | _, _ => none

/-- `a <= b` of SQL. -/
def sqlLe (a b : Option ℤ) : Option Bool := do
  let a ← a
  let b ← b
  pure (decide (a ≤ b))

/-- `(value->>name)::bigint` of a count or of `null`. -/
def bigint (value : JsonValue) (name : String) : Option ℤ := (value.get name).bind asInt

/-- `(value->>name)::boolean` of a `bool`. -/
def boolean (value : JsonValue) (name : String) : Option Bool :=
  match value.get name with
  | some (.bool b) => some b
  | _ => none

/-- `value->name`, as an argument of `jsonb_build_object`. -/
def fieldOf (value : JsonValue) (name : String) : JsonValue := (value.get name).getD .null

def profileMatches (profile required : JsonValue) : Option Bool :=
  sqlAnd
    (some (jsonbContains profile (.ofFields [("version", fieldOf required "version"),
      ("model", fieldOf required "model"), ("operation", fieldOf required "operation"),
      ("features", fieldOf required "features")])))
    (sqlOr (((boolean required "enforce_limits").or (some true)).map (!·))
      (sqlAnd (sqlLe (bigint required "request_bytes") (bigint profile "max_request_bytes"))
        (sqlOr
          (sqlOr (some (profile.get "max_output_tokens").isNone)
            ((profile.get "max_output_tokens").map isNull))
          (sqlLe (bigint required "output_tokens") (bigint profile "max_output_tokens")))))

/-! ## Agreement -/

theorem sqlAnd_eq_true {a b : Option Bool} :
    sqlAnd a b = some true ↔ a = some true ∧ b = some true := by
  rcases a with _ | _ | _ <;> rcases b with _ | _ | _ <;> simp [sqlAnd]

theorem sqlOr_eq_true {a b : Option Bool} :
    sqlOr a b = some true ↔ a = some true ∨ b = some true := by
  rcases a with _ | _ | _ <;> rcases b with _ | _ | _ <;> simp [sqlOr]

theorem asInt_count (n : UInt32) : (ofInt n.toNat).asInt = some (n.toNat : ℤ) :=
  asInt_ofInt (n.toNat_lt.trans (by decide))

theorem asInt_countJson (count : Option UInt32) :
    (countJson count).asInt = count.map fun n => (n.toNat : ℤ) := by
  cases count with
  | none => rfl
  | some n => exact asInt_count n

theorem sqlLe_eq_true {m n : ℕ} : sqlLe (some m) (some n) = some true ↔ m ≤ n := by
  simp [sqlLe]

theorem jsonbContains_version (m n : UInt16) :
    jsonbContains (.ofInt m.toNat) (.ofInt n.toNat) = true ↔ m = n := by
  change decide (_ = _) = true ↔ _
  rw [decide_eq_true_iff]
  refine ⟨fun h => ?_, fun h => h ▸ rfl⟩
  have hint := congrArg asInt h
  rw [asInt_ofInt (m.toNat_lt.trans (by decide)),
    asInt_ofInt (n.toNat_lt.trans (by decide))] at hint
  exact UInt16.toNat_inj.mp (by simpa using hint)

theorem containsElements_features (held features : List NativeFeature) :
    containsElements (held.map fun feature => .string feature.wire)
      (features.map fun feature => .string feature.wire) =
      features.all fun feature => held.contains feature := by
  induction features with
  | nil => rfl
  | cons feature rest ih =>
    rw [List.map_cons, containsElements, ih, List.all_cons, List.any_map]
    congr 1
    rw [Bool.eq_iff_iff, List.any_eq_true, List.contains_iff_mem]
    constructor
    · rintro ⟨f, hf, heq⟩
      have hwire : f.wire = feature.wire := by simpa [jsonbContains] using heq
      exact NativeFeature.wire_injective hwire ▸ hf
    · intro hf
      exact ⟨feature, hf, by simp [jsonbContains]⟩

theorem jsonbContains_selector (p : NativeModelProfile) (needed : NativeRequirements) :
    jsonbContains p.toValue (.ofFields [("version", fieldOf needed.toValue "version"),
      ("model", fieldOf needed.toValue "model"), ("operation", fieldOf needed.toValue "operation"),
      ("features", fieldOf needed.toValue "features")]) = true ↔
      p.version = needed.version ∧ p.model = needed.model ∧ p.operation = needed.operation ∧
        needed.features.all fun feature => p.features.contains feature := by
  have hselector : JsonValue.ofFields [("version", fieldOf needed.toValue "version"),
      ("model", fieldOf needed.toValue "model"), ("operation", fieldOf needed.toValue "operation"),
      ("features", fieldOf needed.toValue "features")] =
      .object [("features", featuresJson needed.features), ("model", .string needed.model),
        ("operation", .string needed.operation.asStr),
        ("version", .ofInt needed.version.toNat)] := by
    simp [JsonValue.ofFields, JsonValue.set, JsonValue.setField, JsonValue.insertField,
      List.lookup, fieldOf, NativeRequirements.toValue, JsonValue.get, -String.lt_iff_ltb]
  rw [hselector, ← containsElements_features, ← NodeNativeOperation.asStr_injective.eq_iff,
    ← jsonbContains_version]
  simp [jsonbContains, containsFields, NativeModelProfile.toValue, JsonValue.get, List.lookup,
    featuresJson, JsonValue.isObject]
  tauto

/-- What the limits allow: an output that is not given is NULL, and so is its comparison. -/
theorem sqlLimits_eq_true (p : NativeModelProfile) (needed : NativeRequirements) :
    sqlOr
      (sqlOr (some (p.toValue.get "max_output_tokens").isNone)
        ((p.toValue.get "max_output_tokens").map isNull))
      (sqlLe (bigint needed.toValue "output_tokens") (bigint p.toValue "max_output_tokens")) =
        some true ↔
      p.maxOutputTokens.all fun max => needed.outputTokens.any fun tokens => tokens ≤ max := by
  have hmax : bigint p.toValue "max_output_tokens" =
      p.maxOutputTokens.map fun n => (n.toNat : ℤ) := asInt_countJson _
  have hout : bigint needed.toValue "output_tokens" =
      needed.outputTokens.map fun n => (n.toNat : ℤ) := asInt_countJson _
  have hfield : p.toValue.get "max_output_tokens" = some (countJson p.maxOutputTokens) := rfl
  rw [hmax, hout, hfield]
  cases p.maxOutputTokens with
  | none => simp [sqlOr, countJson, ofOption, isNull]
  | some max =>
    cases needed.outputTokens with
    | none => simp [sqlOr, sqlLe, countJson, ofOption, ofInt, isNull]
    | some tokens =>
      simp [sqlOr_eq_true, sqlLe, countJson, ofOption, ofInt, isNull,
        UInt32.le_iff_toNat_le]

/-- **The predicate and `permits` agree.** -/
theorem profileMatches_iff_permits (p : NativeModelProfile) (needed : NativeRequirements)
    (valid : p.validate = .ok ()) :
    profileMatches p.toValue needed.toValue = some true ↔ p.permits needed = true := by
  have hvalid : p.validate.isOk = true := by
    rw [valid]
    rfl
  have henforced : boolean needed.toValue "enforce_limits" = none := rfl
  have hbytes :
      sqlLe (bigint needed.toValue "request_bytes") (bigint p.toValue "max_request_bytes") =
        some true ↔ needed.requestBytes ≤ p.maxRequestBytes := by
    have hneeded : bigint needed.toValue "request_bytes" = some (needed.requestBytes.toNat : ℤ) :=
      asInt_count _
    have hmax : bigint p.toValue "max_request_bytes" = some (p.maxRequestBytes.toNat : ℤ) :=
      asInt_count _
    rw [hneeded, hmax, sqlLe_eq_true, UInt32.le_iff_toNat_le]
  rw [profileMatches, sqlAnd_eq_true, Option.some_inj, jsonbContains_selector, sqlOr_eq_true,
    sqlAnd_eq_true, hbytes, sqlLimits_eq_true, henforced]
  simp [NativeModelProfile.permits, hvalid]
  tauto

def boundedProfile : NativeModelProfile :=
  { version := 1, model := "m", operation := .chat, features := [.tools]
    maxRequestBytes := 100, maxResponseBytes := 100, maxOutputTokens := some 10 }

theorem profileMatches_iff_permits_bounded :
    boundedProfile.validate = .ok () ∧ ∀ needed : NativeRequirements,
      profileMatches boundedProfile.toValue needed.toValue = some true ↔
        boundedProfile.permits needed = true :=
  ⟨rfl, fun needed => profileMatches_iff_permits boundedProfile needed rfl⟩

end KeyCompute.NodeGateway
