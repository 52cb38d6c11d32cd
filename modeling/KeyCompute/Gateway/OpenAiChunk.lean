import KeyCompute.Gateway.Stream
import KeyCompute.Database.Value
import KeyCompute.Json.Encode

/-!
# Chunks of an OpenAI chat stream

`parse_openai_event_with_mode` turns one chunk into the events of the stream.  The normalized mode
reads the chunk into the `OpenAIStreamResponse` of `protocol.rs`, whose token counts are `i32` and
are cast to `u32`; the native mode checks the chunk and reads the counts as `u64`, capped at the
largest `u32`.  A count is transferred exactly if it is not negative (`usage_transferred`).

The text of a `serde_json` error is left out.
-/

namespace KeyCompute.OpenAi

open Gateway (StreamEvent)
open JsonValue

def asU64 (value : JsonValue) : Option ℕ := ((asInt value).filter (0 ≤ ·)).map Int.toNat

def u32Max : ℕ := 2 ^ 32 - 1

inductive ChatStreamMode where
  | normalized
  | native (forwardUsage : Bool)

inductive ChunkError where
  /-- the error of `serde_json::from_value` -/
  | shape
  | provider (message : String)

/-! ## Errors of the upstream -/

def extractUpstreamError (value : JsonValue) : Option String :=
  match value.get "error" with
  | none => none
  | some .null => none
  | some (.string message) => some ("Upstream stream error: " ++ message)
  | some error =>
    let message := (error.getStr "message").getD "unknown error"
    match ((error.get "type").or (error.get "code")).bind asStr with
    | some kind => some ("Upstream stream error (" ++ kind ++ "): " ++ message)
    | none => some ("Upstream stream error: " ++ message)

/-! ## The normalized mode -/

/-- `i32` of a field. -/
def asI32 (value : JsonValue) : Except ChunkError ℤ :=
  match (asInt value).filter fun n => -2 ^ 31 ≤ n ∧ n < 2 ^ 31 with
  | some n => .ok n
  | none => .error .shape

def asString (value : JsonValue) : Except ChunkError String :=
  match value with
  | .string s => .ok s
  | _ => .error .shape

def required {α : Type} (read : JsonValue → Except ChunkError α) (name : String)
    (value : JsonValue) : Except ChunkError α :=
  match value.get name with
  | some field => read field
  | none => .error .shape

def defaulted {α : Type} (read : JsonValue → Except ChunkError α) (fallback : α) (name : String)
    (value : JsonValue) : Except ChunkError α :=
  match value.get name with
  | some field => read field
  | none => .ok fallback

/-- A field that may be absent or `null`. -/
def optional {α : Type} (read : JsonValue → Except ChunkError α) (name : String)
    (value : JsonValue) : Except ChunkError (Option α) :=
  match value.get name with
  | none => .ok none
  | some .null => .ok none
  | some field => (read field).map some

def elements {α : Type} (read : JsonValue → Except ChunkError α) (value : JsonValue) :
    Except ChunkError (List α) :=
  match value with
  | .array values => values.mapM read
  | _ => .error .shape

/-- `serde` also reads a structure from the array of its fields, in order and none left out: the
last field of each structure here has no default. -/
def named (names : List String) : JsonValue → JsonValue
  | .array values => if values.length = names.length then .object (names.zip values) else .null
  | value => value

/-- A structure of the given fields. -/
def struct {α : Type} (names : List String) (read : JsonValue → Except ChunkError α)
    (value : JsonValue) : Except ChunkError α :=
  if (named names value).isObject then read (named names value) else .error .shape

structure Usage where
  promptTokens : ℤ
  completionTokens : ℤ

def usageFields : List String := ["prompt_tokens", "completion_tokens", "total_tokens"]

def readUsage : JsonValue → Except ChunkError Usage := struct usageFields fun value => do
  let promptTokens ← required asI32 "prompt_tokens" value
  let completionTokens ← required asI32 "completion_tokens" value
  let _ ← required asI32 "total_tokens" value
  pure { promptTokens, completionTokens }

/-- A tool call, of which nothing is used. -/
def readToolCall : JsonValue → Except ChunkError Unit :=
  struct ["id", "type", "function"] fun value => do
    let _ ← required asString "id" value
    let _ ← required asString "type" value
    required (struct ["name", "arguments"] fun function => do
      let _ ← required asString "name" function
      let _ ← required asString "arguments" function
      pure ()) "function" value

/-- The content of a `DeltaMessage`. -/
def readDelta : JsonValue → Except ChunkError (Option String) :=
  struct ["role", "content", "tool_calls"] fun value => do
    let _ ← optional asString "role" value
    let content ← optional asString "content" value
    let _ ← optional (elements readToolCall) "tool_calls" value
    pure content

/-- The content and the finish reason of a `StreamChoice`. -/
def readChoice : JsonValue → Except ChunkError (Option String × Option String) :=
  struct ["index", "delta", "finish_reason", "logprobs"] fun value => do
    let _ ← defaulted asI32 0 "index" value
    let content ← defaulted readDelta none "delta" value
    let finishReason ← optional asString "finish_reason" value
    pure (content, finishReason)

def choiceEvents : List (Option String × Option String) → List StreamEvent
  | (some content, finishReason) :: _ => [.delta content finishReason]
  | (none, some reason) :: _ => [.delta "" (some reason)]
  | _ => []

def castU32 (n : ℤ) : ℕ := (n % 2 ^ 32).toNat

def usageEvents (usage : Option Usage) : List StreamEvent :=
  usage.toList.map fun usage => .usage (castU32 usage.promptTokens) (castU32 usage.completionTokens)

def chunkFields : List String := ["id", "object", "created", "model", "choices", "usage"]

/-- A chunk as an `OpenAIStreamResponse`, and the events made of it. -/
def parseNormalized : JsonValue → Except ChunkError (List StreamEvent) :=
    struct chunkFields fun value => do
  let _ ← defaulted asString "" "id" value
  let _ ← defaulted asString "" "object" value
  let _ ← defaulted (fun created => (asInt created).elim (.error .shape) fun n =>
    if n < 2 ^ 63 then .ok n else .error .shape) 0 "created" value
  let _ ← defaulted asString "" "model" value
  let choices ← defaulted (elements readChoice) [] "choices" value
  let usage ← optional readUsage "usage" value
  pure (choiceEvents choices ++ usageEvents usage)

/-! ## The native mode -/

def ensure (ok : Bool) (message : String) : Except ChunkError Unit :=
  if ok then .ok () else .error (.provider message)

def validateChoice (choice : JsonValue) : Except ChunkError Unit := do
  ensure choice.isObject "OpenAI stream event choices must contain objects"
  ensure ((choice.get "index").all fun index => (asU64 index).isSome)
    "OpenAI stream event choice has an invalid index"
  ensure ((choice.get "delta").all isObject) "OpenAI stream event choice has an invalid delta"

def validateChoices : Option JsonValue → Except ChunkError Unit
  | none => .ok ()
  | some (.array choices) => choices.forM validateChoice
  | some _ => .error (.provider "OpenAI stream event choices must be an array")

def validateUsage (usage : JsonValue) : Except ChunkError Unit := do
  ensure usage.isObject "OpenAI stream event has invalid usage"
  ensure (["prompt_tokens", "completion_tokens", "total_tokens"].all fun name =>
      ((usage.get name).bind asU64).isSome)
    "OpenAI stream event has invalid usage token counts"

def validId (id : JsonValue) : Bool :=
  id.asStr.any fun id => id ≠ "" && id.utf8ByteSize ≤ 512 && !id.toList.any Text.isControl

def validateNativeOpenaiChunk (value : JsonValue) : Except ChunkError Unit := do
  ensure value.isObject "OpenAI stream event must be a JSON object"
  ensure ((value.get "object").all fun kind => kind.asStr = some "chat.completion.chunk")
    "OpenAI stream event has an invalid object type"
  ensure ((value.get "id").all validId) "OpenAI stream event has an invalid id"
  ensure ((value.get "created").all fun created =>
      (asInt created).any fun n => 0 ≤ n && decide (n < 2 ^ 63))
    "OpenAI stream event has an invalid created timestamp"
  ensure ((value.get "model").all fun model => model.asStr.any (· ≠ ""))
    "OpenAI stream event has an invalid model"
  ensure ((value.get "choices").isSome || (value.get "usage").any fun usage => !usage.isNull)
    "OpenAI stream event must contain choices or usage"
  validateChoices (value.get "choices")
  match (value.get "usage").filter fun usage => !usage.isNull with
  | none => pure ()
  | some usage => validateUsage usage

def nativeCount (usage : JsonValue) (name : String) : Option ℕ :=
  ((usage.get name).bind asU64).map (min · u32Max)

def nativeUsage (value : JsonValue) : Option (ℕ × ℕ) := do
  let usage ← value.get "usage"
  let input ← nativeCount usage "prompt_tokens"
  let output ← nativeCount usage "completion_tokens"
  pure (input, output)

def parseNativeOpenaiEvent (value : JsonValue) (forwardUsage : Bool) :
    Except ChunkError (List StreamEvent) := do
  validateNativeOpenaiChunk value
  let usage := nativeUsage value
  let data := if forwardUsage then value else value.remove "usage"
  let forwarded := forwardUsage || usage.isNone || value.getArray "choices" ≠ some []
  pure ((if forwarded then [.native (.openAiChatSse data)] else []) ++
    usage.toList.map fun counts => .usage counts.1 counts.2)

/-- `parse_openai_event_with_mode`, behind the parser. -/
def parseOpenaiEventWithMode (value : JsonValue) (mode : ChatStreamMode) :
    Except ChunkError (List StreamEvent) :=
  match extractUpstreamError value, mode with
  | some message, _ => .ok [.error message]
  | none, .native forwardUsage => parseNativeOpenaiEvent value forwardUsage
  | none, .normalized => parseNormalized value

/-! ## The usage -/

/-- The counts of the `Usage` events. -/
def reported (events : List StreamEvent) : List (ℕ × ℕ) :=
  events.filterMap fun
    | .usage input output => some (input, output)
    | _ => none

def capped (n : ℤ) : ℕ := min n.toNat u32Max

/-- The usage a chunk carries, in either form of the chunk. -/
def usageOf (value : JsonValue) : Option JsonValue :=
  ((named chunkFields value).get "usage").filter fun usage => !usage.isNull

/-- A count of a usage, in either form of the usage. -/
def count (usage : JsonValue) (name : String) : Option ℤ :=
  ((named usageFields usage).get name).bind asInt

section Readers

variable {α β : Type} {read : JsonValue → Except ChunkError α} {name : String}
  {value : JsonValue} {mode : ChatStreamMode}

theorem bind_eq_ok {x : Except ChunkError α} {f : α → Except ChunkError β} {b : β} :
    (x >>= f) = .ok b ↔ ∃ a, x = .ok a ∧ f a = .ok b := by
  cases x with
  | error e => simp [bind, Except.bind]
  | ok a => simp [bind, Except.bind]

theorem struct_eq_ok {names : List String} {a : α} (h : struct names read value = .ok a) :
    read (named names value) = .ok a := by
  unfold struct at h
  split at h
  · exact h
  · cases h

theorem named_of_isObject {names : List String} (h : value.isObject) :
    named names value = value := by
  cases value <;> first | rfl | cases h

theorem required_eq_ok {a : α} (h : required read name value = .ok a) :
    ∃ field, value.get name = some field ∧ read field = .ok a := by
  unfold required at h
  split at h
  · exact ⟨_, ‹_›, h⟩
  · cases h

theorem asI32_eq_ok {n : ℤ} (h : asI32 value = .ok n) :
    asInt value = some n ∧ -2 ^ 31 ≤ n ∧ n < 2 ^ 31 := by
  unfold asI32 at h
  split at h
  · rename_i m hm
    cases h
    obtain ⟨hint, hrange⟩ := Option.filter_eq_some_iff.mp hm
    exact ⟨hint, of_decide_eq_true hrange⟩
  · cases h

/-- The cast keeps exactly the counts that are not negative. -/
theorem castU32_eq_capped_iff {n : ℤ} (hle : -2 ^ 31 ≤ n) (hlt : n < 2 ^ 31) :
    castU32 n = capped n ↔ 0 ≤ n := by
  unfold castU32 capped u32Max
  omega

@[simp] theorem reported_append (xs ys : List StreamEvent) :
    reported (xs ++ ys) = reported xs ++ reported ys := List.filterMap_append

theorem reported_choiceEvents (choices : List (Option String × Option String)) :
    reported (choiceEvents choices) = [] := by
  unfold choiceEvents
  split <;> rfl

theorem asU64_eq_some {n : ℕ} (h : asU64 value = some n) : asInt value = some (n : ℤ) := by
  obtain ⟨m, hm, rfl⟩ := Option.map_eq_some_iff.mp h
  obtain ⟨hint, hpos⟩ := Option.filter_eq_some_iff.mp hm
  rw [hint, Int.toNat_of_nonneg (of_decide_eq_true hpos)]

theorem readUsage_eq_ok {usage : JsonValue} {counts : Usage} (h : readUsage usage = .ok counts) :
    (count usage "prompt_tokens" = some counts.promptTokens ∧
      -2 ^ 31 ≤ counts.promptTokens ∧ counts.promptTokens < 2 ^ 31) ∧
    count usage "completion_tokens" = some counts.completionTokens ∧
      -2 ^ 31 ≤ counts.completionTokens ∧ counts.completionTokens < 2 ^ 31 := by
  have h := struct_eq_ok h
  simp only [bind_eq_ok] at h
  obtain ⟨prompt, hprompt, completion, hcompletion, _, -, h⟩ := h
  cases h
  have hcount {name : String} {n : ℤ} (hn : required asI32 name (named usageFields usage) = .ok n) :
      count usage name = some n ∧ -2 ^ 31 ≤ n ∧ n < 2 ^ 31 := by
    obtain ⟨field, hfield, hread⟩ := required_eq_ok hn
    obtain ⟨hint, hrange⟩ := asI32_eq_ok hread
    exact ⟨by rw [count, hfield, Option.bind_some, hint], hrange⟩
  exact ⟨hcount hprompt, hcount hcompletion⟩

theorem parseNormalized_reported {events : List StreamEvent} {usage : JsonValue}
    (h : parseNormalized value = .ok events) (found : usageOf value = some usage) :
    ∃ counts, readUsage usage = .ok counts ∧
      reported events = [(castU32 counts.promptTokens, castU32 counts.completionTokens)] := by
  obtain ⟨hfield, hnull⟩ := Option.filter_eq_some_iff.mp found
  have h := struct_eq_ok h
  simp only [bind_eq_ok] at h
  obtain ⟨_, -, _, -, _, -, _, -, choices, -, read, hread, h⟩ := h
  cases h
  rw [optional, hfield] at hread
  cases husage : readUsage usage with
  | error e => cases usage <;> simp_all [Except.map, JsonValue.isNull]
  | ok counts =>
    have hsome : read = some counts := by
      cases usage <;> simp_all [Except.map, JsonValue.isNull]
    subst hsome
    refine ⟨counts, rfl, ?_⟩
    rw [reported_append, reported_choiceEvents]
    rfl

theorem ensure_eq_ok {ok : Bool} {message : String} {u : Unit} (h : ensure ok message = .ok u) :
    ok := by
  unfold ensure at h
  split at h
  · assumption
  · cases h

theorem parseNative_reported {events : List StreamEvent} {usage : JsonValue} {forward : Bool}
    (h : parseNativeOpenaiEvent value forward = .ok events) (found : usageOf value = some usage) :
    ∃ prompt completion : ℕ, count usage "prompt_tokens" = some (prompt : ℤ) ∧
      count usage "completion_tokens" = some (completion : ℤ) ∧
      reported events = [(min prompt u32Max, min completion u32Max)] := by
  simp only [parseNativeOpenaiEvent, bind_eq_ok] at h
  obtain ⟨_, hvalid, h⟩ := h
  cases h
  simp only [validateNativeOpenaiChunk, bind_eq_ok] at hvalid
  obtain ⟨_, hobject, _, -, _, -, _, -, _, -, _, -, _, -, hvalid⟩ := hvalid
  rw [usageOf, named_of_isObject (ensure_eq_ok hobject)] at found
  simp only [found, validateUsage, bind_eq_ok] at hvalid
  obtain ⟨_, husage, hcounts⟩ := hvalid
  have hcounts := ensure_eq_ok hcounts
  simp only [List.all_cons, Bool.and_eq_true, Option.isSome_iff_exists] at hcounts
  obtain ⟨⟨prompt, hprompt⟩, ⟨completion, hcompletion⟩, -⟩ := hcounts
  have hcount {name : String} {n : ℕ} (hn : (usage.get name).bind asU64 = some n) :
      count usage name = some (n : ℤ) ∧ nativeCount usage name = some (min n u32Max) := by
    obtain ⟨field, hfield, hread⟩ := Option.bind_eq_some_iff.mp hn
    refine ⟨?_, by rw [nativeCount, hn]; rfl⟩
    rw [count, named_of_isObject (ensure_eq_ok husage), hfield, Option.bind_some,
      asU64_eq_some hread]
  refine ⟨prompt, completion, (hcount hprompt).1, (hcount hcompletion).1, ?_⟩
  have hnative : nativeUsage value = some (min prompt u32Max, min completion u32Max) := by
    simp [nativeUsage, (Option.filter_eq_some_iff.mp found).1, (hcount hprompt).2,
      (hcount hcompletion).2]
  rw [hnative, reported_append]
  split <;> rfl

end Readers

/-- **The counts of an accepted chunk are reported as they are, capped, exactly if neither is
negative**; the native mode accepts no negative one. -/
theorem usage_transferred (value usage : JsonValue) (mode : ChatStreamMode)
    (events : List StreamEvent) (found : usageOf value = some usage)
    (noError : extractUpstreamError value = none)
    (accepted : parseOpenaiEventWithMode value mode = .ok events) :
    ∃ prompt completion, count usage "prompt_tokens" = some prompt ∧
      count usage "completion_tokens" = some completion ∧
      (reported events = [(capped prompt, capped completion)] ↔ 0 ≤ prompt ∧ 0 ≤ completion) ∧
      (mode ≠ .normalized → 0 ≤ prompt ∧ 0 ≤ completion) := by
  unfold parseOpenaiEventWithMode at accepted
  rw [noError] at accepted
  cases mode with
  | normalized =>
    obtain ⟨counts, hread, hreported⟩ := parseNormalized_reported accepted found
    obtain ⟨⟨hp, hple, hplt⟩, hc, hcle, hclt⟩ := readUsage_eq_ok hread
    refine ⟨_, _, hp, hc, ?_, fun h => absurd rfl h⟩
    rw [hreported, ← castU32_eq_capped_iff hple hplt, ← castU32_eq_capped_iff hcle hclt]
    simp
  | native forwardUsage =>
    obtain ⟨prompt, completion, hp, hc, hreported⟩ := parseNative_reported accepted found
    have hnonneg : 0 ≤ (prompt : ℤ) ∧ 0 ≤ (completion : ℤ) :=
      ⟨Int.natCast_nonneg _, Int.natCast_nonneg _⟩
    exact ⟨prompt, completion, hp, hc, iff_of_true hreported hnonneg, fun _ => hnonneg⟩

def usageObject (prompt : String) : JsonValue :=
  .object [("completion_tokens", .number "7"), ("prompt_tokens", .number prompt),
    ("total_tokens", .number "7")]

def usageChunk (prompt : String) : JsonValue :=
  .object [("choices", .array []), ("usage", usageObject prompt)]

theorem usage_transferred_chunk :
    parseOpenaiEventWithMode (usageChunk "5") .normalized = .ok [.usage 5 7] ∧
      count (usageObject "5") "prompt_tokens" = some 5 ∧
      count (usageObject "5") "completion_tokens" = some 7 ∧
      reported [.usage 5 7] = [(capped 5, capped 7)] := by
  obtain ⟨prompt, completion, hp, hc, h, -⟩ :=
    usage_transferred (usageChunk "5") (usageObject "5") .normalized [.usage 5 7] rfl rfl rfl
  have hfive : count (usageObject "5") "prompt_tokens" = some 5 := by decide +kernel
  have hseven : count (usageObject "5") "completion_tokens" = some 7 := by decide +kernel
  obtain rfl := Option.some.inj (hfive.symm.trans hp)
  obtain rfl := Option.some.inj (hseven.symm.trans hc)
  exact ⟨rfl, hfive, hseven, h.mpr (by decide)⟩

/-- Both structures as arrays. -/
example : parseOpenaiEventWithMode (.array [.string "i", .string "o", .number "1", .string "m",
    .array [], .array [.number "5", .number "7", .number "12"]]) .normalized =
      .ok [.usage 5 7] := rfl

/-- A negative count becomes a large one. -/
theorem negative_usage_billed :
    count (usageObject "-1") "prompt_tokens" = some (-1) ∧
    parseOpenaiEventWithMode (usageChunk "-1") .normalized = .ok [.usage 4294967295 7] :=
  ⟨rfl, rfl⟩

end KeyCompute.OpenAi
