import KeyCompute.Json.Encode
import KeyCompute.Database.Value

/-!
# Managed responses and conversations

The rows of `scoped_responses` and `scoped_conversations` and the values the platform derives from
them.  All rows belong to one scope, so tenant, user and access mode are not repeated in them, and
a `JSONB` column that the schema checks to be an array is a list of values.
-/

namespace KeyCompute

/-- `ApiError`, as far as the modelled functions return it. -/
inductive ApiError where
  | provider (message : String)
  | serviceUnavailable (message : String)
  | internal (message : String)
  | badRequest (message : String)
  | notFound (message : String)
  | forbidden (message : String)
  | auth (message : String)
  | conflict (message : String)
  | rateLimit (message : String)
  deriving DecidableEq

/-- `ModelAccessMode`, without the account pool, for which there is no scope. -/
inductive ModelAccessMode where
  | passthrough
  | nodeDispatch
  deriving DecidableEq

/-- `Uuid::simple`: the digits without hyphens. -/
def Uuid.simple (u : Uuid) : String := String.ofList u.hexDigits

namespace Scoped

/-! ## Constants and errors -/

def maxHistoryItems : ℕ := 512

/-- `MAX_HISTORY_BYTES`, also the largest request. -/
def maxHistoryBytes : ℕ := 2 * 1024 * 1024

def maxResponseBytes : ℕ := 8 * 1024 * 1024

def maxStreamEvents : ℕ := 4096

/-- The bytes of one stored event, and the budget kept for the terminal one. -/
def maxEventBytes : ℕ := 512 * 1024

/-- A span in seconds, in the unit of `Timestamp`. -/
def seconds (n : ℤ) : ℤ := n * 1000000

def storedTtl : ℤ := 30 * 24 * 60 * 60

def tempTtl : ℤ := 600

def maxRetainedResponses : ℕ := 1024

def maxConversations : ℕ := 256

def storage : ApiError :=
  .serviceUnavailable "Platform response state is temporarily unavailable"

def missing : ApiError :=
  .notFound "Response or conversation was not found in this user and execution mode"

/-! ## Rows -/

inductive ResponseStatus where
  | queued
  | inProgress
  | completed
  | incomplete
  | failed
  | cancelled
  deriving DecidableEq

namespace ResponseStatus

def asStr : ResponseStatus → String
  | queued => "queued"
  | inProgress => "in_progress"
  | completed => "completed"
  | incomplete => "incomplete"
  | failed => "failed"
  | cancelled => "cancelled"

/-- `matches!(status, "queued" | "in_progress")`. -/
def active : ResponseStatus → Bool
  | queued => true
  | inProgress => true
  | _ => false

/-- `matches!(status, "completed" | "incomplete")`: the response has output. -/
def delivers : ResponseStatus → Bool
  | completed => true
  | incomplete => true
  | _ => false

end ResponseStatus

structure ResponseRecord where
  id : String
  accountId : Option Uuid
  model : String
  requestId : Uuid
  ownerId : Uuid
  status : ResponseStatus
  background : Bool
  storeResponse : Bool
  stream : Bool
  requestJson : JsonValue
  inputJson : List JsonValue
  newInputJson : List JsonValue
  outputJson : List JsonValue
  responseJson : Option JsonValue
  executionJson : Option JsonValue
  previousId : Option String
  conversationId : Option String
  idempotencyHash : Option String
  requestHash : String
  nextSeq : ℕ
  eventBytes : ℕ
  revision : ℕ
  createdAt : Timestamp
  heartbeatAt : Timestamp
  deadlineAt : Timestamp
  expiresAt : Timestamp
  deletedAt : Option Timestamp

namespace ResponseRecord

def active (record : ResponseRecord) : Bool := record.status.active

def retained (record : ResponseRecord) : Bool := record.background || record.storeResponse

def live (record : ResponseRecord) : Bool := record.active && record.deletedAt.isNone

def claim (record : ResponseRecord) : Option String :=
  if record.live then record.conversationId else none

/-- `execution_json ->> 'accounting_pending' = 'true'`. -/
def accountingPending (record : ResponseRecord) : Bool :=
  record.executionJson.any (·.textIsTrue "accounting_pending")

end ResponseRecord

structure ConversationRecord where
  id : String
  accountId : Option Uuid
  model : Option String
  metadataJson : JsonValue
  itemsJson : List JsonValue
  activeResponseId : Option String
  revision : ℕ
  expiresAt : Timestamp
  deletedAt : Option Timestamp

/-- A row of `scoped_response_events`. -/
structure StoredEvent where
  responseId : String
  seq : ℕ
  frame : String
  deriving DecidableEq

/-! ## Items -/

def checkHistory (items : List JsonValue) : Except ApiError Unit :=
  if items.length > maxHistoryItems ∨ (JsonValue.array items).size > maxHistoryBytes then
    .error (.badRequest "Resolved context exceeds 512 items or 2 MiB; no history was truncated")
  else .ok ()

/-- `wrap_items`, with the identifiers drawn for the items. -/
def wrapItems (ids : ℕ → Uuid) (items : List JsonValue) : List JsonValue :=
  items.mapIdx fun i body =>
    .ofFields [("id", .string ("item_" ++ (ids i).simple)), ("body", body)]

def itemBodies (items : List JsonValue) : List JsonValue := items.filterMap (·.get "body")

def metadataPairOk (pair : String × JsonValue) : Bool :=
  pair.1.toList.length ≤ 64 && pair.2.asStr.any fun s => s.toList.length ≤ 512

def metadata (value : Option JsonValue) : Except ApiError JsonValue :=
  match (value.filter fun v => !v.isNull).getD (.object []) with
  | .object fields =>
    if fields.length ≤ 16 ∧ fields.all metadataPairOk then .ok (.object fields)
    else .error (.badRequest
      "metadata must contain at most 16 string pairs (key 64, value 512 characters)")
  | _ => .error (.badRequest
      "metadata must contain at most 16 string pairs (key 64, value 512 characters)")

/-! ## Bodies -/

/-- `created_at.timestamp()`. -/
def unixSeconds (time : Timestamp) : JsonValue := .ofInt (time / 1000000)

def conversationRef (record : ResponseRecord) : JsonValue :=
  .ofOption (record.conversationId.map fun id => .ofFields [("id", .string id)])

def publicResponse (record : ResponseRecord) : JsonValue :=
  match record.responseJson with
  | some value => value
  | none =>
    .ofFields [
      ("id", .string record.id), ("object", .string "response"),
      ("created_at", unixSeconds record.createdAt), ("status", .string record.status.asStr),
      ("model", .string record.model), ("output", .array record.outputJson),
      ("error", .null), ("incomplete_details", .null), ("usage", .null),
      ("background", .bool record.background), ("store", .bool record.storeResponse),
      ("previous_response_id", .ofOption (record.previousId.map .string)),
      ("conversation", conversationRef record),
      ("instructions", .ofOption (record.requestJson.get "instructions")),
      ("metadata", (record.requestJson.get "metadata").getD (.object [])),
      ("tools", (record.requestJson.get "tools").getD (.array [])),
      ("tool_choice", (record.requestJson.get "tool_choice").getD (.string "auto")),
      ("parallel_tool_calls", (record.requestJson.get "parallel_tool_calls").getD (.bool true))]

/-- The requested fields a native response may omit. -/
def requestedFields : List String :=
  ["instructions", "metadata", "tools", "tool_choice", "parallel_tool_calls", "temperature",
    "top_p", "max_output_tokens", "reasoning", "text", "truncation"]

/-- A requested field fills an omission of the native response. -/
def fillOmitted (record : ResponseRecord) (native : JsonValue) (key : String) : JsonValue :=
  match native.get key, record.requestJson.get key with
  | none, some value => native.set key value
  | _, _ => native

/-- The caller's metadata stands over the native one. -/
def withMetadata (record : ResponseRecord) (native : JsonValue) : JsonValue :=
  match record.requestJson.get "metadata" with
  | some value => native.set "metadata" value
  | none => native

/-- The fields the platform owns, in the order they are assigned. -/
def platformFields (record : ResponseRecord) (status : String) : List (String × JsonValue) :=
  [("id", .string record.id), ("object", .string "response"),
    ("created_at", unixSeconds record.createdAt), ("status", .string status),
    ("model", .string record.model), ("background", .bool record.background),
    ("store", .bool record.storeResponse),
    ("previous_response_id", .ofOption (record.previousId.map .string)),
    ("conversation", conversationRef record)]

def finalResponse (record : ResponseRecord) (native : JsonValue) (status : String) : JsonValue :=
  let body := if native.isObject then native else publicResponse record
  let body := withMetadata record (requestedFields.foldl (fillOmitted record) body)
  (platformFields record status).foldl (fun acc field => acc.set field.1 field.2) body

def errorResponse (record : ResponseRecord) (code message : String) : JsonValue :=
  ((publicResponse record).set "error"
    (.ofFields [("code", .string code), ("message", .string message)])).set
      "status" (.string "failed")

end Scoped

end KeyCompute
