import KeyCompute.Json.Value

/-!
# Events of an upstream stream

The events an adapter hands to `try_execute`, which of them commit the response to the client, and
what each one says about the tokens to bill.  Admission permits of large payloads are left out; the
JSON parser and the tokenizer stay parameters.
-/

namespace KeyCompute.Gateway

/-- The library functions the event loop calls. -/
structure Codec where
  /-- `serde_json::from_str::<Value>`, with `none` for an error. -/
  fromStr : String → Option JsonValue
  /-- `token_estimate::estimate_tokens`. -/
  estimateTokens : String → ℕ

inductive NativeStreamEvent where
  | openAiChatJson (body : JsonValue)
  | openAiChatSse (data : JsonValue)
  | openAiResponsesJson (body : JsonValue)
  | openAiResponsesSse (event : String) (data : JsonValue)
  | openAiResponsesHttpError (status : ℕ) (headers : List (String × String)) (body : String)

inductive StreamEvent where
  | delta (content : String) (finishReason : Option String)
  | usage (inputTokens outputTokens : ℕ)
  | inputUsage (inputTokens : ℕ)
  | done
  | error (message : String)
  | raw (data : String)
  | native (event : NativeStreamEvent)

/-! ## What the client has seen -/

def rawEventCommitsResponse (codec : Codec) (data : String) : Bool :=
  match codec.fromStr data with
  | none => true
  | some envelope =>
    if envelope.getStr "kind" ≠ some "anthropic_sse" then true
    else
      let event := envelope.getStr "event"
      let bodyType := (envelope.pointer ["data", "type"]).bind JsonValue.asStr
      !(event = some "ping" ∨ event = some "error") && decide (bodyType ≠ some "error")

def nativeResponsesSseIsError : NativeStreamEvent → Bool
  | .openAiResponsesSse event data =>
    event.toLower = "error" ∨ data.getStr "type" = some "error"
  | _ => false

/-- The native events that report an error: the HTTP error that
`extract_native_responses_http_error` takes out, and an error frame. -/
def NativeStreamEvent.isError : NativeStreamEvent → Bool
  | .openAiResponsesHttpError .. => true
  | event => nativeResponsesSseIsError event

/-- The event is content: once the client has it, no other attempt may serve the request. -/
def StreamEvent.isContent (codec : Codec) : StreamEvent → Bool
  | .delta .. => true
  | .raw data => rawEventCommitsResponse codec data
  | .native event => !event.isError
  | _ => false

/-! ## Estimates of the output -/

def saturatingAdd (a b : ℕ) : ℕ := min (a + b) (2 ^ 32 - 1)

def nonEmptyStr (value : JsonValue) (name : String) : List String :=
  match value.getStr name with
  | some text => if text.isEmpty then [] else [text]
  | none => []

/-- `native_chat_billable_deltas` for one choice. -/
def choiceBillableDeltas (choice : JsonValue) : List String :=
  match (choice.get "delta").or (choice.get "message") with
  | none => []
  | some delta =>
    ["content", "refusal"].flatMap (nonEmptyStr delta) ++
      ((delta.getArray "tool_calls").getD []).flatMap fun toolCall =>
        match toolCall.get "function" with
        | some function => ["name", "arguments"].flatMap (nonEmptyStr function)
        | none => []

def nativeChatBillableDeltas (value : JsonValue) : List String :=
  ((value.getArray "choices").getD []).flatMap choiceBillableDeltas

def estimateChatOutputTokens (codec : Codec) (body : JsonValue) : ℕ :=
  (nativeChatBillableDeltas body).foldl
    (fun tokens delta => saturatingAdd tokens (codec.estimateTokens delta)) 0

mutual

def collectResponsesOutputFragments : JsonValue → List String
  | .array values => collectElements values
  | .object fields =>
    let object := JsonValue.object fields
    ["text", "refusal", "name", "arguments", "input", "code", "diff", "path", "query"].flatMap
        (nonEmptyStr object) ++
      (["commands", "keys"].flatMap fun name =>
        (((object.getArray name).getD []).filterMap JsonValue.asStr).filter
          fun text => !text.isEmpty) ++
      -- only the containers of generated output are entered
      ["output", "content", "summary", "action", "operation"].flatMap fun name =>
        ((collectFields fields).lookup name).getD []
  | _ => []

def collectElements : List JsonValue → List String
  | [] => []
  | value :: rest => collectResponsesOutputFragments value ++ collectElements rest

def collectFields : List (String × JsonValue) → List (String × List String)
  | [] => []
  | (name, value) :: rest => (name, collectResponsesOutputFragments value) :: collectFields rest

end

def estimateResponsesOutputTokens (codec : Codec) (body : JsonValue) : ℕ :=
  match ((body.get "response").getD body).get "output" with
  | none => 0
  | some output =>
    match collectResponsesOutputFragments output with
    | [] => 0
    | fragments => codec.estimateTokens (String.intercalate "\n" fragments)

/-- The type of a Responses frame, which defaults to the name of its event. -/
def responsesEventType (event : String) (data : JsonValue) : String :=
  (data.getStr "type").getD event

def nativeResponsesSseIsTerminal (event : String) (data : JsonValue) : Bool :=
  responsesEventType event data ∈
    ["response.completed", "response.failed", "response.incomplete"]

/-- `native_responses_billable_delta`, for a Responses frame. -/
def nativeResponsesBillableDelta (event : String) (data : JsonValue) : Option String :=
  if responsesEventType event data ∈
      ["response.output_text.delta", "response.refusal.delta",
        "response.function_call_arguments.delta", "response.mcp_call_arguments.delta",
        "response.custom_tool_call_input.delta", "response.code_interpreter_call_code.delta",
        "response.reasoning_text.delta", "response.reasoning_summary_text.delta"] then
    data.getStr "delta"
  else none

end KeyCompute.Gateway
