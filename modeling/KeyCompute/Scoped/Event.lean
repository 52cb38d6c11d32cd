import KeyCompute.Sse.Decoder
import KeyCompute.Scoped.Record

/-!
# Translation of native stream events

A native frame is passed on with the platform's identifier and sequence number in it.  The frame
has to decode as exactly one frame of the same bytes; its data is rewritten only when it is a
`response.` event, and a terminal event has to carry a response in that status.

`terminalFrame` is the frame that ends a response's stream.  Its body is the stored one, whatever
the native stream said.

`serde_json::from_str` stays a parameter, `fromStr`, with `none` for an error.
-/

namespace KeyCompute.Scoped

open Sse (BoundedSseDecoder SseFrame)

structure TranslatedEvent where
  frame : String
  finalResponse : Option JsonValue
  terminalStatus : Option ResponseStatus

def invalidEvent : ApiError := .provider "Invalid managed Responses event"

/-- The single frame of a text, as `translate_with` decodes it. -/
def singleFrame (raw : String) : Except ApiError SseFrame :=
  match BoundedSseDecoder.push {} (Text.bytes raw) with
  | .error _ => .error invalidEvent
  | .ok (frames, decoder) =>
    match decoder.finish with
    | .error _ => .error invalidEvent
    | .ok (last, _) =>
      match frames ++ last.toList with
      | [frame] => if frame.raw = raw then .ok frame else .error invalidEvent
      | _ => .error invalidEvent

def startsWith (s start : String) : Bool := start.toList.isPrefixOf s.toList

/-- The event name, or the `type` of the body without one. -/
def eventKind (frame : SseFrame) (body : JsonValue) : String :=
  match frame.event.filter (· ≠ "") with
  | some name => name
  | none => (body.getStr "type").getD ""

def terminalKind (kind : String) : Option ResponseStatus :=
  if kind = "response.completed" then some .completed
  else if kind = "response.incomplete" then some .incomplete
  else if kind = "response.failed" then some .failed
  else none

def identified (platformId : String) (sequence : ℕ) (body : JsonValue) : JsonValue :=
  let body := body.set "sequence_number" (.ofInt sequence)
  if (body.get "response_id").any JsonValue.isString then
    body.set "response_id" (.string platformId)
  else body

/-- The response inside an event's body, decorated and under the platform's identifier. -/
def decorated (platformId : String) (decorate : JsonValue → JsonValue) (body : JsonValue) :
    JsonValue :=
  match body.get "response" with
  | some response =>
    if response.getStr "object" = some "response" then
      body.set "response" ((decorate response).set "id" (.string platformId))
    else body
  | none => body

/-- The rewritten body of an event, with the final response a terminal event carries. -/
structure RewrittenBody where
  body : JsonValue
  finalResponse : Option JsonValue
  terminalStatus : Option ResponseStatus

/-- The rewriting of a `response.` event. -/
def rewriteBody (platformId : String) (sequence : ℕ) (decorate : JsonValue → JsonValue)
    (kind : String) (body : JsonValue) : Except ApiError RewrittenBody :=
  if ¬ body.isObject then .error invalidEvent
  else
    let body := decorated platformId decorate (identified platformId sequence body)
    match terminalKind kind with
    | none => .ok { body, finalResponse := none, terminalStatus := none }
    | some status =>
      match body.get "response" with
      | none => .error invalidEvent
      | some response =>
        if response.getStr "object" = some "response" ∧
            response.getStr "status" = some status.asStr then
          .ok { body, finalResponse := some response, terminalStatus := some status }
        else .error invalidEvent

/-- The rewriting of a frame's data, `none` when it stays as it is. -/
def rewriteData (fromStr : String → Option JsonValue) (platformId : String) (sequence : ℕ)
    (decorate : JsonValue → JsonValue) (frame : SseFrame) :
    Except ApiError (Option RewrittenBody) :=
  if frame.data = "" then .ok none
  else
    match fromStr frame.data with
    | none => .ok none
    | some body =>
      let kind := eventKind frame body
      if startsWith kind "response." then
        (rewriteBody platformId sequence decorate kind body).map some
      else .ok none

def newlineOf (raw : String) : String :=
  if (raw.toList.zip raw.toList.tail).contains ('\r', '\n') then "\r\n"
  else if raw.toList.contains '\n' then "\n"
  else "\r"

/-- `split(['\r', '\n'])` without the empty pieces. -/
def pieces : List Char → List Char → List (List Char)
  | [], current => if current.isEmpty then [] else [current.reverse]
  | c :: rest, current =>
    if c = '\r' ∨ c = '\n' then
      if current.isEmpty then pieces rest [] else current.reverse :: pieces rest []
    else pieces rest (c :: current)

def isField (name line : String) : Bool := line = name || startsWith line (name ++ ":")

/-- One line of the new frame: the old identifier goes, the first line of data takes the new
body, and every other line stays. -/
def rewriteLine (newline : String) (replacement : Option String) (acc : String × Bool)
    (line : String) : String × Bool :=
  if isField "id" line then acc
  else
    match isField "data" line, replacement with
    | true, some text =>
      if acc.2 then acc else (acc.1 ++ "data: " ++ text ++ newline, true)
    | _, _ => (acc.1 ++ line ++ newline, acc.2)

def rewriteLines (raw : String) (sequence : ℕ) (replacement : Option String) : String :=
  let newline := newlineOf raw
  let bom := raw.toList.head? = some Sse.byteOrderMark
  let content := if bom then raw.toList.tail else raw.toList
  let mark := if bom then Sse.byteOrderMark.toString else ""
  let start := mark ++ "id: " ++ toString sequence ++ newline
  let body := ((pieces content []).map String.ofList).foldl (rewriteLine newline replacement)
    (start, false)
  body.1 ++ newline

/-- `translate_with`.  The sequence number of the source is signed, and never negative here. -/
def translateWith (fromStr : String → Option JsonValue) (raw platformId : String) (sequence : ℕ)
    (decorate : JsonValue → JsonValue) : Except ApiError TranslatedEvent :=
  if platformId = "" ∨ platformId.utf8ByteSize > 128 then .error invalidEvent
  else
    match singleFrame raw with
    | .error e => .error e
    | .ok parsed =>
      match rewriteData fromStr platformId sequence decorate parsed with
      | .error e => .error e
      | .ok rewritten =>
        let frame := rewriteLines raw sequence (rewritten.map (·.body.encode))
        if frame.utf8ByteSize > Sse.maxFrameBytes then
          .error (.provider "Managed SSE event exceeds the frame limit")
        else
          .ok {
            frame
            finalResponse := rewritten.bind (·.finalResponse)
            terminalStatus := rewritten.bind (·.terminalStatus) }

def translate (fromStr : String → Option JsonValue) (raw platformId : String) (sequence : ℕ) :
    Except ApiError TranslatedEvent :=
  translateWith fromStr raw platformId sequence id

/-! ## The end of a stream -/

def terminalName (status : String) : String :=
  if status = "completed" then "response.completed"
  else if status = "incomplete" then "response.incomplete"
  else "response.failed"

def terminalBody (kind : String) (seq : ℕ) (body : JsonValue) : JsonValue :=
  .ofFields [("type", .string kind), ("sequence_number", .ofInt seq), ("response", body)]

/-- `rewrite_frame` with a final body. -/
def rewriteFrame (fromStr : String → Option JsonValue) (raw id : String) (seq : ℕ)
    (body : JsonValue) : Except ApiError String :=
  let status := (body.getStr "status").getD "failed"
  match translate fromStr raw id seq with
  | .error e => .error e
  | .ok native =>
    if native.terminalStatus.map ResponseStatus.asStr = some status then
      (translateWith fromStr raw id seq fun _ => body).map (·.frame)
    else
      let kind := terminalName status
      .ok ("id: " ++ toString seq ++ "\nevent: " ++ kind ++ "\ndata: " ++
        (terminalBody kind seq body).encode ++ "\n\n")

def cancelledFrame (id : String) (seq : ℕ) : String :=
  "event: error\ndata: " ++
    (JsonValue.ofFields [("type", .string "error"), ("sequence_number", .ofInt seq),
      ("code", .string "response_cancelled"), ("message", .string "Response was cancelled"),
      ("response_id", .string id)]).encode ++ "\n\n"

/-- The frame of a response that ended without a native terminal event. -/
def plainFrame (kind : String) (seq : ℕ) (body : JsonValue) : String :=
  "event: " ++ kind ++ "\ndata: " ++ (terminalBody kind seq body).encode ++ "\n\n"

/-- The frame of `terminal_event`. -/
def terminalFrame (fromStr : String → Option JsonValue) (row : ResponseRecord)
    (raw : Option String) : Except ApiError String :=
  if row.status = .cancelled then .ok (cancelledFrame row.id row.nextSeq)
  else
    match raw with
    | some raw => rewriteFrame fromStr raw row.id row.nextSeq (publicResponse row)
    | none => .ok (plainFrame (terminalName row.status.asStr) row.nextSeq (publicResponse row))

end KeyCompute.Scoped
