import KeyCompute.Database.Value

/-!
# The bounded decoder of server-sent events

`BoundedSseDecoder` cuts a byte stream into frames at a blank line.  A line ends at `\n`, at
`\r\n` or at a lone `\r`, and a `\r` that is the last byte of the buffer ends nothing yet, since
its `\n` may still arrive.  A frame becomes text when it is taken out of the buffer, and only then
is it parsed into its `event` and `data` fields.

The two loops of the source are recursions on the number of bytes left.
-/

namespace KeyCompute.Sse

/-- `MAX_NATIVE_SSE_FRAME_BYTES`. -/
def maxFrameBytes : ℕ := 256 * 1024

/-- `MAX_NATIVE_SSE_EVENTS`. -/
def maxEvents : ℕ := 4096

/-- `MAX_NATIVE_SSE_TOTAL_BYTES`. -/
def maxTotalBytes : ℕ := 8 * 1024 * 1024

/-- The bytes one turn of `push` adds to the buffer. -/
def chunkBytes : ℕ := 16 * 1024

structure SseFrame where
  raw : String
  event : Option String
  data : String
  deriving DecidableEq

inductive SseDecodeError where
  | invalidUtf8
  | frameTooLarge
  | eventLimit
  | totalLimit
  | truncated
  deriving DecidableEq

structure BoundedSseDecoder where
  buffer : List UInt8 := []
  totalBytes : ℕ := 0
  events : ℕ := 0
  scanFrom : ℕ := 0
  deriving DecidableEq

/-! ## Lines -/

/-- The length of the line end at a position, if there is one. -/
def eol (bytes : List UInt8) (i : ℕ) (eof : Bool) : Option ℕ :=
  match bytes[i]? with
  | some 10 => some 1
  | some 13 =>
    if bytes[i + 1]? = some 10 then some 2
    else if i + 1 < bytes.length ∨ eof then some 1
    else none
  | _ => none

/-- The loop of `delimiter_end`, with a bound on the turns left. -/
def delimiterScan (bytes : List UInt8) (eof : Bool) : ℕ → ℕ → Option ℕ
  | 0, _ => none
  | turns + 1, i =>
    if i < bytes.length then
      match eol bytes i eof with
      | some first =>
        match eol bytes (i + first) eof with
        | some second => some (i + first + second)
        | none => delimiterScan bytes eof turns (i + first)
      | none => delimiterScan bytes eof turns (i + 1)
    else none

/-- `delimiter_end`: the end of the first blank line at or after a position. -/
def delimiterEnd (bytes : List UInt8) (start : ℕ) (eof : Bool) : Option ℕ :=
  delimiterScan bytes eof (bytes.length - start) start

/-- The lines of a text, without their ends; no line follows the last end. -/
def lines : List Char → List Char → List (List Char)
  | [], current => if current.isEmpty then [] else [current.reverse]
  | '\r' :: '\n' :: rest, current => current.reverse :: lines rest []
  | '\r' :: rest, current => current.reverse :: lines rest []
  | '\n' :: rest, current => current.reverse :: lines rest []
  | c :: rest, current => lines rest (c :: current)

/-- A field's name and value: the text before the first colon and the text after it, without
one leading blank. -/
def fieldOf (line : List Char) : String × String :=
  match line.dropWhile (· ≠ ':') with
  | [] => (String.ofList line, "")
  | _ :: ' ' :: value => (String.ofList (line.takeWhile (· ≠ ':')), String.ofList value)
  | _ :: value => (String.ofList (line.takeWhile (· ≠ ':')), String.ofList value)

/-- What the lines read so far say. -/
structure Fields where
  event : Option String := none
  data : List String := []

/-- One line of a frame; a line that begins with a colon is a comment. -/
def Fields.read (fields : Fields) (line : List Char) : Fields :=
  if line.head? = some ':' then fields
  else
    match fieldOf line with
    | ("event", value) => { fields with event := some value }
    | ("data", value) => { fields with data := fields.data ++ [value] }
    | _ => fields

def byteOrderMark : Char := Char.ofNat 0xFEFF

def parseFrame (raw : String) (first : Bool) : SseFrame :=
  let text := if first ∧ raw.toList.head? = some byteOrderMark then raw.toList.tail else raw.toList
  let fields := (lines text []).foldl Fields.read {}
  { raw, event := fields.event, data := "\n".intercalate fields.data }

/-! ## The decoder -/

namespace BoundedSseDecoder

def takeFrame (decoder : BoundedSseDecoder) (stop : ℕ) :
    Except SseDecodeError (SseFrame × BoundedSseDecoder) :=
  if stop > maxFrameBytes then .error .frameTooLarge
  else if decoder.events + 1 > maxEvents then .error .eventLimit
  else
    match String.fromUTF8? ⟨(decoder.buffer.take stop).toArray⟩ with
    | none => .error .invalidUtf8
    | some raw =>
      .ok (parseFrame raw (decoder.events + 1 = 1),
        { decoder with
          events := decoder.events + 1, buffer := decoder.buffer.drop stop, scanFrom := 0 })

/-- The inner loop of `push`: every frame whose end is in the buffer. -/
def takeFrames : ℕ → BoundedSseDecoder → List SseFrame →
    Except SseDecodeError (List SseFrame × BoundedSseDecoder)
  | 0, decoder, frames => .ok (frames, decoder)
  | turns + 1, decoder, frames =>
    match delimiterEnd decoder.buffer decoder.scanFrom false with
    | none => .ok (frames, decoder)
    | some stop =>
      match decoder.takeFrame stop with
      | .error e => .error e
      | .ok (frame, decoder) => takeFrames turns decoder (frames ++ [frame])

/-- Where the next scan begins: only a delimiter that may be split is scanned again. -/
def nextScan (buffer : List UInt8) : ℕ :=
  let start := buffer.length - 4
  if 0 < start ∧ buffer[start - 1]? = some 13 ∧ buffer[start]? = some 10 then start - 1 else start

def pushChunk (decoder : BoundedSseDecoder) (frames : List SseFrame) (chunk : List UInt8) :
    Except SseDecodeError (List SseFrame × BoundedSseDecoder) :=
  let buffer := decoder.buffer ++ chunk
  match takeFrames (buffer.length + 1) { decoder with buffer } frames with
  | .error e => .error e
  | .ok (frames, decoder) =>
    if decoder.buffer.length > maxFrameBytes then .error .frameTooLarge
    else .ok (frames, { decoder with scanFrom := nextScan decoder.buffer })

def pushChunks : List (List UInt8) → BoundedSseDecoder → List SseFrame →
    Except SseDecodeError (List SseFrame × BoundedSseDecoder)
  | [], decoder, frames => .ok (frames, decoder)
  | chunk :: rest, decoder, frames =>
    match decoder.pushChunk frames chunk with
    | .error e => .error e
    | .ok (frames, decoder) => pushChunks rest decoder frames

def push (decoder : BoundedSseDecoder) (bytes : List UInt8) :
    Except SseDecodeError (List SseFrame × BoundedSseDecoder) :=
  if decoder.totalBytes + bytes.length > maxTotalBytes then .error .totalLimit
  else
    pushChunks (bytes.toChunks chunkBytes)
      { decoder with totalBytes := decoder.totalBytes + bytes.length } []

def finish (decoder : BoundedSseDecoder) :
    Except SseDecodeError (Option SseFrame × BoundedSseDecoder) :=
  if decoder.buffer.isEmpty then .ok (none, decoder)
  else if delimiterEnd decoder.buffer 0 true = some decoder.buffer.length then
    match decoder.takeFrame decoder.buffer.length with
    | .error e => .error e
    | .ok (frame, decoder) => .ok (some frame, decoder)
  else .error .truncated

end BoundedSseDecoder

/-- A text that decodes to exactly one frame, which is the whole text. -/
def decodeOne (raw : String) : Option SseFrame :=
  match ({} : BoundedSseDecoder).push (Text.bytes raw) with
  | .error _ => none
  | .ok (frames, decoder) =>
    match decoder.finish with
    | .error _ => none
    | .ok (last, _) =>
      match frames ++ last.toList with
      | [frame] => if frame.raw = raw then some frame else none
      | _ => none

end KeyCompute.Sse
