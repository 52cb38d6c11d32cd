import KeyCompute.Database.Value
import KeyCompute.Framing.Cut

/-!
# The JSON event decoder of the WebSocket

`SseJsonDecoder` (`responses_websocket.rs`) reads a stream line by line: a line ends at `\n`, and
one `\r` before it is dropped.  The limit of a line is checked on the line, and at the end of every
`push` on the unfinished rest, where a `\r` whose `\n` has not arrived still counts.  So a line of
exactly the limit may be too long by the cut of its chunks (`cut_decides`), and no other line is:
`json_decoder_chunking` says that the events depend on the chunks only if there is such a line, and
then always, unless the bytes fail in any chunks.

`serde_json::from_str` is a parameter, and the memory reservations succeed.
-/

namespace KeyCompute.WebSocket

open Framing List

/-- The arguments of `with_limits`. -/
structure Limits where
  maxLineBytes : ℕ
  maxEventBytes : ℕ

/-- The lines of data of the current event, and the events so far. -/
structure Reading (V : Type) where
  dataLines : List String := []
  dataBytes : ℕ := 0
  events : List V := []

structure SseJsonDecoder (V : Type) where
  buffer : List UInt8 := []
  reading : Reading V := {}

section Source

variable {V : Type} (fromStr : String → Option V) (limits : Limits)

def flush (r : Reading V) : Except String (Reading V) :=
  if r.dataLines.isEmpty then .ok r
  else
    let data := "\n".intercalate r.dataLines
    if Text.trim data = "[DONE]" then .ok ⟨[], 0, r.events⟩
    else
      match fromStr data with
      | none => .error "Responses stream contained an invalid JSON event."
      | some event => .ok ⟨[], 0, r.events ++ [event]⟩

/-- The part of `handle_line` for a line of data. -/
def pushData (data : List Char) (r : Reading V) : Except String (Reading V) :=
  let data := String.ofList (if [' '].isPrefixOf data then data.drop 1 else data)
  let nextBytes := r.dataBytes + (if r.dataLines.isEmpty then 0 else 1) + data.utf8ByteSize
  if 2 ^ 64 ≤ nextBytes then .error "Responses stream event size overflowed."
  else if limits.maxEventBytes < nextBytes then
    .error "Responses stream event exceeded the configured size limit."
  else .ok { r with dataLines := r.dataLines ++ [data], dataBytes := nextBytes }

def lineTooLong : String := "Responses stream line exceeded the configured size limit."

def handleLine (line : List UInt8) (r : Reading V) : Except String (Reading V) :=
  if limits.maxLineBytes < line.length then .error lineTooLong
  else
    match String.fromUTF8? ⟨line.toArray⟩ with
    | none => .error "Responses stream contained invalid UTF-8."
    | some line =>
      if line.isEmpty then flush fromStr r
      else if "data:".toList.isPrefixOf line.toList then pushData limits (line.toList.drop 5) r
      else .ok r

/-- The end of the first line of the buffer. -/
def lineEnd (buffer : List UInt8) : Option ℕ := (buffer.findIdx? (· == 10)).map (· + 1)

/-- `line.pop()`, and once more if a `\r` is last. -/
def popEnd (line : List UInt8) : List UInt8 :=
  if line.dropLast.getLast? = some 13 then line.dropLast.dropLast else line.dropLast

theorem lineEnd_append {buffer : List UInt8} (more : List UInt8) :
    lineEnd (buffer ++ more) =
      (lineEnd buffer).or ((lineEnd more).map (· + buffer.length)) := by
  simp only [lineEnd, findIdx?_append]
  cases buffer.findIdx? (· == 10) with
  | some i => rfl
  | none => simp [Function.comp_def, Nat.add_right_comm]

theorem lineEnd_le {buffer : List UInt8} {n : ℕ} (h : lineEnd buffer = some n) :
    0 < n ∧ n ≤ buffer.length := by
  obtain ⟨i, found, rfl⟩ := Option.map_eq_some_iff.1 h
  have := (findIdx?_eq_some_iff_findIdx_eq.1 found).1
  omega

/-- The cut at a `\n`. -/
def newline : Cut UInt8 where
  cut := lineEnd
  pos h := (lineEnd_le h).1
  le h := (lineEnd_le h).2
  stable more h := by rw [lineEnd_append, h]; rfl
  seen {buffer n} more h lt := by
    rw [lineEnd_append] at h
    cases first : lineEnd buffer with
    | some m => rwa [first] at h
    | none =>
      simp only [first, Option.none_or, Option.map_eq_some_iff] at h
      omega

/-- The loop of `push` over complete lines. -/
def readLines (lines : List (List UInt8)) (r : Reading V) : Except String (Reading V) :=
  lines.foldlM (fun r line => handleLine fromStr limits (popEnd line) r) r

def push (d : SseJsonDecoder V) (chunk : List UInt8) : Except String (SseJsonDecoder V) := do
  let (lines, rest) := newline.split (d.buffer ++ chunk)
  let reading ← readLines fromStr limits lines d.reading
  if limits.maxLineBytes < rest.length then .error lineTooLong else pure ⟨rest, reading⟩

def finish (d : SseJsonDecoder V) : Except String (List V) := do
  let reading ← if d.buffer.isEmpty then pure d.reading
    else handleLine fromStr limits d.buffer d.reading
  let reading ← flush fromStr reading
  pure reading.events

/-- All chunks pushed to a new decoder, and the end. -/
def decode (chunks : List (List UInt8)) : Except String (List V) :=
  chunks.foldlM (push fromStr limits) {} >>= finish fromStr limits

/-- What the bytes mean, without any chunk. -/
def meaning (bytes : List UInt8) (r : Reading V) : Except String (List V) := do
  let reading ← readLines fromStr limits (newline.split bytes).1 r
  finish fromStr limits ⟨(newline.split bytes).2, reading⟩

end Source

/-- No line of exactly the limit ends in `\r\n`. -/
def Clear (limits : Limits) (bytes : List UInt8) : Prop :=
  ∀ line ∈ (newline.split bytes).1, line.length = limits.maxLineBytes + 2 →
    line.dropLast.getLast? ≠ some 13

variable {V : Type} {fromStr : String → Option V} {limits : Limits}

theorem toOption_bind {α β : Type} (x : Except String α) (f : α → Except String β) :
    (x >>= f).toOption = x.toOption.bind fun a => (f a).toOption := by
  cases x <;> rfl

theorem readLines_of_long {lines : List (List UInt8)} {line : List UInt8} (mem : line ∈ lines)
    (long : limits.maxLineBytes < (popEnd line).length) (r : Reading V) :
    (readLines fromStr limits lines r).toOption = none := by
  induction lines generalizing r with
  | nil => cases mem
  | cons first rest ih =>
    rw [readLines, foldlM_cons, toOption_bind]
    rcases mem_cons.1 mem with rfl | mem
    · rw [handleLine, if_pos long]
      rfl
    · rw [Option.bind_eq_none_iff]
      exact fun r _ => ih mem r

theorem finish_of_long {buffer : List UInt8} (long : limits.maxLineBytes < buffer.length)
    (r : Reading V) : finish fromStr limits ⟨buffer, r⟩ = .error lineTooLong := by
  have nonempty : ¬ buffer.isEmpty = true := by
    rw [isEmpty_iff_length_eq_zero]
    omega
  rw [finish, if_neg nonempty, handleLine, if_pos long]
  rfl

/-- An unfinished rest that is too long belongs to a line that is too long. -/
theorem meaning_of_long_rest {rest more : List UInt8} (unfinished : lineEnd rest = none)
    (long : limits.maxLineBytes < rest.length) (clear : Clear limits (rest ++ more))
    (r : Reading V) : (meaning fromStr limits (rest ++ more) r).toOption = none := by
  rw [meaning, toOption_bind]
  cases ends : lineEnd (rest ++ more) with
  | none =>
    have long' : limits.maxLineBytes < (rest ++ more).length := by
      rw [length_append]
      omega
    rw [newline.split_of_none ends]
    exact congrArg Except.toOption (finish_of_long long' r)
  | some n =>
    have mem : (rest ++ more).take n ∈ (newline.split (rest ++ more)).1 := by
      simp [newline.split_of_some ends]
    have length : ((rest ++ more).take n).length = n := length_take_of_le (lineEnd_le ends).2
    rw [lineEnd_append, unfinished, Option.none_or, Option.map_eq_some_iff] at ends
    obtain ⟨m, ends, rfl⟩ := ends
    have positive := (lineEnd_le ends).1
    rw [readLines_of_long mem, Option.bind_none]
    unfold popEnd
    split
    · rename_i carriage
      have apart : m + rest.length ≠ limits.maxLineBytes + 2 := fun h =>
        clear _ mem (length.trans h) carriage
      rw [length_dropLast, length_dropLast, length]
      omega
    · rw [length_dropLast, length]
      omega

theorem meaning_append (first more : List UInt8) (r : Reading V) :
    meaning fromStr limits (first ++ more) r =
      readLines fromStr limits (newline.split first).1 r >>=
        meaning fromStr limits ((newline.split first).2 ++ more) := by
  simp only [meaning, newline.split_append first more, readLines, foldlM_append, bind_assoc]
  rfl

/-- **Any chunks give what the bytes mean**, if no line is where the cut decides, or if the bytes
mean a failure. -/
theorem toOption_decode_from (chunks : List (List UInt8)) (d : SseJsonDecoder V)
    (unfinished : lineEnd d.buffer = none)
    (h : Clear limits (d.buffer ++ chunks.flatten) ∨
      (meaning fromStr limits (d.buffer ++ chunks.flatten) d.reading).toOption = none) :
    (chunks.foldlM (push fromStr limits) d >>= finish fromStr limits).toOption =
      (meaning fromStr limits (d.buffer ++ chunks.flatten) d.reading).toOption := by
  induction chunks generalizing d with
  | nil => simp [meaning, newline.split_of_none unfinished, readLines]
  | cons chunk chunks ih =>
    rw [flatten_cons, ← append_assoc, meaning_append] at h ⊢
    rw [foldlM_cons, push, bind_assoc, bind_assoc, toOption_bind, toOption_bind]
    rw [toOption_bind] at h
    refine Option.bind_congr fun reading read => ?_
    have h' : Clear limits ((newline.split (d.buffer ++ chunk)).2 ++ chunks.flatten) ∨
        (meaning fromStr limits ((newline.split (d.buffer ++ chunk)).2 ++ chunks.flatten)
          reading).toOption = none := by
      refine h.imp (fun clear line mem => clear line ?_) fun fails =>
        Option.bind_eq_none_iff.1 fails reading read
      rw [newline.split_append]
      exact mem_append_right _ mem
    have unfinished' := newline.cut_rest (d.buffer ++ chunk)
    split
    · rename_i long
      rcases h' with clear | fails
      · rw [meaning_of_long_rest unfinished' long clear]
        rfl
      · rw [fails]
        rfl
    · rw [pure_bind]
      exact ih ⟨_, reading⟩ unfinished' h'

/-- Undivided, the bytes give what they mean: an unfinished line that is too long for `push` is
too long for `finish`. -/
theorem toOption_decode_singleton (bytes : List UInt8) :
    (decode fromStr limits [bytes]).toOption = (meaning fromStr limits bytes {}).toOption := by
  rw [decode, foldlM_cons, push, bind_assoc, bind_assoc, meaning, toOption_bind, toOption_bind]
  refine congrArg _ (funext fun reading => ?_)
  rw [nil_append]
  split
  · rename_i long
    rw [finish_of_long long]
    rfl
  · rfl

theorem lineEnd_take {buffer : List UInt8} {n : ℕ} (h : lineEnd buffer = some n) :
    lineEnd (buffer.take n) = some n := by
  have length : (buffer.take n).length = n := length_take_of_le (lineEnd_le h).2
  rw [← take_append_drop n buffer, lineEnd_append, length] at h
  cases ends : lineEnd (buffer.take n) with
  | some m => rwa [ends] at h
  | none =>
    rw [ends, Option.none_or, Option.map_eq_some_iff] at h
    obtain ⟨m, ends', sum⟩ := h
    have := (lineEnd_le ends').1
    omega

/-- A line can be cut off right before its `\n`. -/
theorem exists_cut {bytes line : List UInt8} (mem : line ∈ (newline.split bytes).1) :
    ∃ before after, bytes = before ++ line.dropLast ++ after ∧
      (newline.split (before ++ line.dropLast)).2 = line.dropLast := by
  induction bytes using newline.induct with
  | rest bytes h => simp [newline.split_of_none h] at mem
  | frame bytes n h ih =>
    rw [newline.split_of_some h, mem_cons] at mem
    have length : (bytes.take n).length = n := length_take_of_le (newline.le h)
    rcases mem with rfl | mem
    · have unfinished : newline.cut (bytes.take (n - 1)) = none := by
        cases ends : newline.cut (bytes.take (n - 1)) with
        | none => rfl
        | some m =>
          have first := newline.stable (bytes.drop (n - 1)) ends
          rw [take_append_drop, h, Option.some.injEq] at first
          have positive := newline.pos h
          have inside := newline.le ends
          rw [length_take] at inside
          omega
      rw [dropLast_eq_take, length, take_take, min_eq_left (Nat.sub_le n 1)]
      refine ⟨[], bytes.drop (n - 1), by rw [nil_append, take_append_drop], ?_⟩
      rw [nil_append, newline.split_of_none unfinished]
    · obtain ⟨before, after, split_eq, rest⟩ := ih mem
      refine ⟨bytes.take n ++ before, after, ?_, ?_⟩
      · rw [append_assoc, append_assoc, ← append_assoc before, ← split_eq, take_append_drop]
      · have first : newline.cut (bytes.take n ++ (before ++ line.dropLast)) = some n :=
          newline.stable _ (lineEnd_take h)
        rw [append_assoc, newline.split_of_some first, drop_left' length]
        exact rest

/-- **When the decoder is independent of chunking.**  All ways to cut a byte string fail, or all
give the same events, if and only if no line of exactly the limit ends in `\r\n`, or the bytes
fail without being cut. -/
theorem json_decoder_chunking (fromStr : String → Option V) (limits : Limits)
    (bytes : List UInt8) :
    (∀ chunks chunks' : List (List UInt8), chunks.flatten = bytes → chunks'.flatten = bytes →
      (decode fromStr limits chunks).toOption = (decode fromStr limits chunks').toOption) ↔
      Clear limits bytes ∨ (meaning fromStr limits bytes {}).toOption = none := by
  have start : lineEnd ({} : SseJsonDecoder V).buffer = none := rfl
  constructor
  · intro agree
    by_contra h
    obtain ⟨unclear, means⟩ := not_or.1 h
    simp only [Clear, not_forall, not_not] at unclear
    obtain ⟨line, mem, length, carriage⟩ := unclear
    obtain ⟨before, after, rfl, rest⟩ := exists_cut mem
    -- cut before its `\n`, the line is longer than the limit by its `\r`
    have cut : (decode fromStr limits [before ++ line.dropLast, after]).toOption = none := by
      rw [decode, foldlM_cons, push, bind_assoc, bind_assoc, toOption_bind,
        Option.bind_eq_none_iff]
      intro reading _
      rw [nil_append, rest, if_pos (by rw [length_dropLast]; omega)]
      rfl
    have whole := agree [before ++ line.dropLast ++ after] [before ++ line.dropLast, after]
      (by simp) (by simp)
    rw [cut, toOption_decode_singleton] at whole
    exact means whole
  · rintro h chunks chunks' rfl same
    rw [decode, decode, toOption_decode_from chunks _ start h,
      toOption_decode_from chunks' _ start (same ▸ h), same]

/-- An event whose line has seven bytes before its `\r\n`, cut before the `\n`. -/
def cutLine : List (List UInt8) := [[100, 97, 116, 97, 58, 49, 50, 13], [10]]

theorem json_decoder_chunking_cutLine :
    (decode some ⟨8, 8⟩ cutLine).toOption = (decode some ⟨8, 8⟩ [cutLine.flatten]).toOption :=
  (json_decoder_chunking some ⟨8, 8⟩ cutLine.flatten).2 (Or.inl (by
    unfold Clear
    decide +kernel)) cutLine [cutLine.flatten] rfl rfl

/-- With a limit of seven bytes the line is too long only when it is cut. -/
theorem cut_decides : (decode some ⟨7, 8⟩ cutLine).toOption = none ∧
    (decode some ⟨7, 8⟩ [cutLine.flatten]).toOption = some ["12"] := by
  decide +kernel

end KeyCompute.WebSocket
