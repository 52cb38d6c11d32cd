import KeyCompute.Sse.Decoder
import KeyCompute.Framing.Cut

/-!
# The decoder does not see how its input was cut

`meaning` says what a byte string decodes to, without any chunk: its frames are cut off at the
blank lines, the rest has to be a frame that the end of the input completes, and every piece is
read within the limits.

A blank line is a stable cut, since a `\r` that is the last byte so far ends no line (`blankLine`).
The scan of the next chunk may begin just before the end of the old buffer
(`delimiterEnd_nextScan`).
-/

namespace KeyCompute.Sse

open Framing BoundedSseDecoder List

/-! ## Line ends -/

section Lines

variable {bytes more : List UInt8} {i n turns turns' stop : ℕ} {eof : Bool}

theorem eol_le (h : eol bytes i eof = some n) : 1 ≤ n ∧ i + n ≤ bytes.length := by
  unfold eol at h
  split at h
  · grind
  · grind
  · cases h

theorem eol_append_inside (more : List UInt8) (h : i + 1 < bytes.length) :
    eol (bytes ++ more) i false = eol bytes i false := by
  have hi : (bytes ++ more)[i]? = bytes[i]? := getElem?_append_left (by omega)
  have hi' : (bytes ++ more)[i + 1]? = bytes[i + 1]? := getElem?_append_left h
  have hlong : i + 1 < (bytes ++ more).length := by rw [length_append]; omega
  unfold eol
  rw [hi, hi']
  simp only [h, hlong]

theorem eol_last (last : bytes.length ≤ i + 1) (h : eol bytes i false = some n) :
    bytes[i]? = some 10 ∧ n = 1 := by
  unfold eol at h
  split at h
  · rename_i hbyte
    cases h
    exact ⟨hbyte, rfl⟩
  · grind [getElem?_eq_none]
  · cases h

theorem eol_append (more : List UInt8) (h : eol bytes i false = some n) :
    eol (bytes ++ more) i false = some n := by
  by_cases hinside : i + 1 < bytes.length
  · rw [eol_append_inside more hinside, h]
  · grind [eol_last, getElem?_append_left, getElem?_eq_some_iff.mp, eol]

theorem eol_of_append (h : eol (bytes ++ more) i false = some n) (hin : i + n < bytes.length) :
    eol bytes i false = some n := by
  have hn := eol_le h
  rw [← eol_append_inside more (by omega), h]

/-! ## Blank lines -/

theorem delimiterScan_bounds (h : delimiterScan bytes eof turns i = some stop) :
    i + 2 ≤ stop ∧ stop ≤ bytes.length := by
  induction turns generalizing i with
  | zero => cases h
  | succ turns ih =>
    unfold delimiterScan at h
    split at h
    · split at h
      · rename_i first hfirst
        have hbound := eol_le hfirst
        split at h
        · rename_i second hsecond
          have hbound' := eol_le hsecond
          cases h
          omega
        · have := ih h
          omega
      · have := ih h
        omega
    · cases h

theorem delimiterScan_turns (hturns : bytes.length - i ≤ turns)
    (hturns' : bytes.length - i ≤ turns') :
    delimiterScan bytes eof turns i = delimiterScan bytes eof turns' i := by
  induction turns generalizing i turns' with
  | zero =>
    cases turns' with
    | zero => rfl
    | succ turns' =>
      unfold delimiterScan
      rw [if_neg (by omega)]
  | succ turns ih =>
    cases turns' with
    | zero =>
      unfold delimiterScan
      rw [if_neg (by omega)]
    | succ turns' =>
      unfold delimiterScan
      split
      · split
        · grind
        · exact ih (by omega) (by omega)
      · rfl

theorem delimiterEnd_eq (bytes : List UInt8) (i : ℕ) (eof : Bool) :
    delimiterEnd bytes i eof =
      if i < bytes.length then
        match eol bytes i eof with
        | some first =>
          match eol bytes (i + first) eof with
          | some second => some (i + first + second)
          | none => delimiterEnd bytes (i + first) eof
        | none => delimiterEnd bytes (i + 1) eof
      else none := by
  by_cases hi : i < bytes.length
  · have hturns : bytes.length - i = (bytes.length - i - 1) + 1 := by omega
    rw [if_pos hi, delimiterEnd, hturns, delimiterScan, if_pos hi]
    cases hfirst : eol bytes i eof with
    | none => exact delimiterScan_turns (by omega) (Nat.le_refl _)
    | some first =>
      have := eol_le hfirst
      cases hsecond : eol bytes (i + first) eof with
      | some second => simp [hsecond]
      | none =>
        simp only [hsecond]
        exact delimiterScan_turns (by omega) (Nat.le_refl _)
  · simp_all [delimiterEnd, delimiterScan]

theorem delimiterEnd_bounds (h : delimiterEnd bytes i eof = some stop) :
    i + 2 ≤ stop ∧ stop ≤ bytes.length := delimiterScan_bounds h

/-- **A scan depends only on the line ends it meets**, and on where it meets none. -/
theorem delimiterEnd_congr {other : List UInt8} {eof' : Bool}
    (h : delimiterEnd bytes i eof = some stop) (hlen : stop ≤ other.length)
    (ends : ∀ j n, eol bytes j eof = some n → j + n ≤ stop → eol other j eof' = some n)
    (inside : ∀ j, eol bytes j eof = none → j + 1 < stop → eol other j eof' = none) :
    delimiterEnd other i eof' = some stop := by
  induction hk : bytes.length - i using Nat.strongRecOn generalizing i with
  | ind k ih =>
    have hbounds := delimiterEnd_bounds h
    rw [delimiterEnd_eq, if_pos (by omega)] at h
    rw [delimiterEnd_eq, if_pos (by omega)]
    cases hfirst : eol bytes i eof with
    | none =>
      rw [hfirst] at h
      rw [inside i hfirst (by omega)]
      exact ih _ (by omega) h rfl
    | some first =>
      have hle := eol_le hfirst
      simp only [hfirst] at h
      cases hsecond : eol bytes (i + first) eof with
      | some second =>
        simp only [hsecond, Option.some.injEq] at h
        rw [ends i first hfirst (by omega)]
        simp only [ends _ second hsecond (by omega), h]
      | none =>
        simp only [hsecond] at h
        have hrest := delimiterEnd_bounds h
        rw [ends i first hfirst (by omega)]
        simp only [inside _ hsecond (by omega)]
        exact ih _ (by omega) h rfl

theorem delimiterEnd_append (more : List UInt8) (h : delimiterEnd bytes i false = some stop) :
    delimiterEnd (bytes ++ more) i false = some stop := by
  have hbounds := delimiterEnd_bounds h
  refine delimiterEnd_congr h ?_ (fun j n hend _ => eol_append more hend) fun j hnone hlt => ?_
  · rw [length_append]
    omega
  · rw [eol_append_inside more (by omega), hnone]

theorem delimiterEnd_of_append (h : delimiterEnd (bytes ++ more) i false = some stop)
    (hin : stop < bytes.length) : delimiterEnd bytes i false = some stop := by
  refine delimiterEnd_congr h hin.le (fun j n hend hle => eol_of_append hend (by omega))
    fun j hnone hlt => ?_
  rw [← eol_append_inside more (by omega), hnone]

/-- **A blank line cuts a stream.** -/
def blankLine : Cut UInt8 where
  cut bytes := delimiterEnd bytes 0 false
  pos h := by have := delimiterEnd_bounds h; omega
  le h := (delimiterEnd_bounds h).2
  stable more h := delimiterEnd_append more h
  seen _ h hin := delimiterEnd_of_append h hin

/-! ## Scanning on -/

theorem nextScan_le (bytes : List UInt8) : nextScan bytes ≤ bytes.length - 4 := by
  unfold nextScan
  simp only
  split <;> omega

theorem nextScan_aligned (h : eol bytes i false = some n)
    (before : i < nextScan bytes) :
    i + n ≤ nextScan bytes := by
  have hle := nextScan_le bytes
  unfold eol at h
  split at h
  · cases h
    omega
  · rename_i hbyte
    split at h
    · rename_i hnext
      cases h
      -- the two bytes of the line end lie before the start, or the start was moved
      unfold nextScan at before ⊢
      simp only at before ⊢
      split at before
      · grind
      · grind
    · split at h <;> cases h
      omega
  · cases h

theorem delimiterEnd_skip (more : List UInt8) (none : delimiterEnd bytes i false = none)
    (before : i ≤ nextScan bytes) :
    delimiterEnd (bytes ++ more) i false =
      delimiterEnd (bytes ++ more) (nextScan bytes) false := by
  have hle := nextScan_le bytes
  induction hk : bytes.length - i using Nat.strongRecOn generalizing i with
  | ind k ih =>
    rcases Nat.eq_or_lt_of_le before with heq | hlt
    · rw [heq]
    · have hlong : i < (bytes ++ more).length := by rw [length_append]; omega
      rw [delimiterEnd_eq, if_pos (by omega)] at none
      rw [delimiterEnd_eq, if_pos hlong, eol_append_inside more (by omega)]
      cases hfirst : eol bytes i false with
      | none => grind
      | some first => grind [nextScan_aligned, eol_le, eol_append_inside]

/-- **The scan of the next chunk finds what a scan of the whole buffer finds.** -/
theorem delimiterEnd_nextScan (more : List UInt8) (h : blankLine.cut bytes = none) :
    delimiterEnd (bytes ++ more) (nextScan bytes) false =
      blankLine.cut (bytes ++ more) :=
  (delimiterEnd_skip more h (Nat.zero_le _)).symm

end Lines

/-! ## What a byte string decodes to -/

def readFrame (events : ℕ) (bytes : List UInt8) : Except SseDecodeError SseFrame :=
  if bytes.length > maxFrameBytes then .error .frameTooLarge
  else if events + 1 > maxEvents then .error .eventLimit
  else
    match String.fromUTF8? ⟨bytes.toArray⟩ with
    | none => .error .invalidUtf8
    | some raw => .ok (parseFrame raw (events + 1 = 1))

def readFrames : ℕ → List (List UInt8) → Except SseDecodeError (List SseFrame)
  | _, [] => .ok []
  | events, bytes :: rest =>
    match readFrame events bytes with
    | .error e => .error e
    | .ok frame => (readFrames (events + 1) rest).map (frame :: ·)

/-- The pieces of a whole input: its end may complete the last frame. -/
def pieces (bytes : List UInt8) : Option (List (List UInt8)) :=
  let (frames, rest) := blankLine.split bytes
  if rest = [] then some frames
  else if delimiterEnd rest 0 true = some rest.length then some (frames ++ [rest])
  else none

/-- **What a byte string decodes to**, if it does. -/
def meaning (bytes : List UInt8) : Option (List SseFrame) :=
  if bytes.length > maxTotalBytes then none
  else (pieces bytes).bind fun ps => (readFrames 0 ps).toOption

section Meaning

variable {bytes more : List UInt8} {ps qs : List (List UInt8)} {events : ℕ}
  {frames : List SseFrame}

theorem readFrames_append (events : ℕ) (ps qs : List (List UInt8)) :
    readFrames events (ps ++ qs) =
      match readFrames events ps with
      | .error e => .error e
      | .ok frames => (readFrames (events + ps.length) qs).map (frames ++ ·) := by
  induction ps generalizing events with
  | nil =>
    cases h : readFrames events qs <;> simp [readFrames, Except.map, h]
  | cons bytes rest ih =>
    rw [cons_append, readFrames, readFrames]
    cases readFrame events bytes with
    | error e => rfl
    | ok frame =>
      simp only [ih, length_cons]
      rw [show events + (rest.length + 1) = events + 1 + rest.length by omega]
      cases readFrames (events + 1) rest with
      | error e => rfl
      | ok tail => cases readFrames (events + 1 + rest.length) qs <;> rfl

theorem readFrames_of_long {bytes : List UInt8} (member : bytes ∈ ps)
    (long : maxFrameBytes < bytes.length) : ∃ e, readFrames events ps = .error e := by
  induction ps generalizing events with
  | nil => cases member
  | cons first rest ih =>
    rw [readFrames]
    cases hfirst : readFrame events first with
    | error e => exact ⟨e, rfl⟩
    | ok frame =>
      rcases mem_cons.mp member with rfl | hmem
      · rw [readFrame, if_pos long] at hfirst
        cases hfirst
      · obtain ⟨e, he⟩ := @ih (events + 1) hmem
        exact ⟨e, by simp [he, Except.map]⟩

theorem bytes_readFrame {frame : SseFrame} (h : readFrame events bytes = .ok frame) :
    Text.bytes frame.raw = bytes := by
  unfold readFrame at h
  split at h
  · cases h
  · split at h
    · cases h
    · split at h
      · cases h
      · rename_i raw hraw
        cases h
        unfold String.fromUTF8? at hraw
        split at hraw
        · cases hraw
          rfl
        · cases hraw

theorem bytes_readFrames (h : readFrames events ps = .ok frames) :
    frames.map (fun frame => Text.bytes frame.raw) = ps := by
  induction ps generalizing events frames with
  | nil => cases h; rfl
  | cons first rest ih =>
    rw [readFrames] at h
    cases hfirst : readFrame events first with
    | error e => simp [hfirst] at h
    | ok frame =>
      rw [hfirst] at h
      cases hrest : readFrames (events + 1) rest with
      | error e => simp [hrest, Except.map] at h
      | ok tail => grind [Except.map, bytes_readFrame]

theorem flatten_pieces (h : pieces bytes = some ps) : ps.flatten = bytes := by
  have hsplit := blankLine.flatten_split bytes
  simp only [pieces] at h
  split at h
  · grind
  · split at h
    · cases h
      simpa using hsplit
    · cases h

theorem bytes_meaning (h : meaning bytes = some frames) :
    frames.flatMap (fun frame => Text.bytes frame.raw) = bytes := by
  unfold meaning at h
  split at h
  · cases h
  · obtain ⟨ps, hps, hread⟩ := Option.bind_eq_some_iff.mp h
    cases hframes : readFrames 0 ps with
    | error e => simp [hframes, Except.toOption] at hread
    | ok frames' =>
      rw [hframes] at hread
      cases hread
      rw [flatMap_def, bytes_readFrames hframes, flatten_pieces hps]

theorem pieces_append (h : pieces (bytes ++ more) = some ps) :
    ∃ later, ps = (blankLine.split bytes).1 ++ later ∧
      (later = (blankLine.split ((blankLine.split bytes).2 ++ more)).1 ∧
          (blankLine.split ((blankLine.split bytes).2 ++ more)).2 = [] ∨
        later = (blankLine.split ((blankLine.split bytes).2 ++ more)).1 ++
          [(blankLine.split ((blankLine.split bytes).2 ++ more)).2]) := by
  simp only [pieces] at h
  rw [blankLine.split_append] at h
  split at h
  · grind
  · grind

theorem meaning_of_long (long : maxTotalBytes < bytes.length) (more : List UInt8) :
    meaning (bytes ++ more) = none := by
  rw [meaning, if_pos (by rw [length_append]; omega)]

theorem meaning_eq_none (h : ∀ ps, pieces bytes = some ps → ∃ e, readFrames 0 ps = .error e) :
    meaning bytes = none := by
  unfold meaning
  split
  · rfl
  · cases hps : pieces bytes with
    | none => rfl
    | some ps =>
      obtain ⟨e, he⟩ := h ps hps
      simp [he, Except.toOption]

theorem meaning_of_unreadable {e : SseDecodeError}
    (unreadable : readFrames 0 (blankLine.split bytes).1 = .error e) (more : List UInt8) :
    meaning (bytes ++ more) = none := by
  refine meaning_eq_none fun ps hps => ?_
  obtain ⟨later, rfl, -⟩ := pieces_append hps
  exact ⟨e, by rw [readFrames_append, unreadable]⟩

/-- **An unfinished rest that is too long belongs to a piece that is too long.** -/
theorem meaning_of_long_rest (long : maxFrameBytes < (blankLine.split bytes).2.length)
    (more : List UInt8) : meaning (bytes ++ more) = none := by
  refine meaning_eq_none fun ps hps => ?_
  obtain ⟨later, rfl, hlater⟩ := pieces_append hps
  have hlong : ∃ piece ∈ later, maxFrameBytes < piece.length := by
    rcases blankLine.exists_piece_of_rest (blankLine.cut_rest bytes) more with
      ⟨frame, hframe, hlen⟩ | ⟨-, hrest⟩
    · grind
    · rcases hlater with ⟨-, hempty⟩ | rfl
      · grind [append_eq_nil_iff]
      · refine ⟨_, mem_append_right _ mem_cons_self, ?_⟩
        rw [hrest, length_append]
        omega
  obtain ⟨piece, hpiece, hlen⟩ := hlong
  exact readFrames_of_long (mem_append_right _ hpiece) hlen

end Meaning

/-! ## The decoder -/

namespace BoundedSseDecoder

variable {decoder decoder' : BoundedSseDecoder} {bytes chunk : List UInt8}
  {seen frames frames' : List SseFrame} {e : SseDecodeError}

theorem takeFrame_eq {stop : ℕ} (h : stop ≤ decoder.buffer.length) :
    decoder.takeFrame stop = (readFrame decoder.events (decoder.buffer.take stop)).map fun frame =>
      (frame, { decoder with
        events := decoder.events + 1, buffer := decoder.buffer.drop stop, scanFrom := 0 }) := by
  have hlen : (decoder.buffer.take stop).length = stop := by
    rw [length_take, Nat.min_eq_left h]
  unfold takeFrame readFrame
  rw [hlen]
  split
  · rfl
  · split
    · rfl
    · cases String.fromUTF8? ⟨(decoder.buffer.take stop).toArray⟩ <;> rfl

theorem takeFrames_eq {turns : ℕ} (hturns : decoder.buffer.length < turns)
    (hscan : delimiterEnd decoder.buffer decoder.scanFrom false = blankLine.cut decoder.buffer) :
    takeFrames turns decoder frames =
      (readFrames decoder.events (blankLine.split decoder.buffer).1).map fun more =>
        (frames ++ more, { decoder with
          events := decoder.events + (blankLine.split decoder.buffer).1.length
          buffer := (blankLine.split decoder.buffer).2
          scanFrom :=
            if (blankLine.split decoder.buffer).1 = [] then decoder.scanFrom else 0 }) := by
  induction turns generalizing decoder frames with
  | zero => omega
  | succ turns ih =>
    rw [takeFrames, hscan]
    cases hcut : blankLine.cut decoder.buffer with
    | none => simp [blankLine.split_of_none hcut, readFrames, Except.map]
    | some stop =>
      have hpos := blankLine.pos hcut
      have hle := blankLine.le hcut
      simp only [takeFrame_eq hle, blankLine.split_of_some hcut, readFrames]
      cases readFrame decoder.events (decoder.buffer.take stop) with
      | error e => rfl
      | ok frame =>
        simp only [Except.map]
        rw [ih (by simp only [length_drop]; omega) rfl]
        cases readFrames (decoder.events + 1)
            (blankLine.split (decoder.buffer.drop stop)).1 with
        | error e => rfl
        | ok more =>
          simp [Except.map]
          omega

/-- The decoder after some bytes, which have given the frames `seen`. -/
structure Holding (bytes : List UInt8) (seen : List SseFrame) (decoder : BoundedSseDecoder) :
    Prop where
  read : readFrames 0 (blankLine.split bytes).1 = .ok seen
  buffer : decoder.buffer = (blankLine.split bytes).2
  events : decoder.events = (blankLine.split bytes).1.length
  scan : decoder.scanFrom = nextScan decoder.buffer

theorem holding_new : Holding [] [] {} := by
  have hnone : blankLine.cut [] = none := rfl
  constructor
  all_goals simp [blankLine.split_of_none hnone, readFrames, nextScan]

theorem Holding.takeFrames (h : Holding bytes seen decoder) :
    takeFrames ((decoder.buffer ++ chunk).length + 1)
        { decoder with buffer := decoder.buffer ++ chunk } frames =
      (readFrames decoder.events (blankLine.split (decoder.buffer ++ chunk)).1).map fun more =>
        (frames ++ more, { decoder with
          events := decoder.events + (blankLine.split (decoder.buffer ++ chunk)).1.length
          buffer := (blankLine.split (decoder.buffer ++ chunk)).2
          scanFrom := if (blankLine.split (decoder.buffer ++ chunk)).1 = [] then decoder.scanFrom
            else 0 }) := by
  refine takeFrames_eq (Nat.lt_succ_self _) ?_
  simp only [h.scan]
  refine delimiterEnd_nextScan chunk ?_
  rw [h.buffer]
  exact blankLine.cut_rest bytes

theorem Holding.split (h : Holding bytes seen decoder) (chunk : List UInt8) :
    blankLine.split (bytes ++ chunk) =
      ((blankLine.split bytes).1 ++ (blankLine.split (decoder.buffer ++ chunk)).1,
        (blankLine.split (decoder.buffer ++ chunk)).2) := by
  rw [blankLine.split_append, h.buffer]

theorem Holding.readFrames_append (h : Holding bytes seen decoder) (chunk : List UInt8) :
    readFrames 0 (blankLine.split (bytes ++ chunk)).1 =
      (readFrames decoder.events (blankLine.split (decoder.buffer ++ chunk)).1).map
        (seen ++ ·) := by
  rw [h.split, Sse.readFrames_append, h.read, h.events, Nat.zero_add]

/-- What a call that takes bytes comes to: its frames and decoder are as they should be, or it
fails and the bytes mean nothing, whatever follows them. -/
def Outcome (bytes : List UInt8) (P : List SseFrame → BoundedSseDecoder → Prop) :
    Except SseDecodeError (List SseFrame × BoundedSseDecoder) → Prop
  | .ok (frames, decoder) => P frames decoder
  | .error _ => ∀ later, meaning (bytes ++ later) = none

theorem Outcome.imp {P Q : List SseFrame → BoundedSseDecoder → Prop}
    {result : Except SseDecodeError (List SseFrame × BoundedSseDecoder)}
    (h : Outcome bytes P result) (himp : ∀ frames decoder, P frames decoder → Q frames decoder) :
    Outcome bytes Q result := by
  cases result with
  | error e => exact h
  | ok result => exact himp _ _ h

theorem Holding.pushChunk (h : Holding bytes seen decoder) (frames : List SseFrame)
    (chunk : List UInt8) :
    Outcome (bytes ++ chunk) (fun frames' decoder' => ∃ more, frames' = frames ++ more ∧
      Holding (bytes ++ chunk) (seen ++ more) decoder' ∧
      decoder'.totalBytes = decoder.totalBytes) (decoder.pushChunk frames chunk) := by
  have hread := h.readFrames_append chunk
  simp only [BoundedSseDecoder.pushChunk, h.takeFrames]
  cases hmore : readFrames decoder.events (blankLine.split (decoder.buffer ++ chunk)).1 with
  | error e =>
    rw [hmore] at hread
    exact meaning_of_unreadable hread
  | ok more =>
    simp only [Except.map]
    split
    · rename_i hlong
      refine meaning_of_long_rest ?_
      rw [h.split]
      exact hlong
    · refine ⟨more, rfl, ⟨?_, ?_, ?_, rfl⟩, rfl⟩
      · rw [hread, hmore]
        rfl
      · rw [h.split]
      · rw [h.split, length_append, h.events]

theorem Holding.pushChunks (h : Holding bytes seen decoder) (frames : List SseFrame)
    (chunks : List (List UInt8)) :
    Outcome (bytes ++ chunks.flatten) (fun frames' decoder' => ∃ more, frames' = frames ++ more ∧
      Holding (bytes ++ chunks.flatten) (seen ++ more) decoder' ∧
      decoder'.totalBytes = decoder.totalBytes) (pushChunks chunks decoder frames) := by
  induction chunks generalizing bytes seen decoder frames with
  | nil => exact ⟨[], by simp, by simpa using h, rfl⟩
  | cons chunk rest ih =>
    have hfirst := h.pushChunk frames chunk
    rw [flatten_cons, ← append_assoc, BoundedSseDecoder.pushChunks]
    cases hpush : decoder.pushChunk frames chunk with
    | error e =>
      rw [hpush] at hfirst
      intro later
      rw [append_assoc]
      exact hfirst (rest.flatten ++ later)
    | ok first =>
      rw [hpush] at hfirst
      obtain ⟨more, hframes, h₁, htotal⟩ := hfirst
      refine (ih h₁ first.1).imp ?_
      rintro frames' decoder' ⟨more', hframes', h₂, htotal'⟩
      refine ⟨more ++ more', ?_, ?_, htotal'.trans htotal⟩
      · rw [hframes', hframes, append_assoc]
      · rw [← append_assoc]
        exact h₂

end BoundedSseDecoder

/-! ## Feeding chunks -/

theorem flatten_toChunks_go {α : Type} (n : ℕ) (xs : List α) (acc : Array α)
    (done : Array (List α)) :
    (toChunks.go n xs acc done).flatten = done.toList.flatten ++ acc.toList ++ xs := by
  induction xs generalizing acc done with
  | nil => simp [toChunks.go]
  | cons x xs ih =>
    unfold toChunks.go
    split <;> simp [ih]

theorem flatten_toChunks {α : Type} (n : ℕ) (xs : List α) : (xs.toChunks n).flatten = xs := by
  unfold toChunks
  split
  · rfl
  · simp
  · simp [flatten_toChunks_go]

def feed : List (List UInt8) → BoundedSseDecoder →
    Except SseDecodeError (List SseFrame × BoundedSseDecoder)
  | [], decoder => .ok ([], decoder)
  | chunk :: rest, decoder =>
    match decoder.push chunk with
    | .error e => .error e
    | .ok (frames, decoder) =>
      (feed rest decoder).map fun result => (frames ++ result.1, result.2)

def decode (chunks : List (List UInt8)) : Except SseDecodeError (List SseFrame) :=
  match feed chunks {} with
  | .error e => .error e
  | .ok (frames, decoder) => decoder.finish.map fun result => frames ++ result.1.toList

section Feed

open BoundedSseDecoder

variable {decoder decoder' : BoundedSseDecoder} {bytes : List UInt8}
  {seen frames : List SseFrame} {e : SseDecodeError}

/-- The decoder after some bytes, all of which it has counted. -/
structure Fed (bytes : List UInt8) (seen : List SseFrame) (decoder : BoundedSseDecoder) : Prop
    extends Holding bytes seen decoder where
  total : decoder.totalBytes = bytes.length
  limit : bytes.length ≤ maxTotalBytes

theorem Fed.push (h : Fed bytes seen decoder) (chunk : List UInt8) :
    Outcome (bytes ++ chunk) (fun frames => Fed (bytes ++ chunk) (seen ++ frames))
      (decoder.push chunk) := by
  unfold BoundedSseDecoder.push
  rw [h.total, ← length_append]
  split
  · rename_i hlong
    exact meaning_of_long hlong
  · rename_i hlimit
    have hcounted : Holding bytes seen
        { decoder with totalBytes := (bytes ++ chunk).length } :=
      ⟨h.read, h.buffer, h.events, h.scan⟩
    have hpush := hcounted.pushChunks [] (chunk.toChunks chunkBytes)
    rw [flatten_toChunks] at hpush
    refine hpush.imp ?_
    rintro frames decoder' ⟨more, rfl, hholding, htotal⟩
    exact ⟨hholding, htotal, Nat.le_of_not_lt hlimit⟩

theorem Fed.feed (h : Fed bytes seen decoder) (chunks : List (List UInt8)) :
    Outcome (bytes ++ chunks.flatten) (fun frames => Fed (bytes ++ chunks.flatten) (seen ++ frames))
      (feed chunks decoder) := by
  induction chunks generalizing bytes seen decoder with
  | nil =>
    change Fed (bytes ++ []) (seen ++ []) decoder
    rw [append_nil, append_nil]
    exact h
  | cons chunk rest ih =>
    have hfirst := h.push chunk
    rw [flatten_cons, ← append_assoc, Sse.feed]
    cases hpush : decoder.push chunk with
    | error e =>
      rw [hpush] at hfirst
      intro later
      rw [append_assoc]
      exact hfirst (rest.flatten ++ later)
    | ok first =>
      rw [hpush] at hfirst
      have hrest := ih hfirst
      simp only
      cases hlast : Sse.feed rest first.2 with
      | error e =>
        rw [hlast] at hrest
        exact hrest
      | ok last =>
        rw [hlast] at hrest
        show Fed _ (seen ++ (first.1 ++ last.1)) last.2
        rw [← append_assoc]
        exact hrest

theorem Fed.finish (h : Fed bytes seen decoder) :
    (decoder.finish.map fun result => seen ++ result.1.toList).toOption = meaning bytes := by
  have hlimit := h.limit
  unfold meaning pieces
  rw [if_neg (by omega)]
  unfold BoundedSseDecoder.finish
  simp only [← h.buffer, List.isEmpty_iff]
  split
  · simp [h.read, Except.map, Except.toOption]
  · split
    · have hlast : readFrames 0 ((blankLine.split bytes).1 ++ [decoder.buffer]) =
          (readFrame decoder.events decoder.buffer).map fun frame => seen ++ [frame] := by
        rw [Sse.readFrames_append, h.read, h.events, Nat.zero_add]
        simp only [readFrames]
        cases readFrame (blankLine.split bytes).1.length decoder.buffer <;> rfl
      rw [takeFrame_eq (Nat.le_refl _), List.take_length, Option.bind_some, hlast]
      cases readFrame decoder.events decoder.buffer <;> rfl
    · rfl

theorem toOption_decode (chunks : List (List UInt8)) :
    (decode chunks).toOption = meaning chunks.flatten := by
  have hfeed := Fed.feed ⟨holding_new, rfl, Nat.zero_le _⟩ chunks
  rw [nil_append] at hfeed
  unfold decode
  cases hresult : feed chunks {} with
  | error e =>
    rw [hresult] at hfeed
    simpa [Except.toOption] using (hfeed []).symm
  | ok result =>
    rw [hresult] at hfeed
    exact hfeed.finish

end Feed

/-- **The decoder is independent of chunking and loses no byte.**  Two ways to cut one byte
string into chunks both fail, or give the same frames, and the frames together are the bytes. -/
theorem sse_decoder_chunking (chunks chunks' : List (List UInt8))
    (same : chunks.flatten = chunks'.flatten) :
    (decode chunks).toOption = (decode chunks').toOption ∧
      ∀ frames, decode chunks = .ok frames →
        frames.flatMap (fun frame => Text.bytes frame.raw) = chunks.flatten := by
  refine ⟨by rw [toOption_decode, toOption_decode, same], fun frames hframes => ?_⟩
  have hmeaning : meaning chunks.flatten = some frames := by
    rw [← toOption_decode, hframes]
    rfl
  exact bytes_meaning hmeaning

/-- Two frames with `\r\n` line ends, the second completed by the end of the input. -/
def twoFrames : List UInt8 :=
  [100, 97, 116, 97, 58, 49, 13, 10, 13, 10, 100, 97, 116, 97, 13, 10, 13]

/-- The same bytes in chunks that end inside the line ends. -/
def twoFramesCut : List (List UInt8) :=
  [[100, 97, 116, 97, 58, 49, 13], [10, 13], [10, 100, 97, 116, 97, 13, 10, 13]]

theorem twoFramesCut_decodes :
    (decode twoFramesCut).toOption.map (·.map (·.data)) = some ["1", ""] := by
  decide +kernel

theorem eq_ok_of_toOption {ε α : Type} {x : Except ε α} {a : α} (h : x.toOption = some a) :
    x = .ok a := by
  cases x with
  | error e => cases h
  | ok value => cases h; rfl

/-- The two ways to cut the example give the same frames. -/
theorem sse_decoder_chunking_twoFrames :
    ∃ frames, decode twoFramesCut = .ok frames ∧ decode [twoFrames] = .ok frames ∧
      frames.flatMap (fun frame => Text.bytes frame.raw) = twoFrames := by
  obtain ⟨frames, hframes, -⟩ := Option.map_eq_some_iff.mp twoFramesCut_decodes
  obtain ⟨hsame, hbytes⟩ := sse_decoder_chunking twoFramesCut [twoFrames] rfl
  have hcut : decode twoFramesCut = .ok frames := eq_ok_of_toOption hframes
  exact ⟨frames, hcut, eq_ok_of_toOption (hsame ▸ hframes), hbytes frames hcut⟩

theorem isSome_readFrames {ps : List (List UInt8)} {events : ℕ} (h : events ≤ maxEvents) :
    (readFrames events ps).toOption.isSome ↔ events + ps.length ≤ maxEvents ∧
      ∀ p ∈ ps, p.length ≤ maxFrameBytes ∧ (String.fromUTF8? ⟨p.toArray⟩).isSome := by
  induction ps generalizing events with
  | nil => simp [readFrames, Except.toOption, h]
  | cons first rest ih =>
    rw [readFrames, readFrame, forall_mem_cons, length_cons]
    split_ifs with hlong hfull
    · simp [Except.toOption, Nat.not_le.mpr hlong]
    · grind [Except.toOption]
    · cases String.fromUTF8? ⟨first.toArray⟩ with
      | none => simp [Except.toOption]
      | some raw =>
        have hrest := ih (Nat.not_lt.mp hfull)
        cases hread : readFrames (events + 1) rest <;> grind [Except.toOption, Except.map]

/-- **What the decoder accepts**, however it is cut: frames up to their blank lines and nothing
else, of readable text, within the limits. -/
theorem decode_accepts_iff (chunks : List (List UInt8)) :
    (decode chunks).toOption.isSome ↔ chunks.flatten.length ≤ maxTotalBytes ∧
      ∃ ps, pieces chunks.flatten = some ps ∧ ps.length ≤ maxEvents ∧
        ∀ p ∈ ps, p.length ≤ maxFrameBytes ∧ (String.fromUTF8? ⟨p.toArray⟩).isSome := by
  rw [toOption_decode, meaning]
  generalize chunks.flatten = bytes
  split
  · simp [Nat.not_le.mpr ‹_›]
  · cases pieces bytes with
    | none => simp
    | some ps => simpa [Nat.not_lt.mp ‹_›] using isSome_readFrames (Nat.zero_le maxEvents)

end KeyCompute.Sse
