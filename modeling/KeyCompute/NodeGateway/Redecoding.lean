import KeyCompute.Sse.Chunking
import KeyCompute.NodeGateway.StreamLog

/-!
# Decoding a frame again

The node sends each frame on as its raw text, and the gateway decodes that text with a decoder of
its own.  A piece of a stream is again exactly one piece (`pieces_of_mem`).

The first frame of a stream is read differently: a byte order mark is dropped there.  Decoded alone,
every frame is a first one, so a later frame that begins with the mark loses it
(`mark_dropped_again`).
-/

namespace KeyCompute.Sse

open Framing List

variable {bytes piece : List UInt8} {i stop n events : ℕ} {ps : List (List UInt8)}
  {frame : SseFrame} {frames : List SseFrame}

/-! ## Pieces -/

theorem eol_take (h : eol bytes i false = some n) (hle : i + n ≤ stop) :
    eol (bytes.take stop) i true = some n := by
  have hn := eol_le h
  have hi : (bytes.take stop)[i]? = bytes[i]? := getElem?_take_of_lt (by omega)
  unfold eol at h ⊢
  rw [hi]
  split at h
  · exact h
  · by_cases hnext : bytes[i + 1]? = some 10
    · rw [if_pos hnext] at h
      cases h
      rw [getElem?_take_of_lt (by omega), if_pos hnext]
    · rw [if_neg hnext] at h
      have hnot : (bytes.take stop)[i + 1]? ≠ some 10 := by
        rw [getElem?_take]
        split
        · exact hnext
        · exact nofun
      split at h
      · simp_all
      · cases h
  · cases h

theorem eol_take_none (h : eol bytes i false = none) (hlt : i + 1 < stop)
    (hle : stop ≤ bytes.length) : eol (bytes.take stop) i true = none := by
  have hi : (bytes.take stop)[i]? = bytes[i]? := getElem?_take_of_lt (by omega)
  unfold eol at h ⊢
  rw [hi]
  split at h
  · cases h
  · have hlong : i + 1 < bytes.length := by omega
    split at h
    · cases h
    · rw [if_pos (.inl hlong)] at h
      cases h
  · rfl

theorem delimiterEnd_take (h : delimiterEnd bytes i false = some stop) :
    delimiterEnd (bytes.take stop) i true = some stop := by
  have hbounds := delimiterEnd_bounds h
  refine delimiterEnd_congr h (length_take_of_le hbounds.2).ge (fun j n => eol_take)
    fun j hnone hlt => ?_
  exact eol_take_none hnone hlt hbounds.2

theorem pieces_of_end (h : delimiterEnd piece 0 true = some piece.length)
    (hcut : ∀ n, blankLine.cut piece = some n → n = piece.length) :
    pieces piece = some [piece] := by
  have hpos := delimiterEnd_bounds h
  cases hn : blankLine.cut piece with
  | none =>
    have hne : piece ≠ [] := by
      rintro rfl
      simp at hpos
    simp [pieces, blankLine.split_of_none hn, hne, h]
  | some n =>
    obtain rfl := hcut n hn
    have hnil : blankLine.split [] = ([], []) := blankLine.split_of_none rfl
    simp [pieces, blankLine.split_of_some hn, hnil]

theorem pieces_of_split (h : piece ∈ (blankLine.split bytes).1) : pieces piece = some [piece] := by
  induction bytes using blankLine.induct with
  | rest bytes hnone => simp [blankLine.split_of_none hnone] at h
  | frame bytes stop hcut ih =>
    rw [blankLine.split_of_some hcut] at h
    rcases mem_cons.mp h with rfl | h
    · have hlen : (bytes.take stop).length = stop := length_take_of_le (blankLine.le hcut)
      refine pieces_of_end ?_ fun n hn => ?_
      · rw [hlen]
        exact delimiterEnd_take hcut
      · have hstable := blankLine.stable (bytes.drop stop) hn
        rw [take_append_drop, hcut] at hstable
        rw [hlen, ← Option.some.inj hstable]
    · exact ih h

theorem pieces_of_mem (h : pieces bytes = some ps) (member : piece ∈ ps) :
    pieces piece = some [piece] := by
  simp only [pieces] at h
  split at h
  · cases h
    exact pieces_of_split member
  · split at h
    · rename_i hend
      cases h
      rcases mem_append.mp member with member | member
      · exact pieces_of_split member
      · obtain rfl := mem_singleton.mp member
        refine pieces_of_end hend fun n hn => ?_
        rw [blankLine.cut_rest] at hn
        cases hn
    · cases h

/-! ## The first line of a marked frame -/

/-- The text of the frame begins with a byte order mark. -/
def SseFrame.Marked (frame : SseFrame) : Prop := frame.raw.toList.head? = some byteOrderMark

/-- The first line behind the mark says nothing: it names no field that is read, or an event that
a later line replaces, or the only data of the frame, which is empty. -/
def SseFrame.Steady (frame : SseFrame) : Prop :=
  ∀ line rest, lines frame.raw.toList.tail [] = line :: rest →
    ((fieldOf line).1 = "event" → ∃ later ∈ rest, (fieldOf later).1 = "event") ∧
    ((fieldOf line).1 = "data" →
      (fieldOf line).2 = "" ∧ ∀ later ∈ rest, (fieldOf later).1 ≠ "data")

theorem fieldOf_cons {c : Char} (hc : c ≠ ':') (line : List Char) :
    (fieldOf (c :: line)).1.toList.head? = some c := by
  unfold fieldOf
  split <;> simp [hc]

theorem fieldOf_comment {line : List Char} (h : line.head? = some ':') : (fieldOf line).1 = "" := by
  obtain ⟨rest, rfl⟩ := head?_eq_some_iff.mp h
  unfold fieldOf
  split <;> simp_all

theorem read_eq (fields : Fields) (line : List Char) :
    fields.read line =
      if (fieldOf line).1 = "event" then { fields with event := some (fieldOf line).2 }
      else if (fieldOf line).1 = "data" then
        { fields with data := fields.data ++ [(fieldOf line).2] }
      else fields := by
  unfold Fields.read
  split
  · rw [fieldOf_comment ‹_›]
    simp
  · rcases fieldOf line with ⟨name, value⟩
    dsimp only
    split <;> simp_all

theorem data_foldl (lines : List (List Char)) (fields : Fields) :
    (lines.foldl Fields.read fields).data =
      fields.data ++ (lines.foldl Fields.read {}).data := by
  induction lines generalizing fields with
  | nil => simp
  | cons line rest ih =>
    rw [foldl_cons, foldl_cons, ih, ih (Fields.read {} line), read_eq, read_eq]
    split_ifs <;> simp

theorem event_foldl (lines : List (List Char)) (fields : Fields) :
    (lines.foldl Fields.read fields).event =
      (lines.foldl Fields.read {}).event.or fields.event := by
  induction lines generalizing fields with
  | nil => simp
  | cons line rest ih =>
    rw [foldl_cons, foldl_cons, ih, ih (Fields.read {} line), read_eq, read_eq]
    split_ifs <;> simp

theorem data_foldl_eq_nil {lines : List (List Char)} :
    (lines.foldl Fields.read {}).data = [] ↔ ∀ line ∈ lines, (fieldOf line).1 ≠ "data" := by
  induction lines with
  | nil => simp
  | cons line rest ih =>
    rw [foldl_cons, data_foldl, append_eq_nil_iff, ih, read_eq, forall_mem_cons]
    split_ifs <;> simp_all

theorem isSome_event_foldl {lines : List (List Char)} :
    (lines.foldl Fields.read {}).event.isSome ↔ ∃ line ∈ lines, (fieldOf line).1 = "event" := by
  induction lines with
  | nil => simp
  | cons line rest ih =>
    rw [foldl_cons, event_foldl, Option.isSome_or, Bool.or_eq_true, ih, read_eq]
    split_ifs <;> simp_all

theorem intercalate_cons_eq {value : String} {rest : List String} :
    "\n".intercalate (value :: rest) = "\n".intercalate rest ↔ value = "" ∧ rest = [] := by
  cases rest with
  | nil => simp
  | cons next rest =>
    rw [String.intercalate_cons_cons]
    constructor
    · intro h
      have hlen := congrArg String.length h
      simp only [String.length_append, show "\n".length = 1 from rfl] at hlen
      omega
    · rintro ⟨-, ⟨⟩⟩

/-- A character in front of a text belongs to its first line. -/
theorem exists_lines_append (m : Char) (text current : List Char) :
    ∃ line rest, lines text (current ++ [m]) = (m :: line) :: rest ∧
      (lines text current = line :: rest ∨
        lines text current = [] ∧ line = [] ∧ rest = []) := by
  induction text, current using lines.induct with
  | case1 current h => simp_all [lines]
  | case2 current h => simp_all [lines]
  | case3 current rest ih => simp [lines]
  | case4 current rest h ih => simp [lines]
  | case5 current rest ih => simp [lines]
  | case6 current c rest h1 h2 h3 ih =>
    rw [lines.eq_5 _ _ _ h1 h2 h3, lines.eq_5 _ _ _ h1 h2 h3]
    exact ih

theorem exists_lines_mark {text : List Char} (h : text.head? = some byteOrderMark) :
    ∃ line rest, lines text [] = (byteOrderMark :: line) :: rest ∧
      (lines text.tail [] = line :: rest ∨
        lines text.tail [] = [] ∧ line = [] ∧ rest = []) := by
  obtain ⟨rest, rfl⟩ := head?_eq_some_iff.mp h
  exact exists_lines_append byteOrderMark rest []

/-- The mark hides the first line, so nothing of it is read. -/
theorem read_mark (line : List Char) : Fields.read {} (byteOrderMark :: line) = {} := by
  have hname := fieldOf_cons (show byteOrderMark ≠ ':' by decide) line
  rw [read_eq, if_neg, if_neg]
  · intro h
    rw [h] at hname
    exact absurd hname (by decide)
  · intro h
    rw [h] at hname
    exact absurd hname (by decide)

theorem read_line_iff (line : List Char) (rest : List (List Char)) :
    ((line :: rest).foldl Fields.read {}).event = (rest.foldl Fields.read {}).event ∧
        "\n".intercalate ((line :: rest).foldl Fields.read {}).data =
          "\n".intercalate (rest.foldl Fields.read {}).data ↔
      ((fieldOf line).1 = "event" → ∃ later ∈ rest, (fieldOf later).1 = "event") ∧
        ((fieldOf line).1 = "data" →
          (fieldOf line).2 = "" ∧ ∀ later ∈ rest, (fieldOf later).1 ≠ "data") := by
  rw [foldl_cons, event_foldl, data_foldl, ← isSome_event_foldl, ← data_foldl_eq_nil, read_eq]
  split_ifs with hevent hdata
  · cases (rest.foldl Fields.read {}).event <;> simp [hevent]
  · simp [hdata, intercalate_cons_eq]
  · simp [hevent, hdata]

/-- **The mark of a frame matters only where its first line says something.** -/
theorem parseFrame_first_iff (raw : String) (first : Bool) :
    parseFrame raw true = parseFrame raw first ↔
      first = true ∨ ((parseFrame raw first).Marked → (parseFrame raw first).Steady) := by
  cases first with
  | true => simp
  | false =>
    by_cases hmark : raw.toList.head? = some byteOrderMark
    · obtain ⟨line, rest, hkept, hdropped⟩ := exists_lines_mark hmark
      have hmarked : (parseFrame raw false).Marked := hmark
      simp only [Bool.false_eq_true, false_or, hmarked, true_imp_iff, SseFrame.Steady]
      rcases hdropped with hlines | ⟨hlines, rfl, rfl⟩
      · simpa [parseFrame, hmark, hkept, hlines, read_mark] using read_line_iff line rest
      · simp [parseFrame, hmark, hkept, hlines, read_mark]
    · have hmarked : ¬ (parseFrame raw false).Marked := hmark
      simp only [hmarked, false_imp_iff, or_true, iff_true]
      simp [parseFrame, hmark]

/-! ## Frames -/

theorem readFrame_alone (h : readFrame events piece = .ok frame) :
    frame = parseFrame frame.raw (events = 0) ∧
      readFrame 0 piece = .ok (parseFrame frame.raw true) := by
  unfold readFrame at h ⊢
  split at h
  · cases h
  · rw [if_neg ‹_›, if_neg (by decide)]
    split at h
    · cases h
    · cases hraw : String.fromUTF8? ⟨piece.toArray⟩ with
      | none => simp [hraw] at h
      | some raw =>
        simp only [hraw, Except.ok.injEq] at h ⊢
        subst h
        simp [parseFrame]

theorem readFrame_of_readFrames (h : readFrames events ps = .ok frames)
    (hi : frames[i]? = some frame) :
    ∃ piece ∈ ps, readFrame (events + i) piece = .ok frame := by
  induction ps generalizing events frames i with
  | nil =>
    cases h
    simp at hi
  | cons first rest ih =>
    rw [readFrames] at h
    cases hfirst : readFrame events first with
    | error e => simp [hfirst] at h
    | ok head =>
      cases hrest : readFrames (events + 1) rest with
      | error e => simp [hfirst, hrest, Except.map] at h
      | ok tail =>
        simp only [hfirst, hrest, Except.map, Except.ok.injEq] at h
        subst h
        cases i with
        | zero =>
          cases hi
          exact ⟨first, mem_cons_self, hfirst⟩
        | succ i =>
          obtain ⟨piece, member, hpiece⟩ := ih hrest hi
          exact ⟨piece, mem_cons_of_mem _ member, by rw [← hpiece]; congr 1; omega⟩

/-- **A frame of a stream, decoded alone, is that frame** exactly if it was the first one, has no
mark or is steady. -/
theorem meaning_of_frame (h : meaning bytes = some frames) (hi : frames[i]? = some frame) :
    meaning (Text.bytes frame.raw) = some [frame] ↔
      i = 0 ∨ (frame.Marked → frame.Steady) := by
  unfold meaning at h
  split at h
  · cases h
  · obtain ⟨ps, hps, hread⟩ := Option.bind_eq_some_iff.mp h
    obtain ⟨piece, member, hpiece⟩ := readFrame_of_readFrames (eq_ok_of_toOption hread) hi
    obtain ⟨hframe, halone⟩ := readFrame_alone hpiece
    have hlen : piece.length ≤ bytes.length := by
      rw [← flatten_pieces hps]
      exact (sublist_flatten_of_mem member).length_le
    have hone : meaning (Text.bytes frame.raw) = some [parseFrame frame.raw true] := by
      rw [bytes_readFrame hpiece, meaning, if_neg (by omega), pieces_of_mem hps member]
      simp [readFrames, halone, Except.map, Except.toOption]
    have hsame := parseFrame_first_iff frame.raw (0 + i = 0)
    rw [← hframe] at hsame
    simpa [hone] using hsame

theorem decodeOne_eq (raw : String) :
    decodeOne raw = (decode [Text.bytes raw]).toOption.bind fun frames =>
      match frames with
      | [frame] => if frame.raw = raw then some frame else none
      | _ => none := by
  unfold decodeOne decode feed feed
  cases BoundedSseDecoder.push {} (Text.bytes raw) with
  | error e => rfl
  | ok result =>
    obtain ⟨frames, decoder⟩ := result
    simp only [Except.map, append_nil]
    cases decoder.finish <;> rfl

end KeyCompute.Sse

namespace KeyCompute.NodeGateway

open Sse

/-! ## The summary of a stream -/

section Summary

variable {ι : Type} (inspector : Inspector ι) (protocol : NativeStreamProtocol)
  (model : Option String)

def Inspector.observeAll (frames : List SseFrame) : ι :=
  frames.foldl (fun state frame => inspector.observeForModel state frame model)
    (inspector.new protocol)

/-- The gateway decodes each text it is sent and inspects what it has decoded. -/
def Inspector.observeTexts (raws : List String) : Option ι :=
  raws.foldlM (fun state raw => (decodeOne raw).map fun frame =>
    inspector.observeForModel state frame model) (inspector.new protocol)

theorem observeTexts_eq {frames : List SseFrame}
    (h : ∀ frame ∈ frames, decodeOne frame.raw = some frame) :
    inspector.observeTexts protocol model (frames.map (·.raw)) =
      some (inspector.observeAll protocol model frames) := by
  unfold Inspector.observeTexts Inspector.observeAll
  generalize inspector.new protocol = state
  induction frames generalizing state with
  | nil => rfl
  | cons frame rest ih =>
    rw [List.map_cons, List.foldlM_cons, h frame List.mem_cons_self]
    exact ih (fun f hf => h f (List.mem_cons_of_mem _ hf)) _

end Summary

/-- **Frames survive decoding again exactly if every later frame with a mark is steady.**  Each
frame, decoded alone in any chunks, is that one frame, and the gateway's summary of the texts is
the node's summary of the stream, whatever the inspector is. -/
theorem frames_survive_redecoding (chunks : List (List UInt8)) (frames : List SseFrame)
    (decoded : decode chunks = .ok frames) :
    ((∀ frame ∈ frames, ∀ again : List (List UInt8), again.flatten = Text.bytes frame.raw →
      decode again = .ok [frame]) ∧
    ∀ (ι : Type) (inspector : Inspector ι) (protocol : NativeStreamProtocol)
      (model : Option String) (status : ℕ) (headers : List (String × String)),
      (inspector.observeTexts protocol model (frames.map (·.raw))).map
          (inspector.summary · status headers) =
        some (inspector.summary (inspector.observeAll protocol model frames) status headers)) ↔
      ∀ frame ∈ frames.tail, frame.Marked → frame.Steady := by
  have hmeaning : meaning chunks.flatten = some frames := by
    rw [← toOption_decode, decoded]
    rfl
  have halone {frame : SseFrame} {i : ℕ} (hi : frames[i]? = some frame)
      {again : List (List UInt8)} (same : again.flatten = Text.bytes frame.raw) :
      decode again = .ok [frame] ↔ i = 0 ∨ (frame.Marked → frame.Steady) := by
    rw [← meaning_of_frame hmeaning hi, ← same, ← toOption_decode]
    exact ⟨fun h => by rw [h]; rfl, eq_ok_of_toOption⟩
  constructor
  · rintro ⟨survives, -⟩ frame member
    obtain ⟨i, hi⟩ := List.mem_iff_getElem?.mp member
    rw [List.getElem?_tail] at hi
    have hself := survives frame (List.mem_of_getElem? hi) [Text.bytes frame.raw] (by simp)
    exact ((halone hi (by simp)).mp hself).resolve_left (Nat.succ_ne_zero i)
  · intro steady
    have survives (frame : SseFrame) (member : frame ∈ frames) (again : List (List UInt8))
        (same : again.flatten = Text.bytes frame.raw) : decode again = .ok [frame] := by
      obtain ⟨i, hi⟩ := List.mem_iff_getElem?.mp member
      refine (halone hi same).mpr ?_
      cases i with
      | zero => exact .inl rfl
      | succ i =>
        refine .inr (steady frame (List.mem_iff_getElem?.mpr ⟨i, ?_⟩))
        rw [List.getElem?_tail, hi]
    refine ⟨survives, fun ι inspector protocol model status headers => ?_⟩
    rw [observeTexts_eq inspector protocol model fun frame member => ?_]
    · rfl
    · rw [decodeOne_eq, survives frame member _ (List.append_nil _)]
      simp [Except.toOption]

/-- `data:1`, and a second frame whose mark stands in front of the comment `:c`. -/
def markedComment : List UInt8 :=
  [100, 97, 116, 97, 58, 49, 10, 10, 0xEF, 0xBB, 0xBF, 58, 99, 10, 100, 97, 116, 97, 58, 50, 10, 10]

theorem frames_survive_redecoding_markedComment :
    ∃ first second, decode [markedComment] = .ok [first, second] ∧ second.Marked ∧
      decode [Text.bytes second.raw] = .ok [second] := by
  have hdecode : (decode [markedComment]).toOption =
      some [⟨"data:1\n\n", none, "1"⟩, ⟨"\uFEFF:c\ndata:2\n\n", none, "2"⟩] := by
    decide +kernel
  have hlines : lines "\uFEFF:c\ndata:2\n\n".toList.tail [] =
      [[':', 'c'], ['d', 'a', 't', 'a', ':', '2'], []] := by
    decide +kernel
  have hsurvive := (frames_survive_redecoding _ _ (eq_ok_of_toOption hdecode)).mpr ?_
  · exact ⟨_, _, eq_ok_of_toOption hdecode, by unfold SseFrame.Marked; decide +kernel,
      hsurvive.1 _ (by simp) _ (List.append_nil _)⟩
  · rintro frame member -
    obtain rfl := List.mem_singleton.mp member
    intro line rest h
    rw [hlines] at h
    cases h
    refine ⟨fun hname => absurd hname ?_, fun hname => absurd hname ?_⟩ <;> decide +kernel

/-- `data:1` and a second frame `data:2` behind a byte order mark. -/
def markedLater : List UInt8 :=
  [100, 97, 116, 97, 58, 49, 10, 10, 0xEF, 0xBB, 0xBF, 100, 97, 116, 97, 58, 50, 10, 10]

/-- The mark hides the field name `data` from the node, and the gateway drops it. -/
theorem mark_dropped_again :
    ((decode [markedLater]).toOption.map (·.map (·.data))) = some ["1", ""] ∧
      ((decode [markedLater]).toOption.map (·.map fun frame =>
        (decode [Text.bytes frame.raw]).toOption.map (·.map (·.data)))) =
        some [some ["1"], some ["2"]] := by
  refine ⟨?_, ?_⟩ <;> decide +kernel

end KeyCompute.NodeGateway
