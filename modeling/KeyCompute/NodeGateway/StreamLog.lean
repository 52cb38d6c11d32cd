import KeyCompute.NodeGateway.Record
import KeyCompute.Sse.Decoder

/-!
# The event log of a native stream

A worker sends the events of a stream in order, each under a sequence number, until one is accepted;
the request that waits for them reads and acknowledges them in order; and a canceller may close the
stream at any time.  Each of these is one transaction under the lock of the stream's row.

* `Inspector` is the accounting of the stream's protocol, kept in the row and opened nowhere here.
* What the tables of tenants, sessions and capabilities answer to a call is `StreamChecks`.
-/

namespace KeyCompute.NodeGateway

open Relational Tx

/-- `NativeStreamInspector`, by its operations. -/
structure Inspector (ι : Type) where
  new : NativeStreamProtocol → ι
  observeForModel : ι → Sse.SseFrame → Option String → ι
  isTerminal : ι → Bool
  isFailed : ι → Bool
  summary : ι → ℕ → List (String × String) → NodeNativeStreamSummary

structure NodeTaskStreamEventRequest where
  nodeId : Uuid
  sessionId : Uuid
  taskId : Uuid
  leaseId : Uuid
  seq : ℕ
  event : NodeNativeStreamEvent

structure NodeTaskStreamEventResponse where
  accepted : Bool
  nextSeq : ℕ
  retryAfterMs : Option ℕ
  terminal : Bool
  deriving DecidableEq

/-- What the session's capability profile allows a stream. -/
structure StreamGrant where
  operation : NodeNativeOperation
  maxResponseBytes : ℕ
  maxOutputTokens : Option ℕ

/-- What the checks around the stream answer: that both tenants are active, and that the session
is live and its profile covers the task's request. -/
structure StreamChecks where
  tenants : Except DbError Unit
  session : Except DbError StreamGrant

/-! ## Limits and headers -/

/-- The largest sequence number: `4096` frames between a start and a terminal event. -/
def maxStreamSeq : ℕ := 4097

def maxStreamEventBytes : ℕ := 1024 * 1024

/-- The events and bytes that may wait for the reader. -/
def maxUnreadFrames : ℤ := 64

def maxUnreadBytes : ℤ := 512 * 1024

/-- `mime.trim().eq_ignore_ascii_case("text/event-stream")`, on the part before a parameter. -/
def isEventStream (value : String) : Bool :=
  (Text.trim (String.ofList (value.toList.takeWhile (· ≠ ';')))).toLower = "text/event-stream"

def streamResponseHeaderAllowed (name value : String) : Bool :=
  decide (value.utf8ByteSize ≤ 256) &&
    (Text.bytes value).all (fun byte => 32 ≤ byte && byte < 127) &&
    if name.toLower = "content-type" then isEventStream value
    else ["retry-after", "x-request-id", "request-id", "x-ratelimit-limit-requests",
      "x-ratelimit-remaining-requests", "x-ratelimit-reset-requests", "x-ratelimit-limit-tokens",
      "x-ratelimit-remaining-tokens", "x-ratelimit-reset-tokens"].contains name.toLower

def startHeadersOk (headers : List (String × String)) : Bool :=
  decide (headers.length ≤ 64) &&
    headers.any (fun header => header.1.toLower = "content-type" && isEventStream header.2) &&
    headers.all fun header => streamResponseHeaderAllowed header.1 header.2

/-! ## One event -/

section Accept

variable {ι : Type} (inspector : Inspector ι) (sha256 : String → String)

/-- A final event is taken however much the reader has left to read. -/
def NodeNativeStreamEvent.isFinal : NodeNativeStreamEvent → Bool
  | terminal _ => true
  | failed _ _ _ => true
  | _ => false

def startRow (r : NodeTaskStreamEventRequest) (grant : StreamGrant) (now : Timestamp) :
    Except DbError (NativeStream ι) :=
  match r.event with
  | .start status headers body =>
    if r.seq ≠ 0 ∨ status ≠ 200 ∨ body.isSome ∨ ¬ startHeadersOk headers then
      .error (error "native_stream_start_invalid")
    else
      .ok {
        taskId := r.taskId, leaseId := r.leaseId, nodeId := r.nodeId, sessionId := r.sessionId,
        state := .open, nextSeq := 0, unreadFrames := 0, unreadBytes := 0, totalBytes := 0,
        inspector := inspector.new (streamProtocol grant.operation),
        headStatus := 200, headHeaders := headers, summary := none, createdAt := now,
        events := [] }
  | _ => .error (error "native_stream_must_start_at_seq_zero")

/-- The row that is there, or the one a first event opens. -/
def currentRow (r : NodeTaskStreamEventRequest) (grant : StreamGrant)
    (current : Option (NativeStream ι)) (now : Timestamp) : Except DbError (NativeStream ι) :=
  match current with
  | some row => .ok row
  | none => startRow inspector r grant now

/-- The reader is too far behind for one more event. -/
def backpressure (row : NativeStream ι) (event : NodeNativeStreamEvent) : Bool :=
  !event.isFinal && (decide (maxUnreadFrames ≤ row.unreadFrames) ||
    decide (0 < row.unreadFrames ∧ maxUnreadBytes < row.unreadBytes + event.size))

def overOutputLimit (grant : StreamGrant) (summary : NodeNativeStreamSummary) : Bool :=
  summary.usage.any fun usage =>
    usage.outputExact && grant.maxOutputTokens.any fun limit => limit < usage.outputTokens

def observeEvent (grant : StreamGrant) (model : String) (seq : ℕ) (row : NativeStream ι) :
    NodeNativeStreamEvent → Except DbError (NativeStream ι)
  | .start _ _ _ =>
    if seq ≠ 0 then .error (error "native_stream_duplicate_start") else .ok row
  | .data frame =>
    if inspector.isTerminal row.inspector then .error (error "native_stream_already_terminal")
    else if frame.utf8ByteSize > Sse.maxFrameBytes then
      .error (error "native_stream_frame_limit")
    else if row.totalBytes + frame.utf8ByteSize > Sse.maxTotalBytes ∨
        row.totalBytes + frame.utf8ByteSize > grant.maxResponseBytes then
      .error (error "native_stream_total_limit")
    else
      match Sse.decodeOne frame with
      | none => .error (error "native_stream_frame_invalid")
      | some decoded =>
        .ok { row with
          totalBytes := row.totalBytes + frame.utf8ByteSize,
          inspector := inspector.observeForModel row.inspector decoded (some model) }
  | .terminal summary =>
    let verified := inspector.summary row.inspector 200 row.headHeaders
    if overOutputLimit grant verified then .error (error "native_stream_total_limit")
    else if ¬ inspector.isTerminal row.inspector ∨ inspector.isFailed row.inspector ∨
        summary ≠ verified then
      .error (error "native_stream_terminal_mismatch")
    else .ok { row with summary := some verified, state := .terminal }
  | .failed code message usage =>
    let verified := inspector.summary row.inspector 200 row.headHeaders
    if inspector.isTerminal row.inspector ∧ ¬ inspector.isFailed row.inspector then
      .error (error "native_stream_already_terminal")
    else if code.utf8ByteSize > 128 ∨ message.utf8ByteSize > 1024 then
      .error (error "native_stream_error_limit")
    else if usage ≠ verified.usage then .error (error "native_stream_usage_mismatch")
    else
      .ok { row with
        summary := some { verified with terminalOutcome := some .failed }, state := .failed }

def NativeStream.counted (row : NativeStream ι) (event : NodeNativeStreamEvent) :
    NativeStream ι :=
  { row with
    nextSeq := row.nextSeq + 1,
    unreadFrames := row.unreadFrames + 1,
    unreadBytes := row.unreadBytes + event.size,
    events := row.events ++ [{
      seq := row.nextSeq, eventJson := some event, eventHash := sha256 event.encoded,
      eventBytes := event.size, consumedAt := none, content := event }] }

/-- The stream's row is inserted unless it is there, and updated. -/
def NodeStore.putStream (row : NativeStream ι) (store : NodeStore ι) : NodeStore ι :=
  { store with
    streams := updateKey NativeStream.key row.key (fun _ => row)
      (insertIfAbsent NativeStream.key row store.streams) }

/-- An event that is the next one of its stream, or the first. -/
def acceptNext (r : NodeTaskStreamEventRequest) (grant : StreamGrant) (task : NodeTask)
    (current : Option (NativeStream ι)) (now : Timestamp) :
    Tx (NodeStore ι) DbError NodeTaskStreamEventResponse := do
  failIf task.status.isTerminal (error "native_stream_already_terminal")
  failIf (¬ (task.status = .leased ∧ now < task.deadlineAt)) (error "native_stream_deadline")
  let row ← lift (currentRow inspector r grant current now)
  failIf (r.seq ≠ row.nextSeq) (error "native_stream_sequence_gap")
  if row.state ≠ .open then
    pure { accepted := false, nextSeq := r.seq, retryAfterMs := none, terminal := true }
  else if backpressure row r.event then
    pure { accepted := false, nextSeq := r.seq, retryAfterMs := some 50, terminal := false }
  else do
    let row ← lift (observeEvent inspector grant task.model r.seq row r.event)
    modify (NodeStore.putStream (row.counted sha256 r.event))
    pure {
      accepted := true, nextSeq := r.seq + 1, retryAfterMs := none,
      terminal := row.state ≠ .open }

/-- An event under a sequence number that is taken: it has to be the same event. -/
def acceptAgain (r : NodeTaskStreamEventRequest) (task : NodeTask) (row : NativeStream ι) :
    Except DbError NodeTaskStreamEventResponse :=
  if row.events.any fun event => event.seq = r.seq && event.eventHash = sha256 r.event.encoded then
    .ok {
      accepted := true, nextSeq := r.seq + 1, retryAfterMs := none,
      terminal := row.state ≠ .open || task.status.isTerminal }
  else .error (error "native_stream_sequence_conflict")

def acceptNativeStreamEvent (r : NodeTaskStreamEventRequest) (checks : StreamChecks)
    (now : Timestamp) : Tx (NodeStore ι) DbError NodeTaskStreamEventResponse := do
  failIf (r.seq > maxStreamSeq) (error "native_stream_event_limit")
  failIf (r.event.size > maxStreamEventBytes) (error "native_stream_event_limit")
  lift checks.tenants
  let found ← read fun store => store.task? r.taskId
  let task ← okOr found (error "native_stream_lease_mismatch")
  failIf (¬ task.HeldBy r.nodeId r.sessionId r.leaseId) (error "native_stream_lease_mismatch")
  let grant ← lift checks.session
  let current ← read fun store => store.stream? r.taskId r.leaseId
  match current with
  | some row =>
    if r.seq < row.nextSeq then lift (acceptAgain sha256 r task row)
    else do
      failIf (r.seq > row.nextSeq) (error "native_stream_sequence_gap")
      acceptNext inspector sha256 r grant task current now
  | none => acceptNext inspector sha256 r grant task current now

end Accept

/-! ## Reading, acknowledging and cancelling -/

section Consume

variable {ι : Type}

/-- The event is read: its body is erased, its hash and size stay. -/
def NativeEvent.consume (now : Timestamp) (event : NativeEvent) : NativeEvent :=
  { event with consumedAt := some now, eventJson := none }

def NativeStream.consumed (row : NativeStream ι) (event : NativeEvent) (now : Timestamp) :
    NativeStream ι :=
  { row with
    unreadFrames := row.unreadFrames - 1,
    unreadBytes := row.unreadBytes - event.eventBytes,
    events := updateKey NativeEvent.seq event.seq (·.consume now) row.events }

/-- `acknowledge_native_stream_event`.  A task may have a stream under each of its leases, and the
query takes one of them, the one at `pick`. -/
def acknowledgeNativeStreamEvent (taskId leaseId : Uuid) (seq pick : ℕ) (now : Timestamp) :
    Tx (NodeStore ι) DbError Unit := do
  let found ← read fun store => (store.streams.filter (·.taskId = taskId))[pick]?
  let row ← okOr found (error "native_stream_not_found")
  failIf (row.leaseId ≠ leaseId) (error "native_stream_lease_mismatch")
  let event ← okOr (lookup NativeEvent.seq seq row.events)
    (error "native_stream_sequence_conflict")
  if event.consumedAt.isNone then do
    failIf (row.unreadFrames - 1 < 0 ∨ row.unreadBytes - event.eventBytes < 0)
      (.databaseError "node_native_streams_unread_check")
    modify (NodeStore.putStream (row.consumed event now))
  else pure ()

variable (inspector : Inspector ι)

/-- `ORDER BY created_at DESC LIMIT 1`, with any choice among the latest. -/
def latestStream? (taskId : Uuid) (pick : ℕ) (store : NodeStore ι) : Option (NativeStream ι) :=
  let rows := store.streams.filter (·.taskId = taskId)
  (rows.filter fun row => rows.all (·.createdAt ≤ row.createdAt))[pick]?

def failInterrupted (taskId : Uuid) (reason : String) (now : Timestamp) :
    Tx (NodeStore ι) DbError Unit := do
  let _ ← updateTasks now (fun row => row.id = taskId && !row.status.isTerminal) fun row =>
    { row with
      status := .failed, finishedAt := some now,
      errorJson := some (.ofFields [
        ("code", .string (String.ofList (reason.toList.take 128))),
        ("message", .string "native stream interrupted")]) }

/-- The open streams of the task are canceled, with the summary of one of them. -/
def cancelOpen (taskId : Uuid) (summary : NodeNativeStreamSummary) :
    Tx (NodeStore ι) DbError Unit :=
  modify fun store => { store with
    streams := updateWhere (fun row => row.taskId = taskId && row.state = .open)
      (fun row => { row with
        state := .canceled, summary := some { summary with terminalOutcome := some .failed } })
      store.streams }

/-- `cancel_native_stream_with_scope`, with the tenant and user the caller is confined to. -/
def cancelNativeStream (taskId : Uuid) (scope : Option Principal) (reason : String) (pick : ℕ)
    (now : Timestamp) : Tx (NodeStore ι) DbError Unit := do
  let found ← read fun store => (store.task? taskId).filter fun task =>
    scope.all fun owner => task.tenantId = owner.tenantId && task.userId = owner.userId
  let task ← okOr found (.notFound "NodeTask" (toString taskId))
  let stream ← read (latestStream? taskId pick)
  -- a successful terminal event still waits for its completion
  if stream.any (·.state = .terminal) then pure ()
  else do
    when (!task.status.isTerminal) (failInterrupted taskId reason now)
    match stream with
    | some row =>
      when (row.state = .open)
        (cancelOpen taskId (inspector.summary row.inspector row.headStatus row.headHeaders))
    | none => pure ()

end Consume

/-! ## What the calls commit -/

section Committed

variable {ι : Type} {inspector : Inspector ι} {sha256 : String → String}
  {store store' : NodeStore ι} {now : Timestamp} {row row' : NativeStream ι}
  {r : NodeTaskStreamEventRequest} {answer : NodeTaskStreamEventResponse}

structure Observed (event : NodeNativeStreamEvent) (row row' : NativeStream ι) : Prop where
  key : row'.key = row.key
  events : row'.events = row.events
  nextSeq : row'.nextSeq = row.nextSeq
  unreadFrames : row'.unreadFrames = row.unreadFrames
  unreadBytes : row'.unreadBytes = row.unreadBytes
  totalBytes : row'.totalBytes = row.totalBytes + event.frameBytes
  /-- a final event closes the stream -/
  closes : event.isFinal → row'.state ≠ .open
  stays : event.isFinal = false → row'.state = row.state

variable {grant : StreamGrant} {current : Option (NativeStream ι)}

theorem observeEvent_eq_ok {model : String} {seq : ℕ} {event : NodeNativeStreamEvent}
    (h : observeEvent inspector grant model seq row event = .ok row') :
    Observed event row row' := by
  cases event with
  | start status headers body =>
    simp only [observeEvent] at h
    split at h
    · cases h
    · cases h
      exact ⟨rfl, rfl, rfl, rfl, rfl, rfl, (fun h => nomatch h), fun _ => rfl⟩
  | data frame =>
    simp only [observeEvent] at h
    repeat' split at h
    all_goals cases h
    exact ⟨rfl, rfl, rfl, rfl, rfl, rfl, (fun h => nomatch h), fun _ => rfl⟩
  | terminal | failed =>
    simp only [observeEvent] at h
    repeat' split at h
    all_goals cases h
    exact ⟨rfl, rfl, rfl, rfl, rfl, rfl, (fun _ h => nomatch h), fun h => nomatch h⟩

structure NativeStream.Fresh (row : NativeStream ι) : Prop where
  state : row.state = .open
  nextSeq : row.nextSeq = 0
  unreadFrames : row.unreadFrames = 0
  unreadBytes : row.unreadBytes = 0
  totalBytes : row.totalBytes = 0
  events : row.events = []

theorem startRow_eq_ok (h : startRow inspector r grant now = .ok row) :
    row.Fresh ∧ row.key = (r.taskId, r.leaseId) := by
  unfold startRow at h
  split at h
  · split at h
    · cases h
    · cases h
      exact ⟨⟨rfl, rfl, rfl, rfl, rfl, rfl⟩, rfl⟩
  · cases h

/-- **What an event commits**, by the answer to it: nothing if it is refused or known, or the event
at the end of the log of an open stream. -/
inductive Appended (sha256 : String → String) (r : NodeTaskStreamEventRequest)
    (current : Option (NativeStream ι)) (store : NodeStore ι) : Bool → NodeStore ι → Prop
  | refused : Appended sha256 r current store false store
  | again {row : NativeStream ι} (found : current = some row) (seq : r.seq < row.nextSeq) :
      Appended sha256 r current store true store
  | appended {row row' : NativeStream ι}
      (source : current = some row ∨ (current = none ∧ row.Fresh))
      (key : row.key = (r.taskId, r.leaseId)) (seq : r.seq = row.nextSeq)
      (live : row.state = .open) (room : backpressure row r.event = false)
      (observed : Observed r.event row row') :
      Appended sha256 r current store true (store.putStream (row'.counted sha256 r.event))

theorem currentRow_eq_ok (key : ∀ row, current = some row → row.key = (r.taskId, r.leaseId))
    (h : currentRow inspector r grant current now = .ok row) :
    (current = some row ∨ (current = none ∧ row.Fresh)) ∧ row.key = (r.taskId, r.leaseId) := by
  cases current with
  | some found =>
    cases h
    exact ⟨.inl rfl, key _ rfl⟩
  | none =>
    obtain ⟨hfresh, hkey⟩ := startRow_eq_ok h
    exact ⟨.inr ⟨rfl, hfresh⟩, hkey⟩

theorem acceptNext_eq_ok {task : NodeTask}
    (key : ∀ row, current = some row → row.key = (r.taskId, r.leaseId))
    (h : acceptNext inspector sha256 r grant task current now store = (.ok answer, store')) :
    Appended sha256 r current store answer.accepted store' := by
  simp only [acceptNext, inv, Tx.ite_apply] at h
  obtain ⟨_, -, _, -, row, hrow, _, hseq, h⟩ := h
  obtain ⟨hsource, hkey⟩ := currentRow_eq_ok key hrow
  split at h
  · cases h
    exact .refused
  · rename_i hopen
    split at h
    · cases h
      exact .refused
    · rename_i hroom
      simp only [inv] at h
      obtain ⟨row', hobserved, _, _, rfl, rfl, rfl⟩ := h
      exact .appended hsource hkey (not_not.mp hseq) (not_not.mp hopen) (by simpa using hroom)
        (observeEvent_eq_ok hobserved)

theorem acceptNativeStreamEvent_eq_ok {checks : StreamChecks}
    (h : acceptNativeStreamEvent inspector sha256 r checks now store = (.ok answer, store')) :
    r.seq ≤ maxStreamSeq ∧ r.event.size ≤ maxStreamEventBytes ∧
      Appended sha256 r (store.stream? r.taskId r.leaseId) store answer.accepted store' := by
  simp only [acceptNativeStreamEvent, inv] at h
  obtain ⟨_, hseq, _, hsize, _, -, _, rfl, task, -, _, -, grant, -, _, rfl, h⟩ := h
  refine ⟨not_lt.mp hseq, not_lt.mp hsize, ?_⟩
  have hkey : ∀ row, store.stream? r.taskId r.leaseId = some row →
      row.key = (r.taskId, r.leaseId) := fun row hrow => key_of_lookup hrow
  cases hcurrent : store.stream? r.taskId r.leaseId with
  | none =>
    simp only [hcurrent] at h
    exact acceptNext_eq_ok (fun row hrow => nomatch hrow) h
  | some row =>
    simp only [hcurrent, Tx.ite_apply] at h
    split at h
    · rename_i hseq
      obtain ⟨hagain, rfl⟩ := lift_eq_ok.mp h
      unfold acceptAgain at hagain
      split at hagain
      · cases hagain
        exact .again rfl hseq
      · cases hagain
    · simp only [inv] at h
      obtain ⟨_, -, h⟩ := h
      exact acceptNext_eq_ok (hcurrent ▸ hkey) h

/-- **What an acknowledgement commits**: nothing if the event was read before, or it is read. -/
inductive Acknowledged (key : Uuid × Uuid) (seq : ℕ) (now : Timestamp) (store : NodeStore ι) :
    NodeStore ι → Prop
  | again {row : NativeStream ι} {event : NativeEvent} (member : row ∈ store.streams)
      (of : row.key = key) (found : lookup NativeEvent.seq seq row.events = some event)
      (read : event.consumedAt ≠ none) : Acknowledged key seq now store store
  | consumed {row : NativeStream ι} {event : NativeEvent} (member : row ∈ store.streams)
      (of : row.key = key) (found : lookup NativeEvent.seq seq row.events = some event)
      (unread : event.consumedAt = none) :
      Acknowledged key seq now store (store.putStream (row.consumed event now))

theorem acknowledgeNativeStreamEvent_eq_ok {taskId leaseId : Uuid} {seq pick : ℕ} {u : Unit}
    (h : acknowledgeNativeStreamEvent taskId leaseId seq pick now store = (.ok u, store')) :
    Acknowledged (taskId, leaseId) seq now store store' := by
  simp only [acknowledgeNativeStreamEvent, inv, Tx.ite_apply] at h
  obtain ⟨_, rfl, row, hrow, _, hlease, event, hevent, h⟩ := h
  obtain ⟨hmem, htask⟩ := List.mem_filter.mp (List.mem_of_getElem? hrow)
  have hkey : row.key = (taskId, leaseId) :=
    Prod.ext (of_decide_eq_true htask) (not_not.mp hlease)
  split at h
  · rename_i hunread
    simp only [inv] at h
    obtain ⟨_, -, rfl⟩ := h
    exact .consumed hmem hkey hevent (by simpa using hunread)
  · rename_i hread
    cases h
    exact .again hmem hkey hevent (by simpa using hread)

theorem failInterrupted_eq_ok {taskId : Uuid} {reason : String} {u : Unit}
    (h : failInterrupted taskId reason now store = (.ok u, store')) : TasksOnly store store' := by
  simp only [failInterrupted, inv] at h
  obtain ⟨rows, _, hupdate, -, rfl⟩ := h
  refine .updated hupdate fun row _ hrow => ⟨⟨rfl, rfl, rfl, rfl⟩, .ended ?_ rfl⟩
  simp only [Bool.and_eq_true, Bool.not_eq_true'] at hrow
  exact hrow.2

/-- **What a cancellation commits**: it ends the task and closes open streams. -/
theorem cancelNativeStream_eq_ok {taskId : Uuid} {scope : Option Principal} {reason : String}
    {pick : ℕ} {u : Unit}
    (h : cancelNativeStream inspector taskId scope reason pick now store = (.ok u, store')) :
    ∃ tasks' streams', List.Forall₂ NodeTask.Move store.tasks tasks' ∧
      List.Forall₂ NativeStream.Close store.streams streams' ∧
      store' = { store with tasks := tasks', streams := streams' } := by
  have hsame : ∀ streams : List (NativeStream ι), List.Forall₂ NativeStream.Close streams streams :=
    fun streams => List.forall₂_same.mpr fun _ _ => .same
  simp only [cancelNativeStream, inv, Tx.ite_apply] at h
  obtain ⟨_, rfl, task, -, _, rfl, h⟩ := h
  split at h
  · cases h
    exact ⟨_, _, List.forall₂_same.mpr fun row _ => .refl row, hsame _, rfl⟩
  · simp only [bind_eq_ok] at h
    obtain ⟨_, store₁, hfail, h⟩ := h
    have honly : TasksOnly store store₁ := by
      rcases when_eq_ok.mp hfail with ⟨-, hfail⟩ | ⟨-, rfl⟩
      · exact failInterrupted_eq_ok hfail
      · exact .refl _
    obtain ⟨tasks', htasks, rfl⟩ := honly
    cases hstream : latestStream? taskId pick store with
    | none =>
      simp only [hstream] at h
      cases h
      exact ⟨tasks', _, htasks, hsame _, rfl⟩
    | some row =>
      simp only [hstream] at h
      rcases when_eq_ok.mp h with ⟨-, h⟩ | ⟨-, rfl⟩
      · obtain rfl := modify_eq_ok.mp h
        refine ⟨tasks', _, htasks, forall₂_updateWhere (fun _ => .same) fun row _ hrow => ?_, rfl⟩
        simp only [Bool.and_eq_true, decide_eq_true_eq] at hrow
        exact .closed hrow.2 (by simp)
      · exact ⟨tasks', _, htasks, hsame _, rfl⟩

end Committed

end KeyCompute.NodeGateway
