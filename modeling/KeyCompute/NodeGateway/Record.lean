import KeyCompute.Json.Encode
import KeyCompute.Database.Value
import KeyCompute.Relational.Moved
import KeyCompute.Relational.Transaction

/-!
# The rows of the node gateway

Tasks wait in `node_tasks` until a node leases one, and a node reports each lease once in
`node_task_submissions`.  A lease of a native streaming task also owns a row of
`node_native_streams`, which here holds its frames, the rows of `node_native_stream_events`.

* `NodeTask.guarded` is the trigger every update of a task passes, and `Node.revised` that of a
  node.
* Two columns are ghosts: `NativeEvent.content` keeps what was accepted after its body is erased,
  and `NodeStore.grants` every lease ever given.
-/

namespace KeyCompute.NodeGateway

open Relational

/-- `error`, and every other plain text error. -/
def error (code : String) : DbError := .other code

/-! ## Tasks -/

inductive NodeTaskStatus where
  | queued
  | leased
  | succeeded
  | failed
  | expired
  deriving DecidableEq

namespace NodeTaskStatus

def asStr : NodeTaskStatus → String
  | queued => "queued"
  | leased => "leased"
  | succeeded => "succeeded"
  | failed => "failed"
  | expired => "expired"

def isTerminal : NodeTaskStatus → Bool
  | succeeded => true
  | failed => true
  | expired => true
  | _ => false

end NodeTaskStatus

inductive NodeNativeOperation where
  | chat
  | messages
  | responses
  deriving DecidableEq

def NodeNativeOperation.asStr : NodeNativeOperation → String
  | chat => "chat"
  | messages => "messages"
  | responses => "responses"

structure NodeNativeRequest where
  operation : NodeNativeOperation
  body : JsonValue
  headers : List (String × String)
  deriving DecidableEq

/-- `body.get("stream").and_then(Value::as_bool) == Some(true)`. -/
def NodeNativeRequest.streams (request : NodeNativeRequest) : Bool :=
  request.body.get "stream" = some (.bool true)

structure NodeTaskPayload where
  dispatchIdentity : JsonValue
  requestId : Uuid
  chat : Option JsonValue
  imageGeneration : Option JsonValue
  imageEdit : Option JsonValue
  native : Option NodeNativeRequest
  deriving DecidableEq

/-- `NodeTaskPayload::validate`: exactly one kind of task. -/
def NodeTaskPayload.validate (payload : NodeTaskPayload) : Except String Unit :=
  match payload.chat.isSome.toNat + payload.imageGeneration.isSome.toNat +
      payload.imageEdit.isSome.toNat + payload.native.isSome.toNat with
  | 0 => .error "NodeTaskPayload: no task type set"
  | 1 => .ok ()
  | _ => .error "NodeTaskPayload: more than one task type set"

structure NodeTask where
  id : Uuid
  requestId : Uuid
  tenantId : Uuid
  userId : Uuid
  model : String
  payload : NodeTaskPayload
  nativeRequirementsJson : Option JsonValue
  status : NodeTaskStatus
  assignedNodeId : Option Uuid
  assignedSessionId : Option Uuid
  leaseId : Option Uuid
  failureCount : ℤ
  failureThreshold : ℤ
  resultJson : Option JsonValue
  errorJson : Option JsonValue
  cancellationRequestedAt : Option Timestamp
  archivedAt : Option Timestamp
  queuedAt : Timestamp
  claimedAt : Option Timestamp
  finishedAt : Option Timestamp
  deadlineAt : Timestamp
  completeGraceUntil : Timestamp
  updatedAt : Timestamp
  deriving DecidableEq

namespace NodeTask

/-- The task is one that the node's own runtime serves. -/
def isNative (task : NodeTask) : Bool := task.payload.native.isSome

def HeldBy (task : NodeTask) (nodeId sessionId leaseId : Uuid) : Prop :=
  task.assignedNodeId = some nodeId ∧ task.assignedSessionId = some sessionId ∧
    task.leaseId = some leaseId

instance (task : NodeTask) (nodeId sessionId leaseId : Uuid) :
    Decidable (task.HeldBy nodeId sessionId leaseId) :=
  inferInstanceAs (Decidable (_ ∧ _ ∧ _))

/-- The worker can be told to stop. -/
def cancellationAware (task : NodeTask) : Bool :=
  (task.nativeRequirementsJson.bind (·.getArray "features")).any
    (·.any fun feature => feature.asStr = some "cancellation")

/-- `guard_node_task_control`, the trigger before an update: a recorded cancellation or archival
is not undone, and neither lets a task run again.  The revision moves forward. -/
def guarded (now : Timestamp) (old new : NodeTask) : Except DbError NodeTask :=
  if (new.id, new.requestId, new.tenantId, new.userId) ≠
      (old.id, old.requestId, old.tenantId, old.userId) then
    .error (.databaseError "task request and ownership are immutable")
  else if old.cancellationRequestedAt.isSome ∧
      new.cancellationRequestedAt ≠ old.cancellationRequestedAt then
    .error (.databaseError "task cancellation cannot be reversed")
  else if old.archivedAt.isSome ∧ new.archivedAt ≠ old.archivedAt then
    .error (.databaseError "task archival cannot be reversed")
  else if (old.archivedAt.isSome ∨
      old.cancellationRequestedAt.isSome ∧ old.status.isTerminal) ∧ new.status ≠ old.status then
    .error (.databaseError "terminal controlled tasks cannot be restarted")
  else if new.cancellationRequestedAt.isSome ∧ new.status = .queued then
    .error (.databaseError "cancelled tasks cannot be queued again")
  else if new.archivedAt.isSome ∧ ¬ new.status.isTerminal then
    .error (.databaseError "only terminal tasks can be archived")
  else .ok { new with updatedAt := max now (old.updatedAt + 1) }

theorem guarded_eq_ok {now : Timestamp} {old new row : NodeTask}
    (h : guarded now old new = .ok row) :
    row = { new with updatedAt := max now (old.updatedAt + 1) } := by
  unfold guarded at h
  repeat' split at h
  all_goals cases h
  rfl

end NodeTask

/-! ## Nodes and sessions -/

inductive NodeStatus where
  | online
  | offline
  | excluded
  deriving DecidableEq

structure Node where
  id : Uuid
  tenantId : Uuid
  ownerUserId : Uuid
  clientInstanceId : String
  displayName : String
  status : NodeStatus
  capabilitiesJson : JsonValue
  consecutiveFailureCount : ℤ
  failureThreshold : ℤ
  lastHeartbeatAt : Option Timestamp
  updatedAt : Timestamp
  deriving DecidableEq

namespace Node

def isExcluded (node : Node) : Bool := node.status = .excluded

/-- `advance_node_control_revision`, the trigger before an update: the revision moves exactly
when another column does. -/
def revised (now : Timestamp) (old new : Node) : Node :=
  if { new with updatedAt := old.updatedAt } = old then old
  else { new with updatedAt := max now (old.updatedAt + 1) }

def write (now : Timestamp) (f : Node → Node) (node : Node) : Node := revised now node (f node)

theorem write_eq (now : Timestamp) (f : Node → Node) (node : Node) :
    ∃ time, write now f node = { f node with updatedAt := time } := by
  unfold write revised
  split
  · exact ⟨node.updatedAt, by simp_all⟩
  · exact ⟨_, rfl⟩

end Node

structure NodeSession where
  id : Uuid
  tenantId : Uuid
  ownerUserId : Uuid
  nodeId : Uuid
  acceptedModels : List String
  registeredModels : List String
  nativeOperations : List String
  nativeProfiles : List JsonValue
  expiresAt : Timestamp
  acceptingTasks : Bool
  revokedAt : Option Timestamp
  deriving DecidableEq

namespace NodeSession

/-- The three columns of `NodeSessionScope`, compared with those of a node. -/
def inScope (node : Node) (session : NodeSession) : Bool :=
  session.tenantId = node.tenantId && session.nodeId = node.id &&
    session.ownerUserId = node.ownerUserId

def isRevoked (session : NodeSession) : Bool := session.revokedAt.isSome

end NodeSession

/-! ## Submissions -/

inductive NodeTaskCompleteAction where
  | succeeded
  | requeued
  | failed
  | expired
  deriving DecidableEq

/-- The text stored as the action, which `parse_action` reads back. -/
def NodeTaskCompleteAction.asStr : NodeTaskCompleteAction → String
  | succeeded => "succeeded"
  | requeued => "requeued"
  | failed => "failed"
  | expired => "expired"

structure NodeTaskSubmission where
  taskId : Uuid
  leaseId : Uuid
  nodeId : Uuid
  sessionId : Uuid
  resultKind : String
  requestHash : String
  action : NodeTaskCompleteAction
  deriving DecidableEq

/-! ## Native streams -/

inductive NativeStreamProtocol where
  | chat
  | messages
  | responses
  deriving DecidableEq

def streamProtocol : NodeNativeOperation → NativeStreamProtocol
  | .chat => .chat
  | .messages => .messages
  | .responses => .responses

structure NativeStreamUsage where
  inputTokens : ℕ
  outputTokens : ℕ
  totalTokens : Option ℕ
  complete : Bool
  estimated : Bool
  inputExact : Bool
  outputExact : Bool
  deriving DecidableEq

inductive NativeStreamTerminalOutcome where
  | complete
  | incomplete
  | failed
  deriving DecidableEq

structure NodeNativeStreamSummary where
  protocol : NativeStreamProtocol
  status : ℕ
  headers : List (String × String)
  terminalEvent : Option String
  finalBody : Option JsonValue
  usage : Option NativeStreamUsage
  terminalOutcome : Option NativeStreamTerminalOutcome
  deriving DecidableEq

inductive NodeNativeStreamEvent where
  | start (status : ℕ) (headers : List (String × String)) (body : Option JsonValue)
  | data (frame : String)
  | terminal (summary : NodeNativeStreamSummary)
  | failed (code message : String) (usage : Option NativeStreamUsage)
  deriving DecidableEq

/-! ## The JSON of events

The serialised event is what is measured, hashed and compared. -/

section Serialize

def optionalField (name : String) (value : Option JsonValue) : List (String × JsonValue) :=
  (value.map fun v => (name, v)).toList

def natJson (n : ℕ) : JsonValue := .ofInt n

def headersJson (headers : List (String × String)) : JsonValue :=
  .array (headers.map fun header => .array [.string header.1, .string header.2])

def NativeStreamProtocol.toJson : NativeStreamProtocol → JsonValue
  | chat => .string "chat"
  | messages => .string "messages"
  | responses => .string "responses"

def NativeStreamTerminalOutcome.toJson : NativeStreamTerminalOutcome → JsonValue
  | complete => .string "complete"
  | incomplete => .string "incomplete"
  | failed => .string "failed"

def NativeStreamUsage.toJson (usage : NativeStreamUsage) : JsonValue :=
  .ofFields ([("input_tokens", natJson usage.inputTokens),
      ("output_tokens", natJson usage.outputTokens)] ++
    optionalField "total_tokens" (usage.totalTokens.map natJson) ++
    [("complete", .bool usage.complete), ("estimated", .bool usage.estimated),
      ("input_exact", .bool usage.inputExact), ("output_exact", .bool usage.outputExact)])

def NodeNativeStreamSummary.toJson (summary : NodeNativeStreamSummary) : JsonValue :=
  .ofFields ([("protocol", summary.protocol.toJson), ("status", natJson summary.status),
      ("headers", headersJson summary.headers)] ++
    optionalField "terminal_event" (summary.terminalEvent.map .string) ++
    optionalField "final_body" summary.finalBody ++
    optionalField "usage" (summary.usage.map (·.toJson)) ++
    optionalField "terminal_outcome" (summary.terminalOutcome.map (·.toJson)))

def NodeNativeStreamEvent.toJson : NodeNativeStreamEvent → JsonValue
  | start status headers body =>
    .ofFields ([("kind", .string "start"), ("status", natJson status),
      ("headers", headersJson headers)] ++ optionalField "body" body)
  | data frame => .ofFields [("kind", .string "data"), ("frame", .string frame)]
  | terminal summary => .ofFields [("kind", .string "terminal"), ("summary", summary.toJson)]
  | failed code message usage =>
    .ofFields ([("kind", .string "failed"), ("code", .string code),
      ("message", .string message)] ++ optionalField "usage" (usage.map (·.toJson)))

def NodeNativeStreamEvent.encoded (event : NodeNativeStreamEvent) : String := event.toJson.encode

def NodeNativeStreamEvent.size (event : NodeNativeStreamEvent) : ℕ := event.toJson.size

/-- The bytes a data frame adds to the total; other events add none. -/
def NodeNativeStreamEvent.frameBytes : NodeNativeStreamEvent → ℕ
  | data frame => frame.utf8ByteSize
  | _ => 0

end Serialize

/-- A row of `node_native_stream_events`. -/
structure NativeEvent where
  seq : ℕ
  eventJson : Option NodeNativeStreamEvent
  eventHash : String
  eventBytes : ℕ
  consumedAt : Option Timestamp
  /-- ghost: the event that was accepted -/
  content : NodeNativeStreamEvent
  deriving DecidableEq

inductive NativeStreamState where
  | open
  | terminal
  | failed
  | canceled
  deriving DecidableEq

/-- A row of `node_native_streams` with its events; `ι` is the state of the inspector. -/
structure NativeStream (ι : Type) where
  taskId : Uuid
  leaseId : Uuid
  nodeId : Uuid
  sessionId : Uuid
  state : NativeStreamState
  nextSeq : ℕ
  unreadFrames : ℤ
  unreadBytes : ℤ
  totalBytes : ℕ
  inspector : ι
  headStatus : ℕ
  headHeaders : List (String × String)
  summary : Option NodeNativeStreamSummary
  createdAt : Timestamp
  events : List NativeEvent
  deriving DecidableEq

/-- The primary key `(task_id, lease_id)`. -/
def NativeStream.key {ι : Type} (stream : NativeStream ι) : Uuid × Uuid :=
  (stream.taskId, stream.leaseId)

/-! ## The store -/

structure NodeStore (ι : Type) where
  tasks : List NodeTask := []
  nodes : List Node := []
  sessions : List NodeSession := []
  submissions : List NodeTaskSubmission := []
  streams : List (NativeStream ι) := []
  /-- ghost: the leases given so far, as `(task, lease)` -/
  grants : List (Uuid × Uuid) := []

namespace NodeStore

variable {ι : Type}

def task? (store : NodeStore ι) (id : Uuid) : Option NodeTask := lookup NodeTask.id id store.tasks

def node? (store : NodeStore ι) (id : Uuid) : Option Node := lookup Node.id id store.nodes

def submission? (store : NodeStore ι) (taskId leaseId : Uuid) : Option NodeTaskSubmission :=
  lookup (fun row => (row.taskId, row.leaseId)) (taskId, leaseId) store.submissions

def stream? (store : NodeStore ι) (taskId leaseId : Uuid) : Option (NativeStream ι) :=
  lookup NativeStream.key (taskId, leaseId) store.streams

/-- `NodeSession::find_in_scope`. -/
def sessionInScope? (store : NodeStore ι) (node : Node) (id : Uuid) : Option NodeSession :=
  store.sessions.find? fun session => session.id = id && session.inScope node

end NodeStore

/-! ## Updates of tasks -/

section UpdateTasks

variable {ι : Type} {now : Timestamp} {p : NodeTask → Bool} {f : NodeTask → NodeTask}

/-- An update of the rows a condition picks, each through the trigger. -/
def guardedRows (now : Timestamp) (p : NodeTask → Bool) (f : NodeTask → NodeTask) :
    List NodeTask → Except DbError (List NodeTask)
  | [] => .ok []
  | task :: rest =>
    match if p task then task.guarded now (f task) else .ok task with
    | .error e => .error e
    | .ok row =>
      match guardedRows now p f rest with
      | .error e => .error e
      | .ok rows => .ok (row :: rows)

def written (now : Timestamp) (f : NodeTask → NodeTask) (task : NodeTask) : NodeTask :=
  { f task with updatedAt := max now (task.updatedAt + 1) }

theorem guardedRows_eq_ok {rows rows' : List NodeTask} (h : guardedRows now p f rows = .ok rows') :
    rows' = updateWhere p (written now f) rows := by
  induction rows generalizing rows' with
  | nil => cases h; rfl
  | cons task rest ih =>
    unfold guardedRows at h
    split at h
    · cases h
    · rename_i row hrow
      split at h
      · cases h
      · rename_i tail htail
        cases h
        rw [ih htail]
        by_cases hp : p task
        · simp only [hp, if_true] at hrow
          rw [NodeTask.guarded_eq_ok hrow]
          simp [updateWhere, hp, written]
        · simp only [hp] at hrow
          cases hrow
          simp [updateWhere, hp]

/-- `UPDATE node_tasks SET f WHERE p RETURNING *`. -/
def updateTasks (now : Timestamp) (p : NodeTask → Bool) (f : NodeTask → NodeTask) :
    Tx (NodeStore ι) DbError (List NodeTask) := fun store =>
  match guardedRows now p f store.tasks with
  | .error e => (.error e, store)
  | .ok rows => (.ok ((store.tasks.filter p).map (written now f)), { store with tasks := rows })

theorem updateTasks_eq_ok {store store' : NodeStore ι} {rows : List NodeTask} :
    updateTasks now p f store = (.ok rows, store') →
      rows = (store.tasks.filter p).map (written now f) ∧
        store' = { store with tasks := updateWhere p (written now f) store.tasks } := by
  unfold updateTasks
  intro h
  split at h
  · cases h
  · rename_i rows' hrows
    cases h
    rw [guardedRows_eq_ok hrows]
    exact ⟨rfl, rfl⟩

end UpdateTasks

/-! ## What an update of a task can do -/

structure NodeTask.SameWork (task task' : NodeTask) : Prop where
  id : task'.id = task.id
  tenantId : task'.tenantId = task.tenantId
  payload : task'.payload = task.payload
  failureThreshold : task'.failureThreshold = task.failureThreshold

/-- What an update other than a claim does to the lease of a task: nothing, or it ends the task,
or it gives a shared task back to the queue while it has attempts left. -/
inductive NodeTask.Advance (task task' : NodeTask) : Prop
  | marked (status : task'.status = task.status)
      (failureCount : task'.failureCount = task.failureCount)
      (held : ∀ node session lease,
        task'.HeldBy node session lease ↔ task.HeldBy node session lease)
      (free : task.leaseId = none → task'.leaseId = none)
  | ended (live : task.status.isTerminal = false) (ended : task'.status.isTerminal = true)
  | requeued (leased : task.status = .leased) (shared : task.isNative = false)
      (left : task.failureCount + 1 < task.failureThreshold) (queued : task'.status = .queued)
      (failureCount : task'.failureCount = task.failureCount + 1) (free : task'.leaseId = none)

structure NodeTask.Move (task task' : NodeTask) : Prop where
  same : task.SameWork task'
  advance : task.Advance task'

theorem NodeTask.Move.refl (task : NodeTask) : task.Move task :=
  ⟨⟨rfl, rfl, rfl, rfl⟩, .marked rfl rfl (fun _ _ _ => Iff.rfl) fun free => free⟩

def TasksOnly {ι : Type} (store store' : NodeStore ι) : Prop :=
  ∃ tasks', List.Forall₂ NodeTask.Move store.tasks tasks' ∧ store' = { store with tasks := tasks' }

theorem TasksOnly.refl {ι : Type} (store : NodeStore ι) : TasksOnly store store :=
  ⟨store.tasks, List.forall₂_same.mpr fun task _ => .refl task, rfl⟩

theorem TasksOnly.updated {ι : Type} {now : Timestamp} {p : NodeTask → Bool}
    {f : NodeTask → NodeTask} {store store' : NodeStore ι} {rows : List NodeTask}
    (h : updateTasks now p f store = (.ok rows, store'))
    (move : ∀ task ∈ store.tasks, p task → task.Move (written now f task)) :
    TasksOnly store store' := by
  obtain ⟨-, rfl⟩ := updateTasks_eq_ok h
  exact ⟨_, forall₂_updateWhere NodeTask.Move.refl move, rfl⟩

/-! ## What an update of a node can do -/

/-- The node is below its failure threshold, unless it is excluded anyway. -/
def Node.Below (node : Node) : Prop :=
  1 ≤ node.failureThreshold ∧
    (node.status ≠ .excluded → node.consecutiveFailureCount < node.failureThreshold)

structure Node.SameNode (node node' : Node) : Prop where
  id : node'.id = node.id
  tenantId : node'.tenantId = node.tenantId
  ownerUserId : node'.ownerUserId = node.ownerUserId

/-- An update that takes no node to its threshold. -/
structure Node.Keeps (node node' : Node) : Prop where
  same : node.SameNode node'
  below : node.Below → node'.Below

theorem Node.Keeps.refl (node : Node) : node.Keeps node := ⟨⟨rfl, rfl, rfl⟩, fun h => h⟩

theorem Node.Keeps.trans {a b c : Node} (hab : a.Keeps b) (hbc : b.Keeps c) : a.Keeps c where
  same := ⟨hbc.same.id.trans hab.same.id, hbc.same.tenantId.trans hab.same.tenantId,
    hbc.same.ownerUserId.trans hab.same.ownerUserId⟩
  below h := hbc.below (hab.below h)

theorem Node.Keeps.write {now : Timestamp} {f : Node → Node} {node : Node}
    (h : node.Keeps (f node)) : node.Keeps (node.write now f) := by
  obtain ⟨time, hwrite⟩ := Node.write_eq now f node
  rw [hwrite]
  exact ⟨⟨h.same.id, h.same.tenantId, h.same.ownerUserId⟩, h.below⟩

/-- The columns of a session that no update touches, its revocation included. -/
structure NodeSession.Keeps (session session' : NodeSession) : Prop where
  id : session'.id = session.id
  tenantId : session'.tenantId = session.tenantId
  ownerUserId : session'.ownerUserId = session.ownerUserId
  nodeId : session'.nodeId = session.nodeId
  revokedAt : session'.revokedAt = session.revokedAt

theorem NodeSession.Keeps.refl (session : NodeSession) : session.Keeps session :=
  ⟨rfl, rfl, rfl, rfl, rfl⟩

/-! ## What closing a stream can do -/

/-- A stream that is open may be closed; nothing else about its log changes. -/
inductive NativeStream.Close {ι : Type} : NativeStream ι → NativeStream ι → Prop
  | same {row : NativeStream ι} : Close row row
  | closed {row : NativeStream ι} {state : NativeStreamState}
      {summary : Option NodeNativeStreamSummary} (live : row.state = .open)
      (ended : state ≠ .open) : Close row { row with state := state, summary := summary }

end KeyCompute.NodeGateway
