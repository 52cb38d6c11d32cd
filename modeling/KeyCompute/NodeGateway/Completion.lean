import KeyCompute.NodeGateway.Record

/-!
# The completion of a lease

`complete_task_with_outcome` reads the task under its lock and decides, in this order: a lease that
was submitted before is answered from its submission; an expired lease is recorded as expired within
the grace period; every other submission must come from the holder of the lease and ends it, with
success, with failure, or by queueing the task again.
-/

namespace KeyCompute.NodeGateway

open Relational Tx

structure NodeNativeHttpResult where
  status : ℕ
  headers : List (String × String)
  body : JsonValue
  deriving DecidableEq

inductive NodeTaskResult where
  | succeeded (response : JsonValue)
  | imageSucceeded (imageResponse : JsonValue)
  | nativeSucceeded (response : NodeNativeHttpResult)
  | nativeStreamSucceeded (summary : NodeNativeStreamSummary)
  | failed (code message : String) (isClientError : Bool)
  deriving DecidableEq

structure NodeTaskCompleteResponse where
  action : NodeTaskCompleteAction
  taskStatus : String
  nodeStatus : NodeStatus
  serverFailureCount : ℤ
  failureThreshold : ℤ
  deriving DecidableEq

/-! ## Digests -/

def NodeNativeHttpResult.toJson (result : NodeNativeHttpResult) : JsonValue :=
  .ofFields [("status", natJson result.status), ("headers", headersJson result.headers),
    ("body", result.body)]

def NodeTaskResult.toJson : NodeTaskResult → JsonValue
  | succeeded response => .ofFields [("status", .string "succeeded"), ("response", response)]
  | imageSucceeded response =>
    .ofFields [("status", .string "image_succeeded"), ("image_response", response)]
  | nativeSucceeded response =>
    .ofFields [("status", .string "native_succeeded"), ("response", response.toJson)]
  | nativeStreamSucceeded summary =>
    .ofFields [("status", .string "native_stream_succeeded"), ("summary", summary.toJson)]
  | failed code message isClientError =>
    .ofFields [("status", .string "failed"), ("code", .string code),
      ("message", .string message), ("is_client_error", .bool isClientError)]

def canonicalSubmission (taskId leaseId : Uuid) (result : NodeTaskResult) : String :=
  (JsonValue.ofFields [("task_id", .string (toString taskId)),
    ("lease_id", .string (toString leaseId)), ("result", result.toJson)]).encode

def computeRequestHash (sha256 : String → String) (taskId leaseId : Uuid)
    (result : NodeTaskResult) : String :=
  sha256 (canonicalSubmission taskId leaseId result)

/-! ## Matching results with tasks -/

def resultMatchesPayload (payload : NodeTaskPayload) : NodeTaskResult → Bool
  | .succeeded _ => payload.chat.isSome
  | .nativeSucceeded _ => payload.native.isSome
  | .nativeStreamSucceeded _ => payload.native.isSome
  | .imageSucceeded _ => payload.imageGeneration.isSome || payload.imageEdit.isSome
  | .failed _ _ _ => true

def NodeTaskResult.nativeError : NodeTaskResult → Bool
  | nativeSucceeded response => decide (400 ≤ response.status)
  | _ => false

def NodeTaskResult.responseJson : NodeTaskResult → JsonValue
  | succeeded response => response
  | imageSucceeded response => response
  | nativeSucceeded response => response.toJson
  | nativeStreamSucceeded summary => summary.toJson
  | failed _ _ _ => .null

def NodeTaskResult.kind : NodeTaskResult → String
  | succeeded _ => "succeeded"
  | imageSucceeded _ => "image_succeeded"
  | nativeSucceeded response => if 400 ≤ response.status then "failed" else "succeeded"
  | nativeStreamSucceeded _ => "native_stream_succeeded"
  | failed _ _ _ => "failed"

section Complete

variable {ι : Type} (sha256 : String → String)

structure Submitter where
  taskId : Uuid
  leaseId : Uuid
  nodeId : Uuid
  sessionId : Uuid
  deriving DecidableEq

/-- The clock of the process, the clock of the database, and what the checks of a native answer
against the session's profile say. -/
structure CompletionEnv where
  now : Timestamp
  dbNow : Timestamp
  nativeCheck : Except DbError Unit

/-- The row is the caller's lease, still within its deadline: the condition of the updates that
end it. -/
def endable (who : Submitter) (env : CompletionEnv) (task : NodeTask) : Bool :=
  task.id = who.taskId && decide (task.HeldBy who.nodeId who.sessionId who.leaseId) &&
    decide (task.status = .leased) && decide (env.dbNow ≤ task.deadlineAt)

/-- The update that ends a lease, and the error of a row that slipped away. -/
def endLease (who : Submitter) (env : CompletionEnv) (f : NodeTask → NodeTask) :
    Tx (NodeStore ι) DbError NodeTask := do
  let rows ← updateTasks env.dbNow (endable who env) f
  match rows with
  | task :: _ => pure task
  | [] => do
    let current ← read fun store => store.task? who.taskId
    let current ← okOr current (.notFound "Task" (toString who.taskId))
    if current.status = .expired ∨ current.deadlineAt < env.now then
      throw (error "task_expired_during_complete")
    else throw (error "concurrent_task_update_failed")

/-- The submission of a lease is inserted; the pair of task and lease is unique. -/
def insertSubmission (who : Submitter) (resultKind : String) (result : NodeTaskResult)
    (action : NodeTaskCompleteAction) : Tx (NodeStore ι) DbError Unit := do
  let taken ← read fun store => store.submission? who.taskId who.leaseId
  failIf taken.isSome
    (.databaseError "node_task_submissions_task_id_lease_id_key")
  modify fun store => { store with
    submissions := store.submissions ++ [{
      taskId := who.taskId, leaseId := who.leaseId, nodeId := who.nodeId,
      sessionId := who.sessionId, resultKind,
      requestHash := computeRequestHash sha256 who.taskId who.leaseId result, action }] }

def completeResponse (nodeId : Uuid) (action : NodeTaskCompleteAction) (task : NodeTask) :
    Tx (NodeStore ι) DbError NodeTaskCompleteResponse := do
  let node ← read fun store => store.node? nodeId
  let node ← okOr node (.notFound "Node" (toString nodeId))
  pure {
    action, taskStatus := task.status.asStr, nodeStatus := node.status,
    serverFailureCount := node.consecutiveFailureCount, failureThreshold := node.failureThreshold }

/-- `UPDATE nodes … WHERE id = $1`. -/
def updateNode (nodeId : Uuid) (now : Timestamp) (f : Node → Node) :
    Tx (NodeStore ι) DbError Unit :=
  modify fun store =>
    { store with nodes := updateKey Node.id nodeId (Node.write now f) store.nodes }

def handleSuccessSubmission (who : Submitter) (node : Node) (result : NodeTaskResult)
    (env : CompletionEnv) : Tx (NodeStore ι) DbError NodeTaskCompleteResponse := do
  let updated ← endLease who env fun task => { task with
    status := if result.nativeError then .failed else .succeeded,
    resultJson := some result.responseJson, finishedAt := some env.dbNow }
  when (!node.isExcluded && !result.nativeError)
    (updateNode who.nodeId env.dbNow fun row => { row with consecutiveFailureCount := 0 })
  insertSubmission sha256 who result.kind result
    (if result.nativeError then .failed else .succeeded)
  completeResponse who.nodeId (if result.nativeError then .failed else .succeeded) updated

/-- The checks of `handle_native_success_submission`: a streaming task ends in its stream. -/
def checkNativeSuccess (task : NodeTask) (response : NodeNativeHttpResult)
    (env : CompletionEnv) : Except DbError Unit :=
  match env.nativeCheck with
  | .error e => .error e
  | .ok () =>
    if response.status = 200 ∧ task.payload.native.any (·.streams) then
      .error (error "native_stream_result_expected")
    else .ok ()

/-- The checks of `handle_native_stream_success_submission`: the summary is the one recorded. -/
def checkNativeStreamSuccess (who : Submitter) (task : NodeTask)
    (summary : NodeNativeStreamSummary) (store : NodeStore ι) : Except DbError Unit :=
  match task.payload.native with
  | none => .error (error "native task payload missing")
  | some request =>
    if ¬ request.streams ∨ summary.protocol ≠ streamProtocol request.operation then
      .error (error "native_stream_result_variant_mismatch")
    else
      match (store.stream? who.taskId who.leaseId).filter fun row =>
          row.nodeId = who.nodeId && row.sessionId = who.sessionId && row.state = .terminal with
      | none => .error (error "native_stream_terminal_not_recorded")
      | some row =>
        if row.summary ≠ some summary ∨ (summary.terminalOutcome ≠ some .complete ∧
            summary.terminalOutcome ≠ some .incomplete) then
          .error (error "native_stream_terminal_mismatch")
        else .ok ()

/-- The columns a failure sets: the task ends, or is queued again while it has attempts left. -/
def NodeTask.failedBy (final : Bool) (errorJson : JsonValue) (now : Timestamp)
    (task : NodeTask) : NodeTask :=
  if final then
    { task with
      status := .failed, failureCount := task.failureCount + 1, finishedAt := some now,
      errorJson := some errorJson }
  else if task.failureCount + 1 < task.failureThreshold then
    { task with
      status := .queued, failureCount := task.failureCount + 1, assignedNodeId := none,
      assignedSessionId := none, leaseId := none, claimedAt := none }
  else
    { task with
      status := .failed, failureCount := task.failureCount + 1, errorJson := some errorJson }

/-- The failure is counted against the node, which is excluded at its threshold. -/
def Node.countFailure (node : Node) : Node :=
  { node with
    consecutiveFailureCount := node.consecutiveFailureCount + 1,
    status := if node.consecutiveFailureCount + 1 ≥ node.failureThreshold then .excluded
      else node.status }

def closeFailed (who : Submitter) : Tx (NodeStore ι) DbError Unit :=
  modify fun store => { store with
    streams := updateWhere (fun row => row.key = (who.taskId, who.leaseId) && row.state = .open)
      (fun row => { row with state := .failed }) store.streams }

def handleFailedSubmission (who : Submitter) (task : NodeTask) (code message : String)
    (isClientError : Bool) (env : CompletionEnv) :
    Tx (NodeStore ι) DbError NodeTaskCompleteResponse := do
  let updated ← endLease who env (NodeTask.failedBy (isClientError || task.isNative)
    (.ofFields [("code", .string code), ("message", .string message),
      ("is_client_error", .bool isClientError)]) env.dbNow)
  -- the ordinary failure also closes a stream that has no terminal event yet
  when (task.isNative && updated.status = .failed) (closeFailed who)
  when (!isClientError) (updateNode who.nodeId env.dbNow Node.countFailure)
  insertSubmission sha256 who "failed" (.failed code message isClientError)
    (if updated.status = .queued then .requeued else .failed)
  completeResponse who.nodeId (if updated.status = .queued then .requeued else .failed) updated

/-- A lease that was submitted before: its stored answer, to the same sender and result. -/
def replaySubmission (who : Submitter) (node : Node) (submission : NodeTaskSubmission)
    (result : NodeTaskResult) (store : NodeStore ι) : Except DbError NodeTaskCompleteResponse :=
  if (store.sessionInScope? node who.sessionId).all (·.isRevoked) then
    .error (error "Session has been revoked")
  else if submission.nodeId ≠ who.nodeId ∨ submission.sessionId ≠ who.sessionId then
    .error (error "duplicate_submission_session_mismatch")
  else if submission.requestHash ≠ computeRequestHash sha256 who.taskId who.leaseId result then
    .error (error "duplicate_submission_conflict")
  else
    .ok {
      action := submission.action, taskStatus := submission.action.asStr,
      nodeStatus := node.status,
      serverFailureCount := node.consecutiveFailureCount,
      failureThreshold := node.failureThreshold }

def markExpired (taskId : Uuid) (now : Timestamp) : Tx (NodeStore ι) DbError Unit := do
  let _ ← updateTasks now (fun row => row.id = taskId)
    fun row => { row with status := .expired, finishedAt := some now }

/-- The lease ran out: within the grace period the late result is recorded as expired. -/
def submitExpired (who : Submitter) (task : NodeTask) (node : Node) (result : NodeTaskResult)
    (env : CompletionEnv) : Tx (NodeStore ι) DbError NodeTaskCompleteResponse := do
  failIf (¬ task.HeldBy who.nodeId who.sessionId who.leaseId) (error "lease_mismatch")
  failIf (task.completeGraceUntil < env.now) (error "grace_period_expired")
  insertSubmission sha256 who "expired" result .expired
  when (!task.status.isTerminal) (markExpired who.taskId env.dbNow)
  pure {
    action := .expired, taskStatus := NodeTaskStatus.expired.asStr, nodeStatus := node.status,
    serverFailureCount := node.consecutiveFailureCount, failureThreshold := node.failureThreshold }

def submitLive (who : Submitter) (task : NodeTask) (node : Node) (result : NodeTaskResult)
    (env : CompletionEnv) : Tx (NodeStore ι) DbError NodeTaskCompleteResponse := do
  failIf (task.status ≠ .leased) (error "invalid_task_state")
  failIf (¬ task.HeldBy who.nodeId who.sessionId who.leaseId) (error "lease_mismatch")
  lift (task.payload.validate.mapError fun e => error ("Invalid task payload: " ++ e))
  failIf (¬ resultMatchesPayload task.payload result) (error "node_result_type_mismatch")
  let store ← read id
  match result with
  | .failed code message isClientError =>
    handleFailedSubmission sha256 who task code message isClientError env
  | .nativeSucceeded response => do
    lift (checkNativeSuccess task response env)
    handleSuccessSubmission sha256 who node result env
  | .nativeStreamSucceeded summary => do
    lift (checkNativeStreamSuccess who task summary store)
    handleSuccessSubmission sha256 who node result env
  | _ => handleSuccessSubmission sha256 who node result env

/-- `complete_task_with_outcome`. -/
def completeTask (who : Submitter) (result : NodeTaskResult) (env : CompletionEnv) :
    Tx (NodeStore ι) DbError NodeTaskCompleteResponse := do
  let store ← read id
  let task ← okOr (store.task? who.taskId) (.notFound "NodeTask" (toString who.taskId))
  let node ← okOr ((store.node? who.nodeId).filter (·.tenantId = task.tenantId))
    (.notFound "Node" (toString who.nodeId))
  match store.submission? who.taskId who.leaseId with
  | some submission => lift (replaySubmission sha256 who node submission result store)
  | none => do
    let session ← okOr (store.sessionInScope? node who.sessionId)
      (.notFound "Session" (toString who.sessionId))
    failIf session.isRevoked (error "Session revoked")
    -- an expired session by itself changes nothing: it only leads to the same two tests
    if (task.status = .expired ∧ (task.deadlineAt < env.now ∨
          session.expiresAt ≤ env.now ∧ ¬ node.isExcluded)) ∨
        (task.status = .leased ∧ task.deadlineAt < env.now) then
      submitExpired sha256 who task node result env
    else submitLive sha256 who task node result env

/-! ## What a completion commits -/

section Committed

variable {sha256} {store store' : NodeStore ι} {who : Submitter} {env : CompletionEnv}
  {result : NodeTaskResult} {answer : NodeTaskCompleteResponse} {task : NodeTask} {node : Node}

theorem endLease_eq_ok {f : NodeTask → NodeTask} {updated : NodeTask}
    (h : endLease who env f store = (.ok updated, store')) :
    ∃ row ∈ store.tasks, endable who env row ∧ updated = written env.dbNow f row ∧
      ∃ rows, updateTasks env.dbNow (endable who env) f store = (.ok rows, store') := by
  simp only [endLease, bind_eq_ok] at h
  obtain ⟨rows, store₁, hupdate, h⟩ := h
  rcases rows with _ | ⟨first, rest⟩
  · simp only [inv, Tx.ite_apply] at h
    obtain ⟨_, -, _, -, h⟩ := h
    split at h <;> simp at h
  · obtain ⟨rfl, rfl⟩ := pure_eq_ok.mp h
    have hmem : first ∈ (store.tasks.filter (endable who env)).map (written env.dbNow f) := by
      rw [← (updateTasks_eq_ok hupdate).1]
      exact List.mem_cons_self
    obtain ⟨row, hrow, rfl⟩ := List.mem_map.mp hmem
    obtain ⟨hrow, hendable⟩ := List.mem_filter.mp hrow
    exact ⟨row, hrow, hendable, rfl, _, hupdate⟩

variable {now : Timestamp} {u : Unit}

theorem updateNode_eq_ok {nodeId : Uuid} {f : Node → Node}
    (h : updateNode nodeId now f store = (.ok u, store')) :
    store' = { store with nodes := updateKey Node.id nodeId (Node.write now f) store.nodes } :=
  (modify_eq_ok.mp h).symm

def Submitter.submission (sha256 : String → String) (who : Submitter) (kind : String)
    (result : NodeTaskResult) (action : NodeTaskCompleteAction) : NodeTaskSubmission where
  taskId := who.taskId
  leaseId := who.leaseId
  nodeId := who.nodeId
  sessionId := who.sessionId
  resultKind := kind
  requestHash := computeRequestHash sha256 who.taskId who.leaseId result
  action := action

theorem insertSubmission_eq_ok {kind : String} {action : NodeTaskCompleteAction}
    (h : insertSubmission sha256 who kind result action store = (.ok u, store')) :
    store.submission? who.taskId who.leaseId = none ∧
      store' = { store with
        submissions := store.submissions ++ [who.submission sha256 kind result action] } := by
  simp only [insertSubmission, inv] at h
  obtain ⟨_, rfl, _, hfree, rfl⟩ := h
  exact ⟨by simpa using hfree, rfl⟩

theorem completeResponse_eq_ok {nodeId : Uuid} {action : NodeTaskCompleteAction}
    (h : completeResponse nodeId action task store = (.ok answer, store')) :
    answer.action = action ∧ store' = store := by
  simp only [completeResponse, inv] at h
  obtain ⟨_, rfl, _, -, rfl, rfl⟩ := h
  exact ⟨rfl, rfl⟩

/-- **What a first completion of a lease writes**: its submission, and moves of the task, of the
node and of the lease's stream. -/
structure Recorded (sha256 : String → String) (who : Submitter) (result : NodeTaskResult)
    (store : NodeStore ι) (answer : NodeTaskCompleteResponse) (store' : NodeStore ι) : Prop where
  fresh : store.submission? who.taskId who.leaseId = none
  submitted : ∃ kind, store'.submissions =
    store.submissions ++ [who.submission sha256 kind result answer.action]
  tasks : List.Forall₂ NodeTask.Move store.tasks store'.tasks
  nodes : List.Forall₂ Node.Keeps store.nodes store'.nodes
  streams : List.Forall₂ NativeStream.Close store.streams store'.streams
  sessions : store'.sessions = store.sessions
  grants : store'.grants = store.grants

theorem Node.keeps_reset (node : Node) (now : Timestamp) :
    node.Keeps (node.write now fun row => { row with consecutiveFailureCount := 0 }) := by
  refine .write ⟨⟨rfl, rfl, rfl⟩, fun h => ⟨h.1, fun _ => ?_⟩⟩
  have := h.1
  simp only
  omega

theorem Node.keeps_countFailure (node : Node) (now : Timestamp) :
    node.Keeps (node.write now Node.countFailure) := by
  refine .write ⟨⟨rfl, rfl, rfl⟩, fun h => ⟨h.1, ?_⟩⟩
  unfold Node.countFailure
  simp only
  split
  · exact fun hne => absurd rfl hne
  · exact fun _ => by omega

theorem when_updateNode_eq_ok {b : Bool} {nodeId : Uuid} {f : Node → Node}
    (keeps : ∀ node : Node, node.Keeps (node.write now f))
    (h : when b (updateNode nodeId now f) store = (.ok u, store')) :
    ∃ nodes', List.Forall₂ Node.Keeps store.nodes nodes' ∧
      store' = { store with nodes := nodes' } := by
  rcases when_eq_ok.mp h with ⟨-, h⟩ | ⟨-, rfl⟩
  · exact ⟨_, forall₂_updateWhere Node.Keeps.refl fun node _ _ => keeps node, updateNode_eq_ok h⟩
  · exact ⟨_, List.forall₂_same.mpr fun node _ => .refl node, rfl⟩

theorem when_closeFailed_eq_ok {b : Bool}
    (h : when b (closeFailed who) store = (.ok u, store')) :
    ∃ streams', List.Forall₂ NativeStream.Close store.streams streams' ∧
      store' = { store with streams := streams' } := by
  rcases when_eq_ok.mp h with ⟨-, h⟩ | ⟨-, rfl⟩
  · refine ⟨_, forall₂_updateWhere (fun _ => .same) fun row _ hrow => ?_, (modify_eq_ok.mp h).symm⟩
    simp only [Bool.and_eq_true, decide_eq_true_eq] at hrow
    exact .closed hrow.2 (by simp)
  · exact ⟨_, List.forall₂_same.mpr fun _ _ => .same, rfl⟩

theorem leased_of_endable {row : NodeTask} (h : endable who env row) : row.status = .leased := by
  simp only [endable, Bool.and_eq_true, decide_eq_true_eq] at h
  exact h.1.2

theorem handleSuccessSubmission_eq_ok
    (h : handleSuccessSubmission sha256 who node result env store = (.ok answer, store')) :
    Recorded sha256 who result store answer store' := by
  simp only [handleSuccessSubmission, bind_eq_ok] at h
  obtain ⟨updated, store₁, hend, _, store₂, hnode, _, store₃, hinsert, hanswer⟩ := h
  obtain ⟨-, -, -, -, rows, hupdate⟩ := endLease_eq_ok hend
  obtain ⟨tasks', htasks, rfl⟩ := TasksOnly.updated hupdate fun row _ hrow =>
    ⟨⟨rfl, rfl, rfl, rfl⟩, .ended (by rw [leased_of_endable hrow]; rfl)
      (by cases result.nativeError <;> simp [written, NodeTaskStatus.isTerminal])⟩
  obtain ⟨nodes', hnodes, rfl⟩ := when_updateNode_eq_ok (fun node => node.keeps_reset _) hnode
  obtain ⟨hfresh, rfl⟩ := insertSubmission_eq_ok hinsert
  obtain ⟨haction, rfl⟩ := completeResponse_eq_ok hanswer
  exact {
    fresh := hfresh
    submitted := ⟨_, by rw [haction]⟩
    tasks := htasks
    nodes := hnodes
    streams := List.forall₂_same.mpr fun _ _ => .same
    sessions := rfl
    grants := rfl }

theorem NodeTask.move_failedBy {final : Bool} {errorJson : JsonValue} {row : NodeTask}
    (leased : row.status = .leased) (shared : final = false → row.isNative = false) :
    row.Move (written now (NodeTask.failedBy final errorJson now) row) := by
  unfold written NodeTask.failedBy
  split
  · exact ⟨⟨rfl, rfl, rfl, rfl⟩, .ended (by rw [leased]; rfl) rfl⟩
  · rename_i hfinal
    split
    · rename_i hleft
      exact ⟨⟨rfl, rfl, rfl, rfl⟩,
        .requeued leased (shared (by simpa using hfinal)) hleft rfl rfl rfl⟩
    · exact ⟨⟨rfl, rfl, rfl, rfl⟩, .ended (by rw [leased]; rfl) rfl⟩

theorem handleFailedSubmission_eq_ok {code message : String} {isClientError : Bool}
    (unique : (store.tasks.map NodeTask.id).Nodup) (found : store.task? who.taskId = some task)
    (h : handleFailedSubmission sha256 who task code message isClientError env store =
      (.ok answer, store')) :
    Recorded sha256 who (.failed code message isClientError) store answer store' := by
  simp only [handleFailedSubmission, bind_eq_ok] at h
  obtain ⟨updated, store₁, hend, _, store₂, hclose, _, store₃, hnode, _, store₄, hinsert,
    hanswer⟩ := h
  obtain ⟨-, -, -, -, rows, hupdate⟩ := endLease_eq_ok hend
  have htask : ∀ row ∈ store.tasks, endable who env row → row = task := by
    intro row hrow hend
    simp only [endable, Bool.and_eq_true, decide_eq_true_eq] at hend
    exact List.inj_on_of_nodup_map unique hrow (mem_of_lookup found)
      (hend.1.1.1.trans (key_of_lookup found).symm)
  obtain ⟨tasks', htasks, rfl⟩ := TasksOnly.updated hupdate fun row hrow hend =>
    NodeTask.move_failedBy (leased_of_endable hend) fun hfinal => by
      rw [htask row hrow hend]
      simpa using (Bool.or_eq_false_iff.mp hfinal).2
  obtain ⟨streams', hstreams, rfl⟩ := when_closeFailed_eq_ok hclose
  obtain ⟨nodes', hnodes, rfl⟩ :=
    when_updateNode_eq_ok (fun node => node.keeps_countFailure _) hnode
  obtain ⟨hfresh, rfl⟩ := insertSubmission_eq_ok hinsert
  obtain ⟨haction, rfl⟩ := completeResponse_eq_ok hanswer
  exact {
    fresh := hfresh
    submitted := ⟨_, by rw [haction]⟩
    tasks := htasks
    nodes := hnodes
    streams := hstreams
    sessions := rfl
    grants := rfl }

theorem markExpired_eq_ok {taskId : Uuid}
    (live : ∀ row ∈ store.tasks, row.id = taskId → row.status.isTerminal = false)
    (h : markExpired taskId now store = (.ok u, store')) : TasksOnly store store' := by
  simp only [markExpired, inv] at h
  obtain ⟨rows, _, hupdate, -, rfl⟩ := h
  exact .updated hupdate fun row hrow hid =>
    ⟨⟨rfl, rfl, rfl, rfl⟩, .ended (live row hrow (of_decide_eq_true hid)) rfl⟩

theorem submitExpired_eq_ok (unique : (store.tasks.map NodeTask.id).Nodup)
    (found : store.task? who.taskId = some task)
    (h : submitExpired sha256 who task node result env store = (.ok answer, store')) :
    Recorded sha256 who result store answer store' := by
  simp only [submitExpired, inv] at h
  obtain ⟨_, -, _, -, _, store₁, hinsert, _, store₂, hmark, rfl, rfl⟩ := h
  obtain ⟨hfresh, rfl⟩ := insertSubmission_eq_ok hinsert
  have honly : TasksOnly { store with
      submissions := store.submissions ++ [who.submission sha256 "expired" result .expired] }
      store₂ := by
    rcases when_eq_ok.mp hmark with ⟨hlive, hmark⟩ | ⟨-, rfl⟩
    · refine markExpired_eq_ok (fun row hrow hid => ?_) hmark
      have hsame : row = task := List.inj_on_of_nodup_map unique hrow (mem_of_lookup found)
        (hid.trans (key_of_lookup found).symm)
      simpa [hsame] using hlive
    · exact .refl _
  obtain ⟨tasks', htasks, rfl⟩ := honly
  exact {
    fresh := hfresh
    submitted := ⟨_, rfl⟩
    tasks := htasks
    nodes := List.forall₂_same.mpr fun node _ => .refl node
    streams := List.forall₂_same.mpr fun _ _ => .same
    sessions := rfl
    grants := rfl }

theorem submitLive_eq_ok (unique : (store.tasks.map NodeTask.id).Nodup)
    (found : store.task? who.taskId = some task)
    (h : submitLive sha256 who task node result env store = (.ok answer, store')) :
    task.HeldBy who.nodeId who.sessionId who.leaseId ∧
      Recorded sha256 who result store answer store' := by
  simp only [submitLive, inv] at h
  obtain ⟨_, -, _, hheld, _, -, _, -, _, rfl, h⟩ := h
  refine ⟨not_not.mp hheld, ?_⟩
  cases result with
  | succeeded | imageSucceeded => exact handleSuccessSubmission_eq_ok h
  | nativeSucceeded | nativeStreamSucceeded =>
      grind [bind_eq_ok, lift_eq_ok, handleSuccessSubmission_eq_ok, Recorded]
  | failed code message isClientError => exact handleFailedSubmission_eq_ok unique found h

/-- **What a completion commits**: nothing, when it repeats a submission, and otherwise the
submission of the lease's holder. -/
inductive Completed (sha256 : String → String) (who : Submitter) (result : NodeTaskResult)
    (store : NodeStore ι) (answer : NodeTaskCompleteResponse) : NodeStore ι → Prop
  | replayed {node : Node} {submission : NodeTaskSubmission}
      (found : store.submission? who.taskId who.leaseId = some submission)
      (replay : replaySubmission sha256 who node submission result store = .ok answer) :
      Completed sha256 who result store answer store
  | recorded {task : NodeTask} {node : Node} {session : NodeSession} {store' : NodeStore ι}
      (found : store.task? who.taskId = some task)
      (held : task.HeldBy who.nodeId who.sessionId who.leaseId)
      (sender : store.node? who.nodeId = some node) (tenant : node.tenantId = task.tenantId)
      (under : store.sessionInScope? node who.sessionId = some session)
      (recorded : Recorded sha256 who result store answer store') :
      Completed sha256 who result store answer store'

theorem completeTask_eq_ok (unique : (store.tasks.map NodeTask.id).Nodup)
    (h : completeTask sha256 who result env store = (.ok answer, store')) :
    Completed sha256 who result store answer store' := by
  simp only [completeTask, inv] at h
  obtain ⟨_, rfl, task, htask, node, hnode, h⟩ := h
  simp only [id] at htask hnode h
  obtain ⟨hnode, htenant⟩ := Option.filter_eq_some_iff.mp hnode
  cases hsub : store.submission? who.taskId who.leaseId with
  | some submission =>
    simp only [hsub, lift_eq_ok] at h
    obtain ⟨hreplay, rfl⟩ := h
    exact .replayed hsub hreplay
  | none =>
    simp only [hsub, inv, Tx.ite_apply] at h
    obtain ⟨session, hsession, _, -, h⟩ := h
    have htenant' : node.tenantId = task.tenantId := of_decide_eq_true htenant
    split at h
    · have hheld : task.HeldBy who.nodeId who.sessionId who.leaseId := by
        simp only [submitExpired, inv] at h
        obtain ⟨_, hheld, -⟩ := h
        exact not_not.mp hheld
      exact .recorded htask hheld hnode htenant' hsession (submitExpired_eq_ok unique htask h)
    · obtain ⟨hheld, hrecorded⟩ := submitLive_eq_ok unique htask h
      exact .recorded htask hheld hnode htenant' hsession hrecorded

end Committed

end Complete

end KeyCompute.NodeGateway
