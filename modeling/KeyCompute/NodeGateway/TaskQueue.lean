import KeyCompute.NodeGateway.Record

/-!
# Queued tasks and their leases

`claim` and `claim_next_native` give a queued task to a node under a new lease; a task whose
deadline passes, whose caller loses its authority or that an administrator cancels leaves the queue
without one.  The tables of users, tenants and memberships answer through `DispatchChecks`, which
each call brings along, since other parts of the platform change them between two calls.
-/

namespace KeyCompute.NodeGateway

open Relational

variable {ι : Type}

/-! ## Creation -/

structure CreateNodeTaskRequest where
  tenantId : Uuid
  requestId : Uuid
  userId : Uuid
  model : String
  payload : NodeTaskPayload
  deadlineAt : Timestamp
  completeGraceUntil : Timestamp

/-- What the checks around a creation answer: that the identity and the native request are
acceptable, with the requirements read off the request, and that the caller is an active
member of its tenant. -/
structure CreateChecks where
  requirements : Except DbError JsonValue
  memberActive : Bool
  dispatchActive : Bool

/-- The row a creation inserts; `failure_threshold` is the default of the column. -/
def CreateNodeTaskRequest.row (req : CreateNodeTaskRequest) (id : Uuid)
    (requirements : JsonValue) (failureThreshold : ℤ) (now : Timestamp) : NodeTask where
  id := id
  requestId := req.requestId
  tenantId := req.tenantId
  userId := req.userId
  model := req.model
  payload := req.payload
  nativeRequirementsJson := req.payload.native.map fun _ => requirements
  status := .queued
  assignedNodeId := none
  assignedSessionId := none
  leaseId := none
  failureCount := 0
  failureThreshold := failureThreshold
  resultJson := none
  errorJson := none
  cancellationRequestedAt := none
  archivedAt := none
  queuedAt := now
  claimedAt := none
  finishedAt := none
  deadlineAt := req.deadlineAt
  completeGraceUntil := req.completeGraceUntil
  updatedAt := now

/-- `create_and_enqueue_task` and `NodeTask::create`. -/
def createTask (req : CreateNodeTaskRequest) (id : Uuid) (checks : CreateChecks)
    (failureThreshold : ℤ) (now : Timestamp) : Tx (NodeStore ι) DbError NodeTask := do
  Tx.lift (req.payload.validate.mapError error)
  Tx.failIf (req.payload.native.any fun native => native.body.getStr "model" ≠ some req.model)
    (error "native model mismatch")
  let requirements ← Tx.lift checks.requirements
  Tx.failIf (¬ checks.memberActive) (error "create failed to return row")
  Tx.failIf (¬ checks.dispatchActive)
    (.databaseError "current original dispatch identity required")
  let taken ← Tx.read fun store =>
    store.tasks.any fun task => task.id = id || task.requestId = req.requestId
  Tx.failIf taken (.databaseError "node_tasks_request_id_key")
  Tx.modify fun store =>
    { store with tasks := store.tasks ++ [req.row id requirements failureThreshold now] }
  pure (req.row id requirements failureThreshold now)

/-! ## Leases -/

/-- What the tables of users, tenants, memberships and capabilities answer to a claim. -/
structure DispatchChecks where
  /-- the tenant of the claiming node is active -/
  tenantActive : Bool
  /-- `dispatch_identity_is_active`, for a task -/
  dispatchActive : NodeTask → Bool
  /-- the node's owner and the task's caller are active members of the tenant -/
  membersActive : NodeTask → Node → Bool
  /-- `profile_matches`, of a profile and the requirements of a task -/
  profileMatches : JsonValue → JsonValue → Bool
  /-- `validate`, of the native request -/
  nativeValid : Except DbError Unit

def NodeSession.serves (now : Timestamp) (node : Node) (session : NodeSession) (model : String) :
    Bool :=
  session.inScope node && session.acceptedModels.contains model && session.revokedAt.isNone &&
    decide (now < session.expiresAt) && session.acceptingTasks

def NodeSession.servesNative (checks : DispatchChecks) (node : Node) (session : NodeSession)
    (requirements : JsonValue) : Bool :=
  node.capabilitiesJson.getStr "runtime" = some "ollama" &&
    (requirements.getStr "operation").any (session.nativeOperations.contains ·) &&
    session.nativeProfiles.any (checks.profileMatches · requirements)

/-- The `EXISTS` clause of the claims: an online node of the task's tenant and its session. -/
def servedBy (checks : DispatchChecks) (now : Timestamp) (nodeId sessionId : Uuid)
    (store : NodeStore ι) (task : NodeTask) (native : Bool) : Bool :=
  store.nodes.any fun node =>
    node.id = nodeId && node.tenantId = task.tenantId && node.status = .online &&
      checks.membersActive task node &&
      store.sessions.any fun session =>
        session.id = sessionId && session.serves now node task.model &&
          (!native || task.nativeRequirementsJson.any (session.servesNative checks node ·))

/-- The conditions both claims share: nothing stands against leasing the task. -/
def claimable (checks : DispatchChecks) (task : NodeTask) : Bool :=
  task.status = .queued && task.cancellationRequestedAt.isNone && task.archivedAt.isNone &&
    checks.dispatchActive task

def NodeTask.lease (nodeId sessionId leaseId : Uuid) (now : Timestamp) (task : NodeTask) :
    NodeTask :=
  { task with
    status := .leased, assignedNodeId := some nodeId, assignedSessionId := some sessionId,
    leaseId := some leaseId, claimedAt := some now }

/-- The update of a claim, on the rows that a condition picks. -/
def leaseWhere (p : NodeTask → Bool) (nodeId sessionId leaseId : Uuid) (now : Timestamp) :
    Tx (NodeStore ι) DbError (Option NodeTask) := do
  let rows ← updateTasks now p (NodeTask.lease nodeId sessionId leaseId now)
  Tx.modify fun store =>
    { store with grants := store.grants ++ rows.map fun task => (task.id, leaseId) }
  pure rows.head?

def claimTask (taskId nodeId sessionId leaseId : Uuid) (checks : DispatchChecks)
    (now : Timestamp) : Tx (NodeStore ι) DbError (Option NodeTask) := do
  let store ← Tx.read id
  if (store.node? nodeId).isNone || !checks.tenantActive then pure none
  else
    leaseWhere (fun task => task.id = taskId && claimable checks task &&
        decide (now ≤ task.deadlineAt) && servedBy checks now nodeId sessionId store task false &&
        (task.payload.native.all fun native =>
          native.body.getStr "model" = some task.model &&
            servedBy checks now nodeId sessionId store task true))
      nodeId sessionId leaseId now

/-- The tasks a native worker can take, but for those locked by another transaction. -/
def nativeCandidates (nodeId sessionId : Uuid) (checks : DispatchChecks) (locked : List Uuid)
    (now : Timestamp) (store : NodeStore ι) : List NodeTask :=
  store.tasks.filter fun task =>
    claimable checks task && decide (now < task.deadlineAt) &&
      task.nativeRequirementsJson.isSome &&
      servedBy checks now nodeId sessionId store task true && !locked.contains task.id

/-- `ORDER BY queued_at, id`. -/
def NodeTask.precedes (a b : NodeTask) : Bool :=
  a.queuedAt < b.queuedAt || (a.queuedAt = b.queuedAt && a.id.bits ≤ b.id.bits)

def firstNative? (candidates : List NodeTask) : Option NodeTask :=
  candidates.find? fun task => candidates.all (task.precedes ·)

/-- The lease of a native task, whose payload is checked before the commit. -/
def leaseNative (task : NodeTask) (nodeId sessionId leaseId : Uuid) (checks : DispatchChecks)
    (now : Timestamp) : Tx (NodeStore ι) DbError (Option NodeTask) := do
  let leased ← leaseWhere (fun row => row.id = task.id) nodeId sessionId leaseId now
  Tx.lift (task.payload.validate.mapError error)
  Tx.lift (if task.isNative then checks.nativeValid else .ok ())
  pure leased

def claimNextNativeTask (nodeId sessionId leaseId : Uuid) (checks : DispatchChecks)
    (locked : List Uuid) (now : Timestamp) : Tx (NodeStore ι) DbError (Option NodeTask) := do
  let store ← Tx.read id
  if (store.node? nodeId).isNone || !checks.tenantActive then pure none
  else
    match firstNative? (nativeCandidates nodeId sessionId checks locked now store) with
    | none => pure none
    | some task => leaseNative task nodeId sessionId leaseId checks now

/-! ## Leaving the queue without a lease -/

def executionAuthorityInvalidError : JsonValue :=
  .ofFields [("code", .string "execution_authority_invalid"),
    ("message", .string "Execution authority is no longer valid"),
    ("is_client_error", .bool true)]

def rejectInvalidQueuedTask (taskId : Uuid) (checks : DispatchChecks) (now : Timestamp) :
    Tx (NodeStore ι) DbError (Option NodeTask) := do
  let rows ← updateTasks now
    (fun task => task.id = taskId && decide (task.status = .queued) && !checks.dispatchActive task)
    fun task => { task with
      status := .failed, errorJson := some executionAuthorityInvalidError, finishedAt := some now }
  pure rows.head?

def expireOverdueTasks (now : Timestamp) : Tx (NodeStore ι) DbError (List NodeTask) :=
  updateTasks now (fun task => !task.status.isTerminal && decide (task.deadlineAt < now))
    fun task => { task with status := .expired, finishedAt := some now }

/-! ## Administration -/

inductive TaskAction where
  | cancel
  | archive
  deriving DecidableEq

structure TaskMutation where
  id : Uuid
  expectedUpdatedAt : Timestamp
  action : TaskAction

/-- The tenant an administrator acts in, and the owner it is confined to, if it is. -/
structure TaskScope where
  tenant : Uuid
  owner : Option Uuid

def conflict (kind : String) (id : Uuid) : DbError := .optimisticConflict kind (toString id)

/-- The columns a cancellation sets: a queued task ends at once, a leased one is only marked. -/
def NodeTask.cancelled (now : Timestamp) (task : NodeTask) : NodeTask :=
  if task.status = .queued then
    { task with
      cancellationRequestedAt := some now, status := .failed, finishedAt := some now,
      errorJson := some (.ofFields [("code", .string "task_cancelled_before_dispatch"),
        ("message", .string "Task cancelled before a worker lease")]) }
  else { task with cancellationRequestedAt := some now }

/-- A leased task can be cancelled if its worker watches for it and has not finished. -/
def checkCancellable (task : NodeTask) : Tx (NodeStore ι) DbError Unit := do
  Tx.failIf (task.status = .leased ∧ ¬ task.cancellationAware)
    (conflict "leased worker has no cancellation contract" task.id)
  let stream ← Tx.read fun store => task.leaseId.bind (store.stream? task.id)
  Tx.failIf (task.status = .leased ∧ stream.any (·.state = .terminal))
    (conflict "terminal native result is awaiting completion" task.id)

/-- The branch of `change_task` that archives. -/
def archiveTask (old : NodeTask) (now : Timestamp) : Tx (NodeStore ι) DbError Bool := do
  Tx.failIf (¬ old.status.isTerminal) (conflict "only terminal tasks can be archived" old.id)
  if old.archivedAt.isNone then do
    let rows ← updateTasks now
      (fun task => task.id = old.id && task.status.isTerminal && task.archivedAt.isNone)
      fun task => { task with archivedAt := some now }
    Tx.failIf (rows.length ≠ 1) (conflict "Node task" old.id)
    pure true
  else pure false

/-- The branch of `change_task` that cancels. -/
def cancelTask (old : NodeTask) (now : Timestamp) : Tx (NodeStore ι) DbError Bool :=
  if !old.status.isTerminal && old.cancellationRequestedAt.isNone then do
    checkCancellable old
    let rows ← updateTasks now
      (fun task => task.id = old.id && !task.status.isTerminal &&
        task.cancellationRequestedAt.isNone)
      (NodeTask.cancelled now)
    Tx.failIf (rows.length ≠ 1) (conflict "Node task" old.id)
    pure true
  else pure false

/-- `change_task`; the answer says whether anything changed.  `authority` is what the checks of
the reason and of the console grant answer. -/
def changeTask (authority : Except DbError Unit) (scope : TaskScope) (mutation : TaskMutation)
    (now : Timestamp) : Tx (NodeStore ι) DbError Bool := do
  Tx.failIf mutation.id.isNil (error "invalid node control input: task ID required")
  Tx.lift authority
  let found ← Tx.read fun store => (store.task? mutation.id).filter fun task =>
    task.tenantId = scope.tenant && scope.owner.all (task.userId = ·)
  let old ← Tx.okOr found (.notFound "Node task" (toString mutation.id))
  Tx.failIf (old.updatedAt ≠ mutation.expectedUpdatedAt) (conflict "Node task" old.id)
  match mutation.action with
  | .archive => archiveTask old now
  | .cancel => cancelTask old now

/-! ## What the calls commit -/

section Committed

variable {store store' : NodeStore ι} {now : Timestamp} {checks : DispatchChecks}
  {nodeId sessionId leaseId : Uuid}

variable {answer : Option NodeTask} {task : NodeTask}

theorem createTask_eq_ok {req : CreateNodeTaskRequest} {id : Uuid} {checks : CreateChecks}
    {failureThreshold : ℤ}
    (h : createTask req id checks failureThreshold now store = (.ok task, store')) :
    ∃ requirements, task = req.row id requirements failureThreshold now ∧
      (∀ row ∈ store.tasks, row.id ≠ id) ∧
        store' = { store with tasks := store.tasks ++ [task] } := by
  simp only [createTask, Tx.inv] at h
  obtain ⟨_, -, _, -, requirements, -, _, -, _, -, _, rfl, _, fresh, _, _, rfl, rfl, rfl⟩ := h
  refine ⟨requirements, rfl, ?_, rfl⟩
  intro row hrow same
  apply fresh
  rw [List.any_eq_true]
  exact ⟨row, hrow, by simp [same]⟩

def NodeStore.leased (task : NodeTask) (nodeId sessionId leaseId : Uuid) (now : Timestamp)
    (store : NodeStore ι) : NodeStore ι :=
  { store with
    tasks := updateKey NodeTask.id task.id
      (written now (NodeTask.lease nodeId sessionId leaseId now)) store.tasks
    grants := store.grants ++ [(task.id, leaseId)] }

theorem ids_leased (task : NodeTask) (store : NodeStore ι) :
    (store.leased task nodeId sessionId leaseId now).tasks.map NodeTask.id =
      store.tasks.map NodeTask.id :=
  map_updateWhere fun _ _ _ => rfl

/-- A claim commits nothing, or one queued task gets a lease. -/
def Claimed (nodeId sessionId leaseId : Uuid) (now : Timestamp) (store store' : NodeStore ι) :
    Prop :=
  store' = store ∨ ∃ task ∈ store.tasks, task.status = .queued ∧
    store' = store.leased task nodeId sessionId leaseId now

theorem leaseWhere_eq_ok {p : NodeTask → Bool} {k : Uuid}
    (unique : (store.tasks.map NodeTask.id).Nodup)
    (key : ∀ task ∈ store.tasks, p task → task.id = k)
    (h : leaseWhere p nodeId sessionId leaseId now store = (.ok answer, store')) :
    store' = store ∨ ∃ task ∈ store.tasks, p task ∧
      store' = store.leased task nodeId sessionId leaseId now := by
  simp only [leaseWhere, Tx.inv] at h
  obtain ⟨rows, store₁, hupdate, _, _, rfl, -, rfl⟩ := h
  obtain ⟨rfl, rfl⟩ := updateTasks_eq_ok hupdate
  rcases updateWhere_of_key unique key (written now (NodeTask.lease nodeId sessionId leaseId now))
    with ⟨hpicked, hrows⟩ | ⟨task, htask, hp, hpicked, hrows⟩
  · left
    simp [hpicked, hrows]
  · right
    refine ⟨task, htask, hp, ?_⟩
    simp [hpicked, hrows, NodeStore.leased, key task htask hp, written, NodeTask.lease]

theorem claimTask_eq_ok {taskId : Uuid} (unique : (store.tasks.map NodeTask.id).Nodup)
    (h : claimTask taskId nodeId sessionId leaseId checks now store = (.ok answer, store')) :
    Claimed nodeId sessionId leaseId now store store' := by
  rw [claimTask, Tx.bind_of_ok (Tx.read_eq_ok.mpr ⟨rfl, rfl⟩), Tx.ite_apply] at h
  split at h
  · exact .inl (Tx.pure_eq_ok.mp h).2.symm
  · have hkey := leaseWhere_eq_ok (k := taskId) unique (fun task _ hp => ?_) h
    · refine hkey.imp_right ?_
      rintro ⟨task, htask, hp, rfl⟩
      simp only [Bool.and_eq_true, claimable, decide_eq_true_eq] at hp
      exact ⟨task, htask, hp.1.1.1.2.1.1.1, rfl⟩
    · grind

theorem leaseNative_eq_ok (unique : (store.tasks.map NodeTask.id).Nodup)
    (member : task ∈ store.tasks) (queued : task.status = .queued)
    (h : leaseNative task nodeId sessionId leaseId checks now store = (.ok answer, store')) :
    Claimed nodeId sessionId leaseId now store store' := by
  simp only [leaseNative, Tx.inv] at h
  obtain ⟨_, _, hlease, _, -, _, -, -, rfl⟩ := h
  refine (leaseWhere_eq_ok (k := task.id) unique
    (fun row _ hp => of_decide_eq_true hp) hlease).imp_right ?_
  rintro ⟨row, hrow, hp, rfl⟩
  obtain rfl : row = task :=
    List.inj_on_of_nodup_map unique hrow member (of_decide_eq_true hp)
  exact ⟨row, hrow, queued, rfl⟩

theorem mem_of_firstNative {candidates : List NodeTask} (h : firstNative? candidates = some task) :
    task ∈ candidates :=
  List.mem_of_find?_eq_some h

theorem claimNextNativeTask_eq_ok {locked : List Uuid}
    (unique : (store.tasks.map NodeTask.id).Nodup)
    (h : claimNextNativeTask nodeId sessionId leaseId checks locked now store =
      (.ok answer, store')) :
    Claimed nodeId sessionId leaseId now store store' := by
  rw [claimNextNativeTask, Tx.bind_of_ok (Tx.read_eq_ok.mpr ⟨rfl, rfl⟩), Tx.ite_apply] at h
  split at h
  · exact .inl (Tx.pure_eq_ok.mp h).2.symm
  · cases hfirst : firstNative? (nativeCandidates nodeId sessionId checks locked now store) with
    | none =>
      simp only [id, hfirst] at h
      exact .inl (Tx.pure_eq_ok.mp h).2.symm
    | some task =>
      simp only [id, hfirst] at h
      have hmem := List.mem_filter.mp (mem_of_firstNative hfirst)
      simp only [Bool.and_eq_true, claimable, decide_eq_true_eq] at hmem
      exact leaseNative_eq_ok unique hmem.1 hmem.2.1.1.1.1.1.1.1 h

theorem rejectInvalidQueuedTask_eq_ok {taskId : Uuid}
    (h : rejectInvalidQueuedTask taskId checks now store = (.ok answer, store')) :
    TasksOnly store store' := by
  simp only [rejectInvalidQueuedTask, Tx.inv] at h
  obtain ⟨rows, _, hupdate, -, rfl⟩ := h
  refine .updated hupdate fun task _ hp => ⟨⟨rfl, rfl, rfl, rfl⟩, .ended ?_ rfl⟩
  simp only [Bool.and_eq_true, decide_eq_true_eq] at hp
  rw [hp.1.2]
  rfl

theorem expireOverdueTasks_eq_ok {rows : List NodeTask}
    (h : expireOverdueTasks now store = (.ok rows, store')) : TasksOnly store store' := by
  refine .updated h fun task _ hp => ⟨⟨rfl, rfl, rfl, rfl⟩, .ended ?_ rfl⟩
  simp only [Bool.and_eq_true, Bool.not_eq_true'] at hp
  exact hp.1

theorem NodeTask.move_cancelled (task : NodeTask) :
    task.Move (written now (NodeTask.cancelled now) task) := by
  unfold written NodeTask.cancelled
  split
  · rename_i hqueued
    exact ⟨⟨rfl, rfl, rfl, rfl⟩, .ended (by rw [hqueued]; rfl) rfl⟩
  · exact ⟨⟨rfl, rfl, rfl, rfl⟩, .marked rfl rfl (fun _ _ _ => Iff.rfl) fun free => free⟩

theorem archiveTask_eq_ok {old : NodeTask} {changed : Bool}
    (h : archiveTask old now store = (.ok changed, store')) : TasksOnly store store' := by
  simp only [archiveTask, Tx.inv, Tx.ite_apply] at h
  obtain ⟨_, -, h⟩ := h
  split at h
  · simp only [Tx.inv] at h
    obtain ⟨rows, _, hupdate, _, -, -, rfl⟩ := h
    exact .updated hupdate fun task _ _ =>
      ⟨⟨rfl, rfl, rfl, rfl⟩, .marked rfl rfl (fun _ _ _ => Iff.rfl) fun free => free⟩
  · cases h
    exact .refl _

theorem checkCancellable_eq_ok {old : NodeTask} {u : Unit}
    (h : checkCancellable old store = (.ok u, store')) : store' = store := by
  simp only [checkCancellable, Tx.inv] at h
  obtain ⟨_, -, _, -, -, rfl⟩ := h
  rfl

theorem cancelTask_eq_ok {old : NodeTask} {changed : Bool}
    (h : cancelTask old now store = (.ok changed, store')) : TasksOnly store store' := by
  rw [cancelTask, Tx.ite_apply] at h
  split at h
  · simp only [Tx.inv] at h
    obtain ⟨_, _, hleased, rows, _, hupdate, _, -, -, rfl⟩ := h
    obtain rfl := checkCancellable_eq_ok hleased
    exact .updated hupdate fun task _ _ => task.move_cancelled
  · cases h
    exact .refl _

theorem changeTask_eq_ok {authority : Except DbError Unit} {scope : TaskScope}
    {mutation : TaskMutation} {changed : Bool}
    (h : changeTask authority scope mutation now store = (.ok changed, store')) :
    TasksOnly store store' := by
  simp only [changeTask, Tx.inv] at h
  obtain ⟨_, -, _, -, _, rfl, old, -, _, -, h⟩ := h
  cases haction : mutation.action with
  | archive => exact archiveTask_eq_ok (by simpa only [haction] using h)
  | cancel => exact cancelTask_eq_ok (by simpa only [haction] using h)

end Committed

end KeyCompute.NodeGateway
