import KeyCompute.NodeGateway.StreamLog
import KeyCompute.NodeGateway.Registry

/-!
# The node gateway as one system

A call is one committed transaction of the gateway, of a worker, of a waiting request, of an
administrator or of the sweeper; a run is any list of calls from the empty store.  `Effect` lists
what a call can commit, with what it has checked on the way, and `NodeCall.effect` says that there
is nothing else.  The invariants are case analyses on `Effect`.
-/

namespace KeyCompute.NodeGateway

open Relational

/-- A transaction of the gateway with its arguments, the clock and the identifiers it draws. -/
inductive NodeCall where
  | create (req : CreateNodeTaskRequest) (id : Uuid) (checks : CreateChecks)
      (failureThreshold : ℤ) (now : Timestamp)
  | claim (taskId nodeId sessionId leaseId : Uuid) (checks : DispatchChecks) (now : Timestamp)
  | claimNextNative (nodeId sessionId leaseId : Uuid) (checks : DispatchChecks)
      (locked : List Uuid) (now : Timestamp)
  | complete (who : Submitter) (result : NodeTaskResult) (env : CompletionEnv)
  | rejectInvalid (taskId : Uuid) (checks : DispatchChecks) (now : Timestamp)
  | expireTasks (now : Timestamp)
  | changeTask (authority : Except DbError Unit) (scope : TaskScope) (mutation : TaskMutation)
      (now : Timestamp)
  | register (req : NodeRegisterRequest) (token : Except DbError Principal)
      (nodeId sessionId : Uuid) (sessionTtl : ℤ) (now : Timestamp)
  | heartbeat (nodeId sessionId : Uuid) (acceptedModels : List String) (tenantActive : Bool)
      (sessionTtl : ℤ) (now : Timestamp)
  | expireNodes (ttl : ℤ) (now : Timestamp)
  | changeNode (tenant : Uuid) (mutation : NodeMutation) (checks : ControlChecks)
      (now : Timestamp)
  | revokeToken (tenant nodeId userId : Uuid) (authority : Except DbError Unit) (now : Timestamp)
  | accept (r : NodeTaskStreamEventRequest) (checks : StreamChecks) (now : Timestamp)
  | read (taskId : Uuid) (after : Option ℕ)
  | acknowledge (taskId leaseId : Uuid) (seq pick : ℕ) (now : Timestamp)
  | cancelStream (taskId : Uuid) (scope : Option Principal) (reason : String) (pick : ℕ)
      (now : Timestamp)

section System

variable {ι : Type} (inspector : Inspector ι) (sha256 : String → String)

/-- The store after a call; a call that fails leaves it as it was. -/
def NodeCall.step : NodeCall → NodeStore ι → NodeStore ι
  | create req id checks failureThreshold now, store =>
    (atomically (createTask req id checks failureThreshold now) store).2
  | claim taskId nodeId sessionId leaseId checks now, store =>
    (atomically (claimTask taskId nodeId sessionId leaseId checks now) store).2
  | claimNextNative nodeId sessionId leaseId checks locked now, store =>
    (atomically (claimNextNativeTask nodeId sessionId leaseId checks locked now) store).2
  | complete who result env, store => (atomically (completeTask sha256 who result env) store).2
  | rejectInvalid taskId checks now, store =>
    (atomically (rejectInvalidQueuedTask taskId checks now) store).2
  | expireTasks now, store => (atomically (expireOverdueTasks now) store).2
  | changeTask authority scope mutation now, store =>
    (atomically (NodeGateway.changeTask authority scope mutation now) store).2
  | register req token nodeId sessionId sessionTtl now, store =>
    (atomically (registerNode req token nodeId sessionId sessionTtl now) store).2
  | heartbeat nodeId sessionId acceptedModels tenantActive sessionTtl now, store =>
    (atomically
      (NodeGateway.heartbeat nodeId sessionId acceptedModels tenantActive sessionTtl now) store).2
  | expireNodes ttl now, store => (atomically (expireOfflineNodes ttl now) store).2
  | changeNode tenant mutation checks now, store =>
    (atomically (NodeGateway.changeNode tenant mutation checks now) store).2
  | revokeToken tenant nodeId userId authority now, store =>
    (atomically (NodeGateway.revokeToken tenant nodeId userId authority now) store).2
  | accept r checks now, store =>
    (atomically (acceptNativeStreamEvent inspector sha256 r checks now) store).2
  | read _ _, store => store
  | acknowledge taskId leaseId seq pick now, store =>
    (atomically (acknowledgeNativeStreamEvent taskId leaseId seq pick now) store).2
  | cancelStream taskId scope reason pick now, store =>
    (atomically (cancelNativeStream inspector taskId scope reason pick now) store).2

def run (calls : List NodeCall) (store : NodeStore ι) : NodeStore ι :=
  runAll (NodeCall.step inspector sha256) calls store

end System

/-! ## Effects -/

/-- The primary keys of the tables that calls select by. -/
structure NodeStore.Keyed {ι : Type} (store : NodeStore ι) : Prop where
  tasks : (store.tasks.map NodeTask.id).Nodup
  nodes : (store.nodes.map Node.id).Nodup

/-- What a call commits, and what it has checked before. -/
inductive Effect {ι : Type} (sha256 : String → String) :
    NodeCall → NodeStore ι → NodeStore ι → Prop
  | still {call store} : Effect sha256 call store store
  | created {req id checks failureThreshold now store requirements}
      (fresh : ∀ row ∈ store.tasks, row.id ≠ id) :
      Effect sha256 (.create req id checks failureThreshold now) store
        { store with tasks := store.tasks ++ [req.row id requirements failureThreshold now] }
  | leased {call store nodeId sessionId leaseId now} {task : NodeTask}
      (member : task ∈ store.tasks) (queued : task.status = .queued) :
      Effect sha256 call store (store.leased task nodeId sessionId leaseId now)
  | moved {call store store'} (only : TasksOnly store store') : Effect sha256 call store store'
  | completed {who result env store answer store'} {task : NodeTask} {node : Node}
      {session : NodeSession} (found : store.task? who.taskId = some task)
      (held : task.HeldBy who.nodeId who.sessionId who.leaseId)
      (sender : store.node? who.nodeId = some node) (tenant : node.tenantId = task.tenantId)
      (under : store.sessionInScope? node who.sessionId = some session)
      (recorded : Recorded sha256 who result store answer store') :
      Effect sha256 (.complete who result env) store store'
  | registered {call store nodes₁ nodes' session} (joined : Joined store.nodes nodes₁)
      (nodes : List.Forall₂ Node.Keeps nodes₁ nodes') (valid : session.revokedAt = none) :
      Effect sha256 call store
        { store with nodes := nodes', sessions := store.sessions ++ [session] }
  | reported {call store store'} (only : NodesOnly store store') :
      Effect sha256 call store store'
  | administered {tenant mutation checks now store store'}
      (change : Administered mutation store store') :
      Effect sha256 (.changeNode tenant mutation checks now) store store'
  | offered {call store store' r accepted} (seq : r.seq ≤ maxStreamSeq)
      (size : r.event.size ≤ maxStreamEventBytes)
      (appended : Appended sha256 r (store.stream? r.taskId r.leaseId) store accepted store') :
      Effect sha256 call store store'
  | acknowledged {call store store' key seq now} (read : Acknowledged key seq now store store') :
      Effect sha256 call store store'
  | cancelled {call store tasks' streams'}
      (tasks : List.Forall₂ NodeTask.Move store.tasks tasks')
      (streams : List.Forall₂ NativeStream.Close store.streams streams') :
      Effect sha256 call store { store with tasks := tasks', streams := streams' }

section Effects

variable {ι : Type} {inspector : Inspector ι} {sha256 : String → String} {store : NodeStore ι}

/-- Both ways to claim a task have the same effects. -/
theorem Claimed.effect {call : NodeCall} {nodeId sessionId leaseId : Uuid} {now : Timestamp}
    {store' : NodeStore ι} (h : Claimed nodeId sessionId leaseId now store store') :
    Effect sha256 call store store' := by
  rcases h with rfl | ⟨task, member, queued, rfl⟩
  · exact .still
  · exact .leased member queued

/-- **A call commits nothing but an effect.** -/
theorem NodeCall.effect (call : NodeCall) (keyed : store.Keyed) :
    Effect sha256 call store (call.step inspector sha256 store) := by
  cases call with
  | create req id checks failureThreshold now =>
    refine atomically_rel .still fun task store' h => ?_
    obtain ⟨requirements, rfl, fresh, rfl⟩ := createTask_eq_ok h
    exact .created fresh
  | claim taskId nodeId sessionId leaseId checks now =>
    exact atomically_rel .still fun _ _ h => (claimTask_eq_ok keyed.tasks h).effect
  | claimNextNative nodeId sessionId leaseId checks locked now =>
    exact atomically_rel .still fun _ _ h => (claimNextNativeTask_eq_ok keyed.tasks h).effect
  | complete who result env =>
    refine atomically_rel .still fun answer store' h => ?_
    cases completeTask_eq_ok keyed.tasks h with
    | replayed _ _ => exact .still
    | recorded found held sender tenant under recorded =>
      exact .completed found held sender tenant under recorded
  | rejectInvalid taskId checks now =>
    exact atomically_rel .still fun _ _ h => .moved (rejectInvalidQueuedTask_eq_ok h)
  | expireTasks now =>
    exact atomically_rel .still fun _ _ h => .moved (expireOverdueTasks_eq_ok h)
  | changeTask authority scope mutation now =>
    exact atomically_rel .still fun _ _ h => .moved (changeTask_eq_ok h)
  | register req token nodeId sessionId sessionTtl now =>
    refine atomically_rel .still fun _ _ h => ?_
    obtain ⟨nodes₁, nodes', session, joined, nodes, valid, rfl⟩ :=
      registerNode_eq_ok keyed.nodes h
    exact .registered joined nodes valid
  | heartbeat nodeId sessionId acceptedModels tenantActive sessionTtl now =>
    exact atomically_rel .still fun _ _ h => .reported (heartbeat_eq_ok keyed.nodes h)
  | expireNodes ttl now =>
    exact atomically_rel .still fun _ _ h => .reported (expireOfflineNodes_eq_ok h)
  | changeNode tenant mutation checks now =>
    exact atomically_rel .still fun _ _ h => .administered (changeNode_eq_ok keyed.nodes h)
  | revokeToken tenant nodeId userId authority now =>
    exact atomically_rel .still fun _ _ h => .reported (revokeToken_eq_ok h)
  | accept r checks now =>
    refine atomically_rel .still fun _ _ h => ?_
    obtain ⟨seq, size, appended⟩ := acceptNativeStreamEvent_eq_ok h
    exact .offered seq size appended
  | read taskId after => exact .still
  | acknowledge taskId leaseId seq pick now =>
    exact atomically_rel .still fun _ _ h =>
      .acknowledged (acknowledgeNativeStreamEvent_eq_ok h)
  | cancelStream taskId scope reason pick now =>
    refine atomically_rel .still fun _ _ h => ?_
    obtain ⟨tasks', streams', tasks, streams, rfl⟩ := cancelNativeStream_eq_ok h
    exact .cancelled tasks streams

/-! ## Keys -/

theorem ids_of_moved {tasks tasks' : List NodeTask} (h : List.Forall₂ NodeTask.Move tasks tasks') :
    tasks'.map NodeTask.id = tasks.map NodeTask.id :=
  map_of_forall₂ (fun _ _ move => move.same.id) h

theorem ids_of_kept {nodes nodes' : List Node} (h : List.Forall₂ Node.Keeps nodes nodes') :
    nodes'.map Node.id = nodes.map Node.id :=
  map_of_forall₂ (fun _ _ keeps => keeps.same.id) h

theorem Joined.nodup {nodes nodes' : List Node} (h : Joined nodes nodes')
    (unique : (nodes.map Node.id).Nodup) : (nodes'.map Node.id).Nodup := by
  cases h with
  | known => exact unique
  | added fresh _ => exact nodup_append_row unique fresh

/-- Every effect keeps the keys unique. -/
theorem Effect.keyed {call : NodeCall} {store' : NodeStore ι}
    (h : Effect sha256 call store store') (keyed : store.Keyed) : store'.Keyed := by
  cases h with
  | still => exact keyed
  | created fresh => exact ⟨nodup_append_row keyed.tasks fresh, keyed.nodes⟩
  | leased member queued =>
    exact ⟨by rw [ids_leased]; exact keyed.tasks, keyed.nodes⟩
  | moved only =>
    obtain ⟨tasks', htasks, rfl⟩ := only
    exact ⟨by rw [ids_of_moved htasks]; exact keyed.tasks, keyed.nodes⟩
  | completed _ _ _ _ _ recorded =>
    exact ⟨by rw [ids_of_moved recorded.tasks]; exact keyed.tasks,
      by rw [ids_of_kept recorded.nodes]; exact keyed.nodes⟩
  | registered joined nodes _ =>
    exact ⟨keyed.tasks, by rw [ids_of_kept nodes]; exact joined.nodup keyed.nodes⟩
  | reported only =>
    obtain ⟨nodes', sessions', nodes, -, rfl⟩ := only
    exact ⟨keyed.tasks, by rw [ids_of_kept nodes]; exact keyed.nodes⟩
  | administered change =>
    cases change with
    | kept only =>
      obtain ⟨nodes', sessions', nodes, -, rfl⟩ := only
      exact ⟨keyed.tasks, by rw [ids_of_kept nodes]; exact keyed.nodes⟩
    | configured _ _ same _ =>
      refine ⟨keyed.tasks, ?_⟩
      rw [map_of_forall₂ (fun _ _ same => same.id) same]
      exact keyed.nodes
    | deleted _ _ =>
      exact ⟨keyed.tasks, keyed.nodes.sublist (List.filter_sublist.map _)⟩
  | offered _ _ appended =>
    cases appended with
    | refused | again => exact keyed
    | appended => exact ⟨keyed.tasks, keyed.nodes⟩
  | acknowledged read =>
    cases read with
    | again => exact keyed
    | consumed => exact ⟨keyed.tasks, keyed.nodes⟩
  | cancelled tasks _ => exact ⟨by rw [ids_of_moved tasks]; exact keyed.tasks, keyed.nodes⟩

theorem NodeCall.keyed (call : NodeCall) (h : store.Keyed) :
    (call.step inspector sha256 store).Keyed :=
  (call.effect h).keyed h

theorem keyed_empty : ({} : NodeStore ι).Keyed := ⟨List.nodup_nil, List.nodup_nil⟩

variable {I : NodeStore ι → Prop}

/-- **The invariant rule of the system**: what every effect keeps, every run from the empty
store keeps. -/
theorem run_invariant
    (hstep : ∀ call store store', store.Keyed → Effect sha256 call store store' → I store →
      I store') (calls : List NodeCall) (h : I {}) : I (run inspector sha256 calls {}) :=
  (runAll_invariant (I := fun store => store.Keyed ∧ I store)
    (fun call store ⟨keyed, hI⟩ =>
      ⟨call.keyed keyed, hstep call store _ keyed (call.effect keyed) hI⟩)
    calls {} ⟨keyed_empty, h⟩).2

/-- The invariant rule for runs of calls that meet a condition. -/
theorem run_invariant_of {ok : NodeCall → Prop}
    (hstep : ∀ call store store', ok call → store.Keyed → Effect sha256 call store store' →
      I store → I store') (calls : List NodeCall) (hok : ∀ call ∈ calls, ok call) (h : I {}) :
    I (run inspector sha256 calls {}) :=
  (runAll_invariant_of (I := fun store => store.Keyed ∧ I store)
    (fun call store hcall ⟨keyed, hI⟩ =>
      ⟨call.keyed keyed, hstep call store _ hcall keyed (call.effect keyed) hI⟩)
    calls {} hok ⟨keyed_empty, h⟩).2

/-- **The rule of moves**: a run moves the store by what every effect moves it by, from a store
that meets an invariant. -/
theorem run_moves {R : NodeStore ι → NodeStore ι → Prop} (hrefl : ∀ store, R store store)
    (htrans : ∀ {a b c}, R a b → R b c → R a c)
    (hstep : ∀ call store store', store.Keyed → Effect sha256 call store store' → I store →
      I store' ∧ R store store') (calls : List NodeCall) (keyed : store.Keyed) (h : I store) :
    R store (run inspector sha256 calls store) :=
  runAll_moves (I := fun store => store.Keyed ∧ I store) hrefl htrans
    (fun call store ⟨keyed, hI⟩ =>
      have step := hstep call store _ keyed (call.effect keyed) hI
      ⟨⟨call.keyed keyed, step.1⟩, step.2⟩)
    calls store ⟨keyed, h⟩

theorem run_append (calls later : List NodeCall) (store : NodeStore ι) :
    run inspector sha256 (calls ++ later) store =
      run inspector sha256 later (run inspector sha256 calls store) :=
  runAll_append _ calls later store

theorem run_keyed (calls : List NodeCall) : (run inspector sha256 calls {}).Keyed :=
  runAll_invariant (fun call _ h => call.keyed h) calls {} keyed_empty

end Effects

/-! ## An example run

Node `6` of user `5` joins tenant `3`, takes task `1` under lease `8` and fails it once. -/

/-- An inspector that sees no terminal event. -/
def blindInspector : Inspector Unit where
  new _ := ()
  observeForModel _ _ _ := ()
  isTerminal _ := false
  isFailed _ := false
  summary _ status headers := {
    protocol := .chat, status, headers, terminalEvent := none, finalBody := none, usage := none,
    terminalOutcome := none }

/-- Every check of a claim succeeds. -/
def openChecks : DispatchChecks where
  tenantActive := true
  dispatchActive _ := true
  membersActive _ _ := true
  profileMatches _ _ := true
  nativeValid := .ok ()

def sharedPayload : NodeTaskPayload where
  dispatchIdentity := .null
  requestId := 2
  chat := some .null
  imageGeneration := none
  imageEdit := none
  native := none

def firstSubmitter : Submitter where
  taskId := 1
  leaseId := 8
  nodeId := 6
  sessionId := 7

def clockAt (now : Timestamp) : CompletionEnv where
  now := now
  dbNow := now
  nativeCheck := .ok ()

def firstFailure : NodeTaskResult := .failed "runtime" "out of memory" false

/-- Task `1` is created, node `6` registers, and the task is leased to it. -/
def leasedOnce : List NodeCall :=
  [.create {
      tenantId := 3, requestId := 2, userId := 4, model := "m", payload := sharedPayload,
      deadlineAt := 100, completeGraceUntil := 200 } 1 {
      requirements := .ok .null, memberActive := true, dispatchActive := true } 2 0,
    .register {
      clientInstanceId := "c", displayName := "n", capabilitiesJson := .null, models := ["m"],
      nativeOperations := [], nativeProfiles := [] }
      (.ok { tenantId := 3, userId := 5 }) 6 7 1000 0,
    .claim 1 6 7 8 openChecks 10]

end KeyCompute.NodeGateway
