import KeyCompute.NodeGateway.System

/-!
# The life of a task along a run

`NodeTask.Accounted`: the leases given for a task are the failures counted so far, and one more
while it is leased, so they are bounded by the task's threshold, and by one for a native task.

`SubmissionsSound`: a pair of task and lease is submitted once, and what is behind a submission
stays, so that a repeated completion finds the same submission again.
-/

namespace KeyCompute.NodeGateway

open Relational NodeStore

variable {ι : Type} {sha256 : String → String} {store store' : NodeStore ι}

/-! ## Leases -/

def NodeStore.leaseCount (store : NodeStore ι) (taskId : Uuid) : ℕ :=
  store.grants.countP fun grant => grant.1 = taskId

/-- **What the counters of a task say about the leases it was given.** -/
structure NodeTask.Accounted (leases : ℕ) (task : NodeTask) : Prop where
  bound : leases ≤ task.failureThreshold
  native : task.isNative → leases ≤ 1
  /-- a queued task has failed as often as it was leased, and may be leased once more -/
  queued : task.status = .queued → task.leaseId = none ∧ leases = task.failureCount ∧
    leases < task.failureThreshold ∧ (task.isNative → leases = 0)
  leased : task.status = .leased → leases = task.failureCount + 1 ∧
    ∃ node session lease, task.HeldBy node session lease

namespace NodeTask

variable {task task' : NodeTask} {leases : ℕ}

theorem SameWork.isNative (same : task.SameWork task') : task'.isNative = task.isNative := by
  simp [NodeTask.isNative, same.payload]

theorem Accounted.move (h : task.Accounted leases) (move : task.Move task') :
    task'.Accounted leases := by
  obtain ⟨same, advance⟩ := move
  have hbound : (leases : ℤ) ≤ task'.failureThreshold := same.failureThreshold ▸ h.bound
  have hnative : task'.isNative → leases ≤ 1 := same.isNative ▸ h.native
  refine ⟨hbound, hnative, ?_, ?_⟩
  · intro hstatus
    cases advance with
    | marked status failureCount held free =>
        grind [same.failureThreshold, same.isNative, Move, Accounted]
    | ended _ ended => simp [hstatus, NodeTaskStatus.isTerminal] at ended
    | requeued leased shared left _ failureCount free =>
        grind [leased, same.failureThreshold, same.isNative, Move, Accounted]
  · intro hstatus
    cases advance with
    | marked status failureCount held _ =>
      obtain ⟨hcount, node, session, lease, hheld⟩ := h.leased (status ▸ hstatus)
      exact ⟨failureCount ▸ hcount, node, session, lease, (held node session lease).mpr hheld⟩
    | ended _ ended => simp [hstatus, NodeTaskStatus.isTerminal] at ended
    | requeued _ _ _ queued => simp [queued] at hstatus

theorem Accounted.lease {nodeId sessionId leaseId : Uuid} {now : Timestamp}
    (h : task.Accounted leases) (queued : task.status = .queued) :
    (written now (NodeTask.lease nodeId sessionId leaseId now) task).Accounted (leases + 1) := by
  obtain ⟨-, hcount, hless, hfirst⟩ := h.queued queued
  refine ⟨?_, ?_, ?_, ?_⟩
  · simp only [written, NodeTask.lease]
    omega
  · intro hnative
    have : leases = 0 := hfirst hnative
    omega
  · intro hstatus
    simp [written, NodeTask.lease] at hstatus
  · intro _
    exact ⟨by simp [written, NodeTask.lease, hcount], nodeId, sessionId, leaseId, rfl, rfl, rfl⟩

theorem Move.terminal (move : task.Move task') (ended : task.status.isTerminal = true) :
    task'.status = task.status := by
  cases move.advance with
  | marked status => exact status
  | ended live => simp [ended] at live
  | requeued leased => simp [leased, NodeTaskStatus.isTerminal] at ended

end NodeTask

inductive TaskEffect (call : NodeCall) (store store' : NodeStore ι) : Prop
  | moved (tasks : List.Forall₂ NodeTask.Move store.tasks store'.tasks)
      (grants : store'.grants = store.grants)
  | created {req id checks failureThreshold now requirements}
      (made : call = .create req id checks failureThreshold now)
      (fresh : ∀ row ∈ store.tasks, row.id ≠ id)
      (tasks : store'.tasks = store.tasks ++ [req.row id requirements failureThreshold now])
      (grants : store'.grants = store.grants)
  | leased {task : NodeTask} {nodeId sessionId leaseId now} (member : task ∈ store.tasks)
      (queued : task.status = .queued)
      (tasks : store'.tasks = (store.leased task nodeId sessionId leaseId now).tasks)
      (grants : store'.grants = (store.leased task nodeId sessionId leaseId now).grants)

variable {call : NodeCall}

theorem TaskEffect.of_eq (tasks : store'.tasks = store.tasks)
    (grants : store'.grants = store.grants) : TaskEffect call store store' :=
  .moved (tasks ▸ List.forall₂_same.mpr fun task _ => .refl task) grants

theorem Effect.task (h : Effect sha256 call store store') :
    TaskEffect call store store' := by
  cases h with
  | still => exact .of_eq rfl rfl
  | created fresh => exact .created rfl fresh rfl rfl
  | leased member queued => exact .leased member queued rfl rfl
  | moved only =>
    obtain ⟨tasks', htasks, rfl⟩ := only
    exact .moved htasks rfl
  | completed _ _ _ _ _ recorded => exact .moved recorded.tasks recorded.grants
  | registered _ _ _ => exact .of_eq rfl rfl
  | reported only =>
    obtain ⟨_, _, -, -, rfl⟩ := only
    exact .of_eq rfl rfl
  | administered change =>
    cases change with
    | kept only =>
      obtain ⟨_, _, -, -, rfl⟩ := only
      exact .of_eq rfl rfl
    | configured _ _ _ _ => exact .of_eq rfl rfl
    | deleted _ _ => exact .of_eq rfl rfl
  | offered _ _ appended => cases appended <;> exact .of_eq rfl rfl
  | acknowledged read => cases read <;> exact .of_eq rfl rfl
  | cancelled tasks _ => exact .moved tasks rfl

def NodeCall.GivesAttempts : NodeCall → Prop
  | create _ _ _ failureThreshold _ => 1 ≤ failureThreshold
  | _ => True

/-- Leases are given for known tasks, and every task accounts for its own. -/
structure TasksAccounted (store : NodeStore ι) : Prop where
  known : ∀ grant ∈ store.grants, ∃ task ∈ store.tasks, task.id = grant.1
  accounted : ∀ task ∈ store.tasks, task.Accounted (store.leaseCount task.id)

theorem leaseCount_eq (grants : store'.grants = store.grants) (taskId : Uuid) :
    store'.leaseCount taskId = store.leaseCount taskId := by
  simp [leaseCount, grants]

theorem TasksAccounted.moved (h : TasksAccounted store)
    (tasks : List.Forall₂ NodeTask.Move store.tasks store'.tasks)
    (grants : store'.grants = store.grants) : TasksAccounted store' where
  known := by
    intro grant hgrant
    obtain ⟨task, htask, hid⟩ := h.known grant (grants ▸ hgrant)
    obtain ⟨task', htask', move⟩ := exists_moved_of_mem tasks htask
    exact ⟨task', htask', move.same.id.trans hid⟩
  accounted := by
    intro task' htask'
    obtain ⟨task, htask, move⟩ := exists_of_mem_forall₂ tasks htask'
    rw [leaseCount_eq grants, move.same.id]
    exact (h.accounted task htask).move move

theorem TasksAccounted.created {task : NodeTask} (h : TasksAccounted store)
    (fresh : ∀ row ∈ store.tasks, row.id ≠ task.id) (accounted : task.Accounted 0)
    (tasks : store'.tasks = store.tasks ++ [task]) (grants : store'.grants = store.grants) :
    TasksAccounted store' where
  known := by
    intro grant hgrant
    obtain ⟨row, hrow, hid⟩ := h.known grant (grants ▸ hgrant)
    exact ⟨row, by simp [tasks, hrow], hid⟩
  accounted := by
    intro row hrow
    rw [leaseCount_eq grants]
    rw [tasks, List.mem_append, List.mem_singleton] at hrow
    rcases hrow with hrow | rfl
    · exact h.accounted row hrow
    · -- a lease of a new task would be a lease of an unknown one
      have hnone : store.leaseCount row.id = 0 := by
        rw [leaseCount, List.countP_eq_zero]
        intro grant hgrant hsame
        obtain ⟨other, hother, hid⟩ := h.known grant hgrant
        exact fresh other hother (hid.trans (of_decide_eq_true hsame))
      rw [hnone]
      exact accounted

theorem leaseCount_leased (task : NodeTask) (nodeId sessionId leaseId taskId : Uuid)
    (now : Timestamp) :
    (store.leased task nodeId sessionId leaseId now).leaseCount taskId =
      store.leaseCount taskId + if task.id = taskId then 1 else 0 := by
  simp [leaseCount, leased, List.countP_append, List.countP_singleton]

theorem TasksAccounted.leased {task : NodeTask} {nodeId sessionId leaseId : Uuid}
    {now : Timestamp} (h : TasksAccounted store) (keyed : store.Keyed) (member : task ∈ store.tasks)
    (queued : task.status = .queued) :
    TasksAccounted (store.leased task nodeId sessionId leaseId now) where
  known := by
    intro grant hgrant
    have hsome : ∃ row ∈ store.tasks, row.id = grant.1 := by
      simp only [NodeStore.leased, List.mem_append, List.mem_singleton] at hgrant
      rcases hgrant with hgrant | rfl
      · exact h.known grant hgrant
      · exact ⟨task, member, rfl⟩
    have hids : (store.leased task nodeId sessionId leaseId now).tasks.map NodeTask.id =
        store.tasks.map NodeTask.id := ids_leased task store
    exact List.mem_map.mp (hids ▸ List.mem_map.mpr hsome)
  accounted := by
    intro row hrow
    have hfound : lookup NodeTask.id task.id store.tasks = some task :=
      (lookup_eq_some keyed.tasks).mpr ⟨member, rfl⟩
    rcases (mem_updateKey keyed.tasks hfound).mp hrow with rfl | ⟨hrow, hne⟩
    · have hcount : (store.leased task nodeId sessionId leaseId now).leaseCount task.id =
          store.leaseCount task.id + 1 := by rw [leaseCount_leased, if_pos rfl]
      exact hcount ▸ (h.accounted task member).lease queued
    · rw [leaseCount_leased, if_neg (Ne.symm hne)]
      exact h.accounted row hrow

theorem TaskEffect.accounted (effect : TaskEffect call store store') (attempts : call.GivesAttempts)
    (keyed : store.Keyed) (h : TasksAccounted store) :
    TasksAccounted store' := by
  cases effect with
  | moved tasks grants => exact h.moved tasks grants
  | created made fresh tasks grants =>
    subst made
    refine h.created fresh ⟨?_, by simp, ?_, by simp [CreateNodeTaskRequest.row]⟩ tasks grants
    · exact le_trans (by simp) attempts
    · exact fun _ => ⟨rfl, rfl, lt_of_lt_of_le (by simp) attempts, fun _ => rfl⟩
  | leased member queued tasks grants =>
    exact (h.leased keyed member queued).moved
      (tasks ▸ List.forall₂_same.mpr fun task _ => .refl task) grants

/-! ## What becomes of a task -/

/-- The same task later: a status that ended it stays. -/
structure NodeTask.Later (task task' : NodeTask) : Prop where
  same : task.SameWork task'
  ended : task.status.isTerminal → task'.status = task.status

theorem NodeTask.Later.refl (task : NodeTask) : task.Later task :=
  ⟨⟨rfl, rfl, rfl, rfl⟩, fun _ => rfl⟩

theorem NodeTask.Later.trans {a b c : NodeTask} (hab : a.Later b) (hbc : b.Later c) :
    a.Later c where
  same := {
    id := hbc.same.id.trans hab.same.id
    tenantId := hbc.same.tenantId.trans hab.same.tenantId
    payload := hbc.same.payload.trans hab.same.payload
    failureThreshold := hbc.same.failureThreshold.trans hab.same.failureThreshold }
  ended h := by
    have hstatus := hab.ended h
    rw [← hstatus]
    exact hbc.ended (hstatus ▸ h)

/-- No task is lost, and none leaves a terminal status. -/
def TasksKeep (store store' : NodeStore ι) : Prop :=
  ∀ taskId task, store.task? taskId = some task →
    ∃ task', store'.task? taskId = some task' ∧ task.Later task'

theorem TasksKeep.refl (store : NodeStore ι) : TasksKeep store store :=
  fun _ task found => ⟨task, found, .refl task⟩

theorem TasksKeep.trans {a b c : NodeStore ι} (hab : TasksKeep a b) (hbc : TasksKeep b c) :
    TasksKeep a c := by
  intro taskId task found
  obtain ⟨task₁, found₁, later₁⟩ := hab taskId task found
  obtain ⟨task₂, found₂, later₂⟩ := hbc taskId task₁ found₁
  exact ⟨task₂, found₂, later₁.trans later₂⟩

theorem TaskEffect.keep (effect : TaskEffect call store store') (keyed : store.Keyed) :
    TasksKeep store store' := by
  intro taskId task found
  cases effect with
  | moved tasks _ =>
    obtain ⟨task', found', move⟩ :=
      exists_lookup_of_forall₂ (fun _ _ move => move.same.id) tasks found
    exact ⟨task', found', move.same, move.terminal⟩
  | created _ _ tasks _ =>
    have hfound : lookup NodeTask.id taskId store.tasks = some task := found
    refine ⟨task, ?_, .refl task⟩
    rw [task?, tasks, lookup_append, hfound]
    rfl
  | @leased picked nodeId sessionId leaseId now member queued tasks _ =>
    have hlater : List.Forall₂ NodeTask.Later store.tasks store'.tasks := by
      rw [tasks]
      refine forall₂_updateWhere NodeTask.Later.refl fun row hrow hid => ?_
      obtain rfl : row = picked :=
        List.inj_on_of_nodup_map keyed.tasks hrow member (of_decide_eq_true hid)
      exact ⟨⟨rfl, rfl, rfl, rfl⟩, fun ended => by
        simp [queued, NodeTaskStatus.isTerminal] at ended⟩
    exact exists_lookup_of_forall₂ (fun _ _ later => later.same.id) hlater found

/-! ## Submissions -/

def NodeTaskSubmission.key (row : NodeTaskSubmission) : Uuid × Uuid := (row.taskId, row.leaseId)

/-- The task, the node and the session behind a submission are there. -/
def Attested (store : NodeStore ι) (submission : NodeTaskSubmission) : Prop :=
  ∃ task node session, store.task? submission.taskId = some task ∧
    store.node? submission.nodeId = some node ∧ node.tenantId = task.tenantId ∧
    session ∈ store.sessions ∧ session.id = submission.sessionId ∧ session.inScope node

/-- Whoever submitted something stays, and no session is revoked. -/
structure SendersKeep (store store' : NodeStore ι) : Prop where
  nodes : ∀ submission ∈ store'.submissions, ∀ node, store.node? submission.nodeId = some node →
    ∃ node', store'.node? submission.nodeId = some node' ∧ node.SameNode node'
  sessions : ∀ submission ∈ store'.submissions, ∀ session ∈ store.sessions,
    session.nodeId = submission.nodeId → ∃ session' ∈ store'.sessions, session.Keeps session'
  valid : (∀ session ∈ store.sessions, session.revokedAt = none) →
    ∀ session ∈ store'.sessions, session.revokedAt = none

theorem SendersKeep.of_eq (nodes : store'.nodes = store.nodes)
    (sessions : store'.sessions = store.sessions) : SendersKeep store store' where
  nodes _ _ node found := ⟨node, by rw [node?, nodes]; exact found, ⟨rfl, rfl, rfl⟩⟩
  sessions _ _ session member _ := ⟨session, sessions ▸ member, .refl session⟩
  valid h := sessions ▸ h

theorem SendersKeep.of_forall₂ (nodes : List.Forall₂ Node.SameNode store.nodes store'.nodes)
    (sessions : List.Forall₂ NodeSession.Keeps store.sessions store'.sessions) :
    SendersKeep store store' where
  nodes _ _ _ found := exists_lookup_of_forall₂ (fun _ _ same => same.id) nodes found
  sessions _ _ _ member _ := exists_moved_of_mem sessions member
  valid h session' member := by
    obtain ⟨session, hsession, keeps⟩ := exists_of_mem_forall₂ sessions member
    exact keeps.revokedAt.trans (h session hsession)

theorem SendersKeep.nodesOnly (h : NodesOnly store store') : SendersKeep store store' := by
  obtain ⟨nodes', sessions', nodes, sessions, rfl⟩ := h
  exact .of_forall₂ (nodes.imp fun _ _ keeps => keeps.same) sessions

theorem SendersKeep.registered {nodes₁ nodes' : List Node} {session : NodeSession}
    (joined : Joined store.nodes nodes₁) (nodes : List.Forall₂ Node.Keeps nodes₁ nodes')
    (valid : session.revokedAt = none) :
    SendersKeep store { store with nodes := nodes', sessions := store.sessions ++ [session] } where
  nodes submission _ node found := by
    have hjoined : lookup Node.id submission.nodeId nodes₁ = some node := by
      have hfound : lookup Node.id submission.nodeId store.nodes = some node := found
      cases joined with
      | known => exact hfound
      | added _ _ => rw [lookup_append, hfound]; rfl
    obtain ⟨node', found', keeps⟩ :=
      exists_lookup_of_forall₂ (fun _ _ keeps => keeps.same.id) nodes hjoined
    exact ⟨node', found', keeps.same⟩
  sessions _ _ old member _ := ⟨old, List.mem_append_left _ member, .refl old⟩
  valid h session' member := by
    rcases List.mem_append.mp member with hold | hnew
    · exact h session' hold
    · rw [List.mem_singleton.mp hnew]
      exact valid

theorem SendersKeep.deleted {old : Node} {checks : ControlChecks}
    (bare : hasEvidence old.id checks store = false) :
    SendersKeep store { store with
      nodes := store.nodes.filter (·.id ≠ old.id)
      sessions := store.sessions.filter (·.nodeId ≠ old.id) } := by
  have hother : ∀ submission ∈ store.submissions, submission.nodeId ≠ old.id := by
    grind [hasEvidence, Bool.or_eq_false_iff, List.any_eq_false, SendersKeep]
  constructor
  · intro submission hsubmission node found
    refine ⟨node, ?_, ⟨rfl, rfl, rfl⟩⟩
    have hid : node.id = submission.nodeId := key_of_lookup found
    have hfind : (store.nodes.filter (·.id ≠ old.id)).find? (·.id = submission.nodeId) =
        store.nodes.find? (·.id = submission.nodeId) := by
      grind [List.find?, SendersKeep]
    exact hfind.trans found
  · intro submission hsubmission session hsession hnode
    refine ⟨session, List.mem_filter.mpr ⟨hsession, ?_⟩, .refl session⟩
    simp [hnode, hother submission hsubmission]
  · exact fun h session hsession => h session (List.mem_filter.mp hsession).1

theorem Effect.sendersKeep (h : Effect sha256 call store store') :
    SendersKeep store store' := by
  cases h with
  | still | created | leased => exact .of_eq rfl rfl
  | moved only =>
    obtain ⟨_, -, rfl⟩ := only
    exact .of_eq rfl rfl
  | completed _ _ _ _ _ recorded =>
    refine .of_forall₂ (recorded.nodes.imp fun _ _ keeps => keeps.same) ?_
    rw [recorded.sessions]
    exact List.forall₂_same.mpr fun session _ => .refl session
  | registered joined nodes valid => exact .registered joined nodes valid
  | reported only => exact .nodesOnly only
  | administered change =>
    cases change with
    | kept only => exact .nodesOnly only
    | configured _ _ same _ =>
      exact .of_forall₂ same (List.forall₂_same.mpr fun session _ => .refl session)
    | deleted _ bare => exact .deleted bare
  | offered _ _ appended => cases appended <;> exact .of_eq rfl rfl
  | acknowledged read => cases read <;> exact .of_eq rfl rfl
  | cancelled _ _ => exact .of_eq rfl rfl

/-- At most one submission is added, for a pair that has none, by a sender that is known. -/
inductive Submitted (store store' : NodeStore ι) : Prop
  | none (same : store'.submissions = store.submissions)
  | added {submission : NodeTaskSubmission}
      (fresh : store.submission? submission.taskId submission.leaseId = none)
      (attested : Attested store submission)
      (submissions : store'.submissions = store.submissions ++ [submission])

theorem Effect.submitted (h : Effect sha256 call store store') :
    Submitted store store' := by
  cases h with
  | still | created | leased => exact .none rfl
  | moved only =>
    obtain ⟨_, -, rfl⟩ := only
    exact .none rfl
  | @completed who _ _ _ _ _ task node session found held sender tenant under recorded =>
    obtain ⟨kind, submissions⟩ := recorded.submitted
    refine .added recorded.fresh ⟨task, node, session, found, sender, tenant, ?_⟩ submissions
    have hscope := List.find?_some under
    simp only [Bool.and_eq_true, decide_eq_true_eq] at hscope
    exact ⟨List.mem_of_find?_eq_some under, hscope.1, hscope.2⟩
  | registered _ _ _ => exact .none rfl
  | reported only =>
    obtain ⟨_, _, -, -, rfl⟩ := only
    exact .none rfl
  | administered change =>
    cases change with
    | kept only =>
      obtain ⟨_, _, -, -, rfl⟩ := only
      exact .none rfl
    | configured _ _ _ _ => exact .none rfl
    | deleted _ _ => exact .none rfl
  | offered _ _ appended => cases appended <;> exact .none rfl
  | acknowledged read => cases read <;> exact .none rfl
  | cancelled _ _ => exact .none rfl

/-- The state of the submissions: each pair once, and every sender still known. -/
structure SubmissionsSound (store : NodeStore ι) : Prop where
  unique : (store.submissions.map NodeTaskSubmission.key).Nodup
  valid : ∀ session ∈ store.sessions, session.revokedAt = none
  attested : ∀ submission ∈ store.submissions, Attested store submission

theorem Attested.keep {submission : NodeTaskSubmission} (h : Attested store submission)
    (tasks : TasksKeep store store') (senders : SendersKeep store store')
    (member : submission ∈ store'.submissions) : Attested store' submission := by
  obtain ⟨task, node, session, htask, hnode, htenant, hsession, hid, hscope⟩ := h
  simp only [NodeSession.inScope, Bool.and_eq_true, decide_eq_true_eq] at hscope
  obtain ⟨task', htask', later⟩ := tasks submission.taskId task htask
  obtain ⟨node', hnode', same⟩ := senders.nodes submission member node hnode
  have hof : session.nodeId = submission.nodeId := hscope.1.2.trans (key_of_lookup hnode)
  obtain ⟨session', hsession', keeps⟩ := senders.sessions submission member session hsession hof
  refine ⟨task', node', session', htask', hnode', ?_, hsession', keeps.id.trans hid, ?_⟩
  · rw [same.tenantId, later.same.tenantId, htenant]
  · simp only [NodeSession.inScope, Bool.and_eq_true, decide_eq_true_eq]
    rw [keeps.tenantId, keeps.nodeId, keeps.ownerUserId, same.tenantId, same.id, same.ownerUserId]
    exact hscope

theorem SubmissionsSound.step (h : SubmissionsSound store) (keyed : store.Keyed)
    (effect : Effect sha256 call store store') :
    SubmissionsSound store' ∧ store.submissions ⊆ store'.submissions := by
  have keep := effect.task.keep keyed
  have senders := effect.sendersKeep
  cases effect.submitted with
  | none same =>
    refine ⟨⟨same ▸ h.unique, senders.valid h.valid, fun submission member => ?_⟩, same ▸ .refl _⟩
    exact (h.attested submission (same ▸ member)).keep keep senders member
  | @added added fresh attested submissions =>
    refine ⟨⟨?_, senders.valid h.valid, fun submission member => ?_⟩, ?_⟩
    · rw [submissions]
      exact nodup_append_row h.unique (lookup_eq_none.mp fresh)
    · have hbefore : Attested store submission := by
        rw [submissions, List.mem_append, List.mem_singleton] at member
        rcases member with hold | rfl
        · exact h.attested submission hold
        · exact attested
      exact hbefore.keep keep senders member
    · grind

/-! ## Runs -/

section Runs

variable {inspector : Inspector ι}

theorem run_accounted (calls : List NodeCall) (attempts : ∀ call ∈ calls, call.GivesAttempts) :
    TasksAccounted (run inspector sha256 calls {}) :=
  run_invariant_of (fun _ _ _ attempts keyed effect h => effect.task.accounted attempts keyed h)
    calls attempts ⟨(fun _ h => nomatch h), (fun _ h => nomatch h)⟩

theorem run_submissionsSound (calls : List NodeCall) :
    SubmissionsSound (run inspector sha256 calls {}) :=
  run_invariant (fun _ _ _ keyed effect h => (h.step keyed effect).1) calls
    ⟨List.nodup_nil, (fun _ h => nomatch h), (fun _ h => nomatch h)⟩

theorem run_tasksKeep (calls : List NodeCall) (keyed : store.Keyed) :
    TasksKeep store (run inspector sha256 calls store) :=
  run_moves (I := fun _ => True) TasksKeep.refl TasksKeep.trans
    (fun _ _ _ keyed effect _ => ⟨trivial, effect.task.keep keyed⟩) calls keyed trivial

theorem run_submissions (calls : List NodeCall) (keyed : store.Keyed)
    (sound : SubmissionsSound store) :
    store.submissions ⊆ (run inspector sha256 calls store).submissions :=
  run_moves (I := SubmissionsSound) (R := fun s s' => s.submissions ⊆ s'.submissions)
    (fun _ => List.Subset.refl _) List.Subset.trans
    (fun _ _ _ keyed effect sound => sound.step keyed effect) calls keyed sound

/-! ## Completions that are no first completion -/

variable {who : Submitter} {result : NodeTaskResult} {env : CompletionEnv}
  {submission : NodeTaskSubmission}

theorem complete_stranger (keyed : store.Keyed)
    (stranger : ∀ task, store.task? who.taskId = some task →
      ¬ task.HeldBy who.nodeId who.sessionId who.leaseId) :
    (atomically (completeTask sha256 who result env) store).2 = store := by
  refine atomically_rel (R := fun s s' => s' = s) rfl fun answer store' h => ?_
  cases completeTask_eq_ok keyed.tasks h with
  | replayed _ _ => rfl
  | recorded found held _ _ _ _ => exact absurd held (stranger _ found)

theorem SubmissionsSound.found (h : SubmissionsSound store)
    (member : submission ∈ store.submissions)
    (pair : submission.key = (who.taskId, who.leaseId)) :
    store.submission? who.taskId who.leaseId = some submission :=
  (lookup_eq_some h.unique).mpr ⟨member, pair⟩

theorem complete_again (sound : SubmissionsSound store) (member : submission ∈ store.submissions)
    (pair : submission.key = (who.taskId, who.leaseId)) (node : submission.nodeId = who.nodeId)
    (session : submission.sessionId = who.sessionId)
    (hash : submission.requestHash = computeRequestHash sha256 who.taskId who.leaseId result) :
    ∃ answer : NodeTaskCompleteResponse, answer.action = submission.action ∧
      atomically (completeTask sha256 who result env) store = (.ok answer, store) := by
  obtain ⟨task, row, held, htask, hrow, htenant, hheld, hid, hscope⟩ :=
    sound.attested submission member
  obtain ⟨hpair, -⟩ := Prod.mk.inj pair
  rw [hpair] at htask
  rw [node] at hrow
  have hsender : (store.node? who.nodeId).filter (·.tenantId = task.tenantId) = some row :=
    Option.filter_eq_some_iff.mpr ⟨hrow, by simp [htenant]⟩
  have hsession : (store.sessionInScope? row who.sessionId).all (·.isRevoked) = false := by
    cases hfind : store.sessionInScope? row who.sessionId with
    | none =>
      have hnone := List.find?_eq_none.mp hfind held hheld
      simp [hid, session, hscope] at hnone
    | some found =>
      have hvalid := sound.valid found (List.mem_of_find?_eq_some hfind)
      simp [NodeSession.isRevoked, hvalid]
  refine ⟨⟨submission.action, submission.action.asStr, row.status, row.consecutiveFailureCount,
    row.failureThreshold⟩, rfl, ?_⟩
  rw [atomically_eq_ok, completeTask, Tx.bind_of_ok (Tx.read_eq_ok.mpr ⟨rfl, rfl⟩)]
  simp only [id]
  rw [Tx.bind_of_ok (Tx.okOr_eq_ok.mpr ⟨htask, rfl⟩),
    Tx.bind_of_ok (Tx.okOr_eq_ok.mpr ⟨hsender, rfl⟩)]
  simp only [sound.found member pair]
  rw [Tx.lift_eq_ok]
  simp [replaySubmission, hsession, node, session, hash]

theorem complete_other (sound : SubmissionsSound store) (member : submission ∈ store.submissions)
    (pair : submission.key = (who.taskId, who.leaseId))
    (hash : submission.requestHash ≠ computeRequestHash sha256 who.taskId who.leaseId result) :
    ∃ e, atomically (completeTask sha256 who result env) store = (.error e, store) := by
  rcases hanswer : atomically (completeTask sha256 who result env) store with ⟨e | answer, store'⟩
  · rw [atomically_error_state hanswer]
    exact ⟨e, rfl⟩
  · rw [atomically_eq_ok] at hanswer
    simp only [completeTask, Tx.inv] at hanswer
    obtain ⟨_, rfl, task, -, row, -, hanswer⟩ := hanswer
    simp only [id, sound.found member pair, Tx.lift_eq_ok] at hanswer
    simp only [replaySubmission, hash, ne_eq, not_false_eq_true, if_true] at hanswer
    obtain ⟨hanswer, -⟩ := hanswer
    split at hanswer
    · cases hanswer
    · split at hanswer <;> cases hanswer

theorem complete_submitted {answer : NodeTaskCompleteResponse} (keyed : store.Keyed)
    (answered : atomically (completeTask sha256 who result env) store = (.ok answer, store')) :
    ∃ submission ∈ store'.submissions, submission.key = (who.taskId, who.leaseId) ∧
      submission.nodeId = who.nodeId ∧ submission.sessionId = who.sessionId ∧
      submission.requestHash = computeRequestHash sha256 who.taskId who.leaseId result ∧
      submission.action = answer.action := by
  cases completeTask_eq_ok keyed.tasks (atomically_eq_ok.mp answered) with
  | @replayed node submission found replay =>
    refine ⟨submission, mem_of_lookup found, key_of_lookup found, ?_⟩
    unfold replaySubmission at replay
    split at replay
    · cases replay
    · grind
  | recorded _ _ _ _ _ recorded =>
    obtain ⟨kind, submissions⟩ := recorded.submitted
    refine ⟨who.submission sha256 kind result answer.action, ?_, rfl, rfl, rfl, rfl, rfl⟩
    rw [submissions]
    exact List.mem_append_right _ List.mem_cons_self

/-- **The life of a node task.**  Whatever calls were made, of which those that create a task
give it at least one attempt:

* a task that ended keeps its status, whatever calls follow;
* tasks are unique, and a task that is leased is held under exactly one lease;
* a native task was leased at most once, another one at most as often as its threshold says;
* a pair of task and lease was submitted at most once;
* a completion by anyone but the holder of the lease changes nothing;
* once a completion was answered, the same result from the same sender gets the same action
  again, and a result with another hash for the same task and lease is refused, whoever sends it;
  neither changes anything. -/
theorem node_task_lifecycle (inspector : Inspector ι) (sha256 : String → String)
    (calls : List NodeCall) (attempts : ∀ call ∈ calls, call.GivesAttempts) :
    (∀ later taskId task, (run inspector sha256 calls {}).task? taskId = some task →
      task.status.isTerminal → ∃ task',
        (run inspector sha256 (calls ++ later) {}).task? taskId = some task' ∧
          task'.status = task.status) ∧
    ((run inspector sha256 calls {}).tasks.map NodeTask.id).Nodup ∧
    (∀ task ∈ (run inspector sha256 calls {}).tasks, task.status = .leased →
      ∃ node session lease, ∀ node' session' lease', task.HeldBy node' session' lease' ↔
        node' = node ∧ session' = session ∧ lease' = lease) ∧
    (∀ task ∈ (run inspector sha256 calls {}).tasks,
      ((run inspector sha256 calls {}).leaseCount task.id : ℤ) ≤
        if task.isNative then 1 else task.failureThreshold) ∧
    ((run inspector sha256 calls {}).submissions.map NodeTaskSubmission.key).Nodup ∧
    (∀ who result env, (∀ task, (run inspector sha256 calls {}).task? who.taskId = some task →
      ¬ task.HeldBy who.nodeId who.sessionId who.leaseId) →
      (atomically (completeTask sha256 who result env) (run inspector sha256 calls {})).2 =
        run inspector sha256 calls {}) ∧
    ∀ who result env answer store',
      atomically (completeTask sha256 who result env) (run inspector sha256 calls {}) =
        (.ok answer, store') → ∀ later result' env',
      (canonicalSubmission who.taskId who.leaseId result' =
          canonicalSubmission who.taskId who.leaseId result →
        ∃ answer' : NodeTaskCompleteResponse, answer'.action = answer.action ∧
          atomically (completeTask sha256 who result' env') (run inspector sha256 later store') =
            (.ok answer', run inspector sha256 later store')) ∧
      (sha256 (canonicalSubmission who.taskId who.leaseId result') ≠
          sha256 (canonicalSubmission who.taskId who.leaseId result) →
        ∀ who' : Submitter, who'.taskId = who.taskId → who'.leaseId = who.leaseId →
        ∃ e, atomically (completeTask sha256 who' result' env')
          (run inspector sha256 later store') = (.error e, run inspector sha256 later store')) := by
  have keyed : (run inspector sha256 calls {}).Keyed := run_keyed calls
  have accounted : TasksAccounted (run inspector sha256 calls {}) := run_accounted calls attempts
  have sound : SubmissionsSound (run inspector sha256 calls {}) := run_submissionsSound calls
  refine ⟨?_, keyed.tasks, ?_, ?_, sound.unique, ?_, ?_⟩
  · intro later taskId task found ended
    obtain ⟨task', found', hlater⟩ := run_tasksKeep later keyed taskId task found
    exact ⟨task', by rw [run_append]; exact found', hlater.ended ended⟩
  · intro task member hleased
    obtain ⟨-, node, session, lease, hheld⟩ := (accounted.accounted task member).leased hleased
    refine ⟨node, session, lease, fun node' session' lease' => ?_⟩
    simp only [NodeTask.HeldBy, hheld.1, hheld.2.1, hheld.2.2, Option.some.injEq, eq_comm]
  · intro task member
    have haccount := accounted.accounted task member
    split
    · exact_mod_cast haccount.native ‹_›
    · exact haccount.bound
  · exact fun who result env stranger => complete_stranger keyed stranger
  · intro who result env answer store' answered later result' env'
    obtain ⟨submission, member, hpair, hnode, hsession, hhash, haction⟩ :=
      complete_submitted keyed answered
    have hstep : store' = run inspector sha256 (calls ++ [.complete who result env]) {} := by
      rw [run_append]
      change store' = (atomically (completeTask sha256 who result env) _).2
      rw [answered]
    have keyed' : store'.Keyed := hstep ▸ run_keyed _
    have sound' : SubmissionsSound store' := hstep ▸ run_submissionsSound _
    have later_member : submission ∈ (run inspector sha256 later store').submissions :=
      run_submissions later keyed' sound' member
    have later_sound : SubmissionsSound (run inspector sha256 later store') := by
      rw [hstep, ← run_append]
      exact run_submissionsSound _
    refine ⟨fun same => ?_, fun other who' htask hlease => ?_⟩
    · rw [← haction]
      refine complete_again later_sound later_member hpair hnode hsession ?_
      rw [hhash, computeRequestHash, computeRequestHash, same]
    · refine complete_other later_sound later_member (by rw [hpair, htask, hlease]) ?_
      rw [hhash, htask, hlease]
      exact Ne.symm other

end Runs

theorem leasedOnce_givesAttempts : ∀ call ∈ leasedOnce, call.GivesAttempts := by
  simp [leasedOnce, NodeCall.GivesAttempts]

theorem leasedOnce_requeued :
    (atomically (completeTask id firstSubmitter firstFailure (clockAt 20))
      (run blindInspector id leasedOnce {})).1.toOption.map (·.action) = some .requeued := by
  decide +kernel

/-- In the example the failure is reported again, after any other calls, and answered as before,
and a success in its place is refused. -/
theorem node_task_lifecycle_leasedOnce :
    ∃ store', ∀ later,
      (∃ answer' : NodeTaskCompleteResponse, answer'.action = .requeued ∧
        atomically (completeTask id firstSubmitter firstFailure (clockAt 30))
          (run blindInspector id later store') =
            (.ok answer', run blindInspector id later store')) ∧
      ∃ e, atomically (completeTask id firstSubmitter (.succeeded .null) (clockAt 30))
        (run blindInspector id later store') = (.error e, run blindInspector id later store') := by
  obtain ⟨answer, hanswer, haction⟩ := Option.map_eq_some_iff.mp leasedOnce_requeued
  rcases hfirst : atomically (completeTask id firstSubmitter firstFailure (clockAt 20))
    (run blindInspector id leasedOnce {}) with ⟨first, store'⟩
  rw [hfirst] at hanswer
  obtain rfl : first = .ok answer := by
    cases first with
    | error e => cases hanswer
    | ok value => cases hanswer; rfl
  have lifecycle := (node_task_lifecycle blindInspector id leasedOnce
    leasedOnce_givesAttempts).2.2.2.2.2.2 firstSubmitter firstFailure (clockAt 20) answer store'
    hfirst
  refine ⟨store', fun later => ⟨?_, ?_⟩⟩
  · simp_all
  · refine (lifecycle later (.succeeded .null) (clockAt 30)).2 ?_ firstSubmitter rfl rfl
    decide +kernel

end KeyCompute.NodeGateway
