import KeyCompute.NodeGateway.Completion
import KeyCompute.NodeGateway.TaskQueue
import KeyCompute.Relational.Link

/-!
# Nodes: registration, heartbeats and administration

A node goes online when it registers or reports, goes offline when it stops reporting, and is
excluded when its failures in a row reach its threshold or an administrator says so.  Only an
administrator takes it out of exclusion.

What the row of a registration token says, with the checks of its owner, is the argument `token`.
-/

namespace KeyCompute.NodeGateway

open Relational List Tx

variable {ι : Type}

/-! ## Registration and heartbeats -/

structure NodeRegisterRequest where
  clientInstanceId : String
  displayName : String
  capabilitiesJson : JsonValue
  models : List String
  nativeOperations : List String
  nativeProfiles : List JsonValue

/-- A node as its row is created; the last two columns are defaults. -/
def NodeRegisterRequest.node (req : NodeRegisterRequest) (id : Uuid) (owner : Principal)
    (now : Timestamp) : Node where
  id := id
  tenantId := owner.tenantId
  ownerUserId := owner.userId
  clientInstanceId := req.clientInstanceId
  displayName := req.displayName
  status := .offline
  capabilitiesJson := req.capabilitiesJson
  consecutiveFailureCount := 0
  failureThreshold := 3
  lastHeartbeatAt := none
  updatedAt := now

def NodeRegisterRequest.session (req : NodeRegisterRequest) (id : Uuid) (node : Node)
    (expiresAt : Timestamp) : NodeSession where
  id := id
  tenantId := node.tenantId
  ownerUserId := node.ownerUserId
  nodeId := node.id
  acceptedModels := req.models
  registeredModels := req.models
  nativeOperations := req.nativeOperations
  nativeProfiles := req.nativeProfiles
  expiresAt := expiresAt
  acceptingTasks := true
  revokedAt := none

/-- The row behind the unique columns of a registration. -/
def registered? (owner : Principal) (clientInstanceId : String) (store : NodeStore ι) :
    Option Node :=
  store.nodes.find? fun node =>
    node.tenantId = owner.tenantId && node.ownerUserId = owner.userId &&
      node.clientInstanceId = clientInstanceId

/-- An existing node that is not excluded, or a new one. -/
def findOrCreateNode (req : NodeRegisterRequest) (owner : Principal) (id : Uuid)
    (now : Timestamp) : Tx (NodeStore ι) DbError Node := do
  let existing ← read (registered? owner req.clientInstanceId)
  match existing with
  | some node => do
    failIf node.isExcluded (error "Node is excluded, cannot re-register")
    pure node
  | none => do
    let taken ← read fun store => store.node? id
    failIf taken.isSome (.databaseError "nodes_pkey")
    modify fun store => { store with nodes := store.nodes ++ [req.node id owner now] }
    pure (req.node id owner now)

/-- `register_node`, with the identifiers drawn for a new node and for the session. -/
def registerNode (req : NodeRegisterRequest) (token : Except DbError Principal)
    (nodeId sessionId : Uuid) (sessionTtl : ℤ) (now : Timestamp) :
    Tx (NodeStore ι) DbError Unit := do
  let owner ← lift token
  let node ← findOrCreateNode req owner nodeId now
  let taken ← read fun store => store.sessions.any (·.id = sessionId)
  failIf taken (.databaseError "node_sessions_pkey")
  modify fun store =>
    { store with sessions := store.sessions ++ [req.session sessionId node (now + sessionTtl)] }
  when (node.status = .offline)
    (updateNode node.id now fun row => { row with status := .online })
  updateNode node.id now fun row => { row with lastHeartbeatAt := some now }

structure NodeHeartbeatResponse where
  nodeStatus : NodeStatus
  serverFailureCount : ℤ
  failureThreshold : ℤ
  deriving DecidableEq

/-- `ACTIVE_NODE_SESSION_FOR_UPDATE_SQL`. -/
def activeSession? (node : Node) (sessionId : Uuid) (now : Timestamp) (store : NodeStore ι) :
    Option NodeSession :=
  (store.sessionInScope? node sessionId).filter fun session =>
    session.revokedAt.isNone && decide (now < session.expiresAt) && session.acceptingTasks

def updateSession (sessionId : Uuid) (f : NodeSession → NodeSession) :
    Tx (NodeStore ι) DbError Unit :=
  modify fun store =>
    { store with sessions := updateKey NodeSession.id sessionId f store.sessions }

/-- The models a session may announce are those it registered with. -/
def checkModels (registered accepted : List String) : Except DbError Unit :=
  match accepted.find? fun model => !registered.contains model with
  | some model => .error (error ("Model " ++ model ++ " is not in registered capabilities"))
  | none => .ok ()

/-- `heartbeat`; `tenantActive` is what the tenant's row says. -/
def heartbeat (nodeId sessionId : Uuid) (acceptedModels : List String) (tenantActive : Bool)
    (sessionTtl : ℤ) (now : Timestamp) : Tx (NodeStore ι) DbError NodeHeartbeatResponse := do
  let found ← read fun store => store.node? nodeId
  let node ← okOr found (.notFound "Node" (toString nodeId))
  failIf (¬ tenantActive) (error "Tenant is inactive; node heartbeat is not accepted")
  let found ← read (activeSession? node sessionId now)
  let session ← okOr found (.notFound "active session" (toString sessionId))
  if node.isExcluded then do
    updateSession sessionId fun row => { row with expiresAt := now + sessionTtl }
    pure {
      nodeStatus := node.status, serverFailureCount := node.consecutiveFailureCount,
      failureThreshold := node.failureThreshold }
  else do
    lift (checkModels session.registeredModels acceptedModels)
    updateSession sessionId fun row =>
      { row with acceptedModels := acceptedModels, expiresAt := now + sessionTtl }
    when (node.status ≠ .online)
      (updateNode nodeId now fun row => { row with status := .online })
    updateNode nodeId now fun row => { row with lastHeartbeatAt := some now }
    pure {
      nodeStatus := .online, serverFailureCount := node.consecutiveFailureCount,
      failureThreshold := node.failureThreshold }

def expireOfflineNodes (ttl : ℤ) (now : Timestamp) : Tx (NodeStore ι) DbError Unit :=
  modify fun store => { store with
    nodes := updateWhere
      (fun node => node.status = .online && node.lastHeartbeatAt.any (· < now - ttl))
      (Node.write now fun node => { node with status := .offline }) store.nodes }

/-! ## Administration -/

inductive NodeAction where
  | configure
  | exclude
  | recover
  | revoke
  | delete
  deriving DecidableEq

structure NodePatch where
  displayName : Option String := none
  failureThreshold : Option ℤ := none
  deriving DecidableEq

structure NodeMutation where
  id : Uuid
  expectedUpdatedAt : Timestamp
  action : NodeAction
  patch : NodePatch

/-- What the tables of users and tenants answer to an administrator: the grant, whether the
node's owner is active, and whether tips refer to the node. -/
structure ControlChecks where
  authority : Except DbError Unit
  ownerActive : Except DbError Unit
  tipEvidence : Bool

def invalid (message : String) : DbError := error ("invalid node control input: " ++ message)

def checkPatch (mutation : NodeMutation) : Except DbError Unit :=
  if (mutation.patch.displayName.any fun name =>
        (Text.trim name).isEmpty || decide (200 < name.length) ||
          name.toList.any Text.isControl) ∨
      (mutation.patch.failureThreshold.any fun threshold =>
        !(1 ≤ threshold && threshold ≤ 100)) then
    .error (invalid "invalid node name or failure threshold")
  else if mutation.action ≠ .configure ∧
      (mutation.patch.displayName.isSome ∨ mutation.patch.failureThreshold.isSome) then
    .error (invalid "configuration fields only belong to configure")
  else .ok ()

/-- The latest completion grace among the leases a session still holds. -/
def graceOf (tasks : List NodeTask) (sessionId : Uuid) (expiresAt : Timestamp) : Timestamp :=
  ((tasks.filter fun task => task.assignedSessionId = some sessionId && task.status = .leased).map
    (·.completeGraceUntil)).foldl max expiresAt

/-- `drain`: the node's sessions take no more work and last until their leases end. -/
def drainSessions (node : Node) (store : NodeStore ι) : List NodeSession :=
  updateWhere (fun session => session.inScope node && session.acceptingTasks)
    (fun session => { session with
      acceptingTasks := false, expiresAt := graceOf store.tasks session.id session.expiresAt })
    store.sessions

/-- The records that keep a node from being deleted. -/
def hasEvidence (nodeId : Uuid) (checks : ControlChecks) (store : NodeStore ι) : Bool :=
  (store.tasks.any fun task => task.assignedNodeId = some nodeId ||
      store.sessions.any fun session =>
        session.nodeId = nodeId && task.assignedSessionId = some session.id) ||
    store.submissions.any (·.nodeId = nodeId) || checks.tipEvidence ||
    store.streams.any (·.nodeId = nodeId)

def lockedNode (tenant id : Uuid) : Tx (NodeStore ι) DbError Node := do
  let found ← read fun store => (store.node? id).filter (·.tenantId = tenant)
  okOr found (.notFound "Node" (toString id))

def Node.administered (status : NodeStatus) (failures : ℤ) (patch : NodePatch) (node : Node) :
    Node :=
  { node with
    status := status, consecutiveFailureCount := failures,
    displayName := (patch.displayName.map Text.trim).getD node.displayName,
    failureThreshold := patch.failureThreshold.getD node.failureThreshold }

/-- The update at the end of `change_node`; an unchanged row is not written. -/
def administer (old : Node) (status : NodeStatus) (failures : ℤ) (patch : NodePatch)
    (now : Timestamp) : Tx (NodeStore ι) DbError Unit :=
  updateNode old.id now (Node.administered status failures patch)

/-- A session under which the node may take work again. -/
def hasAcceptingSession (node : Node) (now : Timestamp) (store : NodeStore ι) : Bool :=
  store.sessions.any fun session =>
    session.inScope node && session.acceptingTasks && session.revokedAt.isNone &&
      decide (now < session.expiresAt)

/-- `change_node`; the reason is checked with the grant. -/
def changeNode (tenant : Uuid) (mutation : NodeMutation) (checks : ControlChecks)
    (now : Timestamp) : Tx (NodeStore ι) DbError Unit := do
  lift (checkPatch mutation)
  lift checks.authority
  let old ← lockedNode tenant mutation.id
  failIf (old.updatedAt ≠ mutation.expectedUpdatedAt) (conflict "Node" mutation.id)
  let store ← read id
  match mutation.action with
  | .configure => administer old old.status old.consecutiveFailureCount mutation.patch now
  | .exclude => administer old .excluded old.consecutiveFailureCount mutation.patch now
  | .recover => do
    lift checks.ownerActive
    administer old (if hasAcceptingSession old now store then .online else .offline) 0
      mutation.patch now
  | .revoke => do
    modify fun store => { store with sessions := drainSessions old store }
    administer old .excluded old.consecutiveFailureCount mutation.patch now
  | .delete => do
    failIf (old.status = .online) (conflict "exclude node before deletion" mutation.id)
    failIf (hasEvidence old.id checks store)
      (conflict "node has retained task or financial evidence" mutation.id)
    modify fun store => { store with
      nodes := store.nodes.filter (·.id ≠ old.id)
      sessions := store.sessions.filter (·.nodeId ≠ old.id) }

/-- The part of `change_token` that revokes a consumed token: its node is drained and excluded. -/
def revokeToken (tenant nodeId userId : Uuid) (authority : Except DbError Unit)
    (now : Timestamp) : Tx (NodeStore ι) DbError Unit := do
  lift authority
  let node ← lockedNode tenant nodeId
  failIf (node.ownerUserId ≠ userId) (error "node control authorization denied")
  modify fun store => { store with sessions := drainSessions node store }
  when (!node.isExcluded)
    (updateNode nodeId now fun row => { row with status := .excluded })

/-! ## What the calls commit -/

section Committed

variable {store store' : NodeStore ι} {now : Timestamp} {node : Node}

theorem Node.keeps_online (node : Node) (now : Timestamp) (h : node.status ≠ .excluded) :
    node.Keeps (node.write now fun row => { row with status := .online }) :=
  .write ⟨⟨rfl, rfl, rfl⟩, fun hb => ⟨hb.1, fun _ => hb.2 h⟩⟩

theorem Node.keeps_heartbeat (node : Node) (now time : Timestamp) :
    node.Keeps (node.write now fun row => { row with lastHeartbeatAt := some time }) :=
  .write ⟨⟨rfl, rfl, rfl⟩, fun hb => hb⟩

theorem Node.keeps_excluded (node : Node) (now : Timestamp) :
    node.Keeps (node.write now fun row => { row with status := .excluded }) :=
  .write ⟨⟨rfl, rfl, rfl⟩, fun hb => ⟨hb.1, fun h => absurd rfl h⟩⟩

theorem forall₂_updateNode {nodes : List Node} {f : Node → Node}
    (unique : (nodes.map Node.id).Nodup) (member : node ∈ nodes)
    (keeps : node.Keeps (Node.write now f node)) :
    Forall₂ Node.Keeps nodes (updateKey Node.id node.id (Node.write now f) nodes) := by
  refine forall₂_updateWhere Node.Keeps.refl fun row hrow hid => ?_
  rw [inj_on_of_nodup_map unique hrow member (of_decide_eq_true hid)]
  exact keeps

theorem trans_keeps {a b c : List Node} (hab : Forall₂ Node.Keeps a b)
    (hbc : Forall₂ Node.Keeps b c) : Forall₂ Node.Keeps a c := by
  induction hab generalizing c with
  | nil => exact hbc
  | cons hxy _ ih =>
    cases hbc with
    | cons hyz hrest => exact .cons (hxy.trans hyz) (ih hrest)

/-- The two writes of a node that reports: it goes online unless it is excluded, and its time
is noted. -/
theorem reported_eq_ok {b : Bool} {u u' : Unit} {store₁ : NodeStore ι}
    (h₁ : when b (updateNode node.id now fun row => { row with status := .online }) store =
      (.ok u, store₁))
    (h₂ : updateNode node.id now (fun row => { row with lastHeartbeatAt := some now }) store₁ =
      (.ok u', store'))
    (unique : (store.nodes.map Node.id).Nodup) (member : node ∈ store.nodes)
    (allowed : b → node.status ≠ .excluded) :
    ∃ nodes', Forall₂ Node.Keeps store.nodes nodes' ∧
      store' = { store with nodes := nodes' } := by
  obtain rfl := updateNode_eq_ok h₂
  have hbeat : ∀ nodes : List Node, Forall₂ Node.Keeps nodes (updateKey Node.id node.id
      (Node.write now fun row => { row with lastHeartbeatAt := some now }) nodes) :=
    fun nodes => forall₂_updateWhere Node.Keeps.refl fun row _ _ => row.keeps_heartbeat now now
  rcases when_eq_ok.mp h₁ with ⟨hb, h₁⟩ | ⟨-, rfl⟩
  · obtain rfl := updateNode_eq_ok h₁
    exact ⟨_, trans_keeps (forall₂_updateNode unique member (node.keeps_online now (allowed hb)))
      (hbeat _), rfl⟩
  · exact ⟨_, hbeat _, rfl⟩

/-- The nodes after a registration: a new one may be added, and it is below its threshold. -/
inductive Joined (nodes : List Node) : List Node → Prop
  | known : Joined nodes nodes
  | added {node : Node} (fresh : ∀ row ∈ nodes, row.id ≠ node.id) (below : node.Below) :
      Joined nodes (nodes ++ [node])

theorem findOrCreateNode_eq_ok {req : NodeRegisterRequest} {owner : Principal} {id : Uuid}
    (h : findOrCreateNode req owner id now store = (.ok node, store')) :
    node ∈ store'.nodes ∧ node.status ≠ .excluded ∧
      ∃ nodes', Joined store.nodes nodes' ∧ store' = { store with nodes := nodes' } := by
  simp only [findOrCreateNode, inv] at h
  obtain ⟨_, rfl, h⟩ := h
  cases hexisting : registered? owner req.clientInstanceId store with
  | some existing =>
    simp only [hexisting, inv] at h
    obtain ⟨_, hexcluded, rfl, rfl⟩ := h
    refine ⟨mem_of_find?_eq_some hexisting, ?_, _, .known, rfl⟩
    simpa [Node.isExcluded] using hexcluded
  | none =>
    simp only [hexisting, inv] at h
    obtain ⟨_, rfl, _, hfree, _, _, rfl, rfl, rfl⟩ := h
    have hfresh : lookup Node.id id store.nodes = none := by
      simpa [NodeStore.node?] using hfree
    refine ⟨by simp, by simp [NodeRegisterRequest.node], _,
      .added (lookup_eq_none.mp hfresh) ?_, rfl⟩
    simp [NodeRegisterRequest.node, Node.Below]

variable {mutation : NodeMutation} {u : Unit}

/-- **What a registration commits**: a session, and a node that is below its threshold. -/
theorem registerNode_eq_ok {req : NodeRegisterRequest} {token : Except DbError Principal}
    {nodeId sessionId : Uuid} {sessionTtl : ℤ} (unique : (store.nodes.map Node.id).Nodup)
    (h : registerNode req token nodeId sessionId sessionTtl now store = (.ok u, store')) :
    ∃ nodes₁ nodes' session, Joined store.nodes nodes₁ ∧ Forall₂ Node.Keeps nodes₁ nodes' ∧
      session.revokedAt = none ∧
      store' = { store with nodes := nodes', sessions := store.sessions ++ [session] } := by
  simp only [registerNode, inv] at h
  obtain ⟨owner, -, node, _, hnode, _, rfl, _, -, _, _, rfl, _, _,
    honline, hbeat⟩ := h
  obtain ⟨hmem, hstatus, nodes₁, hjoined, rfl⟩ := findOrCreateNode_eq_ok hnode
  have unique₁ : (nodes₁.map Node.id).Nodup := by
    cases hjoined with
    | known => exact unique
    | added fresh _ => exact nodup_append_row unique fresh
  obtain ⟨nodes', hnodes, rfl⟩ := reported_eq_ok honline hbeat unique₁ hmem fun _ => hstatus
  exact ⟨nodes₁, nodes', _, hjoined, hnodes, rfl, rfl⟩

theorem updateSession_eq_ok {sessionId : Uuid} {f : NodeSession → NodeSession}
    (h : updateSession sessionId f store = (.ok u, store'))
    (keeps : ∀ session : NodeSession, session.Keeps (f session)) :
    ∃ sessions', Forall₂ NodeSession.Keeps store.sessions sessions' ∧
      store' = { store with sessions := sessions' } :=
  ⟨_, forall₂_updateWhere NodeSession.Keeps.refl fun session _ _ => keeps session,
    (modify_eq_ok.mp h).symm⟩

/-- The store after a change of nodes and sessions that takes no node to its threshold. -/
def NodesOnly (store store' : NodeStore ι) : Prop :=
  ∃ nodes' sessions', Forall₂ Node.Keeps store.nodes nodes' ∧
    Forall₂ NodeSession.Keeps store.sessions sessions' ∧
    store' = { store with nodes := nodes', sessions := sessions' }

theorem heartbeat_eq_ok {nodeId sessionId : Uuid} {acceptedModels : List String}
    {tenantActive : Bool} {sessionTtl : ℤ} {answer : NodeHeartbeatResponse}
    (unique : (store.nodes.map Node.id).Nodup)
    (h : heartbeat nodeId sessionId acceptedModels tenantActive sessionTtl now store =
      (.ok answer, store')) : NodesOnly store store' := by
  simp only [heartbeat, inv, Tx.ite_apply] at h
  obtain ⟨_, rfl, node, hnode, _, -, _, rfl, session, -, h⟩ := h
  obtain rfl : node.id = nodeId := key_of_lookup hnode
  split at h
  · simp only [inv] at h
    obtain ⟨_, _, hsession, -, rfl⟩ := h
    obtain ⟨sessions', hsessions, rfl⟩ :=
      updateSession_eq_ok hsession fun _ => ⟨rfl, rfl, rfl, rfl, rfl⟩
    exact ⟨_, sessions', forall₂_same.mpr fun row _ => .refl row, hsessions, rfl⟩
  · rename_i hexcluded
    simp only [inv] at h
    obtain ⟨_, -, _, _, hsession, _, _, honline, _, _, hbeat, -, rfl⟩ := h
    obtain ⟨sessions', hsessions, rfl⟩ :=
      updateSession_eq_ok hsession fun _ => ⟨rfl, rfl, rfl, rfl, rfl⟩
    obtain ⟨nodes', hnodes, rfl⟩ := reported_eq_ok honline hbeat unique (mem_of_lookup hnode)
      fun _ => by simpa [Node.isExcluded] using hexcluded
    exact ⟨nodes', sessions', hnodes, hsessions, rfl⟩

theorem expireOfflineNodes_eq_ok {ttl : ℤ}
    (h : expireOfflineNodes ttl now store = (.ok u, store')) :
    NodesOnly store store' := by
  obtain rfl := modify_eq_ok.mp h
  refine ⟨_, _, forall₂_updateWhere Node.Keeps.refl fun row _ hrow => ?_,
    forall₂_same.mpr fun session _ => .refl session, rfl⟩
  simp only [Bool.and_eq_true, decide_eq_true_eq] at hrow
  exact .write ⟨⟨rfl, rfl, rfl⟩, fun hb => ⟨hb.1, fun _ => hb.2 (by simp [hrow.1])⟩⟩

theorem forall₂_drainSessions (node : Node) (store : NodeStore ι) :
    Forall₂ NodeSession.Keeps store.sessions (drainSessions node store) :=
  forall₂_updateWhere NodeSession.Keeps.refl fun _ _ _ => ⟨rfl, rfl, rfl, rfl, rfl⟩

theorem lockedNode_eq_ok {tenant id : Uuid} (h : lockedNode tenant id store = (.ok node, store')) :
    store.node? id = some node ∧ store = store' := by
  simp only [lockedNode, inv] at h
  obtain ⟨_, rfl, hnode, rfl⟩ := h
  exact ⟨(Option.filter_eq_some_iff.mp hnode).1, rfl⟩

theorem revokeToken_eq_ok {tenant nodeId userId : Uuid} {authority : Except DbError Unit}
    (h : revokeToken tenant nodeId userId authority now store = (.ok u, store')) :
    NodesOnly store store' := by
  simp only [revokeToken, inv] at h
  obtain ⟨_, -, node, _, hnode, _, -, _, _, rfl, h⟩ := h
  obtain ⟨-, rfl⟩ := lockedNode_eq_ok hnode
  obtain ⟨nodes', hnodes, rfl⟩ := when_updateNode_eq_ok (fun row => row.keeps_excluded now) h
  exact ⟨nodes', _, hnodes, forall₂_drainSessions node _, rfl⟩

/-- A configuration leaves the node below its new threshold. -/
def Node.Allows (node : Node) (patch : NodePatch) : Prop :=
  ∀ threshold, patch.failureThreshold = some threshold → node.status ≠ .excluded →
    node.consecutiveFailureCount < threshold

inductive Administered (mutation : NodeMutation) (store : NodeStore ι) : NodeStore ι → Prop
  | kept {store' : NodeStore ι} (only : NodesOnly store store') :
      Administered mutation store store'
  | configured {old : Node} {nodes' : List Node} (found : store.node? mutation.id = some old)
      (action : mutation.action = .configure)
      (same : Forall₂ Node.SameNode store.nodes nodes')
      (keeps : old.Allows mutation.patch → Forall₂ Node.Keeps store.nodes nodes') :
      Administered mutation store { store with nodes := nodes' }
  | deleted {old : Node} {checks : ControlChecks} (found : store.node? mutation.id = some old)
      (bare : hasEvidence old.id checks store = false) :
      Administered mutation store { store with
        nodes := store.nodes.filter (·.id ≠ old.id)
        sessions := store.sessions.filter (·.nodeId ≠ old.id) }

theorem Node.sameNode_administered (node : Node) (status : NodeStatus) (failures : ℤ)
    (patch : NodePatch) (now : Timestamp) :
    node.SameNode (node.write now (administered status failures patch)) := by
  obtain ⟨time, hwrite⟩ := write_eq now (administered status failures patch) node
  rw [hwrite]
  exact ⟨rfl, rfl, rfl⟩

theorem Node.keeps_configured {node : Node} (checked : checkPatch mutation = .ok u)
    (allowed : node.Allows mutation.patch) (now : Timestamp) :
    node.Keeps (node.write now
      (administered node.status node.consecutiveFailureCount mutation.patch)) := by
  refine .write ⟨⟨rfl, rfl, rfl⟩, fun hb => ?_⟩
  unfold administered
  cases hpatch : mutation.patch.failureThreshold with
  | none => exact hb
  | some threshold =>
    have hrange : 1 ≤ threshold := by
      unfold checkPatch at checked
      split at checked
      · cases checked
      · grind
    exact ⟨hrange, fun hstatus => allowed threshold hpatch hstatus⟩

theorem checkPatch_no_threshold (checked : checkPatch mutation = .ok u)
    (action : mutation.action ≠ .configure) :
    mutation.patch.failureThreshold = none := by
  unfold checkPatch at checked
  split at checked
  · cases checked
  · simp_all

theorem Node.keeps_administered {node : Node} {patch : NodePatch} {status : NodeStatus}
    {failures : ℤ} (threshold : patch.failureThreshold = none)
    (safe : status = .excluded ∨ failures = 0) (now : Timestamp) :
    node.Keeps (node.write now (administered status failures patch)) := by
  refine .write ⟨⟨rfl, rfl, rfl⟩, fun hb => ?_⟩
  unfold administered
  rw [threshold]
  refine ⟨hb.1, fun hstatus => ?_⟩
  rcases safe with rfl | rfl
  · exact absurd rfl hstatus
  · have := hb.1
    simp only [Option.getD_none]
    omega

theorem changeNode_eq_ok {tenant : Uuid} {checks : ControlChecks}
    (unique : (store.nodes.map Node.id).Nodup)
    (h : changeNode tenant mutation checks now store = (.ok u, store')) :
    Administered mutation store store' := by
  simp only [changeNode, inv] at h
  obtain ⟨_, hpatch, _, -, old, _, hold, _, -, _, rfl, h⟩ := h
  obtain ⟨hfound, rfl⟩ := lockedNode_eq_ok hold
  have hmem : old ∈ store.nodes := mem_of_lookup hfound
  cases haction : mutation.action with
  | configure =>
    simp only [haction] at h
    obtain rfl := updateNode_eq_ok h
    refine .configured hfound haction ?_ fun hallowed =>
      forall₂_updateNode unique hmem (Node.keeps_configured hpatch hallowed now)
    exact forall₂_updateWhere (fun _ => ⟨rfl, rfl, rfl⟩) fun row _ _ =>
      row.sameNode_administered _ _ _ now
  | exclude =>
    simp only [haction] at h
    obtain rfl := updateNode_eq_ok h
    refine .kept ⟨_, _, forall₂_updateNode unique hmem (Node.keeps_administered
      (checkPatch_no_threshold hpatch (by simp [haction])) (.inl rfl) now), ?_, rfl⟩
    exact forall₂_same.mpr fun session _ => .refl session
  | recover =>
    simp only [haction, inv] at h
    obtain ⟨_, -, h⟩ := h
    obtain rfl := updateNode_eq_ok h
    refine .kept ⟨_, _, forall₂_updateNode unique hmem (Node.keeps_administered
      (checkPatch_no_threshold hpatch (by simp [haction])) (.inr rfl) now), ?_, rfl⟩
    exact forall₂_same.mpr fun session _ => .refl session
  | revoke =>
    simp only [haction, inv] at h
    obtain ⟨_, _, rfl, h⟩ := h
    obtain rfl := updateNode_eq_ok h
    exact .kept ⟨_, _, forall₂_updateNode unique hmem (Node.keeps_administered
      (checkPatch_no_threshold hpatch (by simp [haction])) (.inl rfl) now),
      forall₂_drainSessions old _, rfl⟩
  | delete =>
    simp only [haction, inv] at h
    obtain ⟨_, -, _, hbare, rfl⟩ := h
    exact .deleted hfound (by simpa using hbare)

end Committed

end KeyCompute.NodeGateway
