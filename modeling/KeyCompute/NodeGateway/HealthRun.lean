import KeyCompute.NodeGateway.System

/-!
# The failure threshold of a node along a run

A node whose failures in a row reach its threshold is excluded by the completion that counts the
last of them.  A configuration however writes a new threshold without looking at the failures
counted so far (`online_at_threshold`).  In a run whose configurations leave every node that is not
excluded below its new threshold, every online node is (`online_node_below_threshold`).
-/

namespace KeyCompute.NodeGateway

open Relational

variable {ι : Type} {inspector : Inspector ι} {sha256 : String → String}
  {store store' : NodeStore ι}

def NodesBelow (store : NodeStore ι) : Prop := ∀ node ∈ store.nodes, node.Below

/-- A configuration that is accepted leaves its node below the new threshold or excluded. -/
def NodeCall.RespectsFailures (call : NodeCall) (store : NodeStore ι) : Prop :=
  match call with
  | changeNode tenant mutation checks now =>
    mutation.action = .configure →
    (atomically (NodeGateway.changeNode tenant mutation checks now) store).1 = .ok () →
    ∀ node, store.node? mutation.id = some node → node.Allows mutation.patch
  | _ => True

theorem NodesBelow.kept (h : NodesBelow store)
    (keeps : List.Forall₂ Node.Keeps store.nodes store'.nodes) : NodesBelow store' := by
  intro node' hnode'
  obtain ⟨node, hnode, hkeeps⟩ := exists_of_mem_forall₂ keeps hnode'
  exact hkeeps.below (h node hnode)

theorem NodesBelow.nodesOnly (h : NodesBelow store) (only : NodesOnly store store') :
    NodesBelow store' := by
  obtain ⟨nodes', sessions', nodes, -, rfl⟩ := only
  exact h.kept nodes

theorem NodesBelow.registered {nodes₁ nodes' : List Node} {sessions' : List NodeSession}
    (h : NodesBelow store) (joined : Joined store.nodes nodes₁)
    (nodes : List.Forall₂ Node.Keeps nodes₁ nodes') :
    NodesBelow { store with nodes := nodes', sessions := sessions' } := by
  have hjoined : NodesBelow { store with nodes := nodes₁ } := by
    cases joined with
    | known => exact h
    | added _ below =>
      intro node hnode
      rcases List.mem_append.mp hnode with hold | hnew
      · exact h node hold
      · rw [List.mem_singleton.mp hnew]
        exact below
  exact hjoined.kept nodes

/-- **A call keeps every node below its threshold**, if it respects the failures counted. -/
theorem NodeCall.nodesBelow (call : NodeCall) (respects : call.RespectsFailures store)
    (keyed : store.Keyed) (h : NodesBelow store) :
    NodesBelow (call.step inspector sha256 store) := by
  have effect : Effect sha256 call store (call.step inspector sha256 store) := call.effect keyed
  generalize hstep : call.step inspector sha256 store = store' at effect ⊢
  cases effect with
  | still | created | leased => exact h
  | moved only =>
    obtain ⟨_, -, rfl⟩ := only
    exact h
  | completed _ _ _ _ _ recorded => exact h.kept recorded.nodes
  | registered joined nodes _ => exact h.registered joined nodes
  | reported only => exact h.nodesOnly only
  | @administered tenant mutation checks now _ _ change =>
    -- a refused change is no change, so the condition is only needed of an accepted one
    rcases hanswer : atomically (NodeGateway.changeNode tenant mutation checks now) store with
      ⟨e | u, store₁⟩
    · have hsame : store₁ = store := atomically_error_state hanswer
      have hstore : store₁ = store' := by
        rw [← hstep]
        change store₁ = (atomically (NodeGateway.changeNode tenant mutation checks now) store).2
        rw [hanswer]
      rw [← hstore, hsame]
      exact h
    · cases change with
      | kept only => exact h.nodesOnly only
      | @configured old nodes' found action _ keeps =>
        have hallows : old.Allows mutation.patch :=
          respects action (by rw [hanswer]) old found
        exact h.kept (keeps hallows)
      | deleted _ _ => exact fun node hnode => h node (List.mem_filter.mp hnode).1
  | offered _ _ appended => cases appended <;> exact h
  | acknowledged read => cases read <;> exact h
  | cancelled _ _ => exact h

/-- **An online node is below its failure threshold**, in every run whose configurations respect
the failures counted. -/
theorem online_node_below_threshold (inspector : Inspector ι) (sha256 : String → String)
    (calls : List NodeCall)
    (respects : Along (NodeCall.step inspector sha256) NodeCall.RespectsFailures calls {}) :
    ∀ node ∈ (run inspector sha256 calls {}).nodes, node.status = .online →
      node.consecutiveFailureCount < node.failureThreshold := by
  have hbelow : (run inspector sha256 calls {}).Keyed ∧
      NodesBelow (run inspector sha256 calls {}) :=
    runAll_invariant_along (I := fun store => store.Keyed ∧ NodesBelow store)
      (fun call _ respects h => ⟨call.keyed h.1, call.nodesBelow respects h.1 h.2⟩)
      calls {} respects ⟨keyed_empty, fun _ h => nomatch h⟩
  intro node hnode online
  exact (hbelow.2 node hnode).2 (by simp [online])

def failedOnce : List NodeCall :=
  leasedOnce ++ [.complete firstSubmitter firstFailure (clockAt 20)]

/-- After its failure the node of the example is configured. -/
def configureThreshold (threshold : ℤ) : NodeCall :=
  .changeNode 3 {
    id := 6, expectedUpdatedAt := 20, action := .configure,
    patch := { failureThreshold := some threshold } } {
    authority := .ok (), ownerActive := .ok (), tipEvidence := false } 30

/-- **The counterexample**: a threshold of one leaves the node online with one failure. -/
theorem online_at_threshold :
    ((run blindInspector id (failedOnce ++ [configureThreshold 1]) {}).node? 6).map
      (fun node => (node.status, node.consecutiveFailureCount, node.failureThreshold)) =
        some (.online, 1, 1) := by
  decide +kernel

theorem failedOnce_count :
    ((run blindInspector id failedOnce {}).node? 6).map (·.consecutiveFailureCount) = some 1 := by
  decide +kernel

theorem configureThreshold_respects :
    Along (NodeCall.step blindInspector id) NodeCall.RespectsFailures
      (failedOnce ++ [configureThreshold 2]) {} := by
  refine ⟨trivial, trivial, trivial, trivial, fun _ _ node found threshold hpatch _ => ?_, trivial⟩
  have hcount : some node.consecutiveFailureCount = some 1 := by
    rw [← failedOnce_count]
    exact (congrArg (Option.map (·.consecutiveFailureCount)) found).symm
  cases hpatch
  rw [Option.some.inj hcount]
  decide

theorem configureThreshold_online :
    ((run blindInspector id (failedOnce ++ [configureThreshold 2]) {}).node? 6).map (·.status) =
      some .online := by
  decide +kernel

/-- With a threshold of two the node stays online, below its threshold. -/
theorem online_node_below_threshold_configured :
    ∃ node ∈ (run blindInspector id (failedOnce ++ [configureThreshold 2]) {}).nodes,
      node.status = .online ∧ node.consecutiveFailureCount < node.failureThreshold := by
  obtain ⟨node, found, online⟩ := Option.map_eq_some_iff.mp configureThreshold_online
  have member := mem_of_lookup found
  exact ⟨node, member, online,
    online_node_below_threshold blindInspector id _ configureThreshold_respects node member online⟩

end KeyCompute.NodeGateway
