import DistJobManager.JobContext

/-! The manager's state, what it sends out, and its relaunch machinery: the decision table
of `_should_relaunch` and `_relaunch_node` over the per-type managers' `relaunch_node`. -/

namespace DistJobManager

inductive DistributionStrategy
  | ps | allreduce | custom
  deriving DecidableEq, Repr

inductive JobStage
  | jobInit | jobRunning | jobStopping | jobStopped
  deriving DecidableEq, Repr

/-- `TrainingExceptionLevel`; `unknown` is any other string, such as the default. -/
inductive TrainingExceptionLevel
  | processError | nodeError | rdzvError | warning | error | unknown
  deriving DecidableEq, Repr

structure NodeGroupResource where
  count : Nat
  nodeResource : NodeResource
  deriving DecidableEq, Repr

def NodeGroupResource.newEmpty : NodeGroupResource := ⟨0, {}⟩

structure ScalePlan where
  nodeGroupResources : List (NodeType × NodeGroupResource) := []
  launchNodes : List Node := []
  removeNodes : List Node := []
  deriving DecidableEq, Repr

structure PodLabels where
  jobKey : String
  replicaType : NodeType
  rankIndex : Nat
  replicaIndex : Nat
  deriving DecidableEq, Repr

structure Pod where
  phase : NodeStatus
  deletionTimestamp : Option Nat
  deriving DecidableEq, Repr

inductive CallbackKind
  | started | succeeded | failed | deleted
  deriving DecidableEq, Repr

/-- What the manager sends out: callbacks, reports, host cordons and scale plans. -/
inductive Output
  | nodeCallback (kind : CallbackKind) (node : Node)
  | statusChange (node : Node) (oldStatus newStatus : NodeStatus)
  | notRelaunch (node : Node) (msg : String)
  | nodeRelaunch (node launched : Node)
  | nodeNoHeartbeat (node : Node)
  | cordonNode (hostName : Option String)
  | scale (plan : ScalePlan)
  deriving DecidableEq, Repr

/-- The node a relaunch report names: the node the plan replaces. -/
@[simp] def Output.relaunched : Output → Option Node
  | .nodeRelaunch n _ => some n
  | _ => none

def relaunchedNodes (o : List Output) : List Node := o.filterMap Output.relaunched

@[simp] theorem relaunchedNodes_nil : relaunchedNodes [] = [] := rfl

@[simp] theorem relaunchedNodes_cons (o : Output) (os : List Output) :
    relaunchedNodes (o :: os) = o.relaunched.toList ++ relaunchedNodes os := by
  cases o <;> rfl

@[simp] theorem relaunchedNodes_append (o o' : List Output) :
    relaunchedNodes (o ++ o') = relaunchedNodes o ++ relaunchedNodes o' :=
  List.filterMap_append _ _ _

/-- What the manager reads and never writes: job arguments, settings, collaborators' answers. -/
structure ManagerEnv where
  jobName : String
  distributionStrategy : DistributionStrategy
  removeExitedNode : Bool
  waitPendingRelaunch : Bool
  relaunchAlways : Bool
  cordonFaultNode : Bool
  /-- `NodeResourceLimit.MAX_MEMORY` (constants.py is not in the sources). -/
  maxMemory : Nat
  hangCpuUsagePercentage : ℚ
  listNamespacedPod : PodLabels → Option (List Pod)
  adjustOomResource : NodeResource → NodeResource
  getWorkerEvalTime : Nat → Nat

def ManagerEnv.isAllReduceTypeJob (env : ManagerEnv) : Bool :=
  env.distributionStrategy = .allreduce

/-- The manager's state: the store, the stage, its flags, and all it has sent out. -/
structure DistributedJobManager where
  jobNodes : JobNodes
  jobStage : JobStage
  enableRelaunchNode : Bool
  stopped : Bool
  pendingRelaunchCount : Nat
  exited : Bool
  outputs : List Output

namespace DistributedJobManager

def write (m : DistributedJobManager) (n : Node) : DistributedJobManager :=
  { m with jobNodes := m.jobNodes.updateJobNode n }

def emit (m : DistributedJobManager) (o : List Output) : DistributedJobManager :=
  { m with outputs := m.outputs ++ o }

variable (m : DistributedJobManager) (n : Node) (o : List Output)

@[simp] theorem write_jobNodes : (m.write n).jobNodes = m.jobNodes.updateJobNode n := rfl
@[simp] theorem write_outputs : (m.write n).outputs = m.outputs := rfl
@[simp] theorem write_enableRelaunchNode : (m.write n).enableRelaunchNode = m.enableRelaunchNode :=
  rfl
@[simp] theorem write_jobStage : (m.write n).jobStage = m.jobStage := rfl
@[simp] theorem write_stopped : (m.write n).stopped = m.stopped := rfl
@[simp] theorem write_exited : (m.write n).exited = m.exited := rfl
@[simp] theorem emit_jobNodes : (m.emit o).jobNodes = m.jobNodes := rfl
@[simp] theorem emit_outputs : (m.emit o).outputs = m.outputs ++ o := rfl
@[simp] theorem emit_enableRelaunchNode : (m.emit o).enableRelaunchNode = m.enableRelaunchNode :=
  rfl
@[simp] theorem emit_jobStage : (m.emit o).jobStage = m.jobStage := rfl
@[simp] theorem emit_stopped : (m.emit o).stopped = m.stopped := rfl
@[simp] theorem emit_exited : (m.emit o).exited = m.exited := rfl

theorem write_of_jobNode (h : m.jobNodes.jobNode n.type n.id = some n) : m.write n = m := by
  simp [write, JobNodes.updateJobNode_of_jobNode h]

end DistributedJobManager

def sentBy (m m' : DistributedJobManager) : List Output := m'.outputs.drop m.outputs.length

/-- `close_job`: a plan with empty worker and PS groups, then `os._exit(0)`. -/
def closeJob (m : DistributedJobManager) : DistributedJobManager :=
  { m.emit [.scale { nodeGroupResources :=
      [(.worker, NodeGroupResource.newEmpty), (.ps, NodeGroupResource.newEmpty)] }] with
    exited := true }

inductive RelaunchDecision
  | relaunch (oom : Bool)
  | refuse (msg : String)
  deriving DecidableEq, Repr

/-- The decision table of `_should_relaunch`, in the order the source tests it. -/
def relaunchDecision (env : ManagerEnv) (stage : JobStage) (enableRelaunchNode : Bool)
    (node : Node) (flow : NodeStateFlow) : RelaunchDecision :=
  if !(flow.shouldRelaunch && enableRelaunchNode && node.relaunchable) then .refuse ""
  else if stage = .jobStopping then .refuse "Disable relaunch when job is stopping"
  else if node.exitReason = some .fatalError ∧ !env.relaunchAlways then
    .refuse "Disable relaunch due to fatal error"
  else if node.exitReason = some .relaunched then .refuse "Disable relaunch due to already relaunched"
  else if node.exitReason = some .oom then
    if env.isAllReduceTypeJob then .refuse ""
    else if env.maxMemory ≤ node.configResource.memory then
      .refuse (toString node.configResource.memory ++ " beyond " ++ toString env.maxMemory)
    else if node.maxRelaunchCount ≤ node.relaunchCount then
      .refuse ("Relaunched " ++ toString node.relaunchCount ++ " beyond " ++
        toString node.maxRelaunchCount)
    else .relaunch true
  else if node.exitReason ≠ some .killed ∧ node.maxRelaunchCount ≤ node.relaunchCount then
    .refuse (toString node.relaunchCount ++ " exhausted " ++ toString node.maxRelaunchCount)
  else .relaunch false

theorem relaunchDecision_guard {env : ManagerEnv} {stage : JobStage} {enable : Bool} {node : Node}
    {flow : NodeStateFlow} {oom : Bool} (h : relaunchDecision env stage enable node flow = .relaunch oom) :
    flow.shouldRelaunch = true ∧ enable = true ∧ node.relaunchable = true := by
  by_cases h₁ : flow.shouldRelaunch && enable && node.relaunchable
  · simpa [and_assoc] using h₁
  · simp [relaunchDecision, h₁] at h

/-- `_should_relaunch`: the decision, the node as it leaves it, and the refusal report. -/
def shouldRelaunch (env : ManagerEnv) (stage : JobStage) (enableRelaunchNode : Bool)
    (node : Node) (flow : NodeStateFlow) : Bool × Node × List Output :=
  match relaunchDecision env stage enableRelaunchNode node flow with
  | .relaunch oom =>
    let node := if oom then { node with
      isRecoveredOom := true, configResource := env.adjustOomResource node.configResource }
      else node
    (true, { node with relaunchCount := node.relaunchCount + 1 }, [])
  | .refuse msg => (false, node, if msg.isEmpty then [] else [.notRelaunch node msg])

@[simp] theorem relaunchedNodes_shouldRelaunch (env : ManagerEnv) (stage : JobStage) (enable : Bool)
    (node : Node) (flow : NodeStateFlow) :
    relaunchedNodes (shouldRelaunch env stage enable node flow).2.2 = [] := by
  unfold shouldRelaunch
  split
  · rfl
  · split <;> rfl

theorem shouldRelaunch_fst {env : ManagerEnv} {stage : JobStage} {enable : Bool} {node : Node}
    {flow : NodeStateFlow} :
    (shouldRelaunch env stage enable node flow).1 = true ↔
      ∃ oom, relaunchDecision env stage enable node flow = .relaunch oom := by
  unfold shouldRelaunch
  split <;> simp_all

theorem shouldRelaunch_node (env : ManagerEnv) (stage : JobStage) (enable : Bool) (node : Node)
    (flow : NodeStateFlow) :
    ∃ oom cfg, (shouldRelaunch env stage enable node flow).2.1 =
      { node with
        relaunchCount := node.relaunchCount +
          if (shouldRelaunch env stage enable node flow).1 then 1 else 0
        isRecoveredOom := oom
        configResource := cfg } := by
  unfold shouldRelaunch
  split
  · rename_i oom _
    cases oom
    · exact ⟨node.isRecoveredOom, node.configResource, rfl⟩
    · exact ⟨true, _, rfl⟩
  · exact ⟨node.isRecoveredOom, node.configResource, rfl⟩

section ShouldRelaunch

variable (env : ManagerEnv) (stage : JobStage) (enable : Bool) (node : Node) (flow : NodeStateFlow)

theorem shouldRelaunch_node_eq :
    ∃ oom cfg, (shouldRelaunch env stage enable node flow).2.1 =
      { node with relaunchCount := (shouldRelaunch env stage enable node flow).2.1.relaunchCount
                  isRecoveredOom := oom, configResource := cfg } := by
  obtain ⟨oom, cfg, h⟩ := shouldRelaunch_node env stage enable node flow
  exact ⟨oom, cfg, by rw [h]⟩

@[simp] theorem shouldRelaunch_type : (shouldRelaunch env stage enable node flow).2.1.type = node.type := by
  obtain ⟨_, _, h⟩ := shouldRelaunch_node_eq env stage enable node flow; rw [h]
@[simp] theorem shouldRelaunch_id : (shouldRelaunch env stage enable node flow).2.1.id = node.id := by
  obtain ⟨_, _, h⟩ := shouldRelaunch_node_eq env stage enable node flow; rw [h]
@[simp] theorem shouldRelaunch_status :
    (shouldRelaunch env stage enable node flow).2.1.status = node.status := by
  obtain ⟨_, _, h⟩ := shouldRelaunch_node_eq env stage enable node flow; rw [h]
@[simp] theorem shouldRelaunch_exitReason :
    (shouldRelaunch env stage enable node flow).2.1.exitReason = node.exitReason := by
  obtain ⟨_, _, h⟩ := shouldRelaunch_node_eq env stage enable node flow; rw [h]
@[simp] theorem shouldRelaunch_relaunchable :
    (shouldRelaunch env stage enable node flow).2.1.relaunchable = node.relaunchable := by
  obtain ⟨_, _, h⟩ := shouldRelaunch_node_eq env stage enable node flow; rw [h]
@[simp] theorem shouldRelaunch_maxRelaunchCount :
    (shouldRelaunch env stage enable node flow).2.1.maxRelaunchCount = node.maxRelaunchCount := by
  obtain ⟨_, _, h⟩ := shouldRelaunch_node_eq env stage enable node flow; rw [h]
@[simp] theorem shouldRelaunch_isReleased :
    (shouldRelaunch env stage enable node flow).2.1.isReleased = node.isReleased := by
  obtain ⟨_, _, h⟩ := shouldRelaunch_node_eq env stage enable node flow; rw [h]
@[simp] theorem shouldRelaunch_heartbeatTime :
    (shouldRelaunch env stage enable node flow).2.1.heartbeatTime = node.heartbeatTime := by
  obtain ⟨_, _, h⟩ := shouldRelaunch_node_eq env stage enable node flow; rw [h]

theorem shouldRelaunch_relaunchCount :
    (shouldRelaunch env stage enable node flow).2.1.relaunchCount =
      node.relaunchCount + if (shouldRelaunch env stage enable node flow).1 then 1 else 0 := by
  obtain ⟨_, _, h⟩ := shouldRelaunch_node env stage enable node flow
  conv => lhs; rw [h]

end ShouldRelaunch

theorem shouldRelaunch_outputs (env : ManagerEnv) (stage : JobStage) (enable : Bool) (node : Node)
    (flow : NodeStateFlow) :
    ∀ o ∈ (shouldRelaunch env stage enable node flow).2.2, ∃ msg, o = .notRelaunch node msg := by
  unfold shouldRelaunch
  split
  · simp
  · split <;> simp

/-- Modelled from the spec: the per-type managers' next id, one past the largest of the type. -/
def JobNodes.nextId (s : JobNodes) (t : NodeType) : Nat :=
  (s.nodes t).foldr (fun n k => max (n.id + 1) k) 0

theorem JobNodes.lt_nextId {s : JobNodes} {t : NodeType} {n : Node} (h : n ∈ s.nodes t) :
    n.id < s.nextId t := by
  unfold nextId
  generalize s.nodes t = l at h
  induction l with
  | nil => simp at h
  | cons x xs ih =>
    simp only [List.foldr_cons]
    rcases List.mem_cons.mp h with rfl | h
    · omega
    · have := ih h
      omega

theorem JobNodes.jobNode_nextId (s : JobNodes) (t : NodeType) : s.jobNode t (s.nextId t) = none := by
  cases h : s.jobNode t (s.nextId t) with
  | none => rfl
  | some n =>
    obtain ⟨hn, -, hid⟩ := jobNode_some h
    have := lt_nextId hn
    omega

/-- Modelled from the spec: the replacement, with the rank, resource, count and budget. -/
def Node.relaunchedAs (n : Node) (newId : Nat) : Node :=
  { type := n.type, id := newId, rankIndex := n.rankIndex, configResource := n.configResource,
    relaunchCount := n.relaunchCount, maxRelaunchCount := n.maxRelaunchCount }

/-- Modelled from the spec: the per-type managers' `relaunch_node(node, remove_exited_node)`. -/
def managerRelaunchNode (s : JobNodes) (node : Node) (removeExitedNode : Bool) :
    JobNodes × ScalePlan :=
  let launched := node.relaunchedAs (s.nextId node.type)
  (s.updateJobNode launched,
    { launchNodes := [launched], removeNodes := if removeExitedNode then [node] else [] })

/-- The types `_relaunch_node` finds a manager for; for others it raises before any change. -/
def NodeType.hasNodeManager : NodeType → Bool
  | .dlroverMaster => false
  | _ => true

/-- `_relaunch_node`: the plan refers to `node`, marked non-relaunchable before it is sent. -/
def relaunchNode (env : ManagerEnv) (node : Node) (m : DistributedJobManager) :
    DistributedJobManager :=
  if node.type.hasNodeManager then
    let node' := { node with relaunchable := false }
    let (store, plan) := managerRelaunchNode m.jobNodes node' env.removeExitedNode
    let plan := { plan with
      removeNodes := plan.removeNodes ++ if env.removeExitedNode then [node'] else [] }
    { m with
      jobNodes := store.updateJobNode node'
      outputs := m.outputs ++ (plan.launchNodes.head?.map (.nodeRelaunch node)).toList ++
        [.scale plan] }
  else m

theorem relaunchNode_of_manager (env : ManagerEnv) {node : Node} (m : DistributedJobManager)
    (h : node.type.hasNodeManager) :
    relaunchNode env node m =
      let node' := { node with relaunchable := false }
      let launched := node'.relaunchedAs (m.jobNodes.nextId node.type)
      let removed := if env.removeExitedNode then [node'] else []
      { m with
        jobNodes := (m.jobNodes.updateJobNode launched).updateJobNode node'
        outputs := m.outputs ++ [.nodeRelaunch node launched,
          .scale { launchNodes := [launched], removeNodes := removed ++ removed }] } := by
  simp [relaunchNode, h, managerRelaunchNode]

theorem relaunchNode_jobNode (env : ManagerEnv) {node : Node} (m : DistributedJobManager)
    (h : node.type.hasNodeManager) (t : NodeType) (i : Nat) :
    (relaunchNode env node m).jobNodes.jobNode t i =
      if node.type = t ∧ node.id = i then some { node with relaunchable := false }
      else if node.type = t ∧ m.jobNodes.nextId node.type = i then
        some ({ node with relaunchable := false }.relaunchedAs (m.jobNodes.nextId node.type))
      else m.jobNodes.jobNode t i := by
  rw [relaunchNode_of_manager env m h]
  simp only [JobNodes.jobNode_updateJobNode, Node.relaunchedAs]

@[simp] theorem relaunchNode_exited (env : ManagerEnv) (node : Node) (m : DistributedJobManager) :
    (relaunchNode env node m).exited = m.exited := by
  unfold relaunchNode
  split <;> rfl

theorem relaunchNode_of_not_manager (env : ManagerEnv) {node : Node} (m : DistributedJobManager)
    (h : node.type.hasNodeManager = false) : relaunchNode env node m = m := by
  simp [relaunchNode, h]

theorem relaunchNode_outputs_extend (env : ManagerEnv) (node : Node) (m : DistributedJobManager) :
    m.outputs <+: (relaunchNode env node m).outputs := by
  unfold relaunchNode
  split
  · exact (List.prefix_append _ _).trans (List.prefix_append _ _)
  · exact List.prefix_refl _

/-- `_relaunch_node` up to `self._scaler.scale(plan)`, the state left when the scaler raises. -/
def relaunchNodeUntilScale (env : ManagerEnv) (node : Node) (m : DistributedJobManager) :
    DistributedJobManager × Option ScalePlan :=
  if node.type.hasNodeManager then
    let node' := { node with relaunchable := false }
    let (store, plan) := managerRelaunchNode m.jobNodes node' env.removeExitedNode
    let plan := { plan with
      removeNodes := plan.removeNodes ++ if env.removeExitedNode then [node'] else [] }
    ({ m with
      jobNodes := store.updateJobNode node'
      outputs := m.outputs ++ (plan.launchNodes.head?.map (.nodeRelaunch node)).toList },
      some plan)
  else (m, none)

theorem relaunchNodeUntilScale_jobNodes (env : ManagerEnv) (node : Node) (m : DistributedJobManager) :
    (relaunchNodeUntilScale env node m).1.jobNodes = (relaunchNode env node m).jobNodes := by
  unfold relaunchNode relaunchNodeUntilScale
  split <;> rfl

def handleNodeError (env : ManagerEnv) (node : Node) : Bool × List Output :=
  (true, if env.cordonFaultNode then [.cordonNode node.hostName] else [])

/-- Modelled from the spec: `JobManager.process_error`; only a node error is handled. -/
def jobManagerProcessError (env : ManagerEnv) (node : Node) (level : TrainingExceptionLevel) :
    Bool × List Output :=
  if level = .nodeError then handleNodeError env node else (false, [])

end DistJobManager
