import Mathlib.Data.Rat.Defs
import Mathlib.Data.List.Basic

/-! Nodes of an elastic training job as `dist_job_manager.py` sees them: the node record, the
events about nodes, and the state-flow table that classifies a status change. -/

namespace DistJobManager

inductive NodeType
  | worker | ps | chief | evaluator | master | dlroverMaster
  deriving DecidableEq, Repr

def NodeType.all : List NodeType := [.worker, .ps, .chief, .evaluator, .master, .dlroverMaster]

theorem NodeType.mem_all (t : NodeType) : t ∈ NodeType.all := by
  cases t <;> decide

theorem NodeType.all_nodup : NodeType.all.Nodup := by decide

inductive NodeStatus
  | initial | pending | running | succeeded | failed | finished | deleted
  deriving DecidableEq, Repr

inductive NodeEventType
  | added | modified | deleted | exit
  | succeededExited | failedExited | nodeCheckSucceeded | nodeCheckFailed
  deriving DecidableEq, Repr

inductive NodeExitReason
  | fatalError | oom | killed | noHeartbeat | diagFail | relaunched | unknownError
  deriving DecidableEq, Repr

structure NodeResource where
  cpu : ℚ := 0
  memory : Nat := 0
  gpuNum : Nat := 0
  deriving DecidableEq, Repr

structure GPUStats where
  index : Nat
  totalMemoryMb : Nat
  usedMemoryMb : Nat
  gpuUtilization : ℚ
  deriving DecidableEq, Repr

/-- Times are whole seconds; `none` is Python's `None`. -/
structure Node where
  type : NodeType
  id : Nat
  rankIndex : Nat := 0
  name : Option String := none
  status : NodeStatus := .initial
  exitReason : Option NodeExitReason := none
  relaunchCount : Nat := 0
  maxRelaunchCount : Nat := 0
  relaunchable : Bool := true
  isReleased : Bool := false
  critical : Bool := false
  isRecoveredOom : Bool := false
  configResource : NodeResource := {}
  usedResource : NodeResource := {}
  gpuStats : List GPUStats := []
  startTime : Option Nat := none
  createTime : Option Nat := none
  heartbeatTime : Nat := 0
  startHangTime : Nat := 0
  hostName : Option String := none
  hostIp : Option String := none
  restartTraining : Bool := false
  serviceAddr : Option String := none
  paralConfig : Option String := none
  reportedStatus : Option NodeEventType := none
  evalTime : Nat := 0
  group : Option Nat := none
  groupSize : Option Nat := none
  groupId : Option Nat := none
  deriving DecidableEq, Repr

def Node.key (n : Node) : NodeType × Nat := (n.type, n.id)

structure NodeEvent where
  eventType : NodeEventType
  node : Node
  deriving DecidableEq, Repr

def isPositiveExit : Option NodeExitReason → Bool
  | some .diagFail | some .noHeartbeat => true
  | _ => false

/-- Modelled from the spec: `Node.update_info`; `None` keeps a value, the count takes the max. -/
def Node.updateInfo (n e : Node) : Node :=
  { n with
    name := e.name.or n.name
    startTime := e.startTime.or n.startTime
    createTime := e.createTime.or n.createTime
    hostName := e.hostName.or n.hostName
    hostIp := e.hostIp.or n.hostIp
    restartTraining := e.restartTraining
    relaunchCount := max n.relaunchCount e.relaunchCount
    isReleased := e.isReleased }

/-- Modelled from the spec: `Node.exited`, for the terminal statuses and `finished`. -/
def Node.exited (n : Node) : Bool :=
  n.status = .succeeded || n.status = .failed || n.status = .finished || n.status = .deleted

section UpdateInfo

variable (n e : Node)

@[simp] theorem Node.updateInfo_type : (n.updateInfo e).type = n.type := rfl
@[simp] theorem Node.updateInfo_id : (n.updateInfo e).id = n.id := rfl
@[simp] theorem Node.updateInfo_status : (n.updateInfo e).status = n.status := rfl
@[simp] theorem Node.updateInfo_exitReason : (n.updateInfo e).exitReason = n.exitReason := rfl
@[simp] theorem Node.updateInfo_relaunchable : (n.updateInfo e).relaunchable = n.relaunchable :=
  rfl
@[simp] theorem Node.updateInfo_maxRelaunchCount :
    (n.updateInfo e).maxRelaunchCount = n.maxRelaunchCount := rfl
@[simp] theorem Node.updateInfo_relaunchCount :
    (n.updateInfo e).relaunchCount = max n.relaunchCount e.relaunchCount := rfl
@[simp] theorem Node.updateInfo_isReleased : (n.updateInfo e).isReleased = e.isReleased := rfl

end UpdateInfo

structure NodeStateFlow where
  fromStatus : NodeStatus
  toStatus : NodeStatus
  shouldRelaunch : Bool
  deriving DecidableEq, Repr

/-- Modelled from the spec: `NODE_STATE_FLOWS` (status_flow.py is not in the sources). -/
def nodeStateFlows : List NodeStateFlow :=
  [⟨.initial, .pending, false⟩, ⟨.initial, .running, false⟩, ⟨.initial, .failed, true⟩,
    ⟨.initial, .deleted, false⟩,
    ⟨.pending, .running, false⟩, ⟨.pending, .succeeded, false⟩, ⟨.pending, .failed, true⟩,
    ⟨.pending, .deleted, true⟩,
    ⟨.running, .succeeded, false⟩, ⟨.running, .failed, true⟩, ⟨.running, .deleted, true⟩,
    ⟨.succeeded, .deleted, false⟩, ⟨.failed, .deleted, false⟩]

/-- Modelled from the spec: a `DELETED` event looks up `deleted`, unless it carries `failed`. -/
def flowTarget (eventType : NodeEventType) (status : NodeStatus) : NodeStatus :=
  if eventType = .deleted ∧ status ≠ .failed then .deleted else status

/-- Modelled from the spec: `get_node_state_flow(old_status, event_type, new_status)`. -/
def getNodeStateFlow (fromStatus : NodeStatus) (eventType : NodeEventType)
    (toStatus : NodeStatus) : Option NodeStateFlow :=
  nodeStateFlows.find? fun f =>
    f.fromStatus == fromStatus && f.toStatus == flowTarget eventType toStatus

section StateFlow

variable {o n : NodeStatus} {t : NodeEventType} {f : NodeStateFlow}

theorem getNodeStateFlow_spec (h : getNodeStateFlow o t n = some f) :
    f ∈ nodeStateFlows ∧ f.fromStatus = o ∧ f.toStatus = flowTarget t n := by
  have hp := List.find?_some h
  simp only [Bool.and_eq_true, beq_iff_eq] at hp
  exact ⟨List.mem_of_find?_eq_some h, hp⟩

theorem getNodeStateFlow_toStatus (h : getNodeStateFlow o t n = some f) :
    f.toStatus = flowTarget t n :=
  (getNodeStateFlow_spec h).2.2

end StateFlow

end DistJobManager
