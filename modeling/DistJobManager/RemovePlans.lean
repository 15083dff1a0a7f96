import DistJobManager.EventEffects

/-! The removals the scale plans carry: the bulk releases list each node once, and a plan of
`_relaunch_node` lists the relaunched node twice when exited nodes are removed. -/

namespace DistJobManager

def scalePlans (o : List Output) : List ScalePlan :=
  o.filterMap fun
    | .scale p => some p
    | _ => none

def ScalePlan.removedKeys (p : ScalePlan) : List (NodeType × Nat) := p.removeNodes.map Node.key

@[simp] theorem scalePlans_append (o o' : List Output) :
    scalePlans (o ++ o') = scalePlans o ++ scalePlans o' :=
  List.filterMap_append _ _ _

@[simp] theorem scalePlans_processNodeEvents (f : NodeStateFlow) (n : Node) :
    scalePlans (processNodeEvents f n) = [] := by
  unfold processNodeEvents
  split_ifs <;> rfl

@[simp] theorem scalePlans_shouldRelaunch (env : ManagerEnv) (stage : JobStage) (enable : Bool)
    (node : Node) (flow : NodeStateFlow) : scalePlans (shouldRelaunch env stage enable node flow).2.2 = [] :=
  List.filterMap_eq_nil_iff.mpr fun x hx => by
    obtain ⟨msg, rfl⟩ := shouldRelaunch_outputs env stage enable node flow x hx
    rfl

theorem sentBy_trans {m m' m'' : DistributedJobManager} (h : m.outputs <+: m'.outputs)
    (h' : m'.outputs <+: m''.outputs) : sentBy m m'' = sentBy m m' ++ sentBy m' m'' := by
  obtain ⟨a, ha⟩ := h
  obtain ⟨b, hb⟩ := h'
  simp [sentBy, ← ha, ← hb]

/-- With `remove_exited_node`, every relaunch plan lists the relaunched node twice. -/
theorem relaunchNode_removes_twice (env : ManagerEnv) (node : Node) (m : DistributedJobManager)
    (h : node.type.hasNodeManager) (hr : env.removeExitedNode) :
    (scalePlans (sentBy m (relaunchNode env node m))).map ScalePlan.removedKeys =
      [[node.key, node.key]] := by
  simp [relaunchNode_of_manager env m h, hr, sentBy, scalePlans, ScalePlan.removedKeys, Node.key]

theorem processEvent_removes_twice {env : ManagerEnv} {e : NodeEvent} {m : DistributedJobManager}
    (cur : Node) (f : NodeStateFlow) (hl : eventLookup env e m = some cur) (hx : e.eventType ≠ .exit)
    (hf : getNodeStateFlow cur.status e.eventType e.node.status = some f) (hs : f.fromStatus ≠ .succeeded)
    (h1 : (shouldRelaunch env m.jobStage m.enableRelaunchNode (lockedNode e (cur.updateInfo e.node)) f).1)
    (hm : cur.type.hasNodeManager) (hr : env.removeExitedNode) :
    (scalePlans (sentBy m (processEvent env e m))).map ScalePlan.removedKeys = [[cur.key, cur.key]] := by
  have hm' : (shouldRelaunch env m.jobStage m.enableRelaunchNode (lockedNode e (cur.updateInfo e.node))
      f).2.1.type.hasNodeManager := by simpa using hm
  rw [processEvent_accepted hl hx hf hs, if_pos h1, sentBy_trans ?_ (relaunchNode_outputs_extend env _ _),
    scalePlans_append, List.map_append, relaunchNode_removes_twice env _ _ hm' hr]
  · simp [sentBy, Node.key]
    rfl
  · simp [List.append_assoc]

theorem failed_worker_plan_removes_twice :
    let e : NodeEvent := ⟨.modified, { type := .worker, id := 0, status := .failed }⟩
    (scalePlans (sentBy (oneNodeJob runningWorker) (processEvent goneEnv e (oneNodeJob runningWorker)))).map
      ScalePlan.removedKeys = [[(.worker, 0), (.worker, 0)]] :=
  processEvent_removes_twice runningWorker ⟨.running, .failed, true⟩ (by decide) (by decide) (by decide)
    (by decide) (by decide) rfl rfl

end DistJobManager
