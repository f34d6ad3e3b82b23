import Hermes.Mission.Graph

/-! # Readiness and the marking of nodes

The resolver reads readiness from `dependsOn` and cascades a failure through the edges, to the
direct dependents only.
-/

namespace Hermes

namespace DependencyResolver

def dependencySatisfied (m : Mission) (dep : String) : Bool :=
  match m.findNode dep with
  | none => false
  | some node => node.status = .completed

def dependenciesSatisfied (m : Mission) (n : MissionNode) : Bool :=
  n.dependsOn.all (dependencySatisfied m)

/-- The statuses from which `get_ready_nodes` may take a node. -/
def estOuvert : NodeStatus → Bool
  | .completed => false
  | .failed => false
  | .running => false
  | .blocked => false
  | .pending => true
  | .ready => true
  | .skipped => true

def estPret (m : Mission) (n : MissionNode) : Bool :=
  estOuvert n.status && dependenciesSatisfied m n

def getReadyNodes (m : Mission) : List MissionNode := m.nodes.filter (estPret m)

def getBlockedNodes (m : Mission) : List MissionNode :=
  m.nodes.filter fun n =>
    n.status != .completed && n.status != .failed && n.status != .blocked
      && !dependenciesSatisfied m n

def completer (now : Instant) (n : MissionNode) : MissionNode :=
  { n with status := .completed, completedAt := some now }

def echouer (n : MissionNode) : MissionNode := { n with status := .failed }

def bloquer (n : MissionNode) : MissionNode :=
  if n.status = .pending then { n with status := .blocked } else n

/-- `mark_completed`: the node becomes COMPLETED and dated. -/
def markCompleted (m : Mission) (nodeId : String) (now : Instant) : Mission × Bool :=
  match m.findNode nodeId with
  | none => (m, false)
  | some _ => (m.modifyNode nodeId (completer now), true)

def getDependents (m : Mission) (nodeId : String) : List String :=
  ((m.edges.filter fun e => e.sourceId = nodeId).map MissionEdge.targetId).filter fun tid =>
    (m.findNode tid).isSome

/-- `mark_failed`: the node becomes FAILED and its PENDING direct dependents BLOCKED. -/
def markFailed (m : Mission) (nodeId : String) : Mission × Bool :=
  match m.findNode nodeId with
  | none => (m, false)
  | some _ =>
      let failed := m.modifyNode nodeId echouer
      ((getDependents failed nodeId).foldl (fun m tid => m.modifyNode tid bloquer) failed, true)

structure Progress where
  total : Nat
  completed : Nat
  failed : Nat
  ready : Nat
  running : Nat
  blocked : Nat
  skipped : Nat
  pending : Int
  deriving DecidableEq

def getProgress (m : Mission) : Progress :=
  let total := m.nodes.length
  let completed := m.nodes.countP fun n => n.status = .completed
  let failed := m.nodes.countP fun n => n.status = .failed
  let running := m.nodes.countP fun n => n.status = .running
  let skipped := m.nodes.countP fun n => n.status = .skipped
  { total := total
    completed := completed
    failed := failed
    ready := (getReadyNodes m).length
    running := running
    blocked := (getBlockedNodes m).length
    skipped := skipped
    pending := total - completed - failed - running - skipped }

private theorem counts_le_total (nodes : List MissionNode) :
    (nodes.countP fun n => n.status = .completed) + (nodes.countP fun n => n.status = .failed)
      + (nodes.countP fun n => n.status = .skipped) ≤ nodes.length := by
  induction nodes with
  | nil => simp
  | cons n nodes ih =>
      simp only [List.countP_cons, List.length_cons]
      cases n.status <;> simp <;> omega

theorem total_le_counts_iff (nodes : List MissionNode) :
    nodes.length ≤ (nodes.countP fun n => n.status = .completed)
        + (nodes.countP fun n => n.status = .failed)
        + (nodes.countP fun n => n.status = .skipped) ↔
      ∀ n ∈ nodes, n.status = .completed ∨ n.status = .failed ∨ n.status = .skipped := by
  induction nodes with
  | nil => simp
  | cons n nodes ih =>
      have hbound := counts_le_total nodes
      simp only [List.countP_cons, List.length_cons, List.forall_mem_cons]
      rw [← ih]
      cases n.status <;> simp <;> omega

end DependencyResolver

namespace Mission

/-- The status of a node, BLOCKED for an identifier that is not a node: neither is
ever ready nor a satisfied dependency. -/
def statut (m : Mission) (nodeId : String) : NodeStatus :=
  match m.findNode nodeId with
  | none => .blocked
  | some n => n.status

/-- What no marking changes: the nodes' identifiers and dependencies, the edges. -/
def squelette (m : Mission) : List (String × List String) × List MissionEdge :=
  (m.nodes.map fun n => (n.nodeId, n.dependsOn), m.edges)

def enveloppe (m : Mission) : Mission := { m with nodes := [] }

theorem status_eq_of_enveloppe {m m' : Mission} (h : m'.enveloppe = m.enveloppe) :
    m'.status = m.status := by
  have hstatus := congrArg Mission.status h
  exact hstatus

theorem metadata_eq_of_enveloppe {m m' : Mission} (h : m'.enveloppe = m.enveloppe) :
    m'.metadata = m.metadata := by
  have hmetadata := congrArg Mission.metadata h
  exact hmetadata

theorem nodeIds_eq_of_squelette {m m' : Mission} (h : m'.squelette = m.squelette) :
    m'.nodeIds = m.nodeIds := by
  have hfst := congrArg (fun s => s.1.map Prod.fst) h
  simpa [squelette, nodeIds, Function.comp_def] using hfst

theorem arcs_eq_of_squelette {m m' : Mission} (h : m'.squelette = m.squelette) :
    m'.arcs = m.arcs := by
  have hsnd := congrArg Prod.snd h
  simp only [squelette] at hsnd
  rw [arcs, arcs, hsnd]

theorem findNode_isSome (m : Mission) (nodeId : String) :
    (m.findNode nodeId).isSome ↔ nodeId ∈ m.nodeIds := by
  simp [findNode, nodeIds, List.find?_isSome]

theorem mem_nodes_of_findNode {m : Mission} {nodeId : String} {n : MissionNode}
    (h : m.findNode nodeId = some n) : n ∈ m.nodes ∧ n.nodeId = nodeId :=
  ⟨List.mem_of_find?_eq_some h, by simpa using List.find?_some h⟩

theorem findNode_of_mem {m : Mission} (h : m.nodeIds.Nodup) {n : MissionNode}
    (hn : n ∈ m.nodes) : m.findNode n.nodeId = some n := by
  have hsome : (m.findNode n.nodeId).isSome :=
    (m.findNode_isSome _).mpr (List.mem_map.mpr ⟨n, hn, rfl⟩)
  obtain ⟨found, hfound⟩ := Option.isSome_iff_exists.mp hsome
  obtain ⟨hmem, hid⟩ := mem_nodes_of_findNode hfound
  rw [hfound, List.inj_on_of_nodup_map h hmem hn hid]

theorem statut_of_mem {m : Mission} (h : m.nodeIds.Nodup) {n : MissionNode}
    (hn : n ∈ m.nodes) : m.statut n.nodeId = n.status := by
  rw [statut, findNode_of_mem h hn]

theorem mem_nodeIds_of_statut {m : Mission} {nodeId : String}
    (h : m.statut nodeId ≠ .blocked) : nodeId ∈ m.nodeIds := by
  rw [← findNode_isSome]
  unfold statut at h
  cases hfind : m.findNode nodeId with
  | none => simp [hfind] at h
  | some n => rfl

theorem statut_eq_pending {m : Mission} (h : ∀ n ∈ m.nodes, n.status = .pending) {nodeId : String}
    (hmem : nodeId ∈ m.nodeIds) : m.statut nodeId = .pending := by
  obtain ⟨n, hn⟩ := Option.isSome_iff_exists.mp ((m.findNode_isSome nodeId).mpr hmem)
  rw [statut, hn]
  exact h n (mem_nodes_of_findNode hn).1

private theorem find?_modify_findIdx (nodes : List MissionNode) (nodeId v : String)
    {f : MissionNode → MissionNode} (hf : ∀ n, (f n).nodeId = n.nodeId) :
    (nodes.modify (nodes.findIdx fun n => n.nodeId = nodeId) f).find? (fun n => n.nodeId = v)
      = if v = nodeId then (nodes.find? fun n => n.nodeId = nodeId).map f
        else nodes.find? fun n => n.nodeId = v := by
  induction nodes with
  | nil => simp
  | cons n nodes ih =>
      by_cases hn : n.nodeId = nodeId
      · by_cases hv : v = nodeId
        · simp [List.findIdx_cons, hn, hv, hf]
        · simp [List.findIdx_cons, hn, hv, hf, Ne.symm hv]
      · simp only [List.findIdx_cons, hn, decide_false, cond_false, List.modify_succ_cons,
          List.find?_cons, ih]
        by_cases hv : v = nodeId
        · subst hv
          simp [hn]
        · simp [hv]

theorem findNode_modifyNode (m : Mission) (nodeId v : String)
    {f : MissionNode → MissionNode} (hf : ∀ n, (f n).nodeId = n.nodeId) :
    (m.modifyNode nodeId f).findNode v
      = if v = nodeId then (m.findNode nodeId).map f else m.findNode v :=
  find?_modify_findIdx m.nodes nodeId v hf

theorem squelette_modifyNode (m : Mission) (nodeId : String) {f : MissionNode → MissionNode}
    (hf : ∀ n, (f n).nodeId = n.nodeId ∧ (f n).dependsOn = n.dependsOn) :
    (m.modifyNode nodeId f).squelette = m.squelette := by
  simp only [squelette, modifyNode, Prod.mk.injEq, and_true]
  apply List.ext_getElem?
  intro i
  simp only [List.getElem?_map, List.getElem?_modify]
  cases m.nodes[i]? with
  | none => rfl
  | some n => by_cases h : (m.nodes.findIdx fun n => n.nodeId = nodeId) = i <;> simp [h, hf n]

theorem statut_modifyNode (m : Mission) (nodeId v : String) {f : MissionNode → MissionNode}
    (hf : ∀ n, (f n).nodeId = n.nodeId) {g : NodeStatus → NodeStatus}
    (hg : ∀ n, (f n).status = g n.status) :
    (m.modifyNode nodeId f).statut v
      = if v = nodeId ∧ v ∈ m.nodeIds then g (m.statut v) else m.statut v := by
  unfold statut
  rw [findNode_modifyNode m nodeId v hf]
  by_cases hv : v = nodeId
  · subst hv
    have hmem := m.findNode_isSome v
    cases hfind : m.findNode v with
    | none =>
        have hnot : v ∉ m.nodeIds := fun h => by simpa [hfind] using hmem.mpr h
        simp [hnot]
    | some n =>
        have hin : v ∈ m.nodeIds := hmem.mp (by simp [hfind])
        simp [hin, hg]
  · simp [hv]

end Mission

namespace DependencyResolver

theorem markCompleted_enveloppe (m : Mission) (nodeId : String) (now : Instant) :
    (markCompleted m nodeId now).1.enveloppe = m.enveloppe := by
  unfold markCompleted
  cases m.findNode nodeId <;> rfl

theorem markFailed_enveloppe (m : Mission) (nodeId : String) :
    (markFailed m nodeId).1.enveloppe = m.enveloppe := by
  have hfold : ∀ (ids : List String) (m : Mission),
      (ids.foldl (fun m tid => m.modifyNode tid bloquer) m).enveloppe = m.enveloppe := by
    intro ids
    induction ids with
    | nil => exact fun _ => rfl
    | cons tid ids ih => exact fun m => ih (m.modifyNode tid bloquer)
  unfold markFailed
  cases m.findNode nodeId with
  | none => rfl
  | some n => exact hfold _ _

theorem markCompleted_squelette (m : Mission) (nodeId : String) (now : Instant) :
    (markCompleted m nodeId now).1.squelette = m.squelette := by
  unfold markCompleted
  cases m.findNode nodeId with
  | none => rfl
  | some n => exact m.squelette_modifyNode nodeId fun _ => ⟨rfl, rfl⟩

theorem markCompleted_statut (m : Mission) (nodeId v : String) (now : Instant) :
    (markCompleted m nodeId now).1.statut v
      = if v = nodeId ∧ v ∈ m.nodeIds then .completed else m.statut v := by
  unfold markCompleted
  cases hfind : m.findNode nodeId with
  | none =>
      have hnot : ¬ (v = nodeId ∧ v ∈ m.nodeIds) := by
        rintro ⟨rfl, hmem⟩
        have hsome := (m.findNode_isSome v).mpr hmem
        simp [hfind] at hsome
      simp [hnot]
  | some n =>
      exact m.statut_modifyNode nodeId v (f := completer now) (fun _ => rfl)
        (g := fun _ => .completed) fun _ => rfl

private theorem bloquer_fields (n : MissionNode) :
    (bloquer n).nodeId = n.nodeId ∧ (bloquer n).dependsOn = n.dependsOn ∧
      (bloquer n).status = if n.status = .pending then .blocked else n.status := by
  unfold bloquer
  split <;> simp [*]

private theorem foldl_bloquer_squelette (m : Mission) (ids : List String) :
    (ids.foldl (fun m tid => m.modifyNode tid bloquer) m).squelette = m.squelette := by
  induction ids generalizing m with
  | nil => rfl
  | cons tid ids ih =>
      rw [List.foldl_cons, ih]
      exact m.squelette_modifyNode tid fun n => ⟨(bloquer_fields n).1, (bloquer_fields n).2.1⟩

private theorem foldl_bloquer_statut (m : Mission) (ids : List String) (v : String) :
    (ids.foldl (fun m tid => m.modifyNode tid bloquer) m).statut v
      = if v ∈ ids ∧ m.statut v = .pending then .blocked else m.statut v := by
  induction ids generalizing m with
  | nil => simp
  | cons tid ids ih =>
      have hstep := m.statut_modifyNode tid v (fun n => (bloquer_fields n).1)
        (g := fun s => if s = .pending then .blocked else s) fun n => (bloquer_fields n).2.2
      have hmem : m.statut v = .pending → v ∈ m.nodeIds := fun h =>
        m.mem_nodeIds_of_statut (by simp [h])
      rw [List.foldl_cons, ih, hstep]
      by_cases hpending : m.statut v = .pending
      · have hin := hmem hpending
        by_cases hv : v = tid
        · simp [hv, hv ▸ hin, hv ▸ hpending]
        · simp [hv, hpending]
      · simp [hpending]

theorem markFailed_squelette (m : Mission) (nodeId : String) :
    (markFailed m nodeId).1.squelette = m.squelette := by
  unfold markFailed
  cases m.findNode nodeId with
  | none => rfl
  | some n =>
      simp only
      rw [foldl_bloquer_squelette]
      exact m.squelette_modifyNode nodeId fun _ => ⟨rfl, rfl⟩

theorem markFailed_statut {m : Mission} {nodeId : String} (hid : nodeId ∈ m.nodeIds) (v : String) :
    (markFailed m nodeId).1.statut v
      = if v = nodeId then .failed
        else if (nodeId, v) ∈ m.arcs ∧ m.statut v = .pending then .blocked else m.statut v := by
  obtain ⟨n, hfind⟩ := Option.isSome_iff_exists.mp ((m.findNode_isSome nodeId).mpr hid)
  have hsquelette : (m.modifyNode nodeId echouer).squelette = m.squelette :=
    m.squelette_modifyNode nodeId fun _ => ⟨rfl, rfl⟩
  have hfailed := m.statut_modifyNode nodeId v (f := echouer) (fun _ => rfl)
    (g := fun _ => .failed) fun _ => rfl
  simp only [markFailed, hfind]
  rw [foldl_bloquer_statut, hfailed]
  by_cases hv : v = nodeId
  · simp [hv, hid]
  · have hdependent : v ∈ getDependents (m.modifyNode nodeId echouer) nodeId ↔
        (nodeId, v) ∈ m.arcs ∧ v ∈ m.nodeIds := by
      have hedges : (m.modifyNode nodeId echouer).edges = m.edges := rfl
      simp only [getDependents, hedges, List.mem_filter, List.mem_map, decide_eq_true_eq,
        Mission.findNode_isSome, Mission.arcs, Prod.mk.injEq,
        Mission.nodeIds_eq_of_squelette hsquelette]
      constructor
      · rintro ⟨⟨e, ⟨he, hs⟩, ht⟩, hmem⟩
        exact ⟨⟨e, he, hs, ht⟩, hmem⟩
      · rintro ⟨⟨e, he, hs, ht⟩, hmem⟩
        exact ⟨⟨e, ⟨he, hs⟩, ht⟩, hmem⟩
    have hmem : m.statut v = .pending → v ∈ m.nodeIds := fun h =>
      m.mem_nodeIds_of_statut (by simp [h])
    simp only [hdependent, hv, false_and, if_false]
    by_cases hpending : m.statut v = .pending
    · simp [hpending, hmem hpending]
    · simp [hpending]

end DependencyResolver

end Hermes
