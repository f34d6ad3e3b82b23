import Hermes.Mission.DagWalk
import Hermes.Mission.GraphExecutor

/-! # A call of `execute_step` is a step of the walk

On a mission whose nodes are distinct and whose dependencies are the ones
`build_graph` derived, the statuses before and after `execute_step` are related by
`DagWalk.Pas`, with the mission's edges as precedence and the environment's
successes as outcomes.
-/

namespace Hermes

open DependencyResolver GraphExecutor

namespace Mission

/-- `u` is the source of an edge into `v`. -/
def precede (m : Mission) (u v : String) : Prop := (u, v) ∈ m.arcs

instance (m : Mission) (u v : String) : Decidable (m.precede u v) :=
  inferInstanceAs (Decidable ((u, v) ∈ m.arcs))

/-- Distinct nodes, and dependencies read off the edges. -/
structure Construite (m : Mission) : Prop where
  nodup : m.nodeIds.Nodup
  dependsOn : ∀ n ∈ m.nodes, n.dependsOn = MissionGraph.dependsOnFromEdges m.edges n.nodeId

theorem construite_of_squelette {m m' : Mission} (h : m'.squelette = m.squelette)
    (hm : m.Construite) : m'.Construite := by
  refine ⟨nodeIds_eq_of_squelette h ▸ hm.nodup, fun n hn => ?_⟩
  have hedges : m'.edges = m.edges := congrArg Prod.snd h
  have hpair : (n.nodeId, n.dependsOn) ∈ m.nodes.map fun n => (n.nodeId, n.dependsOn) := by
    have hnodes : m'.nodes.map (fun n => (n.nodeId, n.dependsOn))
        = m.nodes.map fun n => (n.nodeId, n.dependsOn) := congrArg Prod.fst h
    rw [← hnodes]
    exact List.mem_map.mpr ⟨n, hn, rfl⟩
  obtain ⟨n₀, hn₀, heq⟩ := List.mem_map.mp hpair
  obtain ⟨hid, hdepends⟩ := Prod.mk.inj heq
  rw [hedges, ← hid, ← hdepends]
  exact hm.dependsOn n₀ hn₀

theorem squelette_eq_of_nodes {m m' : Mission} (hnodes : m'.nodes = m.nodes)
    (hedges : m'.edges = m.edges) : m'.squelette = m.squelette := by
  rw [squelette, squelette, hnodes, hedges]

theorem valide_of_squelette {m m' : Mission} (h : m'.squelette = m.squelette)
    (hm : MissionGraph.Valide m) : MissionGraph.Valide m' := by
  have hids := nodeIds_eq_of_squelette h
  have harcs := arcs_eq_of_squelette h
  exact ⟨hids ▸ hm.nodup, harcs ▸ hids ▸ hm.source_mem, harcs ▸ hids ▸ hm.target_mem,
    harcs ▸ hm.ranked⟩

theorem statut_eq_of_nodes {m m' : Mission} (h : m'.nodes = m.nodes) (v : String) :
    m'.statut v = m.statut v := by
  rw [statut, statut, findNode, findNode, h]

theorem precede_eq_of_squelette {m m' : Mission} (h : m'.squelette = m.squelette) :
    m'.precede = m.precede := by
  funext u v
  rw [precede, precede, arcs_eq_of_squelette h]

end Mission

theorem nodeIds_construire (m : Mission) (nodes : List MissionNode) (edges : List MissionEdge) :
    (construire m nodes edges).nodeIds = nodes.map MissionNode.nodeId := by
  simp [construire, MissionGraph.buildGraph, Mission.nodeIds, Function.comp_def]

theorem dependsOn_construire {m : Mission} {nodes : List MissionNode} {edges : List MissionEdge}
    {n : MissionNode} (hn : n ∈ (construire m nodes edges).nodes) :
    n.dependsOn = MissionGraph.dependsOnFromEdges edges n.nodeId := by
  simp only [construire, MissionGraph.buildGraph, List.map_map, List.mem_map] at hn
  obtain ⟨_, -, rfl⟩ := hn
  rfl

theorem status_construire {m : Mission} {nodes : List MissionNode} {edges : List MissionEdge}
    {n : MissionNode} (hn : n ∈ (construire m nodes edges).nodes) :
    ∃ n₀ ∈ nodes, n.status = n₀.status := by
  simp only [construire, MissionGraph.buildGraph, List.map_map, List.mem_map] at hn
  obtain ⟨n₀, hn₀, rfl⟩ := hn
  exact ⟨n₀, hn₀, rfl⟩

theorem buildGraph_issues (m : Mission) (nodes : List MissionNode) (edges : List MissionEdge) :
    (buildGraph m nodes edges).2 = MissionGraph.issues (construire m nodes edges) := by
  by_cases h : MissionGraph.issues (construire m nodes edges) = [] <;>
    simp [buildGraph, MissionGraph.validateGraph, h]

theorem buildGraph_with_status (m : Mission) (nodes : List MissionNode) (edges : List MissionEdge)
    (status : MissionStatus) :
    { (buildGraph m nodes edges).1 with status := status }
      = { construire m nodes edges with status := status } := by
  by_cases h : MissionGraph.issues (construire m nodes edges) = [] <;>
    simp [buildGraph, MissionGraph.validateGraph, h]

theorem buildGraph_accepted {m : Mission} {nodes : List MissionNode} {edges : List MissionEdge}
    (h : (buildGraph m nodes edges).2 = []) :
    (buildGraph m nodes edges).1 = { construire m nodes edges with status := .ready } := by
  rw [buildGraph_issues] at h
  simp [buildGraph, MissionGraph.validateGraph, h]

theorem startMission_accepted {m started : Mission} {nodes : List MissionNode}
    {edges : List MissionEdge} {now : Instant} (h : (buildGraph m nodes edges).2 = [])
    (hstarted : startMission (buildGraph m nodes edges).1 now = (started, true)) :
    started = { construire m nodes edges with status := .running, startedAt := some now } := by
  rw [buildGraph_accepted h, startMission, if_pos (Or.inl rfl)] at hstarted
  exact (Prod.mk.inj hstarted).1.symm

theorem valide_construire {m : Mission} {nodes : List MissionNode} {edges : List MissionEdge}
    (h : (buildGraph m nodes edges).2 = []) : MissionGraph.Valide (construire m nodes edges) :=
  MissionGraph.valide_of_issues_eq_nil ((buildGraph_issues m nodes edges) ▸ h)

theorem completesFermes_of_pending {m : Mission} (h : ∀ n ∈ m.nodes, n.status = .pending) :
    DagWalk.CompletesFermes m.precede m.statut := by
  intro u v _ hv
  have hmem : v ∈ m.nodeIds := m.mem_nodeIds_of_statut (by simp [hv])
  simp [m.statut_eq_pending h hmem] at hv

theorem mem_dependsOnFromEdges {m : Mission} {u v : String} :
    u ∈ MissionGraph.dependsOnFromEdges m.edges v ↔ m.precede u v := by
  simp only [MissionGraph.dependsOnFromEdges, Mission.precede, Mission.arcs, List.mem_map,
    List.mem_filter, decide_eq_true_eq, Prod.mk.injEq]
  constructor
  · rintro ⟨e, ⟨he, ht⟩, hs⟩
    exact ⟨e, he, hs, ht⟩
  · rintro ⟨e, he, hs, ht⟩
    exact ⟨e, ⟨he, ht⟩, hs⟩

theorem dependenciesSatisfied_iff {m : Mission} (hm : m.Construite) {n : MissionNode}
    (hn : n ∈ m.nodes) :
    dependenciesSatisfied m n = true ↔ ∀ u, m.precede u n.nodeId → m.statut u = .completed := by
  have hread : ∀ u, dependencySatisfied m u = true ↔ m.statut u = .completed := by
    intro u
    unfold dependencySatisfied Mission.statut
    cases m.findNode u <;> simp
  simp only [dependenciesSatisfied, List.all_eq_true, hread, hm.dependsOn n hn,
    mem_dependsOnFromEdges]

theorem estPret_iff {m : Mission} (hm : m.Construite) {n : MissionNode} (hn : n ∈ m.nodes) :
    estPret m n = true ↔ DagWalk.Pret m.precede m.statut n.nodeId := by
  rw [estPret, Bool.and_eq_true, dependenciesSatisfied_iff hm hn, DagWalk.Pret,
    m.statut_of_mem hm.nodup hn]

theorem mem_ready_iff {m : Mission} (hm : m.Construite) (v : String) :
    v ∈ (getReadyNodes m).map MissionNode.nodeId ↔ DagWalk.Pret m.precede m.statut v := by
  simp only [getReadyNodes, List.mem_map, List.mem_filter]
  constructor
  · rintro ⟨n, ⟨hn, hpret⟩, rfl⟩
    exact (estPret_iff hm hn).mp hpret
  · intro hpret
    have hne : m.statut v ≠ .blocked := by
      intro hblocked
      simp [DagWalk.Pret, hblocked, estOuvert] at hpret
    obtain ⟨n, hn, rfl⟩ := List.mem_map.mp (m.mem_nodeIds_of_statut hne)
    exact ⟨n, ⟨hn, (estPret_iff hm hn).mpr hpret⟩, rfl⟩

theorem ready_nodup {m : Mission} (hm : m.Construite) :
    ((getReadyNodes m).map MissionNode.nodeId).Nodup :=
  (List.filter_sublist.map MissionNode.nodeId).nodup hm.nodup

theorem marquerEnCours_squelette (m : Mission) : (marquerEnCours m).squelette = m.squelette := by
  simp only [Mission.squelette, marquerEnCours, List.map_map, Prod.mk.injEq, and_true]
  apply List.map_congr_left
  intro n _
  by_cases h : estPret m n = true <;> simp [h]

theorem marquerEnCours_statut {m : Mission} (hm : m.Construite) (v : String) :
    (marquerEnCours m).statut v
      = if v ∈ (getReadyNodes m).map MissionNode.nodeId then .running else m.statut v := by
  have hid : ∀ n : MissionNode,
      (if estPret m n then { n with status := .running } else n).nodeId = n.nodeId := by
    intro n
    split <;> rfl
  have hfind : (marquerEnCours m).findNode v = (m.findNode v).map fun n =>
      if estPret m n then { n with status := .running } else n := by
    simp only [Mission.findNode, marquerEnCours, List.find?_map, Function.comp_def, hid]
  unfold Mission.statut
  rw [hfind]
  cases hv : m.findNode v with
  | none =>
      have hnot : v ∉ (getReadyNodes m).map MissionNode.nodeId := by
        intro hmem
        obtain ⟨n, hn, rfl⟩ := List.mem_map.mp hmem
        have hnode := m.findNode_of_mem hm.nodup (List.mem_filter.mp hn).1
        simp [hv] at hnode
      simp [hnot]
  | some n =>
      obtain ⟨hn, rfl⟩ := m.mem_nodes_of_findNode hv
      have hready := (mem_ready_iff hm n.nodeId).trans (estPret_iff hm hn).symm
      by_cases hpret : estPret m n = true
      · simp [hready.mpr hpret, hpret]
      · have hnot := fun h => hpret (hready.mp h)
        simp only [Option.map_some, hpret, if_neg hnot]
        rfl

theorem marquer_squelette (results : Lib.Dict String Bool) (now : Instant) (m : Mission)
    (ids : List String) : (marquer results now m ids).squelette = m.squelette := by
  unfold marquer
  induction ids generalizing m with
  | nil => rfl
  | cons nodeId ids ih =>
      rw [List.foldl_cons, ih, marquerUn]
      split
      · exact markCompleted_squelette m nodeId now
      · exact markFailed_squelette m nodeId

theorem marquer_enveloppe (results : Lib.Dict String Bool) (now : Instant) (m : Mission)
    (ids : List String) : (marquer results now m ids).enveloppe = m.enveloppe := by
  unfold marquer
  induction ids generalizing m with
  | nil => rfl
  | cons nodeId ids ih =>
      rw [List.foldl_cons, ih, marquerUn]
      split
      · exact markCompleted_enveloppe m nodeId now
      · exact markFailed_enveloppe m nodeId

theorem marquer_statut (results : Lib.Dict String Bool) (now : Instant) {m : Mission}
    {ids : List String} (hnodup : ids.Nodup) (hrunning : ∀ u ∈ ids, m.statut u = .running)
    (v : String) :
    (marquer results now m ids).statut v
      = if v ∈ ids then (if results.getD v false then .completed else .failed)
        else if m.statut v = .pending ∧
            ∃ u ∈ ids, results.getD u false = false ∧ m.precede u v then .blocked
        else m.statut v := by
  unfold marquer
  induction ids generalizing m with
  | nil => simp
  | cons head ids ih =>
      obtain ⟨hhead, hids⟩ := List.nodup_cons.mp hnodup
      have hmem : head ∈ m.nodeIds :=
        m.mem_nodeIds_of_statut (by simp [hrunning head List.mem_cons_self])
      have hneHead : ∀ u ∈ ids, u ≠ head := fun u hu heq => hhead (heq ▸ hu)
      rw [List.foldl_cons, marquerUn]
      by_cases hresult : results.getD head false = true
      · have hstatut := markCompleted_statut m head
        have hrest : ∀ u ∈ ids, (markCompleted m head now).1.statut u = .running := by
          intro u hu
          rw [hstatut, if_neg (fun h => hneHead u hu h.1)]
          exact hrunning u (List.mem_cons_of_mem _ hu)
        rw [if_pos hresult, ih hids hrest]
        simp only [hstatut,
          Mission.precede_eq_of_squelette (markCompleted_squelette m head now)]
        by_cases hv : v = head
        · subst hv
          simp [hhead, hmem, hresult]
        · simp [hv, hresult]
      · have hstatut := fun w => markFailed_statut hmem w
        have hrest : ∀ u ∈ ids, (markFailed m head).1.statut u = .running := by
          intro u hu
          rw [hstatut, if_neg (hneHead u hu)]
          simp [hrunning u (List.mem_cons_of_mem _ hu)]
        rw [if_neg hresult, ih hids hrest]
        simp only [hstatut, Mission.precede_eq_of_squelette (markFailed_squelette m head)]
        by_cases hv : v = head
        · subst hv
          simp [hhead, hresult]
        · by_cases hpending : m.statut v = .pending
          · by_cases hedge : (head, v) ∈ m.arcs
            · simp [hv, hpending, hedge, hresult, Mission.precede]
            · simp [hv, hpending, hedge, Mission.precede]
          · simp [hv, hpending]

theorem suggestRetry_frame (m : Mission) (verification : Option MissionVerification) :
    (suggestRetry m verification).nodes = m.nodes ∧
      (suggestRetry m verification).edges = m.edges ∧
      (suggestRetry m verification).status = m.status ∧
      (suggestRetry m verification).metadata.attempts = m.metadata.attempts := by
  unfold suggestRetry
  simp only
  split <;> exact ⟨rfl, rfl, rfl, rfl⟩

theorem cloturer_nodes (p : Passe) (success : Bool) (m : Mission) :
    (cloturer p success m).nodes = m.nodes ∧ (cloturer p success m).edges = m.edges := by
  unfold cloturer
  split
  · obtain ⟨hnodes, hedges, -, -⟩ :=
      suggestRetry_frame (fermer p success m) (p.verification success)
    exact ⟨hnodes, hedges⟩
  · exact ⟨rfl, rfl⟩

theorem etapeMarquee_spec {repli : Int} {p : Passe} {m marked : Mission} (hm : m.Construite)
    (h : etapeMarquee repli p m = some marked) :
    DagWalk.Pas m.precede (fun v => p.reussit v = true) m.statut marked.statut ∧
      marked.squelette = m.squelette ∧ marked.enveloppe = m.enveloppe := by
  unfold etapeMarquee at h
  simp only at h
  split at h
  · cases h
  · next results hresults =>
      cases h
      have hread := recolter_getD hresults
      have hready := mem_ready_iff hm
      have hnodup := ready_nodup hm
      have hrunning : ∀ u ∈ (getReadyNodes m).map MissionNode.nodeId,
          (marquerEnCours m).statut u = .running := by
        intro u hu
        rw [marquerEnCours_statut hm, if_pos hu]
      have hunready : ∀ v ∉ (getReadyNodes m).map MissionNode.nodeId,
          (marquerEnCours m).statut v = m.statut v := by
        intro v hv
        rw [marquerEnCours_statut hm, if_neg hv]
      have hmarked := marquer_statut results p.maintenant hnodup hrunning
      refine ⟨?_, ?_, ?_⟩
      · generalize (getReadyNodes m).map MissionNode.nodeId = ids at *
        have hatteint : ∀ v, ((m.statut v = .pending ∧
            ∃ u ∈ ids, results.getD u false = false ∧ (marquerEnCours m).precede u v) ↔
              DagWalk.Atteint m.precede (fun v => p.reussit v = true) m.statut v) := by
          intro v
          rw [Mission.precede_eq_of_squelette (marquerEnCours_squelette m), DagWalk.Atteint]
          refine and_congr_right fun _ => exists_congr fun u => ?_
          constructor
          · rintro ⟨hu, hfalse, huv⟩
            exact ⟨huv, (hready u).mp hu, by rw [← hread u hu, hfalse]; simp⟩
          · rintro ⟨huv, hu, hfalse⟩
            have hu' := (hready u).mpr hu
            exact ⟨hu', by rw [hread u hu']; simpa using hfalse, huv⟩
        refine ⟨?_, ?_, ?_, ?_⟩
        · intro v hpret hr
          have hv := (hready v).mpr hpret
          rw [hmarked, if_pos hv, hread v hv, if_pos hr]
        · intro v hpret hr
          have hv := (hready v).mpr hpret
          rw [hmarked, if_pos hv, hread v hv, if_neg hr]
        · intro v hpret hat
          have hv : v ∉ ids := fun h => hpret ((hready v).mp h)
          rw [hmarked, if_neg hv, hunready v hv, if_pos ((hatteint v).mpr hat)]
        · intro v hpret hat
          have hv : v ∉ ids := fun h => hpret ((hready v).mp h)
          rw [hmarked, if_neg hv, hunready v hv, if_neg (fun h => hat ((hatteint v).mp h))]
      · rw [marquer_squelette, marquerEnCours_squelette]
      · rw [marquer_enveloppe]
        rfl

theorem executeStep_eq_some {repli : Int} {p : Passe} {m : Mission} {e : Etape}
    (h : executeStep repli p m = some e) :
    ∃ marked, etapeMarquee repli p m = some marked ∧
      e.mission = (if 0 < e.count ∧ toutCompte marked then cloturer p (allSuccess marked) marked
        else marked) ∧
      e.count = (getReadyNodes m).length ∧
      e.dispatched = ((getReadyNodes m).map MissionNode.nodeId).filter p.place := by
  unfold executeStep at h
  simp only at h
  split at h
  · cases h
  · next marked hmarked =>
      cases h
      exact ⟨marked, hmarked, rfl, by simp, rfl⟩

theorem executeStep_mission_of_count_eq_zero {repli : Int} {p : Passe} {m : Mission} {e : Etape}
    (h : executeStep repli p m = some e) (hcount : e.count = 0) : e.mission = m := by
  obtain ⟨marked, hmarked, hmission, hlength, -⟩ := executeStep_eq_some h
  have hnone : getReadyNodes m = [] := List.length_eq_zero_iff.mp (by omega)
  have hsame : marquerEnCours m = m := by
    have hnodes : m.nodes.map (fun n => if estPret m n then { n with status := .running } else n)
        = m.nodes := by
      refine (List.map_congr_left (g := id) fun n hn => ?_).trans (List.map_id _)
      have hpret := List.filter_eq_nil_iff.mp hnone n hn
      simp [hpret]
    rw [marquerEnCours, hnodes]
  rw [hmission, hcount, if_neg (by simp)]
  unfold etapeMarquee at hmarked
  simp only [hnone, List.map_nil, hsame] at hmarked
  split at hmarked
  · cases hmarked
  · exact (Option.some.inj hmarked).symm

theorem count_eq_zero_iff {m : Mission} (hm : m.Construite) :
    (getReadyNodes m).length = 0 ↔ ∀ v, ¬ DagWalk.Pret m.precede m.statut v := by
  have hlength : ((getReadyNodes m).map MissionNode.nodeId).length = (getReadyNodes m).length :=
    List.length_map MissionNode.nodeId
  rw [← hlength, List.length_eq_zero_iff, List.eq_nil_iff_forall_not_mem]
  simp only [mem_ready_iff hm]

theorem executeStep_spec {repli : Int} {p : Passe} {m : Mission} {e : Etape} (hm : m.Construite)
    (h : executeStep repli p m = some e) :
    DagWalk.Pas m.precede (fun v => p.reussit v = true) m.statut e.mission.statut ∧
      e.mission.squelette = m.squelette ∧
      e.dispatched.Nodup ∧ ∀ v ∈ e.dispatched, DagWalk.Pret m.precede m.statut v := by
  obtain ⟨marked, hmarked, hmission, -, hdispatched⟩ := executeStep_eq_some h
  obtain ⟨hpas, hsquelette, -⟩ := etapeMarquee_spec hm hmarked
  have hframe : e.mission.nodes = marked.nodes ∧ e.mission.edges = marked.edges := by
    rw [hmission]
    split
    · exact cloturer_nodes p _ marked
    · exact ⟨rfl, rfl⟩
  have hstatut : e.mission.statut = marked.statut :=
    funext fun v => Mission.statut_eq_of_nodes hframe.1 v
  refine ⟨hstatut ▸ hpas, ?_, ?_, ?_⟩
  · exact (Mission.squelette_eq_of_nodes hframe.1 hframe.2).trans hsquelette
  · rw [hdispatched]
    exact (ready_nodup hm).filter _
  · intro v hv
    rw [hdispatched] at hv
    exact (mem_ready_iff hm v).mp (List.mem_filter.mp hv).1

end Hermes
