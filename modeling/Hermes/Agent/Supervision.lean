import Hermes.Agent.Conduite
import Hermes.Agent.Tick

/-! # The supervisor drives its missions

The records of the supervisor, read as the missions that it drives: what holds of them between two
calls, and what a mark and a transition do to them.
-/

namespace Hermes.Agent

open Lib Lifecycle Supervisor Conduite
open Relation (ReflTransGen)
open TaskPlanner (TaskPlan createPlan noeud applyStrategy tasksToGraph)

/-- The plan of accepted tasks: a node for each, under its id, the edges that they declare, and
nothing for the validator to say. -/
structure PlanSain (plan : TaskPlan) : Prop where
  noeuds : plan.executionGraph.nodes.keys = ids plan.tasks
  noms : ∀ item ∈ plan.executionGraph.nodes, item.2.id = item.1
  arcs : Hermes.Agent.arcs plan.executionGraph.edges = declarees plan.tasks
  valide : ExecutionGraphValidator.validate plan.executionGraph.nodes
    plan.executionGraph.edges = []

section Plans

variable {g g' : ExecutionGraph} {plan : TaskPlan} {nodeId t : String} {status : NodeStatus}

theorem planSain_of_createPlan {strategy : PlanningStrategy} {available : Option (List String)}
    {mission : TaskPlanner.TaskMission} {tasks : List PlannedTask}
    (h : createPlan strategy available mission tasks = .ok plan) :
    PlanSain plan ∧ ∀ item ∈ plan.executionGraph.nodes, item.2.status = .pending := by
  unfold createPlan at h
  dsimp only at h
  split at h
  · cases h
  · next hvalid =>
      have hbase : PlanningValidator.validatePlan tasks none = [] := by
        rw [ne_eq, not_not] at hvalid
        simp only [PlanningValidator.validatePlan, List.append_eq_nil_iff] at hvalid ⊢
        exact ⟨hvalid.1, rfl⟩
      have haccepted := validatePlan_eq_nil_iff.mp hbase
      have hnodup : (ids (applyStrategy strategy tasks)).Nodup := by
        rw [ids_applyStrategy]
        exact haccepted.1
      obtain ⟨g, hgraph, hnodes, hkeys, harcs⟩ :=
        tasksToGraph_ok hnodup (precede_applyStrategy haccepted.2.2)
      rw [hgraph] at h
      dsimp only at h
      cases hplan : g.generatePlan with
      | error e =>
          rw [hplan] at h
          cases h
      | ok gPlan =>
          rw [hplan] at h
          cases h
          have hnoeud : ∀ item ∈ g.nodes, item.2.id = item.1 ∧ item.2.status = .pending := by
            intro item hitem
            rw [hnodes] at hitem
            obtain ⟨task, -, rfl⟩ := List.mem_map.mp hitem
            exact ⟨rfl, rfl⟩
          exact ⟨⟨hkeys, fun item hitem => (hnoeud item hitem).1, harcs,
            ExecutionGraph.generatePlan_isOk_iff.mp ⟨gPlan, hplan⟩⟩,
            fun item hitem => (hnoeud item hitem).2⟩

theorem validate_congr {nodes nodes' : Dict String AgentNode} (h : nodes'.keys = nodes.keys)
    (edges : List AgentEdge) : ExecutionGraphValidator.validate nodes' edges =
      ExecutionGraphValidator.validate nodes edges := by
  have hlength : nodes'.length = nodes.length := by
    have hlen := congrArg List.length h
    simpa [Dict.keys] using hlen
  simp only [ExecutionGraphValidator.validate, ExecutionGraphValidator.checkInvalidReferences,
    ExecutionGraphValidator.detectCycles, ExecutionGraphValidator.checkOrphanNodes, h, hlength]

theorem PlanSain.bien (h : PlanSain plan) : plan.executionGraph.Bien := by
  have hvalide := h.valide
  rw [ExecutionGraphValidator.validate, List.append_eq_nil_iff, List.append_eq_nil_iff] at hvalide
  have hends := ExecutionGraphValidator.checkInvalidReferences_eq_nil_iff.mp hvalide.1.1
  have hcycle := hvalide.1.2
  rw [ExecutionGraphValidator.detectCycles_eq_nil_iff plan.executionGraph.cles,
    Kahn.internes_eq_self hends] at hcycle
  exact ⟨hends, hcycle⟩

structure Marque (g g' : ExecutionGraph) (nodeId : String) (status : NodeStatus) : Prop where
  edges : g'.edges = g.edges
  keys : g'.nodes.keys = g.nodes.keys
  noms : (∀ item ∈ g.nodes, item.2.id = item.1) → ∀ item ∈ g'.nodes, item.2.id = item.1
  statut : ∀ t, (g'.nodes.get? t).map AgentNode.status =
    if t = nodeId then some status else (g.nodes.get? t).map AgentNode.status

theorem marque_of_marquer (h : g.marquer nodeId status = some g') : Marque g g' nodeId status := by
  obtain ⟨node, hnode, rfl⟩ := Option.map_eq_some_iff.mp h
  have hmem : nodeId ∈ g.nodes.keys := Dict.isSome_get?.mp (by rw [hnode]; rfl)
  refine ⟨rfl, Dict.keys_set_of_mem hmem _, fun hnoms item hitem => ?_, fun t => ?_⟩
  · rcases Dict.mem_of_mem_set hitem with rfl | hitem
    · exact hnoms (nodeId, node) (Dict.mem_of_get? hnode)
    · exact hnoms item hitem
  · dsimp only
    rw [Dict.get?_set]
    split <;> rfl

theorem exists_marquer (h : (g.nodes.get? nodeId).isSome = true) (status : NodeStatus) :
    ∃ g', g.marquer nodeId status = some g' := by
  obtain ⟨node, hnode⟩ := Option.isSome_iff_exists.mp h
  exact ⟨_, by rw [ExecutionGraph.marquer, hnode]; rfl⟩

theorem PlanSain.marquer (h : PlanSain plan) (hmarque : Marque plan.executionGraph g' nodeId status) :
    PlanSain { plan with executionGraph := g' } where
  noeuds := hmarque.keys.trans h.noeuds
  noms := hmarque.noms h.noms
  arcs := by
    dsimp only
    rw [hmarque.edges]
    exact h.arcs
  valide := by
    dsimp only
    rw [validate_congr hmarque.keys, hmarque.edges]
    exact h.valide

end Plans

namespace Supervisor.Supervision

def vue (s : Supervision) : Vue where
  etat m := (s.mission m).map MissionInstance.state
  arcs m := ((s.plan m).map fun plan => arcs plan.executionGraph.edges).getD []
  statut m t := (s.graphe m).bind fun g => (g.nodes.get? t).map AgentNode.status
  fiche id := (s.agent id).map fun x => ⟨x.context.missionId, x.context.taskId, x.state⟩

def finale (e : SupervisorEvent × String) : Bool :=
  e.1 = .agentCompleted || e.1 = .agentFailed

/-- What holds of the records between two calls. -/
structure Rangee (s : Supervision) : Prop where
  cles : s.superviseur.missions.keys.Nodup
  listes : ∀ m ∈ s.superviseur.missions.keys, m ∈ s.superviseur.missionAgents.keys
  nodup : ∀ m, (s.agentsDe m).Nodup
  agents : ∀ m id, id ∈ s.agentsDe m ↔ ∃ x, s.vue.fiche id = some x ∧ x.mission = m
  plans : ∀ m plan, s.plan m = some plan → PlanSain plan

structure Tenue (s : Supervision) : Prop where
  rangee : s.Rangee
  coherente : Coherente s.vue
  emises : s.superviseur.evenements.filter finale = s.annonces.map Prod.snd

section Marques

variable {s s' : Supervision} {m t id : String} {status st : NodeStatus}

theorem mission_enregistrer (s : Supervision) (m m' : String) (mission : MissionInstance) :
    (s.enregistrer m mission).mission m' = if m' = m then some mission else s.mission m' :=
  Dict.get?_set _ _ _ _

theorem plan_enregistrer (s : Supervision) (m m' : String) (mission : MissionInstance) :
    (s.enregistrer m mission).plan m' = if m' = m then mission.taskPlan else s.plan m' := by
  rw [plan, mission_enregistrer]
  split <;> rfl

theorem marquer_eq_some (h : s.marquer m t status = some s') :
    ∃ mission plan g', s.mission m = some mission ∧ mission.taskPlan = some plan ∧
      Marque plan.executionGraph g' t status ∧
      s' = s.enregistrer m { mission with taskPlan := some { plan with executionGraph := g' } } := by
  unfold marquer at h
  cases hmission : s.mission m with
  | none =>
      rw [hmission] at h
      cases h
  | some mission =>
      rw [hmission] at h
      dsimp only at h
      cases hplan : mission.taskPlan with
      | none =>
          rw [hplan] at h
          cases h
      | some plan =>
          rw [hplan] at h
          dsimp only at h
          obtain ⟨g', hmarquer, rfl⟩ := Option.map_eq_some_iff.mp h
          exact ⟨mission, plan, g', rfl, hplan, marque_of_marquer hmarquer, rfl⟩

theorem exists_marquer (h : s.vue.statut m t = some st) (status : NodeStatus) :
    ∃ s', s.marquer m t status = some s' := by
  obtain ⟨g, hg, hstatut⟩ := Option.bind_eq_some_iff.mp h
  obtain ⟨plan, hplan, rfl⟩ := Option.map_eq_some_iff.mp hg
  obtain ⟨mission, hmission, hplan⟩ := Option.bind_eq_some_iff.mp hplan
  obtain ⟨node, hnode, -⟩ := Option.map_eq_some_iff.mp hstatut
  obtain ⟨g', hg'⟩ := Hermes.Agent.exists_marquer (by rw [hnode]; rfl) status
  refine ⟨s.enregistrer m { mission with taskPlan := some { plan with executionGraph := g' } }, ?_⟩
  simp only [marquer, hmission, hplan, hg', Option.map_some]

theorem plan_of_mission {mission : MissionInstance} (h : s.mission m = some mission) :
    s.plan m = mission.taskPlan := by rw [plan, h, Option.bind_some]

theorem vue_marquer (h : s.marquer m t status = some s') :
    s'.vue = s.vue.poserStatut m t status := by
  obtain ⟨mission, plan, g', hmission, hplan, hmarque, rfl⟩ := marquer_eq_some h
  have hancien : s.plan m = some plan := (plan_of_mission hmission).trans hplan
  apply Vue.ext
  · funext m'
    simp only [vue, Vue.poserStatut, mission_enregistrer]
    by_cases hm : m' = m
    · rw [if_pos hm, hm, hmission]
      rfl
    · rw [if_neg hm]
  · funext m'
    simp only [vue, Vue.poserStatut, plan_enregistrer]
    by_cases hm : m' = m
    · rw [if_pos hm, hm, hancien, Option.map_some, Option.map_some, hmarque.edges]
    · rw [if_neg hm]
  · funext m' t'
    simp only [vue, Vue.poserStatut, graphe, plan_enregistrer]
    by_cases hm : m' = m
    · rw [if_pos hm, hm, hancien]
      simp only [Option.map_some, Option.bind_some, hmarque.statut, true_and]
    · rw [if_neg hm, if_neg fun heq => hm heq.1]
  · rfl

theorem Rangee.marquer (h : s.Rangee) (hmarquer : s.marquer m t status = some s') : s'.Rangee := by
  have hvue := vue_marquer hmarquer
  obtain ⟨mission, plan, g', hmission, hplan, hmarque, rfl⟩ := marquer_eq_some hmarquer
  have hconnue : m ∈ s.superviseur.missions.keys :=
    Dict.isSome_get?.mp (by rw [show s.superviseur.missions.get? m = _ from hmission]; rfl)
  have hkeys := Dict.keys_set_of_mem hconnue
    { mission with taskPlan := some { plan with executionGraph := g' } }
  refine ⟨Dict.nodup_keys_set h.cles _ _, fun m' hm' => h.listes m' ?_, h.nodup, fun m' id => ?_,
    fun m' plan' hplan' => ?_⟩
  · rw [← hkeys]
    exact hm'
  · rw [hvue]
    exact h.agents m' id
  · rw [plan_enregistrer] at hplan'
    split at hplan'
    · cases hplan'
      exact (h.plans m plan ((plan_of_mission hmission).trans hplan)).marquer hmarque
    · exact h.plans m' plan' hplan'

end Marques

section Transitions

variable {s : Supervision} {m : String} {mission : MissionInstance} {target : MissionState}

theorem transitionMission_error (h : s.mission m = none ∨ ∃ mission, s.mission m = some mission ∧
    target ∉ MISSION_TRANSITIONS mission.state) :
    ∃ e, s.superviseur.transitionMission m target = (s.superviseur, .error e) := by
  unfold MultiAgentSupervisor.transitionMission
  rcases h with hnone | ⟨mission, hmission, hrefus⟩
  · rw [show s.superviseur.missions.get? m = none from hnone]
    exact ⟨_, rfl⟩
  · rw [show s.superviseur.missions.get? m = some mission from hmission]
    dsimp only
    rw [if_pos hrefus]
    exact ⟨_, rfl⟩

theorem transition_permise (h : s.Rangee) (hmission : s.mission m = some mission)
    (hpermise : target ∈ MISSION_TRANSITIONS mission.state) :
    ∃ superviseur, s.superviseur.transitionMission m target =
        (superviseur, .ok { mission with state := target }) ∧
      { s with superviseur := superviseur }.Rangee ∧
      { s with superviseur := superviseur }.vue = s.vue.poserEtat m target ∧
      superviseur.evenements.filter finale = s.superviseur.evenements.filter finale ∧
      superviseur.missionAgents = s.superviseur.missionAgents := by
  have hconnue : m ∈ s.superviseur.missions.keys :=
    Dict.isSome_get?.mp (by rw [show s.superviseur.missions.get? m = _ from hmission]; rfl)
  have hkeys := Dict.keys_set_of_mem hconnue { mission with state := target }
  obtain ⟨s', hs'⟩ : ∃ s', s' = s.enregistrer m { mission with state := target } := ⟨_, rfl⟩
  have hplan : ∀ m', s'.plan m' = s.plan m' := by
    intro m'
    rw [hs', plan_enregistrer]
    split
    · next heq => rw [heq, plan_of_mission hmission]
    · rfl
  have hvue : s'.vue = s.vue.poserEtat m target := by
    apply Vue.ext
    · funext m'
      simp only [vue, Vue.poserEtat, hs', mission_enregistrer]
      split <;> rfl
    · funext m'
      simp only [vue, Vue.poserEtat, hplan]
    · funext m' t
      simp only [vue, Vue.poserEtat, graphe, hplan]
    · rw [hs']
      rfl
  have hrangee : s'.Rangee := by
    refine ⟨?_, fun m' hm' => ?_, fun m' => ?_, fun m' id => ?_, fun m' p hp => ?_⟩
    · rw [hs']
      exact Dict.nodup_keys_set h.cles _ _
    · rw [hs'] at hm' ⊢
      exact h.listes m' (hkeys ▸ hm')
    · rw [hs']
      exact h.nodup m'
    · rw [hvue, hs']
      exact h.agents m' id
    · exact h.plans m' p (hplan m' ▸ hp)
  have hevenement : ∀ event, MISSION_EVENTS target = some event → finale (event, m) = false := by
    intro event hevent
    cases target <;> cases hevent <;> rfl
  rw [hs'] at hvue hrangee
  unfold MultiAgentSupervisor.transitionMission
  rw [show s.superviseur.missions.get? m = some mission from hmission]
  dsimp only
  rw [if_neg (not_not.mpr hpermise)]
  cases hevent : MISSION_EVENTS target with
  | none => exact ⟨_, rfl, hrangee, hvue, rfl, rfl⟩
  | some event =>
      refine ⟨_, rfl, ⟨hrangee.cles, hrangee.listes, hrangee.nodup, hrangee.agents, hrangee.plans⟩,
        hvue, ?_, rfl⟩
      change (s.superviseur.evenements ++ [(event, m)]).filter finale = _
      rw [List.filter_append, List.filter_singleton, hevenement event hevent]
      simp

end Transitions

end Supervisor.Supervision

end Hermes.Agent
