import Hermes.Agent.Deroulement

/-! # Histories of the supervisor

The other calls, what each keeps of the records, and the histories that they make with the ticks
and with what the agents do.
-/

namespace Hermes.Agent

open Lib Lifecycle Supervisor Conduite
open Relation (ReflTransGen)
open TaskPlanner (TaskPlan createPlan)

namespace Lifecycle.AgentLifecycleManager

def fiche (m : AgentLifecycleManager) (id : String) : Option Fiche :=
  (m.agents.get? id).map fun x => ⟨x.context.missionId, x.context.taskId, x.state⟩

/-- Every agent stays at its task, and its end is final. -/
def Progresse (m m' : AgentLifecycleManager) : Prop := ∀ id, Evolue (m.fiche id) (m'.fiche id)

/-- An operation of agents that are there already. -/
def Operation.Courante : Operation → Prop
  | createAgent _ _ _ => False
  | cleanup _ _ => False
  | _ => True

section Progres

variable {m m' m'' : AgentLifecycleManager}

theorem Progresse.refl (m : AgentLifecycleManager) : Progresse m m := by
  intro id
  cases m.fiche id with
  | none => exact .absent
  | some x => exact .present rfl rfl fun _ => rfl

theorem Progresse.trans (h : Progresse m m') (h' : Progresse m' m'') : Progresse m m'' := by
  intro id
  have hid := h id
  have hid' := h' id
  revert hid hid'
  generalize m.fiche id = a, m'.fiche id = b, m''.fiche id = c
  intro hid hid'
  cases hid with
  | absent => exact hid'
  | present hmission htache hfin =>
      cases hid' with
      | present hmission' htache' hfin' =>
          refine .present (hmission'.trans hmission) (htache'.trans htache) fun hterminal => ?_
          have hetat := hfin hterminal
          rw [hfin' (hetat ▸ hterminal), hetat]

theorem progresse_ranger {id : String} {x y : AgentInstance} (hget : m.agents.get? id = some x)
    (hcontext : y.context = x.context) (hterminal : x.state.terminal = false) :
    Progresse m (m.ranger id y) := by
  intro id'
  by_cases hid : id' = id
  · subst hid
    have hx : m.fiche id' = some ⟨x.context.missionId, x.context.taskId, x.state⟩ := by
      rw [fiche, hget, Option.map_some]
    have hy : (m.ranger id' y).fiche id' = some ⟨x.context.missionId, x.context.taskId, y.state⟩ := by
      rw [fiche, ranger, Dict.get?_set_self, Option.map_some, hcontext]
    rw [hx, hy]
    refine .present rfl rfl fun hfin => ?_
    rw [hterminal] at hfin
    cases hfin
  · have hmeme : (m.ranger id y).fiche id' = m.fiche id' := by
      rw [fiche, ranger, Dict.get?_set, if_neg hid, fiche]
    rw [hmeme]
    exact Progresse.refl m id'

theorem Permise.terminal {a b : AgentState} (h : Permise a b) : a.terminal = false := by
  rcases h with h | ⟨-, h⟩
  · cases a <;> first | rfl | simp [ALLOWED_TRANSITIONS] at h
  · exact h

theorem progresse_transition (m : AgentLifecycleManager) (id : String) (target : AgentState)
    (now : Rat) : Progresse m (m.transition id target now).1 := by
  rcases m.transition_cases id target now with ⟨e, heq⟩ | ⟨x, hget, hpermise, heq⟩
  · rw [heq]
    exact Progresse.refl m
  · rw [heq]
    exact progresse_ranger hget (context_avancer x target now) hpermise.terminal

theorem progresse_resumeAgent (m : AgentLifecycleManager) (id : String) (now : Rat) :
    Progresse m (m.resumeAgent id now).1 := by
  unfold resumeAgent
  cases hget : m.agents.get? id with
  | none => exact Progresse.refl m
  | some x =>
      dsimp only
      split
      · exact Progresse.refl m
      · next hpaused =>
          rw [ne_eq, not_not] at hpaused
          exact @progresse_ranger (m.emit id x.state .running) id x _ hget rfl
            (by rw [hpaused]; rfl)

theorem progresse_foldl {α : Type} {f : AgentLifecycleManager → α → AgentLifecycleManager}
    (hf : ∀ m a, Progresse m (f m a)) (l : List α) (m : AgentLifecycleManager) :
    Progresse m (l.foldl f m) := by
  induction l generalizing m with
  | nil => exact Progresse.refl m
  | cons a l ih => exact (hf m a).trans (ih (f m a))

theorem progresse_checkTimeouts (m : AgentLifecycleManager) (now : Rat) (fins : String → Rat) :
    Progresse m (m.checkTimeouts now fins).1 := by
  unfold checkTimeouts
  refine List.foldlRecOn (motive := fun s : AgentLifecycleManager × List String => Progresse m s.1)
    m.agents _ (Progresse.refl m) ?_
  intro s h item _
  split
  · have hsuite := h.trans (progresse_transition s.1 item.1 .timeout (fins item.1))
    split
    · next heq => rwa [heq] at hsuite
    · next heq => rwa [heq] at hsuite
  · exact h

theorem progresse_executer (m : AgentLifecycleManager) {op : Operation} (h : op.Courante) :
    Progresse m (m.executer op).1 := by
  cases op with
  | createAgent _ _ _ => exact h.elim
  | cleanup _ _ => exact h.elim
  | startAgent id now => exact progresse_transition m id .running now
  | pauseAgent id now => exact progresse_transition m id .paused now
  | resumeAgent id now => exact progresse_resumeAgent m id now
  | cancelAgent id now => exact progresse_transition m id .cancelled now
  | completeAgent id now => exact progresse_transition m id .completed now
  | failAgent id now => exact progresse_transition m id .failed now
  | checkTimeouts now fins => exact progresse_checkTimeouts m now fins

end Progres

end Lifecycle.AgentLifecycleManager

namespace Supervisor.Supervision

section Agents

variable {s : Supervision} {l : AgentLifecycleManager} {m : String} {mission : MissionInstance}
  {target : MissionState}

theorem Tenue.agents (h : s.Tenue) (hl : s.lifecycle.Progresse l) :
    { s with lifecycle := l }.Tenue := by
  have hmission : ∀ m id, (∃ x, l.fiche id = some x ∧ x.mission = m) ↔
      ∃ x, s.lifecycle.fiche id = some x ∧ x.mission = m := by
    intro m id
    have hid := hl id
    revert hid
    generalize s.lifecycle.fiche id = a, l.fiche id = b
    intro hid
    cases hid with
    | absent => rfl
    | present hm _ _ => simp [hm]
  exact ⟨⟨h.rangee.cles, h.rangee.listes, h.rangee.nodup,
    fun m id => (h.rangee.agents m id).trans (hmission m id).symm, h.rangee.plans⟩,
    h.coherente.agents hl, h.emises⟩

theorem Tenue.transition (h : s.Tenue) (m : String) (hne : target ≠ .completed) :
    { s with superviseur := (s.superviseur.transitionMission m target).1 }.Tenue := by
  by_cases hpermise : ∃ mission, s.mission m = some mission ∧
      target ∈ MISSION_TRANSITIONS mission.state
  · obtain ⟨mission, hmission, hpermise⟩ := hpermise
    obtain ⟨superviseur, htransition, hrangee, hvue, hemises, -⟩ :=
      transition_permise h.rangee hmission hpermise
    rw [htransition]
    exact ⟨hrangee, hvue ▸ h.coherente.poserEtat fun heq => absurd heq hne,
      hemises.trans h.emises⟩
  · have herreur : s.mission m = none ∨ ∃ mission, s.mission m = some mission ∧
        target ∉ MISSION_TRANSITIONS mission.state := by
      cases hmission : s.mission m with
      | none => exact .inl rfl
      | some mission => exact .inr ⟨mission, rfl, fun hmem => hpermise ⟨mission, hmission, hmem⟩⟩
    obtain ⟨e, htransition⟩ := transitionMission_error herreur
    rw [htransition]
    exact h

theorem Tenue.changerMission (h : s.Tenue) (alea : Alea) (m : String) (hne : target ≠ .completed)
    {agir : AgentLifecycleManager → String → AgentLifecycleManager}
    (hagir : ∀ l id, AgentLifecycleManager.Progresse l (agir l id)) :
    (s.changerMission alea m target agir).1.Tenue := by
  have htenue := h.transition m hne
  unfold Supervision.changerMission
  cases htransition : s.superviseur.transitionMission m target with
  | mk superviseur retour =>
      rw [htransition] at htenue
      cases retour with
      | error e => exact htenue
      | ok mission =>
          exact htenue.agents (AgentLifecycleManager.progresse_foldl hagir _ s.lifecycle)

end Agents

/-- A mission more, without an agent, and no end announced. -/
structure Inscrite (avant apres : MultiAgentSupervisor) (m : String) (mission : MissionInstance) :
    Prop where
  missions : ∀ m', apres.missions.get? m' = if m' = m then some mission else avant.missions.get? m'
  cles : avant.missions.keys.Nodup → apres.missions.keys.Nodup
  agents : apres.missionAgents = avant.missionAgents.set m []
  emises : apres.evenements.filter finale = avant.evenements.filter finale

section Creation

variable {avant apres : MultiAgentSupervisor} {m : String} {mission : MissionInstance}
  {target : MissionState}

theorem finale_evenement {event : SupervisorEvent} (h : MISSION_EVENTS target = some event)
    (m : String) : finale (event, m) = false := by
  cases target <;> cases h <;> rfl

theorem filter_emit {event : SupervisorEvent} (h : finale (event, m) = false)
    (superviseur : MultiAgentSupervisor) :
    (superviseur.emit event m).evenements.filter finale = superviseur.evenements.filter finale := by
  change (superviseur.evenements ++ [(event, m)]).filter finale = _
  rw [List.filter_append, List.filter_singleton, h]
  simp

theorem inscrite_inscrire (avant : MultiAgentSupervisor) (context : MissionContext) :
    Inscrite avant (avant.inscrire context) context.missionId
      { context := context, state := .created } where
  missions := fun _ => Dict.get?_set _ _ _ _
  cles := fun h => Dict.nodup_keys_set h _ _
  agents := rfl
  emises := filter_emit rfl _

theorem Inscrite.enregistrer (h : Inscrite avant apres m mission) (mission' : MissionInstance) :
    Inscrite avant (apres.enregistrer m mission') m mission' where
  missions := fun m' => by
    refine (Dict.get?_set _ _ _ _).trans ?_
    rw [h.missions]
    split <;> rfl
  cles := fun hcles => Dict.nodup_keys_set (h.cles hcles) _ _
  agents := h.agents
  emises := h.emises

theorem Inscrite.transition (h : Inscrite avant apres m mission) (target : MissionState)
    (hpermise : target ∈ MISSION_TRANSITIONS mission.state) :
    ∃ suite, apres.transitionMission m target = (suite, .ok { mission with state := target }) ∧
      Inscrite avant suite m { mission with state := target } := by
  have hmission : apres.missions.get? m = some mission := (h.missions m).trans (if_pos rfl)
  have hpose := h.enregistrer { mission with state := target }
  unfold MultiAgentSupervisor.transitionMission
  rw [hmission]
  dsimp only
  rw [if_neg (not_not.mpr hpermise)]
  cases hevent : MISSION_EVENTS target with
  | none => exact ⟨_, rfl, hpose⟩
  | some event =>
      refine ⟨_, rfl, hpose.missions, hpose.cles, hpose.agents, ?_⟩
      rw [filter_emit (finale_evenement hevent m)]
      exact hpose.emises

/-- How far the creation of a mission may have come. -/
inductive Creee (mission : MissionInstance) : Prop
  | sansPlan (hplan : mission.taskPlan = none)
      (hetat : mission.state = .planning ∨ mission.state = .failed)
  | prete {plan : TaskPlan} (hplan : mission.taskPlan = some plan) (hetat : mission.state = .ready)
      (hsain : PlanSain plan)
      (hpending : ∀ item ∈ plan.executionGraph.nodes, item.2.status = .pending)

theorem inscrite_createMission {context : MissionContext} (tasks : List PlannedTask)
    (h : context.missionId ∉ avant.missions.keys) :
    ∃ mission, Inscrite avant (avant.createMission context tasks).1 context.missionId mission ∧
      Creee mission := by
  obtain ⟨s₁, hplanning, hs₁⟩ :=
    (inscrite_inscrire avant context).transition .planning (by simp [MISSION_TRANSITIONS])
  unfold MultiAgentSupervisor.createMission
  rw [if_neg h, hplanning]
  dsimp only
  cases hplan : createPlan s₁.strategy s₁.availableCapabilities
      (MultiAgentSupervisor.taskMission context) tasks with
  | error e =>
      cases e with
      | planning erreurs =>
          obtain ⟨s₂, hfailed, hs₂⟩ := hs₁.transition .failed (by simp [MISSION_TRANSITIONS])
          dsimp only
          rw [hfailed]
          exact ⟨_, hs₂, .sansPlan rfl (.inr rfl)⟩
      | graphe e => exact ⟨_, hs₁, .sansPlan rfl (.inl rfl)⟩
  | ok plan =>
      obtain ⟨hsain, hpending⟩ := planSain_of_createPlan hplan
      obtain ⟨s₂, hready, hs₂⟩ :=
        (hs₁.enregistrer { context := context, state := .planning, taskPlan := some plan }).transition
          .ready (by simp [MISSION_TRANSITIONS])
      dsimp only
      rw [hready]
      exact ⟨_, hs₂, .prete rfl rfl hsain hpending⟩

theorem vue_of_inscrite {s : Supervision} (h : Inscrite s.superviseur apres m mission) :
    { s with superviseur := apres }.vue = s.vue.inscrire m mission.state
      ((mission.taskPlan.map fun plan => arcs plan.executionGraph.edges).getD [])
      fun t => mission.taskPlan.bind fun plan =>
        (plan.executionGraph.nodes.get? t).map AgentNode.status := by
  have hmission : ∀ m', { s with superviseur := apres }.mission m' =
      if m' = m then some mission else s.mission m' := h.missions
  apply Vue.ext
  · funext m'
    simp only [vue, Vue.inscrire, hmission]
    split <;> rfl
  · funext m'
    simp only [vue, Vue.inscrire, plan, hmission]
    split <;> rfl
  · funext m'
    simp only [vue, Vue.inscrire, graphe, plan, hmission]
    by_cases hm : m' = m
    · rw [if_pos hm, if_pos hm]
      funext t
      rw [Option.bind_some, Option.bind_map]
      rfl
    · rw [if_neg hm, if_neg hm]
  · rfl

theorem Tenue.createMission {s : Supervision} (h : s.Tenue) (context : MissionContext)
    (tasks : List PlannedTask) : (s.createMission context tasks).1.Tenue := by
  change { s with superviseur := (s.superviseur.createMission context tasks).1 }.Tenue
  by_cases hconnue : context.missionId ∈ s.superviseur.missions.keys
  · rw [MultiAgentSupervisor.createMission, if_pos hconnue]
    exact h
  · obtain ⟨mission, hinscrite, hcreee⟩ := inscrite_createMission tasks hconnue
    generalize (s.superviseur.createMission context tasks).1 = apres at hinscrite ⊢
    have hneuve : s.vue.etat context.missionId = none := by
      simp only [vue, Supervision.mission, Dict.get?_eq_none hconnue, Option.map_none]
    have hvue := vue_of_inscrite hinscrite
    have hsansAgent : ∀ id x, s.vue.fiche id = some x → x.mission ≠ context.missionId := by
      rintro id x hx hm
      obtain ⟨st, hst, -⟩ := h.coherente.posees id x hx
      exact h.coherente.connues _ _ _ (hm ▸ hst) hneuve
    refine ⟨⟨hinscrite.cles h.rangee.cles, fun m hm => ?_, fun m => ?_, fun m id => ?_,
      fun m p hp => ?_⟩, ?_, hinscrite.emises.trans h.emises⟩
    · rw [hinscrite.agents, Dict.keys_set]
      by_cases heq : m = context.missionId
      · exact .inl heq
      · refine .inr (h.rangee.listes m (Dict.isSome_get?.mp ?_))
        have hget := Dict.isSome_get?.mpr hm
        rwa [hinscrite.missions, if_neg heq] at hget
    · rw [agentsDe, hinscrite.agents, Dict.getD_set]
      split
      · exact List.nodup_nil
      · exact h.rangee.nodup m
    · rw [agentsDe, hinscrite.agents, Dict.getD_set]
      split
      · next heq =>
          refine ⟨fun hnil => absurd hnil List.not_mem_nil, ?_⟩
          rintro ⟨x, hx, hm⟩
          exact absurd (hm.trans heq) (hsansAgent id x hx)
      · exact h.rangee.agents m id
    · have hmission : { s with superviseur := apres }.mission m =
          if m = context.missionId then some mission else s.mission m := hinscrite.missions m
      rw [plan, hmission] at hp
      split at hp
      · rw [Option.bind_some] at hp
        cases hcreee with
        | sansPlan hsans _ =>
            rw [hsans] at hp
            cases hp
        | prete havec _ hsain _ =>
            rw [havec] at hp
            cases hp
            exact hsain
      · exact h.rangee.plans m p hp
    · rw [hvue]
      refine h.coherente.inscrire hneuve ?_ fun t st hst => ?_
      · cases hcreee with
        | sansPlan _ hetat => rcases hetat with hetat | hetat <;> rw [hetat] <;> decide
        | prete _ hetat _ _ => rw [hetat]; decide
      · cases hcreee with
        | sansPlan hsans _ =>
            rw [hsans] at hst
            cases hst
        | prete havec _ _ hpending =>
            rw [havec, Option.bind_some] at hst
            obtain ⟨node, hnode, rfl⟩ := Option.map_eq_some_iff.mp hst
            exact hpending (t, node) (Dict.mem_of_get? hnode)

end Creation

inductive Appel where
  | createMission (context : MissionContext) (tasks : List PlannedTask)
  | startMission (missionId : String)
  | pauseMission (alea : Alea) (missionId : String)
  | resumeMission (alea : Alea) (missionId : String)
  | cancelMission (alea : Alea) (missionId : String)
  | tick (alea : Alea)
  | agent (op : AgentLifecycleManager.Operation) (courante : op.Courante)

def executer (s : Supervision) : Appel → Supervision
  | .createMission context tasks => (s.createMission context tasks).1
  | .startMission missionId => (s.startMission missionId).1
  | .pauseMission alea missionId => (s.pauseMission alea missionId).1
  | .resumeMission alea missionId => (s.resumeMission alea missionId).1
  | .cancelMission alea missionId => (s.cancelMission alea missionId).1
  | .tick alea => (s.tick alea).1
  | .agent op _ => { s with lifecycle := (s.lifecycle.executer op).1 }

def Appel.estTick : Appel → Bool
  | tick _ => true
  | _ => false

/-- A supervisor without a mission, over a manager without an agent. -/
def nouvelle (strategy : PlanningStrategy) (availableCapabilities : Option (List String))
    (timeoutS : Rat) (runtimeSelector : Option (String → Option String)) : Supervision where
  superviseur := { strategy := strategy, availableCapabilities := availableCapabilities }
  lifecycle := { timeoutS := timeoutS }
  runtimeSelector := runtimeSelector

def apres (s : Supervision) (histoire : List Appel) : Supervision := histoire.foldl executer s

section Histoires

variable {s : Supervision}

theorem tenue_nouvelle (strategy : PlanningStrategy) (availableCapabilities : Option (List String))
    (timeoutS : Rat) (runtimeSelector : Option (String → Option String)) :
    (nouvelle strategy availableCapabilities timeoutS runtimeSelector).Tenue where
  rangee :=
    { cles := List.nodup_nil
      listes := fun _ hm => absurd hm List.not_mem_nil
      nodup := fun _ => List.nodup_nil
      agents := fun _ _ => ⟨fun hid => absurd hid List.not_mem_nil, fun ⟨_, hx, _⟩ => nomatch hx⟩
      plans := fun _ _ hplan => nomatch hplan }
  coherente :=
    { connues := fun _ _ _ hst => nomatch hst
      posees := fun _ _ hx => nomatch hx
      unique := fun _ _ _ _ hx => nomatch hx
      lancees := fun _ _ _ hst => nomatch hst
      innommee := fun _ hst => nomatch hst
      amont := fun _ _ _ _ harc => nomatch harc
      achevees := fun _ hm => nomatch hm }
  emises := rfl

theorem progresse_agir (l : AgentLifecycleManager) (id : String) (etat : AgentState)
    {agir : AgentLifecycleManager} (hagir : l.Progresse agir) :
    l.Progresse (match l.agents.get? id with
      | none => l
      | some agent => if agent.state = etat then agir else l) := by
  split
  · exact AgentLifecycleManager.Progresse.refl l
  · split
    · exact hagir
    · exact AgentLifecycleManager.Progresse.refl l

theorem Tenue.executer (h : s.Tenue) (appel : Appel) : (s.executer appel).Tenue := by
  cases appel with
  | createMission context tasks => exact h.createMission context tasks
  | startMission missionId => exact h.transition missionId (by decide)
  | pauseMission alea missionId =>
      exact h.changerMission alea missionId (by decide) fun l id =>
        progresse_agir l id .running (AgentLifecycleManager.progresse_transition l id _ _)
  | resumeMission alea missionId =>
      exact h.changerMission alea missionId (by decide) fun l id =>
        progresse_agir l id .paused (AgentLifecycleManager.progresse_resumeAgent l id _)
  | cancelMission alea missionId =>
      exact h.changerMission alea missionId (by decide) fun l id =>
        AgentLifecycleManager.progresse_transition l id _ _
  | tick alea => exact (tick_spec h alea).2.1
  | agent op courante => exact h.agents (AgentLifecycleManager.progresse_executer _ courante)

theorem progresse_changerMission (alea : Alea) (m : String) (target : MissionState)
    {agir : AgentLifecycleManager → String → AgentLifecycleManager}
    (hagir : ∀ l id, AgentLifecycleManager.Progresse l (agir l id)) :
    s.lifecycle.Progresse (s.changerMission alea m target agir).1.lifecycle ∧
      (s.changerMission alea m target agir).1.annonces = s.annonces := by
  unfold Supervision.changerMission
  split
  · exact ⟨AgentLifecycleManager.Progresse.refl _, rfl⟩
  · exact ⟨AgentLifecycleManager.progresse_foldl hagir _ s.lifecycle, rfl⟩

theorem progresse_executer (s : Supervision) {appel : Appel} (h : appel.estTick = false) :
    s.lifecycle.Progresse (s.executer appel).lifecycle ∧
      (s.executer appel).annonces = s.annonces := by
  cases appel with
  | createMission context tasks => exact ⟨AgentLifecycleManager.Progresse.refl _, rfl⟩
  | startMission missionId => exact ⟨AgentLifecycleManager.Progresse.refl _, rfl⟩
  | pauseMission alea missionId =>
      exact progresse_changerMission alea missionId .paused fun l id =>
        progresse_agir l id .running (AgentLifecycleManager.progresse_transition l id _ _)
  | resumeMission alea missionId =>
      exact progresse_changerMission alea missionId .running fun l id =>
        progresse_agir l id .paused (AgentLifecycleManager.progresse_resumeAgent l id _)
  | cancelMission alea missionId =>
      exact progresse_changerMission alea missionId .cancelled fun l id =>
        AgentLifecycleManager.progresse_transition l id _ _
  | tick alea => cases h
  | agent op courante =>
      exact ⟨AgentLifecycleManager.progresse_executer s.lifecycle courante, rfl⟩

theorem Tenue.apres (h : s.Tenue) (histoire : List Appel) : (s.apres histoire).Tenue := by
  induction histoire generalizing s with
  | nil => exact h
  | cons appel histoire ih => exact ih (h.executer appel)

theorem fiche_executer (h : s.Tenue) (appel : Appel) {id : String} {x : Fiche}
    (hx : s.vue.fiche id = some x) :
    ∃ x', (s.executer appel).vue.fiche id = some x' ∧ x'.mission = x.mission ∧
      x'.tache = x.tache ∧ (x.etat.terminal = true → x'.etat = x.etat) := by
  cases htick : appel.estTick with
  | true =>
      cases appel with
      | tick alea =>
          refine ⟨x, ?_, rfl, rfl, fun _ => rfl⟩
          rcases fiche_of_tour (tick_spec h alea).2.2.1 id with heq | ⟨hnone, -⟩
          · exact heq.trans hx
          · rw [hx] at hnone
            cases hnone
      | _ => cases htick
  | false =>
      have hevolue := (progresse_executer s htick).1 id
      have hx' : s.lifecycle.fiche id = some x := hx
      rw [hx'] at hevolue
      cases hsuite : (s.executer appel).lifecycle.fiche id with
      | none =>
          rw [hsuite] at hevolue
          cases hevolue
      | some x' =>
          rw [hsuite] at hevolue
          cases hevolue with
          | present hmission htache hfin => exact ⟨x', hsuite, hmission, htache, hfin⟩

theorem fiche_apres (h : s.Tenue) (histoire : List Appel) {id : String} {x : Fiche}
    (hx : s.vue.fiche id = some x) :
    ∃ x', (s.apres histoire).vue.fiche id = some x' ∧ x'.mission = x.mission ∧
      x'.tache = x.tache ∧ (x.etat.terminal = true → x'.etat = x.etat) := by
  induction histoire generalizing s x with
  | nil => exact ⟨x, hx, rfl, rfl, fun _ => rfl⟩
  | cons appel histoire ih =>
      obtain ⟨x', hx', hmission, htache, hfin⟩ := fiche_executer h appel hx
      obtain ⟨x'', hx'', hmission', htache', hfin'⟩ := ih (h.executer appel) hx'
      refine ⟨x'', hx'', hmission'.trans hmission, htache'.trans htache, fun hterminal => ?_⟩
      have hetat := hfin hterminal
      exact (hfin' (hetat ▸ hterminal)).trans hetat

end Histoires

end Supervisor.Supervision

end Hermes.Agent
