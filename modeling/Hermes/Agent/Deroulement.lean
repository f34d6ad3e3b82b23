import Hermes.Agent.Supervision

/-! # What a tick does

The three phases of the tick of a mission, read in the missions that are driven: a tick is a
sequence of the things that a tick may do, and announces what it finds ended.
-/

namespace Hermes.Agent.Supervisor.Supervision

open Lib Lifecycle Conduite
open Relation (ReflTransGen)
open TaskPlanner (TaskPlan)

def annonce : AgentState → List SupervisorEvent
  | .completed => [.agentCompleted]
  | .failed => [.agentFailed]
  | _ => []

/-- What a tick announces of the end of an agent. -/
def annonceDe (m id : String) (x : Fiche) : List (String × SupervisorEvent × String) :=
  if x.tache = "" then [] else (annonce x.etat).map fun event => (id, event, m)

/-- What a tick announces of an agent of the mission. -/
def aAnnoncer (s : Supervision) (m id : String) : List (String × SupervisorEvent × String) :=
  match s.vue.fiche id with
  | none => []
  | some x => annonceDe m id x

structure Avance (m : String) (s s' : Supervision) : Prop where
  tenue : s'.Tenue
  gestes : ReflTransGen (Geste m) s.vue s'.vue

section Releve

variable {s : Supervision} {m id : String}

theorem Avance.refl (h : s.Tenue) (m : String) : Avance m s s := ⟨h, .refl⟩

theorem Avance.trans {s' s'' : Supervision} (h : Avance m s s') (h' : Avance m s' s'') :
    Avance m s s'' := ⟨h'.tenue, h.gestes.trans h'.gestes⟩

/-- What a scan of the agents does: those that have ended are announced, and their tasks marked. -/
structure Releve (m : String) (l : List String) (s s' : Supervision) : Prop where
  avance : Avance m s s'
  annonces : s'.annonces = s.annonces ++ l.flatMap (s.aAnnoncer m)
  lifecycle : s'.lifecycle = s.lifecycle
  agents : s'.agentsDe = s.agentsDe
  etat : s'.vue.etat = s.vue.etat
  marques : ∀ id ∈ l, ∀ x st, s.vue.fiche id = some x → x.tache ≠ "" →
    marque x.etat = some st → s'.vue.statut m x.tache = some st
  stables : ∀ id x st, s.vue.fiche id = some x → x.mission = m → marque x.etat = some st →
    s.vue.statut m x.tache = some st → s'.vue.statut m x.tache = some st

theorem Releve.refl (h : s.Tenue) (m : String) : Releve m [] s s :=
  ⟨Avance.refl h m, (List.append_nil _).symm, rfl, rfl, rfl,
    fun _ hid => absurd hid List.not_mem_nil, fun _ _ _ _ _ _ hst => hst⟩

theorem Releve.trans {l l' : List String} {s' s'' : Supervision} (h : Releve m l s s')
    (h' : Releve m l' s' s'') (hl : ∀ id ∈ l, id ∈ s.agentsDe m) (htenue : s.Tenue) :
    Releve m (l ++ l') s s'' := by
  have hfiche : s'.vue.fiche = s.vue.fiche := by
    funext id
    simp only [vue, agent, h.lifecycle]
  have hmeme : s'.aAnnoncer m = s.aAnnoncer m := by
    funext id
    rw [aAnnoncer, hfiche, aAnnoncer]
  refine ⟨h.avance.trans h'.avance, ?_, h'.lifecycle.trans h.lifecycle, h'.agents.trans h.agents,
    h'.etat.trans h.etat, fun id hid x st hx hnom hmarque => ?_,
    fun id x st hx hmission hmarque hst => ?_⟩
  · rw [h'.annonces, h.annonces, hmeme, List.append_assoc, List.flatMap_append]
  · rcases List.mem_append.mp hid with hid | hid
    · obtain ⟨x', hx', hmission⟩ := (htenue.rangee.agents m id).mp (hl id hid)
      rw [hx] at hx'
      cases hx'
      exact h'.stables id x st (hfiche ▸ hx) hmission hmarque
        (h.marques id hid x st hx hnom hmarque)
    · exact h'.marques id hid x st (hfiche ▸ hx) hnom hmarque
  · exact h'.stables id x st (hfiche ▸ hx) hmission hmarque (h.stables id x st hx hmission hmarque hst)

theorem releve_annoncer (h : s.Tenue) {x : Fiche} {status : NodeStatus} {event : SupervisorEvent}
    (hx : s.vue.fiche id = some x) (hmission : x.mission = m) (hnom : x.tache ≠ "")
    (hmarque : marque x.etat = some status) (hfinale : finale (event, m) = true)
    (hannonce : annonceDe m id x = [(id, event, m)]) :
    Releve m [id] s (s.annoncer m id x.tache status event) := by
  subst hmission
  obtain ⟨st, hst, -⟩ := h.coherente.posees id x hx
  obtain ⟨s', hs'⟩ := exists_marquer hst status
  have hrangee := h.rangee.marquer hs'
  have hvue := vue_marquer hs'
  have hgeste : Geste x.mission s.vue s'.vue := hvue ▸ .releve hx rfl hnom hmarque
  have hmarques : ∀ id' x' st', s.vue.fiche id' = some x' → x'.mission = x.mission →
      marque x'.etat = some st' → (id' = id ∨ s.vue.statut x.mission x'.tache = some st') →
      s'.vue.statut x.mission x'.tache = some st' := by
    intro id' x' st' hx' hmission' hmarque' hou
    rw [hvue]
    simp only [Vue.poserStatut, true_and]
    by_cases htache : x'.tache = x.tache
    · -- the same task, hence the same agent
      have hid := h.coherente.unique id' id x' x hx' hx hmission' htache
      rw [hid, hx] at hx'
      cases hx'
      rw [if_pos rfl, ← hmarque, hmarque']
    · rw [if_neg htache]
      rcases hou with hid | hst'
      · rw [hid, hx] at hx'
        cases hx'
        exact absurd rfl htache
      · exact hst'
  have haAnnoncer : s.aAnnoncer x.mission id = [(id, event, x.mission)] := by
    rw [aAnnoncer, hx]
    exact hannonce
  have hetat : s'.vue.etat = s.vue.etat := by
    rw [hvue]
    rfl
  obtain ⟨mission, plan, g', -, -, -, rfl⟩ := marquer_eq_some hs'
  unfold annoncer
  rw [hs']
  dsimp only
  refine ⟨⟨⟨⟨hrangee.cles, hrangee.listes, hrangee.nodup, hrangee.agents, hrangee.plans⟩,
    h.coherente.geste hgeste, ?_⟩, .single hgeste⟩, ?_, rfl, rfl, hetat,
    fun id' hid' x' st' hx' hnom' hmarque' => ?_,
    fun id' x' st' hx' hmission' hmarque' hst' =>
      hmarques id' x' st' hx' hmission' hmarque' (.inr hst')⟩
  · change (s.superviseur.evenements ++ [(event, x.mission)]).filter finale =
      (s.annonces ++ [(id, event, x.mission)]).map Prod.snd
    rw [List.filter_append, List.map_append, h.emises, List.filter_singleton, hfinale]
    rfl
  · rw [List.flatMap_cons, List.flatMap_nil, List.append_nil, haAnnoncer]
  · have hid := List.mem_singleton.mp hid'
    rw [hid, hx] at hx'
    cases hx'
    exact hmarques id x st' hx rfl hmarque' (.inl rfl)

theorem releve_releverAgent (h : s.Tenue) (hid : id ∈ s.agentsDe m) :
    Releve m [id] s (releverAgent m s id) := by
  obtain ⟨x, hx, hmission⟩ := (h.rangee.agents m id).mp hid
  obtain ⟨agent, hagent, rfl⟩ := Option.map_eq_some_iff.mp hx
  -- an agent whose end says nothing
  have hrien : annonceDe m id ⟨agent.context.missionId, agent.context.taskId, agent.state⟩ = [] →
      (agent.context.taskId ≠ "" → marque agent.state = none) → Releve m [id] s s := by
    intro haucune hnulle
    refine ⟨Avance.refl h m, ?_, rfl, rfl, rfl, fun id' hid' x st hx' hnom hmarque => ?_,
      fun _ _ _ _ _ _ hst => hst⟩
    · rw [List.flatMap_cons, List.flatMap_nil, List.append_nil, aAnnoncer, hx]
      dsimp only
      rw [haucune, List.append_nil]
    · rw [List.mem_singleton.mp hid', hx] at hx'
      cases hx'
      rw [hnulle hnom] at hmarque
      cases hmarque
  unfold releverAgent
  rw [hagent]
  dsimp only
  by_cases hnom : agent.context.taskId = ""
  · rw [if_pos hnom]
    exact hrien (if_pos hnom) fun hnon => absurd hnom hnon
  · rw [if_neg hnom]
    cases hetat : agent.state with
    | completed =>
        refine releve_annoncer h hx hmission hnom ?_ rfl ?_
        · dsimp only
          rw [hetat]
          rfl
        · rw [annonceDe, if_neg hnom, hetat]
          rfl
    | failed =>
        refine releve_annoncer h hx hmission hnom ?_ rfl ?_
        · dsimp only
          rw [hetat]
          rfl
        · rw [annonceDe, if_neg hnom, hetat]
          rfl
    | _ =>
        refine hrien ?_ fun _ => by rw [hetat]; rfl
        rw [annonceDe, if_neg hnom, hetat]
        rfl

theorem releve_foldl (h : s.Tenue) {l : List String} (hl : ∀ id ∈ l, id ∈ s.agentsDe m) :
    Releve m l s (l.foldl (releverAgent m) s) := by
  induction l generalizing s with
  | nil => exact Releve.refl h m
  | cons id l ih =>
      have hun := releve_releverAgent h (hl id List.mem_cons_self)
      have hsuite := ih hun.avance.tenue fun id' hid' => by
        rw [hun.agents]
        exact hl id' (List.mem_cons_of_mem _ hid')
      rw [List.foldl_cons, ← List.singleton_append]
      refine hun.trans hsuite (fun id' hid' => ?_) h
      rw [List.mem_singleton.mp hid']
      exact hl id List.mem_cons_self

theorem releve_relever (h : s.Tenue) (alea : Alea) (m : String) :
    Releve m (alea.parcours (s.agentsDe m)) s (s.relever alea m) :=
  releve_foldl h fun _ hid => (alea.perm _).mem_iff.mp hid

end Releve

section Lancement

variable {s : Supervision} {m t : String}

theorem createAgent_startAgent {l : AgentLifecycleManager} {context : AgentContext}
    (h : context.id ∉ l.agents.keys) (createdAt now now' : Rat) :
    ∃ l' l'' x y, l.createAgent context createdAt now = (l', .ok x) ∧ x.id = context.id ∧
      l'.startAgent context.id now' = (l'', .ok y) ∧
      ∀ id, (l''.agents.get? id).map (fun y => Fiche.mk y.context.missionId y.context.taskId y.state)
        = if id = context.id then some ⟨context.missionId, context.taskId, .running⟩
          else (l.agents.get? id).map fun y => ⟨y.context.missionId, y.context.taskId, y.state⟩ := by
  obtain ⟨x, hok, hagents, hstate, hcontext, hid, -⟩ :=
    AgentLifecycleManager.createAgent_neuf h createdAt now
  have hget : (l.createAgent context createdAt now).1.agents.get? context.id = some x := by
    rw [hagents, Dict.get?_set_self]
  have hpret : AgentLifecycleManager.refus context.id x.state .running = none := by
    rw [hstate]
    rfl
  refine ⟨_, _, x, _, Prod.ext rfl hok, hid,
    AgentLifecycleManager.transition_ok hget hpret now', fun id => ?_⟩
  simp only [AgentLifecycleManager.emit, AgentLifecycleManager.ranger, hagents, Dict.get?_set]
  split
  · rw [Option.map_some, AgentLifecycleManager.context_avancer,
      AgentLifecycleManager.state_avancer, hcontext]
  · rfl

theorem Rangee.inscrireAgent {s' : Supervision} {id : String} {x : Fiche} (h : s.Rangee)
    (hmissions : s'.superviseur.missions = s.superviseur.missions)
    (hlistes : ∀ m ∈ s.superviseur.missionAgents.keys, m ∈ s'.superviseur.missionAgents.keys)
    (hde : ∀ m, s'.agentsDe m = if m = x.mission then (s.agentsDe m).insert id else s.agentsDe m)
    (hvue : s'.vue = s.vue.poserFiche id x) (hlibre : s.vue.fiche id = none) : s'.Rangee := by
  refine ⟨?_, fun m hm => ?_, fun m => ?_, fun m id' => ?_, fun m p hp => ?_⟩
  · rw [hmissions]
    exact h.cles
  · rw [hmissions] at hm
    exact hlistes m (h.listes m hm)
  · rw [hde]
    split
    · exact (h.nodup m).insert
    · exact h.nodup m
  · rw [hde, hvue]
    simp only [Vue.poserFiche]
    by_cases hid : id' = id
    · rw [if_pos hid, hid]
      by_cases hm : m = x.mission
      · simp [hm]
      · rw [if_neg hm, h.agents, hlibre]
        simp [Ne.symm hm]
    · rw [if_neg hid, ← h.agents]
      by_cases hm : m = x.mission
      · simp [hm, hid]
      · rw [if_neg hm]
  · have hplan : s'.plan m = s.plan m := by simp only [plan, mission, hmissions]
    exact h.plans m p (hplan ▸ hp)

theorem creerAgent_spec (h : s.Tenue) (hetat : s.vue.etat m = some .running)
    (hstatut : s.vue.statut m t = some .pending)
    (hamont : ∀ u, (u, t) ∈ s.vue.arcs m → s.vue.statut m u = some .completed)
    (alea : Alea) (task : PlannedTask) :
    (s.vue.fiche (alea.identifiant m t) ≠ none ∧ s.creerAgent alea m task t = s) ∨
      (s.vue.fiche (alea.identifiant m t) = none ∧ Avance m s (s.creerAgent alea m task t) ∧
        (s.creerAgent alea m task t).annonces = s.annonces ∧
        (s.creerAgent alea m task t).vue =
          (s.vue.poserFiche (alea.identifiant m t) ⟨m, t, .running⟩).poserStatut m t .running) := by
  have hfiche : s.vue.fiche (alea.identifiant m t) = none ↔
      alea.identifiant m t ∉ s.lifecycle.agents.keys := by
    rw [← Dict.isSome_get?, Bool.not_eq_true, Option.isSome_eq_false_iff, Option.isNone_iff_eq_none]
    exact Option.map_eq_none_iff
  by_cases hpris : alea.identifiant m t ∈ s.lifecycle.agents.keys
  · refine .inl ⟨fun hnone => hfiche.mp hnone hpris, ?_⟩
    have hrefus : (s.contexte alea m task t).id ∈ s.lifecycle.agents.keys := hpris
    unfold creerAgent
    dsimp only
    rw [AgentLifecycleManager.createAgent, if_pos hrefus]
  · have hlibre := hfiche.mpr hpris
    refine .inr ⟨hlibre, ?_⟩
    obtain ⟨mission, hmission, -⟩ := Option.map_eq_some_iff.mp hetat
    have hconnue : m ∈ s.superviseur.missions.keys :=
      Dict.isSome_get?.mp (by rw [show s.superviseur.missions.get? m = _ from hmission]; rfl)
    obtain ⟨agents, hagents⟩ :=
      Option.isSome_iff_exists.mp (Dict.isSome_get?.mpr (h.rangee.listes m hconnue))
    obtain ⟨l', l'', x, y, hcreate, hid, hstart, hlus⟩ :=
      @createAgent_startAgent s.lifecycle (s.contexte alea m task t) hpris
        (alea.horloge (alea.identifiant m t) 0) (alea.horloge (alea.identifiant m t) 1)
        (alea.horloge (alea.identifiant m t) 2)
    -- the state once the agent is started
    obtain ⟨s', hs'⟩ : ∃ s', s' = { s with
        superviseur := { s.superviseur with
          missionAgents := s.superviseur.missionAgents.set m
            (agents.insert (alea.identifiant m t)) }
        lifecycle := l'' } := ⟨_, rfl⟩
    have hvue : s'.vue = s.vue.poserFiche (alea.identifiant m t) ⟨m, t, .running⟩ := by
      rw [hs']
      refine Vue.ext rfl rfl rfl (funext fun id => hlus id)
    have hliste : s.agentsDe m = agents := by rw [agentsDe, Dict.getD, hagents, Option.getD_some]
    have hrangee : s'.Rangee := by
      refine h.rangee.inscrireAgent (by rw [hs']) (fun m' hm' => ?_) (fun m' => ?_) hvue hlibre
      · rw [hs']
        exact (Dict.keys_set _ _ _ _).mpr (.inr hm')
      · rw [hs']
        refine (Dict.getD_set _ _ _ _ _).trans ?_
        by_cases hm' : m' = m
        · rw [if_pos hm', if_pos hm', hm', hliste]
        · rw [if_neg hm', if_neg hm']
          rfl
    have hstatut' : s'.vue.statut m t = some .pending := by
      rw [hvue]
      exact hstatut
    obtain ⟨s'', hs''⟩ := exists_marquer hstatut' .running
    have hrangee'' := hrangee.marquer hs''
    have hvue'' := vue_marquer hs''
    rw [hvue] at hvue''
    have hgeste : Geste m s.vue s''.vue := hvue'' ▸ .lance hetat hstatut hamont hlibre
    have heq : s.creerAgent alea m task t =
        (s''.emit .agentCreated m).emit .taskReady m := by
      have hcontexte : (s.contexte alea m task t).id = alea.identifiant m t := rfl
      rw [hcontexte] at hid hstart
      unfold creerAgent
      simp only [hcreate, hagents, hid, hstart]
      rw [← hs', hs'']
    obtain ⟨hevenements, hannonces⟩ : s''.superviseur.evenements = s.superviseur.evenements ∧
        s''.annonces = s.annonces := by
      obtain ⟨_, _, _, -, -, -, rfl⟩ := marquer_eq_some hs''
      rw [hs']
      exact ⟨rfl, rfl⟩
    rw [heq]
    refine ⟨⟨⟨⟨hrangee''.cles, hrangee''.listes, hrangee''.nodup, hrangee''.agents,
      hrangee''.plans⟩, h.coherente.geste hgeste, ?_⟩, .single hgeste⟩, hannonces, hvue''⟩
    change (s''.superviseur.evenements ++ [(SupervisorEvent.agentCreated, m)] ++
      [(SupervisorEvent.taskReady, m)]).filter finale = s''.annonces.map Prod.snd
    rw [hevenements, hannonces, List.filter_append, List.filter_append, h.emises]
    simp [finale]

theorem mem_dependencies {g : ExecutionGraph} {gPlan : GraphExecutionPlan}
    (hplan : g.generatePlan = .ok gPlan) (ht : t ∈ g.nodes.keys) (u : String) :
    u ∈ gPlan.dependencies.getD t [] ↔ (u, t) ∈ arcs g.edges := by
  have hdependencies : gPlan.dependencies = g.nodes.keys.map fun id => (id, g.dependenciesDe id) := by
    unfold ExecutionGraph.generatePlan at hplan
    split at hplan
    · cases hplan
    · split at hplan
      · cases hplan
      · cases hplan
        rfl
  have hkeys : (Dict.keys (g.nodes.keys.map fun id => (id, g.dependenciesDe id))).Nodup := by
    simpa [Dict.keys, Function.comp_def] using g.cles
  have hget := Dict.get?_of_mem hkeys (List.mem_map_of_mem (f := fun id => (id, g.dependenciesDe id)) ht)
  rw [hdependencies, Dict.getD, hget, Option.getD_some]
  simp only [ExecutionGraph.dependenciesDe, List.mem_map, List.mem_filter, decide_eq_true_eq, arcs]
  constructor
  · rintro ⟨e, ⟨he, rfl⟩, rfl⟩
    exact ⟨e, he, rfl⟩
  · rintro ⟨e, he, heq⟩
    cases heq
    exact ⟨e, ⟨he, rfl⟩, rfl⟩

/-- The plan of a tick, read against the missions as they are. -/
structure PlanDuTick (s : Supervision) (m : String) (gPlan : GraphExecutionPlan) : Prop where
  amont : ∀ t u, s.vue.statut m t ≠ none →
    (u ∈ gPlan.dependencies.getD t [] ↔ (u, t) ∈ s.vue.arcs m)
  niveaux : ∀ t, s.vue.statut m t ≠ none ↔ t ∈ gPlan.levels.flatten

theorem predecesseursFaits_iff {g : ExecutionGraph} (hg : s.graphe m = some g)
    (gPlan : GraphExecutionPlan) : predecesseursFaits g gPlan t = true ↔
      ∀ u ∈ gPlan.dependencies.getD t [], s.vue.statut m u = some .completed := by
  unfold predecesseursFaits
  rw [List.all_eq_true]
  refine forall₂_congr fun u _ => ?_
  simp only [vue, hg, Option.bind_some]
  cases g.nodes.get? u with
  | none => simp
  | some node => simp

theorem lancerTache_spec (h : s.Tenue) (hetat : s.vue.etat m = some .running)
    {gPlan : GraphExecutionPlan} (hplan : s.PlanDuTick m gPlan) (alea : Alea)
    (tasks : Dict String PlannedTask) (t : String) :
    (lancerTache alea tasks gPlan m s t = s ∧ (s.vue.statut m t = some .pending →
        (∀ u, (u, t) ∈ s.vue.arcs m → s.vue.statut m u = some .completed) →
        tasks.get? t ≠ none → s.vue.fiche (alea.identifiant m t) ≠ none)) ∨
      (s.vue.statut m t = some .pending ∧ s.vue.fiche (alea.identifiant m t) = none ∧
        Avance m s (lancerTache alea tasks gPlan m s t) ∧
        (lancerTache alea tasks gPlan m s t).annonces = s.annonces ∧
        (lancerTache alea tasks gPlan m s t).vue =
          (s.vue.poserFiche (alea.identifiant m t) ⟨m, t, .running⟩).poserStatut m t .running) := by
  unfold lancerTache
  cases hg : s.graphe m with
  | none =>
      refine .inl ⟨rfl, fun hpending => ?_⟩
      simp [vue, hg] at hpending
  | some g =>
      dsimp only
      cases hnode : g.nodes.get? t with
      | none =>
          refine .inl ⟨rfl, fun hpending => ?_⟩
          simp [vue, hg, hnode] at hpending
      | some node =>
          dsimp only
          have hstatut : s.vue.statut m t = some node.status := by simp [vue, hg, hnode]
          have hamont : predecesseursFaits g gPlan t = true ↔
              ∀ u, (u, t) ∈ s.vue.arcs m → s.vue.statut m u = some .completed := by
            rw [predecesseursFaits_iff hg]
            refine forall_congr' fun u => ?_
            rw [hplan.amont t u (by rw [hstatut]; exact Option.some_ne_none _)]
          by_cases hpending : node.status = .pending
          · rw [if_neg (not_not.mpr hpending)]
            rw [hpending] at hstatut
            by_cases hfaits : predecesseursFaits g gPlan t = true
            · rw [if_pos hfaits]
              cases htask : tasks.get? t with
              | none => exact .inl ⟨rfl, fun _ _ hconnue => absurd rfl hconnue⟩
              | some task =>
                  rcases creerAgent_spec h hetat hstatut (hamont.mp hfaits) alea task with
                    ⟨hpris, heq⟩ | ⟨hlibre, havance, hannonces, hvue⟩
                  · exact .inl ⟨heq, fun _ _ _ => hpris⟩
                  · exact .inr ⟨hstatut, hlibre, havance, hannonces, hvue⟩
            · rw [if_neg hfaits]
              exact .inl ⟨rfl, fun _ hcomplets => absurd (hamont.mpr hcomplets) hfaits⟩
          · rw [if_pos hpending]
            refine .inl ⟨rfl, fun hfalse => ?_⟩
            rw [hstatut] at hfalse
            exact absurd (Option.some.inj hfalse) hpending

/-- What a scan of the tasks does: some tasks are given an agent, and those that wait for nothing
more are unless the id that is drawn is taken. -/
structure Lance (alea : Alea) (tasks : Dict String PlannedTask) (m : String) (l : List String)
    (s s' : Supervision) : Prop where
  avance : Avance m s s'
  annonces : s'.annonces = s.annonces
  etat : s'.vue.etat = s.vue.etat
  statut : ∀ m' t, s'.vue.statut m' t = s.vue.statut m' t ∨
    (s.vue.statut m' t = some .pending ∧ s'.vue.statut m' t = some .running)
  fiches : ∀ id x, s'.vue.fiche id = some x → s.vue.fiche id = some x ∨
    (id = alea.identifiant m x.tache ∧ x.mission = m)
  lancees : ∀ t ∈ l, (∀ u, (u, t) ∈ s.vue.arcs m → s.vue.statut m u = some .completed) →
    tasks.get? t ≠ none → s'.vue.statut m t = some .pending →
      s'.vue.fiche (alea.identifiant m t) ≠ none

theorem PlanDuTick.congr {s' : Supervision} {gPlan : GraphExecutionPlan}
    (h : s.PlanDuTick m gPlan) (harcs : s'.vue.arcs = s.vue.arcs)
    (hstatut : ∀ t, s'.vue.statut m t ≠ none ↔ s.vue.statut m t ≠ none) :
    s'.PlanDuTick m gPlan := by
  refine ⟨fun t u ht => ?_, fun t => (hstatut t).trans (h.niveaux t)⟩
  rw [harcs]
  exact h.amont t u ((hstatut t).mp ht)

theorem lance_lancerTache (h : s.Tenue) (hetat : s.vue.etat m = some .running)
    {gPlan : GraphExecutionPlan} (hplan : s.PlanDuTick m gPlan) (alea : Alea)
    (tasks : Dict String PlannedTask) (t : String) :
    Lance alea tasks m [t] s (lancerTache alea tasks gPlan m s t) := by
  rcases lancerTache_spec h hetat hplan alea tasks t with ⟨heq, hpris⟩ | ⟨hpending, hlibre, havance,
    hannonces, hvue⟩
  · rw [heq]
    refine ⟨Avance.refl h m, rfl, rfl, fun _ _ => .inl rfl, fun _ _ hx => .inl hx,
      fun t' ht' hamont hconnue hreste => ?_⟩
    rw [List.mem_singleton.mp ht'] at hamont hconnue hreste ⊢
    exact hpris hreste hamont hconnue
  · refine ⟨havance, hannonces, by rw [hvue]; rfl, fun m' t' => ?_, fun id x hx => ?_,
      fun t' ht' _ _ hreste => ?_⟩
    · rw [hvue]
      simp only [Vue.poserStatut, Vue.poserFiche]
      split
      · next heq =>
          rw [heq.1, heq.2]
          exact .inr ⟨hpending, rfl⟩
      · exact .inl rfl
    · rw [hvue] at hx
      simp only [Vue.poserStatut, Vue.poserFiche] at hx
      split at hx
      · next heq =>
          cases hx
          exact .inr ⟨heq, rfl⟩
      · exact .inl hx
    · rw [List.mem_singleton.mp ht', hvue] at hreste
      simp [Vue.poserStatut, Vue.poserFiche] at hreste

theorem Lance.trans {alea : Alea} {tasks : Dict String PlannedTask} {l l' : List String}
    {s' s'' : Supervision} (h : Lance alea tasks m l s s') (h' : Lance alea tasks m l' s' s'') :
    Lance alea tasks m (l ++ l') s s'' := by
  have harcs := arcs_of_tour (tour_of_gestes h.avance.gestes)
  have hreste : ∀ t, s''.vue.statut m t = some .pending → s'.vue.statut m t = some .pending := by
    intro t ht
    rcases h'.statut m t with heq | ⟨hpending, -⟩
    · rw [← heq, ht]
    · exact hpending
  refine ⟨h.avance.trans h'.avance, h'.annonces.trans h.annonces, h'.etat.trans h.etat,
    fun m' t => ?_, fun id x hx => ?_, fun t ht hamont hconnue hpending => ?_⟩
  · rcases h'.statut m' t with heq' | ⟨hpending, hrunning⟩
    · rw [heq']
      exact h.statut m' t
    · rcases h.statut m' t with heq | ⟨-, hfalse⟩
      · exact .inr ⟨heq ▸ hpending, hrunning⟩
      · rw [hpending] at hfalse
        cases hfalse
  · rcases h'.fiches id x hx with hx | hneuve
    · exact h.fiches id x hx
    · exact .inr hneuve
  · rcases List.mem_append.mp ht with ht | ht
    · have hpris := h.lancees t ht hamont hconnue (hreste t hpending)
      rcases fiche_of_tour (tour_of_gestes h'.avance.gestes) (alea.identifiant m t) with heq | hneuf
      · rwa [heq]
      · exact absurd hneuf.1 hpris
    · refine h'.lancees t ht (fun u harc => ?_) hconnue hpending
      rw [harcs] at harc
      rcases h.statut m u with heq | ⟨hfalse, -⟩
      · rw [heq]
        exact hamont u harc
      · rw [hamont u harc] at hfalse
        cases hfalse

theorem foldl_lancerTache (h : s.Tenue) (hetat : s.vue.etat m = some .running)
    {gPlan : GraphExecutionPlan} (hplan : s.PlanDuTick m gPlan) (alea : Alea)
    (tasks : Dict String PlannedTask) (l : List String) :
    Lance alea tasks m l s (l.foldl (lancerTache alea tasks gPlan m) s) := by
  induction l generalizing s with
  | nil =>
      exact ⟨Avance.refl h m, rfl, rfl, fun _ _ => .inl rfl, fun _ _ hx => .inl hx,
        fun t ht => absurd ht List.not_mem_nil⟩
  | cons t l ih =>
      have hun := lance_lancerTache h hetat hplan alea tasks t
      have hconnues : ∀ t', (lancerTache alea tasks gPlan m s t).vue.statut m t' ≠ none ↔
          s.vue.statut m t' ≠ none := by
        intro t'
        rcases hun.statut m t' with heq | ⟨hpending, hrunning⟩
        · rw [heq]
        · simp [hpending, hrunning]
      rw [List.foldl_cons, ← List.singleton_append]
      exact hun.trans (ih hun.avance.tenue (by rw [hun.etat, hetat])
        (hplan.congr (arcs_of_tour (tour_of_gestes hun.avance.gestes)) hconnues))

end Lancement

section Mission

variable {s : Supervision} {m : String} {plan : TaskPlan}

theorem statut_of_plan (h : s.plan m = some plan) (t : String) :
    s.vue.statut m t = (plan.executionGraph.nodes.get? t).map AgentNode.status := by
  simp only [vue, graphe, h, Option.map_some, Option.bind_some]

theorem arcs_of_plan (h : s.plan m = some plan) :
    s.vue.arcs m = arcs plan.executionGraph.edges := by
  simp only [vue, h, Option.map_some, Option.getD_some]

theorem statut_ne_none_iff (h : s.plan m = some plan) (hsain : PlanSain plan) (t : String) :
    s.vue.statut m t ≠ none ↔ t ∈ ids plan.tasks := by
  rw [statut_of_plan h, ← hsain.noeuds, ← Dict.isSome_get?, ne_eq, Option.map_eq_none_iff,
    ← ne_eq, Option.isSome_iff_ne_none]

theorem planDuTick_of_generatePlan (h : s.plan m = some plan) (hsain : PlanSain plan)
    {gPlan : GraphExecutionPlan} (hplan : plan.executionGraph.generatePlan = .ok gPlan) :
    s.PlanDuTick m gPlan := by
  refine ⟨fun t u ht => ?_, fun t => ?_⟩
  · rw [statut_ne_none_iff h hsain, ← hsain.noeuds] at ht
    rw [arcs_of_plan h]
    exact mem_dependencies hplan ht u
  · rw [statut_ne_none_iff h hsain, ← hsain.noeuds]
    exact (hsain.bien.planFidele hplan).partage.mem_iff.symm

theorem tous_faits (hsain : PlanSain plan) (fait : String → Prop)
    (hamont : ∀ u v, (u, v) ∈ arcs plan.executionGraph.edges → fait v → fait u)
    (hfeuilles : ∀ v ∈ plan.executionGraph.nodes.keys,
      (∀ w, (v, w) ∉ arcs plan.executionGraph.edges) → fait v) :
    ∀ v ∈ plan.executionGraph.nodes.keys, fait v := by
  classical
  have hrestes : plan.executionGraph.nodes.keys.filter (fun v => ¬ fait v) = [] := by
    refine Kahn.eq_nil_of_successeurs hsain.bien.acyclique fun u hu => ?_
    obtain ⟨hmem, hreste⟩ := List.mem_filter.mp hu
    have hreste : ¬ fait u := of_decide_eq_true hreste
    by_contra hnot
    refine hreste (hfeuilles u hmem fun w harc => hnot ⟨w, ?_, harc⟩)
    refine List.mem_filter.mpr ⟨(hsain.bien.extremites _ harc).2, ?_⟩
    exact decide_eq_true fun hw => hreste (hamont u w harc hw)
  intro v hv
  by_contra hnot
  have hreste : v ∈ plan.executionGraph.nodes.keys.filter (fun v => ¬ fait v) :=
    List.mem_filter.mpr ⟨hv, decide_eq_true hnot⟩
  rw [hrestes] at hreste
  cases hreste

theorem mem_getLeaves (hsain : PlanSain plan) {node : AgentNode} :
    node ∈ plan.executionGraph.getLeaves ↔
      plan.executionGraph.nodes.get? node.id = some node ∧
        ∀ w, (node.id, w) ∉ arcs plan.executionGraph.edges := by
  have hsource : node.id ∉ plan.executionGraph.edges.map AgentEdge.source ↔
      ∀ w, (node.id, w) ∉ arcs plan.executionGraph.edges := by
    simp only [arcs, List.mem_map, not_exists, not_and, Prod.mk.injEq]
    exact ⟨fun h w e he hid _ => h e he hid, fun h e he hid => h e.target e he hid rfl⟩
  rw [ExecutionGraph.getLeaves, List.mem_filter, decide_eq_true_eq, hsource, List.mem_map]
  refine and_congr_left fun _ => ⟨?_, fun hget => ⟨_, Dict.mem_of_get? hget, rfl⟩⟩
  rintro ⟨item, hitem, rfl⟩
  rw [hsain.noms item hitem]
  exact Dict.get?_of_mem plan.executionGraph.cles hitem

theorem termine_iff (hplan : s.plan m = some plan) (hsain : PlanSain plan)
    (hcoherente : Coherente s.vue) :
    plan.executionGraph.termine = true ↔
      plan.tasks ≠ [] ∧ ∀ t ∈ ids plan.tasks, s.vue.statut m t = some .completed := by
  have hkeys : plan.executionGraph.nodes.keys ≠ [] ↔ plan.tasks ≠ [] := by
    rw [hsain.noeuds, ids, ne_eq, List.map_eq_nil_iff]
  have hnode : ∀ v ∈ plan.executionGraph.nodes.keys, ∃ node,
      plan.executionGraph.nodes.get? v = some node ∧ node.id = v := by
    intro v hv
    obtain ⟨node, hget⟩ := Option.isSome_iff_exists.mp (Dict.isSome_get?.mpr hv)
    exact ⟨node, hget, hsain.noms (v, node) (Dict.mem_of_get? hget)⟩
  rw [ExecutionGraph.termine, decide_eq_true_eq, List.all_eq_true]
  simp only [decide_eq_true_eq]
  rw [← hkeys, ← hsain.noeuds]
  constructor
  · rintro ⟨hfeuilles, hfaites⟩
    constructor
    · intro hvide
      obtain ⟨node, hnode⟩ := List.exists_mem_of_ne_nil _ hfeuilles
      have hmem := Dict.isSome_get?.mp
        (Option.isSome_iff_exists.mpr ⟨node, ((mem_getLeaves hsain).mp hnode).1⟩)
      rw [hvide] at hmem
      cases hmem
    · refine tous_faits hsain (s.vue.statut m · = some .completed) (fun u v harc hfait => ?_)
        fun v hv hfeuille => ?_
      · exact hcoherente.amont m u v _ (arcs_of_plan hplan ▸ harc) hfait (by decide)
      · obtain ⟨node, hget, rfl⟩ := hnode v hv
        rw [statut_of_plan hplan, hget, Option.map_some,
          hfaites node ((mem_getLeaves hsain).mpr ⟨hget, hfeuille⟩)]
  · rintro ⟨hnoeuds, hfaites⟩
    constructor
    · intro hvide
      -- without a leaf no vertex is the last one
      obtain ⟨v, hv⟩ := List.exists_mem_of_ne_nil _ hnoeuds
      refine tous_faits hsain (fun _ => False) (fun _ _ _ hfalse => hfalse)
        (fun v hv hfeuille => ?_) v hv
      obtain ⟨node, hget, rfl⟩ := hnode v hv
      have hmem := (mem_getLeaves hsain).mpr ⟨hget, hfeuille⟩
      rw [hvide] at hmem
      cases hmem
    · intro node hmem
      have hget := ((mem_getLeaves hsain).mp hmem).1
      have hfaite := hfaites node.id
        (Dict.isSome_get?.mp (Option.isSome_iff_exists.mpr ⟨node, hget⟩))
      rw [statut_of_plan hplan, hget, Option.map_some] at hfaite
      exact Option.some.inj hfaite

theorem plan_releverAgent (hplan : s.plan m = some plan) (id : String) :
    ∃ plan', (releverAgent m s id).plan m = some plan' ∧ plan'.tasks = plan.tasks := by
  have hannoncer : ∀ t status event, ∃ plan', (s.annoncer m id t status event).plan m = some plan' ∧
      plan'.tasks = plan.tasks := by
    intro t status event
    unfold annoncer
    cases hmarquer : s.marquer m t status with
    | none => exact ⟨plan, hplan, rfl⟩
    | some s' =>
        obtain ⟨mission, plan', g', hmission, hplan', -, rfl⟩ := marquer_eq_some hmarquer
        have hmeme : plan' = plan :=
          Option.some.inj (hplan'.symm.trans ((plan_of_mission hmission).symm.trans hplan))
        refine ⟨{ plan' with executionGraph := g' }, ?_, by rw [hmeme]⟩
        exact (plan_enregistrer s m m _).trans (if_pos rfl)
  unfold releverAgent
  split
  · exact ⟨plan, hplan, rfl⟩
  · split
    · exact ⟨plan, hplan, rfl⟩
    · split
      · exact hannoncer _ _ _
      · exact hannoncer _ _ _
      · exact ⟨plan, hplan, rfl⟩

theorem plan_relever (hplan : s.plan m = some plan) (alea : Alea) :
    ∃ plan', (s.relever alea m).plan m = some plan' ∧ plan'.tasks = plan.tasks := by
  unfold relever
  generalize alea.parcours (s.agentsDe m) = l
  induction l generalizing s plan with
  | nil => exact ⟨plan, hplan, rfl⟩
  | cons id l ih =>
      obtain ⟨plan', hplan', htasks'⟩ := plan_releverAgent hplan id
      obtain ⟨plan'', hplan'', htasks''⟩ := ih hplan'
      exact ⟨plan'', hplan'', htasks''.trans htasks'⟩

theorem achever_spec (h : s.Tenue) (hetat : s.vue.etat m = some .running)
    (hnon : ∃ t, s.vue.statut m t ≠ none)
    (hfini : ∀ t st, s.vue.statut m t = some st → st = .completed) :
    ∃ superviseur mission, s.superviseur.transitionMission m .completed = (superviseur, .ok mission) ∧
      Avance m s ({ s with superviseur := superviseur }.emit .graphCompleted m) ∧
      ({ s with superviseur := superviseur }.emit .graphCompleted m).vue =
        s.vue.poserEtat m .completed := by
  obtain ⟨mission, hmission, hrunning⟩ := Option.map_eq_some_iff.mp hetat
  have hpermise : MissionState.completed ∈ MISSION_TRANSITIONS mission.state := by
    rw [hrunning]
    decide
  obtain ⟨superviseur, htransition, hrangee, hvue, hemises, -⟩ :=
    transition_permise h.rangee hmission hpermise
  have hgeste : Geste m s.vue { s with superviseur := superviseur }.vue :=
    hvue ▸ .acheve hetat hnon hfini
  refine ⟨superviseur, _, htransition, ⟨⟨⟨hrangee.cles, hrangee.listes, hrangee.nodup,
    hrangee.agents, hrangee.plans⟩, h.coherente.geste hgeste, ?_⟩, .single hgeste⟩, hvue⟩
  change (superviseur.evenements ++ [(SupervisorEvent.graphCompleted, m)]).filter finale =
    s.annonces.map Prod.snd
  rw [List.filter_append, hemises, h.emises]
  simp [finale]

/-- How the tick of a running mission goes, once what has ended is marked. -/
inductive Deroulement (s : Supervision) (alea : Alea) (m : String) (tasks : List PlannedTask) :
    Supervision × Except Echec Bool → Prop
  | vide (hvide : tasks = []) : Deroulement s alea m tasks (s.relever alea m, .ok false)
  | fini {s' : Supervision} (hplein : tasks ≠ [])
      (hfini : ∀ t ∈ ids tasks, (s.relever alea m).vue.statut m t = some .completed)
      (havance : Avance m (s.relever alea m) s')
      (hvue : s'.vue = (s.relever alea m).vue.poserEtat m .completed)
      (hannonces : s'.annonces = (s.relever alea m).annonces) :
      Deroulement s alea m tasks (s', .ok true)
  | lance {s' : Supervision} {l : List String} (hplein : tasks ≠ [])
      (hreste : ¬ ∀ t ∈ ids tasks, (s.relever alea m).vue.statut m t = some .completed)
      (hl : ∀ t ∈ ids tasks, t ∈ l)
      (hlance : Lance alea (parId tasks) m l (s.relever alea m) s') :
      Deroulement s alea m tasks (s', .ok true)

theorem deroulement_tickMission (h : s.Tenue) (hetat : s.vue.etat m = some .running)
    (hplan : s.plan m = some plan) (alea : Alea) :
    Deroulement s alea m plan.tasks (s.tickMission alea m) := by
  obtain ⟨mission, hmission, hrunning⟩ := Option.map_eq_some_iff.mp hetat
  have htaskPlan : mission.taskPlan = some plan := (plan_of_mission hmission).symm.trans hplan
  have hreleve := releve_relever h alea m
  have havance := hreleve.avance
  obtain ⟨plan', hplan', htasks⟩ := plan_relever hplan alea
  have hsain' := havance.tenue.rangee.plans m plan' hplan'
  have hetat' : (s.relever alea m).vue.etat m = some .running := by rw [hreleve.etat, hetat]
  have hgraphe : (s.relever alea m).graphe m = some plan'.executionGraph := by
    rw [graphe, hplan', Option.map_some]
  obtain ⟨gPlan, hgPlan⟩ := ExecutionGraph.generatePlan_isOk_iff.mpr hsain'.valide
  have hvide : plan'.executionGraph.nodes = [] ↔ plan.tasks = [] := by
    rw [← htasks, ← List.map_eq_nil_iff (f := Prod.fst), ← List.map_eq_nil_iff (f := PlannedTask.id)]
    exact iff_of_eq (congrArg (· = []) hsain'.noeuds)
  unfold tickMission
  rw [hmission]
  dsimp only
  rw [htaskPlan]
  dsimp only
  rw [hgraphe, Option.getD_some, hgPlan]
  dsimp only
  by_cases hnoeuds : plan'.executionGraph.nodes = []
  · rw [if_pos ⟨by simp [ExecutionGraph.getRoots, hnoeuds], by simp [ExecutionGraph.getLeaves, hnoeuds],
      by simp [hnoeuds]⟩]
    exact .vide (hvide.mp hnoeuds)
  · have hplein : plan.tasks ≠ [] := fun hvrai => hnoeuds (hvide.mpr hvrai)
    rw [if_neg fun hnuls => hnoeuds (List.length_eq_zero_iff.mp hnuls.2.2)]
    have htermine := termine_iff hplan' hsain' havance.tenue.coherente
    rw [htasks] at htermine
    by_cases hfini : plan'.executionGraph.termine = true
    · rw [if_pos hfini]
      have hfaites := (htermine.mp hfini).2
      have hconnue : ∀ t st, (s.relever alea m).vue.statut m t = some st → t ∈ ids plan.tasks := by
        intro t st hst
        rw [← htasks, ← statut_ne_none_iff hplan' hsain', hst]
        exact Option.some_ne_none _
      obtain ⟨t, ht⟩ := List.exists_mem_of_ne_nil _ hplein
      obtain ⟨superviseur, fin, htransition, hacheve, hvue⟩ :=
        achever_spec havance.tenue hetat'
          ⟨t.id, by rw [hfaites t.id (List.mem_map_of_mem ht)]; exact Option.some_ne_none _⟩
          fun t st hst => by
            rw [hfaites t (hconnue t st hst)] at hst
            exact (Option.some.inj hst).symm
      rw [htransition]
      exact .fini hplein hfaites hacheve hvue rfl
    · rw [if_neg hfini]
      have hdu := planDuTick_of_generatePlan hplan' hsain' hgPlan
      refine .lance hplein (fun hfaites => hfini (htermine.mpr ⟨hplein, hfaites⟩)) (fun t ht => ?_)
        (foldl_lancerTache havance.tenue hetat' hdu alea (parId plan.tasks) _)
      rw [← htasks, ← statut_ne_none_iff hplan' hsain', hdu.niveaux] at ht
      obtain ⟨level, hlevel, ht⟩ := List.mem_flatten.mp ht
      exact List.mem_flatMap.mpr ⟨level, hlevel, (alea.perm level).mem_iff.mpr ht⟩

end Mission

def annoncesDe (s : Supervision) (id : String) : List SupervisorEvent :=
  (s.annonces.filter fun e => e.1 = id).map fun e => e.2.1

/-- What the tick of a mission announces of an agent. -/
def finDe (v : Vue) (m id : String) : List SupervisorEvent :=
  match v.fiche id with
  | none => []
  | some x => if x.mission = m ∧ x.tache ≠ "" then annonce x.etat else []

section Tick

variable {s : Supervision} {m : String}

theorem filter_flatMap_aAnnoncer {l : List String} (hnodup : l.Nodup) (id : String) :
    (l.flatMap (s.aAnnoncer m)).filter (fun e => e.1 = id) =
      if id ∈ l then s.aAnnoncer m id else [] := by
  have hde : ∀ id', ∀ e ∈ s.aAnnoncer m id', e.1 = id' := by
    intro id' e he
    unfold aAnnoncer annonceDe at he
    split at he
    · cases he
    · split at he
      · cases he
      · obtain ⟨event, -, rfl⟩ := List.mem_map.mp he
        rfl
  induction l with
  | nil => rfl
  | cons id' l ih =>
      obtain ⟨hneuf, hreste⟩ := List.nodup_cons.mp hnodup
      rw [List.flatMap_cons, List.filter_append, ih hreste]
      by_cases hid : id = id'
      · subst hid
        rw [if_neg hneuf, if_pos List.mem_cons_self, List.append_nil]
        exact List.filter_eq_self.mpr fun e he => decide_eq_true (hde id e he)
      · have haucun : (s.aAnnoncer m id').filter (fun e => e.1 = id) = [] := by
          rw [List.filter_eq_nil_iff]
          intro e he
          rw [decide_eq_true_eq, hde id' e he]
          exact Ne.symm hid
        rw [haucun, List.nil_append]
        simp [hid]

theorem annoncesDe_relever (h : s.Tenue) (alea : Alea) (m id : String) :
    (s.relever alea m).annoncesDe id = s.annoncesDe id ++ finDe s.vue m id := by
  have hnodup : (alea.parcours (s.agentsDe m)).Nodup :=
    (alea.perm _).nodup_iff.mpr (h.rangee.nodup m)
  rw [annoncesDe, (releve_relever h alea m).annonces, List.filter_append, List.map_append,
    filter_flatMap_aAnnoncer hnodup]
  refine congrArg (s.annoncesDe id ++ ·) ?_
  simp only [(alea.perm _).mem_iff, h.rangee.agents]
  unfold finDe aAnnoncer annonceDe
  cases hx : s.vue.fiche id with
  | none => simp
  | some x =>
      by_cases hm : x.mission = m
      · by_cases hnom : x.tache = ""
        · simp [hm, hnom]
        · simp [hm, hnom, Function.comp_def]
      · simp [hm]

/-- The new agents have the ids that were drawn for them. -/
def Tirees (alea : Alea) (v v' : Vue) : Prop :=
  ∀ id x, v'.fiche id = some x → v.fiche id = some x ∨ id = alea.identifiant x.mission x.tache

theorem tickMission_spec (h : s.Tenue) (hetat : s.vue.etat m = some .running) (alea : Alea) :
    (∃ b, (s.tickMission alea m).2 = .ok b) ∧ Avance m s (s.tickMission alea m).1 ∧
      Tirees alea s.vue (s.tickMission alea m).1.vue ∧
      ∀ id, (s.tickMission alea m).1.annoncesDe id = s.annoncesDe id ++ finDe s.vue m id := by
  have hreleve := releve_relever h alea m
  have hannonces := annoncesDe_relever h alea m
  obtain ⟨mission, hmission, -⟩ := Option.map_eq_some_iff.mp hetat
  cases hplan : s.plan m with
  | none =>
      have hsans : s.tickMission alea m = (s, .ok false) := by
        rw [plan_of_mission hmission] at hplan
        simp only [tickMission, hmission, hplan]
      rw [hsans]
      refine ⟨⟨false, rfl⟩, Avance.refl h m, fun _ _ hx => .inl hx, fun id => ?_⟩
      have haucun : finDe s.vue m id = [] := by
        unfold finDe
        cases hx : s.vue.fiche id with
        | none => rfl
        | some x =>
            refine if_neg fun hm => ?_
            obtain ⟨st, hst, -⟩ := h.coherente.posees id x hx
            rw [hm.1] at hst
            simp [vue, graphe, hplan] at hst
      rw [haucun, List.append_nil]
  | some plan =>
      have hderoulement := deroulement_tickMission h hetat hplan alea
      generalize s.tickMission alea m = retour at hderoulement ⊢
      have hsuite : ∀ {s' : Supervision}, s'.annonces = (s.relever alea m).annonces →
          ∀ id, s'.annoncesDe id = s.annoncesDe id ++ finDe s.vue m id := by
        intro s' hmeme id
        rw [annoncesDe, hmeme]
        exact hannonces id
      have hfiche : (s.relever alea m).vue.fiche = s.vue.fiche := by
        funext id
        simp only [vue, agent, hreleve.lifecycle]
      cases hderoulement with
      | vide _ =>
          exact ⟨⟨false, rfl⟩, hreleve.avance, fun _ _ hx => .inl (hfiche ▸ hx), hsuite rfl⟩
      | fini _ _ havance hvue hmeme =>
          refine ⟨⟨true, rfl⟩, hreleve.avance.trans havance, fun id x hx => .inl ?_, hsuite hmeme⟩
          rw [hvue] at hx
          exact hfiche ▸ hx
      | lance _ _ _ hlance =>
          refine ⟨⟨true, rfl⟩, hreleve.avance.trans hlance.avance, fun id x hx => ?_,
            hsuite hlance.annonces⟩
          rcases hlance.fiches id x hx with hx | ⟨hid, hmission⟩
          · exact .inl (hfiche ▸ hx)
          · exact .inr (hmission ▸ hid)

def enCours (items : List (String × MissionInstance)) : List String :=
  (items.filter fun item => item.2.state = .running).map Prod.fst

def finPour (v : Vue) (missions : List String) (id : String) : List SupervisorEvent :=
  match v.fiche id with
  | none => []
  | some x => if x.mission ∈ missions ∧ x.tache ≠ "" then annonce x.etat else []

theorem cadre_tickMission (h : s.Tenue) (hetat : s.vue.etat m = some .running) (alea : Alea)
    {m' : String} (hm : m' ≠ m) : Cadre m' s.vue (s.tickMission alea m).1.vue :=
  cadre_of_gestes (tickMission_spec h hetat alea).2.1.gestes hm

theorem finDe_append_finPour {v v' : Vue} {missions : List String} (hm : m ∉ missions)
    (htour : ReflTransGen Pas v v') (id : String) :
    finDe v m id ++ finPour v' missions id = finPour v (m :: missions) id := by
  unfold finDe finPour
  rcases fiche_of_tour htour id with heq | ⟨hnone, x, hx, hrunning⟩
  · rw [heq]
    cases hx : v.fiche id with
    | none => rfl
    | some x =>
        by_cases hmission : x.mission = m
        · simp [hmission, hm]
        · simp [hmission]
  · rw [hnone, hx]
    simp [hrunning, annonce]

theorem tickMissions_cons (h : s.Tenue) (alea : Alea) {mission : MissionInstance}
    {items : List (String × MissionInstance)} (hetat : s.vue.etat m = some mission.state)
    (changed : List String) :
    (mission.state ≠ .running ∧
        tickMissions alea ((m, mission) :: items) changed s = tickMissions alea items changed s) ∨
      (mission.state = .running ∧ ∃ changed',
        tickMissions alea ((m, mission) :: items) changed s =
          tickMissions alea items changed' (s.tickMission alea m).1) := by
  rw [tickMissions]
  by_cases hrunning : mission.state = .running
  · obtain ⟨⟨b, hb⟩, -⟩ := tickMission_spec h (hetat.trans (congrArg some hrunning)) alea
    refine .inr ⟨hrunning, ?_⟩
    rw [if_pos hrunning, show s.tickMission alea m = ((s.tickMission alea m).1, .ok b) from
      Prod.ext rfl hb]
    cases b with
    | false => exact ⟨changed, rfl⟩
    | true => exact ⟨changed ++ [m], rfl⟩
  · exact .inl ⟨hrunning, if_neg hrunning⟩

theorem etat_after_tickMission (h : s.Tenue) (hetat : s.vue.etat m = some .running) (alea : Alea)
    {items : List (String × MissionInstance)} (hneuf : m ∉ items.map Prod.fst)
    (hitems : ∀ item ∈ items, s.vue.etat item.1 = some item.2.state) :
    ∀ item ∈ items, (s.tickMission alea m).1.vue.etat item.1 = some item.2.state := by
  intro item hitem
  have hm : item.1 ≠ m := fun heq => hneuf (List.mem_map.mpr ⟨item, hitem, heq⟩)
  rw [(cadre_tickMission h hetat alea hm).etat]
  exact hitems item hitem

theorem tickMissions_spec (h : s.Tenue) (alea : Alea) {items : List (String × MissionInstance)}
    (hitems : ∀ item ∈ items, s.vue.etat item.1 = some item.2.state)
    (hnodup : (items.map Prod.fst).Nodup) (changed : List String) :
    (∃ changed', (tickMissions alea items changed s).2 = .ok changed') ∧
      (tickMissions alea items changed s).1.Tenue ∧
      ReflTransGen Pas s.vue (tickMissions alea items changed s).1.vue ∧
      ∀ id, (tickMissions alea items changed s).1.annoncesDe id =
        s.annoncesDe id ++ finPour s.vue (enCours items) id := by
  induction items generalizing s changed with
  | nil =>
      refine ⟨⟨changed, rfl⟩, h, .refl, fun id => ?_⟩
      have haucun : finPour s.vue (enCours []) id = [] := by
        unfold finPour
        cases s.vue.fiche id <;> simp [enCours]
      rw [haucun, List.append_nil]
      rfl
  | cons item items ih =>
      obtain ⟨m, mission⟩ := item
      obtain ⟨hneuf, hreste⟩ := List.nodup_cons.mp hnodup
      have hitems' : ∀ item ∈ items, s.vue.etat item.1 = some item.2.state :=
        fun item hitem => hitems item (List.mem_cons_of_mem _ hitem)
      have hetat : s.vue.etat m = some mission.state := hitems _ List.mem_cons_self
      rcases tickMissions_cons h alea hetat changed with ⟨hrunning, heq⟩ | ⟨hrunning, changed', heq⟩
      · have hcours : enCours ((m, mission) :: items) = enCours items := by
          simp [enCours, hrunning]
        rw [heq, hcours]
        exact ih h hitems' hreste changed
      · have hetat' : s.vue.etat m = some .running := hetat.trans (congrArg some hrunning)
        obtain ⟨-, havance, -, hannonces⟩ := tickMission_spec h hetat' alea
        have hcours : enCours ((m, mission) :: items) = m :: enCours items := by
          simp [enCours, hrunning]
        have hdehors : m ∉ enCours items := fun hmem =>
          hneuf ((List.filter_sublist.map Prod.fst).subset hmem)
        have htour := tour_of_gestes havance.gestes
        obtain ⟨hok, htenue, htour', hannonces'⟩ :=
          ih havance.tenue (etat_after_tickMission h hetat' alea hneuf hitems') hreste changed'
        rw [heq]
        refine ⟨hok, htenue, htour.trans htour', fun id => ?_⟩
        rw [hannonces', hannonces, List.append_assoc, finDe_append_finPour hdehors htour, hcours]

theorem cadre_tickMissions (h : s.Tenue) (alea : Alea) {items : List (String × MissionInstance)}
    (hitems : ∀ item ∈ items, s.vue.etat item.1 = some item.2.state)
    (hnodup : (items.map Prod.fst).Nodup) (hm : m ∉ items.map Prod.fst) (changed : List String) :
    Cadre m s.vue (tickMissions alea items changed s).1.vue := by
  induction items generalizing s changed with
  | nil => exact Cadre.refl m s.vue
  | cons item items ih =>
      obtain ⟨m', mission⟩ := item
      obtain ⟨hneuf, hreste⟩ := List.nodup_cons.mp hnodup
      rw [List.map_cons, List.mem_cons, not_or] at hm
      have hitems' : ∀ item ∈ items, s.vue.etat item.1 = some item.2.state :=
        fun item hitem => hitems item (List.mem_cons_of_mem _ hitem)
      have hetat : s.vue.etat m' = some mission.state := hitems _ List.mem_cons_self
      rcases tickMissions_cons h alea hetat changed with ⟨-, heq⟩ | ⟨hrunning, changed', heq⟩
      · rw [heq]
        exact ih h hitems' hreste hm.2 changed
      · have hetat' : s.vue.etat m' = some .running := hetat.trans (congrArg some hrunning)
        rw [heq]
        exact (cadre_tickMission h hetat' alea hm.1).trans
          (ih (tickMission_spec h hetat' alea).2.1.tenue
            (etat_after_tickMission h hetat' alea hneuf hitems') hreste hm.2 changed')

theorem tickMissions_mission (h : s.Tenue) (alea : Alea) {items : List (String × MissionInstance)}
    (hitems : ∀ item ∈ items, s.vue.etat item.1 = some item.2.state)
    (hnodup : (items.map Prod.fst).Nodup) (hm : m ∈ enCours items) (changed : List String) :
    ∃ s₁ : Supervision, s₁.Tenue ∧ ReflTransGen Pas s.vue s₁.vue ∧ Cadre m s.vue s₁.vue ∧
      Tirees alea s.vue s₁.vue ∧
      Cadre m (s₁.tickMission alea m).1.vue (tickMissions alea items changed s).1.vue := by
  induction items generalizing s changed with
  | nil => cases hm
  | cons item items ih =>
      obtain ⟨m', mission⟩ := item
      obtain ⟨hneuf, hreste⟩ := List.nodup_cons.mp hnodup
      have hitems' : ∀ item ∈ items, s.vue.etat item.1 = some item.2.state :=
        fun item hitem => hitems item (List.mem_cons_of_mem _ hitem)
      have hetat : s.vue.etat m' = some mission.state := hitems _ List.mem_cons_self
      rcases tickMissions_cons h alea hetat changed with ⟨hrunning, heq⟩ | ⟨hrunning, changed', heq⟩
      · rw [heq]
        refine ih h hitems' hreste ?_ changed
        simpa [enCours, hrunning] using hm
      · have hetat' : s.vue.etat m' = some .running := hetat.trans (congrArg some hrunning)
        obtain ⟨-, havance, htirees, -⟩ := tickMission_spec h hetat' alea
        have hsuite := etat_after_tickMission h hetat' alea hneuf hitems'
        rw [heq]
        by_cases hmm : m = m'
        · subst hmm
          exact ⟨s, h, .refl, Cadre.refl m s.vue, fun _ _ hx => .inl hx,
            cadre_tickMissions havance.tenue alea hsuite hreste hneuf changed'⟩
        · have hm' : m ∈ enCours items := by simpa [enCours, hrunning, hmm] using hm
          obtain ⟨s₁, htenue, htour, hcadre, htirees', hfin⟩ :=
            ih havance.tenue hsuite hreste hm' changed'
          refine ⟨s₁, htenue, (tour_of_gestes havance.gestes).trans htour,
            (cadre_tickMission h hetat' alea hmm).trans hcadre, fun id x hx => ?_, hfin⟩
          rcases htirees' id x hx with hx | hid
          · exact htirees id x hx
          · exact .inr hid

theorem etat_of_mem (h : s.Rangee) {item : String × MissionInstance}
    (hitem : item ∈ s.superviseur.missions) : s.vue.etat item.1 = some item.2.state := by
  simp only [vue, Supervision.mission, Dict.get?_of_mem h.cles hitem, Option.map_some]

theorem mem_enCours (h : s.Rangee) :
    m ∈ enCours s.superviseur.missions ↔ s.vue.etat m = some .running := by
  simp only [enCours, List.mem_map, List.mem_filter, decide_eq_true_eq]
  constructor
  · rintro ⟨item, ⟨hitem, hrunning⟩, rfl⟩
    rw [etat_of_mem h hitem, hrunning]
  · intro hetat
    obtain ⟨mission, hmission, hrunning⟩ := Option.map_eq_some_iff.mp hetat
    exact ⟨(m, mission), ⟨Dict.mem_of_get? hmission, hrunning⟩, rfl⟩

theorem tick_spec (h : s.Tenue) (alea : Alea) :
    (∃ changed, (s.tick alea).2 = .ok changed) ∧ (s.tick alea).1.Tenue ∧
      ReflTransGen Pas s.vue (s.tick alea).1.vue ∧
      ∀ id, (s.tick alea).1.annoncesDe id =
        s.annoncesDe id ++ finPour s.vue (enCours s.superviseur.missions) id :=
  tickMissions_spec h alea (fun _ hitem => etat_of_mem h.rangee hitem) h.rangee.cles []

end Tick

end Hermes.Agent.Supervisor.Supervision
