import Hermes.Agent.Annonces

/-! # How a mission ends

Ticks alternate with the ends of the agents that they create.
-/

namespace Hermes.Agent.Supervisor.Supervision

open Lib Lifecycle Conduite
open Relation (ReflTransGen)
open TaskPlanner (TaskPlan)
open AgentLifecycleManager (Operation)

/-- A tick, then what the agents do before the next one. -/
structure Manche where
  alea : Alea
  fins : List {op : Operation // op.Courante} := []

def Manche.appels (r : Manche) : List Appel := .tick r.alea :: r.fins.map fun op => .agent op.1 op.2

def manches (s : Supervision) (r : Nat → Manche) : Nat → Supervision
  | 0 => s
  | n + 1 => (s.manches r n).apres (r n).appels

/-- Every agent created for the mission has ended. -/
def Finie (m : String) (s : Supervision) : Prop :=
  ∀ id x, s.agent id = some x → x.context.missionId = m → x.state.terminal = true

/-- What is expected of a random id: those drawn for the tasks that wait are new, and differ. -/
structure Neuves (alea : Alea) (m : String) (s : Supervision) : Prop where
  libres : ∀ t, s.vue.statut m t = some .pending → s.agent (alea.identifiant m t) = none
  distinctes : ∀ t m' t', s.vue.statut m t = some .pending → s.vue.statut m' t' = some .pending →
    alea.identifiant m' t' = alea.identifiant m t → m' = m ∧ t' = t

/-- The mission is over, as its agents have made it. -/
structure Conclue (m : String) (tasks : List PlannedTask) (s : Supervision) : Prop where
  terminale : ∃ mission, s.mission m = some mission ∧ MISSION_TRANSITIONS mission.state = []
  reussie : (∀ task ∈ tasks, ∃ id x, s.agent id = some x ∧ x.context.missionId = m ∧
      x.context.taskId = task.id ∧ x.state = .completed) →
    (s.mission m).map MissionInstance.state = some .completed
  echouee : (∃ id x, s.agent id = some x ∧ x.context.missionId = m ∧
      (x.state = .failed ∨ x.state = .cancelled ∨ x.state = .timeout)) →
    (s.mission m).map MissionInstance.state = some .failed

section Tick

variable {s : Supervision} {m : String} {alea : Alea}

theorem plan_of_connue {t : String} (h : s.vue.statut m t ≠ none) : ∃ plan, s.plan m = some plan := by
  obtain ⟨st, hst⟩ := Option.ne_none_iff_exists'.mp h
  obtain ⟨g, hg, -⟩ := Option.bind_eq_some_iff.mp hst
  obtain ⟨plan, hplan, -⟩ := Option.map_eq_some_iff.mp hg
  exact ⟨plan, hplan⟩

theorem completed_of_relever (h : s.Tenue)
    (hfaits : ∀ id x, s.vue.fiche id = some x → x.mission = m → x.etat = .completed)
    (hnommees : s.vue.statut m "" = none) {t : String} {st : NodeStatus}
    (hst : (s.relever alea m).vue.statut m t = some st) (hne : st ≠ .pending) :
    st = .completed := by
  have hreleve := releve_relever h alea m
  have htour := tour_of_gestes hreleve.avance.gestes
  obtain ⟨id, x, hx, hmission, htache, -⟩ :=
    hreleve.avance.tenue.coherente.lancees m t st hst hne
  have hx' : s.vue.fiche id = some x := by
    have hmeme : (s.relever alea m).vue.fiche id = s.vue.fiche id := by
      simp only [vue, agent, hreleve.lifecycle]
    rw [← hmeme, hx]
  have hfait := hfaits id x hx' hmission
  have hnom : x.tache ≠ "" := by
    rintro hvide
    rw [htache] at hvide
    refine (h.coherente.statut_ne_none_iff htour m t).mp ?_ (hvide ▸ hnommees)
    rw [hst]
    exact Option.some_ne_none _
  have hliste : id ∈ alea.parcours (s.agentsDe m) :=
    (alea.perm _).mem_iff.mpr ((h.rangee.agents m id).mpr ⟨x, hx', hmission⟩)
  have hmarque := hreleve.marques id hliste x .completed hx' hnom (by rw [hfait]; rfl)
  rw [htache, hst] at hmarque
  exact Option.some.inj hmarque

theorem exists_prete (h : s.Tenue) {plan : TaskPlan} (hplan : s.plan m = some plan)
    (hreste : ¬ ∀ t ∈ ids plan.tasks, s.vue.statut m t = some .completed)
    (hpartage : ∀ t st, s.vue.statut m t = some st → st ≠ .pending → st = .completed) :
    ∃ t ∈ ids plan.tasks, s.vue.statut m t = some .pending ∧
      ∀ u, (u, t) ∈ s.vue.arcs m → s.vue.statut m u = some .completed := by
  have hsain := h.rangee.plans m plan hplan
  have hconnue := statut_ne_none_iff hplan hsain
  have hpending : ∀ t ∈ ids plan.tasks, s.vue.statut m t = some .pending ∨
      s.vue.statut m t = some .completed := by
    intro t ht
    obtain ⟨st, hst⟩ := Option.ne_none_iff_exists'.mp ((hconnue t).mpr ht)
    by_cases hne : st = .pending
    · exact .inl (hne ▸ hst)
    · exact .inr (hpartage t st hst hne ▸ hst)
  by_contra haucune
  push Not at haucune
  have hvide : (ids plan.tasks).filter (fun t => s.vue.statut m t = some .pending) = [] := by
    refine Kahn.eq_nil_of_predecesseurs hsain.bien.acyclique fun t ht => ?_
    obtain ⟨htask, hattend⟩ := List.mem_filter.mp ht
    obtain ⟨u, harc, hu⟩ := haucune t htask (of_decide_eq_true hattend)
    rw [arcs_of_plan hplan] at harc
    have hsource : u ∈ ids plan.tasks := by
      rw [← hsain.noeuds]
      exact (hsain.bien.extremites _ harc).1
    refine ⟨u, List.mem_filter.mpr ⟨hsource, decide_eq_true ?_⟩, harc⟩
    exact (hpending u hsource).resolve_right hu
  refine hreste fun t ht => (hpending t ht).resolve_left fun hattend => ?_
  have hmem : t ∈ (ids plan.tasks).filter (fun t => s.vue.statut m t = some .pending) :=
    List.mem_filter.mpr ⟨ht, decide_eq_true hattend⟩
  rw [hvide] at hmem
  cases hmem

theorem get?_parId {tasks : List PlannedTask} {t : String} (h : t ∈ ids tasks) :
    (parId tasks).get? t ≠ none := by
  have hfold : ∀ d : Dict String PlannedTask, t ∈ ids tasks ∨ t ∈ d.keys →
      t ∈ (tasks.foldl (fun d task => d.set task.id task) d).keys := by
    clear h
    induction tasks with
    | nil => simp [ids]
    | cons task tasks ih =>
        intro d hmem
        refine ih _ ?_
        rw [Dict.keys_set]
        simp only [ids, List.map_cons, List.mem_cons] at hmem
        rcases hmem with (heq | hmem) | hmem
        · exact .inr (.inl heq)
        · exact .inl hmem
        · exact .inr (.inr hmem)
  have hmem := Dict.isSome_get?.mpr (hfold [] (.inl h))
  exact Option.isSome_iff_ne_none.mp hmem

theorem attend_of_neuve {s' : Supervision} (h : s.Tenue) (htour : ReflTransGen Pas s.vue s'.vue)
    (htirees : Tirees alea s.vue s'.vue) (hneuves : Neuves alea m s) {t : String}
    (hattend : s.vue.statut m t = some .pending)
    (hpris : s'.vue.fiche (alea.identifiant m t) ≠ none) : s'.vue.statut m t ≠ some .pending := by
  have havant : s.vue.fiche (alea.identifiant m t) = none := by
    simp only [vue, hneuves.libres t hattend, Option.map_none]
  obtain ⟨x, hx⟩ := Option.ne_none_iff_exists'.mp hpris
  obtain ⟨hmission, htache⟩ : x.mission = m ∧ x.tache = t := by
    rcases htirees _ x hx with hfalse | hid
    · rw [havant] at hfalse
      cases hfalse
    · exact hneuves.distinctes t _ _ hattend (h.coherente.pending_of_neuve htour havant hx) hid.symm
  obtain ⟨st, hst, hne⟩ := (h.coherente.tour htour).posees _ x hx
  rw [hmission, htache] at hst
  rw [hst]
  exact fun hfalse => hne (Option.some.inj hfalse)

theorem progres_tick (h : s.Tenue) (hetat : s.vue.etat m = some .running)
    (hconnue : ∃ t, s.vue.statut m t ≠ none) (hnommees : s.vue.statut m "" = none)
    (hfaits : ∀ id x, s.vue.fiche id = some x → x.mission = m → x.etat = .completed)
    (hneuves : Neuves alea m s) :
    (s.tick alea).1.vue.etat m = some .completed ∨
      ((s.tick alea).1.vue.etat m = some .running ∧ ∃ t, s.vue.statut m t = some .pending ∧
        (s.tick alea).1.vue.statut m t ≠ some .pending) := by
  obtain ⟨s₁, h₁, htour, hcadre, htirees, hfin⟩ :=
    tickMissions_mission h alea (fun _ hitem => etat_of_mem h.rangee hitem) h.rangee.cles
      ((mem_enCours h.rangee).mpr hetat) []
  have hetat₁ : s₁.vue.etat m = some .running := hcadre.etat.trans hetat
  obtain ⟨t₀, ht₀⟩ := hconnue
  have ht₁ : s₁.vue.statut m t₀ ≠ none := by rwa [hcadre.statut]
  obtain ⟨plan, hplan⟩ := plan_of_connue ht₁
  have hreleve := releve_relever h₁ alea m
  have htour₂ := htour.trans (tour_of_gestes hreleve.avance.gestes)
  obtain ⟨plan₂, hplan₂, htasks⟩ := plan_relever hplan alea
  have hpartage : ∀ t st, (s₁.relever alea m).vue.statut m t = some st → st ≠ .pending →
      st = .completed := fun t st =>
    completed_of_relever h₁ (fun id x hx hm => hfaits id x ((hcadre.fiche id x hm).mp hx) hm)
      (by rw [hcadre.statut, hnommees])
  have hderoulement := deroulement_tickMission h₁ hetat₁ hplan alea
  revert hfin hderoulement
  generalize s₁.tickMission alea m = retour
  intro hfin hderoulement
  cases hderoulement with
  | vide hvide =>
      have hmem := (statut_ne_none_iff hplan (h₁.rangee.plans m plan hplan) t₀).mp ht₁
      rw [hvide] at hmem
      cases hmem
  | fini _ _ _ hvue _ =>
      refine .inl (hfin.etat.trans ?_)
      dsimp only
      rw [hvue]
      exact if_pos rfl
  | @lance s' l _ hreste hl hlance =>
      refine .inr ⟨hfin.etat.trans ?_, ?_⟩
      · dsimp only
        rw [hlance.etat, hreleve.etat, hetat₁]
      · rw [← htasks] at hreste
        obtain ⟨t, ht, hattend, hamont⟩ :=
          exists_prete hreleve.avance.tenue hplan₂ hreste hpartage
        rw [htasks] at ht
        have htour₃ := htour₂.trans (tour_of_gestes hlance.avance.gestes)
        have htirees₃ : Tirees alea s.vue s'.vue := by
          intro id x hx
          rcases hlance.fiches id x hx with hx | ⟨hid, hm⟩
          · refine htirees id x ?_
            rw [← hx]
            simp only [vue, agent, hreleve.lifecycle]
          · exact .inr (hm ▸ hid)
        have hattend₀ := h.coherente.pending_of_tour htour₂ hattend
        refine ⟨t, hattend₀, fun hencore => ?_⟩
        have hencore : s'.vue.statut m t = some .pending := (hfin.statut t).symm.trans hencore
        exact attend_of_neuve h htour₃ htirees₃ hneuves hattend₀
          (hlance.lancees t (hl t ht) hamont (get?_parId ht) hencore) hencore

end Tick

section Manches

variable {s : Supervision} {m : String} {plan : TaskPlan} {r : Nat → Manche}

theorem progresse_fins (s : Supervision) (fins : List {op : Operation // op.Courante}) :
    (s.apres (fins.map fun op => .agent op.1 op.2)).superviseur = s.superviseur ∧
      s.lifecycle.Progresse (s.apres (fins.map fun op => .agent op.1 op.2)).lifecycle := by
  induction fins generalizing s with
  | nil => exact ⟨rfl, AgentLifecycleManager.Progresse.refl _⟩
  | cons op fins ih =>
      obtain ⟨hsuperviseur, hprogresse⟩ := ih (s.executer (.agent op.1 op.2))
      exact ⟨hsuperviseur,
        (AgentLifecycleManager.progresse_executer s.lifecycle op.2).trans hprogresse⟩

theorem manches_succ (s : Supervision) (r : Nat → Manche) (n : Nat) :
    (s.manches r (n + 1)).superviseur = ((s.manches r n).tick (r n).alea).1.superviseur ∧
      ((s.manches r n).tick (r n).alea).1.lifecycle.Progresse (s.manches r (n + 1)).lifecycle :=
  progresse_fins ((s.manches r n).tick (r n).alea).1 (r n).fins

theorem Tenue.manches (h : s.Tenue) (r : Nat → Manche) (n : Nat) : (s.manches r n).Tenue := by
  induction n with
  | zero => exact h
  | succ n ih => exact ih.apres (r n).appels

theorem etat_congr {s' : Supervision} (h : s'.superviseur = s.superviseur) :
    s'.vue.etat = s.vue.etat ∧ s'.vue.statut = s.vue.statut ∧ s'.vue.arcs = s.vue.arcs := by
  simp only [vue, graphe, Supervision.plan, mission, h, and_self]

theorem statut_manches (h : s.Tenue) (hplan : s.plan m = some plan) (r : Nat → Manche) (n : Nat)
    (t : String) : (s.manches r n).vue.statut m t ≠ none ↔ t ∈ ids plan.tasks := by
  induction n with
  | zero => exact statut_ne_none_iff hplan (h.rangee.plans m plan hplan) t
  | succ n ih =>
      rw [(etat_congr (manches_succ s r n).1).2.1, ← ih]
      exact (h.manches r n).coherente.statut_ne_none_iff
        (tick_spec (h.manches r n) (r n).alea).2.2.1 m t

theorem etat_manches_succ (h : s.Tenue) (r : Nat → Manche) (n : Nat) :
    (s.manches r (n + 1)).vue.etat m = (s.manches r n).vue.etat m ∨
      ((s.manches r n).vue.etat m = some .running ∧
        (s.manches r (n + 1)).vue.etat m = some .completed) := by
  rw [(etat_congr (manches_succ s r n).1).1]
  exact etat_of_tour (tick_spec (h.manches r n) (r n).alea).2.2.1

theorem etat_manches (h : s.Tenue) (hetat : s.vue.etat m = some .running) (r : Nat → Manche)
    (n : Nat) : (s.manches r n).vue.etat m = some .running ∨
      (s.manches r n).vue.etat m = some .completed := by
  induction n with
  | zero => exact .inl hetat
  | succ n ih =>
      rcases etat_manches_succ h r n with heq | ⟨-, hcompleted⟩
      · rwa [heq]
      · exact .inr hcompleted

theorem fiche_of_completed (h : s.Tenue) {n : Nat}
    (hcompleted : (s.manches r n).vue.etat m = some .completed) {id : String} {x : Fiche}
    (hx : (s.manches r (n + 1)).vue.fiche id = some x) (hm : x.mission = m) :
    ∃ x', (s.manches r n).vue.fiche id = some x' ∧ x'.mission = m := by
  have hevolue := (manches_succ s r n).2 id
  rw [show (s.manches r (n + 1)).lifecycle.fiche id = some x from hx] at hevolue
  cases hy : ((s.manches r n).tick (r n).alea).1.lifecycle.fiche id with
  | none =>
      rw [hy] at hevolue
      cases hevolue
  | some y =>
      rw [hy] at hevolue
      cases hevolue with
      | present hmission _ _ =>
          cases havant : (s.manches r n).vue.fiche id with
          | some x' =>
              obtain ⟨x'', hx'', hmission'', -⟩ :=
                fiche_executer (h.manches r n) (.tick (r n).alea) havant
              have heq : x'' = y := Option.some.inj (hx''.symm.trans hy)
              exact ⟨x', rfl, by rw [← hmission'', heq, ← hmission, hm]⟩
          | none =>
              obtain ⟨hrunning, -⟩ := (h.manches r n).coherente.lancee_a_temps
                (tick_spec (h.manches r n) (r n).alea).2.2.1 havant hy
              rw [← hmission, hm, hcompleted] at hrunning
              cases hrunning

/-- The mission has tasks, each has a name, and no agent created for it ends but completed. -/
structure Favorable (m : String) (tasks : List PlannedTask) (s : Supervision)
    (r : Nat → Manche) : Prop where
  taches : tasks ≠ []
  noms : ∀ task ∈ tasks, task.id ≠ ""
  completes : ∀ n id x, (s.manches r n).agent id = some x → x.context.missionId = m →
    x.state = .completed

def enAttente (v : Vue) (m : String) (l : List String) : List String :=
  l.filter fun t => v.statut m t = some .pending

theorem length_enAttente_lt {v v' : Vue} {l : List String}
    (hsub : ∀ t, v'.statut m t = some .pending → v.statut m t = some .pending) {t : String}
    (ht : t ∈ l) (hattend : v.statut m t = some .pending) (hpas : v'.statut m t ≠ some .pending) :
    (enAttente v' m l).length < (enAttente v m l).length := by
  have hsublist : (enAttente v' m l).Sublist (enAttente v m l) :=
    List.monotone_filter_right l fun t ht => by simpa using hsub t (by simpa using ht)
  refine lt_of_le_of_ne hsublist.length_le fun heq => hpas ?_
  have hmem : t ∈ enAttente v m l := List.mem_filter.mpr ⟨ht, decide_eq_true hattend⟩
  rw [← hsublist.eq_of_length heq] at hmem
  exact of_decide_eq_true (List.mem_filter.mp hmem).2

theorem completed_of_favorable (h : s.Tenue) (hetat : s.vue.etat m = some .running)
    (hplan : s.plan m = some plan) (hneuves : ∀ n, Neuves (r n).alea m (s.manches r n))
    (hfavorable : Favorable m plan.tasks s r) (n : Nat) :
    (s.manches r n).vue.etat m = some .completed ∨
      ((s.manches r n).vue.etat m = some .running ∧
        (enAttente (s.manches r n).vue m (ids plan.tasks)).length + n ≤ plan.tasks.length) := by
  induction n with
  | zero =>
      refine .inr ⟨hetat, ?_⟩
      refine (List.length_filter_le _ _).trans_eq ?_
      rw [ids, List.length_map]
  | succ n ih =>
      have htenue := h.manches r n
      have hconnues := statut_manches h hplan r n
      rcases ih with hcompleted | ⟨hrunning, hborne⟩
      · rcases @etat_manches_succ s m h r n with heq | ⟨-, hcompleted⟩
        · exact .inl (heq.trans hcompleted)
        · exact .inl hcompleted
      · obtain ⟨task, htask⟩ := List.exists_mem_of_ne_nil _ hfavorable.taches
        have hinnommee : (s.manches r n).vue.statut m "" = none := by
          by_contra hne
          obtain ⟨task, htask, hvide⟩ := List.mem_map.mp ((hconnues "").mp hne)
          exact hfavorable.noms task htask hvide
        have hfaits : ∀ id x, (s.manches r n).vue.fiche id = some x → x.mission = m →
            x.etat = .completed := by
          intro id x hx hm
          obtain ⟨a, ha, rfl⟩ := Option.map_eq_some_iff.mp hx
          exact hfavorable.completes n id a ha hm
        have hvue := etat_congr (manches_succ s r n).1
        rw [hvue.1]
        rcases progres_tick htenue hrunning
          ⟨task.id, (hconnues _).mpr (List.mem_map_of_mem htask)⟩ hinnommee hfaits (hneuves n) with
          hcompleted | ⟨hencore, t, hattend, hpas⟩
        · exact .inl hcompleted
        · have htour := (tick_spec htenue (r n).alea).2.2.1
          have hmoins : (enAttente (s.manches r (n + 1)).vue m (ids plan.tasks)).length <
              (enAttente (s.manches r n).vue m (ids plan.tasks)).length := by
            refine @length_enAttente_lt m _ _ _ (fun t' ht' => ?_) t ?_ hattend ?_
            · rw [hvue.2.1] at ht'
              exact htenue.coherente.pending_of_tour htour ht'
            · refine (hconnues t).mp ?_
              rw [hattend]
              exact Option.some_ne_none _
            · rw [hvue.2.1]
              exact hpas
          exact .inr ⟨hencore, by omega⟩

theorem fiche_manches (h : s.Tenue) {k n : Nat} (hkn : k ≤ n) {id : String} {x : Fiche}
    (hx : (s.manches r k).vue.fiche id = some x) (hterminal : x.etat.terminal = true) :
    ∃ x', (s.manches r n).vue.fiche id = some x' ∧ x'.mission = x.mission ∧ x'.etat = x.etat := by
  induction hkn with
  | refl => exact ⟨x, hx, rfl, rfl⟩
  | @step n _ ih =>
      obtain ⟨x', hx', hmission, hetat⟩ := ih
      obtain ⟨x'', hx'', hmission', -, hfin⟩ := fiche_apres (h.manches r n) (r n).appels hx'
      exact ⟨x'', hx'', hmission'.trans hmission, (hfin (hetat ▸ hterminal)).trans hetat⟩

theorem fiche_apres_fin (h : s.Tenue) {k n : Nat} (hkn : k ≤ n)
    (hcompleted : (s.manches r k).vue.etat m = some .completed) {id : String} {x : Fiche}
    (hx : (s.manches r n).vue.fiche id = some x) (hm : x.mission = m) :
    ∃ x', (s.manches r k).vue.fiche id = some x' ∧ x'.mission = m := by
  induction hkn generalizing x with
  | refl => exact ⟨x, hx, hm⟩
  | @step n hkn ih =>
      have hcompleted' : (s.manches r n).vue.etat m = some .completed := by
        clear ih hx
        induction hkn with
        | refl => exact hcompleted
        | @step n _ ih =>
            rcases @etat_manches_succ s m h r n with heq | ⟨-, heq⟩
            · exact heq.trans ih
            · exact heq
      obtain ⟨x', hx', hm'⟩ := fiche_of_completed h hcompleted' hx hm
      exact ih hx' hm'

theorem mission_of_etat {e : MissionState} (h : s.vue.etat m = some e) :
    (s.mission m).map MissionInstance.state = some e := h

theorem non_completed {e : AgentState} (h : e.terminal = true) (hne : e ≠ .completed) :
    e = .failed ∨ e = .cancelled ∨ e = .timeout := by
  cases e with
  | completed => exact absurd rfl hne
  | failed => exact .inl rfl
  | cancelled => exact .inr (.inl rfl)
  | timeout => exact .inr (.inr rfl)
  | _ => cases h

theorem completed_of_conclue (h : s.Tenue) (hetat : s.vue.etat m = some .running)
    {tasks : List PlannedTask} {n : Nat} (hfinie : Finie m (s.manches r n))
    (hconclue : Conclue m tasks (s.manches r n)) :
    (s.manches r n).vue.etat m = some .completed ∧
      ∀ id x, (s.manches r n).agent id = some x → x.context.missionId = m →
        x.state = .completed := by
  have hcompleted : (s.manches r n).vue.etat m = some .completed := by
    refine (etat_manches h hetat r n).resolve_left fun hrunning => ?_
    obtain ⟨mission, hmission, hfin⟩ := hconclue.terminale
    have hstate : mission.state = .running := by
      have hmap := mission_of_etat hrunning
      rw [hmission] at hmap
      exact Option.some.inj hmap
    rw [hstate] at hfin
    cases hfin
  refine ⟨hcompleted, fun id x hx hm => ?_⟩
  by_contra hne
  have hechouee := hconclue.echouee ⟨id, x, hx, hm, non_completed (hfinie id x hx hm) hne⟩
  rw [mission_of_etat hcompleted] at hechouee
  cases hechouee

theorem conclue_of_favorable {tasks : List PlannedTask} {n : Nat}
    (hcompleted : (s.manches r n).vue.etat m = some .completed)
    (hfavorable : Favorable m tasks s r) : Conclue m tasks (s.manches r n) := by
  obtain ⟨mission, hmission, hstate⟩ := Option.map_eq_some_iff.mp hcompleted
  refine ⟨⟨mission, hmission, by rw [hstate]; rfl⟩, fun _ => hcompleted, ?_⟩
  rintro ⟨id, x, hx, hm, hetat⟩
  have hfait := hfavorable.completes n id x hx hm
  rw [hfait] at hetat
  rcases hetat with hetat | hetat | hetat <;> cases hetat

theorem favorable_of_conclue (h : s.Tenue) (hetat : s.vue.etat m = some .running)
    (hplan : s.plan m = some plan) (hfinies : ∀ n, Finie m (s.manches r n)) {n : Nat}
    (hconclue : Conclue m plan.tasks (s.manches r n)) : Favorable m plan.tasks s r := by
  obtain ⟨hcompleted, hfaits⟩ := completed_of_conclue h hetat (hfinies n) hconclue
  have hcoherente := (h.manches r n).coherente
  have hconnues := statut_manches h hplan r n
  obtain ⟨⟨t, ht⟩, hfini⟩ := hcoherente.achevees m hcompleted
  refine ⟨fun hvide => ?_, fun task htask hvide => ?_, fun k id x hx hm => ?_⟩
  · have hmem := (hconnues t).mp ht
    rw [hvide] at hmem
    cases hmem
  · obtain ⟨st, hst⟩ := Option.ne_none_iff_exists'.mp
      ((hconnues "").mpr (hvide ▸ List.mem_map_of_mem htask))
    exact hcoherente.innommee m (hfini _ _ hst ▸ hst)
  · have hfiche : (s.manches r k).vue.fiche id =
        some ⟨x.context.missionId, x.context.taskId, x.state⟩ := by
      simp only [vue, hx, Option.map_some]
    rcases Nat.le_total k n with hkn | hnk
    · obtain ⟨x', hx', hmission, hmeme⟩ := fiche_manches h hkn hfiche (hfinies k id x hx hm)
      obtain ⟨a, ha, rfl⟩ := Option.map_eq_some_iff.mp hx'
      exact hmeme.symm.trans (hfaits id a ha (hmission.trans hm))
    · obtain ⟨x', hx', hmission⟩ := fiche_apres_fin h hnk hcompleted hfiche hm
      obtain ⟨a, ha, rfl⟩ := Option.map_eq_some_iff.mp hx'
      obtain ⟨x'', hx'', -, hmeme⟩ := fiche_manches h hnk hx' (hfinies n id a ha hmission)
      rw [hfiche] at hx''
      cases hx''
      exact hmeme.trans (hfaits id a ha hmission)

/-- A mission whose agents have all ended is brought to its end by the ticks that follow exactly
when it has tasks, all with a name, whose agents all complete. One tick more than it has tasks is
then enough. -/
theorem conclue_iff (strategy : PlanningStrategy) (availableCapabilities : Option (List String))
    (timeoutS : Rat) (runtimeSelector : Option (String → Option String)) (histoire : List Appel)
    (r : Nat → Manche)
    (hs : (nouvelle strategy availableCapabilities timeoutS runtimeSelector).apres histoire = s)
    (hetat : (s.mission m).map MissionInstance.state = some .running) (hplan : s.plan m = some plan)
    (hfinies : ∀ n, Finie m (s.manches r n))
    (hneuves : ∀ n, Neuves (r n).alea m (s.manches r n)) :
    ((∃ n ≤ plan.tasks.length + 1, Conclue m plan.tasks (s.manches r n)) ↔
        Favorable m plan.tasks s r) ∧
      ((∃ n, Conclue m plan.tasks (s.manches r n)) ↔ Favorable m plan.tasks s r) := by
  have htenue : s.Tenue :=
    hs ▸ (tenue_nouvelle strategy availableCapabilities timeoutS runtimeSelector).apres histoire
  have hborne : Favorable m plan.tasks s r →
      ∃ n ≤ plan.tasks.length + 1, Conclue m plan.tasks (s.manches r n) := by
    intro hfavorable
    rcases completed_of_favorable htenue hetat hplan hneuves hfavorable
      (plan.tasks.length + 1) with hcompleted | ⟨-, hborne⟩
    · exact ⟨_, Nat.le_refl _, conclue_of_favorable hcompleted hfavorable⟩
    · omega
  have hretour : ∀ n, Conclue m plan.tasks (s.manches r n) → Favorable m plan.tasks s r :=
    fun n => favorable_of_conclue htenue hetat hplan hfinies
  refine ⟨⟨fun ⟨n, _, hconclue⟩ => hretour n hconclue, hborne⟩,
    ⟨fun ⟨n, hconclue⟩ => hretour n hconclue, fun hfavorable => ?_⟩⟩
  obtain ⟨n, -, hconclue⟩ := hborne hfavorable
  exact ⟨n, hconclue⟩

theorem tick_of_aucune (alea : Alea)
    (h : ∀ item ∈ s.superviseur.missions, item.2.state ≠ .running) : (s.tick alea).1 = s := by
  have htous : ∀ (items : List (String × MissionInstance)) (changed : List String),
      (∀ item ∈ items, item.2.state ≠ .running) → (tickMissions alea items changed s).1 = s := by
    intro items
    induction items with
    | nil => exact fun _ _ => rfl
    | cons item items ih =>
        intro changed hitems
        rw [tickMissions, if_neg (hitems item List.mem_cons_self)]
        exact ih changed fun item' hitem' => hitems item' (List.mem_cons_of_mem _ hitem')
  exact htous s.superviseur.missions [] h

end Manches

def uneTache : List PlannedTask := [{ id := "a", title := "Schema" }]

def depart : Supervision :=
  (nouvelle .balanced none 300 none).apres [.createMission { missionId := "m" } uneTache,
    .startMission "m"]

/-- The agent of the task ends, after the first tick. -/
def finEnTete (fin : {op : Operation // op.Courante}) : Nat → Manche
  | 0 => ⟨aleaFixe, [fin]⟩
  | _ + 1 => ⟨aleaFixe, []⟩

def reussite : Nat → Manche := finEnTete ⟨.completeAgent "m__a__00000000" 2, trivial⟩

def echec : Nat → Manche := finEnTete ⟨.failAgent "m__a__00000000" 2, trivial⟩

theorem tenue_depart : depart.Tenue := (tenue_nouvelle .balanced none 300 none).apres _

theorem finie_of_agents {s : Supervision} {m : String} (h : ∀ item ∈ s.lifecycle.agents,
    item.2.context.missionId = m → item.2.state.terminal = true) : Finie m s :=
  fun id x hx hm => h (id, x) (Dict.mem_of_get? hx) hm

/-- The agent of the task fails, and no number of ticks concludes the mission. -/
theorem echec_sans_conclusion :
    (depart.mission "m").map MissionInstance.state = some .running ∧
      Finie "m" (depart.manches echec 1) ∧
      ((depart.manches echec 1).agent "m__a__00000000").map AgentInstance.state = some .failed ∧
      ∀ n, ¬ Conclue "m" uneTache (depart.manches echec (n + 1)) := by
  have hetat : depart.vue.etat "m" = some .running := by decide +kernel
  have hfiche : (depart.manches echec 1).vue.fiche "m__a__00000000" = some ⟨"m", "a", .failed⟩ := by
    have hagent : ((depart.manches echec 1).agent "m__a__00000000").map
        (fun x => (x.context.missionId, x.context.taskId, x.state)) = some ("m", "a", .failed) := by
      decide +kernel
    obtain ⟨x, hx, heq⟩ := Option.map_eq_some_iff.mp hagent
    rw [Prod.mk.injEq, Prod.mk.injEq] at heq
    simp only [vue, hx, Option.map_some, heq]
  refine ⟨hetat, finie_of_agents (by decide +kernel), by decide +kernel, fun n hconclue => ?_⟩
  obtain ⟨x, hx, hm, hfailed⟩ :=
    fiche_manches tenue_depart (Nat.le_add_left 1 n) hfiche (by rfl)
  obtain ⟨a, ha, rfl⟩ := Option.map_eq_some_iff.mp hx
  have hfin := hconclue.echouee ⟨_, a, ha, hm, .inl hfailed⟩
  rcases etat_manches tenue_depart hetat echec (n + 1) with hrunning | hcompleted
  · rw [mission_of_etat hrunning] at hfin
    cases hfin
  · rw [mission_of_etat hcompleted] at hfin
    cases hfin

theorem manches_reussite (n : Nat) : depart.manches reussite (n + 2) = depart.manches reussite 2 := by
  induction n with
  | zero => rfl
  | succ n ih =>
      have hsuite : depart.manches reussite (n + 1 + 2) =
          ((depart.manches reussite (n + 2)).tick aleaFixe).1 := rfl
      rw [hsuite, ih]
      exact tick_of_aucune aleaFixe (by decide +kernel)

theorem manches_reussite_cases {P : Supervision → Prop} (h₀ : P depart)
    (h₁ : P (depart.manches reussite 1)) (h₂ : P (depart.manches reussite 2)) (n : Nat) :
    P (depart.manches reussite n) := by
  match n with
  | 0 => exact h₀
  | 1 => exact h₁
  | n + 2 => exact manches_reussite n ▸ h₂

theorem conclue_uneTache : ∃ n ≤ 2, Conclue "m" uneTache (depart.manches reussite n) := by
  have hetat : depart.vue.etat "m" = some .running := by decide +kernel
  have htasks : (depart.plan "m").map TaskPlan.tasks = some uneTache := by decide +kernel
  obtain ⟨plan, hplan, hune⟩ := Option.map_eq_some_iff.mp htasks
  have hseule : ∀ n, (depart.manches reussite n).superviseur.missions.keys = ["m"] := by
    refine @manches_reussite_cases (fun s => s.superviseur.missions.keys = ["m"]) ?_ ?_ ?_ <;>
      decide +kernel
  have hlibre : ∀ n, (depart.manches reussite n).vue.statut "m" "a" = some .pending →
      (depart.manches reussite n).agent "m__a__00000000" = none := by
    refine @manches_reussite_cases (fun s => s.vue.statut "m" "a" = some .pending →
      s.agent "m__a__00000000" = none) ?_ ?_ ?_ <;> decide +kernel
  have hconnues : ∀ n m t, (depart.manches reussite n).vue.statut m t = some .pending →
      m = "m" ∧ t = "a" := by
    intro n m t hst
    have hne := (tenue_depart.manches reussite n).coherente.connues m t _ hst
    have hm : m ∈ (depart.manches reussite n).superviseur.missions.keys := by
      refine Dict.isSome_get?.mp (Option.isSome_iff_ne_none.mpr fun hnone => hne ?_)
      simp only [vue, mission, hnone, Option.map_none]
    rw [hseule, List.mem_singleton] at hm
    subst hm
    have ht := (statut_manches tenue_depart hplan reussite n t).mp
      (by rw [hst]; exact Option.some_ne_none _)
    rw [hune] at ht
    exact ⟨rfl, List.mem_singleton.mp ht⟩
  have hfinies : ∀ n, Finie "m" (depart.manches reussite n) :=
    manches_reussite_cases (finie_of_agents (by decide +kernel))
      (finie_of_agents (by decide +kernel)) (finie_of_agents (by decide +kernel))
  have hneuves : ∀ n, Neuves (reussite n).alea "m" (depart.manches reussite n) := by
    intro n
    have halea : (reussite n).alea = aleaFixe := by cases n <;> rfl
    rw [halea]
    refine ⟨fun t ht => ?_, fun t m' t' ht ht' _ => ?_⟩
    · obtain ⟨-, rfl⟩ := hconnues n _ t ht
      exact hlibre n ht
    · obtain ⟨-, rfl⟩ := hconnues n _ t ht
      exact hconnues n m' t' ht'
  have hcompletes : ∀ n, ∀ item ∈ (depart.manches reussite n).lifecycle.agents,
      item.2.state = .completed := by
    refine @manches_reussite_cases (fun s => ∀ item ∈ s.lifecycle.agents,
      item.2.state = .completed) ?_ ?_ ?_ <;> decide +kernel
  have hiff := (conclue_iff .balanced none 300 none _ reussite rfl (mission_of_etat hetat) hplan
    hfinies hneuves).1
  rw [hune] at hiff
  exact hiff.mpr ⟨by decide, by decide, fun n id x hx _ => hcompletes n _ (Dict.mem_of_get? hx)⟩

end Hermes.Agent.Supervisor.Supervision
