import Hermes.Agent.Histoires

/-! # What the observers of the supervisor receive

Each tick goes through every agent that a mission ever had.
-/

namespace Hermes.Agent.Supervisor.Supervision

open Lib Lifecycle Conduite
open Relation (ReflTransGen)
open TaskPlanner (TaskPlan)

/-- The agent has completed or failed, and its mission is running: a tick has to see it. -/
def enFin (s : Supervision) (id : String) : Bool :=
  match s.agent id with
  | none => false
  | some x =>
      annonce x.state ≠ [] ∧
        (s.mission x.context.missionId).map MissionInstance.state = some .running

/-- The supervisor, with the agents whose end a tick has seen. -/
structure Suivi where
  s : Supervision
  vus : List String := []

def suivre (σ : Suivi) (appel : Appel) : Suivi where
  s := σ.s.executer appel
  vus := if appel.estTick then σ.vus ++ σ.s.lifecycle.agents.keys.filter σ.s.enFin else σ.vus

def suivi (s : Supervision) (histoire : List Appel) : Suivi := histoire.foldl suivre { s := s }

/-- What an observer relies on: one agent for each task, created in time, and each end announced
once, by the first tick that sees it. -/
structure Fidele (σ : Suivi) : Prop where
  uneFois : ∀ id id' x x', σ.s.agent id = some x → σ.s.agent id' = some x' →
    x.context.missionId = x'.context.missionId → x.context.taskId = x'.context.taskId → id = id'
  aTemps : ∀ appel id x, σ.s.agent id = none → (σ.s.executer appel).agent id = some x →
    ∃ mission plan, σ.s.mission x.context.missionId = some mission ∧ mission.state = .running ∧
      mission.taskPlan = some plan ∧
      ∀ task ∈ plan.tasks, task.id = x.context.taskId → ∀ dep ∈ task.dependencies,
        ∃ id' x', σ.s.agent id' = some x' ∧ x'.context.missionId = x.context.missionId ∧
          x'.context.taskId = dep ∧ x'.state = .completed
  annoncees : ∀ id x, σ.s.agent id = some x →
    σ.s.annoncesDe id = if id ∈ σ.vus then annonce x.state else []
  emises : σ.s.superviseur.evenements.filter finale = σ.s.annonces.map Prod.snd

/-- The call is no tick that finds again an end that one has seen, or the end of an agent whose
task has the empty id. -/
def Inedit (σ : Suivi) (appel : Appel) : Prop :=
  appel.estTick = true → ∀ id x, σ.s.agent id = some x → σ.s.enFin id = true →
    id ∉ σ.vus ∧ x.context.taskId ≠ ""

section Invariant

variable {s : Supervision} {σ : Suivi} {appel : Appel} {id : String} {x : Fiche}

theorem fiche_of_agent {a : AgentInstance} (h : s.agent id = some a) :
    s.vue.fiche id = some ⟨a.context.missionId, a.context.taskId, a.state⟩ := by
  simp only [vue, h, Option.map_some]

theorem agent_of_fiche (h : s.vue.fiche id = some x) : ∃ a, s.agent id = some a ∧
    a.context.missionId = x.mission ∧ a.context.taskId = x.tache ∧ a.state = x.etat := by
  obtain ⟨a, ha, rfl⟩ := Option.map_eq_some_iff.mp h
  exact ⟨a, ha, rfl, rfl, rfl⟩

theorem enFin_iff : s.enFin id = true ↔ ∃ x, s.vue.fiche id = some x ∧ annonce x.etat ≠ [] ∧
    s.vue.etat x.mission = some .running := by
  unfold enFin vue
  dsimp only
  cases s.agent id with
  | none => simp
  | some a => simp

theorem annoncesDe_tick (h : s.Tenue) (alea : Alea) (hx : s.vue.fiche id = some x) :
    (s.tick alea).1.annoncesDe id =
      s.annoncesDe id ++ if s.enFin id = true ∧ x.tache ≠ "" then annonce x.etat else [] := by
  rw [(tick_spec h alea).2.2.2 id, finPour, hx]
  refine congrArg (s.annoncesDe id ++ ·) ?_
  simp only [mem_enCours h.rangee]
  by_cases hannonce : annonce x.etat = []
  · rw [hannonce]
    simp
  · have hfin : s.enFin id = true ↔ s.vue.etat x.mission = some .running := by
      rw [enFin_iff, hx]
      simp [hannonce]
    simp only [hfin]

/-- What is announced has been seen, and has a name. -/
structure Suivable (σ : Suivi) : Prop where
  tenue : σ.s.Tenue
  finis : ∀ id ∈ σ.vus, ∃ x, σ.s.vue.fiche id = some x ∧ annonce x.etat ≠ []
  tus : ∀ id, id ∉ σ.vus → σ.s.annoncesDe id = []
  innommes : ∀ id x, σ.s.vue.fiche id = some x → x.tache = "" → σ.s.annoncesDe id = []

theorem mem_vus_suivre : id ∈ (suivre σ appel).vus ↔
    id ∈ σ.vus ∨ (appel.estTick = true ∧ σ.s.enFin id = true) := by
  unfold suivre
  dsimp only
  split
  · next htick =>
      rw [List.mem_append, List.mem_filter, htick]
      refine or_congr_right ⟨fun h => ⟨rfl, h.2⟩, fun h => ⟨?_, h.2⟩⟩
      obtain ⟨x, hx, -⟩ := enFin_iff.mp h.2
      obtain ⟨a, ha, -⟩ := agent_of_fiche hx
      exact Dict.isSome_get?.mp (Option.isSome_iff_exists.mpr ⟨a, ha⟩)
  · next htick => simp [htick]

theorem terminal_of_annonce (h : annonce x.etat ≠ []) : x.etat.terminal = true := by
  cases hetat : x.etat <;> rw [hetat] at h <;> first
    | rfl
    | exact absurd rfl h

theorem annoncesDe_executer (h : s.Tenue) (appel : Appel) (id : String) :
    (s.executer appel).annoncesDe id = s.annoncesDe id ++
      match s.vue.fiche id with
      | none => []
      | some x =>
          if appel.estTick = true ∧ s.enFin id = true ∧ x.tache ≠ "" then annonce x.etat else [] := by
  cases htick : appel.estTick with
  | true =>
      cases appel with
      | tick alea =>
          cases hx : s.vue.fiche id with
          | none =>
              refine ((tick_spec h alea).2.2.2 id).trans ?_
              rw [finPour, hx]
          | some x =>
              refine (annoncesDe_tick h alea hx).trans ?_
              simp
      | _ => cases htick
  | false =>
      rw [annoncesDe, (progresse_executer s htick).2, annoncesDe]
      cases s.vue.fiche id <;> simp

theorem Suivable.suivre (h : Suivable σ) (appel : Appel) : Suivable (suivre σ appel) := by
  have hannonces := annoncesDe_executer h.tenue appel
  refine ⟨h.tenue.executer appel, fun id hid => ?_, fun id hid => ?_, fun id x hx hnom => ?_⟩
  · have hfini : ∃ x, σ.s.vue.fiche id = some x ∧ annonce x.etat ≠ [] := by
      rcases mem_vus_suivre.mp hid with hid | ⟨-, hfin⟩
      · exact h.finis id hid
      · obtain ⟨x, hx, hannonce, -⟩ := enFin_iff.mp hfin
        exact ⟨x, hx, hannonce⟩
    obtain ⟨x, hx, hannonce⟩ := hfini
    obtain ⟨x', hx', -, -, hetat⟩ := fiche_executer h.tenue appel hx
    exact ⟨x', hx', by rwa [hetat (terminal_of_annonce hannonce)]⟩
  · rw [mem_vus_suivre, not_or, not_and] at hid
    refine (hannonces id).trans ?_
    rw [h.tus id hid.1, List.nil_append]
    split
    · rfl
    · exact if_neg fun hcond => hid.2 hcond.1 hcond.2.1
  · refine (hannonces id).trans ?_
    cases hx₀ : σ.s.vue.fiche id with
    | none =>
        rw [h.tus id fun hvu => ?_]
        · rfl
        · obtain ⟨y, hy, -⟩ := h.finis id hvu
          rw [hx₀] at hy
          cases hy
    | some x₀ =>
        obtain ⟨x', hx', -, htache, -⟩ := fiche_executer h.tenue appel hx₀
        have hmeme : x' = x := Option.some.inj (hx'.symm.trans hx)
        have hnom₀ : x₀.tache = "" := by rw [← htache, hmeme, hnom]
        rw [h.innommes id x₀ hx₀ hnom₀]
        exact if_neg fun hcond => hcond.2.2 hnom₀

theorem Suivable.suivi (h : s.Tenue) (hrien : s.annonces = []) (histoire : List Appel) :
    Suivable (suivi s histoire) := by
  have hfold : ∀ σ, Suivable σ → Suivable (histoire.foldl Supervision.suivre σ) := by
    induction histoire with
    | nil => exact fun σ h => h
    | cons appel histoire ih => exact fun σ h => ih _ (h.suivre appel)
  have hvide : ∀ id, s.annoncesDe id = [] := fun id => by simp [annoncesDe, hrien]
  exact hfold _ ⟨h, fun _ hid => absurd hid List.not_mem_nil, fun id _ => hvide id,
    fun id _ _ _ => hvide id⟩

theorem fidele_iff_vue (h : Suivable σ) : Fidele σ ↔ ∀ id x, σ.s.vue.fiche id = some x →
    σ.s.annoncesDe id = if id ∈ σ.vus then annonce x.etat else [] := by
  constructor
  · intro hfidele id x hx
    obtain ⟨a, ha, -, -, hetat⟩ := agent_of_fiche hx
    rw [hfidele.annoncees id a ha, hetat]
  · intro hannoncees
    refine ⟨fun id id' x x' hx hx' hmission htache => ?_, fun appel id x havant hx => ?_,
      fun id x hx => hannoncees id _ (fiche_of_agent hx), h.tenue.emises⟩
    · exact h.tenue.coherente.unique id id' _ _ (fiche_of_agent hx) (fiche_of_agent hx')
        hmission htache
    · have hnone : σ.s.vue.fiche id = none := by simp only [vue, havant, Option.map_none]
      cases htick : appel.estTick with
      | false =>
          have hevolue := (progresse_executer σ.s htick).1 id
          rw [show σ.s.lifecycle.fiche id = none from hnone,
            show (σ.s.executer appel).lifecycle.fiche id = some _ from fiche_of_agent hx] at hevolue
          cases hevolue
      | true =>
          cases appel with
          | tick alea =>
              obtain ⟨hrunning, hconnue, hamont⟩ := h.tenue.coherente.lancee_a_temps
                (tick_spec h.tenue alea).2.2.1 hnone (fiche_of_agent hx)
              obtain ⟨mission, hmission, hetat⟩ := Option.map_eq_some_iff.mp hrunning
              obtain ⟨st, hst⟩ := Option.ne_none_iff_exists'.mp hconnue
              obtain ⟨g, hg, -⟩ := Option.bind_eq_some_iff.mp hst
              obtain ⟨plan, hplan, -⟩ := Option.map_eq_some_iff.mp hg
              refine ⟨mission, plan, hmission, hetat, (plan_of_mission hmission).symm.trans hplan,
                fun task htask hid dep hdep => ?_⟩
              obtain ⟨id', x', hx', hmission', htache', hfait⟩ := hamont dep (by
                rw [arcs_of_plan hplan, (h.tenue.rangee.plans _ plan hplan).arcs]
                exact mem_declarees.mpr ⟨task, htask, hdep, hid.symm⟩)
              obtain ⟨a, ha, hm, ht, he⟩ := agent_of_fiche hx'
              exact ⟨id', a, ha, hm.trans hmission', ht.trans htache', he.trans hfait⟩
          | _ => cases htick

theorem fidele_suivre (h : Suivable σ) (hfidele : Fidele σ) (hinedit : Inedit σ appel) :
    Fidele (suivre σ appel) := by
  rw [fidele_iff_vue h] at hfidele
  refine (fidele_iff_vue (h.suivre appel)).mpr fun id x hx => ?_
  refine (annoncesDe_executer h.tenue appel id).trans ?_
  cases hx₀ : σ.s.vue.fiche id with
  | none =>
      -- a new agent: it has not ended
      have hpas : id ∉ σ.vus := fun hvu => by
        obtain ⟨y, hy, -⟩ := h.finis id hvu
        rw [hx₀] at hy
        cases hy
      have hpas' : id ∉ (suivre σ appel).vus := fun hvu => by
        rcases mem_vus_suivre.mp hvu with hvu | ⟨-, hfin⟩
        · exact hpas hvu
        · obtain ⟨y, hy, -⟩ := enFin_iff.mp hfin
          rw [hx₀] at hy
          cases hy
      rw [h.tus id hpas, if_neg hpas']
      rfl
  | some x₀ =>
      obtain ⟨x', hx', -, -, hetat⟩ := fiche_executer h.tenue appel hx₀
      have hmeme : x' = x := Option.some.inj (hx'.symm.trans hx)
      rw [hmeme] at hetat
      dsimp only
      rw [hfidele id x₀ hx₀]
      simp only [mem_vus_suivre]
      by_cases hvu : id ∈ σ.vus
      · obtain ⟨y, hy, hannonce⟩ := h.finis id hvu
        have hy' : y = x₀ := Option.some.inj (hy.symm.trans hx₀)
        rw [hy'] at hannonce
        have hpas : ¬ (appel.estTick = true ∧ σ.s.enFin id = true ∧ x₀.tache ≠ "") := by
          rintro ⟨htick, hfin, -⟩
          obtain ⟨a, ha, -⟩ := agent_of_fiche hx₀
          exact (hinedit htick id a ha hfin).1 hvu
        rw [if_pos hvu, if_pos (Or.inl hvu), if_neg hpas, List.append_nil,
          hetat (terminal_of_annonce hannonce)]
      · rw [if_neg hvu, List.nil_append]
        by_cases hfin : appel.estTick = true ∧ σ.s.enFin id = true
        · obtain ⟨a, ha, -, htache, -⟩ := agent_of_fiche hx₀
          have hnom : x₀.tache ≠ "" := htache ▸ (hinedit hfin.1 id a ha hfin.2).2
          obtain ⟨y, hy, hannonce, -⟩ := enFin_iff.mp hfin.2
          have hy' : y = x₀ := Option.some.inj (hy.symm.trans hx₀)
          rw [hy'] at hannonce
          rw [if_pos ⟨hfin.1, hfin.2, hnom⟩, if_pos (Or.inr hfin),
            hetat (terminal_of_annonce hannonce)]
        · rw [if_neg fun hcond => hfin ⟨hcond.1, hcond.2.1⟩, if_neg]
          rintro (hvu' | hfin')
          · exact hvu hvu'
          · exact hfin hfin'

theorem inedit_of_fidele (h : Suivable σ) (hfidele : Fidele σ)
    (hfidele' : Fidele (suivre σ appel)) : Inedit σ appel := by
  intro htick id a ha hfin
  obtain ⟨x, hx, hannonce, -⟩ := enFin_iff.mp hfin
  have hmeme : x = ⟨a.context.missionId, a.context.taskId, a.state⟩ :=
    Option.some.inj (hx.symm.trans (fiche_of_agent ha))
  obtain ⟨x', hx', -, htache, hetat⟩ := fiche_executer h.tenue appel hx
  have hvu' : id ∈ (suivre σ appel).vus := mem_vus_suivre.mpr (.inr ⟨htick, hfin⟩)
  have hapres := (fidele_iff_vue (h.suivre appel)).mp hfidele' id x' hx'
  rw [if_pos hvu', hetat (terminal_of_annonce hannonce)] at hapres
  have hnom : x.tache ≠ "" := by
    intro hvide
    rw [(h.suivre appel).innommes id x' hx' (htache.trans hvide)] at hapres
    exact hannonce hapres.symm
  refine ⟨fun hvu => ?_, fun hvide => hnom (by rw [hmeme]; exact hvide)⟩
  have hdouble := (annoncesDe_executer h.tenue appel id).symm.trans hapres
  rw [(fidele_iff_vue h).mp hfidele id x hx, if_pos hvu, hx] at hdouble
  dsimp only at hdouble
  rw [if_pos ⟨htick, hfin, hnom⟩] at hdouble
  have hlongueur := congrArg List.length hdouble
  rw [List.length_append] at hlongueur
  exact hannonce (List.length_eq_zero_iff.mp (by omega))

/-- A history is faithful throughout exactly when none of its ticks finds an end that an earlier
one has seen, or the end of an agent whose task has the empty id. -/
theorem fidele_suivi_iff (strategy : PlanningStrategy)
    (availableCapabilities : Option (List String)) (timeoutS : Rat)
    (runtimeSelector : Option (String → Option String)) (histoire : List Appel) :
    (∀ avant, avant <+: histoire → Fidele
        (suivi (nouvelle strategy availableCapabilities timeoutS runtimeSelector) avant)) ↔
      ∀ avant appel, avant ++ [appel] <+: histoire → Inedit
        (suivi (nouvelle strategy availableCapabilities timeoutS runtimeSelector) avant) appel := by
  have htenue := tenue_nouvelle strategy availableCapabilities timeoutS runtimeSelector
  generalize hs : nouvelle strategy availableCapabilities timeoutS runtimeSelector = s at htenue
  have hsuivable := Suivable.suivi htenue (by rw [← hs]; rfl)
  have hconcat : ∀ avant appel, suivi s (avant ++ [appel]) = suivre (suivi s avant) appel := by
    intro avant appel
    rw [suivi, List.foldl_append]
    rfl
  constructor
  · intro hfidele avant appel havant
    refine inedit_of_fidele (hsuivable avant)
      (hfidele avant ((List.prefix_append _ _).trans havant)) ?_
    rw [← hconcat]
    exact hfidele _ havant
  · intro hinedit avant havant
    induction avant using List.reverseRecOn with
    | nil =>
        refine (fidele_iff_vue (hsuivable [])).mpr fun id x hx => ?_
        rw [← hs] at hx
        cases hx
    | append_singleton avant appel ih =>
        rw [hconcat]
        exact fidele_suivre (hsuivable avant) (ih ((List.prefix_append _ _).trans havant))
          (hinedit avant appel havant)

end Invariant

def aleaFixe : Alea where
  parcours := id
  perm := fun _ => .rfl
  hex := fun _ _ => "00000000"
  horloge := fun _ _ => 1

def deuxTaches : List PlannedTask :=
  [{ id := "a", title := "Schema" }, { id := "b", title := "API", dependencies := ["a"] }]

/-- The agent of the first task completes, and two ticks follow. -/
def deuxTicks : List Appel :=
  [.createMission { missionId := "m" } deuxTaches, .startMission "m", .tick aleaFixe,
    .agent (.completeAgent "m__a__00000000" 2) trivial, .tick aleaFixe, .tick aleaFixe]

theorem fin_annoncee_deux_fois :
    (suivi (nouvelle .balanced none 300 none) deuxTicks).s.annoncesDe "m__a__00000000" =
        [.agentCompleted, .agentCompleted] ∧
      ¬ (∀ avant, avant <+: deuxTicks →
          Fidele (suivi (nouvelle .balanced none 300 none) avant)) := by
  have hdouble : (suivi (nouvelle .balanced none 300 none) deuxTicks).s.annoncesDe
      "m__a__00000000" = [.agentCompleted, .agentCompleted] := by decide +kernel
  refine ⟨hdouble, fun hfidele => ?_⟩
  have hagent : ((suivi (nouvelle .balanced none 300 none) deuxTicks).s.agent
      "m__a__00000000").isSome = true := by decide +kernel
  obtain ⟨x, hx⟩ := Option.isSome_iff_exists.mp hagent
  have hune := (hfidele deuxTicks List.prefix_rfl).annoncees _ x hx
  rw [hdouble] at hune
  split at hune
  · cases hetat : x.state <;> rw [hetat] at hune <;> cases hune
  · cases hune

end Hermes.Agent.Supervisor.Supervision
