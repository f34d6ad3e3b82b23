import Hermes.Lib.Tours
import Hermes.Execution.Appel

/-! # A node of a mission through the executor

`execute_node` prepares an execution of one task and calls `execute_task` as long as the task is
PENDING. The loop has no counter of its own: it relies on each call to settle the task or to spend
one of its retries, which only a call that finds the task does.
-/

namespace Hermes.NodeExecution

open Lib Tours Execution

/-- What the other executions do to the shared executor. -/
structure Autrui (r : Nat) where
  agir : MissionExecutor → MissionExecutor
  objet : ∀ ex, (agir ex).scheduler.objets r = ex.scheduler.objets r
  inscription : ∀ ex taskId, (agir ex).scheduler.getTask taskId = some r →
    ex.scheduler.getTask taskId = some r

def Autrui.rien (r : Nat) : Autrui r := ⟨id, fun _ => rfl, fun _ _ h => h⟩

/-- What surrounds one call: what the others and the user do before it and while the inference runs,
whether the controller still holds the execution, the clock, the choices and the inference. -/
structure Circonstances (r : Nat) where
  avant : Autrui r
  commandesAvant : List Commande
  retenue : Bool
  budget : Budget
  choix : Selection
  debut : Int
  pendant : Autrui r
  commandes : List Commande
  inf : Inference
  fin : Int

structure Etat where
  executor : MissionExecutor
  sm : ExecutionStateMachine

variable (mot : Char → Bool) {r : Nat}

def rencontre (c : Circonstances r) (e : Etat) : Etat :=
  { executor := c.avant.agir e.executor, sm := commanderTout e.sm c.commandesAvant }

/-- The task in flight when the inference ends: the user and the others have gone on. -/
def retrouver (c : Circonstances r) (vol : EnVol) : EnVol :=
  { vol.commander c.commandes with executor := c.pendant.agir vol.executor }

/-- `controller.execute_task`: a controller that has dropped the execution raises. -/
def executeTask (taskId : String) (c : Circonstances r) (e : Etat) : Option Sortie :=
  if c.retenue then
    let e := rencontre c e
    match e.executor.ouvrir e.sm taskId c.budget c.choix c.debut with
    | .sortie s => some s
    | .enVol vol => some ((retrouver c vol).repondre mot c.inf c.fin)
  else none

def tour (taskId : String) (c : Circonstances r) (e : Etat) :
    Tour Etat (MissionExecutor × Option Execution.Reponse) :=
  match executeTask mot taskId c e with
  | none => .fin (e.executor, none)
  | some s =>
      match s.resultat with
      | .error _ => .fin (s.executor, none)
      | .ok reponse =>
          if (s.executor.scheduler.objets r).status = .pending then
            .encore { executor := s.executor, sm := s.sm }
          else .fin (s.executor, some reponse)

/-- What `execute_node` answers of a loop that it has left. -/
def compteRendu (r : Nat) (ex : MissionExecutor) : Option Execution.Reponse → Bool
  | none => false
  | some (.indisponible ..) => false
  | some _ => (ex.scheduler.objets r).status = .completed

/-- `execute_node` on the task object `r`, within `n` calls: the executor it leaves and its
answer. -/
def executeNode (ex : MissionExecutor) (execMeta : ExecutionMeta) (cs : Nat → Circonstances r)
    (n : Nat) : Option (MissionExecutor × Bool) :=
  match ex.prepare execMeta [r] [] with
  | .error _ => some (ex, false)
  | .ok (ex, sm) =>
      (boucler (fun k => tour mot (ex.scheduler.objets r).taskId (cs k)) n 0 ⟨ex, sm⟩).map
        fun v => (v.1, compteRendu r v.1 v.2)

def Trouvee (taskId : String) (c : Circonstances r) (e : Etat) : Prop :=
  (rencontre c e).executor.scheduler.getTask taskId = some r

def Leve (taskId : String) (c : Circonstances r) (e : Etat) : Prop :=
  ∃ ex, tour mot taskId c e = .fin (ex, none)

/-- The registry has lost a task that is still PENDING. -/
structure Perdue (r : Nat) (taskId : String) (e : Etat) : Prop where
  pending : (e.executor.scheduler.objets r).status = .pending
  absente : e.executor.scheduler.getTask taskId ≠ some r

section Appel

variable {mot} {taskId : String} {c : Circonstances r} {e : Etat} {s : Sortie}

theorem objet_rencontre (c : Circonstances r) (e : Etat) :
    (rencontre c e).executor.scheduler.objets r = e.executor.scheduler.objets r :=
  c.avant.objet e.executor

theorem execMeta_rencontre (c : Circonstances r) (e : Etat) :
    (rencontre c e).sm.execMeta = e.sm.execMeta :=
  execMeta_commanderTout e.sm c.commandesAvant

theorem execMeta_retrouver {vol : EnVol} (h : Engage (rencontre c e).executor (rencontre c e).sm
    taskId vol) : (retrouver c vol).sm.execMeta = e.sm.execMeta := by
  have hretrouve : (retrouver c vol).sm.execMeta = vol.sm.execMeta :=
    execMeta_commanderTout vol.sm c.commandes
  rw [hretrouve, h.machine]
  exact execMeta_rencontre c e

theorem executeTask_execMeta (h : executeTask mot taskId c e = some s) :
    s.sm.execMeta = e.sm.execMeta := by
  unfold executeTask at h
  split at h
  · dsimp only at h
    split at h
    · next s' hs =>
        cases h
        rw [(ouvrir_sortie hs).1]
        exact execMeta_rencontre c e
    · next vol hvol =>
        cases h
        rw [execMeta_repondre]
        exact execMeta_retrouver (ouvrir_engage hvol)
  · cases h

theorem executeTask_perdue (hperdue : ¬ Trouvee taskId c e)
    (h : executeTask mot taskId c e = some s) :
    s.executor.scheduler.objets r = e.executor.scheduler.objets r ∧
      s.executor.scheduler.getTask taskId ≠ some r := by
  have hobjet := objet_rencontre c e
  unfold executeTask at h
  split at h
  · dsimp only at h
    split at h
    · next s' hs =>
        cases h
        obtain ⟨-, hnone | hsome⟩ := ouvrir_sortie hs
        · rw [hnone.2.1]
          exact ⟨hobjet, hperdue⟩
        · obtain ⟨r', hr', hrefus | hleve⟩ := hsome
          · have hne : r ≠ r' := fun heq => hperdue (hr'.trans (congrArg some heq.symm))
            rw [hrefus.2]
            exact ⟨(objets_refuserPourBudget_of_ne _ _ _ hne _ _).trans hobjet, hperdue⟩
          · rw [hleve.1]
            exact ⟨hobjet, hperdue⟩
    · next vol hvol =>
        cases h
        have hengage := ouvrir_engage hvol
        have hne : r ≠ (retrouver c vol).tache := fun heq =>
          hperdue (hengage.inscrite.trans (congrArg some heq.symm))
        have habsente : (retrouver c vol).executor.scheduler.getTask taskId ≠ some r := by
          intro hsome
          have hengagee := c.pendant.inscription _ _ hsome
          rw [hengage.cadre.inscrites] at hengagee
          exact hperdue hengagee
        have hnom : (retrouver c vol).taskId = taskId := hengage.nom
        have hintact : (retrouver c vol).executor.scheduler.objets r =
            (rencontre c e).executor.scheduler.objets r :=
          (c.pendant.objet vol.executor).trans (hengage.objets r hne)
        rw [cadre_repondre.inscrites, objets_repondre_of_ne hne (hnom ▸ habsente), hintact]
        exact ⟨hobjet, habsente⟩
  · cases h

theorem executeTask_relance {rep : Execution.Reponse} (htrouvee : Trouvee taskId c e)
    (h : executeTask mot taskId c e = some s) (hok : s.resultat = .ok rep)
    (hpending : (s.executor.scheduler.objets r).status = .pending) :
    (e.executor.scheduler.objets r).retries < e.sm.execMeta.maxRetriesPerTask ∧
      (s.executor.scheduler.objets r).retries = (e.executor.scheduler.objets r).retries + 1 := by
  have hobjet := objet_rencontre c e
  unfold Trouvee at htrouvee
  unfold executeTask at h
  split at h
  · dsimp only at h
    split at h
    · next s' hs =>
        -- a task that is found leaves the first section failed, or with an exception
        cases h
        obtain ⟨-, hnone | hsome⟩ := ouvrir_sortie hs
        · rw [hnone.1] at htrouvee
          cases htrouvee
        · obtain ⟨r', hr', hrefus | hleve⟩ := hsome
          · cases htrouvee.symm.trans hr'
            rw [hrefus.2, status_refuserPourBudget] at hpending
            cases hpending
          · rw [hok] at hleve
            cases hleve.2
    · next vol hvol =>
        cases h
        have hengage := ouvrir_engage hvol
        cases htrouvee.symm.trans hengage.inscrite
        have hretrouve : (retrouver c vol).executor.scheduler.objets (retrouver c vol).tache =
            vol.executor.scheduler.objets vol.tache := c.pendant.objet vol.executor
        have hmeta := execMeta_retrouver hengage
        have hrunning : ((retrouver c vol).executor.scheduler.objets
            (retrouver c vol).tache).status = .running := by
          rw [hretrouve]
          exact hengage.status
        have hrelance := repondre_pending hrunning hok hpending
        rw [hretrouve, hengage.retries, hobjet, hmeta] at hrelance
        exact hrelance
  · cases h

end Appel

section Tour

variable {mot} {taskId : String} {c : Circonstances r} {e e' : Etat}

theorem tour_encore (h : tour mot taskId c e = .encore e') :
    ∃ s rep, executeTask mot taskId c e = some s ∧ s.resultat = .ok rep ∧
      (s.executor.scheduler.objets r).status = .pending ∧ e' = ⟨s.executor, s.sm⟩ := by
  unfold tour at h
  split at h
  · cases h
  · next s hs =>
      split at h
      · cases h
      · next rep hrep =>
          split at h
          · next hpending =>
              cases h
              exact ⟨s, rep, hs, hrep, hpending, rfl⟩
          · cases h

theorem tour_perdue (hpending : (e.executor.scheduler.objets r).status = .pending)
    (hperdue : ¬ Trouvee taskId c e) (hleve : ¬ Leve mot taskId c e) :
    ∃ e', tour mot taskId c e = .encore e' ∧ Perdue r taskId e' := by
  cases hcall : executeTask mot taskId c e with
  | none => exact absurd ⟨e.executor, by unfold tour; rw [hcall]⟩ hleve
  | some s =>
      obtain ⟨hobjet, habsente⟩ := executeTask_perdue hperdue hcall
      cases hres : s.resultat with
      | error erreur => exact absurd ⟨s.executor, by unfold tour; simp only [hcall, hres]⟩ hleve
      | ok rep =>
          have hpending' : (s.executor.scheduler.objets r).status = .pending := by
            rw [hobjet]
            exact hpending
          refine ⟨⟨s.executor, s.sm⟩, ?_, hpending', habsente⟩
          unfold tour
          simp only [hcall, hres, hpending', if_true]

theorem Perdue.not_trouvee (h : Perdue r taskId e) (c : Circonstances r) :
    ¬ Trouvee taskId c e := fun htrouvee => h.absente (c.avant.inscription _ _ htrouvee)

end Tour

/-- The task as `execute_node` creates it. -/
structure Neuve (t : TaskExecution) : Prop where
  status : t.status = .pending
  retries : t.retries = 0

def depart (r : Nat) (ex : MissionExecutor) (execMeta : ExecutionMeta) : Etat :=
  match ex.prepare execMeta [r] [] with
  | .error _ => { executor := ex, sm := { execMeta := execMeta } }
  | .ok (ex, sm) => { executor := ex, sm := sm }

section Boucle

variable (ex : MissionExecutor) (execMeta : ExecutionMeta) (cs : Nat → Circonstances r)

/-- The state in which the loop makes its call `k`, if it does. -/
def appel (k : Nat) : Option Etat :=
  avant (fun k => tour mot (ex.scheduler.objets r).taskId (cs k)) (depart r ex execMeta) k

def plafond : Nat := execMeta.maxRetriesPerTask.toNat + 1

/-- The loop is left within its ceiling of calls, and answers True of a COMPLETED task only. -/
def Bornee : Prop :=
  ∃ ex' ok, executeNode mot ex execMeta cs (plafond execMeta) = some (ex', ok) ∧
    (ok = true → (ex'.scheduler.objets r).status = .completed)

variable {mot ex execMeta cs}

theorem executeNode_eq (n : Nat) :
    executeNode mot ex execMeta cs n =
      (boucler (fun k => tour mot (ex.scheduler.objets r).taskId (cs k)) n 0
        (depart r ex execMeta)).map fun v => (v.1, compteRendu r v.1 v.2) := by
  obtain ⟨ex', sm, hprepare, -, -, hobjets⟩ := ex.prepare_ready execMeta [r] []
  unfold executeNode depart
  rw [hprepare]
  simp only [hobjets]

theorem objets_depart :
    (depart r ex execMeta).executor.scheduler.objets = ex.scheduler.objets ∧
      (depart r ex execMeta).sm.execMeta = execMeta := by
  obtain ⟨ex', sm, hprepare, -, hmeta, hobjets⟩ := ex.prepare_ready execMeta [r] []
  unfold depart
  rw [hprepare]
  exact ⟨hobjets, hmeta⟩

theorem completed_of_compteRendu {ex : MissionExecutor} {rep : Option Execution.Reponse}
    (h : compteRendu r ex rep = true) : (ex.scheduler.objets r).status = .completed := by
  unfold compteRendu at h
  split at h
  · cases h
  · cases h
  · exact of_decide_eq_true h

variable (mot ex execMeta cs) in
theorem bornee_iff :
    Bornee mot ex execMeta cs ↔
      ∃ v, boucler (fun k => tour mot (ex.scheduler.objets r).taskId (cs k)) (plafond execMeta) 0
        (depart r ex execMeta) = some v := by
  unfold Bornee
  simp only [executeNode_eq, Option.map_eq_some_iff]
  constructor
  · intro h
    obtain ⟨ex', ok, ⟨v, hv, -⟩, -⟩ := h
    exact ⟨v, hv⟩
  · intro h
    obtain ⟨v, hv⟩ := h
    exact ⟨v.1, _, ⟨v, hv, rfl⟩, completed_of_compteRendu⟩

/-- What each call that finds the task passes to the next: the retries count the calls. -/
structure Comptee (execMeta : ExecutionMeta) (r : Nat) (k : Nat) (e : Etat) : Prop where
  mission : e.sm.execMeta = execMeta
  retries : (e.executor.scheduler.objets r).retries = k
  reste : k ≤ execMeta.maxRetriesPerTask.toNat

theorem Comptee.tour {taskId : String} {c : Circonstances r} {k : Nat} {e e' : Etat}
    (h : Comptee execMeta r k e) (htrouvee : Trouvee taskId c e)
    (hencore : tour mot taskId c e = .encore e') : Comptee execMeta r (k + 1) e' := by
  obtain ⟨s, rep, hcall, hok, hpending, rfl⟩ := tour_encore hencore
  obtain ⟨hlt, hretries⟩ := executeTask_relance htrouvee hcall hok hpending
  rw [h.mission, h.retries] at hlt
  rw [h.retries] at hretries
  refine ⟨(executeTask_execMeta hcall).trans h.mission, ?_, by omega⟩
  rw [hretries]
  exact (Nat.cast_succ k).symm

theorem pending_appel (hneuve : Neuve (ex.scheduler.objets r)) {k : Nat} {e : Etat}
    (h : appel mot ex execMeta cs k = some e) :
    (e.executor.scheduler.objets r).status = .pending := by
  cases k with
  | zero =>
      cases h
      rw [objets_depart.1]
      exact hneuve.status
  | succ k =>
      obtain ⟨e₀, -, hencore⟩ := avant_succ_eq_some h
      obtain ⟨s, rep, -, -, hpending, rfl⟩ := tour_encore hencore
      exact hpending

theorem appel_of_perdue (hneuve : Neuve (ex.scheduler.objets r)) {k n : Nat} (hk : k < n)
    {e : Etat} (happel : appel mot ex execMeta cs k = some e)
    (hperdue : ¬ Trouvee (ex.scheduler.objets r).taskId (cs k) e)
    (hsuite : ∀ j < n, ∀ e, appel mot ex execMeta cs j = some e →
      ¬ Leve mot (ex.scheduler.objets r).taskId (cs j) e) :
    ∃ e', appel mot ex execMeta cs n = some e' := by
  have hpending := pending_appel hneuve happel
  obtain ⟨e', hencore, hperdue'⟩ := tour_perdue hpending hperdue (hsuite k hk e happel)
  have hreste := avant_persiste (L := Perdue r (ex.scheduler.objets r).taskId)
    (avant_succ happel hencore) hperdue' hk
    fun j _ hj e₁ he₁ hperdue₁ =>
      tour_perdue hperdue₁.pending (hperdue₁.not_trouvee (cs j)) (hsuite j hj e₁ he₁)
  obtain ⟨e₁, he₁, -⟩ := hreste
  exact ⟨e₁, he₁⟩

end Boucle

/-- The registrations of other executions, in order. -/
def inscrireTout (autres : List Nat) (s : TaskScheduler) : TaskScheduler :=
  autres.foldl (fun s r => s.registerTask r []) s

theorem objets_inscrireTout (s : TaskScheduler) (autres : List Nat) :
    (inscrireTout autres s).objets = s.objets := by
  induction autres generalizing s with
  | nil => rfl
  | cons r autres ih => exact (ih _).trans (TaskScheduler.objets_registerTask s r [])

theorem getTask_of_inscrireTout {s : TaskScheduler} (h : s.taches.keys.Nodup) {autres : List Nat}
    (hr : r ∉ autres) {taskId : String}
    (hsome : (inscrireTout autres s).getTask taskId = some r) : s.getTask taskId = some r := by
  induction autres generalizing s with
  | nil => exact hsome
  | cons r' autres ih =>
      have hne : r' ≠ r := fun heq => hr (heq ▸ List.mem_cons_self)
      have hautres : r ∉ autres := fun hmem => hr (List.mem_cons_of_mem r' hmem)
      exact TaskScheduler.getTask_of_registerTask h hne
        (ih (TaskScheduler.nodup_registerTask h r' []) hautres hsome)

theorem tient_inscrireTout {s : TaskScheduler} {rs autres : List Nat} (h : s.Tient rs)
    (hnoms : s.Distinctes) (hnodup : (rs ++ autres).Nodup)
    (hplace : (rs ++ autres).length ≤ TaskScheduler.MAX_RETAINED_TASKS) :
    (inscrireTout autres s).Tient (rs ++ autres) := by
  induction autres generalizing s rs with
  | nil =>
      rw [List.append_nil]
      exact h
  | cons r autres ih =>
      have hcons : rs ++ r :: autres = (rs ++ [r]) ++ autres := by simp
      have hr : r ∉ rs := by
        intro hmem
        exact (List.nodup_append.mp hnodup).2.2 r hmem r List.mem_cons_self rfl
      have hlt : rs.length < TaskScheduler.MAX_RETAINED_TASKS := by
        rw [List.length_append, List.length_cons] at hplace
        omega
      have hnext := TaskScheduler.tient_registerTask h hnoms hr hlt []
      rw [hcons] at hnodup hplace ⊢
      exact ih hnext (hnoms.of_objets (TaskScheduler.objets_registerTask s r [])) hnodup hplace

def Autrui.inscrire (autres : List Nat) (h : r ∉ autres) : Autrui r where
  agir ex :=
    if ex.scheduler.taches.keys.Nodup then
      { ex with scheduler := inscrireTout autres ex.scheduler }
    else ex
  objet ex := by
    split
    · exact congrFun (objets_inscrireTout _ _) r
    · rfl
  inscription ex taskId hsome := by
    split at hsome
    · next hnodup => exact getTask_of_inscrireTout hnodup h hsome
    · exact hsome

theorem agir_inscrire (autres : List Nat) (h : r ∉ autres) {ex : MissionExecutor}
    (hnodup : ex.scheduler.taches.keys.Nodup) :
    (Autrui.inscrire autres h).agir ex =
      { ex with scheduler := inscrireTout autres ex.scheduler } := if_pos hnodup

theorem tour_absente {taskId : String} {c : Circonstances r} {e : Etat}
    (hretenue : c.retenue = true)
    (habsente : (rencontre c e).executor.scheduler.getTask taskId = none)
    (hpending : ((rencontre c e).executor.scheduler.objets r).status = .pending) :
    tour mot taskId c e = .encore (rencontre c e) := by
  have hcall : executeTask mot taskId c e =
      some ⟨(rencontre c e).executor, (rencontre c e).sm, .ok (.notFound taskId)⟩ := by
    unfold executeTask MissionExecutor.ouvrir
    rw [if_pos hretenue]
    dsimp only
    rw [habsente]
  unfold tour
  rw [hcall]
  exact if_pos hpending

theorem executeNode_sansFin {mot : Char → Bool} {ex : MissionExecutor} {execMeta : ExecutionMeta}
    {cs : Nat → Circonstances r} (hneuve : Neuve (ex.scheduler.objets r))
    (hretenue : ∀ k, (cs k).retenue = true)
    (habsente : (rencontre (cs 0) (depart r ex execMeta)).executor.scheduler.getTask
      (ex.scheduler.objets r).taskId = none)
    (hrien : ∀ k e, rencontre (cs (k + 1)) e = e) (n : Nat) :
    executeNode mot ex execMeta cs n = none := by
  have hpending : ((rencontre (cs 0) (depart r ex execMeta)).executor.scheduler.objets r).status =
      .pending := by
    rw [objet_rencontre, objets_depart.1]
    exact hneuve.status
  have hpremier := tour_absente mot (hretenue 0) habsente hpending
  obtain ⟨e₁, he₁⟩ : ∃ e₁, e₁ = rencontre (cs 0) (depart r ex execMeta) := ⟨_, rfl⟩
  rw [← he₁] at habsente hpending hpremier
  have hsuivants : ∀ k, tour mot (ex.scheduler.objets r).taskId (cs (k + 1)) e₁ = .encore e₁ := by
    intro k
    have habsente' : (rencontre (cs (k + 1)) e₁).executor.scheduler.getTask
        (ex.scheduler.objets r).taskId = none := by
      rw [hrien]
      exact habsente
    have hpending' : ((rencontre (cs (k + 1)) e₁).executor.scheduler.objets r).status =
        .pending := by
      rw [hrien]
      exact hpending
    have hcall := tour_absente mot (hretenue (k + 1)) habsente' hpending'
    rw [hrien] at hcall
    exact hcall
  have hun : appel mot ex execMeta cs 1 = some e₁ := avant_succ (k := 0) rfl hpremier
  have hloop : ∃ e, appel mot ex execMeta cs n = some e := by
    cases n with
    | zero => exact ⟨_, rfl⟩
    | succ n =>
        have hreste := avant_persiste (L := (· = e₁)) hun rfl (Nat.le_add_left 1 n)
          fun j hj _ e he hegal => by
            cases j with
            | zero => omega
            | succ k =>
                rw [hegal]
                exact ⟨_, hsuivants k, rfl⟩
        obtain ⟨e, he, -⟩ := hreste
        exact ⟨e, he⟩
  rw [executeNode_eq, boucler_eq_none_iff.mpr hloop]
  rfl

def nom (r : Nat) : String := String.ofList (List.replicate (r + 1) 'n' ++ "-task".toList)

theorem nom_injective (r₁ r₂ : Nat) (h : nom r₁ = nom r₂) : r₁ = r₂ := by
  have hlength := congrArg List.length (String.ofList_injective h)
  simp only [List.length_append, List.length_replicate] at hlength
  omega

/-- Sixteen tasks of other executions wait in the registry. -/
def encombre : MissionExecutor where
  scheduler :=
    { objets := fun r => { taskId := nom r }
      taches := (List.range' 1 16).map fun r => (nom r, r)
      nommees := by
        intro item hitem
        obtain ⟨r, -, rfl⟩ := List.mem_map.mp hitem
        rfl }

/-- Before the first call the others register 496 tasks more, and then nothing happens. -/
def submerge (k : Nat) : Circonstances 0 where
  avant :=
    match k with
    | 0 => .inscrire (List.range' 17 496) (by simp)
    | _ + 1 => .rien 0
  commandesAvant := []
  retenue := true
  budget := ⟨0, 3600⟩
  choix := ⟨"dev", "ollama", [], []⟩
  debut := 0
  pendant := .rien 0
  commandes := []
  inf := reponseNette
  fin := 10000

/-- The loop is left within its ceiling exactly when each call that it makes up to there finds the
task of the node, or one of these calls raises. -/
theorem executeNode_bornee_iff (mot : Char → Bool) (ex : MissionExecutor)
    (execMeta : ExecutionMeta) (cs : Nat → Circonstances r)
    (hneuve : Neuve (ex.scheduler.objets r)) :
    Bornee mot ex execMeta cs ↔
      (∀ k < plafond execMeta, ∀ e, appel mot ex execMeta cs k = some e →
        Trouvee (ex.scheduler.objets r).taskId (cs k) e) ∨
      ∃ k < plafond execMeta, ∃ e, appel mot ex execMeta cs k = some e ∧
        Leve mot (ex.scheduler.objets r).taskId (cs k) e := by
  have hdepart : (depart r ex execMeta).executor.scheduler.objets = ex.scheduler.objets ∧
      (depart r ex execMeta).sm.execMeta = execMeta := objets_depart
  obtain ⟨hobjets, hmeta⟩ := hdepart
  rw [bornee_iff]
  constructor
  · intro hborne
    by_contra hnon
    obtain ⟨htrouvee, hleve⟩ := not_or.mp hnon
    have hsuite : ∀ j < plafond execMeta, ∀ e, appel mot ex execMeta cs j = some e →
        ¬ Leve mot (ex.scheduler.objets r).taskId (cs j) e :=
      fun j hj e happel hjleve => hleve ⟨j, hj, e, happel, hjleve⟩
    have hperdue : ∃ k < plafond execMeta, ∃ e, appel mot ex execMeta cs k = some e ∧
        ¬ Trouvee (ex.scheduler.objets r).taskId (cs k) e := by
      simpa only [not_forall, exists_prop] using htrouvee
    obtain ⟨k, hk, e, happel, hperdue⟩ := hperdue
    have hsansFin := boucler_eq_none_iff.mpr (appel_of_perdue hneuve hk happel hperdue hsuite)
    rw [hsansFin] at hborne
    obtain ⟨v, hv⟩ := hborne
    cases hv
  · intro hcas
    cases hcas with
    | inl htrouvee =>
        have hdebut : Comptee execMeta r 0 (depart r ex execMeta) := by
          refine ⟨hmeta, ?_, Nat.zero_le _⟩
          rw [hobjets, hneuve.retries]
          rfl
        refine boucler_finit (I := Comptee execMeta r) hdebut ?_ ?_
        · intro k hk e e' happel hcomptee hencore
          exact hcomptee.tour (htrouvee k hk e happel) hencore
        · intro e hcomptee
          have hreste := hcomptee.reste
          unfold plafond at hreste
          omega
    | inr hleve =>
        obtain ⟨k, hk, e, happel, ex', hfin⟩ := hleve
        exact ⟨_, boucler_of_fin happel hfin hk⟩

/-- Left alone, a node is answered for by one call. -/
theorem executeNode_bornee_iff_paisible :
    Bornee Char.isAlphanum
      { scheduler := .nouveau fun r => { taskId := nom r }
        coordinator := AgentCoordinator.registerAgent {} "dev" }
      { executionId := "e1" } fun k => submerge (k + 1) := by
  refine (executeNode_bornee_iff Char.isAlphanum _ _ _ ⟨rfl, rfl⟩).mpr (Or.inl ?_)
  intro k _ e happel
  cases k with
  | zero =>
      cases happel
      rfl
  | succ k =>
      have hfin : ∀ k, appel Char.isAlphanum
          { scheduler := .nouveau fun r => { taskId := nom r }
            coordinator := AgentCoordinator.registerAgent {} "dev" }
          { executionId := "e1" } (fun k => submerge (k + 1)) (k + 1) = none := by
        intro k
        induction k with
        | zero => rfl
        | succ k ih =>
            unfold appel at ih ⊢
            rw [avant, ih]
      rw [hfin k] at happel
      cases happel

theorem submerge_absente :
    (rencontre (submerge 0) (depart 0 encombre { executionId := "e1" })).executor.scheduler.getTask
      (nom 0) = none := by
  obtain ⟨s, hs⟩ : ∃ s, s = encombre.scheduler.registerTask 0 [] := ⟨_, rfl⟩
  have hnoms : encombre.scheduler.Distinctes := nom_injective
  have hobjets : s.objets = encombre.scheduler.objets := by
    rw [hs]
    exact TaskScheduler.objets_registerTask _ 0 []
  have hinscrite : s.Tient (List.range' 1 16 ++ [0]) := by
    have hencombre : encombre.scheduler.Tient (List.range' 1 16) := rfl
    rw [hs]
    exact TaskScheduler.tient_registerTask hencombre hnoms (by simp) (by decide) []
  have hnodup : (List.range' 1 16 ++ [0] ++ List.range' 17 495).Nodup := by
    refine List.nodup_append.mpr ⟨by decide, List.nodup_range', ?_⟩
    intro a ha b hb
    simp only [List.mem_append, List.mem_range'_1, List.mem_singleton] at ha hb
    omega
  -- the registry is full, the task of the node right behind the sixteen that eviction spares
  have hpleine : (inscrireTout (List.range' 17 495) s).Tient
      (List.range' 1 16 ++ 0 :: List.range' 17 495) :=
    tient_inscrireTout hinscrite (hnoms.of_objets hobjets) hnodup
      (by simp [TaskScheduler.MAX_RETAINED_TASKS])
  have hobjets' : (inscrireTout (List.range' 17 495) s).objets = encombre.scheduler.objets := by
    rw [objets_inscrireTout, hobjets]
  have hevincee := TaskScheduler.tient_registerTask_plein (r := 512) hpleine
    (hnoms.of_objets hobjets') (by simp) (by simp [TaskScheduler.MAX_RETAINED_TASKS]) rfl
    (by rw [hobjets']; exact fun _ _ => rfl) []
  have habsente := TaskScheduler.getTask_of_tient (r := 0) hevincee
    (hnoms.of_objets (by rw [TaskScheduler.objets_registerTask, hobjets'])) (by simp)
  have hregistre : (rencontre (submerge 0) (depart 0 encombre
      { executionId := "e1" })).executor.scheduler =
        (inscrireTout (List.range' 17 495) s).registerTask 512 [] := by
    have hprepare : (depart 0 encombre { executionId := "e1" }).executor.scheduler = s := by
      rw [hs]
      rfl
    have hunique : (depart 0 encombre
        { executionId := "e1" }).executor.scheduler.taches.keys.Nodup := by
      rw [hprepare]
      exact TaskScheduler.nodup_of_tient hinscrite (hnoms.of_objets hobjets) (by decide)
    have hautres : List.range' 17 496 = List.range' 17 495 ++ [512] := List.range'_concat
    show ((submerge 0).avant.agir
      (depart 0 encombre { executionId := "e1" }).executor).scheduler = _
    unfold submerge
    dsimp only
    rw [agir_inscrire _ _ hunique]
    dsimp only
    rw [hprepare, hautres]
    exact List.foldl_concat ..
  rw [hregistre, ← habsente, TaskScheduler.objets_registerTask, hobjets']
  rfl

/-- The task of the node is evicted, each call answers `not_found`, and the loop never ends. -/
theorem submerge_sansFin :
    Neuve (encombre.scheduler.objets 0) ∧
      (∀ n, executeNode Char.isAlphanum encombre { executionId := "e1" } submerge n = none) ∧
      ¬ Bornee Char.isAlphanum encombre { executionId := "e1" } submerge := by
  have hneuve : Neuve (encombre.scheduler.objets 0) := ⟨rfl, rfl⟩
  have hsansFin : ∀ n, executeNode Char.isAlphanum encombre { executionId := "e1" } submerge n =
      none :=
    executeNode_sansFin hneuve (fun _ => rfl) submerge_absente fun _ _ => rfl
  refine ⟨hneuve, hsansFin, fun hborne => ?_⟩
  obtain ⟨ex', ok, hnode, -⟩ := hborne
  rw [hsansFin] at hnode
  cases hnode

end Hermes.NodeExecution
