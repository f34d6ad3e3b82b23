import Hermes.Execution.InFlight

/-! # One call, seen from a task

A call writes the object that the registry held when it engaged the task, and the object that the
registry holds under the same name when it answers.
-/

namespace Hermes.Execution

open Lib Taxonomie ValidationEngine

/-- Nothing has been registered, and every execution follows the tasks it followed. -/
structure Cadre (ex ex' : MissionExecutor) : Prop where
  inscrites : ∀ taskId, ex'.scheduler.getTask taskId = ex.scheduler.getTask taskId
  suivies : ex'.executionTasks = ex.executionTasks

theorem Cadre.trans {ex ex' ex'' : MissionExecutor} (h : Cadre ex ex') (h' : Cadre ex' ex'') :
    Cadre ex ex'' :=
  ⟨fun taskId => (h'.inscrites taskId).trans (h.inscrites taskId), h'.suivies.trans h.suivies⟩

theorem cadre_ecrire (ex : MissionExecutor) (r : Nat) (f : TaskExecution → TaskExecution)
    (hf : ∀ t, (f t).taskId = t.taskId) : Cadre ex (ex.ecrire r f hf) :=
  ⟨fun _ => rfl, rfl⟩

section Registre

variable {s : TaskScheduler} {taskId : String} {r : Nat}

theorem objets_updateTask_status_self (s : TaskScheduler) (taskId : String) (r : Nat) :
    (s.updateTask taskId (s.objets r).status none).objets r = s.objets r := by
  unfold TaskScheduler.updateTask
  split
  · rfl
  · next r' h =>
      by_cases hr : r = r'
      · subst hr
        rw [TaskScheduler.objets_ecrire_self]
        rfl
      · rw [TaskScheduler.objets_ecrire_of_ne _ _ _ _ hr]

theorem objets_updateTask_of_ne (h : s.getTask taskId ≠ some r) (status : TaskExecutionStatus)
    (result : Option String) : (s.updateTask taskId status result).objets r = s.objets r := by
  unfold TaskScheduler.updateTask
  split
  · rfl
  · next r' hr' =>
      have hr : r ≠ r' := fun heq => h (heq ▸ hr')
      rw [TaskScheduler.objets_ecrire_of_ne _ _ _ _ hr]

@[simp] theorem getTask_updateTask (s : TaskScheduler) (taskId taskId' : String)
    (status : TaskExecutionStatus) (result : Option String) :
    (s.updateTask taskId status result).getTask taskId' = s.getTask taskId' := by
  unfold TaskScheduler.updateTask
  split <;> rfl

end Registre

namespace ExecutionStateMachine

theorem execMeta_of_transition {sm sm' : ExecutionStateMachine} {target : ExecutionState}
    {reason : String} (h : sm.transition target reason = .ok sm') :
    sm'.execMeta = sm.execMeta := by
  rw [(transition_eq_ok.mp h).2]
  rfl

end ExecutionStateMachine

theorem MissionExecutor.execMeta_of_maybeFinalizeState {ex : MissionExecutor}
    {sm sm' : ExecutionStateMachine} (h : ex.maybeFinalizeState sm = .ok sm') :
    sm'.execMeta = sm.execMeta := by
  unfold maybeFinalizeState at h
  split at h
  · cases h
    rfl
  · split at h
    · cases h
      rfl
    · split at h
      · exact ExecutionStateMachine.execMeta_of_transition h
      · exact ExecutionStateMachine.execMeta_of_transition h

section Cloturer

variable (ex : MissionExecutor) (sm : ExecutionStateMachine) (taskId : String) (r : Nat)
  (reponse : TaskExecution → Reponse)

theorem scheduler_cloturer : (ex.cloturer sm taskId r reponse).executor.scheduler =
    ex.scheduler.updateTask taskId (ex.scheduler.objets r).status none := by
  unfold MissionExecutor.cloturer
  dsimp only
  split <;> rfl

theorem objets_cloturer :
    (ex.cloturer sm taskId r reponse).executor.scheduler.objets r = ex.scheduler.objets r := by
  rw [scheduler_cloturer, objets_updateTask_status_self]

theorem execMeta_cloturer : (ex.cloturer sm taskId r reponse).sm.execMeta = sm.execMeta := by
  unfold MissionExecutor.cloturer
  dsimp only
  split
  · rfl
  · next sm' hfinal => exact MissionExecutor.execMeta_of_maybeFinalizeState hfinal

theorem cadre_cloturer : Cadre ex (ex.cloturer sm taskId r reponse).executor := by
  constructor
  · intro taskId'
    rw [scheduler_cloturer, getTask_updateTask]
  · unfold MissionExecutor.cloturer
    dsimp only
    split <;> rfl

theorem objets_cloturer_of_ne {r' : Nat} (h : ex.scheduler.getTask taskId ≠ some r') :
    (ex.cloturer sm taskId r reponse).executor.scheduler.objets r' = ex.scheduler.objets r' := by
  rw [scheduler_cloturer, objets_updateTask_of_ne h]

end Cloturer

section Ouvrir

variable {ex : MissionExecutor} {sm : ExecutionStateMachine} {taskId : String} {budget : Budget}
  {choix : Selection} {debut : Int} {r : Nat}

theorem status_refuserPourBudget (ex : MissionExecutor) (sm : ExecutionStateMachine)
    (taskId : String) (r : Nat) (budget : Budget) (debut : Int) :
    ((ex.refuserPourBudget sm taskId r budget debut).executor.scheduler.objets r).status =
      .failed := by
  simp [MissionExecutor.refuserPourBudget, MissionExecutor.ecrire]

theorem objets_refuserPourBudget_of_ne (ex : MissionExecutor) (sm : ExecutionStateMachine)
    (taskId : String) {r r' : Nat} (h : r' ≠ r) (budget : Budget) (debut : Int) :
    (ex.refuserPourBudget sm taskId r budget debut).executor.scheduler.objets r' =
      ex.scheduler.objets r' := by
  simp only [MissionExecutor.refuserPourBudget, MissionExecutor.ecrire,
    TaskScheduler.objets_ecrire_of_ne _ _ _ _ h]

theorem ouvrir_sortie {s : Sortie} (h : ex.ouvrir sm taskId budget choix debut = .sortie s) :
    s.sm = sm ∧
      ((ex.scheduler.getTask taskId = none ∧ s.executor = ex ∧ s.resultat.isOk) ∨
        ∃ r, ex.scheduler.getTask taskId = some r ∧
          ((budget.depasse = true ∧ s = ex.refuserPourBudget sm taskId r budget debut) ∨
            (s.executor = ex ∧ s.resultat.isOk = false))) := by
  unfold MissionExecutor.ouvrir at h
  split at h
  · next hnone =>
      cases h
      exact ⟨rfl, Or.inl ⟨hnone, rfl, rfl⟩⟩
  · next r hsome =>
      split at h
      · next hbudget =>
          cases h
          exact ⟨rfl, Or.inr ⟨r, hsome, Or.inl ⟨hbudget, rfl⟩⟩⟩
      · split at h
        · cases h
          exact ⟨rfl, Or.inr ⟨r, hsome, Or.inr ⟨rfl, rfl⟩⟩⟩
        · cases h

/-- A task engaged: it runs with the retries it had, on the object that the registry holds, and
nothing else has changed. -/
structure Engage (ex : MissionExecutor) (sm : ExecutionStateMachine) (taskId : String)
    (vol : EnVol) : Prop where
  nom : vol.taskId = taskId
  inscrite : ex.scheduler.getTask taskId = some vol.tache
  admise : sm.Admet .running
  machine : vol.sm = sm.vers .running ("Executing task " ++ taskId)
  cadre : Cadre ex vol.executor
  status : (vol.executor.scheduler.objets vol.tache).status = .running
  retries : (vol.executor.scheduler.objets vol.tache).retries =
    (ex.scheduler.objets vol.tache).retries
  objets : ∀ r, r ≠ vol.tache → vol.executor.scheduler.objets r = ex.scheduler.objets r

theorem ouvrir_engage {vol : EnVol} (h : ex.ouvrir sm taskId budget choix debut = .enVol vol) :
    Engage ex sm taskId vol := by
  unfold MissionExecutor.ouvrir at h
  split at h
  · cases h
  · next r hsome =>
      split at h
      · cases h
      · split at h
        · cases h
        · next sm' hsm =>
            cases h
            obtain ⟨hadmet, hvers⟩ := ExecutionStateMachine.transition_eq_ok.mp hsm
            refine ⟨rfl, hsome, hadmet, hvers, ⟨fun _ => rfl, rfl⟩, ?_, ?_, ?_⟩
            · simp [MissionExecutor.ecrire, affecter]
            · simp [MissionExecutor.ecrire, affecter, porterErreurs]
            · intro r' hr'
              have herreurs := TaskScheduler.objets_ecrire_of_ne ex.scheduler r
                (porterErreurs []) (taskId_porterErreurs []) hr'
              exact (TaskScheduler.objets_ecrire_of_ne _ _ _ (taskId_affecter _ debut) hr').trans
                herreurs

end Ouvrir

section Repondre

variable {mot : Char → Bool} {vol : EnVol} {inf : Inference} {fin : Int} {r : Nat}

theorem objets_abandonner (message : String) :
    (vol.abandonner mot message fin).executor.scheduler.objets vol.tache =
      subirIndisponibilite mot message vol.sm.execMeta.maxRetriesPerTask fin
        (vol.executor.scheduler.objets vol.tache) :=
  (objets_cloturer (vol.refuse mot message fin) _ _ _ _).trans objets_refuse

theorem achever_ok {o : TaskExecutionOutcome} {rep : Reponse}
    (h : (vol.achever o fin).resultat = .ok rep) :
    vol.sm.Admet .validating ∧ vol.verdict o fin ≠ .needsReview := by
  have hvalide : vol.sm.Admet .validating := by
    by_contra hrefus
    rw [achever_refusee vol hrefus] at h
    cases h
  refine ⟨hvalide, fun hreview => ?_⟩
  rw [achever_needsReview vol hvalide hreview] at h
  cases h

theorem objets_achever {o : TaskExecutionOutcome} {rep : Reponse}
    (h : (vol.achever o fin).resultat = .ok rep) :
    (vol.achever o fin).executor.scheduler.objets vol.tache =
      juger (vol.verdict o fin) vol.sm.execMeta.maxRetriesPerTask
        (recevoir o fin (vol.executor.scheduler.objets vol.tache)) := by
  obtain ⟨hvalide, hverdict⟩ := achever_ok h
  rw [achever_eq_cloturer vol hvalide hverdict, objets_cloturer, objets_juge]

theorem execMeta_achever (o : TaskExecutionOutcome) :
    (vol.achever o fin).sm.execMeta = vol.sm.execMeta := by
  by_cases hvalide : vol.sm.Admet .validating
  · by_cases hverdict : vol.verdict o fin = .needsReview
    · rw [achever_needsReview vol hvalide hverdict]
      rfl
    · rw [achever_eq_cloturer vol hvalide hverdict, execMeta_cloturer]
      rfl
  · rw [achever_refusee vol hvalide]

theorem cadre_achever (o : TaskExecutionOutcome) :
    Cadre vol.executor (vol.achever o fin).executor := by
  have hrecu : Cadre vol.executor (vol.recu o fin) :=
    cadre_ecrire _ _ _ (taskId_recevoir o fin)
  have hjuge : Cadre vol.executor (vol.juge o fin) :=
    hrecu.trans (cadre_ecrire _ _ _ (taskId_juger _ _))
  by_cases hvalide : vol.sm.Admet .validating
  · by_cases hverdict : vol.verdict o fin = .needsReview
    · rw [achever_needsReview vol hvalide hverdict]
      exact hjuge
    · rw [achever_eq_cloturer vol hvalide hverdict]
      exact hjuge.trans (cadre_cloturer _ _ _ _ _)
  · rw [achever_refusee vol hvalide]
    exact hrecu

theorem objets_achever_of_ne (o : TaskExecutionOutcome) (hr : r ≠ vol.tache)
    (h : vol.executor.scheduler.getTask vol.taskId ≠ some r) :
    (vol.achever o fin).executor.scheduler.objets r = vol.executor.scheduler.objets r := by
  have hrecu : (vol.recu o fin).scheduler.objets r = vol.executor.scheduler.objets r :=
    TaskScheduler.objets_ecrire_of_ne _ _ _ (taskId_recevoir o fin) hr
  have hjuge : (vol.juge o fin).scheduler.objets r = vol.executor.scheduler.objets r :=
    (TaskScheduler.objets_ecrire_of_ne _ _ _ (taskId_juger _ _) hr).trans hrecu
  by_cases hvalide : vol.sm.Admet .validating
  · by_cases hverdict : vol.verdict o fin = .needsReview
    · rw [achever_needsReview vol hvalide hverdict]
      exact hjuge
    · rw [achever_eq_cloturer vol hvalide hverdict]
      exact (objets_cloturer_of_ne (vol.juge o fin) _ _ _ _ h).trans hjuge
  · rw [achever_refusee vol hvalide]
    exact hrecu

theorem execMeta_repondre : (vol.repondre mot inf fin).sm.execMeta = vol.sm.execMeta := by
  unfold EnVol.repondre
  cases inf.issue with
  | rend o => exact execMeta_achever o
  | indisponible message => exact execMeta_cloturer _ _ _ _ _
  | leve message => rfl

theorem cadre_repondre : Cadre vol.executor (vol.repondre mot inf fin).executor := by
  have hexecuter : Cadre vol.executor (vol.executer inf).executor :=
    cadre_ecrire _ _ _ (taskId_porterErreurs inf.erreurs)
  unfold EnVol.repondre
  cases inf.issue with
  | rend o => exact hexecuter.trans (cadre_achever o)
  | indisponible message =>
      have hrefuse : Cadre (vol.executer inf).executor ((vol.executer inf).refuse mot message fin) :=
        cadre_ecrire _ _ _ (taskId_subirIndisponibilite mot message _ fin)
      exact hexecuter.trans (hrefuse.trans (cadre_cloturer _ _ _ _ _))
  | leve message => exact hexecuter

theorem objets_repondre_of_ne (hr : r ≠ vol.tache)
    (h : vol.executor.scheduler.getTask vol.taskId ≠ some r) :
    (vol.repondre mot inf fin).executor.scheduler.objets r =
      vol.executor.scheduler.objets r := by
  have hexecuter : (vol.executer inf).executor.scheduler.objets r =
      vol.executor.scheduler.objets r :=
    TaskScheduler.objets_ecrire_of_ne _ _ _ (taskId_porterErreurs inf.erreurs) hr
  unfold EnVol.repondre
  cases inf.issue with
  | rend o =>
      have hacheve : ((vol.executer inf).achever o fin).executor.scheduler.objets r =
          (vol.executer inf).executor.scheduler.objets r := objets_achever_of_ne o hr h
      exact hacheve.trans hexecuter
  | indisponible message =>
      have hrefuse : ((vol.executer inf).refuse mot message fin).scheduler.objets r =
          (vol.executer inf).executor.scheduler.objets r :=
        TaskScheduler.objets_ecrire_of_ne _ _ _ (taskId_subirIndisponibilite mot message _ fin) hr
      have habandon : ((vol.executer inf).abandonner mot message fin).executor.scheduler.objets r =
          ((vol.executer inf).refuse mot message fin).scheduler.objets r :=
        objets_cloturer_of_ne _ _ _ _ _ h
      exact (habandon.trans hrefuse).trans hexecuter
  | leve message => exact hexecuter

theorem juger_pending {verdict : ValidationOutcome} {maxRetries : Int} {t : TaskExecution}
    (ht : t.status ≠ .pending) (h : (juger verdict maxRetries t).status = .pending) :
    t.retries < maxRetries ∧ (juger verdict maxRetries t).retries = t.retries + 1 := by
  cases verdict with
  | pass => cases h
  | fail => cases h
  | needsReview => exact absurd h ht
  | retry =>
      unfold juger at h ⊢
      dsimp only at h ⊢
      split
      · next hlt => exact ⟨hlt, rfl⟩
      · next hge =>
          rw [if_neg hge] at h
          cases h

theorem subirIndisponibilite_pending (mot : Char → Bool) (message : String)
    (maxRetries fin : Int) (t : TaskExecution)
    (h : (subirIndisponibilite mot message maxRetries fin t).status = .pending) :
    t.retries < maxRetries ∧
      (subirIndisponibilite mot message maxRetries fin t).retries = t.retries + 1 := by
  unfold subirIndisponibilite at h ⊢
  dsimp only at h ⊢
  cases hreprise : seReprend mot message t.retries maxRetries with
  | false =>
      rw [hreprise] at h
      cases h
  | true =>
      unfold seReprend at hreprise
      rw [Bool.and_eq_true, decide_eq_true_eq] at hreprise
      exact ⟨hreprise.2, rfl⟩

theorem repondre_pending {rep : Reponse}
    (hstatus : (vol.executor.scheduler.objets vol.tache).status = .running)
    (hok : (vol.repondre mot inf fin).resultat = .ok rep)
    (hpending : ((vol.repondre mot inf fin).executor.scheduler.objets vol.tache).status =
      .pending) :
    (vol.executor.scheduler.objets vol.tache).retries < vol.sm.execMeta.maxRetriesPerTask ∧
      ((vol.repondre mot inf fin).executor.scheduler.objets vol.tache).retries =
        (vol.executor.scheduler.objets vol.tache).retries + 1 := by
  have hobjet := vol.objets_executer inf
  unfold EnVol.repondre at hok hpending ⊢
  cases hissue : inf.issue with
  | rend o =>
      rw [hissue] at hok hpending
      have hacheve := objets_achever hok
      rw [EnVol.tache_executer, hobjet] at hacheve
      have hrunning : (recevoir o fin (porterErreurs inf.erreurs
          (vol.executor.scheduler.objets vol.tache))).status ≠ .pending := by
        show (vol.executor.scheduler.objets vol.tache).status ≠ .pending
        rw [hstatus]
        decide
      dsimp only at hpending ⊢
      rw [hacheve] at hpending ⊢
      exact juger_pending hrunning hpending
  | indisponible message =>
      rw [hissue] at hpending
      have habandon : ((vol.executer inf).abandonner mot message fin).executor.scheduler.objets
          vol.tache = _ := objets_abandonner message
      rw [EnVol.tache_executer, hobjet] at habandon
      dsimp only at hpending ⊢
      rw [habandon] at hpending ⊢
      exact subirIndisponibilite_pending mot message _ fin _ hpending
  | leve message =>
      rw [hissue] at hok
      cases hok

end Repondre

end Hermes.Execution
