import Hermes.Execution.InFlight

/-! # What a call leaves behind

A call opens its books before the inference and closes them after it: the status of the task, the
load of its agent and the state of the machine.
-/

namespace Hermes.Execution

open Lib Taxonomie ValidationEngine

/-- The books of a call are closed: it returns, its task runs no more, every agent carries
what it carried before, and an active machine has a task to wait for. -/
structure Liberee (avant : MissionExecutor) (tache : Nat) (s : Sortie) : Prop where
  rendue : ∃ reponse, s.resultat = .ok reponse
  statut : (s.executor.scheduler.objets tache).status ∈
    [TaskExecutionStatus.completed, .failed, .pending]
  liberee : ∀ a, s.executor.coordinator.getAgentLoad a = avant.coordinator.getAgentLoad a
  attend : s.sm.isTerminal = false →
    s.executor.scheduler.allDone (s.executor.siennes s.sm) = false

/-- The machine is active and none of its tasks runs. -/
def Oisive (s : Sortie) : Prop :=
  s.sm.isTerminal = false ∧
    ∀ taskId ∈ s.executor.siennes s.sm, ∀ t, s.executor.scheduler.tache taskId = some t →
      t.status ≠ .running

section Fin

variable {ex : MissionExecutor} {sm sm' : ExecutionStateMachine}

theorem allDone_of_maybeFinalizeState (h : ex.maybeFinalizeState sm = .ok sm')
    (hactive : sm'.isTerminal = false) : ex.scheduler.allDone (ex.siennes sm') = false := by
  unfold MissionExecutor.maybeFinalizeState at h
  split at h
  · next hfinie =>
      cases h
      rw [hfinie] at hactive
      cases hactive
  · split at h
    · next hreste =>
        cases h
        simpa using hreste
    · split at h
      · rw [(ExecutionStateMachine.transition_eq_ok.mp h).2] at hactive
        simp [ExecutionStateMachine.isTerminal] at hactive
      · rw [(ExecutionStateMachine.transition_eq_ok.mp h).2] at hactive
        simp [ExecutionStateMachine.isTerminal] at hactive

theorem attend_cloturer {taskId : String} {r : Nat} {reponse : TaskExecution → Reponse}
    (hrendue : ∃ rep, (ex.cloturer sm taskId r reponse).resultat = .ok rep)
    (hactive : (ex.cloturer sm taskId r reponse).sm.isTerminal = false) :
    (ex.cloturer sm taskId r reponse).executor.scheduler.allDone
      ((ex.cloturer sm taskId r reponse).executor.siennes
        (ex.cloturer sm taskId r reponse).sm) = false := by
  revert hrendue hactive
  unfold MissionExecutor.cloturer
  dsimp only
  split
  · intro hrendue
    obtain ⟨rep, hrep⟩ := hrendue
    cases hrep
  · next sm' hfinal =>
      intro _ hactive
      exact allDone_of_maybeFinalizeState hfinal hactive

end Fin

section Commandes

variable {mot : Char → Bool} {avant : MissionExecutor} {vol : EnVol}

theorem liberee_rend (h : Engagee avant vol) (hsm : vol.sm.state = .running)
    {commandes : List Commande} {inf : Inference} {o : TaskExecutionOutcome}
    (hissue : inf.issue = .rend o) (hactive : ¬ Annulee commandes ∧ ¬ EnPause commandes)
    (hverdict : evaluate o.result inf.erreurs (vol.executor.validator.criteresDe vol.taskId) ≠
      .needsReview) (fin : Int) :
    Liberee avant vol.tache (((vol.commander commandes).executer inf).achever o fin) := by
  have hvalide : (vol.commander commandes).sm.Admet .validating :=
    (etat_commander hsm commandes).1.mpr hactive
  have hjuge : ((vol.commander commandes).executer inf).verdict o fin ≠ .needsReview := by
    rw [verdict_executer (h.commander commandes) inf o fin]
    exact hverdict
  have haboutie := (aboutie_rend_iff h hsm commandes hissue fin).mpr
    ⟨hactive.1, hactive.2, hverdict⟩
  have hegal := achever_eq_cloturer ((vol.commander commandes).executer inf) hvalide hjuge
  have hrendue := haboutie.rendue
  rw [hegal] at hrendue
  have hattend := attend_cloturer hrendue
  rw [← hegal] at hattend
  exact ⟨haboutie.rendue, haboutie.statut, haboutie.liberee, hattend⟩

theorem liberee_indisponible (h : Engagee avant vol) (hsm : vol.sm.state = .running)
    {commandes : List Commande} {inf : Inference} {message : String}
    (hissue : inf.issue = .indisponible message)
    (hpause : ¬ (EnPause commandes ∧ TousFinis vol (Reprise mot vol message))) (fin : Int) :
    Liberee avant vol.tache
      (((vol.commander commandes).executer inf).abandonner mot message fin) := by
  have haboutie := (aboutie_indisponible_iff h hsm commandes hissue fin).mpr hpause
  exact ⟨haboutie.rendue, haboutie.statut, haboutie.liberee, attend_cloturer haboutie.rendue⟩

end Commandes

/-- Every answer that concludes closes the books of its call. -/
theorem executeTask_liberee (mot : Char → Bool) {ex : MissionExecutor}
    {sm : ExecutionStateMachine} {taskId : String} {budget : Budget} {choix : Selection}
    {debut : Int} {vol : EnVol} (h : ex.ouvrir sm taskId budget choix debut = .enVol vol)
    {commandes : List Commande} {inf : Inference} (hconclut : Conclut mot vol commandes inf)
    (fin : Int) :
    Liberee ex vol.tache
      (ex.executeTask mot sm taskId budget choix debut commandes inf fin) := by
  obtain ⟨hengagee, hsm⟩ := ouvrir_enVol h
  unfold Conclut at hconclut
  unfold MissionExecutor.executeTask
  rw [h]
  unfold EnVol.repondre
  cases hissue : inf.issue with
  | rend o =>
      rw [hissue] at hconclut
      obtain ⟨hcancel, hpause, hverdict⟩ := hconclut
      exact liberee_rend hengagee hsm hissue ⟨hcancel, hpause⟩ hverdict fin
  | indisponible message =>
      rw [hissue] at hconclut
      exact liberee_indisponible hengagee hsm hissue hconclut fin
  | leve message =>
      rw [hissue] at hconclut
      exact hconclut.elim

/-- No runtime serves the only task, and no command comes: the task will be retried. -/
def reponseRefusee : Inference where
  issue := .indisponible "connection refused"

theorem executeTask_liberee_refusee :
    ∃ ex sm vol, seule = .ok (ex, sm) ∧
      ex.ouvrir sm "n1-task" ⟨0, 3600⟩ ⟨"dev", "ollama", [], []⟩ 0 = .enVol vol ∧
      Liberee ex vol.tache
        (ex.executeTask Char.isAlphanum sm "n1-task" ⟨0, 3600⟩ ⟨"dev", "ollama", [], []⟩ 0
          [] reponseRefusee 10000) := by
  refine ⟨_, _, _, rfl, rfl, ?_⟩
  have hpause : ¬ EnPause [] := by decide
  refine executeTask_liberee Char.isAlphanum rfl ?_ 10000
  exact fun h => hpause h.1

/-- An answer with an error left on the task is retried: the call returns, its agent is
free, and the machine stays active with no task running. -/
theorem reprise_oisive :
    ∃ ex sm vol, seule = .ok (ex, sm) ∧
      ex.ouvrir sm "n1-task" ⟨0, 3600⟩ ⟨"dev", "ollama", [], []⟩ 0 = .enVol vol ∧
      let s := ex.executeTask Char.isAlphanum sm "n1-task" ⟨0, 3600⟩ ⟨"dev", "ollama", [], []⟩ 0
        [] { reponseNette with erreurs := ["outil refusé"] } 10000
      s.resultat.isOk ∧ (s.executor.scheduler.objets vol.tache).status = .pending ∧
        s.executor.coordinator.getAgentLoad "dev" = 0 ∧ s.sm.state = .validating ∧
        Oisive s := by
  refine ⟨_, _, _, rfl, rfl, rfl, rfl, rfl, rfl, rfl, ?_⟩
  intro taskId hsienne t htache
  cases List.mem_singleton.mp hsienne
  cases htache
  decide

end Hermes.Execution
