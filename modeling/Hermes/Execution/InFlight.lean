import Hermes.Execution.MissionExecutor

/-! # Commands that reach a task in flight

While the inference runs the lock is free, so the user may pause, resume or cancel the execution.
-/

namespace Hermes.Execution

open Lib Taxonomie ValidationEngine

/-- A whole call of `execute_task`, with the commands that reach the machine while the
inference runs. -/
def MissionExecutor.executeTask (mot : Char → Bool) (ex : MissionExecutor)
    (sm : ExecutionStateMachine) (taskId : String) (budget : Budget) (choix : Selection)
    (debut : Int) (commandes : List Commande) (inf : Inference) (fin : Int) : Sortie :=
  match ex.ouvrir sm taskId budget choix debut with
  | .sortie s => s
  | .enVol vol => (vol.commander commandes).repondre mot inf fin

/-- The task carries what the inference answered. -/
def Consignee (inf : Inference) (fin : Int) (t : TaskExecution) : Prop :=
  match inf.issue with
  | .rend o =>
      t.result = o.result ∧ t.modelUsed = o.model ∧ t.assignedRuntime = o.runtimeId ∧
        t.durationMs = o.durationMs ∧ t.completedAt = some fin ∧ t.validationOutcome.isSome
  | .indisponible message => message ∈ t.errors ∧ t.completedAt = some fin
  | .leve message => message ∈ t.errors

/-- The call returns, its task is settled with the answer of the inference, and every agent
carries what it carried before the call. -/
structure Aboutie (avant : MissionExecutor) (tache : Nat) (inf : Inference) (fin : Int)
    (s : Sortie) : Prop where
  rendue : ∃ reponse, s.resultat = .ok reponse
  statut : (s.executor.scheduler.objets tache).status ∈
    [TaskExecutionStatus.completed, .failed, .pending]
  consignee : Consignee inf fin (s.executor.scheduler.objets tache)
  liberee : ∀ a, s.executor.coordinator.getAgentLoad a = avant.coordinator.getAgentLoad a

/-- Every task of the execution is finished once this one is not retried. -/
def TousFinis (vol : EnVol) (reprise : Bool) : Prop :=
  vol.executor.siennes vol.sm ≠ [] ∧
    ∀ taskId ∈ vol.executor.siennes vol.sm,
      if taskId = vol.taskId then reprise = false
      else ∃ t, vol.executor.scheduler.tache taskId = some t ∧ t.status.terminal = true

/-- The task in flight is retried after this refusal of the runtime. -/
def Reprise (mot : Char → Bool) (vol : EnVol) (message : String) : Bool :=
  seReprend mot message (vol.executor.scheduler.objets vol.tache).retries
    vol.sm.execMeta.maxRetriesPerTask

/-- An outcome needs a machine that still runs and a judgement without a human. -/
def Conclut (mot : Char → Bool) (vol : EnVol) (commandes : List Commande) (inf : Inference) :
    Prop :=
  match inf.issue with
  | .rend o =>
      ¬ Annulee commandes ∧ ¬ EnPause commandes ∧
        evaluate o.result inf.erreurs (vol.executor.validator.criteresDe vol.taskId) ≠ .needsReview
  | .indisponible message =>
      ¬ (EnPause commandes ∧ TousFinis vol (Reprise mot vol message))
  | .leve _ => False

/-- What holds of a task in flight: the registry holds it, and releasing it gives back the
loads the agents had before the call. -/
structure Engagee (avant : MissionExecutor) (vol : EnVol) : Prop where
  inscrite : vol.executor.scheduler.getTask vol.taskId = some vol.tache
  charge : ∀ a, (vol.executor.coordinator.releaseAgent vol.taskId).getAgentLoad a =
    avant.coordinator.getAgentLoad a

theorem ouvrir_enVol {ex : MissionExecutor} {sm : ExecutionStateMachine} {taskId : String}
    {budget : Budget} {choix : Selection} {debut : Int} {vol : EnVol}
    (h : ex.ouvrir sm taskId budget choix debut = .enVol vol) :
    Engagee ex vol ∧ vol.sm.state = .running := by
  unfold MissionExecutor.ouvrir at h
  split at h
  · cases h
  · next r htask =>
      split at h
      · cases h
      · split at h
        · cases h
        · next sm' hsm =>
            cases h
            have hnom : ((ex.ecrire r (porterErreurs []) (taskId_porterErreurs [])).scheduler.objets
                r).taskId = taskId :=
              TaskScheduler.taskId_of_getTask (s := (ex.ecrire r (porterErreurs []) _).scheduler)
                htask
            have hcharge := AgentCoordinator.getAgentLoad_releaseAgent_assign ex.coordinator
              ((ex.ecrire r (porterErreurs []) (taskId_porterErreurs [])).scheduler.objets r) choix
            rw [hnom] at hcharge
            refine ⟨⟨htask, hcharge⟩, ?_⟩
            rw [(ExecutionStateMachine.transition_eq_ok.mp hsm).2]
            rfl

theorem Engagee.commander {avant : MissionExecutor} {vol : EnVol} (h : Engagee avant vol)
    (commandes : List Commande) : Engagee avant (vol.commander commandes) :=
  ⟨h.inscrite, h.charge⟩

theorem Engagee.executer {avant : MissionExecutor} {vol : EnVol} (h : Engagee avant vol)
    (inf : Inference) : Engagee avant (vol.executer inf) :=
  ⟨h.inscrite, h.charge⟩

namespace MissionExecutor

variable {ex : MissionExecutor} {sm : ExecutionStateMachine} {taskId : String} {r : Nat}

theorem cloturer_executor (sm : ExecutionStateMachine) (h : ex.scheduler.getTask taskId = some r)
    (reponse : TaskExecution → Reponse) :
    (ex.cloturer sm taskId r reponse).executor =
      { ex with coordinator := ex.coordinator.releaseAgent taskId } := by
  unfold cloturer
  rw [TaskScheduler.updateTask_status_self h]
  dsimp only
  split <;> rfl

theorem cloturer_rendue (h : ex.scheduler.getTask taskId = some r)
    (reponse : TaskExecution → Reponse) :
    (∃ rep, (ex.cloturer sm taskId r reponse).resultat = .ok rep) ↔
      ∃ sm', ex.maybeFinalizeState sm = .ok sm' := by
  have hfinal : MissionExecutor.maybeFinalizeState
      { ex with coordinator := ex.coordinator.releaseAgent taskId } sm =
        ex.maybeFinalizeState sm := rfl
  unfold cloturer
  rw [TaskScheduler.updateTask_status_self h]
  dsimp only
  rw [hfinal]
  cases ex.maybeFinalizeState sm with
  | error e => simp
  | ok sm' => simp

theorem maybeFinalizeState_ok (ex : MissionExecutor)
    (h : sm.isTerminal = true ∨ (sm.Admet .failed ∧ sm.Admet .completed)) :
    ∃ sm', ex.maybeFinalizeState sm = .ok sm' := by
  unfold maybeFinalizeState
  split
  · exact ⟨_, rfl⟩
  · next hactive =>
      obtain ⟨hfailed, hcompleted⟩ := h.resolve_left hactive
      split
      · exact ⟨_, rfl⟩
      · split
        · exact ⟨_, ExecutionStateMachine.transition_of_admet hfailed _⟩
        · exact ⟨_, ExecutionStateMachine.transition_of_admet hcompleted _⟩

theorem maybeFinalizeState_ok_of_paused (h : sm.state = .paused) :
    (∃ sm', ex.maybeFinalizeState sm = .ok sm') ↔ ¬ ex.scheduler.allDone (ex.siennes sm) := by
  have hactive : ¬ sm.isTerminal = true := by simp [ExecutionStateMachine.isTerminal, h]
  have hfailed : ¬ sm.Admet .failed := by
    simp [ExecutionStateMachine.Admet, VALID_TRANSITIONS, h]
  have hcompleted : ¬ sm.Admet .completed := by
    simp [ExecutionStateMachine.Admet, VALID_TRANSITIONS, h]
  unfold maybeFinalizeState
  rw [if_neg hactive]
  cases hdone : ex.scheduler.allDone (ex.siennes sm) with
  | false => simp
  | true =>
      simp only [Bool.not_true, Bool.false_eq_true, if_false, not_true_eq_false, iff_false]
      split
      · rw [ExecutionStateMachine.transition_of_not_admet hfailed]
        simp
      · rw [ExecutionStateMachine.transition_of_not_admet hcompleted]
        simp

end MissionExecutor

theorem aboutie_cloturer {avant : MissionExecutor} (ex : MissionExecutor) {taskId : String}
    {r : Nat} {inf : Inference} {fin : Int}
    (hinscrite : ex.scheduler.getTask taskId = some r)
    (hcharge : ∀ a, (ex.coordinator.releaseAgent taskId).getAgentLoad a =
      avant.coordinator.getAgentLoad a)
    (hstatut : (ex.scheduler.objets r).status ∈
      [TaskExecutionStatus.completed, .failed, .pending])
    (hconsignee : Consignee inf fin (ex.scheduler.objets r))
    (sm : ExecutionStateMachine) (reponse : TaskExecution → Reponse) :
    Aboutie avant r inf fin (ex.cloturer sm taskId r reponse) ↔
      ∃ sm', ex.maybeFinalizeState sm = .ok sm' := by
  rw [← MissionExecutor.cloturer_rendue hinscrite reponse]
  have hexecutor := MissionExecutor.cloturer_executor sm hinscrite reponse
  constructor
  · intro h
    exact h.rendue
  · intro h
    refine ⟨h, ?_, ?_, ?_⟩
    · rw [hexecutor]
      exact hstatut
    · rw [hexecutor]
      exact hconsignee
    · rw [hexecutor]
      exact hcharge

section Abandonner

variable {mot : Char → Bool} {avant : MissionExecutor} {vol : EnVol} {message : String} {fin : Int}

theorem objets_refuse :
    (vol.refuse mot message fin).scheduler.objets vol.tache =
      subirIndisponibilite mot message vol.sm.execMeta.maxRetriesPerTask fin
        (vol.executor.scheduler.objets vol.tache) :=
  TaskScheduler.objets_ecrire_self _ _ _ (taskId_subirIndisponibilite mot message _ fin)

theorem status_refuse :
    ((vol.refuse mot message fin).scheduler.objets vol.tache).status =
      if Reprise mot vol message then .pending else .failed := by
  unfold Reprise
  rw [objets_refuse]
  simp only [subirIndisponibilite]

theorem allDone_refuse (mot : Char → Bool) (message : String) (fin : Int)
    (h : vol.executor.scheduler.getTask vol.taskId = some vol.tache) :
    (vol.refuse mot message fin).scheduler.allDone (vol.executor.siennes vol.sm) = true ↔
      TousFinis vol (Reprise mot vol message) := by
  rw [TaskScheduler.allDone_iff]
  refine and_congr_right fun _ => forall₂_congr fun taskId _ => ?_
  by_cases hid : taskId = vol.taskId
  · have htache : (vol.refuse mot message fin).scheduler.tache taskId =
        some ((vol.refuse mot message fin).scheduler.objets vol.tache) := by
      rw [hid, objets_refuse]
      exact TaskScheduler.tache_ecrire_self _ _ _ (taskId_subirIndisponibilite mot message _ fin) h
    rw [if_pos hid, htache]
    simp only [Option.some.injEq, exists_eq_left', status_refuse]
    cases Reprise mot vol message <;> simp [TaskExecutionStatus.terminal]
  · have htache : (vol.refuse mot message fin).scheduler.tache taskId =
        vol.executor.scheduler.tache taskId :=
      TaskScheduler.tache_ecrire_of_ne _ _ _ (taskId_subirIndisponibilite mot message _ fin) h hid
    rw [if_neg hid, htache]

theorem aboutie_abandonner (mot : Char → Bool) (fin : Int) (h : Engagee avant vol) {inf : Inference}
    (hissue : inf.issue = .indisponible message) :
    Aboutie avant vol.tache inf fin (vol.abandonner mot message fin) ↔
      ∃ sm', (vol.refuse mot message fin).maybeFinalizeState vol.sm = .ok sm' := by
  have hstatut : ((vol.refuse mot message fin).scheduler.objets vol.tache).status ∈
      [TaskExecutionStatus.completed, .failed, .pending] := by
    rw [status_refuse]
    split <;> simp
  have hconsignee : Consignee inf fin
      ((vol.refuse mot message fin).scheduler.objets vol.tache) := by
    rw [objets_refuse]
    unfold Consignee
    rw [hissue]
    simp [subirIndisponibilite]
  exact aboutie_cloturer (vol.refuse mot message fin) h.inscrite h.charge hstatut
    hconsignee _ _

end Abandonner

section Achever

variable {avant : MissionExecutor} {vol : EnVol} {o : TaskExecutionOutcome} {fin : Int}

/-- The executor once the task carries the outcome. -/
def EnVol.recu (vol : EnVol) (o : TaskExecutionOutcome) (fin : Int) : MissionExecutor :=
  vol.executor.ecrire vol.tache (recevoir o fin) (taskId_recevoir o fin)

def EnVol.verdict (vol : EnVol) (o : TaskExecutionOutcome) (fin : Int) : ValidationOutcome :=
  (vol.recu o fin).validator.validate ((vol.recu o fin).scheduler.objets vol.tache)

def EnVol.juge (vol : EnVol) (o : TaskExecutionOutcome) (fin : Int) : MissionExecutor :=
  (vol.recu o fin).ecrire vol.tache
    (juger (vol.verdict o fin) vol.sm.execMeta.maxRetriesPerTask) (taskId_juger _ _)

theorem objets_recu :
    (vol.recu o fin).scheduler.objets vol.tache =
      recevoir o fin (vol.executor.scheduler.objets vol.tache) :=
  TaskScheduler.objets_ecrire_self _ _ _ (taskId_recevoir o fin)

theorem objets_juge :
    (vol.juge o fin).scheduler.objets vol.tache =
      juger (vol.verdict o fin) vol.sm.execMeta.maxRetriesPerTask
        (recevoir o fin (vol.executor.scheduler.objets vol.tache)) := by
  rw [← objets_recu]
  exact TaskScheduler.objets_ecrire_self _ _ _ (taskId_juger _ _)

theorem verdict_executer (h : Engagee avant vol) (inf : Inference) (o : TaskExecutionOutcome)
    (fin : Int) :
    (vol.executer inf).verdict o fin =
      evaluate o.result inf.erreurs (vol.executor.validator.criteresDe vol.taskId) := by
  have hnom : (vol.executor.scheduler.objets vol.tache).taskId = vol.taskId :=
    TaskScheduler.taskId_of_getTask h.inscrite
  have hobjet : ((vol.executer inf).recu o fin).scheduler.objets (vol.executer inf).tache =
      recevoir o fin (porterErreurs inf.erreurs (vol.executor.scheduler.objets vol.tache)) :=
    objets_recu.trans (congrArg (recevoir o fin) (vol.objets_executer inf))
  unfold EnVol.verdict validate
  rw [hobjet, ← hnom]
  rfl

theorem achever_refusee (vol : EnVol) (h : ¬ vol.sm.Admet .validating) :
    vol.achever o fin =
      { executor := vol.recu o fin
        sm := vol.sm
        resultat := .error (.transition { de := vol.sm.state, vers := .validating }) } := by
  unfold EnVol.achever
  rw [ExecutionStateMachine.transition_of_not_admet h]
  rfl

theorem achever_needsReview (vol : EnVol) (h : vol.sm.Admet .validating)
    (hverdict : vol.verdict o fin = .needsReview) :
    vol.achever o fin =
      { executor := vol.juge o fin
        sm := vol.sm.vers .validating ("Validating task " ++ vol.taskId)
        resultat := .error (.transition { de := .validating, vers := .waitingApproval }) } := by
  have hverdict' : (vol.recu o fin).validator.validate
      ((vol.recu o fin).scheduler.objets vol.tache) = .needsReview := hverdict
  have hrefus : ¬ (vol.sm.vers .validating ("Validating task " ++ vol.taskId)).Admet
      .waitingApproval := by
    simp [ExecutionStateMachine.Admet, VALID_TRANSITIONS]
  have hjuge : vol.juge o fin = (vol.recu o fin).ecrire vol.tache
      (juger .needsReview vol.sm.execMeta.maxRetriesPerTask) (taskId_juger _ _) := by
    unfold EnVol.juge
    simp only [hverdict]
  rw [hjuge]
  unfold EnVol.achever
  rw [ExecutionStateMachine.transition_of_admet h]
  unfold EnVol.recu at hverdict' ⊢
  simp only [hverdict', if_true, ExecutionStateMachine.transition_of_not_admet hrefus,
    ExecutionStateMachine.state_vers]
  rfl

theorem achever_eq_cloturer (vol : EnVol) (h : vol.sm.Admet .validating)
    (hverdict : vol.verdict o fin ≠ .needsReview) :
    vol.achever o fin =
      (vol.juge o fin).cloturer (vol.sm.vers .validating ("Validating task " ++ vol.taskId))
        vol.taskId vol.tache fun t =>
          .rendue vol.taskId t.status t.assignedAgent t.assignedRuntime o.model
            t.assignedSkills t.toolsUsed t.validationOutcome t.durationMs := by
  have hverdict' : (vol.recu o fin).validator.validate
      ((vol.recu o fin).scheduler.objets vol.tache) ≠ .needsReview := hverdict
  unfold EnVol.achever
  rw [ExecutionStateMachine.transition_of_admet h]
  unfold EnVol.recu at hverdict'
  simp only [hverdict', if_false]
  rfl

theorem aboutie_achever (h : Engagee avant vol) (hsm : vol.sm.Admet .validating)
    {inf : Inference} (hissue : inf.issue = .rend o) (hverdict : vol.verdict o fin ≠ .needsReview) :
    Aboutie avant vol.tache inf fin (vol.achever o fin) := by
  obtain ⟨-, hresult, hmodel, hruntime, hduree, hdate, houtcome⟩ :=
    juger_spec (recevoir o fin (vol.executor.scheduler.objets vol.tache)) (vol.verdict o fin)
      vol.sm.execMeta.maxRetriesPerTask
  have hstatut : ((vol.juge o fin).scheduler.objets vol.tache).status ∈
      [TaskExecutionStatus.completed, .failed, .pending] := by
    rw [objets_juge]
    exact status_juger _ hverdict _
  have hconsignee : Consignee inf fin ((vol.juge o fin).scheduler.objets vol.tache) := by
    rw [objets_juge]
    unfold Consignee
    rw [hissue]
    exact ⟨hresult, hmodel, hruntime, hduree, hdate, by rw [houtcome]; rfl⟩
  rw [achever_eq_cloturer vol hsm hverdict]
  have hfin := aboutie_cloturer (vol.juge o fin) h.inscrite h.charge hstatut hconsignee
  refine (hfin _ _).mpr (MissionExecutor.maybeFinalizeState_ok _ (Or.inr ?_))
  simp [ExecutionStateMachine.Admet, VALID_TRANSITIONS]

end Achever

section Commandes

variable {mot : Char → Bool} {avant : MissionExecutor} {vol : EnVol}

theorem etat_commander (hsm : vol.sm.state = .running) (commandes : List Commande) :
    ((vol.commander commandes).sm.Admet .validating ↔
        ¬ Annulee commandes ∧ ¬ EnPause commandes) ∧
      ((vol.commander commandes).sm.state = .paused ↔ EnPause commandes) := by
  have hstate : (vol.commander commandes).sm.state = _ := state_commanderTout hsm commandes
  unfold ExecutionStateMachine.Admet
  rw [hstate]
  by_cases hcancel : Annulee commandes
  · have hpause : ¬ EnPause commandes := fun h => h.1 hcancel
    simp [hcancel, hpause, VALID_TRANSITIONS]
  · by_cases hpause : EnPause commandes
    · simp [hcancel, hpause, VALID_TRANSITIONS]
    · simp [hcancel, hpause, VALID_TRANSITIONS]

theorem aboutie_rend_iff (h : Engagee avant vol) (hsm : vol.sm.state = .running)
    (commandes : List Commande) {inf : Inference} {o : TaskExecutionOutcome}
    (hissue : inf.issue = .rend o) (fin : Int) :
    Aboutie avant vol.tache inf fin
        (((vol.commander commandes).executer inf).achever o fin) ↔
      ¬ Annulee commandes ∧ ¬ EnPause commandes ∧
        evaluate o.result inf.erreurs (vol.executor.validator.criteresDe vol.taskId) ≠
          .needsReview := by
  have hengagee := h.commander commandes
  have hadmet := (etat_commander hsm commandes).1
  have hverdict := verdict_executer hengagee inf o fin
  rw [← and_assoc, ← hadmet]
  constructor
  · intro haboutie
    obtain ⟨rep, hrep⟩ := haboutie.rendue
    have hvalide : (vol.commander commandes).sm.Admet .validating := by
      by_contra hrefus
      rw [achever_refusee ((vol.commander commandes).executer inf) hrefus] at hrep
      cases hrep
    refine ⟨hvalide, fun hreview => ?_⟩
    rw [achever_needsReview ((vol.commander commandes).executer inf) hvalide
      (hverdict.trans hreview)] at hrep
    cases hrep
  · rintro ⟨hvalide, hjuge⟩
    exact aboutie_achever (hengagee.executer inf) hvalide hissue fun hreview =>
      hjuge (hverdict.symm.trans hreview)

theorem peutFinir_commander (hsm : vol.sm.state = .running) {commandes : List Commande}
    (hpause : ¬ EnPause commandes) :
    (vol.commander commandes).sm.isTerminal = true ∨
      ((vol.commander commandes).sm.Admet .failed ∧
        (vol.commander commandes).sm.Admet .completed) := by
  have hstate : (vol.commander commandes).sm.state = _ := state_commanderTout hsm commandes
  unfold ExecutionStateMachine.isTerminal ExecutionStateMachine.Admet
  rw [hstate, if_neg hpause]
  by_cases hcancel : Annulee commandes
  · simp [hcancel]
  · simp [hcancel, VALID_TRANSITIONS]

theorem tousFinis_executer (h : vol.executor.scheduler.getTask vol.taskId = some vol.tache)
    (commandes : List Commande) (inf : Inference) (reprise : Bool) :
    TousFinis ((vol.commander commandes).executer inf) reprise ↔ TousFinis vol reprise := by
  unfold TousFinis
  rw [EnVol.siennes_executer]
  refine and_congr_right fun _ => forall₂_congr fun taskId _ => ?_
  rw [EnVol.taskId_executer, EnVol.taskId_commander]
  by_cases hid : taskId = vol.taskId
  · rw [if_pos hid, if_pos hid]
  · have htache : ((vol.commander commandes).executer inf).executor.scheduler.tache taskId =
        vol.executor.scheduler.tache taskId :=
      TaskScheduler.tache_ecrire_of_ne _ _ _ (taskId_porterErreurs inf.erreurs) h hid
    rw [if_neg hid, if_neg hid, htache]

theorem reprise_executer (commandes : List Commande) (inf : Inference) (message : String) :
    Reprise mot ((vol.commander commandes).executer inf) message = Reprise mot vol message := by
  have hobjet := (vol.commander commandes).objets_executer inf
  rw [EnVol.tache_commander] at hobjet
  unfold Reprise
  rw [EnVol.tache_executer, EnVol.tache_commander, hobjet, EnVol.sm_executer,
    EnVol.execMeta_commander]
  rfl

theorem aboutie_indisponible_iff (h : Engagee avant vol) (hsm : vol.sm.state = .running)
    (commandes : List Commande) {inf : Inference} {message : String}
    (hissue : inf.issue = .indisponible message) (fin : Int) :
    Aboutie avant vol.tache inf fin
        (((vol.commander commandes).executer inf).abandonner mot message fin) ↔
      ¬ (EnPause commandes ∧ TousFinis vol (Reprise mot vol message)) := by
  have hengagee := (h.commander commandes).executer inf
  have hfinis := allDone_refuse mot message fin hengagee.inscrite
  rw [reprise_executer, tousFinis_executer h.inscrite] at hfinis
  have haboutie := aboutie_abandonner mot fin hengagee hissue
  refine haboutie.trans ?_
  by_cases hpause : EnPause commandes
  · have hstate : ((vol.commander commandes).executer inf).sm.state = .paused :=
      (etat_commander hsm commandes).2.mpr hpause
    rw [MissionExecutor.maybeFinalizeState_ok_of_paused hstate]
    simp only [hpause, true_and]
    exact not_congr hfinis
  · have hok := MissionExecutor.maybeFinalizeState_ok
      (((vol.commander commandes).executer inf).refuse mot message fin)
      (peutFinir_commander hsm hpause)
    exact ⟨fun _ hand => hpause hand.1, fun _ => hok⟩

end Commandes

/-- A call with a task in flight does what it owes exactly when the answer concludes. -/
theorem executeTask_aboutie_iff (mot : Char → Bool) {ex : MissionExecutor}
    {sm : ExecutionStateMachine} {taskId : String} {budget : Budget} {choix : Selection}
    {debut : Int} {vol : EnVol} (h : ex.ouvrir sm taskId budget choix debut = .enVol vol)
    (commandes : List Commande) (inf : Inference) (fin : Int) :
    Aboutie ex vol.tache inf fin
        (ex.executeTask mot sm taskId budget choix debut commandes inf fin) ↔
      Conclut mot vol commandes inf := by
  obtain ⟨hengagee, hsm⟩ := ouvrir_enVol h
  unfold MissionExecutor.executeTask
  rw [h]
  unfold EnVol.repondre Conclut
  cases hissue : inf.issue with
  | rend o => exact aboutie_rend_iff hengagee hsm commandes hissue fin
  | indisponible message => exact aboutie_indisponible_iff hengagee hsm commandes hissue fin
  | leve message =>
      constructor
      · intro haboutie
        obtain ⟨rep, hrep⟩ := haboutie.rendue
        cases hrep
      · exact False.elim

/-- One task prepared alone, given to the only agent. -/
def seule : Except TransitionInvalide (MissionExecutor × ExecutionStateMachine) :=
  MissionExecutor.prepare
    { scheduler := .nouveau fun _ => { taskId := "n1-task", title := "n1" }
      coordinator := AgentCoordinator.registerAgent {} "dev" }
    { executionId := "e1" } [0] []

/-- A short answer, from an executor that leaves no error. -/
def reponseNette : Inference where
  issue := .rend { result := some "fait", runtimeId := "ollama", model := "qwen", durationMs := 10 }

/-- Paused, resumed and answered: the task concludes. -/
theorem executeTask_aboutie_iff_pauseReprise :
    ∃ ex sm vol, seule = .ok (ex, sm) ∧
      ex.ouvrir sm "n1-task" ⟨0, 3600⟩ ⟨"dev", "ollama", [], []⟩ 0 = .enVol vol ∧
      Aboutie ex vol.tache reponseNette 10000
        (ex.executeTask Char.isAlphanum sm "n1-task" ⟨0, 3600⟩ ⟨"dev", "ollama", [], []⟩ 0
          [.pause, .resume] reponseNette 10000) := by
  refine ⟨_, _, _, rfl, rfl, ?_⟩
  exact (executeTask_aboutie_iff Char.isAlphanum rfl [.pause, .resume] reponseNette 10000).mpr
    ⟨by decide, by decide, by decide⟩

/-- Cancelled before the answer: the call raises, the task is left running and its agent
loaded. -/
theorem annulation_enVol :
    ∃ ex sm vol, seule = .ok (ex, sm) ∧
      ex.ouvrir sm "n1-task" ⟨0, 3600⟩ ⟨"dev", "ollama", [], []⟩ 0 = .enVol vol ∧
      let s := ex.executeTask Char.isAlphanum sm "n1-task" ⟨0, 3600⟩ ⟨"dev", "ollama", [], []⟩ 0
        [.cancel] reponseNette 10000
      s.resultat = .error (.transition { de := .cancelled, vers := .validating }) ∧
        (s.executor.scheduler.objets vol.tache).status = .running ∧
        s.executor.coordinator.getAgentLoad "dev" = 1 ∧ ex.coordinator.getAgentLoad "dev" = 0 ∧
        ¬ Aboutie ex vol.tache reponseNette 10000 s := by
  refine ⟨_, _, _, rfl, rfl, rfl, rfl, rfl, rfl, ?_⟩
  intro haboutie
  obtain ⟨rep, hrep⟩ := haboutie.rendue
  cases hrep

end Hermes.Execution
