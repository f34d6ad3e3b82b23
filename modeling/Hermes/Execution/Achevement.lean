import Hermes.Lib.Runs
import Hermes.Execution.Appel

/-! # The machine and its tasks

Several calls share the machine of one execution, and any of them may settle the last task.
-/

namespace Hermes.Execution

open Lib Taxonomie ValidationEngine

def TaskScheduler.statut (s : TaskScheduler) (taskId : String) : Option TaskExecutionStatus :=
  (s.tache taskId).map (·.status)

variable {ids : List String}

def Acheve (ids : List String) (statut : String → Option TaskExecutionStatus) : Prop :=
  ∀ id ∈ ids, ∃ status, statut id = some status ∧ status.terminal = true

def Echoue (ids : List String) (statut : String → Option TaskExecutionStatus) : Prop :=
  ∃ id ∈ ids, statut id = some .failed

/-- The machine says what the tasks have become: it has completed exactly when they are all finished
and none has failed, and failed exactly when they are all finished and one has. -/
structure Accord (ids : List String) (statut : String → Option TaskExecutionStatus)
    (state : ExecutionState) : Prop where
  completed : state = .completed ↔ Acheve ids statut ∧ ¬ Echoue ids statut
  failed : state = .failed ↔ Acheve ids statut ∧ Echoue ids statut

section Accord

variable {statut : String → Option TaskExecutionStatus} {state : ExecutionState}

theorem not_acheve_of_mem {id : String} (hid : id ∈ ids)
    (h : ∀ status, statut id = some status → status.terminal = false) : ¬ Acheve ids statut := by
  intro hacheve
  obtain ⟨status, hstatus, hterminal⟩ := hacheve id hid
  rw [h status hstatus] at hterminal
  cases hterminal

theorem Accord.of_not_acheve (h : ¬ Acheve ids statut) (hcompleted : state ≠ .completed)
    (hfailed : state ≠ .failed) : Accord ids statut state :=
  ⟨iff_of_false hcompleted fun hand => h hand.1, iff_of_false hfailed fun hand => h hand.1⟩

theorem Accord.congr {statut' : String → Option TaskExecutionStatus}
    (h : Accord ids statut state) (hmeme : ∀ id ∈ ids, statut' id = statut id) :
    Accord ids statut' state := by
  have hacheve : Acheve ids statut' ↔ Acheve ids statut :=
    forall₂_congr fun id hid => by rw [hmeme id hid]
  have hechoue : Echoue ids statut' ↔ Echoue ids statut :=
    exists_congr fun id => and_congr_right fun hid => by rw [hmeme id hid]
  constructor
  · rw [hacheve, hechoue]
    exact h.completed
  · rw [hacheve, hechoue]
    exact h.failed

theorem Accord.state_ne (h : Accord ids statut state) (hreste : ¬ Acheve ids statut) :
    state ≠ .completed ∧ state ≠ .failed :=
  ⟨fun heq => hreste (h.completed.mp heq).1, fun heq => hreste (h.failed.mp heq).1⟩

end Accord

section Registre

variable {s s' : TaskScheduler} {taskId : String} {r : Nat}

theorem statut_of_ne (h : s.getTask taskId = some r)
    (hinscrites : ∀ id, s'.getTask id = s.getTask id)
    (hobjets : ∀ r', r' ≠ r → s'.objets r' = s.objets r') {id : String} (hid : id ≠ taskId) :
    s'.statut id = s.statut id := by
  unfold TaskScheduler.statut TaskScheduler.tache
  rw [hinscrites]
  cases hget : s.getTask id with
  | none => rfl
  | some r' =>
      have hne : r' ≠ r := by
        intro heq
        subst heq
        exact hid ((TaskScheduler.taskId_of_getTask hget).symm.trans
          (TaskScheduler.taskId_of_getTask h))
      simp only [Option.map_some, hobjets r' hne]

theorem statut_self (h : s.getTask taskId = some r) :
    s.statut taskId = some (s.objets r).status := by
  unfold TaskScheduler.statut TaskScheduler.tache
  rw [h]
  rfl

theorem allDone_iff_acheve : s.allDone ids = true ↔ ids ≠ [] ∧ Acheve ids s.statut := by
  rw [TaskScheduler.allDone_iff]
  refine and_congr_right fun _ => forall₂_congr fun id _ => ?_
  unfold TaskScheduler.statut
  cases s.tache id with
  | none => simp
  | some t => simp

theorem anyFailed_iff {ex : MissionExecutor} :
    ex.anyFailed ids = true ↔ Echoue ids ex.scheduler.statut := by
  unfold MissionExecutor.anyFailed Echoue
  rw [List.any_eq_true]
  refine exists_congr fun id => and_congr_right fun _ => ?_
  unfold TaskScheduler.statut
  cases ex.scheduler.tache id with
  | none => simp
  | some t => simp

end Registre

/-- The states in which a call may find the machine when it answers. -/
def EnCours (state : ExecutionState) : Prop :=
  state ∈ [ExecutionState.running, .validating, .paused]

instance (state : ExecutionState) : Decidable (EnCours state) :=
  inferInstanceAs (Decidable (_ ∈ _))

theorem EnCours.ne {state : ExecutionState} (h : EnCours state) :
    state ≠ .completed ∧ state ≠ .failed ∧ state ≠ .ready := by
  cases state <;> revert h <;> decide

theorem EnCours.active {sm : ExecutionStateMachine} (h : EnCours sm.state) :
    sm.isTerminal = false := by
  unfold ExecutionStateMachine.isTerminal
  revert h
  cases sm.state <;> decide

section Fin

variable {ex : MissionExecutor} {sm sm' : ExecutionStateMachine}

theorem maybeFinalizeState_accord (hids : ex.siennes sm = ids) (hvide : ids ≠ [])
    (hetat : EnCours sm.state) (h : ex.maybeFinalizeState sm = .ok sm') :
    Accord ids ex.scheduler.statut sm'.state ∧
      (EnCours sm'.state ∨ sm'.state = .completed ∨ sm'.state = .failed) := by
  unfold MissionExecutor.maybeFinalizeState at h
  rw [hids, hetat.active, if_neg Bool.false_ne_true] at h
  obtain ⟨hcompleted, hfailed, -⟩ := hetat.ne
  split at h
  · next hreste =>
      cases h
      have hacheve : ¬ Acheve ids ex.scheduler.statut := by
        intro hacheve
        rw [allDone_iff_acheve.mpr ⟨hvide, hacheve⟩] at hreste
        cases hreste
      exact ⟨Accord.of_not_acheve hacheve hcompleted hfailed, Or.inl hetat⟩
  · next hdone =>
      have hacheve : Acheve ids ex.scheduler.statut := by
        rw [Bool.not_eq_true, Bool.not_eq_false'] at hdone
        exact (allDone_iff_acheve.mp hdone).2
      split at h
      · next hechec =>
          have hechoue := anyFailed_iff.mp hechec
          rw [(ExecutionStateMachine.transition_eq_ok.mp h).2, ExecutionStateMachine.state_vers]
          refine ⟨⟨?_, ?_⟩, Or.inr (Or.inr rfl)⟩
          · exact iff_of_false (by decide) fun hand => hand.2 hechoue
          · exact iff_of_true rfl ⟨hacheve, hechoue⟩
      · next hechec =>
          have hechoue : ¬ Echoue ids ex.scheduler.statut := fun he =>
            hechec (anyFailed_iff.mpr he)
          rw [(ExecutionStateMachine.transition_eq_ok.mp h).2, ExecutionStateMachine.state_vers]
          refine ⟨⟨?_, ?_⟩, Or.inr (Or.inl rfl)⟩
          · exact iff_of_true rfl ⟨hacheve, hechoue⟩
          · exact iff_of_false (by decide) fun hand => hechoue hand.2

theorem maybeFinalizeState_ok_of_enCours (hids : ex.siennes sm = ids) (hetat : EnCours sm.state)
    (hpause : sm.state = .paused → ex.scheduler.allDone ids = false) :
    ∃ sm', ex.maybeFinalizeState sm = .ok sm' := by
  by_cases heq : sm.state = .paused
  · rw [MissionExecutor.maybeFinalizeState_ok_of_paused heq, hids, hpause heq]
    exact Bool.false_ne_true
  · refine MissionExecutor.maybeFinalizeState_ok ex (Or.inr ?_)
    unfold ExecutionStateMachine.Admet
    revert hetat heq
    cases sm.state <;> decide

theorem cloturer_accord (ex : MissionExecutor) (sm : ExecutionStateMachine) {taskId : String}
    {r : Nat} (h : ex.scheduler.getTask taskId = some r)
    (hids : ex.siennes sm = ids) (hvide : ids ≠ []) (hetat : EnCours sm.state)
    (hpause : sm.state = .paused → ex.scheduler.allDone ids = false)
    (reponse : TaskExecution → Reponse) :
    Accord ids (ex.cloturer sm taskId r reponse).executor.scheduler.statut
        (ex.cloturer sm taskId r reponse).sm.state ∧
      (EnCours (ex.cloturer sm taskId r reponse).sm.state ∨
        (ex.cloturer sm taskId r reponse).sm.state = .completed ∨
        (ex.cloturer sm taskId r reponse).sm.state = .failed) := by
  obtain ⟨sm', hfinal⟩ := maybeFinalizeState_ok_of_enCours hids hetat hpause
  have hsm : (ex.cloturer sm taskId r reponse).sm = sm' := by
    have hmeme : MissionExecutor.maybeFinalizeState
        { ex with coordinator := ex.coordinator.releaseAgent taskId } sm = .ok sm' := hfinal
    unfold MissionExecutor.cloturer
    rw [TaskScheduler.updateTask_status_self h]
    dsimp only
    rw [hmeme]
  rw [hsm, MissionExecutor.cloturer_executor sm h reponse]
  exact maybeFinalizeState_accord hids hvide hetat hfinal

end Fin

section Repondre

variable {mot : Char → Bool} {vol : EnVol} {inf : Inference} {fin : Int}

theorem accord_of_running {ex : MissionExecutor} {taskId : String} {r : Nat}
    {state : ExecutionState} (hmem : taskId ∈ ids) (h : ex.scheduler.getTask taskId = some r)
    (hrunning : (ex.scheduler.objets r).status = .running) (hetat : EnCours state) :
    Accord ids ex.scheduler.statut state := by
  obtain ⟨hcompleted, hfailed, -⟩ := hetat.ne
  refine Accord.of_not_acheve (not_acheve_of_mem hmem fun status hstatus => ?_) hcompleted hfailed
  rw [statut_self h, hrunning] at hstatus
  cases hstatus
  rfl

variable (vol fin) in
theorem repondre_accord (h : vol.executor.scheduler.getTask vol.taskId = some vol.tache)
    (hrunning : (vol.executor.scheduler.objets vol.tache).status = .running)
    (hids : vol.executor.siennes vol.sm = ids) (hmem : vol.taskId ∈ ids)
    (hetat : EnCours vol.sm.state)
    (hpause : ∀ message, inf.issue = .indisponible message →
      ¬ (vol.sm.state = .paused ∧ TousFinis vol (Reprise mot vol message))) :
    Accord ids (vol.repondre mot inf fin).executor.scheduler.statut
        (vol.repondre mot inf fin).sm.state ∧
      (EnCours (vol.repondre mot inf fin).sm.state ∨
        (vol.repondre mot inf fin).sm.state = .completed ∨
        (vol.repondre mot inf fin).sm.state = .failed) := by
  have hvide : ids ≠ [] := List.ne_nil_of_mem hmem
  have hobjet := vol.objets_executer inf
  have hexecuter : ((vol.executer inf).executor.scheduler.objets
      (vol.executer inf).tache).status = .running := by
    rw [EnVol.tache_executer, hobjet]
    exact hrunning
  unfold EnVol.repondre
  cases hissue : inf.issue with
  | leve message => exact ⟨accord_of_running hmem h hexecuter hetat, Or.inl hetat⟩
  | rend o =>
      have hrecu : (((vol.executer inf).recu o fin).scheduler.objets
          (vol.executer inf).tache).status = .running := by
        rw [objets_recu]
        exact hexecuter
      dsimp only
      by_cases hvalide : (vol.executer inf).sm.Admet .validating
      · by_cases hverdict : (vol.executer inf).verdict o fin = .needsReview
        · rw [achever_needsReview _ hvalide hverdict]
          have hjuge : (((vol.executer inf).juge o fin).scheduler.objets
              (vol.executer inf).tache).status = .running := by
            rw [objets_juge, hverdict]
            exact hexecuter
          have hvalidating : EnCours .validating := by decide
          exact ⟨accord_of_running hmem h hjuge hvalidating, Or.inl hvalidating⟩
        · rw [achever_eq_cloturer _ hvalide hverdict]
          exact cloturer_accord ((vol.executer inf).juge o fin)
            (vol.sm.vers .validating ("Validating task " ++ vol.taskId)) h hids hvide
            (by rw [ExecutionStateMachine.state_vers]; decide)
            (fun heq => absurd heq (by rw [ExecutionStateMachine.state_vers]; decide)) _
      · rw [achever_refusee _ hvalide]
        exact ⟨accord_of_running hmem h hrecu hetat, Or.inl hetat⟩
  | indisponible message =>
      have hreste : vol.sm.state = .paused →
          ((vol.executer inf).refuse mot message fin).scheduler.allDone ids = false := by
        intro heq
        have hfinis : ((vol.executer inf).refuse mot message fin).scheduler.allDone
            ((vol.executer inf).executor.siennes (vol.executer inf).sm) = true ↔ _ :=
          allDone_refuse mot message fin h
        have hreprise : Reprise mot (vol.executer inf) message = Reprise mot vol message :=
          reprise_executer [] inf message
        have htous : TousFinis (vol.executer inf) (Reprise mot vol message) ↔ _ :=
          tousFinis_executer h [] inf (Reprise mot vol message)
        rw [hreprise, htous] at hfinis
        rw [← Bool.not_eq_true, ← hids]
        exact fun hdone => hpause message hissue ⟨heq, hfinis.mp hdone⟩
      exact cloturer_accord ((vol.executer inf).refuse mot message fin) vol.sm h hids hvide hetat
        hreste _

end Repondre

/-- A call in flight: the identifier its caller gave and the task object it engaged. -/
structure Vol where
  taskId : String
  tache : Nat
  deriving DecidableEq

/-- The executor of the process, the machine of one execution and the calls in flight on it. -/
structure Suivi where
  executor : MissionExecutor
  sm : ExecutionStateMachine
  vols : List Vol := []

/-- The call in flight, on the executor and the machine as they have become. -/
def Suivi.enVol (s : Suivi) (v : Vol) : EnVol where
  executor := s.executor
  sm := s.sm
  taskId := v.taskId
  tache := v.tache

inductive Evenement where
  /-- A call of `execute_task` takes the lock for the first time. -/
  | engager (taskId : String) (budget : Budget) (choix : Selection) (debut : Int)
  | repondre (v : Vol) (inf : Inference) (fin : Int)
  | commander (c : Commande)
  | autrui (agir : MissionExecutor → MissionExecutor)

namespace Suivi

variable (mot : Char → Bool)

def step (s : Suivi) : Evenement → Option Suivi
  | .engager taskId budget choix debut =>
      match s.executor.ouvrir s.sm taskId budget choix debut with
      | .sortie r => some { s with executor := r.executor, sm := r.sm }
      | .enVol vol =>
          some
            { executor := vol.executor, sm := vol.sm, vols := s.vols ++ [⟨vol.taskId, vol.tache⟩] }
  | .repondre v inf fin =>
      if v ∈ s.vols then
        let r := (s.enVol v).repondre mot inf fin
        some { executor := r.executor, sm := r.sm, vols := s.vols.erase v }
      else none
  | .commander c => some { s with sm := Execution.commander s.sm c }
  | .autrui agir => some { s with executor := agir s.executor }

def Accordee (ids : List String) (s : Suivi) : Prop :=
  Accord ids s.executor.scheduler.statut s.sm.state

def Reguliere (ids : List String) (s : Suivi) : Evenement → Prop
  | .engager taskId budget _ _ =>
      taskId ∈ ids ∧ (∀ v ∈ s.vols, v.taskId ≠ taskId) ∧
        (budget.depasse = true → s.sm.state = .failed ∨
          ∃ id ∈ ids, id ≠ taskId ∧ ∃ status, s.executor.scheduler.statut id = some status ∧
            status.terminal = false)
  | .repondre v inf _ =>
      ∀ message, inf.issue = .indisponible message →
        ¬ (s.sm.state = .paused ∧ TousFinis (s.enVol v) (Reprise mot (s.enVol v) message))
  | .commander c => c ≠ .cancel
  | .autrui agir =>
      (agir s.executor).siennes s.sm = s.executor.siennes s.sm ∧
        ∀ id ∈ ids, ∀ r, s.executor.scheduler.getTask id = some r →
          (agir s.executor).scheduler.getTask id = some r ∧
            (agir s.executor).scheduler.objets r = s.executor.scheduler.objets r

/-- The machine is right, and what keeps it so: the tasks of the execution are registered, those in
flight run, and the machine has started and has not been cancelled. -/
structure Suivie (ids : List String) (s : Suivi) : Prop where
  siennes : s.executor.siennes s.sm = ids
  inscrites : ∀ id ∈ ids, ∃ r, s.executor.scheduler.getTask id = some r
  engagees : ∀ v ∈ s.vols, v.taskId ∈ ids ∧
    s.executor.scheduler.getTask v.taskId = some v.tache ∧
    (s.executor.scheduler.objets v.tache).status = .running
  distinctes : (s.vols.map (·.taskId)).Nodup
  etat : EnCours s.sm.state ∨ s.sm.state = .completed ∨ s.sm.state = .failed ∨
    (s.sm.state = .ready ∧ s.vols = [])
  accord : Accordee ids s

variable {mot} {ids : List String} {s s' : Suivi}

theorem Suivie.enCours (h : Suivie ids s) {v : Vol} (hv : v ∈ s.vols) : EnCours s.sm.state := by
  obtain ⟨hmem, hinscrite, hrunning⟩ := h.engagees v hv
  have hreste : ¬ Acheve ids s.executor.scheduler.statut := by
    refine not_acheve_of_mem hmem fun status hstatus => ?_
    rw [statut_self hinscrite, hrunning] at hstatus
    cases hstatus
    rfl
  obtain ⟨hcompleted, hfailed⟩ := h.accord.state_ne hreste
  rcases h.etat with hetat | hetat | hetat | hetat
  · exact hetat
  · exact absurd hetat hcompleted
  · exact absurd hetat hfailed
  · rw [hetat.2] at hv
    cases hv

theorem Suivie.tache_ne (h : Suivie ids s) {v w : Vol} (hv : v ∈ s.vols) (hw : w ∈ s.vols)
    (hne : w ≠ v) : w.tache ≠ v.tache := by
  have hname : w.taskId ≠ v.taskId := fun heq =>
    hne (List.inj_on_of_nodup_map h.distinctes hw hv heq)
  intro heq
  have hw' := TaskScheduler.taskId_of_getTask (h.engagees w hw).2.1
  rw [heq, TaskScheduler.taskId_of_getTask (h.engagees v hv).2.1] at hw'
  exact hname hw'.symm

theorem siennes_congr {ex ex' : MissionExecutor} {sm sm' : ExecutionStateMachine}
    (htasks : ex'.executionTasks = ex.executionTasks) (hmeta : sm'.execMeta = sm.execMeta) :
    ex'.siennes sm' = ex.siennes sm := by
  unfold MissionExecutor.siennes
  rw [htasks, hmeta]

theorem Suivie.repondre (h : Suivie ids s) {v : Vol} (hv : v ∈ s.vols) {inf : Inference}
    {fin : Int} (hregle : s.Reguliere mot ids (.repondre v inf fin)) :
    Suivie ids
      { executor := ((s.enVol v).repondre mot inf fin).executor
        sm := ((s.enVol v).repondre mot inf fin).sm
        vols := s.vols.erase v } := by
  obtain ⟨hmem, hinscrite, hrunning⟩ := h.engagees v hv
  obtain ⟨haccord, hetat⟩ := repondre_accord (s.enVol v) fin hinscrite hrunning h.siennes hmem
    (h.enCours hv) hregle
  constructor
  · rw [siennes_congr cadre_repondre.suivies execMeta_repondre]
    exact h.siennes
  · intro id hid
    obtain ⟨r, hr⟩ := h.inscrites id hid
    exact ⟨r, (cadre_repondre.inscrites id).trans hr⟩
  · intro w hw
    have hnodup : s.vols.Nodup := List.Nodup.of_map _ h.distinctes
    obtain ⟨hne, hw⟩ := hnodup.mem_erase_iff.mp hw
    obtain ⟨hmem', hinscrite', hrunning'⟩ := h.engagees w hw
    have htache := h.tache_ne hv hw hne
    have hobjet : ((s.enVol v).repondre mot inf fin).executor.scheduler.objets w.tache =
        s.executor.scheduler.objets w.tache := by
      refine objets_repondre_of_ne htache fun heq => htache ?_
      have hsome : some v.tache = some w.tache := hinscrite.symm.trans heq
      exact (Option.some.inj hsome).symm
    refine ⟨hmem', (cadre_repondre.inscrites w.taskId).trans hinscrite', ?_⟩
    rw [hobjet]
    exact hrunning'
  · exact h.distinctes.sublist (List.erase_sublist.map _)
  · rcases hetat with hetat | hetat | hetat
    · exact Or.inl hetat
    · exact Or.inr (Or.inl hetat)
    · exact Or.inr (Or.inr (Or.inl hetat))
  · exact haccord

theorem statut_refuserPourBudget {ex : MissionExecutor} (sm : ExecutionStateMachine)
    {taskId : String} {r : Nat} (h : ex.scheduler.getTask taskId = some r) (budget : Budget)
    (debut : Int) :
    (ex.refuserPourBudget sm taskId r budget debut).executor.scheduler.statut taskId =
        some .failed ∧
      ∀ id, id ≠ taskId → (ex.refuserPourBudget sm taskId r budget
        debut).executor.scheduler.statut id = ex.scheduler.statut id := by
  have hinscrites : ∀ id, (ex.refuserPourBudget sm taskId r budget
      debut).executor.scheduler.getTask id = ex.scheduler.getTask id := fun _ => rfl
  constructor
  · rw [statut_self ((hinscrites taskId).trans h), status_refuserPourBudget]
  · intro id hid
    refine statut_of_ne h hinscrites (fun r' hr' => ?_) hid
    exact objets_refuserPourBudget_of_ne ex sm taskId hr' budget debut

theorem Suivie.refuser (h : Suivie ids s) {taskId : String} {budget : Budget} {choix : Selection}
    {debut : Int} {r : Sortie}
    (hregle : s.Reguliere mot ids (.engager taskId budget choix debut))
    (hsortie : s.executor.ouvrir s.sm taskId budget choix debut = .sortie r) :
    Suivie ids { s with executor := r.executor, sm := r.sm } := by
  obtain ⟨hmem, hlibre, hbudget⟩ := hregle
  obtain ⟨hsm, hnone | hsome⟩ := ouvrir_sortie hsortie
  · obtain ⟨r', hr'⟩ := h.inscrites taskId hmem
    rw [hnone.1] at hr'
    cases hr'
  · obtain ⟨tache, htache, hrefus | hleve⟩ := hsome
    · rw [hrefus.2]
      obtain ⟨hself, hautres⟩ := statut_refuserPourBudget s.sm htache budget debut
      refine ⟨h.siennes, h.inscrites, ?_, h.distinctes, h.etat, ?_⟩
      · intro v hv
        obtain ⟨hmem', hinscrite, hrunning⟩ := h.engagees v hv
        have hne : v.tache ≠ tache := by
          intro heq
          have hnom := TaskScheduler.taskId_of_getTask hinscrite
          rw [heq, TaskScheduler.taskId_of_getTask htache] at hnom
          exact hlibre v hv hnom.symm
        refine ⟨hmem', hinscrite, ?_⟩
        rw [objets_refuserPourBudget_of_ne _ _ _ hne]
        exact hrunning
      · cases hbudget hrefus.1 with
        | inl hfailed =>
            -- a task refused on a failed execution is one more failure
            obtain ⟨hacheve, -⟩ := h.accord.failed.mp hfailed
            have hechoue : Echoue ids _ := ⟨taskId, hmem, hself⟩
            have hacheve' : Acheve ids (s.executor.refuserPourBudget s.sm taskId tache budget
                debut).executor.scheduler.statut := by
              intro id hid
              by_cases heq : id = taskId
              · exact ⟨.failed, heq ▸ hself, rfl⟩
              · rw [hautres id heq]
                exact hacheve id hid
            refine ⟨iff_of_false ?_ fun hand => hand.2 hechoue,
              iff_of_true hfailed ⟨hacheve', hechoue⟩⟩
            intro hcompleted
            cases hfailed.symm.trans hcompleted
        | inr hreste =>
            obtain ⟨id, hid, hne, status, hstatus, hnon⟩ := hreste
            have havant : ¬ Acheve ids s.executor.scheduler.statut := by
              refine not_acheve_of_mem hid fun status' hstatus' => ?_
              cases hstatus.symm.trans hstatus'
              exact hnon
            obtain ⟨hcompleted, hfailed⟩ := h.accord.state_ne havant
            refine Accord.of_not_acheve (not_acheve_of_mem hid fun status' hstatus' => ?_)
              hcompleted hfailed
            rw [hautres id hne, hstatus] at hstatus'
            cases hstatus'
            exact hnon
    · rw [hleve.1, hsm]
      exact h

theorem Suivie.engager (h : Suivie ids s) {taskId : String} {budget : Budget} {choix : Selection}
    {debut : Int} {vol : EnVol}
    (hregle : s.Reguliere mot ids (.engager taskId budget choix debut))
    (hvol : s.executor.ouvrir s.sm taskId budget choix debut = .enVol vol) :
    Suivie ids
      { executor := vol.executor, sm := vol.sm, vols := s.vols ++ [⟨vol.taskId, vol.tache⟩] } := by
  obtain ⟨hmem, hlibre, -⟩ := hregle
  have hengage := ouvrir_engage hvol
  have hinscrite : vol.executor.scheduler.getTask taskId = some vol.tache := by
    rw [hengage.cadre.inscrites]
    exact hengage.inscrite
  have hetat : EnCours vol.sm.state := by
    rw [hengage.machine, ExecutionStateMachine.state_vers]
    decide
  constructor
  · have hmeta : vol.sm.execMeta = s.sm.execMeta := by
      rw [hengage.machine]
      rfl
    rw [siennes_congr hengage.cadre.suivies hmeta]
    exact h.siennes
  · intro id hid
    rw [hengage.cadre.inscrites]
    exact h.inscrites id hid
  · intro v hv
    rcases List.mem_append.mp hv with hold | hnew
    · obtain ⟨hmem', hinscrite', hrunning⟩ := h.engagees v hold
      have hne : v.tache ≠ vol.tache := by
        intro heq
        have hnom := TaskScheduler.taskId_of_getTask hinscrite'
        rw [heq, TaskScheduler.taskId_of_getTask hengage.inscrite] at hnom
        exact hlibre v hold hnom.symm
      rw [hengage.cadre.inscrites, hengage.objets v.tache hne]
      exact ⟨hmem', hinscrite', hrunning⟩
    · cases List.mem_singleton.mp hnew
      rw [hengage.nom]
      exact ⟨hmem, hinscrite, hengage.status⟩
  · rw [List.map_append, hengage.nom]
    refine List.nodup_append.mpr ⟨h.distinctes, List.nodup_singleton _, ?_⟩
    intro id hid id' hid' heq
    obtain ⟨v, hv, rfl⟩ := List.mem_map.mp hid
    exact hlibre v hv (heq.trans (List.mem_singleton.mp hid'))
  · exact Or.inl hetat
  · exact accord_of_running hmem hinscrite hengage.status hetat

theorem effet_of_ne_cancel {c : Commande} (hc : c ≠ .cancel) (state : ExecutionState) :
    (c.effet state = .completed ↔ state = .completed) ∧
      (c.effet state = .failed ↔ state = .failed) ∧
      (EnCours state → EnCours (c.effet state)) ∧ (state = .ready → c.effet state = .ready) := by
  cases c with
  | pause => cases state <;> decide
  | resume => cases state <;> decide
  | cancel => exact absurd rfl hc

theorem Suivie.commander (h : Suivie ids s) {c : Commande} (hc : c ≠ .cancel) :
    Suivie ids { s with sm := Execution.commander s.sm c } := by
  obtain ⟨hstate, hmeta⟩ := commander_spec s.sm c
  obtain ⟨hcompleted, hfailed, henCours, hready⟩ := effet_of_ne_cancel hc s.sm.state
  refine ⟨?_, h.inscrites, h.engagees, h.distinctes, ?_, ?_⟩
  · rw [siennes_congr rfl hmeta]
    exact h.siennes
  · dsimp only
    rw [hstate, hcompleted, hfailed]
    rcases h.etat with hetat | hetat | hetat | hetat
    · exact Or.inl (henCours hetat)
    · exact Or.inr (Or.inl hetat)
    · exact Or.inr (Or.inr (Or.inl hetat))
    · exact Or.inr (Or.inr (Or.inr ⟨hready hetat.1, hetat.2⟩))
  · unfold Accordee
    dsimp only
    rw [hstate]
    exact ⟨hcompleted.trans h.accord.completed, hfailed.trans h.accord.failed⟩

theorem Suivie.autrui (h : Suivie ids s) {agir : MissionExecutor → MissionExecutor}
    (hregle : s.Reguliere mot ids (.autrui agir)) :
    Suivie ids { s with executor := agir s.executor } := by
  obtain ⟨hsiennes, hobjets⟩ := hregle
  refine ⟨hsiennes.trans h.siennes, ?_, ?_, h.distinctes, h.etat, ?_⟩
  · intro id hid
    obtain ⟨r, hr⟩ := h.inscrites id hid
    exact ⟨r, (hobjets id hid r hr).1⟩
  · intro v hv
    obtain ⟨hmem, hinscrite, hrunning⟩ := h.engagees v hv
    obtain ⟨hinscrite', hobjet⟩ := hobjets v.taskId hmem v.tache hinscrite
    refine ⟨hmem, hinscrite', ?_⟩
    rw [hobjet]
    exact hrunning
  · refine Accord.congr h.accord fun id hid => ?_
    obtain ⟨r, hr⟩ := h.inscrites id hid
    obtain ⟨hr', hobjet⟩ := hobjets id hid r hr
    rw [statut_self hr, statut_self hr', hobjet]

theorem Suivie.step (h : Suivie ids s) {e : Evenement} (hregle : s.Reguliere mot ids e)
    (hstep : s.step mot e = some s') : Suivie ids s' := by
  cases e with
  | engager taskId budget choix debut =>
      unfold Suivi.step at hstep
      dsimp only at hstep
      split at hstep
      · next r hsortie =>
          cases hstep
          exact h.refuser hregle hsortie
      · next vol hvol =>
          cases hstep
          exact h.engager hregle hvol
  | repondre v inf fin =>
      unfold Suivi.step at hstep
      dsimp only at hstep
      split at hstep
      · next hv =>
          cases hstep
          exact h.repondre hv hregle
      · cases hstep
  | commander c =>
      cases hstep
      exact h.commander hregle
  | autrui agir =>
      cases hstep
      exact h.autrui hregle

end Suivi

theorem siennes_prepare {ex ex' : MissionExecutor} {sm : ExecutionStateMachine}
    {execMeta : ExecutionMeta} {tasks : List Nat} {dependencies : Dict String (List String)}
    (h : ex.prepare execMeta tasks dependencies = .ok (ex', sm))
    (hneuve : execMeta.executionId ∉ ex.executionTasks.keys) :
    ex'.siennes sm = tasks.map fun r => (ex.scheduler.objets r).taskId := by
  have hlast : ex.executionTasks.set execMeta.executionId
      (tasks.map fun r => (ex.scheduler.objets r).taskId) =
        ex.executionTasks.setLast execMeta.executionId
          (tasks.map fun r => (ex.scheduler.objets r).taskId) :=
    (Dict.set_of_notMem hneuve _).trans (Dict.setLast_of_notMem hneuve _).symm
  have hsuit : ex'.executionTasks = (ex.executionTasks.set execMeta.executionId
      (tasks.map fun r => (ex.scheduler.objets r).taskId)).keepLast
        TaskScheduler.MAX_RETAINED_TASKS ∧ sm.execMeta = execMeta := by
    cases h
    refine ⟨?_, rfl⟩
    dsimp only
  have hcap : 0 < TaskScheduler.MAX_RETAINED_TASKS := by decide
  unfold MissionExecutor.siennes Dict.getD
  rw [hsuit.1, hsuit.2, hlast, Dict.get?_keepLast_setLast _ _ _ hcap]
  rfl

open Suivi in
/-- In every run of an execution that starts with a task to finish, all of whose steps are regular,
the machine says at each moment what the tasks have become. -/
theorem execution_accordee (mot : Char → Bool) {ex ex' : MissionExecutor}
    {sm : ExecutionStateMachine} {execMeta : ExecutionMeta} {tasks : List Nat}
    {dependencies : Dict String (List String)}
    (hprepare : ex.prepare execMeta tasks dependencies = .ok (ex', sm))
    (hneuve : execMeta.executionId ∉ ex.executionTasks.keys)
    (hids : ids = tasks.map fun r => (ex.scheduler.objets r).taskId)
    (hinscrites : ∀ id ∈ ids, ∃ r, ex'.scheduler.getTask id = some r)
    (hreste : ¬ Acheve ids ex'.scheduler.statut) (events : List Evenement)
    (hregle : Along (step mot) (Reguliere mot ids) { executor := ex', sm := sm } events) :
    Always (step mot) (Accordee ids) { executor := ex', sm := sm } events := by
  have hstate : sm.state = .ready := by
    cases hprepare
    rfl
  have hdepart : Suivie ids { executor := ex', sm := sm } := by
    refine ⟨?_, hinscrites, ?_, List.nodup_nil, Or.inr (Or.inr (Or.inr ⟨hstate, rfl⟩)), ?_⟩
    · rw [hids]
      exact siennes_prepare hprepare hneuve
    · intro v hv
      cases hv
    · refine Accord.of_not_acheve hreste ?_ ?_
      · rw [hstate]
        decide
      · rw [hstate]
        decide
  have hsuivie : Always (step mot) (Suivie ids) { executor := ex', sm := sm } events :=
    always_of_along (fun s e s' h he hs => h.step he hs) hdepart hregle
  exact hsuivie.mono fun s h => h.accord

/-- The only task of an execution, engaged and answered. -/
theorem execution_accordee_seule :
    ∃ ex sm, seule = .ok (ex, sm) ∧
      Always (Suivi.step Char.isAlphanum) (Suivi.Accordee ["n1-task"]) { executor := ex, sm := sm }
        [.engager "n1-task" ⟨0, 3600⟩ ⟨"dev", "ollama", [], []⟩ 0, .commander .pause,
          .commander .resume, .repondre ⟨"n1-task", 0⟩ reponseNette 10000] := by
  refine ⟨_, _, rfl, ?_⟩
  have hprepare : seule = .ok (_, _) := rfl
  unfold seule at hprepare
  refine execution_accordee Char.isAlphanum hprepare (by decide) rfl ?_ ?_ _ ?_
  · intro id hid
    cases List.mem_singleton.mp hid
    exact ⟨0, rfl⟩
  · refine not_acheve_of_mem List.mem_cons_self fun status hstatus => ?_
    cases hstatus
    rfl
  · intro s₁ h₁
    cases h₁
    have hbudget : ¬ (⟨0, 3600⟩ : Budget).depasse = true := by decide
    refine ⟨⟨List.mem_cons_self, by simp, fun h => absurd h hbudget⟩, ?_⟩
    have hpause : Commande.pause ≠ .cancel := by decide
    have hresume : Commande.resume ≠ .cancel := by decide
    intro s₂ h₂
    cases h₂
    refine ⟨hpause, ?_⟩
    intro s₃ h₃
    cases h₃
    refine ⟨hresume, ?_⟩
    intro s₄ _
    refine ⟨?_, trivial⟩
    intro message hissue
    cases hissue

/-- The budget refuses the only task: it has failed, and the machine stays READY. -/
theorem budgetDepasse_enAttente :
    ∃ ex sm s, seule = .ok (ex, sm) ∧
      run (Suivi.step Char.isAlphanum) { executor := ex, sm := sm }
        [.engager "n1-task" ⟨3600, 3600⟩ ⟨"dev", "ollama", [], []⟩ 0] = some s ∧
      s.executor.scheduler.statut "n1-task" = some .failed ∧ s.vols = [] ∧
      s.sm.state = .ready ∧ ¬ s.Accordee ["n1-task"] := by
  refine ⟨_, _, _, rfl, rfl, rfl, rfl, rfl, ?_⟩
  intro haccord
  have hfailed := haccord.failed.mpr ⟨fun id hid => ⟨.failed, by
    cases List.mem_singleton.mp hid
    rfl, rfl⟩, "n1-task", List.mem_cons_self, rfl⟩
  cases hfailed

end Hermes.Execution
