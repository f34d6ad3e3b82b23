import Hermes.Runs.Taxonomie
import Hermes.Execution.StateMachine
import Hermes.Execution.TaskScheduler
import Hermes.Execution.AgentCoordinator
import Hermes.Execution.ValidationEngine

/-! # One task through the executor

`execute_task` holds the lock twice.
-/

namespace Hermes.Execution

open Lib Taxonomie

structure MissionExecutor where
  scheduler : TaskScheduler
  coordinator : AgentCoordinator := {}
  validator : ValidationEngine := {}
  executionTasks : Dict String (List String) := []

/-- What `execute_task` returns. -/
inductive Reponse where
  | notFound (taskId : String)
  | budgetDepasse (taskId : String) (status : TaskExecutionStatus) (error : String)
  | indisponible (taskId : String) (status : TaskExecutionStatus) (error : String)
  | rendue (taskId : String) (status : TaskExecutionStatus) (agent runtime model : String)
      (skills tools : List String) (outcome : Option ValidationOutcome) (durationMs : Rat)
  deriving DecidableEq

/-- What escapes `execute_task`. -/
inductive Erreur where
  | transition (erreur : TransitionInvalide)
  | inference (message : String)
  deriving DecidableEq

structure Sortie where
  executor : MissionExecutor
  sm : ExecutionStateMachine
  resultat : Except Erreur Reponse

/-- A task engaged and not yet answered: the state of the executor and of the machine, the
identifier the caller gave and the task object. -/
structure EnVol where
  executor : MissionExecutor
  sm : ExecutionStateMachine
  taskId : String
  tache : Nat

inductive Entree where
  | sortie (s : Sortie)
  | enVol (vol : EnVol)

def porterErreurs (errors : List String) (t : TaskExecution) : TaskExecution :=
  { t with errors := errors }

def affecter (a : AgentAssignment) (maintenant : Int) (t : TaskExecution) : TaskExecution :=
  { t with
    assignedAgent := a.agentId
    assignedRuntime := a.runtimeId
    assignedSkills := a.skillIds
    assignedTools := a.toolIds
    status := .running
    startedAt := some maintenant }

/-- Milliseconds from the start to `fin`, none for a task that never started. -/
def dureeDepuis (startedAt : Option Int) (fin : Int) : Rat :=
  match startedAt with
  | none => 0
  | some debut => (fin - debut : Int) / 1000

/-- A refusal of the runtime is retried when its cause allows it and the ceiling is not
reached. -/
def seReprend (mot : Char → Bool) (message : String) (retries maxRetries : Int) : Bool :=
  (remede (classer mot message {}).cause).reessayer && retries < maxRetries

/-- The task that no runtime could serve: one more attempt, or its end. -/
def subirIndisponibilite (mot : Char → Bool) (message : String) (maxRetries fin : Int)
    (t : TaskExecution) : TaskExecution :=
  let reprise := seReprend mot message t.retries maxRetries
  { t with
    errors := t.errors ++ [message]
    completedAt := some fin
    durationMs := dureeDepuis t.startedAt fin
    retries := if reprise then t.retries + 1 else t.retries
    status := if reprise then .pending else .failed }

/-- The task with what an outcome reports, before it is judged. -/
def recevoir (o : TaskExecutionOutcome) (fin : Int) (t : TaskExecution) : TaskExecution :=
  { t with
    result := o.result
    durationMs := o.durationMs
    assignedRuntime := o.runtimeId
    resourcesUsed := some o.resources
    completedAt := some fin
    modelUsed := o.model
    providerUsed := o.metadata.fournisseur
    decisionDeRoutage := decisionEnJson o.metadata o.model o.runtimeId
    toolsUsed := o.metadata.toolsInvoked }

/-- The task judged. One that needs a human keeps its status. -/
def juger (verdict : ValidationOutcome) (maxRetries : Int) (t : TaskExecution) :
    TaskExecution :=
  let t := { t with validationOutcome := some verdict }
  match verdict with
  | .pass => { t with status := .completed }
  | .retry =>
      if t.retries < maxRetries then
        { t with
          retries := t.retries + 1
          status := .pending
          errors := t.errors ++ ["Retry after validation"] }
      else { t with status := .failed }
  | .fail => { t with status := .failed }
  | .needsReview => t

section Ecritures

variable (t : TaskExecution)

theorem taskId_porterErreurs (errors : List String) :
    ∀ t, (porterErreurs errors t).taskId = t.taskId := fun _ => rfl

theorem taskId_affecter (a : AgentAssignment) (maintenant : Int) :
    ∀ t, (affecter a maintenant t).taskId = t.taskId := fun _ => rfl

theorem taskId_subirIndisponibilite (mot : Char → Bool) (message : String)
    (maxRetries fin : Int) :
    ∀ t, (subirIndisponibilite mot message maxRetries fin t).taskId = t.taskId := by
  intro t
  simp only [subirIndisponibilite]

theorem taskId_recevoir (o : TaskExecutionOutcome) (fin : Int) :
    ∀ t, (recevoir o fin t).taskId = t.taskId := fun _ => rfl

theorem juger_spec (verdict : ValidationOutcome) (maxRetries : Int) :
    (juger verdict maxRetries t).taskId = t.taskId ∧
      (juger verdict maxRetries t).result = t.result ∧
      (juger verdict maxRetries t).modelUsed = t.modelUsed ∧
      (juger verdict maxRetries t).assignedRuntime = t.assignedRuntime ∧
      (juger verdict maxRetries t).durationMs = t.durationMs ∧
      (juger verdict maxRetries t).completedAt = t.completedAt ∧
      (juger verdict maxRetries t).validationOutcome = some verdict := by
  cases verdict with
  | retry =>
      unfold juger
      dsimp only
      split <;> exact ⟨rfl, rfl, rfl, rfl, rfl, rfl, rfl⟩
  | pass => exact ⟨rfl, rfl, rfl, rfl, rfl, rfl, rfl⟩
  | fail => exact ⟨rfl, rfl, rfl, rfl, rfl, rfl, rfl⟩
  | needsReview => exact ⟨rfl, rfl, rfl, rfl, rfl, rfl, rfl⟩

theorem taskId_juger (verdict : ValidationOutcome) (maxRetries : Int) :
    ∀ t, (juger verdict maxRetries t).taskId = t.taskId :=
  fun t => (juger_spec t verdict maxRetries).1

theorem status_juger {verdict : ValidationOutcome} (h : verdict ≠ .needsReview)
    (maxRetries : Int) :
    (juger verdict maxRetries t).status ∈ [TaskExecutionStatus.completed, .failed, .pending] := by
  cases verdict with
  | pass => simp [juger]
  | retry =>
      unfold juger
      dsimp only
      split <;> simp
  | fail => simp [juger]
  | needsReview => exact absurd rfl h

end Ecritures

namespace MissionExecutor

def ecrire (ex : MissionExecutor) (r : Nat) (f : TaskExecution → TaskExecution)
    (hf : ∀ t, (f t).taskId = t.taskId) : MissionExecutor :=
  { ex with scheduler := ex.scheduler.ecrire r f hf }

def prepare (ex : MissionExecutor) (execMeta : ExecutionMeta) (tasks : List Nat)
    (dependencies : Dict String (List String)) :
    Except TransitionInvalide (MissionExecutor × ExecutionStateMachine) := do
  let sm : ExecutionStateMachine := { execMeta := execMeta }
  let sm ← sm.transition .planning "Preparing execution"
  let taskIds := tasks.map fun r => (ex.scheduler.objets r).taskId
  let executionTasks :=
    (ex.executionTasks.set execMeta.executionId taskIds).keepLast TaskScheduler.MAX_RETAINED_TASKS
  let scheduler := tasks.foldl (fun s r =>
    s.registerTask r (dependencies.getD (s.objets r).taskId [])) ex.scheduler
  let sm ← sm.transition .ready "Tasks registered and scheduled"
  return ({ ex with scheduler := scheduler, executionTasks := executionTasks }, sm)

theorem objets_enregistrer (dependencies : Dict String (List String)) (s : TaskScheduler)
    (tasks : List Nat) :
    (tasks.foldl (fun s r =>
      s.registerTask r (dependencies.getD (s.objets r).taskId [])) s).objets = s.objets := by
  induction tasks generalizing s with
  | nil => rfl
  | cons r tasks ih => exact (ih _).trans (TaskScheduler.objets_registerTask s r _)

theorem prepare_ready (ex : MissionExecutor) (execMeta : ExecutionMeta) (tasks : List Nat)
    (dependencies : Dict String (List String)) :
    ∃ ex' sm, ex.prepare execMeta tasks dependencies = .ok (ex', sm) ∧ sm.state = .ready ∧
      sm.execMeta = execMeta ∧ ex'.scheduler.objets = ex.scheduler.objets :=
  ⟨_, _, rfl, rfl, rfl, objets_enregistrer dependencies ex.scheduler tasks⟩

/-- The tasks of the execution that the machine follows. -/
def siennes (ex : MissionExecutor) (sm : ExecutionStateMachine) : List String :=
  ex.executionTasks.getD sm.execMeta.executionId []

def anyFailed (ex : MissionExecutor) (taskIds : List String) : Bool :=
  taskIds.any fun taskId =>
    match ex.scheduler.tache taskId with
    | none => false
    | some t => t.status = .failed

def maybeFinalizeState (ex : MissionExecutor) (sm : ExecutionStateMachine) :
    Except TransitionInvalide ExecutionStateMachine :=
  if sm.isTerminal then .ok sm
  else if !ex.scheduler.allDone (ex.siennes sm) then .ok sm
  else if ex.anyFailed (ex.siennes sm) then sm.transition .failed "One or more tasks failed"
  else sm.transition .completed "All tasks completed"

def refuserPourBudget (ex : MissionExecutor) (sm : ExecutionStateMachine) (taskId : String)
    (r : Nat) (budget : Budget) (maintenant : Int) : Sortie where
  executor := ex.ecrire r
    (fun t => { t with
      status := .failed, errors := [budget.motif taskId], completedAt := some maintenant })
    fun _ => rfl
  sm := sm
  resultat := .ok (.budgetDepasse taskId .failed (budget.motif taskId))

/-- The first section of `execute_task`. -/
def ouvrir (ex : MissionExecutor) (sm : ExecutionStateMachine) (taskId : String)
    (budget : Budget) (choix : Selection) (maintenant : Int) : Entree :=
  match ex.scheduler.getTask taskId with
  | none => .sortie { executor := ex, sm := sm, resultat := .ok (.notFound taskId) }
  | some r =>
      if budget.depasse then .sortie (ex.refuserPourBudget sm taskId r budget maintenant)
      else
        match sm.transition .running ("Executing task " ++ taskId) with
        | .error e => .sortie { executor := ex, sm := sm, resultat := .error (.transition e) }
        | .ok sm =>
            let ex := ex.ecrire r (porterErreurs []) (taskId_porterErreurs [])
            let (coordinator, a) := ex.coordinator.assign (ex.scheduler.objets r) choix
            let ex := { ex with coordinator := coordinator }
            .enVol
              { executor := ex.ecrire r (affecter a maintenant) (taskId_affecter a maintenant)
                sm := sm
                taskId := taskId
                tache := r }

/-- The end that both answers share: the registry, the agent, then the execution. -/
def cloturer (ex : MissionExecutor) (sm : ExecutionStateMachine) (taskId : String) (r : Nat)
    (reponse : TaskExecution → Reponse) : Sortie :=
  let scheduler := ex.scheduler.updateTask taskId (ex.scheduler.objets r).status none
  let ex := { ex with
    scheduler := scheduler, coordinator := ex.coordinator.releaseAgent taskId }
  match ex.maybeFinalizeState sm with
  | .error e => { executor := ex, sm := sm, resultat := .error (.transition e) }
  | .ok sm => { executor := ex, sm := sm, resultat := .ok (reponse (scheduler.objets r)) }

end MissionExecutor

namespace EnVol

def refuse (mot : Char → Bool) (vol : EnVol) (message : String) (fin : Int) : MissionExecutor :=
  vol.executor.ecrire vol.tache
    (subirIndisponibilite mot message vol.sm.execMeta.maxRetriesPerTask fin)
    (taskId_subirIndisponibilite mot message _ fin)

/-- The exit of a runtime that could not serve. -/
def abandonner (mot : Char → Bool) (vol : EnVol) (message : String) (fin : Int) : Sortie :=
  (vol.executor.ecrire vol.tache
      (subirIndisponibilite mot message vol.sm.execMeta.maxRetriesPerTask fin)
      (taskId_subirIndisponibilite mot message _ fin)).cloturer vol.sm vol.taskId vol.tache
    fun t => .indisponible vol.taskId t.status message

def achever (vol : EnVol) (o : TaskExecutionOutcome) (fin : Int) : Sortie :=
  let recu := vol.executor.ecrire vol.tache (recevoir o fin) (taskId_recevoir o fin)
  match vol.sm.transition .validating ("Validating task " ++ vol.taskId) with
  | .error e => { executor := recu, sm := vol.sm, resultat := .error (.transition e) }
  | .ok sm =>
      let verdict := recu.validator.validate (recu.scheduler.objets vol.tache)
      let juge := recu.ecrire vol.tache (juger verdict sm.execMeta.maxRetriesPerTask)
        (taskId_juger verdict _)
      let attente :=
        if verdict = .needsReview then sm.transition .waitingApproval "Needs human review"
        else .ok sm
      match attente with
      | .error e => { executor := juge, sm := sm, resultat := .error (.transition e) }
      | .ok sm =>
          juge.cloturer sm vol.taskId vol.tache fun t =>
            .rendue vol.taskId t.status t.assignedAgent t.assignedRuntime o.model
              t.assignedSkills t.toolsUsed t.validationOutcome t.durationMs

end EnVol

/-- How an inference ends: it returns, it says that no runtime can serve, or it raises
anything else. -/
inductive Issue where
  | rend (outcome : TaskExecutionOutcome)
  | indisponible (message : String)
  | leve (message : String)
  deriving DecidableEq

/-- An inference: the errors it leaves on the task and how it ends. -/
structure Inference where
  erreurs : List String := []
  issue : Issue
  deriving DecidableEq

namespace EnVol

def executer (vol : EnVol) (inf : Inference) : EnVol :=
  { vol with
    executor := vol.executor.ecrire vol.tache (porterErreurs inf.erreurs)
      (taskId_porterErreurs inf.erreurs) }

/-- The second section of `execute_task`. An exception of another class skips it. -/
def repondre (mot : Char → Bool) (vol : EnVol) (inf : Inference) (fin : Int) : Sortie :=
  let vol := vol.executer inf
  match inf.issue with
  | .rend o => vol.achever o fin
  | .indisponible message => vol.abandonner mot message fin
  | .leve message =>
      { executor := vol.executor, sm := vol.sm, resultat := .error (.inference message) }

/-- The commands of the user reach the machine while the inference runs. -/
def commander (vol : EnVol) (commandes : List Commande) : EnVol :=
  { vol with sm := commanderTout vol.sm commandes }

section Champs

variable (vol : EnVol) (inf : Inference) (commandes : List Commande)

@[simp] theorem sm_executer : (vol.executer inf).sm = vol.sm := rfl

@[simp] theorem taskId_executer : (vol.executer inf).taskId = vol.taskId := rfl

@[simp] theorem tache_executer : (vol.executer inf).tache = vol.tache := rfl

theorem objets_executer : (vol.executer inf).executor.scheduler.objets vol.tache =
    porterErreurs inf.erreurs (vol.executor.scheduler.objets vol.tache) :=
  TaskScheduler.objets_ecrire_self _ _ _ (taskId_porterErreurs inf.erreurs)

@[simp] theorem taskId_commander : (vol.commander commandes).taskId = vol.taskId := rfl

@[simp] theorem tache_commander : (vol.commander commandes).tache = vol.tache := rfl

@[simp] theorem execMeta_commander : (vol.commander commandes).sm.execMeta = vol.sm.execMeta :=
  execMeta_commanderTout vol.sm commandes

@[simp] theorem siennes_executer : ((vol.commander commandes).executer inf).executor.siennes
    ((vol.commander commandes).executer inf).sm = vol.executor.siennes vol.sm := by
  show vol.executor.executionTasks.getD (vol.commander commandes).sm.execMeta.executionId [] = _
  rw [execMeta_commander]
  rfl

end Champs

end EnVol

end Hermes.Execution
