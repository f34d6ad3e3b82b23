import Hermes.Lib.Json
import Mathlib.Data.Rat.Floor

/-! # Executions and their tasks

The records of the execution engine. Dates are microseconds on the wall clock and
durations are milliseconds.
-/

namespace Hermes.Execution

open Lib

inductive ExecutionState where
  | created
  | planning
  | ready
  | running
  | waitingApproval
  | paused
  | validating
  | completed
  | failed
  | cancelled
  deriving DecidableEq

inductive TaskExecutionStatus where
  | pending
  | scheduled
  | running
  | waiting
  | validating
  | completed
  | failed
  | skipped
  deriving DecidableEq

inductive ValidationOutcome where
  | pass
  | fail
  | retry
  | needsReview
  deriving DecidableEq

structure ExecutionMeta where
  executionId : String
  maxRetriesPerTask : Int := 3
  deriving DecidableEq

/-- What `TaskExecutionOutcome.resources` reports. -/
structure Ressources where
  durationMs : Rat
  promptTokens : Rat
  completionTokens : Rat
  totalTokens : Rat
  deriving DecidableEq

structure TaskExecution where
  taskId : String
  title : String := ""
  taskType : String := ""
  preferredAgent : String := ""
  status : TaskExecutionStatus := .pending
  assignedAgent : String := ""
  assignedRuntime : String := ""
  modelUsed : String := ""
  providerUsed : String := ""
  decisionDeRoutage : String := ""
  assignedSkills : List String := []
  assignedTools : List String := []
  toolsUsed : List String := []
  result : Option String := none
  errors : List String := []
  retries : Int := 0
  startedAt : Option Int := none
  completedAt : Option Int := none
  durationMs : Rat := 0
  resourcesUsed : Option Ressources := none
  validationOutcome : Option ValidationOutcome := none
  deriving DecidableEq

def TaskExecutionStatus.terminal : TaskExecutionStatus → Bool
  | completed | skipped | failed => true
  | pending | scheduled | running | waiting | validating => false

/-- The keys of `outcome.metadata` that the engine reads. An absent key reads as `""`. -/
structure Metadonnees where
  runtimeDemandeParLeRouteur : String := ""
  modeleDemandeParLeRouteur : String := ""
  fournisseur : String := ""
  toolsInvoked : List String := []
  deriving DecidableEq

structure TaskExecutionOutcome where
  result : Option String
  runtimeId : String
  model : String
  durationMs : Rat
  promptTokens : Int := 0
  completionTokens : Int := 0
  metadata : Metadonnees := {}
  deriving DecidableEq

def arrondi (x : Rat) : Int :=
  let bas := x.floor
  let reste := x - bas
  if reste < 1 / 2 then bas
  else if 1 / 2 < reste then bas + 1
  else if bas % 2 = 0 then bas
  else bas + 1

def TaskExecutionOutcome.resources (o : TaskExecutionOutcome) : Ressources where
  durationMs := arrondi (o.durationMs * 100) / 100
  promptTokens := o.promptTokens
  completionTokens := o.completionTokens
  totalTokens := o.promptTokens + o.completionTokens

/-- The routing decision as JSON: what the router asked for, what served, and the gap between them
when it is observed. -/
def decisionEnJson (metadata : Metadonnees) (modele runtimeServi : String) : String :=
  let demande := metadata.runtimeDemandeParLeRouteur
  let modeleDemande := metadata.modeleDemandeParLeRouteur
  let repli :=
    if demande ≠ "" ∧ runtimeServi ≠ "" ∧ demande ≠ runtimeServi then
      [("repli", demande ++ " indisponible, servi par " ++ runtimeServi)]
    else []
  let substitution :=
    if modeleDemande ≠ "" ∧ modele ≠ "" ∧ modeleDemande ≠ modele then
      [("modele_demande", modeleDemande),
        ("substitution", modeleDemande ++ " choisi par le routeur, " ++ modele ++ " engagé")]
    else []
  let fait :=
    [("runtime_demande", demande), ("runtime_servi", runtimeServi), ("modele", modele),
      ("fournisseur", metadata.fournisseur)] ++ repli ++ substitution
  let dits := fait.filter fun item => item.2 ≠ ""
  if dits = [] then ""
  else Json.dumpsEspace (.objet (dits.map fun item => (item.1, .texte item.2)))

structure Budget where
  consommeS : Rat
  budgetS : Rat
  deriving DecidableEq

def Budget.depasse (b : Budget) : Bool := b.budgetS ≤ b.consommeS

def Budget.motif (b : Budget) (taskId : String) : String :=
  "budget de mission atteint : " ++ toString (arrondi b.consommeS) ++ " s consommées sur " ++
    toString (arrondi b.budgetS) ++ " s — tâche " ++ taskId ++ " non engagée"

end Hermes.Execution
