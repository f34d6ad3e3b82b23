import Hermes.Workflows.Schema
import Mathlib.Data.List.Sort

/-! # The workflow engine

A run executes the ready nodes wave after wave, until nothing more is ready.
-/

namespace Hermes.Workflows

open Lib

/-- What the interpreter writes in the messages of the engine: the representation of a string,
and why JSON refuses a value. -/
structure Textes where
  repr : String → String
  refus : Valeur → String

inductive Status where
  | success
  | failed
  | skipped
  | awaitingValidation
  deriving DecidableEq

structure NodeResult where
  nodeId : String
  status : Status
  result : Valeur := .rien
  error : Option String := none

inductive RunStatus where
  | completed
  | failed
  | partiallySuccessful
  | awaitingValidation
  deriving DecidableEq

structure WorkflowRun where
  id : String
  workflowId : String
  status : RunStatus
  nodeResults : Dict String NodeResult
  pendingNodes : List String
  projectId : Option String

abbrev Params := Dict String Valeur

/-- How a tool ends: with a value, with an `Exception`, or with an exception that is not one,
such as a cancellation. -/
inductive Sortie where
  | rendu (value : Valeur)
  | leve (message : String)
  | echappe (message : String)

abbrev Tools := String → Option (Params → Sortie)

/-- One call of a tool, with the results it was decided on. -/
structure Invocation where
  node : WorkflowNode
  vus : Dict String NodeResult

def terminal : Status → Bool
  | .success | .failed => true
  | .skipped | .awaitingValidation => false

inductive Placeholder where
  | aucun
  | malforme
  | etape (nodeId key : String)
  deriving DecidableEq

def lirePlaceholder (value : String) : Placeholder :=
  let debut := "$steps.".toList
  if debut.isPrefixOf value.toList then
    let reste := value.toList.drop debut.length
    match reste.dropWhile (· ≠ '.') with
    | [] => .malforme
    | _ :: key => .etape (String.ofList (reste.takeWhile (· ≠ '.'))) (String.ofList key)
  else .aucun

def resolveValue (t : Textes) (value : String) (results : Dict String NodeResult) :
    Except String Valeur :=
  match lirePlaceholder value with
  | .aucun => .ok (.texte value)
  | .malforme =>
      .error ("Malformed placeholder " ++ t.repr value ++ "; expected $steps.<node_id>.<key>")
  | .etape nodeId key =>
      match (results.get? nodeId).filter fun r => r.status = .success with
      | none =>
          .error ("Placeholder " ++ t.repr value ++ " references node " ++ t.repr nodeId ++
            ", which hasn't completed successfully.")
      | some r =>
          match r.result.champ key with
          | none =>
              .error ("Placeholder " ++ t.repr value ++ ": node " ++ t.repr nodeId ++
                "'s result has no key " ++ t.repr key ++ ".")
          | some v => .ok v

def resolveParams (t : Textes) (params : Params) (results : Dict String NodeResult) :
    Except String Params :=
  params.mapM fun item =>
    match item.2 with
    | .texte value => (resolveValue t value results).map fun v => (item.1, v)
    | v => .ok (item.1, v)

/-- The message bus writes its payload as JSON: the value it refuses, if any. -/
def refusDuBus (valeurs : List Valeur) : Option Valeur :=
  valeurs.find? fun v => v.relu.isNone

def NodeResult.echec (nodeId message : String) : NodeResult where
  nodeId := nodeId
  status := .failed
  error := some message

def executeNode (t : Textes) (tools : Tools) (node : WorkflowNode)
    (results : Dict String NodeResult) : Bool × Except String NodeResult :=
  match tools node.action with
  | none => (false, .ok (.echec node.id ("Unknown action " ++ t.repr node.action)))
  | some tool =>
      match resolveParams t node.params results with
      | .error message => (false, .ok (.echec node.id message))
      | .ok params =>
          match refusDuBus (params.map Prod.snd) with
          | some v => (false, .error (t.refus v))
          | none =>
              match tool params with
              | .leve message => (true, .ok (.echec node.id message))
              | .echappe message => (true, .error message)
              | .rendu value =>
                  match refusDuBus [value] with
                  | some v => (true, .error (t.refus v))
                  | none =>
                      (true, .ok { nodeId := node.id, status := .success, result := value })

/-- What a wave of several nodes makes of an exception that escapes one of them. -/
def recueillir (node : WorkflowNode) : Except String NodeResult → NodeResult
  | .ok r => r
  | .error message => .echec node.id message

/-- The tools that were called, and the results of the wave or the exception that escapes. -/
def executeWave (t : Textes) (tools : String → Tools) (results : Dict String NodeResult)
    (nodes : List WorkflowNode) : List Invocation × Except String (Dict String NodeResult) :=
  let issue (node : WorkflowNode) := executeNode t (tools node.id) node results
  let calls := (nodes.filter fun node => (issue node).1).map fun node => ⟨node, results⟩
  match nodes with
  | [] => (calls, .ok [])
  | [node] => (calls, (issue node).2.map fun r => [(node.id, r)])
  | nodes => (calls, .ok (nodes.map fun node => (node.id, recueillir node (issue node).2)))

def edgeSatisfied (e : WorkflowEdge) (results : Dict String NodeResult) : Bool :=
  match e.condition with
  | .always => true
  | .onSuccess => (results.get? e.fromNode).any fun r => r.status = .success
  | .onFailure => (results.get? e.fromNode).any fun r => r.status = .failed

/-- Whether the predecessors of a node are done and one of its edges is satisfied. -/
def estPret (w : WorkflowDefinition) (done : List String) (results : Dict String NodeResult)
    (node : WorkflowNode) : Bool :=
  let incoming := w.incomingEdges node.id
  incoming.isEmpty ||
    (incoming.all fun e => e.fromNode ∈ done) && incoming.any fun e => edgeSatisfied e results

def readyNodes (w : WorkflowDefinition) (done : List String) (results : Dict String NodeResult)
    (remaining : List WorkflowNode) : List WorkflowNode :=
  (remaining.insertionSort fun a b => a.id ≤ b.id).filter (estPret w done results)

def overallStatus (results : Dict String NodeResult) (pendingNodes : List String) : RunStatus :=
  let statuses := results.map fun item => item.2.status
  if pendingNodes ≠ [] then .awaitingValidation
  else if statuses.all fun s => s = .success ∨ s = .skipped then .completed
  else if .success ∈ statuses then .partiallySuccessful
  else .failed

/-- The variables of the loop, and the calls made so far. -/
structure Parcours where
  results : Dict String NodeResult
  done : List String
  pendingNodes : List String
  remaining : List WorkflowNode
  invocations : List Invocation

def retenu (approved : List String) (node : WorkflowNode) : Bool :=
  node.humanValidation && node.id ∉ approved

def tour (t : Textes) (tools : String → Tools) (approved : List String)
    (ready : List WorkflowNode) (p : Parcours) : Parcours × Option String :=
  let retenus := ready.filter (retenu approved)
  let runnable := ready.filter fun node => !retenu approved node
  let results := p.results.update (retenus.map fun node =>
    (node.id, { nodeId := node.id, status := .awaitingValidation }))
  let p' : Parcours :=
    { p with
      results := results
      pendingNodes := p.pendingNodes ++ retenus.map WorkflowNode.id
      remaining := p.remaining.filter fun node => node.id ∉ ready.map WorkflowNode.id }
  match executeWave t tools results runnable with
  | (calls, .error message) =>
      ({ p' with invocations := p.invocations ++ calls }, some message)
  | (calls, .ok wave) =>
      ({ p' with
          results := results.update wave
          done := p.done ++ runnable.map WorkflowNode.id
          invocations := p.invocations ++ calls }, none)

def boucle (w : WorkflowDefinition) (t : Textes) (tools : String → Tools)
    (approved : List String) : Nat → Parcours → Parcours × Option String
  | 0, p => (p, none)
  | n + 1, p =>
      match readyNodes w p.done p.results p.remaining with
      | [] => (p, none)
      | node :: ready =>
          match tour t tools approved (node :: ready) p with
          | (p', some message) => (p', some message)
          | (p', none) => boucle w t tools approved n p'

structure WorkflowRunRecord where
  workflowId : String
  projectId : Option String
  status : RunStatus
  nodeResults : Dict String NodeResult
  pendingNodes : List String
  approvedNodes : List String

abbrev Magasin := Dict String WorkflowRunRecord

def NodeResult.relu (nodeId : String) (r : NodeResult) : Option NodeResult :=
  r.result.relu.map fun v => { r with nodeId := nodeId, result := v }

def relireResultats (results : Dict String NodeResult) : Option (Dict String NodeResult) :=
  results.mapM fun item => (item.2.relu item.1).map fun r => (item.1, r)

def saveRun (magasin : Magasin) (run : WorkflowRun) (approved : List String) : Option Magasin :=
  (relireResultats run.nodeResults).map fun nodeResults =>
    magasin.set run.id
      { workflowId := run.workflowId
        projectId := run.projectId
        status := run.status
        nodeResults := nodeResults
        pendingNodes := run.pendingNodes
        approvedNodes := approved }

def faits (results : Dict String NodeResult) : List String :=
  (results.filter fun item => terminal item.2.status).map Prod.fst

def executer (w : WorkflowDefinition) (t : Textes) (tools : String → Tools)
    (approved : List String) (results : Dict String NodeResult) : Parcours × Option String :=
  boucle w t tools approved w.nodes.length
    { results := results
      done := faits results
      pendingNodes := []
      remaining := w.nodes.filter fun node => node.id ∉ faits results
      invocations := [] }

def sauter (p : Parcours) : Dict String NodeResult :=
  p.results.update (p.remaining.map fun node =>
    (node.id, { nodeId := node.id, status := .skipped }))

structure Appel where
  tools : String → Tools
  approvedNodes : List String

/-- The end of a call, from the results and the approvals it knows. -/
def poursuivre (w : WorkflowDefinition) (t : Textes) (magasin : Magasin) (executionId : String)
    (tools : String → Tools) (results : Dict String NodeResult) (approved : List String) :
    Magasin × List Invocation × Option WorkflowRun :=
  match executer w t tools approved results with
  | (p, some _) => (magasin, p.invocations, none)
  | (p, none) =>
      let results := sauter p
      let run : WorkflowRun :=
        { id := executionId
          workflowId := w.id
          status := overallStatus results p.pendingNodes
          nodeResults := results
          pendingNodes := p.pendingNodes
          projectId := w.projectId }
      match saveRun magasin run approved with
      | none => (magasin, p.invocations, none)
      | some magasin => (magasin, p.invocations, some run)

/-- The store after the call, the tools that were called, and the run unless an exception is
raised. -/
def run (w : WorkflowDefinition) (t : Textes) (magasin : Magasin) (nouveau : String)
    (runId : Option String) (a : Appel) : Magasin × List Invocation × Option WorkflowRun :=
  match runId with
  | none => poursuivre w t magasin nouveau a.tools [] a.approvedNodes
  | some runId =>
      match magasin.get? runId with
      | none => (magasin, [], none)
      | some record =>
          poursuivre w t magasin runId a.tools record.nodeResults
            (record.approvedNodes ++ a.approvedNodes)

structure Etat where
  magasin : Magasin
  invocations : List Invocation := []
  commence : Bool := false

def pas (w : WorkflowDefinition) (t : Textes) (runId : String) (e : Etat) (a : Appel) : Etat :=
  let (magasin, calls, _) := run w t e.magasin runId (if e.commence then some runId else none) a
  { magasin := magasin, invocations := e.invocations ++ calls, commence := true }

def derouler (w : WorkflowDefinition) (t : Textes) (runId : String) (magasin : Magasin)
    (appels : List Appel) : Etat :=
  appels.foldl (pas w t runId) { magasin := magasin }

def Etat.enregistre (e : Etat) (runId nodeId : String) : Option NodeResult :=
  (e.magasin.get? runId).bind fun record => record.nodeResults.get? nodeId

end Hermes.Workflows
