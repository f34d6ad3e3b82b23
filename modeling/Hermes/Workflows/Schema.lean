import Hermes.Lib.Valeur
import Mathlib.Data.List.Dedup
import Mathlib.Data.List.Nodup

/-! # Workflow definitions

A graph of actions.
-/

namespace Hermes.Workflows

open Lib

inductive Condition where
  | always
  | onSuccess
  | onFailure
  deriving DecidableEq

structure WorkflowNode where
  id : String
  action : String
  params : Dict String Valeur
  humanValidation : Bool

structure WorkflowEdge where
  fromNode : String
  toNode : String
  condition : Condition := .always
  deriving DecidableEq

inductive InvalidWorkflow where
  | noNodes
  | duplicateIds
  | unknownNode (id : String)
  | cycle (id : String)
  deriving DecidableEq

inductive Color where
  | white
  | gray
  | black
  deriving DecidableEq

def visit (edges : List WorkflowEdge) :
    Nat → String → Dict String Color → Except InvalidWorkflow (Dict String Color)
  | 0, _, color => .ok color
  | depth + 1, nodeId, color => do
      let outgoing := edges.filter fun e => e.fromNode = nodeId
      let color ← outgoing.foldlM (fun color e =>
        match color.getD e.toNode .white with
        | .gray => .error (.cycle e.toNode)
        | .white => visit edges depth e.toNode color
        | .black => .ok color) (color.set nodeId .gray)
      return color.set nodeId .black

def checkAcyclic (nodes : List WorkflowNode) (edges : List WorkflowEdge) :
    Except InvalidWorkflow Unit := do
  let color : Dict String Color := nodes.map fun n => (n.id, .white)
  let _ ← nodes.foldlM (fun color n =>
    match color.getD n.id .white with
    | .white => visit edges nodes.length n.id color
    | _ => .ok color) color
  return ()

def checkEdges (ids : List String) : List WorkflowEdge → Except InvalidWorkflow Unit
  | [] => .ok ()
  | e :: edges =>
      if e.fromNode ∉ ids then .error (.unknownNode e.fromNode)
      else if e.toNode ∉ ids then .error (.unknownNode e.toNode)
      else checkEdges ids edges

def validate (nodes : List WorkflowNode) (edges : List WorkflowEdge) :
    Except InvalidWorkflow Unit :=
  let ids := nodes.map WorkflowNode.id
  if nodes.length = 0 then .error .noNodes
  else if ids.dedup.length ≠ nodes.length then .error .duplicateIds
  else do
    checkEdges ids edges
    checkAcyclic nodes edges

structure WorkflowDefinition where
  id : String
  nodes : List WorkflowNode
  edges : List WorkflowEdge
  projectId : Option String := none
  valide : validate nodes edges = .ok ()

namespace WorkflowDefinition

def incomingEdges (w : WorkflowDefinition) (nodeId : String) : List WorkflowEdge :=
  w.edges.filter fun e => e.toNode = nodeId

theorem nodup_ids (w : WorkflowDefinition) : (w.nodes.map WorkflowNode.id).Nodup := by
  have hvalide := w.valide
  unfold validate at hvalide
  dsimp only at hvalide
  split_ifs at hvalide with hvide hdoublon
  have hsame : (w.nodes.map WorkflowNode.id).dedup = w.nodes.map WorkflowNode.id := by
    apply (List.dedup_sublist _).eq_of_length
    rw [not_not.mp hdoublon, List.length_map]
  rw [← hsame]
  exact List.nodup_dedup _

theorem node_inj (w : WorkflowDefinition) {n m : WorkflowNode} (hn : n ∈ w.nodes)
    (hm : m ∈ w.nodes) (h : n.id = m.id) : n = m :=
  List.inj_on_of_nodup_map w.nodup_ids hn hm h

end WorkflowDefinition

end Hermes.Workflows
