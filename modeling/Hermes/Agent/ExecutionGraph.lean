import Hermes.Lib.Kahn
import Hermes.Lib.Flottant

/-! # The execution graph of agent tasks

Nodes are added under distinct ids and edges between known nodes, each edge only when the graph
stays acyclic with it.
-/

namespace Hermes.Agent

open Lib
open Lib.Kahn (Acyclique internes visiter restants)
open Lib.Flottant (Binaire)

inductive NodeType where
  | task
  | decision
  | parallel
  | subgraph
  | observer
  deriving DecidableEq

inductive NodeStatus where
  | pending
  | ready
  | running
  | completed
  | failed
  | skipped
  deriving DecidableEq

structure NodeMetadata where
  description : String
  estimatedComplexity : Binaire
  originalDeps : List String
  deriving DecidableEq

structure AgentNode where
  id : String
  name : String
  type : NodeType := .task
  status : NodeStatus := .pending
  runtimeCapability : String := "chat"
  metadata : NodeMetadata
  deriving DecidableEq

structure AgentEdge where
  source : String
  target : String
  deriving DecidableEq

/-- The messages of the validator, by what they name. -/
inductive ErreurDeGraphe where
  | sourceInconnue (source : String)
  | cibleInconnue (target : String)
  | cycle (noeuds : List String)
  | orphelins (noeuds : List String)
  deriving DecidableEq

inductive GraphException where
  | executionGraph (erreurs : List ErreurDeGraphe)
  | noeudExistant (id : String)
  | noeudInconnu (id : String)
  | arcInconnu (source target : String)
  | cycle (erreurs : List ErreurDeGraphe)
  | validation (erreurs : List ErreurDeGraphe)
  deriving DecidableEq

def arcs (edges : List AgentEdge) : List (String × String) := edges.map fun e => (e.source, e.target)

namespace ExecutionGraphValidator

variable (nodes : Dict String AgentNode) (edges : List AgentEdge)

def detectCycles : List ErreurDeGraphe :=
  if (visiter nodes.keys (arcs edges)).length ≠ nodes.length then
    [.cycle (restants nodes.keys (arcs edges))]
  else []

def checkInvalidReferences : List ErreurDeGraphe :=
  edges.flatMap fun e =>
    (if e.source ∈ nodes.keys then [] else [.sourceInconnue e.source]) ++
      if e.target ∈ nodes.keys then [] else [.cibleInconnue e.target]

def isole (id : String) : Bool := edges.all fun e => e.source ≠ id ∧ e.target ≠ id

def checkOrphanNodes : List ErreurDeGraphe :=
  if nodes.length ≤ 1 ∨ edges = [] then []
  else
    let orphans := nodes.keys.filter (isole edges)
    if orphans = [] then [] else [.orphelins orphans]

def validate : List ErreurDeGraphe :=
  checkInvalidReferences nodes edges ++ detectCycles nodes edges ++ checkOrphanNodes nodes edges

variable {nodes edges}

theorem checkInvalidReferences_eq_nil_iff :
    checkInvalidReferences nodes edges = [] ↔
      ∀ e ∈ arcs edges, e.1 ∈ nodes.keys ∧ e.2 ∈ nodes.keys := by
  have hedge : ∀ e : AgentEdge,
      ((if e.source ∈ nodes.keys then [] else [ErreurDeGraphe.sourceInconnue e.source]) ++
        if e.target ∈ nodes.keys then [] else [.cibleInconnue e.target]) = [] ↔
        e.source ∈ nodes.keys ∧ e.target ∈ nodes.keys := by
    intro e
    by_cases hs : e.source ∈ nodes.keys
    · by_cases ht : e.target ∈ nodes.keys
      · simp [hs, ht]
      · simp [hs, ht]
    · simp [hs]
  simp only [checkInvalidReferences, List.flatMap_eq_nil_iff, hedge, arcs, List.mem_map,
    forall_exists_index, and_imp, forall_apply_eq_imp_iff₂]

theorem detectCycles_eq_nil_iff (hcles : nodes.keys.Nodup) :
    detectCycles nodes edges = [] ↔ Acyclique (internes nodes.keys (arcs edges)) := by
  have hlength : nodes.keys.length = nodes.length := by simp [Dict.keys]
  rw [← Kahn.length_visiter_iff hcles, hlength, detectCycles]
  split
  · next h => simp [h]
  · next h => simpa using h

theorem checkOrphanNodes_eq_nil_iff :
    checkOrphanNodes nodes edges = [] ↔
      nodes.length ≤ 1 ∨ edges = [] ∨ ∀ id ∈ nodes.keys, isole edges id = false := by
  unfold checkOrphanNodes
  split
  · next h =>
      simp only [true_iff]
      tauto
  · next h =>
      rw [not_or] at h
      simp only [h.1, h.2, false_or]
      split
      · next hnil =>
          rw [List.filter_eq_nil_iff] at hnil
          simpa using hnil
      · next hne =>
          rw [List.filter_eq_nil_iff] at hne
          simpa using hne

end ExecutionGraphValidator

structure ExecutionGraph where
  nodes : Dict String AgentNode := []
  edges : List AgentEdge := []
  cles : nodes.keys.Nodup := by exact List.nodup_nil

structure PlanStats where
  nodeCount : Nat
  edgeCount : Nat
  levelCount : Nat
  rootCount : Nat
  leafCount : Nat
  deriving DecidableEq

structure GraphExecutionPlan where
  executionOrder : List String
  levels : List (List String)
  dependencies : Dict String (List String)
  stats : PlanStats
  deriving DecidableEq

namespace ExecutionGraph

open ExecutionGraphValidator

variable (g : ExecutionGraph)

def addNode (node : AgentNode) : Except GraphException ExecutionGraph :=
  if node.id ∈ g.nodes.keys then .error (.noeudExistant node.id)
  else
    .ok { g with
      nodes := g.nodes.set node.id node
      cles := Dict.nodup_keys_set g.cles node.id node }

def addEdge (edge : AgentEdge) : Except GraphException ExecutionGraph :=
  let testEdges := g.edges ++ [edge]
  if checkInvalidReferences g.nodes testEdges ≠ [] then
    .error (.executionGraph (checkInvalidReferences g.nodes testEdges))
  else if detectCycles g.nodes testEdges ≠ [] then
    .error (.cycle (detectCycles g.nodes testEdges))
  else .ok { g with edges := testEdges }

def removeNode (nodeId : String) : Except GraphException ExecutionGraph :=
  if nodeId ∉ g.nodes.keys then .error (.noeudInconnu nodeId)
  else
    .ok
      { nodes := g.nodes.erase nodeId
        edges := g.edges.filter fun e => e.source ≠ nodeId ∧ e.target ≠ nodeId
        cles := Dict.nodup_keys_erase g.cles nodeId }

def removeEdge (source target : String) : Except GraphException ExecutionGraph :=
  if g.edges.any fun e => e.source = source ∧ e.target = target then
    .ok { g with edges := g.edges.eraseP fun e => e.source = source ∧ e.target = target }
  else .error (.arcInconnu source target)

def getRoots : List AgentNode :=
  (g.nodes.map Prod.snd).filter fun n => n.id ∉ g.edges.map AgentEdge.target

def getLeaves : List AgentNode :=
  (g.nodes.map Prod.snd).filter fun n => n.id ∉ g.edges.map AgentEdge.source

def topologicalSort : Except GraphException (List String) :=
  let sortedIds := visiter g.nodes.keys (arcs g.edges)
  if sortedIds.length ≠ g.nodes.length then .error (.cycle []) else .ok sortedIds

/-- The successors of a node of the given level, each put at least one level below it. -/
def descendre (level : Nat) (levelOf : Dict String Nat) (suivants : List String) :
    Dict String Nat :=
  suivants.foldl (fun d v => d.set v (max (d.getD v 0) (level + 1))) levelOf

/-- The loop over the levels, with as many turns as there are nodes. -/
def niveaux (adjacent : String → List String) :
    Nat → Dict String Int → List String → Dict String Nat → Dict String Nat
  | 0, _, _, levelOf => levelOf
  | _ + 1, _, [], levelOf => levelOf
  | fuel + 1, degrees, current :: queue, levelOf =>
      let next := Kahn.relax degrees queue (adjacent current)
      niveaux adjacent fuel next.1 next.2
        (descendre (levelOf.getD current 0) levelOf (adjacent current))

def levelOf : Dict String Nat :=
  let internes := internes g.nodes.keys (arcs g.edges)
  let degrees := Kahn.inDegree g.nodes.keys internes
  let roots := Kahn.sources degrees
  niveaux (fun u => (Kahn.adjacency g.nodes.keys internes).getD u []) g.nodes.length degrees roots
    (roots.map fun id => (id, 0))

def levels : List (List String) :=
  let maxLevel := (g.levelOf.map Prod.snd).foldl max 0
  ((List.range (maxLevel + 1)).map fun lvl =>
    (g.levelOf.filter fun item => item.2 = lvl).map Prod.fst).filter (· ≠ [])

def dependenciesDe (id : String) : List String :=
  (g.edges.filter fun e => e.target = id).map AgentEdge.source

def generatePlan : Except GraphException GraphExecutionPlan :=
  if validate g.nodes g.edges ≠ [] then .error (.validation (validate g.nodes g.edges))
  else
    match g.topologicalSort with
    | .error e => .error e
    | .ok sortedIds =>
        .ok
          { executionOrder := sortedIds
            levels := g.levels
            dependencies := g.nodes.keys.map fun id => (id, g.dependenciesDe id)
            stats :=
              { nodeCount := g.nodes.length
                edgeCount := g.edges.length
                levelCount := g.levels.length
                rootCount := g.getRoots.length
                leafCount := g.getLeaves.length } }

variable {g} {node : AgentNode} {edge : AgentEdge}

theorem addNode_ok (h : node.id ∉ g.nodes.keys) :
    ∃ g', g.addNode node = .ok g' ∧ g'.nodes = g.nodes ++ [(node.id, node)] ∧
      g'.edges = g.edges := by
  refine ⟨_, if_neg h, ?_, rfl⟩
  exact Dict.set_of_notMem h node

theorem addEdge_ok
    (hends : ∀ e ∈ arcs (g.edges ++ [edge]), e.1 ∈ g.nodes.keys ∧ e.2 ∈ g.nodes.keys)
    (hacyclique : Acyclique (arcs (g.edges ++ [edge]))) :
    g.addEdge edge = .ok { g with edges := g.edges ++ [edge] } := by
  have href := checkInvalidReferences_eq_nil_iff.mpr hends
  have hcycle : detectCycles g.nodes (g.edges ++ [edge]) = [] := by
    rw [detectCycles_eq_nil_iff g.cles, Kahn.internes_eq_self hends]
    exact hacyclique
  simp [addEdge, href, hcycle]

theorem topologicalSort_isOk (h : detectCycles g.nodes g.edges = []) :
    ∃ sortedIds, g.topologicalSort = .ok sortedIds := by
  unfold detectCycles at h
  split at h
  · cases h
  · next hlength => exact ⟨_, if_neg hlength⟩

theorem generatePlan_isOk_iff :
    (∃ plan, g.generatePlan = .ok plan) ↔ validate g.nodes g.edges = [] := by
  constructor
  · intro h
    by_contra hne
    cases h with
    | intro plan hplan =>
        rw [generatePlan, if_pos hne] at hplan
        cases hplan
  · intro h
    have hcycle : detectCycles g.nodes g.edges = [] := by
      rw [validate, List.append_eq_nil_iff, List.append_eq_nil_iff] at h
      exact h.1.2
    cases topologicalSort_isOk hcycle with
    | intro sortedIds hsort => simp [generatePlan, h, hsort]

theorem generatePlan_of_ne (h : validate g.nodes g.edges ≠ []) :
    g.generatePlan = .error (.validation (validate g.nodes g.edges)) := if_pos h

end ExecutionGraph

end Hermes.Agent
