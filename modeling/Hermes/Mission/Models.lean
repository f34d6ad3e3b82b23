import Hermes.Mission.Verification

/-! # Missions, nodes and edges

The records the mission engine works on.
-/

namespace Hermes

inductive MissionStatus where
  | created
  | validated
  | ready
  | running
  | paused
  | completed
  | failed
  | cancelled
  deriving DecidableEq

inductive NodeStatus where
  | pending
  | ready
  | running
  | completed
  | failed
  | blocked
  | skipped
  deriving DecidableEq

def MissionStatus.value : MissionStatus → String
  | .created => "created"
  | .validated => "validated"
  | .ready => "ready"
  | .running => "running"
  | .paused => "paused"
  | .completed => "completed"
  | .failed => "failed"
  | .cancelled => "cancelled"

abbrev Instant := Int

structure MissionEdge where
  sourceId : String
  targetId : String
  deriving DecidableEq

structure MissionNode where
  nodeId : String
  missionId : String
  title : String
  status : NodeStatus
  dependsOn : List String
  completedAt : Option Instant
  resultSummary : String
  deriving DecidableEq

structure MissionContext where
  repository : String
  localPath : String
  deriving DecidableEq

/-- The keys of `mission.metadata` that the engine reads or writes. -/
structure MissionMetadata where
  attempts : Option Int
  retryBrief : Option String
  originalObjective : Option String
  verification : Option MissionVerification
  deriving DecidableEq

structure Mission where
  missionId : String
  title : String
  description : String
  objective : String
  status : MissionStatus
  context : MissionContext
  nodes : List MissionNode
  edges : List MissionEdge
  metadata : MissionMetadata
  startedAt : Option Instant
  completedAt : Option Instant
  deriving DecidableEq

namespace MissionMetadata

def vide : MissionMetadata where
  attempts := none
  retryBrief := none
  originalObjective := none
  verification := none

end MissionMetadata

namespace MissionNode

/-- A fresh node, as the constructor of the source leaves it. -/
def neuf (nodeId title : String) : MissionNode where
  nodeId := nodeId
  missionId := ""
  title := title
  status := .pending
  dependsOn := []
  completedAt := none
  resultSummary := ""

end MissionNode

namespace Mission

def neuve (missionId title : String) : Mission where
  missionId := missionId
  title := title
  description := ""
  objective := ""
  status := .created
  context := { repository := "", localPath := "" }
  nodes := []
  edges := []
  metadata := .vide
  startedAt := none
  completedAt := none

def nodeIds (m : Mission) : List String := m.nodes.map MissionNode.nodeId

def findNode (m : Mission) (nodeId : String) : Option MissionNode :=
  m.nodes.find? fun n => n.nodeId = nodeId

/-- Writes through the object a lookup answers: the first node with the identifier. -/
def modifyNode (m : Mission) (nodeId : String) (f : MissionNode → MissionNode) : Mission :=
  let i := m.nodes.findIdx fun n => n.nodeId = nodeId
  { m with nodes := m.nodes.modify i f }

/-- The mission's edges as pairs of identifiers. -/
def arcs (m : Mission) : List (String × String) :=
  m.edges.map fun e => (e.sourceId, e.targetId)

end Mission

end Hermes
