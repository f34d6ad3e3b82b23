import Hermes.Mission.DependencyResolver
import Hermes.Mission.RetryPolicy

/-! # The executor of a mission graph

`execute_step` marks the ready nodes RUNNING, collects one result for each, marks each node with
its result and closes the mission when every node is accounted for.
-/

namespace Hermes

/-- How the injected `execute_node` ends. -/
inductive Execution where
  | rend (succes : Bool)
  | leve
  | muet
  deriving DecidableEq

/-- What asking the injected `capacite_max` gives. -/
inductive Capacite where
  | nonCablee
  | leve
  | inconnue
  | places (n : Int)
  deriving DecidableEq

/-- The environment of one call of `execute_step`. -/
structure Passe where
  place : String → Bool
  executeNode : String → Execution
  capacite : Capacite
  maintenant : Instant
  verification : Bool → Option MissionVerification

namespace Passe

/-- The node ran and `execute_node` returned true. -/
def reussit (p : Passe) (nodeId : String) : Bool :=
  p.place nodeId && decide (p.executeNode nodeId = .rend true)

end Passe

namespace GraphExecutor

open DependencyResolver

/-- The graph of the mission, each node stamped with the mission it belongs to. -/
def construire (m : Mission) (nodes : List MissionNode) (edges : List MissionEdge) : Mission :=
  MissionGraph.buildGraph m (nodes.map fun n => { n with missionId := m.missionId }) edges

def buildGraph (m : Mission) (nodes : List MissionNode) (edges : List MissionEdge) :
    Mission × List String :=
  let (validated, issues) := MissionGraph.validateGraph (construire m nodes edges)
  if issues.isEmpty then ({ validated with status := .ready }, issues) else (validated, issues)

/-- `start_mission`: only a READY or VALIDATED mission starts. -/
def startMission (m : Mission) (now : Instant) : Mission × Bool :=
  if m.status = .ready ∨ m.status = .validated then
    ({ m with status := .running, startedAt := some now }, true)
  else (m, false)

/-- `cancel_mission`: everything but a COMPLETED mission is cancelled. -/
def cancelMission (m : Mission) (now : Instant) : Mission × Bool :=
  if m.status = .completed then (m, false)
  else ({ m with status := .cancelled, completedAt := some now }, true)

def limiteDeConcurrence (repli : Int) : Capacite → Int
  | .nonCablee => max 1 repli
  | .leve => max 1 repli
  | .inconnue => max 1 repli
  | .places n => max 1 n

/-- A node under the gate: no place is a failure, an exception is a failure, and a
call that does not come back gives nothing. -/
def executerSousPortillon (p : Passe) (nodeId : String) : Option Bool :=
  if p.place nodeId then
    match p.executeNode nodeId with
    | .rend succes => some succes
    | .leve => some false
    | .muet => none
  else some false

/-- The sequential path: the loop waits for every node. -/
def executerEnSequence (p : Passe) : List String → Option (Lib.Dict String Bool)
  | [] => some []
  | nodeId :: ids =>
      match executerSousPortillon p nodeId with
      | none => none
      | some succes =>
          match executerEnSequence p ids with
          | none => none
          | some results => some ((nodeId, succes) :: results)

def recolterEnParallele (p : Passe) (ids : List String) : Lib.Dict String Bool :=
  ids.filterMap fun nodeId => (executerSousPortillon p nodeId).map fun succes => (nodeId, succes)

def maxWorkers (limite : Int) (ids : List String) : Int :=
  if ids.isEmpty then 0 else min (ids.length : Int) limite

/-- The results of the ready nodes, `none` when the sequential path never ends. -/
def recolter (repli : Int) (p : Passe) (ids : List String) : Option (Lib.Dict String Bool) :=
  if maxWorkers (limiteDeConcurrence repli p.capacite) ids ≤ 1 then executerEnSequence p ids
  else some (recolterEnParallele p ids)

/-- `for node in ready: node.status = RUNNING`. -/
def marquerEnCours (m : Mission) : Mission :=
  { m with nodes := m.nodes.map fun n => if estPret m n then { n with status := .running } else n }

def marquerUn (results : Lib.Dict String Bool) (now : Instant) (m : Mission) (nodeId : String) :
    Mission :=
  if results.getD nodeId false then (markCompleted m nodeId now).1 else (markFailed m nodeId).1

def marquer (results : Lib.Dict String Bool) (now : Instant) (m : Mission) (ids : List String) :
    Mission :=
  ids.foldl (marquerUn results now) m

/-- `_suggest_retry`: leaves the brief of a second attempt on the mission. -/
def suggestRetry (m : Mission) (verification : Option MissionVerification) : Mission :=
  let attempts := m.metadata.attempts.getD 1
  let objective := Lib.Texte.ou (Lib.Texte.ou m.objective m.description) m.title
  let decision := RetryPolicy.decide verification objective attempts
  if decision.shouldRetry then
    { m with metadata := { m.metadata with retryBrief := decision.brief } }
  else m

/-- Every node is counted as completed, failed or skipped. -/
def toutCompte (m : Mission) : Bool :=
  let progress := getProgress m
  progress.total ≤ progress.completed + progress.failed + progress.skipped

def allSuccess (m : Mission) : Bool := (getProgress m).failed == 0

def fermer (p : Passe) (success : Bool) (m : Mission) : Mission :=
  { m with
    status := if success then .completed else .failed
    completedAt := some p.maintenant
    metadata :=
      { m.metadata with verification := (p.verification success).or m.metadata.verification } }

/-- The completion block, entered under the lock when every node is counted; the
success was read before the lock was taken. -/
def cloturer (p : Passe) (success : Bool) (m : Mission) : Mission :=
  if m.status ≠ .failed ∧ m.status ≠ .completed then
    suggestRetry (fermer p success m) (p.verification success)
  else m

/-- What one call of `execute_step` does: the mission after it, the number it
returns and the nodes handed to `execute_node`, in order. -/
structure Etape where
  mission : Mission
  count : Nat
  dispatched : List String
  deriving DecidableEq

/-- The mission once every ready node carries its result, `none` when a node never
comes back on the sequential path. -/
def etapeMarquee (repli : Int) (p : Passe) (m : Mission) : Option Mission :=
  let ids := (getReadyNodes m).map MissionNode.nodeId
  match recolter repli p ids with
  | none => none
  | some results => some (marquer results p.maintenant (marquerEnCours m) ids)

def executeStep (repli : Int) (p : Passe) (m : Mission) : Option Etape :=
  let ids := (getReadyNodes m).map MissionNode.nodeId
  match etapeMarquee repli p m with
  | none => none
  | some marked =>
      some
        { mission :=
            if 0 < ids.length ∧ toutCompte marked then cloturer p (allSuccess marked) marked
            else marked
          count := ids.length
          dispatched := ids.filter p.place }

theorem executerSousPortillon_eq_some {p : Passe} {nodeId : String} {succes : Bool}
    (h : executerSousPortillon p nodeId = some succes) : succes = p.reussit nodeId := by
  unfold executerSousPortillon at h
  unfold Passe.reussit
  cases hplace : p.place nodeId with
  | false => simpa [hplace] using h.symm
  | true =>
      cases hexec : p.executeNode nodeId with
      | rend b => cases b <;> simpa [hplace, hexec] using h.symm
      | leve => simpa [hplace, hexec] using h.symm
      | muet => simp [hplace, hexec] at h

theorem executerSousPortillon_eq_none {p : Passe} {nodeId : String}
    (h : executerSousPortillon p nodeId = none) : p.reussit nodeId = false := by
  unfold executerSousPortillon at h
  unfold Passe.reussit
  cases hplace : p.place nodeId <;> cases hexec : p.executeNode nodeId <;> simp_all

private theorem executerEnSequence_getD {p : Passe} {ids : List String}
    {results : Lib.Dict String Bool} (h : executerEnSequence p ids = some results) :
    ∀ nodeId ∈ ids, results.getD nodeId false = p.reussit nodeId := by
  induction ids generalizing results with
  | nil => simp
  | cons head ids ih =>
      simp only [executerEnSequence] at h
      split at h
      · cases h
      · next succes hhead =>
          split at h
          · cases h
          · next rest hrest =>
              cases h
              intro nodeId hmem
              rw [Lib.Dict.getD, Lib.Dict.get?_cons]
              by_cases hid : nodeId = head
              · subst hid
                simp [executerSousPortillon_eq_some hhead]
              · rw [if_neg hid]
                exact ih hrest nodeId ((List.mem_cons.mp hmem).resolve_left hid)

private theorem recolterEnParallele_getD (p : Passe) (ids : List String) :
    ∀ nodeId ∈ ids, (recolterEnParallele p ids).getD nodeId false = p.reussit nodeId := by
  induction ids with
  | nil => simp
  | cons head ids ih =>
      intro nodeId hmem
      by_cases hid : nodeId = head
      · subst hid
        cases hexec : executerSousPortillon p nodeId with
        | some succes =>
            simp [recolterEnParallele, hexec, Lib.Dict.getD, Lib.Dict.get?_cons,
              executerSousPortillon_eq_some hexec]
        | none =>
            rw [executerSousPortillon_eq_none hexec]
            have habsent : (recolterEnParallele p (nodeId :: ids)).get? nodeId = none := by
              apply Lib.Dict.get?_eq_none
              intro hkey
              simp only [Lib.Dict.keys, recolterEnParallele, List.mem_map, List.mem_filterMap,
                Option.map_eq_some_iff] at hkey
              obtain ⟨_, ⟨key, -, succes, hsucces, rfl⟩, rfl⟩ := hkey
              simp [hexec] at hsucces
            rw [Lib.Dict.getD, habsent, Option.getD_none]
      · have hrest := ih nodeId ((List.mem_cons.mp hmem).resolve_left hid)
        cases hexec : executerSousPortillon p head with
        | none => simpa [recolterEnParallele, hexec] using hrest
        | some succes =>
            simpa [recolterEnParallele, hexec, Lib.Dict.getD, Lib.Dict.get?_cons, hid] using hrest

theorem recolter_getD {repli : Int} {p : Passe} {ids : List String}
    {results : Lib.Dict String Bool} (h : recolter repli p ids = some results) :
    ∀ nodeId ∈ ids, results.getD nodeId false = p.reussit nodeId := by
  unfold recolter at h
  split at h
  · exact executerEnSequence_getD h
  · cases h
    exact recolterEnParallele_getD p ids

def chaineNoeuds : List MissionNode := [MissionNode.neuf "a" "A", MissionNode.neuf "b" "B"]

/-- `a` before `b`. -/
def chaineAretes : List MissionEdge := [{ sourceId := "a", targetId := "b" }]

def chaine : Mission := (buildGraph (Mission.neuve "m1" "chaîne") chaineNoeuds chaineAretes).1

def chaineDemarree : Mission := (startMission chaine 0).1

end GraphExecutor

end Hermes
