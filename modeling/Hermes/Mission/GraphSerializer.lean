import Hermes.Lib.Document
import Hermes.Lib.JsonIndente
import Hermes.Mission.Persistance

/-! # Missions as exported documents

The serializer writes a mission as a JSON document and builds a mission back from one.
-/

namespace Hermes.Persistance

open Lib

/-- `setattr(o, nom, v)`. -/
def Objet.affecter (o : Objet) (nom : String) (v : Objet) : Objet :=
  match o with
  | .instance classe champs => .instance classe (Dict.set champs nom v)
  | o => o

namespace GraphSerializer

open Objet

def SCHEMA_VERSION : String := "1.0.0"

def dateJson (h : Horodatage) : Json := .texte (String.ofList h.isoformat)

def contextToDict (c : MissionContext) : Json :=
  .objet [("project_id", .texte c.projectId), ("user_id", .texte c.userId),
    ("repository", .texte c.repository), ("branch", .texte c.branch),
    ("tags", Document.textes c.tags), ("metadata", .objet c.metadata.items)]

def nodeToDict (n : MissionNode) : Json :=
  .objet [("node_id", .texte n.nodeId), ("title", .texte n.title),
    ("description", .texte n.description), ("type", .texte n.type),
    ("priority", .texte n.priority.value), ("status", .texte (nodeStatusValue n.status)),
    ("preferred_agent", .texte n.preferredAgent),
    ("preferred_runtime", .texte n.preferredRuntime),
    ("benchmark_profile", .texte n.benchmarkProfile),
    ("required_skills", Document.textes n.requiredSkills),
    ("estimated_resources", .objet n.estimatedResources.items),
    ("estimated_duration_ms", n.estimatedDurationMs.json),
    ("depends_on", Document.textes n.dependsOn),
    ("validation_criteria", Document.textes n.validationCriteria),
    ("expected_outputs", Document.textes n.expectedOutputs)]

def edgeToDict (e : MissionEdge) : Json :=
  .objet [("edge_id", .texte e.edgeId), ("source_id", .texte e.sourceId),
    ("target_id", .texte e.targetId)]

def missionToDict (m : Mission) : Json :=
  .objet [("schema_version", .texte SCHEMA_VERSION), ("mission_id", .texte m.missionId),
    ("title", .texte m.title), ("description", .texte m.description),
    ("objective", .texte m.objective), ("type", .texte m.type.value),
    ("priority", .texte m.priority.value), ("status", .texte m.status.value),
    ("context", contextToDict m.context), ("nodes", .tableau (m.nodes.map nodeToDict)),
    ("edges", .tableau (m.edges.map edgeToDict)), ("metadata", .objet m.metadata.items),
    ("created_at", dateJson m.createdAt),
    ("updated_at", match m.updatedAt with
      | some h => dateJson h
      | none => .null)]

def toJson (indent : Nat) (m : Mission) : String := Json.dumpsIndente indent (missionToDict m)

/-- What has a `get`. `none` stands for `AttributeError`. -/
def dictionnaire : Json → Option (List (String × Json))
  | .objet items => some items
  | _ => none

/-- `for v in valeur`. `none` stands for `TypeError`. -/
def iterer : Json → Option (List Json)
  | .texte s => some (s.toList.map fun c => .texte (String.singleton c))
  | .tableau valeurs => some valeurs
  | .objet items => some (items.map fun item => .texte item.1)
  | _ => none

/-- `enumeration(valeur)`. `none` stands for `ValueError`. -/
def membreDe (e : Enumeration) : Json → Option Objet
  | .texte s => if s ∈ e.valeurs then some (.membre e s) else none
  | _ => none

/-- An argument that is `data.get(nom, defaut)`. -/
def argument (data : List (String × Json)) (nom : String) (defaut : Json) : String × Objet :=
  (nom, donnee (Dict.getD data nom defaut))

section

variable (u : Usine)

def dictToContext (ctx : Json) : Option Objet := do
  let ctx ← dictionnaire ctx
  return construire u .context
    [argument ctx "project_id" (.texte ""), argument ctx "user_id" (.texte ""),
      argument ctx "repository" (.texte ""), argument ctx "branch" (.texte ""),
      argument ctx "tags" (.tableau []), argument ctx "metadata" (.objet [])]

def dictToNode (n : Json) : Option Objet := do
  let n ← dictionnaire n
  let priority ← membreDe .missionPriority (Dict.getD n "priority" (.texte "normal"))
  let status ← membreDe .nodeStatus (Dict.getD n "status" (.texte "pending"))
  return construire u .node
    [argument n "node_id" (.texte ""), argument n "title" (.texte ""),
      argument n "description" (.texte ""), argument n "type" (.texte "task"),
      ("priority", priority), ("status", status), argument n "preferred_agent" (.texte ""),
      argument n "preferred_runtime" (.texte ""), argument n "benchmark_profile" (.texte ""),
      argument n "required_skills" (.tableau []), argument n "estimated_resources" (.objet []),
      argument n "estimated_duration_ms" (.flottant "0.0"), argument n "depends_on" (.tableau []),
      argument n "validation_criteria" (.tableau []), argument n "expected_outputs" (.tableau [])]

def dictToEdge (e : Json) : Option Objet := do
  let e ← dictionnaire e
  return construire u .edge
    [argument e "edge_id" (.texte ""), argument e "source_id" (.texte ""),
      argument e "target_id" (.texte "")]

def dictToMission (data : Json) : Option Objet := do
  let data ← dictionnaire data
  let type ← membreDe .missionType (Dict.getD data "type" (.texte "custom"))
  let priority ← membreDe .missionPriority (Dict.getD data "priority" (.texte "normal"))
  let status ← membreDe .missionStatus (Dict.getD data "status" (.texte "created"))
  let mission := construire u .mission
    [argument data "mission_id" (.texte ""), argument data "title" (.texte ""),
      argument data "description" (.texte ""), argument data "objective" (.texte ""),
      ("type", type), ("priority", priority), ("status", status),
      argument data "metadata" (.objet [])]
  let context ← dictToContext u (Dict.getD data "context" (.objet []))
  let nodes ← iterer (Dict.getD data "nodes" (.tableau []))
  let nodes ← nodes.mapM (dictToNode u)
  let edges ← iterer (Dict.getD data "edges" (.tableau []))
  let edges ← edges.mapM (dictToEdge u)
  return ((mission.affecter "context" context).affecter "nodes" (.liste nodes)).affecter
    "edges" (.liste edges)

def fromJson (jsonStr : String) : Option Objet :=
  (Json.lire jsonStr.toList).bind (dictToMission u)

end

theorem flottantValide_decimal {entiere : List Char} {c : Char} (h : Json.PartieEntiere entiere)
    (hc : c.isDigit = true) :
    Json.FlottantValide (String.ofList (entiere ++ ['.', c])) := by
  refine .inr (.inr (.inr ⟨⟨false, entiere, [c], [], []⟩, ?_, ?_⟩))
  · exact ⟨h, by simpa using hc, .inl rfl, by simp, .inl (by simp)⟩
  · simp [Json.Decimal.texte, Json.Decimal.texteFraction, Json.Decimal.texteExposant]

/-- The duration that a node has before it runs. -/
def dureeNulle : Nombre :=
  .flottant "0.0" (flottantValide_decimal (Json.partieEntiere_toDigits 0) (by decide))

def budgetParDefaut : Nombre :=
  .flottant "3600.0" (flottantValide_decimal (Json.partieEntiere_toDigits 3600) (by decide))

def contexteImporte (c : MissionContext) : MissionContext := { c with localPath := "" }

def noeudImporte (n : MissionNode) : MissionNode :=
  { n with
    missionId := ""
    startedAt := none
    completedAt := none
    actualDurationMs := dureeNulle
    resultSummary := "" }

def areteImportee (e : MissionEdge) : MissionEdge := { e with type := "depends_on" }

/-- What an import at this time makes of an exported mission. -/
def importee (u : Usine) (m : Mission) : Mission :=
  { m with
    context := contexteImporte m.context
    nodes := m.nodes.map noeudImporte
    edges := m.edges.map areteImportee
    maxDurationSeconds := budgetParDefaut
    createdAt := u.maintenant
    updatedAt := none
    startedAt := none
    completedAt := none }

section

variable (u : Usine)

theorem membreDe_priority (p : MissionPriority) :
    membreDe .missionPriority (.texte p.value) = some (.membre .missionPriority p.value) := by
  cases p <;> rfl

theorem membreDe_type (t : MissionType) :
    membreDe .missionType (.texte t.value) = some (.membre .missionType t.value) := by
  cases t <;> rfl

theorem membreDe_status (s : MissionStatus) :
    membreDe .missionStatus (.texte s.value) = some (.membre .missionStatus s.value) := by
  cases s <;> rfl

theorem membreDe_nodeStatus (s : NodeStatus) :
    membreDe .nodeStatus (.texte (nodeStatusValue s))
      = some (.membre .nodeStatus (nodeStatusValue s)) := by
  cases s <;> rfl

theorem dictToContext_contextToDict (c : MissionContext) :
    dictToContext u (contextToDict c) = some (contexteImporte c).objet := by
  simp [dictToContext, contextToDict, dictionnaire, argument, construire, Classe.champs,
    champsContext, Dict.getD_cons, MissionContext.objet, MissionContext.champs,
    contexteImporte, Document.textes]

theorem dictToEdge_edgeToDict (e : MissionEdge) :
    dictToEdge u (edgeToDict e) = some (areteImportee e).objet := by
  simp [dictToEdge, edgeToDict, dictionnaire, argument, construire, Classe.champs, champsEdge,
    Dict.getD_cons, MissionEdge.objet, MissionEdge.champs, areteImportee]

theorem dictToNode_nodeToDict (n : MissionNode) :
    dictToNode u (nodeToDict n) = some (noeudImporte n).objet := by
  simp [dictToNode, nodeToDict, dictionnaire, argument, construire, Classe.champs, champsNode,
    Dict.getD_cons, MissionNode.objet, MissionNode.champs, noeudImporte,
    membreDe_priority, membreDe_nodeStatus, Document.textes, zero, dureeNulle, Nombre.json, dateOuRien]

theorem mapM_dictToNode (nodes : List MissionNode) :
    (nodes.map nodeToDict).mapM (dictToNode u)
      = some ((nodes.map noeudImporte).map MissionNode.objet) := by
  induction nodes with
  | nil => rfl
  | cons n nodes ih => simp [dictToNode_nodeToDict, ih]

theorem mapM_dictToEdge (edges : List MissionEdge) :
    (edges.map edgeToDict).mapM (dictToEdge u)
      = some ((edges.map areteImportee).map MissionEdge.objet) := by
  induction edges with
  | nil => rfl
  | cons e edges ih => simp [dictToEdge_edgeToDict, ih]

theorem dictToMission_missionToDict (m : Mission) :
    dictToMission u (missionToDict m) = some (importee u m).objet := by
  simp [-List.map_map, -List.mapM_map, dictToMission, missionToDict, dictionnaire, argument,
    construire, Classe.champs, champsMission, Dict.getD_cons, membreDe_priority, membreDe_type, membreDe_status,
    dictToContext_contextToDict, iterer, mapM_dictToNode, mapM_dictToEdge, affecter, Dict.set,
    Mission.objet, Mission.champs, importee, budgetParDefaut, Nombre.json, dateOuRien]

theorem valide_nombreJson (n : Nombre) : n.json.Valide := by
  simpa [enBrut] using valide_nombre n

theorem valide_dico_items (d : Dico) : (Json.objet d.items).Valide := d.valide

theorem valide_contextToDict (c : MissionContext) : (contextToDict c).Valide :=
  Document.valide_objet (by simp) (by simp [valide_dico_items])

theorem valide_nodeToDict (n : MissionNode) : (nodeToDict n).Valide :=
  Document.valide_objet (by simp) (by simp [valide_dico_items, valide_nombreJson])

theorem valide_edgeToDict (e : MissionEdge) : (edgeToDict e).Valide :=
  Document.valide_objet (by simp) (by simp)

theorem valide_missionToDict (m : Mission) : (missionToDict m).Valide := by
  have hnodes := Document.valeursValides_map fun n (_ : n ∈ m.nodes) => valide_nodeToDict n
  have hedges := Document.valeursValides_map fun e (_ : e ∈ m.edges) => valide_edgeToDict e
  have hnull : Json.null.Valide := trivial
  refine Document.valide_objet (by simp) ?_
  cases m.updatedAt <;>
    simp [hnodes, hedges, valide_contextToDict, valide_dico_items, dateJson, hnull]

theorem fromJson_export (indent : Nat) (m : Mission) :
    fromJson u (toJson indent m) = some (importee u m).objet := by
  rw [fromJson, toJson, Json.lire_dumpsIndente indent (valide_missionToDict m), Option.bind_some,
    dictToMission_missionToDict]

end

structure ContexteRestitue (c c' : MissionContext) : Prop where
  projectId : c'.projectId = c.projectId
  userId : c'.userId = c.userId
  repository : c'.repository = c.repository
  branch : c'.branch = c.branch
  tags : c'.tags = c.tags
  metadata : c'.metadata = c.metadata

structure NoeudRestitue (n n' : MissionNode) : Prop where
  nodeId : n'.nodeId = n.nodeId
  title : n'.title = n.title
  description : n'.description = n.description
  type : n'.type = n.type
  priority : n'.priority = n.priority
  status : n'.status = n.status
  preferredAgent : n'.preferredAgent = n.preferredAgent
  preferredRuntime : n'.preferredRuntime = n.preferredRuntime
  benchmarkProfile : n'.benchmarkProfile = n.benchmarkProfile
  requiredSkills : n'.requiredSkills = n.requiredSkills
  estimatedResources : n'.estimatedResources = n.estimatedResources
  estimatedDurationMs : n'.estimatedDurationMs = n.estimatedDurationMs
  dependsOn : n'.dependsOn = n.dependsOn
  validationCriteria : n'.validationCriteria = n.validationCriteria
  expectedOutputs : n'.expectedOutputs = n.expectedOutputs

structure AreteRestituee (e e' : MissionEdge) : Prop where
  edgeId : e'.edgeId = e.edgeId
  sourceId : e'.sourceId = e.sourceId
  targetId : e'.targetId = e.targetId

/-- `m'` has what an export of `m` writes. -/
structure Restituee (m m' : Mission) : Prop where
  missionId : m'.missionId = m.missionId
  title : m'.title = m.title
  description : m'.description = m.description
  objective : m'.objective = m.objective
  type : m'.type = m.type
  priority : m'.priority = m.priority
  status : m'.status = m.status
  context : ContexteRestitue m.context m'.context
  nodes : List.Forall₂ NoeudRestitue m.nodes m'.nodes
  edges : List.Forall₂ AreteRestituee m.edges m'.edges
  metadata : m'.metadata = m.metadata
  createdAt : m'.createdAt = m.createdAt
  updatedAt : m'.updatedAt = m.updatedAt

theorem restituee_importee_iff {u : Usine} {m : Mission} :
    Restituee m (importee u m) ↔ m.createdAt = u.maintenant ∧ m.updatedAt = none := by
  constructor
  · intro h
    exact ⟨h.createdAt.symm, h.updatedAt.symm⟩
  · rintro ⟨hcreated, hupdated⟩
    have hnodes : List.Forall₂ NoeudRestitue m.nodes (m.nodes.map noeudImporte) := by
      refine List.forall₂_map_right_iff.mpr (List.forall₂_same.mpr fun n _ => ?_)
      exact ⟨rfl, rfl, rfl, rfl, rfl, rfl, rfl, rfl, rfl, rfl, rfl, rfl, rfl, rfl, rfl⟩
    have hedges : List.Forall₂ AreteRestituee m.edges (m.edges.map areteImportee) :=
      List.forall₂_map_right_iff.mpr (List.forall₂_same.mpr fun e _ => ⟨rfl, rfl, rfl⟩)
    exact ⟨rfl, rfl, rfl, rfl, rfl, rfl, rfl, ⟨rfl, rfl, rfl, rfl, rfl, rfl⟩, hnodes, hedges, rfl,
      hcreated.symm, hupdated.symm⟩

/-- For every mission, every time of import and every indentation, the import has each field that
the export writes exactly when the mission was created at the time of the import and never
updated. -/
theorem restituee_iff (u : Usine) (indent : Nat) (m : Mission) :
    (∃ m', fromJson u (toJson indent m) = some m'.objet ∧ Restituee m m') ↔
      m.createdAt = u.maintenant ∧ m.updatedAt = none := by
  rw [fromJson_export, ← restituee_importee_iff]
  constructor
  · rintro ⟨m', hread, hrestituee⟩
    rwa [Mission.objet_injective (Option.some.inj hread)]
  · exact fun h => ⟨importee u m, rfl, h⟩

/-- A mission of the first of January that was updated on the second. -/
def missionModifiee : Mission where
  missionId := "m1"
  title := "Audit"
  description := ""
  objective := "auditer"
  type := .analysis
  priority := .high
  status := .running
  context :=
    { projectId := "p", userId := "u", repository := "", branch := "main", localPath := "",
      tags := [], metadata := ⟨[], List.nodup_nil, trivial⟩ }
  nodes := []
  edges := []
  metadata := ⟨[], List.nodup_nil, trivial⟩
  maxDurationSeconds := .entier 3600
  createdAt := ⟨⟨2026, 1, 1, 0, 0, 0, 0, some 0⟩, by decide⟩
  updatedAt := some ⟨⟨2026, 1, 2, 0, 0, 0, 0, some 0⟩, by decide⟩
  startedAt := none
  completedAt := none

/-- Imported on the third, it has lost both dates. -/
theorem dates_reinitialisees :
    ¬∃ m', fromJson ⟨"n", ⟨⟨2026, 1, 3, 0, 0, 0, 0, some 0⟩, by decide⟩⟩
        (toJson 2 missionModifiee) = some m'.objet ∧ Restituee missionModifiee m' := by
  rintro ⟨m', hread, hrestituee⟩
  rw [fromJson_export] at hread
  rw [← Mission.objet_injective (Option.some.inj hread)] at hrestituee
  have hupdated := hrestituee.updatedAt
  simp [importee, missionModifiee] at hupdated

end GraphSerializer

end Hermes.Persistance
