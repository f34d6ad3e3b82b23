import Hermes.Lib.Horodatage
import Hermes.Lib.JsonTexte
import Hermes.Lib.Table
import Hermes.Mission.Models
import Mathlib.Data.List.Infix

/-! # Missions that survive a restart

A mission is stored as the JSON text of its records.
-/

namespace Hermes.Persistance

open Lib

inductive Enumeration where
  | missionStatus
  | missionPriority
  | missionType
  | nodeStatus
  deriving DecidableEq

def Enumeration.valeurs : Enumeration → List String
  | .missionStatus =>
      ["created", "validated", "ready", "running", "paused", "completed", "failed", "cancelled"]
  | .missionPriority => ["critical", "high", "normal", "background"]
  | .missionType =>
      ["development", "research", "analysis", "deployment", "maintenance", "custom"]
  | .nodeStatus => ["pending", "ready", "running", "completed", "failed", "blocked", "skipped"]

inductive Classe where
  | mission
  | node
  | edge
  | context
  deriving DecidableEq

/-- The objects of the interpreter: plain data, dates, members of an enumeration, lists of
records, and records with their fields in order. -/
inductive Objet where
  | donnee (j : Json)
  | date (h : Horodatage)
  | membre (e : Enumeration) (valeur : String)
  | liste (valeurs : List Objet)
  | instance (classe : Classe) (champs : List (String × Objet))

theorem itemsVides : (Dict.keys ([] : Dict String Json)).Nodup ∧ Json.ItemsValides [] :=
  ⟨List.nodup_nil, trivial⟩

theorem nouvelAn : Champs.Valide ⟨2026, 1, 1, 0, 0, 0, 0, some 0⟩ := by decide

namespace Objet

abbrev texte (s : String) : Objet := donnee (.texte s)

abbrev textes (ss : List String) : Objet := donnee (.tableau (ss.map .texte))

abbrev dateOuRien : Option Horodatage → Objet
  | none => donnee .null
  | some h => date h

end Objet

/-- What a constructor draws for the fields it is not given. -/
structure Usine where
  uuid : String
  maintenant : Horodatage

structure Champ where
  nom : String
  type : String
  defaut : Usine → Objet

section

open Objet

def zero : Objet := donnee (.flottant "0.0")

def champsContext : List Champ :=
  [⟨"project_id", "str", fun _ => texte ""⟩, ⟨"user_id", "str", fun _ => texte ""⟩,
    ⟨"repository", "str", fun _ => texte ""⟩, ⟨"branch", "str", fun _ => texte ""⟩,
    ⟨"local_path", "str", fun _ => texte ""⟩, ⟨"tags", "list[str]", fun _ => textes []⟩,
    ⟨"metadata", "dict[str, Any]", fun _ => donnee (.objet [])⟩]

def champsEdge : List Champ :=
  [⟨"edge_id", "str", fun u => texte u.uuid⟩, ⟨"source_id", "str", fun _ => texte ""⟩,
    ⟨"target_id", "str", fun _ => texte ""⟩, ⟨"type", "str", fun _ => texte "depends_on"⟩]

def champsNode : List Champ :=
  [⟨"node_id", "str", fun u => texte u.uuid⟩, ⟨"mission_id", "str", fun _ => texte ""⟩,
    ⟨"title", "str", fun _ => texte ""⟩, ⟨"description", "str", fun _ => texte ""⟩,
    ⟨"type", "str", fun _ => texte "task"⟩,
    ⟨"priority", "MissionPriority", fun _ => membre .missionPriority "normal"⟩,
    ⟨"status", "NodeStatus", fun _ => membre .nodeStatus "pending"⟩,
    ⟨"preferred_agent", "str", fun _ => texte ""⟩,
    ⟨"preferred_runtime", "str", fun _ => texte ""⟩,
    ⟨"benchmark_profile", "str", fun _ => texte ""⟩,
    ⟨"required_skills", "list[str]", fun _ => textes []⟩,
    ⟨"estimated_resources", "dict[str, Any]", fun _ => donnee (.objet [])⟩,
    ⟨"estimated_duration_ms", "float", fun _ => zero⟩,
    ⟨"depends_on", "list[str]", fun _ => textes []⟩,
    ⟨"validation_criteria", "list[str]", fun _ => textes []⟩,
    ⟨"expected_outputs", "list[str]", fun _ => textes []⟩,
    ⟨"started_at", "Optional[datetime]", fun _ => donnee .null⟩,
    ⟨"completed_at", "Optional[datetime]", fun _ => donnee .null⟩,
    ⟨"actual_duration_ms", "float", fun _ => zero⟩,
    ⟨"result_summary", "str", fun _ => texte ""⟩]

def champsMission : List Champ :=
  [⟨"mission_id", "str", fun u => texte u.uuid⟩, ⟨"title", "str", fun _ => texte ""⟩,
    ⟨"description", "str", fun _ => texte ""⟩, ⟨"objective", "str", fun _ => texte ""⟩,
    ⟨"type", "MissionType", fun _ => membre .missionType "custom"⟩,
    ⟨"priority", "MissionPriority", fun _ => membre .missionPriority "normal"⟩,
    ⟨"status", "MissionStatus", fun _ => membre .missionStatus "created"⟩,
    ⟨"context", "MissionContext", fun u =>
      .instance .context (champsContext.map fun c => (c.nom, c.defaut u))⟩,
    ⟨"nodes", "list[MissionNode]", fun _ => liste []⟩,
    ⟨"edges", "list[MissionEdge]", fun _ => liste []⟩,
    ⟨"metadata", "dict[str, Any]", fun _ => donnee (.objet [])⟩,
    ⟨"max_duration_seconds", "float", fun _ => donnee (.flottant "3600.0")⟩,
    ⟨"created_at", "datetime", fun u => date u.maintenant⟩,
    ⟨"updated_at", "Optional[datetime]", fun _ => donnee .null⟩,
    ⟨"started_at", "Optional[datetime]", fun _ => donnee .null⟩,
    ⟨"completed_at", "Optional[datetime]", fun _ => donnee .null⟩]

end

def Classe.champs : Classe → List Champ
  | .mission => champsMission
  | .node => champsNode
  | .edge => champsEdge
  | .context => champsContext

mutual

def enBrut : Objet → Json
  | .donnee j => j
  | .date h => .texte (String.ofList h.isoformat)
  | .membre _ valeur => .texte valeur
  | .liste valeurs => .tableau (enBruts valeurs)
  | .instance _ champs => .objet (enItems champs)

def enBruts : List Objet → List Json
  | [] => []
  | v :: valeurs => enBrut v :: enBruts valeurs

def enItems : List (String × Objet) → List (String × Json)
  | [] => []
  | (nom, v) :: champs => (nom, enBrut v) :: enItems champs

end

/-- `nom in texte`. -/
def contient (texte nom : String) : Bool := decide (nom.toList <:+: texte.toList)

/-- The classes of enumeration, in the order their names are looked for. -/
def ENUMERATIONS : List (String × Enumeration) :=
  [("MissionStatus", .missionStatus), ("MissionPriority", .missionPriority),
    ("MissionType", .missionType), ("NodeStatus", .nodeStatus)]

/-- `enumeration(valeur)`, and nothing when there is no such member. -/
def lireMembre (e : Enumeration) : Json → Objet
  | .texte s => if s ∈ e.valeurs then .membre e s else .donnee .null
  | _ => .donnee .null

def estNul (t : String) : Bool :=
  (t.toList.takeWhile fun c => c ≠ 'e' && c ≠ 'E').all fun c => c = '0' || c = '.' || c = '-'

/-- What `for v in (valeur or [])` goes through. `none` stands for `TypeError`. -/
def parcourir : Json → Option (List Json)
  | .null => some []
  | .bool b => if b then none else some []
  | .entier n => if n = 0 then some [] else none
  | .flottant t => if estNul t then some [] else none
  | .texte s => some (s.toList.map fun c => .texte (String.singleton c))
  | .tableau valeurs => some valeurs
  | .objet items => some (items.map fun item => .texte item.1)

section Lecture

-- how a record nested in the value is read back
variable (relire : Classe → Json → Option Objet)

def convertir (type : String) (valeur : Json) : Option Objet :=
  match valeur with
  | .null => some (.donnee .null)
  | valeur =>
      match ENUMERATIONS.find? fun e => contient type e.1 with
      | some e => some (lireMembre e.2 valeur)
      | none =>
          if contient type "MissionContext" then relire .context valeur
          else if contient type "MissionNode" then
            (parcourir valeur).bind fun vs => (vs.mapM (relire .node)).map .liste
          else if contient type "MissionEdge" then
            (parcourir valeur).bind fun vs => (vs.mapM (relire .edge)).map .liste
          else
            match contient type "datetime", valeur with
            | true, .texte s =>
                match Horodatage.fromisoformat s.toList with
                | some h => some (.date h)
                | none => some (.donnee .null)
            | _, valeur => some (.donnee valeur)

def lireChamps (classe : Classe) : List (String × Json) → Option (List (String × Objet))
  | [] => some []
  | (nom, valeur) :: items =>
      match classe.champs.find? fun c => c.nom = nom with
      | none => lireChamps classe items
      | some c => do
          let v ← convertir relire c.type valeur
          let suite ← lireChamps classe items
          return (nom, v) :: suite

end Lecture

/-- `classe(**valeurs)`. -/
def construire (u : Usine) (classe : Classe) (valeurs : List (String × Objet)) : Objet :=
  .instance classe (classe.champs.map fun c => (c.nom, Dict.getD valeurs c.nom (c.defaut u)))

def enObjet (u : Usine) : Nat → Classe → Json → Option Objet
  | 0, _, _ => none
  | n + 1, classe, .objet items =>
      (lireChamps (enObjet u n) classe items).map (construire u classe)
  | _ + 1, _, brut => some (.donnee brut)

def PROFONDEUR : Nat := 2

/-- The text that `enregistrer` stores. -/
def document (mission : Objet) : String := String.ofList (Json.ecrire (enBrut mission))

/-- `_depuis`: nothing when the text cannot be read. -/
def depuis (u : Usine) (document : String) : Option Objet :=
  (Json.lire document.toList).bind (enObjet u PROFONDEUR .mission)

def SIMPLES : List String := ["str", "float", "list[str]", "dict[str, Any]"]

def DATES : List String := ["datetime", "Optional[datetime]"]

def Enumeration.nom : Enumeration → String
  | .missionStatus => "MissionStatus"
  | .missionPriority => "MissionPriority"
  | .missionType => "MissionType"
  | .nodeStatus => "NodeStatus"

section

variable {relire : Classe → Json → Option Objet}

/-- A record that is read back from what was written of it. -/
def Relu (relire : Classe → Json → Option Objet) (classe : Classe) (o : Objet) : Prop :=
  ∃ champs, o = .instance classe champs ∧ relire classe (enBrut o) = some o

inductive Conforme (relire : Classe → Json → Option Objet) : String → Objet → Prop
  | donnee {type : String} (h : type ∈ SIMPLES) (j : Json) :
      Conforme relire type (.donnee j)
  | membre {e : Enumeration} {s : String} (h : s ∈ e.valeurs) : Conforme relire e.nom (.membre e s)
  | date {type : String} (h : type ∈ DATES) (d : Horodatage) :
      Conforme relire type (.date d)
  | sansDate {type : String} (h : type ∈ DATES) :
      Conforme relire type (.donnee .null)
  | context {o : Objet} (h : Relu relire .context o) : Conforme relire "MissionContext" o
  | nodes {os : List Objet} (h : ∀ o ∈ os, Relu relire .node o) :
      Conforme relire "list[MissionNode]" (.liste os)
  | edges {os : List Objet} (h : ∀ o ∈ os, Relu relire .edge o) :
      Conforme relire "list[MissionEdge]" (.liste os)

theorem mapM_relire {classe : Classe} {os : List Objet} (h : ∀ o ∈ os, Relu relire classe o) :
    (enBruts os).mapM (relire classe) = some os := by
  induction os with
  | nil => rfl
  | cons o os ih =>
      obtain ⟨champs, -, hread⟩ := h o List.mem_cons_self
      simp [enBruts, hread, ih fun o' ho' => h o' (List.mem_cons_of_mem o ho')]

structure Noms (type : String) (e : Option (String × Enumeration))
    (context node edge date : Bool) : Prop where
  enumeration : (ENUMERATIONS.find? fun x => contient type x.1) = e
  context : contient type "MissionContext" = context
  node : contient type "MissionNode" = node
  edge : contient type "MissionEdge" = edge
  date : contient type "datetime" = date

instance (type : String) (e : Option (String × Enumeration)) (context node edge date : Bool) :
    Decidable (Noms type e context node edge date) :=
  decidable_of_iff ((ENUMERATIONS.find? fun x => contient type x.1) = e ∧
      contient type "MissionContext" = context ∧ contient type "MissionNode" = node ∧
      contient type "MissionEdge" = edge ∧ contient type "datetime" = date)
    ⟨fun ⟨h₁, h₂, h₃, h₄, h₅⟩ => ⟨h₁, h₂, h₃, h₄, h₅⟩,
      fun ⟨h₁, h₂, h₃, h₄, h₅⟩ => ⟨h₁, h₂, h₃, h₄, h₅⟩⟩

/-- What each annotation contains, evaluated once. -/
theorem noms_annotations :
    (∀ type ∈ SIMPLES, Noms type none false false false false) ∧
      (∀ type ∈ DATES, Noms type none false false false true) ∧
      (∀ e ∈ ENUMERATIONS, (ENUMERATIONS.find? fun x => contient e.1 x.1) = some e) ∧
      Noms "MissionContext" none true false false false ∧
      Noms "list[MissionNode]" none false true false false ∧
      Noms "list[MissionEdge]" none false false true false := by decide +kernel

theorem noms_simples {type : String} (h : type ∈ SIMPLES) :
    Noms type none false false false false := noms_annotations.1 type h

theorem noms_dates {type : String} (h : type ∈ DATES) :
    Noms type none false false false true := noms_annotations.2.1 type h

theorem noms_enumeration (e : Enumeration) :
    (ENUMERATIONS.find? fun x => contient e.nom x.1) = some (e.nom, e) := by
  have he : (e.nom, e) ∈ ENUMERATIONS := by cases e <;> simp [ENUMERATIONS, Enumeration.nom]
  exact noms_annotations.2.2.1 _ he

theorem noms_context : Noms "MissionContext" none true false false false :=
  noms_annotations.2.2.2.1

theorem noms_nodes : Noms "list[MissionNode]" none false true false false :=
  noms_annotations.2.2.2.2.1

theorem noms_edges : Noms "list[MissionEdge]" none false false true false :=
  noms_annotations.2.2.2.2.2

theorem convertir_conforme {type : String} {o : Objet} (h : Conforme relire type o) :
    convertir relire type (enBrut o) = some o := by
  cases h with
  | donnee h j =>
      have hnoms := noms_simples h
      cases j <;> simp [convertir, enBrut, hnoms.enumeration, hnoms.context, hnoms.node,
        hnoms.edge, hnoms.date]
  | @membre e s h => simp [convertir, enBrut, noms_enumeration, lireMembre, h]
  | date h d =>
      have hnoms := noms_dates h
      simp [convertir, enBrut, hnoms.enumeration, hnoms.context, hnoms.node, hnoms.edge,
        hnoms.date, Horodatage.fromisoformat_isoformat]
  | sansDate h => rfl
  | context h =>
      obtain ⟨champs, rfl, hread⟩ := h
      rw [enBrut] at hread
      simp [convertir, enBrut, noms_context.enumeration, noms_context.context, hread]
  | nodes h =>
      simp [convertir, enBrut, noms_nodes.enumeration, noms_nodes.context, noms_nodes.node,
        parcourir, mapM_relire h]
  | edges h =>
      simp [convertir, enBrut, noms_edges.enumeration, noms_edges.context, noms_edges.node,
        noms_edges.edge, parcourir, mapM_relire h]

/-- The fields of a record, in the order of its class, each as its annotation announces. -/
abbrev Fidele (relire : Classe → Json → Option Objet) (classe : Classe)
    (valeurs : List (String × Objet)) : Prop :=
  List.Forall₂ (fun c item => item.1 = c.nom ∧ Conforme relire c.type item.2)
    classe.champs valeurs

theorem nodup_champs (classe : Classe) : (classe.champs.map Champ.nom).Nodup := by
  cases classe <;> decide +kernel

theorem find?_champs {classe : Classe} {c : Champ} (hc : c ∈ classe.champs) :
    classe.champs.find? (fun x => x.nom = c.nom) = some c :=
  Table.lire_of_mem (t := ⟨classe.champs, nodup_champs classe⟩) hc

variable {classe : Classe} {valeurs : List (String × Objet)}

theorem Fidele.keys (h : Fidele relire classe valeurs) :
    Dict.keys valeurs = classe.champs.map Champ.nom := by
  have hgen : ∀ {cs : List Champ} {vs : List (String × Objet)},
      List.Forall₂ (fun c item => item.1 = c.nom ∧ Conforme relire c.type item.2) cs vs →
        vs.map Prod.fst = cs.map Champ.nom := by
    intro cs vs hf
    induction hf with
    | nil => rfl
    | cons hitem _ ih => rw [List.map_cons, List.map_cons, hitem.1, ih]
  exact hgen h

theorem Fidele.get? (h : Fidele relire classe valeurs) {item : String × Objet}
    (hitem : item ∈ valeurs) : Dict.get? valeurs item.1 = some item.2 :=
  Dict.get?_of_mem (h.keys ▸ nodup_champs classe) hitem

theorem lireChamps_fidele (h : Fidele relire classe valeurs) :
    lireChamps relire classe (enItems valeurs) = some valeurs := by
  have hgen : ∀ {cs : List Champ} {vs : List (String × Objet)},
      List.Forall₂ (fun c item => item.1 = c.nom ∧ Conforme relire c.type item.2) cs vs →
        (∀ c ∈ cs, c ∈ classe.champs) → lireChamps relire classe (enItems vs) = some vs := by
    intro cs vs hf hcs
    induction hf with
    | nil => rfl
    | @cons c item cs vs hitem _ ih =>
        obtain ⟨nom, v⟩ := item
        obtain ⟨rfl, hconforme⟩ := hitem
        simp [enItems, lireChamps, find?_champs (hcs c List.mem_cons_self),
          convertir_conforme hconforme, ih fun c' hc' => hcs c' (List.mem_cons_of_mem c hc')]
  exact hgen h fun c hc => hc

theorem construire_fidele (h : Fidele relire classe valeurs) (u : Usine) :
    construire u classe valeurs = .instance classe valeurs := by
  have hgen : ∀ {cs : List Champ} {vs : List (String × Objet)},
      List.Forall₂ (fun c item => item.1 = c.nom ∧ Conforme relire c.type item.2) cs vs →
        (∀ item ∈ vs, item ∈ valeurs) →
        (cs.map fun c => (c.nom, Dict.getD valeurs c.nom (c.defaut u))) = vs := by
    intro cs vs hf hvs
    induction hf with
    | nil => rfl
    | @cons c item cs vs hitem _ ih =>
        have hget := h.get? (hvs item List.mem_cons_self)
        rw [List.map_cons, ih fun i hi => hvs i (List.mem_cons_of_mem item hi), ← hitem.1,
          Dict.getD, hget]
        rfl
  rw [construire, hgen h fun item hitem => hitem]

theorem Fidele.relu {u : Usine} {n : Nat} (h : Fidele (enObjet u n) classe valeurs) :
    Relu (enObjet u (n + 1)) classe (.instance classe valeurs) := by
  refine ⟨valeurs, rfl, ?_⟩
  rw [enBrut, enObjet, lireChamps_fidele h, Option.map_some, construire_fidele h]

end

/-- A free-form dictionary: JSON values under distinct string keys. -/
structure Dico where
  items : List (String × Json)
  valide : (Json.objet items).Valide

inductive Nombre where
  | entier (n : Int)
  | flottant (t : String) (h : Json.FlottantValide t)

def Nombre.json : Nombre → Json
  | entier n => .entier n
  | flottant t _ => .flottant t

inductive MissionPriority where
  | critical
  | high
  | normal
  | background
  deriving DecidableEq

def MissionPriority.value : MissionPriority → String
  | critical => "critical"
  | high => "high"
  | normal => "normal"
  | background => "background"

inductive MissionType where
  | development
  | research
  | analysis
  | deployment
  | maintenance
  | custom
  deriving DecidableEq

def MissionType.value : MissionType → String
  | development => "development"
  | research => "research"
  | analysis => "analysis"
  | deployment => "deployment"
  | maintenance => "maintenance"
  | custom => "custom"

def nodeStatusValue : NodeStatus → String
  | .pending => "pending"
  | .ready => "ready"
  | .running => "running"
  | .completed => "completed"
  | .failed => "failed"
  | .blocked => "blocked"
  | .skipped => "skipped"

structure MissionEdge where
  edgeId : String
  sourceId : String
  targetId : String
  type : String

structure MissionNode where
  nodeId : String
  missionId : String
  title : String
  description : String
  type : String
  priority : MissionPriority
  status : NodeStatus
  preferredAgent : String
  preferredRuntime : String
  benchmarkProfile : String
  requiredSkills : List String
  estimatedResources : Dico
  estimatedDurationMs : Nombre
  dependsOn : List String
  validationCriteria : List String
  expectedOutputs : List String
  startedAt : Option Horodatage
  completedAt : Option Horodatage
  actualDurationMs : Nombre
  resultSummary : String

structure MissionContext where
  projectId : String
  userId : String
  repository : String
  branch : String
  localPath : String
  tags : List String
  metadata : Dico

structure Mission where
  missionId : String
  title : String
  description : String
  objective : String
  type : MissionType
  priority : MissionPriority
  status : MissionStatus
  context : MissionContext
  nodes : List MissionNode
  edges : List MissionEdge
  metadata : Dico
  maxDurationSeconds : Nombre
  createdAt : Horodatage
  updatedAt : Option Horodatage
  startedAt : Option Horodatage
  completedAt : Option Horodatage

section Objets

open Objet

def MissionEdge.champs (e : MissionEdge) : List (String × Objet) :=
  [("edge_id", texte e.edgeId), ("source_id", texte e.sourceId), ("target_id", texte e.targetId),
    ("type", texte e.type)]

def MissionEdge.objet (e : MissionEdge) : Objet := .instance .edge e.champs

def MissionNode.champs (n : MissionNode) : List (String × Objet) :=
  [("node_id", texte n.nodeId), ("mission_id", texte n.missionId), ("title", texte n.title),
    ("description", texte n.description), ("type", texte n.type),
    ("priority", membre .missionPriority n.priority.value),
    ("status", membre .nodeStatus (nodeStatusValue n.status)),
    ("preferred_agent", texte n.preferredAgent), ("preferred_runtime", texte n.preferredRuntime),
    ("benchmark_profile", texte n.benchmarkProfile),
    ("required_skills", textes n.requiredSkills),
    ("estimated_resources", donnee (.objet n.estimatedResources.items)),
    ("estimated_duration_ms", donnee n.estimatedDurationMs.json),
    ("depends_on", textes n.dependsOn), ("validation_criteria", textes n.validationCriteria),
    ("expected_outputs", textes n.expectedOutputs), ("started_at", dateOuRien n.startedAt),
    ("completed_at", dateOuRien n.completedAt),
    ("actual_duration_ms", donnee n.actualDurationMs.json),
    ("result_summary", texte n.resultSummary)]

def MissionNode.objet (n : MissionNode) : Objet := .instance .node n.champs

def MissionContext.champs (c : MissionContext) : List (String × Objet) :=
  [("project_id", texte c.projectId), ("user_id", texte c.userId),
    ("repository", texte c.repository), ("branch", texte c.branch),
    ("local_path", texte c.localPath), ("tags", textes c.tags),
    ("metadata", donnee (.objet c.metadata.items))]

def MissionContext.objet (c : MissionContext) : Objet := .instance .context c.champs

def Mission.champs (m : Mission) : List (String × Objet) :=
  [("mission_id", texte m.missionId), ("title", texte m.title),
    ("description", texte m.description), ("objective", texte m.objective),
    ("type", membre .missionType m.type.value),
    ("priority", membre .missionPriority m.priority.value),
    ("status", membre .missionStatus m.status.value), ("context", m.context.objet),
    ("nodes", liste (m.nodes.map MissionNode.objet)),
    ("edges", liste (m.edges.map MissionEdge.objet)),
    ("metadata", donnee (.objet m.metadata.items)),
    ("max_duration_seconds", donnee m.maxDurationSeconds.json), ("created_at", date m.createdAt),
    ("updated_at", dateOuRien m.updatedAt), ("started_at", dateOuRien m.startedAt),
    ("completed_at", dateOuRien m.completedAt)]

def Mission.objet (m : Mission) : Objet := .instance .mission m.champs

end Objets

section

variable {relire : Classe → Json → Option Objet}

theorem conforme_str (j : Json) : Conforme relire "str" (.donnee j) := .donnee (.head _) j

theorem conforme_float (j : Json) : Conforme relire "float" (.donnee j) :=
  .donnee (.tail _ (.head _)) j

theorem conforme_liste (j : Json) : Conforme relire "list[str]" (.donnee j) :=
  .donnee (.tail _ (.tail _ (.head _))) j

theorem conforme_dict (j : Json) : Conforme relire "dict[str, Any]" (.donnee j) :=
  .donnee (.tail _ (.tail _ (.tail _ (.head _)))) j

theorem conforme_date (h : Option Horodatage) :
    Conforme relire "Optional[datetime]" (Objet.dateOuRien h) := by
  cases h with
  | none => exact .sansDate (by simp [DATES])
  | some h => exact .date (by simp [DATES]) h

theorem conforme_priority (p : MissionPriority) :
    Conforme relire "MissionPriority" (.membre .missionPriority p.value) :=
  Conforme.membre (e := .missionPriority)
    (by cases p <;> simp [Enumeration.valeurs, MissionPriority.value])

theorem conforme_nodeStatus (s : NodeStatus) :
    Conforme relire "NodeStatus" (.membre .nodeStatus (nodeStatusValue s)) :=
  Conforme.membre (e := .nodeStatus) (by cases s <;> simp [Enumeration.valeurs, nodeStatusValue])

theorem conforme_type (t : MissionType) :
    Conforme relire "MissionType" (.membre .missionType t.value) :=
  Conforme.membre (e := .missionType) (by cases t <;> simp [Enumeration.valeurs, MissionType.value])

theorem conforme_status (s : MissionStatus) :
    Conforme relire "MissionStatus" (.membre .missionStatus s.value) :=
  Conforme.membre (e := .missionStatus) (by
    cases s <;> simp [Enumeration.valeurs, MissionStatus.value])

theorem MissionEdge.fidele (e : MissionEdge) : Fidele relire .edge e.champs :=
  .cons ⟨rfl, conforme_str _⟩ <| .cons ⟨rfl, conforme_str _⟩ <| .cons ⟨rfl, conforme_str _⟩ <|
    .cons ⟨rfl, conforme_str _⟩ .nil

theorem MissionContext.fidele (c : MissionContext) : Fidele relire .context c.champs :=
  .cons ⟨rfl, conforme_str _⟩ <| .cons ⟨rfl, conforme_str _⟩ <| .cons ⟨rfl, conforme_str _⟩ <|
    .cons ⟨rfl, conforme_str _⟩ <| .cons ⟨rfl, conforme_str _⟩ <| .cons ⟨rfl, conforme_liste _⟩ <|
    .cons ⟨rfl, conforme_dict _⟩ .nil

theorem MissionNode.fidele (n : MissionNode) : Fidele relire .node n.champs :=
  .cons ⟨rfl, conforme_str _⟩ <| .cons ⟨rfl, conforme_str _⟩ <| .cons ⟨rfl, conforme_str _⟩ <|
    .cons ⟨rfl, conforme_str _⟩ <| .cons ⟨rfl, conforme_str _⟩ <|
    .cons ⟨rfl, conforme_priority _⟩ <| .cons ⟨rfl, conforme_nodeStatus _⟩ <|
    .cons ⟨rfl, conforme_str _⟩ <| .cons ⟨rfl, conforme_str _⟩ <| .cons ⟨rfl, conforme_str _⟩ <|
    .cons ⟨rfl, conforme_liste _⟩ <| .cons ⟨rfl, conforme_dict _⟩ <|
    .cons ⟨rfl, conforme_float _⟩ <| .cons ⟨rfl, conforme_liste _⟩ <|
    .cons ⟨rfl, conforme_liste _⟩ <| .cons ⟨rfl, conforme_liste _⟩ <|
    .cons ⟨rfl, conforme_date _⟩ <| .cons ⟨rfl, conforme_date _⟩ <|
    .cons ⟨rfl, conforme_float _⟩ <| .cons ⟨rfl, conforme_str _⟩ .nil

end

variable {u : Usine}

theorem MissionContext.relu (c : MissionContext) : Relu (enObjet u 1) .context c.objet :=
  c.fidele.relu

theorem relus_nodes (nodes : List MissionNode) :
    ∀ o ∈ nodes.map MissionNode.objet, Relu (enObjet u 1) .node o := by
  intro o ho
  obtain ⟨n, -, rfl⟩ := List.mem_map.mp ho
  exact n.fidele.relu

theorem relus_edges (edges : List MissionEdge) :
    ∀ o ∈ edges.map MissionEdge.objet, Relu (enObjet u 1) .edge o := by
  intro o ho
  obtain ⟨e, -, rfl⟩ := List.mem_map.mp ho
  exact e.fidele.relu

theorem Mission.fidele (m : Mission) : Fidele (enObjet u 1) .mission m.champs :=
  .cons ⟨rfl, conforme_str _⟩ <| .cons ⟨rfl, conforme_str _⟩ <| .cons ⟨rfl, conforme_str _⟩ <|
    .cons ⟨rfl, conforme_str _⟩ <| .cons ⟨rfl, conforme_type _⟩ <|
    .cons ⟨rfl, conforme_priority _⟩ <| .cons ⟨rfl, conforme_status _⟩ <|
    .cons ⟨rfl, .context m.context.relu⟩ <| .cons ⟨rfl, .nodes (relus_nodes _)⟩ <|
    .cons ⟨rfl, .edges (relus_edges _)⟩ <| .cons ⟨rfl, conforme_dict _⟩ <|
    .cons ⟨rfl, conforme_float _⟩ <| .cons ⟨rfl, .date (by simp [DATES]) _⟩ <|
    .cons ⟨rfl, conforme_date _⟩ <| .cons ⟨rfl, conforme_date _⟩ <|
    .cons ⟨rfl, conforme_date _⟩ .nil

theorem Mission.relu (m : Mission) : Relu (enObjet u 2) .mission m.objet := m.fidele.relu

theorem itemsValides_enItems {champs : List (String × Objet)}
    (h : ∀ item ∈ champs, (enBrut item.2).Valide) : Json.ItemsValides (enItems champs) := by
  induction champs with
  | nil => simp [enItems, Json.ItemsValides]
  | cons item champs ih =>
      rw [enItems, Json.ItemsValides]
      exact ⟨h item List.mem_cons_self, ih fun i hi => h i (List.mem_cons_of_mem item hi)⟩

theorem keys_enItems (champs : List (String × Objet)) :
    (enItems champs).map Prod.fst = champs.map Prod.fst := by
  induction champs with
  | nil => rfl
  | cons item champs ih => rw [enItems, List.map_cons, List.map_cons, ih]

theorem Fidele.valide {relire : Classe → Json → Option Objet} {classe : Classe}
    {champs : List (String × Objet)} (h : Fidele relire classe champs)
    (hchamps : ∀ item ∈ champs, (enBrut item.2).Valide) :
    (enBrut (.instance classe champs)).Valide := by
  rw [enBrut, Json.Valide, keys_enItems]
  refine ⟨?_, itemsValides_enItems hchamps⟩
  have hkeys : champs.map Prod.fst = classe.champs.map Champ.nom := h.keys
  rw [hkeys]
  exact nodup_champs classe

@[simp] theorem valide_texte (t : String) : (enBrut (Objet.texte t)).Valide := by
  simp [enBrut, Json.Valide]

@[simp] theorem valide_membre (e : Enumeration) (t : String) :
    (enBrut (.membre e t)).Valide := by
  simp [enBrut, Json.Valide]

@[simp] theorem valide_date (h : Horodatage) : (enBrut (.date h)).Valide := by
  simp [enBrut, Json.Valide]

@[simp] theorem valide_dateOuRien (h : Option Horodatage) :
    (enBrut (Objet.dateOuRien h)).Valide := by
  cases h <;> simp [enBrut, Json.Valide]

@[simp] theorem valide_textes (ts : List String) : (enBrut (Objet.textes ts)).Valide := by
  rw [enBrut, Json.Valide]
  induction ts with
  | nil => simp [Json.ValeursValides]
  | cons t ts ih => exact ⟨by simp [Json.Valide], ih⟩

@[simp] theorem valide_dico (d : Dico) : (enBrut (.donnee (.objet d.items))).Valide := d.valide

@[simp] theorem valide_nombre (n : Nombre) : (enBrut (.donnee n.json)).Valide := by
  cases n with
  | entier n => simp [enBrut, Nombre.json, Json.Valide]
  | flottant t h => simpa [enBrut, Nombre.json, Json.Valide] using h

theorem valide_liste {os : List Objet} (h : ∀ o ∈ os, (enBrut o).Valide) :
    (enBrut (.liste os)).Valide := by
  rw [enBrut, Json.Valide]
  induction os with
  | nil => simp [enBruts, Json.ValeursValides]
  | cons o os ih =>
      exact ⟨h o List.mem_cons_self, ih fun o' ho' => h o' (List.mem_cons_of_mem o ho')⟩

theorem MissionEdge.valide (e : MissionEdge) : (enBrut e.objet).Valide :=
  Fidele.valide (show Fidele (fun _ _ => none) .edge e.champs from e.fidele)
    (by simp [MissionEdge.champs])

theorem MissionNode.valide (n : MissionNode) : (enBrut n.objet).Valide :=
  Fidele.valide (show Fidele (fun _ _ => none) .node n.champs from n.fidele)
    (by simp [MissionNode.champs])

theorem MissionContext.valide (c : MissionContext) : (enBrut c.objet).Valide :=
  Fidele.valide (show Fidele (fun _ _ => none) .context c.champs from c.fidele)
    (by simp [MissionContext.champs])

theorem Mission.valide (u : Usine) (m : Mission) : (enBrut m.objet).Valide := by
  refine Fidele.valide (m.fidele (u := u)) ?_
  have hnodes : (enBrut (.liste (m.nodes.map MissionNode.objet))).Valide := by
    refine valide_liste fun o ho => ?_
    obtain ⟨n, -, rfl⟩ := List.mem_map.mp ho
    exact n.valide
  have hedges : (enBrut (.liste (m.edges.map MissionEdge.objet))).Valide := by
    refine valide_liste fun o ho => ?_
    obtain ⟨e, -, rfl⟩ := List.mem_map.mp ho
    exact e.valide
  simp [Mission.champs, hnodes, hedges, MissionContext.valide]

theorem lire_document (u : Usine) (m : Mission) :
    Json.lire (document m.objet).toList = some (enBrut m.objet) := by
  rw [document, String.toList_ofList]
  exact Json.lire_ecrire (m.valide u)

theorem depuis_document (u : Usine) (m : Mission) : depuis u (document m.objet) = some m.objet := by
  obtain ⟨champs, -, hread⟩ := m.relu (u := u)
  rw [depuis, lire_document u, Option.bind_some]
  exact hread

theorem Nombre.json_injective : Function.Injective Nombre.json := by
  intro a b h
  cases a <;> cases b <;> simp_all [Nombre.json]

theorem Dico.items_injective : Function.Injective Dico.items := by
  rintro ⟨items, _⟩ ⟨items', _⟩ h
  cases h
  rfl

theorem MissionPriority.value_injective : Function.Injective MissionPriority.value := by
  intro a b h
  cases a <;> cases b <;> first | rfl | simp [MissionPriority.value] at h

theorem MissionType.value_injective : Function.Injective MissionType.value := by
  intro a b h
  cases a <;> cases b <;> first | rfl | simp [MissionType.value] at h

theorem missionStatus_value_injective : Function.Injective MissionStatus.value := by
  intro a b h
  cases a <;> cases b <;> first | rfl | simp [MissionStatus.value] at h

theorem nodeStatusValue_injective : Function.Injective nodeStatusValue := by
  intro a b h
  cases a <;> cases b <;> first | rfl | simp [nodeStatusValue] at h

theorem map_texte_inj {a b : List String} : a.map Json.texte = b.map Json.texte ↔ a = b :=
  (List.map_injective_iff.mpr fun s t h => by simpa using h).eq_iff

theorem dateOuRien_injective : Function.Injective Objet.dateOuRien := by
  intro a b h
  cases a <;> cases b <;> simp_all [Objet.dateOuRien]

theorem MissionEdge.objet_injective : Function.Injective MissionEdge.objet := by
  rintro ⟨⟩ ⟨⟩ h
  simpa [MissionEdge.objet, MissionEdge.champs] using h

theorem MissionContext.objet_injective : Function.Injective MissionContext.objet := by
  rintro ⟨⟩ ⟨⟩ h
  simpa [MissionContext.objet, MissionContext.champs, map_texte_inj,
    Dico.items_injective.eq_iff] using h

theorem MissionNode.objet_injective : Function.Injective MissionNode.objet := by
  rintro ⟨⟩ ⟨⟩ h
  simpa [MissionNode.objet, MissionNode.champs, map_texte_inj, Dico.items_injective.eq_iff,
    Nombre.json_injective.eq_iff, MissionPriority.value_injective.eq_iff,
    nodeStatusValue_injective.eq_iff, dateOuRien_injective.eq_iff] using h

theorem Mission.objet_injective : Function.Injective Mission.objet := by
  rintro ⟨⟩ ⟨⟩ h
  simpa [Mission.objet, Mission.champs, MissionContext.objet_injective.eq_iff,
    (List.map_injective_iff.mpr MissionNode.objet_injective).eq_iff,
    (List.map_injective_iff.mpr MissionEdge.objet_injective).eq_iff,
    Dico.items_injective.eq_iff, Nombre.json_injective.eq_iff,
    MissionPriority.value_injective.eq_iff, MissionType.value_injective.eq_iff,
    missionStatus_value_injective.eq_iff, dateOuRien_injective.eq_iff] using h

/-- For every mission, decoding the document it was stored as gives back the mission, and no
other one: every field of it, of its context, of its nodes and of its edges. -/
theorem relecture_exacte (u : Usine) (m : Mission) :
    depuis u (document m.objet) = some m.objet ∧
      ∀ m' : Mission, depuis u (document m.objet) = some m'.objet → m' = m := by
  refine ⟨depuis_document u m, fun m' h => ?_⟩
  rw [depuis_document u m] at h
  exact (Mission.objet_injective (Option.some.inj h)).symm

end Hermes.Persistance
