import Hermes.Lib.Document
import Hermes.Lib.Instant
import Hermes.Lib.JsonIndente
import Hermes.Lib.Table
import Hermes.Mission.Persistance
import Hermes.Security.Aegis
import Hermes.Tools.Sauvegardes
import Mathlib.Data.List.Dedup

/-! # Snapshots of the tasks and of the runs

A snapshot is a JSON file that holds the rows of two tables, column by column.
-/

namespace Hermes.SnapshotManager

open Lib Lib.Document Aegis
open Persistance (Dico)

def SNAPSHOT_VERSION : Int := 1

/-- A date of a column, which holds no offset. -/
structure DateNaive where
  date : Horodatage
  naive : date.champs.decalage = none

theorem valide_sansDecalage {c : Champs} (h : c.Valide) : { c with decalage := none }.Valide :=
  ⟨h.1, h.2.1, h.2.2.1, h.2.2.2.1, fun d hd => by cases hd⟩

def DateNaive.de (h : Horodatage) : DateNaive :=
  ⟨⟨{ h.champs with decalage := none }, valide_sansDecalage h.valide⟩, rfl⟩

structure Task where
  id : String
  projectId : Option String
  title : String
  description : String
  objective : String
  status : String
  priority : String
  agent : Option String
  createdAt : DateNaive
  updatedAt : DateNaive
  modelsUsed : String
  files : String
  testResults : String
  history : String

structure WorkflowRunRecord where
  id : String
  workflowId : String
  projectId : Option String
  status : String
  nodeResults : String
  pendingNodes : String
  approvedNodes : String
  createdAt : DateNaive
  updatedAt : DateNaive

structure Base where
  tasks : Table Task.id
  runs : Table WorkflowRunRecord.id

def texteOuNull : Option String → Json
  | some s => .texte s
  | none => .null

def DateNaive.json (d : DateNaive) : Json := .texte (String.ofList d.date.isoformat)

def taskToDict (t : Task) : Items :=
  [("id", .texte t.id), ("project_id", texteOuNull t.projectId), ("title", .texte t.title),
    ("description", .texte t.description), ("objective", .texte t.objective),
    ("status", .texte t.status), ("priority", .texte t.priority), ("agent", texteOuNull t.agent),
    ("created_at", t.createdAt.json), ("updated_at", t.updatedAt.json),
    ("models_used", .texte t.modelsUsed), ("files", .texte t.files),
    ("test_results", .texte t.testResults), ("history", .texte t.history)]

def runToDict (r : WorkflowRunRecord) : Items :=
  [("id", .texte r.id), ("workflow_id", .texte r.workflowId),
    ("project_id", texteOuNull r.projectId), ("status", .texte r.status),
    ("node_results", .texte r.nodeResults), ("pending_nodes", .texte r.pendingNodes),
    ("approved_nodes", .texte r.approvedNodes), ("created_at", r.createdAt.json),
    ("updated_at", r.updatedAt.json)]

inductive Erreur
  /-- `SnapshotError`: no file of this name, or no JSON in it. -/
  | absent (snapshotId : String)
  | corrompu (snapshotId : String)
  | osError
  | unicodeDecodeError
  | jsonDecodeError
  | attributeError
  | typeError
  | refus (r : Refus)
  deriving DecidableEq

def refuser {α : Type} : Except Refus α → Except Erreur α
  | .ok a => .ok a
  | .error r => .error (.refus r)

/-- What `create_snapshot` writes. -/
structure Instantane where
  id : String
  createdAt : Horodatage
  reason : String
  context : Dico
  tasks : List Task
  runs : List WorkflowRunRecord
  filesTouched : List String

def Instantane.payload (p : Instantane) : Items :=
  [("version", .entier SNAPSHOT_VERSION), ("id", .texte p.id),
    ("created_at", .texte (String.ofList p.createdAt.isoformat)), ("reason", .texte p.reason),
    ("context", .objet p.context.items),
    ("tasks", .tableau (p.tasks.map fun t => .objet (taskToDict t))),
    ("workflow_runs", .tableau (p.runs.map fun r => .objet (runToDict r))),
    ("files_touched", textes p.filesTouched)]

def Instantane.texte (p : Instantane) : String := Json.dumpsIndenteBrut 2 (.objet p.payload)

/-- `json.loads(t["files"])`, a list of texts. -/
def fichiersDe (t : Task) : Except Erreur (List String) :=
  match Json.lire t.files.toList with
  | none => .error .jsonDecodeError
  | some v => refuser (liste Document.texte v)

/-- The two calls of the clock, and the eight letters drawn. -/
structure Tirage where
  maintenant : Horodatage
  puis : Horodatage
  utc : puis.champs.decalage = some 0
  hex : String

def Dico.vide : Dico := ⟨[], by simp [Json.Valide, Json.ItemsValides]⟩

def createSnapshot (base : Base) (reason : String) (context : Option Dico) (tirage : Tirage) :
    Except Erreur Instantane := do
  let files ← base.tasks.lignes.mapM fichiersDe
  return {
    id := FileTools.horodate tirage.maintenant ++ "-" ++ tirage.hex
    createdAt := tirage.puis
    reason
    context := context.getD Dico.vide
    tasks := base.tasks.lignes
    runs := base.runs.lignes
    filesTouched := files.flatten.dedup.mergeSort }

inductive Contenu
  | texte (s : String)
  | octets
  | illisible
  deriving DecidableEq

abbrev Dossier := Table (Prod.fst : String × Contenu → String)

def fichier (snapshotId : String) : String := snapshotId ++ ".json"

def Dossier.ecrire (d : Dossier) (p : Instantane) : Dossier :=
  d.deposer (fichier p.id, .texte p.texte)

structure SnapshotInfo where
  id : String
  createdAt : String
  reason : String
  taskCount : Nat
  runCount : Nat
  context : Json

/-- `len(v)`. -/
def longueur : Json → Except Erreur Nat
  | .texte s => .ok s.toList.length
  | .tableau valeurs => .ok valeurs.length
  | .objet items => .ok items.length
  | _ => .error .typeError

def dictionnaire : Json → Except Erreur Items
  | .objet items => .ok items
  | _ => .error .attributeError

/-- `"tasks" in payload`. -/
def contientTasks : Json → Except Erreur Bool
  | .objet items => .ok ("tasks" ∈ items.map Prod.fst)
  | .tableau valeurs => .ok (valeurs.any fun v =>
      match v with
      | .texte s => s = "tasks"
      | _ => false)
  | .texte s => .ok (decide ("tasks".toList <:+: s.toList))
  | _ => .error .typeError

def estJson (nom : String) : Bool := decide (".json".toList <:+ nom.toList)

/-- `path.stem`. -/
def racine (nom : String) : String :=
  if nom = ".json" then nom else String.ofList (nom.toList.take (nom.toList.length - 5))

def entete (nom : String) : Contenu → Except Erreur (Option SnapshotInfo)
  | .illisible => .ok none
  | .octets => .error .unicodeDecodeError
  | .texte s =>
      match Json.lire s.toList with
      | none => .ok none
      | some payload => do
          if ← contientTasks payload then
            let items ← dictionnaire payload
            let id ← refuser (lireOu items "id" (racine nom) Document.texte)
            let createdAt ← refuser (lireOu items "created_at" "" Document.texte)
            let reason ← refuser (lireOu items "reason" "" Document.texte)
            let taskCount ← longueur (Dict.getD items "tasks" (.tableau []))
            let runCount ← longueur (Dict.getD items "workflow_runs" (.tableau []))
            let context := Dict.getD items "context" (.objet [])
            return some { id, createdAt, reason, taskCount, runCount, context }
          else
            return none

def listSnapshots (d : Dossier) : Except Erreur (List SnapshotInfo) := do
  let infos ← (d.lignes.filter fun f => estJson f.1).mapM fun f => entete f.1 f.2
  return (infos.filterMap id).mergeSort fun a b => b.createdAt ≤ a.createdAt

def loadSnapshot (d : Dossier) (snapshotId : String) : Except Erreur Json :=
  match d.lire (fichier snapshotId) with
  | none => .error (.absent snapshotId)
  | some (_, .illisible) => .error .osError
  | some (_, .octets) => .error .unicodeDecodeError
  | some (_, .texte s) =>
      match Json.lire s.toList with
      | some payload => .ok payload
      | none => .error (.corrompu snapshotId)

def texteOuRien : Json → Except Refus (Option String)
  | .null => .ok none
  | v => (Document.texte v).map some

/-- `datetime.fromisoformat(v)`, as the column keeps it. -/
def date : Json → Except Refus DateNaive
  | .texte s =>
      match Horodatage.fromisoformat s.toList with
      | some h => .ok (.de h)
      | none => .error (.valueError "datetime")
  | _ => .error .horsType

/-- The columns of a task that a restore assigns: all of them. -/
def lireTask (data : Items) : Except Refus Task := do
  let id ← lireCle data "id" Document.texte
  let projectId ← lireCle data "project_id" texteOuRien
  let title ← lireCle data "title" Document.texte
  let description ← lireCle data "description" Document.texte
  let objective ← lireCle data "objective" Document.texte
  let status ← lireCle data "status" Document.texte
  let priority ← lireCle data "priority" Document.texte
  let agent ← lireCle data "agent" texteOuRien
  let createdAt ← lireCle data "created_at" date
  let updatedAt ← lireCle data "updated_at" date
  let modelsUsed ← lireCle data "models_used" Document.texte
  let files ← lireCle data "files" Document.texte
  let testResults ← lireCle data "test_results" Document.texte
  let history ← lireCle data "history" Document.texte
  return ⟨id, projectId, title, description, objective, status, priority, agent, createdAt,
    updatedAt, modelsUsed, files, testResults, history⟩

def lireRun (data : Items) : Except Refus WorkflowRunRecord := do
  let id ← lireCle data "id" Document.texte
  let workflowId ← lireCle data "workflow_id" Document.texte
  let projectId ← lireCle data "project_id" texteOuRien
  let status ← lireCle data "status" Document.texte
  let nodeResults ← lireCle data "node_results" Document.texte
  let pendingNodes ← lireCle data "pending_nodes" Document.texte
  let approvedNodes ← lireCle data "approved_nodes" Document.texte
  let createdAt ← lireCle data "created_at" date
  let updatedAt ← lireCle data "updated_at" date
  return ⟨id, workflowId, projectId, status, nodeResults, pendingNodes, approvedNodes, createdAt,
    updatedAt⟩

def entrees (payload : Items) (cle : String) : Except Refus (List Items) :=
  lireOu payload cle [] (liste objet)

def ecrireTous {ρ : Type} {cle : ρ → String} (lire : Items → Except Refus ρ) (t : Table cle)
    (entrees : List Items) : Except Refus (Table cle) :=
  entrees.foldlM (fun t data => (lire data).map t.poser) t

structure RestorePreview where
  snapshotId : String
  tasksRestored : Nat
  tasksOverwritten : List String
  tasksCreated : List String
  tasksAbsentFromSnapshot : List String
  runsRestored : Nat
  deriving DecidableEq

/-- `sorted(set(ids))`. -/
def enOrdre (ids : List String) : List String := ids.dedup.mergeSort

def previewRestore (d : Dossier) (base : Base) (snapshotId : String) :
    Except Erreur RestorePreview := do
  let payload ← loadSnapshot d snapshotId
  let payload ← dictionnaire payload
  let tasks ← refuser (entrees payload "tasks")
  let snapshotTasks ← refuser (tasks.mapM fun data => lireCle data "id" Document.texte)
  let currentIds := base.tasks.lignes.map Task.id
  let runsRestored ← longueur (Dict.getD payload "workflow_runs" (.tableau []))
  return {
    snapshotId
    tasksRestored := snapshotTasks.dedup.length
    tasksOverwritten := enOrdre (snapshotTasks.filter (· ∈ currentIds))
    tasksCreated := enOrdre (snapshotTasks.filter (· ∉ currentIds))
    tasksAbsentFromSnapshot := enOrdre (currentIds.filter (· ∉ snapshotTasks))
    runsRestored }

structure RestoreResult where
  restored : Bool
  snapshotId : String
  verdict : Aegis.Verdict
  reason : String
  tasksRestored : Nat
  runsRestored : Nat
  deriving DecidableEq

def demande (snapshotId : String) (projectId : Option String) : ActionRequest where
  actionType := "data_migration"
  description := "Restore application state from snapshot " ++ snapshotId
  requestingAgent := "snapshot_manager"
  projectId := projectId
  discriminants := [("snapshot", snapshotId)]

/-- The body of the session, up to the commit. -/
def rejouer (base : Base) (payload : Items) : Except Refus (Base × Nat × Nat) := do
  let tasks ← entrees payload "tasks"
  let runs ← entrees payload "workflow_runs"
  let tasks' ← ecrireTous lireTask base.tasks tasks
  let runs' ← ecrireTous lireRun base.runs runs
  return (⟨tasks', runs'⟩, tasks.length, runs.length)

def restoreSnapshot (aegis : ActionRequest → Aegis.Verdict × String) (d : Dossier) (base : Base)
    (snapshotId : String) (projectId : Option String) : Except Erreur RestoreResult × Base :=
  match loadSnapshot d snapshotId with
  | .error e => (.error e, base)
  | .ok payload =>
      match aegis (demande snapshotId projectId) with
      | (.allow, _) =>
          match (dictionnaire payload).bind fun items => refuser (rejouer base items) with
          | .error e => (.error e, base)
          | .ok (base', tasksRestored, runsRestored) =>
              (.ok {
                restored := true
                snapshotId
                verdict := .allow
                reason := ""
                tasksRestored
                runsRestored }, base')
      | (verdict, reason) =>
          (.ok {
            restored := false
            snapshotId
            verdict
            reason
            tasksRestored := 0
            runsRestored := 0 }, base)

/-- `l[k:]`. -/
def aPartir {α : Type} (k : Int) (l : List α) : List α :=
  if 0 ≤ k then l.drop k.toNat else l.drop (l.length - k.natAbs)

def supprimer (verrou : String → Bool) (d : Dossier) : List SnapshotInfo → List String × Dossier
  | [] => ([], d)
  | info :: infos =>
      if (d.lire (fichier info.id)).isSome && !verrou (fichier info.id) then
        let (removed, d') := supprimer verrou (d.retirer (fichier info.id)) infos
        (info.id :: removed, d')
      else supprimer verrou d infos

def pruneSnapshots (snapshotKeep : Int) (verrou : String → Bool) (d : Dossier)
    (keep : Option Int) : Except Erreur (List String) × Dossier :=
  match listSnapshots d with
  | .error e => (.error e, d)
  | .ok snapshots =>
      let (removed, d') := supprimer verrou d (aPartir (keep.getD snapshotKeep) snapshots)
      (.ok removed, d')

section Relecture

variable {d : Dossier} {p : Instantane}

theorem valide_texteOuNull (o : Option String) : (texteOuNull o).Valide := by
  cases o <;> trivial

theorem valide_dateNaive (d : DateNaive) : d.json.Valide := trivial

theorem valide_taskToDict (t : Task) : (Json.objet (taskToDict t)).Valide :=
  valide_objet (by simp [taskToDict]) (by simp [taskToDict, valide_texteOuNull, valide_dateNaive])

theorem valide_runToDict (r : WorkflowRunRecord) : (Json.objet (runToDict r)).Valide :=
  valide_objet (by simp [runToDict]) (by simp [runToDict, valide_texteOuNull, valide_dateNaive])

theorem valide_payload (p : Instantane) : (Json.objet p.payload).Valide := by
  have htasks := valeursValides_map fun t (_ : t ∈ p.tasks) => valide_taskToDict t
  have hruns := valeursValides_map fun r (_ : r ∈ p.runs) => valide_runToDict r
  have hversion : (Json.entier SNAPSHOT_VERSION).Valide := trivial
  refine valide_objet (by simp [Instantane.payload]) ?_
  simp [Instantane.payload, htasks, hruns, hversion, p.context.valide]

theorem lire_texte_instantane (p : Instantane) :
    Json.lire p.texte.toList = some (.objet p.payload) :=
  Json.lire_dumpsIndenteBrut 2 (valide_payload p)

theorem texteOuRien_texteOuNull (o : Option String) : texteOuRien (texteOuNull o) = .ok o := by
  cases o <;> rfl

theorem date_json (d : DateNaive) : date d.json = .ok d := by
  obtain ⟨⟨champs, valide⟩, naive⟩ := d
  have hchamps : { champs with decalage := none } = champs := by
    rw [← naive]
  simp only [date, DateNaive.json, String.toList_ofList, Horodatage.fromisoformat_isoformat,
    DateNaive.de, hchamps]

theorem lireTask_taskToDict (t : Task) : lireTask (taskToDict t) = .ok t := by
  simp [lireTask, taskToDict, lireCle, Dict.get?_cons, texteOuRien_texteOuNull, date_json]

theorem lireRun_runToDict (r : WorkflowRunRecord) : lireRun (runToDict r) = .ok r := by
  simp [lireRun, runToDict, lireCle, Dict.get?_cons, texteOuRien_texteOuNull, date_json]

theorem liste_objet {α : Type} (ecrire : α → Items) (l : List α) :
    liste objet (.tableau (l.map fun a => .objet (ecrire a))) = .ok (l.map ecrire) := by
  have hcompose : (l.map fun a => Json.objet (ecrire a)) = (l.map ecrire).map Json.objet := by
    rw [List.map_map]
    rfl
  rw [hcompose]
  exact liste_tableau fun items _ => objet_objet items

theorem entrees_tasks (p : Instantane) : entrees p.payload "tasks" = .ok (p.tasks.map taskToDict) :=
  (lireOu_eq (by simp [Instantane.payload, Dict.get?_cons])).trans (liste_objet taskToDict p.tasks)

theorem entrees_runs (p : Instantane) :
    entrees p.payload "workflow_runs" = .ok (p.runs.map runToDict) :=
  (lireOu_eq (by simp [Instantane.payload, Dict.get?_cons])).trans (liste_objet runToDict p.runs)

theorem ecrireTous_map {ρ : Type} {cle : ρ → String} {lire : Items → Except Refus ρ}
    {ecrire : ρ → Items} (h : ∀ r, lire (ecrire r) = .ok r) (t : Table cle) (rs : List ρ) :
    ecrireTous lire t (rs.map ecrire) = .ok (rs.foldl Table.poser t) := by
  unfold ecrireTous
  induction rs generalizing t with
  | nil => rfl
  | cons r rs ih =>
      rw [List.map_cons, List.foldlM_cons, h r]
      exact ih (t.poser r)

theorem rejouer_payload (base : Base) (p : Instantane) :
    rejouer base p.payload = .ok (⟨p.tasks.foldl Table.poser base.tasks,
      p.runs.foldl Table.poser base.runs⟩, p.tasks.length, p.runs.length) := by
  rw [rejouer, entrees_tasks, entrees_runs]
  simp only [ok_bind, ecrireTous_map lireTask_taskToDict, ecrireTous_map lireRun_runToDict,
    pure_eq_ok, List.length_map]

/-- The file of a snapshot holds what was written. -/
def Garde (d : Dossier) (p : Instantane) : Prop :=
  d.lire (fichier p.id) = some (fichier p.id, .texte p.texte)

theorem loadSnapshot_garde (h : Garde d p) : loadSnapshot d p.id = .ok (.objet p.payload) := by
  rw [loadSnapshot, h]
  dsimp only
  rw [lire_texte_instantane]

theorem restore_permise {aegis : ActionRequest → Aegis.Verdict × String} {projectId : Option String}
    (h : Garde d p) (hpermis : (aegis (demande p.id projectId)).1 = .allow) (base : Base) :
    restoreSnapshot aegis d base p.id projectId =
      (.ok ⟨true, p.id, .allow, "", p.tasks.length, p.runs.length⟩,
        ⟨p.tasks.foldl Table.poser base.tasks, p.runs.foldl Table.poser base.runs⟩) := by
  unfold restoreSnapshot
  rw [loadSnapshot_garde h]
  dsimp only
  split
  · have hrejoue : (dictionnaire (.objet p.payload)).bind (fun items =>
        refuser (rejouer base items)) = refuser (rejouer base p.payload) := rfl
    rw [hrejoue, rejouer_payload]
    rfl
  · next hautre heq =>
      rw [heq] at hpermis
      exact absurd hpermis hautre

theorem restore_sans_effet {aegis : ActionRequest → Aegis.Verdict × String} {base : Base}
    {snapshotId : String} {projectId : Option String}
    (h : (aegis (demande snapshotId projectId)).1 ≠ .allow ∨
      ∀ payload, loadSnapshot d snapshotId ≠ .ok payload) :
    (restoreSnapshot aegis d base snapshotId projectId).2 = base := by
  unfold restoreSnapshot
  split
  · rfl
  · next payload hload =>
      split
      · next raison hverdict =>
          rw [hverdict] at h
          exact absurd h (by simp [hload])
      · rfl

theorem restore_erreur {aegis : ActionRequest → Aegis.Verdict × String} {base : Base}
    {snapshotId : String} {projectId : Option String} {e : Erreur}
    (h : (restoreSnapshot aegis d base snapshotId projectId).1 = .error e) :
    (restoreSnapshot aegis d base snapshotId projectId).2 = base := by
  unfold restoreSnapshot at h ⊢
  split
  · rfl
  · next payload hload =>
      rw [hload] at h
      split
      · next raison hverdict =>
          rw [hverdict] at h
          split
          · rfl
          · next heq =>
              dsimp only at h
              rw [heq] at h
              cases h
      · rfl

theorem mem_enOrdre {ids : List String} {id : String} : id ∈ enOrdre ids ↔ id ∈ ids := by
  rw [enOrdre, List.mem_mergeSort, List.mem_dedup]

theorem mapM_id (ts : List Task) :
    (ts.map taskToDict).mapM (fun data => lireCle data "id" Document.texte) =
      (.ok (ts.map Task.id) : Except Refus (List String)) := by
  induction ts with
  | nil => rfl
  | cons t ts ih =>
      have hget : Dict.get? (taskToDict t) "id" = some (.texte t.id) := rfl
      have hid : lireCle (taskToDict t) "id" Document.texte = .ok t.id := lireCle_eq hget
      rw [List.map_cons, List.mapM_cons, hid, ih]
      rfl

def apercu (base : Base) (p : Instantane) : RestorePreview where
  snapshotId := p.id
  tasksRestored := (p.tasks.map Task.id).dedup.length
  tasksOverwritten :=
    enOrdre ((p.tasks.map Task.id).filter (· ∈ base.tasks.lignes.map Task.id))
  tasksCreated := enOrdre ((p.tasks.map Task.id).filter (· ∉ base.tasks.lignes.map Task.id))
  tasksAbsentFromSnapshot :=
    enOrdre ((base.tasks.lignes.map Task.id).filter (· ∉ p.tasks.map Task.id))
  runsRestored := p.runs.length

theorem previewRestore_garde (h : Garde d p) (base : Base) :
    previewRestore d base p.id = .ok (apercu base p) := by
  have hruns : longueur (Dict.getD p.payload "workflow_runs" (.tableau [])) =
      .ok p.runs.length := by
    simp [Instantane.payload, Dict.getD_cons, longueur]
  rw [previewRestore, loadSnapshot_garde h]
  simp only [ok_bind, dictionnaire, entrees_tasks, refuser, mapM_id, hruns, pure_eq_ok]
  rfl

end Relecture

def Prise (base : Base) (p : Instantane) : Prop :=
  ∃ reason context tirage, createSnapshot base reason context tirage = .ok p

/-- Every captured row is what it was, and every other one as it stands. -/
structure Restituee (capture avant apres : Base) : Prop where
  tasks : ∀ id, apres.tasks.lire id = (capture.tasks.lire id).or (avant.tasks.lire id)
  runs : ∀ id, apres.runs.lire id = (capture.runs.lire id).or (avant.runs.lire id)

/-- The preview announces the rows of the tasks that are written, and no others. -/
structure Annoncee (capture avant apres : Base) (apercu : RestorePreview) : Prop where
  ecrasees : ∀ id, id ∈ apercu.tasksOverwritten ↔
    (capture.tasks.lire id).isSome = true ∧ (avant.tasks.lire id).isSome = true
  creees : ∀ id, id ∈ apercu.tasksCreated ↔
    (capture.tasks.lire id).isSome = true ∧ avant.tasks.lire id = none
  ecrites : ∀ id, id ∈ apercu.tasksOverwritten ∨ id ∈ apercu.tasksCreated →
    apres.tasks.lire id = capture.tasks.lire id
  intactes : ∀ id, id ∉ apercu.tasksOverwritten → id ∉ apercu.tasksCreated →
    apres.tasks.lire id = avant.tasks.lire id

section Restitution

variable {base avant : Base} {p : Instantane}

theorem Prise.lignes (h : Prise base p) :
    p.tasks = base.tasks.lignes ∧ p.runs = base.runs.lignes ∧ p.createdAt.champs.decalage = some 0 := by
  obtain ⟨reason, context, tirage, hcreer⟩ := h
  unfold createSnapshot at hcreer
  obtain ⟨files, -, hp⟩ := bind_eq_ok.mp hcreer
  cases hp
  exact ⟨rfl, rfl, tirage.utc⟩

def restauree (avant : Base) (p : Instantane) : Base :=
  ⟨p.tasks.foldl Table.poser avant.tasks, p.runs.foldl Table.poser avant.runs⟩

theorem restituee_restauree (h : Prise base p) (avant : Base) :
    Restituee base avant (restauree avant p) := by
  obtain ⟨htasks, hruns, -⟩ := h.lignes
  refine ⟨fun id => ?_, fun id => ?_⟩
  · rw [restauree, htasks, Table.lire_foldl_poser _ base.tasks.uniques]
    rfl
  · rw [restauree, hruns, Table.lire_foldl_poser _ base.runs.uniques]
    rfl

theorem mem_ids_iff {ρ : Type} {cle : ρ → String} (t : Table cle) (id : String) :
    id ∈ t.lignes.map cle ↔ (t.lire id).isSome = true := by
  rw [Option.isSome_iff_ne_none, ne_eq, Table.lire_eq_none, not_not]

theorem annoncee_apercu (h : Prise base p) (avant : Base) :
    Annoncee base avant (restauree avant p) (apercu avant p) := by
  obtain ⟨htasks, -, -⟩ := h.lignes
  have hrestituee := (restituee_restauree h avant).tasks
  have hecrasees : ∀ id, id ∈ (apercu avant p).tasksOverwritten ↔
      (base.tasks.lire id).isSome = true ∧ (avant.tasks.lire id).isSome = true := by
    intro id
    rw [apercu, mem_enOrdre, List.mem_filter, htasks, mem_ids_iff, decide_eq_true_eq, mem_ids_iff]
  have hcreees : ∀ id, id ∈ (apercu avant p).tasksCreated ↔
      (base.tasks.lire id).isSome = true ∧ avant.tasks.lire id = none := by
    intro id
    rw [apercu, mem_enOrdre, List.mem_filter, htasks, mem_ids_iff, decide_eq_true_eq, mem_ids_iff,
      Bool.not_eq_true, Option.isSome_eq_false_iff, Option.isNone_iff_eq_none]
  refine ⟨hecrasees, hcreees, fun id hid => ?_, fun id hover hcree => ?_⟩
  · have hprise : (base.tasks.lire id).isSome = true := by
      cases hid with
      | inl hid => exact ((hecrasees id).mp hid).1
      | inr hid => exact ((hcreees id).mp hid).1
    rw [hrestituee id, Option.or_of_isSome hprise]
  · have hlibre : base.tasks.lire id = none := by
      by_contra hprise
      rw [← ne_eq, ← Option.isSome_iff_ne_none] at hprise
      cases havant : avant.tasks.lire id with
      | none => exact hcree ((hcreees id).mpr ⟨hprise, havant⟩)
      | some t => exact hover ((hecrasees id).mpr ⟨hprise, by rw [havant]; rfl⟩)
    rw [hrestituee id, hlibre, Option.none_or]

end Restitution

/-- A directory reached by snapshots, by files that are no snapshot, and by removals. -/
inductive Atteint : Dossier → Prop
  | vide : Atteint Table.vide
  | prise {d : Dossier} {base : Base} {p : Instantane} (h : Atteint d) (hp : Prise base p) :
      Atteint (d.ecrire p)
  | autre {d : Dossier} {nom : String} {contenu : Contenu} (h : Atteint d)
      (hautre : estJson nom = true → ∀ info, entete nom contenu ≠ .ok (some info)) :
      Atteint (d.deposer (nom, contenu))
  | retrait {d : Dossier} (h : Atteint d) (nom : String) : Atteint (d.retirer nom)

def Instantane.info (p : Instantane) : SnapshotInfo where
  id := p.id
  createdAt := String.ofList p.createdAt.isoformat
  reason := p.reason
  taskCount := p.tasks.length
  runCount := p.runs.length
  context := .objet p.context.items

theorem createdAt_info (p : Instantane) :
    p.info.createdAt = String.ofList p.createdAt.isoformat := rfl

/-- This is the header of a snapshot, whose file is in the directory. -/
def Connue (d : Dossier) (info : SnapshotInfo) : Prop :=
  ∃ base p, Prise base p ∧ info = p.info ∧ Garde d p

section Dossiers

variable {d : Dossier}

theorem entete_texte (nom : String) (p : Instantane) :
    entete nom (.texte p.texte) = .ok (some p.info) := by
  rw [entete, lire_texte_instantane]
  simp [contientTasks, Instantane.payload, dictionnaire, lireOu, Dict.get?_cons, Dict.getD_cons,
    refuser, longueur, Instantane.info]

theorem connue_of_atteint (h : Atteint d) : ∀ f ∈ d.lignes, estJson f.1 = true →
    ∀ info, entete f.1 f.2 = .ok (some info) →
      ∃ base p, Prise base p ∧ info = p.info ∧ f = (fichier p.id, .texte p.texte) := by
  induction h with
  | vide => exact fun f hf => absurd hf List.not_mem_nil
  | prise h hp ih =>
      intro f hf hjson info hinfo
      cases List.mem_append.mp hf with
      | inl hf => exact ih f (List.mem_of_mem_filter hf) hjson info hinfo
      | inr hf =>
          rw [List.mem_singleton.mp hf] at hinfo ⊢
          rw [entete_texte, Except.ok.injEq, Option.some.injEq] at hinfo
          exact ⟨_, _, hp, hinfo.symm, rfl⟩
  | autre h hautre ih =>
      intro f hf hjson info hinfo
      cases List.mem_append.mp hf with
      | inl hf => exact ih f (List.mem_of_mem_filter hf) hjson info hinfo
      | inr hf =>
          rw [List.mem_singleton.mp hf] at hjson hinfo
          exact absurd hinfo (hautre hjson info)
  | retrait h nom ih =>
      exact fun f hf => ih f (List.mem_of_mem_filter hf)

theorem noms_sublist {fs : List (String × Contenu)} {lus : List (Option SnapshotInfo)}
    (hlus : fs.mapM (fun f => entete f.1 f.2) = .ok lus)
    (hnoms : ∀ f ∈ fs, ∀ info, entete f.1 f.2 = .ok (some info) → f.1 = fichier info.id) :
    ((lus.filterMap id).map fun info => fichier info.id).Sublist (fs.map Prod.fst) := by
  induction fs generalizing lus with
  | nil =>
      cases hlus
      exact List.Sublist.slnil
  | cons f fs ih =>
      rw [List.mapM_cons] at hlus
      obtain ⟨lu, hlu, hlus⟩ := bind_eq_ok.mp hlus
      obtain ⟨reste, hreste, hlus⟩ := bind_eq_ok.mp hlus
      cases hlus
      have hsuite := ih hreste fun g hg => hnoms g (List.mem_cons_of_mem f hg)
      cases lu with
      | none => exact hsuite.cons f.1
      | some info =>
          rw [List.map_cons, hnoms f List.mem_cons_self info hlu]
          exact hsuite.cons_cons (fichier info.id)

theorem exists_of_mem_lus {fs : List (String × Contenu)} {lus : List (Option SnapshotInfo)}
    (hlus : fs.mapM (fun f => entete f.1 f.2) = .ok lus) {info : SnapshotInfo}
    (hinfo : some info ∈ lus) : ∃ f ∈ fs, entete f.1 f.2 = .ok (some info) := by
  induction fs generalizing lus with
  | nil =>
      cases hlus
      exact absurd hinfo List.not_mem_nil
  | cons f fs ih =>
      rw [List.mapM_cons] at hlus
      obtain ⟨lu, hlu, hlus⟩ := bind_eq_ok.mp hlus
      obtain ⟨reste, hreste, hlus⟩ := bind_eq_ok.mp hlus
      cases hlus
      cases List.mem_cons.mp hinfo with
      | inl hinfo => exact ⟨f, List.mem_cons_self, by rw [hlu, hinfo]⟩
      | inr hinfo =>
          obtain ⟨g, hg, hlu'⟩ := ih hreste hinfo
          exact ⟨g, List.mem_cons_of_mem f hg, hlu'⟩

theorem listSnapshots_spec (h : Atteint d) {infos : List SnapshotInfo}
    (hliste : listSnapshots d = .ok infos) :
    (∀ info ∈ infos, Connue d info) ∧ (infos.map fun info => fichier info.id).Nodup ∧
      infos.Pairwise fun a b => b.createdAt ≤ a.createdAt := by
  unfold listSnapshots at hliste
  obtain ⟨lus, hlus, hliste⟩ := bind_eq_ok.mp hliste
  cases hliste
  have hconnue := connue_of_atteint h
  refine ⟨fun info hinfo => ?_, ?_, ?_⟩
  · rw [List.mem_mergeSort, List.mem_filterMap] at hinfo
    obtain ⟨lu, hlu, hid⟩ := hinfo
    rw [id_eq] at hid
    rw [hid] at hlu
    obtain ⟨f, hf, hentete⟩ := exists_of_mem_lus hlus hlu
    obtain ⟨hf, hjson⟩ := List.mem_filter.mp hf
    obtain ⟨base, p, hp, hinfo, hforme⟩ := hconnue f hf hjson info hentete
    refine ⟨base, p, hp, hinfo, ?_⟩
    rw [hforme] at hf
    exact Table.lire_of_mem hf
  · have hperm := (List.mergeSort_perm (lus.filterMap id)
      fun a b : SnapshotInfo => b.createdAt ≤ a.createdAt).map fun info => fichier info.id
    rw [hperm.nodup_iff]
    refine (noms_sublist hlus fun f hf info hentete => ?_).nodup
      (d.uniques.sublist (List.filter_sublist.map Prod.fst))
    obtain ⟨hf, hjson⟩ := List.mem_filter.mp hf
    obtain ⟨base, p, -, hinfo, hforme⟩ := hconnue f hf hjson info hentete
    rw [hforme, hinfo]
    rfl
  · have htrie := @List.pairwise_mergeSort SnapshotInfo
      (fun a b => decide (b.createdAt ≤ a.createdAt))
      (fun a b c hab hbc => decide_eq_true
        (String.le_trans (of_decide_eq_true hbc) (of_decide_eq_true hab)))
      (fun a b => by
        rw [Bool.or_eq_true, decide_eq_true_eq, decide_eq_true_eq]
        exact String.le_total _ _) (lus.filterMap id)
    exact htrie.imp fun h => of_decide_eq_true h

theorem supprimer_spec (verrou : String → Bool) (d : Dossier) (infos : List SnapshotInfo) :
    (∀ id ∈ (supprimer verrou d infos).1, ∃ info ∈ infos, info.id = id) ∧
      ∀ nom, (supprimer verrou d infos).2.lire nom = d.lire nom ∨
        (supprimer verrou d infos).2.lire nom = none ∧
          ∃ id ∈ (supprimer verrou d infos).1, nom = fichier id := by
  induction infos generalizing d with
  | nil => exact ⟨fun id hid => absurd hid List.not_mem_nil, fun nom => Or.inl rfl⟩
  | cons info infos ih =>
      rw [supprimer]
      split
      · obtain ⟨hretires, hfichiers⟩ := ih (d.retirer (fichier info.id))
        refine ⟨fun id hid => ?_, fun nom => ?_⟩
        · cases List.mem_cons.mp hid with
          | inl hid => exact ⟨info, List.mem_cons_self, hid.symm⟩
          | inr hid =>
              obtain ⟨info', hinfo', hegal⟩ := hretires id hid
              exact ⟨info', List.mem_cons_of_mem info hinfo', hegal⟩
        · cases hfichiers nom with
          | inl hmeme =>
              rw [Table.lire_retirer] at hmeme
              split at hmeme
              · next hnom => exact Or.inr ⟨hmeme, info.id, List.mem_cons_self, hnom⟩
              · exact Or.inl hmeme
          | inr hparti =>
              obtain ⟨hvide, id, hid, hnom⟩ := hparti
              exact Or.inr ⟨hvide, id, List.mem_cons_of_mem info.id hid, hnom⟩
      · obtain ⟨hretires, hfichiers⟩ := ih d
        refine ⟨fun id hid => ?_, hfichiers⟩
        obtain ⟨info', hinfo', hegal⟩ := hretires id hid
        exact ⟨info', List.mem_cons_of_mem info hinfo', hegal⟩

end Dossiers

/-- What a pruning of all but the `k` first headers does. -/
structure Elaguee (d d' : Dossier) (k : Nat) (infos : List SnapshotInfo) (removed : List String) :
    Prop where
  retirees : ∀ id ∈ removed, ∃ info ∈ infos.drop k, info.id = id ∧ Connue d info
  fichiers : ∀ nom, d'.lire nom = d.lire nom ∨
    d'.lire nom = none ∧ ∃ id ∈ removed, nom = fichier id
  gardees : ∀ info ∈ infos.take k, Connue d info ∧ Connue d' info
  ordre : ∀ p q : Instantane, p.info ∈ infos.take k → q.info ∈ infos.drop k →
    p.createdAt.champs.decalage = some 0 → q.createdAt.champs.decalage = some 0 →
      q.createdAt.champs.instant ≤ p.createdAt.champs.instant

theorem pairwise_take_drop {α : Type*} {r : α → α → Prop} {l : List α} (h : l.Pairwise r) (k : Nat)
    {a b : α} (ha : a ∈ l.take k) (hb : b ∈ l.drop k) : r a b := by
  rw [← List.take_append_drop k l] at h
  exact (List.pairwise_append.mp h).2.2 a ha b hb

theorem instant_le_of_texte {p q : Horodatage} (hp : p.champs.decalage = some 0)
    (hq : q.champs.decalage = some 0)
    (h : String.ofList q.isoformat ≤ String.ofList p.isoformat) :
    q.champs.instant ≤ p.champs.instant := by
  have htexte : ¬p.isoformat < q.isoformat := by
    rw [← String.not_lt, String.lt_iff, String.toList_ofList, String.toList_ofList] at h
    exact h
  rw [Horodatage.utc_lt_iff hp hq, Horodatage.repere_utc hq] at htexte
  omega

theorem elaguee_supprimer {d : Dossier} (h : Atteint d) {infos : List SnapshotInfo}
    (hliste : listSnapshots d = .ok infos) (verrou : String → Bool) (k : Nat) :
    Elaguee d (supprimer verrou d (infos.drop k)).2 k infos
      (supprimer verrou d (infos.drop k)).1 := by
  obtain ⟨hconnues, hnoms, htriees⟩ := listSnapshots_spec h hliste
  obtain ⟨hretires, hfichiers⟩ := supprimer_spec verrou d (infos.drop k)
  refine ⟨fun id hid => ?_, hfichiers, fun info hinfo => ?_, fun p q hp hq hdp hdq => ?_⟩
  · obtain ⟨info, hinfo, hegal⟩ := hretires id hid
    exact ⟨info, hinfo, hegal, hconnues info (List.mem_of_mem_drop hinfo)⟩
  · have hconnue := hconnues info (List.mem_of_mem_take hinfo)
    refine ⟨hconnue, ?_⟩
    obtain ⟨base, p, hp, hforme, hgarde⟩ := hconnue
    refine ⟨base, p, hp, hforme, ?_⟩
    cases hfichiers (fichier p.id) with
    | inl hmeme => exact hmeme.trans hgarde
    | inr hparti =>
        -- the name of a file that left is not the name of one that stays
        obtain ⟨-, id, hid, hnom⟩ := hparti
        obtain ⟨parti, hparti, hegal⟩ := hretires id hid
        have hdistincts := pairwise_take_drop (List.pairwise_map.mp hnoms) k hinfo hparti
        rw [hforme, hegal] at hdistincts
        exact absurd hnom hdistincts
  · have htextes : q.info.createdAt ≤ p.info.createdAt := pairwise_take_drop htriees k hp hq
    rw [createdAt_info, createdAt_info] at htextes
    exact instant_le_of_texte hdp hdq htextes

/-- An allowed restore gives the captured rows back, touches the tasks that the preview announced
and no other row; one that is refused or unreadable changes nothing; and pruning keeps the `k` most
recent snapshots as they were. -/
theorem instantanes_fideles (aegis : ActionRequest → Aegis.Verdict × String)
    (projectId : Option String) (d : Dossier) (avant : Base) :
    (∀ capture p, Prise capture p → Garde d p →
      ∃ apercu, previewRestore d avant p.id = .ok apercu ∧
        ((aegis (demande p.id projectId)).1 = .allow → ∃ r apres,
          restoreSnapshot aegis d avant p.id projectId = (.ok r, apres) ∧ r.restored = true ∧
            Restituee capture avant apres ∧ Annoncee capture avant apres apercu)) ∧
      (∀ snapshotId, ((aegis (demande snapshotId projectId)).1 ≠ .allow ∨
          (∀ payload, loadSnapshot d snapshotId ≠ .ok payload) ∨
          ∃ e, (restoreSnapshot aegis d avant snapshotId projectId).1 = .error e) →
        (restoreSnapshot aegis d avant snapshotId projectId).2 = avant) ∧
      (Atteint d → ∀ (snapshotKeep : Int) (verrou : String → Bool) (k : Nat),
        (∃ e, pruneSnapshots snapshotKeep verrou d (some k) = (.error e, d)) ∨
        ∃ infos removed d', listSnapshots d = .ok infos ∧
          pruneSnapshots snapshotKeep verrou d (some k) = (.ok removed, d') ∧
          Elaguee d d' k infos removed) := by
  refine ⟨fun capture p hp hgarde => ?_, fun snapshotId h => ?_, fun h snapshotKeep verrou k => ?_⟩
  · refine ⟨apercu avant p, previewRestore_garde hgarde avant, fun hpermis => ?_⟩
    exact ⟨_, restauree avant p, restore_permise hgarde hpermis avant, rfl,
      restituee_restauree hp avant, annoncee_apercu hp avant⟩
  · cases h with
    | inl hrefus => exact restore_sans_effet (Or.inl hrefus)
    | inr h =>
        cases h with
        | inl hillisible => exact restore_sans_effet (Or.inr hillisible)
        | inr herreur =>
            obtain ⟨e, he⟩ := herreur
            exact restore_erreur he
  · unfold pruneSnapshots
    cases hliste : listSnapshots d with
    | error e => exact Or.inl ⟨e, rfl⟩
    | ok infos =>
        have hdrop : aPartir (k : Int) infos = infos.drop k := by
          rw [aPartir, if_pos (Int.natCast_nonneg k), Int.toNat_natCast]
        refine Or.inr ⟨infos, _, _, rfl, rfl, ?_⟩
        rw [Option.getD_some, hdrop]
        exact elaguee_supprimer h hliste verrou k

def date2026 (jour : Nat) (decalage : Option Int)
    (h : (⟨2026, 1, jour, 8, 30, 0, 0, decalage⟩ : Champs).Valide) : Horodatage := ⟨_, h⟩

def hier : DateNaive := ⟨date2026 1 none (by decide), rfl⟩

def tirageDu (jour : Nat) (h : (⟨2026, 1, jour, 8, 30, 0, 0, some 0⟩ : Champs).Valide) : Tirage where
  maintenant := date2026 jour (some 0) h
  puis := date2026 jour (some 0) h
  utc := rfl
  hex := "0123abcd"

def tache (id status : String) : Task :=
  ⟨id, none, "Tâche", "", "", status, "medium", none, hier, hier, "[]", "[]", "null", "[]"⟩

def baseDe (t : Task) : Base := ⟨⟨[t], List.nodup_singleton _⟩, Table.vide⟩

def instantaneDu (jour : Nat) (h : (⟨2026, 1, jour, 8, 30, 0, 0, some 0⟩ : Champs).Valide) :
    Instantane where
  id := FileTools.horodate (tirageDu jour h).maintenant ++ "-" ++ "0123abcd"
  createdAt := (tirageDu jour h).puis
  reason := ""
  context := Dico.vide
  tasks := [tache "a" "todo"]
  runs := []
  filesTouched := []

theorem prise_instantaneDu (jour : Nat)
    (h : (⟨2026, 1, jour, 8, 30, 0, 0, some 0⟩ : Champs).Valide) :
    Prise (baseDe (tache "a" "todo")) (instantaneDu jour h) := by
  have hfichiers : fichiersDe (tache "a" "todo") = .ok [] := by
    rfl
  refine ⟨"", none, tirageDu jour h, ?_⟩
  simp [createSnapshot, baseDe, hfichiers, instantaneDu, tirageDu, Table.vide]

def instantaneDuDeux : Instantane := instantaneDu 2 (by decide)

def deuxInstantanes : Dossier :=
  Dossier.ecrire (Dossier.ecrire Table.vide (instantaneDu 1 (by decide))) instantaneDuDeux

theorem atteint_deuxInstantanes : Atteint deuxInstantanes :=
  .prise (.prise .vide (prise_instantaneDu 1 (by decide))) (prise_instantaneDu 2 (by decide))

theorem garde_ecrire (d : Dossier) (p : Instantane) : Garde (d.ecrire p) p := by
  rw [Garde, Dossier.ecrire, Table.lire_deposer, if_pos rfl]

theorem instantanes_fideles_retour :
    (∃ apercu, previewRestore deuxInstantanes (baseDe (tache "a" "done")) instantaneDuDeux.id =
        .ok apercu ∧ ∃ r apres, restoreSnapshot (fun _ => (.allow, "")) deuxInstantanes
          (baseDe (tache "a" "done")) instantaneDuDeux.id none = (.ok r, apres) ∧
        r.restored = true ∧
        Restituee (baseDe (tache "a" "todo")) (baseDe (tache "a" "done")) apres ∧
        Annoncee (baseDe (tache "a" "todo")) (baseDe (tache "a" "done")) apres apercu) ∧
      (restoreSnapshot (fun _ => (.deny, "non")) deuxInstantanes (baseDe (tache "a" "done"))
        instantaneDuDeux.id none).2 = baseDe (tache "a" "done") ∧
      ((∃ e, pruneSnapshots 10 (fun _ => false) deuxInstantanes (some (1 : Nat)) =
          (.error e, deuxInstantanes)) ∨
        ∃ infos removed d', listSnapshots deuxInstantanes = .ok infos ∧
          pruneSnapshots 10 (fun _ => false) deuxInstantanes (some (1 : Nat)) = (.ok removed, d') ∧
          Elaguee deuxInstantanes d' 1 infos removed) := by
  refine ⟨?_, ?_, ?_⟩
  · obtain ⟨apercu, hapercu, hrestore⟩ := (instantanes_fideles (fun _ => (.allow, "")) none
      deuxInstantanes (baseDe (tache "a" "done"))).1 (baseDe (tache "a" "todo")) instantaneDuDeux
      (prise_instantaneDu 2 (by decide)) (garde_ecrire _ _)
    exact ⟨apercu, hapercu, hrestore rfl⟩
  · exact (instantanes_fideles (fun _ => (.deny, "non")) none deuxInstantanes
      (baseDe (tache "a" "done"))).2.1 instantaneDuDeux.id (Or.inl (by decide))
  · exact (instantanes_fideles (fun _ => (.allow, "")) none deuxInstantanes
      (baseDe (tache "a" "done"))).2.2 atteint_deuxInstantanes 10 (fun _ => false) 1

end Hermes.SnapshotManager
