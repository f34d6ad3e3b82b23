import Hermes.Lib.Document
import Hermes.Runs.Contrat

/-! # What crosses a change of model

A relay carries the context of a mission from one phase to the next, and it crosses a process
boundary as JSON. Its contract has a form of its own, in which the members of the enumerations are
their values.
-/

namespace Hermes

open Lib Document

/-- The contract with what its verification does not read. -/
structure ContratDeMission extends Contrat where
  ressourcesAutorisees : List String := []
  conditionsDArret : List String := []
  budget : Items := []
  niveauDeRisque : String := "moyen"

namespace Passage

structure Artefact where
  chemin : String
  phase : String := ""
  verdict : String := ""
  deriving DecidableEq

structure Preuve where
  source : String
  constat : String
  verdict : String := "indisponible"
  deriving DecidableEq

structure Relais where
  mission : String := ""
  run : String := ""
  objectif : String := ""
  workspace : String := ""
  contrat : Option ContratDeMission := none
  artefacts : List Artefact := []
  preuves : List Preuve := []
  decisions : List String := []
  amont : String := ""
  outils : List String := []
  memoire : List String := []
  echec : String := ""
  cause : String := ""

end Passage

def Genre.membres : List (String × Genre) :=
  [("acceptation", .acceptation), ("non_objectif", .nonObjectif), ("contrainte", .contrainte)]

def Genre.value : Genre → String
  | acceptation => "acceptation"
  | nonObjectif => "non_objectif"
  | contrainte => "contrainte"

def EtatCritere.membres : List (String × EtatCritere) :=
  [("non_atteint", .nonAtteint), ("atteint", .atteint), ("inverifiable", .inverifiable),
    ("viole", .viole)]

def EtatCritere.value : EtatCritere → String
  | nonAtteint => "non_atteint"
  | atteint => "atteint"
  | inverifiable => "inverifiable"
  | viole => "viole"

def Critere.toDict (c : Critere) : Items :=
  [("identifiant", .texte c.identifiant), ("texte", .texte c.texte),
    ("genre", .texte c.genre.value), ("verificateur", .texte c.verificateur),
    ("etat", .texte c.etat.value)]

/-- `uuid` is what is drawn for a criterion without a name. -/
def Critere.fromDict (uuid : String) (d : Items) : Except Refus Critere := do
  let texte ← lireCle d "texte" Document.texte
  let genre ← lireOu d "genre" .acceptation (membre "Genre" Genre.membres)
  let verificateur ← lireOu d "verificateur" "" Document.texte
  let etat ← lireOu d "etat" .nonAtteint (membre "EtatCritere" EtatCritere.membres)
  let identifiant ← lireVraiOu d "identifiant" uuid Document.texte
  return { texte, genre, verificateur, etat, identifiant }

namespace ContratDeMission

def toDict (c : ContratDeMission) : Items :=
  [("objectif", .texte c.objectif),
    ("criteres", .tableau (c.criteres.map fun critere => .objet critere.toDict)),
    ("ressources_autorisees", textes c.ressourcesAutorisees),
    ("conditions_d_arret", textes c.conditionsDArret), ("budget", .objet c.budget),
    ("niveau_de_risque", .texte c.niveauDeRisque)]

/-- `uuids` are the draws for the criteria, by rank. -/
def fromDict (uuids : Nat → String) (d : Items) : Except Refus ContratDeMission := do
  let objectif ← lireOu d "objectif" "" texte
  let criteres ← lireVraiOu d "criteres" []
    (listeRangee fun rang c => objet c >>= Critere.fromDict (uuids rang))
  let ressourcesAutorisees ← lireVraiOu d "ressources_autorisees" [] (liste texte)
  let conditionsDArret ← lireVraiOu d "conditions_d_arret" [] (liste texte)
  let budget ← lireVraiOu d "budget" [] objet
  let niveauDeRisque ← lireOu d "niveau_de_risque" "moyen" texte
  return { objectif, criteres, ressourcesAutorisees, conditionsDArret, budget, niveauDeRisque }

end ContratDeMission

namespace Passage

def Artefact.toDict (a : Artefact) : Items :=
  [("chemin", .texte a.chemin), ("phase", .texte a.phase), ("verdict", .texte a.verdict)]

/-- `Artefact(**a)`. -/
def Artefact.construire (a : Items) : Except Refus Artefact := do
  arguments a ["chemin", "phase", "verdict"] ["chemin"]
  return {
    chemin := ← lireCle a "chemin" texte
    phase := ← lireOu a "phase" "" texte
    verdict := ← lireOu a "verdict" "" texte }

def Preuve.toDict (p : Preuve) : Items :=
  [("source", .texte p.source), ("constat", .texte p.constat), ("verdict", .texte p.verdict)]

/-- `Preuve(**p)`. -/
def Preuve.construire (p : Items) : Except Refus Preuve := do
  arguments p ["source", "constat", "verdict"] ["source", "constat"]
  return {
    source := ← lireCle p "source" texte
    constat := ← lireCle p "constat" texte
    verdict := ← lireOu p "verdict" "indisponible" texte }

namespace Relais

/-- `asdict(self)`, with the contract in its own form. -/
def toDict (r : Relais) : Items :=
  [("mission", .texte r.mission), ("run", .texte r.run), ("objectif", .texte r.objectif),
    ("workspace", .texte r.workspace),
    ("contrat", match r.contrat with
      | some contrat => .objet contrat.toDict
      | none => .null),
    ("artefacts", .tableau (r.artefacts.map fun a => .objet a.toDict)),
    ("preuves", .tableau (r.preuves.map fun p => .objet p.toDict)),
    ("decisions", textes r.decisions), ("amont", .texte r.amont), ("outils", textes r.outils),
    ("memoire", textes r.memoire), ("echec", .texte r.echec), ("cause", .texte r.cause)]

/-- The fields that are passed on to the constructor as they are. -/
def RESTE : List String :=
  ["mission", "run", "objectif", "workspace", "decisions", "amont", "outils", "memoire", "echec",
    "cause"]

/-- What `from_dict` takes out before it passes the rest on. -/
def POPS : List String := ["contrat", "artefacts", "preuves"]

def fromDict (uuids : Nat → String) (donnees : Items) : Except Refus Relais := do
  let artefacts ← lireVraiOu donnees "artefacts" [] (liste fun a => objet a >>= Artefact.construire)
  let preuves ← lireVraiOu donnees "preuves" [] (liste fun p => objet p >>= Preuve.construire)
  let contrat ← lireVraiOu donnees "contrat" none fun c =>
    objet c >>= fun d => (ContratDeMission.fromDict uuids d).map some
  arguments (donnees.filter fun item => item.1 ∉ POPS) RESTE []
  return {
    mission := ← lireOu donnees "mission" "" texte
    run := ← lireOu donnees "run" "" texte
    objectif := ← lireOu donnees "objectif" "" texte
    workspace := ← lireOu donnees "workspace" "" texte
    contrat, artefacts, preuves
    decisions := ← lireOu donnees "decisions" [] (liste texte)
    amont := ← lireOu donnees "amont" "" texte
    outils := ← lireOu donnees "outils" [] (liste texte)
    memoire := ← lireOu donnees "memoire" [] (liste texte)
    echec := ← lireOu donnees "echec" "" texte
    cause := ← lireOu donnees "cause" "" texte }

def toJson (r : Relais) : String := String.ofList (Json.ecrire (.objet r.toDict))

def fromJson (uuids : Nat → String) (document : String) : Except Refus Relais :=
  match Json.lire document.toList with
  | some v => objet v >>= fromDict uuids
  | none => .error (.valueError "JSONDecodeError")

end Relais

end Passage

theorem Genre.membre_value (g : Genre) : membre "Genre" membres (.texte g.value) = .ok g := by
  cases g <;> decide

theorem EtatCritere.membre_value (e : EtatCritere) :
    membre "EtatCritere" membres (.texte e.value) = .ok e := by
  cases e <;> decide

theorem Critere.fromDict_toDict (uuid : String) {c : Critere} (h : c.identifiant ≠ "") :
    Critere.fromDict uuid c.toDict = .ok c := by
  have hidentifiant : vrai (.texte c.identifiant) = true := by simpa [vrai] using h
  simp [fromDict, toDict, lireCle, lireOu, lireVraiOu, Dict.get?_cons, Genre.membre_value,
    EtatCritere.membre_value, hidentifiant]

theorem Passage.Artefact.construire_toDict (a : Passage.Artefact) :
    Passage.Artefact.construire a.toDict = .ok a := by
  have harguments : arguments a.toDict ["chemin", "phase", "verdict"] ["chemin"] = .ok () :=
    arguments_ok (by simp [toDict]) (by simp [toDict])
  simp [construire, harguments]
  simp [toDict, lireCle, lireOu, Dict.get?_cons]

theorem Passage.Preuve.construire_toDict (p : Passage.Preuve) :
    Passage.Preuve.construire p.toDict = .ok p := by
  have harguments :
      arguments p.toDict ["source", "constat", "verdict"] ["source", "constat"] = .ok () :=
    arguments_ok (by simp [toDict]) (by simp [toDict])
  simp [construire, harguments]
  simp [toDict, lireCle, lireOu, Dict.get?_cons]

/-- A contract whose criteria are named and whose budget is made of JSON values. -/
structure ContratDeMission.Transportable (c : ContratDeMission) : Prop where
  nommes : ∀ critere ∈ c.criteres, critere.identifiant ≠ ""
  budget : (Json.objet c.budget).Valide

namespace ContratDeMission

theorem fromDict_toDict (uuids : Nat → String) {c : ContratDeMission}
    (h : c.Transportable) : fromDict uuids c.toDict = .ok c := by
  have hcriteres : lireVraiOu c.toDict "criteres" []
      (listeRangee fun rang c => objet c >>= Critere.fromDict (uuids rang)) = .ok c.criteres := by
    refine lireVraiOu_liste rfl (listeRangee_tableau fun rang critere hcritere => ?_) ?_
    · exact Critere.fromDict_toDict (uuids rang) (h.nommes critere hcritere)
    · exact List.map_eq_nil_iff.mp
  have hbudget : lireVraiOu c.toDict "budget" [] objet = .ok c.budget := by
    refine lireVraiOu_eq rfl (fun _ => objet_objet c.budget) fun hfaux => ?_
    exact (by simpa [vrai] using hfaux : c.budget = []).symm
  have hobjectif : lireOu c.toDict "objectif" "" texte = .ok c.objectif := lireOu_texte rfl
  have hressources : lireVraiOu c.toDict "ressources_autorisees" [] (liste texte) =
      .ok c.ressourcesAutorisees := lireVraiOu_textes rfl
  have hconditions : lireVraiOu c.toDict "conditions_d_arret" [] (liste texte) =
      .ok c.conditionsDArret := lireVraiOu_textes rfl
  have hniveau : lireOu c.toDict "niveau_de_risque" "moyen" texte = .ok c.niveauDeRisque :=
    lireOu_texte rfl
  simp [fromDict, hobjectif, hcriteres, hressources, hconditions, hbudget, hniveau]

theorem valide_toDict {c : ContratDeMission} (h : c.Transportable) :
    (Json.objet c.toDict).Valide := by
  have hcriteres : (Json.tableau (c.criteres.map fun critere => .objet critere.toDict)).Valide :=
    valeursValides_map fun critere _ =>
      valide_objet (by simp [Critere.toDict]) (by simp [Critere.toDict])
  exact valide_objet (by simp [toDict]) (by simp [toDict, hcriteres, h.budget])

end ContratDeMission

namespace Passage.Relais

/-- A relay without a contract, or with one that can be carried. -/
def Transportable (r : Relais) : Prop := ∀ c, r.contrat = some c → c.Transportable

theorem lire_contrat (uuids : Nat → String) {r : Relais} (h : r.Transportable) :
    (lireVraiOu r.toDict "contrat" none fun c =>
      objet c >>= fun d => (ContratDeMission.fromDict uuids d).map some) = .ok r.contrat := by
  cases hcontrat : r.contrat with
  | none =>
      have hget : Dict.get? r.toDict "contrat" = some .null := by
        simp [toDict, Dict.get?_cons, hcontrat]
      exact lireVraiOu_eq hget (fun hvrai => nomatch hvrai) fun _ => rfl
  | some c =>
      have hget : Dict.get? r.toDict "contrat" = some (.objet c.toDict) := by
        simp [toDict, Dict.get?_cons, hcontrat]
      refine lireVraiOu_eq hget (fun _ => ?_) fun hfaux => nomatch hfaux
      rw [objet_objet, ok_bind, ContratDeMission.fromDict_toDict uuids (h c hcontrat)]
      rfl

theorem arguments_toDict (r : Relais) :
    arguments (r.toDict.filter fun item => item.1 ∉ POPS) RESTE [] = .ok () := by
  apply arguments_ok
  · intro item hitem
    obtain ⟨hmem, hreste⟩ := List.mem_filter.mp hitem
    have hnom : item.1 ∈ r.toDict.map Prod.fst := List.mem_map_of_mem hmem
    have hnoms : ∀ nom ∈ r.toDict.map Prod.fst, nom ∈ POPS ∨ nom ∈ RESTE := by
      simp [toDict, POPS, RESTE]
    exact (hnoms item.1 hnom).resolve_left (by simpa using hreste)
  · exact fun champ hchamp => nomatch hchamp

theorem fromDict_toDict (uuids : Nat → String) {r : Relais} (h : r.Transportable) :
    fromDict uuids r.toDict = .ok r := by
  have hartefacts : lireVraiOu r.toDict "artefacts" []
      (liste fun a => objet a >>= Artefact.construire) = .ok r.artefacts :=
    lireVraiOu_liste rfl (liste_tableau fun a _ => a.construire_toDict) List.map_eq_nil_iff.mp
  have hpreuves : lireVraiOu r.toDict "preuves" []
      (liste fun p => objet p >>= Preuve.construire) = .ok r.preuves :=
    lireVraiOu_liste rfl (liste_tableau fun p _ => p.construire_toDict) List.map_eq_nil_iff.mp
  have hmission : lireOu r.toDict "mission" "" texte = .ok r.mission := lireOu_texte rfl
  have hrun : lireOu r.toDict "run" "" texte = .ok r.run := lireOu_texte rfl
  have hobjectif : lireOu r.toDict "objectif" "" texte = .ok r.objectif := lireOu_texte rfl
  have hworkspace : lireOu r.toDict "workspace" "" texte = .ok r.workspace := lireOu_texte rfl
  have hdecisions : lireOu r.toDict "decisions" [] (liste texte) = .ok r.decisions :=
    lireOu_textes rfl
  have hamont : lireOu r.toDict "amont" "" texte = .ok r.amont := lireOu_texte rfl
  have houtils : lireOu r.toDict "outils" [] (liste texte) = .ok r.outils := lireOu_textes rfl
  have hmemoire : lireOu r.toDict "memoire" [] (liste texte) = .ok r.memoire := lireOu_textes rfl
  have hechec : lireOu r.toDict "echec" "" texte = .ok r.echec := lireOu_texte rfl
  have hcause : lireOu r.toDict "cause" "" texte = .ok r.cause := lireOu_texte rfl
  simp only [fromDict, hartefacts, hpreuves, lire_contrat uuids h, arguments_toDict, hmission, hrun,
    hobjectif, hworkspace, hdecisions, hamont, houtils, hmemoire, hechec, hcause, ok_bind,
    pure_eq_ok]

theorem valide_toDict {r : Relais} (h : r.Transportable) : (Json.objet r.toDict).Valide := by
  have hartefacts : (Json.tableau (r.artefacts.map fun a => .objet a.toDict)).Valide :=
    valeursValides_map fun a _ =>
      valide_objet (by simp [Artefact.toDict]) (by simp [Artefact.toDict])
  have hpreuves : (Json.tableau (r.preuves.map fun p => .objet p.toDict)).Valide :=
    valeursValides_map fun p _ =>
      valide_objet (by simp [Preuve.toDict]) (by simp [Preuve.toDict])
  have hcontrat : (match r.contrat with
      | some contrat => .objet contrat.toDict
      | none => .null : Json).Valide := by
    cases hc : r.contrat with
    | none => trivial
    | some c => exact ContratDeMission.valide_toDict (h c hc)
  exact valide_objet (by simp [toDict]) (by simp [toDict, hartefacts, hpreuves, hcontrat])

/-- A relay comes out of the boundary as it went in, its contract with every criterion's kind,
state and identifier. -/
theorem fromJson_toJson (uuids : Nat → String) (r : Relais) (h : r.Transportable) :
    fromJson uuids r.toJson = .ok r := by
  rw [fromJson, toJson, String.toList_ofList, Json.lire_ecrire (valide_toDict h)]
  exact fromDict_toDict uuids h

/-- A relay between a verification that failed and the repair. -/
def relaisDeReparation : Relais where
  mission := "m1"
  contrat := some
    { objectif := "livrer le module"
      criteres :=
        [⟨"les tests passent", .acceptation, "pytest", .nonAtteint, "c1"⟩,
          ⟨"aucun secret publié", .nonObjectif, "secrets", .inverifiable, "c2"⟩]
      budget := [("duree_s", .entier 600), ("paliers", .tableau [.bool true, .null])] }
  artefacts := [{ chemin := "src/a.py", phase := "execution" }]
  preuves := [{ source := "pytest", constat := "1 échec", verdict := "echoue" }]
  decisions := ["écriture refusée"]

theorem fromJson_toJson_relaisDeReparation :
    fromJson (fun _ => "neuf") relaisDeReparation.toJson = .ok relaisDeReparation := by
  apply fromJson_toJson
  rintro c ⟨⟩
  exact ⟨by simp, by simp [Json.Valide, Json.ValeursValides, Json.ItemsValides]⟩

end Passage.Relais

end Hermes
