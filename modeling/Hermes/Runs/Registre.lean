import Hermes.Lib.Table
import Hermes.Lib.Texte
import Mathlib.Data.Rat.Defs

/-! # The registry of runs

One table of runs, written by seven calls. Every `UPDATE` guards each of its columns by the status
of the row before the statement.
-/

namespace Hermes

open Lib

namespace Registre

inductive Statut where
  | enAttente
  | enCours
  | reussi
  | echoue
  | abandonne
  | perdu
  deriving DecidableEq

def TERMINAUX : List Statut := [.reussi, .echoue, .abandonne, .perdu]

inductive Cause where
  | modele
  | fournisseur
  | quota
  | ressource
  | contexte
  | outil
  | semantique
  | verification
  | politique
  | securite
  | processus
  | budget
  | inconnue
  deriving DecidableEq

/-- One attempt at an execution. Byte counts that were never measured are `none`. -/
structure Run where
  identifiant : String
  mission : String := ""
  parent : Option String := none
  tentative : Int := 1
  objectif : String := ""
  agent : String := ""
  modele : String := ""
  runtime : String := ""
  fournisseur : String := ""
  workspace : String := ""
  utilisateur : String := "local"
  projet : String := ""
  statut : Statut := .enAttente
  cause : Option Cause := none
  raison : String := ""
  motifDeReprise : String := ""
  jetonsEntree : Int := 0
  jetonsSortie : Int := 0
  cout : Rat := 0
  vramReserveeOctets : Option Int := none
  vramMachineDebutOctets : Option Int := none
  vramMachinePicOctets : Option Int := none
  exclusif : Option Bool := none
  contrat : String := ""
  decision : String := ""
  creeLe : String
  demarreLe : Option String := none
  finiLe : Option String := none
  deriving DecidableEq

/-- A row of `runs`: the run and the fingerprint of the process that opened it. -/
structure Ligne where
  run : Run
  processus : Option String
  deriving DecidableEq

/-- A column and the value meant for it, as a keyword argument or in a `SET`. -/
inductive Champ where
  | mission (v : String)
  | parent (v : Option String)
  | tentative (v : Int)
  | objectif (v : String)
  | agent (v : String)
  | modele (v : String)
  | runtime (v : String)
  | fournisseur (v : String)
  | workspace (v : String)
  | utilisateur (v : String)
  | projet (v : String)
  | statut (v : Statut)
  | cause (v : Option Cause)
  | raison (v : String)
  | motifDeReprise (v : String)
  | jetonsEntree (v : Int)
  | jetonsSortie (v : Int)
  | cout (v : Rat)
  | vramReserveeOctets (v : Option Int)
  | vramMachineDebutOctets (v : Option Int)
  | vramMachinePicOctets (v : Option Int)
  | exclusif (v : Option Bool)
  | contrat (v : String)
  | decision (v : String)
  | creeLe (v : String)
  | demarreLe (v : Option String)
  | finiLe (v : Option String)
  deriving DecidableEq

namespace Champ

def nom : Champ → String
  | mission _ => "mission"
  | parent _ => "parent"
  | tentative _ => "tentative"
  | objectif _ => "objectif"
  | agent _ => "agent"
  | modele _ => "modele"
  | runtime _ => "runtime"
  | fournisseur _ => "fournisseur"
  | workspace _ => "workspace"
  | utilisateur _ => "utilisateur"
  | projet _ => "projet"
  | statut _ => "statut"
  | cause _ => "cause"
  | raison _ => "raison"
  | motifDeReprise _ => "motif_de_reprise"
  | jetonsEntree _ => "jetons_entree"
  | jetonsSortie _ => "jetons_sortie"
  | cout _ => "cout"
  | vramReserveeOctets _ => "vram_reservee_octets"
  | vramMachineDebutOctets _ => "vram_machine_debut_octets"
  | vramMachinePicOctets _ => "vram_machine_pic_octets"
  | exclusif _ => "exclusif"
  | contrat _ => "contrat"
  | decision _ => "decision"
  | creeLe _ => "cree_le"
  | demarreLe _ => "demarre_le"
  | finiLe _ => "fini_le"

def poser (r : Run) : Champ → Run
  | mission v => { r with mission := v }
  | parent v => { r with parent := v }
  | tentative v => { r with tentative := v }
  | objectif v => { r with objectif := v }
  | agent v => { r with agent := v }
  | modele v => { r with modele := v }
  | runtime v => { r with runtime := v }
  | fournisseur v => { r with fournisseur := v }
  | workspace v => { r with workspace := v }
  | utilisateur v => { r with utilisateur := v }
  | projet v => { r with projet := v }
  | statut v => { r with statut := v }
  | cause v => { r with cause := v }
  | raison v => { r with raison := v }
  | motifDeReprise v => { r with motifDeReprise := v }
  | jetonsEntree v => { r with jetonsEntree := v }
  | jetonsSortie v => { r with jetonsSortie := v }
  | cout v => { r with cout := v }
  | vramReserveeOctets v => { r with vramReserveeOctets := v }
  | vramMachineDebutOctets v => { r with vramMachineDebutOctets := v }
  | vramMachinePicOctets v => { r with vramMachinePicOctets := v }
  | exclusif v => { r with exclusif := v }
  | contrat v => { r with contrat := v }
  | decision v => { r with decision := v }
  | creeLe v => { r with creeLe := v }
  | demarreLe v => { r with demarreLe := v }
  | finiLe v => { r with finiLe := v }

def relire (r : Run) : Champ → Champ
  | mission _ => mission r.mission
  | parent _ => parent r.parent
  | tentative _ => tentative r.tentative
  | objectif _ => objectif r.objectif
  | agent _ => agent r.agent
  | modele _ => modele r.modele
  | runtime _ => runtime r.runtime
  | fournisseur _ => fournisseur r.fournisseur
  | workspace _ => workspace r.workspace
  | utilisateur _ => utilisateur r.utilisateur
  | projet _ => projet r.projet
  | statut _ => statut r.statut
  | cause _ => cause r.cause
  | raison _ => raison r.raison
  | motifDeReprise _ => motifDeReprise r.motifDeReprise
  | jetonsEntree _ => jetonsEntree r.jetonsEntree
  | jetonsSortie _ => jetonsSortie r.jetonsSortie
  | cout _ => cout r.cout
  | vramReserveeOctets _ => vramReserveeOctets r.vramReserveeOctets
  | vramMachineDebutOctets _ => vramMachineDebutOctets r.vramMachineDebutOctets
  | vramMachinePicOctets _ => vramMachinePicOctets r.vramMachinePicOctets
  | exclusif _ => exclusif r.exclusif
  | contrat _ => contrat r.contrat
  | decision _ => decision r.decision
  | creeLe _ => creeLe r.creeLe
  | demarreLe _ => demarreLe r.demarreLe
  | finiLe _ => finiLe r.finiLe

/-- `if v`, on the columns that `constater` writes. -/
def vrai : Champ → Bool
  | agent v | modele v | runtime v | fournisseur v | decision v => v ≠ ""
  | _ => true

/-- `v is not None`, on the columns that `mesurer` writes. -/
def mesure : Champ → Bool
  | vramReserveeOctets v | vramMachineDebutOctets v | vramMachinePicOctets v => v.isSome
  | exclusif v => v.isSome
  | _ => true

@[simp] theorem poser_identifiant (r : Run) (c : Champ) :
    (c.poser r).identifiant = r.identifiant := by
  cases c <;> rfl

@[simp] theorem poser_relire (r : Run) (c : Champ) : (c.relire r).poser r = r := by
  cases c <;> rfl

end Champ

def ecrire (r : Run) (champs : List Champ) : Run := champs.foldl Champ.poser r

@[simp] theorem ecrire_identifiant (r : Run) (champs : List Champ) :
    (ecrire r champs).identifiant = r.identifiant := by
  induction champs generalizing r with
  | nil => rfl
  | cons c champs ih =>
      show (ecrire (c.poser r) champs).identifiant = r.identifiant
      rw [ih, Champ.poser_identifiant]

/-- `c = CASE WHEN statut IN (terminal) THEN c ELSE v END`, read on the row before the
statement. -/
def fige (avant : Run) (c : Champ) : Champ :=
  if avant.statut ∈ TERMINAUX then c.relire avant else c

/-- The row after `UPDATE runs SET …`. -/
def affecter (assignations : List Champ) (avant : Run) : Run :=
  ecrire avant (assignations.map (fige avant))

@[simp] theorem affecter_identifiant (assignations : List Champ) (avant : Run) :
    (affecter assignations avant).identifiant = avant.identifiant := by
  simp [affecter]

theorem affecter_of_termine {avant : Run} (h : avant.statut ∈ TERMINAUX)
    (assignations : List Champ) : affecter assignations avant = avant := by
  unfold affecter
  induction assignations with
  | nil => rfl
  | cons c assignations ih =>
      have hfige : fige avant c = c.relire avant := if_pos h
      show ecrire ((fige avant c).poser avant) _ = avant
      rw [hfige, Champ.poser_relire]
      exact ih

theorem affecter_of_not_termine {avant : Run} (h : avant.statut ∉ TERMINAUX)
    (assignations : List Champ) : affecter assignations avant = ecrire avant assignations := by
  have hlibre : fige avant = id := by
    funext c
    exact if_neg h
  rw [affecter, hlibre, List.map_id]

end Registre

/-- The table `runs`. -/
abbrev Registre := Table fun l : Registre.Ligne => l.run.identifiant

namespace Registre

inductive Erreur where
  | valueError (message : String)
  | keyError (identifiant : String)
  /-- The database refused the row: taken identifier, or parent that does not exist. -/
  | integrityError
  deriving DecidableEq

/-- `sorted(noms)`, as an error message shows it. -/
def liste (noms : List String) : String :=
  "[" ++ ", ".intercalate ((noms.mergeSort fun a b => a ≤ b).map fun n => "'" ++ n ++ "'") ++ "]"

def changerSansStatut (t : Registre) (identifiant : String) (extra : List Champ) : Registre :=
  t.modifier identifiant (fun l => { l with run := affecter extra l.run })
    fun l hl => (affecter_identifiant extra l.run).trans hl

def changer (t : Registre) (identifiant : String) (statut : Statut) (extra : List Champ) :
    Registre :=
  changerSansStatut t identifiant (.statut statut :: extra)

/-- `INSERT INTO runs`, under the primary key and the foreign key of `parent`. -/
def inserer (t : Registre) (l : Ligne) : Except Erreur Registre :=
  match l.run.parent with
  | some p =>
      if p = l.run.identifiant ∨ (t.lire p).isSome then
        (Table.inserer t l).elim (.error .integrityError) .ok
      else .error .integrityError
  | none => (Table.inserer t l).elim (.error .integrityError) .ok

/-- `ouvrir`: `identifiant` and `maintenant` are what the caller gave or the defaults
drew, `processus` is the fingerprint of this process. -/
def ouvrir (t : Registre) (identifiant maintenant processus : String) (champs : List Champ) :
    Except Erreur Registre :=
  inserer t
    { run := ecrire { identifiant := identifiant, creeLe := maintenant } champs
      processus := some processus }

def demarrer (t : Registre) (identifiant maintenant : String) : Registre :=
  changer t identifiant .enCours [.demarreLe (some maintenant)]

/-- What `terminer` may write beside the status. -/
structure Cloture where
  cause : Option Cause := none
  raison : String := ""
  cout : Option Rat := none
  jetonsEntree : Option Int := none
  jetonsSortie : Option Int := none
  deriving DecidableEq

def Cloture.extra (c : Cloture) (maintenant : String) : List Champ :=
  [.finiLe (some maintenant)]
    ++ (match c.cause with | some v => [.cause (some v)] | none => [])
    ++ (if c.raison = "" then [] else [.raison c.raison])
    ++ (match c.cout with | some v => [.cout v] | none => [])
    ++ (match c.jetonsEntree with | some v => [.jetonsEntree v] | none => [])
    ++ (match c.jetonsSortie with | some v => [.jetonsSortie v] | none => [])

def terminer (t : Registre) (identifiant : String) (statut : Statut) (c : Cloture)
    (maintenant : String) : Registre :=
  changer t identifiant statut (c.extra maintenant)

/-- The facts `constater` accepts. -/
def FAITS : List String := ["runtime", "modele", "fournisseur", "agent", "decision"]

/-- The measures `mesurer` accepts. -/
def MESURES : List String :=
  ["vram_reservee_octets", "vram_machine_debut_octets", "vram_machine_pic_octets", "exclusif"]

/-- The shape of `constater` and `mesurer`: a white list, a filter, one statement. -/
def inscrire (permis : List String) (garde : Champ → Bool) (message : String → String)
    (t : Registre) (identifiant : String) (champs : List Champ) : Except Erreur Registre :=
  match (champs.map Champ.nom).filter (fun n => n ∉ permis) with
  | [] =>
      match champs.filter garde with
      | [] => .ok t
      | c :: retenus => .ok (changerSansStatut t identifiant (c :: retenus))
  | inconnus => .error (.valueError (message (liste inconnus)))

def refusDeConstater (inconnus : String) : String :=
  "`constater` n'écrit que des faits d'exécution ; " ++ inconnus ++ " n'en sont pas"

def refusDeMesurer (inconnues : String) : String :=
  "`mesurer` n'écrit que des mesures physiques ; " ++ inconnues ++ " n'en sont pas"

def constater : Registre → String → List Champ → Except Erreur Registre :=
  inscrire FAITS Champ.vrai refusDeConstater

def mesurer : Registre → String → List Champ → Except Erreur Registre :=
  inscrire MESURES Champ.mesure refusDeMesurer

/-- `to_dict`, without the identifier. -/
def Run.champs (r : Run) : List Champ :=
  [.mission r.mission, .parent r.parent, .tentative r.tentative, .objectif r.objectif,
    .agent r.agent, .modele r.modele, .runtime r.runtime, .fournisseur r.fournisseur,
    .workspace r.workspace, .utilisateur r.utilisateur, .projet r.projet, .statut r.statut,
    .cause r.cause, .raison r.raison, .motifDeReprise r.motifDeReprise,
    .jetonsEntree r.jetonsEntree, .jetonsSortie r.jetonsSortie, .cout r.cout,
    .vramReserveeOctets r.vramReserveeOctets, .vramMachineDebutOctets r.vramMachineDebutOctets,
    .vramMachinePicOctets r.vramMachinePicOctets, .exclusif r.exclusif, .contrat r.contrat,
    .decision r.decision, .creeLe r.creeLe, .demarreLe r.demarreLe, .finiLe r.finiLe]

/-- What a new attempt does not inherit. -/
def JETABLES : List String :=
  ["identifiant", "statut", "cause", "raison", "cree_le", "demarre_le", "fini_le",
    "jetons_entree", "jetons_sortie", "cout", "decision", "modele", "fournisseur",
    "vram_reservee_octets", "vram_machine_debut_octets", "vram_machine_pic_octets", "exclusif"]

/-- The keyword arguments with which `reprendre` opens the new attempt. -/
def champsDeReprise (parent : Run) (motif : String) (remplacements : List Champ) : List Champ :=
  parent.champs.filter (fun c => c.nom ∉ JETABLES) ++ remplacements
    ++ [.parent (some parent.identifiant), .tentative (parent.tentative + 1),
      .motifDeReprise motif]

def reprendre (t : Registre) (identifiant motif : String) (remplacements : List Champ)
    (uuid maintenant processus : String) : Except Erreur Registre :=
  if Texte.strip motif = "" then
    .error (.valueError ("une reprise doit dire pourquoi — sans motif, la lignée ne " ++
      "répond pas à « pourquoi le premier essai a échoué ? »"))
  else
    match t.lire identifiant with
    | none => .error (.keyError identifiant)
    | some l => ouvrir t uuid maintenant processus (champsDeReprise l.run motif remplacements)

def nonTermines (t : Registre) : List Run :=
  (t.lignes.map Ligne.run).filter fun r => r.statut ∉ TERMINAUX

def processusDe (t : Registre) (identifiant : String) : Option String :=
  ((t.lire identifiant).bind Ligne.processus).filter fun empreinte => empreinte ≠ ""

structure Bilan where
  perdus : List String := []
  vivants : List String := []
  indecidables : List String := []
  deriving DecidableEq

/-- What a reconciliation observes of the machine: its own fingerprint, whether the
process of a fingerprint lives, and the clock when a run is closed. -/
structure Machine where
  courante : String
  processusVivant : String → Option Bool
  maintenant : String → String

def raisonDePerte (empreinte : String) : String :=
  "le processus porteur " ++ empreinte ++ " n'existe plus ; ce qu'il avait fait avant de " ++
    "disparaître n'est pas connu"

def examiner (machine : Machine) (acc : Registre × Bilan) (run : Run) : Registre × Bilan :=
  let (t, bilan) := acc
  match processusDe t run.identifiant with
  | none => (t, { bilan with indecidables := bilan.indecidables ++ [run.identifiant] })
  | some empreinte =>
      if empreinte = machine.courante then
        (t, { bilan with vivants := bilan.vivants ++ [run.identifiant] })
      else
        match machine.processusVivant empreinte with
        | some true => (t, { bilan with vivants := bilan.vivants ++ [run.identifiant] })
        | none => (t, { bilan with indecidables := bilan.indecidables ++ [run.identifiant] })
        | some false =>
            (terminer t run.identifiant .perdu
              { cause := some .processus, raison := raisonDePerte empreinte }
              (machine.maintenant run.identifiant),
            { bilan with perdus := bilan.perdus ++ [run.identifiant] })

def reconcilier (t : Registre) (machine : Machine) : Registre × Bilan :=
  (nonTermines t).foldl (examiner machine) (t, {})

inductive Appel where
  | ouvrir (identifiant maintenant processus : String) (champs : List Champ)
  | demarrer (identifiant maintenant : String)
  | terminer (identifiant : String) (statut : Statut) (c : Cloture) (maintenant : String)
  | constater (identifiant : String) (faits : List Champ)
  | mesurer (identifiant : String) (mesures : List Champ)
  | reprendre (identifiant motif : String) (remplacements : List Champ)
      (uuid maintenant processus : String)
  | reconcilier (machine : Machine)

def Appel.executer (t : Registre) : Appel → Except Erreur Registre
  | ouvrir identifiant maintenant processus champs =>
      t.ouvrir identifiant maintenant processus champs
  | demarrer identifiant maintenant => .ok (t.demarrer identifiant maintenant)
  | terminer identifiant statut c maintenant => .ok (t.terminer identifiant statut c maintenant)
  | constater identifiant faits => t.constater identifiant faits
  | mesurer identifiant mesures => t.mesurer identifiant mesures
  | reprendre identifiant motif remplacements uuid maintenant processus =>
      t.reprendre identifiant motif remplacements uuid maintenant processus
  | reconcilier machine => .ok (t.reconcilier machine).1

def appeler (t : Registre) (a : Appel) : Registre :=
  match a.executer t with
  | .ok t' => t'
  | .error _ => t

def histoire (t : Registre) (appels : List Appel) : Registre := appels.foldl appeler t

def Appel.cible : Appel → Option String
  | demarrer identifiant _ => some identifiant
  | terminer identifiant _ _ _ => some identifiant
  | constater identifiant _ => some identifiant
  | mesurer identifiant _ => some identifiant
  | reprendre identifiant _ _ _ _ _ => some identifiant
  | ouvrir _ _ _ _ => none
  | reconcilier _ => none

theorem ecrire_append (r : Run) (premiers seconds : List Champ) :
    ecrire r (premiers ++ seconds) = ecrire (ecrire r premiers) seconds :=
  List.foldl_append

def Arrivee (l : Ligne) : Prop := l.run.statut ∈ TERMINAUX

theorem lire_changerSansStatut (t : Registre) (identifiant : String) (extra : List Champ)
    (autre : String) :
    (t.changerSansStatut identifiant extra).lire autre =
      if autre = identifiant then
        (t.lire autre).map fun l => { l with run := affecter extra l.run }
      else t.lire autre :=
  Table.lire_modifier t identifiant _ _ autre

theorem figeSous_changerSansStatut (t : Registre) (identifiant : String) (extra : List Champ) :
    Table.FigeSous Arrivee t (t.changerSansStatut identifiant extra) := by
  apply Table.figeSous_modifier
  intro l hl
  show { l with run := affecter extra l.run } = l
  rw [affecter_of_termine hl]

theorem inserer_ok {t t' : Registre} {l : Ligne} (h : t.inserer l = .ok t') :
    Table.inserer t l = some t' := by
  have helim : ∀ x : Option Registre,
      x.elim (.error .integrityError) .ok = (.ok t' : Except Erreur Registre) → x = some t' := by
    intro x hx
    cases x with
    | none => cases hx
    | some u =>
        cases hx
        rfl
  unfold inserer at h
  split at h
  · split at h
    · exact helim _ h
    · cases h
  · exact helim _ h

theorem inscrire_ok {permis : List String} {garde : Champ → Bool} {message : String → String}
    {t t' : Registre} {identifiant : String} {champs : List Champ}
    (h : inscrire permis garde message t identifiant champs = .ok t') :
    t' = t ∨ ∃ extra, t' = t.changerSansStatut identifiant extra := by
  unfold inscrire at h
  split at h
  · split at h
    · cases h
      exact Or.inl rfl
    · cases h
      exact Or.inr ⟨_, rfl⟩
  · cases h

theorem reprendre_ok {t t' : Registre} {identifiant motif uuid maintenant processus : String}
    {remplacements : List Champ}
    (h : t.reprendre identifiant motif remplacements uuid maintenant processus = .ok t') :
    ∃ l, l.run.identifiant = uuid ∧ l.run.parent = some identifiant ∧
      l.run.motifDeReprise = motif ∧ Table.inserer t l = some t' := by
  unfold reprendre at h
  split at h
  · cases h
  · split at h
    · cases h
    · next parent hparent =>
        have hcle := Table.cle_of_lire hparent
        refine ⟨_, ecrire_identifiant _ _, ?_, ?_, inserer_ok h⟩
        · rw [champsDeReprise, ecrire_append, ← hcle]
          rfl
        · rw [champsDeReprise, ecrire_append]
          rfl

theorem appeler_of_ok {t t' : Registre} {a : Appel} (h : a.executer t = .ok t') :
    appeler t a = t' := by
  rw [appeler, h]

theorem appeler_of_error {t : Registre} {a : Appel} {e : Erreur} (h : a.executer t = .error e) :
    appeler t a = t := by
  rw [appeler, h]

theorem appeler_reprendre (t : Registre) (identifiant motif : String)
    (remplacements : List Champ) (uuid maintenant processus : String) :
    let a := Appel.reprendre identifiant motif remplacements uuid maintenant processus
    appeler t a = t ∨ ∃ l, l.run.identifiant = uuid ∧ l.run.parent = some identifiant ∧
      l.run.motifDeReprise = motif ∧ Table.inserer t l = some (appeler t a) := by
  intro a
  cases hrun : a.executer t with
  | error e => exact Or.inl (appeler_of_error hrun)
  | ok t' =>
      right
      rw [appeler_of_ok hrun]
      exact reprendre_ok hrun

theorem appeler_inscrire {t : Registre} {a : Appel} {identifiant : String}
    (permis : List String) (garde : Champ → Bool) (message : String → String)
    (champs : List Champ)
    (h : a.executer t = inscrire permis garde message t identifiant champs) :
    appeler t a = t ∨ ∃ extra, appeler t a = t.changerSansStatut identifiant extra := by
  cases hok : a.executer t with
  | error e => exact Or.inl (appeler_of_error hok)
  | ok t' =>
      rw [appeler_of_ok hok]
      exact inscrire_ok (h.symm.trans hok)

theorem appeler_maj {t : Registre} {a : Appel} {identifiant : String}
    (h : a.cible = some identifiant)
    (hreprise : ∀ id motif remplacements uuid maintenant processus,
      a ≠ .reprendre id motif remplacements uuid maintenant processus) :
    appeler t a = t ∨ ∃ extra, appeler t a = t.changerSansStatut identifiant extra := by
  cases a with
  | ouvrir => cases h
  | reconcilier => cases h
  | demarrer id maintenant =>
      cases h
      exact Or.inr ⟨_, rfl⟩
  | terminer id statut c maintenant =>
      cases h
      exact Or.inr ⟨_, rfl⟩
  | constater id faits =>
      cases h
      exact appeler_inscrire FAITS Champ.vrai refusDeConstater faits rfl
  | mesurer id mesures =>
      cases h
      exact appeler_inscrire MESURES Champ.mesure refusDeMesurer mesures rfl
  | reprendre => exact absurd rfl (hreprise _ _ _ _ _ _)

theorem figeSous_examiner (machine : Machine) (acc : Registre × Bilan) (run : Run) :
    Table.FigeSous Arrivee acc.1 (examiner machine acc run).1 := by
  unfold examiner
  dsimp only
  split
  · exact Table.FigeSous.refl _
  · split
    · exact Table.FigeSous.refl _
    · split
      · exact Table.FigeSous.refl _
      · exact Table.FigeSous.refl _
      · exact figeSous_changerSansStatut _ _ _

theorem figeSous_reconcilier (t : Registre) (machine : Machine) :
    Table.FigeSous Arrivee t (t.reconcilier machine).1 := by
  have hfold : ∀ (candidats : List Run) (acc : Registre × Bilan),
      Table.FigeSous Arrivee acc.1 (candidats.foldl (examiner machine) acc).1 := by
    intro candidats
    induction candidats with
    | nil => exact fun acc => Table.FigeSous.refl acc.1
    | cons run candidats ih =>
        intro acc
        exact (figeSous_examiner machine acc run).trans (ih _)
  exact hfold (nonTermines t) (t, {})

theorem figeSous_appeler (t : Registre) (a : Appel) :
    Table.FigeSous Arrivee t (appeler t a) := by
  have hmaj : ∀ identifiant, a.cible = some identifiant →
      (∀ id motif remplacements uuid maintenant processus,
        a ≠ .reprendre id motif remplacements uuid maintenant processus) →
      Table.FigeSous Arrivee t (appeler t a) := by
    intro identifiant hcible hreprise
    rcases appeler_maj hcible hreprise with hsame | ⟨extra, hupd⟩
    · rw [hsame]
      exact Table.FigeSous.refl t
    · rw [hupd]
      exact figeSous_changerSansStatut t identifiant extra
  cases a with
  | ouvrir identifiant maintenant processus champs =>
      cases hrun : Appel.executer t (.ouvrir identifiant maintenant processus champs) with
      | error e =>
          rw [appeler_of_error hrun]
          exact Table.FigeSous.refl t
      | ok t' =>
          rw [appeler_of_ok hrun]
          exact Table.figeSous_inserer (inserer_ok hrun)
  | reprendre identifiant motif remplacements uuid maintenant processus =>
      rcases appeler_reprendre t identifiant motif remplacements uuid maintenant processus with
        hsame | ⟨l, _, _, _, hins⟩
      · rw [hsame]
        exact Table.FigeSous.refl t
      · exact Table.figeSous_inserer hins
  | reconcilier machine => exact figeSous_reconcilier t machine
  | demarrer => exact hmaj _ rfl (by simp)
  | terminer => exact hmaj _ rfl (by simp)
  | constater => exact hmaj _ rfl (by simp)
  | mesurer => exact hmaj _ rfl (by simp)

theorem statut_terminer {t : Registre} {identifiant : String} {l : Ligne}
    (h : t.lire identifiant = some l) (hvivant : l.run.statut ∉ TERMINAUX) (statut : Statut)
    (c : Cloture) (maintenant : String) :
    ((t.terminer identifiant statut c maintenant).lire identifiant).map
      (fun l => l.run.statut) = some statut := by
  show ((t.changerSansStatut identifiant _).lire identifiant).map _ = some statut
  rw [lire_changerSansStatut, if_pos rfl, h]
  simp only [Option.map_some, affecter_of_not_termine hvivant, Option.some.injEq]
  have hextra : ∀ (r : Run), (ecrire r (c.extra maintenant)).statut = r.statut := by
    intro r
    obtain ⟨cause, raison, cout, entree, sortie⟩ := c
    cases cause <;> cases cout <;> cases entree <;> cases sortie <;>
      by_cases hraison : raison = "" <;> simp [Cloture.extra, ecrire, Champ.poser, hraison]
  exact hextra _

/-- What a call on one run may do to the table: `reprendre` appends one row, attached to
the run, or writes nothing; the other calls keep the rows of all other runs, and open
none. -/
def NeToucheQue (t : Registre) (identifiant : String) (a : Appel) : Prop :=
  match a with
  | .reprendre _ motif _ uuid _ _ =>
      appeler t a = t ∨
        ∃ l, l.run.identifiant = uuid ∧ l.run.parent = some identifiant ∧
          l.run.motifDeReprise = motif ∧ t.lire uuid = none ∧
          (appeler t a).lignes = t.lignes ++ [l]
  | _ =>
      ((appeler t a).lignes.map fun l => l.run.identifiant) =
          (t.lignes.map fun l => l.run.identifiant) ∧
        ∀ autre, autre ≠ identifiant → (appeler t a).lire autre = t.lire autre

theorem neToucheQue_of_cible (t : Registre) {a : Appel} {identifiant : String}
    (h : a.cible = some identifiant) : NeToucheQue t identifiant a := by
  unfold NeToucheQue
  split
  · next id motif remplacements uuid maintenant processus =>
      cases h
      rcases appeler_reprendre t identifiant motif remplacements uuid maintenant processus with
        hsame | ⟨l, hid, hparent, hmotif, hins⟩
      · exact Or.inl hsame
      · obtain ⟨hlibre, hlignes⟩ := Table.inserer_eq_some hins
        right
        refine ⟨l, hid, hparent, hmotif, ?_, hlignes⟩
        rw [← hid]
        exact hlibre
  · next hreprise =>
      rcases appeler_maj h hreprise with hsame | ⟨extra, hupd⟩
      · rw [hsame]
        exact ⟨rfl, fun _ _ => rfl⟩
      · rw [hupd]
        refine ⟨Table.cles_modifier t identifiant _ _, ?_⟩
        intro autre hne
        rw [lire_changerSansStatut, if_neg hne]

/-- Whatever the history, a row that has reached a terminal status keeps every column
for the rest of it, and a call on a run leaves the rows of the other runs alone. -/
theorem ligneTerminale_figee (t : Registre) (avant : List Appel) :
    (∀ apres identifiant l, (histoire t avant).lire identifiant = some l →
        l.run.statut ∈ TERMINAUX →
        (histoire t (avant ++ apres)).lire identifiant = some l) ∧
      ∀ a identifiant, a.cible = some identifiant →
        NeToucheQue (histoire t avant) identifiant a := by
  constructor
  · intro apres identifiant l hl hterminal
    have hfige := Table.figeSous_foldl figeSous_appeler (histoire t avant) apres
    rw [histoire, List.foldl_append]
    exact hfige identifiant l hl hterminal
  · intro a identifiant hcible
    exact neToucheQue_of_cible _ hcible

/-- A run opened, started, failed, then closed again, observed, measured, resumed and
reconciled. -/
def echecPuisReprise : List Appel × List Appel :=
  ([.ouvrir "r1" "t0" "7:1.0" [.mission "m1", .modele "petit"], .demarrer "r1" "t1",
      .terminer "r1" .echoue { cause := some .modele, raison := "réponse vide" } "t2"],
    [.terminer "r1" .reussi { cout := some 1 } "t3", .constater "r1" [.modele "grand"],
      .mesurer "r1" [.exclusif (some false)],
      .reprendre "r1" "un modèle plus grand" [.modele "grand"] "r2" "t4" "7:1.0",
      .reconcilier
        { courante := "8:2.0", processusVivant := fun _ => some false, maintenant := id }])

/-- The failed run keeps its row, and only the resumed one is lost with its process. -/
theorem ligneTerminale_figee_echecPuisReprise :
    (∃ l, (histoire Table.vide (echecPuisReprise.1 ++ echecPuisReprise.2)).lire "r1" = some l ∧
      l.run.statut = .echoue ∧ l.run.raison = "réponse vide" ∧ l.run.modele = "petit") ∧
      NeToucheQue (histoire Table.vide echecPuisReprise.1) "r1"
        (.reprendre "r1" "un modèle plus grand" [] "r2" "t4" "7:1.0") := by
  have hfige := ligneTerminale_figee Table.vide echecPuisReprise.1
  have hread : ∃ l, (histoire Table.vide echecPuisReprise.1).lire "r1" = some l ∧
      l.run.statut = .echoue ∧ l.run.raison = "réponse vide" ∧ l.run.modele = "petit" :=
    ⟨_, rfl, by decide, by decide, by decide⟩
  obtain ⟨l, hl, hstatut, hraison, hmodele⟩ := hread
  have hterminal : l.run.statut ∈ TERMINAUX := by
    rw [hstatut]
    decide
  exact ⟨⟨l, hfige.1 echecPuisReprise.2 "r1" l hl hterminal, hstatut, hraison, hmodele⟩,
    hfige.2 _ "r1" rfl⟩

end Registre

end Hermes
