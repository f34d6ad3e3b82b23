import Mathlib.Data.List.Chain
import Hermes.Lib.Texte
import Hermes.Mission.Programme

/-! # The queue of sections

`derouler` runs one mission per section, repairs a section that the measures blame and stops at
the first one that stays blocked.
-/

namespace Hermes.Programme

open Lib Lib.Valeur Lib.Interprete

structure Section where
  numero : Nat
  titre : String
  corps : String
  deriving DecidableEq

inductive StatutEtape where
  | enAttente
  | faite
  | signalee
  | reparee
  | bloquee
  | ignoree
  deriving DecidableEq

/-- The step of a section; `partie` is the section itself. -/
structure Etape (δ : Type) where
  partie : Section
  statut : StatutEtape
  qualite : String
  detail : String
  dureeS : δ
  passes : Nat

/-- What a callable did: a report, an exception that `except Exception` catches, or one that it
lets through. -/
inductive Sortie where
  | rendu (rapport : List (Cle × Valeur))
  | leve (erreur : Leve)
  | echappe (erreur : Leve)

/-- `lancer` and `reparer`, by the place of the section in the queue and the pass. -/
structure Appelables where
  lancer : Nat → Section → Sortie
  reparer : Option (Nat → Nat → Section → String → Sortie)

/-- A call that was made, and its answer: `lancer` at the first pass, `reparer` after. -/
structure Appel where
  rang : Nat
  passe : Nat
  reponse : Sortie

variable {δ : Type} (i : Interprete δ)

def sortieDesTests (tests : Valeur) : Except Leve String := do
  let sortie := Texte.strip (← i.str (← i.getOu tests "output" (texte "")))
  pure ("Voici la sortie reelle des tests. Corrige ce qu'elle rapporte, ne devine pas :\n\n"
    ++ (if sortie != "" then Texte.derniers 1500 sortie else "(vide)"))

def diagnosticDesTests (v : Valeur) : Except Leve (Option String) := do
  let tests ← i.getOu v "tests" (dict [])
  if ← testsRouges i tests then pure (some (← sortieDesTests i tests)) else pure none

def diagnosticDesManquants (v : Valeur) : Except Leve (Option String) := do
  let manquants ← manquants i v
  if ← i.vrai manquants then
    pure (some ("Fichiers annonces et absents du disque : " ++ (← i.joindre ", " manquants) ++ "."))
  else pure none

def diagnosticDesFatals (v : Valeur) : Except Leve (Option String) := do
  let fatals ← fatals i v
  if ← i.vrai fatals then
    pure (some ("Boucle d'import fatale : " ++ (← i.joindre "; " fatals) ++ ". Casse-la."))
  else pure none

def diagnosticDuSql : Valeur → Except Leve (Option String) :=
  signale i "sql_casse" fun casse => do
    pure ("SQL refuse par le moteur : " ++ (← i.strDe casse "fichier") ++ " — "
      ++ (← i.strDe casse "motif")
      ++ ". Un schema qui ne se cree pas n'est pas un livrable. Corrige-le, puis execute-le pour "
      ++ "de bon : aucun test de ce projet ne lance les migrations.")

def diagnosticDuVide : Valeur → Except Leve (Option String) :=
  signale i "livrable_vide" fun vide => do
    pure ("Livrable vide : " ++ (← i.strDe vide "fichier")
      ++ " ne contient ni classe, ni fonction, ni affectation — seulement « "
      ++ (← i.strDe vide "apercu") ++ " ». Ecris ce que la section demande. Un "
      ++ "test qui se contente d'importer ce fichier ne prouve rien.")

def diagnosticDuTauto : Valeur → Except Leve (Option String) :=
  signale i "test_tautologique" fun tauto => do
    pure ("Test qui ne peut pas echouer : " ++ (← i.strDe tauto "fichier") ++ ":"
      ++ (← i.strDe tauto "ligne") ++ ", dans " ++ (← i.strDe tauto "fonction") ++ "() — "
      ++ (← i.strDe tauto "raison") ++ ". Fais porter l'assertion sur le resultat "
      ++ "reel de la fonction testee, puis casse volontairement cette "
      ++ "fonction et verifie que le test rougit. Une suite verte est la "
      ++ "preuve qu'on te demande ; celle-ci n'en est pas une.")

def diagnosticDuFaux : Valeur → Except Leve (Option String) :=
  signale i "faux_paquet" fun faux => do
    pure ("Dependance fabriquee : le repertoire " ++ (← i.strDe faux "chemin")
      ++ " porte le nom du paquet tiers `" ++ (← i.strDe faux "paquet") ++ "` et masque "
      ++ "le vrai. Supprime-le. Si ce paquet est necessaire, declare-le "
      ++ "comme dependance ; sinon ecris le code sans lui.")

def diagnosticDesRemontees : Valeur → Except Leve (Option String) :=
  signale i "imports_remontent" fun remontee => do
    let niveau ← i.int (← i.getOu remontee "niveau" (entier 0))
    pure ("Import relatif invalide : " ++ (← i.strDe remontee "fichier") ++ " ligne "
      ++ (← i.strDe remontee "ligne") ++ ", `from " ++ String.ofList (.replicate niveau.toNat '.')
      ++ "module import ...` remonte de " ++ (← i.strDe remontee "niveau")
      ++ " niveaux alors que ce fichier n'en a que " ++ (← i.strDe remontee "profondeur")
      ++ " au-dessus de lui. Python refuse : « attempted relative import beyond "
      ++ "top-level package ». Remplace-le par un import absolu depuis la racine du projet.")

def morceaux : List (Valeur → Except Leve (Option String)) → Valeur → Except Leve (List String)
  | [], _ => pure []
  | morceau :: suite, v => do
      match ← morceau v with
      | some dit => pure (dit :: (← morceaux suite v))
      | none => morceaux suite v

def diagnostic (verification : Valeur) (raison : String) : Except Leve String := do
  let v ← i.ou verification (dict [])
  let constats ← morceaux
    [diagnosticDesTests i, diagnosticDesManquants i, diagnosticDesFatals i, diagnosticDuSql i,
      diagnosticDuVide i, diagnosticDuTauto i, diagnosticDuFaux i, diagnosticDesRemontees i] v
  pure ("\n\n".intercalate
    ([("La passe precedente sur cette section a echoue : " ++ raison ++ ".")] ++ constats
      ++ ["Le travail deja correct est sur le disque : lis-le, ne le reecris "
        ++ "pas. Corrige uniquement ce qui est liste ci-dessus, puis relis tes "
        ++ "fichiers pour confirmer."]))

inductive Issue where
  | arret (detail : String)
  | bloque (verification : Valeur) (raison : String)
  | passe (raison : String)

structure Lu (δ : Type) where
  qualite : String
  duree : δ
  issue : Issue

def issue (rapport : List (Cle × Valeur)) : Except Leve Issue := do
  let statut := i.lower (← i.str (← i.getOu (dict rapport) "statut_objectif" (texte "")))
  if statut != "" && statut != "completed" then
    pure (.arret ("l'objectif n'a pas abouti (statut : " ++ statut ++ ")"))
  else if rapport.isEmpty then pure (.arret "aucun rapport — la mission n'a pas eu lieu")
  else
    let verification ← i.get (dict rapport) "verification"
    match ← bloquant i verification with
    | (true, raison) => pure (.bloque verification raison)
    | (false, raison) => pure (.passe raison)

def lire (rapport : List (Cle × Valeur)) : Except Leve (Lu δ) := do
  let qualite ← i.str (← i.getOu (dict rapport) "qualite" (texte ""))
  let duree ← i.float (← i.getOu (dict rapport) "total_duration_ms" (flottant "0.0"))
  pure { qualite, duree, issue := ← issue i rapport }

/-- `max(1, max_passes)` -/
def nombreDePasses (maxPasses : Int) : Nat := (max 1 maxPasses).toNat

/-- What the passes of one section leave: the step, what was announced on the way and the repairs
that were asked for. -/
structure Passes (δ : Type) where
  etape : Etape δ
  annonces : List (Etape δ)
  appels : List Appel

/-- `etape.statut = "bloquee"` -/
def Etape.bloquer (etape : Etape δ) (detail : String) : Etape δ :=
  { etape with statut := .bloquee, detail }

def Etape.noter (etape : Etape δ) (passe : Nat) (lu : Lu δ) : Etape δ :=
  { etape with passes := passe, qualite := lu.qualite, dureeS := i.cumuler etape.dureeS lu.duree }

def Etape.franchir (etape : Etape δ) (passe : Nat) (raison : String) : Etape δ :=
  { etape with
    statut := if 1 < passe then .reparee else if raison != "" then .signalee else .faite
    detail := raison }

variable (appelables : Appelables)

/-- The passes of a section from the answer to the current one, with so many repairs left. -/
def passes (rang : Nat) (partie : Section) :
    (restantes passe : Nat) → Etape δ → Sortie → Except Leve (Passes δ)
  | _, _, _, .echappe erreur => .error erreur
  | _, _, etape, .leve erreur => pure ⟨etape.bloquer erreur.message, [], []⟩
  | restantes, passe, etape, .rendu rapport => do
      let lu ← lire i rapport
      let etape := etape.noter i passe lu
      match lu.issue with
      | .arret detail => pure ⟨etape.bloquer detail, [], []⟩
      | .passe raison => pure ⟨etape.franchir passe raison, [], []⟩
      | .bloque verification raison =>
          match restantes, appelables.reparer with
          | restantes + 1, some reparer =>
              let annonce := etape.bloquer
                (raison ++ " — passe " ++ toString passe ++ " echouee, reparation")
              match diagnostic i verification raison with
              | .error erreur => pure ⟨annonce.bloquer erreur.message, [annonce], []⟩
              | .ok consigne =>
                  let reponse := reparer rang (passe + 1) partie consigne
                  let suite ← passes rang partie restantes (passe + 1) annonce reponse
                  pure { suite with
                    annonces := annonce :: suite.annonces
                    appels := ⟨rang, passe + 1, reponse⟩ :: suite.appels }
          | _, _ => pure ⟨etape.bloquer raison, [], []⟩

/-- `Etape(section=s)` -/
def Etape.nouvelle (partie : Section) : Etape δ :=
  { partie, statut := .enAttente, qualite := "", detail := "", dureeS := i.zero, passes := 0 }

def Etape.ignorer (etape : Etape δ) : Etape δ :=
  { etape with statut := .ignoree, detail := "etape precedente bloquante" }

/-- The steps, what `on_etape` was given and the calls that were made. -/
structure Deroule (δ : Type) where
  etapes : List (Etape δ)
  annonces : List (Etape δ)
  appels : List Appel

def deroulerDepuis (maxPasses : Int) : Nat → Bool → List Section → Except Leve (Deroule δ)
  | _, _, [] => pure ⟨[], [], []⟩
  | rang, true, partie :: parties => do
      let suite ← deroulerDepuis maxPasses (rang + 1) true parties
      pure { suite with etapes := (Etape.nouvelle i partie).ignorer :: suite.etapes }
  | rang, false, partie :: parties => do
      let reponse := appelables.lancer rang partie
      let fin ← passes i appelables rang partie (nombreDePasses maxPasses - 1) 1
        (Etape.nouvelle i partie) reponse
      let suite ← deroulerDepuis maxPasses (rang + 1) (fin.etape.statut == .bloquee) parties
      pure
        { etapes := fin.etape :: suite.etapes
          annonces := fin.annonces ++ fin.etape :: suite.annonces
          appels := ⟨rang, 1, reponse⟩ :: fin.appels ++ suite.appels }

def derouler (sections : List Section) (maxPasses : Int) : Except Leve (Deroule δ) :=
  deroulerDepuis i appelables maxPasses 0 false sections

def StatutEtape.Franchie (statut : StatutEtape) : Prop :=
  statut = .faite ∨ statut = .signalee ∨ statut = .reparee

/-- The answer is a report whose verification stops the queue. -/
def Bloque (reponse : Sortie) : Prop :=
  ∃ rapport verification raison, reponse = .rendu rapport ∧
    i.get (dict rapport) "verification" = .ok verification ∧
    bloquant i verification = .ok (true, raison)

/-- A repair follows the pass before it, of the same section and blocked. -/
def Suit (a b : Appel) : Prop :=
  1 < b.passe → a.rang = b.rang ∧ a.passe + 1 = b.passe ∧ Bloque i a.reponse

theorem issue_of_lire {rapport : List (Cle × Valeur)} {lu : Lu δ}
    (h : lire i rapport = .ok lu) : issue i rapport = .ok lu.issue := by
  simp only [lire, bind_eq_ok, pure_eq_ok, Except.ok.injEq] at h
  obtain ⟨_, -, _, -, _, -, _, -, issue, hissue, rfl⟩ := h
  exact hissue

theorem bloque_of_issue {rapport : List (Cle × Valeur)} {verification : Valeur} {raison : String}
    (h : issue i rapport = .ok (.bloque verification raison)) : Bloque i (.rendu rapport) := by
  simp only [issue, bind_eq_ok, pure_eq_ok] at h
  obtain ⟨_, -, statut, -, h⟩ := h
  split at h
  · cases h
  · split at h
    · cases h
    · obtain ⟨verification', hget, h⟩ := bind_eq_ok.mp h
      obtain ⟨⟨bloque, raison'⟩, hbloquant, h⟩ := bind_eq_ok.mp h
      cases bloque with
      | false => cases h
      | true => exact ⟨rapport, verification', raison', rfl, hget, hbloquant⟩

theorem franchie_franchir (etape : Etape δ) (passe : Nat) (raison : String) :
    (etape.franchir passe raison).statut.Franchie := by
  unfold Etape.franchir StatutEtape.Franchie
  dsimp only
  split
  · exact Or.inr (Or.inr rfl)
  · split
    · exact Or.inr (Or.inl rfl)
    · exact Or.inl rfl

/-- The step is closed, and the repairs are consecutive passes of the section. -/
structure PassesConformes (rang restantes passe : Nat) (etape : Etape δ) (reponse : Sortie)
    (fin : Passes δ) : Prop where
  partie : fin.etape.partie = etape.partie
  close : fin.etape.statut.Franchie ∨ fin.etape.statut = .bloquee
  rangs : ∀ a ∈ fin.appels, a.rang = rang
  apres : ∀ a ∈ fin.appels, passe < a.passe
  nombre : fin.appels.length ≤ restantes
  suivi : (⟨rang, passe, reponse⟩ :: fin.appels).IsChain (Suit i)

theorem passesConformes_sans_appel {rang restantes passe : Nat} {etape : Etape δ}
    {reponse : Sortie} {fin : Passes δ} (hpartie : fin.etape.partie = etape.partie)
    (hclose : fin.etape.statut.Franchie ∨ fin.etape.statut = .bloquee) (hvide : fin.appels = []) :
    PassesConformes i rang restantes passe etape reponse fin where
  partie := hpartie
  close := hclose
  rangs := by simp [hvide]
  apres := by simp [hvide]
  nombre := by simp [hvide]
  suivi := by simp [hvide]

variable {appelables : Appelables} {rang : Nat} {partie : Section}

/-- The ways in which the passes of a section come to an end. -/
inductive Enchaine (appelables : Appelables) (rang : Nat) (partie : Section) :
    (restantes passe : Nat) → Etape δ → Sortie → Passes δ → Prop where
  | leve (restantes passe : Nat) (etape : Etape δ) (erreur : Leve) :
      Enchaine appelables rang partie restantes passe etape (.leve erreur)
        ⟨etape.bloquer erreur.message, [], []⟩
  | arret (restantes passe : Nat) (etape : Etape δ) (rapport : List (Cle × Valeur)) (lu : Lu δ)
      (detail : String) (hlu : lire i rapport = .ok lu) (hissue : lu.issue = .arret detail) :
      Enchaine appelables rang partie restantes passe etape (.rendu rapport)
        ⟨(etape.noter i passe lu).bloquer detail, [], []⟩
  | franchie (restantes passe : Nat) (etape : Etape δ) (rapport : List (Cle × Valeur))
      (lu : Lu δ) (raison : String) (hlu : lire i rapport = .ok lu)
      (hissue : lu.issue = .passe raison) :
      Enchaine appelables rang partie restantes passe etape (.rendu rapport)
        ⟨(etape.noter i passe lu).franchir passe raison, [], []⟩
  | bloquee (restantes passe : Nat) (etape : Etape δ) (rapport : List (Cle × Valeur))
      (lu : Lu δ) (verification : Valeur) (raison detail : String) (annonces : List (Etape δ))
      (hlu : lire i rapport = .ok lu) (hissue : lu.issue = .bloque verification raison)
      (hfin : restantes = 0 ∨ appelables.reparer = none ∨
        ∃ erreur, diagnostic i verification raison = .error erreur) :
      Enchaine appelables rang partie restantes passe etape (.rendu rapport)
        ⟨(etape.noter i passe lu).bloquer detail, annonces, []⟩
  | reparee (restantes passe : Nat) (etape annonce : Etape δ) (rapport : List (Cle × Valeur))
      (lu : Lu δ) (verification : Valeur) (raison consigne : String)
      (reparer : Nat → Nat → Section → String → Sortie) (suite : Passes δ)
      (hlu : lire i rapport = .ok lu) (hissue : lu.issue = .bloque verification raison)
      (hreparer : appelables.reparer = some reparer)
      (hconsigne : diagnostic i verification raison = .ok consigne)
      (hannonce : annonce.partie = etape.partie)
      (hsuite : Enchaine appelables rang partie restantes (passe + 1) annonce
        (reparer rang (passe + 1) partie consigne) suite) :
      Enchaine appelables rang partie (restantes + 1) passe etape (.rendu rapport)
        { suite with
          annonces := annonce :: suite.annonces
          appels := ⟨rang, passe + 1, reparer rang (passe + 1) partie consigne⟩ :: suite.appels }

theorem enchaine_of_passes {restantes passe : Nat} {etape : Etape δ} {reponse : Sortie}
    {fin : Passes δ}
    (h : passes i appelables rang partie restantes passe etape reponse = .ok fin) :
    Enchaine i appelables rang partie restantes passe etape reponse fin := by
  cases reponse with
  | echappe erreur => simp [passes] at h
  | leve erreur =>
      simp only [passes, pure_eq_ok, Except.ok.injEq] at h
      subst h
      exact .leve _ _ _ _
  | rendu rapport =>
      rw [passes, bind_eq_ok] at h
      obtain ⟨lu, hlu, h⟩ := h
      cases hissue : lu.issue with
      | arret detail =>
          simp only [hissue, pure_eq_ok, Except.ok.injEq] at h
          subst h
          exact .arret _ _ _ _ _ _ hlu hissue
      | passe raison =>
          simp only [hissue, pure_eq_ok, Except.ok.injEq] at h
          subst h
          exact .franchie _ _ _ _ _ _ hlu hissue
      | bloque verification raison =>
          cases hreparer : appelables.reparer with
          | none =>
              simp only [hissue, hreparer, pure_eq_ok, Except.ok.injEq] at h
              subst h
              exact .bloquee _ _ _ _ _ _ _ _ _ hlu hissue (Or.inr (Or.inl hreparer))
          | some reparer =>
              cases restantes with
              | zero =>
                  simp only [hissue, pure_eq_ok, Except.ok.injEq] at h
                  subst h
                  exact .bloquee _ _ _ _ _ _ _ _ _ hlu hissue (Or.inl rfl)
              | succ restantes =>
                  cases hconsigne : diagnostic i verification raison with
                  | error erreur =>
                      simp only [hissue, hreparer, hconsigne, pure_eq_ok, Except.ok.injEq] at h
                      subst h
                      exact .bloquee _ _ _ _ _ _ _ _ _ hlu hissue
                        (Or.inr (Or.inr ⟨erreur, hconsigne⟩))
                  | ok consigne =>
                      simp only [hissue, hreparer, hconsigne, bind_eq_ok, pure_eq_ok,
                        Except.ok.injEq] at h
                      obtain ⟨suite, hsuite, rfl⟩ := h
                      exact .reparee _ _ _ _ _ _ _ _ _ _ _ hlu hissue hreparer hconsigne rfl
                        (enchaine_of_passes hsuite)

theorem passes_conformes {restantes passe : Nat} {etape : Etape δ} {reponse : Sortie}
    {fin : Passes δ} (h : Enchaine i appelables rang partie restantes passe etape reponse fin) :
    PassesConformes i rang restantes passe etape reponse fin := by
  induction h with
  | leve => exact passesConformes_sans_appel i rfl (Or.inr rfl) rfl
  | arret => exact passesConformes_sans_appel i rfl (Or.inr rfl) rfl
  | franchie => exact passesConformes_sans_appel i rfl (Or.inl (franchie_franchir _ _ _)) rfl
  | bloquee => exact passesConformes_sans_appel i rfl (Or.inr rfl) rfl
  | reparee restantes passe etape annonce rapport lu verification raison consigne reparer suite
      hlu hissue hreparer hconsigne hannonce hsuite ih =>
      have hbloque : Bloque i (.rendu rapport) :=
        bloque_of_issue i (hissue ▸ issue_of_lire i hlu)
      constructor
      · exact ih.partie.trans hannonce
      · exact ih.close
      · intro a ha
        rcases List.mem_cons.mp ha with rfl | ha
        · rfl
        · exact ih.rangs a ha
      · intro a ha
        rcases List.mem_cons.mp ha with rfl | ha
        · exact Nat.lt_succ_self passe
        · have hlt := ih.apres a ha
          omega
      · have hle := ih.nombre
        simp only [List.length_cons]
        omega
      · exact List.isChain_cons_cons.mpr ⟨fun _ => ⟨rfl, rfl, hbloque⟩, ih.suivi⟩

/-- One closed step per section: steps that went through, then at most one that is blocked, and
after it only ignored ones. -/
structure EtapesConformes (sections : List Section) (etapes : List (Etape δ)) : Prop where
  sections : etapes.map Etape.partie = sections
  aucuneEnAttente : ∀ e ∈ etapes, e.statut ≠ .enAttente
  forme : ∃ franchies bloquees ignorees, etapes = franchies ++ (bloquees ++ ignorees) ∧
    (∀ e ∈ franchies, e.statut.Franchie) ∧
    ((bloquees = [] ∧ ignorees = []) ∨ ∃ e, bloquees = [e] ∧ e.statut = .bloquee) ∧
    ∀ e ∈ ignorees, e.statut = .ignoree

/-- The calls of a queue that starts at a given place: `lancer` once for each of so many sections,
in order, and repairs that each follow a blocked pass. -/
structure AppelsConformes (rang nombre : Nat) (maxPasses : Int) (appels : List Appel) : Prop where
  rangs : ∀ a ∈ appels, rang ≤ a.rang
  lancements : (appels.filter (·.passe = 1)).map Appel.rang = List.range' rang nombre
  reparations : ∀ k, appels.countP (fun a => a.rang = k ∧ 1 < a.passe) ≤ (maxPasses - 1).toNat
  debut : ∀ a ∈ appels.head?, a.passe = 1
  suivi : appels.IsChain (Suit i)

/-- What the queue promises; the sections that are not ignored are those that were launched. -/
structure Conforme (rang : Nat) (sections : List Section) (maxPasses : Int)
    (r : Deroule δ) : Prop where
  etapes : EtapesConformes sections r.etapes
  appels : AppelsConformes i rang (r.etapes.countP (·.statut ≠ .ignoree)) maxPasses r.appels

theorem deroulerDepuis_arretee (maxPasses : Int) (rang : Nat) (sections : List Section) :
    deroulerDepuis i appelables maxPasses rang true sections
      = .ok ⟨sections.map fun partie => (Etape.nouvelle i partie).ignorer, [], []⟩ := by
  induction sections generalizing rang with
  | nil => rfl
  | cons partie sections ih => simp [deroulerDepuis, ih]

theorem appelsConformes_nil (rang : Nat) (maxPasses : Int) :
    AppelsConformes i rang 0 maxPasses [] := by
  constructor <;> simp

section Cons

variable {maxPasses : Int} {etape : Etape δ} {reponse : Sortie} {fin : Passes δ}
  (hfin : PassesConformes i rang (nombreDePasses maxPasses - 1) 1 etape reponse fin)
include hfin

private theorem lancements_cons (suite : List Appel) :
    ((⟨rang, 1, reponse⟩ :: fin.appels ++ suite).filter (·.passe = 1)).map Appel.rang
      = rang :: (suite.filter (·.passe = 1)).map Appel.rang := by
  have hvide : fin.appels.filter (·.passe = 1) = [] := by
    refine List.filter_eq_nil_iff.mpr fun a ha => ?_
    have hlt := hfin.apres a ha
    simp only [decide_eq_true_eq]
    omega
  rw [List.filter_append, List.filter_cons_of_pos (by simp), hvide]
  simp

private theorem reparations_cons {suite : List Appel} (hrangs : ∀ a ∈ suite, rang + 1 ≤ a.rang)
    (hsuite : ∀ k, suite.countP (fun a => a.rang = k ∧ 1 < a.passe) ≤ (maxPasses - 1).toNat)
    (k : Nat) :
    (⟨rang, 1, reponse⟩ :: fin.appels ++ suite).countP (fun a => a.rang = k ∧ 1 < a.passe)
      ≤ (maxPasses - 1).toNat := by
  have hdebut : ((⟨rang, 1, reponse⟩ :: fin.appels).countP fun a => a.rang = k ∧ 1 < a.passe)
      = fin.appels.countP fun a => a.rang = k ∧ 1 < a.passe := by
    rw [List.countP_cons]
    simp
  rw [List.countP_append, hdebut]
  by_cases hk : rang = k
  · have hzero : suite.countP (fun a => a.rang = k ∧ 1 < a.passe) = 0 := by
      refine List.countP_eq_zero.mpr fun a ha => ?_
      have hle := hrangs a ha
      simp only [decide_eq_true_eq]
      omega
    have hle := (List.countP_le_length (p := fun a => a.rang = k ∧ 1 < a.passe)).trans hfin.nombre
    simp only [nombreDePasses] at hle
    omega
  · have hzero : fin.appels.countP (fun a => a.rang = k ∧ 1 < a.passe) = 0 := by
      refine List.countP_eq_zero.mpr fun a ha => ?_
      have heq := hfin.rangs a ha
      simp only [decide_eq_true_eq]
      omega
    have hle := hsuite k
    omega

theorem appelsConformes_cons {nombre : Nat} {suite : List Appel}
    (hsuite : AppelsConformes i (rang + 1) nombre maxPasses suite) :
    AppelsConformes i rang (nombre + 1) maxPasses (⟨rang, 1, reponse⟩ :: fin.appels ++ suite) := by
  constructor
  · intro a ha
    rcases List.mem_append.mp ha with ha | ha
    · rcases List.mem_cons.mp ha with rfl | ha
      · exact Nat.le_refl rang
      · exact (hfin.rangs a ha).ge
    · have hle := hsuite.rangs a ha
      omega
  · rw [lancements_cons i hfin suite, hsuite.lancements, List.range'_succ]
  · exact reparations_cons i hfin hsuite.rangs hsuite.reparations
  · intro a ha
    cases ha
    rfl
  · refine hfin.suivi.append hsuite.suivi fun a _ b hb hrepare => ?_
    -- a section starts with `lancer`, which follows anything
    have hdebut := hsuite.debut b hb
    omega

end Cons

theorem etapesConformes_bloquee {partie : Section} {etape : Etape δ} {sections : List Section}
    (hpartie : etape.partie = partie) (hbloquee : etape.statut = .bloquee) :
    EtapesConformes (partie :: sections)
      (etape :: sections.map fun partie => (Etape.nouvelle i partie).ignorer) where
  sections := by simp [hpartie, Function.comp_def, Etape.ignorer, Etape.nouvelle]
  aucuneEnAttente := by simp [hbloquee, Etape.ignorer]
  forme := by
    refine ⟨[], [etape], sections.map fun partie => (Etape.nouvelle i partie).ignorer, rfl,
      by simp, Or.inr ⟨etape, rfl, hbloquee⟩, ?_⟩
    simp [Etape.ignorer]

theorem etapesConformes_franchie {partie : Section} {etape : Etape δ} {sections : List Section}
    {etapes : List (Etape δ)} (hpartie : etape.partie = partie)
    (hfranchie : etape.statut.Franchie) (h : EtapesConformes sections etapes) :
    EtapesConformes (partie :: sections) (etape :: etapes) where
  sections := by rw [List.map_cons, hpartie, h.sections]
  aucuneEnAttente := by
    intro e he
    rcases List.mem_cons.mp he with rfl | he
    · rcases hfranchie with h | h | h <;> simp [h]
    · exact h.aucuneEnAttente e he
  forme := by
    obtain ⟨franchies, bloquees, ignorees, hetapes, hfranchies, hbloquees, hignorees⟩ := h.forme
    refine ⟨etape :: franchies, bloquees, ignorees, by rw [hetapes]; rfl, ?_, hbloquees,
      hignorees⟩
    intro e he
    rcases List.mem_cons.mp he with rfl | he
    · exact hfranchie
    · exact hfranchies e he

theorem conforme_of_deroulerDepuis {maxPasses : Int} {sections : List Section} {r : Deroule δ}
    (h : deroulerDepuis i appelables maxPasses rang false sections = .ok r) :
    Conforme i rang sections maxPasses r := by
  induction sections generalizing rang r with
  | nil =>
      cases h
      exact ⟨⟨rfl, by simp, [], [], [], by simp⟩, appelsConformes_nil i rang maxPasses⟩
  | cons partie sections ih =>
      simp only [deroulerDepuis, bind_eq_ok, pure_eq_ok, Except.ok.injEq] at h
      obtain ⟨fin, hpasses, suite, hsuite, rfl⟩ := h
      have hfin := passes_conformes i (enchaine_of_passes i hpasses)
      rcases hfin.close with hfranchie | hbloquee
      · have hstatut : (fin.etape.statut == .bloquee) = false := by
          rcases hfranchie with h | h | h <;> simp [h]
        have hcompte : fin.etape.statut ≠ .ignoree := by
          rcases hfranchie with h | h | h <;> simp [h]
        rw [hstatut] at hsuite
        have hconforme := ih hsuite
        constructor
        · exact etapesConformes_franchie hfin.partie hfranchie hconforme.etapes
        · have happels := appelsConformes_cons i hfin hconforme.appels
          simpa [List.countP_cons, hcompte] using happels
      · have hstatut : (fin.etape.statut == .bloquee) = true := by simp [hbloquee]
        rw [hstatut, deroulerDepuis_arretee] at hsuite
        cases hsuite
        constructor
        · exact etapesConformes_bloquee i hfin.partie hbloquee
        · have happels := appelsConformes_cons i hfin (appelsConformes_nil i (rang + 1) maxPasses)
          have hignorees : (sections.map fun partie => (Etape.nouvelle i partie).ignorer).countP
              (fun e => decide (e.statut ≠ .ignoree)) = 0 :=
            List.countP_eq_zero.mpr (by simp [Etape.ignorer])
          rw [List.countP_cons, hignorees]
          simpa [hbloquee] using happels

/-- The answer is an exception that the queue catches, or a report that it can read. -/
def Lisible : Sortie → Prop
  | .rendu rapport => ∃ lu, lire i rapport = .ok lu
  | .leve _ => True
  | .echappe _ => False

/-- The answers that the queue asks for, one after the other: a section that went through asks for
the next one, and a blocked pass for a repair while there is one left. -/
inductive Demandee (appelables : Appelables) (sections : List Section) (maxPasses : Int) :
    Nat → Nat → Sortie → Prop where
  | premiere (partie : Section) (hpartie : sections[0]? = some partie) :
      Demandee appelables sections maxPasses 0 1 (appelables.lancer 0 partie)
  | suivante (rang passe : Nat) (rapport : List (Cle × Valeur)) (raison : String)
      (partie : Section) (hreponse : Demandee appelables sections maxPasses rang passe
        (.rendu rapport))
      (hissue : issue i rapport = .ok (.passe raison))
      (hpartie : sections[rang + 1]? = some partie) :
      Demandee appelables sections maxPasses (rang + 1) 1 (appelables.lancer (rang + 1) partie)
  | reparation (rang passe : Nat) (rapport : List (Cle × Valeur)) (verification : Valeur)
      (raison consigne : String) (reparer : Nat → Nat → Section → String → Sortie)
      (partie : Section) (hreponse : Demandee appelables sections maxPasses rang passe
        (.rendu rapport))
      (hissue : issue i rapport = .ok (.bloque verification raison))
      (hpasse : (passe : Int) < max 1 maxPasses) (hreparer : appelables.reparer = some reparer)
      (hconsigne : diagnostic i verification raison = .ok consigne)
      (hpartie : sections[rang]? = some partie) :
      Demandee appelables sections maxPasses rang (passe + 1)
        (reparer rang (passe + 1) partie consigne)

variable {sections : List Section} {maxPasses : Int}

theorem lisible_of_enchaine {restantes passe : Nat} {etape : Etape δ} {reponse : Sortie}
    {fin : Passes δ} (h : Enchaine i appelables rang partie restantes passe etape reponse fin) :
    Lisible i reponse := by
  cases h with
  | leve => trivial
  | arret _ _ _ _ lu _ hlu => exact ⟨lu, hlu⟩
  | franchie _ _ _ _ lu _ hlu => exact ⟨lu, hlu⟩
  | bloquee _ _ _ _ lu _ _ _ _ hlu => exact ⟨lu, hlu⟩
  | reparee _ _ _ _ _ lu _ _ _ _ _ hlu => exact ⟨lu, hlu⟩

theorem statut_of_enchaine {restantes passe : Nat} {etape : Etape δ}
    {rapport : List (Cle × Valeur)} {raison : String} {fin : Passes δ}
    (h : Enchaine i appelables rang partie restantes passe etape (.rendu rapport) fin)
    (hissue : issue i rapport = .ok (.passe raison)) : (fin.etape.statut == .bloquee) = false := by
  have hlue {lu : Lu δ} (hlu : lire i rapport = .ok lu) : lu.issue = .passe raison :=
    Except.ok.inj ((issue_of_lire i hlu).symm.trans hissue)
  cases h with
  | franchie _ _ etape _ lu raison =>
      rcases franchie_franchir (etape.noter i passe lu) passe raison with h | h | h <;> simp [h]
  | arret _ _ _ _ _ _ hlu hissue => exact absurd (hissue.symm.trans (hlue hlu)) (by simp)
  | bloquee _ _ _ _ _ _ _ _ _ hlu hissue => exact absurd (hissue.symm.trans (hlue hlu)) (by simp)
  | reparee _ _ _ _ _ _ _ _ _ _ _ hlu hissue =>
      exact absurd (hissue.symm.trans (hlue hlu)) (by simp)

theorem enchaine_reparation {restantes passe : Nat} {etape : Etape δ}
    {rapport : List (Cle × Valeur)} {verification : Valeur} {raison consigne : String}
    {reparer : Nat → Nat → Section → String → Sortie} {fin : Passes δ}
    (h : Enchaine i appelables rang partie (restantes + 1) passe etape (.rendu rapport) fin)
    (hissue : issue i rapport = .ok (.bloque verification raison))
    (hreparer : appelables.reparer = some reparer)
    (hconsigne : diagnostic i verification raison = .ok consigne) :
    ∃ annonce suite, suite.etape = fin.etape ∧
      Enchaine i appelables rang partie restantes (passe + 1) annonce
        (reparer rang (passe + 1) partie consigne) suite := by
  have hlue {lu : Lu δ} (hlu : lire i rapport = .ok lu) : lu.issue = .bloque verification raison :=
    Except.ok.inj ((issue_of_lire i hlu).symm.trans hissue)
  cases h with
  | arret _ _ _ _ _ _ hlu hissue => exact absurd (hissue.symm.trans (hlue hlu)) (by simp)
  | franchie _ _ _ _ _ _ hlu hissue => exact absurd (hissue.symm.trans (hlue hlu)) (by simp)
  | bloquee _ _ _ _ _ verification' raison' _ _ hlu hissue hfin =>
      cases hissue.symm.trans (hlue hlu)
      rcases hfin with hzero | hsans | ⟨erreur, herreur⟩
      · omega
      · rw [hsans] at hreparer
        cases hreparer
      · rw [herreur] at hconsigne
        cases hconsigne
  | reparee _ _ _ annonce _ _ verification' raison' consigne' reparer' suite hlu hissue hreparer'
      hconsigne' _ hsuite =>
      cases hissue.symm.trans (hlue hlu)
      cases hreparer'.symm.trans hreparer
      cases hconsigne'.symm.trans hconsigne
      exact ⟨annonce, suite, rfl, hsuite⟩

/-- The queue that returned has gone through this pass. -/
def EnCours (appelables : Appelables) (sections : List Section) (maxPasses : Int)
    (rang passe : Nat) (reponse : Sortie) : Prop :=
  ∃ partie parties etape fin suite, sections.drop rang = partie :: parties ∧
    Enchaine i appelables rang partie (nombreDePasses maxPasses - passe) passe etape reponse fin ∧
    deroulerDepuis i appelables maxPasses (rang + 1) (fin.etape.statut == .bloquee) parties
      = .ok suite

theorem enCours_debut {parties : List Section} {r : Deroule δ}
    (hparties : sections.drop rang = partie :: parties)
    (h : deroulerDepuis i appelables maxPasses rang false (partie :: parties) = .ok r) :
    EnCours i appelables sections maxPasses rang 1 (appelables.lancer rang partie) := by
  simp only [deroulerDepuis, bind_eq_ok] at h
  obtain ⟨fin, hpasses, suite, hsuite, -⟩ := h
  exact ⟨partie, parties, _, fin, suite, hparties, enchaine_of_passes i hpasses, hsuite⟩

theorem drop_eq_cons_of_getElem? (h : sections[rang]? = some partie) :
    sections.drop rang = partie :: sections.drop (rang + 1) := by
  obtain ⟨hrang, rfl⟩ := List.getElem?_eq_some_iff.mp h
  exact List.drop_eq_getElem_cons hrang

theorem enCours_suivante {passe : Nat} {rapport : List (Cle × Valeur)} {raison : String}
    (h : EnCours i appelables sections maxPasses rang passe (.rendu rapport))
    (hissue : issue i rapport = .ok (.passe raison))
    (hpartie : sections[rang + 1]? = some partie) :
    EnCours i appelables sections maxPasses (rang + 1) 1 (appelables.lancer (rang + 1) partie) := by
  obtain ⟨courante, parties, etape, fin, suite, hparties, hfin, hsuite⟩ := h
  rw [statut_of_enchaine i hfin hissue] at hsuite
  have hreste : parties = sections.drop (rang + 1) := by
    rw [← List.tail_drop, hparties]
    rfl
  rw [hreste, drop_eq_cons_of_getElem? hpartie] at hsuite
  exact enCours_debut i (drop_eq_cons_of_getElem? hpartie) hsuite

theorem enCours_reparation {passe : Nat} {rapport : List (Cle × Valeur)} {verification : Valeur}
    {raison consigne : String} {reparer : Nat → Nat → Section → String → Sortie}
    (h : EnCours i appelables sections maxPasses rang passe (.rendu rapport))
    (hissue : issue i rapport = .ok (.bloque verification raison))
    (hpasse : (passe : Int) < max 1 maxPasses) (hreparer : appelables.reparer = some reparer)
    (hconsigne : diagnostic i verification raison = .ok consigne)
    (hpartie : sections[rang]? = some partie) :
    EnCours i appelables sections maxPasses rang (passe + 1)
      (reparer rang (passe + 1) partie consigne) := by
  obtain ⟨courante, parties, etape, fin, suite, hparties, hfin, hsuite⟩ := h
  have hmeme : courante :: parties = partie :: sections.drop (rang + 1) :=
    hparties.symm.trans (drop_eq_cons_of_getElem? hpartie)
  cases hmeme
  have hrestantes : nombreDePasses maxPasses - passe
      = nombreDePasses maxPasses - (passe + 1) + 1 := by
    unfold nombreDePasses
    omega
  rw [hrestantes] at hfin
  obtain ⟨annonce, reparation, hetape, hreparation⟩ :=
    enchaine_reparation i hfin hissue hreparer hconsigne
  rw [← hetape] at hsuite
  exact ⟨partie, _, annonce, reparation, suite, hparties, hreparation, hsuite⟩

theorem enCours_of_demandee {r : Deroule δ} (h : derouler i appelables sections maxPasses = .ok r)
    {passe : Nat} {reponse : Sortie}
    (hdemandee : Demandee i appelables sections maxPasses rang passe reponse) :
    EnCours i appelables sections maxPasses rang passe reponse := by
  induction hdemandee with
  | premiere partie hpartie =>
      have hparties : sections.drop 0 = partie :: sections.drop 1 :=
        drop_eq_cons_of_getElem? hpartie
      refine enCours_debut i hparties (r := r) ?_
      rw [← hparties]
      exact h
  | suivante rang passe rapport raison partie _ hissue hpartie ih =>
      exact enCours_suivante i ih hissue hpartie
  | reparation rang passe rapport verification raison consigne reparer partie _ hissue hpasse
      hreparer hconsigne hpartie ih =>
      exact enCours_reparation i ih hissue hpasse hreparer hconsigne hpartie

/-- A section that went through was asked for an answer that says so. -/
def Aboutie (appelables : Appelables) (sections : List Section) (maxPasses : Int) (rang : Nat) :
    Prop :=
  ∃ passe rapport raison, Demandee i appelables sections maxPasses rang passe (.rendu rapport) ∧
    issue i rapport = .ok (.passe raison)

theorem passes_rendent
    (hlisibles : ∀ rang passe reponse, Demandee i appelables sections maxPasses rang passe reponse →
      Lisible i reponse)
    (hpartie : sections[rang]? = some partie) {restantes passe : Nat}
    (hrestantes : restantes + passe = nombreDePasses maxPasses) (etape : Etape δ)
    {reponse : Sortie} (hdemandee : Demandee i appelables sections maxPasses rang passe reponse) :
    ∃ fin, passes i appelables rang partie restantes passe etape reponse = .ok fin ∧
      (fin.etape.statut ≠ .bloquee → Aboutie i appelables sections maxPasses rang) := by
  cases reponse with
  | echappe erreur => exact (hlisibles _ _ _ hdemandee).elim
  | leve erreur =>
      have hfin : passes i appelables rang partie restantes passe etape (.leve erreur)
          = .ok ⟨etape.bloquer erreur.message, [], []⟩ := by
        rw [passes]
        rfl
      exact ⟨_, hfin, fun hstatut => absurd rfl hstatut⟩
  | rendu rapport =>
      obtain ⟨lu, hlu⟩ := hlisibles _ _ _ hdemandee
      have hissue := issue_of_lire i hlu
      cases hlue : lu.issue with
      | arret detail =>
          have hfin : passes i appelables rang partie restantes passe etape (.rendu rapport)
              = .ok ⟨(etape.noter i passe lu).bloquer detail, [], []⟩ := by
            simp [passes, hlu, hlue]
          exact ⟨_, hfin, fun hstatut => absurd rfl hstatut⟩
      | passe raison =>
          have hfin : passes i appelables rang partie restantes passe etape (.rendu rapport)
              = .ok ⟨(etape.noter i passe lu).franchir passe raison, [], []⟩ := by
            simp [passes, hlu, hlue]
          exact ⟨_, hfin, fun _ => ⟨passe, rapport, raison, hdemandee, hlue ▸ hissue⟩⟩
      | bloque verification raison =>
          cases restantes with
          | zero =>
              have hfin : passes i appelables rang partie 0 passe etape (.rendu rapport)
                  = .ok ⟨(etape.noter i passe lu).bloquer raison, [], []⟩ := by
                simp [passes, hlu, hlue]
              exact ⟨_, hfin, fun hstatut => absurd rfl hstatut⟩
          | succ restantes =>
              cases hreparer : appelables.reparer with
              | none =>
                  have hfin : passes i appelables rang partie (restantes + 1) passe etape
                      (.rendu rapport) = .ok ⟨(etape.noter i passe lu).bloquer raison, [], []⟩ := by
                    simp [passes, hlu, hlue, hreparer]
                  exact ⟨_, hfin, fun hstatut => absurd rfl hstatut⟩
              | some reparer =>
                  cases hconsigne : diagnostic i verification raison with
                  | error erreur =>
                      exact ⟨_, by simp only [passes, hlu, ok_bind, hlue, hreparer, hconsigne]; rfl,
                        fun hstatut => absurd rfl hstatut⟩
                  | ok consigne =>
                      have hpasse : (passe : Int) < max 1 maxPasses := by
                        unfold nombreDePasses at hrestantes
                        omega
                      have hsuivante := Demandee.reparation rang passe rapport verification raison
                        consigne reparer partie hdemandee (hlue ▸ hissue) hpasse hreparer hconsigne
                        hpartie
                      have hreste : restantes + (passe + 1) = nombreDePasses maxPasses := by omega
                      obtain ⟨suite, hsuite, hstatut⟩ :=
                        passes_rendent hlisibles hpartie hreste
                          ((etape.noter i passe lu).bloquer
                            (raison ++ " — passe " ++ toString passe ++ " echouee, reparation"))
                          hsuivante
                      have hfin : passes i appelables rang partie (restantes + 1) passe etape
                          (.rendu rapport) = .ok
                            { suite with
                              annonces := (etape.noter i passe lu).bloquer (raison ++ " — passe "
                                ++ toString passe ++ " echouee, reparation") :: suite.annonces
                              appels := ⟨rang, passe + 1, reparer rang (passe + 1) partie consigne⟩
                                :: suite.appels } := by
                        simp only [passes, hlu, ok_bind, hlue, hreparer, hconsigne, hsuite,
                          pure_eq_ok]
                      exact ⟨_, hfin, hstatut⟩

theorem deroulerDepuis_rend
    (hlisibles : ∀ rang passe reponse, Demandee i appelables sections maxPasses rang passe reponse →
      Lisible i reponse) (parties : List Section) (hparties : sections.drop rang = parties)
    (hdebut : ∀ partie, sections[rang]? = some partie →
      Demandee i appelables sections maxPasses rang 1 (appelables.lancer rang partie)) :
    ∃ r, deroulerDepuis i appelables maxPasses rang false parties = .ok r := by
  induction parties generalizing rang with
  | nil => exact ⟨_, rfl⟩
  | cons partie parties ih =>
      have hpartie : sections[rang]? = some partie := by
        rw [← List.head?_drop, hparties]
        rfl
      have hreste : sections.drop (rang + 1) = parties := by
        rw [← List.tail_drop, hparties]
        rfl
      have hnombre : nombreDePasses maxPasses - 1 + 1 = nombreDePasses maxPasses := by
        unfold nombreDePasses
        omega
      obtain ⟨fin, hfin, haboutie⟩ := passes_rendent i hlisibles hpartie hnombre
        (Etape.nouvelle i partie) (hdebut partie hpartie)
      cases hstatut : fin.etape.statut == .bloquee with
      | true =>
          have hsuite : deroulerDepuis i appelables maxPasses (rang + 1) true parties = _ :=
            deroulerDepuis_arretee i maxPasses (rang + 1) parties
          exact ⟨_, by simp only [deroulerDepuis, hfin, ok_bind, hstatut, hsuite]; rfl⟩
      | false =>
          have hstatut' : fin.etape.statut ≠ .bloquee := by
            intro h
            simp [h] at hstatut
          obtain ⟨passe, rapport, raison, hdemandee, hissue⟩ := haboutie hstatut'
          obtain ⟨suite, hsuite⟩ := ih hreste fun suivante hsuivante =>
            .suivante rang passe rapport raison suivante hdemandee hissue hsuivante
          exact ⟨_, by simp only [deroulerDepuis, hfin, ok_bind, hstatut, hsuite]; rfl⟩

/-- The queue returns what it promises exactly when it can read every answer it asks for. -/
theorem derouler_conforme_iff (appelables : Appelables) (sections : List Section)
    (maxPasses : Int) :
    (∃ r, derouler i appelables sections maxPasses = .ok r ∧ Conforme i 0 sections maxPasses r) ↔
      ∀ rang passe reponse, Demandee i appelables sections maxPasses rang passe reponse →
        Lisible i reponse := by
  constructor
  · intro h rang passe reponse hdemandee
    obtain ⟨r, hr, -⟩ := h
    obtain ⟨_, _, _, _, _, _, hfin, _⟩ := enCours_of_demandee i hr hdemandee
    exact lisible_of_enchaine i hfin
  · intro hlisibles
    have hparties : sections.drop 0 = sections := rfl
    obtain ⟨r, hr⟩ := deroulerDepuis_rend i hlisibles sections hparties fun partie hpartie =>
      .premiere partie hpartie
    exact ⟨r, hr, conforme_of_deroulerDepuis i hr⟩

def dureeInconnue : Appelables where
  lancer _ _ := .rendu
    [(.texte "statut_objectif", texte "completed"), (.texte "total_duration_ms", texte "n/a")]
  reparer := none

theorem dureeInconnue_leve :
    derouler interprete dureeInconnue [⟨6, "MODÈLE D'IDENTITÉ", "Auth"⟩] 2
        = .error ⟨"ValueError", "could not convert string to float: 'n/a'"⟩ ∧
      ¬ ∃ r, derouler interprete dureeInconnue [⟨6, "MODÈLE D'IDENTITÉ", "Auth"⟩] 2 = .ok r ∧
        Conforme interprete 0 [⟨6, "MODÈLE D'IDENTITÉ", "Auth"⟩] 2 r := by
  have hlire : lire interprete [(.texte "statut_objectif", texte "completed"),
      (.texte "total_duration_ms", texte "n/a")]
      = .error ⟨"ValueError", "could not convert string to float: 'n/a'"⟩ := rfl
  have hleve : derouler interprete dureeInconnue [⟨6, "MODÈLE D'IDENTITÉ", "Auth"⟩] 2
      = .error ⟨"ValueError", "could not convert string to float: 'n/a'"⟩ := by
    simp only [derouler, deroulerDepuis, dureeInconnue, passes, hlire, error_bind]
  refine ⟨hleve, ?_⟩
  rintro ⟨r, hr, -⟩
  rw [hleve] at hr
  cases hr

end Hermes.Programme
