import Hermes.Mission.Mesure

/-! # A specification is unrolled section by section

`bloquant` reads the published dictionary of a mission and says whether the queue stops;
`MissionVerification.contradicted` had already said whether the mission is to be believed.
-/

namespace Hermes.Programme

open Lib Lib.Valeur Lib.Interprete

variable {δ : Type} (i : Interprete δ)

/-- `tests.get("ran") and tests.get("passed") is False` -/
def testsRouges (tests : Valeur) : Except Leve Bool := do
  if ← i.vrai (← i.get tests "ran") then
    match ← i.get tests "passed" with
    | booleen false => pure true
    | _ => pure false
  else pure false

/-- A finding that is there is a reason to stop. -/
def signale (cle : String) (raison : Valeur → Except Leve String) (verification : Valeur) :
    Except Leve (Option String) := do
  let constat ← i.getOu verification cle (dict [])
  if ← i.vrai constat then pure (some (← raison constat)) else pure none

def testsDuLivrable (verification : Valeur) : Except Leve (Option String) := do
  let tests ← i.getOu verification "tests" (dict [])
  pure (if ← testsRouges i tests then some "les tests du livrable échouent" else none)

def sqlCasse : Valeur → Except Leve (Option String) :=
  signale i "sql_casse" fun casse => do
    pure ("SQL qui ne s'execute pas — " ++ (← i.strDe casse "fichier") ++ " : "
      ++ (← i.strDe casse "motif"))

def livrableVide : Valeur → Except Leve (Option String) :=
  signale i "livrable_vide" fun vide => do
    pure ("livrable vide — " ++ (← i.strDe vide "fichier") ++ " ne definit ni classe ni fonction")

def testTautologique : Valeur → Except Leve (Option String) :=
  signale i "test_tautologique" fun tauto => do
    pure ("test qui ne peut pas echouer — " ++ (← i.strDe tauto "fichier") ++ ":"
      ++ (← i.strDe tauto "ligne") ++ " (" ++ (← i.strDe tauto "raison") ++ ")")

/-- `(verification.get(key) or an empty dictionary).get(inner) or []` -/
def listeDe (cle interne : String) (verification : Valeur) : Except Leve Valeur := do
  i.getOu (← i.getOu verification cle (dict [])) interne (liste [])

def fatals : Valeur → Except Leve Valeur := listeDe i "imports" "fatals"

def manquants : Valeur → Except Leve Valeur := listeDe i "manifeste" "manquants"

def boucleFatale (verification : Valeur) : Except Leve (Option String) := do
  let fatals ← fatals i verification
  if ← i.vrai fatals then
    pure (some ("boucle d'import fatale : " ++ (← i.joindre "; " fatals)))
  else pure none

def aucunFichier (verification : Valeur) : Except Leve (Option String) := do
  let creeOuModifie ← i.ouPuis (← i.get verification "created") (i.get verification "modified")
  let ecrit ← i.ouPuis creeOuModifie (i.get verification "deleted")
  pure (if ← i.vrai ecrit then none else some "aucun fichier écrit")

/-- The reasons to stop, in the order of the source. -/
def arrets : List (Valeur → Except Leve (Option String)) :=
  [testsDuLivrable i, sqlCasse i, livrableVide i, testTautologique i, boucleFatale i,
    aucunFichier i]

def premier : List (Valeur → Except Leve (Option String)) → Valeur →
    Except Leve (Option String)
  | [], _ => pure none
  | arret :: arrets, verification => do
      match ← arret verification with
      | some raison => pure (some raison)
      | none => premier arrets verification

def contredit (verification : Valeur) : Except Leve (Bool × String) := do
  if ← i.vrai (← i.get verification "contradicted") then
    let manquants ← manquants i verification
    if ← i.vrai manquants then
      pure (false, "livrables annoncés sous un autre nom : " ++ (← i.joindre ", " manquants))
    else pure (true, "contredit sans cause nommable")
  else pure (false, "")

def bloquant (verification : Valeur) : Except Leve (Bool × String) := do
  if ← i.vrai verification then
    match ← premier (arrets i) verification with
    | some raison => pure (true, raison)
    | none => contredit i verification
  else pure (false, "")

/-- The control answers, and its answer is a reason exactly when the finding is there. -/
def Rend (reponse : Except Leve (Option String)) (constat : Bool) : Prop :=
  ∃ raison, reponse = .ok raison ∧ raison.isSome = constat

theorem premier_rend {controles : List (Valeur → Except Leve (Option String))}
    {constats : List Bool} {verification : Valeur}
    (h : List.Forall₂ (fun controle constat => Rend (controle verification) constat)
      controles constats) :
    Rend (premier controles verification) (constats.any id) := by
  induction h with
  | nil => exact ⟨none, rfl, rfl⟩
  | @cons controle constat controles constats hrend _ ih =>
      obtain ⟨raison, hreponse, hraison⟩ := hrend
      cases raison with
      | none =>
          have hconstat : constat = false := hraison.symm
          have hsuite : premier (controle :: controles) verification
              = premier controles verification := by
            simp [premier, hreponse]
          rw [hsuite, List.any_cons, hconstat]
          exact ih
      | some raison =>
          have hconstat : constat = true := hraison.symm
          have hreponse : premier (controle :: controles) verification = .ok (some raison) := by
            simp [premier, hreponse]
          exact ⟨some raison, hreponse, by simp [hconstat]⟩

section Constats

variable {α : Type} {verification : Valeur} {cle : String} {publie : α → Valeur}
  {constat : Option α}

theorem getOu_constat (hget : i.get verification cle = .ok (optionnel publie constat))
    (hvrai : ∀ a, i.vrai (publie a) = .ok true) :
    i.getOu verification cle (dict []) = .ok (constat.elim (dict []) publie) := by
  rw [getOu, hget, ok_bind]
  cases constat with
  | none => exact i.ouPuis_of_faux i.vrai_rien _
  | some a => exact i.ouPuis_of_vrai (hvrai a) _

theorem signale_rend {raison : Valeur → Except Leve String}
    (hget : i.get verification cle = .ok (optionnel publie constat))
    (hvrai : ∀ a, i.vrai (publie a) = .ok true)
    (hraison : ∀ a, ∃ texte, raison (publie a) = .ok texte) :
    Rend (signale i cle raison verification) constat.isSome := by
  have hou := getOu_constat i hget hvrai
  cases constat with
  | none => exact ⟨none, by simp [signale, hou], rfl⟩
  | some a =>
      obtain ⟨texte, htexte⟩ := hraison a
      exact ⟨some texte, by simp [signale, hou, hvrai, htexte], rfl⟩

theorem vrai_textes (valeurs : List String) :
    i.vrai (listeDeTextes valeurs) = .ok (!valeurs.isEmpty) := by
  rw [listeDeTextes, vrai_liste, List.isEmpty_map]

theorem ou_textes (valeurs : List String) :
    i.ou (listeDeTextes valeurs) (liste []) = .ok (listeDeTextes valeurs) := by
  cases valeurs with
  | nil => exact i.ouPuis_of_faux (i.vrai_liste []) _
  | cons valeur valeurs => exact i.ouPuis_of_vrai (vrai_textes i (valeur :: valeurs)) _

theorem listeDe_constat {interne : String} {f : α → List String}
    (hget : i.get verification cle = .ok (optionnel publie constat))
    (hvrai : ∀ a, i.vrai (publie a) = .ok true)
    (hinterne : ∀ a, i.get (publie a) interne = .ok (listeDeTextes (f a))) :
    listeDe i cle interne verification = .ok (listeDeTextes (constat.elim [] f)) := by
  rw [listeDe, getOu_constat i hget hvrai, ok_bind]
  cases constat with
  | none => exact i.ouPuis_of_faux i.vrai_rien _
  | some a =>
      rw [Option.elim_some, getOu, hinterne a, ok_bind]
      exact ou_textes i (f a)

end Constats

section Mesures

variable (m : Mesure)

private theorem testsRouges_publies (tests : Option VerdictDesTests) :
    testsRouges i (tests.elim (dict []) VerdictDesTests.asDict)
      = .ok ((tests.map VerdictDesTests.lu).any fun tests =>
          tests.ran && tests.passed == some false) := by
  cases tests with
  | none => simp [testsRouges, Dict.get?]
  | some verdict =>
      cases verdict with
      | nonLances reason =>
          simp [testsRouges, VerdictDesTests.asDict, VerdictDesTests.lu, List.lookup_cons]
      | lances r =>
          cases hran : r.ran <;> cases hpassed : r.passed <;>
            simp [testsRouges, VerdictDesTests.asDict, VerdictDesTests.lu, List.lookup_cons, hran,
              hpassed]

theorem testsDuLivrable_rend :
    Rend (testsDuLivrable i m.asDict) m.verification.testsEchouent := by
  have hget : i.get m.asDict "tests" = .ok (optionnel VerdictDesTests.asDict m.tests) := by
    simp [Mesure.asDict, List.lookup_cons]
  have hou := getOu_constat i hget fun verdict => by cases verdict <;> rfl
  have hrouges := testsRouges_publies i m.tests
  cases hechouent : m.verification.testsEchouent with
  | false =>
      have hrouges : testsRouges i (m.tests.elim (dict []) VerdictDesTests.asDict) = .ok false :=
        hrouges.trans (congrArg Except.ok hechouent)
      exact ⟨none, by simp [testsDuLivrable, hou, hrouges], rfl⟩
  | true =>
      have hrouges : testsRouges i (m.tests.elim (dict []) VerdictDesTests.asDict) = .ok true :=
        hrouges.trans (congrArg Except.ok hechouent)
      exact ⟨some "les tests du livrable échouent",
        by simp [testsDuLivrable, hou, hrouges], rfl⟩

theorem sqlCasse_rend : Rend (sqlCasse i m.asDict) m.verification.sqlNeSExecutePas := by
  have hget : i.get m.asDict "sql_casse" = .ok (optionnel SqlCasse.asDict m.sqlCasse) := by
    simp [Mesure.asDict, List.lookup_cons]
  rw [MissionVerification.sqlNeSExecutePas, Mesure.verification, Option.isSome_map]
  exact signale_rend i hget (fun _ => rfl) fun faute =>
    ⟨_, by simp [strDe, SqlCasse.asDict, List.lookup_cons, i.str_texte]; rfl⟩

theorem livrableVide_rend : Rend (livrableVide i m.asDict) m.verification.livrableSansContenu := by
  have hget : i.get m.asDict "livrable_vide"
      = .ok (optionnel LivrableVide.asDict m.livrableVide) := by
    simp [Mesure.asDict, List.lookup_cons]
  rw [MissionVerification.livrableSansContenu, Mesure.verification, Option.isSome_map]
  exact signale_rend i hget (fun _ => rfl) fun faute =>
    ⟨_, by simp [strDe, LivrableVide.asDict, i.str_texte]; rfl⟩

theorem testTautologique_rend :
    Rend (testTautologique i m.asDict) m.verification.testNePeutPasEchouer := by
  have hget : i.get m.asDict "test_tautologique"
      = .ok (optionnel TestTautologique.asDict m.testTautologique) := by
    simp [Mesure.asDict, List.lookup_cons]
  rw [MissionVerification.testNePeutPasEchouer, Mesure.verification, Option.isSome_map]
  exact signale_rend i hget (fun _ => rfl) fun faute =>
    ⟨_, by simp [strDe, TestTautologique.asDict, nombre, List.lookup_cons, i.str_texte,
      i.str_entier]; rfl⟩

theorem boucleFatale_rend : Rend (boucleFatale i m.asDict) m.verification.importsBoucles := by
  have hget : i.get m.asDict "imports"
      = .ok (optionnel MesureDesImports.asDict m.imports) := by
    simp [Mesure.asDict, List.lookup_cons]
  have hfatals := listeDe_constat i hget (fun _ => rfl) fun imports =>
    show i.get imports.asDict "fatals" = .ok (listeDeTextes imports.fatals) by
      simp [MesureDesImports.asDict, List.lookup_cons]
  have hboucles : m.verification.importsBoucles
      = !(m.imports.elim [] MesureDesImports.fatals).isEmpty := by
    cases himports : m.imports with
    | none => simp [MissionVerification.importsBoucles, Mesure.verification, himports]
    | some imports => simp [MissionVerification.importsBoucles, Mesure.verification, himports]
  rw [hboucles]
  cases hvide : m.imports.elim [] MesureDesImports.fatals with
  | nil =>
      rw [hvide] at hfatals
      exact ⟨none, by simp [boucleFatale, fatals, hfatals, vrai_textes], rfl⟩
  | cons fatal suite =>
      rw [hvide] at hfatals
      have hjoint := i.joindre_textes "; " (fatal :: suite)
      exact ⟨some _, by
        simp [boucleFatale, fatals, hfatals, vrai_textes]
        rw [listeDeTextes, hjoint]
        rfl,
        rfl⟩

theorem aucunFichier_rend : Rend (aucunFichier i m.asDict) (!m.changes.touchedAnything) := by
  have hcreated : i.get m.asDict "created" = .ok (listeDeTextes m.changes.created) := by
    simp [Mesure.asDict, List.lookup_cons]
  have hmodified : i.get m.asDict "modified" = .ok (listeDeTextes m.changes.modified) := by
    simp [Mesure.asDict, List.lookup_cons]
  have hdeleted : i.get m.asDict "deleted" = .ok (listeDeTextes m.changes.deleted) := by
    simp [Mesure.asDict, List.lookup_cons]
  have hreponse : aucunFichier i m.asDict
      = .ok (if m.changes.touchedAnything then none else some "aucun fichier écrit") := by
    cases hc : m.changes.created.isEmpty <;> cases hm : m.changes.modified.isEmpty <;>
      cases hd : m.changes.deleted.isEmpty <;>
      simp [aucunFichier, hcreated, hmodified, hdeleted, ouPuis, vrai_textes,
        WorkspaceDiff.touchedAnything, hc, hm, hd]
  rw [hreponse]
  cases m.changes.touchedAnything with
  | false => exact ⟨_, rfl, rfl⟩
  | true => exact ⟨_, rfl, rfl⟩

/-- The defects that stop the queue whatever else is there. -/
def defautBloquant (v : MissionVerification) : Bool :=
  v.testsEchouent || v.sqlNeSExecutePas || v.livrableSansContenu || v.testNePeutPasEchouer
    || v.importsBoucles

theorem premier_publie :
    Rend (premier (arrets i) m.asDict)
      (defautBloquant m.verification || !m.changes.touchedAnything) := by
  have h : Rend (premier (arrets i) m.asDict) _ := premier_rend <|
    .cons (testsDuLivrable_rend i m) <| .cons (sqlCasse_rend i m) <|
    .cons (livrableVide_rend i m) <| .cons (testTautologique_rend i m) <|
    .cons (boucleFatale_rend i m) <| .cons (aucunFichier_rend i m) .nil
  simpa [defautBloquant, Bool.or_assoc] using h

theorem manquants_publies :
    manquants i m.asDict
      = .ok (listeDeTextes
        (m.manifeste.elim [] fun manifeste => manifeste.manquants.take maxCites)) := by
  have hget : i.get m.asDict "manifeste"
      = .ok (optionnel MesureDuManifeste.asDict m.manifeste) := by
    simp [Mesure.asDict, List.lookup_cons]
  exact listeDe_constat i hget (fun _ => rfl) fun manifeste =>
    show i.get manifeste.asDict "manquants" = _ by
      simp [MesureDuManifeste.asDict, List.lookup_cons]

theorem contredit_publie :
    ∃ raison, contredit i m.asDict
      = .ok (m.verification.contradicted && !m.verification.manifesteManque, raison) := by
  have hget : i.get m.asDict "contradicted" = .ok (booleen m.verification.contradicted) := by
    simp [Mesure.asDict, List.lookup_cons]
  have hmanquants := manquants_publies i m
  have hmanque : m.verification.manifesteManque
      = !(m.manifeste.elim [] fun manifeste => manifeste.manquants.take maxCites).isEmpty := by
    cases hmanifeste : m.manifeste with
    | none => simp [MissionVerification.manifesteManque, Mesure.verification, hmanifeste]
    | some manifeste =>
        simp [MissionVerification.manifesteManque, Mesure.verification, hmanifeste]
  rw [hmanque]
  cases hcontradicted : m.verification.contradicted with
  | false => exact ⟨"", by simp [contredit, hget, hcontradicted]⟩
  | true =>
      cases hvide : m.manifeste.elim [] fun manifeste => manifeste.manquants.take maxCites with
      | nil =>
          rw [hvide] at hmanquants
          exact ⟨"contredit sans cause nommable",
            by simp [contredit, hget, hcontradicted, hmanquants, vrai_textes]⟩
      | cons manquant suite =>
          rw [hvide] at hmanquants
          have hjoint : i.joindre ", " (listeDeTextes (manquant :: suite)) = _ :=
            i.joindre_textes ", " (manquant :: suite)
          exact ⟨_, by simp [contredit, hget, hcontradicted, hmanquants, vrai_textes, hjoint]; rfl⟩

theorem bloquant_publie :
    ∃ raison, bloquant i m.asDict
      = .ok (defautBloquant m.verification || !m.changes.touchedAnything
        || (m.verification.contradicted && !m.verification.manifesteManque), raison) := by
  have hvrai : i.vrai m.asDict = .ok true := rfl
  obtain ⟨raison, hpremier, hraison⟩ := premier_publie i m
  cases raison with
  | some raison =>
      refine ⟨raison, ?_⟩
      rw [← hraison]
      simp [bloquant, hvrai, hpremier]
  | none =>
      obtain ⟨raison, hcontredit⟩ := contredit_publie i m
      refine ⟨raison, ?_⟩
      rw [← hraison]
      simp [bloquant, hvrai, hpremier, hcontredit]

end Mesures

section Verdicts

variable (v : MissionVerification)

/-- A contradiction for some reason other than missing announced deliverables. -/
def AutreRaison : Prop :=
  v.contradicted = true ∧
    (defautBloquant v = true ∨ v.importHorsPaquet = true ∨ v.dependanceFabriquee = true ∨
      (v.changes.touchedAnything = false ∧ v.travailDejaFait = false))

theorem contradicted_eq (hmeasured : v.measured = true) (hreported : v.reportedSuccess = true) :
    v.contradicted = (defautBloquant v || v.manifesteManque || v.importHorsPaquet
      || v.dependanceFabriquee || (!v.changes.touchedAnything && !v.travailDejaFait)) := by
  unfold MissionVerification.contradicted defautBloquant
  rw [hmeasured, hreported]
  cases v.testsEchouent <;> cases v.manifesteManque <;> cases v.importsBoucles <;>
    cases v.importHorsPaquet <;> cases v.dependanceFabriquee <;>
    cases v.testNePeutPasEchouer <;> cases v.livrableSansContenu <;>
    cases v.sqlNeSExecutePas <;> simp

theorem travailDejaFait_eq_true (h : v.travailDejaFait = true) :
    v.changes.touchedAnything = false ∧ v.manifesteManque = false := by
  simp only [MissionVerification.travailDejaFait, Bool.and_eq_true, Bool.not_eq_true'] at h
  exact ⟨h.1.1, h.2⟩

end Verdicts

/-- The queue stops on this mission exactly for such a reason. -/
def Accord (m : Mesure) : Prop :=
  ∃ bloque raison, bloquant i m.asDict = .ok (bloque, raison) ∧
    (bloque = true ↔ AutreRaison m.verification)

/-- The two verdicts part on work that was already done, which stops the queue, and on a missing
deliverable that hides a fabricated package or an import out of its package. -/
theorem accord_iff (m : Mesure) (hmeasured : m.measured = true)
    (hreported : m.reportedSuccess = true) :
    Accord i m ↔
      (m.verification.travailDejaFait = true → defautBloquant m.verification = true ∨
        m.verification.importHorsPaquet = true ∨ m.verification.dependanceFabriquee = true) ∧
      (m.changes.touchedAnything = true → m.verification.manifesteManque = true →
        m.verification.importHorsPaquet = true ∨ m.verification.dependanceFabriquee = true →
        defautBloquant m.verification = true) := by
  obtain ⟨raison, hbloquant⟩ := bloquant_publie i m
  have haccord : Accord i m ↔
      ((defautBloquant m.verification || !m.changes.touchedAnything
        || (m.verification.contradicted && !m.verification.manifesteManque)) = true ↔
      AutreRaison m.verification) := by
    constructor
    · intro h
      obtain ⟨bloque, raison', hreponse, hiff⟩ := h
      rw [hbloquant] at hreponse
      cases hreponse
      exact hiff
    · intro h
      exact ⟨_, raison, hbloquant, h⟩
  have htouched : m.verification.changes.touchedAnything = m.changes.touchedAnything := rfl
  have hfait := travailDejaFait_eq_true m.verification
  rw [haccord, AutreRaison, contradicted_eq m.verification hmeasured hreported, htouched]
  rw [htouched] at hfait
  -- what is left is propositional in the findings
  cases ht : m.changes.touchedAnything <;> cases hman : m.verification.manifesteManque <;>
    cases hd : m.verification.travailDejaFait <;>
    cases hdefaut : defautBloquant m.verification <;>
    cases hhors : m.verification.importHorsPaquet <;>
    cases hfaux : m.verification.dependanceFabriquee <;> simp_all

def valeurDesChiffres (chiffres : List Char) : Nat :=
  chiffres.foldl (fun n c => 10 * n + (c.toNat - '0'.toNat)) 0

/-- An interpreter for plain values: durations are counted in whole units, and a container is
printed by its brackets. -/
def interprete : Interprete Nat where
  vraiObjet _ := .ok true
  getObjet _ cle := .error ⟨"AttributeError", "'object' object has no attribute '" ++ cle ++ "'"⟩
  iterObjet _ := .error (nonIterable "object")
  str
    | rien => .ok "None"
    | booleen b => .ok (if b then "True" else "False")
    | entier n => .ok (toString n)
    | flottant chiffres => .ok chiffres
    | texte s => .ok s
    | liste _ => .ok "[...]"
    | uplet _ => .ok "(...)"
    | dict _ => .ok "dict(...)"
    | objet repr => .ok repr
  str_texte _ := rfl
  str_entier _ := rfl
  float
    | booleen b => .ok b.toNat
    | entier n => .ok n.toNat
    | flottant chiffres => .ok (valeurDesChiffres (chiffres.toList.takeWhile (· ≠ '.')))
    | texte s =>
        if s ≠ "" ∧ s.toList.all Char.isDigit then .ok (valeurDesChiffres s.toList)
        else .error ⟨"ValueError", "could not convert string to float: '" ++ s ++ "'"⟩
    | _ => .error ⟨"TypeError", "float() argument must be a string or a real number"⟩
  int
    | booleen b => .ok b.toNat
    | entier n => .ok n
    | _ => .error ⟨"TypeError", "int() argument must be a string or a real number"⟩
  lower := id
  zero := 0
  cumuler secondes millisecondes := secondes + millisecondes / 1000

/-- A repair that came after the fact: the tests pass, the announced file is there, and there was
nothing left to write. -/
def sectionTerminee : Mesure where
  missionId := "m16"
  reportedSuccess := true
  workspace := some "/projet"
  changes := { created := [], modified := [], deleted := [], indetermines := [] }
  measured := true
  tests := some (.lances
    { ran := true, runner := "pytest", passed := true, exitCode := some 0, reason := "",
      output := "3 passed" })
  manifeste := some { declares := 1, manquants := [] }
  imports := some { modules := 2, cycles := [], fatals := [] }
  importsRemontent := none
  fauxPaquet := none
  testTautologique := none
  livrableVide := none
  sqlCasse := none

/-- A mission that wrote its own `flask`, and not the file it had announced. -/
def flaskFabrique : Mesure :=
  { sectionTerminee with
    missionId := "m9"
    changes :=
      { created := ["app.py", "flask/__init__.py"], modified := [], deleted := [],
        indetermines := [] }
    manifeste := some { declares := 1, manquants := ["docs/api.md"] }
    fauxPaquet := some { paquet := "flask", chemin := "flask" } }

theorem accord_iff_flaskFabrique :
    Accord interprete flaskFabrique ↔
      (flaskFabrique.verification.travailDejaFait = true →
        defautBloquant flaskFabrique.verification = true ∨
        flaskFabrique.verification.importHorsPaquet = true ∨
        flaskFabrique.verification.dependanceFabriquee = true) ∧
      (flaskFabrique.changes.touchedAnything = true →
        flaskFabrique.verification.manifesteManque = true →
        flaskFabrique.verification.importHorsPaquet = true ∨
          flaskFabrique.verification.dependanceFabriquee = true →
        defautBloquant flaskFabrique.verification = true) :=
  accord_iff interprete flaskFabrique (by decide) (by decide)

/-- Work that was already done is not contradicted and stops the queue; a fabricated package is
contradicted and, next to a missing deliverable, does not. -/
theorem sectionTerminee_flaskFabrique_desaccord :
    (sectionTerminee.measured = true ∧ sectionTerminee.reportedSuccess = true ∧
      bloquant interprete sectionTerminee.asDict = .ok (true, "aucun fichier écrit") ∧
      sectionTerminee.verification.contradicted = false ∧
      ¬ Accord interprete sectionTerminee) ∧
    (flaskFabrique.measured = true ∧ flaskFabrique.reportedSuccess = true ∧
      bloquant interprete flaskFabrique.asDict
        = .ok (false, "livrables annoncés sous un autre nom : docs/api.md") ∧
      flaskFabrique.verification.contradicted = true ∧
      flaskFabrique.verification.dependanceFabriquee = true ∧
      ¬ Accord interprete flaskFabrique) := by
  have hterminee : bloquant interprete sectionTerminee.asDict
      = .ok (true, "aucun fichier écrit") := rfl
  have hflask : bloquant interprete flaskFabrique.asDict
      = .ok (false, "livrables annoncés sous un autre nom : docs/api.md") := rfl
  constructor
  · refine ⟨rfl, rfl, hterminee, by decide, ?_⟩
    rintro ⟨bloque, raison, hreponse, hiff⟩
    rw [hterminee] at hreponse
    cases hreponse
    have hcontradicted := (hiff.mp rfl).1
    exact absurd hcontradicted (by decide)
  · refine ⟨rfl, rfl, hflask, by decide, by decide, ?_⟩
    rintro ⟨bloque, raison, hreponse, hiff⟩
    rw [hflask] at hreponse
    cases hreponse
    have hautre : AutreRaison flaskFabrique.verification :=
      ⟨by decide, Or.inr (Or.inr (Or.inl (by decide)))⟩
    exact absurd (hiff.mpr hautre) (by decide)

end Hermes.Programme
