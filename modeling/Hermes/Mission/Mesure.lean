import Hermes.Lib.Lecture
import Hermes.Mission.Verification

/-! # The dictionary a verification publishes

The findings as the instruments return them, each with its own fields, the record that
`Hermes.Mission.Verification` reads, and `as_dict`, which is all that a later reader sees.
-/

namespace Hermes

open Lib Lib.Valeur

/-- `VerificationResult`, as far as it is published. -/
structure ResultatDesTests where
  ran : Bool
  runner : String
  passed : Bool
  exitCode : Option Int
  reason : String
  output : String
  deriving DecidableEq

/-- `_verdict_des_tests`: no runner, or what the runner answered. -/
inductive VerdictDesTests where
  | nonLances (reason : String)
  | lances (resultat : ResultatDesTests)
  deriving DecidableEq

/-- `declares` and `manquants` before the cut at `_MAX_CITES`. -/
structure MesureDuManifeste where
  declares : Nat
  manquants : List String
  deriving DecidableEq

structure MesureDesImports where
  modules : Nat
  cycles : List String
  fatals : List String
  deriving DecidableEq

structure ImportRemontant where
  fichier : String
  ligne : Nat
  niveau : Nat
  profondeur : Nat
  deriving DecidableEq

structure FauxPaquet where
  paquet : String
  chemin : String
  deriving DecidableEq

structure TestTautologique where
  fichier : String
  ligne : Nat
  fonction : String
  raison : String
  deriving DecidableEq

structure LivrableVide where
  fichier : String
  apercu : String
  deriving DecidableEq

structure SqlCasse where
  fichier : String
  motif : String
  deriving DecidableEq

/-- `MissionVerification` with the findings as their instruments return them. -/
structure Mesure where
  missionId : String
  reportedSuccess : Bool
  workspace : Option String
  changes : WorkspaceDiff
  measured : Bool
  tests : Option VerdictDesTests
  manifeste : Option MesureDuManifeste
  imports : Option MesureDesImports
  importsRemontent : Option ImportRemontant
  fauxPaquet : Option FauxPaquet
  testTautologique : Option TestTautologique
  livrableVide : Option LivrableVide
  sqlCasse : Option SqlCasse
  deriving DecidableEq

def Verdict.value : Verdict → String
  | reussi => "reussi"
  | echoue => "echoue"
  | indisponible => "indisponible"

def maxCites : Nat := 12

def dictDe (items : List (String × Valeur)) : Valeur :=
  dict (items.map fun item => (Cle.texte item.1, item.2))

def listeDeTextes (valeurs : List String) : Valeur := liste (valeurs.map texte)

def optionnel {α : Type} (f : α → Valeur) : Option α → Valeur
  | none => rien
  | some a => f a

def nombre (n : Nat) : Valeur := entier n

def VerdictDesTests.asDict : VerdictDesTests → Valeur
  | nonLances reason => dictDe [("ran", booleen false), ("reason", texte reason)]
  | lances r => dictDe
      [("ran", booleen r.ran), ("runner", texte r.runner), ("passed", booleen r.passed),
        ("exit_code", optionnel entier r.exitCode), ("reason", texte r.reason),
        ("output", texte r.output)]

def MesureDuManifeste.asDict (m : MesureDuManifeste) : Valeur :=
  dictDe
    [("declares", nombre m.declares), ("manquants", listeDeTextes (m.manquants.take maxCites)),
      ("nombre_manquants", nombre m.manquants.length), ("tenu", booleen m.manquants.isEmpty)]

def MesureDesImports.asDict (m : MesureDesImports) : Valeur :=
  dictDe
    [("modules", nombre m.modules), ("cycles", listeDeTextes m.cycles),
      ("fatals", listeDeTextes m.fatals)]

def ImportRemontant.asDict (faute : ImportRemontant) : Valeur :=
  dictDe
    [("fichier", texte faute.fichier), ("ligne", nombre faute.ligne),
      ("niveau", nombre faute.niveau), ("profondeur", nombre faute.profondeur)]

def FauxPaquet.asDict (faute : FauxPaquet) : Valeur :=
  dictDe [("paquet", texte faute.paquet), ("chemin", texte faute.chemin)]

def TestTautologique.asDict (faute : TestTautologique) : Valeur :=
  dictDe
    [("fichier", texte faute.fichier), ("ligne", nombre faute.ligne),
      ("fonction", texte faute.fonction), ("raison", texte faute.raison)]

def LivrableVide.asDict (faute : LivrableVide) : Valeur :=
  dictDe [("fichier", texte faute.fichier), ("apercu", texte faute.apercu)]

def SqlCasse.asDict (faute : SqlCasse) : Valeur :=
  dictDe [("fichier", texte faute.fichier), ("motif", texte faute.motif)]

/-- What the properties read of a test verdict: `tests.get("passed")` is nothing when no runner
was launched. -/
def VerdictDesTests.lu : VerdictDesTests → TestsDuWorkspace
  | nonLances _ =>
      { ran := false, runner := none, passed := none, exitCode := none, output := none }
  | lances r =>
      { ran := r.ran, runner := some r.runner, passed := some r.passed, exitCode := r.exitCode,
        output := some r.output }

namespace Mesure

variable (m : Mesure)

def verification : MissionVerification where
  missionId := m.missionId
  reportedSuccess := m.reportedSuccess
  workspace := m.workspace
  changes := m.changes
  measured := m.measured
  tests := m.tests.map VerdictDesTests.lu
  manifeste := m.manifeste.map fun manifeste => ⟨manifeste.manquants.take maxCites⟩
  imports := m.imports.map fun imports => ⟨imports.fatals⟩
  importsRemontent := m.importsRemontent.map ImportRemontant.fichier
  fauxPaquet := m.fauxPaquet.map FauxPaquet.chemin
  testTautologique := m.testTautologique.map TestTautologique.fichier
  livrableVide := m.livrableVide.map LivrableVide.fichier
  sqlCasse := m.sqlCasse.map SqlCasse.fichier

def mesureImpossible : Bool := m.workspace.any (· != "") && !m.measured

def asDict : Valeur :=
  dictDe
    [("mission_id", texte m.missionId),
      ("reported_success", booleen m.reportedSuccess),
      ("measured", booleen m.measured),
      ("verified", booleen m.verification.verified),
      ("contradicted", booleen m.verification.contradicted),
      ("verdict", texte m.verification.verdict.value),
      ("mesure_impossible", booleen m.mesureImpossible),
      ("workspace", optionnel texte m.workspace),
      ("created", listeDeTextes m.changes.created),
      ("modified", listeDeTextes m.changes.modified),
      ("deleted", listeDeTextes m.changes.deleted),
      ("indetermines", listeDeTextes m.changes.indetermines),
      ("summary", texte m.changes.summary),
      ("tests", optionnel VerdictDesTests.asDict m.tests),
      ("manifeste", optionnel MesureDuManifeste.asDict m.manifeste),
      ("imports", optionnel MesureDesImports.asDict m.imports),
      ("imports_remontent", optionnel ImportRemontant.asDict m.importsRemontent),
      ("travail_deja_fait", booleen m.verification.travailDejaFait),
      ("faux_paquet", optionnel FauxPaquet.asDict m.fauxPaquet),
      ("test_tautologique", optionnel TestTautologique.asDict m.testTautologique),
      ("livrable_vide", optionnel LivrableVide.asDict m.livrableVide),
      ("sql_casse", optionnel SqlCasse.asDict m.sqlCasse),
      ("tests_echouent", booleen m.verification.testsEchouent)]

end Mesure

@[simp] theorem get_dictDe {δ : Type} (i : Interprete δ) (items : List (String × Valeur))
    (cle : String) : i.get (dictDe items) cle = .ok ((items.lookup cle).getD rien) := by
  rw [dictDe, Interprete.get_dict]
  congr 2
  induction items with
  | nil => rfl
  | cons item items ih =>
      rw [List.map_cons, Dict.get?_cons, List.lookup_cons, ih]
      by_cases h : cle = item.1
      · simp [h]
      · have hcle : Cle.texte cle ≠ Cle.texte item.1 := fun heq => h (Cle.texte.inj heq)
        simp [h, beq_eq_false_iff_ne.mpr h]

end Hermes
