import Mathlib.Data.List.Sort
import Mathlib.Tactic.Tauto
import Hermes.Runs.Contrat

/-! # What the disk says of a mission

A finished mission is confronted with the files it changed and with the findings of seven
instruments.
-/

namespace Hermes

structure WorkspaceDiff where
  created : List String
  modified : List String
  deleted : List String
  indetermines : List String
  deriving DecidableEq

namespace WorkspaceDiff

def touchedAnything (changes : WorkspaceDiff) : Bool :=
  !changes.created.isEmpty || !changes.modified.isEmpty || !changes.deleted.isEmpty

/-- `12 created: a, b, c, d, e (+7 more)`, or nothing for an empty category. -/
def summaryPart (label : String) (items : List String) : List String :=
  if items.isEmpty then []
  else
    let shown := ", ".intercalate ((items.insertionSort (· ≤ ·)).take 5)
    let more := if 5 < items.length then " (+" ++ toString (items.length - 5) ++ " more)" else ""
    [toString items.length ++ " " ++ label ++ ": " ++ shown ++ more]

def summary (changes : WorkspaceDiff) : String :=
  let parts := summaryPart "created" changes.created ++ summaryPart "modified" changes.modified
    ++ summaryPart "deleted" changes.deleted ++ summaryPart "unreadable" changes.indetermines
  if parts.isEmpty then "no file was created, modified or deleted"
  else if !changes.touchedAnything then
    "no change could be established; " ++ "; ".intercalate parts
  else "; ".intercalate parts

end WorkspaceDiff

/-- What the runner of the workspace's own tests answered. -/
structure TestsDuWorkspace where
  ran : Bool
  runner : Option String
  passed : Option Bool
  exitCode : Option Int
  output : Option String
  deriving DecidableEq

structure VerdictManifeste where
  manquants : List String
  deriving DecidableEq

structure VerdictImports where
  fatals : List String
  deriving DecidableEq

/-- The last five findings are read only as present or absent; the text says what
was found. -/
structure MissionVerification where
  missionId : String
  reportedSuccess : Bool
  workspace : Option String
  changes : WorkspaceDiff
  measured : Bool
  tests : Option TestsDuWorkspace
  manifeste : Option VerdictManifeste
  imports : Option VerdictImports
  importsRemontent : Option String
  fauxPaquet : Option String
  testTautologique : Option String
  livrableVide : Option String
  sqlCasse : Option String
  deriving DecidableEq

namespace MissionVerification

variable (v : MissionVerification)

def sqlNeSExecutePas : Bool := v.sqlCasse.isSome

def livrableSansContenu : Bool := v.livrableVide.isSome

def testNePeutPasEchouer : Bool := v.testTautologique.isSome

def importHorsPaquet : Bool := v.importsRemontent.isSome

def dependanceFabriquee : Bool := v.fauxPaquet.isSome

def importsBoucles : Bool := v.imports.any fun verdict => !verdict.fatals.isEmpty

def manifesteManque : Bool := v.manifeste.any fun verdict => !verdict.manquants.isEmpty

def testsEchouent : Bool := v.tests.any fun tests => tests.ran && tests.passed == some false

def verified : Bool :=
  v.measured && v.reportedSuccess && v.changes.touchedAnything && !v.testsEchouent
    && !v.manifesteManque && !v.importsBoucles

/-- Nothing was written, but the tests really ran and passed and no announced
deliverable is missing. -/
def travailDejaFait : Bool :=
  !v.changes.touchedAnything && v.tests.any (fun tests => tests.ran && tests.passed == some true)
    && !v.manifesteManque

def contradicted : Bool :=
  if !(v.measured && v.reportedSuccess) then false
  else if v.testsEchouent || v.manifesteManque || v.importsBoucles || v.importHorsPaquet
      || v.dependanceFabriquee || v.testNePeutPasEchouer || v.livrableSansContenu
      || v.sqlNeSExecutePas then true
  else !v.changes.touchedAnything && !v.travailDejaFait

def verdict : Verdict :=
  if !v.measured then .indisponible
  else if v.contradicted then .echoue
  else if v.verified then .reussi
  else .indisponible

/-- The findings `contradicted` reads and `verified` does not. -/
def defautHorsVerified : Bool :=
  v.importHorsPaquet || v.dependanceFabriquee || v.testNePeutPasEchouer
    || v.livrableSansContenu || v.sqlNeSExecutePas

theorem verified_eq_true :
    v.verified = true ↔ v.measured = true ∧ v.reportedSuccess = true ∧
      v.changes.touchedAnything = true ∧ v.testsEchouent = false ∧ v.manifesteManque = false ∧
      v.importsBoucles = false := by
  simp [verified, and_assoc]

theorem contradicted_of_touched (h : v.changes.touchedAnything = true) :
    v.contradicted = true ↔ v.measured = true ∧ v.reportedSuccess = true ∧
      (v.testsEchouent = true ∨ v.manifesteManque = true ∨ v.importsBoucles = true ∨
        v.defautHorsVerified = true) := by
  unfold contradicted defautHorsVerified
  cases v.measured <;> cases v.reportedSuccess <;> simp [h, or_assoc]

theorem verdict_eq_echoue : v.verdict = .echoue ↔ v.contradicted = true := by
  unfold verdict
  cases hmeasured : v.measured with
  | false => simp [contradicted, hmeasured]
  | true => cases v.contradicted <;> cases v.verified <;> simp

theorem verdict_eq_reussi : v.verdict = .reussi ↔ v.verified = true ∧ v.contradicted = false := by
  unfold verdict
  cases hmeasured : v.measured with
  | false => simp [verified, hmeasured]
  | true => cases v.contradicted <;> cases v.verified <;> simp

theorem verified_and_contradicted :
    v.verified = true ∧ v.contradicted = true ↔
      v.measured = true ∧ v.reportedSuccess = true ∧ v.changes.touchedAnything = true ∧
        v.testsEchouent = false ∧ v.manifesteManque = false ∧ v.importsBoucles = false ∧
        v.defautHorsVerified = true := by
  rw [verified_eq_true]
  constructor
  · rintro ⟨⟨hm, hr, ht, htests, hman, himp⟩, hc⟩
    obtain ⟨-, -, hdefect⟩ := (v.contradicted_of_touched ht).mp hc
    refine ⟨hm, hr, ht, htests, hman, himp, ?_⟩
    simpa [htests, hman, himp] using hdefect
  · rintro ⟨hm, hr, ht, htests, hman, himp, hdefect⟩
    refine ⟨⟨hm, hr, ht, htests, hman, himp⟩, ?_⟩
    exact (v.contradicted_of_touched ht).mpr ⟨hm, hr, Or.inr (Or.inr (Or.inr hdefect))⟩

/-- The law the record is meant to keep. -/
def Coherente : Prop :=
  ¬ (v.verified = true ∧ v.contradicted = true) ∧
    (v.verdict = .reussi ↔ v.verified = true) ∧ (v.verdict = .echoue ↔ v.contradicted = true) ∧
    (v.verdict = .indisponible ↔ v.verified = false ∧ v.contradicted = false)

private theorem verdict_eq_indisponible :
    v.verdict = .indisponible ↔ v.verdict ≠ .reussi ∧ v.verdict ≠ .echoue := by
  cases v.verdict <;> simp

/-- The record is coherent except on a measured success over a changed workspace
whose only defects are findings that `verified` does not read. -/
theorem coherente_iff :
    v.Coherente ↔
      ¬ (v.measured = true ∧ v.reportedSuccess = true ∧ v.changes.touchedAnything = true ∧
        v.testsEchouent = false ∧ v.manifesteManque = false ∧ v.importsBoucles = false ∧
        v.defautHorsVerified = true) := by
  rw [← verified_and_contradicted, Coherente, verdict_eq_indisponible, ne_eq, ne_eq,
    verdict_eq_reussi, verdict_eq_echoue]
  cases v.verified <;> cases v.contradicted <;> simp

/-- A module was written, the tests pass, and the module defines nothing. -/
def livraisonVide : MissionVerification where
  missionId := "m1"
  reportedSuccess := true
  workspace := some "/projet"
  changes := { created := ["models/atelier.py"], modified := [], deleted := [], indetermines := [] }
  measured := true
  tests := some
    { ran := true, runner := some "pytest", passed := some true, exitCode := some 0,
      output := some "2 passed" }
  manifeste := none
  imports := some { fatals := [] }
  importsRemontent := none
  fauxPaquet := none
  testTautologique := none
  livrableVide := some "models/atelier.py : # Atelier model placeholder"
  sqlCasse := none

theorem livraisonVide_verified_contradicted : ¬ livraisonVide.Coherente := by
  intro h
  exact h.1 ⟨by decide, by decide⟩

end MissionVerification

end Hermes
