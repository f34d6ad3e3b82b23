import Hermes.Lib.Texte
import Hermes.Mission.Models

/-! # A second, better-informed attempt

`decide` retries one situation: a mission that reported success and that its workspace
contradicts, within the number of attempts.
-/

namespace Hermes

open Lib.Texte (strip derniers ou ofOptionInt)

namespace RetryPolicy

def defaultMaxAttempts : Int := 2

def maxSortieTests : Nat := 1500

structure RetryDecision where
  shouldRetry : Bool
  reason : String
  brief : Option String
  attempt : Int
  deriving DecidableEq

def refus (reason : String) : RetryDecision where
  shouldRetry := false
  reason := reason
  brief := none
  attempt := 1

def manquants (v : MissionVerification) : List String :=
  match v.manifeste with
  | none => []
  | some verdict => verdict.manquants

def fatals (v : MissionVerification) : List String :=
  match v.imports with
  | none => []
  | some verdict => verdict.fatals

def motif (v : MissionVerification) : String :=
  if v.testsEchouent then "reported success but the project's own tests fail"
  else if !(manquants v).isEmpty then "reported success but announced deliverables are missing"
  else if !(fatals v).isEmpty then
    "reported success but the modules import each other in a fatal cycle"
  else "reported success but the workspace did not change"

def constatInchange (v : MissionVerification) (workspace : String) : List String :=
  if v.changes.touchedAnything then []
  else
    ["- " ++ workspace ++ " was unchanged: " ++ v.changes.summary
      ++ ". A description of the work is not the work — use your tools."]

def constatManquants (v : MissionVerification) : List String :=
  if (manquants v).isEmpty then []
  else
    ["- These files were announced as deliverables and do not exist on disk: "
      ++ ", ".intercalate (manquants v) ++ "."]

def constatTests (v : MissionVerification) : List String :=
  match v.tests with
  | none => []
  | some tests =>
      if tests.ran && tests.passed == some false then
        let sortie := strip (tests.output.getD "")
        ["- The project's own tests were run with " ++ tests.runner.getD "the test runner"
          ++ " and FAILED (exit code " ++ ofOptionInt tests.exitCode
          ++ "). This is the real output — fix what it reports, do not guess:\n\n"
          ++ if sortie = "" then "(no output captured)" else derniers maxSortieTests sortie]
      else []

def constatImports (v : MissionVerification) : List String :=
  if (fatals v).isEmpty then []
  else
    ["- These modules import each other in a cycle that raises at import time: "
      ++ "; ".intercalate (fatals v)
      ++ ". Break the cycle — the files compile, but nothing can load them."]

def constats (v : MissionVerification) (workspace : String) : List String :=
  let trouves := constatInchange v workspace ++ constatManquants v ++ constatTests v
    ++ constatImports v
  if trouves.isEmpty then
    ["- The check contradicted the reported result without naming a specific cause. "
      ++ "Re-verify your own output on disk."]
  else trouves

def buildRetryBrief (objective : String) (v : MissionVerification) : String :=
  let workspace := ou (v.workspace.getD "") "the workspace"
  "\n".intercalate
    ([strip objective, "",
        "IMPORTANT — this task was already attempted, and the result was "
          ++ "checked against the disk. Here is what was found.", ""]
      ++ constats v workspace
      ++ ["", "Fix exactly what is listed above. What is already correct is on disk "
          ++ "— read it rather than rewriting it. Then read back your own output "
          ++ "from disk to confirm the fix before reporting success."])

theorem buildRetryBrief_ne_empty (objective : String) (v : MissionVerification) :
    buildRetryBrief objective v ≠ "" := by
  intro h
  simp [buildRetryBrief, String.intercalate_cons_cons] at h

def decide (verification : Option MissionVerification) (objective : String) (attemptsMade : Int) :
    RetryDecision :=
  match verification with
  | none => refus "no verification available"
  | some v =>
      if !v.measured then refus "nothing was measured — no workspace to compare"
      else if !v.contradicted then refus "verification agrees with the reported result"
      else if defaultMaxAttempts ≤ attemptsMade then
        refus ("already attempted " ++ toString attemptsMade ++ " time(s), limit is "
          ++ toString defaultMaxAttempts)
      else
        { shouldRetry := true
          reason := motif v
          brief := some (buildRetryBrief objective v)
          attempt := attemptsMade + 1 }

theorem decide_shouldRetry_iff (verification : Option MissionVerification) (objective : String)
    (attemptsMade : Int) :
    (decide verification objective attemptsMade).shouldRetry = true ↔
      attemptsMade < defaultMaxAttempts ∧ ∃ v, verification = some v ∧ v.contradicted = true := by
  cases verification with
  | none => simp [decide, refus]
  | some v =>
      have hmeasured : v.contradicted = true → v.measured = true := by
        unfold MissionVerification.contradicted
        cases v.measured <;> simp
      unfold decide
      cases hm : v.measured <;> cases hc : v.contradicted <;>
        simp_all [refus, apply_ite RetryDecision.shouldRetry]

theorem decide_brief {verification : Option MissionVerification} {objective : String}
    {attemptsMade : Int} (h : (decide verification objective attemptsMade).shouldRetry = true) :
    ∃ brief, (decide verification objective attemptsMade).brief = some brief ∧ brief ≠ "" := by
  obtain ⟨hlimit, v, rfl, hcontradicted⟩ :=
    (decide_shouldRetry_iff verification objective attemptsMade).mp h
  have hmeasured : v.measured = true := by
    by_contra hnot
    simp [MissionVerification.contradicted, hnot] at hcontradicted
  refine ⟨buildRetryBrief objective v, ?_, buildRetryBrief_ne_empty objective v⟩
  simp [decide, hmeasured, hcontradicted, Int.not_le.mpr hlimit]

inductive Defaut where
  | testsEchouent
  | livrablesManquants
  | bouclesFatales
  | importHorsPaquet
  | fauxPaquet
  | testTautologique
  | livrableVide
  | sqlCasse
  | inchange
  deriving DecidableEq

def Defaut.present (v : MissionVerification) : Defaut → Bool
  | .testsEchouent => v.testsEchouent
  | .livrablesManquants => v.manifesteManque
  | .bouclesFatales => v.importsBoucles
  | .importHorsPaquet => v.importHorsPaquet
  | .fauxPaquet => v.dependanceFabriquee
  | .testTautologique => v.testNePeutPasEchouer
  | .livrableVide => v.livrableSansContenu
  | .sqlCasse => v.sqlNeSExecutePas
  | .inchange => !v.changes.touchedAnything

def Defaut.motif : Defaut → Option String
  | .testsEchouent => some "reported success but the project's own tests fail"
  | .livrablesManquants => some "reported success but announced deliverables are missing"
  | .bouclesFatales => some "reported success but the modules import each other in a fatal cycle"
  | .inchange => some "reported success but the workspace did not change"
  | .importHorsPaquet | .fauxPaquet | .testTautologique | .livrableVide | .sqlCasse => none

def Defaut.constats (v : MissionVerification) (workspace : String) : Defaut → List String
  | .testsEchouent => constatTests v
  | .livrablesManquants => constatManquants v
  | .bouclesFatales => constatImports v
  | .inchange => constatInchange v workspace
  | .importHorsPaquet | .fauxPaquet | .testTautologique | .livrableVide | .sqlCasse => []

/-- The reason and the lines of the brief name defects that are there, and every defect has its
line. -/
structure Fidele (v : MissionVerification) : Prop where
  raison : ∀ objective attemptsMade, (decide (some v) objective attemptsMade).shouldRetry = true →
    ∃ d : Defaut, d.present v = true ∧
      d.motif = some (decide (some v) objective attemptsMade).reason
  lignes : ∀ workspace, ∀ ligne ∈ constats v workspace,
    ∃ d : Defaut, d.present v = true ∧ ligne ∈ d.constats v workspace
  couverts : ∀ workspace, ∀ d : Defaut, d.present v = true →
    ∃ ligne ∈ constats v workspace, ligne ∈ d.constats v workspace

variable {v : MissionVerification}

theorem manifesteManque_eq (v : MissionVerification) :
    v.manifesteManque = !(manquants v).isEmpty := by
  unfold MissionVerification.manifesteManque manquants
  cases v.manifeste <;> rfl

theorem importsBoucles_eq (v : MissionVerification) : v.importsBoucles = !(fatals v).isEmpty := by
  unfold MissionVerification.importsBoucles fatals
  cases v.imports <;> rfl

theorem constats_ne_nil_iff (v : MissionVerification) (workspace : String) (d : Defaut) :
    d.constats v workspace ≠ [] ↔ d.present v = true ∧ d.motif.isSome = true := by
  cases d with
  | testsEchouent =>
      simp only [Defaut.constats, Defaut.present, Defaut.motif, constatTests,
        MissionVerification.testsEchouent]
      cases v.tests with
      | none => simp
      | some tests =>
          simp only [Option.any_some]
          split <;> simp_all
  | livrablesManquants =>
      simp only [Defaut.constats, Defaut.present, Defaut.motif, manifesteManque_eq,
        constatManquants]
      cases (manquants v).isEmpty <;> simp
  | bouclesFatales =>
      simp only [Defaut.constats, Defaut.present, Defaut.motif, importsBoucles_eq, constatImports]
      cases (fatals v).isEmpty <;> simp
  | inchange =>
      simp only [Defaut.constats, Defaut.present, Defaut.motif, constatInchange]
      cases v.changes.touchedAnything <;> simp
  | importHorsPaquet | fauxPaquet | testTautologique | livrableVide | sqlCasse =>
      simp [Defaut.constats, Defaut.motif]

theorem defautHorsVerified_eq_false :
    v.defautHorsVerified = false ↔ ∀ d : Defaut, d.present v = true → d.motif.isSome = true := by
  constructor
  · intro h d hd
    simp only [MissionVerification.defautHorsVerified, Bool.or_eq_false_iff] at h
    cases d <;> simp_all [Defaut.present, Defaut.motif]
  · intro h
    by_contra hnot
    simp only [Bool.not_eq_false, MissionVerification.defautHorsVerified, Bool.or_eq_true] at hnot
    rcases hnot with (((hd | hd) | hd) | hd) | hd
    · cases h .importHorsPaquet hd
    · cases h .fauxPaquet hd
    · cases h .testTautologique hd
    · cases h .livrableVide hd
    · cases h .sqlCasse hd

theorem constats_eq {workspace : String} {d : Defaut} (h : d.constats v workspace ≠ []) :
    constats v workspace = Defaut.inchange.constats v workspace ++
      Defaut.livrablesManquants.constats v workspace ++ Defaut.testsEchouent.constats v workspace ++
        Defaut.bouclesFatales.constats v workspace := by
  unfold constats
  dsimp only
  rw [if_neg]
  · rfl
  · rw [List.isEmpty_iff]
    simp only [List.append_eq_nil_iff]
    rintro ⟨⟨⟨hinchange, hmanquants⟩, htests⟩, himports⟩
    cases d with
    | testsEchouent => exact h htests
    | livrablesManquants => exact h hmanquants
    | bouclesFatales => exact h himports
    | inchange => exact h hinchange
    | importHorsPaquet | fauxPaquet | testTautologique | livrableVide | sqlCasse => exact h rfl

theorem motif_present (hcontradicted : v.contradicted = true) (h : v.defautHorsVerified = false) :
    ∃ d : Defaut, d.present v = true ∧ d.motif = some (motif v) := by
  unfold motif
  split
  · next htests => exact ⟨.testsEchouent, htests, rfl⟩
  · next htests =>
      split
      · next hmanquants => exact ⟨.livrablesManquants, (manifesteManque_eq v).trans hmanquants, rfl⟩
      · next hmanquants =>
          split
          · next hfatals => exact ⟨.bouclesFatales, (importsBoucles_eq v).trans hfatals, rfl⟩
          · next hfatals =>
              refine ⟨.inchange, ?_, rfl⟩
              rw [← manifesteManque_eq] at hmanquants
              rw [← importsBoucles_eq] at hfatals
              by_contra hnot
              have htouched : v.changes.touchedAnything = true := by
                simpa [Defaut.present] using hnot
              obtain ⟨-, -, hdefaut⟩ := (v.contradicted_of_touched htouched).mp hcontradicted
              simp [htests, hmanquants, hfatals, h] at hdefaut

/-- The retry of a contradicted mission says what was found exactly when no defect beyond the
tests, the deliverables, the cycles and the unchanged workspace was. -/
theorem fidele_iff (v : MissionVerification) (hcontradicted : v.contradicted = true) :
    Fidele v ↔ v.importHorsPaquet = false ∧ v.dependanceFabriquee = false ∧
      v.testNePeutPasEchouer = false ∧ v.livrableSansContenu = false ∧
        v.sqlNeSExecutePas = false := by
  have hnoms : (v.importHorsPaquet = false ∧ v.dependanceFabriquee = false ∧
      v.testNePeutPasEchouer = false ∧ v.livrableSansContenu = false ∧
        v.sqlNeSExecutePas = false) ↔ v.defautHorsVerified = false := by
    simp [MissionVerification.defautHorsVerified, and_assoc]
  rw [hnoms]
  constructor
  · intro h
    rw [defautHorsVerified_eq_false]
    intro d hd
    obtain ⟨ligne, -, hligne⟩ := h.couverts "" d hd
    exact ((constats_ne_nil_iff v "" d).mp (List.ne_nil_of_mem hligne)).2
  · intro h
    obtain ⟨d, hd, hmotif⟩ := motif_present hcontradicted h
    have hsome : ∀ d : Defaut, d.present v = true → d.motif.isSome = true :=
      defautHorsVerified_eq_false.mp h
    refine ⟨fun objective attemptsMade hretry => ?_, fun workspace ligne hligne => ?_,
      fun workspace d' hd' => ?_⟩
    · obtain ⟨hlimit, -⟩ := (decide_shouldRetry_iff _ objective attemptsMade).mp hretry
      have hmeasured : v.measured = true := by
        by_contra hnot
        simp [MissionVerification.contradicted, hnot] at hcontradicted
      refine ⟨d, hd, hmotif.trans ?_⟩
      simp [decide, hmeasured, hcontradicted, Int.not_le.mpr hlimit]
    · have hne := (constats_ne_nil_iff v workspace d).mpr ⟨hd, hsome d hd⟩
      rw [constats_eq hne] at hligne
      have hpresent : ∀ d : Defaut, ligne ∈ d.constats v workspace →
          ∃ d : Defaut, d.present v = true ∧ ligne ∈ d.constats v workspace := fun d hmem =>
        ⟨d, ((constats_ne_nil_iff v workspace d).mp (List.ne_nil_of_mem hmem)).1, hmem⟩
      simp only [List.mem_append] at hligne
      rcases hligne with ((hligne | hligne) | hligne) | hligne
      · exact hpresent .inchange hligne
      · exact hpresent .livrablesManquants hligne
      · exact hpresent .testsEchouent hligne
      · exact hpresent .bouclesFatales hligne
    · have hne := (constats_ne_nil_iff v workspace d').mpr ⟨hd', hsome d' hd'⟩
      obtain ⟨ligne, hligne⟩ := List.exists_mem_of_ne_nil _ hne
      refine ⟨ligne, ?_, hligne⟩
      rw [constats_eq hne]
      simp only [List.mem_append]
      cases d' with
      | testsEchouent => exact .inl (.inr hligne)
      | livrablesManquants => exact .inl (.inl (.inr hligne))
      | bouclesFatales => exact .inr hligne
      | inchange => exact .inl (.inl (.inl hligne))
      | importHorsPaquet | fauxPaquet | testTautologique | livrableVide | sqlCasse =>
          exact absurd hligne List.not_mem_nil

/-- The deliverable that was written defines nothing; the retry says that nothing was written. -/
theorem livraisonVide_motif_faux :
    MissionVerification.livraisonVide.contradicted = true ∧
      MissionVerification.livraisonVide.changes.created = ["models/atelier.py"] ∧
      (decide (some MissionVerification.livraisonVide) "atelier" 1).reason =
        "reported success but the workspace did not change" ∧
      ¬ Fidele MissionVerification.livraisonVide := by
  have hcontradicted : MissionVerification.livraisonVide.contradicted = true := rfl
  refine ⟨hcontradicted, rfl, rfl, fun h => ?_⟩
  obtain ⟨ligne, -, hligne⟩ := h.couverts "" .livrableVide rfl
  exact absurd hligne List.not_mem_nil

/-- An announced deliverable is missing and nothing else is wrong. -/
def livrableAbsent : MissionVerification :=
  { MissionVerification.livraisonVide with
    livrableVide := none
    manifeste := some { manquants := ["docs/atelier.md"] } }

theorem fidele_iff_livrableAbsent :
    livrableAbsent.contradicted = true ∧
      (Fidele livrableAbsent ↔ livrableAbsent.importHorsPaquet = false ∧
        livrableAbsent.dependanceFabriquee = false ∧
          livrableAbsent.testNePeutPasEchouer = false ∧
            livrableAbsent.livrableSansContenu = false ∧
              livrableAbsent.sqlNeSExecutePas = false) :=
  ⟨rfl, fidele_iff livrableAbsent rfl⟩

end RetryPolicy

end Hermes
