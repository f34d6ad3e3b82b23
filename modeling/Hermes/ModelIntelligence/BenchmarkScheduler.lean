import Hermes.Lib.Dict
import Hermes.Lib.Flottant
import Hermes.Lib.Texte
import Mathlib.Tactic.Linarith
import Mathlib.Tactic.NormNum

/-! # Benchmarks of the models, and their regressions

A benchmark is recorded in the profile of its model before it is compared with that profile.
-/

namespace Hermes.BenchmarkScheduler

open Lib

inductive TaskType where
  | codeGeneration
  | codeReview
  | debug
  | refactor
  | analysis
  | chat
  | documentation
  | optimization
  | reasoning
  | general
  deriving DecidableEq

def TaskType.value : TaskType → String
  | codeGeneration => "code_generation"
  | codeReview => "code_review"
  | debug => "debug"
  | refactor => "refactor"
  | analysis => "analysis"
  | chat => "chat"
  | documentation => "documentation"
  | optimization => "optimization"
  | reasoning => "reasoning"
  | general => "general"

structure ModelPerformanceRecord where
  modelId : String
  taskType : TaskType
  durationMs : Int
  tokensUsed : Int
  success : Bool
  errorType : String := ""
  timestamp : String
  deriving DecidableEq

structure ModelProfile where
  modelId : String
  tokensPerSecond : Rat := 0
  taskScores : Dict String Rat := []
  historicalSuccessRate : Rat := 0
  totalRuns : Nat := 0
  successfulRuns : Nat := 0
  lastUsed : String := ""
  deriving DecidableEq

structure BenchmarkResult where
  benchmarkId : String
  modelId : String
  taskType : TaskType
  latencyMs : Rat
  tokensPerSecond : Rat
  vramUsageMb : Nat
  ramUsageMb : Nat
  qualityScore : Rat
  temperature : Rat
  timestamp : String
  deriving DecidableEq

structure Regression where
  modelId : String
  taskType : String
  previousScore : Rat
  currentScore : Rat
  dropPct : Rat
  timestamp : String
  deriving DecidableEq

structure Etat where
  profils : Dict String ModelProfile := []
  performances : List ModelPerformanceRecord := []
  benchmarks : List BenchmarkResult := []
  resultats : Dict (String × String) BenchmarkResult := []
  regressions : List Regression := []
  deriving DecidableEq

structure Issue where
  modelId : String
  taskType : TaskType
  content : String
  latencyMs : Rat
  tps : Rat
  vramMb : Nat
  ramMb : Nat
  tokensUsed : Int
  secondes : Nat
  maintenant : String
  deriving DecidableEq

@[irreducible] def MAX_HISTORY : Nat := 1000

def derniers {α : Type} (n : Nat) (l : List α) : List α := l.drop (l.length - n)

/-- `round(x, 1)` -/
def arrondi1 (x : Rat) : Rat := Flottant.pair (x * 10) / 10

def CAUSES_IMPUTABLES_AU_MODELE : List String := ["modele", "semantique", "verification"]

def imputableAuModele (cause : String) : Bool :=
  if Texte.strip cause = "" then true
  else (Texte.strip cause).toLower ∈ CAUSES_IMPUTABLES_AU_MODELE

def ModelProfile.compter (p : ModelProfile) (record : ModelPerformanceRecord) : ModelProfile :=
  if record.success || imputableAuModele record.errorType then
    let total := p.totalRuns + 1
    let reussis := if record.success then p.successfulRuns + 1 else p.successfulRuns
    { p with
      totalRuns := total
      successfulRuns := reussis
      historicalSuccessRate := reussis / total }
  else p

def ModelProfile.mesurer (p : ModelProfile) (record : ModelPerformanceRecord) : ModelProfile :=
  if record.success && 0 < record.durationMs && 0 < record.tokensUsed then
    let observe : Rat := record.tokensUsed / (record.durationMs / 1000)
    { p with
      tokensPerSecond := if p.tokensPerSecond ≤ 0 then observe
        else p.tokensPerSecond * (7 / 10) + observe * (3 / 10) }
  else p

/-- The profile of a model, when there is one, is changed in place. -/
def Etat.modifier (e : Etat) (modelId : String) (f : ModelProfile → ModelProfile) : Etat :=
  match e.profils.get? modelId with
  | none => e
  | some p => { e with profils := e.profils.set modelId (f p) }

def historiser (e : Etat) (record : ModelPerformanceRecord) : Etat :=
  { e with performances := derniers MAX_HISTORY (e.performances ++ [record]) }

def updatePerformance (e : Etat) (record : ModelPerformanceRecord) : Etat :=
  (historiser e record).modifier record.modelId fun p =>
    { p.compter record with lastUsed := record.timestamp }.mesurer record

def addBenchmark (e : Etat) (result : BenchmarkResult) : Etat :=
  { e with benchmarks := derniers MAX_HISTORY (e.benchmarks ++ [result]) }

def Etat.score (e : Etat) (modelId : String) (taskType : TaskType) : Rat :=
  (((e.profils.get? modelId).map ModelProfile.taskScores).getD []).getD taskType.value (1 / 2)

/-- `none` is `ZeroDivisionError`. -/
def checkRegression (e : Etat) (result : BenchmarkResult) : Option Etat :=
  let expectedQ := e.score result.modelId result.taskType
  if result.qualityScore < expectedQ * (7 / 10) then
    if expectedQ = 0 then none
    else
      some { e with
        regressions := e.regressions ++ [
          { modelId := result.modelId
            taskType := result.taskType.value
            previousScore := expectedQ
            currentScore := result.qualityScore
            dropPct := arrondi1 ((1 - result.qualityScore / expectedQ) * 100)
            timestamp := result.timestamp }] }
  else some e

def qualite (content : String) : Rat := if Texte.strip content = "" then 0 else 1

def resultat (i : Issue) : BenchmarkResult where
  benchmarkId := "bm_" ++ toString i.secondes ++ "_" ++ Texte.premiers 8 i.modelId
  modelId := i.modelId
  taskType := i.taskType
  latencyMs := arrondi1 i.latencyMs
  tokensPerSecond := arrondi1 i.tps
  vramUsageMb := i.vramMb
  ramUsageMb := i.ramMb
  qualityScore := qualite i.content
  temperature := 2 / 10
  timestamp := i.maintenant

def mesure (i : Issue) : ModelPerformanceRecord where
  modelId := i.modelId
  taskType := i.taskType
  durationMs := Flottant.pair i.latencyMs
  tokensUsed := i.tokensUsed
  success := 0 < qualite i.content
  timestamp := i.maintenant

def ranger (e : Etat) (result : BenchmarkResult) : Etat :=
  { e with resultats := e.resultats.set (result.modelId, result.taskType.value) result }

def noter (e : Etat) (modelId : String) (taskType : TaskType) (quality : Rat) : Etat :=
  e.modifier modelId fun p => { p with taskScores := p.taskScores.set taskType.value quality }

def finalizeBenchmark (e : Etat) (i : Issue) : Option (BenchmarkResult × Etat) :=
  let result := resultat i
  let e := ranger (addBenchmark e result) result
  let e := updatePerformance e (mesure i)
  let e := noter e i.modelId i.taskType result.qualityScore
  (checkRegression e result).map fun e => (result, e)

/-- A benchmark of a model, once the runtime has answered. -/
def enregistrer (e : Etat) (i : Issue) : Option Etat :=
  if (e.profils.get? i.modelId).isNone then some e else (finalizeBenchmark e i).map Prod.snd

def attendue (e : Etat) (i : Issue) : List (String × String × Rat × Rat) :=
  let avant := e.score i.modelId i.taskType
  if (e.profils.get? i.modelId).isSome ∧ qualite i.content < 7 / 10 * avant then
    [(i.modelId, i.taskType.value, avant, qualite i.content)]
  else []

def Regression.essentiel (r : Regression) : String × String × Rat × Rat :=
  (r.modelId, r.taskType, r.previousScore, r.currentScore)

/-- Every outcome is recorded, with the regression that it is and no other. -/
def Fidele : Etat → List Issue → Prop
  | _, [] => True
  | e, i :: issues => ∃ e', enregistrer e i = some e' ∧
      e'.regressions.map Regression.essentiel =
        e.regressions.map Regression.essentiel ++ attendue e i ∧ Fidele e' issues

/-- No empty answer after a positive score, and no answer after a score above ten sevenths. -/
def Stable : Etat → List Issue → Prop
  | _, [] => True
  | e, i :: issues =>
      ((e.profils.get? i.modelId).isSome → e.score i.modelId i.taskType ≤
        if Texte.strip i.content = "" then 0 else 10 / 7) ∧
      ∀ e', enregistrer e i = some e' → Stable e' issues

section Effets

variable {e e' : Etat} {i : Issue} {modelId : String} {f : ModelProfile → ModelProfile}

@[simp] theorem historiser_profils (e : Etat) (record : ModelPerformanceRecord) :
    (historiser e record).profils = e.profils := rfl

@[simp] theorem historiser_regressions (e : Etat) (record : ModelPerformanceRecord) :
    (historiser e record).regressions = e.regressions := rfl

@[simp] theorem addBenchmark_profils (e : Etat) (result : BenchmarkResult) :
    (addBenchmark e result).profils = e.profils := rfl

@[simp] theorem addBenchmark_regressions (e : Etat) (result : BenchmarkResult) :
    (addBenchmark e result).regressions = e.regressions := rfl

@[simp] theorem ranger_profils (e : Etat) (result : BenchmarkResult) :
    (ranger e result).profils = e.profils := rfl

@[simp] theorem ranger_regressions (e : Etat) (result : BenchmarkResult) :
    (ranger e result).regressions = e.regressions := rfl

@[simp] theorem modifier_regressions (e : Etat) (modelId : String)
    (f : ModelProfile → ModelProfile) : (e.modifier modelId f).regressions = e.regressions := by
  unfold Etat.modifier
  split <;> rfl

theorem modifier_connu (h : (e.profils.get? modelId).isSome) :
    ((e.modifier modelId f).profils.get? modelId) = (e.profils.get? modelId).map f := by
  obtain ⟨p, hp⟩ := Option.isSome_iff_exists.mp h
  simp [Etat.modifier, hp]

theorem score_noter (h : (e.profils.get? modelId).isSome) (taskType : TaskType) (q : Rat) :
    (noter e modelId taskType q).score modelId taskType = q := by
  obtain ⟨p, hp⟩ := Option.isSome_iff_exists.mp h
  rw [Etat.score, noter, modifier_connu h, hp]
  simp [Dict.getD_set]

theorem qualite_nonneg (content : String) : 0 ≤ qualite content := by
  unfold qualite
  split <;> norm_num

theorem checkRegression_of_score (e : Etat) (result : BenchmarkResult)
    (hq : 0 ≤ result.qualityScore)
    (h : e.score result.modelId result.taskType = result.qualityScore) :
    checkRegression e result = some e := by
  have hpas : ¬ result.qualityScore < result.qualityScore * (7 / 10) := by linarith
  simp only [checkRegression, h, hpas, if_false]

theorem updatePerformance_connu {record : ModelPerformanceRecord}
    (h : (e.profils.get? record.modelId).isSome) :
    ((updatePerformance e record).profils.get? record.modelId).isSome := by
  have hconnu : ((historiser e record).profils.get? record.modelId).isSome := by
    rwa [historiser_profils]
  rw [updatePerformance, modifier_connu hconnu, Option.isSome_map]
  exact hconnu

@[simp] theorem updatePerformance_regressions (e : Etat) (record : ModelPerformanceRecord) :
    (updatePerformance e record).regressions = e.regressions := by
  rw [updatePerformance, modifier_regressions, historiser_regressions]

@[simp] theorem noter_regressions (e : Etat) (modelId : String) (taskType : TaskType) (q : Rat) :
    (noter e modelId taskType q).regressions = e.regressions :=
  modifier_regressions e _ _

theorem enregistrer_spec (e : Etat) (i : Issue) :
    ∃ e', enregistrer e i = some e' ∧ e'.regressions = e.regressions := by
  unfold enregistrer
  split_ifs with hinconnu
  · exact ⟨e, rfl, rfl⟩
  · have hconnu : ((ranger (addBenchmark e (resultat i)) (resultat i)).profils.get?
        (mesure i).modelId).isSome := by
      rw [ranger_profils, addBenchmark_profils, Option.isSome_iff_ne_none]
      exact fun hnone => hinconnu (Option.isNone_iff_eq_none.mpr hnone)
    have hscore := score_noter (updatePerformance_connu hconnu) i.taskType (qualite i.content)
    have hverifie := checkRegression_of_score _ (resultat i) (qualite_nonneg i.content) hscore
    refine ⟨_, congrArg (Option.map Prod.snd) (congrArg (Option.map _) hverifie), ?_⟩
    simp

theorem attendue_eq_nil : attendue e i = [] ↔ ((e.profils.get? i.modelId).isSome →
    e.score i.modelId i.taskType ≤ if Texte.strip i.content = "" then 0 else 10 / 7) := by
  have hseuil : ¬ qualite i.content < 7 / 10 * e.score i.modelId i.taskType ↔
      e.score i.modelId i.taskType ≤ if Texte.strip i.content = "" then 0 else 10 / 7 := by
    unfold qualite
    split_ifs
    · constructor <;> intro h <;> linarith
    · constructor <;> intro h <;> linarith
  rw [← hseuil]
  unfold attendue
  dsimp only
  split_ifs with h
  · exact iff_of_false nofun fun hpas => hpas h.1 h.2
  · exact iff_of_true rfl fun hconnu hbas => h ⟨hconnu, hbas⟩

/-- Regressions are recorded as they are due exactly when none is. -/
theorem fidele_iff_stable (e : Etat) (issues : List Issue) : Fidele e issues ↔ Stable e issues := by
  induction issues generalizing e with
  | nil => exact Iff.rfl
  | cons i issues ih =>
      obtain ⟨e', he', hregressions⟩ := enregistrer_spec e i
      rw [Fidele, Stable, ← attendue_eq_nil]
      constructor
      · rintro ⟨_, h, hattendue, hsuite⟩
        cases he'.symm.trans h
        rw [hregressions, List.self_eq_append_right] at hattendue
        refine ⟨hattendue, fun e'' he'' => ?_⟩
        cases he'.symm.trans he''
        exact (ih e').mp hsuite
      · intro h
        refine ⟨e', he', ?_, (ih e').mpr (h.2 e' he')⟩
        rw [hregressions, h.1, List.append_nil]

end Effets

def issueVide : Issue where
  modelId := "qwen"
  taskType := .debug
  content := ""
  latencyMs := 1000
  tps := 0
  vramMb := 0
  ramMb := 0
  tokensUsed := 0
  secondes := 0
  maintenant := "2026-01-01T00:00:00+00:00"

def etatRegle : Etat where
  profils := [("qwen", { modelId := "qwen", taskScores := [("debug", 1)] })]

/-- An empty answer after a full score is not seen. -/
theorem regression_perdue :
    ¬ ∀ (e : Etat) (issues : List Issue), Fidele e issues := by
  intro h
  obtain ⟨e', he', hregressions, -⟩ := h etatRegle [issueVide]
  have hrien : (enregistrer etatRegle issueVide).map Etat.regressions = some [] := by
    decide +kernel
  have hdue : attendue etatRegle issueVide = [("qwen", "debug", 1, 0)] := by decide +kernel
  rw [he', Option.map_some, Option.some.injEq] at hrien
  rw [hrien, hdue] at hregressions
  cases hregressions

end Hermes.BenchmarkScheduler
