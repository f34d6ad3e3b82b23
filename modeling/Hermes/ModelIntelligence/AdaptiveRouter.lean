import Mathlib.Algebra.Order.Ring.Rat
import Mathlib.Data.List.MinMax

/-! # The choice of a model for a task

A cloud model is considered behind a gate of three callables, which may answer, raise, and change
the registry of the models on their way.
-/

namespace Hermes.AdaptiveRouter

inductive RuntimeBackend where
  | ollama | ktransformers | transformers | vllm | llamacpp | openrouter
  deriving DecidableEq

inductive Quantization where
  | none | q4_0 | q4_K_M | q5_K_M | q8_0 | f16
  deriving DecidableEq

structure ModelProfile where
  modelId : String
  name : String
  vramRequiredMb : Int
  contextWindow : Nat
  latencyMs : Rat
  availableBackends : List RuntimeBackend
  chatCapable : Bool

structure TaskContext where
  complexity : Rat
  maxLatencyMs : Int
  maxVramMb : Int
  priority : String
  requiresReasoning : Bool
  cloudEscalationAllowed : Bool

/-- The profiles in the order of `list_profiles`, each under its own identifier. -/
structure Registre where
  profils : List ModelProfile
  distincts : (profils.map ModelProfile.modelId).Nodup

def Registre.getProfile (r : Registre) (modelId : String) : Option ModelProfile :=
  r.profils.find? fun p => p.modelId = modelId

/-- What the history of a model makes of it for a task. -/
structure Estimation where
  score : Rat
  confidence : Rat
  tokensPerSecond : Rat
  reason : String

structure Classement where
  modelId : String
  name : String
  score : Rat
  confidence : Rat
  estimatedLatencyMs : Int
  estimatedTps : Rat
  estimatedVramMb : Int
  reason : String

structure ModelDecision where
  modelId : String
  modelName : String
  runtime : RuntimeBackend
  quantization : Quantization
  confidence : Rat
  reason : String
  alternatives : List (String × String × Rat × String)
  estimatedLatencyMs : Int := 0
  estimatedTokensPerSecond : Rat := 0
  estimatedVramMb : Int
  taskContext : TaskContext
  numCtx : Nat

/-- What a callable raises; `except Exception` lets the second kind through. -/
inductive Leve where
  | exception (e : String)
  | systeme (e : String)
  deriving DecidableEq

structure CloudGate where
  refreshCatalog : Registre → Except Leve Unit × Registre
  authorized : Registre → Except Leve Bool × Registre
  hasQuota : Registre → Except Leve Bool × Registre

def estNuage (p : ModelProfile) : Bool :=
  p.chatCapable && decide (RuntimeBackend.openrouter ∈ p.availableBackends)

def estLocal (p : ModelProfile) : Bool :=
  p.chatCapable && !decide (RuntimeBackend.openrouter ∈ p.availableBackends)

def tient (task : TaskContext) (p : ModelProfile) : Bool := decide (p.vramRequiredMb ≤ task.maxVramMb)

section Routage

-- the estimates, and the optimizer of the runtime when one is wired
variable (evaluer : ModelProfile → TaskContext → Estimation)
variable (optimiser : Option (ModelProfile → TaskContext → Option (RuntimeBackend × Quantization)))
variable (task : TaskContext)

def predictLatency (p : ModelProfile) : Rat :=
  (if 0 < p.latencyMs then p.latencyMs else 100) * (1 + task.complexity * 2)

def classer (p : ModelProfile) : Classement where
  modelId := p.modelId
  name := p.name
  score := (evaluer p task).score
  confidence := (evaluer p task).confidence
  estimatedLatencyMs := (predictLatency task p).num.tdiv (predictLatency task p).den
  estimatedTps := (evaluer p task).tokensPerSecond
  estimatedVramMb := p.vramRequiredMb
  reason := (evaluer p task).reason

def rankModels (profiles : List ModelProfile) : List Classement :=
  ((profiles.filter fun p => tient task p && decide (predictLatency task p ≤ task.maxLatencyMs)).map
    (classer evaluer task)).mergeSort fun a b => decide (b.score ≤ a.score)

def selectRuntime : Option ModelProfile → RuntimeBackend
  | none => .ollama
  | some p =>
      match p.availableBackends with
      | [] => .ollama
      | premier :: _ =>
          if task.priority = "high" ∧ RuntimeBackend.vllm ∈ p.availableBackends then .vllm
          else if task.requiresReasoning ∧ RuntimeBackend.ktransformers ∈ p.availableBackends then
            .ktransformers
          else premier

def selectQuantization : Option ModelProfile → Quantization
  | none => .q4_K_M
  | some p =>
      if (task.maxVramMb : Rat) < p.vramRequiredMb * (7 / 10) then .q4_0
      else if (task.maxVramMb : Rat) < p.vramRequiredMb * (9 / 10) then .q4_K_M
      else if task.priority = "high" then .f16
      else .q5_K_M

def selectRuntimeAndQuantization (p : Option ModelProfile) : RuntimeBackend × Quantization :=
  (do (← optimiser) (← p) task).getD (selectRuntime task p, selectQuantization task p)

def alternatives (suivants : List Classement) : List (String × String × Rat × String) :=
  (suivants.take 3).map fun c => (c.modelId, c.name, c.score, c.reason)

def fenetre (p : Option ModelProfile) : Nat := (p.map ModelProfile.contextWindow).getD 0

/-- The order of the footprints, as a computable one. -/
local instance ordreInt : Preorder Int := Int.instLinearOrder.toPreorder

def fallbackDecision (r : Registre) : ModelDecision :=
  match (r.profils.filter estLocal).argmin ModelProfile.vramRequiredMb with
  | some lightest => {
      modelId := lightest.modelId
      modelName := lightest.name ++ " (fallback)"
      runtime := .ollama
      quantization := .q4_K_M
      confidence := 1 / 2
      reason := "No optimal model found, using the lightest known profile"
      alternatives := []
      estimatedVramMb := lightest.vramRequiredMb
      taskContext := task
      numCtx := lightest.contextWindow }
  | none => {
      modelId := ""
      modelName := "no model available"
      runtime := .ollama
      quantization := .q4_K_M
      confidence := 0
      reason := "No model profiles are registered"
      alternatives := []
      estimatedVramMb := 0
      taskContext := task
      numCtx := 0 }

/-- The clause `except Exception` answers as a refusal does. -/
def accord : Except Leve Bool → Except Leve Bool
  | .error (.exception _) => .ok false
  | x => x

def proposer (noLocalViable : Bool) (profiles : List ModelProfile) (r : Registre) :
    Option ModelDecision :=
  match rankModels evaluer task profiles with
  | [] => none
  | best :: suivants => some {
      modelId := best.modelId
      modelName := best.name
      runtime := .openrouter
      quantization := .none
      confidence := best.confidence
      reason := "cloud escalation (" ++ (if best.reason = "" then "task fit" else best.reason) ++
        ") — " ++ if noLocalViable then "no local model was viable" else "task opted in"
      alternatives := alternatives suivants
      estimatedLatencyMs := best.estimatedLatencyMs
      estimatedTokensPerSecond := best.estimatedTps
      estimatedVramMb := 0
      taskContext := task
      numCtx := fenetre (r.getProfile best.modelId) }

/-- After the refresh: the cloud profiles are listed, and the gate is asked. -/
def consulter (gate : CloudGate) (noLocalViable : Bool) (r : Registre) :
    Except Leve (Option ModelDecision) × Registre :=
  let nuage := r.profils.filter estNuage
  if nuage.isEmpty then (.ok none, r)
  else
    let authorized := gate.authorized r
    match accord authorized.1 with
    | .error e => (.error e, authorized.2)
    | .ok false => (.ok none, authorized.2)
    | .ok true =>
        let quota := gate.hasQuota authorized.2
        match accord quota.1 with
        | .error e => (.error e, quota.2)
        | .ok false => (.ok none, quota.2)
        | .ok true => (.ok (proposer evaluer task noLocalViable nuage quota.2), quota.2)

def tryCloudRecommendation (gate : CloudGate) (noLocalViable : Bool) (r : Registre) :
    Except Leve (Option ModelDecision) × Registre :=
  match gate.refreshCatalog r with
  | (.error (.systeme e), r₁) => (.error (.systeme e), r₁)
  | (_, r₁) => consulter evaluer task gate noLocalViable r₁

/-- The local profiles were listed before the gate; the registry is read again after it. -/
def choisirLocal (locaux : List ModelProfile) (r : Registre) : ModelDecision :=
  let viables := locaux.filter (tient task)
  let candidats :=
    if viables.isEmpty then
      locaux.mergeSort fun a b => decide (a.vramRequiredMb ≤ b.vramRequiredMb)
    else viables
  match rankModels evaluer task candidats with
  | [] => fallbackDecision task r
  | best :: suivants =>
      let profile := r.getProfile best.modelId
      let choix := selectRuntimeAndQuantization optimiser task profile
      { modelId := best.modelId
        modelName := best.name
        runtime := choix.1
        quantization := choix.2
        confidence := best.confidence
        reason := best.reason
        alternatives := alternatives suivants
        estimatedLatencyMs := best.estimatedLatencyMs
        estimatedTokensPerSecond := best.estimatedTps
        estimatedVramMb := best.estimatedVramMb
        taskContext := task
        numCtx := fenetre profile }

def escalader (cloud : Option CloudGate) (allowCloud noLocalViable : Bool) (r : Registre) :
    Except Leve (Option ModelDecision) × Registre :=
  match cloud with
  | some gate =>
      if allowCloud && (noLocalViable || task.cloudEscalationAllowed) then
        tryCloudRecommendation evaluer task gate noLocalViable r
      else (.ok none, r)
  | none => (.ok none, r)

def recommend (cloud : Option CloudGate) (allowCloud : Bool) (r : Registre) :
    Except Leve ModelDecision × Registre :=
  let locaux := r.profils.filter estLocal
  match escalader evaluer task cloud allowCloud (locaux.filter (tient task)).isEmpty r with
  | (.error e, r') => (.error e, r')
  | (.ok (some decision), r') => (.ok decision, r')
  | (.ok none, r') => (.ok (choisirLocal evaluer optimiser task locaux r'), r')

end Routage

section Promesse

variable (task : TaskContext) (cloud : Option CloudGate) (allowCloud : Bool) (r : Registre)

/-- Some local chat-capable model of the registry fits. -/
def UnLocalTient (r : Registre) : Prop := ∃ p ∈ r.profils, estLocal p = true ∧ tient task p = true

/-- The registry when the gate is asked for its authorisation. -/
def CloudGate.apresCatalogue (gate : CloudGate) : Registre := (gate.refreshCatalog r).2

/-- The registry when the gate is asked for its quota. -/
def CloudGate.apresAccord (gate : CloudGate) : Registre :=
  (gate.authorized (gate.apresCatalogue r)).2

structure Escalade (modelId : String) : Prop where
  porte : ∃ gate, cloud = some gate ∧
    (gate.authorized (gate.apresCatalogue r)).1 = .ok true ∧
    (gate.hasQuota (gate.apresAccord r)).1 = .ok true ∧
    ∃ p ∈ (gate.apresCatalogue r).profils, p.modelId = modelId ∧ estNuage p = true
  permise : allowCloud = true
  motif : ¬UnLocalTient task r ∨ task.cloudEscalationAllowed = true

/-- A local model of the registry, that fits if one of them does. -/
def Local (r : Registre) (modelId : String) : Prop :=
  ∃ p ∈ r.profils, p.modelId = modelId ∧ estLocal p = true ∧ (UnLocalTient task r → tient task p = true)

def LeveParLaPorte (e : Leve) : Prop :=
  ∃ gate s, cloud = some gate ∧ e = .systeme s ∧
    ((gate.refreshCatalog r).1 = .error e ∨ (gate.authorized (gate.apresCatalogue r)).1 = .error e ∨
      (gate.hasQuota (gate.apresAccord r)).1 = .error e)

/-- `r'` is the registry after the gate. -/
def Conforme (r' : Registre) (d : ModelDecision) : Prop :=
  Escalade task cloud allowCloud r d.modelId ∨ Local task r d.modelId ∨ Local task r' d.modelId ∨
    ((∀ p ∈ r'.profils, estLocal p = false) ∧ d = fallbackDecision task r')

end Promesse

section Preuves

variable {evaluer : ModelProfile → TaskContext → Estimation}
variable {optimiser : Option (ModelProfile → TaskContext → Option (RuntimeBackend × Quantization))}
variable {task : TaskContext} {r r' : Registre} {gate : CloudGate} {d : ModelDecision} {e : Leve}

theorem accord_error {x : Except Leve Bool} (h : accord x = .error e) :
    (∃ s, e = .systeme s) ∧ x = .error e := by
  cases x with
  | ok b => cases h
  | error e' =>
      cases e' with
      | exception s => cases h
      | systeme s =>
          cases h
          exact ⟨⟨s, rfl⟩, rfl⟩

theorem accord_true {x : Except Leve Bool} (h : accord x = .ok true) : x = .ok true := by
  cases x with
  | ok b => exact h
  | error e =>
      cases e with
      | exception s => cases h
      | systeme s => cases h

theorem exists_of_rankModels {profiles : List ModelProfile} {best : Classement}
    {suivants : List Classement} (h : rankModels evaluer task profiles = best :: suivants) :
    ∃ p ∈ profiles, tient task p = true ∧ p.modelId = best.modelId := by
  have hbest : best ∈ rankModels evaluer task profiles := h ▸ List.mem_cons_self
  rw [rankModels, List.mem_mergeSort, List.mem_map] at hbest
  obtain ⟨p, hp, rfl⟩ := hbest
  rw [List.mem_filter, Bool.and_eq_true] at hp
  exact ⟨p, hp.1, hp.2.1, rfl⟩

theorem fallbackDecision_local : Local task r (fallbackDecision task r).modelId ∨
    ∀ p ∈ r.profils, estLocal p = false := by
  unfold fallbackDecision
  cases hmin : (r.profils.filter estLocal).argmin ModelProfile.vramRequiredMb with
  | none =>
      right
      intro p hp
      rw [List.argmin_eq_none, List.filter_eq_nil_iff] at hmin
      exact Bool.eq_false_iff.mpr (hmin p hp)
  | some lightest =>
      left
      have hmem := List.mem_filter.mp (List.argmin_mem hmin)
      refine ⟨lightest, hmem.1, rfl, hmem.2, ?_⟩
      intro ⟨p, hp, hlocal, hvram⟩
      -- the lightest needs no more than the one that fits
      have hleger := List.le_of_mem_argmin (List.mem_filter.mpr ⟨hp, hlocal⟩) hmin
      exact decide_eq_true (hleger.trans (of_decide_eq_true hvram))

theorem choisirLocal_local (cloud : Option CloudGate) (allowCloud : Bool) :
    Conforme task cloud allowCloud r r'
      (choisirLocal evaluer optimiser task (r.profils.filter estLocal) r') := by
  right
  unfold choisirLocal
  simp only
  split
  · cases (fallbackDecision_local : Local task r' _ ∨ _) with
    | inl hlocal => exact Or.inr (Or.inl hlocal)
    | inr hvide => exact Or.inr (Or.inr ⟨hvide, rfl⟩)
  · next best suivants hrank =>
      left
      obtain ⟨p, hp, hvram, hid⟩ := exists_of_rankModels hrank
      have hlocal : p ∈ r.profils.filter estLocal := by
        split at hp
        · exact List.mem_mergeSort.mp hp
        · exact List.mem_of_mem_filter hp
      rw [List.mem_filter] at hlocal
      exact ⟨p, hlocal.1, hid, hlocal.2, fun _ => hvram⟩

theorem consulter_spec (noLocalViable : Bool) {issue : Except Leve (Option ModelDecision)}
    (h : consulter evaluer task gate noLocalViable r = (issue, r')) :
    (∀ e, issue = .error e → (∃ s, e = .systeme s) ∧
      ((gate.authorized r).1 = .error e ∨ (gate.hasQuota (gate.authorized r).2).1 = .error e)) ∧
    ∀ d, issue = .ok (some d) → (gate.authorized r).1 = .ok true ∧
      (gate.hasQuota (gate.authorized r).2).1 = .ok true ∧
      ∃ p ∈ r.profils, p.modelId = d.modelId ∧ estNuage p = true := by
  unfold consulter at h
  simp only at h
  split at h
  · cases h
    exact ⟨fun e he => (nomatch he), fun d hd => (nomatch hd)⟩
  · split at h
    · next e he =>
        cases h
        obtain ⟨hsysteme, hleve⟩ := accord_error he
        refine ⟨?_, fun d hd => (nomatch hd)⟩
        intro e' he'
        cases he'
        exact ⟨hsysteme, Or.inl hleve⟩
    · cases h
      exact ⟨fun e he => (nomatch he), fun d hd => (nomatch hd)⟩
    · next hautorise =>
        split at h
        · next e he =>
            cases h
            obtain ⟨hsysteme, hleve⟩ := accord_error he
            refine ⟨?_, fun d hd => (nomatch hd)⟩
            intro e' he'
            cases he'
            exact ⟨hsysteme, Or.inr hleve⟩
        · cases h
          exact ⟨fun e he => (nomatch he), fun d hd => (nomatch hd)⟩
        · next hquota =>
            cases h
            refine ⟨fun e he => (nomatch he), ?_⟩
            intro d hd
            have hpropose := Except.ok.inj hd
            unfold proposer at hpropose
            split at hpropose
            · cases hpropose
            · next best suivants hrank =>
                cases hpropose
                obtain ⟨p, hp, -, hid⟩ := exists_of_rankModels hrank
                rw [List.mem_filter] at hp
                exact ⟨accord_true hautorise, accord_true hquota, p, hp.1, hid, hp.2⟩

theorem tryCloudRecommendation_spec (noLocalViable : Bool)
    {issue : Except Leve (Option ModelDecision)}
    (h : tryCloudRecommendation evaluer task gate noLocalViable r = (issue, r')) :
    (∀ e, issue = .error e → LeveParLaPorte (some gate) r e) ∧
      ∀ d, issue = .ok (some d) → (gate.authorized (gate.apresCatalogue r)).1 = .ok true ∧
        (gate.hasQuota (gate.apresAccord r)).1 = .ok true ∧
        ∃ p ∈ (gate.apresCatalogue r).profils, p.modelId = d.modelId ∧ estNuage p = true := by
  have hsuite : ∀ r₁, gate.apresCatalogue r = r₁ →
      consulter evaluer task gate noLocalViable r₁ = (issue, r') →
      (∀ e, issue = .error e → LeveParLaPorte (some gate) r e) ∧
      ∀ d, issue = .ok (some d) → (gate.authorized (gate.apresCatalogue r)).1 = .ok true ∧
        (gate.hasQuota (gate.apresAccord r)).1 = .ok true ∧
        ∃ p ∈ (gate.apresCatalogue r).profils, p.modelId = d.modelId ∧ estNuage p = true := by
    intro r₁ hr₁ hconsulter
    obtain ⟨hleve, hpropose⟩ := consulter_spec noLocalViable hconsulter
    rw [CloudGate.apresAccord, hr₁]
    refine ⟨?_, hpropose⟩
    intro e he
    obtain ⟨⟨s, hs⟩, hgate⟩ := hleve e he
    refine ⟨gate, s, rfl, hs, Or.inr ?_⟩
    rw [CloudGate.apresAccord, hr₁]
    exact hgate
  unfold tryCloudRecommendation at h
  split at h
  · next e r₁ hcatalogue =>
      cases h
      refine ⟨?_, fun d hd => (nomatch hd)⟩
      intro e' he'
      cases he'
      exact ⟨gate, e, rfl, rfl, Or.inl (congrArg Prod.fst hcatalogue)⟩
  · next r₁ _ hcatalogue => exact hsuite r₁ (congrArg Prod.snd hcatalogue) h

theorem escalader_spec {cloud : Option CloudGate} {allowCloud : Bool}
    {issue : Except Leve (Option ModelDecision)}
    (h : escalader evaluer task cloud allowCloud
      ((r.profils.filter estLocal).filter (tient task)).isEmpty r = (issue, r')) :
    (∀ e, issue = .error e → LeveParLaPorte cloud r e) ∧
      ∀ d, issue = .ok (some d) → Escalade task cloud allowCloud r d.modelId := by
  have hrien : issue = .ok none → (∀ e, issue = .error e → LeveParLaPorte cloud r e) ∧
      ∀ d, issue = .ok (some d) → Escalade task cloud allowCloud r d.modelId := by
    rintro rfl
    exact ⟨fun e he => (nomatch he), fun d hd => (nomatch hd)⟩
  unfold escalader at h
  cases cloud with
  | none => exact hrien (congrArg Prod.fst h).symm
  | some gate =>
      simp only at h
      split at h
      · next hpermis =>
          rw [Bool.and_eq_true, Bool.or_eq_true] at hpermis
          obtain ⟨hleve, hpropose⟩ := tryCloudRecommendation_spec _ h
          refine ⟨hleve, fun d hd => ⟨⟨gate, rfl, hpropose d hd⟩, hpermis.1, ?_⟩⟩
          cases hpermis.2 with
          | inl hvide =>
              left
              intro ⟨p, hp, hlocal, hvram⟩
              rw [List.isEmpty_iff, List.filter_filter, List.filter_eq_nil_iff] at hvide
              exact hvide p hp (by rw [hlocal, hvram]; rfl)
          | inr hoptin => exact Or.inr hoptin
      · exact hrien (congrArg Prod.fst h).symm

end Preuves

end Hermes.AdaptiveRouter
