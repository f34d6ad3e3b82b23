import Hermes.Ral.RuntimeRecovery
import Mathlib.Logic.Relation

/-! # An execution that falls back from runtime to runtime

The router resolves a runtime, executes on it and starts again without the runtimes that failed.
What a resolution sees of an instance may change from one look to the next.
-/

namespace Hermes.Ral

open Lib

def RuntimeRecoveryManager.recover (m : RuntimeRecoveryManager) (nom : String) (now : Rat) :
    RuntimeRecoveryManager × String :=
  let m := (m.appeler ⟨nom, .recordFailure, now⟩).1
  (m, if (m.getBreaker nom).state = .opened then "circuit_open" else "runtime_failure")

structure RuntimeRegistry where
  runtimes : Dict String Nat
  cles : runtimes.keys.Nodup

namespace RuntimeRegistry

def findName (reg : RuntimeRegistry) (i : Nat) : Option String :=
  (reg.runtimes.find? fun item => item.2 = i).map Prod.fst

/-- The names are read in sorted order here, in the order of their registration above. -/
def getActiveName (reg : RuntimeRegistry) (i : Nat) : Option String :=
  (reg.runtimes.keys.mergeSort fun a b => decide (a ≤ b)).find? fun nom =>
    reg.runtimes.get? nom = some i

/-- No instance stands behind two names. -/
def SansAlias (reg : RuntimeRegistry) : Prop := (reg.runtimes.map Prod.snd).Nodup

theorem findName_of_get? {reg : RuntimeRegistry} (h : reg.SansAlias) {nom : String} {i : Nat}
    (hget : reg.runtimes.get? nom = some i) : reg.findName i = some nom := by
  have hmem : (nom, i) ∈ reg.runtimes := Dict.mem_of_get? hget
  unfold findName
  cases hfind : reg.runtimes.find? fun item => item.2 = i with
  | none => exact absurd (List.find?_eq_none.mp hfind _ hmem) (by simp)
  | some item =>
      have hvaleur : item.2 = i := by simpa using List.find?_some hfind
      have hegal := List.inj_on_of_nodup_map h (List.mem_of_find?_eq_some hfind) hmem hvaleur
      rw [hegal, Option.map_some]

theorem getActiveName_eq {reg : RuntimeRegistry} (h : reg.SansAlias) (i : Nat) :
    reg.getActiveName i = reg.findName i := by
  cases hactif : reg.getActiveName i with
  | some nom => exact (findName_of_get? h (by simpa using List.find?_some hactif)).symm
  | none =>
      cases hnom : reg.findName i with
      | none => rfl
      | some nom =>
          obtain ⟨item, hitem, rfl⟩ := Option.map_eq_some_iff.mp hnom
          have hvaleur : item.2 = i := by simpa using List.find?_some hitem
          have hmem := List.mem_of_find?_eq_some hitem
          have hget : reg.runtimes.get? item.1 = some i :=
            hvaleur ▸ Dict.get?_of_mem reg.cles hmem
          have hcle : item.1 ∈ reg.runtimes.keys.mergeSort fun a b => decide (a ≤ b) :=
            List.mem_mergeSort.mpr (List.mem_map_of_mem hmem)
          exact absurd (List.find?_eq_none.mp hactif _ hcle) (by simp [hget])

end RuntimeRegistry

/-- One look at an instance: its health, its capabilities, the health monitor, the clock. -/
structure Regard where
  sain : Bool
  capable : Bool
  disponible : Bool
  instant : Rat

/-- What one resolution meets. Nothing selected is the selector raising. -/
structure Vue where
  actif : Option (Nat × Regard)
  secours : Regard
  prefere : Regard
  selection : Option (Nat × Regard)
  compatibles : List (Nat × Regard)

structure RuntimeRouter where
  registry : RuntimeRegistry
  fallbackName : Option String
  preferredName : Option String
  allowFallback : Bool
  maxRetries : Int

namespace RuntimeRouter

variable (r : RuntimeRouter)

def canHandle (m : RuntimeRecoveryManager) (i : Nat) (v : Regard) : RuntimeRecoveryManager × Bool :=
  if !v.sain || !v.capable then (m, false)
  else
    match r.registry.findName i with
    | none => (m, false)
    | some nom => if !v.disponible then (m, false) else m.shouldRetry nom v.instant

/-- The first of these instances whose name is not excluded and that can handle the request. -/
def premier (exclude : List String) : RuntimeRecoveryManager →
    List (Option String × Nat × Regard) → RuntimeRecoveryManager × Option Nat
  | m, [] => (m, none)
  | m, (nom, i, v) :: reste =>
      if nom.any (· ∈ exclude) then premier exclude m reste
      else
        match r.canHandle m i v with
        | (m, true) => (m, some i)
        | (m, false) => premier exclude m reste

/-- An instance that the registry knows under a given name. -/
def inscrit (nom : Option String) (v : Regard) : List (Option String × Nat × Regard) :=
  (nom.bind fun n => (r.registry.runtimes.get? n).map fun i => (some n, i, v)).toList

/-- The active runtime, the fallback and the preferred one. -/
def designes (v : Vue) : List (Option String × Nat × Regard) :=
  (v.actif.map fun a => (r.registry.getActiveName a.1, a)).toList ++
    ((if r.allowFallback then r.inscrit r.fallbackName v.secours else []) ++
      r.inscrit r.preferredName v.prefere)

def parSelection (v : Vue) : List (Option String × Nat × Regard) :=
  match v.selection with
  | none => []
  | some s =>
      (s :: v.compatibles.filter fun c => c.1 ≠ s.1).map fun c => (r.registry.findName c.1, c)

def resolveRuntime (v : Vue) (exclude : List String) (m : RuntimeRecoveryManager) :
    RuntimeRecoveryManager × Option Nat :=
  match r.premier exclude m (r.designes v) with
  | (m, some i) => (m, some i)
  | (m, none) => r.premier exclude m (r.parSelection v)

structure ExecutionTrace where
  runtimeInitial : String
  runtimeFinal : String
  retries : Nat
  fallbackReason : Option String

/-- The `RuntimeExecutionError`s of the loop. -/
inductive Erreur where
  | aucun (retries : Nat)
  | horsRegistre
  | echec

/-- A turn of the loop: the resolution, whether the executor answers, and when it is over. -/
structure Tour where
  vue : Vue
  reussit : Bool
  fin : Rat

/-- The loop, with the turns that are left and the runtimes that were tried. -/
def boucle (tours : Nat → Tour) : Nat → List String → Option String →
    RuntimeRecoveryManager → RuntimeRecoveryManager × List String × Except Erreur ExecutionTrace
  | 0, essais, _, m => (m, essais, .error .echec)
  | n + 1, essais, raison, m =>
      match r.resolveRuntime (tours essais.length).vue essais m with
      | (m, none) => (m, essais, .error (.aucun essais.length))
      | (m, some i) =>
          match r.registry.findName i with
          | none => (m, essais, .error .horsRegistre)
          | some nom =>
              if (tours essais.length).reussit then
                ((m.appeler ⟨nom, .recordSuccess, (tours essais.length).fin⟩).1, essais ++ [nom],
                  .ok ⟨essais.headD nom, nom, essais.length, raison⟩)
              else
                let suite := m.recover nom (tours essais.length).fin
                boucle tours n (essais ++ [nom]) (some suite.2) suite.1

def executeWithRecovery (tours : Nat → Tour) (m : RuntimeRecoveryManager) :
    RuntimeRecoveryManager × List String × Except Erreur ExecutionTrace :=
  r.boucle tours (r.maxRetries.toNat + 1) [] none m

/-- Queries of the breakers, and nothing else. -/
def Interroge : RuntimeRecoveryManager → RuntimeRecoveryManager → Prop :=
  Relation.ReflTransGen fun m m' => ∃ nom now, m' = (m.shouldRetry nom now).1

/-- The last query asks the breaker of the runtime, and it allows the execution. -/
def Permis (m : RuntimeRecoveryManager) (nom : String) (m' : RuntimeRecoveryManager) : Prop :=
  ∃ m₁ now, Interroge m m₁ ∧ m₁.shouldRetry nom now = (m', true)

/-- Attempts, from the turn `k`: each is allowed by the breaker of its runtime, which then records
its outcome. -/
inductive Deroule (tours : Nat → Tour) :
    Nat → RuntimeRecoveryManager → List String → RuntimeRecoveryManager → Prop
  | fin {k m m'} : Interroge m m' → Deroule tours k m [] m'
  | essai {k m m₁ nom essais m'} : Permis m nom m₁ →
      Deroule tours (k + 1) (m₁.appeler ⟨nom,
        if (tours k).reussit then .recordSuccess else .recordFailure, (tours k).fin⟩).1 essais m' →
      Deroule tours k m (nom :: essais) m'

theorem canHandle_spec (m : RuntimeRecoveryManager) (i : Nat) (v : Regard) :
    Interroge m (r.canHandle m i v).1 ∧ ((r.canHandle m i v).2 = true →
      ∃ nom, r.registry.findName i = some nom ∧ Permis m nom (r.canHandle m i v).1) := by
  unfold canHandle
  split
  · exact ⟨.refl, nofun⟩
  · split
    · exact ⟨.refl, nofun⟩
    · next nom hnom =>
        split
        · exact ⟨.refl, nofun⟩
        · exact ⟨.single ⟨nom, v.instant, rfl⟩,
            fun hpermis => ⟨nom, hnom, m, v.instant, .refl, Prod.ext rfl hpermis⟩⟩

/-- What a search among instances answers. -/
def Trouve (exclude : List String) (m : RuntimeRecoveryManager)
    (res : RuntimeRecoveryManager × Option Nat) : Prop :=
  Interroge m res.1 ∧ ∀ i, res.2 = some i → ∃ nom, r.registry.findName i = some nom ∧
    (r.registry.SansAlias → nom ∉ exclude) ∧ Permis m nom res.1

theorem Trouve.trans {r : RuntimeRouter} {exclude : List String} {m m' : RuntimeRecoveryManager}
    {res : RuntimeRecoveryManager × Option Nat} (h : Interroge m m')
    (h' : r.Trouve exclude m' res) : r.Trouve exclude m res := by
  refine ⟨h.trans h'.1, fun i hi => ?_⟩
  obtain ⟨nom, hnom, hneuf, m₁, now, hm₁, hpermis⟩ := h'.2 i hi
  exact ⟨nom, hnom, hneuf, m₁, now, h.trans hm₁, hpermis⟩

theorem premier_spec (exclude : List String) {l : List (Option String × Nat × Regard)}
    (hl : r.registry.SansAlias → ∀ x ∈ l, x.1 = r.registry.findName x.2.1)
    (m : RuntimeRecoveryManager) : r.Trouve exclude m (r.premier exclude m l) := by
  induction l generalizing m with
  | nil => exact ⟨.refl, nofun⟩
  | cons x l ih =>
      obtain ⟨nom, i, v⟩ := x
      have hreste := fun h y hy => hl h y (List.mem_cons_of_mem _ hy)
      unfold premier
      split
      · exact ih hreste m
      · next hlibre =>
          obtain ⟨hinterroge, hpermis⟩ := r.canHandle_spec m i v
          split
          · next heq =>
              rw [heq] at hinterroge hpermis
              refine ⟨hinterroge, fun j hj => ?_⟩
              cases hj
              obtain ⟨nom', hnom', hpermis'⟩ := hpermis rfl
              refine ⟨nom', hnom', fun h hmem => hlibre ?_, hpermis'⟩
              have hnom : nom = some nom' := (hl h _ List.mem_cons_self).trans hnom'
              simp [hnom, hmem]
          · next heq =>
              rw [heq] at hinterroge
              exact .trans hinterroge (ih hreste _)

theorem resolveRuntime_spec (v : Vue) (exclude : List String) (m : RuntimeRecoveryManager) :
    r.Trouve exclude m (r.resolveRuntime v exclude m) := by
  have hinscrit : ∀ nom v, r.registry.SansAlias → ∀ x ∈ r.inscrit nom v,
      x.1 = r.registry.findName x.2.1 := by
    intro nom v h x hx
    obtain ⟨n, -, hn⟩ := Option.bind_eq_some_iff.mp (Option.mem_toList.mp hx)
    obtain ⟨i, hi, rfl⟩ := Option.map_eq_some_iff.mp hn
    exact (RuntimeRegistry.findName_of_get? h hi).symm
  have hdesignes : r.registry.SansAlias → ∀ x ∈ r.designes v,
      x.1 = r.registry.findName x.2.1 := by
    intro h x hx
    rcases List.mem_append.mp hx with hx | hx
    · obtain ⟨a, -, rfl⟩ := Option.map_eq_some_iff.mp (Option.mem_toList.mp hx)
      exact RuntimeRegistry.getActiveName_eq h a.1
    · rcases List.mem_append.mp hx with hx | hx
      · split at hx
        · exact hinscrit _ _ h x hx
        · cases hx
      · exact hinscrit _ _ h x hx
  have hselection : r.registry.SansAlias → ∀ x ∈ r.parSelection v,
      x.1 = r.registry.findName x.2.1 := by
    intro _ x hx
    unfold parSelection at hx
    split at hx
    · cases hx
    · obtain ⟨c, -, rfl⟩ := List.mem_map.mp hx
      rfl
  have hpremier := r.premier_spec exclude hdesignes m
  unfold resolveRuntime
  split
  · next heq => rwa [heq] at hpremier
  · next heq =>
      rw [heq] at hpremier
      exact .trans hpremier.1 (r.premier_spec exclude hselection _)

/-- What `n` turns of the loop promise, from the runtimes already tried. An answer is the one of
the last attempt, after attempts that failed. -/
structure Suite (tours : Nat → Tour) (n : Nat) (essais : List String) (m : RuntimeRecoveryManager)
    (res : RuntimeRecoveryManager × List String × Except Erreur ExecutionTrace) : Prop where
  borne : res.2.1.length ≤ essais.length + n
  deroule : ∃ nouveaux, res.2.1 = essais ++ nouveaux ∧
    Deroule tours essais.length m nouveaux res.1
  distincts : r.registry.SansAlias → essais.Nodup → res.2.1.Nodup
  reponse : ∀ t, res.2.2 = .ok t → ∃ avant, res.2.1 = avant ++ [t.runtimeFinal] ∧
    t.runtimeInitial = avant.headD t.runtimeFinal ∧ t.retries = avant.length ∧
      (tours avant.length).reussit = true ∧
        ∀ k, essais.length ≤ k → k < avant.length → (tours k).reussit = false
  erreur : ∀ e, res.2.2 = .error e →
    (∀ k, essais.length ≤ k → k < res.2.1.length → (tours k).reussit = false) ∧
      (e = .echec → res.2.1.length = essais.length + n)

theorem suite_arret {tours : Nat → Tour} {n : Nat} {essais : List String}
    {m m' : RuntimeRecoveryManager} {e : Erreur} (he : e = .echec → n = 0) (hm : Interroge m m') :
    r.Suite tours n essais m (m', essais, .error e) where
  borne := Nat.le_add_right _ _
  deroule := ⟨[], (List.append_nil _).symm, .fin hm⟩
  distincts _ h := h
  reponse := nofun
  erreur e' h := by
    cases h
    exact ⟨fun k hk hlt => absurd hlt (Nat.not_lt.mpr hk), fun h => by rw [he h]; rfl⟩

theorem suite_boucle (tours : Nat → Tour) (n : Nat) (essais : List String)
    (raison : Option String) (m : RuntimeRecoveryManager) :
    r.Suite tours n essais m (r.boucle tours n essais raison m) := by
  induction n generalizing essais raison m with
  | zero => exact r.suite_arret (fun _ => rfl) .refl
  | succ n ih =>
      obtain ⟨hinterroge, htrouve⟩ := r.resolveRuntime_spec (tours essais.length).vue essais m
      unfold boucle
      split
      · next heq =>
          rw [heq] at hinterroge
          exact r.suite_arret nofun hinterroge
      · next m' i heq =>
          rw [heq] at htrouve
          obtain ⟨nom, hnom, hneuf, hpermis⟩ := htrouve i rfl
          have hnodup (h : r.registry.SansAlias) (hessais : essais.Nodup) :
              (essais ++ [nom]).Nodup :=
            List.nodup_append'.mpr ⟨hessais, List.nodup_singleton nom,
              List.disjoint_singleton.mpr (hneuf h)⟩
          simp only [hnom]
          split
          · next hreussit =>
              refine ⟨?_, ⟨[nom], rfl, .essai hpermis (.fin ?_)⟩, hnodup, ?_, nofun⟩
              · rw [List.length_append, List.length_singleton]
                omega
              · rw [if_pos hreussit]
                exact .refl
              · intro t ht
                cases ht
                exact ⟨essais, rfl, rfl, rfl, hreussit,
                  fun k hk hlt => absurd hlt (Nat.not_lt.mpr hk)⟩
          · next hechec =>
              obtain ⟨hborne, ⟨nouveaux, hessais, hderoule⟩, hdistincts, hreponse, herreur⟩ :=
                ih (essais ++ [nom]) (some (m'.recover nom (tours essais.length).fin).2)
                  (m'.recover nom (tours essais.length).fin).1
              rw [List.length_append, List.length_singleton] at hborne hderoule herreur
              have hdebut {j : Nat} (hj : ∀ k, essais.length + 1 ≤ k → k < j →
                  (tours k).reussit = false) (k : Nat) (hk : essais.length ≤ k) (hlt : k < j) :
                  (tours k).reussit = false := by
                rcases Nat.eq_or_lt_of_le hk with rfl | hk
                · simpa using hechec
                · exact hj k hk hlt
              refine ⟨by omega, ⟨nom :: nouveaux, ?_, .essai hpermis ?_⟩,
                fun h hn => hdistincts h (hnodup h hn), ?_, ?_⟩
              · rw [hessais, List.append_assoc, List.singleton_append]
              · rw [if_neg hechec]
                exact hderoule
              · intro t ht
                obtain ⟨avant, h₁, h₂, h₃, h₄, h₅⟩ := hreponse t ht
                rw [List.length_append, List.length_singleton] at h₅
                exact ⟨avant, h₁, h₂, h₃, h₄, hdebut h₅⟩
              · intro e he
                obtain ⟨h₁, h₂⟩ := herreur e he
                exact ⟨hdebut h₁, fun h => by rw [h₂ h]; omega⟩

/-- An execution keeps all of it, from any breakers and with any answers. -/
theorem executeWithRecovery_suite (tours : Nat → Tour) (m : RuntimeRecoveryManager) :
    r.Suite tours (r.maxRetries.toNat + 1) [] m (r.executeWithRecovery tours m) :=
  r.suite_boucle tours (r.maxRetries.toNat + 1) [] none m

end RuntimeRouter

end Hermes.Ral
