import Mathlib.Algebra.Order.Ring.Rat
import Mathlib.Data.List.Basic
import Mathlib.Data.List.Induction

/-! # The circuit breaker of a runtime

A circuit opens after consecutive failures, refuses until a delay has elapsed, then lets a probe
through.
-/

namespace Hermes.Ral

inductive CircuitState where
  | closed
  | opened
  | halfOpen
  deriving DecidableEq

/-- The two parameters of a breaker. The delay is in seconds. -/
structure Reglage where
  failureThreshold : Nat
  recoveryTimeout : Rat
  positif : 0 < failureThreshold

def parDefaut : Reglage where
  failureThreshold := 3
  recoveryTimeout := 30
  positif := by decide

structure CircuitBreaker where
  state : CircuitState := .closed
  failureCount : Nat := 0
  openedAt : Option Rat := none
  deriving DecidableEq

namespace CircuitBreaker

/-- The answer and the circuit after it. `now` is the monotonic clock. -/
def isAllowed (c : Reglage) (now : Rat) (b : CircuitBreaker) : CircuitBreaker × Bool :=
  match b.state with
  | .closed => (b, true)
  | .halfOpen => (b, true)
  | .opened =>
      match b.openedAt with
      | none => (b, false)
      | some debut =>
          if c.recoveryTimeout ≤ now - debut then ({ b with state := .halfOpen }, true)
          else (b, false)

def recordSuccess (_ : CircuitBreaker) : CircuitBreaker :=
  { state := .closed, failureCount := 0, openedAt := none }

def recordFailure (c : Reglage) (now : Rat) (b : CircuitBreaker) : CircuitBreaker :=
  let b := { b with failureCount := b.failureCount + 1 }
  if b.state = .halfOpen then { b with state := .opened, openedAt := some now }
  else if c.failureThreshold ≤ b.failureCount then
    { b with state := .opened, openedAt := some now }
  else b

def reset (_ : CircuitBreaker) : CircuitBreaker :=
  { state := .closed, failureCount := 0, openedAt := none }

end CircuitBreaker

inductive Methode where
  | isAllowed
  | recordSuccess
  | recordFailure
  | reset
  deriving DecidableEq

structure Appel where
  methode : Methode
  instant : Rat
  deriving DecidableEq

/-- What a call leaves, and the answer of a query. -/
structure Pas where
  apres : CircuitBreaker
  permis : Bool
  deriving DecidableEq

def faire (c : Reglage) (b : CircuitBreaker) (a : Appel) : Pas :=
  match a.methode with
  | .isAllowed => { apres := (b.isAllowed c a.instant).1, permis := (b.isAllowed c a.instant).2 }
  | .recordSuccess => { apres := b.recordSuccess, permis := false }
  | .recordFailure => { apres := b.recordFailure c a.instant, permis := false }
  | .reset => { apres := b.reset, permis := false }

/-- The steps of a history of calls, from the circuit `b`. -/
def trace (c : Reglage) (b : CircuitBreaker) : List Appel → List Pas
  | [] => []
  | a :: appels => faire c b a :: trace c (faire c b a).apres appels

def apresTout (c : Reglage) (b : CircuitBreaker) (appels : List Appel) : CircuitBreaker :=
  appels.foldl (fun b a => (faire c b a).apres) b

theorem apresTout_concat (c : Reglage) (b : CircuitBreaker) (appels : List Appel) (a : Appel) :
    apresTout c b (appels ++ [a]) = (faire c (apresTout c b appels) a).apres :=
  List.foldl_concat ..

def nbPermis (c : Reglage) (b : CircuitBreaker) (appels : List Appel) : Nat :=
  (trace c b appels).countP (·.permis)

theorem nbPermis_cons (c : Reglage) (b : CircuitBreaker) (a : Appel) (appels : List Appel) :
    nbPermis c b (a :: appels) =
      nbPermis c (faire c b a).apres appels + if (faire c b a).permis then 1 else 0 :=
  List.countP_cons

/-- The failures recorded since the last success or reset. -/
def echecsConsecutifs (appels : List Appel) : Nat :=
  appels.foldl (fun n a =>
    match a.methode with
    | .isAllowed => n
    | .recordFailure => n + 1
    | .recordSuccess | .reset => 0) 0

def dernierEchec (appels : List Appel) : Option Rat :=
  appels.foldl (fun d a => if a.methode = .recordFailure then some a.instant else d) none

/-- The call is the query that half-opens the circuit. -/
def DemiOuvre (c : Reglage) (b : CircuitBreaker) (a : Appel) : Prop :=
  a.methode = .isAllowed ∧ b.state = .opened ∧ (faire c b a).apres.state = .halfOpen

/-- What a breaker promises of a history, from a new circuit. -/
structure Tenue (c : Reglage) (appels : List Appel) : Prop where
  ouverture : ∀ passe suite, appels = passe ++ suite →
    (apresTout c {} passe).state = .opened → c.failureThreshold ≤ echecsConsecutifs passe
  /-- An open circuit lets an execution through only once the delay has elapsed. -/
  delai : ∀ passe a suite, appels = passe ++ a :: suite →
    (apresTout c {} passe).state = .opened → (faire c (apresTout c {} passe) a).permis = true →
      ∃ debut, dernierEchec passe = some debut ∧ c.recoveryTimeout ≤ a.instant - debut
  /-- From the query that half-opens the circuit to the next outcome, one execution. -/
  sonde : ∀ passe a fenetre suite, appels = passe ++ a :: (fenetre ++ suite) →
    DemiOuvre c (apresTout c {} passe) a → (∀ q ∈ fenetre, q.methode = .isAllowed) →
      nbPermis c (apresTout c {} passe) (a :: fenetre) = 1

/-- No query reaches a half-open circuit. -/
def SondeSeule (c : Reglage) (appels : List Appel) : Prop :=
  ∀ passe a suite, appels = passe ++ a :: suite → a.methode = .isAllowed →
    (apresTout c {} passe).state ≠ .halfOpen

/-- The circuit agrees with its history: a circuit that is not closed has counted enough
failures, and an open one remembers the last. -/
structure Inv (c : Reglage) (passe : List Appel) (b : CircuitBreaker) : Prop where
  compte : b.failureCount = echecsConsecutifs passe
  seuil : b.state ≠ .closed → c.failureThreshold ≤ b.failureCount
  date : b.state = .opened → b.openedAt = dernierEchec passe

theorem echecsConsecutifs_concat (passe : List Appel) (a : Appel) :
    echecsConsecutifs (passe ++ [a]) =
      match a.methode with
      | .isAllowed => echecsConsecutifs passe
      | .recordFailure => echecsConsecutifs passe + 1
      | .recordSuccess | .reset => 0 :=
  List.foldl_concat ..

theorem dernierEchec_concat (passe : List Appel) (a : Appel) :
    dernierEchec (passe ++ [a]) =
      if a.methode = .recordFailure then some a.instant else dernierEchec passe :=
  List.foldl_concat ..

theorem isAllowed_cases (c : Reglage) (now : Rat) (b : CircuitBreaker) :
    (b.isAllowed c now = (b, decide (b.state ≠ .opened))) ∨
      (b.state = .opened ∧ b.isAllowed c now = ({ b with state := .halfOpen }, true) ∧
        ∃ debut, b.openedAt = some debut ∧ c.recoveryTimeout ≤ now - debut) := by
  unfold CircuitBreaker.isAllowed
  cases hstate : b.state with
  | closed => exact Or.inl rfl
  | halfOpen => exact Or.inl rfl
  | opened =>
      cases hdate : b.openedAt with
      | none => exact Or.inl rfl
      | some debut =>
          dsimp only
          split
          · next h => exact Or.inr ⟨rfl, rfl, debut, rfl, h⟩
          · exact Or.inl rfl

theorem inv_faire {c : Reglage} {passe : List Appel} {b : CircuitBreaker} (h : Inv c passe b)
    (a : Appel) : Inv c (passe ++ [a]) (faire c b a).apres := by
  obtain ⟨methode, instant⟩ := a
  cases methode with
  | isAllowed =>
      have hcompte : echecsConsecutifs (passe ++ [⟨.isAllowed, instant⟩]) =
          echecsConsecutifs passe := echecsConsecutifs_concat ..
      have hdate : dernierEchec (passe ++ [⟨.isAllowed, instant⟩]) = dernierEchec passe :=
        dernierEchec_concat ..
      show Inv c _ (b.isAllowed c instant).1
      rcases isAllowed_cases c instant b with hsame | ⟨hopen, hhalf, -⟩
      · rw [hsame]
        exact ⟨h.compte.trans hcompte.symm, h.seuil, fun ho => (h.date ho).trans hdate.symm⟩
      · rw [hhalf]
        exact ⟨h.compte.trans hcompte.symm, fun _ => h.seuil (by simp [hopen]), fun ho => by
          cases ho⟩
  | recordSuccess =>
      have hcompte : echecsConsecutifs (passe ++ [⟨.recordSuccess, instant⟩]) = 0 :=
        echecsConsecutifs_concat ..
      exact ⟨hcompte.symm, fun hne => absurd rfl hne, fun ho => by cases ho⟩
  | reset =>
      have hcompte : echecsConsecutifs (passe ++ [⟨.reset, instant⟩]) = 0 :=
        echecsConsecutifs_concat ..
      exact ⟨hcompte.symm, fun hne => absurd rfl hne, fun ho => by cases ho⟩
  | recordFailure =>
      have hcompte : echecsConsecutifs (passe ++ [⟨.recordFailure, instant⟩]) =
          echecsConsecutifs passe + 1 := echecsConsecutifs_concat ..
      have hdate : dernierEchec (passe ++ [⟨.recordFailure, instant⟩]) = some instant :=
        dernierEchec_concat ..
      show Inv c _ (b.recordFailure c instant)
      unfold CircuitBreaker.recordFailure
      dsimp only
      split
      · next hhalf =>
          have hseuil := h.seuil (by simp [hhalf])
          exact ⟨by rw [hcompte, ← h.compte], fun _ => Nat.le_succ_of_le hseuil,
            fun _ => hdate.symm⟩
      · split
        · next hseuil =>
            exact ⟨by rw [hcompte, ← h.compte], fun _ => hseuil, fun _ => hdate.symm⟩
        · next hhalf hlow =>
            refine ⟨by rw [hcompte, ← h.compte], fun hne => ?_, fun ho => ?_⟩
            · exact absurd (Nat.le_succ_of_le (h.seuil hne)) hlow
            · exact absurd (Nat.le_succ_of_le (h.seuil (by simp [show b.state = .opened from ho])))
                hlow

theorem inv_apresTout (c : Reglage) (appels : List Appel) :
    Inv c appels (apresTout c {} appels) := by
  induction appels using List.reverseRecOn with
  | nil => exact ⟨rfl, fun h => absurd rfl h, fun h => by cases h⟩
  | append_singleton appels a ih =>
      rw [apresTout_concat]
      exact inv_faire ih a

section Sonde

variable {c : Reglage} {b : CircuitBreaker}

theorem faire_halfOpen (h : b.state = .halfOpen) {a : Appel} (ha : a.methode = .isAllowed) :
    faire c b a = { apres := b, permis := true } := by
  unfold faire CircuitBreaker.isAllowed
  simp only [ha, h]

theorem nbPermis_halfOpen (h : b.state = .halfOpen) {fenetre : List Appel}
    (hfen : ∀ q ∈ fenetre, q.methode = .isAllowed) : nbPermis c b fenetre = fenetre.length := by
  induction fenetre with
  | nil => rfl
  | cons a fenetre ih =>
      have hrest : ∀ q ∈ fenetre, q.methode = .isAllowed :=
        fun q hq => hfen q (List.mem_cons_of_mem a hq)
      rw [nbPermis_cons, faire_halfOpen h (hfen a List.mem_cons_self), ih hrest]
      rfl

theorem nbPermis_fenetre {a : Appel} (ha : DemiOuvre c b a) {fenetre : List Appel}
    (hfen : ∀ q ∈ fenetre, q.methode = .isAllowed) :
    nbPermis c b (a :: fenetre) = fenetre.length + 1 := by
  obtain ⟨hquery, hopen, hhalf⟩ := ha
  have hpermis : (faire c b a).permis = true := by
    have hfaire : faire c b a =
        { apres := (b.isAllowed c a.instant).1, permis := (b.isAllowed c a.instant).2 } := by
      unfold faire
      simp only [hquery]
    rw [hfaire] at hhalf ⊢
    rcases isAllowed_cases c a.instant b with hsame | ⟨-, hmove, -⟩
    · rw [hsame] at hhalf
      exact absurd (hopen.symm.trans hhalf) (by decide)
    · rw [hmove]
  rw [nbPermis_cons, nbPermis_halfOpen hhalf hfen, hpermis]
  rfl

end Sonde

theorem methode_of_halfOpen {c : Reglage} {b : CircuitBreaker} {a : Appel}
    (h : (faire c b a).apres.state = .halfOpen) : a.methode = .isAllowed := by
  obtain ⟨methode, instant⟩ := a
  cases methode with
  | isAllowed => rfl
  | recordSuccess => cases h
  | reset => cases h
  | recordFailure =>
      have hstate : (b.recordFailure c instant).state = .halfOpen := h
      unfold CircuitBreaker.recordFailure at hstate
      dsimp only at hstate
      split at hstate
      · cases hstate
      · next hne =>
          split at hstate
          · cases hstate
          · exact absurd hstate hne

theorem methode_of_permis {c : Reglage} {b : CircuitBreaker} {a : Appel}
    (h : (faire c b a).permis = true) : a.methode = .isAllowed := by
  obtain ⟨methode, instant⟩ := a
  cases methode with
  | isAllowed => rfl
  | recordSuccess => cases h
  | recordFailure => cases h
  | reset => cases h

theorem demiOuvre_of_faire {c : Reglage} {b : CircuitBreaker} {a : Appel}
    (hbefore : b.state ≠ .halfOpen) (h : (faire c b a).apres.state = .halfOpen) :
    DemiOuvre c b a := by
  have hquery := methode_of_halfOpen h
  refine ⟨hquery, ?_, h⟩
  have hafter : (b.isAllowed c a.instant).1.state = .halfOpen := by
    unfold faire at h
    simpa only [hquery] using h
  rcases isAllowed_cases c a.instant b with hsame | ⟨hopen, -, -⟩
  · rw [hsame] at hafter
    exact absurd hafter hbefore
  · exact hopen

theorem demiOuvre_of_halfOpen {c : Reglage} {passe : List Appel}
    (h : (apresTout c {} passe).state = .halfOpen) :
    ∃ debut a fenetre, passe = debut ++ a :: fenetre ∧ DemiOuvre c (apresTout c {} debut) a ∧
      ∀ q ∈ fenetre, q.methode = .isAllowed := by
  induction passe using List.reverseRecOn with
  | nil => cases h
  | append_singleton passe a ih =>
      rw [apresTout_concat] at h
      by_cases hbefore : (apresTout c {} passe).state = .halfOpen
      · obtain ⟨debut, m, fenetre, hpasse, hm, hfen⟩ := ih hbefore
        refine ⟨debut, m, fenetre ++ [a], by simp [hpasse], hm, fun q hq => ?_⟩
        rcases List.mem_append.mp hq with hq | hq
        · exact hfen q hq
        · rw [List.mem_singleton.mp hq]
          exact methode_of_halfOpen h
      · exact ⟨passe, a, [], rfl, demiOuvre_of_faire hbefore h, by simp⟩

/-- A breaker keeps its promises in a history exactly when no query reaches it half-open. -/
theorem tenue_iff_sondeSeule (c : Reglage) (appels : List Appel) :
    Tenue c appels ↔ SondeSeule c appels := by
  constructor
  · intro h passe a suite happels hquery hhalf
    obtain ⟨debut, m, fenetre, hpasse, hm, hfen⟩ := demiOuvre_of_halfOpen hhalf
    have hfen' : ∀ q ∈ fenetre ++ [a], q.methode = .isAllowed := by
      intro q hq
      rcases List.mem_append.mp hq with hq | hq
      · exact hfen q hq
      · rw [List.mem_singleton.mp hq]
        exact hquery
    have hone := h.sonde debut m (fenetre ++ [a]) suite (by simp [happels, hpasse]) hm hfen'
    rw [nbPermis_fenetre hm hfen', List.length_append] at hone
    simp at hone
  · intro h
    refine ⟨?_, ?_, ?_⟩
    · intro passe suite _ hopen
      have hinv := inv_apresTout c passe
      rw [← hinv.compte]
      exact hinv.seuil (by simp [hopen])
    · intro passe a suite _ hopen hpermis
      have hquery := methode_of_permis hpermis
      have hallowed : ((apresTout c {} passe).isAllowed c a.instant).2 = true := by
        unfold faire at hpermis
        simpa only [hquery] using hpermis
      rcases isAllowed_cases c a.instant (apresTout c {} passe) with hsame | ⟨-, -, debut, hd, ht⟩
      · rw [hsame] at hallowed
        exact absurd hopen (of_decide_eq_true hallowed)
      · exact ⟨debut, ((inv_apresTout c passe).date hopen).symm.trans hd, ht⟩
    · intro passe a fenetre suite happels ha hfen
      cases fenetre with
      | nil => exact nbPermis_fenetre ha hfen
      | cons q fenetre =>
          have hhalf : (apresTout c {} (passe ++ [a])).state = .halfOpen := by
            rw [apresTout_concat]
            exact ha.2.2
          exact absurd hhalf (h (passe ++ [a]) q (fenetre ++ suite) (by simp [happels])
            (hfen q List.mem_cons_self))

/-- Three failures, the delay, then two queries before any outcome: two executions. -/
theorem deuxSondes :
    ¬ Tenue parDefaut
      [⟨.recordFailure, 0⟩, ⟨.recordFailure, 1⟩, ⟨.recordFailure, 2⟩, ⟨.isAllowed, 32⟩,
        ⟨.isAllowed, 33⟩] := by
  intro h
  have hone := h.sonde [⟨.recordFailure, 0⟩, ⟨.recordFailure, 1⟩, ⟨.recordFailure, 2⟩]
    ⟨.isAllowed, 32⟩ [⟨.isAllowed, 33⟩] [] rfl ⟨rfl, by decide +kernel, by decide +kernel⟩
    (by decide)
  revert hone
  decide +kernel

end Hermes.Ral
