import Hermes.Lib.Dict
import Hermes.Runs.Registre
import Mathlib.Algebra.Order.Ring.Rat
import Mathlib.Tactic.Linarith

/-! # The broker of the providers

A failure that is the provider's sets it aside for a while, and enough of them in a row open its
circuit for longer. A success closes it.
-/

namespace Hermes.Courtage

open Lib Registre

def valeurDe : Cause → String
  | .modele => "modele"
  | .fournisseur => "fournisseur"
  | .quota => "quota"
  | .ressource => "ressource"
  | .contexte => "contexte"
  | .outil => "outil"
  | .semantique => "semantique"
  | .verification => "verification"
  | .politique => "politique"
  | .securite => "securite"
  | .processus => "processus"
  | .budget => "budget"
  | .inconnue => "inconnue"

/-- In a row, the provider's failures that open the circuit. -/
def SEUIL_DISJONCTEUR : Int := 3

def OUVERTURE_S : Rat := 120

def ECARTS : Dict Cause Rat := [(.quota, 60), (.fournisseur, 10), (.ressource, 10)]

def FRAICHEUR_QUOTA_S : Rat := 60

inductive Etat where
  | disponible
  | ecarte
  | ouvert
  | sansQuota
  deriving DecidableEq

structure EtatDuQuota where
  utilisable : Bool := false
  detail : String := ""
  deriving DecidableEq

structure Fiche where
  echecsConsecutifs : Nat := 0
  ecarteJusquA : Rat := 0
  ouvertJusquA : Rat := 0
  derniereCause : Option Cause := none
  quota : Option EtatDuQuota := none
  quotaMesureA : Rat := 0
  deriving DecidableEq

structure Verdict where
  fournisseur : String
  etat : Etat
  dansS : Rat := 0
  raison : String := ""
  deriving DecidableEq

def Verdict.candidat (v : Verdict) : Bool := v.etat = .disponible

inductive Evenement where
  | ecarte (fournisseur : String) (cause : Cause) (ecartS : Rat) (echecsConsecutifs : Nat)
      (circuitOuvert : Bool)
  | retabli (fournisseur : String)
  deriving DecidableEq

def COURTIER_EVENTS : Evenement → String
  | .ecarte .. => "cloud.fournisseur_ecarte"
  | .retabli _ => "cloud.fournisseur_retabli"

structure Courtier where
  seuil : Int := SEUIL_DISJONCTEUR
  ouvertureS : Rat := OUVERTURE_S
  fiches : Dict String Fiche := []
  deriving DecidableEq

namespace Courtier

variable (c : Courtier)

def fiche (fournisseur : String) : Fiche := c.fiches.getD fournisseur {}

/-- The cause, with how long it sets aside, when it is the provider's. -/
def ecartDe (cause : Option Cause) : Option (Cause × Rat) :=
  cause.bind fun cause => (ECARTS.get? cause).map (cause, ·)

def signalerEchec (fournisseur : String) (cause : Option Cause) (maintenant : Rat) :
    Courtier × Option Evenement :=
  match ecartDe cause with
  | none => (c, none)
  | some (cause, ecart) =>
      let fiche := c.fiche fournisseur
      let echecs := fiche.echecsConsecutifs + 1
      let ouvert : Bool := c.seuil ≤ echecs
      let suivante : Fiche :=
        { fiche with
          echecsConsecutifs := echecs
          derniereCause := some cause
          ecarteJusquA := max fiche.ecarteJusquA (maintenant + ecart)
          ouvertJusquA := if ouvert then maintenant + c.ouvertureS else fiche.ouvertJusquA }
      ({ c with fiches := c.fiches.set fournisseur suivante },
        some (.ecarte fournisseur cause ecart echecs ouvert))

def signalerSucces (fournisseur : String) (maintenant : Rat) : Courtier × Option Evenement :=
  let fiche := c.fiche fournisseur
  if fiche.echecsConsecutifs = 0 ∧ fiche.ouvertJusquA = 0 then
    ({ c with fiches := c.fiches.setDefault fournisseur {} }, none)
  else
    let etaitOuvert : Bool := maintenant < fiche.ouvertJusquA
    let suivante : Fiche :=
      { fiche with
        echecsConsecutifs := 0, ecarteJusquA := 0, ouvertJusquA := 0, derniereCause := none }
    ({ c with fiches := c.fiches.set fournisseur suivante },
      if etaitOuvert then some (.retabli fournisseur) else none)

def noterLeQuota (fournisseur : String) (etat : Option EtatDuQuota) (maintenant : Rat) : Courtier :=
  { c with
    fiches := c.fiches.set fournisseur
      { c.fiche fournisseur with quota := etat, quotaMesureA := maintenant } }

def raisonOuvert (fiche : Fiche) : String :=
  toString fiche.echecsConsecutifs ++ " échecs consécutifs (" ++
    (fiche.derniereCause.map valeurDe).getD "?" ++ ")"

def examiner (fournisseur : String) (maintenant : Rat) : Verdict :=
  match c.fiches.get? fournisseur with
  | none => { fournisseur := fournisseur, etat := .disponible }
  | some fiche =>
      if maintenant < fiche.ouvertJusquA then
        { fournisseur := fournisseur
          etat := .ouvert
          dansS := fiche.ouvertJusquA - maintenant
          raison := raisonOuvert fiche }
      else if maintenant < fiche.ecarteJusquA then
        { fournisseur := fournisseur
          etat := .ecarte
          dansS := fiche.ecarteJusquA - maintenant
          raison := (fiche.derniereCause.map valeurDe).getD "écart" }
      else
        match fiche.quota with
        | none => { fournisseur := fournisseur, etat := .disponible }
        | some quota =>
            if maintenant - fiche.quotaMesureA < FRAICHEUR_QUOTA_S ∧ quota.utilisable = false then
              { fournisseur := fournisseur
                etat := .sansQuota
                raison :=
                  if quota.detail = "" then "quota indisponible ou non mesurable"
                  else quota.detail }
            else { fournisseur := fournisseur, etat := .disponible }

def choisir (candidats : List (String × Rat)) : Option String :=
  (candidats.find? fun nom => (c.examiner nom.1 nom.2).candidat).map Prod.fst

inductive Appel where
  | echec (fournisseur : String) (cause : Option Cause)
  | succes (fournisseur : String)
  | quota (fournisseur : String) (etat : Option EtatDuQuota)
  deriving DecidableEq

def Appel.fournisseur : Appel → String
  | echec f _ | succes f | quota f _ => f

/-- A call, at the instant that the clock reads. -/
def pas (c : Courtier) (a : Appel × Rat) : Courtier :=
  match a.1 with
  | .echec f cause => (c.signalerEchec f cause a.2).1
  | .succes f => (c.signalerSucces f a.2).1
  | .quota f etat => c.noterLeQuota f etat a.2

def apres (histoire : List (Appel × Rat)) : Courtier := histoire.foldl pas c

/-- The clock never goes back, and starts at `debut` at the earliest. -/
def Chronologique : Rat → List (Appel × Rat) → Prop
  | _, [] => True
  | debut, a :: histoire => debut ≤ a.2 ∧ Chronologique a.2 histoire

def dernier (debut : Rat) (histoire : List (Appel × Rat)) : Rat :=
  histoire.foldl (fun _ a => a.2) debut

def compter (f : String) (n : Nat) (a : Appel × Rat) : Nat :=
  match a.1 with
  | .echec f' cause =>
      if f' = f ∧ (ecartDe cause).isSome then n + 1 else n
  | .succes f' => if f' = f then 0 else n
  | .quota _ _ => n

def consecutifs (f : String) (histoire : List (Appel × Rat)) : Nat := histoire.foldl (compter f) 0

/-- The process's broker, at a threshold of one's choice. -/
def nouveau (seuil : Int) : Courtier := { seuil := seuil }

/-- What a reader of the broker relies on after a history. -/
structure CourtierFidele (seuil : Int) (debut : Rat) (histoire : List (Appel × Rat)) : Prop where
  nonImputable : ∀ f cause t, ecartDe cause = none →
    (((nouveau seuil).apres histoire).signalerEchec f cause t).1 = (nouveau seuil).apres histoire
  succes : ∀ f t t', dernier debut histoire ≤ t → t ≤ t' →
    ((((nouveau seuil).apres histoire).signalerSucces f t).1.examiner f t').etat ≠ .ouvert ∧
      ((((nouveau seuil).apres histoire).signalerSucces f t).1.examiner f t').etat ≠ .ecarte
  ouvert : ∀ f t, dernier debut histoire ≤ t →
    (((nouveau seuil).apres histoire).examiner f t).etat = .ouvert → seuil ≤ consecutifs f histoire
  delai : ∀ f t suite, dernier debut histoire ≤ t →
    ((((nouveau seuil).apres histoire).examiner f t).etat = .ouvert ∨
      (((nouveau seuil).apres histoire).examiner f t).etat = .ecarte) →
    (∀ a ∈ suite, a.1.fournisseur ≠ f) →
    let dansS := (((nouveau seuil).apres histoire).examiner f t).dansS
    (∀ t', t ≤ t' → t' < t + dansS →
      (((nouveau seuil).apres (histoire ++ suite)).examiner f t').candidat = false) ∧
      (((nouveau seuil).apres (histoire ++ suite)).examiner f (t + dansS)).etat ≠ .ouvert ∧
      (((nouveau seuil).apres (histoire ++ suite)).examiner f (t + dansS)).etat ≠ .ecarte

section Verdicts

variable {c : Courtier} {f f' : String} {t : Rat}

theorem etat_eq_ouvert_iff (ht : 0 ≤ t) :
    (c.examiner f t).etat = .ouvert ↔ t < (c.fiche f).ouvertJusquA := by
  unfold examiner fiche Dict.getD
  cases c.fiches.get? f with
  | none => simpa using ht
  | some fiche =>
      dsimp only [Option.getD_some]
      split
      · next h => simp [h]
      · next h =>
          simp only [h, iff_false]
          split
          · simp
          · split
            · simp
            · split <;> simp

theorem etat_eq_ecarte_iff :
    (c.examiner f t).etat = .ecarte ↔
      (c.fiche f).ouvertJusquA ≤ t ∧ t < (c.fiche f).ecarteJusquA := by
  unfold examiner fiche Dict.getD
  cases c.fiches.get? f with
  | none => simp
  | some fiche =>
      dsimp only [Option.getD_some]
      split
      · next h => simp [h]
      · next h =>
          simp only [not_lt.mp h, true_and]
          split
          · next h' => simp [h']
          · next h' =>
              simp only [h', iff_false]
              split
              · simp
              · split <;> simp

theorem dansS_of_ouvert (h : t < (c.fiche f).ouvertJusquA) (ht : 0 ≤ t) :
    (c.examiner f t).dansS = (c.fiche f).ouvertJusquA - t := by
  unfold examiner fiche Dict.getD at *
  cases hget : c.fiches.get? f with
  | none =>
      rw [hget] at h
      exact absurd h (not_lt.mpr ht)
  | some fiche =>
      rw [hget] at h
      dsimp only [Option.getD_some] at h ⊢
      rw [if_pos h]

theorem dansS_of_ecarte (hferme : (c.fiche f).ouvertJusquA ≤ t)
    (h : t < (c.fiche f).ecarteJusquA) (ht : 0 ≤ t) :
    (c.examiner f t).dansS = (c.fiche f).ecarteJusquA - t := by
  unfold examiner fiche Dict.getD at *
  cases hget : c.fiches.get? f with
  | none =>
      rw [hget] at h
      exact absurd h (not_lt.mpr ht)
  | some fiche =>
      rw [hget] at h hferme
      dsimp only [Option.getD_some] at h hferme ⊢
      rw [if_neg (not_lt.mpr hferme), if_pos h]

theorem candidat_eq_false (h : (c.examiner f t).etat = .ouvert ∨ (c.examiner f t).etat = .ecarte) :
    (c.examiner f t).candidat = false := by
  unfold Verdict.candidat
  rcases h with h | h <;> simp [h]

end Verdicts

section Ecritures

variable {c : Courtier} {f : String}

theorem fiche_set (f' : String) (suivante : Fiche) (f : String) :
    ({ c with fiches := c.fiches.set f' suivante } : Courtier).fiche f =
      if f = f' then suivante else c.fiche f :=
  Dict.getD_set c.fiches f' f suivante {}

theorem signalerEchec_nonImputable {cause : Option Cause} (h : ecartDe cause = none)
    (f : String) (t : Rat) : c.signalerEchec f cause t = (c, none) := by
  unfold signalerEchec
  rw [h]

theorem fiche_signalerEchec {cause : Option Cause} {cause' : Cause} {ecart : Rat}
    (h : ecartDe cause = some (cause', ecart)) (f' : String) (t : Rat) (f : String) :
    (c.signalerEchec f' cause t).1.fiche f =
      if f = f' then
        { c.fiche f' with
          echecsConsecutifs := (c.fiche f').echecsConsecutifs + 1
          derniereCause := some cause'
          ecarteJusquA := max (c.fiche f').ecarteJusquA (t + ecart)
          ouvertJusquA :=
            if c.seuil ≤ ((c.fiche f').echecsConsecutifs + 1 : Nat) then t + c.ouvertureS
            else (c.fiche f').ouvertJusquA }
      else c.fiche f := by
  unfold signalerEchec
  rw [h]
  dsimp only
  rw [fiche_set]
  simp only [decide_eq_true_eq]

theorem fiche_signalerSucces (f' : String) (t : Rat) (f : String) :
    (c.signalerSucces f' t).1.fiche f =
      if f = f' ∧ ¬((c.fiche f').echecsConsecutifs = 0 ∧ (c.fiche f').ouvertJusquA = 0) then
        { c.fiche f' with
          echecsConsecutifs := 0, ecarteJusquA := 0, ouvertJusquA := 0, derniereCause := none }
      else c.fiche f := by
  unfold signalerSucces
  dsimp only
  split
  · next hferme =>
      rw [if_neg (fun h => h.2 hferme)]
      exact Dict.getD_setDefault c.fiches f' f {}
  · next houvert =>
      rw [fiche_set]
      simp only [houvert, not_false_eq_true, and_true]

theorem reglages_pas (a : Appel × Rat) :
    (c.pas a).seuil = c.seuil ∧ (c.pas a).ouvertureS = c.ouvertureS := by
  unfold pas
  split
  · unfold signalerEchec
    split <;> exact ⟨rfl, rfl⟩
  · unfold signalerSucces
    dsimp only
    split <;> exact ⟨rfl, rfl⟩
  · exact ⟨rfl, rfl⟩

theorem fiche_pas_of_ne {a : Appel × Rat} (h : a.1.fournisseur ≠ f) :
    (c.pas a).fiche f = c.fiche f := by
  have hne : ¬ f = a.1.fournisseur := fun heq => h heq.symm
  obtain ⟨appel, t⟩ := a
  unfold pas
  cases appel with
  | echec f' cause =>
      cases hecart : ecartDe cause with
      | none =>
          dsimp only
          rw [signalerEchec_nonImputable hecart]
      | some paire =>
          dsimp only
          rw [fiche_signalerEchec hecart]
          exact if_neg hne
  | succes f' =>
      dsimp only
      rw [fiche_signalerSucces, if_neg (fun h => hne h.1)]
  | quota f' etat =>
      dsimp only [noterLeQuota]
      rw [fiche_set]
      exact if_neg hne

theorem fiche_apres_of_ne {suite : List (Appel × Rat)}
    (h : ∀ a ∈ suite, a.1.fournisseur ≠ f) : (c.apres suite).fiche f = c.fiche f := by
  induction suite generalizing c with
  | nil => rfl
  | cons a suite ih =>
      rw [apres, List.foldl_cons]
      exact (ih fun b hb => h b (List.mem_cons_of_mem _ hb)).trans
        (fiche_pas_of_ne (h a List.mem_cons_self))

end Ecritures

/-- The record of a provider after `n` of its own failures in a row, at an instant. -/
structure Tenue (seuil : Int) (n : Nat) (instant : Rat) (fiche : Fiche) : Prop where
  compte : fiche.echecsConsecutifs = n
  repos : n = 0 → fiche.ecarteJusquA = 0
  proche : fiche.ecarteJusquA ≤ instant + 60
  circuit : fiche.ouvertJusquA = 0 ∨
    (seuil ≤ n ∧ fiche.ecarteJusquA ≤ fiche.ouvertJusquA)

section Invariant

variable {c : Courtier} {seuil : Int} {n : Nat} {instant t : Rat} {f : String}

theorem ecartDe_le {cause : Option Cause} {cause' : Cause} {ecart : Rat}
    (h : ecartDe cause = some (cause', ecart)) : ecart ≤ 60 := by
  obtain ⟨cause₀, -, hmap⟩ := Option.bind_eq_some_iff.mp h
  obtain ⟨ecart', hget, heq⟩ := Option.map_eq_some_iff.mp hmap
  cases heq
  have hmem := Dict.mem_of_get? hget
  simp only [ECARTS, List.mem_cons, Prod.mk.injEq, List.not_mem_nil, or_false] at hmem
  rcases hmem with ⟨-, rfl⟩ | ⟨-, rfl⟩ | ⟨-, rfl⟩ <;> norm_num

theorem Tenue.echec {fiche : Fiche} (h : Tenue seuil n instant fiche) (cause' : Cause)
    (hinstant : instant ≤ t) {ecart : Rat} (hecart : ecart ≤ 60) :
    Tenue seuil (n + 1) t
      { fiche with
        echecsConsecutifs := fiche.echecsConsecutifs + 1
        derniereCause := some cause'
        ecarteJusquA := max fiche.ecarteJusquA (t + ecart)
        ouvertJusquA :=
          if seuil ≤ (fiche.echecsConsecutifs + 1 : Nat) then t + OUVERTURE_S
          else fiche.ouvertJusquA } := by
  have hproche : max fiche.ecarteJusquA (t + ecart) ≤ t + 60 :=
    max_le (h.proche.trans (by linarith)) (by linarith)
  refine ⟨by simp [h.compte], fun hn => absurd hn (by omega), hproche, ?_⟩
  dsimp only
  rw [h.compte]
  split
  · next hseuil =>
      refine .inr ⟨hseuil, hproche.trans ?_⟩
      unfold OUVERTURE_S
      linarith
  · next hseuil =>
      rcases h.circuit with hferme | ⟨houvert, -⟩
      · exact .inl hferme
      · push_cast at hseuil
        omega

theorem Tenue.plusTard {fiche : Fiche} (h : Tenue seuil n instant fiche) (hinstant : instant ≤ t) :
    Tenue seuil n t fiche :=
  ⟨h.compte, h.repos, h.proche.trans (by linarith), h.circuit⟩

theorem tenue_pas (h : Tenue c.seuil n instant (c.fiche f)) (houverture : c.ouvertureS = OUVERTURE_S)
    {a : Appel × Rat} (hinstant : instant ≤ a.2) (ha : 0 ≤ a.2) :
    Tenue c.seuil (compter f n a) a.2 ((c.pas a).fiche f) := by
  obtain ⟨appel, t⟩ := a
  cases appel with
  | echec f' cause =>
      cases hecart : ecartDe cause with
      | none =>
          simp only [pas, signalerEchec_nonImputable hecart, compter, hecart]
          simpa using h.plusTard hinstant
      | some paire =>
          simp only [pas, fiche_signalerEchec hecart, compter, hecart, houverture]
          by_cases hf : f = f'
          · subst hf
            simpa using h.echec paire.1 hinstant (ecartDe_le hecart)
          · rw [if_neg hf, if_neg (fun heq => hf heq.1.symm)]
            exact h.plusTard hinstant
  | succes f' =>
      simp only [pas, fiche_signalerSucces, compter]
      by_cases hf : f = f'
      · subst hf
        rw [if_pos rfl]
        split
        · exact ⟨rfl, fun _ => rfl, by simpa using by linarith, .inl rfl⟩
        · next hferme =>
            have hzero : n = 0 := by
              rw [← h.compte]
              tauto
            subst hzero
            exact h.plusTard hinstant
      · rw [if_neg (fun heq => hf heq.symm), if_neg (fun heq => hf heq.1)]
        exact h.plusTard hinstant
  | quota f' etat =>
      simp only [pas, noterLeQuota, fiche_set, compter]
      split
      · next hf =>
          subst hf
          exact ⟨h.compte, h.repos, (h.plusTard hinstant).proche, h.circuit⟩
      · exact h.plusTard hinstant

theorem dernier_nonneg {debut : Rat} {histoire : List (Appel × Rat)} (hdebut : 0 ≤ debut)
    (h : Chronologique debut histoire) : 0 ≤ dernier debut histoire := by
  induction histoire generalizing debut with
  | nil => exact hdebut
  | cons a histoire ih => exact ih (hdebut.trans h.1) h.2

theorem tenue_apres {histoire : List (Appel × Rat)}
    (h : Tenue c.seuil n instant (c.fiche f)) (houverture : c.ouvertureS = OUVERTURE_S)
    (hinstant : 0 ≤ instant) (hchrono : Chronologique instant histoire) :
    Tenue c.seuil (histoire.foldl (compter f) n) (dernier instant histoire)
      ((c.apres histoire).fiche f) := by
  induction histoire generalizing c n instant with
  | nil => exact h
  | cons a histoire ih =>
      obtain ⟨hle, hsuite⟩ := hchrono
      obtain ⟨hseuil, houverture'⟩ := reglages_pas (c := c) a
      have hpas := tenue_pas h houverture hle (hinstant.trans hle)
      rw [← hseuil] at hpas ⊢
      exact ih hpas (houverture'.trans houverture) (hinstant.trans hle) hsuite

theorem tenue_nouveau (seuil : Int) {debut : Rat} (hdebut : 0 ≤ debut) :
    Tenue seuil 0 debut ((nouveau seuil).fiche f) :=
  ⟨rfl, fun _ => rfl, by simpa [nouveau, fiche] using by linarith, .inl rfl⟩

theorem Tenue.delai (h : Tenue seuil n instant (c.fiche f)) (ht : 0 ≤ t)
    (hetat : (c.examiner f t).etat = .ouvert ∨ (c.examiner f t).etat = .ecarte)
    {suivant : Courtier} (hsuivant : suivant.fiche f = c.fiche f) :
    (∀ t', t ≤ t' → t' < t + (c.examiner f t).dansS → (suivant.examiner f t').candidat = false) ∧
      (suivant.examiner f (t + (c.examiner f t).dansS)).etat ≠ .ouvert ∧
      (suivant.examiner f (t + (c.examiner f t).dansS)).etat ≠ .ecarte := by
  rcases hetat with hetat | hetat
  · have houvert := (etat_eq_ouvert_iff ht).mp hetat
    have hfin : t + (c.examiner f t).dansS = (c.fiche f).ouvertJusquA := by
      rw [dansS_of_ouvert houvert ht]
      linarith
    have hlong : (c.fiche f).ecarteJusquA ≤ (c.fiche f).ouvertJusquA :=
      (h.circuit.resolve_left (by linarith)).2
    rw [hfin]
    refine ⟨fun t' hle hlt => candidat_eq_false (.inl ?_), fun hetat' => ?_, fun hetat' => ?_⟩
    · exact (etat_eq_ouvert_iff (ht.trans hle)).mpr (by rwa [hsuivant])
    · have hlt := (etat_eq_ouvert_iff (ht.trans houvert.le)).mp hetat'
      rw [hsuivant] at hlt
      exact lt_irrefl _ hlt
    · have hlt := (etat_eq_ecarte_iff.mp hetat').2
      rw [hsuivant] at hlt
      exact not_lt.mpr hlong hlt
  · obtain ⟨hferme, hecarte⟩ := etat_eq_ecarte_iff.mp hetat
    have hfin : t + (c.examiner f t).dansS = (c.fiche f).ecarteJusquA := by
      rw [dansS_of_ecarte hferme hecarte ht]
      linarith
    rw [hfin]
    refine ⟨fun t' hle hlt => candidat_eq_false (.inr ?_), fun hetat' => ?_, fun hetat' => ?_⟩
    · rw [etat_eq_ecarte_iff, hsuivant]
      exact ⟨hferme.trans hle, hlt⟩
    · have hlt := (etat_eq_ouvert_iff (ht.trans hecarte.le)).mp hetat'
      rw [hsuivant] at hlt
      exact not_lt.mpr (hferme.trans hecarte.le) hlt
    · have hlt := (etat_eq_ecarte_iff.mp hetat').2
      rw [hsuivant] at hlt
      exact lt_irrefl _ hlt

theorem Tenue.succes (h : Tenue seuil n instant (c.fiche f)) :
    ((c.signalerSucces f t).1.fiche f).ouvertJusquA = 0 ∧
      ((c.signalerSucces f t).1.fiche f).ecarteJusquA = 0 := by
  rw [fiche_signalerSucces]
  split
  · exact ⟨rfl, rfl⟩
  · next hferme =>
      have hzero : (c.fiche f).echecsConsecutifs = 0 ∧ (c.fiche f).ouvertJusquA = 0 := by tauto
      exact ⟨hzero.2, h.repos (h.compte.symm.trans hzero.1)⟩

end Invariant

end Courtier

end Hermes.Courtage
