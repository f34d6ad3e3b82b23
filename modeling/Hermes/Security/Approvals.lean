import Hermes.Lib.Table
import Hermes.Security.Empreinte
import Mathlib.Data.Int.ConditionallyCompleteOrder
import Mathlib.Order.ConditionallyCompleteLattice.Basic

/-! # The queue of human approvals

`record_pending` queues a refused action, `decide` records a human answer, `consume_approval`
spends a live consent.
-/

namespace Hermes

open Lib Empreinte

namespace Approvals

abbrev Date := Int

/-- The last date the source can represent: the end of the year 9999. -/
def DATE_MAX : Date := 315537897599999999

def MINUTE : Int := 60000000

structure Horloge where
  lire : Nat → Date
  croissante : Monotone lire

def Horloge.figee (d : Date) : Horloge := ⟨fun _ => d, fun _ _ _ => le_refl d⟩

def DEFAULT_TTL_MINUTES : Int := 15

def PORTEE_ACTION : String := "action"

def PORTEE_ARBORESCENCE : String := "arborescence"

def TTL_PORTEE_MINUTES : Int := 5

def MAX_USAGES_PORTEE : Int := 50

inductive ApprovalStatus where
  | pending
  | approved
  | refused
  | used
  deriving DecidableEq

structure PendingApproval where
  id : String
  fingerprint : String
  actionType : String
  description : String
  targetPath : Option String
  requestingAgent : String
  reason : String
  status : ApprovalStatus
  taskId : Option String
  projectId : Option String
  createdAt : Date
  decidedAt : Option Date := none
  expiresAt : Option Date := none
  portee : Option String := none
  porteeRacine : Option String := none
  usagesRestants : Option Int := none
  discriminants : Option String := none
  deriving DecidableEq

/-- The table `pending_approvals`. -/
abbrev File := Table PendingApproval.id

inductive Erreur where
  | valueError (message : String)
  | overflowError
  | multipleResultsFound
  | integrityError
  deriving DecidableEq

inductive Reponse where
  | entree (e : Option PendingApproval)
  | erreur (e : Erreur)
  deriving DecidableEq

structure Action where
  actionType : String
  targetPath : Option String := none
  description : String := ""
  discriminants : Option Discriminants := none

def fingerprintFor (hacher : String → String) (p : Plateforme) (a : Action) : String :=
  empreinte hacher p a.actionType a.targetPath a.discriminants

structure Demande where
  action : Action
  reason : String
  requestingAgent : String := "unknown"
  taskId : Option String := none
  projectId : Option String := none

def recordPending (hacher : String → String) (p : Plateforme) (horloge : Horloge)
    (uuid : String) (t : File) (d : Demande) : File × Reponse :=
  let fingerprint := fingerprintFor hacher p d.action
  let existing := t.lignes.filter fun e => e.fingerprint = fingerprint ∧ e.status = .pending
  match existing with
  | _ :: _ :: _ => (t, .erreur .multipleResultsFound)
  | [e] => (t, .entree (some e))
  | [] =>
      let texte := canoniserDiscriminants d.action.discriminants
      let entry : PendingApproval :=
        { id := uuid
          fingerprint := fingerprint
          actionType := d.action.actionType
          description := d.action.description
          targetPath := d.action.targetPath
          requestingAgent := d.requestingAgent
          reason := d.reason
          status := .pending
          taskId := d.taskId
          projectId := d.projectId
          createdAt := horloge.lire 0
          portee := some PORTEE_ACTION
          discriminants := if texte = "" then none else some texte }
      match t.inserer entry with
      | none => (t, .erreur .integrityError)
      | some t' => (t', .entree (some entry))

structure Decision where
  approved : Bool
  ttlMinutes : Option Int := none
  portee : String := PORTEE_ACTION
  porteeRacine : Option String := none
  usages : Option Int := none
  deriving DecidableEq

def Decision.budget (d : Decision) : Int :=
  if d.portee = PORTEE_ARBORESCENCE then
    min (d.usages.getD MAX_USAGES_PORTEE) MAX_USAGES_PORTEE
  else 1

/-- The scope and the budget, with the delay that goes with them. -/
def porter (p : Plateforme) (d : Decision) (e : PendingApproval) :
    Except Erreur (PendingApproval × Int) :=
  if d.approved ∧ d.portee = PORTEE_ARBORESCENCE then
    if d.porteeRacine.getD "" = "" then
      .error (.valueError ("une portee d'arborescence exige une racine — sans elle " ++
        "elle couvrirait tout le disque"))
    else
      let budget := d.usages.getD MAX_USAGES_PORTEE
      if budget < 1 then .error (.valueError "une portee sans usage n'autorise rien")
      else
        .ok ({ e with
          portee := some PORTEE_ARBORESCENCE
          porteeRacine := some (canoniserChemin p d.porteeRacine)
          usagesRestants := some (min budget MAX_USAGES_PORTEE) }, TTL_PORTEE_MINUTES)
  else
    .ok ({ e with portee := some PORTEE_ACTION, usagesRestants := some 1 }, DEFAULT_TTL_MINUTES)

def trancher (p : Plateforme) (horloge : Horloge) (d : Decision) (e : PendingApproval) :
    Except Erreur PendingApproval :=
  match porter p d e with
  | .error err => .error err
  | .ok (e', defautTtl) =>
      let delai := d.ttlMinutes.getD defautTtl
      let expire := horloge.lire 1 + delai * MINUTE
      if d.approved then
        if 0 ≤ expire ∧ expire ≤ DATE_MAX then
          .ok { e' with
            status := .approved
            decidedAt := some (horloge.lire 0)
            expiresAt := some expire }
        else .error .overflowError
      else
        .ok { e' with
          status := .refused
          decidedAt := some (horloge.lire 0)
          expiresAt := none }

def decide (p : Plateforme) (horloge : Horloge) (t : File) (approvalId : String)
    (d : Decision) : File × Reponse :=
  match t.lire approvalId with
  | none => (t, .entree none)
  | some e =>
      if e.status ≠ .pending then (t, .entree (some e))
      else
        match trancher p horloge d e with
        | .error err => (t, .erreur err)
        | .ok e' => (t.remplacer e', .entree (some e'))

def vivante (e : PendingApproval) (now : Date) : Bool :=
  (match e.expiresAt with
    | none => true
    | some expiresAt => ¬ expiresAt < now) &&
  (match e.usagesRestants with
    | none => true
    | some usages => 0 < usages)

def depenser (e : PendingApproval) : PendingApproval :=
  let usages := e.usagesRestants.map fun n => n - 1
  let epuisee := match usages with
    | none => true
    | some n => n ≤ 0
  { e with usagesRestants := usages, status := if epuisee then .used else e.status }

/-- `decided_at` descending, the missing dates last. -/
def plusRecente (a b : PendingApproval) : Bool :=
  match a.decidedAt, b.decidedAt with
  | _, none => true
  | none, some _ => false
  | some x, some y => y ≤ x

def parDecision (entrees : List PendingApproval) : List PendingApproval :=
  entrees.mergeSort plusRecente

def couverte (p : Plateforme) (e : PendingApproval) (targetPath : String) : Bool :=
  match e.porteeRacine with
  | none => false
  | some racine => racine ≠ "" && couvre p racine targetPath

/-- The live scope that covers the action, if there is one. -/
def trouverUnePortee (p : Plateforme) (horloge : Horloge) (t : File) (actionType : String)
    (targetPath : Option String) : Option PendingApproval :=
  let cible := targetPath.getD ""
  if cible = "" then none
  else
    let candidates := parDecision (t.lignes.filter fun e =>
      e.actionType = actionType ∧ e.portee = some PORTEE_ARBORESCENCE ∧ e.status = .approved)
    (candidates.zipIdx.find? fun (e, n) =>
      vivante e (horloge.lire (n + 1)) && couverte p e cible).map Prod.fst

/-- The entry that a call of `consume_approval` reads and is about to spend. -/
def trouver (hacher : String → String) (p : Plateforme) (horloge : Horloge) (t : File)
    (a : Action) : Option PendingApproval :=
  let fingerprint := fingerprintFor hacher p a
  let entry := (parDecision (t.lignes.filter fun e =>
    e.fingerprint = fingerprint ∧ e.status = .approved)).head?
  match entry with
  | some e =>
      if vivante e (horloge.lire 0) then some e
      else trouverUnePortee p horloge t a.actionType a.targetPath
  | none => trouverUnePortee p horloge t a.actionType a.targetPath

def consumeApproval (hacher : String → String) (p : Plateforme) (horloge : Horloge)
    (t : File) (a : Action) : File × Reponse :=
  match trouver hacher p horloge t a with
  | none => (t, .entree none)
  | some e => (t.remplacer (depenser e), .entree (some (depenser e)))

theorem recordPending_cases (hacher : String → String) (p : Plateforme) (horloge : Horloge)
    (uuid : String) (t : File) (d : Demande) :
    (recordPending hacher p horloge uuid t d).1 = t ∨
      ∃ e, e.id = uuid ∧ e.status = .pending ∧ e.actionType = d.action.actionType ∧
        e.fingerprint = fingerprintFor hacher p d.action ∧
        t.inserer e = some (recordPending hacher p horloge uuid t d).1 := by
  unfold recordPending
  dsimp only
  split
  · exact Or.inl rfl
  · exact Or.inl rfl
  · split
    · exact Or.inl rfl
    · next hins => exact Or.inr ⟨_, rfl, rfl, rfl, rfl, hins⟩

theorem trancher_approuve {p : Plateforme} {horloge : Horloge} {d : Decision}
    {e e' : PendingApproval} (h : trancher p horloge d e = .ok e') (happrouve : d.approved = true) :
    e'.id = e.id ∧ e'.status = .approved ∧ e'.fingerprint = e.fingerprint ∧
      e'.actionType = e.actionType ∧ e'.usagesRestants = some d.budget ∧ 1 ≤ d.budget ∧
      e'.expiresAt.isSome ∧
      (e'.portee = some PORTEE_ARBORESCENCE →
        d.portee = PORTEE_ARBORESCENCE ∧
          e'.porteeRacine = some (canoniserChemin p d.porteeRacine)) := by
  unfold trancher at h
  split at h
  · cases h
  · next porte ttl hporte =>
      dsimp only at h
      rw [if_pos happrouve] at h
      split at h
      · cases h
        unfold porter at hporte
        split at hporte
        · next harbo =>
            split at hporte
            · cases hporte
            · dsimp only at hporte
              split at hporte
              · cases hporte
              · next hbudget =>
                  cases hporte
                  have hval : d.budget = min (d.usages.getD MAX_USAGES_PORTEE)
                      MAX_USAGES_PORTEE := if_pos harbo.2
                  have hun : 1 ≤ d.budget := by
                    rw [hval]
                    unfold MAX_USAGES_PORTEE at *
                    omega
                  exact ⟨rfl, rfl, rfl, rfl, by rw [hval], hun, rfl, fun _ => ⟨harbo.2, rfl⟩⟩
        · next hnot =>
            cases hporte
            have hportee : d.portee ≠ PORTEE_ARBORESCENCE := fun heq => hnot ⟨happrouve, heq⟩
            have hval : d.budget = 1 := if_neg hportee
            rw [hval]
            refine ⟨rfl, rfl, rfl, rfl, rfl, le_refl 1, rfl, ?_⟩
            intro heq
            have hne : PORTEE_ACTION ≠ PORTEE_ARBORESCENCE := by decide
            exact absurd (Option.some.inj heq) hne
      · cases h

theorem trancher_refuse {p : Plateforme} {horloge : Horloge} {d : Decision}
    {e e' : PendingApproval} (h : trancher p horloge d e = .ok e') (hrefus : d.approved = false) :
    e'.id = e.id ∧ e'.status = .refused ∧ e'.fingerprint = e.fingerprint ∧
      e'.actionType = e.actionType := by
  unfold trancher at h
  split at h
  · cases h
  · next porte ttl hporte =>
      dsimp only at h
      rw [if_neg (by simp [hrefus])] at h
      cases h
      unfold porter at hporte
      rw [if_neg (by simp [hrefus])] at hporte
      cases hporte
      exact ⟨rfl, rfl, rfl, rfl⟩

theorem decide_cases (p : Plateforme) (horloge : Horloge) (t : File) (approvalId : String)
    (d : Decision) :
    ((decide p horloge t approvalId d).1 = t ∧
        ((t.lire approvalId).map PendingApproval.status ≠ some .pending ∨
          ∃ err, (decide p horloge t approvalId d).2 = .erreur err)) ∨
      ∃ e e', t.lire approvalId = some e ∧ e.status = .pending ∧
        trancher p horloge d e = .ok e' ∧
        decide p horloge t approvalId d = (t.remplacer e', .entree (some e')) := by
  unfold decide
  split
  · next hnone => exact Or.inl ⟨rfl, Or.inl (by simp [hnone])⟩
  · next e he =>
      split
      · next hstatus => exact Or.inl ⟨rfl, Or.inl (by simpa [he] using hstatus)⟩
      · next hstatus =>
          have hpending : e.status = .pending := by simpa using hstatus
          split
          · next err _ => exact Or.inl ⟨rfl, Or.inr ⟨err, rfl⟩⟩
          · next e' hok => exact Or.inr ⟨e, e', he, hpending, hok, rfl⟩

theorem mem_parDecision {e : PendingApproval} {entrees : List PendingApproval} :
    e ∈ parDecision entrees ↔ e ∈ entrees :=
  List.mem_mergeSort

/-- The entry is a scope of the action's type whose root covers the action's path. -/
def CouvreParPortee (p : Plateforme) (e : PendingApproval) (actionType : String)
    (targetPath : Option String) : Prop :=
  e.actionType = actionType ∧ e.portee = some PORTEE_ARBORESCENCE ∧
    ∃ racine cible, e.porteeRacine = some racine ∧ targetPath = some cible ∧
      couvre p racine cible = true

theorem trouverUnePortee_spec {p : Plateforme} {horloge : Horloge} {t : File}
    {actionType : String} {targetPath : Option String} {e : PendingApproval}
    (h : trouverUnePortee p horloge t actionType targetPath = some e) :
    e ∈ t.lignes ∧ e.status = .approved ∧ (∃ n, vivante e (horloge.lire n) = true) ∧
      CouvreParPortee p e actionType targetPath := by
  unfold trouverUnePortee at h
  dsimp only at h
  split at h
  · cases h
  · next hcible =>
      obtain ⟨⟨e', n⟩, hfind, rfl⟩ := Option.map_eq_some_iff.mp h
      have hpred := List.find?_some hfind
      have hmem := List.fst_mem_of_mem_zipIdx (List.mem_of_find?_eq_some hfind)
      rw [mem_parDecision, List.mem_filter] at hmem
      obtain ⟨hligne, hcolonnes⟩ := hmem
      have hcolonnes' := of_decide_eq_true hcolonnes
      obtain ⟨hvivante, hcouverte⟩ := Bool.and_eq_true_iff.mp hpred
      refine ⟨hligne, hcolonnes'.2.2, ⟨_, hvivante⟩, hcolonnes'.1, hcolonnes'.2.1, ?_⟩
      cases htarget : targetPath with
      | none =>
          rw [htarget] at hcible
          exact absurd rfl hcible
      | some cible =>
          rw [htarget] at hcouverte
          unfold couverte at hcouverte
          split at hcouverte
          · cases hcouverte
          · next racine hracine =>
              exact ⟨racine, cible, hracine, rfl, (Bool.and_eq_true_iff.mp hcouverte).2⟩

theorem trouver_spec {hacher : String → String} {p : Plateforme} {horloge : Horloge} {t : File}
    {a : Action} {e : PendingApproval} (h : trouver hacher p horloge t a = some e) :
    e ∈ t.lignes ∧ e.status = .approved ∧ (∃ n, vivante e (horloge.lire n) = true) ∧
      (e.fingerprint = fingerprintFor hacher p a ∨
        CouvreParPortee p e a.actionType a.targetPath) := by
  unfold trouver at h
  dsimp only at h
  split at h
  · next e' hhead =>
      split at h
      · next hvivante =>
          cases h
          have hmem := List.mem_of_mem_head? hhead
          rw [mem_parDecision, List.mem_filter] at hmem
          have hcolonnes := of_decide_eq_true hmem.2
          exact ⟨hmem.1, hcolonnes.2, ⟨0, hvivante⟩, Or.inl hcolonnes.1⟩
      · obtain ⟨hligne, hstatus, hvivante, hcouverte⟩ := trouverUnePortee_spec h
        exact ⟨hligne, hstatus, hvivante, Or.inr hcouverte⟩
  · obtain ⟨hligne, hstatus, hvivante, hcouverte⟩ := trouverUnePortee_spec h
    exact ⟨hligne, hstatus, hvivante, Or.inr hcouverte⟩

theorem vivante_iff {e : PendingApproval} {now : Date} :
    vivante e now = true ↔
      (∀ x, e.expiresAt = some x → now ≤ x) ∧ ∀ n, e.usagesRestants = some n → 0 < n := by
  unfold vivante
  cases e.expiresAt <;> cases e.usagesRestants <;> simp

end Approvals

end Hermes
