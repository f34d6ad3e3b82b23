import Mathlib.Data.List.Induction
import Mathlib.Logic.Relation

/-! # Delegations between agents

A delegation without an addressee lets any agent make the steps of one of the two code paths, and
no agent with a name those of the other.
-/

namespace Hermes.Collaboration

inductive DelegationStatus where
  | requested | accepted | rejected | inProgress | completed | failed
  deriving DecidableEq

structure Delegation where
  fromAgentId : String
  toAgentId : String
  missionId : String
  nodeId : String := ""
  title : String
  description : String
  reason : String
  requiredCapabilities : List String
  status : DelegationStatus := .requested
  resultSummary : String := ""
  acceptedAt : Option Int := none
  completedAt : Option Int := none
  deriving DecidableEq

/-- The table has no entry for REQUESTED. -/
def LEGAL_PREDECESSORS : DelegationStatus → Option (List DelegationStatus)
  | .accepted => some [.requested]
  | .rejected => some [.requested]
  | .inProgress => some [.accepted]
  | .completed => some [.inProgress]
  | .failed => some [.accepted, .inProgress]
  | .requested => none

abbrev Delegations := List Delegation

/-- A call on one delegation: what it writes, or `none` when it refuses. -/
def agir (m : Delegations) (id : Nat) (f : Delegation → Option Delegation) : Delegations × Bool :=
  match m[id]? with
  | none => (m, false)
  | some d =>
      match f d with
      | none => (m, false)
      | some d' => (m.set id d', true)

section Appels

variable (now : Int) (m : Delegations) (id : Nat) (agentId : String)

/-- `_transition`, for a delegation that is known. -/
def passer (nouveau : DelegationStatus) (d : Delegation) : Option Delegation :=
  if d.toAgentId ≠ "" ∧ d.toAgentId ≠ agentId then none
  else if ∃ permis ∈ LEGAL_PREDECESSORS nouveau, d.status ∉ permis then none
  else some { d with
    status := nouveau
    acceptedAt := if nouveau = .accepted ∨ nouveau = .completed then d.acceptedAt.or (some now)
      else d.acceptedAt }

def accept : Delegations × Bool := agir m id (passer now agentId .accepted)

def reject : Delegations × Bool := agir m id (passer now agentId .rejected)

def start : Delegations × Bool := agir m id (passer now agentId .inProgress)

def complete (summary : String) : Delegations × Bool :=
  agir m id fun d =>
    if d.toAgentId ≠ agentId then none
    else if d.status ≠ .inProgress then none
    else some { d with status := .completed, completedAt := some now, resultSummary := summary }

def fail : Delegations × Bool :=
  agir m id fun d =>
    if d.toAgentId ≠ agentId then none
    else if d.status ∉ [DelegationStatus.accepted, .inProgress] then none
    else some { d with status := .failed, completedAt := some now }

def completeDelegation (summary : String) : Delegations × Bool :=
  let (m', demarree) := start now m id agentId
  if demarree then complete now m' id agentId summary else (m', false)

end Appels

/-- The arguments of `delegate`. -/
structure Demande where
  fromAgentId : String
  toAgentId : String
  missionId : String
  nodeId : String
  title : String
  description : String
  reason : String
  requiredCapabilities : List String

def Demande.delegation (d : Demande) : Delegation where
  fromAgentId := d.fromAgentId
  toAgentId := d.toAgentId
  missionId := d.missionId
  nodeId := d.nodeId
  title := d.title
  description := d.description
  reason := d.reason
  requiredCapabilities := d.requiredCapabilities

/-- The arguments of `request_expertise`. -/
structure Expertise where
  fromAgentId : String
  missionId : String
  title : String
  description : String
  requiredCapabilities : List String

def Expertise.delegation (d : Expertise) : Delegation where
  fromAgentId := d.fromAgentId
  toAgentId := ""
  missionId := d.missionId
  title := d.title
  description := d.description
  reason := "Expertise needed: " ++ String.intercalate ", " d.requiredCapabilities
  requiredCapabilities := d.requiredCapabilities

inductive Appel where
  | delegate (d : Demande)
  | requestExpertise (d : Expertise)
  | accept (id : Nat) (agentId : String)
  | reject (id : Nat) (agentId : String)
  | start (id : Nat) (agentId : String)
  | fail (id : Nat) (agentId : String)
  | completeDelegation (id : Nat) (agentId summary : String)

def executer (now : Int) (m : Delegations) : Appel → Delegations × Bool
  | .delegate d => (m ++ [d.delegation], true)
  | .requestExpertise d => (m ++ [d.delegation], true)
  | .accept id agentId => Collaboration.accept now m id agentId
  | .reject id agentId => Collaboration.reject now m id agentId
  | .start id agentId => Collaboration.start now m id agentId
  | .fail id agentId => Collaboration.fail now m id agentId
  | .completeDelegation id agentId summary =>
      Collaboration.completeDelegation now m id agentId summary

abbrev Histoire := List (Int × Appel)

def apres (h : Histoire) : Delegations := h.foldl (fun m e => (executer e.1 m e.2).1) []

def reponse (h : Histoire) (e : Int × Appel) : Bool := (executer e.1 (apres h) e.2).2

inductive Permis : DelegationStatus → DelegationStatus → Prop
  | accepte : Permis .requested .accepted
  | rejete : Permis .requested .rejected
  | commence : Permis .accepted .inProgress
  | abandonne : Permis .accepted .failed
  | acheve : Permis .inProgress .completed
  | echoue : Permis .inProgress .failed

/-- The delegation and the agent of a call that is no creation. -/
def Appel.vise : Appel → Option (Nat × String)
  | delegate _ => none
  | requestExpertise _ => none
  | accept id agentId => some (id, agentId)
  | reject id agentId => some (id, agentId)
  | start id agentId => some (id, agentId)
  | fail id agentId => some (id, agentId)
  | completeDelegation id agentId _ => some (id, agentId)

/-- The agent whose call to accept has been answered by True. -/
def Accepteur (h : Histoire) (id : Nat) (agentId : String) : Prop :=
  ∃ avant now suite, h = avant ++ (now, .accept id agentId) :: suite ∧
    reponse avant (now, .accept id agentId) = true

/-- The agent in charge: the addressee, or the agent that accepted an unmatched request. -/
def EnCharge (h : Histoire) (id : Nat) (d : Delegation) (agentId : String) : Prop :=
  if d.toAgentId = "" then Accepteur h id agentId else agentId = d.toAgentId

structure Loi (h : Histoire) : Prop where
  statuts : ∀ avant e suite, h = avant ++ e :: suite → ∀ (id : Nat) d d',
    (apres avant)[id]? = some d → (apres (avant ++ [e]))[id]? = some d' →
      Relation.ReflTransGen Permis d.status d'.status
  agents : ∀ avant e suite, h = avant ++ e :: suite → ∀ (id : Nat) d d',
    (apres avant)[id]? = some d → (apres (avant ++ [e]))[id]? = some d' → d ≠ d' →
      ∃ agentId, e.2.vise = some (id, agentId) ∧
        (d.status = .requested → d.toAgentId ≠ "" → agentId = d.toAgentId) ∧
        (d.status ≠ .requested → EnCharge avant id d agentId)
  capable : ∀ avant suite, h = avant ++ suite → ∀ (id : Nat) d agentId,
    (apres avant)[id]? = some d → d.status = .accepted ∨ d.status = .inProgress →
      EnCharge avant id d agentId → ∀ now summary,
        reponse avant (now, .completeDelegation id agentId summary) = true ∨
          reponse avant (now, .fail id agentId) = true
  refus : ∀ avant e suite, h = avant ++ e :: suite → reponse avant e = false →
    apres (avant ++ [e]) = apres avant

/-- The status from which a call moves a delegation that has no addressee. -/
def Appel.part : Appel → Option (Nat × String × DelegationStatus)
  | accept id agentId => some (id, agentId, .requested)
  | start id agentId => some (id, agentId, .accepted)
  | completeDelegation id agentId _ => some (id, agentId, .accepted)
  | _ => none

/-- No agent with a name accepts, starts or completes a delegation that has no addressee. -/
def Adressee (h : Histoire) : Prop :=
  ∀ avant e suite, h = avant ++ e :: suite → ∀ (id : Nat) agentId status d,
    e.2.part = some (id, agentId, status) → (apres avant)[id]? = some d → d.toAgentId = "" →
      d.status = status → agentId = ""

/-- What a call that changes a delegation has done to it. -/
inductive Mouvement (id : Nat) (d d' : Delegation) : Appel → Prop
  | accepte (g : String) (hg : d.toAgentId = "" ∨ d.toAgentId = g) (hd : d.status = .requested)
      (hd' : d'.status = .accepted) : Mouvement id d d' (.accept id g)
  | rejete (g : String) (hg : d.toAgentId = "" ∨ d.toAgentId = g) (hd : d.status = .requested)
      (hd' : d'.status = .rejected) : Mouvement id d d' (.reject id g)
  | commence (g : String) (hg : d.toAgentId = "" ∨ d.toAgentId = g) (hd : d.status = .accepted)
      (hd' : d'.status = .inProgress) : Mouvement id d d' (.start id g)
  | echoue (g : String) (hg : d.toAgentId = g) (hd : d.status = .accepted ∨ d.status = .inProgress)
      (hd' : d'.status = .failed) : Mouvement id d d' (.fail id g)
  | acheve (g summary : String) (hg : d.toAgentId = g) (hd : d.status = .accepted)
      (hd' : d'.status = .completed) : Mouvement id d d' (.completeDelegation id g summary)
  | arrete (g summary : String) (hg : d.toAgentId = "" ∧ g ≠ "") (hd : d.status = .accepted)
      (hd' : d'.status = .inProgress) : Mouvement id d d' (.completeDelegation id g summary)

section Pas

variable {now : Int} {m : Delegations} {id k : Nat} {agentId summary : String}
variable {d d' : Delegation} {nouveau : DelegationStatus} {f : Delegation → Option Delegation}

theorem agir_eq (hd : m[id]? = some d) (hf : f d = some d') :
    agir m id f = (m.set id d', true) := by
  rw [agir, hd]
  simp only [hf]

theorem agir_false (h : (agir m id f).2 = false) : (agir m id f).1 = m := by
  unfold agir at h ⊢
  cases hd : m[id]? with
  | none => rfl
  | some d =>
      cases hf : f d with
      | none => simp [hf]
      | some d' => simp [hd, hf] at h

theorem agir_change (hd : m[k]? = some d) (hd' : (agir m id f).1[k]? = some d') (hne : d ≠ d') :
    k = id ∧ f d = some d' := by
  unfold agir at hd'
  cases hid : m[id]? with
  | none =>
      rw [hid] at hd'
      exact absurd (Option.some.inj (hd.symm.trans hd')) hne
  | some x =>
      cases hf : f x with
      | none =>
          simp only [hid, hf] at hd'
          exact absurd (Option.some.inj (hd.symm.trans hd')) hne
      | some x' =>
          simp only [hid, hf] at hd'
          by_cases hk : k = id
          · cases hk
            rw [List.getElem?_set_self (List.getElem?_eq_some_iff.mp hd).1] at hd'
            cases hd.symm.trans hid
            exact ⟨rfl, hf.trans hd'⟩
          · rw [List.getElem?_set_ne (Ne.symm hk)] at hd'
            exact absurd (Option.some.inj (hd.symm.trans hd')) hne

theorem passer_spec (h : passer now agentId nouveau d = some d') :
    (d.toAgentId = "" ∨ d.toAgentId = agentId) ∧
      (∀ permis ∈ LEGAL_PREDECESSORS nouveau, d.status ∈ permis) ∧ d'.status = nouveau ∧
      d'.toAgentId = d.toAgentId := by
  unfold passer at h
  split at h
  · cases h
  · next hagent =>
      split at h
      · cases h
      · next hlegal =>
          cases h
          refine ⟨by tauto, ?_, rfl, rfl⟩
          intro permis hpermis
          by_contra hd
          exact hlegal ⟨permis, hpermis, hd⟩

theorem completeDelegation_eq (hd : m[id]? = some d) :
    completeDelegation now m id agentId summary =
      match passer now agentId .inProgress d with
      | none => (m, false)
      | some d₁ =>
          if d₁.toAgentId = agentId then
            (m.set id { d₁ with
              status := .completed, completedAt := some now, resultSummary := summary }, true)
          else (m.set id d₁, false) := by
  unfold completeDelegation start
  cases hf : passer now agentId .inProgress d with
  | none =>
      have hrefus : agir m id (passer now agentId .inProgress) = (m, false) := by
        rw [agir, hd]
        simp only [hf]
      rw [hrefus]
      rfl
  | some d₁ =>
      have hstatus : d₁.status = .inProgress := (passer_spec hf).2.2.1
      have hd₁ : (m.set id d₁)[id]? = some d₁ :=
        List.getElem?_set_self (List.getElem?_eq_some_iff.mp hd).1
      rw [agir_eq hd hf]
      simp only [if_true, complete, agir, hd₁]
      by_cases hto : d₁.toAgentId = agentId
      · rw [if_neg (not_not.mpr hto), if_neg (not_not.mpr hstatus), if_pos hto]
        simp only [List.set_set]
      · rw [if_pos hto, if_neg hto]

theorem completeDelegation_inconnue (hd : m[id]? = none) :
    completeDelegation now m id agentId summary = (m, false) := by
  unfold completeDelegation start agir
  rw [hd]
  rfl

theorem passer_eq (hagent : d.toAgentId = "" ∨ d.toAgentId = agentId)
    (hlegal : ∀ permis ∈ LEGAL_PREDECESSORS nouveau, d.status ∈ permis) :
    ∃ d', passer now agentId nouveau d = some d' := by
  unfold passer
  rw [if_neg (by tauto), if_neg]
  · exact ⟨_, rfl⟩
  · intro ⟨permis, hpermis, hd⟩
    exact hd (hlegal permis hpermis)

theorem mouvement {a : Appel} (hd : m[k]? = some d) (hd' : (executer now m a).1[k]? = some d')
    (hne : d ≠ d') : Mouvement k d d' a ∧ d'.toAgentId = d.toAgentId := by
  cases a with
  | delegate x =>
      change (m ++ [x.delegation])[k]? = some d' at hd'
      have hlong := (List.getElem?_eq_some_iff.mp hd).1
      exact absurd (Option.some.inj (hd.symm.trans ((List.getElem?_append_left hlong).symm.trans hd')))
        hne
  | requestExpertise x =>
      change (m ++ [x.delegation])[k]? = some d' at hd'
      have hlong := (List.getElem?_eq_some_iff.mp hd).1
      exact absurd (Option.some.inj (hd.symm.trans ((List.getElem?_append_left hlong).symm.trans hd')))
        hne
  | accept id g =>
      change (agir m id (passer now g .accepted)).1[k]? = some d' at hd'
      obtain ⟨rfl, hf⟩ := agir_change hd hd' hne
      obtain ⟨hg, hlegal, hstatus, hto⟩ := passer_spec hf
      exact ⟨.accepte g hg (List.mem_singleton.mp (hlegal _ rfl)) hstatus, hto⟩
  | reject id g =>
      change (agir m id (passer now g .rejected)).1[k]? = some d' at hd'
      obtain ⟨rfl, hf⟩ := agir_change hd hd' hne
      obtain ⟨hg, hlegal, hstatus, hto⟩ := passer_spec hf
      exact ⟨.rejete g hg (List.mem_singleton.mp (hlegal _ rfl)) hstatus, hto⟩
  | start id g =>
      change (agir m id (passer now g .inProgress)).1[k]? = some d' at hd'
      obtain ⟨rfl, hf⟩ := agir_change hd hd' hne
      obtain ⟨hg, hlegal, hstatus, hto⟩ := passer_spec hf
      exact ⟨.commence g hg (List.mem_singleton.mp (hlegal _ rfl)) hstatus, hto⟩
  | fail id g =>
      change (Collaboration.fail now m id g).1[k]? = some d' at hd'
      unfold Collaboration.fail at hd'
      obtain ⟨rfl, hf⟩ := agir_change hd hd' hne
      obtain ⟨hg, hf⟩ := Option.ite_none_left_eq_some.mp hf
      obtain ⟨hstatus, hf⟩ := Option.ite_none_left_eq_some.mp hf
      cases hf
      exact ⟨.echoue g (not_not.mp hg) (by simpa using not_not.mp hstatus) rfl, rfl⟩
  | completeDelegation id g summary =>
      change (completeDelegation now m id g summary).1[k]? = some d' at hd'
      cases hx : m[id]? with
      | none =>
          rw [completeDelegation_inconnue hx] at hd'
          exact absurd (Option.some.inj (hd.symm.trans hd')) hne
      | some x =>
          rw [completeDelegation_eq hx] at hd'
          cases hf : passer now g .inProgress x with
          | none =>
              rw [hf] at hd'
              exact absurd (Option.some.inj (hd.symm.trans hd')) hne
          | some d₁ =>
              obtain ⟨hg, hlegal, hstatus, hto⟩ := passer_spec hf
              have haccepted := List.mem_singleton.mp (hlegal _ rfl)
              have hk : k = id := by
                by_contra hk
                simp only [hf] at hd'
                split at hd' <;>
                · rw [List.getElem?_set_ne (Ne.symm hk)] at hd'
                  exact hne (Option.some.inj (hd.symm.trans hd'))
              cases hk
              cases hd.symm.trans hx
              have hlong := (List.getElem?_eq_some_iff.mp hd).1
              simp only [hf] at hd'
              split at hd'
              · next hfin =>
                  rw [List.getElem?_set_self hlong] at hd'
                  cases hd'
                  exact ⟨.acheve g summary (hto ▸ hfin) haccepted rfl, hto⟩
              · next hfin =>
                  rw [List.getElem?_set_self hlong] at hd'
                  cases hd'
                  rw [hto] at hfin
                  have hvide : d.toAgentId = "" := hg.resolve_right hfin
                  exact ⟨.arrete g summary ⟨hvide, fun h => hfin (hvide.trans h.symm)⟩ haccepted
                    hstatus, hto⟩

theorem length_agir (m : Delegations) (id : Nat) (f : Delegation → Option Delegation) :
    (agir m id f).1.length = m.length := by
  unfold agir
  split
  · rfl
  · split
    · rfl
    · exact List.length_set

theorem executer_ajoute (now : Int) (m : Delegations) (a : Appel) :
    (executer now m a).1.length = m.length ∨
      ∃ d, (executer now m a).1 = m ++ [d] ∧ d.status = .requested := by
  cases a with
  | delegate x => exact Or.inr ⟨_, rfl, rfl⟩
  | requestExpertise x => exact Or.inr ⟨_, rfl, rfl⟩
  | accept id g => exact Or.inl (length_agir _ _ _)
  | reject id g => exact Or.inl (length_agir _ _ _)
  | start id g => exact Or.inl (length_agir _ _ _)
  | fail id g => exact Or.inl (length_agir _ _ _)
  | completeDelegation id g summary =>
      left
      cases hx : m[id]? with
      | none =>
          change (completeDelegation now m id g summary).1.length = _
          rw [completeDelegation_inconnue hx]
      | some x =>
          change (completeDelegation now m id g summary).1.length = _
          rw [completeDelegation_eq hx]
          split
          · rfl
          · split <;> exact List.length_set

theorem executer_garde (now : Int) (a : Appel) (hd : m[k]? = some d) :
    ∃ d', (executer now m a).1[k]? = some d' ∧ d'.toAgentId = d.toAgentId := by
  have hlong : k < (executer now m a).1.length := by
    have hk := (List.getElem?_eq_some_iff.mp hd).1
    cases executer_ajoute now m a with
    | inl h => omega
    | inr h =>
        obtain ⟨x, hx, -⟩ := h
        rw [hx, List.length_append]
        omega
  refine ⟨_, List.getElem?_eq_getElem hlong, ?_⟩
  by_cases hne : d = (executer now m a).1[k]
  · rw [← hne]
  · exact (mouvement hd (List.getElem?_eq_getElem hlong) hne).2

theorem requested_of_nouvelle {a : Appel} (hm : m[k]? = none)
    (hd : (executer now m a).1[k]? = some d) : d.status = .requested := by
  have hk := (List.getElem?_eq_some_iff.mp hd).1
  have hlong := List.getElem?_eq_none_iff.mp hm
  cases executer_ajoute now m a with
  | inl h => omega
  | inr h =>
      obtain ⟨x, hx, hstatus⟩ := h
      rw [hx, List.getElem?_append_right hlong] at hd
      cases hr : k - m.length with
      | zero =>
          rw [hr] at hd
          cases hd
          exact hstatus
      | succ n =>
          rw [hr] at hd
          cases hd

end Pas

section Histoires

variable {h avant suite : Histoire} {e : Int × Appel} {id : Nat} {g summary : String} {now : Int}
variable {d d' : Delegation}

theorem apres_concat (h : Histoire) (e : Int × Appel) :
    apres (h ++ [e]) = (executer e.1 (apres h) e.2).1 := by
  rw [apres, List.foldl_append]
  rfl

theorem apres_garde (suite : Histoire) (hd : (apres avant)[id]? = some d) :
    ∃ d', (apres (avant ++ suite))[id]? = some d' ∧ d'.toAgentId = d.toAgentId := by
  induction suite using List.reverseRecOn with
  | nil => exact ⟨d, by rwa [List.append_nil], rfl⟩
  | append_singleton suite e ih =>
      obtain ⟨d₁, hd₁, hto₁⟩ := ih
      obtain ⟨d₂, hd₂, hto₂⟩ := executer_garde e.1 e.2 hd₁
      rw [← List.append_assoc, apres_concat]
      exact ⟨d₂, hd₂, hto₂.trans hto₁⟩

theorem Accepteur.append (hacc : Accepteur avant id g) (suite : Histoire) :
    Accepteur (avant ++ suite) id g := by
  obtain ⟨a, now, b, rfl, hrep⟩ := hacc
  exact ⟨a, now, b ++ suite, by simp, hrep⟩

theorem Loi.accepteur_vide (hloi : Loi h) (hh : h = avant ++ suite)
    (hd : (apres avant)[id]? = some d) (hto : d.toAgentId = "")
    (hstatus : d.status = .accepted ∨ d.status = .inProgress) (hacc : Accepteur avant id g) :
    g = "" := by
  by_contra hg
  have hcharge : EnCharge avant id d g := by
    rw [EnCharge, if_pos hto]
    exact hacc
  have hne : d.toAgentId ≠ g := fun heq => hg (heq.symm.trans hto)
  cases hloi.capable avant suite hh id d g hd hstatus hcharge 0 "" with
  | inl hrep =>
      change (completeDelegation 0 (apres avant) id g "").2 = true at hrep
      rw [completeDelegation_eq hd] at hrep
      cases hf : passer 0 g .inProgress d with
      | none => simp [hf] at hrep
      | some d₁ =>
          have hto₁ := (passer_spec hf).2.2.2
          simp only [hf, hto₁, if_neg hne, Bool.false_eq_true] at hrep
  | inr hrep =>
      change (Collaboration.fail 0 (apres avant) id g).2 = true at hrep
      simp [Collaboration.fail, agir, hd, hne] at hrep

theorem Loi.adressee (hloi : Loi h) : Adressee h := by
  intro avant e suite hh id g status d hpart hd hto hstatus
  obtain ⟨now, a⟩ := e
  have hh' : h = (avant ++ [(now, a)]) ++ suite := by
    rw [hh]
    simp
  cases a with
  | accept id' g' =>
      cases hpart
      obtain ⟨d', hf⟩ := @passer_eq now g d .accepted (Or.inl hto) (by
        intro permis hpermis
        cases hpermis
        exact List.mem_singleton.mpr hstatus)
      have hagir := agir_eq hd hf
      have hapres : apres (avant ++ [(now, .accept id g)]) = (apres avant).set id d' := by
        rw [apres_concat]
        exact congrArg Prod.fst hagir
      have hd' : (apres (avant ++ [(now, .accept id g)]))[id]? = some d' := by
        rw [hapres]
        exact List.getElem?_set_self (List.getElem?_eq_some_iff.mp hd).1
      obtain ⟨-, -, hstatus', hto'⟩ := passer_spec hf
      exact hloi.accepteur_vide hh' hd' (hto'.trans hto) (Or.inl hstatus')
        ⟨avant, now, [], rfl, congrArg Prod.snd hagir⟩
  | start id' g' =>
      cases hpart
      obtain ⟨d', hf⟩ := @passer_eq now g d .inProgress (Or.inl hto) (by
        intro permis hpermis
        cases hpermis
        exact List.mem_singleton.mpr hstatus)
      have hd' : (apres (avant ++ [(now, .start id g)]))[id]? = some d' := by
        rw [apres_concat]
        change (agir (apres avant) id (passer now g .inProgress)).1[id]? = some d'
        rw [agir_eq hd hf]
        exact List.getElem?_set_self (List.getElem?_eq_some_iff.mp hd).1
      have hne : d ≠ d' := by
        intro heq
        rw [heq, (passer_spec hf).2.2.1] at hstatus
        cases hstatus
      obtain ⟨agentId, hvise, -, hcharge⟩ := hloi.agents avant _ suite hh id d d' hd hd' hne
      cases hvise
      have hacc := hcharge (by rw [hstatus]; decide)
      rw [EnCharge, if_pos hto] at hacc
      exact hloi.accepteur_vide hh hd hto (Or.inl hstatus) hacc
  | completeDelegation id' g' summary =>
      cases hpart
      by_contra hg
      obtain ⟨d', hf⟩ := @passer_eq now g d .inProgress (Or.inl hto) (by
        intro permis hpermis
        cases hpermis
        exact List.mem_singleton.mpr hstatus)
      obtain ⟨-, -, hstatus', hto'⟩ := passer_spec hf
      have hne : ¬d'.toAgentId = g := fun heq => hg (heq.symm.trans (hto'.trans hto))
      have hexec : executer now (apres avant) (.completeDelegation id g summary) =
          ((apres avant).set id d', false) := by
        change completeDelegation now (apres avant) id g summary = _
        rw [completeDelegation_eq hd, hf]
        exact if_neg hne
      have hrefus : (apres avant).set id d' = apres avant := by
        have h₀ := hloi.refus avant _ suite hh (congrArg Prod.snd hexec)
        rw [apres_concat, hexec] at h₀
        exact h₀
      have hself := List.getElem?_set_self (a := d') (List.getElem?_eq_some_iff.mp hd).1
      rw [hrefus, hd] at hself
      cases hself
      cases hstatus.symm.trans hstatus'
  | delegate x => cases hpart
  | requestExpertise x => cases hpart
  | reject id' g' => cases hpart
  | fail id' g' => cases hpart

theorem Adressee.accepteur (hadr : Adressee h) (hh : h = avant ++ suite)
    (hd : (apres avant)[id]? = some d) (hto : d.toAgentId = "")
    (hstatus : d.status = .accepted ∨ d.status = .inProgress) : Accepteur avant id "" := by
  induction avant using List.reverseRecOn generalizing suite d with
  | nil => cases hd
  | append_singleton avant e ih =>
      rw [List.append_assoc, List.singleton_append] at hh
      have hd' := hd
      rw [apres_concat] at hd'
      cases hd₀ : (apres avant)[id]? with
      | none =>
          have hrequested := requested_of_nouvelle hd₀ hd'
          rw [hrequested] at hstatus
          simp at hstatus
      | some d₀ =>
          by_cases hne : d₀ = d
          · exact (ih hh hd₀ (hne ▸ hto) (hne ▸ hstatus)).append [e]
          · obtain ⟨hmouv, hto₀⟩ := mouvement hd₀ hd' hne
            have hvide : d₀.toAgentId = "" := hto₀.symm.trans hto
            obtain ⟨now, a⟩ := e
            cases hmouv with
            | accepte g hg hreq hacc =>
                have hg' := hadr avant _ suite hh id g .requested d₀ rfl hd₀ hvide hreq
                rw [hg'] at hd' ⊢
                refine ⟨avant, now, [], rfl, ?_⟩
                by_contra hrep
                have hsame := agir_false (Bool.eq_false_iff.mpr hrep)
                change (agir (apres avant) id (passer now "" .accepted)).1[id]? = some d at hd'
                rw [hsame] at hd'
                exact hne (Option.some.inj (hd₀.symm.trans hd'))
            | rejete g hg hreq hrej =>
                rw [hrej] at hstatus
                simp at hstatus
            | commence g hg hacc hcours => exact (ih hh hd₀ hvide (Or.inl hacc)).append _
            | echoue g hg hcours hechec =>
                rw [hechec] at hstatus
                simp at hstatus
            | acheve g summary hg hacc hfini =>
                rw [hfini] at hstatus
                simp at hstatus
            | arrete g summary hg hacc hcours =>
                exact absurd (hadr avant _ suite hh id g .accepted d₀ rfl hd₀ hvide hacc) hg.2

theorem Adressee.enCharge (hadr : Adressee h) (hh : h = avant ++ suite)
    (hd : (apres avant)[id]? = some d) (hcharge : EnCharge avant id d g) : d.toAgentId = g := by
  unfold EnCharge at hcharge
  split at hcharge
  · next hto =>
      obtain ⟨a, now, b, havant, hrep⟩ := hcharge
      cases hd₀ : (apres a)[id]? with
      | none =>
          change (agir (apres a) id (passer now g .accepted)).2 = true at hrep
          simp [agir, hd₀] at hrep
      | some d₀ =>
          obtain ⟨d₁, hd₁, hto₁⟩ := apres_garde ((now, .accept id g) :: b) hd₀
          rw [← havant] at hd₁
          cases hd.symm.trans hd₁
          cases hf : passer now g .accepted d₀ with
          | none =>
              change (agir (apres a) id (passer now g .accepted)).2 = true at hrep
              simp [agir, hd₀, hf] at hrep
          | some d₂ =>
              have hreq := List.mem_singleton.mp ((passer_spec hf).2.1 _ rfl)
              have hh' : h = a ++ (now, .accept id g) :: (b ++ suite) := by
                rw [hh, havant]
                simp
              rw [hto]
              exact (hadr a _ _ hh' id g .requested d₀ rfl hd₀ (hto₁.symm.trans hto) hreq).symm
  · exact hcharge.symm

theorem Adressee.loi (hadr : Adressee h) : Loi h where
  statuts avant e suite hh id d d' hd hd' := by
    rw [apres_concat] at hd'
    obtain ⟨now, a⟩ := e
    by_cases hne : d = d'
    · rw [hne]
    · cases (mouvement hd hd' hne).1 with
      | accepte g hg hs hs' => exact hs ▸ hs' ▸ .single .accepte
      | rejete g hg hs hs' => exact hs ▸ hs' ▸ .single .rejete
      | commence g hg hs hs' => exact hs ▸ hs' ▸ .single .commence
      | echoue g hg hs hs' =>
          cases hs with
          | inl hs => exact hs ▸ hs' ▸ .single .abandonne
          | inr hs => exact hs ▸ hs' ▸ .single .echoue
      | acheve g summary hg hs hs' => exact hs ▸ hs' ▸ .tail (.single .commence) .acheve
      | arrete g summary hg hs hs' => exact hs ▸ hs' ▸ .single .commence
  agents avant e suite hh id d d' hd hd' hne := by
    rw [apres_concat] at hd'
    obtain ⟨now, a⟩ := e
    have hcharge : ∀ {g : String}, d.toAgentId = "" ∨ d.toAgentId = g → (d.toAgentId = "" → g = "") →
        d.status = .accepted ∨ d.status = .inProgress → EnCharge avant id d g := by
      intro g hg hvide hstatus
      unfold EnCharge
      split
      · next hto =>
          rw [hvide hto]
          exact hadr.accepteur hh hd hto hstatus
      · next hto => exact (hg.resolve_left hto).symm
    cases (mouvement hd hd' hne).1 with
    | accepte g hg hs hs' =>
        exact ⟨g, rfl, fun _ hto => (hg.resolve_left hto).symm, fun h => absurd hs h⟩
    | rejete g hg hs hs' =>
        exact ⟨g, rfl, fun _ hto => (hg.resolve_left hto).symm, fun h => absurd hs h⟩
    | commence g hg hs hs' =>
        refine ⟨g, rfl, fun _ hto => (hg.resolve_left hto).symm, fun _ => hcharge hg ?_ (Or.inl hs)⟩
        exact fun hto => hadr avant _ suite hh id g .accepted d rfl hd hto hs
    | echoue g hg hs hs' =>
        exact ⟨g, rfl, fun _ _ => hg.symm, fun _ => hcharge (Or.inr hg) (fun hto => hg ▸ hto) hs⟩
    | acheve g summary hg hs hs' =>
        refine ⟨g, rfl, fun _ _ => hg.symm, fun _ => hcharge (Or.inr hg) ?_ (Or.inl hs)⟩
        exact fun hto => hg ▸ hto
    | arrete g summary hg hs hs' =>
        exact absurd (hadr avant _ suite hh id g .accepted d rfl hd hg.1 hs) hg.2
  capable avant suite hh id d g hd hstatus hcharge now summary := by
    right
    have hto := hadr.enCharge hh hd hcharge
    change (Collaboration.fail now (apres avant) id g).2 = true
    simp [Collaboration.fail, agir, hd, hto, hstatus]
  refus avant e suite hh hrep := by
    rw [apres_concat]
    obtain ⟨now, a⟩ := e
    cases a with
    | delegate x => cases hrep
    | requestExpertise x => cases hrep
    | accept id g => exact agir_false hrep
    | reject id g => exact agir_false hrep
    | start id g => exact agir_false hrep
    | fail id g => exact agir_false hrep
    | completeDelegation id g summary =>
        change (completeDelegation now (apres avant) id g summary).2 = false at hrep
        change (completeDelegation now (apres avant) id g summary).1 = apres avant
        cases hd : (apres avant)[id]? with
        | none => rw [completeDelegation_inconnue hd]
        | some d =>
            rw [completeDelegation_eq hd] at hrep ⊢
            cases hf : passer now g .inProgress d with
            | none => rfl
            | some d₁ =>
                obtain ⟨hg, hlegal, -, hto⟩ := passer_spec hf
                simp only [hf] at hrep ⊢
                split at hrep
                · cases hrep
                · next hne =>
                    rw [hto] at hne
                    have hvide := hg.resolve_right hne
                    have hacc := List.mem_singleton.mp (hlegal _ rfl)
                    have hg' := hadr avant _ suite hh id g .accepted d rfl hd hvide hacc
                    exact absurd (hvide.trans hg'.symm) hne

end Histoires

/-- The delegations follow their law along a history exactly when no agent with a name accepts,
starts or completes one that has no addressee. -/
theorem loi_iff_adressee (h : Histoire) : Loi h ↔ Adressee h := ⟨Loi.adressee, Adressee.loi⟩

/-- An expert accepts a request: it can neither complete it nor give it up, and its attempt to
complete it leaves it in progress. -/
theorem loi_expertise :
    ¬Loi [(0, .requestExpertise ⟨"a", "m", "t", "d", ["sql"]⟩), (1, .accept 0 "expert"),
      (2, .completeDelegation 0 "expert" "done")] := by
  intro h
  have hrefus := h.refus [(0, .requestExpertise ⟨"a", "m", "t", "d", ["sql"]⟩),
    (1, .accept 0 "expert")] _ [] rfl (by decide)
  exact absurd hrefus (by decide)

end Hermes.Collaboration
