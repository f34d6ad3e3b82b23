import Hermes.Security.Approvals

/-! # When a live consent is found

A call looks at the most recently decided exact consent only, and falls back on the scopes when
that one is dead.
-/

namespace Hermes.Approvals

open Lib Empreinte

section Recherche

variable (hacher : String → String) (p : Plateforme) (horloge : Horloge) (t : File) (a : Action)

/-- The approved rows with the fingerprint of the action, the most recently decided first. -/
def accordsExacts : List PendingApproval :=
  parDecision (t.lignes.filter fun e =>
    e.fingerprint = fingerprintFor hacher p a ∧ e.status = .approved)

/-- The approved scopes of the type, the most recently decided first. -/
def portees (actionType : String) : List PendingApproval :=
  parDecision (t.lignes.filter fun e =>
    e.actionType = actionType ∧ e.portee = some PORTEE_ARBORESCENCE ∧ e.status = .approved)

/-- A scope covers the path and is live when its turn comes. -/
def PorteeOuverte : Prop :=
  ∃ cible, a.targetPath = some cible ∧ cible ≠ "" ∧
    ∃ e n, (portees t a.actionType)[n]? = some e ∧ vivante e (horloge.lire (n + 1)) = true ∧
      couverte p e cible = true

/-- Approved, unexpired and not exhausted during the whole call, for this very action or for a
tree that its path is in. -/
structure Ouverte (e : PendingApproval) : Prop where
  approuvee : e.status = .approved
  vivante : ∀ n, vivante e (horloge.lire n) = true
  convient : e.fingerprint = fingerprintFor hacher p a ∨
    CouvreParPortee p e a.actionType a.targetPath

/-- What a call owes the action: an entry, when the queue holds a consent for it. -/
def Servie : Prop :=
  (∃ e ∈ t.lignes, Ouverte hacher p horloge a e) →
    ∃ e, (consumeApproval hacher p horloge t a).2 = .entree (some e)

/-- The most recent exact consent is dead, an older one is live, and no scope makes up for it. -/
def Masquee : Prop :=
  (∃ premier, (accordsExacts hacher p t a).head? = some premier ∧
      vivante premier (horloge.lire 0) = false) ∧
    (∃ e ∈ accordsExacts hacher p t a, ∀ n, vivante e (horloge.lire n) = true) ∧
    ¬ PorteeOuverte p horloge t a

end Recherche

section Completude

variable {hacher : String → String} {p : Plateforme} {horloge : Horloge} {t : File} {a : Action}
  {e : PendingApproval}

theorem mem_accordsExacts :
    e ∈ accordsExacts hacher p t a ↔
      e ∈ t.lignes ∧ e.fingerprint = fingerprintFor hacher p a ∧ e.status = .approved := by
  rw [accordsExacts, mem_parDecision, List.mem_filter, decide_eq_true_eq]

theorem plusRecente_total (x y : PendingApproval) : plusRecente x y || plusRecente y x := by
  unfold plusRecente
  cases x.decidedAt <;> cases y.decidedAt <;> simp [le_total]

theorem plusRecente_trans {x y z : PendingApproval} (hxy : plusRecente x y = true)
    (hyz : plusRecente y z = true) : plusRecente x z = true := by
  unfold plusRecente at *
  cases hx : x.decidedAt <;> cases hy : y.decidedAt <;> cases hz : z.decidedAt <;>
    simp_all
  exact hyz.trans hxy

theorem plusRecente_premier {premier : PendingApproval}
    (hhead : (accordsExacts hacher p t a).head? = some premier)
    (he : e ∈ accordsExacts hacher p t a) : plusRecente premier e = true := by
  have hsorted : (accordsExacts hacher p t a).Pairwise fun x y => plusRecente x y = true :=
    @List.pairwise_mergeSort _ plusRecente (fun _ _ _ => plusRecente_trans)
      plusRecente_total _
  cases hlist : accordsExacts hacher p t a with
  | nil =>
      rw [hlist] at he
      cases he
  | cons x reste =>
      rw [hlist] at hhead he hsorted
      cases hhead
      rcases List.mem_cons.mp he with rfl | hreste
      · simpa using plusRecente_total e e
      · exact List.rel_of_pairwise_cons hsorted hreste

theorem mem_portees {actionType : String} :
    e ∈ portees t actionType ↔
      e ∈ t.lignes ∧ e.actionType = actionType ∧ e.portee = some PORTEE_ARBORESCENCE ∧
        e.status = .approved := by
  rw [portees, mem_parDecision, List.mem_filter, decide_eq_true_eq]

theorem couverte_eq_true {cible : String} :
    couverte p e cible = true ↔
      ∃ racine, e.porteeRacine = some racine ∧ racine ≠ "" ∧ couvre p racine cible = true := by
  unfold couverte
  cases e.porteeRacine with
  | none => simp
  | some racine => simp

theorem ne_vide_of_couvre {racine cible : String} (h : couvre p racine cible = true) :
    racine ≠ "" ∧ cible ≠ "" := by
  unfold couvre at h
  split at h
  · cases h
  · next hne => exact not_or.mp hne

theorem trouverUnePortee_eq_none :
    trouverUnePortee p horloge t a.actionType a.targetPath = none ↔
      ¬ PorteeOuverte p horloge t a := by
  unfold trouverUnePortee PorteeOuverte
  cases htarget : a.targetPath with
  | none => simp
  | some cible =>
      by_cases hcible : cible = ""
      · simp [hcible]
      · simp only [Option.getD_some, hcible, if_false, Option.map_eq_none_iff,
          List.find?_eq_none, Option.some.injEq, exists_eq_left', not_exists, not_and]
        constructor
        · intro h _ e n hget hvivante hcouverte
          exact h (e, n) (List.mem_zipIdx_iff_getElem?.mpr hget)
            (Bool.and_eq_true_iff.mpr ⟨hvivante, hcouverte⟩)
        · rintro h ⟨e, n⟩ hmem hpred
          have hget := List.mem_zipIdx_iff_getElem?.mp hmem
          have hboth := Bool.and_eq_true_iff.mp hpred
          exact h hcible e n hget hboth.1 hboth.2

theorem trouver_eq_none :
    trouver hacher p horloge t a = none ↔
      (∀ premier, (accordsExacts hacher p t a).head? = some premier →
          vivante premier (horloge.lire 0) = false) ∧ ¬ PorteeOuverte p horloge t a := by
  have htrouver : trouver hacher p horloge t a = (accordsExacts hacher p t a).head?.elim
      (trouverUnePortee p horloge t a.actionType a.targetPath) fun e =>
        if vivante e (horloge.lire 0) then some e
        else trouverUnePortee p horloge t a.actionType a.targetPath := by
    unfold trouver accordsExacts
    dsimp only
    split
    · next hhead => rw [hhead, Option.elim_some]
    · next hhead => rw [hhead, Option.elim_none]
  rw [← trouverUnePortee_eq_none, htrouver]
  cases hhead : (accordsExacts hacher p t a).head? with
  | none => simp
  | some premier => cases hvivante : vivante premier (horloge.lire 0) <;> simp [hvivante]

theorem entree_iff_trouver :
    (∃ e, (consumeApproval hacher p horloge t a).2 = .entree (some e)) ↔
      trouver hacher p horloge t a ≠ none := by
  unfold consumeApproval
  cases trouver hacher p horloge t a <;> simp

theorem porteeOuverte_of_couvre (hligne : e ∈ t.lignes) (happrouvee : e.status = .approved)
    (hvivante : ∀ n, vivante e (horloge.lire n) = true)
    (hcouvre : CouvreParPortee p e a.actionType a.targetPath) : PorteeOuverte p horloge t a := by
  obtain ⟨htype, hportee, racine, cible, hracine, hcible, hsous⟩ := hcouvre
  obtain ⟨n, hn⟩ := List.mem_iff_getElem?.mp
    (mem_portees.mpr ⟨hligne, htype, hportee, happrouvee⟩)
  have hne := ne_vide_of_couvre hsous
  exact ⟨cible, hcible, hne.2, e, n, hn, hvivante (n + 1),
    couverte_eq_true.mpr ⟨racine, hracine, hne.1, hsous⟩⟩

/-- Exactly when a call finds nothing although the queue holds a consent. -/
theorem servie_iff : Servie hacher p horloge t a ↔ ¬ Masquee hacher p horloge t a := by
  rw [Servie, entree_iff_trouver]
  constructor
  · rintro hservie ⟨⟨premier, hhead, hmort⟩, ⟨e, he, hvivante⟩, hfermee⟩
    obtain ⟨hligne, hexact, happrouvee⟩ := mem_accordsExacts.mp he
    refine hservie ⟨e, hligne, happrouvee, hvivante, .inl hexact⟩ (trouver_eq_none.mpr ⟨?_, hfermee⟩)
    intro premier' hhead'
    rw [hhead] at hhead'
    cases hhead'
    exact hmort
  · rintro hmasquee ⟨e, hligne, happrouvee, hvivante, hconvient⟩ hrien
    obtain ⟨hmorts, hfermee⟩ := trouver_eq_none.mp hrien
    rcases hconvient with hexact | hcouvre
    · have he : e ∈ accordsExacts hacher p t a :=
        mem_accordsExacts.mpr ⟨hligne, hexact, happrouvee⟩
      cases hhead : (accordsExacts hacher p t a).head? with
      | none =>
          rw [List.head?_eq_none_iff.mp hhead] at he
          cases he
      | some premier =>
          exact hmasquee ⟨⟨premier, hhead, hmorts premier hhead⟩, ⟨e, he, hvivante⟩, hfermee⟩
    · exact hfermee (porteeOuverte_of_couvre hligne happrouvee hvivante hcouvre)

end Completude

def commit : Action :=
  { actionType := "git_commit", targetPath := some "/p" }

/-- The same action is approved twice: for an hour, and later for one minute. -/
def deuxAccords : File :=
  let demande : Demande := { action := commit, reason := "autonomie trop basse" }
  let t := (recordPending id .posix (Horloge.figee 0) "a1" Table.vide demande).1
  let t := (decide .posix (Horloge.figee 10) t "a1" { approved := true, ttlMinutes := some 60 }).1
  let t := (recordPending id .posix (Horloge.figee 20) "a2" t demande).1
  (decide .posix (Horloge.figee 30) t "a2" { approved := true, ttlMinutes := some 1 }).1

/-- Two minutes later the second one hides the first, which has 58 minutes left. -/
theorem deuxAccords_nonServie :
    ¬ Servie id .posix (Horloge.figee (2 * MINUTE)) deuxAccords commit := by
  intro hservie
  have hlu : (deuxAccords.lire "a1").any (fun e => e.status = .approved &&
      e.fingerprint = fingerprintFor id .posix commit && vivante e (2 * MINUTE)) = true := by
    decide +kernel
  obtain ⟨e, he, hpred⟩ := (Option.any_eq_true _ _).mp hlu
  simp only [Bool.and_eq_true, decide_eq_true_eq] at hpred
  obtain ⟨⟨happrouvee, hexact⟩, hvivante⟩ := hpred
  have hrecent : ∀ x ∈ deuxAccords.lignes, vivante x (2 * MINUTE) = true →
      ∃ y ∈ deuxAccords.lignes, (y.fingerprint = fingerprintFor id .posix commit ∧
        y.status = .approved) ∧ plusRecente x y = false := by
    decide +kernel
  have hsansPortee : ∀ x ∈ deuxAccords.lignes, x.portee ≠ some PORTEE_ARBORESCENCE := by
    decide +kernel
  have hservi := hservie
    ⟨e, Table.mem_of_lire he, happrouvee, fun _ => hvivante, .inl hexact⟩
  refine entree_iff_trouver.mp hservi (trouver_eq_none.mpr ⟨?_, ?_⟩)
  · intro premier hhead
    have hpremier := mem_accordsExacts.mp (List.mem_of_mem_head? hhead)
    by_contra hvit
    obtain ⟨y, hy, hyexact, hyrecent⟩ := hrecent premier hpremier.1
      (Bool.not_eq_false _ ▸ hvit)
    rw [plusRecente_premier hhead (mem_accordsExacts.mpr ⟨hy, hyexact⟩)] at hyrecent
    cases hyrecent
  · rintro ⟨_, _, _, x, n, hx, _⟩
    have hmem := mem_portees.mp (List.mem_of_getElem? hx)
    exact hsansPortee x hmem.1 hmem.2.2.1

end Hermes.Approvals
