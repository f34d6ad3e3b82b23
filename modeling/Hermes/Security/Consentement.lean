import Hermes.Security.Approvals

/-! # Every authorisation rests on one human consent

A history is a list of calls, each with its own clock and its own answers of the platform. The
journal keeps every call with the table it found and what it answered.
-/

namespace Hermes.Approvals

open Lib Empreinte

inductive Appel where
  | recordPending (p : Plateforme) (horloge : Horloge) (uuid : String) (d : Demande)
  | decide (p : Plateforme) (horloge : Horloge) (approvalId : String) (d : Decision)
  | consumeApproval (p : Plateforme) (horloge : Horloge) (a : Action)

/-- A call, with the table it found and what it answered. -/
structure Pas where
  avant : File
  appel : Appel
  reponse : Reponse

structure Etat where
  file : File
  journal : List Pas

section Histoire

variable (hacher : String → String)

def executer (t : File) : Appel → File × Reponse
  | .recordPending p horloge uuid d => recordPending hacher p horloge uuid t d
  | .decide p horloge approvalId d => decide p horloge t approvalId d
  | .consumeApproval p horloge a => consumeApproval hacher p horloge t a

def faire (s : Etat) (a : Appel) : Etat :=
  let (t, r) := executer hacher s.file a
  { file := t, journal := s.journal ++ [{ avant := s.file, appel := a, reponse := r }] }

def histoire (appels : List Appel) : Etat :=
  appels.foldl (faire hacher) { file := Table.vide, journal := [] }

end Histoire

def enAttente (t : File) (id : String) : Bool :=
  (t.lire id).any fun e => e.status = .pending

/-- An answer of `decide` recorded on the entry while it was pending. -/
def Pas.tranche (q : Pas) (id : String) (oui : Bool) : Bool :=
  match q.appel, q.reponse with
  | .decide _ _ approvalId d, .entree (some _) =>
      approvalId = id && d.approved = oui && enAttente q.avant id
  | _, _ => false

def Pas.autorise (q : Pas) (id : String) : Bool :=
  match q.appel, q.reponse with
  | .consumeApproval _ _ _, .entree (some e) => e.id = id
  | _, _ => false

def approbations (journal : List Pas) (id : String) : Nat :=
  journal.countP fun q => q.tranche id true

def refus (journal : List Pas) (id : String) : Nat :=
  journal.countP fun q => q.tranche id false

def autorisations (journal : List Pas) (id : String) : Nat :=
  journal.countP fun q => q.autorise id

/-- The step of the journal that approved the entry, by the decision `d`, and left it as
`e`. -/
structure Accord (id : String) (p : Plateforme) (d : Decision) (e : PendingApproval)
    (q : Pas) : Prop where
  appel : ∃ horloge, q.appel = .decide p horloge id d
  reponse : q.reponse = .entree (some e)
  oui : d.approved = true
  attente : enAttente q.avant id = true

/-- The step of the journal that queued the action of the entry. -/
def Depot (hacher : String → String) (p : Plateforme) (a : Action) (e : PendingApproval)
    (q : Pas) : Prop :=
  (∃ horloge d, q.appel = .recordPending p horloge e.id d ∧ d.action = a) ∧
    e.fingerprint = fingerprintFor hacher p a ∧ e.actionType = a.actionType

/-- The approval that a row rests on, and the count of its uses. -/
def Soutenue (journal : List Pas) (e : PendingApproval) (reste : Int) : Prop :=
  approbations journal e.id = 1 ∧ refus journal e.id = 0 ∧
    ∃ q ∈ journal, ∃ p d e₀, Accord e.id p d e₀ q ∧
      e.expiresAt = e₀.expiresAt ∧ e₀.expiresAt.isSome ∧ e₀.usagesRestants = some d.budget ∧
      (e.portee = some PORTEE_ARBORESCENCE →
        d.portee = PORTEE_ARBORESCENCE ∧
          e.porteeRacine = some (canoniserChemin p d.porteeRacine)) ∧
      e.usagesRestants = some reste ∧ autorisations journal e.id + reste = d.budget

/-- What the journal holds about a row, by its status. -/
def Compte (journal : List Pas) (e : PendingApproval) : Prop :=
  match e.status with
  | .pending =>
      approbations journal e.id = 0 ∧ refus journal e.id = 0 ∧ autorisations journal e.id = 0
  | .refused => approbations journal e.id = 0 ∧ autorisations journal e.id = 0
  | .approved => ∃ reste, Soutenue journal e reste ∧ 0 < reste
  | .used => ∃ reste, Soutenue journal e reste ∧ 0 ≤ reste

def Fidele (hacher : String → String) (journal : List Pas) (id : String) :
    Option PendingApproval → Prop
  | none => approbations journal id = 0 ∧ refus journal id = 0 ∧ autorisations journal id = 0
  | some e => (∃ q ∈ journal, ∃ p a, Depot hacher p a e q) ∧ Compte journal e

def Inv (hacher : String → String) (s : Etat) : Prop :=
  ∀ id, Fidele hacher s.journal id (s.file.lire id)

section Journal

variable (journal : List Pas) (q : Pas) (id : String)

theorem approbations_append : approbations (journal ++ [q]) id =
    approbations journal id + if q.tranche id true then 1 else 0 := by
  simp [approbations, List.countP_append, List.countP_singleton]

theorem refus_append : refus (journal ++ [q]) id =
    refus journal id + if q.tranche id false then 1 else 0 := by
  simp [refus, List.countP_append, List.countP_singleton]

theorem autorisations_append : autorisations (journal ++ [q]) id =
    autorisations journal id + if q.autorise id then 1 else 0 := by
  simp [autorisations, List.countP_append, List.countP_singleton]

end Journal

variable {hacher : String → String} {journal : List Pas} {q : Pas}

/-- A step that says nothing of an entry: neither decision nor authorisation. -/
def Muet (q : Pas) (id : String) : Prop :=
  q.tranche id true = false ∧ q.tranche id false = false ∧ q.autorise id = false

theorem Muet.comptes {id : String} (h : Muet q id) (journal : List Pas) :
    approbations (journal ++ [q]) id = approbations journal id ∧
      refus (journal ++ [q]) id = refus journal id ∧
      autorisations (journal ++ [q]) id = autorisations journal id := by
  rw [approbations_append, refus_append, autorisations_append, h.1, h.2.1, h.2.2]
  simp

theorem depot_append {e : PendingApproval} (h : ∃ r ∈ journal, ∃ p a, Depot hacher p a e r) :
    ∃ r ∈ journal ++ [q], ∃ p a, Depot hacher p a e r := by
  obtain ⟨r, hr, hdepot⟩ := h
  exact ⟨r, List.mem_append_left _ hr, hdepot⟩

theorem depot_congr {e e' : PendingApproval} (hid : e'.id = e.id)
    (hfp : e'.fingerprint = e.fingerprint) (htype : e'.actionType = e.actionType)
    (h : ∃ r ∈ journal, ∃ p a, Depot hacher p a e r) :
    ∃ r ∈ journal, ∃ p a, Depot hacher p a e' r := by
  obtain ⟨r, hr, p, a, ⟨horloge, d, hq, ha⟩, hfp₀, htype₀⟩ := h
  exact ⟨r, hr, p, a, ⟨horloge, d, by rw [hid]; exact hq, ha⟩, hfp.trans hfp₀,
    htype.trans htype₀⟩

theorem soutenue_append {e : PendingApproval} {reste : Int} (hmuet : Muet q e.id)
    (h : Soutenue journal e reste) : Soutenue (journal ++ [q]) e reste := by
  obtain ⟨happ, href, haut⟩ := hmuet.comptes journal
  obtain ⟨hun, hzero, r, hr, p, d, e₀, haccord, hexpire, hsome, haccorde, hportee, husages,
    hbudget⟩ := h
  exact ⟨happ.trans hun, href.trans hzero, r, List.mem_append_left _ hr, p, d, e₀, haccord,
    hexpire, hsome, haccorde, hportee, husages, by rw [haut]; exact hbudget⟩

theorem fidele_append {id : String} {ligne : Option PendingApproval} (hmuet : Muet q id)
    (hid : ∀ e, ligne = some e → e.id = id) (h : Fidele hacher journal id ligne) :
    Fidele hacher (journal ++ [q]) id ligne := by
  obtain ⟨happ, href, haut⟩ := hmuet.comptes journal
  cases ligne with
  | none => exact ⟨happ.trans h.1, href.trans h.2.1, haut.trans h.2.2⟩
  | some e =>
      have heq : e.id = id := hid e rfl
      subst heq
      obtain ⟨hdepot, hcompte⟩ := h
      refine ⟨depot_append hdepot, ?_⟩
      unfold Compte at *
      cases hstatus : e.status with
      | pending =>
          simp only [hstatus] at hcompte ⊢
          exact ⟨happ.trans hcompte.1, href.trans hcompte.2.1, haut.trans hcompte.2.2⟩
      | refused =>
          simp only [hstatus] at hcompte ⊢
          exact ⟨happ.trans hcompte.1, haut.trans hcompte.2⟩
      | approved =>
          simp only [hstatus] at hcompte ⊢
          obtain ⟨reste, hsoutenue, hpos⟩ := hcompte
          exact ⟨reste, soutenue_append hmuet hsoutenue, hpos⟩
      | used =>
          simp only [hstatus] at hcompte ⊢
          obtain ⟨reste, hsoutenue, hpos⟩ := hcompte
          exact ⟨reste, soutenue_append hmuet hsoutenue, hpos⟩

theorem id_of_lire {t : File} {id : String} {e : PendingApproval} (h : t.lire id = some e) :
    e.id = id :=
  Table.cle_of_lire h

theorem inv_of_muet {s : Etat} (h : Inv hacher s) (hmuet : ∀ id, Muet q id) :
    Inv hacher { file := s.file, journal := s.journal ++ [q] } := by
  intro id
  exact fidele_append (hmuet id) (fun _ he => id_of_lire he) (h id)

theorem inv_recordPending {s : Etat} (h : Inv hacher s) (p : Plateforme) (horloge : Horloge)
    (uuid : String) (d : Demande) :
    Inv hacher (faire hacher s (.recordPending p horloge uuid d)) := by
  have hmuet : ∀ r id, Muet ⟨s.file, .recordPending p horloge uuid d, r⟩ id :=
    fun r id => ⟨rfl, rfl, rfl⟩
  have hcases := recordPending_cases hacher p horloge uuid s.file d
  show Inv hacher
    { file := (recordPending hacher p horloge uuid s.file d).1
      journal := s.journal ++ [⟨s.file, _, (recordPending hacher p horloge uuid s.file d).2⟩] }
  generalize recordPending hacher p horloge uuid s.file d = sortie at hcases ⊢
  rcases hcases with hsame | ⟨e, hid, hstatus, htype, hfingerprint, hins⟩
  · rw [hsame]
    exact inv_of_muet h (hmuet sortie.2)
  · intro id
    show Fidele hacher (s.journal ++ [_]) id (sortie.1.lire id)
    rw [Table.lire_inserer hins]
    by_cases hnew : id = e.id
    · subst hnew
      rw [if_pos rfl]
      have hvierge := h e.id
      rw [(Table.inserer_eq_some hins).1] at hvierge
      obtain ⟨happ, href, haut⟩ := (hmuet sortie.2 e.id).comptes s.journal
      constructor
      · exact ⟨_, List.mem_append_right _ (List.mem_singleton_self _), p, d.action,
          ⟨horloge, d, by rw [hid], rfl⟩, hfingerprint, htype⟩
      · unfold Compte
        simp only [hstatus]
        exact ⟨happ.trans hvierge.1, href.trans hvierge.2.1, haut.trans hvierge.2.2⟩
    · rw [if_neg hnew]
      exact fidele_append (hmuet _ id) (fun _ he => id_of_lire he) (h id)

theorem tranche_entree (t : File) (p : Plateforme) (horloge : Horloge) (approvalId id : String)
    (d : Decision) (e : PendingApproval) (oui : Bool) :
    Pas.tranche ⟨t, .decide p horloge approvalId d, .entree (some e)⟩ id oui =
      (approvalId = id && d.approved = oui && enAttente t id) :=
  rfl

theorem muet_of_decide {t : File} {p : Plateforme} {horloge : Horloge} {approvalId id : String}
    {d : Decision} {r : Reponse} (h : id ≠ approvalId ∨ enAttente t approvalId = false ∨
      ∃ err, r = .erreur err) :
    Muet ⟨t, .decide p horloge approvalId d, r⟩ id := by
  cases r with
  | erreur err => exact ⟨rfl, rfl, rfl⟩
  | entree o =>
      cases o with
      | none => exact ⟨rfl, rfl, rfl⟩
      | some e =>
          have hsilence : ∀ oui, Pas.tranche
              ⟨t, .decide p horloge approvalId d, .entree (some e)⟩ id oui = false := by
            intro oui
            rw [tranche_entree]
            rcases h with hne | hattente | ⟨err, herr⟩
            · simp [Ne.symm hne]
            · by_cases hid : approvalId = id
              · simp [← hid, hattente]
              · simp [hid]
            · cases herr
          exact ⟨hsilence true, hsilence false, rfl⟩

theorem enAttente_iff {t : File} {id : String} :
    enAttente t id = true ↔ (t.lire id).map PendingApproval.status = some .pending := by
  unfold enAttente
  cases t.lire id <;> simp

theorem inv_decide {s : Etat} (h : Inv hacher s) (p : Plateforme) (horloge : Horloge)
    (approvalId : String) (d : Decision) :
    Inv hacher (faire hacher s (.decide p horloge approvalId d)) := by
  rcases decide_cases p horloge s.file approvalId d with
    ⟨hsame, hraison⟩ | ⟨e, e', he, hpending, htranche, heq⟩
  · show Inv hacher { file := (decide p horloge s.file approvalId d).1, journal := _ }
    rw [hsame]
    apply inv_of_muet h
    intro id
    apply muet_of_decide
    rcases hraison with hstatus | herr
    · exact Or.inr (Or.inl (Bool.eq_false_iff.mpr fun hattente =>
        hstatus (enAttente_iff.mp hattente)))
    · exact Or.inr (Or.inr herr)
  · intro id
    show Fidele hacher
      (s.journal ++ [⟨s.file, _, (decide p horloge s.file approvalId d).2⟩]) id
      ((decide p horloge s.file approvalId d).1.lire id)
    have hid : e.id = approvalId := id_of_lire he
    have hattente : enAttente s.file e.id = true := by
      rw [enAttente_iff, hid, he]
      simp [hpending]
    have hvierge := h e.id
    rw [hid, he] at hvierge
    obtain ⟨hdepot, hcompte⟩ := hvierge
    unfold Compte at hcompte
    simp only [hpending] at hcompte
    obtain ⟨happ, href, haut⟩ := hcompte
    subst hid
    rw [heq]
    cases houi : d.approved with
    | true =>
        obtain ⟨hid', hstatus', hfp, htype, husages, hbudget, hexpire, hportee⟩ :=
          trancher_approuve htranche houi
        rw [Table.lire_remplacer, hid']
        by_cases hmeme : id = e.id
        · subst hmeme
          rw [if_pos rfl, he]
          constructor
          · exact depot_append (depot_congr hid' hfp htype hdepot)
          · unfold Compte
            simp only [hstatus']
            refine ⟨d.budget, ⟨?_, ?_, _, List.mem_append_right _ (List.mem_singleton_self _),
              p, d, e', ⟨⟨horloge, by rw [hid']⟩, rfl, houi, by rw [hid']; exact hattente⟩, rfl,
              hexpire, husages, hportee, husages, ?_⟩, by omega⟩
            · rw [hid', approbations_append, tranche_entree, happ, hattente, houi]
              simp
            · rw [hid', refus_append, tranche_entree, href, houi]
              simp
            · rw [hid', autorisations_append, haut]
              simp [Pas.autorise]
        · rw [if_neg hmeme]
          exact fidele_append (muet_of_decide (Or.inl hmeme)) (fun _ he => id_of_lire he) (h id)
    | false =>
        obtain ⟨hid', hstatus', hfp, htype⟩ := trancher_refuse htranche houi
        rw [Table.lire_remplacer, hid']
        by_cases hmeme : id = e.id
        · subst hmeme
          rw [if_pos rfl, he]
          constructor
          · exact depot_append (depot_congr hid' hfp htype hdepot)
          · unfold Compte
            simp only [hstatus']
            constructor
            · rw [hid', approbations_append, tranche_entree, happ, houi]
              simp
            · rw [hid', autorisations_append, haut]
              simp [Pas.autorise]
        · rw [if_neg hmeme]
          exact fidele_append (muet_of_decide (Or.inl hmeme)) (fun _ he => id_of_lire he) (h id)

theorem muet_of_consume {t : File} {p : Plateforme} {horloge : Horloge} {a : Action}
    {id : String} {o : Option PendingApproval} (h : ∀ e, o = some e → id ≠ e.id) :
    Muet ⟨t, .consumeApproval p horloge a, .entree o⟩ id := by
  refine ⟨rfl, rfl, ?_⟩
  cases o with
  | none => rfl
  | some e => simp [Pas.autorise, Ne.symm (h e rfl)]

theorem autorise_consume {t : File} {p : Plateforme} {horloge : Horloge} {a : Action}
    {r : Reponse} {id : String}
    (h : Pas.autorise ⟨t, .consumeApproval p horloge a, r⟩ id = true) :
    ∃ e, r = .entree (some e) ∧ e.id = id := by
  cases r with
  | erreur err => cases h
  | entree o =>
      cases o with
      | none => cases h
      | some e => exact ⟨e, rfl, of_decide_eq_true h⟩

theorem compte_depenser {t : File} {p : Plateforme} {horloge : Horloge} {a : Action}
    {e : PendingApproval} {reste : Int} (hstatus : e.status = .approved)
    (h : Soutenue journal e reste) (hpos : 0 < reste) :
    Compte (journal ++ [⟨t, .consumeApproval p horloge a, .entree (some (depenser e))⟩])
      (depenser e) := by
  obtain ⟨hun, hzero, r, hr, p₀, d, e₀, haccord, hexpire, hsome, haccorde, hportee, husages,
    hbudget⟩ := h
  have hsoutenue : Soutenue
      (journal ++ [⟨t, .consumeApproval p horloge a, .entree (some (depenser e))⟩])
      (depenser e) (reste - 1) := by
    refine ⟨?_, ?_, r, List.mem_append_left _ hr, p₀, d, e₀, haccord, hexpire, hsome, haccorde,
      hportee, ?_, ?_⟩
    · rw [approbations_append]
      exact hun
    · rw [refus_append]
      exact hzero
    · show e.usagesRestants.map (fun n => n - 1) = some (reste - 1)
      rw [husages]
      rfl
    · rw [autorisations_append]
      have hsien : Pas.autorise
          ⟨t, .consumeApproval p horloge a, .entree (some (depenser e))⟩ (depenser e).id =
            true := by
        simp [Pas.autorise]
      rw [hsien]
      have hbudget' : (autorisations journal (depenser e).id : Int) + reste = d.budget := hbudget
      push_cast
      simp only [if_true]
      omega
  have hstatut : (depenser e).status = if reste - 1 ≤ 0 then .used else .approved := by
    unfold depenser
    simp [husages, hstatus]
  unfold Compte
  by_cases hfin : reste - 1 ≤ 0
  · rw [if_pos hfin] at hstatut
    simp only [hstatut]
    exact ⟨reste - 1, hsoutenue, by omega⟩
  · rw [if_neg hfin] at hstatut
    simp only [hstatut]
    exact ⟨reste - 1, hsoutenue, by omega⟩

theorem inv_consumeApproval {s : Etat} (h : Inv hacher s) (p : Plateforme) (horloge : Horloge)
    (a : Action) : Inv hacher (faire hacher s (.consumeApproval p horloge a)) := by
  show Inv hacher
    { file := (consumeApproval hacher p horloge s.file a).1
      journal := s.journal ++ [⟨s.file, _, (consumeApproval hacher p horloge s.file a).2⟩] }
  unfold consumeApproval
  cases htrouve : trouver hacher p horloge s.file a with
  | none =>
      apply inv_of_muet h
      intro id
      exact muet_of_consume fun e he => by cases he
  | some e =>
      obtain ⟨hligne, hstatus, _, _⟩ := trouver_spec htrouve
      have hlire : s.file.lire e.id = some e := Table.lire_of_mem hligne
      intro id
      show Fidele hacher (s.journal ++ [_]) id ((s.file.remplacer (depenser e)).lire id)
      rw [Table.lire_remplacer]
      by_cases hid : id = (depenser e).id
      · have hid' : id = e.id := hid
        subst hid'
        rw [if_pos hid, hlire]
        have hfidele := h e.id
        rw [hlire] at hfidele
        obtain ⟨hdepot, hcompte⟩ := hfidele
        unfold Compte at hcompte
        simp only [hstatus] at hcompte
        obtain ⟨reste, hsoutenue, hpos⟩ := hcompte
        exact ⟨depot_append (depot_congr rfl rfl rfl hdepot),
          compte_depenser hstatus hsoutenue hpos⟩
      · rw [if_neg hid]
        apply fidele_append _ (fun _ he => id_of_lire he) (h id)
        apply muet_of_consume
        intro e' he'
        cases he'
        exact hid

theorem inv_faire {s : Etat} (h : Inv hacher s) (a : Appel) : Inv hacher (faire hacher s a) := by
  cases a with
  | recordPending p horloge uuid d => exact inv_recordPending h p horloge uuid d
  | decide p horloge approvalId d => exact inv_decide h p horloge approvalId d
  | consumeApproval p horloge a => exact inv_consumeApproval h p horloge a

theorem inv_histoire (hacher : String → String) (appels : List Appel) :
    Inv hacher (histoire hacher appels) := by
  have hfold : ∀ (s : Etat), Inv hacher s → Inv hacher (appels.foldl (faire hacher) s) := by
    induction appels with
    | nil => exact fun s h => h
    | cons a appels ih => exact fun s h => ih _ (inv_faire h a)
  apply hfold
  intro id
  exact ⟨rfl, rfl, rfl⟩

/-- The action is the one that was queued as the entry. -/
def MemeAction (hacher : String → String) (journal : List Pas) (e : PendingApproval)
    (p : Plateforme) (a : Action) : Prop :=
  fingerprintFor hacher p a = e.fingerprint ∧
    ∃ q ∈ journal, ∃ p₁ a₁, Depot hacher p₁ a₁ e q ∧
      identite p a.actionType a.targetPath a.discriminants =
        identite p₁ a₁.actionType a₁.targetPath a₁.discriminants

/-- The action has the type of the entry and its path lies under the root approved by the
decision `d`, canonical as the platform `p₀` of that call made it. -/
def SousLaPortee (e : PendingApproval) (p₀ : Plateforme) (d : Decision) (p : Plateforme)
    (a : Action) : Prop :=
  a.actionType = e.actionType ∧ d.portee = PORTEE_ARBORESCENCE ∧
    ∃ cible, a.targetPath = some cible ∧
      SousLaRacine p (canoniserChemin p₀ d.porteeRacine) cible

/-- What stands behind the use of the entry `e` for the action `a`: the entry is approved,
by one answer given while it was pending and never a refusal, the call comes within the
delay fixed then, a use is left, and the action is the approved one or lies in the
approved scope. -/
structure Consentie (hacher : String → String) (s : Etat) (e : PendingApproval)
    (p : Plateforme) (horloge : Horloge) (a : Action) : Prop where
  presente : s.file.lire e.id = some e
  approuvee : e.status = .approved
  approuveeUneFois : approbations s.journal e.id = 1
  jamaisRefusee : refus s.journal e.id = 0
  accord : ∃ q ∈ s.journal, ∃ p₀ d e₀, Accord e.id p₀ d e₀ q ∧
    (∃ x, e₀.expiresAt = some x ∧ horloge.lire 0 ≤ x) ∧
    e₀.usagesRestants = some d.budget ∧ (autorisations s.journal e.id : Int) < d.budget ∧
    (MemeAction hacher s.journal e p a ∨ SousLaPortee e p₀ d p a)

theorem consentie_of_trouver {s : Etat} (h : Inv hacher s) (hinj : Function.Injective hacher)
    {p : Plateforme} {horloge : Horloge} {a : Action} {e : PendingApproval}
    (htrouve : trouver hacher p horloge s.file a = some e) :
    Consentie hacher s e p horloge a := by
  obtain ⟨hligne, hstatus, ⟨n, hvivante⟩, haction⟩ := trouver_spec htrouve
  have hlire : s.file.lire e.id = some e := Table.lire_of_mem hligne
  have hfidele := h e.id
  rw [hlire] at hfidele
  obtain ⟨⟨r, hr, p₁, a₁, hdepot⟩, hcompte⟩ := hfidele
  unfold Compte at hcompte
  simp only [hstatus] at hcompte
  obtain ⟨reste, ⟨hun, hzero, q, hq, p₀, d, e₀, haccord, hexpire, hsome, haccorde, hportee,
    husages, hbudget⟩, hpos⟩ := hcompte
  refine ⟨hlire, hstatus, hun, hzero, q, hq, p₀, d, e₀, haccord, ?_, haccorde, by omega, ?_⟩
  · obtain ⟨x, hx⟩ := Option.isSome_iff_exists.mp hsome
    have hdelai := (vivante_iff.mp hvivante).1 x (hexpire.trans hx)
    exact ⟨x, hx, le_trans (horloge.croissante (Nat.zero_le n)) hdelai⟩
  · rcases haction with hmeme | ⟨htype, hscope, racine, cible, hracine, hcible, hcouvre⟩
    · left
      refine ⟨hmeme.symm, r, hr, p₁, a₁, hdepot, ?_⟩
      apply hinj
      exact hmeme.symm.trans hdepot.2.1
    · right
      obtain ⟨hd, hracine'⟩ := hportee hscope
      rw [hracine] at hracine'
      cases hracine'
      exact ⟨htype.symm, hd, cible, hcible, sousLaRacine_of_couvre hcouvre⟩

theorem autorisations_le {s : Etat} (h : Inv hacher s) {id : String}
    (hpos : 0 < autorisations s.journal id) :
    approbations s.journal id = 1 ∧
      ∃ q ∈ s.journal, ∃ p d e₀, Accord id p d e₀ q ∧
        (autorisations s.journal id : Int) ≤ d.budget := by
  have hfidele := h id
  cases hlire : s.file.lire id with
  | none =>
      rw [hlire] at hfidele
      have := hfidele.2.2
      omega
  | some e =>
      have hid : e.id = id := id_of_lire hlire
      subst hid
      rw [hlire] at hfidele
      obtain ⟨_, hcompte⟩ := hfidele
      have hborne : ∀ reste, Soutenue s.journal e reste → 0 ≤ reste →
          approbations s.journal e.id = 1 ∧ ∃ q ∈ s.journal, ∃ p d e₀, Accord e.id p d e₀ q ∧
            (autorisations s.journal e.id : Int) ≤ d.budget := by
        intro reste hsoutenue hreste
        obtain ⟨hun, _, q, hq, p, d, e₀, haccord, _, _, _, _, _, hbudget⟩ := hsoutenue
        exact ⟨hun, q, hq, p, d, e₀, haccord, by omega⟩
      unfold Compte at hcompte
      cases hstatus : e.status with
      | pending =>
          simp only [hstatus] at hcompte
          omega
      | refused =>
          simp only [hstatus] at hcompte
          omega
      | approved =>
          simp only [hstatus] at hcompte
          obtain ⟨reste, hsoutenue, hreste⟩ := hcompte
          exact hborne reste hsoutenue (by omega)
      | used =>
          simp only [hstatus] at hcompte
          obtain ⟨reste, hsoutenue, hreste⟩ := hcompte
          exact hborne reste hsoutenue hreste

/-- After every history that starts with an empty queue, a call that returns an entry
rests on one human consent, and an entry has authorised no more than it was granted. No
order between the clocks of two calls is needed. -/
theorem autorisation_consentie (hacher : String → String) (hinj : Function.Injective hacher)
    (appels : List Appel) :
    (∀ p horloge a e',
        (consumeApproval hacher p horloge (histoire hacher appels).file a).2 =
            .entree (some e') →
          ∃ e, e' = depenser e ∧ Consentie hacher (histoire hacher appels) e p horloge a) ∧
      ∀ id, 0 < autorisations (histoire hacher appels).journal id →
        approbations (histoire hacher appels).journal id = 1 ∧
          ∃ q ∈ (histoire hacher appels).journal, ∃ p d e₀, Accord id p d e₀ q ∧
            (autorisations (histoire hacher appels).journal id : Int) ≤ d.budget := by
  have hinv := inv_histoire hacher appels
  constructor
  · intro p horloge a e' hreponse
    unfold consumeApproval at hreponse
    cases htrouve : trouver hacher p horloge (histoire hacher appels).file a with
    | none =>
        rw [htrouve] at hreponse
        cases hreponse
    | some e =>
        rw [htrouve] at hreponse
        cases hreponse
        exact ⟨e, rfl, consentie_of_trouver hinv hinj htrouve⟩
  · intro id hpos
    exact autorisations_le hinv hpos

def ecriture (chemin : String) : Action :=
  { actionType := "file_write", targetPath := some chemin }

/-- A write refused and queued, then a scope of two uses granted for its directory, of
which one is spent. -/
def porteeAccordee : List Appel :=
  [.recordPending .posix (Horloge.figee 0) "a1"
      { action := ecriture "/p/src/x.py", reason := "autonomie trop basse" },
    .decide .posix (Horloge.figee 10) "a1"
      { approved := true, portee := PORTEE_ARBORESCENCE, porteeRacine := some "/p/src",
        usages := some 2 },
    .consumeApproval .posix (Horloge.figee 20) (ecriture "/p/src/y.py")]

/-- The last use of the scope is authorised, within the two that were granted. -/
theorem autorisation_consentie_porteeAccordee :
    (∃ e, e.id = "a1" ∧
      Consentie id (histoire id porteeAccordee) e .posix (Horloge.figee 30)
        (ecriture "/p/src/sous/z.py")) ∧
      ∃ q ∈ (histoire id porteeAccordee).journal, ∃ p d e₀, Accord "a1" p d e₀ q ∧
        (autorisations (histoire id porteeAccordee).journal "a1" : Int) ≤ d.budget := by
  have hsure := autorisation_consentie id Function.injective_id porteeAccordee
  have hautorise : Pas.autorise
      ⟨(histoire id porteeAccordee).file,
        .consumeApproval .posix (Horloge.figee 30) (ecriture "/p/src/sous/z.py"),
        (consumeApproval id .posix (Horloge.figee 30) (histoire id porteeAccordee).file
          (ecriture "/p/src/sous/z.py")).2⟩ "a1" = true := by
    decide +kernel
  obtain ⟨e', hreponse, hid⟩ := autorise_consume hautorise
  obtain ⟨e, rfl, hconsentie⟩ := hsure.1 _ _ _ _ hreponse
  exact ⟨⟨e, hid, hconsentie⟩, (hsure.2 "a1" (by decide +kernel)).2⟩

end Hermes.Approvals
