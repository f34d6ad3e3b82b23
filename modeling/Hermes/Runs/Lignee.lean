import Hermes.Lib.Ascendance
import Hermes.Runs.Registre
import Mathlib

/-! # The lineage of a run

A new attempt names its parent and counts one more than it, and no later call writes these two
columns.
-/

namespace Hermes.Registre

open Lib Ascendance

/-- `self.lire(courant.parent) if courant.parent else None`. -/
def parentDe (t : Registre) (courant : Run) : Option Run :=
  match courant.parent with
  | some p => if p = "" then none else (t.lire p).map Ligne.run
  | none => none

/-- The chain of the attempts, the first one first; `none` would be a loop without end. -/
def lignee (t : Registre) (identifiant : String) : Option (List Run) :=
  (remonter Run.identifiant (parentDe t) t.lignes.length []
    ((t.lire identifiant).map Ligne.run)).map List.reverse

/-- The lineage of a run: rows of the table, from a run without a parent to this one, each the
parent of the next and one attempt before it. -/
structure LigneeExacte (t : Registre) (r : Run) (chaine : List Run) : Prop where
  lignes : ∀ a ∈ chaine, a ∈ t.lignes.map Ligne.run
  origine : ∃ premier, chaine.head? = some premier ∧ premier.parent = none
  fin : chaine.getLast? = some r
  maillons : chaine.IsChain fun a b =>
    b.parent = some a.identifiant ∧ b.tentative = a.tentative + 1

/-- The walk from any run of the table stops and returns its lineage. -/
def LigneesExactes (t : Registre) : Prop :=
  ∀ identifiant l, t.lire identifiant = some l →
    ∃ chaine, t.lignee identifiant = some chaine ∧ LigneeExacte t l.run chaine

/-- The columns that a new attempt does not inherit, the identifier and the dates left out. -/
structure Acquis where
  statut : Statut
  cause : Option Cause
  raison : String
  modele : String
  fournisseur : String
  jetonsEntree : Int
  jetonsSortie : Int
  cout : Rat
  decision : String
  vramReserveeOctets : Option Int
  vramMachineDebutOctets : Option Int
  vramMachinePicOctets : Option Int
  exclusif : Option Bool
  deriving DecidableEq

def Run.acquis (r : Run) : Acquis where
  statut := r.statut
  cause := r.cause
  raison := r.raison
  modele := r.modele
  fournisseur := r.fournisseur
  jetonsEntree := r.jetonsEntree
  jetonsSortie := r.jetonsSortie
  cout := r.cout
  decision := r.decision
  vramReserveeOctets := r.vramReserveeOctets
  vramMachineDebutOctets := r.vramMachineDebutOctets
  vramMachinePicOctets := r.vramMachinePicOctets
  exclusif := r.exclusif

/-- What `ouvrir` would give these columns from the replacements alone, without any parent. -/
def acquisDe (remplacements : List Champ) : Acquis :=
  (ecrire { identifiant := "", creeLe := "" } remplacements).acquis

/-- The new attempt waits, owes these columns to the replacements alone, and its lineage is that
of its parent followed by itself. -/
structure RepriseFidele (t t' : Registre) (identifiant uuid : String)
    (remplacements : List Champ) : Prop where
  lignee : ∃ chaine nouveau, t.lignee identifiant = some chaine ∧
    t'.lignee identifiant = some chaine ∧ t'.lire uuid = some nouveau ∧
      t'.lignee uuid = some (chaine ++ [nouveau.run])
  acquis : (t'.lire uuid).map (fun l => l.run.acquis) = some (acquisDe remplacements)
  statut : (t'.lire uuid).map (fun l => l.run.statut) = some .enAttente

def Champ.statutPose : Champ → Option Statut
  | statut s => some s
  | _ => none

/-- The status among the replacements, if they give one. -/
def statutDemande (remplacements : List Champ) : Option Statut :=
  (remplacements.filterMap Champ.statutPose).getLast?

/-- The run resumed has a name, and no other status than `en_attente` is asked for. -/
def RepriseReglee (identifiant : String) (remplacements : List Champ) : Prop :=
  identifiant ≠ "" ∧ ∀ s, statutDemande remplacements = some s → s = .enAttente

def Appel.Regle : Appel → Prop
  | reprendre identifiant _ remplacements _ _ _ => RepriseReglee identifiant remplacements
  | _ => True

/-- A run is opened without a parent; only `reprendre` attaches one. -/
def Appel.SansParent : Appel → Prop
  | ouvrir _ _ _ champs => ∀ p, Champ.parent (some p) ∉ champs
  | _ => True

section Colonnes

variable {c : Champ} {r s : Run}

theorem acquis_poser_congr (h : r.acquis = s.acquis) : (c.poser r).acquis = (c.poser s).acquis := by
  simp only [Run.acquis, Acquis.mk.injEq] at h
  obtain ⟨h₁, h₂, h₃, h₄, h₅, h₆, h₇, h₈, h₉, h₁₀, h₁₁, h₁₂, h₁₃⟩ := h
  cases c <;> simp only [Champ.poser, Run.acquis, *]

theorem acquis_ecrire_congr (h : r.acquis = s.acquis) (champs : List Champ) :
    (ecrire r champs).acquis = (ecrire s champs).acquis := by
  induction champs generalizing r s with
  | nil => exact h
  | cons c champs ih => exact ih (acquis_poser_congr h)

theorem acquis_poser (h : c.nom ∉ JETABLES) : (c.poser r).acquis = r.acquis := by
  cases c with
  | statut | cause | raison | modele | fournisseur | jetonsEntree | jetonsSortie | cout
  | decision | vramReserveeOctets | vramMachineDebutOctets | vramMachinePicOctets | exclusif =>
      exact absurd (by simp [Champ.nom, JETABLES]) h
  | _ => rfl

theorem acquis_ecrire {champs : List Champ} (h : ∀ c ∈ champs, c.nom ∉ JETABLES) :
    (ecrire r champs).acquis = r.acquis := by
  induction champs generalizing r with
  | nil => rfl
  | cons c champs ih =>
      have hreste := ih (r := c.poser r) fun d hd => h d (List.mem_cons_of_mem _ hd)
      exact hreste.trans (acquis_poser (h c List.mem_cons_self))

theorem statut_poser (c : Champ) (r : Run) :
    (c.poser r).statut = c.statutPose.getD r.statut := by
  cases c <;> rfl

theorem statut_acquis (r : Run) : r.acquis.statut = r.statut := rfl

theorem statut_ecrire (champs : List Champ) (r : Run) :
    (ecrire r champs).statut = (statutDemande champs).getD r.statut := by
  induction champs generalizing r with
  | nil => rfl
  | cons c champs ih =>
      show (ecrire (c.poser r) champs).statut = _
      rw [ih, statut_poser, statutDemande, statutDemande, List.filterMap_cons]
      cases c.statutPose with
      | none => rfl
      | some s =>
          dsimp only
          rw [List.getLast?_cons]
          cases (champs.filterMap Champ.statutPose).getLast? <;> rfl

end Colonnes

structure Maillon where
  identifiant : String
  parent : Option String
  tentative : Int
  deriving DecidableEq

def Run.maillon (r : Run) : Maillon := ⟨r.identifiant, r.parent, r.tentative⟩

/-- The columns of the descent, which only an insertion writes. -/
def DESCENDANCE : List String := ["parent", "tentative"]

/-- The two tables hold the same runs with the same descent. -/
def MemeDescendance (t t' : Registre) : Prop :=
  ∀ k, (t'.lire k).map (fun l => l.run.maillon) = (t.lire k).map fun l => l.run.maillon

section Descendance

variable {t t' : Registre} {r : Run}

theorem maillon_poser {c : Champ} (h : c.nom ∉ DESCENDANCE) :
    (c.poser r).maillon = r.maillon := by
  cases c with
  | parent | tentative => exact absurd (by simp [Champ.nom, DESCENDANCE]) h
  | _ => rfl

theorem maillon_ecrire {champs : List Champ} (h : ∀ c ∈ champs, c.nom ∉ DESCENDANCE) :
    (ecrire r champs).maillon = r.maillon := by
  induction champs generalizing r with
  | nil => rfl
  | cons c champs ih =>
      have hreste := ih (r := c.poser r) fun d hd => h d (List.mem_cons_of_mem _ hd)
      exact hreste.trans (maillon_poser (h c List.mem_cons_self))

theorem nom_fige (c : Champ) : (fige r c).nom = c.nom := by
  unfold fige
  split
  · cases c <;> rfl
  · rfl

theorem maillon_affecter {champs : List Champ} (h : ∀ c ∈ champs, c.nom ∉ DESCENDANCE) :
    (affecter champs r).maillon = r.maillon := by
  apply maillon_ecrire
  intro d hd
  obtain ⟨c, hc, rfl⟩ := List.mem_map.mp hd
  rw [nom_fige]
  exact h c hc

theorem MemeDescendance.refl (t : Registre) : MemeDescendance t t := fun _ => rfl

theorem MemeDescendance.trans {t₁ t₂ t₃ : Registre} (h₁ : MemeDescendance t₁ t₂)
    (h₂ : MemeDescendance t₂ t₃) : MemeDescendance t₁ t₃ :=
  fun k => (h₂ k).trans (h₁ k)

theorem memeDescendance_changerSansStatut (identifiant : String) {extra : List Champ}
    (h : ∀ c ∈ extra, c.nom ∉ DESCENDANCE) :
    MemeDescendance t (t.changerSansStatut identifiant extra) := by
  intro k
  rw [lire_changerSansStatut]
  split
  · rw [Option.map_map]
    cases t.lire k with
    | none => rfl
    | some l => exact congrArg some (maillon_affecter h)
  · rfl

theorem memeDescendance_inscrire {permis : List String} {garde : Champ → Bool}
    {message : String → String} {identifiant : String} {champs : List Champ}
    (hpermis : ∀ n ∈ permis, n ∉ DESCENDANCE)
    (h : inscrire permis garde message t identifiant champs = .ok t') : MemeDescendance t t' := by
  unfold inscrire at h
  split at h
  · next hconnus =>
      split at h
      · cases h
        exact MemeDescendance.refl t
      · next c retenus hretenus =>
          cases h
          apply memeDescendance_changerSansStatut
          intro d hd
          rw [← hretenus] at hd
          have hnom := List.filter_eq_nil_iff.mp hconnus d.nom
            (List.mem_map_of_mem (List.mem_of_mem_filter hd))
          exact hpermis _ (by simpa using hnom)
  · cases h

theorem nom_extra (c : Cloture) (maintenant : String) :
    ∀ d ∈ c.extra maintenant, d.nom ∉ DESCENDANCE := by
  simp only [Cloture.extra, List.forall_mem_append]
  refine ⟨⟨⟨⟨⟨?_, ?_⟩, ?_⟩, ?_⟩, ?_⟩, ?_⟩
  · simp [Champ.nom, DESCENDANCE]
  · split <;> simp [Champ.nom, DESCENDANCE]
  · split <;> simp [Champ.nom, DESCENDANCE]
  · split <;> simp [Champ.nom, DESCENDANCE]
  · split <;> simp [Champ.nom, DESCENDANCE]
  · split <;> simp [Champ.nom, DESCENDANCE]

theorem memeDescendance_terminer (identifiant : String) (statut : Statut) (c : Cloture)
    (maintenant : String) : MemeDescendance t (t.terminer identifiant statut c maintenant) := by
  apply memeDescendance_changerSansStatut
  exact List.forall_mem_cons.mpr ⟨by simp [Champ.nom, DESCENDANCE], nom_extra c maintenant⟩

theorem memeDescendance_examiner (machine : Machine) (acc : Registre × Bilan) (r : Run) :
    MemeDescendance acc.1 (examiner machine acc r).1 := by
  unfold examiner
  dsimp only
  split
  · exact MemeDescendance.refl _
  · split
    · exact MemeDescendance.refl _
    · split
      · exact MemeDescendance.refl _
      · exact MemeDescendance.refl _
      · exact memeDescendance_terminer _ _ _ _

theorem memeDescendance_reconcilier (machine : Machine) :
    MemeDescendance t (t.reconcilier machine).1 := by
  have hfold : ∀ (candidats : List Run) (acc : Registre × Bilan),
      MemeDescendance acc.1 (candidats.foldl (examiner machine) acc).1 := by
    intro candidats
    induction candidats with
    | nil => exact fun acc => MemeDescendance.refl acc.1
    | cons run candidats ih =>
        intro acc
        exact (memeDescendance_examiner machine acc run).trans (ih _)
  exact hfold (nonTermines t) (t, {})

end Descendance

/-- Every parent is a named row of the table, one attempt before its child. -/
def Enracine (t : Registre) : Prop :=
  ∀ k l p, t.lire k = some l → l.run.parent = some p →
    p ≠ "" ∧ ∃ lp, t.lire p = some lp ∧ l.run.tentative = lp.run.tentative + 1

section Tables

variable {t t' : Registre}

theorem enracine_vide : Enracine Table.vide := fun _ _ _ h => nomatch h

theorem lire_of_inserer {l : Ligne} (hins : Table.inserer t l = some t') {k : String}
    {lk : Ligne} (hk : t.lire k = some lk) : t'.lire k = some lk :=
  (Table.figeSous_inserer hins : Table.FigeSous (fun _ => True) t t') k lk hk trivial

theorem Enracine.transport (h : Enracine t) (hmeme : MemeDescendance t t') : Enracine t' := by
  have hancienne : ∀ k l', t'.lire k = some l' →
      ∃ l, t.lire k = some l ∧ l.run.maillon = l'.run.maillon := by
    intro k l' hl'
    have hk := hmeme k
    rw [hl', Option.map_some] at hk
    exact Option.map_eq_some_iff.mp hk.symm
  have hnouvelle : ∀ k l, t.lire k = some l →
      ∃ l', t'.lire k = some l' ∧ l'.run.maillon = l.run.maillon := by
    intro k l hl
    have hk := hmeme k
    rw [hl, Option.map_some] at hk
    exact Option.map_eq_some_iff.mp hk
  intro k l' p hl' hparent'
  obtain ⟨l, hl, hmaillon⟩ := hancienne k l' hl'
  obtain ⟨-, hparent, htentative⟩ := Maillon.mk.injEq .. ▸ hmaillon
  obtain ⟨hnom, lp, hlp, hsuite⟩ := h k l p hl (hparent.trans hparent')
  obtain ⟨lp', hlp', hmaillonp⟩ := hnouvelle p lp hlp
  obtain ⟨-, -, htentativep⟩ := Maillon.mk.injEq .. ▸ hmaillonp
  exact ⟨hnom, lp', hlp', by omega⟩

theorem Enracine.inserer (h : Enracine t) {l : Ligne} (hins : Table.inserer t l = some t')
    (hparent : ∀ p, l.run.parent = some p →
      p ≠ "" ∧ ∃ lp, t.lire p = some lp ∧ l.run.tentative = lp.run.tentative + 1) :
    Enracine t' := by
  intro k lk p hlk hp
  rw [Table.lire_inserer hins] at hlk
  split at hlk
  · cases hlk
    obtain ⟨hnom, lp, hlp, hsuite⟩ := hparent p hp
    exact ⟨hnom, lp, lire_of_inserer hins hlp, hsuite⟩
  · obtain ⟨hnom, lp, hlp, hsuite⟩ := h k lk p hlk hp
    exact ⟨hnom, lp, lire_of_inserer hins hlp, hsuite⟩

theorem parent_ecrire_none {champs : List Champ} (h : ∀ p, Champ.parent (some p) ∉ champs)
    {r : Run} (hr : r.parent = none) : (ecrire r champs).parent = none := by
  induction champs generalizing r with
  | nil => exact hr
  | cons c champs ih =>
      refine ih (fun p hp => h p (List.mem_cons_of_mem _ hp)) ?_
      cases c with
      | parent v =>
          cases v with
          | none => rfl
          | some p => exact absurd List.mem_cons_self (h p)
      | _ => exact hr

/-- The row that `reprendre` inserts. -/
def nouvelle (parent : Run) (motif : String) (remplacements : List Champ)
    (uuid maintenant processus : String) : Ligne where
  run := ecrire { identifiant := uuid, creeLe := maintenant }
    (champsDeReprise parent motif remplacements)
  processus := some processus

section Nouvelle

variable (parent : Run) (motif : String) (remplacements : List Champ)
  (uuid maintenant processus : String)

theorem identifiant_nouvelle :
    (nouvelle parent motif remplacements uuid maintenant processus).run.identifiant = uuid :=
  ecrire_identifiant _ _

theorem parent_nouvelle :
    (nouvelle parent motif remplacements uuid maintenant processus).run.parent =
      some parent.identifiant := by
  rw [nouvelle, champsDeReprise, ecrire_append]
  rfl

theorem tentative_nouvelle :
    (nouvelle parent motif remplacements uuid maintenant processus).run.tentative =
      parent.tentative + 1 := by
  rw [nouvelle, champsDeReprise, ecrire_append]
  rfl

theorem acquis_nouvelle :
    (nouvelle parent motif remplacements uuid maintenant processus).run.acquis =
      acquisDe remplacements := by
  have hherites : ∀ c ∈ parent.champs.filter (fun c => c.nom ∉ JETABLES), c.nom ∉ JETABLES :=
    fun c hc => by simpa using (List.mem_filter.mp hc).2
  have hfin : ∀ r : Run, (ecrire r [.parent (some parent.identifiant),
      .tentative (parent.tentative + 1), .motifDeReprise motif]).acquis = r.acquis :=
    fun r => acquis_ecrire (by simp [Champ.nom, JETABLES])
  rw [nouvelle, champsDeReprise, ecrire_append, ecrire_append]
  rw [hfin]
  have hseuls : ∀ r : Run, r.acquis = ({ identifiant := "", creeLe := "" } : Run).acquis →
      (ecrire r remplacements).acquis = acquisDe remplacements :=
    fun r hr => acquis_ecrire_congr hr remplacements
  exact hseuls _ (acquis_ecrire hherites)

theorem statut_nouvelle :
    (nouvelle parent motif remplacements uuid maintenant processus).run.statut =
      (statutDemande remplacements).getD .enAttente := by
  rw [← statut_acquis, acquis_nouvelle, acquisDe, statut_acquis, statut_ecrire]

end Nouvelle

theorem reprendre_inserer {identifiant motif uuid maintenant processus : String}
    {remplacements : List Champ}
    (h : t.reprendre identifiant motif remplacements uuid maintenant processus = .ok t') :
    ∃ lp, t.lire identifiant = some lp ∧
      Table.inserer t (nouvelle lp.run motif remplacements uuid maintenant processus) =
        some t' := by
  unfold reprendre at h
  split at h
  · cases h
  · split at h
    · cases h
    · next lp hlp => exact ⟨lp, hlp, inserer_ok h⟩

theorem Enracine.reprendre (h : Enracine t) {identifiant motif uuid maintenant processus : String}
    {remplacements : List Champ} (hnom : identifiant ≠ "")
    (hrun : t.reprendre identifiant motif remplacements uuid maintenant processus = .ok t') :
    Enracine t' := by
  obtain ⟨lp, hlp, hins⟩ := reprendre_inserer hrun
  have hcle := Table.cle_of_lire hlp
  refine h.inserer hins fun p hp => ?_
  rw [parent_nouvelle, hcle] at hp
  cases hp
  exact ⟨hnom, lp, hlp, tentative_nouvelle lp.run motif remplacements uuid maintenant processus⟩

theorem Enracine.appeler (h : Enracine t) {a : Appel} (hsans : a.SansParent) (hregle : a.Regle) :
    Enracine (appeler t a) := by
  cases hrun : a.executer t with
  | error e =>
      rw [appeler_of_error hrun]
      exact h
  | ok t' =>
      rw [appeler_of_ok hrun]
      cases a with
      | ouvrir identifiant maintenant processus champs =>
          refine h.inserer (inserer_ok hrun) fun p hp => ?_
          have hnone := parent_ecrire_none hsans
            (r := { identifiant := identifiant, creeLe := maintenant }) rfl
          rw [hnone] at hp
          cases hp
      | demarrer identifiant maintenant =>
          cases hrun
          exact h.transport (memeDescendance_changerSansStatut identifiant
            (by simp [Champ.nom, DESCENDANCE]))
      | terminer identifiant statut c maintenant =>
          cases hrun
          exact h.transport (memeDescendance_terminer identifiant statut c maintenant)
      | constater identifiant faits =>
          exact h.transport (memeDescendance_inscrire (by decide) hrun)
      | mesurer identifiant mesures =>
          exact h.transport (memeDescendance_inscrire (by decide) hrun)
      | reprendre identifiant motif remplacements uuid maintenant processus =>
          exact h.reprendre hregle.1 hrun
      | reconcilier machine =>
          cases hrun
          exact h.transport (memeDescendance_reconcilier machine)

theorem enracine_histoire {appels : List Appel} (hsans : ∀ a ∈ appels, a.SansParent)
    (hregle : ∀ a ∈ appels, a.Regle) (h : Enracine t) : Enracine (histoire t appels) := by
  induction appels generalizing t with
  | nil => exact h
  | cons a appels ih =>
      obtain ⟨hsans, hsansReste⟩ := List.forall_mem_cons.mp hsans
      obtain ⟨hregle, hregleReste⟩ := List.forall_mem_cons.mp hregle
      exact ih hsansReste hregleReste (h.appeler hsans hregle)

end Tables

section Marche

variable {t t' : Registre}

theorem mem_runs {r : Run} :
    r ∈ t.lignes.map Ligne.run ↔ ∃ l, t.lire r.identifiant = some l ∧ l.run = r := by
  rw [List.mem_map]
  constructor
  · rintro ⟨l, hl, rfl⟩
    exact ⟨l, Table.lire_of_mem hl, rfl⟩
  · rintro ⟨l, hl, hrun⟩
    exact ⟨l, Table.mem_of_lire hl, hrun⟩

theorem Enracine.parentDe_eq_some (h : Enracine t) {r : Run} (hr : r ∈ t.lignes.map Ligne.run)
    {s : Run} (hs : parentDe t r = some s) :
    s ∈ t.lignes.map Ligne.run ∧ r.parent = some s.identifiant ∧
      r.tentative = s.tentative + 1 := by
  obtain ⟨l, hl, rfl⟩ := mem_runs.mp hr
  unfold parentDe at hs
  split at hs
  · next p hp =>
      obtain ⟨hnom, lp, hlp, hsuite⟩ := h _ l p hl hp
      rw [if_neg hnom, hlp] at hs
      cases hs
      have hcle := Table.cle_of_lire hlp
      exact ⟨List.mem_map_of_mem (Table.mem_of_lire hlp), by rw [hp, hcle], hsuite⟩
  · cases hs

theorem Enracine.parentDe_eq_none (h : Enracine t) {r : Run} (hr : r ∈ t.lignes.map Ligne.run)
    (hrien : parentDe t r = none) : r.parent = none := by
  obtain ⟨l, hl, rfl⟩ := mem_runs.mp hr
  cases hp : l.run.parent with
  | none => rfl
  | some p =>
      obtain ⟨hnom, lp, hlp, -⟩ := h _ l p hl hp
      simp only [parentDe, hp, if_neg hnom, hlp] at hrien
      cases hrien

theorem Enracine.classement (h : Enracine t) :
    Classement Run.identifiant (parentDe t) (t.lignes.map Ligne.run) Run.tentative where
  ferme x hx y hy := (h.parentDe_eq_some hx hy).1
  unique x hx y hy hcle := by
    obtain ⟨l, hl, rfl⟩ := mem_runs.mp hx
    obtain ⟨l', hl', rfl⟩ := mem_runs.mp hy
    rw [hcle, hl'] at hl
    cases hl
    rfl
  baisse x hx y hy := by
    have hsuite := (h.parentDe_eq_some hx hy).2.2
    omega

theorem Enracine.lignee (h : Enracine t) {identifiant : String} {l : Ligne}
    (hl : t.lire identifiant = some l) :
    ∃ montee, t.lignee identifiant = some montee.reverse ∧
      Montee (parentDe t) l.run montee := by
  have hmem : l.run ∈ t.lignes.map Ligne.run := List.mem_map_of_mem (Table.mem_of_lire hl)
  obtain ⟨montee, hrun, hmontee⟩ :=
    h.classement.exists_remonter (n := t.lignes.length) (by rw [List.length_map]) hmem
  refine ⟨montee, ?_, hmontee⟩
  rw [Registre.lignee, hl, Option.map_some, hrun]
  rfl

theorem Enracine.ligneeExacte (h : Enracine t) {r : Run} (hr : r ∈ t.lignes.map Ligne.run)
    {montee : List Run} (hmontee : Montee (parentDe t) r montee) :
    LigneeExacte t r montee.reverse := by
  have hlignes : ∀ a ∈ montee, a ∈ t.lignes.map Ligne.run :=
    hmontee.forall_mem hr fun x y hx hy => (h.parentDe_eq_some hx hy).1
  refine ⟨fun a ha => hlignes a (List.mem_reverse.mp ha), ?_, ?_, ?_⟩
  · obtain ⟨premier, hlast, hrien⟩ := hmontee.getLast?
    refine ⟨premier, by rw [List.head?_reverse, hlast], ?_⟩
    exact h.parentDe_eq_none (hlignes premier (List.mem_of_getLast? hlast)) hrien
  · rw [List.getLast?_reverse, hmontee.head?]
  · rw [List.isChain_reverse]
    exact hmontee.isChain hr fun x y hx hy => h.parentDe_eq_some hx hy

theorem Enracine.ligneesExactes (h : Enracine t) : LigneesExactes t := by
  intro identifiant l hl
  obtain ⟨montee, hlignee, hmontee⟩ := h.lignee hl
  exact ⟨montee.reverse, hlignee,
    h.ligneeExacte (List.mem_map_of_mem (Table.mem_of_lire hl)) hmontee⟩

theorem Enracine.parentDe_inserer (h : Enracine t) {l : Ligne}
    (hins : Table.inserer t l = some t') {r : Run} (hr : r ∈ t.lignes.map Ligne.run) :
    parentDe t' r = parentDe t r := by
  obtain ⟨lr, hlr, rfl⟩ := mem_runs.mp hr
  unfold parentDe
  cases hp : lr.run.parent with
  | none => rfl
  | some p =>
      obtain ⟨-, lp, hlp, -⟩ := h _ lr p hlr hp
      have hlp' : t'.lire p = some lp := lire_of_inserer hins hlp
      simp only [hlp, hlp']

section Reprise

variable {identifiant motif uuid maintenant processus : String} {remplacements : List Champ}

theorem lire_reprendre {lp : Ligne}
    (hins : Table.inserer t (nouvelle lp.run motif remplacements uuid maintenant processus) =
      some t') :
    t'.lire uuid = some (nouvelle lp.run motif remplacements uuid maintenant processus) := by
  rw [Table.lire_inserer hins, if_pos]
  exact (identifiant_nouvelle lp.run motif remplacements uuid maintenant processus).symm

theorem Enracine.lignee_reprendre (h : Enracine t) (hnom : identifiant ≠ "")
    (hrun : t.reprendre identifiant motif remplacements uuid maintenant processus = .ok t') :
    ∃ chaine nouveau, t.lignee identifiant = some chaine ∧
      t'.lignee identifiant = some chaine ∧ t'.lire uuid = some nouveau ∧
        t'.lignee uuid = some (chaine ++ [nouveau.run]) := by
  have h' := h.reprendre hnom hrun
  obtain ⟨lp, hlp, hins⟩ := reprendre_inserer hrun
  have hcle := Table.cle_of_lire hlp
  have hlp' : t'.lire identifiant = some lp := lire_of_inserer hins hlp
  obtain ⟨montee, hlignee, hmontee⟩ := h.lignee hlp
  obtain ⟨monteeApres, hligneeApres, hmonteeApres⟩ := h'.lignee hlp'
  have hlignes : ∀ a ∈ montee, a ∈ t.lignes.map Ligne.run :=
    hmontee.forall_mem (List.mem_map_of_mem (Table.mem_of_lire hlp))
      fun x y hx hy => (h.parentDe_eq_some hx hy).1
  have hmontee' : Montee (parentDe t') lp.run montee :=
    hmontee.congr fun x hx => h.parentDe_inserer hins (hlignes x hx)
  have hmeme : monteeApres = montee := hmonteeApres.unique hmontee'
  subst hmeme
  have hnouvelle := lire_reprendre hins
  have hdessus : parentDe t'
      (nouvelle lp.run motif remplacements uuid maintenant processus).run = some lp.run := by
    simp only [parentDe, parent_nouvelle, hcle, if_neg hnom, hlp', Option.map_some]
  obtain ⟨monteeNeuve, hligneeNeuve, hmonteeNeuve⟩ := h'.lignee hnouvelle
  have hneuve : monteeNeuve = _ := hmonteeNeuve.unique (.cran hdessus hmontee')
  refine ⟨_, _, hlignee, hligneeApres, hnouvelle, ?_⟩
  rw [hligneeNeuve, hneuve, List.reverse_cons]

theorem lignee_reprendre_sansNom
    (hrun : t.reprendre "" motif remplacements uuid maintenant processus = .ok t') :
    ∃ nouveau, t'.lire uuid = some nouveau ∧ t'.lignee uuid = some [nouveau.run] := by
  obtain ⟨lp, hlp, hins⟩ := reprendre_inserer hrun
  have hcle := Table.cle_of_lire hlp
  have hnouvelle := lire_reprendre hins
  have hdessus : parentDe t'
      (nouvelle lp.run motif remplacements uuid maintenant processus).run = none := by
    simp only [parentDe, parent_nouvelle, hcle, if_true]
  refine ⟨_, hnouvelle, ?_⟩
  rw [lignee, (Table.inserer_eq_some hins).2, List.length_append, hnouvelle]
  simp [remonter, hdessus]

theorem Enracine.repriseFidele_iff (h : Enracine t)
    (hrun : t.reprendre identifiant motif remplacements uuid maintenant processus = .ok t') :
    RepriseFidele t t' identifiant uuid remplacements ↔
      RepriseReglee identifiant remplacements := by
  obtain ⟨lp, hlp, hins⟩ := reprendre_inserer hrun
  have hnouvelle := lire_reprendre hins
  have hstatut : (t'.lire uuid).map (fun l => l.run.statut) =
      some ((statutDemande remplacements).getD .enAttente) := by
    rw [hnouvelle, Option.map_some, statut_nouvelle]
  constructor
  · intro hfidele
    constructor
    · rintro rfl
      obtain ⟨chaine, nouveau, hlignee, -, -, hsuite⟩ := hfidele.lignee
      obtain ⟨seul, -, hseul⟩ := lignee_reprendre_sansNom hrun
      obtain ⟨chaine', hlignee', hexacte⟩ := h.ligneesExactes "" lp hlp
      obtain ⟨premier, hpremier, -⟩ := hexacte.origine
      rw [hlignee] at hlignee'
      cases hlignee'
      rw [hseul, Option.some.injEq] at hsuite
      have hvide : chaine = [] := by
        have hlength := congrArg List.length hsuite
        simpa using hlength
      rw [hvide] at hpremier
      cases hpremier
    · intro s hs
      have hattente := hfidele.statut
      rw [hstatut, hs] at hattente
      exact Option.some.inj hattente
  · rintro ⟨hnom, hattente⟩
    refine ⟨h.lignee_reprendre hnom hrun, ?_, ?_⟩
    · rw [hnouvelle, Option.map_some, acquis_nouvelle]
    · rw [hstatut]
      cases hs : statutDemande remplacements with
      | none => rfl
      | some s => rw [hattente s hs, Option.getD_some]

end Reprise

end Marche

/-- Runs opened without a parent, resumed under their names without another status asked for:
every lineage is exact in every table reached, and whatever comes next, a new attempt is faithful
exactly under the same condition. -/
theorem lignees_exactes (appels : List Appel) (hsans : ∀ a ∈ appels, a.SansParent)
    (hregle : ∀ a ∈ appels, a.Regle) :
    LigneesExactes (histoire Table.vide appels) ∧
      ∀ identifiant motif remplacements uuid maintenant processus t',
        (histoire Table.vide appels).reprendre identifiant motif remplacements uuid maintenant
            processus = .ok t' →
          (RepriseFidele (histoire Table.vide appels) t' identifiant uuid remplacements ↔
            RepriseReglee identifiant remplacements) := by
  have henracine := enracine_histoire hsans hregle enracine_vide
  refine ⟨henracine.ligneesExactes, ?_⟩
  intro identifiant motif remplacements uuid maintenant processus t' hrun
  exact henracine.repriseFidele_iff hrun

/-- A run that failed, and two attempts after it. -/
def deuxReprises : List Appel :=
  [.ouvrir "r1" "t0" "7:1.0" [.mission "m1", .modele "petit"],
    .terminer "r1" .echoue { cause := some .modele, cout := some 2 } "t1",
    .reprendre "r1" "plus grand" [.modele "grand"] "r2" "t2" "7:1.0",
    .reprendre "r2" "encore" [] "r3" "t3" "7:1.0"]

theorem lignees_exactes_deuxReprises :
    LigneesExactes (histoire Table.vide deuxReprises) ∧
      ∀ t', (histoire Table.vide deuxReprises).reprendre "r3" "enfin" [] "r4" "t4" "7:1.0" =
          .ok t' →
        RepriseFidele (histoire Table.vide deuxReprises) t' "r3" "r4" [] := by
  have hsans : ∀ a ∈ deuxReprises, a.SansParent := by
    simp [deuxReprises, Appel.SansParent]
  have hregle : ∀ a ∈ deuxReprises, a.Regle := by
    simp [deuxReprises, Appel.Regle, RepriseReglee, statutDemande, Champ.statutPose]
  have hexactes := lignees_exactes deuxReprises hsans hregle
  refine ⟨hexactes.1, fun t' hrun => (hexactes.2 _ _ _ _ _ _ t' hrun).mpr ?_⟩
  exact ⟨by decide, by simp [statutDemande]⟩

/-- A run without a name and its new attempt; a run resumed as already started. -/
def reprisesIrregulieres : List Appel :=
  [.ouvrir "" "t0" "7:1.0" [], .reprendre "" "encore" [] "r2" "t1" "7:1.0",
    .reprendre "r2" "encore" [.statut .enCours] "r3" "t2" "7:1.0"]

/-- The lineage of the second run leaves its parent out, and the third is born running. -/
theorem reprisesIrregulieres_infideles :
    (∀ a ∈ reprisesIrregulieres, a.SansParent) ∧
      ¬ LigneesExactes (histoire Table.vide reprisesIrregulieres) ∧
        ((histoire Table.vide reprisesIrregulieres).lire "r3").map (fun l => l.run.statut) =
          some .enCours := by
  refine ⟨by simp [reprisesIrregulieres, Appel.SansParent], ?_, by decide⟩
  intro hexactes
  have hlire : ∃ l, (histoire Table.vide reprisesIrregulieres).lire "r2" = some l ∧
      l.run.parent = some "" ∧
        (histoire Table.vide reprisesIrregulieres).lignee "r2" = some [l.run] :=
    ⟨_, rfl, by decide, by decide⟩
  obtain ⟨l, hl, hparent, hlignee⟩ := hlire
  obtain ⟨chaine, hchaine, hexacte⟩ := hexactes "r2" l hl
  rw [hlignee] at hchaine
  cases hchaine
  obtain ⟨premier, hpremier, horigine⟩ := hexacte.origine
  cases hpremier
  rw [hparent] at horigine
  cases horigine

end Hermes.Registre
