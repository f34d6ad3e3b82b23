import Hermes.Lib.Nombre
import Hermes.Runs.Registre

/-! # Runs whose process is gone

A fingerprint names a process and the time it started at. The process table answers whether the
pid exists and when its process started, or raises.
-/

namespace Hermes.Registre

open Lib Flottant Nombre

inductive ErreurDeTable
  | noSuchProcess
  /-- Access refused, `/proc` missing and so on. -/
  | autre
  deriving DecidableEq

/-- What `psutil` answers; a start time is a finite float. -/
structure TableDesProcessus where
  importable : Bool := true
  pidExists : Int → Except ErreurDeTable Bool
  createTime : Int → Except ErreurDeTable Rat

def TOLERANCE_S : Rat := 1

/-- `empreinte.partition(":")`, when there is a colon. -/
def partition (empreinte : String) : Option (String × String) :=
  match couper (· = ':') empreinte.toList with
  | (_, none) => none
  | (tete, some queue) => some (String.ofList tete, String.ofList queue)

section Lecture

variable (u : Chiffres) (p : TableDesProcessus)

def comparer (naissance : Rat) (queue : String) : Option Bool :=
  if queue = "" then none
  else
    (lireFlottant u queue).map fun attendue =>
      Binaire.le (Binaire.soustraire (.fini naissance) attendue).abs (.fini TOLERANCE_S)

/-- From `psutil.pid_exists` on. -/
def consulter (pid : Int) (queue : String) : Option Bool :=
  match p.pidExists pid with
  | .error .noSuchProcess => some false
  | .error .autre => none
  | .ok false => some false
  | .ok true =>
      match p.createTime pid with
      | .error .noSuchProcess => some false
      | .error .autre => none
      | .ok naissance => comparer u naissance queue

def processusVivant (empreinte : String) : Option Bool :=
  match partition empreinte with
  | none => none
  | some (tete, queue) =>
      match lireEntier u tete with
      | none => none
      | some pid => if p.importable = false then none else consulter u p pid queue

/-- The machine that a reconciliation observes through the process table. -/
def machineDe (courante : String) (maintenant : String → String) : Machine where
  courante := courante
  processusVivant := processusVivant u p
  maintenant := maintenant

def pidInscrit (empreinte : String) : Option Int :=
  (partition empreinte).bind fun (tete, _) => lireEntier u tete

def dateInscrite (empreinte : String) : Option Binaire :=
  (partition empreinte).bind fun (_, queue) => if queue = "" then none else lireFlottant u queue

/-- The table says that the pid exists, and when its process started. -/
def Lisible (pid : Int) (naissance : Rat) : Prop :=
  p.pidExists pid = .ok true ∧ p.createTime pid = .ok naissance

/-- No process has this pid, or it vanished while it was looked at. -/
def Inexistant (pid : Int) : Prop :=
  p.pidExists pid = .ok false ∨ p.pidExists pid = .error .noSuchProcess ∨
    (p.pidExists pid = .ok true ∧ p.createTime pid = .error .noSuchProcess)

/-- A start further than the tolerance from the recorded date. -/
def Eloigne (naissance : Rat) : Binaire → Prop
  | .fini attendue => TOLERANCE_S < |naissance - attendue|
  | .infini _ => True
  | .nan => False

/-- The process that the fingerprint names is not there, or is another one. -/
def Parti (empreinte : String) : Prop :=
  ∃ pid, pidInscrit u empreinte = some pid ∧
    (Inexistant p pid ∨
      ∃ naissance date, Lisible p pid naissance ∧ dateInscrite u empreinte = some date ∧
        Eloigne naissance date)

/-- The pid of the fingerprint exists, its start is read, and the recorded date reads as a NaN. -/
def DateSansNombre (empreinte : String) : Prop :=
  p.importable = true ∧ dateInscrite u empreinte = some .nan ∧
    ∃ pid naissance, pidInscrit u empreinte = some pid ∧ Lisible p pid naissance

end Lecture

section Verdicts

variable {u : Chiffres} {p : TableDesProcessus} {empreinte : String}

theorem le_abs_soustraire {naissance attendue : Rat} (h : |naissance - attendue| ≤ TOLERANCE_S) :
    Binaire.le (Binaire.soustraire (.fini naissance) (.fini attendue)).abs
      (.fini TOLERANCE_S) = true := by
  have hun := abs_arrondir_le_one h
  have hfini : ¬ (2 : Rat) ^ 1024 ≤ |arrondir (naissance - attendue)| := by
    have hgrand : (1 : Rat) < 2 ^ 1024 := one_lt_pow₀ (by norm_num) (by norm_num)
    exact fun hle => absurd (hle.trans hun) (not_le.mpr hgrand)
  simp only [Binaire.soustraire, Binaire.proche, if_neg hfini, Binaire.abs, Binaire.le]
  exact decide_eq_true hun

theorem comparer_eq_false {naissance : Rat} {queue : String}
    (h : comparer u naissance queue = some false) :
    queue ≠ "" ∧ ∃ date, lireFlottant u queue = some date ∧
      (date = .nan ∨ Eloigne naissance date) := by
  unfold comparer at h
  split at h
  · cases h
  · next hqueue =>
      obtain ⟨date, hdate, hle⟩ := Option.map_eq_some_iff.mp h
      refine ⟨hqueue, date, hdate, ?_⟩
      cases date with
      | nan => exact .inl rfl
      | infini negatif => exact .inr trivial
      | fini attendue =>
          right
          by_contra hproche
          rw [le_abs_soustraire (not_lt.mp hproche)] at hle
          cases hle

theorem consulter_eq_false {pid : Int} {queue : String} (h : consulter u p pid queue = some false) :
    Inexistant p pid ∨
      ∃ naissance, Lisible p pid naissance ∧ comparer u naissance queue = some false := by
  unfold consulter at h
  cases hexiste : p.pidExists pid with
  | error e =>
      cases e with
      | noSuchProcess => exact .inl (.inr (.inl hexiste))
      | autre => simp [hexiste] at h
  | ok existe =>
      cases existe with
      | false => exact .inl (.inl hexiste)
      | true =>
          cases hnaissance : p.createTime pid with
          | error e =>
              cases e with
              | noSuchProcess => exact .inl (.inr (.inr ⟨hexiste, hnaissance⟩))
              | autre => simp [hexiste, hnaissance] at h
          | ok naissance =>
              simp only [hexiste, hnaissance] at h
              exact .inr ⟨naissance, ⟨hexiste, hnaissance⟩, h⟩

theorem consulter_of_lisible {pid : Int} {naissance : Rat} (h : Lisible p pid naissance)
    (queue : String) : consulter u p pid queue = comparer u naissance queue := by
  simp only [consulter, h.1, h.2]

theorem not_inexistant_of_lisible {pid : Int} {naissance : Rat} (h : Lisible p pid naissance) :
    ¬ Inexistant p pid := by
  simp [Inexistant, h.1, h.2]

theorem processusVivant_eq_some {b : Bool} :
    processusVivant u p empreinte = some b ↔
      ∃ tete queue pid, partition empreinte = some (tete, queue) ∧ lireEntier u tete = some pid ∧
        p.importable = true ∧ consulter u p pid queue = some b := by
  unfold processusVivant
  cases partition empreinte with
  | none => simp
  | some morceaux =>
      obtain ⟨tete, queue⟩ := morceaux
      cases hentier : lireEntier u tete with
      | none => simp [hentier]
      | some pid => cases himportable : p.importable <;> simp [hentier]

theorem pidInscrit_eq {tete queue : String} (h : partition empreinte = some (tete, queue)) :
    pidInscrit u empreinte = lireEntier u tete := by
  rw [pidInscrit, h, Option.bind_some]

theorem dateInscrite_eq {tete queue : String} (h : partition empreinte = some (tete, queue)) :
    dateInscrite u empreinte = if queue = "" then none else lireFlottant u queue := by
  rw [dateInscrite, h, Option.bind_some]

theorem processusVivant_eq_false (h : processusVivant u p empreinte = some false) :
    Parti u p empreinte ∨ DateSansNombre u p empreinte := by
  obtain ⟨tete, queue, pid, hpartition, hentier, himportable, hmort⟩ :=
    processusVivant_eq_some.mp h
  have hpid : pidInscrit u empreinte = some pid := (pidInscrit_eq hpartition).trans hentier
  rcases consulter_eq_false hmort with hinexistant | ⟨naissance, hlisible, hcomparaison⟩
  · exact .inl ⟨pid, hpid, .inl hinexistant⟩
  · obtain ⟨hqueue, date, hdate, hcas⟩ := comparer_eq_false hcomparaison
    have hinscrite : dateInscrite u empreinte = some date := by
      rw [dateInscrite_eq hpartition, if_neg hqueue, hdate]
    rcases hcas with rfl | heloigne
    · exact .inr ⟨himportable, hinscrite, pid, naissance, hpid, hlisible⟩
    · exact .inl ⟨pid, hpid, .inr ⟨naissance, date, hlisible, hinscrite, heloigne⟩⟩

theorem processusVivant_of_dateSansNombre (h : DateSansNombre u p empreinte) :
    processusVivant u p empreinte = some false := by
  obtain ⟨himportable, hdate, pid, naissance, hpid, hlisible⟩ := h
  cases hpartition : partition empreinte with
  | none =>
      rw [pidInscrit, hpartition] at hpid
      cases hpid
  | some morceaux =>
      obtain ⟨tete, queue⟩ := morceaux
      rw [pidInscrit_eq hpartition] at hpid
      rw [dateInscrite_eq hpartition] at hdate
      refine processusVivant_eq_some.mpr ⟨tete, queue, pid, hpartition, hpid, himportable, ?_⟩
      rw [consulter_of_lisible hlisible, comparer]
      split at hdate
      · cases hdate
      · next hqueue =>
          rw [if_neg hqueue, hdate]
          rfl

theorem not_parti_of_dateSansNombre (h : DateSansNombre u p empreinte) : ¬ Parti u p empreinte := by
  obtain ⟨-, hdate, pid, naissance, hpid, hlisible⟩ := h
  rintro ⟨pid', hpid', hcas⟩
  rw [hpid] at hpid'
  cases hpid'
  rcases hcas with hinexistant | ⟨naissance', date, -, hdate', heloigne⟩
  · exact not_inexistant_of_lisible hlisible hinexistant
  · rw [hdate] at hdate'
    cases hdate'
    exact heloigne

end Verdicts

/-- The runs that have not arrived, by identifier. -/
def enSuspens (t : Registre) : List String := (nonTermines t).map Run.identifiant

/-- A run whose process is looked at: it has not arrived, and its fingerprint is another one. -/
def Observee (t : Registre) (courante identifiant empreinte : String) : Prop :=
  identifiant ∈ enSuspens t ∧ processusDe t identifiant = some empreinte ∧ empreinte ≠ courante

structure ReconciliationFidele (u : Chiffres) (p : TableDesProcessus) (t : Registre)
    (courante : String) (maintenant : String → String) : Prop where
  partage :
    let bilan := (t.reconcilier (machineDe u p courante maintenant)).2
    (bilan.perdus ++ bilan.vivants ++ bilan.indecidables).Perm (enSuspens t)
  /-- A run takes the status `perdu` when it is listed so, and every other row stays as it is. -/
  marques :
    let (t', bilan) := t.reconcilier (machineDe u p courante maintenant)
    (∀ identifiant ∈ bilan.perdus,
        (t'.lire identifiant).map (fun l => l.run.statut) = some .perdu) ∧
      ∀ identifiant, identifiant ∉ bilan.perdus → t'.lire identifiant = t.lire identifiant
  /-- A run listed as lost was another process's, and that process is gone. -/
  preuves :
    ∀ identifiant ∈ (t.reconcilier (machineDe u p courante maintenant)).2.perdus,
      ∃ empreinte, Observee t courante identifiant empreinte ∧ Parti u p empreinte
  /-- A second call on the same process table, whatever the clock says, writes nothing. -/
  redite :
    ∀ plusTard,
      let t' := (t.reconcilier (machineDe u p courante maintenant)).1
      (t'.reconcilier (machineDe u p courante plusTard)).1 = t' ∧
        (t'.reconcilier (machineDe u p courante plusTard)).2.perdus = []

/-- No run of another process whose pid exists and whose start is read carries a date that reads as
a NaN. -/
def DatesNumeriques (u : Chiffres) (p : TableDesProcessus) (t : Registre) (courante : String) :
    Prop :=
  ∀ identifiant empreinte, Observee t courante identifiant empreinte →
    ¬ DateSansNombre u p empreinte

inductive Verdict
  | perdu (empreinte : String)
  | vivant
  | indecidable
  deriving DecidableEq

def verdict (machine : Machine) (t : Registre) (identifiant : String) : Verdict :=
  match processusDe t identifiant with
  | none => .indecidable
  | some empreinte =>
      if empreinte = machine.courante then .vivant
      else
        match machine.processusVivant empreinte with
        | some true => .vivant
        | none => .indecidable
        | some false => .perdu empreinte

def Verdict.estPerdu : Verdict → Bool
  | perdu _ => true
  | _ => false

section Candidats

variable {machine : Machine} {t : Registre} {bilan : Bilan} {run : Run} {identifiant : String}

def perdre (machine : Machine) (t : Registre) (identifiant empreinte : String) : Registre :=
  terminer t identifiant .perdu { cause := some .processus, raison := raisonDePerte empreinte }
    (machine.maintenant identifiant)

theorem examiner_eq :
    examiner machine (t, bilan) run =
      match verdict machine t run.identifiant with
      | .perdu empreinte =>
          (perdre machine t run.identifiant empreinte,
            { bilan with perdus := bilan.perdus ++ [run.identifiant] })
      | .vivant => (t, { bilan with vivants := bilan.vivants ++ [run.identifiant] })
      | .indecidable => (t, { bilan with indecidables := bilan.indecidables ++ [run.identifiant] }) := by
  simp only [examiner, verdict]
  cases hprocessus : processusDe t run.identifiant with
  | none => rfl
  | some empreinte =>
      by_cases hcourante : empreinte = machine.courante
      · simp only [if_pos hcourante]
      · simp only [if_neg hcourante]
        cases hvivant : machine.processusVivant empreinte with
        | none => rfl
        | some vivant => cases vivant <;> rfl

theorem verdict_eq_perdu {empreinte : String} :
    verdict machine t identifiant = .perdu empreinte ↔
      processusDe t identifiant = some empreinte ∧ empreinte ≠ machine.courante ∧
        machine.processusVivant empreinte = some false := by
  unfold verdict
  cases processusDe t identifiant with
  | none => simp
  | some e =>
      by_cases hcourante : e = machine.courante
      · simp only [if_pos hcourante, Option.some.injEq, reduceCtorEq, false_iff]
        rintro ⟨rfl, hne, -⟩
        exact hne hcourante
      · simp only [if_neg hcourante]
        cases hvivant : machine.processusVivant e with
        | none => grind
        | some vivant => cases vivant <;> grind

theorem processusDe_perdre (ferme empreinte : String) :
    processusDe (perdre machine t ferme empreinte) identifiant = processusDe t identifiant := by
  have hlire := lire_changerSansStatut t ferme
    (.statut .perdu :: Cloture.extra { cause := some .processus, raison := raisonDePerte empreinte }
      (machine.maintenant ferme)) identifiant
  unfold processusDe perdre terminer changer
  rw [hlire]
  split
  · cases t.lire identifiant <;> rfl
  · rfl

theorem lire_perdre_of_ne {ferme empreinte : String} (h : identifiant ≠ ferme) :
    (perdre machine t ferme empreinte).lire identifiant = t.lire identifiant := by
  unfold perdre terminer changer
  rw [lire_changerSansStatut, if_neg h]

theorem mem_enSuspens :
    identifiant ∈ enSuspens t ↔ ∃ l, t.lire identifiant = some l ∧ l.run.statut ∉ TERMINAUX := by
  unfold enSuspens nonTermines
  rw [List.mem_map]
  constructor
  · rintro ⟨run, hrun, rfl⟩
    obtain ⟨hmem, hstatut⟩ := List.mem_filter.mp hrun
    obtain ⟨l, hl, rfl⟩ := List.mem_map.mp hmem
    exact ⟨l, Table.lire_of_mem hl, by simpa using hstatut⟩
  · rintro ⟨l, hl, hstatut⟩
    have hcle := Table.cle_of_lire hl
    have hmem : l.run ∈ t.lignes.map Ligne.run := List.mem_map_of_mem (Table.mem_of_lire hl)
    exact ⟨l.run, List.mem_filter.mpr ⟨hmem, by simpa using hstatut⟩, hcle⟩

theorem nodup_enSuspens (t : Registre) : (enSuspens t).Nodup := by
  refine List.Nodup.sublist ?_ t.uniques
  unfold enSuspens nonTermines
  have hlignes : (t.lignes.map fun l => l.run.identifiant) =
      (t.lignes.map Ligne.run).map Run.identifiant := by
    rw [List.map_map]
    rfl
  rw [hlignes]
  exact List.filter_sublist.map _

theorem verdict_congr {machine' : Machine} {t' : Registre}
    (hprocessus : processusDe t' identifiant = processusDe t identifiant)
    (hcourante : machine'.courante = machine.courante)
    (hvivant : machine'.processusVivant = machine.processusVivant) :
    verdict machine' t' identifiant = verdict machine t identifiant := by
  unfold verdict
  rw [hprocessus, hcourante, hvivant]

end Candidats

section Passage

variable {machine : Machine} {t : Registre} {bilan : Bilan}

/-- The verdicts on the runs, in the order of the three lists. -/
def repartir (machine : Machine) (t : Registre) (identifiants : List String) : Bilan where
  perdus := identifiants.filter fun i => (verdict machine t i).estPerdu
  vivants := identifiants.filter fun i => verdict machine t i = .vivant
  indecidables := identifiants.filter fun i => verdict machine t i = .indecidable

theorem repartir_perdre (ferme empreinte : String) (identifiants : List String) :
    repartir machine (perdre machine t ferme empreinte) identifiants =
      repartir machine t identifiants := by
  have hverdict : ∀ i, verdict machine (perdre machine t ferme empreinte) i = verdict machine t i :=
    fun i => verdict_congr (processusDe_perdre ferme empreinte) rfl rfl
  simp only [repartir, hverdict]

theorem perdus_repartir {identifiant : String} {identifiants : List String} :
    identifiant ∈ (repartir machine t identifiants).perdus ↔
      identifiant ∈ identifiants ∧ ∃ empreinte, verdict machine t identifiant = .perdu empreinte := by
  rw [repartir, List.mem_filter]
  cases verdict machine t identifiant <;> simp [Verdict.estPerdu]

theorem perm_repartir (identifiants : List String) :
    ((repartir machine t identifiants).perdus ++ (repartir machine t identifiants).vivants ++
      (repartir machine t identifiants).indecidables).Perm identifiants := by
  induction identifiants with
  | nil => exact List.Perm.refl _
  | cons i identifiants ih =>
      unfold repartir at ih ⊢
      cases hverdict : verdict machine t i with
      | perdu empreinte =>
          simpa [List.filter_cons, hverdict, Verdict.estPerdu] using ih
      | vivant =>
          simp only [List.filter_cons, hverdict, Verdict.estPerdu, List.append_assoc] at ih ⊢
          exact List.perm_middle.trans (ih.cons i)
      | indecidable =>
          simp only [List.filter_cons, hverdict, Verdict.estPerdu] at ih ⊢
          exact List.perm_middle.trans (ih.cons i)

theorem bilan_foldl (candidats : List Run) (t : Registre) (bilan : Bilan) :
    let repartis := repartir machine t (candidats.map Run.identifiant)
    (candidats.foldl (examiner machine) (t, bilan)).2 =
      { perdus := bilan.perdus ++ repartis.perdus
        vivants := bilan.vivants ++ repartis.vivants
        indecidables := bilan.indecidables ++ repartis.indecidables } := by
  induction candidats generalizing t bilan with
  | nil => simp [repartir]
  | cons run candidats ih =>
      rw [List.foldl_cons, examiner_eq]
      cases hverdict : verdict machine t run.identifiant with
      | perdu empreinte =>
          dsimp only
          rw [ih, repartir_perdre]
          simp [repartir, hverdict, Verdict.estPerdu]
      | vivant =>
          dsimp only
          rw [ih]
          simp [repartir, hverdict, Verdict.estPerdu]
      | indecidable =>
          dsimp only
          rw [ih]
          simp [repartir, hverdict, Verdict.estPerdu]

theorem processusDe_foldl (candidats : List Run) (t : Registre) (bilan : Bilan)
    (identifiant : String) :
    processusDe (candidats.foldl (examiner machine) (t, bilan)).1 identifiant =
      processusDe t identifiant := by
  induction candidats generalizing t bilan with
  | nil => rfl
  | cons run candidats ih =>
      rw [List.foldl_cons, examiner_eq]
      cases verdict machine t run.identifiant with
      | perdu empreinte => exact (ih _ _).trans (processusDe_perdre run.identifiant empreinte)
      | vivant => exact ih _ _
      | indecidable => exact ih _ _

theorem table_foldl_of_aucun (candidats : List Run) (bilan : Bilan)
    (h : ∀ run ∈ candidats, ∀ empreinte, verdict machine t run.identifiant ≠ .perdu empreinte) :
    (candidats.foldl (examiner machine) (t, bilan)).1 = t := by
  induction candidats generalizing bilan with
  | nil => rfl
  | cons run candidats ih =>
      obtain ⟨htete, hreste⟩ := List.forall_mem_cons.mp h
      rw [List.foldl_cons, examiner_eq]
      cases hverdict : verdict machine t run.identifiant with
      | perdu empreinte => exact absurd hverdict (htete empreinte)
      | vivant => exact ih _ hreste
      | indecidable => exact ih _ hreste

theorem lire_foldl_of_ne (candidats : List Run) (t : Registre) (bilan : Bilan)
    {identifiant : String}
    (h : identifiant ∉ (repartir machine t (candidats.map Run.identifiant)).perdus) :
    (candidats.foldl (examiner machine) (t, bilan)).1.lire identifiant = t.lire identifiant := by
  induction candidats generalizing t bilan with
  | nil => rfl
  | cons run candidats ih =>
      have hreste : identifiant ∉ (repartir machine t (candidats.map Run.identifiant)).perdus := by
        rw [perdus_repartir] at h ⊢
        exact fun hmem => h ⟨List.mem_cons_of_mem _ hmem.1, hmem.2⟩
      rw [List.foldl_cons, examiner_eq]
      cases hverdict : verdict machine t run.identifiant with
      | perdu empreinte =>
          have hne : identifiant ≠ run.identifiant := by
            rintro rfl
            exact h (perdus_repartir.mpr ⟨List.mem_cons_self, empreinte, hverdict⟩)
          rw [← repartir_perdre run.identifiant empreinte] at hreste
          exact (ih _ _ hreste).trans (lire_perdre_of_ne hne)
      | vivant => exact ih _ _ hreste
      | indecidable => exact ih _ _ hreste

theorem statut_perdre {identifiant empreinte : String} (h : identifiant ∈ enSuspens t) :
    ((perdre machine t identifiant empreinte).lire identifiant).map (fun l => l.run.statut) =
      some .perdu := by
  obtain ⟨l, hl, hvivant⟩ := mem_enSuspens.mp h
  exact statut_terminer hl hvivant .perdu _ _

theorem statut_foldl (candidats : List Run) (t : Registre) (bilan : Bilan) {identifiant : String}
    (hsuspens : ∀ run ∈ candidats, run.identifiant ∈ enSuspens t)
    (hnodup : (candidats.map Run.identifiant).Nodup)
    (h : identifiant ∈ (repartir machine t (candidats.map Run.identifiant)).perdus) :
    ((candidats.foldl (examiner machine) (t, bilan)).1.lire identifiant).map
      (fun l => l.run.statut) = some .perdu := by
  induction candidats generalizing t bilan with
  | nil => cases h
  | cons run candidats ih =>
      obtain ⟨htete, hreste⟩ := List.forall_mem_cons.mp hsuspens
      obtain ⟨hneuf, hnodup⟩ := List.nodup_cons.mp hnodup
      obtain ⟨hmem, empreinte, hperdu⟩ := perdus_repartir.mp h
      rw [List.foldl_cons, examiner_eq]
      by_cases hici : identifiant = run.identifiant
      · subst hici
        rw [hperdu]
        have hailleurs : run.identifiant ∉
            (repartir machine (perdre machine t run.identifiant empreinte)
              (candidats.map Run.identifiant)).perdus :=
          fun hmem => hneuf (perdus_repartir.mp hmem).1
        dsimp only
        rw [lire_foldl_of_ne _ _ _ hailleurs]
        exact statut_perdre htete
      · have hmemReste := (List.mem_cons.mp hmem).resolve_left hici
        have hperduReste := perdus_repartir.mpr ⟨hmemReste, empreinte, hperdu⟩
        cases hverdict : verdict machine t run.identifiant with
        | vivant => exact ih _ _ hreste hnodup hperduReste
        | indecidable => exact ih _ _ hreste hnodup hperduReste
        | perdu autre =>
            refine ih _ _ (fun suivant hsuivant => ?_) hnodup ?_
            · have hne : suivant.identifiant ≠ run.identifiant := fun heq =>
                hneuf (heq ▸ List.mem_map_of_mem hsuivant)
              rw [mem_enSuspens, lire_perdre_of_ne hne, ← mem_enSuspens]
              exact hreste suivant hsuivant
            · rw [repartir_perdre]
              exact hperduReste

end Passage

section Reconciliation

variable {u : Chiffres} {p : TableDesProcessus} {t : Registre} {courante : String}
  {maintenant : String → String}

theorem bilan_reconcilier (machine : Machine) :
    (t.reconcilier machine).2 = repartir machine t (enSuspens t) := by
  rw [reconcilier, bilan_foldl]
  rfl

theorem processusDe_reconcilier (machine : Machine) (identifiant : String) :
    processusDe (t.reconcilier machine).1 identifiant = processusDe t identifiant :=
  processusDe_foldl _ _ _ identifiant

theorem lire_reconcilier {machine : Machine} {identifiant : String}
    (h : identifiant ∉ (t.reconcilier machine).2.perdus) :
    (t.reconcilier machine).1.lire identifiant = t.lire identifiant := by
  rw [bilan_reconcilier] at h
  exact lire_foldl_of_ne _ _ _ h

theorem statut_reconcilier {machine : Machine} {identifiant : String}
    (h : identifiant ∈ (t.reconcilier machine).2.perdus) :
    ((t.reconcilier machine).1.lire identifiant).map (fun l => l.run.statut) = some .perdu := by
  rw [bilan_reconcilier] at h
  exact statut_foldl _ _ _ (fun run hrun => List.mem_map_of_mem hrun) (nodup_enSuspens t) h

theorem perdus_reconcilier {machine : Machine} {identifiant : String} :
    identifiant ∈ (t.reconcilier machine).2.perdus ↔
      ∃ empreinte, Observee t machine.courante identifiant empreinte ∧
        machine.processusVivant empreinte = some false := by
  rw [bilan_reconcilier, perdus_repartir]
  constructor
  · rintro ⟨hmem, empreinte, hverdict⟩
    obtain ⟨hprocessus, hne, hmort⟩ := verdict_eq_perdu.mp hverdict
    exact ⟨empreinte, ⟨hmem, hprocessus, hne⟩, hmort⟩
  · rintro ⟨empreinte, ⟨hmem, hprocessus, hne⟩, hmort⟩
    exact ⟨hmem, empreinte, verdict_eq_perdu.mpr ⟨hprocessus, hne, hmort⟩⟩

theorem not_perdu_apres {machine machine' : Machine}
    (hcourante : machine'.courante = machine.courante)
    (hvivant : machine'.processusVivant = machine.processusVivant) :
    ∀ identifiant ∈ enSuspens (t.reconcilier machine).1,
      ∀ empreinte, verdict machine' (t.reconcilier machine).1 identifiant ≠ .perdu empreinte := by
  intro identifiant hsuspens empreinte hperdu
  rw [verdict_congr (processusDe_reconcilier machine identifiant) hcourante hvivant] at hperdu
  obtain ⟨l, hl, hstatut⟩ := mem_enSuspens.mp hsuspens
  have hmem : identifiant ∉ (t.reconcilier machine).2.perdus := by
    intro hmem
    have hmarque := statut_reconcilier hmem
    rw [hl, Option.map_some, Option.some.injEq] at hmarque
    rw [hmarque] at hstatut
    exact hstatut (by decide)
  apply hmem
  rw [bilan_reconcilier, perdus_repartir]
  rw [lire_reconcilier hmem] at hl
  exact ⟨mem_enSuspens.mpr ⟨l, hl, hstatut⟩, empreinte, hperdu⟩

theorem redite_reconcilier {machine machine' : Machine}
    (hcourante : machine'.courante = machine.courante)
    (hvivant : machine'.processusVivant = machine.processusVivant) :
    ((t.reconcilier machine).1.reconcilier machine').1 = (t.reconcilier machine).1 ∧
      ((t.reconcilier machine).1.reconcilier machine').2.perdus = [] := by
  have haucun := not_perdu_apres (t := t) hcourante hvivant
  constructor
  · exact table_foldl_of_aucun _ _ fun run hrun => haucun _ (List.mem_map_of_mem hrun)
  · rw [bilan_reconcilier, List.eq_nil_iff_forall_not_mem]
    intro identifiant hmem
    obtain ⟨hsuspens, empreinte, hperdu⟩ := perdus_repartir.mp hmem
    exact haucun identifiant hsuspens empreinte hperdu

/-- Whatever the table and the registry, the reconciliation is faithful exactly when no run of a
live process carries a date that reads as a NaN. -/
theorem reconciliationFidele_iff (u : Chiffres) (p : TableDesProcessus) (t : Registre)
    (courante : String) (maintenant : String → String) :
    ReconciliationFidele u p t courante maintenant ↔ DatesNumeriques u p t courante := by
  constructor
  · intro hfidele identifiant empreinte hobservee hdate
    have hmort : processusVivant u p empreinte = some false :=
      processusVivant_of_dateSansNombre hdate
    have hperdu : identifiant ∈
        (t.reconcilier (machineDe u p courante maintenant)).2.perdus :=
      perdus_reconcilier.mpr ⟨empreinte, hobservee, hmort⟩
    obtain ⟨empreinte', hobservee', hparti⟩ := hfidele.preuves identifiant hperdu
    have hmeme : empreinte' = empreinte :=
      Option.some.inj (hobservee'.2.1.symm.trans hobservee.2.1)
    exact not_parti_of_dateSansNombre hdate (hmeme ▸ hparti)
  · intro hdates
    refine ⟨?_, ⟨fun _ => statut_reconcilier, fun _ => lire_reconcilier⟩, ?_, ?_⟩
    · dsimp only
      rw [bilan_reconcilier]
      exact perm_repartir (enSuspens t)
    · intro identifiant hperdu
      obtain ⟨empreinte, hobservee, hmort⟩ := perdus_reconcilier.mp hperdu
      have hmort : processusVivant u p empreinte = some false := hmort
      refine ⟨empreinte, hobservee, ?_⟩
      exact (processusVivant_eq_false hmort).resolve_right (hdates identifiant empreinte hobservee)
    · intro plusTard
      exact redite_reconcilier rfl rfl

/-- A live process whose run was recorded without a readable date. -/
def processusSept : TableDesProcessus where
  pidExists pid := .ok (pid = 7)
  createTime _ := .ok 12

def dateIllisible : Registre :=
  histoire Table.vide [.ouvrir "r1" "t0" "7:nan" [], .demarrer "r1" "t1"]

/-- The process exists and its start is read, yet its run is marked lost. -/
theorem dateIllisible_perdue :
    (dateIllisible.reconcilier (machineDe .usuels processusSept "8:2.0" id)).2.perdus = ["r1"] ∧
      ¬ Parti .usuels processusSept "7:nan" ∧
        ¬ ReconciliationFidele .usuels processusSept dateIllisible "8:2.0" id := by
  have hdate : DateSansNombre .usuels processusSept "7:nan" :=
    ⟨rfl, by decide, 7, 12, by decide, by decide, rfl⟩
  have hobservee : Observee dateIllisible "8:2.0" "r1" "7:nan" := by
    refine ⟨?_, by decide, by decide⟩
    exact mem_enSuspens.mpr ⟨_, rfl, by decide⟩
  refine ⟨by decide, not_parti_of_dateSansNombre hdate, fun hfidele => ?_⟩
  have hmort : processusVivant .usuels processusSept "7:nan" = some false :=
    processusVivant_of_dateSansNombre hdate
  have hperdu : "r1" ∈
      (dateIllisible.reconcilier (machineDe .usuels processusSept "8:2.0" id)).2.perdus :=
    perdus_reconcilier.mpr ⟨"7:nan", hobservee, hmort⟩
  obtain ⟨empreinte, hobservee', hparti⟩ := hfidele.preuves "r1" hperdu
  have hmeme : empreinte = "7:nan" := Option.some.inj (hobservee'.2.1.symm.trans hobservee.2.1)
  exact not_parti_of_dateSansNombre hdate (hmeme ▸ hparti)

end Reconciliation

end Hermes.Registre
