import Hermes.Lib.Runs
import Hermes.Security.Approvals

/-! # Sessions that spend the same approval

Two steps for each call of `consume_approval`: it reads the entry it will spend, then commits the
columns it changed on its own copy.
-/

namespace Hermes.Approvals.Sessions

open Lib Empreinte

/-- The committed table, the copies held by the sessions between their read and their
commit, and the entries returned so far. -/
structure Etat where
  file : File
  enVol : List PendingApproval
  retours : List String

inductive Evenement where
  | lire (p : Plateforme) (horloge : Horloge) (a : Action)
  | valider (i : Nat)

/-- The row after the commit of a copy: the columns that the session changed. -/
def colonnesChangees (lu ligne : PendingApproval) : PendingApproval :=
  let apres := depenser lu
  { ligne with
    usagesRestants :=
      if apres.usagesRestants = lu.usagesRestants then ligne.usagesRestants
      else apres.usagesRestants
    status := if apres.status = lu.status then ligne.status else apres.status }

def valider (t : File) (lu : PendingApproval) : File :=
  t.modifier lu.id (colonnesChangees lu) fun _ h => h

def pas (hacher : String → String) (s : Etat) : Evenement → Option Etat
  | .lire p horloge a =>
      match trouver hacher p horloge s.file a with
      | none => some s
      | some lu => some { s with enVol := s.enVol ++ [lu] }
  | .valider i =>
      match s.enVol[i]? with
      | none => none
      | some lu =>
          some
            { file := valider s.file lu
              enVol := s.enVol.eraseIdx i
              retours := s.retours ++ [lu.id] }

/-- The table as a decision leaves it, before any session. -/
def initial (t : File) : Etat := { file := t, enVol := [], retours := [] }

theorem lire_apresValider (t : File) (lu : PendingApproval) (id : String) :
    (valider t lu).lire id =
      if id = lu.id then (t.lire id).map (colonnesChangees lu) else t.lire id :=
  Table.lire_modifier t lu.id _ _ id

theorem colonnesChangees_self (e : PendingApproval) : colonnesChangees e e = depenser e := by
  have husages : (colonnesChangees e e).usagesRestants = (depenser e).usagesRestants := by
    simp only [colonnesChangees]
    split
    · next h => exact h.symm
    · rfl
  have hstatus : (colonnesChangees e e).status = (depenser e).status := by
    simp only [colonnesChangees]
    split
    · next h => exact h.symm
    · rfl
  show { e with usagesRestants := (colonnesChangees e e).usagesRestants,
                status := (colonnesChangees e e).status } = depenser e
  rw [husages, hstatus]
  rfl

/-- A commit on the entry `id` finds the row as its session read it: no other session has
committed in between. -/
def Frais (id : String) (s : Etat) (ev : Evenement) : Prop :=
  ∀ i lu, ev = .valider i → s.enVol[i]? = some lu → lu.id = id → s.file.lire id = some lu

/-- The uses returned and the uses left make up the budget. -/
def Inv (id : String) (budget : Int) (s : Etat) : Prop :=
  (∃ e reste, s.file.lire id = some e ∧ e.usagesRestants = some reste ∧ 0 ≤ reste ∧
      (s.retours.count id : Int) + reste = budget) ∧
    ∀ lu ∈ s.enVol, ∃ now, vivante lu now = true

theorem inv_lire {hacher : String → String} {id : String} {budget : Int} {s s' : Etat}
    {p : Plateforme} {horloge : Horloge} {a : Action} (h : Inv id budget s)
    (hpas : pas hacher s (.lire p horloge a) = some s') : Inv id budget s' := by
  unfold pas at hpas
  dsimp only at hpas
  split at hpas
  · cases hpas
    exact h
  · next lu hlu =>
      cases hpas
      obtain ⟨hcompte, hvol⟩ := h
      refine ⟨hcompte, ?_⟩
      intro lu' hlu'
      rcases List.mem_append.mp hlu' with hold | hnew
      · exact hvol lu' hold
      · obtain ⟨n, hvivante⟩ := (trouver_spec hlu).2.2.1
        rw [List.mem_singleton.mp hnew]
        exact ⟨_, hvivante⟩

theorem inv_valider {hacher : String → String} {id : String} {budget : Int} {s s' : Etat}
    {i : Nat} (h : Inv id budget s) (hfrais : Frais id s (.valider i))
    (hpas : pas hacher s (.valider i) = some s') : Inv id budget s' := by
  unfold pas at hpas
  dsimp only at hpas
  split at hpas
  · cases hpas
  · next lu hlu =>
      cases hpas
      obtain ⟨⟨e, reste, he, husages, hpos, hbudget⟩, hvol⟩ := h
      have hvol' : ∀ lu' ∈ s.enVol.eraseIdx i, ∃ now, vivante lu' now = true :=
        fun lu' hlu' => hvol lu' (List.mem_of_mem_eraseIdx hlu')
      refine ⟨?_, hvol'⟩
      by_cases hid : lu.id = id
      · have hligne := hfrais i lu rfl hlu hid
        rw [he] at hligne
        cases hligne
        obtain ⟨now, hvivante⟩ := hvol lu (List.mem_of_getElem? hlu)
        have hreste : 0 < reste := (vivante_iff.mp hvivante).2 reste husages
        refine ⟨depenser lu, reste - 1, ?_, ?_, by omega, ?_⟩
        · show (valider s.file lu).lire id = _
          rw [lire_apresValider, if_pos hid.symm, he, Option.map_some, colonnesChangees_self]
        · show lu.usagesRestants.map (fun n => n - 1) = some (reste - 1)
          rw [husages]
          rfl
        · show ((s.retours ++ [lu.id]).count id : Int) + (reste - 1) = budget
          rw [List.count_append, hid, List.count_singleton_self]
          push_cast
          omega
      · refine ⟨e, reste, ?_, husages, hpos, ?_⟩
        · show (valider s.file lu).lire id = some e
          rw [lire_apresValider, if_neg (Ne.symm hid)]
          exact he
        · show ((s.retours ++ [lu.id]).count id : Int) + reste = budget
          rw [List.count_append, List.count_singleton]
          simpa [hid] using hbudget

theorem inv_initial {p : Plateforme} {horloge : Horloge} {t : File} {id : String}
    {d : Decision} {t₀ : File} {e₀ : PendingApproval}
    (hpending : (t.lire id).map PendingApproval.status = some .pending)
    (happrouve : d.approved = true)
    (hdecide : decide p horloge t id d = (t₀, .entree (some e₀))) :
    Inv id d.budget (initial t₀) := by
  rcases decide_cases p horloge t id d with ⟨_, hno | ⟨err, herr⟩⟩ | ⟨e, e', he, _, hok, heq⟩
  · exact absurd hpending hno
  · rw [hdecide] at herr
    cases herr
  · rw [hdecide] at heq
    cases heq
    obtain ⟨hid, _, _, _, husages, hun, _⟩ := trancher_approuve hok happrouve
    have hcle : e.id = id := Table.cle_of_lire he
    refine ⟨⟨e₀, d.budget, ?_, husages, by omega, by simp [initial]⟩, by simp [initial]⟩
    show (t.remplacer e₀).lire id = some e₀
    rw [Table.lire_remplacer, if_pos (by rw [hid, hcle]), he]
    rfl

/-- When every commit on the entry finds it as its session read it, the entry is never
returned more often than the decision granted. -/
theorem retours_le_budget (hacher : String → String) {p : Plateforme} {horloge : Horloge}
    {t : File} {id : String} {d : Decision} {t₀ : File} {e₀ : PendingApproval}
    (hpending : (t.lire id).map PendingApproval.status = some .pending)
    (happrouve : d.approved = true)
    (hdecide : decide p horloge t id d = (t₀, .entree (some e₀))) (evs : List Evenement)
    (hfrais : Along (pas hacher) (Frais id) (initial t₀) evs) :
    Always (pas hacher) (fun s => (s.retours.count id : Int) ≤ d.budget) (initial t₀) evs := by
  have hstep : ∀ s ev s', Inv id d.budget s → Frais id s ev → pas hacher s ev = some s' →
      Inv id d.budget s' := by
    intro s ev s' hinv hev hpas
    cases ev with
    | lire => exact inv_lire hinv hpas
    | valider => exact inv_valider hinv hev hpas
  have hinv := always_of_along hstep (inv_initial hpending happrouve hdecide) hfrais
  apply hinv.mono
  intro s hs
  obtain ⟨⟨e, reste, _, _, hpos, hbudget⟩, _⟩ := hs
  omega

/-- Each call reads and commits before the next one reads. -/
def enSerie (appels : List (Plateforme × Horloge × Action)) : List Evenement :=
  appels.flatMap fun (p, horloge, a) => [.lire p horloge a, .valider 0]

theorem frais_enSerie (hacher : String → String) (id : String)
    (appels : List (Plateforme × Horloge × Action)) (t : File) (retours : List String) :
    Along (pas hacher) (Frais id) { file := t, enVol := [], retours := retours }
      (enSerie appels) := by
  induction appels generalizing t retours with
  | nil => trivial
  | cons appel appels ih =>
      obtain ⟨p, horloge, a⟩ := appel
      intro s' hlire
      refine ⟨fun i lu hev => Evenement.noConfusion hev, ?_⟩
      unfold pas at hlire
      dsimp only at hlire
      split at hlire
      · cases hlire
        intro s'' hvalider
        cases hvalider
      · next lu hlu =>
          cases hlire
          intro s'' hvalider
          cases hvalider
          constructor
          · intro i lu' hev hlu' hid
            cases hev
            cases hlu'
            rw [← hid]
            exact Table.lire_of_mem (trouver_spec hlu).1
          · exact ih _ _

def ecriture : Action := { actionType := "file_write", targetPath := some "/p/a.txt" }

def fileEnAttente : File :=
  (recordPending id .posix (Horloge.figee 0) "a1" Table.vide
    { action := ecriture, reason := "autonomie trop basse" }).1

def oui : Decision := { approved := true }

def fileAccordee : File := (decide .posix (Horloge.figee 10) fileEnAttente "a1" oui).1

/-- Two sessions read the approved entry before either commits. -/
def chevauchement : List Evenement :=
  [.lire .posix (Horloge.figee 20) ecriture, .lire .posix (Horloge.figee 20) ecriture,
    .valider 0, .valider 0]

/-- One consent for one use is spent twice. -/
theorem chevauchement_deuxRetours :
    (∃ s, run (pas id) (initial fileAccordee) chevauchement = some s ∧
      s.retours = ["a1", "a1"]) ∧
      oui.budget = 1 ∧
      ¬ Always (pas id) (fun s => (s.retours.count "a1" : Int) ≤ oui.budget)
        (initial fileAccordee) chevauchement := by
  have hretours : (run (pas id) (initial fileAccordee) chevauchement).map Etat.retours =
      some ["a1", "a1"] := by
    decide +kernel
  obtain ⟨s, hrun, hs⟩ := Option.map_eq_some_iff.mp hretours
  refine ⟨⟨s, hrun, hs⟩, by decide, ?_⟩
  intro halways
  have hborne := halways.run hrun
  rw [hs] at hborne
  exact absurd hborne (by decide)

/-- Two calls one after the other: the second one finds nothing left. -/
theorem retours_le_budget_enSerie :
    Always (pas id) (fun s => (s.retours.count "a1" : Int) ≤ oui.budget) (initial fileAccordee)
      (enSerie [(.posix, Horloge.figee 20, ecriture), (.posix, Horloge.figee 30, ecriture)]) := by
  have hdecide : ∃ e₀, decide .posix (Horloge.figee 10) fileEnAttente "a1" oui =
      (fileAccordee, .entree (some e₀)) :=
    ⟨_, rfl⟩
  obtain ⟨e₀, hdecide⟩ := hdecide
  exact retours_le_budget id (by decide) rfl hdecide _ (frais_enSerie id "a1" _ _ _)

end Hermes.Approvals.Sessions
