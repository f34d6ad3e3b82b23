import Mathlib.Data.List.Induction

/-! # The contract of a mission

A contract is a list of criteria, each with a kind and one of four states.
-/

namespace Hermes

inductive Genre where
  | acceptation
  | nonObjectif
  | contrainte
  deriving DecidableEq

inductive EtatCritere where
  | nonAtteint
  | atteint
  | inverifiable
  | viole
  deriving DecidableEq

inductive Verdict where
  | reussi
  | echoue
  | indisponible
  deriving DecidableEq

structure Critere where
  texte : String
  genre : Genre
  verificateur : String
  etat : EtatCritere
  identifiant : String
  deriving DecidableEq

/-- `enregistrer` raises `KeyError` on an unknown identifier. -/
inductive ErreurDeContrat where
  | critereInconnu (identifiant : String)
  deriving DecidableEq

structure Contrat where
  objectif : String
  criteres : List Critere
  deriving DecidableEq

namespace Critere

def tenu (c : Critere) : Bool :=
  if c.genre = .nonObjectif then c.etat != .viole else c.etat == .atteint

def etatApres (genre : Genre) (verdict : Verdict) : EtatCritere :=
  if verdict = .indisponible then .inverifiable
  else if genre = .nonObjectif then
    if verdict = .reussi then .viole else .atteint
  else if verdict = .reussi then .atteint else .nonAtteint

def poser (verdict : Verdict) (c : Critere) : Critere :=
  { c with etat := etatApres c.genre verdict }

@[simp] theorem poser_identifiant (verdict : Verdict) (c : Critere) :
    (c.poser verdict).identifiant = c.identifiant := rfl

def apres (c : Critere) : Option Verdict → Critere
  | none => c
  | some verdict => c.poser verdict

@[simp] theorem apres_genre (c : Critere) (dernier : Option Verdict) :
    (c.apres dernier).genre = c.genre := by
  cases dernier <;> rfl

end Critere

namespace Contrat

def tenu (contrat : Contrat) : Bool :=
  !contrat.criteres.isEmpty && contrat.criteres.all Critere.tenu

def violes (contrat : Contrat) : List Critere :=
  contrat.criteres.filter fun c => c.etat = .viole

def inverifiables (contrat : Contrat) : List Critere :=
  contrat.criteres.filter fun c => c.etat = .inverifiable

def resume (contrat : Contrat) : String :=
  if contrat.criteres.isEmpty then "contrat sans critère"
  else
    let tenus := contrat.criteres.countP Critere.tenu
    let texte := s!"{tenus}/{contrat.criteres.length} critère(s) tenu(s)"
    let texte := if contrat.violes.isEmpty then texte
      else texte ++ s!" — {contrat.violes.length} non-objectif(s) VIOLÉ(s)"
    if contrat.inverifiables.isEmpty then texte
    else texte ++ s!" — {contrat.inverifiables.length} invérifiable(s), "
      ++ "ce qui n'est pas un succès"

/-- Records a verdict on the first criterion that carries the identifier, and
answers that criterion. -/
def enregistrer (contrat : Contrat) (identifiant : String) (verdict : Verdict) :
    Except ErreurDeContrat (Contrat × Critere) :=
  match contrat.criteres.find? fun c => c.identifiant = identifiant with
  | none => .error (.critereInconnu identifiant)
  | some critere =>
      let i := contrat.criteres.findIdx fun c => c.identifiant = identifiant
      .ok ({ contrat with criteres := contrat.criteres.modify i (Critere.poser verdict) },
        critere.poser verdict)

def appel (contrat : Contrat) (a : String × Verdict) : Contrat :=
  match contrat.enregistrer a.1 a.2 with
  | .ok (suivant, _) => suivant
  | .error _ => contrat

def appels (contrat : Contrat) (suite : List (String × Verdict)) : Contrat :=
  suite.foldl appel contrat

/-- The index of the criterion a call reaches, the length when there is none. -/
def position (contrat : Contrat) (identifiant : String) : Nat :=
  contrat.criteres.findIdx fun c => c.identifiant = identifiant

/-- The last verdict that reached the criterion at index `i`. -/
def dernierVerdict (contrat : Contrat) (suite : List (String × Verdict)) (i : Nat) :
    Option Verdict :=
  ((suite.filter fun a => contrat.position a.1 = i).getLast?).map Prod.snd

theorem appel_criteres (contrat : Contrat) (a : String × Verdict) :
    (contrat.appel a).criteres
      = contrat.criteres.modify (contrat.position a.1) (Critere.poser a.2) := by
  unfold appel enregistrer
  cases h : contrat.criteres.find? fun c => c.identifiant = a.1 with
  | some critere => rfl
  | none =>
      have hlength : contrat.position a.1 = contrat.criteres.length := by
        apply List.findIdx_eq_length_of_false
        simpa using h
      rw [hlength, List.modify_eq_self (Nat.le_refl _)]

theorem appel_identifiants (contrat : Contrat) (a : String × Verdict) :
    (contrat.appel a).criteres.map Critere.identifiant
      = contrat.criteres.map Critere.identifiant := by
  rw [appel_criteres]
  apply List.ext_getElem?
  intro j
  simp only [List.getElem?_map, List.getElem?_modify]
  cases contrat.criteres[j]? with
  | none => rfl
  | some c => by_cases h : contrat.position a.1 = j <;> simp [h]

theorem appels_identifiants (contrat : Contrat) (suite : List (String × Verdict)) :
    (contrat.appels suite).criteres.map Critere.identifiant
      = contrat.criteres.map Critere.identifiant := by
  induction suite using List.reverseRecOn with
  | nil => rfl
  | append_singleton suite a ih =>
      simp only [appels, List.foldl_append, List.foldl_cons, List.foldl_nil]
      rw [appel_identifiants]
      exact ih

theorem appels_position (contrat : Contrat) (suite : List (String × Verdict))
    (identifiant : String) :
    (contrat.appels suite).position identifiant = contrat.position identifiant := by
  have hmap : ∀ contrat : Contrat, contrat.position identifiant
      = (contrat.criteres.map Critere.identifiant).findIdx fun name => name = identifiant := by
    intro contrat
    rw [List.findIdx_map]
    rfl
  rw [hmap, hmap, appels_identifiants]

theorem appels_getElem? (contrat : Contrat) (suite : List (String × Verdict)) (i : Nat) :
    (contrat.appels suite).criteres[i]?
      = (contrat.criteres[i]?).map fun c => c.apres (contrat.dernierVerdict suite i) := by
  induction suite using List.reverseRecOn with
  | nil => simp [appels, dernierVerdict, Critere.apres]
  | append_singleton suite a ih =>
      have hfold : contrat.appels (suite ++ [a]) = (contrat.appels suite).appel a := by
        simp [appels]
      rw [hfold, appel_criteres, appels_position, List.getElem?_modify, ih]
      by_cases h : contrat.position a.1 = i
      · have hlast : contrat.dernierVerdict (suite ++ [a]) i = some a.2 := by
          simp [dernierVerdict, List.filter_append, h]
        rw [hlast]
        simp only [h, if_true]
        cases contrat.criteres[i]? with
        | none => rfl
        | some c => cases contrat.dernierVerdict suite i <;> rfl
      · have hlast : contrat.dernierVerdict (suite ++ [a]) i
            = contrat.dernierVerdict suite i := by
          simp [dernierVerdict, List.filter_append, h]
        rw [hlast]
        simp only [h, if_false]
        exact Option.map_id'

end Contrat

namespace Critere

/-- The verdict a criterion needs: success, or the absence of the forbidden thing. -/
def Soutenu (genre : Genre) (verdict : Verdict) : Prop :=
  if genre = .nonObjectif then verdict = .echoue else verdict = .reussi

/-- The last verdict, or the initial state when there is none, keeps the criterion
from failing the contract. -/
def NeBloquePas (c : Critere) : Option Verdict → Prop
  | some verdict => if c.genre = .nonObjectif then verdict ≠ .reussi else verdict = .reussi
  | none => if c.genre = .nonObjectif then c.etat ≠ .viole else c.etat = .atteint

/-- Nothing is known: the last verifier was unavailable, or none answered and the
criterion started as unverifiable. -/
def Inconnu (c : Critere) : Option Verdict → Prop
  | some verdict => verdict = .indisponible
  | none => c.etat = .inverifiable

theorem tenu_apres (c : Critere) (dernier : Option Verdict) :
    (c.apres dernier).tenu = true ↔ c.NeBloquePas dernier := by
  cases dernier with
  | none =>
      by_cases h : c.genre = .nonObjectif <;> simp [apres, tenu, NeBloquePas, h]
  | some verdict =>
      by_cases h : c.genre = .nonObjectif <;> cases verdict <;>
        simp [apres, poser, tenu, etatApres, NeBloquePas, h]

theorem etat_apres_eq_inverifiable (c : Critere) (dernier : Option Verdict) :
    (c.apres dernier).etat = .inverifiable ↔ c.Inconnu dernier := by
  cases dernier with
  | none => rfl
  | some verdict =>
      by_cases h : c.genre = .nonObjectif <;> cases verdict <;>
        simp [apres, poser, etatApres, Inconnu, h]

theorem not_inconnu_of_neBloquePas {c : Critere} {dernier : Option Verdict}
    (hgenre : c.genre ≠ .nonObjectif) (h : c.NeBloquePas dernier) : ¬ c.Inconnu dernier := by
  intro hinconnu
  cases dernier with
  | none => simp_all [NeBloquePas, Inconnu]
  | some verdict => simp_all [NeBloquePas, Inconnu]

theorem soutenu_of_neBloquePas {c : Critere} {verdict : Verdict}
    (h : c.NeBloquePas (some verdict)) (hconnu : ¬ c.Inconnu (some verdict)) :
    Soutenu c.genre verdict := by
  by_cases hgenre : c.genre = .nonObjectif <;> cases verdict <;>
    simp_all [NeBloquePas, Inconnu, Soutenu]

end Critere

namespace Contrat

theorem tenu_iff (contrat : Contrat) :
    contrat.tenu = true ↔
      contrat.criteres ≠ [] ∧
        ∀ (i : Nat) (c : Critere), contrat.criteres[i]? = some c → c.tenu = true := by
  simp only [tenu, Bool.and_eq_true, Bool.not_eq_true', List.isEmpty_eq_false_iff, ne_eq,
    List.all_eq_true, List.mem_iff_getElem?]
  constructor
  · rintro ⟨hne, hall⟩
    exact ⟨hne, fun i c hc => hall c ⟨i, hc⟩⟩
  · rintro ⟨hne, hall⟩
    exact ⟨hne, fun c ⟨i, hc⟩ => hall i c hc⟩

/-- A held contract hides nothing: no criterion is unverifiable and every last
verdict supports its criterion. -/
def TenuSansInconnu (contrat : Contrat) (suite : List (String × Verdict)) : Prop :=
  (contrat.appels suite).tenu = true →
    ∀ (i : Nat) (c : Critere), (contrat.appels suite).criteres[i]? = some c →
      c.etat ≠ .inverifiable ∧
        ∀ verdict, contrat.dernierVerdict suite i = some verdict →
          Critere.Soutenu c.genre verdict

/-- No criterion fails the contract although a non-objective is unknown. -/
def InconnuTolere (contrat : Contrat) (suite : List (String × Verdict)) : Prop :=
  (∀ (i : Nat) (c : Critere), contrat.criteres[i]? = some c →
      c.NeBloquePas (contrat.dernierVerdict suite i)) ∧
    ∃ (i : Nat) (c : Critere), contrat.criteres[i]? = some c ∧ c.genre = .nonObjectif ∧
      c.Inconnu (contrat.dernierVerdict suite i)

private theorem appels_criteres_ne_nil {contrat : Contrat} {suite : List (String × Verdict)}
    {i : Nat} {c : Critere} (h : contrat.criteres[i]? = some c) :
    (contrat.appels suite).criteres ≠ [] := by
  intro hnil
  have hi := appels_getElem? contrat suite i
  simp [h, hnil] at hi

theorem appels_tenu_iff (contrat : Contrat) (suite : List (String × Verdict)) :
    (contrat.appels suite).tenu = true ↔
      contrat.criteres ≠ [] ∧ ∀ (i : Nat) (c : Critere), contrat.criteres[i]? = some c →
        c.NeBloquePas (contrat.dernierVerdict suite i) := by
  rw [tenu_iff]
  constructor
  · rintro ⟨hne, hall⟩
    refine ⟨?_, fun i c hc => ?_⟩
    · intro hnil
      have hmap := appels_identifiants contrat suite
      rw [hnil, List.map_nil] at hmap
      exact hne (List.map_eq_nil_iff.mp hmap)
    · apply (c.tenu_apres _).mp
      apply hall i
      rw [appels_getElem?, hc, Option.map_some]
  · rintro ⟨hne, hall⟩
    obtain ⟨first, hfirst⟩ := List.exists_mem_of_ne_nil _ hne
    obtain ⟨i, hi⟩ := List.mem_iff_getElem?.mp hfirst
    refine ⟨appels_criteres_ne_nil hi, fun j c hc => ?_⟩
    rw [appels_getElem?, Option.map_eq_some_iff] at hc
    obtain ⟨before, hbefore, rfl⟩ := hc
    exact (before.tenu_apres _).mpr (hall j before hbefore)

/-- The exact extent of the rule: a held contract hides an unknown when, and only
when, that unknown bears on a non-objective and nothing else fails. -/
theorem tenuSansInconnu_iff (contrat : Contrat) (suite : List (String × Verdict)) :
    contrat.TenuSansInconnu suite ↔ ¬ contrat.InconnuTolere suite := by
  constructor
  · rintro h ⟨hall, i, c, hc, -, hinconnu⟩
    have hne : contrat.criteres ≠ [] := by
      intro hnil
      simp [hnil] at hc
    have htenu := (appels_tenu_iff contrat suite).mpr ⟨hne, hall⟩
    have hafter : (contrat.appels suite).criteres[i]?
        = some (c.apres (contrat.dernierVerdict suite i)) := by
      rw [appels_getElem?, hc, Option.map_some]
    exact (h htenu i _ hafter).1 ((c.etat_apres_eq_inverifiable _).mpr hinconnu)
  · intro h htenu i after hafter
    obtain ⟨hne, hall⟩ := (appels_tenu_iff contrat suite).mp htenu
    rw [appels_getElem?, Option.map_eq_some_iff] at hafter
    obtain ⟨c, hc, rfl⟩ := hafter
    have hconnu : ¬ c.Inconnu (contrat.dernierVerdict suite i) := by
      intro hinconnu
      by_cases hgenre : c.genre = .nonObjectif
      · exact h ⟨hall, i, c, hc, hgenre, hinconnu⟩
      · exact Critere.not_inconnu_of_neBloquePas hgenre (hall i c hc) hinconnu
    refine ⟨fun hetat => hconnu ((c.etat_apres_eq_inverifiable _).mp hetat), ?_⟩
    intro verdict hverdict
    have hc' := hall i c hc
    rw [hverdict] at hc' hconnu
    rw [Critere.apres_genre]
    exact Critere.soutenu_of_neBloquePas hc' hconnu

/-- One acceptance criterion met and one non-objective nobody could check. -/
def contratAvecInterdit : Contrat where
  objectif := "livrer le module"
  criteres :=
    [{ texte := "les tests passent", genre := .acceptation, verificateur := "pytest",
       etat := .nonAtteint, identifiant := "c1" },
     { texte := "aucun secret publié", genre := .nonObjectif, verificateur := "secrets",
       etat := .nonAtteint, identifiant := "c2" }]

theorem contratAvecInterdit_tenu_inverifiable :
    ¬ contratAvecInterdit.TenuSansInconnu [("c1", .reussi), ("c2", .indisponible)] := by
  intro h
  have hsecond := h (by decide) 1
    { texte := "aucun secret publié", genre := .nonObjectif, verificateur := "secrets",
      etat := .inverifiable, identifiant := "c2" } (by decide)
  exact hsecond.1 rfl

end Contrat

end Hermes
