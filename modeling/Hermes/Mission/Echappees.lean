import Hermes.Mission.Boucle

/-! # What the loop lets through

The loop promises a named stop.
-/

namespace Hermes.Boucle

open Registre Taxonomie

variable {σ : Type*} (mot : Char → Bool) (b : Boucle σ)

/-- The calls of this turn come back: `executer` returns or raises an `Exception`, and after it
returned `verifier` returns, without having taken the contract away from under its own success. -/
def TourSur (numero : Nat) (relais : Relais) (monde : σ) : Prop :=
  match b.executer relais (phase numero) monde with
  | (.echappe, _, _) => False
  | (.leve _, _, _) => True
  | (.rendu _, relais, monde) =>
      match b.verifier relais monde with
      | (.rendu verification, relais, _) =>
          verdictDe verification = .reussi → relais.contrat ≠ none
      | _ => False

/-- What the next turn starts from, when these answers call for one. -/
def suivant (numero : Nat) (relais : Relais) (monde : σ) : Option (Relais × σ) :=
  match b.executer relais (phase numero) monde with
  | (.echappe, _, _) => none
  | (.leve texte, relais, monde) =>
      let cause := (classer mot texte {}).cause
      if (remede cause).reessayer then
        some ({ relais with echec := String.ofList (texte.toList.take 400), cause := cause }, monde)
      else none
  | (.rendu _, relais, monde) =>
      match b.verifier relais monde with
      | (.rendu verification, relais, monde) =>
          if verdictDe verification = .indisponible
              ∨ verdictDe verification = .reussi ∧ relais.contrat.any Contrat.tenu then none
          else some (nourrirLeRelais relais verification, monde)
      | _ => none

/-- The turns that are left are safe, and the last one leaves a contract to report on. -/
def ToursSurs : Nat → Nat → Relais → σ → Prop
  | 0, _, relais, _ => relais.contrat ≠ none
  | restants + 1, numero, relais, monde =>
      TourSur b numero relais monde ∧
        ∀ relais' monde', suivant mot b numero relais monde = some (relais', monde') →
          ToursSurs restants (numero + 1) relais' monde'

/-- No call that the loop makes gets an exception out of it. -/
def SansEchappee (relais : Relais) (monde : σ) : Prop :=
  match b.pointDeReprise with
  | none => ToursSurs mot b b.budget 1 relais monde
  | some prendre =>
      match prendre relais monde with
      | (.echappe, _, _) => False
      | (_, relais, monde) => ToursSurs mot b b.budget 1 relais monde

def Appel.EchecDeVerification : Appel → Prop
  | verifier (.rendu _) _ => False
  | verifier _ _ => True
  | _ => False

/-- An issue, whose stop is one of the six, and not a success over a verification that failed. -/
def Nommee (bilan : Bilan σ) : Prop :=
  ∃ issue, bilan.issue = some issue ∧
    ((∃ a ∈ bilan.appels, a.EchecDeVerification) →
      issue.tenu = false ∧ (issue.arret = .erreur ∨ issue.arret = .inverifiable))

/-- No verification has failed so far. -/
def SansEchec (e : Etat σ) : Prop := ∀ a ∈ e.appels, ¬ a.EchecDeVerification

theorem sansEchec_append {e : Etat σ} {a : Appel} {appels : List Appel} (h : SansEchec e)
    (ha : ¬ a.EchecDeVerification) (happels : appels = e.appels ++ [a]) :
    ∀ x ∈ appels, ¬ x.EchecDeVerification := by
  intro x hx
  rw [happels] at hx
  rcases List.mem_append.mp hx with hx | hx
  · exact h x hx
  · rw [List.mem_singleton.mp hx]
    exact ha

/-- How a turn ends: an exception gets out, the issue is closed, or the next turn starts. -/
inductive FinDeTour (e : Etat σ) (numero : Nat) : Suite σ → Prop where
  | echappe (e' : Etat σ) (hdanger : ¬ TourSur b numero e.relais e.monde) :
      FinDeTour e numero (.echapper e')
  | close (e' : Etat σ) (hsur : TourSur b numero e.relais e.monde) (hechec : SansEchec e')
      (hsuivant : suivant mot b numero e.relais e.monde = none) : FinDeTour e numero (.clore e')
  | poursuivi (e' : Etat σ) (hsur : TourSur b numero e.relais e.monde) (hechec : SansEchec e')
      (hsuivant : suivant mot b numero e.relais e.monde = some (e'.relais, e'.monde)) :
      FinDeTour e numero (.continuer e')

section

variable {mot b} {e : Etat σ} {numero : Nat}

theorem fin_of_leve {texte : String} {relais : Relais} {monde : σ} {appels : List Appel}
    {suite : Suite σ}
    (hexecuter : b.executer e.relais (phase numero) e.monde = (.leve texte, relais, monde))
    (hechec : ∀ a ∈ appels, ¬ a.EchecDeVerification)
    (hsuite : arreterSurLErreur mot { e with relais := relais, monde := monde, appels := appels }
      numero (phase numero) texte = suite) : FinDeTour mot b e numero suite := by
  subst hsuite
  have hsur : TourSur b numero e.relais e.monde := by simp [TourSur, hexecuter]
  simp only [arreterSurLErreur, Etat.noter]
  generalize hcause : (classer mot texte {}).cause = cause
  cases hretry : (remede cause).reessayer with
  | true =>
      refine .poursuivi _ hsur hechec ?_
      simp [suivant, hexecuter, hcause, hretry]
  | false =>
      refine .close _ hsur hechec ?_
      simp [suivant, hexecuter, hcause, hretry]

theorem fin_of_verification {relais relais' : Relais} {monde monde' : σ}
    {verification : Verification} {e' : Etat σ}
    (hexecuter : b.executer e.relais (phase numero) e.monde = (.rendu (), relais, monde))
    (hverifier : b.verifier relais monde = (.rendu verification, relais', monde'))
    (hrelais : e'.relais = relais') (hmonde : e'.monde = monde') (hechec : SansEchec e') :
    FinDeTour mot b e numero (juger e' numero verification) := by
  subst hrelais hmonde
  simp only [juger, Etat.noter]
  cases hverdict : verdictDe verification with
  | reussi =>
      cases hcontrat : e'.relais.contrat with
      | none =>
          refine .echappe _ ?_
          simp [TourSur, hexecuter, hverifier, hverdict, hcontrat]
      | some contrat =>
          have hsur : TourSur b numero e.relais e.monde := by
            simp [TourSur, hexecuter, hverifier, hcontrat]
          dsimp only
          cases htenu : contrat.tenu with
          | true =>
              rw [if_pos rfl]
              refine .close _ hsur hechec ?_
              simp [suivant, hexecuter, hverifier, hverdict, hcontrat, htenu]
          | false =>
              rw [if_neg Bool.false_ne_true]
              refine .poursuivi _ hsur hechec ?_
              simp [suivant, hexecuter, hverifier, hverdict, hcontrat, htenu]
  | indisponible =>
      have hsur : TourSur b numero e.relais e.monde := by
        simp [TourSur, hexecuter, hverifier, hverdict]
      refine .close _ hsur hechec ?_
      simp [suivant, hexecuter, hverifier, hverdict]
  | echoue =>
      have hsur : TourSur b numero e.relais e.monde := by
        simp [TourSur, hexecuter, hverifier, hverdict]
      refine .poursuivi _ hsur hechec ?_
      simp [suivant, hexecuter, hverifier, hverdict]

theorem fin_of_rendu {u : Unit} {e' : Etat σ}
    (hexecuter : b.executer e.relais (phase numero) e.monde = (.rendu u, e'.relais, e'.monde))
    (he' : SansEchec e') : FinDeTour mot b e numero (b.verification numero e') := by
  unfold verification
  cases hverifier : b.verifier e'.relais e'.monde with
  | mk sortie reste =>
      obtain ⟨relais, monde⟩ := reste
      cases sortie with
      | leve texte =>
          have hdanger : ¬ TourSur b numero e.relais e.monde := by
            simp [TourSur, hexecuter, hverifier]
          exact .echappe _ hdanger
      | echappe =>
          have hdanger : ¬ TourSur b numero e.relais e.monde := by
            simp [TourSur, hexecuter, hverifier]
          exact .echappe _ hdanger
      | rendu verification =>
          have hechec : SansEchec { e' with
              relais := relais, monde := monde,
              appels := e'.appels ++ [.verifier (.rendu verification) relais] } :=
            sansEchec_append he' id rfl
          exact fin_of_verification hexecuter hverifier rfl rfl hechec

theorem tour_fin (he : SansEchec e) : FinDeTour mot b e numero (b.tour mot numero e) := by
  unfold tour
  cases hexecuter : b.executer e.relais (phase numero) e.monde with
  | mk sortie reste =>
      obtain ⟨relais, monde⟩ := reste
      have happel : ¬ (Appel.executer (phase numero) sortie relais).EchecDeVerification := id
      have hechec : SansEchec { e with
          relais := relais, monde := monde,
          appels := e.appels ++ [.executer (phase numero) sortie relais] } :=
        sansEchec_append he happel rfl
      cases sortie with
      | echappe =>
          have hdanger : ¬ TourSur b numero e.relais e.monde := by simp [TourSur, hexecuter]
          exact .echappe _ hdanger
      | leve texte =>
          dsimp only
          generalize hsuite : arreterSurLErreur mot _ _ _ _ = suite
          exact fin_of_leve hexecuter hechec hsuite
      | rendu u => exact fin_of_rendu hexecuter hechec

theorem nommee_of_sansEchec {e : Etat σ} {issue : Option Issue} (h : SansEchec e) :
    Nommee (⟨issue, e.relais, e.appels, e.monde⟩ : Bilan σ) ↔ issue.isSome := by
  constructor
  · intro hnommee
    obtain ⟨issue', hissue, -⟩ := hnommee
    have hsome : issue = some issue' := hissue
    rw [hsome]
    rfl
  · intro hsome
    obtain ⟨issue', hissue⟩ := Option.isSome_iff_exists.mp hsome
    refine ⟨issue', hissue, fun hfailed => ?_⟩
    obtain ⟨a, ha, hechec⟩ := hfailed
    exact absurd hechec (h a ha)

theorem toursRestants_nommee (restants : Nat) (he : SansEchec e) :
    Nommee (b.conclure (b.toursRestants mot restants numero e)) ↔
      ToursSurs mot b restants numero e.relais e.monde := by
  induction restants generalizing numero e with
  | zero =>
      rw [toursRestants, conclure, ToursSurs, nommee_of_sansEchec he]
      cases e.relais.contrat <;> simp
  | succ restants ih =>
      have hfin : FinDeTour mot b e numero (b.tour mot numero e) := tour_fin he
      rw [toursRestants, ToursSurs]
      generalize b.tour mot numero e = suite at hfin
      cases hfin with
      | echappe e' hdanger =>
          constructor
          · intro hnommee
            obtain ⟨issue, hissue, -⟩ := hnommee
            cases hissue
          · exact fun hsurs => absurd hsurs.1 hdanger
      | close e' hsur hechec hsuivant =>
          have hclose : Nommee (b.conclure (.clore e')) := (nommee_of_sansEchec hechec).mpr rfl
          refine ⟨fun _ => ⟨hsur, fun relais' monde' h => ?_⟩, fun _ => hclose⟩
          rw [hsuivant] at h
          cases h
      | poursuivi e' hsur hechec hsuivant =>
          have hreste : Nommee (b.conclure (b.toursRestants mot restants (numero + 1) e')) ↔ _ :=
            ih hechec
          constructor
          · intro hnommee
            refine ⟨hsur, fun relais' monde' h => ?_⟩
            rw [hsuivant] at h
            cases h
            exact hreste.mp hnommee
          · exact fun hsurs => hreste.mpr (hsurs.2 e'.relais e'.monde hsuivant)

end

/-- A loop with a contract answers a named stop, and never a success over a verification that
failed, exactly when no call that it makes gets an exception out of it. -/
theorem tourner_nommee_iff (relais : Relais) (monde : σ) :
    Nommee (b.tourner mot relais monde) ↔
      relais.contrat = none ∨ SansEchappee mot b relais monde := by
  unfold tourner
  cases hcontrat : relais.contrat with
  | none =>
      refine ⟨fun _ => Or.inl rfl, fun _ => ⟨_, rfl, fun hfailed => ?_⟩⟩
      obtain ⟨a, ha, -⟩ := hfailed
      cases ha
  | some contrat =>
      have hsans : (some contrat = none ∨ SansEchappee mot b relais monde)
          ↔ SansEchappee mot b relais monde := by simp
      rw [hsans]
      unfold suite prendreLeFilet SansEchappee
      cases b.pointDeReprise with
      | none =>
          have hdebut : SansEchec (⟨relais, { arret := .budget }, [], monde⟩ : Etat σ) := by
            intro a ha
            cases ha
          exact toursRestants_nommee b.budget hdebut
      | some prendre =>
          cases hprendre : prendre relais monde with
          | mk sortie reste =>
              obtain ⟨relais', monde'⟩ := reste
              have hfilet (issue : Issue) :
                  SansEchec (⟨relais', issue, [.filet], monde'⟩ : Etat σ) := by
                intro a ha
                rw [List.mem_singleton.mp ha]
                exact id
              cases sortie with
              | rendu checkpoint =>
                  simp only [hprendre]
                  exact toursRestants_nommee b.budget (hfilet _)
              | leve texte =>
                  simp only [hprendre]
                  exact toursRestants_nommee b.budget (hfilet _)
              | echappe =>
                  simp only [hprendre]
                  constructor
                  · intro hnommee
                    obtain ⟨issue, hissue, -⟩ := hnommee
                    cases hissue
                  · exact False.elim

/-- The work is done at the first turn, and the verifier raises. -/
def verificateurQuiLeve : Boucle Unit where
  executer relais _ monde := (.rendu (), relais, monde)
  verifier relais monde := (.leve "[Errno 2] No such file or directory", relais, monde)

def relaisEngage : Relais where
  contrat := some
    { objectif := "construire l'application"
      criteres := [⟨"les tests passent", .acceptation, "pytest", .nonAtteint, "c1"⟩] }

theorem verificateurQuiLeve_echappe :
    (verificateurQuiLeve.tourner Char.isAlphanum relaisEngage ()).issue = none ∧
      ¬ Nommee (verificateurQuiLeve.tourner Char.isAlphanum relaisEngage ()) := by
  refine ⟨rfl, fun hnommee => ?_⟩
  obtain ⟨issue, hissue, -⟩ := hnommee
  cases hissue

end Hermes.Boucle
