import Hermes.Runs.Contrat
import Hermes.Runs.Taxonomie

/-! # Executing, verifying, repairing, and knowing when to stop

The loop chains calls that its caller provides.
-/

namespace Hermes

open Registre Taxonomie

namespace Boucle

inductive Phase where
  | planification
  | execution
  | verification
  | reparation
  deriving DecidableEq

structure Preuve where
  source : String
  constat : String
  verdict : Verdict := .indisponible
  deriving DecidableEq

structure Relais where
  contrat : Option Contrat := none
  preuves : List Preuve := []
  echec : String := ""
  cause : Option Cause := none
  deriving DecidableEq

def Relais.ajouterPreuve (relais : Relais) (source constat : String) (verdict : Verdict) :
    Relais :=
  { relais with preuves := relais.preuves ++ [⟨source, constat, verdict⟩] }

inductive Arret where
  | contratTenu
  | budget
  | causeNonReprenable
  | inverifiable
  | erreur
  | sansContrat
  deriving DecidableEq

structure Tour where
  numero : Nat
  phase : Phase
  verdict : Option Verdict := none
  cause : Option Cause := none
  detail : String := ""
  deriving DecidableEq

structure Issue where
  arret : Arret
  tenu : Bool := false
  tours : List Tour := []
  checkpoint : String := ""
  raison : String := ""
  deriving DecidableEq

inductive Sortie (α : Type*) where
  | rendu (a : α)
  | leve (texte : String)
  | echappe
  deriving DecidableEq

/-- What the verifier answers carries: a verdict, or anything else, known by its text. -/
inductive Porte where
  | verdict (v : Verdict)
  | texte (t : String)
  deriving DecidableEq

structure Verification where
  porte : Porte
  resume : Option (Option String) := none
  raison : String := ""
  deriving DecidableEq

def TOURS_PAR_DEFAUT : Int := 2

end Boucle

open Boucle in
structure Boucle (σ : Type*) where
  executer : Relais → Phase → σ → Sortie Unit × Relais × σ
  verifier : Relais → σ → Sortie Verification × Relais × σ
  tours : Int := TOURS_PAR_DEFAUT
  pointDeReprise : Option (Relais → σ → Sortie String × Relais × σ) := none

namespace Boucle

inductive Appel where
  | filet
  | executer (phase : Phase) (sortie : Sortie Unit) (apres : Relais)
  | verifier (sortie : Sortie Verification) (apres : Relais)
  deriving DecidableEq

structure Etat (σ : Type*) where
  relais : Relais
  issue : Issue
  appels : List Appel
  monde : σ

/-- What follows a turn: the next one, a closed issue, or an exception of the caller that the
loop lets through. -/
inductive Suite (σ : Type*) where
  | continuer (e : Etat σ)
  | clore (e : Etat σ)
  | echapper (e : Etat σ)

/-- What `tourner` leaves: its issue unless it raises, and the calls it made. -/
structure Bilan (σ : Type*) where
  issue : Option Issue
  relais : Relais
  appels : List Appel
  monde : σ

def verdictDe (verification : Verification) : Verdict :=
  match verification.porte with
  | .verdict v => v
  | .texte "reussi" => .reussi
  | .texte "echoue" => .echoue
  | .texte _ => .indisponible

def nourrirLeRelais (relais : Relais) (verification : Verification) : Relais :=
  let constat := Lib.Texte.ou ((verification.resume.bind id).getD "") verification.raison
  if constat = "" then relais else relais.ajouterPreuve "vérification" constat .echoue

variable {σ : Type*}

namespace Etat

def noter (e : Etat σ) (tour : Tour) : Etat σ :=
  { e with issue := { e.issue with tours := e.issue.tours ++ [tour] } }

def arreter (e : Etat σ) (arret : Arret) (raison : String) : Etat σ :=
  { e with issue := { e.issue with arret := arret, raison := raison } }

end Etat

/-- `mot` tells the characters of words, as in `classer`. -/
def arreterSurLErreur (mot : Char → Bool) (e : Etat σ) (numero : Nat) (phase : Phase)
    (texte : String) : Suite σ :=
  let cause := (classer mot texte {}).cause
  let detail := String.ofList (texte.toList.take 400)
  let e := e.noter { numero := numero, phase := phase, cause := cause, detail := detail }
  let e := { e with relais := { e.relais with echec := detail, cause := cause } }
  if (remede cause).reessayer then .continuer e
  else .clore (e.arreter .causeNonReprenable (explication cause))

/-- What the loop does of a verification that has been answered. -/
def juger (e : Etat σ) (numero : Nat) (verification : Verification) : Suite σ :=
  let verdict := verdictDe verification
  let e := e.noter { numero := numero, phase := .verification, verdict := verdict }
  match verdict with
  | .reussi =>
      match e.relais.contrat with
      | none => .echapper e
      | some contrat =>
          if contrat.tenu then
            let e := e.arreter .contratTenu contrat.resume
            .clore { e with issue := { e.issue with tenu := true } }
          else .continuer { e with relais := nourrirLeRelais e.relais verification }
  | .indisponible =>
      .clore (e.arreter .inverifiable
        "la vérification n'a pas su conclure — ce n'est ni un succès ni un échec")
  | .echoue => .continuer { e with relais := nourrirLeRelais e.relais verification }

/-- `max(1, int(tours))`. -/
def budget (b : Boucle σ) : Nat := (max 1 b.tours).toNat

def verification (b : Boucle σ) (numero : Nat) (e : Etat σ) : Suite σ :=
  let (sortie, relais, monde) := b.verifier e.relais e.monde
  let e := { e with
    relais := relais, monde := monde, appels := e.appels ++ [.verifier sortie relais] }
  match sortie with
  | .rendu verification => juger e numero verification
  | .leve _ | .echappe => .echapper e

def phase (numero : Nat) : Phase := if numero = 1 then .execution else .reparation

def tour (mot : Char → Bool) (b : Boucle σ) (numero : Nat) (e : Etat σ) : Suite σ :=
  let (sortie, relais, monde) := b.executer e.relais (phase numero) e.monde
  let e := { e with
    relais := relais, monde := monde,
    appels := e.appels ++ [.executer (phase numero) sortie relais] }
  match sortie with
  | .echappe => .echapper e
  | .leve texte => arreterSurLErreur mot e numero (phase numero) texte
  | .rendu () =>
      b.verification numero
        (e.noter { numero := numero, phase := phase numero, detail := "exécuté" })

/-- The turns that are left, from this number on. -/
def toursRestants (mot : Char → Bool) (b : Boucle σ) : Nat → Nat → Etat σ → Suite σ
  | 0, _, e => .continuer e
  | restants + 1, numero, e =>
      match b.tour mot numero e with
      | .continuer e' => toursRestants mot b restants (numero + 1) e'
      | fin => fin

def prendreLeFilet (b : Boucle σ) (relais : Relais) (monde : σ) : Suite σ :=
  let debut : Issue := { arret := .budget }
  match b.pointDeReprise with
  | none => .continuer ⟨relais, debut, [], monde⟩
  | some prendre =>
      let (sortie, relais, monde) := prendre relais monde
      match sortie with
      | .rendu checkpoint =>
          .continuer ⟨relais, { debut with checkpoint := checkpoint }, [.filet], monde⟩
      | .leve _ => .continuer ⟨relais, debut, [.filet], monde⟩
      | .echappe => .echapper ⟨relais, debut, [.filet], monde⟩

/-- What the turns leave once they are over. -/
def conclure (b : Boucle σ) : Suite σ → Bilan σ
  | .echapper e => ⟨none, e.relais, e.appels, e.monde⟩
  | .clore e => ⟨some e.issue, e.relais, e.appels, e.monde⟩
  | .continuer e =>
      let issue := e.relais.contrat.map fun contrat =>
        { e.issue with raison := s!"{b.budget} tour(s) sans que le contrat soit tenu : "
            ++ contrat.resume }
      ⟨issue, e.relais, e.appels, e.monde⟩

def suite (mot : Char → Bool) (b : Boucle σ) (relais : Relais) (monde : σ) : Suite σ :=
  match b.prendreLeFilet relais monde with
  | .continuer e => b.toursRestants mot b.budget 1 e
  | fin => fin

def tourner (mot : Char → Bool) (b : Boucle σ) (relais : Relais) (monde : σ) : Bilan σ :=
  match relais.contrat with
  | none =>
      ⟨some { arret := .sansContrat, raison := "aucun contrat : rien à vérifier" },
        relais, [], monde⟩
  | some _ => b.conclure (b.suite mot relais monde)

namespace Appel

def estExecution : Appel → Bool
  | executer .. => true
  | filet | verifier .. => false

def arret (mot : Char → Bool) : Appel → Option Arret
  | verifier (.rendu v) _ => if verdictDe v = .indisponible then some .inverifiable else none
  | executer _ (.leve texte) _ =>
      if (remede (classer mot texte {}).cause).reessayer then none
      else some .causeNonReprenable
  | _ => none

/-- A verification that concluded, on a contract that is held at that moment. -/
def Tient : Appel → Prop
  | verifier (.rendu v) apres =>
      verdictDe v = .reussi ∧ ∃ contrat, apres.contrat = some contrat ∧ contrat.tenu = true
  | _ => False

end Appel

variable {mot : Char → Bool}

structure EnCours (mot : Char → Bool) (e : Etat σ) : Prop where
  arret : e.issue.arret = .budget
  tenu : e.issue.tenu = false
  appels : ∀ a ∈ e.appels, a.arret mot = none

structure Finie (mot : Char → Bool) (close : Bool) (e : Etat σ) : Prop where
  tenu : e.issue.tenu = true → close = true ∧ e.issue.arret = .contratTenu ∧
    ∃ avant a, e.appels = avant ++ [a] ∧ a.Tient
  arret : ∀ avant a apres, e.appels = avant ++ a :: apres → ∀ arret, a.arret mot = some arret →
    apres = [] ∧ close = true ∧ e.issue.arret = arret ∧ e.issue.tenu = false

def executions (e : Etat σ) : Nat := e.appels.countP Appel.estExecution

/-- What a turn, or a run of turns, leaves after at most this number of executions. -/
def Suite.Bonne (mot : Char → Bool) (bound : Nat) : Suite σ → Prop
  | continuer e => EnCours mot e ∧ executions e ≤ bound
  | clore e => Finie mot true e ∧ executions e ≤ bound
  | echapper e => Finie mot false e ∧ executions e ≤ bound

/-- The state that a call has just been recorded in, before anything is made of its outcome. -/
structure VientDe (mot : Char → Bool) (bound : Nat) (a : Appel) (e : Etat σ) : Prop where
  appels : ∃ avant, e.appels = avant ++ [a] ∧ ∀ x ∈ avant, x.arret mot = none
  arret : e.issue.arret = .budget
  tenu : e.issue.tenu = false
  executions : executions e ≤ bound

section

variable {bound : Nat} {a : Appel} {e e' : Etat σ}

theorem VientDe.continuer (h : VientDe mot bound a e) (happels : e'.appels = e.appels)
    (hbudget : e'.issue.arret = e.issue.arret) (htenu : e'.issue.tenu = e.issue.tenu)
    (ha : a.arret mot = none) : (Suite.continuer e').Bonne mot bound := by
  obtain ⟨avant, hsplit, havant⟩ := h.appels
  refine ⟨⟨hbudget.trans h.arret, htenu.trans h.tenu, fun x hx => ?_⟩, ?_⟩
  · rw [happels, hsplit] at hx
    rcases List.mem_append.mp hx with hx | hx
    · exact havant x hx
    · rw [List.mem_singleton.mp hx]
      exact ha
  · simp only [Boucle.executions, happels]
    exact h.executions

theorem VientDe.finie (h : VientDe mot bound a e) (happels : e'.appels = e.appels)
    {close : Bool}
    (htenu : e'.issue.tenu = true → close = true ∧ e'.issue.arret = .contratTenu ∧ a.Tient)
    (harret : ∀ arret, a.arret mot = some arret →
      close = true ∧ e'.issue.arret = arret ∧ e'.issue.tenu = false) :
    Finie mot close e' ∧ Boucle.executions e' ≤ bound := by
  obtain ⟨avant, hsplit, havant⟩ := h.appels
  rw [← happels] at hsplit
  refine ⟨⟨fun ht => ?_, fun debut x suite hx arret hstop => ?_⟩, ?_⟩
  · obtain ⟨hclose, hcontrat, htient⟩ := htenu ht
    exact ⟨hclose, hcontrat, avant, a, hsplit, htient⟩
  · have heq : debut ++ x :: suite = avant ++ [a] := hx.symm.trans hsplit
    rcases List.eq_nil_or_concat suite with rfl | ⟨milieu, y, rfl⟩
    · obtain ⟨-, hlast⟩ := List.append_inj' heq rfl
      obtain rfl : x = a := by simpa using hlast
      exact ⟨rfl, harret arret hstop⟩
    · have hinit : debut ++ x :: milieu = avant := by
        have hassoc : (debut ++ x :: milieu) ++ [y] = avant ++ [a] := by simpa using heq
        exact (List.append_inj' hassoc rfl).1
      have hnone := havant x (by simp [← hinit])
      rw [hnone] at hstop
      cases hstop
  · simp only [Boucle.executions, happels]
    exact h.executions

theorem VientDe.clore (h : VientDe mot bound a e) (happels : e'.appels = e.appels)
    (htenu : e'.issue.tenu = true → e'.issue.arret = .contratTenu ∧ a.Tient)
    (harret : ∀ arret, a.arret mot = some arret → e'.issue.arret = arret ∧ e'.issue.tenu = false) :
    (Suite.clore e').Bonne mot bound :=
  h.finie happels (fun ht => ⟨rfl, htenu ht⟩) fun arret ha => ⟨rfl, harret arret ha⟩

theorem VientDe.echapper (h : VientDe mot bound a e) (happels : e'.appels = e.appels)
    (htenu : e'.issue.tenu = e.issue.tenu) (ha : a.arret mot = none) :
    (Suite.echapper e').Bonne mot bound := by
  refine h.finie happels (fun ht => ?_) fun arret harret => ?_
  · rw [htenu, h.tenu] at ht
    cases ht
  · rw [ha] at harret
    cases harret

-- The suite has a name here: otherwise `Bonne` unfolds it, and `classer` with it.
theorem arreterSurLErreur_bonne {numero : Nat} {phase : Phase} {texte : String} {apres : Relais}
    {suite : Suite σ} (h : VientDe mot bound (.executer phase (.leve texte) apres) e)
    (hsuite : arreterSurLErreur mot e numero phase texte = suite) : suite.Bonne mot bound := by
  subst hsuite
  simp only [arreterSurLErreur]
  generalize hcause : (classer mot texte {}).cause = cause
  split
  · next hretry =>
      refine h.continuer rfl rfl rfl ?_
      simp only [Appel.arret, hcause, hretry, if_true]
  · next hstop =>
      refine h.clore rfl ?_ ?_
      · intro ht
        exact absurd (ht.symm.trans h.tenu) (by decide)
      · intro arret harret
        simp only [Appel.arret, hcause, hstop, if_false, Bool.false_eq_true, Option.some.injEq]
          at harret
        exact ⟨harret, h.tenu⟩

theorem juger_bonne {numero : Nat} {verification : Verification} {apres : Relais}
    (h : VientDe mot bound (.verifier (.rendu verification) apres) e) (hrelais : e.relais = apres) :
    (juger e numero verification).Bonne mot bound := by
  subst hrelais
  simp only [juger]
  cases hverdict : verdictDe verification with
  | reussi =>
      have harret : (Appel.verifier (.rendu verification) e.relais).arret mot = none := by
        simp [Appel.arret, hverdict]
      simp only [Etat.noter]
      cases hcontrat : e.relais.contrat with
      | none => exact h.echapper rfl rfl harret
      | some contrat =>
          simp only
          split
          · next htenu =>
              refine h.clore rfl ?_ ?_
              · exact fun _ => ⟨rfl, hverdict, contrat, hcontrat, htenu⟩
              · intro arret ha
                simp [harret] at ha
          · exact h.continuer rfl rfl rfl harret
  | indisponible =>
      refine h.clore rfl ?_ ?_
      · intro ht
        exact absurd (ht.symm.trans h.tenu) (by decide)
      · intro arret ha
        simp only [Appel.arret, hverdict, if_true, Option.some.injEq] at ha
        exact ⟨ha, h.tenu⟩
  | echoue =>
      refine h.continuer rfl rfl rfl ?_
      simp [Appel.arret, hverdict]

end

theorem verification_bonne (b : Boucle σ) {bound numero : Nat} {e : Etat σ}
    (h : EnCours mot e) (hbound : executions e ≤ bound) :
    (b.verification numero e).Bonne mot bound := by
  unfold verification
  generalize b.verifier e.relais e.monde = reponse
  obtain ⟨sortie, relais, monde⟩ := reponse
  have hvient : VientDe mot bound (.verifier sortie relais)
      { e with relais := relais, monde := monde,
               appels := e.appels ++ [.verifier sortie relais] } :=
    { appels := ⟨e.appels, rfl, h.appels⟩
      arret := h.arret
      tenu := h.tenu
      executions := by simpa [executions, Appel.estExecution] using hbound }
  cases sortie with
  | rendu verification => exact juger_bonne hvient rfl
  | leve texte => exact hvient.echapper rfl rfl rfl
  | echappe => exact hvient.echapper rfl rfl rfl

theorem tour_bonne (b : Boucle σ) {bound numero : Nat} {e : Etat σ} (h : EnCours mot e)
    (hbound : executions e ≤ bound) : (b.tour mot numero e).Bonne mot (bound + 1) := by
  unfold tour
  generalize b.executer e.relais (phase numero) e.monde = reponse
  obtain ⟨sortie, relais, monde⟩ := reponse
  have hvient : VientDe mot (bound + 1) (.executer (phase numero) sortie relais)
      { e with relais := relais, monde := monde,
               appels := e.appels ++ [.executer (phase numero) sortie relais] } :=
    { appels := ⟨e.appels, rfl, h.appels⟩
      arret := h.arret
      tenu := h.tenu
      executions := by simpa [executions, Appel.estExecution] using hbound }
  cases sortie with
  | rendu u =>
      obtain ⟨hencours, hn⟩ := hvient.continuer rfl rfl rfl rfl
      exact verification_bonne b ⟨hencours.arret, hencours.tenu, hencours.appels⟩ hn
  | leve texte =>
      dsimp only
      generalize hsuite : arreterSurLErreur mot _ _ _ _ = suite
      exact arreterSurLErreur_bonne hvient hsuite
  | echappe => exact hvient.echapper rfl rfl rfl

theorem Suite.Bonne.mono {suite : Suite σ} {bound bound' : Nat} (h : suite.Bonne mot bound)
    (hle : bound ≤ bound') : suite.Bonne mot bound' := by
  cases suite <;> exact ⟨h.1, h.2.trans hle⟩

theorem toursRestants_bonne (b : Boucle σ) (restants : Nat) {bound numero : Nat} {e : Etat σ}
    (h : EnCours mot e) (hbound : executions e ≤ bound) :
    (b.toursRestants mot restants numero e).Bonne mot (bound + restants) := by
  induction restants generalizing numero e bound with
  | zero => exact ⟨h, hbound⟩
  | succ restants ih =>
      have htour : (b.tour mot numero e).Bonne mot (bound + 1) := tour_bonne b h hbound
      rw [toursRestants]
      cases hsuite : b.tour mot numero e with
      | continuer e' =>
          rw [hsuite] at htour
          exact (ih htour.1 htour.2).mono (by omega)
      | clore e' =>
          rw [hsuite] at htour
          exact htour.mono (by omega)
      | echapper e' =>
          rw [hsuite] at htour
          exact htour.mono (by omega)

theorem prendreLeFilet_bonne (b : Boucle σ) (relais : Relais) (monde : σ) :
    (b.prendreLeFilet relais monde).Bonne mot 0 := by
  unfold prendreLeFilet
  cases b.pointDeReprise with
  | none => exact ⟨⟨rfl, rfl, by simp⟩, Nat.le_refl 0⟩
  | some prendre =>
      dsimp only
      generalize prendre relais monde = reponse
      obtain ⟨sortie, relais, monde⟩ := reponse
      have hvient : VientDe mot 0 .filet
          (⟨relais, { arret := .budget }, [.filet], monde⟩ : Etat σ) :=
        ⟨⟨[], rfl, by simp⟩, rfl, rfl, Nat.le_refl 0⟩
      cases sortie with
      | rendu checkpoint => exact hvient.continuer rfl rfl rfl rfl
      | leve texte => exact hvient.continuer rfl rfl rfl rfl
      | echappe => exact hvient.echapper rfl rfl rfl

theorem suite_bonne (b : Boucle σ) (relais : Relais) (monde : σ) :
    (b.suite mot relais monde).Bonne mot b.budget := by
  have hfilet : (b.prendreLeFilet relais monde).Bonne mot 0 := prendreLeFilet_bonne b relais monde
  unfold suite
  cases hsuite : b.prendreLeFilet relais monde with
  | continuer e =>
      rw [hsuite] at hfilet
      simpa using toursRestants_bonne b b.budget hfilet.1 hfilet.2
  | clore e =>
      rw [hsuite] at hfilet
      exact hfilet.mono (Nat.zero_le _)
  | echapper e =>
      rw [hsuite] at hfilet
      exact hfilet.mono (Nat.zero_le _)

/-- What `tourner` may leave: a bounded number of executions, no call after one that commands a
stop, and a success only over a verification that concluded on a contract that was held. -/
structure Honnete (mot : Char → Bool) (budget : Nat) (bilan : Bilan σ) : Prop where
  executions : bilan.appels.countP Appel.estExecution ≤ budget
  tenu : ∀ issue, bilan.issue = some issue → issue.tenu = true →
    issue.arret = .contratTenu ∧ ∃ avant a, bilan.appels = avant ++ [a] ∧ a.Tient
  arret : ∀ avant a apres, bilan.appels = avant ++ a :: apres →
    ∀ arret, a.arret mot = some arret → apres = [] ∧
      ∃ issue, bilan.issue = some issue ∧ issue.arret = arret ∧ issue.tenu = false

theorem conclure_honnete (b : Boucle σ) {suite : Suite σ} {budget : Nat}
    (h : suite.Bonne mot budget) : Honnete mot budget (b.conclure suite) := by
  cases suite with
  | continuer e =>
      obtain ⟨hencours, hn⟩ := h
      refine ⟨hn, fun issue hissue htenu => ?_, fun avant a apres hsplit arret harret => ?_⟩
      · obtain ⟨contrat, -, rfl⟩ := Option.map_eq_some_iff.mp hissue
        exact absurd (htenu.symm.trans hencours.tenu) (by decide)
      · have hnone := hencours.appels a (by rw [show e.appels = _ from hsplit]; simp)
        rw [hnone] at harret
        cases harret
  | clore e =>
      obtain ⟨hfinie, hn⟩ := h
      refine ⟨hn, fun issue hissue htenu => ?_, fun avant a apres hsplit arret harret => ?_⟩
      · cases hissue
        exact (hfinie.tenu htenu).2
      · obtain ⟨happres, -, hissue⟩ := hfinie.arret avant a apres hsplit arret harret
        exact ⟨happres, e.issue, rfl, hissue⟩
  | echapper e =>
      obtain ⟨hfinie, hn⟩ := h
      refine ⟨hn, fun issue hissue _ => ?_, fun avant a apres hsplit arret harret => ?_⟩
      · cases hissue
      obtain ⟨-, hclose, -⟩ := hfinie.arret avant a apres hsplit arret harret
      cases hclose

/-- Whatever the caller's code does, the loop executes at most `max(1, tours)` times, reports a
success only over a contract it has just found held, stops at once on an unavailable verdict or
on a cause that forbids a retry, and does nothing at all without a contract. -/
theorem tourner_honnete (b : Boucle σ) (mot : Char → Bool) (relais : Relais) (monde : σ) :
    Honnete mot (max 1 b.tours).toNat (b.tourner mot relais monde) ∧
      (relais.contrat = none →
        (b.tourner mot relais monde).appels = [] ∧
          ∃ issue, (b.tourner mot relais monde).issue = some issue ∧
            issue.arret = .sansContrat ∧ issue.tenu = false) := by
  unfold tourner
  cases hcontrat : relais.contrat with
  | none =>
      refine ⟨⟨Nat.zero_le _, ?_, ?_⟩, fun _ => ⟨rfl, _, rfl, rfl, rfl⟩⟩
      · rintro issue ⟨⟩ htenu
        cases htenu
      · intro avant a apres hsplit
        simp at hsplit
  | some contrat =>
      exact ⟨conclure_honnete b (suite_bonne b relais monde), fun h => by cases h⟩

end Boucle

end Hermes
