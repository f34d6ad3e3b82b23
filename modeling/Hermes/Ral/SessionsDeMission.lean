import Hermes.Lib.Dict
import Hermes.Lib.Runs

/-! # One agent session per key of work

The registry holds the open sessions, one per key, up to a ceiling.
-/

namespace Hermes.SessionsDeMission

open Lib

structure Entree where
  workspace : String
  tours : Nat := 0
  derniereActivite : Int
  deriving DecidableEq

inductive Requete where
  | tour (workspace texte amorce modele : String)
  | disponiblePour
  | fermer
  | repartirANeuf
  deriving DecidableEq

inductive Reponse where
  | disponible (ok : Bool) (raison : String)
  | tour
  | fait
  | leve (raison : String)
  deriving DecidableEq

inductive Phase where
  | attend
  /-- `client.fermer` in the purge, with the expired keys that remain. -/
  | purge (reste : List String)
  /-- `client.fermer` of a session that the call itself closes. -/
  | fermeture
  /-- `client.ouvrir`. -/
  | ouverture
  /-- `client.choisir_modele`. -/
  | choix (ref : Nat)
  /-- `client.tour`, the second time after a recovery. -/
  | sert (ref : Nat) (reprise : Bool)
  | attendReprise
  | repriseFermeture
  | repriseOuverture
  | rendue (r : Reponse)
  deriving DecidableEq

structure Appel where
  cle : String
  requete : Requete
  phase : Phase := .attend
  message : String := ""
  deriving DecidableEq

structure Registre where
  entrees : Dict String Nat := []
  /-- The sessions that have been opened; a closed one may still be held by a call. -/
  sessions : List Entree := []
  toursPerdus : Dict String Nat := []
  aRenouveler : List String := []
  identifiants : Dict String String := []
  verrou : Option Nat := none
  maintenant : Int := 0
  appels : List Appel := []
  /-- The sessions that the purge or a recovery has closed while a turn was served by them. -/
  tuees : List Nat := []
  deriving DecidableEq

inductive Issue where
  /-- With the identifier of the session that was opened, if it is an opening. -/
  | ok (identifiant : String)
  | exception (raison : String)
  /-- What `except Exception` lets through, a cancellation for one. -/
  | base (raison : String)
  deriving DecidableEq

/-- The call has this session, between the lock and the end of its turn. -/
def Phase.tient (ref : Nat) : Phase → Bool
  | .choix r => r == ref
  | .sert r _ => r == ref
  | _ => false

def Registre.occupee (s : Registre) (ref : Nat) : Bool :=
  s.appels.any fun c => c.phase.tient ref

section Pas

-- the ceiling, the time to live, and `fabrique().disponible()`
variable (plafond : Nat) (ttl : Int) (disponible : Bool × String)

def Registre.suspendre (s : Registre) (i : Nat) (phase : Phase) : Registre :=
  { s with appels := s.appels.modify i fun c => { c with phase := phase } }

def Registre.liberer (s : Registre) (i : Nat) (phase : Phase) : Registre :=
  { s.suspendre i phase with verrou := none }

/-- `_fermer_sans_verrou` of a registered session, up to `client.fermer`; `compte` for the purge
and the recoveries. -/
def Registre.fermerSansVerrou (s : Registre) (cle : String) (ref : Nat) (compte : Bool) :
    Registre :=
  { s with
    entrees := s.entrees.erase cle
    tuees := if compte ∧ s.occupee ref then s.tuees ++ [ref] else s.tuees }

/-- `_ouvrir` after `client.ouvrir`. -/
def Registre.enregistrer (s : Registre) (cle workspace identifiant : String) : Registre :=
  { s with
    identifiants := if identifiant = "" then s.identifiants
      else s.identifiants.set cle identifiant
    sessions := s.sessions ++ [{ workspace := workspace, derniereActivite := s.maintenant }]
    entrees := s.entrees.set cle s.sessions.length }

/-- `f"{amorce}\n\n{texte}" if (premier and amorce) else texte`. -/
def composer (premier : Bool) (amorce texte : String) : String :=
  if premier ∧ amorce ≠ "" then amorce ++ "\n\n" ++ texte else texte

/-- The message is composed from the turns that the session counts at that moment. -/
def Registre.ecrireMessage (s : Registre) (i ref : Nat) (texte amorce : String) : Registre :=
  let premier := (s.sessions[ref]?).all fun e => e.tours = 0
  { s with appels := s.appels.modify i fun c =>
      { c with message := composer premier amorce texte } }

/-- The session is in hand and the lock is released. -/
def Registre.engager (s : Registre) (i ref : Nat) (texte amorce modele : String) : Registre :=
  if modele = "" then (s.ecrireMessage i ref texte amorce).liberer i (.sert ref false)
  else s.liberer i (.choix ref)

/-- A session is opened when the ceiling leaves room for it. -/
def Registre.ouvrirSiPlace (s : Registre) (i : Nat) : Registre :=
  if plafond ≤ s.entrees.length then
    s.liberer i (.rendue (.leve ("plafond de " ++ toString plafond ++ " sessions atteint")))
  else s.suspendre i .ouverture

/-- What `tour` and `disponible_pour` do after the purge. -/
def Registre.apresPurge (s : Registre) (i : Nat) (c : Appel) : Registre :=
  match c.requete with
  | .tour workspace texte amorce modele =>
      match s.entrees.get? c.cle with
      | none => s.ouvrirSiPlace plafond i
      | some ref =>
          if (s.sessions[ref]?).any fun e => e.workspace ≠ workspace then
            (s.fermerSansVerrou c.cle ref false).suspendre i .fermeture
          else s.engager i ref texte amorce modele
  | _ =>
      if c.cle ∈ s.entrees.keys then s.liberer i (.rendue (.disponible true ""))
      else if plafond ≤ s.entrees.length then
        s.liberer i (.rendue (.disponible false (toString s.entrees.length ++
          " sessions déjà ouvertes (plafond " ++ toString plafond ++ ")")))
      else s.liberer i (.rendue (.disponible disponible.1 disponible.2))

/-- The keys without activity for longer than the time to live. -/
def Registre.expirees (s : Registre) : List String :=
  (s.entrees.filter fun item =>
    (s.sessions[item.2]?).any fun e => ttl < s.maintenant - e.derniereActivite).map Prod.fst

def Registre.purger (s : Registre) (i : Nat) (c : Appel) : List String → Registre
  | [] => s.apresPurge plafond disponible i c
  | cle :: reste =>
      match s.entrees.get? cle with
      | none => s.purger i c reste
      | some ref => (s.fermerSansVerrou cle ref true).suspendre i (.purge reste)

def victime (entrees : Dict String Nat) : List String → Option Nat
  | [] => none
  | cle :: reste =>
      match entrees.get? cle with
      | none => victime entrees reste
      | some ref => some ref

/-- The end of `fermer` and of `repartir_a_neuf`. -/
def Registre.finirFermeture (s : Registre) (i : Nat) (c : Appel) : Registre :=
  match c.requete with
  | .repartirANeuf =>
      { s with
        identifiants := s.identifiants.erase c.cle
        toursPerdus := s.toursPerdus.erase c.cle
        aRenouveler := s.aRenouveler.filter (· ≠ c.cle) }.liberer i (.rendue .fait)
  | _ => s.liberer i (.rendue .fait)

def Registre.entrer (s : Registre) (i : Nat) (c : Appel) : Registre :=
  match c.requete with
  | .tour .. | .disponiblePour => s.purger plafond disponible i c (s.expirees ttl)
  | .fermer | .repartirANeuf =>
      match s.entrees.get? c.cle with
      | none => s.finirFermeture i c
      | some ref => (s.fermerSansVerrou c.cle ref false).suspendre i .fermeture

def Registre.reprendre (s : Registre) (i : Nat) (c : Appel) : Registre :=
  match s.entrees.get? c.cle with
  | none => s.suspendre i .repriseOuverture
  | some ref => (s.fermerSansVerrou c.cle ref true).suspendre i .repriseFermeture

def Requete.workspace : Requete → String
  | .tour workspace _ _ _ => workspace
  | _ => ""

def Requete.texte : Requete → String
  | .tour _ texte _ _ => texte
  | _ => ""

def Requete.amorce : Requete → String
  | .tour _ _ amorce _ => amorce
  | _ => ""

def Registre.ouverte (s : Registre) (i : Nat) (c : Appel) (identifiant : String) : Registre :=
  let s' := s.enregistrer c.cle c.requete.workspace identifiant
  match c.requete with
  | .tour _ texte amorce modele => s'.engager i s.sessions.length texte amorce modele
  | _ => s'.liberer i (.rendue .fait)

def Registre.servie (s : Registre) (i ref : Nat) : Registre :=
  { s with
    sessions := s.sessions.modify ref fun e =>
      { e with tours := e.tours + 1, derniereActivite := s.maintenant } }.suspendre i
        (.rendue .tour)

/-- The call goes on when what it awaits under the lock ends, without a `BaseException`. -/
def Registre.continuer (s : Registre) (i : Nat) (c : Appel) (issue : Issue) :
    Option Registre :=
  match c.phase, issue with
  | .purge reste, _ => some (s.purger plafond disponible i c reste)
  | .fermeture, _ =>
      match c.requete with
      | .tour .. => some (s.ouvrirSiPlace plafond i)
      | _ => some (s.finirFermeture i c)
  | .ouverture, .ok identifiant => some (s.ouverte i c identifiant)
  | .ouverture, .exception raison => some (s.liberer i (.rendue (.leve raison)))
  | .repriseFermeture, _ => some (s.suspendre i .repriseOuverture)
  | .repriseOuverture, .ok identifiant =>
      some ((s.enregistrer c.cle c.requete.workspace identifiant).liberer i
        (.sert s.sessions.length true))
  | .repriseOuverture, .exception raison => some (s.liberer i (.rendue (.leve raison)))
  | .choix ref, .ok _ =>
      some ((s.ecrireMessage i ref c.requete.texte c.requete.amorce).suspendre i (.sert ref false))
  | .choix _, .exception raison => some (s.suspendre i (.rendue (.leve raison)))
  | .sert ref _, .ok _ => some (s.servie i ref)
  | .sert _ false, .exception _ => some (s.suspendre i .attendReprise)
  | .sert _ true, .exception raison => some (s.suspendre i (.rendue (.leve raison)))
  | _, _ => none

def Phase.sousVerrou : Phase → Bool
  | .purge _ => true
  | .fermeture => true
  | .ouverture => true
  | .repriseFermeture => true
  | .repriseOuverture => true
  | _ => false

/-- A `BaseException` ends the call, and its lock with it. -/
def Registre.abandonner (s : Registre) (i : Nat) (c : Appel) (raison : String) :
    Option Registre :=
  match c.phase with
  | .rendue _ => none
  | phase =>
      if phase.sousVerrou then some (s.liberer i (.rendue (.leve raison)))
      else some (s.suspendre i (.rendue (.leve raison)))

inductive Evenement where
  | horloge (maintenant : Int)
  | appel (cle : String) (requete : Requete)
  | interrompre (cle : String)
  | prendre (i : Nat)
  | suite (i : Nat) (issue : Issue)
  deriving DecidableEq

def pas (s : Registre) : Evenement → Option Registre
  | .horloge maintenant =>
      if s.maintenant ≤ maintenant then some { s with maintenant := maintenant } else none
  | .appel cle requete =>
      let phase : Phase :=
        if requete = .disponiblePour ∧ cle = "" then
          .rendue (.disponible false "aucun identifiant de mission : rien à faire durer")
        else .attend
      some { s with appels := s.appels ++ [{ cle := cle, requete := requete, phase := phase }] }
  | .interrompre _ => some s
  | .prendre i =>
      match s.verrou, s.appels[i]? with
      | none, some c =>
          match c.phase with
          | .attend => some ({ s with verrou := some i }.entrer plafond ttl disponible i c)
          | .attendReprise => some ({ s with verrou := some i }.reprendre i c)
          | _ => none
      | _, _ => none
  | .suite i issue =>
      match s.appels[i]? with
      | none => none
      | some c =>
          match issue with
          | .base raison => s.abandonner i c raison
          | issue => s.continuer plafond disponible i c issue

end Pas

structure Sain (plafond : Nat) (s : Registre) : Prop where
  plafond : s.entrees.length ≤ plafond
  cles : s.entrees.keys.Nodup
  vivantes : s.tuees = []

/-- The steps that keep it: a purge closes no session that serves a turn, nor does a recovery,
and a recovery registers its session under a known key or below the ceiling. -/
def Permis (plafond : Nat) (ttl : Int) (s : Registre) : Evenement → Prop
  | .prendre i => ∀ c, s.appels[i]? = some c →
      match c.phase, c.requete with
      | .attend, .tour .. | .attend, .disponiblePour =>
          ∀ ref, victime s.entrees (s.expirees ttl) = some ref → s.occupee ref = false
      | .attendReprise, _ => ∀ ref, s.entrees.get? c.cle = some ref → s.occupee ref = false
      | _, _ => True
  | .suite i issue => ∀ c, s.appels[i]? = some c →
      match c.phase, issue with
      | .purge _, .base _ => True
      | .purge reste, _ => ∀ ref, victime s.entrees reste = some ref → s.occupee ref = false
      | .repriseOuverture, .ok _ => c.cle ∈ s.entrees.keys ∨ s.entrees.length < plafond
      | _, _ => True
  | _ => True

section Invariant

variable {plafond : Nat} {ttl : Int} {disponible : Bool × String} {s s' : Registre} {i : Nat}
  {c : Appel}

/-- The calls in a phase under the lock hold it, and an opening still has its place. -/
structure Inv (plafond : Nat) (s : Registre) : Prop where
  verrous : ∀ (j : Nat) (c : Appel), s.appels[j]? = some c → c.phase.sousVerrou = true →
    s.verrou = some j
  place : ∀ (j : Nat) (c : Appel), s.appels[j]? = some c → c.phase = .ouverture →
    s.entrees.length < plafond

/-- What the body of the call `i` leaves behind: the other calls where they were, and the lock
to itself if it is still inside. -/
structure Corps (plafond i : Nat) (appels : List Appel) (s' : Registre) : Prop where
  autres : ∀ j, j ≠ i → s'.appels[j]? = appels[j]?
  verrou : ∀ c, s'.appels[i]? = some c → c.phase.sousVerrou = true → s'.verrou = some i
  place : ∀ c, s'.appels[i]? = some c → c.phase = .ouverture → s'.entrees.length < plafond

theorem sousVerrou_ouverture : Phase.sousVerrou .ouverture = true := rfl

theorem Corps.inv (h : Corps plafond i s.appels s')
    (hseul : ∀ (j : Nat) (c : Appel), j ≠ i → s.appels[j]? = some c →
      c.phase.sousVerrou = false) : Inv plafond s' := by
  have hmoi : ∀ (j : Nat) (c : Appel), s'.appels[j]? = some c → c.phase.sousVerrou = true →
      j = i := by
    intro j c hj hverrou
    by_contra hne
    rw [h.autres j hne] at hj
    rw [hseul j c hne hj] at hverrou
    cases hverrou
  constructor
  · intro j c hj hverrou
    cases hmoi j c hj hverrou
    exact h.verrou c hj hverrou
  · intro j c hj hphase
    cases hmoi j c hj (hphase ▸ sousVerrou_ouverture)
    exact h.place c hj hphase

theorem phase_modify {appels : List Appel} {f : Appel → Appel} {phase : Phase}
    (hf : ∀ c, (f c).phase = phase) {c : Appel} (h : (appels.modify i f)[i]? = some c) :
    c.phase = phase := by
  rw [List.getElem?_modify_eq] at h
  cases hold : appels[i]? with
  | none => simp [hold] at h
  | some ancien =>
      have heq : f ancien = c := by simpa [hold] using h
      rw [← heq, hf]

theorem autres_modify {appels : List Appel} {f : Appel → Appel} {j : Nat} (h : j ≠ i) :
    (appels.modify i f)[j]? = appels[j]? :=
  List.getElem?_modify_ne f _ (Ne.symm h)

theorem corps_liberer {phase : Phase} (h : phase.sousVerrou = false) :
    Corps plafond i s.appels (s.liberer i phase) := by
  constructor
  · exact fun j hj => autres_modify hj
  · intro c hc hverrou
    rw [phase_modify (f := fun c => { c with phase := phase }) (fun _ => rfl) hc, h] at hverrou
    cases hverrou
  · intro c hc hphase
    rw [phase_modify (f := fun c => { c with phase := phase }) (fun _ => rfl) hc] at hphase
    rw [hphase] at h
    cases h

theorem corps_suspendre {phase : Phase} (hverrou : phase.sousVerrou = true → s.verrou = some i)
    (hplace : phase = .ouverture → s.entrees.length < plafond) :
    Corps plafond i s.appels (s.suspendre i phase) := by
  constructor
  · exact fun j hj => autres_modify hj
  · intro c hc h
    rw [phase_modify (f := fun c => { c with phase := phase }) (fun _ => rfl) hc] at h
    exact hverrou h
  · intro c hc h
    rw [phase_modify (f := fun c => { c with phase := phase }) (fun _ => rfl) hc] at h
    exact hplace h

theorem corps_engager (ref : Nat) (texte amorce modele : String) :
    Corps plafond i s.appels (s.engager i ref texte amorce modele) := by
  unfold Registre.engager
  split
  · have hcorps : Corps plafond i (s.ecrireMessage i ref texte amorce).appels
        ((s.ecrireMessage i ref texte amorce).liberer i (.sert ref false)) := corps_liberer rfl
    exact ⟨fun j hj => (hcorps.autres j hj).trans (autres_modify hj), hcorps.verrou, hcorps.place⟩
  · exact corps_liberer rfl

theorem corps_ouvrirSiPlace (h : s.verrou = some i) :
    Corps plafond i s.appels (s.ouvrirSiPlace plafond i) := by
  unfold Registre.ouvrirSiPlace
  split
  · exact corps_liberer rfl
  · next hplace => exact corps_suspendre (fun _ => h) fun _ => by omega

theorem corps_apresPurge (h : s.verrou = some i) :
    Corps plafond i s.appels (s.apresPurge plafond disponible i c) := by
  unfold Registre.apresPurge
  split
  · split
    · exact corps_ouvrirSiPlace h
    · next ref _ =>
        split
        · exact corps_suspendre (s := s.fermerSansVerrou c.cle ref false) (fun _ => h) nofun
        · exact corps_engager ref _ _ _
  · split
    · exact corps_liberer rfl
    · split <;> exact corps_liberer rfl

theorem corps_purger (h : s.verrou = some i) (reste : List String) :
    Corps plafond i s.appels (s.purger plafond disponible i c reste) := by
  induction reste with
  | nil => exact corps_apresPurge h
  | cons cle reste ih =>
      unfold Registre.purger
      split
      · exact ih
      · next ref _ =>
          exact corps_suspendre (s := s.fermerSansVerrou cle ref true) (fun _ => h) nofun

theorem corps_finirFermeture : Corps plafond i s.appels (s.finirFermeture i c) := by
  unfold Registre.finirFermeture
  split
  · exact corps_liberer (s := { s with
      identifiants := s.identifiants.erase c.cle
      toursPerdus := s.toursPerdus.erase c.cle
      aRenouveler := s.aRenouveler.filter (· ≠ c.cle) }) rfl
  · exact corps_liberer rfl

theorem corps_entrer (h : s.verrou = some i) :
    Corps plafond i s.appels (s.entrer plafond ttl disponible i c) := by
  have hferme : Corps plafond i s.appels (match s.entrees.get? c.cle with
      | none => s.finirFermeture i c
      | some ref => (s.fermerSansVerrou c.cle ref false).suspendre i .fermeture) := by
    split
    · exact corps_finirFermeture
    · next ref _ =>
        exact corps_suspendre (s := s.fermerSansVerrou c.cle ref false) (fun _ => h) nofun
  unfold Registre.entrer
  cases c.requete with
  | tour workspace texte amorce modele => exact corps_purger h _
  | disponiblePour => exact corps_purger h _
  | fermer => exact hferme
  | repartirANeuf => exact hferme

theorem corps_reprendre (h : s.verrou = some i) :
    Corps plafond i s.appels (s.reprendre i c) := by
  unfold Registre.reprendre
  split
  · exact corps_suspendre (fun _ => h) nofun
  · next ref _ =>
      exact corps_suspendre (s := s.fermerSansVerrou c.cle ref true) (fun _ => h) nofun

theorem corps_ouverte (identifiant : String) :
    Corps plafond i s.appels (s.ouverte i c identifiant) := by
  unfold Registre.ouverte
  dsimp only
  split
  · exact corps_engager (s := s.enregistrer c.cle c.requete.workspace identifiant)
      s.sessions.length _ _ _
  · exact corps_liberer (s := s.enregistrer c.cle c.requete.workspace identifiant) rfl

theorem Inv.seul (h : Inv plafond s) (hc : s.appels[i]? = some c)
    (hphase : c.phase.sousVerrou = true) (j : Nat) (c' : Appel) (hj : j ≠ i)
    (hc' : s.appels[j]? = some c') : c'.phase.sousVerrou = false := by
  cases hverrou : c'.phase.sousVerrou with
  | false => rfl
  | true =>
      have hdeux := (h.verrous j c' hc' hverrou).symm.trans (h.verrous i c hc hphase)
      exact absurd (Option.some.inj hdeux) hj

theorem Inv.suspendre (h : Inv plafond s) {phase : Phase} (hphase : phase.sousVerrou = false) :
    Inv plafond (s.suspendre i phase) := by
  have hmoi : ∀ (j : Nat) (c : Appel), (s.suspendre i phase).appels[j]? = some c →
      c.phase.sousVerrou = true → s.appels[j]? = some c := by
    intro j c hj hverrou
    by_cases hne : j = i
    · subst hne
      rw [phase_modify (f := fun c => { c with phase := phase }) (fun _ => rfl) hj, hphase]
        at hverrou
      cases hverrou
    · exact (autres_modify hne).symm.trans hj
  constructor
  · exact fun j c hj hverrou => h.verrous j c (hmoi j c hj hverrou) hverrou
  · exact fun j c hj hp => h.place j c (hmoi j c hj (hp ▸ sousVerrou_ouverture)) hp

theorem Inv.congr (h : Inv plafond s) (happels : s'.appels = s.appels)
    (hverrou : s'.verrou = s.verrou) (hentrees : s'.entrees = s.entrees) : Inv plafond s' := by
  constructor
  · intro j c hj hphase
    rw [hverrou]
    exact h.verrous j c (happels ▸ hj) hphase
  · intro j c hj hphase
    rw [hentrees]
    exact h.place j c (happels ▸ hj) hphase

theorem appel_modify {appels : List Appel} {f : Appel → Appel} {j : Nat} {c : Appel}
    (hf : ∀ c, (f c).phase = c.phase) (h : (appels.modify i f)[j]? = some c) :
    ∃ d, appels[j]? = some d ∧ d.phase = c.phase := by
  by_cases hj : j = i
  · rw [hj, List.getElem?_modify_eq] at h
    obtain ⟨d, hd, rfl⟩ := Option.map_eq_some_iff.mp h
    exact ⟨d, hj ▸ hd, (hf d).symm⟩
  · exact ⟨c, (autres_modify hj).symm.trans h, rfl⟩

theorem Inv.ecrireMessage (h : Inv plafond s) (ref : Nat) (texte amorce : String) :
    Inv plafond (s.ecrireMessage i ref texte amorce) := by
  constructor
  · intro j c hj hphase
    obtain ⟨d, hd, heq⟩ := appel_modify (by intro c; rfl) hj
    exact h.verrous j d hd (heq ▸ hphase)
  · intro j c hj hphase
    obtain ⟨d, hd, heq⟩ := appel_modify (by intro c; rfl) hj
    exact h.place j d hd (heq.trans hphase)

theorem inv_continuer (h : Inv plafond s) (hc : s.appels[i]? = some c) {issue : Issue}
    (hs : s.continuer plafond disponible i c issue = some s') : Inv plafond s' := by
  have hseul := h.seul hc
  have hverrou := h.verrous i c hc
  unfold Registre.continuer at hs
  split at hs
  · next reste _ hphase =>
      cases hs
      rw [hphase] at hseul hverrou
      exact (corps_purger (hverrou rfl) _).inv (hseul rfl)
  · next hphase =>
      rw [hphase] at hseul hverrou
      split at hs
      · cases hs
        exact (corps_ouvrirSiPlace (hverrou rfl)).inv (hseul rfl)
      · cases hs
        exact corps_finirFermeture.inv (hseul rfl)
  · next identifiant hphase =>
      cases hs
      rw [hphase] at hseul
      exact (corps_ouverte identifiant).inv (hseul rfl)
  · next raison hphase =>
      cases hs
      rw [hphase] at hseul
      exact (corps_liberer rfl).inv (hseul rfl)
  · next hphase =>
      cases hs
      rw [hphase] at hseul hverrou
      have hcorps : Corps plafond i s.appels (s.suspendre i .repriseOuverture) :=
        corps_suspendre (fun _ => hverrou rfl) nofun
      exact hcorps.inv (hseul rfl)
  · next identifiant hphase =>
      cases hs
      rw [hphase] at hseul
      let s₁ := s.enregistrer c.cle c.requete.workspace identifiant
      have hcorps : Corps plafond i s₁.appels (s₁.liberer i (.sert s.sessions.length true)) :=
        corps_liberer rfl
      exact Corps.inv (s := s) hcorps (hseul rfl)
  · next raison hphase =>
      cases hs
      rw [hphase] at hseul
      exact (corps_liberer rfl).inv (hseul rfl)
  · cases hs
    exact (h.ecrireMessage _ _ _).suspendre rfl
  · cases hs
    exact h.suspendre rfl
  · next ref _ _ _ =>
      cases hs
      exact Inv.suspendre (s := { s with
        sessions := s.sessions.modify ref fun e =>
          { e with tours := e.tours + 1, derniereActivite := s.maintenant } })
        (h.congr rfl rfl rfl) rfl
  · cases hs
    exact h.suspendre rfl
  · cases hs
    exact h.suspendre rfl
  · cases hs

theorem inv_abandonner (h : Inv plafond s) (hc : s.appels[i]? = some c) {raison : String}
    (hs : s.abandonner i c raison = some s') : Inv plafond s' := by
  unfold Registre.abandonner at hs
  split at hs
  · cases hs
  · next phase _ =>
      split at hs
      · next hphase =>
          cases hs
          exact (corps_liberer rfl).inv (h.seul hc hphase)
      · cases hs
        exact h.suspendre rfl

theorem inv_appel (h : Inv plafond s) (c : Appel) (hc : c.phase.sousVerrou = false) :
    Inv plafond { s with appels := s.appels ++ [c] } := by
  have hancien : ∀ (j : Nat) (c' : Appel), (s.appels ++ [c])[j]? = some c' →
      c'.phase.sousVerrou = true → s.appels[j]? = some c' := by
    intro j c' hj hverrou
    rw [List.getElem?_append] at hj
    split at hj
    · exact hj
    · rw [List.getElem?_singleton] at hj
      split at hj
      · cases hj
        rw [hc] at hverrou
        cases hverrou
      · cases hj
  constructor
  · exact fun j c' hj hverrou => h.verrous j c' (hancien j c' hj hverrou) hverrou
  · exact fun j c' hj hp => h.place j c' (hancien j c' hj (hp ▸ sousVerrou_ouverture)) hp

theorem Inv.libre (h : Inv plafond s) (hlibre : s.verrou = none) (j : Nat) (c : Appel)
    (hc : s.appels[j]? = some c) : c.phase.sousVerrou = false := by
  cases hverrou : c.phase.sousVerrou with
  | false => rfl
  | true =>
      rw [h.verrous j c hc hverrou] at hlibre
      cases hlibre

theorem prendre_cas (hs : pas plafond ttl disponible s (.prendre i) = some s') :
    s.verrou = none ∧ ∃ c, s.appels[i]? = some c ∧
      ((c.phase = .attend ∧
          s' = ({ s with verrou := some i } : Registre).entrer plafond ttl disponible i c) ∨
        (c.phase = .attendReprise ∧
          s' = ({ s with verrou := some i } : Registre).reprendre i c)) := by
  simp only [pas] at hs
  split at hs
  · next c hlibre hc =>
      refine ⟨hlibre, c, hc, ?_⟩
      split at hs
      · next hphase =>
          cases hs
          exact .inl ⟨hphase, rfl⟩
      · next hphase =>
          cases hs
          exact .inr ⟨hphase, rfl⟩
      · cases hs
  · cases hs

theorem inv_pas (h : Inv plafond s) (ev : Evenement)
    (hs : pas plafond ttl disponible s ev = some s') : Inv plafond s' := by
  cases ev with
  | horloge maintenant =>
      simp only [pas] at hs
      split at hs
      · cases hs
        exact h.congr rfl rfl rfl
      · cases hs
  | appel cle requete =>
      cases hs
      refine inv_appel h _ ?_
      dsimp only
      split <;> rfl
  | interrompre cle =>
      cases hs
      exact h
  | prendre i =>
      obtain ⟨hlibre, c, _, hcas⟩ := prendre_cas hs
      have hseul := fun j c' (_ : j ≠ i) hc' => h.libre hlibre j c' hc'
      rcases hcas with ⟨_, rfl⟩ | ⟨_, rfl⟩
      · exact (corps_entrer (s := { s with verrou := some i }) rfl).inv hseul
      · exact (corps_reprendre (s := { s with verrou := some i }) rfl).inv hseul
  | suite i issue =>
      simp only [pas] at hs
      split at hs
      · cases hs
      · next c hc =>
          split at hs
          · exact inv_abandonner h hc hs
          · exact inv_continuer h hc hs

theorem Sain.congr (h : Sain plafond s) (hentrees : s'.entrees = s.entrees)
    (htuees : s'.tuees = s.tuees) : Sain plafond s' :=
  ⟨hentrees ▸ h.plafond, hentrees ▸ h.cles, htuees.trans h.vivantes⟩

theorem sain_fermer (h : Sain plafond s) {cle : String} {ref : Nat} {compte : Bool}
    (hlibre : compte = true → s.occupee ref = false) :
    Sain plafond (s.fermerSansVerrou cle ref compte) := by
  constructor
  · have hcourt : (s.entrees.erase cle).length ≤ s.entrees.length := List.length_filter_le _ _
    exact Nat.le_trans hcourt h.plafond
  · exact Dict.nodup_keys_erase h.cles cle
  · have hcompte : ¬(compte = true ∧ s.occupee ref = true) := by
      intro ⟨hc, hoccupee⟩
      rw [hlibre hc] at hoccupee
      cases hoccupee
    simp only [Registre.fermerSansVerrou, hcompte, if_false]
    exact h.vivantes

theorem sain_enregistrer (h : Sain plafond s) {cle workspace identifiant : String}
    (hplace : cle ∈ s.entrees.keys ∨ s.entrees.length < plafond) :
    Sain plafond (s.enregistrer cle workspace identifiant) := by
  constructor
  · show (s.entrees.set cle s.sessions.length).length ≤ plafond
    have := h.plafond
    rw [Dict.length_set]
    split
    · omega
    · next hnot =>
        have hlt := hplace.resolve_left hnot
        omega
  · exact Dict.nodup_keys_set h.cles _ _
  · exact h.vivantes

theorem sain_engager (h : Sain plafond s) (ref : Nat) (texte amorce modele : String) :
    Sain plafond (s.engager i ref texte amorce modele) := by
  unfold Registre.engager
  split <;> exact h.congr rfl rfl

theorem sain_apresPurge (h : Sain plafond s) :
    Sain plafond (s.apresPurge plafond disponible i c) := by
  unfold Registre.apresPurge
  split
  · split
    · unfold Registre.ouvrirSiPlace
      split <;> exact h.congr rfl rfl
    · next ref _ =>
        split
        · have hferme : Sain plafond (s.fermerSansVerrou c.cle ref false) := sain_fermer h nofun
          exact hferme.congr rfl rfl
        · exact sain_engager h ref _ _ _
  · split
    · exact h.congr rfl rfl
    · split <;> exact h.congr rfl rfl

theorem sain_purger (h : Sain plafond s) {reste : List String}
    (hlibre : ∀ ref, victime s.entrees reste = some ref → s.occupee ref = false) :
    Sain plafond (s.purger plafond disponible i c reste) := by
  induction reste with
  | nil => exact sain_apresPurge h
  | cons cle reste ih =>
      unfold Registre.purger
      split
      · next hnone =>
          apply ih
          intro ref href
          exact hlibre ref (by simpa [victime, hnone] using href)
      · next ref href =>
          have hferme : Sain plafond (s.fermerSansVerrou cle ref true) :=
            sain_fermer h fun _ => hlibre ref (by simp [victime, href])
          exact hferme.congr rfl rfl

theorem sain_entrer (h : Sain plafond s)
    (hlibre : (∃ workspace texte amorce modele,
        c.requete = .tour workspace texte amorce modele) ∨ c.requete = .disponiblePour →
      ∀ ref, victime s.entrees (s.expirees ttl) = some ref → s.occupee ref = false) :
    Sain plafond (s.entrer plafond ttl disponible i c) := by
  have hferme : Sain plafond (match s.entrees.get? c.cle with
      | none => s.finirFermeture i c
      | some ref => (s.fermerSansVerrou c.cle ref false).suspendre i .fermeture) := by
    split
    · unfold Registre.finirFermeture
      split <;> exact h.congr rfl rfl
    · next ref _ =>
        have hsans : Sain plafond (s.fermerSansVerrou c.cle ref false) := sain_fermer h nofun
        exact hsans.congr rfl rfl
  unfold Registre.entrer
  cases hrequete : c.requete with
  | tour workspace texte amorce modele =>
      exact sain_purger h (hlibre (.inl ⟨_, _, _, _, hrequete⟩))
  | disponiblePour => exact sain_purger h (hlibre (.inr hrequete))
  | fermer => exact hferme
  | repartirANeuf => exact hferme

theorem sain_reprendre (h : Sain plafond s)
    (hlibre : ∀ ref, s.entrees.get? c.cle = some ref → s.occupee ref = false) :
    Sain plafond (s.reprendre i c) := by
  unfold Registre.reprendre
  split
  · exact h.congr rfl rfl
  · next ref href =>
      have hferme : Sain plafond (s.fermerSansVerrou c.cle ref true) :=
        sain_fermer h fun _ => hlibre ref href
      exact hferme.congr rfl rfl

theorem sain_ouverte (h : Sain plafond s) (hplace : s.entrees.length < plafond)
    (identifiant : String) : Sain plafond (s.ouverte i c identifiant) := by
  have henregistree : Sain plafond (s.enregistrer c.cle c.requete.workspace identifiant) :=
    sain_enregistrer h (.inr hplace)
  unfold Registre.ouverte
  dsimp only
  split
  · exact sain_engager henregistree _ _ _ _
  · exact henregistree.congr rfl rfl

theorem sain_continuer (hinv : Inv plafond s) (h : Sain plafond s)
    (hc : s.appels[i]? = some c) {issue : Issue} (hissue : ∀ raison, issue ≠ .base raison)
    (hpermis : Permis plafond ttl s (.suite i issue))
    (hs : s.continuer plafond disponible i c issue = some s') : Sain plafond s' := by
  have hpermis' := hpermis c hc
  have hlibre : ∀ reste, c.phase = .purge reste →
      ∀ ref, victime s.entrees reste = some ref → s.occupee ref = false := by
    intro reste hphase
    rw [hphase] at hpermis'
    cases issue with
    | ok identifiant => exact hpermis'
    | exception raison => exact hpermis'
    | base raison => exact absurd rfl (hissue raison)
  unfold Registre.continuer at hs
  split at hs
  · next hphase =>
      cases hs
      exact sain_purger h (hlibre _ hphase)
  · split at hs
    · cases hs
      unfold Registre.ouvrirSiPlace
      split <;> exact h.congr rfl rfl
    · cases hs
      unfold Registre.finirFermeture
      split <;> exact h.congr rfl rfl
  · next identifiant hphase =>
      cases hs
      exact sain_ouverte h (hinv.place i c hc hphase) identifiant
  · cases hs
    exact h.congr rfl rfl
  · cases hs
    exact h.congr rfl rfl
  · next identifiant hphase =>
      cases hs
      rw [hphase] at hpermis'
      have henregistree : Sain plafond (s.enregistrer c.cle c.requete.workspace identifiant) :=
        sain_enregistrer h hpermis'
      exact henregistree.congr rfl rfl
  all_goals
    cases hs
    try exact h.congr rfl rfl

theorem sain_pas (ev : Evenement) (h : Inv plafond s ∧ Sain plafond s)
    (hpermis : Permis plafond ttl s ev) (hs : pas plafond ttl disponible s ev = some s') :
    Inv plafond s' ∧ Sain plafond s' := by
  refine ⟨inv_pas h.1 ev hs, ?_⟩
  cases ev with
  | horloge maintenant =>
      simp only [pas] at hs
      split at hs
      · cases hs
        exact h.2.congr rfl rfl
      · cases hs
  | appel cle requete =>
      cases hs
      exact h.2.congr rfl rfl
  | interrompre cle =>
      cases hs
      exact h.2
  | prendre i =>
      obtain ⟨_, c, hc, hcas⟩ := prendre_cas hs
      have hpermis' := hpermis c hc
      have hpris : Sain plafond { s with verrou := some i } := h.2.congr rfl rfl
      rcases hcas with ⟨hphase, rfl⟩ | ⟨hphase, rfl⟩
      · refine sain_entrer hpris fun hrequete => ?_
        rw [hphase] at hpermis'
        rcases hrequete with ⟨workspace, texte, amorce, modele, hrequete⟩ | hrequete
        · rw [hrequete] at hpermis'
          exact hpermis'
        · rw [hrequete] at hpermis'
          exact hpermis'
      · rw [hphase] at hpermis'
        exact sain_reprendre hpris hpermis'
  | suite i issue =>
      simp only [pas] at hs
      split at hs
      · cases hs
      · next c hc =>
          split at hs
          · unfold Registre.abandonner at hs
            split at hs
            · cases hs
            · split at hs <;> cases hs <;> exact h.2.congr rfl rfl
          · next hissue => exact sain_continuer h.1 h.2 hc hissue hpermis hs

theorem tuees_fermer (cle : String) {ref : Nat} (h : s.occupee ref = true) :
    (s.fermerSansVerrou cle ref true).tuees ≠ [] := by
  simp [Registre.fermerSansVerrou, h]

theorem tuees_purger {reste : List String} {ref : Nat} (hvictime : victime s.entrees reste = some ref)
    (h : s.occupee ref = true) : (s.purger plafond disponible i c reste).tuees ≠ [] := by
  induction reste with
  | nil => cases hvictime
  | cons cle reste ih =>
      cases href : s.entrees.get? cle with
      | none =>
          simp only [victime, href] at hvictime
          simp only [Registre.purger, href]
          exact ih hvictime
      | some ref' =>
          simp only [victime, href, Option.some.injEq] at hvictime
          subst hvictime
          simp only [Registre.purger, href]
          exact tuees_fermer cle h

theorem libre_of_purger {reste : List String}
    (hs' : Sain plafond (s.purger plafond disponible i c reste)) (ref : Nat)
    (href : victime s.entrees reste = some ref) : s.occupee ref = false := by
  cases hoccupee : s.occupee ref with
  | false => rfl
  | true => exact absurd hs'.vivantes (tuees_purger href hoccupee)

theorem libre_of_reprendre (hs' : Sain plafond (s.reprendre i c)) (ref : Nat)
    (href : s.entrees.get? c.cle = some ref) : s.occupee ref = false := by
  cases hoccupee : s.occupee ref with
  | false => rfl
  | true =>
      simp only [Registre.reprendre, href] at hs'
      exact absurd hs'.vivantes (tuees_fermer c.cle hoccupee)

theorem place_of_enregistrer {cle workspace identifiant : String}
    (hs' : Sain plafond (s.enregistrer cle workspace identifiant)) :
    cle ∈ s.entrees.keys ∨ s.entrees.length < plafond := by
  have hlong : (s.entrees.set cle s.sessions.length).length ≤ plafond := hs'.plafond
  rw [Dict.length_set] at hlong
  split at hlong
  · next hmem => exact .inl hmem
  · exact .inr (by omega)

theorem permis_of_sain (ev : Evenement) (hs : pas plafond ttl disponible s ev = some s')
    (h' : Sain plafond s') : Permis plafond ttl s ev := by
  cases ev with
  | horloge maintenant => trivial
  | appel cle requete => trivial
  | interrompre cle => trivial
  | prendre i =>
      intro c hc
      obtain ⟨_, c', hc', hcas⟩ := prendre_cas hs
      cases hc'.symm.trans hc
      rcases hcas with ⟨hphase, rfl⟩ | ⟨hphase, rfl⟩
      · rw [hphase]
        cases hrequete : c.requete with
        | tour workspace texte amorce modele =>
            simp only [Registre.entrer, hrequete] at h'
            exact libre_of_purger (s := { s with verrou := some i }) h'
        | disponiblePour =>
            simp only [Registre.entrer, hrequete] at h'
            exact libre_of_purger (s := { s with verrou := some i }) h'
        | fermer => trivial
        | repartirANeuf => trivial
      · rw [hphase]
        exact libre_of_reprendre (s := { s with verrou := some i }) h'
  | suite i issue =>
      intro c hc
      simp only [pas, hc] at hs
      split
      · trivial
      · next reste hphase hbase =>
          split at hs
          · next raison => exact absurd rfl (hbase raison)
          · simp only [Registre.continuer, hphase] at hs
            cases hs
            exact libre_of_purger h'
      · next identifiant hphase =>
          simp only [Registre.continuer, hphase] at hs
          cases hs
          have henregistree : Sain plafond
              (s.enregistrer c.cle c.requete.workspace identifiant) := h'.congr rfl rfl
          exact place_of_enregistrer henregistree
      · trivial

end Invariant

end Hermes.SessionsDeMission
