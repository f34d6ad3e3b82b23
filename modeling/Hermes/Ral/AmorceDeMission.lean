import Hermes.Ral.SessionsDeMission

/-! # What the contexts of the agent receive

A session is a process; the context that it serves is the agent's, which finds it again by its
identifier.
-/

namespace Hermes.SessionsDeMission

open Lib

/-- A message that a context has received, and the call that it comes from. -/
structure Envoi where
  amorce : String
  texte : String
  message : String
  deriving DecidableEq

structure Monde where
  registre : Registre := {}
  contexteDe : List Nat := []
  recus : List (List Envoi) := []
  agents : Dict String Nat := []
  /-- The calls whose message has reached the agent, in their current attempt. -/
  livres : List Nat := []
  deriving DecidableEq

inductive Fait where
  | registre (ev : Evenement)
  | livrer (i : Nat)
  deriving DecidableEq

def Phase.compose : Phase → Bool
  | .sert _ _ => true
  | .attendReprise => true
  | .repriseFermeture => true
  | .repriseOuverture => true
  | _ => false

def Phase.session : Phase → Option Nat
  | .choix ref => some ref
  | .sert ref _ => some ref
  | _ => none

namespace Monde

/-- The context that an opening resumes: the agent answers the identifier it was asked for. -/
def repris (m : Monde) (cle identifiant : String) : Option Nat :=
  match m.registre.identifiants.get? cle with
  | some ancien => if identifiant = ancien then m.agents.get? ancien else none
  | none => none

def ouvrir (m : Monde) (cle identifiant : String) : Monde :=
  match m.repris cle identifiant with
  | some k => { m with contexteDe := m.contexteDe ++ [k] }
  | none =>
      { m with
        contexteDe := m.contexteDe ++ [m.recus.length]
        recus := m.recus ++ [[]]
        agents := m.agents.set identifiant m.recus.length }

/-- What a step of the registry does to the agent's side. -/
def suivre (m : Monde) : Evenement → Option Monde
  | .suite i issue =>
      match m.registre.appels[i]? with
      | none => some m
      | some c =>
          match c.phase, issue with
          | .ouverture, .ok identifiant => some (m.ouvrir c.cle identifiant)
          | .repriseOuverture, .ok identifiant => some (m.ouvrir c.cle identifiant)
          | .sert _ _, .ok _ =>
              if i ∈ m.livres then some { m with livres := m.livres.filter (· ≠ i) } else none
          | .sert _ _, _ => some { m with livres := m.livres.filter (· ≠ i) }
          | _, _ => some m
  | _ => some m

/-- The message reaches the context once in an attempt, while the call waits for its turn. -/
def livrer (m : Monde) (i : Nat) : Option Monde :=
  match m.registre.appels[i]? with
  | none => none
  | some c =>
      match c.phase with
      | .sert ref _ =>
          if i ∈ m.livres then none
          else
            (m.contexteDe[ref]?).map fun k =>
              { m with
                livres := i :: m.livres
                recus := m.recus.modify k
                  (· ++ [⟨c.requete.amorce, c.requete.texte, c.message⟩]) }
      | _ => none

end Monde

section Faits

variable (plafond : Nat) (ttl : Int) (disponible : Bool × String)

def avancer (m : Monde) : Fait → Option Monde
  | .registre ev =>
      match pas plafond ttl disponible m.registre ev, m.suivre ev with
      | some s, some m' => some { m' with registre := s }
      | _, _ => none
  | .livrer i => m.livrer i

end Faits

/-- Every context receives what the mission begins with in its first message, and in no other. -/
def Amorces (m : Monde) : Prop :=
  ∀ log ∈ m.recus, ∀ n e, log[n]? = some e → e.message = composer (n = 0) e.amorce e.texte

/-- The message carries what the mission begins with. -/
def Appel.porte (c : Appel) : Prop :=
  c.requete.amorce ≠ "" ∧ c.message = composer true c.requete.amorce c.requete.texte

/-- The message leaves out what the mission begins with. -/
def Appel.nue (c : Appel) : Prop := c.requete.amorce ≠ "" ∧ c.message = c.requete.texte

/-- The message of the call is on its way to this context. -/
def Monde.enVoie (m : Monde) (j : Nat) (c : Appel) (k : Nat) : Prop :=
  m.registre.appels[j]? = some c ∧ ∃ ref reprise, c.phase = .sert ref reprise ∧
    m.contexteDe[ref]? = some k ∧ j ∉ m.livres

/-- The context may be sent the message of this call: nobody is about to bring it what the
mission begins with; a message that brings it finds the context untouched and awaited by nobody;
a message that leaves it out finds a context that has received something. -/
structure Accueille (recus : List (List Envoi)) (enVoie : Nat → Appel → Nat → Prop) (k : Nat)
    (c : Appel) : Prop where
  libre : ∀ j c', enVoie j c' k → ¬ c'.porte
  neuf : c.porte → recus[k]? = some [] ∧ ∀ j c', ¬ enVoie j c' k
  entame : c.nue → recus[k]? ≠ some []

def Appel.premier (c : Appel) : Appel :=
  { c with message := composer true c.requete.amorce c.requete.texte }

/-- A session that counts no turn has a context that may be sent what is composed for it. -/
def Monde.servable (m : Monde) (ref : Nat) (c : Appel) : Prop :=
  ∀ e k, m.registre.sessions[ref]? = some e → e.tours = 0 → m.contexteDe[ref]? = some k →
    Accueille m.recus m.enVoie k c.premier

/-- The call finds a session registered under its key, for its workspace, and chooses no model. -/
def Monde.retrouvee (m : Monde) (c : Appel) : Prop :=
  ∀ workspace texte amorce, c.requete = .tour workspace texte amorce "" →
    ∀ ref, m.registre.entrees.get? c.cle = some ref →
      (∀ e, m.registre.sessions[ref]? = some e → e.workspace = workspace) → m.servable ref c

def PermisAmorce (ttl : Int) (m : Monde) : Fait → Prop
  | .registre (.prendre i) => ∀ c, m.registre.appels[i]? = some c → c.phase = .attend →
      victime m.registre.entrees (m.registre.expirees ttl) = none → m.retrouvee c
  | .registre (.suite i issue) => ∀ c, m.registre.appels[i]? = some c →
      match c.phase, issue with
      | .purge _, .base _ => True
      | .purge reste, _ => victime m.registre.entrees reste = none → m.retrouvee c
      | .ouverture, .ok identifiant => ∀ workspace texte amorce,
          c.requete = .tour workspace texte amorce "" →
            ∀ k, m.repris c.cle identifiant = some k → Accueille m.recus m.enVoie k c.premier
      | .choix ref, .ok _ => m.servable ref c
      | .repriseOuverture, .ok identifiant =>
          match m.repris c.cle identifiant with
          | some k => Accueille m.recus m.enVoie k c
          | none => ¬ c.nue
      | _, _ => True
  | _ => True

section Effets

variable {plafond : Nat} {ttl : Int} {disponible : Bool × String} {s s' s'' : Registre} {i : Nat}
  {c : Appel}

/-- A message that has been composed carries what the mission begins with, or leaves it out. -/
def Registre.composee (s : Registre) (i : Nat) : Prop :=
  ∀ c, s.appels[i]? = some c → c.phase.compose = true → c.message = c.requete.texte ∨ c.porte

/-- What a call that goes on leaves alone: the other calls and the sessions. -/
structure Effet (i : Nat) (s s' : Registre) : Prop where
  moi : s.composee i → s'.composee i
  autres : ∀ j, j ≠ i → s'.appels[j]? = s.appels[j]?
  sessions : s'.sessions = s.sessions
  entrees : ∀ cle ref, s'.entrees.get? cle = some ref → s.entrees.get? cle = some ref
  identifiants : ∀ cle id, s'.identifiants.get? cle = some id → s.identifiants.get? cle = some id

def Registre.sansSession (s : Registre) (i : Nat) : Prop :=
  ∀ c, s.appels[i]? = some c → c.phase.session = none

/-- The call is given a session: it chooses a model first, or its message is composed. -/
def Registre.donnee (s : Registre) (i : Nat) (c : Appel) (ref : Nat) (premier : Bool) : Prop :=
  s.appels[i]? = some { c with phase := .choix ref } ∨
    (∃ workspace texte amorce, c.requete = .tour workspace texte amorce "") ∧ s.appels[i]? = some
      { c with
        message := composer premier c.requete.amorce c.requete.texte
        phase := .sert ref false }

theorem Effet.trans (h : Effet i s s') (h' : Effet i s' s'') : Effet i s s'' where
  moi hi := h'.moi (h.moi hi)
  autres j hj := (h'.autres j hj).trans (h.autres j hj)
  sessions := h'.sessions.trans h.sessions
  entrees cle ref href := h.entrees cle ref (h'.entrees cle ref href)
  identifiants cle id hid := h.identifiants cle id (h'.identifiants cle id hid)

theorem Effet.composees (heffet : Effet i s s') (h : ∀ j, s.composee j) (j : Nat) :
    s'.composee j := by
  by_cases hj : j = i
  · rw [hj]
    exact heffet.moi (h i)
  · intro c hc
    exact h j c ((heffet.autres j hj).symm.trans hc)

theorem composee_suspendre {phase : Phase}
    (h : phase.compose = false ∨ ∀ c, s.appels[i]? = some c → c.phase.compose = true)
    (hi : s.composee i) : (s.suspendre i phase).composee i := by
  intro c hc hcompose
  rw [Registre.suspendre, List.getElem?_modify_eq] at hc
  obtain ⟨ancien, hancien, rfl⟩ := Option.map_eq_some_iff.mp hc
  rcases h with hphase | hphase
  · rw [hphase] at hcompose
    cases hcompose
  · exact hi ancien hancien (hphase ancien hancien)

theorem effet_suspendre {phase : Phase}
    (h : phase.compose = false ∨ ∀ c, s.appels[i]? = some c → c.phase.compose = true) :
    Effet i s (s.suspendre i phase) :=
  ⟨composee_suspendre h, fun _ hj => autres_modify hj, rfl, fun _ _ h => h, fun _ _ h => h⟩

theorem effet_liberer {phase : Phase}
    (h : phase.compose = false ∨ ∀ c, s.appels[i]? = some c → c.phase.compose = true) :
    Effet i s (s.liberer i phase) :=
  ⟨composee_suspendre h, fun _ hj => autres_modify hj, rfl, fun _ _ h => h, fun _ _ h => h⟩

theorem get?_of_erase {d : Dict String α} {cle cle' : String} {v : α}
    (h : (d.erase cle).get? cle' = some v) : d.get? cle' = some v := by
  rw [Dict.get?_erase] at h
  split_ifs at h
  exact h

theorem effet_fermer (s : Registre) (i : Nat) (cle : String) (ref : Nat) (compte : Bool) :
    Effet i s (s.fermerSansVerrou cle ref compte) :=
  ⟨id, fun _ _ => rfl, rfl, fun _ _ h => get?_of_erase h, fun _ _ h => h⟩

theorem sansSession_suspendre {phase : Phase} (h : phase.session = none) :
    (s.suspendre i phase).sansSession i := by
  intro c hc
  rw [phase_modify (f := fun c => { c with phase := phase }) (fun _ => rfl) hc, h]

theorem sansSession_liberer {phase : Phase} (h : phase.session = none) :
    (s.liberer i phase).sansSession i :=
  sansSession_suspendre h

/-- The call is given the session registered under its key. -/
def Registre.prise (s s' : Registre) (i : Nat) (c : Appel) : Prop :=
  ∃ ref, s.entrees.get? c.cle = some ref ∧
    (∀ e, s.sessions[ref]? = some e → e.workspace = c.requete.workspace) ∧
    s'.donnee i c ref ((s.sessions[ref]?).all fun e => e.tours = 0)

theorem appel_suspendre {phase : Phase} (hc : s.appels[i]? = some c) :
    (s.suspendre i phase).appels[i]? = some { c with phase := phase } := by
  rw [Registre.suspendre, List.getElem?_modify_eq, hc]
  rfl

theorem appel_servir (hc : s.appels[i]? = some c) (ref : Nat) :
    ((s.ecrireMessage i ref c.requete.texte c.requete.amorce).suspendre i (.sert ref false)).appels[i]? =
      some { c with
        message := composer ((s.sessions[ref]?).all fun e => e.tours = 0) c.requete.amorce
          c.requete.texte
        phase := .sert ref false } := by
  rw [Registre.suspendre, Registre.ecrireMessage]
  dsimp only
  rw [List.getElem?_modify_eq, List.getElem?_modify_eq, hc]
  rfl

theorem composer_cas (premier : Bool) (amorce texte : String) :
    composer premier amorce texte = texte ∨
      amorce ≠ "" ∧ composer premier amorce texte = composer true amorce texte := by
  unfold composer
  by_cases hporte : premier = true ∧ amorce ≠ ""
  · exact .inr ⟨hporte.2, by rw [if_pos hporte, if_pos ⟨rfl, hporte.2⟩]⟩
  · exact .inl (if_neg hporte)

theorem effet_servir (hc : s.appels[i]? = some c) (ref : Nat) :
    Effet i s
      ((s.ecrireMessage i ref c.requete.texte c.requete.amorce).suspendre i (.sert ref false)) := by
  refine ⟨?_, ?_, rfl, fun _ _ h => h, fun _ _ h => h⟩
  · intro _ d hd _
    cases hd.symm.trans (appel_servir hc ref)
    exact composer_cas _ c.requete.amorce c.requete.texte
  · intro j hj
    exact (autres_modify hj).trans (autres_modify hj)

theorem effet_engager (hc : s.appels[i]? = some c) {workspace texte amorce modele : String}
    (hrequete : c.requete = .tour workspace texte amorce modele) (ref : Nat) :
    Effet i s (s.engager i ref texte amorce modele) ∧
      (s.engager i ref texte amorce modele).donnee i c ref
        ((s.sessions[ref]?).all fun e => e.tours = 0) := by
  have htexte : c.requete.texte = texte := congrArg Requete.texte hrequete
  have hamorce : c.requete.amorce = amorce := congrArg Requete.amorce hrequete
  unfold Registre.engager
  split
  · next hmodele =>
    rw [hmodele] at hrequete
    have heffet := effet_servir hc ref
    rw [htexte, hamorce] at heffet
    refine ⟨⟨heffet.moi, heffet.autres, heffet.sessions, heffet.entrees, heffet.identifiants⟩,
      .inr ⟨⟨workspace, texte, amorce, hrequete⟩, ?_⟩⟩
    have happel := appel_servir hc ref
    rw [htexte, hamorce] at happel
    rw [htexte, hamorce]
    exact happel
  · exact ⟨effet_liberer (.inl rfl), .inl (appel_suspendre hc)⟩

theorem effet_ouvrirSiPlace (s : Registre) (i : Nat) :
    Effet i s (s.ouvrirSiPlace plafond i) ∧ (s.ouvrirSiPlace plafond i).sansSession i := by
  unfold Registre.ouvrirSiPlace
  split
  · exact ⟨effet_liberer (.inl rfl), sansSession_liberer rfl⟩
  · exact ⟨effet_suspendre (.inl rfl), sansSession_suspendre rfl⟩

theorem effet_apresPurge (hc : s.appels[i]? = some c) :
    Effet i s (s.apresPurge plafond disponible i c) ∧
      ((s.apresPurge plafond disponible i c).sansSession i ∨
        s.prise (s.apresPurge plafond disponible i c) i c) := by
  unfold Registre.apresPurge
  split
  · next workspace texte amorce modele hrequete =>
    split
    · exact ⟨(effet_ouvrirSiPlace s i).1, .inl (effet_ouvrirSiPlace s i).2⟩
    · next ref href =>
      split
      · exact ⟨(effet_fermer s i c.cle ref false).trans (effet_suspendre (.inl rfl)),
          .inl (sansSession_suspendre rfl)⟩
      · next hmeme =>
        obtain ⟨heffet, hdonnee⟩ := effet_engager hc hrequete ref
        refine ⟨heffet, .inr ⟨ref, href, ?_, hdonnee⟩⟩
        intro e he
        rw [he, Option.any_some] at hmeme
        have hegal : e.workspace = workspace := by simpa using hmeme
        exact hegal.trans (congrArg Requete.workspace hrequete).symm
  · split
    · exact ⟨effet_liberer (.inl rfl), .inl (sansSession_liberer rfl)⟩
    · split <;> exact ⟨effet_liberer (.inl rfl), .inl (sansSession_liberer rfl)⟩

theorem effet_purger (hc : s.appels[i]? = some c) (reste : List String) :
    Effet i s (s.purger plafond disponible i c reste) ∧
      ((s.purger plafond disponible i c reste).sansSession i ∨
        victime s.entrees reste = none ∧ s.prise (s.purger plafond disponible i c reste) i c) := by
  induction reste with
  | nil =>
      obtain ⟨heffet, hsuite⟩ := @effet_apresPurge plafond disponible s i c hc
      exact ⟨heffet, hsuite.imp_right fun h => ⟨rfl, h⟩⟩
  | cons cle reste ih =>
      unfold Registre.purger victime
      split
      · exact ih
      · next ref _ =>
        exact ⟨(effet_fermer s i cle ref true).trans (effet_suspendre (.inl rfl)),
          .inl (sansSession_suspendre rfl)⟩

theorem effet_finirFermeture (s : Registre) (i : Nat) (c : Appel) :
    Effet i s (s.finirFermeture i c) ∧ (s.finirFermeture i c).sansSession i := by
  unfold Registre.finirFermeture
  split
  · exact ⟨⟨composee_suspendre (.inl rfl), fun _ hj => autres_modify hj, rfl, fun _ _ h => h,
      fun _ _ h => get?_of_erase h⟩, sansSession_liberer rfl⟩
  · exact ⟨effet_liberer (.inl rfl), sansSession_liberer rfl⟩

theorem effet_entrer (hc : s.appels[i]? = some c) :
    Effet i s (s.entrer plafond ttl disponible i c) ∧
      ((s.entrer plafond ttl disponible i c).sansSession i ∨
        victime s.entrees (s.expirees ttl) = none ∧
          s.prise (s.entrer plafond ttl disponible i c) i c) := by
  unfold Registre.entrer
  cases c.requete with
  | tour workspace texte amorce modele => exact effet_purger hc _
  | disponiblePour => exact effet_purger hc _
  | fermer =>
      dsimp only
      split
      · exact ⟨(effet_finirFermeture s i c).1, .inl (effet_finirFermeture s i c).2⟩
      · next ref _ =>
        exact ⟨(effet_fermer s i c.cle ref false).trans (effet_suspendre (.inl rfl)),
          .inl (sansSession_suspendre rfl)⟩
  | repartirANeuf =>
      dsimp only
      split
      · exact ⟨(effet_finirFermeture s i c).1, .inl (effet_finirFermeture s i c).2⟩
      · next ref _ =>
        exact ⟨(effet_fermer s i c.cle ref false).trans (effet_suspendre (.inl rfl)),
          .inl (sansSession_suspendre rfl)⟩

theorem effet_reprendre (hc : s.appels[i]? = some c) (hphase : c.phase = .attendReprise) :
    Effet i s (s.reprendre i c) ∧ (s.reprendre i c).sansSession i := by
  have hcompose : ∀ d, s.appels[i]? = some d → d.phase.compose = true := by
    intro d hd
    cases hc.symm.trans hd
    rw [hphase]
    rfl
  unfold Registre.reprendre
  split
  · exact ⟨effet_suspendre (.inr hcompose), sansSession_suspendre rfl⟩
  · next ref _ =>
    exact ⟨(effet_fermer s i c.cle ref true).trans (effet_suspendre (.inr hcompose)),
      sansSession_suspendre rfl⟩

end Effets

/-- A message that carries what the mission begins with is alone on its way to an untouched context,
one that leaves it out is on its way to a context that has received something. -/
structure Attentes (recus : List (List Envoi)) (enVoie : Nat → Appel → Nat → Prop) : Prop where
  portes : ∀ j c k, enVoie j c k → c.porte →
    recus[k]? = some [] ∧ ∀ j' c', enVoie j' c' k → j' = j
  nues : ∀ j c k, enVoie j c k → c.nue → recus[k]? ≠ some []

section Attente

variable {recus : List (List Envoi)} {enVoie enVoie' : Nat → Appel → Nat → Prop} {i k : Nat}
  {c c' : Appel}

theorem porte_congr (hrequete : c.requete = c'.requete) (hmessage : c.message = c'.message) :
    c.porte ↔ c'.porte := by
  rw [Appel.porte, Appel.porte, hrequete, hmessage]

theorem nue_congr (hrequete : c.requete = c'.requete) (hmessage : c.message = c'.message) :
    c.nue ↔ c'.nue := by
  rw [Appel.nue, Appel.nue, hrequete, hmessage]

theorem Accueille.congr (h : Accueille recus enVoie k c) (hrequete : c.requete = c'.requete)
    (hmessage : c.message = c'.message) : Accueille recus enVoie k c' where
  libre := h.libre
  neuf hporte := h.neuf ((porte_congr hrequete hmessage).mpr hporte)
  entame hnue := h.entame ((nue_congr hrequete hmessage).mpr hnue)

theorem Accueille.mono (h : Accueille recus enVoie k c)
    (hsub : ∀ j c', enVoie' j c' k → enVoie j c' k) : Accueille recus enVoie' k c where
  libre j c' hvoie := h.libre j c' (hsub j c' hvoie)
  neuf hporte := ⟨(h.neuf hporte).1, fun j c' hvoie => (h.neuf hporte).2 j c' (hsub j c' hvoie)⟩
  entame := h.entame

theorem Attentes.mono (h : Attentes recus enVoie)
    (hsub : ∀ j c' k, enVoie' j c' k →
      ∃ c, enVoie j c k ∧ c.requete = c'.requete ∧ c.message = c'.message) :
    Attentes recus enVoie' := by
  constructor
  · intro j c' k hvoie hporte
    obtain ⟨c, hc, hrequete, hmessage⟩ := hsub j c' k hvoie
    obtain ⟨hvide, hseul⟩ := h.portes j c k hc ((porte_congr hrequete hmessage).mpr hporte)
    refine ⟨hvide, ?_⟩
    intro j' c'' hvoie'
    obtain ⟨d, hd, _⟩ := hsub j' c'' k hvoie'
    exact hseul j' d hd
  · intro j c' k hvoie hnue
    obtain ⟨c, hc, hrequete, hmessage⟩ := hsub j c' k hvoie
    exact h.nues j c k hc ((nue_congr hrequete hmessage).mpr hnue)

theorem Attentes.donner (h : Attentes recus enVoie) (haccueille : Accueille recus enVoie k c)
    (hsub : ∀ j c' k', enVoie' j c' k' → enVoie j c' k' ∨ j = i ∧ c' = c ∧ k' = k) :
    Attentes recus enVoie' := by
  constructor
  · intro j c' k' hvoie hporte
    rcases hsub j c' k' hvoie with hancien | ⟨rfl, rfl, rfl⟩
    · obtain ⟨hvide, hseul⟩ := h.portes j c' k' hancien hporte
      refine ⟨hvide, ?_⟩
      intro j' c'' hvoie'
      rcases hsub j' c'' k' hvoie' with hancien' | ⟨_, _, rfl⟩
      · exact hseul j' c'' hancien'
      · exact absurd hporte (haccueille.libre j c' hancien)
    · obtain ⟨hvide, hseul⟩ := haccueille.neuf hporte
      refine ⟨hvide, ?_⟩
      intro j' c'' hvoie'
      rcases hsub j' c'' k' hvoie' with hancien' | ⟨hj, _⟩
      · exact absurd hancien' (hseul j' c'')
      · exact hj
  · intro j c' k' hvoie hnue
    rcases hsub j c' k' hvoie with hancien | ⟨rfl, rfl, rfl⟩
    · exact h.nues j c' k' hancien hnue
    · exact haccueille.entame hnue

theorem Attentes.neuf (h : Attentes recus enVoie)
    (hconnus : ∀ j c k, enVoie j c k → k < recus.length) : Attentes (recus ++ [[]]) enVoie := by
  constructor
  · intro j c k hvoie hporte
    rw [List.getElem?_append_left (hconnus j c k hvoie)]
    exact h.portes j c k hvoie hporte
  · intro j c k hvoie hnue
    rw [List.getElem?_append_left (hconnus j c k hvoie)]
    exact h.nues j c k hvoie hnue

theorem accueille_neuf (hconnus : ∀ j c k, enVoie j c k → k < recus.length) (hnue : ¬ c.nue) :
    Accueille (recus ++ [[]]) enVoie recus.length c where
  libre j c' hvoie := absurd (hconnus j c' _ hvoie) (lt_irrefl _)
  neuf _ := by
    refine ⟨?_, fun j c' hvoie => absurd (hconnus j c' _ hvoie) (lt_irrefl _)⟩
    rw [List.getElem?_append_right (Nat.le_refl _), Nat.sub_self]
    rfl
  entame h := absurd h hnue

end Attente

structure Suivi (m : Monde) : Prop where
  sessions : m.contexteDe.length = m.registre.sessions.length
  contextes : ∀ (ref k : Nat), m.contexteDe[ref]? = some k → k < m.recus.length
  agents : ∀ id k, m.agents.get? id = some k → k < m.recus.length
  entrees : ∀ cle ref, m.registre.entrees.get? cle = some ref → ref < m.registre.sessions.length
  composees : ∀ j, m.registre.composee j
  servies : ∀ (j : Nat) c ref, m.registre.appels[j]? = some c → c.phase.session = some ref →
    ref < m.registre.sessions.length
  livres : ∀ j ∈ m.livres, ∃ c ref reprise, m.registre.appels[j]? = some c ∧
    c.phase = .sert ref reprise ∧ ∀ k : Nat, m.contexteDe[ref]? = some k → m.recus[k]? ≠ some []
  comptes : ∀ (ref : Nat) e (k : Nat), m.registre.sessions[ref]? = some e → e.tours ≠ 0 →
    m.contexteDe[ref]? = some k → m.recus[k]? ≠ some []
  attentes : Attentes m.recus m.enVoie
  amorces : Amorces m

section Suite

variable {plafond : Nat} {ttl : Int} {disponible : Bool × String} {m m' : Monde} {s' : Registre}
  {i k : Nat} {c : Appel}

theorem Suivi.connus (h : Suivi m) : ∀ j c k, m.enVoie j c k → k < m.recus.length := by
  rintro j c k ⟨_, ref, _, _, hk, _⟩
  exact h.contextes ref k hk

theorem Suivi.not_livre (h : Suivi m) (hc : m.registre.appels[i]? = some c)
    (hphase : ∀ ref reprise, c.phase ≠ .sert ref reprise) : i ∉ m.livres := by
  intro hi
  obtain ⟨d, ref, reprise, hd, hsert, _⟩ := h.livres i hi
  cases hc.symm.trans hd
  exact hphase ref reprise hsert

theorem Suivi.calme (h : Suivi m) (heffet : Effet i m.registre s') (hsans : s'.sansSession i)
    {livres : List Nat} (hlivres : ∀ j, j ∈ livres ↔ j ∈ m.livres ∧ j ≠ i) :
    Suivi { m with registre := s', livres := livres } where
  sessions := h.sessions.trans (congrArg List.length heffet.sessions).symm
  contextes := h.contextes
  agents := h.agents
  entrees := by
    intro cle ref href
    rw [heffet.sessions]
    exact h.entrees cle ref (heffet.entrees cle ref href)
  composees := heffet.composees h.composees
  servies := by
    intro j c ref hc href
    by_cases hj : j = i
    · rw [hsans c (hj ▸ hc)] at href
      cases href
    · rw [heffet.sessions]
      exact h.servies j c ref ((heffet.autres j hj).symm.trans hc) href
  livres := by
    intro j hj
    obtain ⟨hj, hne⟩ := (hlivres j).mp hj
    obtain ⟨c, ref, reprise, hc, hphase, hrecu⟩ := h.livres j hj
    exact ⟨c, ref, reprise, (heffet.autres j hne).trans hc, hphase, hrecu⟩
  comptes := by
    intro ref e k he
    exact h.comptes ref e k (heffet.sessions ▸ he)
  attentes := by
    apply h.attentes.mono
    rintro j c k ⟨hc, ref, reprise, hphase, hk, hlivre⟩
    by_cases hj : j = i
    · have hsession := hsans c (hj ▸ hc)
      rw [hphase] at hsession
      cases hsession
    · exact ⟨c, ⟨(heffet.autres j hj).symm.trans hc, ref, reprise, hphase, hk,
        fun hmem => hlivre ((hlivres j).mpr ⟨hmem, hj⟩)⟩, rfl, rfl⟩
  amorces := h.amorces

theorem Suivi.donner (h : Suivi m) (heffet : Effet i m.registre s') (hi : i ∉ m.livres)
    {d : Appel} (hd : s'.appels[i]? = some d) {ref : Nat} (href : d.phase.session = some ref)
    (hborne : ref < m.registre.sessions.length)
    (haccueille : ∀ reprise, d.phase = .sert ref reprise → ∀ k : Nat,
      m.contexteDe[ref]? = some k → Accueille m.recus m.enVoie k d) :
    Suivi { m with registre := s' } where
  sessions := h.sessions.trans (congrArg List.length heffet.sessions).symm
  contextes := h.contextes
  agents := h.agents
  entrees := by
    intro cle ref href
    rw [heffet.sessions]
    exact h.entrees cle ref (heffet.entrees cle ref href)
  composees := heffet.composees h.composees
  servies := by
    intro j c ref' hc href'
    rw [heffet.sessions]
    by_cases hj : j = i
    · cases hd.symm.trans (hj ▸ hc)
      cases href.symm.trans href'
      exact hborne
    · exact h.servies j c ref' ((heffet.autres j hj).symm.trans hc) href'
  livres := by
    intro j hj
    obtain ⟨c, ref, reprise, hc, hphase, hrecu⟩ := h.livres j hj
    exact ⟨c, ref, reprise, (heffet.autres j (ne_of_mem_of_not_mem hj hi)).trans hc, hphase, hrecu⟩
  comptes := by
    intro ref e k he
    exact h.comptes ref e k (heffet.sessions ▸ he)
  attentes := by
    have hmoi : ∀ c ref' reprise, s'.appels[i]? = some c → c.phase = .sert ref' reprise →
        c = d ∧ ref' = ref := by
      intro c ref' reprise hc hphase
      cases hd.symm.trans hc
      rw [hphase] at href
      exact ⟨rfl, Option.some.inj href⟩
    by_cases hsert : ∃ reprise k, d.phase = .sert ref reprise ∧ m.contexteDe[ref]? = some k
    · obtain ⟨reprise, k, hphase, hk⟩ := hsert
      apply h.attentes.donner (i := i) (haccueille reprise hphase k hk)
      rintro j c k' ⟨hc, ref', reprise', hphase', hk', hlivre⟩
      by_cases hj : j = i
      · obtain ⟨rfl, rfl⟩ := hmoi c ref' reprise' (hj ▸ hc) hphase'
        exact .inr ⟨hj, rfl, Option.some.inj (hk'.symm.trans hk)⟩
      · exact .inl ⟨(heffet.autres j hj).symm.trans hc, ref', reprise', hphase', hk', hlivre⟩
    · apply h.attentes.mono
      rintro j c k ⟨hc, ref', reprise', hphase', hk', hlivre⟩
      by_cases hj : j = i
      · obtain ⟨rfl, rfl⟩ := hmoi c ref' reprise' (hj ▸ hc) hphase'
        exact absurd ⟨reprise', k, hphase', hk'⟩ hsert
      · exact ⟨c, ⟨(heffet.autres j hj).symm.trans hc, ref', reprise', hphase', hk', hlivre⟩,
          rfl, rfl⟩
  amorces := h.amorces

theorem Suivi.contexteNeuf (h : Suivi m) (id : String) :
    Suivi { m with recus := m.recus ++ [[]], agents := m.agents.set id m.recus.length } where
  sessions := h.sessions
  contextes := by
    intro ref k hk
    rw [List.length_append]
    exact Nat.lt_add_right _ (h.contextes ref k hk)
  agents := by
    intro id' k hk
    rw [List.length_append, List.length_singleton]
    rw [Dict.get?_set] at hk
    split_ifs at hk
    · cases hk
      exact Nat.lt_succ_self _
    · exact Nat.lt_add_right _ (h.agents id' k hk)
  entrees := h.entrees
  composees := h.composees
  servies := h.servies
  livres := by
    intro j hj
    obtain ⟨c, ref, reprise, hc, hphase, hrecu⟩ := h.livres j hj
    refine ⟨c, ref, reprise, hc, hphase, ?_⟩
    intro k hk
    rw [List.getElem?_append_left (h.contextes ref k hk)]
    exact hrecu k hk
  comptes := by
    intro ref e k he htours hk
    rw [List.getElem?_append_left (h.contextes ref k hk)]
    exact h.comptes ref e k he htours hk
  attentes := h.attentes.neuf h.connus
  amorces := by
    intro log hlog
    rcases List.mem_append.mp hlog with hlog | hlog
    · exact h.amorces log hlog
    · rw [List.mem_singleton.mp hlog]
      exact nofun

theorem getElem?_concat_of_lt {l : List α} {a : α} {n : Nat} (h : n < l.length) :
    (l ++ [a])[n]? = l[n]? := List.getElem?_append_left h

theorem Suivi.ouvrirSession (h : Suivi m) (hk : k < m.recus.length) {e : Entree} (he : e.tours = 0)
    (hs : s'.sessions = m.registre.sessions ++ [e]) (happels : s'.appels = m.registre.appels)
    (hentrees : ∀ cle ref, s'.entrees.get? cle = some ref →
      m.registre.entrees.get? cle = some ref ∨ ref = m.registre.sessions.length) :
    Suivi { m with registre := s', contexteDe := m.contexteDe ++ [k] } where
  sessions := by
    rw [hs, List.length_append, List.length_append, h.sessions]
    rfl
  contextes := by
    intro ref k' hk'
    rw [List.getElem?_append] at hk'
    split_ifs at hk'
    · exact h.contextes ref k' hk'
    · rw [List.getElem?_singleton] at hk'
      split_ifs at hk'
      cases hk'
      exact hk
  agents := h.agents
  entrees := by
    intro cle ref href
    rw [hs, List.length_append, List.length_singleton]
    rcases hentrees cle ref href with href | rfl
    · exact Nat.lt_succ_of_lt (h.entrees cle ref href)
    · exact Nat.lt_succ_self _
  composees := by
    intro j c hc
    rw [happels] at hc
    exact h.composees j c hc
  servies := by
    intro j c ref hc href
    rw [happels] at hc
    rw [hs, List.length_append]
    exact Nat.lt_add_right _ (h.servies j c ref hc href)
  livres := by
    intro j hj
    obtain ⟨c, ref, reprise, hc, hphase, hrecu⟩ := h.livres j hj
    refine ⟨c, ref, reprise, by rw [happels]; exact hc, hphase, ?_⟩
    have hborne := h.servies j c ref hc (by rw [hphase]; rfl)
    intro k' hk'
    rw [getElem?_concat_of_lt (h.sessions ▸ hborne)] at hk'
    exact hrecu k' hk'
  comptes := by
    intro ref e' k' he' htours hk'
    rw [hs, List.getElem?_append] at he'
    split_ifs at he' with hborne
    · rw [getElem?_concat_of_lt (h.sessions ▸ hborne)] at hk'
      exact h.comptes ref e' k' he' htours hk'
    · rw [List.getElem?_singleton] at he'
      split_ifs at he'
      cases he'
      exact absurd he htours
  attentes := by
    apply h.attentes.mono
    rintro j c k' ⟨hc, ref, reprise, hphase, hk', hlivre⟩
    rw [happels] at hc
    have hborne := h.servies j c ref hc (by rw [hphase]; rfl)
    rw [getElem?_concat_of_lt (h.sessions ▸ hborne)] at hk'
    exact ⟨c, ⟨hc, ref, reprise, hphase, hk', hlivre⟩, rfl, rfl⟩
  amorces := h.amorces

theorem Suivi.compter (h : Suivi m) {ref : Nat} {f : Entree → Entree}
    (hrecu : ∀ k : Nat, m.contexteDe[ref]? = some k → m.recus[k]? ≠ some []) :
    Suivi { m with
      registre := { m.registre with sessions := m.registre.sessions.modify ref f } } where
  sessions := by
    rw [List.length_modify]
    exact h.sessions
  contextes := h.contextes
  agents := h.agents
  entrees := by
    intro cle ref' href
    rw [List.length_modify]
    exact h.entrees cle ref' href
  composees := h.composees
  servies := by
    intro j c ref' hc href
    rw [List.length_modify]
    exact h.servies j c ref' hc href
  livres := h.livres
  comptes := by
    intro ref' e k he htours hk
    by_cases href : ref' = ref
    · exact hrecu k (href ▸ hk)
    · rw [List.getElem?_modify_ne _ _ (Ne.symm href)] at he
      exact h.comptes ref' e k he htours hk
  attentes := h.attentes
  amorces := h.amorces

theorem Suivi.appeler (h : Suivi m) (hcompose : c.phase.compose = false)
    (hsans : c.phase.session = none) :
    Suivi { m with registre := { m.registre with appels := m.registre.appels ++ [c] } } := by
  have hancien : ∀ (j : Nat) d, (m.registre.appels ++ [c])[j]? = some d →
      d.phase.compose = true ∨ d.phase.session ≠ none → m.registre.appels[j]? = some d := by
    intro j d hd hphase
    rw [List.getElem?_append] at hd
    split_ifs at hd
    · exact hd
    · rw [List.getElem?_singleton] at hd
      split_ifs at hd
      cases hd
      rcases hphase with hphase | hphase
      · rw [hcompose] at hphase
        cases hphase
      · exact absurd hsans hphase
  constructor
  · exact h.sessions
  · exact h.contextes
  · exact h.agents
  · exact h.entrees
  · exact fun j d hd hphase => h.composees j d (hancien j d hd (.inl hphase)) hphase
  · intro j d ref hd href
    refine h.servies j d ref (hancien j d hd (.inr ?_)) href
    rw [href]
    exact Option.some_ne_none ref
  · intro j hj
    obtain ⟨d, ref, reprise, hd, hphase, hrecu⟩ := h.livres j hj
    refine ⟨d, ref, reprise, ?_, hphase, hrecu⟩
    exact (List.getElem?_append_left (List.getElem?_eq_some_iff.mp hd).1).trans hd
  · exact h.comptes
  · apply h.attentes.mono
    rintro j d k ⟨hd, ref, reprise, hphase, hk, hlivre⟩
    have hcompose : d.phase.compose = true := by
      rw [hphase]
      rfl
    exact ⟨d, ⟨hancien j d hd (.inl hcompose), ref, reprise, hphase, hk, hlivre⟩, rfl, rfl⟩
  · exact h.amorces

theorem getElem?_modify_concat_ne_nil {recus : List (List Envoi)} {e : Envoi} {j : Nat}
    (h : recus[j]? ≠ some []) : (recus.modify k (· ++ [e]))[j]? ≠ some [] := by
  by_cases hj : k = j
  · rw [hj, List.getElem?_modify_eq]
    intro hvide
    obtain ⟨log, _, hlog⟩ := Option.map_eq_some_iff.mp hvide
    exact absurd hlog (List.append_ne_nil_of_right_ne_nil _ (List.cons_ne_nil _ _))
  · rwa [List.getElem?_modify_ne _ _ hj]

theorem composer_of_vide {premier : Bool} {texte : String} : composer premier "" texte = texte := by
  unfold composer
  rw [if_neg (by simp)]

theorem composer_suivant (amorce texte : String) : composer false amorce texte = texte := by
  unfold composer
  rw [if_neg (by simp)]

theorem Suivi.message_eq (h : Suivi m) (hvoie : m.enVoie i c k) {log : List Envoi}
    (hlog : m.recus[k]? = some log) :
    c.message = composer (log.length = 0) c.requete.amorce c.requete.texte := by
  have hcompose : c.phase.compose = true := by
    obtain ⟨_, ref, reprise, hphase, _⟩ := hvoie
    rw [hphase]
    rfl
  rcases h.composees i c hvoie.1 hcompose with htexte | hporte
  · by_cases hamorce : c.requete.amorce = ""
    · rw [hamorce, composer_of_vide, htexte]
    · have hentame := h.attentes.nues i c k hvoie ⟨hamorce, htexte⟩
      have hlong : log.length ≠ 0 := by
        intro hzero
        rw [List.eq_nil_of_length_eq_zero hzero] at hlog
        exact hentame hlog
      rw [composer, if_neg (by simp [hlong]), htexte]
  · have hvide := (h.attentes.portes i c k hvoie hporte).1
    cases hlog.symm.trans hvide
    exact hporte.2

theorem getElem?_modify_concat_ne_nil_self {recus : List (List Envoi)} (e : Envoi) :
    (recus.modify k (· ++ [e]))[k]? ≠ some [] := by
  rw [List.getElem?_modify_eq]
  intro hvide
  obtain ⟨log, _, hlog⟩ := Option.map_eq_some_iff.mp hvide
  exact absurd hlog (List.append_ne_nil_of_right_ne_nil _ (List.cons_ne_nil _ _))

theorem amorces_modify (h : Amorces m) {e : Envoi}
    (he : ∀ log, m.recus[k]? = some log → e.message = composer (log.length = 0) e.amorce e.texte) :
    ∀ log ∈ m.recus.modify k (· ++ [e]), ∀ n e', log[n]? = some e' →
      e'.message = composer (n = 0) e'.amorce e'.texte := by
  intro log hlog n e' hn
  obtain ⟨j, hj⟩ := List.mem_iff_getElem?.mp hlog
  by_cases hk : k = j
  · rw [← hk, List.getElem?_modify_eq] at hj
    obtain ⟨ancien, hancien, rfl⟩ := Option.map_eq_some_iff.mp hj
    rw [List.getElem?_append] at hn
    split_ifs at hn with hlt
    · exact h ancien (List.mem_of_getElem? hancien) n e' hn
    · rw [List.getElem?_singleton] at hn
      split_ifs at hn with hzero
      cases hn
      have hlong : n = ancien.length := by omega
      rw [hlong]
      exact he ancien hancien
  · rw [List.getElem?_modify_ne _ _ hk] at hj
    exact h log (List.mem_of_getElem? hj) n e' hn

theorem Suivi.livrer (h : Suivi m) (hm : m.livrer i = some m') : Suivi m' := by
  unfold Monde.livrer at hm
  split at hm
  · cases hm
  · next c hc =>
    split at hm
    · next ref reprise hphase =>
      split_ifs at hm with hi
      obtain ⟨k, hk, rfl⟩ := Option.map_eq_some_iff.mp hm
      let e : Envoi := ⟨c.requete.amorce, c.requete.texte, c.message⟩
      have hvoie : m.enVoie i c k := ⟨hc, ref, reprise, hphase, hk, hi⟩
      have hvoies : ∀ j d k', Monde.enVoie { m with
            livres := i :: m.livres
            recus := m.recus.modify k (· ++ [e]) } j d k' → m.enVoie j d k' ∧ j ≠ i := by
        rintro j d k' ⟨hd, ref', reprise', hphase', hk', hlivre⟩
        exact ⟨⟨hd, ref', reprise', hphase', hk', fun hmem => hlivre (List.mem_cons_of_mem i hmem)⟩,
          fun hj => hlivre (hj ▸ List.mem_cons_self)⟩
      constructor
      · exact h.sessions
      · intro ref' k' hk'
        rw [List.length_modify]
        exact h.contextes ref' k' hk'
      · intro id k' hk'
        rw [List.length_modify]
        exact h.agents id k' hk'
      · exact h.entrees
      · exact h.composees
      · exact h.servies
      · intro j hj
        rcases List.mem_cons.mp hj with rfl | hj
        · refine ⟨c, ref, reprise, hc, hphase, ?_⟩
          intro k' hk'
          cases hk.symm.trans hk'
          exact getElem?_modify_concat_ne_nil_self e
        · obtain ⟨d, ref', reprise', hd, hsert, hrecu⟩ := h.livres j hj
          exact ⟨d, ref', reprise', hd, hsert,
            fun k' hk' => getElem?_modify_concat_ne_nil (hrecu k' hk')⟩
      · intro ref' e k' he htours hk'
        exact getElem?_modify_concat_ne_nil (h.comptes ref' e k' he htours hk')
      · constructor
        · intro j d k' hd hporte
          obtain ⟨hancien, hne⟩ := hvoies j d k' hd
          obtain ⟨hvide, hseul⟩ := h.attentes.portes j d k' hancien hporte
          have hautre : k ≠ k' := by
            intro hegal
            exact hne (hseul i c (hegal ▸ hvoie)).symm
          refine ⟨by rwa [List.getElem?_modify_ne _ _ hautre], ?_⟩
          intro j' d' hd'
          exact hseul j' d' (hvoies j' d' k' hd').1
        · intro j d k' hd hnue
          exact getElem?_modify_concat_ne_nil (h.attentes.nues j d k' (hvoies j d k' hd).1 hnue)
      · exact amorces_modify h.amorces fun log hlog => h.message_eq hvoie hlog
    · cases hm

theorem not_porte (h : c.message = c.requete.texte) : ¬ c.porte := by
  rintro ⟨hamorce, hmessage⟩
  rw [composer, if_pos ⟨rfl, hamorce⟩, h] at hmessage
  have hlong := congrArg String.length hmessage
  rw [String.length_append, String.length_append] at hlong
  have hsaut : String.length "\n\n" = 2 := rfl
  omega

theorem not_nue (h : c.message = composer true c.requete.amorce c.requete.texte) : ¬ c.nue :=
  fun ⟨hamorce, hmessage⟩ => not_porte hmessage ⟨hamorce, h⟩

theorem Suivi.accueille_entame (h : Suivi m) (hrecu : m.recus[k]? ≠ some []) (hporte : ¬ c.porte) :
    Accueille m.recus m.enVoie k c where
  libre j c' hvoie hporte' := hrecu (h.attentes.portes j c' k hvoie hporte').1
  neuf h := absurd h hporte
  entame _ := hrecu

theorem Suivi.quitter (h : Suivi m) (heffet : Effet i m.registre s') (hsans : s'.sansSession i)
    (hi : i ∉ m.livres) : Suivi { m with registre := s' } :=
  h.calme heffet hsans fun _ => ⟨fun hj => ⟨hj, ne_of_mem_of_not_mem hj hi⟩, fun hj => hj.1⟩

theorem Suivi.verrouiller (h : Suivi m) (verrou : Option Nat) (maintenant : Int) :
    Suivi { m with
      registre := { m.registre with verrou := verrou, maintenant := maintenant } } :=
  ⟨h.sessions, h.contextes, h.agents, h.entrees, h.composees, h.servies, h.livres, h.comptes,
    h.attentes, h.amorces⟩

theorem Suivi.accueille (h : Suivi m) {ref : Nat} (hborne : ref < m.registre.sessions.length)
    (hservable : m.servable ref c) (hk : m.contexteDe[ref]? = some k) :
    Accueille m.recus m.enVoie k
      { c with
        message := composer ((m.registre.sessions[ref]?).all fun e => e.tours = 0) c.requete.amorce
          c.requete.texte
        phase := .sert ref false } := by
  have he : m.registre.sessions[ref]? = some m.registre.sessions[ref] :=
    List.getElem?_eq_getElem hborne
  by_cases htours : m.registre.sessions[ref].tours = 0
  · refine (hservable _ k he htours hk).congr rfl ?_
    rw [he, Option.all_some, decide_eq_true htours]
    rfl
  · apply h.accueille_entame (h.comptes ref _ k he htours hk)
    apply not_porte
    rw [he, Option.all_some, decide_eq_false htours]
    exact composer_suivant c.requete.amorce c.requete.texte

theorem Suivi.prendre (h : Suivi m) (heffet : Effet i m.registre s') (hi : i ∉ m.livres)
    (hprise : m.registre.prise s' i c) (hretrouvee : m.retrouvee c) :
    Suivi { m with registre := s' } := by
  obtain ⟨ref, href, hmeme, hd | ⟨⟨workspace, texte, amorce, hrequete⟩, hd⟩⟩ := hprise
  · exact h.donner heffet hi hd rfl (h.entrees c.cle ref href) nofun
  · have hborne := h.entrees c.cle ref href
    apply h.donner heffet hi hd rfl hborne
    intro _ _ k hk
    refine h.accueille hborne ?_ hk
    apply hretrouvee workspace texte amorce hrequete ref href
    intro e he
    exact (hmeme e he).trans (congrArg Requete.workspace hrequete)

theorem avancer_registre {ev : Evenement}
    (hm : avancer plafond ttl disponible m (.registre ev) = some m') :
    ∃ s'' m'', pas plafond ttl disponible m.registre ev = some s'' ∧ m.suivre ev = some m'' ∧
      m' = { m'' with registre := s'' } := by
  simp only [avancer] at hm
  split at hm
  · next s'' m'' hs hsuivre =>
    cases hm
    exact ⟨s'', m'', hs, hsuivre, rfl⟩
  · cases hm

theorem Suivi.prendreVerrou (h : Suivi m) (hpermis : PermisAmorce ttl m (.registre (.prendre i)))
    (hs : pas plafond ttl disponible m.registre (.prendre i) = some s') :
    Suivi { m with registre := s' } := by
  obtain ⟨_, c, hc, hcas⟩ := prendre_cas hs
  have hpris := h.verrouiller (some i) m.registre.maintenant
  rcases hcas with ⟨hphase, rfl⟩ | ⟨hphase, rfl⟩
  · have hi : i ∉ m.livres := h.not_livre hc (by rw [hphase]; nofun)
    obtain ⟨heffet, hsans | ⟨hvictime, hprise⟩⟩ := @effet_entrer plafond ttl disponible
      { m.registre with verrou := some i } i c hc
    · exact hpris.quitter heffet hsans hi
    · exact hpris.prendre heffet hi hprise (hpermis c hc hphase hvictime)
  · have hi : i ∉ m.livres := h.not_livre hc (by rw [hphase]; nofun)
    obtain ⟨heffet, hsans⟩ := @effet_reprendre { m.registre with verrou := some i } i c hc hphase
    exact hpris.quitter heffet hsans hi

/-- How a call goes on when what it awaits ends. -/
inductive Continue (plafond : Nat) (disponible : Bool × String) (s : Registre) (i : Nat) (c : Appel)
    (issue : Issue) (s' : Registre) : Prop where
  | quitte (heffet : Effet i s s') (hsans : s'.sansSession i)
      (hissue : ∀ identifiant, issue = .ok identifiant →
        c.phase ≠ .ouverture ∧ c.phase ≠ .repriseOuverture ∧ ∀ ref reprise, c.phase ≠ .sert ref reprise)
  | purge (reste : List String) (hphase : c.phase = .purge reste) (heffet : Effet i s s')
      (hvictime : victime s.entrees reste = none) (hprise : s.prise s' i c)
  | ouverte (identifiant : String) (hphase : c.phase = .ouverture) (hissue : issue = .ok identifiant)
      (hs : s' = s.ouverte i c identifiant)
  | reprise (identifiant : String) (hphase : c.phase = .repriseOuverture)
      (hissue : issue = .ok identifiant)
      (hs : s' = (s.enregistrer c.cle c.requete.workspace identifiant).liberer i
        (.sert s.sessions.length true))
  | choisie (ref : Nat) (hphase : c.phase = .choix ref) (identifiant : String)
      (hissue : issue = .ok identifiant)
      (hs : s' = (s.ecrireMessage i ref c.requete.texte c.requete.amorce).suspendre i (.sert ref false))
  | servie (ref : Nat) (reprise : Bool) (hphase : c.phase = .sert ref reprise)
      (identifiant : String) (hissue : issue = .ok identifiant) (hs : s' = s.servie i ref)

theorem continuer_cas (hc : m.registre.appels[i]? = some c) {issue : Issue}
    (hs : m.registre.continuer plafond disponible i c issue = some s') :
    Continue plafond disponible m.registre i c issue s' := by
  have hcompose : c.phase.compose = true →
      ∀ d, m.registre.appels[i]? = some d → d.phase.compose = true := by
    intro hphase d hd
    cases hc.symm.trans hd
    exact hphase
  unfold Registre.continuer at hs
  split at hs
  · next reste hphase =>
    cases hs
    obtain ⟨heffet, hsans | ⟨hvictime, hprise⟩⟩ :=
      @effet_purger plafond disponible m.registre i c hc reste
    · exact .quitte heffet hsans (by simp [hphase])
    · exact .purge reste hphase heffet hvictime hprise
  · next hphase =>
    split at hs
    · cases hs
      exact .quitte (effet_ouvrirSiPlace _ i).1 (effet_ouvrirSiPlace _ i).2 (by simp [hphase])
    · cases hs
      exact .quitte (effet_finirFermeture _ i c).1 (effet_finirFermeture _ i c).2 (by simp [hphase])
  · next identifiant hphase =>
    cases hs
    exact .ouverte identifiant hphase rfl rfl
  · next hphase =>
    cases hs
    exact .quitte (effet_liberer (.inl rfl)) (sansSession_liberer rfl) nofun
  · next hphase =>
    cases hs
    exact .quitte (effet_suspendre (.inr (hcompose (by rw [hphase]; rfl))))
      (sansSession_suspendre rfl) (by simp [hphase])
  · next identifiant hphase =>
    cases hs
    exact .reprise identifiant hphase rfl rfl
  · next hphase =>
    cases hs
    exact .quitte (effet_liberer (.inl rfl)) (sansSession_liberer rfl) nofun
  · next ref identifiant hphase =>
    cases hs
    exact .choisie ref hphase identifiant rfl rfl
  · next hphase =>
    cases hs
    exact .quitte (effet_suspendre (.inl rfl)) (sansSession_suspendre rfl) nofun
  · next ref reprise identifiant hphase =>
    cases hs
    exact .servie ref reprise hphase identifiant rfl rfl
  · next hphase =>
    cases hs
    exact .quitte (effet_suspendre (.inr (hcompose (by rw [hphase]; rfl))))
      (sansSession_suspendre rfl) nofun
  · next hphase =>
    cases hs
    exact .quitte (effet_suspendre (.inl rfl)) (sansSession_suspendre rfl) nofun
  · cases hs

theorem suivre_quitte (h : Suivi m) (hc : m.registre.appels[i]? = some c) {issue : Issue}
    (hissue : ∀ identifiant, issue = .ok identifiant →
      c.phase ≠ .ouverture ∧ c.phase ≠ .repriseOuverture ∧ ∀ ref reprise, c.phase ≠ .sert ref reprise)
    (hm : m.suivre (.suite i issue) = some m') :
    ∃ livres, m' = { m with livres := livres } ∧ ∀ j, j ∈ livres ↔ j ∈ m.livres ∧ j ≠ i := by
  have hdehors : (∀ ref reprise, c.phase ≠ .sert ref reprise) →
      ∀ j, j ∈ m.livres ↔ j ∈ m.livres ∧ j ≠ i := fun hphase j =>
    ⟨fun hj => ⟨hj, ne_of_mem_of_not_mem hj (h.not_livre hc hphase)⟩, fun hj => hj.1⟩
  simp only [Monde.suivre, hc] at hm
  split at hm
  · next identifiant hphase => exact absurd hphase (hissue identifiant rfl).1
  · next identifiant hphase => exact absurd hphase (hissue identifiant rfl).2.1
  · next ref reprise identifiant hphase =>
    exact absurd hphase ((hissue identifiant rfl).2.2 ref reprise)
  · cases hm
    exact ⟨_, rfl, fun j => by simp⟩
  · next hphase _ _ _ =>
    cases hm
    exact ⟨m.livres, rfl, hdehors hphase⟩

theorem Suivi.enVoie_of_ouverte (h : Suivi m) {m'' : Monde} {k' : Nat} {d : Appel} {j : Nat}
    (happels : m''.registre.appels = m.registre.appels) (hlivres : m''.livres = m.livres)
    (hcontextes : m''.contexteDe = m.contexteDe ++ [k]) (hvoie : m''.enVoie j d k') :
    m.enVoie j d k' := by
  obtain ⟨hd, ref, reprise, hphase, hk', hlivre⟩ := hvoie
  rw [happels] at hd
  rw [hlivres] at hlivre
  have hborne := h.servies j d ref hd (by rw [hphase]; rfl)
  rw [hcontextes, getElem?_concat_of_lt (h.sessions ▸ hborne)] at hk'
  exact ⟨hd, ref, reprise, hphase, hk', hlivre⟩

theorem Suivi.getElem?_contexteDe (h : Suivi m) {k' : Nat}
    (hk : (m.contexteDe ++ [k])[m.registre.sessions.length]? = some k') : k' = k := by
  rw [← h.sessions, List.getElem?_append_right (Nat.le_refl _), Nat.sub_self] at hk
  exact (Option.some.inj hk).symm

theorem Suivi.ouvrir (h : Suivi m) (cle workspace identifiant : String) :
    Suivi { m.ouvrir cle identifiant with
      registre := m.registre.enregistrer cle workspace identifiant } ∧
    ∀ d, (∀ k, m.repris cle identifiant = some k → Accueille m.recus m.enVoie k d) →
      (m.repris cle identifiant = none → ¬ d.nue) → ∀ k : Nat,
        (m.ouvrir cle identifiant).contexteDe[m.registre.sessions.length]? = some k →
          Accueille (m.ouvrir cle identifiant).recus
            (Monde.enVoie { m.ouvrir cle identifiant with
              registre := m.registre.enregistrer cle workspace identifiant }) k d := by
  have hentrees : ∀ cle' ref,
      (m.registre.enregistrer cle workspace identifiant).entrees.get? cle' = some ref →
        m.registre.entrees.get? cle' = some ref ∨ ref = m.registre.sessions.length := by
    intro cle' ref href
    rw [Registre.enregistrer, Dict.get?_set] at href
    split_ifs at href
    · cases href
      exact .inr rfl
    · exact .inl href
  unfold Monde.ouvrir
  cases hrepris : m.repris cle identifiant with
  | some k =>
    have hk : k < m.recus.length := by
      unfold Monde.repris at hrepris
      split at hrepris
      · split_ifs at hrepris
        exact h.agents _ k hrepris
      · cases hrepris
    refine ⟨h.ouvrirSession hk rfl rfl rfl hentrees, ?_⟩
    intro d haccueille _ k' hk'
    cases h.getElem?_contexteDe hk'
    exact (haccueille k rfl).mono fun j c' => h.enVoie_of_ouverte rfl rfl rfl
  | none =>
    have hneuf := h.contexteNeuf identifiant
    have hk : m.recus.length < (m.recus ++ [[]]).length := by
      rw [List.length_append]
      exact Nat.lt_succ_self _
    refine ⟨hneuf.ouvrirSession hk rfl rfl rfl hentrees, ?_⟩
    intro d _ hnue k' hk'
    cases h.getElem?_contexteDe hk'
    exact (accueille_neuf h.connus (hnue rfl)).mono fun j c' => h.enVoie_of_ouverte rfl rfl rfl

theorem Suivi.ouverte (h : Suivi m) (hc : m.registre.appels[i]? = some c) (hi : i ∉ m.livres)
    {identifiant : String}
    (hpermis : ∀ workspace texte amorce, c.requete = .tour workspace texte amorce "" →
      ∀ k, m.repris c.cle identifiant = some k → Accueille m.recus m.enVoie k c.premier) :
    Suivi { m.ouvrir c.cle identifiant with registre := m.registre.ouverte i c identifiant } := by
  obtain ⟨houverte, haccueille⟩ := h.ouvrir c.cle c.requete.workspace identifiant
  have hlivres : (m.ouvrir c.cle identifiant).livres = m.livres := by
    unfold Monde.ouvrir
    split <;> rfl
  have hdehors : i ∉ (m.ouvrir c.cle identifiant).livres := hlivres ▸ hi
  have hcompte : ((m.registre.enregistrer c.cle c.requete.workspace identifiant).sessions[
      m.registre.sessions.length]?).all (fun e => e.tours = 0) = true := by
    rw [Registre.enregistrer, List.getElem?_append_right (Nat.le_refl _), Nat.sub_self]
    rfl
  unfold Registre.ouverte
  dsimp only
  split
  · next workspace texte amorce modele hrequete =>
    obtain ⟨heffet, hdonnee⟩ := @effet_engager
      (m.registre.enregistrer c.cle c.requete.workspace identifiant) i c hc workspace texte amorce
      modele hrequete m.registre.sessions.length
    have hborne : m.registre.sessions.length <
        (m.registre.enregistrer c.cle c.requete.workspace identifiant).sessions.length := by
      simp [Registre.enregistrer]
    rw [hcompte] at hdonnee
    rcases hdonnee with hd | ⟨⟨workspace', texte', amorce', hsans⟩, hd⟩
    · exact houverte.donner heffet hdehors hd rfl hborne nofun
    · refine houverte.donner heffet hdehors hd rfl hborne ?_
      intro _ _ k hk
      refine (haccueille c.premier (hpermis workspace' texte' amorce' hsans) ?_ k hk).congr rfl rfl
      exact fun _ => not_nue rfl
  · exact houverte.quitter (effet_liberer (.inl rfl)) (sansSession_liberer rfl) hdehors

theorem Suivi.reprise (h : Suivi m) (hc : m.registre.appels[i]? = some c) (hi : i ∉ m.livres)
    (hphase : c.phase = .repriseOuverture) {identifiant : String}
    (hrepris : ∀ k, m.repris c.cle identifiant = some k → Accueille m.recus m.enVoie k c)
    (hneuf : m.repris c.cle identifiant = none → ¬ c.nue) :
    Suivi { m.ouvrir c.cle identifiant with
      registre := (m.registre.enregistrer c.cle c.requete.workspace identifiant).liberer i
        (.sert m.registre.sessions.length true) } := by
  obtain ⟨houverte, haccueille⟩ := h.ouvrir c.cle c.requete.workspace identifiant
  have hlivres : (m.ouvrir c.cle identifiant).livres = m.livres := by
    unfold Monde.ouvrir
    split <;> rfl
  refine houverte.donner (effet_liberer (.inr ?_)) (hlivres ▸ hi) (appel_suspendre hc) rfl ?_ ?_
  · intro d hd
    cases hc.symm.trans hd
    rw [hphase]
    rfl
  · simp [Registre.enregistrer]
  · intro _ _ k hk
    exact (haccueille c hrepris hneuf k hk).congr rfl rfl

theorem Suivi.servie (h : Suivi m) (hc : m.registre.appels[i]? = some c) {ref : Nat}
    {reprise : Bool} (hphase : c.phase = .sert ref reprise) (hi : i ∈ m.livres) :
    Suivi { m with
      registre := m.registre.servie i ref
      livres := m.livres.filter (· ≠ i) } := by
  have hrecu : ∀ k : Nat, m.contexteDe[ref]? = some k → m.recus[k]? ≠ some [] := by
    obtain ⟨d, ref', reprise', hd, hsert, hrecu⟩ := h.livres i hi
    cases hc.symm.trans hd
    cases hphase.symm.trans hsert
    exact hrecu
  exact (h.compter hrecu).calme (effet_suspendre (.inl rfl)) (sansSession_suspendre rfl) (by simp)

theorem Suivi.suite (h : Suivi m) {issue : Issue}
    (hpermis : PermisAmorce ttl m (.registre (.suite i issue)))
    (hs : pas plafond ttl disponible m.registre (.suite i issue) = some s')
    (hm : m.suivre (.suite i issue) = some m') : Suivi { m' with registre := s' } := by
  simp only [pas] at hs
  split at hs
  · cases hs
  · next c hc =>
    have hpermis' := hpermis c hc
    split at hs
    · next raison =>
      obtain ⟨livres, rfl, hlivres⟩ := suivre_quitte h hc (fun _ h => by cases h) hm
      unfold Registre.abandonner at hs
      split at hs
      · cases hs
      · split_ifs at hs
        · cases hs
          exact h.calme (effet_liberer (.inl rfl)) (sansSession_liberer rfl) hlivres
        · cases hs
          exact h.calme (effet_suspendre (.inl rfl)) (sansSession_suspendre rfl) hlivres
    · next hbase =>
      cases continuer_cas hc hs with
      | quitte heffet hsans hissue =>
        obtain ⟨livres, rfl, hlivres⟩ := suivre_quitte h hc hissue hm
        exact h.calme heffet hsans hlivres
      | purge reste hphase heffet hvictime hprise =>
        have hi : i ∉ m.livres := h.not_livre hc (by simp [hphase])
        simp only [Monde.suivre, hc, hphase] at hm
        cases hm
        rw [hphase] at hpermis'
        cases issue with
        | ok identifiant => exact h.prendre heffet hi hprise (hpermis' hvictime)
        | exception raison => exact h.prendre heffet hi hprise (hpermis' hvictime)
        | base raison => exact absurd rfl (hbase raison)
      | ouverte identifiant hphase hissue houverte =>
        have hi : i ∉ m.livres := h.not_livre hc (by simp [hphase])
        subst hissue houverte
        simp only [Monde.suivre, hc, hphase] at hm
        cases hm
        rw [hphase] at hpermis'
        exact h.ouverte hc hi hpermis'
      | reprise identifiant hphase hissue hreprise =>
        have hi : i ∉ m.livres := h.not_livre hc (by simp [hphase])
        subst hissue hreprise
        simp only [Monde.suivre, hc, hphase] at hm
        cases hm
        rw [hphase] at hpermis'
        apply h.reprise hc hi hphase
        · intro k hk
          simp only [hk] at hpermis'
          exact hpermis'
        · intro hneuf
          simp only [hneuf] at hpermis'
          exact hpermis'
      | choisie ref hphase identifiant hissue hchoisie =>
        have hi : i ∉ m.livres := h.not_livre hc (by simp [hphase])
        subst hissue hchoisie
        simp only [Monde.suivre, hc, hphase] at hm
        cases hm
        rw [hphase] at hpermis'
        have hborne := h.servies i c ref hc (by rw [hphase]; rfl)
        apply h.donner (effet_servir hc ref) hi (appel_servir hc ref) rfl hborne
        exact fun _ _ k hk => h.accueille hborne hpermis' hk
      | servie ref reprise hphase identifiant hissue hservie =>
        subst hissue hservie
        simp only [Monde.suivre, hc, hphase] at hm
        split_ifs at hm with hi
        cases hm
        exact h.servie hc hphase hi

theorem suivi_avancer (m : Monde) (fait : Fait) (m' : Monde) (h : Suivi m)
    (hpermis : PermisAmorce ttl m fait) (hm : avancer plafond ttl disponible m fait = some m') :
    Suivi m' := by
  cases fait with
  | livrer i => exact h.livrer hm
  | registre ev =>
    obtain ⟨s', m'', hs, hsuivre, rfl⟩ := avancer_registre hm
    cases ev with
    | horloge maintenant =>
      cases hsuivre
      simp only [pas] at hs
      split_ifs at hs
      cases hs
      exact h.verrouiller m.registre.verrou maintenant
    | appel cle requete =>
      cases hsuivre
      cases hs
      apply h.appeler
      · dsimp only
        split_ifs <;> rfl
      · dsimp only
        split_ifs <;> rfl
    | interrompre cle =>
      cases hsuivre
      cases hs
      exact h
    | prendre i =>
      cases hsuivre
      exact h.prendreVerrou hpermis hs
    | suite i issue => exact h.suite hpermis hs hsuivre

end Suite

theorem suivi_initial : Suivi {} where
  sessions := rfl
  contextes := by rintro _ _ ⟨⟩
  agents := by rintro _ _ ⟨⟩
  entrees := by rintro _ _ ⟨⟩
  composees := by rintro _ _ ⟨⟩
  servies := by rintro _ _ _ ⟨⟩
  livres := by rintro _ ⟨⟩
  comptes := by rintro _ _ _ ⟨⟩
  attentes := by
    constructor
    · rintro j c k ⟨hc, _⟩
      cases hc
    · rintro j c k ⟨hc, _⟩
      cases hc
  amorces := nofun

/-- In every run whose steps are permitted, every context receives what the mission begins with
first, and once. -/
theorem amorces_of_permis (plafond : Nat) (ttl : Int) (disponible : Bool × String)
    (faits : List Fait)
    (h : Along (avancer plafond ttl disponible) (PermisAmorce ttl) {} faits) :
    Always (avancer plafond ttl disponible) Amorces {} faits := by
  have hsuivi : Always (avancer plafond ttl disponible) Suivi {} faits :=
    always_of_along suivi_avancer suivi_initial h
  exact hsuivi.mono fun m hm => hm.amorces

/-- Two turns of a mission, one after the other. -/
theorem amorces_deux_tours :
    Always (avancer 6 1800 (true, "")) Amorces {}
      [.registre (.appel "projet:a" (.tour "/w" "un" "A" "")), .registre (.prendre 0),
        .registre (.suite 0 (.ok "s1")), .livrer 0, .registre (.suite 0 (.ok "")),
        .registre (.appel "projet:a" (.tour "/w" "deux" "A" "")), .registre (.prendre 1),
        .livrer 1] := by
  let un : Appel := { cle := "projet:a", requete := .tour "/w" "un" "A" "" }
  let deux : Appel := { cle := "projet:a", requete := .tour "/w" "deux" "A" "" }
  let m₁ : Monde := { registre := { appels := [un] } }
  let m₂ : Monde := { registre :=
    { verrou := some 0, appels := [{ un with phase := .ouverture }] } }
  let ouvert : Registre :=
    { entrees := [("projet:a", 0)]
      sessions := [{ workspace := "/w", derniereActivite := 0 }]
      identifiants := [("projet:a", "s1")]
      appels := [{ un with message := "A\n\nun", phase := .sert 0 false }] }
  let m₃ : Monde :=
    { registre := ouvert, contexteDe := [0], recus := [[]], agents := [("s1", 0)] }
  let m₄ : Monde := { m₃ with recus := [[⟨"A", "un", "A\n\nun"⟩]], livres := [0] }
  let servi : Registre :=
    { ouvert with
      sessions := [{ workspace := "/w", tours := 1, derniereActivite := 0 }]
      appels := [{ un with message := "A\n\nun", phase := .rendue .tour }] }
  let m₅ : Monde := { m₄ with registre := servi, livres := [] }
  let m₆ : Monde := { m₅ with registre := { servi with appels := servi.appels ++ [deux] } }
  let m₇ : Monde := { m₅ with registre :=
    { servi with appels := servi.appels ++
        [{ deux with message := "deux", phase := .sert 0 false }] } }
  let m₈ : Monde :=
    { m₇ with recus := [[⟨"A", "un", "A\n\nun"⟩, ⟨"A", "deux", "deux"⟩]], livres := [1] }
  have hprendre : PermisAmorce 1800 m₁ (.registre (.prendre 0)) := by
    intro _ _ _ _ _ _ _ _ ref href
    cases href
  have houvrir : PermisAmorce 1800 m₂ (.registre (.suite 0 (.ok "s1"))) := by
    intro c hc
    cases hc
    intro _ _ _ _ k hk
    cases hk
  have hservir : PermisAmorce 1800 m₄ (.registre (.suite 0 (.ok ""))) := by
    intro c hc
    cases hc
    trivial
  have hsuivant : PermisAmorce 1800 m₆ (.registre (.prendre 1)) := by
    intro _ _ _ _ _ _ _ _ ref _ _ e k he htours
    have hun : e = { workspace := "/w", tours := 1, derniereActivite := 0 } :=
      List.mem_singleton.mp (List.mem_of_getElem? he)
    rw [hun] at htours
    cases htours
  exact amorces_of_permis 6 1800 (true, "") _ <|
    Along.cons m₁ (by decide +kernel) trivial <|
    Along.cons m₂ (by decide +kernel) hprendre <|
    Along.cons m₃ (by decide +kernel) houvrir <|
    Along.cons m₄ (by decide +kernel) trivial <|
    Along.cons m₅ (by decide +kernel) hservir <|
    Along.cons m₆ (by decide +kernel) trivial <|
    Along.cons m₇ (by decide +kernel) hsuivant <|
    Along.cons m₈ (by decide +kernel) trivial trivial

/-- The session of a mission is closed; the agent resumes its context for the next turn, which
brings it again what the mission begins with. -/
theorem amorce_deux_fois :
    ∃ faits, ¬Always (avancer 6 1800 (true, "")) Amorces {} faits := by
  let tour : Requete := .tour "/w" "un" "A" ""
  let faits : List Fait :=
    [.registre (.appel "projet:a" tour), .registre (.prendre 0), .registre (.suite 0 (.ok "s1")),
      .livrer 0, .registre (.suite 0 (.ok "")), .registre (.appel "projet:a" .fermer),
      .registre (.prendre 1), .registre (.suite 1 (.ok "")), .registre (.appel "projet:a" tour),
      .registre (.prendre 2), .registre (.suite 2 (.ok "s1")), .livrer 2]
  have hrecus : (run (avancer 6 1800 (true, "")) {} faits).map Monde.recus =
      some [[⟨"A", "un", "A\n\nun"⟩, ⟨"A", "un", "A\n\nun"⟩]] := by decide +kernel
  refine ⟨faits, fun h => ?_⟩
  obtain ⟨m, hrun, hm⟩ := Option.map_eq_some_iff.mp hrecus
  have hamorces : Amorces m := h.run hrun
  have hdeux : "A\n\nun" = composer false "A" "un" :=
    hamorces _ (hm ▸ List.mem_singleton_self _) 1 ⟨"A", "un", "A\n\nun"⟩ rfl
  exact absurd hdeux (by decide +kernel)

end Hermes.SessionsDeMission
