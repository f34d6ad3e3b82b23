import Mathlib.Algebra.GroupWithZero.Nat
import Mathlib.Data.List.Chain
import Hermes.Lib.Dict
import Hermes.Lib.Runs

/-! # The fan-out of events to the connected clients

Every subscriber owns a bounded queue.
-/

namespace Hermes.EventHub

open Lib

variable {π : Type*}

structure Event (π : Type*) where
  type : String
  payload : π
  deriving DecidableEq

def isWellFormed (eventType : String) : Bool :=
  let cs := eventType.toList
  '.' ∈ cs ∧ cs.head? ≠ some '.' ∧ cs.getLast? ≠ some '.' ∧ ' ' ∉ cs

/-- What the generator yields: `stream.dropped` with its count, or an event. -/
inductive Rendu (π : Type*) where
  | dropped (count : Nat)
  | evenement (e : Event π)
  deriving DecidableEq

inductive Lecture (π : Type*) where
  /-- Before `queue.get()` has answered. -/
  | attend
  /-- On the yield that announces a gap, the event that follows it in hand. -/
  | annonce (event : Event π)
  deriving DecidableEq

structure Subscriber (π : Type*) where
  queue : List (Event π) := []
  types : Option (List String)
  dropped : Nat := 0
  lecture : Lecture π := .attend
  loopOuverte : Bool := true
  /-- The calls of `_enqueue` that the loop has not run yet. -/
  fil : List (Event π) := []
  rendus : List (Rendu π) := []
  depuis : Nat
  deriving DecidableEq

structure Hub (π : Type*) where
  subscribers : Dict Nat (Subscriber π) := []
  unknownSeen : List String := []
  publies : List (Event π) := []
  deriving DecidableEq

def Subscriber.veut (s : Subscriber π) (e : Event π) : Bool :=
  match s.types with
  | none => true
  | some types => e.type ∈ types

/-- The queue refuses an event. A size of zero is no bound. -/
def pleine (queueSize : Nat) (queue : List (Event π)) : Bool :=
  0 < queueSize ∧ queueSize ≤ queue.length

def enqueue (queueSize : Nat) (s : Subscriber π) (e : Event π) : Subscriber π :=
  if pleine queueSize s.queue then
    let reste := s.queue.tail
    { s with
      dropped := s.dropped + 1
      queue := if pleine queueSize reste then reste else reste ++ [e] }
  else { s with queue := s.queue ++ [e] }

/-- The generator runs to its next yield, or stays in `queue.get()`. -/
def lire (s : Subscriber π) : Option (Subscriber π) :=
  match s.lecture with
  | .annonce e => some { s with lecture := .attend, rendus := s.rendus ++ [.evenement e] }
  | .attend =>
      match s.queue with
      | [] => none
      | e :: queue =>
          if s.dropped = 0 then
            some { s with queue := queue, rendus := s.rendus ++ [.evenement e] }
          else
            some
              { s with
                queue := queue
                dropped := 0
                lecture := .annonce e
                rendus := s.rendus ++ [.dropped s.dropped] }

/-- `call_soon_threadsafe(self._enqueue, subscriber, event)`. -/
def Subscriber.callSoon (s : Subscriber π) (e : Event π) : Subscriber π :=
  { s with fil := s.fil ++ [e] }

/-- `_offer`: a subscriber whose loop is closed is discarded. -/
def offer (e : Event π) (item : Nat × Subscriber π) : Option (Nat × Subscriber π) :=
  if item.2.veut e then
    if item.2.loopOuverte then some (item.1, item.2.callSoon e) else none
  else some item

def publish (eventTypes : List String) (h : Hub π) (e : Event π) : Hub π :=
  if isWellFormed e.type then
    { subscribers := h.subscribers.filterMap (offer e)
      unknownSeen :=
        if e.type ∈ eventTypes ∨ e.type ∈ h.unknownSeen then h.unknownSeen
        else h.unknownSeen ++ [e.type]
      publies := h.publies ++ [e] }
  else h

inductive Evenement (π : Type*) where
  | subscribe (id : Nat) (types : Option (List String))
  | publish (e : Event π)
  /-- The loop of a subscriber runs the next `_enqueue`. -/
  | boucle (id : Nat)
  | lire (id : Nat)
  | quitter (id : Nat)
  | fermerLoop (id : Nat)

def surAbonne (h : Hub π) (id : Nat) (f : Subscriber π → Option (Subscriber π)) :
    Option (Hub π) :=
  match h.subscribers.get? id with
  | none => none
  | some s => (f s).map fun s' => { h with subscribers := h.subscribers.set id s' }

/-- The first `_enqueue` that the loop has not run. -/
def executer (queueSize : Nat) (s : Subscriber π) : Option (Subscriber π) :=
  match s.fil with
  | [] => none
  | e :: fil => if s.loopOuverte then some (enqueue queueSize { s with fil := fil } e) else none

def pas (queueSize : Nat) (eventTypes : List String) (h : Hub π) : Evenement π → Option (Hub π)
  | .subscribe id types =>
      if id ∈ h.subscribers.keys then none
      else
        some { h with
          subscribers := h.subscribers.set id { types := types, depuis := h.publies.length } }
  | .publish e => some (publish eventTypes h e)
  | .boucle id => surAbonne h id (executer queueSize)
  | .lire id => surAbonne h id fun s => if s.loopOuverte then lire s else none
  | .quitter id => some { h with subscribers := h.subscribers.erase id }
  | .fermerLoop id => surAbonne h id fun s => some { s with loopOuverte := false }

/-- The events offered to a subscriber: those published since it subscribed that it wants. -/
def offerts (h : Hub π) (s : Subscriber π) : List (Event π) :=
  (h.publies.drop s.depuis).filter s.veut

def Rendu.poids : Rendu π → Nat
  | .dropped count => count
  | .evenement _ => 1

/-- The events that a list of yields accounts for, delivered or announced as lost. -/
def comptes (rendus : List (Rendu π)) : Nat := (rendus.map Rendu.poids).sum

def livres (rendus : List (Rendu π)) : List (Event π) :=
  rendus.filterMap fun
    | .dropped _ => none
    | .evenement e => some e

/-- How many events the announcements declare lost. -/
def annonces (rendus : List (Rendu π)) : Nat :=
  (rendus.map fun
    | .dropped count => count
    | .evenement _ => 0).sum

/-- The positions of the delivered events, when what precedes them is accounted for. -/
def positions : Nat → List (Rendu π) → List Nat
  | _, [] => []
  | k, .dropped count :: rendus => positions (k + count) rendus
  | k, .evenement _ :: rendus => k :: positions (k + 1) rendus

def Lecture.main : Lecture π → List (Event π)
  | .attend => []
  | .annonce e => [e]

theorem positions_append (k : Nat) (a b : List (Rendu π)) :
    positions k (a ++ b) = positions k a ++ positions (k + comptes a) b := by
  induction a generalizing k with
  | nil => simp [positions, comptes]
  | cons r a ih =>
      cases r with
      | dropped count => simp [positions, comptes, Rendu.poids, ih, Nat.add_assoc]
      | evenement e => simp [positions, comptes, Rendu.poids, ih, Nat.add_assoc]

@[simp] theorem comptes_append (a b : List (Rendu π)) :
    comptes (a ++ b) = comptes a + comptes b := by
  simp [comptes]

@[simp] theorem livres_append (a b : List (Rendu π)) : livres (a ++ b) = livres a ++ livres b :=
  List.filterMap_append

theorem positions_lt {k i : Nat} {rendus : List (Rendu π)} (h : i ∈ positions k rendus) :
    k ≤ i ∧ i < k + comptes rendus := by
  induction rendus generalizing k with
  | nil => simp [positions] at h
  | cons r rendus ih =>
      cases r with
      | dropped count =>
          have hi := ih h
          simp only [comptes, List.map_cons, List.sum_cons, Rendu.poids] at hi ⊢
          omega
      | evenement e =>
          simp only [comptes, List.map_cons, List.sum_cons, Rendu.poids] at ih ⊢
          rcases List.mem_cons.mp h with rfl | hrest
          · omega
          · have hi := ih hrest
            omega

def Rendu.suivi : Rendu π → Rendu π → Prop
  | .dropped _, .dropped _ => False
  | _, _ => True

/-- How far the yields, the event in hand and the gap not announced yet reach. -/
def Subscriber.front (s : Subscriber π) : Nat :=
  comptes s.rendus + s.lecture.main.length + s.dropped

/-- The position of an event that left the queue without having been delivered. -/
def Subscriber.perd (s : Subscriber π) (i : Nat) : Prop :=
  i < s.front ∧ i ∉ positions 0 s.rendus ∧ (s.lecture = .attend ∨ i ≠ comptes s.rendus)

/-- What a subscriber has yielded, holds and still waits for makes up what it was offered, in
order; a lost event had a full queue of newer ones behind it. -/
structure Inv (queueSize : Nat) (offerts : List (Event π)) (s : Subscriber π) : Prop where
  reste : offerts.drop s.front = s.queue ++ s.fil
  total : offerts.length = s.front + s.queue.length + s.fil.length
  places : (positions 0 s.rendus).map (offerts[·]?) = (livres s.rendus).map some
  main : ∀ e, s.lecture = .annonce e → offerts[comptes s.rendus]? = some e
  borne : s.queue.length ≤ queueSize
  suite : 0 < s.dropped → s.queue ≠ []
  chaine : s.rendus.IsChain Rendu.suivi
  repos : s.lecture = .attend → ∀ r ∈ s.rendus.getLast?, ∃ e, r = .evenement e
  perdus : ∀ i, s.perd i → i + queueSize + s.fil.length < offerts.length

section Abonne

variable {queueSize : Nat} {offerts : List (Event π)} {s s' : Subscriber π}

theorem Inv.premier (h : Inv queueSize offerts s) {e : Event π} {queue : List (Event π)}
    (hqueue : s.queue = e :: queue) :
    offerts[s.front]? = some e ∧ offerts.drop (s.front + 1) = queue ++ s.fil := by
  have hreste : offerts.drop s.front = e :: (queue ++ s.fil) := by
    rw [h.reste, hqueue]
    rfl
  constructor
  · have hget : (offerts.drop s.front)[0]? = some e := by rw [hreste]; rfl
    simpa using hget
  · rw [← List.drop_drop, hreste]
    rfl

theorem enqueue_libre {e : Event π} {fil : List (Event π)} (h : s.queue.length < queueSize) :
    enqueue queueSize { s with fil := fil } e =
      { s with fil := fil, queue := s.queue ++ [e] } := by
  have hpleine : pleine queueSize s.queue = false := by
    simp only [pleine, decide_eq_false_iff_not]
    omega
  simp [enqueue, hpleine]

theorem enqueue_pleine {e ancien : Event π} {fil queue : List (Event π)}
    (hqueue : s.queue = ancien :: queue) (h : queue.length + 1 = queueSize) :
    enqueue queueSize { s with fil := fil } e =
      { s with fil := fil, dropped := s.dropped + 1, queue := queue ++ [e] } := by
  have hpleine : pleine queueSize (ancien :: queue) = true := by
    simp only [pleine, decide_eq_true_eq, List.length_cons]
    omega
  have hreste : pleine queueSize queue = false := by
    simp only [pleine, decide_eq_false_iff_not]
    omega
  simp only [enqueue, hqueue, hpleine, if_true, List.tail_cons, hreste, Bool.false_eq_true,
    if_false]

theorem Inv.enqueue_pleine (h : Inv queueSize offerts s) {e ancien : Event π}
    {fil queue : List (Event π)} (hfil : s.fil = e :: fil) (hqueue : s.queue = ancien :: queue)
    (hplein : queue.length + 1 = queueSize) :
    Inv queueSize offerts
      { s with fil := fil, dropped := s.dropped + 1, queue := queue ++ [e] } := by
  have htotal := h.total
  have hperdus := h.perdus
  simp only [hfil, hqueue, List.length_cons] at htotal hperdus
  have hfront : Subscriber.front
      { s with fil := fil, dropped := s.dropped + 1, queue := queue ++ [e] } = s.front + 1 := by
    simp only [Subscriber.front]
    omega
  constructor
  · rw [hfront, (h.premier hqueue).2, hfil]
    simp
  · rw [hfront]
    simp only [List.length_append, List.length_singleton]
    omega
  · exact h.places
  · exact h.main
  · simp only [List.length_append, List.length_singleton]
    omega
  · simp
  · exact h.chaine
  · exact h.repos
  · intro i hi
    have hlt : i < s.front + 1 := hfront ▸ hi.1
    show i + queueSize + fil.length < offerts.length
    -- the one event that leaves now has the whole queue behind it
    by_cases hlast : i = s.front
    · omega
    · have := hperdus i ⟨by omega, hi.2⟩
      omega

theorem Inv.enqueue_libre (h : Inv queueSize offerts s) {e : Event π} {fil : List (Event π)}
    (hfil : s.fil = e :: fil) (hlibre : s.queue.length < queueSize) :
    Inv queueSize offerts { s with fil := fil, queue := s.queue ++ [e] } := by
  have htotal := h.total
  have hperdus := h.perdus
  simp only [hfil, List.length_cons] at htotal hperdus
  constructor
  · show offerts.drop s.front = s.queue ++ [e] ++ fil
    rw [h.reste, hfil]
    simp
  · show offerts.length = s.front + (s.queue ++ [e]).length + fil.length
    simp only [List.length_append, List.length_singleton]
    omega
  · exact h.places
  · exact h.main
  · simp only [List.length_append, List.length_singleton]
    omega
  · simp
  · exact h.chaine
  · exact h.repos
  · intro i hi
    have := hperdus i hi
    show i + queueSize + fil.length < offerts.length
    omega

theorem Inv.executer (hsize : 1 ≤ queueSize) (h : Inv queueSize offerts s)
    (hs : executer queueSize s = some s') : Inv queueSize offerts s' := by
  unfold EventHub.executer at hs
  split at hs
  · cases hs
  · next e fil hfil =>
      split at hs
      · cases hs
        by_cases hlibre : s.queue.length < queueSize
        · rw [EventHub.enqueue_libre hlibre]
          exact h.enqueue_libre hfil hlibre
        · have hborne := h.borne
          obtain ⟨ancien, queue, hqueue⟩ := List.exists_cons_of_length_pos
            (show 0 < s.queue.length by omega)
          have hplein : queue.length + 1 = queueSize := by
            simp only [hqueue, List.length_cons] at hlibre hborne
            omega
          rw [EventHub.enqueue_pleine hqueue hplein]
          exact h.enqueue_pleine hfil hqueue hplein
      · cases hs

theorem isChain_evenement {rendus : List (Rendu π)} (h : rendus.IsChain Rendu.suivi)
    (e : Event π) : (rendus ++ [Rendu.evenement e]).IsChain Rendu.suivi := by
  rw [List.isChain_append]
  refine ⟨h, List.isChain_singleton _, ?_⟩
  intro r _ r' hr'
  have heq : Rendu.evenement e = r' := by simpa using hr'
  subst heq
  cases r <;> trivial

theorem isChain_dropped {rendus : List (Rendu π)} (h : rendus.IsChain Rendu.suivi)
    (hlast : ∀ r ∈ rendus.getLast?, ∃ e, r = .evenement e) (count : Nat) :
    (rendus ++ [Rendu.dropped count]).IsChain Rendu.suivi := by
  rw [List.isChain_append]
  refine ⟨h, List.isChain_singleton _, ?_⟩
  intro r hr r' _
  have hevent := hlast r hr
  cases r with
  | dropped n => simp at hevent
  | evenement e => trivial

theorem places_evenement {rendus : List (Rendu π)}
    (h : (positions 0 rendus).map (offerts[·]?) = (livres rendus).map some) {e : Event π}
    (he : offerts[comptes rendus]? = some e) :
    (positions 0 (rendus ++ [.evenement e])).map (offerts[·]?) =
      (livres (rendus ++ [.evenement e])).map some := by
  rw [positions_append, List.map_append, h]
  simp [positions, livres, he]

theorem positions_dropped (rendus : List (Rendu π)) (count : Nat) :
    positions 0 (rendus ++ [.dropped count]) = positions 0 rendus := by
  simp [positions_append, positions]

theorem Inv.lire_annonce (h : Inv queueSize offerts s) {e : Event π}
    (hlecture : s.lecture = .annonce e) :
    Inv queueSize offerts
      { s with lecture := .attend, rendus := s.rendus ++ [.evenement e] } := by
  have hfront : Subscriber.front
      { s with lecture := .attend, rendus := s.rendus ++ [.evenement e] } = s.front := by
    simp [Subscriber.front, hlecture, Lecture.main, comptes, Rendu.poids]
  constructor
  · rw [hfront]
    exact h.reste
  · rw [hfront]
    exact h.total
  · exact places_evenement h.places (h.main e hlecture)
  · intro e' he'
    cases he'
  · exact h.borne
  · exact h.suite
  · exact isChain_evenement h.chaine e
  · intro _ r hr
    exact ⟨e, by simpa using hr.symm⟩
  · intro i hi
    have hplaces := hi.2.1
    simp only [positions_append, positions, Nat.zero_add, List.mem_append, List.mem_singleton,
      not_or] at hplaces
    exact h.perdus i ⟨hfront ▸ hi.1, hplaces.1, .inr hplaces.2⟩

theorem Inv.lire_direct (h : Inv queueSize offerts s) {e : Event π} {queue : List (Event π)}
    (hlecture : s.lecture = .attend) (hqueue : s.queue = e :: queue) (hdropped : s.dropped = 0) :
    Inv queueSize offerts
      { s with queue := queue, rendus := s.rendus ++ [.evenement e] } := by
  have hfront₀ : s.front = comptes s.rendus := by
    simp [Subscriber.front, hlecture, hdropped, Lecture.main]
  have hfront : Subscriber.front
      { s with queue := queue, rendus := s.rendus ++ [.evenement e] } = s.front + 1 := by
    simp [Subscriber.front, hlecture, hdropped, Lecture.main, comptes, Rendu.poids]
  have htotal := h.total
  have hborne := h.borne
  simp only [hqueue, List.length_cons] at htotal hborne
  constructor
  · rw [hfront]
    exact (h.premier hqueue).2
  · rw [hfront]
    show offerts.length = s.front + 1 + queue.length + s.fil.length
    omega
  · exact places_evenement h.places (hfront₀ ▸ (h.premier hqueue).1)
  · intro e' he'
    rw [hlecture] at he'
    cases he'
  · show queue.length ≤ queueSize
    omega
  · intro hpos
    exact absurd hdropped (Nat.pos_iff_ne_zero.mp hpos)
  · exact isChain_evenement h.chaine e
  · intro _ r hr
    exact ⟨e, by simpa using hr.symm⟩
  · intro i hi
    have hlt : i < s.front + 1 := hfront ▸ hi.1
    have hplaces := hi.2.1
    simp only [positions_append, positions, Nat.zero_add, List.mem_append, List.mem_singleton,
      not_or] at hplaces
    exact h.perdus i ⟨by omega, hplaces.1, .inl hlecture⟩

theorem Inv.lire_ecart (h : Inv queueSize offerts s) {e : Event π} {queue : List (Event π)}
    (hlecture : s.lecture = .attend) (hqueue : s.queue = e :: queue) :
    Inv queueSize offerts
      { s with
        queue := queue
        dropped := 0
        lecture := .annonce e
        rendus := s.rendus ++ [.dropped s.dropped] } := by
  have hcomptes : comptes (s.rendus ++ [.dropped s.dropped]) = s.front := by
    simp [Subscriber.front, hlecture, Lecture.main, comptes, Rendu.poids]
  have hfront : Subscriber.front
      { s with
        queue := queue
        dropped := 0
        lecture := .annonce e
        rendus := s.rendus ++ [.dropped s.dropped] } = s.front + 1 := by
    show comptes (s.rendus ++ [.dropped s.dropped]) + 1 + 0 = s.front + 1
    omega
  have htotal := h.total
  have hborne := h.borne
  simp only [hqueue, List.length_cons] at htotal hborne
  constructor
  · rw [hfront]
    exact (h.premier hqueue).2
  · rw [hfront]
    show offerts.length = s.front + 1 + queue.length + s.fil.length
    omega
  · rw [positions_dropped]
    simpa [livres] using h.places
  · intro e' he'
    cases he'
    rw [hcomptes]
    exact (h.premier hqueue).1
  · show queue.length ≤ queueSize
    omega
  · intro hpos
    cases hpos
  · exact isChain_dropped h.chaine (h.repos hlecture) _
  · intro hattend
    cases hattend
  · intro i hi
    have hlt : i < s.front + 1 := hfront ▸ hi.1
    have hplaces : i ∉ positions 0 s.rendus := positions_dropped s.rendus s.dropped ▸ hi.2.1
    rcases hi.2.2 with hattend | hne
    · cases hattend
    · rw [hcomptes] at hne
      exact h.perdus i ⟨by omega, hplaces, .inl hlecture⟩

theorem Inv.lire (h : Inv queueSize offerts s) (hs : lire s = some s') :
    Inv queueSize offerts s' := by
  unfold EventHub.lire at hs
  split at hs
  · next e hlecture =>
      cases hs
      exact h.lire_annonce hlecture
  · next hlecture =>
      split at hs
      · cases hs
      · next e queue hqueue =>
          split at hs
          · next hdropped =>
              cases hs
              exact h.lire_direct hlecture hqueue hdropped
          · cases hs
            exact h.lire_ecart hlecture hqueue

theorem inv_nouveau (types : Option (List String)) (depuis : Nat) :
    Inv (π := π) queueSize [] { types := types, depuis := depuis } := by
  constructor
  · rfl
  · rfl
  · rfl
  · intro e he
    cases he
  · exact Nat.zero_le _
  · intro hpos
    cases hpos
  · exact List.isChain_nil
  · intro _ r hr
    cases hr
  · intro i hi
    cases hi.1

theorem Inv.offrir (h : Inv queueSize offerts s) (e : Event π) :
    Inv queueSize (offerts ++ [e]) (s.callSoon e) := by
  have htotal := h.total
  have hlong : (offerts ++ [e]).length = offerts.length + 1 := by simp
  constructor
  · show (offerts ++ [e]).drop s.front = s.queue ++ (s.fil ++ [e])
    rw [List.drop_append_of_le_length (by omega), h.reste, List.append_assoc]
  · rw [hlong]
    show offerts.length + 1 = s.front + s.queue.length + (s.fil ++ [e]).length
    simp only [List.length_append, List.length_singleton]
    omega
  · show (positions 0 s.rendus).map ((offerts ++ [e])[·]?) = (livres s.rendus).map some
    rw [← h.places]
    apply List.map_congr_left
    intro i hi
    have hlt : i < 0 + comptes s.rendus := (positions_lt hi).2
    have hfront : comptes s.rendus ≤ s.front := by
      simp only [Subscriber.front]
      omega
    exact List.getElem?_append_left (by omega)
  · intro e' he'
    have hget := h.main e' he'
    have hlt := (List.getElem?_eq_some_iff.mp hget).1
    show (offerts ++ [e])[comptes s.rendus]? = some e'
    rw [List.getElem?_append_left hlt]
    exact hget
  · exact h.borne
  · exact h.suite
  · exact h.chaine
  · exact h.repos
  · intro i hi
    have := h.perdus i hi
    rw [hlong]
    show i + queueSize + (s.fil ++ [e]).length < offerts.length + 1
    simp only [List.length_append, List.length_singleton]
    omega

end Abonne

section Runs

variable {queueSize : Nat} {eventTypes : List String}

/-- Every registered subscriber satisfies its invariant. -/
def Tient (queueSize : Nat) (h : Hub π) : Prop :=
  ∀ item ∈ h.subscribers,
    item.2.depuis ≤ h.publies.length ∧ Inv queueSize (offerts h item.2) item.2

theorem offerts_publies {h h' : Hub π} {s : Subscriber π} {e : Event π}
    (hpublies : h'.publies = h.publies ++ [e]) (hdepuis : s.depuis ≤ h.publies.length) :
    offerts h' s = offerts h s ++ if s.veut e then [e] else [] := by
  rw [offerts, hpublies, List.drop_append_of_le_length hdepuis, List.filter_append]
  simp [offerts, List.filter_cons]

theorem offerts_congr {h : Hub π} {s s' : Subscriber π} (hdepuis : s'.depuis = s.depuis)
    (htypes : s'.types = s.types) : offerts h s' = offerts h s := by
  have hveut : s'.veut = s.veut := by
    funext e
    simp [Subscriber.veut, htypes]
  rw [offerts, offerts, hdepuis, hveut]

theorem offerts_callSoon (h : Hub π) (s : Subscriber π) (e : Event π) :
    offerts h (s.callSoon e) = offerts h s := rfl

theorem Tient.surAbonne {h h' : Hub π} {id : Nat} {f : Subscriber π → Option (Subscriber π)}
    (ht : Tient queueSize h)
    (hf : ∀ s s', f s = some s' → s'.depuis = s.depuis ∧ s'.types = s.types ∧
      ∀ offerts, Inv queueSize offerts s → Inv queueSize offerts s')
    (hh : surAbonne h id f = some h') : Tient queueSize h' := by
  unfold EventHub.surAbonne at hh
  split at hh
  · cases hh
  · next s hs =>
      cases hs' : f s with
      | none => simp [hs'] at hh
      | some s' =>
          simp only [hs', Option.map_some, Option.some.injEq] at hh
          subst hh
          have hsnd := hf s s' hs'
          have hold := ht _ (Dict.mem_of_get? hs)
          intro item hitem
          rcases Dict.mem_of_mem_set hitem with heq | hmem
          · subst heq
            refine ⟨?_, ?_⟩
            · rw [hsnd.1]
              exact hold.1
            · show Inv queueSize (offerts h s') s'
              rw [offerts_congr hsnd.1 hsnd.2.1]
              exact hsnd.2.2 _ hold.2
          · exact ht item hmem

theorem executer_garde {s s' : Subscriber π} (h : executer queueSize s = some s') :
    s'.depuis = s.depuis ∧ s'.types = s.types := by
  unfold executer at h
  split at h
  · cases h
  · split at h
    · cases h
      unfold enqueue
      split <;> exact ⟨rfl, rfl⟩
    · cases h

theorem lire_garde {s s' : Subscriber π} (h : lire s = some s') :
    s'.depuis = s.depuis ∧ s'.types = s.types := by
  unfold lire at h
  split at h
  · cases h
    exact ⟨rfl, rfl⟩
  · split at h
    · cases h
    · split at h <;> cases h <;> exact ⟨rfl, rfl⟩

theorem offer_cas {e : Event π} {item item' : Nat × Subscriber π} (h : offer e item = some item') :
    (item.2.veut e = true ∧ item'.2 = item.2.callSoon e) ∨
      (item.2.veut e = false ∧ item'.2 = item.2) := by
  unfold offer at h
  split at h
  · next hveut =>
      split at h
      · cases h
        exact .inl ⟨hveut, rfl⟩
      · cases h
  · next hveut =>
      cases h
      exact .inr ⟨by simpa using hveut, rfl⟩

theorem Tient.publish {h : Hub π} (ht : Tient queueSize h) (e : Event π) :
    Tient queueSize (publish eventTypes h e) := by
  unfold EventHub.publish
  split
  · intro item hitem
    obtain ⟨ancien, hancien, hoffer⟩ := List.mem_filterMap.mp hitem
    have hold := ht ancien hancien
    have hlong : ancien.2.depuis ≤ (h.publies ++ [e]).length := by
      have := hold.1
      simp only [List.length_append, List.length_singleton]
      omega
    rcases offer_cas hoffer with ⟨hveut, heq⟩ | ⟨hveut, heq⟩
    · rw [heq]
      refine ⟨hlong, ?_⟩
      rw [offerts_callSoon, offerts_publies rfl hold.1, hveut]
      exact hold.2.offrir e
    · rw [heq]
      refine ⟨hlong, ?_⟩
      rw [offerts_publies rfl hold.1, hveut]
      simpa using hold.2
  · exact ht

theorem Tient.subscribe {h : Hub π} (ht : Tient queueSize h) (id : Nat)
    (types : Option (List String)) :
    Tient queueSize { h with
      subscribers := h.subscribers.set id { types := types, depuis := h.publies.length } } := by
  intro item hitem
  rcases Dict.mem_of_mem_set hitem with heq | hmem
  · subst heq
    refine ⟨Nat.le_refl _, ?_⟩
    have hvide : offerts { h with
        subscribers := h.subscribers.set id { types := types, depuis := h.publies.length } }
        { types := types, depuis := h.publies.length } = [] := by
      simp [offerts]
    rw [hvide]
    exact inv_nouveau types _
  · exact ht item hmem

theorem Tient.pas (hsize : 1 ≤ queueSize) (h h' : Hub π) (ev : Evenement π)
    (ht : Tient queueSize h) (hpas : pas queueSize eventTypes h ev = some h') :
    Tient queueSize h' := by
  cases ev with
  | subscribe id types =>
      simp only [EventHub.pas] at hpas
      split at hpas
      · cases hpas
      · cases hpas
        exact ht.subscribe id types
  | publish e =>
      cases hpas
      exact ht.publish e
  | boucle id =>
      refine ht.surAbonne (fun s s' hs => ?_) hpas
      have hgarde := executer_garde hs
      exact ⟨hgarde.1, hgarde.2, fun _ hinv => hinv.executer hsize hs⟩
  | lire id =>
      refine ht.surAbonne (fun s s' hs => ?_) hpas
      split at hs
      · have hgarde := lire_garde hs
        exact ⟨hgarde.1, hgarde.2, fun _ hinv => hinv.lire hs⟩
      · cases hs
  | quitter id =>
      cases hpas
      intro item hitem
      exact ht item (Dict.mem_erase.mp hitem).1
  | fermerLoop id =>
      refine ht.surAbonne (fun s s' hs => ?_) hpas
      cases hs
      exact ⟨rfl, rfl, fun _ hinv => ⟨hinv.reste, hinv.total, hinv.places, hinv.main,
        hinv.borne, hinv.suite, hinv.chaine, hinv.repos, hinv.perdus⟩⟩

theorem tient_run (hsize : 1 ≤ queueSize) {events : List (Evenement π)} {h : Hub π}
    (hrun : run (pas queueSize eventTypes) {} events = some h) : Tient queueSize h := by
  have hvide : Tient (π := π) queueSize {} := by
    intro item hitem
    cases hitem
  exact run_invariant (fun h ev h' ht hpas => ht.pas hsize h h' ev hpas) hvide hrun

end Runs

theorem comptes_eq (rendus : List (Rendu π)) :
    comptes rendus = (livres rendus).length + annonces rendus := by
  induction rendus with
  | nil => rfl
  | cons r rendus ih =>
      cases r with
      | dropped count =>
          simp only [comptes, livres, annonces, List.map_cons, List.sum_cons, Rendu.poids,
            List.filterMap_cons] at ih ⊢
          omega
      | evenement e =>
          simp only [comptes, livres, annonces, List.map_cons, List.sum_cons, Rendu.poids,
            List.filterMap_cons, List.length_cons] at ih ⊢
          omega

theorem length_positions (k : Nat) (rendus : List (Rendu π)) :
    (positions k rendus).length = (livres rendus).length := by
  induction rendus generalizing k with
  | nil => rfl
  | cons r rendus ih =>
      cases r with
      | dropped count => exact ih (k + count)
      | evenement e => simpa [positions, livres] using ih (k + 1)

theorem eq_take_cons_drop {l : List (Event π)} {i : Nat} {e : Event π} (h : l[i]? = some e) :
    l = l.take i ++ e :: l.drop (i + 1) := by
  obtain ⟨hlt, hget⟩ := List.getElem?_eq_some_iff.mp h
  rw [← hget, ← List.drop_eq_getElem_cons hlt, List.take_append_drop]

theorem sublist_of_places {l : List (Event π)} {k : Nat} {rendus : List (Rendu π)}
    (h : (positions k rendus).map (l[·]?) = (livres rendus).map some) :
    (livres rendus).Sublist (l.drop k) := by
  induction rendus generalizing k with
  | nil => exact List.nil_sublist _
  | cons r rendus ih =>
      cases r with
      | dropped count =>
          have hrest := ih (k := k + count) h
          exact hrest.trans (List.drop_sublist_drop_left l (Nat.le_add_right k count))
      | evenement e =>
          have hcons : l[k]? = some e ∧
              (positions (k + 1) rendus).map (l[·]?) = (livres rendus).map some := by
            simpa [positions, livres] using h
          obtain ⟨hlt, hget⟩ := List.getElem?_eq_some_iff.mp hcons.1
          have hdrop : l.drop k = e :: l.drop (k + 1) := by
            rw [List.drop_eq_getElem_cons hlt, hget]
          have hlivres : livres (.evenement e :: rendus) = e :: livres rendus := by simp [livres]
          rw [hdrop, hlivres]
          exact (ih hcons.2).cons_cons e

theorem place_de {l : List (Event π)} {a b : List (Rendu π)} {e : Event π}
    (h : (positions 0 (a ++ .evenement e :: b)).map (l[·]?) =
      (livres (a ++ .evenement e :: b)).map some) : l[comptes a]? = some e := by
  rw [positions_append, livres_append, List.map_append, List.map_append] at h
  have hlong : ((positions 0 a).map (l[·]?)).length = ((livres a).map some).length := by
    rw [List.length_map, List.length_map, length_positions]
  have hright := (List.append_inj h hlong).2
  simp only [positions, livres, List.filterMap_cons, List.map_cons, Nat.zero_add] at hright
  exact (List.cons.inj hright).1

theorem annonce_unique {mid b : List (Rendu π)} (h : (mid ++ b).IsChain Rendu.suivi)
    (hmid : livres mid = []) : mid.length ≤ 1 := by
  match mid, h, hmid with
  | [], _, _ => exact Nat.zero_le 1
  | [_], _, _ => exact Nat.le_refl 1
  | .dropped n :: .dropped m :: mid, h, _ =>
      have hsuivi : Rendu.suivi (.dropped (π := π) n) (.dropped m) := by
        have hchain : List.IsChain Rendu.suivi (.dropped n :: .dropped m :: (mid ++ b)) := h
        exact (List.isChain_cons_cons.mp hchain).1
      exact hsuivi.elim
  | .evenement e :: mid, _, hmid => simp [livres] at hmid
  | .dropped n :: .evenement e :: mid, _, hmid => simp [livres] at hmid

/-- What is offered and neither yielded nor announced yet: the event in hand, the gap that the
next announcement will carry, the queue and the calls that the loop has not run. -/
def Subscriber.enAttente (s : Subscriber π) : Nat :=
  s.lecture.main.length + s.dropped + s.queue.length + s.fil.length

/-- What a subscriber has yielded, against what it was offered. -/
structure Exacte (queueSize : Nat) (offerts : List (Event π)) (s : Subscriber π) : Prop where
  sousSuite : (livres s.rendus).Sublist offerts
  /-- Between two consecutive deliveries, the gap is what was announced between them. -/
  ecart : ∀ a e mid e' b,
    s.rendus = a ++ .evenement e :: (mid ++ .evenement e' :: b) → livres mid = [] →
      mid.length ≤ 1 ∧ ∃ x between y, offerts = x ++ e :: (between ++ e' :: y) ∧
        x.length = comptes a ∧ between.length = annonces mid
  debut : ∀ mid e b, s.rendus = mid ++ .evenement e :: b → livres mid = [] →
    mid.length ≤ 1 ∧ ∃ between y, offerts = between ++ e :: y ∧ between.length = annonces mid
  recents : ∀ i, s.perd i → i + queueSize + s.fil.length < offerts.length
  /-- A gap that is not announced yet has an event behind it that will announce it. -/
  suite : 0 < s.dropped → s.queue ≠ []
  total : (livres s.rendus).length + annonces s.rendus + s.enAttente = offerts.length

theorem Inv.exacte {queueSize : Nat} {offerts : List (Event π)} {s : Subscriber π}
    (h : Inv queueSize offerts s) : Exacte queueSize offerts s := by
  constructor
  · exact sublist_of_places (k := 0) h.places
  · intro a e mid e' b hrendus hmid
    have hplaces := h.places
    have hchaine := h.chaine
    rw [hrendus] at hplaces hchaine
    have he := place_de hplaces
    have hregroupe : a ++ Rendu.evenement e :: (mid ++ .evenement e' :: b) =
        (a ++ .evenement e :: mid) ++ .evenement e' :: b := by simp
    have he' := place_de (hregroupe ▸ hplaces)
    have hcomptes : comptes (a ++ .evenement e :: mid) = comptes a + 1 + annonces mid := by
      have hmilieu := comptes_eq mid
      have hcons : comptes (.evenement e :: mid) = 1 + comptes mid := by
        simp [comptes, Rendu.poids]
      rw [hmid, List.length_nil] at hmilieu
      rw [comptes_append, hcons]
      omega
    refine ⟨?_, ?_⟩
    · exact annonce_unique (List.isChain_cons.mp hchaine.right_of_append).2 hmid
    · refine ⟨offerts.take (comptes a), (offerts.drop (comptes a + 1)).take (annonces mid),
        (offerts.drop (comptes a + 1)).drop (annonces mid + 1), ?_, ?_, ?_⟩
      · have hsecond : (offerts.drop (comptes a + 1))[annonces mid]? = some e' := by
          rw [List.getElem?_drop, ← hcomptes]
          exact he'
        rw [← eq_take_cons_drop hsecond]
        exact eq_take_cons_drop he
      · have hlt := (List.getElem?_eq_some_iff.mp he).1
        rw [List.length_take]
        omega
      · have hlt := (List.getElem?_eq_some_iff.mp he').1
        rw [List.length_take, List.length_drop]
        omega
  · intro mid e b hrendus hmid
    have hplaces := h.places
    have hchaine := h.chaine
    rw [hrendus] at hplaces hchaine
    have he := place_de hplaces
    have hcomptes : comptes mid = annonces mid := by
      rw [comptes_eq, hmid, List.length_nil, Nat.zero_add]
    have hlt := (List.getElem?_eq_some_iff.mp he).1
    refine ⟨annonce_unique hchaine hmid, offerts.take (comptes mid),
      offerts.drop (comptes mid + 1), eq_take_cons_drop he, ?_⟩
    rw [List.length_take]
    omega
  · exact h.perdus
  · exact h.suite
  · have htotal := h.total
    have hcomptes := comptes_eq s.rendus
    simp only [Subscriber.front] at htotal
    simp only [Subscriber.enAttente]
    omega

/-- In every run of a hub with a queue, what a registered subscriber has yielded accounts
exactly for what it was offered. -/
theorem livraison_exacte {queueSize : Nat} {eventTypes : List String}
    {events : List (Evenement π)} {h : Hub π} {id : Nat} {s : Subscriber π}
    (hsize : 1 ≤ queueSize) (hrun : run (pas queueSize eventTypes) {} events = some h)
    (hs : h.subscribers.get? id = some s) : Exacte queueSize (offerts h s) s :=
  (tient_run hsize hrun (id, s) (Dict.mem_of_get? hs)).2.exacte

/-- Two publications into a queue of one: the first is announced as lost, the second is
delivered. -/
theorem livraison_exacte_debordement :
    ∃ (h : Hub Nat) (s : Subscriber Nat),
      s.rendus = [.dropped 1, .evenement ⟨"a.b", 2⟩] ∧ Exacte 1 (offerts h s) s := by
  let evs : List (Evenement Nat) := [.subscribe 0 none, .publish ⟨"a.a", 1⟩,
    .publish ⟨"a.b", 2⟩, .boucle 0, .boucle 0, .lire 0, .lire 0]
  let s : Subscriber Nat :=
    { types := none, depuis := 0, rendus := [.dropped 1, .evenement ⟨"a.b", 2⟩] }
  let h : Hub Nat :=
    { subscribers := [(0, s)], unknownSeen := ["a.b"], publies := [⟨"a.a", 1⟩, ⟨"a.b", 2⟩] }
  have hrun : run (pas 1 ["a.a"]) {} evs = some h := by decide
  have hs : h.subscribers.get? 0 = some s := rfl
  exact ⟨h, s, rfl, livraison_exacte (Nat.le_refl 1) hrun hs⟩

end Hermes.EventHub
