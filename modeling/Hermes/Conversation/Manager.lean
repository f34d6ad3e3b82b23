import Hermes.Conversation.Store
import Hermes.Lib.Runs

/-! # The conversations in memory and their deletion

The manager keeps the sessions it uses in memory, reloads the others from the store, and writes a
session whole after each change.
-/

namespace Hermes.Conversation

open Lib

variable {α : Type*}

structure Moteur (α : Type*) where
  codec : Codec α
  vide : α
  buildInitialContext : String → ConversationContext α
  buildContext : String → ConversationContext α → ConversationContext α
  generate : ConversationContext α → String → Message α × Bool
  approuver : ConversationContext α → Message α
  annuler : ConversationContext α → Message α

inductive Operation (α : Type*) where
  | beginStream (content : String)
  | finishStream (content : String) (metadata : α)
  | handleMessage (content : String)
  | setProject (projectId : Option String)
  | approveAction
  | cancelAction
  deriving DecidableEq

/-- A call that has not returned, with what its local variables hold. -/
inductive EnVol (α : Type*) where
  | verrouille (op : Operation α) (ref : Nat)
  /-- `handle_message` in its last callbacks. -/
  | rappels
  /-- `rafraichir_resume` at its await, so many messages to summarise. -/
  | resume (ref anciens : Nat)
  /-- `delete_session` before its call of the store. -/
  | suppression (id : SessionId)
  | finie
  deriving DecidableEq

structure Etat (α : Type*) where
  store : Store
  sessions : Dict SessionId Nat := []
  objets : List (ConversationSession α) := []
  prochain : Nat
  enVol : List (EnVol α) := []
  pile : List Nat := []
  maintenant : Int := 0
  effacees : List SessionId := []
  deriving DecidableEq

def MAX_SESSIONS : Nat := 100

def MAX_HISTORY_MESSAGES : Nat := 20

def MINIMUM_A_RESUMER : Nat := 4

/-- An identifier that a caller may name: one that has been drawn, or any other text. -/
def Etat.connu (s : Etat α) : SessionId → Bool
  | .uuid n => n < s.prochain
  | .autre _ => true

section Gestionnaire

variable (m : Moteur α)

def Etat.persist (s : Etat α) (ref : Nat) : Etat α :=
  match s.objets[ref]? with
  | none => s
  | some session => { s with store := s.store.sync m.codec session }

def Etat.cachedOrLoaded (s : Etat α) (id : SessionId) : Option Nat × Etat α :=
  match s.sessions.get? id with
  | some ref => (some ref, s)
  | none =>
      if id = .autre "" then (none, s)
      else
        match s.store.load m.codec id with
        | none => (none, s)
        | some restored =>
            (some s.objets.length,
              { s with
                objets := s.objets ++ [restored]
                sessions := s.sessions.set id s.objets.length })

def Etat.cleanupOldSessions (s : Etat α) : Etat α :=
  if s.sessions.length < MAX_SESSIONS then s
  else
    let oldest := (s.sessions.filterMap fun item => s.objets[item.2]?).insertionSort
      fun a b => a.updatedAt ≤ b.updatedAt
    let toRemove := s.sessions.length - MAX_SESSIONS + 10
    let gardees := (oldest.take toRemove).foldl
      (fun sessions session => sessions.erase session.sessionId) s.sessions
    { s with sessions := gardees }

def nouvelleSession (s : Etat α) (userId : String) : ConversationSession α where
  sessionId := .uuid s.prochain
  userId := userId
  context := m.buildInitialContext userId
  createdAt := s.maintenant
  updatedAt := s.maintenant
  metadata := m.vide

def Etat.createSession (s : Etat α) (userId : String) : Nat × Etat α :=
  let s := s.cleanupOldSessions
  let ref := s.objets.length
  (ref, Etat.persist m
    { s with
      objets := s.objets ++ [nouvelleSession m s userId]
      sessions := s.sessions.set (.uuid s.prochain) ref
      prochain := s.prochain + 1 } ref)

/-- The operations that open a session for an unknown identifier. -/
def Operation.ouvre : Operation α → Bool
  | .beginStream _ => true
  | .handleMessage _ => true
  | _ => false

def messageUser (content : String) (maintenant : Int) : Message α where
  role := .user
  content := content
  timestamp := maintenant
  metadata := m.vide

/-- What `handle_message` does before its callbacks; the others change nothing before their
write. -/
def Operation.avant (op : Operation α) (maintenant : Int) (session : ConversationSession α) :
    ConversationSession α :=
  match op with
  | .handleMessage content =>
      { session with
        messages := session.messages ++ [messageUser m content maintenant]
        status := .processing
        updatedAt := maintenant
        context := m.buildContext content session.context }
  | _ => session

def Operation.apres (op : Operation α) (maintenant : Int) (session : ConversationSession α) :
    ConversationSession α :=
  match op with
  | .beginStream content =>
      { session with
        messages := session.messages ++ [messageUser m content maintenant]
        status := .processing
        updatedAt := maintenant
        context := m.buildContext content session.context }
  | .finishStream content metadata =>
      { session with
        messages := session.messages ++
          if Texte.strip content = "" then []
          else
            [{ role := .hermes
               content := content
               timestamp := maintenant
               metadata := metadata }]
        status := .active
        updatedAt := maintenant }
  | .handleMessage content =>
      let (message, requiresApproval) := m.generate session.context content
      { session with
        messages := session.messages ++ [message]
        status := if requiresApproval then .awaitingApproval else .active
        updatedAt := maintenant }
  | .setProject projectId =>
      { session with
        context := { session.context with activeProjectId := projectId.getD "" }
        updatedAt := maintenant }
  | .approveAction =>
      { session with
        messages := session.messages ++ [m.approuver session.context]
        status := .active
        updatedAt := maintenant }
  | .cancelAction =>
      { session with
        messages := session.messages ++ [m.annuler session.context]
        status := .cancelled
        updatedAt := maintenant }

def Etat.modifier (s : Etat α) (ref : Nat)
    (f : ConversationSession α → ConversationSession α) : Etat α :=
  { s with objets := s.objets.modify ref f }

/-- The lock can be taken: nobody holds it, or a callback of `handle_message` takes it again. -/
def Etat.libre (s : Etat α) : Bool :=
  match s.pile with
  | [] => true
  | i :: _ =>
      match s.enVol[i]? with
      | some (.verrouille (.handleMessage _) _) => true
      | some .rappels => true
      | _ => false

def Etat.engager (s : Etat α) (op : Operation α) (ref : Nat) : Etat α :=
  { s.modifier ref (op.avant m s.maintenant) with
    enVol := s.enVol ++ [.verrouille op ref]
    pile := s.enVol.length :: s.pile }

def Etat.debut (s : Etat α) (op : Operation α) (id : SessionId) : Etat α :=
  match s.cachedOrLoaded m id with
  | (some ref, s') => s'.engager m op ref
  | (none, s') =>
      if op.ouvre then
        let (ref, s'') := s'.createSession m "anonymous"
        s''.engager m op ref
      else s'

/-- The innermost call writes its session; `handle_message` still has callbacks to run. -/
def Etat.ecrire (s : Etat α) (i : Nat) (op : Operation α) (ref : Nat) : Etat α :=
  let s' := (s.modifier ref (op.apres m s.maintenant)).persist m ref
  match op with
  | .handleMessage _ => { s' with enVol := s'.enVol.set i .rappels }
  | _ => { s' with enVol := s'.enVol.set i .finie, pile := s'.pile.tail }

/-- `decouper`: how many messages are too old to be sent. -/
def decouper (messages : List (Message α)) : Nat :=
  if messages.length ≤ MAX_HISTORY_MESSAGES + MINIMUM_A_RESUMER then 0
  else messages.length - MAX_HISTORY_MESSAGES

/-- `rafraichir_resume` up to its await, if it reaches it. -/
def Etat.resumeDebut (s : Etat α) (id : SessionId) : Etat α :=
  match s.cachedOrLoaded m id with
  | (none, s') => s'
  | (some ref, s') =>
      match s'.objets[ref]? with
      | none => s'
      | some session =>
          let anciens := decouper session.messages
          let transcription := (session.messages.take anciens).any fun message =>
            Texte.strip message.content ≠ ""
          if anciens ≤ session.context.historySummaryUpto ∨ ¬transcription then s'
          else { s' with enVol := s'.enVol ++ [.resume ref anciens] }

def ConversationSession.resumee (session : ConversationSession α) (resume : String)
    (anciens : Nat) : ConversationSession α :=
  { session with
    context := { session.context with
      historySummary := resume
      historySummaryUpto := anciens } }

/-- The summary is written on the session that was found before the await. -/
def Etat.resumeFin (s : Etat α) (i ref anciens : Nat) (resume : String) : Etat α :=
  let s := { s with enVol := s.enVol.set i .finie }
  if resume = "" then s
  else (s.modifier ref fun session => session.resumee resume anciens).persist m ref

inductive Evenement (α : Type*) where
  | tic (maintenant : Int)
  | createSession (userId : String)
  | getSession (id : SessionId)
  | debut (op : Operation α) (id : SessionId)
  | ecrire (i : Nat)
  /-- The last callbacks of `handle_message` have run. -/
  | relacher (i : Nat)
  | resumeDebut (id : SessionId)
  | resumeFin (i : Nat) (resume : String)
  | deletePop (id : SessionId)
  | deleteStore (i : Nat)
  deriving DecidableEq

def pas (s : Etat α) : Evenement α → Option (Etat α)
  | .tic maintenant => some { s with maintenant := maintenant }
  | .createSession userId => if s.libre then some (s.createSession m userId).2 else none
  | .getSession id =>
      if s.libre ∧ s.connu id then some (s.cachedOrLoaded m id).2 else none
  | .debut op id => if s.libre ∧ s.connu id then some (s.debut m op id) else none
  | .ecrire i =>
      if s.pile.head? = some i then
        match s.enVol[i]? with
        | some (.verrouille op ref) => some (s.ecrire m i op ref)
        | _ => none
      else none
  | .relacher i =>
      if s.pile.head? = some i then
        match s.enVol[i]? with
        | some .rappels => some { s with enVol := s.enVol.set i .finie, pile := s.pile.tail }
        | _ => none
      else none
  | .resumeDebut id =>
      if s.pile = [] ∧ s.connu id then some (s.resumeDebut m id) else none
  | .resumeFin i resume =>
      if s.pile = [] then
        match s.enVol[i]? with
        | some (.resume ref anciens) => some (s.resumeFin m i ref anciens resume)
        | _ => none
      else none
  | .deletePop id =>
      if s.libre ∧ s.connu id then
        some { s with
          sessions := s.sessions.erase id
          enVol := s.enVol ++ [.suppression id] }
      else none
  | .deleteStore i =>
      match s.enVol[i]? with
      | some (.suppression id) =>
          some { s with
            store := s.store.delete id
            enVol := s.enVol.set i .finie
            effacees := s.effacees ++ [id] }
      | _ => none

/-- A conversation is neither in memory nor in the store. -/
def Etat.Oublie (s : Etat α) (id : SessionId) : Prop :=
  id ∉ s.sessions.keys ∧ s.store.Absente id

/-- Every conversation whose deletion has returned is gone. -/
def Oubliees (s : Etat α) : Prop := ∀ id ∈ s.effacees, s.Oublie id

/-- The session behind a reference is not one whose deletion has returned. -/
def Etat.Vivante (s : Etat α) (ref : Nat) : Prop :=
  ∀ session, s.objets[ref]? = some session → session.sessionId ∉ s.effacees

/-- The steps that leave the deleted conversations deleted: a call in flight writes a session
whose deletion has not returned, and a deletion reaches the store before anything has put the
conversation back in memory. -/
def Permis (s : Etat α) : Evenement α → Prop
  | .ecrire i => ∀ op ref, s.enVol[i]? = some (.verrouille op ref) → s.Vivante ref
  | .resumeFin i resume => resume ≠ "" →
      ∀ ref anciens, s.enVol[i]? = some (.resume ref anciens) → s.Vivante ref
  | .deleteStore i => ∀ id, s.enVol[i]? = some (.suppression id) → id ∉ s.sessions.keys
  | _ => True

end Gestionnaire

/-- A deletion names an identifier that has been drawn. -/
structure Connus (s : Etat α) : Prop where
  effacees : ∀ id ∈ s.effacees, s.connu id = true
  suppressions : ∀ (i : Nat) (id : SessionId),
    s.enVol[i]? = some (.suppression id) → s.connu id = true

/-- What a step other than a deletion keeps: it begins no deletion and brings back none of the
conversations that have been deleted. -/
structure Garde (s s' : Etat α) : Prop where
  effacees : s'.effacees = s.effacees
  prochain : s.prochain ≤ s'.prochain
  suppressions : ∀ (i : Nat) (id : SessionId),
    s'.enVol[i]? = some (.suppression id) → s.enVol[i]? = some (.suppression id)
  oublie : ∀ id ∈ s.effacees, s.connu id = true → s.Oublie id → s'.Oublie id

section Etapes

variable {m : Moteur α} {s s' s'' : Etat α}

theorem connu_mono (h : s.prochain ≤ s'.prochain) {id : SessionId} (hid : s.connu id = true) :
    s'.connu id = true := by
  cases id with
  | uuid n =>
      simp only [Etat.connu, decide_eq_true_eq] at hid ⊢
      omega
  | autre texte => rfl

theorem Garde.refl (s : Etat α) : Garde s s :=
  ⟨rfl, Nat.le_refl _, fun _ _ h => h, fun _ _ _ h => h⟩

theorem Garde.trans (h : Garde s s') (h' : Garde s' s'') : Garde s s'' := by
  constructor
  · rw [h'.effacees, h.effacees]
  · exact Nat.le_trans h.prochain h'.prochain
  · exact fun i id hid => h.suppressions i id (h'.suppressions i id hid)
  · intro id hid hconnu hs
    exact h'.oublie id (h.effacees ▸ hid) (connu_mono h.prochain hconnu)
      (h.oublie id hid hconnu hs)

theorem garde_de (heffacees : s'.effacees = s.effacees) (hprochain : s'.prochain = s.prochain)
    (hsessions : s'.sessions = s.sessions) (hstore : s'.store = s.store)
    (hsuppressions : ∀ (i : Nat) (id : SessionId),
      s'.enVol[i]? = some (.suppression id) → s.enVol[i]? = some (.suppression id)) :
    Garde s s' := by
  refine ⟨heffacees, Nat.le_of_eq hprochain.symm, hsuppressions, ?_⟩
  intro id _ _ h
  exact ⟨hsessions ▸ h.1, hstore ▸ h.2⟩

theorem suppression_of_set {l : List (EnVol α)} {i j : Nat} {e : EnVol α} {id : SessionId}
    (he : e ≠ .suppression id) (h : (l.set j e)[i]? = some (.suppression id)) :
    l[i]? = some (.suppression id) := by
  rw [List.getElem?_set] at h
  split at h
  · split at h
    · cases h
      exact absurd rfl he
    · cases h
  · exact h

theorem suppression_of_append {l : List (EnVol α)} {i : Nat} {e : EnVol α} {id : SessionId}
    (he : e ≠ .suppression id) (h : (l ++ [e])[i]? = some (.suppression id)) :
    l[i]? = some (.suppression id) := by
  rw [List.getElem?_append] at h
  split at h
  · exact h
  · rw [List.getElem?_singleton] at h
    split at h
    · cases h
      exact absurd rfl he
    · cases h

theorem cachedOrLoaded_cas (id : SessionId) :
    (s.cachedOrLoaded m id).2 = s ∨
      ∃ restored, s.store.load m.codec id = some restored ∧
        (s.cachedOrLoaded m id).2 = { s with
          objets := s.objets ++ [restored]
          sessions := s.sessions.set id s.objets.length } := by
  unfold Etat.cachedOrLoaded
  split
  · exact .inl rfl
  · split
    · exact .inl rfl
    · split
      · exact .inl rfl
      · next restored hload => exact .inr ⟨restored, hload, rfl⟩

theorem cachedOrLoaded_garde (id : SessionId) : Garde s (s.cachedOrLoaded m id).2 := by
  rcases cachedOrLoaded_cas (m := m) (s := s) id with heq | ⟨restored, hload, heq⟩
  · rw [heq]
    exact .refl s
  · rw [heq]
    refine ⟨rfl, Nat.le_refl _, fun _ _ h => h, ?_⟩
    intro id' _ _ h
    refine ⟨?_, h.2⟩
    intro hmem
    rcases (Dict.keys_set _ _ _ _).mp hmem with rfl | hmem
    · rw [h.2.load] at hload
      cases hload
    · exact h.1 hmem

theorem persist_garde {ref : Nat} (h : s.Vivante ref) : Garde s (s.persist m ref) := by
  unfold Etat.persist
  split
  · exact .refl s
  · next session hsession =>
      refine ⟨rfl, Nat.le_refl _, fun _ _ h => h, ?_⟩
      intro id hid _ houblie
      refine ⟨houblie.1, houblie.2.sync ?_⟩
      intro heq
      exact h session hsession (heq ▸ hid)

theorem cleanup_sublist : ∀ id, id ∈ s.cleanupOldSessions.sessions.keys → id ∈ s.sessions.keys := by
  have hfold : ∀ (oldest : List (ConversationSession α)) (sessions : Dict SessionId Nat) id,
      id ∈ Dict.keys (oldest.foldl
        (fun sessions session => sessions.erase session.sessionId) sessions) →
      id ∈ sessions.keys := by
    intro oldest
    induction oldest with
    | nil => exact fun _ _ h => h
    | cons session oldest ih =>
        intro sessions id h
        obtain ⟨item, hitem, heq⟩ := List.mem_map.mp (ih _ id h)
        exact List.mem_map.mpr ⟨item, (Dict.mem_erase.mp hitem).1, heq⟩
  intro id h
  unfold Etat.cleanupOldSessions at h
  split at h
  · exact h
  · exact hfold _ _ id h

theorem cleanup_garde : Garde s s.cleanupOldSessions := by
  have hsessions := cleanup_sublist (s := s)
  have hreste : s.cleanupOldSessions.effacees = s.effacees ∧
      s.cleanupOldSessions.prochain = s.prochain ∧ s.cleanupOldSessions.enVol = s.enVol ∧
      s.cleanupOldSessions.store = s.store := by
    unfold Etat.cleanupOldSessions
    split <;> exact ⟨rfl, rfl, rfl, rfl⟩
  refine ⟨hreste.1, Nat.le_of_eq hreste.2.1.symm, ?_, ?_⟩
  · rw [hreste.2.2.1]
    exact fun _ _ h => h
  · intro id _ _ h
    exact ⟨fun hmem => h.1 (hsessions id hmem), hreste.2.2.2 ▸ h.2⟩

theorem ouverture_garde (userId : String) :
    Garde s { s with
      objets := s.objets ++ [nouvelleSession m s userId]
      sessions := s.sessions.set (.uuid s.prochain) s.objets.length
      prochain := s.prochain + 1 } := by
  refine ⟨rfl, Nat.le_succ _, fun _ _ h => h, ?_⟩
  intro id _ hconnu h
  refine ⟨?_, h.2⟩
  intro hmem
  rcases (Dict.keys_set _ _ _ _).mp hmem with rfl | hmem
  · simp [Etat.connu] at hconnu
  · exact h.1 hmem

theorem ouverture_vivante (hconnus : Connus s) (userId : String) :
    Etat.Vivante { s with
      objets := s.objets ++ [nouvelleSession m s userId]
      sessions := s.sessions.set (.uuid s.prochain) s.objets.length
      prochain := s.prochain + 1 } s.objets.length := by
  intro session hsession hid
  have heq : nouvelleSession m s userId = session := by simpa using hsession
  subst heq
  have hconnu := hconnus.effacees _ hid
  simp [Etat.connu, nouvelleSession] at hconnu

theorem Garde.connus (h : Garde s s') (hconnus : Connus s) : Connus s' := by
  constructor
  · intro id hid
    exact connu_mono h.prochain (hconnus.effacees id (h.effacees ▸ hid))
  · intro i id hid
    exact connu_mono h.prochain (hconnus.suppressions i id (h.suppressions i id hid))

theorem Garde.oubliees (h : Garde s s') (hconnus : Connus s) (hs : Oubliees s) :
    Oubliees s' := by
  intro id hid
  rw [h.effacees] at hid
  exact h.oublie id hid (hconnus.effacees id hid) (hs id hid)

theorem createSession_garde (hconnus : Connus s) (userId : String) :
    Garde s (s.createSession m userId).2 := by
  have hcleanup := cleanup_garde (s := s)
  exact (hcleanup.trans (ouverture_garde userId)).trans
    (persist_garde (ouverture_vivante (hcleanup.connus hconnus) userId))

theorem modifier_garde (ref : Nat) (f : ConversationSession α → ConversationSession α) :
    Garde s (s.modifier ref f) :=
  garde_de rfl rfl rfl rfl fun _ _ h => h

theorem engager_garde (op : Operation α) (ref : Nat) : Garde s (s.engager m op ref) :=
  garde_de rfl rfl rfl rfl fun _ _ h =>
    suppression_of_append (e := .verrouille op ref) nofun h

theorem debut_garde (hconnus : Connus s) (op : Operation α) (id : SessionId) :
    Garde s (s.debut m op id) := by
  have hlookup := cachedOrLoaded_garde (m := m) (s := s) id
  unfold Etat.debut
  split
  · next ref s₁ heq =>
      rw [heq] at hlookup
      exact hlookup.trans (engager_garde op ref)
  · next s₁ heq =>
      rw [heq] at hlookup
      split
      · exact (hlookup.trans (createSession_garde (hlookup.connus hconnus) "anonymous")).trans
          (engager_garde op _)
      · exact hlookup

theorem resumeDebut_garde (id : SessionId) : Garde s (s.resumeDebut m id) := by
  have hlookup := cachedOrLoaded_garde (m := m) (s := s) id
  unfold Etat.resumeDebut
  split
  · next s₁ heq =>
      rw [heq] at hlookup
      exact hlookup
  · next ref s₁ heq =>
      rw [heq] at hlookup
      split
      · exact hlookup
      · next session hsession =>
          dsimp only
          split
          · exact hlookup
          · exact hlookup.trans (garde_de rfl rfl rfl rfl fun _ _ h =>
              suppression_of_append (e := .resume ref (decouper session.messages)) nofun h)

theorem apres_sessionId (op : Operation α) (maintenant : Int)
    (session : ConversationSession α) :
    (op.apres m maintenant session).sessionId = session.sessionId := by
  cases op <;> rfl

theorem vivante_modifier {ref : Nat} {f : ConversationSession α → ConversationSession α}
    (hf : ∀ session, (f session).sessionId = session.sessionId) :
    (s.modifier ref f).Vivante ref ↔ s.Vivante ref := by
  unfold Etat.Vivante Etat.modifier
  simp only [List.getElem?_modify_eq]
  constructor
  · intro h session hsession
    have hmodified := h (f session) (by simp [hsession])
    rwa [hf] at hmodified
  · intro h session hsession
    cases hold : s.objets[ref]? with
    | none => simp [hold] at hsession
    | some ancienne =>
        have heq : f ancienne = session := by simpa [hold] using hsession
        rw [← heq, hf]
        exact h ancienne hold

theorem vivante_of_persist {ref : Nat} (h : Oubliees (s.persist m ref)) : s.Vivante ref := by
  intro session hsession hid
  have heq : s.persist m ref = { s with store := s.store.sync m.codec session } := by
    simp [Etat.persist, hsession]
  rw [heq] at h
  exact sync_not_absente s.store session (h session.sessionId hid).2

theorem ecrire_etat (i : Nat) (op : Operation α) (ref : Nat) :
    ∃ e pile, (∀ id, e ≠ .suppression id) ∧ s.ecrire m i op ref =
      { (s.modifier ref (op.apres m s.maintenant)).persist m ref with
        enVol := ((s.modifier ref (op.apres m s.maintenant)).persist m ref).enVol.set i e
        pile := pile } := by
  cases op with
  | handleMessage content => exact ⟨.rappels, _, nofun, rfl⟩
  | beginStream content => exact ⟨.finie, _, nofun, rfl⟩
  | finishStream content metadata => exact ⟨.finie, _, nofun, rfl⟩
  | setProject projectId => exact ⟨.finie, _, nofun, rfl⟩
  | approveAction => exact ⟨.finie, _, nofun, rfl⟩
  | cancelAction => exact ⟨.finie, _, nofun, rfl⟩

theorem ecrire_garde (i : Nat) (op : Operation α) {ref : Nat} (h : s.Vivante ref) :
    Garde s (s.ecrire m i op ref) := by
  have hvivante := (vivante_modifier (apres_sessionId (m := m) op s.maintenant)).mpr h
  obtain ⟨e, pile, he, heq⟩ := ecrire_etat (m := m) (s := s) i op ref
  rw [heq]
  exact ((modifier_garde ref _).trans (persist_garde hvivante)).trans
    (garde_de rfl rfl rfl rfl fun _ id hid => suppression_of_set (he id) hid)

theorem vivante_of_ecrire {i : Nat} {op : Operation α} {ref : Nat}
    (h : Oubliees (s.ecrire m i op ref)) : s.Vivante ref := by
  obtain ⟨e, pile, _, heq⟩ := ecrire_etat (m := m) (s := s) i op ref
  rw [heq] at h
  exact (vivante_modifier (apres_sessionId (m := m) op s.maintenant)).mp (vivante_of_persist h)

theorem resumeFin_garde {i ref anciens : Nat} {resume : String}
    (h : resume ≠ "" → s.Vivante ref) : Garde s (s.resumeFin m i ref anciens resume) := by
  have hfinie : Garde s { s with enVol := s.enVol.set i .finie } :=
    garde_de rfl rfl rfl rfl fun _ _ hid => suppression_of_set (e := .finie) nofun hid
  unfold Etat.resumeFin
  dsimp only
  split
  · exact hfinie
  · next hresume =>
      have hvivante : Etat.Vivante { s with enVol := s.enVol.set i .finie } ref := h hresume
      exact (hfinie.trans (modifier_garde ref _)).trans
        (persist_garde ((vivante_modifier (f := fun session => session.resumee resume anciens)
          fun _ => rfl).mpr hvivante))

theorem vivante_of_resumeFin {i ref anciens : Nat} {resume : String} (hresume : resume ≠ "")
    (h : Oubliees (s.resumeFin m i ref anciens resume)) : s.Vivante ref := by
  simp only [Etat.resumeFin, hresume, if_false] at h
  exact (vivante_modifier (s := { s with enVol := s.enVol.set i .finie })
    (f := fun session => session.resumee resume anciens) fun _ => rfl).mp (vivante_of_persist h)

def Evenement.suppression : Evenement α → Bool
  | .deletePop _ => true
  | .deleteStore _ => true
  | _ => false

theorem pas_garde (hconnus : Connus s) {ev : Evenement α} (hev : ev.suppression = false)
    (hpermis : Permis s ev) (h : pas m s ev = some s') : Garde s s' := by
  cases ev with
  | tic maintenant =>
      cases h
      exact garde_de rfl rfl rfl rfl fun _ _ h => h
  | createSession userId =>
      simp only [pas] at h
      split at h
      · cases h
        exact createSession_garde hconnus userId
      · cases h
  | getSession id =>
      simp only [pas] at h
      split at h
      · cases h
        exact cachedOrLoaded_garde id
      · cases h
  | debut op id =>
      simp only [pas] at h
      split at h
      · cases h
        exact debut_garde hconnus op id
      · cases h
  | ecrire i =>
      simp only [pas] at h
      split at h
      · split at h
        · next op ref hvol =>
            cases h
            exact ecrire_garde i op (hpermis op ref hvol)
        · cases h
      · cases h
  | relacher i =>
      simp only [pas] at h
      split at h
      · split at h
        · cases h
          exact garde_de rfl rfl rfl rfl fun _ _ h => suppression_of_set (e := .finie) nofun h
        · cases h
      · cases h
  | resumeDebut id =>
      simp only [pas] at h
      split at h
      · cases h
        exact resumeDebut_garde id
      · cases h
  | resumeFin i resume =>
      simp only [pas] at h
      split at h
      · split at h
        · next ref anciens hvol =>
            cases h
            exact resumeFin_garde fun hresume => hpermis hresume ref anciens hvol
        · cases h
      · cases h
  | deletePop id => cases hev
  | deleteStore i => cases hev

theorem pas_deletePop (s : Etat α) (id : SessionId) :
    pas m s (.deletePop id) =
      if s.libre ∧ s.connu id then
        some { s with
          sessions := s.sessions.erase id
          enVol := s.enVol ++ [.suppression id] }
      else none := rfl

theorem deletePop_pas {id : SessionId} (hconnus : Connus s) (hs : Oubliees s)
    (h : pas m s (.deletePop id) = some s') : Connus s' ∧ Oubliees s' := by
  rw [pas_deletePop] at h
  split at h
  · next hlibre =>
      cases h
      refine ⟨⟨hconnus.effacees, fun i id' hid' => ?_⟩, fun id' hid' => ?_⟩
      · by_cases heq : id = id'
        · subst heq
          exact hlibre.2
        · have hne : EnVol.suppression id ≠ EnVol.suppression (α := α) id' := by
            intro h
            exact heq (EnVol.suppression.inj h)
          exact hconnus.suppressions i id' (suppression_of_append hne hid')
      · have holdies := hs id' hid'
        refine ⟨fun hmem => ?_, holdies.2⟩
        obtain ⟨item, hitem, heq⟩ := List.mem_map.mp hmem
        exact holdies.1 (List.mem_map.mpr ⟨item, (Dict.mem_erase.mp hitem).1, heq⟩)
  · cases h

theorem deleteStore_pas {i : Nat} (hconnus : Connus s) (hs : Oubliees s)
    (hpermis : Permis s (.deleteStore i)) (h : pas m s (.deleteStore i) = some s') :
    Connus s' ∧ Oubliees s' := by
  simp only [pas] at h
  split at h
  · next id hvol =>
      cases h
      refine ⟨⟨fun id' hid' => ?_, fun j id' hid' => ?_⟩, fun id' hid' => ?_⟩
      · rcases List.mem_append.mp hid' with hmem | hmem
        · exact hconnus.effacees id' hmem
        · rw [List.mem_singleton.mp hmem]
          exact hconnus.suppressions i id hvol
      · exact hconnus.suppressions j id' (suppression_of_set (e := .finie) nofun hid')
      · rcases List.mem_append.mp hid' with hmem | hmem
        · exact ⟨(hs id' hmem).1, (hs id' hmem).2.delete id⟩
        · rw [List.mem_singleton.mp hmem]
          exact ⟨hpermis id hvol, absente_delete s.store id⟩
  · cases h

theorem pas_oubliees (ev : Evenement α) (h : Connus s ∧ Oubliees s) (hpermis : Permis s ev)
    (hpas : pas m s ev = some s') : Connus s' ∧ Oubliees s' := by
  cases hev : ev.suppression with
  | false =>
      have hgarde := pas_garde h.1 hev hpermis hpas
      exact ⟨hgarde.connus h.1, hgarde.oubliees h.1 h.2⟩
  | true =>
      cases ev with
      | deletePop id => exact deletePop_pas h.1 h.2 hpas
      | deleteStore i => exact deleteStore_pas h.1 h.2 hpermis hpas
      | _ => cases hev

theorem permis_of_oubliees (ev : Evenement α) (hpas : pas m s ev = some s')
    (h : Oubliees s') : Permis s ev := by
  cases ev with
  | ecrire i =>
      intro op ref hvol
      simp only [pas, hvol] at hpas
      split at hpas
      · cases hpas
        exact vivante_of_ecrire h
      · cases hpas
  | resumeFin i resume =>
      intro hresume ref anciens hvol
      simp only [pas, hvol] at hpas
      split at hpas
      · cases hpas
        exact vivante_of_resumeFin hresume h
      · cases hpas
  | deleteStore i =>
      intro id hvol
      simp only [pas, hvol] at hpas
      cases hpas
      exact (h id (List.mem_append_right _ (List.mem_singleton.mpr rfl))).1
  | _ => trivial

end Etapes

def demarrage (store : Store) (prochain : Nat) : Etat α where
  store := store
  prochain := prochain

/-- Over every run, the deletions hold exactly when every step of the run is permitted. -/
theorem oubliees_ssi_permis (m : Moteur α) (store : Store) (prochain : Nat)
    (evs : List (Evenement α)) :
    Always (pas m) Oubliees (demarrage store prochain) evs ↔
      Along (pas m) Permis (demarrage store prochain) evs := by
  have hconnus : Connus (demarrage (α := α) store prochain) := by
    constructor
    · intro id hid
      cases hid
    · intro i id hid
      cases hid
  have houbliees : Oubliees (demarrage (α := α) store prochain) := by
    intro id hid
    cases hid
  constructor
  · exact along_of_always fun s ev s' _ hpas h => permis_of_oubliees ev hpas h
  · intro h
    have hboth : Always (pas m) (fun s => Connus s ∧ Oubliees s) (demarrage store prochain) evs :=
      always_of_along (fun s ev s' hs hpermis hpas => pas_oubliees ev hs hpermis hpas)
        ⟨hconnus, houbliees⟩ h
    exact hboth.mono fun _ hs => hs.2

def moteurTemoin : Moteur Unit where
  codec :=
    { dumps := fun _ => "\x7b\x7d"
      loads := fun _ => ()
      dumpsContext := fun _ => "\x7b\x7d"
      loadsContext := fun _ => { reste := () } }
  vide := ()
  buildInitialContext := fun _ => { reste := () }
  buildContext := fun _ context => context
  generate := fun _ _ => ({ role := .hermes, content := "oui", timestamp := 0, metadata := () }, false)
  approuver := fun _ => { role := .hermes, content := "fait", timestamp := 0, metadata := () }
  annuler := fun _ => { role := .hermes, content := "non", timestamp := 0, metadata := () }

/-- A stored conversation of twenty-five messages. -/
def storeTemoin : Store :=
  let session : ConversationSession Unit :=
    { sessionId := .uuid 0
      userId := "anonymous"
      messages := List.replicate 25 (messageUser moteurTemoin "bonjour" 0)
      context := { reste := () }
      createdAt := 0
      updatedAt := 0
      metadata := () }
  Store.sync moteurTemoin.codec {} session

/-- Deleted while its summary was being produced, the conversation is written again. -/
theorem resume_ressuscite :
    ∃ (m : Moteur Unit) (store : Store) (evs : List (Evenement Unit)) (s : Etat Unit),
      run (pas m) (demarrage store 1) evs = some s ∧ .uuid 0 ∈ s.effacees ∧
        .uuid 0 ∈ s.store.rows.keys ∧ s.store.compte (.uuid 0) = 25 ∧
          ¬Always (pas m) Oubliees (demarrage store 1) evs := by
  let evs : List (Evenement Unit) :=
    [.resumeDebut (.uuid 0), .deletePop (.uuid 0), .deleteStore 1, .resumeFin 0 "des bonjours"]
  have hfin : (run (pas moteurTemoin) (demarrage storeTemoin 1) evs).map (fun s =>
      decide (.uuid 0 ∈ s.effacees ∧ .uuid 0 ∈ s.store.rows.keys ∧
        s.store.compte (.uuid 0) = 25)) = some true := by decide +kernel
  obtain ⟨s, hrun, hs⟩ := Option.map_eq_some_iff.mp hfin
  obtain ⟨heffacees, hrow, hcompte⟩ := of_decide_eq_true hs
  refine ⟨moteurTemoin, storeTemoin, evs, s, hrun, heffacees, hrow, hcompte, ?_⟩
  intro halways
  exact (halways.run hrun _ heffacees).2.row hrow

end Hermes.Conversation
