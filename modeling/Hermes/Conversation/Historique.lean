import Hermes.Conversation.Contexte
import Hermes.Conversation.Manager
import Hermes.Lib.Page

/-! # The messages of a conversation, whatever is in memory

The calls come one after the other; between two of them, sessions leave the memory and the process
starts again over its store.
-/

namespace Hermes.Conversation

open Lib

variable {α : Type*}

section Appels

variable (m : Moteur α)

/-- The session that a call works on: the one it names, or the one it opens. -/
def Etat.enMain (s : Etat α) (op : Operation α) (id : SessionId) : Option Nat × Etat α :=
  match s.cachedOrLoaded m id with
  | (some ref, s') => (some ref, s')
  | (none, s') =>
      if op.ouvre then
        let (ref, s'') := s'.createSession m "anonymous"
        (some ref, s'')
      else (none, s')

def Operation.applique (op : Operation α) (maintenant : Int) (session : ConversationSession α) :
    ConversationSession α :=
  op.apres m maintenant (op.avant m maintenant session)

def Etat.traiter (s : Etat α) (op : Operation α) (ref : Nat) : Etat α :=
  (s.modifier ref (op.applique m s.maintenant)).persist m ref

/-- What `get_history` says of a message. -/
structure LigneHistorique where
  role : MessageRole
  content : String
  timestamp : Int
  agentId : String
  missionId : String
  deriving DecidableEq

def ligneDe (message : Message α) : LigneHistorique where
  role := message.role
  content := message.content
  timestamp := message.timestamp
  agentId := message.agentId
  missionId := message.missionId

def Etat.getHistory (s : Etat α) (id : SessionId) (limit : Int) : List LigneHistorique × Etat α :=
  match s.cachedOrLoaded m id with
  | (none, s') => ([], s')
  | (some ref, s') =>
      match s'.objets[ref]? with
      | none => ([], s')
      | some session => ((Page.slice session.messages (-limit) none).map ligneDe, s')

/-- The messages that a call records in a conversation of this context. -/
def Operation.enregistre (op : Operation α) (maintenant : Int)
    (context : ConversationContext α) : List (Message α) :=
  match op with
  | .beginStream content => [messageUser m content maintenant]
  | .finishStream content metadata =>
      if Texte.strip content = "" then []
      else
        [{ role := .hermes
           content := content
           timestamp := maintenant
           metadata := metadata }]
  | .handleMessage content =>
      [messageUser m content maintenant,
        (m.generate (m.buildContext content context) content).1]
  | .setProject _ => []
  | .approveAction => [m.approuver context]
  | .cancelAction => [m.annuler context]

def Operation.contexte (op : Operation α) (context : ConversationContext α) :
    ConversationContext α :=
  match op with
  | .beginStream content => m.buildContext content context
  | .handleMessage content => m.buildContext content context
  | .setProject projectId => { context with activeProjectId := projectId.getD "" }
  | _ => context

/-- A manager, and what has been recorded of its conversations. -/
structure Suivi (α : Type*) where
  etat : Etat α
  recus : List (SessionId × Message α) := []
  ecrits : Dict SessionId (ConversationContext α) := []

def Suivi.recusDe (t : Suivi α) (id : SessionId) : List (Message α) :=
  (t.recus.filter fun item => item.1 = id).map Prod.snd

inductive Action (α : Type*) where
  | tic (maintenant : Int)
  | createSession (userId : String)
  | appel (op : Operation α) (id : SessionId)
  | getHistory (id : SessionId) (limit : Int)
  | evincer (id : SessionId)
  | redemarrer
  deriving DecidableEq

def Suivi.agir (t : Suivi α) : Action α → Suivi α
  | .tic maintenant => { t with etat := { t.etat with maintenant := maintenant } }
  | .createSession userId =>
      { t with
        etat := (t.etat.createSession m userId).2
        ecrits := t.ecrits.set (.uuid t.etat.prochain) (m.buildInitialContext userId) }
  | .appel op id =>
      match t.etat.enMain m op id with
      | (none, s) => { t with etat := s }
      | (some ref, s) =>
          match s.objets[ref]? with
          | none => { t with etat := s.traiter m op ref }
          | some session =>
              { etat := s.traiter m op ref
                recus := t.recus ++
                  (op.enregistre m s.maintenant session.context).map
                    fun message => (session.sessionId, message)
                ecrits := t.ecrits.set session.sessionId (op.contexte m session.context) }
  | .getHistory id limit => { t with etat := (t.etat.getHistory m id limit).2 }
  | .evincer id => { t with etat := { t.etat with sessions := t.etat.sessions.erase id } }
  | .redemarrer =>
      { t with
        etat := { demarrage t.etat.store t.etat.prochain with maintenant := t.etat.maintenant } }

end Appels

/-- The conversations of an empty store; each action meets the collaborators of its moment. -/
def jouer (c : Codec α) (actions : List (Moteur α × Action α)) : Suivi α :=
  actions.foldl (fun t (m, action) => t.agir { m with codec := c } action)
    { etat := demarrage {} 0 }

section Lignes

variable {c : Codec α} {id : SessionId}

def texteDe (message : Message α) : MessageRole × String := (message.role, message.content)

theorem messageRows_append (seq : Nat) (messages messages' : List (Message α)) :
    messageRows c id seq (messages ++ messages') =
      messageRows c id seq messages ++ messageRows c id (seq + messages.length) messages' := by
  induction messages generalizing seq with
  | nil => simp [messageRows]
  | cons message messages ih =>
      have hseq : seq + (message :: messages).length = seq + 1 + messages.length := by
        rw [List.length_cons]
        omega
      rw [hseq, List.cons_append, messageRows, ih, messageRows, List.cons_append]

theorem length_messageRows (seq : Nat) (messages : List (Message α)) :
    (messageRows c id seq messages).length = messages.length := by
  induction messages generalizing seq with
  | nil => rfl
  | cons message messages ih => simp [messageRows, ih]

theorem messageRows_seq {seq : Nat} {messages : List (Message α)} :
    ∀ row ∈ messageRows c id seq messages, seq ≤ row.seq := by
  induction messages generalizing seq with
  | nil => simp [messageRows]
  | cons message messages ih =>
      intro row hrow
      rcases List.mem_cons.mp hrow with rfl | hmem
      · exact Nat.le_refl _
      · have hseq := ih row hmem
        omega

theorem insertionSort_messageRows (seq : Nat) (messages : List (Message α)) :
    (messageRows c id seq messages).insertionSort (fun a b => a.seq ≤ b.seq) =
      messageRows c id seq messages := by
  apply List.Pairwise.insertionSort_eq
  induction messages generalizing seq with
  | nil => exact .nil
  | cons message messages ih =>
      refine .cons ?_ (ih (seq + 1))
      intro row hrow
      have hseq := messageRows_seq row hrow
      show seq ≤ row.seq
      omega

theorem textes_messageRows (seq : Nat) (messages : List (Message α)) :
    ((messageRows c id seq messages).map (messageDe c)).map texteDe = messages.map texteDe := by
  induction messages generalizing seq with
  | nil => rfl
  | cons message messages ih =>
      simp only [messageRows, List.map_cons, ih]
      rfl

/-- The rows of the conversation hold these messages, numbered from zero. -/
def Store.Tient (c : Codec α) (s : Store) (id : SessionId) (messages : List (Message α)) : Prop :=
  s.messages.filter (fun row => row.sessionId = id) = messageRows c id 0 messages

theorem Store.Tient.compte {s : Store} {messages : List (Message α)} (h : s.Tient c id messages) :
    s.compte id = messages.length := by
  have hlength := congrArg List.length h
  rw [length_messageRows] at hlength
  rw [Store.compte, List.countP_eq_length_filter, hlength]

theorem Store.Tient.load {s : Store} {messages : List (Message α)} (h : s.Tient c id messages)
    {row : ConversationRow} (hrow : s.rows.get? id = some row) :
    ∃ session, s.load c id = some session ∧ session.sessionId = row.sessionId ∧
      session.messages.map texteDe = messages.map texteDe ∧
      session.context = c.loadsContext row.contextJson := by
  refine ⟨_, by simp only [Store.load, hrow]; rfl, rfl, ?_, rfl⟩
  dsimp only
  rw [h, insertionSort_messageRows, textes_messageRows]

theorem Store.Tient.sync {s : Store} {messages : List (Message α)}
    {session : ConversationSession α} {suite : List (Message α)}
    (h : s.Tient c session.sessionId messages)
    (hsuite : session.messages.drop messages.length = suite) :
    (s.sync c session).Tient c session.sessionId (messages ++ suite) := by
  have hnouvelles : ∀ seq, (messageRows c session.sessionId seq suite).filter
      (fun row => row.sessionId = session.sessionId) =
        messageRows c session.sessionId seq suite := by
    intro seq
    rw [List.filter_eq_self]
    intro row hrow
    simpa using messageRows_sessionId row hrow
  unfold Store.Tient Store.sync
  dsimp only
  rw [h.compte, hsuite, List.filter_append, h, hnouvelles, messageRows_append, Nat.zero_add]

theorem Store.Tient.sync_autre {s : Store} {messages : List (Message α)}
    (h : s.Tient c id messages) {session : ConversationSession α} (hne : session.sessionId ≠ id) :
    (s.sync c session).Tient c id messages := by
  have hautres : ∀ seq suite, (messageRows c session.sessionId seq suite).filter
      (fun row => row.sessionId = id) = [] := by
    intro seq suite
    rw [List.filter_eq_nil_iff]
    intro row hrow
    rw [messageRows_sessionId row hrow]
    simpa using hne
  unfold Store.Tient Store.sync
  dsimp only
  rw [List.filter_append, h, hautres, List.append_nil]

end Lignes

/-- The store holds what was recorded of every conversation, and so does the memory for those
that it has. -/
structure Fidele (c : Codec α) (t : Suivi α) : Prop where
  lignes : ∀ id, t.etat.store.Tient c id (t.recusDe id)
  contextes : ∀ id, (t.etat.store.rows.get? id).map (·.contextJson) =
    (t.ecrits.get? id).map c.dumpsContext
  rangees : ∀ id row, t.etat.store.rows.get? id = some row → row.sessionId = id
  memoire : ∀ id ref, t.etat.sessions.get? id = some ref →
    (t.ecrits.get? id).isSome ∧ ∃ session, t.etat.objets[ref]? = some session ∧
      session.sessionId = id ∧ session.messages.map texteDe = (t.recusDe id).map texteDe
  tirees : ∀ id, (t.ecrits.get? id).isSome → ∃ n < t.etat.prochain, id = .uuid n
  recus : ∀ id, t.ecrits.get? id = none → t.recusDe id = []

section Etapes

variable {c : Codec α} {m : Moteur α} {t : Suivi α}

theorem Fidele.oubli (h : Fidele c t) {s : Etat α} (hstore : s.store = t.etat.store)
    (hprochain : s.prochain = t.etat.prochain)
    (hmemoire : ∀ id ref, s.sessions.get? id = some ref →
      t.etat.sessions.get? id = some ref ∧ s.objets[ref]? = t.etat.objets[ref]?) :
    Fidele c { t with etat := s } := by
  constructor
  · exact fun id => hstore ▸ h.lignes id
  · exact fun id => hstore ▸ h.contextes id
  · exact fun id row => hstore ▸ h.rangees id row
  · intro id ref hget
    have hold := hmemoire id ref hget
    have hsession := h.memoire id ref hold.1
    rw [← hold.2] at hsession
    exact hsession
  · exact fun id hid => hprochain ▸ h.tirees id hid
  · exact h.recus

theorem Fidele.entree (h : Fidele c t) {id : SessionId} {session : ConversationSession α}
    (hid : (t.ecrits.get? id).isSome) (hsession : session.sessionId = id)
    (htextes : session.messages.map texteDe = (t.recusDe id).map texteDe) :
    Fidele c { t with
      etat := { t.etat with
        objets := t.etat.objets ++ [session]
        sessions := t.etat.sessions.set id t.etat.objets.length } } := by
  refine ⟨h.lignes, h.contextes, h.rangees, ?_, h.tirees, h.recus⟩
  intro id' ref hget
  dsimp only at hget ⊢
  rw [Dict.get?_set] at hget
  split at hget
  · next heq =>
      cases hget
      subst heq
      exact ⟨hid, session, by simp, hsession, htextes⟩
  · obtain ⟨hecrit, session', hobjet, hreste⟩ := h.memoire id' ref hget
    refine ⟨hecrit, session', ?_, hreste⟩
    rw [List.getElem?_append_left (List.getElem?_eq_some_iff.mp hobjet).1]
    exact hobjet

theorem Fidele.cachedOrLoaded (h : Fidele c t) (hm : m.codec = c) (id : SessionId) :
    Fidele c { t with etat := (t.etat.cachedOrLoaded m id).2 } ∧
      (∀ ref, (t.etat.cachedOrLoaded m id).1 = some ref →
        (t.etat.cachedOrLoaded m id).2.sessions.get? id = some ref) ∧
      ((t.etat.cachedOrLoaded m id).1 = none → t.ecrits.get? id = none) := by
  have hecrit (hload : t.etat.store.load c id = none) : t.ecrits.get? id = none := by
    have hcontexte := h.contextes id
    cases hrow : t.etat.store.rows.get? id with
    | none =>
        rw [hrow] at hcontexte
        exact Option.map_eq_none_iff.mp hcontexte.symm
    | some row =>
        obtain ⟨session, hsession, _⟩ := (h.lignes id).load hrow
        rw [hload] at hsession
        cases hsession
  unfold Etat.cachedOrLoaded
  split
  · next ref hget =>
      refine ⟨h, fun ref' href => ?_, fun hnone => by cases hnone⟩
      cases href
      exact hget
  · split
    · next heq =>
        refine ⟨h, (fun _ href => by cases href), fun _ => ?_⟩
        cases hget : t.ecrits.get? id with
        | none => rfl
        | some context =>
            obtain ⟨n, _, hid⟩ := h.tirees id (by rw [hget]; rfl)
            rw [heq] at hid
            cases hid
    · subst hm
      split
      · next hload => exact ⟨h, (fun _ href => by cases href), fun _ => hecrit hload⟩
      · next restored hload =>
          cases hrow : t.etat.store.rows.get? id with
          | none => simp [Store.load, hrow] at hload
          | some row =>
              obtain ⟨session, hsession, hid, htextes, _⟩ := (h.lignes id).load hrow
              rw [hload] at hsession
              cases hsession
              have hcontexte := h.contextes id
              rw [hrow, Option.map_some] at hcontexte
              have hsome : (t.ecrits.get? id).isSome := by
                cases hget : t.ecrits.get? id with
                | none => simp [hget] at hcontexte
                | some context => rfl
              refine ⟨h.entree hsome (hid.trans (h.rangees id row hrow)) htextes, ?_, fun hnone => by cases hnone⟩
              intro ref href
              cases href
              simp

theorem cleanup_get? {s : Etat α} {id : SessionId} {ref : Nat}
    (h : s.cleanupOldSessions.sessions.get? id = some ref) : s.sessions.get? id = some ref := by
  have hfold : ∀ (oldest : List (ConversationSession α)) (sessions : Dict SessionId Nat),
      Dict.get? (oldest.foldl
        (fun sessions session => sessions.erase session.sessionId) sessions) id = some ref →
      sessions.get? id = some ref := by
    intro oldest
    induction oldest with
    | nil => exact fun _ h => h
    | cons session oldest ih =>
        intro sessions h
        have hget := ih _ h
        rw [Dict.get?_erase] at hget
        split at hget
        · cases hget
        · exact hget
  unfold Etat.cleanupOldSessions at h
  split at h
  · exact h
  · exact hfold _ _ h

theorem Fidele.cleanup (h : Fidele c t) : Fidele c { t with etat := t.etat.cleanupOldSessions } := by
  have hreste : t.etat.cleanupOldSessions.store = t.etat.store ∧
      t.etat.cleanupOldSessions.prochain = t.etat.prochain ∧
      t.etat.cleanupOldSessions.objets = t.etat.objets := by
    unfold Etat.cleanupOldSessions
    split <;> exact ⟨rfl, rfl, rfl⟩
  refine h.oubli hreste.1 hreste.2.1 fun id ref hget => ?_
  rw [hreste.2.2]
  exact ⟨cleanup_get? hget, rfl⟩

theorem recusDe_ajout (t : Suivi α) (id id' : SessionId) (suite : List (Message α))
    {etat : Etat α} {ecrits : Dict SessionId (ConversationContext α)} :
    Suivi.recusDe
      { etat := etat
        recus := t.recus ++ suite.map fun message => (id, message)
        ecrits := ecrits } id' = t.recusDe id' ++ if id = id' then suite else [] := by
  by_cases h : id = id' <;> simp [Suivi.recusDe, List.filter_map, Function.comp_def, h]

theorem Fidele.ecrite (h : Fidele c t) {s : Etat α} {session : ConversationSession α}
    {suite : List (Message α)} {ecrits : Dict SessionId (ConversationContext α)}
    (hstore : s.store = t.etat.store.sync c session)
    (hsuite : session.messages.drop (t.recusDe session.sessionId).length = suite)
    (htextes : session.messages.map texteDe =
      (t.recusDe session.sessionId ++ suite).map texteDe)
    (hecrit : ecrits.get? session.sessionId = some session.context)
    (hecrits : ∀ id, id ≠ session.sessionId → ecrits.get? id = t.ecrits.get? id)
    (hmemoire : ∀ ref, s.sessions.get? session.sessionId = some ref →
      s.objets[ref]? = some session)
    (hautres : ∀ id ref, id ≠ session.sessionId → s.sessions.get? id = some ref →
      t.etat.sessions.get? id = some ref ∧ s.objets[ref]? = t.etat.objets[ref]?)
    (htiree : ∃ n < s.prochain, session.sessionId = .uuid n)
    (hprochain : t.etat.prochain ≤ s.prochain) :
    Fidele c
      { etat := s
        recus := t.recus ++ suite.map fun message => (session.sessionId, message)
        ecrits := ecrits } := by
  constructor
  · intro id
    show s.store.Tient c id _
    rw [hstore]
    by_cases hne : id = session.sessionId
    · subst hne
      rw [recusDe_ajout, if_pos rfl]
      exact (h.lignes session.sessionId).sync hsuite
    · rw [recusDe_ajout, if_neg (Ne.symm hne), List.append_nil]
      exact (h.lignes id).sync_autre fun heq => hne heq.symm
  · intro id
    show (s.store.rows.get? id).map _ = _
    rw [hstore, Store.sync, Dict.get?_set]
    split
    · next heq =>
        subst heq
        rw [hecrit]
        rfl
    · next hne =>
        rw [hecrits id hne]
        exact h.contextes id
  · intro id row hrow
    have hset : s.store.rows.get? id = some row := hrow
    rw [hstore, Store.sync, Dict.get?_set] at hset
    split at hset
    · next heq =>
        cases hset
        exact heq.symm
    · exact h.rangees id row hset
  · intro id ref hget
    by_cases hne : id = session.sessionId
    · subst hne
      refine ⟨by rw [hecrit]; rfl, session, hmemoire ref hget, rfl, ?_⟩
      rw [recusDe_ajout, if_pos rfl]
      exact htextes
    · have hold := hautres id ref hne hget
      have hmem := h.memoire id ref hold.1
      rw [← hold.2, ← hecrits id hne] at hmem
      rw [recusDe_ajout, if_neg (Ne.symm hne), List.append_nil]
      exact hmem
  · intro id hsome
    by_cases hne : id = session.sessionId
    · subst hne
      exact htiree
    · rw [hecrits id hne] at hsome
      obtain ⟨n, hn, hid⟩ := h.tirees id hsome
      exact ⟨n, Nat.lt_of_lt_of_le hn hprochain, hid⟩
  · intro id hnone
    have hne : id ≠ session.sessionId := by
      intro heq
      rw [heq, hecrit] at hnone
      cases hnone
    rw [hecrits id hne] at hnone
    rw [recusDe_ajout, if_neg (Ne.symm hne), List.append_nil]
    exact h.recus id hnone

theorem Fidele.ecriture (h : Fidele c t) (hm : m.codec = c) {ref : Nat}
    {session session' : ConversationSession α} (hobjet : t.etat.objets[ref]? = some session)
    (hget : t.etat.sessions.get? session.sessionId = some ref)
    {f : ConversationSession α → ConversationSession α} (hf : f session = session')
    (hid : session'.sessionId = session.sessionId) {suite : List (Message α)}
    (hmessages : session'.messages = session.messages ++ suite)
    {ecrits : Dict SessionId (ConversationContext α)}
    (hecrit : ecrits.get? session.sessionId = some session'.context)
    (hecrits : ∀ id, id ≠ session.sessionId → ecrits.get? id = t.ecrits.get? id) :
    Fidele c
      { etat := (t.etat.modifier ref f).persist m ref
        recus := t.recus ++ suite.map fun message => (session.sessionId, message)
        ecrits := ecrits } := by
  obtain ⟨hconnu, session₀, hobjet₀, _, htextes⟩ := h.memoire _ ref hget
  cases hobjet₀.symm.trans hobjet
  have hnouveau : (t.etat.objets.modify ref f)[ref]? = some session' := by
    simp [List.getElem?_modify_eq, hobjet, hf]
  have hpersist : (t.etat.modifier ref f).persist m ref =
      { t.etat with
        objets := t.etat.objets.modify ref f
        store := t.etat.store.sync c session' } := by
    simp [Etat.persist, Etat.modifier, hnouveau, hm]
  have hlongueur : (t.recusDe session.sessionId).length = session.messages.length := by
    have hlength := congrArg List.length htextes
    simp only [List.length_map] at hlength
    exact hlength.symm
  rw [hpersist, ← hid]
  rw [← hid] at hlongueur htextes hecrit hecrits hget hconnu
  apply h.ecrite
  · rfl
  · rw [hlongueur, hmessages, List.drop_left]
  · rw [hmessages, List.map_append, List.map_append, htextes]
  · exact hecrit
  · exact hecrits
  · intro ref' hget'
    cases hget'.symm.trans hget
    exact hnouveau
  · intro id ref' hne hget'
    refine ⟨hget', List.getElem?_modify_ne f _ ?_⟩
    -- another conversation has another object
    intro heq
    subst heq
    obtain ⟨_, autre, hautre, hidentite, _⟩ := h.memoire id ref hget'
    cases hautre.symm.trans hobjet
    exact hne (hidentite.symm.trans hid.symm)
  · exact h.tirees _ hconnu
  · exact Nat.le_refl _

theorem Fidele.createSession (h : Fidele c t) (hm : m.codec = c) (userId : String) :
    Fidele c { t with
      etat := (t.etat.createSession m userId).2
      ecrits := t.ecrits.set (.uuid t.etat.prochain) (m.buildInitialContext userId) } := by
  have hclean := h.cleanup
  have hprochain : t.etat.cleanupOldSessions.prochain = t.etat.prochain := by
    unfold Etat.cleanupOldSessions
    split <;> rfl
  have hneuf : t.ecrits.get? (.uuid t.etat.prochain) = none := by
    cases hget : t.ecrits.get? (.uuid t.etat.prochain) with
    | none => rfl
    | some context =>
        obtain ⟨n, hn, hid⟩ := h.tirees _ (by rw [hget]; rfl)
        cases hid
        omega
  have hrecus := h.recus _ hneuf
  let session := nouvelleSession m t.etat.cleanupOldSessions userId
  have hid : session.sessionId = .uuid t.etat.prochain := by
    show SessionId.uuid t.etat.cleanupOldSessions.prochain = _
    rw [hprochain]
  have hpersist : (t.etat.createSession m userId).2 =
      { t.etat.cleanupOldSessions with
        objets := t.etat.cleanupOldSessions.objets ++ [session]
        sessions := t.etat.cleanupOldSessions.sessions.set (.uuid t.etat.prochain)
          t.etat.cleanupOldSessions.objets.length
        prochain := t.etat.prochain + 1
        store := t.etat.cleanupOldSessions.store.sync c session } := by
    simp [Etat.createSession, Etat.persist, hm, hprochain, session]
  have hecrite := @Fidele.ecrite α c _ hclean (t.etat.createSession m userId).2 session []
    (t.ecrits.set (.uuid t.etat.prochain) (m.buildInitialContext userId))
  rw [hid, hpersist] at hecrite
  simp only [List.map_nil, List.append_nil] at hecrite
  rw [hpersist]
  apply hecrite
  · trivial
  · exact List.drop_nil
  · show [] = List.map texteDe (t.recusDe _)
    rw [hrecus]
    rfl
  · simp [session, nouvelleSession]
  · intro id hne
    rw [Dict.get?_set, if_neg hne]
  · intro ref hget
    simp only [Dict.get?_set, if_true, Option.some.injEq] at hget
    subst hget
    simp
  · intro id ref hne hget
    rw [Dict.get?_set, if_neg hne] at hget
    refine ⟨hget, List.getElem?_append_left ?_⟩
    obtain ⟨_, session', hobjet, _⟩ := hclean.memoire id ref hget
    exact (List.getElem?_eq_some_iff.mp hobjet).1
  · exact ⟨t.etat.prochain, Nat.lt_succ_self _, rfl⟩
  · show t.etat.cleanupOldSessions.prochain ≤ t.etat.prochain + 1
    omega

theorem createSession_get? (s : Etat α) (userId : String) :
    (s.createSession m userId).2.sessions.get? (.uuid s.prochain) =
        some (s.createSession m userId).1 ∧
      (s.createSession m userId).2.objets[(s.createSession m userId).1]? =
        some (nouvelleSession m s.cleanupOldSessions userId) := by
  have hprochain : s.cleanupOldSessions.prochain = s.prochain := by
    unfold Etat.cleanupOldSessions
    split <;> rfl
  simp [Etat.createSession, Etat.persist, hprochain]

theorem applique_session (op : Operation α) (maintenant : Int)
    (session : ConversationSession α) :
    (op.applique m maintenant session).sessionId = session.sessionId ∧
      (op.applique m maintenant session).messages =
        session.messages ++ op.enregistre m maintenant session.context ∧
      (op.applique m maintenant session).context = op.contexte m session.context := by
  cases op with
  | handleMessage content =>
      refine ⟨rfl, ?_, rfl⟩
      exact List.append_assoc _ _ _
  | beginStream content => exact ⟨rfl, rfl, rfl⟩
  | finishStream content metadata => exact ⟨rfl, rfl, rfl⟩
  | setProject projectId => exact ⟨rfl, (List.append_nil _).symm, rfl⟩
  | approveAction => exact ⟨rfl, rfl, rfl⟩
  | cancelAction => exact ⟨rfl, rfl, rfl⟩

theorem Fidele.enMain (h : Fidele c t) (hm : m.codec = c) (op : Operation α) (id : SessionId) :
    ((t.etat.enMain m op id).1 = none ∧
      Fidele c { t with etat := (t.etat.enMain m op id).2 }) ∨
    ∃ ref session ecrits, (t.etat.enMain m op id).1 = some ref ∧
      (t.etat.enMain m op id).2.objets[ref]? = some session ∧
      (t.etat.enMain m op id).2.sessions.get? session.sessionId = some ref ∧
      Fidele c { t with etat := (t.etat.enMain m op id).2, ecrits := ecrits } ∧
      ∀ id, id ≠ session.sessionId → ecrits.get? id = t.ecrits.get? id := by
  obtain ⟨hlookup, htrouvee, _⟩ := h.cachedOrLoaded hm id
  unfold Etat.enMain
  split
  · next ref s heq =>
      rw [heq] at hlookup htrouvee
      have hget := htrouvee ref rfl
      obtain ⟨_, session, hobjet, hid, _⟩ := hlookup.memoire id ref hget
      refine .inr ⟨ref, session, t.ecrits, rfl, hobjet, ?_, hlookup, fun _ _ => rfl⟩
      rw [hid]
      exact hget
  · next s heq =>
      rw [heq] at hlookup
      split
      · have hopen := hlookup.createSession hm "anonymous"
        have hget := createSession_get? (m := m) s "anonymous"
        have hid : (nouvelleSession m s.cleanupOldSessions "anonymous").sessionId =
            .uuid s.prochain := by
          obtain ⟨_, session, hobjet, hid, _⟩ := hopen.memoire _ _ hget.1
          cases hobjet.symm.trans hget.2
          exact hid
        refine .inr ⟨_, _, _, rfl, hget.2, ?_, hopen, ?_⟩
        · rw [hid]
          exact hget.1
        · intro id' hne
          rw [hid] at hne
          exact (Dict.get?_set _ _ _ _).trans (if_neg hne)
      · exact .inl ⟨rfl, hlookup⟩

theorem Fidele.appel (h : Fidele c t) (hm : m.codec = c) (op : Operation α) (id : SessionId) :
    Fidele c (t.agir m (.appel op id)) := by
  rcases h.enMain hm op id with ⟨hnone, hfidele⟩ |
    ⟨ref, session, ecrits, hsome, hobjet, hget, hfidele, hecrits⟩
  · have heq : t.etat.enMain m op id = (none, (t.etat.enMain m op id).2) := by
      rw [← hnone]
    rw [Suivi.agir, heq]
    exact hfidele
  · have heq : t.etat.enMain m op id = (some ref, (t.etat.enMain m op id).2) := by
      rw [← hsome]
    obtain ⟨hid, hmessages, hcontexte⟩ := applique_session (m := m) op
      (t.etat.enMain m op id).2.maintenant session
    rw [Suivi.agir, heq]
    simp only [hobjet]
    apply hfidele.ecriture hm hobjet hget rfl hid hmessages
    · rw [hcontexte]
      simp
    · intro id' hne
      show Dict.get? (t.ecrits.set _ _) id' = ecrits.get? id'
      rw [Dict.get?_set, if_neg hne, hecrits id' hne]

theorem Fidele.agir (h : Fidele c t) (hm : m.codec = c) (action : Action α) :
    Fidele c (t.agir m action) := by
  cases action with
  | tic maintenant => exact h.oubli rfl rfl fun id ref hget => ⟨hget, rfl⟩
  | createSession userId => exact h.createSession hm userId
  | appel op id => exact h.appel hm op id
  | getHistory id limit =>
      have hlookup := (h.cachedOrLoaded hm id).1
      have hetat : (t.etat.getHistory m id limit).2 = (t.etat.cachedOrLoaded m id).2 := by
        unfold Etat.getHistory
        split
        · next heq => rw [heq]
        · next heq =>
            rw [heq]
            split <;> rfl
      rw [Suivi.agir, hetat]
      exact hlookup
  | evincer id =>
      refine h.oubli rfl rfl fun id' ref hget => ⟨?_, rfl⟩
      rw [Dict.get?_erase] at hget
      split at hget
      · cases hget
      · exact hget
  | redemarrer => exact h.oubli rfl rfl nofun

end Etapes

theorem fidele_jouer (c : Codec α) (actions : List (Moteur α × Action α)) :
    Fidele c (jouer c actions) := by
  have hrun : ∀ (t : Suivi α), Fidele c t → Fidele c (actions.foldl
      (fun t (m, action) => t.agir { m with codec := c } action) t) := by
    induction actions with
    | nil => exact fun _ h => h
    | cons action actions ih => exact fun t h => ih _ (h.agir rfl action.2)
  apply hrun
  constructor
  · exact fun id => rfl
  · exact fun id => rfl
  · exact fun id row hrow => by cases hrow
  · exact fun id ref hget => by cases hget
  · exact fun id hsome => by cases hsome
  · exact fun id _ => rfl

section Lecture

variable {c : Codec α} {m : Moteur α} {t : Suivi α}

theorem slice_entiere (messages : List (Message α)) {limit : Int}
    (hlimit : (messages.length : Int) ≤ limit) : Page.slice messages (-limit) none = messages := by
  have hborne : Page.borne messages.length (-limit) = 0 := by
    unfold Page.borne
    split <;> omega
  rw [Page.slice, hborne]
  exact Page.tranche_entiere messages

theorem Fidele.getHistory (h : Fidele c t) (hm : m.codec = c) (id : SessionId) {limit : Int}
    (hlimit : ((t.recusDe id).length : Int) ≤ limit) :
    ((t.etat.getHistory m id limit).1.map fun ligne => (ligne.role, ligne.content)) =
      (t.recusDe id).map texteDe := by
  obtain ⟨hlookup, htrouvee, habsente⟩ := h.cachedOrLoaded hm id
  unfold Etat.getHistory
  split
  · next s heq =>
      rw [heq] at habsente
      rw [h.recus id (habsente rfl)]
      rfl
  · next ref s heq =>
      rw [heq] at hlookup htrouvee
      obtain ⟨_, session, hobjet, _, htextes⟩ := hlookup.memoire id ref (htrouvee ref rfl)
      have hlength := congrArg List.length htextes
      simp only [List.length_map] at hlength
      simp only at hobjet
      simp only [hobjet]
      rw [slice_entiere session.messages (by rw [hlength]; exact hlimit), List.map_map]
      exact htextes

theorem Fidele.contexteJson (h : Fidele c t) {id : SessionId} {context : ConversationContext α}
    (hecrit : t.ecrits.get? id = some context) :
    ∃ row, t.etat.store.rows.get? id = some row ∧ row.contextJson = c.dumpsContext context := by
  have hcontexte := h.contextes id
  rw [hecrit, Option.map_some] at hcontexte
  exact Option.map_eq_some_iff.mp hcontexte

end Lecture

def attributsDates : Attributs where
  updatedAt := some (.texte "midi")

def moteurDate : Moteur Json where
  codec := codecJson Json.sansEchappement
  vide := .objet []
  buildInitialContext := fun _ => defaut
  buildContext := fun _ context => { context with reste := attributsDates.json }
  generate := fun _ _ =>
    ({ role := .hermes, content := "oui", timestamp := 0, metadata := .objet [] }, false)
  approuver := fun _ =>
    { role := .hermes, content := "fait", timestamp := 0, metadata := .objet [] }
  annuler := fun _ =>
    { role := .hermes, content := "non", timestamp := 0, metadata := .objet [] }

def actionsTemoin : List (Moteur Json × Action Json) :=
  [(moteurDate, .createSession "ana"),
    (moteurDate, .appel (.handleMessage "bonjour") (.uuid 0)),
    (moteurDate, .redemarrer)]

end Hermes.Conversation
