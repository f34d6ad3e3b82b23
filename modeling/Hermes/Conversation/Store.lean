import Mathlib.Data.List.Sort
import Hermes.Lib.Dict
import Hermes.Lib.Texte

/-! # The durable store of the conversations

A conversation is a row of `conversation_session` and the rows of `conversation_message` that bear
its identifier.
-/

namespace Hermes.Conversation

open Lib

inductive MessageRole where
  | user
  | hermes
  | system
  | agent
  deriving DecidableEq

inductive ConversationStatus where
  | active
  | awaitingApproval
  | processing
  | completed
  | cancelled
  | failed
  deriving DecidableEq

inductive SessionId where
  | uuid (n : Nat)
  | autre (texte : String)
  deriving DecidableEq

section Modeles

-- the objects that the rows keep as JSON
variable (α : Type*)

structure Message where
  role : MessageRole
  content : String
  timestamp : Int
  metadata : α
  agentId : String := ""
  missionId : String := ""
  deriving DecidableEq

structure ConversationContext where
  activeProjectId : String := ""
  historySummary : String := ""
  historySummaryUpto : Nat := 0
  reste : α
  deriving DecidableEq

structure ConversationSession where
  sessionId : SessionId
  userId : String
  status : ConversationStatus := .active
  messages : List (Message α) := []
  context : ConversationContext α
  createdAt : Int
  updatedAt : Int
  metadata : α
  deriving DecidableEq

end Modeles

structure ConversationRow where
  sessionId : SessionId
  userId : String
  status : ConversationStatus
  title : String
  contextJson : String
  metadataJson : String
  createdAt : Int
  updatedAt : Int
  deriving DecidableEq

structure ConversationMessageRow where
  sessionId : SessionId
  seq : Nat
  role : MessageRole
  content : String
  timestamp : Int
  agentId : String
  missionId : String
  metadataJson : String
  deriving DecidableEq

/-- `json.dumps(_, default=str)` and `_loads`. -/
structure Codec (α : Type*) where
  dumps : α → String
  loads : String → α
  dumpsContext : ConversationContext α → String
  loadsContext : String → ConversationContext α

structure Store where
  rows : Dict SessionId ConversationRow := []
  messages : List ConversationMessageRow := []
  deriving DecidableEq

variable {α : Type*}

def TITLE_MAX_CHARS : Nat := 80

/-- `" ".join(text.split())`. -/
def resserre (text : String) : String :=
  String.intercalate " "
    (((text.toList.splitOnP Texte.estBlanc).filter (· ≠ [])).map String.ofList)

def deriveTitle : List (Message α) → String
  | [] => ""
  | message :: messages =>
      let text := resserre message.content
      if message.role ≠ .user ∨ text = "" then deriveTitle messages
      else if text.length ≤ TITLE_MAX_CHARS then text
      else String.ofList (text.toList.take (TITLE_MAX_CHARS - 1)) ++ "…"

section Acces

variable (c : Codec α)

def rowDe (session : ConversationSession α) : ConversationRow where
  sessionId := session.sessionId
  userId := session.userId
  status := session.status
  title := deriveTitle session.messages
  contextJson := c.dumpsContext session.context
  metadataJson := c.dumps session.metadata
  createdAt := session.createdAt
  updatedAt := session.updatedAt

def messageRowDe (id : SessionId) (seq : Nat) (message : Message α) :
    ConversationMessageRow where
  sessionId := id
  seq := seq
  role := message.role
  content := message.content
  timestamp := message.timestamp
  agentId := message.agentId
  missionId := message.missionId
  metadataJson := c.dumps message.metadata

/-- The rows of messages numbered from `seq` on. -/
def messageRows (id : SessionId) : Nat → List (Message α) → List ConversationMessageRow
  | _, [] => []
  | seq, message :: messages => messageRowDe c id seq message :: messageRows id (seq + 1) messages

def Store.compte (s : Store) (id : SessionId) : Nat :=
  s.messages.countP fun row => row.sessionId = id

def Store.sync (s : Store) (session : ConversationSession α) : Store :=
  let stored := s.compte session.sessionId
  { rows := s.rows.set session.sessionId (rowDe c session)
    messages := s.messages ++
      messageRows c session.sessionId stored (session.messages.drop stored) }

def Store.delete (s : Store) (id : SessionId) : Store where
  rows := s.rows.erase id
  messages := s.messages.filter fun row => row.sessionId ≠ id

def messageDe (row : ConversationMessageRow) : Message α where
  role := row.role
  content := row.content
  timestamp := row.timestamp
  metadata := c.loads row.metadataJson
  agentId := row.agentId
  missionId := row.missionId

def Store.load (s : Store) (id : SessionId) : Option (ConversationSession α) :=
  match s.rows.get? id with
  | none => none
  | some row =>
      let messageRows := (s.messages.filter fun row => row.sessionId = id).insertionSort
        fun a b => a.seq ≤ b.seq
      some
        { sessionId := row.sessionId
          userId := Texte.ou row.userId "anonymous"
          status := row.status
          messages := messageRows.map (messageDe c)
          context := c.loadsContext row.contextJson
          createdAt := row.createdAt
          updatedAt := row.updatedAt
          metadata := c.loads row.metadataJson }

end Acces

structure Store.Absente (s : Store) (id : SessionId) : Prop where
  row : id ∉ s.rows.keys
  messages : ∀ row ∈ s.messages, row.sessionId ≠ id

section Absence

variable {c : Codec α} {s : Store} {id id' : SessionId}

theorem messageRows_sessionId {seq : Nat} {messages : List (Message α)} :
    ∀ row ∈ messageRows c id seq messages, row.sessionId = id := by
  induction messages generalizing seq with
  | nil => simp [messageRows]
  | cons message messages ih =>
      intro row hrow
      rcases List.mem_cons.mp hrow with rfl | hmem
      · rfl
      · exact ih row hmem

theorem absente_delete (s : Store) (id : SessionId) : (s.delete id).Absente id := by
  constructor
  · intro hmem
    obtain ⟨item, hitem, heq⟩ := List.mem_map.mp hmem
    exact (Dict.mem_erase.mp hitem).2 heq
  · intro row hrow
    have hne := (List.mem_filter.mp hrow).2
    simpa using hne

theorem Store.Absente.delete (h : s.Absente id) (id' : SessionId) :
    (s.delete id').Absente id := by
  constructor
  · intro hmem
    obtain ⟨item, hitem, heq⟩ := List.mem_map.mp hmem
    exact h.row (List.mem_map.mpr ⟨item, (Dict.mem_erase.mp hitem).1, heq⟩)
  · intro row hrow
    exact h.messages row (List.mem_filter.mp hrow).1

theorem Store.Absente.sync (h : s.Absente id) {session : ConversationSession α}
    (hne : session.sessionId ≠ id) : (s.sync c session).Absente id := by
  constructor
  · intro hmem
    rcases (Dict.keys_set _ _ _ _).mp hmem with heq | hmem
    · exact hne heq.symm
    · exact h.row hmem
  · intro row hrow
    rcases List.mem_append.mp hrow with hmem | hmem
    · exact h.messages row hmem
    · rw [messageRows_sessionId row hmem]
      exact hne

theorem sync_not_absente (s : Store) (session : ConversationSession α) :
    ¬(s.sync c session).Absente session.sessionId := by
  intro h
  exact h.row ((Dict.keys_set _ _ _ _).mpr (.inl rfl))

theorem Store.Absente.load (h : s.Absente id) : s.load c id = none := by
  simp [Store.load, Dict.get?_eq_none h.row]

end Absence

end Hermes.Conversation
