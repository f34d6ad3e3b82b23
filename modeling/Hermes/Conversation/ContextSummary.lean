import Hermes.Conversation.Manager

/-! # What the model is told of a long conversation

The last messages are sent as they are. A block stands for the ones before: their summary, if one
was ever made, or a notice of how many are missing.
-/

namespace Hermes.ContextSummary

open Lib
open Conversation

variable {α : Type*}

structure ModelMessage where
  role : String
  content : String
  deriving DecidableEq

def roleValue : MessageRole → String
  | .user => "user"
  | .hermes => "hermes"
  | .system => "system"
  | .agent => "agent"

def transcrire (messages : List (Message α)) : String :=
  "\n".intercalate (messages.filterMap fun message =>
    let contenu := Texte.strip message.content
    if contenu = "" then none else some (roleValue message.role ++ ": " ++ contenu))

/-- `resumer`, from what the model answers: none when the call raises. -/
def resumer (anciens : List (Message α)) (reponse : Option String) : Option String :=
  if transcrire anciens = "" then none
  else
    match reponse with
    | none => none
    | some texte => if Texte.strip texte = "" then none else some (Texte.strip texte)

inductive Bloc where
  | resume (texte : String) (nombre : Nat)
  | troncature (nombre : Nat)
  deriving DecidableEq

def Bloc.nombre : Bloc → Nat
  | .resume _ nombre => nombre
  | .troncature nombre => nombre

/-- `bloc_systeme` and `bloc_troncature`. -/
def Bloc.message : Bloc → ModelMessage
  | .resume texte nombre => ⟨"system",
      "Résumé des " ++ toString nombre ++ " premiers messages de cette conversation (ce n'est " ++
      "pas une transcription, ne cite personne à partir de ce texte) :\n\n" ++ texte⟩
  | .troncature nombre => ⟨"system",
      toString nombre ++ " message(s) plus anciens de cette conversation ne sont pas " ++
      "disponibles et n'ont pas pu être résumés. Si la question porte dessus, dis-le et demande " ++
      "à l'utilisateur de rappeler l'élément manquant plutôt que de supposer."⟩

def roleModele : MessageRole → String
  | .user => "user"
  | .system => "system"
  | _ => "assistant"

/-- A message of the history, if it is not blank. -/
def transmettre (message : Message α) : Option ModelMessage :=
  if Texte.strip message.content = "" then none
  else some ⟨roleModele message.role, message.content⟩

def blocDe (session : ConversationSession α) : Option Bloc :=
  let anciens := decouper session.messages
  if anciens = 0 then none
  else if session.context.historySummary = "" then some (.troncature anciens)
  else some (.resume session.context.historySummary anciens)

def buildModelMessages (systemPrompt : ConversationSession α → String)
    (session : ConversationSession α) : List ModelMessage :=
  ⟨"system", systemPrompt session⟩ :: (((blocDe session).map Bloc.message).toList ++
    (session.messages.drop (decouper session.messages)).filterMap transmettre)

/-- A session and the calls that wait for a summary, each with the number of messages it sent. -/
structure Fil (α : Type*) where
  session : ConversationSession α
  enAttente : List Nat := []

inductive Evenement (α : Type*) where
  | message (message : Message α)
  /-- `rafraichir_resume` up to the call of the model. -/
  | demander
  /-- What the model answers to a call that waits: none when it raises. -/
  | repondre (i : Nat) (reponse : Option String)
  /-- `build_model_messages`. -/
  | construire

def Fil.demander (s : Fil α) : Fil α :=
  let anciens := decouper s.session.messages
  if anciens = 0 ∨ anciens ≤ s.session.context.historySummaryUpto then s
  else { s with enAttente := s.enAttente ++ [anciens] }

def Fil.repondre (s : Fil α) (i anciens : Nat) (reponse : Option String) : Fil α :=
  let s := { s with enAttente := s.enAttente.eraseIdx i }
  match resumer (s.session.messages.take anciens) reponse with
  | none => s
  | some resume => { s with session := s.session.resumee resume anciens }

def pas (s : Fil α) : Evenement α → Option (Fil α)
  | .message message =>
      some { s with session := { s.session with messages := s.session.messages ++ [message] } }
  | .demander => some s.demander
  | .repondre i reponse => (s.enAttente[i]?).map fun anciens => s.repondre i anciens reponse
  | .construire => some s

/-- Whether the block stands for the message of that index. -/
def Bloc.represente (upto : Nat) (i : Nat) : Bloc → Bool
  | .resume _ _ => i < upto
  | .troncature nombre => i < nombre

/-- From some message on, the messages are sent as they are, the blank ones apart; every other one
that is not blank is one the block stands for, and the block announces how many it stands for. -/
def Couvert (systemPrompt : ConversationSession α → String) (session : ConversationSession α) :
    Prop :=
  ∃ coupe ≤ session.messages.length,
    buildModelMessages systemPrompt session =
      ⟨"system", systemPrompt session⟩ :: (((blocDe session).map Bloc.message).toList ++
        (session.messages.drop coupe).filterMap transmettre) ∧
    (∀ i message, session.messages[i]? = some message → Texte.strip message.content ≠ "" →
      coupe ≤ i ∨
        ∃ bloc, blocDe session = some bloc ∧
          bloc.represente session.context.historySummaryUpto i = true) ∧
    ∀ bloc, blocDe session = some bloc →
      bloc.nombre = ((List.range coupe).filter
        (bloc.represente session.context.historySummaryUpto)).length

/-- The stored summary, if any, was made from all the messages that are not sent. -/
def AJour (session : ConversationSession α) : Prop :=
  decouper session.messages = 0 ∨ session.context.historySummary = "" ∨
    decouper session.messages ≤ session.context.historySummaryUpto

instance (session : ConversationSession α) : Decidable (AJour session) :=
  inferInstanceAs (Decidable (_ ∨ _))

section Couverture

variable {session : ConversationSession α} {systemPrompt : ConversationSession α → String}

theorem decouper_le (messages : List (Message α)) : decouper messages ≤ messages.length := by
  unfold decouper
  split
  · exact Nat.zero_le _
  · exact Nat.sub_le _ _

theorem length_filter_range {n m : Nat} (h : n ≤ m) :
    ((List.range n).filter fun i => decide (i < m)).length = n := by
  have htous : (List.range n).filter (fun i => decide (i < m)) = List.range n := by
    refine List.filter_eq_self.mpr fun i hi => ?_
    have hlt : i < n := List.mem_range.mp hi
    exact decide_eq_true (by omega)
  rw [htous, List.length_range]

theorem length_filter_range_le (n m : Nat) :
    ((List.range n).filter fun i => decide (i < m)).length ≤ m := by
  have hdedans : ((List.range n).filter fun i => decide (i < m)).Subset (List.range m) := by
    intro i hi
    exact List.mem_range.mpr (of_decide_eq_true (List.mem_filter.mp hi).2)
  have hnodup : ((List.range n).filter fun i => decide (i < m)).Nodup :=
    List.nodup_range.filter _
  have h := (List.subperm_of_subset hnodup hdedans).length_le
  rwa [List.length_range] at h

theorem couvert_of_aJour (h : AJour session) : Couvert systemPrompt session := by
  refine ⟨decouper session.messages, decouper_le _, rfl, ?_, ?_⟩
  · intro i message hi hnonVide
    by_cases hcoupe : decouper session.messages ≤ i
    · exact .inl hcoupe
    · right
      have hne : decouper session.messages ≠ 0 := by omega
      unfold blocDe
      dsimp only
      rw [if_neg hne]
      by_cases hresume : session.context.historySummary = ""
      · rw [if_pos hresume]
        exact ⟨_, rfl, decide_eq_true (by omega)⟩
      · rw [if_neg hresume]
        have hupto : decouper session.messages ≤ session.context.historySummaryUpto :=
          (h.resolve_left hne).resolve_left hresume
        exact ⟨_, rfl, decide_eq_true (by omega)⟩
  · intro bloc hbloc
    unfold blocDe at hbloc
    dsimp only at hbloc
    split at hbloc
    · cases hbloc
    · next hne =>
        split at hbloc
        · cases hbloc
          exact (length_filter_range (Nat.le_refl _)).symm
        · next hresume =>
            cases hbloc
            exact (length_filter_range ((h.resolve_left hne).resolve_left hresume)).symm

theorem aJour_of_couvert (h : Couvert systemPrompt session) : AJour session := by
  obtain ⟨coupe, -, -, -, hnombre⟩ := h
  by_cases hne : decouper session.messages = 0
  · exact .inl hne
  · by_cases hresume : session.context.historySummary = ""
    · exact .inr (.inl hresume)
    · have hbloc : blocDe session =
          some (.resume session.context.historySummary (decouper session.messages)) := by
        simp [blocDe, hne, hresume]
      have hannonce := hnombre _ hbloc
      have hborne := length_filter_range_le coupe session.context.historySummaryUpto
      refine .inr (.inr ?_)
      calc decouper session.messages
          = ((List.range coupe).filter fun i =>
              decide (i < session.context.historySummaryUpto)).length := hannonce
        _ ≤ session.context.historySummaryUpto := hborne

end Couverture

/-- In every run of a session, what is sent covers every message at each building exactly when the
stored summary is never behind. -/
theorem couverture_iff (systemPrompt : ConversationSession α → String) (s : Fil α)
    (evenements : List (Evenement α)) :
    Along pas (fun s e => e = .construire → Couvert systemPrompt s.session) s evenements ↔
      Along pas (fun s e => e = .construire → AJour s.session) s evenements := by
  refine along_congr (fun s e s' _ => ?_) s evenements
  exact imp_congr_right fun _ => ⟨aJour_of_couvert, couvert_of_aJour⟩

def debut : Fil Unit where
  session := {
    sessionId := .uuid 0
    userId := "operateur"
    context := { reste := () }
    createdAt := 0
    updatedAt := 0
    metadata := () }

def bonjour : Evenement Unit :=
  .message { role := .user, content := "bonjour", timestamp := 0, metadata := () }

/-- A summary of the first five of twenty-five messages, then one more message. -/
def apresLeResume : List (Evenement Unit) :=
  List.replicate 25 bonjour ++ [.demander, .repondre 0 (some "des bonjours"), bonjour]

/-- The block announces six messages and stands for five; the sixth one is nowhere. -/
theorem message_oublie :
    ¬ ∀ (systemPrompt : ConversationSession Unit → String) (s : Fil Unit)
        (evenements : List (Evenement Unit)),
      Along pas (fun s e => e = .construire → Couvert systemPrompt s.session) s evenements := by
  intro h
  have hrun : (run pas debut apresLeResume).map (fun s => decide (AJour s.session)) =
      some false := by
    decide +kernel
  obtain ⟨s, hs, hretard⟩ := Option.map_eq_some_iff.mp hrun
  have hcouvert := (h (fun _ => "") debut (apresLeResume ++ [.construire])).after hs rfl rfl
  exact of_decide_eq_false hretard (aJour_of_couvert hcouvert)

end Hermes.ContextSummary
