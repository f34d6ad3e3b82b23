import Hermes.Conversation.Store
import Hermes.Lib.JsonTexte

/-! # The context of a conversation as JSON

A context is written as the object of its attributes, and read back attribute by attribute over
a context of defaults: the date that `build_context` leaves on it is written, and is not an
attribute that the reader knows.
-/

namespace Hermes.Conversation

open Lib

/-- The attributes of a context that the conversation itself does not read. -/
structure Attributs where
  activeGoalId : Json := .texte ""
  activeMissionId : Json := .texte ""
  activeAgents : Json := .tableau []
  currentRuntime : Json := .texte ""
  currentModel : Json := .texte ""
  recentEvents : Json := .tableau []
  workspaceStatus : Json := .texte ""
  securityLevel : Json := .texte "normal"
  environmentVars : Json := .objet []
  /-- Left by `build_context`, and by no constructor. -/
  updatedAt : Option Json := none

namespace Attributs

def declares (a : Attributs) : List (String × Json) :=
  [("active_goal_id", a.activeGoalId), ("active_mission_id", a.activeMissionId),
    ("active_agents", a.activeAgents), ("current_runtime", a.currentRuntime),
    ("current_model", a.currentModel), ("recent_events", a.recentEvents),
    ("workspace_status", a.workspaceStatus), ("security_level", a.securityLevel),
    ("environment_vars", a.environmentVars)]

def json (a : Attributs) : Json :=
  .objet (a.declares ++ (a.updatedAt.map fun date => ("updated_at", date)).toList)

structure Valide (a : Attributs) : Prop where
  declares : ∀ item ∈ a.declares, item.2.Valide
  updatedAt : ∀ date ∈ a.updatedAt, date.Valide

/-- What the constructor of a context knows of the attributes. -/
def sansDate (a : Attributs) : Attributs := { a with updatedAt := none }

end Attributs

def CHAMPS : List String :=
  ["active_goal_id", "active_mission_id", "active_project_id", "active_agents",
    "current_runtime", "current_model", "recent_events", "workspace_status", "security_level",
    "environment_vars", "history_summary", "history_summary_upto"]

def attribut (context : ConversationContext Json) (cle : String) : Option Json :=
  if cle = "active_project_id" then some (.texte context.activeProjectId)
  else if cle = "history_summary" then some (.texte context.historySummary)
  else if cle = "history_summary_upto" then some (.entier context.historySummaryUpto)
  else
    match context.reste with
    | .objet items => Dict.get? items cle
    | _ => none

/-- `vars(context)`: the fields, then the date if there is one. -/
def vars (context : ConversationContext Json) : List (String × Json) :=
  (CHAMPS ++ ["updated_at"]).filterMap fun cle =>
    (attribut context cle).map fun valeur => (cle, valeur)

def defaut : ConversationContext Json where
  reste := Attributs.json {}

/-- `setattr(context, cle, valeur)`, the named fields being of the type that `sync` writes. -/
def setattr (context : ConversationContext Json) (cle : String) (valeur : Json) :
    ConversationContext Json :=
  if cle = "active_project_id" then
    match valeur with
    | .texte t => { context with activeProjectId := t }
    | _ => context
  else if cle = "history_summary" then
    match valeur with
    | .texte t => { context with historySummary := t }
    | _ => context
  else if cle = "history_summary_upto" then
    match valeur with
    | .entier n => { context with historySummaryUpto := n.toNat }
    | _ => context
  else
    match context.reste with
    | .objet items => { context with reste := .objet (Dict.set items cle valeur) }
    | _ => context

/-- One item of the loop of `load`. -/
def reprendre (context : ConversationContext Json) (item : String × Json) :
    ConversationContext Json :=
  if item.1 ∈ CHAMPS then setattr context item.1 item.2 else context

/-- `_loads(raw, {})`. -/
def loadsObjet (j : Json.Ecriture) (raw : String) : List (String × Json) :=
  match j.loads raw with
  | some (.objet items) => items
  | _ => []

def codecJson (j : Json.Ecriture) : Codec Json where
  dumps := j.dumps
  loads raw := .objet (loadsObjet j raw)
  dumpsContext context := j.dumps (.objet (vars context))
  loadsContext raw := (loadsObjet j raw).foldl reprendre defaut

section Lecture

variable {context : ConversationContext Json} {a : Attributs}

theorem vars_eq (h : context.reste = a.json) :
    vars context =
      [("active_goal_id", a.activeGoalId), ("active_mission_id", a.activeMissionId),
        ("active_project_id", .texte context.activeProjectId),
        ("active_agents", a.activeAgents), ("current_runtime", a.currentRuntime),
        ("current_model", a.currentModel), ("recent_events", a.recentEvents),
        ("workspace_status", a.workspaceStatus), ("security_level", a.securityLevel),
        ("environment_vars", a.environmentVars),
        ("history_summary", .texte context.historySummary),
        ("history_summary_upto", .entier context.historySummaryUpto)] ++
      (a.updatedAt.map fun date => ("updated_at", date)).toList := by
  have hnil (cle : String) : Dict.get? ([] : Dict String Json) cle = none := rfl
  cases hdate : a.updatedAt with
  | none =>
      simp [vars, CHAMPS, attribut, h, Attributs.json, Attributs.declares, hdate,
        Dict.get?_cons, hnil]
  | some date =>
      simp [vars, CHAMPS, attribut, h, Attributs.json, Attributs.declares, hdate,
        Dict.get?_cons, hnil]

theorem vars_valide (h : context.reste = a.json) (ha : a.Valide) :
    Json.Valide (.objet (vars context)) := by
  have hdeclares := ha.declares
  simp only [Attributs.declares, List.forall_mem_cons] at hdeclares
  rw [vars_eq h, Json.Valide]
  cases hdate : a.updatedAt with
  | none =>
      refine ⟨by simp, ?_⟩
      simp [Json.ItemsValides, Json.Valide, hdeclares]
  | some date =>
      refine ⟨by simp, ?_⟩
      simp [Json.ItemsValides, Json.Valide, hdeclares, ha.updatedAt date (by simp [hdate])]

theorem loads_dumps (j : Json.Ecriture) (h : context.reste = a.json) (ha : a.Valide) :
    (codecJson j).loadsContext ((codecJson j).dumpsContext context) =
      { context with reste := a.sansDate.json } := by
  have hread : loadsObjet j (j.dumps (.objet (vars context))) = vars context := by
    rw [loadsObjet, j.loads_dumps _ (vars_valide h ha)]
  show (loadsObjet j (j.dumps (.objet (vars context)))).foldl reprendre defaut = _
  rw [hread, vars_eq h, List.foldl_append]
  cases hdate : a.updatedAt with
  | none =>
      simp [List.foldl_cons, reprendre, CHAMPS, setattr, defaut, Attributs.json, Attributs.declares, Attributs.sansDate, Dict.set]
  | some date =>
      simp [List.foldl_cons, reprendre, CHAMPS, setattr, defaut, Attributs.json, Attributs.declares, Attributs.sansDate, Dict.set]

end Lecture

end Hermes.Conversation
