import Hermes.Lib.Dict
import Mathlib.Algebra.Order.Ring.Rat

/-! # The lifecycle of the agents

A manager keeps the agents in memory and moves each through its states. What the observers receive
is the log of the manager.
-/

namespace Hermes.Agent.Lifecycle

open Lib

inductive AgentState where
  | created
  | ready
  | scheduled
  | running
  | paused
  | waiting
  | completed
  | failed
  | cancelled
  | timeout
  deriving DecidableEq

def AgentState.terminal : AgentState → Bool
  | completed | failed | cancelled | timeout => true
  | created | ready | scheduled | running | paused | waiting => false

def ALLOWED_TRANSITIONS : AgentState → List AgentState
  | .created => [.ready]
  | .ready => [.scheduled, .running]
  | .scheduled => [.running]
  | .running => [.paused, .completed, .failed, .cancelled, .timeout]
  | .paused => [.running, .cancelled, .timeout]
  | .waiting => [.running, .cancelled, .failed]
  | .completed => []
  | .failed => []
  | .cancelled => []
  | .timeout => []

structure AgentContext where
  id : String
  missionId : String := ""
  taskId : String := ""
  runtimeCapability : String := "chat"
  assignedRuntime : Option String := none
  deriving DecidableEq

structure AgentStatistics where
  executionCount : Nat := 0
  retries : Nat := 0
  failures : Nat := 0
  totalDuration : Rat := 0
  lastExecution : Option Rat := none
  deriving DecidableEq

structure AgentInstance where
  id : String
  state : AgentState
  context : AgentContext
  createdAt : Rat
  startedAt : Option Rat := none
  finishedAt : Option Rat := none
  statistics : AgentStatistics := {}
  deriving DecidableEq

inductive AgentLifecycleError where
  | existe (id : String)
  | introuvable (id : String)
  | reprise (id : String) (state : AgentState)
  | annulation (id : String) (current : AgentState)
  | transition (id : String) (current target : AgentState)
  deriving DecidableEq

structure AgentLifecycleManager where
  timeoutS : Rat := 300
  agents : Dict String AgentInstance := []
  emis : List (String × AgentState × AgentState) := []
  deriving DecidableEq

/-- `t or now`: a time of zero counts as none. -/
def ouMaintenant (t : Option Rat) (now : Rat) : Rat :=
  match t with
  | none => now
  | some t => if t = 0 then now else t

/-- The instance that an allowed transition stores. -/
def AgentInstance.avancer (a : AgentInstance) (target : AgentState) (now : Rat) : AgentInstance :=
  if target = .running then
    { a with state := target, startedAt := some (ouMaintenant a.startedAt now) }
  else if target.terminal then
    { a with
      state := target
      finishedAt := some now
      statistics :=
        { a.statistics with
          executionCount := a.statistics.executionCount + 1
          failures := a.statistics.failures + if target = .failed then 1 else 0
          totalDuration := a.statistics.totalDuration +
            match a.startedAt with
            | none => 0
            | some started => now - started
          lastExecution := some (ouMaintenant a.startedAt now) } }
  else { a with state := target }

namespace AgentLifecycleManager

variable (m : AgentLifecycleManager)

def emit (agentId : String) (fromState toState : AgentState) : AgentLifecycleManager :=
  { m with emis := m.emis ++ [(agentId, fromState, toState)] }

def ranger (agentId : String) (a : AgentInstance) : AgentLifecycleManager :=
  { m with agents := m.agents.set agentId a }

def refus (agentId : String) (current target : AgentState) : Option AgentLifecycleError :=
  if target = .cancelled then
    if current.terminal then some (.annulation agentId current) else none
  else if target ∉ ALLOWED_TRANSITIONS current then some (.transition agentId current target)
  else none

def transition (agentId : String) (target : AgentState) (now : Rat) :
    AgentLifecycleManager × Except AgentLifecycleError AgentInstance :=
  match m.agents.get? agentId with
  | none => (m, .error (.introuvable agentId))
  | some a =>
      match refus agentId a.state target with
      | some e => (m, .error e)
      | none =>
          let updated := a.avancer target now
          ((m.ranger agentId updated).emit agentId a.state target, .ok updated)

def createAgent (context : AgentContext) (createdAt now : Rat) :
    AgentLifecycleManager × Except AgentLifecycleError AgentInstance :=
  if context.id ∈ m.agents.keys then (m, .error (.existe context.id))
  else
    let a : AgentInstance :=
      { id := context.id, state := .created, context := context, createdAt := createdAt }
    ((m.ranger context.id a).emit context.id .created .ready).transition context.id .ready now

def startAgent (agentId : String) (now : Rat) :
    AgentLifecycleManager × Except AgentLifecycleError AgentInstance :=
  m.transition agentId .running now

def pauseAgent (agentId : String) (now : Rat) :
    AgentLifecycleManager × Except AgentLifecycleError AgentInstance :=
  m.transition agentId .paused now

def resumeAgent (agentId : String) (now : Rat) :
    AgentLifecycleManager × Except AgentLifecycleError AgentInstance :=
  match m.agents.get? agentId with
  | none => (m, .error (.introuvable agentId))
  | some a =>
      if a.state ≠ .paused then (m, .error (.reprise agentId a.state))
      else
        let updated : AgentInstance :=
          { a with
            state := .running
            startedAt := some (ouMaintenant a.startedAt now)
            finishedAt := none }
        ((m.emit agentId a.state .running).ranger agentId updated, .ok updated)

def cancelAgent (agentId : String) (now : Rat) :
    AgentLifecycleManager × Except AgentLifecycleError AgentInstance :=
  m.transition agentId .cancelled now

def completeAgent (agentId : String) (now : Rat) :
    AgentLifecycleManager × Except AgentLifecycleError AgentInstance :=
  m.transition agentId .completed now

def failAgent (agentId : String) (now : Rat) :
    AgentLifecycleManager × Except AgentLifecycleError AgentInstance :=
  m.transition agentId .failed now

def perime (maxAgeS now : Rat) (a : AgentInstance) : Bool :=
  match a.finishedAt with
  | none => false
  | some finished => maxAgeS < now - finished && a.state.terminal

def cleanup (maxAgeS now : Rat) : AgentLifecycleManager × Nat :=
  let toRemove := (m.agents.filter fun item => perime maxAgeS now item.2).map Prod.fst
  ({ m with agents := toRemove.foldl Dict.erase m.agents }, toRemove.length)

/-- A running agent that has exceeded the delay. -/
def depasse (now : Rat) (a : AgentInstance) : Bool :=
  a.state = .running &&
    match a.startedAt with
    | none => false
    | some started => m.timeoutS < now - started

def checkTimeouts (now : Rat) (fins : String → Rat) : AgentLifecycleManager × List String :=
  m.agents.foldl
    (fun s item =>
      if m.depasse now item.2 then
        match s.1.transition item.1 .timeout (fins item.1) with
        | (m', .ok _) => (m', s.2 ++ [item.1])
        | (m', .error _) => (m', s.2)
      else s) (m, [])

inductive Operation where
  | createAgent (context : AgentContext) (createdAt now : Rat)
  | startAgent (agentId : String) (now : Rat)
  | pauseAgent (agentId : String) (now : Rat)
  | resumeAgent (agentId : String) (now : Rat)
  | cancelAgent (agentId : String) (now : Rat)
  | completeAgent (agentId : String) (now : Rat)
  | failAgent (agentId : String) (now : Rat)
  | cleanup (maxAgeS now : Rat)
  | checkTimeouts (now : Rat) (fins : String → Rat)

def Operation.Cree (agentId : String) : Operation → Prop
  | createAgent context _ _ => context.id = agentId
  | _ => False

def rejet {ε α : Type} : Except ε α → Option ε
  | .ok _ => none
  | .error e => some e

def executer : Operation → AgentLifecycleManager × Option AgentLifecycleError
  | .createAgent context createdAt now => (m.createAgent context createdAt now).map id rejet
  | .startAgent agentId now => (m.startAgent agentId now).map id rejet
  | .pauseAgent agentId now => (m.pauseAgent agentId now).map id rejet
  | .resumeAgent agentId now => (m.resumeAgent agentId now).map id rejet
  | .cancelAgent agentId now => (m.cancelAgent agentId now).map id rejet
  | .completeAgent agentId now => (m.completeAgent agentId now).map id rejet
  | .failAgent agentId now => (m.failAgent agentId now).map id rejet
  | .cleanup maxAgeS now => ((m.cleanup maxAgeS now).1, none)
  | .checkTimeouts now fins => ((m.checkTimeouts now fins).1, none)

def etat (agentId : String) : Option AgentState := (m.agents.get? agentId).map (·.state)

def emisDe (agentId : String) : List (AgentState × AgentState) :=
  (m.emis.filter fun e => e.1 = agentId).map Prod.snd

/-- The transition of the stored state between two instants. -/
def traversee : Option AgentState → Option AgentState → List (AgentState × AgentState)
  | none, some b => [(.created, b)]
  | some a, some b => if a = b then [] else [(a, b)]
  | _, none => []

/-- The manager, with what was announced for an agent and what its stored state went through, since
the agent came into being. -/
structure Suivi where
  m : AgentLifecycleManager
  annonces : List (AgentState × AgentState) := []
  traversees : List (AgentState × AgentState) := []

def suivre (agentId : String) (σ : Suivi) (op : Operation) : Suivi :=
  let m' := (σ.m.executer op).1
  -- the agent is removed: what bears its id afterwards is another one
  if (σ.m.etat agentId).isSome ∧ m'.etat agentId = none then { m := m' }
  else
    { m := m'
      annonces := σ.annonces ++ (m'.emisDe agentId).drop (σ.m.emisDe agentId).length
      traversees := σ.traversees ++ traversee (σ.m.etat agentId) (m'.etat agentId) }

def apres (timeoutS : Rat) (agentId : String) (histoire : List Operation) : Suivi :=
  histoire.foldl (suivre agentId) { m := { timeoutS := timeoutS } }

/-- Pairs that go from a state to another, each from where the one before arrived. -/
def Mene : AgentState → List (AgentState × AgentState) → AgentState → Prop
  | a, [], b => a = b
  | a, p :: l, b => p.1 = a ∧ Mene p.2 l b

structure TraceFidele (agentId : String) (σ : Suivi) : Prop where
  reelles : σ.annonces = σ.traversees
  liees : ∀ b, σ.m.etat agentId = some b → Mene .created σ.annonces b
  rejet : ∀ op e, (σ.m.executer op).2 = some e → (σ.m.executer op).1 = σ.m

/-- A transition that the manager makes. -/
def Permise (a b : AgentState) : Prop :=
  b ∈ ALLOWED_TRANSITIONS a ∨ (b = .cancelled ∧ a.terminal = false)

/-- What an operation does to an agent, with the pairs it announces for it. -/
inductive Effet (cree : Prop) (agentId : String) (m m' : AgentLifecycleManager) :
    List (AgentState × AgentState) → Prop
  | rien (h : m'.etat agentId = m.etat agentId) : Effet cree agentId m m' []
  | creation (hcree : cree) (h : m.etat agentId = none) (h' : m'.etat agentId = some .ready) :
      Effet cree agentId m m' [(.created, .ready), (.created, .ready)]
  | avance {a b : AgentState} (h : m.etat agentId = some a) (h' : m'.etat agentId = some b)
      (hpermise : Permise a b) : Effet cree agentId m m' [(a, b)]
  | retrait (h : m'.etat agentId = none) : Effet cree agentId m m' []

/-- The effect of an operation, read in the log. -/
def Agit (cree : Prop) (agentId : String) (m m' : AgentLifecycleManager) : Prop :=
  ∃ paires, Effet cree agentId m m' paires ∧ m'.emisDe agentId = m.emisDe agentId ++ paires

section Effets

variable {m : AgentLifecycleManager} {agentId autre : String} {target a b : AgentState} {now : Rat}

theorem etat_ranger (a : AgentInstance) :
    (m.ranger autre a).etat agentId = if agentId = autre then some a.state else m.etat agentId := by
  unfold etat ranger
  dsimp only
  rw [Dict.get?_set]
  split <;> rfl

theorem emisDe_emit :
    (m.emit autre a b).emisDe agentId =
      m.emisDe agentId ++ if autre = agentId then [(a, b)] else [] := by
  unfold emisDe emit
  dsimp only
  rw [List.filter_append, List.map_append]
  by_cases h : autre = agentId
  · simp [h]
  · simp [h]

@[simp] theorem etat_emit : (m.emit autre a b).etat agentId = m.etat agentId := rfl

@[simp] theorem emisDe_ranger (x : AgentInstance) :
    (m.ranger autre x).emisDe agentId = m.emisDe agentId := rfl

theorem state_avancer (x : AgentInstance) (target : AgentState) (now : Rat) :
    (x.avancer target now).state = target := by
  unfold AgentInstance.avancer
  split
  · rfl
  · split <;> rfl

theorem permise_of_refus (h : refus agentId a target = none) : Permise a target := by
  unfold refus at h
  split at h
  · next hcancel =>
      split at h
      · cases h
      · next hterminal => exact .inr ⟨hcancel, by simpa using hterminal⟩
  · split at h
    · cases h
    · next hallowed => exact .inl (by simpa using hallowed)

theorem Permise.ne (h : Permise a b) : a ≠ b := by
  rintro rfl
  rcases h with h | ⟨rfl, h⟩
  · cases a <;> simp [ALLOWED_TRANSITIONS] at h
  · cases h

theorem transition_cases (m : AgentLifecycleManager) (autre : String) (target : AgentState)
    (now : Rat) :
    (∃ e, m.transition autre target now = (m, .error e)) ∨
      ∃ x, m.agents.get? autre = some x ∧ Permise x.state target ∧
        m.transition autre target now =
          ((m.ranger autre (x.avancer target now)).emit autre x.state target,
            .ok (x.avancer target now)) := by
  unfold transition
  cases hget : m.agents.get? autre with
  | none => exact .inl ⟨_, rfl⟩
  | some x =>
      cases hrefus : refus autre x.state target with
      | some e => exact .inl ⟨e, by simp only [hrefus]⟩
      | none => exact .inr ⟨x, rfl, permise_of_refus hrefus, by simp only [hrefus]⟩

theorem transition_ok {x : AgentInstance} (hget : m.agents.get? autre = some x)
    (hrefus : refus autre x.state target = none) (now : Rat) :
    m.transition autre target now =
      ((m.ranger autre (x.avancer target now)).emit autre x.state target,
        .ok (x.avancer target now)) := by
  unfold transition
  rw [hget]
  dsimp only
  rw [hrefus]

theorem context_avancer (x : AgentInstance) (target : AgentState) (now : Rat) :
    (x.avancer target now).context = x.context := by
  unfold AgentInstance.avancer
  split
  · rfl
  · split <;> rfl

theorem Agit.refl (cree : Prop) (agentId : String) (m : AgentLifecycleManager) :
    Agit cree agentId m m :=
  ⟨[], .rien rfl, (List.append_nil _).symm⟩

theorem agit_transition (m : AgentLifecycleManager) (autre : String) (target : AgentState)
    (now : Rat) (agentId : String) (cree : Prop) : Agit cree agentId m (m.transition autre target now).1 := by
  rcases m.transition_cases autre target now with ⟨e, h⟩ | ⟨x, hget, hpermise, h⟩
  · rw [h]
    exact Agit.refl _ agentId m
  · rw [h]
    by_cases hid : agentId = autre
    · subst hid
      refine ⟨[(x.state, target)], .avance ?_ ?_ hpermise, ?_⟩
      · rw [etat, hget, Option.map_some]
      · rw [etat_emit, etat_ranger, if_pos rfl, state_avancer]
      · rw [emisDe_emit, emisDe_ranger, if_pos rfl]
    · refine ⟨[], .rien ?_, ?_⟩
      · rw [etat_emit, etat_ranger, if_neg hid]
      · rw [emisDe_emit, emisDe_ranger, if_neg (Ne.symm hid)]

theorem createAgent_neuf {context : AgentContext} (h : context.id ∉ m.agents.keys)
    (createdAt now : Rat) :
    ∃ x, (m.createAgent context createdAt now).2 = .ok x ∧
      (m.createAgent context createdAt now).1.agents =
        (m.agents.set context.id
          { id := context.id, state := .created, context := context, createdAt := createdAt }).set
            context.id x ∧
      x.state = .ready ∧ x.context = context ∧ x.id = context.id ∧
      (m.createAgent context createdAt now).1.emis = m.emis ++
        [(context.id, .created, .ready), (context.id, .created, .ready)] := by
  unfold createAgent
  rw [if_neg h]
  dsimp only
  have hget : ((m.ranger context.id
      { id := context.id, state := .created, context := context, createdAt := createdAt }).emit
        context.id .created .ready).agents.get? context.id =
      some { id := context.id, state := .created, context := context, createdAt := createdAt } :=
    Dict.get?_set_self _ _ _
  unfold transition
  rw [hget]
  dsimp only
  rw [show refus context.id .created .ready = none from rfl]
  refine ⟨_, rfl, rfl, rfl, rfl, rfl, ?_⟩
  simp [emit, ranger]

theorem agit_createAgent (m : AgentLifecycleManager) (context : AgentContext)
    (createdAt now : Rat) (agentId : String) :
    Agit (context.id = agentId) agentId m (m.createAgent context createdAt now).1 := by
  by_cases h : context.id ∈ m.agents.keys
  · rw [createAgent, if_pos h]
    exact Agit.refl _ agentId m
  · obtain ⟨x, -, hagents, hstate, -, -, hemis⟩ := createAgent_neuf h createdAt now
    have hetat : (m.createAgent context createdAt now).1.etat agentId =
        if agentId = context.id then some .ready else m.etat agentId := by
      unfold etat
      rw [hagents, Dict.get?_set, Dict.get?_set]
      by_cases hid : agentId = context.id
      · simp [hid, hstate]
      · simp [hid]
    by_cases hid : agentId = context.id
    · subst hid
      refine ⟨_, .creation rfl ?_ (by rw [hetat, if_pos rfl]), ?_⟩
      · rw [etat, Dict.get?_eq_none h, Option.map_none]
      · simp [emisDe, hemis]
    · refine ⟨[], .rien (by rw [hetat, if_neg hid]), ?_⟩
      simp [emisDe, hemis, Ne.symm hid]

theorem agit_resumeAgent (m : AgentLifecycleManager) (autre : String) (now : Rat)
    (agentId : String) (cree : Prop) : Agit cree agentId m (m.resumeAgent autre now).1 := by
  unfold resumeAgent
  cases hget : m.agents.get? autre with
  | none => exact Agit.refl _ agentId m
  | some x =>
      dsimp only
      split
      · exact Agit.refl _ agentId m
      · next hpaused =>
          rw [ne_eq, not_not] at hpaused
          by_cases hid : agentId = autre
          · subst hid
            refine ⟨[(.paused, .running)], .avance ?_ ?_ (.inl (by decide)), ?_⟩
            · rw [etat, hget, Option.map_some, hpaused]
            · rw [etat_ranger, if_pos rfl]
            · rw [emisDe_ranger, emisDe_emit, if_pos rfl, hpaused]
          · refine ⟨[], .rien ?_, ?_⟩
            · rw [etat_ranger, if_neg hid, etat_emit]
            · rw [emisDe_ranger, emisDe_emit, if_neg (Ne.symm hid)]

theorem get?_foldl_erase (d : Dict String AgentInstance) (ids : List String) (k : String) :
    (ids.foldl Dict.erase d).get? k = if k ∈ ids then none else d.get? k := by
  induction ids generalizing d with
  | nil => simp
  | cons id ids ih =>
      rw [List.foldl_cons, ih, Dict.get?_erase]
      by_cases hk : k = id
      · simp [hk]
      · simp [hk]

theorem agit_cleanup (m : AgentLifecycleManager) (maxAgeS now : Rat) (agentId : String)
    (cree : Prop) : Agit cree agentId m (m.cleanup maxAgeS now).1 := by
  have hemis : (m.cleanup maxAgeS now).1.emisDe agentId = m.emisDe agentId ++ [] :=
    (List.append_nil _).symm
  by_cases hid : agentId ∈
      (m.agents.filter fun item => perime maxAgeS now item.2).map Prod.fst
  · refine ⟨[], .retrait ?_, hemis⟩
    simp only [etat, cleanup, get?_foldl_erase, hid, if_true, Option.map_none]
  · refine ⟨[], .rien ?_, hemis⟩
    simp only [etat, cleanup, get?_foldl_erase, hid, if_false]

/-- What the scan of the delays may have done to an agent so far: a timed out agent refuses a
second one. -/
def Balaye (agentId : String) (m m' : AgentLifecycleManager) : Prop :=
  (m'.etat agentId = m.etat agentId ∧ m'.emisDe agentId = m.emisDe agentId) ∨
    ∃ a, m.etat agentId = some a ∧ m'.etat agentId = some .timeout ∧ Permise a .timeout ∧
      m'.emisDe agentId = m.emisDe agentId ++ [(a, .timeout)]

theorem Balaye.transition {m' : AgentLifecycleManager} (h : Balaye agentId m m') (autre : String)
    (now : Rat) : Balaye agentId m (m'.transition autre .timeout now).1 := by
  rcases m'.transition_cases autre .timeout now with ⟨e, heq⟩ | ⟨x, hget, hpermise, heq⟩
  · rw [heq]
    exact h
  · rw [heq]
    by_cases hid : agentId = autre
    · subst hid
      have hetat : m'.etat agentId = some x.state := by rw [etat, hget, Option.map_some]
      rcases h with ⟨hmeme, hemis⟩ | ⟨a, -, htimeout, -, -⟩
      · refine .inr ⟨x.state, hmeme.symm.trans hetat, ?_, hpermise, ?_⟩
        · rw [etat_emit, etat_ranger, if_pos rfl, state_avancer]
        · rw [emisDe_emit, emisDe_ranger, if_pos rfl, hemis]
      · rw [hetat] at htimeout
        exact absurd (Option.some.inj htimeout) hpermise.ne
    · have hmeme : ((m'.ranger autre (x.avancer .timeout now)).emit autre x.state .timeout).etat
          agentId = m'.etat agentId := by rw [etat_emit, etat_ranger, if_neg hid]
      have hemis : ((m'.ranger autre (x.avancer .timeout now)).emit autre x.state .timeout).emisDe
          agentId = m'.emisDe agentId := by
        rw [emisDe_emit, emisDe_ranger, if_neg (Ne.symm hid), List.append_nil]
      unfold Balaye
      rw [hmeme, hemis]
      exact h

theorem agit_checkTimeouts (m : AgentLifecycleManager) (now : Rat) (fins : String → Rat)
    (agentId : String) (cree : Prop) : Agit cree agentId m (m.checkTimeouts now fins).1 := by
  have hfold : ∀ (items : List (String × AgentInstance)) (s : AgentLifecycleManager × List String),
      Balaye agentId m s.1 → Balaye agentId m (items.foldl (fun s item =>
        if m.depasse now item.2 then
          match s.1.transition item.1 .timeout (fins item.1) with
          | (m', .ok _) => (m', s.2 ++ [item.1])
          | (m', .error _) => (m', s.2)
        else s) s).1 := by
    intro items
    induction items with
    | nil => exact fun s h => h
    | cons item items ih =>
        intro s h
        rw [List.foldl_cons]
        apply ih
        split
        · have hsuite := h.transition item.1 (fins item.1)
          split
          · next heq => rwa [heq] at hsuite
          · next heq => rwa [heq] at hsuite
        · exact h
  rcases hfold m.agents (m, []) (.inl ⟨rfl, rfl⟩) with ⟨hmeme, hemis⟩ | ⟨a, ha, ht, hp, hemis⟩
  · exact ⟨[], .rien hmeme, hemis.trans (List.append_nil _).symm⟩
  · exact ⟨_, .avance ha ht hp, hemis⟩

theorem agit_executer (m : AgentLifecycleManager) (op : Operation) (agentId : String) :
    Agit (op.Cree agentId) agentId m (m.executer op).1 := by
  cases op with
  | createAgent context createdAt now => exact agit_createAgent m context createdAt now agentId
  | startAgent autre now => exact agit_transition m autre .running now agentId _
  | pauseAgent autre now => exact agit_transition m autre .paused now agentId _
  | resumeAgent autre now => exact agit_resumeAgent m autre now agentId _
  | cancelAgent autre now => exact agit_transition m autre .cancelled now agentId _
  | completeAgent autre now => exact agit_transition m autre .completed now agentId _
  | failAgent autre now => exact agit_transition m autre .failed now agentId _
  | cleanup maxAgeS now => exact agit_cleanup m maxAgeS now agentId _
  | checkTimeouts now fins => exact agit_checkTimeouts m now fins agentId _

theorem executer_rejet {op : Operation} {e : AgentLifecycleError}
    (h : (m.executer op).2 = some e) : (m.executer op).1 = m := by
  have htransition : ∀ autre target now,
      rejet (m.transition autre target now).2 = some e →
        (m.transition autre target now).1 = m := by
    intro autre target now h
    rcases m.transition_cases autre target now with ⟨e', heq⟩ | ⟨x, -, -, heq⟩
    · rw [heq]
    · rw [heq] at h
      cases h
  cases op with
  | createAgent context createdAt now =>
      change rejet (m.createAgent context createdAt now).2 = some e at h
      change (m.createAgent context createdAt now).1 = m
      by_cases hconnu : context.id ∈ m.agents.keys
      · rw [createAgent, if_pos hconnu]
      · obtain ⟨x, hok, -⟩ := createAgent_neuf hconnu createdAt now
        rw [hok] at h
        cases h
  | resumeAgent autre now =>
      change rejet (m.resumeAgent autre now).2 = some e at h
      change (m.resumeAgent autre now).1 = m
      unfold resumeAgent at h ⊢
      cases hget : m.agents.get? autre with
      | none => rfl
      | some x =>
          rw [hget] at h
          dsimp only at h ⊢
          split at h
          · next hpaused => rw [if_pos hpaused]
          · cases h
  | startAgent autre now => exact htransition autre .running now h
  | pauseAgent autre now => exact htransition autre .paused now h
  | cancelAgent autre now => exact htransition autre .cancelled now h
  | completeAgent autre now => exact htransition autre .completed now h
  | failAgent autre now => exact htransition autre .failed now h
  | cleanup maxAgeS now => cases h
  | checkTimeouts now fins => cases h

theorem etat_executer_of_not_cree {op : Operation} (h : m.etat agentId = none)
    (hop : ¬ op.Cree agentId) : (m.executer op).1.etat agentId = none ∧
      (m.executer op).1.emisDe agentId = m.emisDe agentId := by
  obtain ⟨paires, heffet, hemis⟩ := agit_executer m op agentId
  cases heffet with
  | rien hetat => exact ⟨hetat.trans h, hemis.trans (List.append_nil _)⟩
  | creation hcree _ _ => exact absurd hcree hop
  | avance ha _ _ =>
      rw [h] at ha
      cases ha
  | retrait hetat => exact ⟨hetat, hemis.trans (List.append_nil _)⟩

theorem etat_executer_of_cree {op : Operation} (hop : op.Cree agentId) :
    ((m.executer op).1.etat agentId).isSome = true := by
  cases op with
  | createAgent context createdAt now =>
      have hid : context.id = agentId := hop
      subst hid
      change ((m.createAgent context createdAt now).1.etat context.id).isSome = true
      by_cases h : context.id ∈ m.agents.keys
      · rw [createAgent, if_pos h, etat, Option.isSome_map]
        exact Dict.isSome_get?.mpr h
      · obtain ⟨x, -, hagents, -⟩ := createAgent_neuf h createdAt now
        rw [etat, hagents, Dict.get?_set_self]
        rfl
  | _ => cases hop

end Effets

section Traces

variable {agentId : String} {σ : Suivi} {a b c : AgentState}
  {paires : List (AgentState × AgentState)}

theorem Mene.concat (h : Mene a paires b) (c : AgentState) : Mene a (paires ++ [(b, c)]) c := by
  induction paires generalizing a with
  | nil => exact ⟨h.symm, rfl⟩
  | cons p paires ih => exact ⟨h.1, ih h.2⟩

/-- What the history of an agent keeps: apart from the creation, announced twice, each transition of
the stored state is announced once, and they make a path. -/
def Suivie (agentId : String) (σ : Suivi) : Prop :=
  match σ.m.etat agentId with
  | none => σ.annonces = [] ∧ σ.traversees = []
  | some b => σ.annonces = (.created, .ready) :: σ.traversees ∧
      σ.traversees.head? = some (.created, .ready) ∧ Mene .created σ.traversees b ∧
      ∀ p ∈ σ.traversees, Permise p.1 p.2

theorem m_suivre (agentId : String) (σ : Suivi) (op : Operation) :
    (suivre agentId σ op).m = (σ.m.executer op).1 := by
  unfold suivre
  dsimp only
  split <;> rfl

theorem suivie_suivre (h : Suivie agentId σ) (op : Operation) :
    Suivie agentId (suivre agentId σ op) := by
  obtain ⟨paires, heffet, hemis⟩ := agit_executer σ.m op agentId
  have hdrop : ((σ.m.executer op).1.emisDe agentId).drop (σ.m.emisDe agentId).length = paires := by
    rw [hemis, List.drop_left]
  unfold Suivie at h
  unfold Suivie suivre
  dsimp only
  rw [hdrop]
  cases heffet with
  | rien hetat =>
      cases ha : σ.m.etat agentId with
      | none =>
          rw [ha] at h
          rw [ha] at hetat
          rw [if_neg (by simp)]
          dsimp only
          rw [hetat]
          simpa [traversee] using h
      | some a =>
          rw [ha] at h
          rw [ha] at hetat
          rw [hetat, if_neg (by simp)]
          dsimp only
          rw [hetat]
          simpa [traversee] using h
  | creation _ hnone hready =>
      rw [hnone] at h
      rw [hready, hnone, if_neg (by simp)]
      dsimp only
      rw [hready, h.1, h.2]
      refine ⟨rfl, rfl, ⟨rfl, rfl⟩, ?_⟩
      intro p hp
      rw [List.mem_singleton.mp hp]
      exact .inl (by decide)
  | @avance a b ha hb hpermise =>
      rw [ha] at h
      rw [ha, hb, if_neg (by simp)]
      dsimp only
      rw [hb]
      obtain ⟨hannonces, htete, hmene, hpermises⟩ := h
      rw [traversee, if_neg hpermise.ne]
      refine ⟨by rw [hannonces, List.cons_append], ?_, hmene.concat b, ?_⟩
      · rw [List.head?_append, htete]
        rfl
      · intro p hp
        rcases List.mem_append.mp hp with hp | hp
        · exact hpermises p hp
        · rw [List.mem_singleton.mp hp]
          exact hpermise
  | retrait hnone =>
      cases ha : σ.m.etat agentId with
      | none =>
          rw [ha] at h
          rw [hnone, if_neg (by simp)]
          dsimp only
          rw [hnone]
          simpa [traversee] using h
      | some a =>
          rw [hnone, if_pos (by simp)]
          dsimp only
          rw [hnone]
          exact ⟨rfl, rfl⟩

theorem suivie_apres (timeoutS : Rat) (agentId : String) (histoire : List Operation) :
    Suivie agentId (apres timeoutS agentId histoire) := by
  have hfold : ∀ σ, Suivie agentId σ → Suivie agentId (histoire.foldl (suivre agentId) σ) := by
    induction histoire with
    | nil => exact fun σ h => h
    | cons op histoire ih => exact fun σ h => ih _ (suivie_suivre h op)
  exact hfold _ ⟨rfl, rfl⟩

theorem not_traceFidele_of_etat (h : Suivie agentId σ) (hetat : σ.m.etat agentId = some b) :
    ¬ TraceFidele agentId σ := by
  intro hfidele
  rw [Suivie, hetat] at h
  have hdouble := hfidele.reelles
  rw [h.1] at hdouble
  have hlongueur := congrArg List.length hdouble
  rw [List.length_cons] at hlongueur
  omega

theorem etat_apres_of_not_cree (timeoutS : Rat) {histoire : List Operation}
    (h : ∀ op ∈ histoire, ¬ op.Cree agentId) :
    (apres timeoutS agentId histoire).m.etat agentId = none := by
  have hfold : ∀ σ : Suivi, σ.m.etat agentId = none →
      (histoire.foldl (suivre agentId) σ).m.etat agentId = none := by
    induction histoire with
    | nil => exact fun σ h => h
    | cons op histoire ih =>
        intro σ hσ
        refine ih (fun op hop => h op (List.mem_cons_of_mem _ hop)) _ ?_
        rw [m_suivre]
        exact (etat_executer_of_not_cree hσ (h op List.mem_cons_self)).1
  exact hfold _ rfl

/-- The trace of an agent is faithful throughout a history exactly when no operation of the history
creates it. -/
theorem traceFidele_iff (timeoutS : Rat) (agentId : String) (histoire : List Operation) :
    (∀ avant, avant <+: histoire → TraceFidele agentId (apres timeoutS agentId avant)) ↔
      ∀ op ∈ histoire, ¬ op.Cree agentId := by
  constructor
  · intro hfidele op hop hcree
    obtain ⟨avant, suite, rfl⟩ := List.append_of_mem hop
    have havant : avant ++ [op] <+: avant ++ op :: suite :=
      ⟨suite, by rw [List.append_assoc, List.singleton_append]⟩
    have hetat := etat_executer_of_cree (m := (apres timeoutS agentId avant).m) hcree
    obtain ⟨b, hb⟩ := Option.isSome_iff_exists.mp hetat
    have hb' : (apres timeoutS agentId (avant ++ [op])).m.etat agentId = some b := by
      rw [apres, List.foldl_append, List.foldl_cons, List.foldl_nil, m_suivre]
      exact hb
    exact not_traceFidele_of_etat (suivie_apres timeoutS agentId _) hb' (hfidele _ havant)
  · intro hjamais avant havant
    have hsuivie := suivie_apres timeoutS agentId avant
    have hetat := etat_apres_of_not_cree timeoutS fun op hop => hjamais op (havant.subset hop)
    rw [Suivie, hetat] at hsuivie
    refine ⟨hsuivie.1.trans hsuivie.2.symm, fun b hb => ?_, fun op e => executer_rejet⟩
    rw [hetat] at hb
    cases hb

/-- An agent that is created, started and completed is announced ready twice. -/
theorem creation_annoncee_deux_fois :
    (apres 300 "a" [.createAgent { id := "a" } 0 0, .startAgent "a" 1, .completeAgent "a" 2]).annonces
        = [(.created, .ready), (.created, .ready), (.ready, .running), (.running, .completed)] ∧
      ¬ (∀ avant, avant <+: [.createAgent { id := "a" } 0 0, .startAgent "a" 1,
          .completeAgent "a" 2] → TraceFidele "a" (apres 300 "a" avant)) := by
  refine ⟨by decide, fun hfidele => ?_⟩
  have hfin := hfidele _ List.prefix_rfl
  have hreelles := hfin.reelles
  revert hreelles
  decide

end Traces

end AgentLifecycleManager

end Hermes.Agent.Lifecycle
