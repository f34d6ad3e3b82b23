import Hermes.Lib.Instant
import Hermes.Lib.Tri
import Hermes.Ral.EventBus
import Mathlib.Data.String.Basic

/-! # The replay of the events

An event is written with the text of its date in UTC, and a window is cut by comparing this text with
those of its two bounds, each with the offset that the caller gave it.
-/

namespace Hermes.EventBus.Replay

open Lib

inductive Topic where
  | runtimeStarted
  | runtimeStopped
  | runtimeHealth
  | capabilityRegistered
  | capabilityUnregistered
  | taskCreated
  | taskStarted
  | taskCompleted
  | taskFailed
  | taskCancelled
  | memoryUpdated
  | memoryDeleted
  | knowledgeIndexed
  | skillGenerated
  | skillCompilationCompleted
  | workflowStarted
  | workflowCompleted
  | workflowFailed
  | evolutionTriggered
  | evolutionCompleted
  | delegationRequested
  | delegationCompleted
  | securityValidationRequested
  | securityValidationGranted
  | securityValidationDenied
  | systemMetrics
  | sdslMessage
  | agentMessage
  | runTurnEmitted
  deriving DecidableEq

namespace Topic

def value : Topic → String
  | runtimeStarted => "runtime.started"
  | runtimeStopped => "runtime.stopped"
  | runtimeHealth => "runtime.health"
  | capabilityRegistered => "capability.registered"
  | capabilityUnregistered => "capability.unregistered"
  | taskCreated => "task.created"
  | taskStarted => "task.started"
  | taskCompleted => "task.completed"
  | taskFailed => "task.failed"
  | taskCancelled => "task.cancelled"
  | memoryUpdated => "memory.updated"
  | memoryDeleted => "memory.deleted"
  | knowledgeIndexed => "knowledge.indexed"
  | skillGenerated => "skill.generated"
  | skillCompilationCompleted => "skill.compilation.completed"
  | workflowStarted => "workflow.started"
  | workflowCompleted => "workflow.completed"
  | workflowFailed => "workflow.failed"
  | evolutionTriggered => "evolution.triggered"
  | evolutionCompleted => "evolution.completed"
  | delegationRequested => "delegation.requested"
  | delegationCompleted => "delegation.completed"
  | securityValidationRequested => "security.validation.requested"
  | securityValidationGranted => "security.validation.granted"
  | securityValidationDenied => "security.validation.denied"
  | systemMetrics => "system.metrics"
  | sdslMessage => "sdsl.message"
  | agentMessage => "agent.message"
  | runTurnEmitted => "run.turn.emitted"

def tous : List Topic :=
  [runtimeStarted, runtimeStopped, runtimeHealth, capabilityRegistered, capabilityUnregistered,
    taskCreated, taskStarted, taskCompleted, taskFailed, taskCancelled, memoryUpdated, memoryDeleted,
    knowledgeIndexed, skillGenerated, skillCompilationCompleted, workflowStarted, workflowCompleted,
    workflowFailed, evolutionTriggered, evolutionCompleted, delegationRequested, delegationCompleted,
    securityValidationRequested, securityValidationGranted, securityValidationDenied, systemMetrics,
    sdslMessage, agentMessage, runTurnEmitted]

/-- `Topic(value)`. -/
def ofValue (v : String) : Option Topic := tous.find? fun t => t.value = v

theorem ofValue_value (t : Topic) : ofValue t.value = some t := by
  cases t <;> decide

end Topic

inductive Cible where
  | topic (t : Topic)
  | topicPattern (pattern : String)
  deriving DecidableEq

/-- `_topic_to_string`. -/
def Cible.texte : Cible → String
  | .topic t => t.value
  | .topicPattern pattern => pattern

structure Event (π : Type*) where
  id : String
  topic : Topic
  payload : π
  occurredAt : Horodatage
  publisher : Option String
  causationId : Option String
  deriving DecidableEq

/-- An event as `publish` builds it. -/
structure Publication (π : Type*) extends Event π where
  utc : occurredAt.champs.decalage = some 0

structure Ligne where
  id : String
  topic : String
  payload : String
  occurredAt : String
  publisher : Option String
  causationId : Option String
  deriving DecidableEq

structure Bus where
  conn : Bool
  events : List Ligne := []
  deriving DecidableEq

variable {π ρ : Type*} (dumps : π → Option String) (loads : String → ρ)

def texte (h : Horodatage) : String := String.ofList h.isoformat

def ligne (e : Event π) (payload : String) : Ligne where
  id := e.id
  topic := e.topic.value
  payload
  occurredAt := texte e.occurredAt
  publisher := e.publisher
  causationId := e.causationId

/-- Nothing when it raises: the bus is closed, the payload has no text, the id is taken, or the
database refuses the row. -/
def Bus.persist (s : Bus) (e : Event π) (accepte : Bool) : Option Bus :=
  if s.conn then
    match dumps e.payload with
    | some payload =>
        if accepte && !(s.events.map Ligne.id).contains e.id then
          some { s with events := s.events ++ [ligne e payload] }
        else none
    | none => none
  else none

/-- What `publish` does to the table. -/
def Bus.publish (s : Bus) (p : Publication π) (accepte : Bool) : Bus :=
  (s.persist dumps p.toEvent accepte).getD s

/-- The event of a row, when `Topic` and `fromisoformat` take its texts. -/
def Ligne.lire (l : Ligne) : Option (Event ρ) :=
  match Topic.ofValue l.topic, Horodatage.fromisoformat l.occurredAt.toList with
  | some topic, some occurredAt =>
      some ⟨l.id, topic, loads l.payload, occurredAt, l.publisher, l.causationId⟩
  | _, _ => none

def concerne (cible : Option Cible) (topic : String) : Bool :=
  match cible with
  | none => true
  | some c => topicMatches c.texte topic

/-- The rows of equal text come in the order of their insertion. -/
def Bus.replay (s : Bus) (since : Horodatage) (jusque : Option Horodatage) (cible : Option Cible) :
    Option (List (Event ρ)) :=
  if s.conn then
    let rows := (s.events.filter fun l =>
      decide (texte since ≤ l.occurredAt) &&
        jusque.all fun u => decide (l.occurredAt < texte u)).insertionSort
          fun a b => a.occurredAt ≤ b.occurredAt
    (rows.filter fun l => concerne cible l.topic).mapM fun l => l.lire loads
  else some []

/-- A replay of an event: its payload has been written and read back. -/
def relu (e : Event π) : Event ρ where
  id := e.id
  topic := e.topic
  payload := loads ((dumps e.payload).getD "")
  occurredAt := e.occurredAt
  publisher := e.publisher
  causationId := e.causationId

/-- The publications, each with whether the database takes its row. -/
abbrev Histoire (π : Type*) := List (Publication π × Bool)

def Bus.apres : Bus → Histoire π → Bus
  | s, [] => s
  | s, (p, accepte) :: h => Bus.apres (s.publish dumps p accepte) h

def persistees : Bus → Histoire π → List (Publication π)
  | _, [] => []
  | s, (p, accepte) :: h =>
      if (s.persist dumps p.toEvent accepte).isSome then
        p :: persistees (s.publish dumps p accepte) h
      else persistees (s.publish dumps p accepte) h

variable {dumps loads}

theorem lire_ligne (e : Event π) {payload : String} (h : dumps e.payload = some payload) :
    (ligne e payload).lire loads = some (relu dumps loads e) := by
  have hdate : Horodatage.fromisoformat (ligne e payload).occurredAt.toList = some e.occurredAt := by
    change Horodatage.fromisoformat (String.ofList e.occurredAt.isoformat).toList = _
    rw [String.toList_ofList, Horodatage.fromisoformat_isoformat]
  have htopic : Topic.ofValue (ligne e payload).topic = some e.topic := Topic.ofValue_value e.topic
  unfold Ligne.lire
  rw [hdate, htopic]
  simp [relu, ligne, h]

theorem Bus.conn_publish (s : Bus) (p : Publication π) (accepte : Bool) :
    (s.publish dumps p accepte).conn = s.conn := by
  unfold Bus.publish Bus.persist
  split
  · split
    · split <;> rfl
    · rfl
  · rfl

/-- The row that a publication writes, if it writes one. -/
def ligneDe (dumps : π → Option String) (p : Publication π) : Ligne :=
  ligne p.toEvent ((dumps p.payload).getD "")

theorem Bus.events_publish (s : Bus) (p : Publication π) (accepte : Bool) :
    (s.publish dumps p accepte).events =
      s.events ++ if (s.persist dumps p.toEvent accepte).isSome then [ligneDe dumps p] else [] := by
  unfold Bus.publish Bus.persist
  split
  · split
    · next payload hpayload =>
      split
      · simp [ligneDe, hpayload]
      · simp
    · simp
  · simp

theorem events_apres (s : Bus) (h : Histoire π) :
    (s.apres dumps h).events = s.events ++ (persistees dumps s h).map (ligneDe dumps) := by
  induction h generalizing s with
  | nil => simp [Bus.apres, persistees]
  | cons item h ih =>
      obtain ⟨p, accepte⟩ := item
      rw [Bus.apres, ih, Bus.events_publish, persistees]
      split_ifs <;> simp

theorem conn_apres (s : Bus) (h : Histoire π) : (s.apres dumps h).conn = s.conn := by
  induction h generalizing s with
  | nil => rfl
  | cons item h ih => rw [Bus.apres, ih, Bus.conn_publish]

theorem dumps_of_mem_persistees {s : Bus} {h : Histoire π} {p : Publication π}
    (hp : p ∈ persistees dumps s h) : ∃ payload, dumps p.payload = some payload := by
  induction h generalizing s with
  | nil => cases hp
  | cons item h ih =>
      obtain ⟨q, accepte⟩ := item
      rw [persistees] at hp
      split_ifs at hp with hsome
      · rcases List.mem_cons.mp hp with rfl | hp
        · unfold Bus.persist at hsome
          split at hsome
          · split at hsome
            · next payload hpayload => exact ⟨payload, hpayload⟩
            · cases hsome
          · cases hsome
        · exact ih hp
      · exact ih hp

structure Borne where
  date : Horodatage
  situee : date.champs.decalage.isSome

def Borne.instant (b : Borne) : Int := b.date.champs.instant

def Event.instant (e : Event π) : Int := e.occurredAt.champs.instant

theorem texte_lt_iff (p : Publication π) (b : Borne) :
    texte p.occurredAt < texte b.date ↔ p.toEvent.instant < b.date.repere := by
  obtain ⟨d, hd⟩ := Option.isSome_iff_exists.mp b.situee
  rw [texte, texte, String.lt_iff_toList_lt, String.toList_ofList, String.toList_ofList]
  exact Horodatage.utc_lt_iff p.utc hd

theorem texte_le_iff (b : Borne) (p : Publication π) :
    texte b.date ≤ texte p.occurredAt ↔ b.date.repere ≤ p.toEvent.instant := by
  rw [← not_lt, texte_lt_iff, not_lt]

theorem texte_le_texte_iff (p q : Publication π) :
    texte p.occurredAt ≤ texte q.occurredAt ↔ p.toEvent.instant ≤ q.toEvent.instant := by
  rw [texte_le_iff ⟨p.occurredAt, by rw [p.utc]; rfl⟩ q, Horodatage.repere_utc p.utc]
  rfl

def lue (since jusque : Borne) (cible : Option Cible) (p : Publication π) : Bool :=
  decide (since.date.repere ≤ p.toEvent.instant ∧ p.toEvent.instant < jusque.date.repere) &&
    concerne cible p.topic.value

theorem mapM_lire {ps : List (Publication π)}
    (h : ∀ p ∈ ps, ∃ payload, dumps p.payload = some payload) :
    (ps.map (ligneDe dumps)).mapM (fun l => l.lire loads) =
      some (ps.map fun p => relu dumps loads p.toEvent) := by
  induction ps with
  | nil => rfl
  | cons p ps ih =>
      obtain ⟨payload, hpayload⟩ := h p List.mem_cons_self
      have htete : (ligneDe dumps p).lire loads = some (relu dumps loads p.toEvent) := by
        unfold ligneDe
        rw [hpayload]
        exact lire_ligne p.toEvent hpayload
      rw [List.map_cons, List.mapM_cons, htete,
        ih fun q hq => h q (List.mem_cons_of_mem p hq)]
      rfl

abbrev avant (p q : Publication π) : Prop := p.toEvent.instant ≤ q.toEvent.instant

instance : IsTrans (Publication π) avant := ⟨fun _ _ _ => le_trans⟩

instance : Std.Total (@avant π) := ⟨fun _ _ => le_total _ _⟩

theorem persistees_ferme (events : List Ligne) (h : Histoire π) :
    persistees dumps ⟨false, events⟩ h = [] := by
  induction h with
  | nil => rfl
  | cons item h ih => exact ih

theorem replay_eq (conn : Bool) (h : Histoire π) (since jusque : Borne) (cible : Option Cible) :
    ((Bus.mk conn []).apres dumps h).replay loads since.date (some jusque.date) cible =
      some ((((persistees dumps ⟨conn, []⟩ h).insertionSort avant).filter
        (lue since jusque cible)).map fun p => relu dumps loads p.toEvent) := by
  cases conn with
  | false =>
      unfold Bus.replay
      rw [conn_apres, persistees_ferme]
      rfl
  | true =>
      have hdumps : ∀ p ∈ persistees dumps ⟨true, []⟩ h, ∃ payload, dumps p.payload = some payload :=
        fun p => dumps_of_mem_persistees
      unfold Bus.replay
      rw [conn_apres, if_pos rfl, events_apres, List.nil_append]
      revert hdumps
      generalize persistees dumps ⟨true, []⟩ h = ps
      intro hdumps
      have htri : ∀ qs : List (Publication π),
          (qs.map (ligneDe dumps)).insertionSort (fun a b => a.occurredAt ≤ b.occurredAt) =
            (qs.insertionSort avant).map (ligneDe dumps) := by
        intro qs
        refine (List.map_insertionSort _ _ _ _ ?_).symm
        exact fun p _ q _ => (texte_le_texte_iff p q).symm
      dsimp only
      rw [List.filter_map, htri, List.filter_map, mapM_lire, filter_insertionSort,
        filter_insertionSort, List.filter_filter]
      · congr 4
        funext p
        change (concerne cible p.topic.value && (decide (texte since.date ≤ texte p.occurredAt) &&
          decide (texte p.occurredAt < texte jusque.date))) = _
        rw [Bool.and_comm]
        simp only [lue, texte_le_iff, texte_lt_iff, Bool.decide_and]
      · intro p hp
        have hmem := (List.mem_filter.mp hp).1
        rw [List.mem_insertionSort] at hmem
        exact hdumps p (List.mem_filter.mp hmem).1

def attendue (since jusque : Borne) (cible : Option Cible) (p : Publication π) : Bool :=
  decide (since.instant ≤ p.toEvent.instant ∧ p.toEvent.instant < jusque.instant) &&
    concerne cible p.topic.value

section Rejeux

variable (dumps : π → Option String) (loads : String → ρ) (conn : Bool) (h : Histoire π)
  (cible : Option Cible)

/-- What the replay of a window answers after a history. -/
def rejeu (since jusque : Borne) : Option (List (Event ρ)) :=
  ((Bus.mk conn []).apres dumps h).replay loads since.date (some jusque.date) cible

/-- The events of the window that have a row and that the pattern matches, each once and in the order
of time. -/
def Exact (since jusque : Borne) : Prop :=
  ∃ events, rejeu dumps loads conn h cible since jusque = some events ∧
    events.Perm (((persistees dumps ⟨conn, []⟩ h).filter (attendue since jusque cible)).map
      fun p => relu dumps loads p.toEvent) ∧
    events.Pairwise fun a b => a.instant ≤ b.instant

/-- No event that the pattern matches stands in one of two windows and out of the other: the one
between the bounds, and the one between what their clocks read, taken for UTC and put one
microsecond later where there is an offset. -/
def Epargne (since jusque : Borne) : Prop :=
  ∀ p ∈ persistees dumps ⟨conn, []⟩ h, concerne cible p.topic.value →
    (since.date.repere ≤ p.toEvent.instant ∧ p.toEvent.instant < jusque.date.repere ↔
      since.instant ≤ p.toEvent.instant ∧ p.toEvent.instant < jusque.instant)

end Rejeux

variable {conn : Bool} {h : Histoire π} {cible : Option Cible} {since jusque : Borne}

theorem Epargne.filter_eq (hepargne : Epargne dumps conn h cible since jusque) {qs : List (Publication π)}
    (hqs : ∀ p ∈ qs, p ∈ persistees dumps ⟨conn, []⟩ h) :
    qs.filter (lue since jusque cible) = qs.filter (attendue since jusque cible) := by
  apply List.filter_congr
  intro p hp
  unfold lue attendue
  cases hconcerne : concerne cible p.topic.value with
  | false => rw [Bool.and_false, Bool.and_false]
  | true => rw [decide_eq_decide.mpr (hepargne p (hqs p hp) hconcerne)]

theorem relu_mem_iff {f : Publication π → Bool}
    (hf : ∀ p q : Publication π, p.occurredAt = q.occurredAt → p.topic = q.topic → f p = f q)
    {qs : List (Publication π)} {p : Publication π} (hp : p ∈ qs) :
    relu dumps loads p.toEvent ∈ (qs.filter f).map (fun q => relu dumps loads q.toEvent) ↔
      f p = true := by
  rw [List.mem_map]
  constructor
  · rintro ⟨q, hq, heq⟩
    rw [hf p q (congrArg Event.occurredAt heq).symm (congrArg Event.topic heq).symm]
    exact (List.mem_filter.mp hq).2
  · exact fun h => ⟨p, List.mem_filter.mpr ⟨hp, h⟩, rfl⟩

theorem exact_iff :
    Exact dumps loads conn h cible since jusque ↔ Epargne dumps conn h cible since jusque := by
  unfold Exact rejeu
  rw [replay_eq]
  constructor
  · rintro ⟨events, hevents, hperm, _⟩ p hp hconcerne
    obtain rfl := Option.some.inj hevents
    have hlue : ∀ p q : Publication π, p.occurredAt = q.occurredAt → p.topic = q.topic →
        lue since jusque cible p = lue since jusque cible q := by
      intro p q hdate htopic
      unfold lue Event.instant
      rw [hdate, htopic]
    have hattendue : ∀ p q : Publication π, p.occurredAt = q.occurredAt → p.topic = q.topic →
        attendue since jusque cible p = attendue since jusque cible q := by
      intro p q hdate htopic
      unfold attendue Event.instant
      rw [hdate, htopic]
    have hiff := hperm.mem_iff (a := relu dumps loads p.toEvent)
    rw [relu_mem_iff hlue ((List.mem_insertionSort _).mpr hp), relu_mem_iff hattendue hp] at hiff
    simpa only [lue, attendue, hconcerne, Bool.and_true, decide_eq_true_eq] using hiff
  · intro hepargne
    refine ⟨_, rfl, ?_, ?_⟩
    · rw [hepargne.filter_eq fun p hp => (List.mem_insertionSort _).mp hp]
      exact ((List.perm_insertionSort _ _).filter _).map _
    · rw [List.pairwise_map]
      exact (List.pairwise_insertionSort avant _).sublist List.filter_sublist

theorem filter_append_filter {qs : List (Publication π)} {a b c : Borne} (hqs : qs.Pairwise avant)
    (hab : a.instant ≤ b.instant) (hbc : b.instant ≤ c.instant) :
    qs.filter (attendue a b cible) ++ qs.filter (attendue b c cible) =
      qs.filter (attendue a c cible) := by
  induction qs with
  | nil => rfl
  | cons p qs ih =>
      obtain ⟨hapres, hqs⟩ := List.pairwise_cons.mp hqs
      have ih := ih hqs
      rw [List.filter_cons, List.filter_cons, List.filter_cons]
      by_cases hbp : b.instant ≤ p.toEvent.instant
      · -- what follows is in the second window or after it
        have hvide : qs.filter (attendue a b cible) = [] := by
          rw [List.filter_eq_nil_iff]
          intro q hq
          have hpq : p.toEvent.instant ≤ q.toEvent.instant := hapres q hq
          have hhors : ¬(a.instant ≤ q.toEvent.instant ∧ q.toEvent.instant < b.instant) := by omega
          rw [attendue, decide_eq_false hhors]
          exact Bool.false_ne_true
        have hhors : ¬(a.instant ≤ p.toEvent.instant ∧ p.toEvent.instant < b.instant) := by omega
        have hfenetre : b.instant ≤ p.toEvent.instant ∧ p.toEvent.instant < c.instant ↔
            a.instant ≤ p.toEvent.instant ∧ p.toEvent.instant < c.instant := by omega
        have hmeme : attendue b c cible p = attendue a c cible p := by
          rw [attendue, attendue, decide_eq_decide.mpr hfenetre]
        rw [hvide, List.nil_append] at ih
        rw [hvide, ih, hmeme, attendue, decide_eq_false hhors, Bool.false_and]
        rfl
      · have hhors : ¬(b.instant ≤ p.toEvent.instant ∧ p.toEvent.instant < c.instant) := by omega
        have hfenetre : a.instant ≤ p.toEvent.instant ∧ p.toEvent.instant < b.instant ↔
            a.instant ≤ p.toEvent.instant ∧ p.toEvent.instant < c.instant := by omega
        have hmeme : attendue a b cible p = attendue a c cible p := by
          rw [attendue, attendue, decide_eq_decide.mpr hfenetre]
        have hfaux : attendue b c cible p = false := by
          rw [attendue, decide_eq_false hhors, Bool.false_and]
        rw [hmeme, hfaux, if_neg Bool.false_ne_true, ← ih]
        split_ifs <;> rfl

end Hermes.EventBus.Replay
