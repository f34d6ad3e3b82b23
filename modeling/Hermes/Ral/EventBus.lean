import Hermes.Lib.Dict
import Hermes.Lib.Runs

/-! # The event bus and its re-entrant handlers

`publish` persists the event and calls the handlers of the matching subscribers one after the
other, all under one lock that its own thread cannot take again.
-/

namespace Hermes.EventBus

open Lib

variable {π : Type*}

inductive Jeton where
  | lettre (c : Char)
  /-- `*`: within one level. -/
  | niveau
  /-- `**`: across levels. -/
  | tout
  deriving DecidableEq

/-- `_compile_pattern`, but for the pattern `*` alone. -/
def compilePattern : List Char → List Jeton
  | [] => []
  | '*' :: '*' :: reste => .tout :: compilePattern reste
  | '*' :: reste => .niveau :: compilePattern reste
  | c :: reste => .lettre c :: compilePattern reste

/-- A repeated class of characters, then the rest of the pattern. -/
def etoile (classe : Char → Bool) (suite : List Char → Bool) : List Char → Bool
  | [] => suite []
  | c :: texte => suite (c :: texte) || (classe c && etoile classe suite texte)

/-- The pattern reaches the end of the text, or a line feed that ends it. -/
def reconnait : List Jeton → List Char → Bool
  | [] => fun texte => texte == [] || texte == ['\n']
  | .lettre l :: jetons => fun
      | [] => false
      | c :: texte => c == l && reconnait jetons texte
  | .niveau :: jetons => etoile (fun c => c != '.') (reconnait jetons)
  | .tout :: jetons => etoile (fun c => c != '\n') (reconnait jetons)

def topicMatches (pattern topic : String) : Bool :=
  pattern == "*" || reconnait (compilePattern pattern.toList) topic.toList

example : topicMatches "task.*" "task.created" = true ∧
    topicMatches "task.*" "task.sub.created" = false ∧
    topicMatches "task.**" "task.sub.created" = true := by decide +kernel

structure Event (π : Type*) where
  id : Nat
  topic : String
  payload : π
  occurredAt : Int
  publisher : Option String
  causationId : Option Nat
  deriving DecidableEq

structure Ligne where
  id : Nat
  topic : String
  payload : String
  occurredAt : Int
  publisher : Option String
  causationId : Option Nat
  deriving DecidableEq

inductive Operation (π : Type*) where
  | publish (topic : String) (payload : π) (publisher : Option String) (causationId : Option Nat)
  | subscribe (pattern : String) (handler : Nat)
  | unsubscribe (id : Nat)
  | stats
  deriving DecidableEq

inductive Reponse where
  | rien
  | subscriptionId (id : Nat)
  | compteurs (persisted subscribers : Nat) (started stopped : Bool)
  | leve
  deriving DecidableEq

inductive Programme (π : Type*) where
  | fin (coroutine : Bool)
  /-- It raises, an `Exception` or what only derives from `BaseException`. -/
  | lever (exception : Bool)
  | appel (op : Operation π) (suite : Reponse → Programme π)

inductive Statut (π : Type*) where
  | prevue
  | enCours (reste : Programme π)
  | finie

structure Tache (π : Type*) where
  abonnement : Nat
  handler : Nat
  event : Event π
  statut : Statut π := .prevue

structure Bus (π : Type*) where
  /-- The thread that opened the connection, the only one that SQLite lets use it. -/
  conn : Option Nat := none
  filLoop : Nat := 0
  loopOuverte : Bool := true
  started : Bool := false
  stopped : Bool := false
  /-- `stop` is waiting for its cleanup task. -/
  arret : Bool := false
  verrou : Bool := false
  subscribers : Dict Nat (Option String × Nat) := []
  events : List Ligne := []
  taches : List (Tache π) := []
  /-- The bodies that have begun: through which subscription, on which event. -/
  recus : List (Nat × Nat) := []
  prochainEvent : Nat := 0
  prochainAbonnement : Nat := 0

structure Monde (π : Type*) where
  /-- `json.dumps(event.payload)`. -/
  dumps : π → Option String
  accepte : Ligne → Bool
  horloge : Nat → Int
  iscoroutinefunction : Nat → Bool
  corps : Nat → Nat → Event π → Programme π

inductive Issue (π : Type*) where
  | retourne (s : Bus π) (r : Reponse)
  | leve (s : Bus π)
  | bloque (s : Bus π)
  | epuise

inductive Execution (π : Type*) where
  | rendu (s : Bus π) (coroutine : Bool)
  | exception (s : Bus π)
  | base (s : Bus π)
  | bloque (s : Bus π)
  | epuise

def executer (appel : Bus π → Operation π → Issue π) : Programme π → Bus π → Execution π
  | .fin coroutine, s => .rendu s coroutine
  | .lever true, s => .exception s
  | .lever false, s => .base s
  | .appel op suite, s =>
      match appel s op with
      | .retourne s' r => executer appel (suite r) s'
      | .leve s' => executer appel (suite .leve) s'
      | .bloque s' => .bloque s'
      | .epuise => .epuise

/-- `_AsyncGuard.invoke`: a closed loop loses the call. -/
def Bus.invoke (s : Bus π) (abonnement handler : Nat) (event : Event π) : Bus π :=
  if s.loopOuverte then
    { s with taches := s.taches ++
        [{ abonnement := abonnement, handler := handler, event := event }] }
  else s

section Operations

variable (m : Monde π)

def ligneDe (e : Event π) (payload : String) : Ligne where
  id := e.id
  topic := e.topic
  payload := payload
  occurredAt := e.occurredAt
  publisher := e.publisher
  causationId := e.causationId

def Bus.persist (s : Bus π) (fil : Nat) (e : Event π) : Option (Bus π) :=
  if s.conn = some fil then
    match m.dumps e.payload with
    | none => none
    | some payload =>
        if m.accepte (ligneDe e payload) then
          some { s with events := s.events ++ [ligneDe e payload] }
        else none
  else none

def dispatch (appel : Bus π → Operation π → Issue π) (s : Bus π)
    (item : Nat × Option String × Nat) (e : Event π) : Issue π :=
  if m.iscoroutinefunction item.2.2 then .retourne (s.invoke item.1 item.2.2 e) .rien
  else
    match executer appel (m.corps item.2.2 item.1 e)
      { s with recus := s.recus ++ [(item.1, e.id)] } with
    | .rendu s' false => .retourne s' .rien
    | .rendu s' true => .retourne (s'.invoke item.1 item.2.2 e) .rien
    | .exception s' => .retourne s' .rien
    | .base s' => .leve s'
    | .bloque s' => .bloque s'
    | .epuise => .epuise

/-- `_pattern is None or _topic_matches(_pattern, topic.value)`. -/
def concerne (topic : String) (item : Nat × Option String × Nat) : Bool :=
  match item.2.1 with
  | none => true
  | some pattern => topicMatches pattern topic

def notifier (appel : Bus π → Operation π → Issue π) (e : Event π) :
    List (Nat × Option String × Nat) → Bus π → Issue π
  | [], s => .retourne s .rien
  | item :: items, s =>
      if concerne e.topic item then
        match dispatch m appel s item e with
        | .retourne s' _ => notifier appel e items s'
        | issue => issue
      else notifier appel e items s

def Issue.liberer : Issue π → Issue π
  | .retourne s r => .retourne { s with verrou := false } r
  | .leve s => .leve { s with verrou := false }
  | issue => issue

/-- The block of `publish` under the lock. -/
def publier (appel : Bus π → Operation π → Issue π) (fil : Nat) (s : Bus π) (e : Event π) :
    Issue π :=
  match s.persist m fil e with
  | none => .retourne s .rien
  | some s' => notifier m appel e s'.subscribers s'

def nouvelEvent (s : Bus π) (topic : String) (payload : π) (publisher : Option String)
    (causationId : Option Nat) : Event π where
  id := s.prochainEvent
  topic := topic
  payload := payload
  occurredAt := m.horloge s.prochainEvent
  publisher := publisher
  causationId := causationId

/-- A call of a thread, at most `n` calls of the bus within one another. -/
def appeler : Nat → Nat → Bus π → Operation π → Issue π
  | 0, _, s, _ => if s.verrou then .bloque s else .epuise
  | n + 1, fil, s, op =>
      if s.verrou then .bloque s
      else
        match op with
        | .publish topic payload publisher causationId =>
            (publier m (appeler n fil) fil
              { s with verrou := true, prochainEvent := s.prochainEvent + 1 }
              (nouvelEvent m s topic payload publisher causationId)).liberer
        | .subscribe pattern handler =>
            .retourne { s with
              subscribers := s.subscribers.set s.prochainAbonnement (some pattern, handler)
              prochainAbonnement := s.prochainAbonnement + 1 }
              (.subscriptionId s.prochainAbonnement)
        | .unsubscribe id => .retourne { s with subscribers := s.subscribers.erase id } .rien
        | .stats =>
            .retourne s (.compteurs (if s.conn.isSome then s.events.length else 0)
              s.subscribers.length s.started s.stopped)

inductive Evenement (π : Type*) where
  | start (fil : Nat)
  /-- `stop` up to its await, then what follows it. -/
  | stop
  | stopFin
  | fermerLoop
  | appel (fil : Nat) (op : Operation π)
  /-- The loop resumes one of the calls it owes, up to its next call of the bus. -/
  | tache (i : Nat)

def Bus.avancer (s : Bus π) (i : Nat) (t : Tache π) (statut : Statut π) : Bus π :=
  { s with taches := s.taches.set i { t with statut := statut } }

def resumer (s : Bus π) (i : Nat) (t : Tache π) : Option (Bus π) :=
  match t.statut with
  | .prevue =>
      some ({ s with recus := s.recus ++ [(t.abonnement, t.event.id)] }.avancer i t
        (.enCours (m.corps t.handler t.abonnement t.event)))
  | .enCours (.appel op suite) =>
      match appeler m 1 s.filLoop s op with
      | .retourne s' r => some (s'.avancer i t (.enCours (suite r)))
      | .leve s' => some (s'.avancer i t (.enCours (suite .leve)))
      | .bloque s' => some s'
      | .epuise => none
  | .enCours _ => some (s.avancer i t .finie)
  | .finie => none

def Issue.etat : Issue π → Option (Bus π)
  | .retourne s _ => some s
  | .leve s => some s
  | .bloque s => some s
  | .epuise => none

def pas (s : Bus π) : Evenement π → Option (Bus π)
  | .start fil =>
      if s.started then some s
      else
        some { s with
          conn := some fil
          filLoop := fil
          loopOuverte := true
          started := true
          stopped := false }
  | .stop =>
      if s.stopped || !s.started then some s
      else some { s with stopped := true, started := false, arret := true }
  | .stopFin =>
      if s.arret && !s.verrou then
        some { s with arret := false, subscribers := [], conn := none }
      else none
  | .fermerLoop => some { s with loopOuverte := false }
  | .appel fil op => (appeler m 1 fil s op).etat
  | .tache i =>
      if s.loopOuverte then
        match s.taches[i]? with
        | none => none
        | some t => resumer m s i t
      else none

end Operations

/-- The loop owes this event to this subscription. -/
def Tache.doit (t : Tache π) (abonnement event : Nat) : Bool :=
  match t.statut with
  | .prevue => t.abonnement == abonnement && t.event.id == event
  | _ => false

/-- How many times a subscription has received an event or will. -/
def Bus.recu (s : Bus π) (abonnement event : Nat) : Nat :=
  s.recus.count (abonnement, event) + s.taches.countP fun t => t.doit abonnement event

def Bus.lignes (s : Bus π) (event : Nat) : Nat :=
  s.events.countP fun l => l.id == event

/-- From `s` to `s'`, nothing but deliveries of the event. -/
structure Diffuse (e : Event π) (s s' : Bus π) (recus : List (Nat × Nat))
    (taches : List (Tache π)) : Prop where
  etat : s' = { s with recus := s.recus ++ recus, taches := s.taches ++ taches }
  recus : ∀ r ∈ recus, r.2 = e.id
  taches : ∀ t ∈ taches, t.event.id = e.id ∧ t.statut = .prevue

section Deliveries

variable {m : Monde π} {e : Event π} {s s' s'' : Bus π}

theorem Diffuse.rfl' : Diffuse e s s [] [] := by
  refine ⟨?_, by simp, by simp⟩
  simp

theorem Diffuse.trans {r r' : List (Nat × Nat)} {t t' : List (Tache π)}
    (h : Diffuse e s s' r t) (h' : Diffuse e s' s'' r' t') :
    Diffuse e s s'' (r ++ r') (t ++ t') := by
  constructor
  · rw [h'.etat, h.etat]
    simp
  · intro x hx
    exact (List.mem_append.mp hx).elim (h.recus x) (h'.recus x)
  · intro x hx
    exact (List.mem_append.mp hx).elim (h.taches x) (h'.taches x)

theorem Diffuse.recu_autre {r : List (Nat × Nat)} {t : List (Tache π)} (h : Diffuse e s s' r t)
    {abonnement event : Nat} (hne : event ≠ e.id) :
    s'.recu abonnement event = s.recu abonnement event := by
  have hrecus : r.count (abonnement, event) = 0 := by
    apply List.count_eq_zero.mpr
    intro hmem
    exact hne (h.recus _ hmem)
  have htaches : t.countP (fun t => t.doit abonnement event) = 0 := by
    apply List.countP_eq_zero.mpr
    intro x hx
    have hid := h.taches x hx
    simp [Tache.doit, hid.2, hid.1, Ne.symm hne]
  rw [h.etat]
  simp only [Bus.recu, List.count_append, List.countP_append]
  omega

theorem appeler_verrou (n fil : Nat) (op : Operation π) (h : s.verrou = true) :
    appeler m n fil s op = .bloque s := by
  cases n with
  | zero => simp [appeler, h]
  | succ n => simp [appeler, h]

theorem executer_verrou (n fil : Nat) (p : Programme π) (h : s.verrou = true) :
    executer (appeler m n fil) p s =
      match p with
      | .fin coroutine => .rendu s coroutine
      | .lever true => .exception s
      | .lever false => .base s
      | .appel _ _ => .bloque s := by
  cases p with
  | fin coroutine => rfl
  | lever exception => cases exception <;> rfl
  | appel op suite => simp [executer, appeler_verrou n fil op h]

/-- How many times the subscriber receives the event, if its turn ever ends. -/
def coups (m : Monde π) (loopOuverte : Bool) (item : Nat × Option String × Nat)
    (e : Event π) : Option Nat :=
  if m.iscoroutinefunction item.2.2 then some loopOuverte.toNat
  else
    match m.corps item.2.2 item.1 e with
    | .fin false => some 1
    | .fin true => some (1 + loopOuverte.toNat)
    | .lever true => some 1
    | .lever false => none
    | .appel _ _ => none

/-- The calls that `invoke` leaves to the loop. -/
def Bus.prevues (s : Bus π) (item : Nat × Option String × Nat) (e : Event π) : List (Tache π) :=
  if s.loopOuverte then [{ abonnement := item.1, handler := item.2.2, event := e }] else []

theorem invoke_eq (s : Bus π) (item : Nat × Option String × Nat) (e : Event π) :
    s.invoke item.1 item.2.2 e = { s with taches := s.taches ++ s.prevues item e } := by
  unfold Bus.invoke Bus.prevues
  split <;> simp

theorem prevues_spec {item : Nat × Option String × Nat} :
    ∀ t ∈ s.prevues item e, t.event.id = e.id ∧ t.statut = .prevue := by
  intro t ht
  unfold Bus.prevues at ht
  split at ht
  · rw [List.mem_singleton] at ht
    subst ht
    exact ⟨rfl, rfl⟩
  · cases ht

theorem countP_prevues (s : Bus π) (item : Nat × Option String × Nat) (e : Event π) (k : Nat) :
    (s.prevues item e).countP (fun t => t.doit k e.id) =
      if k = item.1 then s.loopOuverte.toNat else 0 := by
  unfold Bus.prevues
  split
  · next h =>
      by_cases hk : k = item.1
      · simp [Tache.doit, hk, h]
      · simp [Tache.doit, hk, Ne.symm hk]
  · next h => simp [h]

theorem recu_append (s : Bus π) (recus : List (Nat × Nat)) (taches : List (Tache π))
    (k event : Nat) :
    Bus.recu { s with recus := s.recus ++ recus, taches := s.taches ++ taches } k event =
      s.recu k event + recus.count (k, event) + taches.countP fun t => t.doit k event := by
  simp only [Bus.recu, List.count_append, List.countP_append]
  omega

structure Tour (e : Event π) (item : Nat × Option String × Nat) (n : Nat) (s s' : Bus π) : Prop where
  diffuse : ∃ recus taches, Diffuse e s s' recus taches
  recu : ∀ k, s'.recu k e.id = s.recu k e.id + if k = item.1 then n else 0

theorem tour_de {item : Nat × Option String × Nat} {recus : List (Nat × Nat)}
    {taches : List (Tache π)} {n : Nat}
    (h : Diffuse e s s' recus taches)
    (hn : ∀ k, recus.count (k, e.id) + taches.countP (fun t => t.doit k e.id) =
      if k = item.1 then n else 0) : Tour e item n s s' := by
  refine ⟨⟨recus, taches, h⟩, fun k => ?_⟩
  rw [h.etat, recu_append, ← hn k]
  omega

theorem count_singleton (item : Nat × Option String × Nat) (e : Event π) (k : Nat) :
    [(item.1, e.id)].count (k, e.id) = if k = item.1 then 1 else 0 := by
  by_cases hk : k = item.1
  · simp [hk]
  · simp [hk, Ne.symm hk]

theorem diffuse_corps (s : Bus π) (item : Nat × Option String × Nat) (e : Event π) :
    Diffuse e s { s with recus := s.recus ++ [(item.1, e.id)] } [(item.1, e.id)] [] := by
  refine ⟨by simp, ?_, by simp⟩
  intro r hr
  rw [List.mem_singleton] at hr
  rw [hr]

theorem diffuse_invoke (s : Bus π) (item : Nat × Option String × Nat) (e : Event π) :
    Diffuse e s (s.invoke item.1 item.2.2 e) [] (s.prevues item e) := by
  refine ⟨?_, by simp, prevues_spec⟩
  rw [invoke_eq]
  simp

theorem dispatch_spec (n fil : Nat) (item : Nat × Option String × Nat) (h : s.verrou = true) :
    match coups m s.loopOuverte item e with
    | some c => ∃ s', dispatch m (appeler m n fil) s item e = .retourne s' .rien ∧
        Tour e item c s s'
    | none => ∃ s', (dispatch m (appeler m n fil) s item e = .leve s' ∨
        dispatch m (appeler m n fil) s item e = .bloque s') ∧
          ∃ recus taches, Diffuse e s s' recus taches := by
  unfold coups dispatch
  by_cases hfn : m.iscoroutinefunction item.2.2 = true
  · simp only [hfn, if_true]
    refine ⟨_, rfl, tour_de (diffuse_invoke s item e) fun k => ?_⟩
    rw [countP_prevues]
    simp
  · simp only [hfn, Bool.false_eq_true, if_false]
    rw [executer_verrou (s := { s with recus := s.recus ++ [(item.1, e.id)] }) n fil _ h]
    have hcorps := diffuse_corps s item e
    have hune : ∀ k, [(item.1, e.id)].count (k, e.id) +
        ([] : List (Tache π)).countP (fun t => t.doit k e.id) = if k = item.1 then 1 else 0 := by
      intro k
      rw [count_singleton]
      rfl
    cases hp : m.corps item.2.2 item.1 e with
    | fin coroutine =>
        cases coroutine with
        | false => exact ⟨_, rfl, tour_de hcorps hune⟩
        | true =>
            refine ⟨_, rfl, tour_de (hcorps.trans (diffuse_invoke _ item e)) fun k => ?_⟩
            rw [List.append_nil, List.nil_append, count_singleton, countP_prevues]
            split <;> rfl
    | lever exception =>
        cases exception with
        | true => exact ⟨_, rfl, tour_de hcorps hune⟩
        | false => exact ⟨_, .inl rfl, _, _, hcorps⟩
    | appel op suite => exact ⟨_, .inr rfl, _, _, hcorps⟩

theorem Diffuse.verrou {r : List (Nat × Nat)} {t : List (Tache π)} (h : Diffuse e s s' r t) :
    s'.verrou = s.verrou := by
  rw [h.etat]

theorem Diffuse.loopOuverte {r : List (Nat × Nat)} {t : List (Tache π)}
    (h : Diffuse e s s' r t) : s'.loopOuverte = s.loopOuverte := by
  rw [h.etat]

/-- The receptions of a subscriber whose turn ends. -/
def receptions (m : Monde π) (loopOuverte : Bool) (e : Event π)
    (item : Nat × Option String × Nat) : Nat :=
  if concerne e.topic item then (coups m loopOuverte item e).getD 0 else 0

theorem notifier_cons (n fil : Nat) {item : Nat × Option String × Nat}
    (items : List (Nat × Option String × Nat)) (h : s.verrou = true)
    (hfin : concerne e.topic item = true → (coups m s.loopOuverte item e).isSome) :
    ∃ s', notifier m (appeler m n fil) e (item :: items) s =
        notifier m (appeler m n fil) e items s' ∧
      Tour e item (receptions m s.loopOuverte e item) s s' := by
  by_cases hc : concerne e.topic item = true
  · have hspec := dispatch_spec (m := m) (e := e) n fil item h
    obtain ⟨c, hcoups⟩ := Option.isSome_iff_exists.mp (hfin hc)
    rw [hcoups] at hspec
    obtain ⟨s', hdispatch, htour⟩ := hspec
    refine ⟨s', ?_, ?_⟩
    · simp [notifier, hc, hdispatch]
    · simpa [receptions, hc, hcoups] using htour
  · refine ⟨s, ?_, ⟨[], [], Diffuse.rfl'⟩, fun k => ?_⟩
    · simp [notifier, hc]
    · simp [receptions, hc]

theorem notifier_retourne (n fil : Nat) {items : List (Nat × Option String × Nat)}
    (h : s.verrou = true)
    (hfin : ∀ item ∈ items, concerne e.topic item = true →
      (coups m s.loopOuverte item e).isSome) :
    ∃ s', notifier m (appeler m n fil) e items s = .retourne s' .rien ∧
      (∃ recus taches, Diffuse e s s' recus taches) ∧
      ((items.map Prod.fst).Nodup →
        (∀ item ∈ items, s'.recu item.1 e.id =
          s.recu item.1 e.id + receptions m s.loopOuverte e item) ∧
        ∀ k, k ∉ items.map Prod.fst → s'.recu k e.id = s.recu k e.id) := by
  induction items generalizing s with
  | nil => exact ⟨s, rfl, ⟨[], [], Diffuse.rfl'⟩, fun _ => ⟨by simp, fun _ _ => rfl⟩⟩
  | cons item items ih =>
      obtain ⟨s₁, heq, htour⟩ := notifier_cons n fil items h
        (hfin item List.mem_cons_self)
      obtain ⟨recus, taches, hdiffuse⟩ := htour.diffuse
      have hfin₁ : ∀ item ∈ items, concerne e.topic item = true →
          (coups m s₁.loopOuverte item e).isSome := by
        intro item' hitem' hc
        rw [hdiffuse.loopOuverte]
        exact hfin item' (List.mem_cons_of_mem _ hitem') hc
      obtain ⟨s', hnotifier, ⟨recus', taches', hdiffuse'⟩, hcounts⟩ :=
        ih (hdiffuse.verrou.trans h) hfin₁
      refine ⟨s', heq.trans hnotifier, ⟨_, _, hdiffuse.trans hdiffuse'⟩, fun hkeys => ?_⟩
      obtain ⟨hnot, hrest⟩ := List.nodup_cons.mp hkeys
      obtain ⟨hitems, hautres⟩ := hcounts hrest
      constructor
      · intro item' hitem'
        rcases List.mem_cons.mp hitem' with rfl | hmem
        · rw [hautres _ hnot, htour.recu, if_pos rfl]
        · have hne : item'.1 ≠ item.1 := by
            intro hkey
            exact hnot (hkey ▸ List.mem_map_of_mem hmem)
          rw [hitems item' hmem, htour.recu, if_neg hne, hdiffuse.loopOuverte]
          rfl
      · intro k hk
        rw [List.map_cons, List.mem_cons, not_or] at hk
        rw [hautres k hk.2, htour.recu, if_neg hk.1]
        rfl

theorem notifier_interrompu (n fil : Nat) {items : List (Nat × Option String × Nat)}
    (h : s.verrou = true)
    (hfin : ∃ item ∈ items, concerne e.topic item = true ∧
      coups m s.loopOuverte item e = none) :
    ∃ s', (notifier m (appeler m n fil) e items s = .leve s' ∨
      notifier m (appeler m n fil) e items s = .bloque s') ∧
        ∃ recus taches, Diffuse e s s' recus taches := by
  induction items generalizing s with
  | nil =>
      obtain ⟨item, hitem, _⟩ := hfin
      cases hitem
  | cons item items ih =>
      obtain ⟨fautif, hfautif, hc', hnone⟩ := hfin
      by_cases hc : concerne e.topic item = true
      · have hspec := dispatch_spec (m := m) (e := e) n fil item h
        cases hcoups : coups m s.loopOuverte item e with
        | none =>
            rw [hcoups] at hspec
            obtain ⟨s', hissue, hdiff⟩ := hspec
            refine ⟨s', ?_, hdiff⟩
            rcases hissue with hissue | hissue
            · exact .inl (by simp [notifier, hc, hissue])
            · exact .inr (by simp [notifier, hc, hissue])
        | some c =>
            rw [hcoups] at hspec
            obtain ⟨s₁, hdispatch, htour⟩ := hspec
            obtain ⟨recus, taches, hdiffuse⟩ := htour.diffuse
            have hmem : fautif ∈ items := by
              rcases List.mem_cons.mp hfautif with rfl | hmem
              · rw [hcoups] at hnone
                cases hnone
              · exact hmem
            have heq : notifier m (appeler m n fil) e (item :: items) s =
                notifier m (appeler m n fil) e items s₁ := by
              simp [notifier, hc, hdispatch]
            obtain ⟨s', hissue, recus', taches', hdiff⟩ := ih (hdiffuse.verrou.trans h)
              ⟨fautif, hmem, hc', hdiffuse.loopOuverte ▸ hnone⟩
            rw [heq]
            exact ⟨s', hissue, _, _, hdiffuse.trans hdiff⟩
      · have hmem : fautif ∈ items := by
          rcases List.mem_cons.mp hfautif with rfl | hmem
          · exact absurd hc' hc
          · exact hmem
        have heq : notifier m (appeler m n fil) e (item :: items) s =
            notifier m (appeler m n fil) e items s := by
          simp [notifier, hc]
        rw [heq]
        exact ih h ⟨fautif, hmem, hc', hnone⟩

theorem notifier_etat (n fil : Nat) (items : List (Nat × Option String × Nat))
    (h : s.verrou = true) (hs : (notifier m (appeler m n fil) e items s).liberer.etat = some s') :
    ∃ s₁ recus taches verrou, Diffuse e s s₁ recus taches ∧
      s' = { s₁ with verrou := verrou } := by
  by_cases hfin : ∃ item ∈ items, concerne e.topic item = true ∧
      coups m s.loopOuverte item e = none
  · obtain ⟨s₁, hissue, recus, taches, hdiffuse⟩ := notifier_interrompu n fil h hfin
    rcases hissue with hissue | hissue
    · rw [hissue] at hs
      cases hs
      exact ⟨s₁, recus, taches, false, hdiffuse, rfl⟩
    · rw [hissue] at hs
      cases hs
      exact ⟨s', recus, taches, s'.verrou, hdiffuse, rfl⟩
  · have hsome : ∀ item ∈ items, concerne e.topic item = true →
        (coups m s.loopOuverte item e).isSome := by
      intro item hitem hc
      rw [Option.isSome_iff_ne_none]
      intro hnone
      exact hfin ⟨item, hitem, hc, hnone⟩
    obtain ⟨s₁, hissue, ⟨recus, taches, hdiffuse⟩, _⟩ := notifier_retourne n fil h hsome
    rw [hissue] at hs
    cases hs
    exact ⟨s₁, recus, taches, false, hdiffuse, rfl⟩

end Deliveries

structure Frais (s : Bus π) : Prop where
  cles : s.subscribers.keys.Nodup
  recu : ∀ k i, s.prochainEvent ≤ i → s.recu k i = 0
  lignes : ∀ i, s.prochainEvent ≤ i → s.lignes i = 0

/-- The rows and the receptions of the events published so far stay as they are. -/
structure Suit (s s' : Bus π) : Prop where
  prochain : s.prochainEvent ≤ s'.prochainEvent
  recu : ∀ k i, i < s.prochainEvent → s'.recu k i = s.recu k i
  lignes : ∀ i, i < s.prochainEvent → s'.lignes i = s.lignes i
  frais : Frais s → Frais s'

section Steps

variable {m : Monde π} {s s' s'' : Bus π}

theorem Suit.refl (s : Bus π) : Suit s s :=
  ⟨Nat.le_refl _, fun _ _ _ => rfl, fun _ _ => rfl, id⟩

theorem Suit.trans (h : Suit s s') (h' : Suit s' s'') : Suit s s'' := by
  have hle := h.prochain
  have hle' := h'.prochain
  constructor
  · omega
  · intro k i hi
    rw [h'.recu k i (by omega), h.recu k i hi]
  · intro i hi
    rw [h'.lignes i (by omega), h.lignes i hi]
  · exact fun hfrais => h'.frais (h.frais hfrais)

theorem suit_de (hprochain : s'.prochainEvent = s.prochainEvent) (hevents : s'.events = s.events)
    (hrecu : ∀ k i, s'.recu k i = s.recu k i)
    (hcles : s.subscribers.keys.Nodup → s'.subscribers.keys.Nodup) : Suit s s' := by
  have hlignes : ∀ i, s'.lignes i = s.lignes i := by
    intro i
    rw [Bus.lignes, hevents]
    rfl
  constructor
  · omega
  · exact fun k i _ => hrecu k i
  · exact fun i _ => hlignes i
  · intro hfrais
    refine ⟨hcles hfrais.cles, fun k i hi => ?_, fun i hi => ?_⟩
    · rw [hrecu]
      exact hfrais.recu k i (hprochain ▸ hi)
    · rw [hlignes]
      exact hfrais.lignes i (hprochain ▸ hi)

theorem recu_avancer {i : Nat} {t : Tache π} (h : s.taches[i]? = some t) (statut : Statut π)
    (k event : Nat) :
    (s.avancer i t statut).recu k event + (t.doit k event).toNat =
      s.recu k event + ({ t with statut := statut }.doit k event).toNat := by
  obtain ⟨hlt, hget⟩ := List.getElem?_eq_some_iff.mp h
  have hset := List.countP_set (p := fun t => t.doit k event) (a := { t with statut := statut }) hlt
  have hpos : (t.doit k event).toNat ≤ s.taches.countP fun t => t.doit k event := by
    cases hdoit : t.doit k event with
    | false => exact Nat.zero_le _
    | true => exact List.countP_pos_iff.mpr ⟨t, List.mem_of_getElem? h, hdoit⟩
  rw [hget] at hset
  have hcond : ∀ b : Bool, (if b = true then 1 else 0) = b.toNat := by
    intro b
    cases b <;> rfl
  simp only [hcond] at hset
  simp only [Bus.avancer, Bus.recu, hset]
  omega

theorem persist_cas {fil : Nat} {e : Event π} (h : s.persist m fil e = some s') :
    ∃ payload, s.conn = some fil ∧ m.dumps e.payload = some payload ∧
      m.accepte (ligneDe e payload) = true ∧
      s' = { s with events := s.events ++ [ligneDe e payload] } := by
  unfold Bus.persist at h
  split at h
  · next hconn =>
      split at h
      · cases h
      · next payload hdumps =>
          split at h
          · next haccepte =>
              cases h
              exact ⟨payload, hconn, hdumps, haccepte, rfl⟩
          · cases h
  · cases h

theorem lignes_append (s : Bus π) (e : Event π) (payload : String) (i : Nat) :
    Bus.lignes { s with events := s.events ++ [ligneDe e payload] } i =
      s.lignes i + if e.id = i then 1 else 0 := by
  by_cases hi : e.id = i
  · simp [Bus.lignes, ligneDe, hi]
  · simp [Bus.lignes, ligneDe, hi]

theorem suit_publie {e : Event π} (he : e.id = s.prochainEvent)
    (hprochain : s'.prochainEvent = s.prochainEvent + 1)
    (hrecu : ∀ k i, i ≠ e.id → s'.recu k i = s.recu k i)
    (hlignes : ∀ i, i ≠ e.id → s'.lignes i = s.lignes i)
    (hcles : s'.subscribers = s.subscribers) : Suit s s' := by
  constructor
  · omega
  · exact fun k i hi => hrecu k i (by omega)
  · exact fun i hi => hlignes i (by omega)
  · intro hfrais
    refine ⟨hcles ▸ hfrais.cles, fun k i hi => ?_, fun i hi => ?_⟩
    · rw [hrecu k i (by omega)]
      exact hfrais.recu k i (by omega)
    · rw [hlignes i (by omega)]
      exact hfrais.lignes i (by omega)

theorem publier_suit {n fil : Nat} {e : Event π} (he : e.id = s.prochainEvent)
    (h : (publier m (appeler m n fil) fil
      { s with verrou := true, prochainEvent := s.prochainEvent + 1 } e).liberer.etat = some s') :
    Suit s s' ∧ ∃ taches, s'.taches = s.taches ++ taches := by
  unfold publier at h
  split at h
  · cases h
    refine ⟨suit_publie he rfl (fun _ _ _ => rfl) (fun _ _ => rfl) rfl, [], ?_⟩
    simp
  · next s₁ hpersist =>
      obtain ⟨payload, _, _, _, rfl⟩ := persist_cas hpersist
      obtain ⟨s₂, recus, taches, verrou, hdiffuse, rfl⟩ := notifier_etat n fil _ rfl h
      refine ⟨suit_publie he ?_ ?_ ?_ ?_, taches, ?_⟩
      · rw [hdiffuse.etat]
      · intro k i hi
        exact hdiffuse.recu_autre hi
      · intro i hi
        rw [hdiffuse.etat]
        have hligne := lignes_append s e payload i
        rw [if_neg (Ne.symm hi)] at hligne
        exact hligne
      · rw [hdiffuse.etat]
      · rw [hdiffuse.etat]

theorem appeler_suit {n fil : Nat} {op : Operation π}
    (h : (appeler m n fil s op).etat = some s') :
    Suit s s' ∧ ∃ taches, s'.taches = s.taches ++ taches := by
  by_cases hverrou : s.verrou = true
  · rw [appeler_verrou n fil op hverrou] at h
    cases h
    exact ⟨.refl s, [], by simp⟩
  · cases n with
    | zero =>
        simp only [appeler, hverrou] at h
        cases h
    | succ n =>
        cases op with
        | publish topic payload publisher causationId =>
            simp only [appeler, hverrou] at h
            exact publier_suit (e := nouvelEvent m s topic payload publisher causationId) rfl h
        | subscribe pattern handler =>
            simp only [appeler, hverrou] at h
            cases h
            refine ⟨suit_de rfl rfl (fun _ _ => rfl) fun hnodup => ?_, [], by simp⟩
            exact Dict.nodup_keys_set hnodup _ _
        | unsubscribe id =>
            simp only [appeler, hverrou] at h
            cases h
            refine ⟨suit_de rfl rfl (fun _ _ => rfl) fun hnodup => ?_, [], by simp⟩
            exact Dict.nodup_keys_erase hnodup _
        | stats =>
            simp only [appeler, hverrou] at h
            cases h
            exact ⟨.refl s, [], by simp⟩

theorem avancer_suit {i : Nat} {t : Tache π} {statut : Statut π} (h : s.taches[i]? = some t)
    (hdoit : ∀ k event, ({ t with statut := statut }.doit k event) = t.doit k event) :
    Suit s (s.avancer i t statut) := by
  refine suit_de rfl rfl (fun k event => ?_) id
  have hcount := recu_avancer h statut k event
  rw [hdoit] at hcount
  omega

theorem getElem?_of_append {i : Nat} {t : Tache π} {l extra : List (Tache π)}
    (h : l[i]? = some t) : (l ++ extra)[i]? = some t := by
  rw [List.getElem?_append_left (List.getElem?_eq_some_iff.mp h).1]
  exact h

theorem doit_prevue {t : Tache π} (h : t.statut = .prevue) (k event : Nat) :
    t.doit k event = ((t.abonnement, t.event.id) == (k, event)) := by
  unfold Tache.doit
  rw [h]
  rfl

theorem resumer_suit {i : Nat} {t : Tache π} (ht : s.taches[i]? = some t)
    (h : resumer m s i t = some s') : Suit s s' := by
  unfold resumer at h
  split at h
  · next hstatut =>
      cases h
      refine suit_de rfl rfl (fun k event => ?_) id
      -- what was pending has been received
      let s₁ : Bus π := { s with recus := s.recus ++ [(t.abonnement, t.event.id)] }
      have hcount := recu_avancer (s := s₁) ht
        (.enCours (m.corps t.handler t.abonnement t.event)) k event
      have hrecu : s₁.recu k event = s.recu k event + (t.doit k event).toNat := by
        have hone : [(t.abonnement, t.event.id)].count (k, event) =
            (t.doit k event).toNat := by
          rw [doit_prevue hstatut, List.count_singleton]
          cases h : ((t.abonnement, t.event.id) == (k, event)) <;> rfl
        simp only [s₁, Bus.recu, List.count_append]
        omega
      have hapres : Tache.doit { t with
          statut := .enCours (m.corps t.handler t.abonnement t.event) } k event = false := rfl
      rw [hapres, hrecu] at hcount
      have hfalse : (false : Bool).toNat = 0 := rfl
      rw [hfalse] at hcount
      show (s₁.avancer i t _).recu k event = s.recu k event
      omega
  · next op suite hstatut =>
      have hdoit : ∀ (reste : Programme π) k event,
          Tache.doit { t with statut := .enCours reste } k event = t.doit k event := by
        intro reste k event
        simp [Tache.doit, hstatut]
      have hissue : ∀ s₁, (appeler m 1 s.filLoop s op).etat = some s₁ →
          Suit s s₁ ∧ ∃ taches, s₁.taches = s.taches ++ taches := fun _ => appeler_suit
      split at h
      · next s₁ r happel =>
          cases h
          obtain ⟨hsuit, extra, htaches⟩ := hissue s₁ (by rw [happel]; rfl)
          refine hsuit.trans (avancer_suit ?_ (hdoit _))
          rw [htaches]
          exact getElem?_of_append ht
      · next s₁ happel =>
          cases h
          obtain ⟨hsuit, extra, htaches⟩ := hissue s₁ (by rw [happel]; rfl)
          refine hsuit.trans (avancer_suit ?_ (hdoit _))
          rw [htaches]
          exact getElem?_of_append ht
      · next s₁ happel =>
          cases h
          exact (hissue s' (by rw [happel]; rfl)).1
      · cases h
  · next p hne hstatut =>
      cases h
      exact avancer_suit ht fun k event => by simp [Tache.doit, hstatut]
  · cases h

theorem pas_suit (ev : Evenement π) (h : pas m s ev = some s') : Suit s s' := by
  cases ev with
  | start fil =>
      simp only [pas] at h
      split at h
      · cases h
        exact .refl s
      · cases h
        exact suit_de rfl rfl (fun _ _ => rfl) id
  | stop =>
      simp only [pas] at h
      split at h
      · cases h
        exact .refl s
      · cases h
        exact suit_de rfl rfl (fun _ _ => rfl) id
  | stopFin =>
      simp only [pas] at h
      split at h
      · cases h
        exact suit_de rfl rfl (fun _ _ => rfl) fun _ => List.nodup_nil
      · cases h
  | fermerLoop =>
      cases h
      exact suit_de rfl rfl (fun _ _ => rfl) id
  | appel fil op => exact (appeler_suit h).1
  | tache i =>
      simp only [pas] at h
      split at h
      · split at h
        · cases h
        · next t ht => exact resumer_suit ht h
      · cases h

theorem run_suit {evs : List (Evenement π)} (h : run (pas m) s evs = some s') : Suit s s' := by
  induction evs generalizing s with
  | nil =>
      cases h
      exact .refl _
  | cons ev evs ih =>
      obtain ⟨s₁, hpas, hrest⟩ := run_cons_eq_some.mp h
      exact (pas_suit ev hpas).trans (ih hrest)

theorem frais_run {evs : List (Evenement π)} (h : Lib.run (pas m) {} evs = some s) :
    Frais s := by
  have hvide : Frais (π := π) {} := ⟨List.nodup_nil, fun _ _ _ => rfl, fun _ _ => rfl⟩
  exact (run_suit h).frais hvide

end Steps

section Publications

variable {m : Monde π} {s : Bus π}

/-- The publication returns; from there on its event has one row, and each subscriber of the
moment receives it once if its pattern matches, and never otherwise. -/
def Livre (m : Monde π) (n fil : Nat) (s : Bus π) (topic : String) (payload : π)
    (publisher : Option String) (causationId : Option Nat) : Prop :=
  ∃ s', appeler m n fil s (.publish topic payload publisher causationId) = .retourne s' .rien ∧
    ∀ evs s'', run (pas m) s' evs = some s'' →
      s''.lignes s.prochainEvent = 1 ∧
      ∀ item ∈ s.subscribers, s''.recu item.1 s.prochainEvent =
        if concerne topic item then 1 else 0

/-- The handler of a subscriber, on this event, lets the publication go on and is called once:
a coroutine function on an open loop, or a plain function that neither calls the bus nor
raises out of `Exception`, nor answers a coroutine while the loop is open. -/
def Docile (m : Monde π) (loopOuverte : Bool) (item : Nat × Option String × Nat)
    (e : Event π) : Prop :=
  if m.iscoroutinefunction item.2.2 then loopOuverte = true
  else
    match m.corps item.2.2 item.1 e with
    | .fin coroutine => coroutine = true → loopOuverte = false
    | .lever exception => exception = true
    | .appel _ _ => False

structure Favorable (m : Monde π) (fil : Nat) (s : Bus π) (e : Event π) : Prop where
  libre : s.verrou = false
  ouvert : s.conn = some fil
  ecrit : ∃ payload, m.dumps e.payload = some payload ∧ m.accepte (ligneDe e payload) = true
  dociles : ∀ item ∈ s.subscribers, concerne e.topic item = true →
    Docile m s.loopOuverte item e

theorem docile_iff {loopOuverte : Bool} {item : Nat × Option String × Nat} {e : Event π} :
    Docile m loopOuverte item e ↔ coups m loopOuverte item e = some 1 := by
  unfold Docile coups
  by_cases hfn : m.iscoroutinefunction item.2.2 = true
  · simp only [hfn, if_true]
    cases loopOuverte <;> simp
  · simp only [hfn, Bool.false_eq_true, if_false]
    cases m.corps item.2.2 item.1 e with
    | fin coroutine => cases coroutine <;> cases loopOuverte <;> simp
    | lever exception => cases exception <;> simp
    | appel op suite => simp

theorem persist_isSome {fil : Nat} {e : Event π} :
    (∃ s', s.persist m fil e = some s') ↔ s.conn = some fil ∧
      ∃ payload, m.dumps e.payload = some payload ∧ m.accepte (ligneDe e payload) = true := by
  constructor
  · intro ⟨s', h⟩
    obtain ⟨payload, hconn, hdumps, haccepte, _⟩ := persist_cas h
    exact ⟨hconn, payload, hdumps, haccepte⟩
  · intro ⟨hconn, payload, hdumps, haccepte⟩
    exact ⟨{ s with events := s.events ++ [ligneDe e payload] },
      by simp [Bus.persist, hconn, hdumps, haccepte]⟩

def Bus.sousVerrou (s : Bus π) (e : Event π) (payload : String) : Bus π :=
  { s with
    verrou := true
    prochainEvent := s.prochainEvent + 1
    events := s.events ++ [ligneDe e payload] }

theorem appeler_publish (n fil : Nat) (topic : String) (payload : π) (publisher : Option String)
    (causationId : Option Nat) (h : s.verrou = false) :
    appeler m (n + 1) fil s (.publish topic payload publisher causationId) =
      (publier m (appeler m n fil) fil
        { s with verrou := true, prochainEvent := s.prochainEvent + 1 }
        (nouvelEvent m s topic payload publisher causationId)).liberer := by
  simp [appeler, h]

theorem publier_sans_ligne {n fil : Nat} {e : Event π}
    (h : ¬∃ s', s.persist m fil e = some s') :
    publier m (appeler m n fil) fil s e = .retourne s .rien := by
  have hnone : s.persist m fil e = none := by
    rw [Option.eq_none_iff_forall_ne_some]
    intro s' hs'
    exact h ⟨s', hs'⟩
  simp [publier, hnone]

theorem publier_avec_ligne {n fil : Nat} {e : Event π} {s' : Bus π}
    (h : s.persist m fil e = some s') :
    publier m (appeler m n fil) fil s e = notifier m (appeler m n fil) e s'.subscribers s' := by
  simp [publier, h]

theorem publish_interrompu {n fil : Nat} {e : Event π} {texte : String}
    (hs : ({ s with verrou := true, prochainEvent := s.prochainEvent + 1 } : Bus π).persist m fil e =
      some (s.sousVerrou e texte))
    (hfin : ∃ item ∈ s.subscribers, concerne e.topic item = true ∧
      coups m s.loopOuverte item e = none) (s' : Bus π) :
    (publier m (appeler m n fil) fil
      { s with verrou := true, prochainEvent := s.prochainEvent + 1 } e).liberer ≠
        .retourne s' .rien := by
  rw [publier_avec_ligne hs]
  obtain ⟨s₂, hissue, _⟩ := notifier_interrompu (m := m) n fil (s := s.sousVerrou e texte) rfl hfin
  intro h
  rcases hissue with hissue | hissue
  · have heq : (Issue.leve s₂).liberer = .retourne s' .rien := hissue ▸ h
    cases heq
  · have heq : (Issue.bloque s₂).liberer = .retourne s' .rien := hissue ▸ h
    cases heq

theorem publish_retourne (hfrais : Frais s) {n fil : Nat} {e : Event π} {texte : String}
    (he : e.id = s.prochainEvent)
    (hs : ({ s with verrou := true, prochainEvent := s.prochainEvent + 1 } : Bus π).persist m fil e =
      some (s.sousVerrou e texte))
    (hfin : ∀ item ∈ s.subscribers, concerne e.topic item = true →
      (coups m s.loopOuverte item e).isSome) :
    ∃ s', (publier m (appeler m n fil) fil
        { s with verrou := true, prochainEvent := s.prochainEvent + 1 } e).liberer =
          .retourne s' .rien ∧
      s'.prochainEvent = s.prochainEvent + 1 ∧ s'.lignes e.id = 1 ∧
      ∀ item ∈ s.subscribers, s'.recu item.1 e.id = receptions m s.loopOuverte e item := by
  obtain ⟨s₂, hissue, ⟨recus, taches, hdiffuse⟩, hcounts⟩ :=
    notifier_retourne (m := m) n fil (s := s.sousVerrou e texte) rfl hfin
  refine ⟨{ s₂ with verrou := false }, ?_, ?_, ?_, ?_⟩
  · rw [publier_avec_ligne hs]
    have heq : (notifier m (appeler m n fil) e s.subscribers (s.sousVerrou e texte)).liberer =
        .retourne { s₂ with verrou := false } .rien := by
      rw [hissue]
      rfl
    exact heq
  · show s₂.prochainEvent = s.prochainEvent + 1
    rw [hdiffuse.etat]
    rfl
  · show s₂.lignes e.id = 1
    rw [hdiffuse.etat]
    have hone := lignes_append s e texte e.id
    rw [hfrais.lignes e.id (Nat.le_of_eq he.symm), if_pos rfl] at hone
    exact hone
  · intro item hitem
    show s₂.recu item.1 e.id = _
    have hneuf : (s.sousVerrou e texte).recu item.1 e.id = 0 :=
      hfrais.recu item.1 e.id (Nat.le_of_eq he.symm)
    rw [(hcounts hfrais.cles).1 item hitem, hneuf, Nat.zero_add]
    rfl

theorem receptions_dociles {loopOuverte : Bool} {e : Event π}
    {items : List (Nat × Option String × Nat)} :
    ((∀ item ∈ items, concerne e.topic item = true → (coups m loopOuverte item e).isSome) ∧
      ∀ item ∈ items, receptions m loopOuverte e item =
        if concerne e.topic item then 1 else 0) ↔
      ∀ item ∈ items, concerne e.topic item = true → Docile m loopOuverte item e := by
  constructor
  · intro ⟨hfin, hun⟩ item hitem hc
    obtain ⟨c, hcoups⟩ := Option.isSome_iff_exists.mp (hfin item hitem hc)
    have hone := hun item hitem
    rw [receptions, if_pos hc, if_pos hc, hcoups, Option.getD_some] at hone
    rw [docile_iff, hcoups, hone]
  · intro hdociles
    constructor
    · intro item hitem hc
      rw [docile_iff.mp (hdociles item hitem hc)]
      rfl
    · intro item hitem
      by_cases hc : concerne e.topic item = true
      · rw [receptions, if_pos hc, if_pos hc, docile_iff.mp (hdociles item hitem hc)]
        rfl
      · rw [receptions, if_neg hc, if_neg hc]

theorem favorable_of_livre (hfrais : Frais s) {n fil : Nat} {topic : String} {payload : π}
    {publisher : Option String} {causationId : Option Nat}
    (h : Livre m (n + 1) fil s topic payload publisher causationId) :
    Favorable m fil s (nouvelEvent m s topic payload publisher causationId) := by
  obtain ⟨s', happel, hlivre⟩ := h
  obtain ⟨hligne, hrecus⟩ := hlivre [] s' rfl
  have hlibre : s.verrou = false := by
    cases hverrou : s.verrou with
    | false => rfl
    | true =>
        rw [appeler_verrou (n + 1) fil _ hverrou] at happel
        cases happel
  rw [appeler_publish n fil topic payload publisher causationId hlibre] at happel
  by_cases hpersist : ∃ s₁,
      ({ s with verrou := true, prochainEvent := s.prochainEvent + 1 } : Bus π).persist m fil
        (nouvelEvent m s topic payload publisher causationId) = some s₁
  · obtain ⟨hconn, hecrit⟩ := persist_isSome.mp hpersist
    obtain ⟨s₁, hs₁⟩ := hpersist
    obtain ⟨texte, _, _, _, heq⟩ := persist_cas hs₁
    rw [heq] at hs₁
    -- every turn ends, or the publication would not have returned
    have hfin : ∀ item ∈ s.subscribers, concerne topic item = true →
        (coups m s.loopOuverte item
          (nouvelEvent m s topic payload publisher causationId)).isSome := by
      intro item hitem hc
      rw [Option.isSome_iff_ne_none]
      intro hnone
      exact publish_interrompu hs₁ ⟨item, hitem, hc, hnone⟩ s' happel
    refine ⟨hlibre, hconn, hecrit, receptions_dociles.mp ⟨hfin, fun item hitem => ?_⟩⟩
    obtain ⟨s₂, hissue, _, _, hcounts⟩ := publish_retourne (n := n) hfrais rfl hs₁ hfin
    have hs₂ : s₂ = s' := (Issue.retourne.inj (hissue.symm.trans happel)).1
    rw [← hcounts item hitem, hs₂]
    exact hrecus item hitem
  · rw [publier_sans_ligne hpersist] at happel
    cases happel
    have hzero := hfrais.lignes s.prochainEvent (Nat.le_refl _)
    have hone : s.lignes s.prochainEvent = 1 := hligne
    omega

theorem livre_of_favorable (hfrais : Frais s) {n fil : Nat} {topic : String} {payload : π}
    {publisher : Option String} {causationId : Option Nat}
    (h : Favorable m fil s (nouvelEvent m s topic payload publisher causationId)) :
    Livre m (n + 1) fil s topic payload publisher causationId := by
  have hpersist : ∃ s₁,
      ({ s with verrou := true, prochainEvent := s.prochainEvent + 1 } : Bus π).persist m fil
        (nouvelEvent m s topic payload publisher causationId) = some s₁ :=
    persist_isSome.mpr ⟨h.ouvert, h.ecrit⟩
  obtain ⟨s₁, hs₁⟩ := hpersist
  obtain ⟨texte, _, _, _, heq⟩ := persist_cas hs₁
  rw [heq] at hs₁
  obtain ⟨hfin, hun⟩ := receptions_dociles.mpr h.dociles
  obtain ⟨s', hissue, hprochain, hligne, hrecus⟩ := publish_retourne (n := n) hfrais rfl hs₁ hfin
  refine ⟨s', ?_, ?_⟩
  · rw [appeler_publish n fil topic payload publisher causationId h.libre]
    exact hissue
  · intro evs s'' hrun
    have hsuit := run_suit hrun
    have hpasse : s.prochainEvent < s'.prochainEvent := by omega
    constructor
    · rw [hsuit.lignes _ hpasse]
      exact hligne
    · intro item hitem
      rw [hsuit.recu _ _ hpasse]
      exact (hrecus item hitem).trans (hun item hitem)

/-- In every reachable state, a publication is delivered if and only if the bus is free and
writes the row, and every matching handler is docile. -/
theorem publish_livre_ssi {evs : List (Evenement π)} (hrun : run (pas m) {} evs = some s)
    (n fil : Nat) (topic : String) (payload : π) (publisher : Option String)
    (causationId : Option Nat) :
    Livre m (n + 1) fil s topic payload publisher causationId ↔
      Favorable m fil s (nouvelEvent m s topic payload publisher causationId) := by
  have hfrais := frais_run hrun
  exact ⟨favorable_of_livre hfrais, livre_of_favorable hfrais⟩

end Publications

/-- A bus where every handler is a plain function with the same body. -/
def mondeDe (corps : Programme Nat) : Monde Nat where
  dumps := fun _ => some "\x7b\x7d"
  accepte := fun _ => true
  horloge := fun _ => 0
  iscoroutinefunction := fun _ => false
  corps := fun _ _ _ => corps

/-- A started bus with one subscriber to every topic. -/
def busAbonne : Bus Nat :=
  { conn := some 0, started := true, subscribers := [(0, some "*", 1)], prochainAbonnement := 1 }

theorem run_busAbonne (m : Monde Nat) :
    run (pas m) {} [.start 0, .appel 0 (.subscribe "*" 1)] = some busAbonne := rfl

/-- A handler that only raises. -/
theorem publish_livre_ssi_leve :
    Livre (mondeDe (.lever true)) 1 0 busAbonne "task.created" 7 none none := by
  refine (publish_livre_ssi (run_busAbonne _) 0 0 "task.created" 7 none none).mpr ?_
  refine ⟨rfl, rfl, ⟨_, rfl, rfl⟩, fun item hitem _ => ?_⟩
  have heq : item = (0, some "*", 1) := List.mem_singleton.mp hitem
  subst heq
  rfl

/-- A handler that asks for the counters of the bus waits for the lock of its own call. -/
theorem publish_bloque :
    ∃ (m : Monde Nat) (s : Bus Nat) (evs : List (Evenement Nat)),
      run (pas m) {} evs = some s ∧
      (∃ s', appeler m 1 0 s (.publish "task.created" 7 none none) = .bloque s') ∧
      ¬Livre m 1 0 s "task.created" 7 none none := by
  let m := mondeDe (.appel .stats fun _ => .fin false)
  have hbloque : ∃ s', appeler m 1 0 busAbonne (.publish "task.created" 7 none none) =
      .bloque s' := ⟨_, rfl⟩
  refine ⟨m, busAbonne, _, run_busAbonne m, hbloque, ?_⟩
  intro ⟨s', hs', _⟩
  obtain ⟨s'', hs''⟩ := hbloque
  rw [hs''] at hs'
  cases hs'

end Hermes.EventBus
