import Hermes.Lib.Dict
import Hermes.Lib.Flottant
import Mathlib.Data.Finset.Insert
import Mathlib.Data.List.Sort

/-! # The system event bus

One type of filter is read by two functions: the delivery looks at six of its criteria, the search
in the history at eight.
-/

namespace Hermes.SystemEventBus

open Lib Lib.Flottant

variable {ν : Type}

/-- What the interpreter does with the values of a payload. -/
structure Interprete (ν : Type) where
  rien : ν
  /-- `==`. -/
  egal : ν → ν → Bool
  /-- `json.dumps(…, default=str)`, nothing when it raises. -/
  dumps : Dict String ν → Option String
  /-- `str.lower`. -/
  lower : String → String

structure SystemEvent (ν : Type) where
  id : String
  type : String
  source : String
  timestamp : Rat
  severity : String := "info"
  payload : Dict String ν := []
  metadata : Dict String ν := []
  correlationId : String := ""
  parentEventId : String := ""
  deriving DecidableEq

structure EventFilter (ν : Type) where
  types : Option (Finset String) := none
  sources : Option (Finset String) := none
  severities : Option (Finset String) := none
  correlationId : Option String := none
  since : Option Binaire := none
  til : Option Binaire := none
  text : Option String := none
  metadataFilter : Option (Dict String ν) := none
  limit : Option Int := none
  offset : Int := 0

/-- A set that is missing or empty lets everything through. -/
def dansEnsemble (ensemble : Option (Finset String)) (x : String) : Bool :=
  match ensemble with
  | none => true
  | some s => s = ∅ || x ∈ s

def egalA (attendu : Option String) (x : String) : Bool :=
  match attendu with
  | none => true
  | some y => x = y

/-- The four criteria that both functions read alike. -/
def criteresSimples (f : EventFilter ν) (e : SystemEvent ν) : Bool :=
  dansEnsemble f.types e.type && dansEnsemble f.sources e.source &&
    dansEnsemble f.severities e.severity && egalA f.correlationId e.correlationId

/-- `e.timestamp >= since` and `e.timestamp <= until`. -/
def dansBornes (f : EventFilter ν) (e : SystemEvent ν) : Bool :=
  (match f.since with
    | none => true
    | some since => since.le (.fini e.timestamp)) &&
  (match f.til with
    | none => true
    | some til => (Binaire.fini e.timestamp).le til)

/-- `motif in texte`. -/
def contient (motif texte : String) : Bool := decide (motif.toList <:+: texte.toList)

/-- The text, looked for in the payload and then in the metadata. -/
def contientTexte (I : Interprete ν) (texte : String) (e : SystemEvent ν) : Option Bool :=
  match I.dumps e.payload with
  | none => none
  | some payload =>
      if contient (I.lower texte) (I.lower payload) then some true
      else (I.dumps e.metadata).map fun metadata => contient (I.lower texte) (I.lower metadata)

def filtrerTexte (I : Interprete ν) (texte : String) :
    List (SystemEvent ν) → Option (List (SystemEvent ν))
  | [] => some []
  | e :: events => do
      let garde ← contientTexte I texte e
      let reste ← filtrerTexte I texte events
      some (if garde then e :: reste else reste)

/-- `e.metadata.get(key) == value` for every requirement. -/
def metadataConforme (I : Interprete ν) (exigences : Dict String ν) (e : SystemEvent ν) : Bool :=
  exigences.all fun item => I.egal (e.metadata.getD item.1 I.rien) item.2

/-- `sort(key=timestamp, reverse=True)`, which leaves equal dates in their order. -/
def trier (events : List (SystemEvent ν)) : List (SystemEvent ν) :=
  events.mergeSort fun a b => b.timestamp ≤ a.timestamp

/-- Where a bound of a slice falls in a list of `n` elements. -/
def borne (n : Nat) (i : Int) : Nat :=
  if i < 0 then (i + n).toNat else min i.toNat n

/-- `result[start:end]`, from `start = min(offset, len(result))`. -/
def paginer (f : EventFilter ν) (events : List (SystemEvent ν)) : List (SystemEvent ν) :=
  let start := min f.offset events.length
  let fin :=
    match f.limit with
    | none => events.length
    | some limit => borne events.length (start + limit)
  (events.take fin).drop (borne events.length start)

def applyFilter (I : Interprete ν) (events : List (SystemEvent ν)) :
    Option (EventFilter ν) → Option (List (SystemEvent ν))
  | none => some events
  | some f => do
      let result := (events.filter (criteresSimples f)).filter (dansBornes f)
      let result ←
        match f.text with
        | none => some result
        | some texte => filtrerTexte I texte result
      let result :=
        match f.metadataFilter with
        | none => result
        | some exigences => result.filter (metadataConforme I exigences)
      some (paginer f (trier result))

structure Abonnement (ν : Type) where
  filtre : Option (EventFilter ν) := none
  handler : Nat

structure Bus (ν : Type) where
  maxEvents : Int := 5000
  events : List (SystemEvent ν) := []
  callbacks : List (Abonnement ν) := []
  subscribers : List (Abonnement ν) := []
  published : Nat := 0
  consumed : Nat := 0
  byType : Dict String Nat := []
  bySeverity : Dict String Nat := []

/-- Past the bound, `events[-max_events:]`: for a bound of zero, that is the whole list. -/
def append (maxEvents : Int) (events : List (SystemEvent ν)) (e : SystemEvent ν) :
    List (SystemEvent ν) :=
  let events := events ++ [e]
  if maxEvents < events.length then
    events.drop (borne events.length (-maxEvents))
  else events

def matchesFilter (e : SystemEvent ν) : Option (EventFilter ν) → Bool
  | none => true
  | some f =>
      criteresSimples f e &&
      (match f.since with
        | none => true
        | some since => !(Binaire.fini e.timestamp).lt since) &&
      (match f.til with
        | none => true
        | some til => !til.lt (.fini e.timestamp))

/-- The handlers called one after the other, each raising or not, and those that did not raise. -/
def livrer (leve : Nat → Bool) (retenu : Abonnement ν → Bool) :
    List (Abonnement ν) → List (Abonnement ν) × Nat
  | [] => ([], 0)
  | a :: abonnements =>
      let (servis, consumed) := livrer leve retenu abonnements
      if retenu a then (a :: servis, if leve a.handler then consumed else consumed + 1)
      else (servis, consumed)

def enregistrer (b : Bus ν) (e : SystemEvent ν) : Bus ν :=
  { b with
    events := append b.maxEvents b.events e
    published := b.published + 1
    byType := b.byType.set e.type (b.byType.getD e.type 0 + 1)
    bySeverity := b.bySeverity.set e.severity (b.bySeverity.getD e.severity 0 + 1) }

/-- The callbacks, then the subscribers, and who has been served. -/
def servir (leve : Nat → Bool) (retenu : Abonnement ν → Bool) (b : Bus ν) :
    Bus ν × List (Abonnement ν) :=
  let (rappeles, n) := livrer leve retenu b.callbacks
  let (avises, m) := livrer leve retenu b.subscribers
  ({ b with consumed := b.consumed + n + m }, rappeles ++ avises)

def publish (b : Bus ν) (e : SystemEvent ν) (leve : Nat → Bool) : Bus ν × List (Abonnement ν) :=
  servir leve (fun a => matchesFilter e a.filtre) (enregistrer b e)

def broadcast (b : Bus ν) (e : SystemEvent ν) (leve : Nat → Bool) : Bus ν × List (Abonnement ν) :=
  servir leve (fun _ => true) (enregistrer b e)

def query (I : Interprete ν) (b : Bus ν) (f : Option (EventFilter ν)) :
    Option (List (SystemEvent ν)) :=
  applyFilter I b.events f

variable {I : Interprete ν} {f : EventFilter ν} {e : SystemEvent ν} {events : List (SystemEvent ν)}
  {leve : Nat → Bool} {retenu : Abonnement ν → Bool}

theorem livrer_fst (leve : Nat → Bool) (retenu : Abonnement ν → Bool)
    (abonnements : List (Abonnement ν)) :
    (livrer leve retenu abonnements).1 = abonnements.filter retenu := by
  induction abonnements with
  | nil => rfl
  | cons a abonnements ih =>
      by_cases ha : retenu a
      · simp [livrer, ha, ih]
      · simp [livrer, ha, ih]

theorem publish_snd (b : Bus ν) (e : SystemEvent ν) (leve : Nat → Bool) :
    (publish b e leve).2 =
      (b.callbacks ++ b.subscribers).filter fun a => matchesFilter e a.filtre := by
  rw [List.filter_append]
  exact congrArg₂ (· ++ ·) (livrer_fst _ _ _) (livrer_fst _ _ _)

def retient (I : Interprete ν) (f : EventFilter ν) (e : SystemEvent ν) : Bool :=
  criteresSimples f e && dansBornes f e &&
    (match f.text with
      | none => true
      | some texte => contientTexte I texte e = some true) &&
    (match f.metadataFilter with
      | none => true
      | some exigences => metadataConforme I exigences e)

def Lisible (I : Interprete ν) (f : EventFilter ν) (events : List (SystemEvent ν)) : Prop :=
  ∀ texte, f.text = some texte → ∀ e ∈ events, criteresSimples f e → dansBornes f e →
    contientTexte I texte e ≠ none

theorem filtrerTexte_eq_some_iff {texte : String} {reste : List (SystemEvent ν)} :
    filtrerTexte I texte events = some reste ↔
      (∀ e ∈ events, contientTexte I texte e ≠ none) ∧
        reste = events.filter fun e => contientTexte I texte e = some true := by
  induction events generalizing reste with
  | nil => simp [filtrerTexte, eq_comm]
  | cons e events ih =>
      cases hgarde : contientTexte I texte e with
      | none => simp [filtrerTexte, hgarde]
      | some garde =>
          simp only [filtrerTexte, hgarde, Option.bind_eq_bind, Option.bind_some,
            Option.bind_eq_some_iff, ih, Option.some.injEq, List.forall_mem_cons,
            List.filter_cons]
          constructor
          · rintro ⟨suite, ⟨hlisible, rfl⟩, rfl⟩
            exact ⟨⟨by simp, hlisible⟩, by cases garde <;> simp⟩
          · rintro ⟨⟨-, hlisible⟩, rfl⟩
            exact ⟨_, ⟨hlisible, rfl⟩, by cases garde <;> simp⟩

theorem paginer_eq (hlimit : f.limit = none) (hoffset : f.offset = 0) :
    paginer f events = events := by
  simp [paginer, hlimit, hoffset, borne]

theorem mem_trier : e ∈ trier events ↔ e ∈ events := List.mem_mergeSort

theorem trier_perm (events : List (SystemEvent ν)) : (trier events).Perm events :=
  List.mergeSort_perm events _

def Recents (events : List (SystemEvent ν)) : Prop :=
  events.Pairwise fun a b => b.timestamp ≤ a.timestamp

theorem recents_trier (events : List (SystemEvent ν)) : Recents (trier events) := by
  have hsorted := @List.pairwise_mergeSort (SystemEvent ν) (fun a b => b.timestamp ≤ a.timestamp)
    (fun a b c hab hbc => by
      rw [decide_eq_true_eq] at hab hbc ⊢
      exact hbc.trans hab)
    (fun a b => by simpa using le_total b.timestamp a.timestamp) events
  exact hsorted.imp fun h => of_decide_eq_true h

theorem filter_retient (I : Interprete ν) (f : EventFilter ν) (events : List (SystemEvent ν)) :
    events.filter (retient I f) =
      ((((events.filter (criteresSimples f)).filter (dansBornes f)).filter fun e =>
        match f.text with
          | none => true
          | some texte => contientTexte I texte e = some true).filter fun e =>
        match f.metadataFilter with
          | none => true
          | some exigences => metadataConforme I exigences e) := by
  simp only [List.filter_filter]
  apply List.filter_congr
  intro e _
  unfold retient
  ac_rfl

theorem applyFilter_eq_some_iff (hlimit : f.limit = none) (hoffset : f.offset = 0)
    {reponse : List (SystemEvent ν)} :
    applyFilter I events (some f) = some reponse ↔
      Lisible I f events ∧ reponse = trier (events.filter (retient I f)) := by
  rw [filter_retient]
  unfold applyFilter
  simp only [paginer_eq hlimit hoffset]
  cases htexte : f.text with
  | none =>
      have hlisible : Lisible I f events := by
        intro texte hsome
        rw [htexte] at hsome
        cases hsome
      cases hmeta : f.metadataFilter <;> simp [hlisible, eq_comm (b := reponse)]
  | some texte =>
      have hlisible : Lisible I f events ↔
          ∀ e ∈ (events.filter (criteresSimples f)).filter (dansBornes f),
            contientTexte I texte e ≠ none := by
        simp only [Lisible, htexte, Option.some.injEq, forall_eq', List.mem_filter, and_imp]
      simp only [Option.bind_eq_bind, Option.bind_eq_some_iff, filtrerTexte_eq_some_iff, hlisible]
      cases hmeta : f.metadataFilter <;> simp [eq_comm (b := reponse)]

theorem le_iff_not_lt (q : Rat) (b : Binaire) :
    b.le (.fini q) ↔ (Binaire.fini q).lt b = false ∧ b ≠ .nan := by
  cases b <;> simp [Binaire.le, Binaire.lt]

theorem ge_iff_not_lt (q : Rat) (b : Binaire) :
    (Binaire.fini q).le b ↔ b.lt (.fini q) = false ∧ b ≠ .nan := by
  cases b <;> simp [Binaire.le, Binaire.lt]

theorem criteres_iff :
    criteresSimples f e ∧ dansBornes f e ↔
      matchesFilter e (some f) ∧ f.since ≠ some .nan ∧ f.til ≠ some .nan := by
  cases hsince : f.since <;> cases htil : f.til <;>
    simp [matchesFilter, dansBornes, hsince, htil, le_iff_not_lt, ge_iff_not_lt, and_assoc]
  tauto

/-- What is owed of a filter and of a published event, on a bus `r` that still retains it. -/
structure Conforme (I : Interprete ν) (f : EventFilter ν) (e : SystemEvent ν) (r : Bus ν) :
    Prop where
  livree : ∀ (b : Bus ν) leve a, a ∈ b.callbacks ++ b.subscribers → a.filtre = some f →
    (a ∈ (publish b e leve).2 ↔ ∃ reponse, query I r (some f) = some reponse ∧ e ∈ reponse)
  requete : ∃ reponse, query I r (some f) = some reponse ∧ Recents reponse ∧
    reponse.Perm (r.events.filter (retient I f))
  tout : ∃ reponse, query I r none = some reponse ∧ Recents reponse ∧ reponse.Perm r.events
  isolee : ∀ (b : Bus ν) leve leve', (publish b e leve).2 = (publish b e leve').2 ∧
    (publish b e leve).1.events = (publish b e leve').1.events

/-- An event that the delivery lets through meets the criteria that it does not read. -/
structure Tenable (I : Interprete ν) (f : EventFilter ν) (e : SystemEvent ν) (r : Bus ν) :
    Prop where
  bornes : matchesFilter e (some f) → f.since ≠ some .nan ∧ f.til ≠ some .nan
  text : matchesFilter e (some f) → ∀ texte, f.text = some texte →
    contientTexte I texte e = some true
  metadata : matchesFilter e (some f) → ∀ exigences, f.metadataFilter = some exigences →
    metadataConforme I exigences e
  lisible : Lisible I f r.events
  dates : Recents r.events

theorem mem_publish_iff {b : Bus ν} {a : Abonnement ν} (ha : a ∈ b.callbacks ++ b.subscribers)
    (hfiltre : a.filtre = some f) : a ∈ (publish b e leve).2 ↔ matchesFilter e (some f) := by
  rw [publish_snd, List.mem_filter, hfiltre]
  exact and_iff_right ha

theorem retient_iff :
    retient I f e ↔
      (criteresSimples f e ∧ dansBornes f e) ∧
        (∀ texte, f.text = some texte → contientTexte I texte e = some true) ∧
          ∀ exigences, f.metadataFilter = some exigences → metadataConforme I exigences e := by
  unfold retient
  cases f.text <;> cases f.metadataFilter <;> simp [and_assoc]

variable {r : Bus ν}

/-- The delivery and the search agree on an event, and the search keeps its order, exactly when
nothing is asked that only the search reads, or the event has it. -/
theorem conforme_iff (hlimit : f.limit = none) (hoffset : f.offset = 0) (he : e ∈ r.events) :
    Conforme I f e r ↔ Tenable I f e r := by
  have hquery : ∀ {reponse}, query I r (some f) = some reponse ↔
      Lisible I f r.events ∧ reponse = trier (r.events.filter (retient I f)) :=
    applyFilter_eq_some_iff hlimit hoffset
  have hmem : Lisible I f r.events →
      ((∃ reponse, query I r (some f) = some reponse ∧ e ∈ reponse) ↔ retient I f e) := by
    intro hlisible
    constructor
    · rintro ⟨reponse, hreponse, hdans⟩
      rw [(hquery.mp hreponse).2, mem_trier] at hdans
      exact (List.mem_filter.mp hdans).2
    · intro hretient
      exact ⟨_, hquery.mpr ⟨hlisible, rfl⟩, mem_trier.mpr (List.mem_filter.mpr ⟨he, hretient⟩)⟩
  constructor
  · intro h
    obtain ⟨reponse, hreponse, -⟩ := h.requete
    have hlisible : Lisible I f r.events := (hquery.mp hreponse).1
    have hretient : matchesFilter e (some f) → retient I f e := by
      intro hmatches
      -- a bus with one subscriber, registered with this filter
      let a : Abonnement ν := { filtre := some f, handler := 0 }
      let b : Bus ν := { callbacks := [a] }
      have ha : a ∈ b.callbacks ++ b.subscribers := List.mem_singleton_self a
      have hlivree := h.livree b (fun _ => false) a ha rfl
      exact (hmem hlisible).mp (hlivree.mp ((mem_publish_iff ha rfl).mpr hmatches))
    obtain ⟨tout, htout, hrecents, -⟩ := h.tout
    exact
      { bornes := fun hmatches => (criteres_iff.mp (retient_iff.mp (hretient hmatches)).1).2
        text := fun hmatches => (retient_iff.mp (hretient hmatches)).2.1
        metadata := fun hmatches => (retient_iff.mp (hretient hmatches)).2.2
        lisible := hlisible
        dates := Option.some.inj htout ▸ hrecents }
  · intro h
    refine ⟨?_, ?_, ?_, ?_⟩
    · intro b leve a ha hfiltre
      rw [mem_publish_iff ha hfiltre, hmem h.lisible, retient_iff]
      constructor
      · intro hmatches
        exact ⟨criteres_iff.mpr ⟨hmatches, h.bornes hmatches⟩, h.text hmatches,
          h.metadata hmatches⟩
      · intro hretient
        exact (criteres_iff.mp hretient.1).1
    · exact ⟨_, hquery.mpr ⟨h.lisible, rfl⟩, recents_trier _, trier_perm _⟩
    · exact ⟨r.events, rfl, h.dates, List.Perm.refl _⟩
    · intro b leve leve'
      rw [publish_snd, publish_snd]
      exact ⟨rfl, rfl⟩

def textes : Interprete String where
  rien := ""
  egal a b := a = b
  dumps items := some (String.join (items.map Prod.snd))
  lower := id

def alerte : SystemEvent String :=
  { id := "1", type := "runtime", source := "runtime.health", timestamp := 0 }

theorem conforme_alerte :
    Conforme textes {} alerte { events := [alerte] } ↔ Tenable textes {} alerte { events := [alerte] } :=
  conforme_iff rfl rfl (List.mem_singleton_self alerte)

/-- A subscriber that asks for a metadata gets an event without it, which the search leaves out. -/
theorem metadata_ignoree :
    ¬ ∀ (I : Interprete String) (f : EventFilter String) (e : SystemEvent String) (r : Bus String),
      f.limit = none → f.offset = 0 → e ∈ r.events → Conforme I f e r := by
  intro h
  let f : EventFilter String := { metadataFilter := some [("tenant", "acme")] }
  have hconforme := h textes f alerte { events := [alerte] } rfl rfl (List.mem_singleton_self alerte)
  let a : Abonnement String := { filtre := some f, handler := 0 }
  let b : Bus String := { callbacks := [a] }
  have ha : a ∈ b.callbacks ++ b.subscribers := List.mem_singleton_self a
  obtain ⟨reponse, hreponse, hdans⟩ :=
    (hconforme.livree b (fun _ => false) a ha rfl).mp ((mem_publish_iff ha rfl).mpr rfl)
  obtain ⟨-, rfl⟩ := (applyFilter_eq_some_iff rfl rfl).mp hreponse
  have hretient := (List.mem_filter.mp (mem_trier.mp hdans)).2
  exact absurd hretient (by decide)

end Hermes.SystemEventBus
