import Hermes.Ral.Arbitrage
import Hermes.Runtime.ResourceManager

/-! # One task on a runtime

The executor arbitrates between the deciders, reserves the footprint of a model, and runs a chat:
a plain completion, the loop of tools, or the agent by its live session or by a process.
-/

namespace Hermes.TaskExecutor

open Lib Ressources Arbitrage

structure RealTaskExecutor where
  chat : Bool
  cloudChat : Bool
  defaultModel : String
  fallbackModel : String
  harnaisActif : Bool
  missionMaxToolRounds : Nat
  /-- The declared footprint in gibibytes, `none` when it is unknown or the call raises. -/
  vramGbFor : String → Option Rat

/-- `workspace` is the identifier of the bound project. -/
structure Task where
  missionId : String
  retries : Int
  workspace : Option String

/-- What the deciders answer during one execution. -/
structure Avis where
  runtimeBrut : String
  runtimeFor : Option String
  /-- `local_fallback_for` at a retry. -/
  reprise : Option String
  modelFor : Option String
  /-- `local_fallback_for` after the cloud. -/
  repliLocal : Option String
  /-- `modele_impose` for the type of the task, and for every type. -/
  impose : String
  secours : String
  /-- `agentic_capable_for` at the admission, and in the chat. -/
  capableAdmission : String → Option Bool
  capableChat : String → Option Bool

def NON_CHOISI_RUNTIME : List String := ["", "default", "auto", "none", "any"]

def runtimeDemande (brut : String) : String :=
  if (Texte.strip brut).toLower ∈ NON_CHOISI_RUNTIME then "hermes-agent" else Texte.strip brut

/-- `x or y` on an answer that may be missing. -/
def ou (reponse : Option String) (defaut : String) : String := Texte.ou (reponse.getD "") defaut

def RealTaskExecutor.resolveModel (x : RealTaskExecutor) (t : Task) (a : Avis) : String :=
  let choisi := ou a.modelFor x.defaultModel
  if 0 < t.retries then ou a.reprise choisi else choisi

def RealTaskExecutor.decider (x : RealTaskExecutor) (t : Task) (a : Avis) : Decision :=
  arbitrer
    [ { source := if propre (some a.runtimeBrut) ≠ "" then "assignation explicite"
          else "défaut HOS-142 — aucun runtime choisi"
        runtime := some (runtimeDemande a.runtimeBrut) },
      { source := "décideur de la tâche"
        runtime := a.runtimeFor
        modele := some (x.resolveModel t a)
        peutMonter := true } ]
    "hermes-agent" x.defaultModel x.cloudChat

/-- The model that drives the loop of the agent: the imposed or routed one, unless the fallback
has a proof that it has not. -/
def agenticModel (impose : String) (capableFor : String → Option Bool) (repli model : String) :
    String :=
  let name := Texte.strip (Texte.ou impose model)
  let capable := if name = "" then none else capableFor name
  if capable = some true then name
  else if name = repli then name
  else if capable = none ∧ capableFor repli ≠ some true then name
  else repli

def octets (vramGb : Rat) : Int := ⌊vramGb * 1024 ^ 3⌋

def RealTaskExecutor.empreinte (x : RealTaskExecutor) (model : String) : Option Int :=
  match x.vramGbFor model with
  | none => none
  | some vramGb => if 0 < vramGb then some (octets vramGb) else none

/-- A call that leaves the allocation of this identifier alone. -/
def Etranger (id : String) : ResourceManager.Appel → Prop
  | .reserver _ _ autre => autre ≠ id
  | .liberer autre => autre ≠ id

/-- What the other threads ask of the manager: they draw other identifiers and release what they
have reserved. -/
structure Autres (id : String) where
  appels : List (GPUInfo × ResourceManager.Appel)
  etrangers : ∀ item ∈ appels, Etranger id item.2

def Autres.apres {id : String} (autres : Autres id) (m : ResourceManager) : ResourceManager :=
  autres.appels.foldl (fun m item => ResourceManager.pas item.1 m item.2) m

structure Sonde (id : String) where
  avant : Autres id
  gpu : GPUInfo
  ram : ResourceSnapshot

def requete (model : String) (octets : Int) : Requete where
  bytesRequested := octets
  runtimeId := "ollama"
  modelName := some model

variable {id : String}

/-- The questions go on until one is granted or the time is over. -/
def attendre (r : Requete) : ResourceManager → List (Sonde id) → Option ResourceManager
  | _, [] => none
  | m, sonde :: sondes =>
      let m := sonde.avant.apres m
      match m.canAllocate sonde.gpu sonde.ram r id with
      | none => none
      | some result => if result.success then some m else attendre r m sondes

def RealTaskExecutor.checkVramAdmission (x : RealTaskExecutor) (m : ResourceManager)
    (model : String) (sondes : List (Sonde id)) : Option ResourceManager :=
  match x.empreinte model with
  | none => some m
  | some octets => attendre (requete model octets) m sondes

def RealTaskExecutor.admettreEtReserver (x : RealTaskExecutor) (m : ResourceManager)
    (model : String) (sondes : List (Sonde id)) (sonde : Sonde id) :
    Option (ResourceManager × Option String) :=
  match x.checkVramAdmission m model sondes with
  | none => none
  | some m =>
      match x.empreinte model with
      | none => some (m, none)
      | some octets =>
          match (sonde.avant.apres m).reserveResources sonde.gpu sonde.ram (requete model octets)
            id with
          | (none, _) => none
          | (some result, m) =>
              if result.success then some (m, result.allocation.map (·.allocationId)) else none

def liberer (m : ResourceManager) (allocation : Option String) : ResourceManager :=
  match allocation with
  | none => m
  | some id => (m.releaseResources id).2

inductive Voie where
  | chat
  | outils
  | session
  | processus
  | repli
  deriving DecidableEq

structure Depart where
  voie : Voie
  modele : String
  deriving DecidableEq

/-- The model that a plain completion asks for: the client has a name for the empty one. -/
def RealTaskExecutor.servi (x : RealTaskExecutor) (model : String) : String :=
  if x.chat then model else Texte.ou model "default"

/-- What the model answers to one round: calls of tools, or the end of the loop. -/
inductive Round where
  | toolCalls
  | contenu
  | leve
  deriving DecidableEq

def runToolLoop (model : String) : Nat → List Round → List Depart
  | 0, _ => [⟨.outils, model⟩]
  | rounds + 1, .toolCalls :: suite => ⟨.outils, model⟩ :: runToolLoop model rounds suite
  | _ + 1, _ => [⟨.outils, model⟩]

structure Session where
  ouverte : Bool
  accepte : Bool
  modele : String
  /-- Whether the turn succeeds, `none` when it raises. -/
  tour : Option Bool
  /-- The model of the session once it has been reopened, `none` when that raises. -/
  rouverte : Option String
  reprise : Option Bool

def Session.actif (s : Session) (modele : String) : String :=
  if modele ≠ "" ∧ s.accepte then modele else s.modele

/-- A turn, played again once on a reopened session when it raises. -/
def Session.jouer (s : Session) (modele : String) : List Depart × Option Bool :=
  if !s.ouverte then ([], none)
  else
    match s.tour with
    | some abouti => ([⟨.session, s.actif modele⟩], some abouti)
    | none =>
        match s.rouverte with
        | none => ([⟨.session, s.actif modele⟩], none)
        | some repris => ([⟨.session, s.actif modele⟩, ⟨.session, repris⟩], s.reprise)

/-- What the harness and the process answer. A question that raises answers `none`. -/
structure Agent where
  pret : Option Bool
  disponible : Option Bool
  toursPerdusDe : String → Nat
  session : Session
  processus : Bool

def cleDeSession (projectId missionId : String) : String :=
  if Texte.strip projectId ≠ "" then "projet:" ++ Texte.strip projectId
  else if Texte.strip missionId ≠ "" then "mission:" ++ Texte.strip missionId
  else ""

def PLAFOND_TOURS_PERDUS : Nat := 2

def apresDesToursPerdus (secours model cle : String) (perdus : Nat) : String :=
  if cle = "" then model
  else if perdus < PLAFOND_TOURS_PERDUS then model
  else if secours = "" ∨ secours = model then model
  else secours

inductive Issue where
  | rendu
  | ailleurs
  | leve
  deriving DecidableEq

def RealTaskExecutor.parLaSession (x : RealTaskExecutor) (cle : String) (g : Agent) : Option Bool :=
  if !x.harnaisActif ∨ cle = "" then some false
  else
    match g.pret with
    | some true => g.disponible
    | autre => autre

def RealTaskExecutor.parLeHarnais (x : RealTaskExecutor) (secours cle : String) (g : Agent)
    (model : String) : List Depart × Issue :=
  match x.parLaSession cle g with
  | none => ([], .leve)
  | some false => ([], .ailleurs)
  | some true =>
      let tour := g.session.jouer (apresDesToursPerdus secours model cle (g.toursPerdusDe cle))
      (tour.1, if tour.2 = some true then .rendu else .ailleurs)

/-- The session, then the process when the session has not answered. -/
def RealTaskExecutor.hermesAgentChat (x : RealTaskExecutor) (t : Task) (a : Avis) (g : Agent)
    (model : String) : List Depart :=
  let model := agenticModel a.impose a.capableChat x.fallbackModel model
  let harnais := x.parLeHarnais a.secours (cleDeSession (t.workspace.getD "") t.missionId) g model
  if harnais.2 = .ailleurs ∧ g.processus then harnais.1 ++ [⟨.processus, model⟩] else harnais.1

/-- Everything an execution meets: the ledger, what the others do with it, and the answers of the
runtimes. -/
structure Monde (id : String) where
  registre : ResourceManager
  neuf : registre.allocations.get? id = none
  sondes : List (Sonde id)
  sonde : Sonde id
  cloud : Bool
  agent : Agent
  rounds : List Round
  autres : Nat → Autres id
  /-- How many starts there were when the executor, its budget over, has released its
  reservation. The coroutine goes on. -/
  budget : Option Nat

structure Moment where
  depart : Depart
  registre : ResourceManager
  deriving DecidableEq

/-- The starts in their order, from the `i`-th, and the ledger after them. -/
def suivre (autres : Nat → Autres id) : Nat → ResourceManager → List Depart →
    List Moment × ResourceManager
  | _, m, [] => ([], m)
  | i, m, depart :: departs =>
      let m := (autres i).apres m
      let suite := suivre autres (i + 1) m departs
      (⟨depart, m⟩ :: suite.1, suite.2)

def RealTaskExecutor.modeleAdmis (x : RealTaskExecutor) (a : Avis) (d : Decision) : String :=
  if d.runtime = "hermes-agent" then
    agenticModel a.impose a.capableAdmission x.fallbackModel d.modele
  else d.modele

/-- The chat of an execution that does not go to the cloud. -/
def RealTaskExecutor.departs (x : RealTaskExecutor) (t : Task) (a : Avis) (w : Monde id)
    (d : Decision) : List Depart :=
  if d.runtime = "hermes-agent" ∧ x.chat = false then x.hermesAgentChat t a w.agent d.modele
  else if t.workspace.isSome then
    runToolLoop d.modele (max 1 x.missionMaxToolRounds) w.rounds
  else [⟨.chat, x.servi d.modele⟩]

def RealTaskExecutor.modeleDeRepli (x : RealTaskExecutor) (a : Avis) : String :=
  ou a.repliLocal x.defaultModel

def RealTaskExecutor.executeCloud (x : RealTaskExecutor) (a : Avis) (w : Monde id) : List Moment :=
  if w.cloud then []
  else
    match x.checkVramAdmission w.registre (x.modeleDeRepli a) w.sondes with
    | none => []
    | some m => (suivre w.autres 0 m [⟨.repli, x.servi (x.modeleDeRepli a)⟩]).1

def RealTaskExecutor.executeLocal (x : RealTaskExecutor) (t : Task) (a : Avis) (w : Monde id)
    (d : Decision) : List Moment :=
  match x.admettreEtReserver w.registre (x.modeleAdmis a d) w.sondes w.sonde with
  | none => []
  | some (m, allocation) =>
      let departs := x.departs t a w d
      let n := w.budget.getD departs.length
      let avant := suivre w.autres 0 m (departs.take n)
      let apres := suivre w.autres n (liberer avant.2 allocation) (departs.drop n)
      avant.1 ++ apres.1

def RealTaskExecutor.execute (x : RealTaskExecutor) (t : Task) (a : Avis) (w : Monde id) :
    List Moment :=
  let d := x.decider t a
  if d.impossible ≠ "" then []
  else if d.runtime = MONTEE_AUTORISEE then x.executeCloud a w
  else x.executeLocal t a w d

/-- The allocation of this identifier is held, for these bytes. -/
def Tenue (m : ResourceManager) (id : String) (octets : Int) : Prop :=
  ∃ a, m.allocations.get? id = some a ∧ a.released = false ∧ a.bytesRequested = octets

/-- A model of a positive footprint starts under a reservation of that footprint. -/
def RealTaskExecutor.Couvert (x : RealTaskExecutor) (id : String) (m : ResourceManager)
    (depart : Depart) : Prop :=
  ∀ octets, x.empreinte depart.modele = some octets → Tenue m id octets

/-- The footprint of a model is unknown, or is the one of the admitted model. -/
def RealTaskExecutor.Couvre (x : RealTaskExecutor) (admis modele : String) : Prop :=
  x.empreinte modele = none ∨ x.empreinte modele = x.empreinte admis

section Registre

variable {m m' : ResourceManager} {x : RealTaskExecutor}

theorem get?_pas {gpu : GPUInfo} {appel : ResourceManager.Appel} (h : Etranger id appel) :
    (ResourceManager.pas gpu m appel).allocations.get? id = m.allocations.get? id := by
  cases appel with
  | reserver ram r autre =>
      have hne : id ≠ autre := Ne.symm h
      rcases m.reserveResources_cases gpu ram r autre with ⟨heq, -⟩ | ⟨heq, -⟩
      · rw [ResourceManager.pas, heq]
      · rw [ResourceManager.pas, heq, Dict.get?_set, if_neg hne]
  | liberer autre =>
      have hne : id ≠ autre := Ne.symm h
      rcases m.releaseResources_cases autre with ⟨heq, -⟩ | ⟨a, -, -, heq⟩
      · rw [ResourceManager.pas, heq]
      · rw [ResourceManager.pas, heq, Dict.get?_set, if_neg hne]

theorem get?_apres (autres : Autres id) (m : ResourceManager) :
    (autres.apres m).allocations.get? id = m.allocations.get? id := by
  cases autres with
  | mk appels etrangers =>
      unfold Autres.apres
      dsimp only
      induction appels generalizing m with
      | nil => rfl
      | cons item appels ih =>
          rw [List.foldl_cons, ih _ fun i hi => etrangers i (List.mem_cons_of_mem item hi)]
          exact get?_pas (etrangers item List.mem_cons_self)

theorem couvert_congr (h : m'.allocations.get? id = m.allocations.get? id) (depart : Depart) :
    x.Couvert id m' depart ↔ x.Couvert id m depart := by
  unfold RealTaskExecutor.Couvert Tenue
  rw [h]

theorem get?_suivre (autres : Nat → Autres id) (i : Nat) (m : ResourceManager)
    (departs : List Depart) :
    (suivre autres i m departs).2.allocations.get? id = m.allocations.get? id := by
  induction departs generalizing i m with
  | nil => rfl
  | cons depart departs ih =>
      rw [suivre]
      dsimp only
      rw [ih, get?_apres]

theorem couverts_suivre (autres : Nat → Autres id) (i : Nat) (m : ResourceManager)
    (departs : List Depart) :
    (∀ moment ∈ (suivre autres i m departs).1, x.Couvert id moment.registre moment.depart) ↔
      ∀ depart ∈ departs, x.Couvert id m depart := by
  induction departs generalizing i m with
  | nil => simp [suivre]
  | cons depart departs ih =>
      rw [suivre]
      dsimp only
      rw [List.forall_mem_cons, List.forall_mem_cons, ih]
      have hapres := get?_apres (autres i) m
      rw [couvert_congr hapres]
      simp only [couvert_congr hapres]

theorem get?_attendre {r : Requete} {sondes : List (Sonde id)} {m m' : ResourceManager}
    (h : attendre r m sondes = some m') :
    m'.allocations.get? id = m.allocations.get? id := by
  induction sondes generalizing m with
  | nil => cases h
  | cons sonde sondes ih =>
      rw [attendre] at h
      split at h
      · cases h
      · split at h
        · cases h
          exact get?_apres sonde.avant m
        · rw [ih h, get?_apres]

theorem get?_checkVramAdmission {model : String} {sondes : List (Sonde id)}
    (h : x.checkVramAdmission m model sondes = some m') :
    m'.allocations.get? id = m.allocations.get? id := by
  unfold RealTaskExecutor.checkVramAdmission at h
  split at h
  · cases h
    rfl
  · exact get?_attendre h

theorem admettreEtReserver_cases {model : String} {sondes : List (Sonde id)} {sonde : Sonde id}
    {allocation : Option String}
    (h : x.admettreEtReserver m model sondes sonde = some (m', allocation)) :
    (x.empreinte model = none ∧ allocation = none ∧
        m'.allocations.get? id = m.allocations.get? id) ∨
      ∃ octets, x.empreinte model = some octets ∧ allocation = some id ∧ Tenue m' id octets := by
  unfold RealTaskExecutor.admettreEtReserver at h
  split at h
  · cases h
  · next m₁ hcheck =>
      split at h
      · next hnone =>
          cases h
          exact .inl ⟨hnone, rfl, get?_checkVramAdmission hcheck⟩
      · next octets hsome =>
          right
          cases hreserve : (sonde.avant.apres m₁).reserveResources sonde.gpu sonde.ram
              (requete model octets) id with
          | mk reponse m₂ =>
              rw [hreserve] at h
              cases reponse with
              | none => cases h
              | some result =>
                  dsimp only at h
                  split at h
                  · next hok =>
                      cases h
                      obtain ⟨a, ha, hid, hactive, hbytes, hset⟩ :=
                        ResourceManager.reserveResources_accorde (by rw [hreserve]) hok
                      rw [hreserve] at hset
                      refine ⟨octets, hsome, by rw [ha, Option.map_some, hid], a, ?_, hactive, hbytes⟩
                      rw [show m' = _ from hset, Dict.get?_set_self]
                  · cases h

theorem couvert_iff {octets : Int} (h : Tenue m id octets) (depart : Depart) :
    x.Couvert id m depart ↔
      x.empreinte depart.modele = none ∨ x.empreinte depart.modele = some octets := by
  unfold RealTaskExecutor.Couvert
  cases hempreinte : x.empreinte depart.modele with
  | none => simp
  | some autre =>
      obtain ⟨a, ha, hactive, hbytes⟩ := h
      constructor
      · intro hall
        obtain ⟨b, hb, -, hautre⟩ := hall autre rfl
        rw [ha] at hb
        cases hb
        exact .inr (by rw [← hautre, hbytes])
      · intro hor o ho
        cases ho
        rcases hor with hnone | heq
        · cases hnone
        · exact ⟨a, ha, hactive, hbytes.trans (Option.some.inj heq).symm⟩

theorem couvert_libre (h : m.Libre id) (depart : Depart) :
    x.Couvert id m depart ↔ x.empreinte depart.modele = none := by
  unfold RealTaskExecutor.Couvert
  cases hempreinte : x.empreinte depart.modele with
  | none => simp
  | some octets =>
      simp only [Option.some.injEq, forall_eq', reduceCtorEq, iff_false]
      intro ⟨a, ha, hactive, _⟩
      rw [h a ha] at hactive
      cases hactive

end Registre

/-- The models that a turn of the session runs have the footprint that was admitted. -/
def RealTaskExecutor.SessionConforme (x : RealTaskExecutor) (admis : String) (s : Session)
    (modele : String) : Prop :=
  s.ouverte = true → x.Couvre admis (s.actif modele) ∧
    (s.tour = none → ∀ repris, s.rouverte = some repris → x.Couvre admis repris)

/-- The session and, where it does not answer, the process. -/
def RealTaskExecutor.AgentConforme (x : RealTaskExecutor) (t : Task) (a : Avis) (g : Agent)
    (admis model : String) : Prop :=
  let model := agenticModel a.impose a.capableChat x.fallbackModel model
  let cle := cleDeSession (t.workspace.getD "") t.missionId
  (x.parLaSession cle g = some true → x.SessionConforme admis g.session
      (apresDesToursPerdus a.secours model cle (g.toursPerdusDe cle))) ∧
    ((x.parLeHarnais a.secours cle g model).2 = .ailleurs → g.processus = true →
      x.Couvre admis model)

/-- The models that a local execution runs have the footprint that was admitted. -/
def RealTaskExecutor.ModelesConformes (x : RealTaskExecutor) (t : Task) (a : Avis) (g : Agent)
    (d : Decision) : Prop :=
  if d.runtime = "hermes-agent" ∧ x.chat = false then
    x.AgentConforme t a g (x.modeleAdmis a d) d.modele
  else if t.workspace.isSome then x.Couvre (x.modeleAdmis a d) d.modele
  else x.Couvre (x.modeleAdmis a d) (x.servi d.modele)

/-- A refused admission starts nothing. -/
def RealTaskExecutor.Conforme (x : RealTaskExecutor) (t : Task) (a : Avis) (w : Monde id) : Prop :=
  let d := x.decider t a
  d.impossible ≠ "" ∨
    if d.runtime = MONTEE_AUTORISEE then
      w.cloud = true ∨ x.checkVramAdmission w.registre (x.modeleDeRepli a) w.sondes = none ∨
        x.empreinte (x.servi (x.modeleDeRepli a)) = none
    else
      x.admettreEtReserver w.registre (x.modeleAdmis a d) w.sondes w.sonde = none ∨
        (x.ModelesConformes t a w.agent d ∧ ∀ n, w.budget = some n →
          ∀ depart ∈ (x.departs t a w d).drop n, x.empreinte depart.modele = none)

section Conformite

variable {x : RealTaskExecutor} {t : Task} {a : Avis} {w : Monde id}

theorem jouer_iff (admis : String) (s : Session) (modele : String) :
    (∀ depart ∈ (s.jouer modele).1, x.Couvre admis depart.modele) ↔
      x.SessionConforme admis s modele := by
  unfold Session.jouer RealTaskExecutor.SessionConforme
  cases s.ouverte with
  | false => simp
  | true =>
      cases s.tour with
      | some abouti => simp
      | none =>
          cases s.rouverte with
          | none => simp
          | some repris => simp

theorem runToolLoop_iff (admis model : String) (rounds : Nat) (reponses : List Round) :
    (∀ depart ∈ runToolLoop model rounds reponses, x.Couvre admis depart.modele) ↔
      x.Couvre admis model := by
  induction rounds, reponses using runToolLoop.induct with
  | case1 => simp [runToolLoop]
  | case2 rounds suite ih => simp [runToolLoop, ih]
  | case3 rounds reponses h =>
      rw [runToolLoop]
      · simp
      · exact h

theorem parLeHarnais_departs (secours cle : String) (g : Agent) (admis model : String) :
    (∀ depart ∈ (x.parLeHarnais secours cle g model).1, x.Couvre admis depart.modele) ↔
      (x.parLaSession cle g = some true → x.SessionConforme admis g.session
        (apresDesToursPerdus secours model cle (g.toursPerdusDe cle))) := by
  unfold RealTaskExecutor.parLeHarnais
  cases x.parLaSession cle g with
  | none => simp
  | some servie =>
      cases servie with
      | false => simp
      | true => simp [jouer_iff]

theorem hermesAgentChat_iff (g : Agent) (admis model : String) :
    (∀ depart ∈ x.hermesAgentChat t a g model, x.Couvre admis depart.modele) ↔
      x.AgentConforme t a g admis model := by
  unfold RealTaskExecutor.hermesAgentChat RealTaskExecutor.AgentConforme
  dsimp only
  rw [← parLeHarnais_departs]
  split
  · next h =>
      rw [List.forall_mem_append]
      simp [h.1, h.2]
  · next h =>
      constructor
      · intro hall
        exact ⟨hall, fun hissue hprocessus => absurd ⟨hissue, hprocessus⟩ h⟩
      · intro hall
        exact hall.1

theorem departs_iff (d : Decision) :
    (∀ depart ∈ x.departs t a w d, x.Couvre (x.modeleAdmis a d) depart.modele) ↔
      x.ModelesConformes t a w.agent d := by
  unfold RealTaskExecutor.departs RealTaskExecutor.ModelesConformes
  split
  · exact hermesAgentChat_iff _ _ _
  · split
    · exact runToolLoop_iff _ _ _ _
    · simp

theorem forall_take_drop {α : Type*} {p q : α → Prop} (hqp : ∀ b, q b → p b) (l : List α)
    (n : Nat) : ((∀ b ∈ l.take n, p b) ∧ ∀ b ∈ l.drop n, q b) ↔
      (∀ b ∈ l, p b) ∧ ∀ b ∈ l.drop n, q b := by
  have hsplit : (∀ b ∈ l, p b) ↔ (∀ b ∈ l.take n, p b) ∧ ∀ b ∈ l.drop n, p b := by
    rw [← List.forall_mem_append, List.take_append_drop]
  rw [hsplit]
  constructor
  · intro ⟨htake, hdrop⟩
    exact ⟨⟨htake, fun b hb => hqp b (hdrop b hb)⟩, hdrop⟩
  · intro ⟨⟨htake, _⟩, hdrop⟩
    exact ⟨htake, hdrop⟩

theorem executeLocal_iff (d : Decision) :
    (∀ moment ∈ x.executeLocal t a w d, x.Couvert id moment.registre moment.depart) ↔
      x.admettreEtReserver w.registre (x.modeleAdmis a d) w.sondes w.sonde = none ∨
        (x.ModelesConformes t a w.agent d ∧ ∀ n, w.budget = some n →
          ∀ depart ∈ (x.departs t a w d).drop n, x.empreinte depart.modele = none) := by
  unfold RealTaskExecutor.executeLocal
  cases hadmis : x.admettreEtReserver w.registre (x.modeleAdmis a d) w.sondes w.sonde with
  | none => simp
  | some rendu =>
      cases rendu with
      | mk m allocation =>
          dsimp only
          let n := w.budget.getD (x.departs t a w d).length
          have hbudget : (∀ k, w.budget = some k →
                ∀ depart ∈ (x.departs t a w d).drop k, x.empreinte depart.modele = none) ↔
              ∀ depart ∈ (x.departs t a w d).drop n, x.empreinte depart.modele = none := by
            cases hk : w.budget with
            | none => simp [n, hk]
            | some k => simp [n, hk]
          have hcouvre : ∀ depart : Depart, x.empreinte depart.modele = none →
              x.Couvre (x.modeleAdmis a d) depart.modele := fun _ hnone => .inl hnone
          rw [List.forall_mem_append, couverts_suivre, couverts_suivre, hbudget, ← departs_iff,
            ← forall_take_drop hcouvre]
          simp only [reduceCtorEq, false_or]
          have hmilieu := get?_suivre w.autres 0 m ((x.departs t a w d).take n)
          rcases admettreEtReserver_cases hadmis with ⟨hnone, halloc, hget⟩ | ⟨octets, hsome, halloc, htenue⟩
          · have hlibre : m.Libre id := by
              intro b hb
              rw [hget, w.neuf] at hb
              cases hb
            have hlibre' : (suivre w.autres 0 m ((x.departs t a w d).take n)).2.Libre id := by
              intro b hb
              rw [hmilieu] at hb
              exact hlibre b hb
            simp only [halloc, liberer, couvert_libre hlibre, RealTaskExecutor.Couvre, hnone, or_self]
            rw [show w.budget.getD (x.departs t a w d).length = n from rfl]
            simp only [couvert_libre hlibre']
          · simp only [halloc, liberer, couvert_iff htenue,
              couvert_libre (ResourceManager.libre_releaseResources _ id), RealTaskExecutor.Couvre,
              hsome]
            exact Iff.rfl

theorem executeCloud_iff :
    (∀ moment ∈ x.executeCloud a w, x.Couvert id moment.registre moment.depart) ↔
      w.cloud = true ∨ x.checkVramAdmission w.registre (x.modeleDeRepli a) w.sondes = none ∨
        x.empreinte (x.servi (x.modeleDeRepli a)) = none := by
  unfold RealTaskExecutor.executeCloud
  split
  · next hcloud => simp [hcloud]
  · next hcloud =>
      cases hadmis : x.checkVramAdmission w.registre (x.modeleDeRepli a) w.sondes with
      | none => simp
      | some m =>
          have hlibre : m.Libre id := by
            intro b hb
            rw [get?_checkVramAdmission hadmis, w.neuf] at hb
            cases hb
          dsimp only
          rw [couverts_suivre]
          simp [couvert_libre hlibre, hcloud]

end Conformite

/-- Every local inference of an execution starts under a reservation of the footprint of its
model exactly when the execution keeps to what it has admitted. -/
theorem departs_couverts_iff (x : RealTaskExecutor) (t : Task) (a : Avis) (w : Monde id) :
    (∀ moment ∈ x.execute t a w, x.Couvert id moment.registre moment.depart) ↔
      x.Conforme t a w := by
  unfold RealTaskExecutor.execute RealTaskExecutor.Conforme
  dsimp only
  split
  · next himpossible => simp [himpossible]
  · next hpossible =>
      rw [or_iff_right hpossible]
      split
      · exact executeCloud_iff
      · exact executeLocal_iff _

def executeur : RealTaskExecutor where
  chat := false
  cloudChat := false
  defaultModel := "petit"
  fallbackModel := "petit"
  harnaisActif := true
  missionMaxToolRounds := 12
  vramGbFor model := if model = "petit" then some 4 else if model = "grand" then some 12 else none

def tache : Task := { missionId := "m", retries := 0, workspace := some "p" }

/-- The operator imposes the small model on this type of task and the large one on the others. -/
def avis : Avis where
  runtimeBrut := "hermes-agent"
  runtimeFor := none
  reprise := none
  modelFor := some "petit"
  repliLocal := none
  impose := "petit"
  secours := "grand"
  capableAdmission _ := some true
  capableChat _ := some true

def seul : Autres "a" where
  appels := []
  etrangers := List.forall_mem_nil _

def carte : Sonde "a" where
  avant := seul
  gpu := { vramTotalBytes := 16 * gio, vramUsedBytes := 2 * gio, vramFreeBytes := 14 * gio }
  ram := { resourceType := .ram, totalBytes := 0, usedBytes := 0, freeBytes := 0 }

def session : Session where
  ouverte := true
  accepte := true
  modele := "petit"
  tour := some true
  rouverte := none
  reprise := none

def monde : Monde "a" where
  registre := {}
  neuf := rfl
  sondes := [carte]
  sonde := carte
  cloud := true
  agent :=
    { pret := some true
      disponible := some true
      toursPerdusDe := fun _ => 2
      session := session
      processus := true }
  rounds := []
  autres _ := seul
  budget := none

/-- The large model starts under a reservation of the small one. -/
theorem retrograde_sans_place : ¬∀ moment ∈ executeur.execute tache avis monde,
    executeur.Couvert "a" moment.registre moment.depart := by
  intro hall
  let ligne : ResourceAllocation :=
    { allocationId := "a", runtimeId := "ollama", resourceType := .vram,
      bytesRequested := 4 * gio, bytesAllocated := 4 * gio, modelName := some "petit",
      priority := 0 }
  have hmem : ⟨⟨.session, "grand"⟩, { allocations := [("a", ligne)] }⟩ ∈
      executeur.execute tache avis monde := by
    decide +kernel
  obtain ⟨a, ha, -, hbytes⟩ := hall _ hmem (12 * gio) (by decide +kernel)
  have hligne : a = ligne := (Option.some.inj ha).symm
  rw [hligne] at hbytes
  revert hbytes
  decide

end Hermes.TaskExecutor
