import Mathlib.Data.List.Perm.Basic
import Mathlib.Order.Lattice

/-! # What the attempts of a run observed of the machine

An observation is filled reading after reading, and a reading may stop halfway: what it had noted
before stays.
-/

namespace Hermes.Consommation

/-- The attributes of the card; `none` where the attribute is missing or null. -/
structure Gpu where
  available : Option Bool := none
  occupationMesuree : Option Bool := none
  vramUsedBytes : Option Int := none
deriving DecidableEq

structure Gestionnaire where
  getGpuInfo : Except String Gpu
  getCurrentAllocations : Except String (List (Option String))

structure ObservationPhysique where
  vramReserveeOctets : Option Int := none
  vramMachineDebutOctets : Option Int := none
  vramMachinePicOctets : Option Int := none
  autresAllocationsMax : Option Nat := none
deriving DecidableEq

/-- The dictionary that crosses to the registry; an absent key is `none`. -/
structure Mesures where
  vramReserveeOctets : Option Int := none
  vramMachineDebutOctets : Option Int := none
  vramMachinePicOctets : Option Int := none
  exclusif : Option Bool := none
deriving DecidableEq

namespace ObservationPhysique

variable (o : ObservationPhysique)

def exclusif : Option Bool := o.autresAllocationsMax.map (· == 0)

/-- The occupation of a card that was measured, as the start (once) and as a new peak. -/
def noterLaCarte (gpu : Gpu) (ligneDeBase : Bool) : ObservationPhysique :=
  if gpu.available.getD false && gpu.occupationMesuree.getD true then
    let occupee := gpu.vramUsedBytes.getD 0
    { o with
      vramMachineDebutOctets :=
        if ligneDeBase && o.vramMachineDebutOctets.isNone then some occupee
        else o.vramMachineDebutOctets
      vramMachinePicOctets :=
        match o.vramMachinePicOctets with
        | none => some occupee
        | some pic => if occupee > pic then some occupee else some pic }
  else o

def noterLesAutres (actives : List (Option String)) (notreAllocation : Option String) :
    ObservationPhysique :=
  let autres := (actives.filter (· ≠ notreAllocation)).length
  { o with autresAllocationsMax := some (max (o.autresAllocationsMax.getD 0) autres) }

/-- `_relever`; an error carries the observation as the exception left it. -/
def releverOuLever (gestionnaire : Gestionnaire) (notreAllocation : Option String)
    (ligneDeBase : Bool) : Except ObservationPhysique ObservationPhysique :=
  match gestionnaire.getGpuInfo with
  | .error _ => .error o
  | .ok gpu =>
      match gestionnaire.getCurrentAllocations with
      | .error _ => .error (o.noterLaCarte gpu ligneDeBase)
      | .ok actives =>
          .ok ((o.noterLaCarte gpu ligneDeBase).noterLesAutres actives notreAllocation)

def relever (gestionnaire : Option Gestionnaire) (notreAllocation : Option String)
    (ligneDeBase : Bool) : ObservationPhysique :=
  match gestionnaire with
  | none => o
  | some g =>
      match o.releverOuLever g notreAllocation ligneDeBase with
      | .ok o' => o'
      | .error o' => o'

def noterLaReservation (octets : Option Int) : ObservationPhysique :=
  match octets with
  | some n => if n > 0 then { o with vramReserveeOctets := some n } else o
  | none => o

def toDict : Mesures where
  vramReserveeOctets := o.vramReserveeOctets
  vramMachineDebutOctets := o.vramMachineDebutOctets
  vramMachinePicOctets := o.vramMachinePicOctets
  exclusif := o.exclusif

end ObservationPhysique

/-- What the executor asks of the observation of an attempt. -/
inductive Geste
  | relever (gestionnaire : Option Gestionnaire) (notreAllocation : Option String)
      (ligneDeBase : Bool)
  | noterLaReservation (octets : Option Int)

def ObservationPhysique.appliquer (o : ObservationPhysique) : Geste → ObservationPhysique
  | .relever gestionnaire notreAllocation ligneDeBase =>
      o.relever gestionnaire notreAllocation ligneDeBase
  | .noterLaReservation octets => o.noterLaReservation octets

/-- The observation of an attempt, from its creation on. -/
def observer (gestes : List Geste) : ObservationPhysique :=
  gestes.foldl ObservationPhysique.appliquer {}

/-- What the task keeps: nothing when the dictionary is empty. -/
def ressourcesPhysiques (gestes : List Geste) : Option Mesures :=
  let mesures := (observer gestes).toDict
  if mesures = {} then none else some mesures

def valeurs {α : Type} (cle : Mesures → Option α) (observations : List (Option Mesures)) : List α :=
  observations.filterMap (·.bind cle)

def agreger (observations : List (Option Mesures)) : Mesures where
  vramReserveeOctets := (valeurs (·.vramReserveeOctets) observations).max?
  vramMachineDebutOctets := (valeurs (·.vramMachineDebutOctets) observations).min?
  vramMachinePicOctets := (valeurs (·.vramMachinePicOctets) observations).max?
  exclusif :=
    let v := valeurs (·.exclusif) observations
    if v = [] then none else some (v.all id)

/-- The list `_clore_le_run` hands over: `ressources_physiques or {}` of each task. -/
def observationsDuRun (taches : List (List Geste)) : List (Option Mesures) :=
  taches.map fun gestes => some ((ressourcesPhysiques gestes).getD {})

/-- A start is noted with a peak that reaches it. -/
def DebutSousLePic (debut pic : Option Int) : Prop :=
  ∀ d, debut = some d → ∃ p, pic = some p ∧ d ≤ p

section Releves

variable {o : ObservationPhysique}

theorem pic_noterLaCarte (gpu : Gpu) (ligneDeBase : Bool) {p : Int}
    (hpic : o.vramMachinePicOctets = some p) :
    ∃ p', (o.noterLaCarte gpu ligneDeBase).vramMachinePicOctets = some p' ∧ p ≤ p' := by
  unfold ObservationPhysique.noterLaCarte
  split
  · by_cases hplus : gpu.vramUsedBytes.getD 0 > p
    · exact ⟨_, by simp only [hpic, if_pos hplus], le_of_lt hplus⟩
    · exact ⟨p, by simp only [hpic, if_neg hplus], le_rfl⟩
  · exact ⟨p, hpic, le_rfl⟩

theorem debutSousLePic_noterLaCarte (gpu : Gpu) (ligneDeBase : Bool)
    (h : DebutSousLePic o.vramMachineDebutOctets o.vramMachinePicOctets) :
    DebutSousLePic (o.noterLaCarte gpu ligneDeBase).vramMachineDebutOctets
      (o.noterLaCarte gpu ligneDeBase).vramMachinePicOctets := by
  intro d hd
  by_cases hancien : o.vramMachineDebutOctets = some d
  · obtain ⟨p, hp, hdp⟩ := h d hancien
    obtain ⟨p', hp', hpp'⟩ := pic_noterLaCarte gpu ligneDeBase hp
    exact ⟨p', hp', hdp.trans hpp'⟩
  · -- The start is new: it is the occupation just read, which the peak reaches.
    unfold ObservationPhysique.noterLaCarte at hd ⊢
    split at hd
    · next hmesuree =>
        simp only [hmesuree, if_true]
        split at hd
        · cases hd
          cases hpic : o.vramMachinePicOctets with
          | none => exact ⟨_, rfl, le_rfl⟩
          | some p =>
              by_cases hplus : gpu.vramUsedBytes.getD 0 > p
              · exact ⟨_, by simp only [if_pos hplus], le_rfl⟩
              · exact ⟨p, by simp only [if_neg hplus], not_lt.mp hplus⟩
        · exact absurd hd hancien
    · exact absurd hd hancien

theorem debutSousLePic_relever (gestionnaire : Option Gestionnaire)
    (notreAllocation : Option String) (ligneDeBase : Bool)
    (h : DebutSousLePic o.vramMachineDebutOctets o.vramMachinePicOctets) :
    DebutSousLePic (o.relever gestionnaire notreAllocation ligneDeBase).vramMachineDebutOctets
      (o.relever gestionnaire notreAllocation ligneDeBase).vramMachinePicOctets := by
  cases gestionnaire with
  | none => exact h
  | some g =>
      simp only [ObservationPhysique.relever, ObservationPhysique.releverOuLever]
      cases g.getGpuInfo with
      | error e => exact h
      | ok gpu =>
          cases g.getCurrentAllocations with
          | error e => exact debutSousLePic_noterLaCarte gpu ligneDeBase h
          | ok actives => exact debutSousLePic_noterLaCarte gpu ligneDeBase h

theorem debutSousLePic_appliquer (geste : Geste)
    (h : DebutSousLePic o.vramMachineDebutOctets o.vramMachinePicOctets) :
    DebutSousLePic (o.appliquer geste).vramMachineDebutOctets
      (o.appliquer geste).vramMachinePicOctets := by
  cases geste with
  | relever gestionnaire notreAllocation ligneDeBase =>
      exact debutSousLePic_relever gestionnaire notreAllocation ligneDeBase h
  | noterLaReservation octets =>
      simp only [ObservationPhysique.appliquer, ObservationPhysique.noterLaReservation]
      split
      · split
        · exact h
        · exact h
      · exact h

theorem debutSousLePic_foldl (gestes : List Geste)
    (h : DebutSousLePic o.vramMachineDebutOctets o.vramMachinePicOctets) :
    DebutSousLePic (gestes.foldl ObservationPhysique.appliquer o).vramMachineDebutOctets
      (gestes.foldl ObservationPhysique.appliquer o).vramMachinePicOctets := by
  induction gestes generalizing o with
  | nil => exact h
  | cons geste reste ih => exact ih (debutSousLePic_appliquer geste h)

theorem debutSousLePic_observer (gestes : List Geste) :
    DebutSousLePic (observer gestes).toDict.vramMachineDebutOctets
      (observer gestes).toDict.vramMachinePicOctets :=
  debutSousLePic_foldl gestes fun _ hd => nomatch hd

end Releves

section Agregat

variable {α : Type} {observations autres : List (Option Mesures)} {cle : Mesures → Option α}

theorem mem_valeurs {a : α} :
    a ∈ valeurs cle observations ↔ ∃ m, some m ∈ observations ∧ cle m = some a := by
  rw [valeurs, List.mem_filterMap]
  constructor
  · rintro ⟨entree, hmem, hcle⟩
    obtain ⟨m, rfl, hm⟩ := Option.bind_eq_some_iff.mp hcle
    exact ⟨m, hmem, hm⟩
  · rintro ⟨m, hmem, hm⟩
    exact ⟨some m, hmem, hm⟩

theorem valeurs_perm (cle : Mesures → Option α) (hperm : observations.Perm autres) :
    (valeurs cle observations).Perm (valeurs cle autres) :=
  hperm.filterMap _

theorem max?_perm {l l' : List Int} (hperm : l.Perm l') : l.max? = l'.max? := by
  apply Option.ext
  intro a
  simp only [List.max?_eq_some_iff, hperm.mem_iff]

theorem min?_perm {l l' : List Int} (hperm : l.Perm l') : l.min? = l'.min? := by
  apply Option.ext
  intro a
  simp only [List.min?_eq_some_iff, hperm.mem_iff]

theorem agreger_exclusif_eq_true :
    (agreger observations).exclusif = some true ↔
      valeurs (·.exclusif) observations ≠ [] ∧
        ∀ b ∈ valeurs (·.exclusif) observations, b = true := by
  unfold agreger
  by_cases hvide : valeurs (·.exclusif) observations = []
  · simp [hvide]
  · simp [hvide]

theorem agreger_perm (hperm : observations.Perm autres) : agreger observations = agreger autres := by
  have hreservee := max?_perm (valeurs_perm (fun m => m.vramReserveeOctets) hperm)
  have hdebut := min?_perm (valeurs_perm (fun m => m.vramMachineDebutOctets) hperm)
  have hpic := max?_perm (valeurs_perm (fun m => m.vramMachinePicOctets) hperm)
  have hexclusif := valeurs_perm (fun m => m.exclusif) hperm
  unfold agreger
  rw [hreservee, hdebut, hpic]
  congr 1
  by_cases hvide : valeurs (·.exclusif) observations = []
  · have hvide' := hvide ▸ hexclusif
    rw [if_pos hvide, if_pos hvide'.nil_eq.symm]
  · have hvide' : valeurs (·.exclusif) autres ≠ [] := fun h => hvide (h ▸ hexclusif).eq_nil
    rw [if_neg hvide, if_neg hvide', hexclusif.all_eq]

theorem debutSousLePic_agreger
    (h : ∀ m, some m ∈ observations →
      DebutSousLePic m.vramMachineDebutOctets m.vramMachinePicOctets) :
    DebutSousLePic (agreger observations).vramMachineDebutOctets
      (agreger observations).vramMachinePicOctets := by
  intro d hd
  have hdebut := (List.min?_eq_some_iff.mp hd).1
  obtain ⟨m, hm, hmd⟩ := mem_valeurs.mp hdebut
  obtain ⟨p, hp, hdp⟩ := h m hm d hmd
  have hpic : p ∈ valeurs (·.vramMachinePicOctets) observations := mem_valeurs.mpr ⟨m, hm, hp⟩
  cases hmax : (valeurs (·.vramMachinePicOctets) observations).max? with
  | none =>
      rw [List.max?_eq_none_iff] at hmax
      rw [hmax] at hpic
      cases hpic
  | some pic => exact ⟨pic, hmax, hdp.trans ((List.max?_eq_some_iff.mp hmax).2 p hpic)⟩

end Agregat

theorem ressourcesPhysiques_getD (gestes : List Geste) :
    (ressourcesPhysiques gestes).getD {} = (observer gestes).toDict := by
  unfold ressourcesPhysiques
  by_cases hvide : (observer gestes).toDict = {}
  · simp [hvide]
  · simp [hvide]

theorem observationsDuRun_eq (taches : List (List Geste)) :
    observationsDuRun taches = taches.map fun gestes => some (observer gestes).toDict := by
  simp only [observationsDuRun, ressourcesPhysiques_getD]

section Run

variable (taches : List (List Geste))

/-- The exclusivity an attempt reported, `none` when it could not be observed. -/
def exclusiviteDe (gestes : List Geste) : Option Bool := (observer gestes).toDict.exclusif

/-- Exclusive only when every attempt was, a peak no lower than the start, in any order. -/
structure AgregatFidele : Prop where
  exclusif : (agreger (observationsDuRun taches)).exclusif = some true →
    ∀ gestes ∈ taches, exclusiviteDe gestes = some true
  pic : ∀ d p, (agreger (observationsDuRun taches)).vramMachineDebutOctets = some d →
    (agreger (observationsDuRun taches)).vramMachinePicOctets = some p → d ≤ p
  ordre : ∀ autres : List (List Geste), taches.Perm autres →
    agreger (observationsDuRun autres) = agreger (observationsDuRun taches)

/-- Every attempt could tell whether it was alone, or none could, or one was not. -/
def ExclusiviteTranchee : Prop :=
  (∀ gestes ∈ taches, exclusiviteDe gestes ≠ none) ∨
    (∀ gestes ∈ taches, exclusiviteDe gestes = none) ∨
      ∃ gestes ∈ taches, exclusiviteDe gestes = some false

end Run

section Fidelite

variable {taches : List (List Geste)}

theorem mem_exclusivites {b : Bool} :
    b ∈ valeurs (·.exclusif) (observationsDuRun taches) ↔
      ∃ gestes ∈ taches, exclusiviteDe gestes = some b := by
  rw [mem_valeurs, observationsDuRun_eq]
  simp only [List.mem_map, Option.some.injEq]
  constructor
  · rintro ⟨m, ⟨gestes, hmem, rfl⟩, hb⟩
    exact ⟨gestes, hmem, hb⟩
  · rintro ⟨gestes, hmem, hb⟩
    exact ⟨_, ⟨gestes, hmem, rfl⟩, hb⟩

theorem exclusif_observationsDuRun :
    (agreger (observationsDuRun taches)).exclusif = some true ↔
      (∃ gestes ∈ taches, exclusiviteDe gestes = some true) ∧
        ¬ ∃ gestes ∈ taches, exclusiviteDe gestes = some false := by
  rw [agreger_exclusif_eq_true]
  constructor
  · rintro ⟨hnonVide, htoutes⟩
    obtain ⟨b, hb⟩ := List.exists_mem_of_ne_nil _ hnonVide
    have hvrai : true ∈ valeurs (·.exclusif) (observationsDuRun taches) := htoutes b hb ▸ hb
    refine ⟨mem_exclusivites.mp hvrai, fun hfaux => ?_⟩
    exact Bool.false_ne_true (htoutes false (mem_exclusivites.mpr hfaux))
  · rintro ⟨hvrai, hfaux⟩
    refine ⟨List.ne_nil_of_mem (mem_exclusivites.mpr hvrai), fun b hb => ?_⟩
    cases b with
    | true => rfl
    | false => exact absurd (mem_exclusivites.mp hb) hfaux

theorem pic_observationsDuRun (d p : Int)
    (hd : (agreger (observationsDuRun taches)).vramMachineDebutOctets = some d)
    (hp : (agreger (observationsDuRun taches)).vramMachinePicOctets = some p) : d ≤ p := by
  have hcoherentes : ∀ m, some m ∈ observationsDuRun taches →
      DebutSousLePic m.vramMachineDebutOctets m.vramMachinePicOctets := by
    intro m hm
    rw [observationsDuRun_eq] at hm
    obtain ⟨gestes, -, hgestes⟩ := List.mem_map.mp hm
    cases hgestes
    exact debutSousLePic_observer gestes
  obtain ⟨pic, hpic, hdp⟩ := debutSousLePic_agreger hcoherentes d hd
  rw [hp] at hpic
  cases hpic
  exact hdp

/-- The record of a run is faithful to its attempts exactly when no attempt is silent about its
exclusivity while the others all say they were alone. -/
theorem agregatFidele_iff (taches : List (List Geste)) :
    AgregatFidele taches ↔ ExclusiviteTranchee taches := by
  constructor
  · intro hfidele
    by_contra htranchee
    unfold ExclusiviteTranchee at htranchee
    push Not at htranchee
    obtain ⟨⟨muette, hmuette, hrien⟩, ⟨parlante, hparlante, hdit⟩, hseules⟩ := htranchee
    have hvraie : exclusiviteDe parlante = some true := by
      cases hb : exclusiviteDe parlante with
      | none => exact absurd hb hdit
      | some b =>
          cases b with
          | true => rfl
          | false => exact absurd hb (hseules parlante hparlante)
    have hexclusif : (agreger (observationsDuRun taches)).exclusif = some true := by
      refine exclusif_observationsDuRun.mpr ⟨⟨parlante, hparlante, hvraie⟩, ?_⟩
      rintro ⟨gestes, hmem, hfausse⟩
      exact hseules gestes hmem hfausse
    have htoutes := hfidele.exclusif hexclusif muette hmuette
    rw [hrien] at htoutes
    cases htoutes
  · intro htranchee
    have hordre : ∀ autres : List (List Geste), taches.Perm autres →
        agreger (observationsDuRun autres) = agreger (observationsDuRun taches) :=
      fun autres hperm => agreger_perm (hperm.symm.map _)
    refine ⟨fun hexclusif gestes hmem => ?_, pic_observationsDuRun, hordre⟩
    obtain ⟨⟨parlante, hparlante, hvraie⟩, hfausse⟩ := exclusif_observationsDuRun.mp hexclusif
    rcases htranchee with htoutes | haucune | hune
    · cases hb : exclusiviteDe gestes with
      | none => exact absurd hb (htoutes gestes hmem)
      | some b =>
          cases b with
          | true => rfl
          | false => exact absurd ⟨gestes, hmem, hb⟩ hfausse
    · rw [haucune parlante hparlante] at hvraie
      cases hvraie
    · exact absurd hune hfausse

/-- A card that answers and a run that is alone on it. -/
def releveSeul : Geste :=
  .relever (some ⟨.ok ⟨some true, some true, some 3⟩, .ok []⟩) none true

/-- A reading that the probe of the card interrupts. -/
def releveManque : Geste :=
  .relever (some ⟨.error "gpu", .ok []⟩) none true

/-- One attempt alone on the card and one that could not look make an exclusive run. -/
theorem silence_pris_pour_exclusif :
    (agreger (observationsDuRun [[releveSeul], [releveManque]])).exclusif = some true ∧
      exclusiviteDe [releveManque] = none ∧ ¬ AgregatFidele [[releveSeul], [releveManque]] := by
  have hexclusif :
      (agreger (observationsDuRun [[releveSeul], [releveManque]])).exclusif = some true := by
    decide
  have hmuette : exclusiviteDe [releveManque] = none := by decide
  refine ⟨hexclusif, hmuette, fun hfidele => ?_⟩
  have hvraie := hfidele.exclusif hexclusif [releveManque] (by simp)
  rw [hmuette] at hvraie
  cases hvraie

end Fidelite

end Hermes.Consommation
