import Hermes.Runtime.ResourceManager
import Mathlib.Data.Set.Finite.Basic

/-! # How many tasks still fit

The count asks the admission for one task, two tasks, three tasks at once, and stops at the first
refusal.
-/

namespace Hermes.Ressources

open Lib

/-- `none` when a trial raises. -/
def compter (essai : Nat → Option Bool) : Nat → Nat → Option Nat
  | 0, places => some places
  | reste + 1, places =>
      match essai (places + 1) with
      | none => none
      | some false => some places
      | some true => compter essai reste (places + 1)

section Compter

variable {essai : Nat → Option Bool} {reste places n : Nat}

theorem compter_spec (h : compter essai reste places = some n) :
    places ≤ n ∧ n ≤ places + reste ∧ (∀ k, places < k → k ≤ n → essai k = some true) ∧
      (n < places + reste → essai (n + 1) = some false) := by
  induction reste generalizing places with
  | zero =>
      cases h
      exact ⟨le_rfl, le_rfl, fun k hk hle => absurd hle (by omega), fun h => absurd h (by omega)⟩
  | succ reste ih =>
      rw [compter] at h
      split at h
      · cases h
      · next hrefus =>
          cases h
          exact ⟨le_rfl, by omega, fun k hk hle => absurd hle (by omega), fun _ => hrefus⟩
      · next haccord =>
          obtain ⟨hbas, hhaut, haccords, hrefus⟩ := ih h
          refine ⟨by omega, by omega, fun k hk hle => ?_, fun hlt => hrefus (by omega)⟩
          by_cases heq : k = places + 1
          · rw [heq]
            exact haccord
          · exact haccords k (by omega) hle

theorem compter_eq_none (h : compter essai reste places = none) :
    ∃ k, places < k ∧ k ≤ places + reste ∧ essai k = none ∧
      ∀ j, places < j → j < k → essai j = some true := by
  induction reste generalizing places with
  | zero => cases h
  | succ reste ih =>
      rw [compter] at h
      split at h
      · next hleve => exact ⟨places + 1, by omega, by omega, hleve, fun j hj hlt => by omega⟩
      · cases h
      · next haccord =>
          obtain ⟨k, hk, hle, hleve, havant⟩ := ih h
          refine ⟨k, by omega, by omega, hleve, fun j hj hlt => ?_⟩
          by_cases heq : j = places + 1
          · rw [heq]
            exact haccord
          · exact havant j (by omega) hlt

theorem compter_antitone {essai' : Nat → Option Bool} {n' : Nat}
    (hessai : ∀ k, essai' k = some true → essai k ≠ some false)
    (h : compter essai reste 0 = some n) (h' : compter essai' reste 0 = some n') : n' ≤ n := by
  obtain ⟨-, -, -, hrefus⟩ := compter_spec h
  obtain ⟨-, hhaut', haccords', -⟩ := compter_spec h'
  by_contra hlt
  exact hessai (n + 1) (haccords' (n + 1) (by omega) (by omega)) (hrefus (by omega))

end Compter

/-- The answer to a sum of bytes, the promised ones included. -/
def admission (p : DefaultAllocationPolicy) (gpu : GPUInfo) (ram : ResourceSnapshot)
    (resourceType : ResourceType) (octets : Int) : Option Bool :=
  if resourceType = .ram then
    (Flottant.diviser (ram.usedBytes + octets) (max ram.totalBytes 1)).map fun pct =>
      decide (pct ≤ p.maxRamUsagePct)
  else if gpu.vramTotalBytes = 0 then some true
  else if !gpu.occupationMesuree then some false
  else
    (Flottant.diviser (gpu.vramUsedBytes + octets) gpu.vramTotalBytes).map fun pct =>
      decide (pct ≤ p.maxVramUsagePct)

section Admission

variable {p : DefaultAllocationPolicy} {gpu : GPUInfo} {ram : ResourceSnapshot}
  {resourceType : ResourceType} {octets octets' octets'' : Int}

theorem success_canAllocate (m : ResourceManager) (gpu : GPUInfo) (ram : ResourceSnapshot)
    (r : Requete) (id : String) :
    (m.canAllocate gpu ram r id).map (·.success) =
      admission m.policy gpu ram r.resourceType
        (m.octetsReserves r.resourceType + r.bytesRequested) := by
  unfold ResourceManager.canAllocate admission
  dsimp only
  split
  · simp only [DefaultAllocationPolicy.canAllocate, Option.map_map, add_assoc]
    congr 1
    funext pct
    by_cases hpct : m.policy.maxRamUsagePct < pct
    · simp [hpct, depasse]
    · simp [hpct, accorde, not_lt.mp hpct]
  · simp only [DefaultAllocationPolicy.canAllocate, add_assoc]
    split
    · rfl
    · split
      · rfl
      · rw [Option.map_map]
        congr 1
        funext pct
        by_cases hpct : m.policy.maxVramUsagePct < pct
        · simp [hpct, depasse]
        · simp [hpct, accorde, not_lt.mp hpct]

theorem seuil_antitone {plafond : Rat} {a a' b : Int} (hb : 0 ≤ b) (h : a ≤ a')
    (haccord : (Flottant.diviser a' b).map (fun pct => decide (pct ≤ plafond)) = some true) :
    (Flottant.diviser a b).map (fun pct => decide (pct ≤ plafond)) ≠ some false := by
  intro hrefus
  obtain ⟨q', hq', hle'⟩ := Option.map_eq_some_iff.mp haccord
  obtain ⟨q, hq, hle⟩ := Option.map_eq_some_iff.mp hrefus
  have hmono := Flottant.diviser_mono hb h hq hq'
  exact of_decide_eq_false hle (hmono.trans (of_decide_eq_true hle'))

theorem admission_antitone (htotal : 0 ≤ gpu.vramTotalBytes) (h : octets ≤ octets')
    (haccord : admission p gpu ram resourceType octets' = some true) :
    admission p gpu ram resourceType octets ≠ some false := by
  unfold admission at haccord ⊢
  split
  · next htype =>
      rw [if_pos htype] at haccord
      exact seuil_antitone (by omega) (by omega) haccord
  · next htype =>
      rw [if_neg htype] at haccord
      split
      · simp
      · next hcarte =>
          rw [if_neg hcarte] at haccord
          split
          · next hmesure =>
              rw [if_pos hmesure] at haccord
              cases haccord
          · next hmesure =>
              rw [if_neg hmesure] at haccord
              exact seuil_antitone htotal (by omega) haccord

theorem admission_ne_none (htotal : 0 ≤ gpu.vramTotalBytes) (h : octets ≤ octets')
    (h' : octets' ≤ octets'') (haccord : admission p gpu ram resourceType octets = some true)
    (hrefus : admission p gpu ram resourceType octets'' = some false) :
    admission p gpu ram resourceType octets' ≠ none := by
  have hseuil : ∀ {plafond : Rat} {a a' a'' b : Int}, 0 ≤ b → a ≤ a' → a' ≤ a'' →
      (Flottant.diviser a b).map (fun pct => decide (pct ≤ plafond)) = some true →
      (Flottant.diviser a'' b).map (fun pct => decide (pct ≤ plafond)) = some false →
      (Flottant.diviser a' b).map (fun pct => decide (pct ≤ plafond)) ≠ none := by
    intro plafond a a' a'' b hb h h' haccord hrefus hnone
    obtain ⟨q, hq, -⟩ := Option.map_eq_some_iff.mp haccord
    rw [Flottant.diviser_eq_none_of_le hb h h' hq (Option.map_eq_none_iff.mp hnone)] at hrefus
    cases hrefus
  unfold admission at haccord hrefus ⊢
  split
  · next htype =>
      rw [if_pos htype] at haccord hrefus
      exact hseuil (by omega) (by omega) (by omega) haccord hrefus
  · next htype =>
      rw [if_neg htype] at haccord hrefus
      split
      · simp
      · next hcarte =>
          rw [if_neg hcarte] at haccord hrefus
          split
          · simp
          · next hmesure =>
              rw [if_neg hmesure] at haccord hrefus
              exact hseuil htotal (by omega) (by omega) haccord hrefus

end Admission

namespace ResourceManager

variable (m : ResourceManager) (gpu : GPUInfo) (ram : ResourceSnapshot)

/-- How many tasks one count asks about at most. -/
def PLACES_MAX : Nat := 16

def placesDisponibles (octetsParTache : Int) (runtimeId : String) (resourceType : ResourceType)
    (ids : Nat → String) : Option Nat :=
  if octetsParTache ≤ 0 then some 0
  else
    compter (fun k => (m.canAllocate gpu ram
      { bytesRequested := octetsParTache * k, runtimeId := runtimeId,
        resourceType := resourceType } (ids k)).map (·.success)) PLACES_MAX 0

/-- The answers to reservations made one after the other, with the identifier each draws. -/
def enchainer (m : ResourceManager) : List (Requete × String) → List (Option Bool)
  | [] => []
  | (r, id) :: demandes =>
      (m.reserveResources gpu ram r id).1.map (·.success) ::
        enchainer (m.reserveResources gpu ram r id).2 demandes

/-- Reservations of one size and one type, under identifiers that are drawn for the first time. -/
structure Semblables (octets : Int) (resourceType : ResourceType)
    (demandes : List (Requete × String)) : Prop where
  octets : ∀ d ∈ demandes, d.1.bytesRequested = octets
  type : ∀ d ∈ demandes, d.1.resourceType = resourceType
  nodup : (demandes.map Prod.snd).Nodup
  neuves : ∀ d ∈ demandes, d.2 ∉ m.allocations.keys

def actives : List ResourceAllocation :=
  (m.allocations.map Prod.snd).filter fun a => !a.released

/-- The second manager promises what the first does, and more. -/
structure PrometMoins (m m' : ResourceManager) : Prop where
  policy : m.policy = m'.policy
  actives : m.actives.Subperm m'.actives
  positif : ∀ a ∈ m'.actives, 0 ≤ a.bytesRequested

structure PlacesFideles (octets : Int) (resourceType : ResourceType) : Prop where
  exactes : ∀ runtimeId ids n demandes,
    m.placesDisponibles gpu ram octets runtimeId resourceType ids = some n → n < PLACES_MAX →
    m.Semblables octets resourceType demandes → demandes.length = n + 1 →
    enchainer gpu ram m demandes = List.replicate n (some true) ++ [some false]
  pleines : ∀ runtimeId ids demandes,
    m.placesDisponibles gpu ram octets runtimeId resourceType ids = some PLACES_MAX →
    m.Semblables octets resourceType demandes → demandes.length = PLACES_MAX →
    enchainer gpu ram m demandes = List.replicate PLACES_MAX (some true)
  antitoneOctets : ∀ runtimeId runtimeId' ids ids' octets' n n', octets ≤ octets' →
    m.placesDisponibles gpu ram octets runtimeId resourceType ids = some n →
    m.placesDisponibles gpu ram octets' runtimeId' resourceType ids' = some n' → n' ≤ n
  antitoneReservations : ∀ m' runtimeId runtimeId' ids ids' n n', PrometMoins m m' →
    m.placesDisponibles gpu ram octets runtimeId resourceType ids = some n →
    m'.placesDisponibles gpu ram octets runtimeId' resourceType ids' = some n' → n' ≤ n

section Enchainement

variable {m gpu ram} {resourceType : ResourceType} {octets : Int}

theorem placesDisponibles_eq (hoctets : 0 < octets) (runtimeId : String) (ids : Nat → String) :
    m.placesDisponibles gpu ram octets runtimeId resourceType ids =
      compter (fun k => admission m.policy gpu ram resourceType
        (m.octetsReserves resourceType + octets * k)) PLACES_MAX 0 := by
  unfold placesDisponibles
  rw [if_neg (by omega)]
  congr 1
  funext k
  exact success_canAllocate m gpu ram _ _

def compte (resourceType : ResourceType) (octets : Int) : Int :=
  if typeInscrit resourceType = resourceType then octets else 0

theorem success_reserveResources (r : Requete) (id : String) :
    (m.reserveResources gpu ram r id).1.map (·.success) =
      admission m.policy gpu ram r.resourceType
        (m.octetsReserves r.resourceType + r.bytesRequested) := by
  rw [← success_canAllocate m gpu ram r id]
  unfold reserveResources
  dsimp only
  split <;> rfl

theorem reserveResources_accordee {r : Requete} {id : String} (hid : id ∉ m.allocations.keys)
    (haccord : admission m.policy gpu ram r.resourceType
      (m.octetsReserves r.resourceType + r.bytesRequested) = some true) :
    (m.reserveResources gpu ram r id).2 = { m with
      allocations := m.allocations ++ [(id, r.allouer id (typeInscrit r.resourceType))] } := by
  rw [← success_reserveResources r id] at haccord
  obtain ⟨result, hresult, hsuccess⟩ := Option.map_eq_some_iff.mp haccord
  rcases m.reserveResources_cases gpu ram r id with ⟨-, hrefus⟩ | ⟨hinscrite, -⟩
  · rw [hrefus result hresult] at hsuccess
    cases hsuccess
  · rw [hinscrite, Dict.set_of_notMem hid]

theorem octetsReserves_accordee {r : Requete} {id : String} (hid : id ∉ m.allocations.keys)
    (haccord : admission m.policy gpu ram r.resourceType
      (m.octetsReserves r.resourceType + r.bytesRequested) = some true) :
    (m.reserveResources gpu ram r id).2.octetsReserves r.resourceType =
      m.octetsReserves r.resourceType + compte r.resourceType r.bytesRequested := by
  rw [reserveResources_accordee hid haccord]
  simp [octetsReserves, promis, Requete.allouer, compte]

theorem Semblables.suite {d : Requete × String} {demandes : List (Requete × String)}
    (h : m.Semblables octets resourceType (d :: demandes))
    (haccord : admission m.policy gpu ram resourceType
      (m.octetsReserves resourceType + octets) = some true) :
    let suivant := (m.reserveResources gpu ram d.1 d.2).2
    suivant.policy = m.policy ∧
      suivant.octetsReserves resourceType =
        m.octetsReserves resourceType + compte resourceType octets ∧
      suivant.Semblables octets resourceType demandes := by
  have htaille := h.octets d List.mem_cons_self
  have htype := h.type d List.mem_cons_self
  have hneuf := h.neuves d List.mem_cons_self
  obtain ⟨hid, hnodup⟩ := List.nodup_cons.mp h.nodup
  have haccord' : admission m.policy gpu ram d.1.resourceType
      (m.octetsReserves d.1.resourceType + d.1.bytesRequested) = some true := by
    rw [htype, htaille]
    exact haccord
  have hsuivant := reserveResources_accordee hneuf haccord'
  have hreserves := octetsReserves_accordee hneuf haccord'
  rw [htype, htaille] at hreserves
  refine ⟨by rw [hsuivant], hreserves, ?_, ?_, hnodup, ?_⟩
  · exact fun d' hd' => h.octets d' (List.mem_cons_of_mem _ hd')
  · exact fun d' hd' => h.type d' (List.mem_cons_of_mem _ hd')
  · intro d' hd'
    have hancien := h.neuves d' (List.mem_cons_of_mem _ hd')
    rw [hsuivant]
    simp only [Dict.keys, List.map_append, List.map_cons, List.map_nil, List.mem_append,
      List.mem_singleton, not_or]
    exact ⟨hancien, fun heq => hid (heq ▸ List.mem_map_of_mem hd')⟩

theorem enchainer_accordees {n : Nat} {demandes : List (Requete × String)}
    (h : m.Semblables octets resourceType demandes) (hlength : demandes.length = n + 1)
    (haccords : ∀ j < n, admission m.policy gpu ram resourceType
      (m.octetsReserves resourceType + j * compte resourceType octets + octets) = some true) :
    enchainer gpu ram m demandes = List.replicate n (some true) ++
      [admission m.policy gpu ram resourceType
        (m.octetsReserves resourceType + n * compte resourceType octets + octets)] := by
  induction n generalizing m demandes with
  | zero =>
      obtain ⟨d, rfl⟩ := List.length_eq_one_iff.mp hlength
      have htaille := h.octets d List.mem_cons_self
      have htype := h.type d List.mem_cons_self
      simp [enchainer, success_reserveResources, htaille, htype]
  | succ n ih =>
      cases demandes with
      | nil => cases hlength
      | cons d demandes =>
          have htaille := h.octets d List.mem_cons_self
          have htype := h.type d List.mem_cons_self
          have hpremier := haccords 0 (by omega)
          rw [Nat.cast_zero, zero_mul, add_zero] at hpremier
          obtain ⟨hpolicy, hreserves, hsuite⟩ := h.suite hpremier
          have hdecale : ∀ j : Nat,
              m.octetsReserves resourceType + compte resourceType octets +
                j * compte resourceType octets + octets =
              m.octetsReserves resourceType + (j + 1 : Nat) * compte resourceType octets +
                octets := by
            intro j
            push_cast
            ring
          have hih := ih hsuite (by simpa using hlength) (by
            intro j hj
            rw [hpolicy, hreserves, hdecale]
            exact haccords (j + 1) (by omega))
          rw [hpolicy, hreserves, hdecale] at hih
          rw [enchainer, success_reserveResources, htype, htaille, hpremier, hih,
            List.replicate_succ, List.cons_append]

theorem enchainer_compte (hoctets : 0 < octets) (hcompte : compte resourceType octets = octets)
    {runtimeId : String} {ids : Nat → String} {n k : Nat}
    (hplaces : m.placesDisponibles gpu ram octets runtimeId resourceType ids = some n)
    (hk : k ≤ n) {demandes : List (Requete × String)}
    (h : m.Semblables octets resourceType demandes) (hlength : demandes.length = k + 1) :
    enchainer gpu ram m demandes = List.replicate k (some true) ++
      [admission m.policy gpu ram resourceType
        (m.octetsReserves resourceType + octets * (k + 1 : Nat))] := by
  rw [placesDisponibles_eq hoctets] at hplaces
  obtain ⟨-, -, haccords, -⟩ := compter_spec hplaces
  have hsomme : ∀ j : Nat, m.octetsReserves resourceType + j * octets + octets =
      m.octetsReserves resourceType + octets * (j + 1 : Nat) := by
    intro j
    push_cast
    ring
  have hfin := enchainer_accordees h hlength (by
    intro j hj
    rw [hcompte, hsomme]
    exact haccords (j + 1) (by omega) (by omega))
  rwa [hcompte, hsomme] at hfin

theorem enchainer_hors_compte (hcompte : compte resourceType octets = 0) {k : Nat}
    (haccord : admission m.policy gpu ram resourceType
      (m.octetsReserves resourceType + octets) = some true)
    {demandes : List (Requete × String)} (h : m.Semblables octets resourceType demandes)
    (hlength : demandes.length = k + 1) :
    enchainer gpu ram m demandes = List.replicate (k + 1) (some true) := by
  have hfin := enchainer_accordees h hlength (by
    intro j _
    rwa [hcompte, mul_zero, add_zero])
  rw [hcompte, mul_zero, add_zero, haccord] at hfin
  rw [hfin, List.replicate_succ']

theorem octetsReserves_eq (m : ResourceManager) (resourceType : ResourceType) :
    m.octetsReserves resourceType =
      ((m.actives.filter fun a => a.resourceType = resourceType).map (·.bytesRequested)).sum := by
  unfold octetsReserves actives
  induction m.allocations with
  | nil => rfl
  | cons item reste ih =>
      rw [List.map_cons, List.sum_cons, ih, List.map_cons, List.filter_cons]
      cases hlibre : item.2.released with
      | true => simp [promis, hlibre]
      | false =>
          by_cases htype : item.2.resourceType = resourceType
          · simp [promis, hlibre, htype, -List.filter_filter]
          · simp [promis, hlibre, htype, -List.filter_filter]

theorem octetsReserves_le {m' : ResourceManager} (h : PrometMoins m m')
    (resourceType : ResourceType) :
    m.octetsReserves resourceType ≤ m'.octetsReserves resourceType := by
  rw [octetsReserves_eq, octetsReserves_eq]
  obtain ⟨l, hperm, hsub⟩ := h.actives
  rw [← ((hperm.filter _).map _).sum_eq]
  refine ((hsub.filter _).map _).sum_le_sum ?_
  intro x hx
  obtain ⟨a, ha, rfl⟩ := List.mem_map.mp hx
  exact h.positif a (List.mem_of_mem_filter ha)

theorem antitoneOctets (htotal : 0 ≤ gpu.vramTotalBytes) (hoctets : 0 < octets)
    {runtimeId runtimeId' : String} {ids ids' : Nat → String} {octets' : Int} {n n' : Nat}
    (hle : octets ≤ octets')
    (hn : m.placesDisponibles gpu ram octets runtimeId resourceType ids = some n)
    (hn' : m.placesDisponibles gpu ram octets' runtimeId' resourceType ids' = some n') :
    n' ≤ n := by
  rw [placesDisponibles_eq hoctets] at hn
  rw [placesDisponibles_eq (by omega)] at hn'
  refine compter_antitone (fun k haccord => admission_antitone htotal ?_ haccord) hn hn'
  have hfois : octets * k ≤ octets' * k := mul_le_mul_of_nonneg_right hle (by omega)
  omega

theorem antitoneReservations (htotal : 0 ≤ gpu.vramTotalBytes) (hoctets : 0 < octets)
    {m' : ResourceManager} {runtimeId runtimeId' : String} {ids ids' : Nat → String} {n n' : Nat}
    (hmoins : PrometMoins m m')
    (hn : m.placesDisponibles gpu ram octets runtimeId resourceType ids = some n)
    (hn' : m'.placesDisponibles gpu ram octets runtimeId' resourceType ids' = some n') :
    n' ≤ n := by
  rw [placesDisponibles_eq hoctets] at hn hn'
  rw [← hmoins.policy] at hn'
  refine compter_antitone (fun k haccord => admission_antitone htotal ?_ haccord) hn hn'
  have hreserves := octetsReserves_le hmoins resourceType
  omega

def repond (m : ResourceManager) (gpu : GPUInfo) (ram : ResourceSnapshot)
    (resourceType : ResourceType) (octets : Int) : Option Bool :=
  (m.canAllocate gpu ram
    { bytesRequested := octets, runtimeId := "", resourceType := resourceType } "").map (·.success)

theorem repond_eq (resourceType : ResourceType) (octets : Int) :
    m.repond gpu ram resourceType octets =
      admission m.policy gpu ram resourceType (m.octetsReserves resourceType + octets) :=
  success_canAllocate m gpu ram _ ""

theorem exists_semblables (m : ResourceManager) (octets : Int) (resourceType : ResourceType)
    (n : Nat) : ∃ demandes, m.Semblables octets resourceType demandes ∧ demandes.length = n := by
  have hinfini : Infinite String :=
    Infinite.of_injective String.ofList fun _ _ => String.ofList_injective
  have hlibres : {id : String | id ∉ m.allocations.keys}.Infinite :=
    (List.finite_toSet m.allocations.keys).infinite_compl
  obtain ⟨ids, hids, hcard⟩ := hlibres.exists_subset_card_eq n
  refine ⟨ids.toList.map fun id =>
    ({ bytesRequested := octets, runtimeId := "", resourceType := resourceType }, id),
    ⟨?_, ?_, ?_, ?_⟩, by simp [hcard]⟩
  · intro d hd
    obtain ⟨id, -, rfl⟩ := List.mem_map.mp hd
    rfl
  · intro d hd
    obtain ⟨id, -, rfl⟩ := List.mem_map.mp hd
    rfl
  · rw [List.map_map]
    simpa using ids.nodup_toList
  · intro d hd
    obtain ⟨id, hid, rfl⟩ := List.mem_map.mp hd
    exact hids (Finset.mem_coe.mpr (Finset.mem_toList.mp hid))

theorem not_exactes_hors_compte (htotal : 0 ≤ gpu.vramTotalBytes) (hoctets : 0 < octets)
    (hcompte : compte resourceType octets = 0)
    (haccord : m.repond gpu ram resourceType octets = some true) {k : Nat} (hpos : 0 < k)
    (hk : k ≤ PLACES_MAX)
    (hrefus : m.repond gpu ram resourceType (octets * k) = some false) :
    ¬ m.PlacesFideles gpu ram octets resourceType := by
  intro hfidele
  rw [repond_eq] at haccord hrefus
  have hcroit : ∀ i j : Nat, i ≤ j → m.octetsReserves resourceType + octets * i ≤
      m.octetsReserves resourceType + octets * j := by
    intro i j hij
    have hfois : octets * i ≤ octets * j := mul_le_mul_of_nonneg_left (by omega) hoctets.le
    omega
  have haccord₁ : admission m.policy gpu ram resourceType
      (m.octetsReserves resourceType + octets * (1 : Nat)) = some true := by simpa using haccord
  cases hplaces : m.placesDisponibles gpu ram octets "" resourceType (fun _ => "") with
  | none =>
      rw [placesDisponibles_eq hoctets] at hplaces
      obtain ⟨j, hj, -, hleve, havant⟩ := compter_eq_none hplaces
      have hjk : j ≤ k := by
        by_contra hlt
        rw [havant k hpos (by omega)] at hrefus
        cases hrefus
      exact admission_ne_none htotal (hcroit 1 j (by omega)) (hcroit j k hjk) haccord₁ hrefus hleve
  | some n =>
      obtain ⟨demandes, hsemblables, hlength⟩ := exists_semblables m octets resourceType (n + 1)
      have hplaces' := hplaces
      rw [placesDisponibles_eq hoctets] at hplaces'
      obtain ⟨-, -, haccords, -⟩ := compter_spec hplaces'
      have hlt : n < PLACES_MAX := by
        by_contra hge
        rw [haccords k hpos (by omega)] at hrefus
        cases hrefus
      have hexacte := hfidele.exactes "" (fun _ => "") n demandes hplaces hlt hsemblables hlength
      rw [enchainer_hors_compte hcompte haccord hsemblables hlength, List.replicate_succ'] at hexacte
      simp at hexacte

theorem compte_eq (resourceType : ResourceType) (octets : Int) :
    ((resourceType = .vram ∨ resourceType = .ram) → compte resourceType octets = octets) ∧
      (¬ (resourceType = .vram ∨ resourceType = .ram) → compte resourceType octets = 0) := by
  cases resourceType <;> simp [compte, typeInscrit]

theorem exactes_zero (hoctets : 0 < octets) {runtimeId : String} {ids : Nat → String}
    (hplaces : m.placesDisponibles gpu ram octets runtimeId resourceType ids = some 0)
    {demandes : List (Requete × String)} (h : m.Semblables octets resourceType demandes)
    (hlength : demandes.length = 0 + 1) : enchainer gpu ram m demandes = [some false] := by
  rw [placesDisponibles_eq hoctets] at hplaces
  obtain ⟨-, -, -, hrefus⟩ := compter_spec hplaces
  have hrefus' := hrefus (by decide)
  rw [enchainer_accordees h hlength (fun j hj => absurd hj (by omega))]
  simpa using hrefus'

/-- The count is faithful exactly when the reservations of the type are counted against it, or when
it answers none or all. -/
theorem placesFideles_iff (htotal : 0 ≤ gpu.vramTotalBytes) (hoctets : 0 < octets) :
    m.PlacesFideles gpu ram octets resourceType ↔
      resourceType = .vram ∨ resourceType = .ram ∨
        m.repond gpu ram resourceType octets ≠ some true ∨
        ∀ k ≤ PLACES_MAX, 0 < k → m.repond gpu ram resourceType (octets * k) ≠ some false := by
  obtain ⟨hcompte, hhors⟩ := compte_eq resourceType octets
  constructor
  · intro hfidele
    by_contra hnot
    simp only [not_or, not_forall, not_not, ne_eq] at hnot
    obtain ⟨hvram, hram, haccord, k, hk, hpos, hrefus⟩ := hnot
    exact not_exactes_hors_compte htotal hoctets (hhors (not_or.mpr ⟨hvram, hram⟩)) haccord hpos
      hk hrefus hfidele
  · intro hcondition
    refine ⟨fun runtimeId ids n demandes hn hlt h hlength => ?_,
      fun runtimeId ids demandes hn h hlength => ?_,
      fun _ _ _ _ _ _ _ hle hn hn' => antitoneOctets htotal hoctets hle hn hn',
      fun _ _ _ _ _ _ _ hmoins hn hn' => antitoneReservations htotal hoctets hmoins hn hn'⟩
    · have hspec := compter_spec ((placesDisponibles_eq hoctets _ _).symm.trans hn)
      obtain ⟨-, -, haccords, hrefus⟩ := hspec
      by_cases htype : resourceType = .vram ∨ resourceType = .ram
      · rw [enchainer_compte hoctets (hcompte htype) hn le_rfl h hlength, hrefus (by omega)]
      · rcases hcondition with htype' | htype' | hseul | hjamais
        · exact absurd (.inl htype') htype
        · exact absurd (.inr htype') htype
        · have hzero : n = 0 := by
            by_contra hpos
            have haccord := haccords 1 (by omega) (by omega)
            rw [repond_eq] at hseul
            exact hseul (by simpa using haccord)
          subst hzero
          exact exactes_zero hoctets hn h hlength
        · have hrefus' := hrefus (by omega)
          rw [← repond_eq] at hrefus'
          exact absurd hrefus' (hjamais (n + 1) (by omega) (by omega))
    · have hspec := compter_spec ((placesDisponibles_eq hoctets _ _).symm.trans hn)
      obtain ⟨-, -, haccords, -⟩ := hspec
      by_cases htype : resourceType = .vram ∨ resourceType = .ram
      · rw [enchainer_compte (k := 15) hoctets (hcompte htype) hn (by decide) h hlength,
          haccords (15 + 1) (by omega) (by decide)]
        rfl
      · have haccord := haccords 1 (by omega) (by decide)
        exact enchainer_hors_compte (k := 15) (hhors htype) (by simpa using haccord) h hlength

/-- Two tasks of fifty on the memory of a hundred. -/
theorem placesFideles_iff_memoire :
    ({} : ResourceManager).PlacesFideles carte memoire 50 .ram ↔
      ResourceType.ram = .vram ∨ ResourceType.ram = .ram ∨
        ({} : ResourceManager).repond carte memoire .ram 50 ≠ some true ∨
        ∀ k ≤ PLACES_MAX, 0 < k →
          ({} : ResourceManager).repond carte memoire .ram (50 * k) ≠ some false :=
  placesFideles_iff (by decide) (by decide)

end Enchainement

/-- A card of a hundred units that holds nothing. -/
def carteLibre : GPUInfo :=
  { nomCite := "'carte'", vramTotalBytes := 100, vramFreeBytes := 100 }

theorem diviser_moitie : Flottant.diviser 50 100 = some (1 / 2) := by
  have harrondi : Flottant.arrondir (((50 : Int) : Rat) / ((100 : Int) : Rat)) = 1 / 2 := by
    have hmantisse : ((50 : Int) : Rat) / ((100 : Int) : Rat) / 2 ^ ((-1 : Int) - 52) =
        ((2 ^ 52 : Int) : Rat) := by norm_num
    rw [Flottant.arrondir_eq (k := -1) (by norm_num) (by norm_num) (by norm_num), hmantisse,
      Flottant.pair_intCast]
    norm_num
  have hfini : ¬(2 : Rat) ^ 1024 ≤ |1 / 2| := by
    have hone : (1 : Rat) ≤ 2 ^ 1024 := one_le_pow₀ (by norm_num)
    exact not_le.mpr (lt_of_lt_of_le (by norm_num [abs_lt]) hone)
  unfold Flottant.diviser
  rw [harrondi, if_neg hfini]

theorem diviser_plein : Flottant.diviser 100 100 = some 1 := by
  have hfini : ¬(2 : Rat) ^ 1024 ≤ |1| := by
    have hone : (2 : Rat) ≤ 2 ^ 1024 := le_self_pow₀ (by norm_num) (by norm_num)
    exact not_le.mpr (lt_of_lt_of_le (by norm_num) hone)
  unfold Flottant.diviser
  rw [div_self (by norm_num), Flottant.arrondir_one, if_neg hfini]

theorem repond_carteLibre :
    ({} : ResourceManager).repond carteLibre memoire .cpu 50 = some true ∧
      ({} : ResourceManager).repond carteLibre memoire .cpu (50 * (2 : Nat)) = some false := by
  have hreserves : ({} : ResourceManager).octetsReserves .cpu = 0 := rfl
  rw [repond_eq, repond_eq, hreserves]
  constructor
  · rw [admission, if_neg (by decide), if_neg (by decide), if_neg (by decide),
      show carteLibre.vramUsedBytes + (0 + 50) = 50 from rfl,
      show carteLibre.vramTotalBytes = 100 from rfl, diviser_moitie]
    norm_num
  · rw [admission, if_neg (by decide), if_neg (by decide), if_neg (by decide),
      show carteLibre.vramUsedBytes + (0 + 50 * (2 : Nat)) = 100 from rfl,
      show carteLibre.vramTotalBytes = 100 from rfl, diviser_plein]
    norm_num

/-- The count answers one place, and two reservations succeed. -/
theorem cpu_compte_une_place :
    ({} : ResourceManager).placesDisponibles carteLibre memoire 50 "ollama" .cpu (fun _ => "") =
        some 1 ∧
      enchainer carteLibre memoire {} [(⟨50, "ollama", .cpu, none, 0⟩, "a"),
        (⟨50, "ollama", .cpu, none, 0⟩, "b")] = [some true, some true] ∧
      ¬ ({} : ResourceManager).PlacesFideles carteLibre memoire 50 .cpu := by
  obtain ⟨hun, hdeux⟩ := repond_carteLibre
  have hcompte : compte .cpu 50 = 0 := rfl
  have hfidele := not_exactes_hors_compte (by decide) (by decide) hcompte hun (by decide)
    (by decide) hdeux
  rw [repond_eq] at hun hdeux
  refine ⟨?_, ?_, hfidele⟩
  · rw [placesDisponibles_eq (by decide), show PLACES_MAX = 14 + 1 + 1 from rfl, compter,
      Nat.cast_one, mul_one, hun]
    dsimp only
    rw [compter, hdeux]
  · exact enchainer_hors_compte (k := 1) hcompte hun
      ⟨by simp, by simp, by decide, by simp [Dict.keys]⟩ rfl

end ResourceManager

end Hermes.Ressources
