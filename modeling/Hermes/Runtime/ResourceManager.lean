import Hermes.Lib.Dict
import Hermes.Lib.Flottant

/-! # The ledger of the resources of the machine

An admission reads the physical counter of the resource augmented by what is promised and not
released.
-/

namespace Hermes.Ressources

open Lib

inductive ResourceType where
  | vram
  | ram
  | cpu
  | gpuTemp
  | modelWeight
  deriving DecidableEq

/-- What the probe of the card reports. `nomCite` is the name between quotes. -/
structure GPUInfo where
  nomCite : String := "'unknown'"
  vramTotalBytes : Int := 0
  vramUsedBytes : Int := 0
  vramFreeBytes : Int := 0
  occupationMesuree : Bool := true
  deriving DecidableEq

structure ResourceSnapshot where
  resourceType : ResourceType
  totalBytes : Int
  usedBytes : Int
  freeBytes : Int
  deriving DecidableEq

structure ResourceAllocation where
  allocationId : String
  runtimeId : String
  resourceType : ResourceType
  bytesRequested : Int
  bytesAllocated : Int
  modelName : Option String
  priority : Int
  released : Bool := false
  deriving DecidableEq

structure ResourceAllocationResult where
  success : Bool
  allocation : Option ResourceAllocation := none
  reason : String := ""
  suggestedModel : Option String := none
  deriving DecidableEq

structure Requete where
  bytesRequested : Int
  runtimeId : String
  resourceType : ResourceType := .vram
  modelName : Option String := none
  priority : Int := 0
  deriving DecidableEq

def Requete.allouer (r : Requete) (id : String) (resourceType : ResourceType) :
    ResourceAllocation where
  allocationId := id
  runtimeId := r.runtimeId
  resourceType := resourceType
  bytesRequested := r.bytesRequested
  bytesAllocated := r.bytesRequested
  modelName := r.modelName
  priority := r.priority

def gio : Int := 1024 * 1024 * 1024

def TIERS : List (String × Int) :=
  [("Tier 1 (1B)", gio), ("Tier 2 (3B)", 3 * gio), ("Tier 3 (7B)", 7 * gio),
    ("Tier 4 (14B)", 14 * gio), ("Tier 5 (32B)", 32 * gio)]

def suggestSmallerModel (availableBytes : Int) : Option String :=
  (TIERS.find? fun tier => tier.2 ≤ availableBytes).map Prod.fst

structure DefaultAllocationPolicy where
  maxVramUsagePct : Rat := 8106479329266893 / 2 ^ 53
  maxRamUsagePct : Rat := 7656119366529843 / 2 ^ 53
  deriving DecidableEq

/-- `f"{x*100:.0f}%"`. -/
def pourcent (x : Rat) : String := Flottant.sansDecimale (Flottant.arrondir (x * 100)) ++ "%"

def depasse (ressource : String) (pct plafond : Rat) (suggestedModel : Option String) :
    ResourceAllocationResult where
  success := false
  reason := ressource ++ " would reach " ++ pourcent pct ++ " > " ++ pourcent plafond
  suggestedModel := suggestedModel

def accorde (r : Requete) (id : String) (resourceType : ResourceType) (reason : String) :
    ResourceAllocationResult where
  success := true
  allocation := some (r.allouer id resourceType)
  reason := reason

/-- `none` when the quotient is too large for a float: the call raises. -/
def DefaultAllocationPolicy.canAllocate (p : DefaultAllocationPolicy)
    (snapshot : ResourceSnapshot) (gpu : GPUInfo) (r : Requete) (id : String) :
    Option ResourceAllocationResult :=
  match snapshot.resourceType with
  | .vram =>
      if gpu.vramTotalBytes = 0 then
        some (accorde r id .vram "no gpu detected — skip vram check")
      else if !gpu.occupationMesuree then
        some { success := false, reason := "occupation VRAM non mesurée sur " ++ gpu.nomCite
            ++ " — aucune sonde physique n'a répondu ; l'admission refuse plutôt que de "
            ++ "supposer la carte libre" }
      else
        (Flottant.diviser (gpu.vramUsedBytes + r.bytesRequested) gpu.vramTotalBytes).map
          fun pct =>
            if p.maxVramUsagePct < pct then
              depasse "VRAM" pct p.maxVramUsagePct (suggestSmallerModel gpu.vramFreeBytes)
            else accorde r id .vram ""
  | .ram =>
      (Flottant.diviser (snapshot.usedBytes + r.bytesRequested) (max snapshot.totalBytes 1)).map
        fun pct =>
          if p.maxRamUsagePct < pct then depasse "RAM" pct p.maxRamUsagePct none
          else accorde r id .ram ""
  | autre => some (accorde r id autre "")

structure ResourceManager where
  policy : DefaultAllocationPolicy := {}
  allocations : Dict String ResourceAllocation := []
  deriving DecidableEq

namespace ResourceManager

/-- What an allocation adds to the promised bytes of a type. -/
def promis (resourceType : ResourceType) (a : ResourceAllocation) : Int :=
  if !a.released && a.resourceType = resourceType then a.bytesRequested else 0

def octetsReserves (m : ResourceManager) (resourceType : ResourceType) : Int :=
  (m.allocations.map fun item => promis resourceType item.2).sum

/-- `ram` is what the poll of the memory answers. -/
def canAllocate (m : ResourceManager) (gpu : GPUInfo) (ram : ResourceSnapshot) (r : Requete)
    (id : String) : Option ResourceAllocationResult :=
  let reserves := m.octetsReserves r.resourceType
  if r.resourceType = .ram then
    let snapshot : ResourceSnapshot :=
      { resourceType := .ram, totalBytes := ram.totalBytes, usedBytes := ram.usedBytes + reserves,
        freeBytes := max 0 (ram.freeBytes - reserves) }
    m.policy.canAllocate snapshot gpu r id
  else
    let used := gpu.vramUsedBytes + reserves
    let free := max 0 (gpu.vramFreeBytes - reserves)
    let snapshot : ResourceSnapshot :=
      { resourceType := .vram, totalBytes := gpu.vramTotalBytes, usedBytes := used,
        freeBytes := free }
    m.policy.canAllocate snapshot { gpu with vramUsedBytes := used, vramFreeBytes := free } r id

def reserveResources (m : ResourceManager) (gpu : GPUInfo) (ram : ResourceSnapshot)
    (r : Requete) (id : String) : Option ResourceAllocationResult × ResourceManager :=
  let result := m.canAllocate gpu ram r id
  match result.bind (·.allocation) with
  | some a => (result, { m with allocations := m.allocations.set a.allocationId a })
  | none => (result, m)

def releaseResources (m : ResourceManager) (id : String) : Option Int × ResourceManager :=
  match m.allocations.get? id with
  | none => (none, m)
  | some a =>
      if a.released then (none, m)
      else
        (some a.bytesAllocated,
          { m with allocations := m.allocations.set id { a with released := true } })

inductive Appel where
  | reserver (ram : ResourceSnapshot) (r : Requete) (id : String)
  | liberer (id : String)

/-- The reservation, if any, is of a byte count that is not negative. -/
def Appel.Positif : Appel → Prop
  | reserver _ r _ => 0 ≤ r.bytesRequested
  | liberer _ => True

def pas (gpu : GPUInfo) (m : ResourceManager) : Appel → ResourceManager
  | .reserver ram r id => (m.reserveResources gpu ram r id).2
  | .liberer id => (m.releaseResources id).2

def apres (gpu : GPUInfo) (m : ResourceManager) (histoire : List Appel) : ResourceManager :=
  histoire.foldl (pas gpu) m

def liberer (m : ResourceManager) (ids : List String) : ResourceManager :=
  ids.foldl (fun m id => (m.releaseResources id).2) m

end ResourceManager

/-- The share of the card after a request is a float below the ceiling. -/
def SousPlafond (p : DefaultAllocationPolicy) (gpu : GPUInfo) (octets : Int) : Prop :=
  ∃ pct, Flottant.diviser (gpu.vramUsedBytes + octets) gpu.vramTotalBytes = some pct ∧
    pct ≤ p.maxVramUsagePct

theorem DefaultAllocationPolicy.canAllocate_cases {p : DefaultAllocationPolicy}
    {snapshot : ResourceSnapshot} {gpu : GPUInfo} {r : Requete} {id : String}
    {result : ResourceAllocationResult} (h : p.canAllocate snapshot gpu r id = some result) :
    (result.success = false ∧ result.allocation = none) ∨
      (result.success = true ∧ result.allocation = some (r.allouer id snapshot.resourceType) ∧
        (snapshot.resourceType = .vram → gpu.vramTotalBytes ≠ 0 →
          gpu.occupationMesuree = true ∧ SousPlafond p gpu r.bytesRequested)) := by
  unfold DefaultAllocationPolicy.canAllocate at h
  split at h
  · next htype =>
      rw [htype]
      split at h
      · next hnogpu =>
          cases h
          exact .inr ⟨rfl, rfl, fun _ hgpu => absurd hnogpu hgpu⟩
      · split at h
        · cases h
          exact .inl ⟨rfl, rfl⟩
        · next hmeasured =>
            obtain ⟨pct, hpct, rfl⟩ := Option.map_eq_some_iff.mp h
            split
            · exact .inl ⟨rfl, rfl⟩
            · next hle =>
                refine .inr ⟨rfl, rfl, fun _ _ => ⟨?_, pct, hpct, not_lt.mp hle⟩⟩
                simpa using hmeasured
  · next htype =>
      rw [htype]
      obtain ⟨pct, hpct, rfl⟩ := Option.map_eq_some_iff.mp h
      split
      · exact .inl ⟨rfl, rfl⟩
      · exact .inr ⟨rfl, rfl, fun hvram => by cases hvram⟩
  · next hvram _ =>
      cases h
      exact .inr ⟨rfl, rfl, fun h => absurd h hvram⟩

namespace ResourceManager

def typeInscrit : ResourceType → ResourceType
  | .ram => .ram
  | .vram | .cpu | .gpuTemp | .modelWeight => .vram

theorem reserveResources_cases (m : ResourceManager) (gpu : GPUInfo) (ram : ResourceSnapshot)
    (r : Requete) (id : String) :
    ((m.reserveResources gpu ram r id).2 = m ∧
        ∀ result, (m.reserveResources gpu ram r id).1 = some result → result.success = false) ∨
      ((m.reserveResources gpu ram r id).2 = { m with
          allocations := m.allocations.set id (r.allouer id (typeInscrit r.resourceType)) } ∧
        (r.resourceType ≠ .ram → gpu.vramTotalBytes ≠ 0 → gpu.occupationMesuree = true ∧
          SousPlafond m.policy gpu (m.octetsReserves r.resourceType + r.bytesRequested))) := by
  have hcases : ∀ result, m.canAllocate gpu ram r id = some result →
      (result.success = false ∧ result.allocation = none) ∨
      (result.success = true ∧
        result.allocation = some (r.allouer id (typeInscrit r.resourceType)) ∧
        (r.resourceType ≠ .ram → gpu.vramTotalBytes ≠ 0 → gpu.occupationMesuree = true ∧
          SousPlafond m.policy gpu (m.octetsReserves r.resourceType + r.bytesRequested))) := by
    intro result hresult
    unfold canAllocate at hresult
    dsimp only at hresult
    split at hresult
    · next htype =>
        rw [htype]
        rcases DefaultAllocationPolicy.canAllocate_cases hresult with hno | ⟨hok, ha, -⟩
        · exact .inl hno
        · exact .inr ⟨hok, ha, fun hne => absurd rfl hne⟩
    · next htype =>
        have hinscrit : typeInscrit r.resourceType = .vram := by
          cases hr : r.resourceType <;> first | rfl | exact absurd hr htype
        rw [hinscrit]
        rcases DefaultAllocationPolicy.canAllocate_cases hresult with hno | ⟨hok, ha, hplafond⟩
        · exact .inl hno
        · refine .inr ⟨hok, ha, fun _ hgpu => ?_⟩
          obtain ⟨hmeasured, pct, hpct, hle⟩ := hplafond rfl hgpu
          exact ⟨hmeasured, pct, by simpa [Int.add_assoc] using hpct, hle⟩
  unfold reserveResources
  dsimp only
  cases hresult : m.canAllocate gpu ram r id with
  | none => exact .inl ⟨rfl, fun _ h => by cases h⟩
  | some result =>
      rcases hcases result hresult with ⟨hno, hnone⟩ | ⟨-, ha, hplafond⟩
      · left
        simp [hnone, hno]
      · right
        simp only [Option.bind_some, ha]
        exact ⟨rfl, hplafond⟩

theorem reserveResources_accorde {m : ResourceManager} {gpu : GPUInfo} {ram : ResourceSnapshot}
    {r : Requete} {id : String} {result : ResourceAllocationResult}
    (h : (m.reserveResources gpu ram r id).1 = some result) (hok : result.success = true) :
    ∃ a : ResourceAllocation, result.allocation = some a ∧ a.allocationId = id ∧
      a.released = false ∧ a.bytesRequested = r.bytesRequested ∧
      (m.reserveResources gpu ram r id).2 = { m with allocations := m.allocations.set id a } := by
  have hresult : m.canAllocate gpu ram r id = some result := by
    unfold reserveResources at h
    dsimp only at h
    split at h
    · exact h
    · exact h
  have hcases : ∃ resourceType, result.allocation = some (r.allouer id resourceType) := by
    have hpolicy := hresult
    unfold canAllocate at hpolicy
    dsimp only at hpolicy
    split at hpolicy
    · rcases DefaultAllocationPolicy.canAllocate_cases hpolicy with ⟨hno, -⟩ | ⟨-, ha, -⟩
      · rw [hok] at hno
        cases hno
      · exact ⟨_, ha⟩
    · rcases DefaultAllocationPolicy.canAllocate_cases hpolicy with ⟨hno, -⟩ | ⟨-, ha, -⟩
      · rw [hok] at hno
        cases hno
      · exact ⟨_, ha⟩
  obtain ⟨resourceType, ha⟩ := hcases
  refine ⟨r.allouer id resourceType, ha, rfl, rfl, rfl, ?_⟩
  unfold reserveResources
  simp only [hresult, Option.bind_some, ha]
  rfl

structure Sain (m : ResourceManager) : Prop where
  nodup : m.allocations.keys.Nodup
  positif : ∀ item ∈ m.allocations, 0 ≤ item.2.bytesRequested

theorem promis_nonneg {resourceType : ResourceType} {a : ResourceAllocation}
    (h : 0 ≤ a.bytesRequested) : 0 ≤ promis resourceType a := by
  unfold promis
  split
  · exact h
  · exact le_rfl

theorem promis_released {resourceType : ResourceType} {a : ResourceAllocation}
    (h : a.released = true) : promis resourceType a = 0 := by
  simp [promis, h]

theorem Sain.inscrire {m : ResourceManager} (h : m.Sain) (id : String) {a : ResourceAllocation}
    (ha : 0 ≤ a.bytesRequested) :
    Sain { m with allocations := m.allocations.set id a } := by
  refine ⟨Dict.nodup_keys_set h.nodup id a, fun item hitem => ?_⟩
  rcases Dict.mem_of_mem_set hitem with rfl | hitem
  · exact ha
  · exact h.positif item hitem

theorem octetsReserves_inscrire_le {m : ResourceManager} (h : m.Sain) (id : String)
    {a : ResourceAllocation} (ha : 0 ≤ a.bytesRequested) (resourceType : ResourceType) :
    octetsReserves { m with allocations := m.allocations.set id a } resourceType
      ≤ m.octetsReserves resourceType + a.bytesRequested := by
  have hsum := Dict.sum_map_set_le (fun item => promis resourceType item.2)
    (fun item hitem => promis_nonneg (h.positif item hitem)) id a
  have hpromis : promis resourceType a ≤ a.bytesRequested := by
    unfold promis
    split
    · exact le_rfl
    · exact ha
  unfold octetsReserves
  dsimp only at hsum ⊢
  omega

theorem releaseResources_cases (m : ResourceManager) (id : String) :
    (m.releaseResources id = (none, m) ∧
        ∀ a, m.allocations.get? id = some a → a.released = true) ∨
      ∃ a, m.allocations.get? id = some a ∧ a.released = false ∧
        m.releaseResources id = (some a.bytesAllocated,
          { m with allocations := m.allocations.set id { a with released := true } }) := by
  unfold releaseResources
  cases hget : m.allocations.get? id with
  | none => exact .inl ⟨rfl, fun a ha => by cases ha⟩
  | some a =>
      cases hreleased : a.released with
      | true => exact .inl ⟨by simp [hreleased], fun b hb => by cases hb; exact hreleased⟩
      | false => exact .inr ⟨a, rfl, hreleased, by simp [hreleased]⟩

/-- The allocation of this identifier, if there is one, has been released. -/
def Libre (m : ResourceManager) (id : String) : Prop :=
  ∀ a, m.allocations.get? id = some a → a.released = true

theorem releaseResources_libre {m : ResourceManager} {id : String} (h : m.Libre id) :
    m.releaseResources id = (none, m) := by
  rcases m.releaseResources_cases id with ⟨heq, -⟩ | ⟨a, ha, hactive, -⟩
  · exact heq
  · rw [h a ha] at hactive
    cases hactive

theorem libre_releaseResources (m : ResourceManager) (id : String) :
    (m.releaseResources id).2.Libre id := by
  rcases m.releaseResources_cases id with ⟨heq, hfree⟩ | ⟨a, -, -, heq⟩
  · rw [heq]
    exact hfree
  · rw [heq]
    intro b hb
    rw [Dict.get?_set_self] at hb
    cases hb
    rfl

theorem Libre.releaseResources {m : ResourceManager} {id : String} (h : m.Libre id)
    (other : String) : (m.releaseResources other).2.Libre id := by
  rcases m.releaseResources_cases other with ⟨heq, -⟩ | ⟨a, -, -, heq⟩
  · rw [heq]
    exact h
  · rw [heq]
    intro b hb
    rw [Dict.get?_set] at hb
    split at hb
    · cases hb
      rfl
    · exact h b hb

theorem Sain.releaseResources {m : ResourceManager} (h : m.Sain) (id : String) :
    (m.releaseResources id).2.Sain := by
  rcases m.releaseResources_cases id with ⟨heq, -⟩ | ⟨a, ha, -, heq⟩
  · rw [heq]
    exact h
  · rw [heq]
    exact h.inscrire id (h.positif (id, a) (Dict.mem_of_get? ha))

theorem keys_releaseResources (m : ResourceManager) (id x : String) :
    x ∈ (m.releaseResources id).2.allocations.keys ↔ x ∈ m.allocations.keys := by
  rcases m.releaseResources_cases id with ⟨heq, -⟩ | ⟨a, ha, -, heq⟩
  · rw [heq]
  · rw [heq, Dict.keys_set]
    have hmem : id ∈ m.allocations.keys := Dict.mem_keys_of_isSome (by rw [ha]; rfl)
    constructor
    · rintro (rfl | hx)
      · exact hmem
      · exact hx
    · exact .inr

theorem policy_releaseResources (m : ResourceManager) (id : String) :
    (m.releaseResources id).2.policy = m.policy := by
  rcases m.releaseResources_cases id with ⟨heq, -⟩ | ⟨a, -, -, heq⟩ <;> rw [heq]

theorem sain_pas (gpu : GPUInfo) {m : ResourceManager} (h : m.Sain) {a : Appel}
    (ha : a.Positif) : (pas gpu m a).Sain ∧ (pas gpu m a).policy = m.policy := by
  cases a with
  | liberer id => exact ⟨h.releaseResources id, policy_releaseResources m id⟩
  | reserver ram r id =>
      rcases m.reserveResources_cases gpu ram r id with ⟨heq, -⟩ | ⟨heq, -⟩
      · rw [pas, heq]
        exact ⟨h, rfl⟩
      · rw [pas, heq]
        exact ⟨h.inscrire id ha, rfl⟩

theorem sain_apres (gpu : GPUInfo) {m : ResourceManager} (h : m.Sain) {histoire : List Appel}
    (hpositif : ∀ a ∈ histoire, a.Positif) :
    (apres gpu m histoire).Sain ∧ (apres gpu m histoire).policy = m.policy := by
  induction histoire generalizing m with
  | nil => exact ⟨h, rfl⟩
  | cons a histoire ih =>
      obtain ⟨hstep, hpolicy⟩ := sain_pas gpu h (hpositif a List.mem_cons_self)
      obtain ⟨hrest, hrestPolicy⟩ :=
        ih hstep fun b hb => hpositif b (List.mem_cons_of_mem a hb)
      exact ⟨hrest, hrestPolicy.trans hpolicy⟩

theorem sain_vide : Sain {} := ⟨List.nodup_nil, fun item hitem => by cases hitem⟩

theorem liberer_spec {m : ResourceManager} (h : m.Sain) (ids : List String) :
    (m.liberer ids).Sain ∧ (m.liberer ids).policy = m.policy ∧
      (∀ x, x ∈ (m.liberer ids).allocations.keys ↔ x ∈ m.allocations.keys) ∧
      ∀ id, (id ∈ ids ∨ m.Libre id) → (m.liberer ids).Libre id := by
  induction ids generalizing m with
  | nil => exact ⟨h, rfl, fun x => Iff.rfl, fun id hid => hid.resolve_left List.not_mem_nil⟩
  | cons first ids ih =>
      obtain ⟨hsain, hpolicy, hkeys, hlibre⟩ := ih (h.releaseResources first)
      refine ⟨hsain, hpolicy.trans (policy_releaseResources m first),
        fun x => (hkeys x).trans (keys_releaseResources m first x), fun id hid => ?_⟩
      apply hlibre
      rcases hid with hid | hid
      · rcases List.mem_cons.mp hid with rfl | hid
        · exact .inr (libre_releaseResources m id)
        · exact .inl hid
      · exact .inr (hid.releaseResources first)

theorem octetsReserves_liberer {m : ResourceManager} (h : m.Sain) {ids : List String}
    (hids : ∀ id ∈ m.allocations.keys, id ∈ ids) (resourceType : ResourceType) :
    (m.liberer ids).octetsReserves resourceType = 0 := by
  obtain ⟨hsain, -, hkeys, hlibre⟩ := liberer_spec h ids
  refine List.sum_eq_zero fun x hx => ?_
  obtain ⟨⟨id, a⟩, hitem, rfl⟩ := List.mem_map.mp hx
  have hkey : id ∈ m.allocations.keys := (hkeys id).mp (List.mem_map_of_mem hitem)
  exact promis_released (hlibre id (.inl (hids id hkey)) a (Dict.get?_of_mem hsain.nodup hitem))

theorem canAllocate_congr {m m' : ResourceManager} (hpolicy : m.policy = m'.policy)
    (hreserves : ∀ resourceType, m.octetsReserves resourceType = m'.octetsReserves resourceType) :
    m.canAllocate = m'.canAllocate := by
  funext gpu ram r id
  simp only [canAllocate, hpolicy, hreserves]

/-- Half way between the float of the ceiling and the next one. -/
def milieu : Rat := 16212958658533787 / 2 ^ 54

theorem arrondir_milieu : Flottant.arrondir milieu = 8106479329266894 / 2 ^ 53 := by
  have hhalf : milieu / 2 ^ ((-1 : Int) - 52) = ((8106479329266893 : Int) : Rat) + 1 / 2 := by
    norm_num [milieu]
  rw [Flottant.arrondir_eq (k := -1) (by norm_num [milieu]) (by norm_num [milieu]) (by norm_num),
    hhalf, Flottant.pair_half_of_odd (by norm_num)]
  norm_num

theorem quotient_lt_milieu {policy : DefaultAllocationPolicy}
    (hpolicy : policy.maxVramUsagePct = 8106479329266893 / 2 ^ 53) {gpu : GPUInfo} {octets : Int}
    (h : SousPlafond policy gpu octets) :
    ((gpu.vramUsedBytes + octets : Int) : Rat) / gpu.vramTotalBytes < milieu := by
  obtain ⟨pct, hpct, hle⟩ := h
  have harrondi : pct
      = Flottant.arrondir (((gpu.vramUsedBytes + octets : Int) : Rat) / gpu.vramTotalBytes) := by
    unfold Flottant.diviser at hpct
    dsimp only at hpct
    split at hpct
    · cases hpct
    · exact (Option.some.inj hpct).symm
  by_contra hge
  have hmono := Flottant.arrondir_mono (by norm_num [milieu]) (not_lt.mp hge)
  rw [arrondir_milieu, ← harrondi] at hmono
  rw [hpolicy] at hle
  have := hmono.trans hle
  norm_num at this

theorem octets_sous_plafond {policy : DefaultAllocationPolicy}
    (hpolicy : policy.maxVramUsagePct = 8106479329266893 / 2 ^ 53) {gpu : GPUInfo} {octets : Int}
    (htotal : 0 < gpu.vramTotalBytes) (h : SousPlafond policy gpu octets) :
    10 * (gpu.vramUsedBytes + octets) * 2 ^ 54 < (9 * 2 ^ 54 + 14) * gpu.vramTotalBytes := by
  have hlt := quotient_lt_milieu hpolicy h
  have htotal' : (0 : Rat) < gpu.vramTotalBytes := by exact_mod_cast htotal
  rw [milieu, div_lt_div_iff₀ htotal' (by norm_num)] at hlt
  have hint : (gpu.vramUsedBytes + octets) * 2 ^ 54 < 16212958658533787 * gpu.vramTotalBytes := by
    exact_mod_cast hlt
  omega

/-- The bytes of the card that are taken or promised. -/
def engages (m : ResourceManager) (gpu : GPUInfo) : Int :=
  gpu.vramUsedBytes + m.octetsReserves .vram

structure Comptable (gpu : GPUInfo) (m : ResourceManager) : Prop where
  plafond : ∀ ram r id result, r.resourceType = .vram → 0 ≤ r.bytesRequested →
    (m.reserveResources gpu ram r id).1 = some result → result.success = true →
    let suivant := (m.reserveResources gpu ram r id).2
    10 * suivant.engages gpu * 2 ^ 54 < (9 * 2 ^ 54 + 14) * gpu.vramTotalBytes ∧
      (14 * gpu.vramTotalBytes ≤ 2 ^ 54 → 10 * suivant.engages gpu ≤ 9 * gpu.vramTotalBytes)
  refusee : ∀ id, (m.releaseResources id).1 = none → (m.releaseResources id).2 = m
  repetee : ∀ id, (m.releaseResources id).2.releaseResources id
    = (none, (m.releaseResources id).2)
  restauree : ∀ ids, (∀ id ∈ m.allocations.keys, id ∈ ids) →
    (m.liberer ids).canAllocate = ({} : ResourceManager).canAllocate

/-- Whatever the history of reservations and releases, a VRAM reservation that has just been
granted keeps the card below its ceiling, a refused or repeated release changes nothing, and
releasing everything gives back the admissions of the start. -/
theorem comptable_apres {gpu : GPUInfo} (htotal : 0 < gpu.vramTotalBytes)
    {histoire : List Appel} (hpositif : ∀ a ∈ histoire, a.Positif) :
    Comptable gpu (apres gpu {} histoire) := by
  obtain ⟨hsain, hpolicy⟩ := sain_apres gpu sain_vide hpositif
  generalize apres gpu {} histoire = m at hsain hpolicy
  refine ⟨fun ram r id result htype hr hresult hok => ?_, fun id hnone => ?_, fun id => ?_,
    fun ids hids => ?_⟩
  · rcases m.reserveResources_cases gpu ram r id with ⟨-, hno⟩ | ⟨heq, hplafond⟩
    · rw [hno result hresult] at hok
      cases hok
    · rw [heq]
      obtain ⟨-, hsous⟩ := hplafond (by rw [htype]; decide) (by omega)
      have hbound := octets_sous_plafond (by rw [hpolicy]) htotal hsous
      have hsum := octetsReserves_inscrire_le hsain id
        (a := r.allouer id (typeInscrit r.resourceType)) hr .vram
      rw [htype] at hbound
      simp only [engages, Requete.allouer] at hbound hsum ⊢
      omega
  · rcases m.releaseResources_cases id with ⟨heq, -⟩ | ⟨a, -, -, heq⟩
    · rw [heq]
    · rw [heq] at hnone
      cases hnone
  · exact releaseResources_libre (libre_releaseResources m id)
  · apply canAllocate_congr
    · rw [(liberer_spec hsain ids).2.1, hpolicy]
    · exact octetsReserves_liberer hsain hids

def carte : GPUInfo :=
  { nomCite := "'carte'", vramTotalBytes := 100, vramUsedBytes := 10, vramFreeBytes := 90 }

def memoire : ResourceSnapshot :=
  { resourceType := .ram, totalBytes := 100, usedBytes := 0, freeBytes := 100 }

theorem comptable_apres_carte :
    Comptable carte (apres carte {} [.reserver memoire ⟨60, "ollama", .vram, none, 0⟩ "a",
      .reserver memoire ⟨30, "ollama", .vram, none, 0⟩ "b", .liberer "a"]) :=
  comptable_apres (by decide) (by simp [Appel.Positif])

/-- A card on which nine tenths and one byte round to the ceiling. -/
def carteImmense : GPUInfo :=
  { nomCite := "'carte'", vramTotalBytes := 100000000000000000,
    vramUsedBytes := 0, vramFreeBytes := 100000000000000000 }

theorem diviser_immense :
    Flottant.diviser 90000000000000001 100000000000000000
      = some (8106479329266893 / 2 ^ 53) := by
  have harrondi : Flottant.arrondir
      (((90000000000000001 : Int) : Rat) / ((100000000000000000 : Int) : Rat))
      = 8106479329266893 / 2 ^ 53 := by
    rw [Flottant.arrondir_eq (k := -1) (by norm_num) (by norm_num) (by norm_num),
      Flottant.pair_eq_of_abs_lt (n := 8106479329266893) (by norm_num [abs_lt])]
    norm_num
  have hfini : ¬(2 : Rat) ^ 1024 ≤ |8106479329266893 / 2 ^ 53| := by
    have hone : (1 : Rat) ≤ 2 ^ 1024 := one_le_pow₀ (by norm_num)
    have hlt : |(8106479329266893 / 2 ^ 53 : Rat)| < 1 := by norm_num [abs_lt]
    exact not_le.mpr (hlt.trans_le hone)
  unfold Flottant.diviser
  rw [harrondi, if_neg hfini]

theorem reserve_au_dela_du_plafond :
    let fin := ({} : ResourceManager).reserveResources carteImmense memoire
      ⟨90000000000000001, "ollama", .vram, none, 0⟩ "a"
    (∃ result, fin.1 = some result ∧ result.success = true) ∧
      9 * carteImmense.vramTotalBytes < 10 * fin.2.engages carteImmense := by
  intro fin
  have hfin : fin = (some (accorde ⟨90000000000000001, "ollama", .vram, none, 0⟩ "a" .vram ""),
      { allocations := [("a", Requete.allouer ⟨90000000000000001, "ollama", .vram, none, 0⟩ "a"
          .vram)] }) := by
    simp [fin, reserveResources, canAllocate, DefaultAllocationPolicy.canAllocate, carteImmense,
      octetsReserves, diviser_immense, accorde, Dict.set, Requete.allouer]
  rw [hfin]
  exact ⟨⟨_, rfl, rfl⟩, by decide⟩

end ResourceManager

end Hermes.Ressources
