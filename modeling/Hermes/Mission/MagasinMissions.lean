import Hermes.Lib.Tri
import Hermes.Mission.RegistreMissions
import Mathlib.Data.String.Basic

/-! # The order of the stored missions

The store lists its missions by the date of creation that their rows hold, the latest first, and
by row number where the dates are equal.
-/

namespace Hermes.Persistance.MagasinMissions

open Lib RegistreMissions

structure Ligne where
  missionId : String
  creeLe : String
  document : String

abbrev Missions := Table Ligne.missionId

def ligne (mission : Mission) : Ligne where
  missionId := mission.missionId
  creeLe := Magasin.creeLe mission
  document := document mission.objet

/-- `INSERT OR REPLACE`. -/
def enregistrer (t : Missions) (mission : Mission) : Missions := t.deposer (ligne mission)

/-- `ORDER BY cree_le DESC, rowid DESC`. -/
def ordre (t : Missions) : List Ligne :=
  t.lignes.reverse.mergeSort fun a b => b.creeLe ≤ a.creeLe

def identifiants (t : Missions) : List String := (ordre t).map Ligne.missionId

def tous (u : Usine) (t : Missions) : List Objet :=
  (ordre t).filterMap fun l => depuis u l.document

def apres (h : List Mission) : Missions := h.foldl enregistrer Table.vide

def magasin (h : List Mission) : Magasin := h.foldl Table.deposer Table.vide

theorem lignes_apres (h : List Mission) : (apres h).lignes = (magasin h).lignes.map ligne := by
  induction h using List.reverseRecOn with
  | nil => rfl
  | append_singleton h m ih =>
      have hfilter : ((magasin h).lignes.map ligne).filter (fun l => l.missionId ≠ m.missionId)
          = ((magasin h).lignes.filter fun m' => m'.missionId ≠ m.missionId).map ligne := by
        rw [List.filter_map]
        rfl
      rw [apres, magasin, List.foldl_concat, List.foldl_concat]
      show (apres h).lignes.filter _ ++ [ligne m] = ((magasin h).lignes.filter _ ++ [m]).map ligne
      rw [ih, List.map_append, List.map_singleton]
      exact congrArg (· ++ [ligne m]) hfilter

theorem ordre_apres (h : List Mission) : ordre (apres h) = (Magasin.tous (magasin h)).map ligne := by
  rw [ordre, Magasin.tous, lignes_apres, ← List.map_reverse, List.map_mergeSort]
  exact fun a _ b _ => rfl

theorem identifiants_apres (h : List Mission) :
    identifiants (apres h) = (Magasin.tous (magasin h)).map Mission.missionId := by
  rw [identifiants, ordre_apres, List.map_map]
  rfl

theorem tous_apres (u : Usine) (h : List Mission) :
    tous u (apres h) = (Magasin.tous (magasin h)).map Mission.objet := by
  rw [tous, ordre_apres, List.filterMap_map]
  have hread : (fun l : Ligne => depuis u l.document) ∘ ligne
      = some ∘ Mission.objet := by
    funext m
    simp only [Function.comp_apply, ligne, depuis_document]
  rw [hread, List.filterMap_eq_map]

section

variable (h : List Mission) (id : String)

def premier : Nat := h.findIdx fun m => m.missionId = id

/-- How many calls came after the last one for the mission. -/
def anciennete : Nat := h.reverse.findIdx fun m => m.missionId = id

def derniere : Option Mission := h.reverse.find? fun m => m.missionId = id

def creeLe : String := ((derniere h id).map Magasin.creeLe).getD ""

end

/-- Of two missions, the one that was first registered last comes first in both listings. -/
structure OrdreDeCreation (u : Usine) (h : List Mission) : Prop where
  identifiants : ∀ a ∈ h.map Mission.missionId, ∀ b ∈ h.map Mission.missionId,
    premier h a < premier h b → [b, a].Sublist (identifiants (apres h))
  tous : ∃ ms : List Mission, tous u (apres h) = ms.map Mission.objet ∧
    ∀ a ∈ h.map Mission.missionId, ∀ b ∈ h.map Mission.missionId,
      premier h a < premier h b → [b, a].Sublist (ms.map Mission.missionId)

/-- The call respects the order: what was first registered earlier has no later date, and what was
first registered later has a later one. -/
def PasOrdonne (h : List Mission) (m : Mission) : Prop :=
  ∀ a ∈ h.map Mission.missionId,
    (premier h a < premier h m.missionId → creeLe h a ≤ Magasin.creeLe m) ∧
      (premier h m.missionId < premier h a → Magasin.creeLe m < creeLe h a)

section

variable {h : List Mission} {id : String}

theorem lire_magasin (h : List Mission) (id : String) : (magasin h).lire id = derniere h id := by
  induction h using List.reverseRecOn with
  | nil => rfl
  | append_singleton h m ih =>
      rw [magasin, List.foldl_concat, ← magasin, Table.lire_deposer, ih, derniere, derniere,
        List.reverse_concat, List.find?_cons]
      by_cases hid : id = m.missionId
      · simp [hid]
      · simp [hid, Ne.symm hid]

theorem anciennete_concat (h : List Mission) (m : Mission) (id : String) :
    anciennete (h ++ [m]) id = if id = m.missionId then 0 else anciennete h id + 1 := by
  rw [anciennete, List.reverse_concat, List.findIdx_cons, ← anciennete]
  by_cases hid : id = m.missionId
  · simp [hid]
  · simp [hid, Ne.symm hid]

theorem creeLe_concat (h : List Mission) (m : Mission) (id : String) :
    creeLe (h ++ [m]) id = if id = m.missionId then Magasin.creeLe m else creeLe h id := by
  rw [creeLe, derniere, List.reverse_concat, List.find?_cons]
  by_cases hid : id = m.missionId
  · simp [hid]
  · simp [hid, Ne.symm hid, creeLe, derniere]

theorem premier_concat (h : List Mission) (m : Mission)
    (hid : id ∈ (h ++ [m]).map Mission.missionId) : premier (h ++ [m]) id = premier h id := by
  rw [premier, List.findIdx_append, ← premier]
  split
  · rfl
  · next hlong =>
      have habsent : id ∉ h.map Mission.missionId := by
        intro hmem
        obtain ⟨m', hm', rfl⟩ := List.mem_map.mp hmem
        exact hlong (List.findIdx_lt_length_of_exists ⟨m', hm', by simp⟩)
      have heq : m.missionId = id := by
        rw [List.map_append, List.mem_append] at hid
        simpa [eq_comm] using hid.resolve_left habsent
      have hlen : premier h id = h.length := by
        refine List.findIdx_eq_length.mpr fun m' hm' => ?_
        have hne : m'.missionId ≠ id := fun h => habsent (h ▸ List.mem_map_of_mem hm')
        simpa using hne
      simp [hlen, heq]

theorem mem_magasin : (∃ m ∈ (magasin h).lignes, m.missionId = id) ↔
    id ∈ h.map Mission.missionId := by
  have hlire : (magasin h).lire id = none ↔ id ∉ h.map Mission.missionId := by
    simp [lire_magasin, derniere]
  rw [Table.lire_eq_none] at hlire
  rw [← List.mem_map]
  exact not_iff_not.mp hlire

theorem creeLe_of_mem {m : Mission} (hm : m ∈ (magasin h).lignes) :
    creeLe h m.missionId = Magasin.creeLe m := by
  rw [creeLe, ← lire_magasin, Table.lire_of_mem hm]
  rfl

theorem pairwise_lignes (h : List Mission) : (magasin h).lignes.Pairwise fun m m' =>
    anciennete h m'.missionId < anciennete h m.missionId := by
  induction h using List.reverseRecOn with
  | nil => exact List.Pairwise.nil
  | append_singleton h m ih =>
      have hlignes : (magasin (h ++ [m])).lignes
          = (magasin h).lignes.filter (fun m' => m'.missionId ≠ m.missionId) ++ [m] := by
        rw [magasin, List.foldl_concat]
        rfl
      have hautre : ∀ m' ∈ (magasin h).lignes.filter (fun m' => m'.missionId ≠ m.missionId),
          anciennete (h ++ [m]) m'.missionId = anciennete h m'.missionId + 1 := by
        intro m' hm'
        have hne : m'.missionId ≠ m.missionId := by simpa using (List.mem_filter.mp hm').2
        rw [anciennete_concat, if_neg hne]
      rw [hlignes]
      refine List.pairwise_append.mpr ⟨?_, List.pairwise_singleton _ _, ?_⟩
      · refine (ih.sublist List.filter_sublist).imp_of_mem fun hm hm' hlt => ?_
        rw [hautre _ hm, hautre _ hm']
        omega
      · intro m' hm' m'' hm''
        rw [List.mem_singleton.mp hm'', hautre m' hm', anciennete_concat, if_pos rfl]
        omega

/-- `a` is listed before `b`. -/
def Recente (h : List Mission) (a b : String) : Prop :=
  creeLe h b < creeLe h a ∨ (creeLe h a = creeLe h b ∧ anciennete h a < anciennete h b)

theorem Recente.asymm {a b : String} (hab : Recente h a b) : ¬Recente h b a := by
  rintro (hlt | ⟨heq, hlt⟩) <;> rcases hab with hlt' | ⟨heq', hlt'⟩
  · exact lt_asymm hlt hlt'
  · exact lt_irrefl _ (heq' ▸ hlt)
  · exact lt_irrefl _ (heq ▸ hlt')
  · omega

theorem mem_tous {t : Magasin} {m : Mission} : m ∈ Magasin.tous t ↔ m ∈ t.lignes := by
  rw [Magasin.tous, List.mem_mergeSort, List.mem_reverse]

theorem pairwise_tous (h : List Mission) :
    ((Magasin.tous (magasin h)).map Mission.missionId).Pairwise (Recente h) := by
  have htrans : ∀ a b c : Mission,
      decide (Magasin.creeLe b ≤ Magasin.creeLe a) = true →
        decide (Magasin.creeLe c ≤ Magasin.creeLe b) = true →
          decide (Magasin.creeLe c ≤ Magasin.creeLe a) = true := by
    intro a b c hab hbc
    exact decide_eq_true (le_trans (of_decide_eq_true hbc) (of_decide_eq_true hab))
  have htotal : ∀ a b : Mission, (decide (Magasin.creeLe b ≤ Magasin.creeLe a)
      || decide (Magasin.creeLe a ≤ Magasin.creeLe b)) = true := by
    intro a b
    simpa using le_total (Magasin.creeLe b) (Magasin.creeLe a)
  have hrangees := pairwise_mergeSort_stable htrans htotal
    (List.pairwise_reverse.mpr (pairwise_lignes h))
  refine List.pairwise_map.mpr (hrangees.imp_of_mem fun {m m'} hm hm' hordre => ?_)
  obtain ⟨hle, hegal⟩ := hordre
  rw [Recente, creeLe_of_mem (mem_tous.mp hm), creeLe_of_mem (mem_tous.mp hm')]
  rcases lt_or_eq_of_le (of_decide_eq_true hle) with hlt | heq
  · exact .inl hlt
  · exact .inr ⟨heq.symm, hegal (decide_eq_true heq.ge)⟩

theorem sublist_tous_iff {a b : String} (ha : a ∈ h.map Mission.missionId)
    (hb : b ∈ h.map Mission.missionId) (hne : a ≠ b) :
    [a, b].Sublist ((Magasin.tous (magasin h)).map Mission.missionId) ↔ Recente h a b := by
  have hmem : ∀ {id}, id ∈ h.map Mission.missionId →
      id ∈ (Magasin.tous (magasin h)).map Mission.missionId := by
    intro id hid
    obtain ⟨m, hm, rfl⟩ := mem_magasin.mpr hid
    exact List.mem_map_of_mem (mem_tous.mpr hm)
  exact pair_sublist_iff (pairwise_tous h) (fun _ _ => Recente.asymm) (hmem ha) (hmem hb) hne

/-- What was first registered later is the more recent one. -/
def Rangee (h : List Mission) : Prop :=
  ∀ a ∈ h.map Mission.missionId, ∀ b ∈ h.map Mission.missionId,
    premier h a < premier h b → Recente h b a

theorem ordreDeCreation_iff_rangee (u : Usine) : OrdreDeCreation u h ↔ Rangee h := by
  have hne : ∀ {a b}, premier h a < premier h b → b ≠ a := by
    rintro a b hlt rfl
    exact lt_irrefl _ hlt
  constructor
  · intro hordre a ha b hb hlt
    have hsub := hordre.identifiants a ha b hb hlt
    rw [identifiants_apres] at hsub
    exact (sublist_tous_iff hb ha (hne hlt)).mp hsub
  · intro hrangee
    have hsub : ∀ a ∈ h.map Mission.missionId, ∀ b ∈ h.map Mission.missionId,
        premier h a < premier h b →
          [b, a].Sublist ((Magasin.tous (magasin h)).map Mission.missionId) :=
      fun a ha b hb hlt => (sublist_tous_iff hb ha (hne hlt)).mpr (hrangee a ha b hb hlt)
    refine ⟨?_, Magasin.tous (magasin h), tous_apres u h, hsub⟩
    rwa [identifiants_apres]

theorem mem_concat {m : Mission} :
    id ∈ (h ++ [m]).map Mission.missionId ↔ id ∈ h.map Mission.missionId ∨ id = m.missionId := by
  simp [List.map_append, eq_comm]

theorem pasOrdonne_of_rangee {m : Mission} (hrangee : Rangee (h ++ [m])) : PasOrdonne h m := by
  intro a ha
  have ha' := (mem_concat (m := m)).mpr (.inl ha)
  have hm' := (mem_concat (h := h)).mpr (.inr (rfl : m.missionId = m.missionId))
  have hpa := premier_concat h m ha'
  have hpm := premier_concat h m hm'
  constructor
  · intro hlt
    have hne : a ≠ m.missionId := fun heq => lt_irrefl _ (heq ▸ hlt)
    rcases hrangee a ha' _ hm' (by rwa [hpa, hpm]) with hcree | ⟨heq, -⟩
    · rw [creeLe_concat, creeLe_concat, if_pos rfl, if_neg hne] at hcree
      exact hcree.le
    · rw [creeLe_concat, creeLe_concat, if_pos rfl, if_neg hne] at heq
      exact heq.ge
  · intro hlt
    have hne : a ≠ m.missionId := fun heq => lt_irrefl _ (heq ▸ hlt)
    rcases hrangee _ hm' a ha' (by rwa [hpa, hpm]) with hcree | ⟨-, hrang⟩
    · rwa [creeLe_concat, creeLe_concat, if_pos rfl, if_neg hne] at hcree
    · rw [anciennete_concat, anciennete_concat, if_pos rfl] at hrang
      omega

theorem rangee_concat {m : Mission} (hrangee : Rangee h) (hpas : PasOrdonne h m) :
    Rangee (h ++ [m]) := by
  intro a ha b hb hlt
  rw [premier_concat h m ha, premier_concat h m hb] at hlt
  have hne : b ≠ a := fun heq => lt_irrefl _ (heq ▸ hlt)
  rw [Recente, creeLe_concat, creeLe_concat, anciennete_concat, anciennete_concat]
  by_cases ham : a = m.missionId
  · -- the mission that is written again was there before `b`
    subst ham
    rw [if_pos rfl, if_neg hne]
    exact .inl ((hpas b ((mem_concat.mp hb).resolve_right hne)).2 hlt)
  · have ha := (mem_concat.mp ha).resolve_right ham
    rw [if_neg ham, if_neg ham]
    by_cases hbm : b = m.missionId
    · subst hbm
      rw [if_pos rfl, if_pos rfl]
      rcases lt_or_eq_of_le ((hpas a ha).1 hlt) with hcree | heq
      · exact .inl hcree
      · exact .inr ⟨heq.symm, by omega⟩
    · rw [if_neg hbm, if_neg hbm]
      rcases hrangee a ha b ((mem_concat.mp hb).resolve_right hbm) hlt with hcree | ⟨heq, hrang⟩
      · exact .inl hcree
      · exact .inr ⟨heq, by omega⟩

/-- Along every history, the listings are in the order of creation after each call exactly when
each call respects it. -/
theorem ordre_de_creation_iff (u : Usine) (h : List Mission) :
    (∀ h', h' <+: h → OrdreDeCreation u h') ↔ ∀ h' m, h' ++ [m] <+: h → PasOrdonne h' m := by
  simp only [ordreDeCreation_iff_rangee]
  constructor
  · exact fun hordre h' m hprefix => pasOrdonne_of_rangee (hordre _ hprefix)
  · intro hpas h'
    induction h' using List.reverseRecOn with
    | nil => exact fun _ a ha => nomatch ha
    | append_singleton h' m ih =>
        intro hprefix
        exact rangee_concat (ih ((List.prefix_append h' [m]).trans hprefix)) (hpas h' m hprefix)

def redemarrage : List Mission :=
  [esquisse "a" .created, esquisse "b" .created, esquisse "a" .running]

/-- The first one is then listed before the second. -/
theorem reecriture_passe_devant :
    ¬OrdreDeCreation ⟨"n", ⟨⟨2026, 1, 3, 0, 0, 0, 0, some 0⟩, by decide⟩⟩ redemarrage := by
  rw [ordreDeCreation_iff_rangee]
  intro hrangee
  rcases hrangee "a" (by decide) "b" (by decide) (by decide) with hlt | ⟨-, hlt⟩
  · exact absurd hlt (lt_irrefl _)
  · exact absurd hlt (by decide)

end

end Hermes.Persistance.MagasinMissions
