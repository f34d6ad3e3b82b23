import Hermes.Lib.Cache
import Hermes.Mission.Persistance
import Mathlib.Tactic.FinCases

/-! # A bounded cache in front of the durable store

The registry answers from its cache, and from the store what the cache has let go.
-/

namespace Hermes.Persistance.RegistreMissions

open Lib

abbrev Magasin := Table Mission.missionId

namespace Magasin

/-- The date of creation, as its column holds it. -/
def creeLe (m : Mission) : String := String.ofList m.createdAt.isoformat

/-- `ORDER BY cree_le DESC, rowid DESC`. -/
def tous (t : Magasin) : List Mission :=
  t.lignes.reverse.mergeSort fun a b => creeLe b ≤ creeLe a

end Magasin

def STATUTS_TERMINAUX : List MissionStatus := [.completed, .failed, .cancelled]

def terminale (m : Mission) : Bool := m.status ∈ STATUTS_TERMINAUX

structure Registre where
  maximum : Int
  missions : Dict String Mission := []
  magasin : Magasin
  hydrate : Bool := false

namespace Registre

def ouvrir (maximum : Int) (magasin : Magasin) : Registre where
  maximum := maximum
  magasin := magasin

def evincer (r : Registre) : Registre :=
  { r with missions := Cache.evincer terminale r.maximum r.missions }

def poser (r : Registre) (id : String) (m : Mission) : Registre :=
  { r with missions := r.missions.setLast id m }.evincer

def setItem (r : Registre) (id : String) (m : Mission) : Registre :=
  { r with magasin := r.magasin.deposer m }.poser id m

def persister (r : Registre) (m : Mission) : Registre :=
  { r with magasin := r.magasin.deposer m }.poser m.missionId m

def relire (r : Registre) (id : String) : Option Mission × Registre :=
  match r.magasin.lire id with
  | none => (none, r)
  | some m => (some m, r.poser id m)

/-- `r[id]`: nothing stands for `KeyError`. -/
def getItem (r : Registre) (id : String) : Option Mission × Registre :=
  match r.missions.get? id with
  | some m => (some m, r)
  | none => r.relire id

/-- `del r[id]`, and whether it did not raise. -/
def delItem (r : Registre) (id : String) : Bool × Registre :=
  let present := (r.missions.get? id).isSome
  let r' := { r with missions := r.missions.erase id }
  if !present && (r'.magasin.lire id).isNone then (false, r')
  else (true, { r' with magasin := r'.magasin.retirer id })

def contains (r : Registre) (id : String) : Bool × Registre :=
  if (r.missions.get? id).isSome then (true, r)
  else ((r.relire id).1.isSome, (r.relire id).2)

def get (r : Registre) (id : String) (defaut : Option Mission) : Option Mission × Registre :=
  match r.getItem id with
  | (some m, r') => (some m, r')
  | (none, r') => (defaut, r')

/-- The default is an optional argument: nothing in the answer stands for `KeyError`. -/
def pop (r : Registre) (id : String) (defaut : Option (Option Mission)) :
    Option (Option Mission) × Registre :=
  match r.getItem id with
  | (none, r') => (defaut, r')
  | (some m, r') =>
      match r'.delItem id with
      | (true, r'') => (some (some m), r'')
      | (false, r'') => (none, r'')

def clear (r : Registre) : Registre :=
  { r with missions := [], hydrate := false, magasin := Table.vide }

def hydrater (r : Registre) : Registre :=
  if r.hydrate then r
  else
    let recentes := Cache.prefixe r.maximum (Magasin.tous r.magasin)
    let missions := recentes.reverse.foldl (fun d m => Dict.setDefault d m.missionId m) r.missions
    { r with hydrate := true, missions := missions }.evincer

def values (r : Registre) : List Mission × Registre :=
  (r.hydrater.missions.map Prod.snd, r.hydrater)

end Registre

inductive Operation where
  | set (id : String) (m : Mission)
  | persister (m : Mission)
  | get (id : String) (defaut : Option Mission)
  | contains (id : String)
  | delete (id : String)
  | pop (id : String) (defaut : Option (Option Mission))
  | values
  | clear

inductive Reponse where
  | fait
  | erreur
  | rendu (m : Option Mission)
  | vrai (b : Bool)
  | liste (l : List Mission)

namespace Registre

def executer (r : Registre) : Operation → Reponse × Registre
  | .set id m => (.fait, r.setItem id m)
  | .persister m => (.fait, r.persister m)
  | .get id defaut => ((r.get id defaut).1 |> .rendu, (r.get id defaut).2)
  | .contains id => ((r.contains id).1 |> .vrai, (r.contains id).2)
  | .delete id => (if (r.delItem id).1 then .fait else .erreur, (r.delItem id).2)
  | .pop id defaut => ((r.pop id defaut).1.elim .erreur .rendu, (r.pop id defaut).2)
  | .values => (.liste r.values.1, r.values.2)
  | .clear => (.fait, r.clear)

def apres (r : Registre) (operations : List Operation) : Registre :=
  operations.foldl (fun r o => (r.executer o).2) r

end Registre

abbrev Carte := String → Option Mission

namespace Carte

def suivante (c : Carte) : Operation → Carte
  | .set id m => Function.update c id (some m)
  | .persister m => Function.update c m.missionId (some m)
  | .delete id | .pop id _ => Function.update c id none
  | .clear => fun _ => none
  | .get _ _ | .contains _ | .values => c

def apres (c : Carte) (operations : List Operation) : Carte := operations.foldl suivante c

def Repond (c : Carte) : Operation → Reponse → Prop
  | .set _ _, rep | .persister _, rep | .clear, rep => rep = .fait
  | .get id defaut, rep => rep = .rendu ((c id).or defaut)
  | .contains id, rep => rep = .vrai (c id).isSome
  | .delete id, rep => rep = if (c id).isSome then .fait else .erreur
  | .pop id defaut, rep => rep = (((c id).map some).or defaut).elim .erreur .rendu
  | .values, rep => ∃ l, rep = .liste l ∧ ∀ m ∈ l, c m.missionId = some m

end Carte

namespace Operation

def Propre : Operation → Prop
  | set id m => id = m.missionId
  | _ => True

def cible : Operation → Option String
  | set id _ | get id _ | contains id | delete id | pop id _ => some id
  | persister m => some m.missionId
  | values | clear => none

end Operation

namespace Registre

variable {r : Registre} {id k : String} {m : Mission}

structure Coherent (r : Registre) : Prop where
  cles : r.missions.keys.Nodup
  lu : ∀ k m, r.missions.get? k = some m → r.magasin.lire k = some m

theorem coherent_ouvrir (maximum : Int) (magasin : Magasin) : (ouvrir maximum magasin).Coherent :=
  ⟨List.nodup_nil, fun _ _ h => nomatch h⟩

theorem coherent_evincer (h : r.Coherent) : r.evincer.Coherent where
  cles := Cache.nodup_evincer h.cles
  lu k m hget := h.lu k m (Cache.get?_of_evincer h.cles hget)

theorem coherent_poser (hcles : r.missions.keys.Nodup)
    (hlu : ∀ k m, k ≠ id → r.missions.get? k = some m → r.magasin.lire k = some m)
    (hm : r.magasin.lire id = some m) : (r.poser id m).Coherent := by
  apply coherent_evincer
  refine ⟨Dict.nodup_keys_setLast hcles id m, fun k m' hget => ?_⟩
  simp only [Dict.get?_setLast] at hget
  split at hget
  · next hk =>
      cases hget
      rw [hk]
      exact hm
  · next hk => exact hlu k m' hk hget

theorem poser_magasin (r : Registre) (id : String) (m : Mission) :
    (r.poser id m).magasin = r.magasin := rfl

theorem get?_poser (h : r.missions.keys.Nodup) (hm : terminale m = false) :
    (r.poser id m).missions.get? id = some m := by
  apply Cache.get?_evincer (Dict.nodup_keys_setLast h id m) _ hm
  simp [Dict.get?_setLast]

theorem get?_poser_of_ne (h : r.missions.keys.Nodup) {m' : Mission} (hne : k ≠ id)
    (hget : r.missions.get? k = some m') (hm : terminale m' = false) :
    (r.poser id m).missions.get? k = some m' := by
  apply Cache.get?_evincer (Dict.nodup_keys_setLast h id m) _ hm
  simp [Dict.get?_setLast, hne, hget]

/-- From `r` to `r'`: the store reads as the map `c`, and a mission of `c` that is not terminal
is in the cache when it was there before or is the one named. -/
structure Suite (r r' : Registre) (c : Carte) (cible : Option String) : Prop where
  coherent : r'.Coherent
  carte : r'.magasin.lire = c
  garde : ∀ k m, (r.missions.get? k).isSome ∨ cible = some k → c k = some m →
    terminale m = false → r'.missions.get? k = some m

theorem Coherent.get? (h : r.Coherent) (hin : (r.missions.get? k).isSome)
    (hm : r.magasin.lire k = some m) : r.missions.get? k = some m := by
  obtain ⟨m', hm'⟩ := Option.isSome_iff_exists.mp hin
  rw [hm', ← h.lu k m' hm', hm]

theorem suite_refl (h : r.Coherent) : Suite r r r.magasin.lire none where
  coherent := h
  carte := rfl
  garde k m hk hm _ := by
    have hin : (r.missions.get? k).isSome := hk.resolve_right (by simp)
    exact h.get? hin hm

theorem suite_ecrire (h : r.Coherent) (m : Mission) :
    Suite r ({ r with magasin := r.magasin.deposer m }.poser m.missionId m)
      (Function.update r.magasin.lire m.missionId (some m)) (some m.missionId) := by
  have hlire : (r.magasin.deposer m).lire =
      Function.update r.magasin.lire m.missionId (some m) := by
    funext k
    simp only [Table.lire_deposer, Function.update_apply]
  refine ⟨coherent_poser h.cles ?_ ?_, ?_, ?_⟩
  · intro k m' hne hget
    show (r.magasin.deposer m).lire k = some m'
    rw [hlire, Function.update_of_ne hne]
    exact h.lu k m' hget
  · show (r.magasin.deposer m).lire m.missionId = some m
    rw [hlire, Function.update_self]
  · rw [poser_magasin, ← hlire]
  · intro k m' hk hm' hactive
    by_cases hne : k = m.missionId
    · subst hne
      rw [Function.update_self] at hm'
      cases hm'
      exact get?_poser h.cles hactive
    · have hin : (r.missions.get? k).isSome := hk.resolve_right fun h => hne (by simp_all)
      rw [Function.update_of_ne hne] at hm'
      refine get?_poser_of_ne (r := { r with magasin := r.magasin.deposer m }) h.cles hne ?_ hactive
      exact h.get? hin hm'

theorem relire_fst (r : Registre) (id : String) : (r.relire id).1 = r.magasin.lire id := by
  unfold relire
  cases r.magasin.lire id <;> rfl

theorem suite_relire (h : r.Coherent) (id : String) :
    Suite r (r.relire id).2 r.magasin.lire (some id) := by
  unfold relire
  cases hlire : r.magasin.lire id with
  | none =>
      refine ⟨h, rfl, fun k m hk hm hactive => ?_⟩
      refine (suite_refl h).garde k m (.inl (hk.resolve_right ?_)) hm hactive
      rintro ⟨rfl⟩
      rw [hlire] at hm
      cases hm
  | some m =>
      refine ⟨coherent_poser h.cles (fun k m' _ => h.lu k m') hlire, ?_, ?_⟩
      · rw [poser_magasin]
      · intro k m' hk hm' hactive
        by_cases hne : k = id
        · subst hne
          rw [hlire] at hm'
          cases hm'
          exact get?_poser h.cles hactive
        · have hin : (r.missions.get? k).isSome := hk.resolve_right fun h => hne (by simp_all)
          exact get?_poser_of_ne h.cles hne (h.get? hin hm') hactive

theorem getItem_fst (h : r.Coherent) (id : String) : (r.getItem id).1 = r.magasin.lire id := by
  unfold getItem
  cases hget : r.missions.get? id with
  | none => exact relire_fst r id
  | some m => exact (h.lu id m hget).symm

theorem suite_getItem (h : r.Coherent) (id : String) :
    Suite r (r.getItem id).2 r.magasin.lire (some id) := by
  unfold getItem
  cases hget : r.missions.get? id with
  | none => exact suite_relire h id
  | some m =>
      refine ⟨h, rfl, fun k m' hk hm' _ => ?_⟩
      rcases hk with hin | hcible
      · exact h.get? hin hm'
      · cases hcible
        exact h.get? (by rw [hget]; rfl) hm'

theorem delItem_fst (h : r.Coherent) (id : String) :
    (r.delItem id).1 = (r.magasin.lire id).isSome := by
  unfold delItem
  cases hget : r.missions.get? id with
  | none => cases hlire : r.magasin.lire id <;> simp [hlire]
  | some m => simp [h.lu id m hget]

theorem delItem_missions (r : Registre) (id : String) :
    (r.delItem id).2.missions = r.missions.erase id := by
  unfold delItem
  dsimp only
  split <;> rfl

theorem delItem_lire (r : Registre) (id : String) :
    (r.delItem id).2.magasin.lire = Function.update r.magasin.lire id none := by
  funext k
  have hretirer : (r.magasin.retirer id).lire k = Function.update r.magasin.lire id none k := by
    rw [Table.lire_retirer, Function.update_apply]
  unfold delItem
  dsimp only
  split
  · next habsent =>
      have hnone : r.magasin.lire id = none := by simp_all
      rw [← hnone, Function.update_eq_self]
  · exact hretirer

theorem suite_delItem (h : r.Coherent) (id : String) :
    Suite r (r.delItem id).2 (Function.update r.magasin.lire id none) none := by
  refine ⟨⟨?_, ?_⟩, delItem_lire r id, ?_⟩
  · rw [delItem_missions]
    exact Dict.nodup_keys_erase h.cles id
  · intro k m hget
    rw [delItem_missions, Dict.get?_erase] at hget
    rw [delItem_lire, Function.update_apply]
    split at hget
    · cases hget
    · next hne =>
        rw [if_neg hne]
        exact h.lu k m hget
  · intro k m hk hm _
    have hin : (r.missions.get? k).isSome := hk.resolve_right (by simp)
    rw [Function.update_apply] at hm
    split at hm
    · cases hm
    · next hne =>
        rw [delItem_missions, Dict.get?_erase, if_neg hne]
        exact h.get? hin hm

theorem get?_foldl_setDefault (missions : Dict String Mission) (recentes : List Mission)
    (hget : (recentes.foldl (fun d m => Dict.setDefault d m.missionId m) missions).get? k =
      some m) :
    missions.get? k = some m ∨ (m ∈ recentes ∧ m.missionId = k) := by
  induction recentes generalizing missions with
  | nil => exact .inl hget
  | cons m' recentes ih =>
      rcases ih _ hget with hget' | ⟨hmem, hid⟩
      · rw [Dict.get?_setDefault] at hget'
        cases hk : missions.get? k with
        | some m'' =>
            rw [hk, Option.some_or] at hget'
            exact .inl hget'
        | none =>
            rw [hk, Option.none_or] at hget'
            split at hget'
            · next heq =>
                cases hget'
                exact .inr ⟨List.mem_cons_self, heq.symm⟩
            · cases hget'
      · exact .inr ⟨List.mem_cons_of_mem _ hmem, hid⟩

theorem get?_foldl_setDefault_of_some (missions : Dict String Mission) (recentes : List Mission)
    (hget : missions.get? k = some m) :
    (recentes.foldl (fun d m => Dict.setDefault d m.missionId m) missions).get? k = some m := by
  induction recentes generalizing missions with
  | nil => exact hget
  | cons m' recentes ih =>
      apply ih
      rw [Dict.get?_setDefault, hget, Option.some_or]

theorem nodup_foldl_setDefault (missions : Dict String Mission) (recentes : List Mission)
    (h : missions.keys.Nodup) :
    (recentes.foldl (fun d m => Dict.setDefault d m.missionId m) missions).keys.Nodup := by
  induction recentes generalizing missions with
  | nil => exact h
  | cons m' recentes ih => exact ih _ (Dict.nodup_keys_setDefault h _ _)

theorem suite_hydrater (h : r.Coherent) : Suite r r.hydrater r.magasin.lire none := by
  unfold hydrater
  split
  · exact suite_refl h
  · have hcles := nodup_foldl_setDefault r.missions
      (Cache.prefixe r.maximum (Magasin.tous r.magasin)).reverse h.cles
    refine ⟨coherent_evincer ⟨hcles, fun k m hget => ?_⟩, ?_, ?_⟩
    · rcases get?_foldl_setDefault _ _ hget with hget | ⟨hmem, rfl⟩
      · exact h.lu k m hget
      · have hrow : m ∈ Magasin.tous r.magasin :=
          Cache.mem_prefixe (List.mem_reverse.mp hmem)
        rw [Magasin.tous, List.mem_mergeSort, List.mem_reverse] at hrow
        exact Table.lire_of_mem hrow
    · rfl
    · intro k m hk hm hactive
      have hin : (r.missions.get? k).isSome := hk.resolve_right (by simp)
      refine Cache.get?_evincer hcles ?_ hactive
      exact get?_foldl_setDefault_of_some _ _ (h.get? hin hm)

theorem suite_clear (r : Registre) : Suite r r.clear (fun _ => none) none where
  coherent := ⟨List.nodup_nil, fun _ _ h => nomatch h⟩
  carte := rfl
  garde := fun _ _ _ hm => nomatch hm

theorem pop_snd (h : r.Coherent) (id : String) (defaut : Option (Option Mission)) :
    (r.pop id defaut).2 =
      if (r.magasin.lire id).isSome then ((r.getItem id).2.delItem id).2 else (r.getItem id).2 := by
  have hfst := getItem_fst h id
  unfold pop
  rcases hitem : r.getItem id with ⟨_ | m, r'⟩
  · rw [hitem] at hfst
    simp [← hfst]
  · rw [hitem] at hfst
    simp only [← hfst]
    rcases r'.delItem id with ⟨_ | _, r''⟩ <;> rfl

theorem pop_fst (h : r.Coherent) (id : String) (defaut : Option (Option Mission)) :
    (r.pop id defaut).1 = ((r.magasin.lire id).map some).or defaut := by
  have hfst := getItem_fst h id
  have hsuite := suite_getItem h id
  unfold pop
  rcases hitem : r.getItem id with ⟨_ | m, r'⟩
  · rw [hitem] at hfst
    simp [← hfst]
  · rw [hitem] at hfst hsuite
    have hdel := delItem_fst hsuite.coherent id
    rw [hsuite.carte, ← hfst] at hdel
    rcases hboth : r'.delItem id with ⟨_ | _, r''⟩
    · rw [hboth] at hdel
      cases hdel
    · simp [hboth, ← hfst]

theorem suite_pop (h : r.Coherent) (id : String) (defaut : Option (Option Mission)) :
    Suite r (r.pop id defaut).2 (Function.update r.magasin.lire id none) (some id) := by
  have hlu := suite_getItem h id
  rw [pop_snd h]
  split
  · have hdel := suite_delItem hlu.coherent id
    refine ⟨hdel.coherent, by rw [hdel.carte, hlu.carte], fun k m hk hm hactive => ?_⟩
    have hold : r.magasin.lire k = some m := by
      rw [Function.update_apply] at hm
      split at hm
      · cases hm
      · exact hm
    have hin : (r.getItem id).2.missions.get? k = some m := hlu.garde k m hk hold hactive
    refine hdel.garde k m (.inl (by rw [hin]; rfl)) ?_ hactive
    rw [hlu.carte]
    exact hm
  · next habsent =>
      have hnone : r.magasin.lire id = none := by simpa using habsent
      have hsame : Function.update r.magasin.lire id none = r.magasin.lire := by
        rw [← hnone, Function.update_eq_self]
      rw [hsame]
      exact hlu

theorem suite_executer (h : r.Coherent) {o : Operation} (ho : o.Propre) :
    Suite r (r.executer o).2 (Carte.suivante r.magasin.lire o) o.cible := by
  cases o with
  | set id m =>
      cases ho
      exact suite_ecrire h m
  | persister m => exact suite_ecrire h m
  | get id defaut =>
      have hsnd : (r.get id defaut).2 = (r.getItem id).2 := by
        unfold Registre.get
        rcases r.getItem id with ⟨_ | _, _⟩ <;> rfl
      simp only [executer, hsnd]
      exact suite_getItem h id
  | contains id =>
      have hsnd : (r.contains id).2 = (r.getItem id).2 := by
        unfold contains getItem
        cases r.missions.get? id <;> rfl
      simp only [executer, hsnd]
      exact suite_getItem h id
  | delete id =>
      have hdel := suite_delItem h id
      refine ⟨hdel.coherent, hdel.carte, fun k m hk hm => ?_⟩
      have hread : Function.update r.magasin.lire id none k = some m := hm
      have hne : k ≠ id := by
        rintro rfl
        rw [Function.update_self] at hread
        cases hread
      exact hdel.garde k m (.inl (hk.resolve_right fun hid => hne (Option.some.inj hid).symm)) hm
  | pop id defaut => exact suite_pop h id defaut
  | values => exact suite_hydrater h
  | clear => exact suite_clear r

theorem repond_executer (h : r.Coherent) (o : Operation) :
    Carte.Repond r.magasin.lire o (r.executer o).1 := by
  cases o with
  | set id m => rfl
  | persister m => rfl
  | clear => rfl
  | get id defaut =>
      have hfst := getItem_fst h id
      simp only [executer, Carte.Repond, Registre.get]
      rcases hitem : r.getItem id with ⟨_ | _, _⟩
      all_goals
        rw [hitem] at hfst
        simp [← hfst]
  | contains id =>
      have hfst := getItem_fst h id
      simp only [executer, Carte.Repond, contains, ← hfst, getItem]
      cases r.missions.get? id <;> rfl
  | delete id => simp only [executer, Carte.Repond, delItem_fst h id]
  | pop id defaut => simp only [executer, Carte.Repond, pop_fst h id defaut]
  | values =>
      refine ⟨_, rfl, fun m hm => ?_⟩
      obtain ⟨⟨k, m'⟩, hmem, rfl⟩ := List.mem_map.mp hm
      have hsuite := suite_hydrater h
      have hread := hsuite.coherent.lu k m' (Dict.get?_of_mem hsuite.coherent.cles hmem)
      rw [hsuite.carte] at hread
      rw [Table.cle_of_lire hread]
      exact hread

theorem apres_carte (h : r.Coherent) {operations : List Operation}
    (hpropres : ∀ o ∈ operations, o.Propre) :
    (r.apres operations).Coherent ∧
      (r.apres operations).magasin.lire = Carte.apres r.magasin.lire operations := by
  induction operations generalizing r with
  | nil => exact ⟨h, rfl⟩
  | cons o operations ih =>
      have hsuite := suite_executer h (hpropres o List.mem_cons_self)
      have hrest := ih hsuite.coherent fun o' ho' => hpropres o' (List.mem_cons_of_mem _ ho')
      rw [hsuite.carte] at hrest
      exact hrest

end Registre

/-- After every history of operations that set missions under their own identifiers, and for
every bound, the registry answers like the map of what was written and not deleted since; and a
mission of the map that is not terminal is in the cache after an operation when it was there
before or when the operation names it. -/
theorem comme_une_carte (maximum : Int) (magasin : Magasin) (operations : List Operation)
    (o : Operation) (h : ∀ o' ∈ operations ++ [o], o'.Propre) :
    let r := (Registre.ouvrir maximum magasin).apres operations
    let c := Carte.apres magasin.lire operations
    Carte.Repond c o (r.executer o).1 ∧
      ∀ id m, (r.missions.get? id).isSome ∨ o.cible = some id →
        Carte.suivante c o id = some m → terminale m = false →
          (r.executer o).2.missions.get? id = some m := by
  intro r c
  have hbefore : ∀ o' ∈ operations, o'.Propre := fun o' ho' => h o' (List.mem_append_left _ ho')
  have ho : o.Propre := h o (by simp)
  obtain ⟨hcoherent, hcarte⟩ :=
    Registre.apres_carte (Registre.coherent_ouvrir maximum magasin) hbefore
  have hc : r.magasin.lire = c := hcarte
  rw [← hc]
  exact ⟨Registre.repond_executer hcoherent o, (Registre.suite_executer hcoherent ho).garde⟩

/-- A mission that only tells its identifier and its status. -/
def esquisse (missionId : String) (status : MissionStatus) : Mission where
  missionId := missionId
  title := ""
  description := ""
  objective := ""
  type := .research
  priority := .normal
  status := status
  context :=
    { projectId := "", userId := "", repository := "", branch := "", localPath := "",
      tags := [], metadata := ⟨[], itemsVides⟩ }
  nodes := []
  edges := []
  metadata := ⟨[], itemsVides⟩
  maxDurationSeconds := .entier 0
  createdAt := ⟨⟨2026, 1, 1, 0, 0, 0, 0, some 0⟩, nouvelAn⟩
  updatedAt := none
  startedAt := none
  completedAt := none

/-- A terminal mission that leaves the cache as soon as it enters is still answered. -/
theorem comme_une_carte_borne_nulle :
    let r := (Registre.ouvrir 0 Table.vide).apres [.set "a" (esquisse "a" .completed)]
    let c := Carte.apres (Table.vide : Magasin).lire [.set "a" (esquisse "a" .completed)]
    r.missions = [] ∧
      Carte.Repond c (.get "a" none) (r.executer (.get "a" none)).1 ∧
      ∀ id m, (r.missions.get? id).isSome ∨ (Operation.get "a" none).cible = some id →
        Carte.suivante c (.get "a" none) id = some m → terminale m = false →
          (r.executer (.get "a" none)).2.missions.get? id = some m := by
  refine ⟨rfl, comme_une_carte 0 Table.vide _ (.get "a" none) fun o ho => ?_⟩
  fin_cases ho
  · rfl
  · trivial

/-- The cache is keyed by the identifier it is given, the store by the one the mission carries:
under another identifier than its own, a mission answers for one nobody wrote. -/
theorem reponse_sous_son_propre_identifiant :
    ¬ ∀ (maximum : Int) (operations : List Operation) (o : Operation),
      Carte.Repond (Carte.apres (fun _ => none) operations) o
        (((Registre.ouvrir maximum Table.vide).apres operations).executer o).1 := by
  intro h
  have hget := h 200 [.set "a" (esquisse "b" .running)] (.get "b" none)
  have hrendu : Reponse.rendu (some (esquisse "b" .running)) = .rendu none := hget
  cases hrendu

end Hermes.Persistance.RegistreMissions
