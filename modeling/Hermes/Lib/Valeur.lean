import Hermes.Lib.Dict

/-! # Values of the interpreter and their passage through JSON

What `json.loads(json.dumps(value))` answers: a tuple comes back as a list, a key of a dictionary
as a string, and an object that JSON does not know is refused.
-/

namespace Hermes.Lib

inductive Cle where
  | rien
  | booleen (b : Bool)
  | entier (n : Int)
  | flottant (chiffres : String)
  | texte (s : String)
  | autre (repr : String)
  deriving DecidableEq

inductive Valeur where
  | rien
  | booleen (b : Bool)
  | entier (n : Int)
  | flottant (chiffres : String)
  | texte (s : String)
  | liste (valeurs : List Valeur)
  | uplet (valeurs : List Valeur)
  | dict (items : List (Cle × Valeur))
  | objet (repr : String)

def Cle.dumps : Cle → Option String
  | rien => some "null"
  | booleen b => some (if b then "true" else "false")
  | entier n => some (toString n)
  | flottant chiffres => some chiffres
  | texte s => some s
  | autre _ => none

namespace Valeur

mutual

/-- `json.loads(json.dumps(value))`: nothing stands for `TypeError`. -/
def relu : Valeur → Option Valeur
  | rien => some rien
  | booleen b => some (booleen b)
  | entier n => some (entier n)
  | flottant chiffres => some (flottant chiffres)
  | texte s => some (texte s)
  | liste valeurs => (relus valeurs).map liste
  | uplet valeurs => (relus valeurs).map liste
  | dict items => (relusItems items).map fun items => dict (Dict.update [] items)
  | objet _ => none

def relus : List Valeur → Option (List Valeur)
  | [] => some []
  | v :: valeurs => (relu v).bind fun v => (relus valeurs).map (v :: ·)

def relusItems : List (Cle × Valeur) → Option (List (Cle × Valeur))
  | [] => some []
  | (cle, v) :: items =>
      cle.dumps.bind fun k =>
        (relu v).bind fun v => (relusItems items).map ((Cle.texte k, v) :: ·)

end

/-- `value[key]`, for a dictionary that has the key. -/
def champ : Valeur → String → Option Valeur
  | dict items, k => Dict.get? items (.texte k)
  | _, _ => none

/-- A string key with a value that comes back as itself. -/
def ItemStable (item : Cle × Valeur) : Prop :=
  (∃ k, item.1 = .texte k) ∧ relu item.2 = some item.2

theorem relus_stables {valeurs : List Valeur} (h : ∀ v ∈ valeurs, relu v = some v) :
    relus valeurs = some valeurs := by
  induction valeurs with
  | nil => rfl
  | cons v valeurs ih =>
      rw [relus, h v List.mem_cons_self, ih fun w hw => h w (List.mem_cons_of_mem _ hw)]
      rfl

theorem relusItems_stables {items : List (Cle × Valeur)} (h : ∀ item ∈ items, ItemStable item) :
    relusItems items = some items := by
  induction items with
  | nil => rfl
  | cons item items ih =>
      obtain ⟨cle, v⟩ := item
      obtain ⟨⟨k, hk⟩, hv⟩ := h _ List.mem_cons_self
      have hk' : cle = .texte k := hk
      subst hk'
      rw [relusItems, ih fun i hi => h i (List.mem_cons_of_mem _ hi), hv]
      rfl

theorem relu_dict_stable {items : List (Cle × Valeur)} (h : ∀ item ∈ items, ItemStable item) :
    relu (dict (Dict.update [] items)) = some (dict (Dict.update [] items)) := by
  have hall : ∀ item ∈ Dict.update [] items, ItemStable item := fun item hitem =>
    h item ((Dict.mem_of_mem_update hitem).resolve_left (by simp))
  have hnodup : (Dict.update [] items).keys.Nodup :=
    Dict.nodup_keys_update (d := []) List.nodup_nil items
  rw [relu, relusItems_stables hall, Option.map_some,
    Dict.update_append [] (Dict.update [] items) hnodup]
  rfl

mutual

theorem relu_relu : (v : Valeur) → ∀ w, relu v = some w → relu w = some w
  | rien, _, h | booleen _, _, h | entier _, _, h | flottant _, _, h | texte _, _, h => by
      cases h
      rfl
  | liste valeurs, _, h | uplet valeurs, _, h => by
      rw [relu] at h
      obtain ⟨ws, hws, rfl⟩ := Option.map_eq_some_iff.mp h
      rw [relu, relus_stables (relus_relus valeurs ws hws)]
      rfl
  | dict items, _, h => by
      rw [relu] at h
      obtain ⟨ws, hws, rfl⟩ := Option.map_eq_some_iff.mp h
      exact relu_dict_stable (relusItems_relusItems items ws hws)
  | objet _, _, h => nomatch h

theorem relus_relus : (vs : List Valeur) → ∀ ws, relus vs = some ws → ∀ w ∈ ws, relu w = some w
  | [], _, h => by
      cases h
      simp
  | v :: vs, _, h => by
      rw [relus] at h
      obtain ⟨w, hw, h⟩ := Option.bind_eq_some_iff.mp h
      obtain ⟨ws, hws, rfl⟩ := Option.map_eq_some_iff.mp h
      intro x hx
      rcases List.mem_cons.mp hx with rfl | hx
      · exact relu_relu v x hw
      · exact relus_relus vs ws hws x hx

theorem relusItems_relusItems : (items : List (Cle × Valeur)) → ∀ ws,
    relusItems items = some ws → ∀ w ∈ ws, ItemStable w
  | [], _, h => by
      cases h
      simp
  | (cle, v) :: items, _, h => by
      rw [relusItems] at h
      obtain ⟨k, _, h⟩ := Option.bind_eq_some_iff.mp h
      obtain ⟨w, hw, h⟩ := Option.bind_eq_some_iff.mp h
      obtain ⟨ws, hws, rfl⟩ := Option.map_eq_some_iff.mp h
      intro x hx
      rcases List.mem_cons.mp hx with rfl | hx
      · exact ⟨⟨k, rfl⟩, relu_relu v w hw⟩
      · exact relusItems_relusItems items ws hws x hx

end

theorem isSome_of_relusItems {items : List (Cle × Valeur)} (h : (relusItems items).isSome)
    {item : Cle × Valeur} (hitem : item ∈ items) : (relu item.2).isSome := by
  induction items with
  | nil => cases hitem
  | cons first items ih =>
      obtain ⟨ws, hws⟩ := Option.isSome_iff_exists.mp h
      rw [relusItems] at hws
      obtain ⟨k, _, hws⟩ := Option.bind_eq_some_iff.mp hws
      obtain ⟨w, hw, hws⟩ := Option.bind_eq_some_iff.mp hws
      obtain ⟨ws', hws', _⟩ := Option.map_eq_some_iff.mp hws
      rcases List.mem_cons.mp hitem with rfl | hitem
      · rw [hw]
        rfl
      · exact ih (by rw [hws']; rfl) hitem

theorem isSome_relu_champ {v x : Valeur} {k : String} (h : (relu v).isSome)
    (hx : champ v k = some x) : (relu x).isSome := by
  cases v with
  | dict items =>
      rw [relu, Option.isSome_map] at h
      exact isSome_of_relusItems h (Dict.mem_of_get? hx)
  | _ => cases hx

end Valeur

end Hermes.Lib
