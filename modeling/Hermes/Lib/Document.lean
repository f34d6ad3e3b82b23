import Hermes.Lib.JsonTexte
import Hermes.Lib.Lecture

/-! # Records read back from a JSON object

The readers of the fields of a record: `d[key]`, `d.get(key, default)`, `d.get(key) or default`,
and the keyword arguments of a constructor.
-/

namespace Hermes.Lib.Document

abbrev Items := List (String × Json)

inductive Refus
  | typeError (argument : String)
  | keyError (cle : String)
  | valueError (enumeration : String)
  | horsType
  deriving DecidableEq

def texte : Json → Except Refus String
  | .texte s => .ok s
  | _ => .error .horsType

def objet : Json → Except Refus Items
  | .objet items => .ok items
  | _ => .error .horsType

def liste {α : Type} (lire : Json → Except Refus α) : Json → Except Refus (List α)
  | .tableau valeurs => valeurs.mapM lire
  | _ => .error .horsType

/-- The same, where the reader of a value knows its rank. -/
def listeRangee {α : Type} (lire : Nat → Json → Except Refus α) : Json → Except Refus (List α)
  | .tableau valeurs => valeurs.zipIdx.mapM fun (v, rang) => lire rang v
  | _ => .error .horsType

def textes (ss : List String) : Json := .tableau (ss.map .texte)

def estNul (t : String) : Bool :=
  (t.toList.takeWhile fun c => c ≠ 'e' && c ≠ 'E').all fun c => c = '0' || c = '.' || c = '-'

/-- `bool(v)`. -/
def vrai : Json → Bool
  | .null => false
  | .bool b => b
  | .entier n => n ≠ 0
  | .flottant t => !estNul t
  | .texte s => s ≠ ""
  | .tableau valeurs => !valeurs.isEmpty
  | .objet items => !items.isEmpty

section Champs

variable {α : Type} (items : Items) (cle : String)

/-- `d[key]`. -/
def lireCle (lire : Json → Except Refus α) : Except Refus α :=
  match Dict.get? items cle with
  | some v => lire v
  | none => .error (.keyError cle)

/-- `d.get(key, default)`. -/
def lireOu (defaut : α) (lire : Json → Except Refus α) : Except Refus α :=
  match Dict.get? items cle with
  | some v => lire v
  | none => .ok defaut

/-- `d.get(key) or default`. -/
def lireVraiOu (defaut : α) (lire : Json → Except Refus α) : Except Refus α :=
  match Dict.get? items cle with
  | some v => if vrai v then lire v else .ok defaut
  | none => .ok defaut

/-- A constructor called with `**d` takes its own fields only, and those without a default. -/
def arguments (champs requis : List String) : Except Refus Unit :=
  match items.find? fun item => item.1 ∉ champs with
  | some item => .error (.typeError item.1)
  | none =>
      match requis.find? fun champ => champ ∉ items.map Prod.fst with
      | some champ => .error (.typeError champ)
      | none => .ok ()

end Champs

/-- `Enumeration(value)`. -/
def membre {α : Type} (enumeration : String) (membres : List (String × α)) :
    Json → Except Refus α
  | .texte s =>
      match Dict.get? membres s with
      | some a => .ok a
      | none => .error (.valueError enumeration)
  | _ => .error (.valueError enumeration)

section Ecrits

variable {α : Type}

@[simp] theorem texte_texte (s : String) : texte (.texte s) = .ok s := rfl

@[simp] theorem objet_objet (items : Items) : objet (.objet items) = .ok items := rfl

theorem mapM_map {β : Type} {lire : β → Except Refus α} {ecrire : α → β} {l : List α}
    (h : ∀ a ∈ l, lire (ecrire a) = .ok a) : (l.map ecrire).mapM lire = .ok l := by
  induction l with
  | nil => rfl
  | cons a l ih =>
      rw [List.map_cons, List.mapM_cons, h a List.mem_cons_self,
        ih fun b hb => h b (List.mem_cons_of_mem a hb)]
      rfl

theorem liste_tableau {lire : Json → Except Refus α} {ecrire : α → Json} {l : List α}
    (h : ∀ a ∈ l, lire (ecrire a) = .ok a) : liste lire (.tableau (l.map ecrire)) = .ok l :=
  mapM_map h

theorem listeRangee_tableau {lire : Nat → Json → Except Refus α} {ecrire : α → Json} {l : List α}
    (h : ∀ rang, ∀ a ∈ l, lire rang (ecrire a) = .ok a) :
    listeRangee lire (.tableau (l.map ecrire)) = .ok l := by
  have hrangs : ∀ rang, (((l.map ecrire).zipIdx rang).mapM fun (v, i) => lire i v) =
      (Except.ok l : Except Refus (List α)) := by
    induction l with
    | nil => exact fun _ => rfl
    | cons a l ih =>
        intro rang
        rw [List.map_cons, List.zipIdx_cons, List.mapM_cons]
        simp only [h rang a List.mem_cons_self,
          ih (fun i b hb => h i b (List.mem_cons_of_mem a hb)) (rang + 1)]
        rfl
  exact hrangs 0

@[simp] theorem liste_textes (l : List String) : liste texte (textes l) = .ok l :=
  liste_tableau fun s _ => texte_texte s

variable {items : Items} {cle : String} {v : Json} {defaut : α} {lire : Json → Except Refus α}

theorem lireCle_eq (h : Dict.get? items cle = some v) : lireCle items cle lire = lire v := by
  rw [lireCle, h]

theorem lireOu_eq (h : Dict.get? items cle = some v) :
    lireOu items cle defaut lire = lire v := by
  rw [lireOu, h]

theorem lireOu_texte {s t : String} (h : Dict.get? items cle = some (.texte s)) :
    lireOu items cle t texte = .ok s :=
  lireOu_eq h

theorem lireOu_textes {l m : List String} (h : Dict.get? items cle = some (textes l)) :
    lireOu items cle m (liste texte) = .ok l :=
  (lireOu_eq h).trans (liste_textes l)

theorem lireVraiOu_eq {a : α} (h : Dict.get? items cle = some v) (hvrai : vrai v → lire v = .ok a)
    (hfaux : vrai v = false → defaut = a) : lireVraiOu items cle defaut lire = .ok a := by
  rw [lireVraiOu, h]
  dsimp only
  split
  · next hv => exact hvrai hv
  · next hv => rw [hfaux (by simpa using hv)]

theorem lireVraiOu_liste {valeurs : List Json} {lire : Json → Except Refus (List α)} {l : List α}
    (h : Dict.get? items cle = some (.tableau valeurs)) (hlire : lire (.tableau valeurs) = .ok l)
    (hvide : valeurs = [] → l = []) : lireVraiOu items cle [] lire = .ok l := by
  refine lireVraiOu_eq h (fun _ => hlire) fun hfaux => ?_
  exact (hvide (by simpa [vrai] using hfaux)).symm

theorem lireVraiOu_textes {l : List String} (h : Dict.get? items cle = some (textes l)) :
    lireVraiOu items cle [] (liste texte) = .ok l :=
  lireVraiOu_liste h (liste_textes l) List.map_eq_nil_iff.mp

theorem arguments_ok {champs requis : List String} (hchamps : ∀ item ∈ items, item.1 ∈ champs)
    (hrequis : ∀ champ ∈ requis, champ ∈ items.map Prod.fst) :
    arguments items champs requis = .ok () := by
  have hconnus : (items.find? fun item => item.1 ∉ champs) = none :=
    List.find?_eq_none.mpr fun item hitem => by simpa using hchamps item hitem
  have hpresents : (requis.find? fun champ => champ ∉ items.map Prod.fst) = none :=
    List.find?_eq_none.mpr fun champ hchamp => by simpa using hrequis champ hchamp
  rw [arguments, hconnus]
  dsimp only
  rw [hpresents]

end Ecrits

@[simp] theorem valide_texte (s : String) : (Json.texte s).Valide := trivial

theorem valeursValides_map {α : Type} {ecrire : α → Json} {l : List α}
    (h : ∀ a ∈ l, (ecrire a).Valide) : (Json.tableau (l.map ecrire)).Valide := by
  rw [Json.Valide]
  induction l with
  | nil => trivial
  | cons a l ih =>
      rw [List.map_cons, Json.ValeursValides]
      exact ⟨h a List.mem_cons_self, ih fun b hb => h b (List.mem_cons_of_mem a hb)⟩

@[simp] theorem valide_textes (l : List String) : (textes l).Valide :=
  valeursValides_map fun s _ => valide_texte s

theorem itemsValides_of {items : Items} (h : ∀ item ∈ items, item.2.Valide) :
    Json.ItemsValides items := by
  induction items with
  | nil => trivial
  | cons item items ih =>
      rw [Json.ItemsValides]
      exact ⟨h item List.mem_cons_self, ih fun i hi => h i (List.mem_cons_of_mem item hi)⟩

theorem valide_objet {items : Items} (hnodup : (items.map Prod.fst).Nodup)
    (h : ∀ item ∈ items, item.2.Valide) : (Json.objet items).Valide := by
  rw [Json.Valide]
  exact ⟨hnodup, itemsValides_of h⟩

end Hermes.Lib.Document
