import Hermes.Lib.Document
import Hermes.Lib.JsonIndente
import Hermes.Memory.DeuxBackends

/-! # Export, import and pages of the unified memory

`export` writes the entries of a scope as a JSON array, and `import_json` stores what it reads
there, one entry after the other.
-/

namespace Hermes.Memory

open Lib Lib.Page Lib.Document

structure Passage (μ : Type) where
  ecrire : μ → Items
  lire : Items → Option μ
  relire : ∀ x, lire (ecrire x) = some x
  valide : ∀ x, (Json.objet (ecrire x)).Valide

/-- Floats as numbers of JSON: the text that prints one, and what a number is read as. -/
structure Flottants (τ : Type) where
  repr : τ → String
  float : String → Option τ
  deEntier : Int → τ
  relire : ∀ x, float (repr x) = some x
  valide : ∀ x, Json.FlottantValide (repr x)

/-- What the facade works with: the interpreter, the engine, and what a missing field is given. -/
structure Milieu (τ μ ν : Type) [LinearOrder τ] where
  hote : Hote μ ν
  ordre : OrderBy τ
  passage : Passage μ
  flottants : Flottants τ
  uuid4 : Nat → String
  time : Nat → τ

inductive Genre where
  | memoire
  | base
  deriving DecidableEq

/-- A dictionary of entries, each under its identifier. -/
structure Tenue {τ μ : Type} (d : Entries τ μ) : Prop where
  nodup : d.keys.Nodup
  ids : ∀ item ∈ d, item.1 = item.2.id

inductive Etat (τ μ : Type) where
  | memoire (d : Entries τ μ) (tenue : Tenue d)
  | base (t : Rows τ)

def entier64 (n : Int) : Bool := -2 ^ 63 ≤ n && n < 2 ^ 63

def MemoryScope.toutes : List MemoryScope :=
  [.session, .mission, .agent, .project, .user, .global, .experience]

/-- `MemoryScope(scope_raw)`, or the text itself. -/
def lireScope (scopeRaw : String) : Scope :=
  match MemoryScope.toutes.find? fun scope => scope.value = scopeRaw with
  | some scope => .membre scope
  | none => .texte scopeRaw

variable {τ μ ν : Type}

theorem Tenue.store {d : Entries τ μ} (h : Tenue d) (e : MemoryEntry τ μ) :
    Tenue (InMemoryBackend.store d e) where
  nodup := Dict.nodup_keys_set h.nodup e.id e
  ids := by
    intro item hitem
    rcases Dict.mem_of_mem_set hitem with heq | hitem
    · rw [heq]
    · exact h.ids item hitem

namespace UnifiedMemory

def vide : Genre → Etat τ μ
  | .memoire => .memoire [] ⟨List.nodup_nil, nofun⟩
  | .base => .base Table.vide

section Lire

variable (f : Flottants τ) (p : Passage μ)

def entier : Json → Except Refus Int
  | .entier n => .ok n
  | _ => .error .horsType

def nombre : Json → Except Refus τ
  | .flottant t =>
      match f.float t with
      | some x => .ok x
      | none => .error .horsType
  | .entier n => .ok (f.deEntier n)
  | _ => .error .horsType

def metadonnees : Json → Except Refus μ
  | .objet items =>
      match p.lire items with
      | some x => .ok x
      | none => .error .horsType
  | _ => .error .horsType

end Lire

variable [LinearOrder τ] (m : Milieu τ μ ν)

def store (s : Etat τ μ) (e : MemoryEntry τ μ) : Option (Etat τ μ) :=
  match s with
  | .memoire d tenue => some (.memoire (InMemoryBackend.store d e) (tenue.store e))
  | .base t =>
      if entier64 e.importance then some (.base (SqliteMemoryBackend.store m.hote t e)) else none

def allEntries : Etat τ μ → List (MemoryEntry τ μ)
  | .memoire d _ => InMemoryBackend.allEntries d
  | .base t => (m.ordre.ordre t.lignes).map (toEntry m.hote)

local instance transTags : IsTrans String (· ≤ ·) := inferInstance

local instance antisymmTags : Std.Antisymm fun s t : String => s ≤ t := inferInstance

def donnees (e : MemoryEntry τ μ) : Items :=
  [("id", .texte e.id), ("scope", .texte e.scope.value), ("title", .texte e.title),
    ("content", .texte e.content), ("tags", Document.textes (e.tags.sort (· ≤ ·))),
    ("importance", .entier e.importance), ("created_at", .flottant (m.flottants.repr e.createdAt)),
    ("updated_at", .flottant (m.flottants.repr e.updatedAt)),
    ("metadata", .objet (m.passage.ecrire e.metadata))]

def exportees (s : Etat τ μ) (scope : Option Scope) : List (MemoryEntry τ μ) :=
  filtrer scope (fun scope e => e.scope.value = scope.value) (allEntries m s)

/-- `json.dumps(data, indent=indent, ensure_ascii=False)`. -/
def dumps (indent : Option Int) (v : Json) : String :=
  match indent with
  | none => String.ofList (Json.ecrire v)
  | some n => Json.dumpsIndenteBrut n.toNat v

def exporter (s : Etat τ μ) (scope : Option Scope) (indent : Option Int) : String :=
  dumps indent (.tableau ((exportees m s scope).map fun e => .objet (donnees m e)))

def lireEntree (rang : Nat) (item : Json) : Except Refus (MemoryEntry τ μ) := do
  let items ← objet item
  let scopeRaw ← lireOu items "scope" "session" texte
  let id ← lireOu items "id" (m.uuid4 rang) texte
  let title ← lireOu items "title" "" texte
  let content ← lireOu items "content" "" texte
  let tags ← lireOu items "tags" [] (liste texte)
  let importance ← lireOu items "importance" 1 entier
  let createdAt ← lireOu items "created_at" (m.time rang) (nombre m.flottants)
  let updatedAt ← lireOu items "updated_at" (m.time rang) (nombre m.flottants)
  let metadata ←
    match Dict.get? items "metadata" with
    | some v => metadonnees m.passage v
    | none => metadonnees m.passage (.objet [])
  return {
    id := id
    scope := lireScope scopeRaw
    title := title
    content := content
    tags := tags.toFinset
    importance := importance
    createdAt := createdAt
    updatedAt := updatedAt
    metadata := metadata }

def importer (s : Etat τ μ) (count : Nat) : List Json → Etat τ μ × Option Nat
  | [] => (s, some count)
  | item :: items =>
      match lireEntree m count item with
      | .error _ => (s, none)
      | .ok e =>
          match store m s e with
          | none => (s, none)
          | some s => importer s (count + 1) items

def importJson (s : Etat τ μ) (jsonStr : String) : Etat τ μ × Option Nat :=
  match Json.lire jsonStr.toList with
  | some (.tableau items) => importer m s 0 items
  | some (.objet []) => (s, some 0)
  | some (.texte "") => (s, some 0)
  | _ => (s, none)

/-- The entry as an import reads it: the text of its scope is looked for in the enumeration. -/
def relue (e : MemoryEntry τ μ) : MemoryEntry τ μ := { e with scope := lireScope e.scope.value }

omit [LinearOrder τ] in
theorem lireScope_value (s : String) : (lireScope s).value = s := by
  unfold lireScope
  split
  · next scope hscope =>
      have hvalue := List.find?_some hscope
      exact of_decide_eq_true hvalue
  · rfl

omit [LinearOrder τ] in
@[simp] theorem relue_id (e : MemoryEntry τ μ) : (relue e).id = e.id := rfl

omit [LinearOrder τ] in
@[simp] theorem relue_vue (e : MemoryEntry τ μ) : (relue e).vue = e.vue := by
  unfold relue MemoryEntry.vue
  rw [lireScope_value]

theorem lireEntree_donnees (rang : Nat) (e : MemoryEntry τ μ) :
    lireEntree m rang (.objet (donnees m e)) = .ok (relue e) := by
  have hscope : lireOu (donnees m e) "scope" "session" texte = .ok e.scope.value :=
    lireOu_texte rfl
  have hid : lireOu (donnees m e) "id" (m.uuid4 rang) texte = .ok e.id := lireOu_texte rfl
  have htitle : lireOu (donnees m e) "title" "" texte = .ok e.title := lireOu_texte rfl
  have hcontent : lireOu (donnees m e) "content" "" texte = .ok e.content := lireOu_texte rfl
  have htags : lireOu (donnees m e) "tags" [] (liste texte) = .ok (e.tags.sort (· ≤ ·)) :=
    lireOu_textes rfl
  have himportance : lireOu (donnees m e) "importance" 1 entier = .ok e.importance := rfl
  have hdate (x : τ) : nombre m.flottants (.flottant (m.flottants.repr x)) = .ok x := by
    simp only [nombre, m.flottants.relire]
  have hcreatedAt : lireOu (donnees m e) "created_at" (m.time rang) (nombre m.flottants) =
      .ok e.createdAt := (lireOu_eq rfl).trans (hdate e.createdAt)
  have hupdatedAt : lireOu (donnees m e) "updated_at" (m.time rang) (nombre m.flottants) =
      .ok e.updatedAt := (lireOu_eq rfl).trans (hdate e.updatedAt)
  have hmetadata : Dict.get? (donnees m e) "metadata" =
      some (.objet (m.passage.ecrire e.metadata)) := rfl
  have hrelues : metadonnees m.passage (.objet (m.passage.ecrire e.metadata)) = .ok e.metadata := by
    simp only [metadonnees, m.passage.relire]
  simp only [lireEntree, objet_objet, ok_bind, hscope, hid, htitle, hcontent, htags, himportance,
    hcreatedAt, hupdatedAt, hmetadata, hrelues, Finset.sort_toFinset]
  rfl

theorem valide_donnees (e : MemoryEntry τ μ) : (Json.objet (donnees m e)).Valide := by
  have hcles : (donnees m e).map Prod.fst = ["id", "scope", "title", "content", "tags",
      "importance", "created_at", "updated_at", "metadata"] := rfl
  refine valide_objet (by rw [hcles]; decide) fun item hitem => ?_
  simp only [donnees, List.mem_cons, List.not_mem_nil, or_false] at hitem
  rcases hitem with rfl | rfl | rfl | rfl | rfl | rfl | rfl | rfl | rfl
  · trivial
  · trivial
  · trivial
  · trivial
  · exact valide_textes _
  · trivial
  · exact m.flottants.valide e.createdAt
  · exact m.flottants.valide e.updatedAt
  · exact m.passage.valide e.metadata

omit [LinearOrder τ] in
theorem lire_dumps (indent : Option Int) {v : Json} (hv : v.Valide) :
    Json.lire (dumps indent v).toList = some v := by
  cases indent with
  | none =>
      rw [dumps, String.toList_ofList]
      exact Json.lire_ecrire hv
  | some n => exact Json.lire_dumpsIndenteBrut n.toNat hv

theorem importJson_exporter (cible s : Etat τ μ) (scope : Option Scope) (indent : Option Int) :
    importJson m cible (exporter m s scope indent) =
      importer m cible 0 ((exportees m s scope).map fun e => .objet (donnees m e)) := by
  rw [importJson, exporter, lire_dumps]
  exact valeursValides_map fun e _ => valide_donnees m e

def genre : Etat τ μ → Genre
  | .memoire _ _ => .memoire
  | .base _ => .base

/-- The engine takes the importance of the entry; the dictionary takes any. -/
def Accepte (g : Genre) (e : MemoryEntry τ μ) : Prop := g = .base → entier64 e.importance = true

def contenu (s : Etat τ μ) : List (MemoryEntry τ μ) :=
  match s with
  | .memoire d _ => (InMemoryBackend.allEntries d).map MemoryEntry.vue
  | .base t => t.lignes.map (toEntry m.hote)

def Contient (s : Etat τ μ) (e : MemoryEntry τ μ) : Prop :=
  match s with
  | .memoire d _ => d.get? e.id = some e
  | .base t => t.lire e.id = some (toRow m.hote e)

variable {m} {s s' : Etat τ μ} {e f : MemoryEntry τ μ} {es : List (MemoryEntry τ μ)}

theorem allEntries_perm (s : Etat τ μ) :
    ((allEntries m s).map MemoryEntry.vue).Perm (contenu m s) := by
  cases s with
  | memoire d tenue => exact List.Perm.refl _
  | base t =>
      have hvue : (allEntries m (.base t)).map MemoryEntry.vue =
          (m.ordre.ordre t.lignes).map (toEntry m.hote) := by
        rw [allEntries, List.map_map]
        rfl
      rw [hvue]
      exact (m.ordre.perm t.lignes).map _

theorem nodup_contenu (s : Etat τ μ) : ((contenu m s).map MemoryEntry.id).Nodup := by
  cases s with
  | memoire d tenue =>
      have hids : (contenu m (.memoire d tenue)).map MemoryEntry.id = d.keys := by
        simp only [contenu, InMemoryBackend.allEntries, List.map_map, Dict.keys]
        exact List.map_congr_left fun item hitem => (tenue.ids item hitem).symm
      rw [hids]
      exact tenue.nodup
  | base t =>
      rw [contenu, List.map_map]
      exact t.uniques

theorem isSome_store : (store m s e).isSome ↔ Accepte (genre s) e := by
  cases s with
  | memoire d tenue => simp [store, Accepte, genre]
  | base t => simp [store, Accepte, genre, Option.isSome_ite]

theorem genre_store (h : store m s e = some s') : genre s' = genre s := by
  cases s with
  | memoire d tenue =>
      cases h
      rfl
  | base t =>
      obtain ⟨-, hstore⟩ := Option.ite_none_right_eq_some.mp h
      cases hstore
      rfl

omit [LinearOrder τ] in
theorem store_eq_poser (h : Hote μ ν) (t : Rows τ) (e : MemoryEntry τ μ) :
    SqliteMemoryBackend.store h t e = t.poser (toRow h e) := by
  unfold SqliteMemoryBackend.store Table.poser
  cases hlire : t.lire e.id with
  | none =>
      cases hinserer : t.inserer (toRow h e) with
      | some t' => rfl
      | none =>
          have hsome := Table.inserer_eq_none hinserer
          rw [show t.lire (toRow h e).id = none from hlire] at hsome
          cases hsome
  | some row =>
      cases hinserer : t.inserer (toRow h e) with
      | some t' =>
          have hnone := (Table.inserer_eq_some hinserer).1
          rw [show t.lire (toRow h e).id = some row from hlire] at hnone
          cases hnone
      | none => rfl

theorem store_of_contient (h : Contient m s e) (haccepte : Accepte (genre s) e) :
    store m s e = some s := by
  cases s with
  | memoire d tenue =>
      have hset : InMemoryBackend.store d e = d := Dict.set_of_get? h
      simp only [store, hset]
  | base t =>
      have hposer : SqliteMemoryBackend.store m.hote t e = t := by
        rw [store_eq_poser]
        exact Table.poser_of_lire h
      rw [store, if_pos (haccepte rfl), hposer]

theorem contient_store (h : store m s e = some s') : Contient m s' e := by
  cases s with
  | memoire d tenue =>
      cases h
      exact Dict.get?_set_self d e.id e
  | base t =>
      obtain ⟨-, hstore⟩ := Option.ite_none_right_eq_some.mp h
      cases hstore
      rw [Contient, store_eq_poser, Table.lire_poser]
      exact if_pos rfl

theorem Contient.store (hf : Contient m s f) (hne : f.id ≠ e.id) (h : store m s e = some s') :
    Contient m s' f := by
  cases s with
  | memoire d tenue =>
      cases h
      change Dict.get? (Dict.set d e.id e) f.id = some f
      rw [Dict.get?_set, if_neg hne]
      exact hf
  | base t =>
      obtain ⟨-, hstore⟩ := Option.ite_none_right_eq_some.mp h
      cases hstore
      rw [Contient, store_eq_poser, Table.lire_poser]
      exact (if_neg hne).trans hf

theorem contenu_store (h : store m s e = some s') (hnew : e.id ∉ (contenu m s).map MemoryEntry.id) :
    contenu m s' = contenu m s ++ [e.vue] := by
  cases s with
  | memoire d tenue =>
      cases h
      have hids : e.id ∉ d.keys := by
        intro hmem
        obtain ⟨item, hitem, hid⟩ := List.mem_map.mp hmem
        refine hnew (List.mem_map.mpr ⟨item.2.vue, ?_, ?_⟩)
        · exact List.mem_map_of_mem (List.mem_map_of_mem hitem)
        · rw [vue_id, ← tenue.ids item hitem, hid]
      simp only [contenu, InMemoryBackend.allEntries, InMemoryBackend.store,
        Dict.set_of_notMem hids, List.map_append, List.map_cons, List.map_nil]
  | base t =>
      obtain ⟨-, hstore⟩ := Option.ite_none_right_eq_some.mp h
      cases hstore
      have hlire : t.lire (toRow m.hote e).id = none := by
        rw [Table.lire_eq_none]
        rw [contenu, List.map_map] at hnew
        exact hnew
      rw [contenu, store_eq_poser, Table.lignes_poser hlire, List.map_append, List.map_singleton,
        toEntry_toRow]
      rfl

/-- The entries one after the other: nothing when one of them is refused. -/
def deposer (m : Milieu τ μ ν) (s : Etat τ μ) (es : List (MemoryEntry τ μ)) : Option (Etat τ μ) :=
  es.foldlM (store m) s

theorem deposer_cons : deposer m s (e :: es) = (store m s e).bind fun s => deposer m s es := rfl

theorem isSome_deposer : (deposer m s es).isSome ↔ ∀ e ∈ es, Accepte (genre s) e := by
  induction es generalizing s with
  | nil => simp [deposer]
  | cons e es ih =>
      rw [deposer_cons, List.forall_mem_cons, ← isSome_store (m := m)]
      cases hstore : store m s e with
      | none => simp
      | some s' => simp [ih, genre_store hstore]

theorem deposer_spec (h : deposer m s es = some s')
    (hnew : ((contenu m s).map MemoryEntry.id ++ es.map MemoryEntry.id).Nodup) :
    contenu m s' = contenu m s ++ es.map MemoryEntry.vue ∧
      (∀ f, Contient m s f → f.id ∉ es.map MemoryEntry.id → Contient m s' f) ∧
      ∀ e ∈ es, Contient m s' e := by
  induction es generalizing s with
  | nil =>
      cases h
      exact ⟨by simp, fun f hf _ => hf, fun e he => absurd he List.not_mem_nil⟩
  | cons e es ih =>
      rw [deposer_cons] at h
      obtain ⟨milieu, hstore, h⟩ := Option.bind_eq_some_iff.mp h
      have hfrais : e.id ∉ (contenu m s).map MemoryEntry.id := fun hmem =>
        List.disjoint_of_nodup_append hnew hmem (by simp)
      have hcontenu := contenu_store hstore hfrais
      obtain ⟨hfin, hgardes, hposes⟩ := ih h (by
        rw [hcontenu]
        simpa using hnew)
      have hdistinct : e.id ∉ es.map MemoryEntry.id := by
        have hsuite := (List.nodup_append.mp hnew).2.1
        rw [List.map_cons] at hsuite
        exact (List.nodup_cons.mp hsuite).1
      refine ⟨?_, fun f hf hid => ?_, List.forall_mem_cons.mpr ⟨?_, hposes⟩⟩
      · rw [hfin, hcontenu, List.append_assoc]
        rfl
      · rw [List.map_cons, List.mem_cons, not_or] at hid
        exact hgardes f (hf.store hid.1 hstore) hid.2
      · exact hgardes e (contient_store hstore) hdistinct

theorem deposer_of_contient (h : ∀ e ∈ es, Contient m s e) (haccepte : ∀ e ∈ es, Accepte (genre s) e) :
    deposer m s es = some s := by
  induction es with
  | nil => rfl
  | cons e es ih =>
      rw [List.forall_mem_cons] at h haccepte
      rw [deposer_cons, store_of_contient h.1 haccepte.1]
      exact ih h.2 haccepte.2

theorem genre_deposer (h : deposer m s es = some s') : genre s' = genre s := by
  induction es generalizing s with
  | nil =>
      cases h
      rfl
  | cons e es ih =>
      rw [deposer_cons] at h
      obtain ⟨milieu, hstore, h⟩ := Option.bind_eq_some_iff.mp h
      exact (ih h).trans (genre_store hstore)

theorem importer_donnees (count : Nat) :
    (∀ s', deposer m s (es.map relue) = some s' →
        importer m s count (es.map fun e => .objet (donnees m e)) =
          (s', some (count + es.length))) ∧
      (deposer m s (es.map relue) = none →
        (importer m s count (es.map fun e => .objet (donnees m e))).2 = none) := by
  induction es generalizing s count with
  | nil =>
      refine ⟨fun s' h => ?_, fun h => ?_⟩
      · cases h
        rfl
      · cases h
  | cons e es ih =>
      simp only [List.map_cons, importer, lireEntree_donnees, deposer_cons]
      cases store m s (relue e) with
      | none =>
          refine ⟨fun s' h => ?_, fun _ => rfl⟩
          cases h
      | some milieu =>
          dsimp only [Option.bind_some]
          have hcount : count + (es.length + 1) = count + 1 + es.length := by omega
          rw [List.length_cons, hcount]
          exact ih (count + 1)

/-- What is imported into an empty memory of this backend is what was exported, every field of it,
and importing it again changes nothing. -/
def Restitue (m : Milieu τ μ ν) (g : Genre) (s : Etat τ μ) (scope : Option Scope)
    (indent : Option Int) : Prop :=
  let jsonStr := exporter m s scope indent
  let count := (exportees m s scope).length
  ∃ s', importJson m (vide g) jsonStr = (s', some count) ∧
    ((allEntries m s').map MemoryEntry.vue).Perm ((exportees m s scope).map MemoryEntry.vue) ∧
      importJson m s' jsonStr = (s', some count)

theorem nodup_exportees (s : Etat τ μ) (scope : Option Scope) :
    ((exportees m s scope).map MemoryEntry.id).Nodup := by
  have htoutes : ((allEntries m s).map MemoryEntry.id).Nodup := by
    have hvues := ((allEntries_perm (m := m) s).map MemoryEntry.id).nodup_iff.mpr (nodup_contenu s)
    rw [List.map_map] at hvues
    exact hvues
  refine htoutes.sublist (List.Sublist.map _ ?_)
  unfold exportees filtrer
  split
  · exact List.Sublist.refl _
  · exact List.filter_sublist

theorem restitue_iff (g : Genre) (s : Etat τ μ) (scope : Option Scope) (indent : Option Int) :
    Restitue m g s scope indent ↔ ∀ e ∈ exportees m s scope, Accepte g e := by
  have hgenre : genre (vide g : Etat τ μ) = g := by cases g <;> rfl
  have hvide : contenu m (vide g) = [] := by cases g <;> rfl
  have haccepte : (∀ e ∈ (exportees m s scope).map relue, Accepte g e) ↔
      ∀ e ∈ exportees m s scope, Accepte g e := List.forall_mem_map
  have himport (cible : Etat τ μ) :=
    @importer_donnees _ _ _ _ m cible (exportees m s scope) 0
  unfold Restitue
  dsimp only
  rw [← haccepte]
  constructor
  · rintro ⟨s', hpremier, -⟩
    rw [importJson_exporter] at hpremier
    rw [← hgenre, ← isSome_deposer (m := m)]
    cases hdeposer : deposer m (vide g) ((exportees m s scope).map relue) with
    | some fin => rfl
    | none =>
        have hrien := (himport (vide g)).2 hdeposer
        rw [hpremier] at hrien
        cases hrien
  · intro hbon
    have hsome := (isSome_deposer (m := m) (s := vide g)).mpr (by rwa [hgenre])
    obtain ⟨fin, hfin⟩ := Option.isSome_iff_exists.mp hsome
    have hids : ((exportees m s scope).map relue).map MemoryEntry.id =
        (exportees m s scope).map MemoryEntry.id := by
      rw [List.map_map]
      rfl
    obtain ⟨hcontenu, -, hposes⟩ := deposer_spec hfin (by
      rw [hvide, hids]
      exact nodup_exportees s scope)
    have hencore : deposer m fin ((exportees m s scope).map relue) = some fin := by
      refine deposer_of_contient hposes ?_
      rw [genre_deposer hfin, hgenre]
      exact hbon
    refine ⟨fin, ?_, ?_, ?_⟩
    · rw [importJson_exporter, (himport (vide g)).1 fin hfin, Nat.zero_add]
    · refine (allEntries_perm fin).trans (List.Perm.of_eq ?_)
      rw [hcontenu, hvide, List.nil_append, List.map_map]
      exact List.map_congr_left fun e _ => relue_vue e
    · rw [importJson_exporter, (himport fin).1 fin hencore, Nat.zero_add]

structure MemoryResult (τ μ : Type) where
  entries : List (MemoryEntry τ μ)
  total : Nat

/-- The search of the backend. The engine takes no bound that does not fit the column. -/
def trouver (m : Milieu τ μ ν) (s : Etat τ μ) (q : MemoryQuery τ ν) :
    Option (List (MemoryEntry τ μ)) :=
  match s with
  | .memoire d _ => some (InMemoryBackend.search m.hote.toInterprete d q)
  | .base t =>
      if q.minImportance.all entier64 then
        some (SqliteMemoryBackend.search m.hote m.ordre t q)
      else none

def fullQuery (q : MemoryQuery τ ν) : MemoryQuery τ ν := { q with limit := none, offset := 0 }

def search (m : Milieu τ μ ν) (s : Etat τ μ) (q : MemoryQuery τ ν) : Option (MemoryResult τ μ) :=
  match trouver m s q with
  | none => none
  | some entries =>
      match trouver m s (fullQuery q) with
      | none => none
      | some allMatching => some { entries := entries, total := allMatching.length }

/-- `l[offset:]`, and `limit` of its elements at most. -/
def EstPage {α : Type} (l : List α) (offset : Int) (limit : Option Int) (page : List α) : Prop :=
  match limit with
  | none => page = slice l offset none
  | some limit => page = (slice l offset none).take limit.toNat ∧ (page.length : Int) ≤ limit

/-- A search counts what it would return without a page, and returns a page of it. -/
def Pagine (m : Milieu τ μ ν) (s : Etat τ μ) (q : MemoryQuery τ ν) : Prop :=
  ∃ r toutes, search m s q = some r ∧ search m s (fullQuery q) = some toutes ∧
    r.total = toutes.entries.length ∧ EstPage toutes.entries q.offset q.limit r.entries

/-- How many entries of the dictionary the query matches. -/
def repondent (m : Milieu τ μ ν) (d : Entries τ μ) (q : MemoryQuery τ ν) : Nat :=
  (InMemoryBackend.allEntries d).countP fun e =>
    ailleurs m.hote.toInterprete q e && texteMemoire m.hote.toInterprete q e

/-- Over `n` entries a negative offset suits a limit when their sum is the end of the page: it is
counted from the end of the list as the offset is, or it is past the last entry. -/
def OffsetTenu (n : Nat) (offset limit : Int) : Prop :=
  0 ≤ offset ∨ limit = 0 ∨ n = 0 ∨ n ≤ offset + limit ∨ (offset + limit < 0 ∧ 0 ≤ n + offset)

def PageTenue (m : Milieu τ μ ν) (s : Etat τ μ) (q : MemoryQuery τ ν) : Prop :=
  (∀ limit, q.limit = some limit → 0 ≤ limit) ∧
    match s with
    | .memoire d _ => ∀ limit, q.limit = some limit → OffsetTenu (repondent m d q) q.offset limit
    | .base _ => q.minImportance.all entier64 = true

omit [LinearOrder τ] in
theorem slice_sans_fin {α : Type} (l : List α) (offset : Int) :
    slice l offset none = l.drop (borne l.length offset) := by
  rw [slice, tranche, Option.map_none, Option.getD_none, List.take_length]

omit [LinearOrder τ] in
theorem tranche_eq_iff {α : Type} (l : List α) {a b k : Nat} (hb : b ≤ l.length) :
    tranche l a b = (l.drop a).take k ↔ b - a = min k (l.length - a) := by
  rw [tranche, List.drop_take, List.take_eq_take_iff, List.length_drop]
  omega

omit [LinearOrder τ] in
theorem bornes_iff (n : Nat) (offset limit : Int) :
    (borne n (min offset n + limit) - borne n offset = min limit.toNat (n - borne n offset) ∧
        ((borne n (min offset n + limit) - borne n offset : Nat) : Int) ≤ limit) ↔
      0 ≤ limit ∧ OffsetTenu n offset limit := by
  unfold borne OffsetTenu
  by_cases hoffset : offset < 0
  · by_cases hfin : min offset n + limit < 0
    · simp only [hoffset, hfin, if_true]
      omega
    · simp only [hoffset, hfin, if_true, if_false]
      omega
  · by_cases hfin : min offset n + limit < 0
    · simp only [hoffset, hfin, if_true, if_false]
      omega
    · simp only [hoffset, hfin, if_false]
      omega

omit [LinearOrder τ] in
theorem estPage_memoire_iff {α : Type} (l : List α) (offset limit : Int) :
    EstPage l offset (some limit)
        (slice l (min offset l.length) (some (min offset l.length + limit))) ↔
      0 ≤ limit ∧ OffsetTenu l.length offset limit := by
  have hfin := borne_le l.length (min offset l.length + limit)
  have hdebut : borne l.length (min offset l.length) = borne l.length offset := by
    unfold borne
    split <;> split <;> omega
  have hslice : slice l (min offset l.length) (some (min offset l.length + limit)) =
      tranche l (borne l.length offset) (borne l.length (min offset l.length + limit)) := by
    rw [slice, hdebut]
    rfl
  rw [hslice, EstPage, slice_sans_fin, tranche_eq_iff l hfin, length_tranche l _ _ hfin]
  exact bornes_iff l.length offset limit

omit [LinearOrder τ] in
theorem estPage_base_iff {α : Type} (l : List α) (offset limit : Int) :
    EstPage l offset (some limit) (slice (slice l offset none) 0 (some limit)) ↔ 0 ≤ limit := by
  constructor
  · intro h
    have hlength := h.2
    omega
  · intro h
    refine ⟨slice_debut _ h, ?_⟩
    rw [slice_debut _ h, List.length_take]
    omega

theorem trouvees_fullQuery (i : Interprete μ ν) (d : Entries τ μ) (q : MemoryQuery τ ν) :
    InMemoryBackend.search i d (fullQuery q) = InMemoryBackend.trouvees i d q := by
  have hfull : InMemoryBackend.trouvees i d (fullQuery q) = InMemoryBackend.trouvees i d q := rfl
  have hdebut : borne (InMemoryBackend.trouvees i d q).length
      (min 0 ((InMemoryBackend.trouvees i d q).length : Int)) = 0 := by
    unfold borne
    split <;> omega
  rw [InMemoryBackend.search, hfull]
  exact (slice_sans_fin _ _).trans (by
    rw [show (InMemoryBackend.bornes (InMemoryBackend.trouvees i d q).length (fullQuery q)).1 =
      min 0 ((InMemoryBackend.trouvees i d q).length : Int) from rfl, hdebut, List.drop_zero])

theorem length_trouvees (d : Entries τ μ) (q : MemoryQuery τ ν) :
    (InMemoryBackend.trouvees m.hote.toInterprete d q).length = repondent m d q := by
  rw [trouvees_perm.length_eq, repondent, List.countP_eq_length_filter]

theorem search_base (h : Hote μ ν) (o : OrderBy τ) (t : Rows τ) (q : MemoryQuery τ ν) :
    SqliteMemoryBackend.search h o t (fullQuery q) = ordonnees h o t q ∧
      SqliteMemoryBackend.search h o t q =
        match q.limit with
        | none => slice (ordonnees h o t q) q.offset none
        | some limit => slice (slice (ordonnees h o t q) q.offset none) 0 (some limit) := by
  refine ⟨rfl, ?_⟩
  have hoffset : (if q.offset ≠ 0 then slice (ordonnees h o t q) q.offset none
      else ordonnees h o t q) = slice (ordonnees h o t q) q.offset none := by
    split
    · rfl
    · next hzero =>
        have hnul : q.offset = 0 := by omega
        rw [slice_sans_fin, hnul]
        simp [borne]
  rw [← hoffset]
  rfl

theorem pagine_of_trouver {q : MemoryQuery τ ν} {page toutes : List (MemoryEntry τ μ)}
    (hpage : trouver m s q = some page) (htoutes : trouver m s (fullQuery q) = some toutes) :
    Pagine m s q ↔ EstPage toutes q.offset q.limit page := by
  have hsearch : search m s q = some ⟨page, toutes.length⟩ := by
    simp only [search, hpage, htoutes]
  have hfull : search m s (fullQuery q) = some ⟨toutes, toutes.length⟩ := by
    have hdeux : trouver m s (fullQuery (fullQuery q)) = some toutes := htoutes
    simp only [search, htoutes, hdeux]
  constructor
  · intro ⟨r, full, hr, hfull', _, hest⟩
    cases hsearch.symm.trans hr
    cases hfull.symm.trans hfull'
    exact hest
  · intro hest
    exact ⟨_, _, hsearch, hfull, rfl, hest⟩

theorem pagine_memoire_iff (d : Entries τ μ) (tenue : Tenue d) (q : MemoryQuery τ ν) :
    Pagine m (.memoire d tenue) q ↔ PageTenue m (.memoire d tenue) q := by
  have hpagine : Pagine m (.memoire d tenue) q ↔
      EstPage (InMemoryBackend.trouvees m.hote.toInterprete d q) q.offset q.limit
        (InMemoryBackend.search m.hote.toInterprete d q) := by
    rw [← trouvees_fullQuery]
    exact pagine_of_trouver rfl rfl
  rw [hpagine, PageTenue, InMemoryBackend.search, ← length_trouvees, InMemoryBackend.bornes]
  cases hlimit : q.limit with
  | none =>
      simp only [EstPage, Option.map_none, reduceCtorEq, false_implies, implies_true, and_self,
        iff_true, slice_sans_fin]
      congr 1
      unfold borne
      split <;> split <;> omega
  | some limit =>
      simp only [Option.map_some, Option.some.injEq, forall_eq']
      exact estPage_memoire_iff _ q.offset limit

theorem pagine_base_iff (t : Rows τ) (q : MemoryQuery τ ν) :
    Pagine m (.base t) q ↔ PageTenue m (.base t) q := by
  unfold PageTenue
  dsimp only
  cases hborne : q.minImportance.all entier64 with
  | false =>
      have hrien : search m (.base t) q = none := by
        simp only [search, trouver, hborne, Bool.false_eq_true, if_false]
      simp only [Bool.false_eq_true, and_false, iff_false]
      intro ⟨r, _, hr, _⟩
      rw [hrien] at hr
      cases hr
  | true =>
      have hfull : (fullQuery q).minImportance.all entier64 = true := hborne
      have hpage := search_base m.hote m.ordre t q
      have hpagine : Pagine m (.base t) q ↔ EstPage (ordonnees m.hote m.ordre t q) q.offset q.limit
          (SqliteMemoryBackend.search m.hote m.ordre t q) := by
        rw [← hpage.1]
        exact pagine_of_trouver (if_pos hborne) (if_pos hfull)
      rw [hpagine, hpage.2, and_iff_left rfl]
      cases hlimit : q.limit with
      | none => simp only [EstPage, reduceCtorEq, false_implies, implies_true]
      | some limit =>
          simp only [Option.some.injEq, forall_eq']
          exact estPage_base_iff _ q.offset limit

theorem pagine_iff (s : Etat τ μ) (q : MemoryQuery τ ν) : Pagine m s q ↔ PageTenue m s q := by
  cases s with
  | memoire d tenue => exact pagine_memoire_iff d tenue q
  | base t => exact pagine_base_iff t q

/-- Over either backend an export is given back by an import into either one, exactly when the
backend takes the importance of every entry; and a search returns a page of what it counts exactly
when its limit is not negative, its offset suits it and its bound fits the column. -/
theorem facade_fidele_iff (m : Milieu τ μ ν) (s : Etat τ μ) (g : Genre) (scope : Option Scope)
    (indent : Option Int) (q : MemoryQuery τ ν) :
    (Restitue m g s scope indent ↔ ∀ e ∈ exportees m s scope, Accepte g e) ∧
      (Pagine m s q ↔ PageTenue m s q) :=
  ⟨restitue_iff g s scope indent, pagine_iff s q⟩

def secondes : Flottants Nat where
  repr n := String.ofList (Nat.toDigits 10 n ++ ['.', '0'])
  float t := some (Nat.ofDigitChars 10 (t.toList.takeWhile Char.isDigit) 0)
  deEntier n := n.toNat
  relire n := by
    have hchiffres : (Nat.toDigits 10 n ++ ['.', '0']).takeWhile Char.isDigit = Nat.toDigits 10 n := by
      rw [List.takeWhile_append_of_pos (Json.partieEntiere_toDigits n).chiffres]
      exact List.append_nil _
    rw [String.toList_ofList, hchiffres, Nat.ofDigitChars_toDigits (by decide) (by decide)]
  valide n := by
    refine .inr (.inr (.inr ⟨⟨false, Nat.toDigits 10 n, ['0'], [], []⟩, ?_, ?_⟩))
    · exact ⟨Json.partieEntiere_toDigits n, by simp, .inl rfl, by simp, .inl (by simp)⟩
    · simp [Json.Decimal.texte, Json.Decimal.texteFraction, Json.Decimal.texteExposant]

theorem relire_unit (u : Unit) : some () = some u := rfl

def milieu : Milieu Nat Unit Unit where
  hote := hote
  ordre :=
    { ordre := fun rows => rows.mergeSort fun a b => b.createdAt ≤ a.createdAt
      perm := fun rows => List.mergeSort_perm rows _
      decroissant := fun rows => decroissant_mergeSort UnifiedMemoryRow.createdAt rows }
  passage :=
    { ecrire := fun _ => []
      lire := fun _ => some ()
      relire := relire_unit
      valide := fun _ => valide_objet List.nodup_nil nofun }
  flottants := secondes
  uuid4 _ := ""
  time _ := 0

def deuxPrix : Entries Nat Unit :=
  memoire [.store centEuros, .store { centEuros with id := "remise", createdAt := 2 }]

theorem tenue_deuxPrix : Tenue deuxPrix := ⟨by decide, by decide⟩

/-- A limit of minus one returns all the entries but one. From two before the end, a limit of two
returns nothing: the end of the page is counted from the start. -/
theorem page_negative :
    ¬ Pagine milieu (.memoire deuxPrix tenue_deuxPrix) { limit := some (-1) } ∧
      ¬ Pagine milieu (.memoire deuxPrix tenue_deuxPrix) { offset := -2, limit := some 2 } := by
  rw [pagine_iff, pagine_iff]
  constructor
  · intro h
    have hlimit := h.1 (-1) rfl
    omega
  · intro h
    have hoffset := h.2 2 rfl
    have hdeux : repondent milieu deuxPrix { offset := -2, limit := some 2 } = 2 := by decide
    rw [hdeux] at hoffset
    revert hoffset
    unfold OffsetTenu
    decide

end UnifiedMemory

end Hermes.Memory
