import Hermes.Lib.Chemin
import Hermes.Checkpoints.RepliFichiers
import Hermes.Mission.Verification

/-! # The snapshots a mission is judged on

Every file under the root of a workspace is reduced to a fingerprint before the mission and after
it; what changed is the difference of the two.
-/

namespace Hermes.Snapshot

open Lib
open RepliFichiers (Octets ignore posix)

abbrev Parts := Fichiers.Parts

def HASH_LIMIT_BYTES : Nat := 8 * 1024 * 1024

structure Stat where
  size : Nat
  mtime : Int
  deriving DecidableEq

/-- What `stat` and `read_bytes` answer of a regular file, unless they raise. -/
structure Fichier where
  stat : Option Stat
  octets : Option Octets
  deriving DecidableEq

inductive Entree where
  | fichier (f : Fichier)
  | dossier
  | autre
  deriving DecidableEq

/-- What `rglob` went through, and whether an exception cut it short. -/
structure Marche where
  items : Dict Parts Entree
  interrompue : Bool

structure WorkspaceSnapshot where
  root : String
  entries : Dict String String
  lisible : Bool := true
  illisibles : List String := []
  deriving DecidableEq

/-- `Path(root).parts`. -/
def partsDe (root : String) : List String :=
  let base := Chemin.lire root
  if base.racine = "" then base.parts else base.racine :: base.parts

def trier (noms : List String) : List String := noms.insertionSort (· ≤ ·)

section Snapshot

-- the hexadecimal digest of SHA-256
variable (hacher : Octets → String)

def mesure (stat : Stat) : String :=
  "size:" ++ toString stat.size ++ ":mtime:" ++ toString stat.mtime

def fingerprint (f : Fichier) : Option String :=
  match f.stat with
  | none => none
  | some stat =>
      if HASH_LIMIT_BYTES < stat.size then some (mesure stat)
      else
        match f.octets with
        | some octets => some ("sha256:" ++ hacher octets)
        | none => some (mesure stat)

/-- A path of the walk is left out by its own parts or by those of the root, and by not being a
regular file. -/
def garder (root : String) (item : Parts × Entree) : Option (Parts × Fichier) :=
  if ignore (partsDe root ++ item.1) then none
  else
    match item.2 with
    | .fichier f => some (item.1, f)
    | _ => none

def gardes (root : String) (items : Dict Parts Entree) : Dict Parts Fichier :=
  items.filterMap (garder root)

def nommes (fichiers : Dict Parts Fichier) : Dict String Fichier :=
  fichiers.map fun item => (posix item.1, item.2)

def entreesDe (fichiers : Dict String Fichier) : Dict String String :=
  fichiers.filterMap fun item => (fingerprint hacher item.2).map fun e => (item.1, e)

def illisiblesDe (fichiers : Dict String Fichier) : List String :=
  (fichiers.filter fun item => (fingerprint hacher item.2).isNone).map Prod.fst

/-- `none` is a root that is not a directory. -/
def snapshot (root : String) (disque : Option Marche) : WorkspaceSnapshot :=
  match disque with
  | none => { root := root, entries := [], lisible := false }
  | some marche =>
      { root := root
        entries := Dict.update [] (entreesDe hacher (nommes (gardes root marche.items)))
        lisible := !marche.interrompue
        illisibles := trier (illisiblesDe hacher (nommes (gardes root marche.items))) }

end Snapshot

def diff (before after : WorkspaceSnapshot) : WorkspaceDiff :=
  let inconnus := (before.illisibles ++ after.illisibles).dedup
  let beforeKeys := before.entries.keys.filter (· ∉ inconnus)
  let afterKeys := after.entries.keys.filter (· ∉ inconnus)
  { created := trier (afterKeys.filter (· ∉ beforeKeys))
    modified := trier (beforeKeys.filter fun k =>
      k ∈ afterKeys ∧ before.entries.get? k ≠ after.entries.get? k)
    deleted := trier (beforeKeys.filter (· ∉ afterKeys))
    indetermines := trier inconnus }

/-- What each instrument answers of the workspace as the mission left it; `manifeste` is asked of
a mission only, the last two of the files that were touched. -/
structure Instruments where
  tests : Option TestsDuWorkspace
  manifeste : Option (Option VerdictManifeste)
  imports : Option VerdictImports
  importsRemontent : Option String
  fauxPaquet : Option String
  testTautologique : Option String
  livrableVide : List String → Option String
  sqlCasse : List String → Option String

def nonMesure (missionId : String) (reportedSuccess : Bool) (workspace : Option String)
    (changes : WorkspaceDiff) : MissionVerification where
  missionId := missionId
  reportedSuccess := reportedSuccess
  workspace := workspace
  changes := changes
  measured := false
  tests := none
  manifeste := none
  imports := none
  importsRemontent := none
  fauxPaquet := none
  testTautologique := none
  livrableVide := none
  sqlCasse := none

def verify (missionId : String) (reportedSuccess : Bool) (workspace : Option String)
    (before after : Option WorkspaceSnapshot) (i : Instruments) : MissionVerification :=
  match workspace, before, after with
  | some workspace, some before, some after =>
      if !(before.lisible && after.lisible) then
        nonMesure missionId reportedSuccess (some workspace)
          { created := [], modified := [], deleted := []
            indetermines := trier (before.illisibles ++ after.illisibles).dedup }
      else
        let touche := diff before after
        { missionId := missionId
          reportedSuccess := reportedSuccess
          workspace := some workspace
          changes := touche
          measured := true
          tests := if reportedSuccess then i.tests else none
          manifeste := i.manifeste.join
          imports := i.imports
          importsRemontent := i.importsRemontent
          fauxPaquet := i.fauxPaquet
          testTautologique := i.testTautologique
          livrableVide := i.livrableVide (touche.created ++ touche.modified)
          sqlCasse := i.sqlCasse (touche.created ++ touche.modified) }
  | workspace, _, _ =>
      nonMesure missionId reportedSuccess workspace
        { created := [], modified := [], deleted := [], indetermines := [] }

/-- The parts of a path below a root: each has a name, without a separator in it. -/
def Nommee (p : Parts) : Prop := p ≠ [] ∧ ∀ nom ∈ p, '/' ∉ nom.toList

theorem posix_injective {p q : Parts} (hp : Nommee p) (hq : Nommee q) (h : posix p = posix q) :
    p = q := by
  have hsplit : ∀ {r : Parts}, Nommee r →
      (posix r).toList.splitOn '/' = r.map String.toList := by
    intro r hr
    rw [posix, String.toList_intercalate]
    apply List.splitOn_intercalate
    · intro l hl
      cases List.mem_map.mp hl with
      | intro nom hnom =>
          rw [← hnom.2]
          exact hr.2 nom hnom.1
    · simpa using hr.1
  have heq : p.map String.toList = q.map String.toList := by
    rw [← hsplit hp, ← hsplit hq, h]
  exact List.map_injective_iff.mpr (fun _ _ => String.toList_injective) heq

/-- A tree that can be read: each path is listed once, each part has a name, no exception cuts the
walk and every file answers `stat`. -/
structure Lisible where
  items : Dict Parts Entree
  cles : items.keys.Nodup
  noms : ∀ p ∈ items.keys, Nommee p
  stats : ∀ p f, (p, Entree.fichier f) ∈ items → f.stat.isSome = true

def Lisible.marche (t : Lisible) : Marche := { items := t.items, interrompue := false }

section Lecture

variable {hacher : Octets → String} {root : String} {items : Dict Parts Entree} {p : Parts}
  {f : Fichier} {e : String}

theorem ignore_append (a b : Parts) : ignore (a ++ b) = (ignore a || ignore b) := List.any_append

theorem mem_gardes :
    (p, f) ∈ gardes root items ↔
      (p, Entree.fichier f) ∈ items ∧ ignore (partsDe root ++ p) = false := by
  rw [gardes, List.mem_filterMap]
  constructor
  · intro h
    cases h with
    | intro item hitem =>
        have hsome := hitem.2
        unfold garder at hsome
        split at hsome
        · cases hsome
        · next hig =>
            split at hsome
            · next g hg =>
                cases hsome
                rw [← hg]
                exact ⟨hitem.1, by simpa using hig⟩
            · cases hsome
  · intro h
    exact ⟨(p, .fichier f), h.1, by simp [garder, h.2]⟩

theorem cle_of_garder {item : Parts × Entree} {item' : Parts × Fichier}
    (h : garder root item = some item') : item'.1 = item.1 := by
  unfold garder at h
  split at h
  · cases h
  · split at h
    · cases h
      rfl
    · cases h

theorem keys_gardes_sublist : (gardes root items).keys.Sublist items.keys :=
  Dict.keys_filterMap_sublist (fun _ _ => cle_of_garder) items

theorem fingerprint_isSome (h : f.stat.isSome = true) : (fingerprint hacher f).isSome = true := by
  unfold fingerprint
  cases hstat : f.stat with
  | none =>
      rw [hstat] at h
      cases h
  | some stat =>
      simp only
      split
      · rfl
      · cases f.octets <;> rfl

theorem mem_nommes {fichiers : Dict Parts Fichier} {r : String} :
    (r, f) ∈ nommes fichiers ↔ ∃ p, (p, f) ∈ fichiers ∧ r = posix p := by
  rw [nommes, List.mem_map]
  constructor
  · intro h
    cases h with
    | intro item hitem =>
        cases hitem.2
        exact ⟨item.1, hitem.1, rfl⟩
  · intro h
    cases h with
    | intro p hp => exact ⟨(p, f), hp.1, by rw [hp.2]⟩

theorem nodup_nommes {fichiers : Dict Parts Fichier} (hcles : fichiers.keys.Nodup)
    (hnoms : ∀ p ∈ fichiers.keys, Nommee p) : (nommes fichiers).keys.Nodup := by
  have hkeys : (nommes fichiers).keys = fichiers.keys.map posix := by
    simp [nommes, Dict.keys, List.map_map]
  rw [hkeys]
  apply List.Nodup.map_on _ hcles
  intro p hp q hq h
  exact posix_injective (hnoms p hp) (hnoms q hq) h

theorem mem_entreesDe {fichiers : Dict String Fichier} {r : String} :
    (r, e) ∈ entreesDe hacher fichiers ↔
      ∃ f, (r, f) ∈ fichiers ∧ fingerprint hacher f = some e := by
  rw [entreesDe, List.mem_filterMap]
  constructor
  · intro h
    cases h with
    | intro item hitem =>
        cases Option.map_eq_some_iff.mp hitem.2 with
        | intro e' he =>
            cases he.2
            exact ⟨item.2, hitem.1, he.1⟩
  · intro h
    cases h with
    | intro f hf => exact ⟨(r, f), hf.1, by simp [hf.2]⟩

theorem nodup_entreesDe {fichiers : Dict String Fichier} (hcles : fichiers.keys.Nodup) :
    (entreesDe hacher fichiers).keys.Nodup := by
  refine (Dict.keys_filterMap_sublist ?_ fichiers).nodup hcles
  intro item item' h
  cases Option.map_eq_some_iff.mp h with
  | intro e he => rw [← he.2]

theorem get?_update_nil {κ ν : Type*} [DecidableEq κ] {items : Dict κ ν} (h : items.keys.Nodup)
    (k : κ) (v : ν) : (Dict.update [] items).get? k = some v ↔ (k, v) ∈ items := by
  rw [Dict.update_append [] items h, List.nil_append]
  exact ⟨Dict.mem_of_get?, Dict.get?_of_mem h⟩

end Lecture

section Position

variable (hacher : Octets → String) (root root' : String) (t avant apres : Lisible)

/-- The regular files below the root, outside the ignored directories, each under its relative
path with its fingerprint, and nothing else. -/
structure Exact : Prop where
  lisible : (snapshot hacher root (some t.marche)).lisible = true
  illisibles : (snapshot hacher root (some t.marche)).illisibles = []
  entries : ∀ r e, (snapshot hacher root (some t.marche)).entries.get? r = some e ↔
    ∃ p f, (p, Entree.fichier f) ∈ t.items ∧ ignore p = false ∧ r = posix p ∧
      fingerprint hacher f = some e

/-- No file of the tree is outside an ignored directory. -/
def SansFichier : Prop := ∀ p f, (p, Entree.fichier f) ∈ t.items → ignore p = true

theorem keys_gardes_nodup : (gardes root t.items).keys.Nodup :=
  keys_gardes_sublist.nodup t.cles

theorem keys_gardes_nommees : ∀ p ∈ (gardes root t.items).keys, Nommee p :=
  fun p hp => t.noms p (keys_gardes_sublist.subset hp)

theorem get?_entries (r e : String) :
    (snapshot hacher root (some t.marche)).entries.get? r = some e ↔
      ∃ p f, (p, Entree.fichier f) ∈ t.items ∧ ignore (partsDe root ++ p) = false ∧
        r = posix p ∧ fingerprint hacher f = some e := by
  have hnodup := @nodup_entreesDe hacher _
    (nodup_nommes (keys_gardes_nodup root t) (keys_gardes_nommees root t))
  rw [snapshot]
  refine (get?_update_nil hnodup r e).trans ?_
  rw [mem_entreesDe]
  constructor
  · intro h
    obtain ⟨f, hf, he⟩ := h
    obtain ⟨p, hp, hr⟩ := mem_nommes.mp hf
    have hgarde := mem_gardes.mp hp
    exact ⟨p, f, hgarde.1, hgarde.2, hr, he⟩
  · intro h
    obtain ⟨p, f, hmem, hig, hr, he⟩ := h
    exact ⟨f, mem_nommes.mpr ⟨p, mem_gardes.mpr ⟨hmem, hig⟩, hr⟩, he⟩

theorem illisibles_eq_nil : (snapshot hacher root (some t.marche)).illisibles = [] := by
  have hnil : illisiblesDe hacher (nommes (gardes root t.items)) = [] := by
    rw [illisiblesDe, List.map_eq_nil_iff, List.filter_eq_nil_iff]
    intro item hitem
    obtain ⟨p, hp, -⟩ := mem_nommes.mp hitem
    have hstat := t.stats p item.2 (mem_gardes.mp hp).1
    simpa using Option.isSome_iff_ne_none.mp (fingerprint_isSome hstat)
  simp only [snapshot, Lisible.marche, hnil]
  rfl

theorem exact_iff : Exact hacher root t ↔ ignore (partsDe root) = false ∨ SansFichier t := by
  constructor
  · intro h
    cases hroot : ignore (partsDe root) with
    | false => exact .inl rfl
    | true =>
        right
        intro p f hmem
        by_contra hig
        have he := Option.isSome_iff_exists.mp
          (@fingerprint_isSome hacher f (t.stats p f hmem))
        cases he with
        | intro e he =>
            have hentree := (h.entries (posix p) e).mpr
              ⟨p, f, hmem, by simpa using hig, rfl, he⟩
            obtain ⟨q, -, -, hq, -⟩ := (get?_entries hacher root t _ _).mp hentree
            rw [ignore_append, hroot] at hq
            cases hq
  · intro h
    refine ⟨rfl, illisibles_eq_nil hacher root t, ?_⟩
    intro r e
    rw [get?_entries]
    cases h with
    | inl hroot => simp only [ignore_append, hroot, Bool.false_or]
    | inr hvide =>
        constructor
        · intro h
          obtain ⟨p, f, hmem, hig, -⟩ := h
          rw [ignore_append, hvide p f hmem, Bool.or_true] at hig
          cases hig
        · intro h
          obtain ⟨p, f, hmem, hig, -⟩ := h
          rw [hvide p f hmem] at hig
          cases hig

theorem gardes_eq (h : ignore (partsDe root) = ignore (partsDe root')) :
    gardes root t.items = gardes root' t.items := by
  have hgarder : garder root = garder root' := by
    funext item
    simp only [garder, ignore_append, h]
  rw [gardes, gardes, hgarder]

theorem gardes_of_sansFichier (h : SansFichier t) : gardes root t.items = [] := by
  rw [List.eq_nil_iff_forall_not_mem]
  intro item hitem
  have hgarde := mem_gardes.mp hitem
  rw [ignore_append, h _ _ hgarde.1, Bool.or_true] at hgarde
  cases hgarde.2

theorem snapshot_eq (h : gardes root t.items = gardes root' t.items) :
    snapshot hacher root' (some t.marche)
      = { snapshot hacher root (some t.marche) with root := root' } := by
  simp only [snapshot, Lisible.marche, h]

theorem diff_root (s s' : WorkspaceSnapshot) (r r' : String) :
    diff { s with root := r } { s' with root := r' } = diff s s' := rfl

end Position

/-- The location of a workspace says nothing of it: a snapshot is exact at both places, and the
entries, the difference and the record are those of the first one. -/
structure Deplacable (hacher : Octets → String) (root root' : String) (avant apres : Lisible) :
    Prop where
  exacts : ∀ r ∈ [root, root'], ∀ t ∈ [avant, apres], Exact hacher r t
  entries : ∀ t ∈ [avant, apres], (snapshot hacher root' (some t.marche)).entries
    = (snapshot hacher root (some t.marche)).entries
  diff : ∀ r ∈ [root, root'], ∀ r' ∈ [root, root'],
    diff (snapshot hacher r (some avant.marche)) (snapshot hacher r' (some apres.marche))
      = diff (snapshot hacher root (some avant.marche)) (snapshot hacher root (some apres.marche))
  verify : ∀ missionId reportedSuccess instruments,
    { verify missionId reportedSuccess (some root')
        (some (snapshot hacher root' (some avant.marche)))
        (some (snapshot hacher root' (some apres.marche))) instruments with
      workspace := some root }
      = verify missionId reportedSuccess (some root)
        (some (snapshot hacher root (some avant.marche)))
        (some (snapshot hacher root (some apres.marche))) instruments

section Place

variable {hacher : Octets → String} {root root' : String} {avant apres : Lisible}

theorem deplacable_of_gardes
    (hexacts : ∀ r ∈ [root, root'], ∀ t ∈ [avant, apres], Exact hacher r t)
    (havant : gardes root avant.items = gardes root' avant.items)
    (hapres : gardes root apres.items = gardes root' apres.items) :
    Deplacable hacher root root' avant apres where
  exacts := hexacts
  entries := by
    intro t ht
    have hgardes : gardes root t.items = gardes root' t.items := by
      cases List.mem_pair.mp ht with
      | inl h =>
          rw [h]
          exact havant
      | inr h =>
          rw [h]
          exact hapres
    rw [snapshot_eq hacher root root' t hgardes]
  diff := by
    have hroots : ∀ t : Lisible, gardes root t.items = gardes root' t.items →
        ∀ r ∈ [root, root'], snapshot hacher r (some t.marche)
          = { snapshot hacher root (some t.marche) with root := r } := by
      intro t hgardes r hr
      cases List.mem_pair.mp hr with
      | inl h =>
          rw [h]
          rfl
      | inr h =>
          rw [h]
          exact snapshot_eq hacher root root' t hgardes
    intro r hr r' hr'
    rw [hroots avant havant r hr, hroots apres hapres r' hr', diff_root]
  verify := by
    intro missionId reportedSuccess instruments
    rw [snapshot_eq hacher root root' avant havant, snapshot_eq hacher root root' apres hapres]
    rfl

def unFichier : Lisible where
  items := [(["main.py"], .fichier { stat := some { size := 0, mtime := 0 }, octets := some [] })]
  cles := by decide
  noms := by
    intro p hp
    cases List.mem_singleton.mp hp
    exact ⟨by decide, by decide +kernel⟩
  stats := by
    intro p f hmem
    cases List.mem_singleton.mp hmem
    rfl

def vide : Octets → String :=
  fun _ => "e3b0c44298fc1c149afbf4c8996fb92427ae41e4649b934ca495991b7852b855"

end Place

end Hermes.Snapshot
