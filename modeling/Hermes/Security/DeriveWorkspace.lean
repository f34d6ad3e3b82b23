import Hermes.Lib.Dict
import Mathlib.Data.List.Induction
import Mathlib.Data.List.Sort
import Mathlib.Data.String.Basic

/-! # The drift of the files that govern an agent

A fingerprint is a text of one of three kinds: a hash, a size that is too large to read, or the
exception that the reading met.
-/

namespace Hermes.DeriveWorkspace

open Lib (Dict)

abbrev Octets := List UInt8

def GOUVERNANTS : List String :=
  ["CLAUDE.md", "AGENTS.md", ".mcp.json", ".claude/settings.json", ".claude/settings.local.json",
    ".claude/hooks", ".claude/skills", ".claude/agents", ".cursorrules",
    ".github/copilot-instructions.md"]

def TAILLE_MAX : Nat := 1048576

inductive Etat where
  | inchange | modifie | ajoute | retire | inconnu
  deriving DecidableEq

structure Ecart where
  chemin : String
  etat : Etat
  detail : String
  deriving DecidableEq

structure LigneDeBase where
  racine : String
  prisLe : String
  empreintes : Dict String String

/-- A file, and the name of the `OSError` that `read_bytes` raises on it, if it does. -/
structure Fichier where
  contenu : Octets
  erreur : Option String

/-- `p` is the path of something below the directory `d`. -/
def dans (d p : String) : Bool := (d.toList ++ ['/']).isPrefixOf p.toList

structure Espace where
  fichiers : Dict String Fichier
  fermes : List String
  distincts : fichiers.keys.Nodup
  feuilles : ∀ d ∈ fichiers.keys, ∀ p ∈ fichiers.keys, dans d p = false

section Releve

variable (sha256 : Octets → String)

def empreinteFichier (f : Fichier) : String :=
  if TAILLE_MAX < f.contenu.length then "trop-gros:" ++ toString f.contenu.length
  else
    match f.erreur with
    | none => "sha256:" ++ sha256 f.contenu
    | some type => "inconnu:" ++ type

/-- What `rglob` reaches below a directory: it passes over what it cannot list. -/
def atteint (e : Espace) (d p : String) : Bool :=
  dans d p && !e.fermes.any fun f => (f = d || dans d f) && dans f p

def empreintesSous (e : Espace) (relatif : String) : Dict String String :=
  match e.fichiers.get? relatif with
  | some f => [(relatif, empreinteFichier sha256 f)]
  | none => (e.fichiers.filter fun item => atteint e relatif item.1).map fun item =>
      (item.1, empreinteFichier sha256 item.2)

def empreintes (e : Espace) : Dict String String :=
  GOUVERNANTS.foldl (fun d relatif => d.update (empreintesSous sha256 e relatif)) []

/-- `pris_le` is the date that the clock gives. -/
def relever (racine prisLe : String) (e : Espace) : LigneDeBase where
  racine := racine
  prisLe := prisLe
  empreintes := empreintes sha256 e

end Releve

def trier (chemins : List String) : List String := chemins.mergeSort fun a b => decide (a ≤ b)

/-- `empreinte.startswith("inconnu:")`. -/
def inconnue (empreinte : String) : Bool := "inconnu:".toList.isPrefixOf empreinte.toList

def ecartCommun (chemin a b : String) : Option Ecart :=
  if a = b then none
  else if inconnue b || inconnue a then
    some ⟨chemin, .inconnu, "empreinte non prise — ni inchangé, ni modifié"⟩
  else some ⟨chemin, .modifie, "contenu différent"⟩

def comparer (base maintenant : LigneDeBase) : List Ecart :=
  let avant := base.empreintes
  let apres := maintenant.empreintes
  (trier (apres.keys.filter (· ∉ avant.keys))).map
      (⟨·, .ajoute, "n'existait pas quand la mission a commencé"⟩) ++
    (trier (avant.keys.filter (· ∈ apres.keys))).filterMap (fun chemin =>
      ecartCommun chemin (avant.getD chemin "") (apres.getD chemin "")) ++
    (trier (avant.keys.filter (· ∉ apres.keys))).map
      (⟨·, .retire, "présent au départ, absent maintenant"⟩)

def aDerive (ecarts : List Ecart) : Bool := !ecarts.isEmpty

def etatsDe (chemin : String) (ecarts : List Ecart) : List Etat :=
  (ecarts.filter fun e => e.chemin = chemin).map Ecart.etat

def Gouvernant (p : String) : Prop := ∃ g ∈ GOUVERNANTS, p = g ∨ dans g p = true

/-- The walk comes to the path, if there is a file. -/
def Vu (e : Espace) (p : String) : Prop := ∃ g ∈ GOUVERNANTS, p = g ∨ atteint e g p = true

instance (e : Espace) (p : String) : Decidable (Vu e p) := inferInstanceAs (Decidable (∃ g ∈ _, _))

inductive Cote where
  | absent
  | lu (octets : Octets)
  | tropGros (taille : Nat)
  | illisible (type : String)
  | cache

def coteDe (f : Fichier) : Cote :=
  if TAILLE_MAX < f.contenu.length then .tropGros f.contenu.length
  else
    match f.erreur with
    | none => .lu f.contenu
    | some type => .illisible type

def cote (e : Espace) (p : String) : Cote :=
  if Vu e p then
    match e.fichiers.get? p with
    | none => .absent
    | some f => coteDe f
  else .cache

def Cote.Inconnu : Cote → Prop
  | illisible _ => True
  | cache => True
  | _ => False

/-- What may be said of a path with these two sides. -/
def Convient (a b : Cote) : List Etat → Prop
  | [] => ∃ octets, a = .lu octets ∧ b = .lu octets
  | [.ajoute] => a = .absent ∧ ¬b.Inconnu
  | [.retire] => b = .absent ∧ ¬a.Inconnu
  | [.modifie] => a ≠ .absent ∧ b ≠ .absent ∧ ¬a.Inconnu ∧ ¬b.Inconnu ∧
      ¬∃ octets, a = .lu octets ∧ b = .lu octets
  | [.inconnu] => a.Inconnu ∨ b.Inconnu
  | _ => False

/-- A governing path with a file on one side at least. -/
def EnJeu (avant apres : Espace) (p : String) : Prop :=
  Gouvernant p ∧ (p ∈ avant.fichiers.keys ∨ p ∈ apres.fichiers.keys)

/-- No hash is that of another content of the two sides. -/
def SansCollision (sha256 : Octets → String) (avant apres : Espace) : Prop :=
  ∀ f ∈ avant.fichiers, ∀ g ∈ apres.fichiers, sha256 f.2.contenu = sha256 g.2.contenu →
    f.2.contenu = g.2.contenu

/-- The two sides do not look alike without having been read, and an unread side does not stand
beside an absence. -/
def Distingue : Cote → Cote → Prop
  | .cache, _ => False
  | _, .cache => False
  | .illisible type, .illisible type' => type ≠ type'
  | .illisible _, .absent => False
  | .absent, .illisible _ => False
  | .tropGros taille, .tropGros taille' => taille ≠ taille'
  | _, _ => True

section Empreintes

variable {sha256 : Octets → String} {e : Espace} {p g : String} {f : Fichier} {v : String}

theorem mem_empreintesSous :
    (p, v) ∈ empreintesSous sha256 e g ↔ ∃ f, e.fichiers.get? p = some f ∧
      v = empreinteFichier sha256 f ∧ (p = g ∨ atteint e g p = true) := by
  unfold empreintesSous
  cases hg : e.fichiers.get? g with
  | some f₀ =>
      rw [List.mem_singleton, Prod.mk.injEq]
      constructor
      · intro ⟨hp, hv⟩
        exact ⟨f₀, hp ▸ hg, hv, Or.inl hp⟩
      · intro ⟨f, hf, hv, hp⟩
        cases hp with
        | inl hp =>
            rw [hp, hg] at hf
            cases hf
            exact ⟨hp, hv⟩
        | inr hp =>
            have hsous : dans g p = true := (Bool.and_eq_true_iff.mp hp).1
            have hfeuille := e.feuilles g (Dict.isSome_get?.mp (by rw [hg]; rfl)) p
              (Dict.isSome_get?.mp (by rw [hf]; rfl))
            exact absurd (hsous.symm.trans hfeuille) (by decide)
  | none =>
      rw [List.mem_map]
      constructor
      · intro ⟨item, hitem, heq⟩
        obtain ⟨rfl, rfl⟩ := Prod.mk.inj heq
        obtain ⟨hmem, hatteint⟩ := List.mem_filter.mp hitem
        exact ⟨item.2, Dict.get?_of_mem e.distincts hmem, rfl, Or.inr hatteint⟩
      · intro ⟨f, hf, hv, hp⟩
        cases hp with
        | inl hp => cases hg.symm.trans (hp ▸ hf)
        | inr hp =>
            refine ⟨(p, f), List.mem_filter.mpr ⟨Dict.mem_of_get? hf, hp⟩, ?_⟩
            rw [hv]

theorem nodup_empreintesSous (sha256 : Octets → String) (e : Espace) (g : String) :
    (empreintesSous sha256 e g).keys.Nodup := by
  unfold empreintesSous
  split
  · exact List.nodup_singleton _
  · rw [Dict.keys, List.map_map]
    exact e.distincts.sublist (List.filter_sublist.map Prod.fst)

theorem get?_foldl_empreintes (sha256 : Octets → String) (e : Espace) (p : String)
    (gs : List String) :
    Dict.get? (gs.foldl (fun d relatif => d.update (empreintesSous sha256 e relatif)) []) p =
      if ∃ g ∈ gs, p = g ∨ atteint e g p = true then
        (e.fichiers.get? p).map (empreinteFichier sha256)
      else none := by
  induction gs using List.reverseRecOn with
  | nil => simp [Dict.get?]
  | append_singleton gs g ih =>
      rw [List.foldl_append, List.foldl_cons, List.foldl_nil]
      by_cases hmem : p ∈ (empreintesSous sha256 e g).keys
      · obtain ⟨item, hitem, hkey⟩ := List.mem_map.mp hmem
        have hpaire : (p, item.2) ∈ empreintesSous sha256 e g := by
          rw [← hkey]
          exact hitem
        obtain ⟨f, hf, hv, hp⟩ := mem_empreintesSous.mp hpaire
        rw [Dict.get?_update_of_mem (nodup_empreintesSous sha256 e g) hpaire,
          if_pos ⟨g, by simp, hp⟩, hf, hv]
        rfl
      · rw [Dict.get?_update_of_notMem hmem, ih]
        cases hf : e.fichiers.get? p with
        | none => simp
        | some f =>
            have hp : ¬(p = g ∨ atteint e g p = true) := fun hp =>
              hmem (List.mem_map_of_mem (mem_empreintesSous.mpr ⟨f, hf, rfl, hp⟩))
            refine if_congr ?_ rfl rfl
            constructor
            · rintro ⟨g', hg', hp'⟩
              exact ⟨g', List.mem_append_left _ hg', hp'⟩
            · rintro ⟨g', hg', hp'⟩
              cases List.mem_append.mp hg' with
              | inl hg' => exact ⟨g', hg', hp'⟩
              | inr hg' => exact absurd (List.mem_singleton.mp hg' ▸ hp') hp

theorem nodup_empreintes (sha256 : Octets → String) (e : Espace) :
    (empreintes sha256 e).keys.Nodup := by
  unfold empreintes
  induction GOUVERNANTS using List.reverseRecOn with
  | nil => exact List.nodup_nil
  | append_singleton gs g ih =>
      rw [List.foldl_append]
      exact Dict.nodup_keys_update ih _

def Cote.empreinte (sha256 : Octets → String) : Cote → Option String
  | absent => none
  | lu octets => some ("sha256:" ++ sha256 octets)
  | tropGros taille => some ("trop-gros:" ++ toString taille)
  | illisible type => some ("inconnu:" ++ type)
  | cache => none

theorem empreinte_coteDe (sha256 : Octets → String) (f : Fichier) :
    (coteDe f).empreinte sha256 = some (empreinteFichier sha256 f) := by
  unfold coteDe empreinteFichier
  split
  · rfl
  · cases f.erreur <;> rfl

theorem get?_empreintes (sha256 : Octets → String) (e : Espace) (p : String) :
    (empreintes sha256 e).get? p = (cote e p).empreinte sha256 := by
  rw [empreintes, get?_foldl_empreintes, cote]
  change (if Vu e p then (e.fichiers.get? p).map (empreinteFichier sha256) else none) = _
  by_cases hvu : Vu e p
  · rw [if_pos hvu, if_pos hvu]
    cases e.fichiers.get? p with
    | none => rfl
    | some f => exact (empreinte_coteDe sha256 f).symm
  · rw [if_neg hvu, if_neg hvu]
    rfl

end Empreintes

section Ecarts

variable {l : List String} {p : String}

theorem etatsDe_append (p : String) (u v : List Ecart) :
    etatsDe p (u ++ v) = etatsDe p u ++ etatsDe p v := by
  rw [etatsDe, List.filter_append, List.map_append]
  rfl

theorem etatsDe_filterMap {ecart : String → Option Ecart}
    (hchemin : ∀ c x, ecart c = some x → x.chemin = c) (hl : l.Nodup) (p : String) :
    etatsDe p ((trier l).filterMap ecart) =
      if p ∈ l then ((ecart p).map Ecart.etat).toList else [] := by
  have hnodup : (trier l).Nodup := (List.mergeSort_perm l _).nodup_iff.mpr hl
  have hmem : p ∈ l ↔ p ∈ trier l := List.mem_mergeSort.symm
  rw [if_congr hmem rfl rfl]
  generalize trier l = cs at hnodup
  induction cs with
  | nil => rfl
  | cons c cs ih =>
      obtain ⟨hc, hcs⟩ := List.nodup_cons.mp hnodup
      have hsuite := ih hcs
      rw [List.filterMap_cons]
      by_cases hp : p = c
      · rw [← hp] at hc
        rw [if_neg hc] at hsuite
        rw [← hp, if_pos List.mem_cons_self]
        cases hx : ecart p with
        | none => exact hsuite
        | some x =>
            have hx' : x.chemin = p := hchemin p x hx
            rw [etatsDe] at hsuite
            simp only [etatsDe, List.filter_cons, hx', decide_true, if_true, List.map_cons, hsuite,
              Option.map_some, Option.toList_some]
      · have hiff : p ∈ c :: cs ↔ p ∈ cs := by simp [hp]
        rw [if_congr hiff rfl rfl, ← hsuite]
        cases hx : ecart c with
        | none => rfl
        | some x =>
            have hx' : x.chemin ≠ p := fun heq => hp (heq.symm.trans (hchemin c x hx))
            simp only [etatsDe, List.filter_cons, decide_eq_true_eq, hx', if_false]

theorem etatsDe_map {ecart : String → Ecart} (hchemin : ∀ c, (ecart c).chemin = c) (hl : l.Nodup)
    (p : String) :
    etatsDe p ((trier l).map ecart) = if p ∈ l then [(ecart p).etat] else [] := by
  rw [← List.filterMap_eq_map]
  refine etatsDe_filterMap ?_ hl p
  intro c x hx
  cases hx
  exact hchemin c

/-- What the two fingerprints of a path lead to. -/
def etatsAttendus : Option String → Option String → List Etat
  | none, none => []
  | none, some _ => [.ajoute]
  | some _, none => [.retire]
  | some a, some b => ((ecartCommun "" a b).map Ecart.etat).toList

theorem chemin_ecartCommun {c a b : String} {x : Ecart} (h : ecartCommun c a b = some x) :
    x.chemin = c := by
  unfold ecartCommun at h
  split at h
  · cases h
  · split at h <;> (cases h; rfl)

theorem etat_ecartCommun (c a b : String) :
    (ecartCommun c a b).map Ecart.etat = (ecartCommun "" a b).map Ecart.etat := by
  unfold ecartCommun
  split
  · rfl
  · split <;> rfl

theorem etatsDe_comparer {base maintenant : LigneDeBase} (hbase : base.empreintes.keys.Nodup)
    (hmaintenant : maintenant.empreintes.keys.Nodup) (p : String) :
    etatsDe p (comparer base maintenant) =
      etatsAttendus (base.empreintes.get? p) (maintenant.empreintes.get? p) := by
  unfold comparer
  rw [etatsDe_append, etatsDe_append, etatsDe_map (fun _ => rfl) (hmaintenant.filter _),
    etatsDe_filterMap (fun _ _ => chemin_ecartCommun) (hbase.filter _),
    etatsDe_map (fun _ => rfl) (hbase.filter _), etat_ecartCommun]
  simp only [List.mem_filter, decide_eq_true_eq, Dict.getD, ← Dict.isSome_get?]
  cases base.empreintes.get? p with
  | none => cases maintenant.empreintes.get? p <;> simp [etatsAttendus]
  | some a => cases maintenant.empreintes.get? p <;> simp [etatsAttendus]

end Ecarts

section Textes

theorem tailles_inj {n m : Nat} (h : toString n = toString m) : n = m := by
  rw [Nat.toString_eq_ofList_toDigits, Nat.toString_eq_ofList_toDigits] at h
  have hcars := congrArg (fun s => Nat.ofDigitChars 10 (String.toList s) 0) h
  simpa only [String.toList_ofList, Nat.ofDigitChars_ten_toDigits] using hcars

theorem append_ne {a b : String} (h : a.toList.head? ≠ b.toList.head?) (ha : a ≠ "") (hb : b ≠ "")
    (x y : String) : a ++ x ≠ b ++ y := by
  intro heq
  have hcars := congrArg (fun s => (String.toList s).head?) heq
  simp only [String.toList_append, List.head?_append] at hcars
  cases hca : a.toList with
  | nil => exact ha (String.toList_eq_nil_iff.mp hca)
  | cons c cs =>
      cases hcb : b.toList with
      | nil => exact hb (String.toList_eq_nil_iff.mp hcb)
      | cons d ds =>
          rw [hca, hcb] at h hcars
          exact h hcars

theorem sha256_ne_tropGros (x y : String) : "sha256:" ++ x ≠ "trop-gros:" ++ y :=
  append_ne (by decide) (by decide) (by decide) x y

theorem sha256_ne_inconnu (x y : String) : "sha256:" ++ x ≠ "inconnu:" ++ y :=
  append_ne (by decide) (by decide) (by decide) x y

theorem tropGros_ne_inconnu (x y : String) : "trop-gros:" ++ x ≠ "inconnu:" ++ y :=
  append_ne (by decide) (by decide) (by decide) x y

theorem inconnue_inconnu (x : String) : inconnue ("inconnu:" ++ x) = true := by
  rw [inconnue, List.isPrefixOf_iff_prefix, String.toList_append]
  exact List.prefix_append _ _

theorem inconnue_eq_false {a : String} {c : Char} {cs : List Char} (ha : a.toList = c :: cs)
    (hc : c ≠ 'i') (x : String) : inconnue (a ++ x) = false := by
  have hprefixe : ¬"inconnu:".toList <+: c :: (cs ++ x.toList) := by
    intro h
    exact hc (List.cons_prefix_cons.mp h).1.symm
  rw [inconnue, String.toList_append, ha, List.cons_append, Bool.eq_false_iff, ne_eq,
    List.isPrefixOf_iff_prefix]
  exact hprefixe

end Textes

section Derive

variable {sha256 : Octets → String} {avant apres : Espace} {p : String}

theorem cote_lu {e : Espace} {octets : Octets} (h : cote e p = .lu octets) :
    ∃ f, (p, f) ∈ e.fichiers ∧ f.contenu = octets := by
  unfold cote at h
  split at h
  · split at h
    · cases h
    · next f hf =>
        refine ⟨f, Dict.mem_of_get? hf, ?_⟩
        unfold coteDe at h
        split at h
        · cases h
        · split at h
          · exact Cote.lu.inj h
          · cases h
  · cases h

theorem cote_ne_absent {e : Espace} (h : p ∈ e.fichiers.keys) : cote e p ≠ .absent := by
  intro habsent
  unfold cote at habsent
  split at habsent
  · split at habsent
    · next hnone => exact absurd (Dict.isSome_get?.mpr h) (by simp [hnone])
    · unfold coteDe at habsent
      split at habsent
      · cases habsent
      · split at habsent <;> cases habsent
  · cases habsent

theorem convient_iff {a b : Cote} (hpresent : a ≠ .absent ∨ b ≠ .absent)
    (hsha : ∀ x y, a = .lu x → b = .lu y → sha256 x = sha256 y → x = y) :
    Convient a b (etatsAttendus (a.empreinte sha256) (b.empreinte sha256)) ↔ Distingue a b := by
  have hlu : ∀ x, inconnue ("sha256:" ++ sha256 x) = false :=
    fun x => inconnue_eq_false rfl (by decide) _
  have hgros : ∀ n : Nat, inconnue ("trop-gros:" ++ n.repr) = false :=
    fun n => inconnue_eq_false rfl (by decide) _
  cases a <;> cases b
  case absent.absent => simp at hpresent
  case lu.lu x y =>
    by_cases hxy : x = y
    · simp [Cote.empreinte, etatsAttendus, Convient, Distingue, ecartCommun, hxy]
    · have hne : sha256 x ≠ sha256 y := fun h => hxy (hsha x y rfl rfl h)
      have hyx : ¬y = x := fun h => hxy h.symm
      simp [Cote.empreinte, etatsAttendus, Convient, Distingue, Cote.Inconnu, ecartCommun,
        String.append_right_inj, hne, hlu, hyx]
  case tropGros.tropGros n m =>
    by_cases hnm : n = m
    · simp [Cote.empreinte, etatsAttendus, Convient, Distingue, ecartCommun, hnm]
    · have hne : n.repr ≠ m.repr := fun h => hnm (tailles_inj h)
      simp [Cote.empreinte, etatsAttendus, Convient, Distingue, Cote.Inconnu, ecartCommun,
        String.append_right_inj, hne, hgros, hnm]
  case illisible.illisible t u =>
    by_cases htu : t = u
    · simp [Cote.empreinte, etatsAttendus, Convient, Distingue, ecartCommun, htu]
    · simp [Cote.empreinte, etatsAttendus, Convient, Distingue, Cote.Inconnu, ecartCommun,
        String.append_right_inj, htu, inconnue_inconnu]
  all_goals
    simp [Cote.empreinte, etatsAttendus, Convient, Distingue, Cote.Inconnu, ecartCommun,
      sha256_ne_tropGros, sha256_ne_inconnu, tropGros_ne_inconnu, (sha256_ne_tropGros _ _).symm,
      (sha256_ne_inconnu _ _).symm, (tropGros_ne_inconnu _ _).symm, inconnue_inconnu, hlu, hgros]

end Derive

section Seul

/-- A workspace with nothing but its instructions. -/
def seul (contenu : Octets) (erreur : Option String) : Espace where
  fichiers := [("CLAUDE.md", ⟨contenu, erreur⟩)]
  fermes := []
  distincts := List.nodup_singleton _
  feuilles := by
    intro d hd p hp
    rw [List.mem_singleton.mp hd, List.mem_singleton.mp hp]
    exact (by decide : dans "CLAUDE.md" "CLAUDE.md" = false)

def lettres (octets : Octets) : String := String.ofList (octets.map fun b => Char.ofNat b.toNat)

theorem enJeu_seul {a b : Octets} {e e' : Option String} {p : String}
    (h : EnJeu (seul a e) (seul b e') p) : p = "CLAUDE.md" :=
  h.2.elim List.mem_singleton.mp List.mem_singleton.mp

end Seul

end Hermes.DeriveWorkspace
