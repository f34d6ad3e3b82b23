import Hermes.Lib.Dict
import Hermes.Lib.Texte
import Mathlib.Data.List.Sort
import Mathlib.Data.String.Basic

/-! # The skills that the hub has installed, against the disk

The fingerprint of a directory hashes one record a file: its path, a NUL, its bytes.
-/

namespace Hermes.Skills.Gouvernance

open Lib

abbrev Octets := List UInt8

/-- `rel.encode("utf-8")`. -/
def utf8 (texte : String) : Octets := texte.toList.flatMap String.utf8EncodeChar

def Relatif (chemin : String) : Prop :=
  Char.ofNat 0 ∉ chemin.toList ∧
    ∀ partie ∈ chemin.toList.splitOn '/', partie ≠ [] ∧ partie ≠ ['.'] ∧ partie ≠ ['.', '.']

instance (chemin : String) : Decidable (Relatif chemin) := inferInstanceAs (Decidable (_ ∧ _))

structure Dossier where
  fichiers : List (String × Octets)
  distincts : (fichiers.map Prod.fst).Nodup
  relatifs : ∀ chemin ∈ fichiers.map Prod.fst, Relatif chemin

namespace Dossier

def Meme (d d' : Dossier) : Prop := d.fichiers.Perm d'.fichiers

/-- `sorted(…)`: by the text of the path. -/
def enOrdre (d : Dossier) : List (String × Octets) :=
  d.fichiers.mergeSort fun a b => a.1 ≤ b.1

end Dossier

def enregistrement (fichier : String × Octets) : Octets := utf8 fichier.1 ++ 0 :: fichier.2

def flux (d : Dossier) : Octets := d.enOrdre.flatMap enregistrement

/-- `sha256` answers the hexadecimal digest. -/
def empreinte (sha256 : Octets → String) (d : Dossier) : String :=
  "sha256:" ++ Texte.premiers 16 (sha256 (flux d))

def CONFORME : String := "conforme"
def ALTEREE : String := "alteree"
def ANNONCEE_ABSENTE : String := "annoncee_absente"

/-- An entry of the lock, its fields as `str(entree.get(…) or "")`. -/
structure Entree where
  source : String := ""
  identifier : String := ""
  trustLevel : String := ""
  scanVerdict : String := ""
  installPath : String := ""
  contentHash : String := ""
  findings : Dict String Nat := []
  deriving DecidableEq

structure Posee where
  nom : String
  source : String
  identifiant : String
  confiance : String
  verdict : String
  chemin : String
  empreinteAttendue : String
  empreinteReelle : String
  etat : String
  findings : Dict String Nat
  deriving DecidableEq

inductive Disque where
  | absent
  | illisible
  | dossier (d : Dossier)

def place (nom chemin : String) : String := if chemin ≠ "" then chemin else nom

/-- The fingerprint of what is there, and the state that follows. -/
def confronter (sha256 : Octets → String) (disque : Disque) (attendue : String) :
    String × String :=
  match disque with
  | .absent => ("", ANNONCEE_ABSENTE)
  | .illisible => ("", ALTEREE)
  | .dossier d =>
      let reelle := empreinte sha256 d
      (reelle, if reelle ≠ "" ∧ reelle = attendue then CONFORME else ALTEREE)

def poser (sha256 : Octets → String) (disque : String → Disque) (nom : String) (entree : Entree) :
    Posee :=
  let (reelle, etat) :=
    confronter sha256 (disque (place nom entree.installPath)) entree.contentHash
  { nom
    source := entree.source
    identifiant := entree.identifier
    confiance := entree.trustLevel
    verdict := entree.scanVerdict
    chemin := entree.installPath
    empreinteAttendue := entree.contentHash
    empreinteReelle := reelle
    etat
    findings := entree.findings }

def posees (sha256 : Octets → String) (disque : String → Disque)
    (verrou : Dict String (Option Entree)) : List Posee :=
  (verrou.mergeSort fun a b => a.1 ≤ b.1).filterMap fun item =>
    item.2.map (poser sha256 disque item.1)

theorem ofNat_ne_zero {n : Nat} (h : n % 256 ≠ 0) : UInt8.ofNat n ≠ 0 := by
  intro heq
  apply h
  rw [← UInt8.toNat_ofNat', heq]
  rfl

theorem ne_zero_of_mem_utf8EncodeChar {c : Char} (hc : c ≠ Char.ofNat 0) {octet : UInt8}
    (h : octet ∈ String.utf8EncodeChar c) : octet ≠ 0 := by
  have hpos : c.val.toNat ≠ 0 := by
    intro heq
    exact hc (Char.ext (UInt32.toNat_inj.mp heq))
  unfold String.utf8EncodeChar at h
  dsimp only at h
  split_ifs at h <;> simp only [List.mem_cons, List.not_mem_nil, or_false] at h
  · rw [h]
    exact ofNat_ne_zero (by omega)
  · rcases h with rfl | rfl <;> exact ofNat_ne_zero (by omega)
  · rcases h with rfl | rfl | rfl <;> exact ofNat_ne_zero (by omega)
  · rcases h with rfl | rfl | rfl | rfl <;> exact ofNat_ne_zero (by omega)

theorem ne_zero_of_mem_utf8 {chemin : String} (h : Relatif chemin) :
    ∀ octet ∈ utf8 chemin, octet ≠ 0 := by
  intro octet hmem
  obtain ⟨c, hc, hoctet⟩ := List.mem_flatMap.mp hmem
  exact ne_zero_of_mem_utf8EncodeChar (fun heq => h.1 (heq ▸ hc)) hoctet

theorem utf8_injective : Function.Injective utf8 := by
  intro s t h
  have hencode : s.toList.utf8Encode = t.toList.utf8Encode := congrArg List.toByteArray h
  rw [String.utf8Encode_toList, String.utf8Encode_toList] at hencode
  exact String.toByteArray_inj.mp hencode

namespace Dossier

variable {d d' : Dossier}

theorem enOrdre_perm (d : Dossier) : d.enOrdre.Perm d.fichiers := List.mergeSort_perm _ _

theorem pairwise_enOrdre (d : Dossier) : d.enOrdre.Pairwise fun a b => a.1 < b.1 := by
  have hle : d.enOrdre.Pairwise fun a b => a.1 ≤ b.1 := by
    have hsorted := @List.pairwise_mergeSort (String × Octets) (fun a b => a.1 ≤ b.1)
      (fun a b c hab hbc => by
        rw [decide_eq_true_eq] at hab hbc ⊢
        exact hab.trans hbc)
      (fun a b => by simpa using le_total a.1 b.1) d.fichiers
    exact hsorted.imp fun h => of_decide_eq_true h
  have hne : d.enOrdre.Pairwise fun a b => a.1 ≠ b.1 := by
    have hnodup : (d.enOrdre.map Prod.fst).Nodup :=
      (d.enOrdre_perm.map Prod.fst).nodup_iff.mpr d.distincts
    exact List.pairwise_map.mp hnodup
  exact (hle.and hne).imp fun h => lt_of_le_of_ne h.1 h.2

theorem enOrdre_eq (h : d.fichiers.Pairwise fun a b => a.1 < b.1) : d.enOrdre = d.fichiers := by
  apply List.mergeSort_of_pairwise
  exact h.imp fun hlt => decide_eq_true hlt.le

theorem meme_iff : d'.Meme d ↔ d'.enOrdre = d.enOrdre := by
  constructor
  · intro h
    have hperm : d'.enOrdre.Perm d.enOrdre :=
      d'.enOrdre_perm.trans (h.trans d.enOrdre_perm.symm)
    apply hperm.eq_of_pairwise _ d'.pairwise_enOrdre d.pairwise_enOrdre
    intro a b _ _ hab hba
    exact absurd hab hba.asymm
  · intro h
    exact d'.enOrdre_perm.symm.trans (h ▸ d.enOrdre_perm)

theorem relatif_of_mem (d : Dossier) {fichier : String × Octets} (h : fichier ∈ d.enOrdre) :
    Relatif fichier.1 :=
  d.relatifs _ (List.mem_map_of_mem (d.enOrdre_perm.subset h))

def seul (chemin : String) (h : Relatif chemin) (octets : Octets) : Dossier where
  fichiers := [(chemin, octets)]
  distincts := List.nodup_singleton _
  relatifs := by simpa using h

def deux {p q : String} (hp : Relatif p) (hq : Relatif q) (hlt : p < q) (c c' : Octets) :
    Dossier where
  fichiers := [(p, c), (q, c')]
  distincts := by simpa using hlt.ne
  relatifs := by
    intro chemin h
    simp only [List.map_cons, List.map_nil, List.mem_cons, List.not_mem_nil, or_false] at h
    rcases h with rfl | rfl
    · exact hp
    · exact hq

end Dossier

variable {d d' : Dossier} {p q : String} {c c' : Octets}

theorem flux_singleton {fichier : String × Octets} (h : d.fichiers = [fichier]) :
    flux d = enregistrement fichier := by
  rw [flux, Dossier.enOrdre_eq (h ▸ List.pairwise_singleton _ _), h]
  exact List.append_nil _

theorem flux_deux (hp : Relatif p) (hq : Relatif q) (hlt : p < q) :
    flux (.deux hp hq hlt c c') = enregistrement (p, c ++ enregistrement (q, c')) := by
  have hsorted : (Dossier.deux hp hq hlt c c').fichiers.Pairwise fun a b => a.1 < b.1 :=
    List.pairwise_pair.mpr hlt
  rw [flux, Dossier.enOrdre_eq hsorted]
  simp [Dossier.deux, enregistrement]

/-- One file at most, whose bytes are not cut by a path that may follow its own. -/
def Univoque (d : Dossier) : Prop :=
  d.fichiers.length ≤ 1 ∧
    ∀ p c, (p, c) ∈ d.fichiers → ∀ debut q fin, c = debut ++ enregistrement (q, fin) → Relatif q →
      ¬ p < q

theorem enregistrement_append_inj {suite suite' : Octets} (hp : Relatif p) (hq : Relatif q) :
    enregistrement (p, c) ++ suite = enregistrement (q, c') ++ suite' ↔
      p = q ∧ c ++ suite = c' ++ suite' := by
  have hcoupe : ∀ {fin : Octets} a, (0 :: fin : Octets).head? = some a → ¬ a ≠ 0 := by
    simp
  unfold enregistrement
  simp only [List.append_assoc, List.cons_append]
  constructor
  · intro h
    obtain ⟨hutf8, hfin⟩ := Texte.coupe_unique h (ne_zero_of_mem_utf8 hp)
      (ne_zero_of_mem_utf8 hq) hcoupe hcoupe
    exact ⟨utf8_injective hutf8, (List.cons.inj hfin).2⟩
  · rintro ⟨rfl, hsuite⟩
    rw [hsuite]

theorem Univoque.meme (h : Univoque d) (hflux : flux d' = flux d) : d'.Meme d := by
  rw [Dossier.meme_iff]
  unfold flux at hflux
  have hlen : d.enOrdre.length ≤ 1 := d.enOrdre_perm.length_eq ▸ h.1
  match hd : d.enOrdre, hd' : d'.enOrdre with
  | [], [] => rfl
  | [], f :: suite =>
      rw [hd, hd'] at hflux
      simp [enregistrement] at hflux
  | f :: suite, [] =>
      rw [hd, hd'] at hflux
      simp [enregistrement] at hflux
  | f :: g :: suite, _ =>
      rw [hd] at hlen
      simp at hlen
  | [(p, c)], (p', c') :: suite =>
      have hfichier : (p, c) ∈ d.enOrdre := by simp [hd]
      have hfichier' : (p', c') ∈ d'.enOrdre := by simp [hd']
      rw [hd, hd', List.flatMap_cons, List.flatMap_cons,
        enregistrement_append_inj (d'.relatif_of_mem hfichier') (d.relatif_of_mem hfichier)] at hflux
      obtain ⟨rfl, hoctets⟩ := hflux
      rw [List.flatMap_nil, List.append_nil] at hoctets
      cases suite with
      | nil => rw [← hoctets, List.flatMap_nil, List.append_nil]
      | cons g suite =>
          -- the bytes of the file hold the record of the second path
          obtain ⟨q, cq⟩ := g
          have hsorted := d'.pairwise_enOrdre
          rw [hd'] at hsorted
          have hlt : p' < q := (List.pairwise_cons.mp hsorted).1 (q, cq) List.mem_cons_self
          have hsecond : (q, cq) ∈ d'.enOrdre := by simp [hd']
          refine absurd hlt (h.2 p' c (d.enOrdre_perm.subset hfichier) c' q
            (cq ++ suite.flatMap enregistrement) ?_ (d'.relatif_of_mem hsecond))
          rw [← hoctets]
          simp [enregistrement]

theorem univoque_iff (d : Dossier) : Univoque d ↔ ∀ d', flux d' = flux d → d'.Meme d := by
  constructor
  · intro h d' hflux
    exact h.meme hflux
  · intro h
    have hlen : d.fichiers.length ≤ 1 := by
      by_contra hlen
      rw [← d.enOrdre_perm.length_eq] at hlen
      match hd : d.enOrdre with
      | [] => simp [hd] at hlen
      | (p, c) :: suite =>
          -- all the records after the first one, as the end of its bytes
          have hfichier : (p, c) ∈ d.enOrdre := by simp [hd]
          let d' : Dossier :=
            .seul p (d.relatif_of_mem hfichier) (c ++ suite.flatMap enregistrement)
          have hflux : flux d' = flux d := by
            rw [flux_singleton (d := d') rfl, flux, hd]
            simp [enregistrement]
          have hmeme := (h d' hflux).length_eq
          rw [← d.enOrdre_perm.length_eq] at hmeme
          exact hlen hmeme.ge
    refine ⟨hlen, ?_⟩
    rintro p c hmem debut q fin rfl hq hlt
    have hp : Relatif p := d.relatifs p (List.mem_map_of_mem hmem)
    have hseul : d.fichiers = [(p, debut ++ enregistrement (q, fin))] := by
      match hd : d.fichiers with
      | [] => simp [hd] at hmem
      | [f] => simpa [hd, eq_comm] using hmem
      | f :: g :: suite => simp [hd] at hlen
    -- the same bytes, read as two files
    let d' : Dossier := .deux hp hq hlt debut fin
    have hmeme := (h d' (by rw [flux_deux, flux_singleton hseul])).length_eq
    rw [hseul] at hmeme
    cases hmeme

variable {sha256 : Octets → String}

/-- No other bytes of a directory have the fingerprint of this one. -/
def SansCollision (sha256 : Octets → String) (d : Dossier) : Prop :=
  ∀ d', empreinte sha256 d' = empreinte sha256 d → flux d' = flux d

/-- What the fingerprint of a directory owes: its bytes are those of no other one, and an entry
recorded with it is reported as it was only for that directory. -/
structure Fiable (sha256 : Octets → String) (d : Dossier) : Prop where
  flux : ∀ d', flux d' = flux d ↔ d'.Meme d
  conforme : ∀ disque verrou, ∀ p ∈ posees sha256 disque verrou,
    p.empreinteAttendue = empreinte sha256 d → p.etat = CONFORME →
      ∃ d', disque (place p.nom p.chemin) = .dossier d' ∧ d'.Meme d

theorem flux_of_meme (h : d'.Meme d) : flux d' = flux d := by
  rw [flux, flux, Dossier.meme_iff.mp h]

theorem empreinte_of_conforme {disque : String → Disque} {verrou : Dict String (Option Entree)}
    {p : Posee} (hp : p ∈ posees sha256 disque verrou) (hetat : p.etat = CONFORME) :
    ∃ d', disque (place p.nom p.chemin) = .dossier d' ∧
      empreinte sha256 d' = p.empreinteAttendue := by
  obtain ⟨⟨nom, entree⟩, -, hposer⟩ := List.mem_filterMap.mp hp
  obtain ⟨entree, -, rfl⟩ := Option.map_eq_some_iff.mp hposer
  simp only [poser, confronter] at hetat ⊢
  cases hdisque : disque (place nom entree.installPath) with
  | absent =>
      rw [hdisque] at hetat
      exact absurd (show ANNONCEE_ABSENTE = CONFORME from hetat) (by decide)
  | illisible =>
      rw [hdisque] at hetat
      exact absurd (show ALTEREE = CONFORME from hetat) (by decide)
  | dossier d' =>
      rw [hdisque] at hetat
      dsimp only at hetat
      split_ifs at hetat with hreelle
      · exact ⟨d', rfl, hreelle.2⟩
      · exact absurd hetat (by decide)

theorem fiable_iff (h : SansCollision sha256 d) : Fiable sha256 d ↔ Univoque d := by
  constructor
  · intro hfiable
    rw [univoque_iff]
    intro d' hflux
    exact (hfiable.flux d').mp hflux
  · intro hunivoque
    refine ⟨fun d' => ⟨hunivoque.meme, flux_of_meme⟩, ?_⟩
    intro disque verrou p hp hattendue hetat
    obtain ⟨d', hdisque, hempreinte⟩ := empreinte_of_conforme hp hetat
    exact ⟨d', hdisque, hunivoque.meme (h d' (hempreinte.trans hattendue))⟩

/-- A directory of one file, `SKILL.md`, with `docker` for its text. -/
def docker : Dossier := .seul "SKILL.md" (by decide +kernel) (utf8 "docker")

/-- The digest of that directory, and another one for everything else. -/
def digeste (octets : Octets) : String :=
  if octets = flux docker then "0462a9f862f8101d996c49f7a7560563e62ca7505b49d7e5f53e860af41f073d"
  else ""

theorem fiable_docker : Fiable digeste docker ↔ Univoque docker := by
  apply fiable_iff
  intro d' h
  by_contra hne
  rw [empreinte, empreinte, digeste, digeste, if_neg hne, if_pos rfl] at h
  revert h
  decide +kernel

/-- A directory of two files, and that of the first one when it has taken in the second. -/
theorem second_fichier_absorbe :
    ¬ ∀ d d' : Dossier, flux d' = flux d ↔ d'.Meme d := by
  intro h
  have hp : Relatif "SKILL.md" := by decide +kernel
  have hq : Relatif "run.sh" := by decide +kernel
  let d : Dossier := .deux hp hq (by decide +kernel) (utf8 "docker") (utf8 "ls")
  let d' : Dossier := .seul "SKILL.md" hp (utf8 "docker" ++ enregistrement ("run.sh", utf8 "ls"))
  have hmeme := ((h d d').mp (by rw [flux_deux, flux_singleton (d := d') rfl])).length_eq
  cases hmeme

end Hermes.Skills.Gouvernance
