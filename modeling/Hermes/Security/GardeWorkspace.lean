import Hermes.Lib.Dict
import Hermes.Lib.Json
import Hermes.Lib.Motif
import Hermes.Lib.NtChemin
import Hermes.Lib.Texte
import Mathlib.Data.List.Dedup
import Mathlib.Data.List.Sort
import Mathlib.Data.String.Basic

/-! # The guard of the workspace

A hook reads the texts of a tool call before it is made.
-/

namespace Hermes.GardeWorkspace

open Lib NtChemin

/-- What the host decides: its case tables, the letters of words, the order in which a set is
listed, the current directory, and the protected documents when their list can be read. -/
structure Hote where
  cwd : NtChemin.Texte
  bas : Char → Char
  meme : Char → Char → Bool
  mot : Char → Bool
  ordre : List NtChemin.Texte → List NtChemin.Texte
  perm : ∀ formes, (ordre formes).Perm formes
  proteges : Option String

def OUTILS_SURVEILLES : List String := ["terminal", "execute_code", "run_command", "bash", "shell"]

def OUTILS_ECRIVANT : List String :=
  ["write_file", "patch", "edit_file", "create_file", "str_replace", "apply_patch"]

def lettre (c : Char) : Bool :=
  (65 ≤ c.toNat && c.toNat ≤ 90) || (97 ≤ c.toNat && c.toNat ≤ 122)

def arret (c : Char) : Bool := Texte.estBlanc c || c ∈ ['"', '\'', '|', ';', '&', '>']

def corps (t : NtChemin.Texte) : NtChemin.Texte := t.takeWhile fun c => !arret c

def montage (t : NtChemin.Texte) : NtChemin.Texte :=
  if "cygdrive/".toList.isPrefixOf t then "cygdrive/".toList
  else if "mnt/".toList.isPrefixOf t then "mnt/".toList
  else []

/-- `C:\x` or `C:/x`. -/
def absoluLecteur : NtChemin.Texte → Option NtChemin.Texte
  | l :: ':' :: s :: t => if lettre l && estSep s then some (l :: ':' :: s :: corps t) else none
  | _ => none

/-- `\\serveur\partage`. -/
def absoluPartage : NtChemin.Texte → Option NtChemin.Texte
  | '\\' :: '\\' :: t => if corps t = [] then none else some ('\\' :: '\\' :: corps t)
  | _ => none

/-- `/c/x`, and the same below a mount point. -/
def absoluGitBash : NtChemin.Texte → Option NtChemin.Texte
  | '/' :: t =>
      match t.drop (montage t).length with
      | l :: '/' :: suite =>
          if lettre l then some ('/' :: montage t ++ l :: '/' :: corps suite) else none
      | _ => none
  | _ => none

/-- The match of `_ABSOLUS` at the beginning of a text. -/
def absolu (t : NtChemin.Texte) : Option NtChemin.Texte :=
  ((absoluLecteur t).or (absoluPartage t)).or (absoluGitBash t)

/-- `_ABSOLUS.findall`, once `n` characters have been passed over. -/
def absolusDepuis : Nat → NtChemin.Texte → List NtChemin.Texte
  | _, [] => []
  | n + 1, _ :: t => absolusDepuis n t
  | 0, c :: t =>
      match absolu (c :: t) with
      | some m => m :: absolusDepuis (m.length - 1) t
      | none => absolusDepuis 0 t

def absolus (t : NtChemin.Texte) : List NtChemin.Texte := absolusDepuis 0 t

/-- What follows the letter of a drive: nothing, or a slash and one line. -/
def suiteDeLecteur : NtChemin.Texte → Option NtChemin.Texte
  | [] => some []
  | ['\n'] => some []
  | '/' :: t =>
      let ligne := if t.getLast? = some '\n' then t.dropLast else t
      if '\n' ∈ ligne then none else some ('/' :: ligne)
  | _ => none

def enWindows (chemin : NtChemin.Texte) : NtChemin.Texte :=
  match chemin with
  | '/' :: t =>
      match t.drop (montage t).length with
      | l :: suite =>
          if lettre l then
            match suiteDeLecteur suite with
            | some suite => l.toUpper :: ':' :: versSep suite
            | none => chemin
          else chemin
      | [] => chemin
  | _ => chemin

section Garde

variable (h : Hote)

def normal (chemin : NtChemin.Texte) : NtChemin.Texte := normcase h.bas (abspath h.bas h.cwd chemin)

def dedans (chemin racine : NtChemin.Texte) : Bool :=
  let vise := normal h (enWindows chemin)
  let base := normal h racine
  vise = base || (base ++ [sep]).isPrefixOf vise

def versBarre (t : NtChemin.Texte) : NtChemin.Texte := t.map fun c => if c = sep then '/' else c

/-- `base.replace(" ", par)`. -/
def remplacerBlancs (par base : NtChemin.Texte) : NtChemin.Texte :=
  base.flatMap fun c => if c = ' ' then par else [c]

def graphies (racine : NtChemin.Texte) : List NtChemin.Texte :=
  [racine, versBarre racine, versSep racine]

/-- What is written instead of a blank: separators, or an escaped blank. -/
def deformations (base : NtChemin.Texte) : List NtChemin.Texte :=
  if ' ' ∈ base then
    [remplacerBlancs [sep] base, remplacerBlancs ['/'] base, remplacerBlancs [sep, ' '] base]
  else []

def gitBash (racine : NtChemin.Texte) : List NtChemin.Texte :=
  match racine with
  | l :: ':' :: c :: suite => [['/', l.toLower] ++ versBarre (c :: suite)]
  | _ => []

def formes (racine : NtChemin.Texte) : List NtChemin.Texte :=
  (graphies racine ++ (graphies racine).flatMap deformations ++ gitBash racine).dedup

/-- The text begins with the form, whatever the case. -/
def commence : NtChemin.Texte → NtChemin.Texte → Bool
  | [], _ => true
  | _ :: _, [] => false
  | f :: forme, c :: t => h.meme f c && commence forme t

/-- Each occurrence of the form becomes a blank, once `n` characters have been passed over. -/
def effacerDepuis (forme : NtChemin.Texte) : Nat → NtChemin.Texte → NtChemin.Texte
  | _, [] => []
  | n + 1, _ :: t => effacerDepuis forme n t
  | 0, c :: t =>
      if commence h forme (c :: t) then ' ' :: effacerDepuis forme (forme.length - 1) t
      else c :: effacerDepuis forme 0 t

def formesTriees (racine : NtChemin.Texte) : List NtChemin.Texte :=
  (h.ordre (formes racine)).insertionSort fun f g => g.length ≤ f.length

def sansLeWorkspace (texte racine : NtChemin.Texte) : NtChemin.Texte :=
  if racine = [] then texte
  else (formesTriees h racine).foldl (fun reste forme => effacerDepuis h forme 0 reste) texte

def cheminsSuspects (texte racine : NtChemin.Texte) : List NtChemin.Texte :=
  (absolus (sansLeWorkspace h texte racine)).filter fun c => !dedans h c racine

def ecrituresMots : Motif := ⟨true, ["tee", "mv", "cp", "set-content", "out-file", "add-content"]⟩

/-- `\bsed\s+-i\b`. -/
def sedSurPlace : Option Char → NtChemin.Texte → Bool
  | avant, t =>
      (match Motif.prefixe "sed".toList t with
        | some (_, reste) =>
            Motif.limite h.mot avant t.head? && reste.head?.any Texte.estBlanc &&
              match Motif.prefixe "-i".toList (reste.dropWhile Texte.estBlanc) with
              | some (option, apres) => Motif.limite h.mot option.getLast? apres.head?
              | none => false
        | none => false) ||
      match t with
      | [] => false
      | c :: suite => sedSurPlace (some c) suite

def ecritures (texte : NtChemin.Texte) : Bool :=
  '>' ∈ texte || (Motif.chercherDepuis h.mot ecrituresMots none texte).isSome ||
    sedSurPlace h none texte

def documentsDEntree : List String :=
  match h.proteges with
  | none => []
  | some texte =>
      ((Texte.splitlines texte).map Texte.strip).filter fun ligne =>
        ligne ≠ "" ∧ !("#".toList.isPrefixOf ligne.toList)

def documentNomme (nom : NtChemin.Texte) : Option String :=
  (documentsDEntree h).find? fun document =>
    nom ≠ [] && nom = basename (versSep document.toList)

/-- `texte.replace("'", " ").replace('"', " ").split()`. -/
def jetons (texte : NtChemin.Texte) : List NtChemin.Texte :=
  (texte.splitOnP fun c => Texte.estBlanc c || c = '\'' || c = '"').filter fun j => j ≠ []

def ecraseUnDocumentDEntree (texte : NtChemin.Texte) : Option String :=
  if !ecritures h texte then none
  else
    match (jetons texte).getLast? with
    | none => none
    | some cible => documentNomme h (basename (versSep cible))

structure Blocage where
  message : String
  deriving DecidableEq

def messageEcriture (document : String) : Blocage where
  message := "Refuse par Hermes OS : " ++ document ++ " definit le travail a faire, il n'en " ++
    "fait pas partie. Deux campagnes ont deja remplace ce cahier par la section en cours, et " ++
    "toutes les sections suivantes ont travaille sur du vide. Lis-le autant que tu veux ; " ++
    "ecris tes livrables ailleurs."

def messageEcrasement (document : String) : Blocage where
  message := "Refuse par Hermes OS : " ++ document ++ " definit le travail a faire, il n'en " ++
    "fait pas partie. Une campagne a deja remplace un cahier des charges de 1136 lignes par " ++
    "trois, et les vingt sections suivantes ont travaille sur du vide. Lis-le autant que tu veux ; " ++
    "ecris tes livrables ailleurs."

def messageSuspects (suspects : List NtChemin.Texte) (racine : String) : Blocage where
  message := "Refusé par Hermes OS : cette commande vise " ++
    ", ".intercalate (((suspects.map String.ofList).dedup.insertionSort fun a b => a ≤ b).take 3) ++
    ", hors du workspace confié (" ++ racine ++ "). Travaille dans le workspace, avec des " ++
    "chemins relatifs."

def arguments (charge : Dict String Json) : Option (Dict String Json) :=
  ["tool_input", "args"].findSome? fun cle =>
    match charge.get? cle with
    | some (.objet items) => some items
    | _ => none

def toolName (charge : Dict String Json) : String :=
  match charge.get? "tool_name" with
  | some (.texte outil) => outil
  | _ => ""

/-- The protected document that a text names as a path. -/
def documentVise (valeur : Json) : Option String :=
  match valeur with
  | .texte v => documentNomme h (basename (versSep (enWindows v.toList)))
  | _ => none

/-- The paths that the texts aim at, unless one of them writes over a document. -/
def regarder (racine : NtChemin.Texte) : List Json → Except String (List NtChemin.Texte)
  | [] => .ok []
  | .texte v :: valeurs =>
      match ecraseUnDocumentDEntree h v.toList with
      | some document => .error document
      | none => (regarder racine valeurs).map fun l => cheminsSuspects h v.toList racine ++ l
  | _ :: valeurs => regarder racine valeurs

def verdict (charge : Dict String Json) (racine : String) : Option Blocage :=
  if racine = "" then none
  else if toolName charge ∉ OUTILS_SURVEILLES ∧ toolName charge ∉ OUTILS_ECRIVANT then none
  else
    match arguments charge with
    | none => none
    | some args =>
        match if toolName charge ∈ OUTILS_ECRIVANT then
            (args.map Prod.snd).findSome? (documentVise h) else none with
        | some document => some (messageEcriture document)
        | none =>
            match regarder h racine.toList (args.map Prod.snd) with
            | .error document => some (messageEcrasement document)
            | .ok [] => none
            | .ok suspects => some (messageSuspects suspects racine)

end Garde

/-- A text that begins as an absolute path: a drive, a share or a drive of Git Bash. -/
inductive Graphie : NtChemin.Texte → Prop
  | lecteur {l s : Char} (t : NtChemin.Texte) (hl : lettre l = true) (hs : estSep s = true) :
      Graphie (l :: ':' :: s :: t)
  | partage {c : Char} (t : NtChemin.Texte) (hc : arret c = false) :
      Graphie ('\\' :: '\\' :: c :: t)
  | gitBash {m : NtChemin.Texte} {l : Char} (t : NtChemin.Texte)
      (hm : m ∈ [[], "cygdrive/".toList, "mnt/".toList]) (hl : lettre l = true) :
      Graphie ('/' :: m ++ l :: '/' :: t)

def ContientAbsolu (t : NtChemin.Texte) : Prop := ∃ g, g <:+ t ∧ Graphie g

section Lecture

variable {t g : NtChemin.Texte} {c l s : Char}

theorem arret_of_lettre (h : lettre c = true) : arret c = false := by
  simp only [lettre, Bool.or_eq_true, Bool.and_eq_true, decide_eq_true_eq] at h
  have hblanc : Texte.estBlanc c = false := by
    rw [← Bool.not_eq_true]
    simp only [Texte.estBlanc, Bool.or_eq_true, Bool.and_eq_true, decide_eq_true_eq, beq_iff_eq]
    omega
  have hcodes : ['"', '\'', '|', ';', '&', '>'].all (fun d => d.toNat < 65 || d.toNat = 124) =
      true := by decide
  unfold arret
  rw [hblanc, Bool.false_or, decide_eq_false_iff_not]
  intro hmem
  have hcode := List.all_eq_true.mp hcodes c hmem
  simp only [Bool.or_eq_true, decide_eq_true_eq] at hcode
  omega

theorem arret_of_estSep (h : estSep s = true) : arret s = false := by
  simp only [estSep, Bool.or_eq_true, decide_eq_true_eq] at h
  cases h with
  | inl h => rw [h]; decide
  | inr h => rw [h]; decide

theorem corps_cons (h : arret c = false) (t : NtChemin.Texte) : corps (c :: t) = c :: corps t := by
  simp [corps, h]

theorem corps_append {m : NtChemin.Texte} (h : ∀ c ∈ m, arret c = false) (t : NtChemin.Texte) :
    corps (m ++ t) = m ++ corps t := by
  unfold corps
  rw [List.takeWhile_append_of_pos]
  intro c hc
  rw [h c hc]
  rfl

theorem montage_prefix (t : NtChemin.Texte) :
    montage t ∈ [[], "cygdrive/".toList, "mnt/".toList] ∧ montage t <+: t := by
  unfold montage
  split
  · next h => exact ⟨by simp, List.isPrefixOf_iff_prefix.mp h⟩
  · split
    · next h => exact ⟨by simp, List.isPrefixOf_iff_prefix.mp h⟩
    · exact ⟨by simp, List.nil_prefix⟩

theorem graphie_of_lecteur {m : NtChemin.Texte} (h : absoluLecteur t = some m) : Graphie t := by
  unfold absoluLecteur at h
  split at h
  · next l s t =>
      split at h
      · next hls =>
          rw [Bool.and_eq_true] at hls
          exact Graphie.lecteur t hls.1 hls.2
      · cases h
  · cases h

theorem graphie_of_partage {m : NtChemin.Texte} (h : absoluPartage t = some m) : Graphie t := by
  unfold absoluPartage at h
  split at h
  · next t =>
      split at h
      · cases h
      · next hcorps =>
          match t with
          | [] => exact absurd rfl hcorps
          | c :: t =>
              apply Graphie.partage
              rw [← Bool.not_eq_true]
              intro hc
              apply hcorps
              unfold corps
              simp [hc]
  · cases h

theorem graphie_of_gitBash {m : NtChemin.Texte} (h : absoluGitBash t = some m) : Graphie t := by
  unfold absoluGitBash at h
  split at h
  · next t =>
      split at h
      · next l suite hdrop =>
          split at h
          · next hl =>
              have hm := montage_prefix t
              have ht : t = montage t ++ l :: '/' :: suite := by
                rw [← hdrop]
                exact (List.prefix_iff_eq_append.mp hm.2).symm
              rw [ht]
              exact Graphie.gitBash suite hm.1 hl
          · cases h
      · cases h
  · cases h

theorem graphie_of_absolu {m : NtChemin.Texte} (h : absolu t = some m) : Graphie t := by
  unfold absolu at h
  rw [Option.or_eq_some_iff, Option.or_eq_some_iff] at h
  rcases h with (h | ⟨_, h⟩) | ⟨_, h⟩
  · exact graphie_of_lecteur h
  · exact graphie_of_partage h
  · exact graphie_of_gitBash h

theorem absoluLecteur_barre (t : NtChemin.Texte) : absoluLecteur ('/' :: t) = none := by
  unfold absoluLecteur
  split
  · next heq =>
      cases heq
      rfl
  · rfl

theorem montage_of_gitBash {m : NtChemin.Texte}
    (hm : m ∈ [[], "cygdrive/".toList, "mnt/".toList]) (t : NtChemin.Texte) :
    montage (m ++ l :: '/' :: t) = m := by
  simp only [List.mem_cons, List.not_mem_nil, or_false] at hm
  rcases hm with rfl | rfl | rfl
  · unfold montage
    rw [if_neg, if_neg]
    · simp
    · simp
  · rfl
  · rfl

theorem arret_of_montage {m : NtChemin.Texte}
    (hm : m ∈ [[], "cygdrive/".toList, "mnt/".toList]) : ∀ c ∈ m, arret c = false := by
  have hnets : [[], "cygdrive/".toList, "mnt/".toList].all (fun m => m.all fun c => !arret c) =
      true := by decide +kernel
  intro c hc
  simpa using List.all_eq_true.mp (List.all_eq_true.mp hnets m hm) c hc

theorem absolu_of_graphie (h : Graphie t) : absolu t = some (corps t) := by
  cases h with
  | lecteur t hl hs =>
      rw [corps_cons (arret_of_lettre hl), corps_cons (by decide), corps_cons (arret_of_estSep hs)]
      simp [absolu, absoluLecteur, hl, hs]
  | partage t hc =>
      rw [corps_cons (by decide), corps_cons (by decide)]
      simp [absolu, absoluLecteur, absoluPartage, corps_cons hc]
  | gitBash t hm hl =>
      rename_i m l
      rw [List.cons_append, corps_cons (by decide), corps_append (arret_of_montage hm),
        corps_cons (arret_of_lettre hl), corps_cons (by decide)]
      have hgit : absoluGitBash ('/' :: (m ++ l :: '/' :: t)) =
          some ('/' :: (m ++ l :: '/' :: corps t)) := by
        simp [absoluGitBash, montage_of_gitBash hm, hl]
      unfold absolu
      rw [hgit, absoluLecteur_barre]
      rfl

/-! The few characters by which an absolute path is told hold no blank, and can be seen in any text
that holds them. -/

inductive Fenetre : NtChemin.Texte → Prop
  | lecteur {l s : Char} (hl : lettre l = true) (hs : estSep s = true) : Fenetre [l, ':', s]
  | partage {c : Char} (hc : arret c = false) : Fenetre ['\\', '\\', c]
  | gitBash {l : Char} (hl : lettre l = true) : Fenetre ['/', l, '/']

theorem graphie_of_fenetre {w : NtChemin.Texte} (h : Fenetre w) (t : NtChemin.Texte) :
    Graphie (w ++ t) := by
  cases h with
  | lecteur hl hs => exact Graphie.lecteur t hl hs
  | partage hc => exact Graphie.partage t hc
  | gitBash hl => exact Graphie.gitBash t (List.mem_cons_self) hl

theorem fenetre_of_graphie (h : Graphie g) : ∃ w, Fenetre w ∧ w <:+: g := by
  cases h with
  | lecteur t hl hs => exact ⟨_, .lecteur hl hs, ⟨[], t, rfl⟩⟩
  | partage t hc => exact ⟨_, .partage hc, ⟨[], t, rfl⟩⟩
  | gitBash t hm hl =>
      simp only [List.mem_cons, List.not_mem_nil, or_false] at hm
      rcases hm with rfl | rfl | rfl
      · exact ⟨_, .gitBash hl, ⟨[], t, rfl⟩⟩
      · exact ⟨_, .gitBash hl, ⟨"/cygdrive".toList, t, rfl⟩⟩
      · exact ⟨_, .gitBash hl, ⟨"/mnt".toList, t, rfl⟩⟩

theorem blanc_of_fenetre {w : NtChemin.Texte} (h : Fenetre w) : ' ' ∉ w := by
  have hblanc : ∀ c, arret c = false → ' ' ≠ c := by
    intro c hc heq
    rw [← heq] at hc
    exact absurd hc (by decide)
  cases h with
  | lecteur hl hs => simp [hblanc _ (arret_of_lettre hl), hblanc _ (arret_of_estSep hs)]
  | partage hc => simp [hblanc _ hc]
  | gitBash hl => simp [hblanc _ (arret_of_lettre hl)]

theorem contientAbsolu_iff : ContientAbsolu t ↔ ∃ w, Fenetre w ∧ w <:+: t := by
  constructor
  · intro h
    obtain ⟨g, hg, hgraphie⟩ := h
    obtain ⟨w, hw, hinfix⟩ := fenetre_of_graphie hgraphie
    exact ⟨w, hw, hinfix.trans hg.isInfix⟩
  · intro h
    obtain ⟨w, hw, a, b, ht⟩ := h
    exact ⟨w ++ b, ⟨a, by rw [← ht, List.append_assoc]⟩, graphie_of_fenetre hw b⟩

theorem not_graphie_blanc (t : NtChemin.Texte) : ¬ Graphie (' ' :: t) := by
  intro h
  cases h with
  | lecteur t hl hs => exact absurd hl (by decide)

theorem contientAbsolu_cons (h : ContientAbsolu t) (c : Char) : ContientAbsolu (c :: t) := by
  obtain ⟨g, hg, hgraphie⟩ := h
  exact ⟨g, hg.trans (List.suffix_cons c t), hgraphie⟩

theorem absolusDepuis_nil (h : ¬ ContientAbsolu t) (n : Nat) : absolusDepuis n t = [] := by
  induction t generalizing n with
  | nil => cases n <;> rfl
  | cons c t ih =>
      have hsuite : ¬ ContientAbsolu t := fun hc => h (contientAbsolu_cons hc c)
      cases n with
      | zero =>
          unfold absolusDepuis
          cases habsolu : absolu (c :: t) with
          | none => exact ih hsuite 0
          | some m => exact absurd ⟨_, List.suffix_rfl, graphie_of_absolu habsolu⟩ h
      | succ n => exact ih hsuite n

theorem absolusDepuis_of_length_le {n : Nat} (h : t.length ≤ n) : absolusDepuis n t = [] := by
  induction t generalizing n with
  | nil => cases n <;> rfl
  | cons c t ih =>
      cases n with
      | zero => exact absurd h (by simp)
      | succ n =>
          apply ih
          rw [List.length_cons] at h
          omega

theorem absolus_of_graphie (h : Graphie t) :
    absolus t = corps t :: absolusDepuis ((corps t).length - 1) t.tail := by
  have habsolu := absolu_of_graphie h
  cases t with
  | nil => cases h
  | cons c t =>
      unfold absolus
      rw [absolusDepuis, habsolu]
      rfl

end Lecture

section Effacement

variable {h : Hote} {forme t u : NtChemin.Texte}

theorem effacerDepuis_eq (hforme : ∀ g, g <:+ t → g ≠ [] → commence h forme g = false) :
    effacerDepuis h forme 0 t = t := by
  induction t with
  | nil => rfl
  | cons c t ih =>
      unfold effacerDepuis
      rw [hforme (c :: t) List.suffix_rfl (List.cons_ne_nil c t),
        ih fun g hg => hforme g (hg.trans (List.suffix_cons c t))]
      rfl

theorem prefix_effacer (hblanc : ' ' ∉ u) (hu : u <+: effacerDepuis h forme 0 t) : u <+: t := by
  induction t generalizing u with
  | nil => exact hu
  | cons c t ih =>
      cases u with
      | nil => exact List.nil_prefix
      | cons d u =>
          unfold effacerDepuis at hu
          split at hu
          · rw [List.cons_prefix_cons] at hu
            rw [hu.1] at hblanc
            exact absurd List.mem_cons_self hblanc
          · rw [List.cons_prefix_cons] at hu ⊢
            exact ⟨hu.1, ih (fun hmem => hblanc (List.mem_cons_of_mem d hmem)) hu.2⟩

theorem infix_effacer (hblanc : ' ' ∉ u) (n : Nat) (hu : u <:+: effacerDepuis h forme n t) :
    u <:+: t := by
  induction t generalizing n with
  | nil =>
      cases n <;> exact hu
  | cons c t ih =>
      cases n with
      | succ n =>
          unfold effacerDepuis at hu
          exact (ih n hu).trans (List.suffix_cons c t).isInfix
      | zero =>
          by_cases hprefix : u <+: effacerDepuis h forme 0 (c :: t)
          · exact (prefix_effacer hblanc hprefix).isInfix
          · have hsuite : ∃ n, u <:+: effacerDepuis h forme n t := by
              unfold effacerDepuis at hu hprefix
              split at hu
              · next hc =>
                  rw [if_pos hc] at hprefix
                  exact ⟨_, (List.infix_cons_iff.mp hu).resolve_left hprefix⟩
              · next hc =>
                  rw [if_neg hc] at hprefix
                  exact ⟨_, (List.infix_cons_iff.mp hu).resolve_left hprefix⟩
            obtain ⟨n, hsuite⟩ := hsuite
            exact (ih n hsuite).trans (List.suffix_cons c t).isInfix

theorem contientAbsolu_of_effacer (n : Nat) (hc : ContientAbsolu (effacerDepuis h forme n t)) :
    ContientAbsolu t := by
  rw [contientAbsolu_iff] at hc ⊢
  obtain ⟨w, hw, hinfix⟩ := hc
  exact ⟨w, hw, infix_effacer (blanc_of_fenetre hw) n hinfix⟩

variable {racine : NtChemin.Texte} {formes' : List NtChemin.Texte}

/-- The spellings of the workspace do not occur in a text. -/
def SansGraphie (h : Hote) (racine t : NtChemin.Texte) : Prop :=
  ∀ forme ∈ formes racine, ∀ g, g <:+ t → g ≠ [] → commence h forme g = false

def AuDebut (h : Hote) (racine t : NtChemin.Texte) : Prop :=
  ∃ forme ∈ formes racine, commence h forme t = true

theorem mem_formesTriees : forme ∈ formesTriees h racine ↔ forme ∈ formes racine := by
  unfold formesTriees
  rw [List.mem_insertionSort]
  exact (h.perm _).mem_iff

theorem sansLeWorkspace_eq (hsans : SansGraphie h racine t) : sansLeWorkspace h t racine = t := by
  unfold sansLeWorkspace
  split
  · rfl
  · have hstable : ∀ l : List NtChemin.Texte, (∀ forme ∈ l, forme ∈ formes racine) →
        l.foldl (fun reste forme => effacerDepuis h forme 0 reste) t = t := by
      intro l hl
      induction l with
      | nil => rfl
      | cons forme l ih =>
          rw [List.foldl_cons, effacerDepuis_eq (hsans forme (hl forme List.mem_cons_self))]
          exact ih fun f hf => hl f (List.mem_cons_of_mem forme hf)
    exact hstable _ fun forme hforme => mem_formesTriees.mp hforme

theorem contientAbsolu_of_effacements (l : List NtChemin.Texte)
    (hc : ContientAbsolu (l.foldl (fun reste forme => effacerDepuis h forme 0 reste) t)) :
    ContientAbsolu t := by
  induction l generalizing t with
  | nil => exact hc
  | cons forme l ih => exact contientAbsolu_of_effacer 0 (ih hc)

theorem contientAbsolu_of_sansLeWorkspace (hc : ContientAbsolu (sansLeWorkspace h t racine)) :
    ContientAbsolu t := by
  unfold sansLeWorkspace at hc
  split at hc
  · exact hc
  · exact contientAbsolu_of_effacements _ hc

theorem not_contientAbsolu_effacer (htail : ¬ ContientAbsolu t.tail)
    (hforme : commence h forme t = true) (hnil : t ≠ []) :
    ¬ ContientAbsolu (effacerDepuis h forme 0 t) := by
  cases t with
  | nil => exact absurd rfl hnil
  | cons c t =>
      unfold effacerDepuis
      rw [if_pos hforme]
      intro hc
      obtain ⟨g, hg, hgraphie⟩ := hc
      rw [List.suffix_cons_iff] at hg
      cases hg with
      | inl heq =>
          rw [heq] at hgraphie
          exact not_graphie_blanc _ hgraphie
      | inr hg => exact htail (contientAbsolu_of_effacer _ ⟨g, hg, hgraphie⟩)

theorem sansLeWorkspace_debut (hracine : racine ≠ []) (hnil : t ≠ [])
    (htail : ¬ ContientAbsolu t.tail) (hailleurs : SansGraphie h racine t.tail)
    (hdebut : AuDebut h racine t) : ¬ ContientAbsolu (sansLeWorkspace h t racine) := by
  unfold sansLeWorkspace
  rw [if_neg hracine]
  obtain ⟨premiere, hpremiere, hcommence⟩ := hdebut
  -- the text stays as it is until a form begins it, and is harmless from then on
  have hfold : ∀ l : List NtChemin.Texte, (∀ forme ∈ l, forme ∈ formes racine) → premiere ∈ l →
      ¬ ContientAbsolu (l.foldl (fun reste forme => effacerDepuis h forme 0 reste) t) := by
    intro l hl hmem
    induction l with
    | nil => cases hmem
    | cons forme l ih =>
        rw [List.foldl_cons]
        cases hforme : commence h forme t with
        | true =>
            intro hc
            exact not_contientAbsolu_effacer htail hforme hnil (contientAbsolu_of_effacements l hc)
        | false =>
            have hstable : effacerDepuis h forme 0 t = t := by
              apply effacerDepuis_eq
              intro g hg hgnil
              cases t with
              | nil => exact absurd rfl hnil
              | cons c t =>
                  rw [List.suffix_cons_iff] at hg
                  cases hg with
                  | inl heq =>
                      rw [heq]
                      exact hforme
                  | inr hg => exact hailleurs forme (hl forme List.mem_cons_self) g hg hgnil
            rw [hstable]
            apply ih fun f hf => hl f (List.mem_cons_of_mem forme hf)
            rw [List.mem_cons] at hmem
            cases hmem with
            | inl heq =>
                rw [heq, hforme] at hcommence
                cases hcommence
            | inr hmem => exact hmem
  exact hfold _ (fun forme hforme => mem_formesTriees.mp hforme) (mem_formesTriees.mpr hpremiere)

end Effacement

section Noms

variable {l : Char} {p : NtChemin.Texte}

theorem lettre_sans_separateur (h : lettre l = true) :
    (l ≠ '/' ∧ l ≠ sep) ∧ l.toUpper ≠ '/' ∧ l.toUpper ≠ sep := by
  have htous : ∀ n < 123, lettre (Char.ofNat n) = true →
      (Char.ofNat n ≠ '/' ∧ Char.ofNat n ≠ sep) ∧
        (Char.ofNat n).toUpper ≠ '/' ∧ (Char.ofNat n).toUpper ≠ sep := by decide +kernel
  have hlt : l.toNat < 123 := by
    simp only [lettre, Bool.or_eq_true, Bool.and_eq_true, decide_eq_true_eq] at h
    omega
  have hl := htous l.toNat hlt
  rw [Char.ofNat_toNat] at hl
  exact hl h

theorem enWindows_gitBash {m t : NtChemin.Texte} (hm : m ∈ [[], "cygdrive/".toList, "mnt/".toList])
    (hl : lettre l = true) (hligne : '\n' ∉ t) :
    enWindows ('/' :: m ++ l :: '/' :: t) = l.toUpper :: ':' :: sep :: versSep t := by
  have hsuite : suiteDeLecteur ('/' :: t) = some ('/' :: t) := by
    have hlast : t.getLast? ≠ some '\n' := fun h => hligne (List.mem_of_getLast? h)
    unfold suiteDeLecteur
    simp [hlast, hligne]
  rw [List.cons_append]
  unfold enWindows
  simp only [montage_of_gitBash hm, List.drop_left, hl, if_true, hsuite]
  rfl

theorem basename_gitBash {m t : NtChemin.Texte} (hm : m ∈ [[], "cygdrive/".toList, "mnt/".toList])
    (hl : lettre l = true) :
    basename (versSep ('/' :: m ++ l :: '/' :: t)) = dernierNom (versSep t) := by
  have hlettre := (lettre_sans_separateur hl).1
  simp only [List.mem_cons, List.not_mem_nil, or_false] at hm
  rcases hm with rfl | rfl | rfl
  · have hecrit : versSep ('/' :: [] ++ l :: '/' :: t) = sep :: l :: ([] ++ sep :: versSep t) := by
      rw [List.cons_append, versSep_barre, List.nil_append, versSep_cons hlettre.1, versSep_barre]
      rfl
    rw [hecrit, basename, splitroot_racine hlettre]
    exact dernierNom_append [l] (versSep t)
  · have hecrit : versSep ('/' :: "cygdrive/".toList ++ l :: '/' :: t) =
        sep :: 'c' :: ("ygdrive\\".toList ++ l :: sep :: versSep t) := by
      simp [versSep, hlettre.1, sep]
    rw [hecrit, basename, splitroot_racine (by decide)]
    exact dernierNom_append ("cygdrive\\".toList ++ [l]) (versSep t)
  · have hecrit : versSep ('/' :: "mnt/".toList ++ l :: '/' :: t) =
        sep :: 'm' :: ("nt\\".toList ++ l :: sep :: versSep t) := by
      simp [versSep, hlettre.1, sep]
    rw [hecrit, basename, splitroot_racine (by decide)]
    exact dernierNom_append ("mnt\\".toList ++ [l]) (versSep t)

theorem basename_enWindows (hp : Graphie p) (hligne : '\n' ∉ p) :
    basename (versSep (enWindows p)) = basename (versSep p) := by
  cases hp with
  | lecteur t hl hs =>
      rename_i l s
      have hid : enWindows (l :: ':' :: s :: t) = l :: ':' :: s :: t := by
        unfold enWindows
        split
        · next heq => exact absurd (List.cons.inj heq).1 (lettre_sans_separateur hl).1.1
        · rfl
      rw [hid]
  | partage t hc => rfl
  | gitBash t hm hl =>
      have hfin : '\n' ∉ t := fun hmem => hligne (by simp [hmem])
      have hlettre := (lettre_sans_separateur hl).2
      rw [enWindows_gitBash hm hl hfin, basename_gitBash hm hl, versSep_cons hlettre.1,
        versSep_cons (by decide), versSep_cons (by decide), versSep_versSep, basename,
        splitroot_lecteur hlettre]

end Noms

/-- The normalised path is the directory or lies below it. -/
def Dessous (h : Hote) (chemin racine : NtChemin.Texte) : Prop :=
  let base := normal h racine
  let vise := normal h (enWindows chemin)
  vise = base ∨ (if base.getLast? = some sep then base else base ++ [sep]) <+: vise

instance (h : Hote) (chemin racine : NtChemin.Texte) : Decidable (Dessous h chemin racine) :=
  inferInstanceAs (Decidable (_ ∨ _))

/-- A text that is one path: it begins as an absolute path, and holds neither blanks nor quotes. -/
structure CheminSeul (p : NtChemin.Texte) : Prop where
  graphie : Graphie p
  net : ∀ c ∈ p, Texte.estBlanc c = false ∧ c ≠ '"' ∧ c ≠ '\''

theorem net_of_all {p : NtChemin.Texte}
    (h : p.all (fun c => !Texte.estBlanc c && (c != '"' && c != '\'')) = true) :
    ∀ c ∈ p, Texte.estBlanc c = false ∧ c ≠ '"' ∧ c ≠ '\'' := by
  simpa using h

/-- The workspace is named at the beginning of the text, where its only absolute path begins. -/
structure NommeAuDebut (h : Hote) (racine p : NtChemin.Texte) : Prop where
  debut : AuDebut h racine p
  seul : ¬ ContientAbsolu p.tail
  ailleurs : SansGraphie h racine p.tail

/-- The text names no protected document, as a path or as what a command writes. -/
def SansDocument (h : Hote) (v : NtChemin.Texte) : Prop :=
  documentNomme h (basename (versSep (enWindows v))) = none ∧ ecraseUnDocumentDEntree h v = none

section Verdict

variable {h : Hote} {racine p v : NtChemin.Texte} {valeurs : List Json} {l : List NtChemin.Texte}

theorem dedans_eq_false (hp : ¬ Dessous h p racine) : dedans h p racine = false := by
  rw [← Bool.not_eq_true]
  intro hdedans
  apply hp
  unfold dedans at hdedans
  simp only [Bool.or_eq_true, decide_eq_true_eq, List.isPrefixOf_iff_prefix] at hdedans
  unfold Dessous
  cases hdedans with
  | inl heq => exact .inl heq
  | inr hpre =>
      right
      split
      · exact (List.prefix_append _ _).trans hpre
      · exact hpre

theorem dedans_of_dessous (hbase : (normal h racine).getLast? ≠ some sep)
    (hp : Dessous h p racine) : dedans h p racine = true := by
  unfold Dessous at hp
  dsimp only at hp
  rw [if_neg hbase] at hp
  unfold dedans
  simpa only [Bool.or_eq_true, decide_eq_true_eq, List.isPrefixOf_iff_prefix] using hp

theorem cheminsSuspects_nil (hv : ¬ ContientAbsolu (sansLeWorkspace h v racine)) :
    cheminsSuspects h v racine = [] := by
  unfold cheminsSuspects absolus
  rw [absolusDepuis_nil hv]
  rfl

theorem mem_cheminsSuspects (hp : Graphie p) (hsans : SansGraphie h racine p)
    (hdehors : ¬ Dessous h (corps p) racine) : corps p ∈ cheminsSuspects h p racine := by
  unfold cheminsSuspects
  rw [sansLeWorkspace_eq hsans, absolus_of_graphie hp]
  exact List.mem_filter.mpr ⟨List.mem_cons_self, by rw [dedans_eq_false hdehors]; rfl⟩

theorem cheminsSuspects_dedans (hp : Graphie p) (hsans : SansGraphie h racine p)
    (hentier : corps p = p) (hdedans : dedans h p racine = true) :
    cheminsSuspects h p racine = [] := by
  have hfin : absolusDepuis (p.length - 1) p.tail = [] := by
    apply absolusDepuis_of_length_le
    rw [List.length_tail]
  unfold cheminsSuspects
  rw [sansLeWorkspace_eq hsans, absolus_of_graphie hp, hentier, hfin]
  simp [hdedans]

theorem mem_regarder (hl : regarder h racine valeurs = .ok l) {v : String}
    (hv : .texte v ∈ valeurs) {c : NtChemin.Texte}
    (hc : c ∈ cheminsSuspects h v.toList racine) : c ∈ l := by
  induction valeurs generalizing l with
  | nil => cases hv
  | cons valeur valeurs ih =>
      rw [List.mem_cons] at hv
      cases valeur with
      | texte v' =>
          unfold regarder at hl
          split at hl
          · cases hl
          · cases hsuite : regarder h racine valeurs with
            | error document =>
                rw [hsuite] at hl
                cases hl
            | ok l' =>
                rw [hsuite] at hl
                cases hl
                rw [List.mem_append]
                cases hv with
                | inl heq =>
                    cases heq
                    exact .inl hc
                | inr hv => exact .inr (ih hsuite hv)
      | _ =>
          cases hv with
          | inl heq => cases heq
          | inr hv => exact ih hl hv

theorem regarder_vide (hvaleurs : ∀ v, .texte v ∈ valeurs →
    ecraseUnDocumentDEntree h v.toList = none ∧ cheminsSuspects h v.toList racine = []) :
    regarder h racine valeurs = .ok [] := by
  induction valeurs with
  | nil => rfl
  | cons valeur valeurs ih =>
      have ih := ih fun v hv => hvaleurs v (List.mem_cons_of_mem valeur hv)
      cases valeur with
      | texte v =>
          have hv := hvaleurs v List.mem_cons_self
          unfold regarder
          rw [hv.1, ih, hv.2]
          rfl
      | _ => exact ih

theorem ecrase_cheminSeul (hp : CheminSeul p)
    (hnom : documentNomme h (basename (versSep p)) = none) :
    ecraseUnDocumentDEntree h p = none := by
  have hjetons : jetons p = [p] := by
    unfold jetons
    rw [List.splitOnP_eq_singleton]
    · have hnil : p ≠ [] := by
        intro heq
        have hgraphie := hp.graphie
        rw [heq] at hgraphie
        cases hgraphie
      simp [hnil]
    · intro c hc
      have hnet := hp.net c hc
      simp [hnet]
  unfold ecraseUnDocumentDEntree
  rw [hjetons]
  split
  · rfl
  · exact hnom

theorem sansDocument_cheminSeul (hp : CheminSeul p)
    (hnom : documentNomme h (basename (versSep p)) = none) : SansDocument h p := by
  have hligne : '\n' ∉ p := by
    intro hmem
    exact absurd (hp.net '\n' hmem).1 (by decide)
  refine ⟨?_, ecrase_cheminSeul hp hnom⟩
  rw [basename_enWindows hp.graphie hligne]
  exact hnom

variable {charge : Dict String Json} {racine p outil cle : String}
  {avant apres : List (String × Json)}

structure Appel (charge : Dict String Json) (racine outil cle p : String)
    (avant apres : List (String × Json)) : Prop where
  racine : ∃ l s t, racine.toList = l :: ':' :: s :: t ∧ lettre l = true ∧ estSep s = true
  outil : charge.get? "tool_name" = some (.texte outil)
  arguments : arguments charge = some (avant ++ (cle, .texte p) :: apres)
  chemin : CheminSeul p.toList
  autres : ∀ item ∈ avant ++ apres, ∀ v, item.2 = .texte v → ¬ ContientAbsolu v.toList

theorem valeurs_appel (happel : Appel charge racine outil cle p avant apres) {v : String}
    (hv : .texte v ∈ (avant ++ (cle, .texte p) :: apres).map Prod.snd) :
    v = p ∨ ¬ ContientAbsolu v.toList ∧ ∃ item ∈ avant ++ apres, item.2 = .texte v := by
  obtain ⟨item, hitem, heq⟩ := List.mem_map.mp hv
  rw [List.mem_append, List.mem_cons] at hitem
  have hautre : item ∈ avant ++ apres → v = p ∨
      ¬ ContientAbsolu v.toList ∧ ∃ item ∈ avant ++ apres, item.2 = .texte v :=
    fun hmem => .inr ⟨happel.autres item hmem v heq, item, hmem, heq⟩
  rcases hitem with hmem | rfl | hmem
  · exact hautre (List.mem_append_left _ hmem)
  · cases heq
    exact .inl rfl
  · exact hautre (List.mem_append_right _ hmem)

theorem racine_non_vide (happel : Appel charge racine outil cle p avant apres) :
    racine ≠ "" ∧ racine.toList ≠ [] := by
  obtain ⟨l, s, t, hracine, _, _⟩ := happel.racine
  have hnil : racine.toList ≠ [] := by
    rw [hracine]
    exact List.cons_ne_nil _ _
  exact ⟨fun heq => hnil (by rw [heq]; rfl), hnil⟩

theorem toolName_appel (happel : Appel charge racine outil cle p avant apres) :
    toolName charge = outil := by
  unfold toolName
  rw [happel.outil]

theorem verdict_some (happel : Appel charge racine outil cle p avant apres)
    (houtil : outil ∈ OUTILS_SURVEILLES ∨ outil ∈ OUTILS_ECRIVANT) {c : NtChemin.Texte}
    (hc : c ∈ cheminsSuspects h p.toList racine.toList) :
    ∃ b, verdict h charge racine = some b := by
  have hvaleur : Json.texte p ∈ (avant ++ (cle, Json.texte p) :: apres).map Prod.snd := by simp
  unfold verdict
  rw [if_neg (racine_non_vide happel).1, toolName_appel happel, if_neg (by tauto),
    happel.arguments]
  dsimp only
  split
  · exact ⟨_, rfl⟩
  · split
    · exact ⟨_, rfl⟩
    · next hvide => cases mem_regarder hvide hvaleur hc
    · exact ⟨_, rfl⟩

theorem verdict_none (happel : Appel charge racine outil cle p avant apres)
    (hdocument : SansDocument h p.toList)
    (hautres : ∀ item ∈ avant ++ apres, ∀ v, item.2 = .texte v → SansDocument h v.toList)
    (hc : cheminsSuspects h p.toList racine.toList = []) : verdict h charge racine = none := by
  have hdocuments : ∀ v : String, .texte v ∈ (avant ++ (cle, .texte p) :: apres).map Prod.snd →
      SansDocument h v.toList := by
    intro v hv
    rcases valeurs_appel happel hv with rfl | ⟨_, item, hitem, heq⟩
    · exact hdocument
    · exact hautres item hitem v heq
  have hvises : ((avant ++ (cle, Json.texte p) :: apres).map Prod.snd).findSome? (documentVise h) =
      none := by
    rw [List.findSome?_eq_none_iff]
    intro valeur hvaleur
    cases valeur with
    | texte v => exact (hdocuments v hvaleur).1
    | _ => rfl
  have hregarder : regarder h racine.toList ((avant ++ (cle, Json.texte p) :: apres).map Prod.snd) =
      .ok [] := by
    apply regarder_vide
    intro v hv
    refine ⟨(hdocuments v hv).2, ?_⟩
    rcases valeurs_appel happel hv with rfl | ⟨habsolu, _⟩
    · exact hc
    · exact cheminsSuspects_nil fun hcontient =>
        habsolu (contientAbsolu_of_sansLeWorkspace hcontient)
  unfold verdict
  split
  · rfl
  · split
    · rfl
    · rw [happel.arguments]
      dsimp only
      rw [hvises, ite_self, hregarder]

end Verdict

section Promesse

variable (h : Hote) {charge : Dict String Json} {racine p outil cle : String}
  {avant apres : List (String × Json)}

/-- A path outside the workspace is blocked, and a tool that writes may write below it. -/
def Promesse (charge : Dict String Json) (racine outil p : String) : Prop :=
  (outil ∈ OUTILS_SURVEILLES ∨ outil ∈ OUTILS_ECRIVANT →
    ¬ Dessous h p.toList racine.toList → ∃ b, verdict h charge racine = some b) ∧
  (outil ∈ OUTILS_ECRIVANT → Dessous h p.toList racine.toList →
    documentNomme h (basename (versSep p.toList)) = none → verdict h charge racine = none)

/-- A path in which no spelling of the workspace occurs is blocked when what the pattern reads of
it is outside. A path below the workspace is let through when the workspace is named at its
beginning only, or is not named and the pattern reads the whole path. -/
theorem verdict_chemin (happel : Appel charge racine outil cle p avant apres) :
    (outil ∈ OUTILS_SURVEILLES ∨ outil ∈ OUTILS_ECRIVANT →
      ¬ Dessous h (corps p.toList) racine.toList → SansGraphie h racine.toList p.toList →
      ∃ b, verdict h charge racine = some b) ∧
    (outil ∈ OUTILS_ECRIVANT → Dessous h p.toList racine.toList →
      documentNomme h (basename (versSep p.toList)) = none →
      (∀ item ∈ avant ++ apres, ∀ v, item.2 = .texte v → SansDocument h v.toList) →
      (NommeAuDebut h racine.toList p.toList ∨
        SansGraphie h racine.toList p.toList ∧ corps p.toList = p.toList ∧
          (normal h racine.toList).getLast? ≠ some sep) →
      verdict h charge racine = none) := by
  constructor
  · intro houtil hdehors hsans
    exact verdict_some happel houtil (mem_cheminsSuspects happel.chemin.graphie hsans hdehors)
  · intro _ hdessous hnom hautres hcas
    apply verdict_none happel (sansDocument_cheminSeul happel.chemin hnom) hautres
    cases hcas with
    | inl hdebut =>
        apply cheminsSuspects_nil
        apply sansLeWorkspace_debut (racine_non_vide happel).2 _ hdebut.seul hdebut.ailleurs
          hdebut.debut
        intro hnil
        have hgraphie := happel.chemin.graphie
        rw [hnil] at hgraphie
        cases hgraphie
    | inr hsans =>
        exact cheminsSuspects_dedans happel.chemin.graphie hsans.1 hsans.2.1
          (dedans_of_dessous hsans.2.2 hdessous)

end Promesse

section Exemples

/-- A host on which the letters of ASCII have a case. -/
def windows : Hote where
  cwd := "C:\\".toList
  bas := Char.toLower
  meme := fun a b => a.toLower = b.toLower
  mot := fun c => c.isAlphanum || c = '_'
  ordre := id
  perm := fun formes => List.Perm.refl formes
  proteges := some "SPEC.md\n"

def ecrire (p : String) : Dict String Json :=
  [("tool_name", .texte "write_file"), ("tool_input", .objet [("path", .texte p)])]

theorem appel_ecrire {racine p : String}
    (hracine : ∃ l s t, racine.toList = l :: ':' :: s :: t ∧ lettre l = true ∧ estSep s = true)
    (hp : CheminSeul p.toList) : Appel (ecrire p) racine "write_file" "path" p [] [] where
  racine := hracine
  outil := rfl
  arguments := rfl
  chemin := hp
  autres := fun _ hitem => absurd hitem List.not_mem_nil

/-- A path outside the workspace, and one below it. -/
theorem verdict_chemin_ws :
    (∃ b, verdict windows (ecrire "C:\\autre\\x") "C:\\ws" = some b) ∧
    verdict windows (ecrire "C:\\ws\\a.txt") "C:\\ws" = none := by
  have hracine : ∃ l s t, "C:\\ws".toList = l :: ':' :: s :: t ∧ lettre l = true ∧
      estSep s = true := ⟨'C', '\\', _, rfl, rfl, rfl⟩
  constructor
  · have hp : CheminSeul "C:\\autre\\x".toList :=
      ⟨.lecteur (l := 'C') _ rfl rfl, net_of_all (by decide)⟩
    refine (verdict_chemin windows (appel_ecrire hracine hp)).1 (by decide) (by decide +kernel) ?_
    have hsans : ∀ forme ∈ formes "C:\\ws".toList, ∀ g ∈ "C:\\autre\\x".toList.tails, g ≠ [] →
        commence windows forme g = false := by decide +kernel
    exact fun forme hforme g hg => hsans forme hforme g ((List.mem_tails _ _).mpr hg)
  · have hp : CheminSeul "C:\\ws\\a.txt".toList :=
      ⟨.lecteur (l := 'C') _ rfl rfl, net_of_all (by decide)⟩
    refine (verdict_chemin windows (appel_ecrire hracine hp)).2 (by decide) (by decide +kernel)
      (by decide +kernel) (fun _ hitem => absurd hitem List.not_mem_nil) (.inl ⟨?_, ?_, ?_⟩)
    · exact ⟨"C:\\ws".toList, by decide +kernel, by decide +kernel⟩
    · intro hcontient
      obtain ⟨g, hg, hgraphie⟩ := hcontient
      have haucun : ∀ g ∈ "C:\\ws\\a.txt".toList.tail.tails, absolu g = none := by decide +kernel
      have hrien := haucun g ((List.mem_tails _ _).mpr hg)
      rw [absolu_of_graphie hgraphie] at hrien
      cases hrien
    · have hsans : ∀ forme ∈ formes "C:\\ws".toList, ∀ g ∈ "C:\\ws\\a.txt".toList.tail.tails,
          g ≠ [] → commence windows forme g = false := by decide +kernel
      exact fun forme hforme g hg => hsans forme hforme g ((List.mem_tails _ _).mpr hg)

/-- The spelling of a workspace whose blank was replaced by a separator is let through: it is read
as the workspace, and is another directory. -/
theorem deformation_permise :
    Appel (ecrire "C:\\a\\b") "C:\\a b" "write_file" "path" "C:\\a\\b" [] [] ∧
    ¬ Promesse windows (ecrire "C:\\a\\b") "C:\\a b" "write_file" "C:\\a\\b" := by
  have hp : CheminSeul "C:\\a\\b".toList :=
    ⟨.lecteur (l := 'C') _ rfl rfl, net_of_all (by decide)⟩
  refine ⟨appel_ecrire ⟨'C', '\\', _, rfl, rfl, rfl⟩ hp, fun hpromesse => ?_⟩
  obtain ⟨b, hb⟩ := hpromesse.1 (by decide) (by decide +kernel)
  have hpermis : verdict windows (ecrire "C:\\a\\b") "C:\\a b" = none := by decide +kernel
  rw [hpermis] at hb
  cases hb

end Exemples

end Hermes.GardeWorkspace
