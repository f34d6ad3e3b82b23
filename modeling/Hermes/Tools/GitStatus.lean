import Hermes.Lib.Nombre
import Hermes.Tools.GitTools

/-! # Reading the status of a repository

Git writes the state of the working tree one entry a line, in the second version of its format for
programs. `status` reads the lines back.
-/

namespace Hermes.GitTools

open Lib.Texte
open Lib.Nombre (Chiffres lireEntier)

abbrev Texte := List Char

structure GitStatus where
  branch : Texte
  detached : Bool
  dirty : Bool
  staged : List Texte
  modified : List Texte
  untracked : List Texte
  ahead : Int
  behind : Int
  isProtected : Bool
  deriving DecidableEq

structure Releve where
  branch : Texte
  detached : Bool
  ahead : Int
  behind : Int
  staged : List Texte
  modified : List Texte
  untracked : List Texte
  deriving DecidableEq

def Releve.initial : Releve := ⟨[], false, 0, 0, [], [], []⟩

section Lecture

variable (u : Chiffres)

/-- A token of the divergence; `none` is the `ValueError` of `int`. -/
def lireJeton (s : Releve) : Texte → Option Releve
  | '+' :: reste => (lireEntier u (String.ofList reste)).map fun n => { s with ahead := n }
  | '-' :: reste => (lireEntier u (String.ofList reste)).map fun n => { s with behind := n }
  | _ => some s

/-- The path of an entry: the new name, where a rename gives both. -/
def cheminLu (ligne path : Texte) : Texte :=
  if ['2', ' '] <+: ligne ∧ '\t' ∈ path then path.takeWhile (· ≠ '\t') else path

/-- The lines `1` and `2`; `none` is the `IndexError` of `xy[0]` or `xy[1]`. -/
def lireEntree (s : Releve) (ligne : Texte) : Option Releve :=
  let parts := decouper ' ' 8 ligne
  match parts[1]?, parts[8]? with
  | some (x :: y :: _), some path =>
      some { s with
        staged := if x ≠ '.' then s.staged ++ [cheminLu ligne path] else s.staged
        modified := if y ≠ '.' then s.modified ++ [cheminLu ligne path] else s.modified }
  | some _, some _ => none
  | _, _ => some s

def lireLigne (s : Releve) (ligne : Texte) : Option Releve :=
  if "# branch.head ".toList <+: ligne then
    let branch := rogner (ligne.drop 14)
    some { s with branch, detached := branch = "(detached)".toList }
  else if "# branch.ab ".toList <+: ligne then (mots (ligne.drop 12)).foldlM (lireJeton u) s
  else if ['?', ' '] <+: ligne then some { s with untracked := s.untracked ++ [ligne.drop 2] }
  else if ['1', ' '] <+: ligne ∨ ['2', ' '] <+: ligne then lireEntree s ligne
  else some s

def conclure (s : Releve) : GitStatus where
  branch := s.branch
  detached := s.detached
  dirty := s.staged ≠ [] ∨ s.modified ≠ [] ∨ s.untracked ≠ []
  staged := s.staged
  modified := s.modified
  untracked := s.untracked
  ahead := s.ahead
  behind := s.behind
  isProtected :=
    if s.branch ≠ [] ∧ s.detached = false then isProtectedBranch (String.ofList s.branch) else false

/-- `raw.splitlines()`. -/
def lignes (raw : Texte) : List Texte := (splitlines (String.ofList raw)).map String.toList

/-- `status`, from what git has written; `_run` reads it in text mode. -/
def status (ecrit : Texte) : Option GitStatus :=
  ((lignes (universel ecrit)).foldlM (lireLigne u) .initial).map conclure

end Lecture

/-- A field of a line: no blank, no control character and no end of line. -/
structure Champ where
  texte : Texte
  net : ∀ c ∈ texte, 32 < c.toNat ∧ finDeLigne c = false

structure Nom where
  texte : Texte
  net : ∀ c ∈ texte, 32 < c.toNat

/-- A path that is written without quotes (beyond ASCII, when `core.quotePath` is off). -/
structure Chemin where
  texte : Texte
  nonCite : ∀ c ∈ texte, 32 ≤ c.toNat ∧ c.toNat ≠ 127 ∧ c ≠ '"' ∧ c ≠ '\\'

/-- What has become of a path, in the index or in the working tree. -/
inductive Changement where
  | inchange
  | modifie
  | type
  | ajoute
  | supprime
  | renomme
  | copie
  deriving DecidableEq

def Changement.lettre : Changement → Char
  | inchange => '.'
  | modifie => 'M'
  | type => 'T'
  | ajoute => 'A'
  | supprime => 'D'
  | renomme => 'R'
  | copie => 'C'

structure Fiche where
  x : Changement
  y : Changement
  change : x ≠ .inchange ∨ y ≠ .inchange
  sub : Champ
  mH : Champ
  mI : Champ
  mW : Champ
  hH : Champ
  hI : Champ

inductive Entree where
  | ordinaire (f : Fiche) (path : Chemin)
  | renommee (f : Fiche) (score : Champ) (path origPath : Chemin)
  | conflit (xy sub m1 m2 m3 mW h1 h2 h3 : Champ) (path : Chemin)
  | nonSuivie (path : Chemin)

def assembler (champs : List Texte) (reste : Texte) : Texte :=
  champs.foldr (fun cs suite => cs ++ ' ' :: suite) reste

def Fiche.champs (f : Fiche) (type : Char) : List Texte :=
  [[type], [f.x.lettre, f.y.lettre], f.sub.texte, f.mH.texte, f.mI.texte, f.mW.texte, f.hH.texte,
    f.hI.texte]

def Entree.ligne : Entree → Texte
  | ordinaire f path => assembler (f.champs '1') path.texte
  | renommee f score path origPath =>
      assembler (f.champs '2') (score.texte ++ ' ' :: path.texte ++ '\t' :: origPath.texte)
  | conflit xy sub m1 m2 m3 mW h1 h2 h3 path =>
      assembler [['u'], xy.texte, sub.texte, m1.texte, m2.texte, m3.texte, mW.texte, h1.texte,
        h2.texte, h3.texte] path.texte
  | nonSuivie path => '?' :: ' ' :: path.texte

/-- The commits that the branch and its upstream do not share; git counts them in a C `int`. -/
structure Divergence where
  ahead : Nat
  behind : Nat
  bornes : ahead < 2 ^ 31 ∧ behind < 2 ^ 31

structure Arbre where
  oid : Nom
  head : Nom
  upstream : Option Nom
  divergence : Option Divergence
  entrees : List Entree

def Divergence.ligne (d : Divergence) : Texte :=
  "# branch.ab ".toList ++
    ('+' :: Nat.toDigits 10 d.ahead ++ ' ' :: '-' :: Nat.toDigits 10 d.behind)

def Arbre.entete (t : Arbre) : List Texte :=
  ["# branch.oid ".toList ++ t.oid.texte, "# branch.head ".toList ++ t.head.texte] ++
    (t.upstream.map fun n => "# branch.upstream ".toList ++ n.texte).toList ++
    (t.divergence.map Divergence.ligne).toList

def Arbre.lignes (t : Arbre) : List Texte := t.entete ++ t.entrees.map Entree.ligne

/-- `git status --porcelain=v2 --branch`. -/
def Arbre.ecrit (t : Arbre) : Texte := t.lignes.flatMap (· ++ ['\n'])

def Entree.staged : Entree → List Texte
  | ordinaire f path => if f.x ≠ .inchange then [path.texte] else []
  | renommee f _ path _ => if f.x ≠ .inchange then [path.texte] else []
  | _ => []

def Entree.modified : Entree → List Texte
  | ordinaire f path => if f.y ≠ .inchange then [path.texte] else []
  | renommee f _ path _ => if f.y ≠ .inchange then [path.texte] else []
  | _ => []

def Entree.untracked : Entree → List Texte
  | nonSuivie path => [path.texte]
  | _ => []

def Arbre.avance (t : Arbre) : Int × Int :=
  match t.divergence with
  | some d => (d.ahead, d.behind)
  | none => (0, 0)

/-- The status of the tree is returned. -/
def Fidele (u : Chiffres) (t : Arbre) : Prop :=
  ∃ s, status u t.ecrit = some s ∧ s.staged = t.entrees.flatMap Entree.staged ∧
    s.modified = t.entrees.flatMap Entree.modified ∧
    s.untracked = t.entrees.flatMap Entree.untracked ∧ (s.ahead, s.behind) = t.avance ∧
    (s.dirty = true ↔ t.entrees ≠ [])

/-- The state and the path of an entry, if the line has enough fields. -/
def entreeLue (ligne : Texte) : Option (Texte × Texte) :=
  if ['1', ' '] <+: ligne ∨ ['2', ' '] <+: ligne then
    match (decouper ' ' 8 ligne)[1]?, (decouper ' ' 8 ligne)[8]? with
    | some xy, some path => some (xy, cheminLu ligne path)
    | _, _ => none
  else none

def leve (ligne : Texte) : Bool :=
  match entreeLue ligne with
  | some (_ :: _ :: _, _) => false
  | some _ => true
  | none => false

def stagedLu (ligne : Texte) : List Texte :=
  match entreeLue ligne with
  | some (x :: _ :: _, path) => if x ≠ '.' then [path] else []
  | _ => []

def modifiedLu (ligne : Texte) : List Texte :=
  match entreeLue ligne with
  | some (_ :: y :: _, path) => if y ≠ '.' then [path] else []
  | _ => []

def untrackedLu (ligne : Texte) : List Texte :=
  if ['?', ' '] <+: ligne then [ligne.drop 2] else []

def jetonLu (u : Chiffres) (d : Int × Int) : Texte → Option (Int × Int)
  | '+' :: reste => (lireEntier u (String.ofList reste)).map fun n => (n, d.2)
  | '-' :: reste => (lireEntier u (String.ofList reste)).map fun n => (d.1, n)
  | _ => some d

def divergenceLue (u : Chiffres) (d : Int × Int) (ligne : Texte) : Option (Int × Int) :=
  if "# branch.ab ".toList <+: ligne then (mots (ligne.drop 12)).foldlM (jetonLu u) d else some d

structure Vue where
  staged : List Texte
  modified : List Texte
  untracked : List Texte
  divergence : Int × Int

def Releve.vue (s : Releve) : Vue := ⟨s.staged, s.modified, s.untracked, (s.ahead, s.behind)⟩

def lireVue (u : Chiffres) (v : Vue) (ligne : Texte) : Option Vue :=
  if leve ligne then none
  else (divergenceLue u v.divergence ligne).map fun d =>
    ⟨v.staged ++ stagedLu ligne, v.modified ++ modifiedLu ligne, v.untracked ++ untrackedLu ligne, d⟩

section Ligne

variable {u : Chiffres} {s : Releve} {l : Texte} {c d : Char} {p q : Texte}

theorem prefix_ne (hne : c ≠ d) (h : c :: p <+: l) : ¬d :: q <+: l := by
  intro hautre
  obtain ⟨x, rfl⟩ := h
  exact hne (List.cons_prefix_cons.mp hautre).1.symm

theorem entreeLue_eq_none (h1 : ¬['1', ' '] <+: l) (h2 : ¬['2', ' '] <+: l) :
    entreeLue l = none := by
  rw [entreeLue, if_neg]
  intro h
  exact h.elim h1 h2

theorem rien_of_entreeLue (h : entreeLue l = none) :
    leve l = false ∧ stagedLu l = [] ∧ modifiedLu l = [] := by
  unfold leve stagedLu modifiedLu
  rw [h]
  exact ⟨rfl, rfl, rfl⟩

theorem foldlM_jeton (jetons : List Texte) (s : Releve) :
    (jetons.foldlM (lireJeton u) s).map Releve.vue =
      (jetons.foldlM (jetonLu u) (s.ahead, s.behind)).map fun d =>
        ⟨s.staged, s.modified, s.untracked, d⟩ := by
  induction jetons generalizing s with
  | nil => rfl
  | cons jeton jetons ih =>
      simp only [List.foldlM_cons, Option.bind_eq_bind]
      unfold lireJeton jetonLu
      split
      · next reste =>
          cases lireEntier u (String.ofList reste) with
          | none => rfl
          | some n => exact ih { s with ahead := n }
      · next reste =>
          cases lireEntier u (String.ofList reste) with
          | none => rfl
          | some n => exact ih { s with behind := n }
      · exact ih s

theorem lireEntree_vue (hentree : ['1', ' '] <+: l ∨ ['2', ' '] <+: l) :
    (lireEntree s l).map Releve.vue =
      if leve l then none
      else some ⟨s.staged ++ stagedLu l, s.modified ++ modifiedLu l, s.untracked,
        (s.ahead, s.behind)⟩ := by
  unfold lireEntree leve stagedLu modifiedLu entreeLue
  rw [if_pos hentree]
  dsimp only
  cases (decouper ' ' 8 l)[1]? with
  | none => simp [Releve.vue]
  | some xy =>
      cases (decouper ' ' 8 l)[8]? with
      | none => simp [Releve.vue]
      | some path =>
          match xy with
          | [] => rfl
          | [_] => rfl
          | x :: y :: _ =>
              simp only [Option.map_some, Releve.vue, Bool.false_eq_true, if_false,
                Option.some.injEq, Vue.mk.injEq, and_true]
              constructor
              · split <;> simp
              · split <;> simp

theorem lireVue_rien (v : Vue) (h : entreeLue l = none) (hq : ¬['?', ' '] <+: l) :
    lireVue u v l = (divergenceLue u v.divergence l).map fun d => { v with divergence := d } := by
  obtain ⟨hleve, hstaged, hmodified⟩ := rien_of_entreeLue h
  rw [lireVue, hleve, hstaged, hmodified, untrackedLu, if_neg hq]
  simp only [Bool.false_eq_true, if_false, List.append_nil]

theorem divergenceLue_rien (d : Int × Int) (h : ¬"# branch.ab ".toList <+: l) :
    divergenceLue u d l = some d := if_neg h

theorem lireLigne_vue (s : Releve) (l : Texte) :
    (lireLigne u s l).map Releve.vue = lireVue u s.vue l := by
  unfold lireLigne
  split
  · next hhead =>
      have hab : ¬"# branch.ab ".toList <+: l := by
        intro hab
        obtain ⟨x, rfl⟩ := hhead
        exact absurd (List.prefix_of_prefix_length_le hab (List.prefix_append _ x) (by decide))
          (by decide)
      rw [lireVue_rien _ (entreeLue_eq_none (prefix_ne (by decide) hhead)
        (prefix_ne (by decide) hhead)) (prefix_ne (by decide) hhead), divergenceLue_rien _ hab]
      rfl
  · split
    · next hab =>
        rw [lireVue_rien _ (entreeLue_eq_none (prefix_ne (by decide) hab)
          (prefix_ne (by decide) hab)) (prefix_ne (by decide) hab), foldlM_jeton, divergenceLue,
          if_pos hab]
        rfl
    · next hab =>
        split
        · next hq =>
            obtain ⟨hleve, hstaged, hmodified⟩ := rien_of_entreeLue (entreeLue_eq_none
              (prefix_ne (by decide) hq) (prefix_ne (by decide) hq))
            rw [lireVue, hleve, hstaged, hmodified, untrackedLu, if_pos hq,
              divergenceLue_rien _ hab]
            simp [Releve.vue]
        · next hq =>
            split
            · next hentree =>
                rw [lireEntree_vue hentree, lireVue, untrackedLu, if_neg hq,
                  divergenceLue_rien _ hab]
                simp [Releve.vue]
            · next hentree =>
                rw [lireVue_rien _ (if_neg hentree) hq, divergenceLue_rien _ hab]
                rfl

theorem foldlM_lireVue (ls : List Texte) (v : Vue) :
    ls.foldlM (lireVue u) v =
      if ls.any leve then none
      else (ls.foldlM (divergenceLue u) v.divergence).map fun d =>
        ⟨v.staged ++ ls.flatMap stagedLu, v.modified ++ ls.flatMap modifiedLu,
          v.untracked ++ ls.flatMap untrackedLu, d⟩ := by
  induction ls generalizing v with
  | nil => simp
  | cons l ls ih =>
      rw [List.foldlM_cons, List.foldlM_cons, List.any_cons, lireVue]
      cases leve l with
      | true => rfl
      | false =>
          cases divergenceLue u v.divergence l with
          | none => simp
          | some d =>
              simp only [Bool.false_eq_true, if_false, Option.map_some, Option.bind_eq_bind,
                Option.bind_some, Bool.false_or, ih, List.flatMap_cons, List.append_assoc]

theorem foldlM_lireLigne (ls : List Texte) (s : Releve) :
    (ls.foldlM (lireLigne u) s).map Releve.vue = ls.foldlM (lireVue u) s.vue := by
  induction ls generalizing s with
  | nil => rfl
  | cons l ls ih =>
      rw [List.foldlM_cons, List.foldlM_cons, ← lireLigne_vue]
      cases lireLigne u s l with
      | none => rfl
      | some s' => exact ih s'

end Ligne

theorem lignes_flatMap {ls : List Texte} (h : ∀ l ∈ ls, '\r' ∉ l) :
    lignes (ls.flatMap (· ++ ['\n'])) = ls.flatMap (·.splitOnP finDeLigne) := by
  induction ls with
  | nil => rfl
  | cons l ls ih =>
      have hreste := ih fun x hx => h x (List.mem_cons_of_mem l hx)
      unfold lignes splitlines at hreste ⊢
      rw [String.toList_ofList] at hreste ⊢
      rw [List.flatMap_cons, List.append_assoc, List.singleton_append,
        splitlinesAux_append (h l List.mem_cons_self), List.map_append, hreste, List.flatMap_cons]
      cases l.splitOnP finDeLigne <;> simp [Function.comp_def]

theorem assembler_eq (champs : List Texte) (reste : Texte) :
    assembler champs reste = champs.flatMap (· ++ [' ']) ++ reste := by
  induction champs with
  | nil => rfl
  | cons cs champs ih =>
      rw [List.flatMap_cons, List.append_assoc, List.append_assoc, ← ih]
      rfl

/-- The line of an entry, whose last field is given. -/
def Entree.assemblee : Entree → Texte → Texte
  | ordinaire f _, reste => assembler (f.champs '1') reste
  | renommee f _ _ _, reste => assembler (f.champs '2') reste
  | conflit xy sub m1 m2 m3 mW h1 h2 h3 _, reste =>
      assembler [['u'], xy.texte, sub.texte, m1.texte, m2.texte, m3.texte, mW.texte, h1.texte,
        h2.texte, h3.texte] reste
  | nonSuivie _, reste => '?' :: ' ' :: reste

def Entree.reste : Entree → Texte
  | ordinaire _ path => path.texte
  | renommee _ score path origPath =>
      score.texte ++ ' ' :: path.texte ++ '\t' :: origPath.texte
  | conflit _ _ _ _ _ _ _ _ _ path => path.texte
  | nonSuivie path => path.texte

theorem ligne_eq (e : Entree) : e.ligne = e.assemblee e.reste := by
  cases e <;> rfl

def debut (cs : Texte) : Texte := cs.takeWhile fun c => !finDeLigne c

def suites (cs : Texte) : List Texte := (cs.splitOnP finDeLigne).tail

theorem Champ.separe (k : Champ) : ∀ c ∈ k.texte, c ≠ ' ' ∧ finDeLigne c = false := by
  intro c hc
  refine ⟨?_, (k.net c hc).2⟩
  intro heq
  have hblanc := (k.net c hc).1
  rw [heq] at hblanc
  exact absurd hblanc (by decide)

theorem Changement.net (x : Changement) : finDeLigne x.lettre = false ∧ x.lettre ≠ ' ' := by
  cases x <;> decide

theorem Fiche.champs_net (f : Fiche) {type : Char} (h : type ≠ ' ' ∧ finDeLigne type = false) :
    ∀ cs ∈ f.champs type, ∀ c ∈ cs, c ≠ ' ' ∧ finDeLigne c = false := by
  unfold Fiche.champs
  simp only [List.forall_mem_cons, List.not_mem_nil, IsEmpty.forall_iff, implies_true, and_true]
  exact ⟨h, ⟨f.x.net.symm, f.y.net.symm⟩, f.sub.separe, f.mH.separe, f.mI.separe, f.mW.separe,
    f.hH.separe, f.hI.separe⟩

theorem splitOnP_assembler {champs : List Texte}
    (h : ∀ cs ∈ champs, ∀ c ∈ cs, c ≠ ' ' ∧ finDeLigne c = false) (reste : Texte) :
    (assembler champs reste).splitOnP finDeLigne =
      assembler champs (debut reste) :: suites reste := by
  have hnet : ∀ c ∈ champs.flatMap (· ++ [' ']), finDeLigne c = false := by
    intro c hc
    obtain ⟨cs, hcs, hmem⟩ := List.mem_flatMap.mp hc
    cases List.mem_append.mp hmem with
    | inl hmem => exact (h cs hcs c hmem).2
    | inr hmem =>
        rw [List.mem_singleton.mp hmem]
        decide
  rw [assembler_eq, assembler_eq, splitOnP_append hnet, splitOnP_eq_cons]
  rfl

theorem splitOnP_assemblee (e : Entree) (reste : Texte) :
    (e.assemblee reste).splitOnP finDeLigne = e.assemblee (debut reste) :: suites reste := by
  cases e with
  | ordinaire f path => exact splitOnP_assembler (f.champs_net (by decide)) reste
  | renommee f score path origPath => exact splitOnP_assembler (f.champs_net (by decide)) reste
  | conflit xy sub m1 m2 m3 mW h1 h2 h3 path =>
      refine splitOnP_assembler ?_ reste
      simp only [List.forall_mem_cons, List.not_mem_nil, IsEmpty.forall_iff, implies_true, and_true]
      exact ⟨by decide, xy.separe, sub.separe, m1.separe, m2.separe, m3.separe, mW.separe,
        h1.separe, h2.separe, h3.separe⟩
  | nonSuivie path =>
      have hnet : ∀ c ∈ ['?', ' '], finDeLigne c = false := List.all_iff_forall_prop.mp (by decide)
      have hcoupe := splitOnP_append hnet reste
      rw [splitOnP_eq_cons finDeLigne reste] at hcoupe
      exact hcoupe

theorem cheminLu_un {l reste : Texte} (h : ¬['2', ' '] <+: l) : cheminLu l reste = reste :=
  if_neg fun hdeux => h hdeux.1

theorem cheminLu_deux {l reste : Texte} (h : ['2', ' '] <+: l) :
    cheminLu l reste = reste.takeWhile (· ≠ '\t') := by
  rw [cheminLu]
  split
  · rfl
  · next hsans =>
      have hmem : '\t' ∉ reste := fun hmem => hsans ⟨h, hmem⟩
      symm
      rw [List.takeWhile_eq_self_iff]
      intro c hc
      refine decide_eq_true ?_
      intro heq
      rw [heq] at hc
      exact hmem hc

theorem entreeLue_fiche (f : Fiche) {type : Char} (h : type = '1' ∨ type = '2') (reste : Texte) :
    entreeLue (assembler (f.champs type) reste) =
      some ([f.x.lettre, f.y.lettre], cheminLu (assembler (f.champs type) reste) reste) := by
  have htype : type ≠ ' ' ∧ finDeLigne type = false := by
    cases h with
    | inl h => rw [h]; decide
    | inr h => rw [h]; decide
  have hchamps : ∀ cs ∈ f.champs type, ' ' ∉ cs := fun cs hcs hmem =>
    (f.champs_net htype cs hcs ' ' hmem).1 rfl
  have hcoupe : decouper ' ' 8 (assembler (f.champs type) reste) = f.champs type ++ [reste] :=
    decouper_intercalate hchamps reste
  have hdebut : [type, ' '] <+: assembler (f.champs type) reste := ⟨_, rfl⟩
  have hentree : ['1', ' '] <+: assembler (f.champs type) reste ∨
      ['2', ' '] <+: assembler (f.champs type) reste := by
    cases h with
    | inl h => rw [h] at hdebut ⊢; exact Or.inl hdebut
    | inr h => rw [h] at hdebut ⊢; exact Or.inr hdebut
  rw [entreeLue, if_pos hentree, hcoupe]
  rfl

/-- The path that is read in the first line of an entry. -/
def Entree.lu : Entree → Texte
  | e@(renommee _ _ _ _) => (debut e.reste).takeWhile (· ≠ '\t')
  | e => debut e.reste

def Entree.premiere (e : Entree) : Texte := e.assemblee (debut e.reste)

theorem fiche_lue (f : Fiche) {type : Char} (htype : type = '1' ∨ type = '2') {reste lu : Texte}
    (hlu : cheminLu (assembler (f.champs type) reste) reste = lu) (path : Texte) :
    leve (assembler (f.champs type) reste) = false ∧
      stagedLu (assembler (f.champs type) reste) =
        (if f.x ≠ .inchange then [path] else []).map (fun _ => lu) ∧
      modifiedLu (assembler (f.champs type) reste) =
        (if f.y ≠ .inchange then [path] else []).map (fun _ => lu) ∧
      untrackedLu (assembler (f.champs type) reste) = [] := by
  have hentree := entreeLue_fiche f htype reste
  have hmap : ∀ x : Changement, (if x ≠ .inchange then [path] else []).map (fun _ => lu) =
      if x.lettre ≠ '.' then [lu] else [] := by
    intro x
    cases x <;> rfl
  rw [hlu] at hentree
  refine ⟨?_, ?_, ?_, ?_⟩
  · rw [leve, hentree]
  · rw [stagedLu, hentree, hmap]
  · rw [modifiedLu, hentree, hmap]
  · refine if_neg (prefix_ne (c := type) (p := [' ']) ?_ ⟨_, rfl⟩)
    cases htype with
    | inl h => rw [h]; decide
    | inr h => rw [h]; decide

theorem premiere_lue (e : Entree) :
    leve e.premiere = false ∧ stagedLu e.premiere = e.staged.map (fun _ => e.lu) ∧
      modifiedLu e.premiere = e.modified.map (fun _ => e.lu) ∧
      untrackedLu e.premiere = e.untracked.map (fun _ => e.lu) := by
  have hrien : ∀ c : Char, c ≠ '1' → c ≠ '2' → ∀ reste : Texte, leve (c :: reste) = false ∧
      stagedLu (c :: reste) = [] ∧ modifiedLu (c :: reste) = [] := by
    intro c h1 h2 reste
    have hprefixe : [c] <+: c :: reste := ⟨reste, rfl⟩
    exact rien_of_entreeLue (entreeLue_eq_none (prefix_ne h1 hprefixe) (prefix_ne h2 hprefixe))
  cases e with
  | ordinaire f path =>
      have hun : ['1', ' '] <+: assembler (f.champs '1') (debut path.texte) := ⟨_, rfl⟩
      exact fiche_lue f (Or.inl rfl) (cheminLu_un (prefix_ne (by decide) hun)) path.texte
  | renommee f score path origPath =>
      have hdeux : ['2', ' '] <+: (Entree.renommee f score path origPath).premiere := ⟨_, rfl⟩
      exact fiche_lue f (Or.inr rfl) (cheminLu_deux hdeux) path.texte
  | conflit xy sub m1 m2 m3 mW h1 h2 h3 path =>
      obtain ⟨hleve, hstaged, hmodified⟩ := hrien 'u' (by decide) (by decide) _
      have hu : ['u'] <+: (Entree.conflit xy sub m1 m2 m3 mW h1 h2 h3 path).premiere := ⟨_, rfl⟩
      exact ⟨hleve, hstaged, hmodified, if_neg (prefix_ne (by decide) hu)⟩
  | nonSuivie path =>
      obtain ⟨hleve, hstaged, hmodified⟩ := hrien '?' (by decide) (by decide) _
      have hq : ['?', ' '] <+: (Entree.nonSuivie path).premiere := ⟨_, rfl⟩
      exact ⟨hleve, hstaged, hmodified, if_pos hq⟩

theorem divergence_premiere (u : Chiffres) (d : Int × Int) (e : Entree) :
    divergenceLue u d e.premiere = some d := by
  have htete : ∃ c ≠ '#', [c] <+: e.premiere := by
    cases e with
    | ordinaire f path => exact ⟨'1', by decide, _, rfl⟩
    | renommee f score path origPath => exact ⟨'2', by decide, _, rfl⟩
    | conflit xy sub m1 m2 m3 mW h1 h2 h3 path => exact ⟨'u', by decide, _, rfl⟩
    | nonSuivie path => exact ⟨'?', by decide, _, rfl⟩
  obtain ⟨c, hc, h⟩ := htete
  exact divergenceLue_rien d (prefix_ne hc h)

theorem debut_eq_self_iff (cs : Texte) : debut cs = cs ↔ ∀ c ∈ cs, finDeLigne c = false := by
  rw [debut, List.takeWhile_eq_self_iff]
  simp

theorem suites_of_forall {cs : Texte} (h : ∀ c ∈ cs, finDeLigne c = false) : suites cs = [] := by
  rw [suites, List.splitOnP_eq_singleton h]
  rfl

theorem Chemin.sansTabulation (p : Chemin) : '\t' ∉ p.texte := by
  intro hmem
  exact absurd (p.nonCite _ hmem).1 (by decide)

theorem lu_renommee (f : Fiche) (score : Champ) (path origPath : Chemin) :
    (Entree.renommee f score path origPath).lu ≠ path.texte := by
  intro heq
  have hscore : ∀ c ∈ score.texte ++ [' '], finDeLigne c = false ∧ c ≠ '\t' := by
    intro c hc
    cases List.mem_append.mp hc with
    | inl hc =>
        refine ⟨(score.net c hc).2, ?_⟩
        intro htab
        rw [htab] at hc
        exact absurd (score.net _ hc).1 (by decide)
    | inr hc =>
        rw [List.mem_singleton.mp hc]
        decide
  have hforme : (Entree.renommee f score path origPath).reste =
      (score.texte ++ [' ']) ++ (path.texte ++ '\t' :: origPath.texte) := by
    simp [Entree.reste]
  have hlu : (Entree.renommee f score path origPath).lu = (score.texte ++ [' ']) ++
      (debut (path.texte ++ '\t' :: origPath.texte)).takeWhile (· ≠ '\t') := by
    rw [Entree.lu, hforme, debut, List.takeWhile_append_of_pos, List.takeWhile_append_of_pos]
    · rfl
    · intro c hc
      exact decide_eq_true (hscore c hc).2
    · intro c hc
      rw [(hscore c hc).1]
      rfl
  have hnet : ∀ c ∈ path.texte, finDeLigne c = false := by
    intro c hc
    rw [← heq, Entree.lu] at hc
    have hdebut := List.mem_takeWhile_imp ((List.takeWhile_prefix _).subset hc)
    simpa using hdebut
  have hpath : path.texte <+: (debut (path.texte ++ '\t' :: origPath.texte)).takeWhile
      (· ≠ '\t') := by
    rw [debut, List.takeWhile_append_of_pos, List.takeWhile_append_of_pos]
    · exact List.prefix_append _ _
    · intro c hc
      refine decide_eq_true ?_
      intro htab
      rw [htab] at hc
      exact path.sansTabulation hc
    · intro c hc
      rw [hnet c hc]
      rfl
  rw [hlu] at heq
  have hlongueur := congrArg List.length heq
  have hle := hpath.length_le
  simp only [List.length_append, List.length_singleton] at hlongueur
  omega

def Muette (l : Texte) : Prop :=
  leve l = false ∧ stagedLu l = [] ∧ modifiedLu l = [] ∧ untrackedLu l = []

theorem muette_of_sansBlanc {l : Texte} (h : ' ' ∉ l) : Muette l := by
  have hprefixe : ∀ c : Char, ¬[c, ' '] <+: l := fun c hc =>
    h (hc.subset (List.mem_cons_of_mem c List.mem_cons_self))
  obtain ⟨hleve, hstaged, hmodified⟩ :=
    rien_of_entreeLue (entreeLue_eq_none (hprefixe '1') (hprefixe '2'))
  exact ⟨hleve, hstaged, hmodified, if_neg (hprefixe '?')⟩

theorem muette_of_diese {l : Texte} (h : ['#'] <+: l) : Muette l := by
  obtain ⟨hleve, hstaged, hmodified⟩ := rien_of_entreeLue
    (entreeLue_eq_none (prefix_ne (by decide) h) (prefix_ne (by decide) h))
  exact ⟨hleve, hstaged, hmodified, if_neg (prefix_ne (by decide) h)⟩

theorem mem_of_mem_suites {cs l : Texte} (h : l ∈ suites cs) {c : Char} (hc : c ∈ l) : c ∈ cs := by
  induction cs with
  | nil => cases h
  | cons d cs ih =>
      rw [suites, List.splitOnP_cons_eq_if_modifyHead] at h
      rw [splitOnP_eq_cons] at h
      split at h
      · rw [List.tail_cons] at h
        cases List.mem_cons.mp h with
        | inl h =>
            rw [h] at hc
            exact List.mem_cons_of_mem d ((List.takeWhile_prefix _).subset hc)
        | inr h => exact List.mem_cons_of_mem d (ih h)
      · rw [List.modifyHead_cons, List.tail_cons] at h
        exact List.mem_cons_of_mem d (ih h)

theorem Nom.sansBlanc (n : Nom) : ' ' ∉ n.texte := fun hmem =>
  absurd (n.net _ hmem) (by decide)

theorem lignes_nom (u : Chiffres) (titre : Texte) (n : Nom) (hdiese : ['#'] <+: titre)
    (hnet : ∀ c ∈ titre, finDeLigne c = false) (hab : ¬"# branch.ab ".toList <+: titre)
    (hlong : 12 ≤ titre.length) :
    ∀ l ∈ (titre ++ n.texte).splitOnP finDeLigne,
      Muette l ∧ ∀ d, divergenceLue u d l = some d := by
  intro l hl
  rw [splitOnP_append hnet, splitOnP_eq_cons, List.modifyHead_cons] at hl
  cases List.mem_cons.mp hl with
  | inl hl =>
      rw [hl]
      refine ⟨muette_of_diese (hdiese.trans (List.prefix_append _ _)), fun d => ?_⟩
      refine divergenceLue_rien d fun hprefixe => hab ?_
      exact List.prefix_of_prefix_length_le hprefixe (List.prefix_append _ _) hlong
  | inr hl =>
      have hblanc : ' ' ∉ l := fun hmem => n.sansBlanc (mem_of_mem_suites hl hmem)
      refine ⟨muette_of_sansBlanc hblanc, fun d => divergenceLue_rien d fun hprefixe => ?_⟩
      exact hblanc (hprefixe.subset (by decide))

theorem Divergence.chiffres (n : Nat) : ∀ c ∈ Nat.toDigits 10 n, c.isDigit = true := fun _ hc =>
  Nat.isDigit_of_mem_toDigits (by decide) (by decide) hc

theorem finDeLigne_of_isDigit {c : Char} (h : c.isDigit = true) : finDeLigne c = false := by
  have hbornes : 48 ≤ c.toNat ∧ c.toNat ≤ 57 := Char.isDigit_iff_toNat.mp h
  unfold finDeLigne
  generalize c.toNat = n at hbornes
  simp only [Bool.or_eq_false_iff, Bool.and_eq_false_imp, decide_eq_true_eq,
    decide_eq_false_iff_not, beq_eq_false_iff_ne, ne_eq]
  omega

theorem lireEntier_compte (u : Chiffres) {n : Nat} (h : n < 2 ^ 31) :
    lireEntier u (String.ofList (Nat.toDigits 10 n)) = some (n : Int) := by
  have hlong : (Nat.toDigits 10 n).length ≤ 10 := by
    rw [Nat.length_toDigits_le_iff (by decide) (by decide)]
    omega
  refine Lib.Nombre.lireEntier_toDigits (hlong.trans ?_)
  decide

theorem mots_divergence (a b : Nat) :
    mots ('+' :: Nat.toDigits 10 a ++ ' ' :: '-' :: Nat.toDigits 10 b) =
      ['+' :: Nat.toDigits 10 a, '-' :: Nat.toDigits 10 b] := by
  have hsigne : ∀ c : Char, estBlanc c = false → ∀ n : Nat,
      ∀ d ∈ c :: Nat.toDigits 10 n, estBlanc d = false := by
    intro c hc n d hd
    cases List.mem_cons.mp hd with
    | inl hd => rw [hd, hc]
    | inr hd => exact estBlanc_of_isDigit (Divergence.chiffres n d hd)
  rw [mots, List.splitOnP_append_cons_of_forall_mem (hsigne '+' (by decide) a) ' ' (by decide),
    List.splitOnP_eq_singleton (hsigne '-' (by decide) b)]
  rfl

theorem Divergence.titre (x : Divergence) : "# branch.ab ".toList <+: x.ligne :=
  List.prefix_append _ _

theorem Divergence.uneLigne (x : Divergence) : ∀ c ∈ x.ligne, finDeLigne c = false := by
  have hcompte : ∀ n : Nat, ∀ c ∈ Nat.toDigits 10 n, finDeLigne c = false := fun n c hc =>
    finDeLigne_of_isDigit (Divergence.chiffres n c hc)
  refine List.forall_mem_append.mpr ⟨List.all_iff_forall_prop.mp (by decide), List.forall_mem_append.mpr ⟨?_, ?_⟩⟩
  · exact List.forall_mem_cons.mpr ⟨by decide, hcompte x.ahead⟩
  · exact List.forall_mem_cons.mpr ⟨by decide, List.forall_mem_cons.mpr
      ⟨by decide, hcompte x.behind⟩⟩

theorem muette_divergence (x : Divergence) : Muette x.ligne := by
  have hdiese : ['#'] <+: "# branch.ab ".toList := by decide
  exact muette_of_diese (hdiese.trans x.titre)

theorem divergenceLue_ligne (u : Chiffres) (x : Divergence) (d : Int × Int) :
    divergenceLue u d x.ligne = some ((x.ahead : Int), (x.behind : Int)) := by
  have hreste : x.ligne.drop 12 =
      '+' :: Nat.toDigits 10 x.ahead ++ ' ' :: '-' :: Nat.toDigits 10 x.behind :=
    List.drop_left' (by decide)
  rw [divergenceLue, if_pos x.titre, hreste, mots_divergence]
  simp only [List.foldlM_cons, List.foldlM_nil, jetonLu, lireEntier_compte u x.bornes.1,
    lireEntier_compte u x.bornes.2]
  rfl

theorem retour_notMem_of_le {cs : Texte} (h : ∀ c ∈ cs, 32 ≤ c.toNat) : '\r' ∉ cs := fun hmem =>
  absurd (h _ hmem) (by decide)

theorem Champ.sansRetour (k : Champ) : '\r' ∉ k.texte :=
  retour_notMem_of_le fun c hc => (k.net c hc).1.le

theorem Nom.sansRetour (n : Nom) : '\r' ∉ n.texte :=
  retour_notMem_of_le fun c hc => (n.net c hc).le

theorem Chemin.sansRetour (p : Chemin) : '\r' ∉ p.texte :=
  retour_notMem_of_le fun c hc => (p.nonCite c hc).1

theorem assembler_sansRetour {champs : List Texte}
    (h : ∀ cs ∈ champs, ∀ c ∈ cs, c ≠ ' ' ∧ finDeLigne c = false) {reste : Texte}
    (hreste : '\r' ∉ reste) : '\r' ∉ assembler champs reste := by
  rw [assembler_eq, List.mem_append, not_or]
  refine ⟨?_, hreste⟩
  intro hmem
  obtain ⟨cs, hcs, hc⟩ := List.mem_flatMap.mp hmem
  cases List.mem_append.mp hc with
  | inl hc => exact absurd (h cs hcs _ hc).2 (by decide)
  | inr hc => exact absurd hc (by decide)

theorem ligne_sansRetour (e : Entree) : '\r' ∉ e.ligne := by
  cases e with
  | ordinaire f path => exact assembler_sansRetour (f.champs_net (by decide)) path.sansRetour
  | renommee f score path origPath =>
      refine assembler_sansRetour (f.champs_net (by decide)) ?_
      rw [List.mem_append, List.mem_append, List.mem_cons, List.mem_cons, not_or, not_or, not_or,
        not_or]
      exact ⟨⟨score.sansRetour, by decide, path.sansRetour⟩, by decide, origPath.sansRetour⟩
  | conflit xy sub m1 m2 m3 mW h1 h2 h3 path =>
      refine assembler_sansRetour ?_ path.sansRetour
      simp only [List.forall_mem_cons, List.not_mem_nil, IsEmpty.forall_iff, implies_true, and_true]
      exact ⟨by decide, xy.separe, sub.separe, m1.separe, m2.separe, m3.separe, mW.separe,
        h1.separe, h2.separe, h3.separe⟩
  | nonSuivie path =>
      rw [Entree.ligne, List.mem_cons, List.mem_cons, not_or, not_or]
      exact ⟨by decide, by decide, path.sansRetour⟩

theorem forall_entete (t : Arbre) {P : Texte → Prop}
    (hoid : P ("# branch.oid ".toList ++ t.oid.texte))
    (hhead : P ("# branch.head ".toList ++ t.head.texte))
    (hupstream : ∀ n ∈ t.upstream, P ("# branch.upstream ".toList ++ n.texte))
    (hab : ∀ x ∈ t.divergence, P x.ligne) : ∀ l ∈ t.entete, P l := by
  intro l hl
  rw [Arbre.entete, List.mem_append, List.mem_append, List.mem_cons, List.mem_singleton,
    Option.mem_toList, Option.mem_toList, Option.map_eq_some_iff, Option.map_eq_some_iff] at hl
  obtain ((hl | hl) | ⟨n, hn, hl⟩) | ⟨x, hx, hl⟩ := hl
  · rw [hl]
    exact hoid
  · rw [hl]
    exact hhead
  · rw [← hl]
    exact hupstream n hn
  · rw [← hl]
    exact hab x hx

theorem retour_notMem_lignes (t : Arbre) : ∀ l ∈ t.lignes, '\r' ∉ l := by
  have hnom : ∀ (titre : Texte) (n : Nom), '\r' ∉ titre → '\r' ∉ titre ++ n.texte := by
    intro titre n htitre
    rw [List.mem_append, not_or]
    exact ⟨htitre, n.sansRetour⟩
  have hab : ∀ x : Divergence, '\r' ∉ x.ligne := fun x hmem =>
    absurd (x.uneLigne _ hmem) (by decide)
  refine List.forall_mem_append.mpr ⟨?_, ?_⟩
  · exact forall_entete t (hnom _ _ (by decide)) (hnom _ _ (by decide))
      (fun n _ => hnom _ _ (by decide)) fun x _ => hab x
  · exact List.forall_mem_map.mpr fun e _ => ligne_sansRetour e

def Arbre.lues (t : Arbre) : List Texte :=
  t.entete.flatMap (·.splitOnP finDeLigne) ++
    t.entrees.flatMap fun e => e.premiere :: suites e.reste

theorem lignes_ecrit (t : Arbre) : lignes (universel t.ecrit) = t.lues := by
  have hretour : '\r' ∉ t.ecrit := by
    intro hmem
    obtain ⟨l, hl, hc⟩ := List.mem_flatMap.mp hmem
    cases List.mem_append.mp hc with
    | inl hc => exact retour_notMem_lignes t l hl hc
    | inr hc => exact absurd hc (by decide)
  rw [universel_of_notMem hretour, Arbre.ecrit, lignes_flatMap (retour_notMem_lignes t),
    Arbre.lignes, List.flatMap_append, List.flatMap_map, Arbre.lues]
  congr 1
  refine List.flatMap_congr fun e _ => ?_
  rw [ligne_eq, splitOnP_assemblee]
  rfl

theorem foldlM_sansEffet {u : Chiffres} {ls : List Texte}
    (h : ∀ l ∈ ls, ∀ d, divergenceLue u d l = some d) (d : Int × Int) :
    ls.foldlM (divergenceLue u) d = some d := by
  induction ls with
  | nil => rfl
  | cons l ls ih =>
      rw [List.foldlM_cons, h l List.mem_cons_self d]
      exact ih fun x hx => h x (List.mem_cons_of_mem l hx)

theorem nom_lu (u : Chiffres) (t : Arbre) :
    ∀ l ∈ ["# branch.oid ".toList ++ t.oid.texte, "# branch.head ".toList ++ t.head.texte] ++
        (t.upstream.map fun n => "# branch.upstream ".toList ++ n.texte).toList,
      ∀ x ∈ l.splitOnP finDeLigne, Muette x ∧ ∀ d, divergenceLue u d x = some d := by
  intro l hl
  rw [List.mem_append, List.mem_cons, List.mem_singleton, Option.mem_toList,
    Option.map_eq_some_iff] at hl
  obtain (hl | hl) | ⟨n, -, hl⟩ := hl
  · rw [hl]
    exact lignes_nom u _ t.oid (by decide) (List.all_iff_forall_prop.mp (by decide)) (by decide)
      (by decide)
  · rw [hl]
    exact lignes_nom u _ t.head (by decide) (List.all_iff_forall_prop.mp (by decide)) (by decide)
      (by decide)
  · rw [← hl]
    exact lignes_nom u _ n (by decide) (List.all_iff_forall_prop.mp (by decide)) (by decide)
      (by decide)

theorem entete_muette (t : Arbre) :
    ∀ l ∈ t.entete.flatMap (·.splitOnP finDeLigne), Muette l := by
  intro l hl
  obtain ⟨ligne, hligne, hl⟩ := List.mem_flatMap.mp hl
  cases List.mem_append.mp hligne with
  | inl hligne => exact (nom_lu .usuels t ligne hligne l hl).1
  | inr hligne =>
      rw [Option.mem_toList, Option.map_eq_some_iff] at hligne
      obtain ⟨x, -, rfl⟩ := hligne
      rw [List.splitOnP_eq_singleton x.uneLigne, List.mem_singleton] at hl
      rw [hl]
      exact muette_divergence x

theorem entete_avance (u : Chiffres) (t : Arbre) :
    (t.entete.flatMap (·.splitOnP finDeLigne)).foldlM (divergenceLue u) (0, 0) =
      some t.avance := by
  rw [Arbre.entete, List.flatMap_append, List.foldlM_append, foldlM_sansEffet]
  · rw [Option.bind_eq_bind, Option.bind_some, Arbre.avance]
    cases t.divergence with
    | none => rfl
    | some x =>
        simp only [Option.map_some, Option.toList_some, List.flatMap_cons, List.flatMap_nil,
          List.append_nil, List.splitOnP_eq_singleton x.uneLigne, List.foldlM_cons,
          divergenceLue_ligne, List.foldlM_nil]
        rfl
  · intro l hl
    obtain ⟨ligne, hligne, hl⟩ := List.mem_flatMap.mp hl
    exact (nom_lu u t ligne hligne l hl).2

theorem flatMap_eq_iff {ι α : Type*} {f g h : ι → List α} (es : List ι)
    (hlong : ∀ e ∈ es, (f e).length = (h e).length) :
    es.flatMap (fun e => f e ++ g e) = es.flatMap h ↔ ∀ e ∈ es, f e = h e ∧ g e = [] := by
  constructor
  · induction es with
    | nil => exact fun _ e he => absurd he List.not_mem_nil
    | cons e es ih =>
        intro heq
        have hreste := fun x hx => hlong x (List.mem_cons_of_mem e hx)
        rw [List.flatMap_cons, List.flatMap_cons, List.append_assoc] at heq
        obtain ⟨hpremier, hsuite⟩ := List.append_inj heq (hlong e List.mem_cons_self)
        have htotal : (es.flatMap h).length ≤ (es.flatMap fun e => f e ++ g e).length := by
          rw [List.length_flatMap, List.length_flatMap]
          refine List.sum_le_sum fun x hx => ?_
          rw [List.length_append, hreste x hx]
          exact Nat.le_add_right _ _
        have hvide : g e = [] := by
          have hlongueur := congrArg List.length hsuite
          rw [List.length_append] at hlongueur
          exact List.eq_nil_of_length_eq_zero (by omega)
        rw [hvide, List.nil_append] at hsuite
        exact List.forall_mem_cons.mpr ⟨⟨hpremier, hvide⟩, ih hreste hsuite⟩
  · intro hegal
    refine List.flatMap_congr fun e he => ?_
    rw [(hegal e he).1, (hegal e he).2, List.append_nil]

/-- The entry is neither renamed nor cut, and what it holds after an end of line says nothing. -/
def Entree.Sobre : Entree → Prop
  | ordinaire _ path => ∀ c ∈ path.texte, finDeLigne c = false
  | renommee _ _ _ _ => False
  | conflit _ _ _ _ _ _ _ _ _ path => ∀ l ∈ suites path.texte, Muette l
  | nonSuivie path => ∀ c ∈ path.texte, finDeLigne c = false

def Entree.EnConflit : Entree → Prop
  | conflit _ _ _ _ _ _ _ _ _ _ => True
  | _ => False

/-- The lines that follow an end of line within an entry. -/
def Arbre.suites (t : Arbre) : List Texte := t.entrees.flatMap fun e => GitTools.suites e.reste

def Arbre.Lisible (u : Chiffres) (t : Arbre) : Prop :=
  (∀ e ∈ t.entrees, e.Sobre) ∧
    t.suites.foldlM (divergenceLue u) t.avance = some t.avance ∧
    (t.entrees ≠ [] → ∃ e ∈ t.entrees, ¬e.EnConflit)

/-- What is expected of the variables of the loop. -/
def Arbre.Vue (t : Arbre) (v : GitTools.Vue) : Prop :=
  v.staged = t.entrees.flatMap Entree.staged ∧ v.modified = t.entrees.flatMap Entree.modified ∧
    v.untracked = t.entrees.flatMap Entree.untracked ∧ v.divergence = t.avance ∧
    ((v.staged ≠ [] ∨ v.modified ≠ [] ∨ v.untracked ≠ []) ↔ t.entrees ≠ [])

theorem fidele_iff_vue_lue (u : Chiffres) (t : Arbre) :
    Fidele u t ↔ ∃ v, t.lues.foldlM (lireVue u) Releve.initial.vue = some v ∧ t.Vue v := by
  rw [← foldlM_lireLigne]
  unfold Fidele status
  rw [lignes_ecrit]
  cases t.lues.foldlM (lireLigne u) Releve.initial with
  | none =>
      constructor
      · intro ⟨s, hs, _⟩
        cases hs
      · intro ⟨v, hv, _⟩
        cases hv
  | some r =>
      simp only [Option.map_some, Option.some.injEq, exists_eq_left', conclure, Arbre.Vue,
        Releve.vue, decide_eq_true_eq]

theorem fidele_iff_lignes (u : Chiffres) (t : Arbre) :
    Fidele u t ↔ (∀ l ∈ t.lues, leve l = false) ∧
      t.lues.foldlM (divergenceLue u) (0, 0) = some t.avance ∧
      t.lues.flatMap stagedLu = t.entrees.flatMap Entree.staged ∧
      t.lues.flatMap modifiedLu = t.entrees.flatMap Entree.modified ∧
      t.lues.flatMap untrackedLu = t.entrees.flatMap Entree.untracked ∧
      ((t.entrees.flatMap Entree.staged ≠ [] ∨ t.entrees.flatMap Entree.modified ≠ [] ∨
        t.entrees.flatMap Entree.untracked ≠ []) ↔ t.entrees ≠ []) := by
  have hany : t.lues.any leve = false ↔ ∀ l ∈ t.lues, leve l = false := by
    rw [List.any_eq_false]
    simp only [Bool.not_eq_true]
  rw [fidele_iff_vue_lue, foldlM_lireVue, ← hany]
  cases t.lues.any leve with
  | true => simp
  | false =>
      simp only [Bool.false_eq_true, if_false, Option.map_eq_some_iff, true_and, Releve.vue,
        Releve.initial, List.nil_append]
      constructor
      · intro ⟨v, ⟨d, hd, hv⟩, hstaged, hmodified, huntracked, havance, hdirty⟩
        rw [← hv] at hstaged hmodified huntracked havance hdirty
        dsimp only at hstaged hmodified huntracked havance hdirty
        rw [hstaged, hmodified, huntracked] at hdirty
        rw [havance] at hd
        exact ⟨hd, hstaged, hmodified, huntracked, hdirty⟩
      · intro ⟨hd, hstaged, hmodified, huntracked, hdirty⟩
        refine ⟨_, ⟨_, hd, rfl⟩, hstaged, hmodified, huntracked, rfl, ?_⟩
        dsimp only
        rwa [hstaged, hmodified, huntracked]

/-- The first line of the entry gives its path back. -/
def Entree.Relue (e : Entree) : Prop :=
  e.staged.map (fun _ => e.lu) = e.staged ∧ e.modified.map (fun _ => e.lu) = e.modified ∧
    e.untracked.map (fun _ => e.lu) = e.untracked

theorem map_eq_iff (x : Changement) (lu path : Texte) :
    (if x ≠ .inchange then [path] else []).map (fun _ => lu) =
        (if x ≠ .inchange then [path] else []) ↔
      (x ≠ .inchange → lu = path) := by
  split
  · next h => simp [h]
  · next h => simp [h]

theorem relue_fiche (f : Fiche) (lu path : Texte) :
    ((if f.x ≠ .inchange then [path] else []).map (fun _ => lu) =
        (if f.x ≠ .inchange then [path] else []) ∧
      (if f.y ≠ .inchange then [path] else []).map (fun _ => lu) =
        (if f.y ≠ .inchange then [path] else [])) ↔ lu = path := by
  rw [map_eq_iff, map_eq_iff]
  constructor
  · intro h
    exact f.change.elim h.1 h.2
  · intro h
    exact ⟨fun _ => h, fun _ => h⟩

theorem relue_sobre_iff (e : Entree) :
    (e.Relue ∧ ∀ l ∈ suites e.reste, Muette l) ↔ e.Sobre := by
  have huneLigne : ∀ cs : Texte, (debut cs = cs ∧ ∀ l ∈ suites cs, Muette l) ↔
      ∀ c ∈ cs, finDeLigne c = false := by
    intro cs
    rw [debut_eq_self_iff]
    constructor
    · exact And.left
    · intro h
      rw [suites_of_forall h]
      exact ⟨h, fun l hl => absurd hl List.not_mem_nil⟩
  cases e with
  | ordinaire f path =>
      refine Iff.trans (and_congr_left' ?_) (huneLigne path.texte)
      refine Iff.trans ?_ (relue_fiche f (debut path.texte) path.texte)
      exact and_congr_right' (and_iff_left rfl)
  | renommee f score path origPath =>
      refine iff_of_false (fun h => ?_) id
      refine lu_renommee f score path origPath ((relue_fiche f _ path.texte).mp ?_)
      exact ⟨h.1.1, h.1.2.1⟩
  | conflit xy sub m1 m2 m3 mW h1 h2 h3 path => exact and_iff_right ⟨rfl, rfl, rfl⟩
  | nonSuivie path =>
      refine Iff.trans (and_congr_left' ?_) (huneLigne path.texte)
      simp [Entree.Relue, Entree.staged, Entree.modified, Entree.untracked, Entree.lu, Entree.reste]

theorem muettes_iff (ls : List Texte) :
    (∀ l ∈ ls, Muette l) ↔ (∀ l ∈ ls, leve l = false) ∧ ls.flatMap stagedLu = [] ∧
      ls.flatMap modifiedLu = [] ∧ ls.flatMap untrackedLu = [] := by
  simp only [List.flatMap_eq_nil_iff, Muette, forall_and]

theorem leve_lues_iff (t : Arbre) :
    (∀ l ∈ t.lues, leve l = false) ↔
      ∀ e ∈ t.entrees, ∀ l ∈ suites e.reste, leve l = false := by
  rw [Arbre.lues, List.forall_mem_append]
  constructor
  · intro h e he l hl
    exact h.2 l (List.mem_flatMap.mpr ⟨e, he, List.mem_cons_of_mem _ hl⟩)
  · intro h
    refine ⟨fun l hl => (entete_muette t l hl).1, fun l hl => ?_⟩
    obtain ⟨e, he, hl⟩ := List.mem_flatMap.mp hl
    cases List.mem_cons.mp hl with
    | inl hl =>
        rw [hl]
        exact (premiere_lue e).1
    | inr hl => exact h e he l hl

theorem chemins_lus_iff (t : Arbre) {f : Texte → List Texte} {attendus : Entree → List Texte}
    (hentete : ∀ l ∈ t.entete.flatMap (·.splitOnP finDeLigne), f l = [])
    (hpremiere : ∀ e : Entree, f e.premiere = (attendus e).map (fun _ => e.lu)) :
    t.lues.flatMap f = t.entrees.flatMap attendus ↔
      ∀ e ∈ t.entrees, (attendus e).map (fun _ => e.lu) = attendus e ∧
        (suites e.reste).flatMap f = [] := by
  rw [Arbre.lues, List.flatMap_append, List.flatMap_eq_nil_iff.mpr hentete, List.nil_append,
    List.flatMap_assoc]
  simp only [List.flatMap_cons, hpremiere]
  exact flatMap_eq_iff t.entrees fun e _ => List.length_map _

theorem divergence_entrees (u : Chiffres) (es : List Entree) (d : Int × Int) :
    (es.flatMap fun e => e.premiere :: suites e.reste).foldlM (divergenceLue u) d =
      (es.flatMap fun e => suites e.reste).foldlM (divergenceLue u) d := by
  induction es generalizing d with
  | nil => rfl
  | cons e es ih =>
      rw [List.flatMap_cons, List.flatMap_cons, List.cons_append, List.foldlM_cons,
        divergence_premiere, Option.bind_eq_bind, Option.bind_some, List.foldlM_append,
        List.foldlM_append]
      exact bind_congr fun d' => ih d'

theorem enConflit_iff (e : Entree) :
    (e.staged = [] ∧ e.modified = [] ∧ e.untracked = []) ↔ e.EnConflit := by
  have hfiche : ∀ (f : Fiche) (path : Texte),
      ¬((if f.x ≠ .inchange then [path] else []) = [] ∧
        (if f.y ≠ .inchange then [path] else []) = []) := by
    intro f path ⟨hx, hy⟩
    cases f.change with
    | inl h => rw [if_pos h] at hx; cases hx
    | inr h => rw [if_pos h] at hy; cases hy
  cases e with
  | ordinaire f path => exact iff_of_false (fun h => hfiche f path.texte ⟨h.1, h.2.1⟩) id
  | renommee f score path origPath =>
      exact iff_of_false (fun h => hfiche f path.texte ⟨h.1, h.2.1⟩) id
  | conflit xy sub m1 m2 m3 mW h1 h2 h3 path => exact iff_of_true ⟨rfl, rfl, rfl⟩ trivial
  | nonSuivie path => exact iff_of_false (fun h => List.cons_ne_nil _ _ h.2.2) id

theorem dirty_iff (es : List Entree) :
    ((es.flatMap Entree.staged ≠ [] ∨ es.flatMap Entree.modified ≠ [] ∨
        es.flatMap Entree.untracked ≠ []) ↔ es ≠ []) ↔
      (es ≠ [] → ∃ e ∈ es, ¬e.EnConflit) := by
  have hvides : (es.flatMap Entree.staged ≠ [] ∨ es.flatMap Entree.modified ≠ [] ∨
      es.flatMap Entree.untracked ≠ []) ↔ ∃ e ∈ es, ¬e.EnConflit := by
    rw [← not_iff_not]
    push Not
    simp only [List.flatMap_eq_nil_iff, ← enConflit_iff, forall_and]
  rw [hvides]
  constructor
  · exact Iff.mpr
  · intro h
    refine ⟨fun ⟨e, he, _⟩ => List.ne_nil_of_mem he, h⟩

/-- The status that is returned is that of the tree exactly when no entry is renamed or cut, what
follows an end of line in an unmerged path says nothing, and not all entries are unmerged. -/
theorem status_fidele_iff (u : Chiffres) (t : Arbre) : Fidele u t ↔ t.Lisible u := by
  have hstaged := chemins_lus_iff t (f := stagedLu) (fun l hl => (entete_muette t l hl).2.1)
    fun e => (premiere_lue e).2.1
  have hmodified := chemins_lus_iff t (f := modifiedLu)
    (fun l hl => (entete_muette t l hl).2.2.1) fun e => (premiere_lue e).2.2.1
  have huntracked := chemins_lus_iff t (f := untrackedLu)
    (fun l hl => (entete_muette t l hl).2.2.2) fun e => (premiere_lue e).2.2.2
  have havance : t.lues.foldlM (divergenceLue u) (0, 0) =
      t.suites.foldlM (divergenceLue u) t.avance := by
    rw [Arbre.lues, List.foldlM_append, entete_avance, Option.bind_eq_bind, Option.bind_some,
      divergence_entrees, Arbre.suites]
  rw [fidele_iff_lignes, leve_lues_iff, havance, hstaged, hmodified, huntracked, dirty_iff,
    Arbre.Lisible]
  simp only [← relue_sobre_iff, muettes_iff, Entree.Relue]
  constructor
  · intro ⟨hleve, hdivergence, hs, hm, hu, hdirty⟩
    refine ⟨fun e he => ⟨⟨(hs e he).1, (hm e he).1, (hu e he).1⟩, hleve e he, ?_⟩, hdivergence,
      hdirty⟩
    exact ⟨(hs e he).2, (hm e he).2, (hu e he).2⟩
  · intro ⟨hentrees, hdivergence, hdirty⟩
    exact ⟨fun e he => (hentrees e he).2.1, hdivergence,
      fun e he => ⟨(hentrees e he).1.1, (hentrees e he).2.2.1⟩,
      fun e he => ⟨(hentrees e he).1.2.1, (hentrees e he).2.2.2.1⟩,
      fun e he => ⟨(hentrees e he).1.2.2, (hentrees e he).2.2.2.2⟩, hdirty⟩

/-- One letter stands for the fields that nothing reads. -/
def champUn : Champ := ⟨['0'], List.all_iff_forall_prop.mp (by decide)⟩

def nomUn : Nom := ⟨['t'], List.all_iff_forall_prop.mp (by decide)⟩

def cheminNeuf : Chemin := ⟨"neuf".toList, List.all_iff_forall_prop.mp (by decide)⟩

def arbreRenomme : Arbre where
  oid := nomUn
  head := nomUn
  upstream := none
  divergence := none
  entrees := [.renommee
    ⟨.renomme, .inchange, by decide, champUn, champUn, champUn, champUn, champUn, champUn⟩
    ⟨"R100".toList, List.all_iff_forall_prop.mp (by decide)⟩ cheminNeuf ⟨"vieux".toList, List.all_iff_forall_prop.mp (by decide)⟩]

def arbreEnConflit : Arbre where
  oid := nomUn
  head := nomUn
  upstream := none
  divergence := none
  entrees := [.conflit ⟨"UU".toList, List.all_iff_forall_prop.mp (by decide)⟩ champUn champUn champUn champUn champUn champUn champUn
    champUn cheminNeuf]

/-- The score is taken for a part of the new name, and a tree in conflict for a clean one. -/
theorem renommage_mal_lu : ¬Fidele .usuels arbreRenomme ∧ ¬Fidele .usuels arbreEnConflit := by
  have hstaged : (status .usuels arbreRenomme.ecrit).map GitStatus.staged =
      some ["R100 neuf".toList] := by
    decide +kernel
  have hdirty : (status .usuels arbreEnConflit.ecrit).map GitStatus.dirty = some false := by
    decide +kernel
  constructor
  · intro ⟨s, hs, hegal, _⟩
    rw [hs, Option.map_some, hegal] at hstaged
    exact absurd hstaged (by decide)
  · intro ⟨s, hs, _, _, _, _, hegal⟩
    rw [hs, Option.map_some, Option.some.injEq] at hdirty
    rw [hdirty] at hegal
    exact absurd (hegal.mpr (List.cons_ne_nil _ _)) Bool.false_ne_true

end Hermes.GitTools
