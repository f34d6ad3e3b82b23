import Hermes.Lib.Texte
import Mathlib.Data.List.DropRight
import Mathlib.Data.Bool.AllAny

/-! # Pushing a branch

A push is refused when its target reads as a protected branch.
-/

namespace Hermes.GitTools

open Lib.Texte

def PROTECTED_BRANCHES : List String := ["main", "master", "production", "prod"]

/-- A branch is protected whatever the case of its letters. -/
def protegee (branche : List Char) : Bool :=
  String.ofList (branche.map Char.toLower) ∈ PROTECTED_BRANCHES

/-- `short[len(prefix):]`, if the name starts with the prefix. -/
def oterPrefixe (cs p : List Char) : List Char := if p <+: cs then cs.drop p.length else cs

def prefixes : List (List Char) :=
  ["refs/heads/".toList, "refs/remotes/".toList, "remotes/".toList]

def court (cs : List Char) : List Char := prefixes.foldl oterPrefixe cs

/-- What follows the first slash, if there is one. -/
def apresBarre (cs : List Char) : List Char :=
  if '/' ∈ cs then (cs.dropWhile (· ≠ '/')).tail else cs

def isProtectedBranch (name : String) : Bool := protegee (apresBarre (court (strip name).toList))

structure Effet where
  force : Bool
  branches : List (List Char)
  deriving DecidableEq

def Effet.Inoffensif (e : Effet) : Prop := e.force = false ∧ ∀ b ∈ e.branches, protegee b = false

structure Depot where
  /-- `git rev-parse --abbrev-ref HEAD`. -/
  courante : String
  /-- What a push does with two arguments of which one starts with a dash. -/
  options : String → String → Effet
  /-- The branches that the refspec `:` updates. -/
  communes : List (List Char)
  motif : List Char → List (List Char)

def designee (courante : String) (nom : List Char) : List Char :=
  if nom = "HEAD".toList ∨ nom = "@".toList then courante.toList
  else if "refs/heads/".toList <+: nom then nom.drop 11
  else if "heads/".toList <+: nom then nom.drop 6
  else nom

def destination (cs : List Char) : List Char := cs.rtakeWhile (· ≠ ':')

/-- The branches that a refspec updates or deletes, its plus taken away. -/
def ecrites (d : Depot) (cs : List Char) : List (List Char) :=
  if '*' ∈ cs then d.motif cs
  else if ':' ∈ cs then
    if cs = [':'] then d.communes
    else if destination cs = [] then []
    else [designee d.courante (destination cs)]
  else [designee d.courante cs]

def refspec (d : Depot) (cs : List Char) : Effet :=
  match cs with
  | '+' :: reste => ⟨true, ecrites d reste⟩
  | reste => ⟨false, ecrites d reste⟩

def tiret (argument : String) : Bool := argument.toList.head? = some '-'

/-- What `git push` does with a remote and a target. -/
def effet (d : Depot) (remote target : String) : Effet :=
  if tiret remote || tiret target then d.options remote target
  else refspec d target.toList

structure GitWriteResult where
  applied : Bool
  operation : String
  verdict : String
  reason : String
  detail : List (String × String)
  deriving DecidableEq

/-- A refusal, or the arguments that git is run with. -/
inductive Suite where
  | refus (r : GitWriteResult)
  | lance (args : List String)
  deriving DecidableEq

abbrev Verdict := Bool × String × String

/-- `_check_write` of an action and of its details. -/
abbrev Aegis := String → List (String × String) → Verdict

def cible (d : Depot) (branch : Option String) : String := ou (branch.getD "") d.courante

def push (citer : String → String) (repoPath : String) (aegis : Aegis) (d : Depot)
    (remote : String) (branch : Option String) (setUpstream : Bool) : Suite :=
  let target := cible d branch
  let detail := [("branch", target), ("remote", remote)]
  if isProtectedBranch target then
    .refus {
      applied := false
      operation := "push"
      verdict := "deny"
      reason := "Refusing to push directly to protected branch " ++ citer target ++
        " (§14). Open a pull request instead."
      detail }
  else
    match aegis ("Push " ++ target ++ " to " ++ remote ++ " from " ++ repoPath)
        [("op", "push"), ("remote", remote), ("target", target)] with
    | (true, _, _) =>
        .lance (["push"] ++ (if setUpstream then ["--set-upstream"] else []) ++ [remote, target])
    | (false, verdict, reason) =>
        .refus { applied := false, operation := "push", verdict, reason, detail }

def executer (d : Depot) : List String → Effet
  | [_, remote, target] => effet d remote target
  | [_, _, remote, target] => effet d remote target
  | _ => ⟨false, []⟩

def derniere (cs : List Char) : List Char := cs.rtakeWhile (· ≠ '/')

section Noms

variable {u v w cs p : List Char}

theorem derniere_of_notMem (h : '/' ∉ cs) : derniere cs = cs := by
  refine List.rtakeWhile_eq_self_iff.mpr fun c hc => decide_eq_true ?_
  rintro rfl
  exact h hc

theorem derniere_append (u v : List Char) : derniere (u ++ '/' :: v) = derniere v := by
  have hrenverse : (u ++ '/' :: v).reverse = v.reverse ++ '/' :: u.reverse := by simp
  unfold derniere List.rtakeWhile
  rw [hrenverse, List.takeWhile_append]
  split
  · next h =>
      have htout := (List.takeWhile_prefix _).eq_of_length h
      rw [List.takeWhile_cons_of_neg (by decide), List.append_nil, htout]
  · rfl

theorem dropWhile_append_barre (u v : List Char) :
    (u ++ '/' :: v).dropWhile estBlanc = u.dropWhile estBlanc ++ '/' :: v := by
  rw [List.dropWhile_append]
  split
  · next h =>
      rw [List.isEmpty_iff.mp h, List.nil_append, List.dropWhile_cons_of_neg (by decide)]
  · rfl

theorem rdropWhile_append_barre (u v : List Char) :
    (u ++ '/' :: v).rdropWhile estBlanc = u ++ '/' :: v.rdropWhile estBlanc := by
  have hrenverse : (u ++ '/' :: v).reverse = v.reverse ++ '/' :: u.reverse := by simp
  unfold List.rdropWhile
  rw [hrenverse, dropWhile_append_barre]
  simp

theorem rogner_append_barre (u v : List Char) :
    rogner (u ++ '/' :: v) = u.dropWhile estBlanc ++ '/' :: v.rdropWhile estBlanc := by
  rw [rogner, dropWhile_append_barre, rdropWhile_append_barre]

theorem derniere_oterPrefixe (p cs : List Char) :
    derniere (oterPrefixe cs (p ++ ['/'])) = derniere cs := by
  unfold oterPrefixe
  split
  · next h =>
      obtain ⟨suite, hsuite⟩ := h
      rw [← hsuite, List.drop_left, List.append_assoc, List.singleton_append, derniere_append]
  · rfl

theorem prefixes_eq : prefixes =
    ["refs/heads".toList ++ ['/'], "refs/remotes".toList ++ ['/'], "remotes".toList ++ ['/']] := by
  decide

theorem derniere_court (cs : List Char) : derniere (court cs) = derniere cs := by
  simp only [court, prefixes_eq, List.foldl_cons, List.foldl_nil, derniere_oterPrefixe]

theorem apresBarre_append (h : '/' ∉ u) (v : List Char) : apresBarre (u ++ '/' :: v) = v := by
  have hdebut : ∀ c ∈ u, decide (c ≠ '/') = true := by
    intro c hc
    refine decide_eq_true ?_
    rintro rfl
    exact h hc
  have hmem : '/' ∈ u ++ '/' :: v := List.mem_append_right u List.mem_cons_self
  rw [apresBarre, if_pos hmem, List.dropWhile_append_of_pos hdebut,
    List.dropWhile_cons_of_neg (by decide), List.tail_cons]

theorem exists_of_barre (h : '/' ∈ cs) : ∃ u v, cs = u ++ '/' :: v ∧ '/' ∉ u := by
  induction cs with
  | nil => cases h
  | cons c cs ih =>
      by_cases hc : c = '/'
      · exact ⟨[], cs, by rw [hc, List.nil_append], List.not_mem_nil⟩
      · have hreste : '/' ∈ cs := (List.mem_cons.mp h).resolve_left (Ne.symm hc)
        obtain ⟨u, v, rfl, hu⟩ := ih hreste
        refine ⟨c :: u, v, rfl, ?_⟩
        rw [List.mem_cons, not_or]
        exact ⟨Ne.symm hc, hu⟩

theorem derniere_apresBarre (cs : List Char) : derniere (apresBarre cs) = derniere cs := by
  by_cases h : '/' ∈ cs
  · obtain ⟨u, v, rfl, hu⟩ := exists_of_barre h
    rw [apresBarre_append hu, derniere_append]
  · rw [apresBarre, if_neg h]

theorem ne_barre_of_lettre {c : Char} (h : 65 ≤ c.toNat ∧ c.toNat ≤ 122) :
    c ≠ '/' ∧ estBlanc c = false := by
  refine ⟨?_, ?_⟩
  · intro heq
    rw [heq] at h
    exact absurd h.1 (by decide)
  · unfold estBlanc
    generalize c.toNat = n at h
    simp only [Bool.or_eq_false_iff, Bool.and_eq_false_imp, decide_eq_true_eq,
      decide_eq_false_iff_not, beq_eq_false_iff_ne, ne_eq]
    omega

theorem lettre_of_protegee (h : protegee cs = true) :
    cs ≠ [] ∧ ∀ c ∈ cs, c ≠ '/' ∧ estBlanc c = false := by
  have hmot : cs.map Char.toLower ∈ PROTECTED_BRANCHES.map String.toList := by
    have hmem := List.mem_map_of_mem (f := String.toList) (of_decide_eq_true h)
    rwa [String.toList_ofList] at hmem
  have hlettres : ∀ mot ∈ PROTECTED_BRANCHES.map String.toList, mot ≠ [] ∧
      mot.all fun c => 97 ≤ c.toNat ∧ c.toNat ≤ 122 := by
    decide
  obtain ⟨hne, hmots⟩ := hlettres _ hmot
  replace hmots := List.all_iff_forall_prop.mp hmots
  refine ⟨fun hnil => hne (by rw [hnil, List.map_nil]), fun c hc => ?_⟩
  have hbas := hmots c.toLower (List.mem_map_of_mem hc)
  have hbornes : 65 ≤ c.toNat ∧ c.toNat ≤ 122 := by
    unfold Char.toLower at hbas
    split at hbas
    · next hmaj =>
        have h65 : (65 : Nat) ≤ c.toNat := hmaj.1
        have h90 : c.toNat ≤ 90 := hmaj.2
        omega
    · omega
  exact ne_barre_of_lettre hbornes

theorem barre_notMem_of_protegee (h : protegee cs = true) : '/' ∉ cs :=
  fun hmem => ((lettre_of_protegee h).2 _ hmem).1 rfl

theorem rogner_of_protegee (h : protegee cs = true) : rogner cs = cs :=
  rogner_of_forall fun c hc => ((lettre_of_protegee h).2 c hc).2

theorem isProtectedBranch_eq (name : String) :
    isProtectedBranch name = protegee (apresBarre (court (rogner name.toList))) := by
  rw [isProtectedBranch, toList_strip]

def avant (cs : List Char) : List Char := cs.rdropWhile (· ≠ '/')

theorem avant_append_derniere (cs : List Char) : avant cs ++ derniere cs = cs :=
  List.rdropWhile_append_rtakeWhile

theorem barre_notMem_derniere (cs : List Char) : '/' ∉ derniere cs := by
  intro hmem
  have hne := List.mem_rtakeWhile_imp hmem
  simp at hne

theorem derniere_avant (cs : List Char) : derniere (avant cs) = [] := by
  rw [derniere, List.rtakeWhile_eq_nil_iff]
  intro hne
  exact List.rdropWhile_last_not _ _ hne

theorem derniere_eq_nil (h : derniere u = []) : u = [] ∨ ∃ a, u = a ++ ['/'] := by
  obtain rfl | ⟨a, c, rfl⟩ := List.eq_nil_or_concat u
  · exact Or.inl rfl
  · rw [List.concat_eq_append] at h
    by_cases hc : c = '/'
    · exact Or.inr ⟨a, by rw [hc, List.concat_eq_append]⟩
    · have hfin : (a ++ [c]).rtakeWhile (· ≠ '/') = a.rtakeWhile (· ≠ '/') ++ [c] :=
        List.rtakeWhile_concat_pos (· ≠ '/') a c (decide_eq_true hc)
      rw [derniere, hfin] at h
      exact absurd h (List.append_ne_nil_of_right_ne_nil _ (List.cons_ne_nil c []))

theorem derniere_append_of_nil (h : derniere u = []) (hw : '/' ∉ w) : derniere (u ++ w) = w := by
  obtain rfl | ⟨a, rfl⟩ := derniere_eq_nil h
  · exact derniere_of_notMem hw
  · rw [List.append_assoc, List.singleton_append, derniere_append, derniere_of_notMem hw]

theorem avant_append_of_nil (h : derniere u = []) (hw : '/' ∉ w) : avant (u ++ w) = u := by
  have hdecoupe := avant_append_derniere (u ++ w)
  rw [derniere_append_of_nil h hw] at hdecoupe
  exact List.append_cancel_right hdecoupe

theorem prefix_append_barre (hw : '/' ∉ w) : p ++ ['/'] <+: u ++ w ↔ p ++ ['/'] <+: u := by
  constructor
  · intro h
    by_cases hle : (p ++ ['/']).length ≤ u.length
    · exact List.prefix_of_prefix_length_le h (List.prefix_append u w) hle
    · obtain ⟨x, hx⟩ := List.prefix_of_prefix_length_le (List.prefix_append u w) h (by omega)
      rw [← hx, List.prefix_append_right_inj] at h
      have hne : x ≠ [] := by
        intro hnil
        rw [← hx, hnil, List.append_nil] at hle
        exact hle le_rfl
      have hlast : '/' ∈ x := by
        have hget : (p ++ ['/']).getLast (by simp) = x.getLast hne := by
          simp only [← hx, List.getLast_append_of_ne_nil _ hne]
        rw [List.getLast_concat] at hget
        rw [hget]
        exact List.getLast_mem hne
      exact absurd (h.subset hlast) hw
  · intro h
    exact h.trans (List.prefix_append u w)

theorem oterPrefixe_append (hw : '/' ∉ w) (p u : List Char) :
    oterPrefixe (u ++ w) (p ++ ['/']) = oterPrefixe u (p ++ ['/']) ++ w := by
  unfold oterPrefixe
  by_cases h : p ++ ['/'] <+: u
  · rw [if_pos h, if_pos ((prefix_append_barre hw).mpr h), List.drop_append_of_le_length h.length_le]
  · rw [if_neg h, if_neg fun hlong => h ((prefix_append_barre hw).mp hlong)]

theorem court_append (hw : '/' ∉ w) (u : List Char) : court (u ++ w) = court u ++ w := by
  simp only [court, prefixes_eq, List.foldl_cons, List.foldl_nil, oterPrefixe_append hw]

theorem protegee_apresBarre_iff (h : derniere u = []) (hw : '/' ∉ w) :
    protegee (apresBarre (u ++ w)) = true ↔ protegee w = true ∧ u.count '/' ≤ 1 := by
  constructor
  · intro hprotegee
    have hfin : derniere (apresBarre (u ++ w)) = apresBarre (u ++ w) :=
      derniere_of_notMem (barre_notMem_of_protegee hprotegee)
    rw [derniere_apresBarre, derniere_append_of_nil h hw] at hfin
    have hcompte : w.count '/' = 0 := List.count_eq_zero_of_not_mem hw
    refine ⟨(congrArg protegee hfin).trans hprotegee, ?_⟩
    by_cases hmem : '/' ∈ u ++ w
    · obtain ⟨a, v, hcoupe, ha⟩ := exists_of_barre hmem
      rw [hcoupe, apresBarre_append ha] at hfin
      have htotal : (u ++ w).count '/' = (a ++ '/' :: v).count '/' := by rw [hcoupe]
      rw [← hfin, List.count_append, List.count_append, List.count_cons_self, hcompte,
        List.count_eq_zero_of_not_mem ha] at htotal
      omega
    · have hu : u.count '/' = 0 :=
        List.count_eq_zero_of_not_mem fun hu => hmem (List.mem_append_left w hu)
      omega
  · intro ⟨hprotegee, hcompte⟩
    obtain rfl | ⟨a, rfl⟩ := derniere_eq_nil h
    · rwa [List.nil_append, apresBarre, if_neg hw]
    · have ha : '/' ∉ a := by
        rw [List.count_append, List.count_singleton_self] at hcompte
        exact List.count_eq_zero.mp (by omega)
      rwa [List.append_assoc, List.singleton_append, apresBarre_append ha]

/-- What the tool accepts before the last segment. -/
def Reconnu (q : List Char) : Prop := (court q).count '/' ≤ 1

theorem isProtectedBranch_iff (name : String) :
    isProtectedBranch name = true ↔
      protegee (derniere (rogner name.toList)) = true ∧ Reconnu (avant (rogner name.toList)) := by
  have hcourt : court (rogner name.toList) =
      court (avant (rogner name.toList)) ++ derniere (rogner name.toList) := by
    rw [← court_append (barre_notMem_derniere _), avant_append_derniere]
  have hvide : derniere (court (avant (rogner name.toList))) = [] := by
    rw [derniere_court, derniere_avant]
  rw [isProtectedBranch_eq, hcourt]
  exact protegee_apresBarre_iff hvide (barre_notMem_derniere _)

/-- What may stand before a branch: nothing, the branches of the repository, or those of one of
its remotes. -/
def qualificatifs (distants : List (List Char)) : List (List Char) :=
  [[], "refs/heads/".toList, "heads/".toList] ++ distants.flatMap fun r =>
    [r ++ ['/'], "remotes/".toList ++ r ++ ['/'], "refs/remotes/".toList ++ r ++ ['/']]

/-- The ref that a name denotes is a protected branch. -/
def Designe (distants : List (List Char)) (nom : List Char) : Prop :=
  ∃ q ∈ qualificatifs distants, ∃ b, nom = q ++ b ∧ protegee b = true

theorem derniere_qualificatif {distants : List (List Char)} {q : List Char}
    (h : q ∈ qualificatifs distants) : derniere q = [] := by
  rw [qualificatifs, List.mem_append, List.mem_flatMap] at h
  cases h with
  | inl h =>
      have hvides : ∀ q ∈ [[], "refs/heads/".toList, "heads/".toList], derniere q = [] := by decide
      exact hvides q h
  | inr h =>
      obtain ⟨r, -, hq⟩ := h
      have hbarre : ∀ u : List Char, derniere (u ++ ['/']) = [] := fun u => derniere_append u []
      simp only [List.mem_cons, List.not_mem_nil, or_false] at hq
      obtain rfl | rfl | rfl := hq
      · exact hbarre r
      · exact hbarre ("remotes/".toList ++ r)
      · exact hbarre ("refs/remotes/".toList ++ r)

theorem designe_iff (distants : List (List Char)) (nom : List Char) :
    Designe distants nom ↔
      protegee (derniere nom) = true ∧ avant nom ∈ qualificatifs distants := by
  constructor
  · intro ⟨q, hq, b, hnom, hb⟩
    have hbarre := barre_notMem_of_protegee hb
    rw [hnom, derniere_append_of_nil (derniere_qualificatif hq) hbarre,
      avant_append_of_nil (derniere_qualificatif hq) hbarre]
    exact ⟨hb, hq⟩
  · intro ⟨hb, hq⟩
    exact ⟨avant nom, hq, derniere nom, (avant_append_derniere nom).symm, hb⟩

theorem derniere_rogner (h : protegee (derniere cs) = true) :
    derniere (rogner cs) = derniere cs := by
  obtain hvide | ⟨a, ha⟩ := derniere_eq_nil (derniere_avant cs)
  · have htout : derniere cs = cs := by
      have hdecoupe := avant_append_derniere cs
      rwa [hvide, List.nil_append] at hdecoupe
    rw [htout] at h
    rw [rogner_of_protegee h]
  · have hcs : cs = a ++ '/' :: derniere cs := by
      have hdecoupe := avant_append_derniere cs
      rw [ha, List.append_assoc, List.singleton_append] at hdecoupe
      exact hdecoupe.symm
    have hfin : (derniere cs).rdropWhile estBlanc = derniere cs :=
      rdropWhile_of_rogner (rogner_of_protegee h)
    have hrogne : rogner cs = a.dropWhile estBlanc ++ '/' :: derniere cs := by
      conv_lhs => rw [hcs]
      rw [rogner_append_barre, hfin]
    rw [hrogne, derniere_append, derniere_of_notMem (barre_notMem_derniere cs)]

/-- Where the last segment is a protected branch, the tool accepts what stands before it exactly
when git reads it as a qualifier. -/
def Lisible (distants : List (List Char)) (nom : List Char) : Prop :=
  protegee (derniere (rogner nom)) = true →
    (Reconnu (avant (rogner nom)) ↔
      avant nom ∈ qualificatifs distants ∧ derniere nom = derniere (rogner nom))

theorem lecture_iff (distants : List (List Char)) (nom : String) :
    (isProtectedBranch nom = true ↔ Designe distants nom.toList) ↔ Lisible distants nom.toList := by
  rw [isProtectedBranch_iff, designe_iff, Lisible]
  have hfin : protegee (derniere nom.toList) = true →
      derniere nom.toList = derniere (rogner nom.toList) := fun h => (derniere_rogner h).symm
  constructor
  · intro h hprotegee
    constructor
    · intro hreconnu
      obtain ⟨hb, hq⟩ := h.mp ⟨hprotegee, hreconnu⟩
      exact ⟨hq, hfin hb⟩
    · intro ⟨hq, hegal⟩
      rw [← hegal] at hprotegee
      exact (h.mpr ⟨hprotegee, hq⟩).2
  · intro h
    constructor
    · intro ⟨hprotegee, hreconnu⟩
      obtain ⟨hq, hegal⟩ := (h hprotegee).mp hreconnu
      rw [← hegal] at hprotegee
      exact ⟨hprotegee, hq⟩
    · intro ⟨hb, hq⟩
      have hprotegee := hb
      rw [hfin hb] at hprotegee
      exact ⟨hprotegee, (h hprotegee).mpr ⟨hq, hfin hb⟩⟩

end Noms

section Poussee

variable {d : Depot} {remote target : String} {nom : List Char}

theorem isProtectedBranch_of_designee {nom : String}
    (htete : ¬(nom.toList = "HEAD".toList ∨ nom.toList = "@".toList))
    (h : protegee (designee d.courante nom.toList) = true) : isProtectedBranch nom = true := by
  have hforme : ∀ q ∈ [[], "refs/heads/".toList, "heads/".toList], ∀ b : List Char,
      protegee b = true → nom.toList = q ++ b → isProtectedBranch nom = true := by
    intro q hq b hb hnom
    have hq' : derniere q = [] ∧ Reconnu q ∧ ∀ c ∈ q, estBlanc c = false := by
      have htous : ∀ q ∈ [[], "refs/heads/".toList, "heads/".toList],
          derniere q = [] ∧ (court q).count '/' ≤ 1 ∧ q.all fun c => estBlanc c = false := by
        decide
      obtain ⟨hvide, hbarre, hblanc⟩ := htous q hq
      exact ⟨hvide, hbarre, List.all_iff_forall_prop.mp hblanc⟩
    have hrogne : rogner (q ++ b) = q ++ b := by
      refine rogner_of_forall fun c hc => ?_
      cases List.mem_append.mp hc with
      | inl hc => exact hq'.2.2 c hc
      | inr hc => exact ((lettre_of_protegee hb).2 c hc).2
    rw [isProtectedBranch_iff, hnom, hrogne,
      derniere_append_of_nil hq'.1 (barre_notMem_of_protegee hb),
      avant_append_of_nil hq'.1 (barre_notMem_of_protegee hb)]
    exact ⟨hb, hq'.2.1⟩
  unfold designee at h
  rw [if_neg htete] at h
  split at h
  · next hprefixe =>
      obtain ⟨b, hb⟩ := hprefixe
      rw [← hb, List.drop_left' (by decide)] at h
      exact hforme _ (by decide) b h hb.symm
  · split at h
    · next hprefixe =>
        obtain ⟨b, hb⟩ := hprefixe
        rw [← hb, List.drop_left' (by decide)] at h
        exact hforme _ (by decide) b h hb.symm
    · exact hforme [] (by decide) _ h rfl

/-- Nothing is forced, no option is read, and neither the current branch nor a refspec with a colon
or with a star leads to a protected branch. -/
def Prudent (d : Depot) (remote target : String) : Prop :=
  if tiret remote || tiret target then (d.options remote target).Inoffensif
  else target.toList.head? ≠ some '+' ∧
    if '*' ∈ target.toList then ∀ b ∈ d.motif target.toList, protegee b = false
    else if ':' ∈ target.toList then
      (target = ":" → ∀ b ∈ d.communes, protegee b = false) ∧
        protegee (designee d.courante (destination target.toList)) = false
    else target = "HEAD" ∨ target = "@" → protegee d.courante.toList = false

theorem refspec_of_plus (h : nom.head? = some '+') : (refspec d nom).force = true := by
  cases nom with
  | nil => cases h
  | cons c reste =>
      rw [List.head?_cons, Option.some.injEq] at h
      subst h
      rfl

theorem refspec_of_ne_plus (h : nom.head? ≠ some '+') : refspec d nom = ⟨false, ecrites d nom⟩ := by
  unfold refspec
  split
  · exact absurd rfl h
  · rfl

theorem designee_nil (courante : String) : designee courante [] = [] := by
  unfold designee
  rw [if_neg (by decide), if_neg (by decide), if_neg (by decide)]

theorem protegee_nil : protegee [] = false := by decide

theorem ecrites_colon (hetoile : '*' ∉ nom) (hcolon : ':' ∈ nom) :
    (∀ b ∈ ecrites d nom, protegee b = false) ↔
      (nom = [':'] → ∀ b ∈ d.communes, protegee b = false) ∧
        protegee (designee d.courante (destination nom)) = false := by
  rw [ecrites, if_neg hetoile, if_pos hcolon]
  by_cases hseul : nom = [':']
  · have hvide : destination nom = [] := by
      rw [hseul]
      decide
    rw [if_pos hseul, hvide, designee_nil]
    exact ⟨fun h => ⟨fun _ => h, protegee_nil⟩, fun h => h.1 hseul⟩
  · rw [if_neg hseul]
    by_cases hvide : destination nom = []
    · rw [if_pos hvide, hvide, designee_nil]
      refine ⟨fun _ => ⟨fun h => absurd h hseul, protegee_nil⟩, fun _ b hb => ?_⟩
      exact absurd hb List.not_mem_nil
    · rw [if_neg hvide, List.forall_mem_singleton]
      exact ⟨fun h => ⟨fun hnom => absurd hnom hseul, h⟩, fun h => h.2⟩

theorem ecrites_nom {nom : String} (hetoile : '*' ∉ nom.toList) (hcolon : ':' ∉ nom.toList)
    (hlibre : isProtectedBranch nom = false) :
    (∀ b ∈ ecrites d nom.toList, protegee b = false) ↔
      (nom = "HEAD" ∨ nom = "@" → protegee d.courante.toList = false) := by
  have htete : (nom.toList = "HEAD".toList ∨ nom.toList = "@".toList) ↔
      nom = "HEAD" ∨ nom = "@" := by
    rw [String.toList_inj, String.toList_inj]
  rw [ecrites, if_neg hetoile, if_neg hcolon, List.forall_mem_singleton, ← htete]
  by_cases hnom : nom.toList = "HEAD".toList ∨ nom.toList = "@".toList
  · rw [designee, if_pos hnom]
    exact ⟨fun h _ => h, fun h => h hnom⟩
  · refine ⟨fun _ h => absurd h hnom, fun _ => ?_⟩
    by_contra hb
    rw [Bool.not_eq_false] at hb
    rw [isProtectedBranch_of_designee hnom hb] at hlibre
    cases hlibre

theorem prudent_iff (hlibre : isProtectedBranch target = false) :
    (effet d remote target).Inoffensif ↔ Prudent d remote target := by
  unfold effet Prudent
  split
  · exact Iff.rfl
  · by_cases hplus : target.toList.head? = some '+'
    · refine ⟨fun h => ?_, fun h => absurd hplus h.1⟩
      exact Bool.noConfusion ((refspec_of_plus hplus).symm.trans h.1)
    · rw [refspec_of_ne_plus hplus, Effet.Inoffensif, eq_self_iff_true, true_and,
        and_iff_right hplus]
      split
      · next hetoile => rw [ecrites, if_pos hetoile]
      · next hetoile =>
          split
          · next hcolon =>
              have hseul : target.toList = [':'] ↔ target = ":" := by
                rw [← String.toList_inj]
                rfl
              rw [ecrites_colon hetoile hcolon, hseul]
          · next hcolon => exact ecrites_nom hetoile hcolon hlibre

def permise (aegis : Aegis) (repoPath remote target : String) : Bool :=
  (aegis ("Push " ++ target ++ " to " ++ remote ++ " from " ++ repoPath)
    [("op", "push"), ("remote", remote), ("target", target)]).1

theorem push_eq_lance {citer : String → String} {repoPath : String} {aegis : Aegis}
    {branch : Option String} {setUpstream : Bool} {args : List String} :
    push citer repoPath aegis d remote branch setUpstream = .lance args ↔
      isProtectedBranch (cible d branch) = false ∧
        permise aegis repoPath remote (cible d branch) = true ∧
        ["push"] ++ (if setUpstream then ["--set-upstream"] else []) ++
          [remote, cible d branch] = args := by
  unfold push permise
  generalize cible d branch = target
  dsimp only
  split
  · next hprotege =>
      rw [hprotege]
      exact ⟨fun h => (nomatch h), fun h => (nomatch h.1)⟩
  · next hlibre =>
      rw [Bool.not_eq_true] at hlibre
      split
      · next heq =>
          rw [heq, hlibre]
          exact ⟨fun h => ⟨rfl, rfl, Suite.lance.inj h⟩, fun h => congrArg Suite.lance h.2.2⟩
      · next heq =>
          rw [heq]
          exact ⟨fun h => (nomatch h), fun h => (nomatch h.2.1)⟩

theorem executer_push (setUpstream : Bool) :
    executer d (["push"] ++ (if setUpstream then ["--set-upstream"] else []) ++ [remote, target]) =
      effet d remote target := by
  cases setUpstream <;> rfl

/-- A push that runs git updates no protected branch and forces nothing exactly when its target is
refused, or it is prudent; and the tool and git read a name alike exactly when it is legible. -/
theorem push_fidele_iff (citer : String → String) (repoPath : String) (aegis : Aegis) (d : Depot)
    (remote : String) (branch : Option String) (setUpstream : Bool)
    (distants : List (List Char)) (nom : String) :
    ((∀ args, push citer repoPath aegis d remote branch setUpstream = .lance args →
        (executer d args).Inoffensif) ↔
      isProtectedBranch (cible d branch) = true ∨
        permise aegis repoPath remote (cible d branch) = false ∨
        Prudent d remote (cible d branch)) ∧
      ((isProtectedBranch nom = true ↔ Designe distants nom.toList) ↔
        Lisible distants nom.toList) := by
  refine ⟨?_, lecture_iff distants nom⟩
  simp only [push_eq_lance]
  cases hlibre : isProtectedBranch (cible d branch) with
  | true => exact ⟨fun _ => Or.inl rfl, fun _ _ h => nomatch h.1⟩
  | false =>
      cases hpermis : permise aegis repoPath remote (cible d branch) with
      | false => exact ⟨fun _ => Or.inr (Or.inl rfl), fun _ _ h => nomatch h.2.1⟩
      | true =>
          simp only [true_and, forall_eq', executer_push, prudent_iff hlibre, reduceCtorEq,
            false_or]

/-- A repository on `main`, and the branches of a remote that holds it. -/
def depotMain : Depot where
  courante := "main"
  options := fun _ _ => ⟨true, []⟩
  communes := ["main".toList]
  motif := fun _ => ["main".toList]

def toutPermis : Aegis := fun _ _ => (true, "allow", "")

/-- A plus forces `main`, a colon and `HEAD` write to it, an option goes through; and a feature
branch whose last segment is `main` is taken for it. -/
theorem push_force_main :
    (∀ cible ∈ ["+main", "topic:main", ":main", ":", "HEAD", "@", "--mirror"], ∃ args,
        push id "." toutPermis depotMain "origin" (some cible) true = .lance args ∧
          ¬(executer depotMain args).Inoffensif) ∧
      isProtectedBranch "feature/main" = true ∧
      ¬Designe ["origin".toList] "feature/main".toList := by
  refine ⟨?_, by decide, ?_⟩
  · intro cible hcible
    refine ⟨["push", "--set-upstream", "origin", cible], ?_⟩
    revert cible
    unfold Effet.Inoffensif
    decide
  · rw [designe_iff]
    decide

end Poussee

end Hermes.GitTools
