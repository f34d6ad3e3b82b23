import Mathlib.Data.List.Basic

/-! # Windows paths as texts

The functions on the text of a path, with the backslash as separator and the slash read as one. A
path is split into its drive or share, its root and the rest.
-/

namespace Hermes.Lib.NtChemin

abbrev Texte := List Char

def sep : Char := '\\'

def estSep (c : Char) : Bool := c = '\\' || c = '/'

/-- `p.replace("/", "\\")`. -/
def versSep (p : Texte) : Texte := p.map fun c => if c = '/' then sep else c

/-- `p.find("\\", debut)`. -/
def trouver (p : Texte) (debut : Nat) : Option Nat :=
  ((p.drop debut).idxOf? sep).map fun i => debut + i

/-- `//?/UNC/`, the letters in either case. -/
def prefixeUnc (p : Texte) : Bool :=
  (versSep (p.take 8)).map Char.toUpper = ['\\', '\\', '?', '\\', 'U', 'N', 'C', '\\']

structure Racine where
  drive : Texte
  root : Texte
  reste : Texte
  deriving DecidableEq

/-- A share is a drive that ends before its second separator. -/
def partage (p : Texte) : Racine :=
  match trouver (versSep p) (if prefixeUnc p then 8 else 2) with
  | none => ⟨p, [], []⟩
  | some index =>
      match trouver (versSep p) (index + 1) with
      | none => ⟨p, [], []⟩
      | some fin => ⟨p.take fin, (p.drop fin).take 1, p.drop (fin + 1)⟩

def splitroot (p : Texte) : Racine :=
  match versSep p with
  | '\\' :: '\\' :: _ => partage p
  | '\\' :: _ => ⟨[], p.take 1, p.drop 1⟩
  | _ :: ':' :: '\\' :: _ => ⟨p.take 2, (p.drop 2).take 1, p.drop 3⟩
  | _ :: ':' :: _ => ⟨p.take 2, [], p.drop 2⟩
  | _ => ⟨[], [], p⟩

/-- One component after the ones that are kept, the last first. -/
def empiler (enracine : Bool) (gardes : List Texte) (nom : Texte) : List Texte :=
  if nom = [] ∨ nom = ['.'] then gardes
  else if nom = ['.', '.'] then
    match gardes with
    | [] => if enracine then [] else [nom]
    | dernier :: autres => if dernier = ['.', '.'] then nom :: gardes else autres
  else nom :: gardes

def normpath (p : Texte) : Texte :=
  let r := splitroot (versSep p)
  let noms := ((r.reste.splitOn sep).foldl (empiler (r.root ≠ [])) []).reverse
  if r.drive ++ r.root = [] ∧ noms = [] then ['.']
  else r.drive ++ r.root ++ [sep].intercalate noms

def dernierNom (p : Texte) : Texte := (p.reverse.takeWhile fun c => !estSep c).reverse

def basename (p : Texte) : Texte := dernierNom (splitroot p).reste

section Casse

variable (bas : Char → Char)

def normcase (p : Texte) : Texte := (versSep p).map bas

def suite (drive root reste : Texte) (q : Racine) : Texte :=
  let reste' := if reste ≠ [] ∧ !(reste.getLast?.any estSep) then reste ++ [sep] else reste
  let joint := reste' ++ q.reste
  if joint ≠ [] ∧ root = [] ∧ drive ≠ [] ∧ !(drive.getLast?.any fun c => estSep c || c = ':') then
    drive ++ [sep] ++ joint
  else drive ++ root ++ joint

def join (p q : Texte) : Texte :=
  let r := splitroot p
  let s := splitroot q
  if s.root ≠ [] then
    (if s.drive ≠ [] ∨ r.drive = [] then s.drive else r.drive) ++ s.root ++ s.reste
  else if s.drive ≠ [] ∧ s.drive.map bas ≠ r.drive.map bas then q
  else suite (if s.drive ≠ [] then s.drive else r.drive) r.root r.reste s

/-- The path from the current directory `cwd`, normalised. -/
def abspath (cwd p : Texte) : Texte := normpath (join bas cwd p)

end Casse

section Noms

variable {p : Texte} {c l : Char}

theorem versSep_cons (h : c ≠ '/') (p : Texte) : versSep (c :: p) = c :: versSep p := by
  simp [versSep, h]

theorem versSep_barre (p : Texte) : versSep ('/' :: p) = sep :: versSep p := rfl

@[simp] theorem versSep_versSep (p : Texte) : versSep (versSep p) = versSep p := by
  unfold versSep
  rw [List.map_map]
  apply List.map_congr_left
  intro c _
  by_cases h : c = '/'
  · rw [Function.comp_apply, if_pos h]
    rfl
  · rw [Function.comp_apply, if_neg h, if_neg h]

theorem dernierNom_append (p q : Texte) : dernierNom (p ++ sep :: q) = dernierNom q := by
  unfold dernierNom
  rw [List.reverse_append, List.reverse_cons, List.append_assoc, List.takeWhile_append]
  have hsep : ([sep] ++ p.reverse).takeWhile (fun c => !estSep c) = [] := rfl
  split
  · next h =>
      have heq := (List.takeWhile_prefix fun c => !estSep c).eq_of_length h
      rw [hsep, List.append_nil, heq]
  · rfl

theorem splitroot_lecteur (h : l ≠ '/' ∧ l ≠ sep) (p : Texte) :
    splitroot (l :: ':' :: sep :: p) = ⟨[l, ':'], [sep], p⟩ := by
  have hl : l ≠ '\\' := h.2
  unfold splitroot
  rw [versSep_cons h.1, versSep_cons (by decide), versSep_cons (by decide)]
  split
  · next heq => exact absurd (List.cons.inj heq).1 hl
  · next heq => exact absurd (List.cons.inj heq).1 hl
  · rfl
  · next hnon heq => exact (hnon _ (List.cons.inj (List.cons.inj heq).2).2.symm).elim
  · next hnon => exact (hnon _ _ rfl).elim

theorem splitroot_racine (h : c ≠ '/' ∧ c ≠ sep) (p : Texte) :
    splitroot (sep :: c :: p) = ⟨[], [sep], c :: p⟩ := by
  have hc : c ≠ '\\' := h.2
  unfold splitroot
  rw [versSep_cons (by decide), versSep_cons h.1]
  split
  · next heq => exact absurd (List.cons.inj (List.cons.inj heq).2).1 hc
  · rfl
  · next hnon heq => exact (hnon (List.cons.inj heq).1.symm).elim
  · next hnon _ heq => exact (hnon (List.cons.inj heq).1.symm).elim
  · next hnon _ _ => exact (hnon _ rfl).elim

end Noms

example : normpath "C:/a/./b\\..\\\\c".toList = "C:\\a\\c".toList := by decide

example : basename "docs/SPEC.md".toList = "SPEC.md".toList := by decide

end Hermes.Lib.NtChemin
