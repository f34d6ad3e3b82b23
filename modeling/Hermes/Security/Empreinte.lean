import Hermes.Lib.Chemin
import Hermes.Lib.Json
import Hermes.Lib.Texte

/-! # The canonical identity of an action

An action is identified by its type, its canonical path and what distinguishes it otherwise. The
description takes no part in it.
-/

namespace Hermes

open Lib

/-- What the interpreter and the operating system answer while one call runs. -/
structure Plateforme where
  /-- `str(Path(chemin).resolve())`, or none when it raises. -/
  resoudre : String → Option String
  normpath : String → String
  normcase : String → String
  /-- The case folding of `str.lower`. -/
  minuscules : String → String
  sep : Char
  altsep : Option Char

/-- A POSIX machine on which every path is resolved and every letter small already. -/
def Plateforme.posix : Plateforme where
  resoudre := some
  normpath := id
  normcase := id
  minuscules := id
  sep := '/'
  altsep := none

namespace Empreinte

/-- `texte.replace(a, b)` on single characters. -/
def remplacer (a b : Char) (texte : String) : String :=
  String.ofList (texte.toList.map fun c => if c = a then b else c)

def canoniserChemin (p : Plateforme) (chemin : Option String) : String :=
  let brut := chemin.getD ""
  if brut = "" then ""
  else
    let resolu := (p.resoudre brut).getD (p.normpath brut)
    let texte := remplacer p.sep '/' (p.normcase resolu)
    match p.altsep with
    | none => texte
    | some altsep => remplacer altsep '/' texte

abbrev Discriminants := List (String × Json)

def canoniserDiscriminants (discriminants : Option Discriminants) : String :=
  match discriminants.getD [] with
  | [] => ""
  | item :: items => (Json.objet (item :: items)).dumpsCompact

def SEPARATEUR : String := String.singleton (Char.ofNat 31)

/-- What `empreinte` hashes. -/
def identite (p : Plateforme) (actionType : String) (targetPath : Option String)
    (discriminants : Option Discriminants) : String :=
  SEPARATEUR.intercalate
    [p.minuscules (Texte.strip actionType), canoniserChemin p targetPath,
      canoniserDiscriminants discriminants]

def empreinte (hacher : String → String) (p : Plateforme) (actionType : String)
    (targetPath : Option String) (discriminants : Option Discriminants) : String :=
  hacher (identite p actionType targetPath discriminants)

def couvre (p : Plateforme) (racine chemin : String) : Bool :=
  if racine = "" ∨ chemin = "" then false
  else
    let a := canoniserChemin p (some racine)
    let b := canoniserChemin p (some chemin)
    if a = "" ∨ b = "" then false
    else Chemin.sous (Chemin.lire a) (Chemin.lire b)

/-- The canonical path is the canonical root, or has its parts before its own. -/
def SousLaRacine (p : Plateforme) (racine chemin : String) : Prop :=
  let q := Chemin.lire (canoniserChemin p (some racine))
  let r := Chemin.lire (canoniserChemin p (some chemin))
  q.racine = r.racine ∧ q.parts <+: r.parts

theorem sousLaRacine_of_couvre {p : Plateforme} {racine chemin : String}
    (h : couvre p racine chemin = true) : SousLaRacine p racine chemin := by
  unfold couvre at h
  split at h
  · cases h
  · dsimp only at h
    split at h
    · cases h
    · exact Chemin.sous_iff.mp h

example : couvre .posix "/projet" "/projet/src/a.py" = true := by decide

example : couvre .posix "/projet" "/projet-bis/a.py" = false := by decide

end Empreinte

end Hermes
