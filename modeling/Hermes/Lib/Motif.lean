import Mathlib.Data.List.Basic
import Mathlib.Data.List.Infix

/-! # Searching words in a text

Patterns that are a choice between literal texts, searched from left to right without regard to
case, and between word boundaries where the pattern asks for them.
-/

namespace Hermes.Lib

structure Motif where
  bornes : Bool
  alternatives : List String
  deriving DecidableEq

namespace Motif

/-- The small letter of a character, for the letters that patterns are made of. -/
def minuscule (c : Char) : Char :=
  if 65 ≤ c.toNat ∧ c.toNat ≤ 90 then Char.ofNat (c.toNat + 32)
  else if c.toNat = 0xc9 then Char.ofNat 0xe9
  else if c.toNat = 0x212a then 'k'
  else if c.toNat = 0x130 then 'i'
  else c

/-- A character of the text stands for a small letter of the pattern. -/
def egale (lettre c : Char) : Bool :=
  minuscule c = lettre || (lettre = 'i' && c.toNat = 0x131) || (lettre = 's' && c.toNat = 0x17f)

/-- The part of the text that spells the literal, and what follows it. -/
def prefixe : List Char → List Char → Option (List Char × List Char)
  | [], texte => some ([], texte)
  | _ :: _, [] => none
  | lettre :: lettres, c :: texte =>
      if egale lettre c then
        (prefixe lettres texte).map fun (trouve, reste) => (c :: trouve, reste)
      else none

section Recherche

variable (mot : Char → Bool)

def limite (avant apres : Option Char) : Bool := avant.any mot != apres.any mot

def essayer (bornes : Bool) (avant : Option Char) (texte : List Char) (alternative : String) :
    Option (List Char) :=
  match prefixe alternative.toList texte with
  | none => none
  | some (trouve, reste) =>
      if bornes && !(limite mot avant texte.head? &&
          limite mot (trouve.getLast?.or avant) reste.head?) then none
      else some trouve

/-- The text of the leftmost match, its first alternative in the order of the pattern. -/
def chercherDepuis (m : Motif) (avant : Option Char) (texte : List Char) : Option (List Char) :=
  match m.alternatives.findSome? (essayer mot m.bornes avant texte) with
  | some trouve => some trouve
  | none =>
      match texte with
      | [] => none
      | c :: reste => chercherDepuis m (some c) reste

def chercher (m : Motif) (texte : String) : Option String :=
  (chercherDepuis mot m none texte.toList).map String.ofList

end Recherche

example : chercher Char.isAlphanum ⟨true, ["timeout"]⟩ "Runtime Timeout." = some "Timeout" := by
  decide

example : chercher Char.isAlphanum ⟨true, ["credit"]⟩ "accredited" = none := by
  decide

/-- `%` stands for any text, `_` for one character, any other character for itself. -/
def like : List Char → List Char → Bool
  | [], texte => texte.isEmpty
  | m :: motif, texte =>
      if m = '%' then texte.tails.any (like motif)
      else
        match texte with
        | [] => false
        | c :: reste => (m = '_' || m = c) && like motif reste

example : like "%100%%".toList "100 euros".toList = true := by decide

example : like "%10_%".toList "10".toList = false := by decide

end Motif

end Hermes.Lib
