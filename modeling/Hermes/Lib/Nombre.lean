import Hermes.Lib.Flottant
import Hermes.Lib.Texte

/-! # The numbers that a text spells

`int(s)` and `float(s)` on a text. Blanks around the number are dropped, a sign may come first,
and an underscore may stand between two digits.
-/

namespace Hermes.Lib.Nombre

open Flottant

structure Chiffres where
  valeur : Char → Option Nat
  ascii : ∀ c, c.isDigit = true → valeur c = some (c.toNat - '0'.toNat)

def Chiffres.usuels : Chiffres where
  valeur c := if c.isDigit then some (c.toNat - '0'.toNat) else none
  ascii _ h := if_pos h

variable (u : Chiffres)

/-- One digit at least, two neighbours apart by an underscore at most. -/
def lireChiffres : List Char → Option (List Nat)
  | [] => none
  | [c] => (u.valeur c).map ([·])
  | c :: '_' :: suite => (u.valeur c).bind fun d => (lireChiffres suite).map (d :: ·)
  | c :: suite => (u.valeur c).bind fun d => (lireChiffres suite).map (d :: ·)

def lireSigne : List Char → Bool × List Char
  | '-' :: suite => (true, suite)
  | '+' :: suite => (false, suite)
  | cs => (false, cs)

def nombreDe (chiffres : List Nat) : Nat := chiffres.foldl (fun n d => 10 * n + d) 0

/-- The number of digits from which `int` refuses a text. -/
def LIMITE_DE_CHIFFRES : Nat := 4300

/-- `int(s)`; `none` is `ValueError`. -/
def lireEntier (s : String) : Option Int :=
  let (negatif, cs) := lireSigne (Texte.strip s).toList
  (lireChiffres u cs).bind fun chiffres =>
    if chiffres.length > LIMITE_DE_CHIFFRES then none
    else some (if negatif then -(nombreDe chiffres : Int) else nombreDe chiffres)

/-- Digits that may be missing, before or after the point. -/
def lirePartie : List Char → Option (List Nat)
  | [] => some []
  | cs => lireChiffres u cs

/-- What precedes the first character that `p` picks, and what follows it, if there is one. -/
def couper (p : Char → Bool) (cs : List Char) : List Char × Option (List Char) :=
  match cs.dropWhile (!p ·) with
  | [] => (cs, none)
  | _ :: suite => (cs.takeWhile (!p ·), some suite)

/-- The digits around the point; a point needs a digit on one side of it. -/
def lireMantisse (cs : List Char) : Option (List Nat × List Nat) :=
  match couper (· = '.') cs with
  | (entiere, none) => (lireChiffres u entiere).map (·, [])
  | ([], some []) => none
  | (entiere, some fraction) =>
      (lirePartie u entiere).bind fun e => (lirePartie u fraction).map (e, ·)

def lireExposant : Option (List Char) → Option Int
  | none => some 0
  | some cs =>
      let (negatif, cs) := lireSigne cs
      (lireChiffres u cs).map fun chiffres =>
        if negatif then -(nombreDe chiffres : Int) else nombreDe chiffres

/-- `float(s)`; `none` is `ValueError`. -/
def lireFlottant (s : String) : Option Binaire :=
  let (negatif, cs) := lireSigne (Texte.strip s).toList
  let nom := String.ofList (cs.map Char.toLower)
  if nom = "inf" ∨ nom = "infinity" then some (.infini negatif)
  else if nom = "nan" then some .nan
  else
    let (mantisse, exposant) := couper (fun c => c = 'e' ∨ c = 'E') cs
    (lireMantisse u mantisse).bind fun (entiere, fraction) =>
      (lireExposant u exposant).map fun e =>
        let valeur : Rat := nombreDe (entiere ++ fraction) * 10 ^ (e - (fraction.length : Int))
        Binaire.proche (if negatif then -valeur else valeur)

example : lireEntier .usuels " -1_0 " = some (-10) := by decide

example : lireEntier .usuels "1__0" = none := by decide

section Decimal

variable {u}

theorem lireChiffres_isDigit {cs : List Char} (hne : cs ≠ []) (h : ∀ c ∈ cs, c.isDigit = true) :
    lireChiffres u cs = some (cs.map fun c => c.toNat - '0'.toNat) := by
  fun_induction lireChiffres u cs with
  | case1 => exact absurd rfl hne
  | case2 c => rw [u.ascii c (h c List.mem_cons_self)]; rfl
  | case3 c suite ih =>
      have hbarre := h '_' (List.mem_cons_of_mem c List.mem_cons_self)
      exact absurd hbarre (by decide)
  | case4 c suite hsuite hbarre ih =>
      rw [u.ascii c (h c List.mem_cons_self), Option.bind_some,
        ih hsuite fun d hd => h d (List.mem_cons_of_mem c hd)]
      rfl

theorem nombreDe_toDigits (n : Nat) :
    nombreDe ((Nat.toDigits 10 n).map fun c => c.toNat - '0'.toNat) = n := by
  rw [nombreDe, List.foldl_map]
  exact Nat.ofDigitChars_toDigits (by decide) (by decide)

theorem lireEntier_toDigits {n : Nat} (h : (Nat.toDigits 10 n).length ≤ LIMITE_DE_CHIFFRES) :
    lireEntier u (String.ofList (Nat.toDigits 10 n)) = some (n : Int) := by
  have hchiffres : ∀ c ∈ Nat.toDigits 10 n, c.isDigit = true := fun c hc =>
    Nat.isDigit_of_mem_toDigits (by decide) (by decide) hc
  have hstrip : (Texte.strip (String.ofList (Nat.toDigits 10 n))).toList = Nat.toDigits 10 n := by
    rw [Texte.toList_strip, String.toList_ofList]
    exact Texte.rogner_of_forall fun c hc => Texte.estBlanc_of_isDigit (hchiffres c hc)
  have hsigne : lireSigne (Nat.toDigits 10 n) = (false, Nat.toDigits 10 n) := by
    unfold lireSigne
    split
    · next heq => exact absurd (hchiffres '-' (by rw [heq]; exact List.mem_cons_self)) (by decide)
    · next heq => exact absurd (hchiffres '+' (by rw [heq]; exact List.mem_cons_self)) (by decide)
    · rfl
  rw [lireEntier, hstrip, hsigne]
  dsimp only
  rw [lireChiffres_isDigit Nat.toDigits_ne_nil hchiffres]
  simp only [Option.bind_some, List.length_map, nombreDe_toDigits]
  rw [if_neg (Nat.not_lt.mpr h), if_neg Bool.false_ne_true]

end Decimal

end Hermes.Lib.Nombre
