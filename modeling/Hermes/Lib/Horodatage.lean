import Mathlib.Algebra.Group.Nat.Defs
import Mathlib.Data.List.Basic

/-! # Dates and their text

A date of the source, with its offset from UTC when it has one.
-/

namespace Hermes.Lib

def bissextile (annee : Nat) : Bool := annee % 4 = 0 && (annee % 100 ≠ 0 || annee % 400 = 0)

def joursDuMois (annee mois : Nat) : Nat :=
  if mois = 2 then if bissextile annee then 29 else 28
  else if mois = 4 ∨ mois = 6 ∨ mois = 9 ∨ mois = 11 then 30
  else 31

structure Champs where
  annee : Nat
  mois : Nat
  jour : Nat
  heure : Nat
  minute : Nat
  seconde : Nat
  micro : Nat
  decalage : Option Int
  deriving DecidableEq

def Champs.Valide (c : Champs) : Prop :=
  (1 ≤ c.annee ∧ c.annee ≤ 9999) ∧ (1 ≤ c.mois ∧ c.mois ≤ 12) ∧
    (1 ≤ c.jour ∧ c.jour ≤ joursDuMois c.annee c.mois) ∧
    (c.heure < 24 ∧ c.minute < 60 ∧ c.seconde < 60 ∧ c.micro < 1000000) ∧
    ∀ d ∈ c.decalage, d.natAbs < 86400000000

instance (c : Champs) : Decidable c.Valide := by
  unfold Champs.Valide
  infer_instance

structure Horodatage where
  champs : Champs
  valide : champs.Valide
  deriving DecidableEq

namespace Horodatage

/-- The last `k` digits of a number. -/
def rempli : Nat → Nat → List Char
  | 0, _ => []
  | k + 1, n => Nat.digitChar (n / 10 ^ k % 10) :: rempli k n

/-- `HH:MM:SS`, and the microseconds if there are any. -/
def ecrireHeure (heure minute seconde micro : Nat) : List Char :=
  rempli 2 heure ++ ':' :: (rempli 2 minute ++ ':' :: (rempli 2 seconde
    ++ if micro = 0 then [] else '.' :: rempli 6 micro))

def ecrireDecalage (d : Int) : List Char :=
  let micros := d.natAbs
  let minutes := micros / 60000000
  let secondes := micros / 1000000 % 60
  let reste := micros % 1000000
  (if d < 0 then '-' else '+') :: (rempli 2 (minutes / 60) ++ ':' :: (rempli 2 (minutes % 60)
    ++ if secondes = 0 ∧ reste = 0 then []
      else ':' :: (rempli 2 secondes ++ if reste = 0 then [] else '.' :: rempli 6 reste)))

def ecrireFuseau : Option Int → List Char
  | none => []
  | some d => ecrireDecalage d

def isoformat (h : Horodatage) : List Char :=
  let c := h.champs
  rempli 4 c.annee ++ '-' :: (rempli 2 c.mois ++ '-' :: (rempli 2 c.jour ++ 'T' ::
    (ecrireHeure c.heure c.minute c.seconde c.micro ++ ecrireFuseau c.decalage)))

/-- A number of exactly `k` digits. -/
def lireNombre : Nat → List Char → Option (Nat × List Char)
  | 0, suite => some (0, suite)
  | _ + 1, [] => none
  | k + 1, c :: suite =>
      if c.isDigit then
        (lireNombre k suite).map fun (n, fin) => ((c.toNat - 48) * 10 ^ k + n, fin)
      else none

def attendre (c : Char) : List Char → Option (List Char)
  | [] => none
  | d :: suite => if d = c then some suite else none

/-- The microseconds after a point, zero when there is no point. -/
def lireFraction : List Char → Option (Nat × List Char)
  | [] => some (0, [])
  | c :: suite => if c = '.' then lireNombre 6 suite else some (0, c :: suite)

/-- The seconds of an offset, if any, in microseconds. -/
def lireSecondes : List Char → Option (Nat × List Char)
  | [] => some (0, [])
  | c :: suite =>
      if c = ':' then do
        let (secondes, suite) ← lireNombre 2 suite
        let (micros, suite) ← lireFraction suite
        return (secondes * 1000000 + micros, suite)
      else some (0, c :: suite)

/-- The offset, or its absence at the end of the text. -/
def lireDecalage : List Char → Option (Option Int)
  | [] => some none
  | signe :: suite =>
      if signe ≠ '+' ∧ signe ≠ '-' then none
      else do
        let (heures, suite) ← lireNombre 2 suite
        let suite ← attendre ':' suite
        let (minutes, suite) ← lireNombre 2 suite
        let (reste, suite) ← lireSecondes suite
        let micros : Int := ((heures * 60 + minutes) * 60000000 + reste : Nat)
        if suite ≠ [] then none
        else return some (if signe = '-' then -micros else micros)

def fromisoformat (t : List Char) : Option Horodatage := do
  let (annee, t) ← lireNombre 4 t
  let t ← attendre '-' t
  let (mois, t) ← lireNombre 2 t
  let t ← attendre '-' t
  let (jour, t) ← lireNombre 2 t
  let t ← attendre 'T' t
  let (heure, t) ← lireNombre 2 t
  let t ← attendre ':' t
  let (minute, t) ← lireNombre 2 t
  let t ← attendre ':' t
  let (seconde, t) ← lireNombre 2 t
  let (micro, t) ← lireFraction t
  let decalage ← lireDecalage t
  let c : Champs := ⟨annee, mois, jour, heure, minute, seconde, micro, decalage⟩
  if h : c.Valide then return ⟨c, h⟩ else none

theorem lireNombre_rempli (k n : Nat) (suite : List Char) :
    lireNombre k (rempli k n ++ suite) = some (n % 10 ^ k, suite) := by
  induction k with
  | zero => simp [lireNombre, rempli, Nat.mod_one]
  | succ k ih =>
      have hd : n / 10 ^ k % 10 < 10 := Nat.mod_lt _ (by decide)
      have hdigit : (Nat.digitChar (n / 10 ^ k % 10)).isDigit = true := by simp [hd]
      have hval : (Nat.digitChar (n / 10 ^ k % 10)).toNat - 48 = n / 10 ^ k % 10 :=
        Nat.toNat_digitChar_sub_48_of_lt_ten hd
      rw [rempli, List.cons_append, lireNombre, if_pos hdigit, ih, hval, Nat.mod_pow_succ]
      simp [Nat.mul_comm, Nat.add_comm]

theorem lireNombre_of_lt {k n : Nat} (hn : n < 10 ^ k) (suite : List Char) :
    lireNombre k (rempli k n ++ suite) = some (n, suite) := by
  rw [lireNombre_rempli, Nat.mod_eq_of_lt hn]

@[simp] theorem attendre_self (c : Char) (suite : List Char) :
    attendre c (c :: suite) = some suite := by
  simp [attendre]

/-- What follows does not go on with a fraction. -/
def SansPoint : List Char → Prop
  | [] => True
  | c :: _ => c ≠ '.'

theorem lireFraction_ecrite {micro : Nat} (h : micro < 1000000) {suite : List Char}
    (hsuite : SansPoint suite) :
    lireFraction ((if micro = 0 then [] else '.' :: rempli 6 micro) ++ suite)
      = some (micro, suite) := by
  by_cases hzero : micro = 0
  · cases suite with
    | nil => simp [hzero, lireFraction]
    | cons c suite =>
        have hc : c ≠ '.' := hsuite
        simp [hzero, lireFraction, hc]
  · rw [if_neg hzero, List.cons_append, lireFraction, if_pos rfl]
    exact lireNombre_of_lt h suite

theorem lireSecondes_ecrites {secondes reste : Nat} (hs : secondes < 60) (hr : reste < 1000000) :
    lireSecondes (if secondes = 0 ∧ reste = 0 then []
        else ':' :: (rempli 2 secondes ++ if reste = 0 then [] else '.' :: rempli 6 reste))
      = some (secondes * 1000000 + reste, []) := by
  by_cases hzero : secondes = 0 ∧ reste = 0
  · simp [hzero, lireSecondes]
  · have hvide : SansPoint [] := trivial
    have hfraction := lireFraction_ecrite hr hvide
    rw [List.append_nil] at hfraction
    rw [if_neg hzero, lireSecondes, if_pos rfl, lireNombre_of_lt (by omega)]
    simp [hfraction]

theorem lireDecalage_ecrit {d : Int} (hd : d.natAbs < 86400000000) :
    lireDecalage (ecrireDecalage d) = some (some d) := by
  unfold ecrireDecalage
  dsimp only
  have hsigne : ¬((if d < 0 then '-' else '+') ≠ '+' ∧ (if d < 0 then '-' else '+') ≠ '-') := by
    split <;> decide
  rw [lireDecalage, if_neg hsigne, lireNombre_of_lt (by omega)]
  simp only [Option.bind_eq_bind, Option.bind_some, attendre_self]
  rw [lireNombre_of_lt (by omega)]
  simp only [Option.bind_some, lireSecondes_ecrites (Nat.mod_lt (d.natAbs / 1000000) (by decide))
    (Nat.mod_lt d.natAbs (by decide))]
  have hmicros : (d.natAbs / 60000000 / 60 * 60 + d.natAbs / 60000000 % 60) * 60000000
      + (d.natAbs / 1000000 % 60 * 1000000 + d.natAbs % 1000000) = d.natAbs := by
    omega
  rw [hmicros, if_neg (by simp)]
  by_cases hneg : d < 0
  · have habs : -((d.natAbs : Nat) : Int) = d := by omega
    rw [if_pos hneg, if_pos rfl, habs]
    rfl
  · have habs : ((d.natAbs : Nat) : Int) = d := by omega
    rw [if_neg hneg, if_neg (by decide), habs]
    rfl

theorem sansPoint_fuseau (decalage : Option Int) : SansPoint (ecrireFuseau decalage) := by
  cases decalage with
  | none => trivial
  | some d =>
      unfold ecrireFuseau ecrireDecalage SansPoint
      dsimp only
      split <;> decide

theorem lireDecalage_fuseau {decalage : Option Int}
    (h : ∀ d ∈ decalage, d.natAbs < 86400000000) :
    lireDecalage (ecrireFuseau decalage) = some decalage := by
  cases decalage with
  | none => rfl
  | some d => exact lireDecalage_ecrit (h d rfl)

theorem bind_lireNombre {k n : Nat} (hn : n < 10 ^ k) (suite : List Char)
    (f : Nat × List Char → Option α) :
    (lireNombre k (rempli k n ++ suite)).bind f = f (n, suite) := by
  rw [lireNombre_of_lt hn, Option.bind_some]

theorem bind_attendre (c : Char) (suite : List Char) (f : List Char → Option α) :
    (attendre c (c :: suite)).bind f = f suite := by
  rw [attendre_self, Option.bind_some]

theorem fromisoformat_isoformat (h : Horodatage) : fromisoformat h.isoformat = some h := by
  obtain ⟨c, hc⟩ := h
  have hbornes := hc
  obtain ⟨⟨-, hannee⟩, ⟨-, hmois⟩, ⟨-, hjour⟩, ⟨hheure, hminute, hseconde, hmicro⟩, hdecalage⟩ :=
    hbornes
  have hjours : joursDuMois c.annee c.mois ≤ 31 := by
    unfold joursDuMois
    split_ifs <;> omega
  have hfraction := lireFraction_ecrite hmicro (sansPoint_fuseau c.decalage)
  simp only [isoformat, ecrireHeure, List.append_assoc, List.cons_append]
  -- one field after the other, in the order of the text
  refine (bind_lireNombre (by omega) _ _).trans ((bind_attendre '-' _ _).trans ?_)
  refine (bind_lireNombre (by omega) _ _).trans ((bind_attendre '-' _ _).trans ?_)
  refine (bind_lireNombre (by omega) _ _).trans ((bind_attendre 'T' _ _).trans ?_)
  refine (bind_lireNombre (by omega) _ _).trans ((bind_attendre ':' _ _).trans ?_)
  refine (bind_lireNombre (by omega) _ _).trans ((bind_attendre ':' _ _).trans ?_)
  refine (bind_lireNombre (by omega) _ _).trans ?_
  dsimp only
  rw [hfraction]
  dsimp only [Option.bind_eq_bind, Option.bind_some]
  rw [lireDecalage_fuseau hdecalage]
  exact dif_pos hc

end Horodatage

end Hermes.Lib
