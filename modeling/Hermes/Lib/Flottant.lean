import Mathlib.Algebra.Order.Ring.Rat
import Mathlib.Data.Int.Log
import Mathlib.Data.Rat.Floor
import Mathlib.Tactic.Linarith
import Mathlib.Tactic.NormNum
import Mathlib.Tactic.Positivity
import Mathlib.Tactic.FieldSimp
import Mathlib.Tactic.Ring

/-! # Binary64 numbers as rationals

A finite float is the rational it stands for. A quotient of integers is the nearest float,
the even one when two are as near, and it overflows from `2 ^ 1024` on.
-/

namespace Hermes.Lib.Flottant

/-- The nearest integer, the even one when two are as near. -/
def pair (x : Rat) : Int :=
  let bas := ⌊x⌋
  let reste := x - bas
  if reste < 1 / 2 then bas
  else if 1 / 2 < reste then bas + 1
  else if bas % 2 = 0 then bas else bas + 1

/-- The exponent of the last binary digit of the floats around `x`. -/
def echelle (x : Rat) : Int := max (Int.log 2 x - 52) (-1074)

def arrondirPositif (x : Rat) : Rat := pair (x / 2 ^ echelle x) * 2 ^ echelle x

def arrondir (x : Rat) : Rat :=
  if 0 < x then arrondirPositif x else if x < 0 then -arrondirPositif (-x) else 0

/-- `a / b` on integers, `b` not zero. `none` stands for `OverflowError`. -/
def diviser (a b : Int) : Option Rat :=
  let q := arrondir ((a : Rat) / b)
  if 2 ^ 1024 ≤ |q| then none else some q

/-- `f"{x:.0f}"` of a float that is not negative. -/
def sansDecimale (x : Rat) : String :=
  if 2 ^ 1024 ≤ x then "inf" else toString (pair x)

/-- A float, the ones that are not finite included. -/
inductive Binaire where
  | fini (q : Rat)
  | infini (negatif : Bool)
  | nan
  deriving DecidableEq

/-- `a < b`: nothing compares with a NaN. -/
def Binaire.lt : Binaire → Binaire → Bool
  | fini p, fini q => p < q
  | fini _, infini negatif => !negatif
  | infini negatif, fini _ => negatif
  | infini a, infini b => a && !b
  | _, _ => false

/-- `a <= b`. -/
def Binaire.le : Binaire → Binaire → Bool
  | fini p, fini q => p ≤ q
  | fini _, infini negatif => !negatif
  | infini negatif, fini _ => negatif
  | infini a, infini b => a || !b
  | _, _ => false

/-- The float nearest to a rational, infinite from `2 ^ 1024` on. -/
def Binaire.proche (x : Rat) : Binaire :=
  let q := arrondir x
  if 2 ^ 1024 ≤ |q| then infini (q < 0) else fini q

/-- `a - b`. -/
def Binaire.soustraire : Binaire → Binaire → Binaire
  | fini p, fini q => proche (p - q)
  | fini _, infini negatif => infini !negatif
  | infini negatif, fini _ => infini negatif
  | infini a, infini b => if a = b then nan else infini a
  | _, _ => nan

def Binaire.abs : Binaire → Binaire
  | fini q => fini |q|
  | infini _ => infini false
  | nan => nan

theorem floor_le_pair (x : Rat) : ⌊x⌋ ≤ pair x := by
  unfold pair
  dsimp only
  split
  · exact le_rfl
  · split
    · omega
    · split <;> omega

theorem pair_le_floor_add_one (x : Rat) : pair x ≤ ⌊x⌋ + 1 := by
  unfold pair
  dsimp only
  split
  · omega
  · split
    · exact le_rfl
    · split <;> omega

@[simp] theorem pair_intCast (n : Int) : pair n = n := by
  simp [pair]

theorem pair_mono {x y : Rat} (h : x ≤ y) : pair x ≤ pair y := by
  rcases (Int.floor_mono h).lt_or_eq with hlt | heq
  · have h₁ := pair_le_floor_add_one x
    have h₂ := floor_le_pair y
    omega
  · have hreste : x - ⌊x⌋ ≤ y - ⌊x⌋ := by linarith
    unfold pair
    rw [← heq]
    dsimp only
    split_ifs <;> first | omega | (exfalso; linarith)

theorem le_pair {n : Int} {x : Rat} (h : (n : Rat) ≤ x) : n ≤ pair x := by
  have := pair_mono h
  rwa [pair_intCast] at this

theorem pair_le {n : Int} {x : Rat} (h : x ≤ n) : pair x ≤ n := by
  have := pair_mono h
  rwa [pair_intCast] at this

theorem two_zpow_pos (k : Int) : (0 : Rat) < 2 ^ k := zpow_pos (by norm_num) k

theorem zpow_log_le {x : Rat} (h : 0 < x) : (2 : Rat) ^ Int.log 2 x ≤ x := by
  exact_mod_cast Int.zpow_log_le_self (by norm_num) h

theorem lt_zpow_log_succ (x : Rat) : x < (2 : Rat) ^ (Int.log 2 x + 1) := by
  exact_mod_cast Int.lt_zpow_succ_log_self (by norm_num) x

theorem two_zpow_eq {x : Rat} {k : Int} (hk : echelle x ≤ k) :
    ∃ n : Int, (2 : Rat) ^ k = n * 2 ^ echelle x := by
  obtain ⟨n, hn⟩ := Int.eq_ofNat_of_zero_le (Int.sub_nonneg.mpr hk)
  refine ⟨2 ^ n, ?_⟩
  have hsplit : k = n + echelle x := by omega
  rw [hsplit, zpow_add₀ (by norm_num)]
  push_cast
  simp

theorem arrondirPositif_le_zpow {x : Rat} {k : Int} (hx : x ≤ 2 ^ k) (hk : echelle x ≤ k) :
    arrondirPositif x ≤ 2 ^ k := by
  obtain ⟨n, hn⟩ := two_zpow_eq hk
  rw [hn] at hx ⊢
  have hpair : pair (x / 2 ^ echelle x) ≤ n := pair_le (by rwa [div_le_iff₀ (two_zpow_pos _)])
  exact mul_le_mul_of_nonneg_right (by exact_mod_cast hpair) (two_zpow_pos _).le

theorem zpow_le_arrondirPositif {y : Rat} {k : Int} (hy : 2 ^ k ≤ y) (hk : echelle y ≤ k) :
    2 ^ k ≤ arrondirPositif y := by
  obtain ⟨n, hn⟩ := two_zpow_eq hk
  rw [hn] at hy ⊢
  have hpair : n ≤ pair (y / 2 ^ echelle y) := le_pair (by rwa [le_div_iff₀ (two_zpow_pos _)])
  exact mul_le_mul_of_nonneg_right (by exact_mod_cast hpair) (two_zpow_pos _).le

theorem arrondirPositif_mono {x y : Rat} (hx : 0 < x) (h : x ≤ y) :
    arrondirPositif x ≤ arrondirPositif y := by
  have hlog : Int.log 2 x ≤ Int.log 2 y := Int.log_mono_right hx h
  by_cases hscale : echelle x = echelle y
  · unfold arrondirPositif
    rw [hscale]
    have hdiv : x / 2 ^ echelle y ≤ y / 2 ^ echelle y :=
      div_le_div_of_nonneg_right h (two_zpow_pos _).le
    exact mul_le_mul_of_nonneg_right (by exact_mod_cast pair_mono hdiv) (two_zpow_pos _).le
  · -- The power of two at the bottom of the upper binade separates the two.
    have hlt : Int.log 2 x < Int.log 2 y := by
      unfold echelle at hscale
      omega
    have hxk : x ≤ 2 ^ Int.log 2 y :=
      (lt_zpow_log_succ x).le.trans (zpow_le_zpow_right₀ (by norm_num) (by omega))
    have hk : echelle y ≤ Int.log 2 y := by
      unfold echelle at hscale ⊢
      omega
    have hk' : echelle x ≤ Int.log 2 y := by
      unfold echelle at hscale ⊢
      omega
    exact (arrondirPositif_le_zpow hxk hk').trans
      (zpow_le_arrondirPositif (zpow_log_le (hx.trans_le h)) hk)

theorem echelle_eq {x : Rat} {k : Int} (hlow : 2 ^ k ≤ x) (hhigh : x < 2 ^ (k + 1))
    (hk : -1022 ≤ k) : echelle x = k - 52 := by
  have hpos : 0 < x := (two_zpow_pos k).trans_le hlow
  have hle : k ≤ Int.log 2 x := (Int.zpow_le_iff_le_log (by norm_num) hpos).mp (by simpa using hlow)
  have hlt : Int.log 2 x < k + 1 :=
    (Int.lt_zpow_iff_log_lt (by norm_num) hpos).mp (by simpa using hhigh)
  unfold echelle
  omega

theorem arrondir_eq {x : Rat} {k : Int} (hlow : 2 ^ k ≤ x) (hhigh : x < 2 ^ (k + 1))
    (hk : -1022 ≤ k) : arrondir x = pair (x / 2 ^ (k - 52)) * 2 ^ (k - 52) := by
  have hpos : 0 < x := (two_zpow_pos k).trans_le hlow
  rw [arrondir, if_pos hpos, arrondirPositif, echelle_eq hlow hhigh hk]

theorem pair_eq_of_abs_lt {x : Rat} {n : Int} (h : |x - n| < 1 / 2) : pair x = n := by
  obtain ⟨hlow, hhigh⟩ := abs_lt.mp h
  by_cases hn : (n : Rat) ≤ x
  · have hfloor : ⌊x⌋ = n := Int.floor_eq_iff.mpr ⟨hn, by linarith⟩
    unfold pair
    rw [hfloor]
    exact if_pos hhigh
  · have hfloor : ⌊x⌋ = n - 1 := by
      refine Int.floor_eq_iff.mpr ⟨?_, ?_⟩ <;> push_cast <;> linarith
    unfold pair
    rw [hfloor]
    push_cast
    rw [if_neg (by linarith), if_pos (by linarith)]
    omega

theorem pair_half_of_odd {n : Int} (hn : n % 2 = 1) : pair (n + 1 / 2) = n + 1 := by
  have hfloor : ⌊(n : Rat) + 1 / 2⌋ = n := Int.floor_eq_iff.mpr ⟨by linarith, by linarith⟩
  unfold pair
  rw [hfloor]
  simp [hn]

theorem arrondir_mono {x y : Rat} (hx : 0 < x) (h : x ≤ y) : arrondir x ≤ arrondir y := by
  rw [arrondir, if_pos hx, arrondir, if_pos (hx.trans_le h)]
  exact arrondirPositif_mono hx h

theorem arrondirPositif_nonneg {x : Rat} (hx : 0 < x) : 0 ≤ arrondirPositif x := by
  have hpair : (0 : Int) ≤ pair (x / 2 ^ echelle x) :=
    le_pair (by exact_mod_cast (div_pos hx (two_zpow_pos _)).le)
  exact mul_nonneg (by exact_mod_cast hpair) (two_zpow_pos _).le

theorem arrondir_neg (x : Rat) : arrondir (-x) = -arrondir x := by
  unfold arrondir
  rcases lt_trichotomy x 0 with hx | hx | hx
  · rw [if_pos (by linarith), if_neg (by linarith), if_pos hx, neg_neg]
  · simp [hx]
  · rw [if_neg (by linarith), if_pos (by linarith), if_pos hx, neg_neg]

theorem arrondir_nonneg {x : Rat} (hx : 0 ≤ x) : 0 ≤ arrondir x := by
  rcases hx.eq_or_lt with rfl | hx
  · simp [arrondir]
  · rw [arrondir, if_pos hx]
    exact arrondirPositif_nonneg hx

theorem arrondir_monotone : Monotone arrondir := by
  intro x y h
  rcases lt_or_ge 0 x with hx | hx
  · exact arrondir_mono hx h
  · rcases lt_or_ge y 0 with hy | hy
    · have hneg := arrondir_mono (x := -y) (y := -x) (by linarith) (by linarith)
      rw [arrondir_neg, arrondir_neg] at hneg
      linarith
    · have hbas := arrondir_nonneg (x := -x) (by linarith)
      rw [arrondir_neg] at hbas
      have hhaut := arrondir_nonneg hy
      linarith

theorem diviser_mono {a a' b : Int} {q q' : Rat} (hb : 0 ≤ b) (h : a ≤ a')
    (hq : diviser a b = some q) (hq' : diviser a' b = some q') : q ≤ q' := by
  have hquotient : (a : Rat) / b ≤ (a' : Rat) / b :=
    div_le_div_of_nonneg_right (by exact_mod_cast h) (by exact_mod_cast hb)
  have hle := arrondir_monotone hquotient
  unfold diviser at hq hq'
  dsimp only at hq hq'
  split at hq
  · cases hq
  · split at hq'
    · cases hq'
    · rw [← Option.some.inj hq, ← Option.some.inj hq']
      exact hle

theorem diviser_eq_none_of_le {a a' a'' b : Int} {q : Rat} (hb : 0 ≤ b) (h : a ≤ a')
    (h' : a' ≤ a'') (hq : diviser a b = some q) (hnone : diviser a' b = none) :
    diviser a'' b = none := by
  have hmono : ∀ {a a' : Int}, a ≤ a' → arrondir ((a : Rat) / b) ≤ arrondir ((a' : Rat) / b) :=
    fun h => arrondir_monotone
      (div_le_div_of_nonneg_right (by exact_mod_cast h) (by exact_mod_cast hb))
  have hle := hmono h
  have hle' := hmono h'
  unfold diviser at hq hnone ⊢
  dsimp only at hq hnone ⊢
  split at hq
  · cases hq
  · next hfini =>
      split at hnone
      · next hinfini =>
          rcases le_abs.mp hinfini with hhaut | hneg
          · exact if_pos ((hhaut.trans hle').trans (le_abs_self _))
          · exact absurd (hneg.trans ((neg_le_neg hle).trans (neg_le_abs _))) hfini
      · cases hnone

theorem arrondir_one : arrondir 1 = 1 := by
  have hbinade := arrondir_eq (x := 1) (k := 0) (by norm_num) (by norm_num) (by omega)
  rw [hbinade]
  have hpuissance : (1 : Rat) / 2 ^ ((0 : Int) - 52) = ((2 ^ 52 : Int) : Rat) := by norm_num
  rw [hpuissance, pair_intCast]
  norm_num

theorem abs_arrondir_le_one {x : Rat} (h : |x| ≤ 1) : |arrondir x| ≤ 1 := by
  have hpositif : ∀ y : Rat, 0 < y → y ≤ 1 → arrondirPositif y ≤ 1 ∧ 0 ≤ arrondirPositif y := by
    intro y hy hle
    have hhaut := arrondir_mono hy hle
    rw [arrondir_one, arrondir, if_pos hy] at hhaut
    have hbas : (0 : Int) ≤ pair (y / 2 ^ echelle y) :=
      le_pair (by simpa using div_nonneg hy.le (two_zpow_pos _).le)
    exact ⟨hhaut, mul_nonneg (by exact_mod_cast hbas) (two_zpow_pos _).le⟩
  obtain ⟨hbas, hhaut⟩ := abs_le.mp h
  unfold arrondir
  split_ifs with hpos hneg
  · obtain ⟨hle, hnonneg⟩ := hpositif x hpos hhaut
    rwa [abs_of_nonneg hnonneg]
  · obtain ⟨hle, hnonneg⟩ := hpositif (-x) (by linarith) (by linarith)
    rwa [abs_neg, abs_of_nonneg hnonneg]
  · simp

end Hermes.Lib.Flottant
