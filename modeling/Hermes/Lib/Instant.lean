import Hermes.Lib.Horodatage
import Mathlib.Algebra.Order.Ring.Int

/-! # What a clock reads, and the order of the texts

A date with an offset names an instant: what its clock reads, less the offset.
-/

namespace Hermes.Lib

def joursAvantAnnee (annee : Nat) : Nat :=
  (annee - 1) * 365 + (annee - 1) / 4 - (annee - 1) / 100 + (annee - 1) / 400

def joursAvantMois (annee : Nat) : Nat → Nat
  | 0 => 0
  | 1 => 0
  | mois + 2 => joursAvantMois annee (mois + 1) + joursDuMois annee (mois + 1)

namespace Champs

def ordinal (c : Champs) : Nat := joursAvantAnnee c.annee + joursAvantMois c.annee c.mois + c.jour

def lecture (c : Champs) : Nat :=
  (((c.ordinal * 24 + c.heure) * 60 + c.minute) * 60 + c.seconde) * 1000000 + c.micro

/-- The instant, in microseconds of UTC. -/
def instant (c : Champs) : Int := c.lecture - c.decalage.getD 0

end Champs

theorem joursAvantMois_treize (annee : Nat) :
    joursAvantMois annee 13 = if bissextile annee then 366 else 365 := by
  have hfevrier : joursAvantMois annee 13 = 337 + joursDuMois annee 2 := by
    simp only [joursAvantMois]
    rw [show joursDuMois annee 2 = if bissextile annee then 29 else 28 from rfl]
    split_ifs <;> rfl
  rw [hfevrier, show joursDuMois annee 2 = if bissextile annee then 29 else 28 from rfl]
  split_ifs <;> rfl

theorem joursAvantAnnee_succ {annee : Nat} (h : 1 ≤ annee) :
    joursAvantAnnee (annee + 1) = joursAvantAnnee annee + joursAvantMois annee 13 := by
  rw [joursAvantMois_treize]
  have hquatre : annee / 4 = (annee - 1) / 4 + if annee % 4 = 0 then 1 else 0 := by
    split_ifs <;> omega
  have hcent : annee / 100 = (annee - 1) / 100 + if annee % 100 = 0 then 1 else 0 := by
    split_ifs <;> omega
  have hquatreCents : annee / 400 = (annee - 1) / 400 + if annee % 400 = 0 then 1 else 0 := by
    split_ifs <;> omega
  have hcentaine : (annee - 1) / 100 ≤ annee - 1 := Nat.div_le_self _ _
  have hmultiples : (annee % 400 = 0 → annee % 100 = 0) ∧ (annee % 100 = 0 → annee % 4 = 0) := by
    omega
  unfold joursAvantAnnee bissextile
  rw [Nat.add_sub_cancel, hquatre, hcent, hquatreCents]
  generalize (annee - 1) / 4 = a at *
  generalize (annee - 1) / 100 = b at *
  generalize (annee - 1) / 400 = c at *
  clear hquatre hcent hquatreCents
  by_cases h4 : annee % 4 = 0
  · by_cases h100 : annee % 100 = 0
    · by_cases h400 : annee % 400 = 0
      · simp only [h4, h100, h400, decide_true, ne_eq, not_true, decide_false, Bool.false_or,
          Bool.and_true, if_true]
        omega
      · simp only [h4, h100, h400, decide_true, ne_eq, not_true, decide_false, Bool.false_or,
          Bool.and_false, if_true, if_false, Bool.false_eq_true]
        omega
    · have h400 : ¬annee % 400 = 0 := fun h => h100 (hmultiples.1 h)
      simp only [h4, h100, h400, decide_true, ne_eq, not_false_eq_true, decide_false,
        Bool.true_or, Bool.and_true, if_true, if_false]
      omega
  · have h100 : ¬annee % 100 = 0 := fun h => h4 (hmultiples.2 h)
    have h400 : ¬annee % 400 = 0 := fun h => h100 (hmultiples.1 h)
    simp only [h4, h100, h400, decide_false, Bool.false_and, if_false, Bool.false_eq_true]
    omega

theorem joursAvantAnnee_mono {a b : Nat} (ha : 1 ≤ a) (hab : a ≤ b) :
    joursAvantAnnee a ≤ joursAvantAnnee b := by
  obtain ⟨k, rfl⟩ := Nat.exists_eq_add_of_le hab
  clear hab
  induction k with
  | zero => exact Nat.le_refl _
  | succ k ih =>
      rw [← Nat.add_assoc, joursAvantAnnee_succ (by omega)]
      omega

theorem joursAvantMois_mono (annee : Nat) {m n : Nat} (h : m ≤ n) :
    joursAvantMois annee m ≤ joursAvantMois annee n := by
  obtain ⟨k, rfl⟩ := Nat.exists_eq_add_of_le h
  clear h
  induction k with
  | zero => exact Nat.le_refl _
  | succ k ih =>
      refine Nat.le_trans ih ?_
      rw [← Nat.add_assoc]
      cases m + k with
      | zero => exact Nat.zero_le _
      | succ n => exact Nat.le_add_right _ _

theorem joursAvantMois_succ (annee : Nat) {mois jour : Nat} (hmois : 1 ≤ mois)
    (hjour : jour ≤ joursDuMois annee mois) :
    joursAvantMois annee mois + jour ≤ joursAvantMois annee (mois + 1) := by
  cases mois with
  | zero => omega
  | succ mois =>
      rw [joursAvantMois]
      omega

def Champs.AvantJour (c c' : Champs) : Prop :=
  c.annee < c'.annee ∨ c.annee = c'.annee ∧ (c.mois < c'.mois ∨ c.mois = c'.mois ∧ c.jour < c'.jour)

theorem Champs.AvantJour.ordinal_lt {c c' : Champs} (hc : c.Valide) (hc' : c'.Valide)
    (h : c.AvantJour c') : c.ordinal < c'.ordinal := by
  obtain ⟨⟨hannee, _⟩, ⟨hmois, hmois12⟩, ⟨_, hjour⟩, _⟩ := hc
  obtain ⟨_, _, ⟨hjour', _⟩, _⟩ := hc'
  have hmoisSuivant := joursAvantMois_succ c.annee hmois hjour
  unfold Champs.ordinal
  rcases h with hlt | ⟨heq, hlt | ⟨heqMois, hlt⟩⟩
  · have hfin := joursAvantMois_mono c.annee (show c.mois + 1 ≤ 13 by omega)
    have hsuivante := joursAvantAnnee_succ hannee
    have hmono := joursAvantAnnee_mono (show 1 ≤ c.annee + 1 by omega)
      (show c.annee + 1 ≤ c'.annee from hlt)
    omega
  · have hmono := joursAvantMois_mono c.annee (show c.mois + 1 ≤ c'.mois from hlt)
    rw [← heq]
    omega
  · rw [← heq, ← heqMois]
    omega

theorem Champs.avantJour_trichotomy (c c' : Champs) :
    c.AvantJour c' ∨ (c.annee = c'.annee ∧ c.mois = c'.mois ∧ c.jour = c'.jour) ∨
      c'.AvantJour c := by
  unfold Champs.AvantJour
  omega

theorem Champs.avantJour_iff {c c' : Champs} (hc : c.Valide) (hc' : c'.Valide) :
    c.AvantJour c' ↔ c.ordinal < c'.ordinal := by
  refine ⟨fun h => h.ordinal_lt hc hc', ?_⟩
  intro h
  rcases c.avantJour_trichotomy c' with hlt | ⟨hannee, hmois, hjour⟩ | hgt
  · exact hlt
  · unfold Champs.ordinal at h
    rw [hannee, hmois, hjour] at h
    exact absurd h (Nat.lt_irrefl _)
  · exact absurd (hgt.ordinal_lt hc' hc) (by omega)

theorem Champs.ordinal_eq_iff {c c' : Champs} (hc : c.Valide) (hc' : c'.Valide) :
    c.ordinal = c'.ordinal ↔ c.annee = c'.annee ∧ c.mois = c'.mois ∧ c.jour = c'.jour := by
  constructor
  · intro h
    rcases c.avantJour_trichotomy c' with hlt | heq | hgt
    · exact absurd (hlt.ordinal_lt hc hc') (by omega)
    · exact heq
    · exact absurd (hgt.ordinal_lt hc' hc) (by omega)
  · rintro ⟨hannee, hmois, hjour⟩
    unfold Champs.ordinal
    rw [hannee, hmois, hjour]

namespace Horodatage

theorem append_lt_append_iff {p q : List Char} (h : p.length = q.length) (s t : List Char) :
    p ++ s < q ++ t ↔ p < q ∨ p = q ∧ s < t := by
  induction p generalizing q with
  | nil =>
      obtain rfl := List.eq_nil_of_length_eq_zero h.symm
      simp
  | cons a p ih =>
      cases q with
      | nil => cases h
      | cons b q =>
          rw [List.cons_append, List.cons_append, List.cons_lt_cons_iff, List.cons_lt_cons_iff,
            ih (Nat.succ.inj h), List.cons.injEq]
          tauto

theorem cons_lt_cons_self (c : Char) (s t : List Char) : c :: s < c :: t ↔ s < t := by
  rw [List.cons_lt_cons_iff]
  constructor
  · rintro (h | h)
    · exact absurd h (Nat.lt_irrefl _)
    · exact h.2
  · exact fun h => .inr ⟨rfl, h⟩

@[simp] theorem length_rempli (k n : Nat) : (rempli k n).length = k := by
  induction k with
  | zero => rfl
  | succ k ih => rw [rempli, List.length_cons, ih]

theorem rempli_mod {k j : Nat} (h : k ≤ j) (n : Nat) : rempli k (n % 10 ^ j) = rempli k n := by
  induction k with
  | zero => rfl
  | succ k ih =>
      obtain ⟨i, rfl⟩ := Nat.exists_eq_add_of_le h
      have hpow : 10 ^ (k + 1 + i) = 10 ^ k * (10 * 10 ^ i) := by
        rw [Nat.pow_add, Nat.pow_succ, Nat.mul_assoc]
      have hchiffre : n % 10 ^ (k + 1 + i) / 10 ^ k % 10 = n / 10 ^ k % 10 := by
        rw [hpow, Nat.mod_mul_right_div_self, Nat.mod_mod_of_dvd _ (Nat.dvd_mul_right ..)]
      rw [rempli, rempli, hchiffre, ih (by omega)]

theorem digitChar_lt_iff : ∀ a < 10, ∀ b < 10,
    (Nat.digitChar a < Nat.digitChar b ↔ a < b) ∧ (Nat.digitChar a = Nat.digitChar b ↔ a = b) := by
  decide

theorem lt_iff_div_mod (d m n : Nat) :
    m < n ↔ m / d < n / d ∨ m / d = n / d ∧ m % d < n % d := by
  have hm := Nat.div_add_mod m d
  have hn := Nat.div_add_mod n d
  constructor
  · intro h
    rcases Nat.lt_or_eq_of_le (Nat.div_le_div_right (c := d) (Nat.le_of_lt h)) with hlt | heq
    · exact .inl hlt
    · rw [heq] at hm
      exact .inr ⟨heq, by omega⟩
  · rintro (hlt | ⟨heq, hlt⟩)
    · exact Nat.lt_of_div_lt_div hlt
    · rw [heq] at hm
      omega

theorem mul_add_lt_iff {b x x' y y' : Nat} (hy : y < b) (hy' : y' < b) :
    x * b + y < x' * b + y' ↔ x < x' ∨ x = x' ∧ y < y' := by
  have hb : 0 < b := Nat.lt_of_le_of_lt (Nat.zero_le y) hy
  rw [lt_iff_div_mod b, Nat.mul_comm x, Nat.mul_comm x', Nat.mul_add_div hb, Nat.mul_add_div hb,
    Nat.mul_add_mod, Nat.mul_add_mod, Nat.div_eq_of_lt hy, Nat.div_eq_of_lt hy',
    Nat.mod_eq_of_lt hy, Nat.mod_eq_of_lt hy', Nat.add_zero, Nat.add_zero]

theorem mul_add_eq_iff {b x x' y y' : Nat} (hy : y < b) (hy' : y' < b) :
    x * b + y = x' * b + y' ↔ x = x' ∧ y = y' := by
  have hlt := @mul_add_lt_iff b x x' y y' hy hy'
  have hgt := @mul_add_lt_iff b x' x y' y hy' hy
  omega

theorem rempli_lt_iff {k m n : Nat} (hm : m < 10 ^ k) (hn : n < 10 ^ k) :
    rempli k m < rempli k n ↔ m < n := by
  induction k generalizing m n with
  | zero =>
      obtain rfl : m = 0 := by omega
      obtain rfl : n = 0 := by omega
      exact iff_of_false (List.lt_irrefl _) (Nat.lt_irrefl _)
  | succ k ih =>
      have hpos : 0 < 10 ^ k := Nat.pow_pos (by decide)
      rw [Nat.pow_succ] at hm hn
      have hm' : m / 10 ^ k < 10 := Nat.div_lt_of_lt_mul hm
      have hn' : n / 10 ^ k < 10 := Nat.div_lt_of_lt_mul hn
      obtain ⟨hlt, heq⟩ := digitChar_lt_iff _ hm' _ hn'
      rw [rempli, rempli, List.cons_lt_cons_iff, Nat.mod_eq_of_lt hm', Nat.mod_eq_of_lt hn', hlt, heq,
        ← rempli_mod (Nat.le_refl k) m,
        ← rempli_mod (Nat.le_refl k) n, ih (Nat.mod_lt _ hpos) (Nat.mod_lt _ hpos)]
      exact (lt_iff_div_mod _ m n).symm

theorem rempli_inj {k m n : Nat} (hm : m < 10 ^ k) (hn : n < 10 ^ k) :
    rempli k m = rempli k n ↔ m = n := by
  refine ⟨?_, fun h => h ▸ rfl⟩
  intro h
  have hread := lireNombre_of_lt hm []
  rw [h, lireNombre_of_lt hn] at hread
  exact (Prod.mk.inj (Option.some.inj hread)).1.symm

theorem rempli_append_lt_iff {k m n : Nat} (hm : m < 10 ^ k) (hn : n < 10 ^ k) (s t : List Char) :
    rempli k m ++ s < rempli k n ++ t ↔ m < n ∨ m = n ∧ s < t := by
  rw [append_lt_append_iff (by rw [length_rempli, length_rempli]), rempli_lt_iff hm hn,
    rempli_inj hm hn]

theorem fraction_lt_iff {m n : Nat} (hm : m < 1000000) (hn : n < 1000000) {s t : List Char}
    (hs : ∃ c s', s = c :: s' ∧ c < '.') (ht : ∃ c t', t = c :: t' ∧ c < '.') :
    (if m = 0 then [] else '.' :: rempli 6 m) ++ s < (if n = 0 then [] else '.' :: rempli 6 n) ++ t ↔
      m < n ∨ m = n ∧ s < t := by
  obtain ⟨c, s, rfl, hc⟩ := hs
  obtain ⟨d, t, rfl, hd⟩ := ht
  by_cases hm0 : m = 0
  · by_cases hn0 : n = 0
    · simp [hm0, hn0]
    · rw [if_pos hm0, if_neg hn0, List.nil_append, List.cons_append, List.cons_lt_cons_iff]
      exact iff_of_true (.inl hc) (.inl (by omega))
  · by_cases hn0 : n = 0
    · rw [if_neg hm0, if_pos hn0, List.nil_append, List.cons_append, List.cons_lt_cons_iff]
      refine iff_of_false ?_ (by omega)
      rintro (h | ⟨rfl, _⟩)
      · exact Nat.lt_asymm hd h
      · exact Nat.lt_irrefl _ hd
    · rw [if_neg hm0, if_neg hn0, List.cons_append, List.cons_append, cons_lt_cons_self]
      exact rempli_append_lt_iff hm hn _ _

theorem ecrireDecalage_signe (d : Int) : ∃ c s, ecrireDecalage d = c :: s ∧ c < '.' := by
  unfold ecrireDecalage
  by_cases hd : d < 0
  · exact ⟨'-', _, by rw [if_pos hd], by decide⟩
  · exact ⟨'+', _, by rw [if_neg hd], by decide⟩

theorem isoformat_lt_iff {a b : Horodatage} {d d' : Int} (ha : a.champs.decalage = some d)
    (hb : b.champs.decalage = some d') :
    a.isoformat < b.isoformat ↔
      a.champs.lecture < b.champs.lecture ∨
        a.champs.lecture = b.champs.lecture ∧ ecrireDecalage d < ecrireDecalage d' := by
  obtain ⟨c, hc⟩ := a
  obtain ⟨c', hc'⟩ := b
  have hjours : ∀ annee mois, joursDuMois annee mois ≤ 31 := by
    intro annee mois
    unfold joursDuMois
    split_ifs <;> omega
  have hjoursC := hjours c.annee c.mois
  have hjoursC' := hjours c'.annee c'.mois
  have hjour := Champs.avantJour_iff hc hc'
  have hmemeJour := Champs.ordinal_eq_iff hc hc'
  obtain ⟨⟨_, hannee⟩, ⟨_, hmois⟩, ⟨_, hj⟩, ⟨hheure, hminute, hseconde, hmicro⟩, _⟩ := hc
  obtain ⟨⟨_, hannee'⟩, ⟨_, hmois'⟩, ⟨_, hj'⟩, ⟨hheure', hminute', hseconde', hmicro'⟩, _⟩ := hc'
  change c.decalage = some d at ha
  change c'.decalage = some d' at hb
  simp only [isoformat, ecrireHeure, ha, hb, ecrireFuseau, List.append_assoc, List.cons_append]
  rw [rempli_append_lt_iff (by omega) (by omega), cons_lt_cons_self,
    rempli_append_lt_iff (by omega) (by omega), cons_lt_cons_self,
    rempli_append_lt_iff (by omega) (by omega), cons_lt_cons_self,
    rempli_append_lt_iff (by omega) (by omega), cons_lt_cons_self,
    rempli_append_lt_iff (by omega) (by omega), cons_lt_cons_self,
    rempli_append_lt_iff (by omega) (by omega),
    fraction_lt_iff hmicro hmicro' (ecrireDecalage_signe d) (ecrireDecalage_signe d')]
  have hdate : ∀ R : Prop, (c.annee < c'.annee ∨ c.annee = c'.annee ∧ (c.mois < c'.mois ∨
      c.mois = c'.mois ∧ (c.jour < c'.jour ∨ c.jour = c'.jour ∧ R))) ↔
        c.ordinal < c'.ordinal ∨ c.ordinal = c'.ordinal ∧ R := by
    intro R
    rw [← hjour, hmemeJour, Champs.AvantJour]
    simp only [and_or_left, or_assoc, and_assoc]
  rw [hdate]
  unfold Champs.lecture
  rw [mul_add_lt_iff hmicro hmicro', mul_add_eq_iff hmicro hmicro', mul_add_lt_iff hseconde hseconde',
    mul_add_eq_iff hseconde hseconde', mul_add_lt_iff hminute hminute',
    mul_add_eq_iff hminute hminute', mul_add_lt_iff hheure hheure', mul_add_eq_iff hheure hheure']
  simp only [and_or_left, or_assoc, and_assoc]

theorem decalage_zero_lt_iff {d : Int} (hd : d.natAbs < 86400000000) :
    ecrireDecalage 0 < ecrireDecalage d ↔ d ≠ 0 := by
  rcases lt_trichotomy d 0 with hneg | rfl | hpos
  · refine iff_of_true ?_ (by omega)
    unfold ecrireDecalage
    rw [if_pos hneg, if_neg (by decide), List.cons_lt_cons_iff]
    exact .inl (by decide)
  · exact iff_of_false (List.lt_irrefl _) (by decide)
  · refine iff_of_true ?_ (by omega)
    unfold ecrireDecalage
    rw [if_neg (by omega), if_neg (by omega), cons_lt_cons_self]
    rw [rempli_append_lt_iff (by omega) (by omega), cons_lt_cons_self,
      rempli_append_lt_iff (by omega) (by omega), if_pos (by decide)]
    by_cases hsecondes : d.natAbs / 1000000 % 60 = 0 ∧ d.natAbs % 1000000 = 0
    · rw [if_pos hsecondes]
      omega
    · rw [if_neg hsecondes]
      have hvide : ([] : List Char) < ':' :: (rempli 2 (d.natAbs / 1000000 % 60) ++
          if d.natAbs % 1000000 = 0 then [] else '.' :: rempli 6 (d.natAbs % 1000000)) :=
        List.nil_lt_cons ..
      simp only [hvide, and_true]
      omega

/-- The first instant whose text in UTC does not stand before the text of a date. -/
def repere (h : Horodatage) : Int :=
  h.champs.lecture + if h.champs.decalage = some 0 then 0 else 1

theorem utc_lt_iff {a b : Horodatage} {d : Int} (ha : a.champs.decalage = some 0)
    (hb : b.champs.decalage = some d) :
    a.isoformat < b.isoformat ↔ a.champs.instant < b.repere := by
  rw [isoformat_lt_iff ha hb, decalage_zero_lt_iff (b.valide.2.2.2.2 d hb)]
  unfold repere Champs.instant
  rw [ha, hb, Option.getD_some]
  by_cases hd : d = 0
  · rw [if_pos (by rw [hd])]
    omega
  · rw [if_neg fun h => hd (Option.some.inj h)]
    omega

theorem repere_utc {b : Horodatage} (hb : b.champs.decalage = some 0) :
    b.repere = b.champs.instant := by
  unfold repere Champs.instant
  rw [hb, if_pos rfl, Option.getD_some]
  omega

end Horodatage

end Hermes.Lib
