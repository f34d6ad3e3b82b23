import Mathlib.Data.List.Nodup

/-! # Tables with a primary key

A table is a list of rows whose keys are distinct. Inserting a taken key is refused, and an update
rewrites the row of one key without touching the key.
-/

namespace Hermes.Lib

variable {κ ρ : Type*} [DecidableEq κ] {cle : ρ → κ}

structure Table (cle : ρ → κ) where
  lignes : List ρ
  uniques : (lignes.map cle).Nodup

namespace Table

def vide : Table cle := ⟨[], List.nodup_nil⟩

/-- `SELECT * … WHERE key = k`. -/
def lire (t : Table cle) (k : κ) : Option ρ :=
  t.lignes.find? fun r => cle r = k

/-- `INSERT`: refused when the key is taken. -/
def inserer (t : Table cle) (r : ρ) : Option (Table cle) :=
  if h : cle r ∈ t.lignes.map cle then none
  else
    some
      { lignes := t.lignes ++ [r]
        uniques := by
          rw [List.map_append, List.map_singleton]
          exact List.nodup_append.mpr
            ⟨t.uniques, List.nodup_singleton _, fun a ha b hb hab =>
              h (by rw [← List.mem_singleton.mp hb, ← hab]; exact ha)⟩ }

theorem map_cle_si {k : κ} {f : ρ → ρ} (hf : ∀ r, cle r = k → cle (f r) = k)
    (lignes : List ρ) :
    (lignes.map fun r => if cle r = k then f r else r).map cle = lignes.map cle := by
  rw [List.map_map]
  apply List.map_congr_left
  intro r _
  show cle (if cle r = k then f r else r) = cle r
  split
  · next hk => rw [hf r hk, hk]
  · rfl

/-- `UPDATE … WHERE key = k` by a function that leaves the key alone. -/
def modifier (t : Table cle) (k : κ) (f : ρ → ρ) (hf : ∀ r, cle r = k → cle (f r) = k) :
    Table cle where
  lignes := t.lignes.map fun r => if cle r = k then f r else r
  uniques := by
    rw [map_cle_si hf]
    exact t.uniques

/-- The row of the same key becomes `r`. -/
def remplacer (t : Table cle) (r : ρ) : Table cle :=
  t.modifier (cle r) (fun _ => r) fun _ _ => rfl

/-- `DELETE … WHERE key = k`. -/
def retirer (t : Table cle) (k : κ) : Table cle where
  lignes := t.lignes.filter fun r => cle r ≠ k
  uniques := (t.uniques.sublist (List.filter_sublist.map cle))

/-- `INSERT OR REPLACE`: the row of the same key, if any, leaves, and the new one comes last. -/
def deposer (t : Table cle) (r : ρ) : Table cle where
  lignes := (t.retirer (cle r)).lignes ++ [r]
  uniques := by
    rw [List.map_append, List.map_singleton]
    refine List.nodup_append.mpr ⟨(t.retirer (cle r)).uniques, List.nodup_singleton _, ?_⟩
    intro a ha b hb hab
    obtain ⟨r', hr', rfl⟩ := List.mem_map.mp ha
    rw [List.mem_singleton.mp hb] at hab
    simp [retirer, hab] at hr'

def poser (t : Table cle) (r : ρ) : Table cle :=
  match t.inserer r with
  | some t' => t'
  | none => t.remplacer r

theorem cle_of_lire {t : Table cle} {k : κ} {r : ρ} (h : t.lire k = some r) : cle r = k := by
  simpa using List.find?_some h

theorem mem_of_lire {t : Table cle} {k : κ} {r : ρ} (h : t.lire k = some r) :
    r ∈ t.lignes :=
  List.mem_of_find?_eq_some h

theorem lire_eq_none {t : Table cle} {k : κ} : t.lire k = none ↔ k ∉ t.lignes.map cle := by
  simp only [lire, List.find?_eq_none, decide_eq_true_eq, List.mem_map, not_exists, not_and]

theorem lire_of_mem {t : Table cle} {r : ρ} (h : r ∈ t.lignes) : t.lire (cle r) = some r := by
  cases hread : t.lire (cle r) with
  | none => exact absurd (List.mem_map_of_mem h) (lire_eq_none.mp hread)
  | some r' =>
      have hkey : cle r' = cle r := cle_of_lire hread
      have hsame : r' = r := List.inj_on_of_nodup_map t.uniques (mem_of_lire hread) h hkey
      rw [hsame]

theorem inserer_eq_some {t t' : Table cle} {r : ρ} (h : t.inserer r = some t') :
    t.lire (cle r) = none ∧ t'.lignes = t.lignes ++ [r] := by
  unfold inserer at h
  split at h
  · cases h
  · next hfree =>
      cases h
      exact ⟨lire_eq_none.mpr hfree, rfl⟩

theorem lire_inserer {t t' : Table cle} {r : ρ} (h : t.inserer r = some t') (k : κ) :
    t'.lire k = if k = cle r then some r else t.lire k := by
  obtain ⟨hfree, hlignes⟩ := inserer_eq_some h
  unfold lire at *
  rw [hlignes, List.find?_append]
  split
  · next hk =>
      subst hk
      rw [hfree]
      simp
  · next hk =>
      have hlast : List.find? (fun r' => decide (cle r' = k)) [r] = none := by
        simp [Ne.symm hk]
      rw [hlast, Option.or_none]

theorem lire_modifier (t : Table cle) (k : κ) (f : ρ → ρ)
    (hf : ∀ r, cle r = k → cle (f r) = k) (k' : κ) :
    (t.modifier k f hf).lire k' = if k' = k then (t.lire k').map f else t.lire k' := by
  have hsame : ∀ r, cle (if cle r = k then f r else r) = cle r := by
    intro r
    split
    · next hk => rw [hf r hk, hk]
    · rfl
  have hread : (t.modifier k f hf).lire k' =
      (t.lire k').map fun r => if cle r = k then f r else r := by
    show List.find? _ (t.lignes.map _) = _
    rw [List.find?_map]
    simp only [Function.comp_def, hsame]
    rfl
  rw [hread]
  cases hk : t.lire k' with
  | none => simp
  | some r =>
      have hkey : cle r = k' := cle_of_lire hk
      simp only [Option.map_some, hkey]
      split <;> rfl

theorem cles_modifier (t : Table cle) (k : κ) (f : ρ → ρ)
    (hf : ∀ r, cle r = k → cle (f r) = k) :
    (t.modifier k f hf).lignes.map cle = t.lignes.map cle :=
  map_cle_si hf t.lignes

theorem lire_remplacer (t : Table cle) (r : ρ) (k : κ) :
    (t.remplacer r).lire k = if k = cle r then (t.lire k).map fun _ => r else t.lire k :=
  lire_modifier t (cle r) _ _ k

theorem lire_retirer (t : Table cle) (k k' : κ) :
    (t.retirer k).lire k' = if k' = k then none else t.lire k' := by
  unfold lire retirer
  rw [List.find?_filter]
  split
  · next hk =>
      rw [List.find?_eq_none]
      intro r _
      simp [hk]
  · next hk =>
      congr 1
      funext r
      by_cases hr : cle r = k' <;> simp [hr, hk]

theorem lire_deposer (t : Table cle) (r : ρ) (k : κ) :
    (t.deposer r).lire k = if k = cle r then some r else t.lire k := by
  have hsplit : (t.deposer r).lire k = ((t.retirer (cle r)).lire k).or
      (List.find? (fun r' => cle r' = k) [r]) := by
    unfold lire deposer
    rw [List.find?_append]
  rw [hsplit, lire_retirer]
  split
  · next hk => simp [hk]
  · next hk => simp [Ne.symm hk]

theorem inserer_eq_none {t : Table cle} {r : ρ} (h : t.inserer r = none) :
    (t.lire (cle r)).isSome = true := by
  unfold inserer at h
  split at h
  · next hpris =>
      rw [Option.isSome_iff_ne_none]
      exact fun hlire => lire_eq_none.mp hlire hpris
  · cases h

theorem lire_poser (t : Table cle) (r : ρ) (k : κ) :
    (t.poser r).lire k = if k = cle r then some r else t.lire k := by
  unfold poser
  cases hread : t.inserer r with
  | some t' => exact lire_inserer hread k
  | none =>
      obtain ⟨r', hr'⟩ := Option.isSome_iff_exists.mp (inserer_eq_none hread)
      dsimp only
      rw [lire_remplacer]
      split
      · next hk => rw [hk, hr', Option.map_some]
      · rfl

theorem poser_of_lire {t : Table cle} {r : ρ} (h : t.lire (cle r) = some r) : t.poser r = t := by
  have hmem : cle r ∈ t.lignes.map cle := List.mem_map_of_mem (mem_of_lire h)
  have hpris : t.inserer r = none := by
    unfold inserer
    rw [dif_pos hmem]
  have hlignes : (t.lignes.map fun r' => if cle r' = cle r then r else r') = t.lignes := by
    conv_rhs => rw [← List.map_id t.lignes]
    refine List.map_congr_left fun r' hr' => ?_
    split
    · next hcle =>
        have hlire := lire_of_mem hr'
        rw [hcle, h] at hlire
        exact Option.some.inj hlire
    · rfl
  obtain ⟨lignes, uniques⟩ := t
  simp only [poser, hpris, remplacer, modifier, hlignes]

theorem lignes_poser {t : Table cle} {r : ρ} (h : t.lire (cle r) = none) :
    (t.poser r).lignes = t.lignes ++ [r] := by
  unfold poser
  cases hinserer : t.inserer r with
  | some t' => exact (inserer_eq_some hinserer).2
  | none =>
      have hsome := inserer_eq_none hinserer
      rw [h] at hsome
      cases hsome

theorem lire_foldl_poser (t : Table cle) {rs : List ρ} (h : (rs.map cle).Nodup) (k : κ) :
    (rs.foldl poser t).lire k = (rs.find? fun r => cle r = k).or (t.lire k) := by
  induction rs generalizing t with
  | nil => rfl
  | cons r rs ih =>
      obtain ⟨hneuve, hreste⟩ := List.nodup_cons.mp h
      rw [List.foldl_cons, ih (t.poser r) hreste, lire_poser, List.find?_cons]
      by_cases hk : cle r = k
      · have habsent : (rs.find? fun r => cle r = k) = none := by
          rw [List.find?_eq_none]
          intro r' hr' hcle
          exact hneuve (List.mem_map.mpr ⟨r', hr', by rw [hk]; exact of_decide_eq_true hcle⟩)
        rw [habsent, if_pos hk.symm, decide_eq_true hk]
        rfl
      · rw [if_neg (Ne.symm hk), decide_eq_false hk]

/-- Every frozen row of `t` stands unchanged in `t'`. -/
def FigeSous (fige : ρ → Prop) (t t' : Table cle) : Prop :=
  ∀ k r, t.lire k = some r → fige r → t'.lire k = some r

variable {fige : ρ → Prop}

theorem FigeSous.refl (t : Table cle) : FigeSous fige t t := fun _ _ h _ => h

theorem FigeSous.trans {t₁ t₂ t₃ : Table cle} (h₁ : FigeSous fige t₁ t₂)
    (h₂ : FigeSous fige t₂ t₃) : FigeSous fige t₁ t₃ :=
  fun k r hr hfige => h₂ k r (h₁ k r hr hfige) hfige

theorem figeSous_inserer {t t' : Table cle} {r : ρ} (h : t.inserer r = some t') :
    FigeSous fige t t' := by
  intro k r' hr' _
  rw [lire_inserer h]
  split
  · next hk =>
      subst hk
      rw [(inserer_eq_some h).1] at hr'
      cases hr'
  · exact hr'

theorem figeSous_modifier (t : Table cle) (k : κ) {f : ρ → ρ}
    {hf : ∀ r, cle r = k → cle (f r) = k} (hfixe : ∀ r, fige r → f r = r) :
    FigeSous fige t (t.modifier k f hf) := by
  intro k' r hr hfige
  rw [lire_modifier, hr]
  split
  · rw [Option.map_some, hfixe r hfige]
  · rfl

theorem figeSous_foldl {α : Type*} {pas : Table cle → α → Table cle}
    (hpas : ∀ t a, FigeSous fige t (pas t a)) (t : Table cle) (appels : List α) :
    FigeSous fige t (appels.foldl pas t) := by
  induction appels generalizing t with
  | nil => exact FigeSous.refl t
  | cons a appels ih => exact (hpas t a).trans (ih (pas t a))

end Table

end Hermes.Lib
