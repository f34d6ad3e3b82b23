import Mathlib.Data.List.Chain
import Mathlib.Data.List.Nodup
import Mathlib.Data.List.Rotate

/-! # Elementary cycles by a bounded walk

A walk goes from vertex to vertex without coming back on itself, and notes its path each time an
edge leads back to its start.
-/

namespace Hermes.Lib.Boucles

section Cle

variable {γ β : Type*} [DecidableEq β] (cle : γ → β)

/-- What is kept, and the keys that have been seen. -/
def garder (t : List γ × List β) (x : γ) : List γ × List β :=
  if cle x ∈ t.2 then t else (t.1 ++ [x], t.2 ++ [cle x])

structure Tamis (l : List γ) (t : List γ × List β) : Prop where
  cles : t.2 = t.1.map cle
  nodup : t.2.Nodup
  issus : ∀ x ∈ t.1, x ∈ l
  couverts : ∀ x ∈ l, cle x ∈ t.2

variable {cle} {l : List γ} {t : List γ × List β}

theorem Tamis.garder (h : Tamis cle l t) (x : γ) : Tamis cle (l ++ [x]) (garder cle t x) := by
  unfold Boucles.garder
  split
  · next hvu =>
      refine ⟨h.cles, h.nodup, fun y hy => List.mem_append_left _ (h.issus y hy), ?_⟩
      intro y hy
      rcases List.mem_append.mp hy with hy | hy
      · exact h.couverts y hy
      · rw [List.mem_singleton.mp hy]
        exact hvu
  · next hvu =>
      refine ⟨?_, ?_, ?_, ?_⟩
      · rw [List.map_append, ← h.cles, List.map_singleton]
      · exact List.nodup_append.mpr ⟨h.nodup, List.nodup_singleton _, by
          intro a ha b hb hab
          rw [List.mem_singleton] at hb
          exact hvu (hb ▸ hab ▸ ha)⟩
      · intro y hy
        rcases List.mem_append.mp hy with hy | hy
        · exact List.mem_append_left _ (h.issus y hy)
        · exact List.mem_append_right _ hy
      · intro y hy
        rcases List.mem_append.mp hy with hy | hy
        · exact List.mem_append_left _ (h.couverts y hy)
        · rw [List.mem_singleton.mp hy]
          exact List.mem_append_right _ List.mem_cons_self

theorem tamis_foldl (cle : γ → β) (l : List γ) : Tamis cle l (l.foldl (garder cle) ([], [])) := by
  have hfold : ∀ (suite vue : List γ) (t : List γ × List β), Tamis cle vue t →
      Tamis cle (vue ++ suite) (suite.foldl (garder cle) t) := by
    intro suite
    induction suite with
    | nil =>
        intro vue t h
        rwa [List.append_nil]
    | cons x suite ih =>
        intro vue t h
        have hnext := ih (vue ++ [x]) _ (h.garder x)
        rwa [List.append_assoc, List.singleton_append] at hnext
  have hvide : Tamis cle ([] : List γ) ([], []) :=
    ⟨rfl, List.nodup_nil, by simp, by simp⟩
  exact hfold l [] _ hvide

omit [DecidableEq β] in
theorem Tamis.eq_of_cle (h : Tamis cle l t) {x y : γ} (hx : x ∈ t.1) (hy : y ∈ t.1)
    (hcle : cle x = cle y) : x = y :=
  List.inj_on_of_nodup_map (h.cles ▸ h.nodup) hx hy hcle

theorem Tamis.countP_eq_one_iff (h : Tamis cle l t) {r : γ → γ → Prop} [DecidableRel r]
    (hr : Equivalence r) (hcle : ∀ x y, r x y → cle x = cle y) :
    (∀ x ∈ l, t.1.countP (fun y => r y x) = 1) ↔ ∀ x ∈ l, ∀ y ∈ l, cle x = cle y → r x y := by
  constructor
  · intro hone x hx y hy hxy
    have hgarde : ∀ z ∈ l, ∃ w ∈ t.1, r w z := by
      intro z hz
      have hpos : 0 < t.1.countP fun w => r w z := by
        rw [hone z hz]
        exact Nat.one_pos
      obtain ⟨w, hw, hwz⟩ := List.countP_pos_iff.mp hpos
      exact ⟨w, hw, of_decide_eq_true hwz⟩
    obtain ⟨x', hx', hxr⟩ := hgarde x hx
    obtain ⟨y', hy', hyr⟩ := hgarde y hy
    have hsame : x' = y' :=
      h.eq_of_cle hx' hy' ((hcle _ _ hxr).trans (hxy.trans (hcle _ _ hyr).symm))
    exact hr.trans (hr.symm hxr) (hsame ▸ hyr)
  · intro hfine x hx
    have hiff : ∀ y ∈ t.1, r y x ↔ cle y = cle x := fun y hy =>
      ⟨hcle y x, hfine y (h.issus y hy) x hx⟩
    have hcount : t.1.countP (fun y => r y x) = t.2.count (cle x) := by
      rw [h.cles, List.count, List.countP_map]
      apply List.countP_congr
      intro y hy
      simpa using hiff y hy
    rw [hcount]
    exact List.count_eq_one_of_mem h.nodup (h.couverts x hx)

end Cle

variable {α : Type*} [DecidableEq α] (voisins : α → List α) (borne : Nat)

/-- A closed path of at least two distinct vertices, written without its return. -/
structure Elementaire (c : List α) : Prop where
  nodup : c.Nodup
  chaine : c.IsChain fun a b => b ∈ voisins a
  long : 2 ≤ c.length
  court : c.length ≤ borne
  ferme : ∀ x ∈ c.getLast?, ∀ y ∈ c.head?, y ∈ voisins x

def fermetures (depart : α) : Nat → α → List α → List (List α)
  | 0, _, _ => []
  | fuel + 1, courant, chemin =>
      (voisins courant).flatMap fun suivant =>
        if suivant = depart ∧ 2 ≤ chemin.length then [chemin]
        else if suivant ∉ chemin ∧ chemin.length < borne then
          fermetures depart fuel suivant (chemin ++ [suivant])
        else []

variable {voisins borne} {depart courant : α} {chemin c : List α} {fuel : Nat}

/-- A path under way: simple, along the edges, from the start to the current vertex. -/
structure EnChemin (voisins : α → List α) (borne : Nat) (depart courant : α) (chemin : List α) :
    Prop where
  nodup : chemin.Nodup
  chaine : chemin.IsChain fun a b => b ∈ voisins a
  court : chemin.length ≤ borne
  tete : chemin.head? = some depart
  fin : chemin.getLast? = some courant

omit [DecidableEq α] in
theorem EnChemin.seul (h : 1 ≤ borne) (v : α) : EnChemin voisins borne v v [v] :=
  ⟨List.nodup_singleton v, List.isChain_singleton v, h, rfl, rfl⟩

omit [DecidableEq α] in
theorem EnChemin.suite (h : EnChemin voisins borne depart courant chemin) {suivant : α}
    (harc : suivant ∈ voisins courant) (hneuf : suivant ∉ chemin) (hcourt : chemin.length < borne) :
    EnChemin voisins borne depart suivant (chemin ++ [suivant]) where
  nodup := List.nodup_append.mpr ⟨h.nodup, List.nodup_singleton _, by
    intro a ha b hb hab
    rw [List.mem_singleton] at hb
    exact hneuf (hb ▸ hab ▸ ha)⟩
  chaine := by
    refine h.chaine.append (List.isChain_singleton _) ?_
    intro x hx y hy
    rw [h.fin, Option.mem_some_iff] at hx
    rw [List.head?_singleton, Option.mem_some_iff] at hy
    rw [← hx, ← hy]
    exact harc
  court := by
    rw [List.length_append, List.length_singleton]
    exact hcourt
  tete := by
    cases chemin with
    | nil => cases h.tete
    | cons a chemin => exact h.tete
  fin := by simp

theorem mem_fermetures (h : EnChemin voisins borne depart courant chemin)
    (hfuel : borne < chemin.length + fuel) :
    c ∈ fermetures voisins borne depart fuel courant chemin ↔
      chemin <+: c ∧ Elementaire voisins borne c := by
  induction fuel generalizing courant chemin with
  | zero =>
      have hcourt := h.court
      omega
  | succ fuel ih =>
      simp only [fermetures, List.mem_flatMap]
      constructor
      · rintro ⟨suivant, harc, hc⟩
        split at hc
        · next hferme =>
            rw [List.mem_singleton.mp hc]
            refine ⟨List.prefix_refl _, h.nodup, h.chaine, hferme.2, h.court, ?_⟩
            intro x hx y hy
            rw [h.fin, Option.mem_some_iff] at hx
            rw [h.tete, Option.mem_some_iff] at hy
            rw [← hx, ← hy, ← hferme.1]
            exact harc
        · split at hc
          · next hsuite =>
              obtain ⟨hpre, helementaire⟩ := (ih (h.suite harc hsuite.1 hsuite.2) (by
                rw [List.length_append, List.length_singleton]
                omega)).mp hc
              exact ⟨(List.prefix_append _ _).trans hpre, helementaire⟩
          · cases hc
      · rintro ⟨⟨reste, rfl⟩, helementaire⟩
        have hdepart : depart ∈ chemin := List.mem_of_mem_head? h.tete
        cases reste with
        | nil =>
            rw [List.append_nil] at helementaire ⊢
            refine ⟨depart, helementaire.ferme courant h.fin depart h.tete, ?_⟩
            rw [if_pos ⟨rfl, helementaire.long⟩]
            exact List.mem_singleton_self _
        | cons suivant reste =>
            have hneuf : suivant ∉ chemin := by
              intro hmem
              exact (List.nodup_append.mp helementaire.nodup).2.2 suivant hmem suivant
                List.mem_cons_self rfl
            have hcourt : chemin.length < borne := by
              have hlength := helementaire.court
              rw [List.length_append, List.length_cons] at hlength
              omega
            have harc : suivant ∈ voisins courant :=
              (List.isChain_append.mp helementaire.chaine).2.2 courant h.fin suivant rfl
            have hautre : suivant ≠ depart := fun heq => hneuf (heq ▸ hdepart)
            refine ⟨suivant, harc, ?_⟩
            rw [if_neg fun hferme => hautre hferme.1, if_pos ⟨hneuf, hcourt⟩,
              ih (h.suite harc hneuf hcourt) (by
                rw [List.length_append, List.length_singleton]
                omega)]
            have hsame : chemin ++ suivant :: reste = chemin ++ [suivant] ++ reste := by simp
            exact ⟨⟨reste, hsame.symm⟩, helementaire⟩

def toutes (voisins : α → List α) (borne : Nat) (vertices : List α) : List (List α) :=
  vertices.flatMap fun v => fermetures voisins borne v borne v [v]

theorem mem_toutes {vertices : List α} (hborne : 1 ≤ borne)
    (hsources : ∀ v, voisins v ≠ [] → v ∈ vertices) :
    c ∈ toutes voisins borne vertices ↔ Elementaire voisins borne c := by
  simp only [toutes, List.mem_flatMap]
  have hfermetures : ∀ v, c ∈ fermetures voisins borne v borne v [v] ↔
      [v] <+: c ∧ Elementaire voisins borne c := fun v =>
    mem_fermetures (EnChemin.seul hborne v) (by
      rw [List.length_singleton]
      omega)
  simp only [hfermetures]
  constructor
  · rintro ⟨v, -, -, h⟩
    exact h
  · intro h
    have hlong := h.long
    match c, h with
    | [], _ => simp at hlong
    | [v], _ => simp at hlong
    | v :: w :: reste, h =>
        refine ⟨v, hsources v ?_, ⟨w :: reste, rfl⟩, h⟩
        have harc : w ∈ voisins v := (List.isChain_cons_cons.mp h.chaine).1
        exact List.ne_nil_of_mem harc

end Hermes.Lib.Boucles
