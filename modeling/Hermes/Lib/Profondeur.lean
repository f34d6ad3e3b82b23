import Mathlib.Data.List.Chain
import Mathlib.Data.List.Nodup
import Mathlib.Data.Finset.Dedup
import Mathlib.Logic.Function.Basic
import Mathlib.Logic.Relation

/-! # Depth-first search in three colours

A vertex is white, then grey while its search lasts, then black.
-/

namespace Hermes.Lib.Profondeur

inductive Couleur where
  | blanc
  | gris
  | noir
  deriving DecidableEq

structure Etat (α : Type*) where
  couleur : α → Option Couleur
  parent : α → Option α
  boucles : List (List α) := []

variable {α : Type*} [DecidableEq α]

namespace Etat

def peindre (e : Etat α) (x : α) (c : Couleur) : Etat α :=
  { e with couleur := Function.update e.couleur x (some c) }

def adopter (e : Etat α) (v u : α) : Etat α :=
  { e with parent := Function.update e.parent v (some u) }

def noter (e : Etat α) (boucle : List α) : Etat α := { e with boucles := e.boucles ++ [boucle] }

def depart (sommets : List α) : Etat α where
  couleur x := if x ∈ sommets then some .blanc else none
  parent _ := none

end Etat

variable (faux : α → Bool) (tours : Nat) (voisins : α → List α)

/-- `while p and p != v`: the vertices met. Nothing when the turns do not end the loop. -/
def remonter (parent : α → Option α) (v : α) : Nat → Option α → Option (List α)
  | _, none => some []
  | 0, some _ => none
  | n + 1, some p =>
      if faux p || p = v then some [] else (remonter parent v n (parent p)).map (p :: ·)

/-- The loop over the neighbours of `u`. -/
def explorer (visiter : α → Etat α → Option (Etat α)) (u : α) :
    List α → Etat α → Option (Etat α)
  | [], e => some e
  | v :: vs, e =>
      match e.couleur v with
      | some .gris =>
          (remonter faux e.parent v tours (e.parent u)).bind fun chemin =>
            explorer visiter u vs (e.noter (v :: u :: chemin))
      | some .blanc => (visiter v (e.adopter v u)).bind (explorer visiter u vs)
      | _ => explorer visiter u vs e

/-- The search from `u`. Nothing past the depth that the interpreter allows. -/
def dfs : Nat → α → Etat α → Option (Etat α)
  | 0, _, _ => none
  | limite + 1, u, e =>
      (explorer faux tours (dfs limite) u (voisins u) (e.peindre u .gris)).map fun e =>
        e.peindre u .noir

def toutParcourir (limite : Nat) : List α → Etat α → Option (Etat α)
  | [], e => some e
  | s :: sommets, e =>
      if e.couleur s = some .blanc then
        (dfs faux tours voisins limite s e).bind (toutParcourir limite sommets)
      else toutParcourir limite sommets e

section Chemins

variable (lien : α → α → Prop)

/-- A path of distinct vertices, from its end back to its start. -/
structure Piste (s : List α) : Prop where
  nodup : s.Nodup
  chaine : s.IsChain fun a b => lien b a

/-- Distinct vertices, each leading to the next one and the last to the first. -/
structure Cycle (c : List α) : Prop where
  nodup : c.Nodup
  chaine : c.IsChain lien
  ferme : ∃ x ∈ c.getLast?, ∃ y ∈ c.head?, lien x y

/-- The vertices of the list are those of a cycle. -/
def Reelle (l : List α) : Prop := ∃ c, Cycle lien c ∧ ∀ x, x ∈ l ↔ x ∈ c

def Acyclique : Prop := ∀ v, ¬ Relation.TransGen lien v v

/-- What is noted when the end `u` of a path leads back to `v`. -/
def releve (u : α) (pile : List α) (v : α) : List α :=
  v :: u :: pile.takeWhile fun p => !(faux p || p = v)

/-- The climb from `u` to `v` is not cut by a vertex that counts as nothing; when `u` leads to
itself there is nothing to climb. -/
def Franche (u : α) (pile : List α) (v : α) : Prop :=
  if v = u then ∀ p ∈ pile.head?, faux p = true
  else ∀ p ∈ pile.takeWhile (fun p => p ≠ v), faux p = false

def Releve (l : List α) : Prop :=
  ∃ u pile v, Piste lien (u :: pile) ∧ v ∈ u :: pile ∧ lien u v ∧ l = releve faux u pile v

end Chemins

abbrev Mene (voisins : α → List α) (a b : α) : Prop := b ∈ voisins a

/-- Black vertices, the last one first: each leads only to vertices that were black before it. -/
def Tri : List α → Prop
  | [] => True
  | x :: noirs => (∀ y ∈ voisins x, y ∈ noirs) ∧ Tri noirs

variable {faux tours voisins} {lien : α → α → Prop} {e e' : Etat α} {parent : α → Option α}
  {pile : List α} {u v : α}

/-- The parents of the vertices of a stack are read off it. -/
structure Filiation (parent : α → Option α) (pile : List α) : Prop where
  parents : pile.IsChain fun a b => parent a = some b
  racine : ∀ x ∈ pile.getLast?, parent x = none

omit [DecidableEq α] in
theorem Filiation.parent_head (h : Filiation parent (u :: pile)) :
    parent u = pile.head? := by
  cases pile with
  | nil => exact h.racine u rfl
  | cons p pile => exact (List.isChain_cons_cons.mp h.parents).1

omit [DecidableEq α] in
theorem Filiation.tail (h : Filiation parent (u :: pile)) : Filiation parent pile := by
  refine ⟨h.parents.tail, ?_⟩
  intro x hx
  cases pile with
  | nil => cases hx
  | cons p pile => exact h.racine x hx

theorem Filiation.remonter_eq (h : Filiation parent pile) {n : Nat} {l : List α}
    (hl : remonter faux parent v n pile.head? = some l) :
    l = pile.takeWhile fun p => !(faux p || p = v) := by
  induction pile generalizing n l with
  | nil =>
      cases n <;> exact (Option.some.inj hl).symm
  | cons p pile ih =>
      cases n with
      | zero => cases hl
      | succ n =>
          rw [List.head?_cons, remonter] at hl
          rw [List.takeWhile_cons]
          split_ifs at hl with harret
          · rw [if_neg (by rw [harret]; decide)]
            exact (Option.some.inj hl).symm
          · rw [if_pos (by rw [Bool.not_eq_true] at harret; rw [harret]; rfl)]
            obtain ⟨l', hl', rfl⟩ := Option.map_eq_some_iff.mp hl
            rw [h.parent_head] at hl'
            rw [ih h.tail hl']

theorem Filiation.remonter_isSome (h : Filiation parent pile) {n : Nat} (hn : pile.length ≤ n) :
    remonter faux parent v n pile.head? ≠ none := by
  induction pile generalizing n with
  | nil => cases n <;> exact Option.some_ne_none _
  | cons p pile ih =>
      cases n with
      | zero => cases hn
      | succ n =>
          rw [List.head?_cons, remonter]
          split_ifs
          · exact Option.some_ne_none _
          · rw [h.parent_head]
            simpa using ih h.tail (Nat.le_of_succ_le_succ hn)

/-- What holds of a state whose stack is `pile`. -/
structure Inv (faux : α → Bool) (voisins : α → List α) (e : Etat α) (pile : List α) : Prop where
  gris : ∀ x, e.couleur x = some .gris ↔ x ∈ pile
  piste : Piste (Mene voisins) pile
  filiation : Filiation e.parent pile
  orphelins : ∀ x, e.couleur x = some .blanc → e.parent x = none
  connus : ∀ x, ∀ y ∈ voisins x, e.couleur y ≠ none
  releves : ∀ l ∈ e.boucles, Releve faux (Mene voisins) l
  tri : e.boucles = [] → ∃ noirs, (∀ x, e.couleur x = some .noir ↔ x ∈ noirs) ∧ Tri voisins noirs

/-- What a search keeps: the vertices that had a colour, those that were black, and what was
noted. -/
structure Apres (e e' : Etat α) : Prop where
  connu : ∀ x, e.couleur x ≠ none → e'.couleur x ≠ none
  noir : ∀ x, e.couleur x = some .noir → e'.couleur x = some .noir
  boucles : e.boucles <+: e'.boucles

omit [DecidableEq α] in
theorem Apres.refl (e : Etat α) : Apres e e := ⟨fun _ h => h, fun _ h => h, List.prefix_refl _⟩

omit [DecidableEq α] in
theorem Apres.trans {e'' : Etat α} (h : Apres e e') (h' : Apres e' e'') : Apres e e'' :=
  ⟨fun x hx => h'.connu x (h.connu x hx), fun x hx => h'.noir x (h.noir x hx),
    h.boucles.trans h'.boucles⟩

omit [DecidableEq α] in
theorem Apres.eq_nil (h : Apres e e') (hvide : e'.boucles = []) : e.boucles = [] :=
  List.prefix_nil.mp (hvide ▸ h.boucles)

theorem Etat.peindre_connu (e : Etat α) (u : α) (c : Couleur) {x : α} (hx : e.couleur x ≠ none) :
    (e.peindre u c).couleur x ≠ none := by
  change Function.update e.couleur u (some c) x ≠ none
  by_cases hxu : x = u
  · rw [hxu, Function.update_self]
    exact Option.some_ne_none _
  · rwa [Function.update_of_ne hxu]

theorem Apres.peindre_gris (hu : e.couleur u = some .blanc) : Apres e (e.peindre u .gris) := by
  refine ⟨fun _ => Etat.peindre_connu e u .gris, ?_, List.prefix_refl _⟩
  intro x hx
  change Function.update e.couleur u (some .gris) x = some .noir
  rw [Function.update_of_ne (by rintro rfl; rw [hu] at hx; cases hx), hx]

theorem Apres.peindre_noir (e : Etat α) (u : α) : Apres e (e.peindre u .noir) := by
  refine ⟨fun _ => Etat.peindre_connu e u .noir, ?_, List.prefix_refl _⟩
  intro x hx
  change Function.update e.couleur u (some .noir) x = some .noir
  by_cases hxu : x = u
  · rw [hxu, Function.update_self]
  · rw [Function.update_of_ne hxu, hx]

theorem explorer_apres {visiter : α → Etat α → Option (Etat α)}
    (hvisiter : ∀ {v e e'}, e.couleur v = some .blanc → visiter v e = some e' → Apres e e')
    {vs : List α} (h : explorer faux tours visiter u vs e = some e') : Apres e e' := by
  induction vs generalizing e with
  | nil =>
      cases h
      exact .refl _
  | cons v vs ih =>
      rw [explorer] at h
      split at h
      · obtain ⟨chemin, _, h⟩ := Option.bind_eq_some_iff.mp h
        have hnote : Apres e (e.noter (v :: u :: chemin)) :=
          ⟨fun _ hx => hx, fun _ hx => hx, List.prefix_append ..⟩
        exact hnote.trans (ih h)
      · next hblanc =>
        obtain ⟨f, hf, h⟩ := Option.bind_eq_some_iff.mp h
        have hvisite : Apres (e.adopter v u) f := hvisiter hblanc hf
        exact Apres.trans ⟨hvisite.connu, hvisite.noir, hvisite.boucles⟩ (ih h)
      · exact ih h

theorem dfs_apres {limite : Nat} (hu : e.couleur u = some .blanc)
    (h : dfs faux tours voisins limite u e = some e') : Apres e e' := by
  induction limite generalizing e e' u with
  | zero => cases h
  | succ limite ih =>
      obtain ⟨f, hf, rfl⟩ := Option.map_eq_some_iff.mp h
      exact (Apres.peindre_gris hu).trans
        ((explorer_apres (fun hblanc hvisite => ih hblanc hvisite) hf).trans (.peindre_noir f u))

theorem toutParcourir_apres {limite : Nat} {sommets : List α}
    (h : toutParcourir faux tours voisins limite sommets e = some e') : Apres e e' := by
  induction sommets generalizing e with
  | nil =>
      cases h
      exact .refl _
  | cons s sommets ih =>
      rw [toutParcourir] at h
      split_ifs at h with hs
      · obtain ⟨f, hf, h⟩ := Option.bind_eq_some_iff.mp h
        exact (dfs_apres hs hf).trans (ih h)
      · exact ih h

/-- The vertex `u` is about to be searched, from the top of the stack. -/
structure Pret (faux : α → Bool) (voisins : α → List α) (e : Etat α) (u : α) (pile : List α) :
    Prop where
  blanc : e.couleur u = some .blanc
  gris : ∀ x, e.couleur x = some .gris ↔ x ∈ pile
  piste : Piste (Mene voisins) (u :: pile)
  filiation : Filiation e.parent (u :: pile)
  orphelins : ∀ x, x ≠ u → e.couleur x = some .blanc → e.parent x = none
  connus : ∀ x, ∀ y ∈ voisins x, e.couleur y ≠ none
  releves : ∀ l ∈ e.boucles, Releve faux (Mene voisins) l
  tri : e.boucles = [] → ∃ noirs, (∀ x, e.couleur x = some .noir ↔ x ∈ noirs) ∧ Tri voisins noirs

theorem Inv.adopter (h : Inv faux voisins e (u :: pile)) (hv : v ∈ voisins u)
    (hblanc : e.couleur v = some .blanc) : Pret faux voisins (e.adopter v u) v (u :: pile) where
  blanc := hblanc
  gris := h.gris
  piste := by
    refine ⟨List.nodup_cons.mpr ⟨?_, h.piste.nodup⟩, List.isChain_cons_cons.mpr ⟨hv, h.piste.chaine⟩⟩
    intro hmem
    rw [(h.gris v).mpr hmem] at hblanc
    cases hblanc
  filiation := by
    have hneuf : ∀ x ∈ u :: pile, (e.adopter v u).parent x = e.parent x := by
      intro x hx
      apply Function.update_of_ne
      rintro rfl
      rw [(h.gris x).mpr hx] at hblanc
      cases hblanc
    refine ⟨List.isChain_cons_cons.mpr ⟨Function.update_self .., ?_⟩, ?_⟩
    · refine h.filiation.parents.imp_of_mem_imp ?_
      intro a b ha _ hab
      rw [hneuf a ha, hab]
    · intro x hx
      rw [List.getLast?_cons_cons] at hx
      rw [hneuf x (List.mem_of_getLast? hx)]
      exact h.filiation.racine x hx
  orphelins := by
    intro x hx hblanc
    change Function.update e.parent v (some u) x = none
    rw [Function.update_of_ne hx]
    exact h.orphelins x hblanc
  connus := h.connus
  releves := h.releves
  tri := h.tri

theorem Pret.entrer (h : Pret faux voisins e u pile) :
    Inv faux voisins (e.peindre u .gris) (u :: pile) where
  gris := by
    intro x
    change Function.update e.couleur u (some .gris) x = some .gris ↔ x ∈ u :: pile
    by_cases hx : x = u
    · rw [hx, Function.update_self]
      exact ⟨fun _ => List.mem_cons_self, fun _ => rfl⟩
    · rw [Function.update_of_ne hx, h.gris, List.mem_cons]
      exact ⟨Or.inr, fun hmem => hmem.resolve_left hx⟩
  piste := h.piste
  filiation := h.filiation
  orphelins := by
    intro x hblanc
    change Function.update e.couleur u (some .gris) x = some .blanc at hblanc
    by_cases hx : x = u
    · rw [hx, Function.update_self] at hblanc
      cases hblanc
    · rw [Function.update_of_ne hx] at hblanc
      exact h.orphelins x hx hblanc
  connus := fun x y hy => Etat.peindre_connu e u .gris (h.connus x y hy)
  releves := h.releves
  tri := by
    intro hvide
    obtain ⟨noirs, hnoirs, htri⟩ := h.tri hvide
    refine ⟨noirs, ?_, htri⟩
    intro x
    change Function.update e.couleur u (some .gris) x = some .noir ↔ x ∈ noirs
    rw [← hnoirs]
    by_cases hx : x = u
    · rw [hx, Function.update_self, h.blanc]
      decide
    · rw [Function.update_of_ne hx]

theorem Inv.sortir (h : Inv faux voisins e (u :: pile))
    (hvoisins : e.boucles = [] → ∀ y ∈ voisins u, e.couleur y = some .noir) :
    Inv faux voisins (e.peindre u .noir) pile where
  gris := by
    intro x
    change Function.update e.couleur u (some .noir) x = some .gris ↔ x ∈ pile
    by_cases hx : x = u
    · rw [hx, Function.update_self]
      exact ⟨nofun, fun hmem => absurd hmem (List.nodup_cons.mp h.piste.nodup).1⟩
    · rw [Function.update_of_ne hx, h.gris, List.mem_cons]
      exact ⟨fun hmem => hmem.resolve_left hx, Or.inr⟩
  piste := ⟨h.piste.nodup.tail, h.piste.chaine.tail⟩
  filiation := h.filiation.tail
  orphelins := by
    intro x hblanc
    change Function.update e.couleur u (some .noir) x = some .blanc at hblanc
    by_cases hx : x = u
    · rw [hx, Function.update_self] at hblanc
      cases hblanc
    · rw [Function.update_of_ne hx] at hblanc
      exact h.orphelins x hblanc
  connus := fun x y hy => Etat.peindre_connu e u .noir (h.connus x y hy)
  releves := h.releves
  tri := by
    intro hvide
    obtain ⟨noirs, hnoirs, htri⟩ := h.tri hvide
    refine ⟨u :: noirs, ?_, fun y hy => (hnoirs y).mp (hvoisins hvide y hy), htri⟩
    intro x
    change Function.update e.couleur u (some .noir) x = some .noir ↔ x ∈ u :: noirs
    by_cases hx : x = u
    · rw [hx, Function.update_self]
      exact ⟨fun _ => List.mem_cons_self, fun _ => rfl⟩
    · rw [Function.update_of_ne hx, hnoirs, List.mem_cons]
      exact ⟨Or.inr, fun hmem => hmem.resolve_left hx⟩

theorem Inv.noter (h : Inv faux voisins e (u :: pile)) (hv : v ∈ voisins u)
    (hgris : v ∈ u :: pile) :
    Inv faux voisins (e.noter (releve faux u pile v)) (u :: pile) where
  gris := h.gris
  piste := h.piste
  filiation := h.filiation
  orphelins := h.orphelins
  connus := h.connus
  releves := by
    intro l hl
    rcases List.mem_append.mp hl with hl | hl
    · exact h.releves l hl
    · exact ⟨u, pile, v, h.piste, hgris, hv, List.mem_singleton.mp hl⟩
  tri hvide := absurd hvide (List.append_ne_nil_of_right_ne_nil _ (List.cons_ne_nil _ _))

def Issue (faux : α → Bool) (voisins : α → List α) (plafond : Nat) (pile : List α)
    (fini : Etat α → Prop) : Option (Etat α) → Prop
  | some e => Inv faux voisins e pile ∧ fini e
  | none => ∃ s, Piste (Mene voisins) s ∧ plafond < s.length

theorem explorer_issue {plafond : Nat} {visiter : α → Etat α → Option (Etat α)}
    (htours : pile.length ≤ tours)
    (hvisiter : ∀ {v e}, Pret faux voisins e v (u :: pile) →
      Issue faux voisins plafond (u :: pile) (fun e' => e'.couleur v = some .noir)
        (visiter v e))
    (hapres : ∀ {v e e'}, e.couleur v = some .blanc → visiter v e = some e' → Apres e e')
    {vs faits : List α} (hvs : ∀ v ∈ vs, v ∈ voisins u) (h : Inv faux voisins e (u :: pile))
    (hfaits : e.boucles = [] → ∀ y ∈ faits, e.couleur y = some .noir) :
    Issue faux voisins plafond (u :: pile)
      (fun e' => e'.boucles = [] → ∀ y ∈ faits ++ vs, e'.couleur y = some .noir)
      (explorer faux tours visiter u vs e) := by
  induction vs generalizing e faits with
  | nil => exact ⟨h, by rwa [List.append_nil]⟩
  | cons v vs ih =>
      obtain ⟨hv, hvs⟩ := List.forall_mem_cons.mp hvs
      have hsuite : faits ++ v :: vs = (faits ++ [v]) ++ vs := by simp
      rw [hsuite, explorer]
      split
      · -- a grey neighbour closes a cycle
        next hgris =>
        have hmem := (h.gris v).mp hgris
        have hparent := h.filiation.parent_head
        rcases hchemin : remonter faux e.parent v tours (e.parent u) with _ | chemin
        · rw [hparent] at hchemin
          exact absurd hchemin (h.filiation.tail.remonter_isSome htours)
        · rw [hparent] at hchemin
          rw [Option.bind_some, h.filiation.tail.remonter_eq hchemin]
          apply ih hvs (h.noter hv hmem)
          intro hvide
          exact absurd hvide (List.append_ne_nil_of_right_ne_nil _ (List.cons_ne_nil _ _))
      · -- a white neighbour is searched
        next hblanc =>
        have hpret := h.adopter hv hblanc
        have hissue := hvisiter hpret
        rcases hf : visiter v (e.adopter v u) with _ | f
        · rw [hf] at hissue
          exact hissue
        · rw [hf] at hissue
          have hap := hapres hpret.blanc hf
          apply ih hvs hissue.1
          intro hvide y hy
          rcases List.mem_append.mp hy with hy | hy
          · exact hap.noir y (hfaits (hap.eq_nil hvide) y hy)
          · rw [List.mem_singleton.mp hy]
            exact hissue.2
      · next hgris hblanc =>
        apply ih hvs h
        intro hvide y hy
        rcases List.mem_append.mp hy with hy | hy
        · exact hfaits hvide y hy
        · rw [List.mem_singleton.mp hy]
          have hconnu := h.connus u v hv
          rcases hcouleur : e.couleur v with _ | c
          · exact absurd hcouleur hconnu
          · cases c with
            | blanc => exact absurd hcouleur hblanc
            | gris => exact absurd hcouleur hgris
            | noir => rfl

theorem dfs_issue {plafond limite : Nat} (htours : plafond ≤ tours)
    (hlimite : limite + pile.length = plafond) (h : Pret faux voisins e u pile) :
    Issue faux voisins plafond pile (fun e' => e'.couleur u = some .noir)
      (dfs faux tours voisins limite u e) := by
  induction limite generalizing e u pile with
  | zero => exact ⟨u :: pile, h.piste, by rw [List.length_cons]; omega⟩
  | succ limite ih =>
      have hissue := @explorer_issue _ _ faux tours voisins (e.peindre u .gris) pile u plafond
        (dfs faux tours voisins limite) (by omega)
        (fun hpret => ih (by rw [List.length_cons]; omega) hpret)
        (fun hblanc hvisite => dfs_apres hblanc hvisite)
        (voisins u) [] (fun _ hv => hv) h.entrer nofun
      rw [dfs]
      rcases hf : explorer faux tours (dfs faux tours voisins limite) u (voisins u)
        (e.peindre u .gris) with _ | f
      · rw [hf] at hissue
        exact hissue
      · rw [hf] at hissue
        exact ⟨hissue.1.sortir hissue.2, Function.update_self ..⟩

theorem Inv.pret (h : Inv faux voisins e []) (hu : e.couleur u = some .blanc) :
    Pret faux voisins e u [] where
  blanc := hu
  gris := h.gris
  piste := ⟨List.nodup_singleton u, .singleton u⟩
  filiation := by
    refine ⟨.singleton u, ?_⟩
    intro x hx
    rw [List.getLast?_singleton, Option.mem_some_iff] at hx
    rw [← hx, h.orphelins u hu]
  orphelins x _ := h.orphelins x
  connus := h.connus
  releves := h.releves
  tri := h.tri

theorem toutParcourir_issue {limite : Nat} (htours : limite ≤ tours) {sommets faits : List α}
    (h : Inv faux voisins e []) (hsommets : ∀ s ∈ sommets, e.couleur s ≠ none)
    (hfaits : ∀ s ∈ faits, e.couleur s = some .noir) :
    Issue faux voisins limite [] (fun e' => ∀ s ∈ faits ++ sommets, e'.couleur s = some .noir)
      (toutParcourir faux tours voisins limite sommets e) := by
  induction sommets generalizing e faits with
  | nil => exact ⟨h, by rwa [List.append_nil]⟩
  | cons s sommets ih =>
      obtain ⟨hs, hreste⟩ := List.forall_mem_cons.mp hsommets
      have hsuite : faits ++ s :: sommets = (faits ++ [s]) ++ sommets := by simp
      rw [hsuite, toutParcourir]
      split_ifs with hblanc
      · have hissue := @dfs_issue _ _ faux tours voisins e [] s limite limite htours
          (Nat.add_zero limite) (h.pret hblanc)
        rcases hf : dfs faux tours voisins limite s e with _ | f
        · rw [hf] at hissue
          exact hissue
        · rw [hf] at hissue
          have hap := dfs_apres hblanc hf
          apply ih hissue.1 (fun x hx => hap.connu x (hreste x hx))
          intro x hx
          rcases List.mem_append.mp hx with hx | hx
          · exact hap.noir x (hfaits x hx)
          · rw [List.mem_singleton.mp hx]
            exact hissue.2
      · apply ih h hreste
        intro x hx
        rcases List.mem_append.mp hx with hx | hx
        · exact hfaits x hx
        · rw [List.mem_singleton.mp hx]
          have hgris := h.gris s
          rcases hcouleur : e.couleur s with _ | c
          · exact absurd hcouleur hs
          · cases c with
            | blanc => exact absurd hcouleur hblanc
            | gris => exact absurd (hgris.mp hcouleur) List.not_mem_nil
            | noir => rfl

theorem inv_depart {sommets : List α} (hclos : ∀ x, ∀ y ∈ voisins x, y ∈ sommets) :
    Inv faux voisins (Etat.depart sommets) [] where
  gris := by
    intro x
    change (if x ∈ sommets then some Couleur.blanc else none) = some .gris ↔ x ∈ []
    split_ifs
    · exact ⟨nofun, nofun⟩
    · exact ⟨nofun, nofun⟩
  piste := ⟨List.nodup_nil, .nil⟩
  filiation := ⟨.nil, nofun⟩
  orphelins _ _ := rfl
  connus := by
    intro x y hy
    change (if y ∈ sommets then some Couleur.blanc else none) ≠ none
    rw [if_pos (hclos x y hy)]
    exact Option.some_ne_none _
  releves := nofun
  tri := by
    intro _
    refine ⟨[], ?_, trivial⟩
    intro x
    change (if x ∈ sommets then some Couleur.blanc else none) = some .noir ↔ x ∈ []
    split_ifs
    · exact ⟨nofun, nofun⟩
    · exact ⟨nofun, nofun⟩

omit [DecidableEq α] in
theorem Tri.acyclique {noirs : List α} (h : Tri voisins noirs) (hv : v ∈ noirs) :
    ¬ Relation.TransGen (Mene voisins) v v ∧
      ∀ w, Relation.TransGen (Mene voisins) v w → w ∈ noirs := by
  induction noirs generalizing v with
  | nil => cases hv
  | cons x noirs ih =>
      have htete : ∀ w, Relation.TransGen (Mene voisins) x w → w ∈ noirs := by
        intro w hw
        obtain ⟨y, hy, hw⟩ := Relation.TransGen.head'_iff.mp hw
        rcases Relation.reflTransGen_iff_eq_or_transGen.mp hw with rfl | hw
        · exact h.1 w hy
        · exact (ih h.2 (h.1 y hy)).2 w hw
      by_cases hnoirs : v ∈ noirs
      · obtain ⟨hboucle, hsuite⟩ := ih h.2 hnoirs
        exact ⟨hboucle, fun w hw => List.mem_cons_of_mem x (hsuite w hw)⟩
      · obtain rfl := (List.mem_cons.mp hv).resolve_right hnoirs
        exact ⟨fun hboucle => hnoirs (htete v hboucle),
          fun w hw => List.mem_cons_of_mem v (htete w hw)⟩

omit [DecidableEq α] in
theorem Piste.reflTransGen (h : Piste lien (u :: pile)) (hv : v ∈ u :: pile) :
    Relation.ReflTransGen lien v u := by
  induction pile generalizing u with
  | nil => rw [List.mem_singleton.mp hv]
  | cons p pile ih =>
      obtain ⟨hpas, hchaine⟩ := List.isChain_cons_cons.mp h.chaine
      rcases List.mem_cons.mp hv with rfl | hv
      · exact .refl
      · exact .tail (ih ⟨h.nodup.tail, hchaine⟩ hv) hpas

theorem Releve.not_acyclique {l : List α} (h : Releve faux lien l) : ¬ Acyclique lien := by
  obtain ⟨u, pile, v, hpiste, hv, hretour, _⟩ := h
  exact fun hacyclique => hacyclique u (.head' hretour (hpiste.reflTransGen hv))

omit [DecidableEq α] in
theorem Piste.mem_bouts {s sommets : List α} {x y : α} (h : Piste lien (x :: y :: s))
    (hbouts : ∀ a b, lien a b → a ∈ sommets ∧ b ∈ sommets) : ∀ z ∈ x :: y :: s, z ∈ sommets := by
  obtain ⟨hpas, hchaine⟩ := List.isChain_cons_cons.mp h.chaine
  refine List.forall_mem_cons.mpr ⟨(hbouts y x hpas).2, ?_⟩
  cases s with
  | nil =>
      intro z hz
      rw [List.mem_singleton.mp hz]
      exact (hbouts y x hpas).1
  | cons z s => exact Piste.mem_bouts ⟨h.nodup.tail, hchaine⟩ hbouts

theorem toutParcourir_spec {limite : Nat} (htours : limite ≤ tours) {sommets : List α}
    (hbouts : ∀ x, ∀ y ∈ voisins x, x ∈ sommets ∧ y ∈ sommets) :
    match toutParcourir faux tours voisins limite sommets (Etat.depart sommets) with
    | some e =>
        (e.boucles = [] ↔ Acyclique (Mene voisins)) ∧
          ∀ l ∈ e.boucles, Releve faux (Mene voisins) l
    | none => ∃ s, Piste (Mene voisins) s ∧ (∀ x ∈ s, x ∈ sommets) ∧ limite < s.length := by
  have hclos : ∀ x, ∀ y ∈ voisins x, y ∈ sommets := fun x y hy => (hbouts x y hy).2
  have hissue := @toutParcourir_issue _ _ faux tours voisins (Etat.depart sommets) limite htours
    sommets [] (inv_depart hclos) (by
      intro s hs
      change (if s ∈ sommets then some Couleur.blanc else none) ≠ none
      rw [if_pos hs]
      exact Option.some_ne_none _) nofun
  rcases hfin : toutParcourir faux tours voisins limite sommets (Etat.depart sommets) with _ | e
  · rw [hfin] at hissue
    obtain ⟨s, hpiste, hlong⟩ := hissue
    cases sommets with
    | nil => cases hfin
    | cons a sommets =>
        rcases s with _ | ⟨x, _ | ⟨y, s⟩⟩
        · cases hlong
        · have ha : ∀ z ∈ [a], z ∈ a :: sommets := by
            intro z hz
            rw [List.mem_singleton.mp hz]
            exact List.mem_cons_self
          exact ⟨[a], ⟨List.nodup_singleton a, .singleton a⟩, ha, hlong⟩
        · exact ⟨x :: y :: s, hpiste, hpiste.mem_bouts hbouts, hlong⟩
  · rw [hfin] at hissue
    obtain ⟨hinv, hnoir⟩ := hissue
    refine ⟨⟨?_, ?_⟩, hinv.releves⟩
    · intro hvide v hboucle
      obtain ⟨noirs, hnoirs, htri⟩ := hinv.tri hvide
      obtain ⟨x, _, hx⟩ := Relation.TransGen.tail'_iff.mp hboucle
      exact (htri.acyclique ((hnoirs v).mp (hnoir v (hclos x v hx)))).1 hboucle
    · intro hacyclique
      rw [List.eq_nil_iff_forall_not_mem]
      exact fun l hl => (hinv.releves l hl).not_acyclique hacyclique

theorem takeWhile_franche (h : ∀ p ∈ pile.takeWhile (fun p => p ≠ v), faux p = false) :
    pile.takeWhile (fun p => !(faux p || p = v)) = pile.takeWhile fun p => p ≠ v := by
  induction pile with
  | nil => rfl
  | cons p pile ih =>
      by_cases hp : p = v
      · simp [hp]
      · have htete : (p :: pile).takeWhile (fun p => p ≠ v) = p :: pile.takeWhile fun p => p ≠ v :=
          List.takeWhile_cons_of_pos (by simpa using hp)
        rw [htete] at h ⊢
        obtain ⟨hfaux, h⟩ := List.forall_mem_cons.mp h
        rw [List.takeWhile_cons_of_pos (by simp [hfaux, hp]), ih h]

theorem Franche.reelle (h : Franche faux u pile v) (hpiste : Piste lien (u :: pile))
    (hretour : lien u v) (hv : v ∈ u :: pile) : Reelle lien (releve faux u pile v) := by
  unfold Franche at h
  split_ifs at h with hvu
  · have hvide : pile.takeWhile (fun p => !(faux p || p = v)) = [] := by
      cases pile with
      | nil => rfl
      | cons p pile => rw [List.takeWhile_cons_of_neg (by simp [h p rfl])]
    refine ⟨[u], ⟨List.nodup_singleton u, .singleton u, u, rfl, u, rfl, hvu ▸ hretour⟩, ?_⟩
    intro x
    rw [releve, hvide, hvu, List.mem_cons, List.mem_singleton, or_self]
  · obtain ⟨devant, derriere, rfl⟩ :=
      List.append_of_mem ((List.mem_cons.mp hv).resolve_left hvu)
    have hnodup := hpiste.nodup
    have hdevant : v ∉ devant := by
      intro hmem
      exact (List.nodup_append.mp hnodup.tail).2.2 v hmem v List.mem_cons_self rfl
    have htour : (u :: devant ++ [v]) <:+: (u :: (devant ++ v :: derriere)) :=
      ⟨[], derriere, by simp⟩
    have hcoupe : (devant ++ v :: derriere).takeWhile (fun p => p ≠ v) = devant := by
      rw [List.takeWhile_append_of_pos (by
        intro p hp
        exact decide_eq_true (ne_of_mem_of_not_mem hp hdevant)), List.takeWhile_cons_of_neg (by simp),
        List.append_nil]
    refine ⟨(u :: devant ++ [v]).reverse, ⟨?_, ?_, ?_⟩, ?_⟩
    · exact List.nodup_reverse.mpr (hnodup.sublist htour.sublist)
    · rw [List.isChain_reverse]
      exact hpiste.chaine.infix htour
    · refine ⟨u, ?_, v, ?_, hretour⟩
      · rw [List.getLast?_reverse]
        rfl
      · rw [List.head?_reverse, List.getLast?_concat]
        rfl
    · intro x
      rw [releve, takeWhile_franche h, hcoupe, List.mem_reverse, List.cons_append, List.mem_cons, List.mem_cons,
        List.mem_cons, List.mem_append, List.mem_singleton]
      tauto

/-- The neighbours of each vertex begin with the one above it. -/
def Guidee (voisins : α → List α) (s : List α) : Prop :=
  s.IsChain fun b a => (voisins a).head? = some b

theorem dfs_guidee {limite : Nat} {suite : List α} (h : Pret faux voisins e u pile)
    (hnodup : (suite.reverse ++ u :: pile).Nodup)
    (hguidee : Guidee voisins (suite.reverse ++ u :: pile))
    (hblancs : ∀ x ∈ suite, e.couleur x = some .blanc)
    (hdfs : dfs faux tours voisins limite u e = some e') :
    suite.length < limite ∧ ∀ t reste v, suite.reverse ++ u :: pile = t :: reste →
      (voisins t).head? = some v → v ∈ t :: reste → releve faux t reste v ∈ e'.boucles := by
  induction limite generalizing e e' u pile suite with
  | zero => cases hdfs
  | succ limite ih =>
      obtain ⟨f, hf, rfl⟩ := Option.map_eq_some_iff.mp hdfs
      have hapres : ∀ {v : α} {e e' : Etat α}, e.couleur v = some .blanc →
          dfs faux tours voisins limite v e = some e' → Apres e e' :=
        fun hblanc hvisite => dfs_apres hblanc hvisite
      cases suite with
      | nil =>
          refine ⟨Nat.succ_pos limite, ?_⟩
          intro t reste v hbout htete hretour
          obtain ⟨rfl, rfl⟩ := List.cons.inj hbout
          obtain ⟨vs, hvs⟩ : ∃ vs, voisins u = v :: vs := List.head?_eq_some_iff.mp htete
          have hgris := (h.entrer.gris v).mpr hretour
          rw [hvs, explorer] at hf
          simp only [hgris] at hf
          obtain ⟨chemin, hchemin, hf⟩ := Option.bind_eq_some_iff.mp hf
          rw [h.entrer.filiation.parent_head] at hchemin
          rw [h.entrer.filiation.tail.remonter_eq hchemin] at hf
          exact (explorer_apres hapres hf).boucles.subset
            (List.mem_append_right _ List.mem_cons_self)
      | cons w suite =>
          have hsuite : (w :: suite).reverse ++ u :: pile = suite.reverse ++ w :: u :: pile := by
            simp
          have hdistincts : ∀ x ∈ w :: suite, x ≠ u := fun x hx =>
            (List.nodup_append.mp hnodup).2.2 x (List.mem_reverse.mpr hx) u List.mem_cons_self
          rw [hsuite] at hnodup hguidee
          obtain ⟨hw, hblancs⟩ := List.forall_mem_cons.mp hblancs
          have htete : (voisins u).head? = some w :=
            (List.isChain_cons_cons.mp hguidee.right_of_append).1
          obtain ⟨vs, hvs⟩ := List.head?_eq_some_iff.mp htete
          have hpeint : ∀ x ∈ w :: suite,
              (e.peindre u .gris).couleur x = e.couleur x :=
            fun x hx => Function.update_of_ne (hdistincts x hx) ..
          have hblanc : (e.peindre u .gris).couleur w = some .blanc := by
            rw [hpeint w List.mem_cons_self, hw]
          rw [hvs, explorer] at hf
          simp only [hblanc] at hf
          obtain ⟨g, hg, hf⟩ := Option.bind_eq_some_iff.mp hf
          have hmem : w ∈ voisins u := by
            rw [hvs]
            exact List.mem_cons_self
          obtain ⟨hlimite, hnote⟩ := ih (h.entrer.adopter hmem hblanc) hnodup hguidee (by
            intro x hx
            rw [← hblancs x hx, ← hpeint x (List.mem_cons_of_mem w hx)]
            rfl) hg
          refine ⟨Nat.succ_lt_succ hlimite, ?_⟩
          intro t reste v hbout htete hretour
          rw [hsuite] at hbout
          exact (explorer_apres hapres hf).boucles.subset (hnote t reste v hbout htete hretour)

omit [DecidableEq α] in
theorem Piste.exists_lien {l : List α} (h : Piste lien (l ++ [u])) {x : α} (hx : x ∈ l) :
    ∃ y, lien y x := by
  obtain ⟨devant, derriere, rfl⟩ := List.append_of_mem hx
  have hchaine := h.chaine
  rw [List.append_assoc, List.cons_append] at hchaine
  have hfin := hchaine.right_of_append
  cases derriere with
  | nil => exact ⟨u, (List.isChain_cons_cons.mp hfin).1⟩
  | cons y derriere => exact ⟨y, (List.isChain_cons_cons.mp hfin).1⟩

theorem toutParcourir_guidee {limite : Nat} {sommets suite : List α}
    (hclos : ∀ x, ∀ y ∈ voisins x, y ∈ u :: sommets) (hpiste : Piste (Mene voisins) (suite.reverse ++ [u]))
    (hguidee : Guidee voisins (suite.reverse ++ [u]))
    (hfin : toutParcourir faux tours voisins limite (u :: sommets) (Etat.depart (u :: sommets)) =
      some e') :
    suite.length < limite ∧ ∀ t reste v, suite.reverse ++ [u] = t :: reste →
      (voisins t).head? = some v → v ∈ t :: reste → releve faux t reste v ∈ e'.boucles := by
  have hblanc : ∀ x ∈ u :: sommets, (Etat.depart (u :: sommets)).couleur x = some .blanc :=
    fun x hx => if_pos hx
  have hsuite : ∀ x ∈ suite, x ∈ u :: sommets := by
    intro x hx
    obtain ⟨y, hy⟩ := hpiste.exists_lien (List.mem_reverse.mpr hx)
    exact hclos y x hy
  rw [toutParcourir, if_pos (hblanc u List.mem_cons_self)] at hfin
  obtain ⟨f, hf, hreste⟩ := Option.bind_eq_some_iff.mp hfin
  have hinv : Inv faux voisins (Etat.depart (u :: sommets)) [] := inv_depart hclos
  have hpret := hinv.pret (hblanc u List.mem_cons_self)
  obtain ⟨hlimite, hnote⟩ := dfs_guidee hpret hpiste.nodup hguidee
    (fun x hx => hblanc x (hsuite x hx)) hf
  refine ⟨hlimite, ?_⟩
  intro t reste v hbout htete hretour
  exact (toutParcourir_apres hreste).boucles.subset (hnote t reste v hbout htete hretour)

theorem exists_guidee {voisines : α → Finset α} {s : List α} {v : α} (hnodup : s.Nodup)
    (hs : (v :: s).IsChain fun b a => b ∈ voisines a) :
    ∃ voisins : α → List α, (∀ x, (voisins x).Nodup ∧ (voisins x).toFinset = voisines x) ∧
      Guidee voisins (v :: s) := by
  induction s generalizing v with
  | nil =>
      refine ⟨fun x => (voisines x).toList, ?_, .singleton v⟩
      exact fun x => ⟨Finset.nodup_toList _, Finset.toList_toFinset _⟩
  | cons a s ih =>
      obtain ⟨hpas, hs⟩ := List.isChain_cons_cons.mp hs
      obtain ⟨ha, hnodup⟩ := List.nodup_cons.mp hnodup
      obtain ⟨voisins, hliste, hguidee⟩ := ih hnodup hs
      refine ⟨Function.update voisins a (v :: (voisins a).erase v), ?_, ?_⟩
      · intro x
        by_cases hx : x = a
        · obtain ⟨hsans, hfinset⟩ := hliste a
          have hv : v ∈ voisins a := by
            rw [← List.mem_toFinset, hfinset]
            exact hpas
          have hperm := List.perm_cons_erase hv
          rw [hx, Function.update_self]
          exact ⟨hperm.nodup_iff.mp hsans, by rw [← List.toFinset_eq_of_perm _ _ hperm, hfinset]⟩
        · rw [Function.update_of_ne hx]
          exact hliste x
      · refine List.isChain_cons_cons.mpr ⟨by rw [Function.update_self]; rfl, ?_⟩
        refine hguidee.imp_of_mem_tail_imp ?_
        intro b c _ hc hbc
        rw [Function.update_of_ne (ne_of_mem_of_not_mem hc ha), hbc]

end Hermes.Lib.Profondeur
