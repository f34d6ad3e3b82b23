import Hermes.Lib.JsonTexte
import Mathlib.Data.String.Basic

/-! # What a JSON text with sorted keys contains, and what it depends on

The text of a value holds no control character, whatever its strings hold: they are escaped.
-/

namespace Hermes.Lib.Json

/-- No control character, the line ends and the tabulation included. -/
def SansControle (cs : List Char) : Prop := ∀ c ∈ cs, 32 ≤ c.toNat

namespace SansControle

variable {a b : List Char}

instance (cs : List Char) : Decidable (SansControle cs) :=
  List.decidableBAll (fun c : Char => 32 ≤ c.toNat) cs

theorem append (ha : SansControle a) (hb : SansControle b) : SansControle (a ++ b) := by
  intro c hc
  rcases List.mem_append.mp hc with h | h
  · exact ha c h
  · exact hb c h

theorem intercalate {entre : List Char} {parts : List (List Char)} (hentre : SansControle entre)
    (hparts : ∀ part ∈ parts, SansControle part) : SansControle (entre.intercalate parts) := by
  induction parts with
  | nil => nofun
  | cons part parts ih =>
      have hpart := hparts part List.mem_cons_self
      have hrest := ih fun p hp => hparts p (List.mem_cons_of_mem part hp)
      cases parts with
      | nil => simpa using hpart
      | cons p parts =>
          rw [List.intercalate_cons_cons]
          exact (hpart.append hentre).append hrest

theorem chiffres {ds : List Char} (h : ∀ c ∈ ds, c.isDigit = true) : SansControle ds := by
  intro c hc
  have hdigit := h c hc
  simp only [Char.isDigit, Bool.and_eq_true, decide_eq_true_eq, ge_iff_le] at hdigit
  have hle : (48 : UInt32).toNat ≤ c.val.toNat := UInt32.le_iff_toNat_le.mp hdigit.1
  exact Nat.le_trans (by decide) hle

end SansControle

theorem sansControle_echapper (c : Char) : SansControle (echapper c) := by
  have hbarre : 32 ≤ (Char.ofNat 92).toNat := by decide
  have hdigit : ∀ n < 16, 32 ≤ (Nat.digitChar n).toNat := by decide
  unfold echapper
  dsimp only
  split_ifs with hquote hb ht hn hf hr hlow
  · intro d hd
    rcases List.mem_pair.mp hd with rfl | rfl
    · exact hbarre
    · omega
  all_goals try (intro d hd; rcases List.mem_pair.mp hd with rfl | rfl <;> decide)
  · have h₁ := hdigit (c.toNat / 16) (by omega)
    have h₂ := hdigit (c.toNat % 16) (by omega)
    simp [SansControle, h₁, h₂]
  · intro d hd
    cases List.mem_singleton.mp hd
    omega

theorem sansControle_citer (s : String) : SansControle (citer s).toList := by
  have hguillemet : SansControle (String.singleton (Char.ofNat 34)).toList := by decide
  have hcorps : SansControle (s.toList.flatMap echapper) := by
    intro c hc
    obtain ⟨d, -, hd⟩ := List.mem_flatMap.mp hc
    exact sansControle_echapper d c hd
  unfold citer
  simp only [String.toList_append, String.toList_ofList]
  exact (hguillemet.append hcorps).append hguillemet

theorem sansControle_entier (n : Int) : SansControle (toString n).toList := by
  have hnat : ∀ k : Nat, SansControle (Nat.toDigits 10 k) := fun k =>
    .chiffres fun c hc => Nat.isDigit_of_mem_toDigits (by decide) (by decide) hc
  cases n with
  | ofNat k => simpa [toString, Int.repr, Nat.repr] using hnat k
  | negSucc k =>
      have htexte : (toString (Int.negSucc k)).toList = '-' :: Nat.toDigits 10 (k + 1) := by
        simp [toString, Int.repr, Nat.repr]
      rw [htexte]
      exact (show SansControle ['-'] by decide).append (hnat (k + 1))

theorem sansControle_flottant {t : String} (h : FlottantValide t) : SansControle t.toList := by
  rcases h with rfl | rfl | rfl | ⟨d, hd, rfl⟩
  · decide
  · decide
  · decide
  · have hsigne : SansControle d.signe := by
      rcases hd.signe with hs | hs | hs <;> rw [hs] <;> decide
    have hfraction : SansControle d.texteFraction := by
      unfold Decimal.texteFraction
      split
      · nofun
      · exact (show SansControle ['.'] by decide).append (.chiffres hd.decimales)
    have hexposant : SansControle d.texteExposant := by
      unfold Decimal.texteExposant
      split
      · nofun
      · exact (show SansControle ['e'] by decide).append (hsigne.append (.chiffres hd.exposant))
    have hmoins : SansControle (if d.negatif then ['-'] else []) := by
      cases d.negatif <;> decide
    rw [String.toList_ofList, Decimal.texte]
    exact hmoins.append
      ((SansControle.chiffres hd.entiere.chiffres).append (hfraction.append hexposant))

section Dumps

variable {entre apres : String}

mutual

theorem sansControle_dumps (hentre : SansControle entre.toList) (hapres : SansControle apres.toList) :
    (v : Json) → v.Valide → SansControle (dumps entre apres v).toList
  | null, _ => by
      rw [dumps]
      decide
  | bool b, _ => by
      rw [dumps]
      cases b <;> decide
  | entier n, _ => by
      rw [dumps]
      exact sansControle_entier n
  | flottant t, hv => by
      rw [dumps]
      exact sansControle_flottant (by simpa [Valide] using hv)
  | texte s, _ => by
      rw [dumps]
      exact sansControle_citer s
  | tableau valeurs, hv => by
      rw [dumps]
      simp only [String.toList_append, String.toList_intercalate]
      have hvaleurs := sansControle_dumpsValeurs hentre hapres valeurs (by simpa [Valide] using hv)
      refine .append (.append (by decide) (.intercalate hentre fun part hpart => ?_)) (by decide)
      obtain ⟨t, ht, rfl⟩ := List.mem_map.mp hpart
      exact hvaleurs t ht
  | objet items, hv => by
      rw [Valide] at hv
      rw [dumps]
      simp only [String.toList_append, String.toList_intercalate]
      have hitems := sansControle_dumpsItems hentre hapres items hv.2
      refine .append (.append (by decide) (.intercalate hentre fun part hpart => ?_)) (by decide)
      obtain ⟨t, ht, rfl⟩ := List.mem_map.mp hpart
      obtain ⟨item, hitem, rfl⟩ := List.mem_map.mp ht
      have hvaleur := hitems item (List.mem_mergeSort.mp hitem)
      simp only [String.toList_append]
      exact ((sansControle_citer item.1).append hapres).append hvaleur

theorem sansControle_dumpsValeurs (hentre : SansControle entre.toList)
    (hapres : SansControle apres.toList) : (valeurs : List Json) → ValeursValides valeurs →
      ∀ t ∈ dumpsValeurs entre apres valeurs, SansControle t.toList
  | [], _ => by
      rw [dumpsValeurs]
      nofun
  | v :: valeurs, hv => by
      rw [ValeursValides] at hv
      rw [dumpsValeurs]
      intro t ht
      rcases List.mem_cons.mp ht with rfl | ht
      · exact sansControle_dumps hentre hapres v hv.1
      · exact sansControle_dumpsValeurs hentre hapres valeurs hv.2 t ht

theorem sansControle_dumpsItems (hentre : SansControle entre.toList)
    (hapres : SansControle apres.toList) : (items : List (String × Json)) → ItemsValides items →
      ∀ item ∈ dumpsItems entre apres items, SansControle item.2.toList
  | [], _ => by
      rw [dumpsItems]
      nofun
  | (k, v) :: items, hv => by
      rw [ItemsValides] at hv
      rw [dumpsItems]
      intro item hitem
      rcases List.mem_cons.mp hitem with rfl | hitem
      · exact sansControle_dumps hentre hapres v hv.1
      · exact sansControle_dumpsItems hentre hapres items hv.2 item hitem

end

theorem dumpsItems_eq_map (items : List (String × Json)) :
    dumpsItems entre apres items = items.map fun item => (item.1, dumps entre apres item.2) := by
  induction items with
  | nil => rw [dumpsItems, List.map_nil]
  | cons item items ih => rw [dumpsItems, ih, List.map_cons]

theorem dumps_perm {items items' : List (String × Json)} (h : items.Perm items')
    (hcles : (items.map Prod.fst).Nodup) :
    dumps entre apres (objet items) = dumps entre apres (objet items') := by
  rw [dumps, dumps, dumpsItems_eq_map, dumpsItems_eq_map]
  have hperm := h.map fun item => (item.1, dumps entre apres item.2)
  have hsorted : ∀ l : List (String × String),
      (l.mergeSort fun a b => a.1 ≤ b.1).Pairwise fun a b => a.1 ≤ b.1 := by
    intro l
    have hle : ∀ x y : String × String, decide (x.1 ≤ y.1) = true ↔ x.1 ≤ y.1 :=
      fun _ _ => decide_eq_true_iff
    refine (List.pairwise_mergeSort ?_ ?_ l).imp fun hxy => (hle _ _).mp hxy
    · intro x y z hxy hyz
      exact (hle _ _).mpr (((hle _ _).mp hxy).trans ((hle _ _).mp hyz))
    · intro x y
      rcases le_total x.1 y.1 with hxy | hxy <;> simp [hxy]
  have heq := List.Perm.eq_of_pairwise ?_ (hsorted _) (hsorted _)
    ((List.mergeSort_perm _ _).trans (hperm.trans (List.mergeSort_perm _ _).symm))
  · rw [heq]
  · -- two items with one key are one item
    intro x y hx hy hxy hyx
    rw [List.mem_mergeSort] at hx hy
    have hnodup : ((items.map fun item => (item.1, dumps entre apres item.2)).map
        Prod.fst).Nodup := by
      rw [List.map_map]
      exact hcles
    exact List.inj_on_of_nodup_map hnodup hx (hperm.mem_iff.mpr hy) (le_antisymm hxy hyx)

end Dumps

end Hermes.Lib.Json
