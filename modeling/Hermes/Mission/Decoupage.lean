import Hermes.Mission.Cahier
import Mathlib.Data.Bool.AllAny

/-! # The titles of a specification

What the pattern of the titles matches, and how two titles can overlap: the second one is the text
of the first.
-/

namespace Hermes.Programme.Alphabet

open Lib Lib.Expression Lib.Texte Lib.Nombre

variable {A : Alphabet} {a : Option Char} {cs : List Char} {o o' : Occurrence}

theorem chiffre_of_blanc {c : Char} (h : estBlanc c = true) : A.chiffre c = false := by
  rw [Bool.eq_false_iff]
  intro hchiffre
  have hmot := A.mot_chiffre c hchiffre
  rw [A.mot_blanc c h] at hmot
  cases hmot

theorem chiffre_ascii {c : Char} (hc : c.toNat < 128) (hpas : c.isDigit = false) :
    A.chiffre c = false := by
  rw [Bool.eq_false_iff]
  intro hchiffre
  rw [A.ascii_chiffre c hc hchiffre] at hpas
  cases hpas

/-- From the blanks that precede the text of the title. -/
def SUITE : Patron :=
  [(false, .plus estBlanc), (true, .plusPeu (· ≠ '\n')), (false, .etoile estBlanc), (false, .fin)]

variable {w d x z v t : List Char}

theorem correspond_titre (ha : debutDeLigne a = true) (hw : w ≠ [])
    (hblancs : ∀ c ∈ w, estBlanc c = true) (hd : d ≠ [])
    (hchiffres : ∀ c ∈ d, A.chiffre c = true) (x : List Char) :
    correspond A.mot A.TITRE ⟨a, '#' :: (w ++ (d ++ '.' :: x))⟩ =
      (correspond A.mot SUITE ⟨some '.', x⟩).map fun r => (d :: r.1, r.2) := by
  have hpoint : A.chiffre '.' = false := chiffre_ascii (by decide) (by decide)
  have hd' : ∀ c ∈ (d ++ '.' :: x).head?, estBlanc c = false := by
    intro c hc
    cases d with
    | nil => exact absurd rfl hd
    | cons e d =>
        have hchiffre := hchiffres e List.mem_cons_self
        rw [Option.some.inj hc] at hchiffre
        rw [Bool.eq_false_iff]
        intro hblanc
        rw [chiffre_of_blanc hblanc] at hchiffre
        cases hchiffre
  have hpoint' : ∀ c ∈ ('.' :: x).head?, A.chiffre c = false := by
    rintro c hc
    cases hc
    exact hpoint
  rw [correspond, TITRE, essais_debut ha, essais_un (by rfl), essais_plus hw hblancs hd',
    essais_plus hd hchiffres hpoint', essais_un (by rfl)]
  · simp only [correspond, List.head?_map, Option.map_map]
    rfl
  · intro b c cs hc
    refine essais_un_refus fun c' hc' => ?_
    cases hc'
    rw [decide_eq_false_iff_not]
    rintro rfl
    rw [hpoint] at hc
    cases hc
  · intro b c cs hc
    refine essais_plus_refus fun c' hc' => ?_
    cases hc'
    exact chiffre_of_blanc hc

theorem essais_texte {b : Option Char} {c : Char} {v : List Char} (hc : estBlanc c = false) :
    essais A.mot [(true, .plusPeu (· ≠ '\n')), (false, .etoile estBlanc), (false, .fin)]
      ⟨b, c :: v⟩ ≠ [] := by
  obtain ⟨ligne, reste, hligne, hsimple, hreste⟩ :=
    exists_coupe (fun c => decide (c ≠ '\n')) (c :: v)
  have hne : ligne ≠ [] := by
    rintro rfl
    have hretour := hreste c (by rw [← List.nil_append reste, ← hligne]; rfl)
    rw [decide_eq_false_iff_not, not_not] at hretour
    rw [hretour] at hc
    cases hc
  have harret : finDeLigne reste = true := by
    cases reste with
    | nil => rfl
    | cons e reste =>
        have hretour := hreste e rfl
        rw [decide_eq_false_iff_not, not_not] at hretour
        rw [hretour]
        rfl
  obtain ⟨pl, hpl⟩ : ∃ pl : Place, pl = ⟨ligne.getLast?.or b, reste⟩ := ⟨_, rfl⟩
  have hfin : ([], pl) ∈ essais A.mot [(false, .fin)] pl :=
    mem_essais_cons.mpr ⟨([], pl), mem_issues_fin.mpr ⟨by rw [hpl]; exact harret, rfl⟩, ([], pl),
      List.mem_singleton.mpr rfl, rfl⟩
  have hblancs : ([], pl) ∈ essais A.mot [(false, .etoile estBlanc), (false, .fin)] pl :=
    mem_essais_cons.mpr ⟨([], pl),
      mem_issues_etoile.mpr ⟨rfl, fun _ hmem => absurd hmem List.not_mem_nil, rfl⟩, ([], pl), hfin,
      rfl⟩
  refine List.ne_nil_of_mem (mem_essais_cons.mpr ⟨(ligne, pl), mem_issues_plusPeu.mpr
    ⟨hne, ?_, hsimple, by rw [hpl]⟩, ([], pl), hblancs, rfl⟩)
  rw [hpl]
  exact hligne

structure Ligne (v t fin : List Char) : Prop where
  lettre : ∃ c ∈ v.head?, estBlanc c = false
  texte : t ≠ []
  simple : '\n' ∉ t
  suite : ∃ blancs, v = t ++ (blancs ++ fin) ∧ ∀ c ∈ blancs, estBlanc c = true
  arret : finDeLigne fin = true

theorem suite_spec {b : Option Char} {r : List (List Char) × Place}
    (h : correspond A.mot SUITE ⟨b, x⟩ = some r) : ∃ z v t, x = z ++ v ∧ z ≠ [] ∧
      (∀ c ∈ z, estBlanc c = true) ∧ r.1 = [t] ∧
      ((v = [] ∧ (∀ c ∈ t, estBlanc c = true) ∧ ∀ c ∈ r.2.apres, estBlanc c = true) ∨
        Ligne v t r.2.apres) := by
  have hmembres : ∀ b y r, r ∈ essais A.mot
      [(true, .plusPeu (· ≠ '\n')), (false, .etoile estBlanc), (false, .fin)] ⟨b, y⟩ →
      ∃ t w, r.1 = [t] ∧ t ≠ [] ∧ '\n' ∉ t ∧ y = t ++ (w ++ r.2.apres) ∧
        (∀ c ∈ w, estBlanc c = true) ∧ finDeLigne r.2.apres = true := by
    intro b y r hr
    obtain ⟨i, hi, r', hr', rfl⟩ := mem_essais_cons.mp hr
    obtain ⟨i', hi', r'', hr'', rfl⟩ := mem_essais_cons.mp hr'
    obtain ⟨i'', hi'', r''', hr''', rfl⟩ := mem_essais_cons.mp hr''
    obtain ⟨hne, hy, hsimple, -⟩ := mem_issues_plusPeu.mp hi
    obtain ⟨hi1, hblancs, -⟩ := mem_issues_etoile.mp hi'
    obtain ⟨hfin, rfl⟩ := mem_issues_fin.mp hi''
    cases List.mem_singleton.mp hr'''
    refine ⟨i.1, i'.1, rfl, hne, fun hmem => ?_, ?_, hblancs, hfin⟩
    · exact of_decide_eq_true (hsimple _ hmem) rfl
    · rw [← hi1]
      exact hy
  obtain ⟨i, hi, r', hr', hr⟩ := mem_essais_cons.mp (mem_essais_of_correspond h)
  obtain ⟨hne, hx, hblancs, -⟩ := mem_issues_plus.mp hi
  obtain ⟨z, v, hcoupe, hz, hv⟩ := exists_coupe estBlanc x
  have hz' : z ≠ [] := by
    rintro rfl
    obtain ⟨c, u, hu⟩ := List.exists_cons_of_ne_nil hne
    have hc := hv c (by rw [← List.nil_append v, ← hcoupe, show x = _ from hx, hu]; rfl)
    rw [hblancs c (by rw [hu]; exact List.mem_cons_self)] at hc
    cases hc
  refine ⟨z, v, ?_⟩
  cases hv' : v with
  | nil =>
      obtain ⟨t, w, hgroupes, -, -, hy, -, -⟩ := hmembres _ _ _ hr'
      have htout : ∀ c ∈ x, estBlanc c = true := by
        rw [hcoupe, hv', List.append_nil]
        exact hz
      have hx' : x = i.1 ++ (t ++ (w ++ r'.2.apres)) := by rw [← hy]; exact hx
      refine ⟨t, by rw [hcoupe, hv'], hz', hz, by rw [← hr]; exact hgroupes,
        .inl ⟨rfl, fun c hc => htout c ?_, fun c hc => htout c ?_⟩⟩
      · rw [hx']
        simp [hc]
      · rw [← hr] at hc
        rw [hx']
        simp [show c ∈ r'.2.apres from hc]
  | cons c v =>
      rw [hv'] at hcoupe hv
      have hc : estBlanc c = false := hv c rfl
      have hsuite := @essais_texte A (z.getLast?.or b) c v hc
      rw [hcoupe, SUITE, head?_essais_plus hz' hz hv b hsuite] at h
      obtain ⟨t, w, hgroupes, hne', hsimple, hy, hw, hfin⟩ :=
        hmembres _ _ _ (mem_essais_of_correspond h)
      exact ⟨t, hcoupe, hz', hz, hgroupes, .inr ⟨⟨c, rfl, hc⟩, hne', hsimple, ⟨w, hy, hw⟩, hfin⟩⟩

structure Titre (A : Alphabet) (o : Occurrence) (tete v t : List Char) : Prop where
  debut : o.debut = '#' :: (tete ++ v)
  tete : '#' ∉ tete
  nombre : o.groupes.getD 0 [] ≠ []
  chiffres : ∀ c ∈ o.groupes.getD 0 [], A.chiffre c = true
  groupe : o.groupes.getD 1 [] = t
  texte : (v = [] ∧ (∀ c ∈ t, estBlanc c = true) ∧ ∀ c ∈ o.fin, estBlanc c = true) ∨
    Ligne v t o.fin

theorem titre_of_occurrence (h : occurrence A.mot A.TITRE a cs = some o) :
    debutDeLigne a = true ∧ ∃ tete v t, Titre A o tete v t := by
  obtain ⟨b, hcorrespond⟩ := correspond_of_occurrence h
  obtain ⟨i, hi, _, hr, -⟩ := mem_essais_cons.mp (mem_essais_of_correspond hcorrespond)
  obtain ⟨ha, rfl⟩ := mem_issues_debut.mp hi
  obtain ⟨i₁, hi₁, _, hr, -⟩ := mem_essais_cons.mp hr
  obtain ⟨c, hc, -, hcs, -⟩ := mem_issues_un.mp hi₁
  obtain ⟨i₂, hi₂, _, hr, -⟩ := mem_essais_cons.mp hr
  obtain ⟨hw, hcs₁, hblancs, -⟩ := mem_issues_plus.mp hi₂
  obtain ⟨i₃, hi₃, _, hr, -⟩ := mem_essais_cons.mp hr
  obtain ⟨hd, hcs₂, hchiffres, -⟩ := mem_issues_plus.mp hi₃
  obtain ⟨i₄, hi₄, _, hr, -⟩ := mem_essais_cons.mp hr
  obtain ⟨e, he, -, hcs₃, -⟩ := mem_issues_un.mp hi₄
  have hforme : cs = '#' :: (i₂.1 ++ (i₃.1 ++ '.' :: i₄.2.apres)) := by
    rw [of_decide_eq_true hc, hcs₁, hcs₂, hcs₃, of_decide_eq_true he] at hcs
    exact hcs
  rw [hforme, correspond_titre ha hw hblancs hd hchiffres] at hcorrespond
  obtain ⟨r, hr, heq⟩ := Option.map_eq_some_iff.mp hcorrespond
  obtain ⟨z, v, t, hx, hz, hz', hgroupes, htexte⟩ := suite_spec hr
  rw [Prod.mk.injEq] at heq
  refine ⟨ha, i₂.1 ++ (i₃.1 ++ '.' :: z), v, t, ?_, fun hmem => ?_, ?_, ?_, ?_, ?_⟩
  · rw [debut_of_occurrence h, hforme, hx]
    simp
  · -- no piece of the number is a `#`
    have hdiese : A.chiffre '#' = false := chiffre_ascii (by decide) (by decide)
    simp only [List.mem_append, List.mem_cons] at hmem
    rcases hmem with hmem | hmem | hmem | hmem
    · exact absurd (hblancs _ hmem) (by decide)
    · rw [hchiffres _ hmem] at hdiese
      cases hdiese
    · cases hmem
    · exact absurd (hz' _ hmem) (by decide)
  · rw [← heq.1]
    exact hd
  · rw [← heq.1]
    exact hchiffres
  · rw [← heq.1, hgroupes]
    rfl
  · rw [heq.2] at htexte
    exact htexte

theorem debut_of_recouvre {y : List Char} {tete v t : List Char} (h : Titre A o tete v t)
    (hy : o.debut = y ++ o'.debut) (hne : y ≠ []) (hligne : debutDeLigne y.getLast? = true)
    (hdiese : o'.debut.head? = some '#') (hlong : o.fin.length < o'.debut.length) :
    o'.debut = v ∧ Ligne v t o.fin := by
  have hretour : y.getLast? = some '\n' := by
    cases hdernier : y.getLast? with
    | none => exact absurd (List.getLast?_eq_none_iff.mp hdernier) hne
    | some c =>
        rw [hdernier] at hligne
        simpa [debutDeLigne] using hligne
  obtain ⟨corps, hcorps⟩ := List.head?_eq_some_iff.mp hdiese
  rw [h.debut, hcorps] at hy
  obtain ⟨c, y, rfl⟩ := List.exists_cons_of_ne_nil hne
  obtain ⟨-, hy⟩ := List.cons.inj hy
  rcases List.append_eq_append_iff.mp hy with ⟨e, rfl, hv⟩ | ⟨e, rfl, hv⟩
  · -- past the number
    rcases h.texte with ⟨rfl, -, -⟩ | hl
    · exact absurd (congrArg List.length hv) (by simp)
    · obtain ⟨w, hw, hblancs⟩ := hl.suite
      cases e with
      | nil =>
          rw [List.nil_append] at hv
          exact ⟨hcorps.trans hv.symm, hl⟩
      | cons e es =>
          have hdernier : (e :: es).getLast? = some '\n' := by
            rw [List.getLast?_cons, List.getLast?_append] at hretour
            simpa [List.getLast?_cons] using hretour
          rw [hw] at hv
          rcases List.append_eq_append_iff.mp hv with ⟨f, hf, hsuite⟩ | ⟨f, hf, -⟩
          · -- past the text: only blanks are left of the match
            rcases List.append_eq_append_iff.mp hsuite with ⟨g, hg, hfin⟩ | ⟨g, hg, hfin⟩
            · rw [hcorps, hfin] at hlong
              simp only [List.length_append, List.length_cons] at hlong
              omega
            · cases g with
              | nil =>
                  rw [hcorps, ← List.nil_append ('#' :: corps), hfin] at hlong
                  simp at hlong
              | cons x g =>
                  have hx : x = '#' := (List.cons.inj hfin).1.symm
                  have hblanc := hblancs x (by rw [hg]; simp)
                  rw [hx] at hblanc
                  exact absurd hblanc (by decide)
          · have hmem : '\n' ∈ t := by
              rw [hf]
              exact List.mem_append_left _ (List.mem_of_getLast? hdernier)
            exact absurd hmem hl.simple
  · -- inside the number
    cases e with
    | nil =>
        rw [List.nil_append] at hv
        rcases h.texte with ⟨rfl, -, -⟩ | hl
        · cases hv
        · exact ⟨hcorps.trans hv, hl⟩
    | cons x e =>
        obtain ⟨rfl, -⟩ := List.cons.inj hv
        exact absurd (by simp) h.tete

/-- The number of characters that are no blanks. -/
def lettres (cs : List Char) : Nat := cs.countP fun c => !estBlanc c

theorem lettres_append (u v : List Char) : lettres (u ++ v) = lettres u + lettres v :=
  List.countP_append

theorem lettres_eq_zero {u : List Char} : lettres u = 0 ↔ ∀ c ∈ u, estBlanc c = true := by
  simp [lettres, List.countP_eq_zero]

theorem lettres_dropWhile (u : List Char) : lettres (u.dropWhile estBlanc) = lettres u := by
  have hblancs : lettres (u.takeWhile estBlanc) = 0 :=
    lettres_eq_zero.mpr fun c hc => List.mem_takeWhile_imp hc
  calc lettres (u.dropWhile estBlanc)
      = lettres (u.takeWhile estBlanc) + lettres (u.dropWhile estBlanc) := by
        rw [hblancs, Nat.zero_add]
    _ = lettres u := by rw [← lettres_append, List.takeWhile_append_dropWhile]

theorem lettres_reverse (u : List Char) : lettres u.reverse = lettres u := List.countP_reverse

theorem lettres_strip (s : String) : lettres (strip s).toList = lettres s.toList := by
  rw [strip, String.toList_ofList, lettres_reverse, lettres_dropWhile, lettres_reverse,
    lettres_dropWhile]

theorem lettres_pos {c : Char} {u : List Char} (hc : c ∈ u) (hlettre : estBlanc c = false) :
    0 < lettres u := by
  rw [Nat.pos_iff_ne_zero, ne_eq, lettres_eq_zero]
  intro hblancs
  rw [hblancs c hc] at hlettre
  cases hlettre

theorem lettres_ligne {u r : List Char} {v t fin : List Char} (hl : Ligne v t fin)
    (hu : v = u ++ r) (hsimple : '\n' ∉ u) : lettres u ≤ lettres t := by
  obtain ⟨w, hw, hblancs⟩ := hl.suite
  have hw0 : lettres w = 0 := lettres_eq_zero.mpr hblancs
  rw [hw] at hu
  rcases List.append_eq_append_iff.mp hu with ⟨e, rfl, hr⟩ | ⟨e, rfl, -⟩
  · rw [lettres_append]
    rcases List.append_eq_append_iff.mp hr with ⟨f, rfl, hfin⟩ | ⟨f, hf, -⟩
    · have hf : f = [] := by
        cases f with
        | nil => rfl
        | cons c f =>
            have harret := hl.arret
            rw [hfin] at harret
            have hc : c = '\n' := by simpa [Expression.finDeLigne] using harret
            exact absurd (by simp [hc]) hsimple
      rw [hf, List.append_nil, hw0, Nat.add_zero]
    · rw [hf, lettres_append] at hw0
      omega
  · rw [lettres_append]
    omega

theorem lettres_recouvert {v t tete' v' t' : List Char} (h : Ligne v t o.fin)
    (h' : Titre A o' tete' v' t') (hdebut : o'.debut = v) :
    lettres o'.fin ≤ lettres o.fin ∧ (0 < lettres o.fin →
      lettres o'.fin < lettres o.fin ∨ lettres t' < lettres t) := by
  obtain ⟨w, hw, hblancs⟩ := h.suite
  have hw0 : lettres w = 0 := lettres_eq_zero.mpr hblancs
  have htotal : lettres v = lettres t + lettres o.fin := by
    rw [hw, lettres_append, lettres_append, hw0, Nat.zero_add]
  have hv : v = ('#' :: tete') ++ v' := hdebut.symm.trans h'.debut
  rcases h'.texte with ⟨rfl, -, hfin⟩ | hl
  · have hzero : lettres o'.fin = 0 := lettres_eq_zero.mpr hfin
    omega
  · obtain ⟨w', hw', hblancs'⟩ := hl.suite
    have hw0' : lettres w' = 0 := lettres_eq_zero.mpr hblancs'
    have htotal' : lettres v' = lettres t' + lettres o'.fin := by
      rw [hw', lettres_append, lettres_append, hw0', Nat.zero_add]
    have hsomme : lettres v = lettres ('#' :: tete') + lettres v' := by rw [hv, lettres_append]
    have htete : 0 < lettres ('#' :: tete') := lettres_pos List.mem_cons_self (by decide)
    have htexte : 0 < lettres t' := by
      obtain ⟨c, hc, hlettre⟩ := hl.lettre
      refine lettres_pos (c := c) ?_ hlettre
      obtain ⟨x, xs, hx⟩ := List.exists_cons_of_ne_nil hl.texte
      rw [hw', hx] at hc
      rw [hx]
      cases hc
      exact List.mem_cons_self
    by_cases hretour : '\n' ∈ tete'
    · -- the text of the first ends inside the number of the second
      have ht : lettres t ≤ lettres ('#' :: tete') := by
        rw [hw] at hv
        rcases List.append_eq_append_iff.mp hv with ⟨e, he, -⟩ | ⟨e, he, -⟩
        · rw [he, lettres_append]
          omega
        · exact absurd (by rw [he]; simp [hretour]) h.simple
      omega
    · -- both texts end with the same line
      have hsuite : v = (('#' :: tete') ++ t') ++ (w' ++ o'.fin) := by
        rw [hv, hw', List.append_assoc]
      have hsimple : '\n' ∉ ('#' :: tete') ++ t' := by simp [hretour, hl.simple]
      have hmeme : Ligne v (('#' :: tete') ++ t') o'.fin :=
        ⟨h.lettre, by simp, hsimple, ⟨w', hsuite, hblancs'⟩, hl.arret⟩
      have hle := lettres_ligne h hsuite hsimple
      have hge := lettres_ligne hmeme hw h.simple
      rw [lettres_append] at hle hge
      omega

/-- What is left of the text at the match that comes next. -/
def suite (suivante : Option Occurrence) : List Char := (suivante.map (·.debut)).getD []

theorem lettres_corpsDe {s : Option Occurrence} (h : suite s <:+ o.fin) :
    lettres (corpsDe o s).toList + lettres (suite s) = lettres o.fin := by
  obtain ⟨r, hr⟩ := h
  have hlongueur : (s.map (·.debut.length)).getD 0 = (suite s).length := by
    cases s <;> rfl
  have htake : o.fin.take (o.fin.length - (suite s).length) = r := by
    rw [← hr, List.length_append, Nat.add_sub_cancel, List.take_left]
  rw [corpsDe, lettres_strip, String.toList_ofList, hlongueur, htake, ← hr, lettres_append]

theorem corpsDe_of_recouvre (h : o.fin.length < o'.debut.length) : corpsDe o (some o') = "" := by
  have hzero : o.fin.length - o'.debut.length = 0 := by omega
  simp only [corpsDe, Option.map_some, Option.getD_some, hzero, List.take_zero]
  rfl

theorem strip_eq_empty {s : String} (h : lettres s.toList = 0) : strip s = "" := by
  rw [lettres_eq_zero] at h
  have hvide : s.toList.dropWhile estBlanc = [] := List.dropWhile_eq_nil_iff.mpr h
  rw [strip, hvide]
  rfl

theorem corpsDe_ne_empty_iff {s : Option Occurrence} :
    corpsDe o s ≠ "" ↔ 0 < lettres (corpsDe o s).toList := by
  rw [Nat.pos_iff_ne_zero]
  refine not_congr ⟨fun h => by rw [h]; rfl, fun h => ?_⟩
  rw [corpsDe, lettres_strip] at h
  exact strip_eq_empty h

theorem lettres_corpsDe_le {s : Option Occurrence} (hfin : o.fin <:+ o.debut)
    (hs : suite s <:+ o.debut) :
    lettres (corpsDe o s).toList + lettres (suite s) = lettres o.fin ∨ corpsDe o s = "" := by
  by_cases hlong : (suite s).length ≤ o.fin.length
  · exact .inl (lettres_corpsDe (List.suffix_of_suffix_length_le hs hfin hlong))
  · cases s with
    | none => exact absurd (Nat.zero_le _) hlong
    | some o'' => exact .inr (corpsDe_of_recouvre (Nat.not_le.mp hlong))

theorem sections_recouvertes {tete v t tete' v' t' : List Char} {s : Option Occurrence}
    (h : Titre A o tete v t) (hl : Ligne v t o.fin) (h' : Titre A o' tete' v' t')
    (hdebut : o'.debut = v) (hfin : suite s <:+ o.fin) (hfin' : o'.fin <:+ o'.debut)
    (hs : suite s <:+ o'.debut) (hnon : corpsDe o s ≠ "") :
    A.sectionDe (o, corpsDe o s) ≠ A.sectionDe (o', corpsDe o' s) := by
  have hpos := corpsDe_ne_empty_iff.mp hnon
  have hcorps := lettres_corpsDe hfin
  obtain ⟨-, hou⟩ := lettres_recouvert hl h' hdebut
  have hou := hou (by omega)
  intro heq
  simp only [sectionDe, Section.mk.injEq] at heq
  obtain ⟨-, htitre, hmeme⟩ := heq
  have htitres : lettres t = lettres t' := by
    have hlettres := congrArg (fun s => lettres s.toList) htitre
    simpa only [lettres_strip, groupe, String.toList_ofList, h.groupe, h'.groupe] using hlettres
  rw [hmeme] at hcorps hpos
  rcases lettres_corpsDe_le hfin' hs with hcorps' | hvide
  · omega
  · rw [hvide] at hpos
    exact absurd hpos (by decide)

theorem corpsDe_recouvert {v t tete' v' t' : List Char} {s : Option Occurrence}
    (hl : Ligne v t o.fin) (h' : Titre A o' tete' v' t') (hdebut : o'.debut = v)
    (hfin : suite s <:+ o.fin) (hfin' : o'.fin <:+ o'.debut) (hs : suite s <:+ o'.debut)
    (hvide : corpsDe o s = "") : corpsDe o' s = "" := by
  have hcorps := lettres_corpsDe hfin
  rw [hvide] at hcorps
  have hzero : lettres "".toList = 0 := rfl
  obtain ⟨hle, -⟩ := lettres_recouvert hl h' hdebut
  by_contra hnon
  have hpos := corpsDe_ne_empty_iff.mp hnon
  rcases lettres_corpsDe_le hfin' hs with hcorps' | hvide'
  · omega
  · exact hnon hvide'

theorem nonVides_cons (o : Occurrence) (os : List Occurrence) : nonVides (o :: os) =
    (if corpsDe o os.head? = "" then [] else [(o, corpsDe o os.head?)]) ++ nonVides os := by
  rw [nonVides]
  split <;> rfl

theorem head?_disjointes {n : Nat} {os : List Occurrence}
    (h : ∀ o ∈ os.head?, o.debut.length ≤ n) : (disjointes n os).head? = os.head? := by
  cases os with
  | nil => rfl
  | cons o os => rw [disjointes, if_neg (Nat.not_lt.mpr (h o rfl))]; rfl

structure EnOrdre (A : Alphabet) (os : List Occurrence) : Prop where
  titres : ∀ o ∈ os, ∃ tete v t, Titre A o tete v t
  fins : ∀ o ∈ os, o.fin <:+ o.debut
  ordre : os.Pairwise fun o o' => ∃ y, y ≠ [] ∧ o.debut = y ++ o'.debut ∧
    debutDeLigne y.getLast? = true

theorem EnOrdre.tail {os : List Occurrence} (h : EnOrdre A (o :: os)) : EnOrdre A os :=
  ⟨fun o ho => h.titres o (List.mem_cons_of_mem _ ho),
    fun o ho => h.fins o (List.mem_cons_of_mem _ ho), (List.pairwise_cons.mp h.ordre).2⟩

theorem enOrdre_titres (texte : String) : EnOrdre A (A.titres texte) := by
  have hde : ∀ o ∈ A.titres texte, ∃ a, occurrence A.mot A.TITRE a o.debut = some o := by
    intro o ho
    obtain ⟨y, -, -, h⟩ := mem_occurrences.mp ho
    exact ⟨_, h⟩
  refine ⟨fun o ho => ?_, fun o ho => ?_, ?_⟩
  · obtain ⟨a, h⟩ := hde o ho
    exact (titre_of_occurrence h).2
  · obtain ⟨a, h⟩ := hde o ho
    exact fin_suffix h
  · refine List.Pairwise.imp ?_ (pairwise_occurrences A.mot A.TITRE none texte.toList)
    rintro o o' ⟨y, hne, hy, h⟩
    exact ⟨y, hne, hy, (titre_of_occurrence h).1⟩

theorem EnOrdre.recouvre {os : List Occurrence} (h : EnOrdre A (o :: o' :: os))
    (hlong : o.fin.length < o'.debut.length) :
    (∀ o'' ∈ os.head?, o''.debut.length ≤ o.fin.length) ∧ suite os.head? <:+ o.fin ∧
      suite os.head? <:+ o'.debut ∧ ∃ tete v t tete' v' t', Titre A o tete v t ∧
        Ligne v t o.fin ∧ Titre A o' tete' v' t' ∧ o'.debut = v := by
  obtain ⟨tete, v, t, ht⟩ := h.titres o List.mem_cons_self
  have hfin := h.fins o List.mem_cons_self
  obtain ⟨hapres, hordre⟩ := List.pairwise_cons.mp h.ordre
  have hv : ∀ o'' ∈ o' :: os, o.fin.length < o''.debut.length →
      o''.debut = v ∧ Ligne v t o.fin := by
    intro o'' ho'' hlong''
    obtain ⟨y, hne, hy, hligne⟩ := hapres o'' ho''
    obtain ⟨tete'', v'', t'', ht''⟩ := h.titres o'' (List.mem_cons_of_mem _ ho'')
    exact debut_of_recouvre ht hy hne hligne (by rw [ht''.debut]; rfl) hlong''
  obtain ⟨hdebut, hl⟩ := hv o' List.mem_cons_self hlong
  obtain ⟨tete', v', t', ht'⟩ := h.titres o' (by simp)
  have hplus : ∀ o'' ∈ os.head?, o''.debut.length ≤ o.fin.length := by
    intro o'' ho''
    have hmem : o'' ∈ os := List.mem_of_mem_head? ho''
    by_contra hlong''
    obtain ⟨hmeme, -⟩ := hv o'' (List.mem_cons_of_mem _ hmem) (Nat.not_le.mp hlong'')
    obtain ⟨y, hne, hy, -⟩ := (List.pairwise_cons.mp hordre).1 o'' hmem
    rw [hdebut, hmeme] at hy
    exact hne (List.self_eq_append_left.mp hy)
  refine ⟨hplus, ?_, ?_, tete, v, t, tete', v', t', ht, hl, ht', hdebut⟩
  · cases hos : os.head? with
    | none => exact List.nil_suffix
    | some o'' =>
        have hmem : o'' ∈ os := List.mem_of_mem_head? hos
        obtain ⟨y, -, hy, -⟩ := hapres o'' (List.mem_cons_of_mem _ hmem)
        exact List.suffix_of_suffix_length_le ⟨y, hy.symm⟩ hfin (hplus o'' hos)
  · cases hos : os.head? with
    | none => exact List.nil_suffix
    | some o'' =>
        have hmem : o'' ∈ os := List.mem_of_mem_head? hos
        obtain ⟨y, -, hy, -⟩ := (List.pairwise_cons.mp hordre).1 o'' hmem
        exact ⟨y, hy.symm⟩

theorem nonVides_disjointes {n : Nat} {os : List Occurrence} (h : EnOrdre A os)
    (hn : ∀ o ∈ os.head?, o.debut.length ≤ n) :
    (nonVides os).length ≤ (nonVides (disjointes n os)).length ∧
      ((nonVides (disjointes n os)).map A.sectionDe = (nonVides os).map A.sectionDe →
        SansPerte os) ∧
      (SansPerte os → nonVides (disjointes n os) = nonVides os) := by
  induction os using SansPerte.induct generalizing n with
  | case1 o o' os hlong ih =>
      obtain ⟨hplus, hfin, hfin', tete, v, t, tete', v', t', ht, hl, ht', hdebut⟩ :=
        h.recouvre hlong
      obtain ⟨hlongueur, hseul, hmeme⟩ := @ih o.fin.length h.tail.tail hplus
      have hdisjointes : disjointes n (o :: o' :: os) = o :: disjointes o.fin.length os := by
        rw [disjointes, if_neg (Nat.not_lt.mpr (hn o rfl)), disjointes, if_pos hlong]
      have hvide : corpsDe o (o' :: os).head? = "" := corpsDe_of_recouvre hlong
      rw [hdisjointes, nonVides_cons o (disjointes _ _), nonVides_cons o (o' :: os), if_pos hvide,
        List.nil_append, nonVides_cons o', head?_disjointes hplus, SansPerte, if_pos hlong]
      by_cases hb : corpsDe o os.head? = ""
      · have hb' := corpsDe_recouvert hl ht' hdebut hfin (h.fins o' (by simp)) hfin' hb
        rw [if_pos hb, if_pos hb', List.nil_append, List.nil_append]
        exact ⟨hlongueur, fun heq => ⟨hb, hseul heq⟩, fun hsans => hmeme hsans.2⟩
      · -- the section of the first is not one of the titles
        have hdifferent : A.sectionDe (o, corpsDe o os.head?) ≠
            A.sectionDe (o', corpsDe o' os.head?) :=
          sections_recouvertes ht hl ht' hdebut hfin (h.fins o' (by simp)) hfin' hb
        rw [if_neg hb]
        refine ⟨?_, fun heq => ?_, fun hsans => absurd hsans.1 hb⟩
        · split <;> simp only [List.length_append, List.length_cons, List.length_nil] <;> omega
        · split at heq
          · have hlongueurs := congrArg List.length heq
            simp only [List.length_map, List.length_append, List.length_cons,
              List.length_nil] at hlongueurs
            omega
          · exact absurd (List.cons.inj heq).1 hdifferent
  | case2 o o' os hlong ih =>
      have hn' : ∀ x ∈ (o' :: os).head?, x.debut.length ≤ o.fin.length := by
        rintro x hx
        cases hx
        exact Nat.not_lt.mp hlong
      obtain ⟨hlongueur, hseul, hmeme⟩ := @ih o.fin.length h.tail hn'
      rw [disjointes, if_neg (Nat.not_lt.mpr (hn o rfl)), nonVides_cons o (disjointes _ _),
        nonVides_cons o (o' :: os), head?_disjointes hn', SansPerte, if_neg hlong]
      refine ⟨?_, fun heq => hseul ?_, fun hsans => by rw [hmeme hsans]⟩
      · simp only [List.length_append]
        omega
      · rw [List.map_append, List.map_append] at heq
        exact List.append_cancel_left heq
  | case3 os hcourt =>
      cases os with
      | nil => exact ⟨Nat.le_refl _, fun _ => trivial, fun _ => rfl⟩
      | cons o os =>
          cases os with
          | nil =>
              rw [disjointes, if_neg (Nat.not_lt.mpr (hn o rfl))]
              exact ⟨Nat.le_refl _, fun _ => trivial, fun _ => rfl⟩
          | cons o' os => exact absurd rfl (hcourt o o' os)

theorem lireChiffres_eq {d : List Char} (hne : d ≠ []) (h : ∀ c ∈ d, A.chiffre c = true) :
    lireChiffres A.chiffres d = some (d.filterMap A.chiffres.valeur) := by
  have hsouligne : A.chiffre '_' = false := chiffre_ascii (by decide) (by decide)
  induction d with
  | nil => exact absurd rfl hne
  | cons c d ih =>
      obtain ⟨n, hn⟩ := Option.isSome_iff_exists.mp (h c List.mem_cons_self)
      have hd : ∀ e ∈ d, A.chiffre e = true := fun e he => h e (List.mem_cons_of_mem _ he)
      cases d with
      | nil => simp [lireChiffres, hn]
      | cons e d =>
          have he : e ≠ '_' := by
            rintro rfl
            rw [hd '_' List.mem_cons_self] at hsouligne
            cases hsouligne
          rw [lireChiffres, ih (List.cons_ne_nil _ _) hd, hn]
          · simp [hn]
          · exact List.cons_ne_nil _ _
          · intro suite heq
            exact he (List.cons.inj heq).1

theorem strip_eq {s : String} (h : ∀ c ∈ s.toList, estBlanc c = false) : strip s = s := by
  have hgarde : ∀ l : List Char, (∀ c ∈ l, estBlanc c = false) → l.dropWhile estBlanc = l := by
    intro l hl
    cases l with
    | nil => rfl
    | cons c l => rw [List.dropWhile_cons, hl c List.mem_cons_self]; rfl
  rw [strip, hgarde _ h, hgarde _ fun c hc => h c (List.mem_reverse.mp hc), List.reverse_reverse,
    String.ofList_toList]

theorem entier_eq {d : List Char} (hne : d ≠ []) (h : ∀ c ∈ d, A.chiffre c = true) :
    A.entier (String.ofList d) =
      if d.length ≤ LIMITE_DE_CHIFFRES then some (A.valeurDe (String.ofList d)) else none := by
  have hsansBlanc : ∀ c ∈ (String.ofList d).toList, estBlanc c = false := by
    intro c hc
    rw [String.toList_ofList] at hc
    rw [Bool.eq_false_iff]
    intro hblanc
    have hchiffre := h c hc
    rw [chiffre_of_blanc hblanc] at hchiffre
    cases hchiffre
  have hsigne : lireSigne d = (false, d) := by
    have hmoins : A.chiffre '-' = false := chiffre_ascii (by decide) (by decide)
    have hplus : A.chiffre '+' = false := chiffre_ascii (by decide) (by decide)
    cases d with
    | nil => rfl
    | cons c d =>
        have hc := h c List.mem_cons_self
        rw [lireSigne]
        · rintro rest heq
          rw [(List.cons.inj heq).1, hmoins] at hc
          cases hc
        · rintro rest heq
          rw [(List.cons.inj heq).1, hplus] at hc
          cases hc
  have hlongueur : (d.filterMap A.chiffres.valeur).length = d.length := by
    rw [List.length_filterMap_eq_countP, List.countP_eq_length]
    exact h
  rw [entier, lireEntier, strip_eq hsansBlanc, String.toList_ofList, hsigne]
  dsimp only
  rw [lireChiffres_eq hne h, Option.bind_some, hlongueur]
  by_cases hlimite : d.length ≤ LIMITE_DE_CHIFFRES
  · rw [if_neg (Nat.not_lt.mpr hlimite), if_pos hlimite, if_neg (by simp), Option.map_some,
      valeurDe, String.toList_ofList]
    rfl
  · rw [if_pos (Nat.not_le.mp hlimite), if_neg hlimite]
    rfl

theorem mem_of_mem_nonVides {os : List Occurrence} {marque : Occurrence × String}
    (h : marque ∈ nonVides os) : marque.1 ∈ os := by
  induction os with
  | nil => cases h
  | cons o os ih =>
      rw [nonVides_cons, List.mem_append] at h
      rcases h with h | h
      · split at h
        · cases h
        · rw [List.mem_singleton.mp h]
          exact List.mem_cons_self
      · exact List.mem_cons_of_mem _ (ih h)

theorem decouper_eq (texte : String) : A.decouper texte =
    if ∀ marque ∈ nonVides (trouver A.mot A.TITRE texte.toList),
        (groupe marque.1 0).length ≤ LIMITE_DE_CHIFFRES
      then some ((nonVides (trouver A.mot A.TITRE texte.toList)).map A.sectionDe) else none := by
  have hordre := enOrdre_titres (A := A) texte
  have hmarques : ∀ marque ∈ nonVides (trouver A.mot A.TITRE texte.toList),
      marque.1 ∈ A.titres texte := by
    intro marque hmarque
    have hmem := mem_of_mem_nonVides hmarque
    rw [trouver_eq] at hmem
    exact disjointes_subset hmem
  rw [decouper]
  generalize nonVides (trouver A.mot A.TITRE texte.toList) = marques at hmarques ⊢
  induction marques with
  | nil => rfl
  | cons marque marques ih =>
      obtain ⟨tete, v, t, ht⟩ := hordre.titres marque.1 (hmarques _ List.mem_cons_self)
      have hentier : A.entier (groupe marque.1 0) =
          if (groupe marque.1 0).length ≤ LIMITE_DE_CHIFFRES then
            some (A.valeurDe (groupe marque.1 0)) else none := by
        rw [groupe, entier_eq ht.nombre ht.chiffres, String.length_ofList]
      rw [List.mapM_cons, ih fun x hx => hmarques x (List.mem_cons_of_mem _ hx), hentier]
      simp only [List.forall_mem_cons]
      by_cases hlongueur : (groupe marque.1 0).length ≤ LIMITE_DE_CHIFFRES
      · by_cases htous : ∀ x ∈ marques, (groupe x.1 0).length ≤ LIMITE_DE_CHIFFRES
        · rw [if_pos hlongueur, if_pos htous, if_pos ⟨hlongueur, htous⟩]
          rfl
        · rw [if_pos hlongueur, if_neg htous, if_neg (not_and_of_not_right _ htous)]
          rfl
      · rw [if_neg hlongueur, if_neg (not_and_of_not_left _ hlongueur)]
        rfl

theorem decouper_eq_some_iff {texte : String} {sections : List Section} :
    A.decouper texte = some sections ↔
      (∀ marque ∈ nonVides (trouver A.mot A.TITRE texte.toList),
        (groupe marque.1 0).length ≤ LIMITE_DE_CHIFFRES) ∧
      (nonVides (trouver A.mot A.TITRE texte.toList)).map A.sectionDe = sections := by
  rw [decouper_eq]
  split
  · next h => rw [Option.some.injEq, and_iff_right h]
  · next h => exact iff_of_false nofun fun hfaux => h hfaux.1

theorem decouper_fidele_iff (texte : String) :
    A.decouper texte = some (A.sectionsNumerotees texte) ↔ SansPerte (A.titres texte) ∧
      ∀ marque ∈ nonVides (A.titres texte), (groupe marque.1 0).length ≤ LIMITE_DE_CHIFFRES := by
  have hpremier : ∀ o ∈ (A.titres texte).head?, o.debut.length ≤ texte.toList.length := by
    intro o ho
    obtain ⟨y, hy, -⟩ := mem_occurrences.mp (List.mem_of_mem_head? ho)
    rw [hy, List.length_append]
    omega
  obtain ⟨-, hseul, hmeme⟩ := nonVides_disjointes (enOrdre_titres texte) hpremier
  have htrouver : trouver A.mot A.TITRE texte.toList =
      disjointes texte.toList.length (A.titres texte) := trouver_eq _ _ _
  rw [decouper_eq_some_iff, htrouver]
  constructor
  · rintro ⟨hlimites, heq⟩
    have hsans := hseul heq
    rw [hmeme hsans] at hlimites
    exact ⟨hsans, hlimites⟩
  · rintro ⟨hsans, hlimites⟩
    rw [hmeme hsans]
    exact ⟨hlimites, rfl⟩

end Hermes.Programme.Alphabet
