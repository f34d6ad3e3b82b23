import Hermes.Mission.Decoupage

/-! # The boxes of a plan

A box is a dash, a mark between brackets and a number.
-/

namespace Hermes.Programme.Alphabet

open Lib Lib.Expression Lib.Texte Lib.Nombre

variable {A : Alphabet} {a : Option Char} {cs k k' p q r v w d d' fin fin' : List Char}
  {c x x' : Char} {o o' : Occurrence}

structure Contenu (A : Alphabet) (k : List Char) (x : Char) (d : List Char) : Prop where
  forme : ∃ b b', k = b ++ '[' :: x :: ']' :: (b' ++ '§' :: d) ∧
    (∀ c ∈ b, estBlanc c = true) ∧ ∀ c ∈ b', estBlanc c = true
  marque : (x = ' ' || x = 'x' || x = 'X') = true
  nombre : d ≠ []
  chiffres : ∀ c ∈ d, A.chiffre c = true

/-- A text that begins with a box, up to the end of the word. -/
def Boite (A : Alphabet) (r : List Char) (x : Char) (d fin : List Char) : Prop :=
  ∃ k, r = '-' :: (k ++ fin) ∧ Contenu A k x d ∧ fin.head?.any A.mot = false

theorem Contenu.sans_tiret (h : Contenu A k x d) : '-' ∉ k := by
  obtain ⟨b, b', rfl, hb, hb'⟩ := h.forme
  have hchiffre : A.chiffre '-' = false := chiffre_ascii (by decide) (by decide)
  intro hmem
  simp only [List.mem_append, List.mem_cons] at hmem
  rcases hmem with hmem | hmem | hmem | hmem | hmem | hmem | hmem
  · exact absurd (hb _ hmem) (by decide)
  · cases hmem
  · have hmarque := h.marque
    rw [← hmem] at hmarque
    exact absurd hmarque (by decide)
  · cases hmem
  · exact absurd (hb' _ hmem) (by decide)
  · exact absurd hmem (by decide)
  · rw [h.chiffres _ hmem] at hchiffre
    cases hchiffre

theorem Contenu.dernier (h : Contenu A k x d) : k.getLast? = d.getLast? := by
  obtain ⟨b, b', rfl, -, -⟩ := h.forme
  obtain ⟨c, e, rfl⟩ := List.exists_cons_of_ne_nil h.nombre
  simp [List.getLast?_append, List.getLast?_cons]

theorem Contenu.dernier_mot (h : Contenu A k x d) (a : Option Char) :
    (d.getLast?.or a).any A.mot = true := by
  rw [List.getLast?_eq_some_getLast h.nombre]
  exact A.mot_chiffre _ (h.chiffres _ (List.getLast_mem h.nombre))

theorem Contenu.lettre {e : List Char} (h : Contenu A (p ++ e) x d) (he : e ≠ []) :
    ∃ c ∈ e, estBlanc c = false := by
  refine ⟨e.getLast he, List.getLast_mem he, ?_⟩
  have hdernier := h.dernier
  rw [List.getLast?_append, List.getLast?_eq_some_getLast he, Option.some_or,
    List.getLast?_eq_some_getLast h.nombre, Option.some.injEq] at hdernier
  rw [hdernier, Bool.eq_false_iff]
  intro hblanc
  have hchiffre := h.chiffres _ (List.getLast_mem h.nombre)
  rw [chiffre_of_blanc hblanc] at hchiffre
  cases hchiffre

theorem Contenu.unique (h : Contenu A k x d) (h' : Contenu A k' x' d')
    (hfin : fin.head?.any A.mot = false) (hfin' : fin'.head?.any A.mot = false)
    (heq : k ++ fin = k' ++ fin') : x = x' ∧ d = d' ∧ k = k' := by
  obtain ⟨b₁, b₂, rfl, hb₁, hb₂⟩ := h.forme
  obtain ⟨b₁', b₂', rfl, hb₁', hb₂'⟩ := h'.forme
  have hapres : ∀ {f : List Char}, f.head?.any A.mot = false →
      ∀ c, f.head? = some c → ¬ A.chiffre c = true := by
    intro f hf c hc hchiffre
    rw [hc, Option.any_some, A.mot_chiffre c hchiffre] at hf
    cases hf
  simp only [List.append_assoc, List.cons_append] at heq
  obtain ⟨rfl, hcrochet⟩ := coupe_unique heq hb₁ hb₁' (by simp [estBlanc]) (by simp [estBlanc])
  obtain ⟨-, hmarque⟩ := List.cons.inj hcrochet
  obtain ⟨rfl, hferme⟩ := List.cons.inj hmarque
  obtain ⟨-, hblancs⟩ := List.cons.inj hferme
  obtain ⟨rfl, hsection⟩ := coupe_unique hblancs hb₂ hb₂' (by simp [estBlanc]) (by simp [estBlanc])
  obtain ⟨-, hnombre⟩ := List.cons.inj hsection
  obtain ⟨rfl, -⟩ := coupe_unique hnombre h.chiffres h'.chiffres (hapres hfin) (hapres hfin')
  exact ⟨rfl, rfl, rfl⟩

theorem Contenu.court {e : List Char} (h : Contenu A (p ++ e) x d)
    (hw : ∀ c ∈ w, estBlanc c = true) (hq : ∀ c ∈ q.head?, c = '-') (heq : e ++ fin = w ++ q) :
    e = [] := by
  by_contra he
  obtain ⟨c, hc, hlettre⟩ := h.lettre he
  have hblanc : c ∉ w := fun hmem => by
    rw [hw c hmem] at hlettre
    cases hlettre
  rcases List.append_eq_append_iff.mp heq with ⟨f, hf, -⟩ | ⟨f, hf, hq'⟩
  · exact hblanc (hf ▸ List.mem_append_left f hc)
  · cases f with
    | nil =>
        rw [List.append_nil] at hf
        exact hblanc (hf ▸ hc)
    | cons g f =>
        have hg : g = '-' := hq g (by rw [hq']; rfl)
        refine h.sans_tiret (List.mem_append_right p ?_)
        rw [hf, hg]
        exact List.mem_append_right w List.mem_cons_self

theorem boite_of_occurrence (h : occurrence A.mot A.LIGNE_PLAN a cs = some o) :
    debutDeLigne a = true ∧ ∃ w r x d, cs = w ++ r ∧ (∀ c ∈ w, estBlanc c = true) ∧
      Boite A r x d o.fin ∧ o.groupes = [[x], d] := by
  obtain ⟨b, hcorrespond⟩ := correspond_of_occurrence h
  obtain ⟨i, hi, _, hr₀, hgroupes⟩ := mem_essais_cons.mp (mem_essais_of_correspond hcorrespond)
  obtain ⟨ha, rfl⟩ := mem_issues_debut.mp hi
  obtain ⟨i₁, hi₁, _, hr₁, rfl⟩ := mem_essais_cons.mp hr₀
  obtain ⟨hcs₁, hw, -⟩ := mem_issues_etoile.mp hi₁
  obtain ⟨i₂, hi₂, _, hr₂, rfl⟩ := mem_essais_cons.mp hr₁
  obtain ⟨c₂, hc₂, -, hcs₂, -⟩ := mem_issues_un.mp hi₂
  obtain ⟨i₃, hi₃, _, hr₃, rfl⟩ := mem_essais_cons.mp hr₂
  obtain ⟨hcs₃, hb, -⟩ := mem_issues_etoile.mp hi₃
  obtain ⟨i₄, hi₄, _, hr₄, rfl⟩ := mem_essais_cons.mp hr₃
  obtain ⟨c₄, hc₄, -, hcs₄, -⟩ := mem_issues_un.mp hi₄
  obtain ⟨i₅, hi₅, _, hr₅, rfl⟩ := mem_essais_cons.mp hr₄
  obtain ⟨x, hx, hx₅, hcs₅, -⟩ := mem_issues_un.mp hi₅
  obtain ⟨i₆, hi₆, _, hr₆, rfl⟩ := mem_essais_cons.mp hr₅
  obtain ⟨c₆, hc₆, -, hcs₆, -⟩ := mem_issues_un.mp hi₆
  obtain ⟨i₇, hi₇, _, hr₇, rfl⟩ := mem_essais_cons.mp hr₆
  obtain ⟨hcs₇, hb', -⟩ := mem_issues_etoile.mp hi₇
  obtain ⟨i₈, hi₈, _, hr₈, rfl⟩ := mem_essais_cons.mp hr₇
  obtain ⟨c₈, hc₈, -, hcs₈, -⟩ := mem_issues_un.mp hi₈
  obtain ⟨i₉, hi₉, _, hr₉, rfl⟩ := mem_essais_cons.mp hr₈
  obtain ⟨hd, hcs₉, hchiffres, havant⟩ := mem_issues_plus.mp hi₉
  obtain ⟨i₁₀, hi₁₀, _, hr₁₀, rfl⟩ := mem_essais_cons.mp hr₉
  obtain ⟨hlimite, rfl⟩ := mem_issues_limite.mp hi₁₀
  cases List.mem_singleton.mp hr₁₀
  simp only [if_false, if_true, Bool.false_eq_true, Prod.mk.injEq] at hgroupes
  obtain ⟨hgroupes, hfin⟩ := hgroupes
  have hapres : i₉.2.apres = o.fin := congrArg Place.apres hfin
  have hcontenu : Contenu A (i₃.1 ++ '[' :: x :: ']' :: (i₇.1 ++ '§' :: i₉.1)) x i₉.1 :=
    ⟨⟨i₃.1, i₇.1, rfl, hb, hb'⟩, hx, hd, hchiffres⟩
  refine ⟨ha, i₁.1, i₁.2.apres, x, i₉.1, hcs₁, hw,
    ⟨_, ?_, hcontenu, ?_⟩, by rw [← hgroupes, hx₅]⟩
  · rw [hcs₂, hcs₃, hcs₄, hcs₅, hcs₆, hcs₇, hcs₈, hcs₉, hapres, of_decide_eq_true hc₂,
      of_decide_eq_true hc₄, of_decide_eq_true hc₆, of_decide_eq_true hc₈]
    simp
  · rw [havant, hcontenu.dernier_mot, hapres] at hlimite
    exact (Bool.eq_false_iff.mpr (Ne.symm hlimite))

theorem Boite.unique (h : Boite A r x d fin) {r' : List Char} (h' : Boite A r' x' d' fin')
    {w' : List Char} (hw : ∀ c ∈ w, estBlanc c = true) (hw' : ∀ c ∈ w', estBlanc c = true)
    (heq : w ++ r = w' ++ r') : w = w' ∧ x = x' ∧ d = d' := by
  obtain ⟨k, rfl, hk, hfin⟩ := h
  obtain ⟨k', rfl, hk', hfin'⟩ := h'
  obtain ⟨rfl, hr⟩ := coupe_unique heq hw hw' (by simp [estBlanc]) (by simp [estBlanc])
  obtain ⟨rfl, rfl, -⟩ := hk.unique hk' hfin hfin' (List.cons.inj hr).2
  exact ⟨rfl, rfl, rfl⟩

theorem occurrence_of_boite (ha : debutDeLigne a = true) (hw : ∀ c ∈ w, estBlanc c = true)
    (h : Boite A r x d fin) :
    ∃ o, occurrence A.mot A.LIGNE_PLAN a (w ++ r) = some o ∧ o.groupes = [[x], d] := by
  have hmembre : essais A.mot A.LIGNE_PLAN ⟨a, w ++ r⟩ ≠ [] := by
    obtain ⟨k, rfl, hk, hfin⟩ := h
    obtain ⟨b, b', rfl, hb, hb'⟩ := hk.forme
    simp only [List.append_assoc, List.cons_append]
    refine List.ne_nil_of_mem (passe_debut ha (passe_etoile hw (passe_un (by rfl) (passe_etoile hb
      (passe_un (by rfl) (capture_un hk.marque (passe_un (by rfl) (passe_etoile hb'
        (passe_un (by rfl) (capture_plus hk.nombre hk.chiffres (passe_limite ?_
          (List.mem_singleton.mpr rfl))))))))))))
    rw [hk.dernier_mot, hfin]
    decide
  obtain ⟨issue, htete⟩ := Option.ne_none_iff_exists'.mp
    (mt List.head?_eq_none_iff.mp hmembre)
  have ho : occurrence A.mot A.LIGNE_PLAN a (w ++ r) = some ⟨w ++ r, issue.1, issue.2.apres⟩ := by
    rw [occurrence, correspond, htete]
    rfl
  refine ⟨_, ho, ?_⟩
  obtain ⟨-, w', r', x', d', heq, hw', hboite, hgroupes⟩ := boite_of_occurrence ho
  obtain ⟨-, rfl, rfl⟩ := h.unique hboite hw hw' heq
  exact hgroupes

/-- The characters that precede a place are, from the start of a line on, blanks. -/
def Tete (a : Option Char) (p : List Char) : Prop :=
  ∃ y w, p = y ++ w ∧ (∀ c ∈ w, estBlanc c = true) ∧ debutDeLigne (y.getLast?.or a) = true

/-- A box somewhere in the text, at the head of its line. -/
def Case (A : Alphabet) (a : Option Char) (cs : List Char) (x : Char) (d : List Char) : Prop :=
  ∃ p r fin, cs = p ++ r ∧ Tete a p ∧ Boite A r x d fin

theorem groupes_of_recouvre {y : List Char} {b : Option Char}
    (h : occurrence A.mot A.LIGNE_PLAN a cs = some o)
    (h' : occurrence A.mot A.LIGNE_PLAN b o'.debut = some o') (hy : cs = y ++ o'.debut)
    (hlong : o.fin.length < o'.debut.length) : o'.groupes = o.groupes := by
  obtain ⟨-, w, r, x, d, hcs, hw, hboite, hgroupes⟩ := boite_of_occurrence h
  obtain ⟨-, w', r', x', d', hcs', hw', hboite', hgroupes'⟩ := boite_of_occurrence h'
  rw [hcs, hcs'] at hy
  rw [hgroupes, hgroupes']
  rcases List.append_eq_append_iff.mp hy with ⟨e, rfl, hr⟩ | ⟨e, rfl, hr⟩
  · cases e with
    | nil =>
        obtain ⟨-, rfl, rfl⟩ := hboite.unique hboite' (w := []) nofun hw' hr
        rfl
    | cons g e =>
        -- the second match would start inside the first box
        obtain ⟨k, rfl, hk, -⟩ := hboite
        obtain ⟨k', rfl, -⟩ := hboite'
        obtain ⟨-, hsuite⟩ := List.cons.inj hr
        rw [hcs'] at hlong
        rcases List.append_eq_append_iff.mp hsuite with ⟨f, -, hf⟩ | ⟨f, rfl, hf⟩
        · rw [hf, List.length_append] at hlong
          omega
        · have hvide : f = [] := hk.court hw' (q := '-' :: (k' ++ o'.fin)) (by simp) hf.symm
          rw [hf, hvide] at hlong
          exact absurd hlong (Nat.lt_irrefl _)
  · have he : ∀ c ∈ e, estBlanc c = true := fun c hc => hw c (List.mem_append_right y hc)
    obtain ⟨-, rfl, rfl⟩ := hboite'.unique hboite hw' he hr
    rfl

theorem groupe_marque (h : o.groupes = [[x], d]) :
    (groupe o 0 = "x" ∨ groupe o 0 = "X") ↔ x = 'x' ∨ x = 'X' := by
  have hmarque : groupe o 0 = String.ofList [x] := by
    rw [groupe, h]
    rfl
  simp only [hmarque, ← String.toList_inj, String.toList_ofList]
  simp

theorem groupe_nombre (h : o.groupes = [[x], d]) : groupe o 1 = String.ofList d := by
  rw [groupe, h]
  rfl

theorem pairwise_groupes (A : Alphabet) (a : Option Char) (cs : List Char) :
    (occurrences A.mot A.LIGNE_PLAN a cs).Pairwise
      fun o o' => o.fin.length < o'.debut.length → o'.groupes = o.groupes := by
  refine (pairwise_occurrences A.mot A.LIGNE_PLAN a cs).imp_of_mem ?_
  rintro o o' ho - ⟨y, -, hy, h'⟩ hlong
  obtain ⟨_, -, -, h⟩ := mem_occurrences.mp ho
  exact groupes_of_recouvre h h' hy hlong

theorem mem_coches {t : String} : t ∈ A.coches a cs ↔
    ∃ x d, (x = 'x' ∨ x = 'X') ∧ Case A a cs x d ∧ t = String.ofList d := by
  rw [coches, finditer_eq]
  simp only [List.mem_map, List.mem_filter, Bool.or_eq_true, decide_eq_true_eq]
  constructor
  · rintro ⟨o, ⟨ho, hcoche⟩, rfl⟩
    obtain ⟨y, hy, -, h⟩ := mem_occurrences.mp (disjointes_subset ho)
    obtain ⟨ha, w, r, x, d, hcs, hw, hboite, hgroupes⟩ := boite_of_occurrence h
    refine ⟨x, d, (groupe_marque hgroupes).mp hcoche,
      ⟨y ++ w, r, o.fin, ?_, ⟨y, w, rfl, hw, ha⟩, hboite⟩, groupe_nombre hgroupes⟩
    rw [hy, hcs, List.append_assoc]
  · rintro ⟨x, d, hx, ⟨p, r, fin, rfl, ⟨y, w, rfl, hw, ha⟩, hboite⟩, rfl⟩
    obtain ⟨o, ho, hgroupes⟩ := occurrence_of_boite ha hw hboite
    have hdebut := debut_of_occurrence ho
    have hne : o.debut ≠ [] := by
      obtain ⟨k, rfl, -⟩ := hboite
      rw [hdebut]
      simp
    have hmem : o ∈ occurrences A.mot A.LIGNE_PLAN a (y ++ w ++ r) :=
      mem_occurrences.mpr ⟨y, by rw [hdebut, List.append_assoc], hne, by rwa [hdebut]⟩
    have hlong : o.debut.length ≤ (y ++ w ++ r).length := by
      rw [hdebut]
      simp only [List.length_append]
      omega
    obtain ⟨o', ho', hgroupes'⟩ := exists_disjointes (pairwise_groupes A a _) hmem hlong
    rw [hgroupes] at hgroupes'
    exact ⟨o', ⟨ho', (groupe_marque hgroupes').mpr hx⟩, groupe_nombre hgroupes'⟩

theorem tete_append (hc : p.getLast? = some c) (hlettre : estBlanc c = false) :
    Tete a (p ++ q) ↔ Tete (some c) q := by
  constructor
  · rintro ⟨y, w, heq, hw, hligne⟩
    rcases List.append_eq_append_iff.mp heq with ⟨e, rfl, rfl⟩ | ⟨e, rfl, rfl⟩
    · refine ⟨e, w, rfl, hw, ?_⟩
      rw [getLast?_append_or, hc, Option.some_or] at hligne
      exact hligne
    · cases e with
      | nil =>
          refine ⟨[], q, rfl, hw, ?_⟩
          rw [List.append_nil] at hc
          rw [hc] at hligne
          exact hligne
      | cons g e =>
          -- the letter would be one of the blanks
          have hmem : c ∈ (g :: e) ++ q := by
            refine List.mem_append_left q ?_
            rw [List.getLast?_append_of_ne_nil y (List.cons_ne_nil g e)] at hc
            exact List.mem_of_getLast? hc
          rw [hw c hmem] at hlettre
          cases hlettre
  · rintro ⟨y, w, rfl, hw, hligne⟩
    refine ⟨p ++ y, w, (List.append_assoc p y w).symm, hw, ?_⟩
    rw [getLast?_append_or, hc]
    exact hligne

theorem boite_append {suite : List Char} (hsuite : suite.head?.any A.mot = false) :
    (∃ fin, Boite A (r ++ suite) x d (fin ++ suite)) ↔ ∃ fin, Boite A r x d fin := by
  have hfin : ∀ fin : List Char, (fin ++ suite).head?.any A.mot = false ↔
      fin.head?.any A.mot = false := by
    intro fin
    cases fin with
    | nil => simp [hsuite]
    | cons e fin => simp
  constructor
  · rintro ⟨fin, k, heq, hk, hlimite⟩
    refine ⟨fin, k, ?_, hk, (hfin fin).mp hlimite⟩
    rw [← List.append_assoc, ← List.cons_append] at heq
    exact List.append_cancel_right heq
  · rintro ⟨fin, k, rfl, hk, hlimite⟩
    exact ⟨fin, k, by simp, hk, (hfin fin).mpr hlimite⟩

theorem case_append (hc : p.getLast? = some c) (hlettre : estBlanc c = false) (hne : w ≠ [])
    (hw : ∀ e ∈ w, estBlanc e = true) (hq : ∀ e ∈ q.head?, e = '-') :
    Case A a (p ++ (w ++ q)) x d ↔ Case A a p x d ∨ Case A (some c) (w ++ q) x d := by
  have hsuite : (w ++ q).head?.any A.mot = false := by
    obtain ⟨e, w, rfl⟩ := List.exists_cons_of_ne_nil hne
    exact A.mot_blanc e (hw e List.mem_cons_self)
  constructor
  · rintro ⟨p₁, r, fin, heq, htete, hboite⟩
    rcases List.append_eq_append_iff.mp heq with ⟨e, rfl, hr⟩ | ⟨e, rfl, rfl⟩
    · exact .inr ⟨e, r, fin, hr, (tete_append hc hlettre).mp htete, hboite⟩
    · refine .inl ⟨p₁, e, ?_⟩
      obtain ⟨k, hr, hk, hlimite⟩ := hboite
      cases e with
      | nil =>
          -- a blank is no dash
          obtain ⟨b, w, rfl⟩ := List.exists_cons_of_ne_nil hne
          rw [List.nil_append, List.cons_append] at hr
          have hblanc := hw b List.mem_cons_self
          rw [(List.cons.inj hr).1] at hblanc
          exact absurd hblanc (by decide)
      | cons g e =>
          obtain ⟨rfl, hr'⟩ := List.cons.inj hr
          have hcourt : ∃ f, fin = f ++ (w ++ q) := by
            rcases List.append_eq_append_iff.mp hr' with ⟨f, rfl, hf⟩ | ⟨f, -, hf⟩
            · have hvide := hk.court hw hq hf.symm
              rw [hvide] at hf
              exact ⟨[], hf.symm⟩
            · exact ⟨f, hf⟩
          obtain ⟨f, rfl⟩ := hcourt
          obtain ⟨fin, hboite⟩ := (boite_append hsuite).mp ⟨f, k, hr, hk, hlimite⟩
          exact ⟨fin, rfl, htete, hboite⟩
  · rintro (⟨p₁, r, fin, rfl, htete, hboite⟩ | ⟨e, r, fin, heq, htete, hboite⟩)
    · obtain ⟨f, hboite'⟩ := (boite_append hsuite).mpr ⟨fin, hboite⟩
      exact ⟨p₁, r ++ (w ++ q), f ++ (w ++ q), List.append_assoc _ _ _, htete, hboite'⟩
    · refine ⟨p ++ e, r, fin, ?_, (tete_append hc hlettre).mpr htete, hboite⟩
      rw [heq, List.append_assoc]

theorem append_tiret {u : List Char} (hw : '-' ∉ w) (hu : '-' ∉ u)
    (heq : w ++ '-' :: (u ++ q) = p ++ '-' :: r) :
    (p = w ∧ r = u ++ q) ∨ ∃ e, p = w ++ '-' :: (u ++ e) ∧ q = e ++ '-' :: r := by
  rcases List.append_eq_append_iff.mp heq with ⟨e, rfl, he⟩ | ⟨e, rfl, he⟩
  · cases e with
    | nil => exact .inl ⟨List.append_nil w, (List.cons.inj he).2.symm⟩
    | cons g e =>
        obtain ⟨rfl, hsuite⟩ := List.cons.inj he
        rcases List.append_eq_append_iff.mp hsuite with ⟨f, rfl, hf⟩ | ⟨f, rfl, hf⟩
        · exact .inr ⟨f, rfl, hf⟩
        · cases f with
          | nil => exact .inr ⟨[], by simp, hf.symm⟩
          | cons g f =>
              obtain ⟨rfl, -⟩ := List.cons.inj hf
              exact absurd (List.mem_append_right e List.mem_cons_self) hu
  · cases e with
    | nil => exact .inl ⟨(List.append_nil p).symm, (List.cons.inj he).2⟩
    | cons g e =>
        obtain ⟨rfl, -⟩ := List.cons.inj he
        exact absurd (List.mem_append_right p List.mem_cons_self) hw

theorem tete_cons {b : Option Char} (hb : debutDeLigne b = false) :
    Tete b (c :: q) ↔ Tete (some c) q := by
  constructor
  · rintro ⟨y, w, heq, hw, hligne⟩
    cases y with
    | nil =>
        rw [List.getLast?_nil, Option.none_or, hb] at hligne
        cases hligne
    | cons e y =>
        obtain ⟨rfl, rfl⟩ := List.cons.inj heq
        rw [← getLast?_or_cons] at hligne
        exact ⟨y, w, rfl, hw, hligne⟩
  · rintro ⟨y, w, rfl, hw, hligne⟩
    refine ⟨c :: y, w, rfl, hw, ?_⟩
    rw [← getLast?_or_cons]
    exact hligne

theorem case_ligne {t : List Char} (hw : '-' ∉ w) (htete : Tete a w) (hk : Contenu A k x' d') :
    Case A a (w ++ '-' :: (k ++ ' ' :: '—' :: ' ' :: t)) x d ↔
      (x = x' ∧ d = d') ∨ Case A (some ' ') t x d := by
  have hforme : ∀ e, w ++ '-' :: (k ++ ' ' :: '—' :: ' ' :: e) =
      (w ++ '-' :: (k ++ [' ', '—'])) ++ ' ' :: e := by
    intro e
    simp
  have hsuite : ∀ e, Tete a (w ++ '-' :: (k ++ ' ' :: '—' :: ' ' :: e)) ↔ Tete (some ' ') e := by
    intro e
    have hdernier : (w ++ '-' :: (k ++ [' ', '—'])).getLast? = some '—' := by
      simp [List.getLast?_append, List.getLast?_cons]
    rw [hforme e, tete_append hdernier (by decide), tete_cons (by decide)]
  have hespace : (' ' :: '—' :: ' ' :: t).head?.any A.mot = false := A.mot_blanc ' ' (by decide)
  constructor
  · rintro ⟨p, _, fin, heq, hp, ⟨k', rfl, hk', hlimite⟩⟩
    have hu : '-' ∉ k ++ [' ', '—'] := by
      simp [hk.sans_tiret]
    have heq' : w ++ '-' :: ((k ++ [' ', '—']) ++ ' ' :: t) = p ++ '-' :: (k' ++ fin) := by
      rw [← heq]
      simp
    rcases append_tiret hw hu heq' with ⟨-, hr⟩ | ⟨e, rfl, hr⟩
    · have hr' : k' ++ fin = k ++ (' ' :: '—' :: ' ' :: t) := by
        rw [hr]
        simp
      obtain ⟨rfl, rfl, -⟩ := hk'.unique hk hlimite hespace hr'
      exact .inl ⟨rfl, rfl⟩
    · cases e with
      | nil => cases (List.cons.inj hr).1
      | cons g e =>
          obtain ⟨rfl, rfl⟩ := List.cons.inj hr
          refine .inr ⟨e, _, fin, rfl, (hsuite e).mp ?_, k', rfl, hk', hlimite⟩
          simpa using hp
  · rintro (⟨rfl, rfl⟩ | ⟨e, r, fin, rfl, he, hboite⟩)
    · exact ⟨w, _, _, rfl, htete, k, rfl, hk, hespace⟩
    · exact ⟨_, r, fin, by simp, (hsuite e).mpr he, hboite⟩

def contenuDe (numeros : List Nat) (s : Section) : List Char :=
  ' ' :: '[' :: (if s.numero ∈ numeros then 'x' else ' ') :: ']' :: ' ' :: '§' ::
    (toString s.numero).toList

def ligneLue (numeros : List Nat) (s : Section) : List Char :=
  '-' :: (contenuDe numeros s ++ ' ' :: '—' :: ' ' :: universel s.titre.toList)

/-- The lines after the heading, each one after the end of the line before it. -/
def suiteLue (numeros : List Nat) : List Section → List Char
  | [] => ['\n']
  | s :: sections => '\n' :: (ligneLue numeros s ++ suiteLue numeros sections)

theorem chiffre_of_isDigit (hc : c.isDigit = true) : A.chiffre c = true := by
  rw [chiffre, A.chiffres.ascii c hc]
  rfl

theorem contenuDe_spec (A : Alphabet) (numeros : List Nat) (s : Section) :
    Contenu A (contenuDe numeros s) (if s.numero ∈ numeros then 'x' else ' ')
      (toString s.numero).toList where
  forme := ⟨[' '], [' '], rfl, List.all_iff_forall_prop.mp (by decide), List.all_iff_forall_prop.mp (by decide)⟩
  marque := by split <;> rfl
  nombre := by
    rw [Nat.toString_eq_repr, Nat.toList_repr]
    exact Nat.toDigits_ne_nil
  chiffres c hc := by
    rw [Nat.toString_eq_repr, Nat.toList_repr] at hc
    exact chiffre_of_isDigit (Nat.isDigit_of_mem_toDigits (by decide) (by decide) hc)

/-- A title that ends with a letter, as it is read. -/
def TitreFerme (s : Section) : Prop := ∃ t c, s.titre.toList = t ++ [c] ∧ estBlanc c = false

theorem TitreFerme.universel_append {s : Section} (h : TitreFerme s) (cs : List Char) :
    ∃ c, (universel s.titre.toList).getLast? = some c ∧ estBlanc c = false ∧
      universel (s.titre.toList ++ cs) = universel s.titre.toList ++ universel cs := by
  obtain ⟨t, c, ht, hc⟩ := h
  have hr : c ≠ '\r' := by
    rintro rfl
    exact absurd hc (by decide)
  have hn : c ≠ '\n' := by
    rintro rfl
    exact absurd hc (by decide)
  have htitre : universel (t ++ [c]) = universel t ++ [c] :=
    Texte.universel_append hr hn t []
  refine ⟨c, ?_, hc, ?_⟩
  · rw [ht, htitre]
    simp
  · rw [ht, htitre, List.append_assoc, List.append_assoc]
    exact Texte.universel_append hr hn t cs

theorem suiteLue_forme (numeros : List Nat) (sections : List Section) :
    ∃ q, suiteLue numeros sections = '\n' :: q ∧ ∀ e ∈ q.head?, e = '-' := by
  cases sections with
  | nil => exact ⟨[], rfl, nofun⟩
  | cons s sections => exact ⟨_, rfl, fun e he => (Option.some.inj he).symm⟩

theorem case_of_blancs (hcs : ∀ e ∈ cs, estBlanc e = true) : ¬ Case A a cs x d := by
  rintro ⟨p, r, fin, rfl, -, ⟨k, rfl, -⟩⟩
  exact absurd (hcs '-' (List.mem_append_right p List.mem_cons_self)) (by decide)

theorem case_suiteLue (numeros : List Nat) {sections : List Section}
    (hfermes : ∀ s ∈ sections, TitreFerme s) (hw : ∀ e ∈ w, estBlanc e = true) :
    Case A (some c) (w ++ suiteLue numeros sections) x d ↔ ∃ s ∈ sections,
      (x = (if s.numero ∈ numeros then 'x' else ' ') ∧ d = (toString s.numero).toList) ∨
        Case A (some ' ') (universel s.titre.toList) x d := by
  induction sections generalizing w c with
  | nil =>
      refine iff_of_false (case_of_blancs fun e he => ?_) (by simp)
      rcases List.mem_append.mp he with he | he
      · exact hw e he
      · rw [List.mem_singleton.mp he]
        rfl
  | cons s sections ih =>
      obtain ⟨e, hdernier, hlettre, -⟩ :=
        (hfermes s List.mem_cons_self).universel_append []
      have hblancs : ∀ e ∈ w ++ ['\n'], estBlanc e = true := by
        intro e he
        rcases List.mem_append.mp he with he | he
        · exact hw e he
        · rw [List.mem_singleton.mp he]
          rfl
      have htete : Tete (some c) (w ++ ['\n']) :=
        ⟨w ++ ['\n'], [], (List.append_nil _).symm, nofun, by simp [debutDeLigne]⟩
      have hsans : '-' ∉ w ++ ['\n'] := fun h => absurd (hblancs _ h) (by decide)
      obtain ⟨q, hq, hforme⟩ := suiteLue_forme numeros sections
      have hp : ((w ++ ['\n']) ++ ligneLue numeros s).getLast? = some e := by
        have hne : universel s.titre.toList ≠ [] := by
          intro hnil
          rw [hnil] at hdernier
          cases hdernier
        have hforme : (w ++ ['\n']) ++ ligneLue numeros s =
            ((w ++ ['\n']) ++ '-' :: (contenuDe numeros s ++ [' ', '—', ' '])) ++
              universel s.titre.toList := by
          rw [ligneLue]
          simp
        rw [hforme, List.getLast?_append_of_ne_nil _ hne, hdernier]
      have hcoupe : w ++ suiteLue numeros (s :: sections) =
          ((w ++ ['\n']) ++ ligneLue numeros s) ++ (['\n'] ++ q) := by
        rw [suiteLue, hq]
        simp
      have hligne := case_ligne (x := x) (d := d) (t := universel s.titre.toList) hsans htete
        (contenuDe_spec A numeros s)
      have hreste := @ih [] e (fun s hs => hfermes s (List.mem_cons_of_mem _ hs)) nofun
      rw [List.nil_append, hq] at hreste
      rw [hcoupe, case_append hp hlettre (by simp) (List.all_iff_forall_prop.mp (by decide)) hforme]
      simp only [List.exists_mem_cons_iff]
      exact or_congr hligne hreste

theorem universel_append_of_notMem {u : List Char} (hu : '\r' ∉ u) (v : List Char) :
    universel (u ++ v) = u ++ universel v := by
  induction u with
  | nil => rfl
  | cons c u ih =>
      rw [List.mem_cons, not_or] at hu
      rw [List.cons_append, universel_cons (Ne.symm hu.1), ih hu.2, List.cons_append]

theorem toList_lignePlan (numeros : List Nat) (s : Section) : (lignePlan numeros s).toList =
    '-' :: (contenuDe numeros s ++ [' ', '—', ' ']) ++ s.titre.toList := by
  unfold lignePlan contenuDe
  split <;> simp

theorem retour_notMem_contenuDe (numeros : List Nat) (s : Section) :
    '\r' ∉ '-' :: (contenuDe numeros s ++ [' ', '—', ' ']) := by
  have hchiffres : '\r' ∉ (toString s.numero).toList := by
    intro h
    rw [Nat.toString_eq_repr, Nat.toList_repr] at h
    exact absurd (Nat.isDigit_of_mem_toDigits (by decide) (by decide) h) (by decide)
  unfold contenuDe
  split <;> simpa using hchiffres

theorem universel_lignes (numeros : List Nat) {sections : List Section}
    (hfermes : ∀ s ∈ sections, TitreFerme s) :
    universel ((sections.flatMap fun s => '\n' :: (lignePlan numeros s).toList) ++ ['\n']) =
      suiteLue numeros sections := by
  induction sections with
  | nil => rfl
  | cons s sections ih =>
      obtain ⟨-, -, -, htitre⟩ := (hfermes s List.mem_cons_self).universel_append
        ((sections.flatMap fun s => '\n' :: (lignePlan numeros s).toList) ++ ['\n'])
      rw [List.flatMap_cons, List.cons_append, List.cons_append, List.append_assoc,
        universel_cons (by decide), toList_lignePlan, List.append_assoc,
        universel_append_of_notMem (retour_notMem_contenuDe numeros s), htitre,
        ih fun s hs => hfermes s (List.mem_cons_of_mem _ hs), suiteLue, ligneLue]
      simp

theorem intercalate_retour (premiere : List Char) (lignes : List (List Char)) :
    ['\n'].intercalate (premiere :: lignes) = premiere ++ lignes.flatMap ('\n' :: ·) := by
  induction lignes generalizing premiere with
  | nil => simp [List.intercalate]
  | cons ligne lignes ih =>
      have hsuite := ih ligne
      rw [List.flatMap_cons, List.cons_append, ← hsuite]
      simp [List.intercalate]

set_option maxRecDepth 20000 in
theorem enTete_forme : ∃ l, EN_TETE_PLAN = String.ofList l ∧
    l = l.dropLast.dropLast ++ ['\n', '\n'] ∧ l.dropLast.dropLast.getLast? = some '.' ∧
      '§' ∉ l.dropLast.dropLast ∧ '\r' ∉ l.dropLast.dropLast := ⟨_, rfl, by decide +kernel⟩

theorem case_of_notMem (hcs : '§' ∉ cs) : ¬ Case A a cs x d := by
  rintro ⟨p, r, fin, rfl, -, ⟨k, rfl, hk, -⟩⟩
  obtain ⟨b, b', rfl, -, -⟩ := hk.forme
  exact hcs (by simp)

theorem case_ecrirePlan {sections : List Section} (aConstruire : List Section)
    (hfermes : ∀ s ∈ sections, TitreFerme s) :
    Case A none (universel (ecrirePlan sections aConstruire).toList) x d ↔ ∃ s ∈ sections,
      (x = (if s.numero ∈ aConstruire.map Section.numero then 'x' else ' ') ∧
        d = (toString s.numero).toList) ∨
        Case A (some ' ') (universel s.titre.toList) x d := by
  obtain ⟨l, hl, hfin, hdernier, hsection, hretour⟩ := enTete_forme
  generalize l.dropLast.dropLast = debut at hfin hdernier hsection hretour
  set numeros := aConstruire.map Section.numero
  have hdebut : EN_TETE_PLAN.toList = debut ++ ['\n', '\n'] := by
    rw [hl, String.toList_ofList, hfin]
  have hlu : universel (ecrirePlan sections aConstruire).toList =
      debut ++ (['\n', '\n'] ++ suiteLue numeros sections) := by
    have hlignes : (ecrirePlan sections aConstruire).toList = debut ++ (['\n', '\n'] ++
        ((sections.flatMap fun s => '\n' :: (lignePlan numeros s).toList) ++ ['\n'])) := by
      have hretours : ("\n" : String).toList = ['\n'] := rfl
      rw [ecrirePlan, String.toList_append, String.toList_intercalate, hretours, List.map_cons,
        intercalate_retour, hdebut, List.map_map, List.flatMap_map]
      simp only [List.append_assoc]
      rfl
    rw [hlignes, universel_append_of_notMem hretour, universel_append_of_notMem (by decide),
      universel_lignes numeros hfermes]
  obtain ⟨q, hq, hforme⟩ := suiteLue_forme numeros sections
  have hreste := case_suiteLue (A := A) (c := '.') (x := x) (d := d) (w := ['\n', '\n']) numeros
    hfermes (List.all_iff_forall_prop.mp (by decide))
  rw [hq] at hreste
  rw [hlu, hq, show ['\n', '\n'] ++ '\n' :: q = ['\n', '\n', '\n'] ++ q from rfl,
    case_append hdernier (by decide) (by simp) (List.all_iff_forall_prop.mp (by decide)) hforme]
  exact (or_iff_right (case_of_notMem hsection)).trans hreste

theorem mem_coches_ecrirePlan {sections : List Section} (aConstruire : List Section)
    (hfermes : ∀ s ∈ sections, TitreFerme s) {t : String} :
    t ∈ A.coches none (universel (ecrirePlan sections aConstruire).toList) ↔ ∃ s ∈ sections,
      (s.numero ∈ aConstruire.map Section.numero ∧ t = toString s.numero) ∨
        t ∈ A.coches (some ' ') (universel s.titre.toList) := by
  simp only [mem_coches, case_ecrirePlan aConstruire hfermes]
  constructor
  · rintro ⟨x, d, hx, ⟨s, hs, ⟨hmarque, rfl⟩ | hcase⟩, rfl⟩
    · refine ⟨s, hs, .inl ⟨?_, String.ofList_toList⟩⟩
      by_contra hnon
      rw [hmarque, if_neg hnon] at hx
      exact absurd hx (by decide)
    · exact ⟨s, hs, .inr ⟨x, d, hx, hcase, rfl⟩⟩
  · rintro ⟨s, hs, ⟨hnumero, rfl⟩ | ⟨x, d, hx, hcase, rfl⟩⟩
    · exact ⟨'x', _, .inl rfl, ⟨s, hs, .inl ⟨(if_pos hnumero).symm, rfl⟩⟩,
        String.ofList_toList.symm⟩
    · exact ⟨x, d, hx, ⟨s, hs, .inr hcase⟩, rfl⟩

theorem corps_of_mem_nonVides {os : List Occurrence} {marque : Occurrence × String}
    (h : marque ∈ nonVides os) : marque.2 ≠ "" ∧ ∃ s, marque.2 = corpsDe marque.1 s := by
  induction os with
  | nil => cases h
  | cons o os ih =>
      rw [nonVides_cons, List.mem_append] at h
      rcases h with h | h
      · split at h
        · cases h
        · next hne =>
            cases List.mem_singleton.mp h
            exact ⟨hne, _, rfl⟩
      · exact ih h

theorem titreFerme_of_mem {texte : String} {s : Section} (h : s ∈ A.sectionsNumerotees texte) :
    TitreFerme s := by
  obtain ⟨marque, hmarque, rfl⟩ := List.mem_map.mp h
  obtain ⟨tete, v, t, ht⟩ := (enOrdre_titres texte).titres marque.1 (mem_of_mem_nonVides hmarque)
  obtain ⟨hcorps, suivante, hde⟩ := corps_of_mem_nonVides hmarque
  refine exists_of_strip fun hvide => ?_
  have hlettres : lettres t = 0 := by
    have htitre : (groupe marque.1 1).toList = t := by
      rw [groupe, String.toList_ofList, ht.groupe]
    have hstrip : strip (groupe marque.1 1) = "" := hvide
    rw [← htitre, ← lettres_strip, hstrip]
    rfl
  rcases ht.texte with ⟨-, -, hfin⟩ | hl
  · -- only blanks are left
    refine hcorps ?_
    rw [hde, corpsDe]
    refine strip_eq_empty (lettres_eq_zero.mpr fun c hc => ?_)
    rw [String.toList_ofList] at hc
    exact hfin c (List.mem_of_mem_take hc)
  · obtain ⟨c, hc, hlettre⟩ := hl.lettre
    obtain ⟨e, u, rfl⟩ := List.exists_cons_of_ne_nil hl.texte
    obtain ⟨w, hw, -⟩ := hl.suite
    rw [hw] at hc
    cases hc
    exact (lettres_pos List.mem_cons_self hlettre).ne' hlettres

theorem nombreDe_lt {ns : List Nat} (h : ∀ n ∈ ns, n < 10) (i : Nat) :
    ns.foldl (fun n d => 10 * n + d) i < (i + 1) * 10 ^ ns.length := by
  induction ns generalizing i with
  | nil => simp
  | cons n ns ih =>
      have hn := h n List.mem_cons_self
      have hsuite := ih (fun n hn => h n (List.mem_cons_of_mem _ hn)) (10 * i + n)
      calc (n :: ns).foldl (fun n d => 10 * n + d) i
          < (10 * i + n + 1) * 10 ^ ns.length := hsuite
        _ ≤ ((i + 1) * 10) * 10 ^ ns.length := Nat.mul_le_mul_right _ (by omega)
        _ = (i + 1) * 10 ^ (n :: ns).length := by
            rw [List.length_cons, Nat.pow_succ', Nat.mul_assoc]

theorem valeurDe_lt (A : Alphabet) (d : List Char) :
    A.valeurDe (String.ofList d) < 10 ^ d.length := by
  rw [valeurDe, String.toList_ofList]
  have hchiffres : ∀ n ∈ d.filterMap A.chiffres.valeur, n < 10 := by
    intro n hn
    obtain ⟨c, -, hc⟩ := List.mem_filterMap.mp hn
    exact A.valeur_lt c n hc
  have hborne := nombreDe_lt hchiffres 0
  rw [Nat.zero_add, Nat.one_mul] at hborne
  exact lt_of_lt_of_le hborne (Nat.pow_le_pow_right (by decide) (List.length_filterMap_le _ _))

theorem filterMap_valeur {l : List Char} (h : ∀ c ∈ l, c.isDigit = true) (i : Nat) :
    (l.filterMap A.chiffres.valeur).foldl (fun n d => 10 * n + d) i = Nat.ofDigitChars 10 l i := by
  induction l generalizing i with
  | nil => rfl
  | cons c l ih =>
      rw [List.filterMap_cons_some (A.chiffres.ascii c (h c List.mem_cons_self)), List.foldl_cons,
        ih fun c hc => h c (List.mem_cons_of_mem _ hc), Nat.ofDigitChars_cons]

theorem entier_toString (A : Alphabet) {n : Nat} (hn : n < 10 ^ LIMITE_DE_CHIFFRES) :
    A.entier (toString n) = some n := by
  have hchiffres : ∀ c ∈ Nat.toDigits 10 n, c.isDigit = true :=
    fun c hc => Nat.isDigit_of_mem_toDigits (by decide) (by decide) hc
  have hlong : (Nat.toDigits 10 n).length ≤ LIMITE_DE_CHIFFRES :=
    (Nat.length_toDigits_le_iff (by decide) (by decide)).mpr hn
  rw [Nat.toString_eq_ofList_toDigits, entier_eq Nat.toDigits_ne_nil
    fun c hc => chiffre_of_isDigit (hchiffres c hc), if_pos hlong, valeurDe, String.toList_ofList,
    nombreDe, filterMap_valeur hchiffres, Nat.ofDigitChars_ten_toDigits]

theorem mapM_eq_some_iff {α β : Type} {f : α → Option β} {l : List α} {ns : List β} :
    l.mapM f = some ns ↔ List.Forall₂ (fun t n => f t = some n) l ns := by
  induction l generalizing ns with
  | nil =>
      rw [List.mapM_nil, List.forall₂_nil_left_iff]
      exact ⟨fun h => (Option.some.inj h).symm, fun h => congrArg some h.symm⟩
  | cons t l ih =>
      rw [List.mapM_cons, List.forall₂_cons_left_iff]
      constructor
      · intro h
        obtain ⟨n, hn, hsuite⟩ := Option.bind_eq_some_iff.mp h
        obtain ⟨ns', hns', heq⟩ := Option.bind_eq_some_iff.mp hsuite
        exact ⟨n, ns', hn, ih.mp hns', (Option.some.inj heq).symm⟩
      · rintro ⟨n, ns', hn, hns', rfl⟩
        rw [hn, ih.mpr hns']
        rfl

theorem numero_lt {texte : String}
    (h : ∀ marque ∈ nonVides (A.titres texte), (groupe marque.1 0).length ≤ LIMITE_DE_CHIFFRES)
    {s : Section} (hs : s ∈ A.sectionsNumerotees texte) : s.numero < 10 ^ LIMITE_DE_CHIFFRES := by
  obtain ⟨marque, hmarque, rfl⟩ := List.mem_map.mp hs
  have hlong := h marque hmarque
  rw [groupe, String.length_ofList] at hlong
  exact lt_of_lt_of_le (valeurDe_lt A _) (Nat.pow_le_pow_right (by decide) hlong)

theorem titresSurs_of_plan {sections : List Section} (hfermes : ∀ s ∈ sections, TitreFerme s)
    {numeros : List Nat} (hlus : A.lirePlan (some (ecrirePlan sections [])) = some (some numeros))
    (hvide : numeros = []) : ∀ s ∈ sections, A.coches (some ' ') (universel s.titre.toList) = [] := by
  intro s hs
  rw [List.eq_nil_iff_forall_not_mem]
  intro t ht
  have hcoche := (mem_coches_ecrirePlan (A := A) (t := t) [] hfermes).mpr ⟨s, hs, .inr ht⟩
  rw [hvide, lirePlan, Option.map_eq_some_iff] at hlus
  obtain ⟨_, hentiers, heq⟩ := hlus
  cases heq
  rw [List.forall₂_nil_right_iff.mp (mapM_eq_some_iff.mp hentiers)] at hcoche
  cases hcoche

/-- Cutting gives the numbered sections, and every plan of them is read as it was meant, exactly
when the text is readable. -/
theorem fidele_iff_lisible (A : Alphabet) (texte : String) : A.Fidele texte ↔ A.Lisible texte := by
  constructor
  · rintro ⟨_, hdecoupe, rfl, hplan⟩
    obtain ⟨hentiers, hnombres⟩ := (decouper_fidele_iff texte).mp hdecoupe
    obtain ⟨numeros, hlus, hmembres⟩ := hplan [] (List.nil_sublist _)
    have hvide : numeros = [] := by
      rw [List.eq_nil_iff_forall_not_mem]
      exact fun n hn => absurd ((hmembres n).mp hn) List.not_mem_nil
    exact ⟨hentiers, hnombres, titresSurs_of_plan (fun s hs => titreFerme_of_mem hs) hlus hvide⟩
  · rintro ⟨hentiers, hnombres, hsurs⟩
    refine ⟨_, (decouper_fidele_iff texte).mpr ⟨hentiers, hnombres⟩, rfl, ?_⟩
    intro aConstruire hsous
    have hcoches : ∀ t, t ∈ A.coches none
        (universel (ecrirePlan (A.sectionsNumerotees texte) aConstruire).toList) ↔
        ∃ n ∈ aConstruire.map Section.numero, t = toString n := by
      intro t
      rw [mem_coches_ecrirePlan aConstruire fun s hs => titreFerme_of_mem hs]
      constructor
      · rintro ⟨s, hs, ⟨hn, rfl⟩ | ht⟩
        · exact ⟨s.numero, hn, rfl⟩
        · rw [hsurs s hs] at ht
          cases ht
      · rintro ⟨n, hn, rfl⟩
        obtain ⟨s, hs, rfl⟩ := List.mem_map.mp hn
        exact ⟨s, hsous.subset hs, .inl ⟨hn, rfl⟩⟩
    have hnumeros : ∀ n ∈ aConstruire.map Section.numero, A.entier (toString n) = some n := by
      intro n hn
      obtain ⟨s, hs, rfl⟩ := List.mem_map.mp hn
      exact entier_toString A (numero_lt hnombres (hsous.subset hs))
    simp only [lirePlan]
    generalize A.coches none _ = textes at hcoches ⊢
    have hlus : textes.mapM A.entier = some (textes.map fun t => (A.entier t).getD 0) := by
      rw [mapM_eq_some_iff, List.forall₂_map_right_iff]
      refine List.forall₂_same.mpr fun t ht => ?_
      obtain ⟨n, hn, rfl⟩ := (hcoches t).mp ht
      rw [hnumeros n hn]
      rfl
    refine ⟨_, by rw [hlus]; rfl, fun n => ?_⟩
    rw [List.mem_map]
    constructor
    · rintro ⟨t, ht, rfl⟩
      obtain ⟨n, hn, rfl⟩ := (hcoches t).mp ht
      rwa [hnumeros n hn]
    · intro hn
      refine ⟨toString n, (hcoches _).mpr ⟨n, hn, rfl⟩, ?_⟩
      rw [hnumeros n hn]
      rfl

/-- A title without a text takes the next one for its own, and a title can hold a box. -/
theorem cahier_infidele : ¬ usuel.Fidele "# 5.\n# 6. FOO\nbody" ∧
    ¬ usuel.Fidele "# 1. a\r- [x] §7\nfoo" := by
  constructor
  · rintro ⟨_, hdecoupe, rfl, -⟩
    have hfaux : usuel.decouper "# 5.\n# 6. FOO\nbody" ≠
        some (usuel.sectionsNumerotees "# 5.\n# 6. FOO\nbody") := by decide +kernel
    exact hfaux hdecoupe
  · rintro ⟨_, hdecoupe, -, hplan⟩
    have hsections : usuel.decouper "# 1. a\r- [x] §7\nfoo" =
        some [⟨1, "a\r- [x] §7", "foo"⟩] := by decide +kernel
    cases hsections.symm.trans hdecoupe
    obtain ⟨numeros, hlus, hmembres⟩ := hplan [] (List.nil_sublist _)
    have hvide : numeros = [] := by
      rw [List.eq_nil_iff_forall_not_mem]
      exact fun n hn => absurd ((hmembres n).mp hn) List.not_mem_nil
    have hfermes : ∀ s ∈ [(⟨1, "a\r- [x] §7", "foo"⟩ : Section)], TitreFerme s := by
      intro s hs
      cases List.mem_singleton.mp hs
      exact ⟨"a\r- [x] §".toList, '7', by decide, by decide⟩
    have hsept : usuel.coches (some ' ') (universel "a\r- [x] §7".toList) ≠ [] := by
      decide +kernel
    exact hsept (titresSurs_of_plan hfermes hlus hvide _ List.mem_cons_self)

end Hermes.Programme.Alphabet
