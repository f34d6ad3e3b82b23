import Mathlib.Data.List.Basic
import Mathlib.Data.List.Infix
import Mathlib.Data.List.TakeWhile

/-! # Regular expressions, by backtracking

A pattern is a sequence of repeated classes and of anchors, some of them captured. A place of the
text is what precedes it and what follows it.
-/

namespace Hermes.Lib.Expression

structure Place where
  avant : Option Char := none
  apres : List Char
  deriving DecidableEq

inductive Atome where
  | un (p : Char → Bool)
  | etoile (p : Char → Bool)
  | plus (p : Char → Bool)
  | plusPeu (p : Char → Bool)
  | debut
  | fin
  | limite

/-- The pieces of a pattern, with true for those of the groups. -/
abbrev Patron := List (Bool × Atome)

abbrev Issue := List Char × Place

def ajouter (c : Char) (issue : Issue) : Issue := (c :: issue.1, issue.2)

def gloutonne (p : Char → Bool) : Option Char → List Char → List Issue
  | a, [] => [([], ⟨a, []⟩)]
  | a, c :: cs =>
      (if p c then (gloutonne p (some c) cs).map (ajouter c) else []) ++ [([], ⟨a, c :: cs⟩)]

def paresseuse (p : Char → Bool) : Option Char → List Char → List Issue
  | a, [] => [([], ⟨a, []⟩)]
  | a, c :: cs =>
      ([], ⟨a, c :: cs⟩) :: if p c then (paresseuse p (some c) cs).map (ajouter c) else []

/-- One character, and what the repetition makes of the rest. -/
def unPuis (p : Char → Bool) (suite : Option Char → List Char → List Issue) :
    List Char → List Issue
  | [] => []
  | c :: cs => if p c then (suite (some c) cs).map (ajouter c) else []

def debutDeLigne (avant : Option Char) : Bool := avant = none || avant = some '\n'

def finDeLigne (apres : List Char) : Bool := apres = [] || apres.head? = some '\n'

section Recherche

variable (mot : Char → Bool)

def issues : Atome → Place → List Issue
  | .un p, pl => unPuis p (fun a cs => [([], ⟨a, cs⟩)]) pl.apres
  | .etoile p, pl => gloutonne p pl.avant pl.apres
  | .plus p, pl => unPuis p (gloutonne p) pl.apres
  | .plusPeu p, pl => unPuis p (paresseuse p) pl.apres
  | .debut, pl => if debutDeLigne pl.avant then [([], pl)] else []
  | .fin, pl => if finDeLigne pl.apres then [([], pl)] else []
  | .limite, pl => if pl.avant.any mot != pl.apres.head?.any mot then [([], pl)] else []

def essais : Patron → Place → List (List (List Char) × Place)
  | [], pl => [([], pl)]
  | (groupe, atome) :: m, pl =>
      (issues mot atome pl).flatMap fun issue =>
        (essais m issue.2).map fun r => (if groupe then issue.1 :: r.1 else r.1, r.2)

/-- `re.match` at a place. -/
def correspond (m : Patron) (pl : Place) : Option (List (List Char) × Place) :=
  (essais mot m pl).head?

/-- A match: the text from its start on, its groups, and the text after its end. -/
structure Occurrence where
  debut : List Char
  groupes : List (List Char)
  fin : List Char
  deriving DecidableEq

def occurrence (m : Patron) (a : Option Char) (cs : List Char) : Option Occurrence :=
  (correspond mot m ⟨a, cs⟩).map fun r => ⟨cs, r.1, r.2.apres⟩

/-- The matches of all the places, those that overlap included. -/
def occurrences (m : Patron) : Option Char → List Char → List Occurrence
  | _, [] => []
  | a, c :: cs => (occurrence mot m a (c :: cs)).toList ++ occurrences m (some c) cs

/-- `re.finditer`: the places inside the last match are passed over. -/
def finditer (m : Patron) : Option Char → List Char → Nat → List Occurrence
  | _, [], _ => []
  | a, c :: cs, libre =>
      if libre < (c :: cs).length then finditer m (some c) cs libre
      else
        match occurrence mot m a (c :: cs) with
        | none => finditer m (some c) cs libre
        | some o => o :: finditer m (some c) cs o.fin.length

def trouver (m : Patron) (texte : List Char) : List Occurrence :=
  finditer mot m none texte texte.length

end Recherche

section Repetitions

variable {p : Char → Bool} {a : Option Char} {cs u v t : List Char} {pl : Place}

theorem mem_gloutonne : (t, pl) ∈ gloutonne p a cs ↔
    cs = t ++ pl.apres ∧ (∀ c ∈ t, p c = true) ∧ pl.avant = t.getLast?.or a := by
  induction cs generalizing a t with
  | nil =>
      simp only [gloutonne, List.mem_singleton, Prod.mk.injEq]
      constructor
      · rintro ⟨rfl, rfl⟩
        simp
      · rintro ⟨h, -, havant⟩
        obtain ⟨rfl, hapres⟩ := List.append_eq_nil_iff.mp h.symm
        obtain ⟨avant, apres⟩ := pl
        cases hapres
        cases havant
        exact ⟨rfl, rfl⟩
  | cons c cs ih =>
      simp only [gloutonne, List.mem_append, List.mem_singleton, Prod.mk.injEq]
      constructor
      · rintro (h | ⟨rfl, rfl⟩)
        · split at h
          · next hc =>
              obtain ⟨i, hi, heq⟩ := List.mem_map.mp h
              cases heq
              obtain ⟨hcs, hp, havant⟩ := ih.mp hi
              refine ⟨by rw [List.cons_append, ← hcs], ?_, ?_⟩
              · rintro x (- | ⟨-, hx⟩)
                · exact hc
                · exact hp x hx
              · rw [havant]
                cases i.1 <;> simp [List.getLast?_cons]
          · cases h
        · simp
      · rintro ⟨hcs, hp, havant⟩
        cases t with
        | nil =>
            refine .inr ⟨rfl, ?_⟩
            obtain ⟨avant, apres⟩ := pl
            cases hcs
            cases havant
            rfl
        | cons x t =>
            obtain ⟨rfl, rfl⟩ := List.cons.inj hcs
            rw [if_pos (hp c List.mem_cons_self)]
            refine .inl (List.mem_map.mpr ⟨(t, pl), ih.mpr ⟨rfl, fun y hy =>
              hp y (List.mem_cons_of_mem _ hy), ?_⟩, rfl⟩)
            rw [havant]
            cases t <;> simp [List.getLast?_cons]

theorem mem_paresseuse : (t, pl) ∈ paresseuse p a cs ↔ (t, pl) ∈ gloutonne p a cs := by
  induction cs generalizing a t pl with
  | nil => rfl
  | cons c cs ih =>
      simp only [paresseuse, gloutonne, List.mem_append, List.mem_singleton]
      rw [List.mem_cons, or_comm]
      refine or_congr_left ?_
      split
      · simp only [List.mem_map]
        exact ⟨fun ⟨(t, pl), hi, h⟩ => ⟨(t, pl), ih.mp hi, h⟩,
          fun ⟨(t, pl), hi, h⟩ => ⟨(t, pl), ih.mpr hi, h⟩⟩
      · rfl

theorem getLast?_or_cons (c : Char) (u : List Char) (a : Option Char) :
    u.getLast?.or (some c) = (c :: u).getLast?.or a := by
  cases u <;> simp [List.getLast?_cons]

theorem flatMap_gloutonne {β : Type} {K : Issue → List β} (hu : ∀ c ∈ u, p c = true)
    (hv : ∀ c ∈ v.head?, p c = false)
    (hK : ∀ t b c cs, p c = true → K (t, ⟨b, c :: cs⟩) = []) :
    (gloutonne p a (u ++ v)).flatMap K = K (u, ⟨u.getLast?.or a, v⟩) := by
  induction u generalizing a K with
  | nil =>
      cases v with
      | nil => simp [gloutonne]
      | cons c cs => simp [gloutonne, hv c rfl]
  | cons c u ih =>
      have hc := hu c List.mem_cons_self
      have hsuite := @ih (some c) (fun i => K (ajouter c i)) (fun x hx =>
        hu x (List.mem_cons_of_mem _ hx)) fun t b x cs hx => hK (c :: t) b x cs hx
      rw [List.cons_append, gloutonne, if_pos hc, List.flatMap_append, List.flatMap_map, hsuite,
        List.flatMap_singleton, hK [] a c _ hc, List.append_nil, getLast?_or_cons c u a]
      rfl

theorem head?_flatMap_gloutonne {β : Type} {K : Issue → List β} (hu : ∀ c ∈ u, p c = true)
    (hv : ∀ c ∈ v.head?, p c = false) (hK : K (u, ⟨u.getLast?.or a, v⟩) ≠ []) :
    ((gloutonne p a (u ++ v)).flatMap K).head? = (K (u, ⟨u.getLast?.or a, v⟩)).head? := by
  induction u generalizing a K with
  | nil =>
      cases v with
      | nil => simp [gloutonne]
      | cons c cs => simp [gloutonne, hv c rfl]
  | cons c u ih =>
      have hc := hu c List.mem_cons_self
      rw [← getLast?_or_cons c u a] at hK ⊢
      have hsuite := @ih (some c) (fun i => K (ajouter c i)) (fun x hx =>
        hu x (List.mem_cons_of_mem _ hx)) hK
      have hnon : ((gloutonne p (some c) (u ++ v)).flatMap fun i => K (ajouter c i)) ≠ [] := by
        intro hnil
        rw [hnil] at hsuite
        exact hK (List.head?_eq_none_iff.mp hsuite.symm)
      rw [List.cons_append, gloutonne, if_pos hc, List.flatMap_append, List.flatMap_map,
        List.head?_append_of_ne_nil _ hnon, hsuite]
      rfl

end Repetitions

section Pieces

variable {mot : Char → Bool} {p : Char → Bool} {a : Option Char} {c : Char} {cs u v : List Char}
  {pl : Place} {m : Patron} {groupe : Bool} {atome : Atome} {r : List (List Char) × Place}

theorem mem_essais_cons : r ∈ essais mot ((groupe, atome) :: m) pl ↔
    ∃ i ∈ issues mot atome pl, ∃ r' ∈ essais mot m i.2,
      (if groupe then i.1 :: r'.1 else r'.1, r'.2) = r := by
  simp only [essais, List.mem_flatMap, List.mem_map]

theorem mem_essais_of_correspond (h : correspond mot m pl = some r) : r ∈ essais mot m pl :=
  List.mem_of_mem_head? h

theorem mem_issues_un {i : Issue} : i ∈ issues mot (.un p) pl ↔
    ∃ c, p c = true ∧ i.1 = [c] ∧ pl.apres = c :: i.2.apres ∧ i.2.avant = some c := by
  obtain ⟨avant, apres⟩ := pl
  obtain ⟨t, avant', apres'⟩ := i
  cases apres with
  | nil => simp [issues, unPuis]
  | cons c cs =>
      simp only [issues, unPuis, List.map_singleton, ajouter]
      split
      · next hc =>
          simp only [List.mem_singleton, Prod.mk.injEq, Place.mk.injEq, List.cons.injEq]
          constructor
          · rintro ⟨rfl, rfl, rfl⟩
            exact ⟨c, hc, rfl, ⟨rfl, rfl⟩, rfl⟩
          · rintro ⟨x, -, ht, ⟨rfl, rfl⟩, havant⟩
            exact ⟨ht, havant, rfl⟩
      · next hc =>
          simp only [List.not_mem_nil, List.cons.injEq, false_iff, not_exists]
          rintro x ⟨hx, -, ⟨rfl, -⟩, -⟩
          exact hc hx

theorem mem_issues_etoile {i : Issue} : i ∈ issues mot (.etoile p) pl ↔
    pl.apres = i.1 ++ i.2.apres ∧ (∀ c ∈ i.1, p c = true) ∧
      i.2.avant = i.1.getLast?.or pl.avant := mem_gloutonne

theorem mem_unPuis {suite : Option Char → List Char → List Issue} {i : Issue}
    (hsuite : ∀ b cs i, i ∈ suite b cs ↔ i ∈ gloutonne p b cs) (a : Option Char) :
    i ∈ unPuis p suite cs ↔ i.1 ≠ [] ∧ cs = i.1 ++ i.2.apres ∧ (∀ c ∈ i.1, p c = true) ∧
      i.2.avant = i.1.getLast?.or a := by
  cases cs with
  | nil =>
      simp only [unPuis, List.not_mem_nil, false_iff, not_and]
      rintro hne h
      exact absurd (List.append_eq_nil_iff.mp h.symm).1 hne
  | cons c cs =>
      obtain ⟨t, pl⟩ := i
      have hgloutonne : (t, pl) ∈ unPuis p suite (c :: cs) ↔
          t ≠ [] ∧ (t, pl) ∈ gloutonne p a (c :: cs) := by
        simp only [unPuis, gloutonne, List.mem_append, List.mem_singleton]
        split
        · next hc =>
            simp only [List.mem_map, hsuite]
            constructor
            · rintro ⟨i, hi, heq⟩
              cases heq
              exact ⟨List.cons_ne_nil _ _, .inl ⟨i, hi, rfl⟩⟩
            · rintro ⟨hne, h | h⟩
              · exact h
              · cases h
                exact absurd rfl hne
        · next hc =>
            simp only [List.not_mem_nil, false_or, false_iff, not_and]
            intro hne h
            cases h
            exact hne rfl
      rw [hgloutonne, mem_gloutonne]

theorem mem_issues_plus {i : Issue} : i ∈ issues mot (.plus p) pl ↔ i.1 ≠ [] ∧
    pl.apres = i.1 ++ i.2.apres ∧ (∀ c ∈ i.1, p c = true) ∧
      i.2.avant = i.1.getLast?.or pl.avant := mem_unPuis (fun _ _ _ => Iff.rfl) pl.avant

theorem mem_issues_plusPeu {i : Issue} : i ∈ issues mot (.plusPeu p) pl ↔ i.1 ≠ [] ∧
    pl.apres = i.1 ++ i.2.apres ∧ (∀ c ∈ i.1, p c = true) ∧
      i.2.avant = i.1.getLast?.or pl.avant := mem_unPuis (fun _ _ _ => mem_paresseuse) pl.avant

theorem mem_issues_debut {i : Issue} : i ∈ issues mot .debut pl ↔
    debutDeLigne pl.avant = true ∧ i = ([], pl) := by
  simp only [issues]
  split <;> simp_all

theorem mem_issues_fin {i : Issue} : i ∈ issues mot .fin pl ↔
    finDeLigne pl.apres = true ∧ i = ([], pl) := by
  simp only [issues]
  split <;> simp_all

theorem mem_issues_limite {i : Issue} : i ∈ issues mot .limite pl ↔
    pl.avant.any mot ≠ pl.apres.head?.any mot ∧ i = ([], pl) := by
  simp only [issues, bne_iff_ne]
  split <;> simp_all

theorem exists_coupe (p : Char → Bool) (cs : List Char) : ∃ u v, cs = u ++ v ∧
    (∀ c ∈ u, p c = true) ∧ ∀ c ∈ v.head?, p c = false := by
  refine ⟨cs.takeWhile p, cs.dropWhile p, List.takeWhile_append_dropWhile.symm,
    fun c hc => List.mem_takeWhile_imp hc, fun c hc => ?_⟩
  have hhead := List.head?_dropWhile_not p cs
  rw [Option.mem_def.mp hc] at hhead
  exact hhead

theorem suffix_of_mem_issues {i : Issue} (h : i ∈ issues mot atome pl) :
    i.2.apres <:+ pl.apres := by
  cases atome with
  | un p =>
      obtain ⟨c, -, -, happres, -⟩ := mem_issues_un.mp h
      exact ⟨[c], happres.symm⟩
  | etoile p => exact ⟨_, (mem_issues_etoile.mp h).1.symm⟩
  | plus p => exact ⟨_, (mem_issues_plus.mp h).2.1.symm⟩
  | plusPeu p => exact ⟨_, (mem_issues_plusPeu.mp h).2.1.symm⟩
  | debut =>
      obtain ⟨-, rfl⟩ := mem_issues_debut.mp h
      exact List.suffix_rfl
  | fin =>
      obtain ⟨-, rfl⟩ := mem_issues_fin.mp h
      exact List.suffix_rfl
  | limite =>
      obtain ⟨-, rfl⟩ := mem_issues_limite.mp h
      exact List.suffix_rfl

theorem suffix_of_mem_essais (h : r ∈ essais mot m pl) : r.2.apres <:+ pl.apres := by
  induction m generalizing pl r with
  | nil =>
      cases List.mem_singleton.mp h
      exact List.suffix_rfl
  | cons piece m ih =>
      obtain ⟨i, hi, r', hr', rfl⟩ := mem_essais_cons.mp h
      exact (ih hr').trans (suffix_of_mem_issues hi)

theorem essais_debut (ha : debutDeLigne a = true) (cs : List Char) (m : Patron) :
    essais mot ((false, .debut) :: m) ⟨a, cs⟩ = essais mot m ⟨a, cs⟩ := by
  simp [essais, issues, ha]

theorem essais_un (hc : p c = true) (a : Option Char) (cs : List Char) (m : Patron) :
    essais mot ((false, .un p) :: m) ⟨a, c :: cs⟩ = essais mot m ⟨some c, cs⟩ := by
  simp [essais, issues, unPuis, hc, ajouter]

theorem essais_un_refus (hc : ∀ c ∈ pl.apres.head?, p c = false) :
    essais mot ((groupe, .un p) :: m) pl = [] := by
  obtain ⟨a, cs⟩ := pl
  cases cs with
  | nil => rfl
  | cons c cs => simp [essais, issues, unPuis, hc c rfl]

theorem essais_plus_refus (hc : ∀ c ∈ pl.apres.head?, p c = false) :
    essais mot ((groupe, .plus p) :: m) pl = [] := by
  obtain ⟨a, cs⟩ := pl
  cases cs with
  | nil => rfl
  | cons c cs => simp [essais, issues, unPuis, hc c rfl]

theorem unPuis_gloutonne (hc : p c = true) : unPuis p (gloutonne p) (c :: cs) =
    (gloutonne p (some c) cs).map (ajouter c) := if_pos hc

theorem getLast?_append_or (v w : List Char) (a : Option Char) :
    (v ++ w).getLast?.or a = w.getLast?.or (v.getLast?.or a) := by
  rw [List.getLast?_append, Option.or_assoc]

theorem essais_plus (hne : u ≠ []) (hu : ∀ c ∈ u, p c = true) (hv : ∀ c ∈ v.head?, p c = false)
    (hrefus : ∀ b c cs, p c = true → essais mot m ⟨b, c :: cs⟩ = []) (a : Option Char)
    (groupe : Bool) : essais mot ((groupe, .plus p) :: m) ⟨a, u ++ v⟩ =
      (essais mot m ⟨u.getLast?.or a, v⟩).map
        fun r => (if groupe then u :: r.1 else r.1, r.2) := by
  cases u with
  | nil => exact absurd rfl hne
  | cons c u =>
      have hu' : ∀ x ∈ u, p x = true := fun x hx => hu x (List.mem_cons_of_mem _ hx)
      rw [essais, issues, List.cons_append, unPuis_gloutonne (hu c List.mem_cons_self),
        List.flatMap_map, flatMap_gloutonne hu' hv, getLast?_or_cons c u a]
      · rfl
      · intro t b x xs hx
        simp only [ajouter, hrefus b x xs hx, List.map_nil]

theorem head?_essais_plus (hne : u ≠ []) (hu : ∀ c ∈ u, p c = true)
    (hv : ∀ c ∈ v.head?, p c = false) (a : Option Char)
    (hsuite : essais mot m ⟨u.getLast?.or a, v⟩ ≠ []) :
    correspond mot ((false, .plus p) :: m) ⟨a, u ++ v⟩ =
      correspond mot m ⟨u.getLast?.or a, v⟩ := by
  cases u with
  | nil => exact absurd rfl hne
  | cons c u =>
      have hu' : ∀ x ∈ u, p x = true := fun x hx => hu x (List.mem_cons_of_mem _ hx)
      rw [← getLast?_or_cons c u a] at hsuite ⊢
      rw [correspond, essais, issues, List.cons_append, unPuis_gloutonne (hu c List.mem_cons_self),
        List.flatMap_map, head?_flatMap_gloutonne hu' hv]
      · simp [correspond, ajouter]
      · simpa [ajouter] using hsuite

theorem passe_debut (ha : debutDeLigne pl.avant = true) (hr : r ∈ essais mot m pl) :
    r ∈ essais mot ((false, .debut) :: m) pl :=
  mem_essais_cons.mpr ⟨([], pl), mem_issues_debut.mpr ⟨ha, rfl⟩, r, hr, rfl⟩

theorem passe_un (hc : p c = true) (hr : r ∈ essais mot m ⟨some c, cs⟩) :
    r ∈ essais mot ((false, .un p) :: m) ⟨a, c :: cs⟩ :=
  mem_essais_cons.mpr ⟨([c], ⟨some c, cs⟩), mem_issues_un.mpr ⟨c, hc, rfl, rfl, rfl⟩, r, hr, rfl⟩

theorem passe_etoile (hu : ∀ c ∈ u, p c = true) (hr : r ∈ essais mot m ⟨u.getLast?.or a, v⟩) :
    r ∈ essais mot ((false, .etoile p) :: m) ⟨a, u ++ v⟩ :=
  mem_essais_cons.mpr ⟨(u, ⟨u.getLast?.or a, v⟩), mem_issues_etoile.mpr ⟨rfl, hu, rfl⟩, r, hr, rfl⟩

theorem passe_limite (h : pl.avant.any mot ≠ pl.apres.head?.any mot) (hr : r ∈ essais mot m pl) :
    r ∈ essais mot ((false, .limite) :: m) pl :=
  mem_essais_cons.mpr ⟨([], pl), mem_issues_limite.mpr ⟨h, rfl⟩, r, hr, rfl⟩

theorem capture_un (hc : p c = true) (hr : r ∈ essais mot m ⟨some c, cs⟩) :
    ([c] :: r.1, r.2) ∈ essais mot ((true, .un p) :: m) ⟨a, c :: cs⟩ :=
  mem_essais_cons.mpr ⟨([c], ⟨some c, cs⟩), mem_issues_un.mpr ⟨c, hc, rfl, rfl, rfl⟩, r, hr, rfl⟩

theorem capture_plus (hne : u ≠ []) (hu : ∀ c ∈ u, p c = true)
    (hr : r ∈ essais mot m ⟨u.getLast?.or a, v⟩) :
    (u :: r.1, r.2) ∈ essais mot ((true, .plus p) :: m) ⟨a, u ++ v⟩ :=
  mem_essais_cons.mpr
    ⟨(u, ⟨u.getLast?.or a, v⟩), mem_issues_plus.mpr ⟨hne, rfl, hu, rfl⟩, r, hr, rfl⟩

end Pieces

section Occurrences

variable {mot : Char → Bool} {m : Patron} {a : Option Char} {c : Char} {cs : List Char}
  {o o' : Occurrence}

theorem debut_of_occurrence (h : occurrence mot m a cs = some o) : o.debut = cs := by
  obtain ⟨r, -, rfl⟩ := Option.map_eq_some_iff.mp h
  rfl

theorem correspond_of_occurrence (h : occurrence mot m a cs = some o) :
    ∃ b, correspond mot m ⟨a, cs⟩ = some (o.groupes, ⟨b, o.fin⟩) := by
  obtain ⟨r, hr, rfl⟩ := Option.map_eq_some_iff.mp h
  exact ⟨r.2.avant, hr⟩

theorem fin_suffix (h : occurrence mot m a cs = some o) : o.fin <:+ o.debut := by
  obtain ⟨b, hcorrespond⟩ := correspond_of_occurrence h
  rw [debut_of_occurrence h]
  exact suffix_of_mem_essais (mem_essais_of_correspond hcorrespond)

theorem mem_occurrences : o ∈ occurrences mot m a cs ↔
    ∃ y, cs = y ++ o.debut ∧ o.debut ≠ [] ∧
      occurrence mot m (y.getLast?.or a) o.debut = some o := by
  induction cs generalizing a with
  | nil =>
      simp only [occurrences, List.not_mem_nil, false_iff, not_exists, not_and]
      intro y hy hne
      exact absurd (List.append_eq_nil_iff.mp hy.symm).2 hne
  | cons c cs ih =>
      simp only [occurrences, List.mem_append, Option.mem_toList, ih]
      constructor
      · rintro (h | ⟨y, rfl, hne, h⟩)
        · have hdebut := debut_of_occurrence h
          exact ⟨[], hdebut.symm, by rw [hdebut]; exact List.cons_ne_nil _ _, by rwa [hdebut]⟩
        · refine ⟨c :: y, rfl, hne, ?_⟩
          rwa [← getLast?_or_cons]
      · rintro ⟨y, hy, hne, h⟩
        cases y with
        | nil =>
            rw [List.nil_append] at hy
            rw [hy]
            exact .inl h
        | cons x y =>
            obtain ⟨rfl, rfl⟩ := List.cons.inj hy
            refine .inr ⟨y, rfl, hne, ?_⟩
            rwa [getLast?_or_cons]

theorem pairwise_occurrences (mot : Char → Bool) (m : Patron) (a : Option Char) (cs : List Char) :
    (occurrences mot m a cs).Pairwise fun o o' => ∃ y, y ≠ [] ∧ o.debut = y ++ o'.debut ∧
      occurrence mot m y.getLast? o'.debut = some o' := by
  induction cs generalizing a with
  | nil => exact List.Pairwise.nil
  | cons c cs ih =>
      rw [occurrences]
      cases h : occurrence mot m a (c :: cs) with
      | none => exact ih (some c)
      | some o =>
          refine List.pairwise_cons.mpr ⟨fun o' ho' => ?_, ih (some c)⟩
          obtain ⟨y, hy, -, h'⟩ := mem_occurrences.mp ho'
          refine ⟨c :: y, List.cons_ne_nil _ _, ?_, ?_⟩
          · rw [debut_of_occurrence h, hy, List.cons_append]
          · rw [getLast?_or_cons c y none, Option.or_none] at h'
            exact h'

/-- The matches that do not start inside the last one that is kept. -/
def disjointes : Nat → List Occurrence → List Occurrence
  | _, [] => []
  | libre, o :: os =>
      if libre < o.debut.length then disjointes libre os else o :: disjointes o.fin.length os

theorem finditer_eq (mot : Char → Bool) (m : Patron) (a : Option Char) (cs : List Char)
    (libre : Nat) : finditer mot m a cs libre = disjointes libre (occurrences mot m a cs) := by
  induction cs generalizing a libre with
  | nil => rfl
  | cons c cs ih =>
      rw [finditer, occurrences]
      cases h : occurrence mot m a (c :: cs) with
      | none =>
          simp only [Option.toList_none, List.nil_append, ih]
          split <;> rfl
      | some o =>
          have hdebut := debut_of_occurrence h
          simp only [Option.toList_some, List.singleton_append, disjointes, hdebut, ih]

theorem exists_disjointes {libre : Nat} {os : List Occurrence}
    (h : os.Pairwise fun o o' => o.fin.length < o'.debut.length → o'.groupes = o.groupes)
    (ho : o ∈ os) (hlibre : o.debut.length ≤ libre) :
    ∃ o' ∈ disjointes libre os, o'.groupes = o.groupes := by
  induction os generalizing libre with
  | nil => cases ho
  | cons premiere os ih =>
      obtain ⟨hpremiere, hos⟩ := List.pairwise_cons.mp h
      rw [disjointes]
      split_ifs with hpasse
      · rcases List.mem_cons.mp ho with rfl | ho
        · omega
        · exact ih hos ho hlibre
      · rcases List.mem_cons.mp ho with rfl | ho
        · exact ⟨o, List.mem_cons_self, rfl⟩
        · by_cases hrecouvre : premiere.fin.length < o.debut.length
          · exact ⟨premiere, List.mem_cons_self, (hpremiere o ho hrecouvre).symm⟩
          · obtain ⟨o', ho', hgroupes⟩ := ih hos ho (Nat.not_lt.mp hrecouvre)
            exact ⟨o', List.mem_cons_of_mem premiere ho', hgroupes⟩

theorem disjointes_subset {libre : Nat} {os : List Occurrence} (h : o ∈ disjointes libre os) :
    o ∈ os := by
  induction os generalizing libre with
  | nil => cases h
  | cons x os ih =>
      rw [disjointes] at h
      split at h
      · exact List.mem_cons_of_mem _ (ih h)
      · rcases List.mem_cons.mp h with rfl | h
        · exact List.mem_cons_self
        · exact List.mem_cons_of_mem _ (ih h)

theorem trouver_eq (mot : Char → Bool) (m : Patron) (texte : List Char) :
    trouver mot m texte = disjointes texte.length (occurrences mot m none texte) :=
  finditer_eq mot m none texte texte.length

end Occurrences

end Hermes.Lib.Expression
