import Hermes.Lib.Expression
import Hermes.Lib.Motif

/-! # Rational expressions, by backtracking

Sequences, choices, bounded repetitions of any expression and repetitions of a class, with word
boundaries. The issues at a place come in the order of the engine.
-/

namespace Hermes.Lib.Rationnelle

open Expression

inductive Regex where
  | car (p : Char → Bool)
  | limite
  | suite (r s : Regex)
  | ou (r s : Regex)
  | repete (min : Nat) (p : Char → Bool)
  | peu (p : Char → Bool)
  /-- Between `min` and `min + sup` times. -/
  | fois (min sup : Nat) (r : Regex)

def puis (f g : Place → List Issue) (pl : Place) : List Issue :=
  (f pl).flatMap fun i => (g i.2).map fun j => (i.1 ++ j.1, j.2)

def exactement (f : Place → List Issue) : Nat → Place → List Issue
  | 0 => fun pl => [([], pl)]
  | n + 1 => puis f (exactement f n)

def auPlus (f : Place → List Issue) : Nat → Place → List Issue
  | 0 => fun pl => [([], pl)]
  | n + 1 => fun pl => puis f (auPlus f n) pl ++ [([], pl)]

namespace Regex

/-- `r?`, `r{min,max}` and the words of a text. -/
def option (r : Regex) : Regex := fois 0 1 r

def entre (min max : Nat) (r : Regex) : Regex := fois min (max - min) r

def vide : Regex := fois 0 0 (car fun _ => false)

/-- `(?i)texte`, the text in small letters. -/
def mots (texte : String) : Regex :=
  texte.toList.foldr (fun c r => suite (car (Motif.egale c)) r) vide

def litteral (texte : String) : Regex :=
  texte.toList.foldr (fun c r => suite (car (· = c)) r) vide

def parmi : List Regex → Regex
  | [] => car fun _ => false
  | [r] => r
  | r :: rs => ou r (parmi rs)

def enSuite : List Regex → Regex
  | [] => vide
  | [r] => r
  | r :: rs => suite r (enSuite rs)

/-- What is consumed and where that leads, in the order of the engine. -/
def issues (mot : Char → Bool) : Regex → Place → List Issue
  | car p => fun pl => unPuis p (fun a cs => [([], ⟨a, cs⟩)]) pl.apres
  | limite => fun pl => if Motif.limite mot pl.avant pl.apres.head? then [([], pl)] else []
  | suite r s => puis (issues mot r) (issues mot s)
  | ou r s => fun pl => issues mot r pl ++ issues mot s pl
  | repete min p => fun pl => (gloutonne p pl.avant pl.apres).filter fun i => min ≤ i.1.length
  | peu p => fun pl => paresseuse p pl.avant pl.apres
  | fois min sup r => puis (exactement (issues mot r) min) (auPlus (issues mot r) sup)

/-- No boundary: what is around does not matter. -/
def Libre : Regex → Prop
  | car _ => True
  | limite => False
  | suite r s => r.Libre ∧ s.Libre
  | ou r s => r.Libre ∧ s.Libre
  | repete _ _ => True
  | peu _ => True
  | fois _ _ r => r.Libre

def Puissance (L : List Char → Prop) : Nat → List Char → Prop
  | 0, u => u = []
  | n + 1, u => ∃ v w, L v ∧ Puissance L n w ∧ u = v ++ w

def Langue : Regex → List Char → Prop
  | car p, u => ∃ c, p c = true ∧ u = [c]
  | limite, _ => False
  | suite r s, u => ∃ v w, r.Langue v ∧ s.Langue w ∧ u = v ++ w
  | ou r s, u => r.Langue u ∨ s.Langue u
  | repete min p, u => (∀ c ∈ u, p c = true) ∧ min ≤ u.length
  | peu p, u => ∀ c ∈ u, p c = true
  | fois min sup r, u => ∃ n, min ≤ n ∧ n ≤ min + sup ∧ Puissance r.Langue n u

/-- The characters that an expression may consume. -/
def Alphabet (q : Char → Prop) : Regex → Prop
  | car p => ∀ c, p c = true → q c
  | limite => True
  | suite r s => r.Alphabet q ∧ s.Alphabet q
  | ou r s => r.Alphabet q ∧ s.Alphabet q
  | repete _ p => ∀ c, p c = true → q c
  | peu p => ∀ c, p c = true → q c
  | fois _ _ r => r.Alphabet q

end Regex

section Langages

variable {mot : Char → Bool} {r : Regex} {f g : Place → List Issue} {L M : List Char → Prop}

/-- The issues are the texts of a language that the place begins with. -/
def Lit (f : Place → List Issue) (L : List Char → Prop) : Prop :=
  ∀ pl u pl', (u, pl') ∈ f pl ↔
    L u ∧ pl.apres = u ++ pl'.apres ∧ pl'.avant = u.getLast?.or pl.avant

theorem mem_puis {pl : Place} {i : Issue} :
    i ∈ puis f g pl ↔ ∃ v pl', (v, pl') ∈ f pl ∧ ∃ w, (w, i.2) ∈ g pl' ∧ i.1 = v ++ w := by
  unfold puis
  rw [List.mem_flatMap]
  constructor
  · rintro ⟨⟨v, pl'⟩, hv, hi⟩
    obtain ⟨⟨w, pl''⟩, hw, rfl⟩ := List.mem_map.mp hi
    exact ⟨v, pl', hv, w, hw, rfl⟩
  · rintro ⟨v, pl', hv, w, hw, hi⟩
    exact ⟨(v, pl'), hv, List.mem_map.mpr ⟨(w, i.2), hw, Prod.ext hi.symm rfl⟩⟩

theorem lit_puis (hf : Lit f L) (hg : Lit g M) :
    Lit (puis f g) fun u => ∃ v w, L v ∧ M w ∧ u = v ++ w := by
  intro pl u pl'
  rw [mem_puis]
  constructor
  · rintro ⟨v, pl'', hv, w, hw, hu⟩
    obtain ⟨hL, hapres, havant⟩ := (hf pl v pl'').mp hv
    obtain ⟨hM, hapres', havant'⟩ := (hg pl'' w pl').mp hw
    have hu' : u = v ++ w := hu
    refine ⟨⟨v, w, hL, hM, hu'⟩, ?_, ?_⟩
    · rw [hapres, hapres', hu', List.append_assoc]
    · rw [havant', havant, hu', getLast?_append_or]
  · rintro ⟨⟨v, w, hL, hM, rfl⟩, hapres, havant⟩
    let pl'' : Place := ⟨v.getLast?.or pl.avant, w ++ pl'.apres⟩
    refine ⟨v, pl'', (hf pl v pl'').mpr ⟨hL, ?_, rfl⟩, w, (hg pl'' w pl').mpr ⟨hM, rfl, ?_⟩, rfl⟩
    · rw [hapres, List.append_assoc]
    · rw [havant, getLast?_append_or]

theorem lit_rien : Lit (fun pl => [([], pl)]) (· = []) := by
  intro pl u pl'
  rw [List.mem_singleton, Prod.mk.injEq]
  constructor
  · rintro ⟨rfl, rfl⟩
    exact ⟨rfl, rfl, rfl⟩
  · rintro ⟨rfl, hapres, havant⟩
    obtain ⟨avant, apres⟩ := pl
    cases pl'
    cases hapres
    cases havant
    exact ⟨rfl, rfl⟩

theorem lit_exactement (hf : Lit f L) (n : Nat) :
    Lit (exactement f n) (Regex.Puissance L n) := by
  induction n with
  | zero => exact lit_rien
  | succ n ih => exact lit_puis hf ih

theorem lit_auPlus (hf : Lit f L) (sup : Nat) :
    Lit (auPlus f sup) fun u => ∃ n ≤ sup, Regex.Puissance L n u := by
  induction sup with
  | zero =>
      intro pl u pl'
      rw [auPlus, lit_rien pl u pl']
      refine and_congr_left' ?_
      constructor
      · exact fun h => ⟨0, Nat.le_refl 0, h⟩
      · rintro ⟨n, hn, h⟩
        cases Nat.le_zero.mp hn
        exact h
  | succ sup ih =>
      intro pl u pl'
      rw [auPlus, List.mem_append, lit_puis hf ih pl u pl', lit_rien pl u pl', ← or_and_right]
      refine and_congr_left' ?_
      constructor
      · rintro (⟨v, w, hv, ⟨n, hn, hw⟩, rfl⟩ | rfl)
        · exact ⟨n + 1, Nat.succ_le_succ hn, v, w, hv, hw, rfl⟩
        · exact ⟨0, Nat.zero_le _, rfl⟩
      · rintro ⟨n, hn, h⟩
        cases n with
        | zero => exact .inr h
        | succ n =>
            obtain ⟨v, w, hv, hw, rfl⟩ := h
            exact .inl ⟨v, w, hv, ⟨n, Nat.le_of_succ_le_succ hn, hw⟩, rfl⟩

theorem puissance_add {m n : Nat} {u : List Char} :
    Regex.Puissance L (m + n) u ↔
      ∃ v w, Regex.Puissance L m v ∧ Regex.Puissance L n w ∧ u = v ++ w := by
  induction m generalizing u with
  | zero =>
      rw [Nat.zero_add]
      constructor
      · exact fun h => ⟨[], u, rfl, h, rfl⟩
      · rintro ⟨v, w, rfl, hw, rfl⟩
        exact hw
  | succ m ih =>
      rw [Nat.succ_add]
      constructor
      · rintro ⟨v, w, hv, hw, rfl⟩
        obtain ⟨x, y, hx, hy, rfl⟩ := ih.mp hw
        exact ⟨v ++ x, y, ⟨v, x, hv, hx, rfl⟩, hy, (List.append_assoc v x y).symm⟩
      · rintro ⟨v, w, ⟨x, y, hx, hy, rfl⟩, hw, rfl⟩
        exact ⟨x, y ++ w, hx, ih.mpr ⟨y, w, hy, hw, rfl⟩, List.append_assoc x y w⟩

theorem lit_issues (mot : Char → Bool) (h : r.Libre) : Lit (r.issues mot) r.Langue := by
  induction r with
  | car p =>
      intro pl u pl'
      have hun : (u, pl') ∈ (Regex.car p).issues mot pl ↔ (u, pl') ∈ issues mot (.un p) pl := Iff.rfl
      rw [hun, mem_issues_un]
      constructor
      · rintro ⟨c, hc, rfl, hapres, havant⟩
        exact ⟨⟨c, hc, rfl⟩, hapres, havant⟩
      · rintro ⟨⟨c, hc, rfl⟩, hapres, havant⟩
        exact ⟨c, hc, rfl, hapres, havant⟩
  | limite => exact h.elim
  | suite r s ihr ihs => exact lit_puis (ihr h.1) (ihs h.2)
  | ou r s ihr ihs =>
      intro pl u pl'
      rw [Regex.issues, List.mem_append, ihr h.1 pl u pl', ihs h.2 pl u pl', ← or_and_right]
      rfl
  | repete min p =>
      intro pl u pl'
      rw [Regex.issues, List.mem_filter, mem_gloutonne, decide_eq_true_iff, Regex.Langue]
      constructor
      · rintro ⟨⟨hapres, hp, havant⟩, hmin⟩
        exact ⟨⟨hp, hmin⟩, hapres, havant⟩
      · rintro ⟨⟨hp, hmin⟩, hapres, havant⟩
        exact ⟨⟨hapres, hp, havant⟩, hmin⟩
  | peu p =>
      intro pl u pl'
      rw [Regex.issues, mem_paresseuse, mem_gloutonne, Regex.Langue]
      exact and_left_comm
  | fois min sup r ih =>
      intro pl u pl'
      rw [Regex.issues, lit_puis (lit_exactement (ih h) min) (lit_auPlus (ih h) sup) pl u pl']
      refine and_congr_left' ?_
      constructor
      · rintro ⟨v, w, hv, ⟨n, hn, hw⟩, rfl⟩
        exact ⟨min + n, Nat.le_add_right _ _, Nat.add_le_add_left hn min,
          puissance_add.mpr ⟨v, w, hv, hw, rfl⟩⟩
      · rintro ⟨n, hmin, hmax, hu⟩
        obtain ⟨k, rfl⟩ := Nat.exists_eq_add_of_le hmin
        obtain ⟨v, w, hv, hw, rfl⟩ := puissance_add.mp hu
        exact ⟨v, w, hv, ⟨k, Nat.le_of_add_le_add_left hmax, hw⟩, rfl⟩

theorem puissance_alphabet {q : Char → Prop} (hL : ∀ u, L u → ∀ c ∈ u, q c) (n : Nat)
    {u : List Char} (hu : Regex.Puissance L n u) : ∀ c ∈ u, q c := by
  induction n generalizing u with
  | zero =>
      cases hu
      exact nofun
  | succ n ih =>
      obtain ⟨v, w, hv, hw, rfl⟩ := hu
      intro c hc
      rcases List.mem_append.mp hc with hc | hc
      · exact hL v hv c hc
      · exact ih hw c hc

theorem langue_alphabet {q : Char → Prop} (h : r.Alphabet q) {u : List Char} (hu : r.Langue u) :
    ∀ c ∈ u, q c := by
  induction r generalizing u with
  | car p =>
      obtain ⟨c, hc, rfl⟩ := hu
      intro d hd
      rw [List.mem_singleton.mp hd]
      exact h c hc
  | limite => exact hu.elim
  | suite r s ihr ihs =>
      obtain ⟨v, w, hv, hw, rfl⟩ := hu
      intro c hc
      rcases List.mem_append.mp hc with hc | hc
      · exact ihr h.1 hv c hc
      · exact ihs h.2 hw c hc
  | ou r s ihr ihs =>
      rcases hu with hu | hu
      · exact ihr h.1 hu
      · exact ihs h.2 hu
  | repete min p => exact fun c hc => h c (hu.1 c hc)
  | peu p => exact fun c hc => h c (hu c hc)
  | fois min sup r ih =>
      obtain ⟨n, _, _, hn⟩ := hu
      exact puissance_alphabet (fun v hv => ih h hv) n hn

namespace Regex

theorem libre_litteral (texte : String) : (litteral texte).Libre := by
  unfold litteral
  induction texte.toList with
  | nil => trivial
  | cons c cs ih => exact ⟨trivial, ih⟩

theorem alphabet_litteral {q : Char → Prop} (texte : String) (h : ∀ c ∈ texte.toList, q c) :
    (litteral texte).Alphabet q := by
  unfold litteral
  generalize texte.toList = u at h ⊢
  induction u with
  | nil => exact nofun
  | cons c cs ih =>
      refine ⟨?_, ih fun d hd => h d (List.mem_cons_of_mem c hd)⟩
      intro d hd
      rw [of_decide_eq_true hd]
      exact h c List.mem_cons_self

theorem langue_litteral {texte : String} {u : List Char} :
    (litteral texte).Langue u ↔ u = texte.toList := by
  unfold litteral
  induction texte.toList generalizing u with
  | nil =>
      constructor
      · rintro ⟨n, _, hn, hu⟩
        cases Nat.le_zero.mp hn
        exact hu
      · exact fun hu => ⟨0, Nat.le_refl 0, Nat.le_refl 0, hu⟩
  | cons c cs ih =>
      constructor
      · rintro ⟨v, w, ⟨d, hd, rfl⟩, hw, rfl⟩
        rw [of_decide_eq_true hd, ih.mp hw]
        rfl
      · rintro rfl
        exact ⟨[c], cs, ⟨c, decide_eq_true rfl, rfl⟩, ih.mpr rfl, rfl⟩

end Regex

end Langages

end Hermes.Lib.Rationnelle
