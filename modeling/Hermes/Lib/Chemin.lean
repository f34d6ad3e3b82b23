import Mathlib.Data.List.Basic
import Mathlib.Data.List.Infix

/-! # Pure POSIX paths

A path is its root and its parts. No file system is consulted: two texts are one path
when they have the same root and the same parts, empty parts and single dots left out.
-/

namespace Hermes.Lib

structure Chemin where
  racine : String
  parts : List String
  deriving DecidableEq

namespace Chemin

/-- The root of a text. Two leading slashes are a root of their own, three are not. -/
def racineDe : List Char → String
  | '/' :: '/' :: '/' :: _ => "/"
  | '/' :: '/' :: _ => "//"
  | '/' :: _ => "/"
  | _ => ""

def lire (s : String) : Chemin where
  racine := racineDe s.toList
  parts := ((s.toList.splitOn '/').map String.ofList).filter fun x => x ≠ "" ∧ x ≠ "."

/-- `str(path)`. -/
def texte (p : Chemin) : String :=
  if p.racine = "" ∧ p.parts = [] then "." else p.racine ++ String.intercalate "/" p.parts

def name (p : Chemin) : String := p.parts.getLastD ""

/-- `p / q`: an absolute path takes the place of the one on its left. -/
def joindre (p q : Chemin) : Chemin :=
  if q.racine = "" then { p with parts := p.parts ++ q.parts } else q

def parents (p : Chemin) : List Chemin :=
  (List.range p.parts.length).reverse.map fun n => { p with parts := p.parts.take n }

/-- `sous q p`: the path `p` is `q` or lies below it. -/
def sous (q p : Chemin) : Bool := p = q || q ∈ p.parents

theorem mem_parents {q p : Chemin} :
    q ∈ p.parents ↔ q.racine = p.racine ∧ ∃ n < p.parts.length, q.parts = p.parts.take n := by
  simp only [parents, List.mem_map, List.mem_reverse, List.mem_range]
  constructor
  · rintro ⟨n, hn, rfl⟩
    exact ⟨rfl, n, hn, rfl⟩
  · rintro ⟨hracine, n, hn, hparts⟩
    refine ⟨n, hn, ?_⟩
    rw [← hracine, ← hparts]

theorem sous_iff {q p : Chemin} :
    sous q p = true ↔ q.racine = p.racine ∧ q.parts <+: p.parts := by
  simp only [sous, Bool.or_eq_true, decide_eq_true_eq, mem_parents]
  constructor
  · rintro (rfl | ⟨hracine, n, _, hparts⟩)
    · exact ⟨rfl, List.prefix_rfl⟩
    · refine ⟨hracine, ?_⟩
      rw [hparts]
      exact List.take_prefix n p.parts
  · rintro ⟨hracine, hprefix⟩
    have htake : q.parts = p.parts.take q.parts.length := List.prefix_iff_eq_take.mp hprefix
    by_cases hlen : q.parts.length < p.parts.length
    · exact Or.inr ⟨hracine, q.parts.length, hlen, htake⟩
    · left
      have hparts : q.parts = p.parts := by
        rw [htake]
        exact List.take_of_length_le (by omega)
      obtain ⟨racine, parts⟩ := q
      obtain ⟨racine', parts'⟩ := p
      have hr : racine = racine' := hracine
      have hp : parts = parts' := hparts
      rw [hr, hp]

theorem notMem_of_mem_splitOn {c : Char} {cs mot : List Char} (h : mot ∈ cs.splitOn c) :
    c ∉ mot := by
  induction cs generalizing mot with
  | nil =>
      rw [List.splitOn_nil, List.mem_singleton] at h
      rw [h]
      exact List.not_mem_nil
  | cons d cs ih =>
      rw [List.splitOn_cons_eq_if_modifyHead] at h
      split at h
      · cases List.mem_cons.mp h with
        | inl h =>
            rw [h]
            exact List.not_mem_nil
        | inr h => exact ih h
      · next hd =>
          have hne : c ≠ d := fun heq => hd (beq_iff_eq.mpr heq.symm)
          cases hmots : cs.splitOn c with
          | nil => exact absurd hmots (List.splitOn_ne_nil c cs)
          | cons tete mots =>
              rw [hmots, List.modifyHead_cons, List.mem_cons] at h
              have htete : c ∉ tete := ih (by rw [hmots]; exact List.mem_cons_self)
              cases h with
              | inl h =>
                  rw [h, List.mem_cons, not_or]
                  exact ⟨hne, htete⟩
              | inr h => exact ih (by rw [hmots]; exact List.mem_cons_of_mem tete h)

theorem splitOn_cons_self (c : Char) (cs : List Char) :
    (c :: cs).splitOn c = [] :: cs.splitOn c := by
  rw [List.splitOn_cons_eq_if_modifyHead, if_pos (beq_self_eq_true c)]

/-- A root, and parts that a text can hold between two slashes. -/
structure Normal (c : Chemin) : Prop where
  racine : c.racine = "" ∨ c.racine = "/" ∨ c.racine = "//"
  parts : ∀ x ∈ c.parts, x ≠ "" ∧ x ≠ "." ∧ '/' ∉ x.toList

theorem racineDe_cases (cs : List Char) :
    racineDe cs = "" ∨ racineDe cs = "/" ∨ racineDe cs = "//" := by
  fun_cases racineDe cs with
  | case1 => exact .inr (.inl rfl)
  | case2 => exact .inr (.inr rfl)
  | case3 => exact .inr (.inl rfl)
  | case4 => exact .inl rfl

theorem normal_lire (s : String) : Normal (lire s) where
  racine := racineDe_cases s.toList
  parts x hx := by
    obtain ⟨hmem, hx⟩ := List.mem_filter.mp hx
    obtain ⟨hvide, hpoint⟩ := of_decide_eq_true hx
    obtain ⟨mot, hmot, rfl⟩ := List.mem_map.mp hmem
    refine ⟨hvide, hpoint, ?_⟩
    rw [String.toList_ofList]
    exact notMem_of_mem_splitOn hmot

theorem Normal.joindre {p q : Chemin} (hp : Normal p) (hq : Normal q) : Normal (p.joindre q) := by
  unfold Chemin.joindre
  split
  · refine ⟨hp.racine, fun x hx => ?_⟩
    cases List.mem_append.mp hx with
    | inl hx => exact hp.parts x hx
    | inr hx => exact hq.parts x hx
  · exact hq

theorem splitOn_intercalate_parts {parts : List String} (hne : parts ≠ [])
    (h : ∀ x ∈ parts, x ≠ "" ∧ x ≠ "." ∧ '/' ∉ x.toList) :
    (String.intercalate "/" parts).toList.splitOn '/' = parts.map String.toList := by
  have hslash : "/".toList = ['/'] := rfl
  rw [String.toList_intercalate, hslash]
  refine List.splitOn_intercalate '/' ?_ ?_
  · intro mot hmot
    obtain ⟨x, hx, rfl⟩ := List.mem_map.mp hmot
    exact (h x hx).2.2
  · rwa [ne_eq, List.map_eq_nil_iff]

theorem head_intercalate_ne {parts : List String}
    (h : ∀ x ∈ parts, x ≠ "" ∧ x ≠ "." ∧ '/' ∉ x.toList) (suite : List Char) :
    (String.intercalate "/" parts).toList ≠ '/' :: suite := by
  intro htexte
  cases parts with
  | nil => cases htexte
  | cons x parts =>
      have hsplit := splitOn_intercalate_parts (List.cons_ne_nil x parts) h
      rw [htexte, splitOn_cons_self, List.map_cons] at hsplit
      have hx : x = "" := String.toList_inj.mp (List.cons.inj hsplit).1.symm
      exact (h x List.mem_cons_self).1 hx

theorem filter_splitOn {parts : List String}
    (h : ∀ x ∈ parts, x ≠ "" ∧ x ≠ "." ∧ '/' ∉ x.toList) :
    (((String.intercalate "/" parts).toList.splitOn '/').map String.ofList).filter
      (fun x => decide (x ≠ "" ∧ x ≠ ".")) = parts := by
  cases parts with
  | nil => decide
  | cons x parts =>
      rw [splitOn_intercalate_parts (List.cons_ne_nil x parts) h, List.map_map]
      have hid : String.ofList ∘ String.toList = id := funext fun s => String.ofList_toList
      rw [hid, List.map_id, List.filter_eq_self]
      intro y hy
      exact decide_eq_true ⟨(h y hy).1, (h y hy).2.1⟩

theorem lire_texte {c : Chemin} (h : Normal c) : lire c.texte = c := by
  obtain ⟨racine, parts⟩ := c
  obtain ⟨hracine, hparts⟩ := h
  dsimp only at hracine hparts
  have htete := head_intercalate_ne hparts
  have hfiltre := filter_splitOn hparts
  by_cases hvide : racine = "" ∧ parts = []
  · obtain ⟨rfl, rfl⟩ := hvide
    decide
  · have htexte : (texte ⟨racine, parts⟩).toList =
        racine.toList ++ (String.intercalate "/" parts).toList := by
      rw [texte, if_neg hvide, String.toList_append]
    unfold lire
    rw [htexte]
    generalize hcs : (String.intercalate "/" parts).toList = cs at htete hfiltre ⊢
    rcases hracine with rfl | rfl | rfl
    · have hreste : racineDe cs = "" := by
        unfold racineDe
        split
        · exact absurd rfl (htete _)
        · exact absurd rfl (htete _)
        · exact absurd rfl (htete _)
        · rfl
      rw [String.toList_empty, List.nil_append, hreste, hfiltre]
    · have hslash : "/".toList = ['/'] := rfl
      have hreste : racineDe ('/' :: cs) = "/" := by
        cases cs with
        | nil => rfl
        | cons c cs =>
            have hc : c ≠ '/' := fun heq => htete cs (by rw [heq])
            simp [racineDe, hc]
      rw [hslash, List.singleton_append, hreste, splitOn_cons_self, List.map_cons,
        List.filter_cons_of_neg, hfiltre]
      decide
    · have hslash : "//".toList = ['/', '/'] := rfl
      have hreste : racineDe ('/' :: '/' :: cs) = "//" := by
        cases cs with
        | nil => rfl
        | cons c cs =>
            have hc : c ≠ '/' := fun heq => htete cs (by rw [heq])
            rw [racineDe]
            exact fun _ heq => hc (List.cons.inj heq).1
      rw [hslash, List.cons_append, List.singleton_append, hreste, splitOn_cons_self,
        splitOn_cons_self, List.map_cons, List.map_cons, List.filter_cons_of_neg, List.filter_cons_of_neg, hfiltre]
      · decide
      · decide

theorem lire_nom {s : String} (h : s ≠ "" ∧ s ≠ "." ∧ '/' ∉ s.toList) : lire s = ⟨"", [s]⟩ := by
  have hnormal : Normal ⟨"", [s]⟩ :=
    ⟨.inl rfl, fun x hx => by
      rw [List.mem_singleton.mp hx]
      exact h⟩
  have htexte : texte ⟨"", [s]⟩ = s := by simp [texte]
  have hlu := lire_texte hnormal
  rwa [htexte] at hlu

theorem slash_notMem_name (s : String) : '/' ∉ (lire s).name.toList := by
  unfold name
  cases hparts : (lire s).parts.getLast? with
  | none =>
      rw [List.getLastD_eq_getLast?, hparts]
      exact List.not_mem_nil
  | some x =>
      rw [List.getLastD_eq_getLast?, hparts]
      exact ((normal_lire s).parts x (List.mem_of_getLast? hparts)).2.2

example : lire "/projet/./src//a.py" = ⟨"/", ["projet", "src", "a.py"]⟩ := by decide

end Chemin

end Hermes.Lib
