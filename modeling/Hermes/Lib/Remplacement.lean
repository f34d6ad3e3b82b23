import Hermes.Lib.Expression
import Hermes.Lib.Motif

/-! # Replacing what is found in a text

A search answers at each place how many characters it matches and what replaces them; the text is
read from left to right and what has been matched is passed over.
-/

namespace Hermes.Lib.Remplacement

open Expression

/-- What is found at a place: the number of its characters, and what replaces them. -/
abbrev Chercheur := Option Char → List Char → Option (Nat × List Char)

/-- `re.sub`: so many characters are still to be passed over. -/
def remplacer (f : Chercheur) : Nat → Option Char → List Char → List Char
  | _, _, [] => []
  | n + 1, _, c :: cs => remplacer f n (some c) cs
  | 0, a, c :: cs =>
      match f a (c :: cs) with
      | some (n + 1, jeton) => jeton ++ remplacer f n (some c) cs
      | _ => c :: remplacer f 0 (some c) cs

/-- `re.finditer`: where the matches begin and end. -/
def trouver (f : Chercheur) : Nat → Nat → Option Char → List Char → List (Nat × Nat)
  | _, _, _, [] => []
  | n + 1, i, _, c :: cs => trouver f n (i + 1) (some c) cs
  | 0, i, a, c :: cs =>
      match f a (c :: cs) with
      | some (n + 1, _) => (i, i + n + 1) :: trouver f n (i + 1) (some c) cs
      | _ => trouver f 0 (i + 1) (some c) cs

def litteral (v jeton : List Char) : Chercheur := fun _ cs =>
  if v.isPrefixOf cs then some (v.length, jeton) else none

def Partout (P : Option Char → List Char → Prop) : Option Char → List Char → Prop
  | _, [] => True
  | a, c :: cs => P a (c :: cs) ∧ Partout P (some c) cs

section Recherche

variable {f : Chercheur} {P Q : Option Char → List Char → Prop} {a : Option Char}
  {cs u v w jeton : List Char} {n : Nat}

theorem Partout.mono (hPQ : ∀ a cs, P a cs → Q a cs) (h : Partout P a cs) : Partout Q a cs := by
  induction cs generalizing a with
  | nil => trivial
  | cons c cs ih => exact ⟨hPQ a _ h.1, ih h.2⟩

theorem partout_of_forall (h : ∀ a cs, P a cs) (a : Option Char) (cs : List Char) :
    Partout P a cs := by
  induction cs generalizing a with
  | nil => trivial
  | cons c cs ih => exact ⟨h a _, ih (some c)⟩

theorem Partout.suite (h : Partout P a (u ++ w)) : Partout P (u.getLast?.or a) w := by
  induction u generalizing a with
  | nil => exact h
  | cons c u ih =>
      rw [← getLast?_or_cons]
      exact ih h.2

theorem remplacer_passer (f : Chercheur) (u w : List Char) (a : Option Char) :
    remplacer f u.length a (u ++ w) = remplacer f 0 (u.getLast?.or a) w := by
  induction u generalizing a with
  | nil => rfl
  | cons c u ih =>
      rw [← getLast?_or_cons]
      exact ih (some c)

theorem remplacer_trouve (hf : f a (u ++ w) = some (u.length, jeton)) (hu : u ≠ []) :
    remplacer f 0 a (u ++ w) = jeton ++ remplacer f 0 (u.getLast?.or a) w := by
  cases u with
  | nil => exact absurd rfl hu
  | cons c u =>
      rw [← getLast?_or_cons, ← remplacer_passer f u w (some c)]
      simp only [List.cons_append, List.length_cons] at hf
      rw [List.cons_append, remplacer, hf]

/-- Nothing is found at a place, up to the matches that are empty. -/
def Rien (f : Chercheur) (a : Option Char) (cs : List Char) : Prop :=
  ∀ n jeton, f a cs ≠ some (n + 1, jeton)

theorem remplacer_rien {c : Char} (h : Rien f a (c :: cs)) :
    remplacer f 0 a (c :: cs) = c :: remplacer f 0 (some c) cs := by
  rw [remplacer]
  split
  · next n jeton hf => exact absurd hf (h n jeton)
  · rfl

theorem trouver_eq_nil (i : Nat) : trouver f 0 i a cs = [] ↔ Partout (Rien f) a cs := by
  induction cs generalizing i a with
  | nil => exact ⟨fun _ => trivial, fun _ => rfl⟩
  | cons c cs ih =>
      rw [trouver, Partout]
      split
      · next n jeton hf => exact ⟨nofun, fun h => absurd hf (h.1 n jeton)⟩
      · next hrien =>
          rw [ih]
          exact ⟨fun h => ⟨hrien, h⟩, fun h => h.2⟩

theorem remplacer_eq_self (h : Partout (Rien f) a cs) : remplacer f 0 a cs = cs := by
  induction cs generalizing a with
  | nil => rfl
  | cons c cs ih => rw [remplacer_rien h.1, ih h.2]

end Recherche

section Jetons

variable {f : Chercheur} {a : Option Char} {cs l u v jeton : List Char} {n : Nat}

/-- A mark between two characters that the text `v` has not, and which does not contain it. -/
def Jeton (v jeton : List Char) : Prop :=
  ∃ o m q, jeton = o :: (m ++ [q]) ∧ o ∉ v ∧ q ∉ v ∧ ¬ v <:+: m

theorem infix_of_notMem {q : Char} {reste : List Char} (hq : q ∉ v) (h : v <:+: l ++ q :: reste) :
    v <:+: l ∨ v <:+: reste := by
  obtain ⟨s, t, h⟩ := h
  rcases List.append_eq_append_iff.mp h with ⟨x, hl, _⟩ | ⟨x, hsv, hreste⟩
  · exact .inl ⟨s, x, hl.symm⟩
  · cases x with
    | nil => exact .inl ⟨s, [], by rw [List.append_nil, hsv, List.append_nil]⟩
    | cons d x =>
        obtain ⟨rfl, hx⟩ := List.cons.inj hreste
        rcases List.append_eq_append_iff.mp hsv with ⟨y, _, hv⟩ | ⟨y, hs, hy⟩
        · exact absurd (hv ▸ List.mem_append_right y List.mem_cons_self) hq
        · cases y with
          | nil => exact absurd (show q ∈ v from (show q :: x = v from hy) ▸ List.mem_cons_self) hq
          | cons e y =>
              obtain ⟨_, hxy⟩ := List.cons.inj hy
              have hreste' : y ++ v ++ t = reste := by
                rw [hx, hxy]
                rfl
              exact .inr ⟨y, t, hreste'⟩

theorem infix_of_jeton (hjeton : Jeton v jeton) (hv : v ≠ []) (h : v <:+: jeton ++ l) :
    v <:+: l := by
  obtain ⟨o, m, q, rfl, ho, hq, hm⟩ := hjeton
  have hdebut : v <:+: [] ++ o :: (m ++ q :: l) := by simpa using h
  rcases infix_of_notMem ho hdebut with h | h
  · exact absurd (List.infix_nil.mp h) hv
  · exact (infix_of_notMem hq h).resolve_left hm

theorem prefix_remplacer (hf : ∀ a cs n jeton, f a cs = some (n, jeton) →
      ∃ o reste, jeton = o :: reste ∧ o ∉ u)
    (h : u <+: remplacer f n a cs) : u <+: cs.drop n := by
  induction cs generalizing n a u with
  | nil =>
      rw [remplacer] at h
      rw [List.drop_nil]
      exact h
  | cons c cs ih =>
      cases n with
      | succ n =>
          rw [List.drop_succ_cons]
          exact ih hf h
      | zero =>
          rw [remplacer] at h
          split at h
          · next n jeton htrouve =>
              obtain ⟨o, reste, rfl, ho⟩ := hf _ _ _ _ htrouve
              cases u with
              | nil => exact List.nil_prefix
              | cons d u =>
                  obtain ⟨rfl, _⟩ := List.cons_prefix_cons.mp h
                  exact absurd List.mem_cons_self ho
          · cases u with
            | nil => exact List.nil_prefix
            | cons d u =>
                obtain ⟨rfl, hu⟩ := List.cons_prefix_cons.mp h
                refine List.cons_prefix_cons.mpr ⟨rfl, ?_⟩
                refine ih ?_ hu
                intro a' cs' n' jeton' htrouve
                obtain ⟨o, reste, hjeton, ho⟩ := hf a' cs' n' jeton' htrouve
                exact ⟨o, reste, hjeton, fun hmem => ho (List.mem_cons_of_mem d hmem)⟩

theorem Jeton.tete (h : Jeton v jeton) : ∃ o reste, jeton = o :: reste ∧ o ∉ v := by
  obtain ⟨o, m, q, rfl, ho, _⟩ := h
  exact ⟨o, m ++ [q], rfl, ho⟩

theorem infix_of_remplacer (hv : v ≠ [])
    (hf : ∀ a cs n jeton, f a cs = some (n, jeton) → Jeton v jeton)
    (h : v <:+: remplacer f n a cs) : v <:+: cs := by
  induction cs generalizing n a with
  | nil =>
      rw [remplacer] at h
      exact h
  | cons c cs ih =>
      cases n with
      | succ n => exact List.infix_cons (ih h)
      | zero =>
          have htete := fun a cs n jeton h => (hf a cs n jeton h).tete
          rw [List.infix_cons_iff]
          rw [remplacer] at h
          split at h
          · next n jeton htrouve =>
              exact .inr (ih (infix_of_jeton (hf _ _ _ _ htrouve) hv h))
          · next hrien =>
              rcases List.infix_cons_iff.mp h with h | h
              · refine .inl ?_
                have hplein : v <+: remplacer f 0 a (c :: cs) := by
                  rw [remplacer_rien hrien]
                  exact h
                exact prefix_remplacer htete hplein
              · exact .inr (ih h)

theorem absent_litteral (hv : v ≠ []) (hjeton : Jeton v jeton) :
    ¬ v <:+: remplacer (litteral v jeton) n a cs := by
  have htete : ∀ a cs n j, litteral v jeton a cs = some (n, j) → j = jeton := by
    intro a cs n j h
    unfold litteral at h
    split_ifs at h
    cases h
    rfl
  induction cs generalizing n a with
  | nil =>
      rw [remplacer, List.infix_nil]
      exact hv
  | cons c cs ih =>
      cases n with
      | succ n => exact ih
      | zero =>
          intro h
          rw [remplacer] at h
          split at h
          · next n j htrouve =>
              cases htete _ _ _ _ htrouve
              exact ih (infix_of_jeton hjeton hv h)
          · next hrien =>
              rcases List.infix_cons_iff.mp h with h | h
              · have hplein : v <+: remplacer (litteral v jeton) 0 a (c :: cs) := by
                  rw [remplacer_rien hrien]
                  exact h
                have hdebut : v <+: c :: cs := by
                  refine prefix_remplacer ?_ hplein
                  intro a cs n j htrouve
                  rw [htete a cs n j htrouve]
                  exact hjeton.tete
                obtain ⟨k, hk⟩ := Nat.exists_eq_succ_of_ne_zero (List.length_pos_iff.mpr hv).ne'
                refine hrien k jeton ?_
                rw [litteral, if_pos (List.isPrefixOf_iff_prefix.mpr hdebut), hk]
              · exact ih h

end Jetons

section Bornes

variable {mot : Char → Bool} {L : List Char → Prop} {f : Chercheur} {a a' : Option Char}
  {cs u v m jeton : List Char} {o q : Char}

/-- The place begins with a text of the language, between two word boundaries. -/
def Borne (mot : Char → Bool) (L : List Char → Prop) (a : Option Char) (cs : List Char) : Prop :=
  ∃ u w, cs = u ++ w ∧ L u ∧ u ≠ [] ∧ Motif.limite mot a u.head? = true ∧
    Motif.limite mot u.getLast? w.head? = true

/-- What is found is not empty, lies between two word boundaries and gives way to one mark. -/
def Bornee (mot : Char → Bool) (f : Chercheur) (jeton : List Char) : Prop :=
  ∀ a cs n j, f a cs = some (n, j) → j = jeton ∧ ∃ u w, cs = u ++ w ∧ u.length = n ∧ u ≠ [] ∧
    Motif.limite mot a u.head? = true ∧ Motif.limite mot u.getLast? w.head? = true

/-- Before the same place, once in the text and once in the result: a mark stands for a word, or
the place begins with no word. -/
def Accord (mot : Char → Bool) (a a' : Option Char) (cs : List Char) : Prop :=
  a'.any mot = a.any mot ∨ a'.any mot = false ∧ cs.head?.any mot = false

theorem remplacer_append (hf : ∀ a cs n j, f a cs = some (n, j) → ∃ reste, j = o :: reste)
    (ho : o ∉ u) (h : remplacer f 0 a cs = u ++ v) :
    ∃ w, cs = u ++ w ∧ v = remplacer f 0 (u.getLast?.or a) w := by
  induction u generalizing a cs with
  | nil => exact ⟨cs, rfl, h.symm⟩
  | cons c u ih =>
      cases cs with
      | nil =>
          rw [remplacer] at h
          cases h
      | cons d ds =>
          rw [remplacer] at h
          split at h
          · next n j htrouve =>
              obtain ⟨reste, rfl⟩ := hf _ _ _ _ htrouve
              obtain ⟨rfl, _⟩ := List.cons.inj h
              exact absurd List.mem_cons_self ho
          · obtain ⟨rfl, hsuite⟩ := List.cons.inj h
            obtain ⟨w, rfl, hv⟩ := ih (fun hmem => ho (List.mem_cons_of_mem _ hmem)) hsuite
            exact ⟨w, rfl, by rw [hv, ← getLast?_or_cons]⟩

theorem any_or_of_ne_nil (hu : u ≠ []) : u.getLast?.or a = u.getLast? := by
  rw [List.getLast?_eq_some_getLast hu]
  rfl

theorem limite_remplacer (hf : Bornee mot f jeton)
    (h : Motif.limite mot a (remplacer f 0 a cs).head? = true) :
    Motif.limite mot a cs.head? = true := by
  cases cs with
  | nil => exact h
  | cons c cs =>
      rw [remplacer] at h
      split at h
      · next n j htrouve =>
          obtain ⟨_, u, w, hcs, _, hu, hdebut, _⟩ := hf _ _ _ _ htrouve
          rw [hcs, List.head?_append_of_ne_nil _ hu]
          exact hdebut
      · exact h

theorem borne_of_remplacer (hf : Bornee mot f jeton) (hjeton : jeton = o :: m)
    (hL : ∀ u, L u → o ∉ u) {c : Char} (haccord : Accord mot a a' (c :: cs))
    (h : Borne mot L a' (c :: remplacer f 0 (some c) cs)) : Borne mot L a (c :: cs) := by
  obtain ⟨u, v, hcs, hu, hne, hdebut, hfin⟩ := h
  cases u with
  | nil => exact absurd rfl hne
  | cons d u =>
      obtain ⟨rfl, hsuite⟩ := List.cons.inj hcs
      have hmarque : ∀ a cs n j, f a cs = some (n, j) → ∃ reste, j = o :: reste := by
        intro a cs n j htrouve
        exact ⟨m, (hf a cs n j htrouve).1.trans hjeton⟩
      have ho : o ∉ u := fun hmem => hL _ hu (List.mem_cons_of_mem _ hmem)
      obtain ⟨w, rfl, rfl⟩ := remplacer_append hmarque ho hsuite
      refine ⟨c :: u, w, rfl, hu, hne, ?_, ?_⟩
      · rcases haccord with hegal | ⟨havant, hsans⟩
        · simpa [Motif.limite, hegal] using hdebut
        · -- no word begins after a mark
          have hsans' : mot c = false := by simpa using hsans
          simp [Motif.limite, havant, hsans'] at hdebut
      · rw [← any_or_of_ne_nil (a := none) hne, ← getLast?_or_cons] at hfin ⊢
        exact limite_remplacer hf hfin

theorem prefix_of_notMem {l reste : List Char} (hq : q ∉ u) (h : u <+: l ++ q :: reste) :
    u <+: l := by
  obtain ⟨t, h⟩ := h
  rcases List.append_eq_append_iff.mp h with ⟨x, hl, _⟩ | ⟨x, hu, hreste⟩
  · exact ⟨x, hl.symm⟩
  · cases x with
    | nil =>
        rw [hu, List.append_nil]
    | cons d x =>
        obtain ⟨rfl, _⟩ := List.cons.inj hreste
        exact absurd (hu ▸ List.mem_append_right l List.mem_cons_self) hq

theorem partout_jeton (hL : ∀ u, L u → q ∉ u ∧ ¬ u <:+: m)
    (hsuite : Partout (fun a cs => ¬ Borne mot L a cs) (some q) cs) (a : Option Char) :
    Partout (fun a cs => ¬ Borne mot L a cs) a (m ++ q :: cs) := by
  induction m generalizing a with
  | nil =>
      refine ⟨?_, hsuite⟩
      rintro ⟨u, w, hcs, hu, hne, _⟩
      have hdebut : u <+: [] := prefix_of_notMem (hL u hu).1 ⟨w, hcs.symm⟩
      exact hne (List.prefix_nil.mp hdebut)
  | cons d m ih =>
      refine ⟨?_, ih (fun u hu => ⟨(hL u hu).1, fun h => (hL u hu).2 (List.infix_cons h)⟩) _⟩
      rintro ⟨u, w, hcs, hu, hne, _⟩
      have hdebut : u <+: d :: m := prefix_of_notMem (hL u hu).1 ⟨w, hcs.symm⟩
      exact (hL u hu).2 hdebut.isInfix

theorem sans_remplacer (hf : Bornee mot f jeton) (hjeton : jeton = o :: (m ++ [q]))
    (ho : mot o = false) (hq : mot q = false)
    (hL : ∀ u, L u → o ∉ u ∧ q ∉ u ∧ ¬ u <:+: m) (a a' : Option Char) (cs : List Char)
    (haccord : Accord mot a a' cs)
    (hrien : Partout (fun a cs => Rien f a cs → ¬ Borne mot L a cs) a cs) :
    Partout (fun a cs => ¬ Borne mot L a cs) a' (remplacer f 0 a cs) := by
  cases cs with
  | nil => trivial
  | cons c cs =>
      by_cases hrienIci : Rien f a (c :: cs)
      · rw [remplacer_rien hrienIci]
        refine ⟨?_, ?_⟩
        · intro hborne
          exact hrien.1 hrienIci
            (borne_of_remplacer hf hjeton (fun u hu => (hL u hu).1) haccord hborne)
        · exact sans_remplacer hf hjeton ho hq hL _ _ cs (.inl rfl) hrien.2
      · have htrouve : ∃ n j, f a (c :: cs) = some (n + 1, j) := by
          by_contra hnon
          exact hrienIci fun n j h => hnon ⟨n, j, h⟩
        obtain ⟨n, j, htrouve⟩ := htrouve
        obtain ⟨hj, u, w, hcs, hlong, hne, hdebut, hfin⟩ := hf _ _ _ _ htrouve
        rw [hcs] at htrouve hrien ⊢
        rw [← hlong, hj] at htrouve
        rw [remplacer_trouve htrouve hne, hjeton]
        have hcourt : w.length < (c :: cs).length := by
          rw [hcs, List.length_append, hlong]
          omega
        have hapres : Accord mot (u.getLast?.or a) (some q) w := by
          rw [any_or_of_ne_nil hne]
          rw [Motif.limite] at hfin
          cases hdernier : u.getLast?.any mot with
          | false => exact .inl (by rw [Option.any_some, hq, hdernier])
          | true =>
              rw [hdernier] at hfin
              exact .inr ⟨by rw [Option.any_some, hq], by simpa using hfin⟩
        have hreste := sans_remplacer hf hjeton ho hq hL _ _ w hapres hrien.suite
        have hmarque := partout_jeton (fun u hu => (hL u hu).2) hreste (some o)
        refine ⟨?_, by simpa using hmarque⟩
        rintro ⟨u', w', hcs', hu', hne', _⟩
        have hvide : u' <+: [] := prefix_of_notMem (hL u' hu').1 ⟨w', hcs'.symm⟩
        exact hne' (List.prefix_nil.mp hvide)
termination_by cs.length

end Bornes

end Hermes.Lib.Remplacement
