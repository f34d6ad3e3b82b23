import Mathlib.Data.List.DropRight

/-! # Text as the interpreter of the source sees it

A string is its list of Unicode scalar values. The blanks are the characters for
which the source language's `str.isspace` holds.
-/

namespace Hermes.Lib.Texte

/-- The code points that `strip` removes. -/
def estBlanc (c : Char) : Bool :=
  let n := c.toNat
  (9 ≤ n && n ≤ 13) || (28 ≤ n && n ≤ 32) || n == 0x85 || n == 0xa0 || n == 0x1680
    || (0x2000 ≤ n && n ≤ 0x200a) || n == 0x2028 || n == 0x2029 || n == 0x202f || n == 0x205f
    || n == 0x3000

/-- The text without its leading and trailing blanks. -/
def strip (s : String) : String :=
  String.ofList (((s.toList.dropWhile estBlanc).reverse.dropWhile estBlanc).reverse)

theorem estBlanc_of_isDigit {c : Char} (h : c.isDigit = true) : estBlanc c = false := by
  have hbornes : 48 ≤ c.toNat ∧ c.toNat ≤ 57 := Char.isDigit_iff_toNat.mp h
  unfold estBlanc
  generalize c.toNat = n at hbornes
  simp only [Bool.or_eq_false_iff, Bool.and_eq_false_imp, decide_eq_true_eq,
    decide_eq_false_iff_not, beq_eq_false_iff_ne, ne_eq]
  omega

theorem strip_strip (s : String) : strip (strip s) = strip s := by
  let milieu := s.toList.dropWhile estBlanc
  have hstrip : strip s = String.ofList (milieu.rdropWhile estBlanc) := rfl
  have hdebut : (milieu.rdropWhile estBlanc).dropWhile estBlanc = milieu.rdropWhile estBlanc := by
    -- what is left starts as `milieu` does, with a letter
    rw [List.dropWhile_eq_self_iff]
    intro hpos
    have htete : milieu.rdropWhile estBlanc <+: milieu := List.rdropWhile_prefix estBlanc milieu
    have hmilieu : 0 < milieu.length := hpos.trans_le htete.length_le
    rw [htete.getElem hpos]
    exact List.dropWhile_get_zero_not estBlanc s.toList hmilieu
  have hfin : (milieu.rdropWhile estBlanc).rdropWhile estBlanc = milieu.rdropWhile estBlanc :=
    List.rdropWhile_idempotent estBlanc milieu
  calc strip (strip s)
      = String.ofList (((milieu.rdropWhile estBlanc).dropWhile estBlanc).rdropWhile estBlanc) := by
        rw [hstrip, strip, String.toList_ofList]
        rfl
    _ = strip s := by rw [hdebut, hfin, hstrip]

theorem exists_of_strip {s : String} (h : strip s ≠ "") :
    ∃ u c, (strip s).toList = u ++ [c] ∧ estBlanc c = false := by
  have hforme : (strip s).toList =
      ((s.toList.dropWhile estBlanc).reverse.dropWhile estBlanc).reverse := by
    rw [strip, String.toList_ofList]
  cases hreste : (s.toList.dropWhile estBlanc).reverse.dropWhile estBlanc with
  | nil =>
      rw [hreste, List.reverse_nil] at hforme
      exact absurd (String.toList_inj.mp hforme) h
  | cons c u =>
      have hc := List.head?_dropWhile_not estBlanc (s.toList.dropWhile estBlanc).reverse
      rw [hreste] at hc
      exact ⟨u.reverse, c, by rw [hforme, hreste, List.reverse_cons], hc⟩

/-- `strip` on a list. -/
def rogner (cs : List Char) : List Char := (cs.dropWhile estBlanc).rdropWhile estBlanc

theorem toList_strip (s : String) : (strip s).toList = rogner s.toList := String.toList_ofList

theorem rdropWhile_of_rogner {cs : List Char} (h : rogner cs = cs) : cs.rdropWhile estBlanc = cs := by
  have hsuffixe : cs.dropWhile estBlanc <:+ cs := List.dropWhile_suffix estBlanc
  have hprefixe : rogner cs <+: cs.dropWhile estBlanc := List.rdropWhile_prefix estBlanc _
  have hlongueur : cs.length ≤ (cs.dropWhile estBlanc).length := by
    have hle := hprefixe.length_le
    rwa [h] at hle
  have hdebut : cs.dropWhile estBlanc = cs := hsuffixe.eq_of_length_le hlongueur
  rw [rogner, hdebut] at h
  exact h

theorem rogner_of_forall {cs : List Char} (h : ∀ c ∈ cs, estBlanc c = false) : rogner cs = cs := by
  have hdebut : cs.dropWhile estBlanc = cs := by
    cases cs with
    | nil => rfl
    | cons c cs =>
        rw [List.dropWhile_cons_of_neg]
        rw [h c List.mem_cons_self]
        exact Bool.false_ne_true
  rw [rogner, hdebut, List.rdropWhile_eq_self_iff]
  intro hne
  rw [h _ (List.getLast_mem hne)]
  exact Bool.false_ne_true

/-- The code points at which `splitlines` ends a line. -/
def finDeLigne (c : Char) : Bool :=
  let n := c.toNat
  (10 ≤ n && n ≤ 13) || (28 ≤ n && n ≤ 30) || n == 0x85 || n == 0x2028 || n == 0x2029

def splitlinesAux : List Char → List Char → List String
  | [], [] => []
  | [], c :: ligne => [String.ofList (c :: ligne).reverse]
  | '\r' :: '\n' :: cs, ligne => String.ofList ligne.reverse :: splitlinesAux cs []
  | c :: cs, ligne =>
      if finDeLigne c then String.ofList ligne.reverse :: splitlinesAux cs []
      else splitlinesAux cs (c :: ligne)

def splitlines (s : String) : List String := splitlinesAux s.toList []

theorem splitlinesAux_append {cs : List Char} (h : '\r' ∉ cs) (ds ligne : List Char) :
    splitlinesAux (cs ++ '\n' :: ds) ligne =
      ((cs.splitOnP finDeLigne).modifyHead (ligne.reverse ++ ·)).map String.ofList ++
        splitlinesAux ds [] := by
  induction cs generalizing ligne with
  | nil => simp [splitlinesAux, finDeLigne]
  | cons c cs ih =>
      have hc : c ≠ '\r' := fun heq => h (heq ▸ List.mem_cons_self)
      have hcs : '\r' ∉ cs := fun hmem => h (List.mem_cons_of_mem c hmem)
      rw [List.cons_append, splitlinesAux]
      · rw [List.splitOnP_cons_eq_if_modifyHead]
        split
        · rw [ih hcs]
          cases cs.splitOnP finDeLigne <;> simp
        · rw [ih hcs, List.modifyHead_modifyHead]
          simp [Function.comp_def]
      · intro _ heq _
        exact hc heq

theorem splitOnP_append {p : Char → Bool} {cs : List Char} (h : ∀ c ∈ cs, p c = false)
    (ds : List Char) : (cs ++ ds).splitOnP p = (ds.splitOnP p).modifyHead (cs ++ ·) := by
  induction cs with
  | nil => cases hds : ds.splitOnP p <;> simp [hds]
  | cons c cs ih =>
      rw [List.cons_append, List.splitOnP_cons_eq_if_modifyHead, h c List.mem_cons_self,
        if_neg Bool.false_ne_true, ih fun d hd => h d (List.mem_cons_of_mem c hd),
        List.modifyHead_modifyHead]
      rfl

theorem splitOnP_eq_cons (p : Char → Bool) (cs : List Char) :
    cs.splitOnP p = cs.takeWhile (fun c => !p c) :: (cs.splitOnP p).tail := by
  induction cs with
  | nil => rfl
  | cons c cs ih =>
      rw [List.splitOnP_cons_eq_if_modifyHead]
      cases hc : p c with
      | true => simp [hc]
      | false =>
          rw [if_neg Bool.false_ne_true, ih]
          simp [hc]

/-- `cs.split()`. -/
def mots (cs : List Char) : List (List Char) := (cs.splitOnP estBlanc).filter (· ≠ [])

/-- `cs.split(sep, n)`. -/
def decouper (sep : Char) : Nat → List Char → List (List Char)
  | 0, cs => [cs]
  | n + 1, cs =>
      if sep ∈ cs then
        cs.takeWhile (· ≠ sep) :: decouper sep n ((cs.dropWhile (· ≠ sep)).tail)
      else [cs]

theorem decouper_append {sep : Char} {cs : List Char} (h : sep ∉ cs) (n : Nat) (ds : List Char) :
    decouper sep (n + 1) (cs ++ sep :: ds) = cs :: decouper sep n ds := by
  have hdebut : ∀ c ∈ cs, decide (c ≠ sep) = true := by
    intro c hc
    refine decide_eq_true ?_
    intro heq
    rw [heq] at hc
    exact h hc
  have hmem : sep ∈ cs ++ sep :: ds := List.mem_append_right cs List.mem_cons_self
  have htete : (sep :: ds).takeWhile (· ≠ sep) = [] := by simp
  have hreste : (sep :: ds).dropWhile (· ≠ sep) = sep :: ds := by simp
  rw [decouper, if_pos hmem, List.takeWhile_append_of_pos hdebut, htete, List.append_nil,
    List.dropWhile_append_of_pos hdebut, hreste, List.tail_cons]

theorem decouper_intercalate {sep : Char} {champs : List (List Char)} (h : ∀ cs ∈ champs, sep ∉ cs)
    (ds : List Char) :
    decouper sep champs.length (champs.foldr (fun cs suite => cs ++ sep :: suite) ds) =
      champs ++ [ds] := by
  induction champs with
  | nil => rfl
  | cons cs champs ih =>
      rw [List.foldr_cons, List.length_cons, decouper_append (h cs List.mem_cons_self),
        ih fun x hx => h x (List.mem_cons_of_mem cs hx), List.cons_append]

/-- `s[-n:]`: the last `n` characters. -/
def derniers (n : Nat) (s : String) : String :=
  String.ofList (s.toList.drop (s.toList.length - n))

/-- `s[:n]`: the first `n` characters. -/
def premiers (n : Nat) (s : String) : String := String.ofList (s.toList.take n)

/-- `a or b` on strings: the first one that is not empty. -/
def ou (a b : String) : String := if a = "" then b else a

/-- `str(x)` of an optional integer. -/
def ofOptionInt : Option Int → String
  | none => "None"
  | some n => toString n

theorem coupe_unique {α : Type*} {p : α → Prop} {u u' v v' : List α} (h : u ++ v = u' ++ v')
    (hu : ∀ a ∈ u, p a) (hu' : ∀ a ∈ u', p a) (hv : ∀ a, v.head? = some a → ¬ p a)
    (hv' : ∀ a, v'.head? = some a → ¬ p a) : u = u' ∧ v = v' := by
  induction u generalizing u' with
  | nil =>
      cases u' with
      | nil => exact ⟨rfl, h⟩
      | cons a u' =>
          rw [List.nil_append] at h
          exact absurd (hu' a List.mem_cons_self) (hv a (by rw [h]; rfl))
  | cons a u ih =>
      cases u' with
      | nil =>
          rw [List.nil_append] at h
          exact absurd (hu a List.mem_cons_self) (hv' a (by rw [← h]; rfl))
      | cons b u' =>
          obtain ⟨rfl, hsuite⟩ := List.cons.inj h
          obtain ⟨rfl, hfin⟩ := ih hsuite (fun c hc => hu c (List.mem_cons_of_mem a hc))
            fun c hc => hu' c (List.mem_cons_of_mem a hc)
          exact ⟨rfl, hfin⟩

/-- `\r\n` and `\r` both end a line as `\n` does. -/
def universel : List Char → List Char
  | '\r' :: '\n' :: cs => '\n' :: universel cs
  | '\r' :: cs => '\n' :: universel cs
  | c :: cs => c :: universel cs
  | [] => []

section Universel

variable {c : Char} {cs : List Char}

theorem universel_cons (hr : c ≠ '\r') (cs : List Char) :
    universel (c :: cs) = c :: universel cs := by
  rw [universel]
  · intro _ hc _
    exact hr hc
  · exact hr

theorem universel_cr (hcs : ∀ ds, cs ≠ '\n' :: ds) :
    universel ('\r' :: cs) = '\n' :: universel cs := by
  rw [universel]
  exact hcs

/-- The cases of `universel`, for the proofs by induction on what it reads. -/
@[elab_as_elim]
theorem universel_induction {motive : List Char → Prop} (nil : motive [])
    (crlf : ∀ cs, motive cs → motive ('\r' :: '\n' :: cs))
    (cr : ∀ cs, (∀ ds, cs ≠ '\n' :: ds) → motive cs → motive ('\r' :: cs))
    (autre : ∀ c cs, c ≠ '\r' → motive cs → motive (c :: cs)) (cs : List Char) : motive cs := by
  fun_induction universel cs with
  | case1 cs ih => exact crlf cs ih
  | case2 cs hcs ih => exact cr cs hcs ih
  | case3 c cs _ hr ih => exact autre c cs hr ih
  | case4 => exact nil

theorem universel_append (hr : c ≠ '\r') (hn : c ≠ '\n') (cs ds : List Char) :
    universel (cs ++ c :: ds) = universel cs ++ c :: universel ds := by
  induction cs using universel_induction with
  | nil => exact universel_cons hr ds
  | crlf cs ih =>
      change '\n' :: universel (cs ++ c :: ds) = '\n' :: universel cs ++ c :: universel ds
      rw [ih, List.cons_append]
  | cr cs hcs ih =>
      rw [List.cons_append, universel_cr hcs, universel_cr, ih, List.cons_append]
      intro es heq
      cases cs with
      | nil =>
          cases heq
          exact hn rfl
      | cons d cs =>
          cases heq
          exact hcs cs rfl
  | autre d cs hd ih => rw [List.cons_append, universel_cons hd, universel_cons hd, ih,
      List.cons_append]

theorem mem_universel (h : c ∈ universel cs) : c ∈ cs ∨ c = '\n' := by
  induction cs using universel_induction with
  | nil => cases h
  | crlf cs ih =>
      have hmem : c ∈ '\n' :: universel cs := h
      grind
  | cr cs hcs ih =>
      rw [universel_cr hcs] at h
      grind
  | autre d cs hd ih =>
      rw [universel_cons hd] at h
      grind

theorem universel_eq_nil : universel cs = [] ↔ cs = [] := by
  cases cs using universel_induction with
  | nil => exact iff_of_true rfl rfl
  | crlf cs => exact iff_of_false (List.cons_ne_nil _ _) (List.cons_ne_nil _ _)
  | cr cs hcs => simp [universel_cr hcs]
  | autre d cs hd => simp [universel_cons hd]

theorem universel_of_notMem (h : '\r' ∉ cs) : universel cs = cs := by
  induction cs with
  | nil => rfl
  | cons c cs ih =>
      rw [List.mem_cons, not_or] at h
      rw [universel_cons (Ne.symm h.1), ih h.2]

theorem notMem_universel (cs : List Char) : '\r' ∉ universel cs := by
  induction cs using universel_induction with
  | nil => exact List.not_mem_nil
  | crlf cs ih =>
      change '\r' ∉ '\n' :: universel cs
      simp [ih]
  | cr cs hcs ih => simp [universel_cr hcs, ih]
  | autre d cs hd ih => simp [universel_cons hd, ih, Ne.symm hd]

theorem universel_eq_self_iff : universel cs = cs ↔ '\r' ∉ cs := by
  constructor
  · intro h
    rw [← h]
    exact notMem_universel cs
  · exact universel_of_notMem

theorem universel_eq_singleton (hn : c ≠ '\n') (h : universel cs = [c]) : cs = [c] := by
  cases cs using universel_induction with
  | nil => cases h
  | crlf cs => exact absurd (List.cons.inj h).1.symm hn
  | cr cs hcs =>
      rw [universel_cr hcs] at h
      exact absurd (List.cons.inj h).1.symm hn
  | autre d cs hd =>
      rw [universel_cons hd] at h
      rw [(List.cons.inj h).1, universel_eq_nil.mp (List.cons.inj h).2]

end Universel

end Hermes.Lib.Texte
