import Hermes.Lib.Dict
import Mathlib.Data.List.Infix
import Mathlib.Data.List.DropRight

/-! # Trees of directories

A node is a file or a directory of named nodes, so that an operation on a whole subtree is one
operation on a node.
-/

namespace Hermes.Lib.Arborescence

abbrev Lieu := List String

inductive Noeud (ω : Type*) where
  | fichier (contenu : ω)
  | dossier (enfants : List (String × Noeud ω))

inductive Vue (ω : Type*) where
  | fichier (contenu : ω)
  | dossier
  deriving DecidableEq

inductive Erreur where
  | fileNotFound
  | fileExists
  | notADirectory
  | isADirectory
  | sameFile
  | occupe
  | valeur
  deriving DecidableEq

variable {ω : Type*}

def Noeud.vue : Noeud ω → Vue ω
  | .fichier c => .fichier c
  | .dossier _ => .dossier

def lire : Noeud ω → Lieu → Option (Noeud ω)
  | n, [] => some n
  | .fichier _, _ :: _ => none
  | .dossier es, x :: p =>
      match Dict.get? es x with
      | none => none
      | some n => lire n p

def voir (t : Noeud ω) (p : Lieu) : Option (Vue ω) := (lire t p).map Noeud.vue

/-- `m` in place of what stands at the location, when its directory exists. -/
def poser : Noeud ω → Lieu → Noeud ω → Noeud ω
  | _, [], m => m
  | .fichier c, _ :: _, _ => .fichier c
  | .dossier es, [x], m => .dossier (Dict.set es x m)
  | .dossier es, x :: y :: p, m =>
      match Dict.get? es x with
      | none => .dossier es
      | some n => .dossier (Dict.set es x (poser n (y :: p) m))

/-- The tree without what stands at the location. -/
def oter : Noeud ω → Lieu → Noeud ω
  | t, [] => t
  | .fichier c, _ :: _ => .fichier c
  | .dossier es, [x] => .dossier (Dict.erase es x)
  | .dossier es, x :: y :: p =>
      match Dict.get? es x with
      | none => .dossier es
      | some n => .dossier (Dict.set es x (oter n (y :: p)))

section Lecture

variable {t n m : Noeud ω} {p q : Lieu} {v : Vue ω}

@[simp] theorem lire_nil (t : Noeud ω) : lire t [] = some t := by cases t <;> rfl

@[simp] theorem lire_fichier_cons (c : ω) (x : String) (p : Lieu) :
    lire (.fichier c) (x :: p) = none := rfl

theorem lire_dossier_cons (es : List (String × Noeud ω)) (x : String) (p : Lieu) :
    lire (.dossier es) (x :: p) = (Dict.get? es x).bind fun n => lire n p := by
  rw [lire]
  cases Dict.get? es x <;> rfl

theorem lire_append (t : Noeud ω) (p q : Lieu) :
    lire t (p ++ q) = (lire t p).bind fun n => lire n q := by
  induction p generalizing t with
  | nil => simp
  | cons x p ih =>
      cases t with
      | fichier c => rfl
      | dossier es =>
          rw [List.cons_append, lire_dossier_cons, lire_dossier_cons]
          cases Dict.get? es x with
          | none => rfl
          | some n => exact ih n

theorem voir_nil (t : Noeud ω) : voir t [] = some t.vue := by simp [voir]

@[simp] theorem voir_nil_dossier (es : List (String × Noeud ω)) :
    voir (.dossier es) [] = some .dossier := by simp [voir, Noeud.vue]

theorem voir_fichier_cons (c : ω) (x : String) (p : Lieu) :
    voir (.fichier c) (x :: p) = none := rfl

theorem voir_dossier_cons (es : List (String × Noeud ω)) (x : String) (p : Lieu) :
    voir (.dossier es) (x :: p) = (Dict.get? es x).bind fun n => voir n p := by
  rw [voir, lire_dossier_cons]
  cases Dict.get? es x <;> rfl

theorem voir_append (t : Noeud ω) (p q : Lieu) :
    voir t (p ++ q) = (lire t p).bind fun n => voir n q := by
  rw [voir, lire_append]
  cases lire t p <;> rfl

theorem dossier_of_voir_append (hq : q ≠ []) (h : voir t (p ++ q) = some v) :
    voir t p = some .dossier := by
  rw [voir_append] at h
  cases hn : lire t p with
  | none =>
      rw [hn] at h
      cases h
  | some n =>
      rw [hn] at h
      cases n with
      | fichier c =>
          cases q with
          | nil => exact absurd rfl hq
          | cons x q => cases h
      | dossier es => simp [voir, hn, Noeud.vue]

theorem dossier_au_dessus (hpq : p <+: q) (hne : p ≠ q) (h : voir t q = some v) :
    voir t p = some .dossier := by
  cases hpq with
  | intro r hr =>
      have hr' : r ≠ [] := by
        intro hnil
        rw [hnil, List.append_nil] at hr
        exact hne hr
      rw [← hr] at h
      exact dossier_of_voir_append hr' h

theorem dropLast_ne (hp : p ≠ []) : p.dropLast ≠ p := by
  intro heq
  have hlen := congrArg List.length heq
  have hpos := List.length_pos_iff.mpr hp
  rw [List.length_dropLast] at hlen
  omega

theorem parent_of_voir (hp : p ≠ []) (h : voir t p = some v) :
    voir t p.dropLast = some .dossier :=
  dossier_au_dessus (List.dropLast_prefix p) (dropLast_ne hp) h

end Lecture

section Ecriture

variable {t m : Noeud ω} {p q : Lieu}

theorem voir_poser (hp : p ≠ []) (hparent : voir t p.dropLast = some .dossier) (m : Noeud ω)
    (q : Lieu) :
    voir (poser t p m) q = if p <+: q then voir m (q.drop p.length) else voir t q := by
  induction p generalizing t q with
  | nil => exact absurd rfl hp
  | cons x p ih =>
      cases t with
      | fichier c =>
          cases p with
          | nil => cases hparent
          | cons y p => cases hparent
      | dossier es =>
          cases p with
          | nil =>
              cases q with
              | nil => simp [poser]
              | cons z q =>
                  simp only [poser, voir_dossier_cons, Dict.get?_set, List.cons_prefix_cons,
                    List.nil_prefix, and_true, List.length_cons, List.length_nil,
                    List.drop_succ_cons, List.drop_zero]
                  by_cases hz : z = x
                  · simp [hz]
                  · simp [hz, Ne.symm hz]
          | cons y p =>
              simp only [List.dropLast_cons_cons, voir_dossier_cons] at hparent
              cases hn : Dict.get? es x with
              | none =>
                  rw [hn] at hparent
                  cases hparent
              | some n =>
                  rw [hn] at hparent
                  simp only [poser, hn]
                  cases q with
                  | nil => simp
                  | cons z q =>
                      simp only [voir_dossier_cons, Dict.get?_set, List.cons_prefix_cons]
                      by_cases hz : z = x
                      · subst hz
                        simp only [if_true, true_and, Option.bind_some, List.length_cons,
                          List.drop_succ_cons, hn]
                        exact ih (by simp) hparent q
                      · simp [hz, Ne.symm hz]

theorem voir_oter (hp : p ≠ []) (t : Noeud ω) (q : Lieu) :
    voir (oter t p) q = if p <+: q then none else voir t q := by
  induction p generalizing t q with
  | nil => exact absurd rfl hp
  | cons x p ih =>
      cases t with
      | fichier c =>
          cases q with
          | nil => simp [oter]
          | cons z q => simp [oter, voir_fichier_cons]
      | dossier es =>
          cases p with
          | nil =>
              cases q with
              | nil => simp [oter]
              | cons z q =>
                  simp only [oter, voir_dossier_cons, Dict.get?_erase, List.cons_prefix_cons,
                    List.nil_prefix, and_true]
                  by_cases hz : z = x
                  · simp [hz]
                  · simp [hz, Ne.symm hz]
          | cons y p =>
              cases hn : Dict.get? es x with
              | none =>
                  simp only [oter, hn]
                  cases q with
                  | nil => simp
                  | cons z q =>
                      simp only [voir_dossier_cons, List.cons_prefix_cons]
                      by_cases hz : x = z
                      · subst hz
                        simp [hn]
                      · simp [hz]
              | some n =>
                  simp only [oter, hn]
                  cases q with
                  | nil => simp
                  | cons z q =>
                      simp only [voir_dossier_cons, Dict.get?_set, List.cons_prefix_cons]
                      by_cases hz : z = x
                      · subst hz
                        simp only [if_true, true_and, Option.bind_some, hn]
                        exact ih (by simp) n q
                      · simp [hz, Ne.symm hz]

theorem voir_poser_ailleurs (hp : p ≠ []) (hparent : voir t p.dropLast = some .dossier)
    (hq : ¬p <+: q) : voir (poser t p m) q = voir t q := by
  rw [voir_poser hp hparent, if_neg hq]

theorem voir_poser_self (hp : p ≠ []) (hparent : voir t p.dropLast = some .dossier) :
    voir (poser t p m) p = some m.vue := by
  rw [voir_poser hp hparent, if_pos List.prefix_rfl, List.drop_length, voir_nil]

theorem voir_oter_ailleurs (hq : ¬p <+: q) : voir (oter t p) q = voir t q := by
  cases p with
  | nil => exact absurd List.nil_prefix hq
  | cons x p => rw [voir_oter (by simp), if_neg hq]

end Ecriture

structure Brut where
  base : Lieu
  parts : List String
  deriving DecidableEq

namespace Brut

/-- The location of the path when every `..` is taken back, no directory consulted. -/
def lieu (b : Brut) : Lieu :=
  b.parts.foldl (fun pos x => if x = ".." then pos.dropLast else pos ++ [x]) b.base

def parent (b : Brut) : Brut := { b with parts := b.parts.dropLast }

def joindre (b : Brut) (nom : String) : Brut :=
  if nom = "." then b else { b with parts := b.parts ++ [nom] }

def basename (b : Brut) : String := b.parts.getLastD "."

/-- The path ends with no name of its own: the base itself, or `..`. -/
def sansNom (b : Brut) : Bool := b.parts.getLastD ".." = ".."

end Brut

def marcher (t : Noeud ω) : Lieu → List String → Except Erreur Lieu
  | pos, [] => .ok pos
  | pos, x :: parts =>
      match voir t pos with
      | none => .error .fileNotFound
      | some (.fichier _) => .error .notADirectory
      | some .dossier => marcher t (if x = ".." then pos.dropLast else pos ++ [x]) parts

def atteindre (t : Noeud ω) (b : Brut) : Except Erreur Lieu := marcher t b.base b.parts

/-- `os.stat`: what stands where the path leads, if it leads anywhere. -/
def stat (t : Noeud ω) (b : Brut) : Option (Vue ω) :=
  match atteindre t b with
  | .ok p => voir t p
  | .error _ => none

def existe (t : Noeud ω) (b : Brut) : Bool := (stat t b).isSome

def estDossier (t : Noeud ω) (b : Brut) : Bool :=
  match stat t b with
  | some .dossier => true
  | _ => false

section Marche

variable {t : Noeud ω} {b : Brut} {p pos : Lieu} {parts : List String} {v : Vue ω}

theorem lieu_of_marcher (h : marcher t pos parts = .ok p) :
    parts.foldl (fun pos x => if x = ".." then pos.dropLast else pos ++ [x]) pos = p := by
  induction parts generalizing pos with
  | nil =>
      cases h
      rfl
  | cons x parts ih =>
      rw [marcher] at h
      split at h
      · cases h
      · cases h
      · exact ih h

theorem lieu_of_atteindre (h : atteindre t b = .ok p) : b.lieu = p := lieu_of_marcher h

theorem marcher_append (t : Noeud ω) (pos : Lieu) (parts suite : List String) :
    marcher t pos (parts ++ suite) = (marcher t pos parts).bind fun p => marcher t p suite := by
  induction parts generalizing pos with
  | nil => rfl
  | cons x parts ih =>
      rw [List.cons_append, marcher, marcher]
      cases voir t pos with
      | none => rfl
      | some v =>
          cases v with
          | fichier c => rfl
          | dossier => exact ih _

theorem parent_of_marcher (h : marcher t pos parts = .ok p) (hpos : (voir t pos).isSome ∨ parts ≠ [])
    (hp : voir t p = none) : p ≠ [] ∧ voir t p.dropLast = some .dossier := by
  induction parts generalizing pos with
  | nil =>
      cases h
      rw [hp] at hpos
      simp at hpos
  | cons x parts ih =>
      rw [marcher] at h
      split at h
      · cases h
      · cases h
      · next hdossier =>
          cases parts with
          | cons y parts => exact ih h (.inr (by simp))
          | nil =>
              rw [marcher] at h
              cases h
              split at hp
              · next hx =>
                  exfalso
                  by_cases hnil : pos = []
                  · rw [hnil, List.dropLast_nil] at hp
                    rw [hnil, hp] at hdossier
                    cases hdossier
                  · rw [parent_of_voir hnil hdossier] at hp
                    cases hp
              · next hx =>
                  rw [if_neg hx]
                  simp [hdossier]

theorem stat_eq_some : stat t b = some v ↔ ∃ p, atteindre t b = .ok p ∧ voir t p = some v := by
  unfold stat
  split
  · next p h => simp [h]
  · next e h => simp [h]

theorem estDossier_iff : estDossier t b = true ↔ stat t b = some .dossier := by
  unfold estDossier
  split
  · next h => simp [h]
  · next h =>
      simp only [Bool.false_eq_true, false_iff]
      exact h

theorem voir_lieu_of_stat (h : stat t b = some v) : voir t b.lieu = some v := by
  obtain ⟨p, hp, hv⟩ := stat_eq_some.mp h
  rw [lieu_of_atteindre hp]
  exact hv

end Marche

def osMkdir (t : Noeud ω) (b : Brut) : Except Erreur (Noeud ω) :=
  match atteindre t b with
  | .error e => .error e
  | .ok p =>
      if b.parts = [] || (voir t p).isSome then .error .fileExists
      else .ok (poser t p (.dossier []))

/-- `Path.mkdir(parents=True, exist_ok=True)` of a path given by its parts, the last first. -/
def mkdirs (t : Noeud ω) (base : Lieu) : List String → Noeud ω × Option Erreur
  | [] => (t, none)
  | x :: parts =>
      let b : Brut := ⟨base, (x :: parts).reverse⟩
      match osMkdir t b with
      | .ok t' => (t', none)
      | .error .fileNotFound =>
          match mkdirs t base parts with
          | (t', some e) => (t', some e)
          | (t', none) =>
              match osMkdir t' b with
              | .ok t'' => (t'', none)
              | .error .fileNotFound => (t', some .fileNotFound)
              | .error e => if estDossier t' b then (t', none) else (t', some e)
      | .error e => if estDossier t b then (t, none) else (t, some e)

def mkdir (t : Noeud ω) (b : Brut) : Noeud ω × Option Erreur := mkdirs t b.base b.parts.reverse

/-- `open` for writing or appending: where the file stands, or is to stand. -/
def ouvrir (t : Noeud ω) (b : Brut) : Except Erreur Lieu :=
  match atteindre t b with
  | .error e => .error e
  | .ok p =>
      match voir t p with
      | some .dossier => .error .isADirectory
      | some (.fichier _) => .ok p
      | none => if b.parts = [] then .error .isADirectory else .ok p

def contenu (t : Noeud ω) (b : Brut) : Except Erreur ω :=
  match atteindre t b with
  | .error e => .error e
  | .ok p =>
      match voir t p with
      | some (.fichier c) => .ok c
      | some .dossier => .error .isADirectory
      | none => .error .fileNotFound

theorem contenu_eq_ok {t : Noeud ω} {b : Brut} {c : ω} :
    contenu t b = .ok c ↔ atteindre t b = .ok b.lieu ∧ voir t b.lieu = some (.fichier c) := by
  unfold contenu
  cases hp : atteindre t b with
  | error e => simp
  | ok p =>
      rw [lieu_of_atteindre hp]
      dsimp only
      cases hv : voir t p with
      | none => simp
      | some v =>
          cases v with
          | fichier c' => simp
          | dossier => simp

def samefile (t : Noeud ω) (a b : Brut) : Bool :=
  existe t a && existe t b && atteindre t a = atteindre t b

/-- Into the directory, under the name of the source, when the destination is one. -/
def cibleDeCopie (t : Noeud ω) (src dst : Brut) : Brut :=
  if estDossier t dst then dst.joindre src.basename else dst

def copy2 (t : Noeud ω) (src dst : Brut) : Except Erreur (Noeud ω) :=
  if samefile t src (cibleDeCopie t src dst) then .error .sameFile
  else
    match contenu t src with
    | .error e => .error e
    | .ok c =>
        match ouvrir t (cibleDeCopie t src dst) with
        | .error e => .error e
        | .ok p => .ok (poser t p (.fichier c))

def refus (n : Noeud ω) : Option (Noeud ω) → Option Erreur
  | none => none
  | some (.fichier _) =>
      match n with
      | .fichier _ => none
      | .dossier _ => some .notADirectory
  | some (.dossier es) =>
      match n with
      | .fichier _ => some .isADirectory
      | .dossier _ => if es.isEmpty then none else some .occupe

/-- `os.rename` inside one file system. -/
def renommer (t : Noeud ω) (src dst : Brut) : Except Erreur (Noeud ω) :=
  if src.sansNom || dst.sansNom then .error .occupe
  else
    match atteindre t src, atteindre t dst with
    | .error e, _ => .error e
    | _, .error e => .error e
    | .ok p, .ok q =>
        match lire t p with
        | none => .error .fileNotFound
        | some n =>
            if p = q then .ok t
            else if p <+: q then .error .valeur
            else
              match refus n (lire t q) with
              | some e => .error e
              | none => .ok (poser (oter t p) q n)

def unlink (t : Noeud ω) (b : Brut) : Except Erreur (Noeud ω) :=
  match atteindre t b with
  | .error e => .error e
  | .ok p =>
      match voir t p with
      | none => .error .fileNotFound
      | some .dossier => .error .isADirectory
      | some (.fichier _) => .ok (oter t p)

def rmtree (t : Noeud ω) (b : Brut) : Noeud ω × Option Erreur :=
  match atteindre t b with
  | .error e => (t, some e)
  | .ok p =>
      match voir t p with
      | none => (t, some .fileNotFound)
      | some (.fichier _) => (t, some .notADirectory)
      | some .dossier =>
          if b.sansNom then (poser t p (.dossier []), some .occupe) else (oter t p, none)

/-- `shutil.copytree` to a location where nothing stands. -/
def copierArbre (t : Noeud ω) (src dst : Brut) : Except Erreur (Noeud ω) :=
  match atteindre t src with
  | .error e => .error e
  | .ok p =>
      match lire t p with
      | none => .error .fileNotFound
      | some (.fichier _) => .error .notADirectory
      | some (.dossier es) =>
          match atteindre t dst with
          | .error e => .error e
          | .ok q =>
              if dst.parts = [] || (voir t q).isSome then .error .fileExists
              else .ok (poser t q (.dossier es))

/-- The fallback of `shutil.move` when the rename is refused. -/
def deplacerParCopie (t : Noeud ω) (src dst reel : Brut) : Noeud ω × Option Erreur :=
  if estDossier t src then
    if src.lieu <+: dst.lieu then (t, some .valeur)
    else
      match copierArbre t src reel with
      | .error e => (t, some e)
      | .ok t' => rmtree t' src
  else
    match copy2 t src reel with
    | .error e => (t, some e)
    | .ok t' =>
        match unlink t' src with
        | .error e => (t', some e)
        | .ok t'' => (t'', none)

def deplacerOu (t : Noeud ω) (src dst reel : Brut) : Noeud ω × Option Erreur :=
  match renommer t src reel with
  | .ok t' => (t', none)
  | .error _ => deplacerParCopie t src dst reel

/-- `shutil.move`. -/
def deplacer (t : Noeud ω) (src dst : Brut) : Noeud ω × Option Erreur :=
  if estDossier t dst then
    if samefile t src dst then
      match renommer t src dst with
      | .ok t' => (t', none)
      | .error e => (t, some e)
    else
      if existe t (dst.joindre src.basename) then (t, some .fileExists)
      else deplacerOu t src dst (dst.joindre src.basename)
  else deplacerOu t src dst dst

/-- Everything that stood in `t` stands in `t'`. -/
def Croit (t t' : Noeud ω) : Prop := ∀ q v, voir t q = some v → voir t' q = some v

section Cadre

variable {t t' : Noeud ω} {b src dst reel : Brut} {f p q : Lieu} {c c' : ω} {parts : List String}

theorem Croit.refl (t : Noeud ω) : Croit t t := fun _ _ h => h

theorem Croit.trans {t'' : Noeud ω} (h : Croit t t') (h' : Croit t' t'') : Croit t t'' :=
  fun q v hq => h' q v (h q v hq)

theorem parent_of_atteindre (h : atteindre t b = .ok p) (hparts : b.parts ≠ [])
    (hp : voir t p = none) : p ≠ [] ∧ voir t p.dropLast = some .dossier :=
  parent_of_marcher h (.inr hparts) hp

theorem croit_poser {m : Noeud ω} (hp : p ≠ []) (hparent : voir t p.dropLast = some .dossier)
    (habsent : voir t p = none) : Croit t (poser t p m) := by
  intro q v hq
  rw [voir_poser hp hparent, if_neg]
  · exact hq
  · intro hpq
    by_cases heq : p = q
    · rw [heq, hq] at habsent
      cases habsent
    · rw [dossier_au_dessus hpq heq hq] at habsent
      cases habsent

theorem osMkdir_ok (h : osMkdir t b = .ok t') : ∃ p, atteindre t b = .ok p ∧ p ≠ [] ∧
    voir t p.dropLast = some .dossier ∧ voir t p = none ∧ t' = poser t p (.dossier []) := by
  unfold osMkdir at h
  split at h
  · cases h
  · next p hp =>
      split at h
      · cases h
      · next hcond =>
          cases h
          simp only [Bool.or_eq_true, decide_eq_true_eq, not_or] at hcond
          have habsent : voir t p = none := by simpa using hcond.2
          have hparent := parent_of_atteindre hp hcond.1 habsent
          exact ⟨p, hp, hparent.1, hparent.2, habsent, rfl⟩

theorem croit_osMkdir (h : osMkdir t b = .ok t') : Croit t t' := by
  obtain ⟨p, -, hne, hparent, habsent, rfl⟩ := osMkdir_ok h
  exact croit_poser hne hparent habsent

theorem croit_mkdirs (t : Noeud ω) (base : Lieu) (parts : List String) :
    Croit t (mkdirs t base parts).1 := by
  induction parts with
  | nil => exact Croit.refl t
  | cons x parts ih =>
      rw [mkdirs]
      split
      · next t' h => exact croit_osMkdir h
      · split
        · next hrec =>
            rw [hrec] at ih
            exact ih
        · next t' hrec =>
            rw [hrec] at ih
            split
            · next t'' h => exact ih.trans (croit_osMkdir h)
            · exact ih
            · split <;> exact ih
      · split <;> exact Croit.refl t

theorem croit_mkdir (t : Noeud ω) (b : Brut) : Croit t (mkdir t b).1 := croit_mkdirs t b.base _

theorem voir_ecrire (h : ouvrir t b = .ok p) (c : ω) (q : Lieu) :
    voir (poser t p (.fichier c)) q = if q = p then some (.fichier c) else voir t q := by
  have hcas : (∃ c', voir t p = some (.fichier c')) ∨
      (voir t p = none ∧ p ≠ [] ∧ voir t p.dropLast = some .dossier) := by
    unfold ouvrir at h
    split at h
    · cases h
    · next p' hp' =>
        split at h
        · cases h
        · next c' hc' =>
            cases h
            exact .inl ⟨c', hc'⟩
        · next hnone =>
            split at h
            · cases h
            · next hparts =>
                cases h
                exact .inr ⟨hnone, parent_of_atteindre hp' hparts hnone⟩
  by_cases hnil : p = []
  · subst hnil
    rcases hcas with ⟨c', hc'⟩ | ⟨_, hne, _⟩
    · cases t with
      | fichier c₀ =>
          cases q with
          | nil => simp [poser, voir_nil, Noeud.vue]
          | cons x q => simp [poser, voir_fichier_cons]
      | dossier es => simp at hc'
    · exact absurd rfl hne
  · have hparent : voir t p.dropLast = some .dossier := by
      rcases hcas with ⟨c', hc'⟩ | ⟨_, _, hparent⟩
      · exact parent_of_voir hnil hc'
      · exact hparent
    rw [voir_poser hnil hparent]
    by_cases hpq : p <+: q
    · rw [if_pos hpq]
      by_cases heq : q = p
      · rw [if_pos heq, heq, List.drop_length, voir_nil]
        rfl
      · rw [if_neg heq]
        -- nothing stands below a file, nor below nothing
        have hbelow : voir t q = none := by
          cases hv : voir t q with
          | none => rfl
          | some v =>
              have hdossier := dossier_au_dessus hpq (Ne.symm heq) hv
              rcases hcas with ⟨c', hc'⟩ | ⟨hnone, _, _⟩
              · rw [hc'] at hdossier
                cases hdossier
              · rw [hnone] at hdossier
                cases hdossier
        rw [hbelow]
        obtain ⟨r, hr⟩ := hpq
        cases r with
        | nil =>
            rw [List.append_nil] at hr
            exact absurd hr.symm heq
        | cons x r =>
            rw [← hr, List.drop_left]
            rfl
    · rw [if_neg hpq, if_neg]
      intro heq
      exact hpq (heq ▸ List.prefix_rfl)

theorem lieu_of_ouvrir (h : ouvrir t b = .ok p) : b.lieu = p := by
  unfold ouvrir at h
  split at h
  · cases h
  · next p' hp' =>
      split at h
      · cases h
      · cases h
        exact lieu_of_atteindre hp'
      · split at h
        · cases h
        · cases h
          exact lieu_of_atteindre hp'

theorem voir_copy2 (h : copy2 t src dst = .ok t') (hcible : (cibleDeCopie t src dst).lieu ≠ f) :
    voir t' f = voir t f := by
  unfold copy2 at h
  split at h
  · cases h
  · split at h
    · cases h
    · split at h
      · cases h
      · next p hp =>
          cases h
          rw [voir_ecrire hp, if_neg]
          intro heq
          exact hcible ((lieu_of_ouvrir hp).trans heq.symm)

theorem voir_unlink (h : unlink t b = .ok t') (hf : ¬b.lieu <+: f) : voir t' f = voir t f := by
  unfold unlink at h
  split at h
  · cases h
  · next p hp =>
      rw [lieu_of_atteindre hp] at hf
      split at h
      · cases h
      · cases h
      · cases h
        exact voir_oter_ailleurs hf

theorem voir_rmtree (hf : ¬b.lieu <+: f) : voir (rmtree t b).1 f = voir t f := by
  unfold rmtree
  split
  · rfl
  · next p hp =>
      rw [lieu_of_atteindre hp] at hf
      split
      · rfl
      · rfl
      · next hdossier =>
          split
          · have hne : p ≠ [] := by
              intro hnil
              exact hf (hnil ▸ List.nil_prefix)
            exact voir_poser_ailleurs hne (parent_of_voir hne hdossier) hf
          · exact voir_oter_ailleurs hf

theorem voir_copierArbre (h : copierArbre t src dst = .ok t') (hf : voir t f = some (.fichier c)) :
    voir t' f = some (.fichier c) := by
  unfold copierArbre at h
  split at h
  · cases h
  · split at h
    · cases h
    · cases h
    · split at h
      · cases h
      · next q hq =>
          split at h
          · cases h
          · next hcond =>
              cases h
              simp only [Bool.or_eq_true, decide_eq_true_eq, not_or] at hcond
              have habsent : voir t q = none := by simpa using hcond.2
              have hparent := parent_of_atteindre hq hcond.1 habsent
              exact croit_poser hparent.1 hparent.2 habsent f _ hf

theorem voir_poser_oter {n : Noeud ω} (hp : ¬p <+: f) (hpq : ¬p <+: q) (hq : q ≠ [])
    (hparent : voir t q.dropLast = some .dossier) (hf : ¬q <+: f) :
    voir (poser (oter t p) q n) f = voir t f := by
  have hparent' : voir (oter t p) q.dropLast = some .dossier := by
    rw [voir_oter_ailleurs fun h => hpq (h.trans (List.dropLast_prefix q))]
    exact hparent
  rw [voir_poser_ailleurs hq hparent' hf, voir_oter_ailleurs hp]

theorem rien_dessous {n : Noeud ω} {m : Option (Noeud ω)} (h : refus n m = none) {x : String} :
    (m.bind fun m => voir m (x :: p)) = none := by
  cases m with
  | none => rfl
  | some m =>
      cases m with
      | fichier c => rfl
      | dossier es =>
          cases n with
          | fichier c => cases h
          | dossier es' =>
              cases es with
              | nil => rfl
              | cons e es => cases h

theorem voir_renommer (h : renommer t src dst = .ok t') (hsrc : ¬src.lieu <+: f)
    (hdst : dst.lieu ≠ f) (hf : voir t f = some (.fichier c)) :
    voir t' f = some (.fichier c) := by
  unfold renommer at h
  split at h
  · cases h
  · next hnom =>
      simp only [Bool.or_eq_true, not_or] at hnom
      split at h
      · cases h
      · cases h
      · next p q hp hq =>
          rw [lieu_of_atteindre hp] at hsrc
          rw [lieu_of_atteindre hq] at hdst
          split at h
          · cases h
          · next n hn =>
              split at h
              · cases h
                exact hf
              · split at h
                · cases h
                · next hpq =>
                    split at h
                    · cases h
                    · next hrefus =>
                        cases h
                        have hqf : ¬q <+: f := by
                          intro ⟨r, hr⟩
                          cases r with
                          | nil =>
                              rw [List.append_nil] at hr
                              exact hdst hr
                          | cons x r =>
                              rw [← hr, voir_append, rien_dessous hrefus] at hf
                              cases hf
                        have hparts : dst.parts ≠ [] := by
                          intro hnil
                          apply hnom.2
                          simp [Brut.sansNom, hnil]
                        have hnil : q ≠ [] := by
                          intro hnil
                          exact hqf (hnil ▸ List.nil_prefix)
                        have hparent : voir t q.dropLast = some .dossier := by
                          cases hv : voir t q with
                          | none => exact (parent_of_atteindre hq hparts hv).2
                          | some v => exact parent_of_voir hnil hv
                        rw [voir_poser_oter hsrc hpq hnil hparent hqf]
                        exact hf

theorem voir_deplacerOu (hsrc : ¬src.lieu <+: f) (hreel : reel.lieu ≠ f)
    (hdossier : estDossier t reel = false) (hf : voir t f = some (.fichier c)) :
    voir (deplacerOu t src dst reel).1 f = some (.fichier c) := by
  unfold deplacerOu
  split
  · next t' h => exact voir_renommer h hsrc hreel hf
  · unfold deplacerParCopie
    split
    · split
      · exact hf
      · split
        · exact hf
        · next t' h =>
            rw [voir_rmtree hsrc]
            exact voir_copierArbre h hf
    · split
      · exact hf
      · next t' h =>
          have hcible : (cibleDeCopie t src reel).lieu ≠ f := by
            simpa [cibleDeCopie, hdossier] using hreel
          have ht' : voir t' f = some (.fichier c) := by
            rw [voir_copy2 h hcible]
            exact hf
          split
          · exact ht'
          · next t'' h' =>
              rw [voir_unlink h' hsrc]
              exact ht'

theorem atteindre_joindre (h : stat t b = some .dossier) (nom : String) :
    atteindre t (b.joindre nom) = .ok (b.joindre nom).lieu := by
  obtain ⟨p, hp, hdossier⟩ := stat_eq_some.mp h
  have hreached : ∃ p', atteindre t (b.joindre nom) = .ok p' := by
    unfold Brut.joindre
    split
    · exact ⟨p, hp⟩
    · have hmarche : marcher t b.base b.parts = .ok p := hp
      refine ⟨if nom = ".." then p.dropLast else p ++ [nom], ?_⟩
      simp [atteindre, marcher_append, hmarche, Except.bind, marcher, hdossier]
  obtain ⟨p', hp'⟩ := hreached
  rw [lieu_of_atteindre hp', hp']

theorem voir_deplacer (hsrc : ¬src.lieu <+: f) (hdst : dst.lieu ≠ f)
    (hf : voir t f = some (.fichier c)) :
    voir (deplacer t src dst).1 f = some (.fichier c) := by
  unfold deplacer
  split
  · next hdossier =>
      split
      · split
        · next t' h => exact voir_renommer h hsrc hdst hf
        · exact hf
      · split
        · exact hf
        · next hexiste =>
            have hlibre : voir t (dst.joindre src.basename).lieu = none := by
              have hreached := atteindre_joindre (estDossier_iff.mp hdossier) src.basename
              simpa [existe, stat, hreached] using hexiste
            apply voir_deplacerOu hsrc _ _ hf
            · intro heq
              rw [heq, hf] at hlibre
              cases hlibre
            · cases hstat : estDossier t (dst.joindre src.basename) with
              | false => rfl
              | true =>
                  rw [voir_lieu_of_stat (estDossier_iff.mp hstat)] at hlibre
                  cases hlibre
  · next hdossier =>
      exact voir_deplacerOu hsrc hdst (by simpa using hdossier) hf

end Cadre

/-- The names of the entries of each directory are distinct. -/
def Valide (t : Noeud ω) : Prop :=
  ∀ p es, lire t p = some (.dossier es) → (Dict.keys es).Nodup

structure Arbre (ω : Type*) where
  racine : Noeud ω
  valide : Valide racine

section Validite

variable {t n m : Noeud ω} {es : List (String × Noeud ω)} {p : Lieu} {x : String}

theorem Valide.keys (h : Valide (.dossier es)) : (Dict.keys es).Nodup := h [] es rfl

theorem Valide.lire (h : Valide t) (hn : lire t p = some n) : Valide n := by
  intro q es hq
  apply h (p ++ q)
  rw [lire_append, hn]
  exact hq

theorem Valide.enfant (h : Valide (.dossier es)) (hn : Dict.get? es x = some n) : Valide n := by
  apply h.lire (p := [x])
  rw [lire_dossier_cons, hn]
  simp

theorem valide_fichier (c : ω) : Valide (.fichier c) := by
  intro p es h
  cases p with
  | nil => simp at h
  | cons x p => cases h

theorem valide_dossier (hkeys : (Dict.keys es).Nodup)
    (henfants : ∀ x n, Dict.get? es x = some n → Valide n) : Valide (.dossier es) := by
  intro p es' h
  cases p with
  | nil =>
      simp only [lire_nil, Option.some.injEq, Noeud.dossier.injEq] at h
      rw [← h]
      exact hkeys
  | cons x p =>
      rw [lire_dossier_cons] at h
      cases hn : Dict.get? es x with
      | none =>
          rw [hn] at h
          cases h
      | some n =>
          rw [hn] at h
          exact henfants x n hn p es' h

theorem valide_vide : Valide (.dossier [] : Noeud ω) :=
  valide_dossier List.nodup_nil nofun

theorem Valide.tete (h : Valide (.dossier ((x, n) :: es))) : x ∉ Dict.keys es ∧ Valide n :=
  ⟨(List.nodup_cons.mp h.keys).1, h.enfant (x := x) (by simp [Dict.get?_cons])⟩

theorem Valide.queue (h : Valide (.dossier ((x, n) :: es))) : Valide (.dossier es) := by
  apply valide_dossier (List.nodup_cons.mp h.keys).2
  intro y m hm
  apply h.enfant (x := y)
  rw [Dict.get?_cons, if_neg]
  · exact hm
  · intro hy
    rw [hy, Dict.get?_eq_none h.tete.1] at hm
    cases hm

theorem Valide.cons (h : Valide (.dossier es)) (hx : x ∉ Dict.keys es) (hn : Valide n) :
    Valide (.dossier ((x, n) :: es)) := by
  have hkeys : (Dict.keys ((x, n) :: es)).Nodup := List.nodup_cons.mpr ⟨hx, h.keys⟩
  apply valide_dossier hkeys
  intro y m hm
  rw [Dict.get?_cons] at hm
  split at hm
  · cases hm
    exact hn
  · exact h.enfant hm

theorem Valide.set (h : Valide (.dossier es)) (hn : Valide n) (x : String) :
    Valide (.dossier (Dict.set es x n)) := by
  apply valide_dossier (Dict.nodup_keys_set h.keys x n)
  intro y m hm
  rw [Dict.get?_set] at hm
  split at hm
  · cases hm
    exact hn
  · exact h.enfant hm

theorem Valide.poser (h : Valide t) (hm : Valide m) (p : Lieu) : Valide (poser t p m) := by
  induction p generalizing t with
  | nil => exact hm
  | cons x p ih =>
      cases t with
      | fichier c => exact valide_fichier c
      | dossier es =>
          cases p with
          | nil => exact h.set hm x
          | cons y p =>
              cases hn : Dict.get? es x with
              | none => simpa [Arborescence.poser, hn] using h
              | some n =>
                  simp only [Arborescence.poser, hn]
                  exact h.set (ih (h.enfant hn)) x

mutual

def distincts : Noeud ω → Bool
  | .fichier _ => true
  | .dossier es => decide (Dict.keys es).Nodup && distinctsTous es

def distinctsTous : List (String × Noeud ω) → Bool
  | [] => true
  | (_, n) :: es => distincts n && distinctsTous es

end

mutual

theorem valide_of_distincts : ∀ n : Noeud ω, distincts n = true → Valide n
  | .fichier c, _ => valide_fichier c
  | .dossier es, h => by
      rw [distincts, Bool.and_eq_true] at h
      exact valide_of_distinctsTous es (of_decide_eq_true h.1) h.2

theorem valide_of_distinctsTous : ∀ es : List (String × Noeud ω), (Dict.keys es).Nodup →
    distinctsTous es = true → Valide (.dossier es)
  | [], _, _ => valide_vide
  | (x, n) :: es, hkeys, h => by
      rw [distinctsTous, Bool.and_eq_true] at h
      obtain ⟨hx, hrest⟩ := List.nodup_cons.mp hkeys
      exact (valide_of_distinctsTous es hrest h.2).cons hx (valide_of_distincts n h.1)

end

end Validite

mutual

/-- The entries of a directory copied among those of another one, the ignored names left out; and
whether an exception was met on the way. -/
def fusionner (ignore : String → Bool) :
    List (String × Noeud ω) → List (String × Noeud ω) → List (String × Noeud ω) × Bool
  | [], d => (d, false)
  | (nom, n) :: es, d =>
      if ignore nom then fusionner ignore es d
      else
        let d' := copierEntree ignore nom n d
        let d'' := fusionner ignore es d'.1
        (d''.1, d'.2 || d''.2)

def copierEntree (ignore : String → Bool) (nom : String) :
    Noeud ω → List (String × Noeud ω) → List (String × Noeud ω) × Bool
  | .fichier c, d =>
      match Dict.get? d nom with
      | some (.dossier dedans) =>
          match Dict.get? dedans nom with
          | some (.dossier _) => (d, true)
          | _ => (Dict.set d nom (.dossier (Dict.set dedans nom (.fichier c))), false)
      | _ => (Dict.set d nom (.fichier c), false)
  | .dossier es, d =>
      match Dict.get? d nom with
      | some (.fichier _) => (d, true)
      | some (.dossier dedans) =>
          let r := fusionner ignore es dedans
          (Dict.set d nom (.dossier r.1), r.2)
      | none =>
          let r := fusionner ignore es []
          (Dict.set d nom (.dossier r.1), r.2)

end

/-- `shutil.copytree(src, dst, ignore=…, dirs_exist_ok=True)`, the source as it stands before the
copy. -/
def copytree (ignore : String → Bool) (t : Noeud ω) (src dst : Brut) : Noeud ω × Option Erreur :=
  match atteindre t src with
  | .error e => (t, some e)
  | .ok p =>
      match lire t p with
      | none => (t, some .fileNotFound)
      | some (.fichier _) => (t, some .notADirectory)
      | some (.dossier es) =>
          match mkdir t dst with
          | (t', some e) => (t', some e)
          | (t', none) =>
              match atteindre t' dst with
              | .error e => (t', some e)
              | .ok q =>
                  match lire t' q with
                  | some (.dossier d) =>
                      let r := fusionner ignore es d
                      (poser t' q (.dossier r.1), if r.2 then some .occupe else none)
                  | _ => (t', some .notADirectory)

section Copie

variable {ignore : String → Bool} {t t' : Noeud ω} {src dst : Brut}

theorem voir_dossier_set (d : List (String × Noeud ω)) (x y : String) (n : Noeud ω) (q : Lieu) :
    voir (.dossier (Dict.set d x n)) (y :: q) =
      if y = x then voir n q else voir (.dossier d) (y :: q) := by
  rw [voir_dossier_cons, voir_dossier_cons, Dict.get?_set]
  split <;> rfl

theorem voir_fichier_ne {c : ω} {q : Lieu} (hq : q ≠ []) : voir (.fichier c) q = none := by
  cases q with
  | nil => exact absurd rfl hq
  | cons x q => rfl

theorem voir_dossier_nil_ne {q : Lieu} (hq : q ≠ []) :
    voir (.dossier ([] : List (String × Noeud ω))) q = none := by
  cases q with
  | nil => exact absurd rfl hq
  | cons x q => rfl

theorem ne_nil_of_ignore {q : Lieu} (h : ∃ x ∈ q, ignore x = true) : q ≠ [] := by
  intro hnil
  obtain ⟨x, hx, _⟩ := h
  rw [hnil] at hx
  cases hx

theorem ignore_tail {x : String} {q : Lieu} (h : ∃ y ∈ x :: q, ignore y = true)
    (hx : ignore x = false) : ∃ y ∈ q, ignore y = true := by
  obtain ⟨y, hy, hignore⟩ := h
  rcases List.mem_cons.mp hy with heq | hy
  · rw [heq, hx] at hignore
    cases hignore
  · exact ⟨y, hy, hignore⟩

mutual

theorem voir_fusionner_ignore : ∀ (es d : List (String × Noeud ω)) (q : Lieu),
    (∃ x ∈ q, ignore x = true) →
      voir (.dossier (fusionner ignore es d).1) q = voir (.dossier d) q
  | [], d, q, _ => rfl
  | (nom, n) :: es, d, q, hq => by
      rw [fusionner]
      split
      · exact voir_fusionner_ignore es d q hq
      · next hnom =>
          rw [voir_fusionner_ignore es _ q hq]
          exact voir_copierEntree_ignore nom (by simpa using hnom) n d q hq

theorem voir_copierEntree_ignore (nom : String) (hnom : ignore nom = false) :
    ∀ (n : Noeud ω) (d : List (String × Noeud ω)) (q : Lieu), (∃ x ∈ q, ignore x = true) →
      voir (.dossier (copierEntree ignore nom n d).1) q = voir (.dossier d) q
  | .fichier c, d, [], hq => absurd rfl (ne_nil_of_ignore hq)
  | .fichier c, d, x :: q, hq => by
      rw [copierEntree]
      split
      · next dedans hd =>
          split
          · rfl
          · next hlibre =>
              rw [voir_dossier_set]
              split
              · next hx =>
                  subst hx
                  have hq' := ignore_tail hq hnom
                  rw [voir_dossier_cons, hd, Option.bind_some]
                  cases q with
                  | nil => exact absurd rfl (ne_nil_of_ignore hq')
                  | cons y q =>
                      rw [voir_dossier_set]
                      split
                      · next hy =>
                          subst hy
                          have hq'' := ne_nil_of_ignore (ignore_tail hq' hnom)
                          rw [voir_fichier_ne hq'', voir_dossier_cons]
                          cases hn : Dict.get? dedans y with
                          | none => rfl
                          | some n =>
                              cases n with
                              | fichier c' => exact (voir_fichier_ne hq'').symm
                              | dossier es => exact absurd hn (hlibre es)
                      · rfl
              · rfl
      · next hlibre =>
          rw [voir_dossier_set]
          split
          · next hx =>
              subst hx
              have hq' := ne_nil_of_ignore (ignore_tail hq hnom)
              rw [voir_fichier_ne hq', voir_dossier_cons]
              cases hn : Dict.get? d x with
              | none => rfl
              | some n =>
                  cases n with
                  | fichier c' => exact (voir_fichier_ne hq').symm
                  | dossier es => exact absurd hn (hlibre es)
          · rfl
  | .dossier es, d, [], hq => absurd rfl (ne_nil_of_ignore hq)
  | .dossier es, d, x :: q, hq => by
      rw [copierEntree]
      split
      · rfl
      · next dedans hd =>
          dsimp only
          rw [voir_dossier_set]
          split
          · next hx =>
              subst hx
              have hq' := ignore_tail hq hnom
              rw [voir_fusionner_ignore es dedans q hq', voir_dossier_cons, hd, Option.bind_some]
          · rfl
      · next hd =>
          dsimp only
          rw [voir_dossier_set]
          split
          · next hx =>
              subst hx
              have hq' := ignore_tail hq hnom
              rw [voir_fusionner_ignore es [] q hq', voir_dossier_nil_ne (ne_nil_of_ignore hq'),
                voir_dossier_cons, hd]
              rfl
          · rfl

end

mutual

theorem valide_fusionner : ∀ (es d : List (String × Noeud ω)), Valide (.dossier d) →
    Valide (.dossier (fusionner ignore es d).1)
  | [], d, hd => hd
  | (nom, n) :: es, d, hd => by
      rw [fusionner]
      split
      · exact valide_fusionner es d hd
      · exact valide_fusionner es _ (valide_copierEntree nom n d hd)

theorem valide_copierEntree (nom : String) : ∀ (n : Noeud ω) (d : List (String × Noeud ω)),
    Valide (.dossier d) → Valide (.dossier (copierEntree ignore nom n d).1)
  | .fichier c, d, hd => by
      rw [copierEntree]
      split
      · next dedans hdedans =>
          split
          · exact hd
          · exact hd.set ((hd.enfant hdedans).set (valide_fichier c) nom) nom
      · exact hd.set (valide_fichier c) nom
  | .dossier es, d, hd => by
      rw [copierEntree]
      split
      · exact hd
      · next dedans hdedans =>
          exact hd.set (valide_fusionner es dedans (hd.enfant hdedans)) nom
      · exact hd.set (valide_fusionner es [] valide_vide) nom

end

theorem valide_osMkdir {b : Brut} (h : osMkdir t b = .ok t') (ht : Valide t) : Valide t' := by
  obtain ⟨p, -, -, -, -, rfl⟩ := osMkdir_ok h
  exact ht.poser valide_vide _

theorem valide_mkdirs (ht : Valide t) (base : Lieu) (parts : List String) :
    Valide (mkdirs t base parts).1 := by
  induction parts with
  | nil => exact ht
  | cons x parts ih =>
      rw [mkdirs]
      split
      · next h => exact valide_osMkdir h ht
      · split
        · next hrec =>
            rw [hrec] at ih
            exact ih
        · next hrec =>
            rw [hrec] at ih
            split
            · next h => exact valide_osMkdir h ih
            · exact ih
            · split <;> exact ih
      · split <;> exact ht

theorem valide_copytree (ht : Valide t) (ignore : String → Bool) (src dst : Brut) :
    Valide (copytree ignore t src dst).1 := by
  unfold copytree
  split
  · exact ht
  · split
    · exact ht
    · exact ht
    · have hmkdir : Valide (mkdir t dst).1 := valide_mkdirs ht dst.base _
      split
      · next h =>
          rw [h] at hmkdir
          exact hmkdir
      · next h =>
          rw [h] at hmkdir
          split
          · exact hmkdir
          · split
            · next hq => exact hmkdir.poser (valide_fusionner _ _ (hmkdir.lire hq)) _
            · exact hmkdir

theorem lieu_sans_remontee {base : Lieu} {parts : List String} (h : ".." ∉ parts) :
    (⟨base, parts⟩ : Brut).lieu = base ++ parts := by
  unfold Brut.lieu
  induction parts generalizing base with
  | nil => simp
  | cons x parts ih =>
      have hx : x ≠ ".." := fun heq => h (heq ▸ List.mem_cons_self)
      have hparts : ".." ∉ parts := fun hmem => h (List.mem_cons_of_mem _ hmem)
      rw [List.foldl_cons, if_neg hx]
      have hih := @ih (base ++ [x]) hparts
      simpa using hih

/-- Between two trees, only missing directories on the way to `l` have appeared at `q`. -/
def Ouvert (t t' : Noeud ω) (l q : Lieu) : Prop :=
  voir t' q = voir t q ∨ (voir t q = none ∧ voir t' q = some .dossier ∧ q <+: l)

theorem ouvert_osMkdir {b : Brut} (h : osMkdir t b = .ok t') (q : Lieu) : Ouvert t t' b.lieu q := by
  obtain ⟨p, hp, hne, hparent, habsent, rfl⟩ := osMkdir_ok h
  rw [lieu_of_atteindre hp]
  by_cases hpq : p <+: q
  · by_cases heq : p = q
    · subst heq
      exact .inr ⟨habsent, voir_poser_self hne hparent, List.prefix_rfl⟩
    · left
      have hq : voir t q = none := by
        cases hv : voir t q with
        | none => rfl
        | some v =>
            rw [dossier_au_dessus hpq heq hv] at habsent
            cases habsent
      rw [voir_poser hne hparent, if_pos hpq, hq]
      apply voir_dossier_nil_ne
      intro hnil
      have hlen := List.drop_eq_nil_iff.mp hnil
      exact heq (hpq.eq_of_length_le hlen)
  · exact .inl (voir_poser_ailleurs hne hparent hpq)

theorem ouvert_mkdirs (t : Noeud ω) (base : Lieu) (parts : List String) (h : ".." ∉ parts)
    (q : Lieu) : Ouvert t (mkdirs t base parts).1 (base ++ parts.reverse) q := by
  induction parts with
  | nil => exact .inl rfl
  | cons x parts ih =>
      have hparts : ".." ∉ parts := fun hmem => h (List.mem_cons_of_mem _ hmem)
      have hlieu : (⟨base, (x :: parts).reverse⟩ : Brut).lieu = base ++ (x :: parts).reverse :=
        lieu_sans_remontee fun hmem => h (List.mem_reverse.mp hmem)
      have hih : Ouvert t (mkdirs t base parts).1 (base ++ (x :: parts).reverse) q := by
        rcases ih hparts with hsame | ⟨hnone, hdossier, hsous⟩
        · exact .inl hsame
        · refine .inr ⟨hnone, hdossier, hsous.trans ?_⟩
          rw [List.reverse_cons, ← List.append_assoc]
          exact List.prefix_append _ _
      rw [mkdirs]
      split
      · next h => exact hlieu ▸ ouvert_osMkdir h q
      · split
        · next hrec =>
            rw [hrec] at hih
            exact hih
        · next t₁ hrec =>
            rw [hrec] at hih
            split
            · next t₂ h =>
                have hstep : Ouvert t₁ t₂ _ q := hlieu ▸ ouvert_osMkdir h q
                rcases hih with hsame | ⟨hnone, hdossier, hsous⟩
                · rcases hstep with hsame' | ⟨hnone', hdossier', hsous'⟩
                  · exact .inl (hsame'.trans hsame)
                  · exact .inr ⟨hsame ▸ hnone', hdossier', hsous'⟩
                · rcases hstep with hsame' | ⟨hnone', hdossier', hsous'⟩
                  · exact .inr ⟨hnone, hsame'.trans hdossier, hsous⟩
                  · rw [hdossier] at hnone'
                    cases hnone'
            · exact hih
            · split <;> exact hih
      · split <;> exact .inl rfl

/-- `q` is strictly below `l`, and no name on the way is ignored. -/
def Dessous (ignore : String → Bool) (l q : Lieu) : Prop :=
  ∃ r, r ≠ [] ∧ q = l ++ r ∧ ∀ x ∈ r, ignore x = false

theorem dessous_or_ignore (ignore : String → Bool) (l q : Lieu) (hlq : l <+: q) :
    q = l ∨ Dessous ignore l q ∨ ∃ x ∈ q.drop l.length, ignore x = true := by
  obtain ⟨r, rfl⟩ := hlq
  rw [List.drop_left]
  by_cases hr : r = []
  · left
    rw [hr, List.append_nil]
  · by_cases hignore : ∃ x ∈ r, ignore x = true
    · exact .inr (.inr hignore)
    · refine .inr (.inl ⟨r, hr, rfl, ?_⟩)
      intro x hx
      cases hcas : ignore x with
      | false => rfl
      | true => exact absurd ⟨x, hx, hcas⟩ hignore

theorem voir_poser_entrees {es es' : List (String × Noeud ω)} {p : Lieu}
    (hp : lire t p = some (.dossier es))
    (hagree : ∀ q, (∃ x ∈ q, ignore x = true) → voir (.dossier es') q = voir (.dossier es) q)
    (q : Lieu) : voir (poser t p (.dossier es')) q = voir t q ∨ Dessous ignore p q := by
  have hvoir : voir t p = some .dossier := by simp [voir, hp, Noeud.vue]
  have hsous : ∀ r, voir (.dossier es) r = voir t (p ++ r) := by
    intro r
    rw [voir_append, hp, Option.bind_some]
  have hposer : ∀ r, voir (poser t p (.dossier es')) (p ++ r) = voir (.dossier es') r := by
    intro r
    by_cases hnil : p = []
    · subst hnil
      cases t <;> rfl
    · rw [voir_poser hnil (parent_of_voir hnil hvoir), if_pos (List.prefix_append p r),
        List.drop_left]
  by_cases hpq : p <+: q
  · rcases dessous_or_ignore ignore p q hpq with heq | hdessous | hignore
    · left
      have hnil := hposer []
      rw [List.append_nil] at hnil
      rw [heq, hnil, hvoir, voir_nil_dossier]
    · exact .inr hdessous
    · left
      obtain ⟨r, rfl⟩ := hpq
      rw [List.drop_left] at hignore
      rw [hposer, hagree r hignore, hsous]
  · left
    have hnil : p ≠ [] := fun heq => hpq (heq ▸ List.nil_prefix)
    exact voir_poser_ailleurs hnil (parent_of_voir hnil hvoir) hpq

theorem voir_copytree (ignore : String → Bool) (t : Noeud ω) (src dst : Brut)
    (h : ".." ∉ dst.parts) (q : Lieu) :
    Ouvert t (copytree ignore t src dst).1 (dst.base ++ dst.parts) q ∨
      Dessous ignore (dst.base ++ dst.parts) q := by
  have hlieu : dst.lieu = dst.base ++ dst.parts := lieu_sans_remontee h
  have hmkdir : Ouvert t (mkdir t dst).1 (dst.base ++ dst.parts) q := by
    have hrev : ".." ∉ dst.parts.reverse := fun hmem => h (List.mem_reverse.mp hmem)
    simpa [mkdir] using ouvert_mkdirs t dst.base dst.parts.reverse hrev q
  unfold copytree
  split
  · exact .inl (.inl rfl)
  · split
    · exact .inl (.inl rfl)
    · exact .inl (.inl rfl)
    · next es hes =>
        split
        · next hm =>
            rw [hm] at hmkdir
            exact .inl hmkdir
        · next t' hm =>
            rw [hm] at hmkdir
            split
            · exact .inl hmkdir
            · next p hp =>
                rw [← hlieu, lieu_of_atteindre hp]
                rw [← hlieu, lieu_of_atteindre hp] at hmkdir
                split
                · next d hd =>
                    rcases @voir_poser_entrees ω ignore _ _ _ _ hd
                      (fun r hr => voir_fusionner_ignore es d r hr) q with hsame | hdessous
                    · left
                      rcases hmkdir with hq | ⟨hnone, hdossier, hsous⟩
                      · exact .inl (hsame.trans hq)
                      · exact .inr ⟨hnone, hsame.trans hdossier, hsous⟩
                    · exact .inr hdessous
                · exact .inl hmkdir

end Copie

/-- The directories of `t` are directories of `t'`. -/
def Dossiers (t t' : Noeud ω) : Prop := ∀ q, voir t q = some .dossier → voir t' q = some .dossier

section Relecture

variable {t t' : Noeud ω} {b : Brut} {p pos : Lieu} {c : ω} {parts : List String}

theorem Croit.dossiers (h : Croit t t') : Dossiers t t' := fun q hq => h q .dossier hq

theorem Dossiers.trans {t'' : Noeud ω} (h : Dossiers t t') (h' : Dossiers t' t'') :
    Dossiers t t'' := fun q hq => h' q (h q hq)

theorem Dossiers.marcher (h : Dossiers t t') (hp : marcher t pos parts = .ok p) :
    marcher t' pos parts = .ok p := by
  induction parts generalizing pos with
  | nil => exact hp
  | cons x parts ih =>
      rw [Arborescence.marcher] at hp ⊢
      split at hp
      · cases hp
      · cases hp
      · next hdossier =>
          rw [h pos hdossier]
          exact ih hp

theorem atteindre_of_ouvrir (h : ouvrir t b = .ok p) : atteindre t b = .ok p := by
  unfold ouvrir at h
  split at h
  · cases h
  · next p' hp' =>
      split at h
      · cases h
      · cases h
        exact hp'
      · split at h
        · cases h
        · cases h
          exact hp'

theorem voir_ne_dossier_of_ouvrir (h : ouvrir t b = .ok p) : voir t p ≠ some .dossier := by
  intro hdossier
  unfold ouvrir at h
  rw [atteindre_of_ouvrir h] at h
  dsimp only at h
  rw [hdossier] at h
  cases h

theorem dossiers_ecrire (h : ouvrir t b = .ok p) (c : ω) : Dossiers t (poser t p (.fichier c)) := by
  intro q hq
  rw [voir_ecrire h, if_neg]
  · exact hq
  · intro heq
    rw [heq] at hq
    exact voir_ne_dossier_of_ouvrir h hq

theorem Dossiers.estDossier (h : Dossiers t t') (hb : estDossier t b = true) :
    estDossier t' b = true := by
  obtain ⟨p, hp, hdossier⟩ := stat_eq_some.mp (estDossier_iff.mp hb)
  exact estDossier_iff.mpr (stat_eq_some.mpr ⟨p, h.marcher hp, h p hdossier⟩)

theorem contenu_ne_of_estDossier (h : Arborescence.estDossier t b = true) (c : ω) :
    Arborescence.contenu t b ≠ .ok c := by
  intro hc
  obtain ⟨hb, hfichier⟩ := contenu_eq_ok.mp hc
  obtain ⟨p, hp, hdossier⟩ := stat_eq_some.mp (estDossier_iff.mp h)
  rw [← lieu_of_atteindre hp, hfichier] at hdossier
  cases hdossier

theorem contenu_ecrire (h : ouvrir t b = .ok p) (c : ω) :
    Arborescence.contenu (poser t p (.fichier c)) b = .ok c := by
  have hb : atteindre t b = .ok b.lieu := by
    rw [lieu_of_ouvrir h]
    exact atteindre_of_ouvrir h
  refine contenu_eq_ok.mpr ⟨(dossiers_ecrire h c).marcher hb, ?_⟩
  rw [voir_ecrire h, lieu_of_ouvrir h, if_pos rfl]

theorem contenu_ecrire_iff {b' : Brut} {c' : ω} (h : ouvrir t b = .ok p)
    (hc : Arborescence.contenu t b' = .ok c) :
    Arborescence.contenu (poser t p (.fichier c')) b' = .ok c ↔ (b'.lieu = p → c' = c) := by
  obtain ⟨hb', hfichier⟩ := contenu_eq_ok.mp hc
  have hsuite : atteindre (poser t p (.fichier c')) b' = .ok b'.lieu :=
    (dossiers_ecrire h c').marcher hb'
  rw [contenu_eq_ok, voir_ecrire h]
  by_cases hlieu : b'.lieu = p
  · rw [if_pos hlieu]
    constructor
    · intro hecrit _
      cases hecrit.2
      rfl
    · intro hmeme
      exact ⟨hsuite, by rw [hmeme hlieu]⟩
  · rw [if_neg hlieu]
    exact ⟨fun _ heq => absurd heq hlieu, fun _ => ⟨hsuite, hfichier⟩⟩

theorem Croit.contenu (h : Croit t t') (hc : Arborescence.contenu t b = .ok c) :
    Arborescence.contenu t' b = .ok c := by
  obtain ⟨hb, hfichier⟩ := contenu_eq_ok.mp hc
  exact contenu_eq_ok.mpr ⟨h.dossiers.marcher hb, h _ _ hfichier⟩

theorem dossiers_copy2 {src : Brut} (h : copy2 t src b = .ok t') : Dossiers t t' := by
  unfold copy2 at h
  split at h
  · cases h
  · split at h
    · cases h
    · split at h
      · cases h
      · next hp =>
          cases h
          exact dossiers_ecrire hp _

theorem copy2_eq_ok {src : Brut} (h : copy2 t src b = .ok t') (hb : estDossier t b = false) :
    ∃ c, Arborescence.contenu t src = .ok c ∧ ouvrir t b = .ok b.lieu ∧
      t' = poser t b.lieu (.fichier c) ∧ src.lieu ≠ b.lieu := by
  unfold copy2 cibleDeCopie at h
  rw [hb, if_neg Bool.false_ne_true] at h
  split at h
  · cases h
  · next hdistincts =>
      split at h
      · cases h
      · next c hc =>
          split at h
          · cases h
          · next p hp =>
              cases h
              have hlieu := lieu_of_ouvrir hp
              refine ⟨c, hc, hlieu ▸ hp, by rw [hlieu], fun heq => hdistincts ?_⟩
              -- both ends exist and lead to one place
              obtain ⟨hsrc, hfichier⟩ := contenu_eq_ok.mp hc
              have hdst := atteindre_of_ouvrir hp
              rw [← hlieu, ← heq] at hdst
              simp [samefile, existe, stat, hsrc, hdst, hfichier]

theorem contenu_unique {b' : Brut} {c' : ω} (hlieu : b.lieu = b'.lieu)
    (h : Arborescence.contenu t b = .ok c) (h' : Arborescence.contenu t b' = .ok c') : c = c' := by
  have hv := (contenu_eq_ok.mp h).2
  rw [hlieu, (contenu_eq_ok.mp h').2] at hv
  cases hv
  rfl

end Relecture

end Hermes.Lib.Arborescence
