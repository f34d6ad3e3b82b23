import Hermes.Lib.Distincts
import Mathlib.Data.List.Induction

/-! # The tasks of one session

An object of the session is changed as the call goes on, and whatever it has become is stored by
the next commit. A task is named by the rank of its creation.
-/

namespace Hermes.TaskManager

open Lib.Distincts

def STATUTS : List String :=
  ["todo", "in_progress", "blocked", "awaiting_validation", "in_test", "done", "cancelled",
    "reversible", "partially_successful", "to_resume"]

def PRIORITES : List String := ["low", "medium", "high", "urgent"]

structure Task where
  projectId : Option String
  title : String
  description : String
  objective : String
  status : String
  priority : String
  agent : Option String
  createdAt : Int
  updatedAt : Int
  modelsUsed : List String
  files : List String
  testResults : String
  history : List (Int × String)
  deriving DecidableEq

/-- The arguments of `create_task`. -/
structure Demande where
  title : String
  description : String
  objective : String
  priority : String
  agent : Option String
  projectId : Option String

/-- The results of tests: what `json.dumps` makes of them, if it does not raise, and their text. -/
structure Resultats where
  dumps : Option String
  texte : String

/-- The arguments of `update_task`. -/
structure Arguments where
  status : Option String := none
  files : Option (List String) := none
  modelsUsed : Option (List String) := none
  testResults : Option Resultats := none
  note : Option String := none
  projectId : Option String := none

section Appels

variable (now : Int)

def appendHistory (note : String) (t : Task) : Task := { t with history := t.history ++ [(now, note)] }

def changerProjet (projectId : Option String) (t : Task) : Task :=
  match projectId with
  | none => t
  | some p =>
      if t.projectId = some p then t
      else
        { appendHistory now ("Project changed: " ++ (t.projectId.getD "None" ++ " -> " ++ p)) t with
          projectId := some p }

/-- Nothing stands for `InvalidTaskStatusError`. -/
def changerStatut (status : Option String) (t : Task) : Option Task :=
  match status with
  | none => some t
  | some v =>
      if v ∉ STATUTS then none
      else if v = t.status then some t
      else some { appendHistory now ("Status changed: " ++ (t.status ++ " -> " ++ v)) t with status := v }

def toucherFichiers (files : List String) (t : Task) : Task :=
  if files = [] then t
  else
    appendHistory now ("Files touched: " ++ String.intercalate ", " files)
      { t with files := completer t.files files }

/-- Nothing stands for the `TypeError` of `json.dumps`. -/
def consigner (testResults : Option Resultats) (t : Task) : Option Task :=
  match testResults with
  | none => some t
  | some r => r.dumps.map fun json =>
      appendHistory now ("Test results recorded: " ++ r.texte) { t with testResults := json }

def annoter (note : Option String) (t : Task) : Task :=
  match note with
  | none => t
  | some n => if n = "" then t else appendHistory now n t

/-- `update_task` once the status is settled. -/
def achever (a : Arguments) (t : Task) : Task × Bool :=
  let t₁ := toucherFichiers now (a.files.getD []) t
  let t₂ := { t₁ with modelsUsed := completer t₁.modelsUsed (a.modelsUsed.getD []) }
  match consigner now a.testResults t₂ with
  | none => (t₂, true)
  | some t₃ => ({ annoter now a.note t₃ with updatedAt := now }, false)

/-- The object as `update_task` leaves it, and whether it raises. -/
def modifier (a : Arguments) (t : Task) : Task × Bool :=
  let t₁ := changerProjet now a.projectId t
  match changerStatut now a.status t₁ with
  | none => (t₁, true)
  | some t₂ => achever now a t₂

def Demande.task (d : Demande) : Task where
  projectId := d.projectId
  title := d.title
  description := d.description
  objective := d.objective
  status := "todo"
  priority := d.priority
  agent := d.agent
  createdAt := now
  updatedAt := now
  modelsUsed := []
  files := []
  testResults := "null"
  history := [(now, "Task created")]

end Appels

abbrev Table := List (Option Task)

structure Etat where
  stockee : Table := []
  courante : Table := []

def commit (m : Table) : Etat := ⟨m, m⟩

inductive Appel where
  | createTask (d : Demande)
  | updateTask (id : Nat) (a : Arguments)
  | deleteTask (id : Nat)

def executer (s : Etat) (e : Int × Appel) : Etat × Bool :=
  match e.2 with
  | .createTask d =>
      if d.priority ∉ PRIORITES then (s, true)
      else (commit (s.courante ++ [some (d.task e.1)]), false)
  | .updateTask id a =>
      match s.courante[id]? with
      | some (some t) =>
          let m := s.courante.set id (some (modifier e.1 a t).1)
          if (modifier e.1 a t).2 then ({ s with courante := m }, true) else (commit m, false)
      | _ => (s, false)
  | .deleteTask id =>
      match s.courante[id]? with
      | some (some _) => (commit (s.courante.set id none), false)
      | _ => (s, false)

abbrev Histoire := List (Int × Appel)

def apres (h : Histoire) : Etat := h.foldl (fun s e => (executer s e).1) {}

def reussies (h : Histoire) : Histoire :=
  (h.foldl (fun c e => ((executer c.1 e).1, if (executer c.1 e).2 then c.2 else c.2 ++ [e]))
    (({}, []) : Etat × Histoire)).2

def estStatut (note : String) : Bool := "Status changed".toList.isPrefixOf note.toList

def estProjet (note : String) : Bool := "Project changed".toList.isPrefixOf note.toList

def Task.nombre (t : Task) (genre : String → Bool) : Nat := t.history.countP fun e => genre e.2

/-- Whether a field of the task has changed between two tables. -/
def differe {β : Type} [DecidableEq β] (f : Task → β) (id : Nat) (m m' : Table) : Bool :=
  match m[id]?, m'[id]? with
  | some (some t), some (some t') => decide (f t ≠ f t')
  | _, _ => false

/-- How many calls have changed a field of a task that is stored. -/
def changements {β : Type} [DecidableEq β] (f : Task → β) (id : Nat) (h : Histoire) : Nat :=
  (h.foldl (fun c e => ((executer c.1 e).1,
    c.2 + if differe f id c.1.stockee (executer c.1 e).1.stockee then 1 else 0))
    (({}, 0) : Etat × Nat)).2

structure Loi (h : Histoire) : Prop where
  atomique : ∀ avant suite, h = avant ++ suite →
    (apres avant).stockee = (apres (reussies avant)).stockee
  croissance : ∀ avant e suite, h = avant ++ e :: suite → ∀ (id : Nat) t t',
    (apres avant).stockee[id]? = some (some t) →
      (apres (avant ++ [e])).stockee[id]? = some (some t') →
        t.history <+: t'.history ∧ t.files <+: t'.files ∧ t.modelsUsed <+: t'.modelsUsed
  statuts : ∀ avant suite, h = avant ++ suite → ∀ (id : Nat) t,
    (apres avant).stockee[id]? = some (some t) →
      t.nombre estStatut = changements Task.status id avant
  projets : ∀ avant suite, h = avant ++ suite → ∀ (id : Nat) t,
    (apres avant).stockee[id]? = some (some t) →
      t.nombre estProjet = changements Task.projectId id avant
  distincts : ∀ avant suite, h = avant ++ suite → ∀ (id : Nat) t,
    (apres avant).stockee[id]? = some (some t) → t.files.Nodup ∧ t.modelsUsed.Nodup

def Arguments.Inconnu (a : Arguments) : Prop := ∃ v ∈ a.status, v ∉ STATUTS

def Arguments.Refuse (a : Arguments) : Prop := ∃ r ∈ a.testResults, r.dumps = none

/-- A call that raises has nothing to change before it does, and a note is not taken for an entry
of the two kinds. -/
structure Prudent (t : Task) (a : Arguments) : Prop where
  projet : a.Inconnu ∨ a.Refuse → ∀ p ∈ a.projectId, t.projectId = some p
  reste : ¬a.Inconnu → a.Refuse → (∀ v ∈ a.status, v = t.status) ∧ a.files.getD [] = [] ∧
    ∀ m ∈ a.modelsUsed.getD [], m ∈ t.modelsUsed
  notes : ∀ n ∈ a.note, estStatut n = false ∧ estProjet n = false

def Prudente (h : Histoire) : Prop :=
  ∀ avant now id a suite, h = avant ++ (now, .updateTask id a) :: suite → ∀ t,
    (apres avant).courante[id]? = some (some t) → Prudent t a

/-- How a task grows, with the number of entries of the two kinds that it takes. -/
structure Suite (t t' : Task) (statuts projets : Nat) : Prop where
  history : t.history <+: t'.history
  files : t.files <+: t'.files
  modelsUsed : t.modelsUsed <+: t'.modelsUsed
  distincts : t.files.Nodup ∧ t.modelsUsed.Nodup → t'.files.Nodup ∧ t'.modelsUsed.Nodup
  statuts : t'.nombre estStatut = t.nombre estStatut + statuts
  projets : t'.nombre estProjet = t.nombre estProjet + projets

section Suites

variable {now : Int} {t t' t'' : Task} {a : Arguments} {m n p q : Nat}

theorem Suite.refl (t : Task) : Suite t t 0 0 :=
  ⟨List.prefix_rfl, List.prefix_rfl, List.prefix_rfl, id, rfl, rfl⟩

theorem Suite.trans (h : Suite t t' m n) (h' : Suite t' t'' p q) : Suite t t'' (m + p) (n + q) where
  history := h.history.trans h'.history
  files := h.files.trans h'.files
  modelsUsed := h.modelsUsed.trans h'.modelsUsed
  distincts hd := h'.distincts (h.distincts hd)
  statuts := by rw [h'.statuts, h.statuts, Nat.add_assoc]
  projets := by rw [h'.projets, h.projets, Nat.add_assoc]

theorem suite_appendHistory (now : Int) (note : String) (t : Task) :
    Suite t (appendHistory now note t) (if estStatut note then 1 else 0)
      (if estProjet note then 1 else 0) where
  history := List.prefix_append _ _
  files := List.prefix_rfl
  modelsUsed := List.prefix_rfl
  distincts := id
  statuts := by simp [Task.nombre, appendHistory, List.countP_append, List.countP_singleton]
  projets := by simp [Task.nombre, appendHistory, List.countP_append, List.countP_singleton]

theorem suite_autre {note : String} (hs : estStatut note = false) (hp : estProjet note = false)
    (t : Task) : Suite t (appendHistory now note t) 0 0 := by
  have h := suite_appendHistory now note t
  rwa [hs, hp] at h

theorem suite_changerProjet (now : Int) (projectId : Option String) (t : Task) :
    Suite t (changerProjet now projectId t) 0
      (if t.projectId = (changerProjet now projectId t).projectId then 0 else 1) ∧
      (changerProjet now projectId t).status = t.status := by
  unfold changerProjet
  cases projectId with
  | none => exact ⟨by simpa using Suite.refl t, rfl⟩
  | some p =>
      simp only
      split
      · exact ⟨by simpa using Suite.refl t, rfl⟩
      · next hp =>
          have h := suite_appendHistory now ("Project changed: " ++ (t.projectId.getD "None" ++ " -> " ++ p)) t
          have hs : estStatut ("Project changed: " ++ (t.projectId.getD "None" ++ " -> " ++ p)) = false := by
            rw [estStatut, String.toList_append]
            rfl
          have hprojet :
              estProjet ("Project changed: " ++ (t.projectId.getD "None" ++ " -> " ++ p)) = true := by
            rw [estProjet, String.toList_append]
            rfl
          rw [hs, hprojet] at h
          exact ⟨⟨h.history, h.files, h.modelsUsed, h.distincts, h.statuts, h.projets⟩, rfl⟩

theorem suite_changerStatut {status : Option String} (h : changerStatut now status t = some t') :
    Suite t t' (if t.status = t'.status then 0 else 1) 0 ∧ t'.projectId = t.projectId := by
  unfold changerStatut at h
  cases status with
  | none =>
      cases h
      exact ⟨by simpa using Suite.refl t, rfl⟩
  | some v =>
      simp only at h
      split at h
      · cases h
      · split at h
        · cases h
          exact ⟨by simpa using Suite.refl t, rfl⟩
        · next hv =>
            cases h
            have h := suite_appendHistory now ("Status changed: " ++ (t.status ++ " -> " ++ v)) t
            have hs : estStatut ("Status changed: " ++ (t.status ++ " -> " ++ v)) = true := by
              rw [estStatut, String.toList_append]
              rfl
            have hprojet : estProjet ("Status changed: " ++ (t.status ++ " -> " ++ v)) = false := by
              rw [estProjet, String.toList_append]
              rfl
            rw [hs, hprojet] at h
            exact ⟨⟨h.history, h.files, h.modelsUsed, h.distincts,
              h.statuts.trans (congrArg (t.nombre estStatut + ·) (if_neg (Ne.symm hv)).symm),
              h.projets⟩, rfl⟩

theorem suite_toucherFichiers (now : Int) (files : List String) (t : Task) :
    Suite t (toucherFichiers now files t) 0 0 := by
  unfold toucherFichiers
  split
  · exact Suite.refl t
  · have hfichiers : Suite t { t with files := completer t.files files } 0 0 :=
      ⟨List.prefix_rfl, prefix_completer _ _, List.prefix_rfl,
        fun hd => ⟨nodup_completer hd.1 files, hd.2⟩, rfl, rfl⟩
    refine hfichiers.trans (suite_autre ?_ ?_ _)
    · rw [estStatut, String.toList_append]
      rfl
    · rw [estProjet, String.toList_append]
      rfl

theorem suite_consigner {testResults : Option Resultats} (h : consigner now testResults t = some t') :
    Suite t t' 0 0 ∧ t'.status = t.status ∧ t'.projectId = t.projectId := by
  unfold consigner at h
  cases testResults with
  | none =>
      cases h
      exact ⟨Suite.refl t, rfl, rfl⟩
  | some r =>
      obtain ⟨json, -, rfl⟩ := Option.map_eq_some_iff.mp h
      refine ⟨?_, rfl, rfl⟩
      have hjson : Suite t { t with testResults := json } 0 0 :=
        ⟨List.prefix_rfl, List.prefix_rfl, List.prefix_rfl, id, rfl, rfl⟩
      refine hjson.trans (suite_autre ?_ ?_ _)
      · rw [estStatut, String.toList_append]
        rfl
      · rw [estProjet, String.toList_append]
        rfl

theorem suite_annoter (now : Int) {note : Option String}
    (hnote : ∀ n ∈ note, estStatut n = false ∧ estProjet n = false) (t : Task) :
    Suite t (annoter now note t) 0 0 ∧ (annoter now note t).status = t.status ∧
      (annoter now note t).projectId = t.projectId := by
  unfold annoter
  cases note with
  | none => exact ⟨Suite.refl t, rfl, rfl⟩
  | some n =>
      simp only
      split
      · exact ⟨Suite.refl t, rfl, rfl⟩
      · exact ⟨suite_autre (hnote n rfl).1 (hnote n rfl).2 t, rfl, rfl⟩

theorem suite_achever (hnote : ∀ n ∈ a.note, estStatut n = false ∧ estProjet n = false)
    (h : (achever now a t).2 = false) :
    Suite t (achever now a t).1 0 0 ∧ (achever now a t).1.status = t.status ∧
      (achever now a t).1.projectId = t.projectId := by
  have hfichiers := suite_toucherFichiers now (a.files.getD []) t
  have hchamps : (toucherFichiers now (a.files.getD []) t).status = t.status ∧
      (toucherFichiers now (a.files.getD []) t).projectId = t.projectId := by
    unfold toucherFichiers
    split
    · exact ⟨rfl, rfl⟩
    · exact ⟨rfl, rfl⟩
  unfold achever at h ⊢
  generalize toucherFichiers now (a.files.getD []) t = t₁ at h hfichiers hchamps ⊢
  have hmodeles : Suite t₁ { t₁ with
      modelsUsed := completer t₁.modelsUsed (a.modelsUsed.getD []) } 0 0 :=
    ⟨List.prefix_rfl, List.prefix_rfl, prefix_completer _ _,
      fun hd => ⟨hd.1, nodup_completer hd.2 _⟩, rfl, rfl⟩
  cases hc : consigner now a.testResults { t₁ with
      modelsUsed := completer t₁.modelsUsed (a.modelsUsed.getD []) } with
  | none => simp [hc] at h
  | some t₃ =>
      obtain ⟨hconsigne, hstatus, hprojet⟩ := suite_consigner hc
      obtain ⟨hannote, hstatus', hprojet'⟩ := suite_annoter now hnote t₃
      have hfin := (hfichiers.trans hmodeles).trans (hconsigne.trans hannote)
      simp only [hc]
      refine ⟨⟨hfin.history, hfin.files, hfin.modelsUsed, hfin.distincts, hfin.statuts, hfin.projets⟩,
        ?_, ?_⟩
      · exact hstatus'.trans (hstatus.trans hchamps.1)
      · exact hprojet'.trans (hprojet.trans hchamps.2)

theorem suite_modifier (hnote : ∀ n ∈ a.note, estStatut n = false ∧ estProjet n = false)
    (h : (modifier now a t).2 = false) :
    Suite t (modifier now a t).1 (if t.status = (modifier now a t).1.status then 0 else 1)
      (if t.projectId = (modifier now a t).1.projectId then 0 else 1) := by
  obtain ⟨hprojet, hstatus⟩ := suite_changerProjet now a.projectId t
  cases hs : changerStatut now a.status (changerProjet now a.projectId t) with
  | none => simp [modifier, hs] at h
  | some t₂ =>
      have hmodifier : modifier now a t = achever now a t₂ := by simp only [modifier, hs]
      rw [hmodifier] at h ⊢
      obtain ⟨hstatut, hprojet₂⟩ := suite_changerStatut hs
      obtain ⟨hacheve, hstatus', hprojet'⟩ := suite_achever hnote h
      rw [hstatus] at hstatut
      rw [← hprojet₂] at hprojet
      have hfin := (hprojet.trans hstatut).trans hacheve
      rw [hstatus', hprojet']
      simpa only [Nat.zero_add, Nat.add_zero] using hfin

theorem completer_of_subset {vus l : List String} (h : ∀ x ∈ l, x ∈ vus) : completer vus l = vus := by
  induction l with
  | nil => rfl
  | cons x l ih =>
      rw [completer_cons, if_pos (h x List.mem_cons_self)]
      exact ih fun y hy => h y (List.mem_cons_of_mem x hy)

theorem Prudent.intacte (hp : Prudent t a) (h : (modifier now a t).2 = true) :
    (modifier now a t).1 = t := by
  have hprojet : a.Inconnu ∨ a.Refuse → changerProjet now a.projectId t = t := by
    intro hleve
    unfold changerProjet
    cases hid : a.projectId with
    | none => rfl
    | some p => exact if_pos (hp.projet hleve p hid)
  cases hs : changerStatut now a.status (changerProjet now a.projectId t) with
  | none =>
      have hinconnu : a.Inconnu := by
        unfold changerStatut at hs
        cases hstatus : a.status with
        | none => simp [hstatus] at hs
        | some v =>
            refine ⟨v, hstatus, ?_⟩
            simp only [hstatus] at hs
            split at hs
            · next hv => exact hv
            · split at hs <;> cases hs
      simp only [modifier, hs]
      exact hprojet (Or.inl hinconnu)
  | some t₂ =>
      have hmodifier : modifier now a t = achever now a t₂ := by simp only [modifier, hs]
      rw [hmodifier] at h ⊢
      have hinconnu : ¬a.Inconnu := by
        intro ⟨v, hv, hinconnu⟩
        rw [Option.mem_def.mp hv, changerStatut, if_pos hinconnu] at hs
        cases hs
      have hrefuse : a.Refuse := by
        unfold achever at h
        simp only at h
        split at h
        · next hconsigne =>
            unfold consigner at hconsigne
            split at hconsigne
            · cases hconsigne
            · next r hr => exact ⟨r, hr, Option.map_eq_none_iff.mp hconsigne⟩
        · cases h
      obtain ⟨hstatus, hfiles, hmodels⟩ := hp.reste hinconnu hrefuse
      have ht : t₂ = t := by
        rw [hprojet (Or.inr hrefuse)] at hs
        unfold changerStatut at hs
        cases hv : a.status with
        | none =>
            rw [hv] at hs
            exact (Option.some.inj hs).symm
        | some v =>
            have hmeme := hstatus v hv
            simp only [hv, hmeme] at hs
            split at hs
            · cases hs
            · exact (Option.some.inj hs).symm
      obtain ⟨r, hr, hdumps⟩ := hrefuse
      rw [ht, achever, hfiles]
      simp [toucherFichiers, completer_of_subset hmodels, consigner, Option.mem_def.mp hr, hdumps]

end Suites

/-- A task after a call was there before it, or has just been created. -/
structure Evolue (m m' : Table) : Prop where
  longueur : m.length ≤ m'.length
  tache : ∀ (id : Nat) t', m'[id]? = some (some t') →
    (m[id]? = none ∧ ∃ now d, t' = Demande.task now d) ∨
      ∃ t, m[id]? = some (some t) ∧ Suite t t' (if t.status = t'.status then 0 else 1)
        (if t.projectId = t'.projectId then 0 else 1)

section Histoires

variable {h avant suite : Histoire} {e : Int × Appel} {m m' : Table}

theorem Evolue.refl (m : Table) : Evolue m m where
  longueur := le_refl _
  tache id t ht := Or.inr ⟨t, ht, by simpa using Suite.refl t⟩

theorem evolue_set {id : Nat} {x : Option Task}
    (hx : ∀ t', x = some t' → ∃ t, m[id]? = some (some t) ∧
      Suite t t' (if t.status = t'.status then 0 else 1)
        (if t.projectId = t'.projectId then 0 else 1)) : Evolue m (m.set id x) where
  longueur := List.length_set.ge
  tache k t' ht' := by
    by_cases hk : k = id
    · rw [hk] at ht' ⊢
      have hlong := (List.getElem?_eq_some_iff.mp ht').1
      rw [List.length_set] at hlong
      rw [List.getElem?_set_self hlong] at ht'
      exact Or.inr (hx t' (Option.some.inj ht'))
    · rw [List.getElem?_set_ne (Ne.symm hk)] at ht'
      exact (Evolue.refl m).tache k t' ht'

theorem executer_commit (hp : ∀ id a t, e.2 = .updateTask id a → m[id]? = some (some t) → Prudent t a) :
    ∃ m', (executer (commit m) e).1 = commit m' ∧ Evolue m m' ∧
      ((executer (commit m) e).2 = true → m' = m) := by
  have hreste : ∀ leve : Bool, ∃ m', ((commit m, leve) : Etat × Bool).1 = commit m' ∧ Evolue m m' ∧
      (((commit m, leve) : Etat × Bool).2 = true → m' = m) :=
    fun _ => ⟨m, rfl, Evolue.refl m, fun _ => rfl⟩
  obtain ⟨now, appel⟩ := e
  unfold executer
  cases appel with
  | createTask d =>
      simp only
      split
      · exact hreste true
      · refine ⟨_, rfl, ⟨by simp [commit], ?_⟩, fun hleve => (nomatch hleve)⟩
        intro id t' ht'
        change (m ++ [some (d.task now)])[id]? = _ at ht'
        cases lt_or_ge id m.length with
        | inl hid =>
            rw [List.getElem?_append_left hid] at ht'
            exact (Evolue.refl m).tache id t' ht'
        | inr hid =>
            have hnone : m[id]? = none := List.getElem?_eq_none hid
            rw [List.getElem?_append_right hid] at ht'
            have hsingle := List.mem_singleton.mp (List.mem_of_getElem? ht')
            exact Or.inl ⟨hnone, now, d, Option.some.inj hsingle⟩
  | updateTask id a =>
      simp only
      split
      · next t ht =>
          change m[id]? = _ at ht
          have hprudent := hp id a t rfl ht
          split
          · next hleve =>
              have hset : m.set id (some t) = m := by
                obtain ⟨hid, hget⟩ := List.getElem?_eq_some_iff.mp ht
                rw [← hget, List.set_getElem_self]
              refine ⟨m, ?_, Evolue.refl m, fun _ => rfl⟩
              rw [hprudent.intacte hleve]
              exact congrArg (Etat.mk m) hset
          · next hleve =>
              refine ⟨_, rfl, evolue_set ?_, fun hleve => (nomatch hleve)⟩
              intro t' ht'
              cases ht'
              exact ⟨t, ht, suite_modifier hprudent.notes (Bool.eq_false_iff.mpr hleve)⟩
      · exact hreste false
  | deleteTask id =>
      simp only
      split
      · exact ⟨_, rfl, evolue_set fun t' ht' => (nomatch ht'), fun hleve => (nomatch hleve)⟩
      · exact hreste false

theorem apres_concat (h : Histoire) (e : Int × Appel) :
    apres (h ++ [e]) = (executer (apres h) e).1 := by
  rw [apres, List.foldl_append]
  rfl

theorem fst_foldl {γ : Type} (g : Etat → γ → Int × Appel → γ) (h : Histoire) (c : Etat × γ) :
    (h.foldl (fun c e => ((executer c.1 e).1, g c.1 c.2 e)) c).1 =
      h.foldl (fun s e => (executer s e).1) c.1 := by
  induction h generalizing c with
  | nil => rfl
  | cons e h ih => exact ih _

theorem reussies_concat (h : Histoire) (e : Int × Appel) :
    reussies (h ++ [e]) = if (executer (apres h) e).2 then reussies h else reussies h ++ [e] := by
  rw [reussies, List.foldl_append]
  simp only [List.foldl_cons, List.foldl_nil]
  rw [fst_foldl (fun s c e => if (executer s e).2 then c else c ++ [e])]
  rfl

theorem changements_concat {β : Type} [DecidableEq β] (f : Task → β) (id : Nat) (h : Histoire)
    (e : Int × Appel) : changements f id (h ++ [e]) = changements f id h +
      if differe f id (apres h).stockee (apres (h ++ [e])).stockee then 1 else 0 := by
  rw [changements, List.foldl_append, apres_concat]
  simp only [List.foldl_cons, List.foldl_nil]
  rw [fst_foldl (fun s c e => c + if differe f id s.stockee (executer s e).1.stockee then 1 else 0)]
  rfl

theorem Prudente.pas (hh : Prudente h) (hsuite : h = avant ++ e :: suite)
    (hm : apres avant = commit m) : ∃ m', apres (avant ++ [e]) = commit m' ∧ Evolue m m' ∧
      ((executer (apres avant) e).2 = true → m' = m) := by
  rw [apres_concat, hm]
  apply executer_commit
  intro id a t he ht
  obtain ⟨now, appel⟩ := e
  cases he
  exact hh avant now id a suite hsuite t (hm ▸ ht)

theorem Prudente.commise (hh : Prudente h) (hsuite : h = avant ++ suite) :
    ∃ m, apres avant = commit m := by
  induction avant using List.reverseRecOn generalizing suite with
  | nil => exact ⟨[], rfl⟩
  | append_singleton avant e ih =>
      rw [List.append_assoc, List.singleton_append] at hsuite
      obtain ⟨m, hm⟩ := ih hsuite
      obtain ⟨m', hm', -⟩ := hh.pas hsuite hm
      exact ⟨m', hm'⟩

theorem Prudente.reussies (hh : Prudente h) (hsuite : h = avant ++ suite) :
    apres (reussies avant) = apres avant := by
  induction avant using List.reverseRecOn generalizing suite with
  | nil => rfl
  | append_singleton avant e ih =>
      rw [List.append_assoc, List.singleton_append] at hsuite
      rw [reussies_concat]
      split
      · next hleve =>
          obtain ⟨m, hm⟩ := hh.commise hsuite
          obtain ⟨m', hm', -, hintacte⟩ := hh.pas hsuite hm
          rw [ih hsuite, hm', hintacte hleve, hm]
      · rw [apres_concat, apres_concat, ih hsuite]

theorem Prudente.distincts (hh : Prudente h) (hsuite : h = avant ++ suite) (id : Nat) (t : Task)
    (ht : (apres avant).stockee[id]? = some (some t)) : t.files.Nodup ∧ t.modelsUsed.Nodup := by
  induction avant using List.reverseRecOn generalizing suite t with
  | nil => cases ht
  | append_singleton avant e ih =>
      rw [List.append_assoc, List.singleton_append] at hsuite
      obtain ⟨m, hm⟩ := hh.commise hsuite
      obtain ⟨m', hm', hevolue, -⟩ := hh.pas hsuite hm
      rw [hm'] at ht
      cases hevolue.tache id t ht with
      | inl hneuve =>
          obtain ⟨-, now, d, rfl⟩ := hneuve
          exact ⟨List.nodup_nil, List.nodup_nil⟩
      | inr hancienne =>
          obtain ⟨t₀, ht₀, hs⟩ := hancienne
          exact hs.distincts (ih hsuite t₀ (hm ▸ ht₀))

theorem nombre_neuve {genre : String → Bool} (hgenre : genre "Task created" = false) (now : Int)
    (d : Demande) : (Demande.task now d).nombre genre = 0 := by
  simp [Task.nombre, Demande.task, hgenre]

theorem Prudente.compte {β : Type} [DecidableEq β] {f : Task → β} {genre : String → Bool}
    (hs : ∀ t t', Suite t t' (if t.status = t'.status then 0 else 1)
      (if t.projectId = t'.projectId then 0 else 1) →
        t'.nombre genre = t.nombre genre + if f t = f t' then 0 else 1)
    (hneuve : ∀ now d, (Demande.task now d).nombre genre = 0)
    (hh : Prudente h) (hsuite : h = avant ++ suite) (id : Nat) :
    ((apres avant).stockee[id]? = none → changements f id avant = 0) ∧
      ∀ t, (apres avant).stockee[id]? = some (some t) →
        t.nombre genre = changements f id avant := by
  induction avant using List.reverseRecOn generalizing suite with
  | nil => exact ⟨fun _ => rfl, fun t ht => (nomatch ht)⟩
  | append_singleton avant e ih =>
      rw [List.append_assoc, List.singleton_append] at hsuite
      obtain ⟨m, hm⟩ := hh.commise hsuite
      obtain ⟨m', hm', hevolue, -⟩ := hh.pas hsuite hm
      have hih := ih hsuite
      rw [changements_concat, hm', hm]
      rw [hm] at hih
      change (m[id]? = none → _) ∧ ∀ t, m[id]? = some (some t) → _ at hih
      change (m'[id]? = none → changements f id avant + (if differe f id m m' then 1 else 0) = 0) ∧
        ∀ t, m'[id]? = some (some t) →
          t.nombre genre = changements f id avant + if differe f id m m' then 1 else 0
      constructor
      · intro hnone
        have hm₀ : m[id]? = none :=
          List.getElem?_eq_none (hevolue.longueur.trans (List.getElem?_eq_none_iff.mp hnone))
        simp [hih.1 hm₀, differe, hm₀]
      · intro t ht
        cases hevolue.tache id t ht with
        | inl hneuf =>
            obtain ⟨hm₀, now, d, rfl⟩ := hneuf
            simp [hih.1 hm₀, differe, hm₀, hneuve]
        | inr hancienne =>
            obtain ⟨t₀, ht₀, hsuit⟩ := hancienne
            rw [hs t₀ t hsuit, hih.2 t₀ ht₀]
            by_cases hf : f t₀ = f t
            · simp [differe, ht₀, ht, hf]
            · simp [differe, ht₀, ht, hf]

end Histoires

theorem loi_of_prudente (h : Histoire) (hh : Prudente h) : Loi h where
  atomique _ _ hsuite := by rw [hh.reussies hsuite]
  croissance avant e suite hsuite id t t' ht ht' := by
    obtain ⟨m, hm⟩ := hh.commise hsuite
    obtain ⟨m', hm', hevolue, -⟩ := hh.pas hsuite hm
    rw [hm] at ht
    rw [hm'] at ht'
    cases hevolue.tache id t' ht' with
    | inl hneuve => cases hneuve.1.symm.trans ht
    | inr hancienne =>
        obtain ⟨t₀, ht₀, hs⟩ := hancienne
        cases ht₀.symm.trans ht
        exact ⟨hs.history, hs.files, hs.modelsUsed⟩
  statuts _ _ hsuite id t ht :=
    (hh.compte (fun _ _ hs => hs.statuts) (nombre_neuve (by decide)) hsuite id).2 t ht
  projets _ _ hsuite id t ht :=
    (hh.compte (fun _ _ hs => hs.projets) (nombre_neuve (by decide)) hsuite id).2 t ht
  distincts _ _ hsuite id t ht := hh.distincts hsuite id t ht

theorem loi_commencee :
    Loi [(0, .createTask ⟨"t", "", "", "low", none, none⟩),
      (1, .updateTask 0 { status := some "in_progress" })] := by
  apply loi_of_prudente
  intro avant now id a suite hsuite t ht
  match avant, hsuite with
  | [], hsuite => cases hsuite
  | [_], hsuite =>
      cases hsuite
      refine ⟨fun _ p hp => (nomatch hp), fun _ ⟨r, hr, _⟩ => (nomatch hr), fun n hn => (nomatch hn)⟩
  | _ :: _ :: avant, hsuite => simp at hsuite

theorem loi_statut_inconnu :
    ¬Loi [(0, .createTask ⟨"t", "", "", "low", none, none⟩),
      (1, .updateTask 0 { status := some "finished", projectId := some "p" }),
      (2, .createTask ⟨"u", "", "", "low", none, none⟩)] := by
  intro hloi
  have hatomique := hloi.atomique _ [] (List.append_nil _).symm
  exact absurd hatomique (by decide)

end Hermes.TaskManager
