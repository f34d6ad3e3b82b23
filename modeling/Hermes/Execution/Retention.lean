import Hermes.Execution.Ordonnancement

/-! # What the retention cap does to dependencies

Past the cap a registration drops one task: the first finished one among the oldest, or, when
those are all unfinished, the one behind them.
-/

namespace Hermes.Execution.TaskScheduler

open Lib

section Eviction

variable (enCours : Nat → Bool) {secours : Nat} {pre : Dict String Nat} (post : Dict String Nat)
  {item : String × Nat} (dependencies : Dict String (List String))

theorem evincer_un (hpre : ∀ item ∈ pre, enCours item.2 = true) (hsecours : pre.length ≤ secours)
    (hitem : enCours item.2 = false ∨ pre.length = secours) :
    evincer enCours 1 secours (pre ++ item :: post) dependencies =
      (post ++ pre, dependencies.erase item.1) := by
  induction pre generalizing secours post with
  | nil =>
      have hdrop : ¬ (enCours item.2 = true ∧ 0 < secours) := by
        rintro ⟨htrue, hpos⟩
        rcases hitem with hfalse | hzero
        · rw [hfalse] at htrue
          cases htrue
        · rw [← hzero] at hpos
          exact absurd hpos (lt_irrefl _)
      rw [List.nil_append, List.append_nil, evincer, if_neg hdrop, evincer]
  | cons tete pre ih =>
      rw [List.length_cons] at hsecours hitem
      have hrescue : enCours tete.2 = true ∧ 0 < secours :=
        ⟨hpre tete List.mem_cons_self, by omega⟩
      have hih := @ih (secours - 1) (post ++ [tete])
        (fun item hitem => hpre item (List.mem_cons_of_mem _ hitem)) (by omega)
        (hitem.imp_right fun h => by omega)
      rw [List.cons_append, evincer, if_pos hrescue, List.append_assoc, List.cons_append, hih]
      simp

end Eviction

variable (s : TaskScheduler)

/-- The registry with the task at its back, before anything is dropped. -/
def inscrites (r : Nat) : Dict String Nat := s.taches.setLast (s.objets r).taskId r

/-- The id that the registration of this object drops. -/
def sortante (r : Nat) : Option String :=
  let inscrites := s.inscrites r
  if inscrites.length ≤ MAX_RETAINED_TASKS then none
  else
    match (inscrites.take EVICT_RESCUE_LIMIT).find? fun item =>
        (s.objets item.2).status.terminal with
    | some item => some item.1
    | none => inscrites[EVICT_RESCUE_LIMIT]?.map Prod.fst

structure Tenu : Prop where
  nodup : s.taches.keys.Nodup
  nodupDeps : s.dependencies.keys.Nodup
  memes : ∀ tid, tid ∈ s.dependencies.keys ↔ tid ∈ s.taches.keys
  borne : s.taches.length ≤ MAX_RETAINED_TASKS

section Inscription

variable {s} {r : Nat} {deps : List String}

theorem exists_sortante (deps : List String)
    (hplein : (s.inscrites r).length = MAX_RETAINED_TASKS + 1) :
    ∃ pre item post, s.inscrites r = pre ++ item :: post ∧
      s.sortante r = some item.1 ∧ post ≠ [] ∧
      (s.registerTask r deps).taches = post ++ pre ∧
      (s.registerTask r deps).dependencies =
        (s.dependencies.set (s.objets r).taskId deps).erase item.1 := by
  have hsurplus : ¬ (s.inscrites r).length ≤ MAX_RETAINED_TASKS := by omega
  have hun : (s.inscrites r).length - MAX_RETAINED_TASKS = 1 := by omega
  have hregistre : ∀ pre item post, s.inscrites r = pre ++ item :: post →
      (∀ item ∈ pre, (!(s.objets item.2).status.terminal) = true) →
      pre.length ≤ EVICT_RESCUE_LIMIT →
      ((!(s.objets item.2).status.terminal) = false ∨ pre.length = EVICT_RESCUE_LIMIT) →
      (s.registerTask r deps).taches = post ++ pre ∧
        (s.registerTask r deps).dependencies =
          (s.dependencies.set (s.objets r).taskId deps).erase item.1 := by
    intro pre item post hsplit hpre hlength hitem
    have hevince := evincer_un (fun r => !(s.objets r).status.terminal) post
      (s.dependencies.set (s.objets r).taskId deps) hpre hlength hitem
    rw [← hsplit, ← hun] at hevince
    unfold inscrites at hsurplus hevince
    unfold registerTask evictOldest
    dsimp only
    rw [if_neg hsurplus]
    dsimp only
    rw [hevince]
    exact ⟨rfl, rfl⟩
  have hpost : ∀ pre item post, s.inscrites r = pre ++ item :: post →
      pre.length ≤ EVICT_RESCUE_LIMIT → post ≠ [] := by
    rintro pre item post hsplit hlength rfl
    rw [hsplit, List.length_append, List.length_singleton] at hplein
    simp only [MAX_RETAINED_TASKS, EVICT_RESCUE_LIMIT] at hplein hlength
    omega
  cases hfind : (s.inscrites r |>.take EVICT_RESCUE_LIMIT).find? fun item =>
      (s.objets item.2).status.terminal with
  | some item =>
      obtain ⟨hterminal, pre, suite, htake, hpre⟩ := List.find?_eq_some_iff_append.mp hfind
      have hsplit : s.inscrites r
          = pre ++ item :: (suite ++ (s.inscrites r).drop EVICT_RESCUE_LIMIT) := by
        conv_lhs => rw [← List.take_append_drop EVICT_RESCUE_LIMIT (s.inscrites r), htake]
        simp
      have hlength : pre.length ≤ EVICT_RESCUE_LIMIT := by
        have hle := List.length_take_le EVICT_RESCUE_LIMIT (s.inscrites r)
        rw [htake, List.length_append] at hle
        omega
      have hdrop := hregistre _ _ _ hsplit hpre hlength (.inl (by simpa using hterminal))
      refine ⟨_, _, _, hsplit, ?_, hpost _ _ _ hsplit hlength, hdrop⟩
      unfold sortante
      dsimp only
      rw [if_neg hsurplus, hfind]
  | none =>
      have hlt : EVICT_RESCUE_LIMIT < (s.inscrites r).length := by
        simp only [MAX_RETAINED_TASKS, EVICT_RESCUE_LIMIT] at hplein ⊢
        omega
      have hsplit : s.inscrites r = (s.inscrites r).take EVICT_RESCUE_LIMIT ++
          (s.inscrites r)[EVICT_RESCUE_LIMIT] :: (s.inscrites r).drop (EVICT_RESCUE_LIMIT + 1) := by
        rw [← List.drop_eq_getElem_cons hlt, List.take_append_drop]
      have hlength : ((s.inscrites r).take EVICT_RESCUE_LIMIT).length = EVICT_RESCUE_LIMIT := by
        rw [List.length_take]
        omega
      have hpre : ∀ item ∈ (s.inscrites r).take EVICT_RESCUE_LIMIT,
          (!(s.objets item.2).status.terminal) = true := by
        intro item hitem
        simpa using List.find?_eq_none.mp hfind item hitem
      have hdrop := hregistre _ _ _ hsplit hpre hlength.le (.inr hlength)
      refine ⟨_, _, _, hsplit, ?_, hpost _ _ _ hsplit hlength.le, hdrop⟩
      unfold sortante
      dsimp only
      rw [if_neg hsurplus, hfind]
      simp [hlt]

theorem inscrites_length_le (h : s.Tenu) : (s.inscrites r).length ≤ MAX_RETAINED_TASKS + 1 := by
  have herase : (s.taches.erase (s.objets r).taskId).length ≤ s.taches.length :=
    List.length_filter_le _ _
  have hborne := h.borne
  simp only [inscrites, Dict.setLast, List.length_append, List.length_singleton]
  omega

theorem registerTask_place (deps : List String)
    (hplace : (s.inscrites r).length ≤ MAX_RETAINED_TASKS) :
    s.sortante r = none ∧ (s.registerTask r deps).taches = s.inscrites r ∧
      (s.registerTask r deps).dependencies = s.dependencies.set (s.objets r).taskId deps := by
  refine ⟨if_pos hplace, ?_⟩
  unfold inscrites at hplace ⊢
  unfold registerTask evictOldest
  dsimp only
  rw [if_pos hplace]
  exact ⟨rfl, rfl⟩

/-- What the two dictionaries read after a registration. -/
structure Inscription (s s' : TaskScheduler) (r : Nat) (deps : List String) : Prop where
  tenu : s'.Tenu
  reste : s.sortante r ≠ some (s.objets r).taskId
  getTask : ∀ tid, s'.getTask tid =
    if s.sortante r = some tid then none
    else if tid = (s.objets r).taskId then some r else s.getTask tid
  deps : ∀ tid, s'.dependancesDe tid =
    if s.sortante r = some tid then []
    else if tid = (s.objets r).taskId then deps else s.dependancesDe tid

theorem nodup_inscrites (h : s.Tenu) (r : Nat) : (s.inscrites r).keys.Nodup :=
  Dict.nodup_keys_setLast h.nodup _ _

theorem mem_keys_inscrites (h : s.Tenu) (tid : String) :
    tid ∈ (s.dependencies.set (s.objets r).taskId deps).keys ↔ tid ∈ (s.inscrites r).keys := by
  rw [Dict.keys_set, h.memes, ← Dict.isSome_get?, ← Dict.isSome_get?, inscrites, Dict.get?_setLast]
  by_cases htid : tid = (s.objets r).taskId
  · simp [htid]
  · simp [htid]

theorem inscription_place (h : s.Tenu) (hplace : (s.inscrites r).length ≤ MAX_RETAINED_TASKS) :
    Inscription s (s.registerTask r deps) r deps := by
  obtain ⟨hsortante, htaches, hdeps⟩ := registerTask_place deps hplace
  refine ⟨⟨?_, ?_, ?_, ?_⟩, ?_, fun tid => ?_, fun tid => ?_⟩
  · rw [htaches]
    exact nodup_inscrites h r
  · rw [hdeps]
    exact Dict.nodup_keys_set h.nodupDeps _ _
  · rw [htaches, hdeps]
    exact mem_keys_inscrites h
  · rwa [htaches]
  · simp [hsortante]
  · rw [TaskScheduler.getTask, htaches, inscrites, Dict.get?_setLast]
    simp [hsortante, TaskScheduler.getTask]
  · rw [dependancesDe, hdeps, Dict.getD_set]
    simp [hsortante, dependancesDe]

theorem inscription_pleine (h : s.Tenu)
    (hplein : (s.inscrites r).length = MAX_RETAINED_TASKS + 1) :
    Inscription s (s.registerTask r deps) r deps := by
  obtain ⟨pre, item, post, hsplit, hsortante, hpost, htaches, hdeps⟩ :=
    exists_sortante deps hplein
  have hnodup : (s.inscrites r).keys.Nodup := nodup_inscrites h r
  have herase : (s.inscrites r).erase item.1 = pre ++ post := by
    rw [hsplit] at hnodup ⊢
    exact Dict.erase_append_cons hnodup
  have hperm : ((s.inscrites r).erase item.1).Perm (s.registerTask r deps).taches := by
    rw [herase, htaches]
    exact List.perm_append_comm
  have hnodup' : ((s.inscrites r).erase item.1).keys.Nodup := Dict.nodup_keys_erase hnodup _
  have hget : ∀ tid, (s.registerTask r deps).taches.get? tid =
      if tid = item.1 then none else (s.inscrites r).get? tid := by
    intro tid
    rw [Dict.get?_perm hnodup' hperm, Dict.get?_erase]
  -- the task just registered is the last entry, and the one that leaves has another behind it
  have hreste : item.1 ≠ (s.objets r).taskId := by
    intro heq
    have hdernier : (s.inscrites r).getLast? = some ((s.objets r).taskId, r) := by
      simp [inscrites, Dict.setLast]
    rw [hsplit, List.getLast?_append_of_ne_nil _ (List.cons_ne_nil _ _),
      List.getLast?_cons_of_ne_nil hpost] at hdernier
    have hmem : ((s.objets r).taskId, r) ∈ (s.inscrites r).erase item.1 := by
      rw [herase]
      exact List.mem_append_right _ (List.mem_of_getLast? hdernier)
    exact (Dict.mem_erase.mp hmem).2 heq.symm
  refine ⟨⟨?_, ?_, fun tid => ?_, ?_⟩, ?_, fun tid => ?_, fun tid => ?_⟩
  · exact (hperm.map Prod.fst).nodup_iff.mp hnodup'
  · rw [hdeps]
    exact Dict.nodup_keys_erase (Dict.nodup_keys_set h.nodupDeps _ _) _
  · rw [hdeps, ← Dict.isSome_get?, Dict.get?_erase, ← Dict.isSome_get?, hget]
    by_cases heq : tid = item.1
    · simp [heq]
    · rw [if_neg heq, if_neg heq, Dict.isSome_get?, Dict.isSome_get?, mem_keys_inscrites h]
  · have hlength := hperm.length_eq
    rw [herase, List.length_append] at hlength
    rw [hsplit, List.length_append, List.length_cons] at hplein
    omega
  · rw [hsortante]
    exact fun heq => hreste (Option.some.inj heq)
  · rw [getTask, hget, hsortante, inscrites, Dict.get?_setLast]
    simp [getTask, eq_comm]
  · rw [dependancesDe, hdeps, Dict.getD, Dict.get?_erase, hsortante]
    by_cases heq : tid = item.1
    · simp [heq]
    · rw [if_neg heq, if_neg (fun h => heq (Option.some.inj h).symm), ← Dict.getD, Dict.getD_set]
      rfl

theorem registerTask_spec (h : s.Tenu) (r : Nat) (deps : List String) :
    Inscription s (s.registerTask r deps) r deps := by
  by_cases hplace : (s.inscrites r).length ≤ MAX_RETAINED_TASKS
  · exact inscription_place h hplace
  · have hle := inscrites_length_le (r := r) h
    exact inscription_pleine h (by omega)

end Inscription

inductive Appel where
  | registerTask (r : Nat) (deps : List String)
  | updateTask (taskId : String) (status : TaskExecutionStatus) (result : Option String)
  | ecrireStatut (r : Nat) (status : TaskExecutionStatus)

def ecrireStatut (r : Nat) (status : TaskExecutionStatus) : TaskScheduler :=
  s.ecrire r (fun t => { t with status := status }) fun _ => rfl

def appliquer : Appel → TaskScheduler
  | .registerTask r deps => s.registerTask r deps
  | .updateTask taskId status result => s.updateTask taskId status result
  | .ecrireStatut r status => s.ecrireStatut r status

/-- The scheduler with the memory of its history: the objects that were ever registered, and the
ids of those that have been satisfied at some point since, kept or not. -/
structure Suivi where
  s : TaskScheduler
  connus : List Nat := []
  acquises : List String := []

def Suivi.connusApres (σ : Suivi) : Appel → List Nat
  | .registerTask r _ => r :: σ.connus
  | .updateTask _ _ _ | .ecrireStatut _ _ => σ.connus

def satisfaites (s : TaskScheduler) (connus : List Nat) : List String :=
  (connus.filter fun r => (s.objets r).status.satisfait).map fun r => (s.objets r).taskId

def suivre (σ : Suivi) (a : Appel) : Suivi where
  s := σ.s.appliquer a
  connus := σ.connusApres a
  acquises := σ.acquises ++ satisfaites (σ.s.appliquer a) (σ.connusApres a)

def apres (objets : Nat → TaskExecution) (histoire : List Appel) : Suivi :=
  histoire.foldl suivre { s := nouveau objets }

def Attend (tid d : String) : Prop := s.enAttente tid = true ∧ d ∈ s.dependancesDe tid

/-- The registration neither drops this dependency nor replaces it by an unfinished task. -/
def Reste (r : Nat) (d : String) : Prop :=
  s.sortante r ≠ some d ∧ (d = (s.objets r).taskId → (s.objets r).status.satisfait = true)

/-- A status written on a registered task: one that was satisfied is not reopened while a pending
task waits for it, and a task that becomes pending finds its satisfied dependencies. -/
structure EcritureGardee (σ : Suivi) (taskId : String) (status : TaskExecutionStatus) : Prop where
  rouverte : status.satisfait = false → taskId ∈ σ.acquises →
    ∀ tid, tid ≠ taskId → ¬ σ.s.Attend tid taskId
  reprise : status = .pending → ∀ d ∈ σ.s.dependancesDe taskId, d ∈ σ.acquises →
    d ≠ taskId ∧ σ.s.isDepSatisfied d = true

/-- The call takes no satisfied dependency away from a pending task. -/
def Garde (σ : Suivi) : Appel → Prop
  | .registerTask r deps =>
      (∀ tid d, σ.s.Attend tid d → tid ≠ (σ.s.objets r).taskId → σ.s.sortante r ≠ some tid →
        d ∈ σ.acquises → σ.s.Reste r d) ∧
      ((σ.s.objets r).status = .pending → ∀ d ∈ deps, d ∈ σ.acquises →
        σ.s.isDepSatisfied d = true ∧ σ.s.Reste r d)
  | .updateTask taskId status _ =>
      ∀ r, σ.s.getTask taskId = some r → EcritureGardee σ taskId status
  | .ecrireStatut r status =>
      (σ.s.getTask (σ.s.objets r).taskId = some r →
        EcritureGardee σ (σ.s.objets r).taskId status) ∧
      -- a task that the registry no longer holds is finished where it cannot be seen
      (σ.s.getTask (σ.s.objets r).taskId ≠ some r → r ∈ σ.connus → status.satisfait = true →
        ∀ tid, σ.s.Attend tid (σ.s.objets r).taskId →
          σ.s.isDepSatisfied (σ.s.objets r).taskId = true)

/-- Every call of the history is guarded where it is made. -/
def Gardee : Suivi → List Appel → Prop
  | _, [] => True
  | σ, a :: histoire => Garde σ a ∧ Gardee (suivre σ a) histoire

/-- What the history keeps: the registry holds known objects, and the known objects that are
satisfied are recorded. -/
structure Coherent (σ : Suivi) : Prop where
  tenu : σ.s.Tenu
  connu : ∀ tid r, σ.s.getTask tid = some r → r ∈ σ.connus
  acquise : ∀ d ∈ satisfaites σ.s σ.connus, d ∈ σ.acquises

/-- A pending task sees each of its dependencies that have been satisfied. -/
def Intacte (σ : Suivi) : Prop :=
  ∀ tid d, σ.s.Attend tid d → d ∈ σ.acquises → σ.s.isDepSatisfied d = true

section Pas

variable {s} {σ : Suivi} {r : Nat} {tid d : String}

theorem isDepSatisfied_iff :
    s.isDepSatisfied d = true ↔
      ∃ r, s.getTask d = some r ∧ (s.objets r).status.satisfait = true := by
  unfold isDepSatisfied tache
  cases s.getTask d with
  | none => simp
  | some r => simp

theorem mem_satisfaites {connus : List Nat} :
    d ∈ satisfaites s connus ↔
      ∃ r ∈ connus, (s.objets r).status.satisfait = true ∧ (s.objets r).taskId = d := by
  simp only [satisfaites, List.mem_map, List.mem_filter]
  exact ⟨fun ⟨r, ⟨hr, hs⟩, hd⟩ => ⟨r, hr, hs, hd⟩, fun ⟨r, hr, hs, hd⟩ => ⟨r, ⟨hr, hs⟩, hd⟩⟩

theorem coherent_registerTask (h : Coherent σ) (r : Nat) (deps : List String) :
    Coherent (suivre σ (.registerTask r deps)) := by
  have hspec := registerTask_spec h.tenu r deps
  refine ⟨hspec.tenu, fun tid r' hget => ?_, fun d hd => List.mem_append_right _ hd⟩
  have hget' := hspec.getTask tid
  rw [show (σ.s.registerTask r deps).getTask tid = some r' from hget] at hget'
  split at hget'
  · cases hget'
  · split at hget'
    · cases hget'
      exact List.mem_cons_self
    · exact List.mem_cons_of_mem _ (h.connu tid r' hget'.symm)

theorem intacte_registerTask (h : Coherent σ) (hi : Intacte σ) {deps : List String}
    (hg : Garde σ (.registerTask r deps)) : Intacte (suivre σ (.registerTask r deps)) := by
  have hspec := registerTask_spec h.tenu r deps
  intro tid d hattend hacquise
  change (σ.s.registerTask r deps).Attend tid d at hattend
  change (σ.s.registerTask r deps).isDepSatisfied d = true
  -- the dependency was satisfied before the call, or is the task it registers
  have hcas : d ∈ σ.acquises ∨
      (d = (σ.s.objets r).taskId ∧ (σ.s.objets r).status.satisfait = true) := by
    rcases List.mem_append.mp hacquise with hold | hnew
    · exact .inl hold
    · obtain ⟨r', hr', hsatisfait, hid⟩ := mem_satisfaites.mp hnew
      simp only [appliquer, objets_registerTask] at hsatisfait hid
      rcases List.mem_cons.mp hr' with rfl | hr'
      · exact .inr ⟨hid.symm, hsatisfait⟩
      · exact .inl (h.acquise d (mem_satisfaites.mpr ⟨r', hr', hsatisfait, hid⟩))
  have hvu : (d ∈ σ.acquises → σ.s.isDepSatisfied d = true ∧ σ.s.Reste r d) := by
    intro hold
    obtain ⟨hattente, hd⟩ := hattend
    obtain ⟨r', hget, hpending⟩ := enAttente_iff.mp hattente
    rw [objets_registerTask] at hpending
    rw [hspec.getTask tid] at hget
    rw [hspec.deps tid] at hd
    split at hget
    · cases hget
    · next hsort =>
        rw [if_neg hsort] at hd
        split at hget
        · next hid =>
            cases hget
            rw [if_pos hid] at hd
            exact hg.2 hpending d hd hold
        · next hid =>
            rw [if_neg hid] at hd
            have hattend' : σ.s.Attend tid d := ⟨enAttente_iff.mpr ⟨r', hget, hpending⟩, hd⟩
            exact ⟨hi tid d hattend' hold, hg.1 tid d hattend' hid hsort hold⟩
  rw [isDepSatisfied_iff]
  simp only [objets_registerTask, hspec.getTask d]
  rcases hcas with hold | ⟨rfl, hsatisfait⟩
  · obtain ⟨hsatisfaite, hsort, hremplacee⟩ := hvu hold
    rw [if_neg hsort]
    split
    · next hid => exact ⟨r, rfl, hremplacee hid⟩
    · exact isDepSatisfied_iff.mp hsatisfaite
  · rw [if_neg hspec.reste, if_pos rfl]
    exact ⟨r, rfl, hsatisfait⟩

section Ecriture

variable {f : TaskExecution → TaskExecution} {hf : ∀ t, (f t).taskId = t.taskId}
  {status : TaskExecutionStatus}

theorem taskId_ecrire (s : TaskScheduler) (r : Nat) (f : TaskExecution → TaskExecution)
    (hf : ∀ t, (f t).taskId = t.taskId) (r' : Nat) :
    ((s.ecrire r f hf).objets r').taskId = (s.objets r').taskId := by
  by_cases h : r' = r
  · rw [h, objets_ecrire_self, hf]
  · rw [objets_ecrire_of_ne s r f hf h]

theorem tache_ecrire (f : TaskExecution → TaskExecution) (hf : ∀ t, (f t).taskId = t.taskId)
    (h : s.getTask tid = some r) (d : String) :
    (s.ecrire r f hf).tache d = if d = tid then some (f (s.objets r)) else s.tache d := by
  split
  · next hd =>
      rw [hd]
      exact tache_ecrire_self s r f hf h
  · next hd => exact tache_ecrire_of_ne s r f hf h hd

theorem tache_ecrire_hors (f : TaskExecution → TaskExecution)
    (hf : ∀ t, (f t).taskId = t.taskId) (h : s.getTask (s.objets r).taskId ≠ some r) (d : String) :
    (s.ecrire r f hf).tache d = s.tache d := by
  unfold tache
  rw [getTask_ecrire]
  cases hget : s.getTask d with
  | none => rfl
  | some r' =>
      have hne : r' ≠ r := by
        rintro rfl
        rw [taskId_of_getTask hget] at h
        exact h hget
      simp only [Option.map_some, objets_ecrire_of_ne s r f hf hne]

theorem mem_satisfaites_ecrire {connus : List Nat} (hd : d ∈ satisfaites (s.ecrire r f hf) connus) :
    d ∈ satisfaites s connus ∨
      (r ∈ connus ∧ (f (s.objets r)).status.satisfait = true ∧ (s.objets r).taskId = d) := by
  obtain ⟨r', hr', hsatisfait, hid⟩ := mem_satisfaites.mp hd
  rw [taskId_ecrire] at hid
  by_cases h : r' = r
  · subst h
    rw [objets_ecrire_self] at hsatisfait
    exact .inr ⟨hr', hsatisfait, hid⟩
  · rw [objets_ecrire_of_ne s r f hf h] at hsatisfait
    exact .inl (mem_satisfaites.mpr ⟨r', hr', hsatisfait, hid⟩)

def Suivi.ecrit (σ : Suivi) (r : Nat) (f : TaskExecution → TaskExecution)
    (hf : ∀ t, (f t).taskId = t.taskId) : Suivi where
  s := σ.s.ecrire r f hf
  connus := σ.connus
  acquises := σ.acquises ++ satisfaites (σ.s.ecrire r f hf) σ.connus

theorem coherent_ecrit (h : Coherent σ) : Coherent (σ.ecrit r f hf) :=
  ⟨⟨h.tenu.nodup, h.tenu.nodupDeps, h.tenu.memes, h.tenu.borne⟩, h.connu,
    fun _ hd => List.mem_append_right _ hd⟩

theorem intacte_ecrit (h : Coherent σ) (hi : Intacte σ) (hget : σ.s.getTask tid = some r)
    (hstatus : ∀ t, (f t).status = status) (hg : EcritureGardee σ tid status) :
    Intacte (σ.ecrit r f hf) := by
  have hid : (σ.s.objets r).taskId = tid := taskId_of_getTask hget
  intro x d hattend hacquise
  change (σ.s.ecrire r f hf).Attend x d at hattend
  change (σ.s.ecrire r f hf).isDepSatisfied d = true
  have hcas : d ∈ σ.acquises ∨ (d = tid ∧ status.satisfait = true) := by
    rcases List.mem_append.mp hacquise with hold | hnew
    · exact .inl hold
    · rcases mem_satisfaites_ecrire hnew with hold | ⟨-, hsatisfait, hd⟩
      · exact .inl (h.acquise d hold)
      · rw [hstatus] at hsatisfait
        exact .inr ⟨hd.symm.trans hid, hsatisfait⟩
  obtain ⟨hattente, hd⟩ := hattend
  change d ∈ σ.s.dependancesDe x at hd
  unfold enAttente at hattente
  unfold isDepSatisfied
  rw [tache_ecrire f hf hget] at hattente ⊢
  by_cases hdt : d = tid
  · subst hdt
    rw [if_pos rfl]
    simp only [hstatus]
    rcases hcas with hold | ⟨-, hsatisfait⟩
    · by_contra hnot
      have hfalse : status.satisfait = false := by simpa using hnot
      by_cases hx : x = d
      · subst hx
        rw [if_pos rfl] at hattente
        have hpending : status = .pending := by simpa [hstatus] using hattente
        exact (hg.reprise hpending x hd hold).1 rfl
      · rw [if_neg hx] at hattente
        exact hg.rouverte hfalse hold x hx ⟨hattente, hd⟩
    · exact hsatisfait
  · rw [if_neg hdt]
    have hold : d ∈ σ.acquises := hcas.resolve_right fun h => hdt h.1
    by_cases hx : x = tid
    · subst hx
      rw [if_pos rfl] at hattente
      have hpending : status = .pending := by simpa [hstatus] using hattente
      exact (hg.reprise hpending d hd hold).2
    · rw [if_neg hx] at hattente
      exact hi x d ⟨hattente, hd⟩ hold

theorem intacte_ecrit_hors (h : Coherent σ) (hi : Intacte σ)
    (hget : σ.s.getTask (σ.s.objets r).taskId ≠ some r) (hstatus : ∀ t, (f t).status = status)
    (hg : r ∈ σ.connus → status.satisfait = true → ∀ tid, σ.s.Attend tid (σ.s.objets r).taskId →
      σ.s.isDepSatisfied (σ.s.objets r).taskId = true) : Intacte (σ.ecrit r f hf) := by
  intro x d hattend hacquise
  have hmeme : ∀ d, (σ.ecrit r f hf).s.tache d = σ.s.tache d := tache_ecrire_hors f hf hget
  have hattend' : σ.s.Attend x d := by
    obtain ⟨hattente, hd⟩ := hattend
    refine ⟨?_, hd⟩
    unfold enAttente at hattente ⊢
    rwa [hmeme] at hattente
  have hsatisfaite : σ.s.isDepSatisfied d = true := by
    rcases List.mem_append.mp hacquise with hold | hnew
    · exact hi x d hattend' hold
    · rcases mem_satisfaites_ecrire hnew with hold | ⟨hr, hsatisfait, rfl⟩
      · exact hi x d hattend' (h.acquise d hold)
      · rw [hstatus] at hsatisfait
        exact hg hr hsatisfait x hattend'
  unfold isDepSatisfied at hsatisfaite ⊢
  rwa [hmeme]

end Ecriture

theorem suivre_ecrireStatut (status : TaskExecutionStatus) :
    suivre σ (.ecrireStatut r status) =
      σ.ecrit r (fun t => { t with status := status }) (fun _ => rfl) := rfl

theorem suivre_updateTask {status : TaskExecutionStatus} {result : Option String}
    (h : σ.s.getTask tid = some r) :
    suivre σ (.updateTask tid status result) = σ.ecrit r
      (fun t => { t with status := status, result := result.or t.result }) (fun _ => rfl) := by
  simp only [suivre, appliquer, updateTask, h, Suivi.ecrit, Suivi.connusApres]

theorem suivre_updateTask_absente {status : TaskExecutionStatus} {result : Option String}
    (h : σ.s.getTask tid = none) :
    suivre σ (.updateTask tid status result) =
      { σ with acquises := σ.acquises ++ satisfaites σ.s σ.connus } := by
  simp only [suivre, appliquer, updateTask, h, Suivi.connusApres]

theorem coherent_suivre (h : Coherent σ) (a : Appel) : Coherent (suivre σ a) := by
  cases a with
  | registerTask r deps => exact coherent_registerTask h r deps
  | ecrireStatut r status =>
      rw [suivre_ecrireStatut]
      exact coherent_ecrit h
  | updateTask taskId status result =>
      cases hget : σ.s.getTask taskId with
      | none =>
          rw [suivre_updateTask_absente hget]
          exact ⟨h.tenu, h.connu, fun d hd => List.mem_append_right _ hd⟩
      | some r =>
          rw [suivre_updateTask hget]
          exact coherent_ecrit h

theorem intacte_suivre (h : Coherent σ) (hi : Intacte σ) {a : Appel} (hg : Garde σ a) :
    Intacte (suivre σ a) := by
  cases a with
  | registerTask r deps => exact intacte_registerTask h hi hg
  | ecrireStatut r status =>
      rw [suivre_ecrireStatut]
      by_cases hget : σ.s.getTask (σ.s.objets r).taskId = some r
      · exact intacte_ecrit h hi hget (fun _ => rfl) (hg.1 hget)
      · exact intacte_ecrit_hors h hi hget (fun _ => rfl) (hg.2 hget)
  | updateTask taskId status result =>
      cases hget : σ.s.getTask taskId with
      | none =>
          rw [suivre_updateTask_absente hget]
          intro x d hattend hacquise
          rcases List.mem_append.mp hacquise with hold | hnew
          · exact hi x d hattend hold
          · exact hi x d hattend (h.acquise d hnew)
      | some r =>
          rw [suivre_updateTask hget]
          exact intacte_ecrit h hi hget (fun _ => rfl) (hg r hget)

theorem garde_of_intacte (h : Coherent σ) {a : Appel} (hsuite : Intacte (suivre σ a)) : Garde σ a := by
  have hecriture : ∀ {r tid status} {f : TaskExecution → TaskExecution}
      {hf : ∀ t, (f t).taskId = t.taskId}, σ.s.getTask tid = some r →
      (∀ t, (f t).status = status) → Intacte (σ.ecrit r f hf) → EcritureGardee σ tid status := by
    intro r tid status f hf hget hstatus hsuite
    have htache : ∀ d, (σ.ecrit r f hf).s.tache d =
        if d = tid then some (f (σ.s.objets r)) else σ.s.tache d := tache_ecrire f hf hget
    refine ⟨fun hfalse hold x hx hattend => ?_, fun hpending d hd hold => ?_⟩
    · have hattend' : (σ.ecrit r f hf).s.Attend x tid := by
        refine ⟨?_, hattend.2⟩
        unfold enAttente
        rw [htache, if_neg hx]
        exact hattend.1
      have hsatisfaite := hsuite x tid hattend' (List.mem_append_left _ hold)
      unfold isDepSatisfied at hsatisfaite
      rw [htache, if_pos rfl] at hsatisfaite
      simp [hstatus, hfalse] at hsatisfaite
    · have hattend' : (σ.ecrit r f hf).s.Attend tid d := by
        refine ⟨?_, hd⟩
        unfold enAttente
        rw [htache, if_pos rfl]
        simp [hstatus, hpending]
      have hsatisfaite := hsuite tid d hattend' (List.mem_append_left _ hold)
      unfold isDepSatisfied at hsatisfaite
      rw [htache] at hsatisfaite
      by_cases hdt : d = tid
      · rw [if_pos hdt] at hsatisfaite
        simp [hstatus, hpending, TaskExecutionStatus.satisfait] at hsatisfaite
      · rw [if_neg hdt] at hsatisfaite
        exact ⟨hdt, hsatisfaite⟩
  cases a with
  | registerTask r deps =>
      have hspec := registerTask_spec h.tenu r deps
      -- what a pending task of the new registry waits for is there, and is not the new task
      have hreste : ∀ {x d}, (σ.s.registerTask r deps).Attend x d → d ∈ σ.acquises →
          σ.s.Reste r d ∧ (d = (σ.s.objets r).taskId ∨ σ.s.isDepSatisfied d = true) := by
        intro x d hattend hold
        have hsatisfaite := hsuite x d hattend (List.mem_append_left _ hold)
        obtain ⟨r', hget, hsatisfait⟩ := isDepSatisfied_iff.mp hsatisfaite
        change (σ.s.registerTask r deps).getTask d = some r' at hget
        simp only [suivre, appliquer, objets_registerTask] at hsatisfait
        rw [hspec.getTask d] at hget
        split at hget
        · cases hget
        · next hsort =>
            split at hget
            · next hid =>
                cases hget
                exact ⟨⟨hsort, fun _ => hsatisfait⟩, .inl hid⟩
            · next hid =>
                exact ⟨⟨hsort, fun heq => absurd heq hid⟩,
                  .inr (isDepSatisfied_iff.mpr ⟨r', hget, hsatisfait⟩)⟩
      refine ⟨fun x d hattend hx hsort hold => ?_, fun hpending d hd hold => ?_⟩
      · obtain ⟨r', hget, hattente⟩ := enAttente_iff.mp hattend.1
        have hattend' : (σ.s.registerTask r deps).Attend x d := by
          refine ⟨enAttente_iff.mpr ⟨r', ?_, by rwa [objets_registerTask]⟩, ?_⟩
          · rw [hspec.getTask, if_neg hsort, if_neg hx, hget]
          · rw [hspec.deps, if_neg hsort, if_neg hx]
            exact hattend.2
        exact (hreste hattend' hold).1
      · have hattend' : (σ.s.registerTask r deps).Attend (σ.s.objets r).taskId d := by
          refine ⟨enAttente_iff.mpr ⟨r, ?_, by rwa [objets_registerTask]⟩, ?_⟩
          · rw [hspec.getTask, if_neg hspec.reste, if_pos rfl]
          · rw [hspec.deps, if_neg hspec.reste, if_pos rfl]
            exact hd
        obtain ⟨hrest, hid | hsatisfaite⟩ := hreste hattend' hold
        · have hsatisfait := hrest.2 hid
          rw [hpending] at hsatisfait
          cases hsatisfait
        · exact ⟨hsatisfaite, hrest⟩
  | updateTask taskId status result =>
      intro r hget
      rw [suivre_updateTask hget] at hsuite
      exact hecriture hget (fun _ => rfl) hsuite
  | ecrireStatut r status =>
      rw [suivre_ecrireStatut] at hsuite
      refine ⟨fun hget => hecriture hget (fun _ => rfl) hsuite,
        fun hget hconnu hsatisfait x hattend => ?_⟩
      have htache : ∀ d, (σ.ecrit r (fun t => { t with status := status }) fun _ => rfl).s.tache d
          = σ.s.tache d := tache_ecrire_hors _ _ hget
      have hacquise : (σ.s.objets r).taskId ∈
          satisfaites (σ.s.ecrireStatut r status) σ.connus :=
        mem_satisfaites.mpr ⟨r, hconnu, by simp [ecrireStatut, hsatisfait],
          by simp [ecrireStatut]⟩
      have hattend' : (σ.ecrit r (fun t => { t with status := status })
          fun _ => rfl).s.Attend x (σ.s.objets r).taskId := by
        refine ⟨?_, hattend.2⟩
        unfold enAttente
        rw [htache]
        exact hattend.1
      have hsatisfaite := hsuite x _ hattend' (List.mem_append_right _ hacquise)
      unfold isDepSatisfied at hsatisfaite ⊢
      rwa [htache] at hsatisfaite

end Pas

section Histoires

variable {σ : Suivi} {histoire : List Appel}

theorem gardee_iff (h : Coherent σ) (hi : Intacte σ) :
    Gardee σ histoire ↔ ∀ avant, avant <+: histoire → Intacte (avant.foldl suivre σ) := by
  induction histoire generalizing σ with
  | nil =>
      refine ⟨fun _ avant havant => ?_, fun _ => trivial⟩
      rw [List.prefix_nil.mp havant]
      exact hi
  | cons a histoire ih =>
      constructor
      · rintro ⟨hg, hsuite⟩ avant havant
        cases avant with
        | nil => exact hi
        | cons a' avant =>
            obtain ⟨rfl, hprefixe⟩ := List.cons_prefix_cons.mp havant
            exact (ih (coherent_suivre h a') (intacte_suivre h hi hg)).mp hsuite avant hprefixe
      · intro htout
        have hpas : Intacte (suivre σ a) := htout [a] (List.cons_prefix_cons.mpr
          ⟨rfl, List.nil_prefix⟩)
        refine ⟨garde_of_intacte h hpas, (ih (coherent_suivre h a) hpas).mpr ?_⟩
        intro avant havant
        exact htout (a :: avant) (List.cons_prefix_cons.mpr ⟨rfl, havant⟩)

theorem coherent_foldl (h : Coherent σ) (histoire : List Appel) :
    Coherent (histoire.foldl suivre σ) := by
  induction histoire generalizing σ with
  | nil => exact h
  | cons a histoire ih => exact ih (coherent_suivre h a)

theorem coherent_nouveau (objets : Nat → TaskExecution) : Coherent { s := nouveau objets } where
  tenu := ⟨List.nodup_nil, List.nodup_nil, fun _ => Iff.rfl, Nat.zero_le _⟩
  connu _ _ h := by cases h
  acquise _ h := by cases h

theorem intacte_nouveau (objets : Nat → TaskExecution) : Intacte { s := nouveau objets } := by
  intro _ _ _ h
  cases h

/-- What a reader of the registry relies on: a pending task whose dependencies have all been
satisfied at some point is ready, and a registration keeps within the cap, keeps its own task, and
gives dependencies to the tasks that are kept, and to them alone. -/
structure RetentionFidele (σ : Suivi) : Prop where
  prete : ∀ tid, σ.s.enAttente tid = true →
    (∀ d ∈ σ.s.dependancesDe tid, d ∈ σ.acquises) → tid ∈ σ.s.getReadyTasks none
  inscrite : ∀ r deps,
    (σ.s.registerTask r deps).taches.length ≤ MAX_RETAINED_TASKS ∧
      (σ.s.registerTask r deps).getTask (σ.s.objets r).taskId = some r ∧
      ∀ tid, tid ∈ (σ.s.registerTask r deps).dependencies.keys ↔
        tid ∈ (σ.s.registerTask r deps).taches.keys

theorem retentionFidele_of_intacte (h : Coherent σ) (hi : Intacte σ) : RetentionFidele σ where
  prete tid hattente hdeps :=
    (mem_getReadyTasks h.tenu.nodup).mpr
      ⟨hattente, fun d hd => hi tid d ⟨hattente, hd⟩ (hdeps d hd)⟩
  inscrite r deps := by
    have hspec := registerTask_spec h.tenu r deps
    refine ⟨hspec.tenu.borne, ?_, hspec.tenu.memes⟩
    rw [hspec.getTask, if_neg hspec.reste, if_pos rfl]

/-- In every state of a guarded history, the retention cap makes no satisfied dependency look
unsatisfied. -/
theorem retention_fidele {objets : Nat → TaskExecution}
    (hg : Gardee { s := nouveau objets } histoire) {avant : List Appel}
    (havant : avant <+: histoire) : RetentionFidele (apres objets avant) :=
  retentionFidele_of_intacte (coherent_foldl (coherent_nouveau objets) avant)
    ((gardee_iff (coherent_nouveau objets) (intacte_nouveau objets)).mp hg avant havant)

/-- A task waits for one that is finished, and both are kept. -/
theorem retention_fidele_gardee :
    RetentionFidele (apres (fun r => { taskId := if r = 0 then "a" else "b" })
      [.registerTask 0 [], .updateTask "a" .completed none, .registerTask 1 ["a"]]) := by
  have hg : Gardee { s := nouveau fun r => { taskId := if r = 0 then "a" else "b" } }
      [.registerTask 0 [], .updateTask "a" .completed none, .registerTask 1 ["a"]] → _ :=
    fun hg => retention_fidele hg List.prefix_rfl
  refine hg ⟨⟨?_, ?_⟩, ?_, ⟨?_, ?_⟩, trivial⟩
  · rintro tid d ⟨hattente, -⟩
    cases hattente
  · intro _ d hd
    cases hd
  · intro r _
    refine ⟨fun hfalse => ?_, fun hpending => ?_⟩
    · cases hfalse
    · cases hpending
  · rintro tid d ⟨-, hd⟩ _ _ _
    change d ∈ Dict.getD [("a", [])] tid [] at hd
    rw [Dict.getD_cons, Dict.getD_nil, ite_self] at hd
    cases hd
  · intro _ d hd _
    rw [List.mem_singleton.mp hd]
    exact ⟨by decide, by decide, fun h => absurd h (by decide)⟩

end Histoires

section Perte

variable {s} {σ : Suivi} {r r' : Nat} {rs autres : List Nat}

/-- Tasks registered one after the other, without dependencies. -/
def inscriptions (rs : List Nat) : List Appel := rs.map fun r => .registerTask r []

theorem foldl_inscriptions (h : Coherent σ) (htient : σ.s.Tient rs) (hnoms : σ.s.Distinctes)
    (hnodup : (rs ++ autres).Nodup) (hplace : (rs ++ autres).length ≤ MAX_RETAINED_TASKS) :
    ((inscriptions autres).foldl suivre σ).s.Tient (rs ++ autres) ∧
      ((inscriptions autres).foldl suivre σ).s.objets = σ.s.objets ∧
      (∀ r ∈ rs, ((inscriptions autres).foldl suivre σ).s.dependancesDe (σ.s.objets r).taskId =
        σ.s.dependancesDe (σ.s.objets r).taskId) ∧
      σ.acquises ⊆ ((inscriptions autres).foldl suivre σ).acquises := by
  induction autres generalizing σ rs with
  | nil =>
      rw [List.append_nil]
      exact ⟨htient, rfl, fun _ _ => rfl, List.Subset.refl _⟩
  | cons r autres ih =>
      have hr : r ∉ rs := by
        intro hmem
        exact (List.nodup_append.mp hnodup).2.2 r hmem r List.mem_cons_self rfl
      have hlt : rs.length < MAX_RETAINED_TASKS := by
        rw [List.length_append, List.length_cons] at hplace
        omega
      have hobjets : (suivre σ (.registerTask r [])).s.objets = σ.s.objets :=
        objets_registerTask σ.s r []
      have hsuite := @ih (suivre σ (.registerTask r [])) (rs ++ [r])
        (coherent_suivre h _) (tient_registerTask htient hnoms hr hlt []) (hnoms.of_objets hobjets)
        (by simpa using hnodup) (by simpa using hplace)
      obtain ⟨htient', hobjets', hdeps', hacquises'⟩ := hsuite
      have hinscrites : (σ.s.inscrites r).length ≤ MAX_RETAINED_TASKS := by
        rw [inscrites, setLast_of_tient htient hnoms hr, List.length_map, List.length_append,
          List.length_singleton]
        omega
      rw [List.append_assoc] at htient'
      refine ⟨htient', hobjets'.trans hobjets, fun r₁ hr₁ => ?_, fun d hd => ?_⟩
      · have hne : (σ.s.objets r₁).taskId ≠ (σ.s.objets r).taskId := fun heq =>
          hr (hnoms r₁ r heq ▸ hr₁)
        have hpas := (registerTask_spec h.tenu r []).deps (σ.s.objets r₁).taskId
        rw [(registerTask_place [] hinscrites).1, if_neg (by simp), if_neg hne] at hpas
        have hfin := hdeps' r₁ (List.mem_append_left _ hr₁)
        rw [hobjets] at hfin
        exact hfin.trans hpas
      · exact hacquises' (List.mem_append_left _ hd)

theorem taskId_foldl_suivre (histoire : List Appel) (r : Nat) :
    ((histoire.foldl suivre σ).s.objets r).taskId = (σ.s.objets r).taskId := by
  induction histoire generalizing σ with
  | nil => rfl
  | cons a histoire ih =>
      rw [List.foldl_cons, ih]
      cases a with
      | registerTask r' deps =>
          change ((σ.s.registerTask r' deps).objets r).taskId = _
          rw [objets_registerTask]
      | ecrireStatut r' status =>
          exact taskId_ecrire σ.s r' (fun t => { t with status := status }) (fun _ => rfl) r
      | updateTask taskId status result =>
          change ((σ.s.updateTask taskId status result).objets r).taskId = _
          unfold updateTask
          cases σ.s.getTask taskId with
          | none => rfl
          | some r' => exact taskId_ecrire σ.s r' _ _ r

theorem sortante_tete (h : s.Tient (r' :: rs)) (hnoms : s.Distinctes) (hr : r ∉ r' :: rs)
    (hplein : (r' :: rs).length = MAX_RETAINED_TASKS)
    (hterminal : (s.objets r').status.terminal = true) :
    s.sortante r = some (s.objets r').taskId := by
  have hinscrites : s.inscrites r =
      ((r' :: rs) ++ [r]).map fun r => ((s.objets r).taskId, r) := setLast_of_tient h hnoms hr
  have hsurplus : ¬ (s.inscrites r).length ≤ MAX_RETAINED_TASKS := by
    rw [hinscrites, List.length_map, List.length_append, hplein]
    simp
  unfold sortante
  dsimp only
  rw [if_neg hsurplus, hinscrites]
  simp [EVICT_RESCUE_LIMIT, hterminal]

theorem pasPrete_of_sortante {tid d : String} (deps : List String) (h : s.Tenu)
    (hattend : s.Attend tid d) (hsort : s.sortante r = some d) (hne : tid ≠ d)
    (hautre : tid ≠ (s.objets r).taskId) :
    (s.registerTask r deps).enAttente tid = true ∧
      (s.registerTask r deps).dependancesDe tid = s.dependancesDe tid ∧
      tid ∉ (s.registerTask r deps).getReadyTasks none := by
  have hspec := registerTask_spec h r deps
  have hreste : s.sortante r ≠ some tid := by
    rw [hsort]
    exact fun heq => hne (Option.some.inj heq).symm
  have hdeps : (s.registerTask r deps).dependancesDe tid = s.dependancesDe tid := by
    rw [hspec.deps, if_neg hreste, if_neg hautre]
  refine ⟨?_, hdeps, fun hprete => ?_⟩
  · obtain ⟨r', hget, hpending⟩ := enAttente_iff.mp hattend.1
    rw [enAttente_iff]
    refine ⟨r', ?_, by rwa [objets_registerTask]⟩
    rw [hspec.getTask, if_neg hreste, if_neg hautre, hget]
  · obtain ⟨-, hsatisfaites⟩ := (mem_getReadyTasks hspec.tenu.nodup).mp hprete
    rw [hdeps] at hsatisfaites
    obtain ⟨r', hget, -⟩ := isDepSatisfied_iff.mp (hsatisfaites d hattend.2)
    rw [hspec.getTask, if_pos hsort] at hget
    cases hget

/-- The tasks `a`, `aa`, `aaa` and so on. -/
def file (r : Nat) : TaskExecution := { taskId := String.ofList (List.replicate (r + 1) 'a') }

theorem taskId_file_injective (r₁ r₂ : Nat) (h : (file r₁).taskId = (file r₂).taskId) :
    r₁ = r₂ := by
  have hlongueur := congrArg String.length h
  simpa [file] using hlongueur

/-- `aa` waits for `a`, which is finished. -/
def debut : List Appel :=
  [.registerTask 0 [], .updateTask (file 0).taskId .completed none,
    .registerTask 1 [(file 0).taskId]]

/-- Tasks are registered until the cap is reached, and one more. -/
def encombrement : List Appel := debut ++ inscriptions (List.range' 2 510) ++ [.registerTask 512 []]

/-- `aa` is pending, its only dependency has been completed, and it is not ready. -/
theorem encombrement_perd :
    (apres file encombrement).s.enAttente (file 1).taskId = true ∧
      (apres file encombrement).s.dependancesDe (file 1).taskId = [(file 0).taskId] ∧
      (file 0).taskId ∈ (apres file encombrement).acquises ∧
      (file 1).taskId ∉ (apres file encombrement).s.getReadyTasks none ∧
      ¬ RetentionFidele (apres file encombrement) := by
  obtain ⟨σ, hσ⟩ : ∃ σ, σ = apres file debut := ⟨_, rfl⟩
  have hnom : ∀ r, (σ.s.objets r).taskId = (file r).taskId := by
    intro r
    rw [hσ]
    exact taskId_foldl_suivre debut r
  have hnoms : σ.s.Distinctes := by
    intro r₁ r₂ heq
    rw [hnom, hnom] at heq
    exact taskId_file_injective r₁ r₂ heq
  have hcoherent : Coherent σ := hσ ▸ coherent_foldl (coherent_nouveau file) debut
  have hdebut : σ.s.Tient [0, 1] ∧ (σ.s.objets 0).status = .completed ∧
      (σ.s.objets 1).status = .pending ∧
      σ.s.dependancesDe (file 1).taskId = [(file 0).taskId] ∧ (file 0).taskId ∈ σ.acquises := by
    rw [hσ]
    exact ⟨rfl, rfl, rfl, rfl, by decide⟩
  obtain ⟨htient, hfinie, hpending, hdeps, hacquise⟩ := hdebut
  -- the registry fills up, the finished task the oldest
  obtain ⟨τ, hτ⟩ : ∃ τ, τ = (inscriptions (List.range' 2 510)).foldl suivre σ := ⟨_, rfl⟩
  have hplein : τ.s.Tient (0 :: 1 :: List.range' 2 510) ∧ τ.s.objets = σ.s.objets ∧
      (∀ r ∈ [0, 1], τ.s.dependancesDe (σ.s.objets r).taskId =
        σ.s.dependancesDe (σ.s.objets r).taskId) ∧ σ.acquises ⊆ τ.acquises := by
    rw [hτ]
    exact foldl_inscriptions hcoherent htient hnoms (List.nodup_range' (s := 0) (n := 512))
      (by simp [MAX_RETAINED_TASKS])
  obtain ⟨htient', hobjets, hdeps', hacquises⟩ := hplein
  have hcoherent' : Coherent τ := hτ ▸ coherent_foldl hcoherent _
  have hsortante : τ.s.sortante 512 = some (file 0).taskId := by
    rw [← hnom 0, ← hobjets]
    refine sortante_tete htient' (hnoms.of_objets hobjets) (by simp)
      (by simp [MAX_RETAINED_TASKS]) ?_
    rw [hobjets, hfinie]
    rfl
  have hattente : τ.s.enAttente (file 1).taskId = true := by
    rw [enAttente_iff]
    refine ⟨1, Dict.get?_of_mem hcoherent'.tenu.nodup ?_, by rw [hobjets, hpending]⟩
    rw [htient', ← hnom 1, hobjets]
    simp
  have hdependances : τ.s.dependancesDe (file 1).taskId = [(file 0).taskId] := by
    rw [← hdeps, ← hnom 1]
    exact hdeps' 1 (by simp)
  have hautre : (file 1).taskId ≠ (τ.s.objets 512).taskId := by
    rw [hobjets, hnom]
    intro heq
    cases taskId_file_injective 1 512 heq
  obtain ⟨hattente', hdependances', hpasPrete⟩ := pasPrete_of_sortante []
    hcoherent'.tenu ⟨hattente, by simp [hdependances]⟩ hsortante (by decide) hautre
  rw [hdependances] at hdependances'
  have hacquise' : (file 0).taskId ∈ (suivre τ (.registerTask 512 [])).acquises :=
    List.mem_append_left _ (hacquises hacquise)
  have hfin : apres file encombrement = suivre τ (.registerTask 512 []) := by
    rw [hτ, hσ, apres, encombrement, List.foldl_append, List.foldl_append]
    rfl
  rw [hfin]
  refine ⟨hattente', hdependances', hacquise', hpasPrete, fun hfidele => hpasPrete ?_⟩
  refine hfidele.prete _ hattente' fun d hd => ?_
  change d ∈ (τ.s.registerTask 512 []).dependancesDe _ at hd
  rw [hdependances', List.mem_singleton] at hd
  rwa [hd]

end Perte

end Hermes.Execution.TaskScheduler
