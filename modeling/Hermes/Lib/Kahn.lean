import Mathlib.Data.List.Perm.Subperm
import Mathlib.Data.List.Nodup
import Mathlib.Data.Fintype.Sets
import Mathlib.Logic.Relation
import Mathlib.Order.WellFounded
import Mathlib.Data.Fintype.EquivFin
import Hermes.Lib.Dict

/-! # Kahn's algorithm over a list of edges

The loop keeps a dictionary of in-degrees, a queue of the vertices whose in-degree fell to zero
and the vertices already taken out.
-/

namespace Hermes.Lib.Kahn

variable {α : Type*} [DecidableEq α]

/-- The inner loop: every successor loses one degree and is queued when it
reaches zero. -/
def relax (degrees : Dict α Int) (queue : List α) : List α → Dict α Int × List α
  | [] => (degrees, queue)
  | v :: vs =>
      let degree := degrees.getD v 0 - 1
      relax (degrees.set v degree) (if degree = 0 then queue ++ [v] else queue) vs

def kahn (adjacent : α → List α) : Nat → Dict α Int → List α → List α → List α
  | 0, _, _, order => order
  | _ + 1, _, [], order => order
  | fuel + 1, degrees, u :: queue, order =>
      let next := relax degrees queue (adjacent u)
      kahn adjacent fuel next.1 next.2 (order ++ [u])

def successors (edges : List (α × α)) (u : α) : List α :=
  (edges.filter fun e => e.1 = u).map Prod.snd

/-- The number of edges into `v` whose source has not been taken out. -/
def need (edges : List (α × α)) (order : List α) (v : α) : Nat :=
  edges.countP fun e => e.2 = v ∧ e.1 ∉ order

theorem mem_successors {edges : List (α × α)} {u v : α} :
    v ∈ successors edges u ↔ (u, v) ∈ edges := by
  simp only [successors, List.mem_map, List.mem_filter, decide_eq_true_eq]
  constructor
  · rintro ⟨⟨source, target⟩, ⟨hmem, rfl⟩, rfl⟩
    exact hmem
  · intro hmem
    exact ⟨(u, v), ⟨hmem, rfl⟩, rfl⟩

theorem need_cons (e : α × α) (edges : List (α × α)) (order : List α) (v : α) :
    need (e :: edges) order v = need edges order v + if e.2 = v ∧ e.1 ∉ order then 1 else 0 := by
  simp [need, List.countP_cons]

private theorem count_successors_cons (e : α × α) (edges : List (α × α)) (u v : α) :
    (successors (e :: edges) u).count v
      = (successors edges u).count v + if e.2 = v ∧ e.1 = u then 1 else 0 := by
  by_cases hu : e.1 = u
  · simp [successors, hu, List.count_cons]
  · simp [successors, hu]

theorem need_append (edges : List (α × α)) {order : List α} {u : α} (hu : u ∉ order) (v : α) :
    need edges (order ++ [u]) v + (successors edges u).count v = need edges order v := by
  induction edges with
  | nil => rfl
  | cons e edges ih =>
      have hsplit : (if e.2 = v ∧ e.1 ∉ order ++ [u] then 1 else 0)
          + (if e.2 = v ∧ e.1 = u then 1 else 0) = if e.2 = v ∧ e.1 ∉ order then 1 else 0 := by
        by_cases hsource : e.1 = u
        · simp [hsource, hu]
        · simp [hsource]
      rw [need_cons, need_cons, count_successors_cons]
      omega

theorem need_eq_zero {edges : List (α × α)} {order : List α} {v : α} :
    need edges order v = 0 ↔ ∀ u, (u, v) ∈ edges → u ∈ order := by
  simp only [need, List.countP_eq_zero, decide_eq_true_eq, not_and, not_not]
  constructor
  · intro h u hmem
    exact h (u, v) hmem rfl
  · rintro h ⟨source, target⟩ hmem rfl
    exact h source hmem

theorem relax_spec {pending : α → Nat} {degrees : Dict α Int} (queue : List α) {vs : List α}
    (h : ∀ v, degrees.getD v 0 = pending v + vs.count v) :
    (∀ v, (relax degrees queue vs).1.getD v 0 = pending v) ∧
      ∃ fresh, (relax degrees queue vs).2 = queue ++ fresh ∧ fresh.Nodup ∧
        ∀ v, v ∈ fresh ↔ v ∈ vs ∧ pending v = 0 := by
  induction vs generalizing degrees queue with
  | nil =>
      refine ⟨fun v => by simpa [relax] using h v, [], ?_, List.nodup_nil, by simp⟩
      simp [relax]
  | cons w vs ih =>
      have hw := h w
      rw [List.count_cons_self] at hw
      have hnext : ∀ v, (degrees.set w (degrees.getD w 0 - 1)).getD v 0
          = pending v + vs.count v := by
        intro v
        rw [Dict.getD_set]
        by_cases hv : v = w
        · subst hv
          simp only [if_true]
          omega
        · have hcount : (w :: vs).count v = vs.count v :=
            List.count_cons_of_ne (Ne.symm hv)
          rw [if_neg hv, h v, hcount]
      simp only [relax]
      by_cases hzero : degrees.getD w 0 - 1 = 0
      · have hpending : pending w = 0 := by omega
        have hfresh : w ∉ vs := by
          rw [← List.count_eq_zero]
          omega
        rw [if_pos hzero]
        obtain ⟨hdegrees, fresh, hqueue, hnodup, hmem⟩ := ih (queue ++ [w]) hnext
        refine ⟨hdegrees, w :: fresh, ?_, ?_, ?_⟩
        · rw [hqueue, List.append_assoc, List.singleton_append]
        · exact List.nodup_cons.mpr ⟨fun hmem' => hfresh ((hmem w).mp hmem').1, hnodup⟩
        · intro v
          rw [List.mem_cons, List.mem_cons, hmem]
          constructor
          · rintro (rfl | ⟨hv, hp⟩)
            · exact ⟨Or.inl rfl, hpending⟩
            · exact ⟨Or.inr hv, hp⟩
          · rintro ⟨rfl | hv, hp⟩
            · exact Or.inl rfl
            · exact Or.inr ⟨hv, hp⟩
      · rw [if_neg hzero]
        obtain ⟨hdegrees, fresh, hqueue, hnodup, hmem⟩ := ih queue hnext
        refine ⟨hdegrees, fresh, hqueue, hnodup, ?_⟩
        intro v
        rw [hmem, List.mem_cons]
        constructor
        · rintro ⟨hv, hp⟩
          exact ⟨Or.inr hv, hp⟩
        · rintro ⟨rfl | hv, hp⟩
          · have hagain : 0 < vs.count v := by omega
            exact ⟨List.count_pos_iff.mp hagain, hp⟩
          · exact ⟨hv, hp⟩

/-- What holds between two turns of the outer loop. -/
structure Inv (edges : List (α × α)) (degrees : Dict α Int) (queue order : List α) : Prop where
  nodup : (order ++ queue).Nodup
  degree : ∀ v, degrees.getD v 0 = need edges order v
  ready : ∀ v ∈ order ++ queue, need edges order v = 0
  sorted : ∀ e ∈ edges, e.2 ∈ order → order.idxOf e.1 < order.idxOf e.2

variable {edges : List (α × α)} {degrees : Dict α Int} {queue order : List α} {u : α}

omit [DecidableEq α] in
private theorem notMem_of_nodup_append_cons (h : (order ++ u :: queue).Nodup) :
    u ∉ order ∧ u ∉ queue := by
  have hu := (List.nodup_middle.mp h).notMem
  simpa using hu

theorem Inv.step (h : Inv edges degrees (u :: queue) order) :
    Inv edges (relax degrees queue (successors edges u)).1
        (relax degrees queue (successors edges u)).2 (order ++ [u]) ∧
      ∀ v ∈ (relax degrees queue (successors edges u)).2, v ∈ queue ∨ (u, v) ∈ edges := by
  obtain ⟨huOrder, huQueue⟩ := notMem_of_nodup_append_cons h.nodup
  have hcount : ∀ v, degrees.getD v 0
      = need edges (order ++ [u]) v + (successors edges u).count v := by
    intro v
    rw [h.degree v, ← need_append edges huOrder v]
    exact Int.natCast_add _ _
  obtain ⟨hdegrees, fresh, hqueue, hfreshNodup, hfresh⟩ := relax_spec queue hcount
  have hpreds : ∀ v, need edges order v = 0 → need edges (order ++ [u]) v = 0 := by
    intro v hv
    have := need_append edges huOrder v
    omega
  have hnew : ∀ v ∈ fresh, v ∉ order ++ u :: queue := by
    intro v hv hold
    have hedge := mem_successors.mp ((hfresh v).mp hv).1
    exact huOrder (need_eq_zero.mp (h.ready v hold) u hedge)
  have hsame : order ++ [u] ++ (queue ++ fresh) = order ++ u :: queue ++ fresh := by simp
  refine ⟨⟨?_, hdegrees, ?_, ?_⟩, ?_⟩
  · rw [hqueue, hsame]
    exact List.nodup_append.mpr
      ⟨h.nodup, hfreshNodup, fun a ha b hb hab => hnew b hb (hab ▸ ha)⟩
  · rw [hqueue, hsame]
    intro v hv
    rcases List.mem_append.mp hv with hv | hv
    · exact hpreds v (h.ready v hv)
    · exact ((hfresh v).mp hv).2
  · rintro ⟨source, target⟩ he htarget
    rcases List.mem_append.mp htarget with htarget | htarget
    · have hlt := h.sorted _ he htarget
      have hsource : source ∈ order :=
        need_eq_zero.mp (h.ready target (List.mem_append_left _ htarget)) source he
      rw [List.idxOf_append_of_mem hsource, List.idxOf_append_of_mem htarget]
      exact hlt
    · have hu : target = u := List.mem_singleton.mp htarget
      subst hu
      have hsource : source ∈ order := need_eq_zero.mp (h.ready target (by simp)) source he
      have hbound := List.idxOf_lt_length_of_mem hsource
      rw [List.idxOf_append_of_mem hsource, List.idxOf_append_of_notMem huOrder]
      simpa using hbound
  · rw [hqueue]
    intro v hv
    rcases List.mem_append.mp hv with hv | hv
    · exact Or.inl hv
    · exact Or.inr (mem_successors.mp ((hfresh v).mp hv).1)

theorem kahn_inv {adjacent : α → List α} (hadj : ∀ u, adjacent u = successors edges u)
    (fuel : Nat) (h : Inv edges degrees queue order) :
    ∃ degrees' queue', Inv edges degrees' queue' (kahn adjacent fuel degrees queue order) := by
  induction fuel generalizing degrees queue order with
  | zero => exact ⟨degrees, queue, h⟩
  | succ fuel ih =>
      cases queue with
      | nil => exact ⟨degrees, [], h⟩
      | cons u queue =>
          simp only [kahn, hadj]
          exact ih h.step.1

theorem kahn_subset {adjacent : α → List α} (hadj : ∀ u, adjacent u = successors edges u)
    {vertices : List α} (htargets : ∀ e ∈ edges, e.2 ∈ vertices) (fuel : Nat)
    (h : Inv edges degrees queue order) (hvertices : ∀ v ∈ order ++ queue, v ∈ vertices) :
    ∀ v ∈ kahn adjacent fuel degrees queue order, v ∈ vertices := by
  induction fuel generalizing degrees queue order with
  | zero => exact fun v hv => hvertices v (List.mem_append_left _ hv)
  | succ fuel ih =>
      cases queue with
      | nil => exact fun v hv => hvertices v (List.mem_append_left _ hv)
      | cons u queue =>
          simp only [kahn, hadj]
          refine ih h.step.1 fun v hv => ?_
          rcases List.mem_append.mp hv with hv | hv
          · exact hvertices v (by simp only [List.mem_append, List.mem_cons] at hv ⊢; tauto)
          · rcases h.step.2 v hv with hv | he
            · exact hvertices v (by simp [hv])
            · exact htargets _ he

theorem linearisation_of_length {vertices : List α}
    (htargets : ∀ e ∈ edges, e.2 ∈ vertices) (h : Inv edges degrees queue order)
    (hsubset : ∀ v ∈ order, v ∈ vertices) (hlength : order.length = vertices.length) :
    vertices.Nodup ∧ ∀ e ∈ edges, order.idxOf e.1 < order.idxOf e.2 := by
  have horder : order.Nodup := (List.nodup_append.mp h.nodup).1
  have hperm : order.Perm vertices :=
    (List.subperm_of_subset horder hsubset).perm_of_length_le (Nat.le_of_eq hlength.symm)
  refine ⟨hperm.nodup_iff.mp horder, fun e he => ?_⟩
  exact h.sorted e he (hperm.mem_iff.mpr (htargets e he))

def inDegree (vertices : List α) (edges : List (α × α)) : Dict α Int :=
  edges.foldl (fun d e => d.set e.2 (d.getD e.2 0 + 1)) (vertices.map fun v => (v, 0))

def adjacency (vertices : List α) (edges : List (α × α)) : Dict α (List α) :=
  edges.foldl (fun d e => d.set e.1 (d.getD e.1 [] ++ [e.2])) (vertices.map fun v => (v, []))

def sources (degrees : Dict α Int) : List α := (degrees.filter fun item => item.2 = 0).map Prod.fst

def internes (vertices : List α) (edges : List (α × α)) : List (α × α) :=
  edges.filter fun e => e.1 ∈ vertices ∧ e.2 ∈ vertices

def visiter (vertices : List α) (edges : List (α × α)) : List α :=
  let arcs := internes vertices edges
  let degrees := inDegree vertices arcs
  kahn (fun u => (adjacency vertices arcs).getD u []) vertices.length degrees (sources degrees) []

/-- The vertices left with a degree when those taken out have been relaxed. -/
def restants (vertices : List α) (edges : List (α × α)) : List α :=
  let arcs := internes vertices edges
  let degrees := (visiter vertices edges).foldl
    (fun d u => (relax d [] ((adjacency vertices arcs).getD u [])).1) (inDegree vertices arcs)
  (degrees.filter fun item => 0 < item.2).map Prod.fst

def Acyclique (edges : List (α × α)) : Prop :=
  ∀ v, ¬ Relation.TransGen (fun a b => (a, b) ∈ edges) v v

omit [DecidableEq α] in
theorem Acyclique.mono {edges edges' : List (α × α)} (h : Acyclique edges')
    (hsub : ∀ e ∈ edges, e ∈ edges') : Acyclique edges :=
  fun v hcycle => h v (Relation.TransGen.mono (fun _ _ he => hsub _ he) _ _ hcycle)

omit [DecidableEq α] in
theorem transGen_concat {edges : List (α × α)} {s t a b : α}
    (h : Relation.TransGen (fun a b => (a, b) ∈ edges ++ [(s, t)]) a b) :
    Relation.TransGen (fun a b => (a, b) ∈ edges) a b ∨
      (Relation.ReflTransGen (fun a b => (a, b) ∈ edges) a s ∧
        Relation.ReflTransGen (fun a b => (a, b) ∈ edges) t b) := by
  have harc : ∀ {a b : α}, (a, b) ∈ edges ++ [(s, t)] → (a, b) ∈ edges ∨ (a = s ∧ b = t) := by
    intro a b hab
    simpa using hab
  induction h with
  | single hab =>
      rcases harc hab with hab | ⟨rfl, rfl⟩
      · exact .inl (.single hab)
      · exact .inr ⟨.refl, .refl⟩
  | tail _ hbc ih =>
      rcases harc hbc with hbc | ⟨rfl, rfl⟩
      · exact ih.imp (fun h => h.tail hbc) fun h => ⟨h.1, h.2.tail hbc⟩
      · exact .inr ⟨ih.elim (fun h => h.to_reflTransGen) fun h => h.1, .refl⟩

omit [DecidableEq α] in
theorem acyclique_concat_iff {edges : List (α × α)} (h : Acyclique edges) (s t : α) :
    Acyclique (edges ++ [(s, t)]) ↔
      ¬ Relation.ReflTransGen (fun a b => (a, b) ∈ edges) t s := by
  constructor
  · intro hacyclique hretour
    have hlarge : Relation.ReflTransGen (fun a b => (a, b) ∈ edges ++ [(s, t)]) t s :=
      Relation.ReflTransGen.mono (fun _ _ hab => List.mem_append_left _ hab) _ _ hretour
    exact hacyclique t (Relation.TransGen.tail' hlarge (by simp))
  · intro hretour v hcycle
    rcases transGen_concat hcycle with hcycle | ⟨hs, ht⟩
    · exact h v hcycle
    · exact hretour (ht.trans hs)

omit [DecidableEq α] in
theorem acyclique_of_rang {edges : List (α × α)} (rang : α → Nat)
    (h : ∀ e ∈ edges, rang e.1 < rang e.2) : Acyclique edges := by
  have hlt : ∀ {a b : α}, Relation.TransGen (fun a b => (a, b) ∈ edges) a b → rang a < rang b := by
    intro a b hab
    induction hab with
    | single he => exact h _ he
    | tail _ he ih => exact ih.trans (h _ he)
  intro v hcycle
  exact lt_irrefl _ (hlt hcycle)

section Visite

variable {vertices : List α}

omit [DecidableEq α] in
theorem keys_map (vertices : List α) {β : Type*} (b : β) :
    Dict.keys (vertices.map fun v => (v, b)) = vertices := by
  simp [Dict.keys, Function.comp_def]

theorem getD_map (vertices : List α) {β : Type*} (b : β) (v : α) :
    Dict.getD (vertices.map fun v => (v, b)) v b = b := by
  induction vertices with
  | nil => rfl
  | cons w vertices ih =>
      rw [List.map_cons, Dict.getD, Dict.get?_cons]
      split
      · rfl
      · exact ih

theorem foldl_adjacency_getD (edges : List (α × α)) (d : Dict α (List α)) (u : α) :
    (edges.foldl (fun d e => d.set e.1 (d.getD e.1 [] ++ [e.2])) d).getD u [] =
      d.getD u [] ++ successors edges u := by
  induction edges generalizing d with
  | nil => simp [successors]
  | cons e edges ih =>
      rw [List.foldl_cons, ih, Dict.getD_set]
      by_cases hu : u = e.1
      · subst hu
        simp [successors]
      · have hne : e.1 ≠ u := Ne.symm hu
        simp [successors, hu, hne]

theorem adjacency_getD (vertices : List α) (edges : List (α × α)) (u : α) :
    (adjacency vertices edges).getD u [] = successors edges u := by
  rw [adjacency, foldl_adjacency_getD, getD_map, List.nil_append]

theorem inDegree_getD (vertices : List α) (edges : List (α × α)) (v : α) :
    (inDegree vertices edges).getD v 0 = need edges [] v := by
  have hfold : ∀ d : Dict α Int,
      (edges.foldl (fun d e => d.set e.2 (d.getD e.2 0 + 1)) d).getD v 0
        = d.getD v 0 + need edges [] v := by
    induction edges with
    | nil => simp [need]
    | cons e edges ih =>
        intro d
        rw [List.foldl_cons, ih, need_cons, Dict.getD_set]
        by_cases hv : v = e.2
        · subst hv
          simp only [if_true, List.not_mem_nil, not_false_eq_true, and_self]
          omega
        · have hne : e.2 ≠ v := Ne.symm hv
          simp [hv, hne]
  rw [inDegree, hfold, getD_map]
  omega

theorem inDegree_keys (hnodup : vertices.Nodup) (htargets : ∀ e ∈ edges, e.2 ∈ vertices) :
    (inDegree vertices edges).keys.Nodup ∧ ∀ v, v ∈ (inDegree vertices edges).keys ↔ v ∈ vertices := by
  have hfold : ∀ d : Dict α Int, d.keys.Nodup → (∀ v, v ∈ d.keys ↔ v ∈ vertices) →
      (edges.foldl (fun d e => d.set e.2 (d.getD e.2 0 + 1)) d).keys.Nodup ∧
        ∀ v, v ∈ (edges.foldl (fun d e => d.set e.2 (d.getD e.2 0 + 1)) d).keys ↔ v ∈ vertices := by
    induction edges with
    | nil => exact fun d hd hmem => ⟨hd, hmem⟩
    | cons e edges ih =>
        intro d hd hmem
        refine ih (fun e' he' => htargets e' (List.mem_cons_of_mem _ he')) _
          (Dict.nodup_keys_set hd _ _) ?_
        intro v
        rw [Dict.keys_set, hmem]
        constructor
        · intro h
          cases h with
          | inl h => exact h ▸ htargets e List.mem_cons_self
          | inr h => exact h
        · exact .inr
  apply hfold
  · rwa [keys_map]
  · intro v
    rw [keys_map]

theorem mem_sources {degrees : Dict α Int} (h : degrees.keys.Nodup) {v : α} :
    v ∈ sources degrees ↔ v ∈ degrees.keys ∧ degrees.getD v 0 = 0 := by
  rw [sources, List.mem_map]
  constructor
  · intro hv
    cases hv with
    | intro item hitem =>
        have hmem := List.mem_filter.mp hitem.1
        rw [← hitem.2]
        refine ⟨List.mem_map.mpr ⟨item, hmem.1, rfl⟩, ?_⟩
        rw [Dict.getD, Dict.get?_of_mem h hmem.1, Option.getD_some]
        exact of_decide_eq_true hmem.2
  · intro hv
    cases hread : degrees.get? v with
    | none =>
        have hsome := Dict.isSome_get?.mpr hv.1
        rw [hread] at hsome
        cases hsome
    | some degree =>
        have hzero := hv.2
        rw [Dict.getD, hread, Option.getD_some] at hzero
        refine ⟨(v, degree), ?_, rfl⟩
        rw [List.mem_filter]
        exact ⟨Dict.mem_of_get? hread, by simpa using hzero⟩

theorem Inv.depart {degrees : Dict α Int} (hkeys : degrees.keys.Nodup)
    (hdegrees : ∀ v, degrees.getD v 0 = need edges [] v) : Inv edges degrees (sources degrees) [] where
  nodup := by
    rw [List.nil_append]
    exact (List.filter_sublist.map Prod.fst).nodup hkeys
  degree := hdegrees
  ready := by
    intro v hv
    have hzero := ((mem_sources hkeys).mp (by simpa using hv)).2
    rw [hdegrees] at hzero
    exact_mod_cast hzero
  sorted := by
    intro e _ he
    cases he

theorem Inv.complet_step (h : Inv edges degrees (u :: queue) order)
    (hcomplet : ∀ v ∈ vertices, need edges order v = 0 → v ∈ order ++ u :: queue) :
    ∀ v ∈ vertices, need edges (order ++ [u]) v = 0 →
      v ∈ (order ++ [u]) ++ (relax degrees queue (successors edges u)).2 := by
  have hu := (notMem_of_nodup_append_cons h.nodup).1
  have hcount : ∀ v, degrees.getD v 0
      = need edges (order ++ [u]) v + (successors edges u).count v := by
    intro v
    rw [h.degree v, ← need_append edges hu v]
    exact Int.natCast_add _ _
  obtain ⟨-, fresh, hqueue, -, hfresh⟩ := relax_spec queue hcount
  intro v hv hzero
  rw [hqueue]
  by_cases hold : need edges order v = 0
  · have hmem := hcomplet v hv hold
    simp only [List.mem_append, List.mem_cons, List.not_mem_nil, or_false] at hmem ⊢
    tauto
  · have hsum := need_append edges hu v
    have hsuccessor : v ∈ successors edges u := List.count_pos_iff.mp (by omega)
    have hmem : v ∈ fresh := (hfresh v).mpr ⟨hsuccessor, hzero⟩
    simp [hmem]

theorem kahn_complet {adjacent : α → List α} (hadj : ∀ u, adjacent u = successors edges u)
    (htargets : ∀ e ∈ edges, e.2 ∈ vertices) {fuel : Nat}
    (h : Inv edges degrees queue order) (hvertices : ∀ v ∈ order ++ queue, v ∈ vertices)
    (hcomplet : ∀ v ∈ vertices, need edges order v = 0 → v ∈ order ++ queue)
    (hfuel : vertices.length ≤ order.length + fuel) :
    ∀ v ∈ vertices, need edges (kahn adjacent fuel degrees queue order) v = 0 →
      v ∈ kahn adjacent fuel degrees queue order := by
  induction fuel generalizing degrees queue order with
  | zero =>
      have hbound := (List.subperm_of_subset h.nodup hvertices).length_le
      have hempty : queue = [] := by
        rw [List.length_append] at hbound
        exact List.length_eq_zero_iff.mp (by omega)
      simpa [kahn, hempty] using hcomplet
  | succ fuel ih =>
      cases queue with
      | nil => simpa [kahn] using hcomplet
      | cons u queue =>
          simp only [kahn, hadj]
          refine ih h.step.1 ?_ (h.complet_step hcomplet) ?_
          · intro v hv
            cases List.mem_append.mp hv with
            | inl hv =>
                apply hvertices v
                simp only [List.mem_append, List.mem_cons, List.not_mem_nil, or_false] at hv ⊢
                tauto
            | inr hv =>
                cases h.step.2 v hv with
                | inl hv => exact hvertices v (by simp [hv])
                | inr he => exact htargets _ he
          · simp only [List.length_append, List.length_singleton]
            omega

theorem eq_nil_of_predecesseurs (hacyclique : Acyclique edges) {restes : List α}
    (hpred : ∀ v ∈ restes, ∃ u ∈ restes, (u, v) ∈ edges) : restes = [] := by
  by_contra hne
  let r : {v // v ∈ restes} → {v // v ∈ restes} → Prop :=
    fun a b => Relation.TransGen (fun a b => (a, b) ∈ edges) a.1 b.1
  have hirrefl : Std.Irrefl r := ⟨fun a => hacyclique a.1⟩
  have htrans : IsTrans _ r := ⟨fun _ _ _ => Relation.TransGen.trans⟩
  have hwf : WellFounded r := Finite.wellFounded_of_trans_of_irrefl r
  cases List.exists_mem_of_ne_nil _ hne with
  | intro v hv =>
      obtain ⟨m, -, hmin⟩ := hwf.has_min Set.univ ⟨⟨v, hv⟩, trivial⟩
      obtain ⟨u, hu, hedge⟩ := hpred m.1 m.2
      exact hmin ⟨u, hu⟩ trivial (.single hedge)

theorem eq_nil_of_successeurs (hacyclique : Acyclique edges) {restes : List α}
    (hsucc : ∀ u ∈ restes, ∃ v ∈ restes, (u, v) ∈ edges) : restes = [] := by
  have hretourne : ∀ a b : α, (a, b) ∈ edges.map Prod.swap ↔ (b, a) ∈ edges := by simp
  have hrenverse : Acyclique (edges.map Prod.swap) := by
    intro v hcycle
    simp only [hretourne] at hcycle
    exact hacyclique v (Relation.transGen_swap.mp hcycle)
  refine eq_nil_of_predecesseurs hrenverse fun u hu => ?_
  obtain ⟨v, hv, hedge⟩ := hsucc u hu
  exact ⟨v, hv, (hretourne v u).mpr hedge⟩

theorem kahn_ordre {adjacent : α → List α} (hadj : ∀ u, adjacent u = successors edges u)
    (hnodup : vertices.Nodup) (hends : ∀ e ∈ edges, e.1 ∈ vertices ∧ e.2 ∈ vertices)
    (hacyclique : Acyclique edges) (hkeys : degrees.keys.Nodup)
    (hmem : ∀ v, v ∈ degrees.keys ↔ v ∈ vertices) (hdegrees : ∀ v, degrees.getD v 0 = need edges [] v)
    {fuel : Nat} (hfuel : vertices.length ≤ fuel) :
    (kahn adjacent fuel degrees (sources degrees) []).Perm vertices ∧
      ∀ e ∈ edges, (kahn adjacent fuel degrees (sources degrees) []).idxOf e.1 <
        (kahn adjacent fuel degrees (sources degrees) []).idxOf e.2 := by
  have htargets : ∀ e ∈ edges, e.2 ∈ vertices := fun e he => (hends e he).2
  have hdepart := Inv.depart hkeys hdegrees
  have hsources : ∀ v, v ∈ sources degrees ↔ v ∈ vertices ∧ need edges [] v = 0 := by
    intro v
    rw [mem_sources hkeys, hmem, hdegrees]
    norm_cast
  have hqueue : ∀ v ∈ [] ++ sources degrees, v ∈ vertices := fun v hv => ((hsources v).mp hv).1
  have hcomplet := kahn_complet hadj htargets hdepart hqueue
    (fun v hv hzero => (hsources v).mpr ⟨hv, hzero⟩) (hfuel.trans (Nat.le_add_left _ _))
  have hsubset := kahn_subset hadj htargets fuel hdepart hqueue
  obtain ⟨degrees', queue', hend⟩ := kahn_inv hadj fuel hdepart
  revert hcomplet hsubset hend
  generalize kahn adjacent fuel degrees (sources degrees) [] = ordre
  intro hcomplet hsubset hend
  have hrestes : vertices.filter (fun v => v ∉ ordre) = [] := by
    apply eq_nil_of_predecesseurs hacyclique
    intro v hv
    have hreste := List.mem_filter.mp hv
    have hneed : need edges ordre v ≠ 0 :=
      fun hzero => of_decide_eq_true hreste.2 (hcomplet v hreste.1 hzero)
    rw [ne_eq, need_eq_zero] at hneed
    push Not at hneed
    obtain ⟨u, hedge, hu⟩ := hneed
    exact ⟨u, List.mem_filter.mpr ⟨(hends _ hedge).1, by simpa using hu⟩, hedge⟩
  have hall : ∀ v ∈ vertices, v ∈ ordre := by
    intro v hv
    by_contra hnot
    have hreste : v ∈ vertices.filter (fun v => v ∉ ordre) :=
      List.mem_filter.mpr ⟨hv, by simpa using hnot⟩
    rw [hrestes] at hreste
    cases hreste
  have hpris : ordre.Nodup := (List.nodup_append.mp hend.nodup).1
  have hperm : ordre.Perm vertices :=
    (List.perm_ext_iff_of_nodup hpris hnodup).mpr fun v => ⟨hsubset v, hall v⟩
  exact ⟨hperm, fun e he => hend.sorted e he (hall _ (htargets e he))⟩

theorem internes_targets (vertices : List α) (edges : List (α × α)) :
    ∀ e ∈ internes vertices edges, e.2 ∈ vertices := by
  intro e he
  have hends := (List.mem_filter.mp he).2
  simp only [decide_eq_true_eq] at hends
  exact hends.2

theorem mem_internes {e : α × α} :
    e ∈ internes vertices edges ↔ e ∈ edges ∧ e.1 ∈ vertices ∧ e.2 ∈ vertices := by
  simp [internes]

theorem internes_eq_self (h : ∀ e ∈ edges, e.1 ∈ vertices ∧ e.2 ∈ vertices) :
    internes vertices edges = edges := by
  rw [internes, List.filter_eq_self]
  intro e he
  simpa using h e he

theorem length_visiter_iff (hnodup : vertices.Nodup) (edges : List (α × α)) :
    (visiter vertices edges).length = vertices.length ↔ Acyclique (internes vertices edges) := by
  have hadj := adjacency_getD vertices (internes vertices edges)
  have htargets := internes_targets vertices edges
  have hkeys := inDegree_keys hnodup htargets
  have hdegrees := inDegree_getD vertices (internes vertices edges)
  constructor
  · intro hlength
    have hdepart := Inv.depart hkeys.1 hdegrees
    obtain ⟨degrees, queue, hend⟩ := kahn_inv hadj vertices.length hdepart
    have hsubset := kahn_subset hadj htargets vertices.length hdepart
      fun v hv => (hkeys.2 v).mp ((mem_sources hkeys.1).mp hv).1
    exact acyclique_of_rang (fun v => (visiter vertices edges).idxOf v)
      (linearisation_of_length htargets hend hsubset hlength).2
  · intro hacyclique
    exact (kahn_ordre hadj hnodup (fun e he => (mem_internes.mp he).2) hacyclique hkeys.1 hkeys.2
      hdegrees le_rfl).1.length_eq

theorem exists_rang_of_acyclique {edges : List (α × α)} (h : Acyclique edges) :
    ∃ rang : α → Nat, ∀ e ∈ edges, rang e.1 < rang e.2 := by
  let sommets := (edges.map Prod.fst ++ edges.map Prod.snd).dedup
  have hends : ∀ e ∈ edges, e.1 ∈ sommets ∧ e.2 ∈ sommets := by
    intro e he
    constructor
    · exact List.mem_dedup.mpr (List.mem_append_left _ (List.mem_map_of_mem he))
    · exact List.mem_dedup.mpr (List.mem_append_right _ (List.mem_map_of_mem he))
  have hnodup : sommets.Nodup := List.nodup_dedup _
  have hkeys := inDegree_keys hnodup fun e he => (hends e he).2
  have hordre := kahn_ordre (adjacency_getD sommets edges) hnodup hends h hkeys.1 hkeys.2
    (inDegree_getD sommets edges) le_rfl
  exact ⟨fun v => List.idxOf v _, hordre.2⟩

end Visite

section Vidange

variable (adjacent : α → List α)

/-- `while queue`: nothing when the turns do not empty it. -/
def vider : Nat → Dict α Int → List α → List α → Option (List α)
  | _, _, [], order => some order
  | 0, _, _ :: _, _ => none
  | n + 1, degrees, u :: queue, order =>
      let next := relax degrees queue (adjacent u)
      vider n next.1 next.2 (order ++ [u])

def attente (degrees : Dict α Int) : Nat := degrees.countP fun item => 0 < item.2

theorem attente_set (degrees : Dict α Int) (v : α) (degree : Int) :
    attente (degrees.set v degree) + (if 0 < degrees.getD v 0 then 1 else 0) =
      attente degrees + if 0 < degree then 1 else 0 := by
  induction degrees with
  | nil => simp [Dict.set, attente, Dict.getD, Dict.get?]
  | cons item degrees ih =>
      obtain ⟨w, d⟩ := item
      rw [Dict.set, Dict.getD_cons]
      by_cases hw : w = v
      · rw [if_pos hw, if_pos hw.symm]
        simp only [attente, List.countP_cons, decide_eq_true_eq]
        omega
      · rw [if_neg hw, if_neg (Ne.symm hw)]
        simp only [attente, List.countP_cons] at ih ⊢
        omega

theorem relax_attente (degrees : Dict α Int) (queue vs : List α) :
    (relax degrees queue vs).2.length + attente (relax degrees queue vs).1 ≤
      queue.length + attente degrees := by
  induction vs generalizing degrees queue with
  | nil => rfl
  | cons v vs ih =>
      rw [relax]
      refine (ih _ _).trans ?_
      have hset := attente_set degrees v (degrees.getD v 0 - 1)
      split_ifs at hset ⊢ with h₁ h₂ h₃
      all_goals
        try rw [List.length_append, List.length_singleton]
        omega

theorem mem_relax {degrees : Dict α Int} {queue vs : List α} {v : α}
    (hv : v ∈ (relax degrees queue vs).2) : v ∈ queue ∨ v ∈ vs := by
  induction vs generalizing degrees queue with
  | nil => exact .inl hv
  | cons w vs ih =>
      rw [relax] at hv
      rcases ih hv with hv | hv
      · split_ifs at hv
        · rcases List.mem_append.mp hv with hv | hv
          · exact .inl hv
          · rw [List.mem_singleton.mp hv]
            exact .inr List.mem_cons_self
        · exact .inl hv
      · exact .inr (List.mem_cons_of_mem w hv)

variable {adjacent}

theorem vider_isSome {n : Nat} {degrees : Dict α Int} {queue order : List α}
    (hn : queue.length + attente degrees ≤ n) :
    ∃ l, vider adjacent n degrees queue order = some l := by
  induction n generalizing degrees queue order with
  | zero =>
      obtain rfl : queue = [] := List.eq_nil_of_length_eq_zero (by omega)
      exact ⟨order, rfl⟩
  | succ n ih =>
      cases queue with
      | nil => exact ⟨order, rfl⟩
      | cons u queue =>
          have hrelax := relax_attente degrees queue (adjacent u)
          rw [List.length_cons] at hn
          exact ih (by omega)

theorem mem_vider {n : Nat} {degrees : Dict α Int} {queue order l : List α} {v : α}
    (h : vider adjacent n degrees queue order = some l) (hv : v ∈ l) :
    v ∈ order ∨ v ∈ queue ∨ ∃ u, v ∈ adjacent u := by
  induction n generalizing degrees queue order with
  | zero =>
      cases queue with
      | nil =>
          cases h
          exact .inl hv
      | cons u queue => cases h
  | succ n ih =>
      cases queue with
      | nil =>
          cases h
          exact .inl hv
      | cons u queue =>
          rcases ih h with hmem | hmem | hmem
          · rcases List.mem_append.mp hmem with hmem | hmem
            · exact .inl hmem
            · rw [List.mem_singleton.mp hmem]
              exact .inr (.inl List.mem_cons_self)
          · rcases mem_relax hmem with hmem | hmem
            · exact .inr (.inl (List.mem_cons_of_mem u hmem))
            · exact .inr (.inr ⟨u, hmem⟩)
          · exact .inr (.inr hmem)

theorem vider_sans_successeurs (hvide : ∀ u, adjacent u = []) {n : Nat} {degrees : Dict α Int}
    {queue order l : List α} (h : vider adjacent n degrees queue order = some l) :
    l = order ++ queue := by
  induction queue generalizing n order with
  | nil =>
      rw [List.append_nil]
      cases n <;> exact (Option.some.inj h).symm
  | cons u queue ih =>
      cases n with
      | zero => cases h
      | succ n =>
          simp only [vider, hvide, relax] at h
          rw [ih h, List.append_assoc, List.singleton_append]

end Vidange

end Hermes.Lib.Kahn
