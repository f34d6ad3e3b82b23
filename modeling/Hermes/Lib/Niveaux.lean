import Hermes.Lib.Kahn
import Mathlib.Data.List.Flatten
import Mathlib.Order.Bounds.Basic

/-! # Kahn's algorithm level by level

One queue for each level: the vertices of a level are taken out together, in an order of the
caller's choice, and those they leave without a degree make the next level.
-/

namespace Hermes.Lib.Kahn

variable {α : Type*} [DecidableEq α]

/-- The edges that leave a level, relaxed vertex after vertex: the degrees, and the next level. -/
def relacher (adjacent : α → List α) (degrees : Dict α Int) (level : List α) :
    Dict α Int × List α :=
  level.foldl (fun s u => relax s.1 s.2 (adjacent u)) (degrees, [])

def niveaux (trier : List α → List α) (adjacent : α → List α) :
    Nat → Dict α Int → List α → List (List α)
  | 0, _, _ => []
  | _ + 1, _, [] => []
  | fuel + 1, degrees, u :: current =>
      let level := trier (u :: current)
      let next := relacher adjacent degrees level
      level :: niveaux trier adjacent fuel next.1 next.2

omit [DecidableEq α] in
inductive Chemin (edges : List (α × α)) : Nat → α → Prop
  | depart (v : α) : Chemin edges 0 v
  | suite {n : Nat} {u v : α} (arc : (u, v) ∈ edges) (h : Chemin edges n u) :
      Chemin edges (n + 1) v

variable {edges : List (α × α)} {n : Nat} {u v : α}

omit [DecidableEq α] in
theorem chemin_succ : Chemin edges (n + 1) v ↔ ∃ u, (u, v) ∈ edges ∧ Chemin edges n u := by
  constructor
  · intro h
    cases h with
    | suite arc h => exact ⟨_, arc, h⟩
  · rintro ⟨u, arc, h⟩
    exact .suite arc h

omit [DecidableEq α] in
theorem Chemin.of_succ (h : Chemin edges (n + 1) v) : Chemin edges n v := by
  induction n generalizing v with
  | zero => exact .depart v
  | succ n ih =>
      obtain ⟨u, arc, h⟩ := chemin_succ.mp h
      exact .suite arc (ih h)

omit [DecidableEq α] in
theorem Chemin.of_le {m : Nat} (h : Chemin edges n v) (hle : m ≤ n) : Chemin edges m v := by
  induction n with
  | zero =>
      have hzero : m = 0 := by omega
      exact hzero ▸ h
  | succ n ih =>
      by_cases heq : m = n + 1
      · exact heq ▸ h
      · exact ih h.of_succ (by omega)

omit [DecidableEq α] in
theorem isGreatest_chemin (h : Chemin edges n v) (hnot : ¬ Chemin edges (n + 1) v) :
    IsGreatest {n | Chemin edges n v} n := by
  refine ⟨h, fun m hm => ?_⟩
  by_contra hlt
  exact hnot (Chemin.of_le hm (by omega))

theorem relax_append (degrees : Dict α Int) (queue vs ws : List α) :
    relax degrees queue (vs ++ ws) =
      relax (relax degrees queue vs).1 (relax degrees queue vs).2 ws := by
  induction vs generalizing degrees queue with
  | nil => rfl
  | cons v vs ih => simp only [List.cons_append, relax, ih]

theorem relacher_eq (adjacent : α → List α) (degrees : Dict α Int) (level : List α) :
    relacher adjacent degrees level = relax degrees [] (level.flatMap adjacent) := by
  have hfold : ∀ s : Dict α Int × List α,
      level.foldl (fun s u => relax s.1 s.2 (adjacent u)) s =
        relax s.1 s.2 (level.flatMap adjacent) := by
    induction level with
    | nil => exact fun _ => rfl
    | cons u level ih =>
        intro s
        rw [List.foldl_cons, ih, List.flatMap_cons, relax_append]
  exact hfold _

theorem need_append_flatMap (edges : List (α × α)) {order level : List α}
    (hnodup : (order ++ level).Nodup) (v : α) :
    need edges (order ++ level) v + (level.flatMap (successors edges)).count v =
      need edges order v := by
  induction level generalizing order with
  | nil => simp
  | cons u level ih =>
      have hsame : order ++ u :: level = order ++ [u] ++ level := by simp
      have hu : u ∉ order := by
        intro hmem
        exact (List.nodup_append.mp hnodup).2.2 u hmem u List.mem_cons_self rfl
      have hrest := ih (hsame ▸ hnodup)
      have hfirst := need_append edges hu v
      rw [hsame, List.flatMap_cons, List.count_append]
      omega

/-- What holds before a level: the vertices taken out are those of the levels below. -/
structure Etage (vertices : List α) (edges : List (α × α)) (degrees : Dict α Int)
    (current order : List α) (k : Nat) : Prop where
  nodup : (order ++ current).Nodup
  degree : ∀ v, degrees.getD v 0 = need edges order v
  passe : ∀ v, v ∈ order ↔ v ∈ vertices ∧ ¬ Chemin edges k v
  niveau : ∀ v, v ∈ current ↔ v ∈ vertices ∧ Chemin edges k v ∧ ¬ Chemin edges (k + 1) v

variable {vertices : List α} {degrees : Dict α Int} {current order level : List α} {k : Nat}

theorem Etage.depart (hkeys : degrees.keys.Nodup) (hmem : ∀ v, v ∈ degrees.keys ↔ v ∈ vertices)
    (hdegrees : ∀ v, degrees.getD v 0 = need edges [] v) :
    Etage vertices edges degrees (sources degrees) [] 0 where
  nodup := (Inv.depart hkeys hdegrees).nodup
  degree := hdegrees
  passe := by
    intro v
    have hzero : Chemin edges 0 v := .depart v
    simp [hzero]
  niveau := by
    intro v
    have hzero : Chemin edges 0 v := .depart v
    have hneed : (need edges [] v : Int) = 0 ↔ ¬ Chemin edges 1 v := by
      rw [Int.natCast_eq_zero, need_eq_zero, chemin_succ]
      constructor
      · rintro h ⟨u, arc, -⟩
        cases h u arc
      · intro h u arc
        exact absurd ⟨u, arc, .depart u⟩ h
    rw [mem_sources hkeys, hmem, hdegrees, hneed]
    simp [hzero]

theorem Etage.suivant (h : Etage vertices edges degrees current order k)
    (hends : ∀ e ∈ edges, e.1 ∈ vertices ∧ e.2 ∈ vertices) (hperm : level.Perm current) :
    Etage vertices edges (relacher (successors edges) degrees level).1
      (relacher (successors edges) degrees level).2 (order ++ level) (k + 1) := by
  have hnodup : (order ++ level).Nodup :=
    (List.Perm.append_left order hperm).nodup_iff.mpr h.nodup
  have hniveau : ∀ v, v ∈ level ↔ v ∈ vertices ∧ Chemin edges k v ∧ ¬ Chemin edges (k + 1) v :=
    fun v => hperm.mem_iff.trans (h.niveau v)
  have hpasse : ∀ v, v ∈ order ++ level ↔ v ∈ vertices ∧ ¬ Chemin edges (k + 1) v := by
    intro v
    rw [List.mem_append, h.passe, hniveau]
    have hmono : Chemin edges (k + 1) v → Chemin edges k v := Chemin.of_succ
    tauto
  have hcount : ∀ v, degrees.getD v 0 =
      need edges (order ++ level) v + (level.flatMap (successors edges)).count v := by
    intro v
    rw [h.degree v, ← need_append_flatMap edges hnodup v]
    exact Int.natCast_add _ _
  obtain ⟨hdegrees, fresh, hnext, hfresh, hmem⟩ := relax_spec [] hcount
  rw [List.nil_append] at hnext
  rw [relacher_eq]
  have hsuite : ∀ v, v ∈ fresh ↔
      v ∈ vertices ∧ Chemin edges (k + 1) v ∧ ¬ Chemin edges (k + 1 + 1) v := by
    intro v
    rw [hmem, List.mem_flatMap, need_eq_zero]
    constructor
    · rintro ⟨⟨u, hu, hv⟩, hpreds⟩
      have arc := mem_successors.mp hv
      refine ⟨(hends _ arc).2, .suite arc ((hniveau u).mp hu).2.1, fun hlong => ?_⟩
      obtain ⟨w, arc', hw⟩ := chemin_succ.mp hlong
      exact ((hpasse w).mp (hpreds w arc')).2 hw
    · rintro ⟨-, hchemin, hnot⟩
      have hpreds : ∀ u, (u, v) ∈ edges → ¬ Chemin edges (k + 1) u :=
        fun u arc hu => hnot (.suite arc hu)
      constructor
      · obtain ⟨u, arc, hu⟩ := chemin_succ.mp hchemin
        exact ⟨u, (hniveau u).mpr ⟨(hends _ arc).1, hu, hpreds u arc⟩, mem_successors.mpr arc⟩
      · intro u arc
        exact (hpasse u).mpr ⟨(hends _ arc).1, hpreds u arc⟩
  refine ⟨?_, hdegrees, hpasse, ?_⟩
  · rw [hnext]
    refine List.nodup_append.mpr ⟨hnodup, hfresh, ?_⟩
    intro a ha b hb hab
    exact ((hpasse a).mp ha).2 (hab ▸ ((hsuite b).mp hb).2.1)
  · intro v
    rw [hnext]
    exact hsuite v

section Tous

variable {trier : List α → List α} {adjacent : α → List α} {fuel : Nat}

theorem Etage.fini (h : Etage vertices edges degrees [] order k)
    (hends : ∀ e ∈ edges, e.1 ∈ vertices ∧ e.2 ∈ vertices) (hacyclique : Acyclique edges)
    (hnodup : vertices.Nodup) : order.Perm vertices := by
  classical
  have hrestes : vertices.filter (fun v => v ∉ order) = [] := by
    apply eq_nil_of_predecesseurs hacyclique
    intro v hv
    have hreste := List.mem_filter.mp hv
    have hlong : Chemin edges (k + 1) v := by
      by_contra hnot
      have hchemin : Chemin edges k v := by
        by_contra hcourt
        exact of_decide_eq_true hreste.2 ((h.passe v).mpr ⟨hreste.1, hcourt⟩)
      cases (h.niveau v).mpr ⟨hreste.1, hchemin, hnot⟩
    obtain ⟨u, arc, hu⟩ := chemin_succ.mp hlong
    have hdehors : u ∉ order := fun hmem => ((h.passe u).mp hmem).2 hu
    exact ⟨u, List.mem_filter.mpr ⟨(hends _ arc).1, by simpa using hdehors⟩, arc⟩
  have hordre : order.Nodup := (List.nodup_append.mp h.nodup).1
  refine (List.perm_ext_iff_of_nodup hordre hnodup).mpr fun v =>
    ⟨fun hv => ((h.passe v).mp hv).1, ?_⟩
  intro hv
  by_contra hnot
  have hreste : v ∈ vertices.filter (fun v => v ∉ order) :=
    List.mem_filter.mpr ⟨hv, by simpa using hnot⟩
  rw [hrestes] at hreste
  cases hreste

theorem Etage.length_le (h : Etage vertices edges degrees current order k) :
    order.length + current.length ≤ vertices.length := by
  have hsub : ∀ v ∈ order ++ current, v ∈ vertices := by
    intro v hv
    rcases List.mem_append.mp hv with hv | hv
    · exact ((h.passe v).mp hv).1
    · exact ((h.niveau v).mp hv).1
  have hle := (List.subperm_of_subset h.nodup hsub).length_le
  rwa [List.length_append] at hle

theorem niveaux_spec (hadj : ∀ u, adjacent u = successors edges u)
    (htrier : ∀ l, (trier l).Perm l) (hends : ∀ e ∈ edges, e.1 ∈ vertices ∧ e.2 ∈ vertices)
    (hacyclique : Acyclique edges) (hnodup : vertices.Nodup)
    (h : Etage vertices edges degrees current order k)
    (hfuel : vertices.length ≤ order.length + fuel) :
    (order ++ (niveaux trier adjacent fuel degrees current).flatten).Perm vertices ∧
      (∀ level ∈ niveaux trier adjacent fuel degrees current, level ≠ []) ∧
      ∀ i level, (niveaux trier adjacent fuel degrees current)[i]? = some level → ∀ v ∈ level,
        IsGreatest {n | Chemin edges n v} (k + i) := by
  have hadjacent : adjacent = successors edges := funext hadj
  subst hadjacent
  induction fuel generalizing degrees current order k with
  | zero =>
      have hbound := h.length_le
      have hempty : current = [] := List.length_eq_zero_iff.mp (by omega)
      subst hempty
      simpa [niveaux] using h.fini hends hacyclique hnodup
  | succ fuel ih =>
      cases current with
      | nil => simpa [niveaux] using h.fini hends hacyclique hnodup
      | cons u current =>
          have hperm := htrier (u :: current)
          have hlength := hperm.length_eq
          rw [List.length_cons] at hlength
          have hne : trier (u :: current) ≠ [] := by
            intro hnil
            rw [hnil] at hlength
            cases hlength
          obtain ⟨hrest, hpleins, hindex⟩ := ih (h.suivant hends hperm) (by
            rw [List.length_append]
            omega)
          simp only [niveaux, List.flatten_cons, ← List.append_assoc]
          refine ⟨hrest, List.forall_mem_cons.mpr ⟨hne, hpleins⟩, ?_⟩
          intro i level hi v hv
          cases i with
          | zero =>
              cases hi
              obtain ⟨-, hchemin, hnot⟩ := (h.niveau v).mp (hperm.mem_iff.mp hv)
              exact isGreatest_chemin hchemin hnot
          | succ i =>
              have hgreatest := hindex i level hi v hv
              have hsame : k + 1 + i = k + (i + 1) := by omega
              rwa [hsame] at hgreatest

end Tous

end Hermes.Lib.Kahn
