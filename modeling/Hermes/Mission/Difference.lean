import Hermes.Mission.Snapshot
import Mathlib.Data.List.Dedup

/-! # What changed between two snapshots

A snapshot knows of each path that it is unreadable, that it is absent, or its fingerprint.
-/

namespace Hermes.Snapshot

open Lib
open RepliFichiers (Octets posix)

inductive Constat where
  | illisible
  | absent
  | present (empreinte : String)
  deriving DecidableEq

def constat (s : WorkspaceSnapshot) (p : String) : Constat :=
  if p ∈ s.illisibles then .illisible
  else
    match s.entries.get? p with
    | none => .absent
    | some empreinte => .present empreinte

inductive Rubrique where
  | created
  | modified
  | deleted
  | indetermines
  deriving DecidableEq

def Rubrique.chemins (d : WorkspaceDiff) : Rubrique → List String
  | created => d.created
  | modified => d.modified
  | deleted => d.deleted
  | indetermines => d.indetermines

def classer : Constat → Constat → Option Rubrique
  | .illisible, _ => some .indetermines
  | _, .illisible => some .indetermines
  | .absent, .absent => none
  | .absent, .present _ => some .created
  | .present _, .absent => some .deleted
  | .present a, .present b => if a = b then none else some .modified

section Membres

variable {before after s : WorkspaceSnapshot} {p : String}

theorem constat_illisible (h : p ∈ s.illisibles) : constat s p = .illisible := if_pos h

theorem constat_lisible (h : p ∉ s.illisibles) :
    constat s p = (s.entries.get? p).elim .absent .present := by
  rw [constat, if_neg h]
  cases s.entries.get? p <;> rfl

theorem mem_trier {noms : List String} {nom : String} : nom ∈ trier noms ↔ nom ∈ noms :=
  List.mem_insertionSort _

theorem nodup_trier {noms : List String} (h : noms.Nodup) : (trier noms).Nodup :=
  (List.perm_insertionSort _ noms).nodup_iff.mpr h

theorem mem_keys : p ∈ s.entries.keys ↔ ∃ e, s.entries.get? p = some e := by
  rw [← Option.isSome_iff_exists]
  exact Dict.isSome_get?.symm

theorem mem_inconnus :
    p ∈ (before.illisibles ++ after.illisibles).dedup ↔
      p ∈ before.illisibles ∨ p ∈ after.illisibles := by
  rw [List.mem_dedup, List.mem_append]

theorem mem_indetermines :
    p ∈ (diff before after).indetermines ↔ p ∈ before.illisibles ∨ p ∈ after.illisibles := by
  rw [diff, mem_trier, mem_inconnus]

theorem mem_created :
    p ∈ (diff before after).created ↔
      (p ∉ before.illisibles ∧ p ∉ after.illisibles) ∧ p ∉ before.entries.keys ∧
        p ∈ after.entries.keys := by
  simp only [diff, mem_trier, List.mem_filter, mem_inconnus, decide_eq_true_eq]
  tauto

theorem mem_deleted :
    p ∈ (diff before after).deleted ↔
      (p ∉ before.illisibles ∧ p ∉ after.illisibles) ∧ p ∈ before.entries.keys ∧
        p ∉ after.entries.keys := by
  simp only [diff, mem_trier, List.mem_filter, mem_inconnus, decide_eq_true_eq]
  tauto

theorem mem_modified :
    p ∈ (diff before after).modified ↔
      (p ∉ before.illisibles ∧ p ∉ after.illisibles) ∧ p ∈ before.entries.keys ∧
        p ∈ after.entries.keys ∧ before.entries.get? p ≠ after.entries.get? p := by
  simp only [diff, mem_trier, List.mem_filter, mem_inconnus, decide_eq_true_eq]
  tauto

theorem mem_chemins (r : Rubrique) :
    p ∈ r.chemins (diff before after) ↔
      classer (constat before p) (constat after p) = some r := by
  by_cases hbefore : p ∈ before.illisibles
  · rw [constat_illisible hbefore]
    cases r <;>
      simp [Rubrique.chemins, classer, mem_created, mem_modified, mem_deleted, mem_indetermines,
        hbefore]
  · by_cases hafter : p ∈ after.illisibles
    · rw [constat_illisible hafter]
      have hclasse : classer (constat before p) .illisible = some .indetermines := by
        cases constat before p <;> rfl
      rw [hclasse]
      cases r <;>
        simp [Rubrique.chemins, mem_created, mem_modified, mem_deleted, mem_indetermines, hafter]
    · -- readable on both sides: the two dictionaries decide
      rw [constat_lisible hbefore, constat_lisible hafter]
      cases hb : before.entries.get? p <;> cases ha : after.entries.get? p <;> cases r <;>
        simp [Rubrique.chemins, classer, mem_created, mem_modified, mem_deleted,
          mem_indetermines, mem_keys, hbefore, hafter, hb, ha]

end Membres

structure Instantane extends WorkspaceSnapshot where
  cles : entries.keys.Nodup

/-- Each path is filed once, by what the two snapshots know of it. -/
structure Partage (before after : WorkspaceSnapshot) : Prop where
  sansDoublon : ((diff before after).created ++ (diff before after).modified ++
    (diff before after).deleted ++ (diff before after).indetermines).Nodup
  change : ∀ p, constat before p ≠ constat after p → ∃! r, p ∈ Rubrique.chemins (diff before after) r
  illisible : ∀ p, p ∈ before.illisibles ∨ p ∈ after.illisibles →
    ∀ r, p ∈ Rubrique.chemins (diff before after) r ↔ r = .indetermines
  inchange : ∀ p e, before.entries.get? p = some e → after.entries.get? p = some e →
    ((∀ r, p ∉ Rubrique.chemins (diff before after) r) ↔
      p ∉ before.illisibles ∧ p ∉ after.illisibles)
  retourne : (diff after before).created = (diff before after).deleted ∧
    (diff after before).deleted = (diff before after).created

section Lois

variable {before after : WorkspaceSnapshot} {p : String}

theorem uneFois {r r' : Rubrique} (h : p ∈ r.chemins (diff before after))
    (h' : p ∈ r'.chemins (diff before after)) : r = r' :=
  Option.some.inj (((mem_chemins r).mp h).symm.trans ((mem_chemins r').mp h'))

theorem disjointes {r r' : Rubrique} (h : r ≠ r') :
    (r.chemins (diff before after)).Disjoint (r'.chemins (diff before after)) :=
  fun _ hp hp' => h (uneFois hp hp')

theorem classer_eq_none {a b : Constat} (h : classer a b = none) : a = b := by
  cases a <;> cases b <;> simp_all [classer]

theorem retourner (before after : WorkspaceSnapshot) :
    (diff after before).created = (diff before after).deleted := by
  have hinconnus : ∀ k, k ∈ (after.illisibles ++ before.illisibles).dedup ↔
      k ∈ (before.illisibles ++ after.illisibles).dedup := by
    intro k
    rw [mem_inconnus, mem_inconnus, or_comm]
  simp only [diff, hinconnus]

theorem nodup_chemins (hbefore : before.entries.keys.Nodup) (hafter : after.entries.keys.Nodup)
    (r : Rubrique) : (r.chemins (diff before after)).Nodup := by
  cases r with
  | created => exact nodup_trier ((hafter.filter _).filter _)
  | modified => exact nodup_trier ((hbefore.filter _).filter _)
  | deleted => exact nodup_trier ((hbefore.filter _).filter _)
  | indetermines => exact nodup_trier (List.nodup_dedup _)

theorem diff_sansDoublon (hbefore : before.entries.keys.Nodup) (hafter : after.entries.keys.Nodup) :
    ((diff before after).created ++ (diff before after).modified ++
      (diff before after).deleted ++ (diff before after).indetermines).Nodup := by
  have hnodup := nodup_chemins hbefore hafter
  have hdisjointes : ∀ r r' : Rubrique, r ≠ r' →
      (r.chemins (diff before after)).Disjoint (r'.chemins (diff before after)) :=
    fun r r' => disjointes
  have hcm := (hnodup .created).append (hnodup .modified) (hdisjointes _ _ (by decide))
  have hcmd := hcm.append (hnodup .deleted) (List.disjoint_append_left.mpr
    ⟨hdisjointes .created .deleted (by decide), hdisjointes .modified .deleted (by decide)⟩)
  exact hcmd.append (hnodup .indetermines) (List.disjoint_append_left.mpr
    ⟨List.disjoint_append_left.mpr
      ⟨hdisjointes .created .indetermines (by decide),
        hdisjointes .modified .indetermines (by decide)⟩,
      hdisjointes .deleted .indetermines (by decide)⟩)

theorem diff_partage (before after : Instantane) :
    Partage before.toWorkspaceSnapshot after.toWorkspaceSnapshot where
  sansDoublon := diff_sansDoublon before.cles after.cles
  change p h := by
    cases hclasse : classer (constat before.toWorkspaceSnapshot p)
        (constat after.toWorkspaceSnapshot p) with
    | none => exact absurd (classer_eq_none hclasse) h
    | some r =>
        have hr := (mem_chemins r).mpr hclasse
        exact ⟨r, hr, fun r' hr' => uneFois hr' hr⟩
  illisible p h r := by
    have hlist : p ∈ Rubrique.indetermines.chemins (diff before.toWorkspaceSnapshot
        after.toWorkspaceSnapshot) := mem_indetermines.mpr h
    constructor
    · exact fun hr => uneFois hr hlist
    · rintro rfl
      exact hlist
  inchange p e hb ha := by
    constructor
    · intro h
      have hnot := mem_indetermines.not.mp (h .indetermines)
      exact not_or.mp hnot
    · rintro ⟨hbefore, hafter⟩ r hr
      have hclasse := (mem_chemins r).mp hr
      rw [constat_lisible hbefore, constat_lisible hafter, hb, ha] at hclasse
      simp [classer] at hclasse
  retourne := ⟨retourner _ _, (retourner _ _).symm⟩

theorem diff_self (s : WorkspaceSnapshot) : (diff s s).touchedAnything = false := by
  have hvide : ∀ r : Rubrique, r ≠ .indetermines → r.chemins (diff s s) = [] := by
    intro r hr
    rw [List.eq_nil_iff_forall_not_mem]
    intro p hp
    have hclasse := (mem_chemins r).mp hp
    cases hconstat : constat s p <;> rw [hconstat] at hclasse <;> simp [classer] at hclasse
    exact hr hclasse.symm
  have hcreated : (diff s s).created = [] := hvide .created (by decide)
  have hmodified : (diff s s).modified = [] := hvide .modified (by decide)
  have hdeleted : (diff s s).deleted = [] := hvide .deleted (by decide)
  simp [WorkspaceDiff.touchedAnything, hcreated, hmodified, hdeleted]

end Lois

/-- There is no snapshot, or not of the whole tree. -/
def SansMesure (s : Option WorkspaceSnapshot) : Prop := ∀ x, s = some x → x.lisible = false

structure NonConclue (v : MissionVerification) : Prop where
  verified : v.verified = false
  contradicted : v.contradicted = false
  verdict : v.verdict = .indisponible

theorem NonConclue.of_measured {v : MissionVerification} (h : v.measured = false) :
    NonConclue v where
  verified := by simp [MissionVerification.verified, h]
  contradicted := by simp [MissionVerification.contradicted, h]
  verdict := by simp [MissionVerification.verdict, h]

theorem verify_sansMesure (missionId : String) (reportedSuccess : Bool)
    (workspace : Option String) {before after : Option WorkspaceSnapshot} (i : Instruments)
    (h : SansMesure before ∨ SansMesure after) :
    (verify missionId reportedSuccess workspace before after i).measured = false := by
  unfold verify
  split
  · next w b a =>
      have hlisible : (b.lisible && a.lisible) = false := by
        rcases h with h | h
        · rw [h b rfl, Bool.false_and]
        · rw [h a rfl, Bool.and_false]
      simp [hlisible, nonMesure]
  · rfl

/-- The four lists of a difference share out the paths by what the two snapshots know of them,
the exchange of the snapshots exchanges what was created and what was deleted, a snapshot differs
from itself in nothing, and what was not measured is not concluded on. -/
theorem difference_exacte (before after : Instantane) (missionId : String)
    (reportedSuccess : Bool) (workspace : Option String) (i : Instruments) :
    Partage before.toWorkspaceSnapshot after.toWorkspaceSnapshot ∧
      (diff before.toWorkspaceSnapshot before.toWorkspaceSnapshot).touchedAnything = false ∧
      ∀ b a, SansMesure b ∨ SansMesure a →
        NonConclue (verify missionId reportedSuccess workspace b a i) :=
  ⟨diff_partage before after, diff_self _,
    fun _ _ h => .of_measured (verify_sansMesure missionId reportedSuccess workspace i h)⟩

end Hermes.Snapshot
