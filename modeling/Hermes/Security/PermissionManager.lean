import Hermes.Lib.Cles
import Mathlib.Data.List.Basic

/-! # Permissions

A grant is held under one text made of the principal, the type and the resource, and an expired
one is dropped when it is read.
-/

namespace Hermes.PermissionManager

open Lib (Dict Cles.Geste Cles.Histoire)
open Lib.Cles (Croissante derniere)

inductive ResourceType where
  | agent | skill | tool | workspace | runtime | file | network | memory | config
  deriving DecidableEq

def ResourceType.value : ResourceType → String
  | agent => "agent"
  | skill => "skill"
  | tool => "tool"
  | workspace => "workspace"
  | runtime => "runtime"
  | file => "file"
  | network => "network"
  | memory => "memory"
  | config => "config"

structure Triplet where
  principalId : String
  resourceType : ResourceType
  resourceId : String
  deriving DecidableEq

/-- `f"{principal_id}:{resource_type.value}:{resource_id}"`. -/
def Triplet.cle (t : Triplet) : String :=
  t.principalId ++ ":" ++ t.resourceType.value ++ ":" ++ t.resourceId

structure Permission where
  permissionId : String
  principalId : String
  resourceType : ResourceType
  resourceId : String
  allowed : Bool
  grantedAt : Int
  expiresAt : Option Int
  grantedBy : String
  deriving DecidableEq

def Permission.isExpired (now : Int) (perm : Permission) : Bool :=
  match perm.expiresAt with
  | none => false
  | some expiresAt => expiresAt < now

structure Demande where
  permissionId : String
  allowed : Bool
  grantedBy : String
  expiresAt : Option Int
  deriving DecidableEq

def Demande.permission (d : Demande) (now : Int) (t : Triplet) : Permission where
  permissionId := d.permissionId
  principalId := t.principalId
  resourceType := t.resourceType
  resourceId := t.resourceId
  allowed := d.allowed
  grantedAt := now
  expiresAt := d.expiresAt
  grantedBy := d.grantedBy

abbrev Permissions := Dict String Permission

def grantPermission (now : Int) (perms : Permissions) (t : Triplet) (d : Demande) :
    Permissions × Permission :=
  let perm := d.permission now t
  (perms.set t.cle perm, perm)

def revokePermission (perms : Permissions) (t : Triplet) : Permissions × Bool :=
  if t.cle ∈ perms.keys then (perms.erase t.cle, true) else (perms, false)

def checkPermission (now : Int) (perms : Permissions) (t : Triplet) : Permissions × Bool :=
  match perms.get? t.cle with
  | none => (perms, false)
  | some perm =>
      if perm.isExpired now then (perms.erase t.cle, false) else (perms, perm.allowed)

inductive Appel where
  | grant (t : Triplet) (d : Demande)
  | revoke (t : Triplet)
  | check (t : Triplet)

def Appel.triplet : Appel → Triplet
  | grant t _ => t
  | revoke t => t
  | check t => t

/-- The calls with the dates that the clock gave them. -/
abbrev Histoire := List (Int × Appel)

def executer (now : Int) (perms : Permissions) : Appel → Permissions
  | .grant t d => (grantPermission now perms t d).1
  | .revoke t => (revokePermission perms t).1
  | .check t => (checkPermission now perms t).1

def apres (h : Histoire) : Permissions := h.foldl (fun perms e => executer e.1 perms e.2) []

def Appel.Touche (t : Triplet) : Appel → Prop
  | grant t' _ => t' = t
  | revoke t' => t' = t
  | check _ => False

/-- The last grant for exactly this triple allowed it, has not expired, and no revoke of exactly
this triple came after it. -/
def Accorde (h : Histoire) (t : Triplet) (now : Int) : Prop :=
  ∃ avant date d apres, h = avant ++ (date, .grant t d) :: apres ∧
    (∀ e ∈ apres, ¬e.2.Touche t) ∧ d.allowed = true ∧ ∀ expiresAt ∈ d.expiresAt, now ≤ expiresAt

/-- Every check of the history answers so. -/
def Fidele (h : Histoire) : Prop :=
  ∀ avant now t suite, h = avant ++ (now, .check t) :: suite →
    ((checkPermission now (apres avant) t).2 = true ↔ Accorde avant t now)

def Monotone (h : Histoire) : Prop := (h.map Prod.fst).Pairwise (· ≤ ·)

/-- A call of a date, as a gesture that gives the permission that it makes. -/
def Appel.geste (now : Int) : Appel → Cles.Geste Triplet Permission
  | grant t d => .donner t (d.permission now t)
  | revoke t => .retirer t
  | check t => .lire t

def gestes (h : Histoire) : Cles.Histoire Triplet Permission :=
  h.map fun e => (e.1, e.2.geste e.1)

theorem executer_eq (now : Int) (perms : Permissions) (a : Appel) :
    executer now perms a =
      (Lib.Cles.executer Triplet.cle Permission.isExpired now perms (a.geste now)).1 := by
  cases a with
  | grant t d => rfl
  | revoke t =>
      by_cases h : t.cle ∈ perms.keys
      · rw [executer, revokePermission, if_pos h]
        rfl
      · rw [executer, revokePermission, if_neg h]
        refine (List.filter_eq_self.mpr fun item hitem => ?_).symm
        have hne : item.1 ≠ t.cle := fun heq => h (heq ▸ List.mem_map_of_mem hitem)
        exact decide_eq_true hne
  | check t =>
      simp only [executer, checkPermission, Appel.geste, Lib.Cles.executer]
      cases perms.get? t.cle with
      | none => rfl
      | some perm => cases hexpire : perm.isExpired now <;> simp [hexpire]

theorem apres_eq (h : Histoire) :
    apres h = Lib.Cles.apres Triplet.cle Permission.isExpired (gestes h) := by
  rw [apres, Lib.Cles.apres, gestes, List.foldl_map]
  simp only [executer_eq]

theorem checkPermission_eq (now : Int) (perms : Permissions) (t : Triplet) :
    (checkPermission now perms t).2 =
      ((Lib.Cles.executer Triplet.cle Permission.isExpired now perms (.lire t)).2.map
        Permission.allowed).getD false := by
  simp only [checkPermission, Lib.Cles.executer]
  cases perms.get? t.cle with
  | none => rfl
  | some perm => cases hexpire : perm.isExpired now <;> simp [hexpire]

theorem isExpired_eq_false_iff {now : Int} {perm : Permission} :
    perm.isExpired now = false ↔ ∀ expiresAt ∈ perm.expiresAt, now ≤ expiresAt := by
  unfold Permission.isExpired
  cases perm.expiresAt with
  | none => simp
  | some expiresAt => simp

theorem isExpired_mono (perm : Permission) (a b : Int) (hle : a ≤ b)
    (h : perm.isExpired a = true) : perm.isExpired b = true := by
  by_contra hb
  have hvalide := isExpired_eq_false_iff.mp (Bool.eq_false_iff.mpr hb)
  have ha : perm.isExpired a = false :=
    isExpired_eq_false_iff.mpr fun expiresAt hmem => hle.trans (hvalide expiresAt hmem)
  exact Bool.false_ne_true (ha.symm.trans h)

theorem touche_geste {t : Triplet} {now : Int} {a : Appel} :
    (a.geste now).Touche t ↔ a.Touche t := by
  cases a <;> rfl

theorem accorde_iff {h : Histoire} {t : Triplet} {now : Int} :
    Accorde h t now ↔ ∃ perm, derniere (gestes h) t = some perm ∧ perm.isExpired now = false ∧
      perm.allowed = true := by
  constructor
  · intro ⟨avant, date, d, apres, hh, hapres, hallowed, hdate⟩
    refine ⟨d.permission date t, Lib.Cles.derniere_eq_some_iff.mpr ?_, isExpired_eq_false_iff.mpr hdate,
      hallowed⟩
    refine ⟨gestes avant, date, gestes apres, ?_, ?_⟩
    · rw [hh, gestes, List.map_append, List.map_cons]
      rfl
    · intro e he
      obtain ⟨e', he', rfl⟩ := List.mem_map.mp he
      exact fun htouche => hapres e' he' (touche_geste.mp htouche)
  · intro ⟨perm, hperm, hvalide, hallowed⟩
    obtain ⟨avant, date, apres, hh, hapres⟩ := Lib.Cles.derniere_eq_some_iff.mp hperm
    obtain ⟨a, b, rfl, ha, hb⟩ := List.map_eq_append_iff.mp hh
    obtain ⟨e, suite, rfl, he, hsuite⟩ := List.map_eq_cons_iff.mp hb
    obtain ⟨date', appel⟩ := e
    cases appel with
    | grant t' d =>
        obtain ⟨rfl, hgeste⟩ := Prod.mk.inj he
        obtain ⟨rfl, rfl⟩ := Cles.Geste.donner.inj hgeste
        refine ⟨a, date', d, suite, rfl, ?_, hallowed, isExpired_eq_false_iff.mp hvalide⟩
        intro e' he'
        have hmem : (e'.1, e'.2.geste e'.1) ∈ apres := by
          rw [← hsuite]
          exact List.mem_map_of_mem he'
        exact fun htouche => hapres _ hmem (touche_geste.mpr htouche)
    | revoke t' => cases (Prod.mk.inj he).2
    | check t' => cases (Prod.mk.inj he).2

section Histoires

variable {S : Set Triplet}

theorem fidele_of_injOn (hinj : Set.InjOn Triplet.cle S) {h : Histoire} (hmono : Monotone h)
    (hS : ∀ e ∈ h, e.2.triplet ∈ S) : Fidele h := by
  intro avant now t suite hh
  have hdates : ∀ e ∈ avant, e.1 ≤ now := by
    rw [Monotone, hh, List.map_append, List.pairwise_append] at hmono
    exact fun e he => hmono.2.2 _ (List.mem_map_of_mem he) _ (by simp)
  have hcroit : Croissante (gestes avant) := by
    rw [Monotone, hh, List.map_append, List.pairwise_append] at hmono
    rw [Croissante, gestes, List.map_map]
    exact hmono.1
  have hr : Lib.Cles.Reflet Triplet.cle Permission.isExpired now (gestes avant) (apres avant) t := by
    rw [apres_eq]
    refine Lib.Cles.reflet_apres isExpired_mono hinj ?_ hcroit (hS (now, .check t) (by simp [hh])) ?_
    · intro e he
      obtain ⟨e', he', rfl⟩ := List.mem_map.mp he
      have helement : (e'.2.geste e'.1).element = e'.2.triplet := by
        cases e'.2 <;> rfl
      change (e'.2.geste e'.1).element ∈ S
      rw [helement]
      exact hS e' (by rw [hh]; exact List.mem_append_left _ he')
    · intro e he
      obtain ⟨e', he', rfl⟩ := List.mem_map.mp he
      exact hdates e' he'
  rw [checkPermission_eq, hr.lire, accorde_iff]
  cases derniere (gestes avant) t with
  | none => simp
  | some perm => cases hexpire : perm.isExpired now <;> simp [Option.filter_some, hexpire]

theorem check_of_cle_eq {t t' : Triplet} (hcle : t.cle = t'.cle) (d : Demande)
    (hallowed : d.allowed = true) (hexpire : d.expiresAt = none) :
    (checkPermission 0 (apres [(0, .grant t d)]) t').2 = true := by
  change (checkPermission 0 [(t.cle, d.permission 0 t)] t').2 = true
  rw [checkPermission, ← hcle, Dict.get?_cons, if_pos rfl]
  have hvalide : (d.permission 0 t).isExpired 0 = false :=
    isExpired_eq_false_iff.mpr (by simp [Demande.permission, hexpire])
  simp only [hvalide, Bool.false_eq_true, if_false]
  exact hallowed

/-- Every history over a set of triples is answered for exactly the triples asked about if and only
if no two triples of the set have one key. -/
theorem fidele_iff_injOn (S : Set Triplet) :
    (∀ h : Histoire, Monotone h → (∀ e ∈ h, e.2.triplet ∈ S) → Fidele h) ↔
      Set.InjOn Triplet.cle S := by
  constructor
  · intro hfidele t ht t' ht' hcle
    by_contra hne
    let d : Demande := ⟨"", true, "system", none⟩
    have h := hfidele [(0, .grant t d), (0, .check t')] (by simp [Monotone]) (by
      intro e he
      rcases List.mem_cons.mp he with rfl | he
      · exact ht
      · rw [List.mem_singleton.mp he]
        exact ht') [(0, .grant t d)] 0 t' [] rfl
    obtain ⟨avant, date, d', suite, hh, -, -⟩ := h.mp (check_of_cle_eq hcle d rfl rfl)
    have hmem : (date, Appel.grant t' d') ∈ [((0 : Int), Appel.grant t d)] := by
      rw [hh]
      simp
    have heq := (Prod.mk.inj (List.mem_singleton.mp hmem)).2
    exact hne (Appel.grant.inj heq).1.symm
  · exact fun hinj h hmono hS => fidele_of_injOn hinj hmono hS

end Histoires

theorem fidele_collision :
    ¬Fidele [(0, .grant ⟨"agent", .file, "notes:file:x"⟩ ⟨"perm_0", true, "system", none⟩),
      (0, .check ⟨"agent:file:notes", .file, "x"⟩)] := by
  intro h
  obtain ⟨avant, date, d, suite, hh, -, -⟩ := (h [_] 0 _ [] rfl).mp (by decide +kernel)
  have hmem : (date, Appel.grant ⟨"agent:file:notes", .file, "x"⟩ d) ∈
      [((0 : Int), Appel.grant ⟨"agent", .file, "notes:file:x"⟩ ⟨"perm_0", true, "system", none⟩)] := by
    rw [hh]
    simp
  have heq := (Prod.mk.inj (List.mem_singleton.mp hmem)).2
  have hprincipal := congrArg Triplet.principalId (Appel.grant.inj heq).1
  exact absurd hprincipal (by decide)

theorem separe_inj {c : Char} {a a' b b' : List Char} (ha : c ∉ a) (ha' : c ∉ a')
    (h : a ++ c :: b = a' ++ c :: b') : a = a' ∧ b = b' := by
  have hlong : a.length = a'.length := by
    have hidx := congrArg (List.idxOf c) h
    rwa [List.idxOf_append_of_notMem ha, List.idxOf_append_of_notMem ha', List.idxOf_cons_self,
      List.idxOf_cons_self, Nat.add_zero, Nat.add_zero] at hidx
  obtain ⟨heq, hreste⟩ := List.append_inj h hlong
  exact ⟨heq, (List.cons.inj hreste).2⟩

theorem injOn_of_sansSeparateur {S : Set Triplet} (h : ∀ t ∈ S, ':' ∉ t.principalId.toList) :
    Set.InjOn Triplet.cle S := by
  intro t ht t' ht' hcle
  have hcars := congrArg String.toList hcle
  simp only [Triplet.cle, String.toList_append, List.append_assoc] at hcars
  have htype : ∀ r : ResourceType, ':' ∉ r.value.toList := by
    intro r
    cases r <;> decide
  have hvalue : Function.Injective ResourceType.value := by
    intro r r' hr
    cases r <;> cases r' <;> first | rfl | exact absurd hr (by decide)
  obtain ⟨hprincipal, hreste⟩ := separe_inj (h t ht) (h t' ht') hcars
  obtain ⟨hr, hresource⟩ := separe_inj (htype _) (htype _) hreste
  obtain ⟨p, r, i⟩ := t
  obtain ⟨p', r', i'⟩ := t'
  rw [Triplet.mk.injEq]
  exact ⟨String.toList_inj.mp hprincipal, hvalue (String.toList_inj.mp hr),
    String.toList_inj.mp hresource⟩

end Hermes.PermissionManager
