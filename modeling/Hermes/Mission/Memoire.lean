import Hermes.Lib.Cache
import Hermes.Lib.Table
import Hermes.Mission.Walk

/-! # The missions in memory

The registry hands out objects: the routes, the walks and the executor mutate them in place, and
the cache holds references to them.
-/

namespace Hermes

open DependencyResolver Lib

abbrev Ref := Nat

structure Memoire where
  objets : Ref → Mission
  prochain : Ref
  maximum : Int
  missions : Dict String Ref
  magasin : Table Mission.missionId
  hydrate : Bool

namespace Memoire

def ouvrir (maximum : Int) (magasin : Table Mission.missionId) : Memoire where
  objets := fun _ => Mission.neuve "" ""
  prochain := 0
  maximum := maximum
  missions := []
  magasin := magasin
  hydrate := false

def allouer (s : Memoire) (m : Mission) : Memoire :=
  { s with objets := Function.update s.objets s.prochain m, prochain := s.prochain + 1 }

def muter (s : Memoire) (r : Ref) (m : Mission) : Memoire :=
  { s with objets := Function.update s.objets r m }

def evincer (s : Memoire) : Memoire :=
  { s with
    missions := Cache.evincer (fun r => estTerminal (s.objets r).status) s.maximum s.missions }

/-- `del self._missions[id]`: what an eviction does to one mission. -/
def oublier (s : Memoire) (id : String) : Memoire := { s with missions := s.missions.erase id }

def poser (s : Memoire) (id : String) (r : Ref) : Memoire :=
  { s with missions := s.missions.setLast id r }.evincer

/-- `magasin.enregistrer`, when it does not raise. -/
def enregistrer (s : Memoire) (r : Ref) : Memoire :=
  { s with magasin := s.magasin.deposer (s.objets r) }

/-- `r[id] = m`: a failed write is swallowed. -/
def setItem (s : Memoire) (r : Ref) (accepte : Mission → Bool) : Memoire :=
  if accepte (s.objets r) then (s.enregistrer r).poser (s.objets r).missionId r
  else s.poser (s.objets r).missionId r

def persister (s : Memoire) (r : Ref) (accepte : Mission → Bool) : Memoire × Bool :=
  if accepte (s.objets r) then ((s.enregistrer r).poser (s.objets r).missionId r, true)
  else (s, false)

def relire (s : Memoire) (id : String) : Option Ref × Memoire :=
  match s.magasin.lire id with
  | none => (none, s)
  | some m => (some s.prochain, (s.allouer m).poser id s.prochain)

/-- `r.get(id)`. -/
def getItem (s : Memoire) (id : String) : Option Ref × Memoire :=
  match s.missions.get? id with
  | some r => (some r, s)
  | none => s.relire id

/-- A row becomes an object, which enters the cache unless its identifier is there. -/
def ajouter (s : Memoire) (m : Mission) : Memoire :=
  { s.allouer m with missions := Dict.setDefault s.missions m.missionId s.prochain }

def hydrater (s : Memoire) (ordre : List String) : Memoire :=
  if s.hydrate then s
  else
    let recentes := Cache.prefixe s.maximum (ordre.filterMap s.magasin.lire)
    (recentes.reverse.foldl ajouter { s with hydrate := true }).evincer

def transition (s : Memoire) (r : Ref) (m : Mission) (accepte : Mission → Bool) : Memoire × Bool :=
  (s.muter r m).persister r accepte

/-- The store holds the mission with this status. -/
def Conserve (magasin : Table Mission.missionId) (m : Mission) : Prop :=
  ∃ m', magasin.lire m.missionId = some m' ∧ m'.status = m.status

/-- The terminal missions of the cache are stored with their status, but for the identifiers
of `sauf`. -/
structure DurableSauf (sauf : String → Prop) (s : Memoire) : Prop where
  cles : s.missions.keys.Nodup
  designe : ∀ id r, s.missions.get? id = some r → (s.objets r).missionId = id
  alloues : ∀ id r, s.missions.get? id = some r → r < s.prochain
  conserve : ∀ id r, s.missions.get? id = some r → ¬ sauf id →
    estTerminal (s.objets r).status = true → Conserve s.magasin (s.objets r)

abbrev Durable : Memoire → Prop := DurableSauf fun _ => False

/-- From `s` to `s'` the invariant is kept and no object disappears. -/
structure Suite (s s' : Memoire) : Prop where
  durable : Durable s'
  croit : s.prochain ≤ s'.prochain

section Registre

variable {s s' s'' : Memoire} {id : String} {r : Ref} {m : Mission} {accepte : Mission → Bool}
  {sauf : String → Prop}

theorem Suite.refl (h : Durable s) : Suite s s := ⟨h, le_refl _⟩

theorem Suite.trans (h : Suite s s') (h' : Suite s' s'') : Suite s s'' :=
  ⟨h'.durable, h.croit.trans h'.croit⟩

theorem durable_ouvrir (maximum : Int) (magasin : Table Mission.missionId) :
    Durable (ouvrir maximum magasin) where
  cles := List.nodup_nil
  designe := fun _ _ h => nomatch h
  alloues := fun _ _ h => nomatch h
  conserve := fun _ _ h => nomatch h

@[simp] theorem muter_self (s : Memoire) (r : Ref) (m : Mission) : (s.muter r m).objets r = m :=
  Function.update_self _ _ _

theorem objets_muter (s : Memoire) (r r' : Ref) (m : Mission) :
    (s.muter r m).objets r' = if r' = r then m else s.objets r' :=
  Function.update_apply _ _ _ _

@[simp] theorem muter_magasin (s : Memoire) (r : Ref) (m : Mission) :
    (s.muter r m).magasin = s.magasin := rfl

theorem DurableSauf.evincer (h : DurableSauf sauf s) : DurableSauf sauf s.evincer where
  cles := Cache.nodup_evincer h.cles
  designe id r hget := h.designe id r (Cache.get?_of_evincer h.cles hget)
  alloues id r hget := h.alloues id r (Cache.get?_of_evincer h.cles hget)
  conserve id r hget := h.conserve id r (Cache.get?_of_evincer h.cles hget)

theorem objets_allouer (h : DurableSauf sauf s) (m : Mission) (hget : s.missions.get? id = some r) :
    (s.allouer m).objets r = s.objets r :=
  Function.update_of_ne (Nat.ne_of_lt (h.alloues id r hget)) _ _

theorem DurableSauf.allouer (h : DurableSauf sauf s) (m : Mission) :
    DurableSauf sauf (s.allouer m) := by
  refine ⟨h.cles, fun id r hget => ?_, fun id r hget => ?_, fun id r hget => ?_⟩
  · rw [objets_allouer h m hget]
    exact h.designe id r hget
  · exact Nat.lt_succ_of_lt (h.alloues id r hget)
  · rw [objets_allouer h m hget]
    exact h.conserve id r hget

theorem designe_muter (h : Durable s) (hid : m.missionId = (s.objets r).missionId)
    {r' : Ref} (hget : s.missions.get? id = some r') :
    ((s.muter r m).objets r').missionId = id := by
  rw [objets_muter]
  split
  · next heq =>
      subst heq
      rw [hid]
      exact h.designe id r' hget
  · exact h.designe id r' hget

theorem Durable.muter_sauf (h : Durable s) (hid : m.missionId = (s.objets r).missionId) :
    DurableSauf (· = m.missionId) (s.muter r m) := by
  refine ⟨h.cles, fun id r' hget => designe_muter h hid hget, h.alloues,
    fun id r' hget hne => ?_⟩
  have hautre : r' ≠ r := by
    rintro rfl
    exact hne ((h.designe id r' hget).symm.trans hid.symm)
  rw [objets_muter, if_neg hautre]
  exact h.conserve id r' hget not_false

theorem Durable.muter (h : Durable s) (hid : m.missionId = (s.objets r).missionId)
    (hm : estTerminal m.status = true →
      m.status = (s.objets r).status ∨ Conserve s.magasin m) : Durable (s.muter r m) := by
  refine ⟨h.cles, fun id r' hget => designe_muter h hid hget, h.alloues, fun id r' hget _ => ?_⟩
  rw [objets_muter]
  split
  · next hr =>
      subst hr
      intro hterminal
      rcases hm hterminal with hsame | hconserve
      · rw [hsame] at hterminal
        obtain ⟨m', hlu, hstatus⟩ := h.conserve id r' hget not_false hterminal
        rw [← hid] at hlu
        exact ⟨m', hlu, hstatus.trans hsame.symm⟩
      · exact hconserve
  · exact h.conserve id r' hget not_false

theorem DurableSauf.poser (h : DurableSauf (· = id) s) (hid : (s.objets r).missionId = id)
    (hr : r < s.prochain)
    (hm : estTerminal (s.objets r).status = true → Conserve s.magasin (s.objets r)) :
    Durable (s.poser id r) := by
  apply DurableSauf.evincer
  have hlu : ∀ k r', (s.missions.setLast id r).get? k = some r' →
      k = id ∧ r' = r ∨ k ≠ id ∧ s.missions.get? k = some r' := by
    intro k r' hget
    rw [Dict.get?_setLast] at hget
    split at hget
    · next hk =>
        cases hget
        exact .inl ⟨hk, rfl⟩
    · next hk => exact .inr ⟨hk, hget⟩
  refine ⟨Dict.nodup_keys_setLast h.cles id r, fun k r' hget => ?_, fun k r' hget => ?_,
    fun k r' hget _ => ?_⟩
  · rcases hlu k r' hget with ⟨rfl, rfl⟩ | ⟨_, hget⟩
    · exact hid
    · exact h.designe k r' hget
  · rcases hlu k r' hget with ⟨_, rfl⟩ | ⟨_, hget⟩
    · exact hr
    · exact h.alloues k r' hget
  · rcases hlu k r' hget with ⟨_, rfl⟩ | ⟨hne, hget⟩
    · exact hm
    · exact h.conserve k r' hget hne

theorem conserve_enregistrer (s : Memoire) (r : Ref) :
    Conserve (s.enregistrer r).magasin (s.objets r) :=
  ⟨s.objets r, by rw [enregistrer, Table.lire_deposer, if_pos rfl], rfl⟩

theorem DurableSauf.enregistrer (h : DurableSauf (· = (s.objets r).missionId) s) :
    DurableSauf (· = (s.objets r).missionId) (s.enregistrer r) := by
  refine ⟨h.cles, h.designe, h.alloues, fun id r' hget hne hterminal => ?_⟩
  obtain ⟨m', hlu, hstatus⟩ := h.conserve id r' hget hne hterminal
  have hid := h.designe id r' hget
  refine ⟨m', ?_, hstatus⟩
  show (s.magasin.deposer (s.objets r)).lire (s.objets r').missionId = some m'
  rw [Table.lire_deposer, if_neg, hlu]
  rw [hid]
  exact hne

theorem DurableSauf.ecrire (h : DurableSauf (· = (s.objets r).missionId) s)
    (hr : r < s.prochain) : Durable ((s.enregistrer r).poser (s.objets r).missionId r) :=
  h.enregistrer.poser rfl hr fun _ => conserve_enregistrer s r

theorem Durable.affaiblir (h : Durable s) : DurableSauf sauf s :=
  ⟨h.cles, h.designe, h.alloues, fun id r hget _ => h.conserve id r hget not_false⟩

theorem suite_setItem (h : Durable s) (hr : r < s.prochain)
    (hm : estTerminal (s.objets r).status = true → accepte (s.objets r) = true ∨
      Conserve s.magasin (s.objets r)) : Suite s (s.setItem r accepte) := by
  unfold setItem
  split
  · exact ⟨h.affaiblir.ecrire hr, le_refl _⟩
  · next hrefus =>
      refine ⟨h.affaiblir.poser rfl hr fun hterminal => ?_, le_refl _⟩
      exact (hm hterminal).resolve_left hrefus

theorem suite_transition (accepte : Mission → Bool) (h : Durable s) (hr : r < s.prochain)
    (hid : m.missionId = (s.objets r).missionId)
    (hm : estTerminal m.status = true → m.status = (s.objets r).status ∨ accepte m = true ∨
      Conserve s.magasin m) : Suite s (s.transition r m accepte).1 := by
  unfold transition persister
  rw [muter_self]
  split
  · have hsauf := h.muter_sauf hid
    have hecrit := DurableSauf.ecrire (s := s.muter r m) (r := r) (by rwa [muter_self]) hr
    rw [muter_self] at hecrit
    exact ⟨hecrit, le_refl _⟩
  · next hrefus =>
      refine ⟨h.muter hid fun hterminal => ?_, le_refl _⟩
      rcases hm hterminal with hsame | haccepte | hconserve
      · exact .inl hsame
      · exact absurd haccepte hrefus
      · exact .inr hconserve

theorem transition_objets (s : Memoire) (r : Ref) (m : Mission) (accepte : Mission → Bool) :
    (s.transition r m accepte).1.objets r = m := by
  unfold transition persister
  split <;> exact muter_self s r m

theorem conserve_of_lire (h : s.magasin.lire id = some m) : Conserve s.magasin m := by
  have hid := Table.cle_of_lire h
  subst hid
  exact ⟨m, h, rfl⟩

theorem allouer_self (s : Memoire) (m : Mission) : (s.allouer m).objets s.prochain = m :=
  Function.update_self _ _ _

theorem suite_relire (h : Durable s) (id : String) : Suite s (s.relire id).2 := by
  unfold relire
  split
  · exact .refl h
  · next m hlu =>
      refine ⟨DurableSauf.poser (Durable.affaiblir (h.allouer m)) ?_ (Nat.lt_succ_self _)
        fun _ => ?_, Nat.le_succ _⟩
      · rw [allouer_self]
        exact Table.cle_of_lire hlu
      · rw [allouer_self]
        exact conserve_of_lire hlu

theorem getItem_cache (h : s.missions.get? id = some r) : s.getItem id = (some r, s) := by
  unfold getItem
  rw [h]

theorem getItem_absent (h : s.missions.get? id = none) : s.getItem id = s.relire id := by
  unfold getItem
  rw [h]

theorem suite_getItem (h : Durable s) (id : String) : Suite s (s.getItem id).2 := by
  unfold getItem
  split
  · exact .refl h
  · exact suite_relire h id

theorem getItem_alloue (h : Durable s) (hget : (s.getItem id).1 = some r) :
    r < (s.getItem id).2.prochain := by
  unfold getItem relire at hget ⊢
  split at hget
  · next hcache =>
      cases hget
      exact h.alloues id _ hcache
  · split at hget
    · cases hget
    · cases hget
      exact Nat.lt_succ_self _

theorem suite_ajouter (h : Durable s) (hlu : s.magasin.lire m.missionId = some m) :
    Suite s (s.ajouter m) := by
  have hnext := h.allouer m
  have hentree : ∀ k r, (Dict.setDefault s.missions m.missionId s.prochain).get? k = some r →
      s.missions.get? k = some r ∨ k = m.missionId ∧ r = s.prochain := by
    intro k r hget
    rw [Dict.get?_setDefault] at hget
    cases hk : s.missions.get? k with
    | some r' =>
        rw [hk, Option.some_or] at hget
        exact .inl hget
    | none =>
        rw [hk, Option.none_or] at hget
        split at hget
        · next heq =>
            cases hget
            exact .inr ⟨heq, rfl⟩
        · cases hget
  refine ⟨⟨Dict.nodup_keys_setDefault h.cles _ _, fun k r hget => ?_, fun k r hget => ?_,
    fun k r hget _ => ?_⟩, Nat.le_succ _⟩
  · rcases hentree k r hget with hget | ⟨rfl, rfl⟩
    · exact hnext.designe k r hget
    · exact congrArg Mission.missionId (allouer_self s m)
  · rcases hentree k r hget with hget | ⟨_, rfl⟩
    · exact hnext.alloues k r hget
    · exact Nat.lt_succ_self _
  · rcases hentree k r hget with hget | ⟨_, rfl⟩
    · exact hnext.conserve k r hget not_false
    · intro _
      show Conserve s.magasin ((s.allouer m).objets s.prochain)
      rw [allouer_self]
      exact conserve_of_lire hlu

theorem suite_ajouter_tous {recentes : List Mission}
    (hlus : ∀ m ∈ recentes, s.magasin.lire m.missionId = some m) (h : Durable s) :
    Suite s (recentes.foldl ajouter s) := by
  induction recentes generalizing s with
  | nil => exact .refl h
  | cons m recentes ih =>
      have hfirst := suite_ajouter h (hlus m List.mem_cons_self)
      exact hfirst.trans (ih (fun m' hm' => hlus m' (List.mem_cons_of_mem _ hm')) hfirst.durable)

theorem suite_hydrater (h : Durable s) (ordre : List String) : Suite s (s.hydrater ordre) := by
  unfold hydrater
  split
  · exact .refl h
  · have hdrapeau : Durable { s with hydrate := true } :=
      ⟨h.cles, h.designe, h.alloues, h.conserve⟩
    have hlus : ∀ m ∈ (Cache.prefixe s.maximum (ordre.filterMap s.magasin.lire)).reverse,
        s.magasin.lire m.missionId = some m := by
      intro m hm
      obtain ⟨id, _, hlu⟩ := List.mem_filterMap.mp (Cache.mem_prefixe (List.mem_reverse.mp hm))
      rw [Table.cle_of_lire hlu, hlu]
    have hsuite := suite_ajouter_tous (s := { s with hydrate := true }) hlus hdrapeau
    exact ⟨hsuite.durable.evincer, hsuite.croit⟩

/-- Each terminal mission of the cache is stored with its status, and is read with it once the
cache has let it go. -/
def Relisible (s : Memoire) : Prop :=
  ∀ id r, s.missions.get? id = some r → estTerminal (s.objets r).status = true →
    (∃ m, s.magasin.lire id = some m ∧ m.status = (s.objets r).status) ∧
    ∃ r', ((s.oublier id).getItem id).1 = some r' ∧
      (((s.oublier id).getItem id).2.objets r').status = (s.objets r).status

theorem Durable.relisible (h : Durable s) : Relisible s := by
  intro id r hget hterminal
  obtain ⟨m, hlu, hstatus⟩ := h.conserve id r hget not_false hterminal
  rw [h.designe id r hget] at hlu
  refine ⟨⟨m, hlu, hstatus⟩, s.prochain, ?_⟩
  have houbli : (s.oublier id).missions.get? id = none := by
    show (s.missions.erase id).get? id = none
    rw [Dict.get?_erase, if_pos rfl]
  have hitem : (s.oublier id).getItem id =
      (some s.prochain, ((s.oublier id).allouer m).poser id s.prochain) := by
    unfold getItem relire
    rw [houbli]
    show (match s.magasin.lire id with | none => _ | some m => _) = _
    rw [hlu]
    rfl
  rw [hitem]
  refine ⟨rfl, ?_⟩
  show (((s.oublier id).allouer m).objets s.prochain).status = _
  rw [show s.prochain = (s.oublier id).prochain from rfl, allouer_self]
  exact hstatus

end Registre

end Memoire

end Hermes
