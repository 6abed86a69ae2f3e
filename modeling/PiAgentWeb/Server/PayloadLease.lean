import Mathlib.Data.List.Nodup
import PiAgentWeb.Protocol.ContentRefs

/-!
# Payload leases and their transfers

`createLease` and `createTransfer` of `pi-payload-externalizer.ts`. A lease owns the content holds
of one externalized payload until it is released or moved into its only transfer; the transfer is
a one-shot token that is adopted or released. The pool keeps every lease that was ever created; a
hold is made for one lease.
-/

namespace PiAgentWeb

/-- The state of a lease. -/
inductive PayloadLeaseState where
  | provisional
  | releasing
  | released
  | transferred
  deriving DecidableEq

/-- The state of a transfer. -/
inductive PayloadTransferState where
  | pending
  | adopting
  | adopted
  | releasing
  | released
  deriving DecidableEq

/-- A lease with its transfer, which exists once the lease is transferred, and the progress of
`releaseHolds`, which only one of the two ever runs: the holds whose release is still to be
settled, the first of them in flight, and whether one failed. -/
structure PiPayloadLease where
  holds : List EpochContentHold
  state : PayloadLeaseState := .provisional
  transfer : PayloadTransferState := .pending
  unsettled : List EpochContentHold := []
  releaseFailed : Bool := false
  deriving DecidableEq

namespace PiPayloadLease

/-- `refs` of a lease and of its transfer. -/
def refs (lease : PiPayloadLease) : List EpochStoredContentRef := lease.holds.map (·.ref)

/-- `transfer()` of a lease; it throws unless the lease is provisional. -/
def toTransfer (lease : PiPayloadLease) : Option PiPayloadLease :=
  if lease.state = .provisional then some { lease with state := .transferred } else none

/-- `release()` of a lease: only a provisional lease starts to release its holds. -/
def release (lease : PiPayloadLease) : PiPayloadLease :=
  if lease.state = .provisional then
    { lease with state := .releasing, unsettled := lease.holds.reverse }
  else lease

/-- The transfer can be adopted. -/
def adoptable (lease : PiPayloadLease) : Bool :=
  lease.state == .transferred && lease.transfer == .pending

/-- `adopt` of the transfer with an owner's callback, which returns the owner or throws: the
transfer is adopted exactly when the callback succeeds, and is pending again otherwise. -/
def adopt {O : Type*} (lease : PiPayloadLease) (accept : Option O) : PiPayloadLease × Option O :=
  if lease.adoptable then
    match accept with
    | some owner => ({ lease with transfer := .adopted }, some owner)
    | none => (lease, none)
  else (lease, none)

/-- `release()` of the transfer; while it is being adopted it throws. -/
def releaseTransfer (lease : PiPayloadLease) : PiPayloadLease :=
  if lease.adoptable then
    { lease with transfer := .releasing, unsettled := lease.holds.reverse }
  else lease

/-- The end of `releaseHolds`, of the lease or of its transfer. -/
def finishRelease (lease : PiPayloadLease) : PiPayloadLease :=
  { lease with
    state := if lease.state = .releasing then .released else lease.state
    transfer := if lease.transfer = .releasing then .released else lease.transfer }

/-- One iteration of `releaseHolds`: the release in flight is settled, a failure is remembered,
and after the last one the release has ended. -/
def settleRelease (lease : PiPayloadLease) (succeeded : Bool) : PiPayloadLease :=
  match lease.unsettled with
  | [] => lease.finishRelease
  | _ :: rest =>
    let settled :=
      { lease with unsettled := rest, releaseFailed := lease.releaseFailed || !succeeded }
    if rest = [] then settled.finishRelease else settled

end PiPayloadLease

/-- The leases that were ever created. -/
abbrev PayloadPool := List PiPayloadLease

namespace PayloadPool

/-- All holds of the pool. -/
def holds (pool : PayloadPool) : List EpochContentHold := pool.flatMap (·.holds)

/-- A new lease for holds that are objects of their own. -/
def create (pool : PayloadPool) (holds : List EpochContentHold) : PayloadPool :=
  if holds.Nodup ∧ ∀ hold ∈ holds, hold ∉ PayloadPool.holds pool then
    pool ++ [{ holds := holds }]
  else pool

theorem index_unique {pool : PayloadPool} (h : (holds pool).Nodup) {i j : ℕ}
    {first second : PiPayloadLease} (hfirst : pool[i]? = some first)
    (hsecond : pool[j]? = some second) {hold : EpochContentHold} (hi : hold ∈ first.holds)
    (hj : hold ∈ second.holds) : i = j := by
  have hpairwise := (List.nodup_flatMap.mp h).2
  obtain ⟨hilt, rfl⟩ := List.getElem?_eq_some_iff.mp hfirst
  obtain ⟨hjlt, rfl⟩ := List.getElem?_eq_some_iff.mp hsecond
  rcases Nat.lt_trichotomy i j with hlt | heq | hlt
  · exact absurd hj ((List.pairwise_iff_getElem.mp hpairwise i j hilt hjlt hlt) hi)
  · exact heq
  · exact absurd hi ((List.pairwise_iff_getElem.mp hpairwise j i hjlt hilt hlt) hj)

theorem lease_nodup {pool : PayloadPool} (h : (holds pool).Nodup) {lease : PiPayloadLease}
    (hlease : lease ∈ pool) : lease.holds.Nodup :=
  (List.nodup_flatMap.mp h).1 lease hlease

theorem nodup_create {pool : PayloadPool} (h : (holds pool).Nodup)
    (new : List EpochContentHold) : (holds (create pool new)).Nodup := by
  unfold create
  split
  · rename_i hnew
    simp only [holds, List.flatMap_append, List.flatMap_cons, List.flatMap_nil, List.append_nil]
    exact List.nodup_append.mpr
      ⟨h, hnew.1, fun a ha b hb heq => hnew.2 b hb (heq ▸ ha)⟩
  · exact h

/-- One pool arises from another by rewriting each lease where it stands. -/
def Rewrites (pool next : PayloadPool) (f : ℕ → PiPayloadLease → PiPayloadLease) : Prop :=
  ∀ i : ℕ, next[i]? = (pool[i]?).map (f i)

theorem Rewrites.holds {pool next : PayloadPool} {f : ℕ → PiPayloadLease → PiPayloadLease}
    (h : Rewrites pool next f)
    (hholds : ∀ (i : ℕ) lease, pool[i]? = some lease → (f i lease).holds = lease.holds) :
    PayloadPool.holds next = PayloadPool.holds pool := by
  have hmap : next.map (·.holds) = pool.map (·.holds) := by
    refine List.ext_getElem? fun i => ?_
    rw [List.getElem?_map, List.getElem?_map, h i]
    cases hlease : pool[i]? with
    | none => rfl
    | some lease => simp [hholds i lease hlease]
  simp only [PayloadPool.holds, List.flatMap_def, hmap]

theorem rewrites_set {pool : PayloadPool} {index : ℕ} {lease : PiPayloadLease}
    (hlease : pool[index]? = some lease) (next : PiPayloadLease) :
    Rewrites pool (pool.set index next) fun i lease => if i = index then next else lease := by
  intro i
  rw [List.getElem?_set]
  by_cases hi : index = i
  · subst hi
    obtain ⟨hlt, -⟩ := List.getElem?_eq_some_iff.mp hlease
    simp [hlt]
  · simp [hi, Ne.symm hi]

theorem holds_set {pool : PayloadPool} {index : ℕ} {lease next : PiPayloadLease}
    (hlease : pool[index]? = some lease) (hholds : next.holds = lease.holds) :
    holds (pool.set index next) = holds pool := by
  refine (rewrites_set hlease next).holds fun i other hother => ?_
  split
  · rename_i hi
    rw [hi, hlease] at hother
    exact hholds.trans (congrArg PiPayloadLease.holds (Option.some.inj hother))
  · rfl

end PayloadPool

end PiAgentWeb
