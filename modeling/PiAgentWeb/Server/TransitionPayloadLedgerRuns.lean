import PiAgentWeb.Server.GenerationContentOwnerRuns
import PiAgentWeb.Server.TransitionPayloadLedger

/-!
# The custody of transition payloads

Every lease of the pool carries an account of its own release: which of its holds are still to be
settled, and that each of the others was attempted exactly once. The ledger adds the order: the
entries it handed over are a prefix of the admitted ones, and the rest shares one fate.
-/

namespace PiAgentWeb

namespace PiPayloadLease

/-- The release of the lease or of its transfer has begun. -/
def Started (lease : PiPayloadLease) : Prop :=
  lease.state = .releasing ∨ lease.state = .released ∨ lease.transfer = .releasing ∨
    lease.transfer = .released

/-- The account of one lease against the attempted and the released holds. -/
structure Account (lease : PiPayloadLease) (attempted released : List EpochContentHold) : Prop where
  untransferred : lease.state ≠ .transferred → lease.transfer = .pending
  unsettled : lease.unsettled <:+ lease.holds.reverse
  waiting : lease.unsettled ≠ [] → lease.state = .releasing ∨ lease.transfer = .releasing
  attempted_iff : ∀ hold ∈ lease.holds, hold ∈ attempted ↔ lease.Started ∧ hold ∉ lease.unsettled
  failed_iff : lease.releaseFailed = false ↔
    ∀ hold ∈ lease.holds, hold ∈ attempted → hold ∈ released

namespace Account

variable {lease : PiPayloadLease} {attempted released : List EpochContentHold}

theorem not_attempted (h : lease.Account attempted released) (hstarted : ¬lease.Started)
    {hold : EpochContentHold} (hhold : hold ∈ lease.holds) : hold ∉ attempted :=
  fun hattempted => hstarted ((h.attempted_iff hold hhold).mp hattempted).1

theorem all_attempted (h : lease.Account attempted released) (hstarted : lease.Started)
    (hsettled : lease.unsettled = []) {hold : EpochContentHold} (hhold : hold ∈ lease.holds) :
    hold ∈ attempted := by
  rw [h.attempted_iff hold hhold, hsettled]
  exact ⟨hstarted, List.not_mem_nil⟩

theorem transfer (h : lease.Account attempted released) :
    (lease.toTransfer.getD lease).Account attempted released := by
  unfold toTransfer
  split
  · rename_i hprovisional
    have hpending := h.untransferred (by rw [hprovisional]; simp)
    refine ⟨fun hne => absurd rfl hne, h.unsettled, fun hne => ?_, fun hold hhold => ?_,
      h.failed_iff⟩
    · have := h.waiting hne
      rw [hprovisional, hpending] at this
      simp at this
    · rw [h.attempted_iff hold hhold]
      simp [Started, hprovisional, hpending]
  · exact h

theorem start (h : lease.Account attempted released) (hstarted : ¬lease.Started)
    {next : PiPayloadLease} (hholds : next.holds = lease.holds)
    (hunsettled : next.unsettled = lease.holds.reverse)
    (hfailed : next.releaseFailed = lease.releaseFailed)
    (huntransferred : next.state ≠ .transferred → next.transfer = .pending)
    (hnext : next.state = .releasing ∨ next.transfer = .releasing) :
    next.Account attempted released := by
  refine ⟨huntransferred, hholds ▸ hunsettled ▸ List.suffix_refl _, fun _ => hnext,
    fun hold hhold => ?_, ?_⟩
  · rw [hholds] at hhold
    have hnot := h.not_attempted hstarted hhold
    simp [hunsettled, hhold, hnot]
  · rw [hfailed, hholds]
    exact h.failed_iff

theorem release (h : lease.Account attempted released) :
    lease.release.Account attempted released := by
  unfold PiPayloadLease.release
  split
  · rename_i hprovisional
    have hpending := h.untransferred (by rw [hprovisional]; simp)
    exact h.start (by simp [Started, hprovisional, hpending]) rfl rfl rfl (fun _ => hpending)
      (.inl rfl)
  · exact h

theorem releaseTransfer (h : lease.Account attempted released) :
    lease.releaseTransfer.Account attempted released := by
  unfold PiPayloadLease.releaseTransfer
  split
  · rename_i hadoptable
    simp only [adoptable, Bool.and_eq_true, beq_iff_eq] at hadoptable
    refine h.start (by simp [Started, hadoptable]) rfl rfl rfl (fun hne => ?_) (.inr rfl)
    exact absurd hadoptable.1 hne
  · exact h

theorem adopted (h : lease.Account attempted released) (hadoptable : lease.adoptable = true) :
    Account { lease with transfer := .adopted } attempted released := by
  simp only [adoptable, Bool.and_eq_true, beq_iff_eq] at hadoptable
  refine ⟨fun hne => absurd hadoptable.1 hne, h.unsettled, fun hne => ?_, fun hold hhold => ?_,
    h.failed_iff⟩
  · have := h.waiting hne
    simp [hadoptable] at this
  · rw [h.attempted_iff hold hhold]
    simp [Started, hadoptable]

theorem finish (h : lease.Account attempted released) (hsettled : lease.unsettled = []) :
    lease.finishRelease.Account attempted released := by
  refine ⟨fun hne => ?_, h.unsettled, fun hne => absurd hsettled hne, fun hold hhold => ?_,
    h.failed_iff⟩
  · have hpending : lease.transfer = .pending := h.untransferred fun heq => by
      simp [finishRelease, heq] at hne
    simp [finishRelease, hpending]
  · rw [h.attempted_iff hold hhold]
    refine and_congr_left fun _ => ?_
    cases hstate : lease.state <;> cases htransfer : lease.transfer <;>
      simp [Started, finishRelease, hstate, htransfer]

theorem frame (h : lease.Account attempted released) {more moreReleased : List EpochContentHold}
    (hmore : ∀ hold ∈ lease.holds, hold ∉ more) (hreleased : ∀ hold ∈ moreReleased, hold ∈ more) :
    lease.Account (attempted ++ more) (released ++ moreReleased) := by
  refine ⟨h.untransferred, h.unsettled, h.waiting, fun hold hhold => ?_, ?_⟩
  · rw [List.mem_append, or_iff_left (hmore hold hhold), h.attempted_iff hold hhold]
  · rw [h.failed_iff]
    refine forall₂_congr fun hold hhold => ?_
    rw [List.mem_append, List.mem_append, or_iff_left (hmore hold hhold),
      or_iff_left fun hmem => hmore hold hhold (hreleased hold hmem)]

/-- One settled release: its hold is attempted now, and released if it succeeded. -/
theorem settleRelease (h : lease.Account attempted released) (hnodup : lease.holds.Nodup)
    (hsub : ∀ hold ∈ released, hold ∈ attempted) (succeeded : Bool) :
    (lease.settleRelease succeeded).Account (attempted ++ lease.unsettled.take 1)
      (if succeeded then released ++ lease.unsettled.take 1 else released) := by
  unfold PiPayloadLease.settleRelease
  split
  · rename_i hsettled
    have hfinish := h.finish hsettled
    cases succeeded <;> simpa [hsettled] using hfinish
  · rename_i hold rest hunsettled
    have hsuffix := h.unsettled
    rw [hunsettled] at hsuffix
    have hwait := h.waiting (by rw [hunsettled]; simp)
    have hstarted : lease.Started := by
      rcases hwait with hwait | hwait
      · exact .inl hwait
      · exact .inr (.inr (.inl hwait))
    have hmem : hold ∈ lease.holds :=
      List.mem_reverse.mp (hsuffix.subset (List.mem_cons_self ..))
    have hnodup' : (hold :: rest).Nodup := (List.nodup_reverse.mpr hnodup).sublist hsuffix.sublist
    have hnot : hold ∉ attempted := fun hattempted =>
      ((h.attempted_iff hold hmem).mp hattempted).2
        (by rw [hunsettled]; exact List.mem_cons_self ..)
    have hsettled : Account
        { lease with unsettled := rest, releaseFailed := lease.releaseFailed || !succeeded }
        (attempted ++ [hold]) (if succeeded then released ++ [hold] else released) := by
      refine ⟨h.untransferred, (List.suffix_cons hold rest).trans hsuffix, fun _ => hwait,
        fun other hother => ?_, ?_⟩
      · have hiff := h.attempted_iff other hother
        rw [hunsettled, List.mem_cons, not_or] at hiff
        rw [List.mem_append, List.mem_singleton, hiff]
        constructor
        · rintro (⟨_, _, hrest⟩ | rfl)
          · exact ⟨hstarted, hrest⟩
          · exact ⟨hstarted, (List.nodup_cons.mp hnodup').1⟩
        · rintro ⟨_, hrest⟩
          by_cases heq : other = hold
          · exact .inr heq
          · exact .inl ⟨hstarted, heq, hrest⟩
      · cases succeeded with
        | true =>
          simp only [Bool.not_true, Bool.or_false, if_true]
          rw [h.failed_iff]
          refine forall₂_congr fun other hother => ?_
          rw [List.mem_append, List.mem_append, List.mem_singleton]
          constructor
          · rintro hreleased (hattempted | heq)
            · exact .inl (hreleased hattempted)
            · exact .inr heq
          · intro hreleased hattempted
            exact (hreleased (.inl hattempted)).resolve_right fun heq => hnot (heq ▸ hattempted)
        | false =>
          simp only [Bool.not_false, Bool.or_true, Bool.true_eq_false, false_iff, not_forall]
          exact ⟨hold, hmem, by simp, fun hreleased => hnot (hsub hold hreleased)⟩
    have htake : lease.unsettled.take 1 = [hold] := by rw [hunsettled]; rfl
    dsimp only
    rw [htake]
    split
    · rename_i hrest
      exact hsettled.finish hrest
    · exact hsettled

end Account

end PiPayloadLease

/-! ## Admission and draining -/

namespace TransitionPayloadLedger

theorem admitPayload_error {ledger ledger' : TransitionPayloadLedger}
    {input : TransitionPayloadLedgerAdmission} {failure : TransitionPayloadLedgerError}
    (h : ledger.admitPayload input = .error failure ledger') : ledger' = ledger := by
  unfold admitPayload at h
  split at h
  · cases h
    rfl
  · split at h
    · cases h
      rfl
    · split at h
      · cases h
      · split at h
        · cases h
          rfl
        · cases h

/-- An admission that succeeds: an open ledger stays open, and a transfer that it has not seen
becomes its last entry. -/
theorem admitPayload_ok {ledger ledger' : TransitionPayloadLedger}
    {input : TransitionPayloadLedgerAdmission} (h : ledger.admitPayload input = .ok () ledger') :
    ledger.currentState = .open ∧ ledger'.currentState = .open ∧
      ledger'.releasePromise = ledger.releasePromise ∧
      match input.transfer with
      | none => ledger'.entries = ledger.entries ∧ ledger'.seenTransfers = ledger.seenTransfers
      | some (transfer, _) => transfer ∉ ledger.seenTransfers ∧
          ledger'.entries = ledger.entries ++ [{ transfer, state := .pending }] ∧
          ledger'.seenTransfers = ledger.seenTransfers ++ [transfer] := by
  unfold admitPayload at h
  split at h
  · cases h
  · rename_i hopen
    rw [not_not] at hopen
    split at h
    · cases h
    · rename_i hlogical
      obtain ⟨_ | ⟨transfer, refs⟩, logicalBytes⟩ := input
      · cases h
        exact ⟨hopen, hopen, rfl, rfl, rfl⟩
      · dsimp only at h
        split at h
        · cases h
        · cases h
          refine ⟨hopen, hopen, rfl, ?_, rfl, rfl⟩
          unfold nextLogicalBytes at hlogical
          split at hlogical
          · cases hlogical
          · split at hlogical
            · cases hlogical
            · rename_i hseen
              simpa using hseen

theorem adopt_owned {owner owner' : GenerationContentOwner} {lease next : PiPayloadLease}
    (h : owner.adopt lease = (next, some owner')) :
    lease.adoptable = true ∧ next = { lease with transfer := .adopted } ∧
      (∀ hold ∈ owner.ownedHolds, hold ∈ owner'.ownedHolds) ∧
      ∀ hold ∈ lease.holds, hold ∈ owner'.ownedHolds := by
  unfold GenerationContentOwner.adopt at h
  split at h
  · cases h
  · unfold PiPayloadLease.adopt at h
    split at h
    · rename_i hadoptable
      cases hprepare : owner.prepareAdoption lease.refs lease.holds with
      | none => rw [hprepare] at h; cases h
      | some prepared =>
        rw [hprepare] at h
        cases h
        have hprepared := GenerationContentOwner.prepareAdoption_prepared hprepare
        refine ⟨hadoptable, rfl, fun hold hhold => ?_, fun hold hhold => ?_⟩
        · simp only [GenerationContentOwner.commitAdoption,
            GenerationContentOwner.enqueueDuplicateCleanup, List.mem_append]
          exact .inl (.inl hhold)
        · simp only [GenerationContentOwner.commitAdoption,
            GenerationContentOwner.enqueueDuplicateCleanup, List.append_assoc]
          exact List.mem_append_right _ (hprepared.perm.mem_iff.mpr hhold)
    · cases h

theorem adopt_none {owner : GenerationContentOwner} {lease next : PiPayloadLease}
    (h : owner.adopt lease = (next, none)) : next = lease := by
  unfold GenerationContentOwner.adopt at h
  split at h
  · cases h
    rfl
  · unfold PiPayloadLease.adopt at h
    split at h
    · split at h
      · cases h
      · cases h
        rfl
    · cases h
      rfl

/-- What the loop of `drainTo` has done: it handed over a prefix of the entries, in order, and left
the rest as it was. -/
structure DrainSplit (pool : PayloadPool) (owner : GenerationContentOwner)
    (entries : List LedgerEntry) (drain : Drain) (handed left : List LedgerEntry) : Prop where
  split : entries = handed ++ left
  marked : drain.entries = handed.map (fun entry => { entry with state := .adopted }) ++ left
  handedOver : drain.handedOver = handed.map (·.transfer)
  ended : drain.succeeded = true → left = []
  rewrites : PayloadPool.Rewrites pool drain.pool fun i lease =>
    if i ∈ handed.map (·.transfer) then { lease with transfer := .adopted } else lease
  adopted : ∀ entry ∈ handed, ∃ lease, pool[entry.transfer]? = some lease ∧
    lease.adoptable = true ∧ ∀ hold ∈ lease.holds, hold ∈ drain.owner.ownedHolds
  kept : ∀ hold ∈ owner.ownedHolds, hold ∈ drain.owner.ownedHolds

theorem DrainSplit.stopped (pool : PayloadPool) (owner : GenerationContentOwner)
    (entries : List LedgerEntry) :
    DrainSplit pool owner entries
      { entries, pool, owner, handedOver := [], succeeded := false } [] entries :=
  ⟨rfl, rfl, rfl, by simp, fun i => by simp, by simp, fun _ h => h⟩

theorem DrainSplit.handed_lease {pool : PayloadPool} {owner : GenerationContentOwner}
    {entries handed left : List LedgerEntry} {drain : Drain}
    (h : DrainSplit pool owner entries drain handed left) {entry : LedgerEntry}
    (hentry : entry ∈ handed) {lease : PiPayloadLease}
    (hlease : pool[entry.transfer]? = some lease) :
    drain.pool[entry.transfer]? = some { lease with transfer := .adopted } := by
  rw [h.rewrites, hlease, Option.map_some]
  dsimp only
  rw [if_pos (List.mem_map.mpr ⟨entry, hentry, rfl⟩)]

theorem DrainSplit.left_lease {pool : PayloadPool} {owner : GenerationContentOwner}
    {entries handed left : List LedgerEntry} {drain : Drain}
    (h : DrainSplit pool owner entries drain handed left) {transfer : ℕ}
    (htransfer : transfer ∉ handed.map (·.transfer)) : drain.pool[transfer]? = pool[transfer]? := by
  rw [h.rewrites]
  dsimp only
  simp only [if_neg htransfer, Option.map_id']

theorem drainEntries_split {entries : List LedgerEntry} (pool : PayloadPool)
    (owner : GenerationContentOwner) (hpending : ∀ entry ∈ entries, entry.state = .pending)
    (hnodup : (entries.map (·.transfer)).Nodup) :
    ∃ handed left, DrainSplit pool owner entries (drainEntries pool owner entries) handed left := by
  induction entries generalizing pool owner with
  | nil => exact ⟨[], [], rfl, rfl, rfl, fun _ => rfl, fun i => by simp [drainEntries], by simp,
      fun _ h => h⟩
  | cons entry rest ih =>
    rw [List.map_cons, List.nodup_cons] at hnodup
    unfold drainEntries
    rw [if_neg (by simp [hpending entry (List.mem_cons_self ..)])]
    split
    · exact ⟨[], _, DrainSplit.stopped ..⟩
    · rename_i lease hlease
      split
      · rename_i next hadopt
        obtain ⟨hlt, hget⟩ := List.getElem?_eq_some_iff.mp hlease
        rw [adopt_none hadopt, ← hget, List.set_getElem_self hlt]
        exact ⟨[], _, DrainSplit.stopped ..⟩
      · rename_i next owner' hadopt
        obtain ⟨hadoptable, rfl, hkept, howned⟩ := adopt_owned hadopt
        have hset := PayloadPool.rewrites_set hlease { lease with transfer := .adopted }
        generalize hpool : pool.set entry.transfer { lease with transfer := .adopted } = pool'
          at hset
        obtain ⟨handed, left, hrest⟩ := @ih pool' owner'
          (fun other hother => hpending other (List.mem_cons_of_mem _ hother)) hnodup.2
        have hother : ∀ other ∈ handed, other.transfer ≠ entry.transfer := fun other hmem heq =>
          hnodup.1 (heq ▸ List.mem_map_of_mem (hrest.split ▸ List.mem_append_left _ hmem))
        refine ⟨entry :: handed, left, by rw [hrest.split]; rfl, ?_, ?_, hrest.ended, ?_, ?_, ?_⟩
        · dsimp only
          rw [hrest.marked]
          rfl
        · dsimp only
          rw [hrest.handedOver]
          rfl
        · intro i
          dsimp only
          rw [hrest.rewrites i, hset i, Option.map_map]
          refine Option.map_congr fun other hmem => ?_
          by_cases hi : i = entry.transfer
          · subst hi
            obtain rfl : other = lease := Option.some.inj (hmem.symm.trans hlease)
            simp
          · simp [hi]
        · intro other hmem
          rcases List.mem_cons.mp hmem with rfl | hmem
          · exact ⟨lease, hlease, hadoptable, fun hold hhold => hrest.kept hold (howned hold hhold)⟩
          · obtain ⟨lease', hlease', hadopted⟩ := hrest.adopted other hmem
            rw [hset other.transfer] at hlease'
            obtain ⟨lease'', hlease'', heq⟩ := Option.map_eq_some_iff.mp hlease'
            dsimp only at heq
            rw [if_neg (hother other hmem)] at heq
            exact ⟨lease', heq ▸ hlease'', hadopted⟩
        · exact fun hold hhold => hrest.kept hold (hkept hold hhold)

end TransitionPayloadLedger

/-! ## Custody over runs -/

namespace LedgerCustody

/-- The state of an entry against the state of its transfer. -/
def EntryMatches : LedgerEntryState → PayloadTransferState → Prop
  | .pending, transfer => transfer = .pending
  | .adopted, transfer => transfer = .adopted
  | .released, transfer => transfer = .releasing ∨ transfer = .released

/-- What can happen to a transferred lease beside adoption and the start of its release: nothing, or
its release comes to an end. -/
def Settles (lease next : PiPayloadLease) : Prop :=
  next.state = .transferred ∧
    ((next.transfer = lease.transfer ∧ next.releaseFailed = lease.releaseFailed) ∨
      (lease.transfer = .releasing ∧ (next.transfer = .releasing ∨ next.transfer = .released)))

/-- The entries that were not handed over share one state. -/
def leftState : TransitionPayloadLedgerState → LedgerEntryState
  | .open | .draining | .drained | .drainFailed => .pending
  | .releasing | .released | .releaseFailed => .released

/-- The transfer of an entry has ended its release, with or without a failure. -/
def Ended (pool : PayloadPool) (entry : LedgerEntry) (failed : Bool) : Prop :=
  ∃ lease, pool[entry.transfer]? = some lease ∧ lease.transfer = .released ∧
    lease.releaseFailed = failed

/-- What the state of the ledger says about the entries that were not handed over and about the
cached promise. -/
def Phase (pool : PayloadPool) (ledger : TransitionPayloadLedger)
    (handed left : List LedgerEntry) : Prop :=
  match ledger.currentState with
  | .open => handed = [] ∧ ledger.releasePromise = none
  | .draining => False
  | .drained => left = [] ∧ ∀ attempts, ledger.releasePromise ≠ some (.pending attempts)
  | .drainFailed => ledger.releasePromise = none
  | .releasing => ledger.releasePromise = some (.pending (left.map (·.transfer)))
  | .released => ledger.releasePromise = some .resolved ∧ ∀ entry ∈ left, Ended pool entry false
  | .releaseFailed => ledger.releasePromise = some .rejected ∧
      (∀ entry ∈ left, ∃ failed, Ended pool entry failed) ∧ ∃ entry ∈ left, Ended pool entry true

theorem Phase.mono {pool next : PayloadPool} {ledger : TransitionPayloadLedger}
    {handed left : List LedgerEntry} (h : Phase pool ledger handed left)
    (hended : ∀ entry ∈ left, ∀ failed, Ended pool entry failed → Ended next entry failed) :
    Phase next ledger handed left := by
  unfold Phase at h ⊢
  cases hstate : ledger.currentState <;> rw [hstate] at h
  case released => exact ⟨h.1, fun entry hentry => hended entry hentry _ (h.2 entry hentry)⟩
  case releaseFailed =>
    refine ⟨h.1, fun entry hentry => ?_, ?_⟩
    · obtain ⟨failed, hfailed⟩ := h.2.1 entry hentry
      exact ⟨failed, hended entry hentry failed hfailed⟩
    · obtain ⟨entry, hentry, hfailed⟩ := h.2.2
      exact ⟨entry, hentry, hended entry hentry _ hfailed⟩
  all_goals exact h

/-- What holds of every custody. -/
structure Sound (c : LedgerCustody) : Prop where
  distinct : (PayloadPool.holds c.pool).Nodup
  attempted_nodup : c.attempted.Nodup
  released_sublist : c.released.Sublist c.attempted
  attempted_mem : ∀ hold ∈ c.attempted, hold ∈ PayloadPool.holds c.pool
  accounts : ∀ (i : ℕ) lease, c.pool[i]? = some lease → lease.Account c.attempted c.released
  seen : c.ledger.seenTransfers = c.ledger.entries.map (·.transfer)
  seen_nodup : c.ledger.seenTransfers.Nodup
  matched : ∀ entry ∈ c.ledger.entries, ∃ lease, c.pool[entry.transfer]? = some lease ∧
    lease.state = .transferred ∧ EntryMatches entry.state lease.transfer
  order : ∃ handed left, c.ledger.entries = handed ++ left ∧
    c.handedOver = handed.map (·.transfer) ∧ (∀ entry ∈ handed, entry.state = .adopted) ∧
    (∀ entry ∈ left, entry.state = leftState c.ledger.currentState) ∧
    Phase c.pool c.ledger handed left
  owned : ∀ entry ∈ c.ledger.entries, entry.state = .adopted → ∃ owner lease,
    c.drainedInto = some owner ∧ c.pool[entry.transfer]? = some lease ∧
      ∀ hold ∈ lease.holds, hold ∈ owner.ownedHolds

namespace Sound

variable {c : LedgerCustody}

theorem ended_rewrite {pool next : PayloadPool} {f : ℕ → PiPayloadLease → PiPayloadLease}
    (hrewrites : PayloadPool.Rewrites pool next f) {entry : LedgerEntry} {failed : Bool}
    (hsettles : ∀ lease, pool[entry.transfer]? = some lease →
      Settles lease (f entry.transfer lease))
    (h : Ended pool entry failed) : Ended next entry failed := by
  obtain ⟨lease, hlease, hreleased, hfailed⟩ := h
  refine ⟨f entry.transfer lease, by rw [hrewrites, hlease]; rfl, ?_⟩
  rcases (hsettles lease hlease).2 with ⟨htransfer, hfailed'⟩ | ⟨hreleasing, -⟩
  · exact ⟨htransfer.trans hreleased, hfailed'.trans hfailed⟩
  · rw [hreleased] at hreleasing
    cases hreleasing

/-- The leases of the pool change, none of the entries' transfers beyond the progress of its
release. -/
theorem rewrite (h : c.Sound) {pool : PayloadPool} {attempted released : List EpochContentHold}
    {f : ℕ → PiPayloadLease → PiPayloadLease} (hrewrites : PayloadPool.Rewrites c.pool pool f)
    (hholds : ∀ (i : ℕ) lease, c.pool[i]? = some lease → (f i lease).holds = lease.holds)
    (haccounts : ∀ (i : ℕ) lease, c.pool[i]? = some lease →
      (f i lease).Account attempted released)
    (hsettles : ∀ entry ∈ c.ledger.entries, ∀ lease, c.pool[entry.transfer]? = some lease →
      lease.state = .transferred → Settles lease (f entry.transfer lease))
    (hnodup : attempted.Nodup) (hsublist : released.Sublist attempted)
    (hmem : ∀ hold ∈ attempted, hold ∈ PayloadPool.holds c.pool) :
    Sound { c with pool, attempted, released } := by
  have hsame := hrewrites.holds hholds
  have hsettles' : ∀ entry ∈ c.ledger.entries, ∀ lease, c.pool[entry.transfer]? = some lease →
      Settles lease (f entry.transfer lease) := by
    intro entry hentry lease hlease
    obtain ⟨lease', hlease', htransferred, -⟩ := h.matched entry hentry
    obtain rfl : lease = lease' := Option.some.inj (hlease.symm.trans hlease')
    exact hsettles entry hentry lease hlease htransferred
  refine ⟨?_, hnodup, hsublist, ?_, ?_, h.seen, h.seen_nodup, ?_, ?_, ?_⟩
  · exact hsame ▸ h.distinct
  · exact fun hold hhold => hsame ▸ hmem hold hhold
  · intro i lease hlease
    rw [hrewrites] at hlease
    obtain ⟨lease', hlease', rfl⟩ := Option.map_eq_some_iff.mp hlease
    exact haccounts i lease' hlease'
  · intro entry hentry
    obtain ⟨lease, hlease, -, hmatches⟩ := h.matched entry hentry
    have hsettle := hsettles' entry hentry lease hlease
    refine ⟨f entry.transfer lease, by dsimp only; rw [hrewrites, hlease]; rfl, hsettle.1, ?_⟩
    rcases hsettle.2 with ⟨htransfer, -⟩ | ⟨hreleasing, hnext⟩
    · exact htransfer ▸ hmatches
    · cases hstate : entry.state <;> rw [hstate, hreleasing] at hmatches
      · cases hmatches
      · cases hmatches
      · exact hnext
  · obtain ⟨handed, left, hentries, hhanded, hadopted, hleft, hphase⟩ := h.order
    exact ⟨handed, left, hentries, hhanded, hadopted, hleft, hphase.mono fun entry hentry failed =>
      ended_rewrite hrewrites (hsettles' entry (hentries ▸ List.mem_append_right _ hentry))⟩
  · intro entry hentry hadopted
    obtain ⟨owner, lease, hdrained, hlease, howned⟩ := h.owned entry hentry hadopted
    refine ⟨owner, f entry.transfer lease, hdrained, by dsimp only; rw [hrewrites, hlease]; rfl, ?_⟩
    rw [hholds _ lease hlease]
    exact howned

theorem onLease (h : c.Sound) (index : ℕ) {f : PiPayloadLease → PiPayloadLease}
    (hholds : ∀ lease, (f lease).holds = lease.holds)
    (haccount : ∀ lease, lease.Account c.attempted c.released →
      (f lease).Account c.attempted c.released)
    (hsettles : index ∈ c.ledger.seenTransfers → ∀ lease, lease.state = .transferred →
      f lease = lease) :
    (c.onLease index f).Sound := by
  unfold LedgerCustody.onLease
  split
  · exact h
  · rename_i lease hlease
    refine h.rewrite (PayloadPool.rewrites_set hlease (f lease)) (fun i other hother => ?_)
      (fun i other hother => ?_) (fun entry hentry other hother htransferred => ?_)
      h.attempted_nodup h.released_sublist h.attempted_mem
    · split
      · rename_i hi
        rw [hi, hlease] at hother
        rw [← Option.some.inj hother]
        exact hholds lease
      · rfl
    · split
      · exact haccount lease (h.accounts index lease hlease)
      · exact h.accounts i other hother
    · split
      · rename_i hi
        rw [hi, hlease] at hother
        obtain rfl := Option.some.inj hother
        have hseen : index ∈ c.ledger.seenTransfers := by
          rw [h.seen, ← hi]
          exact List.mem_map_of_mem hentry
        rw [hsettles hseen lease htransferred]
        exact ⟨htransferred, .inl ⟨rfl, rfl⟩⟩
      · exact ⟨htransferred, .inl ⟨rfl, rfl⟩⟩

theorem createLease (h : c.Sound) (holds : List EpochContentHold) :
    Sound { c with pool := PayloadPool.create c.pool holds } := by
  have hnodup := PayloadPool.nodup_create h.distinct holds
  unfold PayloadPool.create at hnodup ⊢
  split
  · rename_i hnew
    rw [if_pos hnew] at hnodup
    have hextend : ∀ (i : ℕ) lease, c.pool[i]? = some lease →
        (c.pool ++ [{ holds := holds }])[i]? = some lease := by
      intro i lease hlease
      obtain ⟨hlt, -⟩ := List.getElem?_eq_some_iff.mp hlease
      rwa [List.getElem?_append_left hlt]
    refine ⟨hnodup, h.attempted_nodup, h.released_sublist, ?_, ?_, h.seen, h.seen_nodup, ?_, ?_, ?_⟩
    · intro hold hhold
      simp only [PayloadPool.holds, List.flatMap_append, List.mem_append]
      exact .inl (h.attempted_mem hold hhold)
    · intro i lease hlease
      dsimp only at hlease
      rcases Nat.lt_or_ge i c.pool.length with hlt | hge
      · rw [List.getElem?_append_left hlt] at hlease
        exact h.accounts i lease hlease
      · rw [List.getElem?_append_right hge] at hlease
        obtain rfl := List.mem_singleton.mp (List.mem_of_getElem? hlease)
        have hfresh : ∀ hold ∈ holds, hold ∉ c.attempted := fun hold hhold hattempted =>
          hnew.2 hold hhold (h.attempted_mem hold hattempted)
        refine ⟨fun _ => rfl, List.nil_suffix, by simp, fun hold hhold => ?_, ?_⟩
        · simp [PiPayloadLease.Started, hfresh hold hhold]
        · simpa using fun hold hhold hattempted => absurd hattempted (hfresh hold hhold)
    · intro entry hentry
      obtain ⟨lease, hlease, hmatched⟩ := h.matched entry hentry
      exact ⟨lease, hextend _ _ hlease, hmatched⟩
    · obtain ⟨handed, left, hentries, hhanded, hadopted, hleft, hphase⟩ := h.order
      refine ⟨handed, left, hentries, hhanded, hadopted, hleft, hphase.mono ?_⟩
      rintro entry - failed ⟨lease, hlease, hreleased⟩
      exact ⟨lease, hextend _ _ hlease, hreleased⟩
    · intro entry hentry hadopted
      obtain ⟨owner, lease, hdrained, hlease, howned⟩ := h.owned entry hentry hadopted
      exact ⟨owner, lease, hdrained, hextend _ _ hlease, howned⟩
  · exact h

theorem settles_settleRelease {lease : PiPayloadLease} {attempted released : List EpochContentHold}
    (haccount : lease.Account attempted released) (htransferred : lease.state = .transferred)
    (succeeded : Bool) : Settles lease (lease.settleRelease succeeded) := by
  have hfinish : ∀ next : PiPayloadLease, next.state = .transferred →
      next.transfer = lease.transfer → next.releaseFailed = lease.releaseFailed ∨
        lease.transfer = .releasing → Settles lease next.finishRelease := by
    intro next hstate htransfer hfailed
    refine ⟨by simp [PiPayloadLease.finishRelease, hstate], ?_⟩
    by_cases hreleasing : lease.transfer = .releasing
    · exact .inr ⟨hreleasing, .inr (by simp [PiPayloadLease.finishRelease, htransfer, hreleasing])⟩
    · refine .inl ⟨?_, hfailed.resolve_right hreleasing⟩
      simp [PiPayloadLease.finishRelease, htransfer, hreleasing]
  unfold PiPayloadLease.settleRelease
  split
  · exact hfinish lease htransferred rfl (.inl rfl)
  · rename_i hold rest hunsettled
    have hreleasing : lease.transfer = .releasing := by
      have hwait := haccount.waiting (by rw [hunsettled]; simp)
      rw [htransferred] at hwait
      exact hwait.resolve_left (by simp)
    dsimp only
    split
    · exact hfinish _ htransferred rfl (.inr hreleasing)
    · exact ⟨htransferred, .inr ⟨hreleasing, .inl hreleasing⟩⟩

theorem settleRelease (h : c.Sound) {index : ℕ} {lease : PiPayloadLease}
    (hlease : c.pool[index]? = some lease) (succeeded : Bool) :
    Sound { c with
      pool := c.pool.set index (lease.settleRelease succeeded)
      attempted := c.attempted ++ lease.unsettled.take 1
      released := if succeeded then c.released ++ lease.unsettled.take 1 else c.released } := by
  have haccount := h.accounts index lease hlease
  have hmem := List.mem_of_getElem? hlease
  have hlease_holds : ∀ hold ∈ lease.unsettled.take 1, hold ∈ lease.holds := fun hold hhold =>
    List.mem_reverse.mp (haccount.unsettled.subset (List.mem_of_mem_take hhold))
  have hnew : ∀ hold ∈ lease.unsettled.take 1, hold ∉ c.attempted := fun hold hhold hattempted =>
    ((haccount.attempted_iff hold (hlease_holds hold hhold)).mp hattempted).2
      (List.mem_of_mem_take hhold)
  have hframe : ∀ hold ∈ (if succeeded then lease.unsettled.take 1 else []),
      hold ∈ lease.unsettled.take 1 := by
    cases succeeded <;> simp
  refine h.rewrite (PayloadPool.rewrites_set hlease _) (fun i other hother => ?_)
    (fun i other hother => ?_) (fun entry hentry other hother htransferred => ?_) ?_ ?_ ?_
  · split
    · rename_i hi
      rw [hi, hlease] at hother
      rw [← Option.some.inj hother]
      unfold PiPayloadLease.settleRelease
      split
      · rfl
      · dsimp only
        split <;> rfl
    · rfl
  · split
    · exact haccount.settleRelease (PayloadPool.lease_nodup h.distinct hmem)
        (fun hold hhold => h.released_sublist.subset hhold) succeeded
    · rename_i hi
      have hother_holds : ∀ hold ∈ other.holds, hold ∉ lease.unsettled.take 1 :=
        fun hold hhold hunsettled => hi
          (PayloadPool.index_unique h.distinct hother hlease hhold (hlease_holds hold hunsettled))
      have := (h.accounts i other hother).frame hother_holds hframe
      cases succeeded <;> simpa using this
  · split
    · rename_i hi
      rw [hi, hlease] at hother
      obtain rfl := Option.some.inj hother
      exact settles_settleRelease haccount htransferred succeeded
    · exact ⟨htransferred, .inl ⟨rfl, rfl⟩⟩
  · refine List.nodup_append.mpr ⟨h.attempted_nodup, ?_, ?_⟩
    · exact (List.take_sublist _ _).nodup (haccount.unsettled.sublist.nodup
        (List.nodup_reverse.mpr (PayloadPool.lease_nodup h.distinct hmem)))
    · exact fun a ha b hb heq => hnew b hb (heq ▸ ha)
  · cases succeeded
    · exact h.released_sublist.trans (List.sublist_append_left _ _)
    · exact h.released_sublist.append (List.Sublist.refl _)
  · intro hold hhold
    rcases List.mem_append.mp hhold with hold' | hnew'
    · exact h.attempted_mem hold hold'
    · exact List.mem_flatMap.mpr ⟨lease, hmem, hlease_holds hold hnew'⟩

theorem admitPayload (h : c.Sound) (transfer : Option ℕ) (logicalBytes : ℕ) :
    (c.step (.admitPayload transfer logicalBytes)).Sound := by
  dsimp only [LedgerCustody.step]
  split
  · exact h
  · rename_i input hinput
    split
    · rename_i ledger hadmit
      obtain ⟨hopen, hopen', hpromise, hentry⟩ := TransitionPayloadLedger.admitPayload_ok hadmit
      obtain ⟨handed, left, hentries, hhanded, hadopted, hleft, hphase⟩ := h.order
      simp only [Phase, hopen] at hphase
      obtain ⟨rfl, hnone⟩ := hphase
      rw [List.nil_append] at hentries
      subst hentries
      cases transfer with
      | none =>
        obtain rfl := Option.some.inj hinput
        obtain ⟨hsame, hseen⟩ := hentry
        refine ⟨h.distinct, h.attempted_nodup, h.released_sublist, h.attempted_mem, h.accounts, ?_,
          ?_, ?_, ⟨[], ledger.entries, rfl, hhanded, nofun, ?_, ?_⟩, ?_⟩
        · dsimp only; rw [hsame, hseen]; exact h.seen
        · dsimp only; rw [hseen]; exact h.seen_nodup
        · dsimp only; rw [hsame]; exact h.matched
        · dsimp only; rw [hsame, hopen', ← hopen]; exact hleft
        · dsimp only [Phase]; rw [hopen', hpromise]; exact ⟨rfl, hnone⟩
        · dsimp only; rw [hsame]; exact h.owned
      | some index =>
        dsimp only [admission] at hinput
        cases hlease : c.pool[index]? with
        | none => rw [hlease] at hinput; cases hinput
        | some lease =>
          rw [hlease] at hinput
          dsimp only at hinput
          split at hinput
          · rename_i hadoptable
            obtain rfl := Option.some.inj hinput
            obtain ⟨hfresh, hsame, hseen⟩ := hentry
            simp only [PiPayloadLease.adoptable, Bool.and_eq_true, beq_iff_eq] at hadoptable
            have hmem : ∀ entry ∈ ledger.entries, entry ∈ c.ledger.entries ∨
                entry = { transfer := index, state := .pending } := by
              intro entry hentry
              rw [hsame] at hentry
              simpa using hentry
            refine ⟨h.distinct, h.attempted_nodup, h.released_sublist, h.attempted_mem, h.accounts,
              ?_, ?_, ?_, ⟨[], ledger.entries, rfl, hhanded, nofun, ?_, ?_⟩, ?_⟩
            · dsimp only
              rw [hsame, hseen, h.seen, List.map_append]
              rfl
            · dsimp only
              rw [hseen, List.nodup_append_comm]
              exact List.nodup_cons.mpr ⟨hfresh, h.seen_nodup⟩
            · intro entry hentry
              rcases hmem entry hentry with hold | rfl
              · exact h.matched entry hold
              · exact ⟨lease, hlease, hadoptable⟩
            · intro entry hentry
              dsimp only
              rw [hopen']
              rcases hmem entry hentry with hold | rfl
              · rw [hleft entry hold, hopen]
              · rfl
            · dsimp only [Phase]
              rw [hopen', hpromise]
              exact ⟨rfl, hnone⟩
            · intro entry hentry hadopted'
              rcases hmem entry hentry with hold | rfl
              · exact h.owned entry hold hadopted'
              · cases hadopted'
          · cases hinput
    · rename_i failure ledger hadmit
      rw [TransitionPayloadLedger.admitPayload_error hadmit]
      exact h

theorem drainTo (h : c.Sound) (owner : GenerationContentOwner) :
    (c.step (.drainTo owner)).Sound := by
  dsimp only [LedgerCustody.step]
  split
  · exact h
  · rename_i hopen
    rw [not_not] at hopen
    obtain ⟨handed, left, hentries, hhanded, -, hleft, hphase⟩ := h.order
    simp only [Phase, hopen] at hphase
    obtain ⟨rfl, hnone⟩ := hphase
    rw [List.nil_append] at hentries
    subst hentries
    simp only [hopen] at hleft
    have hnodup := h.seen_nodup
    rw [h.seen] at hnodup
    obtain ⟨handed, left, hdrain⟩ :=
      TransitionPayloadLedger.drainEntries_split c.pool owner hleft hnodup
    generalize TransitionPayloadLedger.drainEntries c.pool owner c.ledger.entries = drain at hdrain
    have hmap : drain.entries.map (·.transfer) = c.ledger.entries.map (·.transfer) := by
      rw [hdrain.marked, hdrain.split, List.map_append, List.map_append, List.map_map]
      rfl
    rw [hdrain.split, List.map_append] at hnodup
    have hdisjoint := List.disjoint_of_nodup_append hnodup
    have hmem_left : ∀ entry ∈ left, entry ∈ c.ledger.entries := fun entry hentry =>
      hdrain.split ▸ List.mem_append_right _ hentry
    have hholds : ∀ (i : ℕ) lease, c.pool[i]? = some lease →
        (if i ∈ handed.map (·.transfer) then { lease with transfer := .adopted }
          else lease : PiPayloadLease).holds = lease.holds := by
      intro i lease _
      split <;> rfl
    have hsame := hdrain.rewrites.holds hholds
    -- the entries after the drain: those handed over, and those left as they were
    have hcases : ∀ entry ∈ drain.entries,
        (∃ old ∈ handed, entry = { old with state := .adopted }) ∨ entry ∈ left := by
      intro entry hentry
      rw [hdrain.marked] at hentry
      refine (List.mem_append.mp hentry).imp (fun hhand => ?_) id
      obtain ⟨old, hold, rfl⟩ := List.mem_map.mp hhand
      exact ⟨old, hold, rfl⟩
    refine ⟨hsame ▸ h.distinct, h.attempted_nodup, h.released_sublist,
      fun hold hhold => hsame ▸ h.attempted_mem hold hhold, ?_, ?_, h.seen_nodup, ?_, ?_, ?_⟩
    · intro i next hnext
      dsimp only at hnext
      rw [hdrain.rewrites] at hnext
      obtain ⟨lease, hlease, rfl⟩ := Option.map_eq_some_iff.mp hnext
      dsimp only
      split
      · rename_i hi
        obtain ⟨entry, hentry, rfl⟩ := List.mem_map.mp hi
        obtain ⟨lease', hlease', hadoptable, -⟩ := hdrain.adopted entry hentry
        obtain rfl : lease = lease' := Option.some.inj (hlease.symm.trans hlease')
        exact (h.accounts _ lease hlease).adopted hadoptable
      · exact h.accounts i lease hlease
    · exact h.seen.trans hmap.symm
    · intro entry hentry
      rcases hcases entry hentry with ⟨old, hold, rfl⟩ | hentry
      · obtain ⟨lease, hlease, hadoptable, -⟩ := hdrain.adopted old hold
        simp only [PiPayloadLease.adoptable, Bool.and_eq_true, beq_iff_eq] at hadoptable
        exact ⟨_, hdrain.handed_lease hold hlease, hadoptable.1, rfl⟩
      · obtain ⟨lease, hlease, hmatched⟩ := h.matched entry (hmem_left entry hentry)
        have hleftLease := hdrain.left_lease fun hhand =>
          hdisjoint hhand (List.mem_map.mpr ⟨entry, hentry, rfl⟩)
        exact ⟨lease, hleftLease.trans hlease, hmatched⟩
    · refine ⟨_, left, hdrain.marked, ?_, ?_, ?_, ?_⟩
      · dsimp only
        rw [hhanded, hdrain.handedOver, List.map_map]
        rfl
      · intro entry hentry
        obtain ⟨old, -, rfl⟩ := List.mem_map.mp hentry
        rfl
      · intro entry hentry
        rw [hleft entry (hmem_left entry hentry)]
        dsimp only [TransitionPayloadLedger.afterDrain]
        split <;> rfl
      · unfold Phase
        dsimp only [TransitionPayloadLedger.afterDrain]
        cases hsucceeded : drain.succeeded with
        | true =>
          refine ⟨hdrain.ended hsucceeded, fun attempts => ?_⟩
          simp [hnone]
        | false => exact hnone
    · intro entry hentry hadopted
      rcases hcases entry hentry with ⟨old, hold, rfl⟩ | hentry
      · obtain ⟨lease, hlease, -, howned⟩ := hdrain.adopted old hold
        exact ⟨drain.owner, _, rfl, hdrain.handed_lease hold hlease, howned⟩
      · rw [hleft entry (hmem_left entry hentry)] at hadopted
        cases hadopted

theorem rewrites_releaseTransfers {starts : List ℕ} (hnodup : starts.Nodup) (pool : PayloadPool) :
    PayloadPool.Rewrites pool
      (starts.foldl (fun pool index => pool.modify index (·.releaseTransfer)) pool)
      fun i lease => if i ∈ starts then lease.releaseTransfer else lease := by
  induction starts generalizing pool with
  | nil =>
    intro i
    simp
  | cons index rest ih =>
    rw [List.nodup_cons] at hnodup
    intro i
    rw [List.foldl_cons, ih hnodup.2, List.getElem?_modify, Option.map_eq_map, Option.map_map]
    refine Option.map_congr fun lease _ => ?_
    by_cases hi : index = i
    · subst hi
      simp [hnodup.1]
    · simp [hi, Ne.symm hi]

/-- The transfers that a release of the remaining ones starts are those of the entries that were
not handed over. -/
theorem pendingTransfers_eq {ledger : TransitionPayloadLedger} {handed left : List LedgerEntry}
    (hentries : ledger.entries = handed ++ left)
    (hadopted : ∀ entry ∈ handed, entry.state = .adopted)
    (hleft : ∀ entry ∈ left, entry.state = .pending) :
    ledger.pendingTransfers = left.map (·.transfer) := by
  have hhanded : handed.filter (·.state == .pending) = [] :=
    List.filter_eq_nil_iff.mpr fun entry hentry => by simp [hadopted entry hentry]
  have hall : left.filter (·.state == .pending) = left :=
    List.filter_eq_self.mpr fun entry hentry => by simp [hleft entry hentry]
  rw [TransitionPayloadLedger.pendingTransfers, hentries, List.filter_append, hhanded, hall,
    List.nil_append]

theorem startRemaining (h : c.Sound)
    (hstate : c.ledger.currentState = .open ∨ c.ledger.currentState = .drainFailed) :
    Sound { c with
      ledger := { c.ledger with
        currentState := .releasing
        entries := c.ledger.entries.map fun entry =>
          if entry.state = .pending then { entry with state := .released } else entry
        releasePromise := some (.pending c.ledger.pendingTransfers) }
      pool := c.ledger.pendingTransfers.foldl
        (fun pool index => pool.modify index (·.releaseTransfer)) c.pool } := by
  obtain ⟨handed, left, hentries, hhanded, hadopted, hleft, -⟩ := h.order
  replace hleft : ∀ entry ∈ left, entry.state = .pending := by
    intro entry hentry
    rw [hleft entry hentry]
    rcases hstate with hstate | hstate <;> rw [hstate] <;> rfl
  have hpending := pendingTransfers_eq hentries hadopted hleft
  have hnodup := h.seen_nodup
  rw [h.seen, hentries, List.map_append] at hnodup
  have hdisjoint := List.disjoint_of_nodup_append hnodup
  have hrewrites := rewrites_releaseTransfers (hpending ▸ hnodup.of_append_right) c.pool
  generalize c.ledger.pendingTransfers.foldl
    (fun pool index => pool.modify index (·.releaseTransfer)) c.pool = pool at hrewrites
  have hholds : ∀ (i : ℕ) lease, c.pool[i]? = some lease →
      (if i ∈ c.ledger.pendingTransfers then lease.releaseTransfer else lease).holds =
        lease.holds := by
    intro i lease _
    unfold PiPayloadLease.releaseTransfer
    split
    · split <;> rfl
    · rfl
  have hsame := hrewrites.holds hholds
  have hsplit : (c.ledger.entries.map fun entry : LedgerEntry =>
      if entry.state = .pending then { entry with state := .released } else entry) =
        handed ++ left.map fun entry => { entry with state := .released } := by
    rw [hentries, List.map_append]
    congr 1
    · conv_rhs => rw [← List.map_id handed]
      refine List.map_congr_left fun entry hentry => ?_
      rw [if_neg (by simp [hadopted entry hentry])]
      rfl
    · refine List.map_congr_left fun entry hentry => ?_
      rw [if_pos (hleft entry hentry)]
  have hmap : (handed ++ left.map fun entry : LedgerEntry =>
      ({ entry with state := .released } : LedgerEntry)).map (·.transfer) =
        c.ledger.entries.map (·.transfer) := by
    rw [hentries, List.map_append, List.map_append, List.map_map]
    rfl
  rw [hsplit]
  have hkept : ∀ entry ∈ handed, pool[entry.transfer]? = c.pool[entry.transfer]? := by
    intro entry hentry
    have hnot : entry.transfer ∉ c.ledger.pendingTransfers := by
      rw [hpending]
      exact fun hmem => hdisjoint (List.mem_map.mpr ⟨entry, hentry, rfl⟩) hmem
    rw [hrewrites]
    simp only [if_neg hnot, Option.map_id']
  refine ⟨hsame ▸ h.distinct, h.attempted_nodup, h.released_sublist,
    fun hold hhold => hsame ▸ h.attempted_mem hold hhold, ?_, h.seen.trans hmap.symm, h.seen_nodup,
    ?_, ⟨handed, _, rfl, hhanded, hadopted, ?_, ?_⟩, ?_⟩
  · intro i next hnext
    dsimp only at hnext
    rw [hrewrites] at hnext
    obtain ⟨lease, hlease, rfl⟩ := Option.map_eq_some_iff.mp hnext
    dsimp only
    split
    · exact (h.accounts i lease hlease).releaseTransfer
    · exact h.accounts i lease hlease
  · intro entry hentry
    rcases List.mem_append.mp hentry with hhand | hrest
    · obtain ⟨lease, hlease, hmatched⟩ :=
        h.matched entry (hentries ▸ List.mem_append_left _ hhand)
      exact ⟨lease, (hkept entry hhand).trans hlease, hmatched⟩
    · obtain ⟨old, hold, rfl⟩ := List.mem_map.mp hrest
      obtain ⟨lease, hlease, htransferred, hmatches⟩ :=
        h.matched old (hentries ▸ List.mem_append_right _ hold)
      rw [hleft old hold] at hmatches
      have hmem : old.transfer ∈ c.ledger.pendingTransfers := by
        rw [hpending]
        exact List.mem_map.mpr ⟨old, hold, rfl⟩
      have hadoptable : lease.adoptable = true := by
        simp only [PiPayloadLease.adoptable, Bool.and_eq_true, beq_iff_eq]
        exact ⟨htransferred, hmatches⟩
      refine ⟨lease.releaseTransfer, ?_, ?_, ?_⟩
      · dsimp only
        rw [hrewrites, hlease, Option.map_some]
        dsimp only
        rw [if_pos hmem]
      all_goals rw [PiPayloadLease.releaseTransfer, if_pos hadoptable]
      · exact htransferred
      · exact .inl rfl
  · intro entry hentry
    obtain ⟨old, -, rfl⟩ := List.mem_map.mp hentry
    rfl
  · dsimp only [Phase]
    rw [hpending, List.map_map]
    rfl
  · intro entry hentry hstate'
    rcases List.mem_append.mp hentry with hhand | hrest
    · obtain ⟨owner, lease, hdrained, hlease, howned⟩ :=
        h.owned entry (hentries ▸ List.mem_append_left _ hhand) hstate'
      exact ⟨owner, lease, hdrained, (hkept entry hhand).trans hlease, howned⟩
    · obtain ⟨old, -, rfl⟩ := List.mem_map.mp hrest
      cases hstate'

theorem releaseRemaining (h : c.Sound) : (c.step .releaseRemaining).Sound := by
  obtain ⟨handed, left, hentries, hhanded, hadopted, hleft, hphase⟩ := h.order
  by_cases hstarts : c.ledger.releasePromise = none ∧
      (c.ledger.currentState = .open ∨ c.ledger.currentState = .drainFailed)
  · have hledger : c.ledger.releaseRemaining = { c.ledger with
        currentState := .releasing
        entries := c.ledger.entries.map fun entry =>
          if entry.state = .pending then { entry with state := .released } else entry
        releasePromise := some (.pending c.ledger.pendingTransfers) } := by
      unfold TransitionPayloadLedger.releaseRemaining
      obtain ⟨hnone, hstate | hstate⟩ := hstarts <;> simp [hnone, hstate]
    dsimp only [LedgerCustody.step]
    rw [hledger, TransitionPayloadLedger.releaseStarts, if_pos hstarts]
    exact h.startRemaining hstarts.2
  · have hpool : (c.step .releaseRemaining) = { c with ledger := c.ledger.releaseRemaining } := by
      simp only [LedgerCustody.step, TransitionPayloadLedger.releaseStarts, if_neg hstarts,
        List.foldl_nil]
    rw [hpool]
    unfold TransitionPayloadLedger.releaseRemaining
    split
    · exact h
    · rename_i hsome
      have hnone : c.ledger.releasePromise = none := by simpa using hsome
      split
      · rename_i hdone
        have hdrained : c.ledger.currentState = .drained := by
          refine hdone.resolve_right fun hreleased => ?_
          simp only [Phase, hreleased, hnone] at hphase
          cases hphase.1
        refine ⟨h.distinct, h.attempted_nodup, h.released_sublist, h.attempted_mem, h.accounts,
          h.seen, h.seen_nodup, h.matched,
          ⟨handed, left, hentries, hhanded, hadopted, hleft, ?_⟩, h.owned⟩
        simp only [Phase, hdrained] at hphase ⊢
        exact ⟨hphase.1, nofun⟩
      · split
        · exact h
        · rename_i hnot
          rw [not_and_or, not_not, not_not] at hnot
          exact absurd ⟨hnone, hnot⟩ hstarts

theorem settleRemaining (h : c.Sound) : (c.step .settleRemaining).Sound := by
  obtain ⟨handed, left, hentries, hhanded, hadopted, hleft, hphase⟩ := h.order
  dsimp only [LedgerCustody.step, TransitionPayloadLedger.settleRemaining]
  split
  · rename_i attempts hpromise
    have hreleasing : c.ledger.currentState = .releasing := by
      unfold Phase at hphase
      cases hstate : c.ledger.currentState <;> rw [hstate] at hphase
      case draining => exact hphase.elim
      case drained => exact absurd hpromise (hphase.2 attempts)
      case «open» => rw [hphase.2] at hpromise; cases hpromise
      case drainFailed => rw [hphase] at hpromise; cases hpromise
      all_goals rw [hphase.1] at hpromise; cases hpromise
    simp only [Phase, hreleasing] at hphase
    obtain rfl : left.map (·.transfer) = attempts := by
      rw [hphase] at hpromise
      exact RemainingRelease.pending.inj (Option.some.inj hpromise)
    split
    · rename_i hall
      have hended : ∀ entry ∈ left, ∃ failed, Ended c.pool entry failed := by
        intro entry hentry
        obtain ⟨lease, hlease, -⟩ := h.matched entry (hentries ▸ List.mem_append_right _ hentry)
        have hmem : lease ∈ (left.map (·.transfer)).filterMap (c.pool[·]?) :=
          List.mem_filterMap.mpr ⟨entry.transfer, List.mem_map.mpr ⟨entry, hentry, rfl⟩, hlease⟩
        exact ⟨lease.releaseFailed, lease, hlease,
          by simpa using List.all_eq_true.mp hall lease hmem, rfl⟩
      split
      · rename_i hany
        refine ⟨h.distinct, h.attempted_nodup, h.released_sublist, h.attempted_mem, h.accounts,
          h.seen, h.seen_nodup, h.matched,
          ⟨handed, left, hentries, hhanded, hadopted, ?_, rfl, hended, ?_⟩, h.owned⟩
        · simp only [hreleasing] at hleft
          exact hleft
        · obtain ⟨lease, hlease, hfailed⟩ := List.any_eq_true.mp hany
          obtain ⟨transfer, htransfer, hget⟩ := List.mem_filterMap.mp hlease
          obtain ⟨entry, hentry, rfl⟩ := List.mem_map.mp htransfer
          exact ⟨entry, hentry, lease, hget,
            by simpa using List.all_eq_true.mp hall lease hlease, hfailed⟩
      · rename_i hnone
        refine ⟨h.distinct, h.attempted_nodup, h.released_sublist, h.attempted_mem, h.accounts,
          h.seen, h.seen_nodup, h.matched,
          ⟨handed, left, hentries, hhanded, hadopted, ?_, rfl, ?_⟩, h.owned⟩
        · simp only [hreleasing] at hleft
          exact hleft
        · intro entry hentry
          obtain ⟨failed, lease, hlease, hreleased, hfailed⟩ := hended entry hentry
          refine ⟨lease, hlease, hreleased, ?_⟩
          have hmem : lease ∈ (left.map (·.transfer)).filterMap (c.pool[·]?) :=
            List.mem_filterMap.mpr ⟨entry.transfer, List.mem_map.mpr ⟨entry, hentry, rfl⟩, hlease⟩
          by_contra hne
          exact hnone (List.any_eq_true.mpr ⟨lease, hmem, by simpa using hne⟩)
    · exact h
  · exact h

theorem step (h : c.Sound) (action : LedgerAction) : (c.step action).Sound := by
  cases action with
  | createLease holds => exact h.createLease holds
  | transfer index =>
    refine h.onLease index (fun lease => ?_) (fun lease haccount => haccount.transfer)
      fun _ lease htransferred => ?_
    · unfold PiPayloadLease.toTransfer
      split <;> rfl
    · simp [PiPayloadLease.toTransfer, htransferred]
  | releaseLease index =>
    refine h.onLease index (fun lease => ?_) (fun lease haccount => haccount.release)
      fun _ lease htransferred => ?_
    · unfold PiPayloadLease.release
      split <;> rfl
    · simp [PiPayloadLease.release, htransferred]
  | releaseTransfer index =>
    dsimp only [LedgerCustody.step]
    split
    · exact h
    · rename_i hseen
      refine h.onLease index (fun lease => ?_) (fun lease haccount => haccount.releaseTransfer)
        fun hseen' => absurd hseen' hseen
      unfold PiPayloadLease.releaseTransfer
      split <;> rfl
  | settleRelease index succeeded =>
    dsimp only [LedgerCustody.step]
    split
    · exact h
    · rename_i lease hlease
      exact h.settleRelease hlease succeeded
  | admitPayload transfer logicalBytes => exact h.admitPayload transfer logicalBytes
  | drainTo owner => exact h.drainTo owner
  | releaseRemaining => exact h.releaseRemaining
  | settleRemaining => exact h.settleRemaining

end Sound

theorem initial_sound {ledger : TransitionPayloadLedger} (hentries : ledger.entries = [])
    (hseen : ledger.seenTransfers = []) (hopen : ledger.currentState = .open)
    (hpromise : ledger.releasePromise = none) : (initial ledger).Sound where
  distinct := List.nodup_nil
  attempted_nodup := List.nodup_nil
  released_sublist := List.Sublist.refl _
  attempted_mem := by simp [initial]
  accounts := by simp [initial]
  seen := by simp [initial, hentries, hseen]
  seen_nodup := by simp [initial, hseen]
  matched := by simp [initial, hentries]
  order := ⟨[], [], hentries, rfl, nofun, nofun, by simp [Phase, initial, hopen, hpromise]⟩
  owned := by simp [initial, hentries]

theorem run_sound (serverEpoch : JsString)
    (maxPhysicalBytes maxPhysicalItems maxHeldItems maxLogicalBytes : ℕ)
    (actions : List LedgerAction) :
    (run serverEpoch maxPhysicalBytes maxPhysicalItems maxHeldItems maxLogicalBytes
      actions).Sound := by
  have hsound : ∀ c : LedgerCustody, c.Sound → (runFrom step c actions).Sound := by
    induction actions with
    | nil => exact fun c h => h
    | cons action rest ih => exact fun c h => ih _ (h.step action)
  exact hsound _ (initial_sound rfl rfl rfl rfl)

/-- A payload that was adopted: it was handed over, the owner has its holds, and the release of
none of them was attempted. -/
def Adopted (c : LedgerCustody) (entry : LedgerEntry) (lease : PiPayloadLease) : Prop :=
  entry.transfer ∈ c.handedOver ∧ ∃ owner, c.drainedInto = some owner ∧
    ∀ hold ∈ lease.holds, hold ∈ owner.ownedHolds ∧ hold ∉ c.attempted

/-- A payload that was given up: its one release attempts every hold, and tells of a failure. -/
def GivenUp (c : LedgerCustody) (entry : LedgerEntry) (lease : PiPayloadLease) : Prop :=
  entry.transfer ∉ c.handedOver ∧ entry.transfer ∉ c.ledger.releaseStarts ∧
    (∀ hold ∈ lease.holds, hold ∈ c.attempted ∨ hold ∈ lease.unsettled) ∧
    (lease.transfer = .released → ∀ hold ∈ lease.holds, hold ∈ c.attempted) ∧
    (lease.releaseFailed = false ↔ ∀ hold ∈ lease.holds, hold ∈ c.attempted → hold ∈ c.released)

/-- A payload that is retained: untouched, and released by a later call of `releaseRemaining`. -/
def Retained (c : LedgerCustody) (entry : LedgerEntry) (lease : PiPayloadLease) : Prop :=
  entry.transfer ∉ c.handedOver ∧ lease.adoptable = true ∧
    (∀ hold ∈ lease.holds, hold ∉ c.attempted) ∧ entry.transfer ∈ c.ledger.releaseStarts

/-- The transfers that a call of `releaseRemaining` would start to release: those that were not
handed over while the ledger is still open or its drain has failed, and none otherwise. -/
theorem releaseStarts_eq {c : LedgerCustody} {handed left : List LedgerEntry}
    (hentries : c.ledger.entries = handed ++ left)
    (hadopted : ∀ entry ∈ handed, entry.state = .adopted)
    (hleft : ∀ entry ∈ left, entry.state = leftState c.ledger.currentState)
    (hphase : Phase c.pool c.ledger handed left) :
    c.ledger.releaseStarts = if leftState c.ledger.currentState = .pending then
      left.map (·.transfer) else [] := by
  unfold TransitionPayloadLedger.releaseStarts
  unfold Phase at hphase
  cases hstate : c.ledger.currentState <;> rw [hstate] at hphase hleft
  case «open» =>
    rw [if_pos ⟨hphase.2, .inl rfl⟩, Sound.pendingTransfers_eq hentries hadopted hleft]
    rfl
  case drainFailed =>
    rw [if_pos ⟨hphase, .inr rfl⟩, Sound.pendingTransfers_eq hentries hadopted hleft]
    rfl
  case draining => exact hphase.elim
  case drained => simp [hphase.1, leftState]
  all_goals simp [leftState]

/-- Custody of the payloads of a transition, after every run of admissions, drains and releases
with any failure of an adoption or a release. The payloads handed over are a prefix of the admitted
ones, in order and each once; after a failed drain exactly the others can still be released. Each
admitted payload was adopted, or given up to its one release, or is retained. No hold is attempted
twice; a ledger that reports its release has released every hold it gave up, and one that reports a
failure left one behind. An admission that throws leaves the ledger as it was. -/
theorem payloads_accounted (serverEpoch : JsString)
    (maxPhysicalBytes maxPhysicalItems maxHeldItems maxLogicalBytes : ℕ)
    (actions : List LedgerAction) :
    let c := run serverEpoch maxPhysicalBytes maxPhysicalItems maxHeldItems maxLogicalBytes actions
    c.handedOver.Nodup ∧
    (∃ handed left, c.ledger.entries = handed ++ left ∧ c.handedOver = handed.map (·.transfer) ∧
      (c.ledger.currentState = .drainFailed → c.ledger.releaseStarts = left.map (·.transfer))) ∧
    (∀ entry ∈ c.ledger.entries, ∃ lease, c.pool[entry.transfer]? = some lease ∧
      match entry.state with
      | .adopted => c.Adopted entry lease
      | .released => c.GivenUp entry lease
      | .pending => c.Retained entry lease) ∧
    c.attempted.Nodup ∧ (∀ hold ∈ c.released, hold ∈ c.attempted) ∧
    (c.ledger.currentState = .released → ∀ entry ∈ c.ledger.entries, entry.state = .released →
      ∀ lease, c.pool[entry.transfer]? = some lease → ∀ hold ∈ lease.holds, hold ∈ c.released) ∧
    (c.ledger.currentState = .releaseFailed → ∃ entry ∈ c.ledger.entries, ∃ lease,
      c.pool[entry.transfer]? = some lease ∧ ∃ hold ∈ lease.holds, hold ∉ c.released) ∧
    ∀ input failure ledger, c.ledger.admitPayload input = .error failure ledger →
      ledger = c.ledger := by
  intro c
  have h : c.Sound := run_sound serverEpoch maxPhysicalBytes maxPhysicalItems maxHeldItems
    maxLogicalBytes actions
  obtain ⟨handed, left, hentries, hhanded, hadopted, hleft, hphase⟩ := h.order
  have hstarts := releaseStarts_eq hentries hadopted hleft hphase
  have hnodup := h.seen_nodup
  rw [h.seen, hentries, List.map_append] at hnodup
  have hdisjoint := List.disjoint_of_nodup_append hnodup
  have hstarted : ∀ lease : PiPayloadLease,
      lease.transfer = .releasing ∨ lease.transfer = .released → lease.Started :=
    fun lease hlease => .inr (.inr hlease)
  have hended : ∀ entry ∈ c.ledger.entries, ∀ lease, c.pool[entry.transfer]? = some lease →
      lease.transfer = .released → ∀ hold ∈ lease.holds, hold ∈ c.attempted := by
    intro entry hentry lease hlease hreleased hold hhold
    have haccount := h.accounts _ lease hlease
    obtain ⟨lease', hlease', htransferred, -⟩ := h.matched entry hentry
    obtain rfl : lease = lease' := Option.some.inj (hlease.symm.trans hlease')
    refine haccount.all_attempted (hstarted lease (.inr hreleased)) ?_ hhold
    by_contra hne
    have hwait := haccount.waiting hne
    rw [htransferred, hreleased] at hwait
    simp at hwait
  refine ⟨hhanded ▸ hnodup.of_append_left, ⟨handed, left, hentries, hhanded, fun hfailed => ?_⟩, ?_,
    h.attempted_nodup, fun hold hhold => h.released_sublist.subset hhold, ?_, ?_,
    fun input failure ledger hadmit => TransitionPayloadLedger.admitPayload_error hadmit⟩
  · rw [hstarts, hfailed]
    rfl
  · intro entry hentry
    obtain ⟨lease, hlease, htransferred, hmatches⟩ := h.matched entry hentry
    have haccount := h.accounts _ lease hlease
    refine ⟨lease, hlease, ?_⟩
    have hleft_of : entry.state ≠ .adopted → entry ∈ left ∧ entry.transfer ∉ c.handedOver := by
      intro hne
      rw [hentries] at hentry
      have hmem := (List.mem_append.mp hentry).resolve_left fun hhand =>
        hne (hadopted entry hhand)
      refine ⟨hmem, fun hhand => ?_⟩
      rw [hhanded] at hhand
      exact hdisjoint hhand (List.mem_map.mpr ⟨entry, hmem, rfl⟩)
    cases hstate : entry.state <;> rw [hstate] at hmatches hleft_of
    case adopted =>
      obtain ⟨owner, lease', hdrained, hlease', howned⟩ := h.owned entry hentry hstate
      obtain rfl : lease = lease' := Option.some.inj (hlease.symm.trans hlease')
      refine ⟨?_, owner, hdrained, fun hold hhold => ⟨howned hold hhold, ?_⟩⟩
      · rw [hhanded]
        refine List.mem_map.mpr ⟨entry, ?_, rfl⟩
        rw [hentries] at hentry
        refine (List.mem_append.mp hentry).resolve_right fun hmem => ?_
        have := hleft entry hmem
        rw [hstate] at this
        cases hs : c.ledger.currentState <;> rw [hs] at this <;> cases this
      · refine haccount.not_attempted ?_ hhold
        simp [PiPayloadLease.Started, htransferred, show lease.transfer = .adopted from hmatches]
    case released =>
      obtain ⟨hmem, hnot⟩ := hleft_of (by simp)
      have hlater := hleft entry hmem
      rw [hstate] at hlater
      refine ⟨hnot, ?_, fun hold hhold => ?_, hended entry hentry lease hlease, haccount.failed_iff⟩
      · rw [hstarts, ← hlater]
        simp
      · by_cases hunsettled : hold ∈ lease.unsettled
        · exact .inr hunsettled
        · exact .inl ((haccount.attempted_iff hold hhold).mpr ⟨hstarted lease hmatches, hunsettled⟩)
    case pending =>
      obtain ⟨hmem, hnot⟩ := hleft_of (by simp)
      have hlater := hleft entry hmem
      rw [hstate] at hlater
      refine ⟨hnot, ?_, fun hold hhold => haccount.not_attempted ?_ hhold, ?_⟩
      · simp only [PiPayloadLease.adoptable, Bool.and_eq_true, beq_iff_eq]
        exact ⟨htransferred, hmatches⟩
      · simp [PiPayloadLease.Started, htransferred, show lease.transfer = .pending from hmatches]
      · rw [hstarts, ← hlater, if_pos rfl]
        exact List.mem_map.mpr ⟨entry, hmem, rfl⟩
  · intro hreleased entry hentry hstate lease hlease hold hhold
    simp only [Phase, hreleased] at hphase
    have hmem : entry ∈ left := by
      rw [hentries] at hentry
      refine (List.mem_append.mp hentry).resolve_left fun hhand => ?_
      rw [hadopted entry hhand] at hstate
      cases hstate
    obtain ⟨lease', hlease', htransfer, hfailed⟩ := hphase.2 entry hmem
    obtain rfl : lease = lease' := Option.some.inj (hlease.symm.trans hlease')
    exact (h.accounts _ lease hlease).failed_iff.mp hfailed hold hhold
      (hended entry hentry lease hlease htransfer hold hhold)
  · intro hreleaseFailed
    simp only [Phase, hreleaseFailed] at hphase
    obtain ⟨entry, hentry, lease, hlease, htransfer, hfailed⟩ := hphase.2.2
    have hmem : entry ∈ c.ledger.entries := hentries ▸ List.mem_append_right _ hentry
    refine ⟨entry, hmem, lease, hlease, ?_⟩
    by_contra hall
    push Not at hall
    have := (h.accounts _ lease hlease).failed_iff.mpr fun hold hhold _ => hall hold hhold
    rw [hfailed] at this
    cases this

/-- A hold for the sample run. -/
def sampleHold : EpochContentHold where
  identity := 0
  ref := .contentRef (js "epoch")
    (js "0123456789abcdef0123456789abcdef0123456789abcdef0123456789abcdef") 4

/-- A run in which the release of the only payload fails. -/
def failedReleaseRun : LedgerCustody :=
  run (js "epoch") 100 4 4 100
    [.createLease [sampleHold], .transfer 0, .admitPayload (some 0) 10, .releaseRemaining,
      .settleRelease 0 false, .settleRemaining]

/-- A payload whose release fails is in the end not adopted, its hold is not released, and no later
call releases it. -/
theorem not_payloads_adopted_released_or_retained :
    failedReleaseRun.ledger.entries = [{ transfer := 0, state := .released }] ∧
      failedReleaseRun.ledger.currentState = .releaseFailed ∧
      ¬(0 ∈ failedReleaseRun.handedOver ∨ sampleHold ∈ failedReleaseRun.released ∨
        0 ∈ failedReleaseRun.ledger.releaseStarts ∨
        ∃ lease ∈ failedReleaseRun.pool, sampleHold ∈ lease.unsettled) := by
  decide +kernel

end LedgerCustody

end PiAgentWeb
