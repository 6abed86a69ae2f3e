import PiAgentWeb.Server.LeasePool

/-!
# Lease safety

Along a run in which runtimes only take up identities that no lease was committed under, the
supervisor accepts a fencing token only while the latest commit of the runtime's incarnation grants
it, revisions are counted without gap or repetition, and a takeover commits over exactly what it
expected. Without the condition a leftover lease of an earlier process is accepted again.
-/

namespace PiAgentWeb

namespace Supervisor

variable {s : Supervisor}

/-- The identities a runtime takes up in this step are new to the lease history: a handle and
generation under which nothing was committed. A reconciliation resets the lease of a handle only
for the runtime tracked there. -/
def TakesUntouched (s : Supervisor) : SupervisorAction → Prop
  | .activate sessionHandle => s.table.Untouched sessionHandle 0
  | .createSession temporaryHandle => s.table.Untouched temporaryHandle 0
  | .spawn runtime => ∀ k ∈ s.boundHandles runtime,
      s.table.Untouched k ((s.objects runtime).generation + 1)
  | .identityTransition runtime nextHandle _ =>
    s.table.Untouched (s.objects runtime).sessionHandle ((s.objects runtime).generation + 1) ∧
      s.table.Untouched nextHandle ((s.objects runtime).generation + 1)
  | .commitNewSession _ runtime =>
    s.table.Untouched (s.objects runtime).sessionHandle (s.objects runtime).generation
  | .reconcile runtime => s.Tracked runtime ∨
      (s.table.leases.get? (s.objects runtime).sessionHandle).all
        (·.generation = (s.objects runtime).generation)
  | _ => True

instance (s : Supervisor) (runtime : RuntimeId) : Decidable (s.Tracked runtime) :=
  inferInstanceAs (Decidable (_ = _))

instance (s : Supervisor) (a : SupervisorAction) : Decidable (s.TakesUntouched a) := by
  cases a <;> dsimp only [TakesUntouched] <;> infer_instance

/-- Adopting the target of an identity transition, up to the record of taken identities. -/
theorem LeaseInv.adoptTransitionTarget (h : s.LeaseInv) {runtime : RuntimeId}
    (nextHandle : SessionHandle) (huntouched : ∀ k, s.Bound runtime k →
      s.table.Untouched k ((s.objects runtime).generation + 1)) :
    (s.adoptTransitionTarget runtime nextHandle).LeaseInv :=
  LeaseInv.recordTaken (h.renew rfl huntouched) runtime

/-- Every action that takes up untouched identities keeps the invariant. -/
theorem LeaseInv.step (a : SupervisorAction) (hcond : s.TakesUntouched a) (h : s.LeaseInv) :
    (s.step a).LeaseInv := by
  cases a with
  | activate sessionHandle =>
    simp only [Supervisor.step]
    split
    · rename_i henabled
      exact h.track (Option.isNone_iff_eq_none.mp henabled.1) henabled.2 false hcond
    · exact h
  | createSession temporaryHandle =>
    simp only [Supervisor.step]
    split
    · rename_i henabled
      exact h.track (Option.isNone_iff_eq_none.mp henabled.1) henabled.2.1 true hcond
    · exact h
  | spawn runtime =>
    simp only [Supervisor.step]
    split
    · have huntouched : ∀ k, s.Bound runtime k →
          s.table.Untouched k ((s.objects runtime).generation + 1) :=
        fun k hbound => hcond k (mem_boundHandles.mpr hbound)
      exact LeaseInv.recordTaken (h.renew rfl huntouched) runtime
    · exact h
  | ready runtime sessionHandle =>
    simp only [Supervisor.step, Supervisor.ready]
    split
    · refine LeaseInv.recordTaken (h.objects ?_ ?_) runtime
      · intro id
        by_cases hid : id = runtime
        · rw [hid, Function.update_self]
        · rw [Function.update_of_ne hid]
      · intro id
        by_cases hid : id = runtime
        · rw [hid, Function.update_self]
        · rw [Function.update_of_ne hid]
    · exact h
  | claim runtime connectionId deleting =>
    simp only [Supervisor.step]
    split
    · rename_i hfree
      split
      · exact h
      · rename_i canonicalHandle hadmit
        refine h.hold (Option.isNone_iff_eq_none.mp hfree) ?_ (by simp) (by simp) (by simp)
        rintro id k ⟨rfl, rfl⟩
        exact admitClaim_tracked hadmit
    · exact h
  | takeover sessionHandle generation revision connectionId checks =>
    simp only [Supervisor.step]
    split
    · rename_i hfree
      split
      · exact h
      · rename_i runtime hadmit
        obtain ⟨htracked, hgen⟩ := admitTakeover_tracked hadmit
        refine h.hold (Option.isNone_iff_eq_none.mp hfree) ?_ (by simp) (by simp) ?_
        · rintro id k ⟨rfl, rfl⟩
          exact htracked
        · intro id k generation' revision' connectionId' heq
          cases heq
          exact hgen
    · exact h
  | identityTransition runtime nextHandle checks =>
    simp only [Supervisor.step]
    split
    · rename_i henabled
      have hfree := Option.isNone_iff_eq_none.mp henabled.1
      split
      · exact h
      · rename_i hadmit
        have htracked := admitTransition_tracked hadmit
        obtain ⟨hprevious, hnext⟩ := hcond
        have hadopted := h.adoptTransitionTarget nextHandle (by
          intro k hbound
          have hget := (bound_of_free s hfree).mp hbound
          rwa [h.pool.tracked_unique hget htracked])
        refine hadopted.beginRekey ?_ ?_ ?_
        · simpa [Supervisor.adoptTransitionTarget] using hfree
        · simpa [Supervisor.adoptTransitionTarget] using htracked
        · simpa [Supervisor.adoptTransitionTarget] using hnext
    · exact h
  | commitNewSession temporaryHandle runtime =>
    simp only [Supervisor.step]
    split
    · rename_i hfree
      split
      · exact h
      · rename_i hadmit
        exact h.beginRekey (Option.isNone_iff_eq_none.mp hfree) (admitNewSession_tracked hadmit)
          hcond
    · exact h
  | forget sessionHandle =>
    simp only [Supervisor.step]
    split
    · rename_i hfree
      have hdropped : { s with runtimes := s.runtimes.erase sessionHandle }.LeaseInv :=
        h.drop get?_of_get?_erase
      refine hdropped.hold (Option.isNone_iff_eq_none.mp hfree) ?_ ?_ (by simp) (by simp)
      · intro id k hcaptured
        exact hcaptured.elim
      · rintro k ⟨⟩
        exact InsertionMap.get?_erase_self _ _
    · exact h
  | leaseActor =>
    simp only [Supervisor.step]
    split
    · exact h
    · rename_i holder hholder
      exact h.leaseActor hholder
  | untrack sessionHandle runtime =>
    simp only [Supervisor.step]
    split
    · exact h.drop get?_of_get?_erase
    · exact h
  | rebuild sessionHandle =>
    simp only [Supervisor.step]
    split
    · rename_i existing hfree hget
      exact h.rebuild hfree hget rfl rfl
    · exact h
  | release sessionHandle connectionId =>
    exact h.frees (h.table.releaseOwned h.pool.lawful (s.trackedTarget_bound sessionHandle) _ _)
  | releaseExact sessionHandle connectionId fencingToken releaseTransition =>
    exact h.frees (h.table.releaseOwned h.pool.lawful (s.trackedTarget_bound sessionHandle) _ _)
  | releaseConnection connectionId =>
    exact h.frees (h.table.releaseConnection connectionId)
  | reconcile runtime =>
    refine h.frees (.of_log (h.table.leaseStateFor h.pool.lawful ?_)
      (s.table.leaseStateFor_spec _ _).2.2.1)
    rcases hcond with htracked | hsame
    · exact Or.inl (h.pool.lawful.home_generation (Or.inl htracked))
    · refine Or.inr ?_
      intro e he
      simpa [he] using hsame
  | publish runtime =>
    simp only [Supervisor.step]
    split
    · exact h
    · exact ⟨⟨h.pool.lawful, h.pool.tracked_unique, h.pool.bound_lt, h.pool.forgotten,
        h.pool.rekeyed⟩, h.table, h.takeover⟩

/-- The actions that run a body of the lease actor. -/
def usesLeaseActor : SupervisorAction → Bool
  | .leaseActor => true
  | .release .. => true
  | .releaseExact .. => true
  | .releaseConnection .. => true
  | .reconcile .. => true
  | _ => false

/-- The other actions leave the lease table alone. -/
theorem step_table (s : Supervisor) {a : SupervisorAction} (ha : usesLeaseActor a = false) :
    (s.step a).table = s.table := by
  cases a with
  | leaseActor => cases ha
  | release => cases ha
  | releaseExact => cases ha
  | releaseConnection => cases ha
  | reconcile => cases ha
  | spawn runtime =>
    simp only [Supervisor.step]
    split
    · simp [Supervisor.spawn]
    · rfl
  | ready runtime sessionHandle =>
    simp only [Supervisor.step, Supervisor.ready]
    split
    · simp
    · rfl
  | identityTransition runtime nextHandle checks =>
    simp only [Supervisor.step]
    split
    · split
      · rfl
      · simp [Supervisor.beginRekey, Supervisor.adoptTransitionTarget]
    · rfl
  | _ =>
    simp only [Supervisor.step]
    repeat' split
    all_goals rfl

/-- The history of commits only grows. -/
theorem LeaseInv.step_suffix (a : SupervisorAction) (h : s.LeaseInv) :
    s.table.log <:+ (s.step a).table.log := by
  by_cases ha : usesLeaseActor a = false
  · have htable := s.step_table ha
    exact htable ▸ List.suffix_refl _
  cases a with
  | leaseActor =>
    simp only [Supervisor.step]
    split
    · exact List.suffix_refl _
    · rename_i holder hholder
      cases holder with
      | claim => exact LeaseTable.claim_suffix ..
      | takeover => exact LeaseTable.takeover_suffix ..
      | rekey => exact LeaseTable.rekey_suffix ..
      | forget => exact List.suffix_refl _
  | release sessionHandle connectionId =>
    exact (h.table.releaseOwned h.pool.lawful (s.trackedTarget_bound sessionHandle) _ _).suffix
  | releaseExact sessionHandle connectionId fencingToken releaseTransition =>
    exact (h.table.releaseOwned h.pool.lawful (s.trackedTarget_bound sessionHandle) _ _).suffix
  | releaseConnection connectionId => exact (h.table.releaseConnection connectionId).suffix
  | reconcile runtime =>
    have hlog := (s.table.leaseStateFor_spec (s.objects runtime).sessionHandle
      (s.objects runtime).generation).2.2.1
    exact hlog ▸ List.suffix_refl _
  | _ => exact absurd rfl ha

/-- The incarnation belongs to no runtime the pool tracks, and never will again. -/
def Left (s : Supervisor) (i : ℕ) : Prop :=
  i < s.nextIncarnation ∧ ∀ k id, s.runtimes.get? k = some id → (s.objects id).incarnation ≠ i

/-- Incarnations only come up new: whatever is tracked after a step has the incarnation of
something tracked before, or one that was not given out yet. -/
structure Succeeds (s s' : Supervisor) : Prop where
  mono : s.nextIncarnation ≤ s'.nextIncarnation
  tracked : ∀ k id, s'.runtimes.get? k = some id →
    (∃ k' id', s.runtimes.get? k' = some id' ∧
      (s.objects id').incarnation = (s'.objects id).incarnation) ∨
      s.nextIncarnation ≤ (s'.objects id).incarnation

/-- Runtimes that stay tracked keep their incarnations. -/
theorem Succeeds.of_sub {s' : Supervisor} (hnext : s'.nextIncarnation = s.nextIncarnation)
    (hobjects : s'.objects = s.objects)
    (hsub : ∀ k id, s'.runtimes.get? k = some id → ∃ k', s.runtimes.get? k' = some id) :
    s.Succeeds s' where
  mono := hnext.ge
  tracked := by
    intro k id hget
    obtain ⟨k', hget'⟩ := hsub k id hget
    exact Or.inl ⟨k', id, hget', by rw [hobjects]⟩

/-- Nothing but one object changes, to a new incarnation. -/
theorem Succeeds.of_update {s' : Supervisor} {id₀ : RuntimeId} {object : SessionRuntime}
    (hnext : s.nextIncarnation ≤ s'.nextIncarnation)
    (hobjects : s'.objects = Function.update s.objects id₀ object)
    (hinc : s.nextIncarnation ≤ object.incarnation)
    (hsub : ∀ k id, s'.runtimes.get? k = some id → id ≠ id₀ →
      ∃ k', s.runtimes.get? k' = some id) : s.Succeeds s' where
  mono := hnext
  tracked := by
    intro k id hget
    rw [hobjects]
    by_cases hid : id = id₀
    · subst hid
      rw [Function.update_self]
      exact Or.inr hinc
    · obtain ⟨k', hget'⟩ := hsub k id hget hid
      rw [Function.update_of_ne hid]
      exact Or.inl ⟨k', id, hget', rfl⟩

/-- What is tracked when a rekey begins was tracked before. -/
theorem beginRekey_tracked {previousHandle : SessionHandle} {runtime : RuntimeId}
    (htracked : s.runtimes.get? previousHandle = some runtime) {k : SessionHandle} {id : RuntimeId}
    (hget : (s.beginRekey previousHandle runtime).runtimes.get? k = some id) :
    ∃ k', s.runtimes.get? k' = some id := by
  simp only [Supervisor.beginRekey, InsertionMap.get?_insert] at hget
  split at hget
  · cases hget
    exact ⟨previousHandle, htracked⟩
  · rw [InsertionMap.get?_erase] at hget
    split at hget
    · cases hget
    · exact ⟨k, hget⟩

/-- Tracking a new runtime gives out a new incarnation. -/
theorem Succeeds.track (s : Supervisor) (k : SessionHandle) (targetIsNew : Bool) :
    s.Succeeds (s.track k targetIsNew) := by
  refine .of_update (Nat.le_succ _) rfl le_rfl ?_
  intro k' id hget hid
  rw [Supervisor.track, InsertionMap.get?_insert] at hget
  split at hget
  · exact absurd (Option.some.inj hget).symm hid
  · exact ⟨k', hget⟩

/-- Every step only gives out new incarnations. -/
theorem LeaseInv.step_succeeds (a : SupervisorAction) (h : s.LeaseInv) :
    s.Succeeds (s.step a) := by
  have hrefl : s.Succeeds s := .of_sub rfl rfl fun k id hget => ⟨k, hget⟩
  cases a with
  | activate sessionHandle =>
    simp only [Supervisor.step]
    split
    · exact .track s sessionHandle false
    · exact hrefl
  | createSession temporaryHandle =>
    simp only [Supervisor.step]
    split
    · exact .track s temporaryHandle true
    · exact hrefl
  | spawn runtime =>
    simp only [Supervisor.step]
    split
    · refine .of_update ?_ (recordTaken_objects _ _) le_rfl ?_
      · rw [Supervisor.spawn, recordTaken_nextIncarnation]
        exact Nat.le_succ _
      · intro k id hget _
        rw [Supervisor.spawn, recordTaken_runtimes] at hget
        exact ⟨k, hget⟩
    · exact hrefl
  | ready runtime sessionHandle =>
    simp only [Supervisor.step, Supervisor.ready]
    split
    · refine ⟨by rw [recordTaken_nextIncarnation], ?_⟩
      intro k id hget
      rw [recordTaken_runtimes] at hget
      refine Or.inl ⟨k, id, hget, ?_⟩
      rw [recordTaken_objects]
      by_cases hid : id = runtime
      · simp [hid]
      · simp [Function.update_of_ne hid]
    · exact hrefl
  | identityTransition runtime nextHandle checks =>
    simp only [Supervisor.step]
    split
    · split
      · exact hrefl
      · rename_i hadmit
        have htracked := admitTransition_tracked hadmit
        refine .of_update ?_ (recordTaken_objects _ _) le_rfl ?_
        · rw [Supervisor.beginRekey, Supervisor.adoptTransitionTarget,
            recordTaken_nextIncarnation]
          exact Nat.le_succ _
        · intro k id hget _
          have hadopted : (s.adoptTransitionTarget runtime nextHandle).runtimes = s.runtimes :=
            recordTaken_runtimes _ _
          obtain ⟨k', hget'⟩ := beginRekey_tracked (by rw [hadopted]; exact htracked) hget
          exact ⟨k', hadopted ▸ hget'⟩
    · exact hrefl
  | commitNewSession temporaryHandle runtime =>
    simp only [Supervisor.step]
    split
    · split
      · exact hrefl
      · rename_i hadmit
        exact .of_sub rfl rfl fun k id hget =>
          beginRekey_tracked (admitNewSession_tracked hadmit) hget
    · exact hrefl
  | forget sessionHandle =>
    simp only [Supervisor.step]
    split
    · exact .of_sub rfl rfl fun k id hget => ⟨k, get?_of_get?_erase hget⟩
    · exact hrefl
  | untrack sessionHandle runtime =>
    simp only [Supervisor.step]
    split
    · exact .of_sub rfl rfl fun k id hget => ⟨k, get?_of_get?_erase hget⟩
    · exact hrefl
  | rebuild sessionHandle =>
    simp only [Supervisor.step]
    split
    · rename_i existing hfree hexisting
      refine ⟨le_rfl, ?_⟩
      intro k id hget
      left
      simp only [InsertionMap.get?_insert] at hget
      split at hget
      · cases hget
        exact ⟨sessionHandle, existing, hexisting, by simp⟩
      · have hne : id ≠ s.nextRuntime := Nat.ne_of_lt (h.pool.bound_lt (Or.inl hget))
        exact ⟨k, id, hget, by simp [Function.update_of_ne hne]⟩
    · exact hrefl
  | _ =>
    simp only [Supervisor.step]
    repeat' split
    all_goals exact .of_sub rfl rfl fun k id hget => ⟨k, hget⟩

/-- An incarnation that was left stays left. -/
theorem LeaseInv.left_step (a : SupervisorAction) (h : s.LeaseInv) {i : ℕ} (hleft : s.Left i) :
    (s.step a).Left i := by
  obtain ⟨hmono, hback⟩ := h.step_succeeds a
  refine ⟨hleft.1.trans_le hmono, ?_⟩
  intro k id hget
  rcases hback k id hget with ⟨k', id', hget', heq⟩ | hnew
  · rw [← heq]
    exact hleft.2 k' id' hget'
  · have hlt := hleft.1
    omega

variable {token : FencingToken}

/-- Who is let in is recorded as the owner at the runtime's handle and generation. -/
theorem Accepts.entry {id : RuntimeId} {connectionId : ConnectionId}
    (h : s.Accepts id connectionId token) :
    ∃ e, s.table.leases.get? (s.objects id).sessionHandle = some e ∧
      e.generation = (s.objects id).generation ∧ e.owner = some ⟨connectionId, token⟩ := by
  obtain ⟨command, hok⟩ := h
  unfold LeaseTable.assertLease LeaseTable.leaseOwnerFor at hok
  cases hget : s.table.leases.get? (s.objects id).sessionHandle with
  | none => simp [hget] at hok
  | some e =>
    simp only [hget] at hok
    by_cases hrefused : e.terminal = true ∨
        (some (s.objects id).generation).any (e.generation ≠ ·) = true
    · simp only [if_pos hrefused] at hok
      cases hok
    · simp only [if_neg hrefused] at hok
      cases howner : e.owner with
      | none => simp [howner] at hok
      | some o =>
        simp only [howner] at hok
        split at hok
        · rename_i hmatch
          obtain ⟨rfl, htoken⟩ := hmatch
          cases htoken
          refine ⟨e, rfl, ?_, howner⟩
          by_contra hne
          exact hrefused (Or.inr (by simpa using hne))
        · cases hok

/-- Who is let in to a tracked runtime was granted the lease by the latest commit of the runtime's
incarnation. -/
theorem LeaseInv.accepts_latest (h : s.LeaseInv) {id : RuntimeId} (htracked : s.Tracked id)
    {connectionId : ConnectionId} (haccepts : s.Accepts id connectionId token) :
    ∃ c, leaseFencing.latest s.table.log (s.objects id).incarnation = some c ∧
      c.transition.owner = some ⟨connectionId, token⟩ := by
  obtain ⟨e, hentry, hgen, howner⟩ := haccepts.entry
  obtain ⟨i, c, _, hlatest, _, hcowner, hat⟩ := h.table.entries.owner_commit hentry howner
  obtain ⟨hmem, hinc⟩ := leaseFencing.mem_of_latest hlatest
  have hclean : c.incarnation = (s.objects id).incarnation :=
    h.table.log.clean id _ (Or.inl htracked) c hmem (by
      change c.At _ (s.objects id).generation
      rwa [← hgen])
  change c.incarnation = i at hinc
  refine ⟨c, ?_, hcowner⟩
  rwa [← hclean, hinc]

/-- A token was granted, and since then it was given up, taken over, or left behind: its
incarnation has committed something else, or is no longer that of a tracked runtime. -/
def Retired (s : Supervisor) (token : FencingToken) : Prop :=
  leaseFencing.Superseded s.table.log token ∨
    ∃ c ∈ s.table.log, c.token = some token ∧ s.Left c.incarnation

/-- A superseded token stays superseded while the ledger grows. -/
theorem superseded_of_suffix {log log' : List LeaseCommit} (hsuffix : log <:+ log')
    (hlog : leaseFencing.WellFormed log')
    (h : leaseFencing.Superseded log token) : leaseFencing.Superseded log' token := by
  induction hlog with
  | nil =>
    rw [List.suffix_nil.mp hsuffix] at h
    exact h
  | cons hlog hcont ih =>
    rcases List.suffix_cons_iff.mp hsuffix with rfl | hsuffix
    · exact h
    · exact (ih hsuffix).cons hcont

/-- A retired token stays retired. -/
theorem LeaseInv.retired_step (a : SupervisorAction) (hcond : s.TakesUntouched a)
    (h : s.LeaseInv) (hretired : s.Retired token) :
    (s.step a).Retired token := by
  rcases hretired with hsuperseded | ⟨c, hc, htoken, hleft⟩
  · exact Or.inl (superseded_of_suffix (h.step_suffix a) (h.step a hcond).table.log.ledger
      hsuperseded)
  · exact Or.inr ⟨c, (h.step_suffix a).subset hc, htoken, h.left_step a hleft⟩

/-- A retired token opens no tracked runtime. -/
theorem LeaseInv.not_accepts_of_retired (h : s.LeaseInv)
    (hretired : s.Retired token) {id : RuntimeId} (htracked : s.Tracked id)
    (connectionId : ConnectionId) : ¬s.Accepts id connectionId token := by
  intro haccepts
  obtain ⟨p, hlatest, howner⟩ := h.accepts_latest htracked haccepts
  have hptoken : p.token = some token := by simp [LeaseCommit.token, howner]
  obtain ⟨hpmem, hpinc⟩ := leaseFencing.mem_of_latest hlatest
  have hsame : ∀ c ∈ s.table.log, c.token = some token →
      c.incarnation = (s.objects id).incarnation := fun c hc htoken =>
    (h.table.log.ledger.token_incarnation hc hpmem htoken hptoken).trans hpinc
  rcases hretired with ⟨c, hc, htoken, hother⟩ | ⟨c, hc, htoken, hleft⟩
  · refine hother p ?_ hptoken
    change leaseFencing.latest s.table.log c.incarnation = some p
    rw [hsame c hc htoken]
    exact hlatest
  · exact hleft.2 _ id htracked (hsame c hc htoken).symm

/-- What lease safety asks of a state. -/
structure LeaseSafe (s : Supervisor) : Prop where
  /-- Only the owner granted by the latest commit of a runtime's incarnation is accepted. -/
  accepts_latest : ∀ id connectionId token, s.Tracked id → s.Accepts id connectionId token →
    ∃ c, leaseFencing.latest s.table.log (s.objects id).incarnation = some c ∧
      c.transition.owner = some ⟨connectionId, token⟩
  /-- Inside an incarnation every commit raises the revision by exactly one; the first one takes the
  revision after that of the entry it finds, which is 0 in a fresh entry. -/
  revision_succ : ∀ i, ((s.table.log.filter fun c => c.incarnation = i).map
    (·.transition.leaseRevision)).IsChain fun newer older => newer = older + 1
  /-- No revision is committed twice, inside an incarnation or under a handle and generation. -/
  revision_nodup : (s.table.log.map fun c => (c.incarnation, c.transition.leaseRevision)).Nodup ∧
    (s.table.log.map fun c => (c.transition.sessionHandle, c.transition.generation,
      c.transition.leaseRevision)).Nodup
  /-- When a takeover commits, the generation and the revision it carries are the current ones and
  the owner is another connection; it uses the revision up. -/
  takeover_current : ∀ id k generation revision connectionId,
    s.holder = some (.takeover id k generation revision connectionId) →
    (s.step .leaseActor).table.log ≠ s.table.log →
      (s.objects id).generation = generation ∧
      (∃ e o, s.table.leases.get? k = some e ∧ e.generation = generation ∧
        e.revision = revision ∧ e.owner = some o ∧ o.connectionId ≠ connectionId) ∧
      ∃ c, (s.step .leaseActor).table.log = c :: s.table.log ∧ c.At k generation ∧
        c.transition.leaseRevision = revision + 1

/-- No revision is committed twice under a handle and generation. -/
theorem LeaseInv.identity_nodup (h : s.LeaseInv) :
    (s.table.log.map fun c => (c.transition.sessionHandle, c.transition.generation,
      c.transition.leaseRevision)).Nodup := by
  have hnodup := h.table.log.ledger.nodup
  refine List.Nodup.map_on ?_ (List.Nodup.of_map _ hnodup)
  intro c hc c' hc' heq
  obtain ⟨hhandle, hgen, hrev⟩ : c.transition.sessionHandle = c'.transition.sessionHandle ∧
      c.transition.generation = c'.transition.generation ∧
      c.transition.leaseRevision = c'.transition.leaseRevision := by simpa using heq
  have hinc := h.table.log.same_incarnation c hc c' hc' ⟨hhandle, hgen⟩
  exact List.inj_on_of_nodup_map hnodup hc hc' (Prod.ext hinc hrev)

/-- The invariant makes a state safe. -/
theorem LeaseInv.safe (h : s.LeaseInv) : s.LeaseSafe where
  accepts_latest := fun _ _ _ htracked haccepts => h.accepts_latest htracked haccepts
  revision_succ := h.table.log.ledger.isChain
  revision_nodup := ⟨h.table.log.ledger.nodup, h.identity_nodup⟩
  takeover_current := by
    intro id k generation revision connectionId hholder hcommits
    have hstep : (s.step .leaseActor).table =
        (s.table.takeover k (s.target id) revision connectionId).1 := by
      simp only [Supervisor.step, hholder]
      rfl
    rw [hstep] at hcommits ⊢
    obtain ⟨⟨e, o, hentry, hegen, hrev, howner, hother⟩, hlog⟩ :=
      LeaseTable.takeover_commits hcommits
    change e.generation = (s.objects id).generation at hegen
    -- an owner was granted under the current generation, so the runtime did not leave the
    -- expected one
    have hgen : (s.objects id).generation = generation := by
      rcases h.takeover id k generation revision connectionId hholder with hgen | huntouched
      · exact hgen
      · obtain ⟨_, c, _, hlatest, _, _, hat⟩ := h.table.entries.owner_commit hentry howner
        rw [hegen] at hat
        exact absurd hat (huntouched c (leaseFencing.mem_of_latest hlatest).1)
    refine ⟨hgen, ⟨e, o, hentry, hegen.trans hgen, hrev, howner, hother⟩, _, hlog, ?_, rfl⟩
    exact ⟨rfl, hgen⟩

/-- A runtime loses its file while it starts; a connection claims the crashed runtime before the
failed activation drops it; the file comes back and the Session is activated again. -/
def leftoverLeaseRun : List SupervisorAction :=
  [.activate (js "P"), .spawn 0, .claim 0 (js "B") false, .leaseActor, .untrack (js "P") 0,
    .activate (js "P"), .spawn 1]

/-- The dropped runtime leaves its lease behind, and the new process, which starts at the same
generation, accepts it although nothing was committed in its incarnation. -/
theorem not_leaseSafe_leftoverLeaseRun : ¬(run leftoverLeaseRun).LeaseSafe := by
  intro h
  obtain ⟨c, hlatest, _⟩ := h.accepts_latest 1 (js "B") 0 (by decide +kernel)
    ⟨"prompt", by decide +kernel⟩
  have hnone : leaseFencing.latest (run leftoverLeaseRun).table.log
      ((run leftoverLeaseRun).objects 1).incarnation = none := by decide +kernel
  rw [hnone] at hlatest
  cases hlatest

/-- Lease safety: along a run whose runtimes only take up untouched identities, every state is
safe, and a token that was retired at some point of the run is accepted by no tracked runtime at
any later point. -/
theorem lease_safety (before after : List SupervisorAction)
    (h : RunMeets Supervisor.step TakesUntouched initial (before ++ after)) :
    (run (before ++ after)).LeaseSafe ∧
      ∀ token, (run before).Retired token → ∀ id connectionId,
        (run (before ++ after)).Tracked id →
          ¬(run (before ++ after)).Accepts id connectionId token := by
  have hstep : ∀ s a, TakesUntouched s a → s.LeaseInv → (s.step a).LeaseInv :=
    fun s a hcond hinv => hinv.step a hcond
  obtain ⟨hbefore, hafter⟩ := RunMeets.append_iff.mp h
  have hmiddle : (run before).LeaseInv := hbefore.invariant hstep .initial
  have hend : (run (before ++ after)).LeaseInv := h.invariant hstep .initial
  refine ⟨hend.safe, ?_⟩
  intro token hretired id connectionId htracked
  have hkept := hafter.invariant
    (I := fun s => s.LeaseInv ∧ s.Retired token)
    (fun s a hcond hinv => ⟨hinv.1.step a hcond, hinv.1.retired_step a hcond hinv.2⟩)
    ⟨hmiddle, hretired⟩
  rw [run, runFrom_append] at htracked ⊢
  exact hkept.1.not_accepts_of_retired hkept.2 htracked connectionId

/-- A lease that is taken over, and then a restart: the state is safe, and the token that was taken
over opens nothing. -/
theorem lease_safety_takeover_restart :
    let s := run [.activate (js "P"), .spawn 0, .claim 0 (js "A") false, .leaseActor,
      .takeover (js "P") 1 1 (js "B") ⟨false, false, false, false, false, true, true⟩, .leaseActor,
      .spawn 0, .reconcile 0]
    s.LeaseSafe ∧ ∀ connectionId, ¬s.Accepts 0 connectionId 0 := by
  have h := lease_safety
    [.activate (js "P"), .spawn 0, .claim 0 (js "A") false, .leaseActor,
      .takeover (js "P") 1 1 (js "B") ⟨false, false, false, false, false, true, true⟩, .leaseActor]
    [.spawn 0, .reconcile 0] (by decide +kernel)
  refine ⟨h.1, fun connectionId => h.2 0 (Or.inl ?_) 0 connectionId (by decide +kernel)⟩
  refine ⟨⟨2, js "P", 1, 1, .claim, some ⟨js "A", 0⟩⟩, by decide +kernel, rfl, ?_⟩
  intro p hp
  have hlatest : leaseFencing.latest (run [.activate (js "P"), .spawn 0,
      .claim 0 (js "A") false, .leaseActor,
      .takeover (js "P") 1 1 (js "B") ⟨false, false, false, false, false, true, true⟩,
      .leaseActor]).table.log 2 = some ⟨2, js "P", 1, 2, .takeover, some ⟨js "B", 1⟩⟩ := by
    decide +kernel
  have heq := Option.some.inj (hlatest.symm.trans hp)
  rw [← heq]
  decide

end Supervisor

end PiAgentWeb
