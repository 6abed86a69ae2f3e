import PiAgentWeb.Server.LeaseInvariants

/-!
# The lease actor keeps the invariants

Each operation of the lease actor keeps the invariant of the lease table. Claims, takeovers and
rekeys commit for the runtime whose lease is kept under the handle; releases and disconnects commit
for whichever incarnation the entry belongs to.
-/

namespace PiAgentWeb

namespace LeaseTable

variable {B B' : Binding} {next : ℕ} {table : LeaseTable} {k : SessionHandle}
  {e : LeaseState} {id : ℕ}

/-- A runtime at home under a handle, at the generation of the entry, may commit there. -/
theorem CommitAt.of_home (hB : B.Lawful next) (h : table.Inv B next) (hhome : B.home id k)
    (hentry : table.leases.get? k = some e) (hgen : e.generation = (B.target id).generation) :
    CommitAt B next table k e (B.target id).incarnation := by
  have hbound := hB.bound_of_home hhome
  -- once the incarnation has committed, the entry is its own
  have howned : ∀ c ∈ table.log, c.incarnation = (B.target id).incarnation →
      e.committedBy = some (B.target id).incarnation := by
    intro c hc hinc
    obtain ⟨e', he', htag⟩ := h.current id k hhome c hc hinc
    rw [hentry] at he'
    cases he'
    exact htag
  constructor
  case last_revision =>
    intro p hp
    obtain ⟨hmem, hinc⟩ := leaseFencing.mem_of_latest hp
    obtain ⟨c, hlatest, hrev, _⟩ := h.entries.matchesLog k e hentry _ (howned p hmem hinc)
    rw [hp] at hlatest
    cases hlatest
    exact hrev
  case own_identity =>
    intro c hc hat
    rw [hgen] at hat
    exact h.log.clean id k hbound c hc hat
  case own_generation =>
    intro c hc hinc
    rw [hgen]
    exact h.log.generation id k hbound c hc hinc
  case incarnation_lt => exact hB.incarnation_lt hbound
  case bound_incarnation =>
    intro id' hbound' _
    rw [hB.unique hbound' hbound]
  case bound_generation =>
    intro id' k' hbound' hinc
    rw [hB.distinct hbound' hbound hinc, hgen]
  case only_entry =>
    intro k' e' he' htag
    obtain ⟨c, hlatest, _⟩ := h.entries.matchesLog k' e' he' _ htag
    obtain ⟨hmem, hinc⟩ := leaseFencing.mem_of_latest hlatest
    exact h.entries.unique k' e' k e _ he' hentry htag (howned c hmem hinc)
  case only_home =>
    intro id' k' hhome' hinc
    have hid := hB.distinct (hB.bound_of_home hhome') hbound hinc
    subst hid
    exact hB.home_unique hhome' hhome

/-- The incarnation that granted an owner may commit over the entry that records it. -/
theorem CommitAt.of_owner (h : table.Inv B next) (hentry : table.leases.get? k = some e)
    {o : LeaseOwner} (howner : e.owner = some o) {i : ℕ} (htag : e.committedBy = some i) :
    CommitAt B next table k e i := by
  obtain ⟨i', c, htag', hlatest, hrev, _, hcat⟩ := h.entries.owner_commit hentry howner
  rw [htag] at htag'
  cases htag'
  obtain ⟨hmem, hinc⟩ := leaseFencing.mem_of_latest hlatest
  change c.incarnation = i at hinc
  constructor
  case last_revision =>
    intro p hp
    rw [hlatest] at hp
    cases hp
    exact hrev
  case own_identity =>
    intro c' hc' hat
    rw [← hinc]
    refine h.log.same_incarnation c' hc' c hmem ?_
    rwa [hcat.1, hcat.2]
  case own_generation =>
    intro c' hc' hinc'
    rw [← hcat.2]
    exact h.log.same_generation c' hc' c hmem (hinc'.trans hinc.symm)
  case incarnation_lt =>
    rw [← hinc]
    exact h.log.incarnation_lt c hmem
  case bound_incarnation =>
    intro id hbound hgen
    rw [← hinc]
    exact (h.log.clean id k hbound c hmem (hgen ▸ hcat)).symm
  case bound_generation =>
    intro id k' hbound hi
    rw [← hcat.2]
    exact (h.log.generation id k' hbound c hmem (hinc.trans hi.symm)).symm
  case only_entry =>
    intro k' e' he' htag'
    exact h.entries.unique k' e' k e i he' hentry htag' htag
  case only_home =>
    intro id k' hhome hi
    obtain ⟨e', he', htag'⟩ := h.current id k' hhome c hmem (hinc.trans hi.symm)
    rw [hi] at htag'
    exact h.entries.unique k' e' k e i he' hentry htag' htag

/-- A commit over the entry of a handle keeps the invariant, whatever its outcome. -/
theorem Inv.commitLeaseTransition {i : ℕ} {owner : Option LeaseOwner} (h : table.Inv B next)
    (hentry : table.leases.get? k = some e) (hat : CommitAt B next table k e i)
    (htoken : table.Grants i owner) (hkeep : ∀ id, B.home id k → (B.target id).incarnation ≠ i →
      e.committedBy ≠ some (B.target id).incarnation)
    (generation : ℕ) (transition : LeaseTransitionKind) :
    (table.commitLeaseTransition k generation e transition owner i).1.Inv B next := by
  rcases table.commitLeaseTransition_spec k generation e transition owner i with
    ⟨_, error, heq⟩ | ⟨error, heq⟩ | ⟨c, _, heq⟩
  · rw [heq]
    exact h
  · rw [heq]
    refine ⟨h.log.congr rfl le_rfl, h.entries.set ?_, h.current.set ?_⟩
    · intro j hj
      exact ⟨e, hentry, hj, rfl, rfl, rfl⟩
    · intro id _ old hold htag
      rw [hentry] at hold
      cases hold
      exact htag
  · rw [heq]
    refine ⟨h.log.committed hat htoken transition, h.entries.committed hat transition,
      Current.committed hat (fun id k' hhome _ => h.current id k' hhome) ?_ transition⟩
    intro id hhome hi e' he'
    rw [hentry] at he'
    cases he'
    exact hkeep id hhome hi

/-- The history only grows by a commit. -/
theorem commitLeaseTransition_suffix (table : LeaseTable) (k : SessionHandle) (generation : ℕ)
    (e : LeaseState) (transition : LeaseTransitionKind) (owner : Option LeaseOwner) (i : ℕ) :
    table.log <:+ (table.commitLeaseTransition k generation e transition owner i).1.log := by
  rcases table.commitLeaseTransition_spec k generation e transition owner i with
    ⟨_, error, heq⟩ | ⟨error, heq⟩ | ⟨c, _, heq⟩
  · exact heq ▸ List.suffix_refl _
  · exact heq ▸ List.suffix_refl _
  · exact heq ▸ List.suffix_cons _ _

/-- A drawn token grants anew. -/
theorem LogInv.grants_randomUUID (h : table.LogInv B next) (i : ℕ) (connectionId : ConnectionId) :
    table.randomUUID.1.Grants i (some ⟨connectionId, table.randomUUID.2⟩) := by
  rintro o ⟨⟩
  refine ⟨Nat.lt_succ_self _, Or.inl ?_⟩
  intro c hc htoken
  have hlt := h.token_lt c hc _ htoken
  exact absurd hlt (lt_irrefl _)

/-- A commit without an owner grants nothing. -/
theorem grants_none (table : LeaseTable) (i : ℕ) : table.Grants i none := by
  intro o ho
  cases ho

/-- A runtime at home under a handle commits there with a new token, over the state that
`leaseStateFor` returned. -/
theorem Inv.commit_drawn (hB : B.Lawful next) (h : table.Inv B next) (hhome : B.home id k)
    (connectionId : ConnectionId) (transition : LeaseTransitionKind) :
    ((table.leaseStateFor k (B.target id).generation).1.randomUUID.1.commitLeaseTransition k
      (B.target id).generation (table.leaseStateFor k (B.target id).generation).2 transition
      (some ⟨connectionId, (table.leaseStateFor k (B.target id).generation).1.randomUUID.2⟩)
      (B.target id).incarnation).1.Inv B next := by
  have hreset := hB.home_generation (hB.bound_of_home hhome)
  obtain ⟨hentry, hgen, _, _⟩ := table.leaseStateFor_spec k (B.target id).generation
  have hstate := Inv.leaseStateFor hB h (Or.inl hreset)
  have hdrawn := hstate.randomUUID
  refine hdrawn.commitLeaseTransition hentry (.of_home hB hdrawn hhome hentry hgen)
    (hstate.log.grants_randomUUID _ connectionId) ?_ _ transition
  intro id' hhome' hinc
  rw [hB.unique (hB.bound_of_home hhome') (hB.bound_of_home hhome)] at hinc
  exact absurd rfl hinc

/-- The claim of a runtime at home under the handle. -/
theorem Inv.claim (hB : B.Lawful next) (h : table.Inv B next) (hhome : B.home id k)
    (connectionId : ConnectionId) : (table.claim k (B.target id) connectionId).1.Inv B next := by
  have hreset := hB.home_generation (hB.bound_of_home hhome)
  have hstate := Inv.leaseStateFor hB h (Or.inl hreset)
  have hcommit := h.commit_drawn hB hhome connectionId .claim
  unfold LeaseTable.claim
  dsimp only
  split
  · exact hstate
  · split
    · exact hstate
    · split <;> rename_i heq <;> rw [heq] at hcommit <;> exact hcommit

/-- The takeover of a runtime at home under the handle. -/
theorem Inv.takeover (hB : B.Lawful next) (h : table.Inv B next) (hhome : B.home id k)
    (expectedLeaseRevision : ℕ) (connectionId : ConnectionId) :
    (table.takeover k (B.target id) expectedLeaseRevision connectionId).1.Inv B next := by
  have hreset := hB.home_generation (hB.bound_of_home hhome)
  have hstate := Inv.leaseStateFor hB h (Or.inl hreset)
  have hcommit := h.commit_drawn hB hhome connectionId .takeover
  unfold LeaseTable.takeover
  dsimp only
  split
  · exact hstate
  · split
    · exact hstate
    · split
      · exact hstate
      · exact hcommit

/-- An operation that only gives leases up: it keeps the invariant, and it commits only under
handles and generations that were committed under before. -/
structure Frees (B : Binding) (next : ℕ) (table table' : LeaseTable) : Prop where
  inv : table'.Inv B next
  suffix : table.log <:+ table'.log
  identities : ∀ c ∈ table'.log, ∃ c' ∈ table.log,
    c.At c'.transition.sessionHandle c'.transition.generation

/-- An operation that commits nothing gives nothing up. -/
theorem Frees.of_log {table' : LeaseTable} (h : table'.Inv B next)
    (hlog : table'.log = table.log) : Frees B next table table' where
  inv := h
  suffix := hlog ▸ List.suffix_refl _
  identities := fun c hc => ⟨c, hlog ▸ hc, rfl, rfl⟩

/-- Operations that only give leases up, one after the other. -/
theorem Frees.trans {table₁ table₂ : LeaseTable} (h₁ : Frees B next table table₁)
    (h₂ : Frees B next table₁ table₂) : Frees B next table table₂ where
  inv := h₂.inv
  suffix := h₁.suffix.trans h₂.suffix
  identities := by
    intro c hc
    obtain ⟨c₁, hc₁, hhandle₁, hgen₁⟩ := h₂.identities c hc
    obtain ⟨c₀, hc₀, hhandle₀, hgen₀⟩ := h₁.identities c₁ hc₁
    exact ⟨c₀, hc₀, hhandle₁.trans hhandle₀, hgen₁.trans hgen₀⟩

/-- Giving up an owned entry. -/
theorem Inv.commit_free (h : table.Inv B next) (hentry : table.leases.get? k = some e)
    {o : LeaseOwner} (howner : e.owner = some o) {i : ℕ} (htag : e.committedBy = some i)
    (generation : ℕ) (transition : LeaseTransitionKind) :
    Frees B next table (table.commitLeaseTransition k generation e transition none i).1 where
  inv := by
    refine h.commitLeaseTransition hentry (.of_owner h hentry howner htag) (table.grants_none i)
      ?_ generation transition
    intro id _ hinc heq
    rw [htag] at heq
    exact hinc (Option.some.inj heq).symm
  suffix := commitLeaseTransition_suffix ..
  identities := by
    obtain ⟨_, p, _, hlatest, _, _, hpat⟩ := h.entries.owner_commit hentry howner
    rcases table.commitLeaseTransition_spec k generation e transition none i with
      ⟨_, error, heq⟩ | ⟨error, heq⟩ | ⟨c, _, heq⟩ <;> rw [heq]
    · exact fun c hc => ⟨c, hc, rfl, rfl⟩
    · exact fun c hc => ⟨c, hc, rfl, rfl⟩
    · intro c hc
      rcases List.mem_cons.mp hc with rfl | hc
      · exact ⟨p, (leaseFencing.mem_of_latest hlatest).1, hpat.1.symm, hpat.2.symm⟩
      · exact ⟨c, hc, rfl, rfl⟩

/-- The label under which `releaseOwned` commits is that of the entry. -/
theorem Inv.release_label (h : table.Inv B next) (hentry : table.leases.get? k = some e)
    {o : LeaseOwner} (howner : e.owner = some o) (target : Option Target)
    (htarget : ∀ t, target = some t → e.generation = t.generation ∧
      ∃ id, t = B.target id ∧ B.bound id k) :
    e.committedBy = some (target.elim (e.committedBy.getD 0) (·.incarnation)) := by
  obtain ⟨i, c, htag, hlatest, _, _, hcat⟩ := h.entries.owner_commit hentry howner
  cases target with
  | none => simp [htag]
  | some t =>
    obtain ⟨hgen, id, rfl, hbound⟩ := htarget t rfl
    obtain ⟨hmem, hinc⟩ := leaseFencing.mem_of_latest hlatest
    change c.incarnation = i at hinc
    have hclean := h.log.clean id k hbound c hmem (hgen ▸ hcat)
    rw [htag, ← hinc, hclean]
    rfl

/-- A release for the runtime bound to the handle, or for no runtime. -/
theorem Inv.releaseOwned (hB : B.Lawful next) (h : table.Inv B next) {target : Option Target}
    (htarget : ∀ t, target = some t → ∃ id, t = B.target id ∧ B.bound id k)
    (expected : LeaseOwner → Bool) (transition : LeaseTransitionKind) :
    Frees B next table (table.releaseOwned k target expected transition).1 := by
  unfold LeaseTable.releaseOwned
  split
  · exact .of_log h rfl
  · rename_i generation hgeneration
    have hstate : (table.leaseStateFor k generation).1.Inv B next := by
      refine Inv.leaseStateFor hB h ?_
      cases target with
      | none =>
        right
        intro e he
        simpa [he] using hgeneration
      | some t =>
        left
        obtain ⟨id, rfl, hbound⟩ := htarget t rfl
        have hgen : (B.target id).generation = generation := by simpa using hgeneration
        rw [← hgen]
        exact hB.home_generation hbound
    obtain ⟨hentry, hgen, hlog, _⟩ := table.leaseStateFor_spec k generation
    dsimp only
    split
    · exact .of_log hstate hlog
    · rename_i howned
      obtain ⟨o, howner⟩ : ∃ o, (table.leaseStateFor k generation).2.owner = some o := by
        cases howner : (table.leaseStateFor k generation).2.owner with
        | none => simp [howner] at howned
        | some o => exact ⟨o, rfl⟩
      have hlabel := hstate.release_label hentry howner target (by
        intro t ht
        refine ⟨?_, htarget t ht⟩
        rw [ht] at hgeneration
        rw [hgen]
        exact (Option.some.inj hgeneration).symm)
      have hcommit := (Frees.of_log hstate hlog).trans
        (hstate.commit_free hentry howner hlabel generation transition)
      split <;> rename_i heq <;> rw [heq] at hcommit <;> exact hcommit

/-- A commit under a handle leaves the entries of the other handles. -/
theorem commitLeaseTransition_get?_of_ne (table : LeaseTable) {k k' : SessionHandle} (hk : k' ≠ k)
    (generation : ℕ) (e : LeaseState) (transition : LeaseTransitionKind)
    (owner : Option LeaseOwner) (i : ℕ) :
    (table.commitLeaseTransition k generation e transition owner i).1.leases.get? k' =
      table.leases.get? k' := by
  rcases table.commitLeaseTransition_spec k generation e transition owner i with
    ⟨_, error, heq⟩ | ⟨error, heq⟩ | ⟨c, _, heq⟩ <;> rw [heq]
  · exact InsertionMap.get?_insert_of_ne _ hk _
  · exact InsertionMap.get?_insert_of_ne _ hk _

/-- The loop over the entries of a connection. -/
theorem Inv.releaseEntries {entries : List (SessionHandle × LeaseState)}
    (connectionId : ConnectionId) (hnodup : (entries.map Prod.fst).Nodup)
    (hentries : ∀ entry ∈ entries, table.leases.get? entry.1 = some entry.2)
    (h : table.Inv B next) :
    Frees B next table (LeaseTable.releaseEntries connectionId entries table).1 := by
  induction entries generalizing table with
  | nil => exact .of_log h rfl
  | cons entry rest ih =>
    obtain ⟨handle, state⟩ := entry
    rw [List.map_cons, List.nodup_cons] at hnodup
    have hrest : ∀ entry ∈ rest, table.leases.get? entry.1 = some entry.2 := fun entry hmem =>
      hentries entry (List.mem_cons_of_mem _ hmem)
    simp only [LeaseTable.releaseEntries]
    split
    · exact ih hnodup.2 hrest h
    · rename_i howned
      have hentry := hentries _ List.mem_cons_self
      obtain ⟨o, howner⟩ : ∃ o, state.owner = some o := by
        cases howner : state.owner with
        | none => simp [howner] at howned
        | some o => exact ⟨o, rfl⟩
      have hlabel : state.committedBy = some (state.committedBy.getD 0) :=
        h.release_label hentry howner none (by simp)
      have hcommit := h.commit_free hentry howner hlabel state.generation .disconnect
      -- the entries still to come are at other handles
      have hkept : ∀ entry ∈ rest, (table.commitLeaseTransition handle state.generation state
          .disconnect none (state.committedBy.getD 0)).1.leases.get? entry.1 = some entry.2 := by
        intro entry hmem
        have hne : entry.1 ≠ handle := by
          rintro rfl
          exact hnodup.1 (List.mem_map.mpr ⟨entry, hmem, rfl⟩)
        rw [commitLeaseTransition_get?_of_ne _ hne]
        exact hrest entry hmem
      split
      · rename_i heq
        rw [heq] at hcommit
        exact hcommit
      · rename_i heq
        rw [heq] at hcommit hkept
        have hloop := hcommit.trans (ih hnodup.2 hkept hcommit.inv)
        split <;> rename_i heq' <;> rw [heq'] at hloop <;> exact hloop

/-- The end of a connection. -/
theorem Inv.releaseConnection (h : table.Inv B next) (connectionId : ConnectionId) :
    Frees B next table (table.releaseConnection connectionId).1 :=
  Inv.releaseEntries connectionId table.leases.nodup
    (fun _ hmem => InsertionMap.get?_of_mem hmem) h

/-- A drawn commit only adds to the history. -/
theorem commit_drawn_suffix (table : LeaseTable) (k : SessionHandle) (target : Target)
    (connectionId : ConnectionId) (transition : LeaseTransitionKind) :
    table.log <:+ ((table.leaseStateFor k target.generation).1.randomUUID.1.commitLeaseTransition k
      target.generation (table.leaseStateFor k target.generation).2 transition
      (some ⟨connectionId, (table.leaseStateFor k target.generation).1.randomUUID.2⟩)
      target.incarnation).1.log := by
  have hsuffix := commitLeaseTransition_suffix
    (table.leaseStateFor k target.generation).1.randomUUID.1 k target.generation
    (table.leaseStateFor k target.generation).2 transition
    (some ⟨connectionId, (table.leaseStateFor k target.generation).1.randomUUID.2⟩)
    target.incarnation
  have hlog := (table.leaseStateFor_spec k target.generation).2.2.1
  change (table.leaseStateFor k target.generation).1.log <:+ _ at hsuffix
  rwa [hlog] at hsuffix

/-- A claim only adds to the history. -/
theorem claim_suffix (table : LeaseTable) (k : SessionHandle) (target : Target)
    (connectionId : ConnectionId) : table.log <:+ (table.claim k target connectionId).1.log := by
  have hlog := (table.leaseStateFor_spec k target.generation).2.2.1
  have hcommit := table.commit_drawn_suffix k target connectionId .claim
  unfold LeaseTable.claim
  dsimp only
  split
  · exact hlog ▸ List.suffix_refl _
  · split
    · exact hlog ▸ List.suffix_refl _
    · split <;> rename_i heq <;> rw [heq] at hcommit <;> exact hcommit

/-- A takeover only adds to the history. -/
theorem takeover_suffix (table : LeaseTable) (k : SessionHandle) (target : Target)
    (expectedLeaseRevision : ℕ) (connectionId : ConnectionId) :
    table.log <:+ (table.takeover k target expectedLeaseRevision connectionId).1.log := by
  have hlog := (table.leaseStateFor_spec k target.generation).2.2.1
  have hcommit := table.commit_drawn_suffix k target connectionId .takeover
  unfold LeaseTable.takeover
  dsimp only
  split
  · exact hlog ▸ List.suffix_refl _
  · split
    · exact hlog ▸ List.suffix_refl _
    · split
      · exact hlog ▸ List.suffix_refl _
      · exact hcommit

/-- A takeover commits only over the revision it expects, held by another connection, at the
generation of the runtime; it commits the next revision. -/
theorem takeover_commits {target : Target} {expectedLeaseRevision : ℕ} {connectionId : ConnectionId}
    (h : (table.takeover k target expectedLeaseRevision connectionId).1.log ≠ table.log) :
    (∃ e o, table.leases.get? k = some e ∧ e.generation = target.generation ∧
        e.revision = expectedLeaseRevision ∧ e.owner = some o ∧ o.connectionId ≠ connectionId) ∧
      (table.takeover k target expectedLeaseRevision connectionId).1.log =
        ⟨target.incarnation,
          { sessionHandle := k
            generation := target.generation
            leaseRevision := expectedLeaseRevision + 1
            transition := .takeover
            owner := some ⟨connectionId, table.nextToken⟩ }⟩ :: table.log := by
  obtain ⟨_, hgen, hlog, htoken⟩ := table.leaseStateFor_spec k target.generation
  -- a state with an owner was already in the map
  have hstate : ∀ o, (table.leaseStateFor k target.generation).2.owner = some o →
      table.leases.get? k = some (table.leaseStateFor k target.generation).2 := by
    intro o
    unfold leaseStateFor
    split
    · rename_i existing hget
      split
      · intro _
        exact hget
      · intro howner
        cases howner
    · intro howner
      cases howner
  unfold takeover at h ⊢
  dsimp only at h ⊢
  split at h
  · exact absurd hlog h
  · rename_i hterminal
    split at h
    · exact absurd hlog h
    · rename_i hrevision
      split at h
      · exact absurd hlog h
      · rename_i hother
        rw [if_neg hterminal, if_neg hrevision, if_neg hother]
        rw [not_not] at hrevision
        refine ⟨?_, ?_⟩
        · cases howner : (table.leaseStateFor k target.generation).2.owner with
          | none => simp [howner] at hother
          | some o =>
            refine ⟨_, o, hstate o howner, hgen, hrevision, howner, ?_⟩
            simpa [howner] using hother
        · have hspec := commitLeaseTransition_spec
            (table.leaseStateFor k target.generation).1.randomUUID.1 k target.generation
            (table.leaseStateFor k target.generation).2 .takeover
            (some ⟨connectionId, (table.leaseStateFor k target.generation).1.randomUUID.2⟩)
            target.incarnation
          rcases hspec with ⟨_, _, heq⟩ | ⟨_, heq⟩ | ⟨_, _, heq⟩
          · rw [heq] at h
            exact absurd hlog h
          · rw [heq] at h
            exact absurd hlog h
          · rw [heq]
            simp only [committed, randomUUID, set, hlog, htoken, hgen, hrevision]

/-- A rekey only adds to the history. -/
theorem rekey_suffix (table : LeaseTable) (previousHandle nextHandle : SessionHandle)
    (target : Target) : table.log <:+ (table.rekey previousHandle nextHandle target).1.log := by
  unfold LeaseTable.rekey
  dsimp only
  split
  · exact List.suffix_refl _
  · split
    · exact List.suffix_refl _
    · split
      · exact List.suffix_refl _
      · exact commitLeaseTransition_suffix
          (((table.delete previousHandle).delete nextHandle).set nextHandle _) ..

/-- The entry of one handle moves to another, possibly giving its owner up. -/
theorem EntryInv.move (h : table.EntryInv) {previousHandle nextHandle : SessionHandle}
    (hentry : table.leases.get? previousHandle = some e) {e' : LeaseState}
    (htag : e'.committedBy = e.committedBy) (hrevision : e'.revision = e.revision)
    (hgeneration : e'.generation = e.generation) (hfree : e'.owner = none) :
    (((table.delete previousHandle).delete nextHandle).set nextHandle e').EntryInv := by
  have hrest : ∀ k e₀,
      (((table.delete previousHandle).delete nextHandle).set nextHandle e').leases.get? k =
          some e₀ →
        (k = nextHandle ∧ e₀ = e') ∨ k ≠ previousHandle ∧ table.leases.get? k = some e₀ := by
    intro k e₀ hget
    simp only [LeaseTable.set, LeaseTable.delete, InsertionMap.get?_insert] at hget
    by_cases hk : k = nextHandle
    · rw [if_pos hk] at hget
      exact Or.inl ⟨hk, (Option.some.inj hget).symm⟩
    · rw [if_neg hk, InsertionMap.get?_erase_of_ne _ hk, InsertionMap.get?_erase] at hget
      by_cases hprev : k = previousHandle
      · rw [if_pos hprev] at hget
        cases hget
      · rw [if_neg hprev] at hget
        exact Or.inr ⟨hprev, hget⟩
  constructor
  · intro k e₀ hget i hi
    rcases hrest k e₀ hget with ⟨_, rfl⟩ | ⟨_, hold⟩
    · rw [htag] at hi
      obtain ⟨c, hlatest, hrev, hgen, _⟩ := h.matchesLog previousHandle e hentry i hi
      refine ⟨c, hlatest, hrev.trans hrevision.symm, hgen.trans hgeneration.symm, ?_⟩
      intro o ho
      rw [hfree] at ho
      cases ho
    · exact h.matchesLog k e₀ hold i hi
  · intro k₁ e₁ k₂ e₂ i h₁ h₂ hi₁ hi₂
    rcases hrest k₁ e₁ h₁ with ⟨hk₁, rfl⟩ | ⟨hne₁, hold₁⟩ <;>
      rcases hrest k₂ e₂ h₂ with ⟨hk₂, rfl⟩ | ⟨hne₂, hold₂⟩
    · rw [hk₁, hk₂]
    · rw [htag] at hi₁
      exact absurd (h.unique k₂ e₂ previousHandle e i hold₂ hentry hi₂ hi₁) hne₂
    · rw [htag] at hi₂
      exact absurd (h.unique k₁ e₁ previousHandle e i hold₁ hentry hi₁ hi₂) hne₁
    · exact h.unique k₁ e₁ k₂ e₂ i hold₁ hold₂ hi₁ hi₂

/-- How a binding changes when the lease of a runtime moves from one handle to another. -/
structure Rehomed (B B' : Binding) (id : ℕ) (previousHandle nextHandle : SessionHandle) : Prop where
  target : B'.target = B.target
  bound : ∀ {id' k}, B'.bound id' k → B.bound id' k
  home_previous : B.home id previousHandle
  bound_next : B.bound id nextHandle
  home : ∀ {id' k}, B'.home id' k → (id' = id ∧ k = nextHandle) ∨ (id' ≠ id ∧ B.home id' k)

/-- The history invariant under fewer bindings. -/
theorem LogInv.mono (h : table.LogInv B next) (htarget : B'.target = B.target)
    (hbound : ∀ {id' k}, B'.bound id' k → B.bound id' k) : table.LogInv B' next where
  ledger := h.ledger
  token_lt := h.token_lt
  incarnation_lt := h.incarnation_lt
  same_generation := h.same_generation
  same_incarnation := h.same_incarnation
  clean := by
    intro id k hb
    rw [htarget]
    exact h.clean id k (hbound hb)
  generation := by
    intro id k hb
    rw [htarget]
    exact h.generation id k (hbound hb)

section Rekey

variable {previousHandle nextHandle : SessionHandle}

/-- The other runtimes keep their entries when a lease is moved. -/
theorem Rehomed.others (hB : B.Lawful next) (hmove : Rehomed B B' id previousHandle nextHandle)
    (h : table.Inv B next) :
    ∀ id' k', B'.home id' k' → id' ≠ id → ∀ c ∈ table.log,
      c.incarnation = (B'.target id').incarnation → k' ≠ nextHandle ∧
        ∃ e', ((table.delete previousHandle).delete nextHandle).leases.get? k' = some e' ∧
          e'.committedBy = some (B'.target id').incarnation := by
  intro id' k' hhome' hne c hc hinc
  rcases hmove.home hhome' with ⟨heq, _⟩ | ⟨_, hhome⟩
  · exact absurd heq hne
  · rw [hmove.target] at hinc ⊢
    obtain ⟨e', he', htag⟩ := h.current id' k' hhome c hc hinc
    have hbound := hB.bound_of_home hhome
    have hnext : k' ≠ nextHandle := by
      rintro rfl
      exact hne (hB.unique hbound hmove.bound_next)
    have hprevious : k' ≠ previousHandle := by
      rintro rfl
      exact hne (hB.unique hbound (hB.bound_of_home hmove.home_previous))
    refine ⟨hnext, e', ?_, htag⟩
    simp only [LeaseTable.delete]
    rw [InsertionMap.get?_erase_of_ne _ hnext, InsertionMap.get?_erase_of_ne _ hprevious]
    exact he'

/-- The moved entry of a runtime stands for it at its new home. -/
theorem Rehomed.current_set (hB : B.Lawful next)
    (hmove : Rehomed B B' id previousHandle nextHandle) (h : table.Inv B next)
    (hown : ∀ c ∈ table.log, c.incarnation = (B.target id).incarnation →
      e.committedBy = some (B.target id).incarnation) :
    (((table.delete previousHandle).delete nextHandle).set nextHandle e).Current B' := by
  intro id' k' hhome' c hc hinc
  by_cases hid : id' = id
  · subst hid
    rcases hmove.home hhome' with ⟨_, rfl⟩ | ⟨hne, _⟩
    · rw [hmove.target] at hinc ⊢
      exact ⟨e, by simp [LeaseTable.set], hown c hc hinc⟩
    · exact absurd rfl hne
  · obtain ⟨hne, e', he', htag⟩ := hmove.others hB h id' k' hhome' hid c hc hinc
    exact ⟨e', by rwa [LeaseTable.set, InsertionMap.get?_insert_of_ne _ hne], htag⟩

/-- The runtime whose lease moves may commit over the moved state at its new home. -/
theorem CommitAt.of_rehomed (hB : B.Lawful next)
    (hmove : Rehomed B B' id previousHandle nextHandle) (h : table.Inv B next)
    (hentry : table.leases.get? previousHandle = some e)
    (hgen : e.generation = (B.target id).generation) :
    CommitAt B' next ((table.delete previousHandle).delete nextHandle) nextHandle e
      (B.target id).incarnation := by
  have hat := CommitAt.of_home hB h hmove.home_previous hentry hgen
  constructor
  case last_revision => exact hat.last_revision
  case own_identity =>
    intro c hc hcat
    rw [hgen] at hcat
    exact h.log.clean id nextHandle hmove.bound_next c hc hcat
  case own_generation => exact hat.own_generation
  case incarnation_lt => exact hat.incarnation_lt
  case bound_incarnation =>
    intro id' hbound' _
    rw [hmove.target, hB.unique (hmove.bound hbound') hmove.bound_next]
  case bound_generation =>
    intro id' k' hbound' hinc
    rw [hmove.target] at hinc ⊢
    exact hat.bound_generation id' k' (hmove.bound hbound') hinc
  case only_entry =>
    intro k' e' he' htag
    by_contra hne
    simp only [LeaseTable.delete] at he'
    rw [InsertionMap.get?_erase_of_ne _ hne, InsertionMap.get?_erase] at he'
    by_cases hprev : k' = previousHandle
    · rw [if_pos hprev] at he'
      cases he'
    · rw [if_neg hprev] at he'
      exact hprev (hat.only_entry k' e' he' htag)
  case only_home =>
    intro id' k' hhome' hinc
    rw [hmove.target] at hinc
    rcases hmove.home hhome' with ⟨_, rfl⟩ | ⟨hne, hhome⟩
    · rfl
    · exact absurd (hB.distinct (hB.bound_of_home hhome) hmove.bound_next hinc) hne

/-- The lease of a runtime that another generation left behind is dropped. -/
theorem Inv.rekey_fresh (hB : B.Lawful next)
    (hmove : Rehomed B B' id previousHandle nextHandle) (h : table.Inv B next)
    (hstale : ∀ e, table.leases.get? previousHandle = some e →
      e.generation ≠ (B.target id).generation) :
    (((table.delete previousHandle).delete nextHandle).set nextHandle
      (.fresh (B.target id).generation)).Inv B' next := by
  refine ⟨(h.log.mono hmove.target hmove.bound).congr rfl le_rfl,
    ((h.entries.delete previousHandle).delete nextHandle).set (by simp [LeaseState.fresh]),
    hmove.current_set hB h ?_⟩
  intro c hc hinc
  obtain ⟨e, he, htag⟩ := h.current id previousHandle hmove.home_previous c hc hinc
  obtain ⟨p, hlatest, _, hgen, _⟩ := h.entries.matchesLog previousHandle e he _ htag
  obtain ⟨hmem, hpinc⟩ := leaseFencing.mem_of_latest hlatest
  have hpgen := h.log.generation id nextHandle hmove.bound_next p hmem hpinc
  exact absurd (hgen.symm.trans hpgen) (hstale e he)

/-- A commit of the current runtime leaves no foreign label at its home. -/
theorem Inv.home_label (h : table.Inv B next) (hhome : B.home id k)
    (hentry : table.leases.get? k = some e) :
    ∀ c ∈ table.log, c.incarnation = (B.target id).incarnation →
      e.committedBy = some (B.target id).incarnation := by
  intro c hc hinc
  obtain ⟨e', he', htag⟩ := h.current id k hhome c hc hinc
  rw [hentry] at he'
  cases he'
  exact htag

/-- A moved owner keeps its token. -/
theorem Inv.grants_kept (hB : B.Lawful next) (h : table.Inv B next) (hhome : B.home id k)
    (hentry : table.leases.get? k = some e) (hgen : e.generation = (B.target id).generation)
    {o : LeaseOwner} (howner : e.owner = some o) :
    table.Grants (B.target id).incarnation e.owner := by
  obtain ⟨i, c, htag, hlatest, _, hcowner, hcat⟩ := h.entries.owner_commit hentry howner
  have hlabel := h.release_label hentry howner (some (B.target id)) (by
    rintro t ⟨⟩
    exact ⟨hgen, id, rfl, hB.bound_of_home hhome⟩)
  have hi : i = (B.target id).incarnation := Option.some.inj (htag.symm.trans hlabel)
  subst hi
  obtain ⟨hmem, _⟩ := leaseFencing.mem_of_latest hlatest
  intro o' ho'
  rw [howner] at ho'
  cases ho'
  have htoken : c.token = some o.fencingToken := by simp [LeaseCommit.token, hcowner]
  exact ⟨h.log.token_lt c hmem _ htoken, Or.inr ⟨c, hlatest, htoken⟩⟩

/-- Moving a lease with its runtime. -/
theorem Inv.rekey (hB : B.Lawful next) (hmove : Rehomed B B' id previousHandle nextHandle)
    (h : table.Inv B next) :
    (table.rekey previousHandle nextHandle (B.target id)).1.Inv B' next := by
  have hlog := h.log.mono hmove.target hmove.bound
  unfold LeaseTable.rekey
  dsimp only
  cases hprevious : table.leases.get? previousHandle with
  | none =>
    refine h.rekey_fresh hB hmove ?_
    intro e he
    rw [hprevious] at he
    cases he
  | some e =>
    dsimp only
    by_cases hgen : e.generation = (B.target id).generation
    · rw [if_neg (by simpa using hgen)]
      have hlabel := h.home_label hmove.home_previous hprevious
      cases howner : e.owner with
      | none =>
        rw [if_pos (by simp)]
        exact ⟨hlog.congr rfl le_rfl, h.entries.move hprevious rfl rfl rfl howner,
          hmove.current_set hB h hlabel⟩
      | some o =>
        rw [if_neg (by simp)]
        have hat := CommitAt.of_rehomed hB hmove h hprevious hgen
        have hgrants := howner ▸ h.grants_kept hB hmove.home_previous hprevious hgen howner
        rcases commitLeaseTransition_spec
            (((table.delete previousHandle).delete nextHandle).set nextHandle e) nextHandle
            (B.target id).generation e .rekey (some o) (B.target id).incarnation with
          ⟨hrefused, _⟩ | ⟨error, heq⟩ | ⟨c, _, heq⟩
        · rw [(e.owned (by simp [howner])).1] at hrefused
          exact absurd hgen (by simpa using hrefused)
        · rw [heq, LeaseTable.set, LeaseTable.set, InsertionMap.insert_insert]
          exact ⟨hlog.congr rfl le_rfl, h.entries.move hprevious rfl rfl rfl rfl,
            hmove.current_set (e := e.exhausted) hB h hlabel⟩
        · have hset : (((table.delete previousHandle).delete nextHandle).set nextHandle
              e).committed nextHandle e .rekey (some o) (B.target id).incarnation =
              ((table.delete previousHandle).delete nextHandle).committed nextHandle e .rekey
                (some o) (B.target id).incarnation := by
            simp only [LeaseTable.committed, LeaseTable.set, InsertionMap.insert_insert]
          rw [heq, hset]
          have hother := hmove.others hB h
          have hlog' : ((table.delete previousHandle).delete nextHandle).LogInv B' next :=
            hlog.congr rfl le_rfl
          refine ⟨hlog'.committed hat hgrants .rekey,
            ((h.entries.delete previousHandle).delete nextHandle).committed hat .rekey,
            Current.committed hat ?_ ?_ .rekey⟩
          · intro id' k' hhome' hinc c hc hcinc
            have hne : id' ≠ id := by
              rintro rfl
              exact hinc (by rw [hmove.target])
            exact (hother id' k' hhome' hne c hc hcinc).2
          · intro id' _ _ e' he'
            simp [LeaseTable.delete] at he'
    · rw [if_pos (by simpa using hgen)]
      refine h.rekey_fresh hB hmove ?_
      intro e' he'
      rw [hprevious] at he'
      cases he'
      exact hgen

end Rekey

end LeaseTable

end PiAgentWeb
