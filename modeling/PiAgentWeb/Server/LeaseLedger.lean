import PiAgentWeb.Server.LeaseBridge

/-!
# The commits of one lease

Seen from one connection, the lease of a Session is the list of its commits. Every revision belongs
to one commit, the newest commit decides the owner, and a message to the connection describes one
revision as its commit left it.
-/

namespace PiAgentWeb

namespace WatchedLease

variable (w : WatchedLease)

/-- The lease of the watched Session; the entry appears with its first use. -/
def current (table : LeaseTable) : LeaseState :=
  (table.leaseStateFor w.sessionHandle w.target.generation).2

/-- The commits, newest first. -/
def issued (table : LeaseTable) : List SessionLeaseTransition :=
  table.log.map (·.transition)

/-- The commits are numbered from one. -/
def Numbered : List SessionLeaseTransition → Prop
  | [] => True
  | transition :: earlier => transition.leaseRevision = earlier.length + 1 ∧ Numbered earlier

/-- The owner that the commit of a revision left. -/
def ownerAt (commits : List SessionLeaseTransition) (revision : ℕ) : Option LeaseOwner :=
  (commits.find? (·.leaseRevision = revision)).bind (·.owner)

theorem Numbered.le_length {commits : List SessionLeaseTransition} (h : Numbered commits)
    {transition : SessionLeaseTransition} (hmem : transition ∈ commits) :
    1 ≤ transition.leaseRevision ∧ transition.leaseRevision ≤ commits.length := by
  induction commits with
  | nil => cases hmem
  | cons newest earlier ih =>
    obtain ⟨hrevision, hearlier⟩ := h
    rcases List.mem_cons.mp hmem with rfl | hmem
    · simp only [List.length_cons]
      omega
    · have := ih hearlier hmem
      simp only [List.length_cons]
      omega

theorem Numbered.unique {commits : List SessionLeaseTransition} (h : Numbered commits)
    {first second : SessionLeaseTransition} (hfirst : first ∈ commits) (hsecond : second ∈ commits)
    (hrevision : first.leaseRevision = second.leaseRevision) : first = second := by
  induction commits with
  | nil => cases hfirst
  | cons newest earlier ih =>
    obtain ⟨hnewest, hearlier⟩ := h
    rcases List.mem_cons.mp hfirst with hfirst | hfirst <;>
      rcases List.mem_cons.mp hsecond with hsecond | hsecond
    · rw [hfirst, hsecond]
    · have := hearlier.le_length hsecond
      rw [hfirst] at hrevision
      omega
    · have := hearlier.le_length hfirst
      rw [hsecond] at hrevision
      omega
    · exact ih hearlier hfirst hsecond

theorem Numbered.ownerAt_eq {commits : List SessionLeaseTransition} (h : Numbered commits)
    {transition : SessionLeaseTransition} (hmem : transition ∈ commits) :
    ownerAt commits transition.leaseRevision = transition.owner := by
  have hfound : (commits.find? (·.leaseRevision = transition.leaseRevision)).isSome := by
    simpa using ⟨transition, hmem, rfl⟩
  obtain ⟨found, hfind⟩ := Option.isSome_iff_exists.mp hfound
  have hrevision : found.leaseRevision = transition.leaseRevision := by
    simpa using List.find?_some hfind
  have hsame : found = transition := h.unique (List.mem_of_find?_eq_some hfind) hmem hrevision
  simp [ownerAt, hfind, hsame]

theorem ownerAt_cons {commits : List SessionLeaseTransition} {newest : SessionLeaseTransition}
    (h : Numbered (newest :: commits)) {revision : ℕ} (hle : revision ≤ commits.length) :
    ownerAt (newest :: commits) revision = ownerAt commits revision := by
  have hne : newest.leaseRevision ≠ revision := by
    have := h.1
    omega
  simp [ownerAt, hne]

theorem Numbered.ownerAt_length {commits : List SessionLeaseTransition} (h : Numbered commits) :
    ownerAt commits commits.length = commits.head?.bind (·.owner) := by
  cases commits with
  | nil => rfl
  | cons newest earlier =>
    have howner := h.ownerAt_eq (List.mem_cons_self (a := newest) (l := earlier))
    rw [h.1] at howner
    simpa using howner

/-- The lease table as the commits describe it: at most the watched Session has an entry. -/
structure Ledger (table : LeaseTable) : Prop where
  single : table.leases = InsertionMap.empty ∨
    table.leases = InsertionMap.empty.insert w.sessionHandle (w.current table)
  generation : (w.current table).generation = w.target.generation
  active : (w.current table).terminal = false
  numbered : Numbered (issued table)
  revision : (w.current table).revision = (issued table).length
  owner : (w.current table).owner = (issued table).head?.bind (·.owner)
  watched : ∀ transition ∈ issued table, transition.sessionHandle = w.sessionHandle ∧
    transition.generation = w.target.generation ∧ transition.transition ≠ .baseline

/-- The table once the lease has been looked up. -/
def lookedUp (table : LeaseTable) : LeaseTable :=
  { table with leases := InsertionMap.empty.insert w.sessionHandle (w.current table) }

/-- The revisions are not exhausted. -/
def RevisionsLeft (table : LeaseTable) : Prop :=
  ∀ state ∈ table.leases.get? w.sessionHandle, state.revision < maxSafeInteger

namespace Ledger

variable {w} {table table' : LeaseTable}

theorem current_of_leases {state : LeaseState}
    (hleases : table.leases = InsertionMap.empty.insert w.sessionHandle state)
    (hgeneration : state.generation = w.target.generation) : w.current table = state := by
  simp [current, LeaseTable.leaseStateFor, hleases, hgeneration]

theorem leaseStateFor_eq (h : w.Ledger table) :
    table.leaseStateFor w.sessionHandle w.target.generation =
      (w.lookedUp table, w.current table) := by
  rcases h.single with hempty | hentry
  · have hcurrent : w.current table = .fresh w.target.generation := by
      simp [current, LeaseTable.leaseStateFor, hempty]
    simp [LeaseTable.leaseStateFor, LeaseTable.set, lookedUp, hcurrent, hempty]
  · have hget : table.leases.get? w.sessionHandle = some (w.current table) := by
      rw [hentry]
      exact InsertionMap.get?_insert_self _ _ _
    have hsame : w.lookedUp table = table := by
      rw [lookedUp, ← hentry]
    rw [hsame]
    simp [LeaseTable.leaseStateFor, hget, h.generation]

theorem revision_lt (h : w.Ledger table) (hleft : w.RevisionsLeft table) :
    (w.current table).revision < maxSafeInteger := by
  rcases h.single with hempty | hentry
  · have hcurrent : w.current table = .fresh w.target.generation := by
      simp [current, LeaseTable.leaseStateFor, hempty]
    rw [hcurrent]
    exact Nat.lt_of_lt_of_le Nat.zero_lt_one (by decide)
  · refine hleft _ ?_
    rw [hentry]
    simp

theorem of_leases (h : w.Ledger table)
    (hleases : table'.leases = InsertionMap.empty.insert w.sessionHandle (w.current table))
    (hissued : issued table' = issued table) : w.Ledger table' := by
  have hcurrent : w.current table' = w.current table := current_of_leases hleases h.generation
  refine ⟨Or.inr (hcurrent ▸ hleases), ?_, ?_, ?_, ?_, ?_, ?_⟩
  · rw [hcurrent, h.generation]
  · rw [hcurrent, h.active]
  · rw [hissued]
    exact h.numbered
  · rw [hcurrent, hissued, h.revision]
  · rw [hcurrent, hissued, h.owner]
  · rw [hissued]
    exact h.watched

theorem lookedUp (h : w.Ledger table) : w.Ledger (w.lookedUp table) :=
  h.of_leases rfl rfl

theorem commit (h : w.Ledger table) (hleft : w.RevisionsLeft table) (table' : LeaseTable)
    (hleases : table'.leases = InsertionMap.empty.insert w.sessionHandle (w.current table))
    (hissued : issued table' = issued table) (transition : LeaseTransitionKind)
    (hkind : transition ≠ .baseline) (owner : Option LeaseOwner) (incarnation : ℕ) :
    ∃ committed table'',
      table'.commitLeaseTransition w.sessionHandle w.target.generation (w.current table) transition
          owner incarnation = (table'', .ok committed) ∧
        w.Ledger table'' ∧ issued table'' = committed :: issued table ∧
        committed.owner = owner ∧
        table''.leases =
          InsertionMap.empty.insert w.sessionHandle
            ((w.current table).successor owner incarnation) := by
  have hlt := h.revision_lt hleft
  have hgo : ¬((w.current table).terminal = true ∨
      (w.current table).generation ≠ w.target.generation) := by
    simp [h.active, h.generation]
  refine ⟨_, _, by rw [LeaseTable.commitLeaseTransition, if_neg hgo, if_neg (by omega)], ?_, ?_,
    rfl,
    ?_⟩
  · -- the new entry is the successor, and the new commit is the newest
    have hnew : w.current { table'.set w.sessionHandle
      ((w.current table).successor owner incarnation)
        with log := ⟨incarnation, ⟨w.sessionHandle, w.target.generation,
          (w.current table).revision + 1, transition, owner⟩⟩ :: table'.log } =
        (w.current table).successor owner incarnation := by
      refine current_of_leases ?_ h.generation
      simp [LeaseTable.set, hleases]
    constructor
    · right
      rw [hnew]
      simp [LeaseTable.set, hleases]
    · rw [hnew]
      exact h.generation
    · rw [hnew]
      rfl
    · refine ⟨?_, ?_⟩
      · change (w.current table).revision + 1 = (issued table').length + 1
        rw [hissued, h.revision]
      · change Numbered (issued table')
        rw [hissued]
        exact h.numbered
    · rw [hnew]
      change (w.current table).revision + 1 = (issued table').length + 1
      rw [hissued, h.revision]
    · rw [hnew]
      rfl
    · intro committed hmem
      rcases List.mem_cons.mp hmem with rfl | hmem
      · exact ⟨rfl, rfl, hkind⟩
      · exact h.watched committed (hissued ▸ hmem)
  · rw [← hissued]
    rfl
  · simp [LeaseTable.set, hleases]

end Ledger

/-- What an operation left, given what it committed. -/
structure Follows (table table' : LeaseTable) (committed : Option SessionLeaseTransition) :
    Prop where
  ledger : w.Ledger table'
  issued_eq : issued table' = committed.toList ++ issued table

namespace Ledger

variable {w} {table table' : LeaseTable}

theorem claim (h : w.Ledger table) (hleft : w.RevisionsLeft table) (connectionId : ConnectionId) :
    ∃ table' lease committed,
      table.claim w.sessionHandle w.target connectionId = (table', .ok (lease, committed)) ∧
        w.Follows table table' committed ∧
        (committed = none → lease = LeaseTable.leaseSnapshot w.sessionHandle w.target.generation
          (some (w.current table)) connectionId) ∧
        ∀ transition ∈ committed, ∃ fencingToken,
          transition.owner = some ⟨connectionId, fencingToken⟩ ∧ lease.isController = true ∧
            lease.fencingToken = some fencingToken := by
  unfold LeaseTable.claim
  rw [h.leaseStateFor_eq]
  by_cases howned : (w.current table).owner.isSome
  · refine ⟨w.lookedUp table, _, none, ?_, ⟨h.lookedUp, rfl⟩, fun _ => rfl, by simp⟩
    simp [h.active, howned]
  · obtain ⟨committed, table'', hcommit, hledger, hissued, howner, hleases⟩ :=
      h.commit hleft (w.lookedUp table).randomUUID.1 rfl rfl .claim (by decide)
        (some ⟨connectionId, table.nextToken⟩) w.target.incarnation
    refine ⟨table'', LeaseTable.leaseSnapshot w.sessionHandle w.target.generation
      (table''.leases.get? w.sessionHandle) connectionId .claim, some committed, ?_,
      ⟨hledger, hissued⟩, by simp, ?_⟩
    · have htoken : (w.lookedUp table).randomUUID.2 = table.nextToken := rfl
      simp [h.active, howned, htoken, hcommit]
    · rintro transition htransition
      cases htransition
      refine ⟨table.nextToken, howner, ?_, ?_⟩ <;>
        simp [LeaseTable.leaseSnapshot, hleases, LeaseState.successor]

theorem takeover (h : w.Ledger table) (hleft : w.RevisionsLeft table)
    (expectedLeaseRevision : ℕ) (connectionId : ConnectionId) :
    (∃ table' error,
        table.takeover w.sessionHandle w.target expectedLeaseRevision connectionId =
          (table', .error error) ∧ w.Follows table table' none) ∨
      ∃ table' transition fencingToken,
        table.takeover w.sessionHandle w.target expectedLeaseRevision connectionId =
            (table', .ok transition) ∧
          w.Follows table table' (some transition) ∧
          transition.owner = some ⟨connectionId, fencingToken⟩ := by
  unfold LeaseTable.takeover
  rw [h.leaseStateFor_eq]
  by_cases hrevision : (w.current table).revision ≠ expectedLeaseRevision
  · exact Or.inl ⟨w.lookedUp table, _, by simp [h.active, hrevision]; rfl, h.lookedUp, rfl⟩
  by_cases howned : (w.current table).owner.all (·.connectionId = connectionId) = true
  · exact Or.inl ⟨w.lookedUp table, _, by
      simp only [h.active, if_neg hrevision, if_pos howned]; rfl, h.lookedUp, rfl⟩
  obtain ⟨committed, table'', hcommit, hledger, hissued, howner, _⟩ :=
    h.commit hleft (w.lookedUp table).randomUUID.1 rfl rfl .takeover (by decide)
      (some ⟨connectionId, table.nextToken⟩) w.target.incarnation
  refine Or.inr ⟨table'', committed, table.nextToken, ?_, ⟨hledger, hissued⟩, howner⟩
  have htoken : (w.lookedUp table).randomUUID.2 = table.nextToken := rfl
  simp [h.active, hrevision, howned, htoken, hcommit]

theorem releaseOwned (h : w.Ledger table) (hleft : w.RevisionsLeft table)
    (expected : LeaseOwner → Bool) (kind : LeaseTransitionKind) (hkind : kind ≠ .baseline) :
    ∃ table' committed,
      table.releaseOwned w.sessionHandle (some w.target) expected kind =
          (table', .ok committed) ∧
        w.Follows table table' committed ∧
        (committed = none → (w.current table).owner.any expected = false) := by
  unfold LeaseTable.releaseOwned
  simp only [Option.elim_some]
  rw [h.leaseStateFor_eq]
  by_cases howner : (w.current table).owner.any expected = true
  · obtain ⟨committed, table'', hcommit, hledger, hissued, _⟩ :=
      h.commit hleft (w.lookedUp table) rfl rfl kind hkind none w.target.incarnation
    refine ⟨table'', some committed, ?_, ⟨hledger, hissued⟩, by simp⟩
    simp [h.active, howner, hcommit]
  · refine ⟨w.lookedUp table, none, ?_, ⟨h.lookedUp, rfl⟩, fun _ => ?_⟩
    · simp [h.active, howner]
    · simpa using howner

theorem releaseConnection (h : w.Ledger table) (hleft : w.RevisionsLeft table)
    (connectionId : ConnectionId) :
    ∃ table' committed,
      table.releaseConnection connectionId = (table', .ok committed.toList) ∧
        w.Follows table table' committed := by
  unfold LeaseTable.releaseConnection
  rcases h.single with hempty | hentry
  · refine ⟨table, none, ?_, h, rfl⟩
    rw [hempty]
    rfl
  rw [show table.leases.entries = [(w.sessionHandle, w.current table)] by rw [hentry]; rfl]
  by_cases howner : (w.current table).owner.any (·.connectionId = connectionId) = true
  · obtain ⟨committed, table'', hcommit, hledger, hissued, _⟩ :=
      h.commit hleft table hentry rfl .disconnect (by decide) none
        ((w.current table).committedBy.getD 0)
    refine ⟨table'', some committed, ?_, ⟨hledger, hissued⟩⟩
    simp [LeaseTable.releaseEntries, h.active, howner, h.generation, hcommit]
  · refine ⟨table, none, ?_, h, rfl⟩
    simp [LeaseTable.releaseEntries, h.active, howner]

end Ledger

/-- A message describes a revision as its commit left it. -/
structure Describes (commits : List SessionLeaseTransition) (message : SessionLeaseSnapshot) :
    Prop where
  le_length : message.leaseRevision ≤ commits.length
  view : message = w.view ⟨w.sessionHandle, w.target.generation, message.leaseRevision,
    message.transition, ownerAt commits message.leaseRevision⟩
  form : message.transition = .baseline ∨ ∃ transition ∈ commits,
    transition.leaseRevision = message.leaseRevision ∧ transition.transition = message.transition

namespace Describes

variable {w} {commits : List SessionLeaseTransition} {message other : SessionLeaseSnapshot}

theorem cons (h : w.Describes commits message) {newest : SessionLeaseTransition}
    (hnumbered : Numbered (newest :: commits)) : w.Describes (newest :: commits) message where
  le_length := by
    have := h.le_length
    simp only [List.length_cons]
    omega
  view := by
    rw [ownerAt_cons hnumbered h.le_length]
    exact h.view
  form := by
    rcases h.form with hbaseline | ⟨transition, hmem, hform⟩
    · exact Or.inl hbaseline
    · exact Or.inr ⟨transition, List.mem_cons_of_mem _ hmem, hform⟩

theorem unique (h : w.Describes commits message) (h' : w.Describes commits other)
    (hnumbered : Numbered commits) (hrevision : message.leaseRevision = other.leaseRevision)
    (hform : message.transition = .baseline ↔ other.transition = .baseline) : message = other := by
  have htransition : message.transition = other.transition := by
    rcases h.form with hbaseline | ⟨first, hfirst, hfirstRevision, hfirstForm⟩
    · rw [hbaseline, hform.mp hbaseline]
    rcases h'.form with hbaseline | ⟨second, hsecond, hsecondRevision, hsecondForm⟩
    · rw [hbaseline, hform.mpr hbaseline]
    have hsame := hnumbered.unique hfirst hsecond (by omega)
    rw [← hfirstForm, ← hsecondForm, hsame]
  rw [h.view, h'.view, hrevision, htransition]

end Describes

namespace Ledger

variable {w} {table : LeaseTable}

theorem describes_view (h : w.Ledger table) {transition : SessionLeaseTransition}
    (hmem : transition ∈ issued table) : w.Describes (issued table) (w.view transition) where
  le_length := (h.numbered.le_length hmem).2
  view := by
    have howner := h.numbered.ownerAt_eq hmem
    obtain ⟨hhandle, hgeneration, _⟩ := h.watched transition hmem
    change _ = w.view ⟨w.sessionHandle, w.target.generation, transition.leaseRevision,
      transition.transition, ownerAt (issued table) transition.leaseRevision⟩
    rw [howner, ← hhandle, ← hgeneration]
  form := Or.inr ⟨transition, hmem, rfl, rfl⟩

theorem leaseSnapshot_eq (h : w.Ledger table) :
    LeaseTable.leaseSnapshot w.sessionHandle w.target.generation (some (w.current table))
        w.connectionId =
      w.view ⟨w.sessionHandle, w.target.generation, (issued table).length, .baseline,
        ownerAt (issued table) (issued table).length⟩ := by
  rw [h.numbered.ownerAt_length, ← h.owner, ← h.revision]
  simp [LeaseTable.leaseSnapshot, view, h.active, h.generation]

theorem leaseFor_eq (h : w.Ledger table) :
    w.leaseFor table = w.view ⟨w.sessionHandle, w.target.generation, (issued table).length,
      .baseline, ownerAt (issued table) (issued table).length⟩ := by
  rw [← h.leaseSnapshot_eq]
  rcases h.single with hempty | hentry
  · have hcurrent : w.current table = .fresh w.target.generation := by
      simp [current, LeaseTable.leaseStateFor, hempty]
    simp [leaseFor, LeaseTable.leaseFor, LeaseTable.leaseSnapshot, hempty, hcurrent,
      LeaseState.fresh]
  · have hget : table.leases.get? w.sessionHandle = some (w.current table) := by
      rw [hentry]
      exact InsertionMap.get?_insert_self _ _ _
    simp [leaseFor, LeaseTable.leaseFor, hget, Option.filter, h.generation]

theorem describes_baseline (table : LeaseTable) :
    w.Describes (issued table) (w.view ⟨w.sessionHandle, w.target.generation,
      (issued table).length, .baseline, ownerAt (issued table) (issued table).length⟩) where
  le_length := le_rfl
  view := rfl
  form := Or.inl rfl

end Ledger

end WatchedLease

end PiAgentWeb
