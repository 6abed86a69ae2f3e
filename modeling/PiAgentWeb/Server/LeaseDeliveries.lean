import PiAgentWeb.Server.LeaseLedger

/-!
# What the bridge says about a lease

Every message to the connection describes a revision of the lease, and the last revision is not
forgotten: it was sent, or something pending still leads to a message of it or of a later one.
-/

namespace PiAgentWeb

namespace WatchedLease

variable (w : WatchedLease)

/-- The transition an answer announces. -/
def announces : PendingDelivery → Option SessionLeaseTransition
  | .claimed _ _ transition => transition
  | .released _ transition => transition
  | .takenOver _ transition => some transition
  | .broadcast transition => some transition
  | .cleanup _ _ _ => none

/-- An answer says what the lease actor did. -/
def Justified (commits : List SessionLeaseTransition) : PendingDelivery → Prop
  | .claimed connectionId lease none =>
    connectionId = w.connectionId → w.Describes commits lease ∧ lease.transition = .baseline
  | .claimed connectionId lease (some transition) =>
    transition ∈ commits ∧ ∃ fencingToken, transition.owner = some ⟨connectionId, fencingToken⟩ ∧
      lease.isController = true ∧ lease.fencingToken = some fencingToken
  | .takenOver connectionId transition =>
    transition ∈ commits ∧ ∃ fencingToken, transition.owner = some ⟨connectionId, fencingToken⟩
  | .released _ transition => ∀ committed ∈ transition, committed ∈ commits
  | .broadcast transition => transition ∈ commits
  | .cleanup _ _ _ => True

/-- Going on with the delivery leads to a message of the last revision or of a later one. -/
def Carries (commits : List SessionLeaseTransition) : PendingDelivery → Prop
  | .cleanup connectionId fencingToken _ =>
    ownerAt commits commits.length = some ⟨connectionId, fencingToken⟩
  | delivery => ∃ transition ∈ announces delivery, transition.leaseRevision = commits.length

/-- The last revision was sent, or is waiting. -/
def Covered (b : LeaseBridge) : Prop :=
  (∃ message ∈ b.sent, message.leaseRevision = (issued b.table).length) ∨
  (∃ delivery ∈ b.pending, Carries (issued b.table) delivery) ∨
  ((issued b.table).length = 0 ∧ b.channel = .catchingUp none) ∨
  ∃ transition, b.channel = .catchingUp (some transition) ∧
    transition.leaseRevision = (issued b.table).length

/-- The invariant of the bridge. -/
structure Delivering (b : LeaseBridge) : Prop where
  ledger : w.Ledger b.table
  sent : ∀ message ∈ b.sent, w.Describes (issued b.table) message
  pending : ∀ delivery ∈ b.pending, w.Justified (issued b.table) delivery
  open_channel : b.channel ≠ .closed
  deferred : ∀ transition, b.channel = .catchingUp (some transition) → transition ∈ issued b.table
  covered : Covered b

/-- The invariant holds initially. -/
theorem delivering_initial : w.Delivering initial where
  ledger := by
    have hcurrent : w.current LeaseTable.empty = .fresh w.target.generation := by
      simp [current, LeaseTable.leaseStateFor, LeaseTable.empty]
    exact
      { single := Or.inl rfl
        generation := congrArg LeaseState.generation hcurrent
        active := congrArg LeaseState.terminal hcurrent
        numbered := trivial
        revision := congrArg LeaseState.revision hcurrent
        owner := congrArg LeaseState.owner hcurrent
        watched := by simp [issued, initial, LeaseTable.empty] }
  sent := by simp [initial]
  pending := by simp [initial]
  open_channel := by simp [initial]
  deferred := by simp [initial]
  covered := Or.inr (Or.inr (Or.inl ⟨rfl, rfl⟩))

namespace Justified

variable {w} {commits : List SessionLeaseTransition} {delivery : PendingDelivery}

/-- A justified answer announces commits. -/
theorem mem_of_announces (h : w.Justified commits delivery) {transition : SessionLeaseTransition}
    (hannounces : announces delivery = some transition) : transition ∈ commits := by
  cases delivery with
  | claimed connectionId lease committed =>
    simp only [announces] at hannounces
    subst hannounces
    exact h.1
  | released connectionId committed => exact h transition hannounces
  | takenOver connectionId committed =>
    simp only [announces, Option.some.injEq] at hannounces
    exact hannounces ▸ h.1
  | broadcast committed =>
    simp only [announces, Option.some.injEq] at hannounces
    exact hannounces ▸ h
  | cleanup connectionId fencingToken connectionExpired => simp [announces] at hannounces

/-- A further commit does not change what was answered. -/
theorem cons (h : w.Justified commits delivery) {newest : SessionLeaseTransition}
    (hnumbered : Numbered (newest :: commits)) : w.Justified (newest :: commits) delivery := by
  cases delivery with
  | claimed connectionId lease committed =>
    cases committed with
    | none =>
      intro hwatched
      exact ⟨(h hwatched).1.cons hnumbered, (h hwatched).2⟩
    | some transition => exact ⟨List.mem_cons_of_mem _ h.1, h.2⟩
  | released connectionId committed =>
    intro transition htransition
    exact List.mem_cons_of_mem _ (h transition htransition)
  | takenOver connectionId transition => exact ⟨List.mem_cons_of_mem _ h.1, h.2⟩
  | broadcast transition => exact List.mem_cons_of_mem _ h
  | cleanup connectionId fencingToken connectionExpired => trivial

/-- What leads to the last revision is a control to give back, or announces that revision. -/
theorem carries_of_announces {transition : SessionLeaseTransition}
    (hannounces : announces delivery = some transition)
    (hrevision : transition.leaseRevision = commits.length) : Carries commits delivery := by
  cases delivery with
  | cleanup connectionId fencingToken connectionExpired => simp [announces] at hannounces
  | claimed | released | takenOver | broadcast => exact ⟨transition, hannounces, hrevision⟩

end Justified

namespace Delivering

variable {w} {b : LeaseBridge} {table' : LeaseTable} {pending' : List PendingDelivery}

/-- The lease actor has answered: what it committed is pending. -/
theorem operated (h : w.Delivering b) {committed : Option SessionLeaseTransition}
    (hfollows : w.Follows b.table table' committed) (hpending : ∀ delivery ∈ pending',
      delivery ∈ b.pending ∨ w.Justified (issued table') delivery)
    (hannounced : ∀ transition ∈ committed, ∃ delivery ∈ pending',
      announces delivery = some transition)
    (hkept : committed = none → ∀ delivery ∈ b.pending, Carries (issued b.table) delivery →
      delivery ∈ pending') :
    w.Delivering { b with table := table', pending := pending' } := by
  have hnumbered := hfollows.ledger.numbered
  cases committed with
  | none =>
    have hissued : issued table' = issued b.table := hfollows.issued_eq
    refine ⟨hfollows.ledger, ?_, ?_, h.open_channel, ?_, ?_⟩
    · rw [hissued]
      exact h.sent
    · intro delivery hmem
      rcases hpending delivery hmem with hold | hnew
      · rw [hissued]
        exact h.pending delivery hold
      · exact hnew
    · rw [hissued]
      exact h.deferred
    · rcases h.covered with hsent | ⟨delivery, hmem, hcarries⟩ | hinitial | hdeferred
      · exact Or.inl (hissued ▸ hsent)
      · exact Or.inr (Or.inl ⟨delivery, hkept rfl delivery hmem hcarries, hissued ▸ hcarries⟩)
      · exact Or.inr (Or.inr (Or.inl (hissued ▸ hinitial)))
      · exact Or.inr (Or.inr (Or.inr (hissued ▸ hdeferred)))
  | some newest =>
    have hissued : issued table' = newest :: issued b.table := hfollows.issued_eq
    rw [hissued] at hnumbered
    refine ⟨hfollows.ledger, ?_, ?_, h.open_channel, ?_, ?_⟩
    · intro message hmem
      rw [hissued]
      exact (h.sent message hmem).cons hnumbered
    · intro delivery hmem
      rcases hpending delivery hmem with hold | hnew
      · rw [hissued]
        exact (h.pending delivery hold).cons hnumbered
      · exact hnew
    · intro transition hdeferred
      rw [hissued]
      exact List.mem_cons_of_mem _ (h.deferred transition hdeferred)
    · obtain ⟨delivery, hmem, hannounces⟩ := hannounced newest rfl
      refine Or.inr (Or.inl ⟨delivery, hmem, Justified.carries_of_announces hannounces ?_⟩)
      change newest.leaseRevision = (issued table').length
      rw [hissued]
      exact hnumbered.1

/-- The connection was sent messages that describe the lease. -/
theorem told (h : w.Delivering b) (messages : List SessionLeaseSnapshot)
    (hpending : ∀ delivery ∈ pending', w.Justified (issued b.table) delivery)
    (hmessages : ∀ message ∈ messages, w.Describes (issued b.table) message)
    (hcarried : ∀ delivery ∈ b.pending, Carries (issued b.table) delivery →
      (∃ delivery ∈ pending', Carries (issued b.table) delivery) ∨
        ∃ message ∈ messages, message.leaseRevision = (issued b.table).length) :
    w.Delivering { b with pending := pending', sent := b.sent ++ messages } := by
  refine ⟨h.ledger, ?_, hpending, h.open_channel, h.deferred, ?_⟩
  · intro message hmem
    rcases List.mem_append.mp hmem with hold | hnew
    · exact h.sent message hold
    · exact hmessages message hnew
  · rcases h.covered with ⟨message, hmem, hrevision⟩ | ⟨delivery, hmem, hcarries⟩ | hrest
    · exact Or.inl ⟨message, List.mem_append_left _ hmem, hrevision⟩
    · rcases hcarried delivery hmem hcarries with hpending | ⟨message, hmem, hrevision⟩
      · exact Or.inr (Or.inl hpending)
      · exact Or.inl ⟨message, List.mem_append_right _ hmem, hrevision⟩
    · exact Or.inr (Or.inr hrest)

/-- A transition waits for the end of the catch-up. -/
theorem deferred_transition (h : w.Delivering b) {previous : Option SessionLeaseTransition}
    (hchannel : b.channel = .catchingUp previous) {transition : SessionLeaseTransition}
    (hmem : transition ∈ issued b.table)
    (hpending : ∀ delivery ∈ pending', w.Justified (issued b.table) delivery)
    (hcarried : ∀ delivery ∈ b.pending, Carries (issued b.table) delivery →
      (∃ delivery ∈ pending', Carries (issued b.table) delivery) ∨
        transition.leaseRevision = (issued b.table).length) :
    w.Delivering
      { b with pending := pending', channel := deferCatchUpLease previous transition } := by
  have hnumbered := h.ledger.numbered
  have hbound := hnumbered.le_length hmem
  -- the kept transition is a commit, and its revision is the larger of the two
  obtain ⟨kept, hdefer, hkept, hle, hprevious⟩ : ∃ kept,
      deferCatchUpLease previous transition = .catchingUp (some kept) ∧ kept ∈ issued b.table ∧
        transition.leaseRevision ≤ kept.leaseRevision ∧
        ∀ earlier, previous = some earlier → earlier.leaseRevision ≤ kept.leaseRevision := by
    cases previous with
    | none => exact ⟨transition, rfl, hmem, le_rfl, by simp⟩
    | some earlier =>
      have hearlier := h.deferred earlier hchannel
      by_cases hnewer : earlier.leaseRevision < transition.leaseRevision
      · refine ⟨transition, by simp [deferCatchUpLease, hnewer], hmem, le_rfl, ?_⟩
        rintro _ ⟨⟩
        exact hnewer.le
      · by_cases holder : transition.leaseRevision < earlier.leaseRevision
        · refine ⟨earlier, by simp [deferCatchUpLease, hnewer, holder], hearlier, holder.le, ?_⟩
          rintro _ ⟨⟩
          exact le_rfl
        · have hsame : earlier = transition := hnumbered.unique hearlier hmem (by omega)
          subst hsame
          refine ⟨earlier, by simp [deferCatchUpLease], hearlier, le_rfl, ?_⟩
          rintro _ ⟨⟩
          exact le_rfl
  have hkeptBound := hnumbered.le_length hkept
  rw [hdefer]
  refine ⟨h.ledger, h.sent, hpending, by simp, ?_, ?_⟩
  · rintro _ ⟨⟩
    exact hkept
  · rcases h.covered with hsent | ⟨delivery, hmem', hcarries⟩ | ⟨hzero, _⟩ |
      ⟨earlier, hcatchUp, hrevision⟩
    · exact Or.inl hsent
    · rcases hcarried delivery hmem' hcarries with hpending | hrevision
      · exact Or.inr (Or.inl hpending)
      · refine Or.inr (Or.inr (Or.inr ⟨kept, rfl, ?_⟩))
        change kept.leaseRevision = (issued b.table).length
        omega
    · omega
    · have hsame : previous = some earlier := by
        rw [hchannel] at hcatchUp
        simpa using hcatchUp
      have := hprevious earlier hsame
      refine Or.inr (Or.inr (Or.inr ⟨kept, rfl, ?_⟩))
      change kept.leaseRevision = (issued b.table).length
      omega

/-- A transition reaches the connection or waits for the end of its catch-up. -/
theorem broadcasted (h : w.Delivering b) {transition : SessionLeaseTransition}
    (hmem : transition ∈ issued b.table)
    (hpending : ∀ delivery ∈ pending', w.Justified (issued b.table) delivery)
    (hcarried : ∀ delivery ∈ b.pending, Carries (issued b.table) delivery →
      (∃ delivery ∈ pending', Carries (issued b.table) delivery) ∨
        transition.leaseRevision = (issued b.table).length) :
    w.Delivering
      { b with
        pending := pending'
        channel := (w.broadcastLeaseTransition b.channel transition).1
        sent := b.sent ++ (w.broadcastLeaseTransition b.channel transition).2 } := by
  cases hchannel : b.channel with
  | closed => exact absurd hchannel h.open_channel
  | catchingUp previous =>
    simpa [broadcastLeaseTransition] using h.deferred_transition hchannel hmem hpending hcarried
  | live =>
    have htold := h.told [w.view transition] hpending
      (by simpa using h.ledger.describes_view hmem) (by simpa [view] using hcarried)
    simpa [broadcastLeaseTransition, ← hchannel] using htold

/-- An answer without a commit reaches the connection when it asked. -/
theorem answered_baseline (h : w.Delivering b) {connectionId : ConnectionId}
    {lease : SessionLeaseSnapshot}
    (hlease : connectionId = w.connectionId → w.Describes (issued b.table) lease)
    (hpending : ∀ delivery ∈ pending', w.Justified (issued b.table) delivery)
    (hcarried : ∀ delivery ∈ b.pending, Carries (issued b.table) delivery →
      ∃ delivery ∈ pending', Carries (issued b.table) delivery) :
    w.Delivering
      { b with pending := pending', sent := b.sent ++ w.answer b.channel connectionId lease } := by
  refine h.told _ hpending ?_ fun delivery hmem hcarries => Or.inl (hcarried delivery hmem hcarries)
  intro message hmem
  unfold answer at hmem
  split at hmem
  · rename_i hwatched
    rw [List.mem_singleton.mp hmem]
    exact hlease hwatched.1
  · cases hmem

/-- The bridge goes on with an answer that is not a control to give back. -/
theorem resumed (h : w.Delivering b) {index : ℕ} {delivery : PendingDelivery}
    (hindex : b.pending[index]? = some delivery)
    (hdelivery : ∀ connectionId fencingToken connectionExpired,
      delivery ≠ .cleanup connectionId fencingToken connectionExpired) :
    w.Delivering
      { b with
        pending := b.pending.eraseIdx index
        channel := (w.deliver b delivery).1
        sent := b.sent ++ (w.deliver b delivery).2 } := by
  have hjustified := h.pending delivery (List.mem_of_getElem? hindex)
  have hrest : ∀ other ∈ b.pending.eraseIdx index, w.Justified (issued b.table) other :=
    fun other hmem => h.pending other (List.mem_of_mem_eraseIdx hmem)
  have herase : ∀ other ∈ b.pending, other ≠ delivery → other ∈ b.pending.eraseIdx index := by
    intro other hmem hne
    obtain ⟨position, hposition⟩ := List.getElem?_of_mem hmem
    refine List.mem_eraseIdx_iff_getElem?.mpr ⟨position, ?_, hposition⟩
    rintro rfl
    rw [hindex] at hposition
    exact hne (by simpa using hposition.symm)
  cases hannounces : announces delivery with
  | some transition =>
    have hdeliver : w.deliver b delivery = w.broadcastLeaseTransition b.channel transition := by
      cases delivery <;> simp_all [announces, deliver]
    rw [hdeliver]
    refine h.broadcasted (hjustified.mem_of_announces hannounces) hrest ?_
    intro other hmem hcarries
    by_cases hsame : other = delivery
    · subst hsame
      refine Or.inr ?_
      cases other with
      | cleanup connectionId fencingToken connectionExpired =>
        exact absurd rfl (hdelivery connectionId fencingToken connectionExpired)
      | claimed | released | takenOver | broadcast =>
        obtain ⟨announced, hannounced, hrevision⟩ := hcarries
        rw [hannounces] at hannounced
        cases hannounced
        exact hrevision
    · exact Or.inl ⟨other, herase other hmem hsame, hcarries⟩
  | none =>
    -- without a transition the answer carries nothing
    have hcarried : ∀ other ∈ b.pending, Carries (issued b.table) other →
        ∃ other ∈ b.pending.eraseIdx index, Carries (issued b.table) other := by
      intro other hmem hcarries
      refine ⟨other, herase other hmem ?_, hcarries⟩
      rintro rfl
      cases other with
      | cleanup connectionId fencingToken connectionExpired =>
        exact hdelivery connectionId fencingToken connectionExpired rfl
      | claimed | released | takenOver | broadcast =>
        obtain ⟨announced, hannounced, _⟩ := hcarries
        rw [hannounces] at hannounced
        cases hannounced
    cases delivery with
    | claimed connectionId lease committed =>
      have hnone : committed = none := hannounces
      subst hnone
      exact h.answered_baseline (fun hwatched => (hjustified hwatched).1) hrest hcarried
    | released connectionId committed =>
      have hnone : committed = none := hannounces
      subst hnone
      refine h.answered_baseline (fun _ => ?_) hrest hcarried
      rw [h.ledger.leaseFor_eq]
      exact Ledger.describes_baseline b.table
    | takenOver connectionId transition => simp [announces] at hannounces
    | broadcast transition => simp [announces] at hannounces
    | cleanup connectionId fencingToken connectionExpired =>
      exact absurd rfl (hdelivery connectionId fencingToken connectionExpired)

/-- The bridge gives back a control that nobody waits for. -/
theorem cleaned (h : w.Delivering b) (hleft : w.RevisionsLeft b.table) {index : ℕ}
    {connectionId : ConnectionId} {fencingToken : FencingToken} {connectionExpired : Bool}
    (hindex : b.pending[index]? = some (.cleanup connectionId fencingToken connectionExpired)) :
    w.Delivering (w.step b (.resume index)) := by
  obtain ⟨table', committed, hrelease, hfollows, hnone⟩ :=
    h.ledger.releaseOwned hleft
      (fun owner => owner.connectionId = connectionId ∧ owner.fencingToken = fencingToken)
      (if connectionExpired then .disconnect else .release) (by split <;> decide)
  have hexact : b.table.releaseExact w.sessionHandle (some w.target) connectionId fencingToken
      (if connectionExpired then .disconnect else .release) = (table', .ok committed) := hrelease
  cases committed with
  | none =>
    have hstep : w.step b (.resume index) =
        { b with table := table', pending := b.pending.eraseIdx index } := by
      simp [step, operate, outgoing, deliver, hindex, hexact]
    rw [hstep]
    refine h.operated hfollows ?_ (by simp) ?_
    · intro delivery hmem
      exact Or.inl (List.mem_of_mem_eraseIdx hmem)
    · intro _ delivery hmem hcarries
      obtain ⟨position, hposition⟩ := List.getElem?_of_mem hmem
      refine List.mem_eraseIdx_iff_getElem?.mpr ⟨position, ?_, hposition⟩
      rintro rfl
      -- the owner would have matched
      rw [hindex] at hposition
      cases hposition
      have howner := hnone rfl
      rw [h.ledger.owner, ← h.ledger.numbered.ownerAt_length, hcarries] at howner
      simp at howner
  | some transition =>
    have hstep : w.step b (.resume index) =
        { b with
          table := table'
          pending := b.pending.eraseIdx index ++ [.broadcast transition] } := by
      simp [step, operate, outgoing, deliver, hindex, hexact]
    rw [hstep]
    refine h.operated hfollows ?_ ?_ (by simp)
    · intro delivery hmem
      rcases List.mem_append.mp hmem with hold | hnew
      · exact Or.inl (List.mem_of_mem_eraseIdx hold)
      · rw [List.mem_singleton.mp hnew]
        refine Or.inr ?_
        change transition ∈ issued table'
        rw [hfollows.issued_eq]
        simp
    · rintro _ ⟨⟩
      exact ⟨.broadcast transition, by simp, rfl⟩

/-- An expired request leads to giving back what it won. -/
theorem expired (h : w.Delivering b) {index : ℕ} {delivery : PendingDelivery}
    (connectionExpired : Bool) (hindex : b.pending[index]? = some delivery) :
    w.Delivering
      { b with pending := b.pending.eraseIdx index ++ expired connectionExpired delivery } := by
  have hjustified := h.pending delivery (List.mem_of_getElem? hindex)
  have hexpired : ∀ other ∈ WatchedLease.expired connectionExpired delivery,
      w.Justified (issued b.table) other := by
    cases delivery with
    | claimed connectionId lease committed =>
      intro other hmem
      simp only [WatchedLease.expired] at hmem
      split at hmem
      · split at hmem
        · rw [List.mem_singleton.mp hmem]
          trivial
        · cases hmem
      · cases hmem
    | takenOver connectionId transition =>
      intro other hmem
      simp only [WatchedLease.expired] at hmem
      split at hmem
      · rw [List.mem_singleton.mp hmem]
        trivial
      · cases hmem
    | released | broadcast | cleanup =>
      intro other hmem
      rw [List.mem_singleton.mp hmem]
      exact hjustified
  suffices htold : w.Delivering
      { b with
        pending := b.pending.eraseIdx index ++ WatchedLease.expired connectionExpired delivery
        sent := b.sent ++ [] } by
    simpa using htold
  refine h.told [] ?_ (by simp) ?_
  · intro other hmem
    rcases List.mem_append.mp hmem with hold | hnew
    · exact h.pending other (List.mem_of_mem_eraseIdx hold)
    · exact hexpired other hnew
  · intro other hmem hcarries
    refine Or.inl ?_
    obtain ⟨position, hposition⟩ := List.getElem?_of_mem hmem
    by_cases hsame : position = index
    · subst hsame
      rw [hindex] at hposition
      cases hposition
      have howner : ∀ transition ∈ announces delivery,
          transition.leaseRevision = (issued b.table).length →
            ownerAt (issued b.table) (issued b.table).length = transition.owner := by
        intro transition hannounces hrevision
        rw [← hrevision]
        exact h.ledger.numbered.ownerAt_eq (hjustified.mem_of_announces hannounces)
      cases delivery with
      | claimed connectionId lease committed =>
        obtain ⟨transition, hannounces, hrevision⟩ := hcarries
        have hsome : committed = some transition := hannounces
        subst hsome
        obtain ⟨_, fencingToken, howned, hcontroller, htoken⟩ := hjustified
        refine ⟨.cleanup connectionId fencingToken connectionExpired, ?_, ?_⟩
        · simp [WatchedLease.expired, htoken, hcontroller]
        · exact (howner transition hannounces hrevision).trans howned
      | takenOver connectionId transition =>
        obtain ⟨announced, hannounces, hrevision⟩ := hcarries
        cases hannounces
        obtain ⟨_, fencingToken, howned⟩ := hjustified
        refine ⟨.cleanup connectionId fencingToken connectionExpired, ?_, ?_⟩
        · simp [WatchedLease.expired, howned]
        · exact (howner transition rfl hrevision).trans howned
      | released | broadcast | cleanup =>
        exact ⟨_, List.mem_append_right _ (List.mem_singleton_self _), hcarries⟩
    · refine ⟨other, List.mem_append_left _ ?_, hcarries⟩
      exact List.mem_eraseIdx_iff_getElem?.mpr ⟨position, hsame, hposition⟩

/-- The end of the catch-up tells the connection the last revision, unless that is still pending. -/
theorem established (h : w.Delivering b) : w.Delivering (w.step b .establish) := by
  cases hchannel : b.channel with
  | closed => exact absurd hchannel h.open_channel
  | live =>
    have hmessage : w.establishLive b = (b.channel, []) := by simp [establishLive, hchannel]
    have hstep : w.step b .establish = b := by
      simp [step, operate, outgoing, hmessage]
    rw [hstep]
    exact h
  | catchingUp previous =>
    -- what is said describes the lease, and is of the last revision when nothing else leads there
    obtain ⟨message, hmessage, hdescribes, hlast⟩ : ∃ message,
        w.establishLive b = (.live, [message]) ∧ w.Describes (issued b.table) message ∧
          ((∃ transition, previous = some transition ∧
              transition.leaseRevision = (issued b.table).length) ∨ previous = none →
            message.leaseRevision = (issued b.table).length) := by
      cases previous with
      | none =>
        refine ⟨w.leaseFor b.table, by simp [establishLive, hchannel], ?_, fun _ => ?_⟩ <;>
          rw [h.ledger.leaseFor_eq]
        · exact Ledger.describes_baseline b.table
        · rfl
      | some transition =>
        refine ⟨w.view transition, by simp [establishLive, hchannel],
          h.ledger.describes_view (h.deferred transition hchannel), ?_⟩
        rintro (⟨_, ⟨⟩, hrevision⟩ | hnone)
        · exact hrevision
        · cases hnone
    have hstep : w.step b .establish =
        { b with channel := .live, sent := b.sent ++ [message] } := by
      simp [step, operate, outgoing, hmessage]
    rw [hstep]
    refine ⟨h.ledger, ?_, h.pending, by simp, by simp, ?_⟩
    · intro other hmem
      rcases List.mem_append.mp hmem with hold | hnew
      · exact h.sent other hold
      · rw [List.mem_singleton.mp hnew]
        exact hdescribes
    · have hmem : message ∈ b.sent ++ [message] := by simp
      rcases h.covered with ⟨other, hother, hrevision⟩ | hpending | ⟨_, hinitial⟩ |
        ⟨transition, hcatchUp, hrevision⟩
      · exact Or.inl ⟨other, List.mem_append_left _ hother, hrevision⟩
      · exact Or.inr (Or.inl hpending)
      · refine Or.inl ⟨message, hmem, hlast (Or.inr ?_)⟩
        rw [hchannel] at hinitial
        simpa using hinitial
      · refine Or.inl ⟨message, hmem, hlast (Or.inl ⟨transition, ?_, hrevision⟩)⟩
        rw [hchannel] at hcatchUp
        simpa using hcatchUp

/-- An operation of the lease actor keeps the invariant; its answer is pending. -/
theorem answered (h : w.Delivering b) {committed : Option SessionLeaseTransition}
    (hfollows : w.Follows b.table table' committed) {answers : List PendingDelivery}
    (hjustified : ∀ delivery ∈ answers, w.Justified (issued table') delivery)
    (hannounced : ∀ transition ∈ committed, ∃ delivery ∈ answers,
      announces delivery = some transition) :
    w.Delivering { b with table := table', pending := b.pending ++ answers } := by
  refine h.operated hfollows ?_ ?_ ?_
  · intro delivery hmem
    rcases List.mem_append.mp hmem with hold | hnew
    · exact Or.inl hold
    · exact Or.inr (hjustified delivery hnew)
  · intro transition hcommitted
    obtain ⟨delivery, hmem, hannounces⟩ := hannounced transition hcommitted
    exact ⟨delivery, List.mem_append_right _ hmem, hannounces⟩
  · intro _ delivery hmem _
    exact List.mem_append_left _ hmem

/-- A claim of any connection. -/
theorem claim (h : w.Delivering b) (hleft : w.RevisionsLeft b.table)
    (connectionId : ConnectionId) : w.Delivering (w.step b (.claim connectionId)) := by
  obtain ⟨table', lease, committed, hclaim, hfollows, hnone, hsome⟩ :=
    h.ledger.claim hleft connectionId
  have hstep : w.step b (.claim connectionId) =
      { b with
        table := table'
        pending := b.pending ++ [.claimed connectionId lease committed] } := by
    simp [step, operate, outgoing, hclaim]
  rw [hstep]
  refine h.answered hfollows ?_ ?_
  · intro delivery hmem
    rw [List.mem_singleton.mp hmem]
    cases committed with
    | none =>
      intro hwatched
      have hissued : issued table' = issued b.table := hfollows.issued_eq
      rw [hnone rfl, hwatched, h.ledger.leaseSnapshot_eq, hissued]
      exact ⟨Ledger.describes_baseline b.table, rfl⟩
    | some transition =>
      refine ⟨?_, hsome transition rfl⟩
      rw [hfollows.issued_eq]
      simp
  · rintro transition ⟨⟩
    exact ⟨_, List.mem_singleton_self _, rfl⟩

/-- A release by any connection. -/
theorem release (h : w.Delivering b) (hleft : w.RevisionsLeft b.table)
    (connectionId : ConnectionId) : w.Delivering (w.step b (.release connectionId)) := by
  obtain ⟨table', committed, hrelease, hfollows, _⟩ :=
    h.ledger.releaseOwned hleft (·.connectionId = connectionId) .release (by decide)
  have hstep : w.step b (.release connectionId) =
      { b with table := table', pending := b.pending ++ [.released connectionId committed] } := by
    simp [step, operate, outgoing, LeaseTable.release, hrelease, WatchedLease.answered]
  rw [hstep]
  refine h.answered hfollows ?_ ?_
  · intro delivery hmem
    rw [List.mem_singleton.mp hmem]
    rintro transition ⟨⟩
    rw [hfollows.issued_eq]
    simp
  · rintro transition ⟨⟩
    exact ⟨_, List.mem_singleton_self _, rfl⟩

/-- A takeover by any connection. -/
theorem takeover (h : w.Delivering b) (hleft : w.RevisionsLeft b.table)
    (connectionId : ConnectionId) (expectedLeaseRevision : ℕ) :
    w.Delivering (w.step b (.takeover connectionId expectedLeaseRevision)) := by
  rcases h.ledger.takeover hleft expectedLeaseRevision connectionId with
    ⟨table', error, htakeover, hfollows⟩ |
      ⟨table', transition, fencingToken, htakeover, hfollows, howner⟩
  · have hstep : w.step b (.takeover connectionId expectedLeaseRevision) =
        { b with table := table', pending := b.pending ++ [] } := by
      simp [step, operate, outgoing, htakeover]
    rw [hstep]
    exact h.answered hfollows (by simp) (by simp)
  · have hstep : w.step b (.takeover connectionId expectedLeaseRevision) =
        { b with
          table := table'
          pending := b.pending ++ [.takenOver connectionId transition] } := by
      simp [step, operate, outgoing, htakeover]
    rw [hstep]
    refine h.answered hfollows ?_ ?_
    · intro delivery hmem
      rw [List.mem_singleton.mp hmem]
      refine ⟨?_, fencingToken, howner⟩
      rw [hfollows.issued_eq]
      simp
    · rintro _ ⟨⟩
      exact ⟨_, List.mem_singleton_self _, rfl⟩

/-- The end of another connection. -/
theorem disconnect (h : w.Delivering b) (hleft : w.RevisionsLeft b.table)
    (connectionId : ConnectionId) : w.Delivering (w.step b (.disconnect connectionId)) := by
  by_cases hwatched : connectionId = w.connectionId
  · have hstep : w.step b (.disconnect connectionId) = b := by
      simp [step, operate, outgoing, hwatched]
    rw [hstep]
    exact h
  · obtain ⟨table', committed, hrelease, hfollows⟩ := h.ledger.releaseConnection hleft connectionId
    have hstep : w.step b (.disconnect connectionId) =
        { b with
          table := table'
          pending := b.pending ++ committed.toList.map .broadcast } := by
      simp [step, operate, outgoing, hwatched, hrelease]
    rw [hstep]
    refine h.answered hfollows ?_ ?_
    · intro delivery hmem
      obtain ⟨transition, htransition, rfl⟩ := List.mem_map.mp hmem
      change transition ∈ issued table'
      rw [hfollows.issued_eq]
      exact List.mem_append_left _ htransition
    · rintro transition ⟨⟩
      exact ⟨.broadcast transition, by simp, rfl⟩

/-- Every step keeps the invariant. -/
theorem step (h : w.Delivering b) (hleft : w.RevisionsLeft b.table) (a : LeaseBridgeAction) :
    w.Delivering (w.step b a) := by
  cases a with
  | claim connectionId => exact h.claim hleft connectionId
  | release connectionId => exact h.release hleft connectionId
  | takeover connectionId expectedLeaseRevision =>
    exact h.takeover hleft connectionId expectedLeaseRevision
  | disconnect connectionId => exact h.disconnect hleft connectionId
  | establish => exact h.established
  | expire index connectionExpired =>
    cases hindex : b.pending[index]? with
    | none =>
      have hstep : w.step b (.expire index connectionExpired) = b := by
        simp [WatchedLease.step, operate, outgoing, hindex]
      rw [hstep]
      exact h
    | some delivery =>
      have hstep : w.step b (.expire index connectionExpired) =
          { b with
            pending := b.pending.eraseIdx index ++
              WatchedLease.expired connectionExpired delivery } := by
        simp [WatchedLease.step, operate, outgoing, hindex]
      rw [hstep]
      exact h.expired connectionExpired hindex
  | resume index =>
    cases hindex : b.pending[index]? with
    | none =>
      have hstep : w.step b (.resume index) = b := by
        have hlength := List.getElem?_eq_none_iff.mp hindex
        simp [WatchedLease.step, operate, outgoing, hindex, List.eraseIdx_of_length_le hlength]
      rw [hstep]
      exact h
    | some delivery =>
      by_cases hcleanup : ∃ connectionId fencingToken connectionExpired,
          delivery = .cleanup connectionId fencingToken connectionExpired
      · obtain ⟨connectionId, fencingToken, connectionExpired, rfl⟩ := hcleanup
        exact h.cleaned hleft hindex
      · have hother : ∀ connectionId fencingToken connectionExpired,
            delivery ≠ .cleanup connectionId fencingToken connectionExpired :=
          fun connectionId fencingToken connectionExpired hsame =>
            hcleanup ⟨connectionId, fencingToken, connectionExpired, hsame⟩
        have hstep : w.step b (.resume index) =
            { b with
              pending := b.pending.eraseIdx index
              channel := (w.deliver b delivery).1
              sent := b.sent ++ (w.deliver b delivery).2 } := by
          cases delivery <;> simp_all [WatchedLease.step, operate, outgoing]
        rw [hstep]
        exact h.resumed hindex hother

/-- A broadcast that reaches the connection is the transition, which is no baseline. -/
theorem broadcast_form (h : w.Delivering b) {transition : SessionLeaseTransition}
    (hmem : transition ∈ issued b.table) {message : SessionLeaseSnapshot}
    (hmessage : message ∈ (w.broadcastLeaseTransition b.channel transition).2) :
    b.channel = .live ∧ (w.broadcastLeaseTransition b.channel transition).2 = [message] ∧
      message = w.view transition ∧ message.transition ≠ .baseline := by
  cases hchannel : b.channel with
  | closed => simp [broadcastLeaseTransition, hchannel] at hmessage
  | catchingUp previous => simp [broadcastLeaseTransition, hchannel] at hmessage
  | live =>
    have hview : message = w.view transition := by
      simpa [broadcastLeaseTransition, hchannel] using hmessage
    refine ⟨rfl, by simp [broadcastLeaseTransition, hview], hview, ?_⟩
    rw [hview]
    exact (h.ledger.watched transition hmem).2.2

/-- What the bridge sends as it goes on is one message of the revision and form expected of it. -/
theorem deliver_form (h : w.Delivering b) {delivery : PendingDelivery}
    (hjustified : w.Justified (issued b.table) delivery) {message : SessionLeaseSnapshot}
    (hmessage : message ∈ (w.deliver b delivery).2) :
    (w.deliver b delivery).2 = [message] ∧ w.Describes (issued b.table) message ∧
      ∃ form ∈ w.deliversAt b delivery,
        form.1 = message.leaseRevision ∧ (form.2 = true ↔ message.transition = .baseline) := by
  cases hannounces : announces delivery with
  | some transition =>
    have hmem := hjustified.mem_of_announces hannounces
    have hdeliver : w.deliver b delivery = w.broadcastLeaseTransition b.channel transition := by
      cases delivery <;> simp_all [announces, deliver]
    rw [hdeliver] at hmessage ⊢
    obtain ⟨hlive, hsingle, hview, hform⟩ := h.broadcast_form hmem hmessage
    refine ⟨hsingle, hview ▸ h.ledger.describes_view hmem, (transition.leaseRevision, false), ?_,
      by rw [hview]; rfl, by simpa using hform⟩
    cases delivery <;> simp_all [announces, deliversAt]
  | none =>
    cases delivery with
    | takenOver connectionId transition => simp [announces] at hannounces
    | broadcast transition => simp [announces] at hannounces
    | cleanup connectionId fencingToken connectionExpired => simp [deliver] at hmessage
    | claimed connectionId lease committed =>
      have hnone : committed = none := hannounces
      subst hnone
      simp only [deliver, answer] at hmessage ⊢
      split at hmessage
      · rename_i hwatched
        have hlease := List.mem_singleton.mp hmessage
        subst hlease
        obtain ⟨hdescribes, hbaseline⟩ := hjustified hwatched.1
        exact ⟨if_pos hwatched, hdescribes, (message.leaseRevision, true),
          by simp [deliversAt, hwatched.1], rfl, by simp [hbaseline]⟩
      · cases hmessage
    | released connectionId committed =>
      have hnone : committed = none := hannounces
      subst hnone
      simp only [deliver, answer] at hmessage ⊢
      split at hmessage
      · rename_i hwatched
        have hlease := List.mem_singleton.mp hmessage
        subst hlease
        refine ⟨if_pos hwatched, ?_, ((w.leaseFor b.table).leaseRevision, true),
          by simp [deliversAt, hwatched.1], rfl, ?_⟩
        · rw [h.ledger.leaseFor_eq]
          exact Ledger.describes_baseline b.table
        · simp [h.ledger.leaseFor_eq, view]
      · cases hmessage

/-- What a step sends is one message of the revision and form that is expected of it. -/
theorem outgoing_form (h : w.Delivering b) (a : LeaseBridgeAction)
    (message : SessionLeaseSnapshot) (hmessage : message ∈ (w.outgoing b a).2) :
    (w.outgoing b a).2 = [message] ∧ w.Describes (issued b.table) message ∧
      ∃ form ∈ w.sendsAt b a,
        form.1 = message.leaseRevision ∧ (form.2 = true ↔ message.transition = .baseline) := by
  cases a with
  | claim | release | takeover | disconnect | expire => simp [outgoing] at hmessage
  | resume index =>
    cases hindex : b.pending[index]? with
    | none => simp [outgoing, hindex] at hmessage
    | some delivery =>
      have hjustified := h.pending delivery (List.mem_of_getElem? hindex)
      simp only [outgoing, sendsAt, hindex, Option.bind_some] at hmessage ⊢
      exact h.deliver_form hjustified hmessage
  | establish =>
    cases hchannel : b.channel with
    | closed => simp [outgoing, establishLive, hchannel] at hmessage
    | live => simp [outgoing, establishLive, hchannel] at hmessage
    | catchingUp previous =>
      cases previous with
      | none =>
        have hlease : message = w.leaseFor b.table := by
          simpa [outgoing, establishLive, hchannel] using hmessage
        subst hlease
        refine ⟨by simp [outgoing, establishLive, hchannel], ?_,
          ((w.leaseFor b.table).leaseRevision, true), by simp [sendsAt, hchannel], rfl, ?_⟩
        · rw [h.ledger.leaseFor_eq]
          exact Ledger.describes_baseline b.table
        · simp [h.ledger.leaseFor_eq, view]
      | some transition =>
        have hmem := h.deferred transition hchannel
        have hview : message = w.view transition := by
          simpa [outgoing, establishLive, hchannel] using hmessage
        subst hview
        refine ⟨by simp [outgoing, establishLive, hchannel], h.ledger.describes_view hmem,
          (transition.leaseRevision, false), by simp [sendsAt, hchannel], rfl, ?_⟩
        have hform := (h.ledger.watched transition hmem).2.2
        simpa [view] using hform

end Delivering

/-- The messages never contradict the one that leads. -/
def Consistent : Option SessionLeaseSnapshot → List SessionLeaseSnapshot → Prop
  | _, [] => True
  | first, message :: rest =>
    (∀ known ∈ first, known.leaseRevision = message.leaseRevision → known = message) ∧
      Consistent (lead first message) rest

theorem consistent_append {first : Option SessionLeaseSnapshot}
    {early late : List SessionLeaseSnapshot} :
    Consistent first (early ++ late) ↔
      Consistent first early ∧ Consistent (early.foldl lead first) late := by
  induction early generalizing first with
  | nil => simp [Consistent]
  | cons message rest ih => simp only [List.cons_append, Consistent, List.foldl_cons, ih, and_assoc]

/-- The leading message was sent, and nothing of a higher revision was. -/
theorem leading_spec (sent : List SessionLeaseSnapshot) :
    (∀ first ∈ leading sent, first ∈ sent) ∧
      ∀ message ∈ sent, ∃ first ∈ leading sent, message.leaseRevision ≤ first.leaseRevision := by
  induction sent using List.reverseRecOn with
  | nil => simp [leading]
  | append_singleton earlier message ih =>
    obtain ⟨hsent, hhighest⟩ := ih
    have hleading : leading (earlier ++ [message]) = lead (leading earlier) message := by
      simp [leading]
    rw [hleading, lead]
    split
    · rename_i hhigher
      refine ⟨by simp, fun other hmem => ⟨message, rfl, ?_⟩⟩
      rcases List.mem_append.mp hmem with hold | hnew
      · obtain ⟨first, hfirst, hle⟩ := hhighest other hold
        rw [Option.mem_def] at hfirst
        rw [hfirst] at hhigher
        have : first.leaseRevision < message.leaseRevision := by simpa using hhigher
        omega
      · rw [List.mem_singleton.mp hnew]
    · rename_i hhigher
      refine ⟨fun first hfirst => List.mem_append_left _ (hsent first hfirst), fun other hmem => ?_⟩
      rcases List.mem_append.mp hmem with hold | hnew
      · exact hhighest other hold
      · rw [List.mem_singleton.mp hnew]
        cases hfirst : leading earlier with
        | none => simp [hfirst] at hhigher
        | some first =>
          rw [hfirst] at hhigher
          refine ⟨first, rfl, ?_⟩
          simpa using hhigher

/-- The invariant of a run in which every revision keeps one form. -/
structure OneFormed (b : LeaseBridge) : Prop where
  delivering : w.Delivering b
  consistent : Consistent none b.sent

/-- A step under the condition sends nothing that contradicts the leading message. -/
theorem OneFormed.step {b : LeaseBridge} {a : LeaseBridgeAction} (hcondition : w.OneForm b a)
    (h : w.OneFormed b) : w.OneFormed (w.step b a) where
  delivering := h.delivering.step hcondition.2 a
  consistent := by
    change Consistent none (b.sent ++ (w.outgoing b a).2)
    rw [consistent_append]
    refine ⟨h.consistent, ?_⟩
    cases houtgoing : (w.outgoing b a).2 with
    | nil => trivial
    | cons message rest =>
      obtain ⟨hsingle, hdescribes, form, hform, hrevision, hbaseline⟩ :=
        h.delivering.outgoing_form a message (by simp [houtgoing])
      rw [houtgoing] at hsingle
      rw [hsingle]
      refine ⟨?_, trivial⟩
      intro known hknown hsame
      have hsent := h.delivering.sent known ((leading_spec b.sent).1 known hknown)
      refine hsent.unique hdescribes h.delivering.ledger.numbered hsame ?_
      rw [hcondition.1 form hform known hknown (by omega), hbaseline]

/-- When nothing is pending and the connection is live, the leading message is the lease. -/
theorem Delivering.leading_eq {b : LeaseBridge} (h : w.Delivering b) (hpending : b.pending = [])
    (hlive : b.channel = .live) :
    ∃ first, leading b.sent = some first ∧
      first.isController = (w.leaseFor b.table).isController ∧
      first.fencingToken = (w.leaseFor b.table).fencingToken ∧
      first.leaseRevision = (w.leaseFor b.table).leaseRevision := by
  obtain ⟨message, hmem, hrevision⟩ : ∃ message ∈ b.sent,
      message.leaseRevision = (issued b.table).length := by
    rcases h.covered with hsent | ⟨delivery, hmem, _⟩ | ⟨_, hinitial⟩ | ⟨_, hcatchUp, _⟩
    · exact hsent
    · simp [hpending] at hmem
    · simp [hlive] at hinitial
    · simp [hlive] at hcatchUp
  obtain ⟨hsent, hhighest⟩ := leading_spec b.sent
  obtain ⟨first, hfirst, hle⟩ := hhighest message hmem
  have hdescribes := h.sent first (hsent first hfirst)
  have hlast : first.leaseRevision = (issued b.table).length := by
    have := hdescribes.le_length
    omega
  refine ⟨first, hfirst, ?_⟩
  rw [hdescribes.view, h.ledger.leaseFor_eq, hlast]
  exact ⟨rfl, rfl, rfl⟩

end WatchedLease

end PiAgentWeb
