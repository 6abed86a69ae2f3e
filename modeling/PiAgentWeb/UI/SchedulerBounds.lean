import PiAgentWeb.Library.Tally
import PiAgentWeb.UI.SchedulerLedger

/-!
# The bounds of the event scheduler

While no `enqueue` is called from within another one, the totals of the scheduler are the sums over
the pending Sessions and every cap holds: a handler that runs inside an `enqueue` can then only take
pending Sessions away, and what the caps have promised of an event still holds when it becomes
pending. An `enqueue` inside an `enqueue` breaks the totals and the caps.
-/

namespace PiAgentWeb

namespace ObservedScheduler

variable {onFlush : FlushHandler} {s : ObservedScheduler}

/-- The pending source events of a Session. -/
def waitingOf (s : ObservedScheduler) (sessionHandle : JsString) : List WaitingSource :=
  s.waiting.filter (·.sessionHandle = sessionHandle)

/-- The counters agree with the queues: the totals are the sums over the pending Sessions, the
counters of a Session are those of its pending source events, and every cap holds. -/
structure Balanced (s : ObservedScheduler) : Prop where
  sourceEvents : s.pendingSourceEvents = s.pending.total (·.sourceEvents)
  reducerEvents : s.pendingReducerEvents = s.pending.total (·.runs.length)
  characters : s.pendingCharacters = s.pending.total (·.characters)
  counted : ∀ sessionHandle,
    ((s.pending.get? sessionHandle).elim 0 (·.sourceEvents) = (s.waitingOf sessionHandle).length) ∧
      (s.pending.get? sessionHandle).elim 0 (·.characters) =
        tally (·.characters) (s.waitingOf sessionHandle)
  session_caps : ∀ sessionHandle pending, s.pending.get? sessionHandle = some pending →
    pending.characters ≤ s.options.maxCharactersPerSession ∧
      pending.runs.length ≤ s.options.maxReducerEventsPerSession
  total_characters : s.pendingCharacters ≤ s.options.maxCharactersTotal
  total_events : s.pendingReducerEvents ≤ s.options.maxReducerEventsTotal

/-- Pending Sessions were taken away, and the counters still agree. -/
structure Shrunk (s t : ObservedScheduler) : Prop where
  balanced : t.Balanced
  options : t.options = s.options
  pending : ∀ sessionHandle pending, t.pending.get? sessionHandle = some pending →
    s.pending.get? sessionHandle = some pending
  reducerEvents : t.pendingReducerEvents ≤ s.pendingReducerEvents
  characters : t.pendingCharacters ≤ s.pendingCharacters

theorem Shrunk.trans {s t u : ObservedScheduler} (h : Shrunk s t) (h' : Shrunk t u) :
    Shrunk s u where
  balanced := h'.balanced
  options := h'.options.trans h.options
  pending := fun _ _ hget => h.pending _ _ (h'.pending _ _ hget)
  reducerEvents := Nat.le_trans h'.reducerEvents h.reducerEvents
  characters := Nat.le_trans h'.characters h.characters

/-- A call that can only take pending Sessions away. -/
def Shrinks (s t : ObservedScheduler) : Prop := s.Balanced → Shrunk s t

/-- A call that keeps the counters in agreement. -/
def KeepsBalance (s t : ObservedScheduler) : Prop := s.Balanced → t.Balanced

namespace Shrinks

variable {s t u : ObservedScheduler}

theorem trans (h : Shrinks s t) (h' : Shrinks t u) : Shrinks s u :=
  fun hs => (h hs).trans (h' (h hs).balanced)

theorem of_queues (hpending : t.pending = s.pending) (hoptions : t.options = s.options)
    (hwaiting : t.waiting = s.waiting) (hsource : t.pendingSourceEvents = s.pendingSourceEvents)
    (hreducer : t.pendingReducerEvents = s.pendingReducerEvents)
    (hcharacters : t.pendingCharacters = s.pendingCharacters) : Shrinks s t := by
  intro hs
  have hwaitingOf (sessionHandle : JsString) :
      t.waitingOf sessionHandle = s.waitingOf sessionHandle := by
    rw [waitingOf, hwaiting, waitingOf]
  refine ⟨⟨?_, ?_, ?_, ?_, ?_, ?_, ?_⟩, hoptions, ?_,
    Nat.le_of_eq hreducer, Nat.le_of_eq hcharacters⟩
  · rw [hsource, hpending, hs.sourceEvents]
  · rw [hreducer, hpending, hs.reducerEvents]
  · rw [hcharacters, hpending, hs.characters]
  · intro sessionHandle
    rw [hpending, hwaitingOf]
    exact hs.counted sessionHandle
  · rw [hpending, hoptions]
    exact hs.session_caps
  · rw [hcharacters, hoptions]
    exact hs.total_characters
  · rw [hreducer, hoptions]
    exact hs.total_events
  · rw [hpending]
    exact fun _ _ h => h

theorem refl (s : ObservedScheduler) : Shrinks s s := of_queues rfl rfl rfl rfl rfl rfl

theorem of_erase {sessionHandle : JsString} {pending : PendingSession}
    (hget : s.pending.get? sessionHandle = some pending)
    (hpending : t.pending = s.pending.erase sessionHandle) (hoptions : t.options = s.options)
    (hwaiting : t.waiting = s.waitingElsewhere sessionHandle)
    (hsource : t.pendingSourceEvents = s.pendingSourceEvents - pending.sourceEvents)
    (hreducer : t.pendingReducerEvents = s.pendingReducerEvents - pending.runs.length)
    (hcharacters : t.pendingCharacters = s.pendingCharacters - pending.characters) :
    Shrinks s t := by
  intro hs
  have hreducerLe : t.pendingReducerEvents ≤ s.pendingReducerEvents :=
    hreducer ▸ Nat.sub_le _ _
  have hcharactersLe : t.pendingCharacters ≤ s.pendingCharacters :=
    hcharacters ▸ Nat.sub_le _ _
  refine ⟨⟨?_, ?_, ?_, ?_, ?_, ?_, ?_⟩, hoptions, ?_, hreducerLe, hcharactersLe⟩
  · have htotal := InsertionMap.total_erase (f := (·.sourceEvents)) hget
    rw [hsource, hpending, hs.sourceEvents]
    omega
  · have htotal := InsertionMap.total_erase (f := (·.runs.length)) hget
    rw [hreducer, hpending, hs.reducerEvents]
    omega
  · have htotal := InsertionMap.total_erase (f := (·.characters)) hget
    rw [hcharacters, hpending, hs.characters]
    omega
  · intro other
    rw [hpending, InsertionMap.get?_erase]
    by_cases hother : other = sessionHandle
    · have hnone : t.waitingOf other = [] := by
        rw [waitingOf, hwaiting, hother, waitingElsewhere, List.filter_filter]
        exact List.filter_eq_nil_iff.mpr (by simp)
      simp [hother, hother ▸ hnone]
    · have hsame : t.waitingOf other = s.waitingOf other := by
        rw [waitingOf, hwaiting, waitingElsewhere, List.filter_filter, waitingOf]
        refine List.filter_congr fun source _ => ?_
        by_cases hsource : source.sessionHandle = other
        · simp [hsource, hother]
        · simp [hsource]
      rw [if_neg hother, hsame]
      exact hs.counted other
  · intro other found hfound
    rw [hpending, InsertionMap.get?_erase] at hfound
    split at hfound
    · cases hfound
    · rw [hoptions]
      exact hs.session_caps other found hfound
  · rw [hoptions]
    exact Nat.le_trans hcharactersLe hs.total_characters
  · rw [hoptions]
    exact Nat.le_trans hreducerLe hs.total_events
  · intro other found hfound
    rw [hpending, InsertionMap.get?_erase] at hfound
    split at hfound
    · cases hfound
    · exact hfound

theorem of_clear (hpending : t.pending = .empty) (hoptions : t.options = s.options)
    (hwaiting : t.waiting = []) (hsource : t.pendingSourceEvents = 0)
    (hreducer : t.pendingReducerEvents = 0) (hcharacters : t.pendingCharacters = 0) :
    Shrinks s t := by
  intro _
  refine ⟨⟨?_, ?_, ?_, ?_, ?_, ?_, ?_⟩, hoptions, ?_, ?_, ?_⟩
  · rw [hsource, hpending, InsertionMap.total_empty]
  · rw [hreducer, hpending, InsertionMap.total_empty]
  · rw [hcharacters, hpending, InsertionMap.total_empty]
  · intro sessionHandle
    simp [hpending, waitingOf, hwaiting]
  · simp [hpending]
  · rw [hcharacters]
    exact Nat.zero_le _
  · rw [hreducer]
    exact Nat.zero_le _
  · simp [hpending]
  · rw [hreducer]
    exact Nat.zero_le _
  · rw [hcharacters]
    exact Nat.zero_le _

end Shrinks

theorem counters_removePending (s : SessionEventScheduler) (sessionHandle : JsString)
    (pending : PendingSession) :
    (s.removePending sessionHandle pending).options = s.options ∧
      (s.removePending sessionHandle pending).pendingSourceEvents =
        s.pendingSourceEvents - pending.sourceEvents ∧
      (s.removePending sessionHandle pending).pendingReducerEvents =
        s.pendingReducerEvents - pending.runs.length ∧
      (s.removePending sessionHandle pending).pendingCharacters =
        s.pendingCharacters - pending.characters := by
  unfold SessionEventScheduler.removePending
  dsimp only
  split <;> exact ⟨rfl, rfl, rfl, rfl⟩

theorem shrinks_removePending {sessionHandle : JsString} {pending : PendingSession}
    (hget : s.pending.get? sessionHandle = some pending) :
    Shrinks s (s.removePending sessionHandle pending) := by
  obtain ⟨hoptions, hsource, hreducer, hcharacters⟩ :=
    counters_removePending s.toSessionEventScheduler sessionHandle pending
  exact Shrinks.of_erase hget
    (SessionEventScheduler.pending_removePending s.toSessionEventScheduler sessionHandle pending)
    hoptions rfl hsource hreducer hcharacters

theorem shrinks_discardSession (sessionHandle : JsString) :
    Shrinks s (s.discardSession sessionHandle) ∧
      (s.discardSession sessionHandle).pending.get? sessionHandle = none := by
  unfold discardSession
  split
  · rename_i hnone
    exact ⟨Shrinks.refl s, hnone⟩
  · rename_i pending hget
    have hdiscard : s.toSessionEventScheduler.discardSession sessionHandle =
        { s.toSessionEventScheduler with metrics := { s.metrics with
          discardedEvents := s.metrics.discardedEvents + pending.sourceEvents } }.removePending
            sessionHandle pending := by
      rw [SessionEventScheduler.discardSession, hget]
    obtain ⟨hoptions, hsource, hreducer, hcharacters⟩ := counters_removePending
      { s.toSessionEventScheduler with metrics := { s.metrics with
        discardedEvents := s.metrics.discardedEvents + pending.sourceEvents } }
      sessionHandle pending
    have hpending := SessionEventScheduler.pending_removePending
      { s.toSessionEventScheduler with metrics := { s.metrics with
        discardedEvents := s.metrics.discardedEvents + pending.sourceEvents } }
      sessionHandle pending
    rw [← hdiscard] at hoptions hsource hreducer hcharacters hpending
    refine ⟨Shrinks.of_erase hget hpending hoptions rfl hsource hreducer hcharacters, ?_⟩
    change (s.toSessionEventScheduler.discardSession sessionHandle).pending.get?
      sessionHandle = none
    rw [hpending, InsertionMap.get?_erase_self]

theorem shrinks_dispose : Shrinks s s.dispose := by
  unfold dispose
  by_cases hdisposed : s.disposed
  · rw [if_pos hdisposed]
    exact Shrinks.refl s
  · rw [if_neg hdisposed]
    have hdispose : s.toSessionEventScheduler.dispose =
        { s.toSessionEventScheduler with
          disposed := true
          pending := .empty
          pendingSourceEvents := 0
          pendingReducerEvents := 0
          pendingCharacters := 0
          metrics := { s.metrics with
            discardedEvents := s.metrics.discardedEvents +
              (s.pending.entries.map fun entry : JsString × PendingSession =>
                entry.2.sourceEvents).sum } }.cancelSchedule := by
      rw [SessionEventScheduler.dispose, if_neg hdisposed]
    rw [hdispose]
    exact Shrinks.of_clear rfl rfl rfl rfl rfl rfl

/-- A relation that calls of the handler may have: it holds along calls that only take pending
Sessions away, and of one call after another. -/
structure CallRelation (R : ObservedScheduler → ObservedScheduler → Prop) : Prop where
  of_shrinks : ∀ {s t}, Shrinks s t → R s t
  trans : ∀ {s t u}, R s t → R t u → R s u

theorem callRelation_shrinks : CallRelation Shrinks := ⟨fun h => h, fun h h' => h.trans h'⟩

theorem callRelation_keepsBalance : CallRelation KeepsBalance :=
  ⟨fun h hs => (h hs).balanced, fun h h' hs => h' (h hs)⟩

namespace CallRelation

variable {R : ObservedScheduler → ObservedScheduler → Prop}

theorem emitBatch (hR : CallRelation R) (honFlush : ∀ s, R s (onFlush s).1)
    (sessionHandle : JsString) (generation : ℕ) (events : List CoalescibleMessageUpdate)
    (count : ℕ) (numbers : List ℕ) :
    R s (s.emitBatch onFlush sessionHandle generation events count numbers).1 := by
  unfold ObservedScheduler.emitBatch
  by_cases hevents : events.isEmpty
  · rw [if_pos hevents]
    exact hR.of_shrinks (Shrinks.refl s)
  · rw [if_neg hevents]
    have hemitted : Shrinks s { s with
        toSessionEventScheduler :=
          s.toSessionEventScheduler.emitBatch sessionHandle generation events count
        handed := s.handed ++ numbers } := by
      refine Shrinks.of_queues ?_ ?_ rfl ?_ ?_ ?_
      all_goals simp [SessionEventScheduler.emitBatch, hevents]
    exact hR.trans (hR.of_shrinks hemitted) (honFlush _)

theorem emitBatches (hR : CallRelation R) (honFlush : ∀ s, R s (onFlush s).1)
    (batches : List ((JsString × PendingSession) × List ℕ)) :
    ∀ start : ObservedScheduler × Bool, R start.1 (emitBatches onFlush batches start).1 := by
  induction batches with
  | nil => exact fun start => hR.of_shrinks (Shrinks.refl start.1)
  | cons batch rest ih =>
    intro start
    have hfirst : R start.1 (start.1.emitBatch onFlush batch.1.1 batch.1.2.generation
        (batch.1.2.runs.map (·.event)) batch.1.2.sourceEvents batch.2).1 :=
      hR.emitBatch honFlush _ _ _ _ _
    exact hR.trans hfirst (ih (emitNext onFlush start batch))

theorem flushSession (hR : CallRelation R) (honFlush : ∀ s, R s (onFlush s).1)
    (sessionHandle : JsString) (generation : Option ℕ) :
    R s (s.flushSession onFlush sessionHandle generation).1 := by
  unfold ObservedScheduler.flushSession
  split
  · exact hR.of_shrinks (Shrinks.refl s)
  · rename_i pending hget
    split
    · exact hR.of_shrinks (shrinks_discardSession sessionHandle).1
    · exact hR.trans (hR.of_shrinks (shrinks_removePending hget)) (hR.emitBatch honFlush _ _ _ _ _)

theorem flushAll (hR : CallRelation R) (honFlush : ∀ s, R s (onFlush s).1) :
    R s (s.flushAll onFlush).1 := by
  unfold ObservedScheduler.flushAll
  split
  · exact hR.of_shrinks (Shrinks.of_queues rfl rfl rfl rfl rfl rfl)
  · have hcleared : Shrinks s s.clearPending := Shrinks.of_clear rfl rfl rfl rfl rfl rfl
    exact hR.trans (hR.of_shrinks hcleared) (hR.emitBatches honFlush _ (s.clearPending, false))

end CallRelation

theorem get?_flushSession (honFlush : ∀ s, Shrinks s (onFlush s).1) (hs : s.Balanced)
    (sessionHandle : JsString) (generation : Option ℕ) :
    (s.flushSession onFlush sessionHandle generation).1.pending.get? sessionHandle = none := by
  unfold flushSession
  split
  · assumption
  · rename_i pending hget
    split
    · exact (shrinks_discardSession sessionHandle).2
    · have hremoved := shrinks_removePending hget hs
      have hnone : (s.removePending sessionHandle pending).pending.get? sessionHandle = none := by
        change (s.toSessionEventScheduler.removePending sessionHandle pending).pending.get?
          sessionHandle = none
        rw [SessionEventScheduler.pending_removePending, InsertionMap.get?_erase_self]
      have hemitted := callRelation_shrinks.emitBatch honFlush sessionHandle pending.generation
        (pending.runs.map (·.event)) pending.sourceEvents (s.numbersOf sessionHandle)
        (s := s.removePending sessionHandle pending) hremoved.balanced
      refine Option.eq_none_iff_forall_ne_some.mpr fun found hfound => ?_
      rw [hemitted.pending _ _ hfound] at hnone
      cases hnone

theorem flushAll_empties (honFlush : ∀ s, Shrinks s (onFlush s).1) (hs : s.Balanced) :
    (∀ sessionHandle, (s.flushAll onFlush).1.pending.get? sessionHandle = none) ∧
      (s.flushAll onFlush).1.pendingCharacters = 0 ∧
      (s.flushAll onFlush).1.pendingReducerEvents = 0 := by
  unfold flushAll
  split
  · rename_i hempty
    have hentries := List.isEmpty_iff.mp hempty
    refine ⟨fun sessionHandle => ?_, ?_, ?_⟩
    · change s.pending.get? sessionHandle = none
      simp [InsertionMap.get?, hentries]
    · change s.pendingCharacters = 0
      rw [hs.characters, InsertionMap.total, hentries, tally_nil]
    · change s.pendingReducerEvents = 0
      rw [hs.reducerEvents, InsertionMap.total, hentries, tally_nil]
  · have hcleared : Shrinks s s.clearPending := Shrinks.of_clear rfl rfl rfl rfl rfl rfl
    have hemitted := callRelation_shrinks.emitBatches honFlush
      (s.pending.entries.map fun entry => (entry, s.numbersOf entry.1)) (s.clearPending, false)
      (hcleared hs).balanced
    refine ⟨fun sessionHandle => ?_, Nat.le_zero.mp hemitted.characters,
      Nat.le_zero.mp hemitted.reducerEvents⟩
    refine Option.eq_none_iff_forall_ne_some.mpr fun found hfound => ?_
    have hnone := hemitted.pending _ _ hfound
    cases hnone

/-- The locals of `enqueue` agree with the scheduler: pending Sessions were only taken away since,
the current Session is the pending one, and the event merges into its last run if the locals say
so. -/
structure CallingAdmission.Ready (a : CallingAdmission) (s : ObservedScheduler)
    (sessionHandle messageIdentity : JsString) (event : CoalescibleMessageUpdate) : Prop where
  shrunk : Shrunk s a.scheduler
  current : a.current = a.scheduler.pending.get? sessionHandle
  mergeable : a.mergeable =
    canMerge (a.current.bind (·.runs.getLast?)) messageIdentity event

theorem shrinks_countForcedFlush (s : ObservedScheduler) : Shrinks s s.countForcedFlush :=
  Shrinks.of_queues rfl rfl rfl rfl rfl rfl

namespace CallingAdmission

variable {a : CallingAdmission} {sessionHandle messageIdentity : JsString}
  {event : CoalescibleMessageUpdate}

theorem Ready.forceSession (honFlush : ∀ s, Shrinks s (onFlush s).1)
    (h : a.Ready s sessionHandle messageIdentity event) (generation : ℕ) :
    (a.forceSession onFlush sessionHandle generation false).Ready s sessionHandle
        messageIdentity event ∧
      Shrunk a.scheduler (a.forceSession onFlush sessionHandle generation false).scheduler := by
  have hcounted := shrinks_countForcedFlush a.scheduler h.shrunk.balanced
  have hflushed := hcounted.trans (callRelation_shrinks.flushSession honFlush sessionHandle
    (some generation) hcounted.balanced)
  exact ⟨⟨h.shrunk.trans hflushed,
    (get?_flushSession honFlush hcounted.balanced sessionHandle (some generation)).symm, rfl⟩,
    hflushed⟩

theorem Ready.forceAll (honFlush : ∀ s, Shrinks s (onFlush s).1)
    (h : a.Ready s sessionHandle messageIdentity event) :
    (a.forceAll onFlush false).Ready s sessionHandle messageIdentity event ∧
      Shrunk a.scheduler (a.forceAll onFlush false).scheduler ∧
      (a.forceAll onFlush false).scheduler.pendingCharacters = 0 ∧
      (a.forceAll onFlush false).scheduler.pendingReducerEvents = 0 := by
  have hcounted := shrinks_countForcedFlush a.scheduler h.shrunk.balanced
  have hflushed := hcounted.trans (callRelation_shrinks.flushAll honFlush hcounted.balanced)
  obtain ⟨hnone, hcharacters, hevents⟩ := flushAll_empties honFlush hcounted.balanced
  exact ⟨⟨h.shrunk.trans hflushed, (hnone sessionHandle).symm, rfl⟩, hflushed, hcharacters,
    hevents⟩

/-- The event fits into the characters of its Session. -/
def FitsSession (a : CallingAdmission) (event : CoalescibleMessageUpdate) : Prop :=
  ∀ current, a.current = some current →
    current.characters + event.delta.length ≤ a.scheduler.options.maxCharactersPerSession

/-- The event fits into the total characters. -/
def FitsTotal (a : CallingAdmission) (event : CoalescibleMessageUpdate) : Prop :=
  a.scheduler.pendingCharacters + event.delta.length ≤ a.scheduler.options.maxCharactersTotal

/-- The event merges, or the Session has room for a run. -/
def RoomInSession (a : CallingAdmission) : Prop :=
  a.mergeable = false → ∀ current, a.current = some current →
    current.runs.length < a.scheduler.options.maxReducerEventsPerSession

/-- The event merges, or there is room for a run in total. -/
def RoomInTotal (a : CallingAdmission) : Prop :=
  a.mergeable = false →
    a.scheduler.pendingReducerEvents < a.scheduler.options.maxReducerEventsTotal

theorem Ready.capSessionCharacters (honFlush : ∀ s, Shrinks s (onFlush s).1)
    (h : a.Ready s sessionHandle messageIdentity event) (generation : ℕ) :
    (callCapSessionCharacters onFlush sessionHandle generation event.delta.length a).Ready s
        sessionHandle messageIdentity event ∧
      (callCapSessionCharacters onFlush sessionHandle generation event.delta.length
        a).FitsSession event := by
  unfold callCapSessionCharacters
  by_cases hexceeds : a.current.any (fun current => decide
      (current.characters + event.delta.length > a.scheduler.options.maxCharactersPerSession))
  · rw [if_pos hexceeds]
    exact ⟨(h.forceSession honFlush generation).1, fun current hcurrent => by cases hcurrent⟩
  · rw [if_neg hexceeds]
    refine ⟨h, fun current hcurrent => ?_⟩
    simpa [hcurrent] using hexceeds

theorem Ready.capTotalCharacters (honFlush : ∀ s, Shrinks s (onFlush s).1)
    (h : a.Ready s sessionHandle messageIdentity event) (hsession : a.FitsSession event)
    (hsize : event.delta.length ≤ s.options.maxCharactersTotal) :
    (callCapTotalCharacters onFlush event.delta.length a).Ready s sessionHandle messageIdentity
        event ∧
      (callCapTotalCharacters onFlush event.delta.length a).FitsSession event ∧
      ((callCapTotalCharacters onFlush event.delta.length a).threw = false →
        (callCapTotalCharacters onFlush event.delta.length a).FitsTotal event) := by
  unfold callCapTotalCharacters
  by_cases hthrew : a.threw = true
  · rw [if_pos hthrew]
    exact ⟨h, hsession, fun hfalse => by simp [hthrew] at hfalse⟩
  · rw [if_neg hthrew]
    by_cases hexceeds : a.scheduler.pendingCharacters + event.delta.length >
        a.scheduler.options.maxCharactersTotal
    · rw [if_pos hexceeds]
      obtain ⟨hready, hshrunk, hcharacters, -⟩ := h.forceAll honFlush
      refine ⟨hready, fun current hcurrent => (by cases hcurrent), fun _ => ?_⟩
      rw [FitsTotal, hcharacters, hready.shrunk.options, Nat.zero_add]
      exact hsize
    · rw [if_neg hexceeds]
      exact ⟨h, hsession, fun _ => Nat.not_lt.mp hexceeds⟩

theorem Ready.capSessionEvents (honFlush : ∀ s, Shrinks s (onFlush s).1)
    (h : a.Ready s sessionHandle messageIdentity event) (hsession : a.FitsSession event)
    (htotal : a.threw = false → a.FitsTotal event) (generation : ℕ) :
    (callCapSessionEvents onFlush sessionHandle generation a).Ready s sessionHandle messageIdentity
        event ∧
      (callCapSessionEvents onFlush sessionHandle generation a).FitsSession event ∧
      ((callCapSessionEvents onFlush sessionHandle generation a).threw = false →
        (callCapSessionEvents onFlush sessionHandle generation a).FitsTotal event ∧
          (callCapSessionEvents onFlush sessionHandle generation a).RoomInSession) := by
  unfold callCapSessionEvents
  by_cases hthrew : a.threw = true
  · rw [if_pos hthrew]
    exact ⟨h, hsession, fun hfalse => by simp [hthrew] at hfalse⟩
  · rw [if_neg hthrew]
    have htotal := htotal (by simpa using hthrew)
    by_cases hfull : (!a.mergeable && a.current.any fun current => decide
        (current.runs.length ≥ a.scheduler.options.maxReducerEventsPerSession)) = true
    · rw [if_pos hfull]
      have hmergeable : a.mergeable = false := by simp_all
      rw [hmergeable]
      obtain ⟨hready, hshrunk⟩ := h.forceSession honFlush generation
      refine ⟨hready, fun current hcurrent => (by cases hcurrent), fun _ => ⟨?_, ?_⟩⟩
      · have hle := hshrunk.characters
        have hoptions := hshrunk.options
        unfold FitsTotal at htotal ⊢
        rw [hoptions]
        omega
      · exact fun _ current hcurrent => by cases hcurrent
    · rw [if_neg hfull]
      refine ⟨h, hsession, fun _ => ⟨htotal, fun hmergeable current hcurrent => ?_⟩⟩
      simpa [hmergeable, hcurrent] using hfull

theorem Ready.capTotalEvents (honFlush : ∀ s, Shrinks s (onFlush s).1)
    (h : a.Ready s sessionHandle messageIdentity event) (hsession : a.FitsSession event)
    (hroom : a.threw = false → a.FitsTotal event ∧ a.RoomInSession)
    (hsize : 1 ≤ s.options.maxReducerEventsTotal) :
    (callCapTotalEvents onFlush a).Ready s sessionHandle messageIdentity event ∧
      (callCapTotalEvents onFlush a).FitsSession event ∧
      ((callCapTotalEvents onFlush a).threw = false →
        (callCapTotalEvents onFlush a).FitsTotal event ∧
          (callCapTotalEvents onFlush a).RoomInSession ∧
          (callCapTotalEvents onFlush a).RoomInTotal) := by
  unfold callCapTotalEvents
  by_cases hthrew : a.threw = true
  · rw [if_pos hthrew]
    exact ⟨h, hsession, fun hfalse => by simp [hthrew] at hfalse⟩
  · rw [if_neg hthrew]
    obtain ⟨htotal, hroom⟩ := hroom (by simpa using hthrew)
    by_cases hfull : (!a.mergeable && decide
        (a.scheduler.pendingReducerEvents ≥ a.scheduler.options.maxReducerEventsTotal)) = true
    · rw [if_pos hfull]
      have hmergeable : a.mergeable = false := by simp_all
      rw [hmergeable]
      obtain ⟨hready, hshrunk, -, hevents⟩ := h.forceAll honFlush
      refine ⟨hready, fun current hcurrent => (by cases hcurrent), fun _ => ⟨?_, ?_, ?_⟩⟩
      · have hle := hshrunk.characters
        have hoptions := hshrunk.options
        unfold FitsTotal at htotal ⊢
        rw [hoptions]
        omega
      · exact fun _ current hcurrent => by cases hcurrent
      · intro _
        rw [hevents, hready.shrunk.options]
        exact hsize
    · rw [if_neg hfull]
      refine ⟨h, hsession, fun _ => ⟨htotal, hroom, fun hmergeable => ?_⟩⟩
      simpa [hmergeable] using hfull

end CallingAdmission

theorem length_pushRun (runs : List PendingRun) (messageIdentity : JsString)
    (event : CoalescibleMessageUpdate) (characters : ℕ) :
    (pushRun runs messageIdentity event characters).length =
      if canMerge runs.getLast? messageIdentity event then runs.length else runs.length + 1 := by
  unfold pushRun
  dsimp only
  split
  · rename_i last hlast
    have hne : runs ≠ [] := by
      rintro rfl
      simp at hlast
    have hpos := List.length_pos_of_ne_nil hne
    rw [hlast]
    split
    · simp only [List.length_append, List.length_dropLast, List.length_cons, List.length_nil]
      omega
    · simp
  · rename_i hnone
    rw [hnone]
    simp [canMerge]

theorem total_insert_pending (pending : InsertionMap JsString PendingSession)
    (sessionHandle : JsString) (next : PendingSession) (f : PendingSession → ℕ) :
    (pending.insert sessionHandle next).total f + (pending.get? sessionHandle).elim 0 f =
      pending.total f + f next := by
  cases hget : pending.get? sessionHandle with
  | none => simpa using InsertionMap.total_insert hget next
  | some current =>
    have hbefore := InsertionMap.total_erase (f := f) hget
    have hafter := InsertionMap.total_erase (f := f)
      (InsertionMap.get?_insert_self pending sessionHandle next)
    rw [InsertionMap.erase_insert] at hafter
    simp only [Option.elim_some]
    omega

theorem counters_enqueuePending (a : SessionEventScheduler.Admission) (sessionHandle : JsString)
    (generation : ℕ) (messageIdentity : JsString) (event : CoalescibleMessageUpdate)
    (hidden : Bool) :
    let next := a.enqueuePending sessionHandle generation messageIdentity event hidden
    let pending := a.current.getD
      { generation := generation, runs := [], sourceEvents := 0, characters := 0 }
    next.options = a.scheduler.options ∧
      next.pending = a.scheduler.pending.insert sessionHandle
        { pending with
          runs := pushRun pending.runs messageIdentity event event.delta.length
          sourceEvents := pending.sourceEvents + 1
          characters := pending.characters + event.delta.length } ∧
      next.pendingSourceEvents = a.scheduler.pendingSourceEvents + 1 ∧
      next.pendingReducerEvents =
        (if canMerge pending.runs.getLast? messageIdentity event then
          a.scheduler.pendingReducerEvents else a.scheduler.pendingReducerEvents + 1) ∧
      next.pendingCharacters = a.scheduler.pendingCharacters + event.delta.length := by
  intro next pending
  have hschedule (s : SessionEventScheduler) : (s.schedule hidden).options = s.options ∧
      (s.schedule hidden).pending = s.pending ∧
      (s.schedule hidden).pendingSourceEvents = s.pendingSourceEvents ∧
      (s.schedule hidden).pendingReducerEvents = s.pendingReducerEvents ∧
      (s.schedule hidden).pendingCharacters = s.pendingCharacters := by
    unfold SessionEventScheduler.schedule
    split
    · exact ⟨rfl, rfl, rfl, rfl, rfl⟩
    · split <;> exact ⟨rfl, rfl, rfl, rfl, rfl⟩
  exact hschedule _

theorem CallingAdmission.Ready.enqueuePending {a : CallingAdmission}
    {sessionHandle messageIdentity : JsString} {event : CoalescibleMessageUpdate}
    (h : a.Ready s sessionHandle messageIdentity event) (hsession : a.FitsSession event)
    (htotal : a.FitsTotal event) (hroomSession : a.RoomInSession) (hroomTotal : a.RoomInTotal)
    (hsize : SessionEventScheduler.oversized s.options event.delta.length = false)
    (number generation : ℕ) (hidden : Bool) :
    (a.enqueuePending number sessionHandle generation messageIdentity event hidden).Balanced := by
  have hbalanced := h.shrunk.balanced
  have hoptionsBase := h.shrunk.options
  simp only [SessionEventScheduler.oversized, Bool.or_eq_false_iff, decide_eq_false_iff_not,
    Nat.not_lt] at hsize
  obtain ⟨⟨⟨hsizeSession, -⟩, hsizeEvents⟩, -⟩ := hsize
  obtain ⟨hoptions, hpending, hsource, hreducer, hcharacters⟩ := counters_enqueuePending
    { scheduler := a.scheduler.toSessionEventScheduler
      current := a.current
      mergeable := a.mergeable } sessionHandle generation messageIdentity event hidden
  simp only at hoptions hpending hsource hreducer hcharacters
  set pending : PendingSession := a.current.getD
    { generation := generation, runs := [], sourceEvents := 0, characters := 0 } with hcurrent
  set grown : PendingSession := { pending with
    runs := pushRun pending.runs messageIdentity event event.delta.length
    sourceEvents := pending.sourceEvents + 1
    characters := pending.characters + event.delta.length } with hgrown
  set next := a.enqueuePending number sessionHandle generation messageIdentity event hidden
    with hnext
  have hoptions : next.options = a.scheduler.options := hoptions
  have hpending : next.pending = a.scheduler.pending.insert sessionHandle grown := hpending
  have hsource : next.pendingSourceEvents = a.scheduler.pendingSourceEvents + 1 := hsource
  have hcharacters : next.pendingCharacters =
      a.scheduler.pendingCharacters + event.delta.length := hcharacters
  have hlast : a.mergeable = canMerge pending.runs.getLast? messageIdentity event := by
    rw [h.mergeable, hcurrent]
    cases a.current <;> rfl
  have hreducer : next.pendingReducerEvents = if a.mergeable then
      a.scheduler.pendingReducerEvents else a.scheduler.pendingReducerEvents + 1 := by
    rw [hlast]
    exact hreducer
  have hlength : grown.runs.length =
      if a.mergeable then pending.runs.length else pending.runs.length + 1 := by
    rw [hlast]
    exact length_pushRun _ _ _ _
  -- what was pending for the Session is the current one, or nothing
  have hold (f : PendingSession → ℕ)
      (hf : f { generation := generation, runs := [], sourceEvents := 0, characters := 0 } = 0) :
      (a.scheduler.pending.get? sessionHandle).elim 0 f = f pending := by
    rw [← h.current, hcurrent]
    cases a.current with
    | none => exact hf.symm
    | some current => rfl
  have htotals (f : PendingSession → ℕ)
      (hf : f { generation := generation, runs := [], sourceEvents := 0, characters := 0 } = 0) :
      next.pending.total f + f pending = a.scheduler.pending.total f + f grown := by
    rw [hpending, ← hold f hf]
    exact total_insert_pending _ _ _ _
  have hwaitingOf (other : JsString) : next.waitingOf other = a.scheduler.waitingOf other ++
      if sessionHandle = other then
        [{ number := number, sessionHandle := sessionHandle,
           characters := event.delta.length }] else [] := by
    simp only [hnext, CallingAdmission.enqueuePending, waitingOf, List.filter_append]
    by_cases hother : sessionHandle = other <;> simp [hother]
  have hgrownSource : grown.sourceEvents = pending.sourceEvents + 1 := rfl
  have hgrownCharacters : grown.characters = pending.characters + event.delta.length := rfl
  refine ⟨?_, ?_, ?_, fun other => ?_, fun other found hfound => ?_, ?_, ?_⟩
  · have hsum := htotals (·.sourceEvents) rfl
    have hbefore := hbalanced.sourceEvents
    omega
  · have hsum := htotals (·.runs.length) rfl
    have hbefore := hbalanced.reducerEvents
    cases hmergeable : a.mergeable with
    | true =>
      rw [hmergeable, if_pos rfl] at hreducer hlength
      omega
    | false =>
      rw [hmergeable, if_neg (by simp)] at hreducer hlength
      omega
  · have hsum := htotals (·.characters) rfl
    have hbefore := hbalanced.characters
    omega
  · rw [hpending, hwaitingOf, InsertionMap.get?_insert]
    obtain ⟨hcountedSource, hcountedCharacters⟩ := hbalanced.counted other
    by_cases hother : other = sessionHandle
    · subst hother
      rw [hold (·.sourceEvents) rfl] at hcountedSource
      rw [hold (·.characters) rfl] at hcountedCharacters
      simp [hgrownSource, hgrownCharacters, ← hcountedSource, ← hcountedCharacters]
    · rw [if_neg hother, if_neg (Ne.symm hother), List.append_nil]
      exact ⟨hcountedSource, hcountedCharacters⟩
  · rw [hpending, InsertionMap.get?_insert] at hfound
    rw [hoptions]
    split at hfound
    · obtain rfl := Option.some.inj hfound
      rw [hgrownCharacters, hlength]
      cases hnone : a.current with
      | none =>
        have hempty : pending =
            { generation := generation, runs := [], sourceEvents := 0, characters := 0 } := by
          rw [hcurrent, hnone]
          rfl
        have hfresh : a.mergeable = false := by rw [h.mergeable, hnone]; rfl
        rw [hfresh, hempty, hoptionsBase]
        exact ⟨by simpa using hsizeSession, by simpa using hsizeEvents⟩
      | some current =>
        have hsame : pending = current := by rw [hcurrent, hnone]; rfl
        have hget : a.scheduler.pending.get? sessionHandle = some current :=
          h.current.symm.trans hnone
        rw [hsame]
        refine ⟨hsession current hnone, ?_⟩
        cases hmergeable : a.mergeable with
        | true => simpa using (hbalanced.session_caps sessionHandle current hget).2
        | false => exact hroomSession hmergeable current hnone
    · exact hbalanced.session_caps other found hfound
  · rw [hcharacters, hoptions]
    exact htotal
  · rw [hreducer, hoptions]
    cases hmergeable : a.mergeable with
    | true => simpa using hbalanced.total_events
    | false => exact hroomTotal hmergeable

theorem keepsBalance_enqueue (honFlush : ∀ s, Shrinks s (onFlush s).1) (sessionHandle : JsString)
    (generation : ℕ) (messageIdentity : JsString) (event : CoalescibleMessageUpdate)
    (hidden : Bool) :
    KeepsBalance s
      (s.enqueue onFlush sessionHandle generation messageIdentity event hidden).1 := by
  have hreceive : Shrinks s s.receive := Shrinks.of_queues rfl rfl rfl rfl rfl rfl
  have hstale : Shrinks s.receive (s.receive.dropStale sessionHandle generation) := by
    unfold dropStale
    split
    · split
      · exact (shrinks_discardSession sessionHandle).1
      · exact Shrinks.refl _
    · exact Shrinks.refl _
  have hfresh := hreceive.trans hstale
  intro hs
  simp only [enqueue]
  split
  · have hrejected : Shrinks s { s.receive with metrics := { s.receive.metrics with
        discardedEvents := s.receive.metrics.discardedEvents + 1 } } :=
      Shrinks.of_queues rfl rfl rfl rfl rfl rfl
    exact (hrejected hs).balanced
  split
  · exact (hreceive.trans (callRelation_shrinks.emitBatch honFlush _ _ _ _ _) hs).balanced
  split
  · have hflushed := hfresh.trans (callRelation_shrinks.flushSession honFlush sessionHandle
      (some generation))
    split
    · exact (hflushed hs).balanced
    · exact ((hflushed.trans (shrinks_countForcedFlush _)).trans
        (callRelation_shrinks.emitBatch honFlush _ _ _ _ _) hs).balanced
  · rename_i hsize
    have hsize : SessionEventScheduler.oversized s.options event.delta.length = false := by
      simpa using hsize
    have hsizes := hsize
    simp only [SessionEventScheduler.oversized, Bool.or_eq_false_iff, decide_eq_false_iff_not,
      Nat.not_lt] at hsizes
    obtain ⟨⟨⟨-, hsizeTotal⟩, -⟩, hsizeEvents⟩ := hsizes
    have hstart : ((s.receive.dropStale sessionHandle generation).admission sessionHandle
        messageIdentity event).Ready s sessionHandle messageIdentity event :=
      ⟨hfresh hs, rfl, rfl⟩
    obtain ⟨hready1, hsession1⟩ := hstart.capSessionCharacters honFlush generation
    obtain ⟨hready2, hsession2, htotal2⟩ :=
      hready1.capTotalCharacters honFlush hsession1 hsizeTotal
    obtain ⟨hready3, hsession3, hroom3⟩ :=
      hready2.capSessionEvents honFlush hsession2 htotal2 generation
    obtain ⟨hready4, hsession4, hroom4⟩ :=
      hready3.capTotalEvents honFlush hsession3 hroom3 hsizeEvents
    split
    · exact hready4.shrunk.balanced
    · rename_i hthrew
      obtain ⟨htotal, hroomSession, hroomTotal⟩ := hroom4 (Bool.eq_false_iff.mpr hthrew)
      exact hready4.enqueuePending hsession4 htotal hroomSession hroomTotal hsize s.received
        generation hidden

end ObservedScheduler

/-- The call is one of `enqueue`. -/
def SchedulerOp.isEnqueue : SchedulerOp → Bool
  | .enqueue .. => true
  | _ => false

namespace ObservedScheduler

theorem CallRelation.stepWith {R : ObservedScheduler → ObservedScheduler → Prop}
    (hR : CallRelation R) {handler : Bool → FlushHandler} {running : Bool}
    (hhandler : ∀ s, R s (handler running s).1) {op : SchedulerOp} (hop : op.isEnqueue = false)
    (s : ObservedScheduler) : R s (s.stepWith handler running op).1 := by
  cases op with
  | enqueue sessionHandle generation messageIdentity event hidden => cases hop
  | flushSession sessionHandle generation => exact hR.flushSession hhandler sessionHandle generation
  | flushAll => exact hR.flushAll hhandler
  | frameFired =>
    simp only [ObservedScheduler.stepWith]
    split
    · exact hR.trans (t := { s with framePending := false })
        (hR.of_shrinks (Shrinks.of_queues rfl rfl rfl rfl rfl rfl)) (hR.flushAll hhandler)
    · exact hR.of_shrinks (Shrinks.refl s)
  | timerFired =>
    simp only [ObservedScheduler.stepWith]
    split
    · exact hR.trans (t := { s with timerPending := false })
        (hR.of_shrinks (Shrinks.of_queues rfl rfl rfl rfl rfl rfl)) (hR.flushAll hhandler)
    · exact hR.of_shrinks (Shrinks.refl s)
  | visibilityChange hidden =>
    have hsame : (s.toSessionEventScheduler.handleVisibilityChange hidden).options = s.options ∧
        (s.toSessionEventScheduler.handleVisibilityChange hidden).pending = s.pending ∧
        (s.toSessionEventScheduler.handleVisibilityChange hidden).pendingSourceEvents =
          s.pendingSourceEvents ∧
        (s.toSessionEventScheduler.handleVisibilityChange hidden).pendingReducerEvents =
          s.pendingReducerEvents ∧
        (s.toSessionEventScheduler.handleVisibilityChange hidden).pendingCharacters =
          s.pendingCharacters := by
      unfold SessionEventScheduler.handleVisibilityChange SessionEventScheduler.schedule
      split
      · exact ⟨rfl, rfl, rfl, rfl, rfl⟩
      · split
        · exact ⟨rfl, rfl, rfl, rfl, rfl⟩
        · split <;> exact ⟨rfl, rfl, rfl, rfl, rfl⟩
    obtain ⟨hoptions, hpending, hsource, hreducer, hcharacters⟩ := hsame
    exact hR.of_shrinks (Shrinks.of_queues hpending hoptions rfl hsource hreducer hcharacters)
  | discardSession sessionHandle => exact hR.of_shrinks (shrinks_discardSession sessionHandle).1
  | dispose => exact hR.of_shrinks shrinks_dispose

/-- The handler never calls `enqueue` while an `enqueue` is running. -/
def Reaction.Apart (react : Reaction) : Prop :=
  ∀ flushed, ∀ op ∈ (react true flushed).1, op.isEnqueue = false

theorem keepsBalance_stepWith {handler : Bool → FlushHandler}
    (hinside : ∀ s, Shrinks s (handler true s).1) {running : Bool}
    (houtside : ∀ s, KeepsBalance s (handler running s).1) (op : SchedulerOp)
    (s : ObservedScheduler) : KeepsBalance s (s.stepWith handler running op).1 := by
  cases hop : op.isEnqueue with
  | false => exact callRelation_keepsBalance.stepWith houtside hop s
  | true =>
    cases op with
    | enqueue sessionHandle generation messageIdentity event hidden =>
      exact keepsBalance_enqueue hinside sessionHandle generation messageIdentity event hidden
    | _ => cases hop

theorem CallRelation.calls {R : ObservedScheduler → ObservedScheduler → Prop} (hR : CallRelation R)
    {handler : Bool → FlushHandler} {running : Bool} {ops : List SchedulerOp}
    (hstep : ∀ op ∈ ops, ∀ s : ObservedScheduler, R s (s.stepWith handler running op).1) :
    ∀ s : ObservedScheduler,
      R s (ops.foldl (fun current op => (current.stepWith handler running op).1) s) := by
  induction ops with
  | nil => exact fun s => hR.of_shrinks (Shrinks.refl s)
  | cons op rest ih =>
    intro s
    exact hR.trans (hstep op (by simp) s)
      (ih (fun other hother => hstep other (List.mem_cons_of_mem _ hother)) _)

theorem shrinks_handlerAt {react : Reaction} (hreact : react.Apart) (depth : ℕ) :
    ∀ s : ObservedScheduler, Shrinks s (handlerAt react depth true s).1 := by
  induction depth with
  | zero => exact fun s => Shrinks.refl s
  | succ depth ih =>
    intro s
    exact callRelation_shrinks.calls
      (fun op hop t => callRelation_shrinks.stepWith ih (hreact s.flushed op hop) t) s

theorem keepsBalance_handlerAt {react : Reaction} (hreact : react.Apart) (depth : ℕ) :
    ∀ s : ObservedScheduler, KeepsBalance s (handlerAt react depth false s).1 := by
  induction depth with
  | zero => exact fun s => callRelation_keepsBalance.of_shrinks (Shrinks.refl s)
  | succ depth ih =>
    intro s
    exact callRelation_keepsBalance.calls
      (fun op _ t => keepsBalance_stepWith (shrinks_handlerAt hreact depth) ih op t) s

theorem balanced_create (options : SchedulerOptions) : (create options).Balanced where
  sourceEvents := rfl
  reducerEvents := rfl
  characters := rfl
  counted := fun _ => ⟨rfl, rfl⟩
  session_caps := fun _ _ h => by cases h
  total_characters := Nat.zero_le _
  total_events := Nat.zero_le _

theorem ledger_create (options : SchedulerOptions) : (create options).Ledger where
  nodup := List.nodup_nil
  waiting_lt := fun _ h => by cases h
  handed_lt := fun _ h => by cases h
  dropped_lt := fun _ h => by cases h
  waiting_kept := fun _ h => by cases h
  apart := fun _ h => by cases h

theorem runCalls_balanced {react : Reaction} (hreact : react.Apart) (depth : ℕ)
    (options : SchedulerOptions) (ops : List SchedulerOp) :
    (runCalls react depth options ops).Balanced :=
  runFrom_invariant (I := Balanced)
    (fun s op hs => keepsBalance_stepWith (shrinks_handlerAt hreact depth)
      (keepsBalance_handlerAt hreact depth) op s hs) ops (balanced_create options)

theorem runCalls_ledger (react : Reaction) (depth : ℕ) (options : SchedulerOptions)
    (ops : List SchedulerOp) : (runCalls react depth options ops).Ledger :=
  runFrom_invariant (I := Ledger)
    (fun _ op hs => (follows_stepWith (follows_handlerAt react depth) false op hs).1) ops
    (ledger_create options)

end ObservedScheduler

namespace ObservedScheduler

variable {s : ObservedScheduler}

theorem runCalls_append (react : Reaction) (depth : ℕ) (options : SchedulerOptions)
    (before after : List SchedulerOp) : runCalls react depth options (before ++ after) =
      runFrom (fun s op => (s.stepWith (handlerAt react depth) false op).1)
        (runCalls react depth options before) after := runFrom_append _ _ _ _

theorem Unhanded.later {react : Reaction} {depth n : ℕ} (later : List SchedulerOp) :
    ∀ {s : ObservedScheduler}, s.Ledger → Unhanded n s →
      n ∉ (runFrom (fun s op => (s.stepWith (handlerAt react depth) false op).1) s
        later).handed := by
  induction later with
  | nil => exact fun _ hn => hn.2.2
  | cons op rest ih =>
    intro s hs hn
    obtain ⟨hnext, -, hunhanded⟩ := follows_stepWith (follows_handlerAt react depth) false op hs
    exact ih hnext (hunhanded n (by simp) hn)

theorem Ledger.unhanded_of_dropped (h : s.Ledger) {n : ℕ} (hn : n ∈ s.dropped) : Unhanded n s :=
  ⟨h.dropped_lt n hn, fun hmem => (h.waiting_kept n hmem).2 hn, h.apart n hn⟩

theorem Balanced.mem_dropped_discardSession (h : s.Balanced) {sessionHandle : JsString} {n : ℕ}
    (hn : n ∈ s.numbersOf sessionHandle) : n ∈ (s.discardSession sessionHandle).dropped := by
  unfold discardSession
  cases hget : s.pending.get? sessionHandle with
  | none =>
    have hcounted := (h.counted sessionHandle).1
    rw [hget] at hcounted
    have hnone : s.waitingOf sessionHandle = [] :=
      List.length_eq_zero_iff.mp hcounted.symm
    rw [numbersOf, show s.waiting.filter _ = [] from hnone] at hn
    simp at hn
  | some pending => exact List.mem_append_right _ hn

theorem mem_dropped_dispose (h : s.disposed = false) {n : ℕ} (hn : n ∈ s.waitingNumbers) :
    n ∈ s.dispose.dropped := by
  unfold dispose
  rw [if_neg (by simp [h])]
  exact List.mem_append_right _ hn

end ObservedScheduler

open ObservedScheduler in
/-- While `onFlush` never calls `enqueue` from within an `enqueue`, whatever else it calls and
whether or not it throws: after every call of a run the totals are the sums over the pending
Sessions, the counters of each Session are those of its pending source events, and every cap holds.
What was pending for a Session when it was discarded, or in total when the scheduler was first
disposed, is never handed to `onFlush` later, and neither is what was dropped inside of a call. -/
theorem scheduler_bounds (react : Reaction) (depth : ℕ) (options : SchedulerOptions)
    (ops : List SchedulerOp) (hreact : react.Apart) :
    let s := runCalls react depth options ops
    (s.pendingSourceEvents = (s.pending.entries.map (·.2.sourceEvents)).sum ∧
      s.pendingReducerEvents = (s.pending.entries.map (·.2.runs.length)).sum ∧
      s.pendingCharacters = (s.pending.entries.map (·.2.characters)).sum) ∧
    (∀ sessionHandle pending, s.pending.get? sessionHandle = some pending →
      pending.sourceEvents = (s.waitingOf sessionHandle).length ∧
        pending.characters = ((s.waitingOf sessionHandle).map (·.characters)).sum ∧
        pending.characters ≤ s.options.maxCharactersPerSession ∧
        pending.runs.length ≤ s.options.maxReducerEventsPerSession) ∧
    (s.pendingCharacters ≤ s.options.maxCharactersTotal ∧
      s.pendingReducerEvents ≤ s.options.maxReducerEventsTotal) ∧
    (∀ sessionHandle later, ∀ n ∈ s.numbersOf sessionHandle,
      n ∉ (runCalls react depth options (ops ++ .discardSession sessionHandle :: later)).handed) ∧
    (s.disposed = false → ∀ later, ∀ n ∈ s.waitingNumbers,
      n ∉ (runCalls react depth options (ops ++ .dispose :: later)).handed) ∧
    ∀ later, ∀ n ∈ s.dropped, n ∉ (runCalls react depth options (ops ++ later)).handed := by
  intro s
  have hbalanced : s.Balanced := runCalls_balanced hreact depth options ops
  have hledger : s.Ledger := runCalls_ledger react depth options ops
  refine ⟨⟨hbalanced.sourceEvents, hbalanced.reducerEvents, hbalanced.characters⟩, ?_,
    ⟨hbalanced.total_characters, hbalanced.total_events⟩, ?_, ?_, ?_⟩
  · intro sessionHandle pending hget
    obtain ⟨hsource, hcharacters⟩ := hbalanced.counted sessionHandle
    rw [hget] at hsource hcharacters
    obtain ⟨hcap, hruns⟩ := hbalanced.session_caps sessionHandle pending hget
    exact ⟨hsource, hcharacters, hcap, hruns⟩
  · intro sessionHandle later n hn
    rw [runCalls_append, runFrom_cons]
    have hnext := (follows_discardSession (s := s) sessionHandle hledger).1
    exact (hnext.unhanded_of_dropped (hbalanced.mem_dropped_discardSession hn)).later later hnext
  · intro hdisposed later n hn
    rw [runCalls_append, runFrom_cons]
    have hnext := (follows_dispose (s := s) hledger).1
    exact (hnext.unhanded_of_dropped (mem_dropped_dispose hdisposed hn)).later later hnext
  · intro later n hn
    rw [runCalls_append]
    exact (hledger.unhanded_of_dropped hn).later later hledger

/-- Small caps for the evaluated runs. -/
def sampleSmallCaps : SchedulerOptions where
  publicationMode := .coalesced
  maxCharactersPerSession := 4
  maxCharactersTotal := 4
  maxReducerEventsPerSession := 2
  maxReducerEventsTotal := 2

/-- The handler makes one call from within an `enqueue`, at its first batch. -/
def sampleReaction (op : SchedulerOp) : ObservedScheduler.Reaction := fun running flushed =>
  (if running && flushed.length == 1 then [op] else [], false)

/-- A delta of a Session. -/
def sampleSessionDelta (sessionHandle text : String) : SchedulerOp :=
  .enqueue (js sessionHandle) 1 (js "m") (sampleUpdate text) false

/-- Deltas of two Sessions, of which the third does not fit into its Session. -/
def sampleBoundedOps : List SchedulerOp :=
  [sampleSessionDelta "a" "abc", sampleSessionDelta "b" "x", sampleSessionDelta "a" "de",
    sampleSessionDelta "b" "y"]

open ObservedScheduler in
/-- A handler that flushes another Session from within an `enqueue`: the event that is discarded
afterwards is not handed over. -/
theorem scheduler_bounds_sample :
    (runCalls (sampleReaction (.flushSession (js "b") none)) 2 sampleSmallCaps
        sampleBoundedOps).numbersOf (js "b") = [3] ∧
      (runCalls (sampleReaction (.flushSession (js "b") none)) 2 sampleSmallCaps
        sampleBoundedOps).pendingCharacters ≤ 4 ∧
      ∀ later, 3 ∉ (runCalls (sampleReaction (.flushSession (js "b") none)) 2 sampleSmallCaps
        (sampleBoundedOps ++ .discardSession (js "b") :: later)).handed := by
  have hreact : (sampleReaction (.flushSession (js "b") none)).Apart := by
    intro flushed op hop
    simp only [sampleReaction] at hop
    split at hop
    · obtain rfl : op = .flushSession (js "b") none := by simpa using hop
      rfl
    · cases hop
  have hnumbers : (runCalls (sampleReaction (.flushSession (js "b") none)) 2 sampleSmallCaps
      sampleBoundedOps).numbersOf (js "b") = [3] := by decide +kernel
  have hcap : (runCalls (sampleReaction (.flushSession (js "b") none)) 2 sampleSmallCaps
      sampleBoundedOps).options.maxCharactersTotal = 4 := by decide +kernel
  obtain ⟨-, -, ⟨hcharacters, -⟩, hdiscard, -⟩ := scheduler_bounds
    (sampleReaction (.flushSession (js "b") none)) 2 sampleSmallCaps sampleBoundedOps hreact
  refine ⟨hnumbers, hcap ▸ hcharacters, fun later => hdiscard (js "b") later 3 ?_⟩
  rw [hnumbers]
  exact List.mem_singleton.mpr rfl

/-- The second delta of a Session does not fit, and the handler adds another one. -/
def sampleNestedSame : ObservedScheduler :=
  ObservedScheduler.runCalls (sampleReaction (sampleSessionDelta "a" "z")) 2 sampleSmallCaps
    [sampleSessionDelta "a" "abc", sampleSessionDelta "a" "def"]

/-- The deltas of two Sessions do not fit together, and the handler adds one of a third. -/
def sampleNestedOther : ObservedScheduler :=
  ObservedScheduler.runCalls (sampleReaction (sampleSessionDelta "c" "xyz")) 2 sampleSmallCaps
    [sampleSessionDelta "a" "abc", sampleSessionDelta "b" "def"]

open ObservedScheduler in
/-- A handler that enqueues from within an `enqueue` makes the totals differ from the sums, and
makes a total exceed its cap. A handler that disposes from within an `enqueue` leaves an event
pending that is handed over after a later disposal. -/
theorem nested_enqueue_breaks_bounds :
    sampleNestedSame.pendingCharacters ≠
        (sampleNestedSame.pending.entries.map (·.2.characters)).sum ∧
      sampleNestedOther.options.maxCharactersTotal < sampleNestedOther.pendingCharacters ∧
      ∃ ops, 1 ∈ (runCalls (sampleReaction .dispose) 2 sampleSmallCaps ops).numbersOf (js "a") ∧
        1 ∈ (runCalls (sampleReaction .dispose) 2 sampleSmallCaps
          (ops ++ [.dispose, .flushSession (js "a") none])).handed := by
  refine ⟨by decide +kernel, by decide +kernel,
    [sampleSessionDelta "a" "abc", sampleSessionDelta "a" "def"], by decide +kernel,
    by decide +kernel⟩

end PiAgentWeb
