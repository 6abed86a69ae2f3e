import PiAgentWeb.UI.EventScheduler

/-!
# Transparency of the event scheduler

For a Session and a generation, the stream of a scheduler is what it has handed to `onFlush`
followed by what is pending. A flush moves pending runs to the end of the delivered events and
leaves every stream as it is; an admitted event extends its stream. Hence in every run without a
discard or a generation change of a Session with pending events, the delivered events coalesce a
prefix of the enqueued ones, and the pending events the rest.
-/

namespace PiAgentWeb

open Coalescing

/-- The merge of two compatible updates. -/
def mergeUpdate (first next : CoalescibleMessageUpdate) : Option CoalescibleMessageUpdate :=
  if first.type = next.type ∧ first.contentIndex = next.contentIndex then
    some { next with delta := first.delta ++ next.delta }
  else none

theorem mergeDelta_toEvent {J T : Type} (first next merged : CoalescibleMessageUpdate)
    (h : mergeUpdate first next = some merged) :
    mergeDelta (J := J) (T := T) first.toEvent next.toEvent = some merged.toEvent := by
  unfold mergeUpdate at h
  split at h
  · rename_i hsame
    cases h
    simp [mergeDelta, CoalescibleMessageUpdate.toEvent, hsame.1, hsame.2]
  · cases h

theorem pushRun_extends (runs : List PendingRun) (messageIdentity : JsString)
    (event : CoalescibleMessageUpdate) (characters : ℕ) :
    Extends mergeUpdate (runs.map (·.event))
      ((pushRun runs messageIdentity event characters).map (·.event)) event := by
  unfold pushRun
  dsimp only
  split
  · rename_i last hlast
    obtain ⟨rest, rfl⟩ := List.getLast?_eq_some_iff.mp hlast
    split
    · rename_i hmerge
      simp only [canMerge, Bool.and_eq_true, beq_iff_eq] at hmerge
      refine Or.inr ⟨rest.map (·.event), last.event, (mergeRun last event characters).event,
        by simp, ?_, by simp⟩
      simp [mergeUpdate, mergeRun, hmerge.1.2, hmerge.2]
    · exact Or.inl (by simp)
  · exact Or.inl (by simp)

namespace SessionEventScheduler

/-- The events handed to `onFlush` for a Session and a generation, concatenated. -/
def delivered (s : SessionEventScheduler) (sessionHandle : JsString) (generation : ℕ) :
    List CoalescibleMessageUpdate :=
  s.flushed.flatMap fun batch =>
    if batch.sessionHandle = sessionHandle ∧ batch.generation = generation then batch.events
    else []

/-- The pending events of a Session, if they are of the generation. -/
def PendingSession.eventsOf (pending : PendingSession) (generation : ℕ) :
    List CoalescibleMessageUpdate :=
  if pending.generation = generation then pending.runs.map (·.event) else []

/-- The pending events of a Session and a generation. -/
def pendingEvents (s : SessionEventScheduler) (sessionHandle : JsString) (generation : ℕ) :
    List CoalescibleMessageUpdate :=
  ((s.pending.get? sessionHandle).map fun pending =>
    PendingSession.eventsOf pending generation).getD []

/-- What the scheduler has delivered and still holds for a Session and a generation. -/
def stream (s : SessionEventScheduler) (sessionHandle : JsString) (generation : ℕ) :
    List CoalescibleMessageUpdate :=
  s.delivered sessionHandle generation ++ s.pendingEvents sessionHandle generation

/-- What no flush changes: the options, and whether the scheduler is disposed. -/
def mode (s : SessionEventScheduler) : SchedulerOptions × Bool := (s.options, s.disposed)

theorem delivered_emitBatch (s : SessionEventScheduler) (sessionHandle handle : JsString)
    (generation g : ℕ) (events : List CoalescibleMessageUpdate) (count : ℕ) :
    (s.emitBatch sessionHandle generation events count).delivered handle g =
      s.delivered handle g ++
        if sessionHandle = handle ∧ generation = g then events else [] := by
  unfold emitBatch
  split
  · rename_i hempty
    simp [List.isEmpty_iff.mp hempty]
  · simp [delivered]

@[simp] theorem pending_emitBatch (s : SessionEventScheduler) (sessionHandle : JsString)
    (generation : ℕ) (events : List CoalescibleMessageUpdate) (count : ℕ) :
    (s.emitBatch sessionHandle generation events count).pending = s.pending := by
  unfold emitBatch
  split <;> rfl

@[simp] theorem mode_emitBatch (s : SessionEventScheduler) (sessionHandle : JsString)
    (generation : ℕ) (events : List CoalescibleMessageUpdate) (count : ℕ) :
    (s.emitBatch sessionHandle generation events count).mode = s.mode := by
  unfold emitBatch
  split <;> rfl

theorem delivered_emitPending (s : SessionEventScheduler) (entry : JsString × PendingSession)
    (handle : JsString) (g : ℕ) :
    (s.emitPending entry).delivered handle g =
      s.delivered handle g ++
        if entry.1 = handle then PendingSession.eventsOf entry.2 g else [] := by
  rw [emitPending, delivered_emitBatch]
  by_cases hhandle : entry.1 = handle <;> by_cases hg : entry.2.generation = g <;>
    simp [PendingSession.eventsOf, hhandle, hg]

@[simp] theorem pending_emitPending (s : SessionEventScheduler)
    (entry : JsString × PendingSession) : (s.emitPending entry).pending = s.pending :=
  pending_emitBatch s _ _ _ _

@[simp] theorem mode_emitPending (s : SessionEventScheduler)
    (entry : JsString × PendingSession) : (s.emitPending entry).mode = s.mode :=
  mode_emitBatch s _ _ _ _

@[simp] theorem pending_removePending (s : SessionEventScheduler) (sessionHandle : JsString)
    (pending : PendingSession) :
    (s.removePending sessionHandle pending).pending = s.pending.erase sessionHandle := by
  unfold removePending
  dsimp only
  split <;> rfl

@[simp] theorem flushed_removePending (s : SessionEventScheduler) (sessionHandle : JsString)
    (pending : PendingSession) :
    (s.removePending sessionHandle pending).flushed = s.flushed := by
  unfold removePending
  dsimp only
  split <;> rfl

@[simp] theorem mode_removePending (s : SessionEventScheduler) (sessionHandle : JsString)
    (pending : PendingSession) :
    (s.removePending sessionHandle pending).mode = s.mode := by
  unfold removePending
  dsimp only
  split <;> rfl

/-- Nothing of another generation is pending for a Session. -/
def KeepsGeneration (s : SessionEventScheduler) (sessionHandle : JsString) (generation : ℕ) :
    Prop :=
  ∀ pending, s.pending.get? sessionHandle = some pending → pending.generation = generation

/-- A flush that drops nothing: the streams stay and the pending Sessions shrink. -/
structure FlushesTo (s next : SessionEventScheduler) : Prop where
  /-- Every stream is the same. -/
  stream : ∀ handle g, next.stream handle g = s.stream handle g
  /-- What is still pending was pending. -/
  pending : ∀ handle pending, next.pending.get? handle = some pending →
    s.pending.get? handle = some pending
  /-- The mode is the same. -/
  mode : next.mode = s.mode

theorem FlushesTo.refl (s : SessionEventScheduler) : s.FlushesTo s :=
  ⟨fun _ _ => rfl, fun _ _ h => h, rfl⟩

theorem FlushesTo.trans {s t u : SessionEventScheduler} (h : s.FlushesTo t)
    (h' : t.FlushesTo u) : s.FlushesTo u :=
  ⟨fun handle g => (h'.stream handle g).trans (h.stream handle g),
    fun handle pending hget => h.pending handle pending (h'.pending handle pending hget),
    h'.mode.trans h.mode⟩

theorem FlushesTo.of_eq {s next : SessionEventScheduler} (hpending : next.pending = s.pending)
    (hflushed : next.flushed = s.flushed) (hmode : next.mode = s.mode) :
    s.FlushesTo next where
  stream handle g := by simp only [SessionEventScheduler.stream, delivered, pendingEvents,
    hpending, hflushed]
  pending handle pending h := hpending ▸ h
  mode := hmode

variable {sessionHandle : JsString} {generation : ℕ}

theorem FlushesTo.keepsGeneration {s next : SessionEventScheduler} (h : s.FlushesTo next)
    (hs : s.KeepsGeneration sessionHandle generation) :
    next.KeepsGeneration sessionHandle generation :=
  fun pending hget => hs pending (h.pending sessionHandle pending hget)

/-- A flush of one Session that is not of another generation moves its runs to the end of its
delivered events. -/
theorem flushSession_flushesTo (s : SessionEventScheduler) (sessionHandle : JsString)
    (generation : Option ℕ) (h : ∀ g, generation = some g → s.KeepsGeneration sessionHandle g) :
    s.FlushesTo (s.flushSession sessionHandle generation) ∧
      (s.flushSession sessionHandle generation).pending.get? sessionHandle = none := by
  unfold flushSession
  split
  · rename_i hnone
    exact ⟨FlushesTo.refl s, hnone⟩
  · rename_i pending hsome
    have hkeep : (generation.any fun g => pending.generation != g) = false := by
      cases generation with
      | none => rfl
      | some g => simpa using h g rfl pending hsome
    rw [hkeep]
    simp only [Bool.false_eq_true, if_false]
    refine ⟨⟨fun handle g => ?_, fun handle other hget => ?_, ?_⟩, ?_⟩
    · have hdelivered : (s.removePending sessionHandle pending).delivered handle g =
          s.delivered handle g := by simp [delivered]
      simp only [SessionEventScheduler.stream, delivered_emitPending, hdelivered, pendingEvents,
        pending_emitPending, pending_removePending, InsertionMap.get?_erase]
      by_cases hhandle : handle = sessionHandle
      · simp [hhandle, hsome]
      · simp [hhandle, Ne.symm hhandle]
    · simp only [pending_emitPending, pending_removePending, InsertionMap.get?_erase] at hget
      split at hget
      · cases hget
      · exact hget
    · simp
    · simp

theorem delivered_foldl_emitPending (entries : List (JsString × PendingSession))
    (s : SessionEventScheduler) (handle : JsString) (g : ℕ) :
    (entries.foldl emitPending s).delivered handle g = s.delivered handle g ++
      entries.flatMap fun entry =>
        if entry.1 = handle then PendingSession.eventsOf entry.2 g else [] := by
  induction entries generalizing s with
  | nil => simp
  | cons entry rest ih =>
    rw [List.foldl_cons, ih, delivered_emitPending, List.flatMap_cons, List.append_assoc]

@[simp] theorem pending_foldl_emitPending (entries : List (JsString × PendingSession))
    (s : SessionEventScheduler) : (entries.foldl emitPending s).pending = s.pending := by
  induction entries generalizing s with
  | nil => rfl
  | cons entry rest ih => rw [List.foldl_cons, ih, pending_emitPending]

@[simp] theorem mode_foldl_emitPending (entries : List (JsString × PendingSession))
    (s : SessionEventScheduler) : (entries.foldl emitPending s).mode = s.mode := by
  induction entries generalizing s with
  | nil => rfl
  | cons entry rest ih => rw [List.foldl_cons, ih, mode_emitPending]

theorem flushAll_flushesTo (s : SessionEventScheduler) :
    s.FlushesTo s.flushAll ∧ ∀ handle, s.flushAll.pending.get? handle = none := by
  unfold flushAll
  split
  · rename_i hempty
    have hnone : ∀ handle, s.pending.get? handle = none := by
      intro handle
      simp [InsertionMap.get?, List.isEmpty_iff.mp hempty]
    exact ⟨FlushesTo.of_eq rfl rfl rfl, hnone⟩
  · refine ⟨⟨fun handle g => ?_, fun handle pending hget => ?_, ?_⟩, fun handle => ?_⟩
    · simp only [SessionEventScheduler.stream, delivered_foldl_emitPending, pendingEvents,
        pending_foldl_emitPending]
      rw [s.pending.flatMap_entries handle fun pending => PendingSession.eventsOf pending g]
      simp [delivered, cancelSchedule]
    · simp [cancelSchedule] at hget
    · exact mode_foldl_emitPending _ _
    · simp [cancelSchedule]

/-- The locals of `enqueue` agree with the scheduler they come from: nothing was dropped, and the
current Session is the pending one. -/
structure Admission.Agrees (a : Admission) (s : SessionEventScheduler) (sessionHandle : JsString) :
    Prop where
  flushes : s.FlushesTo a.scheduler
  current : a.current = a.scheduler.pending.get? sessionHandle

theorem countForcedFlush_flushesTo (s : SessionEventScheduler) :
    s.FlushesTo s.countForcedFlush := FlushesTo.of_eq rfl rfl rfl

variable {s : SessionEventScheduler}

theorem Admission.Agrees.forceSession {a : Admission} (h : a.Agrees s sessionHandle)
    (hkeep : s.KeepsGeneration sessionHandle generation) (mergeable : Bool) :
    Admission.Agrees
      { scheduler := a.scheduler.countForcedFlush.flushSession sessionHandle (some generation)
        current := none, mergeable := mergeable } s sessionHandle := by
  have hcounted := h.flushes.trans (countForcedFlush_flushesTo a.scheduler)
  obtain ⟨hflush, hnone⟩ := flushSession_flushesTo a.scheduler.countForcedFlush sessionHandle
    (some generation) (by rintro g ⟨⟩; exact hcounted.keepsGeneration hkeep)
  exact ⟨hcounted.trans hflush, hnone.symm⟩

theorem Admission.Agrees.forceAll {a : Admission}
    (h : a.Agrees s sessionHandle) (mergeable : Bool) :
    Admission.Agrees
      { scheduler := a.scheduler.countForcedFlush.flushAll, current := none,
        mergeable := mergeable } s sessionHandle := by
  obtain ⟨hflush, hnone⟩ := flushAll_flushesTo a.scheduler.countForcedFlush
  exact ⟨(h.flushes.trans (countForcedFlush_flushesTo _)).trans hflush, (hnone _).symm⟩

theorem applyCaps_agrees
    (hkeep : s.KeepsGeneration sessionHandle generation) (messageIdentity : JsString)
    (event : CoalescibleMessageUpdate) :
    (s.applyCaps sessionHandle generation messageIdentity event).Agrees s sessionHandle := by
  have hsession : ∀ a : Admission, a.Agrees s sessionHandle →
      (capSessionCharacters sessionHandle generation event.delta.length a).Agrees s
        sessionHandle := by
    intro a ha
    unfold capSessionCharacters
    split
    · exact ha.forceSession hkeep false
    · exact ha
  have htotal : ∀ a : Admission, a.Agrees s sessionHandle →
      (capTotalCharacters event.delta.length a).Agrees s sessionHandle := by
    intro a ha
    unfold capTotalCharacters
    split
    · exact ha.forceAll false
    · exact ha
  have hsessionEvents : ∀ a : Admission, a.Agrees s sessionHandle →
      (capSessionEvents sessionHandle generation a).Agrees s sessionHandle := by
    intro a ha
    unfold capSessionEvents
    split
    · exact ha.forceSession hkeep a.mergeable
    · exact ha
  have htotalEvents : ∀ a : Admission, a.Agrees s sessionHandle →
      (capTotalEvents a).Agrees s sessionHandle := by
    intro a ha
    unfold capTotalEvents
    split
    · exact ha.forceAll a.mergeable
    · exact ha
  exact htotalEvents _ (hsessionEvents _ (htotal _ (hsession _ ⟨FlushesTo.refl s, rfl⟩)))

theorem schedule_frame (s : SessionEventScheduler) (hidden : Bool) :
    (s.schedule hidden).pending = s.pending ∧ (s.schedule hidden).flushed = s.flushed ∧
      (s.schedule hidden).mode = s.mode := by
  unfold schedule
  split
  · exact ⟨rfl, rfl, rfl⟩
  · split <;> exact ⟨rfl, rfl, rfl⟩

theorem Admission.Agrees.enqueuePending {a : Admission} (h : a.Agrees s sessionHandle)
    (hkeep : s.KeepsGeneration sessionHandle generation) (messageIdentity : JsString)
    (event : CoalescibleMessageUpdate) (hidden : Bool) (handle : JsString) (g : ℕ) :
    let next := a.enqueuePending sessionHandle generation messageIdentity event hidden
    if handle = sessionHandle ∧ g = generation then
      Extends mergeUpdate (s.stream handle g) (next.stream handle g) event
    else next.stream handle g = s.stream handle g := by
  intro next
  set pending := a.current.getD
    { generation := generation, runs := [], sourceEvents := 0, characters := 0 } with hpending
  have hgeneration : pending.generation = generation := by
    cases hcurrent : a.current with
    | none => simp [hpending, hcurrent]
    | some current =>
      have hget := h.current.symm.trans hcurrent
      simpa [hpending, hcurrent] using h.flushes.keepsGeneration hkeep current hget
  have hbefore : a.scheduler.pendingEvents sessionHandle generation =
      pending.runs.map (·.event) := by
    rw [pendingEvents, ← h.current, hpending]
    cases hcurrent : a.current with
    | none => simp
    | some current =>
      have hg : current.generation = generation := by
        simpa [hpending, hcurrent] using hgeneration
      simp [PendingSession.eventsOf, hg]
  have hnextPending : next.pending = a.scheduler.pending.insert sessionHandle
      { pending with
        runs := pushRun pending.runs messageIdentity event event.delta.length
        sourceEvents := pending.sourceEvents + 1
        characters := pending.characters + event.delta.length } :=
    (schedule_frame _ hidden).1
  have hnextFlushed : next.flushed = a.scheduler.flushed :=
    (schedule_frame _ hidden).2.1
  have hdelivered : next.delivered handle g = a.scheduler.delivered handle g := by
    simp [delivered, hnextFlushed]
  rw [← h.flushes.stream handle g]
  split
  · rename_i hsame
    obtain ⟨rfl, rfl⟩ := hsame
    have hafter : next.pendingEvents handle g =
        (pushRun pending.runs messageIdentity event event.delta.length).map (·.event) := by
      simp [pendingEvents, hnextPending, PendingSession.eventsOf, hgeneration]
    rw [SessionEventScheduler.stream, SessionEventScheduler.stream, hdelivered, hafter, hbefore]
    exact (pushRun_extends _ _ _ _).prepend _
  · rename_i hother
    rw [SessionEventScheduler.stream, SessionEventScheduler.stream, hdelivered, pendingEvents,
      pendingEvents, hnextPending, InsertionMap.get?_insert]
    split
    · rename_i hhandle
      subst hhandle
      have hg : generation ≠ g := fun heq => hother ⟨rfl, heq.symm⟩
      have hnone : a.scheduler.pendingEvents handle g = [] := by
        unfold pendingEvents
        cases hget : a.scheduler.pending.get? handle with
        | none => rfl
        | some other =>
          have := h.flushes.keepsGeneration hkeep other hget
          simp [PendingSession.eventsOf, this, hg]
      rw [pendingEvents] at hnone
      rw [hnone]
      simp [PendingSession.eventsOf, hgeneration, hg]
    · rfl

/-- The facts about a scheduler that no operation of a steady run breaks. -/
structure Live (s : SessionEventScheduler) : Prop where
  notDisposed : s.disposed = false
  /-- The sequential mode holds nothing back. -/
  sequential : s.options.publicationMode = .sequential → ∀ handle, s.pending.get? handle = none

theorem dropStale_eq_self (hkeep : s.KeepsGeneration sessionHandle generation) :
    s.dropStale sessionHandle generation = s := by
  unfold dropStale
  split
  · rename_i stale hget
    rw [if_neg (not_not.mpr (hkeep stale hget))]
  · rfl

theorem enqueue_stream (hs : s.Live) (hkeep : s.KeepsGeneration sessionHandle generation)
    (messageIdentity : JsString) (event : CoalescibleMessageUpdate) (hidden : Bool)
    (handle : JsString) (g : ℕ) :
    let next := (s.enqueue sessionHandle generation messageIdentity event hidden).1
    if handle = sessionHandle ∧ g = generation then
      Extends mergeUpdate (s.stream handle g) (next.stream handle g) event
    else next.stream handle g = s.stream handle g := by
  intro next
  have hcounted : s.FlushesTo s.countSourceEvent := FlushesTo.of_eq rfl rfl rfl
  have hkeepCounted := hcounted.keepsGeneration hkeep
  have hemit : ∀ t : SessionEventScheduler, s.FlushesTo t →
      t.pending.get? sessionHandle = none →
      if handle = sessionHandle ∧ g = generation then
        Extends mergeUpdate (s.stream handle g)
          ((t.emitBatch sessionHandle generation [event] 1).stream handle g) event
      else (t.emitBatch sessionHandle generation [event] 1).stream handle g =
        s.stream handle g := by
    intro t ht hnone
    rw [← ht.stream handle g]
    simp only [SessionEventScheduler.stream, delivered_emitBatch, pendingEvents,
      pending_emitBatch]
    split
    · rename_i hsame
      simp [hsame.1, hsame.2, hnone, Extends]
    · rename_i hother
      have hne : ¬(sessionHandle = handle ∧ generation = g) :=
        fun h => hother ⟨h.1.symm, h.2.symm⟩
      simp [hne]
  have hnext : next = (s.enqueue sessionHandle generation messageIdentity event hidden).1 := rfl
  simp only [enqueue, hs.notDisposed, Bool.false_eq_true, if_false,
    dropStale_eq_self hkeepCounted] at hnext
  split at hnext
  · rename_i hsequential
    rw [hnext]
    exact hemit _ hcounted (hs.sequential hsequential sessionHandle)
  split at hnext
  · obtain ⟨hflush, hnone⟩ := flushSession_flushesTo s.countSourceEvent sessionHandle
      (some generation) (by rintro g ⟨⟩; exact hkeepCounted)
    rw [hnext]
    exact hemit _ ((hcounted.trans hflush).trans (countForcedFlush_flushesTo _)) hnone
  · rw [hnext]
    have h := (applyCaps_agrees hkeepCounted messageIdentity event).enqueuePending hkeepCounted
      messageIdentity event hidden handle g
    simpa only [hcounted.stream handle g] using h

end SessionEventScheduler

/-- An operation on a scheduler. -/
inductive SchedulerOp where
  | enqueue (sessionHandle : JsString) (generation : ℕ) (messageIdentity : JsString)
      (event : CoalescibleMessageUpdate) (hidden : Bool)
  | flushSession (sessionHandle : JsString) (generation : Option ℕ)
  | flushAll
  | frameFired
  | timerFired
  | visibilityChange (hidden : Bool)
  | discardSession (sessionHandle : JsString)
  | dispose

/-- One operation. -/
def SessionEventScheduler.step (s : SessionEventScheduler) : SchedulerOp → SessionEventScheduler
  | .enqueue sessionHandle generation messageIdentity event hidden =>
    (s.enqueue sessionHandle generation messageIdentity event hidden).1
  | .flushSession sessionHandle generation => s.flushSession sessionHandle generation
  | .flushAll => s.flushAll
  | .frameFired => s.frameFired
  | .timerFired => s.timerFired
  | .visibilityChange hidden => s.handleVisibilityChange hidden
  | .discardSession sessionHandle => s.discardSession sessionHandle
  | .dispose => s.dispose

/-- The operation neither discards nor changes the generation of a Session with pending
events. -/
def SchedulerOp.Steady (s : SessionEventScheduler) : SchedulerOp → Prop
  | .enqueue sessionHandle generation _ _ _ => s.KeepsGeneration sessionHandle generation
  | .flushSession sessionHandle generation =>
    ∀ g, generation = some g → s.KeepsGeneration sessionHandle g
  | .discardSession _ | .dispose => False
  | _ => True

instance (s : SessionEventScheduler) (sessionHandle : JsString) (generation : ℕ) :
    Decidable (s.KeepsGeneration sessionHandle generation) :=
  decidable_of_iff ((s.pending.get? sessionHandle).all fun pending =>
      pending.generation == generation) (by
    unfold SessionEventScheduler.KeepsGeneration
    cases s.pending.get? sessionHandle <;> simp)

instance (s : SessionEventScheduler) : (op : SchedulerOp) → Decidable (op.Steady s)
  | .enqueue sessionHandle generation _ _ _ =>
    inferInstanceAs (Decidable (s.KeepsGeneration sessionHandle generation))
  | .flushSession sessionHandle none => .isTrue fun _ h => by cases h
  | .flushSession sessionHandle (some generation) =>
    decidable_of_iff (s.KeepsGeneration sessionHandle generation)
      ⟨fun h _ heq => Option.some.inj heq ▸ h, fun h => h generation rfl⟩
  | .discardSession _ | .dispose => .isFalse id
  | .flushAll | .frameFired | .timerFired | .visibilityChange _ => .isTrue trivial

/-- Every operation of a run is steady where it happens. -/
def SteadyRun : SessionEventScheduler → List SchedulerOp → Prop
  | _, [] => True
  | s, op :: rest => op.Steady s ∧ SteadyRun (s.step op) rest

instance : (s : SessionEventScheduler) → (ops : List SchedulerOp) → Decidable (SteadyRun s ops)
  | _, [] => .isTrue trivial
  | s, op :: rest =>
    have := instDecidableSteadyRun (s.step op) rest
    inferInstanceAs (Decidable (op.Steady s ∧ SteadyRun (s.step op) rest))

/-- The updates a run enqueues for a Session and a generation, in order. -/
def enqueuedUpdates (ops : List SchedulerOp) (sessionHandle : JsString) (generation : ℕ) :
    List CoalescibleMessageUpdate :=
  ops.filterMap fun
    | .enqueue handle g _ event _ =>
      if sessionHandle = handle ∧ generation = g then some event else none
    | _ => none

namespace SessionEventScheduler

theorem FlushesTo.live {s next : SessionEventScheduler} (h : s.FlushesTo next) (hs : s.Live) :
    next.Live where
  notDisposed := (congrArg Prod.snd h.mode).trans hs.notDisposed
  sequential hmode handle := by
    have hoptions : next.options = s.options := congrArg Prod.fst h.mode
    rw [hoptions] at hmode
    cases hget : next.pending.get? handle with
    | none => rfl
    | some pending =>
      have hbefore := h.pending handle pending hget
      rw [hs.sequential hmode handle] at hbefore
      cases hbefore

theorem enqueue_live {s : SessionEventScheduler} (hs : s.Live) {sessionHandle : JsString}
    {generation : ℕ} (hkeep : s.KeepsGeneration sessionHandle generation)
    (messageIdentity : JsString) (event : CoalescibleMessageUpdate) (hidden : Bool) :
    (s.enqueue sessionHandle generation messageIdentity event hidden).1.Live := by
  have hcounted : s.FlushesTo s.countSourceEvent := FlushesTo.of_eq rfl rfl rfl
  have hkeepCounted := hcounted.keepsGeneration hkeep
  have hemit : ∀ t : SessionEventScheduler, t.Live →
      (t.emitBatch sessionHandle generation [event] 1).Live := fun t ht =>
    have hmode := Prod.mk.inj (mode_emitBatch t sessionHandle generation [event] 1)
    ⟨hmode.2.trans ht.notDisposed, fun hsequential => by
      rw [pending_emitBatch]
      exact ht.sequential (hmode.1 ▸ hsequential)⟩
  simp only [enqueue, hs.notDisposed, Bool.false_eq_true, if_false,
    dropStale_eq_self hkeepCounted]
  split
  · exact hemit _ (hcounted.live hs)
  split
  · obtain ⟨hflush, -⟩ := flushSession_flushesTo s.countSourceEvent sessionHandle
      (some generation) (by rintro g ⟨⟩; exact hkeepCounted)
    exact hemit _ (((hcounted.trans hflush).trans (countForcedFlush_flushesTo _)).live hs)
  · rename_i hmode _
    have hagrees := (applyCaps_agrees hkeepCounted messageIdentity event).flushes
    have hsame : ((s.countSourceEvent.applyCaps sessionHandle generation messageIdentity
        event).enqueuePending sessionHandle generation messageIdentity event hidden).mode =
          s.mode := by
      refine Eq.trans ?_ (hcounted.trans hagrees).mode
      exact (schedule_frame _ hidden).2.2
    exact ⟨(congrArg Prod.snd hsame).trans hs.notDisposed, fun hsequential => absurd
      ((congrArg (fun m => m.1.publicationMode) hsame).symm.trans hsequential) hmode⟩

theorem handleVisibilityChange_flushesTo (s : SessionEventScheduler) (hidden : Bool) :
    s.FlushesTo (s.handleVisibilityChange hidden) := by
  unfold handleVisibilityChange
  split
  · exact FlushesTo.refl s
  · obtain ⟨hpending, hflushed, hmode⟩ := schedule_frame s.cancelSchedule hidden
    exact FlushesTo.of_eq hpending hflushed hmode

theorem flushesTo_of_steady {s : SessionEventScheduler} {op : SchedulerOp} (h : op.Steady s)
    (hop : ∀ sessionHandle generation messageIdentity event hidden,
      op ≠ .enqueue sessionHandle generation messageIdentity event hidden) :
    s.FlushesTo (s.step op) := by
  cases op with
  | enqueue sessionHandle generation messageIdentity event hidden =>
    exact absurd rfl (hop _ _ _ _ _)
  | flushSession sessionHandle generation =>
    exact (flushSession_flushesTo s sessionHandle generation h).1
  | flushAll => exact (flushAll_flushesTo s).1
  | frameFired =>
    simp only [step, frameFired]
    split
    · exact (FlushesTo.of_eq rfl rfl rfl).trans (flushAll_flushesTo _).1
    · exact FlushesTo.refl s
  | timerFired =>
    simp only [step, timerFired]
    split
    · exact (FlushesTo.of_eq rfl rfl rfl).trans (flushAll_flushesTo _).1
    · exact FlushesTo.refl s
  | visibilityChange hidden => exact handleVisibilityChange_flushesTo s hidden
  | discardSession sessionHandle => exact h.elim
  | dispose => exact h.elim

theorem stream_coalesces {s : SessionEventScheduler} (hs : s.Live) {ops : List SchedulerOp}
    (h : SteadyRun s ops) (handle : JsString) (g : ℕ) {done : List CoalescibleMessageUpdate}
    (hdone : Coalesces mergeUpdate done (s.stream handle g)) :
    Coalesces mergeUpdate (done ++ enqueuedUpdates ops handle g)
      ((ops.foldl step s).stream handle g) := by
  induction ops generalizing s done with
  | nil => simpa [enqueuedUpdates] using hdone
  | cons op rest ih =>
    obtain ⟨hop, hrest⟩ := h
    by_cases henqueue : ∃ sessionHandle generation messageIdentity event hidden,
        op = .enqueue sessionHandle generation messageIdentity event hidden
    · obtain ⟨sessionHandle, generation, messageIdentity, event, hidden, rfl⟩ := henqueue
      have hlive := enqueue_live hs hop messageIdentity event hidden
      have hstream := enqueue_stream hs hop messageIdentity event hidden handle g
      simp only at hstream
      split at hstream
      · rename_i hsame
        have hnext := ih hlive hrest (hdone.extend hstream)
        simpa [enqueuedUpdates, step, hsame] using hnext
      · rename_i hother
        have hnext := ih hlive hrest (hstream.symm ▸ hdone)
        simpa [enqueuedUpdates, step, hother] using hnext
    · have hflush := flushesTo_of_steady hop fun sessionHandle generation messageIdentity event
        hidden heq => henqueue ⟨_, _, _, _, _, heq⟩
      have hnext := ih (hflush.live hs) hrest ((hflush.stream handle g).symm ▸ hdone)
      have hnone : enqueuedUpdates (op :: rest) handle g = enqueuedUpdates rest handle g := by
        cases op <;> first | rfl | exact absurd ⟨_, _, _, _, _, rfl⟩ henqueue
      rw [hnone]
      exact hnext

end SessionEventScheduler

/-- **Event scheduling is transparent.** In a run without discards and without generation
changes of Sessions that have pending events, for each Session and generation: the enqueued
events are those behind the delivered ones followed by those behind the pending ones; the
delivered and the pending events are their merges, block by block and in order; and the delivered
events fold through the reducer to the projection of the events behind them. Once nothing is
pending, these are all the enqueued events. -/
theorem scheduler_transparent {J T : Type} (options : SchedulerOptions) (ops : List SchedulerOp)
    (hsteady : SteadyRun (SessionEventScheduler.create options) ops)
    (sessionHandle : JsString) (generation : ℕ) :
    let s := ops.foldl SessionEventScheduler.step (SessionEventScheduler.create options)
    let events : List CoalescibleMessageUpdate → List (SessionEvent J T) :=
      List.map CoalescibleMessageUpdate.toEvent
    ∃ done waiting, enqueuedUpdates ops sessionHandle generation = done ++ waiting ∧
      Coalesces mergeDelta (events done) (events (s.delivered sessionHandle generation)) ∧
      Coalesces mergeDelta (events waiting) (events (s.pendingEvents sessionHandle generation)) ∧
      (s.pendingEvents sessionHandle generation = [] →
        done = enqueuedUpdates ops sessionHandle generation) ∧
      ∀ (ctx : ReducerContext J T) (state : ConversationProjection),
        (events (s.delivered sessionHandle generation)).foldl (reduceProjection ctx) state =
          (events done).foldl (reduceProjection ctx) state := by
  intro s events
  have hlive : (SessionEventScheduler.create options).Live := ⟨rfl, fun _ _ => rfl⟩
  have hcoalesces := SessionEventScheduler.stream_coalesces hlive hsteady sessionHandle
    generation Coalesces.nil
  rw [List.nil_append] at hcoalesces
  obtain ⟨done, waiting, hsplit, hdone, hwaiting⟩ := hcoalesces.split
  have hdoneEvents : Coalesces mergeDelta (events done)
      (events (s.delivered sessionHandle generation)) := hdone.map _ mergeDelta_toEvent
  refine ⟨done, waiting, hsplit, hdoneEvents, hwaiting.map _ mergeDelta_toEvent, ?_, ?_⟩
  · intro hnone
    have hwaitingNil : waiting = [] := by
      change Coalesces mergeUpdate waiting (s.pendingEvents sessionHandle generation) at hwaiting
      rw [hnone] at hwaiting
      exact hwaiting.inputs_eq_nil
    rw [hsplit, hwaitingNil, List.append_nil]
  · intro ctx state
    exact (hdoneEvents.foldl_eq (reduceProjection_mergeDelta ctx) state).symm

/-- A text delta of the evaluated run. -/
def sampleUpdate (text : String) : CoalescibleMessageUpdate where
  usage :=
    { input := 1, output := 2, cacheRead := 0, cacheWrite := 0, totalTokens := 3, costTotal := 0 }
  type := .textDelta
  contentIndex := 0
  delta := js text

/-- The evaluated run: two Sessions share a frame, and a third delta waits for the next one. -/
def sampleSchedulerOps : List SchedulerOp :=
  [.enqueue (js "a") 1 (js "m") (sampleUpdate "He") false,
    .enqueue (js "b") 3 (js "m") (sampleUpdate "x") false,
    .enqueue (js "a") 1 (js "m") (sampleUpdate "llo") false,
    .frameFired,
    .enqueue (js "a") 1 (js "m") (sampleUpdate "!") false]

/-- After the frame, the first Session has received one merged delta and one more is pending. -/
theorem scheduler_transparent_two_sessions :
    let s := sampleSchedulerOps.foldl SessionEventScheduler.step
      (SessionEventScheduler.create .default)
    let events : List CoalescibleMessageUpdate → List PiSessionEvent :=
      List.map CoalescibleMessageUpdate.toEvent
    SteadyRun (SessionEventScheduler.create .default) sampleSchedulerOps ∧
      s.delivered (js "a") 1 = [sampleUpdate "Hello"] ∧
      s.pendingEvents (js "a") 1 = [sampleUpdate "!"] ∧
      ∃ done waiting, enqueuedUpdates sampleSchedulerOps (js "a") 1 = done ++ waiting ∧
        Coalesces mergeDelta (events done) (events (s.delivered (js "a") 1)) ∧
        Coalesces mergeDelta (events waiting) (events (s.pendingEvents (js "a") 1)) ∧
        (s.pendingEvents (js "a") 1 = [] →
          done = enqueuedUpdates sampleSchedulerOps (js "a") 1) ∧
        ∀ (ctx : ReducerContext Json Json) (state : ConversationProjection),
          (events (s.delivered (js "a") 1)).foldl (reduceProjection ctx) state =
            (events done).foldl (reduceProjection ctx) state :=
  ⟨by decide +kernel, by decide +kernel, by decide +kernel,
    scheduler_transparent .default sampleSchedulerOps (by decide +kernel) (js "a") 1⟩

end PiAgentWeb
