import PiAgentWeb.Library.Since
import PiAgentWeb.UI.RecoveryMachine
import Mathlib.Algebra.Order.BigOperators.Group.List
import Mathlib.Algebra.Order.Ring.Nat

/-!
# Runs of the recovery machine

The recovery queue and the set of queued Sessions always have the same members, in one order. A
buffer is sorted whatever is put into it; it has no duplicates and stays within the caps as long
as a buffer is only ever replaced by a part of itself, which is what the page does. The revision of
the inventory grows until the inventory is reset.
-/

namespace PiAgentWeb

variable {D : Type}

/-! ## Sorted buffers -/

theorem sortBySeq_perm (frames : List RecoveryReplayFrame) : (sortBySeq frames).Perm frames :=
  List.perm_insertionSort seqLe frames

theorem sortBySeq_sorted (frames : List RecoveryReplayFrame) :
    (sortBySeq frames).Pairwise seqLe :=
  List.pairwise_insertionSort seqLe frames

variable {frames frames' : List RecoveryReplayFrame}

theorem bufferBytes_perm (h : frames.Perm frames') :
    bufferBytes frames = bufferBytes frames' :=
  (h.map _).sum_eq

theorem bufferBytes_le_of_subperm
    (h : frames.Subperm frames') : bufferBytes frames ≤ bufferBytes frames' := by
  obtain ⟨part, hperm, hpart⟩ := h
  rw [← bufferBytes_perm hperm]
  exact (hpart.map _).sum_le_sum fun _ _ => zero_le

@[simp] theorem bufferBytes_nil : bufferBytes [] = 0 := rfl

theorem bufferBytes_concat (frames : List RecoveryReplayFrame) (frame : RecoveryReplayFrame) :
    bufferBytes (frames ++ [frame]) = bufferBytes frames + frame.message.serializedBytes := by
  simp [bufferBytes]

/-- Two frames of one buffer are not duplicates of each other. -/
def Distinct (frames : List RecoveryReplayFrame) : Prop :=
  frames.Pairwise fun frame candidate => ¬ frame.duplicates candidate

theorem RecoveryReplayFrame.duplicates_symm {frame candidate : RecoveryReplayFrame}
    (h : ¬ frame.duplicates candidate) : ¬ candidate.duplicates frame :=
  fun h' => h ⟨h'.1.symm, h'.2.symm⟩

theorem Distinct.perm (h : Distinct frames) (hperm : frames.Perm frames') : Distinct frames' :=
  List.Pairwise.perm h hperm RecoveryReplayFrame.duplicates_symm

theorem Distinct.subperm (h : Distinct frames')
    (hsub : frames.Subperm frames') : Distinct frames := by
  obtain ⟨part, hperm, hpart⟩ := hsub
  exact Distinct.perm (h.sublist hpart) hperm

theorem Distinct.increasing {frames : List RecoveryReplayFrame} (h : Distinct frames)
    (hsorted : frames.Pairwise seqLe) (generation : ℕ) :
    ((frames.filter (·.message.identity.generation = generation)).map
      (·.message.seq)).Pairwise (· < ·) := by
  have hboth := (hsorted.and h).sublist
    (List.filter_sublist (p := fun frame : RecoveryReplayFrame =>
      frame.message.identity.generation = generation))
  rw [List.pairwise_map]
  refine hboth.imp_of_mem fun {left right} hleft hright hpair => ?_
  have hgeneration : right.message.identity.generation = left.message.identity.generation := by
    simp_all
  exact lt_of_le_of_ne hpair.1 fun heq => hpair.2 ⟨hgeneration, heq.symm⟩

namespace RecoveryRun

open SessionRecoveryMachineState

/-- One event, as the machine takes it. -/
def step (state : SessionRecoveryMachineState D) (event : SessionRecoveryMachineEvent D) :
    SessionRecoveryMachineState D :=
  (reduceSessionRecoveryMachine state event).state

/-! ## What an event does -/

theorem bufferReplay_cases (s : SessionRecoveryMachineState D) (key : JsString)
    (frame : RecoveryReplayFrame) (maxFrames maxBytes : ℕ) :
    step s (.bufferReplay key frame maxFrames maxBytes) = s ∨
      (∀ other ∈ s.buffer key, ¬ frame.duplicates other) ∧
        (s.buffer key).length < maxFrames ∧
        (s.resyncBufferBytes.get? key).getD 0 + frame.message.serializedBytes ≤
          (maxBytes : WithTop ℕ) ∧
        step s (.bufferReplay key frame maxFrames maxBytes) =
          { s with
            resyncBuffers := s.resyncBuffers.insert key (sortBySeq (s.buffer key ++ [frame]))
            resyncBufferBytes := s.resyncBufferBytes.insert key
              ((s.resyncBufferBytes.get? key).getD 0 + frame.message.serializedBytes) } := by
  simp only [step, reduceSessionRecoveryMachine, bufferReplay]
  split
  · exact .inl rfl
  · next hfresh =>
    split
    · exact .inl rfl
    · next hfits =>
      rw [not_or, not_le, not_lt] at hfits
      exact .inr ⟨by simpa using hfresh, hfits.1, hfits.2, rfl⟩

theorem replaceReplayBuffer_cases (s : SessionRecoveryMachineState D) (key : JsString)
    (frames : List RecoveryReplayFrame) :
    step s (.replaceReplayBuffer key frames) =
        { s with
          resyncBuffers := s.resyncBuffers.erase key
          resyncBufferBytes := s.resyncBufferBytes.erase key } ∨
      step s (.replaceReplayBuffer key frames) =
        { s with
          resyncBuffers := s.resyncBuffers.insert key (sortBySeq frames)
          resyncBufferBytes :=
            s.resyncBufferBytes.insert key (bufferBytes (sortBySeq frames)) } := by
  simp only [step, reduceSessionRecoveryMachine, replaceReplayBuffer]
  split
  · exact .inl rfl
  · exact .inr rfl

theorem setHotInventory_cases (s : SessionRecoveryMachineState D) (revision : ℤ)
    (runtimes : List (HotRuntimeInventoryEntry D)) :
    step s (.setHotInventory revision runtimes) = s ∨
      s.hotRuntimeRevision < revision ∧ ∃ handles, step s (.setHotInventory revision runtimes) =
        { s with hotRuntimeRevision := revision, hotRuntimeByHandle := handles } := by
  simp only [step, reduceSessionRecoveryMachine]
  split
  · exact .inl rfl
  · next hnewer => exact .inr ⟨not_le.mp hnewer, _, rfl⟩

theorem queueExactHot_cases (s : SessionRecoveryMachineState D) (sessionHandle : SessionHandle) :
    sessionHandle ∈ s.queuedExactHotRecoveries ∧ step s (.queueExactHot sessionHandle) = s ∨
      sessionHandle ∉ s.queuedExactHotRecoveries ∧ step s (.queueExactHot sessionHandle) =
        { s with
          queuedExactHotRecoveries := s.queuedExactHotRecoveries ++ [sessionHandle]
          exactHotRecoveryQueue := s.exactHotRecoveryQueue ++ [sessionHandle] } := by
  simp only [step, reduceSessionRecoveryMachine, addToSet]
  split
  · next hqueued => exact .inl ⟨hqueued, rfl⟩
  · next hfresh => exact .inr ⟨hfresh, rfl⟩

theorem advanceExactHot_cases (s : SessionRecoveryMachineState D)
    (identity : SessionRuntimeIdentity) (kind : ExactHotKind) :
    ∃ active, step s (.advanceExactHot identity kind) =
      { s with activeExactHotRecovery := active } := by
  simp only [step, reduceSessionRecoveryMachine, advanceExactHot]
  repeat' split
  all_goals exact ⟨_, rfl⟩

/-! ## The queue -/

/-- The event queues the Session. -/
def queues (sessionHandle : SessionHandle) : SessionRecoveryMachineEvent D → Prop
  | .queueExactHot handle => handle = sessionHandle
  | _ => False

/-- The event takes the Session out of the queue. -/
def withdraws (sessionHandle : SessionHandle) : SessionRecoveryMachineEvent D → Prop
  | .clearSession handle | .dequeueExactHot handle | .cancelExactHot handle =>
    handle = sessionHandle
  | .rekey previous handle => previous = sessionHandle ∨ handle = sessionHandle
  | .resetConnection | .reset => True
  | _ => False

/-- The queue has no Session twice, and its members are those of the set. -/
def QueueSound (queue queued : List SessionHandle) : Prop := queue.Nodup ∧ queued = queue

theorem QueueSound.remove {queue queued : List SessionHandle} (h : QueueSound queue queued)
    (sessionHandle : SessionHandle) :
    QueueSound (removeSessionHandle queue sessionHandle)
      (removeSessionHandle queued sessionHandle) :=
  ⟨h.1.filter _, by rw [h.2]⟩

theorem step_queueSound (s : SessionRecoveryMachineState D) (event : SessionRecoveryMachineEvent D)
    (h : QueueSound s.exactHotRecoveryQueue s.queuedExactHotRecoveries) :
    QueueSound (step s event).exactHotRecoveryQueue (step s event).queuedExactHotRecoveries := by
  cases event with
  | bufferReplay key frame maxFrames maxBytes =>
    obtain hstep | ⟨-, -, -, hstep⟩ := bufferReplay_cases s key frame maxFrames maxBytes
    all_goals rw [hstep]; exact h
  | replaceReplayBuffer key frames =>
    obtain hstep | hstep := replaceReplayBuffer_cases s key frames
    all_goals rw [hstep]; exact h
  | setHotInventory revision runtimes =>
    obtain hstep | ⟨-, _, hstep⟩ := setHotInventory_cases s revision runtimes
    all_goals rw [hstep]; exact h
  | queueExactHot sessionHandle =>
    obtain ⟨-, hstep⟩ | ⟨hfresh, hstep⟩ := queueExactHot_cases s sessionHandle
    · rw [hstep]; exact h
    · have hqueue : sessionHandle ∉ s.exactHotRecoveryQueue := h.2 ▸ hfresh
      rw [hstep]
      refine ⟨List.nodup_append.mpr ⟨h.1, List.nodup_singleton _, ?_⟩, by rw [h.2]⟩
      rintro _ hmem _ hlast rfl
      exact hqueue (List.mem_singleton.mp hlast ▸ hmem)
  | advanceExactHot identity kind =>
    obtain ⟨_, hstep⟩ := advanceExactHot_cases s identity kind
    rw [hstep]; exact h
  | clearSession sessionHandle => exact h.remove sessionHandle
  | dequeueExactHot sessionHandle => exact h.remove sessionHandle
  | cancelExactHot sessionHandle => exact h.remove sessionHandle
  | rekey previous sessionHandle => exact (h.remove previous).remove sessionHandle
  | resetConnection => exact ⟨List.nodup_nil, rfl⟩
  | reset => exact ⟨List.nodup_nil, rfl⟩
  | _ => exact h

theorem mem_removeSessionHandle {handles : List SessionHandle} {handle removed : SessionHandle} :
    handle ∈ removeSessionHandle handles removed ↔ handle ∈ handles ∧ ¬ removed = handle := by
  simp only [removeSessionHandle, List.mem_filter, decide_eq_true_eq]
  exact and_congr_right fun _ => not_congr eq_comm

theorem mem_queue_step (sessionHandle : SessionHandle) (s : SessionRecoveryMachineState D)
    (event : SessionRecoveryMachineEvent D)
    (h : QueueSound s.exactHotRecoveryQueue s.queuedExactHotRecoveries) :
    sessionHandle ∈ (step s event).exactHotRecoveryQueue ↔
      queues sessionHandle event ∨
        sessionHandle ∈ s.exactHotRecoveryQueue ∧ ¬ withdraws sessionHandle event := by
  cases event with
  | bufferReplay key frame maxFrames maxBytes =>
    obtain hstep | ⟨-, -, -, hstep⟩ := bufferReplay_cases s key frame maxFrames maxBytes
    all_goals simp [hstep, queues, withdraws]
  | replaceReplayBuffer key frames =>
    obtain hstep | hstep := replaceReplayBuffer_cases s key frames
    all_goals simp [hstep, queues, withdraws]
  | setHotInventory revision runtimes =>
    obtain hstep | ⟨-, _, hstep⟩ := setHotInventory_cases s revision runtimes
    all_goals simp [hstep, queues, withdraws]
  | queueExactHot handle =>
    obtain ⟨hqueued, hstep⟩ | ⟨-, hstep⟩ := queueExactHot_cases s handle
    · rw [hstep]
      rw [h.2] at hqueued
      constructor
      · exact fun hmem => .inr ⟨hmem, fun h => by cases h⟩
      · rintro (rfl | ⟨hmem, -⟩)
        · exact hqueued
        · exact hmem
    · simp [hstep, queues, withdraws, or_comm, eq_comm]
  | advanceExactHot identity kind =>
    obtain ⟨_, hstep⟩ := advanceExactHot_cases s identity kind
    simp [hstep, queues, withdraws]
  | clearSession handle =>
    simp [step, reduceSessionRecoveryMachine, clearSession, queues, withdraws,
      mem_removeSessionHandle]
  | dequeueExactHot handle =>
    simp [step, reduceSessionRecoveryMachine, queues, withdraws, mem_removeSessionHandle]
  | cancelExactHot handle =>
    simp [step, reduceSessionRecoveryMachine, queues, withdraws, mem_removeSessionHandle]
  | rekey previous handle =>
    simp [step, reduceSessionRecoveryMachine, clearSession, queues, withdraws,
      mem_removeSessionHandle, and_assoc]
  | resetConnection => simp [step, reduceSessionRecoveryMachine, queues, withdraws]
  | reset =>
    simp [step, reduceSessionRecoveryMachine, queues, withdraws,
      SessionRecoveryMachineState.initial]
  | _ => simp [step, reduceSessionRecoveryMachine, queues, withdraws]

theorem run_queueSound (events : List (SessionRecoveryMachineEvent D)) :
    QueueSound (runFrom step initial events).exactHotRecoveryQueue
      (runFrom step initial events).queuedExactHotRecoveries :=
  runFrom_invariant
    (I := fun s : SessionRecoveryMachineState D =>
      QueueSound s.exactHotRecoveryQueue s.queuedExactHotRecoveries)
    step_queueSound events ⟨List.nodup_nil, rfl⟩

theorem mem_queue_iff_since (sessionHandle : SessionHandle)
    (events : List (SessionRecoveryMachineEvent D)) :
    sessionHandle ∈ (runFrom step initial events).exactHotRecoveryQueue ↔
      Since (queues sessionHandle) (withdraws sessionHandle) events :=
  holds_iff_since (P := fun s : SessionRecoveryMachineState D =>
      sessionHandle ∈ s.exactHotRecoveryQueue)
    (I := fun s => QueueSound s.exactHotRecoveryQueue s.queuedExactHotRecoveries)
    ⟨List.nodup_nil, rfl⟩ step_queueSound (List.not_mem_nil) (mem_queue_step sessionHandle) events

/-! ## The inventory -/

/-- The event forgets the inventory: a server hello, the end of a connection or a reset. -/
def resetsInventory : SessionRecoveryMachineEvent D → Prop
  | .resetHotInventory | .resetConnection | .reset => True
  | _ => False

theorem revision_le_step (s : SessionRecoveryMachineState D)
    (event : SessionRecoveryMachineEvent D) (h : ¬ resetsInventory event) :
    s.hotRuntimeRevision ≤ (step s event).hotRuntimeRevision := by
  cases event with
  | bufferReplay key frame maxFrames maxBytes =>
    obtain hstep | ⟨-, -, -, hstep⟩ := bufferReplay_cases s key frame maxFrames maxBytes
    all_goals rw [hstep]
  | replaceReplayBuffer key frames =>
    obtain hstep | hstep := replaceReplayBuffer_cases s key frames
    all_goals rw [hstep]
  | setHotInventory revision runtimes =>
    obtain hstep | ⟨hnewer, _, hstep⟩ := setHotInventory_cases s revision runtimes
    · rw [hstep]
    · rw [hstep]; exact hnewer.le
  | queueExactHot sessionHandle =>
    obtain ⟨-, hstep⟩ | ⟨-, hstep⟩ := queueExactHot_cases s sessionHandle
    all_goals rw [hstep]
  | advanceExactHot identity kind =>
    obtain ⟨_, hstep⟩ := advanceExactHot_cases s identity kind
    rw [hstep]
  | resetHotInventory => exact absurd trivial h
  | resetConnection => exact absurd trivial h
  | reset => exact absurd trivial h
  | _ => exact le_rfl

theorem revision_le_run (s : SessionRecoveryMachineState D)
    {events : List (SessionRecoveryMachineEvent D)}
    (h : ∀ event ∈ events, ¬ resetsInventory event) :
    s.hotRuntimeRevision ≤ (runFrom step s events).hotRuntimeRevision := by
  induction events generalizing s with
  | nil => exact le_rfl
  | cons event rest ih =>
    rw [runFrom_cons]
    exact (revision_le_step s event (h event List.mem_cons_self)).trans
      (ih _ fun other hother => h other (List.mem_cons_of_mem _ hother))

theorem accepted_inventory {s : SessionRecoveryMachineState D} {revision : ℤ}
    {runtimes : List (HotRuntimeInventoryEntry D)}
    (h : (reduceSessionRecoveryMachine s (.setHotInventory revision runtimes)).accepted =
      some true) :
    s.hotRuntimeRevision < revision ∧
      (step s (.setHotInventory revision runtimes)).hotRuntimeRevision = revision := by
  simp only [step, reduceSessionRecoveryMachine] at h ⊢
  split at h
  · cases h
  · next hnewer => exact ⟨not_le.mp hnewer, by rw [if_neg hnewer]⟩

/-! ## The buffers -/

/-- The recorded totals are those of the buffered frames, and all buffers are sorted. -/
structure BufferSound (buffers : InsertionMap JsString (List RecoveryReplayFrame))
    (bytes : InsertionMap JsString (WithTop ℕ)) : Prop where
  bytes : ∀ key, bytes.get? key = (buffers.get? key).map bufferBytes
  sorted : ∀ key, ((buffers.get? key).getD []).Pairwise seqLe

variable {buffers : InsertionMap JsString (List RecoveryReplayFrame)}
  {bytes : InsertionMap JsString (WithTop ℕ)}

theorem BufferSound.empty : BufferSound .empty .empty := ⟨fun _ => rfl, fun _ => List.Pairwise.nil⟩

theorem BufferSound.insert (h : BufferSound buffers bytes) (key : JsString)
    {frames : List RecoveryReplayFrame} {total : WithTop ℕ} (htotal : total = bufferBytes frames)
    (hsorted : frames.Pairwise seqLe) :
    BufferSound (buffers.insert key frames) (bytes.insert key total) where
  bytes key' := by
    simp only [InsertionMap.get?_insert]
    split
    · rw [htotal, Option.map_some]
    · exact h.bytes key'
  sorted key' := by
    simp only [InsertionMap.get?_insert]
    split
    · exact hsorted
    · exact h.sorted key'

theorem BufferSound.erase (h : BufferSound buffers bytes) (key : JsString) :
    BufferSound (buffers.erase key) (bytes.erase key) where
  bytes key' := by
    simp only [InsertionMap.get?_erase]
    split
    · rfl
    · exact h.bytes key'
  sorted key' := by
    simp only [InsertionMap.get?_erase]
    split
    · exact List.Pairwise.nil
    · exact h.sorted key'

theorem BufferSound.filterKeys (h : BufferSound buffers bytes) (p : JsString → Bool) :
    BufferSound (buffers.filterKeys p) (bytes.filterKeys p) where
  bytes key := by
    simp only [InsertionMap.get?_filterKeys]
    split
    · exact h.bytes key
    · rfl
  sorted key := by
    simp only [InsertionMap.get?_filterKeys]
    split
    · exact h.sorted key
    · exact List.Pairwise.nil

theorem BufferSound.clearSession {s : SessionRecoveryMachineState D}
    (h : BufferSound s.resyncBuffers s.resyncBufferBytes) (sessionHandle : SessionHandle) :
    BufferSound (s.clearSession sessionHandle).resyncBuffers
      (s.clearSession sessionHandle).resyncBufferBytes :=
  h.filterKeys (· ∉ s.keysOfSession sessionHandle)

theorem BufferSound.total (h : BufferSound buffers bytes) (key : JsString) :
    (bytes.get? key).getD 0 = bufferBytes ((buffers.get? key).getD []) := by
  rw [h.bytes]
  cases buffers.get? key <;> rfl

theorem bufferBytes_buffered (current : List RecoveryReplayFrame) (frame : RecoveryReplayFrame) :
    bufferBytes (sortBySeq (current ++ [frame])) =
      bufferBytes current + frame.message.serializedBytes := by
  rw [bufferBytes_perm (sortBySeq_perm _), bufferBytes_concat]

theorem step_bufferSound (s : SessionRecoveryMachineState D)
    (event : SessionRecoveryMachineEvent D) (h : BufferSound s.resyncBuffers s.resyncBufferBytes) :
    BufferSound (step s event).resyncBuffers (step s event).resyncBufferBytes := by
  cases event with
  | bufferReplay key frame maxFrames maxBytes =>
    obtain hstep | ⟨-, -, -, hstep⟩ := bufferReplay_cases s key frame maxFrames maxBytes
    · rw [hstep]; exact h
    · rw [hstep]
      refine h.insert key ?_ (sortBySeq_sorted _)
      rw [bufferBytes_buffered, h.total]
      rfl
  | replaceReplayBuffer key frames =>
    obtain hstep | hstep := replaceReplayBuffer_cases s key frames
    · rw [hstep]; exact h.erase key
    · rw [hstep]; exact h.insert key rfl (sortBySeq_sorted _)
  | setHotInventory revision runtimes =>
    obtain hstep | ⟨-, _, hstep⟩ := setHotInventory_cases s revision runtimes
    all_goals rw [hstep]; exact h
  | queueExactHot sessionHandle =>
    obtain ⟨-, hstep⟩ | ⟨-, hstep⟩ := queueExactHot_cases s sessionHandle
    all_goals rw [hstep]; exact h
  | advanceExactHot identity kind =>
    obtain ⟨_, hstep⟩ := advanceExactHot_cases s identity kind
    rw [hstep]; exact h
  | clearIdentity key => exact h.erase key
  | clearSession sessionHandle => exact h.clearSession sessionHandle
  | rekey previous sessionHandle => exact (h.clearSession previous).clearSession sessionHandle
  | reset => exact .empty
  | _ => exact h

theorem run_bufferSound (events : List (SessionRecoveryMachineEvent D)) :
    BufferSound (runFrom step initial events).resyncBuffers
      (runFrom step initial events).resyncBufferBytes :=
  runFrom_invariant
    (I := fun s : SessionRecoveryMachineState D => BufferSound s.resyncBuffers s.resyncBufferBytes)
    step_bufferSound events .empty

/-- The buffer has no duplicates and is within the caps. -/
structure Capped (maxFrames maxBytes : ℕ) (frames : List RecoveryReplayFrame) : Prop where
  distinct : Distinct frames
  length : frames.length ≤ maxFrames
  bytes : bufferBytes frames ≤ (maxBytes : WithTop ℕ)

variable {maxFrames maxBytes : ℕ}

theorem Capped.nil : Capped maxFrames maxBytes [] :=
  ⟨List.Pairwise.nil, Nat.zero_le _, by simp⟩

theorem Capped.subperm {frames frames' : List RecoveryReplayFrame}
    (h : Capped maxFrames maxBytes frames') (hsub : frames.Subperm frames') :
    Capped maxFrames maxBytes frames :=
  ⟨h.distinct.subperm hsub, hsub.length_le.trans h.length,
    (bufferBytes_le_of_subperm hsub).trans h.bytes⟩

variable (maxFrames maxBytes) in
/-- The event buffers under the caps, and it replaces a buffer by a part of itself. -/
def KeepsBuffered (s : SessionRecoveryMachineState D) : SessionRecoveryMachineEvent D → Prop
  | .bufferReplay _ _ maxFrames' maxBytes' => maxFrames' ≤ maxFrames ∧ maxBytes' ≤ maxBytes
  | .replaceReplayBuffer key frames => frames.Subperm (s.buffer key)
  | _ => True

variable (maxFrames maxBytes) in
/-- All buffers have no duplicates and are within the caps. -/
def AllCapped (buffers : InsertionMap JsString (List RecoveryReplayFrame)) : Prop :=
  ∀ key, Capped maxFrames maxBytes ((buffers.get? key).getD [])

theorem AllCapped.insert (h : AllCapped maxFrames maxBytes buffers) (key : JsString)
    {frames : List RecoveryReplayFrame} (hframes : Capped maxFrames maxBytes frames) :
    AllCapped maxFrames maxBytes (buffers.insert key frames) := by
  intro key'
  rw [InsertionMap.get?_insert]
  split
  · exact hframes
  · exact h key'

theorem AllCapped.erase (h : AllCapped maxFrames maxBytes buffers) (key : JsString) :
    AllCapped maxFrames maxBytes (buffers.erase key) := by
  intro key'
  rw [InsertionMap.get?_erase]
  split
  · exact .nil
  · exact h key'

theorem AllCapped.filterKeys (h : AllCapped maxFrames maxBytes buffers) (p : JsString → Bool) :
    AllCapped maxFrames maxBytes (buffers.filterKeys p) := by
  intro key
  rw [InsertionMap.get?_filterKeys]
  split
  · exact h key
  · exact .nil

theorem AllCapped.clearSession {s : SessionRecoveryMachineState D}
    (h : AllCapped maxFrames maxBytes s.resyncBuffers) (sessionHandle : SessionHandle) :
    AllCapped maxFrames maxBytes (s.clearSession sessionHandle).resyncBuffers :=
  h.filterKeys (· ∉ s.keysOfSession sessionHandle)

theorem Capped.buffered {current : List RecoveryReplayFrame} {frame : RecoveryReplayFrame}
    (h : Capped maxFrames maxBytes current) (hfresh : ∀ other ∈ current, ¬ frame.duplicates other)
    (hlength : current.length < maxFrames)
    (hbytes : bufferBytes current + frame.message.serializedBytes ≤ (maxBytes : WithTop ℕ)) :
    Capped maxFrames maxBytes (sortBySeq (current ++ [frame])) where
  distinct := by
    refine Distinct.perm ?_ (sortBySeq_perm _).symm
    refine List.pairwise_append.mpr ⟨h.distinct, List.pairwise_singleton _ _, ?_⟩
    intro other hother last hlast
    obtain rfl := List.mem_singleton.mp hlast
    exact RecoveryReplayFrame.duplicates_symm (hfresh other hother)
  length := by
    rw [(sortBySeq_perm _).length_eq, List.length_append, List.length_singleton]
    exact hlength
  bytes := by rwa [bufferBytes_buffered]

theorem step_allCapped (s : SessionRecoveryMachineState D) (event : SessionRecoveryMachineEvent D)
    (hkeeps : KeepsBuffered maxFrames maxBytes s event)
    (h : BufferSound s.resyncBuffers s.resyncBufferBytes ∧
      AllCapped maxFrames maxBytes s.resyncBuffers) :
    BufferSound (step s event).resyncBuffers (step s event).resyncBufferBytes ∧
      AllCapped maxFrames maxBytes (step s event).resyncBuffers := by
  refine ⟨step_bufferSound s event h.1, ?_⟩
  obtain ⟨hsound, h⟩ := h
  cases event with
  | bufferReplay key frame maxFrames' maxBytes' =>
    obtain hstep | ⟨hfresh, hlength, hbytes, hstep⟩ :=
      bufferReplay_cases s key frame maxFrames' maxBytes'
    · rw [hstep]; exact h
    · rw [hsound.total] at hbytes
      rw [hstep]
      refine h.insert key ((h key).buffered hfresh (hlength.trans_le hkeeps.1) ?_)
      exact hbytes.trans (WithTop.coe_le_coe.mpr hkeeps.2)
  | replaceReplayBuffer key frames =>
    obtain hstep | hstep := replaceReplayBuffer_cases s key frames
    · rw [hstep]; exact h.erase key
    · rw [hstep]
      exact h.insert key ((h key).subperm ((sortBySeq_perm frames).subperm.trans hkeeps))
  | setHotInventory revision runtimes =>
    obtain hstep | ⟨-, _, hstep⟩ := setHotInventory_cases s revision runtimes
    all_goals rw [hstep]; exact h
  | queueExactHot sessionHandle =>
    obtain ⟨-, hstep⟩ | ⟨-, hstep⟩ := queueExactHot_cases s sessionHandle
    all_goals rw [hstep]; exact h
  | advanceExactHot identity kind =>
    obtain ⟨_, hstep⟩ := advanceExactHot_cases s identity kind
    rw [hstep]; exact h
  | clearIdentity key => exact h.erase key
  | clearSession sessionHandle => exact h.clearSession sessionHandle
  | rekey previous sessionHandle => exact (h.clearSession previous).clearSession sessionHandle
  | reset => exact fun _ => .nil
  | _ => exact h

theorem run_capped {events : List (SessionRecoveryMachineEvent D)}
    (h : RunMeets step (KeepsBuffered maxFrames maxBytes) initial events) (key : JsString) :
    Capped maxFrames maxBytes ((runFrom step initial events).buffer key) :=
  (RunMeets.invariant step_allCapped h ⟨.empty, fun _ => .nil⟩).2 key

variable (maxFrames maxBytes) in
/-- In every run the queue has no Session twice and exactly those that were queued and not
withdrawn since; the recorded totals are the sums over the buffers; the revision does not decrease
in a stretch without a reset of the inventory, and an accepted inventory increases it. In a run
that keeps what is buffered, the frames of one key and generation are strictly increasing, and
each buffer is within the caps. -/
theorem recovery_machine_invariants (events : List (SessionRecoveryMachineEvent D)) :
    let run := runFrom step initial events
    run.exactHotRecoveryQueue.Nodup ∧
      (∀ sessionHandle, sessionHandle ∈ run.exactHotRecoveryQueue ↔
        Since (queues sessionHandle) (withdraws sessionHandle) events) ∧
      (∀ key, run.resyncBufferBytes.get? key = (run.resyncBuffers.get? key).map bufferBytes) ∧
      (∀ before after, events = before ++ after → (∀ event ∈ after, ¬ resetsInventory event) →
        (runFrom step initial before).hotRuntimeRevision ≤ run.hotRuntimeRevision) ∧
      (∀ revision runtimes,
        (reduceSessionRecoveryMachine run (.setHotInventory revision runtimes)).accepted =
          some true → run.hotRuntimeRevision < revision) ∧
      (RunMeets step (KeepsBuffered maxFrames maxBytes) initial events → ∀ key,
        (∀ generation, (((run.buffer key).filter
          (·.message.identity.generation = generation)).map (·.message.seq)).Pairwise (· < ·)) ∧
        (run.buffer key).length ≤ maxFrames ∧
        bufferBytes (run.buffer key) ≤ (maxBytes : WithTop ℕ)) := by
  have hsound := run_bufferSound events
  refine ⟨(run_queueSound events).1, fun handle => mem_queue_iff_since handle events, hsound.bytes,
    ?_, fun _ _ h => (accepted_inventory h).1, ?_⟩
  · rintro before after rfl hafter
    rw [runFrom_append]
    exact revision_le_run _ hafter
  · intro hkeeps key
    have hcapped := run_capped hkeeps key
    exact ⟨hcapped.distinct.increasing (hsound.sorted key), hcapped.length, hcapped.bytes⟩

/-- The identity of the samples. -/
def sampleIdentity (generation : ℕ) : SessionRuntimeIdentity :=
  ⟨js "e", js "s", js "w", generation⟩

/-- A frame of the samples; its serialization has as many bytes as the number has digits. -/
def sampleFrame (generation seq : ℕ) : RecoveryReplayFrame :=
  ⟨⟨sampleIdentity generation, seq, some (.num (jsNat seq))⟩, .wire⟩

/-- Frames that come out of order, twice and from two generations. -/
def sampleEvents : List (SessionRecoveryMachineEvent Unit) :=
  [.queueExactHot (js "s"), .bufferReplay (js "k") (sampleFrame 1 12) 3 5,
    .bufferReplay (js "k") (sampleFrame 1 7) 3 5, .bufferReplay (js "k") (sampleFrame 2 7) 3 5,
    .bufferReplay (js "k") (sampleFrame 1 7) 3 5, .setHotInventory 4 [],
    .replaceReplayBuffer (js "k") [sampleFrame 1 12, sampleFrame 1 7]]

/-- The run of the samples keeps what is buffered. -/
theorem recovery_machine_sample :
    (((runFrom step initial sampleEvents).buffer (js "k")).map (·.message.seq) = [7, 12] ∧
      (runFrom step initial sampleEvents).exactHotRecoveryQueue = [js "s"]) ∧
    ∀ key, ((runFrom step initial sampleEvents).buffer key).length ≤ 3 := by
  refine ⟨⟨by decide +kernel, by decide +kernel⟩, fun key => ?_⟩
  have hsub : [sampleFrame 1 12, sampleFrame 1 7].Subperm
      ((runFrom step (initial (D := Unit)) (sampleEvents.take 6)).buffer (js "k")) := by
    have hbuffer : (runFrom step (initial (D := Unit)) (sampleEvents.take 6)).buffer (js "k") =
        [sampleFrame 1 7, sampleFrame 2 7, sampleFrame 1 12] := by
      rfl
    rw [hbuffer]
    refine ⟨[sampleFrame 1 7, sampleFrame 1 12], List.Perm.swap _ _ _, ?_⟩
    exact ((List.Sublist.refl [sampleFrame 1 12]).cons _).cons_cons _
  have hkeeps : RunMeets step (KeepsBuffered 3 5) (initial (D := Unit)) sampleEvents :=
    ⟨trivial, ⟨by decide, by decide⟩, ⟨by decide, by decide⟩, ⟨by decide, by decide⟩,
      ⟨by decide, by decide⟩, trivial, hsub, trivial⟩
  exact ((recovery_machine_invariants 3 5 sampleEvents).2.2.2.2.2 hkeeps key).2.1

/-- A buffer that is replaced by other frames can have one frame twice. -/
theorem replaced_buffer_duplicates : ¬ ∀ (events : List (SessionRecoveryMachineEvent Unit)) key
    generation, ((((runFrom step initial events).buffer key).filter
      (·.message.identity.generation = generation)).map (·.message.seq)).Pairwise (· < ·) := by
  intro h
  have htwice :=
    h [.replaceReplayBuffer (js "k") [sampleFrame 1 7, sampleFrame 1 7]] (js "k") 1
  revert htwice
  decide +kernel

end RecoveryRun

end PiAgentWeb
