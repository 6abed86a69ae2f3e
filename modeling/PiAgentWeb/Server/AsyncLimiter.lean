import PiAgentWeb.Library.Runs

/-!
# The concurrency limiter of the native catalog

Calls of `run` over time, at the granularity of promise continuations: a call starts its operation
or waits; an operation settles; its continuation gives the slot back and resolves the oldest
waiter; the continuation of that waiter takes a slot and starts. Between the last two a new call can
find the slot that was meant for the waiter.
-/

namespace PiAgentWeb

/-- `AsyncLimiter`, with the calls that its continuations belong to. -/
structure AsyncLimiter where
  concurrency : ℕ
  active : ℕ
  /-- `waiting`: the calls whose promise is not resolved, oldest first. -/
  waiting : List ℕ
  /-- The calls whose promise was resolved and whose continuation has still to run. -/
  resumed : List ℕ
  /-- The calls whose operation has started and not settled. -/
  running : List ℕ
  /-- The calls whose operation has settled and whose continuation has still to run. -/
  settled : List ℕ
  /-- The number of the next call. -/
  nextCall : ℕ
  /-- History: the calls that had to wait, in the order of their arrival. -/
  arrived : List ℕ
  /-- History: those of them that have started, in the order of their start. -/
  begun : List ℕ
  deriving DecidableEq

/-- What happens to a limiter. -/
inductive AsyncLimiterAction where
  /-- `run` is called. -/
  | call
  /-- The continuation of the waiter whose promise was resolved first. -/
  | resume
  /-- The operation of a call is fulfilled or rejected. -/
  | settle (call : ℕ)
  /-- The `finally` block of a call whose operation has settled. -/
  | release (call : ℕ)
  deriving DecidableEq

namespace AsyncLimiter

/-- The constructor. -/
def create (concurrency : ℕ) : AsyncLimiter where
  concurrency := concurrency
  active := 0
  waiting := []
  resumed := []
  running := []
  settled := []
  nextCall := 0
  arrived := []
  begun := []

/-- A call takes a slot and starts its operation. -/
def start (s : AsyncLimiter) (call : ℕ) : AsyncLimiter :=
  { s with active := s.active + 1, running := s.running ++ [call] }

/-- `run`, up to its first `await`. -/
def call (s : AsyncLimiter) : AsyncLimiter :=
  let number := s.nextCall
  let s := { s with nextCall := number + 1 }
  if s.active ≥ s.concurrency then
    { s with waiting := s.waiting ++ [number], arrived := s.arrived ++ [number] }
  else s.start number

/-- The part of `run` behind the promise of a waiter. -/
def resume (s : AsyncLimiter) : AsyncLimiter :=
  match s.resumed with
  | [] => s
  | number :: rest => { s with resumed := rest, begun := s.begun ++ [number] }.start number

/-- An operation settles. -/
def settle (s : AsyncLimiter) (number : ℕ) : AsyncLimiter :=
  if number ∈ s.running then
    { s with running := s.running.erase number, settled := s.settled ++ [number] }
  else s

/-- The `finally` block: the slot is given back and the oldest waiter is resolved. -/
def release (s : AsyncLimiter) (number : ℕ) : AsyncLimiter :=
  if number ∈ s.settled then
    { s with
      settled := s.settled.erase number
      active := s.active - 1
      waiting := s.waiting.tail
      resumed := s.resumed ++ s.waiting.head?.toList }
  else s

/-- One step. -/
def step (s : AsyncLimiter) : AsyncLimiterAction → AsyncLimiter
  | .call => s.call
  | .resume => s.resume
  | .settle number => s.settle number
  | .release number => s.release number

/-- A call waits, or it leaves a slot for every waiter that was resolved. -/
def LeavesSlots (s : AsyncLimiter) : AsyncLimiterAction → Prop
  | .call => s.active < s.concurrency → s.active + s.resumed.length < s.concurrency
  | _ => True

instance (s : AsyncLimiter) (a : AsyncLimiterAction) : Decidable (s.LeavesSlots a) := by
  cases a <;> unfold LeavesSlots <;> infer_instance

/-! ## What every step keeps -/

variable {s : AsyncLimiter} {concurrency : ℕ}

/-- The slots are counted, the waiters are in order, and no waiter is left behind a free slot that
nobody was resolved for. -/
structure Sound (concurrency : ℕ) (s : AsyncLimiter) : Prop where
  limit : s.concurrency = concurrency
  slots : s.active = s.running.length + s.settled.length
  order : s.arrived = s.begun ++ s.resumed ++ s.waiting
  busy : s.waiting ≠ [] → concurrency ≤ s.active + s.resumed.length

theorem sound_create : Sound concurrency (create concurrency) where
  limit := rfl
  slots := rfl
  order := rfl
  busy := fun h => absurd rfl h

theorem Sound.call (h : Sound concurrency s) : Sound concurrency s.call := by
  unfold AsyncLimiter.call
  dsimp only
  have hbusy := h.busy
  split
  · rename_i hfull
    refine ⟨h.limit, h.slots, ?_, fun _ => ?_⟩
    · rw [h.order, List.append_assoc _ s.waiting]
    · rw [← h.limit]
      exact Nat.le_trans hfull (Nat.le_add_right _ _)
  · refine ⟨h.limit, ?_, h.order, fun hwaiting => ?_⟩
    · simp only [start, h.slots, List.length_append, List.length_singleton]
      omega
    · have hslots := hbusy hwaiting
      simp only [start]
      omega

theorem Sound.resume (h : Sound concurrency s) : Sound concurrency s.resume := by
  unfold AsyncLimiter.resume
  have hbusy := h.busy
  have horder := h.order
  split
  · exact h
  · rename_i number rest hresumed
    rw [hresumed] at hbusy horder
    refine ⟨h.limit, ?_, ?_, fun hwaiting => ?_⟩
    · simp only [start, h.slots, List.length_append, List.length_singleton]
      omega
    · simp only [start, horder, List.append_assoc, List.cons_append, List.nil_append]
    · have hslots := hbusy hwaiting
      rw [List.length_cons] at hslots
      simp only [start]
      omega

theorem Sound.settle (h : Sound concurrency s) (number : ℕ) :
    Sound concurrency (s.settle number) := by
  unfold AsyncLimiter.settle
  split
  · rename_i hrunning
    refine ⟨h.limit, ?_, h.order, h.busy⟩
    have hlength := List.length_erase_add_one hrunning
    have hactive := h.slots
    simp only [List.length_append, List.length_singleton]
    omega
  · exact h

theorem Sound.release (h : Sound concurrency s) (number : ℕ) :
    Sound concurrency (s.release number) := by
  unfold AsyncLimiter.release
  split
  · rename_i hsettled
    have hlength := List.length_erase_add_one hsettled
    have hactive := h.slots
    have hbusy := h.busy
    have horder := h.order
    cases hwaiting : s.waiting with
    | nil =>
      rw [hwaiting] at horder
      refine ⟨h.limit, ?_, ?_, fun hne => absurd rfl hne⟩
      · dsimp only
        omega
      · simpa using horder
    | cons oldest rest =>
      rw [hwaiting] at hbusy horder
      refine ⟨h.limit, ?_, ?_, fun _ => ?_⟩
      · dsimp only
        omega
      · simpa using horder
      · have hslots := hbusy (List.cons_ne_nil _ _)
        simp only [List.head?_cons, Option.toList_some, List.length_append,
          List.length_singleton]
        omega
  · exact h

theorem Sound.step (a : AsyncLimiterAction) (h : Sound concurrency s) :
    Sound concurrency (s.step a) := by
  cases a with
  | call => exact h.call
  | resume => exact h.resume
  | settle number => exact h.settle number
  | release number => exact h.release number

/-- The slots that are taken or promised are within the limit. -/
def Within (concurrency : ℕ) (s : AsyncLimiter) : Prop :=
  Sound concurrency s ∧ s.active + s.resumed.length ≤ concurrency

/-- A step that leaves the promised slots alone stays within the limit. -/
theorem Within.step (s : AsyncLimiter) (a : AsyncLimiterAction) (hleaves : s.LeavesSlots a)
    (h : Within concurrency s) : Within concurrency (s.step a) := by
  obtain ⟨hsound, hwithin⟩ := h
  refine ⟨hsound.step a, ?_⟩
  cases a with
  | call =>
    simp only [AsyncLimiter.step, AsyncLimiter.call]
    split
    · exact hwithin
    · rename_i hfree
      have hroom := hleaves (Nat.lt_of_not_le hfree)
      have hconcurrency := hsound.limit
      simp only [start]
      omega
  | resume =>
    simp only [AsyncLimiter.step, AsyncLimiter.resume]
    split
    · exact hwithin
    · rename_i hresumed
      rw [hresumed, List.length_cons] at hwithin
      simp only [start]
      omega
  | settle number =>
    simp only [AsyncLimiter.step, AsyncLimiter.settle]
    split <;> exact hwithin
  | release number =>
    simp only [AsyncLimiter.step, AsyncLimiter.release]
    split
    · rename_i hsettled
      have hlength := List.length_erase_add_one hsettled
      have hactive := hsound.slots
      have hhead : s.waiting.head?.toList.length ≤ 1 := by
        cases s.waiting.head? <;> simp
      rw [List.length_append]
      dsimp only
      omega
    · exact hwithin

/-- In every run of a limiter the waiters start in the order of their arrival, and while a call
waits, an operation is running, has still to give its slot back, or is about to start. In a run
whose calls leave a slot for every waiter that was resolved, no more operations than the limit have
started and not given their slot back. -/
theorem limiter_runs (concurrency : ℕ) (actions : List AsyncLimiterAction) :
    let s := runFrom step (create concurrency) actions
    (RunMeets step LeavesSlots (create concurrency) actions →
        (s.running ++ s.settled).length ≤ concurrency) ∧
      s.begun <+: s.arrived ∧ s.arrived = s.begun ++ s.resumed ++ s.waiting ∧
      (0 < concurrency → s.waiting ≠ [] → s.running ≠ [] ∨ s.settled ≠ [] ∨ s.resumed ≠ []) := by
  have hsound : Sound concurrency (runFrom step (create concurrency) actions) :=
    runFrom_invariant (fun _ a h => Sound.step a h) actions sound_create
  refine ⟨fun hmeets => ?_, ?_, hsound.order, fun hpositive hwaiting => ?_⟩
  · have hwithin : Within concurrency (runFrom step (create concurrency) actions) :=
      RunMeets.invariant Within.step hmeets ⟨sound_create, Nat.zero_le _⟩
    rw [List.length_append, ← hsound.slots]
    exact Nat.le_trans (Nat.le_add_right _ _) hwithin.2
  · rw [hsound.order, List.append_assoc]
    exact List.prefix_append _ _
  · have hslots := hsound.busy hwaiting
    rw [hsound.slots] at hslots
    by_contra hnone
    simp only [not_or, not_not] at hnone
    obtain ⟨hrunning, hsettled, hresumed⟩ := hnone
    rw [hrunning, hsettled, hresumed] at hslots
    exact absurd hpositive (Nat.not_lt.mpr hslots)

/-- One slot, and a third call that comes after the waiter has started. -/
theorem limiter_runs_sample :
    let s := runFrom step (create 1) [.call, .call, .settle 0, .release 0, .resume, .call]
    (s.running ++ s.settled).length ≤ 1 ∧ s.running = [1] ∧ s.waiting = [2] := by
  refine ⟨(limiter_runs 1 [.call, .call, .settle 0, .release 0, .resume, .call]).1 ?_, ?_, ?_⟩
  · decide
  · decide
  · decide

/-- One slot, and a third call that comes between the release and the start of the waiter. -/
theorem limiter_exceeded : ¬ ∀ (concurrency : ℕ) (actions : List AsyncLimiterAction),
    (runFrom step (create concurrency) actions).running.length ≤ concurrency := by
  intro h
  have hthree := h 1 [.call, .call, .settle 0, .release 0, .call, .resume]
  revert hthree
  decide

end AsyncLimiter

end PiAgentWeb
