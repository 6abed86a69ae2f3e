import PiAgentWeb.UI.SchedulerCallbacks

/-!
# The ledger of the source events

Every source event the scheduler receives is pending, or was handed to `onFlush`, or was dropped,
and these exclude each other: what was dropped while it was pending is never handed over, whatever
the handler calls. This is a relation between the states before and after a call, which a handler
inherits from the calls it makes.
-/

namespace PiAgentWeb

namespace ObservedScheduler

/-- The numbers of the pending source events. -/
def waitingNumbers (s : ObservedScheduler) : List ℕ := s.waiting.map (·.number)

/-- The invariant of the history: what is pending was neither handed over nor dropped, and what was
dropped was not handed over. -/
structure Ledger (s : ObservedScheduler) : Prop where
  nodup : s.waitingNumbers.Nodup
  waiting_lt : ∀ n ∈ s.waitingNumbers, n < s.received
  handed_lt : ∀ n ∈ s.handed, n < s.received
  dropped_lt : ∀ n ∈ s.dropped, n < s.received
  waiting_kept : ∀ n ∈ s.waitingNumbers, n ∉ s.handed ∧ n ∉ s.dropped
  apart : ∀ n ∈ s.dropped, n ∉ s.handed

/-- The source event is neither pending nor dropped. -/
def Taken (n : ℕ) (s : ObservedScheduler) : Prop :=
  n < s.received ∧ n ∉ s.waitingNumbers ∧ n ∉ s.dropped

/-- The source event is neither pending nor handed over. -/
def Unhanded (n : ℕ) (s : ObservedScheduler) : Prop :=
  n < s.received ∧ n ∉ s.waitingNumbers ∧ n ∉ s.handed

/-- The history after a call that hands over the numbers itself: the invariant is kept, and what is
no longer pending is neither dropped nor, but for the numbers, handed over any more. -/
def Follows (numbers : List ℕ) (s t : ObservedScheduler) : Prop :=
  s.Ledger → t.Ledger ∧ (∀ n, Taken n s → Taken n t) ∧
    ∀ n, n ∉ numbers → Unhanded n s → Unhanded n t

namespace Follows

variable {numbers : List ℕ} {s t u : ObservedScheduler}

theorem refl (s : ObservedScheduler) : Follows numbers s s :=
  fun h => ⟨h, fun _ hn => hn, fun _ _ hn => hn⟩

theorem trans (h : Follows numbers s t) (h' : Follows numbers t u) : Follows numbers s u := by
  intro hs
  obtain ⟨ht, htaken, hunhanded⟩ := h hs
  obtain ⟨hu, htaken', hunhanded'⟩ := h' ht
  exact ⟨hu, fun n hn => htaken' n (htaken n hn),
    fun n hnot hn => hunhanded' n hnot (hunhanded n hnot hn)⟩

theorem mono {more : List ℕ} (h : Follows numbers s t) (hsub : ∀ n ∈ numbers, n ∈ more) :
    Follows more s t := by
  intro hs
  obtain ⟨ht, htaken, hunhanded⟩ := h hs
  exact ⟨ht, htaken, fun n hnot => hunhanded n fun hmem => hnot (hsub n hmem)⟩

theorem of_waiting (h : Follows numbers s t) (hsub : ∀ n ∈ numbers, n ∈ s.waitingNumbers) :
    Follows [] s t := by
  intro hs
  obtain ⟨ht, htaken, hunhanded⟩ := h hs
  exact ⟨ht, htaken, fun n _ hn => hunhanded n (fun hmem => hn.2.1 (hsub n hmem)) hn⟩

theorem of_history (hreceived : t.received = s.received) (hwaiting : t.waiting = s.waiting)
    (hhanded : t.handed = s.handed) (hdropped : t.dropped = s.dropped) :
    Follows numbers s t := by
  intro hs
  have hnumbers : t.waitingNumbers = s.waitingNumbers := by
    rw [waitingNumbers, hwaiting, waitingNumbers]
  refine ⟨⟨?_, ?_, ?_, ?_, ?_, ?_⟩, fun n hn => ?_, fun n _ hn => ?_⟩
  · exact hnumbers ▸ hs.nodup
  · rw [hnumbers, hreceived]
    exact hs.waiting_lt
  · rw [hhanded, hreceived]
    exact hs.handed_lt
  · rw [hdropped, hreceived]
    exact hs.dropped_lt
  · rw [hnumbers, hhanded, hdropped]
    exact hs.waiting_kept
  · rw [hdropped, hhanded]
    exact hs.apart
  · unfold Taken at hn ⊢
    rwa [hnumbers, hreceived, hdropped]
  · unfold Unhanded at hn ⊢
    rwa [hnumbers, hreceived, hhanded]

end Follows

variable {onFlush : FlushHandler} {s : ObservedScheduler}

theorem mem_waitingNumbers_of_numbersOf {sessionHandle : JsString} {n : ℕ}
    (h : n ∈ s.numbersOf sessionHandle) : n ∈ s.waitingNumbers := by
  obtain ⟨source, hsource, rfl⟩ := List.mem_map.mp h
  exact List.mem_map.mpr ⟨source, (List.mem_filter.mp hsource).1, rfl⟩

theorem mem_waitingElsewhere (h : s.Ledger) {sessionHandle : JsString} {n : ℕ}
    (hn : n ∈ (s.waitingElsewhere sessionHandle).map (·.number)) :
    n ∈ s.waitingNumbers ∧ n ∉ s.numbersOf sessionHandle := by
  obtain ⟨source, hsource, rfl⟩ := List.mem_map.mp hn
  obtain ⟨hmem, helsewhere⟩ := List.mem_filter.mp hsource
  refine ⟨List.mem_map.mpr ⟨source, hmem, rfl⟩, fun hown => ?_⟩
  obtain ⟨other, hother, hnumber⟩ := List.mem_map.mp hown
  obtain ⟨hotherMem, hhandle⟩ := List.mem_filter.mp hother
  have hsame : other = source := List.inj_on_of_nodup_map h.nodup hotherMem hmem hnumber
  subst hsame
  simp_all

theorem Ledger.restrict (h : s.Ledger) {t : ObservedScheduler}
    (hwaiting : List.Sublist t.waiting s.waiting) (hreceived : t.received = s.received)
    (hhanded : t.handed = s.handed) (hdropped : t.dropped = s.dropped) : t.Ledger := by
  have hsub : List.Sublist t.waitingNumbers s.waitingNumbers := hwaiting.map _
  refine ⟨h.nodup.sublist hsub, ?_, ?_, ?_, ?_, ?_⟩
  · rw [hreceived]
    exact fun n hn => h.waiting_lt n (hsub.subset hn)
  · rw [hhanded, hreceived]
    exact h.handed_lt
  · rw [hdropped, hreceived]
    exact h.dropped_lt
  · rw [hhanded, hdropped]
    exact fun n hn => h.waiting_kept n (hsub.subset hn)
  · rw [hdropped, hhanded]
    exact h.apart

theorem follows_restrict {t : ObservedScheduler} (hwaiting : List.Sublist t.waiting s.waiting)
    (hreceived : t.received = s.received) (hhanded : t.handed = s.handed)
    (hdropped : t.dropped = s.dropped) : Follows [] s t := by
  have hsub : List.Sublist t.waitingNumbers s.waitingNumbers := hwaiting.map _
  intro hs
  refine ⟨hs.restrict hwaiting hreceived hhanded hdropped, fun n hn => ⟨?_, ?_, ?_⟩,
    fun n _ hn => ⟨?_, ?_, ?_⟩⟩
  · rw [hreceived]
    exact hn.1
  · exact fun hmem => hn.2.1 (hsub.subset hmem)
  · rw [hdropped]
    exact hn.2.2
  · rw [hreceived]
    exact hn.1
  · exact fun hmem => hn.2.1 (hsub.subset hmem)
  · rw [hhanded]
    exact hn.2.2

theorem follows_emitBatch (honFlush : ∀ s, Follows [] s (onFlush s).1) (sessionHandle : JsString)
    (generation : ℕ) (events : List CoalescibleMessageUpdate) (count : ℕ) {numbers : List ℕ}
    (hnumbers : ∀ n ∈ numbers, Taken n s) :
    Follows numbers s
      (s.emitBatch onFlush sessionHandle generation events count numbers).1 := by
  unfold emitBatch
  split
  · exact Follows.refl s
  · refine Follows.trans (fun hs => ?_) ((honFlush _).mono (by simp))
    refine ⟨⟨hs.nodup, hs.waiting_lt, ?_, hs.dropped_lt, ?_, ?_⟩, fun n hn => hn,
      fun n hnot hn => ⟨hn.1, hn.2.1, ?_⟩⟩
    · intro n hn
      rcases List.mem_append.mp hn with hold | hnew
      · exact hs.handed_lt n hold
      · exact (hnumbers n hnew).1
    · refine fun n hn => ⟨fun hmem => ?_, (hs.waiting_kept n hn).2⟩
      rcases List.mem_append.mp hmem with hold | hnew
      · exact (hs.waiting_kept n hn).1 hold
      · exact (hnumbers n hnew).2.1 hn
    · intro n hn hmem
      rcases List.mem_append.mp hmem with hold | hnew
      · exact hs.apart n hn hold
      · exact (hnumbers n hnew).2.2 hn
    · intro hmem
      rcases List.mem_append.mp hmem with hold | hnew
      · exact hn.2.2 hold
      · exact hnot hnew

theorem follows_discardSession (sessionHandle : JsString) :
    Follows [] s (s.discardSession sessionHandle) := by
  unfold discardSession
  split
  · exact Follows.refl s
  · intro hs
    have hkept := hs.restrict (t := { s with waiting := s.waitingElsewhere sessionHandle })
      List.filter_sublist rfl rfl rfl
    refine ⟨⟨hkept.nodup, hkept.waiting_lt, hkept.handed_lt, ?_, ?_, ?_⟩,
      fun n hn => ⟨hn.1, ?_, ?_⟩, fun n _ hn => ⟨hn.1, ?_, hn.2.2⟩⟩
    · intro n hn
      rcases List.mem_append.mp hn with hold | hnew
      · exact hs.dropped_lt n hold
      · exact hs.waiting_lt n (mem_waitingNumbers_of_numbersOf hnew)
    · intro n hn
      refine ⟨(hkept.waiting_kept n hn).1, fun hmem => ?_⟩
      rcases List.mem_append.mp hmem with hold | hnew
      · exact (hkept.waiting_kept n hn).2 hold
      · exact (mem_waitingElsewhere hs hn).2 hnew
    · intro n hn
      rcases List.mem_append.mp hn with hold | hnew
      · exact hs.apart n hold
      · exact (hs.waiting_kept n (mem_waitingNumbers_of_numbersOf hnew)).1
    · exact fun hmem => hn.2.1 (mem_waitingElsewhere hs hmem).1
    · intro hmem
      rcases List.mem_append.mp hmem with hold | hnew
      · exact hn.2.2 hold
      · exact hn.2.1 (mem_waitingNumbers_of_numbersOf hnew)
    · exact fun hmem => hn.2.1 (mem_waitingElsewhere hs hmem).1

theorem follows_dispose : Follows [] s s.dispose := by
  unfold dispose
  split
  · exact Follows.refl s
  · intro hs
    refine ⟨⟨List.nodup_nil, by simp [waitingNumbers], hs.handed_lt, ?_, by simp [waitingNumbers],
      ?_⟩, fun n hn => ⟨hn.1, by simp [waitingNumbers], ?_⟩,
      fun n _ hn => ⟨hn.1, by simp [waitingNumbers], hn.2.2⟩⟩
    · intro n hn
      rcases List.mem_append.mp hn with hold | hnew
      · exact hs.dropped_lt n hold
      · exact hs.waiting_lt n hnew
    · intro n hn
      rcases List.mem_append.mp hn with hold | hnew
      · exact hs.apart n hold
      · exact (hs.waiting_kept n hnew).1
    · intro hmem
      rcases List.mem_append.mp hmem with hold | hnew
      · exact hn.2.2 hold
      · exact hn.2.1 hnew

theorem follows_flushSession (honFlush : ∀ s, Follows [] s (onFlush s).1)
    (sessionHandle : JsString) (generation : Option ℕ) :
    Follows [] s (s.flushSession onFlush sessionHandle generation).1 := by
  unfold flushSession
  split
  · exact Follows.refl s
  · rename_i pending _
    split
    · exact follows_discardSession sessionHandle
    · have hremoved : Follows [] s (s.removePending sessionHandle pending) :=
        follows_restrict List.filter_sublist rfl rfl rfl
      have hhanded : Follows (s.numbersOf sessionHandle) s
          ((s.removePending sessionHandle pending).emitBatch onFlush sessionHandle
            pending.generation (pending.runs.map (·.event)) pending.sourceEvents
            (s.numbersOf sessionHandle)).1 := by
        intro hs
        refine (hremoved.mono (by simp)).trans (follows_emitBatch honFlush _ _ _ _ ?_) hs
        intro n hn
        have hwaiting := mem_waitingNumbers_of_numbersOf hn
        exact ⟨hs.waiting_lt n hwaiting, fun hmem => (mem_waitingElsewhere hs hmem).2 hn,
          (hs.waiting_kept n hwaiting).2⟩
      exact hhanded.of_waiting fun n hn => mem_waitingNumbers_of_numbersOf hn

theorem follows_emitBatches (honFlush : ∀ s, Follows [] s (onFlush s).1)
    (batches : List ((JsString × PendingSession) × List ℕ)) :
    ∀ (start : ObservedScheduler × Bool), start.1.Ledger →
      (∀ batch ∈ batches, ∀ n ∈ batch.2, Taken n start.1) →
      Follows (batches.flatMap (·.2)) start.1 (emitBatches onFlush batches start).1 := by
  induction batches with
  | nil => exact fun start _ _ => Follows.refl start.1
  | cons batch rest ih =>
    intro start hstart hbatches
    have hfirst := follows_emitBatch honFlush batch.1.1 batch.1.2.generation
      (batch.1.2.runs.map (·.event)) batch.1.2.sourceEvents (hbatches batch (by simp))
    obtain ⟨hnext, htaken, -⟩ := hfirst hstart
    have hrest := ih (emitNext onFlush start batch) hnext
      fun other hother n hn => htaken n (hbatches other (List.mem_cons_of_mem _ hother) n hn)
    refine Follows.trans (hfirst.mono fun n hn => ?_) (hrest.mono fun n hn => ?_)
    · simp [hn]
    · rw [List.flatMap_cons]
      exact List.mem_append_right _ hn

theorem follows_flushAll (honFlush : ∀ s, Follows [] s (onFlush s).1) :
    Follows [] s (s.flushAll onFlush).1 := by
  unfold flushAll
  split
  · exact Follows.of_history rfl rfl rfl rfl
  · have hcleared : Follows [] s s.clearPending :=
      follows_restrict (List.nil_sublist _) rfl rfl rfl
    have hbatches : ∀ batch ∈ s.pending.entries.map fun entry => (entry, s.numbersOf entry.1),
        ∀ n ∈ batch.2, n ∈ s.waitingNumbers := by
      intro batch hbatch n hn
      obtain ⟨entry, -, rfl⟩ := List.mem_map.mp hbatch
      exact mem_waitingNumbers_of_numbersOf hn
    have hhanded : Follows
        ((s.pending.entries.map fun entry => (entry, s.numbersOf entry.1)).flatMap (·.2)) s
        (emitBatches onFlush (s.pending.entries.map fun entry => (entry, s.numbersOf entry.1))
          (s.clearPending, false)).1 := by
      intro hs
      refine (hcleared.mono (by simp)).trans
        (follows_emitBatches honFlush _ (s.clearPending, false) (hcleared hs).1 ?_) hs
      intro batch hbatch n hn
      have hwaiting := hbatches batch hbatch n hn
      exact ⟨hs.waiting_lt n hwaiting, by simp [clearPending, waitingNumbers],
        (hs.waiting_kept n hwaiting).2⟩
    refine hhanded.of_waiting fun n hn => ?_
    obtain ⟨batch, hbatch, hmem⟩ := List.mem_flatMap.mp hn
    exact hbatches batch hbatch n hmem

theorem follows_applyCaps (honFlush : ∀ s, Follows [] s (onFlush s).1) (sessionHandle : JsString)
    (generation : ℕ) (messageIdentity : JsString) (event : CoalescibleMessageUpdate) :
    Follows [] s
      (s.applyCaps onFlush sessionHandle generation messageIdentity event).scheduler := by
  have hcounted (t : ObservedScheduler) : Follows [] t t.countForcedFlush :=
    Follows.of_history rfl rfl rfl rfl
  have hsession (a : CallingAdmission) (mergeable : Bool) : Follows [] a.scheduler
      (a.forceSession onFlush sessionHandle generation mergeable).scheduler :=
    (hcounted a.scheduler).trans (follows_flushSession honFlush _ _)
  have hall (a : CallingAdmission) (mergeable : Bool) : Follows [] a.scheduler
      (a.forceAll onFlush mergeable).scheduler :=
    (hcounted a.scheduler).trans (follows_flushAll honFlush)
  have hcap1 (a : CallingAdmission) : Follows [] a.scheduler (callCapSessionCharacters onFlush
      sessionHandle generation event.delta.length a).scheduler := by
    unfold callCapSessionCharacters
    split
    · exact hsession a false
    · exact Follows.refl _
  have hcap2 (a : CallingAdmission) : Follows [] a.scheduler
      (callCapTotalCharacters onFlush event.delta.length a).scheduler := by
    unfold callCapTotalCharacters
    split
    · exact Follows.refl _
    · split
      · exact hall a false
      · exact Follows.refl _
  have hcap3 (a : CallingAdmission) : Follows [] a.scheduler
      (callCapSessionEvents onFlush sessionHandle generation a).scheduler := by
    unfold callCapSessionEvents
    split
    · exact Follows.refl _
    · split
      · exact hsession a a.mergeable
      · exact Follows.refl _
  have hcap4 (a : CallingAdmission) : Follows [] a.scheduler
      (callCapTotalEvents onFlush a).scheduler := by
    unfold callCapTotalEvents
    split
    · exact Follows.refl _
    · split
      · exact hall a a.mergeable
      · exact Follows.refl _
  exact (((hcap1 (s.admission sessionHandle messageIdentity event)).trans (hcap2 _)).trans
    (hcap3 _)).trans (hcap4 _)

theorem follows_receive : Follows [] s s.receive ∧
    (s.Ledger → Taken s.received s.receive ∧ Unhanded s.received s.receive) := by
  refine ⟨fun hs => ⟨⟨hs.nodup, ?_, ?_, ?_, hs.waiting_kept, hs.apart⟩,
    fun n hn => ⟨Nat.lt_succ_of_lt hn.1, hn.2⟩, fun n _ hn => ⟨Nat.lt_succ_of_lt hn.1, hn.2⟩⟩,
    fun hs => ⟨⟨Nat.lt_succ_self _, ?_, ?_⟩, Nat.lt_succ_self _, ?_, ?_⟩⟩
  · exact fun n hn => Nat.lt_succ_of_lt (hs.waiting_lt n hn)
  · exact fun n hn => Nat.lt_succ_of_lt (hs.handed_lt n hn)
  · exact fun n hn => Nat.lt_succ_of_lt (hs.dropped_lt n hn)
  · exact fun hmem => Nat.lt_irrefl _ (hs.waiting_lt _ hmem)
  · exact fun hmem => Nat.lt_irrefl _ (hs.dropped_lt _ hmem)
  · exact fun hmem => Nat.lt_irrefl _ (hs.waiting_lt _ hmem)
  · exact fun hmem => Nat.lt_irrefl _ (hs.handed_lt _ hmem)

theorem follows_dropStale (sessionHandle : JsString) (generation : ℕ) :
    Follows [] s (s.dropStale sessionHandle generation) := by
  unfold dropStale
  split
  · split
    · exact follows_discardSession sessionHandle
    · exact Follows.refl s
  · exact Follows.refl s

theorem Follows.emitReceived (honFlush : ∀ s, Follows [] s (onFlush s).1)
    {t : ObservedScheduler} (h : Follows [] s.receive t) (sessionHandle : JsString)
    (generation : ℕ) (events : List CoalescibleMessageUpdate) (count : ℕ) :
    Follows [] s (t.emitBatch onFlush sessionHandle generation events count [s.received]).1 := by
  intro hs
  obtain ⟨hreceive, hfresh⟩ := follows_receive (s := s)
  obtain ⟨ht, htaken, hunhanded⟩ := (hreceive.trans h) hs
  obtain ⟨-, htaken', -⟩ := h (hreceive hs).1
  have hnumbers : ∀ n ∈ [s.received], Taken n t := by
    intro n hn
    obtain rfl : n = s.received := by simpa using hn
    exact htaken' _ (hfresh hs).1
  have hemit := follows_emitBatch honFlush sessionHandle generation events count hnumbers
  obtain ⟨hnext, hkeepTaken, hkeepUnhanded⟩ := hemit ht
  refine ⟨hnext, fun n hn => hkeepTaken n (htaken n hn), fun n hnot hn => ?_⟩
  refine hkeepUnhanded n ?_ (hunhanded n hnot hn)
  have hlt := hn.1
  simp only [List.mem_singleton]
  omega

theorem Follows.enqueuePending {a : CallingAdmission} (h : Follows [] s.receive a.scheduler)
    (sessionHandle : JsString) (generation : ℕ) (messageIdentity : JsString)
    (event : CoalescibleMessageUpdate) (hidden : Bool) :
    Follows [] s (a.enqueuePending s.received sessionHandle generation messageIdentity event
      hidden) := by
  intro hs
  obtain ⟨hreceive, hfresh⟩ := follows_receive (s := s)
  obtain ⟨ht, htaken, hunhanded⟩ := (hreceive.trans h) hs
  obtain ⟨-, htaken', hunhanded'⟩ := h (hreceive hs).1
  obtain ⟨hlt, hnotWaiting, hnotDropped⟩ := htaken' _ (hfresh hs).1
  obtain ⟨-, -, hnotHanded⟩ := hunhanded' _ (by simp) (hfresh hs).2
  have hnumbers : (a.enqueuePending s.received sessionHandle generation messageIdentity event
      hidden).waitingNumbers = a.scheduler.waitingNumbers ++ [s.received] := by
    simp [CallingAdmission.enqueuePending, waitingNumbers]
  refine ⟨⟨?_, ?_, ht.handed_lt, ht.dropped_lt, ?_, ht.apart⟩, fun n hn => ?_, fun n hnot hn => ?_⟩
  · rw [hnumbers]
    exact List.nodup_append.mpr ⟨ht.nodup, by simp, by
      intro n hn m hm
      obtain rfl : m = s.received := by simpa using hm
      exact fun heq => hnotWaiting (heq ▸ hn)⟩
  · intro n hn
    rw [hnumbers] at hn
    rcases List.mem_append.mp hn with hold | hnew
    · exact ht.waiting_lt n hold
    · obtain rfl : n = s.received := by simpa using hnew
      exact hlt
  · intro n hn
    rw [hnumbers] at hn
    rcases List.mem_append.mp hn with hold | hnew
    · exact ht.waiting_kept n hold
    · obtain rfl : n = s.received := by simpa using hnew
      exact ⟨hnotHanded, hnotDropped⟩
  · obtain ⟨hnlt, hnwaiting, hndropped⟩ := htaken n hn
    refine ⟨hnlt, ?_, hndropped⟩
    rw [hnumbers]
    have hlt := hn.1
    simp only [List.mem_append, List.mem_singleton, not_or]
    exact ⟨hnwaiting, by omega⟩
  · obtain ⟨hnlt, hnwaiting, hnhanded⟩ := hunhanded n hnot hn
    refine ⟨hnlt, ?_, hnhanded⟩
    rw [hnumbers]
    have hlt := hn.1
    simp only [List.mem_append, List.mem_singleton, not_or]
    exact ⟨hnwaiting, by omega⟩

theorem follows_enqueue (honFlush : ∀ s, Follows [] s (onFlush s).1) (sessionHandle : JsString)
    (generation : ℕ) (messageIdentity : JsString) (event : CoalescibleMessageUpdate)
    (hidden : Bool) :
    Follows [] s
      (s.enqueue onFlush sessionHandle generation messageIdentity event hidden).1 := by
  have hreceive := (follows_receive (s := s)).1
  have hfresh : Follows [] s.receive (s.receive.dropStale sessionHandle generation) :=
    follows_dropStale sessionHandle generation
  simp only [enqueue]
  split
  · exact hreceive.trans (Follows.of_history rfl rfl rfl rfl)
  split
  · exact Follows.emitReceived honFlush (Follows.refl _) _ _ _ _
  split
  · have hflushed := hfresh.trans
      (follows_flushSession honFlush sessionHandle (some generation))
    split
    · exact hreceive.trans hflushed
    · refine Follows.emitReceived honFlush (hflushed.trans ?_) _ _ _ _
      exact Follows.of_history rfl rfl rfl rfl
  · have hcaps := hfresh.trans
      (follows_applyCaps honFlush sessionHandle generation messageIdentity event)
    split
    · exact hreceive.trans hcaps
    · exact hcaps.enqueuePending sessionHandle generation messageIdentity event hidden

theorem follows_stepWith {handler : Bool → FlushHandler}
    (hhandler : ∀ running s, Follows [] s (handler running s).1) (running : Bool)
    (op : SchedulerOp) : Follows [] s (s.stepWith handler running op).1 := by
  cases op with
  | enqueue sessionHandle generation messageIdentity event hidden =>
    exact follows_enqueue (hhandler true) sessionHandle generation messageIdentity event hidden
  | flushSession sessionHandle generation =>
    exact follows_flushSession (hhandler running) sessionHandle generation
  | flushAll => exact follows_flushAll (hhandler running)
  | frameFired =>
    simp only [stepWith]
    split
    · exact Follows.trans (t := { s with framePending := false })
        (Follows.of_history rfl rfl rfl rfl) (follows_flushAll (hhandler running))
    · exact Follows.refl s
  | timerFired =>
    simp only [stepWith]
    split
    · exact Follows.trans (t := { s with timerPending := false })
        (Follows.of_history rfl rfl rfl rfl) (follows_flushAll (hhandler running))
    · exact Follows.refl s
  | visibilityChange hidden => exact Follows.of_history rfl rfl rfl rfl
  | discardSession sessionHandle => exact follows_discardSession sessionHandle
  | dispose => exact follows_dispose

theorem follows_handlerAt (react : Reaction) (depth : ℕ) :
    ∀ (running : Bool) (s : ObservedScheduler),
      Follows [] s (handlerAt react depth running s).1 := by
  induction depth with
  | zero => exact fun _ s => Follows.refl s
  | succ depth ih =>
    intro running s
    have hcalls (ops : List SchedulerOp) : ∀ t : ObservedScheduler, Follows [] t
        (ops.foldl (fun current op =>
          (current.stepWith (handlerAt react depth) running op).1) t) := by
      induction ops with
      | nil => exact fun t => Follows.refl t
      | cons op rest hrest => exact fun t => (follows_stepWith ih running op).trans (hrest _)
    exact hcalls _ s

end ObservedScheduler

end PiAgentWeb
