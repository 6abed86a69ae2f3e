import PiAgentWeb.Server.EpochContentStore

/-!
# The quota of the content store

The totals of the store are those of its index and its tombstones, and the reserved totals are
those of the stages that still have their reservation. The first needs that an entry is committed
under a key without one, which the digest lock grants, and that the entry that is renamed is still
the indexed one, which the tombstone lock grants; the second is a tally over the tasks.
-/

namespace PiAgentWeb

namespace StoreTask

/-- The bytes that a task has reserved. -/
def reservedBytesOf : StoreTask → ℕ
  | stage _ reservation _ => if reservation.active then reservation.bytes else 0
  | _ => 0

/-- The items that a task has reserved. -/
def reservedItemsOf : StoreTask → ℕ
  | stage _ reservation _ => if reservation.active then 1 else 0
  | _ => 0

/-- The task is in the section of a digest. -/
def digestWeight (key : ContentKey) (task : StoreTask) : ℕ :=
  if task.digestSection? = some key then 1 else 0

/-- The task is in the section of the tombstones. -/
def tombstoneWeight (task : StoreTask) : ℕ := if task.inTombstoneSection then 1 else 0

/-- The key under which a stage found no entry and commits one. -/
def inserting? : StoreTask → Option ContentKey
  | stage _ _ (.probing ref) => some (contentKey ref)
  | stage _ _ (.makingDirectory ref) => some (contentKey ref)
  | stage _ _ (.writing ref) => some (contentKey ref)
  | stage _ _ (.removingDirectory ref _) => some (contentKey ref)
  | _ => none

/-- The task is a shutdown. -/
def isShutdown : StoreTask → Bool
  | shutdown _ => true
  | _ => false

theorem digestSection?_of_inserting? {task : StoreTask} {key : ContentKey}
    (h : task.inserting? = some key) : task.digestSection? = some key := by
  unfold inserting? at h
  split at h <;> simp_all [digestSection?]

theorem inTombstoneSection_of_moving {task : StoreTask} {key : ContentKey} {entry : ℕ}
    (h : task.deletion? = some (key, entry, .moving)) : task.inTombstoneSection = true := by
  simp [inTombstoneSection, h]

end StoreTask

/-- How a stage settled its reservation, by its result. -/
def StagedEpochContent.settlement (staged : StagedEpochContent) : Settlement :=
  if staged.created then .committed else .rolledBack

/-- How a stage settled its reservation; a failed one rolled it back. -/
def settlementOf : Except EpochContentStoreErrorCode StagedEpochContent → Settlement
  | .ok staged => staged.settlement
  | .error _ => .rolledBack

namespace EpochContentStore

/-- The bytes of the live entries. -/
def entryBytes (s : EpochContentStore) : ℕ :=
  s.entries.total fun entry => (s.heap entry).ref.byteLength

/-- The bytes of the retained tombstones. -/
def tombstoneBytes (s : EpochContentStore) : ℕ := s.tombstones.total fun bytes => bytes

/-- The number of live entries. -/
def entryItems (s : EpochContentStore) : ℕ := s.entries.total fun _ => 1

/-- The number of retained tombstones. -/
def tombstoneItems (s : EpochContentStore) : ℕ := s.tombstones.total fun _ => 1

/-- The tasks that settled a reservation. -/
def settledTasks (s : EpochContentStore) : List ℕ := s.settlements.map Prod.fst

/-- What a stage knows of its reservation. -/
def StageFacts (s : EpochContentStore) (me : ℕ) (input : EpochContentPutInput)
    (reservation : Reservation) : StageStep → Prop
  | .reading => me ∉ s.settledTasks ∧ reservation.active = true ∧
      reservation.bytes = input.expectedByteLength.getD (s.blobLimit input.contentNamespace)
  | .queued ref _ | .verifying ref _ | .probing ref | .makingDirectory ref | .writing ref =>
    me ∉ s.settledTasks ∧ reservation.active = true ∧ ref.byteLength ≤ reservation.bytes
  | .removingDirectory _ _ | .settling (.error _) =>
    me ∉ s.settledTasks ∧ reservation.active = true
  | .settling (.ok staged) => reservation.active = false ∧ (me, staged.settlement) ∈ s.settlements
  | .settled result => reservation.active = false ∧ (me, settlementOf result) ∈ s.settlements

/-- What a task knows of the index and of the reservations. -/
structure QuotaFacts (s : EpochContentStore) (me : ℕ) (task : StoreTask) : Prop where
  inserting : ∀ key, task.inserting? = some key → s.entries.get? key = none
  moving : ∀ key entry, task.deletion? = some (key, entry, .moving) →
    s.entries.get? key = some entry
  stage : ∀ input reservation step, task = .stage input reservation step →
    s.StageFacts me input reservation step
  closing : ∀ step, task = .shutdown step → s.closed = true ∧
    (step ≠ .waiting → s.reservedItems = 0)

/-- The invariant of the totals. -/
structure Quota (s : EpochContentStore) (limits : EpochContentStoreLimits) : Prop where
  limits_eq : s.limits = limits
  bytes : s.bytes = (s.entryBytes + s.tombstoneBytes : ℕ)
  items : s.items = (s.entryItems + s.tombstoneItems : ℕ)
  reservedBytes : s.reservedBytes = (tally StoreTask.reservedBytesOf s.tasks : ℕ)
  reservedItems : s.reservedItems = (tally StoreTask.reservedItemsOf s.tasks : ℕ)
  bytes_le : s.bytes + s.reservedBytes ≤ limits.maxCacheBytes
  items_le : s.items + s.reservedItems ≤ limits.maxCacheItems
  digest : ∀ key, tally (StoreTask.digestWeight key) s.tasks ≤ 1
  tombstone : tally StoreTask.tombstoneWeight s.tasks ≤ 1
  entry_lt : ∀ key entry, s.entries.get? key = some entry → entry < s.nextEntry
  tombstone_lt : ∀ tombstone bytes, s.tombstones.get? tombstone = some bytes →
    tombstone < s.nextTombstone
  facts : ∀ i task, s.tasks[i]? = some task → s.QuotaFacts i task
  late : ∀ (i j : ℕ) (first later : StoreTask), s.tasks[i]? = some first →
    first.isShutdown = true → i < j → s.tasks[j]? = some later → later.reservedItemsOf = 0
  settled_nodup : s.settledTasks.Nodup
  settled_lt : ∀ i ∈ s.settledTasks, i < s.tasks.length

variable {s after : EpochContentStore} {limits : EpochContentStoreLimits} {me : ℕ}
  {task task' : StoreTask}

theorem digestWeight_of_digestTurn {key : ContentKey} {ticket : ℕ}
    (h : s.digestTurn key ticket = true) : tally (StoreTask.digestWeight key) s.tasks = 0 := by
  refine tally_eq_zero fun task htask => ?_
  have := List.all_eq_true.mp h task htask
  simp only [Bool.and_eq_true, bne_iff_ne] at this
  simp [StoreTask.digestWeight, this.1]

/-- The section of the tombstones is empty when it is a caller's turn. -/
theorem tombstoneWeight_of_tombstoneTurn {ticket : ℕ} (h : s.tombstoneTurn ticket = true) :
    tally StoreTask.tombstoneWeight s.tasks = 0 := by
  refine tally_eq_zero fun task htask => ?_
  have := List.all_eq_true.mp h task htask
  simp only [Bool.and_eq_true, Bool.not_eq_true'] at this
  simp [StoreTask.tombstoneWeight, this.1]

theorem Quota.digest_unique (h : s.Quota limits) {i j : ℕ} (hij : i ≠ j) {key : ContentKey}
    (hi : s.tasks[i]? = some task) (hj : s.tasks[j]? = some task')
    (htask : task.digestSection? = some key) : task'.digestSection? ≠ some key := by
  intro htask'
  have := add_le_tally (w := StoreTask.digestWeight key) hij hi hj
  have := h.digest key
  simp only [StoreTask.digestWeight, htask, htask', if_true] at *
  omega

theorem Quota.tombstone_unique (h : s.Quota limits) {i j : ℕ} (hij : i ≠ j)
    (hi : s.tasks[i]? = some task) (hj : s.tasks[j]? = some task')
    (htask : task.inTombstoneSection = true) : task'.inTombstoneSection = false := by
  rw [Bool.eq_false_iff]
  intro htask'
  have := add_le_tally (w := StoreTask.tombstoneWeight) hij hi hj
  have := h.tombstone
  simp only [StoreTask.tombstoneWeight, htask, htask', if_true] at *
  omega

/-! ## One task goes on -/

/-- A change of the store that leaves everything about the quota as it is. -/
structure SameBooks (s after : EpochContentStore) : Prop where
  tasks : after.tasks = s.tasks
  limits : after.limits = s.limits
  closed : after.closed = s.closed
  lengths : ∀ entry, (after.heap entry).ref.byteLength = (s.heap entry).ref.byteLength
  nextEntry : after.nextEntry = s.nextEntry
  entries : after.entries = s.entries
  tombstones : after.tombstones = s.tombstones
  nextTombstone : after.nextTombstone = s.nextTombstone
  bytes : after.bytes = s.bytes
  items : after.items = s.items
  reservedBytes : after.reservedBytes = s.reservedBytes
  reservedItems : after.reservedItems = s.reservedItems
  settlements : after.settlements = s.settlements

/-- What the step of one task does to the quota: from `task` to `task'`, with the store `after`
before the task is replaced. -/
structure QuotaStep (s after : EpochContentStore) (me : ℕ) (task task' : StoreTask) : Prop where
  tasks : after.tasks = s.tasks
  limits : after.limits = s.limits
  closed : after.closed = s.closed
  bytes : after.bytes = (after.entryBytes + after.tombstoneBytes : ℕ)
  items : after.items = (after.entryItems + after.tombstoneItems : ℕ)
  reservedBytes : after.reservedBytes + task.reservedBytesOf =
    s.reservedBytes + task'.reservedBytesOf
  reservedItems : after.reservedItems + task.reservedItemsOf =
    s.reservedItems + task'.reservedItemsOf
  reservedItems_le : task'.reservedItemsOf ≤ task.reservedItemsOf
  bytes_le : after.bytes + after.reservedBytes ≤ s.bytes + s.reservedBytes
  items_le : after.items + after.reservedItems ≤ s.items + s.reservedItems
  digest : ∀ key, task'.digestSection? = some key →
    task.digestSection? = some key ∨ ∃ ticket, s.digestTurn key ticket = true
  tombstone : task'.inTombstoneSection = true →
    task.inTombstoneSection = true ∨ ∃ ticket, s.tombstoneTurn ticket = true
  entry_lt : ∀ key entry, after.entries.get? key = some entry → entry < after.nextEntry
  tombstone_lt : ∀ tombstone bytes, after.tombstones.get? tombstone = some bytes →
    tombstone < after.nextTombstone
  inserts : ∀ key, s.entries.get? key = none →
    after.entries.get? key = none ∨ task.digestSection? = some key
  erases : task.inTombstoneSection = true ∨
    ∀ key entry, s.entries.get? key = some entry → after.entries.get? key = some entry
  settles : after.settlements = s.settlements ∨ me ∉ s.settledTasks ∧
    ∃ settlement, after.settlements = s.settlements ++ [(me, settlement)]
  facts : after.QuotaFacts me task'

theorem QuotaStep.mem_settlements (h : QuotaStep s after me task task') {j : ℕ} (hj : j ≠ me)
    (settlement : Settlement) :
    (j, settlement) ∈ after.settlements ↔ (j, settlement) ∈ s.settlements := by
  rcases h.settles with heq | ⟨-, mine, heq⟩
  · rw [heq]
  · simp [heq, hj]

theorem QuotaStep.mem_settledTasks (h : QuotaStep s after me task task') {j : ℕ} (hj : j ≠ me) :
    j ∈ after.settledTasks ↔ j ∈ s.settledTasks := by
  simp only [settledTasks, List.mem_map, Prod.exists, exists_and_right, exists_eq_right]
  exact exists_congr fun settlement => h.mem_settlements hj settlement

theorem QuotaStep.frame (h : QuotaStep s after me task task') (hs : s.Quota limits)
    (hme : s.tasks[me]? = some task) {j : ℕ} {other : StoreTask} (hj : j ≠ me)
    (hother : s.tasks[j]? = some other) : after.QuotaFacts j other := by
  have hfacts := hs.facts j other hother
  refine ⟨fun key hkey => ?_, fun key entry hkey => ?_, fun input reservation step heq => ?_,
    fun step heq => ?_⟩
  · rcases h.inserts key (hfacts.inserting key hkey) with hnone | hsection
    · exact hnone
    · exact absurd (StoreTask.digestSection?_of_inserting? hkey)
        (hs.digest_unique hj.symm hme hother hsection)
  · rcases h.erases with hsection | hkeep
    · have := hs.tombstone_unique hj.symm hme hother hsection
      rw [StoreTask.inTombstoneSection_of_moving hkey] at this
      cases this
    · exact hkeep key entry (hfacts.moving key entry hkey)
  · have hstage := hfacts.stage input reservation step heq
    have hlimit : ∀ n, after.blobLimit n = s.blobLimit n := by
      intro n
      cases n <;> simp [blobLimit, h.limits]
    unfold StageFacts at hstage ⊢
    simpa only [h.mem_settlements hj, h.mem_settledTasks hj, hlimit] using hstage
  · obtain ⟨hclosed, hitems⟩ := hfacts.closing step heq
    refine ⟨h.closed.trans hclosed, fun hstep => ?_⟩
    have hzero := hitems hstep
    have htally := hs.reservedItems
    have hle := le_tally (w := StoreTask.reservedItemsOf) hme
    have hmine := h.reservedItems
    have := h.reservedItems_le
    omega

theorem Quota.goOn (hs : s.Quota limits) (hme : s.tasks[me]? = some task)
    (h : QuotaStep s after me task task') (hkind : task'.isShutdown = task.isShutdown := by rfl) :
    (after.withTask me task').Quota limits := by
  have hlt : me < s.tasks.length := (List.getElem?_eq_some_iff.mp hme).1
  have htally : ∀ w : StoreTask → ℕ, tally w (after.tasks.set me task') + w task =
      tally w s.tasks + w task' := fun w => by
    rw [h.tasks]
    exact tally_set hme task'
  have hbytes := htally StoreTask.reservedBytesOf
  have hitems := htally StoreTask.reservedItemsOf
  refine ⟨h.limits.trans hs.limits_eq, h.bytes, h.items, ?_, ?_, ?_, ?_, fun key => ?_, ?_,
    h.entry_lt, h.tombstone_lt,
    fun j other hother => ?_, fun i j first later hfirst hshutdown hij hlater => ?_, ?_,
    fun j hj => ?_⟩
  · have := h.reservedBytes
    have := hs.reservedBytes
    simp only [withTask]
    omega
  · have := h.reservedItems
    have := hs.reservedItems
    simp only [withTask]
    omega
  · have := h.bytes_le
    have := hs.bytes_le
    simp only [withTask]
    omega
  · have := h.items_le
    have := hs.items_le
    simp only [withTask]
    omega
  · have hkey := htally (StoreTask.digestWeight key)
    have := hs.digest key
    simp only [withTask]
    by_cases hsection : task'.digestSection? = some key
    · rcases h.digest key hsection with hbefore | ⟨ticket, hturn⟩
      · simp only [StoreTask.digestWeight, hsection, hbefore] at hkey ⊢
        omega
      · have := digestWeight_of_digestTurn hturn
        simp only [StoreTask.digestWeight, hsection] at hkey this ⊢
        simp only [if_true] at hkey
        omega
    · have hzero : StoreTask.digestWeight key task' = 0 := by
        simp [StoreTask.digestWeight, hsection]
      omega
  · have hlock := htally StoreTask.tombstoneWeight
    have := hs.tombstone
    simp only [withTask]
    by_cases hsection : task'.inTombstoneSection = true
    · rcases h.tombstone hsection with hbefore | ⟨ticket, hturn⟩
      · simp only [StoreTask.tombstoneWeight, hsection, hbefore] at hlock ⊢
        omega
      · have := tombstoneWeight_of_tombstoneTurn hturn
        have : StoreTask.tombstoneWeight task' = 1 := by simp [StoreTask.tombstoneWeight, hsection]
        omega
    · have hzero : StoreTask.tombstoneWeight task' = 0 := by
        simp [StoreTask.tombstoneWeight, hsection]
      omega
  · simp only [withTask, h.tasks] at hother
    have hfacts : after.QuotaFacts j other := by
      by_cases hj : j = me
      · subst hj
        rw [List.getElem?_set_self hlt] at hother
        cases hother
        exact h.facts
      · rw [List.getElem?_set_ne (Ne.symm hj)] at hother
        exact h.frame hs hme hj hother
    exact ⟨hfacts.inserting, hfacts.moving, hfacts.stage, hfacts.closing⟩
  · simp only [withTask, h.tasks] at hfirst hlater
    obtain ⟨first', hfirst', hshutdown'⟩ : ∃ first', s.tasks[i]? = some first' ∧
        first'.isShutdown = true := by
      by_cases hi : i = me
      · rw [hi, List.getElem?_set_self hlt] at hfirst
        cases hfirst
        exact ⟨task, hi ▸ hme, hkind ▸ hshutdown⟩
      · rw [List.getElem?_set_ne (Ne.symm hi)] at hfirst
        exact ⟨first, hfirst, hshutdown⟩
    have hlate := fun later => hs.late i j first' later hfirst' hshutdown'
    by_cases hj : j = me
    · rw [hj, List.getElem?_set_self hlt] at hlater
      cases hlater
      have := hlate task hij (hj ▸ hme)
      have := h.reservedItems_le
      omega
    · rw [List.getElem?_set_ne (Ne.symm hj)] at hlater
      exact hlate later hij hlater
  · change after.settledTasks.Nodup
    rcases h.settles with heq | ⟨hmine, settlement, heq⟩
    · simpa only [settledTasks, heq] using hs.settled_nodup
    · rw [settledTasks, heq, List.map_append]
      refine List.Nodup.append hs.settled_nodup (by simp) fun j hj hmem => ?_
      obtain rfl : j = me := by simpa using hmem
      exact hmine hj
  · simp only [withTask, List.length_set, h.tasks]
    by_cases heq : j = me
    · exact heq ▸ (List.getElem?_eq_some_iff.mp hme).1
    · exact hs.settled_lt j ((h.mem_settledTasks heq).mp hj)

/-! ## Steps that leave the books alone -/

namespace SameBooks

@[refl] theorem refl (s : EpochContentStore) : SameBooks s s :=
  ⟨rfl, rfl, rfl, fun _ => rfl, rfl, rfl, rfl, rfl, rfl, rfl, rfl, rfl, rfl⟩

theorem trans {middle : EpochContentStore} (h : SameBooks s middle) (h' : SameBooks middle after) :
    SameBooks s after :=
  ⟨h'.tasks.trans h.tasks, h'.limits.trans h.limits, h'.closed.trans h.closed,
    fun entry => (h'.lengths entry).trans (h.lengths entry), h'.nextEntry.trans h.nextEntry,
    h'.entries.trans h.entries, h'.tombstones.trans h.tombstones,
    h'.nextTombstone.trans h.nextTombstone, h'.bytes.trans h.bytes, h'.items.trans h.items,
    h'.reservedBytes.trans h.reservedBytes, h'.reservedItems.trans h.reservedItems,
    h'.settlements.trans h.settlements⟩

theorem setEntry {entry : ℕ} {object : ContentEntry} (h : object.ref = (s.heap entry).ref) :
    SameBooks s (s.setEntry entry object) := by
  refine { SameBooks.refl s with lengths := fun entry' => ?_ }
  simp only [EpochContentStore.setEntry, Function.update_apply]
  split
  · rename_i heq
    rw [h, heq]
  · rfl

theorem takeTicket (s : EpochContentStore) : SameBooks s s.takeTicket :=
  { SameBooks.refl s with }

theorem createHold (s : EpochContentStore) (entry : ℕ) : SameBooks s (s.createHold entry) :=
  { setEntry (s := s) (show ((s.heap entry).increment .hold).ref = (s.heap entry).ref from rfl)
    with }

theorem createPin (s : EpochContentStore) (ref : EpochStoredContentRef) (entry : ℕ) :
    SameBooks s (s.createPin ref entry) :=
  { SameBooks.refl s with }

theorem removeTombstoneDirectory (s : EpochContentStore) (tombstone : ℕ) :
    SameBooks s (s.removeTombstoneDirectory tombstone) :=
  { SameBooks.refl s with }

theorem facts (h : SameBooks s after) (hfacts : s.QuotaFacts me task) :
    after.QuotaFacts me task := by
  have hlimit : ∀ n, after.blobLimit n = s.blobLimit n := by
    intro n
    cases n <;> simp [blobLimit, h.limits]
  refine ⟨fun key hkey => h.entries ▸ hfacts.inserting key hkey,
    fun key entry hkey => h.entries ▸ hfacts.moving key entry hkey,
    fun input reservation step heq => ?_, fun step heq => ?_⟩
  · have hstage := hfacts.stage input reservation step heq
    unfold StageFacts settledTasks at hstage ⊢
    simpa only [h.settlements, hlimit] using hstage
  · rw [h.closed, h.reservedItems]
    exact hfacts.closing step heq

theorem entryBytes_eq (h : SameBooks s after) : after.entryBytes = s.entryBytes := by
  simp only [entryBytes, h.entries, h.lengths]

theorem step (h : SameBooks s after) (hs : s.Quota limits)
    (hbytes : task'.reservedBytesOf = task.reservedBytesOf)
    (hitems : task'.reservedItemsOf = task.reservedItemsOf)
    (hdigest : ∀ key, task'.digestSection? = some key →
      task.digestSection? = some key ∨ ∃ ticket, s.digestTurn key ticket = true)
    (htombstone : task'.inTombstoneSection = true →
      task.inTombstoneSection = true ∨ ∃ ticket, s.tombstoneTurn ticket = true)
    (hfacts : s.QuotaFacts me task') : QuotaStep s after me task task' where
  tasks := h.tasks
  limits := h.limits
  closed := h.closed
  bytes := by
    rw [h.bytes, hs.bytes, h.entryBytes_eq, tombstoneBytes, tombstoneBytes, h.tombstones]
  items := by
    rw [h.items, hs.items, entryItems, entryItems, tombstoneItems, tombstoneItems, h.entries,
      h.tombstones]
  reservedBytes := by rw [h.reservedBytes, hbytes]
  reservedItems := by rw [h.reservedItems, hitems]
  reservedItems_le := Nat.le_of_eq hitems
  bytes_le := Int.le_of_eq (by rw [h.bytes, h.reservedBytes])
  items_le := Int.le_of_eq (by rw [h.items, h.reservedItems])
  digest := hdigest
  tombstone := htombstone
  entry_lt := by
    rw [h.entries, h.nextEntry]
    exact hs.entry_lt
  tombstone_lt := by
    rw [h.tombstones, h.nextTombstone]
    exact hs.tombstone_lt
  inserts := fun key hkey => .inl (h.entries ▸ hkey)
  erases := .inr fun key entry hkey => h.entries ▸ hkey
  settles := .inl h.settlements
  facts := h.facts hfacts

end SameBooks

theorem QuotaFacts.of_plain (hinserting : task.inserting? = none)
    (hmoving : ∀ key entry, task.deletion? ≠ some (key, entry, .moving))
    (hstage : ∀ input reservation step, task ≠ .stage input reservation step)
    (hshutdown : ∀ step, task ≠ .shutdown step) : s.QuotaFacts me task where
  inserting := fun key hkey => by simp [hinserting] at hkey
  moving := fun key entry hkey => absurd hkey (hmoving key entry)
  stage := fun input reservation step heq => absurd heq (hstage input reservation step)
  closing := fun step heq => absurd heq (hshutdown step)

/-! ## Deletions -/

/-- What `#removeTrackedTombstone` does to the store: nothing, to the disk, or also to the
totals. -/
inductive Removes (s : EpochContentStore) (tombstone : ℕ) : EpochContentStore → Prop where
  | keeps : Removes s tombstone s
  | removes : Removes s tombstone (s.removeTombstoneDirectory tombstone)
  | forgets (bytes : ℕ) (hget : s.tombstones.get? tombstone = some bytes) :
    Removes s tombstone
      ((s.removeTombstoneDirectory tombstone).forgetTombstone tombstone bytes)

theorem removeTrackedTombstone_removes (s : EpochContentStore) (tombstone : ℕ)
    (outcome : FileOutcome) :
    s.Removes tombstone (s.removeTrackedTombstone tombstone outcome).1 := by
  unfold removeTrackedTombstone
  split
  · split
    · exact .removes
    · exact .keeps
  · split
    · exact .removes
    · rename_i bytes hget
      exact .forgets bytes hget

/-- What one step of `#deleteEntry` does. -/
inductive Deletes (s : EpochContentStore) (key : ContentKey) (entry : ℕ) :
    DeleteStep → EpochContentStore → DeleteProgress → Prop where
  | waits (ticket : ℕ) : Deletes s key entry (.queued ticket) s (.waiting (.queued ticket))
  | enters (ticket : ℕ) (hturn : s.tombstoneTurn ticket = true)
      (hget : s.entries.get? key = some entry) :
    Deletes s key entry (.queued ticket) s (.waiting .moving)
  | stale (ticket : ℕ) (hget : s.entries.get? key ≠ some entry) (freed : FreedContent) :
    Deletes s key entry (.queued ticket) s (.done freed)
  | fails (code : EpochContentStoreErrorCode) : Deletes s key entry .moving s (.failed code)
  | moves : Deletes s key entry .moving (s.moveToTombstone key entry)
      (.waiting (.removing s.nextTombstone))
  | removed (tombstone : ℕ) {after : EpochContentStore} (h : s.Removes tombstone after)
      (freed : FreedContent) : Deletes s key entry (.removing tombstone) after (.done freed)
  | retained (tombstone : ℕ) {after : EpochContentStore} (h : s.Removes tombstone after)
      (code : EpochContentStoreErrorCode) :
    Deletes s key entry (.removing tombstone) after (.failed code)

theorem resumeDelete_deletes (s : EpochContentStore) (key : ContentKey) (entry : ℕ)
    (step : DeleteStep) (outcome : FileOutcome) :
    s.Deletes key entry step (s.resumeDelete key entry step outcome).1
      (s.resumeDelete key entry step outcome).2 := by
  cases step with
  | queued ticket =>
    simp only [resumeDelete]
    split
    · rename_i hturn
      split
      · rename_i hget
        exact .enters ticket hturn hget
      · rename_i hget
        exact .stale ticket hget _
    · exact .waits ticket
  | moving =>
    cases outcome with
    | ok => exact .moves
    | failed code removed => exact .fails code
  | removing tombstone =>
    have hremoves := s.removeTrackedTombstone_removes tombstone outcome
    simp only [resumeDelete]
    split <;> rename_i heq <;> rw [heq] at hremoves
    · exact .removed tombstone hremoves _
    · exact .retained tombstone hremoves _

/-- The steps of a deletion in the section of the tombstones. -/
def inside : DeleteStep → Bool
  | .queued _ => false
  | _ => true

theorem inTombstoneSection_of_deletion? {key : ContentKey} {entry : ℕ} {step : DeleteStep}
    (h : task.deletion? = some (key, entry, step)) : task.inTombstoneSection = inside step := by
  cases step with
  | queued ticket =>
    unfold StoreTask.inTombstoneSection
    rw [h]
    split
    · simp_all
    · simp_all
    · simp [StoreTask.deletion?] at h
    · rfl
  | moving => simp [StoreTask.inTombstoneSection, h, inside]
  | removing tombstone => simp [StoreTask.inTombstoneSection, h, inside]

theorem Removes.step {tombstone : ℕ} (h : s.Removes tombstone after) (hs : s.Quota limits)
    (hbytes : task'.reservedBytesOf = task.reservedBytesOf)
    (hitems : task'.reservedItemsOf = task.reservedItemsOf)
    (hdigest : ∀ key, task'.digestSection? = some key →
      task.digestSection? = some key ∨ ∃ ticket, s.digestTurn key ticket = true)
    (htombstone : task'.inTombstoneSection = true →
      task.inTombstoneSection = true ∨ ∃ ticket, s.tombstoneTurn ticket = true)
    (hfacts : s.QuotaFacts me task') : QuotaStep s after me task task' := by
  cases h with
  | keeps => exact (SameBooks.refl s).step hs hbytes hitems hdigest htombstone hfacts
  | removes =>
    exact (SameBooks.removeTombstoneDirectory s tombstone).step hs hbytes hitems hdigest
      htombstone hfacts
  | forgets bytes hget =>
    have hsum := InsertionMap.total_erase (f := fun bytes => bytes) hget
    have hcount := InsertionMap.total_erase (f := fun _ => 1) hget
    have hold := (SameBooks.removeTombstoneDirectory s tombstone).step hs hbytes hitems hdigest
      htombstone hfacts
    have htotal := hs.bytes
    have hnumber := hs.items
    simp only [entryBytes, tombstoneBytes] at htotal
    simp only [entryItems, tombstoneItems] at hnumber
    refine { hold with
      bytes := ?_, items := ?_, bytes_le := ?_, items_le := ?_, tombstone_lt := ?_, facts := ?_ }
    · simp only [entryBytes, tombstoneBytes, forgetTombstone, removeTombstoneDirectory]
      omega
    · simp only [entryItems, tombstoneItems, forgetTombstone, removeTombstoneDirectory]
      omega
    · simp only [forgetTombstone, removeTombstoneDirectory]
      omega
    · simp only [forgetTombstone, removeTombstoneDirectory]
      omega
    · intro other bytes' hother
      simp only [forgetTombstone, removeTombstoneDirectory, InsertionMap.get?_erase] at hother ⊢
      split at hother
      · cases hother
      · exact hs.tombstone_lt other bytes' hother
    · exact ⟨hfacts.inserting, hfacts.moving, hfacts.stage, hfacts.closing⟩

theorem Quota.moveToTombstone (hs : s.Quota limits) {key : ContentKey} {entry : ℕ}
    (hget : s.entries.get? key = some entry) (hbytes : task'.reservedBytesOf = task.reservedBytesOf)
    (hitems : task'.reservedItemsOf = task.reservedItemsOf)
    (hdigest : ∀ key, task'.digestSection? = some key → task.digestSection? = some key)
    (htombstone : task.inTombstoneSection = true)
    (hfacts : (s.moveToTombstone key entry).QuotaFacts me task') :
    QuotaStep s (s.moveToTombstone key entry) me task task' := by
  have hfresh : s.tombstones.get? s.nextTombstone = none := by
    cases h : s.tombstones.get? s.nextTombstone with
    | none => rfl
    | some bytes => exact absurd (hs.tombstone_lt _ _ h) (Nat.lt_irrefl _)
  have hsum := InsertionMap.total_erase (f := fun entry => (s.heap entry).ref.byteLength) hget
  have hcount := InsertionMap.total_erase (f := fun _ => 1) hget
  have htotal := hs.bytes
  have hnumber := hs.items
  simp only [entryBytes, tombstoneBytes] at htotal
  simp only [entryItems, tombstoneItems] at hnumber
  refine ⟨rfl, rfl, rfl, ?_, ?_, ?_, ?_, Nat.le_of_eq hitems, Int.le_refl _, Int.le_refl _,
    fun key hkey => .inl (hdigest key hkey), fun _ => .inl htombstone, ?_, ?_, ?_,
    .inl htombstone, .inl rfl, hfacts⟩
  · simp only [entryBytes, tombstoneBytes, EpochContentStore.moveToTombstone,
      InsertionMap.total_insert hfresh]
    omega
  · simp only [entryItems, tombstoneItems, EpochContentStore.moveToTombstone,
      InsertionMap.total_insert hfresh]
    omega
  · simp only [EpochContentStore.moveToTombstone, hbytes]
  · simp only [EpochContentStore.moveToTombstone, hitems]
  · intro key' entry' hkey'
    simp only [EpochContentStore.moveToTombstone, InsertionMap.get?_erase] at hkey' ⊢
    split at hkey'
    · cases hkey'
    · exact hs.entry_lt key' entry' hkey'
  · intro tombstone bytes hbytes
    simp only [EpochContentStore.moveToTombstone, InsertionMap.get?_insert] at hbytes ⊢
    split at hbytes
    · omega
    · exact Nat.lt_succ_of_lt (hs.tombstone_lt tombstone bytes hbytes)
  · intro key' hkey'
    refine .inl ?_
    simp only [EpochContentStore.moveToTombstone, InsertionMap.get?_erase, hkey', ite_self]

theorem Deletes.step {key : ContentKey} {entry : ℕ} {dstep : DeleteStep}
    {progress : DeleteProgress} (h : s.Deletes key entry dstep after progress) (hs : s.Quota limits)
    (hme : s.tasks[me]? = some task) (htask : task.deletion? = some (key, entry, dstep))
    (hbytes : task'.reservedBytesOf = task.reservedBytesOf)
    (hitems : task'.reservedItemsOf = task.reservedItemsOf)
    (hdigest : ∀ key, task'.digestSection? = some key → task.digestSection? = some key)
    (hnext : ∀ step, progress = .waiting step → task'.deletion? = some (key, entry, step))
    (hend : (∀ step, progress ≠ .waiting step) → task'.inTombstoneSection = false)
    (hinserting : task'.inserting? = none)
    (hstage : ∀ input reservation step, task' ≠ .stage input reservation step)
    (hclosing : ∀ step, task' = .shutdown step →
      s.closed = true ∧ (step ≠ .waiting → s.reservedItems = 0)) :
    QuotaStep s after me task task' := by
  have hfacts : (∀ key entry, task'.deletion? = some (key, entry, .moving) →
      s.entries.get? key = some entry) → s.QuotaFacts me task' := fun hmoving =>
    ⟨fun key hkey => by simp [hinserting] at hkey, hmoving,
      fun input reservation step heq => absurd heq (hstage input reservation step), hclosing⟩
  have hinside := inTombstoneSection_of_deletion? htask
  have hended : task'.inTombstoneSection = false → s.QuotaFacts me task' := fun hout =>
    hfacts fun key entry hkey => by
      rw [StoreTask.inTombstoneSection_of_moving hkey] at hout
      cases hout
  have hstays : ∀ key, task'.digestSection? = some key →
      task.digestSection? = some key ∨ ∃ ticket, s.digestTurn key ticket = true := fun key hkey =>
    .inl (hdigest key hkey)
  cases h with
  | waits ticket =>
    have hout := inTombstoneSection_of_deletion? (hnext _ rfl)
    exact (SameBooks.refl s).step hs hbytes hitems hstays (by simp [hout, inside]) (hended hout)
  | enters ticket hturn hget =>
    refine (SameBooks.refl s).step hs hbytes hitems hstays (fun _ => .inr ⟨ticket, hturn⟩)
      (hfacts fun key' entry' hkey' => ?_)
    rw [hnext _ rfl] at hkey'
    cases hkey'
    exact hget
  | stale ticket hget freed =>
    have hout := hend nofun
    exact (SameBooks.refl s).step hs hbytes hitems hstays (by simp [hout]) (hended hout)
  | fails code =>
    have hout := hend nofun
    exact (SameBooks.refl s).step hs hbytes hitems hstays (by simp [hout]) (hended hout)
  | moves =>
    refine hs.moveToTombstone ((hs.facts me task hme).moving key entry htask) hbytes hitems hdigest
      hinside ⟨fun key hkey => by simp [hinserting] at hkey, fun key' entry' hkey' => ?_,
        fun input reservation step heq => absurd heq (hstage input reservation step), hclosing⟩
    rw [hnext _ rfl] at hkey'
    cases hkey'
  | removed tombstone hremoves freed =>
    have hout := hend nofun
    exact hremoves.step hs hbytes hitems hstays (by simp [hout]) (hended hout)
  | retained tombstone hremoves code =>
    have hout := hend nofun
    exact hremoves.step hs hbytes hitems hstays (by simp [hout]) (hended hout)

end EpochContentStore

end PiAgentWeb
