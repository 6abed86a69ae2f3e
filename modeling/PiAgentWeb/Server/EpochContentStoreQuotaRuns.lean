import PiAgentWeb.Server.EpochContentStoreQuota

/-!
# The quota over whole runs

Every operation keeps the invariant of the totals, step by step; a stage takes and settles its
reservation, and the scan establishes the invariant. The totals then hold after every run.
-/

namespace PiAgentWeb

namespace EpochContentStore

variable {s after : EpochContentStore} {limits : EpochContentStoreLimits} {me : ℕ}
  {task task' : StoreTask}

/-! ## Publications, pins and holds -/

theorem digestSection?_publish {handle : ℕ} {token : TokenState} {step : PublishStep}
    {key : ContentKey}
    (h : (StoreTask.publish handle token step).digestSection? = some key) : key = token.key := by
  cases step <;> simp_all [StoreTask.digestSection?]

theorem digestSection?_holdPublished {ref : EpochStoredContentRef} {step : HoldStep}
    {key : ContentKey}
    (h : (StoreTask.holdPublished ref step).digestSection? = some key) : key = contentKey ref := by
  cases step <;> simp_all [StoreTask.digestSection?]

theorem Quota.resumePublish (hs : s.Quota limits) {handle : ℕ} {token : TokenState}
    {step : PublishStep}
    (hme : s.tasks[me]? = some (.publish handle token step)) (outcome : FileOutcome) :
    (s.resumePublish me handle token step outcome).Quota limits := by
  have hplain : ∀ step', s.QuotaFacts me (.publish handle token step') := fun step' =>
    .of_plain rfl (by simp [StoreTask.deletion?]) (by simp) (by simp)
  have hsettle : ∀ {after}, SameBooks s after → ∀ result,
      (after.withTask me (.publish handle token (.settled result))).Quota limits :=
    fun h result => hs.goOn hme (h.step hs rfl rfl (by simp [StoreTask.digestSection?])
      (by rintro ⟨⟩)
      (hplain _))
  unfold EpochContentStore.resumePublish
  split
  · split
    · rename_i ticket hturn
      refine hs.goOn hme ((SameBooks.refl s).step hs rfl rfl (fun key hkey => ?_) (by rintro ⟨⟩)
        (hplain _))
      rw [digestSection?_publish hkey]
      exact .inr ⟨ticket, hturn⟩
    · exact hs
  · exact hsettle (.refl s) _
  · refine hsettle (.setEntry ?_) _
    rfl
  · exact hs

theorem Quota.resumePin (hs : s.Quota limits) {ref : EpochStoredContentRef} {step : PinStep}
    (hme : s.tasks[me]? = some (.pin ref step)) (outcome : FileOutcome) :
    (s.resumePin me ref step outcome).Quota limits := by
  have hsettle : ∀ {after}, SameBooks s after → ∀ result,
      (after.withTask me (.pin ref (.settled result))).Quota limits :=
    fun h result => hs.goOn hme (h.step hs rfl rfl (by rintro _ ⟨⟩) (by rintro ⟨⟩)
      (.of_plain rfl (by simp [StoreTask.deletion?]) (by simp) (by simp)))
  unfold EpochContentStore.resumePin
  split
  · refine hsettle (.setEntry ?_) _
    rfl
  · exact hsettle (.createPin s ref _) _
  · exact hs

theorem Quota.resumeHold (hs : s.Quota limits) {ref : EpochStoredContentRef} {step : HoldStep}
    (hme : s.tasks[me]? = some (.holdPublished ref step)) (outcome : FileOutcome) :
    (s.resumeHold me ref step outcome).Quota limits := by
  have hplain : ∀ step', s.QuotaFacts me (.holdPublished ref step') := fun step' =>
    .of_plain rfl (by simp [StoreTask.deletion?]) (by simp) (by simp)
  have hsettle : ∀ {after}, SameBooks s after → ∀ result,
      (after.withTask me (.holdPublished ref (.settled result))).Quota limits :=
    fun h result => hs.goOn hme (h.step hs rfl rfl (by simp [StoreTask.digestSection?])
      (by rintro ⟨⟩)
      (hplain _))
  unfold EpochContentStore.resumeHold
  split
  · split
    · rename_i ticket hturn
      split
      · exact hsettle (.refl s) _
      · refine hs.goOn hme
          ((SameBooks.refl s).step hs rfl rfl (fun key hkey => ?_) (by rintro ⟨⟩) (hplain _))
        rw [digestSection?_holdPublished hkey]
        exact .inr ⟨ticket, hturn⟩
    · exact hs
  · exact hsettle (.refl s) _
  · split
    · exact hsettle (.refl s) _
    · exact hsettle (.createHold s _) _
  · exact hs

/-! ## Releases, collections and the shutdown -/

theorem Quota.resumeRelease (hs : s.Quota limits) {handle : ℕ} {token : TokenState}
    {step : ReleaseStep}
    (hme : s.tasks[me]? = some (.release handle token step)) (outcome : FileOutcome) :
    (s.resumeRelease me handle token step outcome).Quota limits := by
  have hsettle : ∀ {after}, SameBooks s after → ∀ result,
      (after.withTask me (.release handle token (.settled result))).Quota limits :=
    fun h result => hs.goOn hme (h.step hs rfl rfl (by rintro _ ⟨⟩) (by rintro ⟨⟩)
      (.of_plain rfl (by simp [StoreTask.deletion?]) (by simp) (by simp)))
  unfold EpochContentStore.resumeRelease
  cases step with
  | queued ticket =>
    dsimp only
    split
    · rename_i hturn
      split
      · exact hsettle (.refl s) _
      · rename_i entry hget
        split
        · refine hs.goOn hme (SameBooks.step (.trans (.setEntry ?_) (.takeTicket _)) hs rfl rfl
            (fun key hkey => .inr ⟨ticket, ?_⟩) (by simp [StoreTask.inTombstoneSection,
              StoreTask.deletion?]) (.of_plain rfl (by simp [StoreTask.deletion?]) (by simp)
                (by simp)))
          · cases token.kind <;> rfl
          · obtain rfl : token.key = key := by simpa [StoreTask.digestSection?] using hkey
            exact hturn
        · refine hsettle (.setEntry ?_) _
          cases token.kind <;> rfl
    · exact hs
  | deleting entry dstep =>
    have hdeletes := s.resumeDelete_deletes token.key entry dstep outcome
    dsimp only
    split <;> rename_i heq <;> rw [heq] at hdeletes
    · rename_i after next
      refine hs.goOn hme (hdeletes.step hs hme rfl rfl rfl (fun key hkey => hkey) ?_ ?_ rfl
        (by simp) (by simp))
      · rintro dstep' ⟨⟩
        rfl
      · exact fun hne => absurd rfl (hne next)
    · exact hs.goOn hme (hdeletes.step hs hme rfl rfl rfl (by rintro _ ⟨⟩)
        (by rintro _ ⟨⟩) (fun _ => rfl) rfl (by simp)
        (by simp))
    · exact hs.goOn hme (hdeletes.step hs hme rfl rfl rfl (by rintro _ ⟨⟩)
        (by rintro _ ⟨⟩) (fun _ => rfl) rfl (by simp)
        (by simp))
  | recovering entry code =>
    dsimp only
    split
    · have hbooks : SameBooks s (s.setEntry entry
          { (s.heap entry).increment token.kind with deleting := false }) :=
        .setEntry (by cases token.kind <;> rfl)
      refine hsettle ?_ _
      exact { hbooks with }
    · exact hsettle (.refl s) _
  | settled result => exact hs

theorem Quota.resumeGc (hs : s.Quota limits) {candidates : List (ContentKey × ℕ)}
    {freed : FreedContent} {step : GcStep} (hme : s.tasks[me]? = some (.gc candidates freed step))
    (outcome : FileOutcome) : (s.resumeGc me candidates freed step outcome).Quota limits := by
  have hplain : ∀ {candidates' freed' step'},
      (∀ key entry, step' ≠ .deleting key entry .moving) →
      s.QuotaFacts me (.gc candidates' freed' step') := fun {_ _ step'} hne =>
    .of_plain rfl (fun key entry heq => by
      cases step' <;> simp only [StoreTask.deletion?, reduceCtorEq, Option.some.injEq,
        Prod.mk.injEq] at heq
      obtain ⟨rfl, rfl, rfl⟩ := heq
      exact hne _ _ rfl) (by simp) (by simp)
  have hout : ∀ {after} {candidates' freed' step'}, SameBooks s after →
      (∀ key entry dstep, step' ≠ .deleting key entry dstep) →
      (StoreTask.gc candidates' freed' step').inTombstoneSection = false →
      (after.withTask me (.gc candidates' freed' step')).Quota limits := by
    intro after candidates' freed' step' h hne hsection
    refine hs.goOn hme (h.step hs rfl rfl (fun key hkey => ?_) (by simp [hsection])
      (hplain fun key entry => hne key entry _))
    cases step' <;> simp only [StoreTask.digestSection?, reduceCtorEq] at hkey
    exact absurd rfl (hne _ _ _)
  have hnone : ∀ {candidates' freed' roots names} key,
      (StoreTask.gc candidates' freed' (cleaningStep roots names)).digestSection? = some key →
      (StoreTask.gc candidates freed step).digestSection? = some key ∨
        ∃ ticket, s.digestTurn key ticket = true := by
    intro candidates' freed' roots names key hkey
    unfold cleaningStep at hkey
    split at hkey <;> simp [StoreTask.digestSection?] at hkey
  have hclean : ∀ {roots names} key entry, cleaningStep roots names ≠
      .deleting key entry .moving := by
    intro roots names key entry
    unfold cleaningStep
    split <;> simp
  unfold EpochContentStore.resumeGc
  cases step with
  | queued ticket =>
    dsimp only
    split
    · rename_i hturn
      exact hs.goOn hme ((SameBooks.refl s).step hs rfl rfl (fun _ heq => by cases heq)
        (fun _ => .inr ⟨ticket, hturn⟩) (hplain (by simp)))
    · exact hs
  | cleaning roots names =>
    cases names with
    | cons name names =>
      have hremoves := s.removeTrackedTombstone_removes name outcome
      dsimp only
      split <;> rename_i heq <;> rw [heq] at hremoves
      · exact hs.goOn hme (hremoves.step hs rfl rfl hnone (fun _ => .inl rfl) (hplain hclean))
      · exact hs.goOn hme (hremoves.step hs rfl rfl (by rintro _ ⟨⟩) (by rintro ⟨⟩)
          (hplain (by simp)))
    | nil =>
      cases roots with
      | nil => exact hout (.refl s) (by simp) rfl
      | cons root roots =>
        dsimp only
        split
        · exact hout (.refl s) (by simp) rfl
        · exact hs.goOn hme
            ((SameBooks.refl s).step hs rfl rfl hnone (fun _ => .inl rfl) (hplain hclean))
  | next =>
    dsimp only
    split
    · exact hout (.refl s) (by simp) rfl
    · exact hout (.takeTicket s) (by simp) rfl
  | awaiting key entry ticket =>
    dsimp only
    split
    · rename_i hturn
      split
      · refine hs.goOn hme (SameBooks.step (.trans (.setEntry ?_) (.takeTicket _)) hs rfl rfl
          (fun key' hkey => .inr ⟨ticket, ?_⟩) (by simp [StoreTask.inTombstoneSection,
            StoreTask.deletion?]) (hplain (by simp)))
        · rfl
        · obtain rfl : key = key' := by simpa [StoreTask.digestSection?] using hkey
          exact hturn
      · exact hout (.refl s) (by simp) rfl
    · exact hs
  | deleting key entry dstep =>
    have hdeletes := s.resumeDelete_deletes key entry dstep outcome
    dsimp only
    split <;> rename_i heq <;> rw [heq] at hdeletes
    · rename_i after next
      refine hs.goOn hme (hdeletes.step hs hme rfl rfl rfl (fun key hkey => hkey) ?_ ?_ rfl
        (by simp) (by simp))
      · rintro dstep' ⟨⟩
        rfl
      · exact fun hne => absurd rfl (hne next)
    · exact hs.goOn hme (hdeletes.step hs hme rfl rfl rfl (by rintro _ ⟨⟩)
        (by rintro _ ⟨⟩) (fun _ => rfl) rfl (by simp)
        (by simp))
    · exact hs.goOn hme (hdeletes.step hs hme rfl rfl rfl (by rintro _ ⟨⟩)
        (by rintro _ ⟨⟩) (fun _ => rfl) rfl (by simp)
        (by simp))
  | recovering key entry code =>
    dsimp only
    split
    · refine hout (.setEntry ?_) (by simp) rfl
      rfl
    · exact hout (.refl s) (by simp) rfl
  | settled result => exact hs

theorem nextUnpublished_cases (s : EpochContentStore) (me : ℕ) (rest : List (ContentKey × ℕ)) :
    ∃ after step, SameBooks s after ∧ s.nextUnpublished me rest =
      after.withTask me (.shutdown step) ∧
      (StoreTask.shutdown step).inTombstoneSection = false := by
  unfold nextUnpublished
  split
  · exact ⟨s, _, .refl s, rfl, rfl⟩
  · exact ⟨s.takeTicket, _, .takeTicket s, rfl, rfl⟩

theorem QuotaStep.trans {after' : EpochContentStore} (h : QuotaStep s after me task task')
    (h' : SameBooks after after') : QuotaStep s after' me task task' where
  tasks := h'.tasks.trans h.tasks
  limits := h'.limits.trans h.limits
  closed := h'.closed.trans h.closed
  bytes := by
    rw [h'.bytes, h.bytes, h'.entryBytes_eq, tombstoneBytes, tombstoneBytes, h'.tombstones]
  items := by
    rw [h'.items, h.items, entryItems, entryItems, tombstoneItems, tombstoneItems, h'.entries,
      h'.tombstones]
  reservedBytes := by rw [h'.reservedBytes, h.reservedBytes]
  reservedItems := by rw [h'.reservedItems, h.reservedItems]
  reservedItems_le := h.reservedItems_le
  bytes_le := by
    rw [h'.bytes, h'.reservedBytes]
    exact h.bytes_le
  items_le := by
    rw [h'.items, h'.reservedItems]
    exact h.items_le
  digest := h.digest
  tombstone := h.tombstone
  entry_lt := by
    rw [h'.entries, h'.nextEntry]
    exact h.entry_lt
  tombstone_lt := by
    rw [h'.tombstones, h'.nextTombstone]
    exact h.tombstone_lt
  inserts := fun key hkey => h'.entries ▸ h.inserts key hkey
  erases := h'.entries ▸ h.erases
  settles := h'.settlements ▸ h.settles
  facts := h'.facts h.facts

theorem Quota.reservedItemsOf_of_settled (hs : s.Quota limits) (hme : s.tasks[me]? = some task)
    (hsettled : task.isSettled = true) : task.reservedItemsOf = 0 := by
  cases task with
  | stage input reservation step =>
    have hfacts := (hs.facts me _ hme).stage input reservation step rfl
    cases step <;> simp only [StoreTask.isSettled, Bool.false_eq_true] at hsettled
    have := hfacts.1
    simp [StoreTask.reservedItemsOf, this]
  | _ => rfl

theorem Quota.resumeShutdown (hs : s.Quota limits) {step : ShutdownStep}
    (hme : s.tasks[me]? = some (.shutdown step)) (outcome : FileOutcome) :
    (s.resumeShutdown me step outcome).Quota limits := by
  have hclosing := (hs.facts me _ hme).closing step rfl
  have hfacts : ∀ {step'}, s.reservedItems = 0 →
      (StoreTask.shutdown step').inTombstoneSection = false →
      s.QuotaFacts me (.shutdown step') := by
    refine fun hzero hout => ⟨nofun, fun key entry hkey => ?_, nofun, fun _ _ =>
      ⟨hclosing.1, fun _ => hzero⟩⟩
    rw [StoreTask.inTombstoneSection_of_moving hkey] at hout
    cases hout
  unfold EpochContentStore.resumeShutdown
  cases step with
  | waiting =>
    dsimp only
    split
    · rename_i hsettled
      obtain ⟨after, step', hbooks, heq, hout⟩ := s.nextUnpublished_cases me s.entries.entries
      rw [heq]
      refine hs.goOn hme (hbooks.step hs rfl rfl nofun (by simp [hout]) (hfacts ?_ hout))
      rw [hs.reservedItems, tally_eq_zero]
      · rfl
      · intro other hother
        obtain ⟨j, hj⟩ := List.mem_iff_getElem?.mp hother
        rcases Nat.lt_trichotomy j me with hlt | rfl | hgt
        · have htake : other ∈ s.tasks.take me := by
            refine List.mem_iff_getElem?.mpr ⟨j, ?_⟩
            rw [List.getElem?_take_of_lt hlt, hj]
          exact hs.reservedItemsOf_of_settled hj (List.all_eq_true.mp hsettled other htake)
        · rw [hme] at hj
          cases hj
          rfl
        · exact hs.late me j _ other hme rfl hgt hj
    · exact hs
  | deleting key entry dstep rest =>
    have hzero := hclosing.2 (by simp)
    have hdeletes := s.resumeDelete_deletes key entry dstep outcome
    dsimp only
    split <;> rename_i heq <;> rw [heq] at hdeletes
    · rename_i after next
      refine hs.goOn hme (hdeletes.step hs hme rfl rfl rfl nofun ?_ ?_ rfl (by simp)
        fun _ _ => ⟨hclosing.1, fun _ => hzero⟩)
      · rintro dstep' ⟨⟩
        rfl
      · exact fun hne => absurd rfl (hne next)
    all_goals
      rename_i after _
      obtain ⟨after', step', hbooks, heq', hout⟩ := after.nextUnpublished_cases me rest
      rw [heq']
      exact hs.goOn hme (QuotaStep.trans (hdeletes.step hs hme rfl rfl rfl (by rintro _ ⟨⟩)
        (by rintro _ ⟨⟩)
        (fun _ => hout) rfl (by simp) fun _ _ => ⟨hclosing.1, fun _ => hzero⟩) hbooks)
  | unlinking =>
    have hzero := hclosing.2 (by simp)
    have hbytes : s.reservedBytes = 0 := by
      have hitems := hs.reservedItems
      rw [hs.reservedBytes, tally_eq_zero]
      · rfl
      · intro other hother
        have := eq_zero_of_tally (w := StoreTask.reservedItemsOf) (by omega) other hother
        cases other <;> try rfl
        simp_all [StoreTask.reservedItemsOf, StoreTask.reservedBytesOf]
    refine hs.goOn hme (SameBooks.step ?_ hs rfl rfl (by rintro _ ⟨⟩) (by rintro ⟨⟩)
      (hfacts hzero rfl))
    exact { SameBooks.refl s with reservedBytes := hbytes.symm, reservedItems := hzero.symm }
  | settled => exact hs

/-! ## Stages -/

section Stages

variable {input : EpochContentPutInput} {reservation : Reservation} {step step' : StageStep}

theorem QuotaFacts.of_stage
    (hinserting : ∀ key, (StoreTask.stage input reservation step).inserting? = some key →
      s.entries.get? key = none)
    (hfacts : s.StageFacts me input reservation step) :
    s.QuotaFacts me (.stage input reservation step) := by
  refine ⟨hinserting, fun key entry hkey => ?_, fun input' reservation' step' heq => ?_, nofun⟩
  · simp [StoreTask.deletion?] at hkey
  · cases heq
    exact hfacts

theorem readSource_fits {outcome : FileOutcome} {ref : EpochStoredContentRef}
    (h : s.readSource input outcome = .ok ref) :
    ref.byteLength ≤ input.expectedByteLength.getD (s.blobLimit input.contentNamespace) := by
  unfold readSource at h
  split at h
  · cases h
  · split at h
    · cases h
    · rename_i hexpected
      split at h
      · cases h
      · rename_i hlimit
        have hlength : ref.byteLength = input.byteLength := by
          split at h <;> try cases h
          split at h <;> try cases h
          split at h <;> cases h
          unfold stagedRef
          split <;> rfl
        rw [hlength]
        cases hdeclared : input.expectedByteLength with
        | none =>
          simp only [Option.getD_none]
          omega
        | some length =>
          simp only [hdeclared, Option.any_some, decide_eq_true_eq] at hexpected
          simp only [Option.getD_some]
          omega

theorem Quota.rollbackReservation (hs : s.Quota limits) (hactive : reservation.active = true)
    (hme : me ∉ s.settledTasks)
    (hout : (StoreTask.stage input { reservation with active := false } step').digestSection? =
      none)
    (hinserting :
      (StoreTask.stage input { reservation with active := false } step').inserting? = none)
    (hfacts : (s.rollbackReservation me reservation).StageFacts me input
      { reservation with active := false } step') :
    QuotaStep s (s.rollbackReservation me reservation) me (.stage input reservation step)
      (.stage input { reservation with active := false } step') := by
  have hafter : s.rollbackReservation me reservation =
      { s with
        reservedBytes := s.reservedBytes - reservation.bytes
        reservedItems := s.reservedItems - 1
        settlements := s.settlements ++ [(me, .rolledBack)] } := by
    simp [EpochContentStore.rollbackReservation, hactive]
  rw [hafter] at hfacts ⊢
  refine ⟨rfl, rfl, rfl, hs.bytes, hs.items, ?_, ?_, ?_, ?_, ?_, fun key hkey => ?_, nofun,
    hs.entry_lt, hs.tombstone_lt, fun key hkey => .inl hkey, .inr fun key entry hkey => hkey,
    .inr ⟨hme, _, rfl⟩, .of_stage (fun key hkey => ?_) hfacts⟩
  · simp [StoreTask.reservedBytesOf, hactive]
  · simp [StoreTask.reservedItemsOf, hactive]
  · simp [StoreTask.reservedItemsOf]
  · dsimp only
    omega
  · dsimp only
    omega
  · rw [hout] at hkey
    cases hkey
  · rw [hinserting] at hkey
    cases hkey

theorem Quota.addEntry_entryBytes (hs : s.Quota limits) {object : ContentEntry}
    (hget : s.entries.get? (contentKey object.ref) = none) :
    (s.addEntry object).entryBytes = s.entryBytes + object.ref.byteLength := by
  simp only [entryBytes, addEntry, setEntry, InsertionMap.total_insert hget, Function.update_self]
  congr 1
  refine InsertionMap.total_congr fun key entry hentry => ?_
  rw [Function.update_of_ne (Nat.ne_of_lt (hs.entry_lt key entry hentry))]

theorem Quota.addEntry_entry_lt (hs : s.Quota limits) {object : ContentEntry} {key : ContentKey}
    {entry : ℕ} (hget : (s.addEntry object).entries.get? key = some entry) :
    entry < s.nextEntry + 1 := by
  simp only [addEntry, InsertionMap.get?_insert] at hget
  split at hget
  · cases hget
    omega
  · exact Nat.lt_succ_of_lt (hs.entry_lt key entry hget)

theorem Quota.commitEntry (hs : s.Quota limits) {ref : EpochStoredContentRef}
    (hme : s.tasks[me]? = some (.stage input reservation (.writing ref))) :
    (s.commitEntry me input reservation ref).Quota limits := by
  obtain ⟨hnot, hactive, hfits⟩ := (hs.facts me _ hme).stage input reservation _ rfl
  have hget : s.entries.get? (contentKey ref) = none := (hs.facts me _ hme).inserting _ rfl
  have hbytes : (s.addEntry { ref }).entryBytes = s.entryBytes + ref.byteLength :=
    hs.addEntry_entryBytes hget
  have hitems : (s.addEntry { ref }).entryItems = s.entryItems + 1 := by
    simp only [entryItems, addEntry, InsertionMap.total_insert (v := s.nextEntry) hget]
  have htotal := hs.bytes
  have hnumber := hs.items
  unfold EpochContentStore.commitEntry
  simp only [commitReservation, hactive, Bool.not_true, Bool.false_eq_true, if_false]
  refine hs.goOn hme (QuotaStep.trans ?_ (SameBooks.createHold _ s.nextEntry))
  refine ⟨rfl, rfl, rfl, ?_, ?_, ?_, ?_, ?_, ?_, ?_, (fun _ heq => by cases heq),
    (fun heq => by cases heq), fun key entry hkey => hs.addEntry_entry_lt hkey, hs.tombstone_lt,
    fun key hkey => ?_,
    .inr fun key entry hkey => ?_, .inr ⟨hnot, _, rfl⟩, .of_stage (fun _ heq => by cases heq) ?_⟩
  · change s.bytes + ref.byteLength = ((s.addEntry { ref }).entryBytes + s.tombstoneBytes : ℕ)
    rw [hbytes]
    omega
  · change s.items + 1 = ((s.addEntry { ref }).entryItems + s.tombstoneItems : ℕ)
    rw [hitems]
    omega
  · simp [StoreTask.reservedBytesOf, hactive, addEntry, setEntry]
  · simp [StoreTask.reservedItemsOf, hactive, addEntry, setEntry]
  · simp [StoreTask.reservedItemsOf]
  · simp only [addEntry, setEntry]
    omega
  · simp only [addEntry, setEntry]
    omega
  · simp only [addEntry, InsertionMap.get?_insert]
    split
    · rename_i heq
      exact .inr (heq ▸ rfl)
    · exact .inl hkey
  · simp only [addEntry, InsertionMap.get?_insert]
    split
    · rename_i heq
      rw [heq] at hkey
      simp [hget] at hkey
    · exact hkey
  · exact ⟨rfl, by simp [StagedEpochContent.settlement]⟩

theorem Quota.resumeStage (hs : s.Quota limits)
    (hme : s.tasks[me]? = some (.stage input reservation step)) (outcome : FileOutcome) :
    (s.resumeStage me input reservation step outcome).Quota limits := by
  have hfacts := (hs.facts me _ hme).stage input reservation step rfl
  have hinserting := (hs.facts me _ hme).inserting
  have hquiet : ∀ {after} {step'}, SameBooks s after →
      (∀ key, (StoreTask.stage input reservation step').digestSection? = some key →
        (StoreTask.stage input reservation step).digestSection? = some key ∨
          ∃ ticket, s.digestTurn key ticket = true) →
      (∀ key, (StoreTask.stage input reservation step').inserting? = some key →
        s.entries.get? key = none) →
      s.StageFacts me input reservation step' →
      (after.withTask me (.stage input reservation step')).Quota limits :=
    fun h hdigest hnone hstage =>
      hs.goOn hme (h.step hs rfl rfl hdigest nofun (.of_stage hnone hstage))
  have hfail : ∀ {after}, SameBooks s after → me ∉ s.settledTasks → reservation.active = true →
      ∀ code, (after.withTask me (.stage input reservation (.settling (.error code)))).Quota
        limits :=
    fun h hnot hactive code => hquiet h nofun nofun ⟨hnot, hactive⟩
  have hdisk : ∀ directories, SameBooks s { s with directories } := fun _ =>
    { SameBooks.refl s with }
  unfold EpochContentStore.resumeStage
  dsimp only
  split
  · rename_i outcome
    obtain ⟨hnot, hactive, hbytes⟩ := hfacts
    split
    · exact hfail (.refl s) hnot hactive _
    · rename_i ref hread
      refine hquiet (.takeTicket s) nofun nofun ⟨hnot, hactive, ?_⟩
      rw [hbytes]
      exact readSource_fits hread
  · rename_i ref ticket outcome
    obtain ⟨hnot, hactive, hfits⟩ := hfacts
    split
    · rename_i hturn
      unfold enterCommit
      split
      · exact hfail (.refl s) hnot hactive _
      · split
        · rename_i hget
          exact hquiet (.refl s) (by rintro _ ⟨⟩; exact .inr ⟨_, hturn⟩)
            (by rintro _ ⟨⟩; exact hget) ⟨hnot, hactive, hfits⟩
        · split
          · exact hfail (.refl s) hnot hactive _
          · exact hquiet (.refl s) (by rintro _ ⟨⟩; exact .inr ⟨_, hturn⟩) nofun
              ⟨hnot, hactive, hfits⟩
    · exact hs
  · exact hfail (.refl s) hfacts.1 hfacts.2.1 _
  · rename_i ref entry
    refine hs.goOn hme (QuotaStep.trans
      (hs.rollbackReservation hfacts.2.1 hfacts.1 rfl rfl ⟨rfl, ?_⟩) (.createHold _ entry))
    simp [EpochContentStore.rollbackReservation, hfacts.2.1, StagedEpochContent.settlement]
  · exact hfail (.refl s) hfacts.1 hfacts.2.1 _
  · rename_i ref
    split
    · exact hfail (.refl s) hfacts.1 hfacts.2.1 _
    · exact hquiet (.refl s) (fun key hkey => .inl hkey) hinserting hfacts
  · exact hfail (.refl s) hfacts.1 hfacts.2.1 _
  · rename_i ref
    exact hquiet (hdisk _) (fun key hkey => .inl hkey) hinserting hfacts
  · exact hquiet (.refl s) (fun key hkey => .inl hkey) hinserting ⟨hfacts.1, hfacts.2.1⟩
  · exact hs.commitEntry hme
  · split
    · exact hfail (hdisk _) hfacts.1 hfacts.2 _
    · exact hfail (.refl s) hfacts.1 hfacts.2 _
  · rename_i result
    cases result with
    | error code =>
      refine hs.goOn hme (hs.rollbackReservation hfacts.2 hfacts.1 rfl rfl ⟨rfl, ?_⟩)
      simp [EpochContentStore.rollbackReservation, hfacts.2, settlementOf]
    | ok staged =>
      have hsame : s.rollbackReservation me reservation = s := by
        simp [EpochContentStore.rollbackReservation, hfacts.1]
      have hinactive : { reservation with active := false } = reservation := by
        rw [← hfacts.1]
      rw [hsame, hinactive]
      exact hquiet (.refl s) nofun nofun hfacts
  · exact hs

end Stages

/-! ## Calls -/

theorem getElem?_spawn {i : ℕ} {other : StoreTask} (h : (s.spawn task).tasks[i]? = some other) :
    s.tasks[i]? = some other ∨ i = s.tasks.length ∧ other = task := by
  simp only [EpochContentStore.spawn, List.getElem?_append] at h
  split at h
  · exact .inl h
  · obtain ⟨hi, rfl⟩ := List.getElem?_eq_some_iff.mp h
    simp only [List.length_singleton] at hi
    refine .inr ⟨by omega, ?_⟩
    simp [show i - s.tasks.length = 0 by omega]

/-- The invariant of the totals when a task starts that has no reservation. -/
theorem Quota.spawn (hs : s.Quota limits) (h : SameBooks s after)
    (hdigest : task.digestSection? = none) (htombstone : task.inTombstoneSection = false)
    (hbytes : task.reservedBytesOf = 0) (hitems : task.reservedItemsOf = 0)
    (hfacts : s.QuotaFacts s.tasks.length task) : (after.spawn task).Quota limits := by
  have hget : ∀ {i other}, (after.spawn task).tasks[i]? = some other →
      s.tasks[i]? = some other ∨ i = s.tasks.length ∧ other = task := fun {i other} hother =>
    h.tasks ▸ getElem?_spawn hother
  refine ⟨h.limits.trans hs.limits_eq, ?_, ?_, ?_, ?_, ?_, ?_, fun key => ?_, ?_, ?_, ?_,
    fun i other hother => ?_,
    fun i j first later hfirst hshutdown hij hlater => ?_, ?_, fun i hi => ?_⟩
  · change after.bytes = (after.entryBytes + after.tombstoneBytes : ℕ)
    rw [h.bytes, h.entryBytes_eq, tombstoneBytes, h.tombstones]
    exact hs.bytes
  · change after.items = (after.entryItems + after.tombstoneItems : ℕ)
    rw [h.items, entryItems, tombstoneItems, h.entries, h.tombstones]
    exact hs.items
  · have := hs.reservedBytes
    simp only [EpochContentStore.spawn, h.tasks, h.reservedBytes, tally_append, tally_cons,
      tally_nil, hbytes]
    omega
  · have := hs.reservedItems
    simp only [EpochContentStore.spawn, h.tasks, h.reservedItems, tally_append, tally_cons,
      tally_nil, hitems]
    omega
  · have := hs.bytes_le
    simp only [EpochContentStore.spawn, h.bytes, h.reservedBytes]
    omega
  · have := hs.items_le
    simp only [EpochContentStore.spawn, h.items, h.reservedItems]
    omega
  · have := hs.digest key
    simp only [EpochContentStore.spawn, h.tasks, tally_append, tally_cons, tally_nil,
      StoreTask.digestWeight, hdigest, reduceCtorEq, if_false]
    omega
  · have := hs.tombstone
    simp only [EpochContentStore.spawn, h.tasks, tally_append, tally_cons, tally_nil,
      StoreTask.tombstoneWeight, htombstone, Bool.false_eq_true, if_false]
    omega
  · simpa only [EpochContentStore.spawn, h.entries, h.nextEntry] using hs.entry_lt
  · simpa only [EpochContentStore.spawn, h.tombstones, h.nextTombstone] using hs.tombstone_lt
  · have hknown : s.QuotaFacts i other := by
      rcases hget hother with hold | ⟨rfl, rfl⟩
      · exact hs.facts i other hold
      · exact hfacts
    have hkept := h.facts hknown
    exact ⟨hkept.inserting, hkept.moving, hkept.stage, hkept.closing⟩
  · rcases hget hlater with hold | ⟨-, rfl⟩
    · rcases hget hfirst with hold' | ⟨rfl, rfl⟩
      · exact hs.late i j first later hold' hshutdown hij hold
      · have := (List.getElem?_eq_some_iff.mp hold).1
        omega
    · exact hitems
  · simpa only [EpochContentStore.spawn, settledTasks, h.settlements] using hs.settled_nodup
  · simp only [EpochContentStore.spawn, settledTasks, h.settlements] at hi
    have := hs.settled_lt i hi
    simp only [EpochContentStore.spawn, h.tasks, List.length_append]
    omega

theorem Quota.reject (hs : s.Quota limits) (code : EpochContentStoreErrorCode) :
    (s.spawn (.rejected code)).Quota limits :=
  hs.spawn (.refl s) rfl rfl rfl rfl
    (.of_plain rfl (by simp [StoreTask.deletion?]) (by simp) (by simp))

theorem reserve_ok {bytes : ℕ} (h : s.reserve bytes = .ok after) :
    s.bytes + s.reservedBytes + bytes ≤ s.limits.maxCacheBytes ∧
      s.items + s.reservedItems + 1 ≤ s.limits.maxCacheItems ∧
      after = { s with
        reservedBytes := s.reservedBytes + bytes
        reservedItems := s.reservedItems + 1 } := by
  unfold reserve at h
  split at h
  · cases h
  · split at h
    · cases h
    · cases h
      exact ⟨by omega, by omega, rfl⟩

theorem Quota.stage (hs : s.Quota limits) (input : EpochContentPutInput) :
    (s.stage input).Quota limits := by
  unfold EpochContentStore.stage
  split
  · exact hs.reject _
  · rename_i hopen
    split
    · exact hs.reject _
    · dsimp only
      split
      · exact hs.reject _
      · rename_i reserved hreserve
        obtain ⟨hfitBytes, hfitItems, rfl⟩ := reserve_ok hreserve
        have hfresh : s.tasks.length ∉ s.settledTasks := fun hmem =>
          Nat.lt_irrefl _ (hs.settled_lt _ hmem)
        have hlimits := hs.limits_eq
        refine ⟨hs.limits_eq, hs.bytes, hs.items, ?_, ?_, ?_, ?_, fun key => ?_, ?_, hs.entry_lt,
          hs.tombstone_lt, fun i other hother => ?_,
          fun i j first later hfirst hshutdown hij hlater => ?_, hs.settled_nodup, fun i hi => ?_⟩
        · have := hs.reservedBytes
          simp only [EpochContentStore.spawn, tally_append, tally_cons, tally_nil,
            StoreTask.reservedBytesOf, if_true]
          omega
        · have := hs.reservedItems
          simp only [EpochContentStore.spawn, tally_append, tally_cons, tally_nil,
            StoreTask.reservedItemsOf, if_true]
          omega
        · simp only [EpochContentStore.spawn, ← hlimits]
          omega
        · simp only [EpochContentStore.spawn, ← hlimits]
          omega
        · have := hs.digest key
          simpa [EpochContentStore.spawn, StoreTask.digestWeight, StoreTask.digestSection?]
            using this
        · simpa [EpochContentStore.spawn, StoreTask.tombstoneWeight,
            StoreTask.inTombstoneSection, StoreTask.deletion?] using hs.tombstone
        · rcases getElem?_spawn hother with hold | ⟨rfl, rfl⟩
          · have hfacts := hs.facts i other hold
            exact ⟨hfacts.inserting, hfacts.moving, hfacts.stage, fun step heq =>
              absurd (hfacts.closing step heq).1 hopen⟩
          · exact .of_stage (fun _ heq => by cases heq) ⟨hfresh, rfl, rfl⟩
        · rcases getElem?_spawn hfirst with hold | ⟨-, rfl⟩
          · cases first with
            | shutdown step => exact absurd ((hs.facts i _ hold).closing step rfl).1 hopen
            | _ => cases hshutdown
          · cases hshutdown
        · have := hs.settled_lt i hi
          simp only [EpochContentStore.spawn, List.length_append]
          omega

theorem Quota.publish (hs : s.Quota limits) (handle : ℕ) : (s.publish handle).Quota limits := by
  unfold EpochContentStore.publish
  split
  · exact hs.reject _
  · split
    · exact hs.reject _
    · split
      · exact hs.spawn (.takeTicket s) rfl rfl rfl rfl
          (.of_plain rfl (by simp [StoreTask.deletion?]) (by simp) (by simp))
      · exact hs.reject _

theorem Quota.beginPin (hs : s.Quota limits) (ref : EpochStoredContentRef) :
    (s.beginPin ref).Quota limits := by
  unfold EpochContentStore.beginPin
  split
  · exact hs.reject _
  · refine hs.spawn (.setEntry ?_) rfl rfl rfl rfl
      (.of_plain rfl (by simp [StoreTask.deletion?]) (by simp) (by simp))
    rfl

theorem Quota.pin (hs : s.Quota limits) (ref : EpochStoredContentRef) :
    (s.pin ref).Quota limits := by
  unfold EpochContentStore.pin
  split
  · exact hs.reject _
  · split
    · exact hs.reject _
    · exact hs.beginPin ref

theorem Quota.pinByDigest (hs : s.Quota limits) (contentNamespace : ContentNamespace)
    (digest : JsString) : (s.pinByDigest contentNamespace digest).Quota limits := by
  unfold EpochContentStore.pinByDigest
  repeat' split
  all_goals first | exact hs.reject _ | exact hs.beginPin _

theorem Quota.holdPublished (hs : s.Quota limits) (ref : EpochStoredContentRef) :
    (s.holdPublished ref).Quota limits := by
  unfold EpochContentStore.holdPublished
  split
  · exact hs.reject _
  · split
    · exact hs.reject _
    · exact hs.spawn (.takeTicket s) rfl rfl rfl rfl
        (.of_plain rfl (by simp [StoreTask.deletion?]) (by simp) (by simp))

theorem Quota.release (hs : s.Quota limits) (handle : ℕ) : (s.release handle).Quota limits := by
  unfold EpochContentStore.release
  split
  · exact hs
  · split
    · exact hs
    · rename_i token _ _
      exact hs.spawn { SameBooks.takeTicket s with } rfl rfl rfl rfl
        (.of_plain rfl (by simp [StoreTask.deletion?]) (by simp) (by simp))

theorem Quota.gc (hs : s.Quota limits) : s.gc.Quota limits := by
  unfold EpochContentStore.gc
  split
  · exact hs.reject _
  · exact hs.spawn (.takeTicket s) rfl rfl rfl rfl
      (.of_plain rfl (by simp [StoreTask.deletion?]) (by simp) (by simp))

theorem foldl_closeToken_sameBooks (tokens : List TokenState) (s : EpochContentStore) :
    SameBooks s (tokens.foldl closeToken s) := by
  induction tokens generalizing s with
  | nil => exact .refl s
  | cons token rest ih =>
    refine .trans ?_ (ih (s.closeToken token))
    unfold closeToken
    split
    · exact .refl s
    · split
      · exact .refl s
      · refine .setEntry ?_
        cases token.kind <;> rfl

theorem Quota.close (hs : s.Quota limits) : Quota { s with closed := true } limits where
  limits_eq := hs.limits_eq
  bytes := hs.bytes
  items := hs.items
  reservedBytes := hs.reservedBytes
  reservedItems := hs.reservedItems
  bytes_le := hs.bytes_le
  items_le := hs.items_le
  digest := hs.digest
  tombstone := hs.tombstone
  entry_lt := hs.entry_lt
  tombstone_lt := hs.tombstone_lt
  facts := fun i task htask =>
    have hfacts := hs.facts i task htask
    ⟨hfacts.inserting, hfacts.moving, hfacts.stage, fun step heq =>
      ⟨rfl, (hfacts.closing step heq).2⟩⟩
  late := hs.late
  settled_nodup := hs.settled_nodup
  settled_lt := hs.settled_lt

theorem Quota.shutdown (hs : s.Quota limits) : s.shutdown.Quota limits := by
  unfold EpochContentStore.shutdown
  split
  · exact hs
  · have hbooks := foldl_closeToken_sameBooks s.tokens s
    have hclosed : SameBooks { s with closed := true } s.closeTokens :=
      { hbooks with closed := rfl }
    refine Quota.spawn hs.close hclosed rfl rfl rfl rfl
      ⟨by rintro _ ⟨⟩, by rintro _ _ ⟨⟩, by rintro _ _ _ ⟨⟩, fun step heq => ⟨rfl, fun hstep => ?_⟩⟩
    cases heq
    exact absurd rfl hstep

theorem Quota.step (hs : s.Quota limits) (action : StoreAction) : (s.step action).Quota limits := by
  cases action with
  | stage input => exact hs.stage input
  | publish handle => exact hs.publish handle
  | pin ref => exact hs.pin ref
  | pinByDigest contentNamespace digest => exact hs.pinByDigest contentNamespace digest
  | holdPublished ref => exact hs.holdPublished ref
  | release handle => exact hs.release handle
  | gc => exact hs.gc
  | shutdown => exact hs.shutdown
  | resume me outcome =>
    simp only [EpochContentStore.step, EpochContentStore.resume]
    split
    · exact hs
    · exact hs
    · rename_i hme
      exact hs.resumeStage hme outcome
    · rename_i hme
      exact hs.resumePublish hme outcome
    · rename_i hme
      exact hs.resumePin hme outcome
    · rename_i hme
      exact hs.resumeHold hme outcome
    · rename_i hme
      exact hs.resumeRelease hme outcome
    · rename_i hme
      exact hs.resumeGc hme outcome
    · rename_i hme
      exact hs.resumeShutdown hme outcome

theorem Quota.run (hs : s.Quota limits) (actions : List StoreAction) :
    (runFrom EpochContentStore.step s actions).Quota limits := by
  induction actions generalizing s with
  | nil => exact hs
  | cons action rest ih => exact ih (hs.step action)

/-! ## The scan -/

/-- A store that is ready after the scan of its epoch. -/
structure Ready (s : EpochContentStore) : Prop where
  tasks : s.tasks = []
  tokens : s.tokens = []
  settlements : s.settlements = []
  tombstones : s.tombstones = .empty
  closed : s.closed = false
  reservedBytes : s.reservedBytes = 0
  reservedItems : s.reservedItems = 0
  bytes : s.bytes = (s.entryBytes : ℕ)
  items : s.items = (s.entryItems : ℕ)
  bytes_le : s.bytes ≤ s.limits.maxCacheBytes
  items_le : s.items ≤ s.limits.maxCacheItems
  entry_lt : ∀ key entry, s.entries.get? key = some entry → entry < s.nextEntry
  indexed : ∀ key entry, s.entries.get? key = some entry → key ∈ s.directories ∧
    s.heap entry = { ref := (s.heap entry).ref, published := true } ∧
      contentKey (s.heap entry).ref = key

theorem Ready.quota (hs : s.Ready) : s.Quota s.limits where
  limits_eq := rfl
  bytes := by simp [hs.bytes, tombstoneBytes, hs.tombstones]
  items := by simp [hs.items, tombstoneItems, hs.tombstones]
  reservedBytes := by simp [hs.reservedBytes, hs.tasks]
  reservedItems := by simp [hs.reservedItems, hs.tasks]
  bytes_le := by
    rw [hs.reservedBytes, Int.add_zero]
    exact hs.bytes_le
  items_le := by
    rw [hs.reservedItems, Int.add_zero]
    exact hs.items_le
  digest := by simp [hs.tasks]
  tombstone := by simp [hs.tasks]
  entry_lt := hs.entry_lt
  tombstone_lt := by simp [hs.tombstones]
  facts := by simp [hs.tasks]
  late := by simp [hs.tasks]
  settled_nodup := by simp [settledTasks, hs.settlements]
  settled_lt := by simp [settledTasks, hs.settlements]

theorem Ready.scanDirectory (hs : s.Ready) {directory : ContentKey × EpochStoredContentRef}
    (hfresh : s.entries.get? directory.1 = none) (h : s.scanDirectory directory = .ok after) :
    after.Ready ∧ after.limits = s.limits ∧
      ∀ key, key ≠ directory.1 → after.entries.get? key = s.entries.get? key := by
  obtain ⟨key, ref⟩ := directory
  simp only [EpochContentStore.scanDirectory] at h
  split at h
  · cases h
  · rename_i hidentity
    split at h
    · cases h
    · rename_i hlimits
      cases h
      obtain rfl : contentKey ref = key := by
        by_contra hne
        exact hidentity (.inr hne)
      have hbytes : (s.addEntry { ref, published := true }).entryBytes =
          s.entryBytes + ref.byteLength := hs.quota.addEntry_entryBytes hfresh
      have hitems : (s.addEntry { ref, published := true }).entryItems = s.entryItems + 1 := by
        simp only [entryItems, addEntry, InsertionMap.total_insert (v := s.nextEntry) hfresh]
      have htotal := hs.bytes
      have hnumber := hs.items
      refine ⟨⟨hs.tasks, hs.tokens, hs.settlements, hs.tombstones, hs.closed, hs.reservedBytes,
        hs.reservedItems, ?_, ?_, ?_, ?_, fun key entry hkey => hs.quota.addEntry_entry_lt hkey,
        fun key entry hkey => ?_⟩, rfl, fun key hne => ?_⟩
      · change s.bytes + ref.byteLength = ((s.addEntry { ref, published := true }).entryBytes : ℕ)
        rw [hbytes]
        omega
      · change s.items + 1 = ((s.addEntry { ref, published := true }).entryItems : ℕ)
        rw [hitems]
        omega
      · simp only [addEntry, setEntry]
        omega
      · simp only [addEntry, setEntry]
        omega
      · simp only [addEntry, setEntry, InsertionMap.get?_insert] at hkey ⊢
        split at hkey
        · rename_i heq
          cases hkey
          rw [Function.update_self, heq]
          exact ⟨by simp, rfl, rfl⟩
        · obtain ⟨hdirectory, hobject, hname⟩ := hs.indexed key entry hkey
          rw [Function.update_of_ne (Nat.ne_of_lt (hs.entry_lt key entry hkey))]
          exact ⟨List.mem_append_left _ hdirectory, hobject, hname⟩
      · simp only [addEntry, InsertionMap.get?_insert, if_neg hne]

theorem scanCurrentEpoch_ready {serverEpoch : JsString} {limits : EpochContentStoreLimits}
    {published : InsertionMap ContentKey EpochStoredContentRef}
    (h : scanCurrentEpoch serverEpoch limits published = .ok s) :
    s.Ready ∧ s.limits = limits := by
  obtain ⟨directories, hnodup⟩ := published
  simp only [scanCurrentEpoch] at h
  have hempty : Ready { serverEpoch, limits } := by
    refine ⟨rfl, rfl, rfl, rfl, rfl, rfl, rfl, rfl, rfl, ?_, ?_, nofun, nofun⟩ <;> simp
  have hfresh : ∀ directory ∈ directories,
      ({ serverEpoch, limits } : EpochContentStore).entries.get? directory.1 = none :=
      fun _ _ => rfl
  have hlimits : ({ serverEpoch, limits } : EpochContentStore).limits = limits := rfl
  generalize ({ serverEpoch, limits } : EpochContentStore) = initial at h hempty hfresh hlimits
  induction directories generalizing initial with
  | nil =>
    cases h
    exact ⟨hempty, hlimits⟩
  | cons directory rest ih =>
    rw [List.map_cons, List.nodup_cons] at hnodup
    rw [List.foldlM_cons] at h
    cases hscan : initial.scanDirectory directory with
    | error code =>
      rw [hscan] at h
      cases h
    | ok after =>
      rw [hscan] at h
      obtain ⟨hready, hsame, hothers⟩ :=
        hempty.scanDirectory (hfresh directory List.mem_cons_self) hscan
      refine ih hnodup.2 after h hready (fun other hother => ?_) (hsame.trans hlimits)
      have hne : other.1 ≠ directory.1 := fun heq =>
        hnodup.1 (heq ▸ List.mem_map.mpr ⟨other, hother, rfl⟩)
      rw [hothers _ hne]
      exact hfresh other (List.mem_cons_of_mem _ hother)

/-! ## The totals over whole runs -/

/-- The quota of the content store, in every run of any operations with any failures. The totals
are those of the live entries and the retained tombstones, and together with what is reserved they
stay within the limits. The reserved totals are those of the stages that still have their
reservation, so they are zero when no stage is in flight. A reservation is settled at most once,
and a stage that has ended committed it when it created an entry and rolled it back otherwise. -/
theorem quota_accounted {serverEpoch : JsString} {limits : EpochContentStoreLimits}
    {published : InsertionMap ContentKey EpochStoredContentRef} {ready : EpochContentStore}
    (h : scanCurrentEpoch serverEpoch limits published = .ok ready) (actions : List StoreAction) :
    let s := runFrom EpochContentStore.step ready actions
    (s.bytes = (s.entryBytes + s.tombstoneBytes : ℕ) ∧
      s.items = (s.entryItems + s.tombstoneItems : ℕ)) ∧
    (s.bytes + s.reservedBytes ≤ limits.maxCacheBytes ∧
      s.items + s.reservedItems ≤ limits.maxCacheItems) ∧
    (s.reservedBytes = (tally StoreTask.reservedBytesOf s.tasks : ℕ) ∧
      s.reservedItems = (tally StoreTask.reservedItemsOf s.tasks : ℕ)) ∧
    ((∀ input reservation step, .stage input reservation step ∉ s.inFlight) →
      s.reservedBytes = 0 ∧ s.reservedItems = 0) ∧
    s.settledTasks.Nodup ∧
    ∀ i input reservation step, s.tasks[i]? = some (.stage input reservation step) →
      (reservation.active = true ↔ i ∉ s.settledTasks) ∧
      ∀ result, step = .settled result →
        reservation.active = false ∧ (i, settlementOf result) ∈ s.settlements := by
  intro s
  obtain ⟨hready, hlimits⟩ := scanCurrentEpoch_ready h
  have hs : s.Quota limits := hlimits ▸ hready.quota.run actions
  refine ⟨⟨hs.bytes, hs.items⟩, ⟨hs.bytes_le, hs.items_le⟩,
    ⟨hs.reservedBytes, hs.reservedItems⟩, fun hnone => ?_, hs.settled_nodup,
    fun i input reservation step hi => ?_⟩
  · have hzero : ∀ task ∈ s.tasks, task.reservedItemsOf = 0 ∧ task.reservedBytesOf = 0 := by
      intro task htask
      obtain ⟨i, hi⟩ := List.mem_iff_getElem?.mp htask
      cases task with
      | stage input reservation step =>
        have hsettled : (StoreTask.stage input reservation step).isSettled = true := by
          by_contra hne
          exact hnone input reservation step (List.mem_filter.mpr ⟨htask, by simpa using hne⟩)
        have hitems := hs.reservedItemsOf_of_settled hi hsettled
        refine ⟨hitems, ?_⟩
        simp only [StoreTask.reservedItemsOf, StoreTask.reservedBytesOf] at hitems ⊢
        split at hitems <;> simp_all
      | _ => exact ⟨rfl, rfl⟩
    rw [hs.reservedBytes, hs.reservedItems, tally_eq_zero fun task htask => (hzero task htask).1,
      tally_eq_zero fun task htask => (hzero task htask).2]
    exact ⟨rfl, rfl⟩
  · have hfacts := (hs.facts i _ hi).stage input reservation step rfl
    have hmem : ∀ {settlement}, (i, settlement) ∈ s.settlements → i ∈ s.settledTasks :=
      fun hsettlement => List.mem_map.mpr ⟨_, hsettlement, rfl⟩
    have hopen : i ∉ s.settledTasks → reservation.active = true →
        (reservation.active = true ↔ i ∉ s.settledTasks) := fun hnot hactive =>
      ⟨fun _ => hnot, fun _ => hactive⟩
    have hclosed : ∀ {settlement}, reservation.active = false → (i, settlement) ∈ s.settlements →
        (reservation.active = true ↔ i ∉ s.settledTasks) := fun hinactive hsettlement =>
      ⟨fun hactive => by simp [hinactive] at hactive, fun hnot => absurd (hmem hsettlement) hnot⟩
    cases step with
    | settled result =>
      refine ⟨hclosed hfacts.1 hfacts.2, ?_⟩
      rintro result' ⟨⟩
      exact hfacts
    | settling result =>
      cases result with
      | error code => exact ⟨hopen hfacts.1 hfacts.2, by rintro _ ⟨⟩⟩
      | ok staged => exact ⟨hclosed hfacts.1 hfacts.2, by rintro _ ⟨⟩⟩
    | removingDirectory ref code => exact ⟨hopen hfacts.1 hfacts.2, by rintro _ ⟨⟩⟩
    | _ => exact ⟨hopen hfacts.1 hfacts.2.1, by rintro _ ⟨⟩⟩

/-- Limits for the sample run. -/
def sampleLimits : EpochContentStoreLimits := ⟨10, 10, 20, 3⟩

/-- A new text for the sample run. -/
def sampleInput : EpochContentPutInput where
  contentNamespace := .utf8
  sha256 := js "0123456789abcdef0123456789abcdef0123456789abcdef0123456789abcdef"
  byteLength := 4

/-- A text is staged, its only hold is released, and the tombstone cannot be removed. -/
def sampleRun : List StoreAction :=
  .stage sampleInput :: List.replicate 6 (.resume 0 .ok) ++
    [.release 0, .resume 1 .ok, .resume 1 .ok, .resume 1 .ok,
      .resume 1 (.failed .ioFailure false), .resume 1 .ok]

theorem sampleScan : scanCurrentEpoch (js "epoch") sampleLimits .empty =
    .ok { serverEpoch := js "epoch", limits := sampleLimits } :=
  rfl

/-- The bytes of a tombstone that cannot be removed stay in the total. -/
theorem quota_accounted_retained :
    let s := runFrom EpochContentStore.step
      { serverEpoch := js "epoch", limits := sampleLimits } sampleRun
    s.bytes = (s.entryBytes + s.tombstoneBytes : ℕ) ∧ s.entryBytes = 0 ∧ s.tombstoneBytes = 4 :=
  ⟨(quota_accounted sampleScan sampleRun).1.1, by decide +kernel,
    by decide +kernel⟩

end EpochContentStore

end PiAgentWeb
