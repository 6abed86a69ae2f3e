import PiAgentWeb.Server.EpochContentStoreQuotaRuns
import PiAgentWeb.Server.EpochContentStoreSafety

/-!
# The safety of the content store over whole runs

Every operation but the shutdown keeps the invariant of the entries and the handles. So in every
run the entry of an active handle is indexed and on disk, and between operations the counts are
those of the active handles and an entry that is not published has a hold.
-/

namespace PiAgentWeb

namespace EpochContentStore

variable {s after : EpochContentStore} {limits : EpochContentStoreLimits} {me : ℕ}
  {task task' : StoreTask}

/-! ## Holds -/

variable {entry : ℕ} {ref : EpochStoredContentRef}

theorem publishedEntry_ok (h : s.publishedEntry ref = .ok entry) :
    s.entries.get? (contentKey ref) = some entry ∧ (s.heap entry).deleting = false ∧
      (s.heap entry).ref = ref ∧ (s.heap entry).published = true := by
  unfold publishedEntry at h
  split at h
  · cases h
  · rename_i entry' hget
    split at h
    · cases h
    · rename_i hdeleting
      split at h
      · cases h
      · rename_i href
        split at h
        · cases h
        · rename_i hpublished
          cases h
          refine ⟨hget, by simpa using hdeleting, ?_, by simpa using hpublished⟩
          simpa using href

variable {key : ContentKey}

theorem Safety.createHold (hs : s.Safety) (hq : s.Quota limits) (hme : s.tasks[me]? = some task)
    (hwatched : task.watched? = some (key, entry))
    (howes : ∀ kind key, task'.owes kind key = task.owes kind key)
    (hmarks : ∀ key entry, task'.marks key entry = task.marks key entry)
    (hreleases : ∀ handle, task'.releases handle ≤ task.releases handle)
    (hfacts : ∀ store : EpochContentStore, store.SafetyFacts task') :
    SafetyStep s (s.createHold entry) me task task' := by
  obtain ⟨hget, hclear⟩ := (hs.facts me task hme).watched key entry hwatched
  have hname := hs.named key entry hget
  have hlt := hq.entry_lt key entry hget
  have htokens : (s.createHold entry).tokens =
      s.tokens ++ [{ kind := .hold, key, ref := (s.heap entry).ref, entry }] := by
    simp [EpochContentStore.createHold, hname, setEntry]
  have hafter : s.createHold entry =
      { s.setEntry entry ((s.heap entry).increment .hold) with
        tokens := s.tokens ++ [{ kind := .hold, key, ref := (s.heap entry).ref, entry }] } := by
    rw [← htokens]
    rfl
  rw [hafter]
  refine hs.touch hme _ _ hget rfl (.inl hclear) (fun h => ?_) (fun kind => ?_)
    (fun kind key' hne => ?_) (fun h => ?_) ?_ (fun key' entry' _ => hmarks key' entry')
    (hs.tokensKept_append hlt hget hreleases) (hfacts _)
  · rw [show ((s.heap entry).increment .hold).deleting = false from hclear] at h
    cases h
  · rw [howes]
    cases kind <;> simp [ContentEntry.count, ContentEntry.increment, TokenState.outstanding]
    omega
  · simp [howes, TokenState.outstanding, Ne.symm hne]
  · obtain ⟨hpins, -⟩ := hs.unpublished key entry hget h
    exact ⟨hpins, by simp [ContentEntry.increment]⟩
  · rw [hmarks, show ((s.heap entry).increment .hold).deleting = (s.heap entry).deleting from rfl]

theorem Safety.resumeHold (hs : s.Safety) (hq : s.Quota limits)
    {step : HoldStep} (hme : s.tasks[me]? = some (.holdPublished ref step))
    (outcome : FileOutcome) : (s.resumeHold me ref step outcome).Safety := by
  have hplain : ∀ (store : EpochContentStore) result,
      store.SafetyFacts (.holdPublished ref (.settled result)) := fun store result =>
    .of_plain rfl rfl rfl rfl rfl (by rintro _ _ _ ⟨⟩) rfl
  have hsettle : ∀ result, (s.withTask me (.holdPublished ref (.settled result))).Safety :=
    fun result => hs.goOn hme ((SameMemory.refl s).step hs (fun _ _ => rfl) (fun _ _ _ => rfl)
      (fun _ => Nat.le_refl _) (hplain s result))
  unfold EpochContentStore.resumeHold
  split
  · split
    · split
      · exact hsettle _
      · rename_i entry hentry
        refine hs.goOn hme ((SameMemory.refl s).step hs (fun _ _ => rfl) (fun _ _ _ => rfl)
          (fun _ => Nat.le_refl _)
          (.of_watched (fun key entry' h => ?_) (by rintro _ ⟨⟩) rfl rfl rfl
            (by rintro _ _ _ ⟨⟩) rfl))
        cases h
        obtain ⟨hget, hclear, -⟩ := publishedEntry_ok hentry
        exact ⟨hget, hclear⟩
    · exact hs
  · exact hsettle _
  · split
    · exact hsettle _
    · exact hs.goOn hme (hs.createHold hq hme rfl (fun _ _ => rfl) (fun _ _ => rfl)
        (fun _ => Nat.le_refl _) fun store => hplain store _)
  · exact hs

/-! ## Publications and pins -/

variable {token : TokenState} {handle : ℕ}

theorem enterPublish_writing (h : s.enterPublish handle token = .writing entry) :
    s.entries.get? token.key = some entry ∧ (s.heap entry).deleting = false := by
  unfold enterPublish at h
  split at h
  · cases h
  · split at h
    · cases h
    · rename_i entry' hget
      split at h
      · cases h
      · rename_i hchecks
        split at h
        · cases h
        · cases h
          refine ⟨hget, ?_⟩
          simp only [Bool.or_eq_true, not_or] at hchecks
          simpa using hchecks.1

theorem Safety.resumePublish (hs : s.Safety) {step : PublishStep}
    (hme : s.tasks[me]? = some (.publish handle token step)) (outcome : FileOutcome) :
    (s.resumePublish me handle token step outcome).Safety := by
  have hplain : ∀ (store : EpochContentStore) result,
      store.SafetyFacts (.publish handle token (.settled result)) := fun store result =>
    .of_plain rfl rfl rfl rfl rfl (by rintro _ _ _ ⟨⟩) rfl
  have hquiet : ∀ step', s.SafetyFacts (.publish handle token step') →
      (s.withTask me (.publish handle token step')).Safety := fun step' hfacts =>
    hs.goOn hme ((SameMemory.refl s).step hs (fun _ _ => rfl) (fun _ _ _ => rfl)
      (fun _ => Nat.le_refl _) hfacts)
  unfold EpochContentStore.resumePublish
  split
  · split
    · refine hquiet _ ?_
      generalize hstep : s.enterPublish handle token = step'
      cases step' with
      | queued ticket => exact .of_plain rfl rfl rfl rfl rfl (by rintro _ _ _ ⟨⟩) rfl
      | writing entry =>
        refine .of_watched (fun key entry' h => ?_) (by rintro _ ⟨⟩) rfl rfl rfl
          (by rintro _ _ _ ⟨⟩) rfl
        cases h
        exact enterPublish_writing hstep
      | settled result => exact hplain s result
    · exact hs
  · exact hquiet _ (hplain s _)
  · rename_i entry
    obtain ⟨hget, hclear⟩ := (hs.facts me _ hme).watched token.key entry rfl
    refine hs.goOn hme (hs.touch hme { s.heap entry with published := true } s.tokens hget rfl
      (.inl hclear) (fun h => ?_) (fun kind => ?_) (fun _ _ _ => rfl) (by rintro ⟨⟩) rfl
      (fun _ _ _ => rfl) (hs.tokensKept fun _ => Nat.le_refl _) (hplain _ _))
    · rw [show (s.heap entry).deleting = true from h] at hclear
      cases hclear
    · cases kind <;> rfl
  · exact hs

theorem Safety.resumePin (hs : s.Safety) (hq : s.Quota limits)
    {step : PinStep} (hme : s.tasks[me]? = some (.pin ref step)) (outcome : FileOutcome) :
    (s.resumePin me ref step outcome).Safety := by
  have hplain : ∀ (store : EpochContentStore) result,
      store.SafetyFacts (.pin ref (.settled result)) := fun store result =>
    .of_plain rfl rfl rfl rfl rfl (by rintro _ _ _ ⟨⟩) rfl
  have hknown : ∀ entry, step = .verifying entry →
      s.entries.get? (contentKey ref) = some entry ∧ 0 < (s.heap entry).pins ∧
        (s.heap entry).deleting = false := by
    rintro entry rfl
    have hget := (hs.facts me _ hme).pinned _ entry rfl
    exact ⟨hget, hs.deleting_of_owes .pin hget hme (by simp [StoreTask.owes])⟩
  unfold EpochContentStore.resumePin
  split
  · rename_i entry code removed
    obtain ⟨hget, hpositive, hclear⟩ := hknown entry rfl
    refine hs.goOn hme (hs.touch hme ((s.heap entry).decrement .pin) s.tokens hget rfl
      (.inl hclear) (fun h => ?_) (fun kind => ?_) (fun kind key hne => ?_) (fun h => ?_) ?_
      (fun _ _ _ => rfl) (hs.tokensKept fun _ => Nat.le_refl _) (hplain _ _))
    · rw [show (s.heap entry).deleting = true from h] at hclear
      cases hclear
    · cases kind <;> simp [ContentEntry.count, ContentEntry.decrement, StoreTask.owes]
      omega
    · simp [StoreTask.owes, Ne.symm hne]
    · have := (hs.unpublished _ entry hget h).1
      omega
    · rfl
  · rename_i entry
    obtain ⟨hget, -, hclear⟩ := hknown entry rfl
    have hafter : s.createPin ref entry =
        { s.setEntry entry (s.heap entry) with
          tokens := s.tokens ++
            [{ kind := .pin, key := contentKey ref, ref := (s.heap entry).ref, entry }] } := by
      simp [createPin, setEntry]
    rw [hafter]
    refine hs.goOn hme (hs.touch hme _ _ hget rfl (.inl hclear) (fun h => ?_) (fun kind => ?_)
      (fun kind key hne => ?_) (hs.unpublished _ entry hget) rfl (fun _ _ _ => rfl)
      (hs.tokensKept_append (hq.entry_lt _ entry hget) hget fun _ => Nat.le_refl _) (hplain _ _))
    · rw [h] at hclear
      cases hclear
    · cases kind <;> simp [StoreTask.owes, TokenState.outstanding]
      omega
    · simp [StoreTask.owes, TokenState.outstanding, Ne.symm hne]
  · exact hs

/-! ## Stages -/

theorem SameMemory.rollbackReservation (s : EpochContentStore) (me : ℕ)
    (reservation : Reservation) : SameMemory s (s.rollbackReservation me reservation) := by
  unfold EpochContentStore.rollbackReservation
  split <;> exact ⟨rfl, rfl, rfl, rfl, rfl, rfl, rfl⟩

theorem SameMemory.createHold (h : SameMemory s after) (entry : ℕ) :
    SameMemory (s.createHold entry) (after.createHold entry) := by
  refine ⟨h.tasks, h.closed, ?_, h.nextEntry, h.entries, ?_, h.directories⟩
  · simp only [EpochContentStore.createHold, setEntry, h.heap]
  · simp only [EpochContentStore.createHold, setEntry, h.heap, h.tokens]

theorem Safety.commitEntry (hs : s.Safety) (hq : s.Quota limits) {input : EpochContentPutInput}
    {reservation : Reservation}
    (hme : s.tasks[me]? = some (.stage input reservation (.writing ref))) :
    (s.commitEntry me input reservation ref).Safety := by
  obtain ⟨-, hactive, -⟩ := (hq.facts me _ hme).stage input reservation _ rfl
  have hget : s.entries.get? (contentKey ref) = none := (hq.facts me _ hme).inserting _ rfl
  have hstored := (hs.facts me _ hme).written _ rfl
  unfold EpochContentStore.commitEntry
  simp only [commitReservation, hactive, Bool.not_true, Bool.false_eq_true, if_false]
  refine hs.goOn hme (SafetyStep.trans (hs.addEntry hq hget hstored (fun _ _ => rfl)
    (fun _ _ => rfl) (fun _ => Nat.le_refl _)
    (.of_plain rfl rfl rfl rfl rfl (by rintro _ _ _ ⟨⟩) rfl))
    (SameMemory.createHold ?_ s.nextEntry))
  exact ⟨rfl, rfl, rfl, rfl, rfl, rfl, rfl⟩

theorem Safety.resumeStage (hs : s.Safety) (hq : s.Quota limits) {input : EpochContentPutInput}
    {reservation : Reservation} {step : StageStep}
    (hme : s.tasks[me]? = some (.stage input reservation step)) (outcome : FileOutcome) :
    (s.resumeStage me input reservation step outcome).Safety := by
  have hquiet : ∀ {after} {reservation'} {step'}, SameMemory s after →
      s.SafetyFacts (.stage input reservation' step') →
      (after.withTask me (.stage input reservation' step')).Safety := fun h hfacts =>
    hs.goOn hme (h.step hs (fun _ _ => rfl) (fun _ _ _ => rfl) (fun _ => Nat.le_refl _) hfacts)
  have hsettle : ∀ {after} {reservation'} {result}, SameMemory s after →
      (after.withTask me (.stage input reservation' (.settling result))).Safety := fun h =>
    hquiet h (.of_plain rfl rfl rfl rfl rfl (by rintro _ _ _ ⟨⟩) rfl)
  unfold EpochContentStore.resumeStage
  dsimp only
  split
  · split
    · exact hsettle (.refl s)
    · exact hquiet ⟨rfl, rfl, rfl, rfl, rfl, rfl, rfl⟩
        (.of_plain rfl rfl rfl rfl rfl (by rintro _ _ _ ⟨⟩) rfl)
  · rename_i ref ticket outcome
    split
    · unfold enterCommit
      split
      · exact hsettle (.refl s)
      · split
        · exact hquiet (.refl s) (.of_plain rfl rfl rfl rfl rfl (by rintro _ _ _ ⟨⟩) rfl)
        · rename_i entry hget
          split
          · exact hsettle (.refl s)
          · rename_i hchecks
            refine hquiet (.refl s)
              (.of_watched (fun key entry' h => ?_) (by rintro _ ⟨⟩) rfl rfl rfl
                (by rintro _ _ _ ⟨⟩) rfl)
            cases h
            simp only [Bool.or_eq_true, not_or] at hchecks
            exact ⟨hget, by simpa using hchecks.1⟩
    · exact hs
  · exact hsettle (.refl s)
  · rename_i ref entry
    exact hs.goOn hme (SafetyStep.trans (hs.createHold hq hme rfl (fun _ _ => rfl) (fun _ _ => rfl)
      (fun _ => Nat.le_refl _) fun _ => .of_plain rfl rfl rfl rfl rfl (by rintro _ _ _ ⟨⟩) rfl)
      ((SameMemory.rollbackReservation s me reservation).createHold entry))
  · exact hsettle (.refl s)
  · split
    · exact hsettle (.refl s)
    · exact hquiet (.refl s) (.of_plain rfl rfl rfl rfl rfl (by rintro _ _ _ ⟨⟩) rfl)
  · exact hsettle (.refl s)
  · rename_i ref
    refine hs.goOn hme (hs.onDisk (fun key entry hget => ?_) (fun j other key hj hjth hw => ?_)
      (fun _ _ => rfl) (fun _ _ => rfl) (fun _ => Nat.le_refl _)
      (.of_watched (by rintro _ _ ⟨⟩) (fun key hw => ?_) rfl rfl rfl (by rintro _ _ _ ⟨⟩) rfl))
    · exact List.mem_append_left _ (hs.stored key entry hget)
    · exact List.mem_append_left _ ((hs.facts j other hjth).written key hw)
    · cases hw
      exact List.mem_append_right _ (List.mem_singleton.mpr rfl)
  · exact hquiet (.refl s) (.of_plain rfl rfl rfl rfl rfl (by rintro _ _ _ ⟨⟩) rfl)
  · exact hs.commitEntry hq hme
  · rename_i ref code
    split
    · -- the directory of a failed commit is not that of an entry or of another commit
      have hnone := (hq.facts me _ hme).inserting (contentKey ref) rfl
      refine hs.goOn hme (hs.onDisk (fun key entry hget => ?_) (fun j other key hj hjth hw => ?_)
        (fun _ _ => rfl) (fun _ _ => rfl) (fun _ => Nat.le_refl _)
        (.of_plain rfl rfl rfl rfl rfl (by rintro _ _ _ ⟨⟩) rfl))
      · refine List.mem_filter.mpr ⟨hs.stored key entry hget, bne_iff_ne.mpr ?_⟩
        rintro rfl
        rw [hnone] at hget
        cases hget
      · refine List.mem_filter.mpr ⟨(hs.facts j other hjth).written key hw, bne_iff_ne.mpr ?_⟩
        rintro rfl
        exact hq.digest_unique hj.symm hme hjth rfl
          (StoreTask.digestSection?_of_inserting? (StoreTask.inserting?_of_written? hw))
    · exact hsettle (.refl s)
  · exact hquiet (.rollbackReservation s me reservation)
      (.of_plain rfl rfl rfl rfl rfl (by rintro _ _ _ ⟨⟩) rfl)
  · exact hs

/-! ## Releases and collections -/

theorem SafetyFacts.of_release {step : ReleaseStep}
    (hmarked : ∀ key entry, (StoreTask.release handle token step).marked? = some (key, entry) →
      entry < s.nextEntry ∧
        (s.entries.get? key = some entry → (s.heap entry).holds = 0 ∧ (s.heap entry).pins = 0))
    (hmoved : ∀ key entry, (StoreTask.release handle token step).moved? = some (key, entry) →
      entry < s.nextEntry ∧ s.entries.get? key ≠ some entry)
    (hcurrent : ∃ current, s.tokens[handle]? = some current ∧ current.kind = token.kind ∧
      current.key = token.key ∧ current.entry = token.entry)
    (hreleased : s.ReleaseFacts token step) :
    s.SafetyFacts (.release handle token step) where
  watched := by rintro _ _ ⟨⟩
  pinned := by rintro _ _ ⟨⟩
  written := by rintro _ ⟨⟩
  marked := hmarked
  moved := hmoved
  released := by
    rintro _ _ _ ⟨⟩
    exact ⟨hcurrent, hreleased⟩
  collected := by rintro _ _ _ _ _ ⟨⟩
  candidates := by rintro _ _ ⟨⟩

theorem SafetyFacts.of_gc {candidates : List (ContentKey × ℕ)} {freed : FreedContent}
    {step : GcStep}
    (hmarked : ∀ key entry, (StoreTask.gc candidates freed step).marked? = some (key, entry) →
      entry < s.nextEntry ∧ (s.entries.get? key = some entry →
        (s.heap entry).holds = 0 ∧ (s.heap entry).pins = 0 ∧ (s.heap entry).published = true))
    (hmoved : ∀ key entry, (StoreTask.gc candidates freed step).moved? = some (key, entry) →
      entry < s.nextEntry ∧ s.entries.get? key ≠ some entry)
    (hcandidates : ∀ key entry, (key, entry) ∈ (StoreTask.gc candidates freed step).candidates →
      entry < s.nextEntry ∧ contentKey (s.heap entry).ref = key ∧
        (s.entries.get? key = some entry ∨ (s.heap entry).deleting = true)) :
    s.SafetyFacts (.gc candidates freed step) where
  watched := by rintro _ _ ⟨⟩
  pinned := by rintro _ _ ⟨⟩
  written := by rintro _ ⟨⟩
  marked := fun key entry h =>
    ⟨(hmarked key entry h).1, fun hget => ⟨((hmarked key entry h).2 hget).1,
      ((hmarked key entry h).2 hget).2.1⟩⟩
  moved := hmoved
  released := by rintro _ _ _ ⟨⟩
  collected := fun _ _ _ key entry _ h hget => ((hmarked key entry h).2 hget).2.2
  candidates := hcandidates

theorem Removes.sameMemory {tombstone : ℕ} (h : s.Removes tombstone after) :
    SameMemory s after := by
  cases h <;> exact ⟨rfl, rfl, rfl, rfl, rfl, rfl, rfl⟩

theorem get?_moveToTombstone_ne (key : ContentKey) (entry : ℕ) :
    (s.moveToTombstone key entry).entries.get? key ≠ some entry := by
  simp [EpochContentStore.moveToTombstone]

theorem marks_of_not_indexed {key key' : ContentKey} {entry entry' : ℕ}
    (hmarked : task.marked? = some (key, entry)) (hgone : s.entries.get? key ≠ some entry)
    (hget : s.entries.get? key' = some entry') : task.marks key' entry' = 0 := by
  simp only [StoreTask.marks, hmarked, Option.some.injEq, Prod.mk.injEq, ite_eq_right_iff]
  rintro ⟨rfl, rfl⟩
  exact absurd hget hgone

theorem Safety.deletes_release (hs : s.Safety) (hq : s.Quota limits)
    {dstep : DeleteStep} {progress : DeleteProgress}
    (hme : s.tasks[me]? = some (.release handle token (.deleting entry dstep))) :
    s.Deletes token.key entry dstep after progress →
      (after.withTask me (.release handle token (match progress with
      | .waiting step => .deleting entry step
      | .done _ => .settled (.ok ())
      | .failed code => .recovering entry code))).Safety := by
  intro h
  have hfacts := hs.facts me _ hme
  obtain ⟨hcurrent, hentry⟩ := hfacts.released handle token _ rfl
  have hsettled : s.SafetyFacts (.release handle token (.settled (.ok ()))) :=
    .of_release (by rintro _ _ ⟨⟩) (by rintro _ _ ⟨⟩) hcurrent trivial
  cases h with
  | waits ticket =>
    exact hs.goOn hme ((SameMemory.refl s).step hs (fun _ _ => rfl) (fun _ _ _ => rfl)
      (fun _ => Nat.le_refl _) hfacts)
  | enters ticket hturn hget =>
    exact hs.goOn hme ((SameMemory.refl s).step hs (fun _ _ => rfl) (fun _ _ _ => rfl)
      (fun _ => Nat.le_refl _) (.of_release hfacts.marked (by rintro _ _ ⟨⟩) hcurrent hentry))
  | stale ticket hgone freed =>
    exact hs.goOn hme ((SameMemory.refl s).step hs (fun _ _ => rfl)
      (fun _ _ hget => (marks_of_not_indexed rfl hgone hget).symm) (fun _ => Nat.zero_le _)
      hsettled)
  | fails code =>
    exact hs.goOn hme ((SameMemory.refl s).step hs (fun _ _ => rfl) (fun _ _ _ => rfl)
      (fun _ => Nat.le_refl _) (.of_release hfacts.marked (by rintro _ _ ⟨⟩) hcurrent hentry))
  | moves =>
    have hget := (hq.facts me _ hme).moving _ _ rfl
    refine hs.goOn hme (hs.moveToTombstone hq hme hget rfl rfl (fun _ _ => ⟨rfl, rfl⟩) rfl
      (fun _ => Nat.le_refl _)
      (.of_release (by rintro _ _ ⟨⟩) (fun key' entry' h => ?_) hcurrent hentry))
    cases h
    exact ⟨hq.entry_lt _ _ hget, get?_moveToTombstone_ne token.key entry⟩
  | removed tombstone hremoves freed =>
    exact hs.goOn hme (hremoves.sameMemory.step hs (fun _ _ => rfl) (fun _ _ _ => rfl)
      (fun _ => Nat.zero_le _) hsettled)
  | retained tombstone hremoves code =>
    obtain ⟨hlt, hgone⟩ := hfacts.moved _ _ rfl
    refine hs.goOn hme (hremoves.sameMemory.step hs (fun _ _ => rfl)
      (fun _ _ hget => marks_of_not_indexed rfl hgone hget) (fun _ => Nat.le_refl _)
      (.of_release (fun key' entry' h => ?_) (by rintro _ _ ⟨⟩) hcurrent hentry))
    cases h
    exact ⟨hlt, fun hget => absurd hget hgone⟩

theorem Safety.deletes_gc (hs : s.Safety) (hq : s.Quota limits)
    {candidates : List (ContentKey × ℕ)} {freed : FreedContent}
    {dstep : DeleteStep} {progress : DeleteProgress}
    (hme : s.tasks[me]? = some (.gc candidates freed (.deleting key entry dstep))) :
    s.Deletes key entry dstep after progress → (after.withTask me (match progress with
      | .waiting step => .gc candidates freed (.deleting key entry step)
      | .done removed => .gc candidates (freed.add removed) .next
      | .failed code => .gc candidates freed (.recovering key entry code))).Safety := by
  intro h
  have hfacts := hs.facts me _ hme
  have hknown : ∀ key' entry', (StoreTask.gc candidates freed (.deleting key entry dstep)).marked? =
      some (key', entry') → entry' < s.nextEntry ∧ (s.entries.get? key' = some entry' →
        (s.heap entry').holds = 0 ∧ (s.heap entry').pins = 0 ∧
          (s.heap entry').published = true) := by
    refine fun key' entry' hmarked => ⟨(hfacts.marked _ _ hmarked).1, fun hget => ?_⟩
    obtain ⟨hholds, hpins⟩ := (hfacts.marked _ _ hmarked).2 hget
    exact ⟨hholds, hpins, hfacts.collected _ _ _ _ _ rfl hmarked hget⟩
  cases h with
  | waits ticket =>
    exact hs.goOn hme ((SameMemory.refl s).step hs (fun _ _ => rfl) (fun _ _ _ => rfl)
      (fun _ => Nat.le_refl _) hfacts)
  | enters ticket hturn hget =>
    exact hs.goOn hme ((SameMemory.refl s).step hs (fun _ _ => rfl) (fun _ _ _ => rfl)
      (fun _ => Nat.le_refl _) (.of_gc hknown (by rintro _ _ ⟨⟩) hfacts.candidates))
  | stale ticket hgone freed' =>
    exact hs.goOn hme ((SameMemory.refl s).step hs (fun _ _ => rfl)
      (fun _ _ hget => (marks_of_not_indexed rfl hgone hget).symm) (fun _ => Nat.le_refl _)
      (.of_gc (by rintro _ _ ⟨⟩) (by rintro _ _ ⟨⟩) hfacts.candidates))
  | fails code =>
    exact hs.goOn hme ((SameMemory.refl s).step hs (fun _ _ => rfl) (fun _ _ _ => rfl)
      (fun _ => Nat.le_refl _) (.of_gc hknown (by rintro _ _ ⟨⟩) hfacts.candidates))
  | moves =>
    have hget := (hq.facts me _ hme).moving _ _ rfl
    refine hs.goOn hme (hs.moveToTombstone hq hme hget rfl rfl (fun _ _ => ⟨rfl, rfl⟩) rfl
      (fun _ => Nat.le_refl _)
      (.of_gc (by rintro _ _ ⟨⟩) (fun key' entry' h => ?_) fun key' entry' h => ?_))
    · cases h
      exact ⟨hq.entry_lt _ _ hget, get?_moveToTombstone_ne key entry⟩
    · -- another candidate stays indexed, and the renamed one keeps its mark
      obtain ⟨hlt, hname, hindexed⟩ := hfacts.candidates key' entry' h
      refine ⟨hlt, hname, ?_⟩
      rcases hindexed with hget' | hdeleting
      · by_cases hkey : key' = key
        · rw [hkey, hget] at hget'
          cases hget'
          exact .inr (hs.deleting_of_marked hget hme rfl)
        · refine .inl ?_
          simpa only [EpochContentStore.moveToTombstone, InsertionMap.get?_erase, if_neg hkey]
            using hget'
      · exact .inr hdeleting
  | removed tombstone hremoves freed' =>
    exact hs.goOn hme (hremoves.sameMemory.step hs (fun _ _ => rfl) (fun _ _ _ => rfl)
      (fun _ => Nat.le_refl _) (.of_gc (by rintro _ _ ⟨⟩) (by rintro _ _ ⟨⟩) hfacts.candidates))
  | retained tombstone hremoves code =>
    obtain ⟨hlt, hgone⟩ := hfacts.moved _ _ rfl
    refine hs.goOn hme (hremoves.sameMemory.step hs (fun _ _ => rfl)
      (fun _ _ hget => marks_of_not_indexed rfl hgone hget) (fun _ => Nat.le_refl _)
      (.of_gc (fun key' entry' h => ?_) (by rintro _ _ ⟨⟩) hfacts.candidates))
    cases h
    exact ⟨hlt, fun hget => absurd hget hgone⟩

theorem Safety.tokensKept_set (hs : s.Safety) {current : TokenState}
    (hcurrent : s.tokens[handle]? = some current) (active : Bool)
    (hheld : active = true → s.entries.get? current.key = some current.entry)
    (hmine : (if active then 1 else 0) + tally (StoreTask.releases handle) s.tasks +
      task'.releases handle ≤ 1 + task.releases handle)
    (hreleases : ∀ handle', handle' ≠ handle → task'.releases handle' ≤ task.releases handle') :
    TokensKept s (s.tokens.set handle { current with active }) task task' := by
  have hlt := (List.getElem?_eq_some_iff.mp hcurrent).1
  refine ⟨fun token htoken hactive => ?_, fun token htoken => ?_, fun handle' token hhandle => ?_,
    fun handle' token hhandle => ?_⟩
  · rcases List.mem_or_eq_of_mem_set htoken with hold | rfl
    · exact hs.held token hold hactive
    · exact hheld hactive
  · rcases List.mem_or_eq_of_mem_set htoken with hold | rfl
    · exact hs.refs token hold
    · exact hs.refs current (List.mem_of_getElem? hcurrent)
  · by_cases hsame : handle' = handle
    · rw [hsame, List.getElem?_set_self hlt] at hhandle
      cases hhandle
      rw [hsame]
      exact hmine
    · rw [List.getElem?_set_ne (Ne.symm hsame)] at hhandle
      have := hs.released handle' token hhandle
      have := hreleases handle' hsame
      omega
  · by_cases hsame : handle' = handle
    · subst hsame
      rw [hcurrent] at hhandle
      cases hhandle
      exact ⟨_, List.getElem?_set_self hlt, rfl, rfl, rfl⟩
    · exact ⟨token, (List.getElem?_set_ne (Ne.symm hsame)).trans hhandle, rfl, rfl, rfl⟩

/-- A release in the section of its digest gives its count back, and marks an entry that nobody
published and nobody holds. -/
theorem Safety.lowerCount (hs : s.Safety) (hq : s.Quota limits)
    {ticket : ℕ} (hme : s.tasks[me]? = some (.release handle token (.queued ticket)))
    (hturn : s.digestTurn token.key ticket = true) :
    (s.resumeRelease me handle token (.queued ticket) .ok).Safety := by
  obtain ⟨hcurrent, hget⟩ := (hs.facts me _ hme).released handle token _ rfl
  replace hget : s.entries.get? token.key = some token.entry := hget
  obtain ⟨hpositive, hclear⟩ := hs.deleting_of_owes token.kind hget hme
    (by simp [StoreTask.owes])
  -- the release no longer owes its decrement
  have hcounts : ∀ (step : ReleaseStep) (kind : TokenKind),
      (∀ kind key, (StoreTask.release handle token step).owes kind key = 0) →
      ((s.heap token.entry).decrement token.kind).count kind +
          tally (TokenState.outstanding kind token.key) s.tokens +
          (StoreTask.release handle token (.queued ticket)).owes kind token.key =
        (s.heap token.entry).count kind +
          tally (TokenState.outstanding kind token.key) s.tokens +
          (StoreTask.release handle token step).owes kind token.key := by
    intro step kind hzero
    rw [hzero]
    cases hkind : token.kind <;> cases kind <;> rw [hkind] at hpositive <;>
      simp only [ContentEntry.count, ContentEntry.decrement, StoreTask.owes,
        hkind] at hpositive ⊢ <;>
      simp <;> omega
  have hothers : ∀ (step : ReleaseStep) (kind : TokenKind) (key' : ContentKey), key' ≠ token.key →
      (∀ kind key, (StoreTask.release handle token step).owes kind key = 0) →
      tally (TokenState.outstanding kind key') s.tokens +
          (StoreTask.release handle token step).owes kind key' =
        tally (TokenState.outstanding kind key') s.tokens +
          (StoreTask.release handle token (.queued ticket)).owes kind key' := by
    intro step kind key' hne hzero
    rw [hzero]
    simp [StoreTask.owes, Ne.symm hne]
  have hpins : (s.heap token.entry).published = false → (s.heap token.entry).pins = 0 :=
    fun h => (hs.unpublished _ _ hget h).1
  have hpublished : ((s.heap token.entry).decrement token.kind).published =
      (s.heap token.entry).published := by
    cases token.kind <;> rfl
  have hkept : ((s.heap token.entry).decrement token.kind).deleting = false := by
    rw [← hclear]
    cases token.kind <;> rfl
  have href : ((s.heap token.entry).decrement token.kind).ref = (s.heap token.entry).ref := by
    cases token.kind <;> rfl
  unfold EpochContentStore.resumeRelease
  simp only [hturn, if_true, hget]
  split
  · rename_i hcondition
    simp only [hpublished, Bool.and_eq_true, Bool.not_eq_true', beq_iff_eq] at hcondition
    obtain ⟨⟨⟨hunpublished, hholds⟩, hpinsZero⟩, -⟩ := hcondition
    have hkind : token.kind = .hold := by
      cases hkind : token.kind with
      | hold => rfl
      | pin =>
        rw [hkind] at hpositive
        exact absurd (hpins hunpublished) (Nat.pos_iff_ne_zero.mp hpositive)
    refine hs.goOn hme (SafetyStep.trans (hs.touch hme
      { (s.heap token.entry).decrement token.kind with deleting := true } s.tokens hget href
      (.inl hclear) (fun _ => ⟨ticket, hturn⟩) (fun kind => hcounts _ kind fun _ _ => rfl)
      (fun kind key' hne => hothers _ kind key' hne fun _ _ => rfl)
      (fun _ => ⟨hpinsZero, fun _ => rfl⟩)
      ?_ (fun key' entry' hne => ?_) (hs.tokensKept fun _ => Nat.le_refl _)
      (.of_release (fun key' entry' h => ?_) (by rintro _ _ ⟨⟩) hcurrent ⟨rfl, hkind⟩))
      ⟨rfl, rfl, rfl, rfl, rfl, rfl, rfl⟩)
    · simp [hclear, StoreTask.marks, StoreTask.marked?]
    · simp [StoreTask.marks, StoreTask.marked?, Ne.symm hne]
    · cases h
      refine ⟨hq.entry_lt _ _ hget, fun _ => ?_⟩
      simp only [setEntry, Function.update_self]
      exact ⟨hholds, hpinsZero⟩
  · rename_i hcondition
    simp only [hpublished, hkept, Bool.and_eq_true, Bool.not_eq_true', beq_iff_eq, not_and,
      and_true] at hcondition
    refine hs.goOn hme (hs.touch hme _ _ hget href (.inl hclear) (fun h => ?_)
      (fun kind => hcounts _ kind fun _ _ => rfl)
      (fun kind key' hne => hothers _ kind key' hne fun _ _ => rfl) (fun h => ?_) ?_
      (fun _ _ _ => rfl) (hs.tokensKept fun _ => ?_)
      (.of_release (by rintro _ _ ⟨⟩) (by rintro _ _ ⟨⟩) hcurrent trivial))
    · rw [hkept] at h
      cases h
    · have hzero : ((s.heap token.entry).decrement token.kind).pins = 0 := by
        have := hpins (hpublished ▸ h)
        cases token.kind <;> simp [ContentEntry.decrement, this]
      exact ⟨hzero, fun hholds => absurd hzero (hcondition ⟨hpublished ▸ h, hholds⟩)⟩
    · rw [hclear, hkept]
      rfl
    · simp [StoreTask.releases]

/-- The deletion of a released entry failed: the handle is active again, unless the entry is
gone. -/
theorem Safety.recoverRelease (hs : s.Safety) {code : EpochContentStoreErrorCode}
    (hme : s.tasks[me]? = some (.release handle token (.recovering entry code))) :
    (s.resumeRelease me handle token (.recovering entry code) .ok).Safety := by
  obtain ⟨hcurrent, hentry⟩ := (hs.facts me _ hme).released handle token _ rfl
  obtain ⟨rfl, hkind⟩ : entry = token.entry ∧ token.kind = .hold := hentry
  obtain ⟨current, hhandle, hcurrentKind, hcurrentKey, hcurrentEntry⟩ := hcurrent
  have hplain : ∀ store : EpochContentStore, (∃ current, store.tokens[handle]? = some current ∧
      current.kind = token.kind ∧ current.key = token.key ∧ current.entry = token.entry) →
      store.SafetyFacts (.release handle token (.settled (.error code))) := fun store h =>
    .of_release (by rintro _ _ ⟨⟩) (by rintro _ _ ⟨⟩) h trivial
  unfold EpochContentStore.resumeRelease
  dsimp only
  split
  · rename_i hget
    have hdeleting := hs.deleting_of_marked hget hme rfl
    obtain ⟨-, hzero⟩ := (hs.facts me _ hme).marked _ _ rfl
    obtain ⟨hholds, hpins⟩ := hzero hget
    -- this release is the only one of the handle, so that the handle is inactive
    have hinactive : current.active = false := by
      have hle := le_tally (w := StoreTask.releases handle) hme
      have hreleased := hs.released handle current hhandle
      simp only [StoreTask.releases, if_true] at hle
      rw [Bool.eq_false_iff]
      intro hactive
      rw [hactive, if_pos rfl] at hreleased
      omega
    have htokens : s.tokens.modify handle (fun token => { token with active := true }) =
        s.tokens.set handle { current with active := true } := by
      have : Inhabited TokenState := ⟨current⟩
      rw [List.modify_eq_set, hhandle]
      rfl
    have htally : ∀ kind key, tally (TokenState.outstanding kind key)
        (s.tokens.set handle { current with active := true }) =
          tally (TokenState.outstanding kind key) s.tokens +
            if token.kind = kind ∧ token.key = key then 1 else 0 := by
      intro kind key
      have hset := tally_set (w := TokenState.outstanding kind key) hhandle
        { current with active := true }
      simp only [TokenState.outstanding, hinactive, hcurrentKind, hcurrentKey, true_and,
        Bool.false_eq_true, false_and, if_false] at hset ⊢
      omega
    rw [htokens]
    refine hs.goOn hme (hs.touch hme _ _ hget ?_ (.inr rfl) (by rintro ⟨⟩) (fun kind => ?_)
      (fun kind key' hne => ?_) (fun _ => ?_) ?_ (fun key' entry' hne => ?_)
      (hs.tokensKept_set hhandle true (fun _ => ?_) ?_ fun handle' hne => ?_) (hplain _ ?_))
    · cases token.kind <;> rfl
    · rw [htally, hkind]
      cases kind <;> simp [ContentEntry.count, ContentEntry.increment, StoreTask.owes]
      omega
    · rw [htally]
      simp [StoreTask.owes, Ne.symm hne]
    · rw [hkind]
      exact ⟨hpins, by simp [ContentEntry.increment]⟩
    · simp [hdeleting, StoreTask.marks, StoreTask.marked?]
    · simp [StoreTask.marks, StoreTask.marked?, Ne.symm hne]
    · rw [hcurrentKey, hcurrentEntry]
      exact hget
    · have := hs.released handle current hhandle
      simp only [StoreTask.releases, if_true]
      omega
    · exact Nat.zero_le _
    · exact ⟨_, List.getElem?_set_self (List.getElem?_eq_some_iff.mp hhandle).1, hcurrentKind,
        hcurrentKey, hcurrentEntry⟩
  · rename_i hgone
    exact hs.goOn hme ((SameMemory.refl s).step hs (fun _ _ => rfl)
      (fun _ _ hget => (marks_of_not_indexed rfl hgone hget).symm) (fun _ => Nat.zero_le _)
      (hplain s ⟨current, hhandle, hcurrentKind, hcurrentKey, hcurrentEntry⟩))

theorem Safety.resumeRelease (hs : s.Safety) (hq : s.Quota limits) {step : ReleaseStep}
    (hme : s.tasks[me]? = some (.release handle token step)) (outcome : FileOutcome) :
    (s.resumeRelease me handle token step outcome).Safety := by
  cases step with
  | queued ticket =>
    by_cases hturn : s.digestTurn token.key ticket = true
    · exact hs.lowerCount hq hme hturn
    · simpa [EpochContentStore.resumeRelease, hturn] using hs
  | deleting entry dstep =>
    have hdeletes := s.resumeDelete_deletes token.key entry dstep outcome
    unfold EpochContentStore.resumeRelease
    dsimp only
    split <;> rename_i heq <;> rw [heq] at hdeletes <;> exact hs.deletes_release hq hme hdeletes
  | recovering entry code => exact hs.recoverRelease hme
  | settled result => exact hs

theorem Safety.resumeGc (hs : s.Safety) (hq : s.Quota limits)
    {candidates : List (ContentKey × ℕ)} {freed : FreedContent} {step : GcStep}
    (hme : s.tasks[me]? = some (.gc candidates freed step)) (outcome : FileOutcome) :
    (s.resumeGc me candidates freed step outcome).Safety := by
  have hfacts := hs.facts me _ hme
  have hout : ∀ {after} {candidates' freed' step'}, SameMemory s after →
      (StoreTask.gc candidates freed step).marked? = none →
      (StoreTask.gc candidates' freed' step').marked? = none →
      (StoreTask.gc candidates' freed' step').moved? = none →
      (∀ known ∈ (StoreTask.gc candidates' freed' step').candidates,
        known ∈ (StoreTask.gc candidates freed step).candidates) →
      (after.withTask me (.gc candidates' freed' step')).Safety := by
    intro after candidates' freed' step' h hunmarked hunmarked' hunmoved hsub
    refine hs.goOn hme (h.step hs (fun _ _ => rfl) (fun key entry _ => ?_) (fun _ => Nat.le_refl _)
      (.of_gc (fun key entry h => ?_) (fun key entry h => ?_) fun key entry h =>
        hfacts.candidates key entry (hsub _ h)))
    · simp only [StoreTask.marks, hunmarked, hunmarked']
    · simp [hunmarked'] at h
    · simp [hunmoved] at h
  have hcleaning : ∀ {after} {freed' roots names roots' names'}, step = .cleaning roots' names' →
      SameMemory s after →
      (after.withTask me (.gc candidates freed' (cleaningStep roots names))).Safety := by
    rintro after freed' roots names roots' names' rfl h
    unfold cleaningStep
    split <;> exact hout h rfl rfl rfl fun _ h => h
  unfold EpochContentStore.resumeGc
  cases step with
  | queued ticket =>
    dsimp only
    split
    · exact hout (.refl s) rfl rfl rfl fun _ h => h
    · exact hs
  | cleaning roots names =>
    cases names with
    | cons name names =>
      have hremoves := s.removeTrackedTombstone_removes name outcome
      dsimp only
      split <;> rename_i heq <;> rw [heq] at hremoves
      · exact hcleaning rfl hremoves.sameMemory
      · exact hout hremoves.sameMemory rfl rfl rfl fun _ h => h
    | nil =>
      cases roots with
      | nil => exact hout (.refl s) rfl rfl rfl fun _ h => h
      | cons root roots =>
        dsimp only
        split
        · exact hout (.refl s) rfl rfl rfl fun _ h => h
        · exact hcleaning rfl (.refl s)
  | next =>
    dsimp only
    split
    · exact hout (.refl s) rfl rfl rfl fun _ h => h
    · exact hout ⟨rfl, rfl, rfl, rfl, rfl, rfl, rfl⟩ rfl rfl rfl fun _ h => h
  | awaiting key entry ticket =>
    dsimp only
    split
    · rename_i hturn
      split
      · rename_i hcollectable
        simp only [collectable, Bool.and_eq_true, beq_iff_eq, Bool.not_eq_true'] at hcollectable
        obtain ⟨⟨⟨hpublished, hholds⟩, hpins⟩, hclear⟩ := hcollectable
        -- a candidate without a mark is still indexed
        obtain ⟨hlt, -, hknown⟩ := hfacts.candidates key entry (List.mem_cons_self ..)
        have hget : s.entries.get? key = some entry := by
          rcases hknown with hget | hdeleting
          · exact hget
          · rw [hclear] at hdeleting
            cases hdeleting
        refine hs.goOn hme (SafetyStep.trans (hs.touch hme
      { s.heap entry with deleting := true } s.tokens hget rfl (.inl hclear)
          (fun _ => ⟨ticket, hturn⟩) (fun kind => ?_) (fun _ _ _ => rfl) (fun h => ?_) ?_
          (fun key' entry' hne => ?_) (hs.tokensKept fun _ => Nat.le_refl _)
          (.of_gc (fun key' entry' h => ?_) (by rintro _ _ ⟨⟩) fun key' entry' h => ?_))
          ⟨rfl, rfl, rfl, rfl, rfl, rfl, rfl⟩)
        · cases kind <;> rfl
        · rw [show (s.heap entry).published = false from h] at hpublished
          cases hpublished
        · simp [hclear, StoreTask.marks, StoreTask.marked?]
        · simp [StoreTask.marks, StoreTask.marked?, Ne.symm hne]
        · cases h
          refine ⟨hlt, fun _ => ?_⟩
          simp only [setEntry, Function.update_self]
          exact ⟨hholds, hpins, hpublished⟩
        · obtain ⟨hlt', hname', hknown'⟩ := hfacts.candidates key' entry' (List.mem_cons_of_mem _ h)
          refine ⟨hlt', ?_⟩
          simp only [setEntry]
          by_cases hsame : entry' = entry
          · rw [hsame] at hname' ⊢
            simpa only [Function.update_self, or_true, and_true] using hname'
          · rw [Function.update_of_ne hsame]
            exact ⟨hname', hknown'⟩
      · exact hout (.refl s) rfl rfl rfl fun _ h => List.mem_cons_of_mem _ h
    · exact hs
  | deleting key entry dstep =>
    have hdeletes := s.resumeDelete_deletes key entry dstep outcome
    dsimp only
    split <;> rename_i heq <;> rw [heq] at hdeletes <;> exact hs.deletes_gc hq hme hdeletes
  | recovering key entry code =>
    dsimp only
    split
    · rename_i hget
      have hdeleting := hs.deleting_of_marked hget hme rfl
      have hpublished := hfacts.collected _ _ _ _ _ rfl rfl hget
      refine hs.goOn hme (hs.touch hme { s.heap entry with deleting := false } s.tokens hget rfl
        (.inr rfl) (by rintro ⟨⟩) (fun kind => ?_) (fun _ _ _ => rfl) (fun h => ?_) ?_
        (fun key' entry' hne => ?_) (hs.tokensKept fun _ => Nat.le_refl _)
        (.of_gc (by rintro _ _ ⟨⟩) (by rintro _ _ ⟨⟩) fun key' entry' h => ?_))
      · cases kind <;> rfl
      · rw [show (s.heap entry).published = false from h] at hpublished
        cases hpublished
      · simp [hdeleting, StoreTask.marks, StoreTask.marked?]
      · simp [StoreTask.marks, StoreTask.marked?, Ne.symm hne]
      · obtain ⟨hlt', hname', hknown'⟩ := hfacts.candidates key' entry' h
        refine ⟨hlt', ?_⟩
        simp only [setEntry]
        by_cases hsame : entry' = entry
        · subst hsame
          rw [Function.update_self]
          exact ⟨hname', .inl (hname'.symm.trans (hs.named key entry' hget) ▸ hget)⟩
        · rw [Function.update_of_ne hsame]
          exact ⟨hname', hknown'⟩
    · rename_i hgone
      exact hs.goOn hme ((SameMemory.refl s).step hs (fun _ _ => rfl)
        (fun _ _ hget => (marks_of_not_indexed rfl hgone hget).symm) (fun _ => Nat.le_refl _)
        (.of_gc (by rintro _ _ ⟨⟩) (by rintro _ _ ⟨⟩) hfacts.candidates))
  | settled result => exact hs

/-! ## Calls -/

theorem SameMemory.takeTicket (s : EpochContentStore) : SameMemory s s.takeTicket :=
  ⟨rfl, rfl, rfl, rfl, rfl, rfl, rfl⟩

theorem Safety.spawn (hs : s.Safety) (h : SameMemory s after)
    (howes : ∀ kind key, task.owes kind key = 0) (hmarked : task.marked? = none)
    (hreleases : ∀ handle, task.releases handle = 0) (hfacts : s.SafetyFacts task) :
    (after.spawn task).Safety := by
  have hsame : SameMemory { s with tasks := after.tasks ++ [task] } (after.spawn task) :=
    ⟨rfl, h.closed, h.heap, h.nextEntry, h.entries, h.tokens, h.directories⟩
  have hmarks : ∀ key entry, task.marks key entry = 0 := by simp [StoreTask.marks, hmarked]
  have htally : ∀ w : StoreTask → ℕ, w task = 0 →
      tally w (after.spawn task).tasks = tally w s.tasks := fun w hzero => by
    simp [EpochContentStore.spawn, h.tasks, hzero]
  refine ⟨h.closed.trans hs.opened, fun kind key => ?_, ?_, ?_, ?_, fun key entry hget => ?_,
    ?_, ?_, fun handle token hhandle => ?_, fun i other hother => ?_⟩
  · have := hs.counts kind key
    rw [htally _ (howes kind key)]
    simpa only [countOf, EpochContentStore.spawn, h.entries, h.heap, h.tokens] using this
  · simpa only [EpochContentStore.spawn, h.entries, h.heap] using hs.named
  · simpa only [EpochContentStore.spawn, h.entries, h.directories] using hs.stored
  · simpa only [EpochContentStore.spawn, h.entries, h.heap] using hs.unpublished
  · rw [htally _ (hmarks key entry)]
    simp only [EpochContentStore.spawn, h.entries, h.heap] at hget ⊢
    exact hs.marked key entry hget
  · simpa only [EpochContentStore.spawn, h.entries, h.tokens] using hs.held
  · simpa only [EpochContentStore.spawn, h.heap, h.tokens, h.nextEntry] using hs.refs
  · rw [htally _ (hreleases handle)]
    simp only [EpochContentStore.spawn, h.tokens] at hhandle
    exact hs.released handle token hhandle
  · have hknown : s.SafetyFacts other := by
      rcases getElem?_spawn hother with hold | ⟨-, rfl⟩
      · exact hs.facts i other (h.tasks ▸ hold)
      · exact hfacts
    exact hsame.facts ⟨hknown.watched, hknown.pinned, hknown.written, hknown.marked, hknown.moved,
      hknown.released, hknown.collected, hknown.candidates⟩

theorem Safety.reject (hs : s.Safety) (code : EpochContentStoreErrorCode) :
    (s.spawn (.rejected code)).Safety :=
  hs.spawn (.refl s) (fun _ _ => rfl) rfl (fun _ => rfl)
    (.of_plain rfl rfl rfl rfl rfl (by rintro _ _ _ ⟨⟩) rfl)

theorem getElem?_spawn_self (s : EpochContentStore) (task : StoreTask) :
    (s.spawn task).tasks[s.tasks.length]? = some task := by
  simp [EpochContentStore.spawn]

theorem Safety.start (hs : s.Safety)
    (h : SafetyStep (s.spawn (.rejected .aborted)) after s.tasks.length (.rejected .aborted) task)
    {before : EpochContentStore} (hbefore : before.spawn task =
      after.withTask s.tasks.length task) :
    (before.spawn task).Safety := by
  rw [hbefore]
  exact (hs.reject .aborted).goOn (s.getElem?_spawn_self _) h

theorem Safety.stage (hs : s.Safety) (input : EpochContentPutInput) : (s.stage input).Safety := by
  unfold EpochContentStore.stage
  split
  · exact hs.reject _
  · split
    · exact hs.reject _
    · dsimp only
      split
      · exact hs.reject _
      · rename_i reserved hreserve
        obtain ⟨-, -, rfl⟩ := reserve_ok hreserve
        exact hs.spawn ⟨rfl, rfl, rfl, rfl, rfl, rfl, rfl⟩ (fun _ _ => rfl) rfl (fun _ => rfl)
          (.of_plain rfl rfl rfl rfl rfl (by rintro _ _ _ ⟨⟩) rfl)

theorem Safety.publish (hs : s.Safety) (handle : ℕ) : (s.publish handle).Safety := by
  unfold EpochContentStore.publish
  split
  · exact hs.reject _
  · split
    · exact hs.reject _
    · split
      · exact hs.spawn ⟨rfl, rfl, rfl, rfl, rfl, rfl, rfl⟩ (fun _ _ => rfl) rfl (fun _ => rfl)
          (.of_plain rfl rfl rfl rfl rfl (by rintro _ _ _ ⟨⟩) rfl)
      · exact hs.reject _

theorem Safety.beginPin (hs : s.Safety) (ref : EpochStoredContentRef) :
    (s.beginPin ref).Safety := by
  unfold EpochContentStore.beginPin
  split
  · exact hs.reject _
  · rename_i entry hentry
    obtain ⟨hget, hclear, -, hpublished⟩ := publishedEntry_ok hentry
    have hr := hs.reject .aborted
    have hstep : SafetyStep (s.spawn (.rejected .aborted))
        ((s.spawn (.rejected .aborted)).setEntry entry ((s.heap entry).increment .pin))
        s.tasks.length (.rejected .aborted) (.pin ref (.verifying entry)) := by
      refine hr.touch (s.getElem?_spawn_self _) _ _ hget rfl (.inl hclear) (fun h => ?_)
        (fun kind => ?_)
        (fun kind key hne => ?_) (fun h => ?_) rfl (fun _ _ _ => rfl)
        (hr.tokensKept fun _ => Nat.le_refl _)
        ⟨by rintro _ _ ⟨⟩, fun key entry' h => ?_, by rintro _ ⟨⟩, by rintro _ _ ⟨⟩,
          by rintro _ _ ⟨⟩, by rintro _ _ _ ⟨⟩, by rintro _ _ _ _ _ ⟨⟩, by rintro _ _ ⟨⟩⟩
      · rw [show (s.heap entry).deleting = true from h] at hclear
        cases hclear
      · cases kind <;>
          simp [EpochContentStore.spawn, ContentEntry.count, ContentEntry.increment,
            StoreTask.owes]
        omega
      · simp [StoreTask.owes, Ne.symm hne]
      · rw [show (s.heap entry).published = false from h] at hpublished
        cases hpublished
      · cases h
        exact hget
    exact hs.start hstep (by simp [EpochContentStore.spawn, withTask, setEntry])

theorem Safety.pin (hs : s.Safety) (ref : EpochStoredContentRef) : (s.pin ref).Safety := by
  unfold EpochContentStore.pin
  split
  · exact hs.reject _
  · split
    · exact hs.reject _
    · exact hs.beginPin ref

theorem Safety.pinByDigest (hs : s.Safety) (contentNamespace : ContentNamespace)
    (digest : JsString) : (s.pinByDigest contentNamespace digest).Safety := by
  unfold EpochContentStore.pinByDigest
  repeat' split
  all_goals first | exact hs.reject _ | exact hs.beginPin _

theorem Safety.holdPublished (hs : s.Safety) (ref : EpochStoredContentRef) :
    (s.holdPublished ref).Safety := by
  unfold EpochContentStore.holdPublished
  split
  · exact hs.reject _
  · split
    · exact hs.reject _
    · exact hs.spawn ⟨rfl, rfl, rfl, rfl, rfl, rfl, rfl⟩ (fun _ _ => rfl) rfl (fun _ => rfl)
        (.of_plain rfl rfl rfl rfl rfl (by rintro _ _ _ ⟨⟩) rfl)

theorem Safety.release (hs : s.Safety) (handle : ℕ) : (s.release handle).Safety := by
  unfold EpochContentStore.release
  split
  · exact hs
  · rename_i token hhandle
    split
    · exact hs
    · rename_i hactive
      replace hactive : token.active = true := by simpa using hactive
      have hget := hs.held token (List.mem_of_getElem? hhandle) hactive
      have htally : ∀ kind key, tally (TokenState.outstanding kind key) s.tokens =
          tally (TokenState.outstanding kind key)
            (s.tokens.set handle { token with active := false }) +
              if token.kind = kind ∧ token.key = key then 1 else 0 := by
        intro kind key
        have hset := tally_set (w := TokenState.outstanding kind key) hhandle
          { token with active := false }
        simp only [TokenState.outstanding, hactive, true_and, Bool.false_eq_true, false_and,
          if_false] at hset ⊢
        omega
      -- a marked entry has no active handle
      have hclear : (s.heap token.entry).deleting = false := by
        rw [Bool.eq_false_iff]
        intro hdeleting
        have hzero : s.countOf token.kind token.key = 0 := by
          rw [countOf, hget]
          exact hs.count_of_deleting hget hdeleting token.kind
        exact (hs.nobody hzero).1 token (List.mem_of_getElem? hhandle) hactive rfl rfl
      have hr := hs.reject .aborted
      have hstep : SafetyStep (s.spawn (.rejected .aborted))
          { (s.spawn (.rejected .aborted)).setEntry token.entry (s.heap token.entry) with
            tokens := s.tokens.set handle { token with active := false } }
          s.tasks.length (.rejected .aborted) (.release handle token (.queued s.nextTicket)) := by
        refine hr.touch (s.getElem?_spawn_self _) _ _ hget rfl (.inl hclear) (fun h => ?_)
          (fun kind => ?_) (fun kind key hne => ?_) (hs.unpublished _ _ hget) rfl
          (fun _ _ _ => rfl) (hr.tokensKept_set hhandle false (by simp) ?_ fun handle' hne => ?_)
          (.of_release (by simp [StoreTask.marked?]) (by simp [StoreTask.moved?])
            ⟨_, List.getElem?_set_self (List.getElem?_eq_some_iff.mp hhandle).1, rfl, rfl, rfl⟩
            hget)
        · rw [h] at hclear
          cases hclear
        · have := htally kind token.key
          simp only [EpochContentStore.spawn, StoreTask.owes, and_true] at this ⊢
          omega
        · simp only [EpochContentStore.spawn, StoreTask.owes, Ne.symm hne, htally kind key,
            and_false, if_false, Nat.add_zero]
        · have := hr.released handle token hhandle
          simp only [hactive, if_true] at this
          simp only [StoreTask.releases, Bool.false_eq_true, if_false, if_true]
          omega
        · simp [StoreTask.releases, Ne.symm hne]
      refine hs.start (hstep.trans (SameMemory.takeTicket _)) ?_
      simp [EpochContentStore.spawn, withTask, takeTicket, setEntry]

theorem Safety.gc (hs : s.Safety) (hq : s.Quota limits) : s.gc.Safety := by
  unfold EpochContentStore.gc
  split
  · exact hs.reject _
  · refine hs.spawn ⟨rfl, rfl, rfl, rfl, rfl, rfl, rfl⟩ (fun _ _ => rfl) rfl (fun _ => rfl)
      (.of_gc (by rintro _ _ ⟨⟩) (by rintro _ _ ⟨⟩) fun key entry h => ?_)
    have hget : s.entries.get? key = some entry :=
      InsertionMap.get?_of_mem (List.mem_filter.mp h).1
    exact ⟨hq.entry_lt key entry hget, hs.named key entry hget, .inl hget⟩

/-! ## Runs -/

theorem Safety.step (hs : s.Safety) (hq : s.Quota limits) {action : StoreAction}
    (haction : action ≠ .shutdown) : (s.step action).Safety := by
  cases action with
  | stage input => exact hs.stage input
  | publish handle => exact hs.publish handle
  | pin ref => exact hs.pin ref
  | pinByDigest contentNamespace digest => exact hs.pinByDigest contentNamespace digest
  | holdPublished ref => exact hs.holdPublished ref
  | release handle => exact hs.release handle
  | gc => exact hs.gc hq
  | shutdown => exact absurd rfl haction
  | resume me outcome =>
    simp only [EpochContentStore.step, EpochContentStore.resume]
    split
    · exact hs
    · exact hs
    · rename_i hme
      exact hs.resumeStage hq hme outcome
    · rename_i hme
      exact hs.resumePublish hme outcome
    · rename_i hme
      exact hs.resumePin hq hme outcome
    · rename_i hme
      exact hs.resumeHold hq hme outcome
    · rename_i hme
      exact hs.resumeRelease hq hme outcome
    · rename_i hme
      exact hs.resumeGc hq hme outcome
    · rename_i step hme
      -- an open store is not being shut down
      have := ((hq.facts me _ hme).closing step rfl).1
      rw [hs.opened] at this
      cases this

theorem Safety.run (hs : s.Safety) (hq : s.Quota limits) {actions : List StoreAction}
    (hactions : .shutdown ∉ actions) : (runFrom EpochContentStore.step s actions).Safety := by
  induction actions generalizing s with
  | nil => exact hs
  | cons action rest ih =>
    simp only [List.mem_cons, not_or] at hactions
    exact ih (hs.step hq (Ne.symm hactions.1)) (hq.step action) hactions.2

theorem Ready.safety (hs : s.Ready) : s.Safety where
  opened := hs.closed
  counts := fun kind key => by
    simp only [hs.tokens, hs.tasks, tally_nil, countOf]
    cases hget : s.entries.get? key with
    | none => rfl
    | some entry =>
      dsimp only
      rw [(hs.indexed key entry hget).2.1]
      cases kind <;> rfl
  named := fun key entry hget => (hs.indexed key entry hget).2.2
  stored := fun key entry hget => (hs.indexed key entry hget).1
  unpublished := fun key entry hget h => by
    rw [(hs.indexed key entry hget).2.1] at h
    cases h
  marked := fun key entry hget => by
    rw [(hs.indexed key entry hget).2.1, hs.tasks]
    rfl
  held := by simp [hs.tokens]
  refs := by simp [hs.tokens]
  released := by simp [hs.tokens]
  facts := by simp [hs.tasks]

/-! ## Active handles -/

/-- Every active handle stays active. -/
def KeepsActive (s after : EpochContentStore) : Prop :=
  ∀ (handle : ℕ) (token : TokenState), s.tokens[handle]? = some token → token.active = true →
    after.tokens[handle]? = some token

theorem KeepsActive.of_eq (h : after.tokens = s.tokens) : KeepsActive s after :=
  fun _ _ hhandle _ => h ▸ hhandle

theorem KeepsActive.of_append (h : after.tokens = s.tokens ++ [token]) :
    KeepsActive s after := fun handle current hhandle _ => by
  rw [h, List.getElem?_append_left (List.getElem?_eq_some_iff.mp hhandle).1]
  exact hhandle

theorem KeepsActive.createHold (h : after.tokens = s.tokens) (entry : ℕ) :
    KeepsActive s (after.createHold entry) := by
  have htokens : (after.createHold entry).tokens = after.tokens ++ [_] := rfl
  rw [h] at htokens
  exact .of_append htokens

theorem KeepsActive.of_modify (h : after.tokens =
    s.tokens.modify handle fun token => { token with active := true }) : KeepsActive s after := by
  intro handle' token hhandle hactive
  rw [h, List.getElem?_modify, hhandle]
  simp only [Option.map_eq_map, Option.map_some, Option.some.injEq]
  split
  · rw [← hactive]
  · rfl

theorem Deletes.tokens {dstep : DeleteStep}
    {progress : DeleteProgress} (h : s.Deletes key entry dstep after progress) :
    after.tokens = s.tokens := by
  cases h with
  | removed tombstone hremoves freed => exact hremoves.sameMemory.tokens
  | retained tombstone hremoves code => exact hremoves.sameMemory.tokens
  | _ => rfl

theorem keepsActive_resumeStage (s : EpochContentStore) (me : ℕ) (input : EpochContentPutInput)
    (reservation : Reservation) (step : StageStep) (outcome : FileOutcome) :
    KeepsActive s (s.resumeStage me input reservation step outcome) := by
  have hrollback := (SameMemory.rollbackReservation s me reservation).tokens
  have hcommit : ∀ ref, KeepsActive s (s.commitEntry me input reservation ref) := by
    intro ref
    unfold EpochContentStore.commitEntry
    dsimp only
    split
    · exact .of_eq rfl
    · rename_i committed hcommitted
      have htokens : committed.tokens = s.tokens := by
        unfold commitReservation at hcommitted
        split at hcommitted
        · cases hcommitted
        · cases hcommitted
          rfl
      exact .createHold htokens _
  unfold EpochContentStore.resumeStage
  dsimp only
  split
  · split <;> exact .of_eq rfl
  · split <;> exact .of_eq rfl
  · exact .of_eq rfl
  · exact .createHold hrollback _
  · exact .of_eq rfl
  · split <;> exact .of_eq rfl
  · exact .of_eq rfl
  · exact .of_eq rfl
  · exact .of_eq rfl
  · exact hcommit _
  · split <;> exact .of_eq rfl
  · exact .of_eq hrollback
  · exact .of_eq rfl

theorem keepsActive_resumeRelease (s : EpochContentStore) (me handle : ℕ) (token : TokenState)
    (step : ReleaseStep) (outcome : FileOutcome) :
    KeepsActive s (s.resumeRelease me handle token step outcome) := by
  unfold EpochContentStore.resumeRelease
  cases step with
  | queued ticket =>
    dsimp only
    repeat' split
    all_goals exact .of_eq rfl
  | deleting entry dstep =>
    have hdeletes := s.resumeDelete_deletes token.key entry dstep outcome
    dsimp only
    split <;> rename_i heq <;> rw [heq] at hdeletes <;> exact .of_eq hdeletes.tokens
  | recovering entry code =>
    dsimp only
    split
    · exact .of_modify rfl
    · exact .of_eq rfl
  | settled result => exact .of_eq rfl

theorem keepsActive_resumeGc (s : EpochContentStore) (me : ℕ) (candidates : List (ContentKey × ℕ))
    (freed : FreedContent) (step : GcStep) (outcome : FileOutcome) :
    KeepsActive s (s.resumeGc me candidates freed step outcome) := by
  unfold EpochContentStore.resumeGc
  dsimp only
  split
  · split <;> exact .of_eq rfl
  · rename_i roots name names
    have hremoves := s.removeTrackedTombstone_removes name outcome
    split <;> rename_i heq <;> rw [heq] at hremoves <;> exact .of_eq hremoves.sameMemory.tokens
  · split <;> exact .of_eq rfl
  · exact .of_eq rfl
  · split <;> exact .of_eq rfl
  · repeat' split
    all_goals exact .of_eq rfl
  · rename_i key entry dstep
    have hdeletes := s.resumeDelete_deletes key entry dstep outcome
    split <;> rename_i heq <;> rw [heq] at hdeletes <;> exact .of_eq hdeletes.tokens
  · split <;> exact .of_eq rfl
  · exact .of_eq rfl

theorem Safety.keepsActive (hs : s.Safety) (hq : s.Quota limits) {action : StoreAction}
    (haction : action ≠ .shutdown) : KeepsActive s (s.step action) ∨
      (s.step action).entries = s.entries ∧ (s.step action).directories = s.directories := by
  cases action with
  | shutdown => exact absurd rfl haction
  | resume me outcome =>
    refine .inl ?_
    simp only [EpochContentStore.step, EpochContentStore.resume]
    split
    · exact .of_eq rfl
    · exact .of_eq rfl
    · exact s.keepsActive_resumeStage _ _ _ _ _
    · unfold EpochContentStore.resumePublish
      repeat' split
      all_goals exact .of_eq rfl
    · unfold EpochContentStore.resumePin
      split
      · exact .of_eq rfl
      · exact .of_append rfl
      · exact .of_eq rfl
    · unfold EpochContentStore.resumeHold
      repeat' split
      all_goals first | exact .of_eq rfl | exact .of_append rfl
    · exact s.keepsActive_resumeRelease _ _ _ _ _
    · exact s.keepsActive_resumeGc _ _ _ _ _
    · rename_i step hme
      have := ((hq.facts me _ hme).closing step rfl).1
      rw [hs.opened] at this
      cases this
  | stage input =>
    refine .inr ?_
    simp only [EpochContentStore.step, EpochContentStore.stage]
    repeat' split
    · exact ⟨rfl, rfl⟩
    · exact ⟨rfl, rfl⟩
    · exact ⟨rfl, rfl⟩
    · rename_i hreserve
      obtain ⟨-, -, rfl⟩ := reserve_ok hreserve
      exact ⟨rfl, rfl⟩
  | publish handle =>
    refine .inr ?_
    simp only [EpochContentStore.step, EpochContentStore.publish]
    repeat' split
    all_goals exact ⟨rfl, rfl⟩
  | pin ref =>
    refine .inr ?_
    simp only [EpochContentStore.step, EpochContentStore.pin, EpochContentStore.beginPin]
    repeat' split
    all_goals exact ⟨rfl, rfl⟩
  | pinByDigest contentNamespace digest =>
    refine .inr ?_
    simp only [EpochContentStore.step, EpochContentStore.pinByDigest, EpochContentStore.beginPin]
    repeat' split
    all_goals exact ⟨rfl, rfl⟩
  | holdPublished ref =>
    refine .inr ?_
    simp only [EpochContentStore.step, EpochContentStore.holdPublished]
    repeat' split
    all_goals exact ⟨rfl, rfl⟩
  | release handle =>
    refine .inr ?_
    simp only [EpochContentStore.step, EpochContentStore.release]
    repeat' split
    all_goals exact ⟨rfl, rfl⟩
  | gc =>
    refine .inr ?_
    simp only [EpochContentStore.step, EpochContentStore.gc]
    split <;> exact ⟨rfl, rfl⟩

/-! ## Releases that settle -/

/-- Where a release stands that deletes its entry: the entry is indexed until its directory is
renamed, and from then on there is neither an entry nor a directory. -/
def ReleaseStands (s : EpochContentStore) (token : TokenState) : ReleaseStep → Prop
  | .deleting _ (.removing _) => s.entries.get? token.key = none ∧ token.key ∉ s.directories
  | .deleting entry _ => s.entries.get? token.key = some entry
  | _ => True

/-- Every release stands as its step says. -/
def Stands (s : EpochContentStore) : Prop :=
  ∀ (i handle : ℕ) (token : TokenState) (step : ReleaseStep),
    s.tasks[i]? = some (.release handle token step) → s.ReleaseStands token step

/-- A task goes on and touches no other task, and neither index nor disk outside its section. -/
structure GoesOn (s after : EpochContentStore) (me : ℕ) (task : StoreTask) : Prop where
  entries : ∀ key, task.digestSection? ≠ some key → after.entries.get? key = s.entries.get? key
  directories : ∀ key, task.digestSection? ≠ some key → key ∉ s.directories →
    key ∉ after.directories
  others : ∀ (j : ℕ) (other : StoreTask), j ≠ me → after.tasks[j]? = some other →
    s.tasks[j]? = some other
  mine : ∀ handle token step, after.tasks[me]? = some (.release handle token step) →
    after.ReleaseStands token step

theorem ReleaseStands.congr {step : ReleaseStep} (h : s.ReleaseStands token step)
    (hentries : after.entries.get? token.key = s.entries.get? token.key)
    (hdirectories : token.key ∉ s.directories → token.key ∉ after.directories) :
    after.ReleaseStands token step := by
  unfold ReleaseStands at h ⊢
  split at h
  · exact ⟨hentries.trans h.1, hdirectories h.2⟩
  · exact hentries.trans h
  · trivial

theorem GoesOn.of_set (htasks : after.tasks = s.tasks.set me task')
    (hentries : ∀ key, task.digestSection? ≠ some key →
      after.entries.get? key = s.entries.get? key)
    (hdirectories : ∀ key, task.digestSection? ≠ some key → key ∉ s.directories →
      key ∉ after.directories)
    (hmine : ∀ handle token step, task' = .release handle token step →
      after.ReleaseStands token step) : GoesOn s after me task where
  entries := hentries
  directories := hdirectories
  others j other hj hother := by
    rw [htasks, List.getElem?_set_ne (Ne.symm hj)] at hother
    exact hother
  mine handle token step hmine' := by
    refine hmine handle token step ?_
    have hlt : me < (s.tasks.set me task').length := by
      rw [← htasks]
      exact (List.getElem?_eq_some_iff.mp hmine').1
    rw [List.length_set] at hlt
    rw [htasks, List.getElem?_set_self hlt] at hmine'
    exact Option.some.inj hmine'

theorem GoesOn.quiet (htasks : after.tasks = s.tasks.set me task')
    (hentries : after.entries = s.entries) (hdirectories : after.directories = s.directories)
    (hmine : ∀ handle token step, task' = .release handle token step →
      s.ReleaseStands token step) : GoesOn s after me task :=
  .of_set htasks (fun _ _ => by rw [hentries]) (fun _ _ h => by rwa [hdirectories])
    fun handle token step h => (hmine handle token step h).congr (by rw [hentries]) fun h => by
      rwa [hdirectories]

/-- A release that only moves to a step that stands touches nothing else. -/
theorem GoesOn.release {step : ReleaseStep}
    (htasks : after.tasks = s.tasks.set me (.release handle token step))
    (hentries : after.entries = s.entries) (hdirectories : after.directories = s.directories)
    (hstand : s.ReleaseStands token step) : GoesOn s after me task :=
  .quiet htasks hentries hdirectories fun _ _ _ h => by
    cases h
    exact hstand

theorem GoesOn.refl (hme : s.tasks[me]? = some task)
    (hmine : ∀ handle token step, task = .release handle token step →
      s.ReleaseStands token step) : GoesOn s s me task :=
  .quiet (by
    obtain ⟨hlt, hget⟩ := List.getElem?_eq_some_iff.mp hme
    rw [← hget, List.set_getElem_self]) rfl rfl hmine

/-- So does a step that leaves the memory alone and writes only its own task. -/
theorem SameMemory.goesOn (h : SameMemory s after) {task' : StoreTask}
    (hmine : ∀ handle token step, task' = .release handle token step →
      s.ReleaseStands token step) : GoesOn s (after.withTask me task') me task :=
  .quiet (congrArg (fun tasks : List StoreTask => tasks.set me task') h.tasks) h.entries
    h.directories hmine

theorem Stands.goOn (hs : s.Stands) (hq : s.Quota limits) (hme : s.tasks[me]? = some task)
    (h : GoesOn s after me task) : after.Stands := by
  intro i handle token step hi
  by_cases hime : i = me
  · subst hime
    exact h.mine handle token step hi
  · have hold := h.others i _ hime hi
    have hstands := hs i handle token step hold
    cases step with
    | deleting entry dstep =>
      have hkey : task.digestSection? ≠ some token.key := hq.digest_unique hime hold hme rfl
      exact hstands.congr (h.entries _ hkey) (h.directories _ hkey)
    | _ => trivial

theorem goesOn_commitEntry {input : EpochContentPutInput} {reservation : Reservation}
    {ref : EpochStoredContentRef} :
    GoesOn s (s.commitEntry me input reservation ref) me
      (.stage input reservation (.writing ref)) := by
  have hadded : ∀ key, contentKey ref ≠ key →
      (s.addEntry { ref }).entries.get? key = s.entries.get? key := fun key hne =>
    InsertionMap.get?_insert_of_ne _ (Ne.symm hne) _
  unfold EpochContentStore.commitEntry
  dsimp only
  split
  · refine .of_set rfl (fun key hkey => ?_) (fun _ _ h => h) (by rintro _ _ _ ⟨⟩)
    exact hadded key fun h => hkey (congrArg some h)
  · rename_i committed hcommitted
    unfold commitReservation at hcommitted
    split at hcommitted
    · cases hcommitted
    · cases hcommitted
      refine .of_set rfl (fun key hkey => ?_) (fun _ _ h => h) (by rintro _ _ _ ⟨⟩)
      exact hadded key fun h => hkey (congrArg some h)

theorem goesOn_resumeStage {input : EpochContentPutInput} {reservation : Reservation}
    {step : StageStep} (hme : s.tasks[me]? = some (.stage input reservation step))
    (outcome : FileOutcome) :
    GoesOn s (s.resumeStage me input reservation step outcome) me
      (.stage input reservation step) := by
  have hrollback := SameMemory.rollbackReservation s me reservation
  unfold EpochContentStore.resumeStage
  dsimp only
  split
  · split <;> exact .quiet rfl rfl rfl (by rintro _ _ _ ⟨⟩)
  · split
    · exact .quiet rfl rfl rfl (by rintro _ _ _ ⟨⟩)
    · exact .refl hme (by rintro _ _ _ ⟨⟩)
  · exact .quiet rfl rfl rfl (by rintro _ _ _ ⟨⟩)
  · exact .quiet (congrArg (fun tasks : List StoreTask => tasks.set me _) hrollback.tasks)
      hrollback.entries hrollback.directories (by rintro _ _ _ ⟨⟩)
  · exact .quiet rfl rfl rfl (by rintro _ _ _ ⟨⟩)
  · split <;> exact .quiet rfl rfl rfl (by rintro _ _ _ ⟨⟩)
  · exact .quiet rfl rfl rfl (by rintro _ _ _ ⟨⟩)
  · rename_i ref
    refine .of_set rfl (fun _ _ => rfl) (fun key hkey hnot hmem => ?_) (by rintro _ _ _ ⟨⟩)
    rcases List.mem_append.mp hmem with hold | hnew
    · exact hnot hold
    · exact hkey (congrArg some (List.mem_singleton.mp hnew).symm)
  · exact .quiet rfl rfl rfl (by rintro _ _ _ ⟨⟩)
  · exact goesOn_commitEntry
  · split
    · exact .of_set rfl (fun _ _ => rfl)
        (fun key _ hnot hmem => hnot (List.mem_filter.mp hmem).1) (by rintro _ _ _ ⟨⟩)
    · exact .quiet rfl rfl rfl (by rintro _ _ _ ⟨⟩)
  · exact hrollback.goesOn (by rintro _ _ _ ⟨⟩)
  · exact .refl hme (by rintro _ _ _ ⟨⟩)

/-- The rename of a directory touches the index and the disk under its own key only. -/
theorem moveToTombstone_aside (key : ContentKey) (entry : ℕ) {other : ContentKey} :
    (other ≠ key → (s.moveToTombstone key entry).entries.get? other = s.entries.get? other) ∧
      (other ∉ s.directories → other ∉ (s.moveToTombstone key entry).directories) :=
  ⟨fun hne => InsertionMap.get?_erase_of_ne _ hne,
    fun hnot hmem => hnot (List.mem_filter.mp hmem).1⟩

/-- It takes the entry out of the index and its directory off its place. -/
theorem moveToTombstone_gone (hs : s.Safety) {key : ContentKey} {entry : ℕ}
    (hget : s.entries.get? key = some entry) :
    (s.moveToTombstone key entry).entries.get? key = none ∧
      key ∉ (s.moveToTombstone key entry).directories := by
  refine ⟨InsertionMap.get?_erase_self _ _, fun hmem => ?_⟩
  have hne := (List.mem_filter.mp hmem).2
  rw [hs.named key entry hget] at hne
  simp at hne

theorem goesOn_deletes_release (hs : s.Safety) (hq : s.Quota limits) (hstands : s.Stands)
    {dstep : DeleteStep} {progress : DeleteProgress}
    (hme : s.tasks[me]? = some (.release handle token (.deleting entry dstep)))
    (h : s.Deletes token.key entry dstep after progress) :
    GoesOn s (after.withTask me (.release handle token (match progress with
      | .waiting step => .deleting entry step
      | .done _ => .settled (.ok ())
      | .failed code => .recovering entry code))) me
      (.release handle token (.deleting entry dstep)) := by
  have hstand := hstands me handle token _ hme
  cases h with
  | waits ticket =>
    exact .release rfl rfl rfl hstand
  | enters ticket hturn hget =>
    exact .release rfl rfl rfl hget
  | stale ticket hgone freed =>
    exact .release rfl rfl rfl trivial
  | fails code =>
    exact .release rfl rfl rfl trivial
  | moves =>
    have hget := (hq.facts me _ hme).moving _ _ rfl
    refine .of_set rfl (fun key hkey => ?_) (fun key _ => ?_) fun _ _ _ h => ?_
    · exact (moveToTombstone_aside token.key entry).1 fun h => hkey (congrArg some h.symm)
    · exact (moveToTombstone_aside token.key entry).2
    · cases h
      exact moveToTombstone_gone hs hget
  | removed tombstone hremoves freed =>
    refine hremoves.sameMemory.goesOn fun _ _ _ h => ?_
    cases h
    trivial
  | retained tombstone hremoves code =>
    refine hremoves.sameMemory.goesOn fun _ _ _ h => ?_
    cases h
    trivial

theorem goesOn_resumeRelease (hs : s.Safety) (hq : s.Quota limits) (hstands : s.Stands)
    {step : ReleaseStep} (hme : s.tasks[me]? = some (.release handle token step))
    (outcome : FileOutcome) :
    GoesOn s (s.resumeRelease me handle token step outcome) me
      (.release handle token step) := by
  have hrefl : GoesOn s s me (.release handle token step) := .refl hme fun _ _ _ h => by
    cases h
    exact hstands me handle token step hme
  unfold EpochContentStore.resumeRelease
  cases step with
  | queued ticket =>
    dsimp only
    split
    · split
      · exact .release rfl rfl rfl trivial
      · rename_i entry hget
        split
        · exact .release rfl rfl rfl hget
        · exact .release rfl rfl rfl trivial
    · exact hrefl
  | deleting entry dstep =>
    have hdeletes := s.resumeDelete_deletes token.key entry dstep outcome
    dsimp only
    split <;> rename_i heq <;> rw [heq] at hdeletes <;>
      exact goesOn_deletes_release hs hq hstands hme hdeletes
  | recovering entry code =>
    dsimp only
    split
    all_goals exact .release rfl rfl rfl trivial
  | settled result => exact hrefl

theorem goesOn_deletes_gc (hq : s.Quota limits)
    {candidates : List (ContentKey × ℕ)} {freed : FreedContent} {dstep : DeleteStep}
    {progress : DeleteProgress}
    (hme : s.tasks[me]? = some (.gc candidates freed (.deleting key entry dstep)))
    (h : s.Deletes key entry dstep after progress) (task' : StoreTask)
    (hmine : ∀ handle token step, task' ≠ .release handle token step) :
    GoesOn s (after.withTask me task') me (.gc candidates freed (.deleting key entry dstep)) := by
  have hmine' : ∀ {store : EpochContentStore} handle token step,
      task' = .release handle token step → store.ReleaseStands token step :=
    fun handle token step h => absurd h (hmine handle token step)
  cases h with
  | moves =>
    have hget := (hq.facts me _ hme).moving _ _ rfl
    refine .of_set rfl (fun key' hkey => ?_) (fun key' _ => ?_) hmine'
    · exact (moveToTombstone_aside key entry).1 fun h => hkey (congrArg some h.symm)
    · exact (moveToTombstone_aside key entry).2
  | removed tombstone hremoves freed' =>
    exact hremoves.sameMemory.goesOn hmine'
  | retained tombstone hremoves code =>
    exact hremoves.sameMemory.goesOn hmine'
  | _ => exact .quiet rfl rfl rfl hmine'

theorem goesOn_resumeGc (hq : s.Quota limits)
    {candidates : List (ContentKey × ℕ)} {freed : FreedContent} {step : GcStep}
    (hme : s.tasks[me]? = some (.gc candidates freed step)) (outcome : FileOutcome) :
    GoesOn s (s.resumeGc me candidates freed step outcome) me (.gc candidates freed step) := by
  unfold EpochContentStore.resumeGc
  dsimp only
  split
  · split
    · exact .quiet rfl rfl rfl (by rintro _ _ _ ⟨⟩)
    · exact .refl hme (by rintro _ _ _ ⟨⟩)
  · rename_i roots name names
    have hremoves := s.removeTrackedTombstone_removes name outcome
    split <;> rename_i heq <;> rw [heq] at hremoves <;>
      exact hremoves.sameMemory.goesOn (by rintro _ _ _ ⟨⟩)
  · split <;> exact .quiet rfl rfl rfl (by rintro _ _ _ ⟨⟩)
  · exact .quiet rfl rfl rfl (by rintro _ _ _ ⟨⟩)
  · split <;> exact .quiet rfl rfl rfl (by rintro _ _ _ ⟨⟩)
  · split
    · split <;> exact .quiet rfl rfl rfl (by rintro _ _ _ ⟨⟩)
    · exact .refl hme (by rintro _ _ _ ⟨⟩)
  · rename_i key entry dstep
    have hdeletes := s.resumeDelete_deletes key entry dstep outcome
    split <;> rename_i heq <;> rw [heq] at hdeletes <;>
      exact goesOn_deletes_gc hq hme hdeletes _ (by rintro _ _ _ ⟨⟩)
  · split <;> exact .quiet rfl rfl rfl (by rintro _ _ _ ⟨⟩)
  · exact .refl hme (by rintro _ _ _ ⟨⟩)

theorem goesOn_resume (hs : s.Safety) (hq : s.Quota limits) (hstands : s.Stands)
    (hme : s.tasks[me]? = some task) (outcome : FileOutcome) :
    GoesOn s (s.resume me outcome) me task := by
  unfold EpochContentStore.resume
  rw [hme]
  cases task with
  | rejected code => exact .refl hme (by rintro _ _ _ ⟨⟩)
  | stage input reservation step => exact goesOn_resumeStage hme outcome
  | publish handle token step =>
    dsimp only
    unfold EpochContentStore.resumePublish
    repeat' split
    all_goals
      first
        | exact .refl hme (by rintro _ _ _ ⟨⟩)
        | exact .quiet rfl rfl rfl (by rintro _ _ _ ⟨⟩)
  | pin ref step =>
    dsimp only
    unfold EpochContentStore.resumePin
    split
    · exact .quiet rfl rfl rfl (by rintro _ _ _ ⟨⟩)
    · exact .quiet rfl rfl rfl (by rintro _ _ _ ⟨⟩)
    · exact .refl hme (by rintro _ _ _ ⟨⟩)
  | holdPublished ref step =>
    dsimp only
    unfold EpochContentStore.resumeHold
    repeat' split
    all_goals
      first
        | exact .refl hme (by rintro _ _ _ ⟨⟩)
        | exact .quiet rfl rfl rfl (by rintro _ _ _ ⟨⟩)
  | release handle token step => exact goesOn_resumeRelease hs hq hstands hme outcome
  | gc candidates freed step => exact goesOn_resumeGc hq hme outcome
  | shutdown step =>
    -- an open store is not being shut down
    have := ((hq.facts me _ hme).closing step rfl).1
    rw [hs.opened] at this
    cases this

/-- An operation that starts is no deletion. -/
theorem Stands.spawn (hs : s.Stands) (htasks : after.tasks = s.tasks)
    (hentries : after.entries = s.entries) (hdirectories : after.directories = s.directories)
    (hnew : ∀ handle token step, task = .release handle token step →
      ∃ ticket, step = .queued ticket) :
    (after.spawn task).Stands := by
  intro i handle token step hi
  have htasks' : (after.spawn task).tasks = s.tasks ++ [task] := by
    rw [EpochContentStore.spawn, htasks]
  rw [htasks'] at hi
  rcases Nat.lt_or_ge i s.tasks.length with hlt | hge
  · rw [List.getElem?_append_left hlt] at hi
    exact (hs i handle token step hi).congr (congrArg (·.get? token.key) hentries)
      fun h => by
        change token.key ∉ after.directories
        rwa [hdirectories]
  · rw [List.getElem?_append_right hge] at hi
    have hlast : task = .release handle token step := by
      rcases Nat.eq_zero_or_pos (i - s.tasks.length) with hzero | hpos
      · rw [hzero] at hi
        exact Option.some.inj hi
      · rw [List.getElem?_eq_none (by simpa using Nat.succ_le_of_lt hpos)] at hi
        cases hi
    obtain ⟨ticket, rfl⟩ := hnew handle token step hlast
    trivial

/-- Every call but the shutdown keeps the releases as they stand. -/
theorem Stands.step (hstands : s.Stands) (hs : s.Safety) (hq : s.Quota limits)
    {action : StoreAction} (haction : action ≠ .shutdown) : (s.step action).Stands := by
  cases action with
  | shutdown => exact absurd rfl haction
  | resume me outcome =>
    simp only [EpochContentStore.step]
    cases hme : s.tasks[me]? with
    | none =>
      unfold EpochContentStore.resume
      rw [hme]
      exact hstands
    | some task => exact hstands.goOn hq hme (goesOn_resume hs hq hstands hme outcome)
  | stage input =>
    simp only [EpochContentStore.step, EpochContentStore.stage]
    split
    · exact hstands.spawn rfl rfl rfl (by rintro _ _ _ ⟨⟩)
    split
    · exact hstands.spawn rfl rfl rfl (by rintro _ _ _ ⟨⟩)
    split
    · exact hstands.spawn rfl rfl rfl (by rintro _ _ _ ⟨⟩)
    · rename_i hreserve
      obtain ⟨-, -, rfl⟩ := reserve_ok hreserve
      exact hstands.spawn rfl rfl rfl (by rintro _ _ _ ⟨⟩)
  | publish handle =>
    simp only [EpochContentStore.step, EpochContentStore.publish]
    repeat' split
    all_goals exact hstands.spawn rfl rfl rfl (by rintro _ _ _ ⟨⟩)
  | pin ref =>
    simp only [EpochContentStore.step, EpochContentStore.pin, EpochContentStore.beginPin]
    repeat' split
    all_goals exact hstands.spawn rfl rfl rfl (by rintro _ _ _ ⟨⟩)
  | pinByDigest contentNamespace digest =>
    simp only [EpochContentStore.step, EpochContentStore.pinByDigest, EpochContentStore.beginPin]
    repeat' split
    all_goals exact hstands.spawn rfl rfl rfl (by rintro _ _ _ ⟨⟩)
  | holdPublished ref =>
    simp only [EpochContentStore.step, EpochContentStore.holdPublished]
    repeat' split
    all_goals exact hstands.spawn rfl rfl rfl (by rintro _ _ _ ⟨⟩)
  | release handle =>
    simp only [EpochContentStore.step, EpochContentStore.release]
    repeat' split
    · exact hstands
    · exact hstands
    · refine hstands.spawn rfl rfl rfl fun _ _ _ h => ?_
      cases h
      exact ⟨_, rfl⟩
  | gc =>
    simp only [EpochContentStore.step, EpochContentStore.gc]
    split <;> exact hstands.spawn rfl rfl rfl (by rintro _ _ _ ⟨⟩)

theorem Stands.run (hstands : s.Stands) (hs : s.Safety) (hq : s.Quota limits)
    {actions : List StoreAction} (hactions : .shutdown ∉ actions) :
    (runFrom EpochContentStore.step s actions).Stands := by
  induction actions generalizing s with
  | nil => exact hstands
  | cons action rest ih =>
    simp only [List.mem_cons, not_or] at hactions
    exact ih (hstands.step hs hq (Ne.symm hactions.1)) (hs.step hq (Ne.symm hactions.1))
      (hq.step action) hactions.2

/-- The entry of a key is published or has a handle. -/
def Needed (s : EpochContentStore) (key : ContentKey) : Prop :=
  ∃ entry, s.entries.get? key = some entry ∧ ((s.heap entry).published = true ∨
    0 < (s.heap entry).holds ∨ 0 < (s.heap entry).pins)

/-- A release of an active handle makes it inactive and waits for the lock of its digest. -/
theorem release_active (htoken : s.tokens[handle]? = some token) (hactive : token.active = true) :
    (s.step (.release handle)).tokens[handle]? = some { token with active := false } ∧
      ∃ ticket, (s.step (.release handle)).tasks =
        s.tasks ++ [.release handle token (.queued ticket)] := by
  have hlt : handle < s.tokens.length := (List.getElem?_eq_some_iff.mp htoken).1
  simp only [EpochContentStore.step, EpochContentStore.release, htoken, hactive, Bool.not_true,
    Bool.false_eq_true, if_false]
  refine ⟨?_, _, rfl⟩
  simp only [EpochContentStore.spawn]
  exact List.getElem?_set_self hlt

/-- A release that settles leaves an entry that is needed, or neither an entry nor a directory. -/
theorem Stands.settles (hstands : s.Stands) (hs : s.Safety) {step : ReleaseStep}
    {outcome : FileOutcome} (hme : s.tasks[me]? = some (.release handle token step))
    (hpending : (StoreTask.release handle token step).isSettled = false)
    (hsettled : (s.resumeRelease me handle token step outcome).tasks[me]? =
      some (.release handle token (.settled (.ok ())))) :
    (s.resumeRelease me handle token step outcome).Needed token.key ∨
      (s.resumeRelease me handle token step outcome).entries.get? token.key = none ∧
        token.key ∉ (s.resumeRelease me handle token step outcome).directories := by
  have hlt : me < s.tasks.length := (List.getElem?_eq_some_iff.mp hme).1
  have hother : ∀ {store : EpochContentStore} {step' : ReleaseStep}, store.tasks = s.tasks →
      (store.withTask me (.release handle token step')).tasks[me]? =
        some (.release handle token (.settled (.ok ()))) → step' = .settled (.ok ()) := by
    intro store step' htasks h
    rw [EpochContentStore.withTask, htasks, List.getElem?_set_self hlt] at h
    cases h
    rfl
  have hstand := hstands me handle token step hme
  cases step with
  | queued ticket =>
    have hget := ((hs.facts me _ hme).released handle token _ rfl).2
    have hget : s.entries.get? token.key = some token.entry := hget
    have hclear : (s.heap token.entry).deleting = false :=
      (hs.deleting_of_owes token.kind hget hme (by simp [StoreTask.owes])).2
    have hkept : ((s.heap token.entry).decrement token.kind).deleting = false := by
      rw [← hclear]
      cases token.kind <;> rfl
    unfold EpochContentStore.resumeRelease at hsettled ⊢
    by_cases hturn : s.digestTurn token.key ticket = true
    · simp only [hturn, if_true, hget] at hsettled ⊢
      split at hsettled
      · cases hother rfl hsettled
      · rename_i hcondition
        rw [if_neg hcondition]
        refine .inl ⟨token.entry, hget, ?_⟩
        simp only [hkept, Bool.and_eq_true, Bool.not_eq_true', beq_iff_eq, not_and,
          and_true] at hcondition
        simp only [EpochContentStore.withTask, setEntry, Function.update_self]
        by_cases hpublished : ((s.heap token.entry).decrement token.kind).published = true
        · exact .inl hpublished
        · rcases Nat.eq_zero_or_pos ((s.heap token.entry).decrement token.kind).holds with
            hzero | hpos
          · exact .inr (.inr (Nat.pos_of_ne_zero
              (hcondition ⟨Bool.eq_false_iff.mpr hpublished, hzero⟩)))
          · exact .inr (.inl hpos)
    · simp only [hturn] at hsettled
      rw [if_neg Bool.false_ne_true, hme] at hsettled
      cases hsettled
  | deleting entry dstep =>
    have hdeletes := s.resumeDelete_deletes token.key entry dstep outcome
    unfold EpochContentStore.resumeRelease at hsettled ⊢
    dsimp only at hsettled ⊢
    split at hsettled <;> rename_i heq <;> rw [heq] at hdeletes
    · have := hother (by
        cases hdeletes <;> rfl) hsettled
      cases this
    · cases hdeletes with
      | stale ticket hgone freed => exact absurd hstand hgone
      | removed tombstone hremoves freed =>
        have hsame := hremoves.sameMemory
        refine .inr ⟨?_, ?_⟩
        · exact (congrArg (·.get? token.key) hsame.entries).trans hstand.1
        · rw [show (EpochContentStore.withTask _ me _).directories = _ from hsame.directories]
          exact hstand.2
    · cases hother (by
        cases hdeletes with
        | fails => rfl
        | retained tombstone hremoves => exact hremoves.sameMemory.tasks) hsettled
  | recovering entry code =>
    unfold EpochContentStore.resumeRelease at hsettled
    dsimp only at hsettled
    split at hsettled <;> cases hother rfl hsettled
  | settled result => cases hpending

/-! ## Safety over whole runs -/

/-- The outstanding handles of a kind under a key. -/
def outstandingTokens (s : EpochContentStore) (kind : TokenKind) (key : ContentKey) :
    List TokenState :=
  s.tokens.filter fun token => token.active = true ∧ token.kind = kind ∧ token.key = key

theorem Safety.survives (hs : s.Safety) (hq : s.Quota limits) {action : StoreAction}
    (haction : action ≠ .shutdown) (htoken : token ∈ s.tokens) (hactive : token.active = true) :
    (s.step action).entries.get? token.key = some token.entry ∧
      token.key ∈ (s.step action).directories := by
  have hget := hs.held token htoken hactive
  rcases hs.keepsActive hq haction with hkeeps | ⟨hentries, hdirectories⟩
  · have hafter := hs.step hq haction
    obtain ⟨handle, hhandle⟩ := List.mem_iff_getElem?.mp htoken
    have hmem := List.mem_of_getElem? (hkeeps handle token hhandle hactive)
    have hget' := hafter.held token hmem hactive
    exact ⟨hget', hafter.stored _ _ hget'⟩
  · rw [hentries, hdirectories]
    exact ⟨hget, hs.stored _ _ hget⟩

theorem Safety.count_of_idle (hs : s.Safety) (hidle : s.inFlight = [])
    (hget : s.entries.get? key = some entry) (kind : TokenKind) :
    (s.heap entry).count kind = (s.outstandingTokens kind key).length := by
  have hcounts := hs.counts kind key
  have hnone : tally (StoreTask.owes kind key) s.tasks = 0 := by
    refine tally_eq_zero fun task htask => ?_
    have hsettled := List.filter_eq_nil_iff.mp hidle task htask
    cases task with
    | release handle token step => cases step <;> simp_all [StoreTask.owes, StoreTask.isSettled]
    | pin ref step => cases step <;> simp_all [StoreTask.owes, StoreTask.isSettled]
    | _ => rfl
  rw [countOf, hget, hnone, Nat.add_zero] at hcounts
  rw [outstandingTokens, ← tally_ite]
  exact hcounts.trans (tally_congr fun token _ => by simp [TokenState.outstanding])

theorem Safety.held_of_idle (hs : s.Safety) (hidle : s.inFlight = [])
    (hget : s.entries.get? key = some entry)
    (hunpublished : (s.heap entry).published = false) : 0 < (s.heap entry).holds := by
  by_contra hnone
  have hdeleting := (hs.unpublished key entry hget hunpublished).2 (by omega)
  have hmarked := hs.marked key entry hget
  rw [hdeleting, if_pos rfl, tally_eq_zero fun task htask => ?_] at hmarked
  · cases hmarked
  · have hsettled := List.filter_eq_nil_iff.mp hidle task htask
    cases task with
    | release handle token step =>
      cases step <;> simp_all [StoreTask.marks, StoreTask.marked?, StoreTask.isSettled]
    | gc candidates freed step =>
      cases step <;> simp_all [StoreTask.marks, StoreTask.marked?, StoreTask.isSettled]
    | _ => rfl

/-- The safety of the content store, in every run of stages, publications, pins, holds, releases
and collections with any failures. The entry of an outstanding handle is indexed and on disk with
the reference of the handle, and no step deletes it. When no operation is in progress, the counts
of every entry are the numbers of its outstanding handles, and an entry that was not published has
a hold. An outstanding handle that is released becomes inactive, and its release settles only with
an entry that is published or has another handle, or with neither an entry nor a directory. -/
theorem content_safe {serverEpoch : JsString} {limits : EpochContentStoreLimits}
    {published : InsertionMap ContentKey EpochStoredContentRef} {ready : EpochContentStore}
    (h : scanCurrentEpoch serverEpoch limits published = .ok ready) {actions : List StoreAction}
    (hactions : .shutdown ∉ actions) :
    let s := runFrom EpochContentStore.step ready actions
    (∀ token ∈ s.tokens, token.active = true →
      s.entries.get? token.key = some token.entry ∧ (s.heap token.entry).ref = token.ref ∧
        token.key ∈ s.directories) ∧
    (∀ action, action ≠ .shutdown → ∀ token ∈ s.tokens, token.active = true →
      (s.step action).entries.get? token.key = some token.entry ∧
        token.key ∈ (s.step action).directories) ∧
    (s.inFlight = [] → ∀ key entry, s.entries.get? key = some entry →
      (s.heap entry).holds = (s.outstandingTokens .hold key).length ∧
        (s.heap entry).pins = (s.outstandingTokens .pin key).length) ∧
    (s.inFlight = [] → ∀ key entry, s.entries.get? key = some entry →
      (s.heap entry).published = false → 0 < (s.heap entry).holds) ∧
    (∀ handle token, s.tokens[handle]? = some token → token.active = true →
      (s.step (.release handle)).tokens[handle]? = some { token with active := false } ∧
        ∃ ticket, (s.step (.release handle)).tasks =
          s.tasks ++ [.release handle token (.queued ticket)]) ∧
    ∀ me handle token step outcome, s.tasks[me]? = some (.release handle token step) →
      (StoreTask.release handle token step).isSettled = false →
      (s.step (.resume me outcome)).tasks[me]? =
        some (.release handle token (.settled (.ok ()))) →
      (∃ entry, (s.step (.resume me outcome)).entries.get? token.key = some entry ∧
        (((s.step (.resume me outcome)).heap entry).published = true ∨
          0 < ((s.step (.resume me outcome)).heap entry).holds ∨
          0 < ((s.step (.resume me outcome)).heap entry).pins)) ∨
      (s.step (.resume me outcome)).entries.get? token.key = none ∧
        token.key ∉ (s.step (.resume me outcome)).directories := by
  intro s
  obtain ⟨hready, -⟩ := scanCurrentEpoch_ready h
  have hq : s.Quota ready.limits := hready.quota.run actions
  have hs : s.Safety := hready.safety.run hready.quota hactions
  refine ⟨fun token htoken hactive => ?_, fun action haction token htoken hactive =>
    hs.survives hq haction htoken hactive, fun hidle key entry hget => ?_,
    fun hidle key entry hget => hs.held_of_idle hidle hget,
    fun handle token htoken hactive => release_active htoken hactive,
    fun me handle token step outcome hme hpending hsettled => ?_⟩
  · have hget := hs.held token htoken hactive
    exact ⟨hget, (hs.refs token htoken).2.1, hs.stored _ _ hget⟩
  · exact ⟨hs.count_of_idle hidle hget .hold, hs.count_of_idle hidle hget .pin⟩
  · have hstands : s.Stands := Stands.run (fun i handle token step hi => by
      rw [hready.tasks] at hi
      cases hi) hready.safety hready.quota hactions
    have hresume : s.step (.resume me outcome) =
        s.resumeRelease me handle token step outcome := by
      simp only [EpochContentStore.step, EpochContentStore.resume, hme]
    rw [hresume] at hsettled ⊢
    exact hstands.settles hs hme hpending hsettled

/-- A text is staged, and the release of its only hold fails to rename its directory. -/
def failedRename : List StoreAction :=
  .stage sampleInput :: List.replicate 6 (.resume 0 .ok) ++
    [.release 0, .resume 1 .ok, .resume 1 .ok, .resume 1 (.failed .ioFailure false),
      .resume 1 .ok]

/-- The hold of a release that failed is outstanding again, and its entry is still there. -/
theorem content_safe_failedRename :
    let s := runFrom EpochContentStore.step
      { serverEpoch := js "epoch", limits := sampleLimits } failedRename
    s.tokens.map (·.active) = [true] ∧
      (∀ token ∈ s.tokens, token.active = true → s.entries.get? token.key = some token.entry ∧
        (s.heap token.entry).ref = token.ref ∧ token.key ∈ s.directories) ∧
      (s.heap 0).published = false ∧ 0 < (s.heap 0).holds :=
  have hsafe := content_safe sampleScan (show StoreAction.shutdown ∉ failedRename by decide)
  ⟨by decide +kernel, hsafe.1, by decide +kernel,
    hsafe.2.2.2.1 (by decide +kernel) (.utf8, sampleInput.sha256) 0 (by decide +kernel)
      (by decide +kernel)⟩

end EpochContentStore

end PiAgentWeb
