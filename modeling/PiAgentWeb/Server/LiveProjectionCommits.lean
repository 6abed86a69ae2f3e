import PiAgentWeb.Server.TurnHeadroomRuns

/-!
# Commits of the live projection

Batches, phase changes and compactions share one revision. A call that takes effect moves the
revision on, and every other call leaves all but the token maps as it is. A token that was prepared
at the current revision commits exactly what was prepared; once a call has taken effect, it is stale
for good. The log of commits lists, for each, the revision of its token and its sequence numbers.
-/

namespace PiAgentWeb

variable {J T : Type}

/-- A call of a projection that may change it. -/
inductive ProjectionCall (J T : Type) where
  | prepareBatch (identity : SessionLiveProjectionIdentity)
      (inputs : List (SessionLiveProjectionInput J T))
      (runtimePhase : Option SessionLiveRuntimePhase)
  | previewPreparedBatch (token : ℕ)
  | commitPreparedBatch (token : ℕ)
  | setRuntimePhase (identity : SessionLiveProjectionIdentity) (phase : SessionLiveRuntimePhase)
  | beginIdleBaseCompaction
  | prepareIdleBaseCompaction (token : ℕ) (settledMessages : List (SessionMessage J T))
  | previewPreparedIdleBaseCompaction (token : ℕ)
  | commitPreparedIdleBaseCompaction (token : ℕ)

/-- A commit: the revision that its token was prepared at, and the sequence numbers it commits. -/
structure CommitRecord where
  preparedAt : ℕ
  seqs : List ℕ
  deriving DecidableEq

namespace SessionLiveProjection

/-- The test of `eligiblePreparedIdleBaseCompaction`. -/
def compactionEligible (p : SessionLiveProjection J T)
    (prepared : PreparedCompactionState J T) : Bool :=
  prepared.revision == p.revision && prepared.baseSeq == p.live.asOfSeq

/-- `previewPreparedBatch`: the snapshot after the commit. A stale token is dropped. -/
def previewPreparedBatch (p : SessionLiveProjection J T) (token : ℕ) :
    SessionLiveProjection J T × Option Json :=
  match p.preparedBatches.get? token with
  | none => (p, none)
  | some prepared =>
    if p.batchEligible prepared then (p, some { p with live := prepared.candidate }.snapshotJson)
    else ({ p with preparedBatches := p.preparedBatches.erase token }, none)

/-- `previewPreparedIdleBaseCompaction`. -/
def previewPreparedIdleBaseCompaction (p : SessionLiveProjection J T) (token : ℕ) :
    SessionLiveProjection J T × Option Json :=
  match p.preparedCompactions.get? token with
  | none => (p, none)
  | some prepared =>
    if p.compactionEligible prepared then
      (p, some
        { p with
          baseSeq := prepared.baseSeq
          settledMessages := prepared.settledMessages
          live := withoutEvents p.live }.snapshotJson)
    else ({ p with preparedCompactions := p.preparedCompactions.erase token }, none)

/-- The projection after a call. A call that throws before it changes anything leaves it as it
is. -/
def call (p : SessionLiveProjection J T) : ProjectionCall J T → SessionLiveProjection J T
  | .prepareBatch identity inputs runtimePhase =>
    match p.prepareBatch identity inputs runtimePhase with
    | .ok (next, _) => next
    | .error _ => p
  | .previewPreparedBatch token => (p.previewPreparedBatch token).1
  | .commitPreparedBatch token => (p.commitPreparedBatch token).1
  | .setRuntimePhase identity phase =>
    match p.setRuntimePhase identity phase with
    | .ok next => next
    | .error _ => p
  | .beginIdleBaseCompaction => p.beginIdleBaseCompaction.1
  | .prepareIdleBaseCompaction token settledMessages =>
    (p.prepareIdleBaseCompaction token settledMessages).1
  | .previewPreparedIdleBaseCompaction token => (p.previewPreparedIdleBaseCompaction token).1
  | .commitPreparedIdleBaseCompaction token => (p.commitPreparedIdleBaseCompaction token).1

/-- The call commits a batch, changes the phase or commits a compaction. -/
def takesEffect (p : SessionLiveProjection J T) : ProjectionCall J T → Bool
  | .commitPreparedBatch token => (p.commitPreparedBatch token).2.isSome
  | .setRuntimePhase identity phase => (p.setRuntimePhase identity phase).isOk
  | .commitPreparedIdleBaseCompaction token => (p.commitPreparedIdleBaseCompaction token).2
  | _ => false

/-- What a call commits. -/
def committed (p : SessionLiveProjection J T) : ProjectionCall J T → Option CommitRecord
  | .commitPreparedBatch token =>
    if (p.commitPreparedBatch token).2.isSome then
      (p.preparedBatches.get? token).map fun prepared =>
        ⟨prepared.revision, List.range' prepared.firstSeq prepared.count⟩
    else none
  | .commitPreparedIdleBaseCompaction token =>
    if (p.commitPreparedIdleBaseCompaction token).2 then
      (p.preparedCompactions.get? token).map fun prepared => ⟨prepared.revision, []⟩
    else none
  | _ => none

/-- The commits of a sequence of calls. -/
def commitLog (p : SessionLiveProjection J T) : List (ProjectionCall J T) → List CommitRecord
  | [] => []
  | first :: rest => (p.committed first).toList ++ (p.call first).commitLog rest

/-- All of a projection but its tokens. -/
def withoutTokens (p : SessionLiveProjection J T) : SessionLiveProjection J T :=
  { p with
    compactionTokens := .empty, preparedBatches := .empty, preparedCompactions := .empty
    nextToken := 0 }

/-- The invariant of the tokens: a token of the current revision is eligible. -/
structure Issued (p : SessionLiveProjection J T) : Prop where
  batch : ∀ token prepared, p.preparedBatches.get? token = some prepared →
    token < p.nextToken ∧ prepared.revision ≤ p.revision ∧
      (prepared.revision = p.revision → p.batchEligible prepared = true)
  compaction : ∀ token prepared, p.preparedCompactions.get? token = some prepared →
    token < p.nextToken ∧ prepared.revision ≤ p.revision ∧
      (prepared.revision = p.revision → prepared.baseSeq = p.live.asOfSeq)

/-- No batch of the current revision is kept under the token, now or later. -/
def StaleBatch (p : SessionLiveProjection J T) (token : ℕ) : Prop :=
  token < p.nextToken ∧
    ∀ prepared, p.preparedBatches.get? token = some prepared → prepared.revision < p.revision

/-- No compaction of the current revision is kept under the token, now or later. -/
def StaleCompaction (p : SessionLiveProjection J T) (token : ℕ) : Prop :=
  token < p.nextToken ∧
    ∀ prepared, p.preparedCompactions.get? token = some prepared → prepared.revision < p.revision

variable {p q : SessionLiveProjection J T}

/-- A call without effect: tokens are issued at the current revision or dropped as stale. -/
structure Unchanged (p next : SessionLiveProjection J T) : Prop where
  same : next.withoutTokens = p.withoutTokens
  nextToken : p.nextToken ≤ next.nextToken
  batch : ∀ token prepared, next.preparedBatches.get? token = some prepared →
    p.preparedBatches.get? token = some prepared ∨
      p.nextToken ≤ token ∧ token < next.nextToken ∧ prepared.revision = p.revision ∧
        p.batchEligible prepared = true
  keepsBatch : ∀ token prepared, p.preparedBatches.get? token = some prepared →
    p.batchEligible prepared = true → next.preparedBatches.get? token = some prepared
  compaction : ∀ token prepared, next.preparedCompactions.get? token = some prepared →
    p.preparedCompactions.get? token = some prepared ∨
      p.nextToken ≤ token ∧ token < next.nextToken ∧ prepared.revision = p.revision ∧
        prepared.baseSeq = p.live.asOfSeq
  keepsCompaction : ∀ token prepared, p.preparedCompactions.get? token = some prepared →
    p.compactionEligible prepared = true → next.preparedCompactions.get? token = some prepared

/-- A call with an effect: a new revision, for which no token was issued yet. -/
structure Revised (p next : SessionLiveProjection J T) : Prop where
  revision : next.revision = p.revision + 1
  nextToken : next.nextToken = p.nextToken
  batch : ∀ token prepared, next.preparedBatches.get? token = some prepared →
    p.preparedBatches.get? token = some prepared
  compaction : ∀ token prepared, next.preparedCompactions.get? token = some prepared →
    p.preparedCompactions.get? token = some prepared

/-! ## Single calls -/

theorem foldlM_reduceCandidate_asOfSeq {inputs : List (SessionLiveProjectionInput J T)}
    {runtimePhase : Option SessionLiveRuntimePhase} {candidate reduced : ProjectionCandidate J T}
    (h : inputs.foldlM (p.reduceCandidate runtimePhase) candidate = .ok reduced) :
    reduced.asOfSeq = candidate.asOfSeq + inputs.length := by
  induction inputs generalizing candidate with
  | nil =>
    cases h
    rfl
  | cons input rest ih =>
    rw [List.foldlM_cons] at h
    cases hstep : p.reduceCandidate runtimePhase candidate input with
    | error error => simp [hstep, bind, Except.bind] at h
    | ok next =>
      have hrest := ih (by simpa [hstep, bind, Except.bind] using h)
      obtain ⟨branch, _, hnext, _⟩ := reduceCandidate_ok hstep
      rw [hrest, hnext, List.length_cons]
      change candidate.asOfSeq + 1 + rest.length = _
      omega

theorem Unchanged.refl (p : SessionLiveProjection J T) : p.Unchanged p :=
  ⟨rfl, Nat.le_refl _, fun _ _ => Or.inl, fun _ _ h _ => h, fun _ _ => Or.inl, fun _ _ h _ => h⟩

theorem Unchanged.compactionTokens (tokens : InsertionMap ℕ CompactionToken) {nextToken : ℕ}
    (h : p.nextToken ≤ nextToken) :
    p.Unchanged { p with compactionTokens := tokens, nextToken := nextToken } :=
  ⟨rfl, h, fun _ _ => Or.inl, fun _ _ hget _ => hget, fun _ _ => Or.inl, fun _ _ hget _ => hget⟩

theorem Unchanged.eraseBatch {token : ℕ} {prepared : PreparedBatchState J T}
    (hget : p.preparedBatches.get? token = some prepared)
    (hstale : ¬ p.batchEligible prepared = true) :
    p.Unchanged { p with preparedBatches := p.preparedBatches.erase token } := by
  refine ⟨rfl, Nat.le_refl _, fun _ _ h => Or.inl (get?_of_get?_erase h), ?_, fun _ _ => Or.inl,
    fun _ _ h _ => h⟩
  intro other kept hother heligible
  change (p.preparedBatches.erase token).get? other = some kept
  rw [InsertionMap.get?_erase_of_ne, hother]
  rintro rfl
  rw [hget] at hother
  cases hother
  exact hstale heligible

theorem Unchanged.eraseCompaction {token : ℕ} {prepared : PreparedCompactionState J T}
    (hget : p.preparedCompactions.get? token = some prepared)
    (hstale : ¬ p.compactionEligible prepared = true) :
    p.Unchanged { p with preparedCompactions := p.preparedCompactions.erase token } := by
  refine ⟨rfl, Nat.le_refl _, fun _ _ => Or.inl, fun _ _ h _ => h,
    fun _ _ h => Or.inl (get?_of_get?_erase h), ?_⟩
  intro other kept hother heligible
  change (p.preparedCompactions.erase token).get? other = some kept
  rw [InsertionMap.get?_erase_of_ne, hother]
  rintro rfl
  rw [hget] at hother
  cases hother
  exact hstale heligible

theorem Issued.prepareBatch (h : p.Issued) {identity : SessionLiveProjectionIdentity}
    {inputs : List (SessionLiveProjectionInput J T)}
    {runtimePhase : Option SessionLiveRuntimePhase} {token : ℕ}
    (hok : p.prepareBatch identity inputs runtimePhase = .ok (q, token)) :
    p.Unchanged q ∧ ∃ prepared, q.preparedBatches.get? token = some prepared ∧
      q.batchEligible prepared = true ∧ token < q.nextToken ∧
      prepared.candidate.asOfSeq = p.live.asOfSeq + inputs.length ∧
      inputs.foldlM (p.reduceCandidate runtimePhase) p.live = .ok prepared.candidate := by
  obtain ⟨candidate, hfold, rfl, rfl⟩ := prepareBatch_ok hok
  have hseq := foldlM_reduceCandidate_asOfSeq hfold
  have heligible : p.batchEligible
      { revision := p.revision, firstSeq := p.live.asOfSeq + 1, lastSeq := candidate.asOfSeq,
        count := inputs.length, candidate := candidate } = true := by
    simp only [batchEligible, beq_self_eq_true, Bool.true_and, beq_iff_eq]
    omega
  refine ⟨⟨rfl, Nat.le_succ _, ?_, ?_, fun _ _ => Or.inl, fun _ _ hget _ => hget⟩,
    _, InsertionMap.get?_insert_self _ _ _, heligible, Nat.lt_succ_self _, hseq, hfold⟩
  · intro token prepared hget
    rw [InsertionMap.get?_insert] at hget
    split at hget
    · rename_i htoken
      cases hget
      exact Or.inr ⟨htoken.ge, htoken ▸ Nat.lt_succ_self _, rfl, heligible⟩
    · exact Or.inl hget
  · intro token prepared hget _
    have hold := (h.batch token prepared hget).1
    change (p.preparedBatches.insert p.nextToken _).get? token = some prepared
    rw [InsertionMap.get?_insert_of_ne _ (by omega), hget]

theorem compactionCandidate_some {token : Option CompactionToken}
    {settledMessages : List (SessionMessage J T)} {prepared : PreparedCompactionState J T}
    (h : p.compactionCandidate token settledMessages = .ok (some prepared)) :
    prepared.revision = p.revision ∧ prepared.baseSeq = p.live.asOfSeq ∧
      prepared.settledMessages = settledMessages := by
  unfold compactionCandidate at h
  split at h
  · cases h
  · split at h
    · cases h
    · simp only [bind, Except.bind, pure, Except.pure, throw, throwThe, MonadExceptOf.throw] at h
      split at h
      · cases h
      split at h
      · cases h
      split at h <;> cases h
      exact ⟨rfl, rfl, rfl⟩

theorem Issued.prepareIdleBaseCompaction (h : p.Issued) (token : ℕ)
    (settledMessages : List (SessionMessage J T)) :
    p.Unchanged (p.prepareIdleBaseCompaction token settledMessages).1 ∧
      ∀ prepared, (p.prepareIdleBaseCompaction token settledMessages).2 = .ok (some prepared) →
        ∃ state, (p.prepareIdleBaseCompaction token
            settledMessages).1.preparedCompactions.get? prepared = some state ∧
          p.compactionEligible state = true ∧ state.settledMessages = settledMessages ∧
          prepared < (p.prepareIdleBaseCompaction token settledMessages).1.nextToken := by
  unfold SessionLiveProjection.prepareIdleBaseCompaction
  dsimp only
  split
  · exact ⟨.compactionTokens _ (Nat.le_refl _), fun _ h => by cases h⟩
  · exact ⟨.compactionTokens _ (Nat.le_refl _), fun _ h => by cases h⟩
  · rename_i state hstate
    obtain ⟨hrevision, hbase, hmessages⟩ := compactionCandidate_some hstate
    refine ⟨⟨rfl, Nat.le_succ _, fun _ _ => Or.inl, fun _ _ hget _ => hget, ?_, ?_⟩, ?_⟩
    · intro other kept hget
      rw [InsertionMap.get?_insert] at hget
      split at hget
      · rename_i hother
        cases hget
        exact Or.inr ⟨hother.ge, hother ▸ Nat.lt_succ_self _, hrevision, hbase⟩
      · exact Or.inl hget
    · intro other kept hget _
      have hold := (h.compaction other kept hget).1
      change (p.preparedCompactions.insert p.nextToken _).get? other = some kept
      rw [InsertionMap.get?_insert_of_ne _ (by omega), hget]
    · rintro prepared ⟨⟩
      refine ⟨state, InsertionMap.get?_insert_self _ _ _, ?_, hmessages, Nat.lt_succ_self _⟩
      simp [compactionEligible, hrevision, hbase]

/-- An eligible batch is committed as it was prepared, and every other commit drops a stale
token. -/
theorem commitPreparedBatch_spec (p : SessionLiveProjection J T) (token : ℕ) :
    (∃ prepared, p.preparedBatches.get? token = some prepared ∧
        p.batchEligible prepared = true ∧
        p.commitPreparedBatch token =
          ({ p with
            preparedBatches := p.preparedBatches.erase token
            live := prepared.candidate
            revision := p.revision + 1 }, some prepared.candidate.asOfSeq)) ∨
      ((∀ prepared, p.preparedBatches.get? token = some prepared →
          ¬ p.batchEligible prepared = true) ∧
        p.Unchanged (p.commitPreparedBatch token).1 ∧ (p.commitPreparedBatch token).2 = none) := by
  unfold commitPreparedBatch
  cases hget : p.preparedBatches.get? token with
  | none => exact Or.inr ⟨nofun, .refl p, rfl⟩
  | some prepared =>
    dsimp only
    split
    · rename_i heligible
      exact Or.inl ⟨prepared, rfl, heligible, rfl⟩
    · rename_i hstale
      refine Or.inr ⟨?_, .eraseBatch hget hstale, rfl⟩
      rintro _ ⟨⟩
      exact hstale

/-- An eligible compaction is committed as it was prepared, and every other commit drops a stale
token. -/
theorem commitPreparedIdleBaseCompaction_spec (p : SessionLiveProjection J T) (token : ℕ) :
    (∃ prepared, p.preparedCompactions.get? token = some prepared ∧
        p.compactionEligible prepared = true ∧
        p.commitPreparedIdleBaseCompaction token =
          ({ p with
            preparedCompactions := p.preparedCompactions.erase token
            settledMessages := prepared.settledMessages
            settledMessageBytes := prepared.settledMessageBytes
            baseSeq := prepared.baseSeq
            live := withoutEvents p.live
            revision := p.revision + 1 }, true)) ∨
      ((∀ prepared, p.preparedCompactions.get? token = some prepared →
          ¬ p.compactionEligible prepared = true) ∧
        p.Unchanged (p.commitPreparedIdleBaseCompaction token).1 ∧
        (p.commitPreparedIdleBaseCompaction token).2 = false) := by
  unfold commitPreparedIdleBaseCompaction
  cases hget : p.preparedCompactions.get? token with
  | none => exact Or.inr ⟨nofun, .refl p, rfl⟩
  | some prepared =>
    have htest : p.compactionEligible prepared = true ↔
        prepared.revision = p.revision ∧ prepared.baseSeq = p.live.asOfSeq := by
      simp [compactionEligible]
    dsimp only
    split
    · rename_i heligible
      exact Or.inl ⟨prepared, rfl, htest.mpr heligible, rfl⟩
    · rename_i hstale
      refine Or.inr ⟨?_, .eraseCompaction hget (mt htest.mp hstale), rfl⟩
      rintro _ ⟨⟩
      exact mt htest.mp hstale

theorem Issued.call_unchanged (h : p.Issued) {call : ProjectionCall J T}
    (heffect : p.takesEffect call = false) : p.Unchanged (p.call call) := by
  cases call with
  | prepareBatch identity inputs runtimePhase =>
    unfold SessionLiveProjection.call
    dsimp only
    split
    · rename_i hok
      exact (h.prepareBatch hok).1
    · exact .refl p
  | previewPreparedBatch token =>
    unfold SessionLiveProjection.call previewPreparedBatch
    dsimp only
    split
    · exact .refl p
    · rename_i hget
      split
      · exact .refl p
      · rename_i hstale
        exact .eraseBatch hget hstale
  | commitPreparedBatch token =>
    rcases commitPreparedBatch_spec p token with ⟨_, _, _, heq⟩ | ⟨_, hsame, _⟩
    · simp [takesEffect, heq] at heffect
    · exact hsame
  | setRuntimePhase identity phase =>
    unfold SessionLiveProjection.call
    dsimp only
    split
    · rename_i hok
      simp [takesEffect, hok, Except.isOk, Except.toBool] at heffect
    · exact .refl p
  | beginIdleBaseCompaction =>
    unfold SessionLiveProjection.call SessionLiveProjection.beginIdleBaseCompaction
    dsimp only
    split
    · exact .refl p
    · exact .compactionTokens _ (Nat.le_succ _)
  | prepareIdleBaseCompaction token settledMessages =>
    exact (h.prepareIdleBaseCompaction token settledMessages).1
  | previewPreparedIdleBaseCompaction token =>
    unfold SessionLiveProjection.call previewPreparedIdleBaseCompaction
    dsimp only
    split
    · exact .refl p
    · rename_i hget
      split
      · exact .refl p
      · rename_i hstale
        exact .eraseCompaction hget hstale
  | commitPreparedIdleBaseCompaction token =>
    rcases commitPreparedIdleBaseCompaction_spec p token with ⟨_, _, _, heq⟩ | ⟨_, hsame, _⟩
    · simp [takesEffect, heq] at heffect
    · exact hsame

theorem call_revised {call : ProjectionCall J T} (heffect : p.takesEffect call = true) :
    p.Revised (p.call call) := by
  cases call with
  | commitPreparedBatch token =>
    rcases commitPreparedBatch_spec p token with ⟨_, _, _, heq⟩ | ⟨_, _, hnone⟩
    · unfold SessionLiveProjection.call
      dsimp only
      rw [heq]
      exact ⟨rfl, rfl, fun _ _ h => get?_of_get?_erase h, fun _ _ h => h⟩
    · simp [takesEffect, hnone] at heffect
  | setRuntimePhase identity phase =>
    unfold SessionLiveProjection.call
    dsimp only
    split
    · rename_i hok
      obtain ⟨-, rfl⟩ := setRuntimePhase_ok hok
      exact ⟨rfl, rfl, fun _ _ h => h, fun _ _ h => h⟩
    · rename_i herror
      simp [takesEffect, herror, Except.isOk, Except.toBool] at heffect
  | commitPreparedIdleBaseCompaction token =>
    rcases commitPreparedIdleBaseCompaction_spec p token with ⟨_, _, _, heq⟩ | ⟨_, _, hfalse⟩
    · unfold SessionLiveProjection.call
      dsimp only
      rw [heq]
      exact ⟨rfl, rfl, fun _ _ h => h, fun _ _ h => get?_of_get?_erase h⟩
    · simp [takesEffect, hfalse] at heffect
  | _ => cases heffect

theorem revision_of_withoutTokens (h : q.withoutTokens = p.withoutTokens) :
    q.revision = p.revision :=
  (congrArg SessionLiveProjection.revision h :)

theorem live_of_withoutTokens (h : q.withoutTokens = p.withoutTokens) : q.live = p.live :=
  (congrArg SessionLiveProjection.live h :)

theorem batchEligible_of_withoutTokens (h : q.withoutTokens = p.withoutTokens)
    (prepared : PreparedBatchState J T) : q.batchEligible prepared = p.batchEligible prepared := by
  unfold batchEligible
  rw [revision_of_withoutTokens h, live_of_withoutTokens h]

theorem compactionEligible_of_withoutTokens (h : q.withoutTokens = p.withoutTokens)
    (prepared : PreparedCompactionState J T) :
    q.compactionEligible prepared = p.compactionEligible prepared := by
  unfold compactionEligible
  rw [revision_of_withoutTokens h, live_of_withoutTokens h]

/-! ## Tokens along a run -/

theorem Issued.unchanged (h : p.Issued) (hq : p.Unchanged q) : q.Issued where
  batch token prepared hget := by
    rw [revision_of_withoutTokens hq.same, batchEligible_of_withoutTokens hq.same]
    rcases hq.batch token prepared hget with hold | ⟨_, hissued, hrevision, heligible⟩
    · obtain ⟨hissued, hpast, heligible⟩ := h.batch token prepared hold
      exact ⟨hissued.trans_le hq.nextToken, hpast, heligible⟩
    · exact ⟨hissued, hrevision.le, fun _ => heligible⟩
  compaction token prepared hget := by
    rw [revision_of_withoutTokens hq.same, live_of_withoutTokens hq.same]
    rcases hq.compaction token prepared hget with hold | ⟨_, hissued, hrevision, hbase⟩
    · obtain ⟨hissued, hpast, hbase⟩ := h.compaction token prepared hold
      exact ⟨hissued.trans_le hq.nextToken, hpast, hbase⟩
    · exact ⟨hissued, hrevision.le, fun _ => hbase⟩

theorem Issued.revised (h : p.Issued) (hq : p.Revised q) : q.Issued where
  batch token prepared hget := by
    obtain ⟨hissued, hpast, _⟩ := h.batch token prepared (hq.batch token prepared hget)
    have hrevision := hq.revision
    exact ⟨hq.nextToken.symm ▸ hissued, by omega, fun _ => by omega⟩
  compaction token prepared hget := by
    obtain ⟨hissued, hpast, _⟩ := h.compaction token prepared (hq.compaction token prepared hget)
    have hrevision := hq.revision
    exact ⟨hq.nextToken.symm ▸ hissued, by omega, fun _ => by omega⟩

theorem Issued.call (h : p.Issued) (call : ProjectionCall J T) : (p.call call).Issued := by
  cases heffect : p.takesEffect call with
  | false => exact h.unchanged (h.call_unchanged heffect)
  | true => exact h.revised (call_revised heffect)

theorem StaleBatch.call {token : ℕ} (hstale : p.StaleBatch token) (h : p.Issued)
    (call : ProjectionCall J T) : (p.call call).StaleBatch token := by
  obtain ⟨hissued, hpast⟩ := hstale
  cases heffect : p.takesEffect call with
  | false =>
    have hq := h.call_unchanged heffect
    refine ⟨hissued.trans_le hq.nextToken, ?_⟩
    intro prepared hget
    rw [revision_of_withoutTokens hq.same]
    rcases hq.batch token prepared hget with hold | ⟨hnew, _⟩
    · exact hpast prepared hold
    · omega
  | true =>
    have hq := call_revised heffect
    refine ⟨hq.nextToken.symm ▸ hissued, ?_⟩
    intro prepared hget
    have := hpast prepared (hq.batch token prepared hget)
    have hrevision := hq.revision
    omega

theorem StaleCompaction.call {token : ℕ} (hstale : p.StaleCompaction token) (h : p.Issued)
    (call : ProjectionCall J T) : (p.call call).StaleCompaction token := by
  obtain ⟨hissued, hpast⟩ := hstale
  cases heffect : p.takesEffect call with
  | false =>
    have hq := h.call_unchanged heffect
    refine ⟨hissued.trans_le hq.nextToken, ?_⟩
    intro prepared hget
    rw [revision_of_withoutTokens hq.same]
    rcases hq.compaction token prepared hget with hold | ⟨hnew, _⟩
    · exact hpast prepared hold
    · omega
  | true =>
    have hq := call_revised heffect
    refine ⟨hq.nextToken.symm ▸ hissued, ?_⟩
    intro prepared hget
    have := hpast prepared (hq.compaction token prepared hget)
    have hrevision := hq.revision
    omega

theorem Issued.stale_of_takesEffect (h : p.Issued) {call : ProjectionCall J T}
    (heffect : p.takesEffect call = true) {token : ℕ} (hissued : token < p.nextToken) :
    (p.call call).StaleBatch token ∧ (p.call call).StaleCompaction token := by
  have hq := call_revised heffect
  have hrevision := hq.revision
  refine ⟨⟨hq.nextToken.symm ▸ hissued, ?_⟩, hq.nextToken.symm ▸ hissued, ?_⟩
  · intro prepared hget
    have := (h.batch token prepared (hq.batch token prepared hget)).2.1
    omega
  · intro prepared hget
    have := (h.compaction token prepared (hq.compaction token prepared hget)).2.1
    omega

/-- No call has an effect. -/
def WithoutEffect (p : SessionLiveProjection J T) (calls : List (ProjectionCall J T)) : Prop :=
  RunMeets SessionLiveProjection.call (fun p call => p.takesEffect call = false) p calls

theorem Issued.run_unchanged (h : p.Issued) {calls : List (ProjectionCall J T)}
    (hcalls : p.WithoutEffect calls) :
    (runFrom SessionLiveProjection.call p calls).withoutTokens = p.withoutTokens ∧
      (∀ token prepared, p.preparedBatches.get? token = some prepared →
        p.batchEligible prepared = true →
        (runFrom SessionLiveProjection.call p calls).preparedBatches.get? token = some prepared) ∧
      ∀ token prepared, p.preparedCompactions.get? token = some prepared →
        p.compactionEligible prepared = true →
        (runFrom SessionLiveProjection.call p calls).preparedCompactions.get? token =
          some prepared := by
  induction calls generalizing p with
  | nil => exact ⟨rfl, fun _ _ hget _ => hget, fun _ _ hget _ => hget⟩
  | cons call rest ih =>
    have hq := h.call_unchanged hcalls.1
    obtain ⟨hsame, hbatch, hcompaction⟩ := ih (h.call call) hcalls.2
    refine ⟨hsame.trans hq.same, ?_, ?_⟩
    · intro token prepared hget heligible
      exact hbatch token prepared (hq.keepsBatch token prepared hget heligible)
        (batchEligible_of_withoutTokens hq.same prepared ▸ heligible)
    · intro token prepared hget heligible
      exact hcompaction token prepared (hq.keepsCompaction token prepared hget heligible)
        (compactionEligible_of_withoutTokens hq.same prepared ▸ heligible)

/-- One call with an effect makes every token stale that was issued before. -/
theorem Issued.run_stale (h : p.Issued) {calls : List (ProjectionCall J T)}
    (hcalls : ¬ p.WithoutEffect calls) {token : ℕ} (hissued : token < p.nextToken) :
    (runFrom SessionLiveProjection.call p calls).StaleBatch token ∧
      (runFrom SessionLiveProjection.call p calls).StaleCompaction token := by
  induction calls generalizing p with
  | nil => exact absurd trivial hcalls
  | cons call rest ih =>
    cases heffect : p.takesEffect call with
    | false =>
      refine ih (h.call call) ?_ (hissued.trans_le (h.call_unchanged heffect).nextToken)
      exact fun hrest => hcalls ⟨heffect, hrest⟩
    | true =>
      obtain ⟨hbatch, hcompaction⟩ := h.stale_of_takesEffect heffect hissued
      have hstep : ∀ (q : SessionLiveProjection J T) (call : ProjectionCall J T),
          q.Issued ∧ q.StaleBatch token ∧ q.StaleCompaction token →
            (q.call call).Issued ∧ (q.call call).StaleBatch token ∧
              (q.call call).StaleCompaction token := fun q call hq =>
        ⟨hq.1.call call, hq.2.1.call hq.1 call, hq.2.2.call hq.1 call⟩
      exact (runFrom_invariant hstep rest ⟨h.call call, hbatch, hcompaction⟩).2

theorem StaleBatch.commit {token : ℕ} (h : p.StaleBatch token) :
    (p.commitPreparedBatch token).2 = none ∧
      (p.commitPreparedBatch token).1.withoutTokens = p.withoutTokens := by
  rcases commitPreparedBatch_spec p token with ⟨prepared, hget, heligible, _⟩ | ⟨_, hsame, hnone⟩
  · have hpast := h.2 prepared hget
    simp only [batchEligible, Bool.and_eq_true, beq_iff_eq] at heligible
    omega
  · exact ⟨hnone, hsame.same⟩

theorem StaleCompaction.commit {token : ℕ} (h : p.StaleCompaction token) :
    (p.commitPreparedIdleBaseCompaction token).2 = false ∧
      (p.commitPreparedIdleBaseCompaction token).1.withoutTokens = p.withoutTokens := by
  rcases commitPreparedIdleBaseCompaction_spec p token with
    ⟨prepared, hget, heligible, _⟩ | ⟨_, hsame, hfalse⟩
  · have hpast := h.2 prepared hget
    simp only [compactionEligible, Bool.and_eq_true, beq_iff_eq] at heligible
    omega
  · exact ⟨hfalse, hsame.same⟩

/-! ## The log of commits -/

theorem Issued.committed (h : p.Issued) (call : ProjectionCall J T) :
    (∀ record ∈ p.committed call, p.takesEffect call = true ∧ record.preparedAt = p.revision) ∧
      p.live.asOfSeq ≤ (p.call call).live.asOfSeq ∧
      (p.committed call).toList.flatMap (·.seqs) =
        List.range' (p.live.asOfSeq + 1) ((p.call call).live.asOfSeq - p.live.asOfSeq) := by
  have hnothing : ∀ {q : SessionLiveProjection J T}, q.live.asOfSeq = p.live.asOfSeq →
      p.live.asOfSeq ≤ q.live.asOfSeq ∧
        ([] : List ℕ) = List.range' (p.live.asOfSeq + 1) (q.live.asOfSeq - p.live.asOfSeq) := by
    intro q hseq
    rw [hseq, Nat.sub_self]
    exact ⟨Nat.le_refl _, rfl⟩
  cases call with
  | commitPreparedBatch token =>
    rcases commitPreparedBatch_spec p token with
      ⟨prepared, hget, heligible, heq⟩ | ⟨_, hsame, hnone⟩
    · have hcommitted : p.committed (.commitPreparedBatch token) =
          some ⟨prepared.revision, List.range' prepared.firstSeq prepared.count⟩ := by
        simp [SessionLiveProjection.committed, heq, hget]
      have hcall : p.call (.commitPreparedBatch token) = (p.commitPreparedBatch token).1 := rfl
      simp only [batchEligible, Bool.and_eq_true, beq_iff_eq] at heligible
      obtain ⟨⟨⟨hrevision, hfirst⟩, hlast⟩, hcount⟩ := heligible
      rw [hcommitted, hcall, heq]
      refine ⟨?_, ?_, ?_⟩
      · rintro record ⟨⟩
        exact ⟨by simp [takesEffect, heq], hrevision⟩
      · change p.live.asOfSeq ≤ prepared.candidate.asOfSeq
        omega
      · change List.range' prepared.firstSeq prepared.count ++ [] =
          List.range' _ (prepared.candidate.asOfSeq - p.live.asOfSeq)
        rw [List.append_nil, hfirst]
        congr 1
        omega
    · have hcommitted : p.committed (.commitPreparedBatch token) = none := by
        simp [SessionLiveProjection.committed, hnone]
      rw [hcommitted]
      exact ⟨by simp, hnothing
        (congrArg ProjectionCandidate.asOfSeq (live_of_withoutTokens hsame.same))⟩
  | commitPreparedIdleBaseCompaction token =>
    rcases commitPreparedIdleBaseCompaction_spec p token with
      ⟨prepared, hget, heligible, heq⟩ | ⟨_, hsame, hfalse⟩
    · have hcommitted : p.committed (.commitPreparedIdleBaseCompaction token) =
          some ⟨prepared.revision, []⟩ := by
        simp [SessionLiveProjection.committed, heq, hget]
      have hcall : p.call (.commitPreparedIdleBaseCompaction token) =
        (p.commitPreparedIdleBaseCompaction token).1 := rfl
      simp only [compactionEligible, Bool.and_eq_true, beq_iff_eq] at heligible
      rw [hcommitted, hcall, heq]
      refine ⟨?_, hnothing rfl⟩
      rintro record ⟨⟩
      exact ⟨by simp [takesEffect, heq], heligible.1⟩
    · have hcommitted : p.committed (.commitPreparedIdleBaseCompaction token) = none := by
        simp [SessionLiveProjection.committed, hfalse]
      rw [hcommitted]
      exact ⟨by simp, hnothing
        (congrArg ProjectionCandidate.asOfSeq (live_of_withoutTokens hsame.same))⟩
  | setRuntimePhase identity phase =>
    refine ⟨by simp [SessionLiveProjection.committed], hnothing ?_⟩
    unfold SessionLiveProjection.call
    dsimp only
    split
    · rename_i hok
      obtain ⟨-, rfl⟩ := setRuntimePhase_ok hok
      rfl
    · rfl
  | _ =>
    exact ⟨by simp [SessionLiveProjection.committed], hnothing (congrArg ProjectionCandidate.asOfSeq
      (live_of_withoutTokens (h.call_unchanged rfl).same))⟩

/-- Along a run, tokens are committed at increasing revisions and number what they commit without
gaps. -/
theorem Issued.commitLog (h : p.Issued) (calls : List (ProjectionCall J T)) :
    (∀ record ∈ p.commitLog calls, p.revision ≤ record.preparedAt) ∧
      ((p.commitLog calls).map (·.preparedAt)).Pairwise (· < ·) ∧
      p.live.asOfSeq ≤ (runFrom SessionLiveProjection.call p calls).live.asOfSeq ∧
      (p.commitLog calls).flatMap (·.seqs) = List.range' (p.live.asOfSeq + 1)
        ((runFrom SessionLiveProjection.call p calls).live.asOfSeq - p.live.asOfSeq) := by
  induction calls generalizing p with
  | nil =>
    refine ⟨nofun, List.Pairwise.nil, Nat.le_refl _, ?_⟩
    rw [runFrom_nil, Nat.sub_self]
    rfl
  | cons call rest ih =>
    obtain ⟨hpast, hincreasing, hle, hseqs⟩ := ih (h.call call)
    obtain ⟨hrecord, hle', hseqs'⟩ := h.committed call
    have hrevision : p.revision ≤ (p.call call).revision := by
      cases heffect : p.takesEffect call with
      | false => exact (revision_of_withoutTokens (h.call_unchanged heffect).same).ge
      | true => exact (call_revised heffect).revision ▸ Nat.le_succ _
    rw [SessionLiveProjection.commitLog, runFrom_cons]
    refine ⟨?_, ?_, hle'.trans hle, ?_⟩
    · intro record hmem
      rcases List.mem_append.mp hmem with hfirst | hlater
      · exact (hrecord record (Option.mem_toList.mp hfirst)).2.ge
      · exact hrevision.trans (hpast record hlater)
    · rw [List.map_append, List.pairwise_append]
      refine ⟨?_, hincreasing, ?_⟩
      · cases p.committed call
        · exact List.Pairwise.nil
        · exact List.pairwise_singleton _ _
      · intro first hfirst later hlater
        obtain ⟨record, hmem, rfl⟩ := List.mem_map.mp hfirst
        obtain ⟨other, hother, rfl⟩ := List.mem_map.mp hlater
        obtain ⟨heffect, hat⟩ := hrecord record (Option.mem_toList.mp hmem)
        have hlast := hpast other hother
        rw [(call_revised heffect).revision] at hlast
        omega
    · rw [List.flatMap_append, hseqs', hseqs]
      have hstart : (p.call call).live.asOfSeq + 1 = p.live.asOfSeq + 1 +
          ((p.call call).live.asOfSeq - p.live.asOfSeq) := by omega
      rw [hstart, List.range'_append_1]
      congr 1
      omega

theorem issued_of_create {identity : SessionLiveProjectionIdentity}
    {limits : SessionLiveProjectionLimits} {codec : PayloadCodec J T}
    {schema : Option (SessionProjectionProductSchema J T)}
    {settledMessages : List (SessionMessage J T)} {baseSeq : ℕ}
    {runtimePhase : SessionLiveRuntimePhase}
    (h : create identity limits codec schema settledMessages baseSeq runtimePhase = .ok p) :
    p.Issued := by
  obtain ⟨-, hbatches, hcompactions, -⟩ := create_ok h
  constructor
  · simp [hbatches]
  · simp [hcompactions]

theorem Sized.call (h : p.Sized) (call : ProjectionCall J T) : (p.call call).Sized := by
  cases call with
  | prepareBatch identity inputs runtimePhase =>
    have hstep := h.step (.prepareBatch identity inputs runtimePhase)
    unfold SessionLiveProjection.call
    cases hok : p.prepareBatch identity inputs runtimePhase with
    | error error => simpa [hok] using h
    | ok next => simpa [LiveProjectionRun.step, hok] using hstep
  | commitPreparedBatch token =>
    have hstep := h.step (.commitPreparedBatch token)
    unfold SessionLiveProjection.call
    cases hcommit : p.commitPreparedBatch token with
    | mk next seq => cases seq <;> simpa [LiveProjectionRun.step, hcommit] using hstep
  | setRuntimePhase identity phase =>
    have hstep := h.step (.setRuntimePhase identity phase)
    unfold SessionLiveProjection.call
    cases hok : p.setRuntimePhase identity phase with
    | error error => simpa [hok] using h
    | ok next => simpa [LiveProjectionRun.step, hok] using hstep
  | beginIdleBaseCompaction => exact h.step .beginIdleBaseCompaction
  | prepareIdleBaseCompaction token settledMessages =>
    exact h.step (.prepareIdleBaseCompaction token settledMessages)
  | commitPreparedIdleBaseCompaction token =>
    have hstep := h.step (.commitPreparedIdleBaseCompaction token)
    unfold SessionLiveProjection.call
    cases hcommit : p.commitPreparedIdleBaseCompaction token with
    | mk next done => cases done <;> simpa [LiveProjectionRun.step, hcommit] using hstep
  | previewPreparedBatch token =>
    unfold SessionLiveProjection.call previewPreparedBatch
    dsimp only
    split
    · exact h
    · split
      · exact h
      · exact h.tokens _ _ _ _ (fun _ _ hget => Or.inl (get?_of_get?_erase hget))
          fun _ _ => Or.inl
  | previewPreparedIdleBaseCompaction token =>
    unfold SessionLiveProjection.call previewPreparedIdleBaseCompaction
    dsimp only
    split
    · exact h
    · split
      · exact h
      · exact h.tokens _ _ _ _ (fun _ _ => Or.inl)
          fun _ _ hget => Or.inl (get?_of_get?_erase hget)

/-- **Two-phase commits are atomic.** In every state of a projection, a call that does not take
effect changes nothing but tokens. A prepared batch or compaction commits what was prepared if no
call has taken effect since, and is refused without a trace otherwise. Committed tokens were
prepared at increasing revisions, so that at most one of those of a revision commits; their
sequence numbers are contiguous; and the frames of the suffix are numbered among them, in order. -/
theorem two_phase_commits {identity : SessionLiveProjectionIdentity}
    {limits : SessionLiveProjectionLimits} {codec : PayloadCodec J T}
    {schema : Option (SessionProjectionProductSchema J T)}
    {settledMessages : List (SessionMessage J T)} {baseSeq : ℕ}
    {runtimePhase : SessionLiveRuntimePhase} {fresh : SessionLiveProjection J T}
    (hcreate : create identity limits codec schema settledMessages baseSeq runtimePhase =
      .ok fresh)
    (calls : List (ProjectionCall J T)) :
    let p := runFrom SessionLiveProjection.call fresh calls
    (∀ call, p.takesEffect call = false → (p.call call).withoutTokens = p.withoutTokens) ∧
      (∀ identity inputs runtimePhase next token,
        p.prepareBatch identity inputs runtimePhase = .ok (next, token) →
        ∀ later, let q := runFrom SessionLiveProjection.call next later
          (next.WithoutEffect later →
            ∃ candidate, inputs.foldlM (p.reduceCandidate runtimePhase) p.live = .ok candidate ∧
              (q.commitPreparedBatch token).2 = some (p.live.asOfSeq + inputs.length) ∧
              (q.commitPreparedBatch token).1.withoutTokens =
                { p.withoutTokens with live := candidate, revision := p.revision + 1 }) ∧
          (¬ next.WithoutEffect later →
            (q.commitPreparedBatch token).2 = none ∧
              (q.commitPreparedBatch token).1.withoutTokens = q.withoutTokens)) ∧
      (∀ token messages prepared,
        (p.prepareIdleBaseCompaction token messages).2 = .ok (some prepared) →
        ∀ later, let next := (p.prepareIdleBaseCompaction token messages).1
          let q := runFrom SessionLiveProjection.call next later
          (next.WithoutEffect later →
            (q.commitPreparedIdleBaseCompaction prepared).2 = true ∧
              ∃ settledMessageBytes,
                (q.commitPreparedIdleBaseCompaction prepared).1.withoutTokens =
                  { p.withoutTokens with
                    baseSeq := p.live.asOfSeq, settledMessages := messages
                    settledMessageBytes := settledMessageBytes, live := withoutEvents p.live
                    revision := p.revision + 1 }) ∧
          (¬ next.WithoutEffect later →
            (q.commitPreparedIdleBaseCompaction prepared).2 = false ∧
              (q.commitPreparedIdleBaseCompaction prepared).1.withoutTokens = q.withoutTokens)) ∧
      ((fresh.commitLog calls).map (·.preparedAt)).Pairwise (· < ·) ∧
      (fresh.commitLog calls).flatMap (·.seqs) =
        List.range' (fresh.live.asOfSeq + 1) (p.live.asOfSeq - fresh.live.asOfSeq) ∧
      (p.live.projectionEvents.map (·.seq)).Pairwise (· < ·) ∧
      ∀ frame ∈ p.live.projectionEvents, p.baseSeq < frame.seq ∧ frame.seq ≤ p.live.asOfSeq := by
  intro p
  have hfresh := issued_of_create hcreate
  have h : p.Issued :=
    runFrom_invariant (I := Issued) (fun _ call hp => hp.call call) calls hfresh
  have hsized : p.Sized :=
    runFrom_invariant (I := Sized) (fun _ call hp => hp.call call) calls (Sized.create hcreate)
  obtain ⟨_, hrevisions, _, hseqs⟩ := hfresh.commitLog calls
  refine ⟨fun call heffect => (h.call_unchanged heffect).same, ?_, ?_, hrevisions, hseqs, ?_,
    hsized.live.bounded⟩
  · intro identity inputs runtimePhase next token hok later q
    obtain ⟨hnext, prepared, hget, heligible, hissued, hseq, hfold⟩ := h.prepareBatch hok
    refine ⟨?_, fun heffect => ((h.unchanged hnext).run_stale heffect hissued).1.commit⟩
    intro hlater
    obtain ⟨hsame, hkept, _⟩ := (h.unchanged hnext).run_unchanged hlater
    have hunchanged : q.withoutTokens = p.withoutTokens := hsame.trans hnext.same
    rcases commitPreparedBatch_spec q token with ⟨other, hother, _, heq⟩ | ⟨hnone, _⟩
    · obtain rfl : prepared = other :=
        Option.some.inj ((hkept token prepared hget heligible).symm.trans hother)
      refine ⟨prepared.candidate, hfold, ?_, ?_⟩
      · rw [heq, hseq]
      · rw [heq, ← hunchanged]
        rw [← revision_of_withoutTokens hunchanged]
        rfl
    · have hstate : q.batchEligible prepared = next.batchEligible prepared :=
        batchEligible_of_withoutTokens hsame prepared
      exact absurd (hstate.trans heligible) (hnone prepared (hkept token prepared hget heligible))
  · intro token messages prepared hok later next q
    obtain ⟨hnext, hprepared⟩ := h.prepareIdleBaseCompaction token messages
    obtain ⟨state, hget, heligible, hmessages, hissued⟩ := hprepared prepared hok
    refine ⟨?_, fun heffect => ((h.unchanged hnext).run_stale heffect hissued).2.commit⟩
    intro hlater
    obtain ⟨hsame, _, hkept⟩ := (h.unchanged hnext).run_unchanged hlater
    have heligible' : next.compactionEligible state = true :=
      (compactionEligible_of_withoutTokens hnext.same state).trans heligible
    have hunchanged : q.withoutTokens = p.withoutTokens := hsame.trans hnext.same
    rcases commitPreparedIdleBaseCompaction_spec q prepared with
      ⟨other, hother, _, heq⟩ | ⟨hnone, _⟩
    · obtain rfl : state = other :=
        Option.some.inj ((hkept prepared state hget heligible').symm.trans hother)
      simp only [compactionEligible, Bool.and_eq_true, beq_iff_eq] at heligible
      rw [heq, ← heligible.2, ← hmessages, ← hunchanged, ← revision_of_withoutTokens hunchanged,
        ← live_of_withoutTokens hunchanged]
      exact ⟨rfl, state.settledMessageBytes, rfl⟩
    · have hstate : q.compactionEligible state = next.compactionEligible state :=
        compactionEligible_of_withoutTokens hsame state
      exact absurd (hstate.trans heligible') (hnone state (hkept prepared state hget heligible'))
  · rw [List.pairwise_map]
    exact hsized.live.increasing

/-- Two batches are prepared at one revision: the first one commits, the second one is refused. -/
theorem two_phase_commits_two_tokens :
    ∃ fresh, sampleProjection = .ok fresh ∧
      let calls : List (ProjectionCall Json Json) :=
        [.prepareBatch sampleIdentity [.event (sampleDelta "He"), .event (sampleDelta "llo")] none,
          .prepareBatch sampleIdentity [.event (sampleDelta "Hi")] none,
          .commitPreparedBatch 0, .commitPreparedBatch 1]
      fresh.commitLog calls = [⟨0, [5, 6]⟩] ∧
        ((fresh.commitLog calls).map (·.preparedAt)).Pairwise (· < ·) := by
  have hlog : (sampleProjection.toOption.map fun fresh => fresh.commitLog
      [.prepareBatch sampleIdentity [.event (sampleDelta "He"), .event (sampleDelta "llo")] none,
        .prepareBatch sampleIdentity [.event (sampleDelta "Hi")] none,
        .commitPreparedBatch 0, .commitPreparedBatch 1]) = some [⟨0, [5, 6]⟩] := by
    decide +kernel
  cases hcreate : sampleProjection with
  | error error => simp [hcreate, Except.toOption] at hlog
  | ok fresh =>
    rw [hcreate] at hlog
    obtain ⟨_, _, _, hrevisions, _⟩ := two_phase_commits hcreate
      [.prepareBatch sampleIdentity [.event (sampleDelta "He"), .event (sampleDelta "llo")] none,
        .prepareBatch sampleIdentity [.event (sampleDelta "Hi")] none,
        .commitPreparedBatch 0, .commitPreparedBatch 1]
    exact ⟨fresh, rfl, Option.some.inj hlog, hrevisions⟩

end SessionLiveProjection

end PiAgentWeb
