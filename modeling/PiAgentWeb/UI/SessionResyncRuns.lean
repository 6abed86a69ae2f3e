import PiAgentWeb.UI.SessionResyncSteps

/-!
# Runs of the resync coordinator

Every method keeps the invariant, whatever the callbacks do in the middle of it, with two
exceptions. No callback may add an entry while `start` or `rekey` clears the entries it replaces:
the new entry would overwrite that one. And none may resume the attempts while `runAttempt` aborts a
task: the new task would overwrite that of the entry. Two attempts would be live for one handle.
Timers and settled attempts keep the invariant as well, so it holds in every run.
-/

namespace PiAgentWeb

namespace ResyncCoordinator

variable {apart : Bool} {still : ℕ → Prop} {c : ResyncCoordinator} {callback : ResyncCallback}
  {callbacks : ResyncCallbacks}

theorem evolves_start (htame : Tame false still callbacks) (identity : SessionRuntimeIdentity)
    (requestedCursorless : Bool) :
    Evolves false still c (c.start callbacks identity requestedCursorless) := by
  intro hc
  unfold start
  split
  · exact Evolved.refl hc
  · split
    · split
      · exact Evolved.refl hc
      · have hcleared : Evolved true still c
            (c.clearEntry callbacks.clearing identity.sessionHandle) :=
          evolves_clearEntry htame.clearing _ hc
        exact hcleared.weaken.trans (evolved_createEntry htame hcleared.sound identity true
          (get?_clearEntry htame.clearing hc _))
    · rename_i hnone
      exact evolved_createEntry htame hc identity requestedCursorless hnone

variable {e : ℕ}

/-- An entry that has given up waits for no attempt, so no signal is aborted when it is retried. -/
theorem evolved_restart (hc : c.Sound) (he : e < c.nextEntry)
    (hdegraded : (c.heap e).state.phase = .degraded) :
    Evolved apart still c (c.restart callback e) ∧
      ((c.restart callback e).heap e).failures = 0 ∧ e < (c.restart callback e).nextEntry := by
  obtain ⟨hsound, he', htask, htimers, hstate, hfailures⟩ := halted hc he
  have hwritten := sound_written hsound he'
    { (c.halt e).heap e with
      failures := 0
      state := { ((c.halt e).heap e).state with
        phase := .syncing
        attempt := 1
        cursorless := true } }
    (c.halt e).timers (c.halt e).nextTimer (c.halt e).nextTaskToken rfl (fun _ => rfl)
    (show 1 = 0 + 1 ∧ 0 < sessionResyncMaxAttempts from ⟨rfl, Nat.zero_lt_succ 3⟩)
    (Nat.le_refl _)
    (fun token h => by rw [show _ = (none : Option ℕ) from htask] at h; cases h)
    (hsound.dead htask)
    (fun timer n hmem => .inl ⟨hmem, fun heq => htimers timer (heq ▸ hmem)⟩)
  have hhalted : Evolved apart still c (c.halt e) := evolved_halt hc e
  have hnone : (c.heap e).task = none := hc.task_none (by rw [hdegraded]; simp)
  unfold restart
  rw [haltEntry_of_none hnone]
  refine ⟨hhalted.trans (evolved_written hwritten (Nat.zero_le _) fun _ => ?_), ?_, he'⟩
  · rw [hstate, hdegraded]
    simp
  · simp [updateEntry]

theorem evolves_manualRetry (htame : Tame apart still callbacks) (sessionHandle : SessionHandle) :
    Evolves apart still c (c.manualRetry callbacks sessionHandle) := by
  intro hc
  unfold manualRetry
  split
  · exact Evolved.refl hc
  · split
    · rename_i e hget
      split
      · exact Evolved.refl hc
      · rename_i hphase
        have hdegraded : (c.heap e).state.phase = .degraded := not_not.mp hphase
        have hothers : Tame apart (fun n => still n ∧ n ≠ e) callbacks :=
          htame.mono fun _ hstill => hstill.1
        obtain ⟨hrestarted, hzero, hlt⟩ :
            Evolved apart (fun n => still n ∧ n ≠ e) c (c.restart callbacks.ordinary e) ∧ _ :=
          evolved_restart hc (hc.mapped _ e hget).1 hdegraded
        have hpublish : Evolved apart (fun n => still n ∧ n ≠ e)
            (c.restart callbacks.ordinary e)
            ((c.restart callbacks.ordinary e).publishEntry callbacks.ordinary e) :=
          evolves_publish hothers.ordinary _ _ hrestarted.sound
        have hretried : Evolved apart (fun n => still n ∧ n ≠ e) c
            (((c.restart callbacks.ordinary e).publishEntry callbacks.ordinary e).runAttempt
              callbacks e 1) := by
          refine (hrestarted.trans hpublish).trans
            (evolves_runAttempt hothers (fun h => h.2 rfl) (fun _ => ?_) hpublish.sound)
          have hle := hpublish.failures e hlt
          rw [hzero] at hle
          have hzero := Nat.le_zero.mp hle
          exact ⟨by rw [hzero], by rw [hzero]; decide⟩
        refine hretried.mono fun n hstill _ hsyncing => ⟨hstill, fun heq => ?_⟩
        rw [heq, hdegraded] at hsyncing
        cases hsyncing
    · exact Evolved.refl hc

theorem evolved_flags (hc : c.Sound) (connected disposed listening : Bool) :
    Evolved apart still c
      { c with connected := connected, disposed := disposed, listening := listening } :=
  .of_same { hc with } { Grows.refl c with } rfl rfl fun _ _ h => h

theorem evolves_foldl {A : Type} {f : ResyncCoordinator → A → ResyncCoordinator} {items : List A}
    (hf : ∀ item ∈ items, ∀ c, Evolves apart still c (f c item)) :
    ∀ c : ResyncCoordinator, Evolves apart still c (items.foldl f c) := by
  induction items with
  | nil => exact fun c hc => Evolved.refl hc
  | cons item rest ih =>
    intro c hc
    have hfirst := hf item (by simp) c hc
    exact hfirst.trans
      (ih (fun other hother => hf other (List.mem_cons_of_mem _ hother)) _ hfirst.sound)

theorem evolves_disconnect (hcallback : ∀ c, Evolves apart still c (callback c))
    (visited : List ℕ) : Evolves apart still c (c.disconnect callback visited) := by
  intro hc
  unfold disconnect
  split
  · exact Evolved.refl hc
  · have hflags : Evolved apart still c { c with connected := false } :=
      evolved_flags hc false c.disposed c.listening
    refine hflags.trans (evolves_foldl (fun e _ c hc => ?_) _ hflags.sound)
    split
    · exact evolves_haltEntry hcallback e hc
    · exact Evolved.refl hc

theorem evolves_reconnect (htame : Tame apart still callbacks) (hfree : ∀ e, ¬ still e)
    (visited : List ℕ) : Evolves apart still c (c.reconnect callbacks visited) := by
  intro hc
  unfold reconnect
  split
  · exact Evolved.refl hc
  · have hflags : Evolved apart still c { c with connected := true } :=
      evolved_flags hc true c.disposed c.listening
    refine hflags.trans (evolves_foldl (fun e _ c hc => ?_) _ hflags.sound)
    unfold resume
    split
    · exact Evolved.refl hc
    · rename_i hguard
      have hcurrent : c.entries.get? (c.handleOf e) = some e := by
        simpa [isEntryCurrent] using hguard
      have hphase := hc.phase e (hc.mapped _ e hcurrent).1
      split
      · exact Evolved.refl hc
      · exact evolved_scheduleRetry hc e
      · rename_i hsyncing
        rw [PhaseSound, hsyncing] at hphase
        exact evolves_runAttempt htame (hfree e) (fun _ => ⟨hphase.1.symm, hphase.2⟩) hc

theorem evolves_rekey (htame : Tame false still callbacks) (previousSessionHandle : SessionHandle)
    (identity : SessionRuntimeIdentity) :
    Evolves false still c (c.rekey callbacks previousSessionHandle identity) := by
  -- a handle whose entry was cleared has none, whatever the callbacks do
  have hvacant {c : ResyncCoordinator} (hc : c.Sound) (sessionHandle : SessionHandle) :
      (c.clearEntryPublishing callbacks.clearing sessionHandle).entries.get? sessionHandle =
        none := by
    unfold clearEntryPublishing
    split
    · have hcleared : Evolved true still c (c.clearEntry callbacks.clearing sessionHandle) :=
        evolves_clearEntry htame.clearing _ hc
      exact (evolves_publish htame.clearing sessionHandle none hcleared.sound).vacant rfl _
        (get?_clearEntry htame.clearing hc _)
    · assumption
  intro hc
  unfold rekey
  split
  · exact Evolved.refl hc
  · have hfirst := evolves_clearEntryPublishing htame.clearing previousSessionHandle hc
    dsimp only
    split
    · have hsecond :=
        evolves_clearEntryPublishing htame.clearing identity.sessionHandle hfirst.sound
      exact (hfirst.trans hsecond).weaken.trans (evolved_createEntry htame hsecond.sound
        identity true (hvacant hfirst.sound identity.sessionHandle))
    · rename_i hsame
      have hsame : identity.sessionHandle = previousSessionHandle := not_not.mp hsame
      exact hfirst.weaken.trans (evolved_createEntry htame hfirst.sound identity true
        (hsame ▸ hvacant hc previousSessionHandle))

theorem evolves_dispose (hcallback : ∀ c, Evolves apart still c (callback c)) :
    Evolves apart still c (c.dispose callback) := by
  intro hc
  unfold dispose
  split
  · exact Evolved.refl hc
  · have hflags : Evolved apart still c { c with disposed := true, connected := false } :=
      evolved_flags hc false true c.listening
    have hcleared : Evolved apart still c (c.entries.keys.foldl (clearEntry callback) _) :=
      hflags.trans (evolves_foldl
        (fun sessionHandle _ c => evolves_clearEntry hcallback sessionHandle) _ hflags.sound)
    exact hcleared.trans (evolved_flags hcleared.sound _ _ false)

/-- The call adds an entry. -/
def Call.addsEntry : Call → Bool
  | .start .. | .rekey .. => true
  | _ => false

/-- The call makes attempts of entries that wait for one. -/
def Call.resumes : Call → Bool
  | .reconnect .. => true
  | _ => false

/-- A call that is allowed at its moment. -/
theorem evolves_call {resting : Bool} (htame : Tame apart (fun _ => resting = true) callbacks)
    {next : Call} (hadds : apart = true → next.addsEntry = false)
    (hresumes : resting = true → next.resumes = false) :
    Evolves apart (fun _ => resting = true) c (c.call callbacks next) := by
  cases next with
  | start identity requestedCursorless =>
    cases apart with
    | false => exact evolves_start htame identity requestedCursorless
    | true => cases hadds rfl
  | manualRetry sessionHandle => exact evolves_manualRetry htame sessionHandle
  | disconnect visited => exact evolves_disconnect htame.ordinary visited
  | reconnect visited =>
    refine evolves_reconnect htame (fun _ hresting => ?_) visited
    cases hresumes hresting
  | unsubscribe sessionHandle => exact evolves_clearEntryPublishing htame.ordinary sessionHandle
  | rekey previousSessionHandle identity =>
    cases apart with
    | false => exact evolves_rekey htame previousSessionHandle identity
    | true => cases hadds rfl
  | dispose => exact evolves_dispose htame.ordinary

/-- No callback adds an entry while a `start` or a `rekey` clears the entries it replaces, and none
resumes attempts while a `runAttempt` aborts the task it replaces. -/
def Reaction.Apart (react : Reaction) : Prop :=
  ∀ moment notices, ∀ next ∈ react moment notices,
    (moment.clearing = true → next.addsEntry = false) ∧
      (moment.issuing = true → next.resumes = false)

theorem tame_callbacksOf {handler : ResyncMoment → ResyncCallback}
    (hhandler : ∀ moment c,
      Evolves moment.clearing (fun _ => moment.issuing = true) c (handler moment c))
    (moment : ResyncMoment) :
    Tame moment.clearing (fun _ => moment.issuing = true) (callbacksOf handler moment) where
  ordinary c := hhandler moment c
  clearing c := hhandler { moment with clearing := true } c
  issuing _ c hc := (hhandler { moment with issuing := true } c hc).mono fun _ _ _ _ => rfl

theorem evolves_callbackAt {react : Reaction} (hreact : react.Apart) (depth : ℕ) :
    ∀ moment c,
      Evolves moment.clearing (fun _ => moment.issuing = true) c
        (callbackAt react depth moment c) := by
  induction depth with
  | zero => exact fun moment c hc => Evolved.refl hc
  | succ depth ih =>
    intro moment c
    refine evolves_foldl (fun next hnext c => ?_) c
    obtain ⟨hadds, hresumes⟩ := hreact moment _ next hnext
    exact evolves_call (tame_callbacksOf ih moment) hadds hresumes

theorem evolves_timerFired (htame : Tame apart still callbacks) (hfree : ∀ e, ¬ still e)
    (timer : ℕ) : Evolves apart still c (c.timerFired callbacks timer) := by
  intro hc
  unfold timerFired
  split
  · rename_i found e hfound
    have hmem : (timer, e) ∈ c.timers := by
      have hpredicate := List.find?_some hfound
      obtain rfl : found = timer := by simpa using hpredicate
      exact List.mem_of_find?_eq_some hfound
    obtain ⟨he, htimer, hretry⟩ := hc.timer timer e hmem
    have hphase := hc.phase e he
    have htask := hc.task_none (e := e) (by rw [hretry]; simp)
    have hwritten := sound_written hc he { c.heap e with timer := none }
      (c.timers.filter (·.1 ≠ timer)) c.nextTimer c.nextTaskToken rfl (fun h => h) hphase
      (Nat.le_refl _)
      (fun token h => by rw [show _ = (none : Option ℕ) from htask] at h; cases h)
      (hc.dead htask) (fun other n hother => by
        obtain ⟨hold, hne⟩ := List.mem_filter.mp hother
        refine .inl ⟨hold, fun heq => ?_⟩
        have hsame := (hc.timer other n hold).2.1
        rw [heq, htimer] at hsame
        simp_all)
    have hfired : Evolved apart still c
        { c.updateEntry e (fun entry => { entry with timer := none }) with
          timers := c.timers.filter (·.1 ≠ timer) } :=
      evolved_written hwritten (Nat.le_refl _) fun hstill => absurd hstill (hfree e)
    dsimp only
    split
    · refine hfired.trans (evolves_runAttempt htame (hfree e) (fun _ => ?_) hfired.sound)
      rw [PhaseSound, hretry] at hphase
      have hself : ({ c.updateEntry e (fun entry => { entry with timer := none }) with
          timers := c.timers.filter (·.1 ≠ timer) } : ResyncCoordinator).heap e =
            { c.heap e with timer := none } := if_pos rfl
      unfold Runnable
      rw [hself]
      exact ⟨congrArg (· + 1) hphase.1.symm, hphase.2⟩
    · exact hfired
  · exact Evolved.refl hc

theorem evolved_settled (hc : c.Sound) (token : ℕ) : Evolved apart still c (c.settled token) := by
  refine .of_same { hc with flight := ?_, tokens_nodup := ?_ }
    { Grows.refl c with flights := ?_ } rfl rfl fun _ _ h => h
  · exact fun made hmade => hc.flight made (List.mem_filter.mp hmade).1
  · exact hc.tokens_nodup.sublist (List.filter_sublist.map _)
  · exact fun made hmade => .inl (List.mem_filter.mp hmade).1

/-- The attempt that settles: it is no longer in flight, and it is the one of the entry's task. -/
structure Settling (c : ResyncCoordinator) (e token attempt : ℕ) : Prop where
  current : c.entries.get? (c.handleOf e) = some e
  task : (c.heap e).task = some token
  attempt : (c.heap e).state.attempt = attempt
  landed : ∀ made ∈ c.inFlight, made.token ≠ token

theorem settling_of_isCurrent (hc : c.Sound) {made : SessionResyncAttempt}
    (hmade : made ∈ c.inFlight)
    (hcurrent : (c.settled made.token).isCurrent made.entry made.token = true) :
    (c.settled made.token).Settling made.entry made.token made.attempt := by
  simp only [isCurrent, isEntryCurrent, Bool.and_eq_true, decide_eq_true_eq] at hcurrent
  obtain ⟨hentry, htask⟩ := hcurrent
  refine ⟨hentry, htask, ?_, fun other hother => by simpa using (List.mem_filter.mp hother).2⟩
  rcases (hc.flight made hmade).2.2.2 with haborted | ⟨-, hattempt, -⟩
  · exact absurd haborted (hc.task made.entry made.token htask).2.2.2
  · exact hattempt

theorem Settling.alone {e token attempt : ℕ} (h : c.Settling e token attempt) (hc : c.Sound) :
    e < c.nextEntry ∧ (c.heap e).state.phase = .syncing ∧
      (∀ made ∈ c.inFlight, made.entry = e → made.token ∈ c.aborted) ∧
      ∀ timer, (timer, e) ∉ c.timers := by
  obtain ⟨he, -, hsyncing, -⟩ := hc.task e token h.task
  refine ⟨he, hsyncing, fun made hmade heq => ?_, fun timer hmem => ?_⟩
  · rcases (hc.flight made hmade).2.2.2 with haborted | ⟨hlive, -⟩
    · exact haborted
    · rw [heq, h.task] at hlive
      exact absurd (Option.some.inj hlive).symm (h.landed made hmade)
  · have hretry := (hc.timer timer e hmem).2.2
    rw [hsyncing] at hretry
    cases hretry

theorem grows_failAttempt (hcallback : ∀ c, Evolves apart still c (callback c))
    {token attempt : ℕ} (hc : c.Sound)
    (h : c.isCurrent e token = true → c.Settling e token attempt) :
    (c.failAttempt callback e token attempt).Sound ∧
      Grows c (c.failAttempt callback e token attempt) := by
  unfold failAttempt
  split
  · exact ⟨hc, Grows.refl c⟩
  · rename_i hguard
    have hsettling := h (by simpa using hguard)
    obtain ⟨he, hsyncing, hdead, hunarmed⟩ := hsettling.alone hc
    have hphase := hc.phase e he
    rw [PhaseSound, hsyncing, hsettling.attempt] at hphase
    obtain ⟨hattempt, hbound⟩ := hphase
    set failedEntry : ResyncEntry := { c.heap e with
      task := none
      failures := (c.heap e).failures + 1
      state := { (c.heap e).state with
        phase := if attempt ≥ sessionResyncMaxAttempts then .degraded else .retryWait } }
      with hfailedEntry
    have hsound : PhaseSound failedEntry := by
      unfold PhaseSound
      by_cases hlast : attempt ≥ sessionResyncMaxAttempts
      · simp only [hfailedEntry, if_pos hlast]
        omega
      · simp only [hfailedEntry, if_neg hlast, hsettling.attempt]
        omega
    obtain ⟨hfailed, hgrows⟩ := sound_written hc he failedEntry c.timers c.nextTimer
      c.nextTaskToken rfl (fun h => h) hsound (Nat.le_refl _) (fun token h => by cases h) hdead
      (fun timer n hmem => .inl ⟨hmem, fun heq => hunarmed timer (heq ▸ hmem)⟩)
    set failed : ResyncCoordinator := c.updateEntry e fun entry =>
      { entry with
        task := none
        failures := entry.failures + 1
        state := { entry.state with
          phase := if attempt ≥ sessionResyncMaxAttempts then .degraded else .retryWait } }
      with hfailedState
    have hfailed : failed.Sound := hfailed
    have hgrows : Grows c failed := hgrows
    have hpublish : Evolved apart still failed (failed.publishEntry callback e) :=
      evolves_publish hcallback _ _ hfailed
    dsimp only
    split
    · exact ⟨hpublish.sound, hgrows.trans hpublish.grows⟩
    · split
      · have hscheduled : Evolved apart still (failed.publishEntry callback e)
            ((failed.publishEntry callback e).scheduleRetry e) :=
          evolved_scheduleRetry hpublish.sound e
        exact ⟨hscheduled.sound, (hgrows.trans hpublish.grows).trans hscheduled.grows⟩
      · exact ⟨hpublish.sound, hgrows.trans hpublish.grows⟩

theorem grows_recover (hcallback : ∀ c, Evolves apart still c (callback c))
    {token attempt : ℕ} (hc : c.Sound) (h : c.Settling e token attempt)
    {completion : SessionResyncCompletion}
    (hvalid : completionInvalid (c.heap e).state.identity completion = false) :
    (c.recover callback e completion).Sound ∧ Grows c (c.recover callback e completion) := by
  obtain ⟨he, hsyncing, hdead, hunarmed⟩ := h.alone hc
  obtain ⟨hwritten, hgrowsWritten⟩ := sound_written hc he { c.heap e with task := none } c.timers
    c.nextTimer c.nextTaskToken rfl (fun h => h) (hc.phase e he) (Nat.le_refl _)
    (fun token h => by cases h) hdead
    (fun timer n hmem => .inl ⟨hmem, fun heq => hunarmed timer (heq ▸ hmem)⟩)
  set identity := (c.heap e).state.identity with hidentity
  set finished : ResyncCoordinator :=
    { c.updateEntry e (fun entry => { entry with task := none }) with
      entries := c.entries.erase identity.sessionHandle } with hfinished
  have hself : finished.heap e = { c.heap e with task := none } := if_pos rfl
  have herased : Evolved apart still (c.written e { c.heap e with task := none } c.timers
      c.nextTimer c.nextTaskToken) finished :=
    evolved_erase (e := e) hwritten h.current
      (congrArg ResyncEntry.task (show (c.written e { c.heap e with task := none } c.timers
        c.nextTimer c.nextTaskToken).heap e = { c.heap e with task := none } from if_pos rfl))
  have hpublish : Evolved apart still finished
      (publish callback finished identity.sessionHandle none) :=
    evolves_publish hcallback _ _ herased.sound
  have hgrows : Grows c (publish callback finished identity.sessionHandle none) :=
    (hgrowsWritten.trans herased.grows).trans hpublish.grows
  have hout : finished.entries.get? (finished.handleOf e) ≠ some e := by
    have hhandle : finished.handleOf e = identity.sessionHandle := by
      rw [handleOf, hself, hidentity]
    rw [hhandle, hfinished]
    change (c.entries.erase identity.sessionHandle).get? identity.sessionHandle ≠ some e
    rw [InsertionMap.get?_erase_self]
    simp
  have hreported : completion.identity = some identity := by
    simp only [completionInvalid, Bool.or_eq_false_iff, decide_eq_false_iff_not, ne_eq,
      not_not] at hvalid
    exact hvalid.1.1
  -- an entry that was reported as recovered before was not current any more
  have hnew : ∀ other, ResyncNotice.recovered e other ∉
      (publish callback finished identity.sessionHandle none).notices := by
    intro other hmem
    have hbefore : ResyncNotice.recovered e other ∈ c.notices := hpublish.recovered e other hmem
    exact (hc.recovered e other hbefore).2.2 h.current
  have hp := hpublish.sound
  set published : ResyncCoordinator := publish callback finished identity.sessionHandle none
    with hpublished
  have hlt : e < published.nextEntry := Nat.lt_of_lt_of_le he hgrows.nextEntry
  have hreportedSound : ({ published with
      notices := published.notices ++ [.recovered e completion] } : ResyncCoordinator).Sound := by
    refine { hp with attempted := ?_, recovered := ?_, recovered_nodup := ?_ }
    · intro made hmade
      exact hp.attempted made (by simpa using hmade)
    · intro n other hmem
      rcases List.mem_append.mp hmem with hold | hlast
      · exact hp.recovered n other hold
      · obtain ⟨rfl, rfl⟩ : n = e ∧ other = completion := by simpa using hlast
        exact ⟨hlt, hreported.trans (congrArg some (hgrows.identity n he).symm),
          hpublish.grows.retired n he hout⟩
    · have happend : recoveredEntries
          (published.notices ++ [ResyncNotice.recovered e completion]) =
          recoveredEntries published.notices ++ [e] := by
        simp [recoveredEntries]
      rw [happend]
      refine List.nodup_append.mpr ⟨hp.recovered_nodup, by simp, ?_⟩
      rintro n hn m hm rfl
      obtain rfl : n = e := by simpa using hm
      obtain ⟨notice, hnotice, hsome⟩ := List.mem_filterMap.mp hn
      cases notice with
      | recovered other reported =>
        obtain rfl : other = n := by simpa using hsome
        exact hnew reported hnotice
      | _ => cases hsome
  have hreportedGrows : Grows c { published with
      notices := published.notices ++ [.recovered e completion] } := by
    obtain ⟨later, hlater, hcursorless⟩ := hgrows.notices
    refine { hgrows with notices := ⟨later ++ [ResyncNotice.recovered e completion], ?_, ?_⟩ }
    · rw [hlater, List.append_assoc]
    · intro made hmade
      exact hcursorless made (by simpa using hmade)
  have hcalled := hcallback _ hreportedSound
  exact ⟨hcalled.sound, hreportedGrows.trans hcalled.grows⟩

theorem grows_settle (hcallback : ∀ c, Evolves apart still c (callback c)) (hc : c.Sound)
    (token : ℕ) (completion : Option SessionResyncCompletion) :
    (c.settle callback token completion).Sound ∧ Grows c (c.settle callback token completion) := by
  unfold settle
  split
  · rename_i made hfound
    have htoken : made.token = token := by simpa using List.find?_some hfound
    have hmade := List.mem_of_find?_eq_some hfound
    subst htoken
    have hsettled : Evolved apart still c (c.settled made.token) := evolved_settled hc made.token
    have hsettling := settling_of_isCurrent hc hmade
    have hfail := grows_failAttempt hcallback hsettled.sound hsettling
    split
    · split
      · exact ⟨hsettled.sound, hsettled.grows⟩
      · split
        · exact ⟨hfail.1, hsettled.grows.trans hfail.2⟩
        · rename_i hcurrent hvalid
          have hrecover := grows_recover hcallback hsettled.sound
            (hsettling (by simpa using hcurrent)) (by simpa using hvalid)
          exact ⟨hrecover.1, hsettled.grows.trans hrecover.2⟩
    · exact ⟨hfail.1, hsettled.grows.trans hfail.2⟩
  · exact ⟨hc, Grows.refl c⟩

theorem grows_step {react : Reaction} (hreact : react.Apart) (depth : ℕ) (hc : c.Sound)
    (event : Event) : (c.step react depth event).Sound ∧ Grows c (c.step react depth event) := by
  have htame := tame_callbacksOf (evolves_callbackAt hreact depth)
    { clearing := false, issuing := false }
  cases event with
  | call next =>
    have h : Evolved false (fun _ => false = true) c (c.call _ next) :=
      evolves_call htame (fun h => by cases h) (fun h => by cases h) hc
    exact ⟨h.sound, h.grows⟩
  | timerFired timer =>
    have h := evolves_timerFired htame (fun _ h => by cases h) timer hc
    exact ⟨h.sound, h.grows⟩
  | settle token completion => exact grows_settle htame.ordinary hc token completion

theorem grows_events {react : Reaction} (hreact : react.Apart) (depth : ℕ) (events : List Event) :
    ∀ {c : ResyncCoordinator}, c.Sound →
      (runFrom (fun c event => c.step react depth event) c events).Sound ∧
        Grows c (runFrom (fun c event => c.step react depth event) c events) := by
  induction events with
  | nil => exact fun hc => ⟨hc, Grows.refl _⟩
  | cons event rest ih =>
    intro c hc
    obtain ⟨hnext, hgrows⟩ := grows_step hreact depth hc event
    obtain ⟨hlast, hrest⟩ := ih hnext
    exact ⟨hlast, hgrows.trans hrest⟩

theorem sound_create : create.Sound where
  mapped _ _ h := by cases h
  task _ _ h := by cases h
  tasks_differ _ _ _ h := by cases h
  aborted_lt _ h := by cases h
  flight _ h := by cases h
  tokens_nodup := List.nodup_nil
  timer _ _ h := by cases h
  phase e h := absurd h (Nat.not_lt_zero e)
  attempted _ h := by cases h
  recovered _ _ h := by cases h
  recovered_nodup := List.nodup_nil

/-- The signal of an attempt in flight was not aborted. -/
def Live (c : ResyncCoordinator) (made : SessionResyncAttempt) : Prop :=
  made ∈ c.inFlight ∧ made.token ∉ c.aborted

/-- Of two live attempts for one handle there is only one. -/
def OneLive (c : ResyncCoordinator) : Prop :=
  ∀ made other, c.Live made → c.Live other →
    made.identity.sessionHandle = other.identity.sessionHandle → made = other

theorem Sound.oneLive (hc : c.Sound) : c.OneLive := by
  intro made other hmade hother hhandle
  obtain ⟨-, -, hidentity, hlive⟩ := hc.flight made hmade.1
  obtain ⟨-, -, hidentity', hlive'⟩ := hc.flight other hother.1
  obtain ⟨htask, -, hcurrent⟩ := hlive.resolve_left hmade.2
  obtain ⟨htask', -, hcurrent'⟩ := hlive'.resolve_left hother.2
  have hsame : c.handleOf made.entry = c.handleOf other.entry := by
    rw [handleOf, handleOf, ← hidentity, ← hidentity', hhandle]
  rw [hsame, hcurrent'] at hcurrent
  have hentry := Option.some.inj hcurrent
  rw [hentry, htask] at htask'
  exact List.inj_on_of_nodup_map hc.tokens_nodup hmade.1 hother.1 (Option.some.inj htask')

theorem Sound.settle_aborted (hc : c.Sound) {made : SessionResyncAttempt}
    (hmade : made ∈ c.inFlight) (haborted : made.token ∈ c.aborted)
    (completion : Option SessionResyncCompletion) :
    c.settle callback made.token completion = c.settled made.token := by
  have hnot : (c.settled made.token).isCurrent made.entry made.token = false := by
    rw [Bool.eq_false_iff]
    intro hcurrent
    simp only [isCurrent, Bool.and_eq_true, decide_eq_true_eq] at hcurrent
    exact (hc.task made.entry made.token hcurrent.2).2.2.2 haborted
  cases hfound : c.inFlight.find? (·.token = made.token) with
  | none =>
    have hnone := List.find?_eq_none.mp hfound made hmade
    simp at hnone
  | some found =>
    have htoken : found.token = made.token := by simpa using List.find?_some hfound
    obtain rfl : found = made := List.inj_on_of_nodup_map hc.tokens_nodup
      (List.mem_of_find?_eq_some hfound) hmade htoken
    unfold settle
    rw [hfound]
    cases completion with
    | none => simp only [failAttempt, hnot, Bool.not_false, if_true]
    | some completion => simp only [hnot, Bool.not_false, if_true]

end ResyncCoordinator

open ResyncCoordinator in
/-- While no callback adds an entry when `start` or `rekey` clears one that it replaces, and none
reconnects when `runAttempt` aborts a task that it replaces, whatever else the callbacks call: in
every state of a run two live attempts for one handle are the same, and a live attempt is the one
its entry is waiting for; an attempt whose signal was aborted settles without an effect; each
recovery is reported once and with the identity of its entry; an attempt is made only of an entry
that has failed less often than the maximum since it was created or last retried by hand, after
which the entry is degraded, without a timer and without a live attempt; and later in the run an
entry keeps its identity, and once it is cursorless its attempts are. -/
theorem resync_coordination (react : Reaction) (depth : ℕ) (events : List Event)
    (hreact : react.Apart) :
    let c := run react depth events
    c.OneLive ∧
    (∀ made, c.Live made → c.isCurrent made.entry made.token = true) ∧
    (∀ made ∈ c.inFlight, made.token ∈ c.aborted → ∀ callback completion,
      c.settle callback made.token completion = c.settled made.token) ∧
    ((recoveredEntries c.notices).Nodup ∧ ∀ e completion, .recovered e completion ∈ c.notices →
      completion.identity = some (c.heap e).state.identity) ∧
    (∀ made, .attempted made ∈ c.notices →
      made.identity = (c.heap made.entry).state.identity ∧
        made.failures < sessionResyncMaxAttempts ∧ made.attempt = made.failures + 1) ∧
    (∀ e, e < c.nextEntry → (c.heap e).failures = sessionResyncMaxAttempts →
      (c.heap e).state.phase = .degraded ∧ (∀ timer, (timer, e) ∉ c.timers) ∧
        ∀ made, c.Live made → made.entry ≠ e) ∧
    ∀ later, ∃ notices, (run react depth (events ++ later)).notices = c.notices ++ notices ∧
      (∀ e, e < c.nextEntry →
        ((run react depth (events ++ later)).heap e).state.identity = (c.heap e).state.identity) ∧
      ∀ made, .attempted made ∈ notices → made.entry < c.nextEntry →
        (c.heap made.entry).state.cursorless = true → made.cursorless = true := by
  intro c
  have hc : c.Sound := (grows_events hreact depth events sound_create).1
  have hlive {made : SessionResyncAttempt} (h : c.Live made) :
      (c.heap made.entry).task = some made.token ∧
        c.entries.get? (c.handleOf made.entry) = some made.entry := by
    obtain ⟨htask, -, hcurrent⟩ := (hc.flight made h.1).2.2.2.resolve_left h.2
    exact ⟨htask, hcurrent⟩
  refine ⟨hc.oneLive, fun made h => ?_,
    fun made hmade haborted callback completion => hc.settle_aborted hmade haborted completion,
    ⟨hc.recovered_nodup, fun e completion h => (hc.recovered e completion h).2.1⟩,
    fun made h => (hc.attempted made h).2, fun e he hfailures => ?_, fun later => ?_⟩
  · obtain ⟨htask, hcurrent⟩ := hlive h
    simp [isCurrent, isEntryCurrent, hcurrent, htask]
  · have hdegraded : (c.heap e).state.phase = .degraded := by
      have hphase := hc.phase e he
      unfold PhaseSound at hphase
      cases hcase : (c.heap e).state.phase with
      | degraded => rfl
      | _ =>
        simp only [hcase] at hphase
        omega
    refine ⟨hdegraded, fun timer hmem => ?_, fun made h heq => ?_⟩
    · have hretry := (hc.timer timer e hmem).2.2
      rw [hdegraded] at hretry
      cases hretry
    · have hsyncing := (hc.task _ _ (hlive h).1).2.2.1
      rw [heq, hdegraded] at hsyncing
      cases hsyncing
  · have hgrows : Grows c (run react depth (events ++ later)) := by
      rw [run, runFrom_append]
      exact (grows_events hreact depth later hc).2
    obtain ⟨notices, hnotices, hcursorless⟩ := hgrows.notices
    exact ⟨notices, hnotices, hgrows.identity, hcursorless⟩

/-- A runtime of the Session that is recovered in the evaluated runs. -/
def sampleResyncIdentity (generation : ℕ) : SessionRuntimeIdentity :=
  { serverEpoch := js "epoch", sessionHandle := js "s", workspaceId := js "w"
    generation := generation }

/-- An attempt fails, the retry is made, and it succeeds. -/
def sampleResyncEvents : List ResyncCoordinator.Event :=
  [.call (.start (sampleResyncIdentity 1) false), .settle 1 none, .timerFired 2,
    .settle 2 (some
      { identity := some (sampleResyncIdentity 1)
        snapshotId := some (js "n")
        asOfSeq := some 3 })]

/-- A listener that disconnects and reconnects when it hears of a retry. -/
def sampleResyncReaction : ResyncCoordinator.Reaction := fun moment notices =>
  if !moment.clearing && !moment.issuing && notices.length == 4 then
    [.disconnect [0], .reconnect [0]]
  else []

open ResyncCoordinator in
/-- The recovery is reported once. -/
theorem resync_coordination_sample :
    recoveredEntries (run sampleResyncReaction 2 sampleResyncEvents).notices = [0] ∧
      (run sampleResyncReaction 2 sampleResyncEvents).inFlight = [] ∧
      ∀ made, .attempted made ∈ (run sampleResyncReaction 2 sampleResyncEvents).notices →
        made.identity =
            ((run sampleResyncReaction 2 sampleResyncEvents).heap made.entry).state.identity ∧
          made.failures < sessionResyncMaxAttempts ∧ made.attempt = made.failures + 1 := by
  have hreact : sampleResyncReaction.Apart := by
    intro moment notices next hnext
    unfold sampleResyncReaction at hnext
    split at hnext
    · rename_i hguard
      simp only [Bool.and_eq_true, Bool.not_eq_true'] at hguard
      exact ⟨fun h => by simp [h] at hguard, fun h => by simp [h] at hguard⟩
    · cases hnext
  obtain ⟨-, -, -, -, hattempted, -⟩ :=
    resync_coordination sampleResyncReaction 2 sampleResyncEvents hreact
  exact ⟨by decide +kernel, by decide +kernel, hattempted⟩

/-- A listener that starts the Session again when it hears that `rekey` has cleared it. -/
def sampleRekeyReaction : ResyncCoordinator.Reaction := fun moment notices =>
  if moment.clearing && notices.getLast? == some (.published (js "s") none) then
    [.start (sampleResyncIdentity 1) false]
  else []

/-- A listener of the abort signal that starts the Session again when `start` replaces it. -/
def sampleAbortReaction : ResyncCoordinator.Reaction := fun moment notices =>
  if moment.clearing && notices.getLast? == some (.aborted 1) then
    [.start (sampleResyncIdentity 1) false]
  else []

/-- A callback that reconnects when a new entry is published, and a listener of the abort signal
that does so again when `runAttempt` replaces the task that came of it. -/
def sampleResumeReaction : ResyncCoordinator.Reaction := fun _ notices =>
  if notices.length == 1 || notices.getLast? == some (.aborted 1) then
    [.disconnect [0], .reconnect [0]]
  else []

open ResyncCoordinator in
/-- Two attempts stay live: of the entry such a listener has made and the one that overwrites it,
for `rekey` and for `start`; and of two tasks of one entry, when `runAttempt` overwrites one that
its own abort listener has caused. -/
theorem replacing_leaves_two_attempts :
    ¬ (run sampleRekeyReaction 2 [.call (.start (sampleResyncIdentity 1) false),
        .call (.rekey (js "s") (sampleResyncIdentity 2))]).OneLive ∧
      ¬ (run sampleAbortReaction 2 [.call (.start (sampleResyncIdentity 1) false),
        .call (.start (sampleResyncIdentity 2) false)]).OneLive ∧
      ¬ (run sampleResumeReaction 2 [.call (.start (sampleResyncIdentity 1) false)]).OneLive := by
  refine ⟨fun h => ?_, fun h => ?_, fun h => ?_⟩
  · have hsame := h
      { entry := 1, token := 2, identity := sampleResyncIdentity 1, attempt := 1,
        cursorless := false, failures := 0 }
      { entry := 2, token := 3, identity := sampleResyncIdentity 2, attempt := 1,
        cursorless := true, failures := 0 }
      ⟨by decide +kernel, by decide +kernel⟩ ⟨by decide +kernel, by decide +kernel⟩ rfl
    revert hsame
    decide
  · have hsame := h
      { entry := 1, token := 2, identity := sampleResyncIdentity 1, attempt := 1,
        cursorless := false, failures := 0 }
      { entry := 2, token := 3, identity := sampleResyncIdentity 2, attempt := 1,
        cursorless := true, failures := 0 }
      ⟨by decide +kernel, by decide +kernel⟩ ⟨by decide +kernel, by decide +kernel⟩ rfl
    revert hsame
    decide
  · have hsame := h
      { entry := 0, token := 2, identity := sampleResyncIdentity 1, attempt := 1,
        cursorless := false, failures := 0 }
      { entry := 0, token := 3, identity := sampleResyncIdentity 1, attempt := 1,
        cursorless := false, failures := 0 }
      ⟨by decide +kernel, by decide +kernel⟩ ⟨by decide +kernel, by decide +kernel⟩ rfl
    revert hsame
    decide

end PiAgentWeb
