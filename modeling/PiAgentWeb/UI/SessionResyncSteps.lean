import PiAgentWeb.UI.SessionResync

/-!
# The invariant of the resync coordinator

The task of an entry ties its attempts together: an attempt whose signal was not aborted is the one
of the task of its entry, which the coordinator keeps under its handle. Between two calls of a
callback the coordinator only grows: entries keep their identity, a recovery stays cursorless, an
entry that was taken out stays out, and a task that is still there has seen no change of its entry.
-/

namespace PiAgentWeb

namespace ResyncCoordinator

/-- The entries whose recovery was reported. -/
def recoveredEntries (notices : List ResyncNotice) : List ℕ :=
  notices.filterMap fun
    | .recovered e _ => some e
    | _ => none

/-- The failures of an entry agree with its phase. -/
def PhaseSound (entry : ResyncEntry) : Prop :=
  match entry.state.phase with
  | .syncing =>
    entry.state.attempt = entry.failures + 1 ∧ entry.failures < sessionResyncMaxAttempts
  | .retryWait => entry.state.attempt = entry.failures ∧ entry.failures < sessionResyncMaxAttempts
  | .degraded => entry.failures = sessionResyncMaxAttempts

/-- The invariant of a coordinator. -/
structure Sound (c : ResyncCoordinator) : Prop where
  mapped : ∀ sessionHandle e, c.entries.get? sessionHandle = some e →
    e < c.nextEntry ∧ c.handleOf e = sessionHandle
  task : ∀ e token, (c.heap e).task = some token →
    e < c.nextEntry ∧ token < c.nextTaskToken ∧ (c.heap e).state.phase = .syncing ∧
      token ∉ c.aborted
  tasks_differ : ∀ e e' token, (c.heap e).task = some token → (c.heap e').task = some token → e = e'
  aborted_lt : ∀ token ∈ c.aborted, token < c.nextTaskToken
  flight : ∀ made ∈ c.inFlight, made.entry < c.nextEntry ∧ made.token < c.nextTaskToken ∧
    made.identity = (c.heap made.entry).state.identity ∧
      (made.token ∈ c.aborted ∨ (c.heap made.entry).task = some made.token ∧
        (c.heap made.entry).state.attempt = made.attempt ∧
          c.entries.get? (c.handleOf made.entry) = some made.entry)
  tokens_nodup : (c.inFlight.map (·.token)).Nodup
  timer : ∀ timer e, (timer, e) ∈ c.timers → e < c.nextEntry ∧
    (c.heap e).timer = some timer ∧ (c.heap e).state.phase = .retryWait
  phase : ∀ e, e < c.nextEntry → PhaseSound (c.heap e)
  attempted : ∀ made, .attempted made ∈ c.notices → made.entry < c.nextEntry ∧
    made.identity = (c.heap made.entry).state.identity ∧
      made.failures < sessionResyncMaxAttempts ∧ made.attempt = made.failures + 1
  recovered : ∀ e completion, .recovered e completion ∈ c.notices → e < c.nextEntry ∧
    completion.identity = some (c.heap e).state.identity ∧
      c.entries.get? (c.handleOf e) ≠ some e
  recovered_nodup : (recoveredEntries c.notices).Nodup

/-- What no step takes back. -/
structure Grows (c c' : ResyncCoordinator) : Prop where
  nextEntry : c.nextEntry ≤ c'.nextEntry
  nextTaskToken : c.nextTaskToken ≤ c'.nextTaskToken
  identity : ∀ e, e < c.nextEntry → (c'.heap e).state.identity = (c.heap e).state.identity
  cursorless : ∀ e, e < c.nextEntry → (c.heap e).state.cursorless = true →
    (c'.heap e).state.cursorless = true
  kept : ∀ e token, (c'.heap e).task = some token → token < c.nextTaskToken → c'.heap e = c.heap e
  retired : ∀ e, e < c.nextEntry → c.entries.get? (c.handleOf e) ≠ some e →
    c'.entries.get? (c'.handleOf e) ≠ some e
  flights : ∀ made ∈ c'.inFlight, made ∈ c.inFlight ∨ c.nextTaskToken ≤ made.token
  notices : ∃ later, c'.notices = c.notices ++ later ∧
    ∀ made, .attempted made ∈ later → made.entry < c.nextEntry →
      (c.heap made.entry).state.cursorless = true → made.cursorless = true

/-- What a callback leaves: no attempt has failed and none was reported as recovered; where no
entry may be added, a handle without an entry has none; and where nothing may be resumed, an entry
that is to get a new task has none. -/
structure Evolved (apart : Bool) (still : ℕ → Prop) (c c' : ResyncCoordinator) : Prop where
  sound : c'.Sound
  grows : Grows c c'
  failures : ∀ e, e < c.nextEntry → (c'.heap e).failures ≤ (c.heap e).failures
  recovered : ∀ e completion, .recovered e completion ∈ c'.notices →
    .recovered e completion ∈ c.notices
  vacant : apart = true → ∀ sessionHandle, c.entries.get? sessionHandle = none →
    c'.entries.get? sessionHandle = none
  still : ∀ e, still e → e < c.nextEntry → (c.heap e).task = none →
    (c.heap e).state.phase = .syncing → (c'.heap e).task = none ∧
      (c'.heap e).state = (c.heap e).state ∧ (c'.heap e).failures = (c.heap e).failures

/-- A transition of a sound coordinator that a callback may make. -/
def Evolves (apart : Bool) (still : ℕ → Prop) (c c' : ResyncCoordinator) : Prop :=
  c.Sound → Evolved apart still c c'

namespace Grows

variable {c c' c'' : ResyncCoordinator}

theorem refl (c : ResyncCoordinator) : Grows c c where
  nextEntry := Nat.le_refl _
  nextTaskToken := Nat.le_refl _
  identity := fun _ _ => rfl
  cursorless := fun _ _ h => h
  kept := fun _ _ _ _ => rfl
  retired := fun _ _ h => h
  flights := fun _ h => .inl h
  notices := ⟨[], by simp, by simp⟩

theorem trans (h : Grows c c') (h' : Grows c' c'') : Grows c c'' where
  nextEntry := Nat.le_trans h.nextEntry h'.nextEntry
  nextTaskToken := Nat.le_trans h.nextTaskToken h'.nextTaskToken
  identity e he := (h'.identity e (Nat.lt_of_lt_of_le he h.nextEntry)).trans (h.identity e he)
  cursorless e he hc :=
    h'.cursorless e (Nat.lt_of_lt_of_le he h.nextEntry) (h.cursorless e he hc)
  kept e token htask hlt := by
    have hlater := h'.kept e token htask (Nat.lt_of_lt_of_le hlt h.nextTaskToken)
    rw [hlater]
    exact h.kept e token (hlater ▸ htask) hlt
  retired e he hnot := h'.retired e (Nat.lt_of_lt_of_le he h.nextEntry) (h.retired e he hnot)
  flights made hmade := by
    rcases h'.flights made hmade with hold | hnew
    · exact h.flights made hold
    · exact .inr (Nat.le_trans h.nextTaskToken hnew)
  notices := by
    obtain ⟨first, hfirst, hcursorless⟩ := h.notices
    obtain ⟨later, hlater, hcursorless'⟩ := h'.notices
    refine ⟨first ++ later, by rw [hlater, hfirst, List.append_assoc], ?_⟩
    intro made hmade hentry hc
    rcases List.mem_append.mp hmade with hmem | hmem
    · exact hcursorless made hmem hentry hc
    · exact hcursorless' made hmem (Nat.lt_of_lt_of_le hentry h.nextEntry)
        (h.cursorless _ hentry hc)

end Grows

namespace Evolved

variable {apart : Bool} {still still' : ℕ → Prop} {c c' c'' : ResyncCoordinator}

theorem refl (hc : c.Sound) : Evolved apart still c c :=
  ⟨hc, Grows.refl c, fun _ _ => Nat.le_refl _, fun _ _ h => h, fun _ _ h => h,
    fun _ _ _ htask _ => ⟨htask, rfl, rfl⟩⟩

theorem trans (h : Evolved apart still c c') (h' : Evolved apart still c' c'') :
    Evolved apart still c c'' where
  sound := h'.sound
  grows := h.grows.trans h'.grows
  failures e he :=
    Nat.le_trans (h'.failures e (Nat.lt_of_lt_of_le he h.grows.nextEntry)) (h.failures e he)
  recovered e completion hmem := h.recovered e completion (h'.recovered e completion hmem)
  vacant hapart _ hnone := h'.vacant hapart _ (h.vacant hapart _ hnone)
  still e hstill he htask hphase := by
    obtain ⟨htask', hstate, hfailures⟩ := h.still e hstill he htask hphase
    obtain ⟨hlast, hstate', hfailures'⟩ := h'.still e hstill
      (Nat.lt_of_lt_of_le he h.grows.nextEntry) htask' (by rw [hstate]; exact hphase)
    exact ⟨hlast, hstate'.trans hstate, hfailures'.trans hfailures⟩

theorem weaken (h : Evolved apart still c c') : Evolved false still c c' :=
  ⟨h.sound, h.grows, h.failures, h.recovered, fun hapart => (by cases hapart), h.still⟩

theorem mono (h : Evolved apart still c c')
    (hsub : ∀ e, still' e → e < c.nextEntry → (c.heap e).state.phase = .syncing → still e) :
    Evolved apart still' c c' :=
  { h with
    still := fun e hstill he htask hphase =>
      h.still e (hsub e hstill he hphase) he htask hphase }

/-- A transition that changes neither the entries nor the handles they are kept under. -/
theorem of_same (hsound : c'.Sound) (hgrows : Grows c c') (hheap : c'.heap = c.heap)
    (hentries : c'.entries = c.entries) (hrecovered : ∀ e completion,
      .recovered e completion ∈ c'.notices → .recovered e completion ∈ c.notices) :
    Evolved apart still c c' := by
  refine ⟨hsound, hgrows, fun e _ => Nat.le_of_eq ?_, hrecovered,
    fun _ sessionHandle hnone => ?_, fun e _ _ htask _ => ?_⟩
  · rw [hheap]
  · rw [hentries]
    exact hnone
  · rw [hheap]
    exact ⟨htask, rfl, rfl⟩

/-- A callback is called that hears of no attempt and no recovery. -/
theorem noticed (hc : c.Sound) (notice : ResyncNotice)
    (hattempted : ∀ made, notice ≠ .attempted made)
    (hrecovered : ∀ e completion, notice ≠ .recovered e completion) :
    Evolved apart still c { c with notices := c.notices ++ [notice] } := by
  have hsame : recoveredEntries (c.notices ++ [notice]) = recoveredEntries c.notices := by
    cases notice with
    | recovered e completion => exact absurd rfl (hrecovered e completion)
    | _ => simp [recoveredEntries]
  have hattempt {made : SessionResyncAttempt} (h : .attempted made ∈ c.notices ++ [notice]) :
      .attempted made ∈ c.notices := by
    rcases List.mem_append.mp h with hold | hnew
    · exact hold
    · exact absurd (List.mem_singleton.mp hnew).symm (hattempted made)
  have hrecover {e : ℕ} {completion : SessionResyncCompletion}
      (h : .recovered e completion ∈ c.notices ++ [notice]) :
      .recovered e completion ∈ c.notices := by
    rcases List.mem_append.mp h with hold | hnew
    · exact hold
    · exact absurd (List.mem_singleton.mp hnew).symm (hrecovered e completion)
  refine .of_same { hc with attempted := ?_, recovered := ?_, recovered_nodup := ?_ }
    { Grows.refl c with notices := ⟨[notice], rfl, fun made hmade => ?_⟩ } rfl rfl ?_
  · exact fun made hmade => hc.attempted made (hattempt hmade)
  · exact fun e completion hmem => hc.recovered e completion (hrecover hmem)
  · exact hsame.symm ▸ hc.recovered_nodup
  · exact absurd (List.mem_singleton.mp hmade).symm (hattempted made)
  · exact fun e completion hmem => hrecover hmem

end Evolved

variable {apart : Bool} {still : ℕ → Prop} {c : ResyncCoordinator} {callback : ResyncCallback}

theorem evolves_publish (hcallback : ∀ c, Evolves apart still c (callback c))
    (sessionHandle : SessionHandle) (state : Option SessionResyncState) :
    Evolves apart still c (publish callback c sessionHandle state) := by
  intro hc
  unfold publish
  split
  · exact Evolved.refl hc
  · have hnotice : Evolved apart still c
        { c with notices := c.notices ++ [.published sessionHandle state] } :=
      .noticed hc _ (fun _ => by simp) (fun _ _ => by simp)
    exact hnotice.trans (hcallback _ hnotice.sound)

/-- An entry without its timer and its task. -/
def halt (c : ResyncCoordinator) (e : ℕ) : ResyncCoordinator := (c.clearTimer e).dropTask e

theorem halt_spec (e : ℕ) :
    (∀ n, (c.halt e).heap n =
      if n = e then { c.heap e with timer := none, task := none } else c.heap n) ∧
    (c.halt e).aborted = c.aborted ++ (c.heap e).task.toList ∧
    (∀ timer n, (timer, n) ∈ (c.halt e).timers →
      (timer, n) ∈ c.timers ∧ (c.heap e).timer ≠ some timer) ∧
    (c.halt e).nextEntry = c.nextEntry ∧ (c.halt e).entries = c.entries ∧
    (c.halt e).connected = c.connected ∧ (c.halt e).disposed = c.disposed ∧
    (c.halt e).nextTaskToken = c.nextTaskToken ∧ (c.halt e).nextTimer = c.nextTimer ∧
    (c.halt e).inFlight = c.inFlight ∧ (c.halt e).notices = c.notices := by
  rcases hentry : c.heap e with ⟨state, timer, task, failures⟩
  unfold halt clearTimer dropTask updateEntry
  cases timer <;> cases task <;> simp_all
  all_goals exact fun _ _ _ hne heq => hne heq.symm

theorem clearTimer_spec (e : ℕ) :
    ((c.clearTimer e).heap e).task = (c.heap e).task ∧ (c.clearTimer e).notices = c.notices := by
  rcases hentry : c.heap e with ⟨state, timer, task, failures⟩
  unfold clearTimer updateEntry
  cases timer <;> simp_all

theorem haltEntry_of_task {e token : ℕ} (htask : (c.heap e).task = some token) :
    c.haltEntry callback e =
      callback { c.halt e with notices := c.notices ++ [.aborted token] } := by
  obtain ⟨hsame, hnotices⟩ := clearTimer_spec (c := c) e
  unfold haltEntry abortTask
  rw [hsame, htask, hnotices]
  rfl

theorem haltEntry_of_none {e : ℕ} (htask : (c.heap e).task = none) :
    c.haltEntry callback e = c.halt e := by
  have hsame := (clearTimer_spec (c := c) e).1
  unfold haltEntry abortTask halt dropTask
  rw [hsame, htask]

theorem evolved_halt (hc : c.Sound) (e : ℕ) : Evolved apart still c (c.halt e) := by
  obtain ⟨hheap, haborted, htimers, hnext, hentries, -, -, htoken, -, hflights, hnotices⟩ :=
    halt_spec (c := c) e
  have hstate (n : ℕ) : ((c.halt e).heap n).state = (c.heap n).state := by
    rw [hheap]
    split
    · rename_i heq
      rw [heq]
    · rfl
  have hfailures (n : ℕ) : ((c.halt e).heap n).failures = (c.heap n).failures := by
    rw [hheap]
    split
    · rename_i heq
      rw [heq]
    · rfl
  have hhandle (n : ℕ) : (c.halt e).handleOf n = c.handleOf n := by
    rw [handleOf, handleOf, hstate]
  have htask {n token : ℕ} (h : ((c.halt e).heap n).task = some token) :
      n ≠ e ∧ (c.halt e).heap n = c.heap n ∧ (c.heap n).task = some token := by
    rw [hheap] at h ⊢
    split at h
    · cases h
    · rename_i hne
      rw [if_neg hne]
      exact ⟨hne, rfl, h⟩
  refine ⟨⟨?_, ?_, ?_, ?_, ?_, ?_, ?_, ?_, ?_, ?_, ?_⟩,
    ⟨?_, ?_, ?_, ?_, ?_, ?_, ?_, ?_⟩, ?_, ?_, ?_, ?_⟩
  · intro sessionHandle n hget
    rw [hentries] at hget
    rw [hnext, hhandle]
    exact hc.mapped sessionHandle n hget
  · intro n token h
    obtain ⟨hne, -, hold⟩ := htask h
    obtain ⟨hlt, htok, hphase, hnot⟩ := hc.task n token hold
    rw [hnext, htoken, hstate, haborted]
    refine ⟨hlt, htok, hphase, fun hmem => ?_⟩
    rcases List.mem_append.mp hmem with hmem | hmem
    · exact hnot hmem
    · exact hne (hc.tasks_differ n e token hold (by simpa using hmem))
  · intro n n' token h h'
    exact hc.tasks_differ n n' token (htask h).2.2 (htask h').2.2
  · intro token hmem
    rw [haborted] at hmem
    rw [htoken]
    rcases List.mem_append.mp hmem with hmem | hmem
    · exact hc.aborted_lt token hmem
    · exact (hc.task e token (by simpa using hmem)).2.1
  · intro made hmade
    rw [hflights] at hmade
    obtain ⟨hlt, htok, hidentity, hlive⟩ := hc.flight made hmade
    rw [hnext, htoken, hstate, haborted, hheap, hentries, hhandle]
    refine ⟨hlt, htok, hidentity, ?_⟩
    rcases hlive with hmem | ⟨htask, hattempt, hcurrent⟩
    · exact .inl (List.mem_append_left _ hmem)
    · by_cases heq : made.entry = e
      · refine .inl (List.mem_append_right _ ?_)
        rw [← heq, htask]
        simp
      · rw [if_neg heq]
        exact .inr ⟨htask, hattempt, hcurrent⟩
  · rw [hflights]
    exact hc.tokens_nodup
  · intro timer n hmem
    obtain ⟨hold, hother⟩ := htimers timer n hmem
    obtain ⟨hlt, htimer, hphase⟩ := hc.timer timer n hold
    have hne : n ≠ e := fun heq => hother (heq ▸ htimer)
    rw [hnext, hheap, if_neg hne]
    exact ⟨hlt, htimer, hphase⟩
  · intro n hn
    rw [hnext] at hn
    have hphase := hc.phase n hn
    unfold PhaseSound at hphase ⊢
    rw [hstate, hfailures]
    exact hphase
  · intro made hmade
    rw [hnotices] at hmade
    rw [hnext, hstate]
    exact hc.attempted made hmade
  · intro n completion hmem
    rw [hnotices] at hmem
    rw [hnext, hstate, hentries, hhandle]
    exact hc.recovered n completion hmem
  · rw [hnotices]
    exact hc.recovered_nodup
  · exact Nat.le_of_eq hnext.symm
  · exact Nat.le_of_eq htoken.symm
  · exact fun n _ => by rw [hstate]
  · exact fun n _ h => by rw [hstate]; exact h
  · exact fun n token h _ => (htask h).2.1
  · intro n _ hnot
    rw [hentries, hhandle]
    exact hnot
  · intro made hmade
    rw [hflights] at hmade
    exact .inl hmade
  · exact ⟨[], by rw [hnotices, List.append_nil], by simp⟩
  · exact fun n _ => Nat.le_of_eq (hfailures n)
  · intro n completion hmem
    rw [hnotices] at hmem
    exact hmem
  · intro _ sessionHandle hnone
    rw [hentries]
    exact hnone
  · intro n _ _ hnone _
    refine ⟨?_, hstate n, hfailures n⟩
    rw [hheap]
    split
    · rfl
    · exact hnone

theorem no_timer_halt (hc : c.Sound) (e timer : ℕ) : (timer, e) ∉ (c.halt e).timers := by
  obtain ⟨-, -, htimers, -⟩ := halt_spec (c := c) e
  intro hmem
  obtain ⟨hold, hother⟩ := htimers timer e hmem
  exact hother (hc.timer timer e hold).2.1

variable {e : ℕ}

theorem evolved_erase (hc : c.Sound) {sessionHandle : SessionHandle}
    (hget : c.entries.get? sessionHandle = some e) (htask : (c.heap e).task = none) :
    Evolved apart still c { c with entries := c.entries.erase sessionHandle } := by
  have hsub {other : SessionHandle} {n : ℕ}
      (h : (c.entries.erase sessionHandle).get? other = some n) :
      c.entries.get? other = some n := by
    rw [InsertionMap.get?_erase] at h
    split at h
    · cases h
    · exact h
  have hhandle := (hc.mapped sessionHandle e hget).2
  refine ⟨{ hc with mapped := ?_, flight := ?_, recovered := ?_ },
    { Grows.refl c with retired := ?_ }, fun _ _ => Nat.le_refl _, fun _ _ h => h, ?_,
    fun _ _ _ hnone _ => ⟨hnone, rfl, rfl⟩⟩
  · exact fun other n h => hc.mapped other n (hsub h)
  · intro made hmade
    obtain ⟨hlt, htok, hidentity, hlive⟩ := hc.flight made hmade
    refine ⟨hlt, htok, hidentity, hlive.imp id fun h => ?_⟩
    obtain ⟨hown, hattempt, hcurrent⟩ := h
    refine ⟨hown, hattempt, ?_⟩
    change (c.entries.erase sessionHandle).get? (c.handleOf made.entry) = some made.entry
    rw [InsertionMap.get?_erase, if_neg]
    · exact hcurrent
    · intro heq
      rw [heq, hget] at hcurrent
      rw [← Option.some.inj hcurrent, htask] at hown
      cases hown
  · intro n completion hmem
    obtain ⟨hlt, hidentity, hnot⟩ := hc.recovered n completion hmem
    exact ⟨hlt, hidentity, fun h => hnot (hsub h)⟩
  · exact fun n _ hnot h => hnot (hsub h)
  · intro _ other hnone
    change (c.entries.erase sessionHandle).get? other = none
    rw [InsertionMap.get?_erase]
    split
    · rfl
    · exact hnone

theorem halt_entries (c : ResyncCoordinator) (entries : InsertionMap SessionHandle ℕ) (e : ℕ) :
    { c with entries := entries }.halt e = { c.halt e with entries := entries } := by
  unfold halt clearTimer dropTask updateEntry
  rcases hentry : c.heap e with ⟨state, timer, task, failures⟩
  cases timer <;> cases task <;> simp [hentry]

/-- The listeners of an aborted signal are called when the entry is halted. -/
theorem evolved_abort (hcallback : ∀ c, Evolves apart still c (callback c))
    (hhalted : (c.halt e).Sound) :
    Evolved apart still (c.halt e) (c.haltEntry callback e) := by
  cases htask : (c.heap e).task with
  | none =>
    rw [haltEntry_of_none htask]
    exact .refl hhalted
  | some token =>
    have hnotices : (c.halt e).notices = c.notices := (halt_spec (c := c) e).2.2.2.2.2.2.2.2.2.2
    have hnotice : Evolved apart still (c.halt e)
        { c.halt e with notices := (c.halt e).notices ++ [.aborted token] } :=
      .noticed hhalted _ (fun _ => by simp) (fun _ _ => by simp)
    rw [hnotices] at hnotice
    rw [haltEntry_of_task htask]
    exact hnotice.trans (hcallback _ hnotice.sound)

theorem evolves_haltEntry (hcallback : ∀ c, Evolves apart still c (callback c)) (e : ℕ) :
    Evolves apart still c (c.haltEntry callback e) := by
  intro hc
  have hhalted : Evolved apart still c (c.halt e) := evolved_halt hc e
  exact hhalted.trans (evolved_abort hcallback hhalted.sound)

/-- An entry that was taken out and halted. -/
theorem evolved_retired (hc : c.Sound) {sessionHandle : SessionHandle}
    (hget : c.entries.get? sessionHandle = some e) :
    Evolved apart still c ({ c with entries := c.entries.erase sessionHandle }.halt e) ∧
      ({ c with entries := c.entries.erase sessionHandle }.halt e).entries.get? sessionHandle =
        none := by
  obtain ⟨hheap, -, -, -, hentries, -⟩ := halt_spec (c := c) e
  have hhalted : Evolved apart still c (c.halt e) := evolved_halt hc e
  have herased : Evolved apart still (c.halt e)
      { c.halt e with entries := (c.halt e).entries.erase sessionHandle } :=
    evolved_erase (e := e) hhalted.sound (by rw [hentries]; exact hget) (by rw [hheap]; simp)
  rw [hentries] at herased
  rw [halt_entries]
  exact ⟨hhalted.trans herased, InsertionMap.get?_erase_self _ _⟩

theorem evolves_clearEntry (hcallback : ∀ c, Evolves apart still c (callback c))
    (sessionHandle : SessionHandle) :
    Evolves apart still c (c.clearEntry callback sessionHandle) := by
  intro hc
  unfold clearEntry
  split
  · rename_i e hget
    have hretired : Evolved apart still c
        ({ c with entries := c.entries.erase sessionHandle }.halt e) := (evolved_retired hc hget).1
    exact hretired.trans (evolved_abort hcallback hretired.sound)
  · exact Evolved.refl hc

/-- While no entry may be added, the handle of a cleared entry has none. -/
theorem get?_clearEntry (hcallback : ∀ c, Evolves true still c (callback c)) (hc : c.Sound)
    (sessionHandle : SessionHandle) :
    (c.clearEntry callback sessionHandle).entries.get? sessionHandle = none := by
  unfold clearEntry
  split
  · rename_i e hget
    obtain ⟨hretired, hvacant⟩ : Evolved true still c _ ∧ _ := evolved_retired hc hget
    exact (evolved_abort hcallback hretired.sound).vacant rfl _ hvacant
  · assumption

theorem evolves_clearEntryPublishing (hcallback : ∀ c, Evolves apart still c (callback c))
    (sessionHandle : SessionHandle) :
    Evolves apart still c (c.clearEntryPublishing callback sessionHandle) := by
  intro hc
  unfold clearEntryPublishing
  split
  · have hcleared : Evolved apart still c (c.clearEntry callback sessionHandle) :=
      evolves_clearEntry hcallback sessionHandle hc
    exact hcleared.trans (evolves_publish hcallback _ _ hcleared.sound)
  · exact Evolved.refl hc

/-- An entry is written, with the timers and the counters. -/
def written (c : ResyncCoordinator) (e : ℕ) (entry : ResyncEntry) (timers : List (ℕ × ℕ))
    (nextTimer nextTaskToken : ℕ) : ResyncCoordinator :=
  { c with
    heap := fun n => if n = e then entry else c.heap n
    timers := timers
    nextTimer := nextTimer
    nextTaskToken := nextTaskToken }

/-- Writing an entry without a live attempt: it keeps its identity, its task is a new one or none,
and of its timers only a new one for a retry is armed. -/
theorem sound_written (hc : c.Sound) (he : e < c.nextEntry) (entry : ResyncEntry)
    (timers : List (ℕ × ℕ)) (nextTimer nextTaskToken : ℕ)
    (hidentity : entry.state.identity = (c.heap e).state.identity)
    (hcursorless : (c.heap e).state.cursorless = true → entry.state.cursorless = true)
    (hphase : PhaseSound entry) (hnext : c.nextTaskToken ≤ nextTaskToken)
    (htask : ∀ token, entry.task = some token → token = c.nextTaskToken ∧
      token < nextTaskToken ∧ entry.state.phase = .syncing)
    (hdead : ∀ made ∈ c.inFlight, made.entry = e → made.token ∈ c.aborted)
    (htimers : ∀ timer n, (timer, n) ∈ timers → (timer, n) ∈ c.timers ∧ n ≠ e ∨
      n = e ∧ entry.timer = some timer ∧ entry.state.phase = .retryWait) :
    (c.written e entry timers nextTimer nextTaskToken).Sound ∧
      Grows c (c.written e entry timers nextTimer nextTaskToken) := by
  set c' := c.written e entry timers nextTimer nextTaskToken with hc'
  have hself : c'.heap e = entry := if_pos rfl
  have hother {n : ℕ} (hne : n ≠ e) : c'.heap n = c.heap n := if_neg hne
  have hidentities (n : ℕ) : (c'.heap n).state.identity = (c.heap n).state.identity := by
    by_cases heq : n = e
    · rw [heq, hself, hidentity]
    · rw [hother heq]
  have hhandle (n : ℕ) : c'.handleOf n = c.handleOf n := by
    rw [handleOf, handleOf, hidentities]
  -- a task of the written entry is new, and no other one is
  have hfresh {n token : ℕ} (h : (c.heap n).task = some token) : token ≠ c.nextTaskToken :=
    Nat.ne_of_lt (hc.task n token h).2.1
  refine ⟨⟨?_, ?_, ?_, ?_, ?_, hc.tokens_nodup, ?_, ?_, ?_, ?_, hc.recovered_nodup⟩,
    ⟨Nat.le_refl _, hnext, fun n _ => hidentities n, ?_, ?_, ?_, fun _ h => .inl h,
      ⟨[], by simp [hc', written], by simp⟩⟩⟩
  · intro sessionHandle n hget
    obtain ⟨hlt, hname⟩ := hc.mapped sessionHandle n hget
    exact ⟨hlt, (hhandle n).trans hname⟩
  · intro n token h
    by_cases heq : n = e
    · subst heq
      rw [hself] at h
      obtain ⟨hnew, hlt, hsyncing⟩ := htask token h
      rw [hself]
      refine ⟨he, hlt, hsyncing, fun hmem => ?_⟩
      exact absurd (hc.aborted_lt token hmem) (by omega)
    · rw [hother heq] at h ⊢
      obtain ⟨hlt, htok, hsyncing, hnot⟩ := hc.task n token h
      exact ⟨hlt, Nat.lt_of_lt_of_le htok hnext, hsyncing, hnot⟩
  · intro n n' token h h'
    by_cases heq : n = e
    · by_cases heq' : n' = e
      · rw [heq, heq']
      · rw [heq, hself] at h
        rw [hother heq'] at h'
        exact absurd (htask token h).1 (hfresh h')
    · rw [hother heq] at h
      by_cases heq' : n' = e
      · rw [heq', hself] at h'
        exact absurd (htask token h').1 (hfresh h)
      · rw [hother heq'] at h'
        exact hc.tasks_differ n n' token h h'
  · exact fun token hmem => Nat.lt_of_lt_of_le (hc.aborted_lt token hmem) hnext
  · intro made hmade
    obtain ⟨hlt, htok, hmadeIdentity, hlive⟩ := hc.flight made hmade
    refine ⟨hlt, Nat.lt_of_lt_of_le htok hnext, by rw [hidentities, hmadeIdentity], ?_⟩
    by_cases heq : made.entry = e
    · exact .inl (hdead made hmade heq)
    · rw [hother heq, hhandle]
      exact hlive
  · intro timer n hmem
    rcases htimers timer n hmem with ⟨hold, hne⟩ | ⟨rfl, htimer, hretry⟩
    · rw [hother hne]
      exact hc.timer timer n hold
    · rw [hself]
      exact ⟨he, htimer, hretry⟩
  · intro n hn
    by_cases heq : n = e
    · rw [heq, hself]
      exact hphase
    · rw [hother heq]
      exact hc.phase n hn
  · intro made hmade
    obtain ⟨hlt, hmadeIdentity, hrest⟩ := hc.attempted made hmade
    exact ⟨hlt, by rw [hidentities, hmadeIdentity], hrest⟩
  · intro n completion hmem
    obtain ⟨hlt, hcompletion, hnot⟩ := hc.recovered n completion hmem
    rw [hidentities, hhandle]
    exact ⟨hlt, hcompletion, hnot⟩
  · intro n _ hn
    by_cases heq : n = e
    · rw [heq, hself]
      exact hcursorless (heq ▸ hn)
    · rw [hother heq]
      exact hn
  · intro n token h hlt
    by_cases heq : n = e
    · rw [heq, hself] at h
      exact absurd (htask token h).1 (by omega)
    · exact hother heq
  · intro n _ hnot
    rw [hhandle]
    exact hnot

theorem evolved_written {entry : ResyncEntry} {timers : List (ℕ × ℕ)} {nextTimer nextTaskToken : ℕ}
    (h : (c.written e entry timers nextTimer nextTaskToken).Sound ∧
      Grows c (c.written e entry timers nextTimer nextTaskToken))
    (hfailures : entry.failures ≤ (c.heap e).failures)
    (hstill : still e → (c.heap e).state.phase ≠ .syncing) :
    Evolved apart still c (c.written e entry timers nextTimer nextTaskToken) := by
  have hother {n : ℕ} (hne : n ≠ e) :
      (c.written e entry timers nextTimer nextTaskToken).heap n = c.heap n := if_neg hne
  refine ⟨h.1, h.2, fun n _ => ?_, fun _ _ hmem => hmem, fun _ _ hnone => hnone,
    fun n hn _ htask hphase => ?_⟩
  · by_cases heq : n = e
    · rw [heq]
      exact Nat.le_trans (Nat.le_of_eq (congrArg ResyncEntry.failures (if_pos rfl))) hfailures
    · exact Nat.le_of_eq (congrArg ResyncEntry.failures (hother heq))
  · have hne : n ≠ e := fun heq => hstill (heq ▸ hn) (heq ▸ hphase)
    rw [hother hne]
    exact ⟨htask, rfl, rfl⟩

theorem Sound.dead (hc : c.Sound) (htask : (c.heap e).task = none) :
    ∀ made ∈ c.inFlight, made.entry = e → made.token ∈ c.aborted := by
  intro made hmade heq
  rcases (hc.flight made hmade).2.2.2 with haborted | ⟨hlive, -⟩
  · exact haborted
  · rw [heq, htask] at hlive
    cases hlive

theorem halted (hc : c.Sound) (he : e < c.nextEntry) :
    (c.halt e).Sound ∧ e < (c.halt e).nextEntry ∧ ((c.halt e).heap e).task = none ∧
      (∀ timer, (timer, e) ∉ (c.halt e).timers) ∧
      ((c.halt e).heap e).state = (c.heap e).state ∧
      ((c.halt e).heap e).failures = (c.heap e).failures := by
  obtain ⟨hheap, -, -, hnext, -⟩ := halt_spec (c := c) e
  have hhalted : Evolved false (fun _ => False) c (c.halt e) := evolved_halt hc e
  refine ⟨hhalted.sound, hnext ▸ he, ?_,
    fun timer => no_timer_halt hc e timer, ?_, ?_⟩
  all_goals simp [hheap]

theorem Sound.task_none (hc : c.Sound) (hphase : (c.heap e).state.phase ≠ .syncing) :
    (c.heap e).task = none := by
  cases htask : (c.heap e).task with
  | none => rfl
  | some token => exact absurd (hc.task e token htask).2.2.1 hphase

theorem halt_of_task_none (htask : (c.heap e).task = none) : c.halt e = c.clearTimer e := by
  unfold halt clearTimer dropTask updateEntry
  rcases hentry : c.heap e with ⟨state, timer, task, failures⟩
  rw [hentry] at htask
  cases timer <;> simp_all

theorem evolved_scheduleRetry (hc : c.Sound) (e : ℕ) :
    Evolved apart still c (c.scheduleRetry e) := by
  unfold scheduleRetry
  split
  · exact Evolved.refl hc
  · rename_i hguard
    simp only [isEntryCurrent, Bool.or_eq_true, not_or, Bool.not_eq_true, ne_eq,
      decide_eq_false_iff_not, decide_eq_true_eq, not_not, Bool.not_eq_eq_eq_not, Bool.not_true]
      at hguard
    obtain ⟨⟨-, hcurrent⟩, hretry⟩ := hguard
    have hcurrent : c.entries.get? (c.handleOf e) = some e := by simpa using hcurrent
    have he := (hc.mapped _ e hcurrent).1
    have htask := hc.task_none (e := e) (by rw [hretry]; simp)
    obtain ⟨hsound, he', htask', htimers, hstate, hfailures⟩ := halted hc he
    have hphase : PhaseSound { (c.halt e).heap e with timer := some c.nextTimer } :=
      hsound.phase e he'
    have harmed := sound_written hsound he' { (c.halt e).heap e with timer := some c.nextTimer }
      ((c.halt e).timers ++ [(c.nextTimer, e)]) (c.nextTimer + 1) (c.halt e).nextTaskToken
      rfl (fun h => h) hphase (Nat.le_refl _)
      (fun token h => by rw [show _ = (none : Option ℕ) from htask'] at h; cases h)
      (hsound.dead htask') (fun timer n hmem => by
        rcases List.mem_append.mp hmem with hold | hnew
        · exact .inl ⟨hold, fun heq => htimers timer (heq ▸ hold)⟩
        · obtain ⟨rfl, rfl⟩ : timer = c.nextTimer ∧ n = e := by simpa using hnew
          exact .inr ⟨rfl, rfl, by rw [show _ = (c.heap n).state from hstate]; exact hretry⟩)
    have hhalted : Evolved apart still c (c.halt e) := evolved_halt hc e
    have hevolved := hhalted.trans (evolved_written harmed (Nat.le_refl _)
      (fun _ => by rw [hstate, hretry]; simp))
    rw [halt_of_task_none htask] at hevolved
    exact hevolved

/-- The entry of a running attempt: it is current and will be tried as often as it has failed, and
once more. -/
def Runnable (c : ResyncCoordinator) (e attempt : ℕ) : Prop :=
  (c.heap e).failures + 1 = attempt ∧ (c.heap e).failures < sessionResyncMaxAttempts

/-- What `runAttempt` finds when the listeners of the aborted signal are done: they may have taken
the entry out, but not given it a task. -/
structure Idle (c : ResyncCoordinator) (e attempt : ℕ) : Prop where
  entry : e < c.nextEntry
  task : (c.heap e).task = none
  timer : ∀ timer, (timer, e) ∉ c.timers
  runnable : c.Runnable e attempt

theorem idle_haltEntry (hcallback : ∀ still c, Evolves apart still c (callback c)) (hc : c.Sound)
    {attempt : ℕ} (he : e < c.nextEntry) (hrun : c.Runnable e attempt) :
    (c.haltEntry callback e).Idle e attempt := by
  obtain ⟨hsound, he', hnone, htimers, hstate, hfailures⟩ := halted hc he
  have habort : Evolved apart (fun _ => True) (c.halt e) (c.haltEntry callback e) :=
    evolved_abort (hcallback _) hsound
  have hlt : e < (c.haltEntry callback e).nextEntry :=
    Nat.lt_of_lt_of_le he' habort.grows.nextEntry
  cases htask : (c.heap e).task with
  | none =>
    rw [haltEntry_of_none htask] at hlt ⊢
    exact ⟨hlt, hnone, htimers, by rw [Runnable, hfailures]; exact hrun⟩
  | some token =>
    have hphase := (hc.task e token htask).2.2.1
    obtain ⟨hnone', hstate', hfailures'⟩ :=
      habort.still e trivial he' hnone (by rw [hstate]; exact hphase)
    refine ⟨hlt, hnone', fun timer hmem => ?_, ?_⟩
    · have hretry := (habort.sound.timer timer e hmem).2.2
      rw [hstate', hstate, hphase] at hretry
      cases hretry
    · rw [Runnable, hfailures', hfailures]
      exact hrun

theorem evolved_issueTask (hc : c.Sound) {e attempt : ℕ} (hidle : c.Idle e attempt)
    (hfree : ¬ still e) :
    Evolved apart still c (c.issueTask e attempt) ∧
      ((c.issueTask e attempt).heap e).task = some c.nextTaskToken ∧
      ((c.issueTask e attempt).heap e).state.attempt = attempt := by
  have hissued := sound_written hc hidle.entry
    { c.heap e with
      task := some c.nextTaskToken
      state := { (c.heap e).state with phase := .syncing, attempt := attempt } }
    c.timers c.nextTimer (c.nextTaskToken + 1) rfl (fun h => h)
    (show attempt = (c.heap e).failures + 1 ∧ _ from
      ⟨hidle.runnable.1.symm, hidle.runnable.2⟩)
    (Nat.le_succ _)
    (fun token h => ⟨(Option.some.inj h).symm, Option.some.inj h ▸ Nat.lt_succ_self _, rfl⟩)
    (hc.dead hidle.task)
    (fun timer n hmem => .inl ⟨hmem, fun heq => hidle.timer timer (heq ▸ hmem)⟩)
  refine ⟨evolved_written hissued (Nat.le_refl _) fun hstill => absurd hstill hfree, ?_, ?_⟩
  · simp [issueTask, updateEntry]
  · simp [issueTask, updateEntry]

theorem Evolved.launch {c₀ : ResyncCoordinator} (h : Evolved apart still c₀ c)
    {e token attempt : ℕ}
    (hcurrent : c.isCurrent e token = true) (hissued : c₀.nextTaskToken ≤ token)
    (hfresh : token ∉ c.inFlight.map (·.token))
    (hattempt : (c.heap e).state.attempt = attempt) (made : SessionResyncAttempt) (hmade : made =
      { entry := e, token := token, identity := (c.heap e).state.identity, attempt := attempt,
        cursorless := (c.heap e).state.cursorless, failures := (c.heap e).failures }) :
    Evolved apart still c₀ { c with
      inFlight := c.inFlight ++ [made]
      notices := c.notices ++ [.attempted made] } := by
  have hc := h.sound
  simp only [isCurrent, isEntryCurrent, Bool.and_eq_true, decide_eq_true_eq] at hcurrent
  obtain ⟨hentry, htask⟩ := hcurrent
  obtain ⟨he, htok, hsyncing, hnot⟩ := hc.task e token htask
  have hphase := hc.phase e he
  rw [PhaseSound, hsyncing] at hphase
  subst hmade
  refine ⟨{ hc with
      flight := ?_
      tokens_nodup := ?_
      attempted := ?_
      recovered := ?_
      recovered_nodup := ?_ }, { h.grows with flights := ?_, notices := ?_ }, h.failures, ?_,
    h.vacant, h.still⟩
  · intro other hother
    rcases List.mem_append.mp hother with hold | hnew
    · exact hc.flight other hold
    · obtain rfl := List.mem_singleton.mp hnew
      exact ⟨he, htok, rfl, .inr ⟨htask, hattempt, hentry⟩⟩
  · rw [List.map_append]
    refine List.nodup_append.mpr ⟨hc.tokens_nodup, by simp, ?_⟩
    intro n hn m hm heq
    obtain rfl : m = token := by simpa using hm
    exact hfresh (heq ▸ hn)
  · intro other hother
    rcases List.mem_append.mp hother with hold | hnew
    · exact hc.attempted other hold
    · obtain rfl : other = _ := by simpa using hnew
      exact ⟨he, rfl, hphase.2, by rw [← hattempt]; exact hphase.1⟩
  · intro n completion hmem
    exact hc.recovered n completion (by simpa using hmem)
  · simpa [recoveredEntries] using hc.recovered_nodup
  · intro other hother
    rcases List.mem_append.mp hother with hold | hnew
    · exact h.grows.flights other hold
    · obtain rfl := List.mem_singleton.mp hnew
      exact .inr hissued
  · obtain ⟨later, hlater, hcursorless⟩ := h.grows.notices
    refine ⟨later ++ [.attempted _], by rw [hlater, List.append_assoc], ?_⟩
    intro other hother hlt hc₀
    rcases List.mem_append.mp hother with hold | hnew
    · exact hcursorless other hold hlt hc₀
    · obtain rfl : other = _ := by simpa using hnew
      exact h.grows.cursorless e hlt hc₀
  · intro n completion hmem
    exact h.recovered n completion (by simpa using hmem)

/-- What the callbacks of a method may do: in its course anything that is allowed at its moment,
while it clears an entry nothing that adds one, and while it aborts a task nothing that resumes. -/
structure Tame (apart : Bool) (still : ℕ → Prop) (callbacks : ResyncCallbacks) : Prop where
  ordinary : ∀ c, Evolves apart still c (callbacks.ordinary c)
  clearing : ∀ c, Evolves true still c (callbacks.clearing c)
  issuing : ∀ still' c, Evolves apart still' c (callbacks.issuing c)

variable {callbacks : ResyncCallbacks}

theorem Tame.mono {still' : ℕ → Prop} (h : Tame apart still callbacks)
    (hsub : ∀ e, still' e → still e) : Tame apart still' callbacks where
  ordinary c hc := (h.ordinary c hc).mono fun e hstill _ _ => hsub e hstill
  clearing c hc := (h.clearing c hc).mono fun e hstill _ _ => hsub e hstill
  issuing := h.issuing

theorem evolves_runAttempt (htame : Tame apart still callbacks) {e attempt : ℕ}
    (hfree : ¬ still e)
    (hrun : c.entries.get? (c.handleOf e) = some e → c.Runnable e attempt) :
    Evolves apart still c (c.runAttempt callbacks e attempt) := by
  intro hc
  unfold runAttempt
  split
  · exact Evolved.refl hc
  · rename_i hguard
    have hcurrent : c.entries.get? (c.handleOf e) = some e := by
      simp only [isEntryCurrent, Bool.or_eq_true, not_or, Bool.not_eq_true, Bool.not_eq_eq_eq_not]
        at hguard
      simpa using hguard.2
    have hidle := idle_haltEntry htame.issuing hc (hc.mapped _ e hcurrent).1 (hrun hcurrent)
    have hhalted : Evolved apart still c (c.haltEntry callbacks.issuing e) :=
      evolves_haltEntry (htame.issuing still) e hc
    dsimp only
    set halted := c.haltEntry callbacks.issuing e with hhaltedState
    obtain ⟨hissued, htask, hattempt⟩ :
        Evolved apart still halted (halted.issueTask e attempt) ∧ _ :=
      evolved_issueTask hhalted.sound hidle hfree
    have htoken : (halted.issueTask e attempt).nextTaskToken = halted.nextTaskToken + 1 := rfl
    have hpublish : Evolved apart still (halted.issueTask e attempt)
        ((halted.issueTask e attempt).publishEntry callbacks.ordinary e) :=
      evolves_publish htame.ordinary _ _ hissued.sound
    have hpublished := (hhalted.trans hissued).trans hpublish
    split
    · exact hpublished
    · rename_i hcheck
      have hcheck : ((halted.issueTask e attempt).publishEntry callbacks.ordinary e).isCurrent e
          halted.nextTaskToken = true := by
        simp only [Bool.or_eq_true, not_or, Bool.not_eq_true, Bool.not_eq_eq_eq_not] at hcheck
        simpa using hcheck.1.1
      have htaskNow : (((halted.issueTask e attempt).publishEntry callbacks.ordinary e).heap
          e).task = some halted.nextTaskToken := by
        simp only [isCurrent, Bool.and_eq_true, decide_eq_true_eq] at hcheck
        exact hcheck.2
      -- the task is still there, so the entry is as it was when the task was issued
      have hkept := hpublish.grows.kept e halted.nextTaskToken htaskNow (by rw [htoken]; omega)
      have hlaunched := hpublished.launch hcheck hhalted.grows.nextTaskToken ?_
        (by rw [hkept, hattempt]) _ rfl
      · exact hlaunched.trans (htame.ordinary _ hlaunched.sound)
      · intro hmem
        obtain ⟨made, hmade, htokenEq⟩ := List.mem_map.mp hmem
        rcases hpublish.grows.flights made hmade with hold | hnew
        · have hlt := (hhalted.sound.flight made hold).2.1
          omega
        · rw [htoken] at hnew
          omega

theorem evolved_addEntry (hc : c.Sound) (identity : SessionRuntimeIdentity) (cursorless : Bool)
    (hnone : c.entries.get? identity.sessionHandle = none) :
    Evolved false still c (c.addEntry identity cursorless) ∧
      ((c.addEntry identity cursorless).heap c.nextEntry).failures = 0 := by
  set c' := c.addEntry identity cursorless with hc'
  have hself : c'.heap c.nextEntry =
      { state :=
          { identity := identity, phase := .syncing, attempt := 1, cursorless := cursorless }
        timer := none
        task := none
        failures := 0 } := if_pos rfl
  have hold {n : ℕ} (hn : n < c.nextEntry) : c'.heap n = c.heap n := if_neg (Nat.ne_of_lt hn)
  have hhandle {n : ℕ} (hn : n < c.nextEntry) : c'.handleOf n = c.handleOf n := by
    rw [handleOf, handleOf, hold hn]
  have hentries (sessionHandle : SessionHandle) : c'.entries.get? sessionHandle =
      if sessionHandle = identity.sessionHandle then some c.nextEntry
      else c.entries.get? sessionHandle := by
    rw [hc', addEntry, InsertionMap.get?_insert]
  have hnext : c'.nextEntry = c.nextEntry + 1 := rfl
  have htask {n token : ℕ} (h : (c'.heap n).task = some token) :
      n < c.nextEntry ∧ (c.heap n).task = some token := by
    by_cases heq : n = c.nextEntry
    · rw [heq, hself] at h
      cases h
    · have h : (c.heap n).task = some token := by
        rw [← h]
        exact congrArg ResyncEntry.task (if_neg heq).symm
      exact ⟨(hc.task n token h).1, h⟩
  have hretired {n : ℕ} (hn : n < c.nextEntry) (hnot : c.entries.get? (c.handleOf n) ≠ some n) :
      c'.entries.get? (c'.handleOf n) ≠ some n := by
    rw [hhandle hn, hentries]
    split
    · intro h
      have := Option.some.inj h
      omega
    · exact hnot
  refine ⟨⟨⟨?_, ?_, ?_, hc.aborted_lt, ?_, hc.tokens_nodup, ?_, ?_, ?_, ?_, hc.recovered_nodup⟩,
    ⟨Nat.le_succ _, Nat.le_refl _, ?_, ?_, ?_, fun n hn => hretired hn, fun _ h => .inl h,
      ⟨[], by simp [hc', addEntry], by simp⟩⟩, ?_, fun _ _ h => h, fun h => (by cases h), ?_⟩,
    by rw [hself]⟩
  · intro sessionHandle n hget
    rw [hentries] at hget
    split at hget
    · rename_i heq
      obtain rfl := Option.some.inj hget
      exact ⟨Nat.lt_succ_self _, by rw [handleOf, hself, heq]⟩
    · obtain ⟨hlt, hname⟩ := hc.mapped sessionHandle n hget
      exact ⟨Nat.lt_succ_of_lt hlt, by rw [hhandle hlt, hname]⟩
  · intro n token h
    obtain ⟨hlt, hbefore⟩ := htask h
    obtain ⟨-, htok, hsyncing, hnot⟩ := hc.task n token hbefore
    exact ⟨Nat.lt_succ_of_lt hlt, htok, by rw [hold hlt]; exact hsyncing, hnot⟩
  · exact fun n n' token h h' => hc.tasks_differ n n' token (htask h).2 (htask h').2
  · intro made hmade
    obtain ⟨hlt, htok, hsame, hlive⟩ := hc.flight made hmade
    rw [hhandle hlt, hold hlt]
    refine ⟨Nat.lt_succ_of_lt hlt, htok, hsame, hlive.imp id fun h => ?_⟩
    obtain ⟨hown, hattempt, hcurrent⟩ := h
    refine ⟨hown, hattempt, ?_⟩
    rw [hentries, if_neg]
    · exact hcurrent
    · intro heq
      rw [heq, hnone] at hcurrent
      cases hcurrent
  · intro timer n hmem
    obtain ⟨hlt, hrest⟩ := hc.timer timer n hmem
    rw [hold hlt]
    exact ⟨Nat.lt_succ_of_lt hlt, hrest⟩
  · intro n hn
    by_cases heq : n = c.nextEntry
    · rw [heq, hself]
      exact ⟨rfl, Nat.zero_lt_succ 3⟩
    · have hlt : n < c.nextEntry := by omega
      rw [hold hlt]
      exact hc.phase n hlt
  · intro made hmade
    obtain ⟨hlt, hrest⟩ := hc.attempted made hmade
    rw [hold hlt]
    exact ⟨Nat.lt_succ_of_lt hlt, hrest⟩
  · intro n completion hmem
    obtain ⟨hlt, hidentity, hnot⟩ := hc.recovered n completion hmem
    exact ⟨Nat.lt_succ_of_lt hlt, by rw [hold hlt]; exact hidentity, hretired hlt hnot⟩
  · exact fun n hn => by rw [hold hn]
  · exact fun n hn h => by rw [hold hn]; exact h
  · exact fun n token h _ => hold (htask h).1
  · exact fun n hn => Nat.le_of_eq (by rw [hold hn])
  · intro n _ hn hidle _
    rw [hold hn]
    exact ⟨hidle, rfl, rfl⟩

theorem evolved_createEntry (htame : Tame false still callbacks) (hc : c.Sound)
    (identity : SessionRuntimeIdentity) (cursorless : Bool)
    (hnone : c.entries.get? identity.sessionHandle = none) :
    Evolved false still c (c.createEntry callbacks identity cursorless) := by
  -- the new entry itself is exempt: it gets its first task
  have hothers : Tame false (fun e => still e ∧ e ≠ c.nextEntry) callbacks :=
    htame.mono fun _ hstill => hstill.1
  obtain ⟨hadded, hfailures⟩ :
      Evolved false (fun e => still e ∧ e ≠ c.nextEntry) c (c.addEntry identity cursorless) ∧ _ :=
    evolved_addEntry hc identity cursorless hnone
  have hpublish : Evolved false (fun e => still e ∧ e ≠ c.nextEntry)
      (c.addEntry identity cursorless)
      ((c.addEntry identity cursorless).publishEntry callbacks.ordinary c.nextEntry) :=
    evolves_publish hothers.ordinary _ _ hadded.sound
  have hcreated : Evolved false (fun e => still e ∧ e ≠ c.nextEntry) c
      (c.createEntry callbacks identity cursorless) := by
    refine (hadded.trans hpublish).trans
      (evolves_runAttempt hothers (fun h => h.2 rfl) (fun _ => ?_) hpublish.sound)
    have hle := hpublish.failures c.nextEntry (Nat.lt_succ_self _)
    rw [hfailures] at hle
    have hzero := Nat.le_zero.mp hle
    exact ⟨by rw [hzero], by rw [hzero]; decide⟩
  exact hcreated.mono fun e hstill hlt _ => ⟨hstill, Nat.ne_of_lt hlt⟩

end ResyncCoordinator

end PiAgentWeb
