import PiAgentWeb.Library.InsertionMap
import PiAgentWeb.Library.JsValue
import PiAgentWeb.Library.Runs
import PiAgentWeb.Library.WindowBudget

/-!
# Automatic restarts after a crash

The supervisor restarts a crashed Session after a delay, a limited number of times within a window
of time. It keeps the recent crash times of each Session and one restart timer. An explicit restart
clears the crash times, so the budget starts anew.
-/

namespace PiAgentWeb

/-- The options of the supervisor that concern automatic restarts. -/
structure RestartOptions where
  restartWindowMs : ℕ
  maxAutoRestarts : ℕ
  restartBaseDelayMs : ℕ

/-- A timer that was set and has neither fired nor been cleared. -/
structure RestartTimer where
  id : ℕ
  handle : JsString
  runtime : ℕ
  delay : ℕ
  deriving DecidableEq

/-- The part of the supervisor that concerns automatic restarts, with the timers of the process, the
clock, and the automatic restarts scheduled and begun so far (history). Runtimes are numbered. -/
structure CrashRestarts where
  closed : Bool
  runtimes : InsertionMap JsString ℕ
  crashTimes : InsertionMap JsString (List ℕ)
  restartTimers : InsertionMap JsString ℕ
  timers : List RestartTimer
  nextTimer : ℕ
  now : ℕ
  scheduled : List (JsString × ℕ)
  begun : List ℕ
  deriving DecidableEq

/-- What happens to the supervisor. A runtime that is started is tracked; an explicit restart may
replace the runtime; a removal is the end of a deletion, an abandonment or a reaped runtime, that
forgets the crash times or not. -/
inductive RestartAction where
  | tick (ms : ℕ)
  | started (handle : JsString) (runtime : ℕ)
  | crashed (handle : JsString) (runtime : ℕ) (protocolIncompatible recoverable : Bool)
  | timerFired (id : ℕ)
  | restart (handle : JsString) (replacement : Option ℕ)
  | stop (handle : JsString)
  | remove (handle : JsString) (forget : Bool)
  | rekey (previousHandle nextHandle : JsString) (runtime : ℕ)
  | stopAll
  deriving DecidableEq

namespace CrashRestarts

variable (opts : RestartOptions)

/-- The supervisor without Sessions. -/
def initial : CrashRestarts where
  closed := false
  runtimes := .empty
  crashTimes := .empty
  restartTimers := .empty
  timers := []
  nextTimer := 0
  now := 0
  scheduled := []
  begun := []

/-- `clearRestart`. -/
def clearRestart (s : CrashRestarts) (sessionHandle : JsString) : CrashRestarts :=
  { s with
    timers :=
      match s.restartTimers.get? sessionHandle with
      | some id => s.timers.filter (·.id ≠ id)
      | none => s.timers
    restartTimers := s.restartTimers.erase sessionHandle }

/-- The crash times that count with the present one. -/
def recentCrashes (s : CrashRestarts) (handle : JsString) : List ℕ :=
  ((s.crashTimes.get? handle).getD []).filter
    (fun time : ℕ => (s.now : ℤ) - (time : ℤ) < (opts.restartWindowMs : ℤ)) ++ [s.now]

/-- The restart is scheduled. -/
def schedule (s : CrashRestarts) (handle : JsString) (runtime delay : ℕ) : CrashRestarts :=
  let s := s.clearRestart handle
  { s with
    timers := s.timers ++ [⟨s.nextTimer, handle, runtime, delay⟩]
    restartTimers := s.restartTimers.insert handle s.nextTimer
    nextTimer := s.nextTimer + 1
    scheduled := s.scheduled ++ [(handle, s.now)] }

/-- `handleCrash`. -/
def handleCrash (s : CrashRestarts) (handle : JsString) (runtime : ℕ)
    (protocolIncompatible recoverable : Bool) : CrashRestarts :=
  if s.closed || protocolIncompatible || !recoverable then s
  else
    let recent := s.recentCrashes opts handle
    let s := { s with crashTimes := s.crashTimes.insert handle recent }
    if recent.length > opts.maxAutoRestarts then s
    else s.schedule handle runtime (opts.restartBaseDelayMs * 2 ^ (recent.length - 1))

/-- The callback of a restart timer. -/
def timerFired (s : CrashRestarts) (id : ℕ) : CrashRestarts :=
  match s.timers.find? (·.id = id) with
  | none => s
  | some timer =>
    let s :=
      { s with
        timers := s.timers.filter (·.id ≠ id)
        restartTimers := s.restartTimers.erase timer.handle }
    if s.closed || !(s.runtimes.entries.map (·.2)).contains timer.runtime then s
    else { s with begun := s.begun ++ [timer.runtime] }

/-- One action. -/
def step (s : CrashRestarts) : RestartAction → CrashRestarts
  | .tick ms => { s with now := s.now + ms }
  | .started handle runtime => { s with runtimes := s.runtimes.insert handle runtime }
  | .crashed handle runtime protocolIncompatible recoverable =>
    s.handleCrash opts handle runtime protocolIncompatible recoverable
  | .timerFired id => s.timerFired id
  | .restart handle replacement =>
    let s := s.clearRestart handle
    { s with
      crashTimes := s.crashTimes.erase handle
      runtimes :=
        match replacement with
        | some runtime => s.runtimes.insert handle runtime
        | none => s.runtimes }
  | .stop handle => s.clearRestart handle
  | .remove handle forget =>
    let s := s.clearRestart handle
    { s with
      runtimes := s.runtimes.erase handle
      crashTimes := if forget then s.crashTimes.erase handle else s.crashTimes }
  | .rekey previousHandle nextHandle runtime =>
    { s with
      runtimes := (s.runtimes.erase previousHandle).insert nextHandle runtime
      crashTimes :=
        match s.crashTimes.get? previousHandle with
        | some crashes => (s.crashTimes.erase previousHandle).insert nextHandle crashes
        | none => s.crashTimes }
  | .stopAll =>
    { s with
      closed := true
      timers := s.timers.filter fun timer =>
        !(s.restartTimers.entries.map (·.2)).contains timer.id
      restartTimers := .empty }

/-! ## One timer for each Session -/

/-- The timers are those of the table. -/
structure Timed (s : CrashRestarts) : Prop where
  table : ∀ handle id, s.restartTimers.get? handle = some id ↔
    ∃ timer ∈ s.timers, timer.handle = handle ∧ timer.id = id
  fresh : ∀ timer ∈ s.timers, timer.id < s.nextTimer
  distinct : (s.timers.map (·.id)).Nodup

variable {opts} {s : CrashRestarts}

theorem initial_timed : initial.Timed where
  table handle id := by simp [initial]
  fresh := nofun
  distinct := List.nodup_nil

theorem Timed.drop (h : s.Timed) {timer : RestartTimer} (htimer : timer ∈ s.timers) :
    Timed
      { s with
        timers := s.timers.filter (·.id ≠ timer.id)
        restartTimers := s.restartTimers.erase timer.handle } where
  table handle id := by
    rw [InsertionMap.get?_erase]
    by_cases hhandle : handle = timer.handle
    · -- another timer of the handle would have the same entry of the table
      rw [if_pos hhandle]
      refine ⟨nofun, ?_⟩
      rintro ⟨other, hother, hsame, -⟩
      obtain ⟨hmem, hid⟩ := List.mem_filter.mp hother
      have hentry := (h.table handle other.id).mpr ⟨other, hmem, hsame, rfl⟩
      rw [(h.table handle timer.id).mpr ⟨timer, htimer, hhandle.symm, rfl⟩] at hentry
      exact absurd (Option.some.inj hentry).symm (by simpa using hid)
    · rw [if_neg hhandle, h.table handle id]
      constructor
      · rintro ⟨other, hmem, hsame, hid⟩
        refine ⟨other, List.mem_filter.mpr ⟨hmem, ?_⟩, hsame, hid⟩
        rw [decide_eq_true_eq]
        intro heq
        rw [List.inj_on_of_nodup_map h.distinct hmem htimer heq] at hsame
        exact hhandle hsame.symm
      · rintro ⟨other, hother, hsame⟩
        exact ⟨other, List.mem_of_mem_filter hother, hsame⟩
  fresh other hother := h.fresh other (List.mem_of_mem_filter hother)
  distinct := h.distinct.sublist (List.filter_sublist.map _)

theorem Timed.of_same (h : s.Timed) {next : CrashRestarts}
    (htable : ∀ handle, next.restartTimers.get? handle = s.restartTimers.get? handle)
    (htimers : next.timers = s.timers) (hnext : next.nextTimer = s.nextTimer) : next.Timed where
  table handle id := by rw [htable, htimers, h.table]
  fresh := by
    rw [htimers, hnext]
    exact h.fresh
  distinct := htimers ▸ h.distinct

theorem clearRestart_timed (h : s.Timed) (handle : JsString) :
    (s.clearRestart handle).Timed ∧ (s.clearRestart handle).restartTimers.get? handle = none := by
  refine ⟨?_, InsertionMap.get?_erase_self _ _⟩
  unfold clearRestart
  cases hentry : s.restartTimers.get? handle with
  | none =>
    refine h.of_same (fun other => ?_) rfl rfl
    rw [InsertionMap.get?_erase]
    split
    · rename_i heq
      rw [heq, hentry]
    · rfl
  | some id =>
    obtain ⟨timer, hmem, rfl, rfl⟩ := (h.table handle id).mp hentry
    exact h.drop hmem

theorem schedule_timed (h : s.Timed) (handle : JsString) (runtime delay : ℕ) :
    (s.schedule handle runtime delay).Timed := by
  obtain ⟨hcleared, hnone⟩ := clearRestart_timed h handle
  unfold schedule
  generalize s.clearRestart handle = q at hcleared hnone
  refine ⟨fun other id => ?_, ?_, ?_⟩
  · rw [InsertionMap.get?_insert]
    by_cases hother : other = handle
    · rw [if_pos hother]
      constructor
      · rintro ⟨⟩
        exact ⟨_, List.mem_append_right _ List.mem_cons_self, hother.symm, rfl⟩
      · rintro ⟨timer, hmem, hsame, hid⟩
        rcases List.mem_append.mp hmem with hmem | hmem
        · have hentry := (hcleared.table other timer.id).mpr ⟨timer, hmem, hsame, rfl⟩
          rw [hother, hnone] at hentry
          cases hentry
        · rw [List.mem_singleton.mp hmem] at hid
          exact congrArg some hid
    · rw [if_neg hother, hcleared.table other id]
      constructor
      · rintro ⟨timer, hmem, hsame⟩
        exact ⟨timer, List.mem_append_left _ hmem, hsame⟩
      · rintro ⟨timer, hmem, hsame, hid⟩
        rcases List.mem_append.mp hmem with hmem | hmem
        · exact ⟨timer, hmem, hsame, hid⟩
        · rw [List.mem_singleton.mp hmem] at hsame
          exact absurd hsame.symm hother
  · intro timer hmem
    rcases List.mem_append.mp hmem with hmem | hmem
    · exact Nat.lt_succ_of_lt (hcleared.fresh timer hmem)
    · rw [List.mem_singleton.mp hmem]
      exact Nat.lt_succ_self _
  · rw [List.map_append, List.nodup_append]
    refine ⟨hcleared.distinct, List.nodup_singleton _, ?_⟩
    rintro _ hid _ hnew rfl
    obtain ⟨timer, hmem, heq⟩ := List.mem_map.mp hid
    simp only [List.map_singleton, List.mem_singleton] at hnew
    have hlt := hcleared.fresh timer hmem
    omega

theorem handleCrash_timed (h : s.Timed) (handle : JsString) (runtime : ℕ)
    (protocolIncompatible recoverable : Bool) :
    (s.handleCrash opts handle runtime protocolIncompatible recoverable).Timed := by
  unfold handleCrash
  split
  · exact h
  · dsimp only
    split
    · exact h.of_same (fun _ => rfl) rfl rfl
    · have hnext : Timed
          { s with crashTimes := s.crashTimes.insert handle (s.recentCrashes opts handle) } :=
        h.of_same (fun _ => rfl) rfl rfl
      exact schedule_timed hnext _ _ _

theorem timerFired_timed (h : s.Timed) (id : ℕ) : (s.timerFired id).Timed := by
  unfold timerFired
  split
  · exact h
  · rename_i timer hfound
    have hid : timer.id = id := by simpa using List.find?_some hfound
    have hdropped := h.drop (List.mem_of_find?_eq_some hfound)
    rw [hid] at hdropped
    dsimp only
    split
    · exact hdropped
    · exact hdropped.of_same (fun _ => rfl) rfl rfl

theorem step_timed (h : s.Timed) (action : RestartAction) : (s.step opts action).Timed := by
  cases action with
  | tick ms => exact h.of_same (fun _ => rfl) rfl rfl
  | started handle runtime => exact h.of_same (fun _ => rfl) rfl rfl
  | crashed handle runtime protocolIncompatible recoverable =>
    exact handleCrash_timed h _ _ _ _
  | timerFired id => exact timerFired_timed h id
  | restart handle replacement =>
    exact (clearRestart_timed h handle).1.of_same (fun _ => rfl) rfl rfl
  | stop handle => exact (clearRestart_timed h handle).1
  | remove handle forget =>
    exact (clearRestart_timed h handle).1.of_same (fun _ => rfl) rfl rfl
  | rekey previousHandle nextHandle runtime => exact h.of_same (fun _ => rfl) rfl rfl
  | stopAll =>
    have hnone : (s.timers.filter fun timer =>
        !(s.restartTimers.entries.map (·.2)).contains timer.id) = [] := by
      rw [List.filter_eq_nil_iff]
      intro timer hmem
      have hentry := (h.table timer.handle timer.id).mpr ⟨timer, hmem, rfl, rfl⟩
      rw [InsertionMap.get?_eq_some_iff] at hentry
      simp only [Bool.not_eq_true', Bool.not_eq_false, List.contains_iff_mem]
      exact List.mem_map.mpr ⟨_, hentry, rfl⟩
    simp only [step, hnone]
    exact ⟨fun handle id => by simp, nofun, List.nodup_nil⟩

theorem Timed.one_pending (h : s.Timed) (handle : JsString) :
    (s.timers.filter (·.handle = handle)).length ≤ 1 := by
  have hdistinct : ((s.timers.filter (·.handle = handle)).map (·.id)).Nodup :=
    h.distinct.sublist (List.filter_sublist.map _)
  have hentry : ∀ timer ∈ s.timers.filter (·.handle = handle),
      s.restartTimers.get? handle = some timer.id := by
    intro timer hmem
    obtain ⟨hin, hhandle⟩ := List.mem_filter.mp hmem
    exact (h.table handle timer.id).mpr ⟨timer, hin, by simpa using hhandle, rfl⟩
  cases htimers : s.timers.filter (·.handle = handle) with
  | nil => exact Nat.zero_le _
  | cons first rest =>
    cases rest with
    | nil => exact Nat.le_refl _
    | cons second rest =>
      rw [htimers] at hentry hdistinct
      have hfirst := hentry first List.mem_cons_self
      rw [hentry second (List.mem_cons_of_mem _ List.mem_cons_self)] at hfirst
      rw [List.map_cons, List.map_cons, List.nodup_cons] at hdistinct
      exact absurd (Option.some.inj hfirst ▸ List.mem_cons_self) hdistinct.1

/-! ## The budget -/

/-- The action neither clears nor moves the crash times of the Session. -/
def Keeps (handle : JsString) : RestartAction → Prop
  | .restart other _ => other ≠ handle
  | .remove other forget => other ≠ handle ∨ forget = false
  | .rekey previousHandle nextHandle _ => previousHandle ≠ handle ∧ nextHandle ≠ handle
  | _ => True

instance (handle : JsString) : DecidablePred (Keeps handle) := fun action => by
  cases action <;> unfold Keeps <;> infer_instance

/-- When automatic restarts of the Session were scheduled since then. -/
def scheduledSince (s s₀ : CrashRestarts) (handle : JsString) : List ℕ :=
  ((s.scheduled.drop s₀.scheduled.length).filter (·.1 = handle)).map (·.2)

theorem recentCrashes_eq (s : CrashRestarts) (handle : JsString) :
    s.recentCrashes opts handle =
      WindowBudget.recent opts.restartWindowMs s.now ((s.crashTimes.get? handle).getD []) ++
        [s.now] := by
  unfold recentCrashes WindowBudget.recent
  refine congrArg (· ++ [s.now]) (List.filter_congr fun time _ => ?_)
  exact decide_eq_decide.mpr (by omega)

/-- What was granted to the Session since some state: the scheduled restarts are recorded and
within the budget. -/
structure Budgeted (opts : RestartOptions) (handle : JsString) (base granted : List (JsString × ℕ))
    (s : CrashRestarts) : Prop where
  scheduled : s.scheduled = base ++ granted
  tracks : WindowBudget.Tracks opts.restartWindowMs s.now
    ((granted.filter (·.1 = handle)).map (·.2)) ((s.crashTimes.get? handle).getD [])
  within : WindowBudget.Within opts.restartWindowMs opts.maxAutoRestarts
    ((granted.filter (·.1 = handle)).map (·.2))

theorem step_budgeted {handle : JsString} {base granted : List (JsString × ℕ)}
    (h : Budgeted opts handle base granted s) {action : RestartAction}
    (hkeeps : Keeps handle action) :
    ∃ granted, Budgeted opts handle base granted (s.step opts action) := by
  have hsame : ∀ next : CrashRestarts, next.scheduled = s.scheduled → s.now ≤ next.now →
      next.crashTimes.get? handle = s.crashTimes.get? handle →
      ∃ granted, Budgeted opts handle base granted next := by
    intro next hscheduled hnow htimes
    refine ⟨granted, hscheduled.trans h.scheduled, ?_, h.within⟩
    rw [htimes]
    exact h.tracks.advance hnow
  cases action with
  | tick ms => exact hsame _ rfl (Nat.le_add_right _ _) rfl
  | started other runtime => exact hsame _ rfl (Nat.le_refl _) rfl
  | crashed other runtime protocolIncompatible recoverable =>
    simp only [step, handleCrash]
    split
    · exact hsame _ rfl (Nat.le_refl _) rfl
    rw [recentCrashes_eq]
    by_cases hother : other = handle
    · subst hother
      have htimes : ((s.crashTimes.insert other
          (WindowBudget.recent opts.restartWindowMs s.now ((s.crashTimes.get? other).getD []) ++
            [s.now])).get? other).getD [] =
          WindowBudget.recent opts.restartWindowMs s.now ((s.crashTimes.get? other).getD []) ++
            [s.now] := by
        rw [InsertionMap.get?_insert_self, Option.getD_some]
      split
      · refine ⟨granted, h.scheduled, ?_, h.within⟩
        rw [htimes]
        exact h.tracks.record
      · rename_i hroom
        have hgranted : ((granted ++ [(other, s.now)]).filter (·.1 = other)).map (·.2) =
            (granted.filter (·.1 = other)).map (·.2) ++ [s.now] := by
          simp
        refine ⟨granted ++ [(other, s.now)], ?_, ?_, ?_⟩
        · rw [← List.append_assoc, ← h.scheduled]
          rfl
        · rw [hgranted]
          have htracks := h.tracks.grant
          rw [← htimes] at htracks
          exact htracks
        · rw [hgranted]
          exact h.within.grant h.tracks (Nat.le_of_not_lt hroom)
    · have htimes : ∀ times, (s.crashTimes.insert other times).get? handle =
          s.crashTimes.get? handle := fun times =>
        InsertionMap.get?_insert_of_ne _ (Ne.symm hother) _
      split
      · exact hsame _ rfl (Nat.le_refl _) (htimes _)
      · have hgranted : (granted ++ [(other, s.now)]).filter (·.1 = handle) =
            granted.filter (·.1 = handle) := by
          simp [hother]
        refine ⟨granted ++ [(other, s.now)], ?_, ?_, ?_⟩
        · rw [← List.append_assoc, ← h.scheduled]
          rfl
        · rw [hgranted]
          have htracks := h.tracks
          rw [← htimes] at htracks
          exact htracks
        · rw [hgranted]
          exact h.within
  | timerFired id =>
    simp only [step, timerFired]
    split
    · exact hsame _ rfl (Nat.le_refl _) rfl
    · split
      · exact hsame _ rfl (Nat.le_refl _) rfl
      · exact hsame _ rfl (Nat.le_refl _) rfl
  | restart other replacement =>
    exact hsame _ rfl (Nat.le_refl _) (InsertionMap.get?_erase_of_ne _ (Ne.symm hkeeps))
  | stop other => exact hsame _ rfl (Nat.le_refl _) rfl
  | remove other forget =>
    refine hsame _ rfl (Nat.le_refl _) ?_
    cases forget with
    | false => rfl
    | true =>
      exact InsertionMap.get?_erase_of_ne _ (Ne.symm (hkeeps.resolve_right Bool.noConfusion))
  | rekey previousHandle nextHandle runtime =>
    refine hsame _ rfl (Nat.le_refl _) ?_
    simp only [step]
    split
    · rw [InsertionMap.get?_insert_of_ne _ (Ne.symm hkeeps.2),
        InsertionMap.get?_erase_of_ne _ (Ne.symm hkeeps.1)]
    · rfl
  | stopAll => exact hsame _ rfl (Nat.le_refl _) rfl

theorem run_budgeted {handle : JsString} {base granted : List (JsString × ℕ)}
    (h : Budgeted opts handle base granted s) {actions : List RestartAction}
    (hkeeps : ∀ action ∈ actions, Keeps handle action) :
    ∃ granted, Budgeted opts handle base granted (runFrom (step opts) s actions) := by
  induction actions generalizing s granted with
  | nil => exact ⟨granted, h⟩
  | cons action rest ih =>
    obtain ⟨granted', hnext⟩ := step_budgeted h (hkeeps action List.mem_cons_self)
    exact ih hnext fun action hmem => hkeeps action (.tail _ hmem)

variable (opts)

/-- In every window, no more automatic restarts of a Session are scheduled than configured as long
as its crash times are not cleared; and at most one restart timer of a Session is set at any
time. -/
theorem restart_budget (before during : List RestartAction) (handle : JsString) :
    let s₀ := runFrom (step opts) initial before
    let s := runFrom (step opts) s₀ during
    ((∀ action ∈ during, Keeps handle action) → ∀ start,
        ((s.scheduledSince s₀ handle).filter fun time =>
          start ≤ time && time < start + opts.restartWindowMs).length ≤ opts.maxAutoRestarts) ∧
      (s.timers.filter (·.handle = handle)).length ≤ 1 := by
  intro s₀ s
  constructor
  · intro hkeeps start
    have hstart : Budgeted opts handle s₀.scheduled [] s₀ :=
      ⟨(List.append_nil _).symm, .nil _, fun _ => Nat.zero_le _⟩
    obtain ⟨granted, hlast⟩ := run_budgeted hstart hkeeps
    have hsince : s.scheduledSince s₀ handle = (granted.filter (·.1 = handle)).map (·.2) := by
      have hscheduled : s.scheduled = s₀.scheduled ++ granted := hlast.scheduled
      rw [scheduledSince, hscheduled, List.drop_left]
    rw [hsince]
    exact hlast.within start
  · have htimed : s₀.Timed :=
      runFrom_invariant (I := Timed) (fun _ action h => step_timed h action) before initial_timed
    have hlast : s.Timed :=
      runFrom_invariant (I := Timed) (fun _ action h => step_timed h action) during htimed
    exact hlast.one_pending handle

/-- The options of the evaluated runs. -/
def sampleRestartOptions : RestartOptions :=
  { restartWindowMs := 30000, maxAutoRestarts := 1, restartBaseDelayMs := 1000 }

/-- Three crashes within 31 seconds: the second one exceeds the budget, the third one does not. -/
theorem restart_budget_sample :
    let during : List RestartAction :=
      [.crashed [1] 0 false true, .timerFired 0, .tick 20000, .crashed [1] 0 false true,
        .tick 31000, .crashed [1] 0 false true]
    let s := runFrom (step sampleRestartOptions) initial (.started [1] 0 :: during)
    s.scheduled = [([1], 0), ([1], 51000)] ∧
      ((s.scheduledSince (runFrom (step sampleRestartOptions) initial [.started [1] 0])
        [1]).filter fun time => 0 ≤ time && time < 0 + 30000).length ≤ 1 := by
  refine ⟨by decide, ?_⟩
  exact (restart_budget sampleRestartOptions [.started [1] 0] _ [1]).1 (by decide) 0

/-- An explicit restart starts the budget anew: two automatic restarts are scheduled at once. -/
theorem restart_budget_renewed :
    let s := runFrom (step sampleRestartOptions) initial
      [.started [1] 0, .crashed [1] 0 false true, .restart [1] none, .crashed [1] 0 false true]
    (s.scheduledSince initial [1]).length = 2 ∧
      ¬ ((s.scheduledSince initial [1]).filter fun time =>
        0 ≤ time && time < 0 + sampleRestartOptions.restartWindowMs).length ≤
          sampleRestartOptions.maxAutoRestarts := by
  decide

end CrashRestarts

end PiAgentWeb
