import PiAgentWeb.Server.OperationalAccounting

/-!
# Accounting over the incarnations of a process

The counter of commands is reset when an incarnation ends and is decremented by each command that
settles; it is exact because the process has rejected the commands of an incarnation before another
one starts, and because a transition that is still waiting holds back every other admission. The
log of removed reservations and the pending ones together list every reservation once.
-/

namespace PiAgentWeb

namespace SessionOperations

/-- Every turn reservation that was made is pending or was removed, once. -/
def Turns (s : SessionOperations) : Prop :=
  (s.released ++ s.operational.pendingTurnReservations).Perm
    (List.range' 1 s.operational.nextTurnReservationId)

/-- What a settled command leaves alone. -/
structure Frame (s s' : SessionOperations) : Prop where
  processToken : s'.processToken = s.processToken
  proc : s'.proc = s.proc
  finalizing : s'.finalizing = s.finalizing
  stopPromise : s'.stopPromise = s.stopPromise
  transition : s'.transition = s.transition
  waiting : s'.waiting = s.waiting
  compaction : s'.idleBaseCompactionPromise = s.idleBaseCompactionPromise
  nextCommand : s'.nextCommand = s.nextCommand
  transitioning : s'.transitioning = s.transitioning
  busy : s'.operational.idleBaseCompactionBusy = s.operational.idleBaseCompactionBusy
  turns : s.Turns → s'.Turns

/-- A step that settles no command and admits none. -/
structure KeepsFlight (s s' : SessionOperations) : Prop extends Frame s s' where
  commands : s'.commands = s.commands
  inFlight : s'.operational.inFlight = s.operational.inFlight

/-- The invariant of a run. -/
structure Counted (maxPendingCommands : ℕ) (s : SessionOperations) : Prop where
  flight : ∀ t, s.proc = some t →
    s.operational.inFlight = s.commands.length + (if s.transition = some t then 1 else 0)
  idle : s.proc = none → s.operational.inFlight = 0
  bounded : s.operational.inFlight ≤ maxPendingCommands
  current : ∀ t, s.proc = some t → t = s.processToken
  stopped : ∀ stop, s.stopPromise = some stop → s.proc = none
  /-- Commands belong to the current process, or to the one that is being stopped. -/
  incarnations : ∀ command ∈ s.commands, s.proc = some command.incarnation ∨
    ∃ kind, s.stopPromise = some (kind, some command.incarnation)
  /-- A process that finalizes has rejected its requests. -/
  rejected : ∀ t, s.proc = some t → s.finalizing = true → s.commands = []
  distinct : (s.commands.map (·.id)).Nodup
  fresh : ∀ command ∈ s.commands, command.id < s.nextCommand
  past : ∀ t, s.transition = some t → t ≤ s.processToken
  /-- A transition holds back every other admission. -/
  tail : ∀ t, s.transition = some t → s.commands = [] ∧ s.waiting = none
  waiting : ∀ waiting, s.waiting = some waiting → s.operational.inFlight < maxPendingCommands
  compaction : s.operational.idleBaseCompactionBusy = true →
    ∃ t, s.idleBaseCompactionPromise = some t ∧ s.proc = some t
  transitioning : s.transitioning = true → ∃ t, s.transition = some t ∧ s.proc = some t
  turns : s.Turns

variable {maxPendingCommands : ℕ} {s s' s'' : SessionOperations}

theorem Frame.refl (s : SessionOperations) : s.Frame s :=
  ⟨rfl, rfl, rfl, rfl, rfl, rfl, rfl, rfl, rfl, rfl, id⟩

theorem Frame.trans (h : s.Frame s') (h' : s'.Frame s'') : s.Frame s'' where
  processToken := h'.processToken.trans h.processToken
  proc := h'.proc.trans h.proc
  finalizing := h'.finalizing.trans h.finalizing
  stopPromise := h'.stopPromise.trans h.stopPromise
  transition := h'.transition.trans h.transition
  waiting := h'.waiting.trans h.waiting
  compaction := h'.compaction.trans h.compaction
  nextCommand := h'.nextCommand.trans h.nextCommand
  transitioning := h'.transitioning.trans h.transitioning
  busy := h'.busy.trans h.busy
  turns hturns := h'.turns (h.turns hturns)

theorem KeepsFlight.refl (s : SessionOperations) : s.KeepsFlight s := ⟨.refl s, rfl, rfl⟩

theorem KeepsFlight.trans (h : s.KeepsFlight s') (h' : s'.KeepsFlight s'') :
    s.KeepsFlight s'' :=
  ⟨h.toFrame.trans h'.toFrame, h'.commands.trans h.commands, h'.inFlight.trans h.inFlight⟩

theorem Counted.keeps (h : Counted maxPendingCommands s) (hk : s.KeepsFlight s') :
    Counted maxPendingCommands s' where
  flight t ht := by
    rw [hk.inFlight, hk.commands, hk.transition]
    exact h.flight t (hk.proc ▸ ht)
  idle hnone := by
    rw [hk.inFlight]
    exact h.idle (hk.proc ▸ hnone)
  bounded := hk.inFlight ▸ h.bounded
  current t ht := hk.processToken ▸ h.current t (hk.proc ▸ ht)
  stopped stop hstop := hk.proc ▸ h.stopped stop (hk.stopPromise ▸ hstop)
  incarnations command hmem := by
    rw [hk.proc, hk.stopPromise]
    exact h.incarnations command (hk.commands ▸ hmem)
  rejected t ht hfinalizing := by
    rw [hk.commands]
    exact h.rejected t (hk.proc ▸ ht) (hk.finalizing ▸ hfinalizing)
  distinct := hk.commands ▸ h.distinct
  fresh command hmem := by
    rw [hk.nextCommand]
    exact h.fresh command (hk.commands ▸ hmem)
  past t ht := hk.processToken ▸ h.past t (hk.transition ▸ ht)
  tail t ht := by
    rw [hk.commands, hk.waiting]
    exact h.tail t (hk.transition ▸ ht)
  waiting waiting hwaiting := by
    rw [hk.inFlight]
    exact h.waiting waiting (hk.waiting ▸ hwaiting)
  compaction hbusy := by
    rw [hk.compaction, hk.proc]
    exact h.compaction (hk.busy ▸ hbusy)
  transitioning htrue := by
    rw [hk.transition, hk.proc]
    exact h.transitioning (hk.transitioning ▸ htrue)
  turns := hk.turns h.turns

/-! ## Turn reservations -/

theorem Turns.removeTurns (h : s.Turns) (remove : ℕ → Bool) : (s.removeTurns remove).Turns := by
  unfold Turns SessionOperations.removeTurns
  dsimp only
  rw [List.append_assoc]
  exact ((List.filter_append_perm remove _).append_left _).trans h

theorem keepsFlight_removeTurns (s : SessionOperations) (remove : ℕ → Bool) :
    s.KeepsFlight (s.removeTurns remove) :=
  ⟨⟨rfl, rfl, rfl, rfl, rfl, rfl, rfl, rfl, rfl, rfl, fun h => h.removeTurns remove⟩, rfl, rfl⟩

theorem keepsFlight_refresh (s : SessionOperations) : s.KeepsFlight s.refresh := by
  unfold refresh
  split
  · exact ⟨⟨rfl, rfl, rfl, rfl, rfl, rfl, rfl, rfl, rfl, rfl, id⟩, rfl, rfl⟩
  · exact .refl s

theorem keepsFlight_consumePendingTurn (s : SessionOperations) :
    s.KeepsFlight s.consumePendingTurn := by
  unfold consumePendingTurn
  split
  · exact .refl s
  · exact keepsFlight_removeTurns s _

theorem keepsFlight_closeDialog (s : SessionOperations) (dialog : ℕ) :
    s.KeepsFlight (s.closeDialog dialog) := by
  refine KeepsFlight.trans ?_ (keepsFlight_refresh _)
  exact ⟨⟨rfl, rfl, rfl, rfl, rfl, rfl, rfl, rfl, rfl, rfl, id⟩, rfl, rfl⟩

theorem keepsFlight_operational (s : SessionOperations) {operational : OperationalState}
    {state : SessionLiveRuntimePhase}
    (hpending : operational.pendingTurnReservations = s.operational.pendingTurnReservations)
    (hnext : operational.nextTurnReservationId = s.operational.nextTurnReservationId)
    (hbusy : operational.idleBaseCompactionBusy = s.operational.idleBaseCompactionBusy)
    (hflight : operational.inFlight = s.operational.inFlight) :
    s.KeepsFlight { s with operational := operational, state := state } := by
  refine ⟨⟨rfl, rfl, rfl, rfl, rfl, rfl, rfl, rfl, rfl, hbusy, ?_⟩, rfl, hflight⟩
  intro hturns
  unfold Turns at hturns ⊢
  dsimp only
  rw [hpending, hnext]
  exact hturns

theorem keepsFlight_refreshed (s : SessionOperations) {operational : OperationalState}
    (hpending : operational.pendingTurnReservations = s.operational.pendingTurnReservations)
    (hnext : operational.nextTurnReservationId = s.operational.nextTurnReservationId)
    (hbusy : operational.idleBaseCompactionBusy = s.operational.idleBaseCompactionBusy)
    (hflight : operational.inFlight = s.operational.inFlight) :
    s.KeepsFlight { s with operational := operational }.refresh :=
  (keepsFlight_operational s hpending hnext hbusy hflight).trans (keepsFlight_refresh _)

theorem keepsFlight_settleQueue (s : SessionOperations) : s.KeepsFlight s.settleQueue := by
  refine (keepsFlight_removeTurns s
    (· ≤ s.operational.queueReservationReleaseCutoff)).trans ?_
  exact keepsFlight_refreshed _ rfl rfl rfl rfl

theorem keepsFlight_applyEventState (s : SessionOperations) (work : PiWork) :
    s.KeepsFlight (s.applyEventState work) := by
  cases work with
  | queueUpdate activeQueueDepth =>
    have hchanged : s.KeepsFlight
        { s with operational := SessionRuntimeCore.queueChanged s.operational activeQueueDepth } :=
      keepsFlight_operational s rfl rfl rfl rfl
    unfold applyEventState
    dsimp only
    split
    · exact hchanged.trans (keepsFlight_settleQueue _)
    · exact hchanged
  | compactionStart => exact keepsFlight_operational s rfl rfl rfl rfl
  | compactionEnd willRetry =>
    exact keepsFlight_refreshed s rfl rfl rfl rfl
  | startsWork =>
    unfold applyEventState
    dsimp only
    split
    · exact keepsFlight_operational s rfl rfl rfl rfl
    · exact (keepsFlight_consumePendingTurn s).trans
        (keepsFlight_operational _ rfl rfl rfl rfl)
  | settlesWork =>
    have hsettled : s.KeepsFlight
        { s with
          operational :=
            { s.operational with agentBusy := false, activeTurnHeadroomReserved := false } } :=
      keepsFlight_operational s rfl rfl rfl rfl
    unfold applyEventState
    dsimp only
    split
    · exact hsettled.trans (keepsFlight_settleQueue _)
    · exact hsettled.trans (keepsFlight_refresh _)

/-! ## Settled commands -/

theorem finishCommand_spec (s : SessionOperations) (command : AdmittedCommand) (success : Bool) :
    s.Frame (s.finishCommand command success) ∧
      (s.finishCommand command success).commands =
        s.commands.filter (fun other => other.id ≠ command.id) ∧
      (s.finishCommand command success).operational.inFlight = s.operational.inFlight - 1 := by
  obtain ⟨id, incarnation, turnReservation, turnReleaseCutoff⟩ := command
  have hleave : ∀ s : SessionOperations, s.Frame s.leaveFlight.refresh ∧
      s.leaveFlight.refresh.commands = s.commands ∧
      s.leaveFlight.refresh.operational.inFlight = s.operational.inFlight - 1 := by
    intro s
    have hrefresh := keepsFlight_refresh s.leaveFlight
    have hflight : s.Frame s.leaveFlight :=
      ⟨rfl, rfl, rfl, rfl, rfl, rfl, rfl, rfl, rfl, rfl, fun h => h⟩
    exact ⟨hflight.trans hrefresh.toFrame, hrefresh.commands, hrefresh.inFlight⟩
  have hlist : s.Frame { s with commands := s.commands.filter fun other => other.id ≠ id } :=
    ⟨rfl, rfl, rfl, rfl, rfl, rfl, rfl, rfl, rfl, rfl, fun h => h⟩
  have hreleased : ∀ (s : SessionOperations) (remove : ℕ → Bool),
      s.KeepsFlight (s.removeTurns remove).refresh := fun s remove =>
    (keepsFlight_removeTurns s remove).trans (keepsFlight_refresh _)
  have hreservation : ∀ s : SessionOperations, s.KeepsFlight
      (turnReservation.elim s fun reservation =>
        if success then s else (s.removeTurns (· = reservation)).refresh) := by
    intro s
    cases turnReservation with
    | none => exact .refl s
    | some reservation =>
      cases success
      · exact hreleased s _
      · exact .refl s
  have hcutoff : ∀ s : SessionOperations, s.KeepsFlight
      (turnReleaseCutoff.elim s fun cutoff =>
        if success then (s.removeTurns (· ≤ cutoff)).refresh else s) := by
    intro s
    cases turnReleaseCutoff with
    | none => exact .refl s
    | some cutoff =>
      cases success
      · exact .refl s
      · exact hreleased s _
  have hkeeps := (hreservation { s with
    commands := s.commands.filter fun other => other.id ≠ id }).trans (hcutoff _)
  unfold finishCommand
  cases turnReservation <;> cases turnReleaseCutoff <;>
    exact ⟨(hlist.trans hkeeps.toFrame).trans (hleave _).1, (hleave _).2.1.trans hkeeps.commands,
      (hleave _).2.2.trans (congrArg (· - 1) hkeeps.inFlight)⟩

theorem foldl_finishCommand (commands : List AdmittedCommand) (s : SessionOperations) :
    s.Frame (commands.foldl (fun s command => s.finishCommand command false) s) ∧
      (commands.foldl (fun s command => s.finishCommand command false) s).commands =
        s.commands.filter (fun other => decide (∀ command ∈ commands, other.id ≠ command.id)) ∧
      (commands.foldl (fun s command => s.finishCommand command false) s).operational.inFlight =
        s.operational.inFlight - commands.length := by
  induction commands generalizing s with
  | nil =>
    refine ⟨.refl s, ?_, rfl⟩
    simp
  | cons command rest ih =>
    obtain ⟨hframe, hcommands, hflight⟩ := finishCommand_spec s command false
    obtain ⟨hrest, hrestCommands, hrestFlight⟩ := ih (s.finishCommand command false)
    rw [List.foldl_cons]
    refine ⟨hframe.trans hrest, ?_, ?_⟩
    · rw [hrestCommands, hcommands, List.filter_filter]
      apply List.filter_congr
      intro other _
      rw [Bool.eq_iff_iff, Bool.and_eq_true, decide_eq_true_eq, decide_eq_true_eq,
        decide_eq_true_eq, List.forall_mem_cons, and_comm]
    · rw [hrestFlight, hflight, List.length_cons]
      omega

theorem rejectAll_spec {incarnation : ℕ}
    (h : ∀ command ∈ s.commands, command.incarnation = incarnation) :
    s.Frame (s.rejectAll incarnation) ∧ (s.rejectAll incarnation).commands = [] ∧
      (s.rejectAll incarnation).operational.inFlight =
        s.operational.inFlight - s.commands.length := by
  have hall : s.commands.filter (fun command => command.incarnation = incarnation) =
      s.commands := by
    rw [List.filter_eq_self]
    intro command hmem
    exact decide_eq_true (h command hmem)
  obtain ⟨hframe, hcommands, hflight⟩ := foldl_finishCommand s.commands s
  unfold rejectAll
  rw [hall]
  refine ⟨hframe, ?_, hflight⟩
  rw [hcommands, List.filter_eq_nil_iff]
  intro command hmem hnone
  exact (of_decide_eq_true hnone) command hmem rfl

theorem length_filter_ne_id {commands : List AdmittedCommand} {command : AdmittedCommand}
    (hdistinct : (commands.map (·.id)).Nodup) (hmem : command ∈ commands) :
    (commands.filter fun other => other.id ≠ command.id).length + 1 = commands.length := by
  have hone : commands.countP (fun other => other.id = command.id) = 1 := by
    have hcount := List.count_eq_one_of_mem hdistinct (List.mem_map_of_mem hmem)
    rw [List.count, List.countP_map] at hcount
    rw [← hcount]
    apply List.countP_congr
    intro other _
    simp
  have hlength := List.length_eq_countP_add_countP (l := commands)
    (fun other : AdmittedCommand => decide (other.id = command.id))
  have hrest : commands.countP (fun other => ¬ decide (other.id = command.id) = true) =
      (commands.filter fun other => other.id ≠ command.id).length := by
    rw [List.countP_eq_length_filter]
    congr 1
    apply List.filter_congr
    intro other _
    simp
  omega

theorem Counted.finishCommand (h : Counted maxPendingCommands s) {command : AdmittedCommand}
    (hmem : command ∈ s.commands) (success : Bool) :
    Counted maxPendingCommands (s.finishCommand command success) := by
  obtain ⟨hframe, hcommands, hflight⟩ := finishCommand_spec s command success
  have hlength := length_filter_ne_id h.distinct hmem
  have hsub : ∀ other ∈ (s.finishCommand command success).commands, other ∈ s.commands := by
    intro other hother
    rw [hcommands] at hother
    exact List.mem_of_mem_filter hother
  refine ⟨?_, ?_, ?_, ?_, ?_, ?_, ?_, ?_, ?_, ?_, ?_, ?_, ?_, ?_, hframe.turns h.turns⟩
  · intro t ht
    have := h.flight t (hframe.proc ▸ ht)
    rw [hflight, hcommands, hframe.transition]
    omega
  · intro hnone
    have := h.idle (hframe.proc ▸ hnone)
    rw [hflight]
    omega
  · have := h.bounded
    rw [hflight]
    omega
  · intro t ht
    rw [hframe.processToken]
    exact h.current t (hframe.proc ▸ ht)
  · intro stop hstop
    rw [hframe.proc]
    exact h.stopped stop (hframe.stopPromise ▸ hstop)
  · intro other hother
    rw [hframe.proc, hframe.stopPromise]
    exact h.incarnations other (hsub other hother)
  · intro t ht hfinalizing
    have hnone := h.rejected t (hframe.proc ▸ ht) (hframe.finalizing ▸ hfinalizing)
    rw [hcommands, hnone]
    rfl
  · rw [hcommands]
    exact h.distinct.sublist (List.filter_sublist.map _)
  · intro other hother
    rw [hframe.nextCommand]
    exact h.fresh other (hsub other hother)
  · intro t ht
    rw [hframe.processToken]
    exact h.past t (hframe.transition ▸ ht)
  · intro t ht
    obtain ⟨hnone, _⟩ := h.tail t (hframe.transition ▸ ht)
    rw [hnone] at hmem
    cases hmem
  · intro waiting hwaiting
    have := h.waiting waiting (hframe.waiting ▸ hwaiting)
    rw [hflight]
    omega
  · intro hbusy
    rw [hframe.compaction, hframe.proc]
    exact h.compaction (hframe.busy ▸ hbusy)
  · intro htrue
    rw [hframe.transition, hframe.proc]
    exact h.transitioning (hframe.transitioning ▸ htrue)

/-! ## The end of an incarnation -/

theorem Counted.commands_eq_nil (h : Counted maxPendingCommands s) (hnone : s.proc = none)
    (hstop : ∀ kind t, s.stopPromise ≠ some (kind, some t)) : s.commands = [] := by
  rw [List.eq_nil_iff_forall_not_mem]
  intro command hmem
  rcases h.incarnations command hmem with hproc | ⟨kind, hkind⟩
  · rw [hnone] at hproc
    cases hproc
  · exact hstop kind _ hkind

theorem Counted.incarnation_eq (h : Counted maxPendingCommands s) {t : ℕ} (ht : s.proc = some t)
    {command : AdmittedCommand} (hmem : command ∈ s.commands) : command.incarnation = t := by
  rcases h.incarnations command hmem with hproc | ⟨kind, hkind⟩
  · exact Option.some.inj (hproc.symm.trans ht)
  · have := h.stopped _ hkind
    rw [ht] at this
    cases this

theorem Counted.ended (h : Counted maxPendingCommands s) {processToken : ℕ}
    {stopPromise : Option (PendingStop × Option ℕ)} {startupReady : Bool}
    {state : SessionLiveRuntimePhase} (htoken : s.processToken ≤ processToken)
    (hstop : ∀ command ∈ s.commands, ∃ kind,
      stopPromise = some (kind, some command.incarnation)) :
    Counted maxPendingCommands (clearOwnedOperationalState
      { s with
        processToken := processToken, proc := none, stopPromise := stopPromise
        startupReady := startupReady, state := state }) := by
  refine ⟨?_, fun _ => rfl, Nat.zero_le _, ?_, fun _ _ => rfl, ?_, ?_, h.distinct, h.fresh, ?_,
    h.tail, ?_, ?_, ?_, ?_⟩
  · intro t ht
    cases ht
  · intro t ht
    cases ht
  · intro command hmem
    exact Or.inr (hstop command hmem)
  · intro t ht
    cases ht
  · intro t ht
    exact (h.past t ht).trans htoken
  · intro waiting hwaiting
    exact Nat.lt_of_le_of_lt (Nat.zero_le _) (h.waiting waiting hwaiting)
  · intro hbusy
    cases hbusy
  · intro htrue
    cases htrue
  · exact h.turns.removeTurns (s := s) fun _ => true

theorem Counted.stop (h : Counted maxPendingCommands s) : Counted maxPendingCommands s.stop := by
  unfold SessionOperations.stop
  split
  · exact h
  · rename_i hpending
    rw [Bool.not_eq_true, Option.isSome_eq_false_iff, Option.isNone_iff_eq_none] at hpending
    refine h.ended (Nat.le_succ _) ?_
    intro command hmem
    rcases h.incarnations command hmem with hproc | ⟨kind, hkind⟩
    · exact ⟨.stop, by rw [hproc]⟩
    · rw [hpending] at hkind
      cases hkind

theorem Counted.terminalize (h : Counted maxPendingCommands s) (cleanup : Bool) :
    Counted maxPendingCommands (s.terminalize cleanup) := by
  refine h.ended (Nat.le_succ _) ?_
  intro command hmem
  rcases h.incarnations command hmem with hproc | ⟨kind, hkind⟩
  · have hnone : s.stopPromise = none := by
      by_contra hsome
      obtain ⟨stop, hstop⟩ := Option.ne_none_iff_exists'.mp hsome
      have := h.stopped stop hstop
      rw [hproc] at this
      cases this
    exact ⟨.cleanup, by simp [hproc, hnone]⟩
  · exact ⟨kind, by simp [hkind]⟩

theorem Counted.handleFailure (h : Counted maxPendingCommands s) (hnone : s.commands = [])
    (cleanup : Bool) : Counted maxPendingCommands (s.handleFailure cleanup) := by
  refine h.ended (Nat.le_refl _) ?_
  intro command hmem
  rw [hnone] at hmem
  cases hmem

/-- An overflow of the projection ends the incarnation, or is kept for the failure of its start. -/
theorem Counted.overflowProjection (h : Counted maxPendingCommands s) (cleanup : Bool) :
    Counted maxPendingCommands (s.overflowProjection cleanup) := by
  have hkeeps : s.KeepsFlight { s with snapshotOverflow := true } :=
    ⟨⟨rfl, rfl, rfl, rfl, rfl, rfl, rfl, rfl, rfl, rfl, id⟩, rfl, rfl⟩
  unfold SessionOperations.overflowProjection
  split
  · split
    · exact h
    · exact (h.keeps hkeeps).terminalize cleanup
  · exact h.keeps hkeeps

theorem Counted.endStop (h : Counted maxPendingCommands s) (failed : Bool) :
    Counted maxPendingCommands (s.endStop failed) := by
  unfold SessionOperations.endStop
  cases hstop : s.stopPromise with
  | none => exact h
  | some stop =>
    obtain ⟨kind, stopped⟩ := stop
    have hnone := h.stopped _ hstop
    obtain ⟨rejected, hrejected, hframe, hcommands, hflight⟩ : ∃ rejected,
        stopped.elim s s.rejectAll = rejected ∧ s.Frame rejected ∧ rejected.commands = [] ∧
          rejected.operational.inFlight = 0 := by
      have hidle := h.idle hnone
      cases stopped with
      | none =>
        refine ⟨s, rfl, .refl s, h.commands_eq_nil hnone ?_, hidle⟩
        intro kind t heq
        rw [hstop] at heq
        cases heq
      | some t =>
        have hall : ∀ command ∈ s.commands, command.incarnation = t := by
          intro command hmem
          rcases h.incarnations command hmem with hproc | ⟨kind, hkind⟩
          · rw [hnone] at hproc
            cases hproc
          · rw [hstop] at hkind
            cases hkind
            rfl
        obtain ⟨hframe, hcommands, hflight⟩ := rejectAll_spec hall
        rw [hidle, Nat.zero_sub] at hflight
        exact ⟨_, rfl, hframe, hcommands, hflight⟩
    dsimp only
    rw [hrejected]
    have hproc : rejected.proc = none := hframe.proc.trans hnone
    refine ⟨?_, fun _ => hflight, ?_, ?_, ?_, ?_, ?_, ?_, ?_, ?_, ?_, ?_, ?_, ?_,
      hframe.turns h.turns⟩
    · intro t ht
      rw [hproc] at ht
      cases ht
    · change rejected.operational.inFlight ≤ _
      rw [hflight]
      exact Nat.zero_le _
    · intro t ht
      rw [hproc] at ht
      cases ht
    · intro stop hsome
      cases hsome
    · intro command hmem
      rw [hcommands] at hmem
      cases hmem
    · intro t ht
      rw [hproc] at ht
      cases ht
    · change (rejected.commands.map _).Nodup
      rw [hcommands]
      exact List.nodup_nil
    · intro command hmem
      rw [hcommands] at hmem
      cases hmem
    · intro t ht
      change t ≤ rejected.processToken
      rw [hframe.processToken]
      exact h.past t (hframe.transition ▸ ht)
    · intro t ht
      refine ⟨hcommands, ?_⟩
      change rejected.waiting = none
      rw [hframe.waiting]
      exact (h.tail t (hframe.transition ▸ ht)).2
    · intro waiting hwaiting
      change rejected.operational.inFlight < _
      rw [hflight]
      exact Nat.lt_of_le_of_lt (Nat.zero_le _) (h.waiting waiting (hframe.waiting ▸ hwaiting))
    · intro hbusy
      obtain ⟨t, _, ht⟩ := h.compaction (hframe.busy ▸ hbusy)
      rw [hnone] at ht
      cases ht
    · intro htrue
      obtain ⟨t, _, ht⟩ := h.transitioning (hframe.transitioning ▸ htrue)
      rw [hnone] at ht
      cases ht

/-- The process rejects its requests, be it that its leader has exited, that it finalizes, or that
its start has failed. -/
theorem Counted.rejectAll (h : Counted maxPendingCommands s) {t : ℕ} (ht : s.proc = some t)
    (leaderRunning finalizing : Bool) :
    let ended := { s with leaderRunning := leaderRunning, finalizing := finalizing }
    Counted maxPendingCommands (ended.rejectAll t) ∧ (ended.rejectAll t).commands = [] := by
  intro ended
  have hall : ∀ command ∈ ended.commands, command.incarnation = t :=
    fun command hmem => h.incarnation_eq ht hmem
  obtain ⟨hframe, hcommands, hflight⟩ := rejectAll_spec hall
  have hcount := h.flight t ht
  have hbounded := h.bounded
  have hproc : (ended.rejectAll t).proc = some t := hframe.proc.trans ht
  refine ⟨⟨?_, ?_, ?_, ?_, ?_, ?_, fun _ _ _ => hcommands, ?_, ?_, ?_, ?_, ?_, ?_, ?_,
    hframe.turns h.turns⟩, hcommands⟩
  · intro t' ht'
    obtain rfl : t = t' := Option.some.inj (hproc.symm.trans ht')
    have hsub : (ended.rejectAll t).operational.inFlight =
        s.operational.inFlight - s.commands.length := hflight
    have htransition : (ended.rejectAll t).transition = s.transition := hframe.transition
    rw [hsub, hcommands, htransition, hcount, List.length_nil, Nat.zero_add,
      Nat.add_sub_cancel_left]
  · intro hnone
    rw [hproc] at hnone
    cases hnone
  · rw [hflight]
    exact (Nat.sub_le _ _).trans hbounded
  · intro t' ht'
    rw [hframe.processToken]
    exact h.current t' (hframe.proc ▸ ht')
  · intro stop hstop
    have := h.stopped stop (hframe.stopPromise ▸ hstop)
    rw [ht] at this
    cases this
  · intro command hmem
    rw [hcommands] at hmem
    cases hmem
  · rw [hcommands]
    exact List.nodup_nil
  · intro command hmem
    rw [hcommands] at hmem
    cases hmem
  · intro t' ht'
    rw [hframe.processToken]
    exact h.past t' (hframe.transition ▸ ht')
  · intro t' ht'
    refine ⟨hcommands, ?_⟩
    rw [hframe.waiting]
    exact (h.tail t' (hframe.transition ▸ ht')).2
  · intro waiting hwaiting
    rw [hflight]
    exact Nat.lt_of_le_of_lt (Nat.sub_le _ _) (h.waiting waiting (hframe.waiting ▸ hwaiting))
  · intro hbusy
    rw [hframe.compaction, hframe.proc]
    exact h.compaction (hframe.busy ▸ hbusy)
  · intro htrue
    rw [hframe.transition, hframe.proc]
    exact h.transitioning (hframe.transitioning ▸ htrue)

/-! ## The begin of an incarnation, of a command and of a transition -/

theorem Counted.spawn (h : Counted maxPendingCommands s) :
    Counted maxPendingCommands s.spawn := by
  unfold SessionOperations.spawn
  split
  · exact h
  · rename_i hfree
    simp only [Bool.or_eq_true, not_or, Bool.not_eq_true, Option.isSome_eq_false_iff,
      Option.isNone_iff_eq_none] at hfree
    obtain ⟨⟨-, hstop⟩, hnone⟩ := hfree
    have hcommands : s.commands = [] := h.commands_eq_nil hnone (by simp [hstop])
    have hidle := h.idle hnone
    refine ⟨?_, ?_, h.bounded, ?_, ?_, ?_, fun _ _ _ => hcommands, h.distinct, h.fresh, ?_, h.tail,
      h.waiting, ?_, ?_, h.turns⟩
    · intro t ht
      obtain rfl : s.processToken + 1 = t := Option.some.inj ht
      have hpast : s.transition ≠ some (s.processToken + 1) := by
        intro heq
        have := h.past _ heq
        omega
      change s.operational.inFlight = s.commands.length + _
      rw [hidle, hcommands, if_neg hpast]
      rfl
    · intro hsome
      cases hsome
    · intro t ht
      exact (Option.some.inj ht).symm
    · intro stop hpending
      change s.stopPromise = some stop at hpending
      rw [hstop] at hpending
      cases hpending
    · intro command hmem
      change command ∈ s.commands at hmem
      rw [hcommands] at hmem
      cases hmem
    · intro t ht
      exact (h.past t ht).trans (Nat.le_succ _)
    · intro hbusy
      obtain ⟨t, _, ht⟩ := h.compaction hbusy
      rw [hnone] at ht
      cases ht
    · intro htrue
      obtain ⟨t, _, ht⟩ := h.transitioning htrue
      rw [hnone] at ht
      cases ht

theorem keepsFlight_reservePendingTurn (s : SessionOperations) :
    s.KeepsFlight
      { s with operational := SessionRuntimeCore.reservePendingTurn s.operational } := by
  refine ⟨⟨rfl, rfl, rfl, rfl, rfl, rfl, rfl, rfl, rfl, rfl, ?_⟩, rfl, rfl⟩
  intro hturns
  unfold Turns SessionRuntimeCore.reservePendingTurn at *
  dsimp only
  rw [← List.append_assoc, List.range'_1_concat, Nat.add_comm 1]
  exact hturns.append_right _

/-- A command that is rejected as soon as it is admitted leaves no trace in the counters. -/
theorem Counted.admitRejected (h : Counted maxPendingCommands s) (hnil : s.commands = [])
    (command : AdmittedCommand) (intent : Bool) (state : SessionLiveRuntimePhase) :
    let admitted : SessionOperations :=
      { s with
        operational := { s.operational with inFlight := s.operational.inFlight + 1 }
        hasConversationIntent := intent
        state := state
        commands := [] ++ [command]
        nextCommand := s.nextCommand + 1 }
    Counted maxPendingCommands (admitted.finishCommand command false) := by
  intro admitted
  have hbase : Counted maxPendingCommands
      { s with
        hasConversationIntent := intent
        state := state
        nextCommand := s.nextCommand + 1 } :=
    { h with fresh := fun other hother => Nat.lt_succ_of_lt (h.fresh other hother) }
  obtain ⟨hframe, hcommands, hflight⟩ := finishCommand_spec admitted command false
  refine hbase.keeps ⟨(show Frame _ admitted from ?_).trans hframe, ?_, ?_⟩
  · exact ⟨rfl, rfl, rfl, rfl, rfl, rfl, rfl, rfl, rfl, rfl, fun h => h⟩
  · rw [hcommands]
    change _ = s.commands
    rw [hnil]
    simp [admitted]
  · rw [hflight]
    exact Nat.add_sub_cancel _ 1

theorem Counted.admitCommand (h : Counted maxPendingCommands s) (expectsWork : Bool)
    (turnReleaseCutoff : Option ℕ) (carriesConversation : Bool)
    (hmax : s.operational.inFlight < maxPendingCommands) (htransition : s.transition = none)
    (hwaiting : s.waiting = none) :
    Counted maxPendingCommands
      (s.admitCommand expectsWork turnReleaseCutoff carriesConversation) := by
  obtain ⟨reserved, hreserved, hkeeps⟩ : ∃ reserved,
      (if expectsWork then
        { s with operational := SessionRuntimeCore.reservePendingTurn s.operational }
      else s) = reserved ∧ s.KeepsFlight reserved := by
    cases expectsWork
    · exact ⟨s, rfl, .refl s⟩
    · exact ⟨_, rfl, keepsFlight_reservePendingTurn s⟩
  unfold SessionOperations.admitCommand
  dsimp only
  rw [hreserved]
  cases hproc : s.proc.filter fun _ => s.procRunning with
  | none =>
    dsimp only
    split
    · exact h.keeps (hkeeps.trans (keepsFlight_removeTurns _ _))
    · exact h.keeps hkeeps
  | some t =>
    have ht := (Option.filter_eq_some_iff.mp hproc).1
    have hr := h.keeps hkeeps
    have hcount := h.flight t ht
    dsimp only
    by_cases hfinalizing : s.finalizing = true
    · have hnil := h.rejected t ht hfinalizing
      rw [if_pos hfinalizing, hnil, ← hkeeps.nextCommand]
      exact hr.admitRejected (hkeeps.commands.trans hnil) _ _ _
    rw [if_neg hfinalizing]
    refine ⟨?_, ?_, ?_, hr.current, hr.stopped, ?_, ?_, ?_, ?_, hr.past, ?_, ?_, hr.compaction,
      hr.transitioning, hr.turns⟩
    · intro t' ht'
      change reserved.operational.inFlight + 1 = (s.commands ++ [_]).length +
        (if reserved.transition = some t' then 1 else 0)
      rw [hkeeps.transition, htransition, hkeeps.inFlight, hcount, htransition,
        List.length_append, List.length_singleton]
      simp
    · intro hnone
      change reserved.proc = none at hnone
      rw [hkeeps.proc, ht] at hnone
      cases hnone
    · change reserved.operational.inFlight + 1 ≤ maxPendingCommands
      rw [hkeeps.inFlight]
      exact hmax
    · intro command hmem
      rcases List.mem_append.mp hmem with hold | hnew
      · change reserved.proc = _ ∨ ∃ kind, reserved.stopPromise = _
        rw [hkeeps.proc, hkeeps.stopPromise]
        exact h.incarnations command hold
      · rw [List.mem_singleton.mp hnew]
        exact Or.inl (hkeeps.proc.trans ht)
    · intro t' ht' hended
      exact absurd (hkeeps.finalizing.symm.trans hended) hfinalizing
    · change ((s.commands ++ [_]).map _).Nodup
      rw [List.map_append, List.nodup_append]
      refine ⟨h.distinct, by simp, ?_⟩
      intro id hid id' hid'
      obtain ⟨command, hmem, rfl⟩ := List.mem_map.mp hid
      have := h.fresh command hmem
      simp only [List.map_cons, List.map_nil, List.mem_singleton] at hid'
      omega
    · intro command hmem
      change command.id < s.nextCommand + 1
      rcases List.mem_append.mp hmem with hold | hnew
      · have := h.fresh command hold
        omega
      · rw [List.mem_singleton.mp hnew]
        exact Nat.lt_succ_self _
    · intro t' ht'
      change reserved.transition = some t' at ht'
      rw [hkeeps.transition, htransition] at ht'
      cases ht'
    · intro waiting hsome
      change reserved.waiting = some waiting at hsome
      rw [hkeeps.waiting, hwaiting] at hsome
      cases hsome

theorem of_identityTransitionBlocker_eq_none (h : s.identityTransitionBlocker = none) :
    s.operational.agentBusy = false ∧ s.operational.compactionBusy = false ∧
      s.operational.idleBaseCompactionBusy = false ∧ s.operational.activeQueueDepth = 0 ∧
      s.operational.inFlight = 0 ∧ s.pendingDialogs = [] ∧
      s.operational.pendingTurnReservations = [] ∧ s.transitioning = false := by
  unfold identityTransitionBlocker at h
  split_ifs at h with h1 h2 h3 h4 h5 h6 h7 h8 h9
  rw [Bool.or_eq_true, not_or] at h4
  rw [Bool.not_eq_true] at h3 h9
  rw [Bool.not_eq_true, Bool.not_eq_true] at h4
  rw [Bool.not_eq_true, Bool.not_eq_false', List.isEmpty_iff] at h7 h8
  exact ⟨h3, h4.1, h4.2, Nat.eq_zero_of_not_pos h5, Nat.eq_zero_of_not_pos h6, h7, h8, h9⟩

theorem Counted.setWaiting (h : Counted maxPendingCommands s) (waiting : Option WaitingAdmission)
    (htransition : ∀ t, s.transition = some t → waiting = none)
    (hmax : ∀ w, waiting = some w → s.operational.inFlight < maxPendingCommands) :
    Counted maxPendingCommands { s with waiting := waiting } :=
  { h with
    tail := fun t ht => ⟨(h.tail t ht).1, htransition t ht⟩
    waiting := hmax }

theorem Counted.beginTransition (h : Counted maxPendingCommands s) {t : ℕ}
    (ht : s.proc = some t) (hblocker : s.identityTransitionBlocker = none)
    (hmax : s.operational.inFlight < maxPendingCommands) (htransition : s.transition = none)
    (hwaiting : s.waiting = none) :
    Counted maxPendingCommands
      { s with
        transitioning := true
        transition := some t
        operational := { s.operational with inFlight := s.operational.inFlight + 1 } } := by
  obtain ⟨_, _, _, _, hflight, _, _, _⟩ := of_identityTransitionBlocker_eq_none hblocker
  have hcommands : s.commands = [] := by
    have := h.flight t ht
    rw [hflight, htransition] at this
    exact List.eq_nil_of_length_eq_zero (by omega)
  refine ⟨?_, ?_, hmax, h.current, h.stopped, h.incarnations, ?_, h.distinct, h.fresh, ?_, ?_, ?_,
    h.compaction, ?_, h.turns⟩
  · intro t' ht'
    obtain rfl : t = t' := Option.some.inj (ht.symm.trans ht')
    change s.operational.inFlight + 1 = s.commands.length + (if some t = some t then 1 else 0)
    rw [hflight, hcommands, if_pos rfl]
    rfl
  · intro hnone
    rw [show s.proc = none from hnone] at ht
    cases ht
  · intro t' _ _
    exact hcommands
  · intro t' ht'
    exact (h.current t' (ht.trans ht')).le
  · intro t' _
    exact ⟨hcommands, hwaiting⟩
  · intro waiting hsome
    rw [show s.waiting = some waiting from hsome] at hwaiting
    cases hwaiting
  · intro _
    exact ⟨t, rfl, ht⟩

theorem Counted.endTransition (h : Counted maxPendingCommands s) {t : ℕ}
    (htransition : s.transition = some t) :
    Counted maxPendingCommands
      { s.leaveFlight with transitioning := false, transition := none } := by
  obtain ⟨hcommands, hwaiting⟩ := h.tail t htransition
  refine ⟨?_, ?_, ?_, h.current, h.stopped, h.incarnations, h.rejected, h.distinct, h.fresh, ?_, ?_,
    ?_, h.compaction, ?_, h.turns⟩
  · intro t' ht'
    have hcount := h.flight t' ht'
    change s.operational.inFlight - 1 = s.commands.length + 0
    rw [hcommands] at hcount ⊢
    split at hcount <;> rw [hcount] <;> rfl
  · intro hnone
    change s.operational.inFlight - 1 = 0
    rw [h.idle hnone]
  · exact (Nat.sub_le _ _).trans h.bounded
  · intro t' ht'
    cases ht'
  · intro t' ht'
    cases ht'
  · intro waiting hsome
    rw [show s.waiting = some waiting from hsome] at hwaiting
    cases hwaiting
  · intro htrue
    cases htrue

theorem Counted.beginIdleBaseCompaction (h : Counted maxPendingCommands s) {t : ℕ}
    (ht : s.proc = some t) :
    Counted maxPendingCommands
      { s with
        idleBaseCompactionPromise := some t
        operational := { s.operational with idleBaseCompactionBusy := true } } :=
  { h with compaction := fun _ => ⟨t, rfl, ht⟩ }

theorem Counted.finishIdleBaseCompaction (h : Counted maxPendingCommands s) :
    Counted maxPendingCommands s.finishIdleBaseCompaction := by
  have hended : Counted maxPendingCommands
      { s with
        idleBaseCompactionPromise := none
        operational := { s.operational with idleBaseCompactionBusy := false } } :=
    { h with compaction := fun hbusy => Bool.noConfusion hbusy }
  exact hended.keeps (keepsFlight_refresh _)

theorem keepsFlight_adoptTransitionTarget (s : SessionOperations) :
    s.KeepsFlight s.adoptTransitionTarget := by
  unfold adoptTransitionTarget
  split
  · refine (keepsFlight_removeTurns s fun _ => true).trans ?_
    exact ⟨⟨rfl, rfl, rfl, rfl, rfl, rfl, rfl, rfl, rfl, rfl, fun h => h⟩, rfl, rfl⟩
  · exact .refl s

/-! ## Steps and runs -/

theorem counted_initial : Counted maxPendingCommands initial := by
  exact ⟨nofun, fun _ => rfl, Nat.zero_le _, nofun, nofun, nofun, nofun, List.nodup_nil, nofun,
    nofun, nofun, nofun, nofun, nofun, List.Perm.refl _⟩

theorem Counted.step (h : Counted maxPendingCommands s) (action : OperationalAction) :
    Counted maxPendingCommands (s.step maxPendingCommands action) := by
  cases action with
  | send expectedGeneration expectsWork releasesQueuedWork carriesConversation =>
    unfold SessionOperations.step
    dsimp only
    split
    · exact h
    · rename_i hadmitted
      simp only [Bool.or_eq_true, not_or, Bool.not_eq_true, Option.isSome_eq_false_iff,
        Option.isNone_iff_eq_none, decide_eq_false_iff_not, not_le, ge_iff_le] at hadmitted
      obtain ⟨⟨⟨htransition, hwaiting⟩, _⟩, hmax⟩ := hadmitted
      split
      · refine h.setWaiting _ ?_ fun _ _ => hmax
        intro t ht
        rw [htransition] at ht
        cases ht
      · exact h.admitCommand false _ carriesConversation hmax htransition hwaiting
  | resumeAdmission hasHeadroom =>
    unfold SessionOperations.step
    dsimp only
    cases hwaiting : s.waiting with
    | none => exact h
    | some waiting =>
      have hmax := h.waiting waiting hwaiting
      have htransition : s.transition = none := by
        by_contra hsome
        obtain ⟨t, ht⟩ := Option.ne_none_iff_exists'.mp hsome
        have := (h.tail t ht).2
        rw [hwaiting] at this
        cases this
      have hfree : Counted maxPendingCommands { s with waiting := none } :=
        h.setWaiting none (fun _ _ => rfl) (by rintro w ⟨⟩)
      dsimp only
      split
      · exact hfree.admitCommand true _ _ hmax htransition rfl
      · exact hfree
  | settle id success =>
    unfold SessionOperations.step
    dsimp only
    cases hfind : s.commands.find? (·.id = id) with
    | none => exact h
    | some command => exact h.finishCommand (List.mem_of_find?_eq_some hfind) success
  | beginTransition expectedGeneration =>
    unfold SessionOperations.step
    dsimp only
    split
    · exact h
    · rename_i hadmitted
      simp only [Bool.or_eq_true, not_or, Bool.not_eq_true, Option.isSome_eq_false_iff,
        Option.isNone_iff_eq_none, decide_eq_false_iff_not, not_le, ge_iff_le] at hadmitted
      obtain ⟨⟨⟨⟨⟨htransition, hwaiting⟩, _⟩, hmax⟩, hblocker⟩, _⟩ := hadmitted
      split
      · exact h
      · rename_i t hproc
        exact h.beginTransition hproc hblocker hmax htransition hwaiting
  | applyTransition => exact h.keeps (keepsFlight_adoptTransitionTarget s)
  | failTransition =>
    unfold SessionOperations.step
    dsimp only
    split
    · exact h.stop
    · exact h
  | endTransition =>
    unfold SessionOperations.step
    dsimp only
    split
    · rename_i hsome
      obtain ⟨t, ht⟩ := Option.isSome_iff_exists.mp hsome
      exact (h.endTransition ht).keeps (keepsFlight_refresh _)
    · exact h
  | piWork work =>
    unfold SessionOperations.step
    dsimp only
    split
    · exact h.keeps (keepsFlight_applyEventState s work)
    · exact h
  | openDialog dialog =>
    unfold SessionOperations.step
    dsimp only
    split
    · exact h.keeps ⟨⟨rfl, rfl, rfl, rfl, rfl, rfl, rfl, rfl, rfl, rfl, id⟩, rfl, rfl⟩
    · exact h
  | answerDialog dialog => exact h.keeps (keepsFlight_closeDialog s dialog)
  | expireDialog processToken dialog =>
    unfold SessionOperations.step
    dsimp only
    split
    · exact h.keeps (keepsFlight_closeDialog s dialog)
    · exact h
  | expireTurn timer =>
    unfold SessionOperations.step
    dsimp only
    split
    · exact h.keeps ((keepsFlight_removeTurns s _).trans (keepsFlight_refresh _))
    · exact h
  | beginIdleBaseCompaction =>
    unfold SessionOperations.step
    dsimp only
    split
    · exact h
    · rename_i t hproc
      exact h.beginIdleBaseCompaction (Option.filter_eq_some_iff.mp hproc).1
  | endIdleBaseCompaction overflow cleanup =>
    unfold SessionOperations.step
    dsimp only
    split
    · cases overflow
      · exact h.finishIdleBaseCompaction
      · exact (h.overflowProjection cleanup).finishIdleBaseCompaction
    · exact h
  | leaderExit =>
    unfold SessionOperations.step
    dsimp only
    split
    · exact h.keeps ⟨⟨rfl, rfl, rfl, rfl, rfl, rfl, rfl, rfl, rfl, rfl, id⟩, rfl, rfl⟩
    · exact h
  | beginFinalization =>
    unfold SessionOperations.step
    dsimp only
    split
    · exact h
    · rename_i t hproc
      exact (h.rejectAll (Option.filter_eq_some_iff.mp hproc).1 s.leaderRunning true).1
  | exitReported cleanup =>
    unfold SessionOperations.step
    dsimp only
    split
    · rename_i hended
      rw [Bool.and_eq_true] at hended
      obtain ⟨t, ht⟩ := Option.isSome_iff_exists.mp hended.1
      exact h.handleFailure (h.rejected t ht hended.2) cleanup
    · exact h
  | startFailed cleanup =>
    unfold SessionOperations.step
    dsimp only
    split
    · exact h
    · rename_i t hproc
      obtain ⟨hrejected, hnone⟩ :=
        h.rejectAll (Option.filter_eq_some_iff.mp hproc).1 false s.finalizing
      exact hrejected.handleFailure hnone cleanup
  | projectionOverflow cleanup =>
    unfold SessionOperations.step
    dsimp only
    split
    · exact h.overflowProjection cleanup
    · exact h
  | terminalize cleanup => exact h.terminalize cleanup
  | stop => exact h.stop
  | stopped failed => exact h.endStop failed
  | spawn => exact h.spawn
  | ready =>
    unfold SessionOperations.step
    dsimp only
    split
    · exact h.keeps ⟨⟨rfl, rfl, rfl, rfl, rfl, rfl, rfl, rfl, rfl, rfl, id⟩, rfl, rfl⟩
    · exact h
  | pin => exact h.keeps ⟨⟨rfl, rfl, rfl, rfl, rfl, rfl, rfl, rfl, rfl, rfl, id⟩, rfl, rfl⟩
  | unpin => exact h.keeps ⟨⟨rfl, rfl, rfl, rfl, rfl, rfl, rfl, rfl, rfl, rfl, id⟩, rfl, rfl⟩

theorem Counted.run (actions : List OperationalAction) :
    Counted maxPendingCommands
      (runFrom (SessionOperations.step maxPendingCommands) initial actions) :=
  runFrom_invariant (I := Counted maxPendingCommands) (fun _ action h => h.step action) actions
    counted_initial

end SessionOperations

end PiAgentWeb
