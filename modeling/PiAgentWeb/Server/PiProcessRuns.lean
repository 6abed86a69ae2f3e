import PiAgentWeb.Server.PiProcess

/-!
# Requests and their responses

The pending table and the table of public ids are inverse to each other after every step. An
accepted request is pending with an armed timer until its promise settles, and it is removed from
both tables in the step that settles it. As long as a new child is only spawned when no frame
waits to be written and no request is pending, everything pending and everything queued belongs
to the current child, so a response is taken from the child that accepted the request and a frame
is written to it.
-/

namespace PiAgentWeb

namespace PiProcess

variable {Body Value : Type*} {decodeResponse : SessionCommandTypeDto → Body → Option Value}

/-- A settlement of a request is a rejection, or it comes from a response line of the child that
accepted the request, with its wire id, decoded for its command. -/
def Answers (decodeResponse : SessionCommandTypeDto → Body → Option Value) (wireId : ℕ)
    (request : PendingRequest) : PromiseSettlement Body Value → Prop
  | .rejected => True
  | .fulfilled line publicId value =>
    line.id = some wireId ∧ line.spawn = request.spawn ∧ publicId = request.publicId ∧
      decodeResponse request.command line.body = some value

/-- What holds of the requests between two steps. -/
structure Correlation (decodeResponse : SessionCommandTypeDto → Body → Option Value)
    (s : PiProcess Body Value) : Prop where
  publicOfPending : ∀ w r, s.pending.get? w = some r →
    s.pendingPublicIds.get? r.publicId = some w
  pendingOfPublic : ∀ p w, s.pendingPublicIds.get? p = some w →
    ∃ r, s.pending.get? w = some r ∧ r.publicId = p
  pendingAccepted : ∀ w r, s.pending.get? w = some r →
    s.accepted.get? w = some r ∧ s.promises.get? w = none ∧ w ∈ s.timers
  settledOrPending : ∀ w r, s.accepted.get? w = some r →
    s.promises.get? w ≠ none ∨ s.pending.get? w = some r
  timersAccepted : ∀ w ∈ s.timers, ∃ r, s.accepted.get? w = some r
  counted : ∀ w r, s.accepted.get? w = some r → w ≤ s.wireRequestCounter
  answered : ∀ w o, s.promises.get? w = some o →
    ∃ r, s.accepted.get? w = some r ∧ Answers decodeResponse w r o
  routed : ∀ n task, s.lines.get? n = some task → ∀ w r, task.route = .pending w r →
    s.accepted.get? w = some r ∧ task.line.id = some w
  currentSpawn : ∀ identity, s.spawnIdentity = some identity → identity.number = s.spawns
  pendingSpawn : ∀ w r, s.pending.get? w = some r → ∃ identity, s.spawnIdentity = some identity ∧
    identity.number = r.spawn ∧ identity.unexpectedFinalization = false
  queuedSpawn : ∀ w, QueuedFrame.request w ∈ s.writeQueue →
    ∃ r, s.accepted.get? w = some r ∧ r.spawn = s.spawns
  drainingAccepted : ∀ w, s.draining = some (.request w) → ∃ r, s.accepted.get? w = some r
  writtenSpawn : ∀ w n, (w, n) ∈ s.written → ∃ r, s.accepted.get? w = some r ∧ r.spawn = n

variable {s : PiProcess Body Value}

theorem correlation_initial : Correlation decodeResponse (initial : PiProcess Body Value) where
  publicOfPending := fun _ _ h => nomatch h
  pendingOfPublic := fun _ _ h => nomatch h
  pendingAccepted := fun _ _ h => nomatch h
  settledOrPending := fun _ _ h => nomatch h
  timersAccepted := fun _ h => nomatch h
  counted := fun _ _ h => nomatch h
  answered := fun _ _ h => nomatch h
  routed := fun _ _ h => nomatch h
  currentSpawn := fun _ h => nomatch h
  pendingSpawn := fun _ _ h => nomatch h
  queuedSpawn := fun _ h => nomatch h
  drainingAccepted := fun _ h => nomatch h
  writtenSpawn := fun _ _ h => nomatch h

/-! ## Settling a promise -/

theorem promises_settle (w w' : ℕ) (o : PromiseSettlement Body Value) :
    (s.settle w o).promises.get? w' =
      if w' = w ∧ s.promises.get? w = none then some o else s.promises.get? w' := by
  unfold settle
  cases h : s.promises.get? w with
  | some o' =>
    simp
  | none =>
    simp only [and_true, InsertionMap.get?_insert]

theorem settle_eq (w : ℕ) (o : PromiseSettlement Body Value) :
    s.settle w o = { s with promises := (s.settle w o).promises } := by
  unfold settle
  split <;> rfl

variable {r : PendingRequest}

theorem deletePending_eq (h : Correlation decodeResponse s) {w : ℕ}
    (haccepted : s.accepted.get? w = some r) :
    s.deletePending w r =
      { s with
        pending := s.pending.erase w
        pendingPublicIds := if s.pending.get? w = some r then
          s.pendingPublicIds.erase r.publicId else s.pendingPublicIds } := by
  unfold deletePending
  by_cases hpending : s.pending.get? w = some r
  · simp only [hpending, if_true, h.publicOfPending w r hpending]
  · have hnone : s.pending.get? w = none := by
      cases hget : s.pending.get? w with
      | none => rfl
      | some r' =>
        have hsame := (h.pendingAccepted w r' hget).1
        rw [haccepted] at hsame
        exact absurd (hget.trans hsame.symm) hpending
    have hpublic : s.pendingPublicIds.get? r.publicId ≠ some w := by
      intro hget
      obtain ⟨r', hr', -⟩ := h.pendingOfPublic _ _ hget
      rw [hnone] at hr'
      cases hr'
    simp only [hpending, if_false, hpublic, InsertionMap.erase_of_get?_eq_none hnone]

/-- A request is concluded: its timer is cleared, it leaves both tables and its promise
settles. -/
def conclude (s : PiProcess Body Value) (w : ℕ) (r : PendingRequest)
    (o : PromiseSettlement Body Value) : PiProcess Body Value :=
  ((s.deletePending w r).clearTimer w).settle w o

theorem Correlation.conclude (h : Correlation decodeResponse s) {w : ℕ}
    {o : PromiseSettlement Body Value} (haccepted : s.accepted.get? w = some r)
    (hanswers : Answers decodeResponse w r o) :
    Correlation decodeResponse (s.conclude w r o) := by
  have hpending : ∀ w' r', (s.conclude w r o).pending.get? w' = some r' →
      w' ≠ w ∧ s.pending.get? w' = some r' := by
    intro w' r' hget
    rw [PiProcess.conclude, settle_eq, deletePending_eq h haccepted] at hget
    simp only [clearTimer, InsertionMap.get?_erase] at hget
    split at hget
    · cases hget
    · rename_i hne
      exact ⟨hne, hget⟩
  have hkeep : ∀ w' r', w' ≠ w → s.pending.get? w' = some r' →
      (s.conclude w r o).pending.get? w' = some r' := by
    intro w' r' hne hget
    rw [PiProcess.conclude, settle_eq, deletePending_eq h haccepted]
    simp only [clearTimer, InsertionMap.get?_erase, if_neg hne, hget]
  have hpublic : ∀ p w', (s.conclude w r o).pendingPublicIds.get? p = some w' ↔
      w' ≠ w ∧ s.pendingPublicIds.get? p = some w' := by
    intro p w'
    rw [PiProcess.conclude, settle_eq, deletePending_eq h haccepted]
    simp only [clearTimer]
    by_cases hmem : s.pending.get? w = some r
    · simp only [hmem, if_true, InsertionMap.get?_erase]
      constructor
      · intro hget
        split at hget
        · cases hget
        · rename_i hne
          refine ⟨?_, hget⟩
          rintro rfl
          obtain ⟨r', hr', hp⟩ := h.pendingOfPublic p w' hget
          rw [hmem, Option.some.injEq] at hr'
          exact hne (hr' ▸ hp.symm)
      · rintro ⟨hne, hget⟩
        rw [if_neg, hget]
        rintro rfl
        rw [h.publicOfPending w r hmem, Option.some.injEq] at hget
        exact hne hget.symm
    · simp only [hmem, if_false]
      refine ⟨fun hget => ⟨?_, hget⟩, And.right⟩
      rintro rfl
      obtain ⟨r', hr', -⟩ := h.pendingOfPublic p w' hget
      have hsame := (h.pendingAccepted w' r' hr').1
      rw [haccepted] at hsame
      exact hmem (hr'.trans hsame.symm)
  have hpromises : ∀ w', (s.conclude w r o).promises.get? w' =
      if w' = w ∧ s.promises.get? w = none then some o else s.promises.get? w' := by
    intro w'
    rw [PiProcess.conclude, promises_settle, deletePending_eq h haccepted]
    rfl
  have hrest : (s.conclude w r o).accepted = s.accepted ∧
      (s.conclude w r o).timers = s.timers.filter (· ≠ w) ∧
      (s.conclude w r o).wireRequestCounter = s.wireRequestCounter ∧
      (s.conclude w r o).lines = s.lines ∧ (s.conclude w r o).spawns = s.spawns ∧
      (s.conclude w r o).spawnIdentity = s.spawnIdentity ∧
      (s.conclude w r o).writeQueue = s.writeQueue ∧ (s.conclude w r o).draining = s.draining ∧
      (s.conclude w r o).written = s.written := by
    rw [PiProcess.conclude, settle_eq, deletePending_eq h haccepted]
    exact ⟨rfl, rfl, rfl, rfl, rfl, rfl, rfl, rfl, rfl⟩
  obtain ⟨hacc, htimers, hcounter, hlines, hspawns, hidentity, hqueue, hdraining, hwritten⟩ := hrest
  refine
    { publicOfPending := ?_
      pendingOfPublic := ?_
      pendingAccepted := ?_
      settledOrPending := ?_
      timersAccepted := ?_
      counted := ?_
      answered := ?_
      routed := ?_
      currentSpawn := ?_
      pendingSpawn := ?_
      queuedSpawn := ?_
      drainingAccepted := ?_
      writtenSpawn := ?_ }
  · intro w' r' hget
    obtain ⟨hne, hget⟩ := hpending w' r' hget
    exact (hpublic _ _).mpr ⟨hne, h.publicOfPending w' r' hget⟩
  · intro p w' hget
    obtain ⟨hne, hget⟩ := (hpublic _ _).mp hget
    obtain ⟨r', hr', hp⟩ := h.pendingOfPublic p w' hget
    exact ⟨r', hkeep w' r' hne hr', hp⟩
  · intro w' r' hget
    obtain ⟨hne, hget⟩ := hpending w' r' hget
    obtain ⟨ha, hp, ht⟩ := h.pendingAccepted w' r' hget
    rw [hacc, hpromises, if_neg (fun hboth => hne hboth.1), htimers]
    exact ⟨ha, hp, List.mem_filter.mpr ⟨ht, by simpa using hne⟩⟩
  · intro w' r' ha
    rw [hacc] at ha
    rw [hpromises]
    by_cases hne : w' = w
    · refine Or.inl ?_
      rw [hne]
      by_cases hnone : s.promises.get? w = none
      · simp [hnone]
      · simp [hnone]
    · rw [if_neg (fun hboth => hne hboth.1)]
      exact (h.settledOrPending w' r' ha).imp id (hkeep w' r' hne)
  · intro w' hmem
    rw [htimers] at hmem
    rw [hacc]
    exact h.timersAccepted w' (List.mem_filter.mp hmem).1
  · rw [hacc, hcounter]
    exact h.counted
  · intro w' o' hget
    rw [hpromises] at hget
    rw [hacc]
    split at hget
    · rename_i hboth
      cases hget
      rw [hboth.1]
      exact ⟨r, haccepted, hanswers⟩
    · exact h.answered w' o' hget
  · rw [hlines, hacc]
    exact h.routed
  · rw [hidentity, hspawns]
    exact h.currentSpawn
  · intro w' r' hget
    rw [hidentity]
    exact h.pendingSpawn w' r' (hpending w' r' hget).2
  · rw [hqueue, hacc, hspawns]
    exact h.queuedSpawn
  · rw [hdraining, hacc]
    exact h.drainingAccepted
  · rw [hwritten, hacc]
    exact h.writtenSpawn

theorem rejectAll_fold (entries : List (ℕ × PendingRequest)) (s : PiProcess Body Value) :
    ∃ timers promises,
      entries.foldl (fun s entry => (s.clearTimer entry.1).settle entry.1 .rejected) s =
        { s with timers := timers, promises := promises } ∧
      (∀ w ∈ timers, w ∈ s.timers) ∧
      ∀ w, promises.get? w =
        if w ∈ entries.map Prod.fst ∧ s.promises.get? w = none then some .rejected
        else s.promises.get? w := by
  induction entries generalizing s with
  | nil => exact ⟨s.timers, s.promises, rfl, fun _ h => h, fun w => by simp⟩
  | cons entry rest ih =>
    obtain ⟨timers, promises, hfold, htimers, hpromises⟩ :=
      ih ((s.clearTimer entry.1).settle entry.1 .rejected)
    refine ⟨timers, promises, ?_, fun w hw => ?_, fun w => ?_⟩
    · rw [List.foldl_cons, hfold, settle_eq]
      rfl
    · have hw' := htimers w hw
      rw [settle_eq] at hw'
      exact (List.mem_filter.mp hw').1
    · rw [hpromises, promises_settle]
      simp only [clearTimer, List.map_cons, List.mem_cons]
      by_cases hw : w = entry.1 <;> by_cases hnone : s.promises.get? w = none <;>
        by_cases hrest : w ∈ rest.map Prod.fst <;> simp_all

theorem Correlation.rejectAll (h : Correlation decodeResponse s)
    (before after : Option SpawnIdentity) (stopped ready : Bool)
    (hafter : ∀ identity, after = some identity → identity.number = s.spawns) :
    Correlation decodeResponse
      { ({ s with spawnIdentity := before } : PiProcess Body Value).rejectAll with
        spawnIdentity := after, stopped := stopped, ready := ready } := by
  obtain ⟨timers, promises, hfold, htimers, hpromises⟩ := rejectAll_fold s.pending.entries
    ({ s with spawnIdentity := before } : PiProcess Body Value)
  unfold PiProcess.rejectAll
  simp only
  rw [hfold]
  have hkeys : ∀ w r, s.pending.get? w = some r → w ∈ s.pending.entries.map Prod.fst :=
    fun w r hget => List.mem_map.mpr ⟨_, InsertionMap.mem_of_get? hget, rfl⟩
  exact
    { publicOfPending := fun _ _ hget => nomatch hget
      pendingOfPublic := fun _ _ hget => nomatch hget
      pendingAccepted := fun _ _ hget => nomatch hget
      settledOrPending := by
        intro w r ha
        refine Or.inl ?_
        simp only
        rw [hpromises]
        rcases h.settledOrPending w r ha with hsettled | hpending
        · simp [hsettled]
        · simp [hkeys w r hpending, (h.pendingAccepted w r hpending).2.1]
      timersAccepted := fun w hw => h.timersAccepted w (htimers w hw)
      counted := h.counted
      answered := by
        intro w o hget
        simp only at hget
        rw [hpromises] at hget
        split at hget
        · rename_i hboth
          obtain ⟨entry, hmem, hkey⟩ := List.mem_map.mp hboth.1
          cases hget
          have hpending := InsertionMap.get?_of_mem hmem
          rw [hkey] at hpending
          exact ⟨entry.2, (h.pendingAccepted w entry.2 hpending).1, trivial⟩
        · exact h.answered w o hget
      routed := h.routed
      currentSpawn := hafter
      pendingSpawn := fun _ _ hget => nomatch hget
      queuedSpawn := h.queuedSpawn
      drainingAccepted := h.drainingAccepted
      writtenSpawn := h.writtenSpawn }

theorem Correlation.withoutSpawn (h : Correlation decodeResponse s)
    (hempty : ∀ w, s.pending.get? w = none) (ready : Bool) :
    Correlation decodeResponse { s with spawnIdentity := none, ready := ready } :=
  { h with
    currentSpawn := fun _ hget => nomatch hget
    pendingSpawn := fun w r hget => by
      have hnone := hempty w
      rw [show s.pending.get? w = some r from hget] at hnone
      cases hnone }

theorem Correlation.mapSpawn (h : Correlation decodeResponse s)
    (f : SpawnIdentity → SpawnIdentity) (hnumber : ∀ i, (f i).number = i.number)
    (hfinal : ∀ i, (f i).unexpectedFinalization = i.unexpectedFinalization) (stopped : Bool) :
    Correlation decodeResponse
      { s with spawnIdentity := s.spawnIdentity.map f, stopped := stopped } :=
  { h with
    currentSpawn := by
      intro identity hget
      obtain ⟨i, hi, rfl⟩ := Option.map_eq_some_iff.mp hget
      rw [hnumber]
      exact h.currentSpawn i hi
    pendingSpawn := by
      intro w r hget
      obtain ⟨i, hi, hspawn, hopen⟩ := h.pendingSpawn w r hget
      exact ⟨f i, Option.map_eq_some_iff.mpr ⟨i, hi, rfl⟩, (hnumber i).trans hspawn,
        (hfinal i).trans hopen⟩ }

/-! ## The steps -/

theorem Correlation.sendWith (h : Correlation decodeResponse s) (kind : PendingKind)
    (command : SessionCommandTypeDto) (publicId : String) :
    Correlation decodeResponse (s.sendWith kind command publicId) := by
  unfold PiProcess.sendWith
  split
  · exact h
  · rename_i identity hidentity
    split
    · exact h
    · rename_i hrunning
      split
      · exact h
      · rename_i hduplicate
        rw [Bool.or_eq_true, not_or, Bool.not_eq_true, Bool.not_eq_true] at hrunning
        have hfreshPublic : s.pendingPublicIds.get? publicId = none := by
          simpa using hduplicate
        have hfreshWire : s.accepted.get? (s.wireRequestCounter + 1) = none := by
          cases hget : s.accepted.get? (s.wireRequestCounter + 1) with
          | none => rfl
          | some r =>
            have hle := h.counted _ r hget
            omega
        have hfreshPromise : s.promises.get? (s.wireRequestCounter + 1) = none := by
          cases hget : s.promises.get? (s.wireRequestCounter + 1) with
          | none => rfl
          | some o =>
            obtain ⟨r, hr, -⟩ := h.answered _ o hget
            rw [hfreshWire] at hr
            cases hr
        have haccepted : ∀ {w r}, s.accepted.get? w = some r →
            w ≠ s.wireRequestCounter + 1 := by
          rintro w r hget rfl
          rw [hfreshWire] at hget
          cases hget
        have hgrow : ∀ {w : ℕ} {r : PendingRequest} (new : PendingRequest),
            s.accepted.get? w = some r →
            (s.accepted.insert (s.wireRequestCounter + 1) new).get? w = some r :=
          fun new hget => (InsertionMap.get?_insert_of_ne _ (haccepted hget) _).trans hget
        refine
          { publicOfPending := ?_
            pendingOfPublic := ?_
            pendingAccepted := ?_
            settledOrPending := ?_
            timersAccepted := ?_
            counted := ?_
            answered := ?_
            routed := ?_
            currentSpawn := ?_
            pendingSpawn := ?_
            queuedSpawn := ?_
            drainingAccepted := ?_
            writtenSpawn := ?_ }
        · intro w r hget
          simp only [InsertionMap.get?_insert] at hget ⊢
          split at hget
          · rename_i hw
            cases hget
            rw [if_pos rfl, hw]
          · have hold := h.publicOfPending w r hget
            rw [if_neg, hold]
            intro heq
            rw [heq, hfreshPublic] at hold
            cases hold
        · intro p w hget
          simp only [InsertionMap.get?_insert] at hget ⊢
          split at hget
          · rename_i hp
            cases hget
            exact ⟨_, if_pos rfl, hp.symm⟩
          · obtain ⟨r, hr, hp⟩ := h.pendingOfPublic p w hget
            exact ⟨r, by rw [if_neg (haccepted (h.pendingAccepted w r hr).1), hr], hp⟩
        · intro w r hget
          simp only [InsertionMap.get?_insert] at hget
          split at hget
          · rename_i hw
            cases hget
            rw [hw]
            exact ⟨InsertionMap.get?_insert_self _ _ _, hfreshPromise, by simp⟩
          · obtain ⟨ha, hp, ht⟩ := h.pendingAccepted w r hget
            exact ⟨hgrow _ ha, hp, List.mem_append_left _ ht⟩
        · intro w r hget
          simp only [InsertionMap.get?_insert] at hget ⊢
          split at hget
          · rename_i hw
            cases hget
            exact Or.inr (by rw [if_pos hw])
          · rename_i hw
            rw [if_neg hw]
            exact h.settledOrPending w r hget
        · intro w hmem
          rcases List.mem_append.mp hmem with hmem | hmem
          · obtain ⟨r, hr⟩ := h.timersAccepted w hmem
            exact ⟨r, hgrow _ hr⟩
          · rw [List.mem_singleton.mp hmem]
            exact ⟨_, InsertionMap.get?_insert_self _ _ _⟩
        · intro w r hget
          simp only [InsertionMap.get?_insert] at hget
          split at hget
          · rename_i hw
            exact Nat.le_of_eq hw
          · exact Nat.le_succ_of_le (h.counted w r hget)
        · intro w o hget
          obtain ⟨r, hr, ho⟩ := h.answered w o hget
          exact ⟨r, hgrow _ hr, ho⟩
        · intro n task hget w r hroute
          obtain ⟨ha, hid⟩ := h.routed n task hget w r hroute
          exact ⟨hgrow _ ha, hid⟩
        · intro i hget
          exact h.currentSpawn i hget
        · intro w r hget
          simp only [InsertionMap.get?_insert] at hget
          split at hget
          · cases hget
            exact ⟨identity, hidentity, rfl, hrunning.2⟩
          · exact h.pendingSpawn w r hget
        · intro w hmem
          rcases List.mem_append.mp hmem with hmem | hmem
          · obtain ⟨r, hr, hspawn⟩ := h.queuedSpawn w hmem
            exact ⟨r, hgrow _ hr, hspawn⟩
          · rw [List.mem_singleton, QueuedFrame.request.injEq] at hmem
            rw [hmem]
            exact ⟨_, InsertionMap.get?_insert_self _ _ _, h.currentSpawn identity hidentity⟩
        · intro w hget
          obtain ⟨r, hr⟩ := h.drainingAccepted w hget
          exact ⟨r, hgrow _ hr⟩
        · intro w n hmem
          obtain ⟨r, hr, hspawn⟩ := h.writtenSpawn w n hmem
          exact ⟨r, hgrow _ hr, hspawn⟩

/-- A child is only spawned when no frame waits to be written and no request is pending. -/
def SpawnsClean (s : PiProcess Body Value) : PiProcessAction Body → Prop
  | .start => s.ready = true ∨ s.writeQueue = [] ∧ s.pending = .empty
  | _ => True

instance (s : PiProcess Body Value) (a : PiProcessAction Body) : Decidable (SpawnsClean s a) := by
  cases a <;> unfold SpawnsClean <;> infer_instance

theorem Correlation.start (h : Correlation decodeResponse s)
    (hclean : s.ready = true ∨ s.writeQueue = [] ∧ s.pending = .empty) :
    Correlation decodeResponse s.start := by
  unfold PiProcess.start
  split
  · exact h
  · rename_i hready
    obtain ⟨hqueue, hpending⟩ := hclean.resolve_left hready
    refine Correlation.sendWith ?_ .raw .getState "ready-1"
    exact
      { h with
        currentSpawn := fun identity hget => by
          cases hget
          rfl
        pendingSpawn := fun w r hget => by
          simp only [hpending] at hget
          cases hget
        queuedSpawn := fun w hmem => by
          simp only [hqueue] at hmem
          cases hmem }

theorem Correlation.beginUnexpectedFinalization (h : Correlation decodeResponse s) (spawn : ℕ) :
    Correlation decodeResponse (s.beginUnexpectedFinalization spawn) := by
  unfold PiProcess.beginUnexpectedFinalization
  cases hidentity : s.spawnIdentity with
  | none => exact h
  | some identity =>
    simp only
    split
    · exact h
    · have hreject := h.rejectAll s.spawnIdentity
        (some { identity with unexpectedFinalization := true, decodeAborted := true })
        s.rejectAll.stopped s.rejectAll.ready (fun i hi => by
          cases hi
          exact h.currentSpawn identity hidentity)
      exact hreject

theorem Correlation.handleProtocolFailure (h : Correlation decodeResponse s) (spawn : ℕ) :
    Correlation decodeResponse (s.handleProtocolFailure spawn) := by
  unfold PiProcess.handleProtocolFailure
  split
  · exact h
  · exact h.beginUnexpectedFinalization spawn

theorem Correlation.finishUnexpectedFinalization (h : Correlation decodeResponse s) (spawn : ℕ) :
    Correlation decodeResponse (s.finishUnexpectedFinalization spawn) := by
  unfold PiProcess.finishUnexpectedFinalization
  cases hidentity : s.spawnIdentity with
  | none => exact h
  | some identity =>
    simp only [Option.any_some, Bool.and_eq_true, decide_eq_true_eq]
    split
    · rename_i hfinal
      have hclear : s.clearSpawn spawn = { s with spawnIdentity := none } := by
        unfold clearSpawn
        rw [if_pos (by simp [hidentity, hfinal.1])]
      rw [hclear]
      refine h.withoutSpawn (fun w => ?_) false
      cases hget : s.pending.get? w with
      | none => rfl
      | some r =>
        obtain ⟨i, hi, -, hopen⟩ := h.pendingSpawn w r hget
        rw [hidentity, Option.some.injEq] at hi
        rw [← hi, hfinal.2] at hopen
        cases hopen
    · exact h

theorem Correlation.exited (h : Correlation decodeResponse s) (spawn : ℕ) :
    Correlation decodeResponse (s.exited spawn) := by
  have hmap : ∀ identity : SpawnIdentity,
      (if identity.number = spawn then { identity with leaderExitObserved := true }
        else identity).number = identity.number := by
    intro identity
    split <;> rfl
  unfold PiProcess.exited
  simp only
  split
  · unfold clearSpawn
    split
    · exact h.rejectAll _ none _ _ (fun i hi => by cases hi)
    · refine h.rejectAll _ _ _ _ fun i hi => ?_
      obtain ⟨timers, promises, hfold, -, -⟩ := rejectAll_fold s.pending.entries
        ({ s with spawnIdentity := s.spawnIdentity.map fun identity =>
          if identity.number = spawn then { identity with leaderExitObserved := true }
          else identity } : PiProcess Body Value)
      simp only [hfold] at hi
      obtain ⟨j, hj, rfl⟩ := Option.map_eq_some_iff.mp hi
      rw [hmap]
      exact h.currentSpawn j hj
  · refine h.mapSpawn _ hmap (fun i => ?_) s.stopped
    split <;> rfl

theorem Correlation.finishStop (h : Correlation decodeResponse s) (spawn : ℕ) :
    Correlation decodeResponse (s.finishStop spawn) := by
  unfold PiProcess.finishStop clearSpawn
  split
  · refine h.rejectAll none _ _ false fun i hi => ?_
    obtain ⟨timers, promises, hfold, -, -⟩ := rejectAll_fold s.pending.entries
      ({ s with spawnIdentity := none } : PiProcess Body Value)
    simp only [PiProcess.rejectAll, hfold] at hi
    cases hi
  · refine h.rejectAll s.spawnIdentity _ _ false fun i hi => ?_
    obtain ⟨timers, promises, hfold, -, -⟩ := rejectAll_fold s.pending.entries s
    simp only [PiProcess.rejectAll, hfold] at hi
    exact h.currentSpawn i hi

theorem writeFailed_request {w : ℕ} (haccepted : s.accepted.get? w = some r) :
    s.writeFailed (.request w) = s.conclude w r .rejected := by
  simp only [writeFailed, haccepted]
  rfl

theorem Correlation.writeFailed (h : Correlation decodeResponse s) (frame : QueuedFrame) :
    Correlation decodeResponse (s.writeFailed frame) := by
  cases frame with
  | request w =>
    cases haccepted : s.accepted.get? w with
    | none => simpa [PiProcess.writeFailed, haccepted] using h
    | some r =>
      rw [writeFailed_request haccepted]
      exact h.conclude haccepted trivial
  | extensionUiResponse spawn =>
    cases spawn with
    | none => exact h
    | some spawn => exact h.handleProtocolFailure spawn

theorem Correlation.writeNext (h : Correlation decodeResponse s) (writable full : Bool) :
    Correlation decodeResponse (s.writeNext writable full) := by
  unfold PiProcess.writeNext
  split
  · rename_i frame rest hdraining hqueue
    have htaken : Correlation decodeResponse { s with writeQueue := rest } :=
      { h with queuedSpawn := fun w hmem => h.queuedSpawn w (hqueue ▸ List.mem_cons_of_mem _ hmem) }
    simp only
    split
    · exact htaken.writeFailed frame
    · rename_i identity hidentity
      split
      · refine
          { htaken with
            drainingAccepted := fun w hget => ?_
            writtenSpawn := fun w n hmem => ?_ }
        · split at hget
          · rw [Option.some.injEq] at hget
            obtain ⟨r, hr, -⟩ := h.queuedSpawn w (by rw [hqueue, hget]; exact List.mem_cons_self)
            exact ⟨r, hr⟩
          · cases hget
        · cases frame with
          | extensionUiResponse spawn => exact h.writtenSpawn w n hmem
          | request w' =>
            rcases List.mem_append.mp hmem with hmem | hmem
            · exact h.writtenSpawn w n hmem
            · rw [List.mem_singleton, Prod.mk.injEq] at hmem
              obtain ⟨r, hr, hspawn⟩ := h.queuedSpawn w' (by rw [hqueue]; exact List.mem_cons_self)
              rw [hmem.1, hmem.2, h.currentSpawn identity hidentity]
              exact ⟨r, hr, hspawn⟩
      · exact htaken.writeFailed frame
  · exact h

theorem Correlation.drained (h : Correlation decodeResponse s) (failed : Bool) :
    Correlation decodeResponse (s.drained failed) := by
  have hnone : Correlation decodeResponse { s with draining := none } :=
    { h with drainingAccepted := fun w hget => nomatch hget }
  unfold PiProcess.drained
  split
  · exact h
  · split
    · exact hnone.writeFailed _
    · exact hnone

theorem timeout_eq (h : Correlation decodeResponse s) {w : ℕ}
    (hmem : w ∈ s.timers) (haccepted : s.accepted.get? w = some r) :
    s.timeout w = s.conclude w r .rejected := by
  unfold PiProcess.timeout PiProcess.conclude
  rw [if_pos hmem]
  cases hget : s.pending.get? w with
  | none =>
    have hget' : (s.clearTimer w).pending.get? w = none := hget
    simp only [hget']
    rw [deletePending_eq h haccepted, InsertionMap.erase_of_get?_eq_none hget,
      if_neg (by simp [hget])]
  | some request =>
    have hget' : (s.clearTimer w).pending.get? w = some request := hget
    have hr := (h.pendingAccepted w request hget).1
    rw [haccepted, Option.some.injEq] at hr
    simp only [hget', hr]
    rfl

theorem Correlation.timeout (h : Correlation decodeResponse s) (w : ℕ) :
    Correlation decodeResponse (s.timeout w) := by
  by_cases hmem : w ∈ s.timers
  · obtain ⟨r, haccepted⟩ := h.timersAccepted w hmem
    rw [timeout_eq h hmem haccepted]
    exact h.conclude haccepted trivial
  · unfold PiProcess.timeout
    rw [if_neg hmem]
    exact h

/-! ## Lines -/

theorem Correlation.readLine (h : Correlation decodeResponse s) (line : PiLine Body) :
    Correlation decodeResponse (s.readLine line) := by
  refine { h with routed := fun n task hget w r hroute => ?_ }
  simp only [PiProcess.readLine, InsertionMap.get?_insert] at hget
  split at hget
  · cases hget
    simp only at hroute
    split at hroute
    · cases hroute
    · cases hroute
    · split at hroute
      · cases hroute
      · rename_i id hid
        split at hroute
        · cases hroute
        · rename_i request hrequest
          cases hroute
          exact ⟨(h.pendingAccepted _ _ hrequest).1, hid⟩
  · exact h.routed n task hget w r hroute

theorem Correlation.updateTask (h : Correlation decodeResponse s) {n : ℕ}
    {task task' : LineTask Body} (hget : s.lines.get? n = some task)
    (hline : task'.line = task.line) (hroute : task'.route = task.route) :
    Correlation decodeResponse { s with lines := s.lines.insert n task' } := by
  refine { h with routed := fun n' task'' hget' w r hroute' => ?_ }
  simp only [InsertionMap.get?_insert] at hget'
  split at hget'
  · cases hget'
    rw [hline]
    exact h.routed n task hget w r (hroute ▸ hroute')
  · exact h.routed n' task'' hget' w r hroute'

variable {task : LineTask Body}

theorem Correlation.setStage (h : Correlation decodeResponse s) {n : ℕ}
    (hget : s.lines.get? n = some task) (stage : HandlerStage) :
    Correlation decodeResponse (s.setStage n task stage) :=
  h.updateTask hget rfl rfl

theorem Correlation.endCustody (h : Correlation decodeResponse s) (n : ℕ)
    (outcome : DecodeOutcome) (event : CustodyEvent) :
    Correlation decodeResponse (s.endCustody n outcome event) := by
  unfold PiProcess.endCustody
  split
  · exact { h with }
  · exact h

theorem Correlation.takeLease (h : Correlation decodeResponse s) (n : ℕ)
    (outcome : DecodeOutcome) : Correlation decodeResponse (s.takeLease n outcome) := by
  unfold PiProcess.takeLease
  split
  · exact { h with }
  · exact h

theorem Correlation.releaseOutcome (h : Correlation decodeResponse s) (n : ℕ)
    (outcome : DecodeOutcome) : Correlation decodeResponse (s.releaseOutcome n outcome) :=
  h.endCustody n outcome .leaseReleased

theorem Correlation.abortDecoding (h : Correlation decodeResponse s) (n : ℕ) (deadline : Bool) :
    Correlation decodeResponse (s.abortDecoding n deadline) := by
  unfold PiProcess.abortDecoding
  split
  · exact h
  · rename_i task hget
    split
    · exact h.setStage hget _
    · exact h

theorem Correlation.settleDecoding (h : Correlation decodeResponse s) (n : ℕ)
    (result : Except Bool DecodeOutcome) :
    Correlation decodeResponse (s.settleDecoding decodeResponse n result) := by
  unfold PiProcess.settleDecoding
  split
  · exact h
  · rename_i task hget
    split
    · simp only
      cases result with
      | error externalization =>
        simp only
        split <;> exact h.updateTask hget rfl rfl
      | ok outcome =>
        simp only
        split
        · have hlines : (s.takeLease n outcome).lines.get? n = some task := by
            unfold PiProcess.takeLease
            split <;> exact hget
          have hleased := h.takeLease n outcome
          split
          · exact hleased.updateTask hlines rfl rfl
          · refine Correlation.releaseOutcome ?_ n outcome
            exact hleased.updateTask hlines rfl rfl
        · exact h
    · exact h

theorem Correlation.line_spawn (h : Correlation decodeResponse s) {w : ℕ}
    (hroute : task.route = .pending w r) (hcurrent : s.isCurrent task = true) :
    s.pending.get? w = some r ∧ task.line.spawn = r.spawn := by
  unfold isCurrent at hcurrent
  rw [Bool.and_eq_true, hroute] at hcurrent
  obtain ⟨howns, hpending⟩ := hcurrent
  have hpending : s.pending.get? w = some r := by simpa [isPending] using hpending
  obtain ⟨identity, hidentity, hspawn, -⟩ := h.pendingSpawn w r hpending
  refine ⟨hpending, ?_⟩
  simp only [ownsSpawn, hidentity, Bool.and_eq_true, decide_eq_true_eq] at howns
  rw [← howns.1.2]
  exact hspawn

theorem Correlation.resolvePending (h : Correlation decodeResponse s)
    {w : ℕ} (haccepted : s.accepted.get? w = some r)
    (hid : task.line.id = some w) (hspawn : task.line.spawn = r.spawn) :
    Correlation decodeResponse (s.resolvePending decodeResponse task.line w r) := by
  unfold PiProcess.resolvePending
  split
  · exact h
  · rename_i value hvalue
    exact h.conclude haccepted ⟨hid, hspawn, rfl, hvalue⟩

theorem Correlation.offer (h : Correlation decodeResponse s) {n : ℕ}
    (hget : s.lines.get? n = some task) (outcome : DecodeOutcome) (answer : ConsumerAnswer) :
    Correlation decodeResponse (s.offer n task outcome answer) := by
  unfold PiProcess.offer
  split
  · exact h.setStage hget _
  · exact (h.setStage hget _).releaseOutcome n outcome

theorem Correlation.continueLine (h : Correlation decodeResponse s) (opts : PiProcessOptions)
    (n : ℕ) (answer : ConsumerAnswer) (succeeds : Bool) :
    Correlation decodeResponse (s.continueLine decodeResponse opts n answer succeeds) := by
  unfold PiProcess.continueLine
  split
  · exact h
  · rename_i task hget
    have hended := h.setStage hget .ended
    split
    · exact h
    · exact h
    · -- decoding failed
      simp only
      split
      · rename_i w r hroute
        obtain ⟨haccepted, -⟩ := h.routed n task hget w r hroute
        split
        · exact hended.conclude haccepted trivial
        · exact hended
      · exact hended
    · -- decoding resolved
      rename_i outcome hstage
      simp only
      split
      · exact hended.releaseOutcome n outcome
      · exact hended.releaseOutcome n outcome
      · rename_i w r hroute
        obtain ⟨haccepted, hid⟩ := h.routed n task hget w r hroute
        split
        · exact hended.releaseOutcome n outcome
        · rename_i hcurrent
          have hcurrent : s.isCurrent task = true := by simpa using hcurrent
          split
          · exact h.offer hget outcome answer
          · split
            · exact hended.releaseOutcome n outcome
            · exact hended.resolvePending haccepted hid (h.line_spawn hroute hcurrent).2
      · split
        · exact hended.releaseOutcome n outcome
        · split
          · exact h.offer hget outcome answer
          · exact hended.releaseOutcome n outcome
    · -- the delivery was planned
      rename_i outcome hstage
      split
      · exact h.setStage hget _
      · exact hended.releaseOutcome n outcome
    · -- the transfer was made
      rename_i outcome hstage
      split
      · exact hended.endCustody n outcome _
      · split
        · exact (h.setStage hget _).endCustody n outcome _
        · exact hended.endCustody n outcome _
    · -- the commit returned
      simp only
      split
      · rename_i w r hroute
        obtain ⟨haccepted, hid⟩ := h.routed n task hget w r hroute
        split
        · rename_i hcurrent
          exact hended.resolvePending haccepted hid (h.line_spawn hroute hcurrent).2
        · exact hended
      · exact hended

/-! ## Runs -/

theorem Correlation.step (opts : PiProcessOptions) (s : PiProcess Body Value)
    (a : PiProcessAction Body) (hclean : SpawnsClean s a) (h : Correlation decodeResponse s) :
    Correlation decodeResponse (s.step decodeResponse opts a) := by
  cases a with
  | start => exact h.start hclean
  | handshakeFailed => exact { h with }
  | send command publicId => exact h.sendWith .raw command publicId
  | sendDecoded command publicId =>
    simp only [PiProcess.step, PiProcess.sendDecoded]
    split
    · exact h.sendWith .decoded command publicId
    · exact h
  | sendNoResponse =>
    exact { h with queuedSpawn := fun w hmem => h.queuedSpawn w (by
              simpa [PiProcess.step, PiProcess.sendNoResponse] using hmem) }
  | timeout w => exact h.timeout w
  | writeNext writable full => exact h.writeNext writable full
  | drained failed => exact h.drained failed
  | exited spawn => exact h.exited spawn
  | unexpectedFinalization spawn => exact h.beginUnexpectedFinalization spawn
  | finishUnexpectedFinalization spawn => exact h.finishUnexpectedFinalization spawn
  | protocolFailure spawn => exact h.handleProtocolFailure spawn
  | stop =>
    exact h.mapSpawn (fun identity => { identity with decodeAborted := true }) (fun _ => rfl)
      (fun _ => rfl) true
  | finishStop spawn => exact h.finishStop spawn
  | readLine line =>
    simp only [PiProcess.step]
    split
    · exact h.readLine line
    · exact h
  | abortDecoding n deadline => exact h.abortDecoding n deadline
  | settleDecoding n result => exact h.settleDecoding n result
  | continueLine n answer succeeds => exact h.continueLine opts n answer succeeds

/-! ### Settled promises stay settled -/

/-- Every settled promise is settled as before. -/
def KeepsPromises (s s' : PiProcess Body Value) : Prop :=
  ∀ w o, s.promises.get? w = some o → s'.promises.get? w = some o

theorem KeepsPromises.of_eq {s' : PiProcess Body Value} (h : s'.promises = s.promises) :
    KeepsPromises s s' := by
  intro w o hget
  rw [h]
  exact hget

theorem KeepsPromises.trans {s' s'' : PiProcess Body Value} (h : KeepsPromises s s')
    (h' : KeepsPromises s' s'') : KeepsPromises s s'' :=
  fun w o hget => h' w o (h w o hget)

theorem KeepsPromises.after {s' s'' : PiProcess Body Value} (h : KeepsPromises s' s'')
    (heq : s'.promises = s.promises) : KeepsPromises s s'' :=
  (KeepsPromises.of_eq heq).trans h

theorem keepsPromises_settle (w : ℕ) (o : PromiseSettlement Body Value) :
    KeepsPromises s (s.settle w o) := by
  intro w' o' hget
  rw [promises_settle, if_neg, hget]
  rintro ⟨rfl, hnone⟩
  rw [hget] at hnone
  cases hnone

theorem keepsPromises_rejectAll (s : PiProcess Body Value) : KeepsPromises s s.rejectAll := by
  intro w o hget
  obtain ⟨timers, promises, hfold, -, hpromises⟩ := rejectAll_fold s.pending.entries s
  unfold PiProcess.rejectAll
  simp only [hfold, hpromises, hget]
  simp

theorem keepsPromises_beginUnexpectedFinalization (s : PiProcess Body Value) (spawn : ℕ) :
    KeepsPromises s (s.beginUnexpectedFinalization spawn) := by
  unfold PiProcess.beginUnexpectedFinalization
  split
  · exact .of_eq rfl
  · split
    · exact .of_eq rfl
    · exact (keepsPromises_rejectAll s).trans (.of_eq rfl)

theorem keepsPromises_handleProtocolFailure (s : PiProcess Body Value) (spawn : ℕ) :
    KeepsPromises s (s.handleProtocolFailure spawn) := by
  unfold PiProcess.handleProtocolFailure
  split
  · exact .of_eq rfl
  · exact keepsPromises_beginUnexpectedFinalization s spawn

theorem promises_clearSpawn (s : PiProcess Body Value) (spawn : ℕ) :
    (s.clearSpawn spawn).promises = s.promises := by
  unfold clearSpawn
  split <;> rfl

theorem keepsPromises_writeFailed (s : PiProcess Body Value) (frame : QueuedFrame) :
    KeepsPromises s (s.writeFailed frame) := by
  unfold PiProcess.writeFailed
  split
  · split
    · exact .of_eq rfl
    · exact KeepsPromises.after (keepsPromises_settle _ _) rfl
  · exact .of_eq rfl
  · exact keepsPromises_handleProtocolFailure s _

theorem promises_sendWith (s : PiProcess Body Value) (kind : PendingKind)
    (command : SessionCommandTypeDto) (publicId : String) :
    (s.sendWith kind command publicId).promises = s.promises := by
  unfold PiProcess.sendWith
  split
  · rfl
  · split
    · rfl
    · split <;> rfl

theorem promises_endCustody (s : PiProcess Body Value) (n : ℕ) (outcome : DecodeOutcome)
    (event : CustodyEvent) : (s.endCustody n outcome event).promises = s.promises := by
  unfold PiProcess.endCustody
  split <;> rfl

theorem promises_offer (s : PiProcess Body Value) (n : ℕ) (task : LineTask Body)
    (outcome : DecodeOutcome) (answer : ConsumerAnswer) :
    (s.offer n task outcome answer).promises = s.promises := by
  unfold PiProcess.offer
  split
  · rfl
  · exact promises_endCustody _ _ _ _

theorem promises_settleDecoding (s : PiProcess Body Value) (n : ℕ)
    (result : Except Bool DecodeOutcome) :
    (s.settleDecoding decodeResponse n result).promises = s.promises := by
  have hlease : ∀ outcome, (s.takeLease n outcome).promises = s.promises := by
    intro outcome
    unfold PiProcess.takeLease
    split <;> rfl
  unfold PiProcess.settleDecoding
  split
  · rfl
  · split
    · simp only
      split
      · split <;> rfl
      · split
        · split
          · exact hlease _
          · exact (promises_endCustody _ _ _ _).trans (hlease _)
        · rfl
    · rfl

theorem keepsPromises_resolvePending (s : PiProcess Body Value) (line : PiLine Body) (w : ℕ)
    (r : PendingRequest) : KeepsPromises s (s.resolvePending decodeResponse line w r) := by
  unfold PiProcess.resolvePending
  split
  · exact .of_eq rfl
  · exact KeepsPromises.after (keepsPromises_settle _ _) rfl

theorem keepsPromises_continueLine (s : PiProcess Body Value) (opts : PiProcessOptions) (n : ℕ)
    (answer : ConsumerAnswer) (succeeds : Bool) :
    KeepsPromises s (s.continueLine decodeResponse opts n answer succeeds) := by
  have hend : ∀ (task : LineTask Body) (stage : HandlerStage) (outcome : DecodeOutcome)
      (event : CustodyEvent),
      KeepsPromises s ((s.setStage n task stage).endCustody n outcome event) :=
    fun task stage outcome event => .of_eq (promises_endCustody _ _ _ _)
  unfold PiProcess.continueLine
  split
  · exact .of_eq rfl
  · rename_i task hget
    split
    · exact .of_eq rfl
    · exact .of_eq rfl
    · simp only
      split
      · split
        · exact KeepsPromises.after (keepsPromises_settle _ _) rfl
        · exact .of_eq rfl
      · exact .of_eq rfl
    · simp only
      split
      · exact hend _ _ _ _
      · exact hend _ _ _ _
      · split
        · exact hend _ _ _ _
        · split
          · exact .of_eq (promises_offer _ _ _ _ _)
          · split
            · exact hend _ _ _ _
            · exact KeepsPromises.after (keepsPromises_resolvePending _ _ _ _) rfl
      · split
        · exact hend _ _ _ _
        · split
          · exact .of_eq (promises_offer _ _ _ _ _)
          · exact hend _ _ _ _
    · split
      · exact .of_eq rfl
      · exact hend _ _ _ _
    · split
      · exact hend _ _ _ _
      · split
        · exact hend _ _ _ _
        · exact hend _ _ _ _
    · simp only
      split
      · split
        · exact KeepsPromises.after (keepsPromises_resolvePending _ _ _ _) rfl
        · exact .of_eq rfl
      · exact .of_eq rfl

theorem keepsPromises_step (opts : PiProcessOptions) (s : PiProcess Body Value)
    (a : PiProcessAction Body) : KeepsPromises s (s.step decodeResponse opts a) := by
  cases a with
  | start =>
    simp only [PiProcess.step, PiProcess.start]
    split
    · exact .of_eq rfl
    · exact .of_eq (promises_sendWith _ _ _ _)
  | handshakeFailed => exact .of_eq rfl
  | send command publicId => exact .of_eq (promises_sendWith _ _ _ _)
  | sendDecoded command publicId =>
    simp only [PiProcess.step, PiProcess.sendDecoded]
    split
    · exact .of_eq (promises_sendWith _ _ _ _)
    · exact .of_eq rfl
  | sendNoResponse => exact .of_eq rfl
  | timeout w =>
    simp only [PiProcess.step, PiProcess.timeout]
    split
    · refine KeepsPromises.after (keepsPromises_settle _ _) ?_
      split <;> rfl
    · exact .of_eq rfl
  | writeNext writable full =>
    simp only [PiProcess.step, PiProcess.writeNext]
    split
    · split
      · exact KeepsPromises.after (keepsPromises_writeFailed _ _) rfl
      · split
        · exact .of_eq rfl
        · exact KeepsPromises.after (keepsPromises_writeFailed _ _) rfl
    · exact .of_eq rfl
  | drained failed =>
    simp only [PiProcess.step, PiProcess.drained]
    split
    · exact .of_eq rfl
    · split
      · exact KeepsPromises.after (keepsPromises_writeFailed _ _) rfl
      · exact .of_eq rfl
  | exited spawn =>
    simp only [PiProcess.step, PiProcess.exited]
    split
    · refine KeepsPromises.trans ?_ (KeepsPromises.of_eq (promises_clearSpawn _ spawn))
      exact KeepsPromises.after (keepsPromises_rejectAll _) rfl
    · exact .of_eq rfl
  | unexpectedFinalization spawn => exact keepsPromises_beginUnexpectedFinalization s spawn
  | finishUnexpectedFinalization spawn =>
    simp only [PiProcess.step, PiProcess.finishUnexpectedFinalization]
    split
    · exact .of_eq (promises_clearSpawn s spawn)
    · exact .of_eq rfl
  | protocolFailure spawn => exact keepsPromises_handleProtocolFailure s spawn
  | stop => exact .of_eq rfl
  | finishStop spawn =>
    exact (KeepsPromises.of_eq (promises_clearSpawn s spawn)).trans
      ((keepsPromises_rejectAll _).trans (.of_eq rfl))
  | readLine line =>
    simp only [PiProcess.step]
    split <;> exact .of_eq rfl
  | abortDecoding n deadline =>
    simp only [PiProcess.step, PiProcess.abortDecoding]
    split
    · exact .of_eq rfl
    · split <;> exact .of_eq rfl
  | settleDecoding n result => exact .of_eq (promises_settleDecoding s n result)
  | continueLine n answer succeeds => exact keepsPromises_continueLine s opts n answer succeeds

/-! ### Whole runs -/

/-- In every run that spawns cleanly: the two tables are inverse to each other; every accepted
request is either settled and gone or pending, unsettled and settled by its timer; a settled
promise never settles again; a fulfilled one was answered by a response of the child that accepted
it; frames are written to the child that accepted them; and without a child nothing is pending. -/
theorem pi_request_correlation
    (decodeResponse : SessionCommandTypeDto → Body → Option Value) (opts : PiProcessOptions)
    (actions : List (PiProcessAction Body))
    (hclean : RunMeets (step decodeResponse opts) SpawnsClean
      (initial : PiProcess Body Value) actions) :
    let s := runFrom (step decodeResponse opts) initial actions
    ((∀ w r, s.pending.get? w = some r → s.pendingPublicIds.get? r.publicId = some w) ∧
      ∀ p w, s.pendingPublicIds.get? p = some w →
        ∃ r, s.pending.get? w = some r ∧ r.publicId = p) ∧
    (∀ w r, s.accepted.get? w = some r →
      s.promises.get? w ≠ none ∧ s.pending.get? w = none ∨
      s.promises.get? w = none ∧ s.pending.get? w = some r ∧
        (s.timeout w).promises.get? w = some .rejected) ∧
    (∀ a w o, s.promises.get? w = some o →
      (s.step decodeResponse opts a).promises.get? w = some o) ∧
    (∀ w o, s.promises.get? w = some o →
      ∃ r, s.accepted.get? w = some r ∧ Answers decodeResponse w r o) ∧
    (∀ w n, (w, n) ∈ s.written → ∃ r, s.accepted.get? w = some r ∧ r.spawn = n) ∧
    (s.spawnIdentity = none → ∀ w, s.pending.get? w = none) ∧
    ∀ spawn w, (s.finishStop spawn).pending.get? w = none := by
  intro s
  have h : Correlation decodeResponse s :=
    RunMeets.invariant (fun s a hc hs => Correlation.step opts s a hc hs) hclean
      correlation_initial
  refine ⟨⟨h.publicOfPending, h.pendingOfPublic⟩, fun w r haccepted => ?_,
    fun a w o hget => keepsPromises_step opts s a w o hget, h.answered, h.writtenSpawn,
    fun hnone w => ?_, fun spawn w => rfl⟩
  · cases hpending : s.pending.get? w with
    | none =>
      refine Or.inl ⟨(h.settledOrPending w r haccepted).resolve_right ?_, rfl⟩
      rw [hpending]
      exact fun hsome => nomatch hsome
    | some r' =>
      obtain ⟨haccepted', hopen, htimer⟩ := h.pendingAccepted w r' hpending
      rw [haccepted, Option.some.injEq] at haccepted'
      refine Or.inr ⟨hopen, by rw [haccepted'], ?_⟩
      rw [timeout_eq h htimer haccepted, PiProcess.conclude, promises_settle,
        deletePending_eq h haccepted]
      simp [clearTimer, hopen]
  · cases hpending : s.pending.get? w with
    | none => rfl
    | some r =>
      obtain ⟨identity, hidentity, -⟩ := h.pendingSpawn w r hpending
      rw [hnone] at hidentity
      cases hidentity

/-- A request fills the pipe and the frame of the next one waits behind it, while their child is
given up after a protocol failure and a new one is spawned. -/
def queueOutlivesSpawn : List (PiProcessAction Unit) :=
  [.start, .writeNext true false, .send .prompt "web-1", .writeNext true true,
    .send .prompt "web-2", .protocolFailure 1, .finishUnexpectedFinalization 1, .start,
    .drained true, .writeNext true false]

/-- The waiting frame was accepted by the first child, and it is written to the second. -/
theorem frame_written_to_next_spawn :
    ∃ w n r,
      (w, n) ∈ (runFrom (step (fun _ _ => some ()) ⟨true, true, true⟩)
        (initial : PiProcess Unit Unit) queueOutlivesSpawn).written ∧
      (runFrom (step (fun _ _ => some ()) ⟨true, true, true⟩)
        (initial : PiProcess Unit Unit) queueOutlivesSpawn).accepted.get? w = some r ∧
      r.spawn ≠ n :=
  ⟨3, 2, { kind := .raw, command := .prompt, publicId := "web-2", spawn := 1 },
    by decide, by decide, by decide⟩

/-- A run with a restart after a stop, in which the new child answers its handshake. -/
def restartAfterStop : List (PiProcessAction Unit) :=
  [.start, .writeNext true false, .stop, .exited 1, .finishStop 1, .start, .writeNext true false,
    .readLine { spawn := 2, type := .response, id := some 2, body := () },
    .settleDecoding 0 (.ok { kind := .ignored, lease := false }),
    .continueLine 0 .returnsPlan true]

/-- It spawns cleanly, so its second handshake was fulfilled by the second child. -/
theorem pi_request_correlation_restart :
    ∃ r, (runFrom (step (fun _ _ => some ()) ⟨true, true, true⟩)
        (initial : PiProcess Unit Unit) restartAfterStop).accepted.get? 2 = some r ∧
      Answers (fun _ _ => some ()) 2 r
        (.fulfilled { spawn := 2, type := .response, id := some 2, body := () } "ready-1" ()) :=
  (pi_request_correlation (fun _ _ => some ()) ⟨true, true, true⟩ restartAfterStop
    (by decide +kernel)).2.2.2.1 2 _ rfl

end PiProcess

end PiAgentWeb
