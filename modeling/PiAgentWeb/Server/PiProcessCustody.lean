import PiAgentWeb.Server.PiProcess
import Mathlib.Data.Nat.Basic

/-!
# The payload leases of decoded lines

The lease of an outcome is held by the task of its line until it is released, its transfer is
adopted by the consumer's commit, or its transfer is released. Each lease ends at most once, and
once no task holds one, exactly once. A spawn or a request that is gone stays gone, so a lease
whose task is no longer current is never adopted.
-/

namespace PiAgentWeb

/-- The task holds the lease of its outcome, or the transfer made from it. -/
def HandlerStage.holdsLease : HandlerStage → Bool
  | .resolved outcome | .planned outcome | .transferred outcome => outcome.lease
  | _ => false

/-- How often the handling of a line can go on before it holds no lease. -/
def HandlerStage.stepsLeft : HandlerStage → ℕ
  | .decoding => 4
  | .resolved _ => 3
  | .planned _ => 2
  | .transferred _ => 1
  | _ => 0

/-- The consumer was called and prepared its exact delivery. -/
def HandlerStage.offered : HandlerStage → Bool
  | .planned _ | .transferred _ | .committed => true
  | _ => false

namespace PiProcess

variable {Body Value : Type*} {decodeResponse : SessionCommandTypeDto → Body → Option Value}
variable {s : PiProcess Body Value}

/-- The task of the line holds a lease. -/
def holdsLease (s : PiProcess Body Value) (n : ℕ) : Bool :=
  (s.lines.get? n).any fun task => task.stage.holdsLease

/-- How often the outcome of the line brought a lease. -/
def leasesOf (s : PiProcess Body Value) (n : ℕ) : ℕ := s.leases.count n

/-- How often a lease of the line ended. -/
def endsOf (s : PiProcess Body Value) (n : ℕ) : ℕ := (s.custody.map Prod.fst).count n

/-- What holds of the leases between two steps. -/
structure LeaseCustody (s : PiProcess Body Value) : Prop where
  balanced : ∀ n, s.leasesOf n = s.endsOf n + (s.holdsLease n).toNat
  single : ∀ n, s.leasesOf n ≤ 1
  fresh : ∀ n, s.lineCounter ≤ n → s.lines.get? n = none ∧ s.leasesOf n = 0
  running : ∀ n task, s.lines.get? n = some task → task.decodingRuns = true →
    s.leasesOf n = 0 ∧ task.stage.holdsLease = false
  decoding : ∀ n task, s.lines.get? n = some task → task.stage = .decoding →
    task.decodingRuns = true

theorem leaseCustody_initial : LeaseCustody (initial : PiProcess Body Value) where
  balanced := fun _ => rfl
  single := fun _ => Nat.zero_le _
  fresh := fun _ _ => ⟨rfl, rfl⟩
  running := fun _ _ h => nomatch h
  decoding := fun _ _ h => nomatch h

/-- A step that changes neither lines nor leases. -/
structure SameLines (s s' : PiProcess Body Value) : Prop where
  lines : s'.lines = s.lines
  lineCounter : s'.lineCounter = s.lineCounter
  leases : s'.leases = s.leases
  custody : s'.custody = s.custody

theorem SameLines.rfl' (s : PiProcess Body Value) : SameLines s s := ⟨rfl, rfl, rfl, rfl⟩

theorem SameLines.trans {s' s'' : PiProcess Body Value} (h : SameLines s s')
    (h' : SameLines s' s'') : SameLines s s'' :=
  ⟨h'.1.trans h.1, h'.2.trans h.2, h'.3.trans h.3, h'.4.trans h.4⟩

theorem SameLines.after {s' s'' : PiProcess Body Value} (h : SameLines s' s'')
    (h' : SameLines s s') : SameLines s s'' :=
  h'.trans h

variable {s' : PiProcess Body Value}

theorem LeaseCustody.congr (h : LeaseCustody s) (hsame : SameLines s s') : LeaseCustody s' := by
  obtain ⟨hlines, hcounter, hleases, hcustody⟩ := hsame
  constructor
  · intro n
    simp only [leasesOf, endsOf, holdsLease, hleases, hcustody, hlines]
    exact h.balanced n
  · intro n
    simp only [leasesOf, hleases]
    exact h.single n
  · intro n
    simp only [leasesOf, hleases, hcounter, hlines]
    exact h.fresh n
  · intro n task
    simp only [leasesOf, hleases, hlines]
    exact h.running n task
  · rw [hlines]
    exact h.decoding

/-! ## The parts of a step -/

theorem sameLines_settle (s : PiProcess Body Value) (w : ℕ) (o : PromiseSettlement Body Value) :
    SameLines s (s.settle w o) := by
  unfold settle
  split <;> exact ⟨rfl, rfl, rfl, rfl⟩

theorem sameLines_clearSpawn (s : PiProcess Body Value) (spawn : ℕ) :
    SameLines s (s.clearSpawn spawn) := by
  unfold clearSpawn
  split <;> exact ⟨rfl, rfl, rfl, rfl⟩

theorem sameLines_rejectAll (s : PiProcess Body Value) : SameLines s s.rejectAll := by
  have hfold : ∀ (entries : List (ℕ × PendingRequest)) (s : PiProcess Body Value), SameLines s
      (entries.foldl (fun s entry => (s.clearTimer entry.1).settle entry.1 .rejected) s) := by
    intro entries
    induction entries with
    | nil => exact SameLines.rfl'
    | cons entry rest ih =>
      intro s
      refine SameLines.after (ih _) ?_
      exact SameLines.after (sameLines_settle _ _ _) ⟨rfl, rfl, rfl, rfl⟩
  exact (hfold s.pending.entries s).trans ⟨rfl, rfl, rfl, rfl⟩

theorem sameLines_beginUnexpectedFinalization (s : PiProcess Body Value) (spawn : ℕ) :
    SameLines s (s.beginUnexpectedFinalization spawn) := by
  unfold beginUnexpectedFinalization
  split
  · exact SameLines.rfl' s
  · split
    · exact SameLines.rfl' s
    · exact (sameLines_rejectAll s).trans ⟨rfl, rfl, rfl, rfl⟩

theorem sameLines_handleProtocolFailure (s : PiProcess Body Value) (spawn : ℕ) :
    SameLines s (s.handleProtocolFailure spawn) := by
  unfold handleProtocolFailure
  split
  · exact SameLines.rfl' s
  · exact sameLines_beginUnexpectedFinalization s spawn

theorem sameLines_writeFailed (s : PiProcess Body Value) (frame : QueuedFrame) :
    SameLines s (s.writeFailed frame) := by
  unfold writeFailed
  split
  · split
    · exact SameLines.rfl' s
    · exact SameLines.after (sameLines_settle _ _ _) ⟨rfl, rfl, rfl, rfl⟩
  · exact SameLines.rfl' s
  · exact sameLines_handleProtocolFailure s _

theorem sameLines_sendWith (s : PiProcess Body Value) (kind : PendingKind)
    (command : SessionCommandTypeDto) (publicId : String) :
    SameLines s (s.sendWith kind command publicId) := by
  unfold sendWith
  split
  · exact SameLines.rfl' s
  · split
    · exact SameLines.rfl' s
    · split <;> exact ⟨rfl, rfl, rfl, rfl⟩

theorem sameLines_resolvePending (s : PiProcess Body Value) (line : PiLine Body) (w : ℕ)
    (r : PendingRequest) : SameLines s (s.resolvePending decodeResponse line w r) := by
  unfold resolvePending
  split
  · exact SameLines.rfl' s
  · exact SameLines.after (sameLines_settle _ _ _) ⟨rfl, rfl, rfl, rfl⟩

theorem sameLines_rejectPending (s : PiProcess Body Value) (w : ℕ) (r : PendingRequest) :
    SameLines s (s.rejectPending w r) :=
  SameLines.after (sameLines_settle _ _ _) ⟨rfl, rfl, rfl, rfl⟩

/-! ## What is gone stays gone -/

/-- A later state. Spawns and wire ids are not used again, a spawn that was given up is not owned
again, and a request that left the pending table does not come back. -/
structure Ages (s s' : PiProcess Body Value) : Prop where
  spawns : s.spawns ≤ s'.spawns
  counter : s.wireRequestCounter ≤ s'.wireRequestCounter
  owns : ∀ k ≤ s.spawns, s'.ownsSpawn k = true → s.ownsSpawn k = true
  pending : ∀ w r, s'.pending.get? w = some r →
    s.pending.get? w = some r ∨ s.wireRequestCounter < w ∧ w ≤ s'.wireRequestCounter

theorem Ages.trans {s' s'' : PiProcess Body Value} (h : Ages s s') (h' : Ages s' s'') :
    Ages s s'' where
  spawns := Nat.le_trans h.spawns h'.spawns
  counter := Nat.le_trans h.counter h'.counter
  owns := fun k hle howns => h.owns k hle (h'.owns k (Nat.le_trans hle h.spawns) howns)
  pending := by
    intro w r hget
    have hcounter := h.counter
    have hcounter' := h'.counter
    rcases h'.pending w r hget with hget' | ⟨hlt, hle⟩
    · rcases h.pending w r hget' with hget'' | ⟨hlt, hle⟩
      · exact .inl hget''
      · exact .inr ⟨hlt, by omega⟩
    · exact .inr ⟨by omega, hle⟩

theorem Ages.of_pending (hspawns : s'.spawns = s.spawns)
    (hidentity : s'.spawnIdentity = s.spawnIdentity) (hstopped : s'.stopped = s.stopped)
    (hcounter : s'.wireRequestCounter = s.wireRequestCounter)
    (hpending : ∀ w r, s'.pending.get? w = some r → s.pending.get? w = some r) : Ages s s' where
  spawns := Nat.le_of_eq hspawns.symm
  counter := Nat.le_of_eq hcounter.symm
  owns := by
    intro k _ howns
    rw [← howns, ownsSpawn, ownsSpawn, hidentity, hstopped]
  pending := fun w r hget => .inl (hpending w r hget)

theorem Ages.of_owns (hspawns : s'.spawns = s.spawns)
    (hcounter : s'.wireRequestCounter = s.wireRequestCounter) (hpending : s'.pending = s.pending)
    (howns : ∀ k, s'.ownsSpawn k = true → s.ownsSpawn k = true) : Ages s s' where
  spawns := Nat.le_of_eq hspawns.symm
  counter := Nat.le_of_eq hcounter.symm
  owns := fun k _ => howns k
  pending := fun _ _ hget => .inl (hpending ▸ hget)

theorem Ages.rfl' (s : PiProcess Body Value) : Ages s s :=
  .of_owns rfl rfl rfl fun _ => id

theorem Ages.after {s' s'' : PiProcess Body Value} (h : Ages s' s'') (h' : Ages s s') :
    Ages s s'' :=
  h'.trans h

theorem ages_settle (s : PiProcess Body Value) (w : ℕ) (o : PromiseSettlement Body Value) :
    Ages s (s.settle w o) := by
  unfold settle
  split <;> exact .of_owns rfl rfl rfl fun _ => id

theorem ages_deletePending (s : PiProcess Body Value) (w : ℕ) (r : PendingRequest) :
    Ages s (s.deletePending w r) := by
  refine .of_pending rfl rfl rfl rfl ?_
  intro w' r' hget
  simp only [deletePending] at hget
  split at hget
  · rw [InsertionMap.get?_erase] at hget
    split at hget
    · cases hget
    · exact hget
  · exact hget

theorem ages_clearSpawn (s : PiProcess Body Value) (spawn : ℕ) : Ages s (s.clearSpawn spawn) := by
  unfold clearSpawn
  split
  · exact .of_owns rfl rfl rfl fun _ howns => nomatch howns
  · exact Ages.rfl' s

theorem ages_rejectAll (s : PiProcess Body Value) : Ages s s.rejectAll := by
  have hfold : ∀ (entries : List (ℕ × PendingRequest)) (s : PiProcess Body Value), Ages s
      (entries.foldl (fun s entry => (s.clearTimer entry.1).settle entry.1 .rejected) s) := by
    intro entries
    induction entries with
    | nil => exact Ages.rfl'
    | cons entry rest ih =>
      intro s
      refine Ages.after (ih _) ?_
      exact Ages.after (ages_settle _ _ _) (.of_owns rfl rfl rfl fun _ => id)
  exact (hfold s.pending.entries s).trans (.of_pending rfl rfl rfl rfl fun _ _ hget => nomatch hget)

theorem ages_beginUnexpectedFinalization (s : PiProcess Body Value) (spawn : ℕ) :
    Ages s (s.beginUnexpectedFinalization spawn) := by
  unfold beginUnexpectedFinalization
  split
  · exact Ages.rfl' s
  · split
    · exact Ages.rfl' s
    · refine (ages_rejectAll s).trans (.of_owns rfl rfl rfl ?_)
      intro k howns
      simp [ownsSpawn] at howns

theorem ages_handleProtocolFailure (s : PiProcess Body Value) (spawn : ℕ) :
    Ages s (s.handleProtocolFailure spawn) := by
  unfold handleProtocolFailure
  split
  · exact Ages.rfl' s
  · exact ages_beginUnexpectedFinalization s spawn

theorem ages_writeFailed (s : PiProcess Body Value) (frame : QueuedFrame) :
    Ages s (s.writeFailed frame) := by
  unfold writeFailed
  split
  · split
    · exact Ages.rfl' s
    · refine Ages.after (ages_settle _ _ _) (Ages.after (ages_deletePending _ _ _) ?_)
      exact .of_owns rfl rfl rfl fun _ => id
  · exact Ages.rfl' s
  · exact ages_handleProtocolFailure s _

theorem ages_sendWith (s : PiProcess Body Value) (kind : PendingKind)
    (command : SessionCommandTypeDto) (publicId : String) :
    Ages s (s.sendWith kind command publicId) := by
  unfold sendWith
  split
  · exact Ages.rfl' s
  · split
    · exact Ages.rfl' s
    · split
      · exact Ages.rfl' s
      · refine ⟨Nat.le_refl _, Nat.le_succ _, fun _ _ => id, ?_⟩
        intro w r hget
        simp only [InsertionMap.get?_insert] at hget
        split at hget
        · rename_i heq
          exact .inr ⟨by omega, Nat.le_of_eq heq⟩
        · exact .inl hget

theorem ages_resolvePending (s : PiProcess Body Value) (line : PiLine Body) (w : ℕ)
    (r : PendingRequest) : Ages s (s.resolvePending decodeResponse line w r) := by
  unfold resolvePending
  split
  · exact Ages.rfl' s
  · refine Ages.after (ages_settle _ _ _) ?_
    exact (ages_deletePending s w r).trans (.of_owns rfl rfl rfl fun _ => id)

theorem ages_rejectPending (s : PiProcess Body Value) (w : ℕ) (r : PendingRequest) :
    Ages s (s.rejectPending w r) := by
  refine Ages.after (ages_settle _ _ _) ?_
  exact (ages_deletePending s w r).trans (.of_owns rfl rfl rfl fun _ => id)

/-! ## The custody of the leases -/

variable {n : ℕ}

theorem LeaseCustody.setTask (h : LeaseCustody s) {task task' : LineTask Body}
    (hget : s.lines.get? n = some task) (hholds : task'.stage.holdsLease = task.stage.holdsLease)
    (hrunning : task'.decodingRuns = true → task.decodingRuns = true)
    (hdecoding : task'.stage = .decoding → task'.decodingRuns = true) :
    LeaseCustody { s with lines := s.lines.insert n task' } := by
  constructor
  · intro n'
    have hbalanced := h.balanced n'
    simp only [leasesOf, endsOf, holdsLease, InsertionMap.get?_insert] at hbalanced ⊢
    split
    · rename_i heq
      rw [heq, hget] at hbalanced
      rw [heq]
      simpa [hholds] using hbalanced
    · exact hbalanced
  · exact h.single
  · intro n' hle
    obtain ⟨hnone, hzero⟩ := h.fresh n' hle
    have hne : n' ≠ n := by
      rintro rfl
      rw [hget] at hnone
      cases hnone
    exact ⟨(InsertionMap.get?_insert_of_ne _ hne _).trans hnone, hzero⟩
  · intro n' task'' hget' hruns
    simp only [InsertionMap.get?_insert] at hget'
    split at hget'
    · rename_i heq
      cases hget'
      rw [hholds, heq]
      exact h.running n task hget (hrunning hruns)
    · exact h.running n' task'' hget' hruns
  · intro n' task'' hget' hstage
    simp only [InsertionMap.get?_insert] at hget'
    split at hget'
    · cases hget'
      exact hdecoding hstage
    · exact h.decoding n' task'' hget' hstage

variable {task : LineTask Body}

theorem LeaseCustody.endLease (h : LeaseCustody s)
    (hget : s.lines.get? n = some task) {outcome : DecodeOutcome}
    (hholds : task.stage.holdsLease = outcome.lease) (stage : HandlerStage)
    (hstage : stage.holdsLease = false) (hdecoding : stage ≠ .decoding) (event : CustodyEvent) :
    LeaseCustody ((s.setStage n task stage).endCustody n outcome event) := by
  unfold endCustody
  split
  · rename_i hlease
    rw [hlease] at hholds
    have hidle : task.decodingRuns = true → False := by
      intro hruns
      rw [(h.running n task hget hruns).2] at hholds
      cases hholds
    constructor
    · intro n'
      have hbalanced := h.balanced n'
      simp only [leasesOf, endsOf, holdsLease, setStage, InsertionMap.get?_insert, List.map_append,
        List.count_append, List.map_cons, List.map_nil] at hbalanced ⊢
      by_cases heq : n' = n
      · rw [heq, hget] at hbalanced
        rw [heq]
        simp [hholds, hstage] at hbalanced ⊢
        exact hbalanced
      · simp only [if_neg heq, List.count_cons_of_ne (Ne.symm heq), List.count_nil, Nat.add_zero]
        exact hbalanced
    · exact h.single
    · intro n' hle
      obtain ⟨hnone, hzero⟩ := h.fresh n' hle
      have hne : n' ≠ n := by
        rintro rfl
        rw [hget] at hnone
        cases hnone
      exact ⟨(InsertionMap.get?_insert_of_ne _ hne _).trans hnone, hzero⟩
    · intro n' task'' hget' hruns
      simp only [setStage, InsertionMap.get?_insert] at hget'
      split at hget'
      · cases hget'
        exact (hidle hruns).elim
      · exact h.running n' task'' hget' hruns
    · intro n' task'' hget' hstage'
      simp only [setStage, InsertionMap.get?_insert] at hget'
      split at hget'
      · cases hget'
        exact absurd hstage' hdecoding
      · exact h.decoding n' task'' hget' hstage'
  · rename_i hlease
    rw [Bool.not_eq_true] at hlease
    rw [hlease] at hholds
    exact h.setTask hget (hstage.trans hholds.symm) id fun heq => absurd heq hdecoding

theorem LeaseCustody.readLine (h : LeaseCustody s) (line : PiLine Body) :
    LeaseCustody (s.readLine line) := by
  obtain ⟨hnone, hzero⟩ := h.fresh s.lineCounter (Nat.le_refl _)
  constructor
  · intro n
    have hbalanced := h.balanced n
    simp only [leasesOf, endsOf, holdsLease, PiProcess.readLine, InsertionMap.get?_insert]
      at hbalanced ⊢
    split
    · rename_i heq
      rw [heq, hnone] at hbalanced
      rw [heq]
      exact hbalanced
    · exact hbalanced
  · exact h.single
  · intro n hle
    have hle' : s.lineCounter + 1 ≤ n := hle
    obtain ⟨hnone', hzero'⟩ := h.fresh n (by omega)
    exact ⟨(InsertionMap.get?_insert_of_ne _ (by omega) _).trans hnone', hzero'⟩
  · intro n task hget hruns
    simp only [PiProcess.readLine, InsertionMap.get?_insert] at hget
    split at hget
    · rename_i heq
      cases hget
      rw [heq]
      exact ⟨hzero, rfl⟩
    · exact h.running n task hget hruns
  · intro n task hget hstage
    simp only [PiProcess.readLine, InsertionMap.get?_insert] at hget
    split at hget
    · cases hget
      rfl
    · exact h.decoding n task hget hstage

theorem LeaseCustody.abortDecoding (h : LeaseCustody s) (n : ℕ) (deadline : Bool) :
    LeaseCustody (s.abortDecoding n deadline) := by
  unfold PiProcess.abortDecoding
  split
  · exact h
  · rename_i task hget
    split
    · rename_i hstage
      exact h.setTask hget (by rw [hstage]; rfl) id fun heq => nomatch heq
    · exact h

/-- A lease arrives with the outcome of a running operation. The task holds it, or it ends in
the same step. -/
theorem LeaseCustody.arrive (h : LeaseCustody s)
    (hget : s.lines.get? n = some task) (hruns : task.decodingRuns = true) (stage : HandlerStage)
    (hstage : stage ≠ .decoding) (ended : List CustodyEvent)
    (hended : ended.length + stage.holdsLease.toNat = 1) :
    LeaseCustody { s with
      leases := s.leases ++ [n]
      custody := s.custody ++ ended.map (n, ·)
      lines := s.lines.insert n { task with decodingRuns := false, stage := stage } } := by
  obtain ⟨hzero, hfree⟩ := h.running n task hget hruns
  have hcount : ∀ n', ((ended.map (n, ·)).map Prod.fst).count n' =
      if n' = n then ended.length else 0 := by
    intro n'
    have hfst : (ended.map (n, ·)).map Prod.fst = List.replicate ended.length n := by
      clear hended
      induction ended with
      | nil => rfl
      | cons event rest ih =>
        rw [List.map_cons, List.map_cons, List.length_cons, List.replicate_succ, ih]
    rw [hfst, List.count_replicate]
    by_cases heq : n' = n
    · simp [heq]
    · simp [heq, Ne.symm heq]
  have hleases : ∀ n', (s.leases ++ [n]).count n' =
      s.leases.count n' + if n' = n then 1 else 0 := by
    intro n'
    rw [List.count_append]
    by_cases heq : n' = n
    · simp [heq]
    · simp [heq, List.count_cons_of_ne (Ne.symm heq)]
  constructor
  · intro n'
    have hbalanced := h.balanced n'
    simp only [leasesOf, endsOf, holdsLease, InsertionMap.get?_insert, List.map_append,
      List.count_append, hcount] at hbalanced ⊢
    rw [← List.count_append, hleases]
    by_cases heq : n' = n
    · rw [heq, hget] at hbalanced
      simp only [heq, if_true, Option.any_some, hfree, Bool.toNat_false] at hbalanced ⊢
      omega
    · simp only [if_neg heq]
      exact hbalanced
  · intro n'
    simp only [leasesOf, hleases]
    have hsingle := h.single n'
    simp only [leasesOf] at hsingle hzero
    split
    · rename_i heq
      rw [heq, hzero]
    · exact hsingle
  · intro n' hle
    obtain ⟨hnone, hzero'⟩ := h.fresh n' hle
    have hne : n' ≠ n := by
      rintro rfl
      rw [hget] at hnone
      cases hnone
    refine ⟨(InsertionMap.get?_insert_of_ne _ hne _).trans hnone, ?_⟩
    simp only [leasesOf, hleases, if_neg hne]
    exact hzero'
  · intro n' task' hget' hruns'
    simp only [InsertionMap.get?_insert] at hget'
    split at hget'
    · cases hget'
      cases hruns'
    · rename_i hne
      obtain ⟨hzero', hfree'⟩ := h.running n' task' hget' hruns'
      refine ⟨?_, hfree'⟩
      simp only [leasesOf, hleases, if_neg hne]
      exact hzero'
  · intro n' task' hget' hstage'
    simp only [InsertionMap.get?_insert] at hget'
    split at hget'
    · cases hget'
      exact absurd hstage' hstage
    · exact h.decoding n' task' hget' hstage'

/-- The outcome of a running operation brings its lease, and a task that no longer awaits it
releases the lease at once. -/
theorem LeaseCustody.settleDecoding (h : LeaseCustody s) (n : ℕ)
    (result : Except Bool DecodeOutcome) :
    LeaseCustody (s.settleDecoding decodeResponse n result) := by
  unfold PiProcess.settleDecoding
  split
  · exact h
  · rename_i task hget
    split
    · rename_i hruns
      obtain ⟨hzero, hfree⟩ := h.running n task hget hruns
      simp only
      cases result with
      | error externalization =>
        simp only
        split
        · rename_i hstage
          exact h.setTask hget (by rw [hstage]; rfl) (fun _ => hruns) fun heq => nomatch heq
        · rename_i hstage
          exact h.setTask hget rfl (fun _ => hruns) fun heq => absurd heq hstage
      | ok outcome =>
        simp only
        cases hlease : outcome.lease with
        | false =>
          have htake : s.takeLease n outcome = s := by simp [takeLease, hlease]
          rw [htake]
          split
          · split
            · exact h.setTask hget (hlease.trans hfree.symm) (fun _ => hruns)
                fun heq => nomatch heq
            · rename_i hstage
              simp only [releaseOutcome, endCustody, hlease, Bool.false_eq_true, if_false]
              exact h.setTask hget rfl (fun _ => hruns) fun heq => absurd heq hstage
          · exact h
        | true =>
          have htake : s.takeLease n outcome = { s with leases := s.leases ++ [n] } := by
            simp [takeLease, hlease]
          rw [htake]
          split
          · split
            · -- the task awaited the outcome and now holds its lease
              have harrive := h.arrive hget hruns (.resolved outcome) (fun heq => nomatch heq) []
                (by simp [HandlerStage.holdsLease, hlease])
              rw [List.map_nil, List.append_nil] at harrive
              exact harrive
            · -- the deadline or the abort came first
              rename_i hstage
              have harrive := h.arrive hget hruns task.stage hstage [.leaseReleased]
                (by simp [hfree])
              simp only [releaseOutcome, endCustody, hlease, if_true]
              exact harrive
          · exact h
    · exact h

/-- What the handling of a line can do when it goes on: the stages before and after, and the end
of the lease, if the outcome carries one. -/
inductive LineMove (current : Bool) :
    HandlerStage → HandlerStage → Option (DecodeOutcome × CustodyEvent) → Prop
  | failed (externalization : Bool) : LineMove current (.failed externalization) .ended none
  | released (outcome : DecodeOutcome) :
    LineMove current (.resolved outcome) .ended (some (outcome, .leaseReleased))
  | answered (outcome : DecodeOutcome) (hcurrent : current = true)
    (hlease : outcome.lease = false) : LineMove current (.resolved outcome) .ended none
  | planned (outcome : DecodeOutcome) (hcurrent : current = true) :
    LineMove current (.resolved outcome) (.planned outcome) none
  | withdrawn (outcome : DecodeOutcome) :
    LineMove current (.planned outcome) .ended (some (outcome, .leaseReleased))
  | transferred (outcome : DecodeOutcome) (hcurrent : current = true) :
    LineMove current (.planned outcome) (.transferred outcome) none
  | stale (outcome : DecodeOutcome) (hcurrent : current = false) :
    LineMove current (.transferred outcome) .ended (some (outcome, .staleTransferReleased))
  | adopted (outcome : DecodeOutcome) (hcurrent : current = true) :
    LineMove current (.transferred outcome) .committed (some (outcome, .adopted))
  | refused (outcome : DecodeOutcome) (hcurrent : current = true) :
    LineMove current (.transferred outcome) .ended (some (outcome, .failedTransferReleased))
  | delivered : LineMove current .committed .ended none

/-- The lines and the leases after a move. -/
def moved (s : PiProcess Body Value) (n : ℕ) (task : LineTask Body) (stage : HandlerStage)
    (ended : Option (DecodeOutcome × CustodyEvent)) : PiProcess Body Value :=
  match ended with
  | none => s.setStage n task stage
  | some (outcome, event) => (s.setStage n task stage).endCustody n outcome event

theorem continueLine_moves (decodeResponse : SessionCommandTypeDto → Body → Option Value)
    (hget : s.lines.get? n = some task) (opts : PiProcessOptions)
    (answer : ConsumerAnswer) (succeeds : Bool) :
    (task.stage = .decoding ∨ task.stage = .ended) ∧
        s.continueLine decodeResponse opts n answer succeeds = s ∨
      ∃ stage ended, LineMove (s.isCurrent task) task.stage stage ended ∧
        SameLines (s.moved n task stage ended)
          (s.continueLine decodeResponse opts n answer succeeds) ∧
        Ages (s.moved n task stage ended)
          (s.continueLine decodeResponse opts n answer succeeds) := by
  unfold PiProcess.continueLine
  rw [hget]
  simp only
  have hoffer : ∀ outcome, s.isCurrent task = true → task.stage = .resolved outcome →
      ∃ stage ended, LineMove (s.isCurrent task) task.stage stage ended ∧
        SameLines (s.moved n task stage ended) (s.offer n task outcome answer) ∧
        Ages (s.moved n task stage ended) (s.offer n task outcome answer) := by
    intro outcome hcurrent hstage
    rw [hstage]
    unfold PiProcess.offer
    split
    · exact ⟨_, _, .planned outcome hcurrent, SameLines.rfl' _, Ages.rfl' _⟩
    · exact ⟨_, _, .released outcome, SameLines.rfl' _, Ages.rfl' _⟩
  cases hstage : task.stage with
  | decoding => exact .inl ⟨.inl rfl, rfl⟩
  | ended => exact .inl ⟨.inr rfl, rfl⟩
  | failed externalization =>
    refine .inr ⟨_, _, .failed externalization, ?_⟩
    simp only
    split
    · split
      · exact ⟨sameLines_rejectPending _ _ _, ages_rejectPending _ _ _⟩
      · exact ⟨SameLines.rfl' _, Ages.rfl' _⟩
    · exact ⟨SameLines.rfl' _, Ages.rfl' _⟩
  | resolved outcome =>
    have hrelease : ∃ stage ended, LineMove (s.isCurrent task) (.resolved outcome) stage ended ∧
        SameLines (s.moved n task stage ended)
          ((s.setStage n task .ended).releaseOutcome n outcome) ∧
        Ages (s.moved n task stage ended)
          ((s.setStage n task .ended).releaseOutcome n outcome) :=
      ⟨_, _, .released outcome, SameLines.rfl' _, Ages.rfl' _⟩
    have hoffer' := hoffer outcome
    rw [hstage] at hoffer'
    refine .inr ?_
    simp only
    split
    · exact hrelease
    · exact hrelease
    · split
      · exact hrelease
      · rename_i hcurrent
        rw [Bool.not_eq_true, Bool.not_eq_false'] at hcurrent
        split
        · exact hoffer' hcurrent rfl
        · split
          · exact hrelease
          · rename_i hlease
            rw [Bool.not_eq_true] at hlease
            exact ⟨_, _, .answered outcome hcurrent hlease, sameLines_resolvePending _ _ _ _,
              ages_resolvePending _ _ _ _⟩
    · split
      · exact hrelease
      · rename_i hgoes
        simp only [Bool.or_eq_true, Bool.not_eq_true', not_or, Bool.not_eq_false] at hgoes
        split
        · exact hoffer' hgoes.1 rfl
        · exact hrelease
  | planned outcome =>
    refine .inr ?_
    simp only
    split
    · rename_i hgoes
      rw [Bool.and_eq_true] at hgoes
      exact ⟨_, _, .transferred outcome hgoes.1, SameLines.rfl' _, Ages.rfl' _⟩
    · exact ⟨_, _, .withdrawn outcome, SameLines.rfl' _, Ages.rfl' _⟩
  | transferred outcome =>
    refine .inr ?_
    simp only
    split
    · rename_i hcurrent
      rw [Bool.not_eq_true'] at hcurrent
      exact ⟨_, _, .stale outcome hcurrent, SameLines.rfl' _, Ages.rfl' _⟩
    · rename_i hcurrent
      rw [Bool.not_eq_true, Bool.not_eq_false'] at hcurrent
      split
      · exact ⟨_, _, .adopted outcome hcurrent, SameLines.rfl' _, Ages.rfl' _⟩
      · exact ⟨_, _, .refused outcome hcurrent, SameLines.rfl' _, Ages.rfl' _⟩
  | committed =>
    refine .inr ⟨_, _, .delivered, ?_⟩
    simp only
    split
    · split
      · exact ⟨sameLines_resolvePending _ _ _ _, ages_resolvePending _ _ _ _⟩
      · exact ⟨SameLines.rfl' _, Ages.rfl' _⟩
    · exact ⟨SameLines.rfl' _, Ages.rfl' _⟩

variable {ended : Option (DecodeOutcome × CustodyEvent)}

theorem LeaseCustody.moved (h : LeaseCustody s)
    (hget : s.lines.get? n = some task) {current : Bool} {stage : HandlerStage}
    (hmove : LineMove current task.stage stage ended) :
    LeaseCustody (s.moved n task stage ended) := by
  generalize hfrom : task.stage = before at hmove
  have hset : ∀ after : HandlerStage, after.holdsLease = before.holdsLease →
      after ≠ .decoding → LeaseCustody (s.setStage n task after) := by
    intro after hholds hne
    exact h.setTask hget (hholds.trans (by rw [hfrom])) id fun heq => absurd heq hne
  have hend : ∀ (after : HandlerStage) (outcome : DecodeOutcome) (event : CustodyEvent),
      before.holdsLease = outcome.lease → after.holdsLease = false → after ≠ .decoding →
      LeaseCustody ((s.setStage n task after).endCustody n outcome event) := by
    intro after outcome event hholds hafter hne
    exact h.endLease hget (by rw [hfrom, hholds]) after hafter hne event
  cases hmove with
  | failed externalization => exact hset _ rfl (fun heq => nomatch heq)
  | released outcome => exact hend _ _ _ rfl rfl (fun heq => nomatch heq)
  | answered outcome hcurrent hlease => exact hset _ hlease.symm (fun heq => nomatch heq)
  | planned outcome hcurrent => exact hset _ rfl (fun heq => nomatch heq)
  | withdrawn outcome => exact hend _ _ _ rfl rfl (fun heq => nomatch heq)
  | transferred outcome hcurrent => exact hset _ rfl (fun heq => nomatch heq)
  | stale outcome hcurrent => exact hend _ _ _ rfl rfl (fun heq => nomatch heq)
  | adopted outcome hcurrent => exact hend _ _ _ rfl rfl (fun heq => nomatch heq)
  | refused outcome hcurrent => exact hend _ _ _ rfl rfl (fun heq => nomatch heq)
  | delivered => exact hset _ rfl (fun heq => nomatch heq)

theorem LeaseCustody.continueLine (h : LeaseCustody s) (opts : PiProcessOptions) (n : ℕ)
    (answer : ConsumerAnswer) (succeeds : Bool) :
    LeaseCustody (s.continueLine decodeResponse opts n answer succeeds) := by
  cases hget : s.lines.get? n with
  | none =>
    unfold PiProcess.continueLine
    rw [hget]
    exact h
  | some task =>
    rcases continueLine_moves decodeResponse hget opts answer succeeds with
      ⟨-, heq⟩ | ⟨stage, ended, hmove, hsame, -⟩
    · rw [heq]
      exact h
    · exact (h.moved hget hmove).congr hsame

/-- The action handles a line. -/
def handlesLine : PiProcessAction Body → Bool
  | .readLine _ | .abortDecoding _ _ | .settleDecoding _ _ | .continueLine _ _ _ => true
  | _ => false

theorem sameLines_step (opts : PiProcessOptions) (s : PiProcess Body Value)
    (a : PiProcessAction Body) (ha : handlesLine a = false) :
    SameLines s (s.step decodeResponse opts a) := by
  cases a with
  | start =>
    simp only [PiProcess.step, PiProcess.start]
    split
    · exact SameLines.rfl' s
    · exact SameLines.after (sameLines_sendWith _ _ _ _) ⟨rfl, rfl, rfl, rfl⟩
  | handshakeFailed => exact ⟨rfl, rfl, rfl, rfl⟩
  | send command publicId => exact sameLines_sendWith s _ _ _
  | sendDecoded command publicId =>
    simp only [PiProcess.step, PiProcess.sendDecoded]
    split
    · exact sameLines_sendWith s _ _ _
    · exact SameLines.rfl' s
  | sendNoResponse => exact ⟨rfl, rfl, rfl, rfl⟩
  | timeout w =>
    simp only [PiProcess.step, PiProcess.timeout]
    split
    · refine SameLines.after (sameLines_settle _ _ _) ?_
      split <;> exact ⟨rfl, rfl, rfl, rfl⟩
    · exact SameLines.rfl' s
  | writeNext writable full =>
    simp only [PiProcess.step, PiProcess.writeNext]
    split
    · split
      · exact SameLines.after (sameLines_writeFailed _ _) ⟨rfl, rfl, rfl, rfl⟩
      · split
        · exact ⟨rfl, rfl, rfl, rfl⟩
        · exact SameLines.after (sameLines_writeFailed _ _) ⟨rfl, rfl, rfl, rfl⟩
    · exact SameLines.rfl' s
  | drained failed =>
    simp only [PiProcess.step, PiProcess.drained]
    split
    · exact SameLines.rfl' s
    · split
      · exact SameLines.after (sameLines_writeFailed _ _) ⟨rfl, rfl, rfl, rfl⟩
      · exact ⟨rfl, rfl, rfl, rfl⟩
  | exited spawn =>
    simp only [PiProcess.step, PiProcess.exited]
    split
    · refine SameLines.after (sameLines_clearSpawn _ spawn) ?_
      exact SameLines.after (sameLines_rejectAll _) ⟨rfl, rfl, rfl, rfl⟩
    · exact ⟨rfl, rfl, rfl, rfl⟩
  | unexpectedFinalization spawn => exact sameLines_beginUnexpectedFinalization s spawn
  | finishUnexpectedFinalization spawn =>
    simp only [PiProcess.step, PiProcess.finishUnexpectedFinalization]
    split
    · exact (sameLines_clearSpawn s spawn).trans ⟨rfl, rfl, rfl, rfl⟩
    · exact SameLines.rfl' s
  | protocolFailure spawn => exact sameLines_handleProtocolFailure s spawn
  | stop => exact ⟨rfl, rfl, rfl, rfl⟩
  | finishStop spawn =>
    exact ((sameLines_clearSpawn s spawn).trans (sameLines_rejectAll _)).trans
      ⟨rfl, rfl, rfl, rfl⟩
  | readLine line => cases ha
  | abortDecoding n deadline => cases ha
  | settleDecoding n result => cases ha
  | continueLine n answer succeeds => cases ha

theorem LeaseCustody.step (opts : PiProcessOptions) (s : PiProcess Body Value)
    (a : PiProcessAction Body) (h : LeaseCustody s) :
    LeaseCustody (s.step decodeResponse opts a) := by
  cases a with
  | readLine line =>
    simp only [PiProcess.step]
    split
    · exact h.readLine line
    · exact h
  | abortDecoding n deadline => exact h.abortDecoding n deadline
  | settleDecoding n result => exact h.settleDecoding n result
  | continueLine n answer succeeds => exact h.continueLine opts n answer succeeds
  | _ => exact h.congr (sameLines_step opts s _ rfl)

/-! ## The task of a line -/

/-- What a step leaves of the task of a line. If its spawn or its request is gone, the outcome is
not offered, and its lease can only be released. -/
structure TaskKept (s s' : PiProcess Body Value) (n : ℕ) (task task' : LineTask Body) : Prop where
  line : task'.line = task.line
  route : task'.route = task.route
  stepsLeft : task'.stage.stepsLeft ≤ task.stage.stepsLeft
  offered : s.isCurrent task = false → task'.stage.offered = true → task.stage.offered = true
  custody : s.isCurrent task = false → ∀ event, (n, event) ∈ s'.custody →
    (n, event) ∈ s.custody ∨ event = .leaseReleased ∨
      task.stage.offered = true ∧ event = .staleTransferReleased
  leases : s.leasesOf n ≤ s'.leasesOf n

/-- A step keeps the tasks, and a task it adds answers a pending request, if any. -/
structure KeepsTasks (s s' : PiProcess Body Value) : Prop where
  kept : ∀ n task, s.lines.get? n = some task →
    ∃ task', s'.lines.get? n = some task' ∧ TaskKept s s' n task task'
  added : ∀ n task, s'.lines.get? n = some task → s.lines.get? n = none →
    task.line.spawn ≤ s.spawns ∧ ∀ w r, task.route = .pending w r → s.pending.get? w = some r

theorem KeepsTasks.of_same (h : SameLines s s') : KeepsTasks s s' where
  kept := by
    intro n task hget
    refine ⟨task, by rw [h.lines, hget], ⟨rfl, rfl, Nat.le_refl _, fun _ => id, ?_, ?_⟩⟩
    · intro _ event hmem
      rw [h.custody] at hmem
      exact .inl hmem
    · rw [leasesOf, leasesOf, h.leases]
  added := by
    intro n task hget hnone
    rw [h.lines, hnone] at hget
    cases hget

theorem KeepsTasks.congr {s' s'' : PiProcess Body Value} (h : KeepsTasks s s')
    (hsame : SameLines s' s'') : KeepsTasks s s'' where
  kept := by
    intro n task hget
    obtain ⟨task', hget', hkept⟩ := h.kept n task hget
    refine ⟨task', by rw [hsame.lines, hget'], ⟨hkept.line, hkept.route, hkept.stepsLeft,
      hkept.offered, ?_, ?_⟩⟩
    · rw [hsame.custody]
      exact hkept.custody
    · rw [leasesOf, leasesOf, hsame.leases]
      exact hkept.leases
  added := by
    intro n task hget hnone
    rw [hsame.lines] at hget
    exact h.added n task hget hnone

theorem KeepsTasks.of_insert {task task' : LineTask Body}
    (hget : s.lines.get? n = some task) (hlines : s'.lines = s.lines.insert n task')
    (hkept : TaskKept s s' n task task')
    (hothers : ∀ m event, m ≠ n → (m, event) ∈ s'.custody → (m, event) ∈ s.custody)
    (hleases : ∀ m, s.leasesOf m ≤ s'.leasesOf m) : KeepsTasks s s' where
  kept := by
    intro m task'' hget'
    by_cases heq : m = n
    · rw [heq, hget] at hget'
      cases hget'
      refine ⟨task', ?_, heq ▸ hkept⟩
      rw [hlines, heq, InsertionMap.get?_insert_self]
    · refine ⟨task'', ?_, ⟨rfl, rfl, Nat.le_refl _, fun _ => id, ?_, hleases m⟩⟩
      · rw [hlines, InsertionMap.get?_insert_of_ne _ heq, hget']
      · exact fun _ event hmem => .inl (hothers m event heq hmem)
  added := by
    intro m task'' hget' hnone
    have hne : m ≠ n := by
      rintro rfl
      rw [hget] at hnone
      cases hnone
    rw [hlines, InsertionMap.get?_insert_of_ne _ hne, hnone] at hget'
    cases hget'

theorem lines_moved (s : PiProcess Body Value) (n : ℕ) (task : LineTask Body)
    (stage : HandlerStage) (ended : Option (DecodeOutcome × CustodyEvent)) :
    (s.moved n task stage ended).lines = s.lines.insert n { task with stage := stage } := by
  unfold moved endCustody
  split
  · rfl
  · split <;> rfl

theorem leases_moved (s : PiProcess Body Value) (n : ℕ) (task : LineTask Body)
    (stage : HandlerStage) (ended : Option (DecodeOutcome × CustodyEvent)) :
    (s.moved n task stage ended).leases = s.leases := by
  unfold moved endCustody
  split
  · rfl
  · split <;> rfl

theorem mem_custody_moved {stage : HandlerStage} {entry : ℕ × CustodyEvent}
    (h : entry ∈ (s.moved n task stage ended).custody) :
    entry ∈ s.custody ∨ ∃ outcome event, ended = some (outcome, event) ∧ entry = (n, event) := by
  unfold moved endCustody at h
  split at h
  · exact .inl h
  · rename_i outcome event
    split at h
    · rcases List.mem_append.mp h with hmem | hmem
      · exact .inl hmem
      · exact .inr ⟨outcome, event, rfl, List.mem_singleton.mp hmem⟩
    · exact .inl h

theorem ages_moved (s : PiProcess Body Value) (n : ℕ) (task : LineTask Body)
    (stage : HandlerStage) (ended : Option (DecodeOutcome × CustodyEvent)) :
    Ages s (s.moved n task stage ended) := by
  unfold moved endCustody
  split
  · exact .of_owns rfl rfl rfl fun _ => id
  · split <;> exact .of_owns rfl rfl rfl fun _ => id

theorem LineMove.stepsLeft_lt {current : Bool} {before after : HandlerStage}
    (h : LineMove current before after ended) :
    after.stepsLeft ≤ before.stepsLeft - 1 := by
  cases h <;> simp [HandlerStage.stepsLeft]

/-- Without its spawn or its request, an outcome is not offered and not adopted. -/
theorem LineMove.stale_only {before after : HandlerStage} (h : LineMove false before after ended) :
    (after.offered = true → before.offered = true) ∧
      ∀ outcome event, ended = some (outcome, event) → event = .leaseReleased ∨
        before.offered = true ∧ event = .staleTransferReleased := by
  cases h with
  | failed externalization => exact ⟨id, fun _ _ heq => nomatch heq⟩
  | released outcome =>
    refine ⟨id, ?_⟩
    rintro _ _ ⟨⟩
    exact .inl rfl
  | withdrawn outcome =>
    refine ⟨(fun heq => nomatch heq), ?_⟩
    rintro _ _ ⟨⟩
    exact .inl rfl
  | stale outcome hcurrent =>
    refine ⟨(fun heq => nomatch heq), ?_⟩
    rintro _ _ ⟨⟩
    exact .inr ⟨rfl, rfl⟩
  | delivered => exact ⟨(fun heq => nomatch heq), fun _ _ heq => nomatch heq⟩
  | answered outcome hcurrent hlease => cases hcurrent
  | planned outcome hcurrent => cases hcurrent
  | transferred outcome hcurrent => cases hcurrent
  | adopted outcome hcurrent => cases hcurrent
  | refused outcome hcurrent => cases hcurrent

theorem keepsTasks_moved (hget : s.lines.get? n = some task) {stage : HandlerStage}
    (hmove : LineMove (s.isCurrent task) task.stage stage ended) :
    KeepsTasks s (s.moved n task stage ended) := by
  have hleases : ∀ m, s.leasesOf m ≤ (s.moved n task stage ended).leasesOf m := by
    intro m
    rw [leasesOf, leasesOf, leases_moved]
  refine .of_insert hget (lines_moved s n task stage ended) ?_ ?_ hleases
  · refine ⟨rfl, rfl, ?_, ?_, ?_, hleases n⟩
    · exact Nat.le_trans hmove.stepsLeft_lt (Nat.sub_le _ _)
    · intro hstale
      rw [hstale] at hmove
      exact hmove.stale_only.1
    · intro hstale event hmem
      rw [hstale] at hmove
      rcases mem_custody_moved hmem with hmem' | ⟨outcome, event', hended, heq⟩
      · exact .inl hmem'
      · cases heq
        exact .inr (hmove.stale_only.2 outcome event hended)
  · intro m event hne hmem
    rcases mem_custody_moved hmem with hmem' | ⟨outcome, event', hended, heq⟩
    · exact hmem'
    · cases heq
      exact absurd rfl hne

/-- What the end of a decoding can do: the stages before and after, and what becomes of a lease
that comes with it. -/
inductive DecodingMove (n : ℕ) :
    HandlerStage → HandlerStage → List ℕ → List (ℕ × CustodyEvent) → Prop
  | awaited (outcome : DecodeOutcome) (leases : List ℕ) :
    DecodingMove n .decoding (.resolved outcome) leases []
  | failed (externalization : Bool) :
    DecodingMove n .decoding (.failed externalization) [] []
  | late (stage : HandlerStage) (leases : List ℕ) : DecodingMove n stage stage leases []
  | discarded (stage : HandlerStage) (leases : List ℕ) :
    DecodingMove n stage stage leases [(n, .leaseReleased)]

theorem DecodingMove.spec {before after : HandlerStage} {leases : List ℕ}
    {custody : List (ℕ × CustodyEvent)} (h : DecodingMove n before after leases custody) :
    after.stepsLeft ≤ before.stepsLeft ∧ (after.offered = true → before.offered = true) ∧
      ∀ m event, (m, event) ∈ custody → m = n ∧ event = .leaseReleased := by
  cases h with
  | awaited outcome leases =>
    exact ⟨by simp [HandlerStage.stepsLeft], (fun heq => nomatch heq), fun _ _ h => nomatch h⟩
  | failed externalization =>
    exact ⟨Nat.zero_le _, (fun heq => nomatch heq), fun _ _ h => nomatch h⟩
  | late stage leases => exact ⟨Nat.le_refl _, id, fun _ _ h => nomatch h⟩
  | discarded stage leases =>
    refine ⟨Nat.le_refl _, id, ?_⟩
    intro m event hmem
    cases List.mem_singleton.mp hmem
    exact ⟨rfl, rfl⟩

theorem settleDecoding_moves (decodeResponse : SessionCommandTypeDto → Body → Option Value)
    (hget : s.lines.get? n = some task) (result : Except Bool DecodeOutcome) :
    s.settleDecoding decodeResponse n result = s ∨
      ∃ stage leases custody, DecodingMove n task.stage stage leases custody ∧
        s.settleDecoding decodeResponse n result =
          { s with
            lines := s.lines.insert n { task with decodingRuns := false, stage := stage }
            leases := s.leases ++ leases
            custody := s.custody ++ custody } := by
  unfold PiProcess.settleDecoding
  rw [hget]
  simp only
  split
  · rw [or_iff_not_imp_left]
    intro hchanges
    cases result with
    | error externalization =>
      simp only
      split
      · rename_i hstage
        rw [hstage]
        refine ⟨_, _, _, .failed externalization, ?_⟩
        simp [setStage]
      · refine ⟨_, _, _, .late task.stage [], ?_⟩
        simp [setStage]
    | ok outcome =>
      simp only at hchanges ⊢
      split
      · split
        · rename_i hstage
          rw [hstage]
          cases hlease : outcome.lease with
          | false =>
            refine ⟨_, _, _, .awaited outcome [], ?_⟩
            simp [setStage, takeLease, hlease]
          | true =>
            refine ⟨_, _, _, .awaited outcome [n], ?_⟩
            simp [setStage, takeLease, hlease]
        · cases hlease : outcome.lease with
          | false =>
            refine ⟨_, _, _, .late task.stage [], ?_⟩
            simp [setStage, takeLease, releaseOutcome, endCustody, hlease]
          | true =>
            refine ⟨_, _, _, .discarded task.stage [n], ?_⟩
            simp [setStage, takeLease, releaseOutcome, endCustody, hlease]
      · rename_i hdecodes
        rw [if_neg hdecodes] at hchanges
        exact absurd rfl hchanges
  · exact .inl rfl

theorem keepsTasks_settleDecoding (s : PiProcess Body Value) (n : ℕ)
    (result : Except Bool DecodeOutcome) :
    KeepsTasks s (s.settleDecoding decodeResponse n result) := by
  cases hget : s.lines.get? n with
  | none =>
    unfold PiProcess.settleDecoding
    rw [hget]
    exact .of_same (SameLines.rfl' s)
  | some task =>
    rcases settleDecoding_moves decodeResponse hget result with
      heq | ⟨stage, leases, custody, hmove, heq⟩
    · rw [heq]
      exact .of_same (SameLines.rfl' s)
    · rw [heq]
      have hleases : ∀ m, s.leases.count m ≤ (s.leases ++ leases).count m := by
        intro m
        rw [List.count_append]
        exact Nat.le_add_right _ _
      obtain ⟨hsteps, hoffered, hcustody⟩ := hmove.spec
      refine .of_insert hget rfl ⟨rfl, rfl, hsteps, fun _ => hoffered, ?_, hleases n⟩ ?_ hleases
      · intro _ event hmem
        rcases List.mem_append.mp hmem with hmem' | hmem'
        · exact .inl hmem'
        · exact .inr (.inl (hcustody n event hmem').2)
      · intro m event hne hmem
        rcases List.mem_append.mp hmem with hmem' | hmem'
        · exact hmem'
        · exact absurd (hcustody m event hmem').1 hne

/-! ## Runs -/

theorem ages_step (opts : PiProcessOptions) (s : PiProcess Body Value)
    (a : PiProcessAction Body) : Ages s (s.step decodeResponse opts a) := by
  cases a with
  | start =>
    simp only [PiProcess.step, PiProcess.start]
    split
    · exact Ages.rfl' s
    · refine Ages.after (ages_sendWith _ _ _ _) ?_
      refine ⟨Nat.le_succ _, Nat.le_refl _, ?_, fun _ _ hget => .inl hget⟩
      intro k hle howns
      simp only [ownsSpawn, Bool.and_eq_true, decide_eq_true_eq] at howns
      omega
  | handshakeFailed => exact .of_owns rfl rfl rfl fun _ => id
  | send command publicId => exact ages_sendWith s _ _ _
  | sendDecoded command publicId =>
    simp only [PiProcess.step, PiProcess.sendDecoded]
    split
    · exact ages_sendWith s _ _ _
    · exact Ages.rfl' s
  | sendNoResponse => exact .of_owns rfl rfl rfl fun _ => id
  | timeout w =>
    simp only [PiProcess.step, PiProcess.timeout]
    split
    · refine Ages.after (ages_settle _ _ _) ?_
      have hclear : Ages s (s.clearTimer w) := .of_owns rfl rfl rfl fun _ => id
      split
      · exact hclear
      · exact hclear.trans (ages_deletePending _ _ _)
    · exact Ages.rfl' s
  | writeNext writable full =>
    simp only [PiProcess.step, PiProcess.writeNext]
    split
    · split
      · exact Ages.after (ages_writeFailed _ _) (.of_owns rfl rfl rfl fun _ => id)
      · split
        · exact .of_owns rfl rfl rfl fun _ => id
        · exact Ages.after (ages_writeFailed _ _) (.of_owns rfl rfl rfl fun _ => id)
    · exact Ages.rfl' s
  | drained failed =>
    simp only [PiProcess.step, PiProcess.drained]
    split
    · exact Ages.rfl' s
    · split
      · exact Ages.after (ages_writeFailed _ _) (.of_owns rfl rfl rfl fun _ => id)
      · exact .of_owns rfl rfl rfl fun _ => id
  | exited spawn =>
    have hobserved : Ages s { s with
        spawnIdentity := s.spawnIdentity.map fun identity =>
          if identity.number = spawn then
            { identity with leaderExitObserved := true } else identity } := by
      refine .of_owns rfl rfl rfl ?_
      intro k howns
      cases hidentity : s.spawnIdentity with
      | none => simp [ownsSpawn, hidentity] at howns
      | some identity =>
        by_cases heq : identity.number = spawn
        · simp [ownsSpawn, hidentity, heq] at howns
        · simpa [ownsSpawn, hidentity, heq] using howns
    simp only [PiProcess.step, PiProcess.exited]
    split
    · exact Ages.after (ages_clearSpawn _ spawn) (Ages.after (ages_rejectAll _) hobserved)
    · exact hobserved
  | unexpectedFinalization spawn => exact ages_beginUnexpectedFinalization s spawn
  | finishUnexpectedFinalization spawn =>
    simp only [PiProcess.step, PiProcess.finishUnexpectedFinalization]
    split
    · exact (ages_clearSpawn s spawn).trans (.of_owns rfl rfl rfl fun _ => id)
    · exact Ages.rfl' s
  | protocolFailure spawn => exact ages_handleProtocolFailure s spawn
  | stop =>
    refine .of_owns rfl rfl rfl ?_
    intro k howns
    simp only [PiProcess.step, PiProcess.stop, ownsSpawn] at howns
    split at howns
    · cases howns
    · simp at howns
  | finishStop spawn =>
    exact ((ages_clearSpawn s spawn).trans (ages_rejectAll _)).trans
      (.of_owns rfl rfl rfl fun _ => id)
  | readLine line =>
    simp only [PiProcess.step]
    split
    · exact .of_owns rfl rfl rfl fun _ => id
    · exact Ages.rfl' s
  | abortDecoding n deadline =>
    simp only [PiProcess.step, PiProcess.abortDecoding]
    split
    · exact Ages.rfl' s
    · split
      · exact .of_owns rfl rfl rfl fun _ => id
      · exact Ages.rfl' s
  | settleDecoding n result =>
    simp only [PiProcess.step]
    cases hget : s.lines.get? n with
    | none =>
      unfold PiProcess.settleDecoding
      rw [hget]
      exact Ages.rfl' s
    | some task =>
      rcases settleDecoding_moves decodeResponse hget result with
        heq | ⟨stage, leases, custody, -, heq⟩
      · rw [heq]
        exact Ages.rfl' s
      · rw [heq]
        exact .of_owns rfl rfl rfl fun _ => id
  | continueLine n answer succeeds =>
    simp only [PiProcess.step]
    cases hget : s.lines.get? n with
    | none =>
      unfold PiProcess.continueLine
      rw [hget]
      exact Ages.rfl' s
    | some task =>
      rcases continueLine_moves decodeResponse hget opts answer succeeds with
        ⟨-, heq⟩ | ⟨stage, ended, -, -, hages⟩
      · rw [heq]
        exact Ages.rfl' s
      · exact (ages_moved s n task stage ended).trans hages

theorem keepsTasks_step (opts : PiProcessOptions) (s : PiProcess Body Value)
    (a : PiProcessAction Body) (hfresh : s.lines.get? s.lineCounter = none) :
    KeepsTasks s (s.step decodeResponse opts a) := by
  cases a with
  | readLine line =>
    simp only [PiProcess.step]
    split
    · rename_i hspawn
      constructor
      · intro n task hget
        have hne : n ≠ s.lineCounter := by
          rintro rfl
          rw [hfresh] at hget
          cases hget
        refine ⟨task, (InsertionMap.get?_insert_of_ne _ hne _).trans hget, ?_⟩
        exact ⟨rfl, rfl, Nat.le_refl _, fun _ => id, fun _ _ hmem => .inl hmem, Nat.le_refl _⟩
      · intro n task hget hnone
        simp only [PiProcess.readLine, InsertionMap.get?_insert] at hget
        split at hget
        · cases hget
          refine ⟨hspawn, ?_⟩
          intro w r hroute
          simp only at hroute
          split at hroute
          · cases hroute
          · cases hroute
          · split at hroute
            · cases hroute
            · split at hroute
              · cases hroute
              · rename_i hpending
                cases hroute
                exact hpending
        · rw [hnone] at hget
          cases hget
    · exact .of_same (SameLines.rfl' s)
  | abortDecoding n deadline =>
    simp only [PiProcess.step, PiProcess.abortDecoding]
    split
    · exact .of_same (SameLines.rfl' s)
    · rename_i task hget
      split
      · rename_i hstage
        refine .of_insert hget rfl ⟨rfl, rfl, Nat.zero_le _, fun _ heq => (by cases heq),
          fun _ _ hmem => .inl hmem, Nat.le_refl _⟩ (fun _ _ _ => id) fun _ => Nat.le_refl _
      · exact .of_same (SameLines.rfl' s)
  | settleDecoding n result => exact keepsTasks_settleDecoding s n result
  | continueLine n answer succeeds =>
    simp only [PiProcess.step]
    cases hget : s.lines.get? n with
    | none =>
      unfold PiProcess.continueLine
      rw [hget]
      exact .of_same (SameLines.rfl' s)
    | some task =>
      rcases continueLine_moves decodeResponse hget opts answer succeeds with
        ⟨-, heq⟩ | ⟨stage, ended, hmove, hsame, -⟩
      · rw [heq]
        exact .of_same (SameLines.rfl' s)
      · exact (keepsTasks_moved hget hmove).congr hsame
  | _ => exact .of_same (sameLines_step opts s _ rfl)

theorem stepsLeft_continueLine (decodeResponse : SessionCommandTypeDto → Body → Option Value)
    (hget : s.lines.get? n = some task)
    (hdecoding : task.stage ≠ .decoding) (opts : PiProcessOptions) (answer : ConsumerAnswer)
    (succeeds : Bool) :
    ∃ task', (s.continueLine decodeResponse opts n answer succeeds).lines.get? n = some task' ∧
      task'.stage.stepsLeft ≤ task.stage.stepsLeft - 1 := by
  rcases continueLine_moves decodeResponse hget opts answer succeeds with
    ⟨hstage, heq⟩ | ⟨stage, ended, hmove, hsame, -⟩
  · rcases hstage with hstage | hstage
    · exact absurd hstage hdecoding
    · refine ⟨task, by rw [heq, hget], ?_⟩
      rw [hstage]
      exact Nat.le_refl _
  · refine ⟨{ task with stage := stage }, ?_, hmove.stepsLeft_lt⟩
    rw [hsame.lines, lines_moved, InsertionMap.get?_insert_self]

/-- The ids that lines and requests carry were given out. -/
structure IdsKnown (s : PiProcess Body Value) : Prop where
  pending : ∀ w r, s.pending.get? w = some r → w ≤ s.wireRequestCounter
  lines : ∀ n task, s.lines.get? n = some task →
    task.line.spawn ≤ s.spawns ∧ ∀ w r, task.route = .pending w r → w ≤ s.wireRequestCounter

theorem idsKnown_initial : IdsKnown (initial : PiProcess Body Value) where
  pending := fun _ _ h => nomatch h
  lines := fun _ _ h => nomatch h

theorem IdsKnown.later (h : IdsKnown s) (hages : Ages s s')
    (hkeeps : KeepsTasks s s') : IdsKnown s' where
  pending := by
    intro w r hget
    rcases hages.pending w r hget with hget' | ⟨-, hle⟩
    · exact Nat.le_trans (h.pending w r hget') hages.counter
    · exact hle
  lines := by
    intro n task hget
    cases hbefore : s.lines.get? n with
    | none =>
      obtain ⟨hspawn, hroute⟩ := hkeeps.added n task hget hbefore
      refine ⟨Nat.le_trans hspawn hages.spawns, ?_⟩
      intro w r heq
      exact Nat.le_trans (h.pending w r (hroute w r heq)) hages.counter
    | some before =>
      obtain ⟨task', hget', hkept⟩ := hkeeps.kept n before hbefore
      rw [hget] at hget'
      cases hget'
      obtain ⟨hspawn, hroute⟩ := h.lines n before hbefore
      rw [hkept.line, hkept.route]
      refine ⟨Nat.le_trans hspawn hages.spawns, ?_⟩
      intro w r heq
      exact Nat.le_trans (hroute w r heq) hages.counter

/-- What holds between two steps. -/
structure Custodied (s : PiProcess Body Value) : Prop where
  leases : LeaseCustody s
  ids : IdsKnown s

theorem custodied_initial : Custodied (initial : PiProcess Body Value) :=
  ⟨leaseCustody_initial, idsKnown_initial⟩

theorem Custodied.keeps (h : Custodied s)
    (decodeResponse : SessionCommandTypeDto → Body → Option Value)
    (opts : PiProcessOptions) (a : PiProcessAction Body) :
    KeepsTasks s (s.step decodeResponse opts a) :=
  keepsTasks_step opts s a (h.leases.fresh _ (Nat.le_refl _)).1

theorem Custodied.step (opts : PiProcessOptions) (s : PiProcess Body Value)
    (a : PiProcessAction Body) (h : Custodied s) : Custodied (s.step decodeResponse opts a) :=
  ⟨h.leases.step opts s a, h.ids.later (ages_step opts s a) (h.keeps decodeResponse opts a)⟩

theorem Custodied.gone_later (h : Custodied s) (hages : Ages s s')
    {task task' : LineTask Body} (hget : s.lines.get? n = some task)
    (hline : task'.line = task.line) (hroute : task'.route = task.route)
    (hgone : s.isCurrent task = false) : s'.isCurrent task' = false := by
  obtain ⟨hspawn, hids⟩ := h.ids.lines n task hget
  rw [Bool.eq_false_iff] at hgone ⊢
  intro hcurrent
  apply hgone
  simp only [isCurrent, Bool.and_eq_true, hline, hroute] at hcurrent ⊢
  refine ⟨hages.owns _ hspawn hcurrent.1, ?_⟩
  cases hrouted : task.route with
  | pending w r =>
    have hpending := hcurrent.2
    simp only [hrouted, isPending, decide_eq_true_eq] at hpending ⊢
    rcases hages.pending w r hpending with hget' | ⟨hlt, -⟩
    · exact hget'
    · have hle := hids w r hrouted
      omega
  | orphaned => rfl
  | unsolicited => rfl
  | discarded => rfl

/-- The line is without its spawn or its request since an earlier state. Since then it was not
offered to a consumer, and its lease was not adopted. -/
def GoneSince (before : PiProcess Body Value) (n : ℕ) (offered : Bool)
    (s : PiProcess Body Value) : Prop :=
  ∃ task, s.lines.get? n = some task ∧ s.isCurrent task = false ∧
    (task.stage.offered = true → offered = true) ∧
    ∀ event, (n, event) ∈ s.custody → (n, event) ∈ before.custody ∨ event = .leaseReleased ∨
      offered = true ∧ event = .staleTransferReleased

theorem GoneSince.step {before : PiProcess Body Value} {offered : Bool}
    (hs : Custodied s) (h : GoneSince before n offered s) (opts : PiProcessOptions)
    (a : PiProcessAction Body) : GoneSince before n offered (s.step decodeResponse opts a) := by
  obtain ⟨task, hget, hgone, hoffered, hcustody⟩ := h
  obtain ⟨task', hget', hkept⟩ := (hs.keeps decodeResponse opts a).kept n task hget
  refine ⟨task', hget', ?_, ?_, ?_⟩
  · exact hs.gone_later (ages_step opts s a) hget hkept.line hkept.route hgone
  · exact fun heq => hoffered (hkept.offered hgone heq)
  · intro event hmem
    rcases hkept.custody hgone event hmem with hmem' | hreleased | ⟨hstage, hstale⟩
    · exact hcustody event hmem'
    · exact .inr (.inl hreleased)
    · exact .inr (.inr ⟨hoffered hstage, hstale⟩)

/-- The action lets the handling of the line go on. -/
def continues (n : ℕ) : PiProcessAction Body → Bool
  | .continueLine number _ _ => number == n
  | _ => false

/-- A decoded line comes closer to its end with each time its handling goes on, and its leases
stay on record. -/
theorem Custodied.stepsLeft_run
    (decodeResponse : SessionCommandTypeDto → Body → Option Value) (opts : PiProcessOptions)
    (actions : List (PiProcessAction Body)) {s : PiProcess Body Value} (hs : Custodied s)
    (hget : s.lines.get? n = some task) (hdecoded : task.stage.stepsLeft ≤ 3) :
    ∃ task', (runFrom (PiProcess.step decodeResponse opts) s actions).lines.get? n = some task' ∧
      task'.stage.stepsLeft ≤ task.stage.stepsLeft - actions.countP (continues n) ∧
      s.leasesOf n ≤ (runFrom (PiProcess.step decodeResponse opts) s actions).leasesOf n := by
  induction actions generalizing s task with
  | nil => exact ⟨task, hget, Nat.le_refl _, Nat.le_refl _⟩
  | cons a rest ih =>
    obtain ⟨task', hget', hkept⟩ :=
      (hs.keeps decodeResponse opts a).kept n task hget
    have hle : task'.stage.stepsLeft ≤
        task.stage.stepsLeft - (if continues n a then 1 else 0) := by
      cases a with
      | continueLine number answer succeeds =>
        by_cases heq : number = n
        · have hdecoding : task.stage ≠ .decoding := by
            intro hstage
            rw [hstage] at hdecoded
            exact absurd hdecoded (by decide)
          obtain ⟨task'', hget'', hlt⟩ := stepsLeft_continueLine decodeResponse
            hget hdecoding opts answer succeeds
          rw [heq] at hget'
          simp only [PiProcess.step] at hget'
          rw [hget''] at hget'
          cases hget'
          simpa [continues, heq] using hlt
        · simpa [continues, heq] using hkept.stepsLeft
      | _ => exact hkept.stepsLeft
    obtain ⟨task'', hget'', hsteps, hleases⟩ :=
      ih (hs.step opts s a) hget' (Nat.le_trans hkept.stepsLeft hdecoded)
    refine ⟨task'', hget'', ?_, Nat.le_trans hkept.leases hleases⟩
    rw [List.countP_cons]
    omega

theorem Custodied.ends_run (opts : PiProcessOptions)
    (actions : List (PiProcessAction Body)) {s : PiProcess Body Value} (hs : Custodied s)
    (hheld : s.holdsLease n = true) (hcount : 3 ≤ actions.countP (continues n)) :
    (runFrom (PiProcess.step decodeResponse opts) s actions).holdsLease n = false ∧
      (runFrom (PiProcess.step decodeResponse opts) s actions).endsOf n = 1 := by
  have hend : Custodied (runFrom (PiProcess.step decodeResponse opts) s actions) :=
    runFrom_invariant (fun s a => Custodied.step opts s a) actions hs
  cases hget : s.lines.get? n with
  | none => simp [holdsLease, hget] at hheld
  | some task =>
    have hholds : task.stage.holdsLease = true := by simpa [holdsLease, hget] using hheld
    have hdecoded : task.stage.stepsLeft ≤ 3 := by
      cases hstage : task.stage with
      | decoding => simp [hstage, HandlerStage.holdsLease] at hholds
      | _ => simp [HandlerStage.stepsLeft]
    obtain ⟨task', hget', hsteps, hleases⟩ :=
      hs.stepsLeft_run decodeResponse opts actions hget hdecoded
    have hfree : task'.stage.holdsLease = false := by
      have hzero : task'.stage.stepsLeft = 0 := by omega
      cases hstage : task'.stage with
      | resolved outcome => simp [hstage, HandlerStage.stepsLeft] at hzero
      | planned outcome => simp [hstage, HandlerStage.stepsLeft] at hzero
      | transferred outcome => simp [hstage, HandlerStage.stepsLeft] at hzero
      | _ => rfl
    have hreleased : (runFrom (PiProcess.step decodeResponse opts) s actions).holdsLease n =
        false := by
      simpa [holdsLease, hget'] using hfree
    refine ⟨hreleased, ?_⟩
    have hbalanced := hend.leases.balanced n
    have hsingle := hend.leases.single n
    have hbefore := hs.leases.balanced n
    rw [hreleased, Bool.toNat_false] at hbalanced
    rw [hheld, Bool.toNat_true] at hbefore
    omega

/-- The lease of a decoded line ends at most once, and exactly once when its handling has gone
on. The lease of a line whose spawn or request is gone is released, or its transfer is when it
had one: it is not adopted, and the outcome is not offered any more. -/
theorem decoded_payload_custody
    (decodeResponse : SessionCommandTypeDto → Body → Option Value) (opts : PiProcessOptions)
    (actions later : List (PiProcessAction Body)) (n : ℕ) :
    let s : PiProcess Body Value := runFrom (PiProcess.step decodeResponse opts) initial actions
    let s' : PiProcess Body Value := runFrom (PiProcess.step decodeResponse opts) s later
    (s.leasesOf n = s.endsOf n + (s.holdsLease n).toNat ∧ s.leasesOf n ≤ 1) ∧
      (s.holdsLease n = true → 3 ≤ later.countP (continues n) →
        s'.holdsLease n = false ∧ s'.endsOf n = 1) ∧
      ∀ task, s.lines.get? n = some task → s.isCurrent task = false →
        (∀ event, (n, event) ∈ s'.custody → (n, event) ∈ s.custody ∨ event = .leaseReleased ∨
          task.stage.offered = true ∧ event = .staleTransferReleased) ∧
        (task.stage.offered = false →
          (s'.lines.get? n).any (fun task => task.stage.offered) = false) := by
  intro s s'
  have hs : Custodied s :=
    runFrom_invariant (fun s a => Custodied.step opts s a) actions custodied_initial
  refine ⟨⟨hs.leases.balanced n, hs.leases.single n⟩, hs.ends_run opts later, ?_⟩
  intro task hget hgone
  have hbefore : GoneSince s n task.stage.offered s :=
    ⟨task, hget, hgone, id, fun _ hmem => .inl hmem⟩
  have hafter : Custodied s' ∧ GoneSince s n task.stage.offered s' := by
    refine runFrom_invariant (I := fun s₁ => Custodied s₁ ∧ GoneSince s n task.stage.offered s₁)
      (fun s₁ a h => ?_) later ⟨hs, hbefore⟩
    exact ⟨h.1.step opts s₁ a, h.2.step h.1 opts a⟩
  obtain ⟨-, task', hget', -, hoffered, hcustody⟩ := hafter
  refine ⟨hcustody, ?_⟩
  intro hnot
  rw [hget', Option.any_some, Bool.eq_false_iff]
  intro heq
  rw [hoffered heq] at hnot
  cases hnot

/-- A stop between the transfer and the commit. -/
def stopBeforeCommit : List (PiProcessAction Unit) :=
  [.start, .readLine { spawn := 1, type := .unsolicited, id := none, body := () },
    .settleDecoding 0 (.ok { kind := .event, lease := true }), .continueLine 0 .returnsPlan true,
    .continueLine 0 .returnsPlan true, .stop]

/-- The lease is not released, its transfer is not adopted, and no commit fails: the transfer is
released because the process stopped before the commit. -/
theorem transfer_released_before_commit :
    let s : PiProcess Unit Unit := runFrom
      (PiProcess.step (fun _ _ => some ()) ⟨true, true, true⟩) initial
      (stopBeforeCommit ++ [.continueLine 0 .returnsPlan true])
    s.leasesOf 0 = 1 ∧ s.holdsLease 0 = false ∧ s.custody = [(0, .staleTransferReleased)] := by
  decide +kernel

/-- After the stop the lease of the line is still held, and it ends in the same way whatever its
consumer would answer. -/
theorem decoded_payload_custody_stopped :
    let s : PiProcess Unit Unit := runFrom
      (PiProcess.step (fun _ _ => some ()) ⟨true, true, true⟩) initial stopBeforeCommit
    let s' : PiProcess Unit Unit := runFrom
      (PiProcess.step (fun _ _ => some ()) ⟨true, true, true⟩) s
      (List.replicate 3 (.continueLine 0 .throws false))
    s.holdsLease 0 = true ∧ s'.endsOf 0 = 1 ∧ (0, .adopted) ∉ s'.custody := by
  intro s s'
  have hheld : s.holdsLease 0 = true := by decide +kernel
  obtain ⟨task, hget, hgone, hcustody⟩ : ∃ task, s.lines.get? 0 = some task ∧
      s.isCurrent task = false ∧ (0, .adopted) ∉ s.custody :=
    ⟨_, rfl, by decide +kernel, by decide +kernel⟩
  obtain ⟨-, hends, hstale⟩ := decoded_payload_custody
    (fun _ _ => some () : SessionCommandTypeDto → Unit → Option Unit) ⟨true, true, true⟩
    stopBeforeCommit (List.replicate 3 (.continueLine 0 .throws false)) 0
  refine ⟨hheld, (hends hheld (by decide)).2, ?_⟩
  intro hmem
  rcases (hstale task hget hgone).1 _ hmem with hmem' | heq | ⟨-, heq⟩
  · exact hcustody hmem'
  · cases heq
  · cases heq

end PiProcess

end PiAgentWeb
