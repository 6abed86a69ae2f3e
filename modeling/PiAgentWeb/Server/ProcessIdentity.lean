import PiAgentWeb.Server.Supervisor

/-!
# Process identities

Frames are scoped by handle and generation, so two processes must not publish under the same pair.
The generation is counted in the runtime object: it identifies a process as long as an object that
starts at generation zero gets a handle no process ran under, and a process moves only to a handle
whose earlier generations are smaller. Reopening the parent of a fork does neither.
-/

namespace PiAgentWeb

namespace Supervisor

variable {s : Supervisor}

/-- The generations a runtime takes up continue those of its handle. An object at generation zero
gets a handle that no process ran under; a process moves to a handle only if the earlier generations
there are smaller and no other tracked runtime has it; and only tracked runtimes spawn. -/
def ContinuesHandle (s : Supervisor) : SupervisorAction → Prop
  | .activate sessionHandle => ∀ t ∈ s.taken, t.sessionHandle ≠ sessionHandle
  | .createSession temporaryHandle => ∀ t ∈ s.taken, t.sessionHandle ≠ temporaryHandle
  | .spawn runtime => ∃ entry ∈ s.runtimes.entries, entry.2 = runtime
  | .ready runtime sessionHandle =>
    (∀ t ∈ s.taken, t.sessionHandle = sessionHandle →
      t.generation < (s.objects runtime).generation) ∧
    ∀ entry ∈ s.runtimes.entries, (s.objects entry.2).sessionHandle = sessionHandle →
      entry.2 = runtime
  | .identityTransition runtime nextHandle _ =>
    (∀ t ∈ s.taken, t.sessionHandle = nextHandle →
      t.generation < (s.objects runtime).generation + 1) ∧
    ∀ entry ∈ s.runtimes.entries, (s.objects entry.2).sessionHandle = nextHandle →
      entry.2 = runtime
  | _ => True

instance (s : Supervisor) (a : SupervisorAction) : Decidable (s.ContinuesHandle a) := by
  apply SupervisorAction.casesOn (motive := fun a => Decidable (s.ContinuesHandle a)) a <;>
    intros <;> dsimp only [ContinuesHandle] <;> infer_instance

/-- The invariant behind process identities. -/
structure IdentityInv (s : Supervisor) : Prop where
  tracked_lt : ∀ {k id}, s.runtimes.get? k = some id → id < s.nextRuntime
  tracked_unique : ∀ {k k' id}, s.runtimes.get? k = some id → s.runtimes.get? k' = some id → k = k'
  /-- Two tracked runtimes have different handles. -/
  handle_unique : ∀ {k k' id id'}, s.runtimes.get? k = some id → s.runtimes.get? k' = some id' →
    (s.objects id).sessionHandle = (s.objects id').sessionHandle → id = id'
  /-- A runtime that is tracked elsewhere than under its handle ran a process under its handle. -/
  elsewhere : ∀ {k id}, s.runtimes.get? k = some id → (s.objects id).sessionHandle = k ∨
    ∃ t ∈ s.taken, t.sessionHandle = (s.objects id).sessionHandle
  /-- A tracked runtime has the greatest generation of its handle. -/
  greatest : ∀ {k id}, s.runtimes.get? k = some id → ∀ t ∈ s.taken,
    t.sessionHandle = (s.objects id).sessionHandle → t.generation ≤ (s.objects id).generation
  taken_unique : ∀ t ∈ s.taken, ∀ t' ∈ s.taken, t.sessionHandle = t'.sessionHandle →
    t.generation = t'.generation → t.process = t'.process
  running : ∀ id process, (s.objects id).process = some process →
    { sessionHandle := (s.objects id).sessionHandle
      generation := (s.objects id).generation
      process := process } ∈ s.taken
  published_sub : ∀ t ∈ s.published, t ∈ s.taken

/-- A new supervisor has no processes. -/
theorem IdentityInv.initial : initial.IdentityInv := by
  constructor <;> simp [Supervisor.initial]

/-- What is not read by the invariant may change. -/
theorem IdentityInv.congr {s' : Supervisor} (h : s.IdentityInv)
    (hnext : s'.nextRuntime = s.nextRuntime)
    (hobjects : s'.objects = s.objects) (htaken : s'.taken = s.taken)
    (hpublished : s'.published = s.published)
    (hsub : ∀ {k id}, s'.runtimes.get? k = some id → s.runtimes.get? k = some id) :
    s'.IdentityInv := by
  refine ⟨?_, ?_, ?_, ?_, ?_, ?_, ?_, ?_⟩
  · exact fun hget => hnext ▸ h.tracked_lt (hsub hget)
  · exact fun hget hget' => h.tracked_unique (hsub hget) (hsub hget')
  · rw [hobjects]
    exact fun hget hget' => h.handle_unique (hsub hget) (hsub hget')
  · rw [hobjects, htaken]
    exact fun hget => h.elsewhere (hsub hget)
  · rw [hobjects, htaken]
    exact fun hget => h.greatest (hsub hget)
  · rw [htaken]
    exact h.taken_unique
  · rw [hobjects, htaken]
    exact h.running
  · rw [hpublished, htaken]
    exact h.published_sub

/-- Tracking a new object under a handle that no process ran under. -/
theorem IdentityInv.track (h : s.IdentityInv) {k : SessionHandle}
    (targetIsNew : Bool) (hunused : ∀ t ∈ s.taken, t.sessionHandle ≠ k) :
    (s.track k targetIsNew).IdentityInv := by
  have hself : ((s.track k targetIsNew).objects s.nextRuntime).sessionHandle = k := by
    simp [Supervisor.track]
  have htracked : ∀ {k' id}, (s.track k targetIsNew).runtimes.get? k' = some id →
      (k' = k ∧ id = s.nextRuntime) ∨
        (k' ≠ k ∧ s.runtimes.get? k' = some id ∧ id ≠ s.nextRuntime ∧
          (s.track k targetIsNew).objects id = s.objects id) := by
    intro k' id hget
    rw [Supervisor.track, InsertionMap.get?_insert] at hget
    by_cases hk : k' = k
    · rw [if_pos hk] at hget
      exact Or.inl ⟨hk, (Option.some.inj hget).symm⟩
    · rw [if_neg hk] at hget
      have hne : id ≠ s.nextRuntime := Nat.ne_of_lt (h.tracked_lt hget)
      exact Or.inr ⟨hk, hget, hne, Function.update_of_ne hne _ _⟩
  -- nothing tracked before has the new handle
  have hother : ∀ {k' id}, k' ≠ k → s.runtimes.get? k' = some id →
      (s.objects id).sessionHandle ≠ k := by
    intro k' id hk hget heq
    rcases h.elsewhere hget with hown | ⟨t, ht, hthandle⟩
    · exact hk (hown.symm.trans heq)
    · exact hunused t ht (hthandle.trans heq)
  refine ⟨?_, ?_, ?_, ?_, ?_, h.taken_unique, ?_, h.published_sub⟩
  · intro k' id hget
    rcases htracked hget with ⟨_, rfl⟩ | ⟨_, hold, _, _⟩
    · exact Nat.lt_succ_self _
    · exact Nat.lt_succ_of_lt (h.tracked_lt hold)
  · intro k₁ k₂ id h₁ h₂
    rcases htracked h₁ with ⟨hk₁, hid₁⟩ | ⟨_, hold₁, hne₁, _⟩ <;>
      rcases htracked h₂ with ⟨hk₂, hid₂⟩ | ⟨_, hold₂, hne₂, _⟩
    · rw [hk₁, hk₂]
    · exact absurd hid₁ hne₂
    · exact absurd hid₂ hne₁
    · exact h.tracked_unique hold₁ hold₂
  · intro k₁ k₂ id₁ id₂ h₁ h₂ heq
    rcases htracked h₁ with ⟨_, rfl⟩ | ⟨hk₁, hold₁, _, hobj₁⟩ <;>
      rcases htracked h₂ with ⟨_, rfl⟩ | ⟨hk₂, hold₂, _, hobj₂⟩
    · rfl
    · rw [hself, hobj₂] at heq
      exact absurd heq.symm (hother hk₂ hold₂)
    · rw [hself, hobj₁] at heq
      exact absurd heq (hother hk₁ hold₁)
    · rw [hobj₁, hobj₂] at heq
      exact h.handle_unique hold₁ hold₂ heq
  · intro k' id hget
    rcases htracked hget with ⟨hk, rfl⟩ | ⟨_, hold, _, hobj⟩
    · exact Or.inl (hself.trans hk.symm)
    · rw [hobj]
      exact h.elsewhere hold
  · intro k' id hget t ht hhandle
    rcases htracked hget with ⟨_, rfl⟩ | ⟨_, hold, _, hobj⟩
    · exact absurd (hhandle.trans hself) (hunused t ht)
    · rw [hobj] at hhandle ⊢
      exact h.greatest hold t ht hhandle
  · intro id process hprocess
    by_cases hid : id = s.nextRuntime
    · subst hid
      simp [Supervisor.track] at hprocess
    · have hobj : (s.track k targetIsNew).objects id = s.objects id :=
        Function.update_of_ne hid _ _
      rw [hobj] at hprocess ⊢
      exact h.running id process hprocess

/-- A runtime takes up an identity: a handle that no other tracked runtime has, with a generation
above all that processes ran under there. -/
theorem IdentityInv.takeUp (h : s.IdentityInv) {id : RuntimeId} (object : SessionRuntime)
    {process : ℕ} (hprocess : object.process = some process) {next : ℕ}
    (hgreater : ∀ t ∈ s.taken, t.sessionHandle = object.sessionHandle →
      t.generation < object.generation)
    (hsingle : ∀ k id', s.runtimes.get? k = some id' →
      (s.objects id').sessionHandle = object.sessionHandle → id' = id) :
    ({ s with
      objects := Function.update s.objects id object
      nextIncarnation := next }.recordTaken id).IdentityInv := by
  have hrecord : { s with
      objects := Function.update s.objects id object
      nextIncarnation := next }.recordTaken id =
      { s with
        objects := Function.update s.objects id object
        nextIncarnation := next
        taken := ⟨object.sessionHandle, object.generation, process⟩ :: s.taken } := by
    simp [recordTaken, hprocess]
  rw [hrecord]
  have hself : Function.update s.objects id object id = object := Function.update_self ..
  have hother : ∀ id', id' ≠ id → Function.update s.objects id object id' = s.objects id' :=
    fun id' hne => Function.update_of_ne hne _ _
  refine ⟨h.tracked_lt, h.tracked_unique, ?_, ?_, ?_, ?_, ?_, ?_⟩
  · intro k₁ k₂ id₁ id₂ h₁ h₂ heq
    change (Function.update s.objects id object id₁).sessionHandle =
      (Function.update s.objects id object id₂).sessionHandle at heq
    by_cases hid₁ : id₁ = id <;> by_cases hid₂ : id₂ = id
    · rw [hid₁, hid₂]
    · rw [hid₁, hself, hother id₂ hid₂] at heq
      exact absurd (hsingle k₂ id₂ h₂ heq.symm) hid₂
    · rw [hid₂, hself, hother id₁ hid₁] at heq
      exact absurd (hsingle k₁ id₁ h₁ heq) hid₁
    · rw [hother id₁ hid₁, hother id₂ hid₂] at heq
      exact h.handle_unique h₁ h₂ heq
  · intro k id' hget
    by_cases hid : id' = id
    · subst hid
      exact Or.inr ⟨_, List.mem_cons_self, by simp⟩
    · change (Function.update s.objects id object id').sessionHandle = k ∨ _
      simp only [hother id' hid]
      rcases h.elsewhere hget with hown | ⟨t, ht, hhandle⟩
      · exact Or.inl hown
      · exact Or.inr ⟨t, List.mem_cons_of_mem _ ht, hhandle⟩
  · intro k id' hget t ht hhandle
    change t.sessionHandle = (Function.update s.objects id object id').sessionHandle at hhandle
    change t.generation ≤ (Function.update s.objects id object id').generation
    by_cases hid : id' = id
    · rw [hid, hself] at hhandle ⊢
      rcases List.mem_cons.mp ht with rfl | ht
      · exact le_rfl
      · exact (hgreater t ht hhandle).le
    · rw [hother id' hid] at hhandle ⊢
      rcases List.mem_cons.mp ht with rfl | ht
      · exact absurd (hsingle k id' hget hhandle.symm) hid
      · exact h.greatest hget t ht hhandle
  · intro t ht t' ht' hhandle hgen
    rcases List.mem_cons.mp ht with rfl | ht <;> rcases List.mem_cons.mp ht' with rfl | ht'
    · rfl
    · have hlt := hgreater t' ht' hhandle.symm
      change object.generation = t'.generation at hgen
      omega
    · have hlt := hgreater t ht hhandle
      change t.generation = object.generation at hgen
      omega
    · exact h.taken_unique t ht t' ht' hhandle hgen
  · intro id' process' hprocess'
    change (Function.update s.objects id object id').process = some process' at hprocess'
    by_cases hid : id' = id
    · subst hid
      rw [hself, hprocess] at hprocess'
      cases hprocess'
      simp
    · rw [hother id' hid] at hprocess'
      have hmem := h.running id' process' hprocess'
      simp only [hother id' hid]
      exact List.mem_cons_of_mem _ hmem
  · exact fun t ht => List.mem_cons_of_mem _ (h.published_sub t ht)

/-- A runtime is tracked under its own handle instead of another one. -/
theorem IdentityInv.beginRekey (h : s.IdentityInv) {previousHandle : SessionHandle}
    {id : RuntimeId} (htracked : s.runtimes.get? previousHandle = some id) :
    (s.beginRekey previousHandle id).IdentityInv := by
  have hown : ∀ {k id'}, (s.beginRekey previousHandle id).runtimes.get? k = some id' →
      (k = (s.objects id).sessionHandle ∧ id' = id) ∨
        (id' ≠ id ∧ s.runtimes.get? k = some id') := fun hget =>
    (beginRekey_cases (fun hget => h.tracked_unique hget htracked) hget).imp_right And.right
  have hbefore : ∀ {k id'}, (s.beginRekey previousHandle id).runtimes.get? k = some id' →
      ∃ k', s.runtimes.get? k' = some id' := by
    intro k id' hget
    rcases hown hget with ⟨_, rfl⟩ | ⟨_, hold⟩
    · exact ⟨_, htracked⟩
    · exact ⟨_, hold⟩
  refine ⟨?_, ?_, ?_, ?_, ?_, h.taken_unique, h.running, h.published_sub⟩
  · intro k id' hget
    obtain ⟨_, hold⟩ := hbefore hget
    exact h.tracked_lt hold
  · intro k₁ k₂ id' h₁ h₂
    rcases hown h₁ with ⟨hk₁, hid₁⟩ | ⟨hid₁, hold₁⟩ <;>
      rcases hown h₂ with ⟨hk₂, hid₂⟩ | ⟨hid₂, hold₂⟩
    · rw [hk₁, hk₂]
    · exact absurd hid₁ hid₂
    · exact absurd hid₂ hid₁
    · exact h.tracked_unique hold₁ hold₂
  · intro k₁ k₂ id₁ id₂ h₁ h₂
    obtain ⟨_, hold₁⟩ := hbefore h₁
    obtain ⟨_, hold₂⟩ := hbefore h₂
    exact h.handle_unique hold₁ hold₂
  · intro k id' hget
    rcases hown hget with ⟨hk, rfl⟩ | ⟨_, hold⟩
    · exact Or.inl hk.symm
    · exact h.elsewhere hold
  · intro k id' hget
    obtain ⟨_, hold⟩ := hbefore hget
    exact h.greatest hold

/-- An object is replaced by one that continues its generation. -/
theorem IdentityInv.rebuild (h : s.IdentityInv) {k : SessionHandle} {existing : RuntimeId}
    (htracked : s.runtimes.get? k = some existing) {object : SessionRuntime}
    (hhandle : object.sessionHandle = (s.objects existing).sessionHandle)
    (hgen : object.generation = (s.objects existing).generation)
    (hprocess : object.process = none) :
    { s with
      runtimes := s.runtimes.insert k s.nextRuntime
      objects := Function.update s.objects s.nextRuntime object
      nextRuntime := s.nextRuntime + 1 }.IdentityInv := by
  -- what is tracked afterwards has the handle and the generation of what was tracked there
  have hback : ∀ {k' id}, (s.runtimes.insert k s.nextRuntime).get? k' = some id →
      ∃ id₀, s.runtimes.get? k' = some id₀ ∧
        (Function.update s.objects s.nextRuntime object id).sessionHandle =
          (s.objects id₀).sessionHandle ∧
        (Function.update s.objects s.nextRuntime object id).generation =
          (s.objects id₀).generation ∧
        ((id = s.nextRuntime ∧ k' = k) ∨ (id = id₀ ∧ id ≠ s.nextRuntime)) := by
    intro k' id hget
    rw [InsertionMap.get?_insert] at hget
    by_cases hk : k' = k
    · rw [if_pos hk] at hget
      cases hget
      rw [Function.update_self, hk]
      exact ⟨existing, htracked, hhandle, hgen, Or.inl ⟨rfl, rfl⟩⟩
    · rw [if_neg hk] at hget
      have hne : id ≠ s.nextRuntime := Nat.ne_of_lt (h.tracked_lt hget)
      rw [Function.update_of_ne hne]
      exact ⟨id, hget, rfl, rfl, Or.inr ⟨rfl, hne⟩⟩
  have hunique : ∀ {k₁ k₂ id}, (s.runtimes.insert k s.nextRuntime).get? k₁ = some id →
      (s.runtimes.insert k s.nextRuntime).get? k₂ = some id → k₁ = k₂ := by
    intro k₁ k₂ id h₁ h₂
    obtain ⟨id₁, hold₁, _, _, hcase₁⟩ := hback h₁
    obtain ⟨id₂, hold₂, _, _, hcase₂⟩ := hback h₂
    rcases hcase₁ with ⟨hid₁, hk₁⟩ | ⟨rfl, hne₁⟩ <;> rcases hcase₂ with ⟨hid₂, hk₂⟩ | ⟨rfl, hne₂⟩
    · rw [hk₁, hk₂]
    · exact absurd hid₁ hne₂
    · exact absurd hid₂ hne₁
    · exact h.tracked_unique hold₁ hold₂
  refine ⟨?_, hunique, ?_, ?_, ?_, h.taken_unique, ?_, h.published_sub⟩
  · intro k' id hget
    obtain ⟨id₀, hold, _, _, ⟨rfl, _⟩ | ⟨rfl, _⟩⟩ := hback hget
    · exact Nat.lt_succ_self _
    · exact Nat.lt_succ_of_lt (h.tracked_lt hold)
  · intro k₁ k₂ id₁ id₂ h₁ h₂ heq
    obtain ⟨id₁', hold₁, hhandle₁, _⟩ := hback h₁
    obtain ⟨id₂', hold₂, hhandle₂, _⟩ := hback h₂
    have hsame : id₁' = id₂' :=
      h.handle_unique hold₁ hold₂ (hhandle₁.symm.trans (heq.trans hhandle₂))
    subst hsame
    have hk := h.tracked_unique hold₁ hold₂
    subst hk
    exact Option.some.inj (h₁.symm.trans h₂)
  · intro k' id hget
    obtain ⟨id₀, hold, hhandle₀, _⟩ := hback hget
    change (Function.update s.objects s.nextRuntime object id).sessionHandle = k' ∨ ∃ t ∈ s.taken,
      t.sessionHandle = (Function.update s.objects s.nextRuntime object id).sessionHandle
    rw [hhandle₀]
    exact h.elsewhere hold
  · intro k' id hget
    obtain ⟨id₀, hold, hhandle₀, hgen₀, _⟩ := hback hget
    change ∀ t ∈ s.taken,
      t.sessionHandle = (Function.update s.objects s.nextRuntime object id).sessionHandle →
        t.generation ≤ (Function.update s.objects s.nextRuntime object id).generation
    rw [hhandle₀, hgen₀]
    exact h.greatest hold
  · intro id process hrunning
    change (Function.update s.objects s.nextRuntime object id).process = some process at hrunning
    change (⟨(Function.update s.objects s.nextRuntime object id).sessionHandle,
      (Function.update s.objects s.nextRuntime object id).generation, process⟩ : ProcessIdentity) ∈
        s.taken
    by_cases hid : id = s.nextRuntime
    · rw [hid, Function.update_self, hprocess] at hrunning
      cases hrunning
    · rw [Function.update_of_ne hid] at hrunning ⊢
      exact h.running id process hrunning

/-- Every action that continues the generations of its handles keeps the invariant. -/
theorem IdentityInv.step (a : SupervisorAction) (hcond : s.ContinuesHandle a)
    (h : s.IdentityInv) : (s.step a).IdentityInv := by
  -- the runtimes with a handle, as the conditions list them
  have hsingle : ∀ {handle : SessionHandle} {id : RuntimeId},
      (∀ entry ∈ s.runtimes.entries, (s.objects entry.2).sessionHandle = handle → entry.2 = id) →
        ∀ k id', s.runtimes.get? k = some id' → (s.objects id').sessionHandle = handle → id' = id :=
    fun hentries k id' hget => hentries (k, id') (InsertionMap.mem_of_get? hget)
  cases a with
  | activate sessionHandle =>
    simp only [Supervisor.step]
    split
    · exact h.track false hcond
    · exact h
  | createSession temporaryHandle =>
    simp only [Supervisor.step]
    split
    · exact h.track true hcond
    · exact h
  | spawn runtime =>
    simp only [Supervisor.step]
    split
    · obtain ⟨⟨k, _⟩, hmem, rfl⟩ := hcond
      have htracked := InsertionMap.get?_of_mem hmem
      refine h.takeUp _ rfl ?_ ?_
      · intro t ht hhandle
        exact Nat.lt_succ_of_le (h.greatest htracked t ht hhandle)
      · intro k' id' hget hhandle
        exact h.handle_unique hget htracked hhandle
    · exact h
  | ready runtime sessionHandle =>
    simp only [Supervisor.step, Supervisor.ready]
    split
    · rename_i henabled
      obtain ⟨process, hprocess⟩ := Option.isSome_iff_exists.mp henabled.2
      exact h.takeUp
        { s.objects runtime with sessionHandle := sessionHandle, targetIsNew := false }
        hprocess hcond.1 (hsingle hcond.2)
    · exact h
  | identityTransition runtime nextHandle checks =>
    simp only [Supervisor.step]
    split
    · rename_i henabled
      split
      · exact h
      · rename_i hadmit
        obtain ⟨process, hprocess⟩ := Option.isSome_iff_exists.mp henabled.2.1
        have hadopted : (s.adoptTransitionTarget runtime nextHandle).IdentityInv :=
          h.takeUp
            { s.objects runtime with
              sessionHandle := nextHandle
              generation := (s.objects runtime).generation + 1
              incarnation := s.nextIncarnation }
            hprocess hcond.1 (hsingle hcond.2)
        refine hadopted.beginRekey ?_
        rw [Supervisor.adoptTransitionTarget, recordTaken_runtimes]
        exact admitTransition_tracked hadmit
    · exact h
  | commitNewSession temporaryHandle runtime =>
    simp only [Supervisor.step]
    split
    · split
      · exact h
      · rename_i hadmit
        exact h.beginRekey (admitNewSession_tracked hadmit)
    · exact h
  | forget sessionHandle =>
    simp only [Supervisor.step]
    split
    · exact h.congr rfl rfl rfl rfl get?_of_get?_erase
    · exact h
  | untrack sessionHandle runtime =>
    simp only [Supervisor.step]
    split
    · exact h.congr rfl rfl rfl rfl get?_of_get?_erase
    · exact h
  | rebuild sessionHandle =>
    simp only [Supervisor.step]
    split
    · rename_i existing _ hexisting
      exact h.rebuild hexisting rfl rfl rfl
    · exact h
  | publish runtime =>
    simp only [Supervisor.step]
    split
    · exact h
    · rename_i process hprocess
      refine ⟨h.tracked_lt, h.tracked_unique, h.handle_unique, h.elsewhere, h.greatest,
        h.taken_unique, h.running, ?_⟩
      intro t ht
      rcases List.mem_cons.mp ht with rfl | ht
      · exact h.running runtime process hprocess
      · exact h.published_sub t ht
  | _ =>
    simp only [Supervisor.step]
    repeat' split
    all_goals exact h.congr rfl rfl rfl rfl fun hget => hget

/-- Process identity: along a run whose runtimes continue the generations of their handles, frames
published under one handle and generation come from one process. -/
theorem process_identity_unique (actions : List SupervisorAction)
    (h : RunMeets Supervisor.step ContinuesHandle initial actions) :
    ∀ p ∈ (run actions).published, ∀ q ∈ (run actions).published,
      p.sessionHandle = q.sessionHandle → p.generation = q.generation → p.process = q.process := by
  have hinv : (run actions).IdentityInv :=
    h.invariant (fun s a hcond hs => hs.step a hcond) .initial
  intro p hp q hq
  exact hinv.taken_unique p (hinv.published_sub p hp) q (hinv.published_sub q hq)

/-- A fork, the next process of the child, and a publication of each. -/
theorem process_identity_unique_fork :
    let s := run [.activate (js "P"), .spawn 0, .publish 0,
      .identityTransition 0 (js "C") ⟨true, false⟩, .leaseActor, .publish 0, .spawn 0, .publish 0]
    ∀ p ∈ s.published, ∀ q ∈ s.published,
      p.sessionHandle = q.sessionHandle → p.generation = q.generation → p.process = q.process :=
  process_identity_unique [.activate (js "P"), .spawn 0, .publish 0,
    .identityTransition 0 (js "C") ⟨true, false⟩, .leaseActor, .publish 0, .spawn 0, .publish 0]
    (by decide +kernel)

/-- The parent of a fork is opened again: its new runtime object starts at generation zero, and its
process publishes under the identity of the process that forked away. -/
theorem exists_shared_identity :
    ∃ actions, ∃ p ∈ (run actions).published, ∃ q ∈ (run actions).published,
      p.sessionHandle = q.sessionHandle ∧ p.generation = q.generation ∧ p.process ≠ q.process := by
  refine ⟨[.activate (js "P"), .spawn 0, .publish 0,
    .identityTransition 0 (js "C") ⟨true, false⟩, .leaseActor,
    .activate (js "P"), .spawn 1, .publish 1], ⟨js "P", 1, 2⟩, ?_, ⟨js "P", 1, 5⟩, ?_, ?_⟩
  · decide +kernel
  · decide +kernel
  · decide

end Supervisor

end PiAgentWeb
