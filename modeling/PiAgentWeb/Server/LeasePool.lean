import PiAgentWeb.Server.LeaseOperations
import PiAgentWeb.Server.Supervisor

/-!
# The pool behind the leases

The pool decides which runtime may commit under which handle: the runtime tracked there, and the
one the holder of the pool lock has captured. Every action keeps these bindings lawful, and every
action keeps the invariant of the lease table when the identities that runtimes take up were not
committed under before.
-/

namespace PiAgentWeb

/-- The handles under which a holder acts for its runtime. -/
def PoolHolder.captures : PoolHolder → RuntimeId → SessionHandle → Prop
  | .claim runtime sessionHandle _, id, k => id = runtime ∧ k = sessionHandle
  | .takeover runtime sessionHandle _ _ _, id, k => id = runtime ∧ k = sessionHandle
  | .rekey previousHandle nextHandle runtime, id, k =>
    id = runtime ∧ (k = previousHandle ∨ k = nextHandle)
  | .forget _, _, _ => False

/-- The handles a holder captured for a runtime. -/
def PoolHolder.handles : PoolHolder → RuntimeId → List SessionHandle
  | .claim runtime sessionHandle _, id => if id = runtime then [sessionHandle] else []
  | .takeover runtime sessionHandle _ _ _, id => if id = runtime then [sessionHandle] else []
  | .rekey previousHandle nextHandle runtime, id =>
    if id = runtime then [previousHandle, nextHandle] else []
  | .forget _, _ => []

/-- `handles` lists what a holder captured. -/
theorem PoolHolder.mem_handles {holder : PoolHolder} {id : RuntimeId} {k : SessionHandle} :
    k ∈ holder.handles id ↔ holder.captures id k := by
  cases holder with
  | claim runtime sessionHandle connectionId =>
    by_cases hid : id = runtime <;> simp [handles, captures, hid]
  | takeover runtime sessionHandle generation revision connectionId =>
    by_cases hid : id = runtime <;> simp [handles, captures, hid]
  | rekey previousHandle nextHandle runtime =>
    by_cases hid : id = runtime <;> simp [handles, captures, hid]
  | forget sessionHandle => simp [handles, captures]

namespace Supervisor

/-- The runtime is tracked under the handle, or the holder of the pool lock captured both. -/
def Bound (s : Supervisor) (id : RuntimeId) (k : SessionHandle) : Prop :=
  s.runtimes.get? k = some id ∨ ∃ holder, s.holder = some holder ∧ holder.captures id k

/-- The handles a runtime is bound to. -/
def boundHandles (s : Supervisor) (id : RuntimeId) : List SessionHandle :=
  (s.runtimes.entries.filter fun entry => entry.2 = id).map Prod.fst ++
    s.holder.elim [] fun holder => holder.handles id

variable {id : RuntimeId}

/-- `boundHandles` lists the bindings. -/
theorem mem_boundHandles {s : Supervisor} {k : SessionHandle} :
    k ∈ s.boundHandles id ↔ s.Bound id k := by
  have htracked : k ∈ (s.runtimes.entries.filter fun entry => entry.2 = id).map Prod.fst ↔
      s.runtimes.get? k = some id := by
    rw [InsertionMap.get?_eq_some_iff]
    simp
  rw [boundHandles, List.mem_append, htracked, Bound]
  cases s.holder with
  | none => simp
  | some holder => simp [PoolHolder.mem_handles]

/-- The runtime keeps its lease under the handle: during a rekey still under the previous one. -/
def Home (s : Supervisor) (id : RuntimeId) (k : SessionHandle) : Prop :=
  s.Bound id k ∧ ∀ previousHandle nextHandle,
    s.holder = some (.rekey previousHandle nextHandle id) → k = previousHandle

/-- The binding a supervisor gives the lease actor. -/
def binding (s : Supervisor) : Binding where
  bound := s.Bound
  home := s.Home
  target := s.target

/-- What the pool keeps. -/
structure PoolInv (s : Supervisor) : Prop where
  lawful : s.binding.Lawful s.nextIncarnation
  tracked_unique : ∀ {k k' id}, s.runtimes.get? k = some id → s.runtimes.get? k' = some id → k = k'
  bound_lt : ∀ {id k}, s.Bound id k → id < s.nextRuntime
  forgotten : ∀ {k}, s.holder = some (.forget k) → s.runtimes.get? k = none
  rekeyed : ∀ {p n id k}, s.holder = some (.rekey p n id) → s.runtimes.get? k = some id → k = n

/-- The invariant of a supervisor: a lawful pool, a lease table that fits it, and a takeover in
progress whose runtime left the expected generation only for an untouched one. -/
structure LeaseInv (s : Supervisor) : Prop where
  pool : s.PoolInv
  table : s.table.Inv s.binding s.nextIncarnation
  takeover : ∀ id k generation revision connectionId,
    s.holder = some (.takeover id k generation revision connectionId) →
      (s.objects id).generation = generation ∨ s.table.Untouched k (s.objects id).generation

variable {s : Supervisor}

/-- Without a holder the bindings are the tracked runtimes. -/
theorem bound_of_free (s : Supervisor) (hfree : s.holder = none) {k : SessionHandle} :
    s.Bound id k ↔ s.runtimes.get? k = some id := by
  simp [Bound, hfree]

/-- Without a holder the lease of a runtime is kept where the runtime is tracked. -/
theorem home_of_free (s : Supervisor) (hfree : s.holder = none) {k : SessionHandle} :
    s.Home id k ↔ s.runtimes.get? k = some id := by
  simp [Home, Bound, hfree]

/-- The pool invariant when nobody holds the pool lock. -/
theorem PoolInv.of_free (hfree : s.holder = none)
    (hunique : ∀ {k k' id}, s.runtimes.get? k = some id → s.runtimes.get? k' = some id → k = k')
    (hlt : ∀ {k id}, s.runtimes.get? k = some id →
      id < s.nextRuntime ∧ (s.objects id).incarnation < s.nextIncarnation)
    (hdistinct : ∀ {k k' id id'}, s.runtimes.get? k = some id → s.runtimes.get? k' = some id' →
      (s.objects id).incarnation = (s.objects id').incarnation → id = id') : s.PoolInv where
  lawful :=
    { unique := by
        intro id id' k h h'
        have h := (bound_of_free s hfree).mp h
        have h' := (bound_of_free s hfree).mp h'
        exact Option.some.inj (h.symm.trans h')
      bound_of_home := And.left
      home_unique := fun h h' => hunique ((home_of_free s hfree).mp h)
        ((home_of_free s hfree).mp h')
      distinct := fun h h' =>
        hdistinct ((bound_of_free s hfree).mp h) ((bound_of_free s hfree).mp h')
      incarnation_lt := fun h => (hlt ((bound_of_free s hfree).mp h)).2 }
  tracked_unique := hunique
  bound_lt := fun h => (hlt ((bound_of_free s hfree).mp h)).1
  forgotten := by simp [hfree]
  rekeyed := by simp [hfree]

/-- A new supervisor meets the invariant. -/
theorem LeaseInv.initial : initial.LeaseInv where
  pool := .of_free rfl (by simp [Supervisor.initial]) (by simp [Supervisor.initial])
    (by simp [Supervisor.initial])
  table := .empty
  takeover := by simp [Supervisor.initial]

/-- An action of the lease actor outside the pool lock only gives leases up. -/
theorem LeaseInv.frees (h : s.LeaseInv) {table : LeaseTable}
    (hfrees : LeaseTable.Frees s.binding s.nextIncarnation s.table table) :
    { s with table := table }.LeaseInv where
  pool := ⟨h.pool.lawful, h.pool.tracked_unique, h.pool.bound_lt, h.pool.forgotten,
    h.pool.rekeyed⟩
  table := hfrees.inv
  takeover := by
    intro id k generation revision connectionId hholder
    rcases h.takeover id k generation revision connectionId hholder with hgen | huntouched
    · exact Or.inl hgen
    · refine Or.inr ?_
      intro c hc hat
      obtain ⟨c', hc', hat'⟩ := hfrees.identities c hc
      exact huntouched c' hc' ⟨hat'.1.symm.trans hat.1, hat'.2.symm.trans hat.2⟩

/-- The target `release` passes to the lease actor is that of a runtime bound to the handle. -/
theorem trackedTarget_bound (s : Supervisor) (k : SessionHandle) :
    ∀ t, s.trackedTarget k = some t → ∃ id, t = s.binding.target id ∧ s.binding.bound id k := by
  intro t ht
  obtain ⟨id, hid, rfl⟩ := Option.map_eq_some_iff.mp ht
  exact ⟨id, rfl, Or.inl hid⟩

/-- Tracking a new runtime keeps the invariant when its identity is untouched. -/
theorem LeaseInv.track (h : s.LeaseInv) (hfree : s.holder = none) {k : SessionHandle}
    (hnew : s.runtimes.get? k = none) (targetIsNew : Bool) (huntouched : s.table.Untouched k 0) :
    (s.track k targetIsNew).LeaseInv := by
  have htracked : ∀ {k' id}, (s.track k targetIsNew).runtimes.get? k' = some id →
      (k' = k ∧ id = s.nextRuntime) ∨
        (s.runtimes.get? k' = some id ∧ id ≠ s.nextRuntime ∧
          (s.track k targetIsNew).objects id = s.objects id) := by
    intro k' id hget
    rw [Supervisor.track, InsertionMap.get?_insert] at hget
    by_cases hk : k' = k
    · rw [if_pos hk] at hget
      exact Or.inl ⟨hk, (Option.some.inj hget).symm⟩
    · rw [if_neg hk] at hget
      have hne : id ≠ s.nextRuntime := Nat.ne_of_lt (h.pool.bound_lt (Or.inl hget))
      exact Or.inr ⟨hget, hne, Function.update_of_ne hne _ _⟩
  have hobject : ((s.track k targetIsNew).objects s.nextRuntime).incarnation =
      s.nextIncarnation := by
    simp [Supervisor.track]
  have hfree' : (s.track k targetIsNew).holder = none := hfree
  constructor
  · refine .of_free hfree' ?_ ?_ ?_
    · intro k₁ k₂ id h₁ h₂
      rcases htracked h₁ with ⟨hk₁, hid₁⟩ | ⟨hold₁, hne₁, _⟩ <;>
        rcases htracked h₂ with ⟨hk₂, hid₂⟩ | ⟨hold₂, hne₂, _⟩
      · rw [hk₁, hk₂]
      · exact absurd hid₁ hne₂
      · exact absurd hid₂ hne₁
      · exact h.pool.tracked_unique hold₁ hold₂
    · intro k' id hget
      rcases htracked hget with ⟨_, rfl⟩ | ⟨hold, _, hobj⟩
      · rw [hobject]
        exact ⟨Nat.lt_succ_self _, Nat.lt_succ_self _⟩
      · rw [hobj]
        have hinc := h.pool.lawful.incarnation_lt (Or.inl hold)
        exact ⟨Nat.lt_succ_of_lt (h.pool.bound_lt (Or.inl hold)), Nat.lt_succ_of_lt hinc⟩
    · intro k₁ k₂ id₁ id₂ h₁ h₂ hinc
      rcases htracked h₁ with ⟨_, rfl⟩ | ⟨hold₁, _, hobj₁⟩ <;>
        rcases htracked h₂ with ⟨_, rfl⟩ | ⟨hold₂, _, hobj₂⟩
      · rfl
      · rw [hobject, hobj₂] at hinc
        have hlt : (s.objects id₂).incarnation < s.nextIncarnation :=
          h.pool.lawful.incarnation_lt (Or.inl hold₂)
        omega
      · rw [hobject, hobj₁] at hinc
        have hlt : (s.objects id₁).incarnation < s.nextIncarnation :=
          h.pool.lawful.incarnation_lt (Or.inl hold₁)
        omega
      · rw [hobj₁, hobj₂] at hinc
        exact h.pool.lawful.distinct (Or.inl hold₁) (Or.inl hold₂) hinc
  · have htarget : ∀ {id}, (s.track k targetIsNew).objects id = s.objects id →
        s.binding.target id = (s.track k targetIsNew).binding.target id := by
      intro id hobj
      change s.target id = (s.track k targetIsNew).target id
      simp only [target, hobj]
    refine h.table.rebind (Nat.le_succ _) ?_ ?_ ?_
    · intro id k' hbound
      rcases htracked ((bound_of_free _ hfree').mp hbound) with ⟨rfl, rfl⟩ | ⟨hold, _, hobj⟩
      · right
        have hgen : ((s.track k' targetIsNew).binding.target s.nextRuntime).generation = 0 := by
          change ((s.track k' targetIsNew).objects s.nextRuntime).generation = 0
          simp [Supervisor.track]
        rwa [hgen]
      · exact Or.inl ⟨id, Or.inl hold, htarget hobj⟩
    · intro id k' hbound
      rcases htracked ((bound_of_free _ hfree').mp hbound) with ⟨_, rfl⟩ | ⟨hold, _, hobj⟩
      · exact Or.inr hobject.ge
      · exact Or.inl ⟨id, k', Or.inl hold, htarget hobj⟩
    · intro id k' hhome
      rcases htracked ((home_of_free _ hfree').mp hhome) with ⟨_, rfl⟩ | ⟨hold, _, hobj⟩
      · exact Or.inr hobject.ge
      · exact Or.inl ⟨id, (home_of_free s hfree).mpr hold, htarget hobj⟩
  · intro id k' generation revision connectionId hholder
    rw [hfree'] at hholder
    cases hholder

/-- The record of taken identities plays no part for leases. -/
theorem LeaseInv.recordTaken (h : s.LeaseInv) (id : RuntimeId) : (s.recordTaken id).LeaseInv := by
  unfold Supervisor.recordTaken
  split
  · exact h
  · exact ⟨⟨h.pool.lawful, h.pool.tracked_unique, h.pool.bound_lt, h.pool.forgotten,
      h.pool.rekeyed⟩, h.table, h.takeover⟩

/-- Runtime objects may change in what the lease actor does not read. -/
theorem LeaseInv.objects (h : s.LeaseInv) {objects : RuntimeId → SessionRuntime}
    (hgen : ∀ id, (objects id).generation = (s.objects id).generation)
    (hinc : ∀ id, (objects id).incarnation = (s.objects id).incarnation) :
    { s with objects := objects }.LeaseInv := by
  have hbinding : { s with objects := objects }.binding = s.binding := by
    have htarget : { s with objects := objects }.target = s.target := by
      funext id
      simp only [target, hgen, hinc]
    simp only [binding, htarget]
    rfl
  refine ⟨⟨?_, h.pool.tracked_unique, h.pool.bound_lt, h.pool.forgotten, h.pool.rekeyed⟩, ?_, ?_⟩
  · rw [hbinding]
    exact h.pool.lawful
  · rw [hbinding]
    exact h.table
  · intro id k generation revision connectionId hholder
    change (objects id).generation = generation ∨ s.table.Untouched k (objects id).generation
    rw [hgen]
    exact h.takeover id k generation revision connectionId hholder

/-- A runtime may begin an incarnation at a generation that is untouched under its handles. -/
theorem LeaseInv.renew (h : s.LeaseInv) {object : SessionRuntime}
    (hinc : object.incarnation = s.nextIncarnation)
    (huntouched : ∀ k, s.Bound id k → s.table.Untouched k object.generation) :
    { s with
      objects := Function.update s.objects id object
      nextIncarnation := s.nextIncarnation + 1 }.LeaseInv := by
  have hself : Function.update s.objects id object id = object := Function.update_self ..
  have hother : ∀ id', id' ≠ id → Function.update s.objects id object id' = s.objects id' :=
    fun id' hne => Function.update_of_ne hne _ _
  have hold : ∀ {id' k}, s.Bound id' k → (s.objects id').incarnation < s.nextIncarnation :=
    fun hbound => h.pool.lawful.incarnation_lt hbound
  refine ⟨⟨⟨h.pool.lawful.unique, And.left, h.pool.lawful.home_unique, ?_, ?_⟩,
    h.pool.tracked_unique, h.pool.bound_lt, h.pool.forgotten, h.pool.rekeyed⟩, ?_, ?_⟩
  · intro id₁ id₂ k₁ k₂ h₁ h₂ heq
    change (Function.update s.objects id object id₁).incarnation =
      (Function.update s.objects id object id₂).incarnation at heq
    by_cases hid₁ : id₁ = id <;> by_cases hid₂ : id₂ = id
    · rw [hid₁, hid₂]
    · rw [hid₁, hself, hother id₂ hid₂, hinc] at heq
      have hlt := hold h₂
      omega
    · rw [hid₂, hself, hother id₁ hid₁, hinc] at heq
      have hlt := hold h₁
      omega
    · rw [hother id₁ hid₁, hother id₂ hid₂] at heq
      exact h.pool.lawful.distinct h₁ h₂ heq
  · intro id' k hbound
    change (Function.update s.objects id object id').incarnation < s.nextIncarnation + 1
    by_cases hid : id' = id
    · rw [hid, hself, hinc]
      exact Nat.lt_succ_self _
    · rw [hother id' hid]
      exact Nat.lt_succ_of_lt (hold hbound)
  · have hnew : ∀ id' k, s.Bound id' k →
        (id' ≠ id ∧ s.target id' =
          ⟨(Function.update s.objects id object id').generation,
            (Function.update s.objects id object id').incarnation⟩) ∨
          (id' = id ∧ s.nextIncarnation ≤ (Function.update s.objects id object id').incarnation ∧
            s.table.Untouched k (Function.update s.objects id object id').generation) := by
      intro id' k hbound
      by_cases hid : id' = id
      · subst hid
        rw [hself]
        exact Or.inr ⟨rfl, hinc.ge, huntouched k hbound⟩
      · rw [hother id' hid]
        exact Or.inl ⟨hid, rfl⟩
    refine h.table.rebind (Nat.le_succ _) ?_ ?_ ?_
    · intro id' k hbound
      rcases hnew id' k hbound with ⟨_, heq⟩ | ⟨_, _, hun⟩
      · exact Or.inl ⟨id', hbound, heq⟩
      · exact Or.inr hun
    · intro id' k hbound
      rcases hnew id' k hbound with ⟨_, heq⟩ | ⟨_, hle, _⟩
      · exact Or.inl ⟨id', k, hbound, heq⟩
      · exact Or.inr hle
    · intro id' k hhome
      rcases hnew id' k hhome.1 with ⟨_, heq⟩ | ⟨_, hle, _⟩
      · exact Or.inl ⟨id', hhome, heq⟩
      · exact Or.inr hle
  · intro id' k generation revision connectionId hholder
    change (Function.update s.objects id object id').generation = generation ∨
      s.table.Untouched k (Function.update s.objects id object id').generation
    by_cases hid : id' = id
    · subst hid
      rw [hself]
      exact Or.inr (huntouched k (Or.inr ⟨_, hholder, rfl, rfl⟩))
    · rw [hother id' hid]
      exact h.takeover id' k generation revision connectionId hholder

/-- Handles may be dropped from the tracked ones. -/
theorem LeaseInv.drop (h : s.LeaseInv) {runtimes : InsertionMap SessionHandle RuntimeId}
    (hsub : ∀ {k id}, runtimes.get? k = some id → s.runtimes.get? k = some id) :
    { s with runtimes := runtimes }.LeaseInv := by
  have hbound : ∀ {id k}, { s with runtimes := runtimes }.Bound id k → s.Bound id k :=
    fun hb => hb.imp_left hsub
  have hhome : ∀ {id k}, { s with runtimes := runtimes }.Home id k → s.Home id k :=
    fun hh => ⟨hbound hh.1, hh.2⟩
  refine ⟨⟨⟨?_, And.left, ?_, ?_, ?_⟩, ?_, ?_, ?_, ?_⟩, ?_, h.takeover⟩
  · exact fun h₁ h₂ => h.pool.lawful.unique (hbound h₁) (hbound h₂)
  · exact fun h₁ h₂ => h.pool.lawful.home_unique (hhome h₁) (hhome h₂)
  · exact fun h₁ h₂ => h.pool.lawful.distinct (hbound h₁) (hbound h₂)
  · exact fun hb => h.pool.lawful.incarnation_lt (hbound hb)
  · exact fun h₁ h₂ => h.pool.tracked_unique (hsub h₁) (hsub h₂)
  · exact fun hb => h.pool.bound_lt (hbound hb)
  · intro k hholder
    cases hget : runtimes.get? k with
    | none => rfl
    | some id =>
      have hnone := h.pool.forgotten hholder
      rw [hsub hget] at hnone
      cases hnone
  · exact fun hholder hget => h.pool.rekeyed hholder (hsub hget)
  · refine h.table.rebind le_rfl ?_ ?_ ?_
    · exact fun id k hb => Or.inl ⟨id, hbound hb, rfl⟩
    · exact fun id k hb => Or.inl ⟨id, k, hbound hb, rfl⟩
    · exact fun id k hh => Or.inl ⟨id, hhome hh, rfl⟩

/-- The pool lock is taken for a runtime under the handle it is tracked at. -/
theorem LeaseInv.hold (h : s.LeaseInv) (hfree : s.holder = none) {holder : PoolHolder}
    (hcaptures : ∀ id k, holder.captures id k → s.runtimes.get? k = some id)
    (hforget : ∀ k, holder = .forget k → s.runtimes.get? k = none)
    (hrekey : ∀ p n id, holder ≠ .rekey p n id)
    (htakeover : ∀ id k generation revision connectionId,
      holder = .takeover id k generation revision connectionId →
        (s.objects id).generation = generation) :
    { s with holder := some holder }.LeaseInv := by
  have hbound : ∀ {id k}, { s with holder := some holder }.Bound id k →
      s.runtimes.get? k = some id := by
    rintro id k (htracked | ⟨holder', hholder', hcaptured⟩)
    · exact htracked
    · cases hholder'
      exact hcaptures id k hcaptured
  have hlawful := h.pool.lawful
  refine ⟨⟨⟨?_, And.left, ?_, ?_, ?_⟩, h.pool.tracked_unique, ?_, ?_, ?_⟩, ?_, ?_⟩
  · intro id id' k h₁ h₂
    exact hlawful.unique (Or.inl (hbound h₁)) (Or.inl (hbound h₂))
  · intro id k k' h₁ h₂
    exact h.pool.tracked_unique (hbound h₁.1) (hbound h₂.1)
  · intro id id' k k' h₁ h₂
    exact hlawful.distinct (Or.inl (hbound h₁)) (Or.inl (hbound h₂))
  · intro id k hb
    exact hlawful.incarnation_lt (Or.inl (hbound hb))
  · exact fun hb => h.pool.bound_lt (Or.inl (hbound hb))
  · intro k hholder
    exact hforget k (Option.some.inj hholder)
  · intro p n id k hholder
    exact absurd (Option.some.inj hholder) (hrekey p n id)
  · refine h.table.rebind le_rfl ?_ ?_ ?_
    · exact fun id k hb => Or.inl ⟨id, Or.inl (hbound hb), rfl⟩
    · exact fun id k hb => Or.inl ⟨id, k, Or.inl (hbound hb), rfl⟩
    · exact fun id k hh => Or.inl ⟨id, (home_of_free s hfree).mpr (hbound hh.1), rfl⟩
  · intro id k generation revision connectionId hholder
    exact Or.inl (htakeover id k generation revision connectionId (Option.some.inj hholder))

/-- A runtime is tracked under its own handle instead of the previous one, before its lease
follows; the identity it brings there is untouched. -/
theorem LeaseInv.beginRekey (h : s.LeaseInv) (hfree : s.holder = none)
    {previousHandle : SessionHandle} (htracked : s.runtimes.get? previousHandle = some id)
    (huntouched : s.table.Untouched (s.objects id).sessionHandle (s.objects id).generation) :
    (s.beginRekey previousHandle id).LeaseInv := by
  have hown : ∀ {k id'}, (s.beginRekey previousHandle id).runtimes.get? k = some id' →
      (k = (s.objects id).sessionHandle ∧ id' = id) ∨
        (k ≠ (s.objects id).sessionHandle ∧ id' ≠ id ∧ s.runtimes.get? k = some id') :=
    beginRekey_cases fun hget => h.pool.tracked_unique hget htracked
  -- a bound runtime is the moved one at either handle, or another one where it was
  have hbound : ∀ {id' k}, (s.beginRekey previousHandle id).Bound id' k →
      (id' = id ∧ (k = previousHandle ∨ k = (s.objects id).sessionHandle)) ∨
        (id' ≠ id ∧ k ≠ (s.objects id).sessionHandle ∧ s.runtimes.get? k = some id') := by
    rintro id' k (hget | ⟨holder, hholder, hcaptured⟩)
    · rcases hown hget with ⟨hk, hid⟩ | ⟨hk, hid, hget⟩
      · exact Or.inl ⟨hid, Or.inr hk⟩
      · exact Or.inr ⟨hid, hk, hget⟩
    · cases hholder
      exact Or.inl hcaptured
  have hhome : ∀ {id' k}, (s.beginRekey previousHandle id).Home id' k →
      s.runtimes.get? k = some id' := by
    rintro id' k ⟨hb, hmoving⟩
    rcases hbound hb with ⟨rfl, _⟩ | ⟨_, _, hget⟩
    · rw [hmoving previousHandle _ rfl]
      exact htracked
    · exact hget
  have hsame : ∀ {id' k}, (s.beginRekey previousHandle id).Bound id' k →
      ∃ k₀, s.runtimes.get? k₀ = some id' := by
    intro id' k hb
    rcases hbound hb with ⟨rfl, _⟩ | ⟨_, _, hget⟩
    · exact ⟨_, htracked⟩
    · exact ⟨_, hget⟩
  have hlawful := h.pool.lawful
  refine ⟨⟨⟨?_, And.left, ?_, ?_, ?_⟩, ?_, ?_, ?_, ?_⟩, ?_, ?_⟩
  · intro id₁ id₂ k h₁ h₂
    rcases hbound h₁ with ⟨rfl, hk₁⟩ | ⟨hid₁, hk₁, hget₁⟩ <;>
      rcases hbound h₂ with ⟨rfl, hk₂⟩ | ⟨hid₂, hk₂, hget₂⟩
    · rfl
    · rcases hk₁ with rfl | rfl
      · exact Option.some.inj (htracked.symm.trans hget₂)
      · exact absurd rfl hk₂
    · rcases hk₂ with rfl | rfl
      · exact Option.some.inj (hget₁.symm.trans htracked)
      · exact absurd rfl hk₁
    · exact Option.some.inj (hget₁.symm.trans hget₂)
  · exact fun h₁ h₂ => h.pool.tracked_unique (hhome h₁) (hhome h₂)
  · intro id₁ id₂ k₁ k₂ h₁ h₂
    obtain ⟨_, hget₁⟩ := hsame h₁
    obtain ⟨_, hget₂⟩ := hsame h₂
    exact hlawful.distinct (Or.inl hget₁) (Or.inl hget₂)
  · intro id' k hb
    obtain ⟨_, hget⟩ := hsame hb
    exact hlawful.incarnation_lt (Or.inl hget)
  · intro k₁ k₂ id' h₁ h₂
    rcases hown h₁ with ⟨hk₁, hid₁⟩ | ⟨_, hid₁, hget₁⟩ <;>
      rcases hown h₂ with ⟨hk₂, hid₂⟩ | ⟨_, hid₂, hget₂⟩
    · rw [hk₁, hk₂]
    · exact absurd hid₁ hid₂
    · exact absurd hid₂ hid₁
    · exact h.pool.tracked_unique hget₁ hget₂
  · intro id' k hb
    obtain ⟨_, hget⟩ := hsame hb
    exact h.pool.bound_lt (Or.inl hget)
  · intro k hholder
    cases hholder
  · intro p n id' k hholder hget
    cases hholder
    rcases hown hget with ⟨hk, _⟩ | ⟨_, hid, _⟩
    · exact hk
    · exact absurd rfl hid
  · refine h.table.rebind le_rfl ?_ ?_ ?_
    · intro id' k hb
      rcases hbound hb with ⟨rfl, rfl | rfl⟩ | ⟨_, _, hget⟩
      · exact Or.inl ⟨id', Or.inl htracked, rfl⟩
      · exact Or.inr huntouched
      · exact Or.inl ⟨id', Or.inl hget, rfl⟩
    · intro id' k hb
      obtain ⟨k₀, hget⟩ := hsame hb
      exact Or.inl ⟨id', k₀, Or.inl hget, rfl⟩
    · intro id' k hh
      exact Or.inl ⟨id', (home_of_free s hfree).mpr (hhome hh), rfl⟩
  · intro id' k generation revision connectionId hholder
    cases hholder

/-- The holder leaves the pool lock with a lease table that fits the tracked runtimes. -/
theorem LeaseInv.leave (h : s.LeaseInv) {table : LeaseTable}
    (htable : table.Inv { s with table := table, holder := none }.binding s.nextIncarnation) :
    { s with table := table, holder := none }.LeaseInv where
  pool := by
    refine .of_free rfl h.pool.tracked_unique ?_ ?_
    · intro k id hget
      exact ⟨h.pool.bound_lt (Or.inl hget), h.pool.lawful.incarnation_lt (Or.inl hget)⟩
    · intro k k' id id' hget hget' hinc
      exact h.pool.lawful.distinct (Or.inl hget) (Or.inl hget') hinc
  table := htable
  takeover := by
    intro id k generation revision connectionId hholder
    cases hholder

/-- A table that fits a holder which moves no lease fits the tracked runtimes. -/
theorem LeaseInv.leave_unmoved (h : s.LeaseInv) {table : LeaseTable}
    (hrekey : ∀ p n id, s.holder ≠ some (.rekey p n id))
    (htable : table.Inv s.binding s.nextIncarnation) :
    { s with table := table, holder := none }.LeaseInv := by
  have htracked : ∀ {id k}, { s with table := table, holder := none }.Bound id k →
      s.Bound id k := fun hbound =>
    Or.inl ((bound_of_free { s with table := table, holder := none } rfl).mp hbound)
  refine h.leave (htable.rebind le_rfl ?_ ?_ ?_)
  · intro id k hbound
    exact Or.inl ⟨id, htracked hbound, rfl⟩
  · intro id k hbound
    exact Or.inl ⟨id, k, htracked hbound, rfl⟩
  · intro id k hhome
    exact Or.inl ⟨id, ⟨htracked hhome.1, fun p n hholder => absurd hholder (hrekey p n id)⟩, rfl⟩

/-- The lease actor runs the body the holder awaits. -/
theorem LeaseInv.leaseActor (h : s.LeaseInv) {holder : PoolHolder}
    (hholder : s.holder = some holder) :
    { s with table := s.holderBody holder, holder := none }.LeaseInv := by
  have hlawful := h.pool.lawful
  cases holder with
  | claim runtime sessionHandle connectionId =>
    have hrekey : ∀ p n id, s.holder ≠ some (.rekey p n id) := by simp [hholder]
    have hhome : s.binding.home runtime sessionHandle :=
      ⟨Or.inr ⟨_, hholder, rfl, rfl⟩, fun p n heq => absurd heq (hrekey p n runtime)⟩
    exact h.leave_unmoved hrekey (h.table.claim hlawful hhome connectionId)
  | takeover runtime sessionHandle generation revision connectionId =>
    have hrekey : ∀ p n id, s.holder ≠ some (.rekey p n id) := by simp [hholder]
    have hhome : s.binding.home runtime sessionHandle :=
      ⟨Or.inr ⟨_, hholder, rfl, rfl⟩, fun p n heq => absurd heq (hrekey p n runtime)⟩
    exact h.leave_unmoved hrekey (h.table.takeover hlawful hhome revision connectionId)
  | rekey previousHandle nextHandle runtime =>
    have htracked : ∀ {id k}, { s with
        table := s.holderBody (.rekey previousHandle nextHandle runtime)
        holder := none }.Bound id k → s.runtimes.get? k = some id :=
      (bound_of_free { s with
        table := s.holderBody (.rekey previousHandle nextHandle runtime)
        holder := none } rfl).mp
    refine h.leave (h.table.rekey hlawful ?_)
    refine ⟨rfl, fun hb => Or.inl (htracked hb), ?_, ?_, ?_⟩
    · refine ⟨Or.inr ⟨_, hholder, rfl, Or.inl rfl⟩, ?_⟩
      intro p n heq
      rw [hholder] at heq
      cases heq
      rfl
    · exact Or.inr ⟨_, hholder, rfl, Or.inr rfl⟩
    · intro id k hhome
      have hget := htracked hhome.1
      by_cases hid : id = runtime
      · subst hid
        exact Or.inl ⟨rfl, h.pool.rekeyed hholder hget⟩
      · refine Or.inr ⟨hid, Or.inl hget, ?_⟩
        intro p n heq
        rw [hholder] at heq
        cases heq
        exact absurd rfl hid
  | forget sessionHandle =>
    refine h.leave_unmoved (by simp [hholder]) (h.table.delete ?_)
    rintro id ⟨hget | ⟨holder, heq, hcaptured⟩, _⟩
    · rw [h.pool.forgotten hholder] at hget
      cases hget
    · rw [hholder] at heq
      cases heq
      exact hcaptured

/-- A runtime may be replaced by one that continues its identity. -/
theorem LeaseInv.rebuild (h : s.LeaseInv) (hfree : s.holder = none) {k : SessionHandle}
    {existing : RuntimeId} (htracked : s.runtimes.get? k = some existing)
    {object : SessionRuntime} (hgen : object.generation = (s.objects existing).generation)
    (hinc : object.incarnation = (s.objects existing).incarnation) :
    { s with
      runtimes := s.runtimes.insert k s.nextRuntime
      objects := Function.update s.objects s.nextRuntime object
      nextRuntime := s.nextRuntime + 1 }.LeaseInv := by
  -- what is tracked afterwards stands for a runtime that was tracked there before
  have hold : ∀ {k' id}, (s.runtimes.insert k s.nextRuntime).get? k' = some id →
      ∃ id₀, s.runtimes.get? k' = some id₀ ∧
        (Function.update s.objects s.nextRuntime object id).generation =
          (s.objects id₀).generation ∧
        (Function.update s.objects s.nextRuntime object id).incarnation =
          (s.objects id₀).incarnation ∧
        (id = id₀ ∨ (id = s.nextRuntime ∧ id₀ = existing)) ∧ (id₀ = existing ↔ k' = k) := by
    intro k' id hget
    rw [InsertionMap.get?_insert] at hget
    by_cases hk : k' = k
    · rw [if_pos hk] at hget
      cases hget
      rw [Function.update_self, hk]
      exact ⟨existing, htracked, hgen, hinc, Or.inr ⟨rfl, rfl⟩, by simp⟩
    · rw [if_neg hk] at hget
      have hne : id ≠ s.nextRuntime := Nat.ne_of_lt (h.pool.bound_lt (Or.inl hget))
      rw [Function.update_of_ne hne]
      refine ⟨id, hget, rfl, rfl, Or.inl rfl, ?_, fun heq => absurd heq hk⟩
      rintro rfl
      exact h.pool.tracked_unique hget htracked
  have hlawful := h.pool.lawful
  have htarget : ∀ {k' id}, (s.runtimes.insert k s.nextRuntime).get? k' = some id →
      ∃ id₀, s.runtimes.get? k' = some id₀ ∧ s.target id₀ =
        ⟨(Function.update s.objects s.nextRuntime object id).generation,
          (Function.update s.objects s.nextRuntime object id).incarnation⟩ := by
    intro k' id hget
    obtain ⟨id₀, hget₀, hgen₀, hinc₀, _⟩ := hold hget
    rw [hgen₀, hinc₀]
    exact ⟨id₀, hget₀, rfl⟩
  have htracked' : ∀ {id k'}, { s with
      runtimes := s.runtimes.insert k s.nextRuntime
      objects := Function.update s.objects s.nextRuntime object
      nextRuntime := s.nextRuntime + 1 }.Bound id k' →
      (s.runtimes.insert k s.nextRuntime).get? k' = some id :=
    (bound_of_free { s with
      runtimes := s.runtimes.insert k s.nextRuntime
      objects := Function.update s.objects s.nextRuntime object
      nextRuntime := s.nextRuntime + 1 } hfree).mp
  refine ⟨.of_free hfree ?_ ?_ ?_, ?_, ?_⟩
  · intro k₁ k₂ id h₁ h₂
    obtain ⟨id₁, hget₁, _, _, hcase₁, hk₁⟩ := hold h₁
    obtain ⟨id₂, hget₂, _, _, hcase₂, hk₂⟩ := hold h₂
    have hlt₁ : id₁ < s.nextRuntime := h.pool.bound_lt (Or.inl hget₁)
    have hlt₂ : id₂ < s.nextRuntime := h.pool.bound_lt (Or.inl hget₂)
    have heq : id₁ = id₂ := by
      rcases hcase₁ with rfl | ⟨hid₁, rfl⟩ <;> rcases hcase₂ with rfl | ⟨hid₂, rfl⟩
      · rfl
      · exact absurd hid₂ (Nat.ne_of_lt hlt₁)
      · exact absurd hid₁ (Nat.ne_of_lt hlt₂)
      · rfl
    subst heq
    exact h.pool.tracked_unique hget₁ hget₂
  · intro k' id hget
    obtain ⟨id₀, hget₀, _, hinc₀, hcase, _⟩ := hold hget
    have hlt : id₀ < s.nextRuntime := h.pool.bound_lt (Or.inl hget₀)
    refine ⟨?_, ?_⟩
    · rcases hcase with rfl | ⟨rfl, _⟩
      · exact Nat.lt_succ_of_lt hlt
      · exact Nat.lt_succ_self _
    · exact hinc₀ ▸ hlawful.incarnation_lt (Or.inl hget₀)
  · intro k₁ k₂ id₁ id₂ h₁ h₂ heq
    obtain ⟨id₁', hget₁, _, hinc₁, hcase₁, hk₁⟩ := hold h₁
    obtain ⟨id₂', hget₂, _, hinc₂, hcase₂, hk₂⟩ := hold h₂
    have hsame : id₁' = id₂' := hlawful.distinct (Or.inl hget₁) (Or.inl hget₂)
      (hinc₁.symm.trans (heq.trans hinc₂))
    subst hsame
    have hk : k₁ = k₂ := h.pool.tracked_unique hget₁ hget₂
    subst hk
    exact Option.some.inj (h₁.symm.trans h₂)
  · refine h.table.rebind le_rfl ?_ ?_ ?_
    · intro id k' hbound
      obtain ⟨id₀, hget, heq⟩ := htarget (htracked' hbound)
      exact Or.inl ⟨id₀, Or.inl hget, heq⟩
    · intro id k' hbound
      obtain ⟨id₀, hget, heq⟩ := htarget (htracked' hbound)
      exact Or.inl ⟨id₀, k', Or.inl hget, heq⟩
    · intro id k' hhome
      obtain ⟨id₀, hget, heq⟩ := htarget (htracked' hhome.1)
      exact Or.inl ⟨id₀, (home_of_free s hfree).mpr hget, heq⟩
  · intro id k' generation revision connectionId hholder
    change s.holder = _ at hholder
    rw [hfree] at hholder
    cases hholder

end Supervisor

end PiAgentWeb
