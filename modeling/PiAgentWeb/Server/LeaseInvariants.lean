import PiAgentWeb.Server.Lease

/-!
# Invariants of the lease table

Which handles a runtime may commit under, and under which one its lease is kept, is decided by the
pool and is fixed while the lease actor runs. Relative to such a binding the lease actor keeps the
history of commits well formed, and keeps every entry equal to what its latest commit left.
-/

namespace PiAgentWeb

/-- Where the pool lets runtimes act on the lease table. -/
structure Binding where
  /-- The runtime may commit under the handle. -/
  bound : ℕ → SessionHandle → Prop
  /-- The lease of the runtime is kept under the handle. -/
  home : ℕ → SessionHandle → Prop
  /-- The identity of the runtime. -/
  target : ℕ → LeaseTable.Target

/-- A handle is bound to one runtime, a runtime has one home, and incarnations are not shared. -/
structure Binding.Lawful (B : Binding) (next : ℕ) : Prop where
  unique : ∀ {id id' k}, B.bound id k → B.bound id' k → id = id'
  bound_of_home : ∀ {id k}, B.home id k → B.bound id k
  home_unique : ∀ {id k k'}, B.home id k → B.home id k' → k = k'
  distinct : ∀ {id id' k k'}, B.bound id k → B.bound id' k' →
    (B.target id).incarnation = (B.target id').incarnation → id = id'
  incarnation_lt : ∀ {id k}, B.bound id k → (B.target id).incarnation < next

theorem Binding.Lawful.home_generation {B : Binding} {next : ℕ} (hB : B.Lawful next) {id : ℕ}
    {k : SessionHandle} (hbound : B.bound id k) :
    ∀ id', B.home id' k → (B.target id').generation = (B.target id).generation := by
  intro id' hhome'
  rw [hB.unique (hB.bound_of_home hhome') hbound]

/-- No lease transition was committed under the handle and generation. -/
def LeaseTable.Untouched (table : LeaseTable) (sessionHandle : SessionHandle)
    (generation : ℕ) : Prop :=
  ∀ commit ∈ table.log, ¬commit.At sessionHandle generation

instance (table : LeaseTable) (sessionHandle : SessionHandle) (generation : ℕ) :
    Decidable (table.Untouched sessionHandle generation) :=
  inferInstanceAs (Decidable (∀ commit ∈ table.log, _))

/-- The history is a fenced ledger in which an incarnation has one generation, a handle and
generation belong to one incarnation, and a bound runtime finds only commits of its own. -/
structure LeaseTable.LogInv (B : Binding) (next : ℕ) (table : LeaseTable) : Prop where
  ledger : leaseFencing.WellFormed table.log
  token_lt : ∀ c ∈ table.log, ∀ t, c.token = some t → t < table.nextToken
  incarnation_lt : ∀ c ∈ table.log, c.incarnation < next
  same_generation : ∀ c ∈ table.log, ∀ c' ∈ table.log, c.incarnation = c'.incarnation →
    c.transition.generation = c'.transition.generation
  same_incarnation : ∀ c ∈ table.log, ∀ c' ∈ table.log,
    c.At c'.transition.sessionHandle c'.transition.generation → c.incarnation = c'.incarnation
  clean : ∀ id k, B.bound id k → ∀ c ∈ table.log, c.At k (B.target id).generation →
    c.incarnation = (B.target id).incarnation
  generation : ∀ id k, B.bound id k → ∀ c ∈ table.log,
    c.incarnation = (B.target id).incarnation → c.transition.generation = (B.target id).generation

/-- An entry is what the latest commit of its incarnation left: the commit is the latest one, it
fixes revision and generation, and an owner is the one it granted. -/
def LeaseState.MatchesLog (state : LeaseState) (sessionHandle : SessionHandle)
    (log : List LeaseCommit) : Prop :=
  ∀ i, state.committedBy = some i → ∃ c, leaseFencing.latest log i = some c ∧
    c.transition.leaseRevision = state.revision ∧ c.transition.generation = state.generation ∧
    ∀ o, state.owner = some o → c.transition.owner = some o ∧
      c.transition.sessionHandle = sessionHandle

/-- The entries match the history, and no incarnation has two of them. -/
structure LeaseTable.EntryInv (table : LeaseTable) : Prop where
  matchesLog : ∀ k e, table.leases.get? k = some e → e.MatchesLog k table.log
  unique : ∀ k e k' e' i, table.leases.get? k = some e → table.leases.get? k' = some e' →
    e.committedBy = some i → e'.committedBy = some i → k = k'

/-- A runtime whose incarnation has committed finds its entry at home. -/
def LeaseTable.Current (B : Binding) (table : LeaseTable) : Prop :=
  ∀ id k, B.home id k → ∀ c ∈ table.log, c.incarnation = (B.target id).incarnation →
    ∃ e, table.leases.get? k = some e ∧ e.committedBy = some (B.target id).incarnation

/-- The invariant of the lease table under a binding. -/
structure LeaseTable.Inv (B : Binding) (next : ℕ) (table : LeaseTable) : Prop where
  log : table.LogInv B next
  entries : table.EntryInv
  current : table.Current B

namespace LeaseTable

variable {B B' : Binding} {next next' : ℕ} {table : LeaseTable} {k : SessionHandle}
  {e : LeaseState} {id : ℕ}

theorem Inv.empty : Inv B next LeaseTable.empty where
  log :=
    { ledger := .nil
      token_lt := by simp [LeaseTable.empty]
      incarnation_lt := by simp [LeaseTable.empty]
      same_generation := by simp [LeaseTable.empty]
      same_incarnation := by simp [LeaseTable.empty]
      clean := by simp [LeaseTable.empty]
      generation := by simp [LeaseTable.empty] }
  entries :=
    { matchesLog := by simp [LeaseTable.empty]
      unique := by simp [LeaseTable.empty] }
  current := by simp [Current, LeaseTable.empty]

theorem EntryInv.owner_commit (h : table.EntryInv) (hentry : table.leases.get? k = some e)
    {o : LeaseOwner} (howner : e.owner = some o) :
    ∃ i c, e.committedBy = some i ∧ leaseFencing.latest table.log i = some c ∧
      c.transition.leaseRevision = e.revision ∧ c.transition.owner = some o ∧
      c.At k e.generation := by
  obtain ⟨i, hi⟩ := Option.isSome_iff_exists.mp (e.owned (by simp [howner])).2
  obtain ⟨c, hlatest, hrev, hgen, hown⟩ := h.matchesLog k e hentry i hi
  obtain ⟨howns, hhandle⟩ := hown o howner
  exact ⟨i, c, hi, hlatest, hrev, howns, hhandle, hgen⟩

/-- A new binding inherits the invariant when each runtime it binds either has the place and the
identity of one bound before, or comes with a new incarnation to an untouched identity. -/
theorem Inv.rebind (h : table.Inv B next) (hnext : next ≤ next')
    (hclean : ∀ id k, B'.bound id k → (∃ id₀, B.bound id₀ k ∧ B.target id₀ = B'.target id) ∨
      table.Untouched k (B'.target id).generation)
    (hgeneration : ∀ id k, B'.bound id k →
      (∃ id₀ k₀, B.bound id₀ k₀ ∧ B.target id₀ = B'.target id) ∨
        next ≤ (B'.target id).incarnation)
    (hhome : ∀ id k, B'.home id k → (∃ id₀, B.home id₀ k ∧ B.target id₀ = B'.target id) ∨
      next ≤ (B'.target id).incarnation) : table.Inv B' next' where
  log :=
    { ledger := h.log.ledger
      token_lt := h.log.token_lt
      incarnation_lt := fun c hc => (h.log.incarnation_lt c hc).trans_le hnext
      same_generation := h.log.same_generation
      same_incarnation := h.log.same_incarnation
      clean := by
        intro id k hbound c hc hat
        rcases hclean id k hbound with ⟨id₀, hbound₀, heq⟩ | huntouched
        · rw [← heq] at hat ⊢
          exact h.log.clean id₀ k hbound₀ c hc hat
        · exact absurd hat (huntouched c hc)
      generation := by
        intro id k hbound c hc hinc
        rcases hgeneration id k hbound with ⟨id₀, k₀, hbound₀, heq⟩ | hnew
        · rw [← heq] at hinc ⊢
          exact h.log.generation id₀ k₀ hbound₀ c hc hinc
        · have hlt := h.log.incarnation_lt c hc
          omega }
  entries := h.entries
  current := by
    intro id k hhome' c hc hinc
    rcases hhome id k hhome' with ⟨id₀, hhome₀, heq⟩ | hnew
    · rw [← heq] at hinc ⊢
      exact h.current id₀ k hhome₀ c hc hinc
    · have hlt := h.log.incarnation_lt c hc
      omega

theorem LogInv.congr {table' : LeaseTable} (h : table.LogInv B next)
    (hlog : table'.log = table.log) (htoken : table.nextToken ≤ table'.nextToken) :
    table'.LogInv B next where
  ledger := hlog ▸ h.ledger
  token_lt := fun c hc t ht => (h.token_lt c (hlog ▸ hc) t ht).trans_le htoken
  incarnation_lt := hlog ▸ h.incarnation_lt
  same_generation := hlog ▸ h.same_generation
  same_incarnation := hlog ▸ h.same_incarnation
  clean := hlog ▸ h.clean
  generation := hlog ▸ h.generation

theorem EntryInv.set (h : table.EntryInv)
    (he : ∀ i, e.committedBy = some i → ∃ old, table.leases.get? k = some old ∧
      old.committedBy = some i ∧ old.revision = e.revision ∧ old.generation = e.generation ∧
      e.owner = none) : (table.set k e).EntryInv where
  matchesLog := by
    intro k' e' hget i hi
    rw [LeaseTable.set, InsertionMap.get?_insert] at hget
    by_cases hk : k' = k
    · rw [if_pos hk] at hget
      cases hget
      obtain ⟨old, hold, htag, hrev, hgen, hfree⟩ := he i hi
      obtain ⟨c, hlatest, hcrev, hcgen, _⟩ := h.matchesLog k old hold i htag
      refine ⟨c, hlatest, hcrev.trans hrev, hcgen.trans hgen, ?_⟩
      intro o ho
      rw [hfree] at ho
      cases ho
    · rw [if_neg hk] at hget
      exact h.matchesLog k' e' hget i hi
  unique := by
    -- an entry that is committed stands where an old one of the same incarnation stood
    have hback : ∀ k' e' i, (table.set k e).leases.get? k' = some e' → e'.committedBy = some i →
        ∃ old, table.leases.get? k' = some old ∧ old.committedBy = some i := by
      intro k' e' i hget hi
      rw [LeaseTable.set, InsertionMap.get?_insert] at hget
      by_cases hk : k' = k
      · rw [if_pos hk] at hget
        cases hget
        obtain ⟨old, hold, htag, _⟩ := he i hi
        exact ⟨old, hk ▸ hold, htag⟩
      · rw [if_neg hk] at hget
        exact ⟨e', hget, hi⟩
    intro k₁ e₁ k₂ e₂ i h₁ h₂ hi₁ hi₂
    obtain ⟨old₁, hold₁, htag₁⟩ := hback k₁ e₁ i h₁ hi₁
    obtain ⟨old₂, hold₂, htag₂⟩ := hback k₂ e₂ i h₂ hi₂
    exact h.unique k₁ old₁ k₂ old₂ i hold₁ hold₂ htag₁ htag₂

theorem EntryInv.delete (h : table.EntryInv) (k : SessionHandle) : (table.delete k).EntryInv where
  matchesLog := by
    intro k' e' hget
    rw [LeaseTable.delete, InsertionMap.get?_erase] at hget
    by_cases hk : k' = k
    · rw [if_pos hk] at hget
      cases hget
    · rw [if_neg hk] at hget
      exact h.matchesLog k' e' hget
  unique := by
    intro k₁ e₁ k₂ e₂ i h₁ h₂
    rw [LeaseTable.delete, InsertionMap.get?_erase] at h₁ h₂
    by_cases hk₁ : k₁ = k
    · rw [if_pos hk₁] at h₁
      cases h₁
    · by_cases hk₂ : k₂ = k
      · rw [if_pos hk₂] at h₂
        cases h₂
      · rw [if_neg hk₁] at h₁
        rw [if_neg hk₂] at h₂
        exact h.unique k₁ e₁ k₂ e₂ i h₁ h₂

/-- An entry may be replaced when a runtime at home there keeps its label. -/
theorem Current.set (h : table.Current B)
    (hkeep : ∀ id, B.home id k → ∀ old, table.leases.get? k = some old →
      old.committedBy = some (B.target id).incarnation →
        e.committedBy = some (B.target id).incarnation) : (table.set k e).Current B := by
  intro id k' hhome c hc hinc
  obtain ⟨old, hold, htag⟩ := h id k' hhome c hc hinc
  by_cases hk : k' = k
  · subst hk
    exact ⟨e, by simp [LeaseTable.set], hkeep id hhome old hold htag⟩
  · exact ⟨old, by rwa [LeaseTable.set, InsertionMap.get?_insert_of_ne _ hk], htag⟩

theorem Current.delete (h : table.Current B) (hhome : ∀ id, ¬B.home id k) :
    (table.delete k).Current B := by
  intro id k' hhome' c hc hinc
  obtain ⟨old, hold, htag⟩ := h id k' hhome' c hc hinc
  have hk : k' ≠ k := by
    rintro rfl
    exact hhome id hhome'
  exact ⟨old, by rwa [LeaseTable.delete, InsertionMap.get?_erase_of_ne _ hk], htag⟩

theorem Inv.delete (h : table.Inv B next) (hhome : ∀ id, ¬B.home id k) :
    (table.delete k).Inv B next :=
  ⟨h.log.congr rfl le_rfl, h.entries.delete k, h.current.delete hhome⟩

theorem Inv.randomUUID (h : table.Inv B next) : table.randomUUID.1.Inv B next :=
  ⟨h.log.congr rfl (Nat.le_succ _), ⟨h.entries.matchesLog, h.entries.unique⟩, h.current⟩

theorem leaseStateFor_spec (table : LeaseTable) (k : SessionHandle) (generation : ℕ) :
    (table.leaseStateFor k generation).1.leases.get? k =
        some (table.leaseStateFor k generation).2 ∧
      (table.leaseStateFor k generation).2.generation = generation ∧
      (table.leaseStateFor k generation).1.log = table.log ∧
      (table.leaseStateFor k generation).1.nextToken = table.nextToken := by
  unfold leaseStateFor
  split
  · rename_i existing hget
    split
    · rename_i hgen
      exact ⟨hget, hgen, rfl, rfl⟩
    · exact ⟨by simp [LeaseTable.set], rfl, rfl, rfl⟩
  · exact ⟨by simp [LeaseTable.set], rfl, rfl, rfl⟩

/-- `leaseStateFor` keeps the invariant when the runtimes at home under the handle have the
generation asked for, or the entry has it, or there is none. -/
theorem Inv.leaseStateFor (hB : B.Lawful next) (h : table.Inv B next) {generation : ℕ}
    (hreset : (∀ id, B.home id k → (B.target id).generation = generation) ∨
      ∀ e, table.leases.get? k = some e → e.generation = generation) :
    (table.leaseStateFor k generation).1.Inv B next := by
  have hset : (∀ e, table.leases.get? k = some e → e.generation ≠ generation) →
      (table.set k (.fresh generation)).Inv B next := by
    intro hstale
    refine ⟨h.log.congr rfl le_rfl, h.entries.set (by simp [LeaseState.fresh]), ?_⟩
    refine h.current.set ?_
    intro id hhome old hold htag
    exfalso
    obtain ⟨c, hlatest, _, hgen, _⟩ := h.entries.matchesLog k old hold _ htag
    obtain ⟨hmem, hinc⟩ := leaseFencing.mem_of_latest hlatest
    have hcgen := h.log.generation id k (hB.bound_of_home hhome) c hmem hinc
    rcases hreset with hreset | hreset
    · have htarget := hreset id hhome
      exact hstale old hold (by omega)
    · exact hstale old hold (hreset old hold)
  unfold LeaseTable.leaseStateFor
  split
  · rename_i existing hget
    split
    · exact h
    · rename_i hgen
      refine hset ?_
      intro e he
      rw [hget] at he
      cases he
      exact hgen
  · rename_i hget
    refine hset ?_
    intro e he
    rw [hget] at he
    cases he

/-- A commit for incarnation `i` over state `e` under handle `k` continues the history: the state
carries the latest revision of the incarnation, and handle and generation belong to it. -/
structure CommitAt (B : Binding) (next : ℕ) (table : LeaseTable) (k : SessionHandle)
    (e : LeaseState) (i : ℕ) : Prop where
  last_revision : ∀ p, leaseFencing.latest table.log i = some p →
    p.transition.leaseRevision = e.revision
  own_identity : ∀ c ∈ table.log, c.At k e.generation → c.incarnation = i
  own_generation : ∀ c ∈ table.log, c.incarnation = i → c.transition.generation = e.generation
  incarnation_lt : i < next
  bound_incarnation : ∀ id, B.bound id k → (B.target id).generation = e.generation →
    (B.target id).incarnation = i
  bound_generation : ∀ id k', B.bound id k' → (B.target id).incarnation = i →
    (B.target id).generation = e.generation
  only_entry : ∀ k' e', table.leases.get? k' = some e' → e'.committedBy = some i → k' = k
  only_home : ∀ id k', B.home id k' → (B.target id).incarnation = i → k' = k

/-- The token of a commit was drawn, and is new unless the incarnation holds it. -/
def Grants (table : LeaseTable) (i : ℕ) (owner : Option LeaseOwner) : Prop :=
  ∀ o, owner = some o → o.fencingToken < table.nextToken ∧
    ((∀ c ∈ table.log, c.token ≠ some o.fencingToken) ∨
      ∃ p, leaseFencing.latest table.log i = some p ∧ p.token = some o.fencingToken)

/-- The table after a successful commit. -/
def committed (table : LeaseTable) (k : SessionHandle) (e : LeaseState)
    (transition : LeaseTransitionKind) (owner : Option LeaseOwner) (i : ℕ) : LeaseTable :=
  { table.set k (e.successor owner i) with
    log := ⟨i, { sessionHandle := k
                 generation := e.generation
                 leaseRevision := e.revision + 1
                 transition := transition
                 owner := owner }⟩ :: table.log }

theorem commitLeaseTransition_spec (table : LeaseTable) (k : SessionHandle) (generation : ℕ)
    (e : LeaseState) (transition : LeaseTransitionKind) (owner : Option LeaseOwner) (i : ℕ) :
    ((e.terminal = true ∨ e.generation ≠ generation) ∧
        ∃ error, table.commitLeaseTransition k generation e transition owner i =
          (table, .error error)) ∨
      (∃ error, table.commitLeaseTransition k generation e transition owner i =
        (table.set k e.exhausted, .error error)) ∨
      ∃ c, e.generation = generation ∧
        table.commitLeaseTransition k generation e transition owner i =
          (table.committed k e transition owner i, .ok c) := by
  unfold commitLeaseTransition
  split
  · rename_i hstate
    exact Or.inl ⟨hstate, _, rfl⟩
  · rename_i hstate
    split
    · exact Or.inr (Or.inl ⟨_, rfl⟩)
    · have hgen : e.generation = generation := by
        by_contra hne
        exact hstate (Or.inr hne)
      subst hgen
      exact Or.inr (Or.inr ⟨_, rfl, rfl⟩)

variable {owner : Option LeaseOwner}

theorem CommitAt.continues {i : ℕ} (hat : CommitAt B next table k e i)
    (htoken : table.Grants i owner) (transition : LeaseTransitionKind) :
    leaseFencing.Continues table.log
      ⟨i, { sessionHandle := k
            generation := e.generation
            leaseRevision := e.revision + 1
            transition := transition
            owner := owner }⟩ where
  next_revision := by
    intro p hp
    have hrev := hat.last_revision p hp
    change e.revision + 1 = p.transition.leaseRevision + 1
    omega
  token_fresh := by
    intro t ht
    obtain ⟨o, ho, rfl⟩ := Option.map_eq_some_iff.mp ht
    exact (htoken o ho).2

theorem LogInv.committed {i : ℕ} (h : table.LogInv B next)
    (hat : CommitAt B next table k e i) (htoken : table.Grants i owner)
    (transition : LeaseTransitionKind) :
    (table.committed k e transition owner i).LogInv B next where
  ledger := h.ledger.cons (hat.continues htoken transition)
  token_lt := by
    intro c hc t ht
    rcases List.mem_cons.mp hc with rfl | hc
    · obtain ⟨o, ho, rfl⟩ := Option.map_eq_some_iff.mp ht
      exact (htoken o ho).1
    · exact h.token_lt c hc t ht
  incarnation_lt := by
    intro c hc
    rcases List.mem_cons.mp hc with rfl | hc
    · exact hat.incarnation_lt
    · exact h.incarnation_lt c hc
  same_generation := by
    intro c hc c' hc' hinc
    rcases List.mem_cons.mp hc with rfl | hc <;> rcases List.mem_cons.mp hc' with rfl | hc'
    · rfl
    · exact (hat.own_generation c' hc' hinc.symm).symm
    · exact hat.own_generation c hc hinc
    · exact h.same_generation c hc c' hc' hinc
  same_incarnation := by
    intro c hc c' hc' hsame
    rcases List.mem_cons.mp hc with rfl | hc <;> rcases List.mem_cons.mp hc' with rfl | hc'
    · rfl
    · exact (hat.own_identity c' hc' ⟨hsame.1.symm, hsame.2.symm⟩).symm
    · exact hat.own_identity c hc hsame
    · exact h.same_incarnation c hc c' hc' hsame
  clean := by
    intro id k' hbound c hc hc'
    rcases List.mem_cons.mp hc with rfl | hc
    · obtain ⟨hk, hgen⟩ := hc'
      change k = k' at hk
      subst hk
      exact (hat.bound_incarnation id hbound hgen.symm).symm
    · exact h.clean id k' hbound c hc hc'
  generation := by
    intro id k' hbound c hc hinc
    rcases List.mem_cons.mp hc with rfl | hc
    · exact (hat.bound_generation id k' hbound hinc.symm).symm
    · exact h.generation id k' hbound c hc hinc

theorem EntryInv.committed {i : ℕ} (h : table.EntryInv)
    (hat : CommitAt B next table k e i) (transition : LeaseTransitionKind) :
    (table.committed k e transition owner i).EntryInv where
  matchesLog := by
    intro k' e' hget j hj
    rw [LeaseTable.committed, LeaseTable.set, InsertionMap.get?_insert] at hget
    by_cases hk : k' = k
    · rw [if_pos hk] at hget
      cases hget
      cases hj
      refine ⟨_, (leaseFencing.latest_cons _ _ _).trans (if_pos rfl), rfl, rfl, ?_⟩
      intro o ho
      exact ⟨ho, hk.symm⟩
    · rw [if_neg hk] at hget
      have hji : i ≠ j := by
        rintro rfl
        exact hk (hat.only_entry k' e' hget hj)
      obtain ⟨c, hlatest, hrest⟩ := h.matchesLog k' e' hget j hj
      exact ⟨c, (leaseFencing.latest_cons _ _ _).trans ((if_neg hji).trans hlatest), hrest⟩
  unique := by
    -- an entry of incarnation `i` can only be the new one
    have hnew : ∀ k' e', (table.committed k e transition owner i).leases.get? k' = some e' →
        e'.committedBy = some i → k' = k := by
      intro k' e' hget hi
      by_contra hk
      rw [LeaseTable.committed, LeaseTable.set, InsertionMap.get?_insert_of_ne _ hk] at hget
      exact hk (hat.only_entry k' e' hget hi)
    intro k₁ e₁ k₂ e₂ j h₁ h₂ hj₁ hj₂
    by_cases hj : j = i
    · subst hj
      rw [hnew k₁ e₁ h₁ hj₁, hnew k₂ e₂ h₂ hj₂]
    · have hold : ∀ k' e', (table.committed k e transition owner i).leases.get? k' = some e' →
          e'.committedBy = some j → table.leases.get? k' = some e' := by
        intro k' e' hget hj'
        rw [LeaseTable.committed, LeaseTable.set, InsertionMap.get?_insert] at hget
        by_cases hk : k' = k
        · rw [if_pos hk] at hget
          cases hget
          exact absurd (Option.some.inj hj').symm hj
        · rwa [if_neg hk] at hget
      exact h.unique k₁ e₁ k₂ e₂ j (hold k₁ e₁ h₁ hj₁) (hold k₂ e₂ h₂ hj₂) hj₁ hj₂

theorem Current.committed {i : ℕ} (hat : CommitAt B next table k e i)
    (hothers : ∀ id k', B.home id k' → (B.target id).incarnation ≠ i → ∀ c ∈ table.log,
      c.incarnation = (B.target id).incarnation → ∃ e', table.leases.get? k' = some e' ∧
        e'.committedBy = some (B.target id).incarnation)
    (hkeep : ∀ id, B.home id k → (B.target id).incarnation ≠ i → ∀ e',
      table.leases.get? k = some e' → e'.committedBy ≠ some (B.target id).incarnation)
    (transition : LeaseTransitionKind) :
    (table.committed k e transition owner i).Current B := by
  intro id k' hhome c hc hinc
  by_cases hi : (B.target id).incarnation = i
  · have hk := hat.only_home id k' hhome hi
    subst hk
    exact ⟨e.successor owner i, by simp [LeaseTable.committed, LeaseTable.set], by rw [hi]; rfl⟩
  · rcases List.mem_cons.mp hc with rfl | hc
    · exact absurd hinc.symm hi
    · obtain ⟨e', he', htag⟩ := hothers id k' hhome hi c hc hinc
      have hk : k' ≠ k := by
        rintro rfl
        exact hkeep id hhome hi e' he' htag
      refine ⟨e', ?_, htag⟩
      rwa [LeaseTable.committed, LeaseTable.set, InsertionMap.get?_insert_of_ne _ hk]

end LeaseTable

end PiAgentWeb
