import Mathlib.Data.List.Perm.Subperm
import PiAgentWeb.UI.BrowserEffects

/-!
# What the calls of the Browser effects keep

An intent whose dispatch answered `true` is owed until the log takes it off: a read for its key
starts, its key is evicted, its scope is superseded, or a later intent displaces it from the
overflow slot. Each owed intent is carried by an intent of its key that is as new: one a delay
timer will run, the trailing one of a reading key, the one in the overflow slot, or one that a
call in progress holds in its hands. The nested dispatches keep this, because the overflow intent
is dispatched into an empty slot below the limit and so cannot park again.
-/

namespace PiAgentWeb

/-! ## The log -/

/-- The event takes the intent off the list of owed intents. A displaced intent stands for the
earlier ones of its key that were merged into it. -/
def EffectEvent.discharges (event : EffectEvent) (effect : DirectoryRefresh) : Bool :=
  match event with
  | .dispatched _ => false
  | .declined other => decide (other = effect)
  | .readStarted key => decide (key = effect.key)
  | .evicted key => decide (key = effect.key)
  | .displaced old new =>
    decide (old.key = effect.key ∧ effect.time ≤ old.time ∧ effect.time < new.time)
  | .superseded scope => decide (scope = effect.scope)
  | .current _ => false

/-- The intents that a log, newest event first, still owes a read. -/
def owed : List EffectEvent → List DirectoryRefresh
  | [] => []
  | .dispatched effect :: log => effect :: owed log
  | event :: log => (owed log).filter fun effect => !event.discharges effect

/-- The scope was superseded and not made current again. -/
def isSuperseded : List EffectEvent → EffectScope → Bool
  | [], _ => false
  | .superseded scope' :: log, scope => decide (scope' = scope) || isSuperseded log scope
  | .current scope' :: log, scope => decide (scope' ≠ scope) && isSuperseded log scope
  | _ :: log, scope => isSuperseded log scope

/-- No read of the log started for a superseded scope. -/
def ReadsStanding : List EffectEvent → Prop
  | [] => True
  | .readStarted key :: log => isSuperseded log key.scope = false ∧ ReadsStanding log
  | _ :: log => ReadsStanding log

theorem mem_owed_cons {event : EffectEvent} {log : List EffectEvent} {effect : DirectoryRefresh} :
    effect ∈ owed (event :: log) ↔
      event = .dispatched effect ∨ effect ∈ owed log ∧ event.discharges effect = false := by
  cases event with
  | dispatched other =>
    simp only [owed, List.mem_cons, EffectEvent.dispatched.injEq, EffectEvent.discharges,
      and_true, eq_comm (a := other)]
  | _ => simp [owed]

theorem mem_owed_of_not_discharged {after before : List EffectEvent} {effect : DirectoryRefresh}
    (h : ∀ event ∈ after, event.discharges effect = false) :
    effect ∈ owed (after ++ .dispatched effect :: before) := by
  induction after with
  | nil => exact mem_owed_cons.mpr (Or.inl rfl)
  | cons event rest ih =>
    exact mem_owed_cons.mpr (Or.inr
      ⟨ih fun event' hmem => h event' (List.mem_cons_of_mem _ hmem), h event List.mem_cons_self⟩)

theorem ReadsStanding.at_read {after before : List EffectEvent} {key : EffectKey}
    (h : ReadsStanding (after ++ .readStarted key :: before)) :
    isSuperseded before key.scope = false := by
  induction after with
  | nil => exact h.1
  | cons event rest ih =>
    cases event with
    | readStarted other => exact ih h.2
    | _ => exact ih h

/-- The event says nothing about scopes and reads. -/
def EffectEvent.plain : EffectEvent → Bool
  | .declined _ | .evicted _ | .displaced _ _ => true
  | _ => false

theorem isSuperseded_cons_of_plain {event : EffectEvent} (h : event.plain = true)
    (log : List EffectEvent) (scope : EffectScope) :
    isSuperseded (event :: log) scope = isSuperseded log scope := by
  cases event <;> first | rfl | simp [EffectEvent.plain] at h

theorem readsStanding_cons_of_plain {event : EffectEvent} (h : event.plain = true)
    (log : List EffectEvent) : ReadsStanding (event :: log) ↔ ReadsStanding log := by
  cases event <;> first | exact Iff.rfl | simp [EffectEvent.plain] at h

theorem mem_owed_of_plain {event : EffectEvent} (h : event.plain = true)
    {log : List EffectEvent} {effect : DirectoryRefresh} (hmem : effect ∈ owed (event :: log)) :
    effect ∈ owed log ∧ event.discharges effect = false := by
  rcases mem_owed_cons.mp hmem with rfl | hmem
  · simp [EffectEvent.plain] at h
  · exact hmem

namespace BrowserEffects

/-! ## What holds between the calls -/

/-- An intent that the coordinator will come back to. -/
def Carrier (s : BrowserEffects) (c : DirectoryRefresh) : Prop :=
  (∃ key token, s.timers.get? key = some (token, c)) ∨
    (∃ key, s.trailingDirectoryRefresh.get? key = some c) ∨
      s.overflowDirectoryRefresh = some c

/-- Every owed intent is carried, or one of the given intents stands for it. -/
def Covers (x : List DirectoryRefresh) (s : BrowserEffects) : Prop :=
  ∀ i ∈ owed s.log, ∃ c, (s.Carrier c ∨ c ∈ x) ∧ c.key = i.key ∧ i.time ≤ c.time

/-- The tables agree. A loose key is journaled without a timer or a reading pair. -/
structure Tables (loose : EffectKey → Prop) (s : BrowserEffects) : Prop where
  activeJournal : ∀ k t, s.directoryRefreshActive.get? k = some t → s.journal.get? k = some t
  activeReads : ∀ k t, s.directoryRefreshActive.get? k = some t → (k, t) ∈ s.reads
  activeBound :
    s.directoryRefreshActive.size ≤ SESSION_BROWSER_DIRECTORY_REFRESH_CONCURRENCY_LIMIT
  trailingActive : ∀ k d, s.trailingDirectoryRefresh.get? k = some d →
    d.key = k ∧ ∃ t, s.directoryRefreshActive.get? k = some t
  timersJournal : ∀ k t d, s.timers.get? k = some (t, d) →
    d.key = k ∧ s.journal.get? k = some t ∧ s.directoryRefreshActive.get? k = none
  journalHeld : ∀ k t, s.journal.get? k = some t →
    (∃ d, s.timers.get? k = some (t, d)) ∨ s.directoryRefreshActive.get? k = some t ∨ loose k
  looseUnheld : ∀ k, loose k → s.timers.get? k = none ∧ s.directoryRefreshActive.get? k = none
  latestJournal : ∀ g k, s.latestKeyByGroup.get? g = some k → ∃ t, s.journal.get? k = some t
  overflowFresh : ∀ o, s.overflowDirectoryRefresh = some o → s.journal.get? o.key = none
  stamped : ∀ c, s.Carrier c → c.time ≤ s.dispatches
  inBounds : s.overrun = false

theorem Tables.trailing_none {loose : EffectKey → Prop} {s : BrowserEffects} {key : EffectKey}
    (h : Tables loose s) (hactive : s.directoryRefreshActive.get? key = none) :
    s.trailingDirectoryRefresh.get? key = none := by
  cases htrailing : s.trailingDirectoryRefresh.get? key with
  | none => rfl
  | some d =>
    obtain ⟨t, ht⟩ := (h.trailingActive key d htrailing).2
    rw [hactive] at ht
    cases ht

theorem Tables.active_none {loose : EffectKey → Prop} {s : BrowserEffects} {key : EffectKey}
    (h : Tables loose s) (hfresh : s.journal.get? key = none) :
    s.directoryRefreshActive.get? key = none := by
  cases hactive : s.directoryRefreshActive.get? key with
  | none => rfl
  | some t =>
    rw [h.activeJournal _ _ hactive] at hfresh
    cases hfresh

theorem Tables.timer_none {loose : EffectKey → Prop} {s : BrowserEffects} {key : EffectKey}
    (h : Tables loose s) (hfresh : s.journal.get? key = none) : s.timers.get? key = none := by
  cases htimer : s.timers.get? key with
  | none => rfl
  | some entry =>
    obtain ⟨t, d⟩ := entry
    rw [(h.timersJournal _ _ _ htimer).2.1] at hfresh
    cases hfresh

/-- The log agrees with the current scopes, but for the scope that is just being left. -/
structure Ledger (leaving : Option EffectScope) (s : BrowserEffects) : Prop where
  handles : ∀ h i, s.currentByHandle.get? h = some i → i.sessionHandle = h
  workspaces : ∀ h i, s.currentByWorkspace.get? h = some i → i.workspaceId = h
  owedCurrent : ∀ i ∈ owed s.log, s.isCurrent i.scope = true
  supersededLeft : ∀ scope, isSuperseded s.log scope = true → s.isCurrent scope = true →
    leaving = some scope
  readsStanding : ReadsStanding s.log

/-- The calls below leave the scopes and the count of dispatches alone. -/
structure SameScopes (s s' : BrowserEffects) : Prop where
  handles : s'.currentByHandle = s.currentByHandle
  workspaces : s'.currentByWorkspace = s.currentByWorkspace
  dispatches : s'.dispatches = s.dispatches

theorem SameScopes.trans {s s' s'' : BrowserEffects} (h : SameScopes s s')
    (h' : SameScopes s' s'') : SameScopes s s'' :=
  ⟨h'.1.trans h.1, h'.2.trans h.2, h'.3.trans h.3⟩

theorem SameScopes.isCurrent {s s' : BrowserEffects} (h : SameScopes s s') (scope : EffectScope) :
    s'.isCurrent scope = s.isCurrent scope := by
  cases scope <;> simp only [BrowserEffects.isCurrent, h.handles, h.workspaces]

variable {loose : EffectKey → Prop} {leaving : Option EffectScope}

theorem Ledger.congr {s s' : BrowserEffects} (h : Ledger leaving s) (hscopes : SameScopes s s')
    (hlog : s'.log = s.log) : Ledger leaving s' where
  handles := by rw [hscopes.handles]; exact h.handles
  workspaces := by rw [hscopes.workspaces]; exact h.workspaces
  owedCurrent := by
    rw [hlog]
    intro i hi
    rw [hscopes.isCurrent]
    exact h.owedCurrent i hi
  supersededLeft := by
    rw [hlog]
    intro scope hsup hcur
    rw [hscopes.isCurrent] at hcur
    exact h.supersededLeft scope hsup hcur
  readsStanding := by rw [hlog]; exact h.readsStanding

theorem Ledger.record_plain {s : BrowserEffects} (h : Ledger leaving s) {event : EffectEvent}
    (hplain : event.plain = true) : Ledger leaving (s.record event) where
  handles := h.handles
  workspaces := h.workspaces
  owedCurrent := fun i hi => h.owedCurrent i (mem_owed_of_plain hplain hi).1
  supersededLeft := by
    intro scope hsup
    rw [show (s.record event).log = event :: s.log from rfl,
      isSuperseded_cons_of_plain hplain] at hsup
    exact h.supersededLeft scope hsup
  readsStanding := (readsStanding_cons_of_plain hplain s.log).mpr h.readsStanding

theorem Covers.record_plain {x : List DirectoryRefresh} {s : BrowserEffects} (h : Covers x s)
    {event : EffectEvent} (hplain : event.plain = true) : Covers x (s.record event) :=
  fun i hi => h i (mem_owed_of_plain hplain hi).1

theorem Tables.record {s : BrowserEffects} (h : Tables loose s) (event : EffectEvent) :
    Tables loose (s.record event) := by
  obtain ⟨h1, h2, h3, h4, h5, h6, h7, h8, h9, h10, h11⟩ := h
  exact ⟨h1, h2, h3, h4, h5, h6, h7, h8, h9, h10, h11⟩

/-! ## A key is dropped -/

/-- Everything kept under a key goes. -/
def drop (s : BrowserEffects) (key : EffectKey) : BrowserEffects :=
  { s with
    timers := s.timers.erase key
    trailingDirectoryRefresh := s.trailingDirectoryRefresh.erase key
    directoryRefreshActive := s.directoryRefreshActive.erase key
    directoryRefreshHoldTimers := s.directoryRefreshHoldTimers.erase key
    journal := s.journal.erase key
    latestKeyByGroup := s.latestKeyByGroup.filterValues fun latestKey => latestKey != key }

theorem Carrier.of_drop {s : BrowserEffects} {key : EffectKey} {c : DirectoryRefresh}
    (h : (s.drop key).Carrier c) : s.Carrier c := by
  rcases h with ⟨k, t, ht⟩ | ⟨k, ht⟩ | ho
  · have hk : (s.timers.erase key).get? k = some (t, c) := ht
    rw [InsertionMap.get?_erase] at hk
    split at hk
    · cases hk
    · exact Or.inl ⟨k, t, hk⟩
  · have hk : (s.trailingDirectoryRefresh.erase key).get? k = some c := ht
    rw [InsertionMap.get?_erase] at hk
    split at hk
    · cases hk
    · exact Or.inr (Or.inl ⟨k, hk⟩)
  · exact Or.inr (Or.inr ho)

theorem Tables.carrier_drop {s : BrowserEffects} (h : Tables loose s) {key : EffectKey}
    {c : DirectoryRefresh} (hc : s.Carrier c) (hkey : c.key ≠ key) : (s.drop key).Carrier c := by
  rcases hc with ⟨k, t, ht⟩ | ⟨k, ht⟩ | ho
  · have hk : k ≠ key := (h.timersJournal k t c ht).1 ▸ hkey
    exact Or.inl ⟨k, t, (InsertionMap.get?_erase_of_ne _ hk).trans ht⟩
  · have hk : k ≠ key := (h.trailingActive k c ht).1 ▸ hkey
    exact Or.inr (Or.inl ⟨k, (InsertionMap.get?_erase_of_ne _ hk).trans ht⟩)
  · exact Or.inr (Or.inr ho)

theorem Tables.drop {loose' : EffectKey → Prop} {s : BrowserEffects} {key : EffectKey}
    (h : Tables loose' s) (hsub : ∀ k, loose k → loose' k)
    (hloose : ∀ k, loose' k → k = key ∨ loose k) : Tables loose (s.drop key) where
  activeJournal := by
    intro k t hk
    simp only [BrowserEffects.drop, InsertionMap.get?_erase] at hk ⊢
    split at hk
    · cases hk
    · rename_i hne
      rw [if_neg hne]
      exact h.activeJournal k t hk
  activeReads := by
    intro k t hk
    simp only [BrowserEffects.drop, InsertionMap.get?_erase] at hk ⊢
    split at hk
    · cases hk
    · exact h.activeReads k t hk
  activeBound := Nat.le_trans (InsertionMap.size_erase_le _ _) h.activeBound
  trailingActive := by
    intro k d hk
    simp only [BrowserEffects.drop, InsertionMap.get?_erase] at hk ⊢
    split at hk
    · cases hk
    · rename_i hne
      rw [if_neg hne]
      exact h.trailingActive k d hk
  timersJournal := by
    intro k t d hk
    simp only [BrowserEffects.drop, InsertionMap.get?_erase] at hk ⊢
    split at hk
    · cases hk
    · rename_i hne
      rw [if_neg hne, if_neg hne]
      exact h.timersJournal k t d hk
  journalHeld := by
    intro k t hk
    simp only [BrowserEffects.drop, InsertionMap.get?_erase] at hk ⊢
    split at hk
    · cases hk
    · rename_i hne
      rw [if_neg hne, if_neg hne]
      rcases h.journalHeld k t hk with hd | ha | hl
      · exact Or.inl hd
      · exact Or.inr (Or.inl ha)
      · exact Or.inr (Or.inr ((hloose k hl).resolve_left hne))
  looseUnheld := by
    intro k hk
    simp only [BrowserEffects.drop, InsertionMap.get?_erase]
    obtain ⟨htimer, hactive⟩ := h.looseUnheld k (hsub k hk)
    rw [htimer, hactive]
    simp
  latestJournal := by
    intro g k hk
    simp only [BrowserEffects.drop, InsertionMap.get?_filterValues, InsertionMap.get?_erase,
      Option.filter_eq_some_iff] at hk ⊢
    obtain ⟨hk, hne⟩ := hk
    rw [if_neg (by simpa using hne)]
    exact h.latestJournal g k hk
  overflowFresh := by
    intro o ho
    simp only [BrowserEffects.drop, InsertionMap.get?_erase]
    rw [h.overflowFresh o ho, ite_self]
  stamped := fun c hc => h.stamped c hc.of_drop
  inBounds := h.inBounds

theorem Covers.drop {x y : List DirectoryRefresh} {s : BrowserEffects} {key : EffectKey}
    (h : Covers x s) (htables : Tables loose s) (hkey : ∀ i ∈ owed s.log, i.key ≠ key)
    (hxy : ∀ c ∈ x, c.key ≠ key → c ∈ y) : Covers y (s.drop key) := by
  intro i hi
  have hne := hkey i hi
  obtain ⟨c, hc, hck, hct⟩ := h i hi
  have hckey : c.key ≠ key := by rw [hck]; exact hne
  refine ⟨c, ?_, hck, hct⟩
  rcases hc with hc | hc
  · exact Or.inl (htables.carrier_drop hc hckey)
  · exact Or.inr (hxy c hc hckey)

theorem sameScopes_drop (s : BrowserEffects) (key : EffectKey) : SameScopes s (s.drop key) :=
  ⟨rfl, rfl, rfl⟩

/-! ## What a dispatch needs and gives -/

/-- A dispatch of a fresh key may go ahead. -/
structure Ready (loose : EffectKey → Prop) (leaving : Option EffectScope)
    (x : List DirectoryRefresh) (s : BrowserEffects) (e : DirectoryRefresh) : Prop where
  tables : Tables loose s
  ledger : Ledger leaving s
  covers : Covers (e :: x) s
  size : s.journal.size ≤ SESSION_BROWSER_EFFECT_JOURNAL_LIMIT
  notLoose : ¬loose e.key
  fresh : s.journal.get? e.key = none
  /-- A scope that is being left starts no read. -/
  delayed : leaving = some e.scope → e.delayMs ≠ none
  stamped : e.time ≤ s.dispatches

/-- A call kept what holds between the calls. -/
structure Served (loose : EffectKey → Prop) (leaving : Option EffectScope)
    (x : List DirectoryRefresh) (s s' : BrowserEffects) : Prop where
  tables : Tables loose s'
  ledger : Ledger leaving s'
  covers : Covers x s'
  size : s'.journal.size ≤ SESSION_BROWSER_EFFECT_JOURNAL_LIMIT
  scopes : SameScopes s s'
  owes : ∀ i ∈ owed s'.log, i ∈ owed s.log

theorem Served.after {x : List DirectoryRefresh} {s s' s'' : BrowserEffects}
    (h : Served loose leaving x s' s'') (hscopes : SameScopes s s')
    (howes : ∀ i ∈ owed s'.log, i ∈ owed s.log) : Served loose leaving x s s'' :=
  { h with
    scopes := hscopes.trans h.scopes
    owes := fun i hi => howes i (h.owes i hi) }

/-- No key but the given one is new in the journal. -/
def NoNewKey (s s' : BrowserEffects) (key : EffectKey) : Prop :=
  ∀ k, k ≠ key → s.journal.get? k = none → s'.journal.get? k = none

/-- What the nested dispatch of the overflow intent does: the slot is empty and the limit is not
reached, so the intent is scheduled or read, and nothing is parked. -/
def AdmitsQuietly (redispatch : BrowserEffects → DirectoryRefresh → BrowserEffects) : Prop :=
  ∀ loose leaving x s e, Ready loose leaving x s e → s.overflowDirectoryRefresh = none →
    s.atLimit = false →
    Served loose leaving x s (redispatch s e) ∧
      (redispatch s e).overflowDirectoryRefresh = none ∧ NoNewKey s (redispatch s e) e.key

/-- The overflow intent may be dispatched here. -/
def Nestable (loose : EffectKey → Prop) (leaving : Option EffectScope) (s : BrowserEffects) :
    Prop :=
  ∀ o, s.overflowDirectoryRefresh = some o →
    ¬loose o.key ∧ (leaving = some o.scope → o.delayMs ≠ none)

section Calls

variable {r : BrowserEffects → DirectoryRefresh → BrowserEffects} {x : List DirectoryRefresh}
variable {s : BrowserEffects}

theorem below_limit {s' : BrowserEffects} (h : s.atLimit = false)
    (hsize : s'.directoryRefreshActive.size ≤ s.directoryRefreshActive.size) :
    s'.atLimit = false := by
  simp only [atLimit, decide_eq_false_iff_not, Nat.not_le] at h ⊢
  exact Nat.lt_of_le_of_lt hsize h

theorem Tables.without_overflow (h : Tables loose s) :
    Tables loose { s with overflowDirectoryRefresh := none } where
  activeJournal := h.activeJournal
  activeReads := h.activeReads
  activeBound := h.activeBound
  trailingActive := h.trailingActive
  timersJournal := h.timersJournal
  journalHeld := h.journalHeld
  looseUnheld := h.looseUnheld
  latestJournal := h.latestJournal
  overflowFresh := fun o ho => nomatch ho
  stamped := by
    rintro c (hc | hc | hc)
    · exact h.stamped c (Or.inl hc)
    · exact h.stamped c (Or.inr (Or.inl hc))
    · cases hc
  inBounds := h.inBounds

theorem Covers.without_overflow (h : Covers x s) {o : DirectoryRefresh}
    (ho : s.overflowDirectoryRefresh = some o) :
    Covers (o :: x) { s with overflowDirectoryRefresh := none } := by
  intro i hi
  obtain ⟨c, hc, hck, hct⟩ := h i hi
  refine ⟨c, ?_, hck, hct⟩
  rcases hc with (hc | hc | hc) | hc
  · exact Or.inl (Or.inl hc)
  · exact Or.inl (Or.inr (Or.inl hc))
  · rw [ho, Option.some.injEq] at hc
    exact Or.inr (hc ▸ List.mem_cons_self)
  · exact Or.inr (List.mem_cons_of_mem _ hc)

theorem admitOverflowDirectoryRefresh_quiet
    (h : s.overflowDirectoryRefresh = none ∨ s.atLimit = true) :
    admitOverflowDirectoryRefresh r s = s := by
  unfold admitOverflowDirectoryRefresh
  rcases h with h | h
  · rw [h]
  · split
    · rfl
    · rw [if_pos h]

theorem admitOverflowDirectoryRefresh_nested (hr : AdmitsQuietly r)
    (hnest : Nestable loose leaving s) (htables : Tables loose s) (hledger : Ledger leaving s)
    (hcovers : Covers x s) (hsize : s.journal.size ≤ SESSION_BROWSER_EFFECT_JOURNAL_LIMIT)
    {o : DirectoryRefresh} (ho : s.overflowDirectoryRefresh = some o) (hlimit : s.atLimit = false) :
    Served loose leaving x s (admitOverflowDirectoryRefresh r s) ∧
      (admitOverflowDirectoryRefresh r s).overflowDirectoryRefresh = none ∧
      NoNewKey s (admitOverflowDirectoryRefresh r s) o.key := by
  have hcall : admitOverflowDirectoryRefresh r s =
      r { s with overflowDirectoryRefresh := none } o := by
    unfold admitOverflowDirectoryRefresh
    rw [ho]
    simp only [hlimit, Bool.false_eq_true, if_false]
  have hready : Ready loose leaving x { s with overflowDirectoryRefresh := none } o :=
    { tables := htables.without_overflow
      ledger := hledger.congr ⟨rfl, rfl, rfl⟩ rfl
      covers := hcovers.without_overflow ho
      size := hsize
      notLoose := (hnest o ho).1
      fresh := htables.overflowFresh o ho
      delayed := (hnest o ho).2
      stamped := htables.stamped o (Or.inr (Or.inr ho)) }
  obtain ⟨hserved, hnone, hkeys⟩ := hr loose leaving x _ o hready rfl hlimit
  rw [hcall]
  exact ⟨hserved.after ⟨rfl, rfl, rfl⟩ fun _ hi => hi, hnone, hkeys⟩

variable {key : EffectKey}

theorem served_drop (htables : Tables loose s) (hledger : Ledger leaving s)
    (hcovers : Covers x s) (hsize : s.journal.size ≤ SESSION_BROWSER_EFFECT_JOURNAL_LIMIT)
    (hkey : ∀ i ∈ owed s.log, i.key ≠ key) : Served loose leaving x s (s.drop key) where
  tables := htables.drop (fun _ h => h) fun _ h => Or.inr h
  ledger := hledger.congr ⟨rfl, rfl, rfl⟩ rfl
  covers := hcovers.drop htables hkey fun _ hc _ => hc
  size := Nat.le_trans (InsertionMap.size_erase_le _ _) hsize
  scopes := ⟨rfl, rfl, rfl⟩
  owes := fun _ hi => hi

/-- A key whose timer, trailing intent and slot are gone. -/
def unhold (s : BrowserEffects) (key : EffectKey) : BrowserEffects :=
  { s with
    timers := s.timers.erase key
    trailingDirectoryRefresh := s.trailingDirectoryRefresh.erase key
    directoryRefreshActive := s.directoryRefreshActive.erase key }

theorem removeJournalEntry_none (s : BrowserEffects) (key : EffectKey) :
    s.removeJournalEntry key none =
      { s with
        directoryRefreshHoldTimers := s.directoryRefreshHoldTimers.erase key
        journal := s.journal.erase key
        latestKeyByGroup := s.latestKeyByGroup.filterValues fun latestKey => latestKey != key } :=
  by simp [removeJournalEntry]

variable {token : Nat}

theorem removeJournalEntry_token (h : s.journal.get? key = some token) :
    s.removeJournalEntry key (some token) = s.removeJournalEntry key none := by
  simp [removeJournalEntry, h]

theorem cancelJournalEntry_eq (s : BrowserEffects) (key : EffectKey) :
    cancelJournalEntry r s key =
      (admitOverflowDirectoryRefresh r (s.unhold key)).removeJournalEntry key none := rfl

theorem cancelJournalEntry_quiet
    (h : s.overflowDirectoryRefresh = none ∨ (s.unhold key).atLimit = true) :
    cancelJournalEntry r s key = s.drop key := by
  rw [cancelJournalEntry_eq, admitOverflowDirectoryRefresh_quiet h, removeJournalEntry_none]
  rfl

theorem Tables.unhold (h : Tables loose s) (key : EffectKey) :
    Tables (fun k => loose k ∨ k = key) (s.unhold key) where
  activeJournal := by
    intro k t hk
    simp only [BrowserEffects.unhold, InsertionMap.get?_erase] at hk ⊢
    split at hk
    · cases hk
    · exact h.activeJournal k t hk
  activeReads := by
    intro k t hk
    simp only [BrowserEffects.unhold, InsertionMap.get?_erase] at hk ⊢
    split at hk
    · cases hk
    · exact h.activeReads k t hk
  activeBound := Nat.le_trans (InsertionMap.size_erase_le _ _) h.activeBound
  trailingActive := by
    intro k d hk
    simp only [BrowserEffects.unhold, InsertionMap.get?_erase] at hk ⊢
    split at hk
    · cases hk
    · rename_i hne
      rw [if_neg hne]
      exact h.trailingActive k d hk
  timersJournal := by
    intro k t d hk
    simp only [BrowserEffects.unhold, InsertionMap.get?_erase] at hk ⊢
    split at hk
    · cases hk
    · rename_i hne
      rw [if_neg hne]
      exact h.timersJournal k t d hk
  journalHeld := by
    intro k t hk
    simp only [BrowserEffects.unhold, InsertionMap.get?_erase]
    by_cases hne : k = key
    · exact Or.inr (Or.inr (Or.inr hne))
    · rw [if_neg hne, if_neg hne]
      rcases h.journalHeld k t hk with hd | ha | hl
      · exact Or.inl hd
      · exact Or.inr (Or.inl ha)
      · exact Or.inr (Or.inr (Or.inl hl))
  looseUnheld := by
    intro k hk
    simp only [BrowserEffects.unhold, InsertionMap.get?_erase]
    by_cases hne : k = key
    · simp [hne]
    · rw [if_neg hne, if_neg hne]
      exact h.looseUnheld k (hk.resolve_right hne)
  latestJournal := h.latestJournal
  overflowFresh := h.overflowFresh
  stamped := by
    rintro c (⟨k, t, hc⟩ | ⟨k, hc⟩ | hc)
    · simp only [BrowserEffects.unhold, InsertionMap.get?_erase] at hc
      split at hc
      · cases hc
      · exact h.stamped c (Or.inl ⟨k, t, hc⟩)
    · simp only [BrowserEffects.unhold, InsertionMap.get?_erase] at hc
      split at hc
      · cases hc
      · exact h.stamped c (Or.inr (Or.inl ⟨k, hc⟩))
    · exact h.stamped c (Or.inr (Or.inr hc))
  inBounds := h.inBounds

theorem Covers.unhold (h : Covers x s) (htables : Tables loose s)
    (hkey : ∀ i ∈ owed s.log, i.key ≠ key) : Covers x (s.unhold key) := by
  intro i hi
  obtain ⟨c, hc, hck, hct⟩ := h.drop htables hkey (fun _ hc _ => hc) i hi
  exact ⟨c, hc, hck, hct⟩

theorem Tables.removeJournalEntry_loose (h : Tables loose s)
    (hkey : loose key) : s.removeJournalEntry key none = s.drop key := by
  obtain ⟨htimer, hactive⟩ := h.looseUnheld key hkey
  have htrailing := h.trailing_none hactive
  rw [removeJournalEntry_none, BrowserEffects.drop, InsertionMap.erase_of_get?_eq_none htimer,
    InsertionMap.erase_of_get?_eq_none htrailing, InsertionMap.erase_of_get?_eq_none hactive]

theorem cancelJournalEntry_nested (hr : AdmitsQuietly r)
    (hnest : Nestable (fun k => loose k ∨ k = key) leaving s) (htables : Tables loose s)
    (hledger : Ledger leaving s) (hcovers : Covers x s)
    (hsize : s.journal.size ≤ SESSION_BROWSER_EFFECT_JOURNAL_LIMIT)
    (hkey : ∀ i ∈ owed s.log, i.key ≠ key) {o : DirectoryRefresh}
    (ho : s.overflowDirectoryRefresh = some o) (hlimit : (s.unhold key).atLimit = false) :
    Served loose leaving x s (cancelJournalEntry r s key) ∧
      (cancelJournalEntry r s key).overflowDirectoryRefresh = none ∧
      NoNewKey s (cancelJournalEntry r s key) o.key := by
  obtain ⟨hserved, hnone, hkeys⟩ := admitOverflowDirectoryRefresh_nested (s := s.unhold key) hr
    hnest (htables.unhold key) (hledger.congr ⟨rfl, rfl, rfl⟩ rfl)
    (hcovers.unhold htables hkey) hsize ho hlimit
  rw [cancelJournalEntry_eq, hserved.tables.removeJournalEntry_loose (Or.inr rfl)]
  have hdrop : Served loose leaving x (admitOverflowDirectoryRefresh r (s.unhold key))
      (drop (admitOverflowDirectoryRefresh r (s.unhold key)) key) :=
    { tables := hserved.tables.drop (fun _ h => Or.inl h) fun _ h => h.symm
      ledger := hserved.ledger.congr ⟨rfl, rfl, rfl⟩ rfl
      covers := hserved.covers.drop hserved.tables (fun i hi => hkey i (hserved.owes i hi))
        fun _ hc _ => hc
      size := Nat.le_trans (InsertionMap.size_erase_le _ _) hserved.size
      scopes := ⟨rfl, rfl, rfl⟩
      owes := fun _ hi => hi }
  have hscopes : SameScopes s (s.unhold key) := ⟨rfl, rfl, rfl⟩
  refine ⟨hdrop.after (hscopes.trans hserved.scopes) hserved.owes, hnone,
    fun k hk hfresh => ?_⟩
  simp only [drop, InsertionMap.get?_erase]
  split
  · rfl
  · exact hkeys k hk hfresh

theorem oldestEvictable_some {key oldest : EffectKey} (h : s.oldestEvictable key = some oldest) :
    (∃ t, s.journal.get? oldest = some t) ∧ oldest ≠ key := by
  have hmem := List.mem_of_find?_eq_some h
  have htest := List.find?_some h
  rw [Bool.and_eq_true, bne_iff_ne] at htest
  exact ⟨InsertionMap.mem_keys_iff.mp hmem, htest.1⟩

theorem size_of_oldestEvictable_none (h : s.oldestEvictable key = none) :
    s.journal.size ≤ s.directoryRefreshActive.size + 1 := by
  have hsub : s.journal.keys ⊆ key :: s.directoryRefreshActive.keys := by
    intro k hk
    have htest := List.find?_eq_none.mp h k hk
    by_cases hkey : k = key
    · exact hkey ▸ List.mem_cons_self
    · simp only [bne_iff_ne, ne_eq, hkey, not_false_eq_true, Bool.and_eq_true, true_and,
        Option.isNone_iff_eq_none] at htest
      obtain ⟨t, ht⟩ := Option.ne_none_iff_exists'.mp htest
      exact List.mem_cons_of_mem _ (InsertionMap.mem_keys_iff.mpr ⟨t, ht⟩)
  have hlength := (List.subperm_of_subset s.journal.nodup_keys hsub).length_le
  simpa [InsertionMap.length_keys] using hlength

/-- What the eviction loop keeps besides: the slot, the new key, the token and the limit. -/
structure Evicted (key : EffectKey) (s s' : BrowserEffects) : Prop where
  overflow : s'.overflowDirectoryRefresh = s.overflowDirectoryRefresh
  kept : s'.journal.get? key = s.journal.get? key
  keys : ∀ k, s.journal.get? k = none → s'.journal.get? k = none
  active : s'.directoryRefreshActive.size ≤ s.directoryRefreshActive.size

theorem evictOldest_served (key : EffectKey) (rounds : Nat) (htables : Tables loose s)
    (hledger : Ledger leaving s) (hcovers : Covers x s)
    (hoverflow : s.overflowDirectoryRefresh = none)
    (hsize : s.journal.size ≤ SESSION_BROWSER_EFFECT_JOURNAL_LIMIT + rounds) :
    Served loose leaving x s (evictOldest r key rounds s) ∧
      Evicted key s (evictOldest r key rounds s) := by
  induction rounds generalizing s with
  | zero =>
    have hkeep : evictOldest r key 0 s = s := by
      rw [evictOldest, if_neg (by omega)]
    rw [hkeep]
    exact ⟨⟨htables, hledger, hcovers, hsize, ⟨rfl, rfl, rfl⟩, fun _ hi => hi⟩, rfl, rfl,
      fun _ h => h, Nat.le_refl _⟩
  | succ rounds ih =>
    rw [evictOldest]
    split
    · rename_i hfits
      exact ⟨⟨htables, hledger, hcovers, hfits, ⟨rfl, rfl, rfl⟩, fun _ hi => hi⟩, rfl, rfl,
        fun _ h => h, Nat.le_refl _⟩
    · rename_i hover
      cases hold : s.oldestEvictable key with
      | none =>
        have hsmall := size_of_oldestEvictable_none hold
        have hbound := htables.activeBound
        simp only [SESSION_BROWSER_EFFECT_JOURNAL_LIMIT,
          SESSION_BROWSER_DIRECTORY_REFRESH_CONCURRENCY_LIMIT] at hover hbound
        omega
      | some oldest =>
        obtain ⟨⟨t, ht⟩, hne⟩ := oldestEvictable_some hold
        have hlog : ∀ i ∈ owed (s.record (.evicted oldest)).log,
            i ∈ owed s.log ∧ i.key ≠ oldest := by
          intro i hi
          obtain ⟨hi, hdischarged⟩ := mem_owed_of_plain rfl hi
          exact ⟨hi, fun heq => by simp [EffectEvent.discharges, heq] at hdischarged⟩
        have hnext := ih (s := (s.record (.evicted oldest)).drop oldest)
          ((htables.record _).drop (fun _ h => h) fun _ h => Or.inr h)
          ((hledger.record_plain rfl).congr ⟨rfl, rfl, rfl⟩ rfl)
          ((hcovers.record_plain rfl).drop (htables.record _) (fun i hi => (hlog i hi).2)
            fun _ hc _ => hc) hoverflow
          (by have := InsertionMap.size_erase_of_get? ht; simp only [drop, record]; omega)
        simp only
        rw [cancelJournalEntry_quiet (s := s.record (.evicted oldest)) (Or.inl hoverflow)]
        obtain ⟨hserved, hevicted⟩ := hnext
        refine ⟨hserved.after ⟨rfl, rfl, rfl⟩ fun i hi => (hlog i hi).1, hevicted.overflow, ?_,
          fun k hk => hevicted.keys k ?_, Nat.le_trans hevicted.active ?_⟩
        · rw [hevicted.kept]
          exact InsertionMap.get?_erase_of_ne _ hne.symm
        · simp only [drop, record, InsertionMap.get?_erase, hk, ite_self]
        · exact InsertionMap.size_erase_le _ _

/-! ## A pair is run -/

theorem Covers.drop_loose (h : Covers x s) (htables : Tables loose s)
    (hkey : loose key) : Covers x (s.drop key) := by
  rw [← htables.removeJournalEntry_loose hkey, removeJournalEntry_none]
  exact fun i hi => h i hi

variable {e : DirectoryRefresh}

theorem Tables.hold (h : Tables loose s)
    (hfresh : s.journal.get? e.key = none) (hstamp : e.time ≤ s.dispatches) :
    Tables loose (s.holdOverflowDirectoryRefresh e) := by
  have hset : Tables loose { s with overflowDirectoryRefresh := some e } :=
    { h.without_overflow with
      overflowFresh := fun o ho => by cases ho; exact hfresh
      stamped := by
        rintro c (hc | hc | hc)
        · exact h.stamped c (Or.inl hc)
        · exact h.stamped c (Or.inr (Or.inl hc))
        · cases hc
          exact hstamp }
  unfold holdOverflowDirectoryRefresh
  split
  · exact hset
  · exact hset.record _

theorem Covers.hold (h : Covers (e :: x) s)
    (hnewest : ∀ o, s.overflowDirectoryRefresh = some o → o.time < e.time) :
    Covers x (s.holdOverflowDirectoryRefresh e) := by
  unfold holdOverflowDirectoryRefresh
  split
  · rename_i hnone
    intro i hi
    obtain ⟨c, hc, hck, hct⟩ := h i hi
    refine ⟨c, ?_, hck, hct⟩
    rcases hc with (hc | hc | hc) | hc
    · exact Or.inl (Or.inl hc)
    · exact Or.inl (Or.inr (Or.inl hc))
    · rw [hnone] at hc
      cases hc
    · rcases List.mem_cons.mp hc with rfl | hc
      · exact Or.inl (Or.inr (Or.inr rfl))
      · exact Or.inr hc
  · rename_i old hold
    intro i hi
    obtain ⟨hi, hkeep⟩ := mem_owed_of_plain rfl hi
    obtain ⟨c, hc, hck, hct⟩ := h i hi
    refine ⟨c, ?_, hck, hct⟩
    rcases hc with (hc | hc | hc) | hc
    · exact Or.inl (Or.inl hc)
    · exact Or.inl (Or.inr (Or.inl hc))
    · rw [hold, Option.some.injEq] at hc
      subst hc
      have hlt := hnewest old hold
      simp only [EffectEvent.discharges, hck, hct, true_and, decide_eq_false_iff_not,
        Nat.not_lt] at hkeep
      omega
    · rcases List.mem_cons.mp hc with rfl | hc
      · exact Or.inl (Or.inr (Or.inr rfl))
      · exact Or.inr hc

theorem Ledger.hold (h : Ledger leaving s) :
    Ledger leaving (s.holdOverflowDirectoryRefresh e) := by
  unfold holdOverflowDirectoryRefresh
  split
  · exact h.congr ⟨rfl, rfl, rfl⟩ rfl
  · rename_i displaced _
    have hrecord : Ledger leaving (s.record (.displaced displaced e)) := h.record_plain rfl
    exact hrecord.congr ⟨rfl, rfl, rfl⟩ rfl

theorem sameScopes_hold (s : BrowserEffects) (e : DirectoryRefresh) :
    SameScopes s (s.holdOverflowDirectoryRefresh e) := by
  unfold holdOverflowDirectoryRefresh
  split <;> exact ⟨rfl, rfl, rfl⟩

theorem owes_hold (s : BrowserEffects) (e : DirectoryRefresh) :
    ∀ i ∈ owed (s.holdOverflowDirectoryRefresh e).log, i ∈ owed s.log := by
  unfold holdOverflowDirectoryRefresh
  split
  · exact fun _ hi => hi
  · exact fun _ hi => (mem_owed_of_plain rfl hi).1

@[simp] theorem journal_hold (s : BrowserEffects) (e : DirectoryRefresh) :
    (s.holdOverflowDirectoryRefresh e).journal = s.journal := by
  unfold holdOverflowDirectoryRefresh
  split <;> rfl

@[simp] theorem active_hold (s : BrowserEffects) (e : DirectoryRefresh) :
    (s.holdOverflowDirectoryRefresh e).directoryRefreshActive = s.directoryRefreshActive := by
  unfold holdOverflowDirectoryRefresh
  split <;> rfl

@[simp] theorem trailing_hold (s : BrowserEffects) (e : DirectoryRefresh) :
    (s.holdOverflowDirectoryRefresh e).trailingDirectoryRefresh =
      s.trailingDirectoryRefresh := by
  unfold holdOverflowDirectoryRefresh
  split <;> rfl

theorem removeJournalEntry_hold (s : BrowserEffects) (e : DirectoryRefresh) (key : EffectKey) :
    (s.holdOverflowDirectoryRefresh e).removeJournalEntry key none =
      (s.removeJournalEntry key none).holdOverflowDirectoryRefresh e := by
  simp only [removeJournalEntry_none]
  unfold holdOverflowDirectoryRefresh
  cases h : s.overflowDirectoryRefresh <;> simp [record]

theorem settleDirectoryRefresh_quiet (hjournal : s.journal.get? key = some token)
    (htrailing : s.trailingDirectoryRefresh.get? key = none) :
    settleDirectoryRefresh r s key token = s.removeJournalEntry key none := by
  unfold settleDirectoryRefresh
  rw [if_neg (by simp [hjournal]), htrailing]
  simp only
  rw [removeJournalEntry_token (by exact hjournal)]
  simp only [removeJournalEntry_none, InsertionMap.erase_of_get?_eq_none htrailing]

/-- The state once the reads of a journaled key have started. -/
def reading (s : BrowserEffects) (key : EffectKey) (token : Nat) : BrowserEffects :=
  { s.record (.readStarted key) with
    directoryRefreshActive := s.directoryRefreshActive.insert key token
    directoryRefreshHoldTimers := s.directoryRefreshHoldTimers.insert key token }

theorem Ledger.readStarted (h : Ledger leaving s)
    (hcurrent : s.isCurrent key.scope = true) (hleaving : leaving ≠ some key.scope) :
    Ledger leaving (s.record (.readStarted key)) where
  handles := h.handles
  workspaces := h.workspaces
  owedCurrent := by
    intro i hi
    rcases mem_owed_cons.mp hi with heq | ⟨hi, -⟩
    · cases heq
    · exact h.owedCurrent i hi
  supersededLeft := h.supersededLeft
  readsStanding := by
    refine ⟨?_, h.readsStanding⟩
    cases hsup : isSuperseded s.log key.scope with
    | false => rfl
    | true => exact absurd (h.supersededLeft _ hsup hcurrent) hleaving

theorem owed_readStarted {i : DirectoryRefresh}
    (hi : i ∈ owed (s.record (.readStarted key)).log) : i ∈ owed s.log ∧ i.key ≠ key := by
  rcases mem_owed_cons.mp hi with heq | ⟨hi, hkeep⟩
  · cases heq
  · exact ⟨hi, fun heq => by simp [EffectEvent.discharges, heq] at hkeep⟩

theorem Covers.readStarted (h : Covers (e :: x) s) :
    Covers x (s.record (.readStarted e.key)) := by
  intro i hi
  obtain ⟨hi, hne⟩ := owed_readStarted hi
  obtain ⟨c, hc, hck, hct⟩ := h i hi
  refine ⟨c, ?_, hck, hct⟩
  rcases hc with hc | hc
  · exact Or.inl hc
  · rcases List.mem_cons.mp hc with rfl | hc
    · exact absurd hck.symm hne
    · exact Or.inr hc

theorem Tables.reading
    (h : Tables (fun k => loose k ∨ k = key) s) (hjournal : s.journal.get? key = some token)
    (hlimit : s.atLimit = false) (hloose : ¬loose key) :
    Tables loose { s.reading key token with reads := s.reads ++ [(key, token)] } := by
  obtain ⟨htimer, hactive⟩ := h.looseUnheld key (Or.inr rfl)
  refine
    { activeJournal := ?_
      activeReads := ?_
      activeBound := ?_
      trailingActive := ?_
      timersJournal := ?_
      journalHeld := ?_
      looseUnheld := ?_
      latestJournal := h.latestJournal
      overflowFresh := h.overflowFresh
      stamped := h.stamped
      inBounds := h.inBounds }
  · intro k t hk
    simp only [BrowserEffects.reading, InsertionMap.get?_insert] at hk ⊢
    split at hk
    · rename_i heq
      cases hk
      exact heq ▸ hjournal
    · exact h.activeJournal k t hk
  · intro k t hk
    simp only [BrowserEffects.reading, InsertionMap.get?_insert] at hk ⊢
    split at hk
    · rename_i heq
      cases hk
      simp [heq]
    · exact List.mem_append_left _ (h.activeReads k t hk)
  · simp only [BrowserEffects.reading, InsertionMap.size_insert_of_get?_eq_none hactive]
    simp only [atLimit, decide_eq_false_iff_not, Nat.not_le] at hlimit
    omega
  · intro k d hk
    obtain ⟨hkey, t, ht⟩ := h.trailingActive k d hk
    refine ⟨hkey, ?_⟩
    simp only [BrowserEffects.reading, InsertionMap.get?_insert]
    split
    · exact ⟨token, rfl⟩
    · exact ⟨t, ht⟩
  · intro k t d hk
    obtain ⟨hkey, hj, ha⟩ := h.timersJournal k t d hk
    refine ⟨hkey, hj, ?_⟩
    have hne : k ≠ key := by
      rintro rfl
      have hk' : s.timers.get? k = some (t, d) := hk
      rw [htimer] at hk'
      cases hk'
    exact (InsertionMap.get?_insert_of_ne _ hne _).trans ha
  · intro k t hk
    simp only [BrowserEffects.reading, InsertionMap.get?_insert]
    have hk' : s.journal.get? k = some t := hk
    by_cases hne : k = key
    · rw [hne, hjournal, Option.some.injEq] at hk'
      simp [hne, hk']
    · rw [if_neg hne]
      rcases h.journalHeld k t hk' with hd | ha | hl | hl
      · exact Or.inl hd
      · exact Or.inr (Or.inl ha)
      · exact Or.inr (Or.inr hl)
      · exact absurd hl hne
  · intro k hk
    obtain ⟨ht, ha⟩ := h.looseUnheld k (Or.inl hk)
    have hne : k ≠ key := by
      rintro rfl
      exact hloose hk
    exact ⟨ht, (InsertionMap.get?_insert_of_ne _ hne _).trans ha⟩

theorem concludeDirectoryRefresh_reading
    (h : Tables loose s) (hkey : loose key) (hjournal : s.journal.get? key = some token) :
    concludeDirectoryRefresh r (s.reading key token) key token =
      admitOverflowDirectoryRefresh r ((s.record (.readStarted key)).drop key) := by
  obtain ⟨htimer, hactive⟩ := h.looseUnheld key hkey
  have htrailing := h.trailing_none hactive
  unfold concludeDirectoryRefresh
  rw [if_neg (by simp [BrowserEffects.reading])]
  congr 1
  rw [settleDirectoryRefresh_quiet (by exact hjournal) (by exact htrailing),
    removeJournalEntry_none]
  simp only [BrowserEffects.reading, BrowserEffects.drop, freeDirectoryRefreshSlot, record,
    InsertionMap.erase_insert, InsertionMap.erase_of_get?_eq_none htimer,
    InsertionMap.erase_of_get?_eq_none htrailing]

theorem runDirectoryRefresh_served
    (htables : Tables (fun k => loose k ∨ k = e.key) s) (hledger : Ledger leaving s)
    (hcovers : Covers (e :: x) s)
    (hsize : s.journal.size ≤ SESSION_BROWSER_EFFECT_JOURNAL_LIMIT) (hloose : ¬loose e.key)
    (hjournal : s.journal.get? e.key = some token) (hleaving : leaving ≠ some e.scope)
    (hstamp : e.time ≤ s.dispatches)
    (hpark : s.atLimit = true → ∀ o, s.overflowDirectoryRefresh = some o → o.time < e.time)
    (hr : s.overflowDirectoryRefresh = none ∨ AdmitsQuietly r ∧ Nestable loose leaving s) :
    Served loose leaving x s (runDirectoryRefresh r s e e.key token) ∧
      ((runDirectoryRefresh r s e e.key token).overflowDirectoryRefresh = none ∨
        ((runDirectoryRefresh r s e e.key token).overflowDirectoryRefresh =
            s.overflowDirectoryRefresh ∧ s.atLimit = false) ∨
          (runDirectoryRefresh r s e e.key token).atLimit = true) ∧
      (s.overflowDirectoryRefresh = none → s.atLimit = false →
        (runDirectoryRefresh r s e e.key token).overflowDirectoryRefresh = none ∧
          ∀ k, s.journal.get? k = none →
            (runDirectoryRefresh r s e e.key token).journal.get? k = none) := by
  obtain ⟨htimer, hactive⟩ := htables.looseUnheld e.key (Or.inr rfl)
  have htrailing := htables.trailing_none hactive
  have hdropped : Tables loose (s.drop e.key) :=
    htables.drop (fun _ h => Or.inl h) fun _ h => h.symm
  have hdropKeys : ∀ k, s.journal.get? k = none → (s.drop e.key).journal.get? k = none := by
    intro k hk
    simp only [drop, InsertionMap.get?_erase, hk, ite_self]
  unfold runDirectoryRefresh
  split
  · -- the scope is no longer current, so nobody is owed a read for the key
    rename_i hinactive
    have hnotCurrent : s.isCurrent e.scope = false := by
      simpa [isActive, hjournal] using hinactive
    have hkey : ∀ i ∈ owed s.log, i.key ≠ e.key := by
      intro i hi heq
      have hscope : i.scope = e.scope := congrArg EffectKey.scope heq
      have hcur := hledger.owedCurrent i hi
      rw [hscope, hnotCurrent] at hcur
      cases hcur
    rw [settleDirectoryRefresh_quiet hjournal htrailing,
      htables.removeJournalEntry_loose (Or.inr rfl)]
    refine ⟨⟨hdropped, hledger.congr ⟨rfl, rfl, rfl⟩ rfl, ?_,
      Nat.le_trans (InsertionMap.size_erase_le _ _) hsize, ⟨rfl, rfl, rfl⟩, fun _ hi => hi⟩,
      ?_, fun hnone _ => ⟨hnone, hdropKeys⟩⟩
    · refine hcovers.drop htables hkey fun c hc hne => ?_
      rcases List.mem_cons.mp hc with rfl | hc
      · exact absurd rfl hne
      · exact hc
    · have hsame : (s.drop e.key).atLimit = s.atLimit := by
        simp only [atLimit, drop, InsertionMap.erase_of_get?_eq_none hactive]
      rw [hsame]
      cases s.atLimit with
      | false => exact Or.inr (Or.inl ⟨rfl, rfl⟩)
      | true => exact Or.inr (Or.inr rfl)
  · split
    · -- the limit was reached meanwhile: the intent takes the overflow slot
      rename_i hlimit
      rw [settleDirectoryRefresh_quiet (by simpa using hjournal) (by simpa using htrailing),
        removeJournalEntry_hold, htables.removeJournalEntry_loose (Or.inr rfl)]
      have hcov : Covers x ((s.drop e.key).holdOverflowDirectoryRefresh e) :=
        (hcovers.drop_loose htables (Or.inr rfl)).hold (hpark hlimit)
      refine ⟨⟨hdropped.hold (InsertionMap.get?_erase_self _ _) hstamp,
        (hledger.congr (sameScopes_drop s e.key) rfl).hold, hcov, ?_,
        (sameScopes_drop s e.key).trans (sameScopes_hold _ e), ?_⟩, Or.inr (Or.inr ?_),
        fun _ hbelow => ?_⟩
      · rw [journal_hold]
        exact Nat.le_trans (InsertionMap.size_erase_le _ _) hsize
      · exact fun i hi => owes_hold (s.drop e.key) e i hi
      · simp only [atLimit, active_hold, drop, InsertionMap.erase_of_get?_eq_none hactive]
        exact hlimit
      · rw [hlimit] at hbelow
        cases hbelow
    · rename_i hisActive hbelow
      have hlimit : s.atLimit = false := by simpa using hbelow
      have hcurrent : s.isCurrent e.scope = true := by
        simpa [isActive, hjournal] using hisActive
      have hledgerRead : Ledger leaving (s.record (.readStarted e.key)) :=
        hledger.readStarted hcurrent hleaving
      simp only
      split
      · -- the reader answered at once, so the slot is offered right away
        have hcall : concludeDirectoryRefresh r
            { s.record (.readStarted e.key) with
              directoryRefreshActive := s.directoryRefreshActive.insert e.key token
              directoryRefreshHoldTimers := s.directoryRefreshHoldTimers.insert e.key token }
            e.key token =
            admitOverflowDirectoryRefresh r ((s.record (.readStarted e.key)).drop e.key) :=
          concludeDirectoryRefresh_reading htables (Or.inr rfl) hjournal
        have hbase : Served loose leaving x s ((s.record (.readStarted e.key)).drop e.key) :=
          { tables := (htables.record _).drop (fun _ h => Or.inl h) fun _ h => h.symm
            ledger := hledgerRead.congr ⟨rfl, rfl, rfl⟩ rfl
            covers := hcovers.readStarted.drop (htables.record _)
              (fun i hi => (owed_readStarted hi).2) fun _ hc _ => hc
            size := Nat.le_trans (InsertionMap.size_erase_le _ _) hsize
            scopes := ⟨rfl, rfl, rfl⟩
            owes := fun i hi => (owed_readStarted hi).1 }
        have hfree : ((s.record (.readStarted e.key)).drop e.key).atLimit = false := by
          simp only [atLimit, drop, record, InsertionMap.erase_of_get?_eq_none hactive]
          exact hlimit
        rw [hcall]
        cases hoverflow : s.overflowDirectoryRefresh with
        | none =>
          rw [admitOverflowDirectoryRefresh_quiet
            (s := (s.record (.readStarted e.key)).drop e.key) (Or.inl hoverflow)]
          exact ⟨hbase, Or.inl hoverflow, fun _ _ => ⟨hoverflow, hdropKeys⟩⟩
        | some o =>
          obtain ⟨hadmits, hnest⟩ := hr.resolve_left (by simp [hoverflow])
          obtain ⟨hserved, hnone, -⟩ := admitOverflowDirectoryRefresh_nested hadmits
            (s := (s.record (.readStarted e.key)).drop e.key) hnest hbase.tables hbase.ledger
            hbase.covers hbase.size hoverflow hfree
          exact ⟨hserved.after hbase.scopes hbase.owes, Or.inl hnone, fun h => by cases h⟩
      · refine ⟨⟨htables.reading hjournal hlimit hloose, hledgerRead.congr ⟨rfl, rfl, rfl⟩ rfl,
          hcovers.readStarted, hsize, ⟨rfl, rfl, rfl⟩, fun i hi => (owed_readStarted hi).1⟩,
          Or.inr (Or.inl ⟨rfl, hlimit⟩), fun hnone _ => ⟨hnone, fun k hk => hk⟩⟩

/-! ## A dispatch -/

theorem Tables.journalKey (h : Tables loose s) (hfresh : s.journal.get? e.key = none)
    (hother : ∀ o, s.overflowDirectoryRefresh = some o → o.key ≠ e.key) :
    Tables (fun k => loose k ∨ k = e.key) (s.journalKey e) := by
  have hgrow : ∀ k t, s.journal.get? k = some t → (s.journalKey e).journal.get? k = some t := by
    intro k t hk
    have hne : k ≠ e.key := by
      rintro rfl
      rw [hfresh] at hk
      cases hk
    exact (InsertionMap.get?_insert_of_ne _ hne _).trans hk
  have hactive := h.active_none hfresh
  have htimer := h.timer_none hfresh
  refine
    { activeJournal := fun k t hk => hgrow k t (h.activeJournal k t hk)
      activeReads := h.activeReads
      activeBound := h.activeBound
      trailingActive := h.trailingActive
      timersJournal := ?_
      journalHeld := ?_
      looseUnheld := ?_
      latestJournal := ?_
      overflowFresh := ?_
      stamped := h.stamped
      inBounds := h.inBounds }
  · intro k t d hk
    obtain ⟨hkey, hj, ha⟩ := h.timersJournal k t d hk
    exact ⟨hkey, hgrow k t hj, ha⟩
  · intro k t hk
    by_cases hne : k = e.key
    · exact Or.inr (Or.inr (Or.inr hne))
    · have hk' : s.journal.get? k = some t :=
        (InsertionMap.get?_insert_of_ne _ hne _).symm.trans hk
      rcases h.journalHeld k t hk' with hd | ha | hl
      · exact Or.inl hd
      · exact Or.inr (Or.inl ha)
      · exact Or.inr (Or.inr (Or.inl hl))
  · intro k hk
    rcases hk with hk | rfl
    · exact h.looseUnheld k hk
    · exact ⟨htimer, hactive⟩
  · intro g k hk
    have hold : ∀ g, s.latestKeyByGroup.get? g = some k →
        ∃ t, (s.journalKey e).journal.get? k = some t := by
      intro g hg
      obtain ⟨t, ht⟩ := h.latestJournal g k hg
      exact ⟨t, hgrow k t ht⟩
    cases hgroup : e.groupKey with
    | none =>
      simp only [BrowserEffects.journalKey, hgroup] at hk
      exact hold g hk
    | some groupKey =>
      simp only [BrowserEffects.journalKey, hgroup, InsertionMap.get?_insert] at hk
      split at hk
      · cases hk
        exact ⟨_, InsertionMap.get?_insert_self _ _ _⟩
      · exact hold g hk
  · intro o ho
    exact (InsertionMap.get?_insert_of_ne _ (hother o ho) _).trans (h.overflowFresh o ho)

theorem evictOldest_fits {rounds : Nat}
    (h : s.journal.size ≤ SESSION_BROWSER_EFFECT_JOURNAL_LIMIT) :
    evictOldest r key rounds s = s := by
  cases rounds with
  | zero => rw [evictOldest, if_neg (by omega)]
  | succ rounds => rw [evictOldest, if_pos h]

/-- A nested dispatch may happen: the slot is empty, or its intent may be admitted without
evicting anything. -/
def Roomy (r : BrowserEffects → DirectoryRefresh → BrowserEffects) (loose : EffectKey → Prop)
    (leaving : Option EffectScope) (s : BrowserEffects) (e : DirectoryRefresh) : Prop :=
  s.overflowDirectoryRefresh = none ∨
    (AdmitsQuietly r ∧ Nestable loose leaving s ∧ s.atLimit = false ∧
      s.journal.size < SESSION_BROWSER_EFFECT_JOURNAL_LIMIT ∧
      ∀ o, s.overflowDirectoryRefresh = some o → o.key ≠ e.key)

theorem journaled_served (h : Ready loose leaving x s e)
    (hroom : Roomy r loose leaving s e) (rounds : Nat)
    (hrounds : (s.journalKey e).journal.size ≤ SESSION_BROWSER_EFFECT_JOURNAL_LIMIT + rounds) :
    Served (fun k => loose k ∨ k = e.key) leaving (e :: x) s
        (evictOldest r e.key rounds (s.journalKey e)) ∧
      Evicted e.key (s.journalKey e) (evictOldest r e.key rounds (s.journalKey e)) := by
  have hother : ∀ o, s.overflowDirectoryRefresh = some o → o.key ≠ e.key := by
    intro o ho
    rcases hroom with hnone | ⟨-, -, -, -, hother⟩
    · rw [hnone] at ho
      cases ho
    · exact hother o ho
  have htables := h.tables.journalKey h.fresh hother
  have hledger : Ledger leaving (s.journalKey e) := h.ledger.congr ⟨rfl, rfl, rfl⟩ rfl
  rcases hroom with hnone | ⟨-, -, -, hsize, -⟩
  · obtain ⟨hserved, hevicted⟩ := evictOldest_served (r := r) e.key rounds htables hledger
      (x := e :: x) (fun i hi => h.covers i hi) hnone hrounds
    exact ⟨hserved.after ⟨rfl, rfl, rfl⟩ fun _ hi => hi, hevicted⟩
  · have hfits : (s.journalKey e).journal.size ≤ SESSION_BROWSER_EFFECT_JOURNAL_LIMIT := by
      simp only [BrowserEffects.journalKey, InsertionMap.size_insert_of_get?_eq_none h.fresh]
      omega
    rw [evictOldest_fits hfits]
    exact ⟨⟨htables, hledger, fun i hi => h.covers i hi, hfits, ⟨rfl, rfl, rfl⟩, fun _ hi => hi⟩,
      rfl, rfl, fun _ hk => hk, Nat.le_refl _⟩

theorem Tables.schedule
    (h : Tables (fun k => loose k ∨ k = e.key) s) (hjournal : s.journal.get? e.key = some token)
    (hloose : ¬loose e.key) (hstamp : e.time ≤ s.dispatches) :
    Tables loose { s with timers := s.timers.insert e.key (token, e) } := by
  obtain ⟨htimer, hactive⟩ := h.looseUnheld e.key (Or.inr rfl)
  refine
    { activeJournal := h.activeJournal
      activeReads := h.activeReads
      activeBound := h.activeBound
      trailingActive := h.trailingActive
      timersJournal := ?_
      journalHeld := ?_
      looseUnheld := ?_
      latestJournal := h.latestJournal
      overflowFresh := h.overflowFresh
      stamped := ?_
      inBounds := h.inBounds }
  · intro k t d hk
    simp only [InsertionMap.get?_insert] at hk
    split at hk
    · rename_i heq
      cases hk
      exact ⟨heq.symm, heq ▸ hjournal, heq ▸ hactive⟩
    · exact h.timersJournal k t d hk
  · intro k t hk
    have hk' : s.journal.get? k = some t := hk
    simp only [InsertionMap.get?_insert]
    by_cases hne : k = e.key
    · rw [hne, hjournal, Option.some.injEq] at hk'
      exact Or.inl ⟨e, by rw [if_pos hne, hk']⟩
    · rw [if_neg hne]
      rcases h.journalHeld k t hk' with hd | ha | hl | hl
      · exact Or.inl hd
      · exact Or.inr (Or.inl ha)
      · exact Or.inr (Or.inr hl)
      · exact absurd hl hne
  · intro k hk
    obtain ⟨ht, ha⟩ := h.looseUnheld k (Or.inl hk)
    have hne : k ≠ e.key := by
      rintro rfl
      exact hloose hk
    exact ⟨(InsertionMap.get?_insert_of_ne _ hne _).trans ht, ha⟩
  · rintro c (⟨k, t, hc⟩ | hc)
    · simp only [InsertionMap.get?_insert] at hc
      split at hc
      · cases hc
        exact hstamp
      · exact h.stamped c (Or.inl ⟨k, t, hc⟩)
    · exact h.stamped c (Or.inr hc)

theorem Covers.schedule (h : Covers (e :: x) s) (htimer : s.timers.get? e.key = none) :
    Covers x { s with timers := s.timers.insert e.key (token, e) } := by
  intro i hi
  obtain ⟨c, hc, hck, hct⟩ := h i hi
  refine ⟨c, ?_, hck, hct⟩
  rcases hc with (⟨k, t, hc⟩ | hc) | hc
  · have hne : k ≠ e.key := by
      rintro rfl
      rw [htimer] at hc
      cases hc
    exact Or.inl (Or.inl ⟨k, t, (InsertionMap.get?_insert_of_ne _ hne _).trans hc⟩)
  · exact Or.inl (Or.inr hc)
  · rcases List.mem_cons.mp hc with rfl | hc
    · exact Or.inl (Or.inl ⟨_, token, InsertionMap.get?_insert_self _ _ _⟩)
    · exact Or.inr hc

/-- What a dispatch does to the slot, and in a state with an empty slot to the journal. -/
structure Slotted (s s' : BrowserEffects) (key : EffectKey) : Prop where
  overflow : s'.overflowDirectoryRefresh = none ∨
    s'.overflowDirectoryRefresh = s.overflowDirectoryRefresh ∨ s'.atLimit = true
  quiet : s.overflowDirectoryRefresh = none → s.atLimit = false →
    s'.overflowDirectoryRefresh = none ∧ NoNewKey s s' key

theorem admitted_served (h : Ready loose leaving x s e)
    (hcurrent : s.isCurrent e.scope = true) (hroom : Roomy r loose leaving s e) :
    Served loose leaving x s (admitted r s e) ∧ Slotted s (admitted r s e) e.key := by
  obtain ⟨hserved, hevicted⟩ := journaled_served h hroom (s.journalKey e).journal.size (by omega)
  unfold admitted
  simp only
  generalize evictOldest r e.key (s.journalKey e).journal.size (s.journalKey e) = kept
    at hserved hevicted
  have hjournal : kept.journal.get? e.key = some (s.nextToken + 1) :=
    hevicted.kept.trans (InsertionMap.get?_insert_self _ _ _)
  have hkeptCurrent : kept.isCurrent e.scope = true := by
    rw [hserved.scopes.isCurrent]
    exact hcurrent
  have hoverflow : kept.overflowDirectoryRefresh = s.overflowDirectoryRefresh := hevicted.overflow
  have hstamp : e.time ≤ kept.dispatches := by
    rw [hserved.scopes.dispatches]
    exact h.stamped
  have hkeys : NoNewKey s kept e.key := fun k hne hk =>
    hevicted.keys k ((InsertionMap.get?_insert_of_ne _ hne _).trans hk)
  have hbelow : s.atLimit = false → kept.atLimit = false :=
    fun hfree => below_limit hfree hevicted.active
  rw [if_neg (by simp [isActive, hjournal, hkeptCurrent])]
  cases hdelay : e.delayMs with
  | some delay =>
    simp only
    refine ⟨⟨hserved.tables.schedule hjournal h.notLoose hstamp,
      hserved.ledger.congr ⟨rfl, rfl, rfl⟩ rfl,
      hserved.covers.schedule (hserved.tables.looseUnheld e.key (Or.inr rfl)).1, hserved.size,
      ⟨hserved.scopes.1, hserved.scopes.2, hserved.scopes.3⟩, hserved.owes⟩,
      ⟨Or.inr (Or.inl hoverflow), fun hnone _ => ⟨hoverflow.trans hnone, hkeys⟩⟩⟩
  | none =>
    simp only
    have hleaving : leaving ≠ some e.scope := fun heq => h.delayed heq hdelay
    have hpark : kept.atLimit = true → ∀ o, kept.overflowDirectoryRefresh = some o →
        o.time < e.time := by
      intro hlimit o ho
      rw [hoverflow] at ho
      rcases hroom with hnone | ⟨-, -, hfree, -, -⟩
      · rw [hnone] at ho
        cases ho
      · rw [hbelow hfree] at hlimit
        cases hlimit
    have hnest : kept.overflowDirectoryRefresh = none ∨
        AdmitsQuietly r ∧ Nestable loose leaving kept := by
      rcases hroom with hnone | ⟨hadmits, hnest, -, -, -⟩
      · exact Or.inl (hoverflow.trans hnone)
      · exact Or.inr ⟨hadmits, fun o ho => hnest o (hoverflow.symm.trans ho)⟩
    obtain ⟨hrun, hslot, hquiet⟩ := runDirectoryRefresh_served hserved.tables hserved.ledger
      hserved.covers hserved.size h.notLoose hjournal hleaving hstamp hpark hnest
    rw [hoverflow] at hslot hquiet
    refine ⟨hrun.after hserved.scopes hserved.owes, hslot.imp id (Or.imp And.left id),
      fun hnone hfree => ?_⟩
    obtain ⟨hempty, hsame⟩ := hquiet hnone (hbelow hfree)
    exact ⟨hempty, fun k hne hk => hsame k (hkeys k hne hk)⟩

theorem owed_evicted {i : DirectoryRefresh}
    (hi : i ∈ owed (s.record (.evicted key)).log) : i ∈ owed s.log ∧ i.key ≠ key := by
  obtain ⟨hi, hkeep⟩ := mem_owed_of_plain rfl hi
  exact ⟨hi, fun heq => by simp [EffectEvent.discharges, heq] at hkeep⟩

/-- The state in which the key of a dispatch may be journaled. -/
structure Replaced (r : BrowserEffects → DirectoryRefresh → BrowserEffects)
    (loose : EffectKey → Prop) (leaving : Option EffectScope) (x : List DirectoryRefresh)
    (e : DirectoryRefresh) (s s' : BrowserEffects) : Prop where
  ready : Ready loose leaving x s' e
  roomy : Roomy r loose leaving s' e
  scopes : SameScopes s s'
  owes : ∀ i ∈ owed s'.log, i ∈ owed s.log
  overflow : s'.overflowDirectoryRefresh = none ∨
    s'.overflowDirectoryRefresh = s.overflowDirectoryRefresh
  quiet : s.overflowDirectoryRefresh = none → s'.overflowDirectoryRefresh = none ∧
    s'.atLimit = false ∧ NoNewKey s s' e.key

theorem replaceInGroup_served (h : Ready loose leaving x s e)
    (hlimit : s.atLimit = false) (hroom : Roomy r loose leaving s e) :
    Replaced r loose leaving x e s (replaceInGroup r s e) := by
  unfold replaceInGroup
  split
  · exact ⟨h, hroom, ⟨rfl, rfl, rfl⟩, fun _ hi => hi, Or.inr rfl,
      fun hnone => ⟨hnone, hlimit, fun _ _ hk => hk⟩⟩
  · rename_i previousKey hprevious
    obtain ⟨g, -, hg⟩ := Option.bind_eq_some_iff.mp hprevious
    obtain ⟨t, ht⟩ := h.tables.latestJournal g previousKey hg
    have hne : e.key ≠ previousKey := by
      intro heq
      rw [← heq, h.fresh] at ht
      cases ht
    have hcovers : Covers (e :: x) (s.record (.evicted previousKey)) := h.covers.record_plain rfl
    have hledger : Ledger leaving (s.record (.evicted previousKey)) := h.ledger.record_plain rfl
    have htables : Tables loose (s.record (.evicted previousKey)) := h.tables.record _
    have hkey : ∀ i ∈ owed (s.record (.evicted previousKey)).log, i.key ≠ previousKey :=
      fun i hi => (owed_evicted hi).2
    cases hoverflow : s.overflowDirectoryRefresh with
    | none =>
      rw [cancelJournalEntry_quiet (s := s.record (.evicted previousKey)) (Or.inl hoverflow)]
      have hdrop := served_drop htables hledger hcovers h.size hkey
      have hjournal : ∀ k, s.journal.get? k = none →
          ((s.record (.evicted previousKey)).drop previousKey).journal.get? k = none := by
        intro k hk
        simp only [drop, record, InsertionMap.get?_erase, hk, ite_self]
      refine
        { ready := ⟨hdrop.tables, hdrop.ledger, hdrop.covers, hdrop.size, h.notLoose,
            hjournal _ h.fresh, h.delayed, h.stamped⟩
          roomy := Or.inl hoverflow
          scopes := ⟨rfl, rfl, rfl⟩
          owes := fun i hi => (owed_evicted hi).1
          overflow := Or.inl hoverflow
          quiet := fun _ => ⟨hoverflow, ?_, fun k _ hk => hjournal k hk⟩ }
      exact below_limit hlimit (InsertionMap.size_erase_le _ _)
    | some o =>
      obtain ⟨hadmits, hnest, -, -, hother⟩ := hroom.resolve_left (by simp [hoverflow])
      have hnest' : Nestable (fun k => loose k ∨ k = previousKey) leaving
          (s.record (.evicted previousKey)) := by
        intro o' ho'
        refine ⟨?_, (hnest o' ho').2⟩
        rintro (hl | heq)
        · exact (hnest o' ho').1 hl
        · have hfresh := h.tables.overflowFresh o' ho'
          rw [heq, ht] at hfresh
          cases hfresh
      have hfree : ((s.record (.evicted previousKey)).unhold previousKey).atLimit = false :=
        below_limit hlimit (InsertionMap.size_erase_le _ _)
      obtain ⟨hserved, hnone, hkeys⟩ := cancelJournalEntry_nested hadmits hnest' htables hledger
        hcovers h.size hkey hoverflow hfree
      exact
        { ready := ⟨hserved.tables, hserved.ledger, hserved.covers, hserved.size, h.notLoose,
            hkeys _ (hother o hoverflow).symm h.fresh, h.delayed,
            by rw [hserved.scopes.dispatches]; exact h.stamped⟩
          roomy := Or.inl hnone
          scopes := ⟨hserved.scopes.1, hserved.scopes.2, hserved.scopes.3⟩
          owes := fun i hi => (owed_evicted (hserved.owes i hi)).1
          overflow := Or.inl hnone
          quiet := fun hnone' => by rw [hoverflow] at hnone'; cases hnone' }

theorem Covers.of_not_current (h : Covers (e :: x) s)
    (hledger : Ledger leaving s) (hcurrent : s.isCurrent e.scope = false) : Covers x s := by
  intro i hi
  obtain ⟨c, hc, hck, hct⟩ := h i hi
  refine ⟨c, ?_, hck, hct⟩
  rcases hc with hc | hc
  · exact Or.inl hc
  · rcases List.mem_cons.mp hc with rfl | hc
    · have hscope : i.scope = c.scope := congrArg EffectKey.scope hck.symm
      have hcur := hledger.owedCurrent i hi
      rw [hscope, hcurrent] at hcur
      cases hcur
    · exact Or.inr hc

theorem dispatchWith_served (h : Ready loose leaving x s e)
    (hlimit : s.atLimit = false) (hroom : Roomy r loose leaving s e) :
    Served loose leaving x s (dispatchWith r s e).1 ∧ Slotted s (dispatchWith r s e).1 e.key := by
  unfold dispatchWith
  split
  · rename_i hcurrent
    exact ⟨⟨h.tables, h.ledger, h.covers.of_not_current h.ledger hcurrent, h.size,
      ⟨rfl, rfl, rfl⟩, fun _ hi => hi⟩,
      ⟨Or.inr (Or.inl rfl), fun hnone _ => ⟨hnone, fun _ _ hk => hk⟩⟩⟩
  · rename_i hcurrent
    rw [if_neg (by simp [h.fresh]), if_neg (by simp [hlimit])]
    have hreplaced := replaceInGroup_served h hlimit hroom
    obtain ⟨hserved, hslotted⟩ := admitted_served hreplaced.ready
      (by rw [hreplaced.scopes.isCurrent]; simpa using hcurrent) hreplaced.roomy
    refine ⟨hserved.after hreplaced.scopes hreplaced.owes, ⟨?_, fun hnone _ => ?_⟩⟩
    · rcases hslotted.overflow with hempty | hsame | hfull
      · exact Or.inl hempty
      · rcases hreplaced.overflow with hempty | hsame'
        · exact Or.inl (hsame.trans hempty)
        · exact Or.inr (Or.inl (hsame.trans hsame'))
      · exact Or.inr (Or.inr hfull)
    · obtain ⟨hempty, hfree, hkeys⟩ := hreplaced.quiet hnone
      obtain ⟨hempty', hkeys'⟩ := hslotted.quiet hempty hfree
      exact ⟨hempty', fun k hne hk => hkeys' k hne (hkeys k hne hk)⟩

end Calls

theorem admitsQuietly_dispatchAt (depth : Nat) :
    AdmitsQuietly fun s e => (dispatchAt (depth + 1) s e).1 := by
  intro loose leaving x s e hready hnone hlimit
  obtain ⟨hserved, hslotted⟩ := dispatchWith_served
    (r := fun s e => (dispatchAt depth s e).1) hready hlimit (Or.inl hnone)
  obtain ⟨hempty, hkeys⟩ := hslotted.quiet hnone hlimit
  exact ⟨hserved, hempty, hkeys⟩

theorem admitsQuietly_redispatch : AdmitsQuietly redispatch := admitsQuietly_dispatchAt 1

theorem redispatch_trailing {loose : EffectKey → Prop} {leaving : Option EffectScope}
    {x : List DirectoryRefresh} {s : BrowserEffects} {e : DirectoryRefresh}
    (h : Ready loose leaving x s e) (hlimit : s.atLimit = false)
    (hsize : s.journal.size < SESSION_BROWSER_EFFECT_JOURNAL_LIMIT)
    (hnest : Nestable loose leaving s)
    (hother : ∀ o, s.overflowDirectoryRefresh = some o → o.key ≠ e.key) :
    Served loose leaving x s (redispatch s e) ∧ Slotted s (redispatch s e) e.key :=
  dispatchWith_served (r := fun s e => (dispatchAt 1 s e).1) h hlimit
    (Or.inr ⟨admitsQuietly_dispatchAt 0, hnest, hlimit, hsize, hother⟩)

end BrowserEffects

end PiAgentWeb
