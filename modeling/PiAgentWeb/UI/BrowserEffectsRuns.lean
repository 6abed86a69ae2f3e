import PiAgentWeb.UI.BrowserEffectsCalls

/-!
# No accepted directory refresh is lost

Between two steps nothing is held by a call, and an intent waits in the overflow slot only while
the limit is reached. Every orderly step leads to such a state again, so once no timer, hold or
read is outstanding nothing is owed. Two steps are not orderly: a delay timer that fires at the
limit puts its intent over one dispatched later, and superseding an identity clears its state
while it still counts as current, so a slot it frees admits its own parked intent.
-/

namespace PiAgentWeb

namespace BrowserEffects

/-! ## The state between two steps -/

/-- What holds between two steps. -/
structure Resting (s : BrowserEffects) : Prop where
  tables : Tables (fun _ => False) s
  ledger : Ledger none s
  covers : Covers [] s
  size : s.journal.size ≤ SESSION_BROWSER_EFFECT_JOURNAL_LIMIT
  /-- An intent waits in the slot only while the limit is reached. -/
  parked : ∀ o, s.overflowDirectoryRefresh = some o → s.atLimit = true

theorem resting_initial : Resting initial where
  tables :=
    { activeJournal := fun _ _ h => nomatch h
      activeReads := fun _ _ h => nomatch h
      activeBound := by decide
      trailingActive := fun _ _ h => nomatch h
      timersJournal := fun _ _ _ h => nomatch h
      journalHeld := fun _ _ h => nomatch h
      looseUnheld := fun _ h => h.elim
      latestJournal := fun _ _ h => nomatch h
      overflowFresh := fun _ h => nomatch h
      stamped := by
        rintro c (⟨k, t, h⟩ | ⟨k, h⟩ | h) <;> cases h
      inBounds := rfl }
  ledger :=
    { handles := fun _ _ h => nomatch h
      workspaces := fun _ _ h => nomatch h
      owedCurrent := fun _ h => nomatch h
      supersededLeft := fun _ h => nomatch h
      readsStanding := trivial }
  covers := fun _ h => nomatch h
  size := by decide
  parked := fun _ h => nomatch h

section Steps

variable {s : BrowserEffects}

theorem Resting.with_holds (h : Resting s) (holds : InsertionMap EffectKey Nat) :
    Resting { s with directoryRefreshHoldTimers := holds } where
  tables := { h.tables with }
  ledger := h.ledger.congr ⟨rfl, rfl, rfl⟩ rfl
  covers := fun i hi => h.covers i hi
  size := h.size
  parked := h.parked

theorem admit_resting (htables : Tables (fun _ => False) s) (hledger : Ledger none s)
    (hcovers : Covers [] s) (hsize : s.journal.size ≤ SESSION_BROWSER_EFFECT_JOURNAL_LIMIT) :
    Resting (admitOverflowDirectoryRefresh redispatch s) := by
  cases hoverflow : s.overflowDirectoryRefresh with
  | none =>
    rw [admitOverflowDirectoryRefresh_quiet (Or.inl hoverflow)]
    exact ⟨htables, hledger, hcovers, hsize, fun o ho => by rw [hoverflow] at ho; cases ho⟩
  | some o =>
    cases hlimit : s.atLimit with
    | true =>
      rw [admitOverflowDirectoryRefresh_quiet (Or.inr hlimit)]
      exact ⟨htables, hledger, hcovers, hsize, fun _ _ => hlimit⟩
    | false =>
      obtain ⟨hserved, hnone, -⟩ := admitOverflowDirectoryRefresh_nested admitsQuietly_redispatch
        (fun _ _ => ⟨id, fun heq => by cases heq⟩) htables hledger hcovers hsize hoverflow hlimit
      exact ⟨hserved.tables, hserved.ledger, hserved.covers, hserved.size,
        fun o ho => by rw [hnone] at ho; cases ho⟩

variable {key : EffectKey}

theorem Covers.release {token : Nat} (h : Covers [] s) (htables : Tables (fun _ => False) s)
    (hactive : s.directoryRefreshActive.get? key = some token) :
    Covers (s.trailingDirectoryRefresh.get? key).toList (s.drop key) := by
  intro i hi
  obtain ⟨c, hc, hck, hct⟩ := h i hi
  refine ⟨c, ?_, hck, hct⟩
  rcases hc with hc | hc
  · by_cases hkey : c.key = key
    · rcases hc with ⟨k, t, hc⟩ | ⟨k, hc⟩ | hc
      · obtain ⟨hk, -, hnone⟩ := htables.timersJournal k t c hc
        rw [← hk, hkey, hactive] at hnone
        cases hnone
      · obtain ⟨hk, -⟩ := htables.trailingActive k c hc
        rw [← hk, hkey] at hc
        exact Or.inr (by simp [hc])
      · have hfresh := htables.overflowFresh c hc
        rw [hkey, htables.activeJournal key token hactive] at hfresh
        cases hfresh
    · exact Or.inl (htables.carrier_drop hc hkey)
  · cases hc

/-- A pair that ends leaves a state between two steps: its trailing intent is dispatched first,
then the slot is offered. -/
theorem concludeDirectoryRefresh_resting (h : Resting s) {token : Nat}
    (hactive : s.directoryRefreshActive.get? key = some token)
    (reads : List (EffectKey × Nat)) (holds : InsertionMap EffectKey Nat)
    (hreads : ∀ k t, (k, t) ∈ s.reads → k ≠ key → (k, t) ∈ reads) :
    Resting (concludeDirectoryRefresh redispatch
      { s with reads := reads, directoryRefreshHoldTimers := holds } key token) := by
  have hjournal := h.tables.activeJournal key token hactive
  have htimer : s.timers.get? key = none := by
    cases ht : s.timers.get? key with
    | none => rfl
    | some entry =>
      obtain ⟨t, d⟩ := entry
      rw [(h.tables.timersJournal key t d ht).2.2] at hactive
      cases hactive
  have hdrop : Tables (fun _ => False) (s.drop key) :=
    h.tables.drop (fun _ hl => hl) fun _ hl => Or.inr hl
  -- the released state, before its trailing intent and the slot are looked at
  generalize hreleased : ({ s with reads := reads, directoryRefreshHoldTimers := holds } :
    BrowserEffects).drop key = released
  have hrest : settleDirectoryRefresh redispatch (({ s with
      reads := reads, directoryRefreshHoldTimers := holds } :
        BrowserEffects).freeDirectoryRefreshSlot key) key token =
      (s.trailingDirectoryRefresh.get? key).elim released (redispatch released) := by
    unfold settleDirectoryRefresh
    rw [if_neg (by simpa [freeDirectoryRefreshSlot] using hjournal)]
    simp only
    rw [removeJournalEntry_token (by exact hjournal), removeJournalEntry_none, ← hreleased]
    simp only [freeDirectoryRefreshSlot, drop]
    rw [InsertionMap.erase_of_get?_eq_none htimer]
    cases s.trailingDirectoryRefresh.get? key <;> rfl
  have htables : Tables (fun _ => False) released := by
    rw [← hreleased]
    refine { hdrop with activeReads := fun k t hk => ?_ }
    refine hreads k t (hdrop.activeReads k t hk) ?_
    rintro rfl
    simp [drop] at hk
  have hledger : Ledger none released := by
    rw [← hreleased]
    exact h.ledger.congr ⟨rfl, rfl, rfl⟩ rfl
  have hcovers : Covers (s.trailingDirectoryRefresh.get? key).toList released := by
    rw [← hreleased]
    exact fun i hi => h.covers.release h.tables hactive i hi
  have hsize : released.journal.size < SESSION_BROWSER_EFFECT_JOURNAL_LIMIT := by
    have herase := InsertionMap.size_erase_of_get? hjournal
    have hbefore := h.size
    rw [← hreleased]
    simp only [drop]
    omega
  have hlimit : released.atLimit = false := by
    have herase := InsertionMap.size_erase_of_get? hactive
    have hbound := h.tables.activeBound
    rw [atLimit, decide_eq_false_iff_not, Nat.not_le, ← hreleased]
    simp only [drop]
    omega
  unfold concludeDirectoryRefresh
  rw [if_neg (by simpa using hactive), hrest]
  cases htrailing : s.trailingDirectoryRefresh.get? key with
  | none =>
    rw [htrailing] at hcovers
    exact admit_resting htables hledger hcovers (Nat.le_of_lt hsize)
  | some pending =>
    rw [htrailing] at hcovers
    obtain ⟨hkey, -⟩ := h.tables.trailingActive key pending htrailing
    have hready : Ready (fun _ => False) none [] released pending :=
      { tables := htables
        ledger := hledger
        covers := hcovers
        size := Nat.le_of_lt hsize
        notLoose := id
        fresh := by rw [hkey, ← hreleased]; exact InsertionMap.get?_erase_self _ _
        delayed := fun heq => by cases heq
        stamped := by
          rw [← hreleased]
          exact h.tables.stamped pending (Or.inr (Or.inl ⟨key, htrailing⟩)) }
    obtain ⟨hserved, -⟩ := redispatch_trailing hready hlimit hsize
      (fun _ _ => ⟨id, fun heq => by cases heq⟩) fun o ho heq => by
        have ho' : s.overflowDirectoryRefresh = some o := by rw [← ho, ← hreleased]; rfl
        have hfresh := h.tables.overflowFresh o ho'
        rw [heq, hkey, hjournal] at hfresh
        cases hfresh
    exact admit_resting hserved.tables hserved.ledger hserved.covers hserved.size

theorem settleRead_resting (h : Resting s) (key : EffectKey) (token : Nat) :
    Resting (s.settleRead key token) := by
  unfold settleRead
  split
  · by_cases hactive : s.directoryRefreshActive.get? key = some token
    · refine concludeDirectoryRefresh_resting h hactive _ s.directoryRefreshHoldTimers ?_
      intro k t hmem hne
      exact (List.mem_erase_of_ne fun heq => hne (congrArg Prod.fst heq)).mpr hmem
    · -- the token is an older one, so the completion is ignored
      unfold concludeDirectoryRefresh
      rw [if_pos (by simpa using hactive)]
      refine
        { tables := { h.tables with activeReads := fun k t hk => ?_ }
          ledger := h.ledger.congr ⟨rfl, rfl, rfl⟩ rfl
          covers := fun i hi => h.covers i hi
          size := h.size
          parked := h.parked }
      refine (List.mem_erase_of_ne ?_).mpr (h.tables.activeReads k t hk)
      rintro heq
      cases heq
      exact hactive hk
  · exact h

theorem expireHold_resting (h : Resting s) (key : EffectKey) : Resting (s.expireHold key) := by
  unfold expireHold
  split
  · exact h
  · rename_i token _
    by_cases hactive : s.directoryRefreshActive.get? key = some token
    · exact concludeDirectoryRefresh_resting h hactive s.reads _ fun _ _ hmem _ => hmem
    · unfold concludeDirectoryRefresh
      rw [if_pos (by simpa using hactive)]
      exact h.with_holds _

theorem fireTimer_resting (h : Resting s) (key : EffectKey)
    (horder : ∀ token d o, s.timers.get? key = some (token, d) → s.atLimit = true →
      s.overflowDirectoryRefresh = some o → o.time < d.time) : Resting (s.fireTimer key) := by
  unfold fireTimer
  split
  · exact h
  · rename_i token d htimer
    obtain ⟨hkey, hjournal, hactive⟩ := h.tables.timersJournal key token d htimer
    subst hkey
    have htrailing := h.tables.trailing_none hactive
    have hunhold : ({ s with timers := s.timers.erase d.key } : BrowserEffects) =
        s.unhold d.key := by
      rw [unhold, InsertionMap.erase_of_get?_eq_none htrailing,
        InsertionMap.erase_of_get?_eq_none hactive]
    have hcovers : Covers [d] { s with timers := s.timers.erase d.key } := by
      intro i hi
      obtain ⟨c, hc, hck, hct⟩ := h.covers i hi
      refine ⟨c, ?_, hck, hct⟩
      rcases hc with (⟨k, t, hc⟩ | hc) | hc
      · by_cases hk : k = d.key
        · rw [hk, htimer] at hc
          cases hc
          exact Or.inr List.mem_cons_self
        · exact Or.inl (Or.inl ⟨k, t, (InsertionMap.get?_erase_of_ne _ hk).trans hc⟩)
      · exact Or.inl (Or.inr hc)
      · cases hc
    have htables : Tables (fun k => False ∨ k = d.key)
        { s with timers := s.timers.erase d.key } := by
      rw [hunhold]
      exact h.tables.unhold d.key
    obtain ⟨hserved, hslot, -⟩ := runDirectoryRefresh_served (r := redispatch) htables
      (h.ledger.congr ⟨rfl, rfl, rfl⟩ rfl) hcovers h.size id hjournal (fun heq => by cases heq)
      (h.tables.stamped d (Or.inl ⟨d.key, token, htimer⟩))
      (fun hlimit o ho => horder token d o htimer hlimit ho)
      (Or.inr ⟨admitsQuietly_redispatch, fun _ _ => ⟨id, fun heq => by cases heq⟩⟩)
    refine ⟨hserved.tables, hserved.ledger, hserved.covers, hserved.size, fun o ho => ?_⟩
    rcases hslot with hnone | ⟨hsame, hbelow⟩ | hfull
    · rw [hnone] at ho
      cases ho
    · have hlimit : s.atLimit = true := h.parked o (hsame.symm.trans ho)
      have hbelow' : s.atLimit = false := hbelow
      rw [hlimit] at hbelow'
      cases hbelow'
    · exact hfull

theorem Resting.declined (h : Resting s) (e : DirectoryRefresh) :
    Resting (({ s.record (.dispatched e) with dispatches := s.dispatches + 1 } :
      BrowserEffects).record (.declined e)) := by
  have howed : ∀ i ∈ owed (.declined e :: .dispatched e :: s.log), i ∈ owed s.log := by
    intro i hi
    obtain ⟨hi, hkeep⟩ := mem_owed_of_plain rfl hi
    rcases mem_owed_cons.mp hi with heq | ⟨hi, -⟩
    · cases heq
      simp [EffectEvent.discharges] at hkeep
    · exact hi
  exact
    { tables := { h.tables with stamped := fun c hc => Nat.le_succ_of_le (h.tables.stamped c hc) }
      ledger :=
        { handles := h.ledger.handles
          workspaces := h.ledger.workspaces
          owedCurrent := fun i hi => h.ledger.owedCurrent i (howed i hi)
          supersededLeft := h.ledger.supersededLeft
          readsStanding := h.ledger.readsStanding }
      covers := fun i hi => h.covers i (howed i hi)
      size := h.size
      parked := h.parked }

theorem dispatch_resting (h : Resting s) (effect : DirectoryRefresh) :
    Resting (s.dispatch effect) := by
  unfold dispatch
  simp only
  generalize hstamp : ({ effect with time := s.dispatches + 1 } : DirectoryRefresh) = e
  have htime : e.time = s.dispatches + 1 := by rw [← hstamp]
  generalize hcalled : ({ s.record (.dispatched e) with dispatches := s.dispatches + 1 } :
    BrowserEffects) = called
  have hdeclined : Resting (called.record (.declined e)) := hcalled ▸ h.declined e
  have hanswer : dispatchAt reentryDepth called e =
      dispatchWith (fun s e => (dispatchAt 1 s e).1) called e := rfl
  have htables : Tables (fun _ => False) called := by
    rw [← hcalled]
    exact { h.tables with stamped := fun c hc => Nat.le_succ_of_le (h.tables.stamped c hc) }
  have hstamped : e.time ≤ called.dispatches := hcalled ▸ Nat.le_of_eq htime
  have hnewest : ∀ c, called.Carrier c → c.time < e.time := by
    rw [← hcalled, htime]
    exact fun c hc => Nat.lt_succ_of_le (h.tables.stamped c hc)
  have hcovers : Covers [e] called := by
    rw [← hcalled]
    intro i hi
    rcases mem_owed_cons.mp hi with heq | ⟨hi, -⟩
    · cases heq
      exact ⟨e, Or.inr List.mem_cons_self, rfl, Nat.le_refl _⟩
    · obtain ⟨c, hc, hck, hct⟩ := h.covers i hi
      exact ⟨c, Or.inl (hc.resolve_right (by simp)), hck, hct⟩
  have hsize : called.journal.size ≤ SESSION_BROWSER_EFFECT_JOURNAL_LIMIT := hcalled ▸ h.size
  have hparked : ∀ o, called.overflowDirectoryRefresh = some o → called.atLimit = true := by
    rw [← hcalled]
    exact h.parked
  rw [hanswer]
  unfold dispatchWith
  split
  · simpa using hdeclined
  · rename_i hcurrent
    have hcur : called.isCurrent e.scope = true := by simpa using hcurrent
    have hledger : Ledger none called := by
      rw [← hcalled] at hcur ⊢
      refine
        { handles := h.ledger.handles
          workspaces := h.ledger.workspaces
          owedCurrent := fun i hi => ?_
          supersededLeft := h.ledger.supersededLeft
          readsStanding := h.ledger.readsStanding }
      rcases mem_owed_cons.mp hi with heq | ⟨hi, -⟩
      · cases heq
        exact hcur
      · exact h.ledger.owedCurrent i hi
    split
    · rename_i hjournaled
      split
      · simpa using hdeclined
      · -- the key is reading: the intent is its trailing one
        rename_i hscheduled
        simp only [if_true]
        obtain ⟨t, ht⟩ := Option.isSome_iff_exists.mp hjournaled
        have hactive : ∃ t, called.directoryRefreshActive.get? e.key = some t := by
          rcases htables.journalHeld e.key t ht with ⟨d, hd⟩ | ha | hl
          · rw [hd] at hscheduled
            exact absurd rfl hscheduled
          · exact ⟨t, ha⟩
          · exact hl.elim
        refine
          { tables := { htables with trailingActive := fun k d hk => ?_, stamped := ?_ }
            ledger := hledger.congr ⟨rfl, rfl, rfl⟩ rfl
            covers := ?_
            size := hsize
            parked := hparked }
        · simp only [InsertionMap.get?_insert] at hk
          split at hk
          · rename_i heq
            cases hk
            exact ⟨heq.symm, heq ▸ hactive⟩
          · exact htables.trailingActive k d hk
        · rintro c (hc | ⟨k, hc⟩ | hc)
          · exact htables.stamped c (Or.inl hc)
          · simp only [InsertionMap.get?_insert] at hc
            split at hc
            · cases hc
              exact hstamped
            · exact htables.stamped c (Or.inr (Or.inl ⟨k, hc⟩))
          · exact htables.stamped c (Or.inr (Or.inr hc))
        · intro i hi
          obtain ⟨c, hc, hck, hct⟩ := hcovers i hi
          by_cases hkey : c.key = e.key
          · refine ⟨e, Or.inl (Or.inr (Or.inl ⟨_, InsertionMap.get?_insert_self _ _ _⟩)),
              hkey ▸ hck, Nat.le_trans hct ?_⟩
            rcases hc with hc | hc
            · exact Nat.le_of_lt (hnewest c hc)
            · exact Nat.le_of_eq (congrArg DirectoryRefresh.time (List.mem_singleton.mp hc))
          · refine ⟨c, ?_, hck, hct⟩
            rcases hc with (hc | ⟨k, hc⟩ | hc) | hc
            · exact Or.inl (Or.inl hc)
            · have hne : k ≠ e.key := by
                rw [← (htables.trailingActive k c hc).1]
                exact hkey
              exact Or.inl (Or.inr (Or.inl ⟨k, (InsertionMap.get?_insert_of_ne _ hne _).trans hc⟩))
            · exact Or.inl (Or.inr (Or.inr hc))
            · exact absurd (congrArg DirectoryRefresh.key (List.mem_singleton.mp hc)) hkey
    · rename_i hunjournaled
      have hfresh : called.journal.get? e.key = none := by simpa using hunjournaled
      split
      · -- the limit is reached: the newest intent takes the slot
        rename_i hfull
        have hlimit : called.atLimit = true := by
          rw [Bool.and_eq_true] at hfull
          exact hfull.2
        simp only [if_true]
        refine ⟨htables.hold hfresh hstamped, hledger.hold,
          hcovers.hold fun o ho => hnewest o (Or.inr (Or.inr ho)), ?_, fun _ _ => ?_⟩
        · rw [journal_hold]
          exact hsize
        · rw [atLimit, active_hold]
          exact hlimit
      · rename_i hroom
        have hunread := htables.active_none hfresh
        have hlimit : called.atLimit = false := by simpa [hunread] using hroom
        have hempty : called.overflowDirectoryRefresh = none := by
          cases ho : called.overflowDirectoryRefresh with
          | none => rfl
          | some o =>
            rw [hparked o ho] at hlimit
            cases hlimit
        have hready : Ready (fun _ => False) none [] called e :=
          ⟨htables, hledger, hcovers, hsize, id, hfresh, (fun heq => by cases heq), hstamped⟩
        have hreplaced := replaceInGroup_served (r := fun s e => (dispatchAt 1 s e).1) hready
          hlimit (Or.inl hempty)
        obtain ⟨hserved, hslotted⟩ := admitted_served hreplaced.ready
          (by rw [hreplaced.scopes.isCurrent]; exact hcur) hreplaced.roomy
        obtain ⟨hempty', hfree, -⟩ := hreplaced.quiet hempty
        simp only [if_true]
        exact ⟨hserved.tables, hserved.ledger, hserved.covers, hserved.size, fun o ho => by
          rw [(hslotted.quiet hempty' hfree).1] at ho
          cases ho⟩

/-! ## A scope is left -/

/-- What holds while the state of a scope is cleared: nobody is owed a read for the scope, and
the overflow intent starts no read for a scope that is being left. -/
structure Clearing (leaving : Option EffectScope) (scope : EffectScope) (s₀ s : BrowserEffects) :
    Prop where
  served : Served (fun _ => False) leaving [] s₀ s
  unowed : ∀ i ∈ owed s.log, i.scope ≠ scope
  parked : ∀ o, s.overflowDirectoryRefresh = some o → s.atLimit = true
  delayed : ∀ o, s.overflowDirectoryRefresh = some o → leaving = some o.scope →
    o.delayMs ≠ none ∨ ∀ k t, s.directoryRefreshActive.get? k = some t → k.scope ≠ scope

variable {leaving : Option EffectScope} {scope : EffectScope} {s₀ : BrowserEffects}

theorem Clearing.unowed_key (h : Clearing leaving scope s₀ s)
    (hkey : key.scope = scope) : ∀ i ∈ owed s.log, i.key ≠ key := by
  intro i hi heq
  exact h.unowed i hi ((congrArg EffectKey.scope heq).trans hkey)

theorem Clearing.drop (h : Clearing leaving scope s₀ s) (hkey : key.scope = scope)
    (hquiet : s.overflowDirectoryRefresh = none ∨ (s.unhold key).atLimit = true) :
    Clearing leaving scope s₀ (s.drop key) where
  served := (served_drop h.served.tables h.served.ledger h.served.covers h.served.size
    (h.unowed_key hkey)).after h.served.scopes h.served.owes
  unowed := h.unowed
  parked := by
    intro o ho
    rcases hquiet with hnone | hlimit
    · have ho' : s.overflowDirectoryRefresh = some o := ho
      rw [hnone] at ho'
      cases ho'
    · exact hlimit
  delayed := by
    intro o ho hleaving
    refine (h.delayed o ho hleaving).imp id fun hnone k t hk => hnone k t ?_
    simp only [BrowserEffects.drop, InsertionMap.get?_erase] at hk
    split at hk
    · cases hk
    · exact hk

theorem Clearing.cancel (h : Clearing leaving scope s₀ s) (hkey : key.scope = scope) :
    Clearing leaving scope s₀ (cancelJournalEntry redispatch s key) := by
  by_cases hquiet : s.overflowDirectoryRefresh = none ∨ (s.unhold key).atLimit = true
  · rw [cancelJournalEntry_quiet hquiet]
    exact h.drop hkey hquiet
  · rw [not_or, Bool.not_eq_true] at hquiet
    obtain ⟨hsome, hlimit⟩ := hquiet
    obtain ⟨o, ho⟩ := Option.ne_none_iff_exists'.mp hsome
    -- the slot of the key is freed, so the key was reading
    have hactive : ∃ t, s.directoryRefreshActive.get? key = some t := by
      cases ha : s.directoryRefreshActive.get? key with
      | some t => exact ⟨t, rfl⟩
      | none =>
        have hfull := h.parked o ho
        simp only [atLimit, unhold, InsertionMap.erase_of_get?_eq_none ha] at hfull hlimit
        rw [hfull] at hlimit
        cases hlimit
    obtain ⟨t, ht⟩ := hactive
    have hnest : Nestable (fun k => False ∨ k = key) leaving s := by
      intro o' ho'
      refine ⟨?_, fun hleaving => ?_⟩
      · rintro (hl | heq)
        · exact hl
        · have hfresh := h.served.tables.overflowFresh o' ho'
          rw [heq, h.served.tables.activeJournal key t ht] at hfresh
          cases hfresh
      · rcases h.delayed o' ho' hleaving with hdelay | hnone
        · exact hdelay
        · exact absurd hkey (hnone key t ht)
    obtain ⟨hserved, hempty, -⟩ := cancelJournalEntry_nested admitsQuietly_redispatch hnest
      h.served.tables h.served.ledger h.served.covers h.served.size (h.unowed_key hkey) ho hlimit
    exact
      { served := hserved.after h.served.scopes h.served.owes
        unowed := fun i hi => h.unowed i (hserved.owes i hi)
        parked := fun o ho => by rw [hempty] at ho; cases ho
        delayed := fun o ho => by rw [hempty] at ho; cases ho }

theorem Clearing.cancel_all (keys : List EffectKey) (h : Clearing leaving scope s₀ s)
    (hkeys : ∀ k ∈ keys, k.scope = scope) :
    Clearing leaving scope s₀ (keys.foldl (cancelJournalEntry redispatch) s) := by
  induction keys generalizing s with
  | nil => exact h
  | cons key rest ih =>
    exact ih (h.cancel (hkeys key List.mem_cons_self)) fun k hk =>
      hkeys k (List.mem_cons_of_mem _ hk)

theorem Clearing.cancel_timers (entries : List (EffectKey × (Nat × DirectoryRefresh)))
    (h : Clearing leaving scope s₀ s) (hkeys : ∀ entry ∈ entries, entry.1.scope = scope)
    (htimers : ∀ entry ∈ entries, s.timers.get? entry.1 = some entry.2)
    (hnodup : (entries.map Prod.fst).Nodup) :
    Clearing leaving scope s₀ (entries.foldl (fun s entry =>
      ({ s with timers := s.timers.erase entry.1 }).removeJournalEntry entry.1 (some entry.2.1))
        s) := by
  induction entries generalizing s with
  | nil => exact h
  | cons entry rest ih =>
    obtain ⟨key, token, d⟩ := entry
    have htimer : s.timers.get? key = some (token, d) := htimers _ List.mem_cons_self
    obtain ⟨-, hjournal, hactive⟩ := h.served.tables.timersJournal key token d htimer
    have htrailing := h.served.tables.trailing_none hactive
    have hstep : ({ s with timers := s.timers.erase key } : BrowserEffects).removeJournalEntry key
        (some token) = s.drop key := by
      rw [removeJournalEntry_token (by exact hjournal), removeJournalEntry_none]
      simp only [BrowserEffects.drop, InsertionMap.erase_of_get?_eq_none htrailing,
        InsertionMap.erase_of_get?_eq_none hactive]
    have hquiet : s.overflowDirectoryRefresh = none ∨ (s.unhold key).atLimit = true := by
      cases ho : s.overflowDirectoryRefresh with
      | none => exact Or.inl rfl
      | some o =>
        have hfull := h.parked o ho
        refine Or.inr ?_
        simp only [atLimit, unhold, InsertionMap.erase_of_get?_eq_none hactive] at hfull ⊢
        exact hfull
    rw [List.map_cons, List.nodup_cons] at hnodup
    rw [List.foldl_cons, hstep]
    refine ih (h.drop (hkeys _ List.mem_cons_self) hquiet)
      (fun entry hmem => hkeys entry (List.mem_cons_of_mem _ hmem)) (fun entry hmem => ?_) hnodup.2
    have hne : entry.1 ≠ key := fun heq => 
      hnodup.1 (List.mem_map.mpr ⟨entry, hmem, heq⟩)
    exact (InsertionMap.get?_erase_of_ne _ hne).trans (htimers entry (List.mem_cons_of_mem _ hmem))

theorem clearScopeState_served (h : Clearing leaving scope s s) :
    Clearing leaving scope s (clearScopeState redispatch s scope) := by
  unfold clearScopeState
  simp only
  have huntrailed : Clearing leaving scope s { s with
      trailingDirectoryRefresh := s.trailingDirectoryRefresh.filterKeys fun key =>
        key.scope != scope } := by
    have hget : ∀ k d, (s.trailingDirectoryRefresh.filterKeys fun key =>
        key.scope != scope).get? k = some d → s.trailingDirectoryRefresh.get? k = some d := by
      intro k d hk
      rw [InsertionMap.get?_filterKeys] at hk
      split at hk
      · exact hk
      · cases hk
    have htables := h.served.tables
    refine
      { served :=
          { tables := { htables with
              trailingActive := fun k d hk => htables.trailingActive k d (hget k d hk)
              stamped := ?_ }
            ledger := h.served.ledger.congr ⟨rfl, rfl, rfl⟩ rfl
            covers := ?_
            size := h.served.size
            scopes := ⟨rfl, rfl, rfl⟩
            owes := fun _ hi => hi }
        unowed := h.unowed
        parked := h.parked
        delayed := h.delayed }
    · rintro c (hc | ⟨k, hc⟩ | hc)
      · exact htables.stamped c (Or.inl hc)
      · exact htables.stamped c (Or.inr (Or.inl ⟨k, hget k c hc⟩))
      · exact htables.stamped c (Or.inr (Or.inr hc))
    · intro i hi
      obtain ⟨c, hc, hck, hct⟩ := h.served.covers i hi
      refine ⟨c, ?_, hck, hct⟩
      rcases hc with (hc | ⟨k, hc⟩ | hc) | hc
      · exact Or.inl (Or.inl hc)
      · have hscope : (k.scope != scope) = true := by
          rw [bne_iff_ne, ← (htables.trailingActive k c hc).1, hck]
          exact h.unowed i hi
        exact Or.inl (Or.inr (Or.inl ⟨k, by
          rw [InsertionMap.get?_filterKeys, if_pos hscope]; exact hc⟩))
      · exact Or.inl (Or.inr (Or.inr hc))
      · cases hc
  have hcancelled := huntrailed.cancel_all
    (s.journal.keys.filter fun key => key.scope == scope) fun k hk => by
      simpa using (List.mem_filter.mp hk).2
  have hcleared := hcancelled.cancel_timers (List.filter (fun entry => entry.1.scope == scope) _)
    (fun entry hmem => by simpa using (List.mem_filter.mp hmem).2)
    (fun entry hmem => InsertionMap.get?_of_mem (List.mem_filter.mp hmem).1)
    ((InsertionMap.nodup _).sublist (List.filter_sublist.map _))
  exact
    { served :=
        { tables := { hcleared.served.tables with }
          ledger := hcleared.served.ledger.congr ⟨rfl, rfl, rfl⟩ rfl
          covers := fun i hi => hcleared.served.covers i hi
          size := hcleared.served.size
          scopes := ⟨hcleared.served.scopes.1, hcleared.served.scopes.2, hcleared.served.scopes.3⟩
          owes := hcleared.served.owes }
      unowed := hcleared.unowed
      parked := hcleared.parked
      delayed := hcleared.delayed }

theorem owed_superseded {i : DirectoryRefresh}
    (hi : i ∈ owed (s.record (.superseded scope)).log) : i ∈ owed s.log ∧ i.scope ≠ scope := by
  rcases mem_owed_cons.mp hi with heq | ⟨hi, hkeep⟩
  · cases heq
  · exact ⟨hi, fun heq => by simp [EffectEvent.discharges, heq] at hkeep⟩

theorem Resting.leave (h : Resting s) (scope : EffectScope) :
    Ledger (some scope) (s.record (.superseded scope)) where
  handles := h.ledger.handles
  workspaces := h.ledger.workspaces
  owedCurrent := fun i hi => h.ledger.owedCurrent i (owed_superseded hi).1
  supersededLeft := by
    intro scope' hsup hcur
    simp only [record, isSuperseded, Bool.or_eq_true, decide_eq_true_eq] at hsup
    rcases hsup with rfl | hsup
    · rfl
    · cases h.ledger.supersededLeft scope' hsup hcur
  readsStanding := h.ledger.readsStanding

theorem Resting.clearing (h : Resting s) (leaving : Option EffectScope) {s₁ : BrowserEffects}
    (hledger : Ledger leaving s₁) (hs₁ : s₁ = { s.record (.superseded scope) with
      currentByHandle := s₁.currentByHandle, currentByWorkspace := s₁.currentByWorkspace })
    (hdelayed : ∀ o, s.overflowDirectoryRefresh = some o → leaving = some o.scope →
      o.delayMs ≠ none ∨ ∀ k t, s.directoryRefreshActive.get? k = some t → k.scope ≠ scope) :
    Clearing leaving scope s₁ s₁ := by
  have hlog : s₁.log = (s.record (.superseded scope)).log := by rw [hs₁]
  have htables : Tables (fun _ => False) s₁ := by
    rw [hs₁]
    exact { h.tables with }
  have hcovers : Covers [] s₁ := by
    rw [hs₁]
    exact fun i (hi : i ∈ owed (s.record (.superseded scope)).log) =>
      h.covers i (owed_superseded hi).1
  have hunowed : ∀ i ∈ owed s₁.log, i.scope ≠ scope := by
    rw [hlog]
    exact fun i hi => (owed_superseded hi).2
  have hsize : s₁.journal.size ≤ SESSION_BROWSER_EFFECT_JOURNAL_LIMIT := by
    rw [hs₁]
    exact h.size
  refine ⟨⟨htables, hledger, hcovers, hsize, ⟨rfl, rfl, rfl⟩, fun _ hi => hi⟩, hunowed, ?_, ?_⟩
  · rw [hs₁]
    exact h.parked
  · rw [hs₁]
    exact hdelayed

theorem isCurrent_session {identity : SessionBrowserIdentity} :
    s.isCurrent (.session identity) = true ↔
      s.currentByHandle.get? identity.sessionHandle = some identity := by
  simp [isCurrent]

theorem isCurrent_workspace {identity : WorkspaceBrowserIdentity} :
    s.isCurrent (.workspace identity) = true ↔
      s.currentByWorkspace.get? identity.workspaceId = some identity := by
  simp [isCurrent]

theorem makeCurrent_resting {next : SessionBrowserIdentity} (htables : Tables (fun _ => False) s)
    (hledger : Ledger leaving s) (hcovers : Covers [] s)
    (hsize : s.journal.size ≤ SESSION_BROWSER_EFFECT_JOURNAL_LIMIT)
    (hparked : ∀ o, s.overflowDirectoryRefresh = some o → s.atLimit = true)
    (howed : ∀ i ∈ owed s.log, ∀ identity, i.scope = .session identity →
      identity.sessionHandle = next.sessionHandle → identity = next)
    (hleaving : ∀ scope, leaving = some scope → ∃ identity, scope = .session identity ∧
      identity.sessionHandle = next.sessionHandle) :
    Resting { s.record (.current (.session next)) with
      currentByHandle := s.currentByHandle.insert next.sessionHandle next } := by
  have howed' : ∀ i ∈ owed (s.record (.current (.session next))).log, i ∈ owed s.log := by
    intro i hi
    rcases mem_owed_cons.mp hi with heq | ⟨hi, -⟩
    · cases heq
    · exact hi
  refine
    { tables := { htables with }
      ledger :=
        { handles := ?_
          workspaces := hledger.workspaces
          owedCurrent := ?_
          supersededLeft := ?_
          readsStanding := hledger.readsStanding }
      covers := fun i hi => hcovers i (howed' i hi)
      size := hsize
      parked := hparked }
  · intro h i hi
    simp only [InsertionMap.get?_insert] at hi
    split at hi
    · rename_i heq
      cases hi
      exact heq.symm
    · exact hledger.handles h i hi
  · intro i hi
    have hcur := hledger.owedCurrent i (howed' i hi)
    have hsame := howed i (howed' i hi)
    cases hscope : i.scope with
    | workspace identity =>
      rw [hscope] at hcur
      exact hcur
    | session identity =>
      rw [hscope, isCurrent_session] at hcur
      rw [isCurrent_session]
      simp only [InsertionMap.get?_insert]
      split
      · rename_i heq
        rw [hsame identity hscope heq]
      · exact hcur
  · intro scope hsup hcur
    simp only [record, isSuperseded, Bool.and_eq_true, decide_eq_true_eq] at hsup
    obtain ⟨hne, hsup⟩ := hsup
    cases scope with
    | workspace identity =>
      obtain ⟨identity', heq, -⟩ := hleaving _ (hledger.supersededLeft _ hsup hcur)
      cases heq
    | session identity =>
      rw [isCurrent_session] at hcur
      simp only [InsertionMap.get?_insert] at hcur
      split at hcur
      · cases hcur
        exact absurd rfl hne
      · rename_i hother
        obtain ⟨identity', heq, hhandle⟩ := hleaving _
          (hledger.supersededLeft _ hsup (isCurrent_session.mpr hcur))
        cases heq
        exact absurd hhandle hother

/-- A current Session identity is set, unless that would start a read for the identity it
supersedes. -/
theorem setCurrentIdentity_resting (h : Resting s) (next : SessionBrowserIdentity)
    (horder : (s.currentByHandle.get? next.sessionHandle).any (isOlder next) = false →
      ∀ previous o, s.supersededBy next = some previous →
        s.overflowDirectoryRefresh = some o → o.scope = .session previous → o.delayMs = none →
        ∀ k t, s.directoryRefreshActive.get? k = some t → k.scope ≠ .session previous) :
    Resting (s.setCurrentIdentity next) := by
  unfold setCurrentIdentity
  split
  · exact h
  · rename_i holder
    simp only
    cases hprevious : s.supersededBy next with
    | none =>
      refine makeCurrent_resting h.tables h.ledger h.covers h.size h.parked ?_
        (fun scope heq => by cases heq)
      intro i hi identity hscope hhandle
      have hcur := h.ledger.owedCurrent i hi
      rw [hscope, isCurrent_session, hhandle] at hcur
      by_contra hne
      have hsome : s.supersededBy next = some identity := by
        rw [supersededBy, Option.filter_eq_some_iff]
        exact ⟨hcur, bne_iff_ne.mpr hne⟩
      rw [hprevious] at hsome
      cases hsome
    | some previous =>
      obtain ⟨hget, hne⟩ := Option.filter_eq_some_iff.mp hprevious
      have hhandle := h.ledger.handles _ _ hget
      have hclearing : Clearing (some (.session previous)) (.session previous)
          (s.record (.superseded (.session previous)))
          (s.record (.superseded (.session previous))) := by
        refine h.clearing _ (h.leave _) rfl fun o ho heq => ?_
        rw [Option.some.injEq] at heq
        by_cases hdelay : o.delayMs = none
        · exact Or.inr (horder (by simpa using holder) previous o hprevious ho heq.symm hdelay)
        · exact Or.inl hdelay
      have hcleared := clearScopeState_served hclearing
      refine makeCurrent_resting hcleared.served.tables hcleared.served.ledger
        hcleared.served.covers hcleared.served.size hcleared.parked ?_ ?_
      · intro i hi identity hscope hidentity
        have hcur := hcleared.served.ledger.owedCurrent i hi
        rw [hcleared.served.scopes.isCurrent, hscope, isCurrent_session, hidentity] at hcur
        have hsame : identity = previous := Option.some.inj (hcur.symm.trans hget)
        exact absurd (hscope.trans (congrArg EffectScope.session hsame)) (hcleared.unowed i hi)
      · intro scope heq
        cases heq
        exact ⟨previous, rfl, hhandle⟩

theorem Clearing.resting (h : Clearing none scope s₀ s) : Resting s :=
  ⟨h.served.tables, h.served.ledger, h.served.covers, h.served.size, h.parked⟩

theorem invalidateIdentity_resting (h : Resting s) (identity : SessionBrowserIdentity) :
    Resting (s.invalidateIdentity identity) := by
  have hleft := h.leave (.session identity)
  unfold invalidateIdentity clearIdentityState
  simp only
  split
  · rename_i hcurrent
    refine (clearScopeState_served (h.clearing none ?_ rfl
      fun o _ heq => by cases heq)).resting
    refine
      { handles := ?_
        workspaces := hleft.workspaces
        owedCurrent := ?_
        supersededLeft := ?_
        readsStanding := hleft.readsStanding }
    · intro handle i hi
      simp only [InsertionMap.get?_erase] at hi
      split at hi
      · cases hi
      · exact hleft.handles handle i hi
    · intro i hi
      have hcur := hleft.owedCurrent i hi
      have hne := (owed_superseded hi).2
      cases hscope : i.scope with
      | workspace other =>
        rw [hscope] at hcur
        exact hcur
      | session other =>
        rw [hscope, isCurrent_session] at hcur
        rw [isCurrent_session]
        simp only [InsertionMap.get?_erase]
        split
        · rename_i heq
          rw [heq, hcurrent] at hcur
          exact absurd (hscope.trans (congrArg EffectScope.session (Option.some.inj hcur).symm)) hne
        · exact hcur
    · intro scope hsup hcur
      have hold : (s.record (.superseded (.session identity))).isCurrent scope = true := by
        cases scope with
        | workspace other => exact hcur
        | session other =>
          rw [isCurrent_session] at hcur ⊢
          simp only [InsertionMap.get?_erase] at hcur
          split at hcur
          · cases hcur
          · exact hcur
      have heq := hleft.supersededLeft scope hsup hold
      cases heq
      rw [isCurrent_session] at hcur
      simp at hcur
  · rename_i hcurrent
    refine (clearScopeState_served (h.clearing none ?_ rfl
      fun o _ heq => by cases heq)).resting
    refine { hleft with supersededLeft := fun scope hsup hcur => ?_ }
    have heq := hleft.supersededLeft scope hsup hcur
    cases heq
    exact absurd (isCurrent_session.mp hcur) hcurrent

theorem setCurrentWorkspaceIdentity_resting (h : Resting s) (next : WorkspaceBrowserIdentity) :
    Resting (s.setCurrentWorkspaceIdentity next) := by
  have hsame : s.setCurrentWorkspaceIdentity next =
      { s.record (.current (.workspace next)) with
        currentByWorkspace := s.currentByWorkspace.insert next.workspaceId next } := by
    unfold setCurrentWorkspaceIdentity
    cases hget : s.currentByWorkspace.get? next.workspaceId with
    | none => rfl
    | some previous =>
      have hid := h.ledger.workspaces _ _ hget
      simp only [hid, ne_eq, not_true_eq_false, if_false]
  have howed : ∀ i ∈ owed (s.record (.current (.workspace next))).log, i ∈ owed s.log := by
    intro i hi
    rcases mem_owed_cons.mp hi with heq | ⟨hi, -⟩
    · cases heq
    · exact hi
  rw [hsame]
  refine
    { tables := { h.tables with }
      ledger :=
        { handles := h.ledger.handles
          workspaces := ?_
          owedCurrent := ?_
          supersededLeft := ?_
          readsStanding := h.ledger.readsStanding }
      covers := fun i hi => h.covers i (howed i hi)
      size := h.size
      parked := h.parked }
  · intro w i hi
    simp only [InsertionMap.get?_insert] at hi
    split at hi
    · rename_i heq
      cases hi
      exact heq.symm
    · exact h.ledger.workspaces w i hi
  · intro i hi
    have hcur := h.ledger.owedCurrent i (howed i hi)
    cases hscope : i.scope with
    | session identity =>
      rw [hscope] at hcur
      exact hcur
    | workspace identity =>
      rw [hscope, isCurrent_workspace] at hcur
      rw [isCurrent_workspace]
      simp only [InsertionMap.get?_insert]
      split
      · rename_i heq
        obtain ⟨workspaceId⟩ := identity
        obtain ⟨nextId⟩ := next
        simp only at heq
        rw [heq]
      · exact hcur
  · intro scope hsup hcur
    simp only [record, isSuperseded, Bool.and_eq_true, decide_eq_true_eq] at hsup
    obtain ⟨hne, hsup⟩ := hsup
    refine h.ledger.supersededLeft scope hsup ?_
    cases scope with
    | session identity => exact hcur
    | workspace identity =>
      rw [isCurrent_workspace] at hcur ⊢
      simp only [InsertionMap.get?_insert] at hcur
      split at hcur
      · cases hcur
        exact absurd rfl hne
      · exact hcur

theorem invalidateWorkspaceIdentity_resting (h : Resting s) (identity : WorkspaceBrowserIdentity) :
    Resting (s.invalidateWorkspaceIdentity identity) := by
  have hleft := h.leave (.workspace identity)
  unfold invalidateWorkspaceIdentity clearWorkspaceState
  refine (clearScopeState_served (h.clearing none ?_ rfl
    fun o _ heq => by cases heq)).resting
  refine
    { handles := hleft.handles
      workspaces := ?_
      owedCurrent := ?_
      supersededLeft := ?_
      readsStanding := hleft.readsStanding }
  · intro w i hi
    simp only [InsertionMap.get?_erase] at hi
    split at hi
    · cases hi
    · exact hleft.workspaces w i hi
  · intro i hi
    have hcur := hleft.owedCurrent i hi
    have hne := (owed_superseded hi).2
    cases hscope : i.scope with
    | session other =>
      rw [hscope] at hcur
      exact hcur
    | workspace other =>
      rw [hscope, isCurrent_workspace] at hcur
      rw [isCurrent_workspace]
      simp only [InsertionMap.get?_erase]
      split
      · rename_i heq
        obtain ⟨workspaceId⟩ := other
        obtain ⟨identityId⟩ := identity
        simp only at heq
        rw [heq] at hscope
        exact absurd hscope hne
      · exact hcur
  · intro scope hsup hcur
    have hold : (s.record (.superseded (.workspace identity))).isCurrent scope = true := by
      cases scope with
      | session other => exact hcur
      | workspace other =>
        rw [isCurrent_workspace] at hcur ⊢
        simp only [InsertionMap.get?_erase] at hcur
        split at hcur
        · cases hcur
        · exact hcur
    have heq := hleft.supersededLeft scope hsup hold
    cases heq
    rw [isCurrent_workspace] at hcur
    simp at hcur

end Steps

/-! ## Runs -/

/-- A delay timer fires at the limit while the slot holds an intent dispatched later. -/
def overtakes (s : BrowserEffects) (key : EffectKey) : Bool :=
  match s.timers.get? key, s.overflowDirectoryRefresh with
  | some (_, delayed), some overflow => s.atLimit && decide (delayed.time ≤ overflow.time)
  | _, _ => false

/-- An identity with a reading pair is superseded while the slot holds an undelayed intent of
the same identity. -/
def readsForLeaving (s : BrowserEffects) (next : SessionBrowserIdentity) : Bool :=
  match s.supersededBy next, s.overflowDirectoryRefresh with
  | some previous, some overflow =>
    !(s.currentByHandle.get? next.sessionHandle).any (isOlder next) &&
      decide (overflow.scope = .session previous) && overflow.delayMs.isNone &&
      s.directoryRefreshActive.keys.any fun key => key.scope == .session previous
  | _, _ => false

/-- The step is not one of the two that lose an intent or read for a superseded identity. -/
def Orderly (s : BrowserEffects) : EffectsAction → Prop
  | .fireTimer key => s.overtakes key = false
  | .setCurrentIdentity next => s.readsForLeaving next = false
  | _ => True

instance (s : BrowserEffects) (a : EffectsAction) : Decidable (s.Orderly a) := by
  cases a <;> unfold Orderly <;> infer_instance

theorem step_resting (s : BrowserEffects) (a : EffectsAction) (horderly : s.Orderly a)
    (h : Resting s) : Resting (s.step a) := by
  cases a with
  | dispatch effect => exact dispatch_resting h effect
  | fireTimer key =>
    refine fireTimer_resting h key fun token d o htimer hlimit ho => ?_
    simpa [Orderly, overtakes, htimer, ho, hlimit] using horderly
  | settleRead key token => exact settleRead_resting h key token
  | expireHold key => exact expireHold_resting h key
  | setCurrentIdentity next =>
    refine setCurrentIdentity_resting h next fun holder previous o hprevious ho hscope hdelay => ?_
    intro k t hk heq
    have hmem : k ∈ s.directoryRefreshActive.keys := InsertionMap.mem_keys_iff.mpr ⟨t, hk⟩
    simp only [Orderly, readsForLeaving, hprevious, ho, holder, hscope, hdelay, decide_true,
      Option.isNone_none, Bool.not_false, Bool.true_and, List.any_eq_false, beq_iff_eq]
      at horderly
    exact horderly k hmem heq
  | invalidateIdentity identity => exact invalidateIdentity_resting h identity
  | setCurrentWorkspaceIdentity next => exact setCurrentWorkspaceIdentity_resting h next
  | invalidateWorkspaceIdentity identity => exact invalidateWorkspaceIdentity_resting h identity

/-- No delay timer, hold or read is outstanding. -/
def quiescent (s : BrowserEffects) : Prop :=
  s.timers = .empty ∧ s.directoryRefreshHoldTimers = .empty ∧ s.reads = []

theorem Resting.owed_nil {s : BrowserEffects} (h : Resting s) (hquiet : s.quiescent) :
    owed s.log = [] := by
  obtain ⟨htimers, -, hreads⟩ := hquiet
  have hactive : ∀ k, s.directoryRefreshActive.get? k = none := by
    intro k
    cases hk : s.directoryRefreshActive.get? k with
    | none => rfl
    | some t =>
      have hmem := h.tables.activeReads k t hk
      rw [hreads] at hmem
      cases hmem
  have hsize : s.directoryRefreshActive.size = 0 := by
    rw [← InsertionMap.length_keys, List.length_eq_zero_iff, List.eq_nil_iff_forall_not_mem]
    intro k hk
    obtain ⟨t, ht⟩ := InsertionMap.mem_keys_iff.mp hk
    rw [hactive k] at ht
    cases ht
  rw [List.eq_nil_iff_forall_not_mem]
  intro i hi
  obtain ⟨c, (⟨k, t, hc⟩ | ⟨k, hc⟩ | hc) | hc, -, -⟩ := h.covers i hi
  · rw [htimers] at hc
    cases hc
  · obtain ⟨-, t, ht⟩ := h.tables.trailingActive k c hc
    rw [hactive k] at ht
    cases ht
  · have hfull := h.parked c hc
    rw [atLimit, hsize] at hfull
    cases hfull
  · cases hc

/-- In every run of orderly steps no loop or recursion of the coordinator is cut off; no read
starts for a superseded scope; and once nothing is outstanding, every intent of the log was
declined, read for, evicted, superseded or displaced by a later one after its dispatch. -/
theorem directory_refresh_loses_no_intent (actions : List EffectsAction)
    (horderly : RunMeets step Orderly initial actions) :
    (runFrom step initial actions).overrun = false ∧
      (∀ after before key,
        (runFrom step initial actions).log = after ++ .readStarted key :: before →
          isSuperseded before key.scope = false) ∧
      ((runFrom step initial actions).quiescent → ∀ after before effect,
        (runFrom step initial actions).log = after ++ .dispatched effect :: before →
          ∃ event ∈ after, event.discharges effect = true) := by
  have hresting := RunMeets.invariant (I := Resting) (fun s a hc hs => step_resting s a hc hs)
    horderly resting_initial
  refine ⟨hresting.tables.inBounds, fun after before key hlog => ?_,
    fun hquiet after before effect hlog => ?_⟩
  · have hreads := hresting.ledger.readsStanding
    rw [hlog] at hreads
    exact hreads.at_read
  · by_contra hnone
    have howed : effect ∈ owed (after ++ .dispatched effect :: before) :=
      mem_owed_of_not_discharged fun event hmem => by
        cases hdischarged : event.discharges effect with
        | false => rfl
        | true => exact absurd ⟨event, hmem, hdischarged⟩ hnone
    rw [← hlog, hresting.owed_nil hquiet] at howed
    cases howed

/-! ### The two disorderly steps -/

/-- A refresh of the Session identity of the examples. -/
private def sessionRefresh (generation : Nat) (dedupeKey : String) (delayMs : Option Nat) :
    DirectoryRefresh :=
  { scope := .session ⟨"epoch", "workspace", "session", generation⟩
    dedupeKey := dedupeKey
    dedupeGroup := none
    workspaceHandle := "workspace"
    force := false
    delayMs := delayMs
    settlesAtOnce := false
    time := 0 }

private def readingKeys : List String := ["a", "b", "c", "d", "e", "f", "g", "h"]

/-- The limit is reached by eight reads, and a ninth intent waits in the slot. -/
def fillingRun : List EffectsAction :=
  readingKeys.map (fun key => .dispatch (sessionRefresh 1 key none)) ++
    [.dispatch (sessionRefresh 1 "parked" none)]

/-- A refresh is delayed, the limit is reached, a later intent is parked, and the timer fires;
then everything settles. -/
def overtakingRun : List EffectsAction :=
  [.setCurrentIdentity ⟨"epoch", "workspace", "session", 1⟩,
    .dispatch (sessionRefresh 1 "delayed" (some 100))] ++ fillingRun ++
    [.fireTimer (sessionRefresh 1 "delayed" none).key] ++
    readingKeys.mapIdx (fun i key => .settleRead (sessionRefresh 1 key none).key (i + 2)) ++
    [.fireTimer (sessionRefresh 1 "delayed" none).key,
      .settleRead (sessionRefresh 1 "delayed" none).key 10]

/-- An identity is superseded while its pairs read and one of its intents is parked. -/
def leavingRun : List EffectsAction :=
  [.setCurrentIdentity ⟨"epoch", "workspace", "session", 1⟩] ++ fillingRun ++
    [.setCurrentIdentity ⟨"epoch", "workspace", "session", 2⟩]

instance (s : BrowserEffects) : Decidable s.quiescent :=
  inferInstanceAs (Decidable (_ ∧ _ ∧ _))

/-- The parked intent of the first run is never read although it is the newest of all, and the
second run starts a read for the superseded identity. -/
theorem disorderly_runs_lose_and_read :
    ((runFrom step initial overtakingRun).quiescent ∧
      ∃ after before effect,
        (runFrom step initial overtakingRun).log = after ++ .dispatched effect :: before ∧
          ∀ event ∈ after, event.discharges effect = false) ∧
    ∃ after before key,
      (runFrom step initial leavingRun).log = after ++ .readStarted key :: before ∧
        isSuperseded before key.scope = true := by
  refine ⟨⟨by decide +kernel, (runFrom step initial overtakingRun).log.take 2,
    (runFrom step initial overtakingRun).log.drop 3,
    { sessionRefresh 1 "parked" none with time := 10 }, by decide +kernel, by decide +kernel⟩, ?_⟩
  exact ⟨(runFrom step initial leavingRun).log.take 1,
    (runFrom step initial leavingRun).log.drop 2, (sessionRefresh 1 "parked" none).key,
    by decide +kernel, by decide +kernel⟩

/-- An intent is parked, and every read settles, that of the parked intent last. -/
def settlingRun : List EffectsAction :=
  [.setCurrentIdentity ⟨"epoch", "workspace", "session", 1⟩] ++ fillingRun ++
    readingKeys.mapIdx (fun i key => .settleRead (sessionRefresh 1 key none).key (i + 1)) ++
    [.settleRead (sessionRefresh 1 "parked" none).key 9]

/-- The run is orderly and comes to rest with every intent read for. -/
theorem directory_refresh_loses_no_intent_settled :
    (runFrom step initial settlingRun).quiescent ∧
      ∀ after before effect,
        (runFrom step initial settlingRun).log = after ++ .dispatched effect :: before →
          ∃ event ∈ after, event.discharges effect = true :=
  ⟨by decide +kernel, (directory_refresh_loses_no_intent settlingRun (by decide +kernel)).2.2
    (by decide +kernel)⟩

end BrowserEffects

end PiAgentWeb
