import PiAgentWeb.Server.CatalogRefreshes

/-!
# Runs of catalog refreshes

The refresh promise is the only refresh that has not settled, so discoveries never overlap. At most
one drain has not settled, and while it lasts nobody else starts a refresh. A drain returns when
its last discovery covers every request it has seen, so a forced request is answered by a newer
discovery unless it joins a drain that has already returned.
-/

namespace PiAgentWeb

/-- The `finally` callback of the refresh has not run. -/
def RefreshStage.Unsettled : RefreshStage → Prop
  | .settled _ => False
  | _ => True

namespace CatalogRefreshes

variable {s : CatalogRefreshes}

/-- The refresh is the current one, or it has settled and there is no other. -/
def Awaited (s : CatalogRefreshes) (refresh : ℕ) : Prop :=
  s.refreshPromise = some refresh ∨
    s.refreshPromise = none ∧ ∃ fulfilled, s.refreshes[refresh]? = some (.settled fulfilled)

/-- What holds of the drain whose promise is set. -/
def Live (s : CatalogRefreshes) : DrainStage → Prop
  | .active _ refresh =>
    s.forcedRefreshCompleted < s.forcedRefreshRequested ∧ s.Awaited refresh
  | .own _ refresh coveredRequest =>
    s.forcedRefreshCompleted < coveredRequest ∧ coveredRequest ≤ s.forcedRefreshRequested ∧
      s.Awaited refresh
  | .returned fulfilled discovery =>
    s.refreshPromise = none ∧ s.refreshes[discovery]? = some (.settled fulfilled)
  | .settled _ _ => False

/-- The drain has settled, with the outcome of a discovery that has ended. -/
def Past (s : CatalogRefreshes) : DrainStage → Prop
  | .settled fulfilled discovery => s.refreshes[discovery]? = some (.settled fulfilled)
  | _ => False

/-- A drain of its own refresh covers the requests that came before that refresh. -/
def Covers (refresh coveredRequest : ℕ) (call : ForcedCall) : Prop :=
  call.request ≤ coveredRequest → call.earlier ≤ refresh

/-- The invariant of every run. -/
structure Sound (s : CatalogRefreshes) : Prop where
  current : ∀ refresh, s.refreshPromise = some refresh →
    ∃ stage, s.refreshes[refresh]? = some stage ∧ stage.Unsettled
  unsettled : ∀ refresh stage, s.refreshes[refresh]? = some stage → stage.Unsettled →
    s.refreshPromise = some refresh
  counters : s.forcedRefreshCompleted ≤ s.forcedRefreshRequested
  forced : ∀ drain, s.forcedRefreshPromise = some drain → drain < s.drains.length
  drains : ∀ drain stage, s.drains[drain]? = some stage →
    s.forcedRefreshPromise = some drain ∧ s.Live stage ∨
      s.forcedRefreshPromise ≠ some drain ∧ s.Past stage
  calls : ∀ call ∈ s.calls, call.drain < s.drains.length ∧
    call.request ≤ s.forcedRefreshRequested ∧ call.earlier ≤ s.refreshes.length
  covered : ∀ call ∈ s.calls, ∀ latest refresh coveredRequest,
    s.drains[call.drain]? = some (.own latest refresh coveredRequest) →
      Covers refresh coveredRequest call

theorem sound_initial : Sound initial := by
  refine ⟨nofun, ?_, Nat.le_refl _, nofun, ?_, nofun, nofun⟩
  · intro refresh stage h
    cases h
  · intro drain stage h
    cases h

variable {drain : ℕ}

theorem Sound.live (h : Sound s) {stage : DrainStage}
    (hstage : s.drains[drain]? = some stage) (hnot : ¬ s.Past stage) :
    s.forcedRefreshPromise = some drain ∧ s.Live stage := by
  rcases h.drains drain stage hstage with hlive | ⟨-, hpast⟩
  · exact hlive
  · exact absurd hpast hnot

variable {fulfilled : Bool}

theorem Sound.awaited_settled (h : Sound s) {refresh : ℕ} (hawaited : s.Awaited refresh)
    (hsettled : s.refreshes[refresh]? = some (.settled fulfilled)) :
    s.refreshPromise = none := by
  rcases hawaited with hcurrent | ⟨hnone, -⟩
  · obtain ⟨stage, hstage, hunsettled⟩ := h.current refresh hcurrent
    rw [hsettled] at hstage
    cases hstage
    exact hunsettled.elim
  · exact hnone

/-! ## Refreshes -/

theorem getElem?_setRefresh {refresh other : ℕ} {stage next : RefreshStage}
    (hstage : s.refreshes[refresh]? = some stage) :
    (s.setRefresh refresh next).refreshes[other]? =
      if other = refresh then some next else s.refreshes[other]? := by
  have hlt : refresh < s.refreshes.length := (List.getElem?_eq_some_iff.mp hstage).1
  simp only [setRefresh, List.getElem?_set, hlt, if_true]
  by_cases hother : other = refresh
  · rw [if_pos hother.symm, if_pos hother]
  · rw [if_neg fun heq => hother heq.symm, if_neg hother]

/-- A refresh that has settled stays so while another one goes on. -/
theorem settled_setRefresh {refresh discovery : ℕ} {stage next : RefreshStage}
    (hstage : s.refreshes[refresh]? = some stage) (hunsettled : stage.Unsettled)
    (hsettled : s.refreshes[discovery]? = some (.settled fulfilled)) :
    (s.setRefresh refresh next).refreshes[discovery]? = some (.settled fulfilled) := by
  rw [getElem?_setRefresh hstage, if_neg]
  · exact hsettled
  · rintro rfl
    rw [hstage] at hsettled
    cases hsettled
    exact hunsettled

/-- A refresh that has settled stays so when another one starts. -/
theorem settled_startRefresh {discovery : ℕ}
    (hsettled : s.refreshes[discovery]? = some (.settled fulfilled)) :
    s.startRefresh.refreshes[discovery]? = some (.settled fulfilled) := by
  have hlt := (List.getElem?_eq_some_iff.mp hsettled).1
  exact (List.getElem?_append_left hlt).trans hsettled

theorem Sound.setRefresh (h : Sound s) {refresh : ℕ} {stage : RefreshStage}
    (hstage : s.refreshes[refresh]? = some stage) (hunsettled : stage.Unsettled)
    (next : RefreshStage) (hnext : next.Unsettled) : Sound (s.setRefresh refresh next) := by
  have hlength : (s.setRefresh refresh next).refreshes.length = s.refreshes.length :=
    List.length_set
  have hawaited : ∀ other, s.Awaited other → (s.setRefresh refresh next).Awaited other := by
    rintro other (hcurrent | ⟨hnone, -⟩)
    · exact .inl hcurrent
    · rw [h.unsettled refresh stage hstage hunsettled] at hnone
      cases hnone
  refine ⟨fun other hcurrent => ?_, fun other otherStage hother hotherUnsettled => ?_,
    h.counters, h.forced, fun drain drainStage hdrain => ?_, fun call hcall => ?_, h.covered⟩
  · rw [getElem?_setRefresh hstage]
    split
    · exact ⟨next, rfl, hnext⟩
    · exact h.current other hcurrent
  · rw [getElem?_setRefresh hstage] at hother
    split at hother
    · rename_i heq
      rw [heq]
      exact h.unsettled refresh stage hstage hunsettled
    · exact h.unsettled other otherStage hother hotherUnsettled
  · rcases h.drains drain drainStage hdrain with ⟨hforced, hlive⟩ | ⟨hforced, hpast⟩
    · refine .inl ⟨hforced, ?_⟩
      cases drainStage with
      | active latest other => exact ⟨hlive.1, hawaited other hlive.2⟩
      | own latest other coveredRequest => exact ⟨hlive.1, hlive.2.1, hawaited other hlive.2.2⟩
      | returned fulfilled discovery =>
        exact ⟨hlive.1, settled_setRefresh hstage hunsettled hlive.2⟩
      | settled fulfilled discovery => exact hlive
    · refine .inr ⟨hforced, ?_⟩
      cases drainStage with
      | settled fulfilled discovery => exact settled_setRefresh hstage hunsettled hpast
      | _ => exact hpast
  · rw [hlength]
    exact h.calls call hcall

theorem Sound.withSnapshot (h : Sound s) (snapshot : Option ℕ) :
    Sound { s with snapshot := snapshot } :=
  ⟨h.current, h.unsettled, h.counters, h.forced, h.drains, h.calls, h.covered⟩

theorem Sound.clear (h : Sound s) {refresh : ℕ}
    (hstage : s.refreshes[refresh]? = some (.stored fulfilled)) :
    Sound { s.setRefresh refresh (.settled fulfilled) with
      refreshPromise :=
        if s.refreshPromise = some refresh then none else s.refreshPromise } := by
  have hcurrent := h.unsettled refresh _ hstage trivial
  have hlength : (s.setRefresh refresh (.settled fulfilled)).refreshes.length =
      s.refreshes.length := List.length_set
  rw [if_pos hcurrent]
  have hawaited : ∀ other, s.Awaited other →
      Awaited { s.setRefresh refresh (.settled fulfilled) with refreshPromise := none } other := by
    rintro other (hother | ⟨hnone, -⟩)
    · rw [hcurrent, Option.some.injEq] at hother
      refine .inr ⟨rfl, fulfilled, ?_⟩
      exact (getElem?_setRefresh hstage).trans (if_pos hother.symm)
    · rw [hcurrent] at hnone
      cases hnone
  refine ⟨nofun, fun other otherStage hother hotherUnsettled => ?_, h.counters, h.forced,
    fun drain drainStage hdrain => ?_, fun call hcall => ?_, h.covered⟩
  · have hother := (getElem?_setRefresh hstage).symm.trans hother
    split at hother
    · cases hother
      exact hotherUnsettled.elim
    · rename_i hne
      have hsame := h.unsettled other otherStage hother hotherUnsettled
      rw [hcurrent, Option.some.injEq] at hsame
      exact absurd hsame.symm hne
  · rcases h.drains drain drainStage hdrain with ⟨hforced, hlive⟩ | ⟨hforced, hpast⟩
    · refine .inl ⟨hforced, ?_⟩
      cases drainStage with
      | active latest other => exact ⟨hlive.1, hawaited other hlive.2⟩
      | own latest other coveredRequest => exact ⟨hlive.1, hlive.2.1, hawaited other hlive.2.2⟩
      | returned answered discovery => exact ⟨rfl, settled_setRefresh hstage trivial hlive.2⟩
      | settled answered discovery => exact hlive
    · refine .inr ⟨hforced, ?_⟩
      cases drainStage with
      | settled answered discovery => exact settled_setRefresh hstage trivial hpast
      | _ => exact hpast
  · exact hlength.symm ▸ h.calls call hcall

theorem Sound.startRefresh (h : Sound s) (hnone : s.refreshPromise = none)
    (hforced : s.forcedRefreshPromise = none) : Sound s.startRefresh := by
  have hlength : s.startRefresh.refreshes.length = s.refreshes.length + 1 :=
    List.length_append
  refine ⟨fun refresh hrefresh => ?_, fun refresh stage hstage hunsettled => ?_, h.counters,
    h.forced, fun drain stage hstage => ?_, fun call hcall => ?_, h.covered⟩
  · cases hrefresh
    exact ⟨.discovering, List.getElem?_concat_length, trivial⟩
  · simp only [CatalogRefreshes.startRefresh, List.getElem?_append] at hstage
    split at hstage
    · have hold := h.unsettled refresh stage hstage hunsettled
      rw [hnone] at hold
      cases hold
    · rename_i hge
      have hlt := (List.getElem?_eq_some_iff.mp hstage).1
      rw [List.length_singleton] at hlt
      simp only [CatalogRefreshes.startRefresh, Option.some.injEq]
      omega
  · rcases h.drains drain stage hstage with ⟨hsome, -⟩ | ⟨hne, hpast⟩
    · rw [hforced] at hsome
      cases hsome
    · refine .inr ⟨hne, ?_⟩
      cases stage with
      | settled fulfilled discovery => exact settled_startRefresh hpast
      | _ => exact hpast
  · obtain ⟨hdrain, hrequest, hearlier⟩ := h.calls call hcall
    exact ⟨hdrain, hrequest, Nat.le_trans hearlier (hlength ▸ Nat.le_succ _)⟩

/-! ## Drains -/

/-- What holds while a drain runs up to its next `await`: all the others have settled. -/
structure Draining (s : CatalogRefreshes) (drain : ℕ) : Prop where
  current : ∀ refresh, s.refreshPromise = some refresh →
    ∃ stage, s.refreshes[refresh]? = some stage ∧ stage.Unsettled
  unsettled : ∀ refresh stage, s.refreshes[refresh]? = some stage → stage.Unsettled →
    s.refreshPromise = some refresh
  counters : s.forcedRefreshCompleted ≤ s.forcedRefreshRequested
  bound : drain < s.drains.length
  others : ∀ other stage, other ≠ drain → s.drains[other]? = some stage → s.Past stage
  calls : ∀ call ∈ s.calls, call.drain < s.drains.length ∧
    call.request ≤ s.forcedRefreshRequested ∧ call.earlier ≤ s.refreshes.length

theorem Sound.draining (h : Sound s) (hforced : s.forcedRefreshPromise = some drain) :
    Draining s drain := by
  refine ⟨h.current, h.unsettled, h.counters, h.forced drain hforced,
    fun other stage hother hstage => ?_, h.calls⟩
  rcases h.drains other stage hstage with ⟨hsame, -⟩ | ⟨-, hpast⟩
  · rw [hforced, Option.some.injEq] at hsame
    exact absurd hsame.symm hother
  · exact hpast

theorem getElem?_setDrain {drain other : ℕ} {next : DrainStage} (hdrain : drain < s.drains.length) :
    (s.setDrain drain next).drains[other]? =
      if other = drain then some next else s.drains[other]? := by
  simp only [setDrain, List.getElem?_set, hdrain, if_true]
  by_cases hother : other = drain
  · rw [if_pos hother.symm, if_pos hother]
  · rw [if_neg fun heq => hother heq.symm, if_neg hother]

theorem Draining.close (h : Draining s drain) (stage : DrainStage) (hlive : s.Live stage)
    (hcovered : ∀ call ∈ s.calls, call.drain = drain → ∀ latest refresh coveredRequest,
      stage = .own latest refresh coveredRequest → Covers refresh coveredRequest call) :
    Sound { s.setDrain drain stage with forcedRefreshPromise := some drain } := by
  have hlength : (s.setDrain drain stage).drains.length = s.drains.length := List.length_set
  refine ⟨h.current, h.unsettled, h.counters, fun other hother => ?_,
    fun other otherStage hother => ?_, fun call hcall => ?_,
    fun call hcall latest refresh coveredRequest hown => ?_⟩
  · cases hother
    exact hlength.symm ▸ h.bound
  · have hother := (getElem?_setDrain h.bound).symm.trans hother
    split at hother
    · rename_i heq
      cases hother
      exact .inl ⟨congrArg some heq.symm, hlive⟩
    · rename_i hne
      refine .inr ⟨fun heq => hne (Option.some.inj heq).symm, ?_⟩
      exact h.others other otherStage hne hother
  · exact hlength.symm ▸ h.calls call hcall
  · have hown := (getElem?_setDrain h.bound).symm.trans hown
    split at hown
    · rename_i heq
      exact hcovered call hcall heq latest refresh coveredRequest (Option.some.inj hown)
    · rename_i hne
      exact (h.others call.drain _ hne hown).elim

theorem Draining.startRefresh (h : Draining s drain)
    (hnone : s.refreshPromise = none) : Draining s.startRefresh drain := by
  have hlength : s.startRefresh.refreshes.length = s.refreshes.length + 1 :=
    List.length_append
  refine ⟨fun refresh hrefresh => ?_, fun refresh stage hstage hunsettled => ?_, h.counters,
    h.bound, fun other stage hother hstage => ?_, fun call hcall => ?_⟩
  · cases hrefresh
    exact ⟨.discovering, List.getElem?_concat_length, trivial⟩
  · simp only [CatalogRefreshes.startRefresh, List.getElem?_append] at hstage
    split at hstage
    · have hold := h.unsettled refresh stage hstage hunsettled
      rw [hnone] at hold
      cases hold
    · rename_i hge
      have hlt := (List.getElem?_eq_some_iff.mp hstage).1
      rw [List.length_singleton] at hlt
      simp only [CatalogRefreshes.startRefresh, Option.some.injEq]
      omega
  · have hpast := h.others other stage hother hstage
    cases stage with
    | settled fulfilled discovery => exact settled_startRefresh hpast
    | _ => exact hpast
  · obtain ⟨hdrain, hrequest, hearlier⟩ := h.calls call hcall
    exact ⟨hdrain, hrequest, Nat.le_trans hearlier (hlength ▸ Nat.le_succ _)⟩

theorem afterActive_eq (drain : ℕ) (latest : Option ℕ)
    (hopen : s.forcedRefreshCompleted < s.forcedRefreshRequested) :
    s.afterActive drain latest = s.startRefresh.setDrain drain
      (.own latest s.refreshes.length s.forcedRefreshRequested) := by
  have hnot : ¬ s.forcedRefreshCompleted ≥ s.forcedRefreshRequested := Nat.not_le.mpr hopen
  simp only [afterActive]
  rw [if_neg hnot]

theorem drainLoop_cases (drain : ℕ) (latest : Option ℕ)
    (hopen : s.forcedRefreshCompleted < s.forcedRefreshRequested) :
    (∃ refresh, s.refreshPromise = some refresh ∧
        s.drainLoop drain latest = s.setDrain drain (.active latest refresh)) ∨
      s.refreshPromise = none ∧
        s.drainLoop drain latest = s.startRefresh.setDrain drain
          (.own latest s.refreshes.length s.forcedRefreshRequested) := by
  cases hpromise : s.refreshPromise with
  | some refresh => exact .inl ⟨refresh, rfl, by simp only [drainLoop, hpromise]⟩
  | none =>
    refine .inr ⟨rfl, ?_⟩
    simp only [drainLoop, hpromise]
    exact afterActive_eq drain latest hopen

theorem Draining.own (h : Draining s drain) (latest : Option ℕ)
    (hopen : s.forcedRefreshCompleted < s.forcedRefreshRequested)
    (hnone : s.refreshPromise = none) :
    Sound { s.startRefresh.setDrain drain
        (.own latest s.refreshes.length s.forcedRefreshRequested) with
      forcedRefreshPromise := some drain } := by
  refine (h.startRefresh hnone).close _ ⟨hopen, Nat.le_refl _, .inl rfl⟩ ?_
  rintro call hcall - latest' refresh coveredRequest ⟨⟩ -
  exact (h.calls call hcall).2.2

theorem Draining.drainLoop (h : Draining s drain) (latest : Option ℕ)
    (hopen : s.forcedRefreshCompleted < s.forcedRefreshRequested) :
    Sound { s.drainLoop drain latest with forcedRefreshPromise := some drain } := by
  rcases drainLoop_cases drain latest hopen with ⟨refresh, hcurrent, heq⟩ | ⟨hnone, heq⟩
  · rw [heq]
    refine h.close _ ⟨hopen, .inl hcurrent⟩ ?_
    rintro call - - latest' refresh' coveredRequest ⟨⟩
  · rw [heq]
    exact h.own latest hopen hnone

variable {t : CatalogRefreshes}

theorem with_forced (hforced : t.forcedRefreshPromise = some drain) :
    { t with forcedRefreshPromise := some drain } = t := by
  rw [← hforced]

theorem Sound.afterActive (h : Sound s) {drain refresh : ℕ} {latest : Option ℕ}
    (hdrain : s.drains[drain]? = some (.active latest refresh))
    (hsettled : s.refreshes[refresh]? = some (.settled fulfilled)) (next : Option ℕ) :
    Sound (s.afterActive drain next) ∧
      s.afterActive drain next = s.startRefresh.setDrain drain
        (.own next s.refreshes.length s.forcedRefreshRequested) := by
  obtain ⟨hforced, hopen, hawaited⟩ := h.live hdrain id
  have heq := afterActive_eq drain next hopen
  have hsound := (h.draining hforced).own next hopen (h.awaited_settled hawaited hsettled)
  rw [with_forced (by exact hforced)] at hsound
  exact ⟨heq ▸ hsound, heq⟩

theorem Sound.afterOwn (h : Sound s) {drain refresh coveredRequest : ℕ} {latest : Option ℕ}
    (hdrain : s.drains[drain]? = some (.own latest refresh coveredRequest))
    (hsettled : s.refreshes[refresh]? = some (.settled fulfilled)) :
    Sound (s.afterOwn drain latest refresh coveredRequest fulfilled) := by
  obtain ⟨hforced, hopen, hcovered, hawaited⟩ := h.live hdrain id
  have hnone := h.awaited_settled hawaited hsettled
  have hdraining := h.draining hforced
  simp only [CatalogRefreshes.afterOwn]
  cases fulfilled with
  | true =>
    have hcompleted : Draining { s with forcedRefreshCompleted := coveredRequest } drain :=
      ⟨hdraining.current, hdraining.unsettled, hcovered, hdraining.bound, hdraining.others,
        hdraining.calls⟩
    rw [if_pos rfl]
    by_cases hdone : coveredRequest ≥ s.forcedRefreshRequested
    · rw [if_pos hdone]
      have hsound := hcompleted.close (.returned true refresh) ⟨hnone, hsettled⟩
        (by rintro call - - latest' refresh' coveredRequest' ⟨⟩)
      rwa [with_forced (by exact hforced)] at hsound
    · rw [if_neg hdone]
      have hmore := Nat.lt_of_not_le hdone
      have hsound := hcompleted.drainLoop (some refresh) hmore
      rcases drainLoop_cases (s := { s with forcedRefreshCompleted := coveredRequest }) drain
        (some refresh) hmore with ⟨other, -, heq⟩ | ⟨-, heq⟩
      all_goals
        rw [heq] at hsound ⊢
        rwa [with_forced (by exact hforced)] at hsound
  | false =>
    rw [if_neg Bool.false_ne_true]
    by_cases hmore : s.forcedRefreshRequested > coveredRequest
    · rw [if_pos hmore]
      have hopen' := Nat.lt_trans hopen hmore
      have hsound := hdraining.drainLoop latest hopen'
      rcases drainLoop_cases drain latest hopen' with ⟨other, -, heq⟩ | ⟨-, heq⟩
      all_goals
        rw [heq] at hsound ⊢
        rwa [with_forced (by exact hforced)] at hsound
    · rw [if_neg hmore]
      have hsound := hdraining.close (.returned false refresh) ⟨hnone, hsettled⟩
        (by rintro call - - latest' refresh' coveredRequest' ⟨⟩)
      rwa [with_forced (by exact hforced)] at hsound

theorem Sound.continueDrain (h : Sound s) (drain : ℕ) : Sound (s.continueDrain drain) := by
  simp only [CatalogRefreshes.continueDrain]
  split
  · rename_i latest refresh hdrain
    split
    · rename_i fulfilled hsettled
      exact (h.afterActive hdrain hsettled _).1
    · exact h
  · rename_i latest refresh coveredRequest hdrain
    split
    · rename_i fulfilled hsettled
      exact h.afterOwn hdrain hsettled
    · exact h
  · exact h

theorem Sound.clearForced (h : Sound s) {drain discovery : ℕ}
    (hdrain : s.drains[drain]? = some (.returned fulfilled discovery)) :
    Sound { s.setDrain drain (.settled fulfilled discovery) with
      forcedRefreshPromise :=
        if s.forcedRefreshPromise = some drain then none else s.forcedRefreshPromise } := by
  obtain ⟨hforced, -, hdiscovery⟩ := h.live hdrain id
  have hdraining := h.draining hforced
  have hlength : (s.setDrain drain (.settled fulfilled discovery)).drains.length =
      s.drains.length := List.length_set
  rw [if_pos hforced]
  refine ⟨h.current, h.unsettled, h.counters, nofun, fun other stage hother => .inr ⟨nofun, ?_⟩,
    fun call hcall => ?_, fun call hcall latest refresh coveredRequest hown => ?_⟩
  · have hother := (getElem?_setDrain hdraining.bound).symm.trans hother
    split at hother
    · cases hother
      exact hdiscovery
    · rename_i hne
      exact hdraining.others other stage hne hother
  · exact hlength.symm ▸ h.calls call hcall
  · have hown := (getElem?_setDrain hdraining.bound).symm.trans hown
    split at hown
    · cases hown
    · rename_i hne
      exact (hdraining.others call.drain _ hne hown).elim

theorem Sound.recordCall (h : Sound s) {drain earlier : ℕ} (hdrain : drain < s.drains.length)
    (hearlier : earlier ≤ s.refreshes.length) (hcovered : ∀ latest refresh coveredRequest,
      s.drains[drain]? = some (.own latest refresh coveredRequest) →
        Covers refresh coveredRequest
          { drain := drain, request := s.forcedRefreshRequested, earlier := earlier }) :
    Sound (s.recordCall drain earlier) := by
  refine ⟨h.current, h.unsettled, h.counters, h.forced, h.drains, fun call hcall => ?_,
    fun call hcall => ?_⟩
  · rcases List.mem_append.mp hcall with hold | hnew
    · exact h.calls call hold
    · rw [List.mem_singleton.mp hnew]
      exact ⟨hdrain, Nat.le_refl _, hearlier⟩
  · rcases List.mem_append.mp hcall with hold | hnew
    · exact h.covered call hold
    · rw [List.mem_singleton.mp hnew]
      exact hcovered

theorem Sound.request (h : Sound s) :
    Sound { s with forcedRefreshRequested := s.forcedRefreshRequested + 1 } := by
  refine ⟨h.current, h.unsettled, Nat.le_succ_of_le h.counters, h.forced,
    fun drain stage hstage => ?_, fun call hcall => ?_, h.covered⟩
  · refine (h.drains drain stage hstage).imp (fun hlive => ⟨hlive.1, ?_⟩) id
    have hlive := hlive.2
    cases stage with
    | active latest refresh => exact ⟨Nat.lt_succ_of_lt hlive.1, hlive.2⟩
    | own latest refresh coveredRequest =>
      exact ⟨hlive.1, Nat.le_succ_of_le hlive.2.1, hlive.2.2⟩
    | returned fulfilled discovery => exact hlive
    | settled fulfilled discovery => exact hlive
  · obtain ⟨hdrain, hrequest, hearlier⟩ := h.calls call hcall
    exact ⟨hdrain, Nat.le_succ_of_le hrequest, hearlier⟩

theorem Sound.newDrain (h : Sound s) (hforced : s.forcedRefreshPromise = none)
    (stage : DrainStage) :
    Draining { s with drains := s.drains ++ [stage] } s.drains.length := by
  have hlength : (s.drains ++ [stage]).length = s.drains.length + 1 := List.length_append
  refine ⟨h.current, h.unsettled, h.counters, ?_, fun other otherStage hne hother => ?_,
    fun call hcall => ?_⟩
  · exact hlength ▸ Nat.lt_succ_self _
  · simp only [List.getElem?_append] at hother
    split at hother
    · rcases h.drains other otherStage hother with ⟨hsome, -⟩ | ⟨-, hpast⟩
      · rw [hforced] at hsome
        cases hsome
      · exact hpast
    · rename_i hge
      have hlt := (List.getElem?_eq_some_iff.mp hother).1
      rw [List.length_singleton] at hlt
      omega
  · obtain ⟨hdrain, hrest⟩ := h.calls call hcall
    exact ⟨hlength ▸ Nat.lt_succ_of_lt hdrain, hrest⟩

/-- The drain awaits a refresh, its own one if it started after the given number of others. -/
def StartsAfter (earlier : ℕ) : DrainStage → Prop
  | .active _ _ => True
  | .own _ refresh _ => earlier ≤ refresh
  | _ => False

theorem refreshForced_none (hforced : s.forcedRefreshPromise = none) :
    s.refreshForced =
      { { s with
          forcedRefreshRequested := s.forcedRefreshRequested + 1
          drains := s.drains ++ [DrainStage.active s.snapshot 0] }.drainLoop
            s.drains.length s.snapshot with
        forcedRefreshPromise := some s.drains.length }.recordCall s.drains.length
          s.refreshes.length := by
  obtain ⟨snapshot, current, forced, requested, completed, refreshes, drains, calls⟩ := s
  cases hforced
  rfl

theorem refreshForced_cases (h : Sound s) :
    (∃ drain, s.forcedRefreshPromise = some drain ∧
        s.refreshForced =
          { s with forcedRefreshRequested := s.forcedRefreshRequested + 1 }.recordCall drain
            s.refreshes.length) ∨
      ∃ t stage, s.forcedRefreshPromise = none ∧ Sound t ∧ t.drains = s.drains ++ [stage] ∧
        StartsAfter s.refreshes.length stage ∧ t.calls = s.calls ∧
        s.refreshes.length ≤ t.refreshes.length ∧
        s.refreshForced = t.recordCall s.drains.length s.refreshes.length := by
  cases hforced : s.forcedRefreshPromise with
  | some drain => exact .inl ⟨drain, rfl, by simp only [refreshForced, hforced]⟩
  | none =>
    have hdraining := h.request.newDrain (by exact hforced) (.active s.snapshot 0)
    have hopen : s.forcedRefreshCompleted < s.forcedRefreshRequested + 1 :=
      Nat.lt_succ_of_le h.counters
    have hsound := hdraining.drainLoop s.snapshot hopen
    have hset : ∀ stage, (s.drains ++ [DrainStage.active s.snapshot 0]).set s.drains.length stage =
        s.drains ++ [stage] := fun stage => by simp
    refine .inr ?_
    rcases drainLoop_cases (s := { s with
        forcedRefreshRequested := s.forcedRefreshRequested + 1
        drains := s.drains ++ [.active s.snapshot 0] }) s.drains.length s.snapshot hopen
      with ⟨refresh, -, heq⟩ | ⟨-, heq⟩
    · rw [heq] at hsound
      refine ⟨_, .active s.snapshot refresh, rfl, hsound, hset _, trivial, rfl, Nat.le_refl _, ?_⟩
      rw [refreshForced_none hforced, heq]
    · rw [heq] at hsound
      refine ⟨_, .own s.snapshot s.refreshes.length (s.forcedRefreshRequested + 1), rfl, hsound,
        hset _, Nat.le_refl _, rfl, ?_, ?_⟩
      · exact (List.length_append : (s.refreshes ++ [RefreshStage.discovering]).length = _) ▸
          Nat.le_add_right _ _
      · rw [refreshForced_none hforced, heq]

theorem Sound.refreshForced (h : Sound s) : Sound s.refreshForced := by
  rcases refreshForced_cases h with
    ⟨drain, hforced, heq⟩ | ⟨t, stage, -, hsound, hdrains, hafter, -, hlength, heq⟩
  · rw [heq]
    refine h.request.recordCall (h.forced drain hforced) (Nat.le_refl _) ?_
    intro latest refresh coveredRequest hown hcovered
    have hbound := (h.live hown id).2.2.1
    exact absurd hcovered (Nat.not_le.mpr (Nat.lt_succ_of_le hbound))
  · rw [heq]
    have hstage : t.drains[s.drains.length]? = some stage := hdrains ▸ List.getElem?_concat_length
    refine hsound.recordCall (List.getElem?_eq_some_iff.mp hstage).1 hlength ?_
    intro latest refresh coveredRequest hown _
    rw [hstage, Option.some.injEq] at hown
    rw [hown] at hafter
    exact hafter

theorem Sound.refreshPlain (h : Sound s) (fresh : Bool) : Sound (s.refreshPlain fresh) := by
  simp only [CatalogRefreshes.refreshPlain]
  by_cases hserved : (fresh && s.snapshot.isSome) = true
  · rw [if_pos hserved]
    exact h
  by_cases hforced : s.forcedRefreshPromise.isSome = true
  · rw [if_neg hserved, if_pos hforced]
    exact h
  by_cases hcurrent : s.refreshPromise.isSome = true
  · rw [if_neg hserved, if_neg hforced, if_pos hcurrent]
    exact h
  · rw [if_neg hserved, if_neg hforced, if_neg hcurrent]
    exact h.startRefresh (Option.not_isSome_iff_eq_none.mp hcurrent)
      (Option.not_isSome_iff_eq_none.mp hforced)

theorem Sound.step (s : CatalogRefreshes) (a : CatalogRefreshAction) (h : Sound s) :
    Sound (s.step a) := by
  cases a with
  | refresh force fresh =>
    cases force with
    | true => exact h.refreshForced
    | false => exact h.refreshPlain fresh
  | discover refresh fulfilled =>
    simp only [CatalogRefreshes.step]
    split
    · rename_i hstage
      exact h.setRefresh hstage trivial (.discovered fulfilled) trivial
    · exact h
  | store refresh =>
    simp only [CatalogRefreshes.step]
    split
    · rename_i fulfilled hstage
      exact (h.setRefresh hstage trivial (.stored fulfilled) trivial).withSnapshot _
    · exact h
  | clear refresh =>
    simp only [CatalogRefreshes.step]
    split
    · rename_i fulfilled hstage
      exact h.clear hstage
    · exact h
  | drain drain => exact h.continueDrain drain
  | clearForced drain =>
    simp only [CatalogRefreshes.step]
    split
    · rename_i fulfilled discovery hdrain
      exact h.clearForced hdrain
    · exact h

/-! ## Answers -/

/-- The discovery that a drain answers with, if it has one. -/
def answerOf : DrainStage → Option ℕ
  | .returned _ discovery => some discovery
  | .settled _ discovery => some discovery
  | _ => none

theorem answers_iff {drain discovery : ℕ} :
    s.Answers drain discovery ↔
      ∃ stage, s.drains[drain]? = some stage ∧ answerOf stage = some discovery := by
  constructor
  · rintro ⟨fulfilled, h | h⟩
    · exact ⟨_, h, rfl⟩
    · exact ⟨_, h, rfl⟩
  · rintro ⟨stage, hstage, hanswer⟩
    match stage, hanswer with
    | .returned fulfilled _, rfl => exact ⟨fulfilled, .inl hstage⟩
    | .settled fulfilled _, rfl => exact ⟨fulfilled, .inr hstage⟩

/-- The forced requests and their answers are kept, and a new answer is newer than every request
of its drain. -/
structure Advances (s t : CatalogRefreshes) : Prop where
  calls : t.calls = s.calls
  kept : ∀ drain discovery, s.Answers drain discovery → t.Answers drain discovery
  newer : ∀ call ∈ s.calls, ∀ discovery, t.Answers call.drain discovery →
    s.Answers call.drain discovery ∨ call.earlier ≤ discovery

theorem Advances.of_drains (hcalls : t.calls = s.calls)
    (hdrains : t.drains = s.drains) : Advances s t := by
  have hanswers : ∀ drain discovery, t.Answers drain discovery ↔ s.Answers drain discovery :=
    fun drain discovery => by rw [Answers, Answers, hdrains]
  exact ⟨hcalls, fun drain discovery => (hanswers drain discovery).mpr,
    fun call _ discovery h => .inl ((hanswers call.drain discovery).mp h)⟩

theorem Advances.of_set {stage next : DrainStage}
    (hcalls : t.calls = s.calls) (hstage : s.drains[drain]? = some stage)
    (hdrains : t.drains = s.drains.set drain next)
    (hkept : ∀ discovery, answerOf stage = some discovery → answerOf next = some discovery)
    (hnewer : ∀ discovery, answerOf next = some discovery → answerOf stage = some discovery ∨
      ∀ call ∈ s.calls, call.drain = drain → call.earlier ≤ discovery) : Advances s t := by
  have hlt : drain < s.drains.length := (List.getElem?_eq_some_iff.mp hstage).1
  have hget : ∀ other, t.drains[other]? =
      if other = drain then some next else s.drains[other]? :=
    fun other => hdrains ▸ getElem?_setDrain hlt
  refine ⟨hcalls, fun other discovery hanswer => ?_, fun call hcall discovery hanswer => ?_⟩
  · obtain ⟨old, hold, hanswer⟩ := answers_iff.mp hanswer
    refine answers_iff.mpr ?_
    rw [hget]
    by_cases hother : other = drain
    · rw [if_pos hother]
      rw [hother, hstage, Option.some.injEq] at hold
      exact ⟨next, rfl, hkept discovery (hold ▸ hanswer)⟩
    · rw [if_neg hother]
      exact ⟨old, hold, hanswer⟩
  · obtain ⟨new, hnew, hanswer⟩ := answers_iff.mp hanswer
    rw [hget] at hnew
    by_cases hother : call.drain = drain
    · rw [if_pos hother, Option.some.injEq] at hnew
      rcases hnewer discovery (hnew ▸ hanswer) with hold | hearlier
      · exact .inl (answers_iff.mpr ⟨stage, hother ▸ hstage, hold⟩)
      · exact .inr (hearlier call hcall hother)
    · rw [if_neg hother] at hnew
      exact .inl (answers_iff.mpr ⟨new, hnew, hanswer⟩)

theorem advances_afterOwn (h : Sound s) {drain refresh coveredRequest : ℕ} {latest : Option ℕ}
    (hdrain : s.drains[drain]? = some (.own latest refresh coveredRequest)) :
    Advances s (s.afterOwn drain latest refresh coveredRequest fulfilled) := by
  obtain ⟨hforced, hopen, hcovered, -⟩ := h.live hdrain id
  -- A drain whose refresh covers every request is answered by it, whatever its outcome.
  have hlast : ∀ t : CatalogRefreshes, ∀ fulfilled, s.forcedRefreshRequested ≤ coveredRequest →
      t.calls = s.calls → t.drains = s.drains.set drain (.returned fulfilled refresh) →
      Advances s t := by
    intro t fulfilled hdone hcalls hdrains
    refine .of_set hcalls hdrain hdrains nofun fun discovery hanswer => .inr ?_
    cases hanswer
    intro call hcall hof
    refine h.covered call hcall latest refresh coveredRequest (hof ▸ hdrain) ?_
    exact Nat.le_trans (h.calls call hcall).2.1 hdone
  simp only [CatalogRefreshes.afterOwn]
  cases fulfilled with
  | true =>
    rw [if_pos rfl]
    by_cases hdone : coveredRequest ≥ s.forcedRefreshRequested
    · rw [if_pos hdone]
      exact hlast _ true hdone rfl rfl
    · rw [if_neg hdone]
      rcases drainLoop_cases (s := { s with forcedRefreshCompleted := coveredRequest }) drain
        (some refresh) (Nat.lt_of_not_le hdone) with ⟨other, -, heq⟩ | ⟨-, heq⟩
      all_goals
        rw [heq]
        exact .of_set rfl hdrain rfl nofun nofun
  | false =>
    rw [if_neg Bool.false_ne_true]
    by_cases hmore : s.forcedRefreshRequested > coveredRequest
    · rw [if_pos hmore]
      rcases drainLoop_cases drain latest (Nat.lt_trans hopen hmore) with
        ⟨other, -, heq⟩ | ⟨-, heq⟩
      all_goals
        rw [heq]
        exact .of_set rfl hdrain rfl nofun nofun
    · rw [if_neg hmore]
      exact hlast _ false (Nat.le_of_not_lt hmore) rfl rfl

theorem advances_step (h : Sound s) (a : CatalogRefreshAction)
    (hnot : ∀ fresh, a ≠ .refresh true fresh) : Advances s (s.step a) := by
  cases a with
  | refresh force fresh =>
    cases force with
    | true => exact absurd rfl (hnot fresh)
    | false =>
      change Advances s (s.refreshPlain fresh)
      simp only [CatalogRefreshes.refreshPlain]
      split
      · exact .of_drains rfl rfl
      split
      · exact .of_drains rfl rfl
      split
      · exact .of_drains rfl rfl
      · exact .of_drains rfl rfl
  | discover refresh fulfilled =>
    simp only [CatalogRefreshes.step]
    split
    · exact .of_drains rfl rfl
    · exact .of_drains rfl rfl
  | store refresh =>
    simp only [CatalogRefreshes.step]
    split
    · exact .of_drains rfl rfl
    · exact .of_drains rfl rfl
  | clear refresh =>
    simp only [CatalogRefreshes.step]
    split
    · exact .of_drains rfl rfl
    · exact .of_drains rfl rfl
  | drain drain =>
    simp only [CatalogRefreshes.step, CatalogRefreshes.continueDrain]
    split
    · rename_i latest refresh hdrain
      split
      · rename_i fulfilled hsettled
        rw [(h.afterActive hdrain hsettled _).2]
        exact .of_set rfl hdrain rfl nofun nofun
      · exact .of_drains rfl rfl
    · rename_i latest refresh coveredRequest hdrain
      split
      · exact advances_afterOwn h hdrain
      · exact .of_drains rfl rfl
    · exact .of_drains rfl rfl
  | clearForced drain =>
    simp only [CatalogRefreshes.step]
    split
    · rename_i fulfilled discovery hdrain
      exact .of_set rfl hdrain rfl (fun answer hanswer => hanswer)
        fun answer hanswer => .inl hanswer
    · exact .of_drains rfl rfl

/-- Every forced request that is answered is answered by a discovery that started after it. -/
def AllFresh (s : CatalogRefreshes) : Prop := ∀ call ∈ s.calls, s.Fresh call

theorem Advances.allFresh_iff (h : Advances s t) :
    t.AllFresh ↔ s.AllFresh := by
  constructor
  · intro hfresh call hcall discovery hanswer
    exact hfresh call (h.calls ▸ hcall) discovery (h.kept call.drain discovery hanswer)
  · intro hfresh call hcall discovery hanswer
    have hcall : call ∈ s.calls := h.calls ▸ hcall
    rcases h.newer call hcall discovery hanswer with hold | hearlier
    · exact hfresh call hcall discovery hold
    · exact hearlier

theorem allFresh_recordCall {drain earlier : ℕ} :
    (s.recordCall drain earlier).AllFresh ↔
      s.AllFresh ∧ ∀ discovery, s.Answers drain discovery → earlier ≤ discovery := by
  constructor
  · intro h
    exact ⟨fun call hcall => h call (List.mem_append_left _ hcall),
      h _ (List.mem_append_right _ (List.mem_singleton_self _))⟩
  · rintro ⟨hall, hnew⟩ call hcall
    rcases List.mem_append.mp hcall with hold | hlast
    · exact hall call hold
    · rw [List.mem_singleton.mp hlast]
      exact hnew

/-- A request that joins the drain is answered by a newer discovery, if at all, just when the drain
has not ended. -/
theorem joined_iff (h : Sound s) (hforced : s.forcedRefreshPromise = some drain) (fresh : Bool) :
    (∀ discovery, s.Answers drain discovery → s.refreshes.length ≤ discovery) ↔
      s.InTime (.refresh true fresh) := by
  constructor
  · intro hnewer other hother fulfilled discovery hreturned
    cases Option.mem_def.mp hother ▸ hforced
    have hbound := (List.getElem?_eq_some_iff.mp (h.live hreturned id).2.2).1
    exact absurd (hnewer discovery ⟨fulfilled, .inl hreturned⟩) (Nat.not_le.mpr hbound)
  · rintro htime discovery ⟨fulfilled, hreturned | hsettled⟩
    · exact absurd hreturned (htime drain hforced fulfilled discovery)
    · rcases h.drains drain _ hsettled with ⟨-, hlive⟩ | ⟨hne, -⟩
      · exact hlive.elim
      · exact absurd hforced hne

theorem allFresh_refreshForced (h : Sound s) (fresh : Bool) :
    s.refreshForced.AllFresh ↔ s.AllFresh ∧ s.InTime (.refresh true fresh) := by
  rcases refreshForced_cases h with
    ⟨drain, hforced, heq⟩ | ⟨t, stage, hnone, -, hdrains, hafter, hcalls, -, heq⟩
  · rw [heq, allFresh_recordCall]
    exact and_congr Iff.rfl (joined_iff h hforced fresh)
  · have hanswer : answerOf stage = none := by
      cases stage with
      | active latest refresh => rfl
      | own latest refresh coveredRequest => rfl
      | returned fulfilled discovery => exact hafter.elim
      | settled fulfilled discovery => exact hafter.elim
    have hnew : ∀ discovery, ¬ t.Answers s.drains.length discovery := by
      intro discovery hanswers
      obtain ⟨last, hlast, hsome⟩ := answers_iff.mp hanswers
      rw [hdrains, List.getElem?_concat_length, Option.some.injEq] at hlast
      rw [← hlast, hanswer] at hsome
      cases hsome
    have hold : t.AllFresh ↔ s.AllFresh := by
      have hsame : ∀ call ∈ s.calls, (t.Fresh call ↔ s.Fresh call) := by
        intro call hcall
        have hget : t.drains[call.drain]? = s.drains[call.drain]? := by
          rw [hdrains, List.getElem?_append_left (h.calls call hcall).1]
        simp only [Fresh, Answers, hget]
      simp only [AllFresh, hcalls]
      exact forall₂_congr hsame
    rw [heq, allFresh_recordCall, hold]
    refine and_congr Iff.rfl ⟨fun _ drain hdrain => ?_, fun _ discovery hanswers => ?_⟩
    · rw [hnone] at hdrain
      cases hdrain
    · exact absurd hanswers (hnew discovery)

theorem allFresh_step (h : Sound s) (a : CatalogRefreshAction) :
    (s.step a).AllFresh ↔ s.AllFresh ∧ s.InTime a := by
  by_cases hforced : ∃ fresh, a = .refresh true fresh
  · obtain ⟨fresh, rfl⟩ := hforced
    exact allFresh_refreshForced h fresh
  · have hnot : ∀ fresh, a ≠ .refresh true fresh := fun fresh heq => hforced ⟨fresh, heq⟩
    have htime : s.InTime a := by
      match a, hnot with
      | .refresh true fresh, hnot => exact absurd rfl (hnot fresh)
      | .refresh false _, _ => trivial
      | .discover _ _, _ => trivial
      | .store _, _ => trivial
      | .clear _, _ => trivial
      | .drain _, _ => trivial
      | .clearForced _, _ => trivial
    rw [(advances_step h a hnot).allFresh_iff]
    exact ⟨fun hfresh => ⟨hfresh, htime⟩, fun hfresh => hfresh.1⟩

theorem allFresh_run (h : Sound s) (actions : List CatalogRefreshAction) :
    (runFrom step s actions).AllFresh ↔ s.AllFresh ∧ RunMeets step InTime s actions := by
  induction actions generalizing s with
  | nil => exact ⟨fun hfresh => ⟨hfresh, trivial⟩, fun hfresh => hfresh.1⟩
  | cons a rest ih =>
    rw [runFrom_cons, ih (Sound.step s a h), allFresh_step h a]
    exact and_assoc

theorem Sound.discovering_unique (h : Sound s) {refresh other : ℕ}
    (hrefresh : s.refreshes[refresh]? = some .discovering)
    (hother : s.refreshes[other]? = some .discovering) : refresh = other := by
  have hfirst := h.unsettled refresh _ hrefresh trivial
  have hsecond := h.unsettled other _ hother trivial
  rw [hfirst, Option.some.injEq] at hsecond
  exact hsecond

/-! ## Settlement -/

variable {outcome : ℕ → Bool}

/-- Owed steps lead from one state to the other. -/
def Leads (outcome : ℕ → Bool) (s t : CatalogRefreshes) : Prop :=
  ∃ rest, (∀ a ∈ rest, Owed outcome a) ∧ runFrom step s rest = t

theorem Leads.refl : Leads outcome s s := ⟨[], nofun, rfl⟩

theorem Leads.head (a : CatalogRefreshAction) (howed : Owed outcome a)
    (h : Leads outcome (s.step a) t) : Leads outcome s t := by
  obtain ⟨rest, hrest, hrun⟩ := h
  exact ⟨a :: rest, List.forall_mem_cons.mpr ⟨howed, hrest⟩, hrun⟩

theorem Leads.trans {u : CatalogRefreshes} (h : Leads outcome s t) (hnext : Leads outcome t u) :
    Leads outcome s u := by
  obtain ⟨before, hbefore, rfl⟩ := h
  obtain ⟨after, hafter, rfl⟩ := hnext
  exact ⟨before ++ after, fun a ha => (List.mem_append.mp ha).elim (hbefore a) (hafter a),
    runFrom_append step s before after⟩

/-- Owed steps keep the invariant, the forced requests and their freshness. -/
theorem Leads.advances (h : Sound s) (hleads : Leads outcome s t) :
    Sound t ∧ t.calls = s.calls ∧ (s.AllFresh → t.AllFresh) := by
  obtain ⟨rest, howed, rfl⟩ := hleads
  induction rest generalizing s with
  | nil => exact ⟨h, rfl, id⟩
  | cons a rest ih =>
    obtain ⟨hfirst, hrest⟩ := List.forall_mem_cons.mp howed
    have hstep : Advances s (s.step a) := by
      refine advances_step h a ?_
      rintro fresh rfl
      exact hfirst
    obtain ⟨hsound, hcalls, hfresh⟩ := ih (h.step s a) hrest
    exact ⟨hsound, hcalls.trans hstep.calls, fun hall => hfresh (hstep.allFresh_iff.mpr hall)⟩

/-- A refresh goes on, and the drains stand. -/
structure Aside (s t : CatalogRefreshes) : Prop where
  drains : t.drains = s.drains
  requested : t.forcedRefreshRequested = s.forcedRefreshRequested

/-- A refresh settles by steps that are owed to it. -/
theorem refresh_settles (outcome : ℕ → Bool) {refresh : ℕ} {stage : RefreshStage}
    (hstage : s.refreshes[refresh]? = some stage) :
    ∃ t fulfilled, Leads outcome s t ∧ Aside s t ∧
      t.refreshes[refresh]? = some (.settled fulfilled) := by
  have hstored : ∀ {s : CatalogRefreshes} {fulfilled},
      s.refreshes[refresh]? = some (.stored fulfilled) →
      ∃ t fulfilled, Leads outcome s t ∧ Aside s t ∧
        t.refreshes[refresh]? = some (.settled fulfilled) := by
    intro s fulfilled hstored
    refine ⟨s.step (.clear refresh), fulfilled, .head (.clear refresh) trivial .refl, ?_, ?_⟩
    · simp only [step, hstored]
      exact ⟨rfl, rfl⟩
    · simp only [step, hstored]
      exact (getElem?_setRefresh hstored).trans (if_pos rfl)
  have hdiscovered : ∀ {s : CatalogRefreshes} {fulfilled},
      s.refreshes[refresh]? = some (.discovered fulfilled) →
      ∃ t fulfilled, Leads outcome s t ∧ Aside s t ∧
        t.refreshes[refresh]? = some (.settled fulfilled) := by
    intro s fulfilled hdiscovered
    have hnext : (s.step (.store refresh)).refreshes[refresh]? = some (.stored fulfilled) := by
      simp only [step, hdiscovered]
      exact (getElem?_setRefresh hdiscovered).trans (if_pos rfl)
    obtain ⟨t, answer, hleads, haside, hsettled⟩ := hstored hnext
    refine ⟨t, answer, .head (.store refresh) trivial hleads, ?_, hsettled⟩
    simp only [step, hdiscovered] at haside
    exact ⟨haside.drains, haside.requested⟩
  cases stage with
  | discovering =>
    have hnext : (s.step (.discover refresh (outcome refresh))).refreshes[refresh]? =
        some (.discovered (outcome refresh)) := by
      simp only [step, hstage]
      exact (getElem?_setRefresh hstage).trans (if_pos rfl)
    obtain ⟨t, answer, hleads, haside, hsettled⟩ := hdiscovered hnext
    refine ⟨t, answer, .head (.discover refresh (outcome refresh)) rfl hleads, ?_, hsettled⟩
    simp only [step, hstage] at haside
    exact ⟨haside.drains, haside.requested⟩
  | discovered fulfilled => exact hdiscovered hstage
  | stored fulfilled => exact hstored hstage
  | settled fulfilled => exact ⟨s, fulfilled, .refl, ⟨rfl, rfl⟩, hstage⟩

theorem Sound.awaited_settles (h : Sound s) (outcome : ℕ → Bool) {refresh : ℕ}
    (hawaited : s.Awaited refresh) :
    ∃ t fulfilled, Leads outcome s t ∧ Aside s t ∧
      t.refreshes[refresh]? = some (.settled fulfilled) := by
  rcases hawaited with hcurrent | ⟨-, fulfilled, hsettled⟩
  · obtain ⟨stage, hstage, -⟩ := h.current refresh hcurrent
    exact refresh_settles outcome hstage
  · exact refresh_settles outcome hsettled

/-- Owed steps end the drain of the forced requests. -/
def Ends (outcome : ℕ → Bool) (s : CatalogRefreshes) : Prop :=
  ∃ t, Leads outcome s t ∧ t.forcedRefreshPromise = none

theorem Leads.ends (hleads : Leads outcome s t) (h : Ends outcome t) : Ends outcome s := by
  obtain ⟨u, hnext, hnone⟩ := h
  exact ⟨u, hleads.trans hnext, hnone⟩

theorem ends_returned (h : Sound s) {discovery : ℕ}
    (hdrain : s.drains[drain]? = some (.returned fulfilled discovery)) : Ends outcome s := by
  refine ⟨s.step (.clearForced drain), .head (.clearForced drain) trivial .refl, ?_⟩
  simp only [step, hdrain]
  exact if_pos (h.live hdrain id).1

/-- A drain returns when its own refresh has settled and covers every request. -/
theorem ends_own_last (h : Sound s) {refresh coveredRequest : ℕ} {latest : Option ℕ}
    (hdrain : s.drains[drain]? = some (.own latest refresh coveredRequest))
    (hlast : s.forcedRefreshRequested ≤ coveredRequest) : Ends outcome s := by
  obtain ⟨t, fulfilled, hleads, haside, hsettled⟩ :=
    h.awaited_settles outcome (h.live hdrain id).2.2.2
  have hsound := (hleads.advances h).1
  rw [← haside.drains] at hdrain
  rw [← haside.requested] at hlast
  have hlt := (List.getElem?_eq_some_iff.mp hdrain).1
  have hreturned :
      (t.step (.drain drain)).drains[drain]? = some (.returned fulfilled refresh) := by
    simp only [step, CatalogRefreshes.continueDrain, hdrain, hsettled,
      CatalogRefreshes.afterOwn]
    cases fulfilled with
    | true =>
      rw [if_pos rfl, if_pos hlast]
      exact (getElem?_setDrain (s := t) hlt).trans (if_pos rfl)
    | false =>
      rw [if_neg Bool.false_ne_true, if_neg (Nat.not_lt.mpr hlast)]
      exact (getElem?_setDrain hlt).trans (if_pos rfl)
  refine hleads.ends (Leads.ends (.head (.drain drain) trivial .refl) ?_)
  exact ends_returned (hsound.step t (.drain drain)) hreturned

/-- A drain behind its first `await` starts a refresh of its own, for every request. -/
theorem ends_active (h : Sound s) {refresh : ℕ} {latest : Option ℕ}
    (hdrain : s.drains[drain]? = some (.active latest refresh)) : Ends outcome s := by
  obtain ⟨t, fulfilled, hleads, haside, hsettled⟩ :=
    h.awaited_settles outcome (h.live hdrain id).2.2
  have hsound := (hleads.advances h).1
  rw [← haside.drains] at hdrain
  have hlt := (List.getElem?_eq_some_iff.mp hdrain).1
  have hstep : t.step (.drain drain) = t.startRefresh.setDrain drain
      (.own (if fulfilled then some refresh else latest) t.refreshes.length
        t.forcedRefreshRequested) := by
    simp only [step, CatalogRefreshes.continueDrain, hdrain, hsettled]
    exact (hsound.afterActive hdrain hsettled _).2
  have hnext := hsound.step t (.drain drain)
  refine hleads.ends (Leads.ends (.head (.drain drain) trivial .refl) ?_)
  rw [hstep] at hnext ⊢
  exact ends_own_last hnext ((getElem?_setDrain (s := t.startRefresh) hlt).trans (if_pos rfl))
    (Nat.le_refl _)

/-- A drain whose refresh leaves requests out goes through its loop once more. -/
theorem ends_own (h : Sound s) {refresh coveredRequest : ℕ} {latest : Option ℕ}
    (hdrain : s.drains[drain]? = some (.own latest refresh coveredRequest)) :
    Ends outcome s := by
  by_cases hlast : s.forcedRefreshRequested ≤ coveredRequest
  · exact ends_own_last h hdrain hlast
  obtain ⟨-, hopen, -, hawaited⟩ := h.live hdrain id
  obtain ⟨t, fulfilled, hleads, haside, hsettled⟩ := h.awaited_settles outcome hawaited
  have hsound := (hleads.advances h).1
  rw [← haside.drains] at hdrain
  rw [← haside.requested] at hlast
  have hlt := (List.getElem?_eq_some_iff.mp hdrain).1
  have hmore := Nat.lt_of_not_le hlast
  have hnext := hsound.step t (.drain drain)
  refine hleads.ends (Leads.ends (.head (.drain drain) trivial .refl) ?_)
  have hloop : ∃ (u : CatalogRefreshes) (newest : Option ℕ), u.drains = t.drains ∧
      u.forcedRefreshCompleted < u.forcedRefreshRequested ∧
      t.step (.drain drain) = u.drainLoop drain newest := by
    simp only [step, CatalogRefreshes.continueDrain, hdrain, hsettled,
      CatalogRefreshes.afterOwn]
    cases fulfilled with
    | true =>
      rw [if_pos rfl, if_neg hlast]
      exact ⟨{ t with forcedRefreshCompleted := coveredRequest }, some refresh, rfl, hmore, rfl⟩
    | false =>
      rw [if_neg Bool.false_ne_true, if_pos hmore]
      exact ⟨t, latest, rfl, Nat.lt_trans (hsound.live hdrain id).2.1 hmore, rfl⟩
  obtain ⟨u, newest, hdrains, hopen, hstep⟩ := hloop
  rw [hstep] at hnext ⊢
  rw [← hdrains] at hlt
  rcases drainLoop_cases drain newest hopen with ⟨other, -, heq⟩ | ⟨-, heq⟩
  · rw [heq] at hnext ⊢
    exact ends_active hnext ((getElem?_setDrain hlt).trans (if_pos rfl))
  · rw [heq] at hnext ⊢
    exact ends_own_last hnext
      ((getElem?_setDrain (s := u.startRefresh) hlt).trans (if_pos rfl)) (Nat.le_refl _)

/-- From every reachable state owed steps alone end the drain of the forced requests. -/
theorem Sound.ends (h : Sound s) (outcome : ℕ → Bool) : Ends outcome s := by
  cases hforced : s.forcedRefreshPromise with
  | none => exact ⟨s, .refl, hforced⟩
  | some drain =>
    obtain ⟨stage, hstage⟩ : ∃ stage, s.drains[drain]? = some stage :=
      ⟨_, List.getElem?_eq_getElem (h.forced drain hforced)⟩
    cases stage with
    | active latest refresh => exact ends_active h hstage
    | own latest refresh coveredRequest => exact ends_own h hstage
    | returned fulfilled discovery => exact ends_returned h hstage
    | settled fulfilled discovery =>
      rcases h.drains drain _ hstage with ⟨-, hlive⟩ | ⟨hne, -⟩
      · exact hlive.elim
      · exact absurd hforced hne

/-- Where no drain is left every forced request is served. -/
theorem Sound.served (h : Sound s) (hnone : s.forcedRefreshPromise = none) {call : ForcedCall}
    (hcall : call ∈ s.calls) : s.Served call := by
  obtain ⟨stage, hstage⟩ : ∃ stage, s.drains[call.drain]? = some stage :=
    ⟨_, List.getElem?_eq_getElem (h.calls call hcall).1⟩
  rcases h.drains call.drain _ hstage with ⟨hsome, -⟩ | ⟨-, hpast⟩
  · rw [hnone] at hsome
    cases hsome
  · cases stage with
    | settled fulfilled discovery => exact ⟨fulfilled, discovery, hstage, hpast⟩
    | _ => exact hpast.elim

/-- In every run discoveries never overlap, and the forced requests that are answered are all
answered by a discovery that started after them just when none of them is made between the end of
a drain and the `finally` callback that clears its promise. None is forgotten: in whatever way the
discoveries end, the continuations that are still owed settle the promise of every forced request
with the outcome of a discovery. -/
theorem forced_refreshes_fresh (actions : List CatalogRefreshAction) :
    let s := runFrom step initial actions
    (∀ refresh other : ℕ, s.refreshes[refresh]? = some .discovering →
        s.refreshes[other]? = some .discovering → refresh = other) ∧
      ((∀ call ∈ s.calls, s.Fresh call) ↔ RunMeets step InTime initial actions) ∧
      ∀ outcome : ℕ → Bool, ∃ rest, (∀ a ∈ rest, Owed outcome a) ∧
        ∀ call ∈ s.calls, (runFrom step s rest).Served call ∧
          (RunMeets step InTime initial actions → (runFrom step s rest).Fresh call) := by
  have hsound : Sound (runFrom step initial actions) :=
    runFrom_invariant Sound.step actions sound_initial
  have hfresh : (runFrom step initial actions).AllFresh ↔ RunMeets step InTime initial actions := by
    rw [allFresh_run sound_initial actions]
    exact ⟨fun h => h.2, fun h => ⟨nofun, h⟩⟩
  refine ⟨fun refresh other hrefresh hother => hsound.discovering_unique hrefresh hother,
    hfresh, fun outcome => ?_⟩
  obtain ⟨t, hleads, hnone⟩ := hsound.ends outcome
  obtain ⟨hafter, hcalls, hkept⟩ := hleads.advances hsound
  obtain ⟨rest, howed, rfl⟩ := hleads
  refine ⟨rest, howed, fun call hcall => ?_⟩
  rw [← hcalls] at hcall
  exact ⟨hafter.served hnone hcall, fun hmeets => hkept (hfresh.mpr hmeets) call hcall⟩

/-- The second forced request is made after the drain of the first has returned: it joins that
drain, and is answered by the snapshot of the discovery that started before it. -/
theorem forced_refresh_stale : ¬ ∀ (actions : List CatalogRefreshAction),
    ∀ call ∈ (runFrom step initial actions).calls, ∀ discovery : ℕ,
      (runFrom step initial actions).drains[call.drain]? = some (.settled true discovery) →
        call.earlier ≤ discovery := by
  intro h
  have hlate := h [.refresh true false, .discover 0 true, .store 0, .clear 0, .drain 0,
    .refresh true false, .clearForced 0] { drain := 0, request := 2, earlier := 1 } (by decide)
    0 rfl
  exact absurd hlate (by decide)

end CatalogRefreshes

end PiAgentWeb
