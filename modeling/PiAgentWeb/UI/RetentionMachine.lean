import PiAgentWeb.Library.JsValue
import PiAgentWeb.Library.NewestSuffix
import PiAgentWeb.Library.Runs

/-!
# The retention machine

The retention machine of the page keeps the order of the subscriptions, the admissions of the
Sessions and the raw events of all Sessions in one list, the oldest first. A raw event that is
retained makes room for itself: first among the events of its Session, then among all events.
-/

namespace PiAgentWeb

/-- `RetainedRawEvent`. The object number tells entries apart as references do. -/
structure RetainedRawEvent (R : Type) where
  object : ℕ
  identityKey : JsString
  sessionHandle : JsString
  record : R
  bytes : ℕ
  deriving DecidableEq

/-- `RetentionCandidate`. -/
structure RetentionCandidate where
  sessionHandle : JsString
  subscribed : Bool
  canEvict : Bool
  isProtected : Bool
  deriving DecidableEq

/-- `SessionRetentionMachineState`. -/
structure SessionRetentionMachineState (R A : Type) where
  subscriptionOrder : List JsString
  protectedOverage : List JsString
  admissions : InsertionMap JsString A
  rawEvents : List (RetainedRawEvent R)
  rawEventBytes : ℕ
  deriving DecidableEq

/-- `SessionRetentionMachineOptions`. -/
structure SessionRetentionMachineOptions where
  maxActiveSubscriptions : ℕ
  rawEventLimit : ℕ
  rawEventMaxBytes : ℕ
  rawEventGlobalLimit : ℕ
  rawEventGlobalMaxBytes : ℕ

/-- `SessionRetentionMachineEvent`. -/
inductive SessionRetentionMachineEvent (R A : Type) where
  | touchSubscription (sessionHandle : JsString)
  | admitSubscription (sessionHandle : JsString) (subscribedCount : ℕ)
      (candidates : List RetentionCandidate)
  | removeSubscription (sessionHandle : JsString) (preserveAdmission : Bool)
  | markProtectedOverage (sessionHandle : JsString) (subscribedCount : ℕ)
  | clearProtectedOverage (subscribedCount : ℕ)
  | setAdmission (sessionHandle : JsString) (admission : A)
  | clearAdmission (sessionHandle : JsString)
  | retainRaw (entry : RetainedRawEvent R)
  | discardRaw (sessionHandle : JsString)
  | reset

/-- `SessionRetentionMachineIntent`. -/
inductive SessionRetentionMachineIntent (R A : Type) where
  | evictSubscription (sessionHandle : JsString)
  | markProtectedOverage (sessionHandle : JsString)
  | clearProtectedOverage (sessionHandles : List JsString)
  | admissionChanged (sessionHandle : JsString) (admission : Option A)
  | rawEventsEvicted (entries : List (RetainedRawEvent R))

/-- `SessionRetentionMachineTransition`. -/
structure SessionRetentionMachineTransition (R A : Type) where
  state : SessionRetentionMachineState R A
  intents : List (SessionRetentionMachineIntent R A)
  accepted : Option Bool := none
  removed : Option (List (RetainedRawEvent R)) := none

variable {R A : Type}

/-- `emptyState`. -/
def SessionRetentionMachineState.empty : SessionRetentionMachineState R A :=
  { subscriptionOrder := [], protectedOverage := [], admissions := .empty, rawEvents := [],
    rawEventBytes := 0 }

/-- `removeHandle`. -/
def removeHandle (handles : List JsString) (sessionHandle : JsString) : List JsString :=
  handles.filter (· ≠ sessionHandle)

/-- `touch`. -/
def touch (order : List JsString) (sessionHandle : JsString) : List JsString :=
  removeHandle order sessionHandle ++ [sessionHandle]

/-- `canEvict`. -/
def RetentionCandidate.evictable (candidate : RetentionCandidate) : Bool :=
  candidate.subscribed && candidate.canEvict && !candidate.isProtected

/-- The size of an entry can be retained at all. -/
def SessionRetentionMachineOptions.admits (options : SessionRetentionMachineOptions)
    (entry : RetainedRawEvent R) : Bool :=
  isSafeInteger entry.bytes && 0 < entry.bytes && entry.bytes ≤ options.rawEventMaxBytes &&
    entry.bytes ≤ options.rawEventGlobalMaxBytes && options.rawEventLimit ≠ 0 &&
    options.rawEventGlobalLimit ≠ 0

/-- The oldest entries of a Session are shifted off until the rest is within the limits. -/
def shiftOldest (limit maxBytes : ℕ) : List (RetainedRawEvent R) → ℕ → List (RetainedRawEvent R)
  | [], _ => []
  | oldest :: rest, sessionBytes =>
    if (oldest :: rest).length > limit || sessionBytes > maxBytes then
      oldest :: shiftOldest limit maxBytes rest (sessionBytes - oldest.bytes)
    else []

/-- The entry is one of the evicted objects. -/
def RetainedRawEvent.evictedFrom (evicted : List (RetainedRawEvent R))
    (candidate : RetainedRawEvent R) : Bool :=
  evicted.any (·.object = candidate.object)

/-- The loop over all entries: what it evicts beside the evicted ones, and the bytes left. -/
def evictGlobally (limit maxBytes : ℕ) (evicted : List (RetainedRawEvent R)) :
    List (RetainedRawEvent R) → ℕ → ℕ → List (RetainedRawEvent R) × ℕ
  | [], _, nextBytes => ([], nextBytes)
  | candidate :: rest, nextCount, nextBytes =>
    if nextCount ≤ limit && nextBytes ≤ maxBytes then ([], nextBytes)
    else if candidate.evictedFrom evicted then
      evictGlobally limit maxBytes evicted rest nextCount nextBytes
    else
      let further :=
        evictGlobally limit maxBytes evicted rest (nextCount - 1) (nextBytes - candidate.bytes)
      (candidate :: further.1, further.2)

/-- The branch of `reduceSessionRetentionMachine` that retains an entry. -/
def retainRaw (options : SessionRetentionMachineOptions) (state : SessionRetentionMachineState R A)
    (entry : RetainedRawEvent R) : SessionRetentionMachineTransition R A :=
  if !options.admits entry then { state := state, intents := [], accepted := some false }
  else
    let rawEvents := state.rawEvents ++ [entry]
    let sessionEntries := rawEvents.filter (·.sessionHandle = entry.sessionHandle)
    let shifted := shiftOldest options.rawEventLimit options.rawEventMaxBytes sessionEntries
      (tally (·.bytes) sessionEntries)
    let further := evictGlobally options.rawEventGlobalLimit options.rawEventGlobalMaxBytes shifted
      rawEvents (rawEvents.length - shifted.length)
      (tally (·.bytes) rawEvents - tally (·.bytes) shifted)
    let evicted := shifted ++ further.1
    { state :=
        { state with
          rawEvents := rawEvents.filter fun candidate => !candidate.evictedFrom evicted
          rawEventBytes := further.2 }
      intents := if evicted.isEmpty then [] else [.rawEventsEvicted evicted]
      accepted := some true }

/-- `reduceSessionRetentionMachine`. -/
def reduceSessionRetentionMachine (options : SessionRetentionMachineOptions)
    (state : SessionRetentionMachineState R A) :
    SessionRetentionMachineEvent R A → SessionRetentionMachineTransition R A
  | .touchSubscription sessionHandle =>
    { state := { state with subscriptionOrder := touch state.subscriptionOrder sessionHandle }
      intents := [] }
  | .admitSubscription sessionHandle subscribedCount candidates =>
    if subscribedCount < options.maxActiveSubscriptions then
      { state := state, intents := [], accepted := some false }
    else
      let candidate := (state.subscriptionOrder.filterMap fun handle =>
        candidates.find? (·.sessionHandle = handle)).find? fun item =>
          item.sessionHandle ≠ sessionHandle && item.evictable
      match candidate with
      | some candidate =>
        { state := state, intents := [.evictSubscription candidate.sessionHandle]
          accepted := some true }
      | none =>
        { state := state, intents := [.markProtectedOverage sessionHandle], accepted := some true }
  | .removeSubscription sessionHandle preserveAdmission =>
    let hadAdmission := (state.admissions.get? sessionHandle).isSome
    { state :=
        { state with
          subscriptionOrder := removeHandle state.subscriptionOrder sessionHandle
          protectedOverage := removeHandle state.protectedOverage sessionHandle
          admissions :=
            if preserveAdmission then state.admissions else state.admissions.erase sessionHandle }
      intents :=
        if hadAdmission && !preserveAdmission then [.admissionChanged sessionHandle none] else [] }
  | .markProtectedOverage sessionHandle subscribedCount =>
    if subscribedCount ≤ options.maxActiveSubscriptions ||
        state.protectedOverage.contains sessionHandle then { state := state, intents := [] }
    else
      { state := { state with protectedOverage := state.protectedOverage ++ [sessionHandle] }
        intents := [.markProtectedOverage sessionHandle] }
  | .clearProtectedOverage subscribedCount =>
    if subscribedCount > options.maxActiveSubscriptions || state.protectedOverage.isEmpty then
      { state := state, intents := [] }
    else
      { state := { state with protectedOverage := [] }
        intents := [.clearProtectedOverage state.protectedOverage] }
  | .setAdmission sessionHandle admission =>
    { state := { state with admissions := state.admissions.insert sessionHandle admission }
      intents := [.admissionChanged sessionHandle (some admission)] }
  | .clearAdmission sessionHandle =>
    if (state.admissions.get? sessionHandle).isSome then
      { state := { state with admissions := state.admissions.erase sessionHandle }
        intents := [.admissionChanged sessionHandle none] }
    else { state := state, intents := [] }
  | .retainRaw entry => retainRaw options state entry
  | .discardRaw sessionHandle =>
    let removed := state.rawEvents.filter (·.sessionHandle = sessionHandle)
    if removed.isEmpty then { state := state, intents := [], removed := some removed }
    else
      { state :=
          { state with
            rawEvents := state.rawEvents.filter (·.sessionHandle ≠ sessionHandle)
            rawEventBytes := state.rawEventBytes - tally (·.bytes) removed }
        intents := [], removed := some removed }
  | .reset => { state := .empty, intents := [] }

/-! ## Eviction -/

/-- The limits of a Session and of all Sessions. -/
abbrev SessionRetentionMachineOptions.SessionFits (options : SessionRetentionMachineOptions)
    (entries : List (RetainedRawEvent R)) : Prop :=
  WithinLimits (·.bytes) options.rawEventLimit options.rawEventMaxBytes entries

/-- The limits of all Sessions together. -/
abbrev SessionRetentionMachineOptions.GlobalFits (options : SessionRetentionMachineOptions)
    (entries : List (RetainedRawEvent R)) : Prop :=
  WithinLimits (·.bytes) options.rawEventGlobalLimit options.rawEventGlobalMaxBytes entries

theorem shiftOldest_eq (limit maxBytes : ℕ) (entries : List (RetainedRawEvent R)) :
    shiftOldest limit maxBytes entries (tally (·.bytes) entries) =
      oldestBeyond (·.bytes) limit maxBytes entries := by
  induction entries with
  | nil => rfl
  | cons oldest rest ih =>
    have hrest : tally (·.bytes) (oldest :: rest) - oldest.bytes = tally (·.bytes) rest := by
      rw [tally_cons]
      omega
    rw [shiftOldest, oldestBeyond, hrest, ih]
    by_cases hfits : WithinLimits (·.bytes) limit maxBytes (oldest :: rest)
    · rw [if_pos hfits, if_neg]
      simp only [Bool.or_eq_true, decide_eq_true_eq, not_or, not_lt]
      exact hfits
    · rw [if_neg hfits, if_pos]
      simp only [Bool.or_eq_true, decide_eq_true_eq]
      unfold WithinLimits at hfits
      omega

theorem evictGlobally_eq (limit maxBytes : ℕ) (evicted entries : List (RetainedRawEvent R)) :
    evictGlobally limit maxBytes evicted entries
        (entries.filter (!·.evictedFrom evicted)).length
        (tally (·.bytes) (entries.filter (!·.evictedFrom evicted))) =
      (oldestBeyond (·.bytes) limit maxBytes (entries.filter (!·.evictedFrom evicted)),
        tally (·.bytes)
          (newestWithin (·.bytes) limit maxBytes (entries.filter (!·.evictedFrom evicted)))) := by
  induction entries with
  | nil => rfl
  | cons candidate rest ih =>
    by_cases hevicted : candidate.evictedFrom evicted = true
    · rw [List.filter_cons_of_neg (by simp [hevicted]), evictGlobally, if_pos hevicted, ih]
      split
      · rename_i hfits
        simp only [Bool.and_eq_true, decide_eq_true_eq] at hfits
        have hlimits : WithinLimits (·.bytes) limit maxBytes
            (rest.filter (!·.evictedFrom evicted)) := hfits
        rw [(newestWithin_of_within hlimits).1, (newestWithin_of_within hlimits).2]
      · rfl
    · rw [List.filter_cons_of_pos (by simp [hevicted])]
      set kept := rest.filter (!·.evictedFrom evicted) with hkept
      have hcount : (candidate :: kept).length - 1 = kept.length := rfl
      have hbytes : tally (·.bytes) (candidate :: kept) - candidate.bytes =
          tally (·.bytes) kept := by
        rw [tally_cons]
        omega
      rw [evictGlobally, if_neg hevicted, hcount, hbytes, ih, oldestBeyond, newestWithin]
      by_cases hfits : WithinLimits (·.bytes) limit maxBytes (candidate :: kept)
      · rw [if_pos hfits, if_pos hfits, if_pos]
        simp only [Bool.and_eq_true, decide_eq_true_eq]
        exact hfits
      · rw [if_neg hfits, if_neg hfits, if_neg]
        simp only [Bool.and_eq_true, decide_eq_true_eq]
        exact hfits

theorem filter_evictedFrom_append {first second : List (RetainedRawEvent R)}
    (h : ((first ++ second).map (·.object)).Nodup) :
    (first ++ second).filter (!·.evictedFrom first) = second := by
  rw [List.map_append, List.nodup_append] at h
  have hfirst : first.filter (!·.evictedFrom first) = [] := by
    rw [List.filter_eq_nil_iff]
    intro entry hentry
    simp only [RetainedRawEvent.evictedFrom, Bool.not_eq_true', Bool.not_eq_false,
      List.any_eq_true, decide_eq_true_eq]
    exact ⟨entry, hentry, rfl⟩
  have hsecond : second.filter (!·.evictedFrom first) = second := by
    rw [List.filter_eq_self]
    intro entry hentry
    simp only [RetainedRawEvent.evictedFrom, Bool.not_eq_true', List.any_eq_false,
      decide_eq_true_eq]
    intro other hother heq
    exact h.2.2 _ (List.mem_map_of_mem hother) _ (List.mem_map_of_mem hentry) heq
  rw [List.filter_append, hfirst, hsecond, List.nil_append]

theorem filter_evictedFrom_twice (first second entries : List (RetainedRawEvent R)) :
    entries.filter (!·.evictedFrom (first ++ second)) =
      (entries.filter (!·.evictedFrom first)).filter (!·.evictedFrom second) := by
  rw [List.filter_filter]
  refine List.filter_congr fun entry _ => ?_
  rw [RetainedRawEvent.evictedFrom, List.any_append, Bool.not_or, Bool.and_comm]
  rfl

theorem filter_evicted {first second : List (RetainedRawEvent R)}
    (h : ((first ++ second).map (·.object)).Nodup) :
    (first ++ second).filter (·.evictedFrom first) = first := by
  rw [List.map_append, List.nodup_append] at h
  have hfirst : first.filter (·.evictedFrom first) = first := by
    rw [List.filter_eq_self]
    intro entry hentry
    simp only [RetainedRawEvent.evictedFrom, List.any_eq_true, decide_eq_true_eq]
    exact ⟨entry, hentry, rfl⟩
  have hsecond : second.filter (·.evictedFrom first) = [] := by
    rw [List.filter_eq_nil_iff]
    intro entry hentry
    simp only [RetainedRawEvent.evictedFrom, List.any_eq_true, decide_eq_true_eq, not_exists,
      not_and]
    intro other hother heq
    exact h.2.2 _ (List.mem_map_of_mem hother) _ (List.mem_map_of_mem hentry) heq
  rw [List.filter_append, hfirst, hsecond, List.append_nil]

theorem tally_filter_add (keep : RetainedRawEvent R → Bool) (entries : List (RetainedRawEvent R)) :
    tally (·.bytes) (entries.filter keep) + tally (·.bytes) (entries.filter (!keep ·)) =
      tally (·.bytes) entries := by
  induction entries with
  | nil => rfl
  | cons entry rest ih =>
    cases hkeep : keep entry with
    | true =>
      rw [List.filter_cons_of_pos hkeep, List.filter_cons_of_neg (by simp [hkeep]), tally_cons,
        tally_cons]
      omega
    | false =>
      rw [List.filter_cons_of_neg (by simp [hkeep]), List.filter_cons_of_pos (by simp [hkeep]),
        tally_cons, tally_cons]
      omega

/-- The events of a Session. -/
def eventsOf (sessionHandle : JsString) (entries : List (RetainedRawEvent R)) :
    List (RetainedRawEvent R) :=
  entries.filter (·.sessionHandle = sessionHandle)

theorem eventsOf_discarded (sessionHandle : JsString) (entries : List (RetainedRawEvent R)) :
    eventsOf sessionHandle (entries.filter (·.sessionHandle ≠ sessionHandle)) = [] := by
  rw [eventsOf, List.filter_filter, List.filter_eq_nil_iff]
  intro entry _
  simp

theorem eventsOf_other {handle sessionHandle : JsString} (h : handle ≠ sessionHandle)
    (entries : List (RetainedRawEvent R)) :
    eventsOf handle (entries.filter (·.sessionHandle ≠ sessionHandle)) =
      eventsOf handle entries := by
  rw [eventsOf, eventsOf, List.filter_filter]
  refine List.filter_congr fun entry _ => ?_
  by_cases heq : entry.sessionHandle = handle
  · simp [heq, h]
  · simp [heq]

theorem eventsOf_left {entries shifted kept : List (RetainedRawEvent R)} {sessionHandle : JsString}
    (hnodup : (entries.map (·.object)).Nodup)
    (hsplit : eventsOf sessionHandle entries = shifted ++ kept) :
    entries.filter (·.evictedFrom shifted) = shifted ∧
      eventsOf sessionHandle (entries.filter (!·.evictedFrom shifted)) = kept ∧
      ∀ handle, handle ≠ sessionHandle →
        eventsOf handle (entries.filter (!·.evictedFrom shifted)) = eventsOf handle entries := by
  have hparts : ((shifted ++ kept).map (·.object)).Nodup := by
    rw [← hsplit]
    exact hnodup.sublist (List.filter_sublist.map _)
  -- an entry of the list whose object was evicted is an evicted entry
  have hevicted : ∀ entry ∈ entries, entry.evictedFrom shifted = true → entry ∈ shifted := by
    intro entry hentry h
    simp only [RetainedRawEvent.evictedFrom, List.any_eq_true, decide_eq_true_eq] at h
    obtain ⟨other, hother, heq⟩ := h
    have hmem : other ∈ eventsOf sessionHandle entries := by
      rw [hsplit]
      exact List.mem_append_left _ hother
    rw [← List.inj_on_of_nodup_map hnodup (List.mem_of_mem_filter hmem) hentry heq]
    exact hother
  have hhandle : ∀ entry ∈ shifted, entry.sessionHandle = sessionHandle := by
    intro entry hentry
    have hmem : entry ∈ eventsOf sessionHandle entries := by
      rw [hsplit]
      exact List.mem_append_left _ hentry
    simpa using (List.mem_filter.mp hmem).2
  refine ⟨?_, ?_, fun handle hne => ?_⟩
  · calc entries.filter (·.evictedFrom shifted)
        = (eventsOf sessionHandle entries).filter (·.evictedFrom shifted) := by
          rw [eventsOf, List.filter_filter]
          refine List.filter_congr fun entry hentry => ?_
          cases h : entry.evictedFrom shifted with
          | true => simp [hhandle entry (hevicted entry hentry h)]
          | false => rfl
      _ = shifted := by rw [hsplit, filter_evicted hparts]
  · calc eventsOf sessionHandle (entries.filter (!·.evictedFrom shifted))
        = (eventsOf sessionHandle entries).filter (!·.evictedFrom shifted) := by
          rw [eventsOf, eventsOf, List.filter_comm]
      _ = kept := by rw [hsplit, filter_evictedFrom_append hparts]
  · rw [eventsOf, eventsOf, List.filter_filter]
    refine List.filter_congr fun entry hentry => ?_
    cases h : entry.evictedFrom shifted with
    | true =>
      have hother := hhandle entry (hevicted entry hentry h)
      simp [hother, Ne.symm hne]
    | false => simp

/-! ## Retaining an event -/

/-- What retaining an entry does to the entries. -/
structure Retains (options : SessionRetentionMachineOptions) (before : List (RetainedRawEvent R))
    (entry : RetainedRawEvent R) (after : SessionRetentionMachineState R A) : Prop where
  bytes : after.rawEventBytes = tally (·.bytes) after.rawEvents
  global : options.GlobalFits after.rawEvents
  session : options.SessionFits (eventsOf entry.sessionHandle after.rawEvents)
  newest : ∃ older, after.rawEvents = older ++ [entry]
  sublist : after.rawEvents.Sublist (before ++ [entry])
  suffix : ∀ handle, eventsOf handle after.rawEvents <:+ eventsOf handle (before ++ [entry])

variable {options : SessionRetentionMachineOptions} {state : SessionRetentionMachineState R A}
  {entry : RetainedRawEvent R}

theorem retainRaw_retains (hnodup : ((state.rawEvents ++ [entry]).map (·.object)).Nodup)
    (hadmits : options.admits entry = true) :
    Retains options state.rawEvents entry (retainRaw options state entry).state := by
  have hsizes := hadmits
  simp only [SessionRetentionMachineOptions.admits, Bool.and_eq_true, decide_eq_true_eq,
    ne_eq] at hsizes
  obtain ⟨⟨⟨⟨-, hsession⟩, hglobal⟩, hlimit⟩, hgloballimit⟩ := hsizes
  set entries := state.rawEvents ++ [entry] with hentries
  set shifted := oldestBeyond (·.bytes) options.rawEventLimit options.rawEventMaxBytes
    (eventsOf entry.sessionHandle entries) with hshifted
  set kept := newestWithin (·.bytes) options.rawEventLimit options.rawEventMaxBytes
    (eventsOf entry.sessionHandle entries) with hkept
  have hsplit : eventsOf entry.sessionHandle entries = shifted ++ kept :=
    (oldestBeyond_append_newestWithin _).symm
  obtain ⟨hout, hsame, hothers⟩ := eventsOf_left hnodup hsplit
  set left := entries.filter (!·.evictedFrom shifted) with hleft
  have hcount : entries.length - shifted.length = left.length := by
    have hlength : entries.length =
        (entries.filter (·.evictedFrom shifted)).length + left.length :=
      List.length_eq_length_filter_add _
    rw [hout] at hlength
    omega
  have hbytes : tally (·.bytes) entries - tally (·.bytes) shifted = tally (·.bytes) left := by
    have hweight : tally (·.bytes) (entries.filter (·.evictedFrom shifted)) +
        tally (·.bytes) left = tally (·.bytes) entries := tally_filter_add _ entries
    rw [hout] at hweight
    omega
  have hfurther : evictGlobally options.rawEventGlobalLimit options.rawEventGlobalMaxBytes
      shifted entries left.length (tally (·.bytes) left) =
        (oldestBeyond (·.bytes) options.rawEventGlobalLimit options.rawEventGlobalMaxBytes left,
          tally (·.bytes) (newestWithin (·.bytes) options.rawEventGlobalLimit
            options.rawEventGlobalMaxBytes left)) :=
    evictGlobally_eq _ _ shifted entries
  have hnodupleft : (left.map (·.object)).Nodup :=
    hnodup.sublist (List.filter_sublist.map _)
  have hglobalsplit : oldestBeyond (·.bytes) options.rawEventGlobalLimit
      options.rawEventGlobalMaxBytes left ++ newestWithin (·.bytes) options.rawEventGlobalLimit
        options.rawEventGlobalMaxBytes left = left :=
    oldestBeyond_append_newestWithin left
  set gone := oldestBeyond (·.bytes) options.rawEventGlobalLimit options.rawEventGlobalMaxBytes left
  set retained := newestWithin (·.bytes) options.rawEventGlobalLimit
    options.rawEventGlobalMaxBytes left with hretained
  have hstate : (retainRaw options state entry).state =
      { state with rawEvents := retained, rawEventBytes := tally (·.bytes) retained } := by
    have hfilter : entries.filter (!·.evictedFrom (shifted ++ gone)) = retained := by
      rw [filter_evictedFrom_twice, ← hleft, ← hglobalsplit]
      exact filter_evictedFrom_append (hglobalsplit ▸ hnodupleft)
    unfold retainRaw
    rw [if_neg (by simp [hadmits])]
    dsimp only
    have hoption : shiftOldest options.rawEventLimit options.rawEventMaxBytes
        (entries.filter (·.sessionHandle = entry.sessionHandle))
        (tally (·.bytes) (entries.filter (·.sessionHandle = entry.sessionHandle))) = shifted :=
      shiftOldest_eq _ _ _
    rw [← hentries, hoption, hcount, hbytes, hfurther, hfilter]
  have hsuffix : ∀ handle, eventsOf handle left <:+ eventsOf handle entries := by
    intro handle
    by_cases hhandle : handle = entry.sessionHandle
    · rw [hhandle, hsame, hsplit]
      exact List.suffix_append _ _
    · rw [hothers handle hhandle]
  have hkeeps : retained <:+ left := newestWithin_suffix left
  rw [hstate]
  refine ⟨rfl, newestWithin_within left, ?_, ?_, ?_, fun handle => ?_⟩
  · have hfits : options.SessionFits kept := newestWithin_within _
    refine hfits.of_sublist ?_
    rw [← hsame]
    exact (hkeeps.filter _).sublist
  · have hsingle : options.SessionFits [entry] := ⟨Nat.pos_of_ne_zero hlimit,
      by simpa using hsession⟩
    have hsingle' : options.GlobalFits [entry] := ⟨Nat.pos_of_ne_zero hgloballimit,
      by simpa using hglobal⟩
    -- the entry is the newest of its Session, so it is not shifted off
    have hlast : eventsOf entry.sessionHandle entries =
        eventsOf entry.sessionHandle state.rawEvents ++ [entry] := by
      rw [hentries, eventsOf, List.filter_append, List.filter_cons_of_pos (by simp)]
      rfl
    obtain ⟨older, -, holder⟩ :=
      newestWithin_concat (eventsOf entry.sessionHandle state.rawEvents) hsingle
    have hmem : entry ∈ left := by
      refine List.mem_of_mem_filter (p := (·.sessionHandle = entry.sessionHandle)) ?_
      have hin : entry ∈ eventsOf entry.sessionHandle left := by
        rw [hsame, hkept, hlast, holder]
        exact List.mem_append_right _ List.mem_cons_self
      exact hin
    have hnot : (!entry.evictedFrom shifted) = true := (List.mem_filter.mp hmem).2
    have hend : left = state.rawEvents.filter (!·.evictedFrom shifted) ++ [entry] := by
      have hone : [entry].filter (!·.evictedFrom shifted) = [entry] := List.filter_cons_of_pos hnot
      rw [hleft, hentries, List.filter_append, hone]
    obtain ⟨older', -, holder'⟩ :=
      newestWithin_concat (state.rawEvents.filter (!·.evictedFrom shifted)) hsingle'
    exact ⟨older', by rw [hretained, hend, holder']⟩
  · exact hkeeps.sublist.trans List.filter_sublist
  · exact (hkeeps.filter _).trans (hsuffix handle)

theorem retainRaw_accepted (hadmits : options.admits entry = true) :
    (retainRaw options state entry).accepted = some true := by
  rw [retainRaw, if_neg (by simp [hadmits])]

theorem retainRaw_rejected (state : SessionRetentionMachineState R A)
    (hadmits : ¬options.admits entry = true) :
    retainRaw options state entry =
      { state := state, intents := [], accepted := some false } := by
  rw [retainRaw, if_pos (by simp [hadmits])]

/-! ## Runs -/

/-- A run of the machine: its state, the number of the next object, and the events that were
retained since their Session was cleared (history). -/
structure RetentionRun (R A : Type) where
  machine : SessionRetentionMachineState R A
  nextObject : ℕ
  written : List (RetainedRawEvent R)

namespace RetentionRun

variable (options : SessionRetentionMachineOptions)

/-- The machine before the first event. -/
def initial : RetentionRun R A := { machine := .empty, nextObject := 0, written := [] }

/-- The event as the caller builds it: an entry is an object of its own. -/
def numbered (run : RetentionRun R A) :
    SessionRetentionMachineEvent R A → SessionRetentionMachineEvent R A
  | .retainRaw entry => .retainRaw { entry with object := run.nextObject }
  | event => event

/-- The transition for an event. -/
def transition (run : RetentionRun R A) (event : SessionRetentionMachineEvent R A) :
    SessionRetentionMachineTransition R A :=
  reduceSessionRetentionMachine options run.machine (run.numbered event)

/-- The events retained since their Session was cleared. -/
def recorded (written : List (RetainedRawEvent R)) (accepted : Option Bool) :
    SessionRetentionMachineEvent R A → List (RetainedRawEvent R)
  | .retainRaw entry => if accepted = some true then written ++ [entry] else written
  | .discardRaw sessionHandle => written.filter (·.sessionHandle ≠ sessionHandle)
  | .reset => []
  | _ => written

/-- One event. -/
def step (run : RetentionRun R A) (event : SessionRetentionMachineEvent R A) :
    RetentionRun R A where
  machine := (run.transition options event).state
  nextObject := run.nextObject + 1
  written := recorded run.written (run.transition options event).accepted (run.numbered event)

/-- The total is the sum of the sizes, the caps hold, and each Session has a suffix of its
events. -/
structure Sound (run : RetentionRun R A) : Prop where
  bytes : run.machine.rawEventBytes = tally (·.bytes) run.machine.rawEvents
  global : options.GlobalFits run.machine.rawEvents
  session : ∀ handle, options.SessionFits (eventsOf handle run.machine.rawEvents)
  suffix : ∀ handle,
    eventsOf handle run.machine.rawEvents <:+ eventsOf handle run.written
  fresh : ∀ entry ∈ run.machine.rawEvents, entry.object < run.nextObject
  distinct : (run.machine.rawEvents.map (·.object)).Nodup

variable {options} {run : RetentionRun R A}

theorem initial_sound : (initial : RetentionRun R A).Sound options where
  bytes := rfl
  global := ⟨Nat.zero_le _, Nat.zero_le _⟩
  session := fun _ => ⟨Nat.zero_le _, Nat.zero_le _⟩
  suffix := fun _ => List.suffix_rfl
  fresh := nofun
  distinct := List.nodup_nil

theorem Sound.nodup_concat (h : run.Sound options) {entry : RetainedRawEvent R}
    (hentry : entry.object = run.nextObject) :
    ((run.machine.rawEvents ++ [entry]).map (·.object)).Nodup := by
  rw [List.map_append, List.nodup_append]
  refine ⟨h.distinct, List.nodup_singleton _, ?_⟩
  rintro _ hmem object hobject heq
  obtain ⟨other, hother, rfl⟩ := List.mem_map.mp hmem
  rw [List.map_singleton, List.mem_singleton] at hobject
  have hlt := h.fresh other hother
  omega

theorem Sound.of_same (h : run.Sound options) {next : RetentionRun R A}
    (hevents : next.machine.rawEvents = run.machine.rawEvents)
    (hbytes : next.machine.rawEventBytes = run.machine.rawEventBytes)
    (hwritten : next.written = run.written) (hobject : next.nextObject = run.nextObject + 1) :
    next.Sound options where
  bytes := by rw [hbytes, hevents, h.bytes]
  global := hevents ▸ h.global
  session := hevents ▸ h.session
  suffix := by
    rw [hevents, hwritten]
    exact h.suffix
  fresh := by
    rw [hevents, hobject]
    exact fun entry hentry => Nat.lt_succ_of_lt (h.fresh entry hentry)
  distinct := hevents ▸ h.distinct

theorem step_sound (h : run.Sound options) (event : SessionRetentionMachineEvent R A) :
    (run.step options event).Sound options := by
  cases event with
  | retainRaw entry =>
    by_cases hadmits : options.admits { entry with object := run.nextObject } = true
    · have hretains := retainRaw_retains (h.nodup_concat rfl) hadmits
      have hwritten : (run.step options (.retainRaw entry)).written =
          run.written ++ [{ entry with object := run.nextObject }] :=
        if_pos (retainRaw_accepted hadmits)
      refine ⟨hretains.bytes, hretains.global, fun handle => ?_, fun handle => ?_, ?_,
        (h.nodup_concat rfl).sublist (hretains.sublist.map _)⟩
      · by_cases hhandle : handle = entry.sessionHandle
        · rw [hhandle]
          exact hretains.session
        · have hother : eventsOf handle [{ entry with object := run.nextObject }] = [] := by
            rw [eventsOf, List.filter_cons_of_neg (by simpa using Ne.symm hhandle)]
            rfl
          have hsuffix := hretains.suffix handle
          rw [eventsOf, eventsOf, List.filter_append, ← eventsOf, ← eventsOf, ← eventsOf, hother,
            List.append_nil] at hsuffix
          exact (h.session handle).of_sublist hsuffix.sublist
      · rw [hwritten]
        refine (hretains.suffix handle).trans ?_
        obtain ⟨older, holder⟩ := h.suffix handle
        refine ⟨older, ?_⟩
        rw [eventsOf, eventsOf, List.filter_append, List.filter_append, ← eventsOf, ← eventsOf,
          ← eventsOf, ← List.append_assoc, holder]
      · intro other hother
        rcases List.mem_append.mp (hretains.sublist.subset hother) with hmem | hmem
        · exact Nat.lt_succ_of_lt (h.fresh other hmem)
        · rw [List.mem_singleton.mp hmem]
          exact Nat.lt_succ_self _
    · have hrejected := retainRaw_rejected run.machine hadmits
      have hwritten : (run.step options (.retainRaw entry)).written = run.written :=
        if_neg (by
          have hno : (run.transition options (.retainRaw entry)).accepted = some false :=
            congrArg (·.accepted) hrejected
          simp [hno])
      exact h.of_same (congrArg (·.state.rawEvents) hrejected)
        (congrArg (·.state.rawEventBytes) hrejected) hwritten rfl
  | discardRaw sessionHandle =>
    have hremoved := tally_filter_add (·.sessionHandle = sessionHandle) run.machine.rawEvents
    have hkeep : (fun entry : RetainedRawEvent R => !decide (entry.sessionHandle = sessionHandle)) =
        (fun entry => decide (entry.sessionHandle ≠ sessionHandle)) := by
      funext entry
      rw [decide_not]
    obtain ⟨hevents, hbytes⟩ : (run.step options (.discardRaw sessionHandle)).machine.rawEvents =
          run.machine.rawEvents.filter (·.sessionHandle ≠ sessionHandle) ∧
        (run.step options (.discardRaw sessionHandle)).machine.rawEventBytes =
          tally (·.bytes)
            (run.machine.rawEvents.filter (·.sessionHandle ≠ sessionHandle)) := by
      rw [hkeep] at hremoved
      simp only [step, transition, numbered, reduceSessionRetentionMachine]
      split
      · rename_i hempty
        rw [List.isEmpty_iff.mp hempty, tally_nil, Nat.zero_add] at hremoved
        refine ⟨(List.filter_eq_self.mpr fun entry hentry => ?_).symm, h.bytes.trans hremoved.symm⟩
        have hnone := List.filter_eq_nil_iff.mp (List.isEmpty_iff.mp hempty) entry hentry
        simpa using hnone
      · refine ⟨rfl, ?_⟩
        show run.machine.rawEventBytes - _ = _
        rw [h.bytes]
        omega
    have hsublist : ((run.step options (.discardRaw sessionHandle)).machine.rawEvents).Sublist
        run.machine.rawEvents := by
      rw [hevents]
      exact List.filter_sublist
    refine ⟨by rw [hbytes, hevents], ?_, fun handle => ?_, fun handle => ?_, fun entry hentry => ?_,
      h.distinct.sublist (hsublist.map _)⟩
    · exact h.global.of_sublist hsublist
    · exact (h.session handle).of_sublist (hsublist.filter _)
    · rw [hevents]
      show _ <:+ eventsOf handle (run.written.filter (·.sessionHandle ≠ sessionHandle))
      by_cases hhandle : handle = sessionHandle
      · rw [hhandle, eventsOf_discarded]
        exact List.nil_suffix
      · rw [eventsOf_other hhandle, eventsOf_other hhandle]
        exact h.suffix handle
    · exact Nat.lt_succ_of_lt (h.fresh entry (hsublist.subset hentry))
  | reset =>
    exact ⟨rfl, ⟨Nat.zero_le _, Nat.zero_le _⟩, fun _ => ⟨Nat.zero_le _, Nat.zero_le _⟩,
      fun _ => List.suffix_rfl, nofun, List.nodup_nil⟩
  | _ =>
    refine h.of_same ?_ ?_ rfl rfl
    all_goals simp only [step, transition, numbered, reduceSessionRetentionMachine]
    all_goals repeat' split
    all_goals rfl

theorem run_sound (options : SessionRetentionMachineOptions)
    (events : List (SessionRetentionMachineEvent R A)) :
    (runFrom (step options) initial events).Sound options :=
  runFrom_invariant (I := Sound options) (fun _ event h => step_sound h event) events initial_sound

theorem Sound.newest (h : run.Sound options) {entry : RetainedRawEvent R}
    (haccepted : (run.transition options (.retainRaw entry)).accepted = some true) :
    ∃ older, (run.step options (.retainRaw entry)).machine.rawEvents =
      older ++ [{ entry with object := run.nextObject }] := by
  by_cases hadmits : options.admits { entry with object := run.nextObject } = true
  · exact (retainRaw_retains (h.nodup_concat rfl) hadmits).newest
  · have hno : (run.transition options (.retainRaw entry)).accepted = some false :=
      congrArg (·.accepted) (retainRaw_rejected run.machine hadmits)
    rw [hno] at haccepted
    cases haccepted

variable (options)

/-- After every run the total is the sum of the sizes, all caps hold, each Session has a suffix of
the events that were retained since it was cleared, and the next event is accepted exactly if it
fits the caps alone, and is then retained as the newest one; one that is refused changes nothing. -/
theorem retained_newest_within_caps (events : List (SessionRetentionMachineEvent R A)) :
    let run := runFrom (step options) initial events
    run.machine.rawEventBytes = tally (·.bytes) run.machine.rawEvents ∧
      (run.machine.rawEvents.length ≤ options.rawEventGlobalLimit ∧
        tally (·.bytes) run.machine.rawEvents ≤ options.rawEventGlobalMaxBytes) ∧
      (∀ handle, (eventsOf handle run.machine.rawEvents).length ≤ options.rawEventLimit ∧
        tally (·.bytes) (eventsOf handle run.machine.rawEvents) ≤ options.rawEventMaxBytes) ∧
      (∀ handle, eventsOf handle run.machine.rawEvents <:+ eventsOf handle run.written) ∧
      ∀ entry : RetainedRawEvent R,
        (run.transition options (.retainRaw entry)).accepted = some (options.admits entry) ∧
        (options.admits entry = true →
          ∃ older, (run.step options (.retainRaw entry)).machine.rawEvents =
            older ++ [{ entry with object := run.nextObject }]) ∧
        (options.admits entry = false →
          (run.step options (.retainRaw entry)).machine = run.machine) := by
  intro run
  have h : run.Sound options := run_sound options events
  have hrefuses (entry : RetainedRawEvent R) (hrefused : options.admits entry = false) :
      run.transition options (.retainRaw entry) =
        { state := run.machine, intents := [], accepted := some false } :=
    retainRaw_rejected run.machine (Bool.eq_false_iff.mp hrefused)
  refine ⟨h.bytes, h.global, h.session, h.suffix, fun entry => ⟨?_, fun hadmits => ?_,
    fun hrefused => congrArg (·.state) (hrefuses entry hrefused)⟩⟩
  · cases hadmits : options.admits entry with
    | true => exact retainRaw_accepted hadmits
    | false => exact congrArg (·.accepted) (hrefuses entry hadmits)
  · exact h.newest (retainRaw_accepted hadmits)

/-- Four events of two Sessions, where a Session keeps two and all keep three: the first is evicted,
and a further one is accepted and is then the newest. -/
theorem retained_newest_within_caps_sample :
    let entry (handle : JsString) : RetainedRawEvent ℕ := ⟨0, [], handle, 0, 3⟩
    let options : SessionRetentionMachineOptions := ⟨2, 2, 10, 3, 9⟩
    let run : RetentionRun ℕ ℕ := runFrom (step options) initial
      [.retainRaw (entry [1]), .retainRaw (entry [2]), .retainRaw (entry [1]),
        .retainRaw (entry [1])]
    run.machine.rawEvents.map (·.object) = [1, 2, 3] ∧
      (run.transition options (.retainRaw (entry [2]))).accepted = some true ∧
      ∃ older, (run.step options (.retainRaw (entry [2]))).machine.rawEvents =
        older ++ [{ entry [2] with object := 4 }] := by
  intro entry options run
  obtain ⟨-, -, -, -, hlater⟩ := retained_newest_within_caps (A := ℕ) options
    [.retainRaw (entry [1]), .retainRaw (entry [2]), .retainRaw (entry [1]),
      .retainRaw (entry [1])]
  obtain ⟨haccepts, hnewest, -⟩ := hlater (entry [2])
  exact ⟨by decide, haccepts, hnewest (by decide)⟩

end RetentionRun

end PiAgentWeb
