import PiAgentWeb.UI.OlderHistoryPages

/-!
# Runs of the older history pages

What every call preserves: a live operation is the one its Session has, a history stands at the
cursor of its live operation, and the pages delivered since a history was put in place follow its
cursor as far as they were counted. An operation that is gone has no effect any more.
-/

namespace PiAgentWeb

/-- The pages follow a cursor, which a counted page moves to its own end. -/
def FollowsCursor : Option JsString → List PageDelivery → Option JsString → Prop
  | cursor, [], last => last = cursor
  | cursor, page :: pages, last =>
    page.cursor = cursor ∧
      FollowsCursor (if page.counted then page.nextCursor else cursor) pages last

theorem followsCursor_concat {cursor last : Option JsString} {pages : List PageDelivery}
    {page : PageDelivery} : FollowsCursor cursor (pages ++ [page]) last ↔
      FollowsCursor cursor pages page.cursor ∧
        last = if page.counted then page.nextCursor else page.cursor := by
  induction pages generalizing cursor with
  | nil =>
    simp only [List.nil_append, FollowsCursor]
    constructor
    · rintro ⟨rfl, h⟩
      exact ⟨rfl, h⟩
    · rintro ⟨rfl, h⟩
      exact ⟨rfl, h⟩
  | cons first rest ih => simp only [List.cons_append, FollowsCursor, ih, and_assoc]

namespace PageChannel

/-- What the counted pages add up to. -/
def countedSum (channel : PageChannel) (measure : PageDelivery → ℕ) : ℕ :=
  ((channel.deliveries.filter (·.counted)).map measure).sum

/-- The pages of a history are in order: each was asked for at the cursor that the counted pages
before it left, no operation delivered two, and the counters are those of the counted ones. -/
structure InOrder (channel : PageChannel) : Prop where
  cursors : FollowsCursor channel.adopted.nextCursor channel.deliveries channel.history.nextCursor
  once : (channel.deliveries.map (·.operation)).Nodup
  messages : channel.history.loadedMessages =
    channel.adopted.loadedMessages + channel.countedSum (·.itemCount)
  bytes : channel.history.loadedBytes =
    channel.adopted.loadedBytes + channel.countedSum (·.byteCount)

theorem InOrder.congr {channel channel' : PageChannel} (h : channel.InOrder)
    (hadopted : channel'.adopted = channel.adopted)
    (hdeliveries : channel'.deliveries = channel.deliveries)
    (hcursor : channel'.history.nextCursor = channel.history.nextCursor)
    (hmessages : channel'.history.loadedMessages = channel.history.loadedMessages)
    (hbytes : channel'.history.loadedBytes = channel.history.loadedBytes) : channel'.InOrder where
  cursors := by
    rw [hadopted, hdeliveries, hcursor]
    exact h.cursors
  once := by
    rw [hdeliveries]
    exact h.once
  messages := by
    rw [hmessages, hadopted, countedSum, hdeliveries]
    exact h.messages
  bytes := by
    rw [hbytes, hadopted, countedSum, hdeliveries]
    exact h.bytes

theorem InOrder.deliver {channel : PageChannel} (h : channel.InOrder) (page : PageDelivery)
    (hcursor : page.cursor = channel.history.nextCursor) (hcounted : page.counted = false)
    (hnew : ∀ other ∈ channel.deliveries, other.operation ≠ page.operation) :
    InOrder { channel with deliveries := channel.deliveries ++ [page] } where
  cursors := by
    refine followsCursor_concat.mpr ⟨?_, ?_⟩
    · rw [hcursor]
      exact h.cursors
    · simp [hcounted, hcursor]
  once := by
    rw [List.map_append, List.map_cons, List.map_nil, List.nodup_append]
    refine ⟨h.once, List.nodup_singleton _, ?_⟩
    intro a ha b hb
    obtain ⟨other, hother, rfl⟩ := List.mem_map.mp ha
    rw [List.mem_singleton.mp hb]
    exact hnew other hother
  messages := by simpa [countedSum, List.filter_append, hcounted] using h.messages
  bytes := by simpa [countedSum, List.filter_append, hcounted] using h.bytes

theorem map_count_of_ne {pages : List PageDelivery} {n : ℕ}
    (h : ∀ page ∈ pages, page.operation ≠ n) : pages.map (·.count n) = pages := by
  refine (List.map_congr_left fun page hpage => ?_).trans (List.map_id pages)
  rw [PageDelivery.count, if_neg (h page hpage), id]

theorem InOrder.count {channel : PageChannel} (h : channel.InOrder) {pages : List PageDelivery}
    {page : PageDelivery} (hpages : channel.deliveries = pages ++ [page])
    (hcounted : page.counted = false) {history : SessionHistoryState}
    (hcursor : history.nextCursor = page.nextCursor)
    (hmessages : history.loadedMessages = channel.history.loadedMessages + page.itemCount)
    (hbytes : history.loadedBytes = channel.history.loadedBytes + page.byteCount) :
    InOrder { channel with
      history := history
      deliveries := channel.deliveries.map (·.count page.operation) } := by
  have honce := h.once
  rw [hpages, List.map_append, List.map_cons, List.map_nil, List.nodup_append] at honce
  have hothers : ∀ other ∈ pages, other.operation ≠ page.operation := fun other hother =>
    honce.2.2 _ (List.mem_map_of_mem hother) _ (List.mem_singleton_self _)
  have hmap : channel.deliveries.map (·.count page.operation) =
      pages ++ [{ page with counted := true }] := by
    rw [hpages, List.map_append, map_count_of_ne hothers]
    simp [PageDelivery.count]
  have hcursors := h.cursors
  rw [hpages, followsCursor_concat] at hcursors
  have hsum : ∀ measure : PageDelivery → ℕ,
      channel.countedSum measure = ((pages.filter (·.counted)).map measure).sum := by
    intro measure
    simp [countedSum, hpages, List.filter_append, hcounted]
  constructor
  · rw [hmap]
    refine followsCursor_concat.mpr ⟨hcursors.1, ?_⟩
    simpa using hcursor
  · rw [hmap]
    simpa [List.nodup_append] using honce
  · have hold := h.messages
    rw [hsum] at hold
    simp only [countedSum, hmap, List.filter_append, List.map_append, List.sum_append]
    simp only [hmessages, hold, List.filter_cons, List.filter_nil, if_true, List.map_cons,
      List.map_nil, List.sum_cons, List.sum_nil]
    omega
  · have hold := h.bytes
    rw [hsum] at hold
    simp only [countedSum, hmap, List.filter_append, List.map_append, List.sum_append]
    simp only [hbytes, hold, List.filter_cons, List.filter_nil, if_true, List.map_cons,
      List.map_nil, List.sum_cons, List.sum_nil]
    omega

end PageChannel

namespace OlderHistoryPages

variable {s s' : OlderHistoryPages} {n m : ℕ} {operation : PageOperation}
  {sessionHandle : JsString}

/-! ## The store -/

@[simp] theorem changeChannel_operations (change : PageChannel → PageChannel) :
    (s.changeChannel sessionHandle change).operations = s.operations := by
  unfold changeChannel
  split <;> rfl

@[simp] theorem changeChannel_all (change : PageChannel → PageChannel) :
    (s.changeChannel sessionHandle change).all = s.all := by
  unfold changeChannel
  split <;> rfl

@[simp] theorem changeChannel_disposed (change : PageChannel → PageChannel) :
    (s.changeChannel sessionHandle change).disposed = s.disposed := by
  unfold changeChannel
  split <;> rfl

@[simp] theorem changeChannel_calls (change : PageChannel → PageChannel) :
    (s.changeChannel sessionHandle change).calls = s.calls := by
  unfold changeChannel
  split <;> rfl

@[simp] theorem changeChannel_log (change : PageChannel → PageChannel) :
    (s.changeChannel sessionHandle change).log = s.log := by
  unfold changeChannel
  split <;> rfl

theorem get?_changeChannel (change : PageChannel → PageChannel) (other : JsString) :
    (s.changeChannel sessionHandle change).channels.get? other =
      if other = sessionHandle then (s.channels.get? other).map change
      else s.channels.get? other := by
  unfold changeChannel
  split
  · rename_i channel hchannel
    rw [InsertionMap.get?_insert]
    by_cases h : other = sessionHandle
    · rw [if_pos h, if_pos h, h, hchannel, Option.map_some]
    · rw [if_neg h, if_neg h]
  · rename_i hchannel
    by_cases h : other = sessionHandle
    · rw [if_pos h, h, hchannel, Option.map_none]
    · rw [if_neg h]

theorem of_get?_changeChannel {change : PageChannel → PageChannel} {other : JsString}
    {channel : PageChannel}
    (h : (s.changeChannel sessionHandle change).channels.get? other = some channel) :
    (other ≠ sessionHandle ∧ s.channels.get? other = some channel) ∨
      (other = sessionHandle ∧
        ∃ old, s.channels.get? sessionHandle = some old ∧ channel = change old) := by
  rw [get?_changeChannel] at h
  by_cases hother : other = sessionHandle
  · rw [if_pos hother] at h
    obtain ⟨old, hold, rfl⟩ := Option.map_eq_some_iff.mp h
    exact .inr ⟨hother, old, hother ▸ hold, rfl⟩
  · rw [if_neg hother] at h
    exact .inl ⟨hother, h⟩

/-- The fence that a history of a Session has. -/
def fenceOf (s : OlderHistoryPages) (sessionHandle : JsString) : Option HistoryFence :=
  (s.channels.get? sessionHandle).map (·.fence)

theorem fenceOf_changeChannel {change : PageChannel → PageChannel}
    (hchange : ∀ channel, (change channel).fence = channel.fence) (other : JsString) :
    (s.changeChannel sessionHandle change).fenceOf other = s.fenceOf other := by
  rw [fenceOf, get?_changeChannel, fenceOf]
  by_cases h : other = sessionHandle
  · rw [if_pos h]
    cases s.channels.get? other with
    | none => rfl
    | some channel => exact congrArg some (hchange channel)
  · rw [if_neg h]

theorem matchingContext_isSome : (s.matchingContext operation).isSome = true ↔
    s.fenceOf operation.sessionHandle = some operation.context.fence := by
  unfold matchingContext context fenceOf
  cases s.channels.get? operation.sessionHandle with
  | none => simp
  | some channel =>
    simp only [Option.map_some, PageChannel.context]
    by_cases h : channel.fence = operation.context.fence <;> simp [h]

theorem fenceOf_of_readyFor (h : s.readyFor operation = true) :
    s.fenceOf operation.sessionHandle = some operation.context.fence := by
  refine matchingContext_isSome.mp ?_
  cases hcontext : s.matchingContext operation with
  | none => simp [readyFor, hcontext] at h
  | some _ => rfl

/-! ## Operations that are gone -/

/-- An operation that was cancelled or ended, or whose Session has another history now. -/
def Gone (s : OlderHistoryPages) (n : ℕ) : Prop :=
  ∃ operation, s.all[n]? = some operation ∧
    (operation.aborted = true ∨
      s.fenceOf operation.sessionHandle ≠ some operation.context.fence)

/-- What no call undoes: operations stay with what they are fenced by, none is revived, and the
histories keep their fences. -/
structure Keeps (s s' : OlderHistoryPages) : Prop where
  operations : ∀ (n : ℕ) (operation : PageOperation), s.all[n]? = some operation →
    ∃ operation' : PageOperation, s'.all[n]? = some operation' ∧
      operation'.context = operation.context ∧
        (operation.aborted = true → operation'.aborted = true)
  fences : ∀ sessionHandle, s'.fenceOf sessionHandle = s.fenceOf sessionHandle

/-- The events of a step are those of operations that are not gone. -/
structure Silent (s s' : OlderHistoryPages) : Prop where
  gone : ∀ n, Gone s n → Gone s' n
  log : ∃ events, s'.log = s.log ++ events ∧ ∀ event ∈ events, ¬ Gone s event.operation

theorem Silent.refl (s : OlderHistoryPages) : Silent s s :=
  ⟨fun _ h => h, [], (List.append_nil _).symm, nofun⟩

theorem Silent.trans {s'' : OlderHistoryPages} (h : Silent s s') (h' : Silent s' s'') :
    Silent s s'' := by
  obtain ⟨events, hlog, hevents⟩ := h.log
  obtain ⟨events', hlog', hevents'⟩ := h'.log
  refine ⟨fun n hn => h'.gone n (h.gone n hn), events ++ events', ?_, ?_⟩
  · rw [hlog', hlog, List.append_assoc]
  · intro event hevent
    rcases List.mem_append.mp hevent with hevent | hevent
    · exact hevents event hevent
    · exact fun hgone => hevents' event hevent (h.gone _ hgone)

theorem Keeps.gone (h : Keeps s s') (hgone : Gone s n) : Gone s' n := by
  obtain ⟨operation, hoperation, hgone⟩ := hgone
  obtain ⟨operation', hoperation', hcontext, haborted⟩ := h.operations n operation hoperation
  refine ⟨operation', hoperation', hgone.imp haborted fun hfence => ?_⟩
  rw [PageOperation.sessionHandle, hcontext, h.fences]
  exact hfence

theorem Keeps.trans {s'' : OlderHistoryPages} (h : Keeps s s') (h' : Keeps s' s'') :
    Keeps s s'' where
  operations := by
    intro n operation hoperation
    obtain ⟨operation', hoperation', hcontext, haborted⟩ := h.operations n operation hoperation
    obtain ⟨operation'', hoperation'', hcontext', haborted'⟩ :=
      h'.operations n operation' hoperation'
    exact ⟨operation'', hoperation'', hcontext'.trans hcontext, haborted' ∘ haborted⟩
  fences := fun sessionHandle => (h'.fences sessionHandle).trans (h.fences sessionHandle)

theorem Keeps.silent (h : Keeps s s') (hlog : s'.log = s.log) : Silent s s' :=
  ⟨fun _ => h.gone, [], by rw [hlog, List.append_nil], nofun⟩

theorem Keeps.silent_note (h : Keeps s s') (event : PageEvent) (hlog : s'.log = s.log ++ [event])
    (hgone : ¬ Gone s event.operation) : Silent s s' := by
  refine ⟨fun _ => h.gone, [event], hlog, fun other hother => ?_⟩
  rw [List.mem_singleton.mp hother]
  exact hgone

theorem not_gone (hoperation : s.all[n]? = some operation) (hlive : operation.aborted = false)
    (hfence : s.fenceOf operation.sessionHandle = some operation.context.fence) : ¬ Gone s n := by
  rintro ⟨operation', hoperation', hgone⟩
  obtain rfl : operation = operation' := Option.some.inj (hoperation.symm.trans hoperation')
  rcases hgone with hgone | hgone
  · exact absurd (hlive.symm.trans hgone) (by decide)
  · exact hgone hfence

theorem keeps_of_all (hall : s'.all = s.all)
    (hfences : ∀ sessionHandle, s'.fenceOf sessionHandle = s.fenceOf sessionHandle) :
    Keeps s s' :=
  ⟨fun _ operation h => ⟨operation, hall ▸ h, rfl, id⟩, hfences⟩

/-! ## The invariant -/

/-- What holds between two actions. -/
structure Sound (s : OlderHistoryPages) : Prop where
  entries : ∀ sessionHandle n, s.operations.get? sessionHandle = some n →
    ∃ operation : PageOperation, s.all[n]? = some operation ∧ operation.aborted = false ∧
      operation.sessionHandle = sessionHandle
  live : ∀ (n : ℕ) (operation : PageOperation), s.all[n]? = some operation →
    operation.aborted = false → s.operations.get? operation.sessionHandle = some n
  closed : s.disposed = true → ∀ sessionHandle, s.operations.get? sessionHandle = none
  own : ∀ sessionHandle channel, s.channels.get? sessionHandle = some channel →
    channel.fence.identity.sessionHandle = sessionHandle
  current : ∀ (n : ℕ) (operation : PageOperation), s.all[n]? = some operation →
    operation.aborted = false → ∀ channel : PageChannel,
      s.channels.get? operation.sessionHandle = some channel →
        channel.fence = operation.context.fence →
          channel.history.nextCursor = operation.context.nextCursor
  order : ∀ sessionHandle channel, s.channels.get? sessionHandle = some channel → channel.InOrder
  settled : ∀ sessionHandle channel, s.channels.get? sessionHandle = some channel →
    ∀ page ∈ channel.deliveries, ∃ operation : PageOperation,
      s.all[page.operation]? = some operation ∧ operation.stage = .settled
  pending : ∀ n completed, .delivering n completed ∈ s.calls →
    ∀ operation : PageOperation, s.all[n]? = some operation → operation.aborted = false →
      ∀ channel : PageChannel, s.channels.get? operation.sessionHandle = some channel →
        channel.fence = operation.context.fence →
          ∃ pages, channel.deliveries = pages ++ [.of n operation completed]
  called : ∀ n completed, .delivering n completed ∈ s.calls →
    ∃ operation : PageOperation, s.all[n]? = some operation ∧ operation.stage = .settled

theorem Sound.eq_of_sessionHandle (h : Sound s) {other : PageOperation}
    (hoperation : s.all[n]? = some operation) (hlive : operation.aborted = false)
    (hother : s.all[m]? = some other) (hlive' : other.aborted = false)
    (hhandle : other.sessionHandle = operation.sessionHandle) : m = n := by
  have hn := h.live n operation hoperation hlive
  have hm := h.live m other hother hlive'
  rw [hhandle, hn] at hm
  exact (Option.some.inj hm).symm

theorem of_owned (h : s.owned n operation = true) :
    s.disposed = false ∧ (∃ current : PageOperation, s.all[n]? = some current ∧
      current.aborted = false) ∧ s.operations.get? operation.sessionHandle = some n := by
  simp only [owned, Bool.and_eq_true, Bool.not_eq_true', decide_eq_true_eq] at h
  obtain ⟨⟨hdisposed, hany⟩, hentry⟩ := h
  cases hcurrent : s.all[n]? with
  | none => simp [hcurrent] at hany
  | some current => exact ⟨hdisposed, ⟨current, rfl, by simpa [hcurrent] using hany⟩, hentry⟩

theorem Sound.retire (h : Sound s)
    (hback : ∀ (m : ℕ) (operation' : PageOperation), s'.all[m]? = some operation' →
      operation'.aborted = false → ∃ operation : PageOperation, s.all[m]? = some operation ∧
        operation.aborted = false ∧ operation'.context = operation.context)
    (hsettled : ∀ (m : ℕ) (operation : PageOperation), s.all[m]? = some operation →
      operation.stage = .settled → ∃ operation' : PageOperation,
        s'.all[m]? = some operation' ∧ operation'.stage = .settled)
    (hchannels : s'.channels = s.channels)
    (hcalls : ∀ n completed, .delivering n completed ∈ s'.calls → .delivering n completed ∈ s.calls)
    (hentries : ∀ sessionHandle n, s'.operations.get? sessionHandle = some n →
      ∃ operation : PageOperation, s'.all[n]? = some operation ∧ operation.aborted = false ∧
        operation.sessionHandle = sessionHandle)
    (hlive : ∀ (n : ℕ) (operation : PageOperation), s'.all[n]? = some operation →
      operation.aborted = false → s'.operations.get? operation.sessionHandle = some n)
    (hclosed : s'.disposed = true → ∀ sessionHandle, s'.operations.get? sessionHandle = none) :
    Sound s' where
  entries := hentries
  live := hlive
  closed := hclosed
  own := by
    rw [hchannels]
    exact h.own
  current := by
    intro m operation' hoperation' halive channel hchannel hfence
    obtain ⟨operation, hoperation, halive, hcontext⟩ := hback m operation' hoperation' halive
    rw [PageOperation.sessionHandle, hcontext, hchannels] at hchannel
    rw [hcontext] at hfence ⊢
    exact h.current m operation hoperation halive channel hchannel hfence
  order := by
    rw [hchannels]
    exact h.order
  settled := by
    intro sessionHandle channel hchannel page hpage
    rw [hchannels] at hchannel
    obtain ⟨operation, hoperation, hstage⟩ := h.settled sessionHandle channel hchannel page hpage
    exact hsettled _ operation hoperation hstage
  pending := by
    intro m completed hcall operation' hoperation' halive channel hchannel hfence
    obtain ⟨operation, hoperation, halive, hcontext⟩ := hback m operation' hoperation' halive
    rw [PageOperation.sessionHandle, hcontext, hchannels] at hchannel
    rw [hcontext] at hfence
    rw [PageDelivery.of, hcontext]
    exact h.pending m completed (hcalls m completed hcall) operation hoperation halive channel
      hchannel hfence
  called := by
    intro m completed hcall
    obtain ⟨operation, hoperation, hstage⟩ := h.called m completed (hcalls m completed hcall)
    exact hsettled m operation hoperation hstage

theorem Sound.recall (h : Sound s) {calls : List PageCall}
    (hcalls : ∀ n completed, .delivering n completed ∈ calls → .delivering n completed ∈ s.calls) :
    Sound { s with calls := calls } :=
  h.retire (fun _ operation hoperation halive => ⟨operation, hoperation, halive, rfl⟩)
    (fun _ operation hoperation hstage => ⟨operation, hoperation, hstage⟩) rfl hcalls
    h.entries h.live h.closed

theorem of_getElem?_set {A : Type*} {l : List A} {i j : ℕ} {a b : A}
    (h : (l.set i a)[j]? = some b) : (i = j ∧ b = a) ∨ (i ≠ j ∧ l[j]? = some b) := by
  rw [List.getElem?_set] at h
  by_cases hij : i = j
  · rw [if_pos hij] at h
    split at h
    · exact .inl ⟨hij, (Option.some.inj h).symm⟩
    · cases h
  · rw [if_neg hij] at h
    exact .inr ⟨hij, h⟩

/-- The state with an operation that has come further. -/
def setOperation (s : OlderHistoryPages) (n : ℕ) (operation : PageOperation) :
    OlderHistoryPages :=
  { s with all := s.all.set n operation }

theorem getElem?_setOperation_self (hoperation : s.all[n]? = some operation)
    (next : PageOperation) : (s.setOperation n next).all[n]? = some next := by
  obtain ⟨hlt, _⟩ := List.getElem?_eq_some_iff.mp hoperation
  exact List.getElem?_set_self hlt

theorem Sound.setOperation (h : Sound s) (hoperation : s.all[n]? = some operation)
    {next : PageOperation} (hcontext : next.context = operation.context)
    (haborted : next.aborted = operation.aborted)
    (hstage : operation.stage = .settled → next.stage = .settled) :
    Sound (s.setOperation n next) := by
  have hhandle : next.sessionHandle = operation.sessionHandle := by
    rw [PageOperation.sessionHandle, hcontext, PageOperation.sessionHandle]
  refine h.retire ?_ ?_ rfl (fun _ _ hcall => hcall) ?_ ?_ h.closed
  · intro m other hother halive
    rcases of_getElem?_set hother with ⟨rfl, rfl⟩ | ⟨_, hother⟩
    · exact ⟨operation, hoperation, haborted ▸ halive, hcontext⟩
    · exact ⟨other, hother, halive, rfl⟩
  · intro m other hother hsettled
    by_cases hmn : m = n
    · subst hmn
      obtain rfl : operation = other := Option.some.inj (hoperation.symm.trans hother)
      exact ⟨next, getElem?_setOperation_self hoperation next, hstage hsettled⟩
    · exact ⟨other, (List.getElem?_set_ne (Ne.symm hmn)).trans hother, hsettled⟩
  · intro sessionHandle m hentry
    obtain ⟨other, hother, halive, hown⟩ := h.entries sessionHandle m hentry
    by_cases hmn : m = n
    · subst hmn
      obtain rfl : operation = other := Option.some.inj (hoperation.symm.trans hother)
      exact ⟨next, getElem?_setOperation_self hoperation next, haborted.trans halive,
        hhandle.trans hown⟩
    · exact ⟨other, (List.getElem?_set_ne (Ne.symm hmn)).trans hother, halive, hown⟩
  · intro m other hother halive
    rcases of_getElem?_set hother with ⟨rfl, rfl⟩ | ⟨_, hother⟩
    · rw [hhandle]
      exact h.live n operation hoperation (haborted ▸ halive)
    · exact h.live m other hother halive

theorem keeps_setOperation (hoperation : s.all[n]? = some operation) {next : PageOperation}
    (hcontext : next.context = operation.context)
    (haborted : next.aborted = operation.aborted) : Keeps s (s.setOperation n next) where
  operations := by
    intro m other hother
    by_cases hmn : m = n
    · subst hmn
      obtain rfl : operation = other := Option.some.inj (hoperation.symm.trans hother)
      exact ⟨next, getElem?_setOperation_self hoperation next, hcontext, haborted.trans⟩
    · refine ⟨other, ?_, rfl, id⟩
      rw [setOperation, List.getElem?_set_ne (Ne.symm hmn)]
      exact hother
  fences := fun _ => rfl

/-! ## An operation ends -/

theorem getElem?_remove (other : ℕ) : (s.remove n operation).all[other]? =
    (s.all[other]?).map fun current =>
      if n = other then { current with aborted := true } else current := by
  rw [remove, List.getElem?_modify]
  rfl

theorem get?_remove (other : JsString) : (s.remove n operation).operations.get? other =
    if other = operation.sessionHandle ∧ s.operations.get? other = some n then none
    else s.operations.get? other := by
  rw [remove]
  by_cases hentry : s.operations.get? operation.sessionHandle = some n
  · rw [if_pos hentry, InsertionMap.get?_erase]
    by_cases hother : other = operation.sessionHandle
    · rw [if_pos hother, if_pos ⟨hother, by rw [hother]; exact hentry⟩]
    · rw [if_neg hother, if_neg fun h => hother h.1]
  · rw [if_neg hentry, if_neg]
    rintro ⟨rfl, h⟩
    exact hentry h

theorem keeps_remove (s : OlderHistoryPages) (n : ℕ) (operation : PageOperation) :
    Keeps s (s.remove n operation) where
  operations := by
    intro m other hother
    rw [getElem?_remove, hother, Option.map_some]
    refine ⟨_, rfl, ?_, ?_⟩
    · split <;> rfl
    · intro haborted
      split
      · rfl
      · exact haborted
  fences := fun _ => rfl

theorem Sound.remove (h : Sound s) (hoperation : s.all[n]? = some operation) :
    Sound (s.remove n operation) := by
  refine h.retire ?_ ?_ rfl (fun _ _ hcall => hcall) ?_ ?_ ?_
  · intro m other hother halive
    rw [getElem?_remove] at hother
    obtain ⟨current, hcurrent, rfl⟩ := Option.map_eq_some_iff.mp hother
    by_cases hnm : n = m
    · rw [if_pos hnm] at halive
      cases halive
    · rw [if_neg hnm] at halive ⊢
      exact ⟨current, hcurrent, halive, rfl⟩
  · intro m other hother hstage
    rw [getElem?_remove, hother, Option.map_some]
    refine ⟨_, rfl, ?_⟩
    split <;> exact hstage
  · intro sessionHandle m hentry
    rw [get?_remove] at hentry
    split at hentry
    · cases hentry
    · rename_i hother
      obtain ⟨other, hm, halive, hown⟩ := h.entries sessionHandle m hentry
      have hnm : n ≠ m := by
        rintro rfl
        obtain rfl : operation = other := Option.some.inj (hoperation.symm.trans hm)
        exact hother ⟨hown.symm, hentry⟩
      exact ⟨other, by rw [getElem?_remove, hm, Option.map_some, if_neg hnm], halive, hown⟩
  · intro m other hother halive
    rw [getElem?_remove] at hother
    obtain ⟨current, hcurrent, rfl⟩ := Option.map_eq_some_iff.mp hother
    by_cases hnm : n = m
    · rw [if_pos hnm] at halive
      cases halive
    · rw [if_neg hnm] at halive ⊢
      have hentry := h.live m current hcurrent halive
      rw [get?_remove, if_neg]
      · exact hentry
      · rintro ⟨_, hn⟩
        exact hnm (Option.some.inj (hn.symm.trans hentry))
  · intro hdisposed sessionHandle
    rw [get?_remove, h.closed hdisposed sessionHandle]
    split <;> rfl

theorem dead_of_remove (h : Sound s) (hentry : s.operations.get? operation.sessionHandle = some n)
    {other : PageOperation} (hother : (s.remove n operation).all[m]? = some other)
    (halive : other.aborted = false) : other.sessionHandle ≠ operation.sessionHandle := by
  intro hhandle
  rw [getElem?_remove] at hother
  obtain ⟨current, hcurrent, rfl⟩ := Option.map_eq_some_iff.mp hother
  by_cases hnm : n = m
  · rw [if_pos hnm] at halive
    cases halive
  · rw [if_neg hnm] at halive hhandle
    have hm := h.live m current hcurrent halive
    rw [hhandle, hentry] at hm
    exact hnm (Option.some.inj hm)

/-! ## A channel changes -/

/-- A change of a channel that the pages do not notice. -/
structure Touches (change : PageChannel → PageChannel) : Prop where
  fence : ∀ channel, (change channel).fence = channel.fence
  adopted : ∀ channel, (change channel).adopted = channel.adopted
  deliveries : ∀ channel, (change channel).deliveries = channel.deliveries
  nextCursor : ∀ channel, (change channel).history.nextCursor = channel.history.nextCursor
  messages : ∀ channel, (change channel).history.loadedMessages = channel.history.loadedMessages
  bytes : ∀ channel, (change channel).history.loadedBytes = channel.history.loadedBytes

theorem Sound.touch (h : Sound s) {change : PageChannel → PageChannel} (hchange : Touches change) :
    Sound (s.changeChannel sessionHandle change) where
  entries := by simpa using h.entries
  live := by simpa using h.live
  closed := by simpa using h.closed
  own := by
    intro other channel hchannel
    rcases of_get?_changeChannel hchannel with ⟨_, hchannel⟩ | ⟨rfl, old, hold, rfl⟩
    · exact h.own other channel hchannel
    · rw [hchange.fence]
      exact h.own other old hold
  current := by
    intro m other hother halive channel hchannel hfence
    rw [changeChannel_all] at hother
    rcases of_get?_changeChannel hchannel with ⟨_, hchannel⟩ | ⟨rfl, old, hold, rfl⟩
    · exact h.current m other hother halive channel hchannel hfence
    · rw [hchange.nextCursor]
      exact h.current m other hother halive old hold (by rwa [hchange.fence] at hfence)
  order := by
    intro other channel hchannel
    rcases of_get?_changeChannel hchannel with ⟨_, hchannel⟩ | ⟨rfl, old, hold, rfl⟩
    · exact h.order other channel hchannel
    · exact (h.order other old hold).congr (hchange.adopted old) (hchange.deliveries old)
        (hchange.nextCursor old) (hchange.messages old) (hchange.bytes old)
  settled := by
    intro other channel hchannel page hpage
    rw [changeChannel_all]
    rcases of_get?_changeChannel hchannel with ⟨_, hchannel⟩ | ⟨rfl, old, hold, rfl⟩
    · exact h.settled other channel hchannel page hpage
    · rw [hchange.deliveries] at hpage
      exact h.settled other old hold page hpage
  pending := by
    intro m completed hcall other hother halive channel hchannel hfence
    rw [changeChannel_calls] at hcall
    rw [changeChannel_all] at hother
    rcases of_get?_changeChannel hchannel with ⟨_, hchannel⟩ | ⟨rfl, old, hold, rfl⟩
    · exact h.pending m completed hcall other hother halive channel hchannel hfence
    · rw [hchange.deliveries]
      exact h.pending m completed hcall other hother halive old hold
        (by rwa [hchange.fence] at hfence)
  called := by simpa using h.called

theorem touches_flags (loading : Bool) (error : Option HistoryPageError) :
    Touches fun channel =>
      { channel with history := { channel.history with loading := loading, error := error } } :=
  ⟨fun _ => rfl, fun _ => rfl, fun _ => rfl, fun _ => rfl, fun _ => rfl, fun _ => rfl⟩

theorem keeps_changeChannel (s : OlderHistoryPages) (sessionHandle : JsString)
    (change : PageChannel → PageChannel)
    (hchange : ∀ channel, (change channel).fence = channel.fence) :
    Keeps s (s.changeChannel sessionHandle change) :=
  keeps_of_all (changeChannel_all change) (fenceOf_changeChannel hchange)

theorem Sound.note (h : Sound s) (event : PageEvent) : Sound (s.note event) :=
  ⟨h.entries, h.live, h.closed, h.own, h.current, h.order, h.settled, h.pending,
    h.called⟩

/-! ## What the calls do -/

/-- A call that was all right is one that keeps the invariant and is silent about operations that
are gone. -/
structure Allowed (s s' : OlderHistoryPages) : Prop where
  sound : Sound s'
  silent : Silent s s'

theorem Allowed.refl (h : Sound s) : Allowed s s := ⟨h, .refl s⟩

theorem allowed_remove (h : Sound s) (hoperation : s.all[n]? = some operation) :
    Allowed s (s.remove n operation) :=
  ⟨h.remove hoperation, (keeps_remove s n operation).silent rfl⟩

theorem live_of_owned (howned : s.owned n operation = true)
    (hoperation : s.all[n]? = some operation) : operation.aborted = false := by
  obtain ⟨_, ⟨current, hcurrent, hlive⟩, _⟩ := of_owned howned
  obtain rfl : operation = current := Option.some.inj (hoperation.symm.trans hcurrent)
  exact hlive

theorem allowed_fail (h : Sound s) (hoperation : s.all[n]? = some operation)
    (error : HistoryPageError) : Allowed s (s.fail n operation error) := by
  by_cases howned : s.owned n operation = true
  · have hlive := live_of_owned howned hoperation
    rw [fail, if_pos howned]
    dsimp only
    split
    · exact allowed_remove h hoperation
    · rename_i hcondition
      simp only [Bool.or_eq_true, not_or, Option.isNone_iff_eq_none] at hcondition
      have hfence := matchingContext_isSome.mp (Option.isSome_iff_ne_none.mpr hcondition.2)
      refine ⟨((h.remove hoperation).touch (touches_flags false (some error))).note _, ?_⟩
      have hkeeps := (keeps_remove s n operation).trans
        (keeps_changeChannel _ operation.sessionHandle _ (touches_flags false (some error)).fence)
      exact Keeps.silent_note ⟨hkeeps.operations, hkeeps.fences⟩ (.updated n)
        (congrArg (· ++ _) (changeChannel_log _)) (not_gone hoperation hlive hfence)
  · rw [fail, if_neg howned]
    exact .refl h

theorem allowed_deliver (h : Sound s) (hoperation : s.all[n]? = some operation)
    (hlive : operation.aborted = false) (hstage : operation.stage = .settled)
    (hcalls : s.calls = []) (hready : s.readyFor operation = true)
    (hnew : ∀ channel, s.channels.get? operation.sessionHandle = some channel →
      ∀ page ∈ channel.deliveries, page.operation ≠ n)
    (completed : CompletedSessionHistoryStream) (messages : List Json) :
    Allowed s (s.deliver n operation completed messages) := by
  have hfence := fenceOf_of_readyFor hready
  constructor
  · constructor
    · simpa [deliver, OlderHistoryPages.note] using h.entries
    · simpa [deliver, OlderHistoryPages.note] using h.live
    · simpa [deliver, OlderHistoryPages.note] using h.closed
    · intro other channel hchannel
      rcases of_get?_changeChannel hchannel with ⟨_, hchannel⟩ | ⟨rfl, old, hold, rfl⟩
      · exact h.own other channel hchannel
      · exact h.own _ old hold
    · intro m other hother halive channel hchannel hfence'
      replace hother : s.all[m]? = some other := by
        simpa [deliver, OlderHistoryPages.note] using hother
      rcases of_get?_changeChannel hchannel with ⟨_, hchannel⟩ | ⟨heq, old, hold, rfl⟩
      · exact h.current m other hother halive channel hchannel hfence'
      · exact h.current m other hother halive old (heq ▸ hold) hfence'
    · intro other channel hchannel
      rcases of_get?_changeChannel hchannel with ⟨_, hchannel⟩ | ⟨rfl, old, hold, rfl⟩
      · exact h.order other channel hchannel
      · have holdFence : old.fence = operation.context.fence := by
          rw [fenceOf, hold] at hfence
          exact Option.some.inj hfence
        exact (h.order _ old hold).deliver (.of n operation completed)
          (h.current n operation hoperation hlive old hold holdFence).symm rfl (hnew old hold)
    · intro other channel hchannel page hpage
      have hall : (s.deliver n operation completed messages).all = s.all := by
        simp [deliver, OlderHistoryPages.note]
      rw [hall]
      rcases of_get?_changeChannel hchannel with ⟨_, hchannel⟩ | ⟨rfl, old, hold, rfl⟩
      · exact h.settled other channel hchannel page hpage
      · rcases List.mem_append.mp hpage with hpage | hpage
        · exact h.settled _ old hold page hpage
        · rw [List.mem_singleton.mp hpage]
          exact ⟨operation, hoperation, hstage⟩
    · intro m completed' hcall other hother halive channel hchannel hfence'
      replace hother : s.all[m]? = some other := by
        simpa [deliver, OlderHistoryPages.note] using hother
      have hcall : PageCall.delivering m completed' = .delivering n completed := by
        simpa [deliver, OlderHistoryPages.note, hcalls] using hcall
      cases hcall
      obtain rfl : operation = other := Option.some.inj (hoperation.symm.trans hother)
      rcases of_get?_changeChannel hchannel with ⟨hne, _⟩ | ⟨_, old, hold, rfl⟩
      · exact absurd rfl hne
      · exact ⟨old.deliveries, rfl⟩
    · intro m completed' hcall
      have hcall : PageCall.delivering m completed' = .delivering n completed := by
        simpa [deliver, OlderHistoryPages.note, hcalls] using hcall
      cases hcall
      exact ⟨operation, by simpa [deliver, OlderHistoryPages.note] using hoperation, hstage⟩
  · have hkeeps := keeps_changeChannel s operation.sessionHandle
      (fun channel =>
        { channel with deliveries := channel.deliveries ++ [.of n operation completed] })
      fun _ => rfl
    exact Keeps.silent_note ⟨hkeeps.operations, hkeeps.fences⟩ (.delivered n messages)
      (congrArg (· ++ _) (changeChannel_log _)) (not_gone hoperation hlive hfence)

theorem allowed_complete (h : Sound s) (hoperation : s.all[n]? = some operation)
    (hstage : operation.stage = .settled) (hcalls : s.calls = [])
    (hnew : ∀ channel, s.channels.get? operation.sessionHandle = some channel →
      ∀ page ∈ channel.deliveries, page.operation ≠ n)
    (completed : CompletedSessionHistoryStream) (messages : List Json) :
    Allowed s (s.complete n operation completed messages) := by
  unfold complete
  split
  · rename_i howned
    split
    · rename_i hready
      exact allowed_deliver h hoperation (live_of_owned howned hoperation) hstage hcalls hready hnew
        completed messages
    · exact allowed_remove h hoperation
  · exact .refl h

/-- The state after a page was counted. -/
def counted (s : OlderHistoryPages) (n : ℕ) (operation : PageOperation)
    (completed : CompletedSessionHistoryStream) : OlderHistoryPages :=
  ((s.remove n operation).change n operation (advance completed)).countDelivery n
    operation.sessionHandle

theorem get?_counted (completed : CompletedSessionHistoryStream) (other : JsString) :
    (s.counted n operation completed).channels.get? other =
      if other = operation.sessionHandle then
        (s.channels.get? other).map fun channel =>
          { channel with
            history := advance completed channel.history
            deliveries := channel.deliveries.map (·.count n) }
      else s.channels.get? other := by
  have hfirst :
      ((s.remove n operation).change n operation (advance completed)).channels.get? other =
      if other = operation.sessionHandle then
        (s.channels.get? other).map fun channel =>
          { channel with history := advance completed channel.history }
      else s.channels.get? other := get?_changeChannel _ other
  rw [counted, countDelivery, get?_changeChannel, hfirst]
  by_cases h : other = operation.sessionHandle
  · simp only [if_pos h, Option.map_map]
    rfl
  · simp only [if_neg h]

variable {completed : CompletedSessionHistoryStream}

theorem of_get?_counted {other : JsString} {channel : PageChannel}
    (h : (s.counted n operation completed).channels.get? other = some channel) :
    (other ≠ operation.sessionHandle ∧ s.channels.get? other = some channel) ∨
      (other = operation.sessionHandle ∧
        ∃ old : PageChannel, s.channels.get? operation.sessionHandle = some old ∧
          channel = { old with
            history := advance completed old.history
            deliveries := old.deliveries.map (·.count n) }) := by
  rw [get?_counted] at h
  by_cases hother : other = operation.sessionHandle
  · rw [if_pos hother] at h
    obtain ⟨old, hold, rfl⟩ := Option.map_eq_some_iff.mp h
    exact .inr ⟨hother, old, hother ▸ hold, rfl⟩
  · rw [if_neg hother] at h
    exact .inl ⟨hother, h⟩

@[simp] theorem counted_all (completed : CompletedSessionHistoryStream) :
    (s.counted n operation completed).all = (s.remove n operation).all := by
  simp [counted, countDelivery, change, updateHistory, OlderHistoryPages.note]

@[simp] theorem counted_operations (completed : CompletedSessionHistoryStream) :
    (s.counted n operation completed).operations = (s.remove n operation).operations := by
  simp [counted, countDelivery, change, updateHistory, OlderHistoryPages.note]

@[simp] theorem counted_disposed (completed : CompletedSessionHistoryStream) :
    (s.counted n operation completed).disposed = s.disposed := by
  simp [counted, countDelivery, change, updateHistory, OlderHistoryPages.note,
    OlderHistoryPages.remove]

@[simp] theorem counted_calls (completed : CompletedSessionHistoryStream) :
    (s.counted n operation completed).calls = s.calls := by
  simp [counted, countDelivery, change, updateHistory, OlderHistoryPages.note,
    OlderHistoryPages.remove]

theorem counted_log (completed : CompletedSessionHistoryStream) :
    (s.counted n operation completed).log = s.log ++ [.updated n] := by
  simp [counted, countDelivery, change, updateHistory, OlderHistoryPages.note,
    OlderHistoryPages.remove]

theorem allowed_counted (h : Sound s) (hoperation : s.all[n]? = some operation)
    (howned : s.owned n operation = true) (hready : s.readyFor operation = true)
    (hlast : ∀ channel : PageChannel, s.channels.get? operation.sessionHandle = some channel →
      channel.fence = operation.context.fence →
        ∃ pages, channel.deliveries = pages ++ [.of n operation completed]) :
    Allowed s (s.counted n operation completed) := by
  have hlive := live_of_owned howned hoperation
  have hentry := (of_owned howned).2.2
  have hfence := fenceOf_of_readyFor hready
  have hremove := h.remove hoperation
  constructor
  · constructor
    · simpa using hremove.entries
    · simpa using hremove.live
    · rw [counted_disposed, counted_operations]
      exact hremove.closed
    · intro other channel hchannel
      rcases of_get?_counted hchannel with ⟨_, hchannel⟩ | ⟨rfl, old, hold, rfl⟩
      · exact h.own other channel hchannel
      · exact h.own _ old hold
    · intro m other hother halive channel hchannel hfence'
      rw [counted_all] at hother
      rcases of_get?_counted hchannel with ⟨_, hchannel⟩ | ⟨heq, _⟩
      · exact hremove.current m other hother halive channel hchannel hfence'
      · exact absurd heq (dead_of_remove h hentry hother halive)
    · intro other channel hchannel
      rcases of_get?_counted hchannel with ⟨_, hchannel⟩ | ⟨rfl, old, hold, rfl⟩
      · exact h.order other channel hchannel
      · have holdFence : old.fence = operation.context.fence := by
          rw [fenceOf, hold] at hfence
          exact Option.some.inj hfence
        obtain ⟨pages, hpages⟩ := hlast old hold holdFence
        exact (h.order _ old hold).count hpages rfl rfl rfl rfl
    · intro other channel hchannel page hpage
      rw [counted_all]
      rcases of_get?_counted hchannel with ⟨_, hchannel⟩ | ⟨rfl, old, hold, rfl⟩
      · exact hremove.settled other channel hchannel page hpage
      · obtain ⟨page', hpage', rfl⟩ := List.mem_map.mp hpage
        have hsame : (page'.count n).operation = page'.operation := by
          unfold PageDelivery.count
          split <;> rfl
        rw [hsame]
        exact hremove.settled _ old hold page' hpage'
    · intro m completed' hcall other hother halive channel hchannel hfence'
      rw [counted_calls] at hcall
      rw [counted_all] at hother
      rcases of_get?_counted hchannel with ⟨_, hchannel⟩ | ⟨heq, _⟩
      · exact hremove.pending m completed' hcall other hother halive channel hchannel hfence'
      · exact absurd heq (dead_of_remove h hentry hother halive)
    · intro m completed' hcall
      rw [counted_calls] at hcall
      rw [counted_all]
      exact hremove.called m completed' hcall
  · refine Keeps.silent_note ⟨?_, ?_⟩ (.updated n) (counted_log completed)
      (not_gone hoperation hlive hfence)
    · rw [counted_all]
      exact (keeps_remove s n operation).operations
    · intro other
      rw [fenceOf, get?_counted, fenceOf]
      split
      · rw [Option.map_map]
        rfl
      · rfl

theorem allowed_delivered (h : Sound s) (hoperation : s.all[n]? = some operation)
    (hlast : operation.aborted = false → ∀ channel : PageChannel,
      s.channels.get? operation.sessionHandle = some channel →
        channel.fence = operation.context.fence →
          ∃ pages, channel.deliveries = pages ++ [.of n operation completed])
    (outcome : DeliveryOutcome) : Allowed s (s.delivered n operation completed outcome) := by
  cases outcome with
  | threw text => exact allowed_fail h hoperation _
  | refused text =>
    unfold delivered
    dsimp only
    split
    · split
      · exact allowed_fail h hoperation _
      · exact allowed_remove h hoperation
    · exact .refl h
  | accepted =>
    unfold delivered
    dsimp only
    split
    · rename_i howned
      split
      · rename_i hready
        split
        · exact allowed_remove h hoperation
        · exact allowed_counted h hoperation howned hready
            (hlast (live_of_owned howned hoperation))
      · exact allowed_remove h hoperation
    · exact .refl h

theorem allowed_materialized (h : Sound s) (hcalls : s.calls = []) (n : ℕ)
    (result : Except JsString (List Json)) : Allowed s (s.materialized n result) := by
  unfold materialized
  split
  · rename_i operation hoperation
    split
    · rename_i completed hstage
      dsimp only
      have hsound : Sound (s.setOperation n { operation with stage := .settled }) :=
        h.setOperation hoperation rfl rfl fun _ => rfl
      have hkeeps : Keeps s (s.setOperation n { operation with stage := .settled }) :=
        keeps_setOperation hoperation rfl rfl
      have hself := getElem?_setOperation_self hoperation { operation with stage := .settled }
      -- an operation that is still materializing has not delivered
      have hnew : ∀ channel, s.channels.get? operation.sessionHandle = some channel →
          ∀ page ∈ channel.deliveries, page.operation ≠ n := by
        rintro channel hchannel page hpage rfl
        obtain ⟨other, hother, hsettled⟩ := h.settled _ channel hchannel page hpage
        obtain rfl : operation = other := Option.some.inj (hoperation.symm.trans hother)
        rw [hstage] at hsettled
        cases hsettled
      have hfirst := hkeeps.silent rfl
      split
      · rename_i messages
        have hnext := allowed_complete hsound hself rfl hcalls hnew completed messages
        exact ⟨hnext.sound, hfirst.trans hnext.silent⟩
      · rename_i text
        have hnext := allowed_fail hsound hself (.message text)
        exact ⟨hnext.sound, hfirst.trans hnext.silent⟩
    · exact .refl h
  · exact .refl h

theorem allowed_cancelSession (h : Sound s) (sessionHandle : JsString) (notifyGateway : Bool) :
    Allowed s (s.cancelSession sessionHandle notifyGateway) := by
  unfold cancelSession
  split
  · rename_i n hentry
    split
    · rename_i operation hoperation
      dsimp only
      split
      · exact allowed_remove h hoperation
      · exact ⟨(h.remove hoperation).touch (touches_flags false none),
          ((keeps_remove s n operation).trans (keeps_changeChannel _ sessionHandle _
            (touches_flags false none).fence)).silent (changeChannel_log _)⟩
    · exact .refl h
  · exact .refl h

theorem allowed_cancelIdentity (h : Sound s) (identity : SessionRuntimeIdentity) :
    Allowed s (s.cancelIdentity identity) := by
  unfold cancelIdentity
  split
  · split
    · rename_i operation hoperation
      split
      · exact allowed_remove h hoperation
      · exact .refl h
    · exact .refl h
  · exact .refl h

theorem allowed_failSession (h : Sound s) (sessionHandle text : JsString) :
    Allowed s (s.failSession sessionHandle text) := by
  unfold failSession
  split
  · split
    · rename_i operation hoperation
      exact allowed_fail h hoperation _
    · exact .refl h
  · exact .refl h

theorem getElem?_cancelAll (m : ℕ) : s.cancelAll.all[m]? = (s.all[m]?).map fun operation =>
    if s.operations.entries.any (·.2 == m) then { operation with aborted := true }
    else operation := by
  rw [cancelAll, List.getElem?_mapIdx]

theorem dead_of_cancelAll (h : Sound s) (hoperation : s.cancelAll.all[m]? = some operation) :
    operation.aborted = true := by
  rw [getElem?_cancelAll] at hoperation
  obtain ⟨current, hcurrent, rfl⟩ := Option.map_eq_some_iff.mp hoperation
  split
  · rfl
  · rename_i hany
    cases hlive : current.aborted with
    | true => rfl
    | false =>
      have hentry := InsertionMap.mem_of_get? (h.live m current hcurrent hlive)
      exact absurd (List.any_eq_true.mpr ⟨_, hentry, beq_self_eq_true m⟩) hany

theorem allowed_cancelAll (h : Sound s) (disposed : Bool) :
    Allowed s { s with disposed := disposed }.cancelAll := by
  have hall : { s with disposed := disposed }.cancelAll.all = s.cancelAll.all := rfl
  constructor
  · refine h.retire ?_ ?_ rfl (fun _ _ hcall => hcall) ?_ ?_ fun _ _ => InsertionMap.get?_empty _
    · intro m other hother halive
      exact absurd (halive.symm.trans (dead_of_cancelAll h (hall ▸ hother))) (by decide)
    · intro m other hother hstage
      rw [hall, getElem?_cancelAll, hother]
      refine ⟨_, rfl, ?_⟩
      dsimp only
      split <;> exact hstage
    · intro sessionHandle m hentry
      exact absurd (hentry.symm.trans (InsertionMap.get?_empty sessionHandle)) (by simp)
    · intro m other hother halive
      exact absurd (halive.symm.trans (dead_of_cancelAll h (hall ▸ hother))) (by decide)
  · refine Keeps.silent ⟨?_, fun _ => rfl⟩ rfl
    intro m other hother
    rw [hall, getElem?_cancelAll, hother]
    refine ⟨_, rfl, ?_, ?_⟩
    · dsimp only
      split <;> rfl
    · intro haborted
      dsimp only
      split
      · rfl
      · exact haborted

theorem of_getElem?_concat {A : Type*} {l : List A} {j : ℕ} {a b : A}
    (h : (l ++ [a])[j]? = some b) : l[j]? = some b ∨ (j = l.length ∧ b = a) := by
  rcases Nat.lt_trichotomy j l.length with hlt | heq | hgt
  · rw [List.getElem?_append_left hlt] at h
    exact .inl h
  · rw [heq, List.getElem?_concat_length] at h
    exact .inr ⟨heq, (Option.some.inj h).symm⟩
  · have hle : (l ++ [a]).length ≤ j := by
      simp only [List.length_append, List.length_singleton]
      omega
    rw [List.getElem?_eq_none hle] at h
    cases h

theorem getElem?_concat_of_some {A : Type*} {l : List A} {j : ℕ} {a b : A}
    (h : l[j]? = some b) : (l ++ [a])[j]? = some b := by
  obtain ⟨hlt, _⟩ := List.getElem?_eq_some_iff.mp h
  rwa [List.getElem?_append_left hlt]

/-- The state with an operation more. -/
def enlist (s : OlderHistoryPages) (operation : PageOperation) : OlderHistoryPages :=
  { s with
    operations := s.operations.insert operation.sessionHandle s.all.length
    all := s.all ++ [operation] }

theorem Sound.enlist (h : Sound s) (hnone : s.operations.get? operation.sessionHandle = none)
    (hopen : s.disposed = false) (hlive : operation.aborted = false)
    (hcurrent : ∀ channel : PageChannel,
      s.channels.get? operation.sessionHandle = some channel →
        channel.history.nextCursor = operation.context.nextCursor) :
    Sound (s.enlist operation) where
  entries := by
    intro sessionHandle m hentry
    by_cases hhandle : sessionHandle = operation.sessionHandle
    · subst hhandle
      rw [OlderHistoryPages.enlist, InsertionMap.get?_insert_self] at hentry
      obtain rfl := Option.some.inj hentry
      exact ⟨operation, List.getElem?_concat_length, hlive, rfl⟩
    · rw [OlderHistoryPages.enlist, InsertionMap.get?_insert_of_ne _ hhandle] at hentry
      obtain ⟨other, hother, halive, hown⟩ := h.entries sessionHandle m hentry
      exact ⟨other, getElem?_concat_of_some hother, halive, hown⟩
  live := by
    intro m other hother halive
    rcases of_getElem?_concat hother with hother | ⟨rfl, rfl⟩
    · have hentry := h.live m other hother halive
      have hhandle : other.sessionHandle ≠ operation.sessionHandle := by
        intro heq
        rw [heq, hnone] at hentry
        cases hentry
      rw [OlderHistoryPages.enlist, InsertionMap.get?_insert_of_ne _ hhandle]
      exact hentry
    · exact InsertionMap.get?_insert_self _ _ _
  closed := fun hclosed => absurd (hopen.symm.trans hclosed) (by decide)
  own := h.own
  current := by
    intro m other hother halive channel hchannel hfence
    rcases of_getElem?_concat hother with hother | ⟨rfl, rfl⟩
    · exact h.current m other hother halive channel hchannel hfence
    · exact hcurrent channel hchannel
  order := h.order
  settled := by
    intro sessionHandle channel hchannel page hpage
    obtain ⟨other, hother, hstage⟩ := h.settled sessionHandle channel hchannel page hpage
    exact ⟨other, getElem?_concat_of_some hother, hstage⟩
  pending := by
    intro m completed hcall other hother halive channel hchannel hfence
    obtain ⟨old, hold, _⟩ := h.called m completed hcall
    obtain rfl : old = other :=
      Option.some.inj ((getElem?_concat_of_some hold).symm.trans hother)
    exact h.pending m completed hcall old hold halive channel hchannel hfence
  called := by
    intro m completed hcall
    obtain ⟨other, hother, hstage⟩ := h.called m completed hcall
    exact ⟨other, getElem?_concat_of_some hother, hstage⟩

theorem allowed_start (h : Sound s) (sessionHandle now : JsString) :
    Allowed s (s.start sessionHandle now) := by
  unfold start
  split
  · rename_i context hcontext
    obtain ⟨channel, hchannel, rfl⟩ := Option.map_eq_some_iff.mp hcontext
    have hown : channel.context.fence.identity.sessionHandle = sessionHandle :=
      h.own sessionHandle channel hchannel
    split
    · exact .refl h
    · rename_i hcondition
      simp only [Bool.or_eq_true, not_or, Bool.not_eq_true, Option.isSome_eq_false_iff,
        Option.isNone_iff_eq_none] at hcondition
      obtain ⟨⟨⟨⟨hopen, _⟩, _⟩, _⟩, hnone⟩ := hcondition
      dsimp only
      generalize hoperation : PageOperation.mk channel.context _ false (.new .page) .receiving =
        operation
      have hhandle : operation.sessionHandle = sessionHandle := by
        rw [← hoperation]
        exact hown
      have henlist : Sound (s.enlist operation) := by
        refine h.enlist (hhandle ▸ hnone) hopen (by rw [← hoperation]) fun other hother => ?_
        rw [hhandle, hchannel] at hother
        obtain rfl := Option.some.inj hother
        rw [← hoperation]
        rfl
      have hfences := keeps_changeChannel (s.enlist operation) operation.sessionHandle _
        (touches_flags true none).fence
      constructor
      · rw [← hhandle]
        refine ((henlist.touch (touches_flags true none)).note (.updated s.all.length)).recall ?_
        intro m completed hcall
        rcases List.mem_cons.mp hcall with hcall | hcall
        · cases hcall
        · simpa [change, updateHistory, OlderHistoryPages.note, OlderHistoryPages.enlist]
            using hcall
      · rw [← hhandle]
        refine Keeps.silent_note ⟨?_, hfences.fences⟩ (.updated s.all.length)
          (congrArg (· ++ _) (changeChannel_log _)) ?_
        · intro m other hother
          obtain ⟨other', hother', hrest⟩ := hfences.operations m other
            (getElem?_concat_of_some hother)
          exact ⟨other', hother', hrest⟩
        · rintro ⟨other, hother, _⟩
          exact absurd (List.getElem?_eq_some_iff.mp hother).1 (Nat.lt_irrefl _)
  · exact .refl h

theorem allowed_observed (h : Sound s) (hoperation : s.all[n]? = some operation)
    (outcome : HistorySendOutcome) : Allowed s (s.observed n operation outcome) := by
  unfold observed
  split
  · rename_i howned
    split
    · rename_i hready
      have hkeeps : Keeps s (s.note (.requested n)) := keeps_of_all rfl fun _ => rfl
      have hnote : Allowed s (s.note (.requested n)) :=
        ⟨h.note _, hkeeps.silent_note (.requested n) rfl
          (not_gone hoperation (live_of_owned howned hoperation) (fenceOf_of_readyFor hready))⟩
      dsimp only
      split
      · exact hnote
      · have hfail := allowed_fail hnote.sound hoperation (.notSent outcome)
        exact ⟨hfail.sound, hnote.silent.trans hfail.silent⟩
    · exact allowed_remove h hoperation
  · exact .refl h

theorem allowed_accept (h : Sound s) (frame : SessionHistoryFrame) (projected : Bool) :
    Allowed s (s.accept frame projected) := by
  unfold accept
  split
  · rename_i n hentry
    split
    · rename_i operation hoperation
      split
      · rename_i hstage
        have hset : ∀ next : PageOperation, next.context = operation.context →
            next.aborted = operation.aborted → Allowed s (s.setOperation n next) := by
          intro next hcontext haborted
          refine ⟨h.setOperation hoperation hcontext haborted fun hsettled => ?_,
            (keeps_setOperation hoperation hcontext haborted).silent rfl⟩
          rw [hstage] at hsettled
          cases hsettled
        split
        · exact .refl h
        · split
          · rename_i next hassemble
            cases frame with
            | begin frame =>
              simp only [assemble] at hassemble
              split at hassemble
              · cases hassemble
              · split at hassemble
                · cases hassemble
                  exact hset _ rfl rfl
                · cases hassemble
            | chunk frame =>
              simp only [assemble] at hassemble
              split at hassemble
              · cases hassemble
                exact hset _ rfl rfl
              · cases hassemble
            | «end» frame =>
              simp only [assemble] at hassemble
              split at hassemble
              · cases hassemble
                exact hset _ rfl rfl
              · cases hassemble
          · exact allowed_fail h hoperation _
      · exact .refl h
    · exact .refl h
  · exact .refl h

/-! ## Runs -/

theorem allowed_install (h : Sound s) (fence : HistoryFence) (ready online : Bool)
    (history : SessionHistoryState) (hfenced : Fenced s (.install fence ready online history)) :
    Allowed s (s.install fence ready online history) := by
  have hget : ∀ other, (s.install fence ready online history).channels.get? other =
      if other = fence.identity.sessionHandle then
        some ⟨fence, ready, online, history, history, []⟩
      else s.channels.get? other := fun other => InsertionMap.get?_insert _ _ _ _
  have hcases : ∀ {other : JsString} {channel : PageChannel},
      (s.install fence ready online history).channels.get? other = some channel →
        (other = fence.identity.sessionHandle ∧
          channel = ⟨fence, ready, online, history, history, []⟩) ∨
        s.channels.get? other = some channel := by
    intro other channel hchannel
    rw [hget] at hchannel
    by_cases hother : other = fence.identity.sessionHandle
    · rw [if_pos hother] at hchannel
      exact .inl ⟨hother, (Option.some.inj hchannel).symm⟩
    · rw [if_neg hother] at hchannel
      exact .inr hchannel
  -- no live operation has the fence of the new history
  have hother : ∀ (m : ℕ) (operation : PageOperation), s.all[m]? = some operation →
      operation.aborted = false → operation.sessionHandle = fence.identity.sessionHandle →
        operation.context.fence ≠ fence := fun m operation hoperation hlive hhandle =>
    hfenced m (hhandle ▸ h.live m operation hoperation hlive) operation hoperation
  constructor
  · refine ⟨h.entries, h.live, h.closed, ?_, ?_, ?_, ?_, ?_, h.called⟩
    · intro other channel hchannel
      rcases hcases hchannel with ⟨rfl, rfl⟩ | hchannel
      · rfl
      · exact h.own other channel hchannel
    · intro m operation hoperation hlive channel hchannel hfence
      rcases hcases hchannel with ⟨hhandle, rfl⟩ | hchannel
      · exact absurd hfence.symm (hother m operation hoperation hlive hhandle)
      · exact h.current m operation hoperation hlive channel hchannel hfence
    · intro other channel hchannel
      rcases hcases hchannel with ⟨rfl, rfl⟩ | hchannel
      · exact ⟨rfl, List.nodup_nil, rfl, rfl⟩
      · exact h.order other channel hchannel
    · intro other channel hchannel page hpage
      rcases hcases hchannel with ⟨rfl, rfl⟩ | hchannel
      · cases hpage
      · exact h.settled other channel hchannel page hpage
    · intro m completed hcall operation hoperation hlive channel hchannel hfence
      rcases hcases hchannel with ⟨hhandle, rfl⟩ | hchannel
      · exact absurd hfence.symm (hother m operation hoperation hlive hhandle)
      · exact h.pending m completed hcall operation hoperation hlive channel hchannel hfence
  · refine ⟨?_, [], (List.append_nil _).symm, nofun⟩
    rintro m ⟨operation, hoperation, hgone⟩
    refine ⟨operation, hoperation, ?_⟩
    cases hlive : operation.aborted with
    | true => exact .inl rfl
    | false =>
      refine .inr ?_
      rw [fenceOf, hget]
      by_cases hhandle : operation.sessionHandle = fence.identity.sessionHandle
      · rw [if_pos hhandle]
        intro heq
        exact hother m operation hoperation hlive hhandle (Option.some.inj heq).symm
      · rw [if_neg hhandle]
        rcases hgone with hgone | hgone
        · exact absurd (hlive.symm.trans hgone) (by decide)
        · exact hgone

theorem allowed_forget (h : Sound s) (sessionHandle : JsString) :
    Allowed s { s with channels := s.channels.erase sessionHandle } := by
  have hof : ∀ {other : JsString} {channel : PageChannel},
      (s.channels.erase sessionHandle).get? other = some channel →
        s.channels.get? other = some channel := by
    intro other channel hchannel
    rw [InsertionMap.get?_erase] at hchannel
    split at hchannel
    · cases hchannel
    · exact hchannel
  constructor
  · exact ⟨h.entries, h.live, h.closed,
      fun other channel hchannel => h.own other channel (hof hchannel),
      fun m operation hoperation hlive channel hchannel =>
        h.current m operation hoperation hlive channel (hof hchannel),
      fun other channel hchannel => h.order other channel (hof hchannel),
      fun other channel hchannel => h.settled other channel (hof hchannel),
      fun m completed hcall operation hoperation hlive channel hchannel =>
        h.pending m completed hcall operation hoperation hlive channel (hof hchannel), h.called⟩
  · refine ⟨?_, [], (List.append_nil _).symm, fun _ h => by cases h⟩
    rintro m ⟨operation, hoperation, hgone⟩
    refine ⟨operation, hoperation, hgone.imp id fun hfence heq => hfence ?_⟩
    obtain ⟨channel, hchannel, hof'⟩ := Option.map_eq_some_iff.mp heq
    rw [fenceOf, hof hchannel]
    exact congrArg some hof'

theorem allowed_adjust (h : Sound s) (sessionHandle : JsString) (ready online loading : Bool)
    (error : Option HistoryPageError) :
    Allowed s (s.adjust sessionHandle ready online loading error) := by
  have htouches : Touches fun channel =>
      { channel with
        ready := ready
        online := online
        history := { channel.history with loading := loading, error := error } } :=
    ⟨fun _ => rfl, fun _ => rfl, fun _ => rfl, fun _ => rfl, fun _ => rfl, fun _ => rfl⟩
  exact ⟨h.touch htouches,
    (keeps_changeChannel s sessionHandle _ htouches.fence).silent (changeChannel_log _)⟩

theorem allowed_step (h : Sound s) (action : PageAction) (hfenced : Fenced s action) :
    Allowed s (step s action) := by
  cases action with
  | install fence ready online history =>
    exact allowed_install h fence ready online history hfenced
  | forget sessionHandle => exact allowed_forget h sessionHandle
  | adjust sessionHandle ready online loading error =>
    exact allowed_adjust h sessionHandle ready online loading error
  | start sessionHandle now => exact allowed_start h sessionHandle now
  | observed outcome =>
    simp only [step]
    split
    · rename_i n calls hcalls
      split
      · rename_i operation hoperation
        have hpop : Sound { s with calls := calls } := h.recall fun _ _ hcall => by
          rw [hcalls]
          exact List.mem_cons_of_mem _ hcall
        exact ⟨(allowed_observed hpop hoperation outcome).sound,
          ((keeps_of_all rfl fun _ => rfl : Keeps s { s with calls := calls }).silent rfl).trans
            (allowed_observed hpop hoperation outcome).silent⟩
      · exact .refl h
    · exact .refl h
  | accept frame projected => exact allowed_accept h frame projected
  | materialized n result =>
    simp only [step]
    split
    · rename_i hcalls
      exact allowed_materialized h (List.isEmpty_iff.mp hcalls) n result
    · exact .refl h
  | delivered outcome =>
    simp only [step]
    split
    · rename_i n completed calls hcalls
      split
      · rename_i operation hoperation
        have hpop : Sound { s with calls := calls } := h.recall fun _ _ hcall => by
          rw [hcalls]
          exact List.mem_cons_of_mem _ hcall
        have hmem : PageCall.delivering n completed ∈ s.calls := by
          rw [hcalls]
          exact List.mem_cons_self
        have hnext := allowed_delivered hpop hoperation
          (fun hlive => h.pending n completed hmem operation hoperation hlive) outcome
        exact ⟨hnext.sound,
          ((keeps_of_all rfl fun _ => rfl : Keeps s { s with calls := calls }).silent rfl).trans
            hnext.silent⟩
      · exact .refl h
    · exact .refl h
  | cancelSession sessionHandle notifyGateway =>
    exact allowed_cancelSession h sessionHandle notifyGateway
  | cancelIdentity identity => exact allowed_cancelIdentity h identity
  | failSession sessionHandle text => exact allowed_failSession h sessionHandle text
  | cancelAll => exact allowed_cancelAll h s.disposed
  | dispose => exact allowed_cancelAll h true

theorem Sound.create : Sound create where
  entries := by
    intro sessionHandle n hentry
    cases hentry
  live := by
    intro n operation hoperation
    cases hoperation
  closed := fun _ _ => rfl
  own := by
    intro sessionHandle channel hchannel
    cases hchannel
  current := by
    intro n operation hoperation
    cases hoperation
  order := by
    intro sessionHandle channel hchannel
    cases hchannel
  settled := by
    intro sessionHandle channel hchannel
    cases hchannel
  pending := by
    intro n completed hcall
    cases hcall
  called := by
    intro n completed hcall
    cases hcall

theorem allowed_run (h : Sound s) {actions : List PageAction}
    (hfenced : RunMeets step Fenced s actions) : Allowed s (runFrom step s actions) := by
  induction actions generalizing s with
  | nil => exact .refl h
  | cons action rest ih =>
    have hstep := allowed_step h action hfenced.1
    have hrest := ih hstep.sound hfenced.2
    exact ⟨hrest.sound, hstep.silent.trans hrest.silent⟩

theorem counts_accepted (h : Sound s)
    {calls : List PageCall} (hcalls : s.calls = .delivering n completed :: calls)
    (hoperation : s.all[n]? = some operation) (howned : s.owned n operation = true)
    (hready : s.readyFor operation = true) :
    ∃ (channel : PageChannel) (pages : List PageDelivery),
      s.channels.get? operation.sessionHandle = some channel ∧
        channel.deliveries = pages ++ [.of n operation completed] ∧
        (step s (.delivered .accepted)).channels.get? operation.sessionHandle = some
          { channel with
            history := advance completed channel.history
            deliveries := pages ++
              [{ PageDelivery.of n operation completed with counted := true }] } := by
  have hlive := live_of_owned howned hoperation
  have hfence := fenceOf_of_readyFor hready
  obtain ⟨channel, hchannel, hchannelFence⟩ := Option.map_eq_some_iff.mp hfence
  have hmem : PageCall.delivering n completed ∈ s.calls := by
    rw [hcalls]
    exact List.mem_cons_self
  obtain ⟨pages, hpages⟩ := h.pending n completed hmem operation hoperation hlive channel hchannel
    hchannelFence
  have honce := (h.order _ channel hchannel).once
  rw [hpages, List.map_append, List.map_cons, List.map_nil, List.nodup_append] at honce
  have hothers : ∀ other ∈ pages, other.operation ≠ n := fun other hother =>
    honce.2.2 _ (List.mem_map_of_mem hother) _ (List.mem_singleton_self _)
  have hentry : ({ s with calls := calls }.remove n operation).operations.get?
      operation.sessionHandle = none := by
    rw [get?_remove, if_pos ⟨rfl, (of_owned howned).2.2⟩]
  have hstep : step s (.delivered .accepted) =
      { s with calls := calls }.counted n operation completed := by
    have howned' : { s with calls := calls }.owned n operation = true := howned
    have hready' : { s with calls := calls }.readyFor operation = true := hready
    have hready'' : ({ s with calls := calls }.remove n operation).readyFor operation = true :=
      hready
    simp only [step, hcalls, hoperation, delivered, if_pos howned', if_pos hready', hentry,
      hready'', Option.isSome_none, Bool.not_true, Bool.or_self, Bool.false_eq_true, if_false]
    rfl
  refine ⟨channel, pages, hchannel, hpages, ?_⟩
  rw [hstep, get?_counted, if_pos rfl]
  simp only [hchannel, Option.map_some, hpages, List.map_append,
    PageChannel.map_count_of_ne hothers, List.map_cons, List.map_nil]
  simp [PageDelivery.count, PageDelivery.of]

/-- A channel but for what a request that is under way or failed shows of itself. -/
def PageChannel.paged (channel : PageChannel) : PageChannel :=
  { channel with history := { channel.history with loading := false, error := none } }

/-- An operation that fails leaves the pages, the cursor and the counters of every Session as they
are. -/
theorem paged_fail (error : HistoryPageError) (other : JsString) :
    ((s.fail n operation error).channels.get? other).map PageChannel.paged =
      (s.channels.get? other).map PageChannel.paged := by
  have hchange (s' : OlderHistoryPages) :
      ((s'.change n operation fun history =>
          { history with loading := false, error := some error }).channels.get? other).map
        PageChannel.paged = (s'.channels.get? other).map PageChannel.paged := by
    have hget : (s'.change n operation fun history =>
        { history with loading := false, error := some error }).channels.get? other =
        if other = operation.sessionHandle then
          (s'.channels.get? other).map fun channel =>
            { channel with
              history := { channel.history with loading := false, error := some error } }
        else s'.channels.get? other := get?_changeChannel _ other
    rw [hget]
    by_cases h : other = operation.sessionHandle
    · rw [if_pos h, Option.map_map]
      rfl
    · rw [if_neg h]
  unfold fail
  split
  · dsimp only
    split
    · rfl
    · exact hchange _
  · rfl

/-- A delivery that is refused or throws, or that finds its operation no longer owned or no longer
ready, leaves the pages, the cursor and the counters of every Session as they are. -/
theorem paged_delivered {calls : List PageCall}
    (hcalls : s.calls = .delivering n completed :: calls)
    (hoperation : s.all[n]? = some operation) {outcome : DeliveryOutcome}
    (houtcome : outcome = .accepted →
      s.owned n operation = true → s.readyFor operation = false) (other : JsString) :
    ((step s (.delivered outcome)).channels.get? other).map PageChannel.paged =
      (s.channels.get? other).map PageChannel.paged := by
  have hstep : step s (.delivered outcome) =
      { s with calls := calls }.delivered n operation completed outcome := by
    simp only [step, hcalls, hoperation]
  rw [hstep]
  cases outcome with
  | threw text => exact paged_fail _ other
  | refused text =>
    simp only [delivered]
    split
    · split
      · exact paged_fail _ other
      · rfl
    · rfl
  | accepted =>
    simp only [delivered]
    split
    · rename_i howned
      have hready : { s with calls := calls }.readyFor operation = false := houtcome rfl howned
      rw [if_neg (by rw [hready]; exact Bool.false_ne_true)]
      rfl
    · rfl

/-- Over every run in which no history brings the fence of a live operation back: a Session has one
live operation, the pages delivered since a history was put in place are in order, an operation
that is gone does nothing any more, a page whose delivery is accepted while its operation is owned
and ready is counted, and every other outcome of a delivery leaves the pages, the cursor and the
counters as they are. -/
theorem older_pages_runs (before after : List PageAction)
    (hfenced : RunMeets step Fenced create (before ++ after)) :
    (∀ (m n : ℕ) (operation other : PageOperation),
      (runFrom step create (before ++ after)).all[n]? = some operation →
        operation.aborted = false →
          (runFrom step create (before ++ after)).all[m]? = some other → other.aborted = false →
            other.sessionHandle = operation.sessionHandle → m = n) ∧
      (∀ sessionHandle channel,
        (runFrom step create (before ++ after)).channels.get? sessionHandle = some channel →
          channel.InOrder) ∧
      (∀ n, Gone (runFrom step create before) n → ∃ events,
        (runFrom step create (before ++ after)).log = (runFrom step create before).log ++ events ∧
          ∀ event ∈ events, event.operation ≠ n) ∧
      (∀ (n : ℕ) (operation : PageOperation) completed calls,
        (runFrom step create (before ++ after)).calls = .delivering n completed :: calls →
          (runFrom step create (before ++ after)).all[n]? = some operation →
            (runFrom step create (before ++ after)).owned n operation = true →
              (runFrom step create (before ++ after)).readyFor operation = true →
                ∃ (channel : PageChannel) (pages : List PageDelivery),
                  (runFrom step create (before ++ after)).channels.get?
                      operation.sessionHandle = some channel ∧
                    channel.deliveries = pages ++ [.of n operation completed] ∧
                    (runFrom step create (before ++ after ++ [.delivered .accepted])).channels.get?
                        operation.sessionHandle = some
                      { channel with
                        history := advance completed channel.history
                        deliveries := pages ++
                          [{ PageDelivery.of n operation completed with counted := true }] }) ∧
      ∀ (n : ℕ) (operation : PageOperation) completed calls outcome,
        (runFrom step create (before ++ after)).calls = .delivering n completed :: calls →
          (runFrom step create (before ++ after)).all[n]? = some operation →
            (outcome = .accepted →
              (runFrom step create (before ++ after)).owned n operation = true →
                (runFrom step create (before ++ after)).readyFor operation = false) →
              ∀ sessionHandle,
                ((runFrom step create (before ++ after ++ [.delivered outcome])).channels.get?
                    sessionHandle).map PageChannel.paged =
                  ((runFrom step create (before ++ after)).channels.get? sessionHandle).map
                    PageChannel.paged := by
  obtain ⟨hbefore, hafter⟩ := RunMeets.append_iff.mp hfenced
  have hmid := allowed_run Sound.create hbefore
  have hall := allowed_run hmid.sound hafter
  rw [← runFrom_append] at hall
  refine ⟨?_, hall.sound.order, ?_, ?_, ?_⟩
  · intro m n operation other hoperation hlive hother hlive' hhandle
    exact hall.sound.eq_of_sessionHandle hoperation hlive hother hlive' hhandle
  · intro n hgone
    obtain ⟨events, hlog, hevents⟩ := hall.silent.log
    exact ⟨events, hlog, fun event hevent heq => hevents event hevent (heq ▸ hgone)⟩
  · intro n operation completed calls hcalls hoperation howned hready
    rw [runFrom_append step create (before ++ after)]
    exact counts_accepted hall.sound hcalls hoperation howned hready
  · intro n operation completed calls outcome hcalls hoperation houtcome sessionHandle
    rw [runFrom_append step create (before ++ after)]
    exact paged_delivered hcalls hoperation houtcome sessionHandle

/-! ## A page that is delivered twice -/

/-- The fence of the sample. -/
def sampleFence : HistoryFence where
  identity :=
    { serverEpoch := js "epoch"
      sessionHandle := js "a"
      workspaceId := js "workspace"
      generation := 1 }
  snapshotId := js "snapshot"
  asOfSeq := 4

/-- The history of the sample. -/
def sampleHistory : SessionHistoryState where
  totalMessages := 2
  loadedMessages := 1
  totalBytes := 8
  loadedBytes := 4
  nextCursor := some (js "older")
  loading := false
  error := none

/-- The messages of the sample page. -/
def sampleMessages : List Json := [.num (js "7")]

/-- The frames of the oldest page, for a request. -/
def samplePage (requestId : JsString) : List SessionHistoryFrame :=
  let fence : HistoryStreamFence :=
    { identity := sampleFence.identity
      snapshotId := sampleFence.snapshotId
      requestId := some requestId }
  let byteCount := sessionHistoryMessagesBytes sampleMessages
  let checksum := sessionHistoryChecksum (.arr sampleMessages)
  [.begin
    { kind := .page
      fence := fence
      members := [(js "asOfSeq", .num (js "4"))]
      history :=
        { totalMessages := 2
          loadedMessages := 1
          loadedBytes := byteCount
          totalBytes := 8
          nextCursor := none } },
  .chunk
    { kind := .page
      fence := fence
      chunkIndex := 0
      messages := sampleMessages
      itemCount := 1
      byteCount := byteCount
      checksum := checksum },
  .end
    { kind := .page
      fence := fence
      chunkCount := 1
      itemCount := 1
      byteCount := byteCount
      checksum := sessionHistoryChecksum (.arr [.str checksum])
      nextCursor := none }]

/-- A page is asked for and comes, up to its delivery. -/
def samplePaging (n : ℕ) (requestId : JsString) : List PageAction :=
  [.start (js "a") (js "0"), .observed .sent] ++
    (samplePage requestId).map (.accept · true) ++ [.materialized n (.ok sampleMessages)]

/-- A page is cancelled by its own delivery, and asked for again. -/
def sampleTwice : List PageAction :=
  [.install sampleFence true true sampleHistory] ++ samplePaging 0 (js "history-page-1-0") ++
    [.cancelSession (js "a") true, .delivered .accepted] ++
    samplePaging 1 (js "history-page-2-0") ++ [.delivered .accepted]

theorem sampleTwice_deliveries :
    ((runFrom step create sampleTwice).channels.get? (js "a")).map
        (fun channel => (channel.deliveries, channel.history)) =
      some ([⟨0, some (js "older"), 1, 3, none, false⟩, ⟨1, some (js "older"), 1, 3, none, true⟩],
        { sampleHistory with
          loadedMessages := 2
          loadedBytes := 7
          nextCursor := none }) := by
  decide +kernel

theorem sampleTwice_fenced : RunMeets step Fenced create sampleTwice := by
  simp [sampleTwice, samplePaging, samplePage, RunMeets, Fenced, create]

/-- The pages of a history are not always consecutive ones of which each is delivered and counted
once. -/
theorem page_delivered_twice :
    ¬ ∀ actions, RunMeets step Fenced create actions → (runFrom step create actions).calls = [] →
      ∀ sessionHandle channel,
        (runFrom step create actions).channels.get? sessionHandle = some channel →
          (∀ (i : ℕ) (page next : PageDelivery), channel.deliveries[i]? = some page →
            channel.deliveries[i + 1]? = some next → next.cursor = page.nextCursor) ∧
          channel.history.loadedMessages =
            channel.adopted.loadedMessages + (channel.deliveries.map (·.itemCount)).sum := by
  intro h
  have hcalls : (runFrom step create sampleTwice).calls.isEmpty = true := by decide +kernel
  obtain ⟨channel, hchannel, hpages⟩ := Option.map_eq_some_iff.mp sampleTwice_deliveries
  have hdeliveries := congrArg Prod.fst hpages
  have hcursors := (h sampleTwice sampleTwice_fenced (List.isEmpty_iff.mp hcalls) (js "a") channel
    hchannel).1 0
  rw [show channel.deliveries = _ from hdeliveries] at hcursors
  exact absurd (hcursors _ _ rfl rfl) (by decide)

/-- The sample is a run in which the pages are in order. -/
theorem older_pages_runs_sampleTwice : ∃ channel : PageChannel,
    (runFrom step create (sampleTwice ++ [])).channels.get? (js "a") = some channel ∧
      channel.InOrder ∧ channel.deliveries.length = 2 := by
  have hruns := older_pages_runs sampleTwice [] (by
    rw [List.append_nil]
    exact sampleTwice_fenced)
  obtain ⟨channel, hchannel, hpages⟩ := Option.map_eq_some_iff.mp sampleTwice_deliveries
  refine ⟨channel, by rw [List.append_nil]; exact hchannel,
    hruns.2.1 (js "a") channel (by rw [List.append_nil]; exact hchannel), ?_⟩
  rw [show channel.deliveries = _ from congrArg Prod.fst hpages]
  rfl

end OlderHistoryPages

end PiAgentWeb
