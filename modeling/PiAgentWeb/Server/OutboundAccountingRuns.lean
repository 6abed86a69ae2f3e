import PiAgentWeb.Server.OutboundPrices

/-!
# The accounts over whole runs

What is retained is owned: a payload by the queue of an open connection, a buffered message by one
of its journals, a history page by an operation that has not settled, a reservation by a command
that has not settled or by the payload that its response became. Each call hands what it owns on or
releases it, so when nothing is left that owns, the totals are zero.
-/

namespace PiAgentWeb

open Retention

/-- The retained items of a connection: its payloads and its journals. -/
def ConnectionAccounts.ownedItems (connection : ConnectionAccounts) : List ℕ :=
  connection.outbound.map (·.item) ++
    connection.catchUps.flatMap fun catchUp => catchUp.buffered.map (·.item)

/-- The reservations that went over to payloads of a connection. -/
def ConnectionAccounts.ownedReservations (connection : ConnectionAccounts) : List ℕ :=
  connection.outbound.filterMap (·.release)

/-- A connection that is gone owns nothing; an open one waits for the callback of its active send
and queues nothing without one. -/
structure ConnectionAccounts.Ordered (connection : ConnectionAccounts) : Prop where
  gone : connection.closed = true → connection.outbound = [] ∧ connection.catchUps = []
  awaiting : connection.closed = false → connection.awaiting = connection.outboundActive.toList
  sending : connection.closed = false →
    connection.outboundSending = connection.outboundActive.isSome
  queued : connection.closed = false → connection.outboundActive = none →
    connection.outboundQueue = []

/-- The queue and the life of a connection are untouched. -/
structure ConnectionAccounts.SameQueue (c c' : ConnectionAccounts) : Prop where
  closed : c'.closed = c.closed
  outboundActive : c'.outboundActive = c.outboundActive
  outboundQueue : c'.outboundQueue = c.outboundQueue
  outboundSending : c'.outboundSending = c.outboundSending
  awaiting : c'.awaiting = c.awaiting

namespace ConnectionAccounts

variable {c c' c'' : ConnectionAccounts}

theorem SameQueue.refl (c : ConnectionAccounts) : SameQueue c c := ⟨rfl, rfl, rfl, rfl, rfl⟩

theorem SameQueue.trans (h : SameQueue c c') (h' : SameQueue c' c'') : SameQueue c c'' where
  closed := h'.closed.trans h.closed
  outboundActive := h'.outboundActive.trans h.outboundActive
  outboundQueue := h'.outboundQueue.trans h.outboundQueue
  outboundSending := h'.outboundSending.trans h.outboundSending
  awaiting := h'.awaiting.trans h.awaiting

theorem SameQueue.outbound (h : SameQueue c c') : c'.outbound = c.outbound := by
  rw [ConnectionAccounts.outbound, h.outboundActive, h.outboundQueue, ConnectionAccounts.outbound]

theorem Ordered.sameQueue (hordered : c.Ordered) (h : SameQueue c c')
    (hcatchUps : c.closed = true → c'.catchUps = []) : c'.Ordered where
  gone hclosed := by
    rw [h.closed] at hclosed
    exact ⟨by rw [h.outbound]; exact (hordered.gone hclosed).1, hcatchUps hclosed⟩
  awaiting hclosed := by
    rw [h.awaiting, h.outboundActive]
    exact hordered.awaiting (h.closed ▸ hclosed)
  sending hclosed := by
    rw [h.outboundSending, h.outboundActive]
    exact hordered.sending (h.closed ▸ hclosed)
  queued hclosed hactive := by
    rw [h.outboundQueue]
    exact hordered.queued (h.closed ▸ hclosed) (h.outboundActive ▸ hactive)

end ConnectionAccounts

/-- A call on a connection keeps the accounts: what it is handed and what the connection owned is
owned by the connection afterwards, or released. -/
structure Accounted (limits : BridgeLimits) (f f' : BridgeFocus) (items reservations : List ℕ) :
    Prop where
  outbound : Keeps limits.maxGatewayOutboundBytes f.outbound f'.outbound
    (items ++ f.connection.ownedItems) f'.connection.ownedItems
  responses : Keeps limits.maxGatewayPendingCommandResponseBytes f.responses f'.responses
    (reservations ++ f.connection.ownedReservations) f'.connection.ownedReservations

namespace Accounted

variable {limits : BridgeLimits} {f f' f'' : BridgeFocus} {items reservations : List ℕ}

theorem refl (f : BridgeFocus) : Accounted limits f f [] [] :=
  ⟨.refl _ (List.Subset.refl _), .refl _ (List.Subset.refl _)⟩

theorem trans (h : Accounted limits f f' items reservations) (h' : Accounted limits f' f'' [] []) :
    Accounted limits f f'' items reservations :=
  ⟨h.outbound.trans h'.outbound, h.responses.trans h'.responses⟩

theorem of_same (houtbound : f'.outbound = f.outbound) (hresponses : f'.responses = f.responses)
    (hitems : f'.connection.ownedItems = f.connection.ownedItems)
    (hreservations : f'.connection.ownedReservations = f.connection.ownedReservations) :
    Accounted limits f f' [] [] where
  outbound := by
    rw [houtbound, hitems]
    exact .refl _ (List.Subset.refl _)
  responses := by
    rw [hresponses, hreservations]
    exact .refl _ (List.Subset.refl _)

theorem before (h : Accounted limits f f' [] []) (h' : Accounted limits f' f'' items reservations) :
    Accounted limits f f'' items reservations :=
  ⟨(h.outbound.frame items).trans h'.outbound, (h.responses.frame reservations).trans h'.responses⟩

theorem handIn (h : Accounted limits f' f'' items reservations)
    (houtbound : f'.outbound = f.outbound) (hresponses : f'.responses = f.responses)
    (hitems : f.connection.ownedItems ⊆ items ++ f'.connection.ownedItems)
    (hreservations : f.connection.ownedReservations ⊆
      reservations ++ f'.connection.ownedReservations) :
    Accounted limits f f'' [] [] :=
  ⟨houtbound ▸ h.outbound.mono hitems, hresponses ▸ h.responses.mono hreservations⟩

end Accounted

namespace BridgeFocus

variable (limits : BridgeLimits) {f : BridgeFocus}

/-! ## Releases -/

theorem releaseReservation_eq (f : BridgeFocus) (reservation : ℕ) :
    ∃ bytes, f.releaseReservation reservation =
      { f with
        responses := f.responses.release reservation
        connection := { f.connection with pendingCommandResponseBytes := bytes } } := by
  unfold releaseReservation Retention.release
  cases hitem : f.responses.items[reservation]? with
  | none => exact ⟨f.connection.pendingCommandResponseBytes, rfl⟩
  | some item =>
    dsimp only
    split
    · exact ⟨_, rfl⟩
    · exact ⟨f.connection.pendingCommandResponseBytes, rfl⟩

theorem callRelease_eq (f : BridgeFocus) (release : Option ℕ) :
    ∃ bytes, f.callRelease release =
      { f with
        responses := f.responses.releaseAll release.toList
        connection := { f.connection with pendingCommandResponseBytes := bytes } } := by
  cases release with
  | none => exact ⟨f.connection.pendingCommandResponseBytes, rfl⟩
  | some reservation => exact f.releaseReservation_eq reservation

theorem releaseOutboundPayload_eq (f : BridgeFocus) (item : OutboundPayload) :
    ∃ bytes, f.releaseOutboundPayload item =
      { outbound := f.outbound.release item.item
        responses := f.responses.releaseAll item.release.toList
        connection := { f.connection with pendingCommandResponseBytes := bytes } } :=
  callRelease_eq { f with outbound := f.outbound.release item.item } item.release

theorem foldl_releaseOutboundPayload (payloads : List OutboundPayload) (f : BridgeFocus) :
    ∃ bytes, payloads.foldl releaseOutboundPayload f =
      { outbound := f.outbound.releaseAll (payloads.map (·.item))
        responses := f.responses.releaseAll (payloads.filterMap (·.release))
        connection := { f.connection with pendingCommandResponseBytes := bytes } } := by
  induction payloads generalizing f with
  | nil => exact ⟨f.connection.pendingCommandResponseBytes, rfl⟩
  | cons item rest ih =>
    obtain ⟨bytes, hbytes⟩ := f.releaseOutboundPayload_eq item
    obtain ⟨bytes', hrest⟩ := ih (f.releaseOutboundPayload item)
    refine ⟨bytes', ?_⟩
    rw [List.foldl_cons, hrest, hbytes]
    cases hrelease : item.release with
    | none => simp [releaseAll, hrelease]
    | some reservation => simp [releaseAll, hrelease]

theorem foldl_releaseBuffered (entries : List BufferedCatchUpMessage) (f : BridgeFocus) :
    entries.foldl releaseBufferedCatchUpMessage f =
      { f with outbound := f.outbound.releaseAll (entries.map (·.item)) } := by
  induction entries generalizing f with
  | nil => rfl
  | cons entry rest ih =>
    rw [List.foldl_cons, ih]
    rfl

theorem accounted_releaseReservation (f : BridgeFocus) (reservation : ℕ) :
    Accounted limits f (f.releaseReservation reservation) [] [reservation] ∧
      f.connection.SameQueue (f.releaseReservation reservation).connection ∧
      (f.releaseReservation reservation).connection.catchUps = f.connection.catchUps := by
  obtain ⟨bytes, heq⟩ := f.releaseReservation_eq reservation
  rw [heq]
  refine ⟨⟨.refl _ (List.Subset.refl _), ?_⟩, ⟨rfl, rfl, rfl, rfl, rfl⟩, rfl⟩
  exact .release _ _ fun j hj => List.mem_cons.mp hj

theorem accounted_callRelease (f : BridgeFocus) (release : Option ℕ) :
    Accounted limits f (f.callRelease release) [] release.toList ∧
      f.connection.SameQueue (f.callRelease release).connection ∧
      (f.callRelease release).connection.catchUps = f.connection.catchUps := by
  cases release with
  | none => exact ⟨.refl f, .refl _, rfl⟩
  | some reservation => exact f.accounted_releaseReservation limits reservation

theorem accounted_releaseOutboundPayload (f : BridgeFocus) (item : OutboundPayload) :
    Accounted limits f (f.releaseOutboundPayload item) [item.item] item.release.toList ∧
      f.connection.SameQueue (f.releaseOutboundPayload item).connection ∧
      (f.releaseOutboundPayload item).connection.catchUps = f.connection.catchUps := by
  obtain ⟨bytes, heq⟩ := f.releaseOutboundPayload_eq item
  rw [heq]
  refine ⟨⟨?_, ?_⟩, ⟨rfl, rfl, rfl, rfl, rfl⟩, rfl⟩
  · exact .release _ _ fun j hj => List.mem_cons.mp hj
  · exact .releaseAll _ _ fun j hj => List.mem_append.mp hj

/-! ## Journals -/

theorem accounted_cancelCatchUp (f : BridgeFocus) (order : ℕ) :
    Accounted limits f (f.cancelCatchUp order) [] [] ∧
      f.connection.SameQueue (f.cancelCatchUp order).connection ∧
      (f.cancelCatchUp order).connection.catchUps =
        f.connection.catchUps.eraseP (·.order = order) := by
  unfold cancelCatchUp
  split
  · rename_i hnone
    refine ⟨.refl f, .refl _, ?_⟩
    rw [List.eraseP_of_forall_not]
    exact fun catchUp hmem => by simpa using List.find?_eq_none.mp hnone catchUp hmem
  · rename_i catchUp hfind
    rw [foldl_releaseBuffered]
    refine ⟨⟨?_, .refl _ (List.Subset.refl _)⟩, ⟨rfl, rfl, rfl, rfl, rfl⟩, rfl⟩
    refine .releaseAll _ _ fun j hj => ?_
    simp only [List.nil_append, ConnectionAccounts.ownedItems, List.mem_append,
      List.mem_flatMap] at hj ⊢
    rcases hj with hqueued | ⟨other, hother, hentry⟩
    · exact .inr (.inl hqueued)
    · obtain ⟨before, after, hcatchUps, hbefore⟩ := List.find?_eq_some_iff_append.mp hfind |>.2
      have herase : f.connection.catchUps.eraseP (·.order = order) = before ++ after := by
        have hhead := (List.find?_eq_some_iff_append.mp hfind).1
        rw [hcatchUps, List.eraseP_append_right _ (by simpa using hbefore)]
        exact congrArg _ (List.eraseP_cons_of_pos hhead)
      rw [hcatchUps] at hother
      rcases List.mem_append.mp hother with hmem | hmem
      · exact .inr (.inr ⟨other, by rw [herase]; exact List.mem_append_left _ hmem, hentry⟩)
      · rcases List.mem_cons.mp hmem with rfl | hmem
        · exact .inl hentry
        · exact .inr (.inr ⟨other, by rw [herase]; exact List.mem_append_right _ hmem, hentry⟩)

theorem accounted_cancelAll (catchUps : List SessionCatchUp) (f : BridgeFocus)
    (hcatchUps : f.connection.catchUps = catchUps) :
    let f' := catchUps.foldl (fun f catchUp => f.cancelCatchUp catchUp.order) f
    Accounted limits f f' [] [] ∧ f.connection.SameQueue f'.connection ∧
      f'.connection.catchUps = [] := by
  induction catchUps generalizing f with
  | nil => exact ⟨.refl f, .refl _, hcatchUps⟩
  | cons catchUp rest ih =>
    obtain ⟨hkept, hsame, herase⟩ := f.accounted_cancelCatchUp limits catchUp.order
    rw [hcatchUps, List.eraseP_cons_of_pos (by simp)] at herase
    obtain ⟨hkept', hsame', hnone⟩ := ih (f.cancelCatchUp catchUp.order) herase
    exact ⟨hkept.trans hkept', hsame.trans hsame', hnone⟩

/-! ## Disconnects -/

theorem accounted_releaseOutbound (f : BridgeFocus) (hcatchUps : f.connection.catchUps = []) :
    Accounted limits f f.releaseOutbound [] [] ∧
      f.releaseOutbound.connection.closed = f.connection.closed ∧
      f.releaseOutbound.connection.outbound = [] ∧
      f.releaseOutbound.connection.catchUps = [] := by
  unfold releaseOutbound
  obtain ⟨bytes, heq⟩ := foldl_releaseOutboundPayload
    (f.connection.outboundActive.toList ++ f.connection.outboundQueue) f
  dsimp only
  rw [heq]
  refine ⟨⟨?_, ?_⟩, rfl, rfl, hcatchUps⟩
  · refine .releaseAll _ _ fun j hj => .inl ?_
    simpa [ConnectionAccounts.ownedItems, hcatchUps, ConnectionAccounts.outbound] using hj
  · exact .releaseAll _ _ fun j hj => .inl hj

theorem accounted_disconnect (f : BridgeFocus) :
    Accounted limits f f.disconnect [] [] ∧ f.disconnect.connection.closed = true ∧
      (f.connection.closed = false → f.disconnect.connection.outbound = [] ∧
        f.disconnect.connection.catchUps = []) := by
  unfold disconnect
  split
  · rename_i hclosed
    refine ⟨.refl f, hclosed, fun hopen => ?_⟩
    rw [hclosed] at hopen
    cases hopen
  · obtain ⟨hkept, hsame, hnone⟩ := accounted_cancelAll limits f.connection.catchUps
      { f with connection := { f.connection with closed := true } } rfl
    dsimp only
    set cancelled := f.connection.catchUps.foldl (fun f catchUp => f.cancelCatchUp catchUp.order)
      { f with connection := { f.connection with closed := true } } with hcancelled
    obtain ⟨hkept', hclosed, houtbound, hcatchUps⟩ := accounted_releaseOutbound limits
      { cancelled with
        connection := { cancelled.connection with
          pendingCommands := []
          pendingCommandResponseBytes := 0 } } hnone
    refine ⟨?_, hclosed.trans hsame.closed, fun _ => ⟨houtbound, hcatchUps⟩⟩
    have hclose : Accounted limits f
        { f with connection := { f.connection with closed := true } } [] [] :=
      .of_same rfl rfl rfl rfl
    have hclear : Accounted limits cancelled
        { cancelled with
          connection := { cancelled.connection with
            pendingCommands := []
            pendingCommandResponseBytes := 0 } } [] [] :=
      .of_same rfl rfl rfl rfl
    exact ((hclose.trans hkept).trans hclear).trans hkept'

theorem ordered_disconnect (f : BridgeFocus)
    (h : f.connection.closed = true → f.connection.Ordered) :
    f.disconnect.connection.Ordered := by
  obtain ⟨-, hclosed, hgone⟩ := accounted_disconnect ⟨0, 0, 0, 0⟩ f
  cases hopen : f.connection.closed with
  | true =>
    rw [disconnect, if_pos hopen]
    exact h hopen
  | false =>
    refine ⟨fun _ => hgone hopen, ?_, ?_, ?_⟩ <;>
    · intro hnot
      rw [hclosed] at hnot
      cases hnot

/-! ## Sends -/

theorem accounted_refuse (release : Option ℕ)
    (hordered : f.connection.closed = true → f.connection.Ordered) :
    Accounted limits f (f.refuse release).1 [] release.toList ∧
      (f.refuse release).1.connection.Ordered := by
  obtain ⟨hkept, hclosed, -⟩ := f.accounted_disconnect limits
  obtain ⟨hreleased, hsame, hcatchUps⟩ :=
    f.disconnect.accounted_callRelease limits release
  have hdisconnected := f.ordered_disconnect hordered
  have hlast : (f.disconnect.callRelease release).connection.Ordered :=
    hdisconnected.sameQueue hsame fun hgone => by
      rw [hcatchUps]
      exact (hdisconnected.gone hgone).2
  exact ⟨hkept.before hreleased, hlast⟩

theorem accounted_startPayloadSend (item : OutboundPayload) (socket : SocketAnswer)
    (hopen : f.connection.closed = false) (hactive : f.connection.outboundActive = none)
    (hawaiting : f.connection.awaiting = []) :
    Accounted limits f (f.startPayloadSend item socket) [item.item] item.release.toList ∧
      (f.startPayloadSend item socket).connection.Ordered := by
  unfold startPayloadSend
  split
  · obtain ⟨hkept, hsame, hcatchUps⟩ :=
      f.accounted_releaseOutboundPayload limits item
    dsimp only
    set released := f.releaseOutboundPayload item with hreleased
    have hnone : released.connection.outboundActive = none := hsame.outboundActive.trans hactive
    have hcleared : Accounted limits released
        { released with
          connection := { released.connection with
            outboundSending := true
            outboundActive := none } } [] [] := by
      refine .of_same rfl rfl ?_ ?_
      · simp [ConnectionAccounts.ownedItems, ConnectionAccounts.outbound, hnone]
      · simp [ConnectionAccounts.ownedReservations, ConnectionAccounts.outbound, hnone]
    refine ⟨(hkept.trans hcleared).trans (accounted_disconnect limits _).1, ordered_disconnect _ ?_⟩
    intro hclosed
    have hnot : released.connection.closed = true := hclosed
    rw [hsame.closed, hopen] at hnot
    cases hnot
  · refine ⟨⟨.refl _ fun j hj => ?_, .refl _ fun j hj => ?_⟩, ?_⟩
    · simpa [ConnectionAccounts.ownedItems, ConnectionAccounts.outbound, hactive] using hj
    · cases hrelease : item.release <;>
        simpa [ConnectionAccounts.ownedReservations, ConnectionAccounts.outbound, hactive,
          hrelease] using hj
    · refine ⟨fun hclosed => ?_, fun _ => ?_, fun _ => rfl, fun _ hnone => ?_⟩
      · exact absurd (hopen.symm.trans hclosed) (by decide)
      · simp [hawaiting]
      · cases hnone

theorem accounted_retainOutboundPayload (call : PayloadCall) (large : Bool) (release : Option ℕ)
    (hopen : f.connection.closed = false) (hordered : f.connection.Ordered) :
    Accounted limits f (f.retainOutboundPayload limits call large release).1 [] release.toList ∧
      (f.retainOutboundPayload limits call large release).1.connection.Ordered := by
  unfold retainOutboundPayload
  split
  · exact accounted_refuse limits release fun _ => hordered
  · rename_i hfits
    have hfits' : f.outbound.total + call.bytes ≤ limits.maxGatewayOutboundBytes := by omega
    dsimp only
    split
    · rename_i hsending
      refine ⟨⟨.retain _ hfits' ?_ fun j hj => ?_, .refl _ fun j hj => ?_⟩, ?_⟩
      · simp [ConnectionAccounts.ownedItems, ConnectionAccounts.outbound]
      · simp only [List.nil_append, ConnectionAccounts.ownedItems, ConnectionAccounts.outbound,
          List.map_append, List.mem_append] at hj ⊢
        rcases hj with (hactive | hqueue) | hjournal
        · exact .inl (.inl hactive)
        · exact .inl (.inr (.inl hqueue))
        · exact .inr hjournal
      · simp only [ConnectionAccounts.ownedReservations, ConnectionAccounts.outbound,
          List.filterMap_append, List.mem_append] at hj ⊢
        rcases hj with hnew | hactive | hqueue
        · refine .inr (.inr ?_)
          cases release with
          | none => cases hnew
          | some reservation => simpa using hnew
        · exact .inl hactive
        · exact .inr (.inl hqueue)
      · have hactive : f.connection.outboundActive.isSome = true :=
          (hordered.sending hopen).symm.trans hsending
        refine ⟨fun hclosed => ?_, hordered.awaiting, hordered.sending, fun _ hnone => ?_⟩
        · exact absurd (hopen.symm.trans hclosed) (by decide)
        · have hnone' : f.connection.outboundActive = none := hnone
          rw [hnone'] at hactive
          cases hactive
    · rename_i hsending
      have hidle : f.connection.outboundActive = none := by
        have hsome := hordered.sending hopen
        cases hactive : f.connection.outboundActive with
        | none => rfl
        | some active =>
          rw [hactive] at hsome
          exact absurd hsome hsending
      have hawaiting : f.connection.awaiting = [] := by
        rw [hordered.awaiting hopen, hidle]
        rfl
      obtain ⟨hkept, hstarted⟩ := accounted_startPayloadSend limits
        (f := { f with
          outbound := f.outbound.retain call.bytes
          connection := { f.connection with
            outboundHistoryQueuedBytes :=
              if call.history then f.connection.outboundHistoryQueuedBytes + call.bytes
              else f.connection.outboundHistoryQueuedBytes
            outboundLargeItems :=
              if !call.history && large then f.connection.outboundLargeItems + 1
              else f.connection.outboundLargeItems } })
        { item := f.outbound.next, bytes := call.bytes, large := large, history := call.history
          release := release } call.socket hopen hidle hawaiting
      refine ⟨⟨Keeps.trans (.retain _ hfits' ?_ ?_) hkept.outbound, hkept.responses⟩, hstarted⟩
      · exact List.mem_append_left _ (List.mem_singleton_self _)
      · exact fun j hj => List.mem_append_right _ hj

theorem accounted_sendPayload (call : PayloadCall) (release : Option ℕ)
    (hordered : f.connection.Ordered) :
    Accounted limits f (f.sendPayload limits call release).1 [] release.toList ∧
      (f.sendPayload limits call release).1.connection.Ordered := by
  have hrefused := accounted_refuse limits release fun _ => hordered
  unfold sendPayload
  split
  · obtain ⟨hkept, hsame, hcatchUps⟩ := f.accounted_callRelease limits release
    refine ⟨hkept, hordered.sameQueue hsame fun hgone => ?_⟩
    rw [hcatchUps]
    exact (hordered.gone hgone).2
  · rename_i hopen
    have hopen' : f.connection.closed = false := by
      simpa using (not_or.mp hopen).1
    split
    · exact hrefused
    · rename_i large _
      have hretained := accounted_retainOutboundPayload limits call large release
        hopen' hordered
      split
      · exact hrefused
      split
      · exact hrefused
      split
      · split
        · exact hrefused
        · exact hretained
      · split
        · exact hrefused
        · exact hretained

/-- The callback of a send releases the active payload and starts the next one. -/
theorem accounted_payloadSent (item : OutboundPayload) (error : Bool) (socket : SocketAnswer)
    (hgone : f.connection.closed = true →
      f.connection.outbound = [] ∧ f.connection.catchUps = [])
    (hopen : f.connection.closed = false →
      f.connection.awaiting = [] ∧ f.connection.outboundActive = some item) :
    Accounted limits f (f.payloadSent item error socket) [] [] ∧
      (f.payloadSent item error socket).connection.Ordered := by
  obtain ⟨bytes, heq⟩ := f.releaseOutboundPayload_eq item
  unfold payloadSent
  dsimp only
  rw [heq]
  dsimp only
  rcases Bool.eq_false_or_eq_true f.connection.closed with hclosed | hclosed
  · obtain ⟨houtbound, hcatchUps⟩ := hgone hclosed
    have hactive : f.connection.outboundActive = none := by
      have := (List.append_eq_nil_iff.mp houtbound).1
      cases h : f.connection.outboundActive with
      | none => rfl
      | some active =>
        rw [h] at this
        cases this
    have hqueue : f.connection.outboundQueue = [] := (List.append_eq_nil_iff.mp houtbound).2
    rw [if_pos hclosed]
    refine ⟨⟨.release _ _ fun j hj => ?_, .releaseAll _ _ fun j hj => ?_⟩, ?_⟩
    · simp [ConnectionAccounts.ownedItems, houtbound, hcatchUps] at hj
    · simp [ConnectionAccounts.ownedReservations, houtbound] at hj
    · refine ⟨fun _ => ⟨?_, hcatchUps⟩, fun hnot => ?_, fun hnot => ?_, fun hnot => ?_⟩
      · simp [ConnectionAccounts.outbound, hactive, hqueue]
      all_goals
        have hnot' : f.connection.closed = false := hnot
        rw [hclosed] at hnot'
        cases hnot'
  · obtain ⟨hawaiting, hactive⟩ := hopen hclosed
    rw [if_neg (by simp [hclosed])]
    set sent : BridgeFocus :=
      { outbound := f.outbound.release item.item
        responses := f.responses.releaseAll item.release.toList
        connection := { f.connection with
          pendingCommandResponseBytes := bytes
          outboundActive := f.connection.outboundActive.filter (·.item ≠ item.item)
          outboundSending := false
          outboundHistoryQueuedBytes :=
            if item.history then f.connection.outboundHistoryQueuedBytes - item.bytes
            else f.connection.outboundHistoryQueuedBytes
          outboundLargeItems :=
            if !item.history && item.large then f.connection.outboundLargeItems - 1
            else f.connection.outboundLargeItems } } with hsent
    have hidle : sent.connection.outboundActive = none := by
      rw [hsent]
      simp [hactive]
    have hopenSent : sent.connection.closed = false := hclosed
    have hkept : Accounted limits f sent [] [] := by
      refine ⟨.release _ _ fun j hj => ?_, .releaseAll _ _ fun j hj => ?_⟩
      · simp only [List.nil_append, ConnectionAccounts.ownedItems, ConnectionAccounts.outbound,
          hactive, hidle, Option.toList_some, Option.toList_none, List.singleton_append,
          List.map_cons, List.mem_append, List.mem_cons] at hj ⊢
        rcases hj with (rfl | hqueue) | hjournal
        · exact .inl rfl
        · exact .inr (.inl hqueue)
        · exact .inr (.inr hjournal)
      · simp only [List.nil_append, ConnectionAccounts.ownedReservations,
          ConnectionAccounts.outbound, hactive, hidle, Option.toList_some, Option.toList_none,
          List.filterMap_append, List.mem_append] at hj ⊢
        rcases hj with hitem | hqueue
        · refine .inl ?_
          cases hrelease : item.release with
          | none => simp [hrelease] at hitem
          | some reservation => simpa [hrelease] using hitem
        · exact .inr hqueue
    have hnotClosed : sent.connection.closed = true → sent.connection.Ordered := by
      intro h
      rw [hopenSent] at h
      cases h
    split
    · exact ⟨hkept.trans (accounted_disconnect limits sent).1, ordered_disconnect sent hnotClosed⟩
    · split
      · rename_i hqueue
        refine ⟨hkept, fun h => ?_, fun _ => ?_, fun _ => ?_, fun _ _ => hqueue⟩
        · rw [hopenSent] at h
          cases h
        · rw [hidle]
          exact hawaiting
        · rw [hidle]
          rfl
      · rename_i next rest hfound
        have hqueue : sent.connection.outboundQueue = next :: rest := hfound
        set shifted : BridgeFocus :=
          { sent with
            connection := { sent.connection with
              outboundQueue := rest
              outboundSmallQueuedBytes :=
                if !next.history && !next.large then
                  sent.connection.outboundSmallQueuedBytes - next.bytes
                else sent.connection.outboundSmallQueuedBytes } } with hshifted
        have hitems : sent.connection.ownedItems ⊆
            [next.item] ++ shifted.connection.ownedItems := by
          intro j hj
          simpa [ConnectionAccounts.ownedItems, ConnectionAccounts.outbound, hidle, hqueue,
            hshifted] using hj
        have hreservations : sent.connection.ownedReservations ⊆
            next.release.toList ++ shifted.connection.ownedReservations := by
          intro j hj
          cases hrelease : next.release <;>
            simpa [ConnectionAccounts.ownedReservations, ConnectionAccounts.outbound, hidle, hqueue,
              hshifted, hrelease] using hj
        split
        · obtain ⟨hreleased, hsame, -⟩ :=
            shifted.accounted_releaseOutboundPayload limits next
          have hclose := hreleased.trans
            (accounted_disconnect limits (shifted.releaseOutboundPayload next)).1
          refine ⟨hkept.trans (hclose.handIn rfl rfl hitems hreservations),
            ordered_disconnect _ fun h => ?_⟩
          rw [hsame.closed] at h
          exact absurd (hopenSent.symm.trans h) (by decide)
        · obtain ⟨hstarted, hordered⟩ := accounted_startPayloadSend limits
            (f := shifted) next socket hopenSent hidle hawaiting
          exact ⟨hkept.trans (hstarted.handIn rfl rfl hitems hreservations), hordered⟩

/-! ## Calls on journals -/

theorem accounted_bufferCatchUpMessage (order : ℕ) (call : JournalCall)
    (hordered : f.connection.Ordered) :
    Accounted limits f (f.bufferCatchUpMessage limits order call) [] [] ∧
      (f.bufferCatchUpMessage limits order call).connection.Ordered := by
  have hclose : Accounted limits f f.closeForPolicyViolation [] [] ∧
      f.closeForPolicyViolation.connection.Ordered :=
    ⟨(f.accounted_disconnect limits).1, f.ordered_disconnect fun _ => hordered⟩
  unfold bufferCatchUpMessage
  split
  · exact ⟨.refl f, hordered⟩
  · rename_i hfound
    obtain ⟨hany, hopen⟩ := not_or.mp hfound
    rw [Decidable.not_not, List.any_eq_true] at hany
    obtain ⟨target, htarget, horder⟩ := hany
    split
    · exact hclose
    · split
      · exact hclose
      · rename_i hfits
        split
        · exact hclose
        split
        · exact hclose
        refine ⟨⟨.retain _ (by omega) ?_ fun j hj => ?_, .refl _ fun j hj => hj⟩, ?_⟩
        · refine List.mem_append_right _ (List.mem_flatMap.mpr ?_)
          refine ⟨_, List.mem_map_of_mem htarget, ?_⟩
          rw [if_pos (of_decide_eq_true horder)]
          simp
        · simp only [List.nil_append, ConnectionAccounts.ownedItems, List.mem_append,
            List.mem_flatMap] at hj ⊢
          rcases hj with hqueued | ⟨catchUp, hcatchUp, hentry⟩
          · exact .inl hqueued
          · refine .inr ⟨_, List.mem_map_of_mem hcatchUp, ?_⟩
            split
            · rw [List.map_append]
              exact List.mem_append_left _ hentry
            · exact hentry
        · exact hordered.sameQueue ⟨rfl, rfl, rfl, rfl, rfl⟩
            fun hclosed => absurd hclosed hopen

theorem accounted_foldl {α : Type*} (call : BridgeFocus → α → BridgeFocus)
    (hcall : ∀ f a, f.connection.Ordered →
      Accounted limits f (call f a) [] [] ∧ (call f a).connection.Ordered)
    (entries : List α) (f : BridgeFocus) (hordered : f.connection.Ordered) :
    Accounted limits f (entries.foldl call f) [] [] ∧
      (entries.foldl call f).connection.Ordered := by
  induction entries generalizing f with
  | nil => exact ⟨.refl f, hordered⟩
  | cons entry rest ih =>
    obtain ⟨hkept, hnext⟩ := hcall f entry hordered
    obtain ⟨hrest, hlast⟩ := ih (call f entry) hnext
    exact ⟨hkept.trans hrest, hlast⟩

theorem ordered_cancelCatchUp (order : ℕ) (hordered : f.connection.Ordered) :
    (f.cancelCatchUp order).connection.Ordered := by
  obtain ⟨-, hsame, herase⟩ := f.accounted_cancelCatchUp ⟨0, 0, 0, 0⟩ order
  refine hordered.sameQueue hsame fun hgone => ?_
  rw [herase, (hordered.gone hgone).2]
  rfl

theorem accounted_transferCatchUpJournalAndCancel («from» «to» : ℕ)
    (hordered : f.connection.Ordered) :
    Accounted limits f (f.transferCatchUpJournalAndCancel limits «from» «to») [] [] ∧
      (f.transferCatchUpJournalAndCancel limits «from» «to»).connection.Ordered := by
  unfold transferCatchUpJournalAndCancel
  have hcancelled := f.accounted_cancelCatchUp limits «from»
  obtain ⟨hkept, hlast⟩ := accounted_foldl limits
    (fun f entry =>
      if (f.journal «to»).any (·.payload = entry.payload) then f
      else
        f.bufferCatchUpMessage limits «to»
          { kind := entry.kind, payload := entry.payload, bytes := entry.bytes
            allowLarge := false })
    (fun f entry hordered => by
      split
      · exact ⟨.refl f, hordered⟩
      · exact accounted_bufferCatchUpMessage limits _ _ hordered)
    ((f.journal «from»).filter (·.kind ≠ .replayable)) (f.cancelCatchUp «from»)
    (ordered_cancelCatchUp «from» hordered)
  exact ⟨hcancelled.1.trans hkept, hlast⟩

theorem accounted_enqueueBufferedRekeys (order : ℕ)
    (socket : BufferedCatchUpMessage → SocketAnswer) (hordered : f.connection.Ordered) :
    Accounted limits f (f.enqueueBufferedRekeys limits order socket) [] [] ∧
      (f.enqueueBufferedRekeys limits order socket).connection.Ordered := by
  refine accounted_foldl limits _ (fun f entry hordered => ?_) _ f hordered
  have hreleased : Accounted limits f (f.releaseBufferedCatchUpMessage entry) [] [] :=
    ⟨.release _ _ fun j hj => .inr hj, .refl _ fun j hj => hj⟩
  obtain ⟨hsent, hlast⟩ := accounted_sendPayload limits
    (f := f.releaseBufferedCatchUpMessage entry)
    { bytes := entry.bytes, allowLarge := false, history := false, socket := socket entry } none
    hordered
  exact ⟨hreleased.trans hsent, hlast⟩

theorem accounted_beginCatchUp (hordered : f.connection.Ordered) :
    Accounted limits f f.beginCatchUp [] [] ∧ f.beginCatchUp.connection.Ordered := by
  unfold beginCatchUp
  split
  · exact ⟨.refl f, hordered⟩
  · rename_i hopen
    refine ⟨.of_same rfl rfl ?_ rfl, ?_⟩
    · simp [ConnectionAccounts.ownedItems, ConnectionAccounts.outbound]
    · exact hordered.sameQueue ⟨rfl, rfl, rfl, rfl, rfl⟩
        fun hclosed => absurd hclosed hopen

end BridgeFocus

/-! ## The invariant -/

namespace BridgeAccounts

variable {limits : BridgeLimits} {s : BridgeAccounts}

/-- The totals are sound, the connections are ordered, and what is retained is owned. The spare
reservations are about to be handed to a connection. -/
structure Invariant (limits : BridgeLimits) (spare : List ℕ) (s : BridgeAccounts) : Prop where
  outbound : s.outbound.Sound limits.maxGatewayOutboundBytes
  responses : s.responses.Sound limits.maxGatewayPendingCommandResponseBytes
  ordered : ∀ connection ∈ s.connections, connection.Ordered
  items : ∀ i, s.outbound.Holds i →
    (∃ connection ∈ s.connections, i ∈ connection.ownedItems) ∨
      ∃ operation ∈ s.historyPageOperations, operation.item = i
  reservations : ∀ i, s.responses.Holds i →
    (∃ connection ∈ s.connections, i ∈ connection.ownedReservations) ∨
      (∃ command ∈ s.commands, command.reservation = i) ∨ i ∈ spare
  /-- A command came over a connection. -/
  known : ∀ command ∈ s.commands, command.connection < s.connections.length

theorem Invariant.initial : BridgeAccounts.initial.Invariant limits [] where
  outbound := .empty
  responses := .empty
  ordered := by simp [BridgeAccounts.initial]
  items i hheld := absurd hheld not_holds_empty
  reservations i hheld := absurd hheld not_holds_empty
  known := by simp [BridgeAccounts.initial]

theorem mem_connections_of_set {n : ℕ} {connection : ConnectionAccounts}
    (hn : s.connections[n]? = some connection) (connection' : ConnectionAccounts)
    {other : ConnectionAccounts} (hother : other ∈ s.connections) :
    other = connection ∨ other ∈ s.connections.set n connection' := by
  obtain ⟨m, hm⟩ := List.mem_iff_getElem?.mp hother
  by_cases hmn : m = n
  · subst hmn
    rw [hn] at hm
    exact .inl (Option.some.inj hm).symm
  · refine .inr (List.mem_iff_getElem?.mpr ⟨m, ?_⟩)
    rw [List.getElem?_set_ne (Ne.symm hmn)]
    exact hm

namespace Invariant

variable {spare : List ℕ}

theorem put (h : s.Invariant limits spare) {n : ℕ} {connection : ConnectionAccounts}
    (hn : s.connections[n]? = some connection) {f : BridgeFocus}
    (hkept : Accounted limits (s.focus connection) f [] spare) (hordered : f.connection.Ordered) :
    (s.put n f).Invariant limits [] where
  outbound := hkept.outbound.sound h.outbound
  responses := hkept.responses.sound h.responses
  ordered other hother := by
    rcases List.mem_or_eq_of_mem_set hother with hold | rfl
    · exact h.ordered other hold
    · exact hordered
  items i hheld := by
    have hlength : n < s.connections.length := (List.getElem?_eq_some_iff.mp hn).1
    rcases hkept.outbound.held i hheld with howned | ⟨hbefore, hnot⟩
    · exact .inl ⟨_, List.mem_set hlength _, howned⟩
    · rcases h.items i hbefore with ⟨other, hother, howned⟩ | hpage
      · rcases mem_connections_of_set hn f.connection hother with rfl | hkept
        · exact absurd (List.mem_append_right _ howned) hnot
        · exact .inl ⟨other, hkept, howned⟩
      · exact .inr hpage
  reservations i hheld := by
    have hlength : n < s.connections.length := (List.getElem?_eq_some_iff.mp hn).1
    rcases hkept.responses.held i hheld with howned | ⟨hbefore, hnot⟩
    · exact .inl ⟨_, List.mem_set hlength _, howned⟩
    · rcases h.reservations i hbefore with ⟨other, hother, howned⟩ | hcommand | hspare
      · rcases mem_connections_of_set hn f.connection hother with rfl | hkept
        · exact absurd (List.mem_append_right _ howned) hnot
        · exact .inl ⟨other, hkept, howned⟩
      · exact .inr (.inl hcommand)
      · exact absurd (List.mem_append_left _ hspare) hnot
  known command hcommand := by
    rw [BridgeAccounts.put, List.length_set]
    exact h.known command hcommand

theorem on (h : s.Invariant limits []) (n : ℕ) (call : BridgeFocus → BridgeFocus)
    (hcall : ∀ f, f.connection.Ordered →
      Accounted limits f (call f) [] [] ∧ (call f).connection.Ordered) :
    (s.on n call).Invariant limits [] := by
  unfold BridgeAccounts.on
  split
  · exact h
  · rename_i connection hn
    obtain ⟨hkept, hordered⟩ := hcall (s.focus connection)
      (h.ordered connection (List.mem_of_getElem? hn))
    exact h.put hn hkept hordered

theorem handleCommand (h : s.Invariant limits []) (n responseWeight : ℕ) :
    (s.handleCommand limits n responseWeight).Invariant limits [] := by
  unfold BridgeAccounts.handleCommand
  split
  · exact h
  · rename_i connection hn
    split
    · exact h
    split
    · exact h
    split
    · exact h
    split
    · exact h
    rename_i hopen _ _ hfits
    have hconnection := h.ordered connection (List.mem_of_getElem? hn)
    have hlength : n < s.connections.length := (List.getElem?_eq_some_iff.mp hn).1
    refine ⟨h.outbound, h.responses.retain (by omega), fun other hother => ?_, fun i hheld => ?_,
      fun i hheld => ?_, fun command hcommand => ?_⟩
    · rcases List.mem_or_eq_of_mem_set hother with hold | rfl
      · exact h.ordered other hold
      · exact hconnection.sameQueue ⟨rfl, rfl, rfl, rfl, rfl⟩
          fun hclosed => absurd hclosed hopen
    · rcases h.items i hheld with ⟨other, hother, howned⟩ | hpage
      · rcases mem_connections_of_set hn _ hother with rfl | hkept
        · exact .inl ⟨_, List.mem_set hlength _, howned⟩
        · exact .inl ⟨other, hkept, howned⟩
      · exact .inr hpage
    · rcases holds_retain.mp hheld with hbefore | rfl
      · rcases h.reservations i hbefore with
          ⟨other, hother, howned⟩ | ⟨command, hcommand, hi⟩ | hspare
        · rcases mem_connections_of_set hn _ hother with rfl | hkept
          · exact .inl ⟨_, List.mem_set hlength _, howned⟩
          · exact .inl ⟨other, hkept, howned⟩
        · exact .inr (.inl ⟨command, List.mem_append_left _ hcommand, hi⟩)
        · cases hspare
      · exact .inr (.inl ⟨_, List.mem_append_right _ (List.mem_singleton_self _), rfl⟩)
    · rw [List.length_set]
      rcases List.mem_append.mp hcommand with hold | hnew
      · exact h.known command hold
      · obtain rfl := List.mem_singleton.mp hnew
        exact hlength

end Invariant

theorem accounted_commandSettledAt (limits : BridgeLimits) {f : BridgeFocus} (reservation : ℕ)
    (frame : Option BridgeFocus.PayloadCall) (hordered : f.connection.Ordered) :
    Accounted limits f (commandSettledAt limits f reservation frame) [] [reservation] ∧
      (commandSettledAt limits f reservation frame).connection.Ordered := by
  have herase : ∀ g : BridgeFocus, Accounted limits g
      { g with
        connection := { g.connection with
          pendingCommands := g.connection.pendingCommands.erase reservation } } [] [] :=
    fun g => .of_same rfl rfl rfl rfl
  have hclear : ∀ g : BridgeFocus, g.connection.Ordered →
      ({ g.connection with
        pendingCommands := g.connection.pendingCommands.erase reservation } :
          ConnectionAccounts).Ordered :=
    fun g hg => hg.sameQueue ⟨rfl, rfl, rfl, rfl, rfl⟩
      fun hclosed => (hg.gone hclosed).2
  have hrelease : ∀ g : BridgeFocus, g.connection.Ordered →
      (g.releaseReservation reservation).connection.Ordered := by
    intro g hg
    obtain ⟨-, hsame, hcatchUps⟩ := g.accounted_releaseReservation limits reservation
    refine hg.sameQueue hsame fun hclosed => ?_
    rw [hcatchUps]
    exact (hg.gone hclosed).2
  unfold commandSettledAt
  cases frame with
  | none =>
    dsimp only [Option.elim_none]
    rw [if_neg (by decide)]
    exact ⟨(herase f).before (BridgeFocus.accounted_releaseReservation limits _ _).1,
      hrelease _ (hclear f hordered)⟩
  | some call =>
    obtain ⟨hsent, hlast⟩ := BridgeFocus.accounted_sendPayload limits (f := f) call
      (some reservation) hordered
    dsimp only [Option.elim_some]
    have hboth := hsent.trans (herase _)
    split
    · exact ⟨hboth, hclear _ hlast⟩
    · refine ⟨?_, hrelease _ (hclear _ hlast)⟩
      have hagain := (BridgeFocus.accounted_releaseReservation limits
        { (f.sendPayload limits call (some reservation)).1 with
          connection := { (f.sendPayload limits call (some reservation)).1.connection with
            pendingCommands := (f.sendPayload limits call
              (some reservation)).1.connection.pendingCommands.erase reservation } }
        reservation).1
      exact hboth.trans
        (hagain.handIn rfl rfl (fun j hj => hj) fun j hj => List.mem_append_right _ hj)

namespace Invariant

theorem commandSettled (h : s.Invariant limits []) {command : ℕ} {pending : PendingResponse}
    (hpending : s.commands[command]? = some pending) :
    ({ s with commands := s.commands.eraseIdx command } : BridgeAccounts).Invariant limits
      [pending.reservation] where
  outbound := h.outbound
  responses := h.responses
  ordered := h.ordered
  items := h.items
  reservations i hheld := by
    rcases h.reservations i hheld with howned | ⟨other, hother, rfl⟩ | hspare
    · exact .inl howned
    · obtain ⟨m, hm⟩ := List.mem_iff_getElem?.mp hother
      by_cases hmc : m = command
      · subst hmc
        rw [hpending] at hm
        obtain rfl := Option.some.inj hm
        exact .inr (.inr (List.mem_singleton_self _))
      · exact .inr (.inl ⟨other, List.mem_eraseIdx_iff_getElem?.mpr ⟨m, hmc, hm⟩, rfl⟩)
    · cases hspare
  known other hother := h.known other (List.mem_of_mem_eraseIdx hother)

theorem releaseHistoryPageBytes (h : s.Invariant limits []) (operation : HistoryPageOperation) :
    (s.releaseHistoryPageBytes operation).Invariant limits [] where
  outbound := h.outbound.release _
  responses := h.responses
  ordered := h.ordered
  items i hheld := h.items i (holds_release.mp hheld).1
  reservations := h.reservations
  known := h.known

theorem settleHistoryPage (h : s.Invariant limits []) {index : ℕ} {operation : HistoryPageOperation}
    (hfound : s.historyPageOperations[index]? = some operation) :
    ({ s.releaseHistoryPageBytes operation with
        historyPageOperations := s.historyPageOperations.eraseIdx index } :
      BridgeAccounts).Invariant limits [] where
  outbound := h.outbound.release _
  responses := h.responses
  ordered := h.ordered
  items i hheld := by
    obtain ⟨hbefore, hne⟩ := holds_release.mp hheld
    rcases h.items i hbefore with howned | ⟨other, hother, rfl⟩
    · exact .inl howned
    · obtain ⟨m, hm⟩ := List.mem_iff_getElem?.mp hother
      have hmi : m ≠ index := by
        rintro rfl
        rw [hfound] at hm
        obtain rfl := Option.some.inj hm
        exact hne rfl
      exact .inr ⟨other, List.mem_eraseIdx_iff_getElem?.mpr ⟨m, hmi, hm⟩, rfl⟩
  reservations := h.reservations
  known := h.known

theorem handleHistoryPage (h : s.Invariant limits []) (n : ℕ) (sessionHandle : JsString)
    (targetBytes : ℕ) :
    (s.handleHistoryPage limits n sessionHandle targetBytes).Invariant limits [] := by
  unfold BridgeAccounts.handleHistoryPage
  split
  · exact h
  split
  · exact h
  split
  · exact h
  rename_i hfits
  obtain ⟨-, hfits'⟩ := not_or.mp hfits
  refine ⟨h.outbound.retain (by omega), h.responses, h.ordered, fun i hheld => ?_,
    h.reservations, h.known⟩
  rcases holds_retain.mp hheld with hbefore | rfl
  · rcases h.items i hbefore with howned | ⟨other, hother, hi⟩
    · exact .inl howned
    · exact .inr ⟨other, List.mem_append_left _ hother, hi⟩
  · exact .inr ⟨_, List.mem_append_right _ (List.mem_singleton_self _), rfl⟩

theorem accounted_sent {f : BridgeFocus} (sent : ℕ) (error : Bool) (socket : SocketAnswer)
    (hordered : f.connection.Ordered) {item : OutboundPayload}
    (hsent : f.connection.awaiting[sent]? = some item) :
    Accounted limits f
        ({ f with
          connection := { f.connection with
            awaiting := f.connection.awaiting.eraseIdx sent } }.payloadSent item error socket)
        [] [] ∧
      ({ f with
        connection := { f.connection with
          awaiting := f.connection.awaiting.eraseIdx sent } }.payloadSent item error
            socket).connection.Ordered := by
  have herased : Accounted limits f
      { f with
        connection := { f.connection with
          awaiting := f.connection.awaiting.eraseIdx sent } } [] [] :=
    .of_same rfl rfl rfl rfl
  obtain ⟨hkept, hlast⟩ := BridgeFocus.accounted_payloadSent limits
    (f := { f with
      connection := { f.connection with awaiting := f.connection.awaiting.eraseIdx sent } })
    item error socket hordered.gone (fun hopen => by
      have hawaiting := hordered.awaiting hopen
      cases hactive : f.connection.outboundActive with
      | none =>
        rw [hawaiting, hactive] at hsent
        cases hsent
      | some active =>
        rw [hawaiting, hactive] at hsent
        cases sent with
        | zero =>
          obtain rfl : active = item := by simpa using hsent
          refine ⟨?_, rfl⟩
          change f.connection.awaiting.eraseIdx 0 = []
          rw [hawaiting, hactive]
          rfl
        | succ sent => simp at hsent)
  exact ⟨herased.trans hkept, hlast⟩

theorem step (h : s.Invariant limits []) (call : BridgeCall) :
    (s.step limits call).Invariant limits [] := by
  cases call with
  | handleConnection =>
    refine ⟨h.outbound, h.responses, fun connection hconnection => ?_, fun i hheld => ?_,
      fun i hheld => ?_, fun command hcommand => ?_⟩
    · rcases List.mem_append.mp hconnection with hold | hnew
      · exact h.ordered connection hold
      · obtain rfl := List.mem_singleton.mp hnew
        exact ⟨fun hclosed => (nomatch hclosed), fun _ => rfl, fun _ => rfl, fun _ _ => rfl⟩
    · rcases h.items i hheld with ⟨other, hother, howned⟩ | hpage
      · exact .inl ⟨other, List.mem_append_left _ hother, howned⟩
      · exact .inr hpage
    · rcases h.reservations i hheld with ⟨other, hother, howned⟩ | hrest
      · exact .inl ⟨other, List.mem_append_left _ hother, howned⟩
      · exact .inr hrest
    · have := h.known command hcommand
      change command.connection < (s.connections ++ [_]).length
      rw [List.length_append]
      omega
  | completeHello n maxServerFrameBytes =>
    refine h.on n (·.completeHello maxServerFrameBytes) fun f hordered =>
      ⟨.of_same rfl rfl rfl rfl, ?_⟩
    exact hordered.sameQueue ⟨rfl, rfl, rfl, rfl, rfl⟩
      fun hclosed => (hordered.gone hclosed).2
  | send n call =>
    exact h.on n _ fun f hordered => f.accounted_sendPayload limits call none hordered
  | payloadSent n sent error socket =>
    simp only [BridgeAccounts.step]
    refine h.on n _ fun f hordered => ?_
    split
    · exact ⟨.refl f, hordered⟩
    · rename_i item hsent
      exact accounted_sent sent error socket hordered hsent
  | beginCatchUp n => exact h.on n _ fun f hordered => f.accounted_beginCatchUp limits hordered
  | bufferCatchUpMessage n order call =>
    exact h.on n _ fun f hordered => f.accounted_bufferCatchUpMessage limits order call hordered
  | cancelCatchUp n order =>
    exact h.on n _ fun f hordered =>
      ⟨(f.accounted_cancelCatchUp limits order).1, f.ordered_cancelCatchUp order hordered⟩
  | enqueueBufferedRekeys n order socket =>
    exact h.on n _ fun f hordered => f.accounted_enqueueBufferedRekeys limits order socket hordered
  | transferCatchUpJournalAndCancel n «from» «to» =>
    exact h.on n _ fun f hordered =>
      f.accounted_transferCatchUpJournalAndCancel limits «from» «to» hordered
  | disconnect n =>
    exact h.on n _ fun f hordered =>
      ⟨(f.accounted_disconnect limits).1, f.ordered_disconnect fun _ => hordered⟩
  | handleCommand n responseWeight => exact h.handleCommand n responseWeight
  | commandSettled command frame =>
    simp only [BridgeAccounts.step]
    split
    · exact h
    · rename_i pending hpending
      have hspare := h.commandSettled hpending
      unfold BridgeAccounts.on
      split
      · rename_i hnone
        have hlength := h.known pending (List.mem_of_getElem? hpending)
        exact absurd hlength (Nat.not_lt.mpr (List.getElem?_eq_none_iff.mp hnone))
      · rename_i connection hn
        obtain ⟨hkept, hlast⟩ := accounted_commandSettledAt limits
          (f := s.focus connection) pending.reservation frame
          (h.ordered connection (List.mem_of_getElem? hn))
        exact hspare.put hn hkept hlast
  | handleHistoryPage n sessionHandle targetBytes =>
    exact h.handleHistoryPage n sessionHandle targetBytes
  | historyPageRead operation =>
    simp only [BridgeAccounts.step]
    split
    · exact h
    · exact h.releaseHistoryPageBytes _
  | settleHistoryPage operation =>
    simp only [BridgeAccounts.step]
    split
    · exact h
    · rename_i found hfound
      exact h.settleHistoryPage hfound

end Invariant

end BridgeAccounts

/-- **The totals are what is retained.** In every run of the bridge, the outbound total of the
gateway is the sum of what is retained for its sockets, journals and history pages, and within its
cap; the total of pending responses is the sum of the reservations that are not released, and within
its cap; what is not retained any more was released exactly once; what is retained belongs to an
open connection or to an operation that has not settled, and its amount is the bytes of the payload,
message or page or the weight of the response; and when all connections are gone and everything has
settled, both totals are zero and everything was released exactly once. -/
theorem gateway_accounting (limits : BridgeLimits) (calls : List BridgeCall) :
    let s := runFrom (BridgeAccounts.step limits) .initial calls
    (s.outbound.total = tally RetainedItem.weight s.outbound.items ∧
        s.outbound.total ≤ limits.maxGatewayOutboundBytes) ∧
      (s.responses.total = tally RetainedItem.weight s.responses.items ∧
        s.responses.total ≤ limits.maxGatewayPendingCommandResponseBytes) ∧
      (∀ item ∈ s.outbound.items ++ s.responses.items,
        item.releases = if item.retained then 0 else 1) ∧
      (∀ i, s.outbound.Holds i →
        (∃ connection ∈ s.connections, connection.closed = false ∧
          i ∈ connection.ownedItems) ∨
        ∃ operation ∈ s.historyPageOperations, operation.item = i) ∧
      (∀ i, s.responses.Holds i →
        (∃ connection ∈ s.connections, connection.closed = false ∧
          i ∈ connection.ownedReservations) ∨
        ∃ command ∈ s.commands, command.reservation = i) ∧
      (∀ connection ∈ s.connections,
        (∀ payload ∈ connection.outbound, s.outbound.AmountOf payload.item payload.bytes) ∧
          ∀ catchUp ∈ connection.catchUps, ∀ message ∈ catchUp.buffered,
            s.outbound.AmountOf message.item message.bytes) ∧
      (∀ operation ∈ s.historyPageOperations,
        s.outbound.AmountOf operation.item operation.targetBytes) ∧
      (∀ command ∈ s.commands,
        s.responses.AmountOf command.reservation command.responseWeight) ∧
      (s.Settled → s.outbound.total = 0 ∧ s.responses.total = 0 ∧
        ∀ item ∈ s.outbound.items ++ s.responses.items, item.releases = 1) := by
  have hlast : (runFrom (BridgeAccounts.step limits) .initial calls).Invariant limits [] :=
    runFrom_invariant (I := BridgeAccounts.Invariant limits []) (fun s call h => h.step call) calls
      .initial
  have hprices : (runFrom (BridgeAccounts.step limits) .initial calls).Prices :=
    runFrom_invariant (I := BridgeAccounts.Prices) (fun s call h => h.step call) calls .initial
  have hopen : ∀ connection : ConnectionAccounts, connection.Ordered →
      connection.closed = true →
        connection.ownedItems = [] ∧ connection.ownedReservations = [] := by
    intro connection hordered hclosed
    obtain ⟨houtbound, hcatchUps⟩ := hordered.gone hclosed
    simp [ConnectionAccounts.ownedItems, ConnectionAccounts.ownedReservations, houtbound, hcatchUps]
  have hitems : ∀ i, (runFrom (BridgeAccounts.step limits) .initial calls).outbound.Holds i →
      (∃ connection ∈ (runFrom (BridgeAccounts.step limits) .initial calls).connections,
        connection.closed = false ∧ i ∈ connection.ownedItems) ∨
      ∃ operation ∈ (runFrom (BridgeAccounts.step limits) .initial calls).historyPageOperations,
        operation.item = i := by
    intro i hheld
    refine (hlast.items i hheld).imp_left fun ⟨connection, hconnection, howned⟩ => ?_
    refine ⟨connection, hconnection, ?_, howned⟩
    by_contra hclosed
    rw [(hopen connection (hlast.ordered connection hconnection) (by simpa using hclosed)).1]
      at howned
    cases howned
  have hreservations : ∀ i,
      (runFrom (BridgeAccounts.step limits) .initial calls).responses.Holds i →
      (∃ connection ∈ (runFrom (BridgeAccounts.step limits) .initial calls).connections,
        connection.closed = false ∧ i ∈ connection.ownedReservations) ∨
      ∃ command ∈ (runFrom (BridgeAccounts.step limits) .initial calls).commands,
        command.reservation = i := by
    intro i hheld
    rcases hlast.reservations i hheld with ⟨connection, hconnection, howned⟩ | hcommand | hspare
    · refine .inl ⟨connection, hconnection, ?_, howned⟩
      by_contra hclosed
      rw [(hopen connection (hlast.ordered connection hconnection) (by simpa using hclosed)).2]
        at howned
      cases howned
    · exact .inr hcommand
    · cases hspare
  refine ⟨⟨hlast.outbound.total, hlast.outbound.bounded⟩,
    ⟨hlast.responses.total, hlast.responses.bounded⟩, fun item hitem => ?_, hitems, hreservations,
    fun connection hconnection => ⟨fun payload hpayload => ?_,
      fun catchUp hcatchUp message hmessage => ?_⟩,
    hprices.pages, hprices.commands, fun hsettled => ?_⟩
  · rcases List.mem_append.mp hitem with houtbound | hresponses
    · exact hlast.outbound.once item houtbound
    · exact hlast.responses.once item hresponses
  · exact hprices.connections connection hconnection _
      (List.mem_append_left _ (List.mem_map_of_mem hpayload))
  · exact hprices.connections connection hconnection _
      (List.mem_append_right _ (List.mem_flatMap.mpr ⟨catchUp, hcatchUp,
        List.mem_map_of_mem hmessage⟩))
  · obtain ⟨hclosed, hcommands, hpages⟩ := hsettled
    obtain ⟨houtbound, honce⟩ := hlast.outbound.settled fun i hheld => by
      rcases hitems i hheld with ⟨connection, hconnection, hopen, -⟩ | ⟨operation, hoperation, -⟩
      · exact absurd (hopen.symm.trans (hclosed connection hconnection)) (by decide)
      · rw [hpages] at hoperation
        cases hoperation
    obtain ⟨hresponses, honce'⟩ := hlast.responses.settled fun i hheld => by
      rcases hreservations i hheld with ⟨connection, hconnection, hopen, -⟩ | ⟨command, hcommand, -⟩
      · exact absurd (hopen.symm.trans (hclosed connection hconnection)) (by decide)
      · rw [hcommands] at hcommand
        cases hcommand
    refine ⟨houtbound, hresponses, fun item hitem => ?_⟩
    rcases List.mem_append.mp hitem with hitem | hitem
    · exact honce item hitem
    · exact honce' item hitem

/-- The caps of the sample. -/
def sampleBridgeLimits : BridgeLimits where
  maxPendingCommandResponseBytes := 64
  maxGatewayPendingCommandResponseBytes := 64
  maxGatewayOutboundBytes := 64
  maxConcurrentHistoryPages := 2

/-- Two payloads, a buffered message, a history page and a command. -/
def sampleBridgeCalls : List BridgeCall :=
  let socket : SocketAnswer := { isOpen := true, bufferedAmount := 0, sendThrows := false }
  [.handleConnection,
    .send 0 { bytes := 5, allowLarge := false, history := false, socket := socket },
    .send 0 { bytes := 7, allowLarge := false, history := false, socket := socket },
    .beginCatchUp 0,
    .bufferCatchUpMessage 0 1
      { kind := .nonReplayable, payload := js "m", bytes := 11, allowLarge := false },
    .handleHistoryPage 0 (js "a") 13, .handleCommand 0 17]

/-- The calls under which what the sample started settles. -/
def sampleBridgeEnd : List BridgeCall :=
  sampleBridgeCalls ++ [.commandSettled 0 none, .settleHistoryPage 0, .disconnect 0]

/-- The sample retains what its calls are about, and releases it when they settle. -/
theorem gateway_accounting_sample :
    ((runFrom (BridgeAccounts.step sampleBridgeLimits) .initial sampleBridgeCalls).outbound.total =
          36 ∧
        tally RetainedItem.weight (runFrom (BridgeAccounts.step sampleBridgeLimits) .initial
          sampleBridgeCalls).outbound.items = 36) ∧
      (runFrom (BridgeAccounts.step sampleBridgeLimits) .initial sampleBridgeEnd).outbound.total =
        0 ∧
      ∀ item ∈ (runFrom (BridgeAccounts.step sampleBridgeLimits) .initial
        sampleBridgeEnd).outbound.items, item.releases = 1 := by
  have htotal : (runFrom (BridgeAccounts.step sampleBridgeLimits) .initial
      sampleBridgeCalls).outbound.total = 36 := by decide +kernel
  have hsum := (gateway_accounting sampleBridgeLimits sampleBridgeCalls).1.1
  have hsettled := (gateway_accounting sampleBridgeLimits sampleBridgeEnd).2.2.2.2.2.2.2.2
    (by unfold BridgeAccounts.Settled; decide +kernel)
  exact ⟨⟨htotal, hsum.symm.trans htotal⟩, hsettled.1,
    fun item hitem => hsettled.2.2 item (List.mem_append_left _ hitem)⟩

end PiAgentWeb
