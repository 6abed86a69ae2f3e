import PiAgentWeb.Server.OutboundAccounting
import PiAgentWeb.Library.Runs

/-!
# What is retained for a payload

An item of the outbound total is retained with the bytes of the payload, of the buffered message or
of the history page that owns it, and a reservation with the weight of its command. An amount never
changes, so it is enough to look at the calls that retain something.
-/

namespace PiAgentWeb

open Retention

/-- The payloads that a connection is sending or about to send. -/
def ConnectionAccounts.outbound (connection : ConnectionAccounts) : List OutboundPayload :=
  connection.outboundActive.toList ++ connection.outboundQueue

/-- The retained items of a connection with the bytes of what owns them. -/
def ConnectionAccounts.prices (connection : ConnectionAccounts) : List (ℕ × ℕ) :=
  connection.outbound.map (fun payload => (payload.item, payload.bytes)) ++
    connection.catchUps.flatMap fun catchUp =>
      catchUp.buffered.map fun entry => (entry.item, entry.bytes)

/-- A call on a connection keeps all amounts, and every item that the connection owns afterwards is
one it was handed, one it owned before, or one that was retained with its bytes. -/
structure Priced (f f' : BridgeFocus) (handed : List (ℕ × ℕ)) : Prop where
  outbound : ∀ i amount, f.outbound.AmountOf i amount → f'.outbound.AmountOf i amount
  responses : ∀ i amount, f.responses.AmountOf i amount → f'.responses.AmountOf i amount
  prices : ∀ entry ∈ f'.connection.prices,
    entry ∈ handed ++ f.connection.prices ∨ f'.outbound.AmountOf entry.1 entry.2

namespace Priced

variable {f f' f'' : BridgeFocus} {handed : List (ℕ × ℕ)}

theorem refl (f : BridgeFocus) : Priced f f [] :=
  ⟨fun _ _ h => h, fun _ _ h => h, fun _ h => .inl h⟩

theorem trans (h : Priced f f' handed) (h' : Priced f' f'' []) : Priced f f'' handed where
  outbound i amount hamount := h'.outbound i amount (h.outbound i amount hamount)
  responses i amount hamount := h'.responses i amount (h.responses i amount hamount)
  prices entry hentry := by
    rcases h'.prices entry hentry with hkept | hamount
    · exact (h.prices entry hkept).imp_right (h'.outbound _ _)
    · exact .inr hamount

/-- What is handed to a call was owned before, or retained before with its bytes. -/
theorem handIn (h : Priced f' f'' handed)
    (houtbound : ∀ i amount, f.outbound.AmountOf i amount → f'.outbound.AmountOf i amount)
    (hresponses : f'.responses = f.responses)
    (hprices : ∀ entry ∈ handed ++ f'.connection.prices,
      entry ∈ f.connection.prices ∨ f'.outbound.AmountOf entry.1 entry.2) : Priced f f'' [] where
  outbound i amount hamount := h.outbound i amount (houtbound i amount hamount)
  responses i amount hamount := h.responses i amount (hresponses ▸ hamount)
  prices entry hentry := by
    rcases h.prices entry hentry with hkept | hamount
    · exact (hprices entry hkept).imp_right (h.outbound _ _)
    · exact .inr hamount

theorem of_subset (houtbound : f'.outbound = f.outbound) (hresponses : f'.responses = f.responses)
    (hprices : f'.connection.prices ⊆ f.connection.prices) : Priced f f' [] where
  outbound _ _ hamount := houtbound ▸ hamount
  responses _ _ hamount := hresponses ▸ hamount
  prices _ hentry := .inl (hprices hentry)

end Priced

namespace BridgeFocus

variable (limits : BridgeLimits) {f : BridgeFocus}

theorem priced_foldl {α : Type*} {call : BridgeFocus → α → BridgeFocus}
    (hcall : ∀ f a, Priced f (call f a) []) (entries : List α) (f : BridgeFocus) :
    Priced f (entries.foldl call f) [] := by
  induction entries generalizing f with
  | nil => exact .refl f
  | cons entry rest ih => exact (hcall f entry).trans (ih _)

/-! ## Releases -/

theorem priced_releaseReservation (f : BridgeFocus) (reservation : ℕ) :
    Priced f (f.releaseReservation reservation) [] := by
  unfold releaseReservation
  split
  · exact .refl f
  · split
    · exact ⟨fun _ _ h => h, fun _ _ h => h.release reservation, fun _ h => .inl h⟩
    · exact .refl f

theorem priced_callRelease (f : BridgeFocus) (release : Option ℕ) :
    Priced f (f.callRelease release) [] := by
  cases release with
  | none => exact .refl f
  | some reservation => exact f.priced_releaseReservation reservation

theorem priced_releaseOutboundPayload (f : BridgeFocus) (item : OutboundPayload) :
    Priced f (f.releaseOutboundPayload item) [] := by
  have hreleased : Priced f { f with outbound := f.outbound.release item.item } [] :=
    ⟨fun _ _ h => h.release item.item, fun _ _ h => h, fun _ h => .inl h⟩
  exact hreleased.trans (priced_callRelease _ item.release)

theorem priced_releaseBufferedCatchUpMessage (f : BridgeFocus) (entry : BufferedCatchUpMessage) :
    Priced f (f.releaseBufferedCatchUpMessage entry) [] :=
  ⟨fun _ _ h => h.release entry.item, fun _ _ h => h, fun _ h => .inl h⟩

/-- A connection with fewer journals owns less. -/
theorem prices_of_sublist {c c' : ConnectionAccounts} (houtbound : c'.outbound ⊆ c.outbound)
    (hcatchUps : c'.catchUps ⊆ c.catchUps) : c'.prices ⊆ c.prices := by
  intro entry hentry
  simp only [ConnectionAccounts.prices, List.mem_append, List.mem_map, List.mem_flatMap] at hentry ⊢
  rcases hentry with ⟨payload, hpayload, rfl⟩ | ⟨catchUp, hcatchUp, hentry⟩
  · exact .inl ⟨payload, houtbound hpayload, rfl⟩
  · exact .inr ⟨catchUp, hcatchUps hcatchUp, hentry⟩

theorem priced_cancelCatchUp (f : BridgeFocus) (order : ℕ) :
    Priced f (f.cancelCatchUp order) [] := by
  unfold cancelCatchUp
  split
  · exact .refl f
  · refine Priced.trans ?_ (priced_foldl priced_releaseBufferedCatchUpMessage _ _)
    refine .of_subset rfl rfl (prices_of_sublist (List.Subset.refl _) ?_)
    exact List.eraseP_sublist.subset

theorem priced_releaseOutbound (f : BridgeFocus) : Priced f f.releaseOutbound [] := by
  unfold releaseOutbound
  refine Priced.trans (priced_foldl priced_releaseOutboundPayload
    (f.connection.outboundActive.toList ++ f.connection.outboundQueue) f) ?_
  refine .of_subset rfl rfl ?_
  exact prices_of_sublist (List.nil_subset _) (List.Subset.refl _)

theorem priced_disconnect (f : BridgeFocus) : Priced f f.disconnect [] := by
  unfold disconnect
  split
  · exact .refl f
  · have hclosed : Priced f { f with connection := { f.connection with closed := true } } [] :=
      .of_subset rfl rfl (List.Subset.refl _)
    have hcancelled := priced_foldl (fun f (catchUp : SessionCatchUp) =>
      f.priced_cancelCatchUp catchUp.order) f.connection.catchUps
      { f with connection := { f.connection with closed := true } }
    refine (hclosed.trans hcancelled).trans (Priced.trans ?_ (priced_releaseOutbound _))
    exact .of_subset rfl rfl (List.Subset.refl _)

/-! ## Sends -/

theorem priced_refuse (f : BridgeFocus) (release : Option ℕ) : Priced f (f.refuse release).1 [] :=
  f.priced_disconnect.trans (priced_callRelease _ release)

theorem priced_startPayloadSend (f : BridgeFocus) (item : OutboundPayload) (socket : SocketAnswer) :
    Priced f (f.startPayloadSend item socket) [(item.item, item.bytes)] := by
  unfold startPayloadSend
  split
  · have hreleased := f.priced_releaseOutboundPayload item
    have hcleared : Priced (f.releaseOutboundPayload item)
        { f.releaseOutboundPayload item with
          connection := { (f.releaseOutboundPayload item).connection with
            outboundSending := true
            outboundActive := none } } [] :=
      .of_subset rfl rfl (prices_of_sublist (List.subset_append_right _ _) (List.Subset.refl _))
    have hclosed := (hreleased.trans hcleared).trans (priced_disconnect _)
    exact ⟨hclosed.outbound, hclosed.responses, fun entry hentry =>
      (hclosed.prices entry hentry).imp_left (List.mem_append_right _)⟩
  · refine ⟨fun _ _ h => h, fun _ _ h => h, fun entry hentry => .inl ?_⟩
    simp only [ConnectionAccounts.prices, ConnectionAccounts.outbound, Option.toList_some,
      List.mem_append, List.mem_map, List.mem_cons, List.not_mem_nil, or_false] at hentry ⊢
    rcases hentry with ⟨payload, rfl | hpayload, rfl⟩ | hjournal
    · exact .inl rfl
    · exact .inr (.inl ⟨payload, .inr hpayload, rfl⟩)
    · exact .inr (.inr hjournal)

theorem priced_retainOutboundPayload (f : BridgeFocus) (call : PayloadCall) (large : Bool)
    (release : Option ℕ) : Priced f (f.retainOutboundPayload limits call large release).1 [] := by
  have hretained : (f.outbound.retain call.bytes).AmountOf f.outbound.next call.bytes :=
    amountOf_next _ _
  unfold retainOutboundPayload
  split
  · exact f.priced_refuse release
  · dsimp only
    split
    · refine ⟨fun _ _ h => h.retain _, fun _ _ h => h, fun entry hentry => ?_⟩
      simp only [ConnectionAccounts.prices, ConnectionAccounts.outbound, List.nil_append,
        List.mem_append, List.mem_map, List.mem_cons, List.not_mem_nil, or_false] at hentry ⊢
      rcases hentry with ⟨payload, hactive | hqueued | rfl, rfl⟩ | hjournal
      · exact .inl (.inl ⟨payload, .inl hactive, rfl⟩)
      · exact .inl (.inl ⟨payload, .inr hqueued, rfl⟩)
      · exact .inr hretained
      · exact .inl (.inr hjournal)
    · refine (priced_startPayloadSend _ _ call.socket).handIn (fun _ _ h => h.retain _) rfl
        fun entry hentry => ?_
      rcases List.mem_append.mp hentry with hitem | hkept
      · rw [List.mem_singleton.mp hitem]
        exact .inr hretained
      · exact .inl hkept

theorem priced_sendPayload (f : BridgeFocus) (call : PayloadCall) (release : Option ℕ) :
    Priced f (f.sendPayload limits call release).1 [] := by
  have hrefused := f.priced_refuse release
  unfold sendPayload
  split
  · exact f.priced_callRelease release
  split
  · exact hrefused
  · rename_i large _
    have hretained := f.priced_retainOutboundPayload limits call large release
    split
    · exact hrefused
    split
    · exact hrefused
    split
    · split
      · exact hrefused
      · exact hretained
    · split
      · exact hrefused
      · exact hretained

theorem priced_payloadSent (f : BridgeFocus) (item : OutboundPayload) (error : Bool)
    (socket : SocketAnswer) : Priced f (f.payloadSent item error socket) [] := by
  unfold payloadSent
  dsimp only
  refine (f.priced_releaseOutboundPayload item).trans ?_
  set released := f.releaseOutboundPayload item
  have hfilter : (released.connection.outboundActive.filter (·.item ≠ item.item)).toList ⊆
      released.connection.outboundActive.toList := by
    intro payload hpayload
    rw [Option.mem_toList] at hpayload ⊢
    exact (Option.mem_filter_iff.mp hpayload).1
  have hactive {c : ConnectionAccounts} (houtbound : c.outboundActive =
      released.connection.outboundActive.filter (·.item ≠ item.item))
      (hqueue : c.outboundQueue ⊆ released.connection.outboundQueue)
      (hcatchUps : c.catchUps = released.connection.catchUps) :
      c.prices ⊆ released.connection.prices := by
    refine prices_of_sublist ?_ (hcatchUps ▸ List.Subset.refl _)
    rw [ConnectionAccounts.outbound, houtbound]
    exact List.append_subset.mpr ⟨List.Subset.trans hfilter (List.subset_append_left _ _),
      List.Subset.trans hqueue (List.subset_append_right _ _)⟩
  split
  · exact .of_subset rfl rfl (hactive rfl (List.Subset.refl _) rfl)
  · split
    · refine Priced.trans ?_ (priced_disconnect _)
      exact .of_subset rfl rfl (hactive rfl (List.Subset.refl _) rfl)
    · split
      · exact .of_subset rfl rfl (hactive rfl (List.Subset.refl _) rfl)
      · rename_i next rest hfound
        have hqueue : released.connection.outboundQueue = next :: rest := hfound
        have hrest : rest ⊆ released.connection.outboundQueue := by
          rw [hqueue]
          exact List.subset_cons_self _ _
        split
        · refine Priced.trans (Priced.trans ?_ (priced_releaseOutboundPayload _ next))
            (priced_disconnect _)
          exact .of_subset rfl rfl (hactive rfl hrest rfl)
        · refine (priced_startPayloadSend _ next socket).handIn (fun _ _ h => h) rfl
            fun entry hentry => .inl ?_
          rcases List.mem_append.mp hentry with hitem | hkept
          · rw [List.mem_singleton.mp hitem]
            refine List.mem_append_left _ (List.mem_map.mpr ⟨next, ?_, rfl⟩)
            rw [ConnectionAccounts.outbound, hqueue]
            exact List.mem_append_right _ List.mem_cons_self
          · refine hactive ?_ ?_ ?_ hkept
            · rfl
            · exact hrest
            · rfl

/-! ## Calls on journals -/

theorem priced_bufferCatchUpMessage (f : BridgeFocus) (order : ℕ) (call : JournalCall) :
    Priced f (f.bufferCatchUpMessage limits order call) [] := by
  unfold bufferCatchUpMessage
  split
  · exact .refl f
  split
  · exact f.priced_disconnect
  split
  · exact f.priced_disconnect
  split
  · exact f.priced_disconnect
  split
  · exact f.priced_disconnect
  refine ⟨fun _ _ h => h.retain _, fun _ _ h => h, fun entry hentry => ?_⟩
  simp only [ConnectionAccounts.prices, List.nil_append, List.mem_append, List.mem_flatMap,
    List.mem_map] at hentry ⊢
  rcases hentry with hqueued | ⟨_, ⟨catchUp, hcatchUp, rfl⟩, hentry⟩
  · exact .inl (.inl hqueued)
  · split at hentry
    · obtain ⟨message, hmessage, rfl⟩ := hentry
      rcases List.mem_append.mp hmessage with hold | hnew
      · exact .inl (.inr ⟨catchUp, hcatchUp, message, hold, rfl⟩)
      · rw [List.mem_singleton.mp hnew]
        exact .inr (amountOf_next _ _)
    · exact .inl (.inr ⟨catchUp, hcatchUp, hentry⟩)

theorem priced_transferCatchUpJournalAndCancel (f : BridgeFocus) («from» «to» : ℕ) :
    Priced f (f.transferCatchUpJournalAndCancel limits «from» «to») [] := by
  refine (f.priced_cancelCatchUp «from»).trans (priced_foldl (fun f entry => ?_) _ _)
  split
  · exact .refl f
  · exact f.priced_bufferCatchUpMessage limits _ _

theorem priced_enqueueBufferedRekeys (f : BridgeFocus) (order : ℕ)
    (socket : BufferedCatchUpMessage → SocketAnswer) :
    Priced f (f.enqueueBufferedRekeys limits order socket) [] :=
  priced_foldl (fun f entry => (f.priced_releaseBufferedCatchUpMessage entry).trans
    (priced_sendPayload limits _ _ none)) _ f

theorem priced_beginCatchUp (f : BridgeFocus) : Priced f f.beginCatchUp [] := by
  unfold beginCatchUp
  split
  · exact .refl f
  · refine .of_subset rfl rfl fun entry hentry => ?_
    simpa [ConnectionAccounts.prices, ConnectionAccounts.outbound] using hentry

end BridgeFocus

/-! ## The bridge -/

namespace BridgeAccounts

variable {limits : BridgeLimits} {s : BridgeAccounts}

/-- Every item and every reservation was retained with the amount of what owns it. -/
structure Prices (s : BridgeAccounts) : Prop where
  connections : ∀ connection ∈ s.connections, ∀ entry ∈ connection.prices,
    s.outbound.AmountOf entry.1 entry.2
  pages : ∀ operation ∈ s.historyPageOperations,
    s.outbound.AmountOf operation.item operation.targetBytes
  commands : ∀ command ∈ s.commands,
    s.responses.AmountOf command.reservation command.responseWeight

theorem Prices.initial : BridgeAccounts.initial.Prices where
  connections := by simp [BridgeAccounts.initial]
  pages := by simp [BridgeAccounts.initial]
  commands := by simp [BridgeAccounts.initial]

namespace Prices

theorem put (h : s.Prices) {n : ℕ} {connection : ConnectionAccounts}
    (hn : s.connections[n]? = some connection) {f : BridgeFocus}
    (hpriced : Priced (s.focus connection) f []) : (s.put n f).Prices where
  connections other hother entry hentry := by
    rcases List.mem_or_eq_of_mem_set hother with hold | rfl
    · exact hpriced.outbound _ _ (h.connections other hold entry hentry)
    · rcases hpriced.prices entry hentry with hkept | hamount
      · exact hpriced.outbound _ _
          (h.connections connection (List.mem_of_getElem? hn) entry hkept)
      · exact hamount
  pages operation hoperation := hpriced.outbound _ _ (h.pages operation hoperation)
  commands command hcommand := hpriced.responses _ _ (h.commands command hcommand)

theorem on (h : s.Prices) (n : ℕ) (call : BridgeFocus → BridgeFocus)
    (hcall : ∀ f, Priced f (call f) []) : (s.on n call).Prices := by
  unfold BridgeAccounts.on
  split
  · exact h
  · rename_i connection hn
    exact h.put hn (hcall _)

theorem handleCommand (h : s.Prices) (n responseWeight : ℕ) :
    (s.handleCommand limits n responseWeight).Prices := by
  unfold BridgeAccounts.handleCommand
  split
  · exact h
  rename_i connection hn
  split
  · exact h
  split
  · exact h
  split
  · exact h
  split
  · exact h
  refine ⟨fun other hother entry hentry => ?_, h.pages, fun command hcommand => ?_⟩
  · rcases List.mem_or_eq_of_mem_set hother with hold | rfl
    · exact h.connections other hold entry hentry
    · exact h.connections connection (List.mem_of_getElem? hn) entry hentry
  · rcases List.mem_append.mp hcommand with hold | hnew
    · exact (h.commands command hold).retain _
    · rw [List.mem_singleton.mp hnew]
      exact amountOf_next _ _

theorem handleHistoryPage (h : s.Prices) (n : ℕ) (sessionHandle : JsString) (targetBytes : ℕ) :
    (s.handleHistoryPage limits n sessionHandle targetBytes).Prices := by
  unfold BridgeAccounts.handleHistoryPage
  split
  · exact h
  split
  · exact h
  split
  · exact h
  refine ⟨fun connection hconnection entry hentry =>
    (h.connections connection hconnection entry hentry).retain _,
    fun operation hoperation => ?_, h.commands⟩
  rcases List.mem_append.mp hoperation with hold | hnew
  · exact (h.pages operation hold).retain _
  · rw [List.mem_singleton.mp hnew]
    exact amountOf_next _ _

theorem releaseHistoryPageBytes (h : s.Prices) (operation : HistoryPageOperation) :
    (s.releaseHistoryPageBytes operation).Prices where
  connections connection hconnection entry hentry :=
    (h.connections connection hconnection entry hentry).release _
  pages other hother := (h.pages other hother).release _
  commands := h.commands

/-- Every call keeps the prices. -/
theorem step (h : s.Prices) (call : BridgeCall) : (s.step limits call).Prices := by
  cases call with
  | handleConnection =>
    refine ⟨fun connection hconnection entry hentry => ?_, h.pages, h.commands⟩
    rcases List.mem_append.mp hconnection with hold | hnew
    · exact h.connections connection hold entry hentry
    · rw [List.mem_singleton.mp hnew] at hentry
      cases hentry
  | completeHello n maxServerFrameBytes =>
    exact h.on n (·.completeHello maxServerFrameBytes) fun f =>
      .of_subset rfl rfl (List.Subset.refl _)
  | send n call => exact h.on n _ fun f => f.priced_sendPayload limits call none
  | payloadSent n sent error socket =>
    simp only [BridgeAccounts.step]
    apply h.on n
    intro f
    split
    · exact .refl f
    · refine Priced.trans ?_ (BridgeFocus.priced_payloadSent _ _ error socket)
      exact .of_subset rfl rfl (List.Subset.refl _)
  | beginCatchUp n => exact h.on n _ BridgeFocus.priced_beginCatchUp
  | bufferCatchUpMessage n order call =>
    exact h.on n _ fun f => f.priced_bufferCatchUpMessage limits order call
  | cancelCatchUp n order => exact h.on n _ fun f => f.priced_cancelCatchUp order
  | enqueueBufferedRekeys n order socket =>
    exact h.on n _ fun f => f.priced_enqueueBufferedRekeys limits order socket
  | transferCatchUpJournalAndCancel n «from» «to» =>
    exact h.on n _ fun f => f.priced_transferCatchUpJournalAndCancel limits «from» «to»
  | disconnect n => exact h.on n _ BridgeFocus.priced_disconnect
  | handleCommand n responseWeight => exact h.handleCommand n responseWeight
  | commandSettled command frame =>
    simp only [BridgeAccounts.step]
    split
    · exact h
    · rename_i pending hfound
      have herased : Prices { s with commands := s.commands.eraseIdx command } :=
        ⟨h.connections, h.pages, fun other hother =>
          h.commands other (List.mem_of_mem_eraseIdx hother)⟩
      refine herased.on pending.connection _ fun f => ?_
      unfold commandSettledAt
      have hsent : Priced f
          (frame.elim (f, false) fun call =>
            f.sendPayload limits call (some pending.reservation)).1 [] := by
        cases frame with
        | none => exact .refl f
        | some call => exact f.priced_sendPayload limits call _
      dsimp only
      generalize frame.elim (f, false) (fun call =>
        f.sendPayload limits call (some pending.reservation)) = sent at hsent ⊢
      have hsettled : Priced f
          { sent.1 with
            connection := { sent.1.connection with
              pendingCommands :=
                sent.1.connection.pendingCommands.erase pending.reservation } } [] :=
        hsent.trans (.of_subset rfl rfl (List.Subset.refl _))
      split
      · exact hsettled
      · exact hsettled.trans (BridgeFocus.priced_releaseReservation _ _)
  | handleHistoryPage n sessionHandle targetBytes =>
    exact h.handleHistoryPage n sessionHandle targetBytes
  | historyPageRead operation =>
    simp only [BridgeAccounts.step]
    split
    · exact h
    · exact h.releaseHistoryPageBytes _
  | settleHistoryPage operation =>
    simp only [BridgeAccounts.step]
    split
    · exact h
    · rename_i found hfound
      have hreleased := h.releaseHistoryPageBytes found
      exact ⟨hreleased.connections, fun other hother =>
        hreleased.pages other (List.mem_of_mem_eraseIdx hother), hreleased.commands⟩

end Prices

end BridgeAccounts

end PiAgentWeb
