import Fips.Transport.WebRtcTransport

/-!
# What the steps of the WebRTC transport leave alone

Planning automatic dials changes only what is planned. Objects keep their negotiation and their peer;
most steps make no objects and only remove what is pending.
-/

namespace Fips
open UnitStrings

namespace WebRtcTransport

/-! ### Plans -/

/-- What automatic dials are planned with. -/
structure Plans where
  autoConnectPeers : List PubkeyHex
  pendingAutoConnects : List PubkeyHex
  advertCache : JsMap UnitString CachedWebRtcAdvert
  autoReconnectTimers : List PubkeyHex
  autoConnectAttempts : JsMap PubkeyHex Nat
  cooldowns : JsMap PubkeyHex Cooldown
  autoConnectAttemptSequence : Nat
  autoConnectFillTimer : Option PubkeyHex
  discovered : List PubkeyHex

/-- The state with other plans. -/
def withPlans (s : WebRtcTransport) (p : Plans) : WebRtcTransport := { s with
  autoConnectPeers := p.autoConnectPeers
  pendingAutoConnects := p.pendingAutoConnects
  advertCache := p.advertCache
  autoReconnectTimers := p.autoReconnectTimers
  autoConnectAttempts := p.autoConnectAttempts
  cooldowns := p.cooldowns
  autoConnectAttemptSequence := p.autoConnectAttemptSequence
  autoConnectFillTimer := p.autoConnectFillTimer
  discovered := p.discovered }

variable {cfg : ResolvedWebRtcTransportConfig} {w : Surroundings} {s s' : WebRtcTransport} {remote : PubkeyHex}

/-- Only plans differ. -/
def Replanned (s s' : WebRtcTransport) : Prop := ∃ p, s' = s.withPlans p

theorem Replanned.refl : Replanned s s := ⟨⟨_, _, _, _, _, _, _, _, _⟩, rfl⟩

theorem Replanned.trans {s₁ s₂ s₃ : WebRtcTransport} (h : Replanned s₁ s₂) (h' : Replanned s₂ s₃) : Replanned s₁ s₃ := by
  obtain ⟨p, rfl⟩ := h
  obtain ⟨p', rfl⟩ := h'
  exact ⟨p', rfl⟩

theorem replanned_reserveAutoConnect : Replanned s (s.reserveAutoConnect remote) := by
  unfold reserveAutoConnect
  dsimp only
  split
  · exact ⟨⟨_, _, _, _, _, _, _, _, _⟩, rfl⟩
  · exact ⟨⟨_, _, _, _, _, _, _, _, _⟩, rfl⟩

theorem replanned_fillFrom {reserve : Bool} {candidates : List CachedWebRtcAdvert} :
    Replanned s (fillFrom cfg w reserve candidates s) := by
  induction candidates generalizing s with
  | nil => exact .refl
  | cons cached candidates ih =>
    unfold fillFrom
    dsimp only
    split
    · exact ih
    split
    · exact ih
    split
    · exact .refl
    split
    · exact ih
    split
    · exact ih
    · exact replanned_reserveAutoConnect.trans ih

theorem replanned_fillAutoConnectSlots {key : PubkeyHex} : Replanned s (s.fillAutoConnectSlots cfg w key) := by
  unfold fillAutoConnectSlots
  split
  · exact .refl
  · have hpruned : ∀ kept, Replanned s { s.pruneAdverts w with cooldowns := kept } :=
      fun _ => ⟨⟨_, _, _, _, _, _, _, _, _⟩, rfl⟩
    exact (hpruned _).trans replanned_fillFrom

theorem replanned_scheduleAutoReconnect : Replanned s (s.scheduleAutoReconnect cfg remote) := by
  unfold scheduleAutoReconnect
  dsimp only
  split
  · exact ⟨⟨_, _, _, _, _, _, _, _, _⟩, rfl⟩
  · exact ⟨⟨_, _, _, _, _, _, _, _, _⟩, rfl⟩

theorem replanned_recordFailure {recovery : Bool} : Replanned s (s.recordFailure cfg w remote recovery) :=
  ⟨⟨_, _, _, _, _, _, _, _, _⟩, rfl⟩

theorem replanned_handleAutoConnectFailure {recovery : Bool} :
    Replanned s (s.handleAutoConnectFailure cfg w remote recovery) := by
  unfold handleAutoConnectFailure
  split
  · exact .refl
  · have hdeleted : Replanned s { s with autoConnectPeers := deleteKey remote s.autoConnectPeers } :=
      ⟨⟨_, _, _, _, _, _, _, _, _⟩, rfl⟩
    exact ((hdeleted.trans replanned_recordFailure).trans replanned_scheduleAutoReconnect).trans
      replanned_fillAutoConnectSlots

/-- Only plans differ, and reservations do not. -/
def Recached (s s' : WebRtcTransport) : Prop := Replanned s s' ∧ s'.autoConnectPeers = s.autoConnectPeers

theorem Recached.refl : Recached s s := ⟨.refl, rfl⟩

theorem Recached.trans {s₁ s₂ s₃ : WebRtcTransport} (h : Recached s₁ s₂) (h' : Recached s₂ s₃) : Recached s₁ s₃ :=
  ⟨h.1.trans h'.1, h'.2.trans h.2⟩

theorem recached_evictAdvert {node : UnitString} : Recached s (s.evictAdvert node) := by
  unfold evictAdvert
  split
  · exact .refl
  · exact ⟨⟨⟨_, _, _, _, _, _, _, _, _⟩, rfl⟩, rfl⟩

theorem recached_foldl {α : Type} {f : WebRtcTransport → α → WebRtcTransport} (h : ∀ s a, Recached s (f s a))
    (l : List α) : Recached s (l.foldl f s) := by
  induction l generalizing s with
  | nil => exact .refl
  | cons a l ih => exact (h s a).trans ih

theorem recached_storeAdvert {node : UnitString} {advert : CachedWebRtcAdvert} :
    Recached s (s.storeAdvert node advert) := by
  have hcache : ∀ (s : WebRtcTransport) cache, Recached s { s with advertCache := cache } :=
    fun _ _ => ⟨⟨⟨_, _, _, _, _, _, _, _, _⟩, rfl⟩, rfl⟩
  unfold storeAdvert
  dsimp only
  split
  · exact .refl
  · have hevicted : ∀ s oldest, Recached s (s.evictAdvert oldest) := fun _ _ => recached_evictAdvert
    refine Recached.trans ?_ (hcache _ _)
    exact (hcache s _).trans (recached_foldl hevicted _)

theorem recached_handleAdvert {addr eventPubkey node : UnitString} {createdAt : Int} {expires : Option Int}
    {requested : Bool} : Recached s (s.handleAdvert cfg w addr eventPubkey node createdAt expires requested) := by
  have hpruned : Recached s (s.pruneAdverts w) := ⟨⟨⟨_, _, _, _, _, _, _, _, _⟩, rfl⟩, rfl⟩
  have htimer : ∀ (s : WebRtcTransport) timer, Recached s { s with autoConnectFillTimer := timer } :=
    fun _ _ => ⟨⟨⟨_, _, _, _, _, _, _, _, _⟩, rfl⟩, rfl⟩
  unfold handleAdvert
  dsimp only
  split
  · exact .refl
  split
  · exact hpruned
  split
  · exact (hpruned.trans recached_storeAdvert).trans (htimer _ _)
  · exact hpruned.trans recached_storeAdvert

theorem recached_resolve {node : UnitString} : Recached s (s.resolve w node) := by
  unfold resolve
  split
  · exact .refl
  split
  · exact recached_evictAdvert
  · exact ⟨⟨⟨_, _, _, _, _, _, _, _, _⟩, rfl⟩, rfl⟩

theorem replanned_autoReconnectTimeout : Replanned s (s.autoReconnectTimeout cfg w remote) := by
  have hdeleted : Replanned s { s with autoReconnectTimers := deleteKey remote s.autoReconnectTimers } :=
    ⟨⟨_, _, _, _, _, _, _, _, _⟩, rfl⟩
  unfold autoReconnectTimeout
  dsimp only
  split
  · split
    · exact hdeleted
    · exact hdeleted.trans replanned_fillAutoConnectSlots
  · exact .refl

theorem replanned_autoConnectFillTimeout : Replanned s (s.autoConnectFillTimeout cfg w) := by
  unfold autoConnectFillTimeout
  split
  · exact .refl
  · have hfired : Replanned s { s with autoConnectFillTimer := none } := ⟨⟨_, _, _, _, _, _, _, _, _⟩, rfl⟩
    exact hfired.trans replanned_fillAutoConnectSlots

/-! ### Objects -/

/-- Objects are only made, and keep their negotiation and peer. -/
structure Extends (s s' : WebRtcTransport) : Prop where
  dialsNext : s.dials.next ≤ s'.dials.next
  inboundsNext : s.inbounds.next ≤ s'.inbounds.next
  connectionsNext : s.connections.next ≤ s'.connections.next
  dial : ∀ d < s.dials.next, (s'.dials.get d).sessionId = (s.dials.get d).sessionId ∧
    (s'.dials.get d).remotePubkeyHex = (s.dials.get d).remotePubkeyHex
  inbound : ∀ i < s.inbounds.next, (s'.inbounds.get i).negotiationId = (s.inbounds.get i).negotiationId ∧
    (s'.inbounds.get i).remotePubkeyHex = (s.inbounds.get i).remotePubkeyHex
  connection : ∀ c < s.connections.next, s'.connections.get c = s.connections.get c

/-- What is pending, connected or reserved is only removed. -/
structure Shrinks (s s' : WebRtcTransport) : Prop extends Extends s s' where
  connections : s'.connections = s.connections
  pendingDials : s'.pendingDials.Sublist s.pendingDials
  pendingInbound : s'.pendingInbound.Sublist s.pendingInbound
  conns : s'.conns.Sublist s.conns
  autoConnectPeers : s'.autoConnectPeers ⊆ s.autoConnectPeers

theorem Extends.of_eq (hdials : s'.dials = s.dials) (hinbounds : s'.inbounds = s.inbounds)
    (hconnections : s'.connections = s.connections) : Extends s s' where
  dialsNext := by rw [hdials]
  inboundsNext := by rw [hinbounds]
  connectionsNext := by rw [hconnections]
  dial _ _ := by rw [hdials]; exact ⟨rfl, rfl⟩
  inbound _ _ := by rw [hinbounds]; exact ⟨rfl, rfl⟩
  connection _ _ := by rw [hconnections]

theorem Extends.refl : Extends s s := .of_eq rfl rfl rfl

theorem Extends.trans {s₁ s₂ s₃ : WebRtcTransport} (h : Extends s₁ s₂) (h' : Extends s₂ s₃) : Extends s₁ s₃ where
  dialsNext := h.dialsNext.trans h'.dialsNext
  inboundsNext := h.inboundsNext.trans h'.inboundsNext
  connectionsNext := h.connectionsNext.trans h'.connectionsNext
  dial d hd := by
    have hold := h.dial d hd
    have hnew := h'.dial d (hd.trans_le h.dialsNext)
    exact ⟨hnew.1.trans hold.1, hnew.2.trans hold.2⟩
  inbound i hi := by
    have hold := h.inbound i hi
    have hnew := h'.inbound i (hi.trans_le h.inboundsNext)
    exact ⟨hnew.1.trans hold.1, hnew.2.trans hold.2⟩
  connection c hc := (h'.connection c (hc.trans_le h.connectionsNext)).trans (h.connection c hc)

theorem Shrinks.of_eq (hdials : s'.dials = s.dials) (hinbounds : s'.inbounds = s.inbounds)
    (hconnections : s'.connections = s.connections) (hpendingDials : s'.pendingDials = s.pendingDials)
    (hpendingInbound : s'.pendingInbound = s.pendingInbound) (hconns : s'.conns = s.conns)
    (hpeers : s'.autoConnectPeers = s.autoConnectPeers) : Shrinks s s' where
  toExtends := .of_eq hdials hinbounds hconnections
  connections := hconnections
  pendingDials := by rw [hpendingDials]
  pendingInbound := by rw [hpendingInbound]
  conns := by rw [hconns]
  autoConnectPeers := by rw [hpeers]; exact List.Subset.refl _

theorem Shrinks.refl : Shrinks s s := .of_eq rfl rfl rfl rfl rfl rfl rfl

theorem Shrinks.trans {s₁ s₂ s₃ : WebRtcTransport} (h : Shrinks s₁ s₂) (h' : Shrinks s₂ s₃) : Shrinks s₁ s₃ where
  toExtends := h.toExtends.trans h'.toExtends
  connections := h'.connections.trans h.connections
  pendingDials := h'.pendingDials.trans h.pendingDials
  pendingInbound := h'.pendingInbound.trans h.pendingInbound
  conns := h'.conns.trans h.conns
  autoConnectPeers := fun _ hk => h.autoConnectPeers (h'.autoConnectPeers hk)

theorem shrinks_foldl {α : Type} {f : WebRtcTransport → α → WebRtcTransport} (h : ∀ s a, Shrinks s (f s a)) (l : List α) :
    Shrinks s (l.foldl f s) := by
  induction l generalizing s with
  | nil => exact .refl
  | cons a l ih => exact (h s a).trans ih

theorem Replanned.shrinks (h : Replanned s s') (hpeers : s'.autoConnectPeers ⊆ s.autoConnectPeers) : Shrinks s s' := by
  obtain ⟨p, rfl⟩ := h
  exact ⟨.of_eq rfl rfl rfl, rfl, List.Sublist.refl _, List.Sublist.refl _, List.Sublist.refl _, hpeers⟩

theorem Replanned.extends (h : Replanned s s') : Extends s s' := by
  obtain ⟨p, rfl⟩ := h
  exact .of_eq rfl rfl rfl

theorem deleteKey_subset {k : PubkeyHex} {keys : List PubkeyHex} : deleteKey k keys ⊆ keys :=
  fun _ h => List.mem_of_mem_filter h

/-- A change of a dial that keeps its negotiation and its peer. -/
theorem shrinks_modifyDial {d : DialRef} {f : PendingDial → PendingDial}
    (h : ∀ dial, (f dial).sessionId = dial.sessionId ∧ (f dial).remotePubkeyHex = dial.remotePubkeyHex) :
    Shrinks s (s.modifyDial d f) := by
  refine ⟨⟨Nat.le_refl _, Nat.le_refl _, Nat.le_refl _, ?_, fun _ _ => ⟨rfl, rfl⟩, fun _ _ => rfl⟩,
    rfl, List.Sublist.refl _, List.Sublist.refl _, List.Sublist.refl _, List.Subset.refl _⟩
  intro d' _
  show ((s.dials.modify d f).get d').sessionId = _ ∧ ((s.dials.modify d f).get d').remotePubkeyHex = _
  rw [Heap.get_modify]
  split
  · exact h _
  · exact ⟨rfl, rfl⟩

theorem shrinks_settleDial {d : DialRef} {outcome : DialOutcome} : Shrinks s (s.settleDial d outcome) :=
  shrinks_modifyDial fun _ => ⟨rfl, rfl⟩

theorem shrinks_endDial {d : DialRef} {outcome : DialOutcome} : Shrinks s (s.endDial d outcome) := by
  have hdeleted : Shrinks s { s with pendingDials := s.pendingDials.delete (s.dials.get d).sessionId } :=
    ⟨.of_eq rfl rfl rfl, rfl, List.filter_sublist, List.Sublist.refl _, List.Sublist.refl _, List.Subset.refl _⟩
  exact (hdeleted.trans (shrinks_modifyDial (by intro; exact ⟨rfl, rfl⟩))).trans shrinks_settleDial

/-- The timer of an inbound negotiation ends. -/
theorem extends_inboundTimer {i : InboundRef} {pending : JsMap NegotiationId InboundRef} : Extends s { s with
    pendingInbound := pending
    inbounds := s.inbounds.modify i fun inbound => { inbound with timer := false } } := by
  refine ⟨Nat.le_refl _, Nat.le_refl _, Nat.le_refl _, fun _ _ => ⟨rfl, rfl⟩, ?_, fun _ _ => rfl⟩
  intro i' _
  dsimp only
  rw [Heap.get_modify]
  split
  · exact ⟨rfl, rfl⟩
  · exact ⟨rfl, rfl⟩

theorem shrinks_clearPendingInbound {negotiationId : NegotiationId} : Shrinks s (s.clearPendingInbound negotiationId) := by
  unfold clearPendingInbound
  split
  · exact .refl
  · exact ⟨extends_inboundTimer, rfl, List.Sublist.refl _, List.filter_sublist, List.Sublist.refl _, List.Subset.refl _⟩

theorem shrinks_sendWebRtcSignal {signal : WebRtcSignal} : Shrinks s (s.sendWebRtcSignal w remote signal) :=
  .of_eq rfl rfl rfl rfl rfl rfl rfl

theorem shrinks_scheduleAutoReconnect : Shrinks s (s.scheduleAutoReconnect cfg remote) := by
  refine replanned_scheduleAutoReconnect.shrinks ?_
  unfold scheduleAutoReconnect
  dsimp only
  split
  · exact deleteKey_subset
  · exact deleteKey_subset

theorem shrinks_sendOffer {d : DialRef} {signal : WebRtcSignal} : Shrinks s (s.sendOffer w d signal) :=
  Shrinks.trans (shrinks_modifyDial (by intro; exact ⟨rfl, rfl⟩)) shrinks_sendWebRtcSignal

theorem shrinks_sendPendingOffer {d : DialRef} {signal : WebRtcSignal} : Shrinks s (s.sendPendingOffer w d signal) :=
  Shrinks.trans (shrinks_modifyDial (by intro; exact ⟨rfl, rfl⟩)) shrinks_sendOffer

theorem shrinks_offerSent {d : DialRef} : Shrinks s (s.offerSent d) := shrinks_modifyDial fun _ => ⟨rfl, rfl⟩

theorem shrinks_retryOffer {localDescription : DialRef → UnitString} {d : DialRef} :
    Shrinks s (retryOffer w remote localDescription s d) := by
  unfold retryOffer
  dsimp only
  split
  · exact .refl
  split
  · exact shrinks_modifyDial fun _ => ⟨rfl, rfl⟩
  split
  · have hcall : ∀ retries nextCall, Shrinks s { s with retries := retries, nextCall := nextCall } := fun _ _ =>
      .of_eq rfl rfl rfl rfl rfl rfl rfl
    exact (hcall _ _).trans shrinks_sendPendingOffer
  · exact .refl

theorem shrinks_handleSessionEstablished {restarted : Bool} {localDescription : DialRef → UnitString} :
    Shrinks s (s.handleSessionEstablished cfg w remote restarted localDescription) := by
  have hretried : Shrinks s (if restarted then s.retryOffersAfterRestart w (s.ownedPeerAddress remote) localDescription
      else s) := by
    split
    · exact shrinks_foldl (fun _ _ => shrinks_retryOffer) _
    · exact .refl
  unfold handleSessionEstablished
  dsimp only
  split
  · exact .refl
  generalize (if restarted = true then s.retryOffersAfterRestart w (s.ownedPeerAddress remote) localDescription else s)
    = s₁ at hretried ⊢
  split
  · exact hretried
  · have hrecovered : ∀ cooldowns timers,
        Shrinks s₁ { s₁ with cooldowns := cooldowns, autoReconnectTimers := timers } := fun _ _ =>
      .of_eq rfl rfl rfl rfl rfl rfl rfl
    exact (hretried.trans (hrecovered _ _)).trans shrinks_scheduleAutoReconnect

theorem shrinks_rejectIncomingOffer {offer : WebRtcSignal} : Shrinks s (s.rejectIncomingOffer w offer remote) :=
  shrinks_sendWebRtcSignal

theorem shrinks_answerSettled {call : Nat} {ok : Bool} : Shrinks s (s.answerSettled call ok) := by
  have hended : ∀ answers, Shrinks s { s with answers := answers } := fun _ =>
    .of_eq rfl rfl rfl rfl rfl rfl rfl
  unfold answerSettled
  split
  · exact .refl
  dsimp only
  split
  · exact (hended _).trans (shrinks_modifyDial (by intro; exact ⟨rfl, rfl⟩))
  · exact hended _

theorem shrinks_retrySettled {call : Nat} {ok : Bool} : Shrinks s (s.retrySettled w call ok) := by
  have hended : ∀ retries, Shrinks s { s with retries := retries } := fun _ =>
    .of_eq rfl rfl rfl rfl rfl rfl rfl
  unfold retrySettled
  split
  · exact .refl
  dsimp only
  split
  · split
    · exact (hended _).trans (shrinks_modifyDial (by intro; exact ⟨rfl, rfl⟩))
    · exact hended _
  split
  · exact hended _
  split
  · exact shrinks_sendOffer
  · exact (hended _).trans shrinks_offerSent

theorem shrinks_dialTimeout {d : DialRef} : Shrinks s (s.dialTimeout d) := by
  unfold dialTimeout
  split
  · exact shrinks_endDial
  · exact .refl

theorem shrinks_inboundTimeout {i : InboundRef} : Shrinks s (s.inboundTimeout cfg i) := by
  unfold inboundTimeout
  dsimp only
  split
  · have hended : ∀ key, Shrinks s { s with
        pendingInbound := s.pendingInbound.delete key
        inbounds := s.inbounds.modify i fun inbound => { inbound with timer := false } } := fun _ =>
      ⟨extends_inboundTimer, rfl, List.Sublist.refl _, List.filter_sublist, List.Sublist.refl _, List.Subset.refl _⟩
    split
    · exact (hended _).trans shrinks_scheduleAutoReconnect
    · exact hended _
  · exact .refl

theorem shrinks_packet {c : ConnectionRef} : Shrinks s (s.packet c) := by
  unfold packet
  split
  · exact .of_eq rfl rfl rfl rfl rfl rfl rfl
  · exact .refl

theorem shrinks_start {ctx : TransportContext} : Shrinks s (s.start ctx) :=
  .of_eq rfl rfl rfl rfl rfl rfl rfl

theorem shrinks_stop : Shrinks s s.stop := by
  have hcleared : ∀ (s : WebRtcTransport) a b c d e, Shrinks s { s with
      stopping := true, autoReconnectTimers := a, cooldowns := b, autoConnectAttempts := c,
      autoConnectAttemptSequence := d, autoConnectFillTimer := e, conns := [], autoConnectPeers := [],
      pendingAutoConnects := [] } := fun _ _ _ _ _ _ =>
    ⟨.of_eq rfl rfl rfl, rfl, List.Sublist.refl _, List.Sublist.refl _, List.nil_sublist _, List.nil_subset _⟩
  have hforgotten : ∀ s : WebRtcTransport, Shrinks s { s with
      pendingConnects := [], knownSessionIds := [], seenSessionIds := [], advertCache := [], peersWithTraffic := [],
      ctx := none } := fun _ =>
    .of_eq rfl rfl rfl rfl rfl rfl rfl
  refine Shrinks.trans ?_ (hforgotten _)
  refine Shrinks.trans ?_ (shrinks_foldl (fun _ _ => shrinks_clearPendingInbound) _)
  exact (hcleared s _ _ _ _ _).trans (shrinks_foldl (fun _ _ => shrinks_endDial) _)

theorem shrinks_closeDial {d : DialRef} : Shrinks s (s.closeDial d) := by
  have hforgotten : ∀ known, Shrinks s { s with knownSessionIds := known } := fun _ =>
    .of_eq rfl rfl rfl rfl rfl rfl rfl
  exact (hforgotten _).trans shrinks_endDial

theorem shrinks_retireExistingConnection : Shrinks s (s.retireExistingConnection remote) := by
  unfold retireExistingConnection
  split
  · exact .refl
  · exact ⟨.of_eq rfl rfl rfl, rfl, List.Sublist.refl _, List.Sublist.refl _, List.filter_sublist, List.Subset.refl _⟩

theorem shrinks_responderFailed {i : InboundRef} : Shrinks s (s.responderFailed cfg i) := by
  have hended : ∀ responders, Shrinks s { s with responders := responders } := fun _ =>
    .of_eq rfl rfl rfl rfl rfl rfl rfl
  have hcleared : Shrinks s ({ s with responders := s.responders.delete i }.clearPendingInbound
      (s.inbounds.get i).negotiationId) := (hended _).trans shrinks_clearPendingInbound
  unfold responderFailed
  dsimp only
  split
  · exact hcleared.trans shrinks_scheduleAutoReconnect
  · exact hcleared

/-! ### References -/

/-- A connection has the peer of the negotiation it came from. -/
def MadeFrom (s : WebRtcTransport) (conn : WebRtcConnection) : Prop :=
  match conn.negotiation with
  | .dial d => d < s.dials.next ∧ conn.remotePubkeyHex = (s.dials.get d).remotePubkeyHex
  | .inbound i => i < s.inbounds.next ∧ conn.remotePubkeyHex = (s.inbounds.get i).remotePubkeyHex

/-- References are to objects, under the names that these have. -/
structure Linked (s : WebRtcTransport) : Prop where
  dials : ∀ e ∈ s.pendingDials, e.2 < s.dials.next ∧ (s.dials.get e.2).sessionId = e.1
  inbounds : ∀ e ∈ s.pendingInbound, e.2 < s.inbounds.next ∧ (s.inbounds.get e.2).negotiationId = e.1
  nodupDials : s.pendingDials.Nodup
  nodupInbound : s.pendingInbound.Nodup
  connections : ∀ c < s.connections.next, s.MadeFrom (s.connections.get c)

theorem linked_new : Linked new where
  dials := by rintro _ ⟨⟩
  inbounds := by rintro _ ⟨⟩
  nodupDials := List.nodup_nil
  nodupInbound := List.nodup_nil
  connections c hc := absurd hc (Nat.not_lt_zero c)

theorem MadeFrom.extend {conn : WebRtcConnection} (h : s.MadeFrom conn) (hext : Extends s s') : s'.MadeFrom conn := by
  unfold MadeFrom at h ⊢
  split
  · rename_i d hd
    rw [hd] at h
    exact ⟨h.1.trans_le hext.dialsNext, h.2.trans (hext.dial d h.1).2.symm⟩
  · rename_i i hi
    rw [hi] at h
    exact ⟨h.1.trans_le hext.inboundsNext, h.2.trans (hext.inbound i h.1).2.symm⟩

theorem Linked.of_extends (h : Linked s) (hext : Extends s s') (hconnections : s'.connections = s.connections)
    (hdials : ∀ e ∈ s'.pendingDials, e ∈ s.pendingDials ∨ e.2 < s'.dials.next ∧ (s'.dials.get e.2).sessionId = e.1)
    (hinbounds : ∀ e ∈ s'.pendingInbound,
      e ∈ s.pendingInbound ∨ e.2 < s'.inbounds.next ∧ (s'.inbounds.get e.2).negotiationId = e.1)
    (hnodupDials : s'.pendingDials.Nodup) (hnodupInbound : s'.pendingInbound.Nodup) : Linked s' where
  dials e he := by
    rcases hdials e he with he | hnew
    · have hold := h.dials e he
      exact ⟨hold.1.trans_le hext.dialsNext, (hext.dial _ hold.1).1.trans hold.2⟩
    · exact hnew
  inbounds e he := by
    rcases hinbounds e he with he | hnew
    · have hold := h.inbounds e he
      exact ⟨hold.1.trans_le hext.inboundsNext, (hext.inbound _ hold.1).1.trans hold.2⟩
    · exact hnew
  nodupDials := hnodupDials
  nodupInbound := hnodupInbound
  connections c hc := by
    rw [hconnections] at hc ⊢
    exact (h.connections c hc).extend hext

theorem Linked.shrink (h : Linked s) (hshrinks : Shrinks s s') : Linked s' :=
  h.of_extends hshrinks.toExtends hshrinks.connections (fun _ he => .inl (hshrinks.pendingDials.subset he))
    (fun _ he => .inl (hshrinks.pendingInbound.subset he)) (h.nodupDials.sublist (hshrinks.pendingDials.map _))
    (h.nodupInbound.sublist (hshrinks.pendingInbound.map _))

theorem Linked.replan (h : Linked s) (hplans : Replanned s s') : Linked s' := by
  obtain ⟨p, rfl⟩ := hplans
  exact ⟨h.dials, h.inbounds, h.nodupDials, h.nodupInbound, h.connections⟩

/-- A new connection of an object. -/
theorem Linked.newConnection (h : Linked s) {conn : WebRtcConnection} (hconn : s.MadeFrom conn) :
    Linked { s with connections := s.connections.alloc conn } where
  dials := h.dials
  inbounds := h.inbounds
  nodupDials := h.nodupDials
  nodupInbound := h.nodupInbound
  connections c hc := by
    rcases Nat.lt_succ_iff_lt_or_eq.1 hc with hlt | rfl
    · show s.MadeFrom ((s.connections.alloc conn).get c)
      rw [Heap.get_alloc_of_lt hlt]
      exact h.connections c hlt
    · show s.MadeFrom ((s.connections.alloc conn).get s.connections.next)
      rw [Heap.get_alloc_self]
      exact hconn

theorem mem_of_ownsDial {d : DialRef} (h : s.ownsDial d = true) : ((s.dials.get d).sessionId, d) ∈ s.pendingDials :=
  JsMap.mem_of_get (of_decide_eq_true h)

theorem mem_of_ownsInbound {i : InboundRef} (h : s.ownsInbound i = true) :
    ((s.inbounds.get i).negotiationId, i) ∈ s.pendingInbound := JsMap.mem_of_get (of_decide_eq_true h)

/-- The offer of a dial has gone out, or a step of its handshake that makes no connection. -/
theorem initiatorSettled_cases {d : DialRef} {ok : Bool} {sdp : UnitString} :
    Shrinks s (s.initiatorSettled w d ok sdp) ∨ s.ownsDial d = true ∧
      ∃ s₁, Shrinks s s₁ ∧ s.initiatorSettled w d ok sdp =
        { s₁ with connections := s₁.connections.alloc ⟨(s.dials.get d).remotePubkeyHex, .dial d⟩ } := by
  have hstage : ∀ (s : WebRtcTransport) initiators connects,
      Shrinks s { s with initiators := initiators, connects := connects } :=
    fun _ _ _ => .of_eq rfl rfl rfl rfl rfl rfl rfl
  unfold initiatorSettled
  split
  · exact .inl .refl
  rename_i stage _
  dsimp only
  split
  · exact .inl ((hstage s _ _).trans shrinks_endDial)
  split
  · exact .inl (hstage s _ s.connects)
  rename_i howns
  rw [Bool.not_eq_false] at howns
  cases stage with
  | createOffer => exact .inl ((hstage s _ s.connects).trans (shrinks_modifyDial (by intro; exact ⟨rfl, rfl⟩)))
  | setLocalDescription => exact .inl (hstage s _ s.connects)
  | iceGathering => exact .inl ((hstage s _ s.connects).trans shrinks_sendPendingOffer)
  | sendOffer signal =>
    dsimp only
    split
    · exact .inl shrinks_sendOffer
    · have hended : Shrinks s { s with initiators := s.initiators.delete d } := hstage s _ s.connects
      exact .inr ⟨howns, _, hended.trans shrinks_offerSent, rfl⟩

/-- A data channel has come, or a step of an answer that makes no connection. -/
theorem responderSettled_cases {i : InboundRef} {ok noRoute : Bool} {sdp : UnitString} :
    Shrinks s (s.responderSettled cfg w i ok noRoute sdp) ∨ s.ownsInbound i = true ∧
      ∃ s₁, Shrinks s s₁ ∧ s.responderSettled cfg w i ok noRoute sdp =
        { s₁ with connections := s₁.connections.alloc ⟨(s.inbounds.get i).remotePubkeyHex, .inbound i⟩ } := by
  have hstage : ∀ (s : WebRtcTransport) responders, Shrinks s { s with responders := responders } :=
    fun _ _ => .of_eq rfl rfl rfl rfl rfl rfl rfl
  have hknown : ∀ (s : WebRtcTransport) responders known,
      Shrinks s { s with responders := responders, knownSessionIds := known } :=
    fun _ _ _ => .of_eq rfl rfl rfl rfl rfl rfl rfl
  have hgoOn : ∀ stage, Shrinks s (if s.ownsInbound i = true then { s with responders := s.responders.set i stage }
      else { s with responders := s.responders.delete i }) := by
    intro stage
    split
    · exact hstage s _
    · exact hstage s _
  unfold responderSettled
  split
  · exact .inl .refl
  rename_i stage _
  cases stage with
  | setRemoteDescription =>
    dsimp only
    split
    · exact .inl (hgoOn _)
    · exact .inl shrinks_responderFailed
  | createAnswer =>
    dsimp only
    split
    · exact .inl (hgoOn _)
    · exact .inl shrinks_responderFailed
  | setLocalDescription =>
    dsimp only
    split
    · exact .inl (hgoOn _)
    · exact .inl shrinks_responderFailed
  | iceGathering =>
    dsimp only
    split
    · exact .inl (hstage s _)
    · exact .inl ((hknown s _ _).trans shrinks_sendWebRtcSignal)
  | sendAnswer signal attempt =>
    dsimp only
    split
    · exact .inl (hgoOn _)
    split
    · exact .inl shrinks_responderFailed
    · exact .inl (hstage s _)
  | routeRetry signal attempt =>
    dsimp only
    split
    · exact .inl (hstage s _)
    · exact .inl ((hstage s _).trans shrinks_sendWebRtcSignal)
  | dataChannel =>
    dsimp only
    split
    · exact .inl (hstage s _)
    · rename_i howns
      rw [Bool.not_eq_false] at howns
      exact .inr ⟨howns, { s with responders := s.responders.delete i }, hstage s _, rfl⟩

/-! ### Steps -/

theorem Linked.connectSettled {d : DialRef} (h : Linked s) : Linked (s.connectSettled cfg w d) := by
  have hended : ∀ connects, Linked { s with connects := connects } := fun _ =>
    h.shrink (.of_eq rfl rfl rfl rfl rfl rfl rfl)
  have hfreed : ∀ (s : WebRtcTransport) connects peers, Linked s → Linked { s with
      pendingConnects := connects, autoConnectPeers := peers } := fun _ _ _ h =>
    ⟨h.dials, h.inbounds, h.nodupDials, h.nodupInbound, h.connections⟩
  have hauto : ∀ (s : WebRtcTransport) connects peers keys, Linked s → Linked { s with
      pendingConnects := connects, autoConnectPeers := peers, pendingAutoConnects := keys } := fun _ _ _ _ h =>
    ⟨h.dials, h.inbounds, h.nodupDials, h.nodupInbound, h.connections⟩
  have hfinally : ∀ (s : WebRtcTransport) call, Linked s → Linked (s.connectFinally cfg w d call) := by
    intro s call h
    unfold connectFinally
    dsimp only
    split
    · exact (hauto s _ _ _ h).replan replanned_fillAutoConnectSlots
    · exact hfreed s _ _ h
  unfold WebRtcTransport.connectSettled
  split
  · refine hfinally _ _ ?_
    split
    · exact (hended _).replan replanned_handleAutoConnectFailure
    · exact hended _
  · exact h

theorem Linked.close {addr : PubkeyHex} (h : Linked s) : Linked (s.close cfg w addr) := by
  have htraffic : ∀ (s : WebRtcTransport) keys, Shrinks s { s with peersWithTraffic := keys } := fun _ _ =>
    .of_eq rfl rfl rfl rfl rfl rfl rfl
  have hclosed : ∀ ds keys, Shrinks s (List.foldl (fun s negotiationId => s.clearPendingInbound negotiationId)
      (List.foldl closeDial s ds) keys) := fun ds keys =>
    (shrinks_foldl (fun _ _ => shrinks_closeDial) ds).trans (shrinks_foldl (fun _ _ => shrinks_clearPendingInbound) keys)
  unfold WebRtcTransport.close
  dsimp only
  split
  · exact (h.shrink (((hclosed _ _).trans (htraffic _ _)).trans shrinks_retireExistingConnection)).replan
      replanned_scheduleAutoReconnect
  · exact (h.shrink (((hclosed _ _).trans (htraffic _ _)).trans shrinks_retireExistingConnection)).replan
      replanned_handleAutoConnectFailure

/-- What `connect` does before it has a dial. -/
def Prepared (s s₁ : WebRtcTransport) (addr : PubkeyHex) : Prop := ∃ pendingAuto known, s₁ = { s with
  autoConnectPeers := deleteKey addr s.autoConnectPeers, pendingAutoConnects := pendingAuto, knownSessionIds := known }

/-- A dial of `connect`. -/
def withDial (s : WebRtcTransport) (sessionId : NegotiationId) (remotePubkeyHex : PubkeyHex) (isAutoConnect : Bool) :
    WebRtcTransport := { s with
  dials := s.dials.alloc ⟨sessionId, remotePubkeyHex, .creatingOffer, none, false, true, none⟩
  pendingDials := s.pendingDials.set sessionId s.dials.next
  pendingConnects := s.pendingConnects.set remotePubkeyHex s.dials.next
  connects := s.connects.set s.dials.next ⟨remotePubkeyHex, isAutoConnect, false⟩
  initiators := s.initiators.set s.dials.next .createOffer }

theorem connect_cases {addr : PubkeyHex} {sessionId : NegotiationId} {created : Bool} :
    s.connect w addr sessionId created = s ∨ Prepared s (s.connect w addr sessionId created) addr ∨
      ∃ s₁ isAutoConnect, Prepared s s₁ addr ∧
        s.connect w addr sessionId created = s₁.withDial sessionId (s.ownedPeerAddress addr) isAutoConnect := by
  unfold connect
  dsimp only
  split
  · exact .inl rfl
  split
  · exact .inr (.inl ⟨s.pendingAutoConnects, s.knownSessionIds, rfl⟩)
  have hauto : ∃ pendingAuto, (if decide (addr ∈ s.autoConnectPeers) = true then
      { s with
        autoConnectPeers := deleteKey addr s.autoConnectPeers
        pendingAutoConnects := insertKey (s.ownedPeerAddress addr) s.pendingAutoConnects }
      else { s with autoConnectPeers := deleteKey addr s.autoConnectPeers }) =
      { s with autoConnectPeers := deleteKey addr s.autoConnectPeers, pendingAutoConnects := pendingAuto } := by
    split
    · exact ⟨_, rfl⟩
    · exact ⟨s.pendingAutoConnects, rfl⟩
  obtain ⟨pendingAuto, hauto⟩ := hauto
  rw [hauto]
  split
  · exact .inr (.inl ⟨pendingAuto, s.knownSessionIds, rfl⟩)
  split
  · exact .inr (.inl ⟨pendingAuto, _, rfl⟩)
  · exact .inr (.inr ⟨_, _, ⟨pendingAuto, sessionId :: s.knownSessionIds, rfl⟩, rfl⟩)

theorem Prepared.shrinks {s₁ : WebRtcTransport} {addr : PubkeyHex} (h : Prepared s s₁ addr) : Shrinks s s₁ := by
  obtain ⟨pendingAuto, known, rfl⟩ := h
  exact ⟨.of_eq rfl rfl rfl, rfl, List.Sublist.refl _, List.Sublist.refl _, List.Sublist.refl _, deleteKey_subset⟩

theorem extends_withDial {sessionId : NegotiationId} {auto : Bool} : Extends s (s.withDial sessionId remote auto) := by
  refine ⟨Nat.le_succ _, Nat.le_refl _, Nat.le_refl _, ?_, fun _ _ => ⟨rfl, rfl⟩, fun _ _ => rfl⟩
  intro d hd
  show ((s.dials.alloc _).get d).sessionId = _ ∧ ((s.dials.alloc _).get d).remotePubkeyHex = _
  rw [Heap.get_alloc_of_lt hd]
  exact ⟨rfl, rfl⟩

theorem Linked.withDial {sessionId : NegotiationId} {auto : Bool} (h : Linked s) :
    Linked (s.withDial sessionId remote auto) := by
  refine h.of_extends extends_withDial rfl ?_ (fun _ he => .inl he) (h.nodupDials.set _ _) h.nodupInbound
  intro e he
  rcases JsMap.mem_set he with rfl | he
  · refine .inr ⟨Nat.lt_succ_self _, ?_⟩
    show ((s.dials.alloc _).get s.dials.next).sessionId = _
    rw [Heap.get_alloc_self]
  · exact .inl he

theorem Linked.connect {addr : PubkeyHex} {sessionId : NegotiationId} {created : Bool} (h : Linked s) :
    Linked (s.connect w addr sessionId created) := by
  rcases @connect_cases w s addr sessionId created with heq | hprepared | ⟨s₁, auto, hprepared, heq⟩
  · rw [heq]
    exact h
  · exact h.shrink hprepared.shrinks
  · rw [heq]
    exact (h.shrink hprepared.shrinks).withDial

/-- The offer of an incoming dial is entered. -/
def withInbound (s : WebRtcTransport) (negotiationId : NegotiationId) (remotePubkeyHex : PubkeyHex) (competingDial : Bool) :
    WebRtcTransport := { s with
  inbounds := s.inbounds.alloc ⟨negotiationId, remotePubkeyHex, true, competingDial⟩
  pendingInbound := s.pendingInbound.set negotiationId s.inbounds.next
  responders := s.responders.set s.inbounds.next .setRemoteDescription }

theorem acceptIncomingOffer_eq {offer : WebRtcSignal} {crossed : Bool} :
    s.acceptIncomingOffer cfg w offer remote crossed = if s.atConnectionLimit cfg remote then
      s.rejectIncomingOffer w offer remote else s.withInbound offer.negotiationId remote crossed := rfl

theorem Linked.acceptIncomingOffer {offer : WebRtcSignal} {crossed : Bool} (h : Linked s) :
    Linked (s.acceptIncomingOffer cfg w offer remote crossed) := by
  rw [acceptIncomingOffer_eq]
  split
  · exact h.shrink shrinks_rejectIncomingOffer
  · refine h.of_extends ?_ rfl (fun _ he => .inl he) ?_ h.nodupDials (h.nodupInbound.set _ _)
    · refine ⟨Nat.le_refl _, Nat.le_succ _, Nat.le_refl _, fun _ _ => ⟨rfl, rfl⟩, ?_, fun _ _ => rfl⟩
      intro i hi
      show ((s.inbounds.alloc _).get i).negotiationId = _ ∧ ((s.inbounds.alloc _).get i).remotePubkeyHex = _
      rw [Heap.get_alloc_of_lt hi]
      exact ⟨rfl, rfl⟩
    · intro e he
      rcases JsMap.mem_set he with rfl | he
      · refine .inr ⟨Nat.lt_succ_self _, ?_⟩
        show ((s.inbounds.alloc _).get s.inbounds.next).negotiationId = _
        rw [Heap.get_alloc_self]
      · exact .inl he

theorem Linked.admitIncomingOffer {offer : WebRtcSignal} {key : PubkeyHex} {competing : Option DialRef} (h : Linked s) :
    Linked (s.admitIncomingOffer cfg w offer remote key competing) := by
  unfold WebRtcTransport.admitIncomingOffer
  split
  · exact h.shrink shrinks_rejectIncomingOffer
  split
  · exact h.acceptIncomingOffer
  split
  · exact h.shrink (Shrinks.trans (shrinks_modifyDial (by intro; exact ⟨rfl, rfl⟩)) shrinks_rejectIncomingOffer)
  · exact (h.shrink shrinks_endDial).acceptIncomingOffer

theorem Linked.handleIncomingOffer {offer : WebRtcSignal} {key : PubkeyHex} (h : Linked s) :
    Linked (s.handleIncomingOffer cfg w offer remote key) := by
  unfold WebRtcTransport.handleIncomingOffer
  split
  · exact h
  split
  · split
    · exact h
    · exact h.admitIncomingOffer
  split
  · exact h.shrink shrinks_rejectIncomingOffer
  split
  · exact h.shrink (.of_eq rfl rfl rfl rfl rfl rfl rfl)
  split
  · exact h
  · exact h.admitIncomingOffer

/-- An accepted answer. -/
def answerReceived (s : WebRtcTransport) (d : DialRef) : WebRtcTransport :=
  { s with answers := s.answers.set s.nextCall d, nextCall := s.nextCall + 1 }.modifyDial d
    fun dial => { dial with phase := .applyingAnswer }

theorem shrinks_answerReceived {d : DialRef} : Shrinks s (s.answerReceived d) := by
  have hcall : ∀ answers nextCall, Shrinks s { s with answers := answers, nextCall := nextCall } :=
    fun _ _ => .of_eq rfl rfl rfl rfl rfl rfl rfl
  exact (hcall _ _).trans (shrinks_modifyDial (by intro; exact ⟨rfl, rfl⟩))

/-- A reject that has reached a dial. -/
def rejectReceived (s : WebRtcTransport) (negotiationId : NegotiationId) (d : DialRef) : WebRtcTransport :=
  ({ s with pendingDials := s.pendingDials.delete negotiationId }.modifyDial d
    fun dial => { dial with timer := false }).settleDial d .rejected

theorem shrinks_rejectReceived {negotiationId : NegotiationId} {d : DialRef} :
    Shrinks s (s.rejectReceived negotiationId d) := by
  have hdeleted : Shrinks s { s with pendingDials := s.pendingDials.delete negotiationId } :=
    ⟨.of_eq rfl rfl rfl, rfl, List.filter_sublist, List.Sublist.refl _, List.Sublist.refl _, List.Subset.refl _⟩
  exact (hdeleted.trans (shrinks_modifyDial (by intro; exact ⟨rfl, rfl⟩))).trans shrinks_settleDial

theorem Linked.handleIncomingSignal {signal : WebRtcSignal} (h : Linked s) :
    Linked (s.handleIncomingSignal cfg w signal remote) := by
  have hseen : ∀ seen, Linked { s with seenSessionIds := seen } := fun _ =>
    h.shrink (.of_eq rfl rfl rfl rfl rfl rfl rfl)
  unfold WebRtcTransport.handleIncomingSignal
  split
  · exact h
  split
  · exact h
  dsimp only
  split
  · exact h
  unfold handleValidSignal
  split
  · exact (hseen _).handleIncomingOffer
  · split
    · exact hseen _
    · exact (hseen _).shrink shrinks_answerReceived
  · split
    · exact hseen _
    · exact (hseen _).shrink shrinks_rejectReceived
  · exact hseen _

theorem Linked.admissionSettled {call : Nat} {admitted : Option Bool} (h : Linked s) :
    Linked (s.admissionSettled cfg w call admitted) := by
  have hended : ∀ admissions, Linked { s with admissions := admissions } := fun _ =>
    h.shrink (.of_eq rfl rfl rfl rfl rfl rfl rfl)
  unfold WebRtcTransport.admissionSettled
  split
  · exact h
  dsimp only
  split
  · exact hended _
  split
  · exact hended _
  split
  · exact (hended _).shrink shrinks_rejectIncomingOffer
  · exact (hended _).admitIncomingOffer

theorem Linked.setConnection (h : Linked s) {conns : JsMap PubkeyHex ConnectionRef} : Linked { s with conns := conns } :=
  ⟨h.dials, h.inbounds, h.nodupDials, h.nodupInbound, h.connections⟩

theorem Linked.connectionState {c : ConnectionRef} {state : ConnectionState} (h : Linked s) :
    Linked (s.connectionState cfg c state) := by
  have hsettle : ∀ (s : WebRtcTransport) (b : Bool) d outcome, Linked s →
      Linked (if b = true then s.endDial d outcome else s) := by
    intro s b d outcome h
    split
    · exact h.shrink shrinks_endDial
    · exact h
  unfold WebRtcTransport.connectionState
  split
  · exact h
  split
  · unfold dialConnectionState
    dsimp only
    split
    · exact h
    · exact hsettle _ _ _ _ h.setConnection
    · exact hsettle _ _ _ _ (h.setConnection.shrink shrinks_scheduleAutoReconnect)
    · exact hsettle _ _ _ _ (h.setConnection.shrink shrinks_scheduleAutoReconnect)
  · have hsuperseded : ∀ (s : WebRtcTransport) superseded, Shrinks s { s with supersededConnections := superseded } :=
      fun _ _ => .of_eq rfl rfl rfl rfl rfl rfl rfl
    unfold handleInboundConnectionState
    dsimp only
    split
    · exact (h.setConnection.shrink shrinks_clearPendingInbound).shrink (hsuperseded _ _)
    split
    · split
      · exact h.shrink shrinks_clearPendingInbound
      · exact h
    split
    · exact (h.setConnection.shrink shrinks_clearPendingInbound).shrink shrinks_scheduleAutoReconnect
    · exact h

theorem Linked.step {e : Surroundings × Action} (h : Linked s) : Linked (s.step cfg e) := by
  obtain ⟨w, action⟩ := e
  cases action with
  | start ctx => exact h.shrink shrinks_start
  | stop => exact h.shrink shrinks_stop
  | connect addr sessionId created => exact h.connect
  | connectDiscovered n sessionId created =>
    show Linked (s.connectDiscovered w n sessionId created)
    unfold connectDiscovered
    split
    · exact h
    · have htaken : ∀ discovered, Linked { s with discovered := discovered } := fun _ =>
        h.shrink (.of_eq rfl rfl rfl rfl rfl rfl rfl)
      exact (htaken _).connect
  | connectSettled d => exact h.connectSettled
  | initiatorSettled d ok sdp =>
    rcases @initiatorSettled_cases w s d ok sdp with hshrinks | ⟨howns, s₁, hshrinks, heq⟩
    · exact h.shrink hshrinks
    · show Linked (s.initiatorSettled w d ok sdp)
      rw [heq]
      have hlt := (h.dials _ (mem_of_ownsDial howns)).1
      exact (h.shrink hshrinks).newConnection ⟨hlt.trans_le hshrinks.dialsNext, (hshrinks.dial d hlt).2.symm⟩
  | retrySettled call ok => exact h.shrink shrinks_retrySettled
  | sessionEstablished remote restarted localDescription => exact h.shrink shrinks_handleSessionEstablished
  | linkNegotiation remote signal => exact h.handleIncomingSignal
  | admissionSettled call admitted => exact h.admissionSettled
  | answerSettled call ok => exact h.shrink shrinks_answerSettled
  | responderSettled i ok noRoute sdp =>
    rcases @responderSettled_cases cfg w s i ok noRoute sdp with hshrinks | ⟨howns, s₁, hshrinks, heq⟩
    · exact h.shrink hshrinks
    · show Linked (s.responderSettled cfg w i ok noRoute sdp)
      rw [heq]
      have hlt := (h.inbounds _ (mem_of_ownsInbound howns)).1
      exact (h.shrink hshrinks).newConnection ⟨hlt.trans_le hshrinks.inboundsNext, (hshrinks.inbound i hlt).2.symm⟩
  | connectionState c state => exact h.connectionState
  | packet c => exact h.shrink shrinks_packet
  | dialTimeout d => exact h.shrink shrinks_dialTimeout
  | inboundTimeout i => exact h.shrink shrinks_inboundTimeout
  | autoReconnectTimeout remote => exact h.replan replanned_autoReconnectTimeout
  | autoConnectFillTimeout => exact h.replan replanned_autoConnectFillTimeout
  | close addr => exact h.close
  | advert addr eventPubkey node createdAt expires requested => exact h.replan recached_handleAdvert.1
  | resolve node => exact h.replan recached_resolve.1

end WebRtcTransport

end Fips
