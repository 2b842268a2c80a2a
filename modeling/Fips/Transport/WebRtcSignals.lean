import Fips.Transport.WebRtcCapacity
import Fips.Transport.WebRtcOffers

/-!
# Whose negotiations a signal reaches

Offers are matched by the peer they come from, answers and rejects by their negotiation. What an identity
holds in the transport therefore changes by a signal of another one exactly if that is an answer or a
reject for a dial of it.
-/

namespace Fips
open UnitStrings

namespace WebRtcTransport

variable {cfg : ResolvedWebRtcTransportConfig} {w : Surroundings} {s s' : WebRtcTransport} {remote : PubkeyHex}
  {y : UnitString}

/-! ### What an identity holds -/

def dialsOf (s : WebRtcTransport) (y : UnitString) : List (NegotiationId × PendingDial) :=
  (s.pendingDials.filter fun e => xOnly (s.dials.get e.2).remotePubkeyHex = y).map fun e => (e.1, s.dials.get e.2)

def inboundsOf (s : WebRtcTransport) (y : UnitString) : List (NegotiationId × PendingInboundConnection) :=
  (s.pendingInbound.filter fun e => xOnly (s.inbounds.get e.2).remotePubkeyHex = y).map fun e => (e.1, s.inbounds.get e.2)

def connectionsOf (s : WebRtcTransport) (y : UnitString) : List (PubkeyHex × WebRtcConnection) :=
  (s.conns.filter fun e => xOnly e.1 = y).map fun e => (e.1, s.connections.get e.2)

/-- The pending dials, the pending inbound negotiations and the connections of `y` are the same. -/
structure Untouched (y : UnitString) (s s' : WebRtcTransport) : Prop where
  dials : s'.dialsOf y = s.dialsOf y
  inbounds : s'.inboundsOf y = s.inboundsOf y
  connections : s'.connectionsOf y = s.connectionsOf y

theorem Untouched.refl : Untouched y s s := ⟨rfl, rfl, rfl⟩

theorem Untouched.symm (h : Untouched y s s') : Untouched y s' s := ⟨h.dials.symm, h.inbounds.symm, h.connections.symm⟩

theorem Untouched.trans {s₁ s₂ s₃ : WebRtcTransport} (h : Untouched y s₁ s₂) (h' : Untouched y s₂ s₃) :
    Untouched y s₁ s₃ :=
  ⟨h'.dials.trans h.dials, h'.inbounds.trans h.inbounds, h'.connections.trans h.connections⟩

theorem Untouched.of_eq (hdials : s'.dials = s.dials) (hpendingDials : s'.pendingDials = s.pendingDials)
    (hinbounds : s'.inbounds = s.inbounds) (hpendingInbound : s'.pendingInbound = s.pendingInbound)
    (hconnections : s'.connections = s.connections) (hconns : s'.conns = s.conns) : Untouched y s s' := by
  refine ⟨?_, ?_, ?_⟩
  · unfold dialsOf
    rw [hdials, hpendingDials]
  · unfold inboundsOf
    rw [hinbounds, hpendingInbound]
  · unfold connectionsOf
    rw [hconnections, hconns]

/-- A dial to another identity changes. -/
theorem untouched_modifyDial {d : DialRef} {f : PendingDial → PendingDial}
    (hf : ∀ dial, (f dial).remotePubkeyHex = dial.remotePubkeyHex)
    (hd : xOnly (s.dials.get d).remotePubkeyHex ≠ y) : Untouched y s (s.modifyDial d f) := by
  refine ⟨?_, rfl, rfl⟩
  have hremote : ∀ d', ((s.modifyDial d f).dials.get d').remotePubkeyHex = (s.dials.get d').remotePubkeyHex := by
    intro d'
    rw [get_modifyDial]
    split
    · exact hf _
    · rfl
  unfold dialsOf
  show List.map _ (List.filter _ s.pendingDials) = _
  have hfilter : (s.pendingDials.filter fun e => xOnly ((s.modifyDial d f).dials.get e.2).remotePubkeyHex = y) =
      s.pendingDials.filter fun e => xOnly (s.dials.get e.2).remotePubkeyHex = y :=
    List.filter_congr fun e _ => by rw [hremote]
  rw [hfilter]
  refine List.map_congr_left fun e he => ?_
  have hne : e.2 ≠ d := by
    rintro rfl
    exact hd (of_decide_eq_true (List.mem_filter.1 he).2)
  rw [get_modifyDial_of_ne hne]

/-- A dial to another identity is forgotten. -/
theorem untouched_deleteDial {id : NegotiationId}
    (hid : ∀ d, (id, d) ∈ s.pendingDials → xOnly (s.dials.get d).remotePubkeyHex ≠ y) :
    Untouched y s { s with pendingDials := s.pendingDials.delete id } := by
  refine ⟨?_, rfl, rfl⟩
  unfold dialsOf
  have hfilter : ((s.pendingDials.delete id).filter fun e => xOnly (s.dials.get e.2).remotePubkeyHex = y) =
      s.pendingDials.filter fun e => xOnly (s.dials.get e.2).remotePubkeyHex = y := by
    unfold JsMap.delete
    rw [List.filter_filter]
    refine List.filter_congr fun e he => ?_
    by_cases hy : xOnly (s.dials.get e.2).remotePubkeyHex = y
    · have hne : e.1 ≠ id := by
        rintro rfl
        exact hid e.2 he hy
      rw [decide_eq_true hy, decide_eq_true hne]
      rfl
    · rw [decide_eq_false hy]
      rfl
  dsimp only
  rw [hfilter]

theorem untouched_endDial (hl : Linked s) {d : DialRef} {outcome : DialOutcome}
    (hd : xOnly (s.dials.get d).remotePubkeyHex ≠ y) (howns : s.ownsDial d = true) :
    Untouched y s (s.endDial d outcome) := by
  have hdeleted : Untouched y s { s with pendingDials := s.pendingDials.delete (s.dials.get d).sessionId } := by
    refine untouched_deleteDial fun d' hd' => ?_
    have hget := hl.nodupDials.get_of_mem hd'
    unfold ownsDial at howns
    rw [hget] at howns
    have hsame : d' = d := by simpa using howns
    rw [hsame]
    exact hd
  have htimer : Untouched y { s with pendingDials := s.pendingDials.delete (s.dials.get d).sessionId }
      ({ s with pendingDials := s.pendingDials.delete (s.dials.get d).sessionId }.modifyDial d
        fun dial => { dial with timer := false }) := untouched_modifyDial (fun _ => rfl) hd
  refine (hdeleted.trans htimer).trans (untouched_modifyDial (fun _ => rfl) ?_)
  rw [get_modifyDial_self]
  exact hd

theorem untouched_sendWebRtcSignal {signal : WebRtcSignal} {to_ : PubkeyHex} :
    Untouched y s (s.sendWebRtcSignal w to_ signal) := .of_eq rfl rfl rfl rfl rfl rfl

/-- An offer of another identity is entered under a new negotiation. -/
theorem untouched_withInbound (hl : Linked s) {id : NegotiationId} {crossed : Bool}
    (hnew : s.pendingInbound.get id = none) (hremote : xOnly remote ≠ y) :
    Untouched y s (s.withInbound id remote crossed) := by
  refine ⟨rfl, ?_, rfl⟩
  have hfresh : id ∉ s.pendingInbound.map Prod.fst := by
    intro hmem
    obtain ⟨e, he, rfl⟩ := List.mem_map.1 hmem
    have hget := hl.nodupInbound.get_of_mem (k := e.1) (v := e.2) he
    rw [hnew] at hget
    cases hget
  have hset : (s.withInbound id remote crossed).pendingInbound = s.pendingInbound ++ [(id, s.inbounds.next)] :=
    JsMap.set_of_notMem hfresh
  have hold : ∀ e ∈ s.pendingInbound, (s.withInbound id remote crossed).inbounds.get e.2 = s.inbounds.get e.2 :=
    fun e he => Heap.get_alloc_of_lt (hl.inbounds e he).1
  have hself : (s.withInbound id remote crossed).inbounds.get s.inbounds.next = ⟨id, remote, true, crossed⟩ :=
    Heap.get_alloc_self
  unfold inboundsOf
  rw [hset, List.filter_append]
  have hlast : ([(id, s.inbounds.next)].filter fun e =>
      xOnly ((s.withInbound id remote crossed).inbounds.get e.2).remotePubkeyHex = y) = [] := by
    rw [List.filter_cons_of_neg, List.filter_nil]
    rw [hself]
    simpa using hremote
  rw [hlast, List.append_nil]
  have hfilter : (s.pendingInbound.filter fun e =>
      xOnly ((s.withInbound id remote crossed).inbounds.get e.2).remotePubkeyHex = y) =
      s.pendingInbound.filter fun e => xOnly (s.inbounds.get e.2).remotePubkeyHex = y :=
    List.filter_congr fun e he => by rw [hold e he]
  rw [hfilter]
  refine List.map_congr_left fun e he => ?_
  rw [hold e (List.mem_filter.1 he).1]

/-! ### Offers -/

theorem untouched_acceptIncomingOffer (hl : Linked s) {offer : WebRtcSignal} {crossed : Bool}
    (hnew : s.pendingInbound.get offer.negotiationId = none) (hremote : xOnly remote ≠ y) :
    Untouched y s (s.acceptIncomingOffer cfg w offer remote crossed) := by
  rw [acceptIncomingOffer_eq]
  split
  · exact untouched_sendWebRtcSignal
  · exact untouched_withInbound hl hnew hremote

theorem untouched_handleIncomingOffer (hl : Linked s) {offer : WebRtcSignal} {key : PubkeyHex}
    (hremote : xOnly remote ≠ y) : Untouched y s (s.handleIncomingOffer cfg w offer remote key) := by
  unfold handleIncomingOffer
  split
  · exact .refl
  rename_i hpending
  rw [Bool.not_eq_true, Option.isSome_eq_false_iff, Option.isNone_iff_eq_none] at hpending
  split
  · rename_i d hd
    obtain ⟨⟨e, he, heq⟩, hdial⟩ := competingDial_eq_some hd
    have hother : xOnly (s.dials.get d).remotePubkeyHex ≠ y := by
      rw [hdial]
      exact hremote
    have howns : s.ownsDial d = true := ownsDial_of_isPending hl ⟨e.1, by rw [← heq]; exact he⟩
    split
    · exact .refl
    unfold admitIncomingOffer
    split
    · exact untouched_sendWebRtcSignal
    dsimp only
    split
    · exact (untouched_modifyDial (by intro; rfl) hother).trans untouched_sendWebRtcSignal
    · have hended : Untouched y s (s.endDial d .handoff) := untouched_endDial hl hother howns
      exact hended.trans (untouched_acceptIncomingOffer (hl.shrink shrinks_endDial) hpending hremote)
  split
  · exact untouched_sendWebRtcSignal
  split
  · exact .of_eq rfl rfl rfl rfl rfl rfl
  split
  · exact .refl
  unfold admitIncomingOffer
  split
  · exact untouched_sendWebRtcSignal
  · exact untouched_acceptIncomingOffer hl hpending hremote

/-! ### Answers and rejects -/

/-- The signal is taken from the identity. -/
def takes (w : Surroundings) (s : WebRtcTransport) (remote : PubkeyHex) (signal : WebRtcSignal) : Bool :=
  s.ctx.isSome && s.peerAllowed w remote && (validateWebRtcSignal signal (s.validationContext w)).toBool

/-- A signal that is taken rejects a pending dial to `y`, or answers one whose answer is not being applied. -/
def Intrudes (w : Surroundings) (s : WebRtcTransport) (remote : PubkeyHex) (signal : WebRtcSignal) (y : UnitString) : Prop :=
  s.takes w remote signal = true ∧ ∃ d, s.pendingDials.get signal.negotiationId = some d ∧
    xOnly (s.dials.get d).remotePubkeyHex = y ∧
    (signal.kind = .reject ∨ signal.kind = .answer ∧ (s.dials.get d).phase ≠ .applyingAnswer)

theorem handleIncomingSignal_eq_of_not_taken {signal : WebRtcSignal} (h : s.takes w remote signal = false) :
    s.handleIncomingSignal cfg w signal remote = s := by
  unfold handleIncomingSignal
  split
  · rfl
  rename_i ctx hctx
  split
  · rfl
  rename_i hallowed
  dsimp only
  split
  · rfl
  · rename_i valid hvalid
    rw [Bool.not_eq_false] at hallowed
    unfold takes at h
    rw [hctx, hallowed, hvalid] at h
    cases h

theorem handleIncomingSignal_eq_of_taken {signal : WebRtcSignal} (h : s.takes w remote signal = true) :
    ∃ ctx, s.ctx = some ctx ∧ s.handleIncomingSignal cfg w signal remote =
      { s with seenSessionIds := replayKey signal.negotiationId signal.kind :: s.seenSessionIds }.handleValidSignal cfg w signal
        (s.ownedPeerAddress remote) ctx.localPubkeyHex := by
  unfold takes at h
  rw [Bool.and_eq_true, Bool.and_eq_true] at h
  obtain ⟨⟨hctx, hallowed⟩, hvalid⟩ := h
  obtain ⟨ctx, hctx⟩ := Option.isSome_iff_exists.1 hctx
  have hallowed' : ¬ s.peerAllowed w remote = false := by
    rw [hallowed]
    exact Bool.noConfusion
  refine ⟨ctx, hctx, ?_⟩
  unfold handleIncomingSignal
  rw [hctx]
  dsimp only
  rw [if_neg hallowed']
  split
  · rename_i herror
    rw [herror] at hvalid
    cases hvalid
  · rename_i valid hok
    obtain ⟨rfl, -⟩ := validateWebRtcSignal_eq_ok hok
    rfl

theorem mem_dialsOf {id : NegotiationId} {dial : PendingDial} : (id, dial) ∈ s.dialsOf y ↔
    ∃ d, (id, d) ∈ s.pendingDials ∧ xOnly (s.dials.get d).remotePubkeyHex = y ∧ s.dials.get d = dial := by
  unfold dialsOf
  constructor
  · intro h
    obtain ⟨e, he, heq⟩ := List.mem_map.1 h
    obtain ⟨he, hy⟩ := List.mem_filter.1 he
    cases heq
    exact ⟨e.2, he, of_decide_eq_true hy, rfl⟩
  · rintro ⟨d, hd, hy, rfl⟩
    exact List.mem_map.2 ⟨(id, d), List.mem_filter.2 ⟨hd, decide_eq_true hy⟩, rfl⟩

theorem untouched_answerReceived_iff (hl : Linked s) {id : NegotiationId} {d : DialRef}
    (hd : s.pendingDials.get id = some d) : Untouched y s (s.answerReceived d) ↔
      ¬ (xOnly (s.dials.get d).remotePubkeyHex = y ∧ (s.dials.get d).phase ≠ .applyingAnswer) := by
  have hget : ∀ d', (s.answerReceived d).dials.get d' =
      if d' = d then { s.dials.get d' with phase := .applyingAnswer } else s.dials.get d' := fun _ => rfl
  constructor
  · rintro huntouched ⟨hy, hphase⟩
    have hnew : (id, { s.dials.get d with phase := .applyingAnswer }) ∈ (s.answerReceived d).dialsOf y := by
      refine mem_dialsOf.2 ⟨d, JsMap.mem_of_get hd, ?_, ?_⟩
      · rw [hget, if_pos rfl]
        exact hy
      · rw [hget, if_pos rfl]
    rw [huntouched.dials] at hnew
    obtain ⟨d', hd', -, hsame⟩ := mem_dialsOf.1 hnew
    have hget' := hl.nodupDials.get_of_mem hd'
    rw [hd] at hget'
    cases hget'
    rw [hsame] at hphase
    exact hphase rfl
  · intro hnot
    by_cases hy : xOnly (s.dials.get d).remotePubkeyHex = y
    · have hphase : (s.dials.get d).phase = .applyingAnswer := by
        by_contra hphase
        exact hnot ⟨hy, hphase⟩
      have hsame : ∀ d', (s.answerReceived d).dials.get d' = s.dials.get d' := by
        intro d'
        rw [hget]
        split
        · rename_i heq
          rw [heq, ← hphase]
        · rfl
      refine ⟨?_, rfl, rfl⟩
      unfold dialsOf
      show List.map _ (List.filter _ s.pendingDials) = _
      have hfilter : (s.pendingDials.filter fun e => xOnly ((s.answerReceived d).dials.get e.2).remotePubkeyHex = y) =
          s.pendingDials.filter fun e => xOnly (s.dials.get e.2).remotePubkeyHex = y :=
        List.filter_congr fun e _ => by rw [hsame]
      rw [hfilter]
      exact List.map_congr_left fun e _ => by rw [hsame]
    · have hcall : ∀ answers nextCall, Untouched y s { s with answers := answers, nextCall := nextCall } :=
        fun _ _ => .of_eq rfl rfl rfl rfl rfl rfl
      exact (hcall _ _).trans (untouched_modifyDial (by intro; rfl) hy)

theorem untouched_rejectReceived_iff (hl : Linked s) {id : NegotiationId} {d : DialRef}
    (hd : s.pendingDials.get id = some d) :
    Untouched y s (s.rejectReceived id d) ↔ xOnly (s.dials.get d).remotePubkeyHex ≠ y := by
  constructor
  · intro huntouched hy
    have hold : (id, s.dials.get d) ∈ s.dialsOf y := mem_dialsOf.2 ⟨d, JsMap.mem_of_get hd, hy, rfl⟩
    rw [← huntouched.dials] at hold
    obtain ⟨d', hd', -⟩ := mem_dialsOf.1 hold
    have hmem : (id, d') ∈ s.pendingDials.delete id := hd'
    exact (JsMap.mem_delete.1 hmem).2 rfl
  · intro hy
    have hdeleted : Untouched y s { s with pendingDials := s.pendingDials.delete id } := by
      refine untouched_deleteDial fun d' hd' => ?_
      have hget := hl.nodupDials.get_of_mem hd'
      rw [hd] at hget
      cases hget
      exact hy
    have htimer : Untouched y { s with pendingDials := s.pendingDials.delete id }
        ({ s with pendingDials := s.pendingDials.delete id }.modifyDial d fun dial => { dial with timer := false }) :=
      untouched_modifyDial (fun _ => rfl) hy
    refine (hdeleted.trans htimer).trans (untouched_modifyDial (fun _ => rfl) ?_)
    rw [get_modifyDial_self]
    exact hy

/-- In every state that a run reaches, a signal changes what another identity holds exactly if it is an
answer or a reject that is taken for a dial to that identity. -/
theorem signal_untouched_iff (es : List (Surroundings × Action)) (w : Surroundings) (remote : PubkeyHex)
    (signal : WebRtcSignal) (y : UnitString) (hne : xOnly remote ≠ y) :
    Untouched y (Run.run (step cfg) new es) (Run.run (step cfg) new (es ++ [(w, .linkNegotiation remote signal)])) ↔
      ¬ Intrudes w (Run.run (step cfg) new es) remote signal y := by
  rw [Run.run_append]
  obtain ⟨hl, -⟩ := @Offering.run cfg new es offering_new linked_new
  generalize Run.run (step cfg) new es = s at hl ⊢
  show Untouched y s (s.handleIncomingSignal cfg w signal remote) ↔ _
  have howned : xOnly (s.ownedPeerAddress remote) ≠ y := by
    rw [xOnly_ownedPeerAddress]
    exact hne
  cases htakes : s.takes w remote signal with
  | false =>
    rw [handleIncomingSignal_eq_of_not_taken htakes]
    refine ⟨fun _ hintrudes => ?_, fun _ => .refl⟩
    rw [hintrudes.1] at htakes
    cases htakes
  | true =>
    obtain ⟨ctx, -, heq⟩ := @handleIncomingSignal_eq_of_taken cfg w s remote signal htakes
    rw [heq]
    have hseen : ∀ seen, Untouched y s { s with seenSessionIds := seen } := fun _ => .of_eq rfl rfl rfl rfl rfl rfl
    have hunseen : ∀ seen s', Untouched y { s with seenSessionIds := seen } s' ↔ Untouched y s s' := fun seen _ =>
      ⟨fun h => (hseen seen).trans h, fun h => (hseen seen).symm.trans h⟩
    have hlinked : ∀ seen, Linked { s with seenSessionIds := seen } := fun _ =>
      hl.shrink (.of_eq rfl rfl rfl rfl rfl rfl rfl)
    unfold handleValidSignal
    split
    · rename_i hkind
      refine ⟨fun _ => ?_, fun _ => (hseen _).trans (untouched_handleIncomingOffer (hlinked _) howned)⟩
      rintro ⟨-, d, -, -, hreject | ⟨hanswer, -⟩⟩
      · rw [hkind] at hreject
        cases hreject
      · rw [hkind] at hanswer
        cases hanswer
    · rename_i hkind
      split
      · rename_i hnone
        refine ⟨fun _ => ?_, fun _ => hseen _⟩
        rintro ⟨-, d, hd, -⟩
        rw [hnone] at hd
        cases hd
      · rename_i d hd
        refine (hunseen _ _).symm.trans ((untouched_answerReceived_iff (hlinked _) hd).trans (not_congr ⟨fun h => ⟨htakes, d, hd, h.1, .inr ⟨hkind, h.2⟩⟩, ?_⟩))
        rintro ⟨-, d', hd', hy, hreject | ⟨-, hphase⟩⟩
        · rw [hkind] at hreject
          cases hreject
        · have hsame : some d = some d' := hd.symm.trans hd'
          cases hsame
          exact ⟨hy, hphase⟩
    · rename_i hkind
      split
      · rename_i hnone
        refine ⟨fun _ => ?_, fun _ => hseen _⟩
        rintro ⟨-, d, hd, -⟩
        rw [hnone] at hd
        cases hd
      · rename_i d hd
        refine (hunseen _ _).symm.trans ((untouched_rejectReceived_iff (hlinked _) hd).trans
          ⟨?_, fun hintrudes hy => hintrudes ⟨htakes, d, hd, hy, .inl hkind⟩⟩)
        rintro hother ⟨-, d', hd', hy, -⟩
        have hsame : some d = some d' := hd.symm.trans hd'
        cases hsame
        exact hother hy
    · rename_i hkind
      refine ⟨fun _ => ?_, fun _ => hseen _⟩
      rintro ⟨-, d, -, -, hreject | ⟨hanswer, -⟩⟩
      · rw [hkind] at hreject
        cases hreject
      · rw [hkind] at hanswer
        cases hanswer

open RestartExample

/-- A stranger rejects the dial of `offered`. -/
def strangersReject : Surroundings × Action :=
  (surroundings, .linkNegotiation (js "02" ++ List.replicate 64 (unit 'c')) (createWebRtcSignal 0 (js "1") .reject ⟨none, none⟩))

theorem strangersReject_touches : ¬ Untouched (xOnly peer) (Run.run (step config) new offered)
    (Run.run (step config) new (offered ++ [strangersReject])) := by
  have hiff := @signal_untouched_iff config offered surroundings (js "02" ++ List.replicate 64 (unit 'c'))
    (createWebRtcSignal 0 (js "1") .reject ⟨none, none⟩) (xOnly peer) (by decide +kernel)
  intro huntouched
  refine hiff.1 huntouched ⟨by decide +kernel, 0, by decide +kernel, by decide +kernel, .inl rfl⟩

end WebRtcTransport

end Fips
