import Fips.Transport.WebRtcFrames

/-!
# `WebRtcDial.ts`: the offers of a dial

A handshake sends the offer of its dial, and after a restart of the peer a retry sends it again. A dial
has at most one offer in flight, and its phase says whether it has one. A restart during a send is
recorded in a flag, which that send's loop reads when it is settled.
-/

namespace Fips
open UnitStrings

/-- The phases after an answer. -/
def DialPhase.Answered (phase : DialPhase) : Prop := phase = .applyingAnswer ∨ phase = .openingDataChannel

instance (phase : DialPhase) : Decidable phase.Answered :=
  inferInstanceAs (Decidable (phase = .applyingAnswer ∨ phase = .openingDataChannel))

namespace WebRtcTransport

variable {cfg : ResolvedWebRtcTransportConfig} {w : Surroundings} {s s' : WebRtcTransport} {remote : PubkeyHex}

/-! ### Steps without an offer -/

/-- No offer is sent or settled, and no dial is made. -/
structure Quiet (s s' : WebRtcTransport) : Prop where
  next : s'.dials.next = s.dials.next
  initiators : s'.initiators = s.initiators
  retries : s'.retries = s.retries
  nextCall : s.nextCall ≤ s'.nextCall
  sessionId : ∀ d, (s'.dials.get d).sessionId = (s.dials.get d).sessionId
  remotePubkeyHex : ∀ d, (s'.dials.get d).remotePubkeyHex = (s.dials.get d).remotePubkeyHex
  phase : ∀ d, (s'.dials.get d).phase = (s.dials.get d).phase ∨ (s'.dials.get d).phase.Answered
  flag : ∀ d, (s'.dials.get d).retryOfferAfterRestart = (s.dials.get d).retryOfferAfterRestart
  pending : s'.pendingDials ⊆ s.pendingDials
  sends : s.sends <+: s'.sends

theorem Quiet.of_eq (hdials : s'.dials = s.dials) (hinitiators : s'.initiators = s.initiators)
    (hretries : s'.retries = s.retries) (hcalls : s.nextCall ≤ s'.nextCall)
    (hpending : s'.pendingDials ⊆ s.pendingDials) (hsends : s.sends <+: s'.sends) : Quiet s s' where
  next := by rw [hdials]
  initiators := hinitiators
  retries := hretries
  nextCall := hcalls
  sessionId d := by rw [hdials]
  remotePubkeyHex d := by rw [hdials]
  phase d := .inl (by rw [hdials])
  flag d := by rw [hdials]
  pending := hpending
  sends := hsends

theorem Quiet.refl : Quiet s s := .of_eq rfl rfl rfl (Nat.le_refl _) (List.Subset.refl _) (List.prefix_refl _)

theorem Quiet.trans {s₁ s₂ s₃ : WebRtcTransport} (h : Quiet s₁ s₂) (h' : Quiet s₂ s₃) : Quiet s₁ s₃ where
  next := h'.next.trans h.next
  initiators := h'.initiators.trans h.initiators
  retries := h'.retries.trans h.retries
  nextCall := h.nextCall.trans h'.nextCall
  sessionId d := (h'.sessionId d).trans (h.sessionId d)
  remotePubkeyHex d := (h'.remotePubkeyHex d).trans (h.remotePubkeyHex d)
  phase d := by
    rcases h'.phase d with heq | hanswered
    · rw [heq]
      exact h.phase d
    · exact .inr hanswered
  flag d := (h'.flag d).trans (h.flag d)
  pending := fun _ he => h.pending (h'.pending he)
  sends := h.sends.trans h'.sends

theorem quiet_foldl {α : Type} {f : WebRtcTransport → α → WebRtcTransport} (h : ∀ s a, Quiet s (f s a)) (l : List α) :
    Quiet s (l.foldl f s) := by
  induction l generalizing s with
  | nil => exact .refl
  | cons a l ih => exact (h s a).trans ih

theorem Replanned.quiet (h : Replanned s s') : Quiet s s' := by
  obtain ⟨p, rfl⟩ := h
  exact .of_eq rfl rfl rfl (Nat.le_refl _) (List.Subset.refl _) (List.prefix_refl _)

/-- A change of a dial that is not about its offer. -/
theorem quiet_modifyDial {d : DialRef} {f : PendingDial → PendingDial}
    (h : ∀ dial, ((f dial).phase = dial.phase ∨ (f dial).phase.Answered) ∧
      (f dial).retryOfferAfterRestart = dial.retryOfferAfterRestart ∧ (f dial).sessionId = dial.sessionId ∧
      (f dial).remotePubkeyHex = dial.remotePubkeyHex) : Quiet s (s.modifyDial d f) := by
  refine ⟨rfl, rfl, rfl, Nat.le_refl _, ?_, ?_, ?_, ?_, List.Subset.refl _, List.prefix_refl _⟩
  · intro d'
    show ((s.dials.modify d f).get d').sessionId = _
    rw [Heap.get_modify]
    split
    · exact (h _).2.2.1
    · rfl
  · intro d'
    show ((s.dials.modify d f).get d').remotePubkeyHex = _
    rw [Heap.get_modify]
    split
    · exact (h _).2.2.2
    · rfl
  · intro d'
    show ((s.dials.modify d f).get d').phase = _ ∨ ((s.dials.modify d f).get d').phase.Answered
    rw [Heap.get_modify]
    split
    · exact (h _).1
    · exact .inl rfl
  · intro d'
    show ((s.dials.modify d f).get d').retryOfferAfterRestart = _
    rw [Heap.get_modify]
    split
    · exact (h _).2.1
    · rfl

theorem quiet_settleDial {d : DialRef} {outcome : DialOutcome} : Quiet s (s.settleDial d outcome) :=
  quiet_modifyDial fun _ => ⟨.inl rfl, rfl, rfl, rfl⟩

theorem quiet_endDial {d : DialRef} {outcome : DialOutcome} : Quiet s (s.endDial d outcome) := by
  have hdeleted : Quiet s { s with pendingDials := s.pendingDials.delete (s.dials.get d).sessionId } :=
    .of_eq rfl rfl rfl (Nat.le_refl _) List.filter_sublist.subset (List.prefix_refl _)
  exact (hdeleted.trans (quiet_modifyDial (by intro; exact ⟨.inl rfl, rfl, rfl, rfl⟩))).trans quiet_settleDial

theorem quiet_clearPendingInbound {negotiationId : NegotiationId} : Quiet s (s.clearPendingInbound negotiationId) := by
  unfold clearPendingInbound
  split
  · exact .refl
  · exact .of_eq rfl rfl rfl (Nat.le_refl _) (List.Subset.refl _) (List.prefix_refl _)

theorem quiet_sendWebRtcSignal {signal : WebRtcSignal} : Quiet s (s.sendWebRtcSignal w remote signal) :=
  .of_eq rfl rfl rfl (Nat.le_refl _) (List.Subset.refl _) (List.prefix_append _ _)

theorem quiet_connectSettled {d : DialRef} : Quiet s (s.connectSettled cfg w d) := by
  have hended : ∀ (s : WebRtcTransport) connects, Quiet s { s with connects := connects } := fun _ _ =>
    .of_eq rfl rfl rfl (Nat.le_refl _) (List.Subset.refl _) (List.prefix_refl _)
  have hfreed : ∀ (s : WebRtcTransport) connects peers, Quiet s { s with
      pendingConnects := connects, autoConnectPeers := peers } := fun _ _ _ =>
    .of_eq rfl rfl rfl (Nat.le_refl _) (List.Subset.refl _) (List.prefix_refl _)
  have hauto : ∀ (s : WebRtcTransport) connects peers keys, Quiet s { s with
      pendingConnects := connects, autoConnectPeers := peers, pendingAutoConnects := keys } := fun _ _ _ _ =>
    .of_eq rfl rfl rfl (Nat.le_refl _) (List.Subset.refl _) (List.prefix_refl _)
  have hfinally : ∀ (s : WebRtcTransport) call, Quiet s (s.connectFinally cfg w d call) := by
    intro s call
    unfold connectFinally
    dsimp only
    split
    · exact (hauto s _ _ _).trans replanned_fillAutoConnectSlots.quiet
    · exact hfreed s _ _
  unfold connectSettled
  split
  · refine Quiet.trans ?_ (hfinally _ _)
    split
    · exact (hended s _).trans replanned_handleAutoConnectFailure.quiet
    · exact hended s _
  · exact .refl

theorem quiet_acceptIncomingOffer {offer : WebRtcSignal} {crossed : Bool} :
    Quiet s (s.acceptIncomingOffer cfg w offer remote crossed) := by
  unfold acceptIncomingOffer
  split
  · exact quiet_sendWebRtcSignal
  · exact .of_eq rfl rfl rfl (Nat.le_refl _) (List.Subset.refl _) (List.prefix_refl _)

theorem quiet_admitIncomingOffer {offer : WebRtcSignal} {key : PubkeyHex} {competing : Option DialRef} :
    Quiet s (s.admitIncomingOffer cfg w offer remote key competing) := by
  unfold admitIncomingOffer
  split
  · exact quiet_sendWebRtcSignal
  split
  · exact quiet_acceptIncomingOffer
  split
  · exact (quiet_modifyDial (by intro; exact ⟨.inl rfl, rfl, rfl, rfl⟩)).trans quiet_sendWebRtcSignal
  · exact quiet_endDial.trans quiet_acceptIncomingOffer

theorem quiet_handleIncomingOffer {offer : WebRtcSignal} {key : PubkeyHex} :
    Quiet s (s.handleIncomingOffer cfg w offer remote key) := by
  unfold handleIncomingOffer
  split
  · exact .refl
  split
  · split
    · exact .refl
    · exact quiet_admitIncomingOffer
  split
  · exact quiet_sendWebRtcSignal
  split
  · exact .of_eq rfl rfl rfl (Nat.le_succ _) (List.Subset.refl _) (List.prefix_refl _)
  split
  · exact .refl
  · exact quiet_admitIncomingOffer

theorem quiet_handleIncomingSignal {signal : WebRtcSignal} : Quiet s (s.handleIncomingSignal cfg w signal remote) := by
  have hseen : ∀ seen, Quiet s { s with seenSessionIds := seen } := fun _ =>
    .of_eq rfl rfl rfl (Nat.le_refl _) (List.Subset.refl _) (List.prefix_refl _)
  have hvalid : ∀ (s : WebRtcTransport) valid remote key, Quiet s (s.handleValidSignal cfg w valid remote key) := by
    intro s valid remote key
    unfold handleValidSignal
    split
    · exact quiet_handleIncomingOffer
    · split
      · exact .refl
      · have hanswer : ∀ answers, Quiet s { s with answers := answers, nextCall := s.nextCall + 1 } := fun _ =>
          .of_eq rfl rfl rfl (Nat.le_succ _) (List.Subset.refl _) (List.prefix_refl _)
        exact (hanswer _).trans (quiet_modifyDial (by intro; exact ⟨.inr (.inl rfl), rfl, rfl, rfl⟩))
    · split
      · exact .refl
      · have hdeleted : Quiet s { s with pendingDials := s.pendingDials.delete valid.negotiationId } :=
          .of_eq rfl rfl rfl (Nat.le_refl _) List.filter_sublist.subset (List.prefix_refl _)
        exact (hdeleted.trans (quiet_modifyDial (by intro; exact ⟨.inl rfl, rfl, rfl, rfl⟩))).trans quiet_settleDial
    · exact .refl
  unfold handleIncomingSignal
  split
  · exact .refl
  split
  · exact .refl
  dsimp only
  split
  · exact .refl
  · exact (hseen _).trans (hvalid _ _ _ _)

theorem quiet_admissionSettled {call : Nat} {admitted : Option Bool} :
    Quiet s (s.admissionSettled cfg w call admitted) := by
  have hended : ∀ admissions, Quiet s { s with admissions := admissions } := fun _ =>
    .of_eq rfl rfl rfl (Nat.le_refl _) (List.Subset.refl _) (List.prefix_refl _)
  unfold admissionSettled
  split
  · exact .refl
  dsimp only
  split
  · exact hended _
  split
  · exact hended _
  split
  · exact (hended _).trans quiet_sendWebRtcSignal
  · exact (hended _).trans quiet_admitIncomingOffer

theorem quiet_answerSettled {call : Nat} {ok : Bool} : Quiet s (s.answerSettled call ok) := by
  have hended : ∀ answers, Quiet s { s with answers := answers } := fun _ =>
    .of_eq rfl rfl rfl (Nat.le_refl _) (List.Subset.refl _) (List.prefix_refl _)
  unfold answerSettled
  split
  · exact .refl
  dsimp only
  split
  · exact (hended _).trans (quiet_modifyDial (by intro; exact ⟨.inr (.inr rfl), rfl, rfl, rfl⟩))
  · exact hended _

theorem quiet_responderFailed {i : InboundRef} : Quiet s (s.responderFailed cfg i) := by
  have hended : ∀ responders, Quiet s { s with responders := responders } := fun _ =>
    .of_eq rfl rfl rfl (Nat.le_refl _) (List.Subset.refl _) (List.prefix_refl _)
  have hcleared : Quiet s ({ s with responders := s.responders.delete i }.clearPendingInbound
      (s.inbounds.get i).negotiationId) := (hended _).trans quiet_clearPendingInbound
  unfold responderFailed
  dsimp only
  split
  · exact hcleared.trans replanned_scheduleAutoReconnect.quiet
  · exact hcleared

theorem quiet_responderSettled {i : InboundRef} {ok noRoute : Bool} {sdp : UnitString} :
    Quiet s (s.responderSettled cfg w i ok noRoute sdp) := by
  have hstage : ∀ (s : WebRtcTransport) responders, Quiet s { s with responders := responders } := fun _ _ =>
    .of_eq rfl rfl rfl (Nat.le_refl _) (List.Subset.refl _) (List.prefix_refl _)
  have hknown : ∀ (s : WebRtcTransport) responders known, Quiet s { s with
      responders := responders, knownSessionIds := known } := fun _ _ _ =>
    .of_eq rfl rfl rfl (Nat.le_refl _) (List.Subset.refl _) (List.prefix_refl _)
  have hgoOn : ∀ stage, Quiet s (if s.ownsInbound i = true then { s with responders := s.responders.set i stage }
      else { s with responders := s.responders.delete i }) := by
    intro stage
    split
    · exact hstage s _
    · exact hstage s _
  have hnext : ∀ (stage : ResponderStage) (b : Bool), Quiet s (if b = true then
      (if s.ownsInbound i = true then { s with responders := s.responders.set i stage }
        else { s with responders := s.responders.delete i }) else s.responderFailed cfg i) := by
    intro stage b
    split
    · exact hgoOn _
    · exact quiet_responderFailed
  unfold responderSettled
  split
  · exact .refl
  rename_i stage _
  cases stage with
  | setRemoteDescription => exact hnext _ ok
  | createAnswer => exact hnext _ ok
  | setLocalDescription => exact hnext _ ok
  | iceGathering =>
    dsimp only
    split
    · exact hstage s _
    · exact (hknown s _ _).trans quiet_sendWebRtcSignal
  | sendAnswer signal attempt =>
    dsimp only
    split
    · exact hgoOn _
    split
    · exact quiet_responderFailed
    · exact hstage s _
  | routeRetry signal attempt =>
    dsimp only
    split
    · exact hstage s _
    · exact (hstage s _).trans quiet_sendWebRtcSignal
  | dataChannel =>
    dsimp only
    split
    · exact hstage s _
    · exact .of_eq rfl rfl rfl (Nat.le_refl _) (List.Subset.refl _) (List.prefix_refl _)

theorem quiet_connectionState {c : ConnectionRef} {state : ConnectionState} :
    Quiet s (s.connectionState cfg c state) := by
  have hconns : ∀ (s : WebRtcTransport) conns, Quiet s { s with conns := conns } := fun _ _ =>
    .of_eq rfl rfl rfl (Nat.le_refl _) (List.Subset.refl _) (List.prefix_refl _)
  have hsettle : ∀ (s : WebRtcTransport) (b : Bool) d outcome,
      Quiet s (if b = true then s.endDial d outcome else s) := by
    intro s b d outcome
    split
    · exact quiet_endDial
    · exact .refl
  unfold connectionState
  split
  · exact .refl
  split
  · unfold dialConnectionState
    dsimp only
    split
    · exact .refl
    · exact (hconns s _).trans (hsettle _ _ _ _)
    · exact ((hconns s _).trans replanned_scheduleAutoReconnect.quiet).trans (hsettle _ _ _ _)
    · exact ((hconns s _).trans replanned_scheduleAutoReconnect.quiet).trans (hsettle _ _ _ _)
  · have hsuperseded : ∀ (s : WebRtcTransport) superseded, Quiet s { s with supersededConnections := superseded } :=
      fun _ _ => .of_eq rfl rfl rfl (Nat.le_refl _) (List.Subset.refl _) (List.prefix_refl _)
    unfold handleInboundConnectionState
    dsimp only
    split
    · exact ((hconns s _).trans quiet_clearPendingInbound).trans (hsuperseded _ _)
    split
    · split
      · exact quiet_clearPendingInbound
      · exact .refl
    split
    · exact ((hconns s _).trans quiet_clearPendingInbound).trans replanned_scheduleAutoReconnect.quiet
    · exact .refl

theorem quiet_packet {c : ConnectionRef} : Quiet s (s.packet c) := by
  unfold packet
  split
  · exact .of_eq rfl rfl rfl (Nat.le_refl _) (List.Subset.refl _) (List.prefix_refl _)
  · exact .refl

theorem quiet_dialTimeout {d : DialRef} : Quiet s (s.dialTimeout d) := by
  unfold dialTimeout
  split
  · exact quiet_endDial
  · exact .refl

theorem quiet_inboundTimeout {i : InboundRef} : Quiet s (s.inboundTimeout cfg i) := by
  have hended : ∀ pending inbounds, Quiet s { s with pendingInbound := pending, inbounds := inbounds } := fun _ _ =>
    .of_eq rfl rfl rfl (Nat.le_refl _) (List.Subset.refl _) (List.prefix_refl _)
  unfold inboundTimeout
  dsimp only
  split
  · split
    · exact (hended _ _).trans replanned_scheduleAutoReconnect.quiet
    · exact hended _ _
  · exact .refl

theorem quiet_stop : Quiet s s.stop := by
  have hcleared : ∀ (s : WebRtcTransport) a b c d e, Quiet s { s with
      stopping := true, autoReconnectTimers := a, cooldowns := b, autoConnectAttempts := c,
      autoConnectAttemptSequence := d, autoConnectFillTimer := e, conns := [], autoConnectPeers := [],
      pendingAutoConnects := [] } := fun _ _ _ _ _ _ =>
    .of_eq rfl rfl rfl (Nat.le_refl _) (List.Subset.refl _) (List.prefix_refl _)
  have hforgotten : ∀ s : WebRtcTransport, Quiet s { s with
      pendingConnects := [], knownSessionIds := [], seenSessionIds := [], advertCache := [], peersWithTraffic := [],
      ctx := none } := fun _ => .of_eq rfl rfl rfl (Nat.le_refl _) (List.Subset.refl _) (List.prefix_refl _)
  refine Quiet.trans ?_ (hforgotten _)
  refine Quiet.trans ?_ (quiet_foldl (fun _ _ => quiet_clearPendingInbound) _)
  exact (hcleared s _ _ _ _ _).trans (quiet_foldl (fun _ _ => quiet_endDial) _)

theorem quiet_close {addr : PubkeyHex} : Quiet s (s.close cfg w addr) := by
  have hdial : ∀ (s : WebRtcTransport) d, Quiet s (s.closeDial d) := by
    intro s d
    have hforgotten : ∀ known, Quiet s { s with knownSessionIds := known } := fun _ =>
      .of_eq rfl rfl rfl (Nat.le_refl _) (List.Subset.refl _) (List.prefix_refl _)
    exact (hforgotten _).trans quiet_endDial
  have hretired : ∀ (s : WebRtcTransport) remote, Quiet s (s.retireExistingConnection remote) := by
    intro s remote
    unfold retireExistingConnection
    split
    · exact .refl
    · exact .of_eq rfl rfl rfl (Nat.le_refl _) (List.Subset.refl _) (List.prefix_refl _)
  have htraffic : ∀ (s : WebRtcTransport) keys, Quiet s { s with peersWithTraffic := keys } := fun _ _ =>
    .of_eq rfl rfl rfl (Nat.le_refl _) (List.Subset.refl _) (List.prefix_refl _)
  have hclosed : ∀ ds keys, Quiet s (List.foldl (fun s negotiationId => s.clearPendingInbound negotiationId)
      (List.foldl closeDial s ds) keys) := fun ds keys =>
    (quiet_foldl hdial ds).trans (quiet_foldl (fun _ _ => quiet_clearPendingInbound) keys)
  unfold close
  dsimp only
  split
  · exact (((hclosed _ _).trans (htraffic _ _)).trans (hretired _ _)).trans replanned_scheduleAutoReconnect.quiet
  · exact (((hclosed _ _).trans (htraffic _ _)).trans (hretired _ _)).trans replanned_handleAutoConnectFailure.quiet

/-! ### One offer at a time -/

/-- The sends of the offer of `d` that have not settled. -/
def offersInFlight (s : WebRtcTransport) (d : DialRef) : Nat :=
  (match s.initiators.get d with
    | some (.sendOffer _) => 1
    | _ => 0) + (s.retries.filter fun e => e.2.1 = d).length

def IsPending (s : WebRtcTransport) (d : DialRef) : Prop := ∃ id, (id, d) ∈ s.pendingDials

/-- The signal is an offer of `d`. -/
def IsOffer (s : WebRtcTransport) (d : DialRef) (signal : WebRtcSignal) : Prop :=
  signal.kind = .offer ∧ signal.negotiationId = (s.dials.get d).sessionId

/-- The handshake of a dial and its retries exclude each other, and the phase says whether an offer is in
flight. -/
structure Offering (s : WebRtcTransport) : Prop where
  initiators : ∀ d stage, s.initiators.get d = some stage → d < s.dials.next
  nodupRetries : s.retries.Nodup
  retries : ∀ e ∈ s.retries, e.1 < s.nextCall ∧ e.2.1 < s.dials.next
  initiatorSignals : ∀ d signal, s.initiators.get d = some (.sendOffer signal) → s.IsOffer d signal
  retrySignals : ∀ e ∈ s.retries, s.IsOffer e.2.1 e.2.2
  exclusive : ∀ e ∈ s.retries, s.initiators.get e.2.1 = none
  once : ∀ e ∈ s.retries, ∀ e' ∈ s.retries, e.2.1 = e'.2.1 → e = e'
  awaiting : ∀ d, (s.dials.get d).phase = .awaitingAnswer → s.initiators.get d = none ∧ ∀ e ∈ s.retries, e.2.1 ≠ d
  sending : ∀ d, s.IsPending d → (s.dials.get d).phase = .sendingOffer →
    (∃ signal, s.initiators.get d = some (.sendOffer signal)) ∨ ∃ e ∈ s.retries, e.2.1 = d

theorem offering_new : Offering new where
  initiators := by rintro d stage ⟨⟩
  nodupRetries := List.nodup_nil
  retries := by rintro e ⟨⟩
  initiatorSignals := by rintro d signal ⟨⟩
  retrySignals := by rintro e ⟨⟩
  exclusive := by rintro e ⟨⟩
  once := by rintro e ⟨⟩
  awaiting := by rintro d ⟨⟩
  sending := by rintro d ⟨id, ⟨⟩⟩

theorem length_le_one_of_eq {α : Type} {l : List α} (hnodup : l.Nodup) (h : ∀ a ∈ l, ∀ b ∈ l, a = b) : l.length ≤ 1 := by
  rcases l with _ | ⟨a, _ | ⟨b, l⟩⟩
  · exact Nat.zero_le _
  · exact Nat.le_refl _
  · have hab := h a List.mem_cons_self b (List.mem_cons_of_mem _ List.mem_cons_self)
    rw [hab] at hnodup
    exact absurd List.mem_cons_self (List.nodup_cons.1 hnodup).1

theorem Offering.filter_length_le (h : Offering s) (d : DialRef) :
    (s.retries.filter fun e => e.2.1 = d).length ≤ 1 := by
  refine length_le_one_of_eq (h.nodupRetries.of_map.filter _) fun a ha b hb => ?_
  obtain ⟨ha, had⟩ := List.mem_filter.1 ha
  obtain ⟨hb, hbd⟩ := List.mem_filter.1 hb
  exact h.once a ha b hb ((of_decide_eq_true had).trans (of_decide_eq_true hbd).symm)

theorem Offering.filter_eq_nil (h : Offering s) {d : DialRef} {stage : InitiatorStage}
    (hd : s.initiators.get d = some stage) : (s.retries.filter fun e => e.2.1 = d) = [] := by
  refine List.filter_eq_nil_iff.2 fun e he hed => ?_
  have hnone := h.exclusive e he
  rw [of_decide_eq_true hed, hd] at hnone
  cases hnone

theorem Offering.offersInFlight_le (h : Offering s) (d : DialRef) : s.offersInFlight d ≤ 1 := by
  unfold offersInFlight
  split
  · rename_i signal hd
    rw [h.filter_eq_nil hd]
    exact Nat.le_refl _
  · rw [Nat.zero_add]
    exact h.filter_length_le d

theorem Offering.offersInFlight_eq_one (h : Offering s) {d : DialRef} (hpending : s.IsPending d)
    (hphase : (s.dials.get d).phase = .sendingOffer) : s.offersInFlight d = 1 := by
  refine Nat.le_antisymm (h.offersInFlight_le d) ?_
  unfold offersInFlight
  rcases h.sending d hpending hphase with ⟨signal, hd⟩ | ⟨e, he, hed⟩
  · rw [hd]
    exact Nat.le_add_right _ _
  · have hmem : e ∈ s.retries.filter fun e => e.2.1 = d := List.mem_filter.2 ⟨he, decide_eq_true hed⟩
    exact (List.length_pos_of_mem hmem).trans_le (Nat.le_add_left _ _)

theorem Offering.offersInFlight_eq_zero (h : Offering s) {d : DialRef} (hphase : (s.dials.get d).phase = .awaitingAnswer) :
    s.offersInFlight d = 0 := by
  obtain ⟨hnone, hretries⟩ := h.awaiting d hphase
  have hnil : (s.retries.filter fun e => e.2.1 = d) = [] :=
    List.filter_eq_nil_iff.2 fun e he hed => hretries e he (of_decide_eq_true hed)
  unfold offersInFlight
  rw [hnone, hnil]
  rfl

/-! ### Steps keep that -/

theorem IsPending.mono {d : DialRef} (h : s'.IsPending d) (hsub : s'.pendingDials ⊆ s.pendingDials) : s.IsPending d := by
  obtain ⟨id, hmem⟩ := h
  exact ⟨id, hsub hmem⟩

theorem ownsDial_of_isPending (hl : Linked s) {d : DialRef} (h : s.IsPending d) : s.ownsDial d = true := by
  obtain ⟨id, hmem⟩ := h
  refine decide_eq_true (hl.nodupDials.get_of_mem ?_)
  rw [(hl.dials _ hmem).2]
  exact hmem

theorem isPending_of_ownsDial {d : DialRef} (h : s.ownsDial d = true) : s.IsPending d := ⟨_, mem_of_ownsDial h⟩

/-- The offers that are in flight stay, and phases change only by an answer. -/
theorem Offering.of_phase (h : Offering s) (hnext : s'.dials.next = s.dials.next) (hinitiators : s'.initiators = s.initiators)
    (hretries : s'.retries = s.retries) (hcalls : s.nextCall ≤ s'.nextCall)
    (hsession : ∀ d, (s'.dials.get d).sessionId = (s.dials.get d).sessionId)
    (hphase : ∀ d, (s'.dials.get d).phase = (s.dials.get d).phase ∨ (s'.dials.get d).phase.Answered)
    (hpending : s'.pendingDials ⊆ s.pendingDials) : Offering s' where
  initiators d stage hd := by
    rw [hinitiators] at hd
    rw [hnext]
    exact h.initiators d stage hd
  nodupRetries := by
    rw [hretries]
    exact h.nodupRetries
  retries e he := by
    rw [hretries] at he
    rw [hnext]
    exact ⟨(h.retries e he).1.trans_le hcalls, (h.retries e he).2⟩
  initiatorSignals d signal hd := by
    rw [hinitiators] at hd
    exact ⟨(h.initiatorSignals d signal hd).1, (h.initiatorSignals d signal hd).2.trans (hsession d).symm⟩
  retrySignals e he := by
    rw [hretries] at he
    exact ⟨(h.retrySignals e he).1, (h.retrySignals e he).2.trans (hsession _).symm⟩
  exclusive e he := by
    rw [hretries] at he
    rw [hinitiators]
    exact h.exclusive e he
  once e he e' he' := by
    rw [hretries] at he he'
    exact h.once e he e' he'
  awaiting d hd := by
    rw [hinitiators, hretries]
    rcases hphase d with heq | hanswered | hanswered
    · exact h.awaiting d (heq.symm.trans hd)
    · rw [hd] at hanswered
      cases hanswered
    · rw [hd] at hanswered
      cases hanswered
  sending d hd hsend := by
    rw [hinitiators, hretries]
    rcases hphase d with heq | hanswered | hanswered
    · exact h.sending d (hd.mono hpending) (heq.symm.trans hsend)
    · rw [hsend] at hanswered
      cases hanswered
    · rw [hsend] at hanswered
      cases hanswered

theorem Offering.quiet (h : Offering s) (hquiet : Quiet s s') : Offering s' :=
  h.of_phase hquiet.next hquiet.initiators hquiet.retries hquiet.nextCall hquiet.sessionId hquiet.phase hquiet.pending

theorem Offering.withDial {sessionId : NegotiationId} {auto : Bool} (h : Offering s) :
    Offering (s.withDial sessionId remote auto) := by
  have hget : ∀ d, d ≠ s.dials.next → (s.withDial sessionId remote auto).dials.get d = s.dials.get d :=
    fun d hd => Heap.get_alloc_of_ne hd
  have hself : ((s.withDial sessionId remote auto).dials.get s.dials.next).phase = .creatingOffer := by
    show ((s.dials.alloc _).get s.dials.next).phase = _
    rw [Heap.get_alloc_self]
  have hinitiators : ∀ d, (s.withDial sessionId remote auto).initiators.get d =
      if s.dials.next = d then some .createOffer else s.initiators.get d := fun d => JsMap.get_set
  have hretried : ∀ e ∈ s.retries, e.2.1 ≠ s.dials.next := fun e he => Nat.ne_of_lt (h.retries e he).2
  refine ⟨?_, h.nodupRetries, ?_, ?_, ?_, ?_, h.once, ?_, ?_⟩
  · intro d stage hd
    rw [hinitiators] at hd
    split at hd
    · rename_i heq
      subst heq
      exact Nat.lt_succ_self _
    · exact (h.initiators d stage hd).trans (Nat.lt_succ_self _)
  · intro e he
    exact ⟨(h.retries e he).1, (h.retries e he).2.trans (Nat.lt_succ_self _)⟩
  · intro d signal hd
    rw [hinitiators] at hd
    split at hd
    · cases hd
    · rename_i hne
      unfold IsOffer
      rw [hget d (Ne.symm hne)]
      exact h.initiatorSignals d signal hd
  · intro e he
    unfold IsOffer
    rw [hget _ (hretried e he)]
    exact h.retrySignals e he
  · intro e he
    rw [hinitiators, if_neg (hretried e he).symm]
    exact h.exclusive e he
  · intro d hd
    by_cases hne : d = s.dials.next
    · rw [hne, hself] at hd
      cases hd
    · rw [hget d hne] at hd
      rw [hinitiators, if_neg (Ne.symm hne)]
      exact h.awaiting d hd
  · intro d hd hsend
    by_cases hne : d = s.dials.next
    · rw [hne, hself] at hsend
      cases hsend
    · rw [hget d hne] at hsend
      rw [hinitiators, if_neg (Ne.symm hne)]
      refine h.sending d ?_ hsend
      obtain ⟨id, hmem⟩ := hd
      rcases JsMap.mem_set hmem with heq | hmem
      · cases heq
        exact absurd rfl hne
      · exact ⟨id, hmem⟩

/-- The handshake of `d` goes on or ends. -/
theorem Offering.handshake {d : DialRef} {stage : InitiatorStage} (h : Offering s) (hd : s.initiators.get d = some stage)
    (hnext : s'.dials.next = s.dials.next) (hretries : s'.retries = s.retries) (hcalls : s.nextCall ≤ s'.nextCall)
    (hsession : ∀ d, (s'.dials.get d).sessionId = (s.dials.get d).sessionId)
    (hothers : ∀ d' ≠ d, s'.initiators.get d' = s.initiators.get d' ∧
      ((s'.dials.get d').phase = (s.dials.get d').phase))
    (hpending : s'.pendingDials ⊆ s.pendingDials)
    (hoffer : ∀ signal, s'.initiators.get d = some (.sendOffer signal) → s'.IsOffer d signal)
    (hawaiting : (s'.dials.get d).phase = .awaitingAnswer → s'.initiators.get d = none)
    (hsending : s'.IsPending d → (s'.dials.get d).phase = .sendingOffer →
      ∃ signal, s'.initiators.get d = some (.sendOffer signal)) : Offering s' := by
  have hretried : ∀ e ∈ s.retries, e.2.1 ≠ d := by
    intro e he heq
    have hnone := h.exclusive e he
    rw [heq, hd] at hnone
    cases hnone
  refine ⟨?_, ?_, ?_, ?_, ?_, ?_, ?_, ?_, ?_⟩
  · intro d' stage' hd'
    rw [hnext]
    by_cases hne : d' = d
    · rw [hne]
      exact h.initiators d stage hd
    · rw [(hothers d' hne).1] at hd'
      exact h.initiators d' stage' hd'
  · rw [hretries]
    exact h.nodupRetries
  · intro e he
    rw [hretries] at he
    rw [hnext]
    exact ⟨(h.retries e he).1.trans_le hcalls, (h.retries e he).2⟩
  · intro d' signal hd'
    by_cases hne : d' = d
    · rw [hne] at hd' ⊢
      exact hoffer signal hd'
    · rw [(hothers d' hne).1] at hd'
      exact ⟨(h.initiatorSignals d' signal hd').1, (h.initiatorSignals d' signal hd').2.trans (hsession d').symm⟩
  · intro e he
    rw [hretries] at he
    exact ⟨(h.retrySignals e he).1, (h.retrySignals e he).2.trans (hsession _).symm⟩
  · intro e he
    rw [hretries] at he
    rw [(hothers _ (hretried e he)).1]
    exact h.exclusive e he
  · rw [hretries]
    exact h.once
  · intro d' hd'
    rw [hretries]
    by_cases hne : d' = d
    · rw [hne] at hd' ⊢
      exact ⟨hawaiting hd', hretried⟩
    · rw [(hothers d' hne).2] at hd'
      rw [(hothers d' hne).1]
      exact h.awaiting d' hd'
  · intro d' hd' hsend
    rw [hretries]
    by_cases hne : d' = d
    · rw [hne] at hd' hsend ⊢
      exact .inl (hsending hd' hsend)
    · rw [(hothers d' hne).2] at hsend
      rw [(hothers d' hne).1]
      exact h.sending d' (hd'.mono hpending) hsend

theorem get_modifyDial_of_ne {d d' : DialRef} {f : PendingDial → PendingDial} (hne : d' ≠ d) :
    (s.modifyDial d f).dials.get d' = s.dials.get d' := Heap.get_modify_of_ne hne

theorem get_modifyDial_self {d : DialRef} {f : PendingDial → PendingDial} :
    (s.modifyDial d f).dials.get d = f (s.dials.get d) := Heap.get_modify_self

theorem get_modifyDial {d d' : DialRef} {f : PendingDial → PendingDial} :
    (s.modifyDial d f).dials.get d' = if d' = d then f (s.dials.get d') else s.dials.get d' := Heap.get_modify

theorem get_sendOffer {d d' : DialRef} {signal : WebRtcSignal} : (s.sendOffer w d signal).dials.get d' =
    if d' = d then { s.dials.get d' with retryOfferAfterRestart := false } else s.dials.get d' := rfl

theorem get_sendPendingOffer {d d' : DialRef} {signal : WebRtcSignal} : (s.sendPendingOffer w d signal).dials.get d' =
    if d' = d then { s.dials.get d' with phase := .sendingOffer, retryOfferAfterRestart := false }
    else s.dials.get d' := by
  unfold sendPendingOffer
  rw [get_sendOffer, get_modifyDial]
  by_cases h : d' = d
  · rw [if_pos h, if_pos h, if_pos h]
  · rw [if_neg h, if_neg h, if_neg h]

theorem get_offerSent {d d' : DialRef} : (s.offerSent d).dials.get d' =
    if d' = d then { s.dials.get d' with phase := if (s.dials.get d').phase = .sendingOffer then .awaitingAnswer
      else (s.dials.get d').phase } else s.dials.get d' := rfl

theorem isPending_endDial_iff (hl : Linked s) {d : DialRef} {outcome : DialOutcome} :
    ¬ (s.endDial d outcome).IsPending d := by
  rintro ⟨id, hmem⟩
  obtain ⟨hmem, hne⟩ := JsMap.mem_delete.1 hmem
  exact hne (hl.dials _ hmem).2.symm

theorem Offering.initiatorSettled {d : DialRef} {ok : Bool} {sdp : UnitString} (h : Offering s) (hl : Linked s) :
    Offering (s.initiatorSettled w d ok sdp) := by
  unfold WebRtcTransport.initiatorSettled
  split
  · exact h
  rename_i stage hd
  have hset : ∀ (stage' : InitiatorStage) d', d' ≠ d → (s.initiators.set d stage').get d' = s.initiators.get d' :=
    fun stage' d' hne => by rw [JsMap.get_set, if_neg (Ne.symm hne)]
  have hself : ∀ stage' : InitiatorStage, (s.initiators.set d stage').get d = some stage' :=
    fun stage' => by rw [JsMap.get_set, if_pos rfl]
  have hdelete : ∀ d', d' ≠ d → (s.initiators.delete d).get d' = s.initiators.get d' :=
    fun d' hne => by rw [JsMap.get_delete, if_neg (Ne.symm hne)]
  have hdeleted : (s.initiators.delete d).get d = none := by rw [JsMap.get_delete, if_pos rfl]
  have hgone : ∀ signal, (s.initiators.delete d).get d ≠ some (.sendOffer signal) := by
    intro signal hsignal
    rw [hdeleted] at hsignal
    cases hsignal
  dsimp only
  split
  · -- the dial ends
    have hended : ∀ connects, Linked { s with initiators := s.initiators.delete d, connects := connects } := fun _ =>
      hl.shrink (.of_eq rfl rfl rfl rfl rfl rfl rfl)
    have hquietly : ∀ connects, Quiet { s with initiators := s.initiators.delete d, connects := connects }
        ({ s with initiators := s.initiators.delete d, connects := connects }.endDial d .rejected) := fun _ => quiet_endDial
    refine h.handshake hd (hquietly _).next (hquietly _).retries (hquietly _).nextCall (hquietly _).sessionId ?_
      (hquietly _).pending ?_ ?_ ?_
    · intro d' hne
      refine ⟨hdelete d' hne, ?_⟩
      show ((_ : WebRtcTransport).settleDial d .rejected |>.dials.get d').phase = _
      unfold settleDial
      rw [get_modifyDial_of_ne hne, get_modifyDial_of_ne hne]
    · intro signal hsignal
      exact absurd hsignal (hgone signal)
    · intro _
      exact hdeleted
    · intro hpending
      exact absurd hpending (isPending_endDial_iff (hended _))
  split
  · -- the dial has been ended by something else
    rename_i howns
    refine h.handshake hd rfl rfl (Nat.le_refl _) (fun _ => rfl) (fun d' hne => ⟨hdelete d' hne, rfl⟩)
      (List.Subset.refl _) (fun signal hsignal => absurd hsignal (hgone signal)) (fun _ => hdeleted) ?_
    intro hpending
    have howned := ownsDial_of_isPending hl hpending
    have howned' : s.ownsDial d = true := howned
    rw [howns] at howned'
    cases howned'
  -- before the offer is sent the phase is not that of a send
  have hearly : (∀ signal, stage ≠ .sendOffer signal) → s.IsPending d → (s.dials.get d).phase ≠ .sendingOffer := by
    intro hstage hpending hphase
    rcases h.sending d hpending hphase with ⟨signal, hsignal⟩ | ⟨e, he, hed⟩
    · rw [hd] at hsignal
      cases hsignal
      exact hstage signal rfl
    · have hnone := h.exclusive e he
      rw [hed, hd] at hnone
      cases hnone
  have hunawaited : (s.dials.get d).phase ≠ .awaitingAnswer := by
    intro hphase
    have hnone := (h.awaiting d hphase).1
    rw [hd] at hnone
    cases hnone
  cases stage with
  | createOffer =>
    dsimp only
    refine h.handshake hd rfl rfl (Nat.le_refl _) ?_ ?_ (List.Subset.refl _) ?_ ?_ ?_
    · intro d'
      rw [get_modifyDial]
      split
      · rfl
      · rfl
    · intro d' hne
      rw [get_modifyDial, if_neg hne]
      exact ⟨hset _ d' hne, rfl⟩
    · intro signal hsignal
      have hstage : (s.initiators.set d .setLocalDescription).get d = some (.sendOffer signal) := hsignal
      rw [hself] at hstage
      cases hstage
    · intro hphase
      rw [get_modifyDial_self] at hphase
      cases hphase
    · intro _ hphase
      rw [get_modifyDial_self] at hphase
      cases hphase
  | setLocalDescription =>
    dsimp only
    refine h.handshake hd rfl rfl (Nat.le_refl _) (fun _ => rfl) (fun d' hne => ⟨hset _ d' hne, rfl⟩)
      (List.Subset.refl _) ?_ (fun hphase => absurd hphase hunawaited) ?_
    · intro signal hsignal
      have hstage : (s.initiators.set d .iceGathering).get d = some (.sendOffer signal) := hsignal
      rw [hself] at hstage
      cases hstage
    · intro hpending hphase
      exact absurd hphase (hearly (by rintro signal ⟨⟩) hpending)
  | iceGathering =>
    dsimp only
    refine h.handshake hd rfl rfl (Nat.le_refl _) ?_ ?_ (List.Subset.refl _) ?_ ?_ ?_
    · intro d'
      rw [get_sendPendingOffer]
      split
      · rfl
      · rfl
    · intro d' hne
      rw [get_sendPendingOffer, if_neg hne]
      exact ⟨hset _ d' hne, rfl⟩
    · intro signal hsignal
      have hstage : (s.initiators.set d (.sendOffer (s.offerSignal w d sdp))).get d = some (.sendOffer signal) := hsignal
      rw [hself] at hstage
      cases hstage
      refine ⟨rfl, ?_⟩
      rw [get_sendPendingOffer, if_pos rfl]
      rfl
    · intro hphase
      rw [get_sendPendingOffer, if_pos rfl] at hphase
      cases hphase
    · intro _ _
      exact ⟨_, hself _⟩
  | sendOffer signal =>
    dsimp only
    split
    · refine h.of_phase rfl rfl rfl (Nat.le_refl _) ?_ ?_ (List.Subset.refl _)
      · intro d'
        rw [get_sendOffer]
        split
        · rfl
        · rfl
      · intro d'
        rw [get_sendOffer]
        split
        · exact .inl rfl
        · exact .inl rfl
    · have hsent : ∀ d', ({ s with initiators := s.initiators.delete d }.offerSent d).dials.get d' = _ :=
        fun d' => get_offerSent
      refine h.handshake hd rfl rfl (Nat.le_refl _) ?_ ?_ (List.Subset.refl _)
        (fun signal hsignal => absurd hsignal (hgone signal)) (fun _ => hdeleted) ?_
      · intro d'
        show ((_ : WebRtcTransport).dials.get d').sessionId = _
        rw [hsent]
        split
        · rfl
        · rfl
      · intro d' hne
        refine ⟨hdelete d' hne, ?_⟩
        show ((_ : WebRtcTransport).dials.get d').phase = _
        rw [hsent, if_neg hne]
      · intro _ hphase
        have hphase' := hphase
        rw [hsent, if_pos rfl] at hphase'
        dsimp only at hphase'
        split at hphase'
        · cases hphase'
        · rename_i hnot
          exact absurd hphase' hnot

/-- The retry `call` of `d` ends. -/
theorem Offering.retried {call : Nat} {d : DialRef} {signal : WebRtcSignal} (h : Offering s)
    (hcall : s.retries.get call = some (d, signal)) (hnext : s'.dials.next = s.dials.next)
    (hinitiators : s'.initiators = s.initiators) (hretries : s'.retries = s.retries.delete call)
    (hcalls : s'.nextCall = s.nextCall) (hsession : ∀ d, (s'.dials.get d).sessionId = (s.dials.get d).sessionId)
    (hothers : ∀ d' ≠ d, (s'.dials.get d').phase = (s.dials.get d').phase)
    (hpending : s'.pendingDials ⊆ s.pendingDials)
    (hsending : s'.IsPending d → (s'.dials.get d).phase ≠ .sendingOffer) : Offering s' := by
  have hmem : (call, d, signal) ∈ s.retries := JsMap.mem_of_get hcall
  have hsub : ∀ e ∈ s'.retries, e ∈ s.retries := by
    intro e he
    rw [hretries] at he
    exact (JsMap.mem_delete.1 he).1
  have hgone : ∀ e ∈ s'.retries, e.2.1 ≠ d := by
    intro e he heq
    have hsame := h.once e (hsub e he) _ hmem heq
    rw [hretries] at he
    rw [hsame] at he
    exact (JsMap.mem_delete.1 he).2 rfl
  refine ⟨?_, ?_, ?_, ?_, ?_, ?_, ?_, ?_, ?_⟩
  · rw [hinitiators, hnext]
    exact h.initiators
  · rw [hretries]
    exact h.nodupRetries.delete call
  · intro e he
    rw [hcalls, hnext]
    exact h.retries e (hsub e he)
  · intro d' signal hd'
    rw [hinitiators] at hd'
    exact ⟨(h.initiatorSignals d' signal hd').1, (h.initiatorSignals d' signal hd').2.trans (hsession d').symm⟩
  · intro e he
    exact ⟨(h.retrySignals e (hsub e he)).1, (h.retrySignals e (hsub e he)).2.trans (hsession _).symm⟩
  · intro e he
    rw [hinitiators]
    exact h.exclusive e (hsub e he)
  · intro e he e' he'
    exact h.once e (hsub e he) e' (hsub e' he')
  · intro d' hd'
    rw [hinitiators]
    by_cases hne : d' = d
    · rw [hne]
      exact ⟨h.exclusive _ hmem, hgone⟩
    · rw [hothers d' hne] at hd'
      exact ⟨(h.awaiting d' hd').1, fun e he => (h.awaiting d' hd').2 e (hsub e he)⟩
  · intro d' hd' hsend
    rw [hinitiators]
    by_cases hne : d' = d
    · rw [hne] at hd' hsend
      exact absurd hsend (hsending hd')
    · rw [hothers d' hne] at hsend
      rcases h.sending d' (hd'.mono hpending) hsend with hhandshake | ⟨e, he, hed⟩
      · exact .inl hhandshake
      · refine .inr ⟨e, ?_, hed⟩
        rw [hretries]
        refine JsMap.mem_delete.2 ⟨he, fun heq => ?_⟩
        have hcall' := h.nodupRetries.get_of_mem (k := e.1) (v := e.2) he
        rw [heq, hcall] at hcall'
        injection hcall' with hcall'
        rw [← hcall'] at hed
        exact hne hed.symm

theorem Offering.retrySettled {call : Nat} {ok : Bool} (h : Offering s) (hl : Linked s) :
    Offering (s.retrySettled w call ok) := by
  unfold WebRtcTransport.retrySettled
  split
  · exact h
  rename_i d signal hcall
  have hended : (s.IsPending d → (s.dials.get d).phase ≠ .sendingOffer) →
      Offering { s with retries := s.retries.delete call } := fun hsending =>
    h.retried hcall rfl rfl rfl rfl (fun _ => rfl) (fun _ _ => rfl) (List.Subset.refl _) hsending
  have hunowned : s.ownsDial d = false → s.IsPending d → (s.dials.get d).phase ≠ .sendingOffer := by
    intro howns hpending
    rw [ownsDial_of_isPending hl hpending] at howns
    cases howns
  dsimp only
  split
  · split
    · refine h.retried hcall rfl rfl rfl rfl ?_ ?_ (List.Subset.refl _) ?_
      · intro d'
        rw [get_modifyDial]
        split
        · rfl
        · rfl
      · intro d' hne
        rw [get_modifyDial, if_neg hne]
      · intro _ hphase
        rw [get_modifyDial_self] at hphase
        cases hphase
    · rename_i hidle
      refine hended fun hpending hphase => hidle ?_
      rw [ownsDial_of_isPending hl hpending, hphase]
      rfl
  split
  · rename_i howns
    exact hended (hunowned howns)
  split
  · refine h.of_phase rfl rfl rfl (Nat.le_refl _) ?_ ?_ (List.Subset.refl _)
    · intro d'
      rw [get_sendOffer]
      split
      · rfl
      · rfl
    · intro d'
      rw [get_sendOffer]
      split
      · exact .inl rfl
      · exact .inl rfl
  · refine h.retried hcall rfl rfl rfl rfl ?_ ?_ (List.Subset.refl _) ?_
    · intro d'
      rw [get_offerSent]
      split
      · rfl
      · rfl
    · intro d' hne
      rw [get_offerSent, if_neg hne]
    · intro _ hphase
      rw [get_offerSent, if_pos rfl] at hphase
      dsimp only at hphase
      split at hphase
      · cases hphase
      · rename_i hnot
        exact absurd hphase hnot

theorem Offering.retryOffer {localDescription : DialRef → UnitString} {d : DialRef} (h : Offering s)
    (hlt : d < s.dials.next) : Offering (retryOffer w remote localDescription s d) := by
  unfold WebRtcTransport.retryOffer
  dsimp only
  split
  · exact h
  split
  · refine h.of_phase rfl rfl rfl (Nat.le_refl _) ?_ ?_ (List.Subset.refl _)
    · intro d'
      rw [get_modifyDial]
      split
      · rfl
      · rfl
    · intro d'
      rw [get_modifyDial]
      split
      · exact .inl rfl
      · exact .inl rfl
  split
  · rename_i hphase
    obtain ⟨hidle, hunsent⟩ := h.awaiting d hphase
    have hfresh : s.nextCall ∉ s.retries.map Prod.fst := by
      intro hmem
      obtain ⟨e, he, heq⟩ := List.mem_map.1 hmem
      exact absurd (h.retries e he).1 (by rw [heq]; exact Nat.lt_irrefl _)
    have hset : ∀ signal, s.retries.set s.nextCall (d, signal) = s.retries ++ [(s.nextCall, d, signal)] :=
      fun signal => JsMap.set_of_notMem hfresh
    have hretried : ∀ signal, ∀ e ∈ s.retries.set s.nextCall (d, signal),
        e ∈ s.retries ∨ e = (s.nextCall, d, signal) := by
      intro signal e he
      rw [hset] at he
      simpa using he
    have hget : ∀ d', (({ s with
        retries := s.retries.set s.nextCall (d, s.offerSignal w d (localDescription d))
        nextCall := s.nextCall + 1 }.sendPendingOffer w d (s.offerSignal w d (localDescription d))).dials.get d') =
        if d' = d then { s.dials.get d' with phase := .sendingOffer, retryOfferAfterRestart := false }
        else s.dials.get d' := fun d' => get_sendPendingOffer
    refine ⟨h.initiators, h.nodupRetries.set _ _, ?_, ?_, ?_, ?_, ?_, ?_, ?_⟩
    · intro e he
      rcases hretried _ e he with he | rfl
      · exact ⟨(h.retries e he).1.trans (Nat.lt_succ_self _), (h.retries e he).2⟩
      · exact ⟨Nat.lt_succ_self _, hlt⟩
    · intro d' signal hd'
      refine ⟨(h.initiatorSignals d' signal hd').1, (h.initiatorSignals d' signal hd').2.trans ?_⟩
      rw [hget]
      split
      · rfl
      · rfl
    · intro e he
      rcases hretried _ e he with he | rfl
      · refine ⟨(h.retrySignals e he).1, (h.retrySignals e he).2.trans ?_⟩
        rw [hget]
        split
        · rfl
        · rfl
      · refine ⟨rfl, ?_⟩
        rw [hget, if_pos rfl]
        rfl
    · intro e he
      rcases hretried _ e he with he | rfl
      · exact h.exclusive e he
      · exact hidle
    · intro e he e' he' heq
      rcases hretried _ e he with hold | hnew
      · rcases hretried _ e' he' with hold' | hnew'
        · exact h.once e hold e' hold' heq
        · rw [hnew'] at heq
          exact absurd heq (hunsent e hold)
      · rcases hretried _ e' he' with hold' | hnew'
        · rw [hnew] at heq
          exact absurd heq.symm (hunsent e' hold')
        · rw [hnew, hnew']
    · intro d' hd'
      rw [hget] at hd'
      by_cases hne : d' = d
      · rw [if_pos hne] at hd'
        cases hd'
      · rw [if_neg hne] at hd'
        refine ⟨(h.awaiting d' hd').1, fun e he => ?_⟩
        rcases hretried _ e he with he | rfl
        · exact (h.awaiting d' hd').2 e he
        · exact Ne.symm hne
    · intro d' hd' hsend
      rw [hget] at hsend
      by_cases hne : d' = d
      · refine .inr ⟨(s.nextCall, d, s.offerSignal w d (localDescription d)), ?_, hne.symm⟩
        show _ ∈ s.retries.set s.nextCall (d, s.offerSignal w d (localDescription d))
        rw [hset]
        exact List.mem_append_right _ List.mem_cons_self
      · rw [if_neg hne] at hsend
        rcases h.sending d' hd' hsend with hhandshake | ⟨e, he, hed⟩
        · exact .inl hhandshake
        · refine .inr ⟨e, ?_, hed⟩
          show e ∈ s.retries.set s.nextCall (d, s.offerSignal w d (localDescription d))
          rw [hset]
          exact List.mem_append_left _ he
  · exact h

theorem quiet_handleSessionEstablished {restarted : Bool} {localDescription : DialRef → UnitString}
    (hallowed : s.peerAllowed w remote = true) :
    Quiet (if restarted = true then s.retryOffersAfterRestart w (s.ownedPeerAddress remote) localDescription else s)
      (s.handleSessionEstablished cfg w remote restarted localDescription) := by
  have hgo : ¬ s.peerAllowed w remote = false := by
    rw [hallowed]
    exact Bool.noConfusion
  unfold handleSessionEstablished
  rw [if_neg hgo]
  dsimp only
  generalize (if restarted = true then s.retryOffersAfterRestart w (s.ownedPeerAddress remote) localDescription else s) = s₁
  split
  · exact .refl
  · have hrecovered : ∀ cooldowns timers,
        Quiet s₁ { s₁ with cooldowns := cooldowns, autoReconnectTimers := timers } := fun _ _ =>
      .of_eq rfl rfl rfl (Nat.le_refl _) (List.Subset.refl _) (List.prefix_refl _)
    exact (hrecovered _ _).trans replanned_scheduleAutoReconnect.quiet

theorem Offering.retryOffersAfterRestart {localDescription : DialRef → UnitString} (h : Offering s) (hl : Linked s) :
    Offering (s.retryOffersAfterRestart w remote localDescription) := by
  have hfold : ∀ (ds : List DialRef) (s : WebRtcTransport), Offering s → (∀ d ∈ ds, d < s.dials.next) →
      Offering (ds.foldl (WebRtcTransport.retryOffer w remote localDescription) s) := by
    intro ds
    induction ds with
    | nil => exact fun s h _ => h
    | cons d ds ih =>
      intro s h hds
      refine ih _ (h.retryOffer (hds d List.mem_cons_self)) fun d' hd' => ?_
      exact (hds d' (List.mem_cons_of_mem _ hd')).trans_le (@shrinks_retryOffer w s remote localDescription d).dialsNext
  refine hfold _ _ h fun d hd => ?_
  obtain ⟨e, he, rfl⟩ := List.mem_map.1 hd
  exact (hl.dials e he).1

theorem Offering.handleSessionEstablished {restarted : Bool} {localDescription : DialRef → UnitString} (h : Offering s)
    (hl : Linked s) : Offering (s.handleSessionEstablished cfg w remote restarted localDescription) := by
  by_cases hallowed : s.peerAllowed w remote = true
  · refine Offering.quiet ?_ (quiet_handleSessionEstablished hallowed)
    split
    · exact h.retryOffersAfterRestart hl
    · exact h
  · unfold WebRtcTransport.handleSessionEstablished
    rw [Bool.not_eq_true] at hallowed
    rw [if_pos hallowed]
    exact h

theorem Prepared.quiet {s₁ : WebRtcTransport} {addr : PubkeyHex} (h : Prepared s s₁ addr) : Quiet s s₁ := by
  obtain ⟨pendingAuto, known, rfl⟩ := h
  exact .of_eq rfl rfl rfl (Nat.le_refl _) (List.Subset.refl _) (List.prefix_refl _)

theorem Offering.connect {addr : PubkeyHex} {sessionId : NegotiationId} {created : Bool} (h : Offering s) :
    Offering (s.connect w addr sessionId created) := by
  rcases @connect_cases w s addr sessionId created with heq | hprepared | ⟨s₁, auto, hprepared, heq⟩
  · rw [heq]
    exact h
  · exact h.quiet hprepared.quiet
  · rw [heq]
    exact (h.quiet hprepared.quiet).withDial

/-! ### Runs -/

/-- Whether the action may send or settle an offer, or make a dial. -/
def Action.aboutOffers : Action → Bool
  | .connect .. | .connectDiscovered .. | .initiatorSettled .. | .retrySettled .. | .sessionEstablished .. => true
  | _ => false

theorem quiet_step {e : Surroundings × Action} (h : e.2.aboutOffers = false) : Quiet s (s.step cfg e) := by
  obtain ⟨w, action⟩ := e
  cases action with
  | start ctx => exact .of_eq rfl rfl rfl (Nat.le_refl _) (List.Subset.refl _) (List.prefix_refl _)
  | stop => exact quiet_stop
  | connect addr sessionId created => cases h
  | connectDiscovered n sessionId created => cases h
  | connectSettled d => exact quiet_connectSettled
  | initiatorSettled d ok sdp => cases h
  | retrySettled call ok => cases h
  | sessionEstablished remote restarted localDescription => cases h
  | linkNegotiation remote signal => exact quiet_handleIncomingSignal
  | admissionSettled call admitted => exact quiet_admissionSettled
  | answerSettled call ok => exact quiet_answerSettled
  | responderSettled i ok noRoute sdp => exact quiet_responderSettled
  | connectionState c state => exact quiet_connectionState
  | packet c => exact quiet_packet
  | dialTimeout d => exact quiet_dialTimeout
  | inboundTimeout i => exact quiet_inboundTimeout
  | autoReconnectTimeout remote => exact replanned_autoReconnectTimeout.quiet
  | autoConnectFillTimeout => exact replanned_autoConnectFillTimeout.quiet
  | close addr => exact quiet_close
  | advert addr eventPubkey node createdAt expires requested => exact recached_handleAdvert.1.quiet
  | resolve node => exact recached_resolve.1.quiet

theorem Offering.step {e : Surroundings × Action} (h : Offering s) (hl : Linked s) : Offering (s.step cfg e) := by
  cases hoffers : e.2.aboutOffers with
  | false => exact h.quiet (quiet_step hoffers)
  | true =>
    obtain ⟨w, action⟩ := e
    cases action with
    | connect addr sessionId created => exact h.connect
    | connectDiscovered n sessionId created =>
      show Offering (s.connectDiscovered w n sessionId created)
      unfold connectDiscovered
      split
      · exact h
      · have htaken : ∀ discovered, Quiet s { s with discovered := discovered } := fun _ =>
          .of_eq rfl rfl rfl (Nat.le_refl _) (List.Subset.refl _) (List.prefix_refl _)
        exact (h.quiet (htaken _)).connect
    | initiatorSettled d ok sdp => exact h.initiatorSettled hl
    | retrySettled call ok => exact h.retrySettled hl
    | sessionEstablished remote restarted localDescription => exact h.handleSessionEstablished hl
    | _ => cases hoffers

theorem Offering.run {es : List (Surroundings × Action)} (h : Offering s) (hl : Linked s) :
    Linked (Run.run (WebRtcTransport.step cfg) s es) ∧ Offering (Run.run (WebRtcTransport.step cfg) s es) := by
  induction es generalizing s with
  | nil => exact ⟨hl, h⟩
  | cons e es ih => exact ih (h.step hl) hl.step

/-- At every moment a dial has at most one offer in flight: one while it is pending and sending its offer,
and none while it awaits the answer. -/
theorem one_offer_in_flight (es : List (Surroundings × Action)) (d : DialRef) :
    (Run.run (step cfg) new es).offersInFlight d ≤ 1 ∧
    ((Run.run (step cfg) new es).ownsDial d = true →
      ((Run.run (step cfg) new es).dials.get d).phase = .sendingOffer →
      (Run.run (step cfg) new es).offersInFlight d = 1) ∧
    (((Run.run (step cfg) new es).dials.get d).phase = .awaitingAnswer →
      (Run.run (step cfg) new es).offersInFlight d = 0) := by
  obtain ⟨-, h⟩ := @Offering.run cfg new es offering_new linked_new
  exact ⟨h.offersInFlight_le d, fun howns => h.offersInFlight_eq_one (isPending_of_ownsDial howns),
    h.offersInFlight_eq_zero⟩

/-! ### Restarts -/

/-- The offer of `d` has been handed to `sendWebRtcSignal` for its peer since `n` signals had been: a send that
is refused or fails counts. -/
def Repeated (n : Nat) (d : DialRef) (s : WebRtcTransport) : Prop :=
  ∃ x ∈ s.sends.drop n, s.IsOffer d x.signal ∧ x.remotePubkeyHex = (s.dials.get d).remotePubkeyHex

/-- The send in flight of `d` is to be repeated. -/
def Recorded (d : DialRef) (s : WebRtcTransport) : Prop :=
  (s.dials.get d).retryOfferAfterRestart = true ∧ (s.dials.get d).phase = .sendingOffer

/-- The dial is pending, has sent its offer and has no answer. -/
def AwaitsAnswer (d : DialRef) (s : WebRtcTransport) : Prop :=
  s.ownsDial d = true ∧ ((s.dials.get d).phase = .sendingOffer ∨ (s.dials.get d).phase = .awaitingAnswer)

/-- A retry of `d` fails during which a restart has been recorded. -/
def LosesRestart (d : DialRef) (s : WebRtcTransport) (e : Surroundings × Action) : Prop :=
  match e.2 with
  | .retrySettled call false =>
    ((s.retries.get call).map Prod.fst) = some d ∧ (s.dials.get d).retryOfferAfterRestart = true
  | _ => False

instance (d : DialRef) (s : WebRtcTransport) : Decidable (AwaitsAnswer d s) :=
  inferInstanceAs (Decidable (_ ∧ _))

instance (d : DialRef) (s : WebRtcTransport) (e : Surroundings × Action) : Decidable (LosesRestart d s e) := by
  unfold LosesRestart
  split <;> infer_instance

variable {n : Nat} {d : DialRef}

theorem Repeated.mono (h : Repeated n d s) (hsends : s.sends <+: s'.sends)
    (hsession : (s'.dials.get d).sessionId = (s.dials.get d).sessionId)
    (hremote : (s'.dials.get d).remotePubkeyHex = (s.dials.get d).remotePubkeyHex) : Repeated n d s' := by
  obtain ⟨x, hx, hoffer, haddr⟩ := h
  exact ⟨x, (hsends.drop n).subset hx, ⟨hoffer.1, hoffer.2.trans hsession.symm⟩, haddr.trans hremote.symm⟩

theorem repeated_sendOffer {signal : WebRtcSignal} (hn : n ≤ s.sends.length) (hoffer : s.IsOffer d signal) :
    Repeated n d (s.sendOffer w d signal) := by
  refine ⟨⟨(s.dials.get d).remotePubkeyHex, signal,
    s.peerAllowed w (s.dials.get d).remotePubkeyHex && (s.ctx.map TransportContext.sendLinkNegotiation).getD false⟩,
    ?_, ⟨hoffer.1, ?_⟩, ?_⟩
  · show _ ∈ (s.sends ++ [_]).drop n
    rw [List.drop_append_of_le_length hn]
    exact List.mem_append_right _ List.mem_cons_self
  · rw [get_sendOffer, if_pos rfl]
    exact hoffer.2
  · rw [get_sendOffer, if_pos rfl]

/-- Another dial's retry leaves the dial as it is. -/
theorem retryOffer_of_ne {localDescription : DialRef → UnitString} {d' : DialRef} (hne : d ≠ d') :
    (retryOffer w remote localDescription s d').dials.get d = s.dials.get d := by
  unfold retryOffer
  dsimp only
  split
  · rfl
  split
  · rw [get_modifyDial_of_ne hne]
  split
  · rw [get_sendPendingOffer, if_neg hne]
  · rfl

theorem sends_retryOffer {localDescription : DialRef → UnitString} {d' : DialRef} :
    s.sends <+: (retryOffer w remote localDescription s d').sends := by
  unfold retryOffer
  dsimp only
  split
  · exact List.prefix_refl _
  split
  · exact List.prefix_refl _
  split
  · exact List.prefix_append _ _
  · exact List.prefix_refl _

theorem retryOffer_repeats {localDescription : DialRef → UnitString} (hn : n ≤ s.sends.length)
    (hremote : (s.dials.get d).remotePubkeyHex = remote)
    (hphase : (s.dials.get d).phase = .sendingOffer ∨ (s.dials.get d).phase = .awaitingAnswer) :
    Repeated n d (retryOffer w remote localDescription s d) ∨ Recorded d (retryOffer w remote localDescription s d) := by
  unfold retryOffer
  rw [if_neg (not_not.2 hremote)]
  rcases hphase with hsending | hawaiting
  · rw [if_pos hsending]
    refine .inr ⟨?_, ?_⟩
    · rw [get_modifyDial_self]
    · rw [get_modifyDial_self]
      exact hsending
  · have hnot : ¬ (s.dials.get d).phase = .sendingOffer := by
      rw [hawaiting]
      rintro ⟨⟩
    rw [if_neg hnot, if_pos hawaiting]
    refine .inl ?_
    unfold sendPendingOffer
    refine repeated_sendOffer hn ⟨rfl, ?_⟩
    rw [get_modifyDial_self]
    rfl

theorem retryOffer_keeps {localDescription : DialRef → UnitString} {d' : DialRef} (hn : n ≤ s.sends.length)
    (h : Repeated n d s ∨ Recorded d s) :
    Repeated n d (retryOffer w remote localDescription s d') ∨ Recorded d (retryOffer w remote localDescription s d') := by
  have hdial := @shrinks_retryOffer w s remote localDescription d'
  by_cases hne : d = d'
  · subst hne
    rcases h with hrepeated | hrecorded
    · have hsame : ((retryOffer w remote localDescription s d).dials.get d).sessionId = (s.dials.get d).sessionId ∧
          ((retryOffer w remote localDescription s d).dials.get d).remotePubkeyHex = (s.dials.get d).remotePubkeyHex := by
        unfold retryOffer
        dsimp only
        split
        · exact ⟨rfl, rfl⟩
        split
        · rw [get_modifyDial_self]
          exact ⟨rfl, rfl⟩
        split
        · rw [get_sendPendingOffer, if_pos rfl]
          exact ⟨rfl, rfl⟩
        · exact ⟨rfl, rfl⟩
      exact .inl (hrepeated.mono sends_retryOffer hsame.1 hsame.2)
    · by_cases hremote : (s.dials.get d).remotePubkeyHex = remote
      · exact retryOffer_repeats hn hremote (.inl hrecorded.2)
      · unfold retryOffer
        rw [if_pos hremote]
        exact .inr hrecorded
  · rcases h with hrepeated | hrecorded
    · refine .inl (hrepeated.mono sends_retryOffer ?_ ?_)
      · rw [retryOffer_of_ne hne]
      · rw [retryOffer_of_ne hne]
    · unfold Recorded
      rw [retryOffer_of_ne hne]
      exact .inr hrecorded

theorem retryOffers_keep {localDescription : DialRef → UnitString} (ds : List DialRef) (hn : n ≤ s.sends.length)
    (h : Repeated n d s ∨ Recorded d s) :
    Repeated n d (ds.foldl (retryOffer w remote localDescription) s) ∨
      Recorded d (ds.foldl (retryOffer w remote localDescription) s) := by
  induction ds generalizing s with
  | nil => exact h
  | cons d' ds ih => exact ih (hn.trans sends_retryOffer.length_le) (retryOffer_keeps hn h)

/-- The dial's offer is repeated, or the send in flight is recorded to be repeated. -/
theorem retryOffers_repeat {localDescription : DialRef → UnitString} {ds : List DialRef} (hd : d ∈ ds)
    (hn : n ≤ s.sends.length) (hremote : (s.dials.get d).remotePubkeyHex = remote)
    (hphase : (s.dials.get d).phase = .sendingOffer ∨ (s.dials.get d).phase = .awaitingAnswer) :
    Repeated n d (ds.foldl (retryOffer w remote localDescription) s) ∨
      Recorded d (ds.foldl (retryOffer w remote localDescription) s) := by
  induction ds generalizing s with
  | nil => cases hd
  | cons d' ds ih =>
    by_cases hne : d = d'
    · subst hne
      exact retryOffers_keep ds (hn.trans sends_retryOffer.length_le) (retryOffer_repeats hn hremote hphase)
    · have hd' : d ∈ ds := (List.mem_cons.1 hd).resolve_left hne
      refine ih hd' (hn.trans sends_retryOffer.length_le) ?_ ?_
      · rw [retryOffer_of_ne hne]
        exact hremote
      · rw [retryOffer_of_ne hne]
        exact hphase

theorem Quiet.keeps (hquiet : Quiet s s') (h : Repeated n d s ∨ Recorded d s)
    (hunanswered : ¬ (s'.dials.get d).phase.Answered) : Repeated n d s' ∨ Recorded d s' := by
  rcases h with hrepeated | ⟨hflag, hphase⟩
  · exact .inl (hrepeated.mono hquiet.sends (hquiet.sessionId d) (hquiet.remotePubkeyHex d))
  · rcases hquiet.phase d with heq | hanswered
    · exact .inr ⟨(hquiet.flag d).trans hflag, heq.trans hphase⟩
    · exact absurd hanswered hunanswered

theorem AwaitsAnswer.unanswered (h : AwaitsAnswer d s) : ¬ (s.dials.get d).phase.Answered := by
  rintro (hphase | hphase)
  · rcases h.2 with h | h
    · rw [hphase] at h
      cases h
    · rw [hphase] at h
      cases h
  · rcases h.2 with h | h
    · rw [hphase] at h
      cases h
    · rw [hphase] at h
      cases h

theorem sends_initiatorSettled {d' : DialRef} {ok : Bool} {sdp : UnitString} :
    s.sends <+: (s.initiatorSettled w d' ok sdp).sends := by
  unfold initiatorSettled
  split
  · exact List.prefix_refl _
  rename_i stage _
  dsimp only
  split
  · exact List.prefix_refl _
  split
  · exact List.prefix_refl _
  cases stage with
  | createOffer => exact List.prefix_refl _
  | setLocalDescription => exact List.prefix_refl _
  | iceGathering => exact List.prefix_append _ _
  | sendOffer signal =>
    dsimp only
    split
    · exact List.prefix_append _ _
    · exact List.prefix_refl _

theorem sends_retrySettled {call : Nat} {ok : Bool} : s.sends <+: (s.retrySettled w call ok).sends := by
  unfold retrySettled
  split
  · exact List.prefix_refl _
  dsimp only
  split
  · split
    · exact List.prefix_refl _
    · exact List.prefix_refl _
  split
  · exact List.prefix_refl _
  split
  · exact List.prefix_append _ _
  · exact List.prefix_refl _

theorem initiatorSettled_keeps {d' : DialRef} {ok : Bool} {sdp : UnitString} (hl : Linked s) (hoff : Offering s)
    (hn : n ≤ s.sends.length) (h : Repeated n d s ∨ Recorded d s) (hbefore : AwaitsAnswer d s)
    (hafter : AwaitsAnswer d (s.initiatorSettled w d' ok sdp)) :
    Repeated n d (s.initiatorSettled w d' ok sdp) ∨ Recorded d (s.initiatorSettled w d' ok sdp) := by
  have hlt : d < s.dials.next := (hl.dials _ (mem_of_ownsDial hbefore.1)).1
  have hdial : ((s.initiatorSettled w d' ok sdp).dials.get d).sessionId = (s.dials.get d).sessionId ∧
      ((s.initiatorSettled w d' ok sdp).dials.get d).remotePubkeyHex = (s.dials.get d).remotePubkeyHex := by
    rcases @initiatorSettled_cases w s d' ok sdp with hshrinks | ⟨-, s₁, hshrinks, heq⟩
    · exact hshrinks.dial d hlt
    · rw [heq]
      exact hshrinks.dial d hlt
  rcases h with hrepeated | hrecorded
  · exact .inl (hrepeated.mono sends_initiatorSettled hdial.1 hdial.2)
  by_cases hne : d = d'
  · subst hne
    have hpending := isPending_of_ownsDial hbefore.1
    unfold initiatorSettled at hafter ⊢
    split
    · exact .inr hrecorded
    rename_i stage hstage
    rw [hstage] at hafter
    dsimp only at hafter ⊢
    split
    · -- a failed send ends the dial
      rename_i hfailed
      rw [if_pos hfailed] at hafter
      have hended : ∀ connects, Linked { s with initiators := s.initiators.delete d, connects := connects } := fun _ =>
        hl.shrink (.of_eq rfl rfl rfl rfl rfl rfl rfl)
      exact absurd (isPending_of_ownsDial hafter.1) (isPending_endDial_iff (hended _))
    split
    · rename_i hunowned
      rw [hbefore.1] at hunowned
      cases hunowned
    rcases hoff.sending d hpending hrecorded.2 with ⟨signal, hsignal⟩ | ⟨e, he, hed⟩
    · rw [hstage] at hsignal
      cases hsignal
      have hretries : s.retriesOffer d = true := by
        unfold retriesOffer
        rw [hrecorded.1, hrecorded.2]
        rfl
      dsimp only
      rw [if_pos hretries]
      exact .inl (repeated_sendOffer hn (hoff.initiatorSignals d signal hstage))
    · have hnone := hoff.exclusive e he
      rw [hed, hstage] at hnone
      cases hnone
  · have hsame : (s.initiatorSettled w d' ok sdp).dials.get d = s.dials.get d := by
      unfold initiatorSettled
      split
      · rfl
      rename_i stage _
      dsimp only
      split
      · unfold endDial settleDial
        rw [get_modifyDial_of_ne hne, get_modifyDial_of_ne hne]
      split
      · rfl
      cases stage with
      | createOffer =>
        dsimp only
        rw [get_modifyDial_of_ne hne]
      | setLocalDescription => rfl
      | iceGathering =>
        dsimp only
        rw [get_sendPendingOffer, if_neg hne]
      | sendOffer signal =>
        dsimp only
        split
        · rw [get_sendOffer, if_neg hne]
        · rw [get_offerSent, if_neg hne]
    unfold Recorded
    rw [hsame]
    exact .inr hrecorded

theorem retrySettled_keeps {call : Nat} {ok : Bool} (hl : Linked s) (hoff : Offering s)
    (hn : n ≤ s.sends.length) (h : Repeated n d s ∨ Recorded d s) (hbefore : AwaitsAnswer d s)
    (hkept : ¬ LosesRestart d s (w, .retrySettled call ok)) :
    Repeated n d (s.retrySettled w call ok) ∨ Recorded d (s.retrySettled w call ok) := by
  have hlt : d < s.dials.next := (hl.dials _ (mem_of_ownsDial hbefore.1)).1
  have hdial := (@shrinks_retrySettled w s call ok).dial d hlt
  rcases h with hrepeated | hrecorded
  · exact .inl (hrepeated.mono sends_retrySettled hdial.1 hdial.2)
  unfold retrySettled
  split
  · exact .inr hrecorded
  rename_i d' signal hcall
  have hmem : (call, d', signal) ∈ s.retries := JsMap.mem_of_get hcall
  dsimp only
  by_cases hne : d = d'
  · subst hne
    split
    · rename_i hfailed
      refine absurd ?_ hkept
      unfold LosesRestart
      rw [hfailed]
      dsimp only
      rw [hcall]
      exact ⟨rfl, hrecorded.1⟩
    split
    · rename_i hunowned
      rw [hbefore.1] at hunowned
      cases hunowned
    have hretries : s.retriesOffer d = true := by
      unfold retriesOffer
      rw [hrecorded.1, hrecorded.2]
      rfl
    rw [if_pos hretries]
    exact .inl (repeated_sendOffer hn (hoff.retrySignals _ hmem))
  · have hkeep : ∀ s' : WebRtcTransport, s'.dials.get d = s.dials.get d → Repeated n d s' ∨ Recorded d s' := by
      intro s' hsame
      unfold Recorded
      rw [hsame]
      exact .inr hrecorded
    split
    · split
      · refine hkeep _ ?_
        rw [get_modifyDial_of_ne hne]
      · exact hkeep _ rfl
    split
    · exact hkeep _ rfl
    split
    · refine hkeep _ ?_
      rw [get_sendOffer, if_neg hne]
    · refine hkeep _ ?_
      rw [get_offerSent, if_neg hne]

theorem connect_keeps {addr : PubkeyHex} {sessionId : NegotiationId} {created : Bool} (hl : Linked s)
    (hpending : s.ownsDial d = true) (h : Repeated n d s ∨ Recorded d s) :
    Repeated n d (s.connect w addr sessionId created) ∨ Recorded d (s.connect w addr sessionId created) := by
  have hlt : d < s.dials.next := (hl.dials _ (mem_of_ownsDial hpending)).1
  have hkeep : ∀ s' : WebRtcTransport, s'.dials.get d = s.dials.get d → s'.sends = s.sends →
      Repeated n d s' ∨ Recorded d s' := by
    intro s' hsame hsends
    rcases h with hrepeated | hrecorded
    · refine .inl (hrepeated.mono ?_ ?_ ?_)
      · rw [hsends]
      · rw [hsame]
      · rw [hsame]
    · unfold Recorded
      rw [hsame]
      exact .inr hrecorded
  rcases @connect_cases w s addr sessionId created with heq | ⟨pendingAuto, known, heq⟩ | ⟨s₁, auto, hprepared, heq⟩
  · rw [heq]
    exact h
  · rw [heq]
    exact hkeep _ rfl rfl
  · rw [heq]
    obtain ⟨pendingAuto, known, rfl⟩ := hprepared
    refine hkeep _ ?_ rfl
    exact Heap.get_alloc_of_lt hlt

/-- A step after which the dial still waits for its answer loses nothing, unless a retry fails. -/
theorem step_keeps {e : Surroundings × Action} (hl : Linked s) (hoff : Offering s) (hn : n ≤ s.sends.length)
    (h : Repeated n d s ∨ Recorded d s) (hbefore : AwaitsAnswer d s) (hafter : AwaitsAnswer d (s.step cfg e))
    (hkept : ¬ LosesRestart d s e) : Repeated n d (s.step cfg e) ∨ Recorded d (s.step cfg e) := by
  cases hoffers : e.2.aboutOffers with
  | false => exact (quiet_step hoffers).keeps h hafter.unanswered
  | true =>
    obtain ⟨w, action⟩ := e
    cases action with
    | connect addr sessionId created => exact connect_keeps hl hbefore.1 h
    | connectDiscovered m sessionId created =>
      show Repeated n d (s.connectDiscovered w m sessionId created) ∨ Recorded d (s.connectDiscovered w m sessionId created)
      unfold connectDiscovered
      split
      · exact h
      · have htaken : ∀ discovered, Linked { s with discovered := discovered } := fun _ =>
          hl.shrink (.of_eq rfl rfl rfl rfl rfl rfl rfl)
        exact connect_keeps (htaken _) hbefore.1 h
    | initiatorSettled d' ok sdp => exact initiatorSettled_keeps hl hoff hn h hbefore hafter
    | retrySettled call ok => exact retrySettled_keeps hl hoff hn h hbefore hkept
    | sessionEstablished remote restarted localDescription =>
      show Repeated n d (s.handleSessionEstablished cfg w remote restarted localDescription) ∨
        Recorded d (s.handleSessionEstablished cfg w remote restarted localDescription)
      by_cases hallowed : s.peerAllowed w remote = true
      · refine (quiet_handleSessionEstablished hallowed).keeps ?_ hafter.unanswered
        split
        · exact retryOffers_keep _ hn h
        · exact h
      · unfold handleSessionEstablished
        rw [Bool.not_eq_true] at hallowed
        rw [if_pos hallowed]
        exact h
    | _ => cases hoffers

theorem sends_step {e : Surroundings × Action} : s.sends <+: (s.step cfg e).sends := by
  cases hoffers : e.2.aboutOffers with
  | false => exact (quiet_step hoffers).sends
  | true =>
    have hconnect : ∀ (s : WebRtcTransport) w addr sessionId created, s.sends <+: (s.connect w addr sessionId created).sends := by
      intro s w addr sessionId created
      rcases @connect_cases w s addr sessionId created with heq | ⟨pendingAuto, known, heq⟩ | ⟨s₁, auto, hprepared, heq⟩
      · rw [heq]
      · rw [heq]
      · rw [heq]
        exact hprepared.quiet.sends
    obtain ⟨w, action⟩ := e
    cases action with
    | connect addr sessionId created => exact hconnect s w addr sessionId created
    | connectDiscovered m sessionId created =>
      show s.sends <+: (s.connectDiscovered w m sessionId created).sends
      unfold connectDiscovered
      split
      · exact List.prefix_refl _
      · exact hconnect { s with discovered := s.discovered.eraseIdx m } w _ sessionId created
    | initiatorSettled d ok sdp => exact sends_initiatorSettled
    | retrySettled call ok => exact sends_retrySettled
    | sessionEstablished remote restarted localDescription =>
      show s.sends <+: (s.handleSessionEstablished cfg w remote restarted localDescription).sends
      by_cases hallowed : s.peerAllowed w remote = true
      · refine List.IsPrefix.trans ?_ (quiet_handleSessionEstablished hallowed).sends
        split
        · have hfold : ∀ (ds : List DialRef) (s : WebRtcTransport) key,
              s.sends <+: (ds.foldl (retryOffer w key localDescription) s).sends := by
            intro ds
            induction ds with
            | nil => exact fun s key => List.prefix_refl _
            | cons d ds ih => exact fun s key => sends_retryOffer.trans (ih _ key)
          exact hfold _ s _
        · exact List.prefix_refl _
      · unfold handleSessionEstablished
        rw [Bool.not_eq_true] at hallowed
        rw [if_pos hallowed]
    | _ => cases hoffers

/-- The dial still waits for its answer after the step, and the step is no retry that fails during which a
restart has been recorded. -/
def KeepsWaiting (cfg : ResolvedWebRtcTransportConfig) (d : DialRef) (s : WebRtcTransport) (e : Surroundings × Action) :
    Prop := AwaitsAnswer d (s.step cfg e) ∧ ¬ LosesRestart d s e

instance (s : WebRtcTransport) (e : Surroundings × Action) : Decidable (KeepsWaiting cfg d s e) :=
  inferInstanceAs (Decidable (_ ∧ _))

theorem along_keeps {es : List (Surroundings × Action)} (halong : Run.Along (KeepsWaiting cfg d) (step cfg) s es)
    (hl : Linked s) (hoff : Offering s) (hn : n ≤ s.sends.length) (hbefore : AwaitsAnswer d s)
    (h : Repeated n d s ∨ Recorded d s) :
    AwaitsAnswer d (Run.run (step cfg) s es) ∧
      (Repeated n d (Run.run (step cfg) s es) ∨ Recorded d (Run.run (step cfg) s es)) := by
  induction es generalizing s with
  | nil => exact ⟨hbefore, h⟩
  | cons e es ih =>
    obtain ⟨⟨hafter, hkept⟩, halong⟩ := halong
    exact ih halong hl.step (hoff.step hl) (hn.trans sends_step.length_le) hafter
      (step_keeps hl hoff hn h hbefore hafter hkept)

/-- A restart of the peer of a dial that awaits its answer: as long as the dial goes on awaiting it and no
retry fails after another restart was recorded, its offer has been sent again since, or its one send in
flight is to be repeated when it settles. -/
theorem restart_repeats_offer (pre suf : List (Surroundings × Action)) (w : Surroundings) (remote : PubkeyHex)
    (localDescription : DialRef → UnitString) (d : DialRef)
    (hawaits : AwaitsAnswer d (Run.run (step cfg) new pre))
    (hremote : ((Run.run (step cfg) new pre).dials.get d).remotePubkeyHex =
      (Run.run (step cfg) new pre).ownedPeerAddress remote)
    (hallowed : (Run.run (step cfg) new pre).peerAllowed w remote = true)
    (halong : Run.Along (KeepsWaiting cfg d) (step cfg) (Run.run (step cfg) new pre)
      ((w, .sessionEstablished remote true localDescription) :: suf)) :
    Repeated (Run.run (step cfg) new pre).sends.length d
        (Run.run (step cfg) new (pre ++ (w, .sessionEstablished remote true localDescription) :: suf)) ∨
      Recorded d (Run.run (step cfg) new (pre ++ (w, .sessionEstablished remote true localDescription) :: suf)) ∧
        (Run.run (step cfg) new (pre ++ (w, .sessionEstablished remote true localDescription) :: suf)).offersInFlight d
          = 1 := by
  rw [Run.run_append]
  obtain ⟨hl, hoff⟩ := @Offering.run cfg new pre offering_new linked_new
  generalize Run.run (step cfg) new pre = s at hawaits hremote hallowed halong hl hoff ⊢
  obtain ⟨⟨hafter, -⟩, halong⟩ := halong
  have hmem : d ∈ s.pendingDials.map Prod.snd := List.mem_map.2 ⟨_, mem_of_ownsDial hawaits.1, rfl⟩
  have hrestarted : Repeated s.sends.length d (s.handleSessionEstablished cfg w remote true localDescription) ∨
      Recorded d (s.handleSessionEstablished cfg w remote true localDescription) := by
    refine (quiet_handleSessionEstablished hallowed).keeps ?_ hafter.unanswered
    rw [if_pos rfl]
    exact retryOffers_repeat hmem (Nat.le_refl _) hremote hawaits.2
  obtain ⟨hlast, hkept⟩ := along_keeps halong hl.step (hoff.step hl) sends_step.length_le hafter hrestarted
  rw [Run.run_cons]
  rcases hkept with hrepeated | hrecorded
  · exact .inl hrepeated
  · refine .inr ⟨hrecorded, Offering.offersInFlight_eq_one ?_ (isPending_of_ownsDial hlast.1) hrecorded.2⟩
    exact ((hoff.step hl).run hl.step).2

/-! ### A dial with two restarts -/

namespace RestartExample

def peer : PubkeyHex := js "02" ++ List.replicate 64 (unit 'b')

def surroundings : Surroundings := ⟨fun _ => true, 0⟩

def config : ResolvedWebRtcTransportConfig :=
  resolveWebRtcTransportConfig ⟨none, none, false, none, none, none, none⟩

def description : DialRef → UnitString := fun _ => js "sdp"

/-- A dial's offer is sent. -/
def offered : List (Surroundings × Action) :=
  [.start ⟨0, js "02" ++ List.replicate 64 (unit 'a'), true⟩, .connect peer (js "1") true,
    .initiatorSettled 0 true [], .initiatorSettled 0 true [], .initiatorSettled 0 true (js "sdp"),
    .initiatorSettled 0 true []].map (surroundings, ·)

/-- The peer restarts during the retry, which is then sent once more. -/
def restarted : List (Surroundings × Action) :=
  [.sessionEstablished peer true description, .retrySettled 0 true].map (surroundings, ·)

end RestartExample

open RestartExample in
theorem restart_repeats_offer_example :
    Repeated (Run.run (step config) new offered).sends.length 0
        (Run.run (step config) new (offered ++ (surroundings, .sessionEstablished peer true description) :: restarted)) ∨
      Recorded 0 (Run.run (step config) new
          (offered ++ (surroundings, .sessionEstablished peer true description) :: restarted)) ∧
        (Run.run (step config) new
          (offered ++ (surroundings, .sessionEstablished peer true description) :: restarted)).offersInFlight 0 = 1 :=
  restart_repeats_offer offered restarted surroundings peer description 0 (by decide +kernel) (by decide +kernel)
    (by decide +kernel) (by decide +kernel)

end WebRtcTransport

end Fips
