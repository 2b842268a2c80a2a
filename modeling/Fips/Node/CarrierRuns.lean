import Fips.Fmp.Channel
import Fips.Node.CarrierFrames
import Fips.Node.PendingResponders

/-!
# The links of peers along the runs of a node

Whatever packets arrive and in whatever order a node's connections, timers and stops take their turns, a link
that a stored peer carries has been authenticated by the identity the peer is recorded under, and the maps of
the node name a peer by its own identity and address.
-/

namespace Fips
open Exec

namespace FipsNode

variable {S : Suite} {cfg : NodeConfig} {env : NodeEnv} {drains : Prop} {n n' : FipsNode} {pid : PeerId} {lid : LinkId}
  {c : ConnectId}

/-! ### Connections -/

/-- A connection goes on; it does not await its transport again. -/
theorem less_setConnectStage {stage : ConnectStage} (hne : stage ≠ .connecting) : Less S n (n.setConnectStage c stage) := by
  refine { Less.refl n with connecting := fun c' hc' => ?_ }
  have hget : ((n.setConnectStage c stage).connects).get c' =
      if c' = c then { n.connects.get c' with stage := stage } else n.connects.get c' := by
    show (n.connects.modify c fun k => { k with stage := stage }).get c' = _
    rw [Heap.get_modify]
  rw [hget] at hc' ⊢
  by_cases heq : c' = c
  · rw [if_pos heq] at hc'
    exact absurd hc' hne
  · rw [if_neg heq] at hc' ⊢
    exact ⟨hc', rfl⟩

theorem Bound.wp_connectKnownPeer (h : Bound S drains none n) {transport : TransportId} {addr : TransportAddress}
    {remotePubkey : Bytes} :
    wp (FipsNode.connectKnownPeer transport addr remotePubkey) (fun _ n' => Bound S drains none n')
      (fun _ n' => Bound S drains none n') n := by
  unfold FipsNode.connectKnownPeer assertPeerAllowed
  simp only [wp_bind, wp_get, wp_lift, wp_ite, wp_throw, wp_pure, wp_set]
  refine ⟨fun _ _ => ⟨fun _ => h, fun hkey => ⟨fun _ => h, fun _ => ⟨fun _ => h, fun _ => ?_⟩⟩⟩, fun _ _ => h⟩
  refine Bound.less (n := { n with
    connects := n.connects.alloc ⟨transport, addr, remotePubkey, n.discoveryGeneration, .connecting⟩ }) ?_ (Aside.less ?_)
  · refine { h with
      connecting := fun c hc => ?_
      logged := fun hdrains q lid msgType payload hmem => ?_ }
    rotate_left
    · obtain ⟨hpeer, hlink, hhs, hremote⟩ := h.logged hdrains q lid msgType payload hmem
      exact ⟨hpeer, hlink, hhs, hremote⟩
    have hget : (n.connects.alloc ⟨transport, addr, remotePubkey, n.discoveryGeneration, .connecting⟩).get c =
        if c = n.connects.next then ⟨transport, addr, remotePubkey, n.discoveryGeneration, .connecting⟩ else n.connects.get c :=
      rfl
    rw [hget] at hc ⊢
    by_cases heq : c = n.connects.next
    · rw [if_pos heq]
      exact not_not.1 hkey
    · rw [if_neg heq] at hc ⊢
      exact h.connecting c hc
  · refine ⟨rfl, rfl, rfl, rfl, rfl, rfl, fun _ _ _ _ hmem => ?_⟩
    rcases List.mem_append.1 hmem with hold | hnew
    · exact hold
    · cases List.mem_singleton.1 hnew

theorem less_connectFailed : Less S n (n.connectFailed S cfg env c pid) := by
  have hcleared : Less S n ((n.clearOutgoing pid).setConnectStage c .settled) :=
    less_clearOutgoing.trans (less_setConnectStage (by rintro ⟨⟩))
  unfold connectFailed
  dsimp only
  split
  · exact ((hcleared.trans less_closeLink).trans less_discardPending).trans less_removePeerPath
  · exact hcleared

theorem wp_assertCurrent : wp (assertCurrent c) (fun _ n' => n' = n) (fun _ n' => n' = n) n := by
  unfold assertCurrent assertPeerAllowed
  simp only [wp_bind, wp_get, wp_lift, wp_ite, wp_throw, wp_pure]
  exact ⟨fun _ _ => ⟨fun _ => trivial, fun _ => trivial⟩, fun _ _ => trivial⟩

theorem less_sendMsg1 {msg1 : Bytes} : wp (sendMsg1 c msg1) (fun _ n' => Less S n n') (fun _ n' => Less S n n') n := by
  unfold sendMsg1
  rw [wp_bind]
  refine wp_mono wp_assertCurrent (fun _ n' hn' => ?_) fun _ n' hn' => hn' ▸ Less.refl n'
  rw [hn', wp_modify]
  exact (aside_record (by rintro _ _ _ _ ⟨⟩)).less

theorem less_sendFirstMsg1 : wp (sendFirstMsg1 S env c pid) (fun _ n' => Less S n n') (fun _ n' => Less S n n') n := by
  unfold sendFirstMsg1
  rw [wp_bind, wp_get]
  dsimp only
  rw [wp_bind]
  refine wp_mono (wp_onLink_weaker FmpLink.weaker_buildMsg1) (fun msg1 n₁ hn₁ => ?_) fun _ n₁ hn₁ => ?_
  · obtain ⟨l, hl, rfl⟩ := hn₁
    have hbuilt : Less S n (n.modifyLink (n.peer pid).link fun _ => l) := less_modifyLink hl
    rw [wp_bind]
    refine wp_mono less_sendMsg1 (fun _ n₂ hn₂ => ?_) fun _ n₂ hn₂ => hbuilt.trans hn₂
    split
    · exact (hbuilt.trans hn₂).trans (less_setConnectStage (by rintro ⟨⟩))
    · exact hbuilt.trans hn₂
  · obtain ⟨l, hl, rfl⟩ := hn₁
    exact less_modifyLink hl

/-- The new initiator is for the key that its connection was asked for. -/
theorem Bound.wp_newInitiator (h : Bound S drains none n) (hkey : IsCompressed (n.connects.get c).remotePubkey) :
    wp (newInitiator S cfg c) (fun _ n' => Bound S drains none n') (fun _ n' => Bound S drains none n') n := by
  unfold newInitiator
  rw [wp_bind, wp_get]
  dsimp only
  rw [wp_bind]
  refine wp_newLink ?_ (fun _ => rfl) (fun l hl _ _ hremote => ?_) fun _ => h.less (Aside.less ?_)
  · rintro _ ⟨⟩
    exact hkey.1
  · simp only [wp_bind, wp_get, wp_set, wp_pure]
    have hwith : Bound S drains none { n.withLink l with handshakes := n.handshakes.alloc ⟨.pending, none⟩ } :=
      (h.withLink hl).less aside_handshakes.less
    have hne : (n.connects.get c).remotePubkey ≠ [] := by
      intro hnil
      rw [hnil] at hkey
      cases hkey.1
    refine hwith.installPeer rfl (Nat.lt_succ_self _) (fun _ => ?_) (fun q hq hc => ?_) rfl rfl fun _ => hne
    · refine ⟨(n.connects.get c).remotePubkey, ?_, .refl _⟩
      show ((n.withLink l).link n.links.next).remotePubkey = _
      rw [link_withLink_self]
      exact hremote
    · exact absurd (h.known q _ hq hc) (Nat.lt_irrefl _)
  · exact ⟨rfl, rfl, rfl, rfl, rfl, rfl, fun _ _ _ _ h => h⟩

theorem Bound.wp_transportConnected (h : Bound S drains none n) (hkey : IsCompressed (n.connects.get c).remotePubkey) :
    wp (transportConnected S cfg env c) (fun _ n' => Bound S drains none n') (fun _ n' => Bound S drains none n') n := by
  have hcleared : ∀ stored : Option PeerId,
      Less S n (stored.elim n fun pid => (n.discardPending pid).closeLink (n.peer pid).link) ∧
      (stored.elim n fun pid => (n.discardPending pid).closeLink (n.peer pid).link).connects = n.connects := by
    intro stored
    cases stored with
    | none => exact ⟨.refl n, rfl⟩
    | some pid =>
      refine ⟨less_discardPending.trans less_closeLink, ?_⟩
      show (n.discardPending pid).connects = n.connects
      unfold discardPending
      split
      · rfl
      · rfl
  unfold transportConnected
  rw [wp_bind]
  refine wp_mono wp_assertCurrent (fun _ n₁ hn₁ => ?_) fun _ n₁ hn₁ => hn₁ ▸ h
  rw [hn₁]
  simp only [wp_bind, wp_get, wp_ite, wp_set, wp_pure]
  refine ⟨fun _ => h.less (less_setConnectStage (by rintro ⟨⟩)), fun _ => ?_⟩
  obtain ⟨hless, hconnects⟩ := hcleared (n.peers.get (transportAddressKey (n.connects.get c).addr))
  refine wp_mono ((h.less hless).wp_newInitiator (by rw [hconnects]; exact hkey)) (fun pid n₂ hn₂ => ?_) fun _ _ he => he
  have hsent := @less_sendFirstMsg1 S env n₂ pid c
  rw [wp_iff] at hsent
  rw [wp_bind, wp_get]
  split
  · rename_i hrun
    exact hn₂.less (hsent.1 _ _ hrun)
  · rename_i hrun
    simp only [wp_bind, wp_set, wp_throw]
    exact (hn₂.less (hsent.2 _ _ hrun)).less less_connectFailed

theorem Bound.connected (h : Bound S drains none n) {ok : Bool} : Bound S drains none (n.connected S cfg env c ok) := by
  have hsettled : ∀ m : FipsNode, Less S m (m.setConnectStage c .settled) := fun m => less_setConnectStage (by rintro ⟨⟩)
  unfold FipsNode.connected
  split
  · exact h
  split
  · exact h.less (hsettled n)
  · rename_i hstage _
    have hrun := @Bound.wp_transportConnected S cfg env drains n c h (h.connecting c (not_not.1 hstage))
    rw [wp_iff] at hrun
    split
    · rename_i heq
      exact hrun.1 _ _ heq
    · rename_i heq
      exact (hrun.2 _ _ heq).less (hsettled _)

theorem less_msg1Sent {ok : Bool} : Less S n (n.msg1Sent S cfg env c ok) := by
  unfold msg1Sent
  split
  · split
    · exact less_setConnectStage (by rintro ⟨⟩)
    · exact less_connectFailed
  · exact .refl n

theorem less_after {x : NM Unit} (hx : wp x (fun _ n' => Less S n n') (fun _ n' => Less S n n') n) : Less S n (after x n) :=
  wp_after.2 hx

theorem less_resendMsg1 : Less S n (n.resendMsg1 c) := by
  unfold resendMsg1
  split
  · split
    · exact .refl n
    · exact less_after less_sendMsg1
  · exact .refl n

theorem less_handshakeTimeout : Less S n (n.handshakeTimeout c) := by
  unfold handshakeTimeout
  split
  · exact aside_rejectOutgoing.less
  · exact .refl n

theorem less_handshakeDone : Less S n (n.handshakeDone S cfg env c) := by
  unfold handshakeDone
  split
  · split
    · exact .refl n
    · exact less_clearOutgoing.trans (less_setConnectStage (by rintro ⟨⟩))
    · exact less_connectFailed
  · exact .refl n

theorem aside_connectCleared : Aside n (n.connectCleared c) := by
  unfold connectCleared
  dsimp only
  split
  · exact ⟨rfl, rfl, rfl, rfl, rfl, rfl, fun _ _ _ _ h => h⟩
  · exact .refl n

/-! ### Peers in use -/

theorem less_transportDown {addr : TransportAddress} : Less S n (n.transportDown S cfg env addr) := by
  unfold transportDown
  split
  · exact .refl n
  · rename_i pid _
    have hdown : Less S n ((((n.rejectOutgoing pid "FMP transport disconnected").closeLink (n.peer pid).link).discardPending
        pid).closeDraining pid) :=
      (((aside_rejectOutgoing.less).trans less_closeLink).trans less_discardPending).trans less_closeDraining
    have hremoved : ∀ m : FipsNode, Less S m (m.removePeerPath S cfg env (transportAddressKey addr) pid true) :=
      fun m => less_removePeerPath
    dsimp only
    split
    · exact (hdown.trans (hremoved _)).trans aside_emitPeer.less
    · exact hdown.trans (hremoved _)

theorem wp_assertEndpoints {msgType : Nat} {payload : Bytes} :
    wp (assertEndpoints S msgType payload) (fun _ n' => n' = n) (fun _ n' => n' = n) n := by
  unfold assertEndpoints
  simp only [wp_bind, wp_get, wp_ite, wp_lift, wp_pure]
  exact ⟨fun _ => ⟨fun _ _ => ⟨fun _ _ => ⟨fun _ _ => trivial, fun _ _ => trivial⟩, fun _ _ => trivial⟩, fun _ _ => trivial⟩,
    fun _ => ⟨fun _ => ⟨fun _ _ => ⟨fun _ _ => ⟨fun _ _ => trivial, fun _ _ => trivial⟩, fun _ _ => trivial⟩, fun _ _ => trivial⟩,
      fun _ => trivial⟩⟩

theorem less_sealAndSend {msgType : Nat} {payload : Bytes} :
    wp (sealAndSend S env pid msgType payload) (fun _ n' => Less S n n') (fun _ n' => Less S n n') n := by
  unfold sealAndSend
  rw [wp_bind, wp_get]
  dsimp only
  rw [wp_bind]
  refine wp_mono (wp_onLink_weaker FmpLink.weaker_encryptOutgoing) (fun frame n₁ hn₁ => ?_) fun _ n₁ hn₁ => ?_
  · obtain ⟨l, hl, rfl⟩ := hn₁
    rw [wp_modify]
    exact (less_modifyLink hl).trans (aside_record (by rintro _ _ _ _ ⟨⟩)).less
  · obtain ⟨l, hl, rfl⟩ := hn₁
    exact less_modifyLink hl

theorem less_sendLinkMessage {msgType : Nat} {payload : Bytes} :
    wp (FipsNode.sendLinkMessage S env pid msgType payload) (fun _ n' => Less S n n') (fun _ n' => Less S n n') n := by
  unfold FipsNode.sendLinkMessage assertPeerAllowed
  simp only [wp_bind, wp_get, wp_lift]
  refine ⟨fun _ _ => ?_, fun _ _ => .refl n⟩
  refine wp_mono wp_assertEndpoints (fun _ n' hn' => ?_) fun _ n' hn' => hn' ▸ Less.refl n'
  rw [hn']
  exact less_sealAndSend

theorem less_sendHeartbeat : wp (sendHeartbeat S env pid) (fun _ n' => Less S n n') (fun _ n' => Less S n n') n := by
  unfold sendHeartbeat assertPeerAllowed
  simp only [wp_bind, wp_get, wp_lift]
  exact ⟨fun _ _ => less_sealAndSend, fun _ _ => .refl n⟩

theorem less_sendHeartbeats : Less S n (n.sendHeartbeats S env) := by
  unfold FipsNode.sendHeartbeats
  dsimp only
  exact (less_foldl (fun _ _ => less_pruneDraining) _ n).trans (less_foldl (fun _ _ => less_after less_sendHeartbeat) _ _)

theorem less_pendingTimeout : Less S n (n.pendingTimeout S cfg env pid lid) := by
  unfold FipsNode.pendingTimeout
  split
  · dsimp only
    split
    · exact (less_discardPending.trans less_closeLink).trans less_removeOwnPath
    · exact less_discardPending
  · exact .refl n

/-! ### Starting and stopping -/

theorem less_beginStop : Less S n (n.beginStop S cfg) := by
  have hclear : ∀ m : FipsNode, Less S m m.clearProcessor := fun m =>
    (less_foldl (fun _ _ => less_discardPending) _ m).trans (Aside.less ⟨rfl, rfl, rfl, rfl, rfl, rfl, fun _ _ _ _ h => h⟩)
  have hstopping : Less S n { n with discoveryGeneration := n.discoveryGeneration + 1, lifecycle := .stopping } :=
    Aside.less ⟨rfl, rfl, rfl, rfl, rfl, rfl, fun _ _ _ _ h => h⟩
  exact (hstopping.trans (hclear _)).trans aside_withManager.less

theorem less_closePeer : Less S n (n.closePeer pid) := by
  have hpending : ∀ (m : FipsNode) (o : Option LinkId), Less S m (o.elim m m.closeLink) := by
    intro m o
    cases o with
    | none => exact .refl m
    | some lid => exact less_closeLink
  unfold closePeer
  dsimp only
  exact ((aside_rejectOutgoing.less.trans less_closeLink).trans (hpending _ _)).trans less_closeDraining

theorem less_forgetPeers : Less S n n.forgetPeers := by
  have hpeers : Less S n { n with peers := [] } := less_peers (List.nil_sublist _)
  have hindex : ∀ m : FipsNode, Less S m { m with peersByPubkey := [] } := fun m => less_byPubkey (by rintro _ ⟨⟩)
  have haddr : ∀ m : FipsNode, Less S m { m with peersByNodeAddr := [] } := fun m => less_byNodeAddr (by rintro _ ⟨⟩)
  exact ((hpeers.trans (hindex _)).trans (haddr _)).trans (Aside.less ⟨rfl, rfl, rfl, rfl, rfl, rfl, fun _ _ _ _ h => h⟩)

theorem bound_new {startupEpoch : Bytes} {nextFmpSessionIdx : Nat} {admission : PeerAdmission} :
    Bound S drains none (FipsNode.new startupEpoch nextFmpSessionIdx admission) := by
  have hlive : ∀ pid, ¬ (FipsNode.new startupEpoch nextFmpSessionIdx admission).Live pid := by
    rintro pid (hvalue | ⟨a, ha⟩ | ho)
    · cases hvalue
    · cases ha
    · cases ho
  refine ⟨fun lid => ⟨?_, ?_, ?_⟩, fun pid _ h => absurd h (hlive pid), fun pid h => absurd h (hlive pid),
    fun pid _ h => absurd h (hlive pid), fun pid _ _ h => absurd h (hlive pid), fun _ pid _ h => absurd h (hlive pid),
    List.nodup_nil, ?_, ?_, ?_, ?_, ?_, ?_⟩
  · rintro _ ⟨⟩
  · rintro ⟨⟩
  · rintro ⟨⟩
  · rintro _ ⟨⟩
  · rintro _ ⟨⟩
  · rintro _ ⟨⟩
  · rintro _ ⟨⟩
  · rintro _ ⟨⟩
  · rintro _ _ _ _ _ ⟨⟩

/-! ### Runs -/

/-- One step, whatever it is, keeps the links of the peers bound. -/
theorem Bound.step (h : Bound S drains none n) (hown : drains → n.OwnAddresses) (ea : NodeEnv × Action) :
    Bound S drains none (n.step S cfg ea) := by
  obtain ⟨env, a⟩ := ea
  unfold FipsNode.step
  cases a with
  | packet transport remoteAddr data =>
    dsimp only
    split
    · exact wp_after.2 (h.wp_process hown)
    · exact h
  | confirmationSent handshake error => exact h.confirmationSent hown
  | reportSent link => exact h.less (Aside.less ⟨rfl, rfl, rfl, rfl, rfl, rfl, fun _ _ _ _ h => h⟩)
  | pendingTimeout pid lid => exact h.less less_pendingTimeout
  | connectKnownPeer transport addr remotePubkey => exact wp_after.2 h.wp_connectKnownPeer
  | connected c ok => exact h.connected
  | msg1Sent c ok => exact h.less less_msg1Sent
  | resendMsg1 c => exact h.less less_resendMsg1
  | handshakeTimeout c => exact h.less less_handshakeTimeout
  | handshakeDone c => exact h.less less_handshakeDone
  | connectCleared c => exact h.less aside_connectCleared.less
  | transportDown addr =>
    dsimp only
    split
    · exact h.less less_transportDown
    · exact h
  | sendLinkMessage pid msgType payload => exact h.less (less_after less_sendLinkMessage)
  | sendHeartbeats => exact h.less less_sendHeartbeats
  | setBlockedPeerPubkeys next => exact h.less aside_setBlockedPeerPubkeys.less
  | session e => exact h.less aside_withManager.less
  | beginStart => exact h.less (Aside.less ⟨rfl, rfl, rfl, rfl, rfl, rfl, fun _ _ _ _ h => h⟩)
  | endStart ok =>
    refine h.less (Aside.less ?_)
    show Aside n (n.endStart ok)
    unfold FipsNode.endStart
    split
    · exact ⟨rfl, rfl, rfl, rfl, rfl, rfl, fun _ _ _ _ h => h⟩
    · exact ⟨rfl, rfl, rfl, rfl, rfl, rfl, fun _ _ _ _ h => h⟩
  | beginStop => exact h.less less_beginStop
  | closePeers =>
    have hclosing : Less S n { n with lifecycle := .closing } := Aside.less ⟨rfl, rfl, rfl, rfl, rfl, rfl, fun _ _ _ _ h => h⟩
    exact h.less (hclosing.trans (less_foldl (fun _ _ => less_closePeer) _ _))
  | forgetPeers => exact h.less less_forgetPeers

theorem Bound.run (h : Bound S False none n) (es : List (NodeEnv × Action)) :
    Bound S False none (Run.run (FipsNode.step S cfg) n es) := by
  induction es generalizing n with
  | nil => exact h
  | cons ea es ih => exact ih (h.step False.elim ea)

/-- In every state of every run, each link in use of a stored peer has been authenticated by the identity that the
peer is recorded under; a peer is stored under its own address, indexed by a key of its own identity, and by its
own node address, which is the node address of whoever has authenticated its links. -/
theorem carriers_authenticated (startupEpoch : Bytes) (nextFmpSessionIdx : Nat) (admission : PeerAdmission)
    (es : List (NodeEnv × Action)) :
    let n := Run.run (FipsNode.step S cfg) (FipsNode.new startupEpoch nextFmpSessionIdx admission) es
    (∀ e ∈ n.peers, e.1 = transportAddressKey (n.peer e.2).remoteAddr ∧ ∀ lid, n.Carries e.2 lid →
      (n.link lid).state = .established →
      ∃ pk, (n.link lid).remotePubkey = some pk ∧ SameIdentity pk (n.peer e.2).pubkey) ∧
    (∀ e ∈ n.peersByPubkey, SameIdentity e.1 (n.peer e.2).pubkey) ∧
    ∀ e ∈ n.peersByNodeAddr, e.1 = nodeAddrOf S (n.peer e.2).pubkey ∧ ∀ lid, n.Carries e.2 lid →
      (n.link lid).state = .established → ∃ pk, (n.link lid).remotePubkey = some pk ∧ nodeAddrOf S pk = e.1 := by
  intro n
  have h : Bound S False none n := bound_new.run es
  refine ⟨fun e he => ⟨h.own e he, fun lid hc hestablished => ?_⟩, fun e he => (h.byPubkey e he).2.2,
    fun e he => ⟨(h.byNodeAddr e he).2, fun lid hc hestablished => ?_⟩⟩
  · exact h.binds e.2 lid (.inl (List.mem_map_of_mem he)) hc (by rintro ⟨⟩) (.inl hestablished)
  · obtain ⟨pk, hpk, hsame⟩ := h.binds e.2 lid (.inr (.inl ⟨e.1, he⟩)) hc (by rintro ⟨⟩) (.inl hestablished)
    exact ⟨pk, hpk, hsame.nodeAddrOf_eq.trans (h.byNodeAddr e he).2.symm⟩

/-- While every carrier that waits for its confirmation is at an address of its own identity, no message is handed up as
another's: its link has been authenticated by the identity of the peer that it is handed up for. -/
theorem link_messages_attributed (startupEpoch : Bytes) (nextFmpSessionIdx : Nat) (admission : PeerAdmission)
    (es : List (NodeEnv × Action))
    (hown : Run.Along (fun n _ => n.OwnAddresses) (FipsNode.step S cfg) (FipsNode.new startupEpoch nextFmpSessionIdx admission) es)
    (pid : PeerId) (lid : LinkId) (msgType : Nat) (payload : Bytes)
    (hmem : .linkMessage pid lid msgType payload ∈
      (Run.run (FipsNode.step S cfg) (FipsNode.new startupEpoch nextFmpSessionIdx admission) es).log) :
    let n := Run.run (FipsNode.step S cfg) (FipsNode.new startupEpoch nextFmpSessionIdx admission) es
    ∃ pk, (n.link lid).remotePubkey = some pk ∧ SameIdentity pk (n.peer pid).pubkey := by
  intro n
  have h : Bound S True none n := hown.invariant (fun n ea h hown => h.step (fun _ => hown) ea) bound_new
  obtain ⟨pk, hpk, -, hsame⟩ := (h.logged trivial pid lid msgType payload hmem).remote
  exact ⟨pk, hpk, hsame⟩

/-- The stored peers at the addresses where carriers wait have the identities of the carriers. -/
theorem Bound.ownAddresses (h : Bound S drains none n)
    (hown : ∀ pid < n.objs.next, ∀ hid ∈ (n.peer pid).outgoingHandshake, ∀ c ∈ (n.handshakes.get hid).confirmCarrier,
      ∀ displaced ∈ n.peers.get (transportAddressKey c.remoteAddr), (n.peer displaced).pubkey = (n.peer pid).pubkey) :
    n.OwnAddresses := by
  intro hid c displaced hc hout hstored
  have hlive : n.Live c.peer := .inr (.inr (by rw [hout]; rfl))
  exact .inr (.inl (hown c.peer (h.live c.peer hlive) hid hout c hc displaced hstored))

theorem ownAddresses_along {es : List (NodeEnv × Action)}
    (h : ∀ k < es.length, (Run.run (FipsNode.step S cfg) n (es.take k)).OwnAddresses) :
    Run.Along (fun n _ => n.OwnAddresses) (FipsNode.step S cfg) n es := by
  induction es generalizing n with
  | nil => trivial
  | cons e es ih => exact ⟨h 0 (Nat.zero_lt_succ _), ih fun k hk => h (k + 1) (Nat.succ_lt_succ hk)⟩

/-- The handshake that the node dials, and the one that its peer dials afterwards. -/
def toyHandshakes : Except String (FmpHandshake × FmpHandshake) := do
  let dialed ← FmpChannel.toyHandshake
  let answered ← FmpLink.handshake toySuite (toyParty 2 13) (toyParty 1 14) (toyIdentity 1).publicKey 20 8 0 0
  return (dialed, answered)

theorem toyHandshakes_isSome : toyHandshakes.toOption.isSome = true := by decide +kernel

/-- The frames that a link seals of two messages. -/
def toyFrames (link : FmpLink) : Option (Bytes × Bytes) :=
  match (FmpLink.encryptOutgoing toySuite [1, 2, 3] 16 5).run link with
  | .ok first link => match (FmpLink.encryptOutgoing toySuite [4] 16 5).run link with
    | .ok second _ => some (first, second)
    | .error _ _ => none
  | .error _ _ => none

/-- A node that dials its peer and hears it, answers the peer's own dial and hears it over the new link, and
then hears what was sealed for the link that drains. -/
def toyArrivals (h : FmpHandshake × FmpHandshake) : List (NodeEnv × Action) :=
  let env (ephemeral : UInt8) := { PendingFmpResponders.toyNodeEnv with random := List.replicate 32 ephemeral }
  let arrives (frame : Bytes) := Action.packet 0 ⟨"udp", "a"⟩ frame
  let early := (toyFrames h.1.responder).getD ([], [])
  let late := (toyFrames h.2.initiator).getD ([], [])
  [(env 11, .beginStart), (env 11, .connectKnownPeer 0 ⟨"udp", "a"⟩ (3 :: List.replicate 32 2)),
    (env 11, .connected 0 true), (env 11, .msg1Sent 0 true), (env 11, arrives h.1.msg2),
    (env 11, .confirmationSent 0 none), (env 11, arrives early.1), (env 14, arrives h.2.msg1),
    (env 14, arrives late.1), (env 14, arrives early.2)]

/-- The run of the toy node up to each of its events. -/
def toyRun (h : FmpHandshake × FmpHandshake) (k : Nat) : FipsNode :=
  Run.run (FipsNode.step toySuite PendingFmpResponders.toyNodeConfig) (FipsNode.new (List.replicate 8 1) 7 ⟨[]⟩)
    ((toyArrivals h).take k)

theorem link_messages_attributed_toy : ∃ h, toyHandshakes = .ok h ∧
    let n := Run.run (FipsNode.step toySuite PendingFmpResponders.toyNodeConfig) (FipsNode.new (List.replicate 8 1) 7 ⟨[]⟩)
      (toyArrivals h)
    (n.peer 0).link = 1 ∧ .linkMessage 0 1 16 [1, 2, 3] ∈ n.log ∧
      (0 ∈ (n.peer 0).drainingResponderLinks.map fun e => e.2.link) ∧ .linkMessage 0 0 16 [4] ∈ n.log ∧
      ∃ pk, (n.link 0).remotePubkey = some pk ∧ SameIdentity pk (n.peer 0).pubkey := by
  refine ⟨toyHandshakes.toOption.get toyHandshakes_isSome, eq_ok_get toyHandshakes_isSome, ?_⟩
  intro n
  have hmem : .linkMessage 0 0 16 [4] ∈ n.log := by decide +kernel
  -- the carrier that the node dials waits at an address where only its own peer is stored
  have hown : ∀ k < (toyArrivals (toyHandshakes.toOption.get toyHandshakes_isSome)).length,
      let m := toyRun (toyHandshakes.toOption.get toyHandshakes_isSome) k
      ∀ pid < m.objs.next, ∀ hid ∈ (m.peer pid).outgoingHandshake, ∀ c ∈ (m.handshakes.get hid).confirmCarrier,
        ∀ displaced ∈ m.peers.get (transportAddressKey c.remoteAddr), (m.peer displaced).pubkey = (m.peer pid).pubkey := by
    decide +kernel
  have halong := ownAddresses_along fun k hk => (bound_new.run _).ownAddresses (hown k hk)
  refine ⟨by decide +kernel, by decide +kernel, by decide +kernel, hmem, ?_⟩
  exact link_messages_attributed _ _ _ _ halong 0 0 16 [4] hmem

end FipsNode

end Fips
