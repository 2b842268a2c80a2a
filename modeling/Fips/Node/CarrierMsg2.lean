import Fips.Node.CarrierMsg1

/-!
# Msg2, confirmation, and the identity of carriers

A Msg2 completes the initiator of one peer, and the first frame under it confirms the handshake. The peer
stored at the address of that Msg2 then gives way, and its links drain with the confirmed one: they stay
bound only if the two are of one identity.
-/

namespace Fips
open Exec

namespace FipsNode

variable {S : Suite} {cfg : NodeConfig} {env : NodeEnv} {drains : Prop} {n n' n'' : FipsNode} {pid q : PeerId} {lid : LinkId}

/-! ### What is kept -/

/-- The link may drain with the peer. -/
def MayDrain (n : FipsNode) (pid : PeerId) (lid : LinkId) : Prop :=
  lid < n.links.next ∧ (n.link lid).Binds (n.peer pid).pubkey

theorem MayDrain.kept (hd : n.MayDrain pid lid) (h : Kept n n') : n'.MayDrain pid lid := by
  refine ⟨h.nextLink ▸ hd.1, ?_⟩
  rw [h.pubkey]
  exact (h.links lid).binds hd.2

/-- What retiring a peer does to the handshakes of the others. -/
structure Retiring (n n' : FipsNode) : Prop where
  kept : Kept n n'
  outgoing : ∀ pid, (n'.peer pid).outgoingHandshake = (n.peer pid).outgoingHandshake

theorem Retiring.refl (n : FipsNode) : Retiring n n := ⟨.refl n, fun _ => rfl⟩

theorem Retiring.trans (h : Retiring n n') (h' : Retiring n' n'') : Retiring n n'' :=
  ⟨h.kept.trans h'.kept, fun pid => (h'.outgoing pid).trans (h.outgoing pid)⟩

theorem retiring_of_objs (hlinks : n'.links = n.links) (hobjs : n'.objs = n.objs) : Retiring n n' := by
  have hpeer : ∀ pid, n'.peer pid = n.peer pid := by
    intro pid
    unfold peer
    rw [hobjs]
  refine ⟨⟨fun lid => ?_, by rw [hlinks], by rw [hobjs], fun pid => by rw [hpeer]⟩, fun pid => by rw [hpeer]⟩
  unfold link
  rw [hlinks]
  exact .refl _

theorem retiring_closeLink : Retiring n (n.closeLink lid) := by
  refine ⟨⟨fun lid' => ?_, rfl, rfl, fun _ => rfl⟩, fun _ => rfl⟩
  show (n.link lid').Weaker ((n.links.modify lid FmpLink.close).get lid')
  rw [Heap.get_modify]
  split
  · exact FmpLink.weaker_close
  · exact .refl _

theorem retiring_modifyPeer {f : AdjacentPeer → AdjacentPeer} (hpubkey : ∀ p, (f p).pubkey = p.pubkey)
    (houtgoing : ∀ p, (f p).outgoingHandshake = p.outgoingHandshake) : Retiring n (n.modifyPeer pid f) := by
  have hpeer : ∀ q, (n.modifyPeer pid f).peer q = if q = pid then f (n.peer q) else n.peer q := by
    intro q
    show (n.objs.modify pid f).get q = _
    rw [Heap.get_modify]
    rfl
  refine ⟨⟨fun lid => .refl _, rfl, rfl, fun q => ?_⟩, fun q => ?_⟩
  · rw [hpeer]
    split
    · exact hpubkey _
    · rfl
  · rw [hpeer]
    split
    · exact houtgoing _
    · rfl

theorem retiring_takePending : Retiring n (n.takePending pid) := by
  have hmodified : Retiring n (n.modifyPeer pid fun p => { p with pendingResponderLink := none }) :=
    retiring_modifyPeer (fun _ => rfl) fun _ => rfl
  exact hmodified.trans (retiring_of_objs rfl rfl)

/-! ### Draining links -/

theorem retiring_drainAuthenticatedLink {expiresAtMs : ℚ} :
    Retiring n (PacketProcessor.drainAuthenticatedLink pid lid expiresAtMs n) := by
  unfold PacketProcessor.drainAuthenticatedLink
  dsimp only
  split
  · exact .refl n
  split
  · exact retiring_closeLink
  split
  · split
    · exact retiring_closeLink
    · exact retiring_modifyPeer (fun _ => rfl) fun _ => rfl
  · exact retiring_modifyPeer (fun _ => rfl) fun _ => rfl

theorem Bound.drainAuthenticatedLink (h : Bound S drains none n) (hdrain : drains → n.MayDrain pid lid) {expiresAtMs : ℚ} :
    Bound S drains none (PacketProcessor.drainAuthenticatedLink pid lid expiresAtMs n) := by
  unfold PacketProcessor.drainAuthenticatedLink
  dsimp only
  split
  · exact h
  split
  · exact h.less less_closeLink
  · rename_i hstate
    have hset : Bound S drains none (n.modifyPeer pid fun p => { p with
        drainingResponderLinks := p.drainingResponderLinks.set (n.link lid).localSessionIdx ⟨lid, expiresAtMs⟩ }) := by
      refine h.modifyPeer rfl (fun _ _ hsame => hsame) (fun _ hc => .inl ⟨hc, id⟩) (fun hdrains e he => ?_) id
        fun _ _ _ hx => hx
      rcases JsMap.mem_set he with rfl | hold
      · exact .inr ⟨(hdrain hdrains).1, ((h.keyed lid).established (not_not.1 hstate)).1, (hdrain hdrains).2⟩
      · exact .inl hold
    split
    · split
      · exact h.less less_closeLink
      · exact hset
    · exact hset

/-- Several links drain one after the other. -/
theorem Bound.drainLinks (h : Bound S drains none n) (entries : JsMap Nat DrainingLink)
    (hdrain : drains → ∀ e ∈ entries, n.MayDrain pid e.2.link) :
    Bound S drains none (entries.foldl (fun n e => PacketProcessor.drainAuthenticatedLink pid e.2.link e.2.expiresAtMs n) n) ∧
      Retiring n (entries.foldl (fun n e => PacketProcessor.drainAuthenticatedLink pid e.2.link e.2.expiresAtMs n) n) := by
  induction entries generalizing n with
  | nil => exact ⟨h, .refl n⟩
  | cons e entries ih =>
    have hfirst : Retiring n (PacketProcessor.drainAuthenticatedLink pid e.2.link e.2.expiresAtMs n) :=
      retiring_drainAuthenticatedLink
    obtain ⟨hbound, hrest⟩ := ih (h.drainAuthenticatedLink fun hdrains => hdrain hdrains e List.mem_cons_self)
      fun hdrains e' he' => (hdrain hdrains e' (List.mem_cons_of_mem e he')).kept hfirst.kept
    exact ⟨hbound, hfirst.trans hrest⟩

/-- The peer stored at the address of a confirmed Msg2 hands its links over. -/
theorem Bound.retireDisplaced (h : Bound S drains none n) {remoteAddr : TransportAddress}
    (hsame : drains → ∀ displaced, n.peers.get (transportAddressKey remoteAddr) = some displaced →
      (n.peer displaced).pubkey = [] ∨ SameIdentity (n.peer displaced).pubkey (n.peer pid).pubkey) :
    Bound S drains none (PacketProcessor.retireDisplacedMsg2Peer S env remoteAddr pid n) ∧
      Retiring n (PacketProcessor.retireDisplacedMsg2Peer S env remoteAddr pid n) := by
  unfold PacketProcessor.retireDisplacedMsg2Peer
  split
  · exact ⟨h, .refl n⟩
  rename_i displaced hdisplaced
  split
  · exact ⟨h, .refl n⟩
  have hlive : n.Live displaced := .inl (List.mem_map_of_mem (JsMap.mem_of_get hdisplaced))
  have hbinds : drains → ∀ lid, lid < n.links.next → (n.link lid).Binds (n.peer displaced).pubkey → n.MayDrain pid lid := by
    intro hdrains lid hlt hb
    refine ⟨hlt, fun hbound => ?_⟩
    obtain ⟨k, hk, hk'⟩ := hb hbound
    refine ⟨k, hk, ?_⟩
    rcases hsame hdrains displaced hdisplaced with hnil | hsame
    · rw [hnil] at hk'
      exact absurd rfl (hk'.ne_nil ((h.keyed lid).ne_nil hbound hk))
    · exact hk'.trans hsame
  have hcarried : drains → ∀ lid, n.Carries displaced lid → n.MayDrain pid lid := fun hdrains lid hc =>
    hbinds hdrains lid (h.known displaced lid hlive hc) (h.binds displaced lid hlive hc (by rintro ⟨⟩))
  -- every stage keeps the links bound, and the handshakes of the other peers
  let P : FipsNode → Prop := fun m => Bound S drains none m ∧ Retiring n m
  have hless : ∀ m m', P m → Less S m m' → Retiring m m' → P m' := fun m m' hm hless hretiring =>
    ⟨hm.1.less hless, hm.2.trans hretiring⟩
  have hdrain : ∀ m lid t, P m → (drains → n.MayDrain pid lid) → P (PacketProcessor.drainAuthenticatedLink pid lid t m) :=
    fun m lid t hm hmay => ⟨hm.1.drainAuthenticatedLink fun hdrains => (hmay hdrains).kept hm.2.kept,
      hm.2.trans retiring_drainAuthenticatedLink⟩
  have hpath : P { n with peers := n.peers.filter (·.2 ≠ displaced) } :=
    hless n _ ⟨h, .refl n⟩ (less_peers List.filter_sublist) (retiring_of_objs rfl rfl)
  have htaken : ∀ m, P m → P (m.takePending displaced) := fun m hm =>
    hless m _ hm less_takePending retiring_takePending
  have hpending : ∀ m (o : Option LinkId) t, P m → (drains → ∀ lid, o = some lid → n.MayDrain pid lid) →
      P (o.elim m fun lid => PacketProcessor.drainAuthenticatedLink pid lid t m) := by
    intro m o t hm hmay
    cases o with
    | none => exact hm
    | some lid => exact hdrain m lid t hm fun hdrains => hmay hdrains lid rfl
  have hentries : ∀ m, P m → P ((n.peer displaced).drainingResponderLinks.foldl
      (fun n e => PacketProcessor.drainAuthenticatedLink pid e.2.link e.2.expiresAtMs n) m) := by
    intro m hm
    have hmay : drains → ∀ e ∈ (n.peer displaced).drainingResponderLinks, m.MayDrain pid e.2.link := by
      intro hdrains e he
      obtain ⟨hlt, -, hb⟩ := h.drained hdrains displaced e hlive he
      exact (hbinds hdrains _ hlt hb).kept hm.2.kept
    obtain ⟨hbound, hretiring⟩ := hm.1.drainLinks _ hmay
    exact ⟨hbound, hm.2.trans hretiring⟩
  have hrejected : ∀ m error, P m → P (m.rejectOutgoing displaced error) := by
    intro m error hm
    have haside : Aside m (m.rejectOutgoing displaced error) := aside_rejectOutgoing
    exact hless m _ hm haside.less (retiring_of_objs haside.links haside.objs)
  have hindex : ∀ (m : FipsNode) (b : Prop) [Decidable b] (k : Bytes), P m →
      P (if b then { m with peersByPubkey := m.peersByPubkey.delete k } else m) := by
    intro m b _ k hm
    split
    · exact hless m _ hm (less_byPubkey fun e he => (JsMap.mem_delete.1 he).1) (retiring_of_objs rfl rfl)
    · exact hm
  have hforgotten : ∀ m, P m → P (m.forgetNodeAddr S displaced) := by
    intro m hm
    refine hless m _ hm less_forgetNodeAddr ?_
    unfold forgetNodeAddr
    split
    · exact .refl m
    split
    · exact retiring_of_objs rfl rfl
    · exact .refl m
  show P _
  refine hforgotten _ (hindex _ _ _ (hrejected _ _ (hentries _ (hpending _ _ _ (htaken _ (hdrain _ _ _ hpath ?_)) ?_))))
  · exact fun hdrains => hcarried hdrains _ (.inl rfl)
  · exact fun hdrains lid hp => hcarried hdrains lid (.inr hp)

/-! ### Confirmation -/

/-- Every carrier that waits for its confirmation is at an address of its own identity. -/
def OwnAddresses (n : FipsNode) : Prop :=
  ∀ hid c displaced, (n.handshakes.get hid).confirmCarrier = some c → (n.peer c.peer).outgoingHandshake = some hid →
    n.peers.get (transportAddressKey c.remoteAddr) = some displaced →
    (n.peer displaced).pubkey = [] ∨ SameIdentity (n.peer displaced).pubkey (n.peer c.peer).pubkey

/-- The carriers wait where they did. -/
structure SameCarriers (n n' : FipsNode) : Prop where
  peers : n'.peers = n.peers
  pubkey : ∀ pid, (n'.peer pid).pubkey = (n.peer pid).pubkey
  outgoing : ∀ pid, (n'.peer pid).outgoingHandshake = (n.peer pid).outgoingHandshake
  carrier : ∀ hid c, (n'.handshakes.get hid).confirmCarrier = some c → ∃ c₀, (n.handshakes.get hid).confirmCarrier = some c₀ ∧
    c.peer = c₀.peer ∧ c.remoteAddr = c₀.remoteAddr

theorem SameCarriers.trans (h : SameCarriers n n') (h' : SameCarriers n' n'') : SameCarriers n n'' := by
  refine ⟨h'.peers.trans h.peers, fun pid => (h'.pubkey pid).trans (h.pubkey pid),
    fun pid => (h'.outgoing pid).trans (h.outgoing pid), fun hid c hc => ?_⟩
  obtain ⟨c₁, hc₁, hpeer₁, haddr₁⟩ := h'.carrier hid c hc
  obtain ⟨c₀, hc₀, hpeer₀, haddr₀⟩ := h.carrier hid c₁ hc₁
  exact ⟨c₀, hc₀, hpeer₁.trans hpeer₀, haddr₁.trans haddr₀⟩

theorem OwnAddresses.same (ho : n.OwnAddresses) (h : SameCarriers n n') : n'.OwnAddresses := by
  intro hid c displaced hc hout hget
  obtain ⟨c₀, hc₀, hpeer, haddr⟩ := h.carrier hid c hc
  rw [hpeer, h.outgoing] at hout
  rw [haddr, h.peers] at hget
  rw [h.pubkey, h.pubkey, hpeer]
  exact ho hid c₀ displaced hc₀ hout hget

theorem peer_clearOutgoing : (n.clearOutgoing pid).peer q =
    if q = pid then { n.peer q with outgoingHandshake := none } else n.peer q := by
  show (n.objs.modify pid fun p => { p with outgoingHandshake := none }).get q = _
  rw [Heap.get_modify]
  rfl

theorem objs_rememberPeer : (PacketProcessor.rememberPeer S pid n).objs = n.objs := by
  have hnode : (n.rememberPeer S pid).objs = n.objs := by
    unfold rememberPeer
    split
    · rfl
    · rfl
  unfold PacketProcessor.rememberPeer
  split
  · rfl
  split
  · unfold PacketProcessor.rememberRemoteEpoch
    dsimp only
    split
    · exact hnode
    · exact hnode
  · exact hnode

/-- A peer with a key is reached once it has been remembered. -/
theorem indexed_rememberPeer (hne : (n.peer pid).pubkey ≠ []) :
    ∃ a, (a, pid) ∈ (PacketProcessor.rememberPeer S pid n).peersByNodeAddr := by
  have hnode : (nodeAddrOf S (n.peer pid).pubkey, pid) ∈ (n.rememberPeer S pid).peersByNodeAddr := by
    unfold rememberPeer
    rw [if_neg hne]
    refine JsMap.mem_of_get ?_
    rw [JsMap.get_set, if_pos rfl]
  refine ⟨nodeAddrOf S (n.peer pid).pubkey, ?_⟩
  unfold PacketProcessor.rememberPeer
  rw [if_neg hne]
  split
  · unfold PacketProcessor.rememberRemoteEpoch
    dsimp only
    split
    · exact hnode
    · exact hnode
  · exact hnode

/-- A confirmed handshake is over; no peer that had one is out of reach. -/
theorem Bound.wp_complete (h : Bound S drains none n) (hown : drains → n.OwnAddresses) {handshake : HandshakeId} :
    wp (PacketProcessor.complete S cfg env handshake)
      (fun _ n' => Bound S drains none n' ∧ Kept n n' ∧ ∀ q, (n.peer q).outgoingHandshake.isSome = true → n'.Live q)
      (fun _ n' => Bound S drains none n') n := by
  have hsame : Bound S drains none n ∧ Kept n n ∧ ∀ q, (n.peer q).outgoingHandshake.isSome = true → n.Live q :=
    ⟨h, .refl n, fun q ho => .inr (.inr ho)⟩
  unfold PacketProcessor.complete
  rw [wp_bind, wp_get]
  split
  · exact hsame
  rename_i c hc
  simp only [wp_bind, wp_ite, wp_pure, wp_lift, wp_set, wp_modify]
  refine ⟨fun _ => hsame, fun hready => ⟨fun _ _ => ⟨fun _ => hsame, fun _ => ?_⟩, fun _ _ => h⟩⟩
  have hout : (n.peer c.peer).outgoingHandshake = some handshake := by
    by_contra hne
    exact hready (.inr (.inl hne))
  obtain ⟨hretired, hretiring⟩ := @Bound.retireDisplaced S env drains n c.peer h c.remoteAddr
    fun hdrains displaced hget => hown hdrains handshake c displaced hc hout hget
  have hsome : ((PacketProcessor.retireDisplacedMsg2Peer S env c.remoteAddr c.peer n).peer c.peer).outgoingHandshake.isSome =
      true := by
    rw [hretiring.outgoing, hout]
    rfl
  have hremembered := @less_rememberPeer_processor S _ c.peer (.inr (.inr hsome))
  have hemitted := @aside_emitPeer cfg (PacketProcessor.rememberPeer S c.peer
    (PacketProcessor.retireDisplacedMsg2Peer S env c.remoteAddr c.peer n)) c.peer true
  have hsettled : ∀ m : FipsNode, Less S m ((m.settleHandshake handshake .resolved).clearOutgoing c.peer) :=
    fun m => aside_settleHandshake.less.trans less_clearOutgoing
  have hless := (hremembered.trans hemitted.less).trans (hsettled _)
  refine ⟨hretired.less hless, hretiring.kept.trans hless.kept, fun q ho => ?_⟩
  by_cases heq : q = c.peer
  · obtain ⟨a, ha⟩ := @indexed_rememberPeer S _ c.peer (hretired.dialed c.peer hsome)
    rw [heq]
    rw [← hemitted.byNodeAddr] at ha
    exact .inr (.inl ⟨a, ha⟩)
  · refine .inr (.inr ?_)
    rw [peer_clearOutgoing, if_neg heq]
    rw [← hretiring.outgoing] at ho
    have hobjs := hemitted.objs.trans objs_rememberPeer
    unfold peer at ho ⊢
    rw [← hobjs] at ho
    exact ho

theorem aside_handshakes {handshakes : Heap OutgoingHandshake} : Aside n { n with handshakes := handshakes } :=
  ⟨rfl, rfl, rfl, rfl, rfl, rfl, fun _ _ _ _ h => h⟩

/-- The flags of a carrier do not move it. -/
theorem sameCarriers_handshakes {hid : HandshakeId} {f : OutgoingHandshake → OutgoingHandshake}
    (hf : ∀ c, (f (n.handshakes.get hid)).confirmCarrier = some c → ∃ c₀, (n.handshakes.get hid).confirmCarrier = some c₀ ∧
      c.peer = c₀.peer ∧ c.remoteAddr = c₀.remoteAddr) :
    SameCarriers n { n with handshakes := n.handshakes.modify hid f } := by
  refine ⟨rfl, fun _ => rfl, fun _ => rfl, fun hid' c hc => ?_⟩
  have hget : (n.handshakes.modify hid f).get hid' = if hid' = hid then f (n.handshakes.get hid') else n.handshakes.get hid' :=
    Heap.get_modify
  have hc' : ((n.handshakes.modify hid f).get hid').confirmCarrier = some c := hc
  rw [hget] at hc'
  by_cases heq : hid' = hid
  · rw [if_pos heq, heq] at hc'
    rw [heq]
    exact hf c hc'
  · rw [if_neg heq] at hc'
    exact ⟨c, hc', rfl, rfl⟩

theorem Bound.wp_confirmCarrier (h : Bound S drains none n) (hown : drains → n.OwnAddresses) {handshake : HandshakeId} :
    wp (PacketProcessor.confirmCarrier S cfg env handshake)
      (fun _ n' => Bound S drains none n' ∧ Kept n n' ∧ ∀ q, (n.peer q).outgoingHandshake.isSome = true → n'.Live q)
      (fun _ n' => Bound S drains none n') n := by
  let n₁ : FipsNode := { n with handshakes := n.handshakes.modify handshake fun h =>
    { h with confirmCarrier := h.confirmCarrier.map fun c => { c with confirmationReceived := true } } }
  have hsame : SameCarriers n n₁ := by
    refine sameCarriers_handshakes fun c hc => ?_
    obtain ⟨c₀, hc₀, rfl⟩ := Option.map_eq_some_iff.1 hc
    exact ⟨c₀, hc₀, rfl, rfl⟩
  have haside : Aside n n₁ := aside_handshakes
  unfold PacketProcessor.confirmCarrier
  rw [wp_bind, wp_modify]
  refine wp_mono ((h.less haside.less).wp_complete fun hdrains => (hown hdrains).same hsame) (fun _ n' hn' => ?_)
    fun _ _ he => he
  exact ⟨hn'.1, (haside.less (S := S)).kept.trans hn'.2.1, hn'.2.2⟩

theorem aside_rejectConfirmation {handshake : HandshakeId} {error : String} :
    Aside n (PacketProcessor.rejectConfirmation handshake error n) := by
  unfold PacketProcessor.rejectConfirmation
  split
  · split
    · exact aside_settleHandshake
    · exact .refl n
  · exact .refl n

/-- A call of a link that keeps what the link knows of its remote. -/
theorem wp_onLink_weaker {α : Type} {x : EStateM String FmpLink α}
    (hx : wp x (fun _ => (n.link lid).Weaker) (fun _ => (n.link lid).Weaker) (n.link lid)) :
    wp (onLink lid x) (fun _ n' => ∃ l, (n.link lid).Weaker l ∧ n' = n.modifyLink lid fun _ => l)
      (fun _ n' => ∃ l, (n.link lid).Weaker l ∧ n' = n.modifyLink lid fun _ => l) n := by
  unfold onLink
  rw [wp_zoom]
  exact wp_mono hx (fun _ l hl => ⟨l, hl, rfl⟩) fun _ l hl => ⟨l, hl, rfl⟩

theorem less_sendConfirmation : wp (PacketProcessor.sendConfirmation S env pid lid) (fun _ n' => Less S n n')
    (fun _ n' => Less S n n') n := by
  unfold PacketProcessor.sendConfirmation assertPeerAllowed
  simp only [wp_bind, wp_get, wp_lift]
  refine ⟨fun _ _ => ?_, fun _ _ => .refl n⟩
  refine wp_mono (wp_onLink_weaker FmpLink.weaker_encryptOutgoing) (fun frame n' hn' => ?_) fun e n' hn' => ?_
  · obtain ⟨l, hl, rfl⟩ := hn'
    rw [wp_modify]
    exact (less_modifyLink hl).trans (aside_record (by rintro _ _ _ _ ⟨⟩)).less
  · obtain ⟨l, hl, rfl⟩ := hn'
    exact less_modifyLink hl

theorem less_confirmOutgoingHandshake {remoteAddr : TransportAddress} :
    Less S n (PacketProcessor.confirmOutgoingHandshake S env pid remoteAddr n) := by
  unfold PacketProcessor.confirmOutgoingHandshake
  split
  · exact .refl n
  · have hsent := @less_sendConfirmation S env n pid (n.peer pid).link
    rw [wp_iff] at hsent
    dsimp only
    split
    · rename_i hrun
      exact (hsent.1 _ _ hrun).trans aside_handshakes.less
    · rename_i hrun
      exact ((hsent.2 _ _ hrun).trans aside_handshakes.less).trans aside_rejectConfirmation.less

theorem Bound.confirmationSent (h : Bound S drains none n) (hown : drains → n.OwnAddresses) {handshake : HandshakeId}
    {error : Option String} : Bound S drains none (PacketProcessor.confirmationSent S cfg env handshake error n) := by
  unfold PacketProcessor.confirmationSent
  split
  · rename_i c hc
    split
    · dsimp only
      let n₁ : FipsNode := { n with handshakes := n.handshakes.modify handshake fun h =>
        { h with confirmCarrier := some { c with sending := false, confirmationSent := error.isNone } } }
      have hsame : SameCarriers n n₁ := by
        refine sameCarriers_handshakes fun c' hc' => ⟨c, hc, ?_⟩
        cases hc'
        exact ⟨rfl, rfl⟩
      have hbound : Bound S drains none n₁ := h.less aside_handshakes.less
      cases error with
      | some error => exact hbound.less aside_rejectConfirmation.less
      | none =>
        have hcomplete := @Bound.wp_complete S cfg env drains n₁ hbound (fun hdrains => (hown hdrains).same hsame) handshake
        rw [wp_iff] at hcomplete
        dsimp only
        split
        · rename_i hrun
          exact (hcomplete.1 _ _ hrun).1
        · rename_i hrun
          exact (hcomplete.2 _ _ hrun).less aside_rejectConfirmation.less
    · exact h
  · exact h

/-! ### Msg2 -/

theorem less_ignoreMsg2 {addressed : Option PeerId} {receiverIdx : Nat} :
    Less S n (PacketProcessor.ignoreMsg2 addressed receiverIdx n) := by
  unfold PacketProcessor.ignoreMsg2
  split
  · split
    · exact less_modifyPeer rfl rfl (fun _ h => h) (fun _ h => h) id
    · exact .refl n
  · exact .refl n

theorem less_rejectRetiredMsg2Peer : Less S n (PacketProcessor.rejectRetiredMsg2Peer S pid n) := by
  have hpath : Less S n { n.closeLink (n.peer pid).link with
      peers := (n.closeLink (n.peer pid).link).peers.filter (·.2 ≠ pid) } :=
    less_closeLink.trans (less_peers List.filter_sublist)
  have hend : ∀ m : FipsNode, Less S m ((m.rejectOutgoing pid "remote FIPS peer replied from a retired startup epoch").clearOutgoing
      pid) := fun m => aside_rejectOutgoing.less.trans less_clearOutgoing
  unfold PacketProcessor.rejectRetiredMsg2Peer
  dsimp only
  refine Less.trans ?_ (hend _)
  split
  · rename_i alternate halternate
    exact hpath.trans (less_rememberPeer_processor (.inl (List.mem_of_find?_eq_some halternate)))
  · refine hpath.trans (Less.trans ?_ less_forgetNodeAddr)
    split
    · exact less_byPubkey fun e he => (JsMap.mem_delete.1 he).1
    · exact .refl _

/-- The peer that has received the Msg2 stays at its address. -/
theorem less_replaceRestartedByMsg2 (hlive : n.Live pid) {handshake : Option HandshakeId} :
    Less S n (PacketProcessor.replaceRestartedByMsg2 S cfg pid handshake n) := by
  have hremoved : Less S n (PacketProcessor.removeRestartedPeerPaths S cfg (n.peer pid).pubkey (n.peer pid).link handshake n) :=
    less_removeRestartedPeerPaths
  unfold PacketProcessor.replaceRestartedByMsg2
  refine { hremoved with live := ?_, nodup := fun hn => (hremoved.nodup hn).set _ _, peers := ?_ }
  · rintro q (hvalue | haddr | ho)
    · obtain ⟨e, he, rfl⟩ := List.mem_map.1 hvalue
      rcases JsMap.mem_set he with rfl | hold
      · exact hlive
      · exact hremoved.live _ (.inl (List.mem_map_of_mem hold))
    · exact hremoved.live q (.inr (.inl haddr))
    · exact hremoved.live q (.inr (.inr ho))
  · intro e he
    rcases JsMap.mem_set he with rfl | hold
    · rw [hremoved.remoteAddr]
      exact .inr rfl
    · exact hremoved.peers e hold

theorem of_matchMsg2Peer {receiverIdx : Nat} (h : PacketProcessor.matchMsg2Peer receiverIdx n = some pid) :
    pid ∈ n.values ∧ (n.link (n.peer pid).link).role = .initiator := by
  unfold PacketProcessor.matchMsg2Peer at h
  split at h
  · rename_i c hfound
    cases h
    have hmem := List.mem_singleton.2 (Eq.refl pid)
    rw [← hfound] at hmem
    obtain ⟨hvalue, hwaits⟩ := List.mem_filter.1 hmem
    rw [decide_eq_true_eq] at hwaits
    exact ⟨List.mem_dedup.1 hvalue, hwaits.2.1⟩
  · cases h

/-- A Msg2 tells nothing new of the remote: the initiator was made for its key. -/
theorem Bound.answered (h : Bound S drains none n) (hvalue : pid ∈ n.values) (hlink : (n.peer pid).link = lid)
    (hrole : (n.link lid).role = .initiator) :
    Bound S drains none (n.modifyPeer pid fun p => { p with pubkey := (n.link lid).remotePubkey.getD [] }) := by
  obtain ⟨pk, hpk, hsame⟩ := h.binds pid lid (.inl hvalue) (.inl hlink) (by rintro ⟨⟩) (.inr hrole)
  refine h.modifyPeer rfl (fun k _ hk => ?_) (fun _ hc => .inl ⟨hc, id⟩) (fun _ _ he => .inl he) id fun _ _ _ hx => hx
  show SameIdentity k ((n.link lid).remotePubkey.getD [])
  rw [hpk]
  exact hk.trans hsame.symm

theorem Bound.wp_handleMsg2 (h : Bound S drains none n) {remoteAddr : TransportAddress} {addressed : Option PeerId}
    {packet : Bytes} :
    wp (PacketProcessor.handleMsg2 S cfg env remoteAddr addressed packet) (fun _ n' => Bound S drains none n')
      (fun _ n' => Bound S drains none n') n := by
  unfold PacketProcessor.handleMsg2
  simp only [wp_bind, wp_lift, wp_get]
  refine ⟨fun msg2 _ => ?_, fun _ _ => h⟩
  split
  · exact h.less less_ignoreMsg2
  rename_i pid hmatch
  obtain ⟨hvalue, hrole⟩ := of_matchMsg2Peer hmatch
  simp only [wp_bind]
  refine wp_mono (wp_onLink_weaker FmpLink.weaker_handleMsg2) (fun _ n₁ hn₁ => ?_) fun _ n₁ hn₁ => ?_
  · obtain ⟨l, hl, rfl⟩ := hn₁
    have hless : Less S n (n.modifyLink (n.peer pid).link fun _ => l) := less_modifyLink hl
    have hanswered := (h.less hless).answered hvalue rfl ((hless.links _).role.trans hrole)
    have hconfirmed : ∀ m : FipsNode, Bound S drains none m →
        Bound S drains none (PacketProcessor.confirmOutgoingHandshake S env pid remoteAddr m) :=
      fun m hm => hm.less less_confirmOutgoingHandshake
    have hreplaced : ∀ (m : FipsNode) (hid : Option HandshakeId), m.Live pid → Bound S drains none m →
        Bound S drains none (PacketProcessor.replaceRestartedByMsg2 S cfg pid hid m) :=
      fun m hid hlive hm => hm.less (less_replaceRestartedByMsg2 hlive)
    unfold assertPeerAllowed
    simp only [wp_bind, wp_get, wp_lift, wp_modify, wp_ite, wp_pure]
    refine ⟨fun _ _ => ⟨fun _ => ⟨fun _ => hanswered.less less_rejectRetiredMsg2Peer, fun _ => ?_⟩, fun _ => ?_⟩, fun _ _ => hanswered⟩
    · exact ⟨fun _ => hconfirmed _ (hreplaced _ _ (.inl hvalue) hanswered), fun _ => hreplaced _ _ (.inl hvalue) hanswered⟩
    · exact ⟨fun _ => hconfirmed _ hanswered, fun _ => hanswered⟩
  · obtain ⟨l, hl, rfl⟩ := hn₁
    exact h.less (less_modifyLink hl)

end FipsNode

end Fips
