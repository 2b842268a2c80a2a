import Fips.Node.CarrierMsg2

/-!
# Frames and the identity of their links

A frame is opened under a link of one peer, and its message is handed to the routing layer as that peer's.
The link has been authenticated by the identity of the peer, a draining one as long as carriers are confirmed
at addresses of their own.
-/

namespace Fips
open Exec

namespace FipsNode

variable {S : Suite} {cfg : NodeConfig} {env : NodeEnv} {drains : Prop} {n n' : FipsNode} {pid : PeerId} {lid : LinkId}

/-! ### The search for a link -/

theorem foldl_closeLink (draining : JsMap Nat DrainingLink) (n : FipsNode) :
    ∃ links, draining.foldl (fun n e => n.closeLink e.2.link) n = { n with links := links } := by
  induction draining generalizing n with
  | nil => exact ⟨n.links, rfl⟩
  | cons e draining ih =>
    obtain ⟨links, heq⟩ := ih (n.closeLink e.2.link)
    exact ⟨links, heq⟩

theorem sameCarriers_of_eq (hpeers : n'.peers = n.peers) (hobjs : n'.objs = n.objs) (hhandshakes : n'.handshakes = n.handshakes) :
    SameCarriers n n' := by
  have hpeer : ∀ pid, n'.peer pid = n.peer pid := by
    intro pid
    unfold peer
    rw [hobjs]
  refine ⟨hpeers, fun pid => by rw [hpeer], fun pid => by rw [hpeer], fun hid c hc => ⟨c, ?_, rfl, rfl⟩⟩
  rw [← hhandshakes]
  exact hc

theorem sameCarriers_pruneDraining {nowMs : ℚ} : SameCarriers n (n.pruneDrainingResponderLinks pid nowMs) := by
  unfold pruneDrainingResponderLinks
  dsimp only
  obtain ⟨links, heq⟩ := foldl_closeLink ((n.peer pid).drainingResponderLinks.filter fun e => e.2.expiresAtMs ≤ nowMs) n
  rw [heq]
  have hretiring : Retiring n (n.modifyPeer pid fun p =>
      { p with drainingResponderLinks := p.drainingResponderLinks.filter fun e => ¬ e.2.expiresAtMs ≤ nowMs }) :=
    retiring_modifyPeer (fun _ => rfl) fun _ => rfl
  exact ⟨rfl, hretiring.kept.pubkey, hretiring.outgoing, fun hid c hc => ⟨c, hc, rfl, rfl⟩⟩

theorem mem_matchPeerLinks {receiverIdx : Nat} {x : LinkMatch} (hx : x ∈ PacketProcessor.matchPeerLinks receiverIdx n pid) :
    x.peer = pid ∧ (n.Carries pid x.link ∨
      x.promotePending = false ∧ ∃ e ∈ (n.peer pid).drainingResponderLinks, e.2.link = x.link) := by
  unfold PacketProcessor.matchPeerLinks at hx
  dsimp only at hx
  rcases List.mem_append.1 hx with hx | hx
  · rcases List.mem_append.1 hx with hx | hx
    · split at hx
      · rw [List.mem_singleton.1 hx]
        exact ⟨rfl, .inl (.inl rfl)⟩
      · cases hx
    · obtain ⟨lid, hlid, rfl⟩ := Option.map_eq_some_iff.1 (Option.mem_toList.1 hx)
      exact ⟨rfl, .inl (.inr (Option.filter_eq_some_iff.1 hlid).1)⟩
  · obtain ⟨d, hd, rfl⟩ := Option.map_eq_some_iff.1 (Option.mem_toList.1 hx)
    exact ⟨rfl, .inr ⟨rfl, (receiverIdx, d), JsMap.mem_of_get hd, rfl⟩⟩

/-- A link found for a frame is of a stored peer, and bound to it if it carries it. -/
def Finds (drains : Prop) (n : FipsNode) (x : LinkMatch) : Prop :=
  x.peer ∈ n.values ∧ (x.promotePending = true ∨ drains → n.MayDrain x.peer x.link)

theorem Bound.finds (h : Bound S drains none n) (hvalue : pid ∈ n.values) {receiverIdx : Nat} {x : LinkMatch}
    (hx : x ∈ PacketProcessor.matchPeerLinks receiverIdx n pid) : Finds drains n x := by
  obtain ⟨rfl, hlink⟩ := mem_matchPeerLinks hx
  refine ⟨hvalue, fun hwhen => ?_⟩
  rcases hlink with hc | ⟨hfalse, e, he, heq⟩
  · exact ⟨h.known _ _ (.inl hvalue) hc, h.binds _ _ (.inl hvalue) hc (by rintro ⟨⟩)⟩
  · rcases hwhen with htrue | hdrains
    · rw [hfalse] at htrue
      cases htrue
    · obtain ⟨hlt, -, hb⟩ := h.drained hdrains x.peer e (.inl hvalue) he
      rw [← heq]
      exact ⟨hlt, hb⟩

/-- The search has closed links only, and found links of stored peers. -/
structure Searched (S : Suite) (drains : Prop) (n : FipsNode) (acc : JsMap LinkId LinkMatch × FipsNode) : Prop where
  bound : Bound S drains none acc.2
  less : Less S n acc.2
  same : SameCarriers n acc.2
  found : ∀ e ∈ acc.1, Finds drains acc.2 e.2

theorem Searched.step {acc : JsMap LinkId LinkMatch × FipsNode} (h : Searched S drains n acc) (hvalue : pid ∈ n.values)
    {receiverIdx : Nat} {nowMs : ℚ} : Searched S drains n (PacketProcessor.matchStep receiverIdx nowMs acc pid) := by
  have hprune : Less S acc.2 (acc.2.pruneDrainingResponderLinks pid nowMs) := less_pruneDraining
  have hsame : SameCarriers acc.2 (acc.2.pruneDrainingResponderLinks pid nowMs) := sameCarriers_pruneDraining
  have hvalues : (acc.2.pruneDrainingResponderLinks pid nowMs).values = n.values := by
    unfold values
    rw [hsame.peers, h.same.peers]
  have hbound := h.bound.less hprune
  refine ⟨hbound, h.less.trans hprune, h.same.trans hsame, ?_⟩
  have hset : ∀ (xs : List LinkMatch) (found : JsMap LinkId LinkMatch),
      (∀ x ∈ xs, Finds drains (acc.2.pruneDrainingResponderLinks pid nowMs) x) →
      (∀ e ∈ found, Finds drains (acc.2.pruneDrainingResponderLinks pid nowMs) e.2) →
      ∀ e ∈ xs.foldl (fun found x => found.set x.link x) found,
        Finds drains (acc.2.pruneDrainingResponderLinks pid nowMs) e.2 := by
    intro xs
    induction xs with
    | nil => exact fun found _ hfound => hfound
    | cons x xs ih =>
      intro found hxs hfound
      refine ih (found.set x.link x) (fun y hy => hxs y (List.mem_cons_of_mem x hy)) fun e he => ?_
      rcases JsMap.mem_set he with rfl | hold
      · exact hxs x List.mem_cons_self
      · exact hfound e hold
  refine hset _ _ (fun x hx => hbound.finds (hvalues ▸ hvalue) hx) fun e he => ?_
  obtain ⟨hstored, hmay⟩ := h.found e he
  refine ⟨?_, fun hwhen => (hmay hwhen).kept hprune.kept⟩
  unfold values at hstored ⊢
  rw [hsame.peers]
  exact hstored

theorem Bound.wp_matchEstablishedLink (h : Bound S drains none n) {receiverIdx : Nat} {nowMs : ℚ} :
    wp (PacketProcessor.matchEstablishedLink receiverIdx nowMs)
      (fun r n' => Less S n n' ∧ SameCarriers n n' ∧ ∀ x, r = some x → Finds drains n' x) (fun _ n' => Less S n n') n := by
  have hfold : ∀ (pids : List PeerId) (acc : JsMap LinkId LinkMatch × FipsNode), (∀ pid ∈ pids, pid ∈ n.values) →
      Searched S drains n acc → Searched S drains n (pids.foldl (PacketProcessor.matchStep receiverIdx nowMs) acc) := by
    intro pids
    induction pids with
    | nil => exact fun acc _ hacc => hacc
    | cons pid pids ih =>
      exact fun acc hpids hacc => ih _ (fun q hq => hpids q (List.mem_cons_of_mem pid hq)) (hacc.step (hpids pid List.mem_cons_self))
  have hstart : Searched S drains n ([], n) := ⟨h, .refl n, sameCarriers_of_eq rfl rfl rfl, by rintro _ ⟨⟩⟩
  obtain ⟨-, hless, hsame, hfound⟩ := hfold n.values.dedup ([], n) (fun pid hpid => List.mem_dedup.1 hpid) hstart
  unfold PacketProcessor.matchEstablishedLink
  rw [wp_bind, wp_get]
  dsimp only
  simp only [wp_bind, wp_set, wp_ite, wp_throw, wp_pure]
  refine ⟨fun _ => hless, fun _ => ⟨hless, hsame, fun x hx => ?_⟩⟩
  obtain ⟨e, he, rfl⟩ := Option.map_eq_some_iff.1 hx
  exact hfound e (List.mem_of_head? he)

/-! ### The frame -/

/-- Whoever opens a frame under the link holds the key of an identity. -/
theorem Bound.wp_receiveFmpLinkPacket (h : Bound S drains none n) {may : Prop} (hmay : may → n.MayDrain pid lid)
    (hpid : pid < n.objs.next) {packet : Bytes} :
    wp (PacketProcessor.receiveFmpLinkPacket S env pid lid packet)
      (fun _ n' => Less S n n' ∧ SameCarriers n n' ∧ (may → n'.Attributed pid lid)) (fun _ n' => Less S n n') n := by
  unfold PacketProcessor.receiveFmpLinkPacket PacketProcessor.receiverReportFor
  rw [wp_bind]
  unfold onLink
  rw [wp_zoom]
  refine wp_mono FmpLink.weaker_decryptIncoming (fun received l hl => ?_) fun _ l hl => less_modifyLink hl
  obtain ⟨hweaker, hestablished⟩ := hl
  have hless : Less S n (n.modifyLink lid fun _ => l) := less_modifyLink hweaker
  have hself : (n.modifyLink lid fun _ => l).link lid = l := by
    show (n.links.modify lid fun _ => l).get lid = l
    rw [Heap.get_modify_self]
  have hattributed : may → (n.modifyLink lid fun _ => l).Attributed pid lid := by
    intro hm
    obtain ⟨hnone, pk, hpk, hlen⟩ := (hweaker.keyed (h.keyed lid)).established hestablished
    obtain ⟨k, hk, hsame⟩ := hweaker.binds (hmay hm).2 (.inl hestablished)
    rw [hpk] at hk
    cases hk
    refine ⟨hpid, (hmay hm).1, ?_, pk, ?_, hlen, hsame⟩
    · rw [hself]
      exact hnone
    · rw [hself]
      exact hpk
  have hopened : Less S n (n.modifyLink lid fun _ => l) ∧ SameCarriers n (n.modifyLink lid fun _ => l) ∧
      (may → (n.modifyLink lid fun _ => l).Attributed pid lid) := ⟨hless, sameCarriers_of_eq rfl rfl rfl, hattributed⟩
  have hnext : ∀ m m' : FipsNode, (Less S n m ∧ SameCarriers n m ∧ (may → m.Attributed pid lid)) → Less S m m' →
      SameCarriers m m' → Less S n m' ∧ SameCarriers n m' ∧ (may → m'.Attributed pid lid) := fun m m' hm hless' hsame' =>
    ⟨hm.1.trans hless', hm.2.1.trans hsame', fun hwhen => (hm.2.2 hwhen).kept hless'.kept⟩
  simp only [wp_bind, wp_get, wp_ite, wp_set, wp_pure]
  refine ⟨fun _ => ?_, fun _ => hopened⟩
  have hreport : Less S (n.modifyLink lid fun _ => l) ((n.modifyLink lid fun _ => l).modifyLink lid fun _ =>
      (FmpLink.receiverReportFor received.2 env.nowMs ((n.modifyLink lid fun _ => l).link lid)).2) :=
    less_modifyLink FmpLink.weaker_receiverReportFor
  have hreported := hnext _ _ hopened hreport (sameCarriers_of_eq rfl rfl rfl)
  split
  · rw [wp_bind, wp_zoom]
    refine wp_mono FmpLink.weaker_encryptOutgoing (fun frame l' hl' => ?_) fun _ l' hl' => ?_
    · have haside : ∀ m : FipsNode, Aside m ({ m with pendingReports := m.pendingReports ++ [lid] } : FipsNode) :=
        fun m => ⟨rfl, rfl, rfl, rfl, rfl, rfl, fun _ _ _ _ h => h⟩
      have hsent := hnext _ _ hreported (less_modifyLink (f := fun _ => l') hl') (sameCarriers_of_eq rfl rfl rfl)
      refine hnext _ _ hsent ((haside _).trans (aside_record ?_)).less (sameCarriers_of_eq rfl rfl rfl)
      rintro _ _ _ _ ⟨⟩
    · exact hreported.1.trans (less_modifyLink (f := fun _ => l') hl')
  · exact hreported

/-- A frame has confirmed the pending responder. -/
theorem Bound.promotePendingLink (h : Bound S drains none n) (hlive : n.Live pid) (ha : n.Attributed pid lid) :
    Bound S drains none (PacketProcessor.promotePendingLink S cfg env pid lid n) ∧
      Kept n (PacketProcessor.promotePendingLink S cfg env pid lid n) := by
  let n₁ := n.modifyPeer pid fun p => { p with link := lid }
  have hmodified : Bound S drains none n₁ := by
    refine h.modifyPeer rfl (fun _ _ hsame => hsame) (fun lid' hc => ?_) (fun _ _ he => .inl he) id fun _ _ _ hx => hx
    rcases hc with hlink | hpending
    · have heq : lid = lid' := hlink
      rw [← heq]
      obtain ⟨pk, hpk, -, hsame⟩ := ha.remote
      exact .inr ⟨ha.link, .inr fun _ => ⟨pk, hpk, hsame⟩, .inl ha.hs⟩
    · exact .inl ⟨.inr hpending, id⟩
  have hmoved : Retiring n n₁ := retiring_modifyPeer (fun _ => rfl) fun _ => rfl
  have hretiring : Retiring n (n₁.takePending pid) := hmoved.trans retiring_takePending
  have htaken : Bound S drains none (n₁.takePending pid) := hmodified.less less_takePending
  have hlive' : (n₁.takePending pid).Live pid := by
    rcases hlive with hvalue | haddr | ho
    · exact .inl hvalue
    · exact .inr (.inl haddr)
    · refine .inr (.inr ?_)
      rw [hretiring.outgoing]
      exact ho
  unfold PacketProcessor.promotePendingLink
  dsimp only
  split
  · have hprevious : drains → n.MayDrain pid (n.peer pid).link := fun _ =>
      ⟨h.known pid _ hlive (.inl rfl), h.binds pid _ hlive (.inl rfl) (by rintro ⟨⟩)⟩
    exact ⟨htaken.drainAuthenticatedLink fun hdrains => (hprevious hdrains).kept hretiring.kept,
      (hretiring.trans retiring_drainAuthenticatedLink).kept⟩
  · have hremembered : Less S (n₁.takePending pid) (PacketProcessor.rememberPeer S pid
        ((n₁.takePending pid).closeLink (n.peer pid).link)) :=
      less_closeLink.trans (less_rememberPeer_processor hlive')
    have hemitted : ∀ m : FipsNode, Less S m (m.emitPeer cfg pid true) := fun m => aside_emitPeer.less
    have hless := hremembered.trans (hemitted _)
    exact ⟨htaken.less hless, hretiring.kept.trans hless.kept⟩

theorem Bound.linkMessage (h : Bound S drains none n) (ha : drains → n.Attributed pid lid) {msgType : Nat} {payload : Bytes} :
    Bound S drains none (n.record (.linkMessage pid lid msgType payload)) := by
  refine { h with logged := fun hdrains q lid' msgType' payload' hmem => ?_ }
  rcases List.mem_append.1 hmem with hold | hnew
  · obtain ⟨hpeer, hlink, hhs, hremote⟩ := h.logged hdrains q lid' msgType' payload' hold
    exact ⟨hpeer, hlink, hhs, hremote⟩
  · cases List.mem_singleton.1 hnew
    obtain ⟨hpeer, hlink, hhs, hremote⟩ := ha hdrains
    exact ⟨hpeer, hlink, hhs, hremote⟩

theorem Bound.wp_handleEstablished (h : Bound S drains none n) (hown : drains → n.OwnAddresses) {packet : Bytes} :
    wp (PacketProcessor.handleEstablished S cfg env packet) (fun _ n' => Bound S drains none n')
      (fun _ n' => Bound S drains none n') n := by
  unfold PacketProcessor.handleEstablished
  simp only [wp_bind, wp_lift]
  refine ⟨fun _ _ => ?_, fun _ _ => h⟩
  refine wp_mono h.wp_matchEstablishedLink (fun found n₁ hn₁ => ?_) fun _ _ he => h.less he
  obtain ⟨hless₁, hsame₁, hfound⟩ := hn₁
  have hbound₁ := h.less hless₁
  cases found with
  | none => exact hbound₁
  | some found =>
    obtain ⟨hvalue, hmay⟩ := hfound found rfl
    unfold assertPeerAllowed
    simp only [wp_bind, wp_get, wp_lift]
    refine ⟨fun _ _ => ?_, fun _ _ => hbound₁⟩
    refine wp_mono (hbound₁.wp_receiveFmpLinkPacket hmay (hbound₁.live found.peer (.inl hvalue))) (fun received n₂ hn₂ => ?_)
      fun _ _ he => hbound₁.less he
    obtain ⟨hless₂, hsame₂, hattributed⟩ := hn₂
    have hbound₂ := hbound₁.less hless₂
    have hown₂ : drains → n₂.OwnAddresses := fun hdrains => ((hown hdrains).same hsame₁).same hsame₂
    have hvalue₂ : found.peer ∈ n₂.values := by
      unfold values at hvalue ⊢
      rw [hsame₂.peers]
      exact hvalue
    -- what is left once the handshake of the peer, if it had one, has been confirmed
    have hend : ∀ m : FipsNode, Bound S drains none m → m.Live found.peer → Kept n₂ m →
        (found.promotePending = true → Bound S drains none ((PacketProcessor.promotePendingLink S cfg env found.peer found.link
          m).record (.linkMessage found.peer found.link received.1 received.2))) ∧
        Bound S drains none (m.record (.linkMessage found.peer found.link received.1 received.2)) := by
      intro m hm hlive hkept
      refine ⟨fun hpromote => ?_, hm.linkMessage fun hdrains => (hattributed (.inr hdrains)).kept hkept⟩
      have ha : m.Attributed found.peer found.link := (hattributed (.inl hpromote)).kept hkept
      obtain ⟨hpromoted, hkept'⟩ := @Bound.promotePendingLink S cfg env drains m found.peer found.link hm hlive ha
      exact hpromoted.linkMessage fun _ => ha.kept hkept'
    have hconfirm : ∀ (k : NM Unit) (handshake : HandshakeId), (n₂.peer found.peer).outgoingHandshake = some handshake →
        (∀ m, Bound S drains none m → m.Live found.peer → Kept n₂ m →
          wp k (fun _ n' => Bound S drains none n') (fun _ n' => Bound S drains none n') m) →
        wp (do PacketProcessor.confirmCarrier S cfg env handshake; k) (fun _ n' => Bound S drains none n')
          (fun _ n' => Bound S drains none n') n₂ := by
      intro k handshake hout hk
      rw [wp_bind]
      refine wp_mono (hbound₂.wp_confirmCarrier hown₂) (fun _ n₃ hn₃ => ?_) fun _ _ he => he
      exact hk n₃ hn₃.1 (hn₃.2.2 found.peer (by rw [hout]; rfl)) hn₃.2.1
    split
    · rename_i hpromote
      rw [wp_bind, wp_get]
      cases hout : (n₂.peer found.peer).outgoingHandshake with
      | some handshake =>
        dsimp only
        rw [wp_ite]
        exact ⟨fun _ => hconfirm _ handshake hout fun m hm hlive hkept => (hend m hm hlive hkept).1 hpromote,
          fun _ => (hend n₂ hbound₂ (.inl hvalue₂) (.refl n₂)).1 hpromote⟩
      | none => exact (hend n₂ hbound₂ (.inl hvalue₂) (.refl n₂)).1 hpromote
    · rw [wp_bind, wp_get]
      cases hout : (n₂.peer found.peer).outgoingHandshake with
      | some handshake =>
        dsimp only
        rw [wp_ite]
        exact ⟨fun _ => hconfirm _ handshake hout fun m hm hlive hkept => (hend m hm hlive hkept).2,
          fun _ => (hend n₂ hbound₂ (.inl hvalue₂) (.refl n₂)).2⟩
      | none => exact (hend n₂ hbound₂ (.inl hvalue₂) (.refl n₂)).2

/-! ### Packets -/

theorem wp_directPeer {peer : Option PeerId} {error : String} :
    wp (PacketProcessor.directPeer peer error) (fun _ n' => n' = n) (fun _ n' => n' = n) n := by
  unfold PacketProcessor.directPeer
  cases peer with
  | none => rfl
  | some pid =>
    simp only [wp_bind, wp_get, wp_ite, wp_throw, wp_pure]
    exact ⟨fun _ => trivial, fun _ => trivial⟩

variable {transport : TransportId} {remoteAddr : TransportAddress} {packet : Bytes}

theorem Bound.wp_processPacket (h : Bound S drains none n) (hown : drains → n.OwnAddresses) {peer : Option PeerId}
    (hpeer : ∀ pid, peer = some pid → n.Sends remoteAddr pid) :
    wp (PacketProcessor.processPacket S cfg env transport remoteAddr peer packet) (fun _ n' => Bound S drains none n')
      (fun _ n' => Bound S drains none n') n := by
  have hdirect : wp (PacketProcessor.processDirectFsp S cfg env peer packet) (fun _ n' => Bound S drains none n')
      (fun _ n' => Bound S drains none n') n := by
    unfold PacketProcessor.processDirectFsp
    rw [wp_bind]
    refine wp_mono wp_directPeer (fun pid n' hn' => ?_) fun _ n' hn' => hn' ▸ h
    rw [hn']
    simp only [wp_bind, wp_get, wp_lift, wp_set]
    exact ⟨fun _ _ => h.less aside_withManager.less, fun _ _ => h⟩
  unfold PacketProcessor.processPacket
  rw [wp_ite]
  refine ⟨fun _ => hdirect, fun _ => ?_⟩
  simp only [wp_bind, wp_lift, wp_ite, wp_throw]
  exact ⟨fun _ _ => ⟨fun _ => h.wp_receiveMsg1 hpeer, fun _ => ⟨fun _ => h.wp_handleMsg2, fun _ =>
    ⟨fun _ => h.wp_handleEstablished hown, fun _ => h⟩⟩⟩, fun _ _ => h⟩

theorem Bound.wp_process (h : Bound S drains none n) (hown : drains → n.OwnAddresses) :
    wp (PacketProcessor.process S cfg env transport remoteAddr packet) (fun _ n' => Bound S drains none n')
      (fun _ n' => Bound S drains none n') n := by
  have hpeer : ∀ pid, PacketProcessor.addressedPeer transport remoteAddr n = some pid → n.Sends remoteAddr pid :=
    fun pid hfound => h.own_addressedPeer hfound
  unfold PacketProcessor.process assertPeerAllowed
  rw [wp_bind, wp_get]
  dsimp only
  generalize PacketProcessor.addressedPeer transport remoteAddr n = peer at hpeer ⊢
  have hallowed : ∀ (pubkey : Bytes) (k : NM Unit),
      wp k (fun _ n' => Bound S drains none n') (fun _ n' => Bound S drains none n') n →
      wp (do lift ((← get).admission.assertPeer pubkey); k) (fun _ n' => Bound S drains none n')
        (fun _ n' => Bound S drains none n') n := by
    intro pubkey k hk
    simp only [wp_bind, wp_get, wp_lift]
    exact ⟨fun _ _ => hk, fun _ _ => h⟩
  rcases peer with _ | pid
  · dsimp only
    rw [wp_ite]
    refine ⟨fun _ => wp_bind.2 (wp_mono wp_directPeer (fun _ n' hn' => ?_) fun _ n' hn' => hn' ▸ h),
      fun _ => h.wp_processPacket hown hpeer⟩
    rw [hn']
    split
    · exact h.wp_processPacket hown hpeer
    · exact h
  · dsimp only
    rw [wp_ite]
    refine ⟨fun _ => hallowed _ _ ?_, fun _ => ?_⟩
    all_goals
      rw [wp_ite]
      refine ⟨fun _ => wp_bind.2 (wp_mono wp_directPeer (fun _ n' hn' => ?_) fun _ n' hn' => hn' ▸ h),
        fun _ => h.wp_processPacket hown hpeer⟩
      rw [hn']
      split
      · exact h.wp_processPacket hown hpeer
      · exact h

end FipsNode

end Fips
