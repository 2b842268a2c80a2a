import Fips.Node.CarrierPackets

/-!
# A Msg1 and the identity of its carrier

What a node does once a link has authenticated a Msg1: the peer takes the key, gives way to a new one at
its address, or closes the link. Whichever it is, the exempt link is bound again.
-/

namespace Fips
open Exec

namespace FipsNode

variable {S : Suite} {cfg : NodeConfig} {env : NodeEnv} {drains : Prop} {x : Option (PeerId × LinkId)} {n n' : FipsNode}
  {pid q : PeerId} {lid : LinkId} {pk : Bytes}

/-- The key that a link of the peer has authenticated becomes the key of the peer. -/
theorem Bound.settle (h : Bound S drains (some (pid, lid)) n) (ha : n.Answered lid pk)
    (hknown : (n.peer pid).pubkey = [] ∨ SameIdentity (n.peer pid).pubkey pk) :
    Bound S drains none (n.modifyPeer pid fun p => { p with pubkey := pk }) := by
  refine h.modifyPeer rfl (fun k hk hsame => ?_) (fun lid' hc => ?_) (fun _ _ he => .inl he) id ?_
  · rcases hknown with hnil | hknown
    · rw [hnil] at hsame
      exact absurd rfl (hsame.ne_nil hk)
    · exact hsame.trans hknown
  · by_cases heq : lid' = lid
    · rw [heq]
      refine .inr ⟨ha.known, .inr (ha.binds (.refl pk)), .inl ha.hs⟩
    · refine .inl ⟨hc, fun hx => ?_⟩
      cases hx
      exact absurd rfl heq
  · intro q lid' hne hx
    cases hx
    exact absurd rfl hne

/-- The peer takes a fresh responder for its link. -/
theorem Bound.freshLink (h : Bound S drains none n) {l : FmpLink} (hl : l.Keyed) (hrole : l.role = .responder)
    (hstate : l.state = .init) :
    Bound S drains none ((n.withLink l).modifyPeer pid fun p => { p with link := n.links.next }) := by
  have hwith : Bound S drains none (n.withLink l) := h.withLink hl
  refine hwith.modifyPeer rfl (fun _ _ hsame => hsame) (fun lid' hc => ?_) (fun _ _ he => .inl he) id fun _ _ _ hx => hx
  rcases hc with hlink | hpending
  · rw [← hlink]
    refine .inr ⟨Nat.lt_succ_self _, .inr ?_, .inr fun q hq hc => ?_⟩
    · rw [link_withLink_self]
      rintro (hestablished | hinitiator)
      · rw [hstate] at hestablished
        cases hestablished
      · rw [hrole] at hinitiator
        cases hinitiator
    · exact absurd (h.known q _ hq hc) (Nat.lt_irrefl _)
  · exact .inl ⟨.inr hpending, id⟩

/-! ### Restarted peers -/

theorem less_rememberEpoch {remotePubkey epoch : Bytes} : Less S n (PacketProcessor.rememberRemoteEpoch remotePubkey epoch n) := by
  unfold PacketProcessor.rememberRemoteEpoch
  dsimp only
  split
  · exact .refl n
  · exact Aside.less ⟨rfl, rfl, rfl, rfl, rfl, rfl, fun _ _ _ _ h => h⟩

theorem less_rememberPeer_processor (hlive : n.Live pid) : Less S n (PacketProcessor.rememberPeer S pid n) := by
  unfold PacketProcessor.rememberPeer
  split
  · exact .refl n
  split
  · exact (less_rememberPeer hlive).trans less_rememberEpoch
  · exact less_rememberPeer hlive

/-- Links have been closed, and the node reaches its peers by the same addresses. -/
structure Swept (S : Suite) (n n' : FipsNode) : Prop where
  less : Less S n n'
  peers : n'.peers = n.peers
  byNodeAddr : n'.peersByNodeAddr = n.peersByNodeAddr

theorem Swept.refl (n : FipsNode) : Swept S n n := ⟨.refl n, rfl, rfl⟩

theorem Swept.trans {n'' : FipsNode} (h : Swept S n n') (h' : Swept S n' n'') : Swept S n n'' :=
  ⟨h.less.trans h'.less, h'.peers.trans h.peers, h'.byNodeAddr.trans h.byNodeAddr⟩

theorem Aside.swept (h : Aside n n') : Swept S n n' := ⟨h.less, h.peers, h.byNodeAddr⟩

theorem swept_closeLink : Swept S n (n.closeLink lid) := ⟨less_closeLink, rfl, rfl⟩

theorem swept_foldl {α : Type} {f : FipsNode → α → FipsNode} (hf : ∀ n a, Swept S n (f n a)) (as : List α) (n : FipsNode) :
    Swept S n (as.foldl f n) := by
  induction as generalizing n with
  | nil => exact .refl n
  | cons a as ih => exact (hf n a).trans (ih _)

theorem Less.outgoing_none (h : Less S n n') (hnone : (n.peer pid).outgoingHandshake = none) :
    (n'.peer pid).outgoingHandshake = none := by
  by_contra hsome
  have hbefore := h.outgoing pid (Option.isSome_iff_ne_none.2 hsome)
  rw [hnone] at hbefore
  cases hbefore

/-- The path keeps no handshake but the one to be preserved. -/
theorem swept_closeRestarted {preserveLink : LinkId} {preserveHandshake : Option HandshakeId} :
    Swept S n (PacketProcessor.closeRestarted cfg preserveLink preserveHandshake n pid) ∧ (preserveHandshake = none →
      ((PacketProcessor.closeRestarted cfg preserveLink preserveHandshake n pid).peer pid).outgoingHandshake = none) := by
  have hown : Swept S n (if (n.peer pid).link ≠ preserveLink then n.closeLink (n.peer pid).link else n) := by
    split
    · exact swept_closeLink
    · exact .refl n
  have htaken : ∀ n : FipsNode, Swept S n (n.takePending pid) := fun n => ⟨less_takePending, rfl, rfl⟩
  have hpending : ∀ (n : FipsNode) (o : Option LinkId), Swept S n (o.elim n n.closeLink) := by
    intro n o
    cases o with
    | none => exact .refl n
    | some lid => exact swept_closeLink
  have hemit : ∀ (n : FipsNode) (b : Prop) [Decidable b], Swept S n (if b then n.emitPeer cfg pid false else n) := by
    intro n b _
    split
    · exact aside_emitPeer.swept
    · exact .refl n
  -- the end of the function, after its links have been closed
  have hend : ∀ (n' : FipsNode) (b : Prop) [Decidable b], Swept S n n' →
      let n'' := if (n.peer pid).outgoingHandshake.isSome = true ∧ (n.peer pid).outgoingHandshake ≠ preserveHandshake then
        (n'.rejectOutgoing pid "remote FIPS peer restarted").clearOutgoing pid else n'
      Swept S n (if b then n''.emitPeer cfg pid false else n'') ∧ (preserveHandshake = none →
        ((if b then n''.emitPeer cfg pid false else n'').peer pid).outgoingHandshake = none) := by
    intro n' b _ hlinks n''
    have hcleared : Swept S n n'' ∧ (preserveHandshake = none → (n''.peer pid).outgoingHandshake = none) := by
      unfold n''
      split
      · refine ⟨hlinks.trans (aside_rejectOutgoing.swept.trans ⟨less_clearOutgoing, rfl, rfl⟩), fun _ => ?_⟩
        unfold clearOutgoing peer FipsNode.modifyPeer
        rw [Heap.get_modify_self]
      · rename_i hkept
        refine ⟨hlinks, fun hpreserve => hlinks.less.outgoing_none ?_⟩
        by_contra hsome
        exact hkept ⟨Option.isSome_iff_ne_none.2 hsome, hpreserve ▸ hsome⟩
    exact ⟨hcleared.1.trans (hemit n'' b), fun hpreserve => (hemit n'' b).less.outgoing_none (hcleared.2 hpreserve)⟩
  unfold PacketProcessor.closeRestarted
  refine hend _ _ (Swept.trans ?_ (swept_foldl (fun n e => swept_closeLink) _ _))
  exact (hown.trans (htaken _)).trans (hpending _ _)

theorem swept_foldl_closeRestarted {preserveLink : LinkId} {preserveHandshake : Option HandshakeId} (removed : List PeerId)
    (n : FipsNode) :
    Swept S n (removed.foldl (PacketProcessor.closeRestarted cfg preserveLink preserveHandshake) n) ∧
      (preserveHandshake = none → ∀ pid ∈ removed,
        ((removed.foldl (PacketProcessor.closeRestarted cfg preserveLink preserveHandshake) n).peer pid).outgoingHandshake =
          none) := by
  induction removed generalizing n with
  | nil => exact ⟨.refl n, by rintro _ _ ⟨⟩⟩
  | cons pid removed ih =>
    obtain ⟨hfirst, hnone⟩ : Swept S n (PacketProcessor.closeRestarted cfg preserveLink preserveHandshake n pid) ∧ _ :=
      swept_closeRestarted
    obtain ⟨hrest, hothers⟩ := ih (PacketProcessor.closeRestarted cfg preserveLink preserveHandshake n pid)
    refine ⟨hfirst.trans hrest, fun hpreserve q hq => ?_⟩
    rcases List.mem_cons.1 hq with rfl | hq
    · exact hrest.less.outgoing_none (hnone hpreserve)
    · exact hothers hpreserve q hq

theorem less_removeRestartedPeerPaths {remotePubkey : Bytes} {preserveLink : LinkId} {preserveHandshake : Option HandshakeId} :
    Less S n (PacketProcessor.removeRestartedPeerPaths S cfg remotePubkey preserveLink preserveHandshake n) := by
  have hpeers : Less S n { n with peers := n.peers.filter fun e => (n.peer e.2).pubkey ≠ remotePubkey } :=
    less_peers List.filter_sublist
  have hindex : ∀ n : FipsNode, Less S n { n with peersByPubkey := n.peersByPubkey.delete remotePubkey } :=
    fun n => less_byPubkey fun e he => (JsMap.mem_delete.1 he).1
  have haddr : ∀ (n : FipsNode) (b : Prop) [Decidable b], Less S n
      (if b then n else { n with peersByNodeAddr := n.peersByNodeAddr.delete (nodeAddrOf S remotePubkey) }) := by
    intro n b _
    split
    · exact .refl n
    · exact less_byNodeAddr fun e he => (JsMap.mem_delete.1 he).1
  have hend : ∀ n : FipsNode, Less S n ((n.closePeerSessions cfg remotePubkey).record (.peerRestart remotePubkey)) :=
    fun n => less_closePeerSessions.trans (aside_record (by rintro _ _ _ _ ⟨⟩)).less
  unfold PacketProcessor.removeRestartedPeerPaths
  refine Less.trans ?_ (hend _)
  refine Less.trans ?_ (haddr _ _)
  exact (hpeers.trans (swept_foldl_closeRestarted _ _).1.less).trans (hindex _)

/-- No path that was recorded under the key of the restarted peer is reached any more. -/
theorem not_live_removeRestartedPeerPaths (h : Bound S drains x n) (hvalue : pid ∈ n.values) {preserveLink : LinkId} :
    ¬ (PacketProcessor.removeRestartedPeerPaths S cfg (n.peer pid).pubkey preserveLink none n).Live pid := by
  let removed := (n.values.filter fun c => (n.peer c).pubkey = (n.peer pid).pubkey).dedup
  let n₁ : FipsNode := { n with peers := n.peers.filter fun e => (n.peer e.2).pubkey ≠ (n.peer pid).pubkey }
  let n₂ := removed.foldl (PacketProcessor.closeRestarted cfg preserveLink none) n₁
  have hremoved : pid ∈ removed := List.mem_dedup.2 (List.mem_filter.2 ⟨hvalue, decide_eq_true rfl⟩)
  obtain ⟨hswept, hnone⟩ : Swept S n₁ n₂ ∧ _ := swept_foldl_closeRestarted removed n₁
  let n₃ : FipsNode := { n₂ with
    peersByPubkey := n₂.peersByPubkey.delete (n.peer pid).pubkey
    peersByNodeAddr := n₂.peersByNodeAddr.delete (nodeAddrOf S (n.peer pid).pubkey) }
  have hend : PacketProcessor.removeRestartedPeerPaths S cfg (n.peer pid).pubkey preserveLink none n =
      (n₃.closePeerSessions cfg (n.peer pid).pubkey).record (.peerRestart (n.peer pid).pubkey) := by
    unfold PacketProcessor.removeRestartedPeerPaths
    show FipsNode.record _ (FipsNode.closePeerSessions cfg _ (if removed = [] then _ else n₃)) = _
    rw [if_neg (List.ne_nil_of_mem hremoved)]
  rw [hend]
  intro hlive
  have hlive₃ : n₃.Live pid := by
    have haside : Aside n₃ ((n₃.closePeerSessions cfg (n.peer pid).pubkey).record (.peerRestart (n.peer pid).pubkey)) :=
      aside_withManager.trans (aside_record (by rintro _ _ _ _ ⟨⟩))
    exact (haside.less (S := S)).live pid hlive
  rcases hlive₃ with hvalue₃ | ⟨a, ha⟩ | ho
  · obtain ⟨e, he, heq⟩ := List.mem_map.1 hvalue₃
    have he₁ : e ∈ n₁.peers := hswept.peers ▸ he
    have hother := (List.mem_filter.1 he₁).2
    rw [heq] at hother
    exact absurd rfl (of_decide_eq_true hother)
  · obtain ⟨hmem, hdeleted⟩ := JsMap.mem_delete.1 ha
    rw [hswept.byNodeAddr] at hmem
    exact hdeleted (h.byNodeAddr (a, pid) hmem).2
  · rw [show (n₃.peer pid).outgoingHandshake = none from hnone rfl pid hremoved] at ho
    cases ho

/-! ### Reconciliation -/

theorem Bound.closeExempt (h : Bound S drains (some (pid, lid)) n) (ha : n.Answered lid pk) :
    Bound S drains none (n.closeLink lid) := (h.less less_closeLink).unexempt fun _ _ => ha.binds_close

theorem Bound.dropHandshakeLink (h : Bound S drains (some (pid, lid)) n) (ha : n.Answered lid pk) :
    Bound S drains none (PacketProcessor.dropHandshakeLink pid lid n) := by
  have hclosed := h.closeExempt ha
  unfold PacketProcessor.dropHandshakeLink
  dsimp only
  split
  · exact hclosed.less less_takePending
  · exact hclosed

theorem Bound.refuseMsg1 (h : Bound S drains (some (pid, lid)) n) (ha : n.Answered lid pk) {error : String} :
    Bound S drains none (PacketProcessor.refuseMsg1 S cfg env pid lid error n) := by
  have hdiscard : Less S (n.closeLink lid) ((n.closeLink lid).discardPending pid) := less_discardPending
  have hdiscarded := (h.closeExempt ha).less hdiscard
  unfold PacketProcessor.refuseMsg1
  dsimp only
  split
  · exact (hdiscarded.less aside_rejectOutgoing.less).less less_removeOwnPath
  · exact hdiscarded

/-- The remote's link takes the place of the peer's own initiator. -/
theorem Bound.adoptHandshakeLink (h : Bound S drains (some (pid, lid)) n) (ha : n.Answered lid pk) :
    Bound S drains (some (pid, lid)) (PacketProcessor.adoptHandshakeLink pid lid n) ∧
      (PacketProcessor.adoptHandshakeLink pid lid n).Answered lid pk ∧
      ((PacketProcessor.adoptHandshakeLink pid lid n).peer pid).pubkey = (n.peer pid).pubkey := by
  let n₁ := n.modifyPeer pid fun p =>
    { p with abandonedInitiatorSessionIdx := some (n.link (n.peer pid).link).localSessionIdx, link := lid }
  have hmodified : Bound S drains (some (pid, lid)) n₁ := by
    refine h.modifyPeer rfl (fun _ _ hsame => hsame) (fun lid' hc => ?_) (fun _ _ he => .inl he) id fun _ _ _ hx => hx
    rcases hc with hlink | hpending
    · have heq : lid = lid' := hlink
      rw [← heq]
      exact .inr ⟨ha.known, .inl rfl, .inl ha.hs⟩
    · exact .inl ⟨.inr hpending, id⟩
  have hanswered : n₁.Answered lid pk := ⟨ha.known, ha.role, ha.hs, ha.remote, ha.length⟩
  have hpubkey : (n₁.peer pid).pubkey = (n.peer pid).pubkey := by
    unfold n₁ peer FipsNode.modifyPeer
    rw [Heap.get_modify_self]
  have hless : Less S n₁ (PacketProcessor.adoptHandshakeLink pid lid n) := less_closeLink.trans less_takePending
  exact ⟨hmodified.less hless, hanswered.less hless, (hless.pubkey pid).trans hpubkey⟩

/-- The carrier may have to wait for its confirmation behind another path. -/
theorem Bound.wp_stageUnconfirmedCarrier (h : Bound S drains none n) (ha : n.Answered lid pk) (hkey : (n.peer pid).pubkey = pk)
    (hvalue : pid ∈ n.values) :
    wp (PacketProcessor.stageUnconfirmedCarrier S cfg env pid lid) (fun _ n' => Bound S drains none n' ∧ pid ∈ n'.values)
      (fun _ n' => Bound S drains none n') n := by
  unfold PacketProcessor.stageUnconfirmedCarrier PacketProcessor.newResponderLink
  simp only [wp_bind, wp_get, wp_ite, wp_pure]
  refine ⟨fun _ => ⟨h, hvalue⟩, fun _ => ⟨fun _ => ⟨h, hvalue⟩, fun _ => ?_⟩⟩
  refine wp_mono (h.wp_setPending (.inl rfl) ha (.inr (ha.binds (hkey ▸ .refl pk)))) (fun _ n' hn' => ?_) fun _ _ he => he
  obtain ⟨hbound, -, hsame, -⟩ := hn'
  rw [wp_bind]
  refine wp_newLink (by rintro _ ⟨⟩) (by rintro ⟨⟩) (fun l hl hrole hstate _ => ?_) fun _ => hbound.less (Aside.less ?_)
  · rw [wp_bind, wp_modify]
    exact ⟨hbound.freshLink hl hrole hstate, hsame.mem_values hvalue⟩
  · exact ⟨rfl, rfl, rfl, rfl, rfl, rfl, fun _ _ _ _ h => h⟩

variable {ctx : AuthenticatedMsg1Context} {wasEstablished identityRebound : Bool}

theorem Bound.wp_settleMsg1 (h : Bound S drains (some (pid, ctx.handshakeLink)) n)
    (ha : n.Answered ctx.handshakeLink ctx.result.remotePubkey)
    (hknown : (n.peer pid).pubkey = [] ∨ SameIdentity (n.peer pid).pubkey ctx.result.remotePubkey) (hvalue : pid ∈ n.values) :
    wp (PacketProcessor.settleMsg1 S cfg env ctx pid wasEstablished identityRebound) (fun _ n' => Bound S drains none n')
      (fun _ n' => Bound S drains none n') n := by
  let n₁ := n.modifyPeer pid fun p => { p with pubkey := ctx.result.remotePubkey }
  have hsettled : Bound S drains none n₁ := h.settle ha hknown
  have hanswered : n₁.Answered ctx.handshakeLink ctx.result.remotePubkey := ⟨ha.known, ha.role, ha.hs, ha.remote, ha.length⟩
  have hpubkey : (n₁.peer pid).pubkey = ctx.result.remotePubkey := by
    show ((n.objs.modify pid fun p => { p with pubkey := ctx.result.remotePubkey }).get pid).pubkey = _
    rw [Heap.get_modify_self]
  have hremember : ∀ n : FipsNode, pid ∈ n.values → Less S n (PacketProcessor.rememberPeer S pid n) :=
    fun n hvalue => less_rememberPeer_processor (.inl hvalue)
  unfold PacketProcessor.settleMsg1
  simp only [wp_bind, wp_modify, wp_ite, wp_pure]
  refine ⟨fun _ => ?_, fun _ => ⟨fun _ => hsettled, fun _ => hsettled.less (hremember n₁ hvalue)⟩⟩
  refine wp_mono (hsettled.wp_stageUnconfirmedCarrier hanswered hpubkey hvalue) (fun staged n' hn' => ?_) fun _ _ he => he
  rw [wp_ite]
  exact ⟨fun _ => hn'.1, fun _ => hn'.1.less (hremember n' hn'.2)⟩

/-- The peer object that takes over the link of an accepted Msg1. -/
def takeover (ctx : AuthenticatedMsg1Context) : AdjacentPeer :=
  { pubkey := ctx.result.remotePubkey, remoteAddr := ctx.remoteAddr, transport := ctx.transport, link := ctx.handshakeLink }

theorem Bound.takeover (h : Bound S drains x n) (ha : n.Answered ctx.handshakeLink ctx.result.remotePubkey)
    (hkey : ctx.key = transportAddressKey ctx.remoteAddr) : Bound S drains x (n.installPeer ctx.key (takeover ctx)) :=
  h.installPeer hkey ha.known (ha.binds (.refl _)) (fun _ _ _ => ha.hs) rfl rfl (by rintro ⟨⟩)

/-- The new peer is settled. -/
theorem Bound.wp_settleTakeover (h : Bound S drains none (n.installPeer ctx.key (FipsNode.takeover ctx)))
    (ha : n.Answered ctx.handshakeLink ctx.result.remotePubkey) :
    wp (PacketProcessor.settleMsg1 S cfg env ctx ((n.installPeer ctx.key (FipsNode.takeover ctx)).objs.next - 1) wasEstablished
      identityRebound) (fun _ n' => Bound S drains none n') (fun _ n' => Bound S drains none n')
      (n.installPeer ctx.key (FipsNode.takeover ctx)) := by
  refine h.exempt.wp_settleMsg1 ⟨ha.known, ha.role, ha.hs, ha.remote, ha.length⟩ (.inr ?_) ?_
  · have hpeer : (n.installPeer ctx.key (FipsNode.takeover ctx)).peer n.objs.next = FipsNode.takeover ctx := by
      rw [peer_installPeer, if_pos rfl]
    show SameIdentity ((n.installPeer ctx.key (FipsNode.takeover ctx)).peer n.objs.next).pubkey _
    rw [hpeer]
    exact .refl _
  · have hget : (n.peers.set ctx.key n.objs.next).get ctx.key = some n.objs.next := by rw [JsMap.get_set, if_pos rfl]
    exact List.mem_map_of_mem (JsMap.mem_of_get hget)

/-- An address authenticates another identity: the peer that was there is not reached any more, or has given the
link up. -/
theorem Bound.rebindIdentity (cfg : NodeConfig) (h : Bound S drains (some (ctx.peer, ctx.handshakeLink)) n)
    (ha : n.Answered ctx.handshakeLink ctx.result.remotePubkey) (hestablished : (n.link ctx.handshakeLink).state = .established)
    (hvalue : ctx.peer ∈ n.values) (hkey : ctx.key = transportAddressKey ctx.remoteAddr) :
    ∃ n' : FipsNode, PacketProcessor.rebindIdentity S cfg ctx n = n'.installPeer ctx.key (FipsNode.takeover ctx) ∧
      n'.Answered ctx.handshakeLink ctx.result.remotePubkey ∧
      Bound S drains none (n'.installPeer ctx.key (FipsNode.takeover ctx)) := by
  refine ⟨_, rfl, ?_⟩
  split
  · have hless := @less_removeRestartedPeerPaths S cfg n (n.peer ctx.peer).pubkey ctx.handshakeLink none
    have hbound := (h.less hless).unexempt fun hlive _ => absurd hlive (not_live_removeRestartedPeerPaths h hvalue)
    exact ⟨ha.less hless, hbound.takeover (ha.less hless) hkey⟩
  · rename_i hstate
    have hless : Less S n ((n.closeLink (n.peer ctx.peer).link).takePending ctx.peer) := less_closeLink.trans less_takePending
    have hbound := (h.less hless).unexempt fun _ hc => by
      -- only the own link is left, and it had not been established
      have hown : (n.peer ctx.peer).link ≠ ctx.handshakeLink := by
        intro heq
        unfold linkState at hstate
        rw [heq] at hstate
        exact hstate hestablished
      have hpeer : ((n.closeLink (n.peer ctx.peer).link).takePending ctx.peer).peer ctx.peer =
          { n.peer ctx.peer with pendingResponderLink := none } := by
        show (n.objs.modify ctx.peer fun p => { p with pendingResponderLink := none }).get ctx.peer = _
        rw [Heap.get_modify_self]
        rfl
      unfold Carries at hc
      rw [hpeer] at hc
      rcases hc with hlink | hpending
      · exact absurd hlink hown
      · cases hpending
    exact ⟨ha.less hless, hbound.takeover (ha.less hless) hkey⟩

/-- The remote has restarted: the path that it used is of its identity, or is not reached any more. -/
theorem Bound.replaceRestarted (cfg : NodeConfig) (h : Bound S drains (some (ctx.peer, ctx.handshakeLink)) n)
    (ha : n.Answered ctx.handshakeLink ctx.result.remotePubkey) (hvalue : ctx.peer ∈ n.values)
    (hkey : ctx.key = transportAddressKey ctx.remoteAddr)
    (hknown : (n.peer ctx.peer).pubkey = [] ∨ SameIdentity (n.peer ctx.peer).pubkey ctx.result.remotePubkey)
    (hown : (n.peer ctx.peer).pubkey = [] → transportAddressKey (n.peer ctx.peer).remoteAddr = ctx.key) :
    ∃ n' : FipsNode, PacketProcessor.replaceRestarted S cfg ctx n = n'.installPeer ctx.key (FipsNode.takeover ctx) ∧
      n'.Answered ctx.handshakeLink ctx.result.remotePubkey ∧
      Bound S drains none (n'.installPeer ctx.key (FipsNode.takeover ctx)) := by
  have hless := @less_removeRestartedPeerPaths S cfg n ctx.result.remotePubkey ctx.handshakeLink ctx.replacedHandshake
  have hbound := (h.less hless).takeover (ha.less hless) hkey
  refine ⟨_, rfl, ha.less hless, ?_⟩
  rcases hknown with hnil | hsame
  · -- a peer without a key was reached by its address alone, which the new one has taken
    refine hbound.unexempt fun hlive _ => ?_
    have hlt : ctx.peer < (PacketProcessor.removeRestartedPeerPaths S cfg ctx.result.remotePubkey ctx.handshakeLink
        ctx.replacedHandshake n).objs.next := hless.nextPeer ▸ h.live ctx.peer (.inl hvalue)
    have hold : ((PacketProcessor.removeRestartedPeerPaths S cfg ctx.result.remotePubkey ctx.handshakeLink
        ctx.replacedHandshake n).installPeer ctx.key (FipsNode.takeover ctx)).peer ctx.peer =
        (PacketProcessor.removeRestartedPeerPaths S cfg ctx.result.remotePubkey ctx.handshakeLink
          ctx.replacedHandshake n).peer ctx.peer := by rw [peer_installPeer, if_neg (Nat.ne_of_lt hlt)]
    have hempty : (((PacketProcessor.removeRestartedPeerPaths S cfg ctx.result.remotePubkey ctx.handshakeLink
        ctx.replacedHandshake n).installPeer ctx.key (FipsNode.takeover ctx)).peer ctx.peer).pubkey = [] := by
      rw [hold, hless.pubkey]
      exact hnil
    rcases hlive with hvalue' | ⟨a, hentry⟩ | ho
    · refine absurd hvalue' ?_
      rw [hkey]
      refine not_value_installPeer (h.less hless) hlt ?_
      rw [hless.remoteAddr, hown hnil, hkey]
      rfl
    · exact absurd hempty (hbound.byNodeAddr (a, ctx.peer) hentry).1
    · exact absurd hempty (hbound.dialed ctx.peer ho)
  · refine hbound.unexempt fun _ _ => ?_
    have hlt : ctx.peer < (PacketProcessor.removeRestartedPeerPaths S cfg ctx.result.remotePubkey ctx.handshakeLink
        ctx.replacedHandshake n).objs.next := hless.nextPeer ▸ h.live ctx.peer (.inl hvalue)
    rw [peer_installPeer, if_neg (Nat.ne_of_lt hlt), hless.pubkey]
    exact (ha.less hless).binds hsame.symm

theorem Bound.wp_reconcileAuthenticatedMsg1 (h : Bound S drains (some (ctx.peer, ctx.handshakeLink)) n)
    (ha : n.Answered ctx.handshakeLink ctx.result.remotePubkey) (hestablished : (n.link ctx.handshakeLink).state = .established)
    (hvalue : ctx.peer ∈ n.values) (hkey : ctx.key = transportAddressKey ctx.remoteAddr)
    (hown : (n.peer ctx.peer).pubkey = [] → transportAddressKey (n.peer ctx.peer).remoteAddr = ctx.key) :
    wp (PacketProcessor.reconcileAuthenticatedMsg1 S cfg env ctx) (fun _ n' => Bound S drains none n')
      (fun _ n' => Bound S drains none n') n := by
  unfold PacketProcessor.reconcileAuthenticatedMsg1
  rw [wp_bind, wp_get]
  dsimp only
  split
  · simp only [wp_bind, wp_set, wp_throw]
    exact h.refuseMsg1 ha
  · rw [wp_ite]
    refine ⟨fun _ => ?_, fun hsame => ?_⟩
    · obtain ⟨n', hn', hanswered, hbound⟩ := h.rebindIdentity cfg ha hestablished hvalue hkey
      simp only [wp_bind, wp_ite, wp_set, wp_throw]
      refine ⟨fun _ => h.dropHandshakeLink ha, fun _ => ?_⟩
      rw [hn']
      exact hbound.wp_settleTakeover hanswered
    · have hknown : (n.peer ctx.peer).pubkey = [] ∨ SameIdentity (n.peer ctx.peer).pubkey ctx.result.remotePubkey := by
        by_cases hnil : (n.peer ctx.peer).pubkey = []
        · exact .inl hnil
        · refine .inr (.inr ?_)
          by_contra hdiffers
          exact hsame ⟨hnil, by simpa using hdiffers⟩
      obtain ⟨n', hn', hanswered, hbound⟩ := h.replaceRestarted cfg ha hvalue hkey hknown hown
      obtain ⟨hadopted, hanswered', hpubkey⟩ := h.adoptHandshakeLink ha
      simp only [wp_bind, wp_ite, wp_set, wp_pure]
      refine ⟨fun _ => h.dropHandshakeLink ha, fun _ => ⟨fun _ => ?_, fun _ => ⟨fun _ => ?_, fun _ => ?_⟩⟩⟩
      · rw [hn']
        exact hbound.wp_settleTakeover hanswered
      · exact hadopted.wp_settleMsg1 hanswered' (hpubkey ▸ hknown) hvalue
      · exact h.wp_settleMsg1 ha hknown hvalue

/-! ### A whole Msg1 -/

/-- A peer without a key is found by its own address. -/
theorem Bound.own_addressedPeer (h : Bound S drains x n) {transport : TransportId} {remoteAddr : TransportAddress}
    (hfound : PacketProcessor.addressedPeer transport remoteAddr n = some pid) :
    pid ∈ n.values ∧ ((n.peer pid).pubkey = [] → transportAddressKey (n.peer pid).remoteAddr = transportAddressKey remoteAddr) := by
  unfold PacketProcessor.addressedPeer at hfound
  cases hget : n.peers.get (transportAddressKey remoteAddr) with
  | some q =>
    rw [hget] at hfound
    cases hfound
    have hmem := JsMap.mem_of_get hget
    exact ⟨List.mem_map_of_mem hmem, fun _ => (h.own _ hmem).symm⟩
  | none =>
    rw [hget] at hfound
    have hx : PacketProcessor.findXOnlyTransportPeer transport remoteAddr n = some pid := hfound
    unfold PacketProcessor.findXOnlyTransportPeer at hx
    split at hx
    · cases hx
    · have hmem := List.mem_of_find?_eq_some hx
      have hlen := List.find?_some hx
      rw [decide_eq_true_eq] at hlen
      refine ⟨hmem, fun hnil => ?_⟩
      rw [hnil] at hlen
      cases hlen.2.1

/-- The peer a packet comes from, if there is one, is stored, and under the packet's address if it has no key. -/
def Sends (n : FipsNode) (remoteAddr : TransportAddress) (pid : PeerId) : Prop :=
  pid ∈ n.values ∧ ((n.peer pid).pubkey = [] → transportAddressKey (n.peer pid).remoteAddr = transportAddressKey remoteAddr)

variable {transport : TransportId} {remoteAddr : TransportAddress} {peer : Option PeerId} {packet : Bytes}

theorem Bound.wp_prepareMsg1Peer (h : Bound S drains none n) (hpeer : ∀ pid, peer = some pid → n.Sends remoteAddr pid) :
    wp (PacketProcessor.prepareMsg1Peer S cfg transport remoteAddr (transportAddressKey remoteAddr) peer)
      (fun r n' => Bound S drains none n' ∧ ∀ prepared, r = some prepared → n'.Sends remoteAddr prepared.peer)
      (fun _ n' => Bound S drains none n') n := by
  unfold PacketProcessor.prepareMsg1Peer PacketProcessor.newResponderLink
  cases peer with
  | some pid =>
    have hkept : ∀ r : Option PreparedMsg1, (∀ prepared, r = some prepared → prepared.peer = pid) →
        Bound S drains none n ∧ ∀ prepared, r = some prepared → n.Sends remoteAddr prepared.peer := by
      refine fun r hr => ⟨h, fun prepared heq => ?_⟩
      rw [hr prepared heq]
      exact hpeer pid rfl
    dsimp only
    rw [wp_bind, wp_get]
    split
    · simp only [wp_bind, wp_ite, wp_throw, wp_lift]
      refine ⟨fun _ => h, fun _ => ⟨fun order _ => ?_, fun _ _ => h⟩⟩
      cases order with
      | lt => exact hkept none (by rintro _ ⟨⟩)
      | eq => exact h
      | gt => exact hkept _ (by rintro _ ⟨⟩; rfl)
    · exact hkept _ (by rintro _ ⟨⟩; rfl)
  | none =>
    dsimp only
    rw [wp_bind]
    refine wp_newLink (by rintro _ ⟨⟩) (by rintro ⟨⟩) (fun l hl hrole hstate _ => ?_) fun _ => h.less (Aside.less ?_)
    · simp only [wp_bind, wp_get, wp_set, wp_pure]
      have hunbound : ∀ pubkey, l.Binds pubkey := by
        rintro pubkey (hestablished | hinitiator)
        · rw [hstate] at hestablished
          cases hestablished
        · rw [hrole] at hinitiator
          cases hinitiator
      refine ⟨(h.withLink hl).installPeer rfl (Nat.lt_succ_self _) ?_ (fun q hq hc => ?_) rfl rfl (by rintro ⟨⟩), ?_⟩
      · rw [link_withLink_self]
        exact hunbound _
      · exact absurd (h.known q _ hq hc) (Nat.lt_irrefl _)
      · rintro _ ⟨⟩
        refine ⟨?_, fun _ => ?_⟩
        · have hget : (n.peers.set (transportAddressKey remoteAddr) n.objs.next).get (transportAddressKey remoteAddr) =
              some n.objs.next := by rw [JsMap.get_set, if_pos rfl]
          exact List.mem_map_of_mem (JsMap.mem_of_get hget)
        · rw [peer_installPeer, if_pos rfl]
    · exact ⟨rfl, rfl, rfl, rfl, rfl, rfl, fun _ _ _ _ h => h⟩

theorem aside_replyMsg2 {result : FmpHandshakeResult} : Aside n (PacketProcessor.replyMsg2 remoteAddr pid result n) := by
  unfold PacketProcessor.replyMsg2
  split
  · exact aside_record (by rintro _ _ _ _ ⟨⟩)
  · exact .refl n

/-- A Msg1 leaves the links of the peers bound, accepted or not. -/
theorem Bound.wp_receiveMsg1 (h : Bound S drains none n) (hpeer : ∀ pid, peer = some pid → n.Sends remoteAddr pid) :
    wp (PacketProcessor.handleMsg1 S cfg env transport remoteAddr (transportAddressKey remoteAddr) peer packet)
      (fun _ n' => Bound S drains none n') (fun _ n' => Bound S drains none n') n := by
  unfold PacketProcessor.handleMsg1
  rw [wp_bind]
  refine wp_mono (h.wp_prepareMsg1Peer hpeer) (fun r n₁ hr => ?_) fun _ _ he => he
  obtain ⟨hprepared, hsends⟩ := hr
  cases r with
  | none => exact hprepared
  | some prepared =>
    obtain ⟨hvalue, hown⟩ := hsends prepared rfl
    dsimp only
    rw [wp_bind, wp_get, wp_bind]
    refine wp_mono (hprepared.wp_authenticateMsg1 hvalue) (fun r n₂ hr => ?_) fun _ _ he => he
    obtain ⟨result, lid⟩ := r
    obtain ⟨hbound, hanswered, hestablished, hsame⟩ := hr
    dsimp only
    rw [wp_bind]
    refine wp_mono (hbound.wp_reconcileAuthenticatedMsg1 hanswered hestablished (hsame.mem_values hvalue) rfl ?_)
      (fun reconciled n₃ hn₃ => ?_) fun _ _ he => he
    · intro hnil
      rw [hsame.remoteAddr]
      rw [hsame.pubkey] at hnil
      exact hown hnil
    · cases reconciled with
      | none => exact hn₃
      | some reconciled =>
        have hreplied : Bound S drains none (PacketProcessor.replyMsg2 remoteAddr reconciled.peer result n₃) :=
          hn₃.less aside_replyMsg2.less
        have hcleared : ∀ (n : FipsNode) (hid : HandshakeId), Bound S drains none n →
            Bound S drains none ((n.clearOutgoing reconciled.peer).settleHandshake hid .resolved) :=
          fun n hid hn => (hn.less less_clearOutgoing).less aside_settleHandshake.less
        have hemitted : ∀ n : FipsNode, Bound S drains none n → Bound S drains none (n.emitPeer cfg reconciled.peer true) :=
          fun n hn => hn.less aside_emitPeer.less
        simp only [wp_bind, wp_modify]
        split
        · simp only [wp_bind, wp_modify, wp_ite, wp_pure]
          exact ⟨fun _ => ⟨fun _ => hemitted _ (hcleared _ _ hreplied), fun _ => hcleared _ _ hreplied⟩,
            fun _ => ⟨fun _ => hemitted _ hreplied, fun _ => hreplied⟩⟩
        · simp only [wp_modify, wp_ite, wp_pure]
          exact ⟨fun _ => hemitted _ hreplied, fun _ => hreplied⟩

end FipsNode

end Fips
