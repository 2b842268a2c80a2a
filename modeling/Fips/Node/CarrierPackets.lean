import Fips.Node.CarrierBinding

/-!
# Received packets and the identities of links

A Msg1 gives a responder its key before the node knows whether the peer is of that identity; until it has
reconciled the two, the link is exempt. A confirmed Msg2 hands the links of the peer at its address over to
the peer that it is for, which keeps the draining links bound only where the two are of one identity.
-/

namespace Fips
open Exec

namespace FipsNode

variable {S : Suite} {cfg : NodeConfig} {env : NodeEnv} {drains : Prop} {x : Option (PeerId × LinkId)} {n n' : FipsNode}
  {pid q : PeerId} {lid : LinkId} {pk : Bytes}

/-! ### New objects -/

/-- The exempt link is bound after all, or is no longer reached. -/
theorem Bound.unexempt (h : Bound S drains (some (pid, lid)) n)
    (hbinds : n.Live pid → n.Carries pid lid → (n.link lid).Binds (n.peer pid).pubkey) : Bound S drains none n := by
  refine { h with binds := fun pid' lid' hlive hcarries _ => ?_ }
  by_cases hx : (pid, lid) = (pid', lid')
  · cases hx
    exact hbinds hlive hcarries
  · exact h.binds pid' lid' hlive hcarries fun heq => hx (Option.some.inj heq)

theorem Bound.exempt (h : Bound S drains none n) : Bound S drains x n :=
  { h with binds := fun pid' lid' hlive hcarries _ => h.binds pid' lid' hlive hcarries (by rintro ⟨⟩) }

/-- The node with a new link. -/
def withLink (l : FmpLink) (n : FipsNode) : FipsNode :=
  { n with nextFmpSessionIdx := nextSessionIdx n.nextFmpSessionIdx, links := n.links.alloc l }

theorem wp_newLink {remotePubkey : Option Bytes} {role : Role} {Q : LinkId → FipsNode → Prop} {E : String → FipsNode → Prop}
    (hremote : ∀ pk, remotePubkey = some pk → pk.length = 33) (hrole : role = .initiator → remotePubkey.isSome = true)
    (hQ : ∀ l : FmpLink, l.Keyed → l.role = role → l.state = .init → l.remotePubkey = remotePubkey →
      Q n.links.next (n.withLink l))
    (hE : ∀ e, E e { n with nextFmpSessionIdx := nextSessionIdx n.nextFmpSessionIdx }) :
    wp (newLink S cfg remotePubkey role) Q E n := by
  unfold newLink allocateFmpSessionIdx
  simp only [wp_bind, wp_get, wp_modify, wp_pure, wp_lift, wp_set]
  refine ⟨fun l hl => ?_, fun e _ => hE e⟩
  obtain ⟨hkeyed, hrole', hstate, hremote'⟩ := FmpLink.new_keyed hl hremote hrole
  exact hQ l hkeyed hrole' hstate hremote'

theorem link_withLink {l : FmpLink} (hlt : lid < n.links.next) : (n.withLink l).link lid = n.link lid :=
  Heap.get_alloc_of_lt hlt

theorem link_withLink_self {l : FmpLink} : (n.withLink l).link n.links.next = l := Heap.get_alloc_self

theorem Attributed.withLink (ha : n.Attributed pid lid) (l : FmpLink) : (n.withLink l).Attributed pid lid := by
  refine ⟨ha.peer, Nat.lt_succ_of_lt ha.link, ?_, ?_⟩
  · rw [link_withLink ha.link]
    exact ha.hs
  · rw [link_withLink ha.link]
    exact ha.remote

theorem Bound.withLink (h : Bound S drains x n) {l : FmpLink} (hl : l.Keyed) : Bound S drains x (n.withLink l) where
  keyed lid := by
    by_cases hnew : lid = n.links.next
    · rw [hnew, link_withLink_self]
      exact hl
    · have hold : (n.withLink l).link lid = n.link lid := Heap.get_alloc_of_ne hnew
      rw [hold]
      exact h.keyed lid
  known pid lid hlive hcarries := Nat.lt_succ_of_lt (h.known pid lid hlive hcarries)
  live := h.live
  binds pid lid hlive hcarries hx := by
    rw [link_withLink (h.known pid lid hlive hcarries)]
    exact h.binds pid lid hlive hcarries hx
  sole pid pid' lid hlive hlive' hcarries hcarries' hhs := by
    rw [link_withLink (h.known pid lid hlive hcarries)] at hhs
    exact h.sole pid pid' lid hlive hlive' hcarries hcarries' hhs
  drained hdrains pid e hlive he := by
    obtain ⟨hlt, hhs, hbinds⟩ := h.drained hdrains pid e hlive he
    refine ⟨Nat.lt_succ_of_lt hlt, ?_, ?_⟩
    · rw [link_withLink hlt]
      exact hhs
    · rw [link_withLink hlt]
      exact hbinds
  nodup := h.nodup
  own := h.own
  byNodeAddr := h.byNodeAddr
  byPubkey := h.byPubkey
  dialed := h.dialed
  connecting := h.connecting
  logged hdrains pid lid msgType payload hmem := (h.logged hdrains pid lid msgType payload hmem).withLink l

theorem peer_installPeer {key : String} {p : AdjacentPeer} :
    (n.installPeer key p).peer q = if q = n.objs.next then p else n.peer q := rfl

/-- Whoever is reached after a new peer is the new one, or was reached before. -/
theorem live_installPeer {key : String} {p : AdjacentPeer} (hlive : (n.installPeer key p).Live q) :
    q = n.objs.next ∨ q ≠ n.objs.next ∧ n.Live q := by
  by_cases hnew : q = n.objs.next
  · exact .inl hnew
  · refine .inr ⟨hnew, ?_⟩
    rcases hlive with hvalue | haddr | ho
    · obtain ⟨e, he, rfl⟩ := List.mem_map.1 hvalue
      rcases JsMap.mem_set he with rfl | hold
      · exact absurd rfl hnew
      · exact .inl (List.mem_map_of_mem hold)
    · exact .inr (.inl haddr)
    · rw [peer_installPeer, if_neg hnew] at ho
      exact .inr (.inr ho)

theorem Bound.installPeer (h : Bound S drains x n) {key : String} {p : AdjacentPeer}
    (hkey : key = transportAddressKey p.remoteAddr) (hlink : p.link < n.links.next)
    (hbinds : (n.link p.link).Binds p.pubkey)
    (hhs : ∀ q, n.Live q → n.Carries q p.link → (n.link p.link).hs = none) (hpending : p.pendingResponderLink = none)
    (hdraining : p.drainingResponderLinks = []) (hdialed : p.outgoingHandshake.isSome = true → p.pubkey ≠ []) :
    Bound S drains x (n.installPeer key p) := by
  have hcarries : ∀ q lid, (n.installPeer key p).Carries q lid →
      q = n.objs.next ∧ lid = p.link ∨ q ≠ n.objs.next ∧ n.Carries q lid := by
    intro q lid hc
    unfold Carries at hc
    rw [peer_installPeer] at hc
    by_cases hnew : q = n.objs.next
    · rw [if_pos hnew, hpending] at hc
      rcases hc with rfl | hnone
      · exact .inl ⟨hnew, rfl⟩
      · cases hnone
    · rw [if_neg hnew] at hc
      exact .inr ⟨hnew, hc⟩
  have hold : ∀ q, (n.installPeer key p).Live q → q ≠ n.objs.next → n.Live q := by
    intro q hlive hne
    rcases live_installPeer hlive with heq | hold
    · exact absurd heq hne
    · exact hold.2
  have hlt : ∀ q, q < n.objs.next → (n.installPeer key p).peer q = n.peer q := by
    intro q hq
    rw [peer_installPeer, if_neg (Nat.ne_of_lt hq)]
  refine ⟨h.keyed, ?_, ?_, ?_, ?_, ?_, h.nodup.set _ _, ?_, ?_, ?_, ?_, h.connecting, ?_⟩
  · intro q lid hlive hc
    rcases hcarries q lid hc with ⟨-, rfl⟩ | ⟨hne, hc⟩
    · exact hlink
    · exact h.known q lid (hold q hlive hne) hc
  · intro q hlive
    rcases live_installPeer hlive with rfl | ⟨-, hlive⟩
    · exact Nat.lt_succ_self _
    · exact Nat.lt_succ_of_lt (h.live q hlive)
  · intro q lid hlive hc hx
    rcases hcarries q lid hc with ⟨rfl, rfl⟩ | ⟨hne, hc⟩
    · rw [peer_installPeer, if_pos rfl]
      exact hbinds
    · rw [peer_installPeer, if_neg hne]
      exact h.binds q lid (hold q hlive hne) hc hx
  · intro q q' lid hlive hlive' hc hc' hsome
    have hsome' : (n.link lid).hs.isSome = true := hsome
    rcases hcarries q lid hc with ⟨rfl, rfl⟩ | ⟨hne, hc⟩
    · rcases hcarries q' _ hc' with ⟨rfl, -⟩ | ⟨hne', hc'⟩
      · rfl
      · rw [hhs q' (hold q' hlive' hne') hc'] at hsome'
        cases hsome'
    · rcases hcarries q' lid hc' with ⟨rfl, rfl⟩ | ⟨hne', hc'⟩
      · rw [hhs q (hold q hlive hne) hc] at hsome'
        cases hsome'
      · exact h.sole q q' lid (hold q hlive hne) (hold q' hlive' hne') hc hc' hsome'
  · intro hdrains q e hlive he
    rw [peer_installPeer] at he ⊢
    by_cases hnew : q = n.objs.next
    · rw [if_pos hnew, hdraining] at he
      cases he
    · rw [if_neg hnew] at he ⊢
      exact h.drained hdrains q e (hold q hlive hnew) he
  · intro e he
    rw [peer_installPeer]
    rcases JsMap.mem_set he with rfl | hmem
    · rw [if_pos rfl]
      exact hkey
    · rw [if_neg (Nat.ne_of_lt (h.live e.2 (.inl (List.mem_map_of_mem hmem))))]
      exact h.own e hmem
  · intro e he
    rw [hlt e.2 (h.live e.2 (.inr (.inl ⟨e.1, he⟩)))]
    exact h.byNodeAddr e he
  · intro e he
    obtain ⟨hnext, hentry⟩ := h.byPubkey e he
    rw [hlt e.2 hnext]
    exact ⟨Nat.lt_succ_of_lt hnext, hentry⟩
  · intro q ho
    rw [peer_installPeer] at ho ⊢
    by_cases hnew : q = n.objs.next
    · rw [if_pos hnew] at ho ⊢
      exact hdialed ho
    · rw [if_neg hnew] at ho ⊢
      exact h.dialed q ho
  · intro hdrains q lid msgType payload hmem
    obtain ⟨hpeer, hlink, hnone, hremote⟩ := h.logged hdrains q lid msgType payload hmem
    refine ⟨Nat.lt_succ_of_lt hpeer, hlink, hnone, ?_⟩
    rw [hlt q hpeer]
    exact hremote

/-- A peer changes, but not its address; what it carries and drains anew is bound. -/
theorem Bound.modifyPeer (h : Bound S drains x n) {x' : Option (PeerId × LinkId)} {f : AdjacentPeer → AdjacentPeer}
    (haddr : (f (n.peer pid)).remoteAddr = (n.peer pid).remoteAddr)
    (hkey : ∀ k, k ≠ [] → SameIdentity k (n.peer pid).pubkey → SameIdentity k (f (n.peer pid)).pubkey)
    (hcarries : ∀ lid, (f (n.peer pid)).link = lid ∨ (f (n.peer pid)).pendingResponderLink = some lid →
      n.Carries pid lid ∧ (x = some (pid, lid) → x' = some (pid, lid)) ∨
      lid < n.links.next ∧ (x' = some (pid, lid) ∨ (n.link lid).Binds (f (n.peer pid)).pubkey) ∧
        ((n.link lid).hs = none ∨ ∀ q, n.Live q → n.Carries q lid → q = pid))
    (hdraining : drains → ∀ e ∈ (f (n.peer pid)).drainingResponderLinks, e ∈ (n.peer pid).drainingResponderLinks ∨
      e.2.link < n.links.next ∧ (n.link e.2.link).hs = none ∧ (n.link e.2.link).Binds (f (n.peer pid)).pubkey)
    (houtgoing : (f (n.peer pid)).outgoingHandshake.isSome = true → (n.peer pid).outgoingHandshake.isSome = true)
    (hx : ∀ q lid, q ≠ pid → x = some (q, lid) → x' = some (q, lid)) : Bound S drains x' (n.modifyPeer pid f) := by
  have hpeer : ∀ q, (n.modifyPeer pid f).peer q = if q = pid then f (n.peer pid) else n.peer q := by
    intro q
    show (n.objs.modify pid f).get q = _
    rw [Heap.get_modify]
    split
    · rename_i heq
      rw [heq]
      rfl
    · rfl
  have hself : (n.modifyPeer pid f).peer pid = f (n.peer pid) := by rw [hpeer, if_pos rfl]
  have hother : ∀ q, q ≠ pid → (n.modifyPeer pid f).peer q = n.peer q := fun q hne => by rw [hpeer, if_neg hne]
  have hout : ∀ q, ((n.modifyPeer pid f).peer q).outgoingHandshake.isSome = true → (n.peer q).outgoingHandshake.isSome = true := by
    intro q ho
    by_cases heq : q = pid
    · rw [heq, hself] at ho
      rw [heq]
      exact houtgoing ho
    · rw [hother q heq] at ho
      exact ho
  have hlive : ∀ q, (n.modifyPeer pid f).Live q → n.Live q := by
    rintro q (hvalue | hentry | ho)
    · exact .inl hvalue
    · exact .inr (.inl hentry)
    · exact .inr (.inr (hout q ho))
  have hsame : ∀ q k, k ≠ [] → SameIdentity k (n.peer q).pubkey → SameIdentity k ((n.modifyPeer pid f).peer q).pubkey := by
    intro q k hk hsame
    by_cases heq : q = pid
    · rw [heq] at hsame
      rw [heq, hself]
      exact hkey k hk hsame
    · rw [hother q heq]
      exact hsame
  have hkeys : ∀ q, (n.peer q).pubkey ≠ [] → ((n.modifyPeer pid f).peer q).pubkey ≠ [] :=
    fun q hne => (hsame q _ hne (.refl _)).ne_nil hne
  have hbinds : ∀ q lid, (n.link lid).Binds (n.peer q).pubkey → (n.link lid).Binds ((n.modifyPeer pid f).peer q).pubkey := by
    intro q lid hb hbound
    obtain ⟨k, hk, hsame'⟩ := hb hbound
    exact ⟨k, hk, hsame q k ((h.keyed lid).ne_nil hbound hk) hsame'⟩
  have hold : ∀ q lid, q ≠ pid → (n.modifyPeer pid f).Carries q lid → n.Carries q lid := by
    intro q lid hne hc
    unfold Carries at hc
    rw [hother q hne] at hc
    exact hc
  have hnew : ∀ lid, (n.modifyPeer pid f).Carries pid lid → (f (n.peer pid)).link = lid ∨
      (f (n.peer pid)).pendingResponderLink = some lid := by
    intro lid hc
    unfold Carries at hc
    rw [hself] at hc
    exact hc
  -- a link in its handshake that the peer carries has no other carrier
  have hsole : ∀ q lid, q ≠ pid → n.Live q → n.Live pid → n.Carries q lid → (n.modifyPeer pid f).Carries pid lid →
      (n.link lid).hs.isSome = true → False := by
    intro q lid hne hq hpid hc hc' hsome
    rcases hcarries lid (hnew lid hc') with ⟨hcarried, -⟩ | ⟨-, -, hnone | honly⟩
    · exact hne (h.sole q pid lid hq hpid hc hcarried hsome)
    · rw [hnone] at hsome
      cases hsome
    · exact hne (honly q hq hc)
  refine ⟨h.keyed, ?_, fun q hq => h.live q (hlive q hq), ?_, ?_, ?_, h.nodup, ?_, ?_, ?_, ?_, h.connecting, ?_⟩
  · intro q lid hq hc
    by_cases heq : q = pid
    · rw [heq] at hc hq
      rcases hcarries lid (hnew lid hc) with ⟨hcarried, -⟩ | ⟨hlt, -⟩
      · exact h.known pid lid (hlive pid hq) hcarried
      · exact hlt
    · exact h.known q lid (hlive q hq) (hold q lid heq hc)
  · intro q lid hq hc hne
    by_cases heq : q = pid
    · rw [heq] at hc hq hne ⊢
      rcases hcarries lid (hnew lid hc) with ⟨hcarried, hexempt⟩ | ⟨-, hexempt | hb, -⟩
      · exact hbinds pid lid (h.binds pid lid (hlive pid hq) hcarried fun hsome => hne (hexempt hsome))
      · exact absurd hexempt hne
      · rw [hself]
        exact hb
    · exact hbinds q lid (h.binds q lid (hlive q hq) (hold q lid heq hc) fun hsome => hne (hx q lid heq hsome))
  · intro q q' lid hq hq' hc hc' hsome
    by_cases heq : q = pid
    · by_cases heq' : q' = pid
      · rw [heq, heq']
      · rw [heq] at hc hq
        exact (hsole q' lid heq' (hlive q' hq') (hlive pid hq) (hold q' lid heq' hc') hc hsome).elim
    · by_cases heq' : q' = pid
      · rw [heq'] at hc' hq'
        exact (hsole q lid heq (hlive q hq) (hlive pid hq') (hold q lid heq hc) hc' hsome).elim
      · exact h.sole q q' lid (hlive q hq) (hlive q' hq') (hold q lid heq hc) (hold q' lid heq' hc') hsome
  · intro hdrains q e hq he
    have hentry : n.Live q → e ∈ (n.peer q).drainingResponderLinks → e.2.link < n.links.next ∧
        (n.link e.2.link).hs = none ∧ (n.link e.2.link).Binds ((n.modifyPeer pid f).peer q).pubkey := by
      intro hq he
      obtain ⟨hlt, hnone, hb⟩ := h.drained hdrains q e hq he
      exact ⟨hlt, hnone, hbinds q _ hb⟩
    by_cases heq : q = pid
    · rw [heq, hself] at he
      rcases hdraining hdrains e he with hmem | hfresh
      · rw [← heq] at hmem
        exact hentry (hlive q hq) hmem
      · rw [heq, hself]
        exact hfresh
    · rw [hother q heq] at he
      exact hentry (hlive q hq) he
  · intro e he
    by_cases heq : e.2 = pid
    · rw [heq, hself, haddr, ← heq]
      exact h.own e he
    · rw [hother e.2 heq]
      exact h.own e he
  · intro e he
    obtain ⟨hne, hentry⟩ := h.byNodeAddr e he
    exact ⟨hkeys e.2 hne, hentry.trans (hsame e.2 _ hne (.refl _)).nodeAddrOf_eq⟩
  · intro e he
    obtain ⟨hlt, hne, hentry⟩ := h.byPubkey e he
    exact ⟨hlt, hkeys e.2 hne, hentry.trans (hsame e.2 _ hne (.refl _))⟩
  · intro q ho
    exact hkeys q (h.dialed q (hout q ho))
  · intro hdrains q lid msgType payload hmem
    obtain ⟨hlt, hlink, hnone, k, hk, hlen, hsame'⟩ := h.logged hdrains q lid msgType payload hmem
    refine ⟨hlt, hlink, hnone, k, hk, hlen, hsame q k ?_ hsame'⟩
    rintro rfl
    cases hlen

/-- The peer that a new one replaces at its address is no longer reached by an address. -/
theorem not_value_installPeer (h : Bound S drains x n) {p : AdjacentPeer} (hlt : pid < n.objs.next)
    (hkey : transportAddressKey (n.peer pid).remoteAddr = transportAddressKey p.remoteAddr) :
    pid ∉ (n.installPeer (transportAddressKey p.remoteAddr) p).values := by
  intro hvalue
  obtain ⟨e, he, rfl⟩ := List.mem_map.1 hvalue
  have hget := JsMap.Nodup.get_of_mem (h.nodup.set (transportAddressKey p.remoteAddr) n.objs.next) he
  rw [JsMap.get_set] at hget
  rcases JsMap.mem_set he with rfl | hold
  · exact absurd hlt (Nat.lt_irrefl _)
  · rw [h.own e hold, if_pos hkey.symm] at hget
    rw [← Option.some.inj hget] at hlt
    exact absurd hlt (Nat.lt_irrefl _)

/-! ### The link of a Msg1 -/

/-- A responder that a Msg1 of the key has completed; its handshake is over for good. -/
structure Answered (n : FipsNode) (lid : LinkId) (pk : Bytes) : Prop where
  known : lid < n.links.next
  role : (n.link lid).role = .responder
  hs : (n.link lid).hs = none
  remote : (n.link lid).remotePubkey = some pk
  length : pk.length = 33

theorem Answered.less (ha : n.Answered lid pk) (h : Less S n n') : n'.Answered lid pk :=
  ⟨h.nextLink ▸ ha.known, (h.links lid).role.trans ha.role, (h.links lid).hs_none ha.hs,
    (h.links lid).remotePubkey.trans ha.remote, ha.length⟩

theorem Answered.binds (ha : n.Answered lid pk) {pubkey : Bytes} (hsame : SameIdentity pk pubkey) :
    (n.link lid).Binds pubkey := fun _ => ⟨pk, ha.remote, hsame⟩

/-- A responder in its handshake becomes another, of which the peer is not known to be the remote yet. -/
theorem Bound.replaceLink (h : Bound S drains none n) {l : FmpLink} (hl : l.Keyed) (hhs : (n.link lid).hs.isSome = true)
    (hsole : ∀ q, n.Live q → n.Carries q lid → q = pid) :
    Bound S drains (some (pid, lid)) (n.modifyLink lid fun _ => l) := by
  have hlink : ∀ lid', (n.modifyLink lid fun _ => l).link lid' = if lid' = lid then l else n.link lid' := by
    intro lid'
    show (n.links.modify lid fun _ => l).get lid' = _
    rw [Heap.get_modify]
    rfl
  have hother : ∀ lid', (n.link lid').hs = none → (n.modifyLink lid fun _ => l).link lid' = n.link lid' := by
    intro lid' hnone
    rw [hlink, if_neg]
    rintro rfl
    rw [hnone] at hhs
    cases hhs
  refine ⟨?_, h.known, h.live, ?_, ?_, ?_, h.nodup, h.own, h.byNodeAddr, h.byPubkey, h.dialed, h.connecting, ?_⟩
  · intro lid'
    rw [hlink]
    split
    · exact hl
    · exact h.keyed lid'
  · intro q lid' hlive hc hx
    rw [hlink, if_neg]
    · exact h.binds q lid' hlive hc (by rintro ⟨⟩)
    · rintro rfl
      exact hx (congrArg some (Prod.ext (hsole q hlive hc).symm rfl))
  · intro q q' lid' hlive hlive' hc hc' hsome
    rw [hlink] at hsome
    by_cases heq : lid' = lid
    · rw [heq] at hc hc'
      exact (hsole q hlive hc).trans (hsole q' hlive' hc').symm
    · rw [if_neg heq] at hsome
      exact h.sole q q' lid' hlive hlive' hc hc' hsome
  · intro hdrains q e hlive he
    obtain ⟨hlt, hnone, hbinds⟩ := h.drained hdrains q e hlive he
    rw [hother _ hnone]
    exact ⟨hlt, hnone, hbinds⟩
  · intro hdrains q lid' msgType payload hmem
    obtain ⟨hpeer, hlt, hnone, hremote⟩ := h.logged hdrains q lid' msgType payload hmem
    refine ⟨hpeer, hlt, ?_, ?_⟩
    · rw [hother lid' hnone]
      exact hnone
    · rw [hother lid' hnone]
      exact hremote

/-- The links have changed, and what they are used for has not. -/
structure LinksOnly (n n' : FipsNode) : Prop where
  objs : n'.objs = n.objs
  peers : n'.peers = n.peers
  byNodeAddr : n'.peersByNodeAddr = n.peersByNodeAddr
  admission : n'.admission = n.admission

theorem Bound.wp_handleMsg1 (h : Bound S drains none n) (pid : PeerId) {packet random : Bytes} {nowMs : ℚ} (hlid : lid < n.links.next)
    (hsole : (n.link lid).hs.isSome = true → ∀ q, n.Live q → n.Carries q lid → q = pid) :
    wp (onLink lid (FmpLink.handleMsg1 S packet random nowMs))
      (fun r n' => Bound S drains (some (pid, lid)) n' ∧ n'.Answered lid r.remotePubkey ∧
        (n'.link lid).state = .established ∧ LinksOnly n n')
      (fun _ n' => Bound S drains none n' ∧ LinksOnly n n') n := by
  have hself : ∀ l : FmpLink, (n.modifyLink lid fun _ => l).link lid = l := by
    intro l
    show (n.links.modify lid fun _ => l).get lid = l
    rw [Heap.get_modify_self]
  have hsame : Less S n (n.modifyLink lid fun _ => n.link lid) := less_modifyLink (.refl _)
  unfold onLink
  rw [wp_zoom]
  refine wp_mono (FmpLink.wp_handleMsg1_remote (h.keyed lid)) (fun r l hl => ?_) (fun e l hl => ?_)
  · obtain ⟨hkeyed, hrole, hstate, hremote, hfrom⟩ := hl
    obtain ⟨hnone, pk, hpk, hlen⟩ := hkeyed.established hstate
    rw [hremote] at hpk
    cases hpk
    have hanswered : (n.modifyLink lid fun _ => l).Answered lid r.remotePubkey := by
      refine ⟨hlid, ?_, ?_, ?_, hlen⟩
      · rw [hself]
        exact hrole
      · rw [hself]
        exact hnone
      · rw [hself]
        exact hremote
    refine ⟨?_, hanswered, ?_, rfl, rfl, rfl, rfl⟩
    · rcases hfrom with rfl | hhs
      · exact (h.less hsame).exempt
      · exact h.replaceLink hkeyed hhs (hsole hhs)
    · rw [hself]
      exact hstate
  · refine ⟨?_, rfl, rfl, rfl, rfl⟩
    rcases hl with rfl | ⟨hkeyed, hrole, hstate, hhs⟩
    · exact h.less hsame
    · refine (h.replaceLink hkeyed hhs (hsole hhs)).unexempt fun _ _ => ?_
      rw [hself]
      rintro (hestablished | hinitiator)
      · exact absurd hestablished hstate
      · rw [hrole] at hinitiator
        cases hinitiator

/-! ### Pending responders -/

/-- A closed responder is bound to any identity. -/
theorem Answered.binds_close (ha : n.Answered lid pk) {pubkey : Bytes} : ((n.closeLink lid).link lid).Binds pubkey := by
  have hself : (n.closeLink lid).link lid = (n.link lid).close := Heap.get_modify_self
  rw [hself]
  rintro (hestablished | hinitiator)
  · cases hestablished
  · have hrole : (n.link lid).close.role = .responder := ha.role
    rw [hrole] at hinitiator
    cases hinitiator

/-- The link is the pending responder of a peer from now on. -/
def withPending (pid : PeerId) (lid : LinkId) (n : FipsNode) : FipsNode :=
  { n.modifyPeer pid fun p => { p with pendingResponderLink := some lid } with
    pendingResponders := n.pendingResponders.set pid lid }

theorem peer_withPending : (n.withPending pid lid).peer q =
    if q = pid then { n.peer q with pendingResponderLink := some lid } else n.peer q := by
  show (n.objs.modify pid fun p => { p with pendingResponderLink := some lid }).get q = _
  rw [Heap.get_modify]
  rfl

theorem Bound.withPending (h : Bound S drains x n) (ha : n.Answered lid pk)
    (hbinds : x = some (pid, lid) ∨ (n.link lid).Binds (n.peer pid).pubkey) : Bound S drains x (n.withPending pid lid) := by
  have hmodified : Bound S drains x (n.modifyPeer pid fun p => { p with pendingResponderLink := some lid }) := by
    refine h.modifyPeer rfl (fun _ _ hsame => hsame) (fun lid' hc => ?_) (fun _ _ he => .inl he) id fun _ _ _ hx => hx
    rcases hc with hlink | hpending
    · exact .inl ⟨.inl hlink, id⟩
    · rw [← Option.some.inj hpending]
      exact .inr ⟨ha.known, hbinds, .inl ha.hs⟩
  exact hmodified.less (Aside.less ⟨rfl, rfl, rfl, rfl, rfl, rfl, fun _ _ _ _ hmem => hmem⟩)

/-- The objects of a peer as the reconciliation reads them. -/
structure SamePeer (n n' : FipsNode) (pid : PeerId) : Prop where
  peers : n'.peers = n.peers
  byNodeAddr : n'.peersByNodeAddr = n.peersByNodeAddr
  admission : n'.admission = n.admission
  pubkey : (n'.peer pid).pubkey = (n.peer pid).pubkey
  remoteAddr : (n'.peer pid).remoteAddr = (n.peer pid).remoteAddr
  link : (n'.peer pid).link = (n.peer pid).link

theorem SamePeer.refl (n : FipsNode) (pid : PeerId) : SamePeer n n pid := ⟨rfl, rfl, rfl, rfl, rfl, rfl⟩

theorem SamePeer.trans {n'' : FipsNode} (h : SamePeer n n' pid) (h' : SamePeer n' n'' pid) : SamePeer n n'' pid :=
  ⟨h'.peers.trans h.peers, h'.byNodeAddr.trans h.byNodeAddr, h'.admission.trans h.admission, h'.pubkey.trans h.pubkey,
    h'.remoteAddr.trans h.remoteAddr, h'.link.trans h.link⟩

theorem LinksOnly.samePeer (h : LinksOnly n n') : SamePeer n n' pid := by
  have hpeer : n'.peer pid = n.peer pid := by
    unfold peer
    rw [h.objs]
  exact ⟨h.peers, h.byNodeAddr, h.admission, by rw [hpeer], by rw [hpeer], by rw [hpeer]⟩

theorem samePeer_takePending : SamePeer n (n.takePending pid) pid := by
  have hpeer : (n.takePending pid).peer pid = { n.peer pid with pendingResponderLink := none } := by
    show (n.objs.modify pid fun p => { p with pendingResponderLink := none }).get pid = _
    rw [Heap.get_modify_self]
    rfl
  exact ⟨rfl, rfl, rfl, by rw [hpeer], by rw [hpeer], by rw [hpeer]⟩

theorem samePeer_discardPending : SamePeer n (n.discardPending pid) pid := by
  unfold discardPending
  split
  · exact samePeer_takePending.trans ⟨rfl, rfl, rfl, rfl, rfl, rfl⟩
  · exact samePeer_takePending

theorem samePeer_withPending : SamePeer n (n.withPending pid lid) pid := by
  have hpeer : (n.withPending pid lid).peer pid = { n.peer pid with pendingResponderLink := some lid } := by
    rw [peer_withPending, if_pos rfl]
  exact ⟨rfl, rfl, rfl, by rw [hpeer], by rw [hpeer], by rw [hpeer]⟩

/-- A completed responder waits for confirmation, unless there are too many. -/
theorem Bound.wp_setPending (h : Bound S drains x n) (hx : x = none ∨ x = some (pid, lid)) (ha : n.Answered lid pk)
    (hbinds : x = some (pid, lid) ∨ (n.link lid).Binds (n.peer pid).pubkey) :
    wp (setPending S cfg env pid lid)
      (fun _ n' => Bound S drains x n' ∧ n'.Answered lid pk ∧ SamePeer n n' pid ∧
        ∀ lid', (n.peer pid).pendingResponderLink ≠ some lid' → n'.link lid' = n.link lid')
      (fun _ n' => Bound S drains none n') n := by
  unfold setPending
  simp only [wp_bind, wp_get, wp_ite, wp_pure, wp_modify, wp_throw]
  refine ⟨fun _ => ⟨h, ha, .refl n pid, fun _ _ => trivial⟩, fun _ => ?_⟩
  have hdiscard : Less S n (n.discardPending pid) := less_discardPending
  have hdiscarded : Bound S drains x (n.discardPending pid) := h.less hdiscard
  have ha' : (n.discardPending pid).Answered lid pk := ha.less hdiscard
  refine ⟨fun _ => ?_, fun _ => ?_⟩
  · have hclosed : Bound S drains none ((n.discardPending pid).closeLink lid) := by
      have hclose : Less S (n.discardPending pid) ((n.discardPending pid).closeLink lid) := less_closeLink
      have hless := hdiscarded.less hclose
      rcases hx with rfl | rfl
      · exact hless
      · exact hless.unexempt fun _ _ => ha'.binds_close
    split
    · exact hclosed.less less_removeOwnPath
    · exact hclosed
  · refine ⟨hdiscarded.withPending ha' ?_, ?_, samePeer_discardPending.trans samePeer_withPending, fun lid' hne => ?_⟩
    · rcases hbinds with heq | hbinds
      · exact .inl heq
      · refine .inr ?_
        rw [hdiscard.pubkey]
        exact (hdiscard.links lid).binds hbinds
    · exact ⟨ha'.known, ha'.role, ha'.hs, ha'.remote, ha'.length⟩
    · show (n.discardPending pid).link lid' = n.link lid'
      unfold discardPending
      split
      · rename_i lid'' hpending
        refine Heap.get_modify_of_ne ?_
        rintro rfl
        exact hne hpending
      · rfl

/-! ### Authentication -/

/-- A Msg1 has been authenticated as the key's by a link of the peer. -/
structure Authenticated (S : Suite) (drains : Prop) (n : FipsNode) (pid : PeerId) (pk : Bytes) (lid : LinkId) (n' : FipsNode) :
    Prop where
  bound : Bound S drains (some (pid, lid)) n'
  answered : n'.Answered lid pk
  state : (n'.link lid).state = .established
  same : SamePeer n n' pid

theorem Bound.wp_stageNewResponder (h : Bound S drains none n) (hvalue : pid ∈ n.values) {packet : Bytes} :
    wp (PacketProcessor.stageNewResponder S cfg env pid packet)
      (fun r n' => Authenticated S drains n pid r.1.remotePubkey r.2 n') (fun _ n' => Bound S drains none n') n := by
  unfold PacketProcessor.stageNewResponder PacketProcessor.newResponderLink
  rw [wp_bind]
  refine wp_newLink (by rintro _ ⟨⟩) (by rintro ⟨⟩) (fun l hl hrole hstate _ => ?_) fun _ => h.less (Aside.less ?_)
  · have hwith : Bound S drains none (n.withLink l) := h.withLink hl
    have hfresh : ∀ q, (n.withLink l).Live q → ¬ (n.withLink l).Carries q n.links.next := fun q hlive hc =>
      Nat.lt_irrefl _ (h.known q _ hlive hc)
    rw [wp_bind]
    refine wp_mono (hwith.wp_handleMsg1 pid (Nat.lt_succ_self _) fun _ q hlive hc => absurd hc (hfresh q hlive))
      (fun r n' hr => ?_) fun _ _ he => he.1
    obtain ⟨hbound, hanswered, hestablished, honly⟩ := hr
    have hnew : SamePeer n (n.withLink l) pid := ⟨rfl, rfl, rfl, rfl, rfl, rfl⟩
    have hsame : SamePeer n n' pid := hnew.trans honly.samePeer
    rw [wp_bind]
    refine wp_mono (hbound.wp_setPending (.inr rfl) hanswered (.inl rfl)) (fun _ n'' hn'' => ?_) fun _ _ he => he
    obtain ⟨hbound', hanswered', hsame', hlinks⟩ := hn''
    refine ⟨hbound', hanswered', ?_, hsame.trans hsame'⟩
    rw [hlinks]
    · exact hestablished
    · intro hpending
      have hpeer : n'.peer pid = (n.withLink l).peer pid := by
        unfold peer
        rw [honly.objs]
      rw [hpeer] at hpending
      exact hfresh pid (.inl hvalue) (.inr hpending)
  · exact ⟨rfl, rfl, rfl, rfl, rfl, rfl, fun _ _ _ _ h => h⟩

/-- A link that the peer carries reads the Msg1. -/
theorem Bound.wp_handleMsg1_carried (h : Bound S drains none n) (hvalue : pid ∈ n.values) (hc : n.Carries pid lid)
    {packet random : Bytes} {nowMs : ℚ} :
    wp (onLink lid (FmpLink.handleMsg1 S packet random nowMs)) (fun r n' => Authenticated S drains n pid r.remotePubkey lid n')
      (fun _ n' => Bound S drains none n' ∧ SamePeer n n' pid) n := by
  refine wp_mono (h.wp_handleMsg1 pid (h.known pid lid (.inl hvalue) hc) fun hhs q hlive hq => ?_) (fun r n' hr => ?_)
    fun _ _ he => ⟨he.1, he.2.samePeer⟩
  · exact h.sole q pid lid hlive (.inl hvalue) hq hc hhs
  · exact ⟨hr.1, hr.2.1, hr.2.2.1, hr.2.2.2.samePeer⟩

theorem Authenticated.of_samePeer {n₁ : FipsNode} (hsame : SamePeer n n₁ pid) (h : Authenticated S drains n₁ pid pk lid n') :
    Authenticated S drains n pid pk lid n' := ⟨h.bound, h.answered, h.state, hsame.trans h.same⟩

theorem SamePeer.mem_values (h : SamePeer n n' pid) (hvalue : pid ∈ n.values) : pid ∈ n'.values := by
  unfold values
  rw [h.peers]
  exact hvalue

theorem Bound.wp_stageResponderReplacement (h : Bound S drains none n) (hvalue : pid ∈ n.values) {packet : Bytes} :
    wp (PacketProcessor.stageResponderReplacement S cfg env pid packet)
      (fun r n' => Authenticated S drains n pid r.1.remotePubkey r.2 n') (fun _ n' => Bound S drains none n') n := by
  unfold PacketProcessor.stageResponderReplacement
  rw [wp_bind, wp_get]
  split
  · rename_i lid hpending
    rw [wp_catching, wp_bind]
    refine wp_mono (h.wp_handleMsg1_carried hvalue (.inr hpending)) (fun r n' hr => hr) (fun e n' he => ?_)
    obtain ⟨hbound, hsame⟩ := he
    split
    · -- a fresh Msg1 gives the pending responder up
      rw [wp_bind, wp_modify]
      have hdiscarded : SamePeer n (n'.discardPending pid) pid := hsame.trans samePeer_discardPending
      exact wp_mono ((hbound.less less_discardPending).wp_stageNewResponder (hdiscarded.mem_values hvalue))
        (fun r n'' hr => hr.of_samePeer hdiscarded) fun _ _ he => he
    · exact hbound
  · exact h.wp_stageNewResponder hvalue

theorem Bound.wp_authenticateMsg1 (h : Bound S drains none n) (hvalue : pid ∈ n.values) {stage : Bool} {packet : Bytes} :
    wp (PacketProcessor.authenticateMsg1 S cfg env pid stage packet)
      (fun r n' => Authenticated S drains n pid r.1.remotePubkey r.2 n') (fun _ n' => Bound S drains none n') n := by
  have hown : wp (PacketProcessor.handleMsg1OnLink S env pid packet)
      (fun r n' => Authenticated S drains n pid r.1.remotePubkey r.2 n')
      (fun _ n' => Bound S drains none n' ∧ SamePeer n n' pid) n := by
    unfold PacketProcessor.handleMsg1OnLink
    rw [wp_bind, wp_get, wp_bind]
    exact wp_mono (h.wp_handleMsg1_carried hvalue (.inl rfl)) (fun r n' hr => hr) fun _ _ he => he
  unfold PacketProcessor.authenticateMsg1
  rw [wp_bind, wp_get, wp_ite]
  refine ⟨fun _ => h.wp_stageResponderReplacement hvalue, fun _ => ?_⟩
  rw [wp_ite]
  refine ⟨fun _ => ?_, fun _ => wp_mono hown (fun _ _ hr => hr) fun _ _ he => he.1⟩
  rw [wp_catching]
  refine wp_mono hown (fun _ _ hr => hr) (fun e n' he => ?_)
  split
  · exact wp_mono (he.1.wp_stageResponderReplacement (he.2.mem_values hvalue)) (fun r n'' hr => hr.of_samePeer he.2)
      fun _ _ he' => he'
  · exact he.1

end FipsNode

end Fips
