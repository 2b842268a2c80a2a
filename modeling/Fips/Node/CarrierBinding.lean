import Fips.Fmp.Remote
import Fips.Node.Connects

/-!
# Links and the identities of their peers

The links of a peer that the node can still reach have been authenticated by the identity that the peer is
recorded under. Most of what a node does only closes links and forgets peers (`Less`); a Msg1 exempts the
link that it authenticates until the node has reconciled it.
-/

namespace Fips
open Exec

/-- Two keys of one identity. -/
def SameIdentity (a b : Bytes) : Prop := a = b ∨ sameCompressedIdentity a b = true

section
variable {S : Suite} {a b c : Bytes}

theorem sameCompressedIdentity_iff : sameCompressedIdentity a b = true ↔ SameX a b := by
  unfold sameCompressedIdentity SameX IsCompressed
  rw [decide_eq_true_eq]
  constructor
  · rintro ⟨ha, hb, ha', hb', heq⟩
    exact ⟨⟨ha, ha'⟩, ⟨hb, hb'⟩, heq⟩
  · rintro ⟨⟨ha, ha'⟩, ⟨hb, hb'⟩, heq⟩
    exact ⟨ha, hb, ha', hb', heq⟩

theorem SameIdentity.refl (a : Bytes) : SameIdentity a a := .inl rfl

theorem SameIdentity.symm (h : SameIdentity a b) : SameIdentity b a := by
  rcases h with rfl | h
  · exact .refl a
  · exact .inr (sameCompressedIdentity_iff.2 (sameCompressedIdentity_iff.1 h).symm)

theorem SameIdentity.trans (h : SameIdentity a b) (h' : SameIdentity b c) : SameIdentity a c := by
  rcases h with rfl | h
  · exact h'
  · rcases h' with rfl | h'
    · exact .inr h
    · obtain ⟨ha, -, hab⟩ := sameCompressedIdentity_iff.1 h
      obtain ⟨-, hc, hbc⟩ := sameCompressedIdentity_iff.1 h'
      exact .inr (sameCompressedIdentity_iff.2 ⟨ha, hc, hab.trans hbc⟩)

theorem SameIdentity.ne_nil (h : SameIdentity a b) (ha : a ≠ []) : b ≠ [] := by
  rcases h with rfl | h
  · exact ha
  · rintro rfl
    cases (sameCompressedIdentity_iff.1 h).2.1.1

theorem SameIdentity.nodeAddrOf_eq (h : SameIdentity a b) : nodeAddrOf S a = nodeAddrOf S b := by
  rcases h with rfl | h
  · rfl
  · obtain ⟨⟨ha, ha'⟩, ⟨hb, hb'⟩, heq⟩ := sameCompressedIdentity_iff.1 h
    have haddr : ∀ k : Bytes, k.length = 33 → k.head? = some 2 ∨ k.head? = some 3 →
        deriveNodeAddr S k = .ok ((S.sha256 k.tail).take 16) := by
      intro k hk hprefix
      unfold deriveNodeAddr
      rw [if_neg (by omega), if_pos hk, if_neg]
      rintro ⟨h2, h3⟩
      rcases hprefix with hp | hp
      · exact h2 hp
      · exact h3 hp
    unfold nodeAddrOf
    rw [haddr a ha ha', haddr b hb hb', heq]

end

/-- Once it is established, the link is with the identity of the key. -/
def FmpLink.Binds (l : FmpLink) (pubkey : Bytes) : Prop :=
  l.state = .established ∨ l.role = .initiator → ∃ pk, l.remotePubkey = some pk ∧ SameIdentity pk pubkey

theorem FmpLink.Keyed.ne_nil {l : FmpLink} (h : l.Keyed) {pk : Bytes} (hbound : l.state = .established ∨ l.role = .initiator)
    (hpk : l.remotePubkey = some pk) : pk ≠ [] := by
  have hlen : ∃ k, l.remotePubkey = some k ∧ k.length = 33 := by
    rcases hbound with hestablished | hinitiator
    · exact (h.established hestablished).2
    · exact h.initiator hinitiator
  obtain ⟨k, hk, hlen⟩ := hlen
  rintro rfl
  rw [hpk] at hk
  cases hk
  cases hlen

theorem FmpLink.Weaker.binds {l l' : FmpLink} {pubkey : Bytes} (h : l.Weaker l') (hb : l.Binds pubkey) : l'.Binds pubkey := by
  intro hbound
  rw [h.remotePubkey]
  refine hb ?_
  rcases hbound with hstate | hrole
  · exact h.established hstate
  · exact .inr (h.role.symm.trans hrole)

namespace FipsNode

variable {S : Suite} {cfg : NodeConfig} {env : NodeEnv} {drains : Prop} {x : Option (PeerId × LinkId)} {n n' n'' : FipsNode}
  {pid : PeerId} {lid : LinkId}

/-- The link of a peer, and its pending responder. -/
def Carries (n : FipsNode) (pid : PeerId) (lid : LinkId) : Prop :=
  (n.peer pid).link = lid ∨ (n.peer pid).pendingResponderLink = some lid

/-- A peer that the node can still reach: by its transport address, by its node address, or by its handshake. -/
def Live (n : FipsNode) (pid : PeerId) : Prop :=
  pid ∈ n.values ∨ (∃ a, (a, pid) ∈ n.peersByNodeAddr) ∨ (n.peer pid).outgoingHandshake.isSome = true

/-- The link is with the identity of the peer, for good. -/
structure Attributed (n : FipsNode) (pid : PeerId) (lid : LinkId) : Prop where
  peer : pid < n.objs.next
  link : lid < n.links.next
  hs : (n.link lid).hs = none
  remote : ∃ pk, (n.link lid).remotePubkey = some pk ∧ pk.length = 33 ∧ SameIdentity pk (n.peer pid).pubkey

/-- The invariant, for the draining links too if `drains` holds, and but for the link `x` of a peer. -/
structure Bound (S : Suite) (drains : Prop) (x : Option (PeerId × LinkId)) (n : FipsNode) : Prop where
  keyed : ∀ lid, (n.link lid).Keyed
  known : ∀ pid lid, n.Live pid → n.Carries pid lid → lid < n.links.next
  live : ∀ pid, n.Live pid → pid < n.objs.next
  binds : ∀ pid lid, n.Live pid → n.Carries pid lid → x ≠ some (pid, lid) → (n.link lid).Binds (n.peer pid).pubkey
  sole : ∀ pid pid' lid, n.Live pid → n.Live pid' → n.Carries pid lid → n.Carries pid' lid →
    (n.link lid).hs.isSome = true → pid = pid'
  drained : drains → ∀ pid e, n.Live pid → e ∈ (n.peer pid).drainingResponderLinks →
    e.2.link < n.links.next ∧ (n.link e.2.link).hs = none ∧ (n.link e.2.link).Binds (n.peer pid).pubkey
  nodup : JsMap.Nodup n.peers
  own : ∀ e ∈ n.peers, e.1 = transportAddressKey (n.peer e.2).remoteAddr
  byNodeAddr : ∀ e ∈ n.peersByNodeAddr, (n.peer e.2).pubkey ≠ [] ∧ e.1 = nodeAddrOf S (n.peer e.2).pubkey
  byPubkey : ∀ e ∈ n.peersByPubkey, e.2 < n.objs.next ∧ (n.peer e.2).pubkey ≠ [] ∧ SameIdentity e.1 (n.peer e.2).pubkey
  dialed : ∀ pid, (n.peer pid).outgoingHandshake.isSome = true → (n.peer pid).pubkey ≠ []
  connecting : ∀ c, (n.connects.get c).stage = .connecting → IsCompressed (n.connects.get c).remotePubkey
  logged : drains → ∀ pid lid msgType payload, .linkMessage pid lid msgType payload ∈ n.log → n.Attributed pid lid

/-- Links have been used or closed and peers forgotten; a peer may have been indexed again. -/
structure Less (S : Suite) (n n' : FipsNode) : Prop where
  links : ∀ lid, (n.link lid).Weaker (n'.link lid)
  nextLink : n'.links.next = n.links.next
  nextPeer : n'.objs.next = n.objs.next
  pubkey : ∀ pid, (n'.peer pid).pubkey = (n.peer pid).pubkey
  remoteAddr : ∀ pid, (n'.peer pid).remoteAddr = (n.peer pid).remoteAddr
  carries : ∀ pid lid, n'.Carries pid lid → n.Carries pid lid
  draining : ∀ pid, ∀ e ∈ (n'.peer pid).drainingResponderLinks, e ∈ (n.peer pid).drainingResponderLinks
  outgoing : ∀ pid, (n'.peer pid).outgoingHandshake.isSome = true → (n.peer pid).outgoingHandshake.isSome = true
  live : ∀ pid, n'.Live pid → n.Live pid
  nodup : JsMap.Nodup n.peers → JsMap.Nodup n'.peers
  peers : ∀ e ∈ n'.peers, e ∈ n.peers ∨ e.1 = transportAddressKey (n.peer e.2).remoteAddr
  byNodeAddr : ∀ e ∈ n'.peersByNodeAddr, e ∈ n.peersByNodeAddr ∨
    (n.peer e.2).pubkey ≠ [] ∧ e.1 = nodeAddrOf S (n.peer e.2).pubkey
  byPubkey : ∀ e ∈ n'.peersByPubkey, (∃ pid, (e.1, pid) ∈ n.peersByPubkey ∧ SameIdentity (n.peer pid).pubkey (n.peer e.2).pubkey ∧
      (pid = e.2 ∨ n.Live e.2)) ∨ n.Live e.2 ∧ (n.peer e.2).pubkey ≠ [] ∧ SameIdentity e.1 (n.peer e.2).pubkey
  connecting : ∀ c, (n'.connects.get c).stage = .connecting →
    (n.connects.get c).stage = .connecting ∧ (n'.connects.get c).remotePubkey = (n.connects.get c).remotePubkey
  log : ∀ pid lid msgType payload, .linkMessage pid lid msgType payload ∈ n'.log → .linkMessage pid lid msgType payload ∈ n.log

theorem Less.refl (n : FipsNode) : Less S n n where
  links _ := .refl _
  nextLink := rfl
  nextPeer := rfl
  pubkey _ := rfl
  remoteAddr _ := rfl
  carries _ _ h := h
  draining _ _ h := h
  outgoing _ h := h
  live _ h := h
  nodup h := h
  peers _ h := .inl h
  byNodeAddr _ h := .inl h
  byPubkey e h := .inl ⟨e.2, h, .refl _, .inl rfl⟩
  connecting _ h := ⟨h, rfl⟩
  log _ _ _ _ h := h

theorem Less.trans (h : Less S n n') (h' : Less S n' n'') : Less S n n'' where
  links lid := (h.links lid).trans (h'.links lid)
  nextLink := h'.nextLink.trans h.nextLink
  nextPeer := h'.nextPeer.trans h.nextPeer
  pubkey pid := (h'.pubkey pid).trans (h.pubkey pid)
  remoteAddr pid := (h'.remoteAddr pid).trans (h.remoteAddr pid)
  carries pid lid hc := h.carries pid lid (h'.carries pid lid hc)
  draining pid e he := h.draining pid e (h'.draining pid e he)
  outgoing pid ho := h.outgoing pid (h'.outgoing pid ho)
  live pid hl := h.live pid (h'.live pid hl)
  nodup hn := h'.nodup (h.nodup hn)
  peers e he := by
    rcases h'.peers e he with hold | hown
    · exact h.peers e hold
    · rw [h.remoteAddr] at hown
      exact .inr hown
  byNodeAddr e he := by
    rcases h'.byNodeAddr e he with hold | hnew
    · exact h.byNodeAddr e hold
    · rw [h.pubkey] at hnew
      exact .inr hnew
  byPubkey e he := by
    rcases h'.byPubkey e he with ⟨pid, hmem, hsame, hlive⟩ | ⟨hlive, hnew⟩
    · rw [h.pubkey, h.pubkey] at hsame
      rcases h.byPubkey (e.1, pid) hmem with ⟨pid', hmem', hsame', hlive'⟩ | ⟨hlive', hne, hsame'⟩
      · refine .inl ⟨pid', hmem', hsame'.trans hsame, ?_⟩
        rcases hlive with rfl | hlive
        · exact hlive'
        · exact .inr (h.live _ hlive)
      · refine .inr ⟨?_, hsame.ne_nil hne, hsame'.trans hsame⟩
        rcases hlive with rfl | hlive
        · exact hlive'
        · exact h.live _ hlive
    · rw [h.pubkey] at hnew
      exact .inr ⟨h.live _ hlive, hnew⟩
  connecting c hc := by
    obtain ⟨hstage, hkey⟩ := h'.connecting c hc
    obtain ⟨hstage', hkey'⟩ := h.connecting c hstage
    exact ⟨hstage', hkey.trans hkey'⟩
  log pid lid msgType payload hmem := h.log pid lid msgType payload (h'.log pid lid msgType payload hmem)

/-- Links have been used or closed, and every peer has its key. -/
structure Kept (n n' : FipsNode) : Prop where
  links : ∀ lid, (n.link lid).Weaker (n'.link lid)
  nextLink : n'.links.next = n.links.next
  nextPeer : n'.objs.next = n.objs.next
  pubkey : ∀ pid, (n'.peer pid).pubkey = (n.peer pid).pubkey

theorem Kept.refl (n : FipsNode) : Kept n n := ⟨fun _ => .refl _, rfl, rfl, fun _ => rfl⟩

theorem Kept.trans (h : Kept n n') (h' : Kept n' n'') : Kept n n'' :=
  ⟨fun lid => (h.links lid).trans (h'.links lid), h'.nextLink.trans h.nextLink, h'.nextPeer.trans h.nextPeer,
    fun pid => (h'.pubkey pid).trans (h.pubkey pid)⟩

theorem Less.kept (h : Less S n n') : Kept n n' := ⟨h.links, h.nextLink, h.nextPeer, h.pubkey⟩

theorem Attributed.kept (ha : n.Attributed pid lid) (h : Kept n n') : n'.Attributed pid lid := by
  refine ⟨h.nextPeer ▸ ha.peer, h.nextLink ▸ ha.link, (h.links lid).hs_none ha.hs, ?_⟩
  rw [(h.links lid).remotePubkey, h.pubkey]
  exact ha.remote

theorem Bound.less (h : Bound S drains x n) (hless : Less S n n') : Bound S drains x n' where
  keyed lid := (hless.links lid).keyed (h.keyed lid)
  known pid lid hlive hcarries := by
    rw [hless.nextLink]
    exact h.known pid lid (hless.live pid hlive) (hless.carries pid lid hcarries)
  live pid hlive := by
    rw [hless.nextPeer]
    exact h.live pid (hless.live pid hlive)
  binds pid lid hlive hcarries hx := by
    rw [hless.pubkey]
    exact (hless.links lid).binds (h.binds pid lid (hless.live pid hlive) (hless.carries pid lid hcarries) hx)
  sole pid pid' lid hlive hlive' hcarries hcarries' hhs :=
    h.sole pid pid' lid (hless.live pid hlive) (hless.live pid' hlive') (hless.carries pid lid hcarries)
      (hless.carries pid' lid hcarries') ((hless.links lid).hs hhs)
  drained hdrains pid e hlive he := by
    obtain ⟨hlt, hhs, hbinds⟩ := h.drained hdrains pid e (hless.live pid hlive) (hless.draining pid e he)
    refine ⟨hless.nextLink ▸ hlt, (hless.links e.2.link).hs_none hhs, ?_⟩
    rw [hless.pubkey]
    exact (hless.links e.2.link).binds hbinds
  nodup := hless.nodup h.nodup
  own e he := by
    rw [hless.remoteAddr]
    rcases hless.peers e he with hold | hown
    · exact h.own e hold
    · exact hown
  byNodeAddr e he := by
    rw [hless.pubkey]
    rcases hless.byNodeAddr e he with hold | hnew
    · exact h.byNodeAddr e hold
    · exact hnew
  byPubkey e he := by
    rw [hless.pubkey, hless.nextPeer]
    rcases hless.byPubkey e he with ⟨pid, hmem, hsame, hlive⟩ | ⟨hlive, hnew⟩
    · obtain ⟨hlt, hne, hkey⟩ := h.byPubkey (e.1, pid) hmem
      refine ⟨?_, hsame.ne_nil hne, hkey.trans hsame⟩
      rcases hlive with rfl | hlive
      · exact hlt
      · exact h.live _ hlive
    · exact ⟨h.live _ hlive, hnew⟩
  dialed pid ho := by
    rw [hless.pubkey]
    exact h.dialed pid (hless.outgoing pid ho)
  connecting c hc := by
    obtain ⟨hstage, hkey⟩ := hless.connecting c hc
    rw [hkey]
    exact h.connecting c hstage
  logged hdrains pid lid msgType payload hmem :=
    (h.logged hdrains pid lid msgType payload (hless.log pid lid msgType payload hmem)).kept hless.kept

/-! ### What only closes and forgets -/

/-- What the invariant is about is the same. -/
structure Aside (n n' : FipsNode) : Prop where
  links : n'.links = n.links
  objs : n'.objs = n.objs
  peers : n'.peers = n.peers
  byPubkey : n'.peersByPubkey = n.peersByPubkey
  byNodeAddr : n'.peersByNodeAddr = n.peersByNodeAddr
  connects : n'.connects = n.connects
  log : ∀ pid lid msgType payload, .linkMessage pid lid msgType payload ∈ n'.log → .linkMessage pid lid msgType payload ∈ n.log

theorem Aside.refl (n : FipsNode) : Aside n n := ⟨rfl, rfl, rfl, rfl, rfl, rfl, fun _ _ _ _ h => h⟩

theorem Aside.trans (h : Aside n n') (h' : Aside n' n'') : Aside n n'' :=
  ⟨h'.links.trans h.links, h'.objs.trans h.objs, h'.peers.trans h.peers, h'.byPubkey.trans h.byPubkey,
    h'.byNodeAddr.trans h.byNodeAddr, h'.connects.trans h.connects, fun pid lid msgType payload hmem =>
    h.log pid lid msgType payload (h'.log pid lid msgType payload hmem)⟩

theorem Aside.less (h : Aside n n') : Less S n n' := by
  obtain ⟨hlinks, hobjs, hpeers, hbyPubkey, hbyNodeAddr, hconnects, hlog⟩ := h
  have hpeer : ∀ pid, n'.peer pid = n.peer pid := by
    intro pid
    unfold peer
    rw [hobjs]
  have hlink : ∀ lid, n'.link lid = n.link lid := by
    intro lid
    unfold link
    rw [hlinks]
  refine ⟨?_, ?_, ?_, ?_, ?_, ?_, ?_, ?_, ?_, ?_, ?_, ?_, ?_, ?_, hlog⟩
  · intro lid
    rw [hlink]
    exact .refl _
  · rw [hlinks]
  · rw [hobjs]
  · intro pid
    rw [hpeer]
  · intro pid
    rw [hpeer]
  · intro pid lid
    unfold Carries
    rw [hpeer]
    exact id
  · intro pid e
    rw [hpeer]
    exact id
  · intro pid
    rw [hpeer]
    exact id
  · intro pid
    unfold Live values
    rw [hpeers, hbyNodeAddr, hpeer]
    exact id
  · rw [hpeers]
    exact id
  · rw [hpeers]
    exact fun e he => .inl he
  · rw [hbyNodeAddr]
    exact fun e he => .inl he
  · rw [hbyPubkey]
    exact fun e he => .inl ⟨e.2, he, .refl _, .inl rfl⟩
  · rw [hconnects]
    exact fun c hc => ⟨hc, rfl⟩

theorem aside_record {e : NodeEffect} (he : ∀ pid lid msgType payload, e ≠ .linkMessage pid lid msgType payload) :
    Aside n (n.record e) := by
  refine ⟨rfl, rfl, rfl, rfl, rfl, rfl, fun pid lid msgType payload hmem => ?_⟩
  rcases List.mem_append.1 hmem with hold | hnew
  · exact hold
  · exact absurd (List.mem_singleton.1 hnew).symm (he pid lid msgType payload)

theorem aside_setBlockedPeerPubkeys {next : PeerAdmission} : Aside n (n.setBlockedPeerPubkeys next) := by
  unfold setBlockedPeerPubkeys
  split
  · exact .refl n
  · exact ⟨rfl, rfl, rfl, rfl, rfl, rfl, fun _ _ _ _ h => h⟩

theorem aside_emit {e : NodeEffect} (he : ∀ pid lid msgType payload, e ≠ .linkMessage pid lid msgType payload) :
    Aside n (n.emit cfg e) := by
  have hrecord : Aside n (n.record e) := aside_record he
  unfold emit
  dsimp only
  split
  · exact hrecord.trans aside_setBlockedPeerPubkeys
  · exact hrecord

theorem aside_emitPeer {connected : Bool} : Aside n (n.emitPeer cfg pid connected) :=
  aside_emit (by rintro _ _ _ _ ⟨⟩)

theorem aside_foldl {α : Type} {f : FipsNode → α → FipsNode} (hf : ∀ n a, Aside n (f n a)) (as : List α) (n : FipsNode) :
    Aside n (as.foldl f n) := by
  induction as generalizing n with
  | nil => exact .refl n
  | cons a as ih => exact (hf n a).trans (ih _)

theorem aside_withManager {m : Manager} : Aside n (n.withManager cfg m) := by
  have hmanager : Aside n { n with sessionManager := m } := ⟨rfl, rfl, rfl, rfl, rfl, rfl, fun _ _ _ _ h => h⟩
  unfold withManager
  refine hmanager.trans (aside_foldl (fun n e => ?_) _ _)
  split
  · exact aside_emit (by rintro _ _ _ _ ⟨⟩)
  · exact .refl n

theorem less_modifyLink {f : FmpLink → FmpLink} (hf : (n.link lid).Weaker (f (n.link lid))) : Less S n (n.modifyLink lid f) := by
  refine { Less.refl n with links := fun lid' => ?_, nextLink := rfl }
  show (n.link lid').Weaker ((n.links.modify lid f).get lid')
  rw [Heap.get_modify]
  split
  · rename_i heq
    rw [heq]
    exact hf
  · exact .refl _

theorem less_closeLink : Less S n (n.closeLink lid) := less_modifyLink FmpLink.weaker_close

theorem less_modifyPeer {f : AdjacentPeer → AdjacentPeer} (hpubkey : (f (n.peer pid)).pubkey = (n.peer pid).pubkey)
    (haddr : (f (n.peer pid)).remoteAddr = (n.peer pid).remoteAddr)
    (hcarries : ∀ lid, (f (n.peer pid)).link = lid ∨ (f (n.peer pid)).pendingResponderLink = some lid → n.Carries pid lid)
    (hdraining : ∀ e ∈ (f (n.peer pid)).drainingResponderLinks, e ∈ (n.peer pid).drainingResponderLinks)
    (houtgoing : (f (n.peer pid)).outgoingHandshake.isSome = true → (n.peer pid).outgoingHandshake.isSome = true) :
    Less S n (n.modifyPeer pid f) := by
  have hpeer : ∀ q, (n.modifyPeer pid f).peer q = if q = pid then f (n.peer pid) else n.peer q := by
    intro q
    show (n.objs.modify pid f).get q = _
    rw [Heap.get_modify]
    split
    · rename_i heq
      rw [heq]
      rfl
    · rfl
  have hout : ∀ q, ((n.modifyPeer pid f).peer q).outgoingHandshake.isSome = true → (n.peer q).outgoingHandshake.isSome = true := by
    intro q
    rw [hpeer]
    split
    · rename_i heq
      rw [heq]
      exact houtgoing
    · exact id
  refine { Less.refl n with nextPeer := rfl, pubkey := ?_, remoteAddr := ?_, carries := ?_, draining := ?_, outgoing := hout, live := ?_ }
  · intro q
    rw [hpeer]
    split
    · rename_i heq
      rw [heq]
      exact hpubkey
    · rfl
  · intro q
    rw [hpeer]
    split
    · rename_i heq
      rw [heq]
      exact haddr
    · rfl
  · intro q lid
    unfold Carries
    rw [hpeer]
    split
    · rename_i heq
      rw [heq]
      exact hcarries lid
    · exact id
  · intro q e
    rw [hpeer]
    split
    · rename_i heq
      rw [heq]
      exact hdraining e
    · exact id
  · rintro q (hvalue | haddr | ho)
    · exact .inl hvalue
    · exact .inr (.inl haddr)
    · exact .inr (.inr (hout q ho))

theorem less_takePending : Less S n (n.takePending pid) := by
  have hmodified : Less S n (n.modifyPeer pid fun p => { p with pendingResponderLink := none }) := by
    refine less_modifyPeer rfl rfl ?_ (fun _ h => h) id
    rintro lid (hlink | hpending)
    · exact .inl hlink
    · have hnone : none = some lid := hpending
      cases hnone
  exact hmodified.trans (Aside.less ⟨rfl, rfl, rfl, rfl, rfl, rfl, fun _ _ _ _ h => h⟩)

theorem less_discardPending : Less S n (n.discardPending pid) := by
  unfold discardPending
  split
  · exact less_takePending.trans less_closeLink
  · exact less_takePending

theorem aside_settleHandshake {hid : HandshakeId} {outcome : PromiseState} : Aside n (n.settleHandshake hid outcome) :=
  ⟨rfl, rfl, rfl, rfl, rfl, rfl, fun _ _ _ _ h => h⟩

theorem aside_rejectOutgoing {error : String} : Aside n (n.rejectOutgoing pid error) := by
  unfold rejectOutgoing
  split
  · exact aside_settleHandshake
  · exact .refl n

theorem less_clearOutgoing : Less S n (n.clearOutgoing pid) := by
  refine less_modifyPeer rfl rfl (fun _ h => h) (fun _ h => h) ?_
  rintro ⟨⟩

theorem less_foldl {α : Type} {f : FipsNode → α → FipsNode} (hf : ∀ n a, Less S n (f n a)) (as : List α) (n : FipsNode) :
    Less S n (as.foldl f n) := by
  induction as generalizing n with
  | nil => exact .refl n
  | cons a as ih => exact (hf n a).trans (ih _)

theorem less_closeLinks (draining : JsMap Nat DrainingLink) :
    Less S n (draining.foldl (fun n e => n.closeLink e.2.link) n) := less_foldl (fun _ _ => less_closeLink) draining n

theorem less_pruneDraining {nowMs : ℚ} : Less S n (n.pruneDrainingResponderLinks pid nowMs) := by
  unfold pruneDrainingResponderLinks
  dsimp only
  refine Less.trans (less_closeLinks ((n.peer pid).drainingResponderLinks.filter fun e => e.2.expiresAtMs ≤ nowMs)) ?_
  refine less_modifyPeer rfl rfl (fun _ h => h) (fun e he => ?_) id
  exact (List.mem_filter.1 he).1

theorem less_closeDraining : Less S n (n.closeDraining pid) := less_closeLinks _

/-- Entries of the node address index go. -/
theorem less_byNodeAddr {byNodeAddr : JsMap NodeAddr PeerId} (hsub : ∀ e ∈ byNodeAddr, e ∈ n.peersByNodeAddr) :
    Less S n { n with peersByNodeAddr := byNodeAddr } := by
  refine { Less.refl (S := S) n with live := ?_, byNodeAddr := fun e he => .inl (hsub e he) }
  rintro q (hvalue | ⟨a, ha⟩ | ho)
  · exact .inl hvalue
  · exact .inr (.inl ⟨a, hsub _ ha⟩)
  · exact .inr (.inr ho)

theorem less_forgetNodeAddr : Less S n (n.forgetNodeAddr S pid) := by
  unfold forgetNodeAddr
  split
  · exact .refl n
  split
  · exact less_byNodeAddr fun e he => (JsMap.mem_delete.1 he).1
  · exact .refl n

/-- A peer that is still reached is indexed again. -/
theorem less_rememberPeer (hlive : n.Live pid) : Less S n (n.rememberPeer S pid) := by
  unfold rememberPeer
  split
  · exact .refl n
  · rename_i hne
    refine { Less.refl (S := S) n with live := ?_, byNodeAddr := ?_, byPubkey := ?_ }
    · rintro q (hvalue | ⟨a, ha⟩ | ho)
      · exact .inl hvalue
      · rcases JsMap.mem_set ha with heq | hold
        · cases heq
          exact hlive
        · exact .inr (.inl ⟨a, hold⟩)
      · exact .inr (.inr ho)
    · intro e he
      rcases JsMap.mem_set he with rfl | hold
      · exact .inr ⟨hne, rfl⟩
      · exact .inl hold
    · intro e he
      rcases JsMap.mem_set he with rfl | hold
      · exact .inr ⟨hlive, hne, .refl _⟩
      · exact .inl ⟨e.2, hold, .refl _, .inl rfl⟩

/-- Entries of the address map go. -/
theorem less_peers {peers : JsMap String PeerId} (hsub : List.Sublist peers n.peers) : Less S n { n with peers := peers } := by
  refine { Less.refl n with live := ?_, nodup := ?_, peers := ?_ }
  · rintro q (hvalue | haddr | ho)
    · exact .inl ((hsub.map Prod.snd).subset hvalue)
    · exact .inr (.inl haddr)
    · exact .inr (.inr ho)
  · intro h
    exact List.Nodup.sublist (hsub.map Prod.fst) h
  · exact fun e he => .inl (hsub.subset he)

/-- Entries of the key index go. -/
theorem less_byPubkey {byPubkey : JsMap Bytes PeerId} (hsub : ∀ e ∈ byPubkey, e ∈ n.peersByPubkey) :
    Less S n { n with peersByPubkey := byPubkey } :=
  { Less.refl n with byPubkey := fun e he => .inl ⟨e.2, hsub e he, .refl _, .inl rfl⟩ }

theorem less_closePeerSessions {remotePubkey : Bytes} : Less S n (n.closePeerSessions cfg remotePubkey) :=
  aside_withManager.less

theorem less_removePeerPath {key : String} {closeSession : Bool} :
    Less S n (n.removePeerPath S cfg env key pid closeSession) := by
  have hdelete : Less S n { n with peers := n.peers.delete key } := less_peers List.filter_sublist
  unfold removePeerPath
  dsimp only
  split
  · rename_i q halternate
    have hmem : q ∈ FipsNode.alternates { n with peers := n.peers.delete key } pid := List.mem_of_find?_eq_some halternate
    obtain ⟨hvalue, hsame⟩ := List.mem_filter.1 hmem
    rw [decide_eq_true_eq] at hsame
    have hlive : n.Live q := hdelete.live q (.inl hvalue)
    refine hdelete.trans (Less.trans ?_ (less_rememberPeer (.inl hvalue)))
    refine { Less.refl _ with byPubkey := fun e he => ?_ }
    obtain ⟨e', he', rfl⟩ := List.mem_map.1 he
    split
    · rename_i hpid
      refine .inl ⟨pid, hpid ▸ he', .inr ?_, .inr (.inl hvalue)⟩
      exact sameCompressedIdentity_iff.2 (sameCompressedIdentity_iff.1 hsame.2.1).symm
    · exact .inl ⟨e'.2, he', .refl _, .inl rfl⟩
  · have hindex : Less S { n with peers := n.peers.delete key }
        { n with peers := n.peers.delete key, peersByPubkey := n.peersByPubkey.filter (·.2 ≠ pid) } :=
      less_byPubkey fun e he => (List.mem_filter.1 he).1
    have hforget : ∀ n : FipsNode, Less S n (n.forgetNodeAddr S pid) := fun _ => less_forgetNodeAddr
    have hforgotten := (hdelete.trans hindex).trans (hforget _)
    split
    · exact hforgotten.trans less_closePeerSessions
    · exact hforgotten

theorem less_removeOwnPath : Less S n (n.removeOwnPath S cfg env pid) := by
  unfold removeOwnPath
  dsimp only
  split
  · exact less_removePeerPath
  · exact .refl n

end FipsNode

end Fips
