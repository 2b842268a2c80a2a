import Fips.Lib.Run
import Fips.Lib.Versions
import Fips.Node.FilterAnnouncements

/-!
# Roles of a peer

ClientOnly and TreeAnnounce share the sequence on the peer, and the tree has a sequence of its own in the
entry of the peer. `Standing` says that the three agree on one message, the latest; a message that is not later
changes nothing, and the tree's own check never decides, since the entry is never later than the peer's sequence.
-/

namespace Fips
open Exec LittleEndian

/-- What a peer says about itself. -/
inductive RoleMessage
  | clientOnly (sequence : Nat)
  | treeAnnounce (announce : TreeAnnounce)

namespace RoleMessage

def sequence : RoleMessage → Nat
  | .clientOnly sequence => sequence
  | .treeAnnounce announce => announce.sequence

def isClientOnly : RoleMessage → Bool
  | .clientOnly _ => true
  | .treeAnnounce _ => false

/-- What the tree holds for the peer after the message. -/
def entry : RoleMessage → Option PeerTreeState
  | .clientOnly _ => none
  | .treeAnnounce announce => some ⟨announce.sequence, announce.parent, announce.ancestry⟩

end RoleMessage

/-- A message that arrives on the link. -/
structure LinkDelivery where
  env : RoutingEnv
  msgType : Nat
  payload : Bytes

/-- A valid ClientOnly or TreeAnnounce of the peer with this public key. -/
def LinkDelivery.Carries (S : Suite) (G : Schnorr) (pubkey : Bytes) (d : LinkDelivery) : RoleMessage → Prop
  | .clientOnly sequence =>
    d.msgType = LinkMessageType.ClientOnly ∧ d.payload.length = 8 ∧ sequence = leNat d.payload
  | .treeAnnounce announce =>
    d.msgType = LinkMessageType.TreeAnnounce ∧ decodeTreeAnnouncePayload d.payload = .ok announce ∧
      deriveNodeAddr S pubkey = .ok ((addrs announce.ancestry).headD []) ∧ verifyTreeAnnounce S G announce pubkey = .ok true

namespace Routing
variable {S : Suite} {G : Schnorr} {cfg : RoutingConfig} {env : RoutingEnv} {p : PeerId} {pubkey : Bytes}
  {r r₀ : Routing} {held : Option RoleMessage} {m : RoleMessage} {d : LinkDelivery}

/-- `handleLinkMessage` on one message from the peer. -/
def deliver (S : Suite) (G : Schnorr) (cfg : RoutingConfig) (p : PeerId) (r : Routing) (d : LinkDelivery) : Routing :=
  step S G cfg r (.handleLinkMessage d.env p d.msgType d.payload)

/-! ### Announcing leaves the roles alone -/

/-- The tree and what the peers have said about themselves. -/
structure SameRoles (r₀ r : Routing) : Prop where
  tree : r.treeState = r₀.treeState
  sequence : ∀ q, (r.roles q).routingRoleSequence = (r₀.roles q).routingRoleSequence
  clientOnly : ∀ q, (r.roles q).clientOnly = (r₀.roles q).clientOnly

theorem SameRoles.refl (r : Routing) : SameRoles r r := ⟨rfl, fun _ => rfl, fun _ => rfl⟩

theorem keeps_sendTreeAnnounce (q : PeerId) : Keeps (SameRoles r₀) (sendTreeAnnounce S G cfg env q) := by
  unfold sendTreeAnnounce
  refine Keeps.ite (fun _ => keeps_pure _) fun _ => Keeps.ite (fun _ => ?_) fun _ => ?_
  · refine keeps_get.bind fun r => Keeps.ite (fun _ => ?_) fun _ => ?_
    · exact (keeps_modify fun r h => ⟨h.tree, h.sequence, h.clientOnly⟩).bind fun _ => keeps_pure _
    · refine (keeps_modify fun r h => ⟨h.tree, h.sequence, h.clientOnly⟩).bind fun _ => keeps_get.bind fun r' => ?_
      exact (keeps_modify fun r h => ⟨h.tree, h.sequence, h.clientOnly⟩).bind fun _ => keeps_pure _
  · refine keeps_get.bind fun r => (keeps_lift _).bind fun encoded => ?_
    exact (keeps_modify fun r h => ⟨h.tree, h.sequence, h.clientOnly⟩).bind fun _ => keeps_pure _

@[simp] theorem roles_modifyRole (f : PeerRole → PeerRole) : (modifyRole p f r).roles p = f (r.roles p) :=
  Function.update_self ..

theorem roles_modifyRole_of_ne {q : PeerId} (h : q ≠ p) (f : PeerRole → PeerRole) :
    (modifyRole p f r).roles q = r.roles q := Function.update_of_ne h ..

theorem SameRoles.modifyRole (h : SameRoles r₀ r) (q : PeerId) {f : PeerRole → PeerRole}
    (hf : ∀ role, (f role).routingRoleSequence = role.routingRoleSequence ∧ (f role).clientOnly = role.clientOnly) :
    SameRoles r₀ (modifyRole q f r) := by
  refine ⟨h.tree, fun q' => ?_, fun q' => ?_⟩
  · by_cases hq : q' = q
    · rw [hq, roles_modifyRole, (hf _).1, h.sequence]
    · rw [roles_modifyRole_of_ne hq, h.sequence]
  · by_cases hq : q' = q
    · rw [hq, roles_modifyRole, (hf _).2, h.clientOnly]
    · rw [roles_modifyRole_of_ne hq, h.clientOnly]

theorem keeps_sendFilter (q : PeerId) : Keeps (SameRoles r₀) (sendFilter S cfg env q) := by
  unfold sendFilter
  refine Keeps.ite (fun _ => keeps_pure _) fun _ => keeps_get_bind fun r h => ?_
  refine wp_bind.2 (wp_mono (keeps_lift _ r h) (fun filter r' h' => ?_) fun _ _ h' => h')
  refine wp_ite.2 ⟨fun _ => h', fun _ => ?_⟩
  have hset : SameRoles r₀ { r.modifyRole q (fun role => { role with outboundFilter := some (r.filterSequence + 1, filter) })
      with filterSequence := r.filterSequence + 1 } := by
    obtain ⟨h₁, h₂, h₃⟩ := h.modifyRole q (f := fun role => { role with outboundFilter := some (r.filterSequence + 1, filter) })
      fun _ => ⟨rfl, rfl⟩
    exact ⟨h₁, h₂, h₃⟩
  rw [wp_bind, wp_set]
  refine (keeps_lift _).bind (fun encoded => ?_) _ hset
  refine (keeps_modify fun r h => ⟨h.tree, h.sequence, h.clientOnly⟩).bind fun _ => ?_
  refine Keeps.ite (fun _ => ?_) fun _ => keeps_pure _
  exact (keeps_modify fun r h => ⟨h.tree, h.sequence, h.clientOnly⟩).bind fun _ => keeps_pure _

theorem sameRoles_foldl {x : PeerId → RM Unit} (hx : ∀ q, Keeps (SameRoles r₀) (x q)) (qs : List PeerId)
    (h : SameRoles r₀ r) : SameRoles r₀ (qs.foldl (fun r q => settled (x q) r) r) := by
  induction qs generalizing r with
  | nil => exact h
  | cons q qs ih => exact ih ((hx q).after h)

theorem SameRoles.sendTreeAnnounceToAll (h : SameRoles r₀ r) : SameRoles r₀ (sendTreeAnnounceToAll S G cfg env r) :=
  sameRoles_foldl (fun q => (keeps_sendTreeAnnounce q).discard) _ h

theorem SameRoles.bloomSendAll (h : SameRoles r₀ r) (excludedPeer : Option PeerId) :
    SameRoles r₀ (bloomSendAll S cfg env excludedPeer r) := by
  unfold Routing.bloomSendAll
  split
  · exact h
  · exact sameRoles_foldl (fun q => (keeps_sendFilter q).discard) _ h

theorem keeps_announceFilters (changed needed : Prop) [Decidable changed] [Decidable needed] :
    Keeps (SameRoles r₀) (if needed then
      if changed then modify (later (.bloomSendAll none)) else modify (bloomSendAll S cfg env none)
      else pure () : RM Unit) := by
  refine Keeps.ite (fun _ => Keeps.ite (fun _ => ?_) fun _ => ?_) fun _ => keeps_pure _
  · exact keeps_modify fun r h => ⟨h.tree, h.sequence, h.clientOnly⟩
  · exact keeps_modify fun r h => h.bloomSendAll none

/-! ### The message a peer stands by -/

/-- The peer's sequence, its role and its entry in the tree are those of one message. -/
structure Standing (nodeAddr : NodeAddr) (p : PeerId) (held : Option RoleMessage) (r : Routing) : Prop where
  sequence : (r.roles p).routingRoleSequence = held.map RoleMessage.sequence
  clientOnly : (r.roles p).clientOnly = held.any RoleMessage.isClientOnly
  entry : r.treeState.peers.get nodeAddr = held.bind RoleMessage.entry

theorem SameRoles.standing {nodeAddr : NodeAddr} (h : SameRoles r₀ r) (hr : Standing nodeAddr p held r₀) :
    Standing nodeAddr p held r :=
  ⟨(h.sequence p).trans hr.sequence, (h.clientOnly p).trans hr.clientOnly, by rw [h.tree]; exact hr.entry⟩

theorem peers_evaluateParent (nowSeconds : Nat) (t : TreeState) : (t.evaluateParent nowSeconds).2.peers = t.peers := by
  unfold TreeState.evaluateParent
  dsimp only
  split <;> rfl

theorem get_removePeer (nodeAddr : NodeAddr) (nowSeconds : Nat) (t : TreeState) :
    (t.removePeer nodeAddr nowSeconds).2.peers.get nodeAddr = none := by
  unfold TreeState.removePeer
  split
  · rw [peers_evaluateParent, JsMap.get_delete, if_pos rfl]
  · rename_i h
    exact Option.isNone_iff_eq_none.1 (by simpa using h)

/-- The tree takes an announcement that is later than its entry. -/
theorem get_updatePeer {nodeAddr : NodeAddr} {announce : TreeAnnounce} {t : TreeState} (nowSeconds : Nat)
    (h : ∀ existing ∈ t.peers.get nodeAddr, existing.sequence < announce.sequence) :
    (t.updatePeer nodeAddr announce nowSeconds).2.peers.get nodeAddr =
      some ⟨announce.sequence, announce.parent, announce.ancestry⟩ := by
  unfold TreeState.updatePeer
  split
  · rename_i hany
    obtain ⟨existing, hexisting, hle⟩ := (Option.any_eq_true _ _).1 hany
    exact absurd (h existing hexisting) (not_lt.2 (of_decide_eq_true hle))
  · rw [peers_evaluateParent, JsMap.get_set, if_pos rfl]

theorem roles_removePeer (nodeAddr : NodeAddr) (r : Routing) :
    SameRoles { r with treeState := (r.treeState.removePeer nodeAddr env.nowSeconds).2 }
      (removePeer S G cfg env nodeAddr r) := by
  unfold removePeer
  dsimp only
  split
  · refine SameRoles.bloomSendAll ?_ none
    split
    · exact (SameRoles.refl _).sendTreeAnnounceToAll
    · exact .refl _
  · split
    · exact (SameRoles.refl _).sendTreeAnnounceToAll
    · exact .refl _

/-- A peer that has become a client leaves the tree. -/
theorem standing_removePeer {nodeAddr : NodeAddr} {sequence : Nat}
    (hsequence : (r.roles p).routingRoleSequence = some sequence) (hclient : (r.roles p).clientOnly = true) :
    Standing nodeAddr p (some (.clientOnly sequence)) (removePeer S G cfg env nodeAddr r) :=
  (roles_removePeer nodeAddr r).standing ⟨hsequence, hclient, get_removePeer _ _ _⟩

theorem accept_of_le {h : RoleMessage} (hle : m.sequence ≤ h.sequence) :
    Versions.accept RoleMessage.sequence (some h) m = some h := if_pos (decide_eq_true hle)

theorem accept_of_lt (hlt : ∀ h ∈ held, h.sequence < m.sequence) : Versions.accept RoleMessage.sequence held m = some m := by
  refine if_neg fun hany => ?_
  obtain ⟨h, hh, hle⟩ := (Option.any_eq_true _ _).1 hany
  exact absurd (hlt h hh) (not_lt.2 (of_decide_eq_true hle))

/-- A later ClientOnly becomes the message of the peer, and removes it from the tree. -/
theorem standing_handleClientOnly {payload : Bytes} (hpub : (env.peer p).pubkey = pubkey) (hlen : payload.length = 8)
    (hr : Standing (nodeAddrOf S pubkey) p held r)
    (hsame : ∀ h ∈ held, h.sequence = leNat payload → h = .clientOnly (leNat payload)) :
    Standing (nodeAddrOf S pubkey) p (Versions.accept RoleMessage.sequence held (.clientOnly (leNat payload)))
      (settled (handleClientOnly S G cfg env p payload) r) := by
  refine wp_after.2 ?_
  unfold handleClientOnly
  simp only [wp_ite, wp_pure, wp_bind, wp_get, wp_modify, hr.sequence, hr.clientOnly]
  refine ⟨fun hne => absurd hlen hne, fun _ => ?_⟩
  by_cases hlater : ∀ h ∈ held, h.sequence < leNat payload
  · rw [accept_of_lt hlater]
    refine ⟨fun hold => ?_, fun _ => ⟨fun hclient => ?_, fun hclient => ?_⟩⟩
    · obtain ⟨last, hlast, hle⟩ := (Option.any_eq_true _ _).1 hold
      obtain ⟨h, hh, rfl⟩ := Option.map_eq_some_iff.1 hlast
      have hlt := hlater h hh
      have hle := of_decide_eq_true hle
      omega
    · -- the peer becomes a client
      have hkey : env.peerNodeKey S p = nodeAddrOf S pubkey := by rw [RoutingEnv.peerNodeKey, hpub]
      rw [hkey]
      refine SameRoles.standing (SameRoles.bloomSendAll (.refl _) none) (standing_removePeer ?_ ?_)
      · rw [roles_modifyRole, roles_modifyRole]
      · rw [roles_modifyRole]
    · -- it is one already
      have hclient : held.any RoleMessage.isClientOnly = true := by simpa using hclient
      obtain ⟨h, hh, hc⟩ := (Option.any_eq_true _ _).1 hclient
      refine ⟨?_, ?_, ?_⟩
      · rw [roles_modifyRole]
        rfl
      · rw [roles_modifyRole]
        exact hr.clientOnly.trans hclient
      · refine hr.entry.trans ?_
        rw [hh]
        cases h with
        | clientOnly sequence => rfl
        | treeAnnounce announce => cases hc
  · simp only [not_forall, not_lt] at hlater
    obtain ⟨h, hh, hle⟩ := hlater
    obtain rfl : held = some h := hh
    rw [accept_of_le (m := .clientOnly (leNat payload)) hle]
    refine ⟨fun _ => hr, fun hnew => ?_⟩
    -- a ClientOnly the peer stands by already
    have hnew : ¬(leNat payload < h.sequence ∨ leNat payload = h.sequence ∧ !h.isClientOnly) := by simpa using hnew
    have heq : h.sequence = leNat payload := by
      have hge : ¬leNat payload < h.sequence := fun hlt => hnew (.inl hlt)
      omega
    have hh := hsame h rfl heq
    refine ⟨fun hclient => ?_, fun _ => ⟨?_, ?_, hr.entry⟩⟩
    · rw [hh] at hclient
      cases hclient
    · rw [roles_modifyRole, Option.map_some, heq]
    · rw [roles_modifyRole]
      exact hr.clientOnly

/-- What `handleTreeAnnounce` reads out of a valid announcement. -/
theorem handleTreeAnnounce_of_carries {announce : TreeAnnounce} (h : d.Carries S G pubkey (.treeAnnounce announce))
    (last : Option Nat) : TreeState.handleTreeAnnounce S G pubkey d.payload last =
      .ok ((some (nodeAddrOf S pubkey, announce)).filter fun _ => !last.any fun last => announce.sequence ≤ last) := by
  obtain ⟨-, hdecode, haddr, hverify⟩ := h
  have hkey : nodeAddrOf S pubkey = (addrs announce.ancestry).headD [] := by rw [nodeAddrOf, haddr]; rfl
  unfold TreeState.handleTreeAnnounce
  simp only [hdecode, haddr, hverify, ok_bind, hkey, ne_eq, not_true_eq_false, if_false, Bool.not_true, Bool.false_eq_true]
  rfl

/-- A later TreeAnnounce becomes the message of the peer, and its entry in the tree. -/
theorem standing_handleTreeAnnounce {announce : TreeAnnounce} (hpub : (env.peer p).pubkey = pubkey)
    (hcarries : d.Carries S G pubkey (.treeAnnounce announce)) (hr : Standing (nodeAddrOf S pubkey) p held r) :
    Standing (nodeAddrOf S pubkey) p (Versions.accept RoleMessage.sequence held (.treeAnnounce announce))
      (settled (handleTreeAnnounce S G cfg env p d.payload) r) := by
  refine wp_after.2 ?_
  unfold handleTreeAnnounce
  simp only [wp_bind, wp_get, hpub, handleTreeAnnounce_of_carries hcarries, wp_lift, hr.sequence]
  refine ⟨fun announced hannounced => ?_, by rintro _ ⟨⟩⟩
  have hannounced := Except.ok.inj hannounced
  by_cases hlater : ∀ h ∈ held, h.sequence < announce.sequence
  · rw [accept_of_lt hlater]
    have hnew : (!(held.map RoleMessage.sequence).any fun last => decide (announce.sequence ≤ last)) = true := by
      rw [Bool.not_eq_true', ← Bool.not_eq_true]
      intro hany
      obtain ⟨last, hlast, hle⟩ := (Option.any_eq_true _ _).1 hany
      obtain ⟨h, hh, rfl⟩ := Option.map_eq_some_iff.1 hlast
      exact absurd (hlater h hh) (not_lt.2 (of_decide_eq_true hle))
    rw [Option.filter_some, if_pos hnew] at hannounced
    subst hannounced
    simp only [wp_bind, wp_modify, wp_get, wp_set]
    generalize hbase : modifyRole p (fun role => { role with
      routingRoleSequence := some announce.sequence, clientOnly := false }) r = base
    have hexisting : ∀ existing ∈ base.treeState.peers.get (nodeAddrOf S pubkey), existing.sequence < announce.sequence := by
      intro existing hexisting
      rw [← hbase] at hexisting
      obtain ⟨h, hh, hentry⟩ := Option.bind_eq_some_iff.1 (hr.entry.symm.trans hexisting)
      have hlt := hlater h hh
      cases h with
      | clientOnly sequence => cases hentry
      | treeAnnounce old =>
        cases hentry
        exact hlt
    have htree : Standing (nodeAddrOf S pubkey) p (some (.treeAnnounce announce))
        { base with treeState := (base.treeState.updatePeer (nodeAddrOf S pubkey) announce env.nowSeconds).2 } := by
      refine ⟨?_, ?_, get_updatePeer _ hexisting⟩
      · show (base.roles p).routingRoleSequence = _
        rw [← hbase, roles_modifyRole]
        rfl
      · show (base.roles p).clientOnly = _
        rw [← hbase, roles_modifyRole]
        rfl
    -- what follows only announces
    refine wp_mono (Keeps.ite (fun _ => (keeps_modify fun _ h => h.sendTreeAnnounceToAll).bind fun _ => ?_) (fun _ => ?_) _
      (SameRoles.refl _)) (fun _ _ h => SameRoles.standing h htree) fun _ _ h => SameRoles.standing h htree
    · exact keeps_announceFilters _ _
    · exact keeps_announceFilters _ _
  · simp only [not_forall, not_lt] at hlater
    obtain ⟨h, hh, hle⟩ := hlater
    obtain rfl : held = some h := hh
    have hold : ¬(!((some h).map RoleMessage.sequence).any fun last => decide (announce.sequence ≤ last)) = true := by
      simpa using hle
    rw [accept_of_le (m := .treeAnnounce announce) hle]
    rw [Option.filter_some, if_neg hold] at hannounced
    subst hannounced
    exact hr

/-- A message that is delivered is taken if it is later than the one the peer stands by. -/
theorem standing_deliver (hpub : (d.env.peer p).pubkey = pubkey) (hcarries : d.Carries S G pubkey m)
    (hr : Standing (nodeAddrOf S pubkey) p held r) (hsame : ∀ h ∈ held, h.sequence = m.sequence → h = m) :
    Standing (nodeAddrOf S pubkey) p (Versions.accept RoleMessage.sequence held m) (deliver S G cfg p r d) := by
  show Standing _ _ _ (settled (handleLinkMessage S G cfg d.env p d.msgType d.payload) r)
  unfold handleLinkMessage
  cases m with
  | clientOnly sequence =>
    obtain ⟨htype, hlen, rfl⟩ := hcarries
    rw [htype, if_neg (by decide), if_pos rfl]
    exact standing_handleClientOnly hpub hlen hr hsame
  | treeAnnounce announce =>
    rw [hcarries.1, if_neg (by decide), if_neg (by decide), if_pos rfl]
    exact standing_handleTreeAnnounce hpub hcarries hr

theorem mem_accept {h : RoleMessage} (hh : h ∈ Versions.accept RoleMessage.sequence held m) : h = m ∨ h ∈ held := by
  unfold Versions.accept at hh
  split at hh
  · exact .inr hh
  · exact .inl (Option.mem_some_iff.1 hh).symm

/-- After any deliveries the peer stands by what a register of the latest message holds. -/
theorem standing_run {ds : List LinkDelivery} {ms : List RoleMessage}
    (hcarries : List.Forall₂ (fun d m => (d.env.peer p).pubkey = pubkey ∧ d.Carries S G pubkey m) ds ms)
    (hdistinct : ∀ m ∈ held.toList ++ ms, ∀ m' ∈ held.toList ++ ms, m.sequence = m'.sequence → m = m')
    (hr : Standing (nodeAddrOf S pubkey) p held r) :
    Standing (nodeAddrOf S pubkey) p (ms.foldl (Versions.accept RoleMessage.sequence) held)
      (Run.run (deliver S G cfg p) r ds) := by
  induction hcarries generalizing held r with
  | nil => exact hr
  | @cons d m ds ms hd hds ih =>
    have hheld {h : RoleMessage} (hh : h ∈ held) : h ∈ held.toList ++ m :: ms :=
      List.mem_append_left _ (Option.mem_toList.2 hh)
    have hm : m ∈ held.toList ++ m :: ms := List.mem_append_right _ List.mem_cons_self
    refine ih (fun m₁ hm₁ m₂ hm₂ => hdistinct m₁ ?_ m₂ ?_) (standing_deliver hd.1 hd.2 hr fun h hh => hdistinct h (hheld hh) m hm)
    · rcases List.mem_append.1 hm₁ with hm₁ | hm₁
      · rcases mem_accept (Option.mem_toList.1 hm₁) with rfl | hm₁
        · exact hm
        · exact hheld hm₁
      · exact List.mem_append_right _ (List.mem_cons_of_mem _ hm₁)
    · rcases List.mem_append.1 hm₂ with hm₂ | hm₂
      · rcases mem_accept (Option.mem_toList.1 hm₂) with rfl | hm₂
        · exact hm
        · exact hheld hm₂
      · exact List.mem_append_right _ (List.mem_cons_of_mem _ hm₂)

/-- The messages that were delivered, in order. -/
theorem exists_messages {ds : List LinkDelivery}
    (hvalid : ∀ d ∈ ds, (d.env.peer p).pubkey = pubkey ∧ ∃ m, d.Carries S G pubkey m) :
    ∃ ms, List.Forall₂ (fun d m => (d.env.peer p).pubkey = pubkey ∧ d.Carries S G pubkey m) ds ms := by
  induction ds with
  | nil => exact ⟨[], .nil⟩
  | cons d ds ih =>
    obtain ⟨hpub, m, hm⟩ := hvalid d List.mem_cons_self
    obtain ⟨ms, hms⟩ := ih fun d' hd' => hvalid d' (List.mem_cons_of_mem d hd')
    exact ⟨m :: ms, .cons ⟨hpub, hm⟩ hms⟩

/-- A delivery carries one message. -/
theorem carries_unique {m' : RoleMessage} (h : d.Carries S G pubkey m) (h' : d.Carries S G pubkey m') : m = m' := by
  cases m with
  | clientOnly sequence =>
    cases m' with
    | clientOnly sequence' => rw [h.2.2, h'.2.2]
    | treeAnnounce announce' => exact absurd (h.1.symm.trans h'.1) (by decide)
  | treeAnnounce announce =>
    cases m' with
    | clientOnly sequence' => exact absurd (h.1.symm.trans h'.1) (by decide)
    | treeAnnounce announce' => rw [Except.ok.inj (h.2.1.symm.trans h'.2.1)]

/-- A peer without a role comes to stand by the latest of its messages, in whatever order and how often they arrive. -/
theorem roles_converge (ds : List LinkDelivery) (hsequence : (r.roles p).routingRoleSequence = none)
    (hclient : (r.roles p).clientOnly = false) (hentry : r.treeState.peers.get (nodeAddrOf S pubkey) = none)
    (hne : ds ≠ []) (hvalid : ∀ d ∈ ds, (d.env.peer p).pubkey = pubkey ∧ ∃ m, d.Carries S G pubkey m)
    (hdistinct : ∀ d ∈ ds, ∀ d' ∈ ds, ∀ m m', d.Carries S G pubkey m → d'.Carries S G pubkey m' →
      m.sequence = m'.sequence → m = m') :
    ∃ m, (∃ d ∈ ds, d.Carries S G pubkey m) ∧
      (∀ d ∈ ds, ∀ m', d.Carries S G pubkey m' → m'.sequence ≤ m.sequence) ∧
      ((Run.run (deliver S G cfg p) r ds).roles p).routingRoleSequence = some m.sequence ∧
      (((Run.run (deliver S G cfg p) r ds).roles p).clientOnly = true ↔ m.isClientOnly = true) ∧
      (Run.run (deliver S G cfg p) r ds).treeState.peers.get (nodeAddrOf S pubkey) = m.entry := by
  obtain ⟨ms, hms⟩ := exists_messages hvalid
  have hcarried {m : RoleMessage} (hm : m ∈ ms) : ∃ d ∈ ds, d.Carries S G pubkey m := by
    obtain ⟨i, hi, rfl⟩ := List.mem_iff_getElem.1 hm
    obtain ⟨hlen, hget⟩ := List.forall₂_iff_get.1 hms
    exact ⟨_, List.getElem_mem (hlen ▸ hi), (hget i (hlen ▸ hi) hi).2⟩
  have hmember {d : LinkDelivery} (hd : d ∈ ds) {m : RoleMessage} (hm : d.Carries S G pubkey m) : m ∈ ms := by
    obtain ⟨i, hi, rfl⟩ := List.mem_iff_getElem.1 hd
    obtain ⟨hlen, hget⟩ := List.forall₂_iff_get.1 hms
    rw [carries_unique hm (hget i hi (hlen ▸ hi)).2]
    exact List.getElem_mem _
  have hdistinct' : ∀ m ∈ (none : Option RoleMessage).toList ++ ms, ∀ m' ∈ (none : Option RoleMessage).toList ++ ms,
      m.sequence = m'.sequence → m = m' := by
    intro m hm m' hm'
    obtain ⟨d, hd, hdm⟩ := hcarried hm
    obtain ⟨d', hd', hdm'⟩ := hcarried hm'
    exact hdistinct d hd d' hd' m m' hdm hdm'
  have hrun := @standing_run S G cfg _ _ _ none _ _ hms hdistinct' ⟨hsequence, hclient, hentry⟩
  change Standing _ p (Versions.held RoleMessage.sequence ms) _ at hrun
  cases hheld : Versions.held RoleMessage.sequence ms with
  | none =>
    rw [Versions.held_none hheld] at hms
    cases hms
    exact absurd rfl hne
  | some m =>
    rw [hheld] at hrun
    refine ⟨m, hcarried (Versions.held_mem hheld), fun d hd m' hm' => Versions.le_held hheld (hmember hd hm'),
      hrun.sequence, ?_, hrun.entry⟩
    rw [hrun.clientOnly, Option.any_some]

/-! ### Deliveries that repeat an older message -/

def toyAnnouncement : Bytes :=
  ((do encodeTreeAnnounce (← (TreeState.new (toyIdentity 2) 0).announce toySuite toySchnorr)).toOption.getD []).tail

def toyClientOnly : LinkDelivery := ⟨toyArriving, LinkMessageType.ClientOnly, List.replicate 8 0⟩

def toyTreeAnnounce : LinkDelivery := ⟨toyArriving, LinkMessageType.TreeAnnounce, toyAnnouncement⟩

theorem toyClientOnly_carries : toyClientOnly.Carries toySuite toySchnorr (toyIdentity 2).publicKey (.clientOnly 0) :=
  ⟨rfl, rfl, rfl⟩

theorem toyAnnouncement_decodes : (decodeTreeAnnouncePayload toyAnnouncement).toOption.isSome = true := by decide +kernel

theorem toyTreeAnnounce_carries : toyTreeAnnounce.Carries toySuite toySchnorr (toyIdentity 2).publicKey
    (.treeAnnounce ((decodeTreeAnnouncePayload toyAnnouncement).toOption.get toyAnnouncement_decodes)) :=
  ⟨rfl, eq_ok_get toyAnnouncement_decodes, by decide +kernel, by decide +kernel⟩

theorem roles_converge_toy : ∃ m, (∃ d ∈ [toyClientOnly, toyTreeAnnounce, toyClientOnly],
      d.Carries toySuite toySchnorr (toyIdentity 2).publicKey m) ∧
    (((Run.run (deliver toySuite toySchnorr toyForwarder 0) (new toyForwarder 0)
      [toyClientOnly, toyTreeAnnounce, toyClientOnly]).roles 0).clientOnly = true ↔ m.isClientOnly = true) ∧
    (Run.run (deliver toySuite toySchnorr toyForwarder 0) (new toyForwarder 0)
      [toyClientOnly, toyTreeAnnounce, toyClientOnly]).treeState.peers.get (nodeAddrOf toySuite (toyIdentity 2).publicKey) =
      m.entry := by
  have hcarries : ∀ d ∈ [toyClientOnly, toyTreeAnnounce, toyClientOnly], ∃ m,
      d.Carries toySuite toySchnorr (toyIdentity 2).publicKey m := by
    simp only [List.mem_cons, List.not_mem_nil, or_false]
    rintro d (rfl | rfl | rfl)
    · exact ⟨_, toyClientOnly_carries⟩
    · exact ⟨_, toyTreeAnnounce_carries⟩
    · exact ⟨_, toyClientOnly_carries⟩
  have hsequence : ((decodeTreeAnnouncePayload toyAnnouncement).toOption.get toyAnnouncement_decodes).sequence = 1 := by
    decide +kernel
  have hmessage {d : LinkDelivery} (hd : d ∈ [toyClientOnly, toyTreeAnnounce, toyClientOnly]) {m : RoleMessage}
      (hm : d.Carries toySuite toySchnorr (toyIdentity 2).publicKey m) : m = .clientOnly 0 ∨
        m = .treeAnnounce ((decodeTreeAnnouncePayload toyAnnouncement).toOption.get toyAnnouncement_decodes) := by
    simp only [List.mem_cons, List.not_mem_nil, or_false] at hd
    rcases hd with rfl | rfl | rfl
    · exact .inl (carries_unique hm toyClientOnly_carries)
    · exact .inr (carries_unique hm toyTreeAnnounce_carries)
    · exact .inl (carries_unique hm toyClientOnly_carries)
  obtain ⟨m, hm, -, -, hclient, hentry⟩ := @roles_converge toySuite toySchnorr toyForwarder 0 (toyIdentity 2).publicKey
    (new toyForwarder 0) [toyClientOnly, toyTreeAnnounce, toyClientOnly] rfl rfl rfl (List.cons_ne_nil _ _)
    (fun d hd => ⟨by
      simp only [List.mem_cons, List.not_mem_nil, or_false] at hd
      rcases hd with rfl | rfl | rfl <;> rfl, hcarries d hd⟩)
    (fun d hd d' hd' m m' hm hm' heq => by
      rcases hmessage hd hm with rfl | rfl <;> rcases hmessage hd' hm' with rfl | rfl
      · rfl
      · exact absurd (heq.trans hsequence) (by decide)
      · exact absurd (heq.symm.trans hsequence) (by decide)
      · rfl)
  exact ⟨m, hm, hclient, hentry⟩

end Routing

end Fips
