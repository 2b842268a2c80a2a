import Fips.Transport.WebRtcFrames

/-!
# The connection limit of the WebRTC transport

The peers that hold a connection, a pending negotiation or a reservation are counted by their x-only
identity. Reserving an automatic dial keeps the count within the limit; the dial itself does not check
it again, and an incoming offer is counted without the reservations.
-/

namespace Fips
open UnitStrings

namespace WebRtcTransport

variable {cfg : ResolvedWebRtcTransportConfig} {w : Surroundings} {s s' : WebRtcTransport} {remote : PubkeyHex}

/-! ### Holders -/

/-- The identity of a key, whatever its parity. -/
def xOnly (key : PubkeyHex) : UnitString := (toLowerCase key).drop 2

/-- The keys that hold something. -/
def holderKeys (s : WebRtcTransport) : List PubkeyHex :=
  s.conns.map Prod.fst ++ s.pendingDials.map (fun e => (s.dials.get e.2).remotePubkeyHex) ++
    s.pendingInbound.map (fun e => (s.inbounds.get e.2).remotePubkeyHex) ++ s.autoConnectPeers

/-- The distinct identities that hold something. -/
def holders (s : WebRtcTransport) : List UnitString := (s.holderKeys.map xOnly).dedup

theorem mem_holders {x : UnitString} : x ∈ s.holders ↔ ∃ key ∈ s.holderKeys, xOnly key = x := by
  rw [holders, List.mem_dedup, List.mem_map]

theorem mem_holderKeys {key : PubkeyHex} : key ∈ s.holderKeys ↔ (∃ e ∈ s.conns, e.1 = key) ∨
    (∃ e ∈ s.pendingDials, (s.dials.get e.2).remotePubkeyHex = key) ∨
      (∃ e ∈ s.pendingInbound, (s.inbounds.get e.2).remotePubkeyHex = key) ∨ key ∈ s.autoConnectPeers := by
  simp only [holderKeys, List.mem_append, List.mem_map, or_assoc]

theorem lower_lower (u : UInt16) : lower (lower u) = lower u := by
  unfold lower
  by_cases h : 65 ≤ u.toNat ∧ u.toNat ≤ 90
  · have hnat : (u + 32).toNat = u.toNat + 32 := by
      rw [UInt16.toNat_add]
      show (u.toNat + 32) % 2 ^ 16 = _
      omega
    rw [if_pos h, if_neg (by omega)]
  · rw [if_neg h, if_neg h]

theorem xOnly_toLowerCase (key : PubkeyHex) : xOnly (toLowerCase key) = xOnly key := by
  simp [xOnly, toLowerCase, Function.comp_def, lower_lower]

theorem xOnly_oppositeKey (key : PubkeyHex) : xOnly (oppositeKey key) = xOnly key := by
  unfold xOnly oppositeKey toLowerCase
  split
  · simp [js]
  · simp [js]

theorem xOnly_ownedPeerAddress (key : PubkeyHex) : xOnly (s.ownedPeerAddress key) = xOnly key := by
  unfold ownedPeerAddress
  dsimp only
  split
  · exact xOnly_toLowerCase key
  split
  · exact xOnly_toLowerCase key
  split
  · rw [xOnly_oppositeKey, xOnly_toLowerCase]
  · exact xOnly_toLowerCase key

theorem nodup_holders : s.holders.Nodup := List.nodup_dedup _

theorem holders_length_le (h : s'.holders ⊆ s.holders) : s'.holders.length ≤ s.holders.length :=
  nodup_holders.length_le_of_subset h

/-- A state with one more identity. -/
theorem holders_length_succ {x : UnitString} (h : s'.holders ⊆ x :: s.holders) :
    s'.holders.length ≤ s.holders.length + 1 := nodup_holders.length_le_of_subset h

theorem holders_length_le_used : s.holders.length ≤ s.autoConnectCapacityUsed := by
  refine (List.dedup_sublist _).length_le.trans ?_
  simp [holderKeys, autoConnectCapacityUsed, Nat.add_assoc]

theorem Shrinks.holders (h : Shrinks s s') (hl : Linked s) : s'.holders ⊆ s.holders := by
  intro x hx
  obtain ⟨key, hkey, rfl⟩ := mem_holders.1 hx
  refine mem_holders.2 ⟨key, mem_holderKeys.2 ?_, rfl⟩
  rcases mem_holderKeys.1 hkey with ⟨e, he, rfl⟩ | ⟨e, he, rfl⟩ | ⟨e, he, rfl⟩ | hreserved
  · exact .inl ⟨e, h.conns.subset he, rfl⟩
  · have hold := h.pendingDials.subset he
    exact .inr (.inl ⟨e, hold, (h.dial _ (hl.dials e hold).1).2.symm⟩)
  · have hold := h.pendingInbound.subset he
    exact .inr (.inr (.inl ⟨e, hold, (h.inbound _ (hl.inbounds e hold).1).2.symm⟩))
  · exact .inr (.inr (.inr (h.autoConnectPeers hreserved)))

theorem Recached.holders (h : Recached s s') : s'.holders = s.holders := by
  obtain ⟨⟨p, rfl⟩, hpeers⟩ := h
  have hkeys : (s.withPlans p).holderKeys = s.holderKeys := by
    unfold holderKeys
    rw [hpeers]
    rfl
  rw [WebRtcTransport.holders, hkeys]
  rfl

/-! ### Limits -/

/-- The limits are in order, and the limit on connections is a whole number if it is finite. -/
structure Limited (cfg : ResolvedWebRtcTransportConfig) : Prop where
  nonneg : (JsNumber.ofNat 0).le cfg.maxAutoConnections = true
  clamped : cfg.maxAutoConnections.le cfg.maxConnections = true
  whole : cfg.maxConnections = .infinity ∨ ∃ n : Nat, cfg.maxConnections = .ofNat n

/-- No more identities hold something than the limit allows. -/
def Fits (cfg : ResolvedWebRtcTransportConfig) (s : WebRtcTransport) : Prop :=
  (JsNumber.ofNat s.holders.length).le cfg.maxConnections = true

theorem le_of_le {a b : Nat} {limit : JsNumber} (hab : a ≤ b) (h : (JsNumber.ofNat b).le limit = true) :
    (JsNumber.ofNat a).le limit = true := by
  cases limit with
  | nan => cases h
  | negInfinity => cases h
  | infinity => rfl
  | finite q =>
    have hb : (b : ℚ) ≤ q := of_decide_eq_true h
    have ha : (a : ℚ) ≤ b := by exact_mod_cast hab
    exact decide_eq_true (ha.trans hb)

/-- Below the limit on automatic connections there is room for one more. -/
theorem Limited.room (h : Limited cfg) {ranks : JsMap PubkeyHex Nat} {reserve : Bool} {used : Nat}
    (hused : ¬ (autoConnectLimit ranks cfg.maxAutoConnections reserve remote).le (.ofNat used) = true) :
    (JsNumber.ofNat (used + 1)).le cfg.maxConnections = true := by
  obtain ⟨hnonneg, hclamped, hwhole⟩ := h
  rcases hwhole with hmax | ⟨n, hmax⟩
  · rw [hmax]
    rfl
  · rw [hmax] at hclamped ⊢
    rcases hauto : cfg.maxAutoConnections with _ | _ | q | _
    · rw [hauto] at hclamped
      cases hclamped
    · rw [hauto] at hnonneg
      cases hnonneg
    · rw [hauto] at hclamped hused
      have hqn : q ≤ n := of_decide_eq_true hclamped
      generalize hk : (if reserve ∧ (ranks.get remote).isNone then 1 else 0 : Nat) = k at hused
      have hlimit : autoConnectLimit ranks (.finite q) reserve remote = JsNumber.max (.ofNat 0) (.finite (q - k)) := by
        rw [autoConnectLimit, hk]
        rfl
      have hlt : (used : ℚ) < q - k := by
        by_contra hge
        refine hused ?_
        rw [hlimit]
        unfold JsNumber.max
        rw [if_neg (by simp [JsNumber.ofNat])]
        split
        · exact decide_eq_true (not_lt.1 hge)
        · exact decide_eq_true (by exact_mod_cast Nat.zero_le used)
      have hk0 : (0 : ℚ) ≤ k := by exact_mod_cast Nat.zero_le k
      have hun : (used : ℚ) < n := by linarith
      have hsucc : used + 1 ≤ n := by exact_mod_cast hun
      exact decide_eq_true (by exact_mod_cast hsucc)
    · rw [hauto] at hclamped
      cases hclamped

/-! ### Reservations -/

theorem mem_insertKey {k key : PubkeyHex} {keys : List PubkeyHex} (h : key ∈ insertKey k keys) : key = k ∨ key ∈ keys := by
  unfold insertKey at h
  split at h
  · exact .inr h
  · rcases List.mem_append.1 h with h | h
    · exact .inr h
    · exact .inl (List.mem_singleton.1 h)

theorem holders_reserveAutoConnect : (s.reserveAutoConnect remote).holders ⊆ xOnly remote :: s.holders := by
  have hkeys : ∀ key ∈ (s.reserveAutoConnect remote).holderKeys, key = remote ∨ key ∈ s.holderKeys := by
    intro key hkey
    have hpeers : ∀ key ∈ (s.reserveAutoConnect remote).autoConnectPeers, key = remote ∨ key ∈ s.autoConnectPeers := by
      intro key hkey
      unfold reserveAutoConnect at hkey
      dsimp only at hkey
      split at hkey
      · exact mem_insertKey (deleteKey_subset hkey)
      · exact mem_insertKey hkey
    obtain ⟨p, hp⟩ := @replanned_reserveAutoConnect s remote
    rw [hp] at hkey hpeers
    rw [mem_holderKeys] at hkey ⊢
    rcases hkey with hkey | hkey | hkey | hkey
    · exact .inr (.inl hkey)
    · exact .inr (.inr (.inl hkey))
    · exact .inr (.inr (.inr (.inl hkey)))
    · exact (hpeers key hkey).imp_right fun h => .inr (.inr (.inr h))
  intro x hx
  obtain ⟨key, hkey, rfl⟩ := mem_holders.1 hx
  rcases hkeys key hkey with rfl | hkey
  · exact List.mem_cons_self
  · exact List.mem_cons_of_mem _ (mem_holders.2 ⟨key, hkey, rfl⟩)

theorem Fits.fillFrom (hcfg : Limited cfg) {reserve : Bool} {candidates : List CachedWebRtcAdvert} (h : Fits cfg s) :
    Fits cfg (fillFrom cfg w reserve candidates s) := by
  induction candidates generalizing s with
  | nil => exact h
  | cons cached candidates ih =>
    unfold WebRtcTransport.fillFrom
    dsimp only
    split
    · exact ih h
    split
    · exact ih h
    rename_i hroom
    split
    · exact h
    split
    · exact ih h
    split
    · exact ih h
    · refine ih (le_of_le ?_ (hcfg.room hroom))
      exact (holders_length_succ holders_reserveAutoConnect).trans (Nat.succ_le_succ holders_length_le_used)

theorem Fits.shrink (h : Fits cfg s) (hl : Linked s) (hshrinks : Shrinks s s') : Fits cfg s' :=
  le_of_le (holders_length_le (hshrinks.holders hl)) h

theorem Fits.recache (h : Fits cfg s) (hcache : Recached s s') : Fits cfg s' := by
  unfold Fits
  rw [hcache.holders]
  exact h

theorem Fits.fillAutoConnectSlots (hcfg : Limited cfg) {key : PubkeyHex} (h : Fits cfg s) :
    Fits cfg (s.fillAutoConnectSlots cfg w key) := by
  have hpruned : ∀ kept, Recached s { s.pruneAdverts w with cooldowns := kept } :=
    fun _ => ⟨⟨⟨_, _, _, _, _, _, _, _, _⟩, rfl⟩, rfl⟩
  unfold WebRtcTransport.fillAutoConnectSlots
  split
  · exact h
  · exact (h.recache (hpruned _)).fillFrom hcfg

/-! ### The invariant -/

structure Bounded (cfg : ResolvedWebRtcTransportConfig) (s : WebRtcTransport) : Prop where
  linked : Linked s
  fits : Fits cfg s

theorem Bounded.shrink (h : Bounded cfg s) (hshrinks : Shrinks s s') : Bounded cfg s' :=
  ⟨h.linked.shrink hshrinks, h.fits.shrink h.linked hshrinks⟩

theorem Bounded.recache (h : Bounded cfg s) (hcache : Recached s s') : Bounded cfg s' :=
  ⟨h.linked.replan hcache.1, h.fits.recache hcache⟩

theorem Bounded.fill (hcfg : Limited cfg) {key : PubkeyHex} (h : Bounded cfg s) :
    Bounded cfg (s.fillAutoConnectSlots cfg w key) :=
  ⟨h.linked.replan replanned_fillAutoConnectSlots, h.fits.fillAutoConnectSlots hcfg⟩

theorem Bounded.newConnection (h : Bounded cfg s) {conn : WebRtcConnection} (hconn : s.MadeFrom conn) :
    Bounded cfg { s with connections := s.connections.alloc conn } := ⟨h.linked.newConnection hconn, h.fits⟩

theorem Bounded.handleAutoConnectFailure (hcfg : Limited cfg) {recovery : Bool} (h : Bounded cfg s) :
    Bounded cfg (s.handleAutoConnectFailure cfg w remote recovery) := by
  have hdeleted : ∀ cooldowns, Shrinks s { s with
      autoConnectPeers := deleteKey remote s.autoConnectPeers, cooldowns := cooldowns } := fun _ =>
    ⟨.of_eq rfl rfl rfl, rfl, List.Sublist.refl _, List.Sublist.refl _, List.Sublist.refl _, deleteKey_subset⟩
  unfold WebRtcTransport.handleAutoConnectFailure
  split
  · exact h
  · exact ((h.shrink (hdeleted _)).shrink shrinks_scheduleAutoReconnect).fill hcfg

theorem Bounded.connectFinally (hcfg : Limited cfg) {d : DialRef} {call : ConnectCall} (h : Bounded cfg s) :
    Bounded cfg (s.connectFinally cfg w d call) := by
  have hpeers : (if (s.conns.get call.remotePubkeyHex).isNone then deleteKey call.remotePubkeyHex s.autoConnectPeers
      else s.autoConnectPeers) ⊆ s.autoConnectPeers := by
    split
    · exact deleteKey_subset
    · exact List.Subset.refl _
  have hfreed : ∀ connects pendingAuto, Bounded cfg { s with
      pendingConnects := connects
      autoConnectPeers := if (s.conns.get call.remotePubkeyHex).isNone then
        deleteKey call.remotePubkeyHex s.autoConnectPeers else s.autoConnectPeers
      pendingAutoConnects := pendingAuto } := fun _ _ =>
    h.shrink ⟨.of_eq rfl rfl rfl, rfl, List.Sublist.refl _, List.Sublist.refl _, List.Sublist.refl _, hpeers⟩
  unfold WebRtcTransport.connectFinally
  dsimp only
  split
  · exact (hfreed _ _).fill hcfg
  · exact hfreed _ s.pendingAutoConnects

theorem Bounded.connectSettled (hcfg : Limited cfg) {d : DialRef} (h : Bounded cfg s) :
    Bounded cfg (s.connectSettled cfg w d) := by
  unfold WebRtcTransport.connectSettled
  split
  · have hended : Bounded cfg { s with connects := s.connects.delete d } :=
      h.shrink (.of_eq rfl rfl rfl rfl rfl rfl rfl)
    dsimp only
    refine Bounded.connectFinally hcfg ?_
    split
    · exact hended.handleAutoConnectFailure hcfg
    · exact hended
  · exact h

theorem Bounded.close (hcfg : Limited cfg) {addr : PubkeyHex} (h : Bounded cfg s) : Bounded cfg (s.close cfg w addr) := by
  have hclosed : ∀ (dials : List DialRef) (negotiations : List NegotiationId) traffic, Bounded cfg ({ List.foldl
      (fun (s : WebRtcTransport) negotiationId => s.clearPendingInbound negotiationId) (List.foldl closeDial s dials)
      negotiations with peersWithTraffic := traffic }.retireExistingConnection (s.ownedPeerAddress addr)) := by
    intro dials negotiations traffic
    have hdials : Shrinks s (List.foldl closeDial s dials) := shrinks_foldl (fun _ _ => shrinks_closeDial) dials
    have hinbounds : Shrinks (List.foldl closeDial s dials) (List.foldl
        (fun (s : WebRtcTransport) negotiationId => s.clearPendingInbound negotiationId) (List.foldl closeDial s dials)
        negotiations) := shrinks_foldl (fun _ _ => shrinks_clearPendingInbound) negotiations
    have htraffic : ∀ s : WebRtcTransport, Shrinks s { s with peersWithTraffic := traffic } :=
      fun _ => .of_eq rfl rfl rfl rfl rfl rfl rfl
    exact h.shrink (((hdials.trans hinbounds).trans (htraffic _)).trans shrinks_retireExistingConnection)
  unfold WebRtcTransport.close
  dsimp only
  split
  · exact (hclosed _ _ _).shrink shrinks_scheduleAutoReconnect
  · exact (hclosed _ _ _).handleAutoConnectFailure hcfg

theorem Bounded.autoReconnectTimeout (hcfg : Limited cfg) (h : Bounded cfg s) :
    Bounded cfg (s.autoReconnectTimeout cfg w remote) := by
  have hfired : Bounded cfg { s with autoReconnectTimers := deleteKey remote s.autoReconnectTimers } :=
    h.shrink (.of_eq rfl rfl rfl rfl rfl rfl rfl)
  unfold WebRtcTransport.autoReconnectTimeout
  dsimp only
  split
  · split
    · exact hfired
    · exact hfired.fill hcfg
  · exact h

theorem Bounded.autoConnectFillTimeout (hcfg : Limited cfg) (h : Bounded cfg s) :
    Bounded cfg (s.autoConnectFillTimeout cfg w) := by
  unfold WebRtcTransport.autoConnectFillTimeout
  split
  · exact h
  · have hfired : Bounded cfg { s with autoConnectFillTimer := none } := h.shrink (.of_eq rfl rfl rfl rfl rfl rfl rfl)
    exact hfired.fill hcfg

theorem Bounded.initiatorSettled {d : DialRef} {ok : Bool} {sdp : UnitString} (h : Bounded cfg s) :
    Bounded cfg (s.initiatorSettled w d ok sdp) := by
  rcases @initiatorSettled_cases w s d ok sdp with hshrinks | ⟨howns, s₁, hshrinks, heq⟩
  · exact h.shrink hshrinks
  · rw [heq]
    have hd := (h.linked.dials _ (mem_of_ownsDial howns)).1
    refine (h.shrink hshrinks).newConnection ?_
    exact ⟨hd.trans_le hshrinks.dialsNext, (hshrinks.dial d hd).2.symm⟩

theorem Bounded.responderSettled {i : InboundRef} {ok noRoute : Bool} {sdp : UnitString} (h : Bounded cfg s) :
    Bounded cfg (s.responderSettled cfg w i ok noRoute sdp) := by
  rcases @responderSettled_cases cfg w s i ok noRoute sdp with hshrinks | ⟨howns, s₁, hshrinks, heq⟩
  · exact h.shrink hshrinks
  · rw [heq]
    have hi := (h.linked.inbounds _ (mem_of_ownsInbound howns)).1
    refine (h.shrink hshrinks).newConnection ?_
    exact ⟨hi.trans_le hshrinks.inboundsNext, (hshrinks.inbound i hi).2.symm⟩

/-! ### Connections -/

/-- The peer of a connection that still counts holds something. -/
theorem mem_holders_of_ownsConnection (hl : Linked s) {c : ConnectionRef} (h : s.ownsConnection c = true) :
    xOnly (s.connections.get c).remotePubkeyHex ∈ s.holders := by
  unfold ownsConnection at h
  rw [Bool.and_eq_true, decide_eq_true_eq, Bool.or_eq_true, decide_eq_true_eq] at h
  obtain ⟨hc, howns | hconn⟩ := h
  · have hmade := hl.connections c hc
    unfold MadeFrom at hmade
    split at howns
    · rename_i d hd
      rw [hd] at hmade
      rw [hmade.2]
      exact mem_holders.2 ⟨_, mem_holderKeys.2 (.inr (.inl ⟨_, mem_of_ownsDial howns, rfl⟩)), rfl⟩
    · rename_i i hi
      rw [hi] at hmade
      rw [hmade.2]
      exact mem_holders.2 ⟨_, mem_holderKeys.2 (.inr (.inr (.inl ⟨_, mem_of_ownsInbound howns, rfl⟩))), rfl⟩
  · exact mem_holders.2 ⟨_, mem_holderKeys.2 (.inl ⟨_, JsMap.mem_of_get hconn, rfl⟩), rfl⟩

/-- A peer that holds something gets a connection. -/
theorem Bounded.setConnection (h : Bounded cfg s) {key : PubkeyHex} {c : ConnectionRef} (hkey : xOnly key ∈ s.holders) :
    Bounded cfg { s with conns := s.conns.set key c } := by
  refine ⟨⟨h.linked.dials, h.linked.inbounds, h.linked.nodupDials, h.linked.nodupInbound, h.linked.connections⟩, ?_⟩
  refine le_of_le (holders_length_le ?_) h.fits
  intro x hx
  obtain ⟨key', hkey', rfl⟩ := mem_holders.1 hx
  rcases mem_holderKeys.1 hkey' with ⟨e, he, rfl⟩ | hrest
  · rcases JsMap.mem_set he with rfl | he
    · exact hkey
    · exact mem_holders.2 ⟨_, mem_holderKeys.2 (.inl ⟨e, he, rfl⟩), rfl⟩
  · exact mem_holders.2 ⟨_, mem_holderKeys.2 (.inr hrest), rfl⟩

theorem shrinks_deleteConnection {key : PubkeyHex} : Shrinks s { s with conns := s.conns.delete key } :=
  ⟨.of_eq rfl rfl rfl, rfl, List.Sublist.refl _, List.Sublist.refl _, List.filter_sublist, List.Subset.refl _⟩

theorem Bounded.connectionState {c : ConnectionRef} {state : ConnectionState} (h : Bounded cfg s) :
    Bounded cfg (s.connectionState cfg c state) := by
  unfold WebRtcTransport.connectionState
  split
  · exact h
  rename_i hguard
  rw [Bool.or_eq_true, not_or, decide_eq_true_eq, Bool.not_eq_false] at hguard
  have howns := hguard.1
  have hheld := mem_holders_of_ownsConnection h.linked howns
  have hc : c < s.connections.next := by
    unfold ownsConnection at howns
    rw [Bool.and_eq_true, decide_eq_true_eq] at howns
    exact howns.1
  have hmade := h.linked.connections c hc
  unfold MadeFrom at hmade
  split
  · rename_i d hd
    rw [hd] at hmade
    have hsettled : ∀ (s : WebRtcTransport) outcome, Bounded cfg s →
        Bounded cfg (if (s.pendingDials.get (s.dials.get d).sessionId).isSome then s.endDial d outcome else s) := by
      intro s outcome hs
      split
      · exact hs.shrink shrinks_endDial
      · exact hs
    unfold dialConnectionState
    dsimp only
    rw [hmade.2] at hheld
    cases state with
    | connecting => exact h
    | connected => exact hsettled _ _ (h.setConnection hheld)
    | failed => exact hsettled _ _ ((h.shrink shrinks_deleteConnection).shrink shrinks_scheduleAutoReconnect)
    | disconnected => exact hsettled _ _ ((h.shrink shrinks_deleteConnection).shrink shrinks_scheduleAutoReconnect)
  · unfold handleInboundConnectionState
    dsimp only
    split
    · exact ((h.setConnection hheld).shrink shrinks_clearPendingInbound).shrink (.of_eq rfl rfl rfl rfl rfl rfl rfl)
    split
    · split
      · exact h.shrink shrinks_clearPendingInbound
      · exact h
    split
    · exact ((h.shrink shrinks_deleteConnection).shrink shrinks_clearPendingInbound).shrink shrinks_scheduleAutoReconnect
    · exact h

/-! ### New peers -/

/-- A peer that holds something, or one more that the limit allows. -/
def Room (cfg : ResolvedWebRtcTransportConfig) (s : WebRtcTransport) (remote : PubkeyHex) : Prop :=
  xOnly remote ∈ s.holders ∨ (JsNumber.ofNat (s.holders.length + 1)).le cfg.maxConnections = true

theorem Room.fits (h : Room cfg s remote) (hfits : Fits cfg s) (hsub : s'.holders ⊆ xOnly remote :: s.holders) :
    Fits cfg s' := by
  rcases h with hheld | hroom
  · refine le_of_le (holders_length_le fun x hx => ?_) hfits
    rcases List.mem_cons.1 (hsub hx) with rfl | hx
    · exact hheld
    · exact hx
  · exact le_of_le (holders_length_succ hsub) hroom

/-- Whether `connect` starts a dial. -/
def dialStarts (w : Surroundings) (s : WebRtcTransport) (addr : PubkeyHex) (created : Bool) : Bool :=
  addr.length = 66 && s.peerAllowed w (s.ownedPeerAddress addr) && (s.conns.get (s.ownedPeerAddress addr)).isNone &&
    (s.pendingConnects.get (s.ownedPeerAddress addr)).isNone &&
    (s.ctx.map TransportContext.sendLinkNegotiation).getD false && created

theorem Bounded.connect {addr : PubkeyHex} {sessionId : NegotiationId} {created : Bool} (h : Bounded cfg s)
    (hroom : dialStarts w s addr created = true → Room cfg s addr) : Bounded cfg (s.connect w addr sessionId created) := by
  have hfreed : ∀ pendingAuto known, Shrinks s { s with
      autoConnectPeers := deleteKey addr s.autoConnectPeers, pendingAutoConnects := pendingAuto,
      knownSessionIds := known } := fun _ _ =>
    ⟨.of_eq rfl rfl rfl, rfl, List.Sublist.refl _, List.Sublist.refl _, List.Sublist.refl _, deleteKey_subset⟩
  unfold WebRtcTransport.connect
  dsimp only
  split
  · exact h
  rename_i hallowed
  split
  · exact h.shrink (hfreed s.pendingAutoConnects s.knownSessionIds)
  rename_i hfree
  have hauto : ∃ pendingAuto, (if decide (addr ∈ s.autoConnectPeers) = true then
      { s with
        autoConnectPeers := deleteKey addr s.autoConnectPeers
        pendingAutoConnects := insertKey (s.ownedPeerAddress addr) s.pendingAutoConnects }
      else { s with autoConnectPeers := deleteKey addr s.autoConnectPeers }) =
      { s with autoConnectPeers := deleteKey addr s.autoConnectPeers, pendingAutoConnects := pendingAuto } := by
    split
    · exact ⟨_, rfl⟩
    · exact ⟨s.pendingAutoConnects, rfl⟩
  obtain ⟨pendingAuto, hauto⟩ := hauto
  rw [hauto]
  split
  · exact h.shrink (hfreed _ s.knownSessionIds)
  rename_i hctx
  split
  · exact h.shrink (hfreed _ _)
  rename_i hcreated
  have hstarts : dialStarts w s addr created = true := by
    simp only [Bool.or_eq_true, decide_eq_true_eq, not_or, Bool.not_eq_false, ne_eq, not_not, Bool.not_eq_true,
      Option.isSome_eq_false_iff] at hallowed hfree hctx hcreated
    unfold dialStarts
    rw [hallowed.2, hfree.1, hfree.2, hctx, hcreated, decide_eq_true hallowed.1]
    rfl
  refine ⟨?_, (hroom hstarts).fits h.fits ?_⟩
  · refine h.linked.of_extends ?_ rfl ?_ (fun _ he => .inl he) (h.linked.nodupDials.set _ _) h.linked.nodupInbound
    · refine ⟨Nat.le_succ _, Nat.le_refl _, Nat.le_refl _, ?_, fun _ _ => ⟨rfl, rfl⟩, fun _ _ => rfl⟩
      intro d hd
      dsimp only
      rw [Heap.get_alloc_of_lt hd]
      exact ⟨rfl, rfl⟩
    · intro e he
      rcases JsMap.mem_set he with rfl | he
      · refine .inr ⟨Nat.lt_succ_self _, ?_⟩
        dsimp only
        rw [Heap.get_alloc_self]
      · exact .inl he
  · intro x hx
    obtain ⟨key, hkey, rfl⟩ := mem_holders.1 hx
    have hmem : ∀ key ∈ s.holderKeys, xOnly key ∈ xOnly addr :: s.holders :=
      fun key hkey => List.mem_cons_of_mem _ (mem_holders.2 ⟨key, hkey, rfl⟩)
    rcases mem_holderKeys.1 hkey with hkey | ⟨e, he, rfl⟩ | hkey | hkey
    · exact hmem key (mem_holderKeys.2 (.inl hkey))
    · dsimp only
      rcases JsMap.mem_set he with rfl | he
      · rw [Heap.get_alloc_self]
        rw [xOnly_ownedPeerAddress]
        exact List.mem_cons_self
      · rw [Heap.get_alloc_of_lt (h.linked.dials e he).1]
        exact hmem _ (mem_holderKeys.2 (.inr (.inl ⟨e, he, rfl⟩)))
    · exact hmem key (mem_holderKeys.2 (.inr (.inr (.inl hkey))))
    · exact hmem key (mem_holderKeys.2 (.inr (.inr (.inr (deleteKey_subset hkey)))))

/-- An offer that is accepted makes its peer hold something. -/
theorem acceptIncomingOffer_spec {offer : WebRtcSignal} {crossed : Bool} (hl : Linked s) :
    Linked (s.acceptIncomingOffer cfg w offer remote crossed) ∧
      (s.atConnectionLimit cfg remote = true →
        (s.acceptIncomingOffer cfg w offer remote crossed).holders ⊆ s.holders) ∧
      (s.acceptIncomingOffer cfg w offer remote crossed).holders ⊆ xOnly remote :: s.holders := by
  unfold acceptIncomingOffer
  split
  · have hrejected := (@shrinks_rejectIncomingOffer w s remote offer).holders hl
    exact ⟨hl.shrink shrinks_rejectIncomingOffer, fun _ => hrejected, fun x hx => List.mem_cons_of_mem _ (hrejected hx)⟩
  · rename_i hlimit
    refine ⟨?_, fun h => absurd h hlimit, ?_⟩
    · refine hl.of_extends ?_ rfl (fun _ he => .inl he) ?_ hl.nodupDials (hl.nodupInbound.set _ _)
      · refine ⟨Nat.le_refl _, Nat.le_succ _, Nat.le_refl _, fun _ _ => ⟨rfl, rfl⟩, ?_, fun _ _ => rfl⟩
        intro i hi
        dsimp only
        rw [Heap.get_alloc_of_lt hi]
        exact ⟨rfl, rfl⟩
      · intro e he
        rcases JsMap.mem_set he with rfl | he
        · refine .inr ⟨Nat.lt_succ_self _, ?_⟩
          dsimp only
          rw [Heap.get_alloc_self]
        · exact .inl he
    · intro x hx
      obtain ⟨key, hkey, rfl⟩ := mem_holders.1 hx
      have hmem : ∀ key ∈ s.holderKeys, xOnly key ∈ xOnly remote :: s.holders :=
        fun key hkey => List.mem_cons_of_mem _ (mem_holders.2 ⟨key, hkey, rfl⟩)
      rcases mem_holderKeys.1 hkey with hkey | hkey | ⟨e, he, rfl⟩ | hkey
      · exact hmem key (mem_holderKeys.2 (.inl hkey))
      · exact hmem key (mem_holderKeys.2 (.inr (.inl hkey)))
      · dsimp only
        rcases JsMap.mem_set he with rfl | he
        · rw [Heap.get_alloc_self]
          exact List.mem_cons_self
        · rw [Heap.get_alloc_of_lt (hl.inbounds e he).1]
          exact hmem _ (mem_holderKeys.2 (.inr (.inr (.inl ⟨e, he, rfl⟩))))
      · exact hmem key (mem_holderKeys.2 (.inr (.inr (.inr hkey))))

/-- Whether an offer that competes with no dial is accepted once it is admitted. -/
def offerAccepted (cfg : ResolvedWebRtcTransportConfig) (s : WebRtcTransport) (remote : PubkeyHex) : Bool :=
  !s.hasPendingInboundForPeer remote && !s.atConnectionLimit cfg remote

theorem Bounded.admitWithoutDial {offer : WebRtcSignal} {key : PubkeyHex} (h : Bounded cfg s)
    (hroom : offerAccepted cfg s remote = true → Room cfg s remote) :
    Bounded cfg (s.admitIncomingOffer cfg w offer remote key none) := by
  unfold admitIncomingOffer
  split
  · exact h.shrink shrinks_rejectIncomingOffer
  rename_i hfree
  obtain ⟨hlinked, hlimited, hholders⟩ := @acceptIncomingOffer_spec cfg w s remote offer false h.linked
  refine ⟨hlinked, ?_⟩
  by_cases hlimit : s.atConnectionLimit cfg remote = true
  · exact le_of_le (holders_length_le (hlimited hlimit)) h.fits
  · refine (hroom ?_).fits h.fits hholders
    unfold offerAccepted
    rw [Bool.not_eq_true] at hfree hlimit
    rw [hfree, hlimit]
    rfl

theorem competingDial_eq_some {d : DialRef} (h : s.competingDial remote = some d) :
    (∃ e ∈ s.pendingDials, e.2 = d) ∧ (s.dials.get d).remotePubkeyHex = remote := by
  have hmem := List.mem_of_find?_eq_some h
  have hremote := List.find?_some h
  obtain ⟨e, he, heq⟩ := List.mem_map.1 hmem
  exact ⟨⟨e, he, heq⟩, by simpa using hremote⟩

/-- A dial that an offer competes with holds something already. -/
theorem Bounded.admitWithDial {offer : WebRtcSignal} {key : PubkeyHex} {d : DialRef} (h : Bounded cfg s)
    (hd : s.competingDial remote = some d) :
    Bounded cfg (s.admitIncomingOffer cfg w offer remote key (some d)) := by
  obtain ⟨⟨e, he, heq⟩, hremote⟩ := competingDial_eq_some hd
  have hheld : xOnly remote ∈ s.holders := by
    refine mem_holders.2 ⟨_, mem_holderKeys.2 (.inr (.inl ⟨e, he, rfl⟩)), ?_⟩
    rw [heq, hremote]
  unfold admitIncomingOffer
  split
  · exact h.shrink shrinks_rejectIncomingOffer
  dsimp only
  split
  · exact h.shrink (Shrinks.trans (shrinks_modifyDial (by intro; exact ⟨rfl, rfl⟩)) shrinks_rejectIncomingOffer)
  · have hended : Shrinks s (s.endDial d .handoff) := shrinks_endDial
    obtain ⟨hlinked, -, hholders⟩ :=
      @acceptIncomingOffer_spec cfg w (s.endDial d .handoff) remote offer true (h.linked.shrink hended)
    refine ⟨hlinked, le_of_le (holders_length_le fun x hx => ?_) h.fits⟩
    rcases List.mem_cons.1 (hholders hx) with rfl | hx
    · exact hheld
    · exact hended.holders h.linked hx

/-- Whether a signal is an offer that competes with no dial and is accepted at once. -/
def offerEnters (cfg : ResolvedWebRtcTransportConfig) (w : Surroundings) (s : WebRtcTransport) (remote : PubkeyHex)
    (signal : WebRtcSignal) : Bool :=
  s.ctx.isSome && s.peerAllowed w remote && (validateWebRtcSignal signal (s.validationContext w)).toBool &&
    signal.kind = .offer && (s.pendingInbound.get signal.negotiationId).isNone &&
    (s.competingDial (s.ownedPeerAddress remote)).isNone && cfg.acceptConnections && !cfg.allowIncomingPeer &&
    s.peerAllowed w (s.ownedPeerAddress remote) && offerAccepted cfg s (s.ownedPeerAddress remote)

/-- Whether `allowIncomingPeer` lets an offer in that is then accepted. -/
def admissionEnters (cfg : ResolvedWebRtcTransportConfig) (w : Surroundings) (s : WebRtcTransport) (a : Admission) : Bool :=
  s.ctx = a.context && s.peerAllowed w a.remotePubkeyHex && offerAccepted cfg s a.remotePubkeyHex

theorem Bounded.handleIncomingSignal {signal : WebRtcSignal} (h : Bounded cfg s)
    (hroom : offerEnters cfg w s remote signal = true → Room cfg s (s.ownedPeerAddress remote)) :
    Bounded cfg (s.handleIncomingSignal cfg w signal remote) := by
  unfold WebRtcTransport.handleIncomingSignal
  split
  · exact h
  rename_i ctx hctx
  split
  · exact h
  rename_i hallowed
  dsimp only
  split
  · exact h
  rename_i valid hvalid
  obtain ⟨rfl, -⟩ := validateWebRtcSignal_eq_ok hvalid
  have hseen : Bounded cfg { s with seenSessionIds := replayKey valid.negotiationId valid.kind :: s.seenSessionIds } :=
    h.shrink (.of_eq rfl rfl rfl rfl rfl rfl rfl)
  unfold handleValidSignal
  split
  · rename_i hkind
    unfold handleIncomingOffer
    split
    · exact hseen
    rename_i hpending
    split
    · rename_i d hd
      split
      · exact hseen
      · exact hseen.admitWithDial hd
    · rename_i hd
      split
      · exact hseen.shrink shrinks_rejectIncomingOffer
      rename_i haccept
      split
      · exact hseen.shrink (.of_eq rfl rfl rfl rfl rfl rfl rfl)
      rename_i hallow
      split
      · exact hseen
      rename_i hallowed'
      refine hseen.admitWithoutDial fun haccepted => hroom ?_
      rw [Bool.not_eq_false] at hallowed haccept hallowed'
      rw [Bool.not_eq_true, Option.isSome_eq_false_iff] at hpending
      rw [Bool.not_eq_true] at hallow
      have hd' : s.competingDial (s.ownedPeerAddress remote) = none := hd
      have howned : s.peerAllowed w (s.ownedPeerAddress remote) = true := hallowed'
      have haccepted' : offerAccepted cfg s (s.ownedPeerAddress remote) = true := haccepted
      unfold offerEnters
      rw [hctx, hallowed, hvalid, hkind, hpending, hd', haccept, hallow, howned, haccepted']
      rfl
  · split
    · exact hseen
    · have hcall : ∀ (s : WebRtcTransport) answers nextCall, Shrinks s { s with answers := answers, nextCall := nextCall } :=
        fun _ _ _ => .of_eq rfl rfl rfl rfl rfl rfl rfl
      refine hseen.shrink ((hcall _ _ _).trans (shrinks_modifyDial ?_))
      intro
      exact ⟨rfl, rfl⟩
  · split
    · exact hseen
    · rename_i d hd
      have hdeleted : ∀ s : WebRtcTransport, Shrinks s
          { s with pendingDials := s.pendingDials.delete valid.negotiationId } := fun _ =>
        ⟨.of_eq rfl rfl rfl, rfl, List.filter_sublist, List.Sublist.refl _, List.Sublist.refl _, List.Subset.refl _⟩
      refine hseen.shrink (((hdeleted _).trans (shrinks_modifyDial ?_)).trans shrinks_settleDial)
      intro
      exact ⟨rfl, rfl⟩
  · exact hseen

theorem Bounded.admissionSettled {call : Nat} {admitted : Option Bool} (h : Bounded cfg s)
    (hroom : ∀ a, s.admissions.get call = some a → admitted = some true → admissionEnters cfg w s a = true →
      Room cfg s a.remotePubkeyHex) : Bounded cfg (s.admissionSettled cfg w call admitted) := by
  unfold WebRtcTransport.admissionSettled
  split
  · exact h
  rename_i a ha
  have hended : Bounded cfg { s with admissions := s.admissions.delete call } :=
    h.shrink (.of_eq rfl rfl rfl rfl rfl rfl rfl)
  dsimp only
  split
  · exact hended
  rename_i admitted'
  split
  · exact hended
  rename_i hsame
  split
  · exact hended.shrink shrinks_rejectIncomingOffer
  rename_i hadmitted
  rw [Bool.not_eq_false] at hadmitted
  refine hended.admitWithoutDial fun haccepted => hroom a ha (by rw [hadmitted]) ?_
  simp only [ne_eq, Bool.or_eq_true, decide_eq_true_eq, not_or, not_not, Bool.not_eq_false] at hsame
  have hallowed : s.peerAllowed w a.remotePubkeyHex = true := hsame.2
  have haccepted' : offerAccepted cfg s a.remotePubkeyHex = true := haccepted
  unfold admissionEnters
  rw [hallowed, haccepted', decide_eq_true hsame.1]
  rfl

/-! ### Runs -/

/-- The peer of a dial that a step starts, or of an offer that it accepts in competition with no dial. -/
def newcomer (cfg : ResolvedWebRtcTransportConfig) (s : WebRtcTransport) (e : Surroundings × Action) : Option PubkeyHex :=
  match e.2 with
  | .connect addr _ created => if dialStarts e.1 s addr created then some addr else none
  | .connectDiscovered n _ created => s.discovered[n]?.filter fun addr => dialStarts e.1 s addr created
  | .linkNegotiation remote signal =>
    if offerEnters cfg e.1 s remote signal then some (s.ownedPeerAddress remote) else none
  | .admissionSettled call (some true) =>
    ((s.admissions.get call).filter (admissionEnters cfg e.1 s)).map Admission.remotePubkeyHex
  | _ => none

/-- A new peer finds room. -/
def Roomy (cfg : ResolvedWebRtcTransportConfig) (s : WebRtcTransport) (e : Surroundings × Action) : Prop :=
  ∀ remote ∈ newcomer cfg s e, Room cfg s remote

instance (s : WebRtcTransport) (e : Surroundings × Action) : Decidable (Roomy cfg s e) :=
  inferInstanceAs (Decidable (∀ remote ∈ newcomer cfg s e, xOnly remote ∈ s.holders ∨
    (JsNumber.ofNat (s.holders.length + 1)).le cfg.maxConnections = true))

theorem bounded_new (hcfg : Limited cfg) : Bounded cfg new := by
  refine ⟨linked_new, ?_⟩
  show (JsNumber.ofNat 0).le cfg.maxConnections = true
  rcases hcfg.whole with hmax | ⟨n, hmax⟩
  · rw [hmax]
    rfl
  · rw [hmax]
    exact decide_eq_true (by exact_mod_cast Nat.zero_le n)

theorem Bounded.step (hcfg : Limited cfg) {e : Surroundings × Action} (h : Bounded cfg s) (hroom : Roomy cfg s e) :
    Bounded cfg (s.step cfg e) := by
  obtain ⟨w, action⟩ := e
  cases action with
  | start ctx => exact h.shrink shrinks_start
  | stop => exact h.shrink shrinks_stop
  | connect addr sessionId created =>
    refine h.connect fun hstarts => hroom addr ?_
    unfold newcomer
    dsimp only
    rw [if_pos hstarts]
    rfl
  | connectDiscovered n sessionId created =>
    show Bounded cfg (s.connectDiscovered w n sessionId created)
    unfold connectDiscovered
    split
    · exact h
    · rename_i addr haddr
      have htaken : Bounded cfg { s with discovered := s.discovered.eraseIdx n } :=
        h.shrink (.of_eq rfl rfl rfl rfl rfl rfl rfl)
      refine htaken.connect fun hstarts => hroom addr ?_
      have hstarts' : dialStarts w s addr created = true := hstarts
      unfold newcomer
      dsimp only
      rw [haddr]
      exact Option.filter_some_pos hstarts'
  | connectSettled d => exact h.connectSettled hcfg
  | initiatorSettled d ok sdp => exact h.initiatorSettled
  | retrySettled call ok => exact h.shrink shrinks_retrySettled
  | sessionEstablished remote restarted localDescription => exact h.shrink shrinks_handleSessionEstablished
  | linkNegotiation remote signal =>
    refine h.handleIncomingSignal fun henters => hroom _ ?_
    unfold newcomer
    dsimp only
    rw [if_pos henters]
    rfl
  | admissionSettled call admitted =>
    refine h.admissionSettled fun a ha hadmitted henters => hroom _ ?_
    rw [hadmitted]
    unfold newcomer
    dsimp only
    rw [ha, Option.filter_some_pos henters]
    rfl
  | answerSettled call ok => exact h.shrink shrinks_answerSettled
  | responderSettled i ok noRoute sdp => exact h.responderSettled
  | connectionState c state => exact h.connectionState
  | packet c => exact h.shrink shrinks_packet
  | dialTimeout d => exact h.shrink shrinks_dialTimeout
  | inboundTimeout i => exact h.shrink shrinks_inboundTimeout
  | autoReconnectTimeout remote => exact h.autoReconnectTimeout hcfg
  | autoConnectFillTimeout => exact h.autoConnectFillTimeout hcfg
  | close addr => exact h.close hcfg
  | advert addr eventPubkey node createdAt expires requested => exact h.recache recached_handleAdvert
  | resolve node => exact h.recache recached_resolve

/-- A configuration that accepts connections and dials automatically. -/
def toyConfig (maxConnections : Nat) (maxAutoConnections : Property JsNumber) : WebRtcTransportConfig where
  advertiseOnNostr := none
  acceptConnections := some (some true)
  allowIncomingPeer := false
  autoConnect := some (some true)
  maxConnections := some (some (.ofNat maxConnections))
  maxAutoConnections := maxAutoConnections
  preferredAutoConnectPeers := none

end WebRtcTransport

end Fips
