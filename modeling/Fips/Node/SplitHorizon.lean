import Fips.Crypto.Toy
import Fips.Node.Flooding
import Fips.Node.RoutedFrames

/-!
# Split horizon

A message that is passed on does not go back to the identity it has come from, as long as that identity is reached over
one object under one compressed key. Next hops are told apart by key, fallback peers and the peer of a reverse
path by object; a replay compares identities.
-/

namespace Fips
open Exec LittleEndian

theorem nodeAddrOf_sameX {S : Suite} {a b : Bytes} (h : SameX a b) : nodeAddrOf S a = nodeAddrOf S b := by
  unfold nodeAddrOf
  rw [deriveNodeAddr_compressed h.1, deriveNodeAddr_compressed h.2.1, h.2.2]

/-! ### Messages for other nodes -/

namespace Routing

/-- The messages that have been sent for other nodes since `r` satisfy `P`. -/
def Emits (P : LinkSend → Prop) (r r' : Routing) : Prop :=
  ∃ sent, r'.log = r.log ++ sent ∧ ∀ m, .send m ∈ sent → m.cause ≠ .own → P m

/-- A method that sends only such messages for other nodes. -/
def Sends {α : Type} (P : LinkSend → Prop) (x : RM α) : Prop := ∀ r, wp x (fun _ => Emits P r) (fun _ => Emits P r) r

section
variable {α β : Type} {P : LinkSend → Prop} {x : RM α} {r r' r'' : Routing}

theorem Emits.refl (r : Routing) : Emits P r r := ⟨[], (List.append_nil _).symm, nofun⟩

theorem Emits.trans (h : Emits P r r') (h' : Emits P r' r'') : Emits P r r'' := by
  obtain ⟨sent, hlog, hsent⟩ := h
  obtain ⟨sent', hlog', hsent'⟩ := h'
  refine ⟨sent ++ sent', by rw [hlog', hlog, List.append_assoc], fun m hm hcause => ?_⟩
  rcases List.mem_append.1 hm with hm | hm
  · exact hsent m hm hcause
  · exact hsent' m hm hcause

theorem Emits.of_log (h : r'.log = r.log) : Emits P r r' := ⟨[], by rw [h, List.append_nil], nofun⟩

theorem Emits.transmit {env : RoutingEnv} {cause : SendCause} {p : PeerId} {msgType : Nat} {payload : Bytes}
    (h : cause ≠ .own → P ⟨cause, p, env.peer p, msgType, payload, env.sends p msgType payload⟩) :
    Emits P r (transmit env cause p msgType payload r) := by
  refine ⟨_, rfl, fun m hm hcause => ?_⟩
  cases List.mem_singleton.1 hm
  exact h hcause

theorem Kept.emits (h : Kept r r') : Emits P r r' := by
  obtain ⟨sent, hsent⟩ := h.log
  refine ⟨sent, hsent.symm, fun m hm hcause => ?_⟩
  have hfiltered := h.forwarded
  rw [← hsent, List.filter_append, List.append_right_eq_self, List.filter_eq_nil_iff] at hfiltered
  exact absurd (decide_eq_true hcause) (hfiltered _ hm)

theorem Quiet.sends (h : Quiet x) : Sends P x := fun r => wp_mono (h r) (fun _ _ => Kept.emits) fun _ _ => Kept.emits

theorem Sends.bind {f : α → RM β} (h : Sends P x) (hf : ∀ a, Sends P (f a)) : Sends P (x >>= f) :=
  fun r => wp_bind.2 (wp_mono (h r)
    (fun a r' hr' => wp_mono (hf a r') (fun _ _ => hr'.trans) fun _ _ => hr'.trans) fun _ _ hr' => hr')

theorem sends_lift_bind {c : Except String α} {f : α → RM β} (hf : ∀ a, c = .ok a → Sends P (f a)) :
    Sends P (lift c >>= f) :=
  fun r => wp_bind.2 (wp_lift.2 ⟨fun a ha => hf a ha r, fun _ _ => .refl r⟩)

theorem sends_modify {f : Routing → Routing} (h : ∀ r, Emits P r (f r)) : Sends P (modify f : RM PUnit) := h

theorem sends_log {f : Routing → Routing} (h : ∀ r, (f r).log = r.log) : Sends P (modify f : RM PUnit) :=
  fun r => Emits.of_log (h r)

theorem Sends.ite {c : Prop} [Decidable c] {y : RM α} (h : c → Sends P x) (h' : ¬c → Sends P y) :
    Sends P (if c then x else y) := by
  split
  · exact h ‹_›
  · exact h' ‹_›

theorem Sends.after {x : RM Unit} (h : Sends P x) (r : Routing) : Emits P r (settled x r) := wp_after.2 (h r)

end

end Routing

/-! ### Next hops -/

namespace RoutingEnv

/-- A peer the node can find. -/
def Finds (env : RoutingEnv) (q : PeerId) : Prop := q ∈ env.getPeers ∨ ∃ nodeAddr, env.getPeerByNodeAddr nodeAddr = some q

/-- The identity of `p` is connected under one compressed key. -/
def OneKey (env : RoutingEnv) (p : PeerId) : Prop :=
  ∀ q, env.Finds q → env.established q = true → SameX (env.peer q).pubkey (env.peer p).pubkey →
    (env.peer q).pubkey = (env.peer p).pubkey

/-- `hop` has another identity than `p`. -/
def Apart (env : RoutingEnv) (p hop : PeerId) : Prop := ¬ SameX (env.peer hop).pubkey (env.peer p).pubkey

variable {S : Suite} {env : RoutingEnv} {p hop : PeerId} {minMtu : Nat}

theorem OneKey.apart (h : env.OneKey p) (hfinds : env.Finds hop) (husable : env.usable (some p) minMtu hop = true) :
    env.Apart p hop := by
  intro hsame
  unfold usable at husable
  rw [Bool.and_eq_true, Bool.and_eq_true, decide_eq_true_eq] at husable
  obtain ⟨⟨hestablished, hne⟩, -⟩ := husable
  exact hne (congrArg some (h hop hfinds hestablished hsame).symm)

theorem finds_of_selectCarrier {preferred excludedPeer : Option PeerId}
    (hpreferred : ∀ q, preferred = some q → env.Finds q)
    (h : env.selectCarrier S preferred excludedPeer minMtu = some hop) : env.Finds hop := by
  unfold selectCarrier at h
  cases preferred with
  | none => cases h
  | some q =>
    dsimp only at h
    split at h
    · cases h
      exact hpreferred _ rfl
    · exact .inl (List.mem_of_find?_eq_some h)

end RoutingEnv

namespace Routing

section
variable {S : Suite} {G : Schnorr} {cfg : RoutingConfig} {env : RoutingEnv} {r r' : Routing} {p hop : PeerId} {minMtu : Nat}

theorem finds_of_usablePeer {dest nodeHex : NodeAddr} {excludedPeer : Option PeerId} {t : LearnedRouteTable}
    (h : usablePeer S env dest excludedPeer minMtu t nodeHex = some hop) : env.Finds hop := by
  obtain ⟨hcarrier, -⟩ := Option.filter_eq_some_iff.1 h
  exact RoutingEnv.finds_of_selectCarrier (fun q hq => .inr ⟨nodeHex, hq⟩) hcarrier

theorem finds_of_nextHopFor {dest : NodeAddr} {excludedPeer : Option PeerId}
    (h : (nextHopFor S cfg env dest excludedPeer minMtu r).1 = some hop) : env.Finds hop := by
  revert h
  unfold nextHopFor
  split
  · rintro ⟨⟩
    exact finds_of_usablePeer ‹_›
  dsimp only
  split
  · exact finds_of_usablePeer
  · unfold treeOrDefault
    dsimp only
    split
    · exact finds_of_usablePeer
    · intro h
      obtain ⟨p, -, hp⟩ := Option.bind_eq_some_iff.1 h
      exact finds_of_usablePeer hp

theorem apart_of_nextHopFor {dest : NodeAddr} (hkey : env.OneKey p)
    (h : (nextHopFor S cfg env dest (some p) minMtu r).1 = some hop) : env.Apart p hop :=
  hkey.apart (finds_of_nextHopFor h) (nextHopFor_eq_some h).1

/-- The choice of a next hop does not look at reverse paths. -/
theorem nextHopFor_congr {dest : NodeAddr} {excludedPeer : Option PeerId} (hroutes : r'.learnedRoutes = r.learnedRoutes)
    (hcoords : r'.coordCache = r.coordCache) (htree : r'.treeState = r.treeState) :
    (nextHopFor S cfg env dest excludedPeer minMtu r').1 = (nextHopFor S cfg env dest excludedPeer minMtu r).1 := by
  unfold nextHopFor treeOrDefault
  rw [hroutes, hcoords, htree]
  split
  · rfl
  dsimp only
  split <;> rfl

theorem treeState_nextHopFor {dest : NodeAddr} {excludedPeer : Option PeerId} :
    (nextHopFor S cfg env dest excludedPeer minMtu r).2.treeState = r.treeState := by
  unfold nextHopFor
  split
  · rfl
  dsimp only
  split <;> rfl

/-! ### Datagrams -/

/-- The message does not go back to the identity of `source`. -/
def Horizon (env : RoutingEnv) (source : Option PeerId) (m : LinkSend) : Prop :=
  ∃ p, source = some p ∧ ¬ SameX m.view.pubkey (env.peer p).pubkey

variable {d : OutboundSessionDatagram}

theorem previousHop_of_cause (h : d.cause ≠ .own) : ∃ p, d.previousHop = some p := by
  unfold OutboundSessionDatagram.cause at h
  unfold OutboundSessionDatagram.previousHop
  cases hsource : d.source with
  | own frame =>
    rw [hsource] at h
    exact absurd rfl h
  | transit p payload => exact ⟨p, rfl⟩

theorem sends_sendFrame (payload : Bytes) (rest : List Bytes) (h : ∀ p, d.previousHop = some p → env.Apart p hop) :
    Sends (Horizon env d.previousHop) (sendFrame env d hop payload rest) := by
  unfold sendFrame
  refine (quiet_lift _).sends.bind fun encoded => Sends.bind (sends_modify fun r => Emits.transmit fun hcause => ?_) fun _ => ?_
  · obtain ⟨p, hp⟩ := previousHop_of_cause hcause
    exact ⟨p, hp, h p hp⟩
  · exact Sends.ite (fun _ => sends_log fun _ => rfl) fun _ => (quiet_pure _).sends

theorem sends_refreshTransitRoute {P : LinkSend → Prop} (frames : Option (Bytes × List Bytes)) :
    Sends P (refreshTransitRoute S cfg env d minMtu frames) := by
  unfold refreshTransitRoute
  refine quiet_get.sends.bind fun r => ?_
  split
  · exact sends_log fun _ => rfl
  · refine Sends.ite (fun _ => ((quiet_throw _).sends).bind fun _ => ?_) fun _ => ?_
    all_goals exact (quiet_startLookup _ _ _ _).sends.bind fun lid => sends_log fun _ => rfl

/-- A next hop of a datagram is apart from the peer it has come from. -/
theorem apart_of_found (hkey : ∀ p, d.previousHop = some p → env.OneKey p)
    (h : (nextHopFor S cfg env d.destAddr d.previousHop minMtu r).1 = some hop) :
    ∀ p, d.previousHop = some p → env.Apart p hop := by
  intro p hp
  rw [hp] at h
  exact apart_of_nextHopFor (hkey p hp) h

/-- What is sent after a hop has been looked for is sent for the hop found. -/
theorem Sends.bind_nextHop {α : Type} {P : LinkSend → Prop} {destNodeHex : NodeAddr} {excludedPeer : Option PeerId}
    {f : Option PeerId → RM α}
    (h : ∀ r found, (nextHopFor S cfg env destNodeHex excludedPeer minMtu r).1 = found → Sends P (f found)) :
    Sends P (nextHop S cfg env destNodeHex excludedPeer minMtu >>= f) := by
  intro r
  rw [wp_bind, wp_nextHop]
  have hkept := @kept_nextHopFor S cfg env r destNodeHex excludedPeer minMtu
  exact wp_mono (h r _ rfl _) (fun _ _ => hkept.emits.trans) fun _ _ => hkept.emits.trans

theorem sends_sendFrames (hkey : ∀ p, d.previousHop = some p → env.OneKey p) (frames : List Bytes)
    (hhop : frames ≠ [] → ∀ p, d.previousHop = some p → env.Apart p hop) :
    Sends (Horizon env d.previousHop) (sendFrames S cfg env d hop frames) := by
  cases frames with
  | nil => exact (quiet_pure _).sends
  | cons payload rest =>
    unfold sendFrames
    refine quiet_get.sends.bind fun r => Sends.ite (fun _ => ?_) fun _ => ?_
    · refine Sends.bind_nextHop fun r found hfound => ?_
      cases found with
      | some hop => exact sends_sendFrame payload rest (apart_of_found hkey hfound)
      | none => exact sends_refreshTransitRoute _
    · exact sends_sendFrame payload rest (hhop (List.cons_ne_nil _ _))

theorem sends_dispatch (hkey : ∀ p, d.previousHop = some p → env.OneKey p) (found : Option PeerId)
    (hfound : ∀ hop, found = some hop → ∀ p, d.previousHop = some p → env.Apart p hop) :
    Sends (Horizon env d.previousHop) (dispatch S cfg env d found) := by
  cases found with
  | none => exact (quiet_throw _).sends
  | some hop => exact sends_sendFrames hkey _ fun _ => hfound hop rfl

theorem sends_redispatch (hkey : ∀ p, d.previousHop = some p → env.OneKey p) :
    Sends (Horizon env d.previousHop) (do dispatch S cfg env d (← nextHop S cfg env d.destAddr d.previousHop 0)) := by
  refine Sends.bind_nextHop fun r found hfound => sends_dispatch hkey found fun hop hhop => ?_
  exact apart_of_found hkey (hfound.trans hhop)

theorem sends_sendSessionDatagram (hkey : ∀ p, d.previousHop = some p → env.OneKey p) :
    Sends (Horizon env d.previousHop) (sendSessionDatagram S cfg env d) := by
  unfold sendSessionDatagram
  refine Sends.bind_nextHop fun r found hfound => ?_
  cases found with
  | some hop =>
    refine sends_dispatch hkey _ fun hop' hhop => ?_
    cases hhop
    exact apart_of_found hkey hfound
  | none =>
    refine Sends.ite (fun _ => ?_) fun _ => sends_refreshTransitRoute none
    exact (quiet_resolveRoute _).sends.bind fun e => sends_log fun _ => rfl

theorem sends_refreshed (hkey : ∀ p, d.previousHop = some p → env.OneKey p) (lid : LookupId) (own : Bool)
    (frames : Option (Bytes × List Bytes)) :
    Sends (Horizon env d.previousHop) (refreshed S cfg env d lid own minMtu frames) := by
  unfold refreshed
  refine quiet_get.sends.bind fun r => ?_
  split
  · exact (quiet_pure _).sends
  · rename_i pending _
    refine Sends.ite (fun _ => (quiet_throw _).sends) fun _ => Sends.ite (fun _ => ?_) fun _ => sends_refreshTransitRoute frames
    cases frames with
    | none => exact sends_redispatch hkey
    | some f =>
      dsimp only
      cases hcarrier : env.selectCarrier S (pending.nextHop.bind env.getPeerByNodeAddr) d.previousHop minMtu with
      | none => exact (quiet_throw _).sends
      | some hop =>
        refine sends_sendFrame f.1 f.2 fun p hp => ?_
        have hfinds : env.Finds hop := by
          refine RoutingEnv.finds_of_selectCarrier (fun q hq => ?_) hcarrier
          obtain ⟨nextHop, -, hget⟩ := Option.bind_eq_some_iff.1 hq
          exact .inr ⟨nextHop, hget⟩
        rw [hp] at hcarrier
        exact (hkey p hp).apart hfinds (RoutingEnv.selectCarrier_eq_some hcarrier).1

/-- A message for `dest` is passed on while more than `least` hops are left to it. -/
def Transit (cfg : RoutingConfig) (dest : NodeAddr) (least ttl : Nat) : Prop :=
  dest ≠ cfg.identity.nodeAddr ∧ cfg.forwarding = true ∧ least < ttl

theorem sends_handleSessionDatagram (payload : Bytes)
    (hkey : ∀ d, decodeSessionDatagramPayload payload = .ok d → Transit cfg d.destAddr 1 d.ttl → env.OneKey p) :
    Sends (Horizon env (some p)) (handleSessionDatagram S cfg env p payload) := by
  unfold handleSessionDatagram
  refine sends_lift_bind fun d hd => (quiet_assertNodeAllowed _).sends.bind fun _ => ?_
  refine (quiet_assertNodeAllowed _).sends.bind fun _ => ?_
  refine (Quiet.sends (quiet_modify fun _ => kept_cacheSessionCoordinates d)).bind fun _ => ?_
  refine Sends.ite (fun _ => Quiet.sends (quiet_modify fun r => ?_)) fun hdest => ?_
  · exact kept_log (e := .handleLocalSession p d.srcAddr d.payload) rfl rfl rfl
  refine Sends.ite (fun _ => (quiet_pure _).sends) fun hpasses => ?_
  rw [not_or, Bool.not_eq_false, Nat.not_le] at hpasses
  refine sends_sendSessionDatagram (d := ⟨d.ttl - 1, d.pathMtu, d.srcAddr, d.destAddr, .transit p d.payload⟩) fun q hq => ?_
  cases hq
  exact hkey d hd ⟨hdest, hpasses⟩

/-! ### Requests and responses -/

/-- No other carrier of the identity of `p` may take a request as a fallback. -/
def Alone (S : Suite) (cfg : RoutingConfig) (env : RoutingEnv) (treeState : TreeState) (p : PeerId) (minMtu : Nat) : Prop :=
  ∀ q ∈ env.getPeers, q ≠ p → env.established q = true →
    treeState.isTreePeer (env.peerNodeKey S q) = true ∨ cfg.routingMode = .replyLearned →
      minMtu ≤ env.frameCapacity q → env.Apart p q

theorem emits_foldl {γ : Type} {P : LinkSend → Prop} {f : Routing → γ → Routing} (l : List γ)
    (h : ∀ r, ∀ a ∈ l, Emits P r (f r a)) (r : Routing) : Emits P r (l.foldl f r) := by
  induction l generalizing r with
  | nil => exact .refl r
  | cons a l ih =>
    exact (h r a List.mem_cons_self).trans (ih (fun r b hb => h r b (List.mem_cons_of_mem _ hb)) _)

theorem sends_forwardTo {P : LinkSend → Prop} (key : ReverseKey) (rid : ReverseId) (request : LookupRequest)
    (nextHops : List PeerId) (h : ∀ q ∈ nextHops, ∀ payload ok, P ⟨.reverse rid, q, env.peer q, LinkMessageType.LookupRequest, payload, ok⟩) :
    Sends P (forwardTo S env key rid request nextHops) := by
  unfold forwardTo
  refine Sends.ite (fun _ => (quiet_pure _).sends) fun _ => (sends_modify fun _ => .of_log (by rfl)).bind fun _ => ?_
  refine (quiet_lift _).sends.bind fun encoded => (sends_modify fun r => ?_).bind fun _ => sends_log fun _ => rfl
  exact emits_foldl nextHops (fun r q hq => Emits.transmit fun _ => h q hq _ _) r

theorem sends_forwardOne {P : LinkSend → Prop} (rid : ReverseId) (request : LookupRequest)
    (h : ∀ payload ok, P ⟨.reverse rid, hop, env.peer hop, LinkMessageType.LookupRequest, payload, ok⟩) :
    Sends P (forwardOne S env rid request hop) := by
  unfold forwardOne
  refine (sends_modify fun _ => .of_log (by rfl)).bind fun _ => (quiet_lift _).sends.bind fun encoded => ?_
  exact (sends_modify fun r => Emits.transmit fun _ => h _ _).bind fun _ => sends_log fun _ => rfl

theorem sends_pursue {P : LinkSend → Prop} (key : ReverseKey) (rid : ReverseId) (request : LookupRequest) (resolving : Bool)
    (nextHops : List PeerId) (h : ∀ q ∈ nextHops, ∀ payload ok, P ⟨.reverse rid, q, env.peer q, LinkMessageType.LookupRequest, payload, ok⟩) :
    Sends P (pursue S env p key rid request resolving nextHops) := by
  unfold pursue
  cases resolving with
  | false => exact sends_forwardTo key rid request nextHops h
  | true =>
    exact (Quiet.sends (quiet_modify fun _ => kept_resolveAndForwardLookup ..)).bind fun _ =>
      sends_forwardTo key rid request nextHops h

theorem emits_passOn (hkey : env.OneKey p) (request : LookupRequest) (key : ReverseKey)
    (existing : Option (ReverseId × LookupReversePath))
    (halone : (nextHopFor S cfg env request.target (some p) request.minMtu r).1 = none →
      Alone S cfg env r.treeState p request.minMtu) :
    wp (passOn S cfg env p request key existing) (fun _ => Emits (Horizon env (some p)) r)
      (fun _ => Emits (Horizon env (some p)) r) r := by
  unfold passOn
  rw [wp_bind, wp_nextHop, wp_bind, wp_get]
  have hkept := @kept_nextHopFor S cfg env r request.target (some p) request.minMtu
  have htree := @treeState_nextHopFor S cfg env r request.minMtu request.target (some p)
  have hfound {hop : PeerId} := @apart_of_nextHopFor S cfg env r p hop request.minMtu request.target hkey
  generalize nextHopFor S cfg env request.target (some p) request.minMtu r = found at hkept htree hfound halone
  obtain ⟨directOrLearned, r₁⟩ := found
  have hhops : ∀ q ∈ (directOrLearned.elim
      (if directOrLearned.isNone then fallbackPeers S cfg env p request r₁ else []) fun p => [p]).filter fun p =>
        !existing.any fun e => env.peerNodeKey S p ∈ e.2.forwardedNextHops, env.Apart p q := by
    intro q hq
    replace hq := List.mem_of_mem_filter hq
    cases directOrLearned with
    | some hop =>
      cases List.mem_singleton.1 hq
      exact hfound rfl
    | none =>
      obtain ⟨hmem, hc⟩ := List.mem_filter.1 (List.mem_of_mem_take hq)
      obtain ⟨hne, hestablished, hmode, -, hmtu⟩ := of_decide_eq_true hc
      change r₁.treeState = r.treeState at htree
      rw [htree] at hmode
      exact halone rfl q hmem hne hestablished hmode hmtu
  refine wp_mono (Q := fun _ => Emits (Horizon env (some p)) r₁) (E := fun _ => Emits (Horizon env (some p)) r₁) ?_
    (fun _ _ => hkept.emits.trans) fun _ _ => hkept.emits.trans
  refine wp_ite.2 ⟨fun _ => wp_pure.2 (.refl r₁), fun _ => ?_⟩
  cases existing with
  | some e => exact sends_pursue _ _ _ _ _ (fun q hq _ _ => ⟨p, rfl, hhops q hq⟩) r₁
  | none =>
    refine (Sends.bind (sends_log fun r => ?_) fun _ =>
      sends_pursue _ _ _ _ _ (fun q hq _ _ => ⟨p, rfl, hhops q hq⟩)) r₁
    unfold addReverse reserveLookupReversePath
    dsimp only
    split
    · rfl
    · split <;> rfl

theorem emits_handleLookupRequest (request : LookupRequest)
    (hpasses : Transit cfg request.target 0 request.ttl → env.OneKey p ∧
      ((nextHopFor S cfg env request.target (some p) request.minMtu r).1 = none →
        Alone S cfg env r.treeState p request.minMtu)) :
    wp (handleLookupRequest S G cfg env p request) (fun _ => Emits (Horizon env (some p)) r)
      (fun _ => Emits (Horizon env (some p)) r) r := by
  unfold handleLookupRequest
  refine wp_ite.2 ⟨fun _ => wp_pure.2 (.refl r), fun _ => wp_ite.2 ⟨fun _ => ?_, fun htarget => ?_⟩⟩
  · exact (quiet_answerLookup p request).sends r
  refine wp_ite.2 ⟨fun _ => wp_pure.2 (.refl r), fun hforwards => ?_⟩
  rw [not_or, Bool.not_eq_false] at hforwards
  obtain ⟨hkey, halone⟩ := hpasses ⟨htarget, hforwards.1, Nat.pos_of_ne_zero hforwards.2⟩
  rw [wp_bind, wp_modify, wp_bind, wp_get]
  have hpruned : Emits (Horizon env (some p)) r (pruneLookupReversePaths env.nowMs r) := .of_log rfl
  have halone' (r' : Routing) (hroutes : r'.learnedRoutes = r.learnedRoutes) (hcoords : r'.coordCache = r.coordCache)
      (htree : r'.treeState = r.treeState) : (nextHopFor S cfg env request.target (some p) request.minMtu r').1 = none →
        Alone S cfg env r'.treeState p request.minMtu := by
    rw [nextHopFor_congr hroutes hcoords htree, htree]
    exact halone
  split
  · exact wp_mono (emits_passOn hkey request _ none (halone' _ rfl rfl rfl)) (fun _ _ => hpruned.trans) fun _ _ => hpruned.trans
  · refine wp_ite.2 ⟨fun _ => wp_pure.2 hpruned, fun _ => ?_⟩
    rw [wp_bind, wp_modify]
    rename_i rid reverse _ _
    have hmodified : Emits (Horizon env (some p)) r ((pruneLookupReversePaths env.nowMs r).modifyReverse rid fun reverse =>
      { reverse with peer := p }) := .of_log rfl
    exact wp_mono (emits_passOn hkey request _ (some (rid, reverse)) (halone' _ rfl rfl rfl))
      (fun _ _ => hmodified.trans) fun _ _ => hmodified.trans

theorem emits_handleLookupRequestMessage (payload : Bytes)
    (hpasses : ∀ request, decodeLookupRequest payload = .ok request → Transit cfg request.target 0 request.ttl →
      env.OneKey p ∧ ((nextHopFor S cfg env request.target (some p) request.minMtu r).1 = none →
        Alone S cfg env r.treeState p request.minMtu)) :
    wp (handleLookupRequestMessage S G cfg env p payload) (fun _ => Emits (Horizon env (some p)) r)
      (fun _ => Emits (Horizon env (some p)) r) r := by
  unfold handleLookupRequestMessage
  refine wp_bind.2 (wp_lift.2 ⟨fun request hrequest => ?_, fun _ _ => .refl r⟩)
  unfold assertNodeAllowed
  refine wp_bind.2 (wp_ite.2 ⟨fun _ => .refl r, fun _ => ?_⟩)
  refine wp_bind.2 (wp_ite.2 ⟨fun _ => .refl r, fun _ => ?_⟩)
  refine wp_bind.2 (wp_get.2 (wp_ite.2 ⟨fun _ => wp_pure.2 (.refl r), fun _ => ?_⟩))
  exact emits_handleLookupRequest request (hpasses request hrequest)

theorem sends_forwardResolved (hkey : env.OneKey p) (key : ReverseKey) (rid : ReverseId) :
    Sends (Horizon env (some p)) (forwardResolved S cfg env key rid p) := by
  unfold forwardResolved
  refine quiet_get.sends.bind fun r => ?_
  split
  · exact (quiet_pure _).sends
  · rename_i current reverse _
    refine Sends.ite (fun _ => (quiet_pure _).sends) fun _ => Sends.bind_nextHop fun r found hfound => ?_
    cases found with
    | none => exact (quiet_pure _).sends
    | some q =>
      exact Sends.ite (fun _ => (quiet_pure _).sends) fun _ =>
        sends_forwardOne rid reverse.request fun _ _ => ⟨p, rfl, apart_of_nextHopFor hkey hfound⟩

/-- The live reverse path that a response belongs to is that of another identity, or of the sender itself. -/
def Returns (env : RoutingEnv) (p : PeerId) (payload : Bytes) (r : Routing) : Prop :=
  ∀ response rid reverse, decodeLookupResponse payload = .ok response →
    (pruneLookupReversePaths env.nowMs r).reverseAt (lookupReverseKey response.requestId response.target) = some (rid, reverse) →
      reverse.peer ≠ p → env.Apart p reverse.peer

theorem emits_forwardLookupResponse (payload : Bytes) (hreturns : Returns env p payload r) :
    wp (forwardLookupResponse S cfg env p payload) (fun _ => Emits (Horizon env (some p)) r)
      (fun _ => Emits (Horizon env (some p)) r) r := by
  unfold forwardLookupResponse
  refine wp_bind.2 (wp_lift.2 ⟨fun response hresponse => ?_, fun _ _ => .refl r⟩)
  rw [wp_bind, wp_modify, wp_bind, wp_get]
  have hpruned : Emits (Horizon env (some p)) r (pruneLookupReversePaths env.nowMs r) := .of_log rfl
  split
  · exact wp_pure.2 hpruned
  · rename_i rid reverse hreverse
    refine wp_ite.2 ⟨fun _ => wp_pure.2 hpruned, fun hne => wp_ite.2 ⟨fun _ => wp_pure.2 hpruned, fun _ => ?_⟩⟩
    have hapart : env.Apart p reverse.peer := hreturns response rid reverse hresponse hreverse hne
    refine wp_mono (Q := fun _ => Emits (Horizon env (some p)) (pruneLookupReversePaths env.nowMs r))
      (E := fun _ => Emits (Horizon env (some p)) (pruneLookupReversePaths env.nowMs r)) ?_
      (fun _ _ => hpruned.trans) fun _ _ => hpruned.trans
    refine (Quiet.sends (quiet_modify fun _ => kept_cacheCoordinates ..)).bind (fun _ => ?_) _
    refine (Quiet.sends (quiet_modify fun _ => kept_learnReverseRoute ..)).bind fun _ => ?_
    refine (sends_modify fun _ => .of_log (by rfl)).bind fun _ => (quiet_lift _).sends.bind fun encoded => ?_
    exact sends_modify fun r => Emits.transmit fun _ => ⟨p, rfl, hapart⟩

/-- A replay for `p` is of requests that have come from other identities. -/
theorem emits_replayPendingLookupsFor :
    Emits (fun m => ∃ rid reverse, m.cause = .reverse rid ∧ r.reverses[rid]? = some reverse ∧
      ¬ SameX m.view.pubkey (env.peer reverse.peer).pubkey) r (replayPendingLookupsFor S env p r) := by
  unfold replayPendingLookupsFor
  split
  · exact .refl r
  split
  · exact .refl r
  dsimp only
  refine Emits.trans (.of_log rfl) (emits_foldl _ (fun r' e he => ?_) _)
  obtain ⟨entry, -, hentry⟩ := List.mem_filterMap.1 he
  obtain ⟨reverse, hreverse, hentry⟩ := Option.bind_eq_some_iff.1 hentry
  split at hentry
  swap
  · cases hentry
  rename_i hpending
  cases hentry
  refine (sends_forwardOne entry.2 reverse.request fun _ _ => ?_).after r'
  exact ⟨entry.2, reverse, rfl, hreverse, fun hsame => hpending.2.1 (nodeAddrOf_sameX hsame).symm⟩

end

end Routing

/-! ### Steps -/

/-- The peer whose message a task passes on. -/
def RoutingTask.source : RoutingTask → Option PeerId
  | .resolveLookup _ _ source _ _ => some source
  | .forwardLookupResponse p _ => some p
  | .datagramResolving d _ _ | .datagramRefreshing d _ _ _ _ | .datagramSending d _ _ => d.previousHop
  | _ => none

/-- The identity that a message comes from is reached over one object under one key, as far as the message may go there. -/
def RoutingTask.Unaliased (env : RoutingEnv) (r : Routing) : RoutingTask → Prop
  | .forwardLookupResponse p payload => Routing.Returns env p payload r
  | task => ∀ p ∈ task.source, env.OneKey p

namespace Routing

/-- The peer that `m` has come from, as it is in the step that sends it. -/
def Event.source (r : Routing) (m : LinkSend) : Event → Option PeerView
  | .handleLinkMessage env p _ _ => some (env.peer p)
  | .task env index => ((r.tasks[index]?).bind RoutingTask.source).map env.peer
  | .replayPendingLookupsFor env _ =>
    match m.cause with
    | .reverse rid => (r.reverses[rid]?).map fun reverse => env.peer reverse.peer
    | _ => none
  | _ => none

def Event.Unaliased (S : Suite) (cfg : RoutingConfig) (r : Routing) : Event → Prop
  | .handleLinkMessage env p msgType payload =>
    (msgType = LinkMessageType.LookupRequest → ∀ request, decodeLookupRequest payload = .ok request →
      Transit cfg request.target 0 request.ttl → env.OneKey p ∧
        ((nextHopFor S cfg env request.target (some p) request.minMtu r).1 = none →
          Alone S cfg env r.treeState p request.minMtu)) ∧
      (msgType = LinkMessageType.SessionDatagram → ∀ d, decodeSessionDatagramPayload payload = .ok d →
        Transit cfg d.destAddr 1 d.ttl → env.OneKey p)
  | .task env index => ∀ task ∈ r.tasks[index]?, task.Unaliased env r
  | _ => True

/-- What a step sends for other nodes, each message with the peer it has come from. -/
def forwardings (S : Suite) (G : Schnorr) (cfg : RoutingConfig) (r : Routing) (e : Event) : List (LinkSend × Option PeerView) :=
  ((step S G cfg r e).log.drop r.log.length).filterMap fun
    | .send m => if m.cause = .own then none else some (m, e.source r m)
    | _ => none

/-- What a run sends for other nodes. -/
def forwardedIn (S : Suite) (G : Schnorr) (cfg : RoutingConfig) : Routing → List Event → List (LinkSend × Option PeerView)
  | _, [] => []
  | r, e :: es => forwardings S G cfg r e ++ forwardedIn S G cfg (step S G cfg r e) es

section
variable {S : Suite} {G : Schnorr} {cfg : RoutingConfig} {env : RoutingEnv} {r r' : Routing} {p : PeerId}

theorem Emits.mono {P Q : LinkSend → Prop} (h : Emits P r r') (hPQ : ∀ m, P m → Q m) : Emits Q r r' := by
  obtain ⟨sent, hlog, hsent⟩ := h
  exact ⟨sent, hlog, fun m hm hcause => hPQ m (hsent m hm hcause)⟩

theorem emits_handleLinkMessage {msgType : Nat} {payload : Bytes}
    (h : (Event.handleLinkMessage env p msgType payload).Unaliased S cfg r) :
    wp (handleLinkMessage S G cfg env p msgType payload) (fun _ => Emits (Horizon env (some p)) r)
      (fun _ => Emits (Horizon env (some p)) r) r := by
  obtain ⟨hrequest, hdatagram⟩ := h
  unfold handleLinkMessage
  refine wp_ite.2 ⟨fun _ => (quiet_handleClientSupport p payload).sends r, fun _ => ?_⟩
  refine wp_ite.2 ⟨fun _ => (quiet_handleClientOnly p payload).sends r, fun _ => ?_⟩
  refine wp_ite.2 ⟨fun _ => (quiet_handleTreeAnnounce p payload).sends r, fun _ => ?_⟩
  refine wp_ite.2 ⟨fun _ => (quiet_handleFilterAnnounce p payload).sends r, fun _ => ?_⟩
  refine wp_ite.2 ⟨fun hty => emits_handleLookupRequestMessage payload (hrequest hty), fun _ => ?_⟩
  refine wp_ite.2 ⟨fun _ => (quiet_handleLookupResponseMessage p payload).sends r, fun _ => ?_⟩
  exact wp_ite.2 ⟨fun hty => sends_handleSessionDatagram payload (hdatagram hty) r, fun _ => wp_pure.2 (.refl r)⟩

theorem emits_runTask {task : RoutingTask} (ht : ∃ minMtus, task.Founded minMtus) (h : task.Unaliased env r) :
    Emits (Horizon env task.source) r (settled (runTask S G cfg env task) r) := by
  have hquiet {x : RM Unit} (h : Quiet x) : Emits (Horizon env task.source) r (settled x r) := (kept_settled h r).emits
  cases task with
  | treeAnnounce p =>
    exact hquiet (quiet_modify fun _ => kept_announceTimer (quiet_sendTreeAnnounce p) ⟨rfl, rfl, fun _ => trivial⟩)
  | treeAnnounceFailed p => exact hquiet (quiet_modify fun _ => kept_modifyRole ..)
  | filterAnnounce p =>
    exact hquiet (quiet_modify fun _ => kept_announceTimer (quiet_sendFilter p) ⟨rfl, rfl, fun _ => trivial⟩)
  | filterAnnounceFailed p => exact hquiet (quiet_modify fun _ => kept_modifyRole ..)
  | filterFailed p sequence previous => exact hquiet (quiet_modify fun _ => kept_modifyRole ..)
  | bloomSendAll excludedPeer => exact hquiet (quiet_modify fun _ => kept_bloomSendAll _)
  | forwarded key rid results =>
    have hfold (failed : List (NodeAddr × Bool)) (r : Routing) :
        (failed.foldl (fun r e => dropForwarded rid e.1 r) r).log = r.log := by
      induction failed generalizing r with
      | nil => rfl
      | cons e failed ih => exact ih _
    refine Emits.of_log ?_
    show (finishForward key rid results r).log = r.log
    unfold finishForward
    dsimp only
    split <;> exact hfold _ r
  | sent rid nextHop ok =>
    cases ok with
    | true => exact .refl r
    | false => exact Emits.of_log rfl
  | resolveLookup key rid source promise owner =>
    refine Sends.after ?_ r
    refine (Quiet.sends (quiet_modify fun _ => kept_finishResolution ..)).bind fun _ => quiet_get.sends.bind fun r₁ => ?_
    exact Sends.ite (fun _ => sends_forwardResolved (h source rfl) key rid) fun _ => (quiet_pure _).sends
  | forwardLookupResponse p payload => exact wp_after.2 (emits_forwardLookupResponse payload h)
  | retry lid request excludedPeer => exact hquiet (quiet_modify fun _ => kept_retryRound ..)
  | datagramResolving d promise owner =>
    refine Sends.after ?_ r
    refine (Quiet.sends (quiet_modify fun _ => kept_finishResolution ..)).bind fun _ => quiet_get.sends.bind fun r₁ => ?_
    refine Sends.ite (fun _ => (quiet_throw _).sends.bind fun _ => ?_) fun _ => ?_
    all_goals exact sends_redispatch h
  | datagramRefreshing d lid own minMtu frames => exact (sends_refreshed h lid own frames).after r
  | datagramSending d hop frames =>
    obtain ⟨_, hbehind⟩ := ht
    refine (sends_sendFrames h frames fun hne p hp => absurd (hbehind ?_) hne).after r
    rw [hp]
    exact Option.some_ne_none p

/-- A step sends nothing back to the identity it has come from. -/
theorem emits_step (hr : r.Founded) (e : Event) (h : e.Unaliased S cfg r) :
    Emits (fun m => ∃ source, e.source r m = some source ∧ ¬ SameX m.view.pubkey source.pubkey) r (step S G cfg r e) := by
  cases e with
  | handleLinkMessage env p msgType payload =>
    refine (wp_after.2 (emits_handleLinkMessage h) : Emits _ r (settled _ r)).mono ?_
    rintro m ⟨q, hq, hne⟩
    cases hq
    exact ⟨_, rfl, hne⟩
  | task env index =>
    show Emits _ r (continueTask S G cfg env index r)
    unfold continueTask
    split
    · exact .refl r
    · rename_i task htask
      split
      · exact .refl r
      · have hfounded := hr.refreshes task (List.mem_of_getElem? htask)
        have hunaliased : task.Unaliased env { r with tasks := r.tasks.eraseIdx index } := by
          have hr₀ := h task htask
          cases task <;> exact hr₀
        have hlog : Emits (Horizon env task.source) r { r with tasks := r.tasks.eraseIdx index } := .of_log rfl
        refine (hlog.trans (emits_runTask ⟨_, hfounded⟩ hunaliased)).mono ?_
        rintro m ⟨q, hq, hne⟩
        refine ⟨env.peer q, ?_, hne⟩
        show ((r.tasks[index]?).bind RoutingTask.source).map env.peer = _
        rw [htask, Option.bind_some, hq]
        rfl
  | resolution promise outcome =>
    refine Emits.of_log ?_
    show (settleResolution promise outcome r).log = r.log
    unfold settleResolution
    split <;> rfl
  | lookupTimeout lid => exact Emits.of_log rfl
  | removePeer env peerNodeAddr => exact (kept_removePeer _).emits
  | scheduleTreeAnnounce p => exact (kept_scheduleTreeAnnounce p).emits
  | refreshClientRole env => exact kept_refreshClientRole.emits
  | replayPendingLookupsFor env p =>
    refine emits_replayPendingLookupsFor.mono ?_
    rintro m ⟨rid, reverse, hcause, hreverse, hne⟩
    refine ⟨env.peer reverse.peer, ?_, hne⟩
    simp only [Event.source, hcause, hreverse, Option.map_some]
  | ensureFirstContactRoute env target targetPubkey =>
    exact (kept_settled (quiet_ensureFirstContactRoute target targetPubkey) r).emits
  | sendFspToward env remoteNodeAddr frame =>
    refine ((sends_sendSessionDatagram (d := ⟨64, FSP_DEFAULT_PATH_MTU, cfg.identity.nodeAddr, remoteNodeAddr, .own frame⟩)
      nofun).after r).mono ?_
    rintro m ⟨q, hq, -⟩
    cases hq
  | sendFspReplyToward env remoteNodeAddr frame previousHop =>
    exact (kept_settled (quiet_sendFspReplyToward remoteNodeAddr frame previousHop) r).emits
  | learnReverseRoute env destination nextHop pathMtu => exact (kept_learnReverseRoute ..).emits
  | hasUsableRoute env nodeAddr => exact (kept_nextHopFor ..).emits
  | stop env => exact Emits.of_log rfl

theorem forwardings_apart (hr : r.Founded) (e : Event) (h : e.Unaliased S cfg r) :
    ∀ f ∈ forwardings S G cfg r e, ∃ source, f.2 = some source ∧ ¬ SameX f.1.view.pubkey source.pubkey := by
  obtain ⟨sent, hlog, hsent⟩ := (@emits_step S G cfg r) hr e h
  intro f hf
  unfold forwardings at hf
  rw [hlog, List.drop_left] at hf
  obtain ⟨effect, heffect, hmatch⟩ := List.mem_filterMap.1 hf
  cases effect with
  | send m =>
    dsimp only at hmatch
    by_cases hcause : m.cause = .own
    · rw [if_pos hcause] at hmatch
      cases hmatch
    · rw [if_neg hcause] at hmatch
      cases hmatch
      exact hsent m heffect hcause
  | handleLocalSession q srcNodeAddr payload => cases hmatch
  | resolveAndConnect dest promise => cases hmatch

theorem forwardedIn_apart (hr : r.Founded) (es : List Event) (h : Run.Along (Event.Unaliased S cfg) (step S G cfg) r es) :
    ∀ f ∈ forwardedIn S G cfg r es, ∃ source, f.2 = some source ∧ ¬ SameX f.1.view.pubkey source.pubkey := by
  induction es generalizing r with
  | nil => exact nofun
  | cons e es ih =>
    intro f hf
    rcases List.mem_append.1 hf with hstep | hrest
    · exact forwardings_apart hr e h.1 f hstep
    · exact ih (founded_step hr e) h.2 f hrest

end

/-- In a run whose steps meet the condition no message goes back to the identity it has come from. -/
theorem split_horizon (S : Suite) (G : Schnorr) (cfg : RoutingConfig) (nowSeconds : Nat) (es : List Event)
    (h : Run.Along (Event.Unaliased S cfg) (step S G cfg) (new cfg nowSeconds) es) :
    ∀ f ∈ forwardedIn S G cfg (new cfg nowSeconds) es, ∃ source, f.2 = some source ∧ ¬ SameX f.1.view.pubkey source.pubkey :=
  forwardedIn_apart (founded_new nowSeconds) es h

/-! ### Two carriers of one identity -/

/-- Peers 0 and 1 are two carriers of one identity. -/
def toyCarriers : RoutingEnv :=
  { toyNeighbours [0, 1] true with
    peer := fun _ => ⟨(toyIdentity 2).publicKey, true, 1280, none⟩
    getPeerByNodeAddr := fun nodeAddr => if nodeAddr = (toyIdentity 2).nodeAddr then some 0 else none }

/-- It goes back to the identity it has come from, over the other carrier. -/
theorem request_returns :
    (forwardedIn toySuite toySchnorr toyRelay (new toyRelay 0)
      [.handleLinkMessage toyCarriers 0 LinkMessageType.LookupRequest (toyRequest 7)]).map
        (fun f => (f.1.peer, f.1.msgType, f.1.view.pubkey, f.2.map PeerView.pubkey)) =
      [(1, LinkMessageType.LookupRequest, (toyIdentity 2).publicKey, some (toyIdentity 2).publicKey)] := by
  decide +kernel

theorem split_horizon_toy :
    let es : List Event := [.handleLinkMessage (toyNeighbours [0, 1] true) 0 LinkMessageType.LookupRequest (toyRequest 7)]
    (forwardedIn toySuite toySchnorr toyRelay (new toyRelay 0) es).length = 1 ∧
      ∀ f ∈ forwardedIn toySuite toySchnorr toyRelay (new toyRelay 0) es,
        ∃ source, f.2 = some source ∧ ¬ SameX f.1.view.pubkey source.pubkey := by
  intro es
  have hapart : (toyNeighbours [0, 1] true).Apart 0 1 := fun hsame => absurd hsame.2.2 (by decide +kernel)
  have hkey : (toyNeighbours [0, 1] true).OneKey 0 := by
    rintro q (hq | ⟨nodeAddr, hq⟩) - hsame
    · rcases List.mem_cons.1 hq with rfl | hq
      · rfl
      · cases List.mem_singleton.1 hq
        exact absurd hsame hapart
    · cases hq
  have halone (treeState : TreeState) (minMtu : Nat) :
      Alone toySuite toyRelay (toyNeighbours [0, 1] true) treeState 0 minMtu := by
    intro q hq hne _ _ _
    rcases List.mem_cons.1 hq with rfl | hq
    · exact absurd rfl hne
    · cases List.mem_singleton.1 hq
      exact hapart
  have hrun : Run.Along (Event.Unaliased toySuite toyRelay) (step toySuite toySchnorr toyRelay) (new toyRelay 0) es :=
    ⟨⟨fun _ _ _ _ => ⟨hkey, fun _ => halone _ _⟩, nofun⟩, trivial⟩
  exact ⟨by decide +kernel, split_horizon toySuite toySchnorr toyRelay 0 es hrun⟩

end Routing

end Fips
