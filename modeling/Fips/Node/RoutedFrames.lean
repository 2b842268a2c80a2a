import Fips.Crypto.Toy
import Fips.Lib.Run
import Fips.Node.Transit

/-!
# The frames of `sendSessionDatagram`

A call is a chain of stretches: it starts, waits for a resolution, a lookup or the transmission of a frame, and goes on.
A stretch sends at most one frame, over a hop that carries it, and the next one knows the frames that are left. What
is between two stretches of a call does not matter, apart from the lookup that a refresh has started: that it asks for
the MTU of the frame is an invariant of the routing layer.
-/

namespace Fips
open Exec LittleEndian

/-! ### Lengths -/

theorem length_encodeFmpInner {inner : FmpInnerPacket} {b : Bytes} (h : encodeFmpInner inner = .ok b) :
    b.length = inner.payload.length + 5 := by
  unfold encodeFmpInner at h
  obtain ⟨timestamp, htimestamp, h⟩ := except_bind_eq_ok.1 h
  obtain ⟨msgType, hmsgType, h⟩ := except_bind_eq_ok.1 h
  cases h
  rw [List.length_append, List.length_append, (BinaryWriter.uint_eq_ok htimestamp).2, (BinaryWriter.uint_eq_ok hmsgType).2,
    length_leBytes, length_leBytes]
  omega

/-- Header, inner header and tag of a packet. -/
theorem FmpLink.length_encryptOutgoing {S : Suite} (hS : S.Lawful) {l l' : FmpLink} {payload packet : Bytes} {msgType : Nat}
    {nowMs : ℚ} (h : (FmpLink.encryptOutgoing S payload msgType nowMs).run l = .ok packet l') :
    packet.length = payload.length + 37 := by
  unfold FmpLink.encryptOutgoing at h
  obtain ⟨l₀, l₁, hl₀, h⟩ := bind_eq_ok.1 h
  cases hl₀
  split at h
  swap
  · cases h
  dsimp only at h
  split at h
  · cases h
  obtain ⟨-, l₂, -, h⟩ := bind_eq_ok.1 h
  obtain ⟨inner, l₃, hinner, h⟩ := bind_eq_ok.1 h
  obtain ⟨aad, l₄, -, h⟩ := bind_eq_ok.1 h
  obtain ⟨ciphertext, l₅, hciphertext, h⟩ := bind_eq_ok.1 h
  have hlen : inner.length = payload.length + 5 := length_encodeFmpInner (run_lift_eq_ok.1 hinner).1
  obtain ⟨key, -, hseal⟩ := except_bind_eq_ok.1 (run_lift_eq_ok.1 hciphertext).1
  unfold aeadSeal at hseal
  split at hseal
  · cases hseal
  cases hseal
  obtain ⟨header, hheader, h⟩ := except_bind_eq_ok.1 (run_lift_eq_ok.1 h).1
  cases h
  rw [(encodeFmpEstablishedHeader_eq_ok (show 0 < 256 by decide) hheader).2.2.2, List.length_append,
    length_fmpHeaderBytes, hS.encrypt_length, hlen]
  omega

theorem length_encodeSessionDatagram {d : SessionDatagram} {b : Bytes} (h : encodeSessionDatagram d = .ok b) :
    b.length = d.payload.length + SESSION_DATAGRAM_HEADER_SIZE := by
  unfold encodeSessionDatagram at h
  dsimp only at h
  split at h
  · cases h
  rename_i hsrc
  split at h
  · cases h
  rename_i hdest
  obtain ⟨ty, hty, h⟩ := except_bind_eq_ok.1 h
  obtain ⟨ttl, httl, h⟩ := except_bind_eq_ok.1 h
  obtain ⟨mtu, hmtu, h⟩ := except_bind_eq_ok.1 h
  cases h
  simp only [List.length_append, (BinaryWriter.uint_eq_ok hty).2, (BinaryWriter.uint_eq_ok httl).2,
    (BinaryWriter.uint_eq_ok hmtu).2, length_leBytes, not_not.1 hsrc, not_not.1 hdest, SESSION_DATAGRAM_HEADER_SIZE]
  omega

/-- The payload of a `sendLinkMessage` that carries a frame, in a packet of any link. -/
theorem length_routed {S : Suite} (hS : S.Lawful) {d : SessionDatagram} {b packet : Bytes} {msgType : Nat} {l l' : FmpLink} {nowMs : ℚ}
    (hb : encodeSessionDatagram d = .ok b) (h : (FmpLink.encryptOutgoing S b.tail msgType nowMs).run l = .ok packet l') :
    packet.length = routedLength d.payload := by
  rw [FmpLink.length_encryptOutgoing hS h, List.length_tail, length_encodeSessionDatagram hb]
  show d.payload.length + 36 - 1 + 37 = d.payload.length + (36 + 16 + 16 + 4)
  omega

/-! ### Hops -/

namespace RoutingEnv
variable {S : Suite} {env : RoutingEnv} {preferred excludedPeer : Option PeerId} {minMtu : Nat} {hop : PeerId}

theorem selectCarrier_eq_some (h : env.selectCarrier S preferred excludedPeer minMtu = some hop) :
    env.usable excludedPeer minMtu hop = true ∧ ∃ q, preferred = some q ∧ env.peerNodeKey S hop = env.peerNodeKey S q := by
  unfold selectCarrier at h
  cases preferred with
  | none => cases h
  | some q =>
    dsimp only at h
    by_cases hq : env.usable excludedPeer minMtu q = true
    · rw [if_pos hq] at h
      cases h
      exact ⟨hq, _, rfl, rfl⟩
    · rw [if_neg hq] at h
      have hfound := List.find?_some h
      rw [Bool.and_eq_true, decide_eq_true_eq] at hfound
      exact ⟨hfound.1, q, rfl, hfound.2⟩

theorem capacity_of_usable (h : env.usable excludedPeer minMtu hop = true) : minMtu ≤ env.frameCapacity hop := by
  unfold usable at h
  rw [Bool.and_eq_true, decide_eq_true_eq] at h
  exact h.2

end RoutingEnv

namespace Routing

section
variable {S : Suite} {G : Schnorr} {cfg : RoutingConfig} {env : RoutingEnv} {r : Routing}

theorem usablePeer_eq_some {dest nodeHex : NodeAddr} {excludedPeer : Option PeerId} {minMtu : Nat} {t : LearnedRouteTable} {hop : PeerId}
    (h : usablePeer S env dest excludedPeer minMtu t nodeHex = some hop) :
    env.usable excludedPeer minMtu hop = true ∧ minMtu ≤ pathMtuFor S env dest hop t := by
  obtain ⟨hcarrier, hmtu⟩ := Option.filter_eq_some_iff.1 h
  exact ⟨(RoutingEnv.selectCarrier_eq_some hcarrier).1, of_decide_eq_true hmtu⟩

/-- A next hop is usable, and the path through it is wide enough. -/
theorem nextHopFor_eq_some {dest : NodeAddr} {excludedPeer : Option PeerId} {minMtu : Nat} {hop : PeerId}
    (h : (nextHopFor S cfg env dest excludedPeer minMtu r).1 = some hop) :
    env.usable excludedPeer minMtu hop = true ∧
      minMtu ≤ pathMtuFor S env dest hop (nextHopFor S cfg env dest excludedPeer minMtu r).2.learnedRoutes := by
  revert h
  unfold nextHopFor
  split
  · rintro ⟨⟩
    exact usablePeer_eq_some ‹_›
  dsimp only
  split
  · exact usablePeer_eq_some
  · unfold treeOrDefault
    dsimp only
    split
    · exact usablePeer_eq_some
    · intro h
      obtain ⟨p, -, hp⟩ := Option.bind_eq_some_iff.1 h
      exact usablePeer_eq_some hp

end

/-! ### Calls -/

end Routing

/-- A call that has been left for later, with the frames it still has; it has none before its first next hop is known. -/
def RoutingTask.call : RoutingTask → Option (OutboundSessionDatagram × Option (List Bytes))
  | .datagramResolving d _ _ => some (d, none)
  | .datagramRefreshing d _ _ _ frames => some (d, frames.map fun f => f.1 :: f.2)
  | .datagramSending d _ frames => some (d, some frames)
  | _ => none

/-- The datagrams that are handed to next hops. -/
def RoutingEffect.datagram : RoutingEffect → Bool
  | .send m => m.msgType = LinkMessageType.SessionDatagram
  | _ => false

namespace Routing

def calls (r : Routing) : List RoutingTask := r.tasks.filter fun task => task.call.isSome

def datagrams (r : Routing) : List RoutingEffect := r.log.filter RoutingEffect.datagram

/-- No datagram is sent, and no call goes on. -/
structure Silent (r r' : Routing) : Prop where
  calls : r'.calls = r.calls
  datagrams : r'.datagrams = r.datagrams

section
variable {S : Suite} {cfg : RoutingConfig} {env : RoutingEnv} {r r' r'' : Routing}

theorem Silent.refl (r : Routing) : Silent r r := ⟨rfl, rfl⟩

theorem Silent.trans (h : Silent r r') (h' : Silent r' r'') : Silent r r'' :=
  ⟨h'.calls.trans h.calls, h'.datagrams.trans h.datagrams⟩

theorem silent_nextHopFor (dest : NodeAddr) (excludedPeer : Option PeerId) (minMtu : Nat) :
    Silent r (nextHopFor S cfg env dest excludedPeer minMtu r).2 := by
  unfold nextHopFor
  split
  · exact .refl r
  dsimp only
  split <;> exact ⟨rfl, rfl⟩

theorem silent_finishResolution (dest : NodeAddr) (promise : Nat) (owner : Bool) :
    Silent r (finishResolution dest promise owner r) := by
  unfold finishResolution
  split <;> exact ⟨rfl, rfl⟩

theorem silent_resolveRoute (dest : NodeAddr) : wp (resolveRoute dest) (fun _ => Silent r) (fun _ => Silent r) r := by
  unfold resolveRoute
  rw [wp_bind, wp_get]
  split
  · exact wp_pure.2 (.refl r)
  · refine wp_ite.2 ⟨fun _ => ?_, fun _ => ?_⟩
    · rw [wp_bind, wp_throw]
      exact .refl r
    · rw [wp_bind, wp_set, wp_pure]
      exact ⟨rfl, by simp [datagrams, RoutingEffect.datagram]⟩

theorem silent_transmitAll (peers : List PeerId) (payload : Bytes) :
    Silent r (transmitAll env .own peers LinkMessageType.LookupRequest payload r) := by
  unfold transmitAll
  induction peers generalizing r with
  | nil => exact .refl r
  | cons p peers ih =>
    have hone : Silent r (transmit env .own p LinkMessageType.LookupRequest payload r) :=
      ⟨rfl, by simp [datagrams, transmit, RoutingEffect.datagram, LinkMessageType.LookupRequest, LinkMessageType.SessionDatagram]⟩
    exact hone.trans ih

theorem silent_sendLookup (lid : LookupId) (request : LookupRequest) (excludedPeer : Option PeerId) :
    wp (sendLookup S cfg env lid request excludedPeer) (fun _ => Silent r) (fun _ => Silent r) r := by
  unfold sendLookup
  rw [wp_bind, wp_get]
  split
  · exact wp_pure.2 (.refl r)
  · refine wp_bind.2 (wp_lift.2 ⟨fun encoded _ => ?_, fun _ _ => .refl r⟩)
    exact wp_modify.2 (silent_transmitAll ..)

theorem silent_later {task : RoutingTask} (h : task.call = none) : Silent r (later task r) := by
  refine ⟨?_, rfl⟩
  show (r.tasks ++ [task]).filter _ = _
  simp [calls, h]

theorem silent_firstRound (lid : LookupId) (request : LookupRequest) (excludedPeer : Option PeerId) :
    Silent r (retryRound S cfg env lid request excludedPeer true r) := by
  have hround : wp (tryRound S cfg env lid request excludedPeer true) (fun _ => Silent r) (fun _ => Silent r) r :=
    silent_sendLookup lid request excludedPeer
  obtain ⟨hok, herror⟩ := wp_iff.1 hround
  unfold retryRound
  split
  · split
    · exact (hok _ _ ‹_›).trans (silent_later rfl)
    · rename_i hrun
      have hsilent := herror _ _ hrun
      exact ⟨hsilent.calls, hsilent.datagrams⟩
  · exact .refl r

theorem silent_startLookup (target : NodeAddr) (targetPubkey : Option Bytes) (minMtu : Nat) (excludedPeer : Option PeerId) :
    wp (startLookup S cfg env target targetPubkey minMtu excludedPeer) (fun _ => Silent r) (fun _ => Silent r) r := by
  unfold startLookup
  rw [wp_bind, wp_get]
  refine wp_bind.2 (wp_lift.2 ⟨fun e _ => ?_, fun _ _ => .refl r⟩)
  rw [wp_bind, wp_modify, wp_bind, wp_get, wp_bind, wp_modify, wp_pure]
  have hcreated : Silent r { r with originLookups := e.2 } := ⟨rfl, rfl⟩
  exact hcreated.trans (silent_firstRound ..)

end

/-! ### Stretches -/

/-- `hop` carries a frame of `d`, in the state in which it is handed over. -/
structure Carries (S : Suite) (env : RoutingEnv) (d : OutboundSessionDatagram) (payload : Bytes) (hop : PeerId) (r : Routing) : Prop where
  capacity : routedLength payload ≤ env.frameCapacity hop
  /-- By the path MTU, or by the lookup that has found it. -/
  admitted : routedLength payload ≤ pathMtuFor S env d.destAddr hop r.learnedRoutes ∨
    ∃ (lid : LookupId) (pending : PendingOriginLookup) (nextHop : NodeAddr) (q : PeerId),
      r.originLookups.objs[lid]? = some pending ∧ pending.promise = .resolved ∧ routedLength payload ≤ pending.minMtu ∧
        pending.nextHop = some nextHop ∧ env.getPeerByNodeAddr nextHop = some q ∧ env.peerNodeKey S hop = env.peerNodeKey S q

/-- The frames that are left, once the first next hop is known. -/
def Next (env : RoutingEnv) (d : OutboundSessionDatagram) (left : Option (List Bytes)) (frames : List Bytes) : Prop :=
  left = some frames ∨ left = none ∧ ∃ hop, frames = d.frames env hop

/-- How a stretch of a call may end that does not throw. -/
inductive Stretch (S : Suite) (env : RoutingEnv) (d : OutboundSessionDatagram) (left : Option (List Bytes)) (r r' : Routing) : Prop
  /-- Its next frame has been handed to a hop; if that succeeds, the call goes on with the rest. -/
  | sent (payload : Bytes) (rest : List Bytes) (next : Next env d left (payload :: rest)) (hop : PeerId)
    (carries : Carries S env d payload hop r') (encoded : Bytes) (encodes : encodeSessionDatagram (d.withPayload payload) = .ok encoded)
    (datagrams : r'.datagrams = r.datagrams ++ [.send ⟨d.cause, hop, env.peer hop, LinkMessageType.SessionDatagram,
      encoded.tail, env.sends hop LinkMessageType.SessionDatagram encoded.tail⟩])
    (calls : r'.calls = r.calls ++
      if env.sends hop LinkMessageType.SessionDatagram encoded.tail then [.datagramSending d hop rest] else [])
  /-- It waits, and none of its frames has been sent. -/
  | waits (task : RoutingTask) (left' : Option (List Bytes)) (call : task.call = some (d, left'))
    (next : left' = left ∨ ∃ frames, left' = some frames ∧ Next env d left frames)
    (datagrams : r'.datagrams = r.datagrams) (calls : r'.calls = r.calls ++ [task])
  | done (next : Next env d left []) (silent : Silent r r')

section
variable {S : Suite} {cfg : RoutingConfig} {env : RoutingEnv} {d : OutboundSessionDatagram} {left : Option (List Bytes)}
  {r r₁ r' : Routing}

theorem Stretch.of_silent (h : Silent r r₁) (h' : Stretch S env d left r₁ r') : Stretch S env d left r r' := by
  cases h' with
  | sent payload rest next hop carries encoded encodes datagrams calls =>
    exact .sent payload rest next hop carries encoded encodes (h.datagrams ▸ datagrams) (h.calls ▸ calls)
  | waits task left' call next datagrams calls =>
    exact .waits task left' call next (datagrams.trans h.datagrams) (h.calls ▸ calls)
  | done next silent => exact .done next (h.trans silent)

/-- The first next hop is known, and so are the frames. -/
theorem Stretch.of_frames {hop : PeerId} (h : Stretch S env d (some (d.frames env hop)) r r') : Stretch S env d none r r' := by
  have hnext {frames : List Bytes} (hf : Next env d (some (d.frames env hop)) frames) : Next env d none frames := by
    rcases hf with heq | ⟨hnone, -⟩
    · exact .inr ⟨rfl, hop, (Option.some_injective _ heq).symm⟩
    · cases hnone
  cases h with
  | sent payload rest next hop' carries encoded encodes datagrams calls =>
    exact .sent payload rest (hnext next) hop' carries encoded encodes datagrams calls
  | waits task left' call next datagrams calls =>
    refine .waits task left' call (.inr ?_) datagrams calls
    rcases next with rfl | ⟨frames, hframes, hf⟩
    · exact ⟨_, rfl, hnext (.inl rfl)⟩
    · exact ⟨frames, hframes, hnext hf⟩
  | done next silent => exact .done (hnext next) silent

theorem stretch_sendFrame {hop : PeerId} {payload : Bytes} (rest : List Bytes) (h : Carries S env d payload hop r) :
    wp (sendFrame env d hop payload rest) (fun _ => Stretch S env d (some (payload :: rest)) r) (fun _ => Silent r) r := by
  unfold sendFrame
  refine wp_bind.2 (wp_lift.2 ⟨fun encoded hencoded => ?_, fun _ _ => .refl r⟩)
  have hdatagrams : (transmit env d.cause hop LinkMessageType.SessionDatagram encoded.tail r).datagrams =
      r.datagrams ++ [.send ⟨d.cause, hop, env.peer hop, LinkMessageType.SessionDatagram,
        encoded.tail, env.sends hop LinkMessageType.SessionDatagram encoded.tail⟩] := List.filter_append ..
  rw [wp_bind, wp_modify]
  refine wp_ite.2 ⟨fun hok => ?_, fun hfailed => ?_⟩
  · refine wp_modify.2 (.sent payload rest (.inl rfl) hop ⟨h.capacity, h.admitted⟩ encoded hencoded hdatagrams ?_)
    rw [if_pos hok]
    exact List.filter_append ..
  · refine wp_pure.2 (.sent payload rest (.inl rfl) hop ⟨h.capacity, h.admitted⟩ encoded hencoded hdatagrams ?_)
    rw [if_neg hfailed, List.append_nil]
    rfl

theorem stretch_later {task : RoutingTask} (h : task.call = some (d, left)) : Stretch S env d left r (later task r) := by
  refine .waits task left h (.inl rfl) rfl ?_
  show (r.tasks ++ [task]).filter _ = _
  simp [calls, h]

theorem stretch_refreshTransitRoute (minMtu : Nat) (frames : Option (Bytes × List Bytes)) :
    wp (refreshTransitRoute S cfg env d minMtu frames)
      (fun _ => Stretch S env d (frames.map fun f => f.1 :: f.2) r) (fun _ => Silent r) r := by
  unfold refreshTransitRoute
  rw [wp_bind, wp_get]
  split
  · exact wp_modify.2 (stretch_later rfl)
  · refine wp_ite.2 ⟨fun _ => ?_, fun _ => ?_⟩
    · rw [wp_bind, wp_throw]
      exact .refl r
    · refine wp_bind.2 (wp_mono (silent_startLookup ..) (fun lid r₁ hr₁ => ?_) fun _ _ hr₁ => hr₁)
      exact wp_modify.2 ((stretch_later rfl).of_silent hr₁)

theorem stretch_sendFrames (hop : PeerId) (frames : List Bytes) :
    wp (sendFrames S cfg env d hop frames) (fun _ => Stretch S env d (some frames) r) (fun _ => Silent r) r := by
  cases frames with
  | nil => exact .done (.inl rfl) (.refl r)
  | cons payload rest =>
    unfold sendFrames
    rw [wp_bind, wp_get]
    refine wp_ite.2 ⟨fun _ => ?_, fun hwide => ?_⟩
    · rw [wp_bind, wp_nextHop]
      have hsilent := @silent_nextHopFor S cfg env r d.destAddr d.previousHop (routedLength payload)
      have hfound {hop : PeerId} := @nextHopFor_eq_some S cfg env r d.destAddr d.previousHop (routedLength payload) hop
      cases hnext : (nextHopFor S cfg env d.destAddr d.previousHop (payload.length + ROUTED_FRAME_OVERHEAD) r).1 with
      | some hop =>
        obtain ⟨husable, hmtu⟩ := hfound hnext
        refine wp_mono (stretch_sendFrame rest ⟨RoutingEnv.capacity_of_usable husable, .inl hmtu⟩) (fun _ _ => ?_) fun _ _ => ?_
        · exact Stretch.of_silent hsilent
        · exact hsilent.trans
      | none =>
        refine wp_mono (stretch_refreshTransitRoute _ (some (payload, rest))) (fun _ _ => ?_) fun _ _ => ?_
        · exact Stretch.of_silent hsilent
        · exact hsilent.trans
    · have hmtu : routedLength payload ≤ pathMtuFor S env d.destAddr hop r.learnedRoutes := Nat.not_lt.1 hwide
      exact stretch_sendFrame rest ⟨hmtu.trans (Nat.min_le_left _ _), .inl hmtu⟩

theorem stretch_dispatch (found : Option PeerId) :
    wp (dispatch S cfg env d found) (fun _ => Stretch S env d none r) (fun _ => Silent r) r := by
  cases found with
  | none => exact .refl r
  | some hop => exact wp_mono (stretch_sendFrames hop _) (fun _ _ => Stretch.of_frames) fun _ _ => id

/-- The next hop of a datagram is looked up, and what follows is a stretch. -/
theorem stretch_redispatch :
    wp (do dispatch S cfg env d (← nextHop S cfg env d.destAddr d.previousHop 0))
      (fun _ => Stretch S env d none r) (fun _ => Silent r) r := by
  rw [wp_bind, wp_nextHop]
  have hsilent := @silent_nextHopFor S cfg env r d.destAddr d.previousHop 0
  exact wp_mono (stretch_dispatch _) (fun _ _ => Stretch.of_silent hsilent) fun _ _ => hsilent.trans

theorem stretch_sendSessionDatagram :
    wp (sendSessionDatagram S cfg env d) (fun _ => Stretch S env d none r) (fun _ => Silent r) r := by
  unfold sendSessionDatagram
  rw [wp_bind, wp_nextHop]
  have hsilent := @silent_nextHopFor S cfg env r d.destAddr d.previousHop 0
  refine wp_mono (Q := fun _ => Stretch S env d none (nextHopFor S cfg env d.destAddr d.previousHop 0 r).2)
    (E := fun _ => Silent (nextHopFor S cfg env d.destAddr d.previousHop 0 r).2) ?_
    (fun _ _ => Stretch.of_silent hsilent) fun _ _ => hsilent.trans
  generalize nextHopFor S cfg env d.destAddr d.previousHop 0 r = found
  obtain ⟨hop, r₁⟩ := found
  cases hop with
  | some hop => exact stretch_dispatch (some hop)
  | none =>
    refine wp_ite.2 ⟨fun _ => ?_, fun _ => stretch_refreshTransitRoute 0 none⟩
    refine wp_bind.2 (wp_mono (silent_resolveRoute _) (fun e r₂ hr₂ => ?_) fun _ _ => id)
    exact wp_modify.2 ((stretch_later rfl).of_silent hr₂)

theorem stretch_refreshed {lid : LookupId} {own : Bool} {minMtu : Nat} {frames : Option (Bytes × List Bytes)}
    (hfounded : (RoutingTask.datagramRefreshing d lid own minMtu frames).Founded r.originLookups.minMtus) :
    wp (refreshed S cfg env d lid own minMtu frames)
      (fun _ => Stretch S env d (frames.map fun f => f.1 :: f.2) r) (fun _ => Silent r) r := by
  obtain ⟨hmtu, hlt, hown, -⟩ := hfounded
  unfold refreshed
  rw [wp_bind, wp_get]
  cases hobj : r.originLookups.objs[lid]? with
  | none =>
    rw [OriginLookupRegistry.minMtus, List.length_map] at hlt
    exact absurd (List.getElem?_eq_none_iff.1 hobj) (Nat.not_le.2 hlt)
  | some pending =>
    refine wp_ite.2 ⟨fun _ => wp_throw.2 (.refl r), fun hresolved => wp_ite.2 ⟨fun henough => ?_, fun _ => ?_⟩⟩
    swap
    · exact stretch_refreshTransitRoute minMtu frames
    cases frames with
    | none => exact stretch_redispatch
    | some f =>
      dsimp only
      cases hcarrier : env.selectCarrier S (pending.nextHop.bind env.getPeerByNodeAddr) d.previousHop minMtu with
      | none => exact .refl r
      | some hop =>
        obtain ⟨husable, q, hq, hkey⟩ := RoutingEnv.selectCarrier_eq_some hcarrier
        obtain ⟨nextHop, hnext, hget⟩ := Option.bind_eq_some_iff.1 hq
        have hpending : minMtu ≤ pending.minMtu := by
          rcases henough with ho | hle
          · have hsame := hown ho
            rw [OriginLookupRegistry.minMtus, List.getElem?_map, hobj] at hsame
            exact (Option.some_injective _ hsame).ge
          · exact hle
        change minMtu = routedLength f.1 at hmtu
        subst hmtu
        exact stretch_sendFrame f.2 ⟨RoutingEnv.capacity_of_usable husable,
          .inr ⟨lid, pending, nextHop, q, hobj, not_not.1 hresolved, hpending, hnext, hget, hkey⟩⟩

/-- The lookup that a frame has waited for has failed, or no carrier of its next hop is wide enough. -/
theorem refreshed_throws {lid : LookupId} {own : Bool} {minMtu : Nat} {f : Bytes × List Bytes} {pending : PendingOriginLookup}
    (hobj : r.originLookups.objs[lid]? = some pending)
    (h : pending.promise ≠ .resolved ∨ minMtu ≤ pending.minMtu ∧
      env.selectCarrier S (pending.nextHop.bind env.getPeerByNodeAddr) d.previousHop minMtu = none) :
    ∃ e, (refreshed S cfg env d lid own minMtu (some f)).run r = .error e r := by
  unfold refreshed
  rw [EStateM.run_bind, run_get]
  dsimp only
  rw [hobj]
  dsimp only
  by_cases hresolved : pending.promise = .resolved
  · obtain ⟨hle, hcarrier⟩ := h.resolve_left (not_not.2 hresolved)
    rw [if_neg (not_not.2 hresolved), if_pos (.inr hle), hcarrier]
    exact ⟨_, rfl⟩
  · rw [if_pos hresolved]
    exact ⟨_, rfl⟩

end

/-! ### Refreshes are founded -/

section
variable {S : Suite} {G : Schnorr} {cfg : RoutingConfig} {env : RoutingEnv} {d : OutboundSessionDatagram} {r r' : Routing}

theorem Quiet.founded {α : Type} {x : RM α} (h : Quiet x) : Keeps Founded x :=
  fun r hr => wp_mono (h r) (fun _ _ hr' => hr'.founded hr) fun _ _ hr' => hr'.founded hr

theorem Founded.same (hr : r.Founded) (htasks : r'.tasks = r.tasks) (hlookups : r'.originLookups = r.originLookups) :
    r'.Founded := hr.of_tasks (htasks ▸ List.Subset.refl _) (hlookups ▸ .refl _)

theorem founded_later {task : RoutingTask} (h : ∀ minMtus, task.Founded minMtus) : Keeps Founded (modify (later task) : RM PUnit) :=
  keeps_modify fun _ hr => hr.later (h _)

theorem founded_sendFrame (hop : PeerId) (payload : Bytes) {rest : List Bytes} (hrest : d.Behind rest) :
    Keeps Founded (sendFrame env d hop payload rest) := by
  unfold sendFrame
  refine (keeps_lift _).bind fun encoded => (keeps_modify fun _ hr => hr.same rfl rfl).bind fun _ => ?_
  exact Keeps.ite (fun _ => founded_later fun _ => hrest) fun _ => keeps_pure _

/-- The lookup that is started asks for what it is started for. -/
theorem wp_startLookup {target : NodeAddr} {targetPubkey : Option Bytes} {minMtu : Nat} {excludedPeer : Option PeerId}
    (hr : r.Founded) : wp (startLookup S cfg env target targetPubkey minMtu excludedPeer)
      (fun lid r' => r'.Founded ∧ r'.originLookups.minMtus[lid]? = some minMtu) (fun _ => Founded) r := by
  unfold startLookup
  rw [wp_bind, wp_get]
  refine wp_bind.2 (wp_lift.2 ⟨fun e he => ?_, fun _ _ => hr⟩)
  obtain ⟨hfollows, hminMtu⟩ := OriginLookupRegistry.follows_create he
  rw [wp_bind, wp_modify, wp_bind, wp_get, wp_bind, wp_modify, wp_pure]
  have hround := @kept_retryRound S cfg env { r with originLookups := e.2 } e.1
    ⟨0, target, cfg.identity.nodeAddr, LOOKUP_ORIGIN_TTL, minMtu, ({ r with originLookups := e.2 } : Routing).coords cfg⟩ excludedPeer true
  refine ⟨hround.founded (hr.of_tasks (List.Subset.refl _) hfollows), ?_⟩
  obtain ⟨later, hlater⟩ := hround.originLookups.minMtus
  rw [← hlater, List.getElem?_append_left (List.getElem?_eq_some_iff.1 hminMtu).1]
  exact hminMtu

theorem founded_refreshTransitRoute {minMtu : Nat} {frames : Option (Bytes × List Bytes)}
    (hmtu : minMtu = frames.elim 0 fun f => routedLength f.1) (hrest : d.Behind (frames.elim [] Prod.snd)) :
    Keeps Founded (refreshTransitRoute S cfg env d minMtu frames) := by
  unfold refreshTransitRoute
  refine keeps_get_bind fun r hr => ?_
  split
  · exact wp_modify.2 (hr.later ⟨hmtu, hr.lookups _ _ ‹_›, by rintro ⟨⟩, hrest⟩)
  · refine wp_ite.2 ⟨fun _ => ?_, fun _ => ?_⟩
    · rw [wp_bind, wp_throw]
      exact hr
    · refine wp_bind.2 (wp_mono (wp_startLookup hr) (fun lid r' hr' => ?_) fun _ _ => id)
      exact wp_modify.2 (hr'.1.later ⟨hmtu, (List.getElem?_eq_some_iff.1 hr'.2).1, fun _ => hr'.2, hrest⟩)

theorem founded_sendFrames (hop : PeerId) {frames : List Bytes} (hrest : d.Behind frames.tail) :
    Keeps Founded (sendFrames S cfg env d hop frames) := by
  cases frames with
  | nil => exact keeps_pure _
  | cons payload rest =>
    unfold sendFrames
    refine keeps_get.bind fun r => Keeps.ite (fun _ => ?_) fun _ => founded_sendFrame hop payload hrest
    refine (quiet_nextHop _ _ _).founded.bind fun found => ?_
    cases found with
    | some hop => exact founded_sendFrame hop payload hrest
    | none => exact founded_refreshTransitRoute rfl hrest

theorem behind_frames (hop : PeerId) : d.Behind (d.frames env hop).tail := by
  intro h
  unfold OutboundSessionDatagram.previousHop at h
  unfold OutboundSessionDatagram.frames
  cases hsource : d.source with
  | own frame =>
    rw [hsource] at h
    exact absurd rfl h
  | transit p payload => rfl

theorem founded_dispatch (found : Option PeerId) : Keeps Founded (dispatch S cfg env d found) := by
  cases found with
  | none => exact keeps_throw _
  | some hop => exact founded_sendFrames hop (behind_frames hop)

theorem founded_sendSessionDatagram : Keeps Founded (sendSessionDatagram S cfg env d) := by
  unfold sendSessionDatagram
  refine (quiet_nextHop _ _ _).founded.bind fun found => ?_
  cases found with
  | some hop => exact founded_dispatch (some hop)
  | none =>
    refine Keeps.ite (fun _ => ?_) fun _ => founded_refreshTransitRoute rfl fun _ => rfl
    exact (quiet_resolveRoute _).founded.bind fun e => founded_later fun _ => trivial

theorem founded_refreshed {lid : LookupId} {own : Bool} {minMtu : Nat} {frames : Option (Bytes × List Bytes)}
    (hmtu : minMtu = frames.elim 0 fun f => routedLength f.1) (hrest : d.Behind (frames.elim [] Prod.snd)) :
    Keeps Founded (refreshed S cfg env d lid own minMtu frames) := by
  unfold refreshed
  refine keeps_get.bind fun r => ?_
  split
  · exact keeps_pure _
  · refine Keeps.ite (fun _ => keeps_throw _) fun _ =>
      Keeps.ite (fun _ => ?_) fun _ => founded_refreshTransitRoute hmtu hrest
    cases frames with
    | none => exact (quiet_nextHop _ _ _).founded.bind fun found => founded_dispatch found
    | some f =>
      dsimp only
      split
      · exact keeps_throw _
      · exact founded_sendFrame _ f.1 hrest

theorem founded_handleSessionDatagram (p : PeerId) (payload : Bytes) :
    Keeps Founded (handleSessionDatagram S cfg env p payload) := by
  unfold handleSessionDatagram
  refine (keeps_lift _).bind fun d => (quiet_assertNodeAllowed _).founded.bind fun _ => ?_
  refine (quiet_assertNodeAllowed _).founded.bind fun _ => ?_
  refine (Quiet.founded (quiet_modify fun _ => kept_cacheSessionCoordinates d)).bind fun _ => ?_
  refine Keeps.ite (fun _ => keeps_modify fun _ hr => hr.same rfl rfl) fun _ => ?_
  exact Keeps.ite (fun _ => keeps_pure _) fun _ => founded_sendSessionDatagram

/-! ### Requests and responses -/

theorem founded_transmitAll {cause : SendCause} (peers : List PeerId) (msgType : Nat) (payload : Bytes) (hr : r.Founded) :
    (transmitAll env cause peers msgType payload r).Founded := by
  unfold transmitAll
  induction peers generalizing r with
  | nil => exact hr
  | cons p peers ih =>
    exact ih (hr.of_tasks (List.Subset.refl _) (.refl _))

theorem founded_forwardTo (key : ReverseKey) (rid : ReverseId) (request : LookupRequest) (nextHops : List PeerId) :
    Keeps Founded (forwardTo S env key rid request nextHops) := by
  unfold forwardTo
  refine Keeps.ite (fun _ => keeps_pure _) fun _ => (keeps_modify fun _ hr => hr.same rfl rfl).bind fun _ => ?_
  refine (keeps_lift _).bind fun encoded => (keeps_modify fun _ hr => ?_).bind fun _ => ?_
  · exact founded_transmitAll nextHops _ encoded hr
  · exact founded_later fun _ => trivial

theorem founded_forwardOne (rid : ReverseId) (request : LookupRequest) (p : PeerId) :
    Keeps Founded (forwardOne S env rid request p) := by
  unfold forwardOne
  refine (keeps_modify fun _ hr => hr.same rfl rfl).bind fun _ => (keeps_lift _).bind fun encoded => ?_
  exact (keeps_modify fun _ hr => hr.same rfl rfl).bind fun _ => founded_later fun _ => trivial

theorem founded_pursue (p : PeerId) (key : ReverseKey) (rid : ReverseId) (request : LookupRequest) (resolving : Bool)
    (nextHops : List PeerId) : Keeps Founded (pursue S env p key rid request resolving nextHops) := by
  unfold pursue
  cases resolving with
  | false => exact founded_forwardTo key rid request nextHops
  | true =>
    exact (Quiet.founded (quiet_modify fun _ => kept_resolveAndForwardLookup ..)).bind fun _ =>
      founded_forwardTo key rid request nextHops

theorem founded_passOn (p : PeerId) (request : LookupRequest) (key : ReverseKey)
    (existing : Option (ReverseId × LookupReversePath)) : Keeps Founded (passOn S cfg env p request key existing) := by
  unfold passOn
  refine (quiet_nextHop _ _ _).founded.bind fun found => keeps_get.bind fun r => ?_
  refine Keeps.ite (fun _ => keeps_pure _) fun _ => ?_
  cases existing with
  | some e => exact founded_pursue _ _ _ _ _ _
  | none =>
    refine (keeps_modify fun r hr => ?_).bind fun _ => founded_pursue _ _ _ _ _ _
    refine hr.of_tasks ?_ ?_
    all_goals
      unfold addReverse reserveLookupReversePath
      dsimp only
    · split
      · exact List.Subset.refl _
      · split <;> exact List.Subset.refl _
    · split
      · exact .refl _
      · split <;> exact .refl _

theorem founded_handleLookupRequest (p : PeerId) (request : LookupRequest) :
    Keeps Founded (handleLookupRequest S G cfg env p request) := by
  unfold handleLookupRequest
  refine Keeps.ite (fun _ => keeps_pure _) fun _ => Keeps.ite (fun _ => (quiet_answerLookup p request).founded) fun _ => ?_
  refine Keeps.ite (fun _ => keeps_pure _) fun _ => (keeps_modify fun _ hr => hr.same rfl rfl).bind fun _ => ?_
  refine keeps_get.bind fun r => ?_
  split
  · exact founded_passOn _ _ _ _
  · refine Keeps.ite (fun _ => keeps_pure _) fun _ => ?_
    exact (keeps_modify fun _ hr => hr.same rfl rfl).bind fun _ => founded_passOn _ _ _ _

theorem founded_handleLookupRequestMessage (p : PeerId) (payload : Bytes) :
    Keeps Founded (handleLookupRequestMessage S G cfg env p payload) := by
  unfold handleLookupRequestMessage
  refine (keeps_lift _).bind fun request => (quiet_assertNodeAllowed _).founded.bind fun _ => ?_
  refine (quiet_assertNodeAllowed _).founded.bind fun _ => keeps_get.bind fun r => ?_
  exact Keeps.ite (fun _ => keeps_pure _) fun _ => founded_handleLookupRequest p request

theorem founded_forwardResolved (key : ReverseKey) (rid : ReverseId) (p : PeerId) :
    Keeps Founded (forwardResolved S cfg env key rid p) := by
  unfold forwardResolved
  refine keeps_get.bind fun r => ?_
  split
  · exact keeps_pure _
  · refine Keeps.ite (fun _ => keeps_pure _) fun _ => (quiet_nextHop _ _ _).founded.bind fun found => ?_
    cases found with
    | none => exact keeps_pure _
    | some hop => exact Keeps.ite (fun _ => keeps_pure _) fun _ => founded_forwardOne _ _ _

theorem founded_replayPendingLookupsFor (p : PeerId) (hr : r.Founded) : (replayPendingLookupsFor S env p r).Founded := by
  unfold replayPendingLookupsFor
  split
  · exact hr
  split
  · exact hr
  dsimp only
  have hpruned : (pruneLookupReversePaths env.nowMs r).Founded := hr.same rfl rfl
  generalize pendingLookupsFor S env p _ = pending
  generalize pruneLookupReversePaths env.nowMs r = r₁ at hpruned
  induction pending generalizing r₁ with
  | nil => exact hpruned
  | cons e pending ih => exact ih _ ((founded_forwardOne e.1 e.2 p).after hpruned)

theorem founded_forwardLookupResponse (p : PeerId) (payload : Bytes) :
    Keeps Founded (forwardLookupResponse S cfg env p payload) := by
  unfold forwardLookupResponse
  refine (keeps_lift _).bind fun response => (keeps_modify fun _ hr => hr.same rfl rfl).bind fun _ => keeps_get.bind fun r => ?_
  split
  · exact keeps_pure _
  · refine Keeps.ite (fun _ => keeps_pure _) fun _ => Keeps.ite (fun _ => keeps_pure _) fun _ => ?_
    refine (Quiet.founded (quiet_modify fun _ => kept_cacheCoordinates ..)).bind fun _ => ?_
    refine (Quiet.founded (quiet_modify fun _ => kept_learnReverseRoute ..)).bind fun _ => ?_
    refine (keeps_modify fun _ hr => hr.same rfl rfl).bind fun _ => (keeps_lift _).bind fun encoded => ?_
    exact keeps_modify fun _ hr => hr.same rfl rfl

theorem founded_handleLinkMessage (p : PeerId) (msgType : Nat) (payload : Bytes) :
    Keeps Founded (handleLinkMessage S G cfg env p msgType payload) := by
  unfold handleLinkMessage
  refine Keeps.ite (fun _ => (quiet_handleClientSupport p payload).founded) fun _ => ?_
  refine Keeps.ite (fun _ => (quiet_handleClientOnly p payload).founded) fun _ => ?_
  refine Keeps.ite (fun _ => (quiet_handleTreeAnnounce p payload).founded) fun _ => ?_
  refine Keeps.ite (fun _ => (quiet_handleFilterAnnounce p payload).founded) fun _ => ?_
  refine Keeps.ite (fun _ => founded_handleLookupRequestMessage p payload) fun _ => ?_
  refine Keeps.ite (fun _ => (quiet_handleLookupResponseMessage p payload).founded) fun _ => ?_
  exact Keeps.ite (fun _ => founded_handleSessionDatagram p payload) fun _ => keeps_pure _

theorem founded_finishForward (key : ReverseKey) (rid : ReverseId) (results : List (NodeAddr × Bool)) (hr : r.Founded) :
    (finishForward key rid results r).Founded := by
  have hfold (failed : List (NodeAddr × Bool)) {r : Routing} (hr : r.Founded) :
      (failed.foldl (fun r e => dropForwarded rid e.1 r) r).Founded := by
    induction failed generalizing r with
    | nil => exact hr
    | cons e failed ih => exact ih (hr.same rfl rfl)
  unfold finishForward
  dsimp only
  split
  · exact (hfold _ hr).same rfl rfl
  · exact hfold _ hr

theorem founded_runTask {task : RoutingTask} (ht : task.Founded r.originLookups.minMtus) (hr : r.Founded) :
    wp (runTask S G cfg env task) (fun _ => Founded) (fun _ => Founded) r := by
  have hquiet {x : RM Unit} (h : Quiet x) : wp x (fun _ => Founded) (fun _ => Founded) r := h.founded r hr
  cases task with
  | treeAnnounce p =>
    exact hquiet (quiet_modify fun _ => kept_announceTimer (quiet_sendTreeAnnounce p) ⟨rfl, rfl, fun _ => trivial⟩)
  | treeAnnounceFailed p => exact hquiet (quiet_modify fun _ => kept_modifyRole ..)
  | filterAnnounce p =>
    exact hquiet (quiet_modify fun _ => kept_announceTimer (quiet_sendFilter p) ⟨rfl, rfl, fun _ => trivial⟩)
  | filterAnnounceFailed p => exact hquiet (quiet_modify fun _ => kept_modifyRole ..)
  | filterFailed p sequence previous => exact hquiet (quiet_modify fun _ => kept_modifyRole ..)
  | bloomSendAll excludedPeer => exact hquiet (quiet_modify fun _ => kept_bloomSendAll _)
  | forwarded key rid results => exact wp_modify.2 (founded_finishForward key rid results hr)
  | sent rid nextHop ok =>
    cases ok with
    | true => exact hr
    | false => exact wp_modify.2 (hr.same rfl rfl)
  | resolveLookup key rid source promise owner =>
    refine (Quiet.founded (quiet_modify fun _ => kept_finishResolution ..)).bind (fun _ => keeps_get.bind fun r₁ => ?_) r hr
    exact Keeps.ite (fun _ => founded_forwardResolved key rid source) fun _ => keeps_pure _
  | forwardLookupResponse p payload => exact founded_forwardLookupResponse p payload r hr
  | retry lid request excludedPeer => exact hquiet (quiet_modify fun _ => kept_retryRound ..)
  | datagramResolving d promise owner =>
    refine (Quiet.founded (quiet_modify fun _ => kept_finishResolution ..)).bind (fun _ => keeps_get.bind fun r₁ => ?_) r hr
    refine Keeps.ite (fun _ => (keeps_throw _).bind fun _ => ?_) fun _ => ?_
    all_goals exact (quiet_nextHop _ _ _).founded.bind fun found => founded_dispatch found
  | datagramRefreshing d lid own minMtu frames => exact founded_refreshed ht.1 ht.2.2.2 r hr
  | datagramSending d hop frames => exact founded_sendFrames hop (fun h => by rw [ht h]; rfl) r hr

/-! ### Runs -/

theorem Founded.eraseIdx (hr : r.Founded) (index : Nat) : ({ r with tasks := r.tasks.eraseIdx index } : Routing).Founded :=
  hr.of_tasks (List.eraseIdx_subset ..) (.refl _)

theorem founded_step (hr : r.Founded) (e : Event) : (step S G cfg r e).Founded := by
  have hkept {x : RM Unit} (h : Keeps Founded x) : (settled x r).Founded := h.after hr
  cases e with
  | handleLinkMessage env p msgType payload => exact hkept (founded_handleLinkMessage p msgType payload)
  | task env index =>
    show (continueTask S G cfg env index r).Founded
    unfold continueTask
    split
    · exact hr
    · rename_i task htask
      split
      · exact hr
      · exact wp_after.2 (founded_runTask (hr.refreshes task (List.mem_of_getElem? htask)) (hr.eraseIdx index))
  | resolution promise outcome =>
    show (settleResolution promise outcome r).Founded
    unfold settleResolution
    split
    · exact hr.same rfl rfl
    · exact hr
  | lookupTimeout lid => exact (kept_originLookups (OriginLookupRegistry.follows_settle ..)).founded hr
  | removePeer env peerNodeAddr => exact (kept_removePeer _).founded hr
  | scheduleTreeAnnounce p => exact (kept_scheduleTreeAnnounce p).founded hr
  | refreshClientRole env => exact kept_refreshClientRole.founded hr
  | replayPendingLookupsFor env p => exact founded_replayPendingLookupsFor p hr
  | ensureFirstContactRoute env target targetPubkey => exact hkept (quiet_ensureFirstContactRoute target targetPubkey).founded
  | sendFspToward env remoteNodeAddr frame => exact hkept founded_sendSessionDatagram
  | sendFspReplyToward env remoteNodeAddr frame previousHop =>
    exact hkept (quiet_sendFspReplyToward remoteNodeAddr frame previousHop).founded
  | learnReverseRoute env destination nextHop pathMtu => exact (kept_learnReverseRoute ..).founded hr
  | hasUsableRoute env nodeAddr => exact (kept_nextHopFor ..).founded hr
  | stop env => exact hr.of_tasks (List.Subset.refl _) (OriginLookupRegistry.follows_stop _)

theorem founded_new (nowSeconds : Nat) : (new cfg nowSeconds).Founded := ⟨nofun, nofun⟩

theorem founded_run (hr : r.Founded) (es : List Event) : (Run.run (step S G cfg) r es).Founded := by
  induction es generalizing r with
  | nil => exact hr
  | cons e es ih => exact ih (founded_step hr e)

theorem stretch_runTask {task : RoutingTask} {left : Option (List Bytes)} (hcall : task.call = some (d, left))
    (hfounded : task.Founded r.originLookups.minMtus) :
    wp (runTask S G cfg env task) (fun _ => Stretch S env d left r) (fun _ => Silent r) r := by
  cases task with
  | datagramResolving d' promise owner =>
    cases hcall
    have hsilent := @silent_finishResolution r d.destAddr promise owner
    show wp (do
      modify (finishResolution d.destAddr promise owner)
      if (← get).promises[promise]? ≠ some .resolved then throw s!"no route to {toHex d.destAddr}"
      dispatch S cfg env d (← nextHop S cfg env d.destAddr d.previousHop 0)) _ _ _
    rw [wp_bind, wp_modify, wp_bind, wp_get]
    refine wp_ite.2 ⟨fun _ => ?_, fun _ => ?_⟩
    · rw [wp_bind, wp_throw]
      exact hsilent
    · exact wp_mono stretch_redispatch (fun _ _ => Stretch.of_silent hsilent) fun _ _ => hsilent.trans
  | datagramRefreshing d' lid own minMtu frames =>
    cases hcall
    exact stretch_refreshed hfounded
  | datagramSending d' hop frames =>
    cases hcall
    exact stretch_sendFrames hop frames
  | _ => cases hcall

end

/-- Every stretch of every call of `sendSessionDatagram`, in every run. -/
theorem routed_frames_fit (S : Suite) (hS : S.Lawful) (G : Schnorr) (cfg : RoutingConfig) (nowSeconds : Nat) (es : List Event) :
    let r := Run.run (step S G cfg) (new cfg nowSeconds) es
    -- a call starts, in any state of its node
    (∀ r₀ env d, wp (sendSessionDatagram S cfg env d) (fun _ => Stretch S env d none r₀) (fun _ => Silent r₀) r₀) ∧
    -- a call goes on
    (∀ env (index : Nat) task d left, r.tasks[index]? = some task → task.call = some (d, left) →
      let r₀ : Routing := { r with tasks := r.tasks.eraseIdx index }
      wp (runTask S G cfg env task) (fun _ => Stretch S env d left r₀) (fun _ => Silent r₀) r₀) ∧
    -- a frame that no hop carries
    (∀ r₀ env d lid own minMtu f pending, r₀.originLookups.objs[lid]? = some pending →
      (pending.promise ≠ .resolved ∨ minMtu ≤ pending.minMtu ∧
        env.selectCarrier S (pending.nextHop.bind env.getPeerByNodeAddr) d.previousHop minMtu = none) →
      ∃ e, (runTask S G cfg env (.datagramRefreshing d lid own minMtu (some f))).run r₀ = .error e r₀) ∧
    -- the packet of a frame
    ∀ d encoded nowMs link packet link', encodeSessionDatagram d = .ok encoded →
      (FmpLink.encryptOutgoing S encoded.tail LinkMessageType.SessionDatagram nowMs).run link = .ok packet link' →
        packet.length = d.payload.length + 72 := by
  intro r
  have hr : r.Founded := founded_run (founded_new nowSeconds) es
  refine ⟨fun r₀ env d => stretch_sendSessionDatagram, fun env index task d left htask hcall => ?_, ?_, ?_⟩
  · exact stretch_runTask hcall (hr.refreshes task (List.mem_of_getElem? htask))
  · intro r₀ env d lid own minMtu f pending hobj h
    exact refreshed_throws hobj h
  · intro d encoded nowMs link packet link' hencoded hpacket
    exact length_routed hS hencoded hpacket

/-- An established link. -/
def toyLink : FmpLink where
  role := .initiator
  localSessionIdx := 0
  identity := toyIdentity 1
  localEpoch := []
  remotePubkey := none
  remoteSessionIdx := some 7
  remoteEpoch := none
  hs := none
  tx := some ⟨some (List.replicate 32 1), 0⟩
  rx := none
  establishedMsg1 := none
  establishedMsg2 := none
  txCounter := 0
  sessionStartMs := 0
  rxReplay := .new
  receiverReports := .new
  state := .established

/-- The leaf of a tree, without a table of routes. -/
def toyLeaf : RoutingConfig := toyRouting .tree false

/-- A neighbour with two frames to send to it. -/
def toyTwoFrames : RoutingEnv :=
  { toyNeighbours [0] true with
    getPeerByNodeAddr := fun nodeAddr => if nodeAddr = (toyIdentity 2).nodeAddr then some 0 else none
    frames := fun _ => [[9, 9, 9], [8]] }

def toyDatagram : OutboundSessionDatagram :=
  ⟨64, FSP_DEFAULT_PATH_MTU, (toyIdentity 1).nodeAddr, (toyIdentity 2).nodeAddr, .own none⟩

theorem toyDatagram_encodes : (encodeSessionDatagram (toyDatagram.withPayload [9, 9, 9])).toOption.isSome = true := by
  decide +kernel

/-- The first stretch sends the one frame, the second one the other. -/
theorem routed_frames_fit_toy :
    let r := Run.run (step toySuite toySchnorr toyLeaf) (new toyLeaf 0)
      [.sendFspToward toyTwoFrames (toyIdentity 2).nodeAddr none]
    (∃ r', (sendSessionDatagram toySuite toyLeaf toyTwoFrames toyDatagram).run (new toyLeaf 0) = .ok () r' ∧
      r'.datagrams.length = 1 ∧ Stretch toySuite toyTwoFrames toyDatagram none (new toyLeaf 0) r') ∧
    (∃ r', (runTask toySuite toySchnorr toyLeaf toyTwoFrames (.datagramSending toyDatagram 0 [[8]])).run
        { r with tasks := r.tasks.eraseIdx 0 } = .ok () r' ∧
      r'.datagrams.length = 2 ∧
      Stretch toySuite toyTwoFrames toyDatagram (some [[8]]) { r with tasks := r.tasks.eraseIdx 0 } r') ∧
    ∃ encoded packet link', encodeSessionDatagram (toyDatagram.withPayload [9, 9, 9]) = .ok encoded ∧
      (FmpLink.encryptOutgoing toySuite encoded.tail LinkMessageType.SessionDatagram 5).run toyLink = .ok packet link' ∧
      packet.length = 3 + 72 := by
  intro r
  obtain ⟨hcall, hgoesOn, -, hpackets⟩ := routed_frames_fit toySuite toySuite_lawful toySchnorr toyLeaf 0
    [.sendFspToward toyTwoFrames (toyIdentity 2).nodeAddr none]
  have hruns {x : RM Unit} {r₀ : Routing} {n : Nat}
      (h : (call x r₀).toOption.any (fun y => y.2.datagrams.length = n) = true) :
      ∃ r', x.run r₀ = .ok () r' ∧ r'.datagrams.length = n := by
    obtain ⟨⟨⟨⟩, r'⟩, hy, hn⟩ := (Option.any_eq_true _ _).1 h
    exact ⟨r', call_eq_ok.1 (mem_toOption.1 hy), of_decide_eq_true hn⟩
  refine ⟨?_, ?_, ?_⟩
  · obtain ⟨r', hrun, hone⟩ := @hruns (sendSessionDatagram toySuite toyLeaf toyTwoFrames toyDatagram) (new toyLeaf 0) 1
      (by decide +kernel)
    have hstretch {r₀ r₁ : Routing} (h : (sendSessionDatagram toySuite toyLeaf toyTwoFrames toyDatagram).run r₀ = .ok () r₁) :
        Stretch toySuite toyTwoFrames toyDatagram none r₀ r₁ := (wp_of_ok h).1 (hcall r₀ toyTwoFrames toyDatagram)
    exact ⟨r', hrun, hone, hstretch hrun⟩
  · have htask : r.tasks[0]? = some (.datagramSending toyDatagram 0 [[8]]) := by decide +kernel
    obtain ⟨r', hrun, htwo⟩ := @hruns (runTask toySuite toySchnorr toyLeaf toyTwoFrames
      (.datagramSending toyDatagram 0 [[8]])) { r with tasks := r.tasks.eraseIdx 0 } 2 (by decide +kernel)
    have hstretch := hgoesOn toyTwoFrames 0 _ toyDatagram (some [[8]]) htask rfl
    dsimp only at hstretch
    rw [wp_of_ok hrun] at hstretch
    exact ⟨r', hrun, htwo, hstretch⟩
  · have hseals : toyLink.Seals (List.replicate 32 1) 7 := ⟨rfl, rfl, rfl, rfl⟩
    obtain ⟨packet, link', hpacket⟩ := (@FmpLink.encryptOutgoing_ok_iff toySuite toyLink _
      ((encodeSessionDatagram (toyDatagram.withPayload [9, 9, 9])).toOption.get toyDatagram_encodes).tail 7
      LinkMessageType.SessionDatagram 5 hseals (by decide) (by decide) (by decide)).2 (by decide +kernel)
    have hencoded := eq_ok_get toyDatagram_encodes
    exact ⟨_, packet, link', hencoded, hpacket, hpackets _ _ 5 toyLink packet link' hencoded hpacket⟩

end Routing

end Fips
