import Fips.Node.RoutingFrame

/-!
# Datagrams of other nodes

Each datagram of another node is passed on at most once for each time it is received, with a ttl that is one smaller
and positive. What has been passed on and what still waits is counted together, so that no await between the
receipt and the sending matters.
-/

namespace Fips
open Exec LittleEndian

namespace Routing

theorem decodeSessionDatagram_wire {d : SessionDatagram} {encoded : Bytes} (h : encodeSessionDatagram d = .ok encoded) :
    decodeSessionDatagramPayload encoded.tail = .ok d.wire := by
  refine decodeSessionDatagram_encode (Nat.mod_lt _ (by decide)) ?_
  rw [← h]
  simp [encodeSessionDatagram, SessionDatagram.wire]

/-- At most the datagrams `D` are passed on or left waiting. -/
structure Passed (D : List SessionDatagram) (r r' : Routing) : Prop where
  lookups : r'.lookups = r.lookups
  transit : r'.transit ≤ r.transit + D
  log : r.log <+: r'.log

/-- A method that passes on, or leaves waiting, at most the datagrams `D`. -/
def PassesOn {α : Type} (D : List SessionDatagram) (x : RM α) : Prop := ∀ r, wp x (fun _ => Passed D r) (fun _ => Passed D r) r

section
variable {α β : Type} {D : List SessionDatagram} {x : RM α} {r r' r'' : Routing}

theorem Kept.passed (h : Kept r r') : Passed D r r' :=
  ⟨h.lookups, h.transit.le.trans (Multiset.le_add_right _ _), h.log⟩

theorem Kept.trans_passed (h : Kept r r') (h' : Passed D r' r'') : Passed D r r'' :=
  ⟨h'.lookups.trans h.lookups, h.transit ▸ h'.transit, h.log.trans h'.log⟩

theorem Quiet.passesOn (h : Quiet x) : PassesOn D x :=
  fun r => wp_mono (h r) (fun _ _ => Kept.passed) fun _ _ => Kept.passed

theorem Quiet.bind_passesOn {f : α → RM β} (h : Quiet x) (hf : ∀ a, PassesOn D (f a)) : PassesOn D (x >>= f) := by
  intro r
  refine wp_bind.2 (wp_mono (h r) (fun a r' hr' => ?_) fun _ _ => Kept.passed)
  exact wp_mono (hf a r') (fun _ _ => hr'.trans_passed) fun _ _ => hr'.trans_passed

theorem passesOn_throw (e : String) (f : β → RM α) : PassesOn D (throw e >>= f) := fun r => (Kept.refl r).passed

theorem PassesOn.ite {c : Prop} [Decidable c] {y : RM α} (h : PassesOn D x) (h' : PassesOn D y) :
    PassesOn D (if c then x else y) := by
  split
  · exact h
  · exact h'

theorem PassesOn.passed {x : RM Unit} (h : PassesOn D x) (r : Routing) : Passed D r (settled x r) := wp_after.2 (h r)

theorem transit_later (task : RoutingTask) : (later task r).transit = r.transit + task.transit := by
  simp [later, transit]

theorem lookups_later {task : RoutingTask} (h : task.lookup = false) : (later task r).lookups = r.lookups := by
  simp [later, lookups, h]

theorem passesOn_later {task : RoutingTask} (h : task.lookup = false) : PassesOn task.transit (modify (later task)) :=
  fun _ => ⟨lookups_later h, (transit_later task).le, List.prefix_rfl⟩

end

section
variable {S : Suite} {G : Schnorr} {cfg : RoutingConfig} {env : RoutingEnv} {r : Routing} {d : OutboundSessionDatagram}

/-- The transmission of a frame uses up at most that frame. -/
theorem transmit_frame {hop : PeerId} {payload encoded : Bytes} (h : encodeSessionDatagram (d.withPayload payload) = .ok encoded) :
    Passed (d.inTransit [payload]) r (transmit env d.cause hop LinkMessageType.SessionDatagram encoded.tail r) := by
  have hwire := decodeSessionDatagram_wire h
  unfold OutboundSessionDatagram.cause OutboundSessionDatagram.inTransit
  cases d.source with
  | own frame => exact (kept_transmitOwn ..).passed
  | transit p b =>
    refine ⟨by simp [transmit, lookups, RoutingEffect.lookup], ?_, List.prefix_append _ _⟩
    show (↑((r.log ++ [_]).filterMap RoutingEffect.transit) : Multiset SessionDatagram) + _ ≤ _
    rw [List.filterMap_append, ← Multiset.coe_add, add_right_comm]
    refine add_le_add_right ?_ _
    simp only [List.filterMap_cons, List.filterMap_nil, RoutingEffect.transit, LinkSend.transit, hwire, Except.toOption,
      List.map_cons, List.map_nil]
    cases env.sends hop LinkMessageType.SessionDatagram encoded.tail with
    | false => exact Multiset.zero_le _
    | true => exact le_rfl

theorem inTransit_cons (payload : Bytes) (frames : List Bytes) :
    d.inTransit (payload :: frames) = d.inTransit [payload] ++ d.inTransit frames := by
  unfold OutboundSessionDatagram.inTransit
  cases d.source <;> rfl

theorem inTransit_frames (hop : PeerId) : d.inTransit (d.frames env hop) = d.waiting := by
  unfold OutboundSessionDatagram.inTransit OutboundSessionDatagram.frames OutboundSessionDatagram.waiting
  cases d.source <;> rfl

theorem passesOn_sendFrame (hop : PeerId) (payload : Bytes) (rest : List Bytes) :
    PassesOn (d.inTransit (payload :: rest)) (sendFrame env d hop payload rest) := by
  intro r
  rw [inTransit_cons]
  unfold sendFrame
  refine wp_bind.2 (wp_lift.2 ⟨fun encoded hencoded => ?_, fun _ _ => (Kept.refl r).passed⟩)
  obtain ⟨hl, ht, hlog⟩ := (@transmit_frame env r _ hop) hencoded
  rw [wp_bind, wp_modify]
  refine wp_ite.2 ⟨fun _ => ?_, fun _ => ?_⟩
  · refine wp_modify.2 ⟨(lookups_later rfl).trans hl, (transit_later _).le.trans ?_, hlog⟩
    rw [← Multiset.coe_add, ← add_assoc]
    exact add_le_add_left ht _
  · refine wp_pure.2 ⟨hl, ht.trans ?_, hlog⟩
    rw [← Multiset.coe_add, ← add_assoc]
    exact Multiset.le_add_right _ _

theorem passesOn_refreshTransitRoute (minMtu : Nat) (frames : Option (Bytes × List Bytes)) :
    PassesOn (frames.elim d.waiting fun f => d.inTransit (f.1 :: f.2)) (refreshTransitRoute S cfg env d minMtu frames) := by
  unfold refreshTransitRoute
  refine quiet_get.bind_passesOn fun r => ?_
  split
  · rename_i lid _
    exact @passesOn_later (.datagramRefreshing d lid false minMtu frames) rfl
  · dsimp only
    refine PassesOn.ite (passesOn_throw _ _) ((quiet_startLookup _ _ _ _).bind_passesOn fun lid => ?_)
    exact @passesOn_later (.datagramRefreshing d lid true minMtu frames) rfl

theorem passesOn_sendFrames (hop : PeerId) (frames : List Bytes) :
    PassesOn (d.inTransit frames) (sendFrames S cfg env d hop frames) := by
  cases frames with
  | nil => exact (quiet_pure _).passesOn
  | cons payload rest =>
    unfold sendFrames
    refine quiet_get.bind_passesOn fun r => PassesOn.ite ?_ (passesOn_sendFrame hop payload rest)
    refine (quiet_nextHop _ _ _).bind_passesOn fun found => ?_
    cases found with
    | some hop => exact passesOn_sendFrame hop payload rest
    | none => exact passesOn_refreshTransitRoute _ (some (payload, rest))

theorem passesOn_dispatch (found : Option PeerId) : PassesOn d.waiting (dispatch S cfg env d found) := by
  cases found with
  | none => exact (quiet_throw _).passesOn
  | some hop =>
    rw [← inTransit_frames hop]
    exact passesOn_sendFrames hop _

theorem passesOn_sendSessionDatagram : PassesOn d.waiting (sendSessionDatagram S cfg env d) := by
  unfold sendSessionDatagram
  refine (quiet_nextHop _ _ _).bind_passesOn fun found => ?_
  cases found with
  | some hop => exact passesOn_dispatch (some hop)
  | none =>
    refine PassesOn.ite ?_ (passesOn_refreshTransitRoute 0 none)
    exact (quiet_resolveRoute _).bind_passesOn fun e => @passesOn_later (.datagramResolving d e.1 e.2) rfl

theorem passesOn_refreshed (lid : LookupId) (own : Bool) (minMtu : Nat) (frames : Option (Bytes × List Bytes)) :
    PassesOn (frames.elim d.waiting fun f => d.inTransit (f.1 :: f.2)) (refreshed S cfg env d lid own minMtu frames) := by
  unfold refreshed
  refine quiet_get.bind_passesOn fun r => ?_
  split
  · exact (quiet_pure _).passesOn
  · rename_i pending _
    refine PassesOn.ite (quiet_throw _).passesOn (PassesOn.ite ?_ (passesOn_refreshTransitRoute minMtu frames))
    cases frames with
    | none => exact (quiet_nextHop _ _ _).bind_passesOn fun found => passesOn_dispatch found
    | some f =>
      dsimp only
      cases env.selectCarrier S (pending.nextHop.bind env.getPeerByNodeAddr) d.previousHop minMtu with
      | none => exact (quiet_throw _).passesOn
      | some hop => exact passesOn_sendFrame _ f.1 f.2

theorem passesOn_sendFspToward (remoteNodeAddr : NodeAddr) (frame : Option Bytes) :
    PassesOn [] (sendFspToward S cfg env remoteNodeAddr frame) :=
  passesOn_sendSessionDatagram (d := ⟨64, FSP_DEFAULT_PATH_MTU, cfg.identity.nodeAddr, remoteNodeAddr, .own frame⟩)

/-! ### Receipt -/

/-- A received datagram as it is passed on. -/
def lower (d : SessionDatagram) : SessionDatagram := { d with ttl := d.ttl - 1 }

/-- What is passed on of a received payload. -/
def lowered (payload : Bytes) : List SessionDatagram :=
  match decodeSessionDatagramPayload payload with
  | .ok d => if 1 < d.ttl then [lower d] else []
  | .error _ => []

theorem passesOn_handleSessionDatagram (p : PeerId) (payload : Bytes) :
    PassesOn (lowered payload) (handleSessionDatagram S cfg env p payload) := by
  intro r
  unfold handleSessionDatagram
  refine wp_bind.2 (wp_lift.2 ⟨fun d hd => ?_, fun _ _ => (Kept.refl r).passed⟩)
  have hlow : 1 < d.ttl → (OutboundSessionDatagram.waiting
      ⟨d.ttl - 1, d.pathMtu, d.srcAddr, d.destAddr, .transit p d.payload⟩) = lowered payload := by
    intro httl
    have hlt := (decodeSessionDatagram_eq_ok hd).1
    rw [lowered, hd]
    simp only [if_pos httl, OutboundSessionDatagram.waiting, OutboundSessionDatagram.withPayload, SessionDatagram.wire, lower]
    rw [Nat.mod_eq_of_lt (by omega)]
  refine (quiet_assertNodeAllowed _).bind_passesOn (fun _ => ?_) r
  refine (quiet_assertNodeAllowed _).bind_passesOn fun _ => ?_
  refine (quiet_modify fun _ => kept_cacheSessionCoordinates d).bind_passesOn fun _ => ?_
  refine PassesOn.ite (Quiet.passesOn (quiet_modify fun r => ?_)) ?_
  · exact kept_log (e := .handleLocalSession p d.srcAddr d.payload) rfl rfl rfl
  split
  · exact (quiet_pure _).passesOn
  · rename_i hdrop
    rw [← hlow (by omega)]
    exact passesOn_sendSessionDatagram

end

end Routing

end Fips
