import Fips.Lib.TwoRuns
import Fips.Node.RouteLikeness
import Fips.Node.RoutingStep

/-!
# What a query for a route does to the traffic

`hasUsableRoute` looks for a next hop as a send does, and where the learned routes of the destination compete, that turns
their round robin and drops those that have expired. Where it does neither, the state it leaves differs from the one before
in nothing that is read again, and every later message goes to the peer it would have gone to.

Two states are alike if they are the same but for tables of learned routes that behave alike. Every method of the layer takes
alike states to alike states: most do not touch the table (`Blind`), the others only look for next hops in it or learn.
-/

namespace Fips
open Exec LittleEndian

namespace Routing

/-- The states differ in their learned routes only, and these behave alike. -/
def Alike (r r' : Routing) : Prop := ∃ t, r' = { r with learnedRoutes := t } ∧ r.learnedRoutes.Alike t

/-- A method that neither reads the learned routes nor changes them. -/
def Blind (g : Routing → Routing) : Prop := ∀ r t, g { r with learnedRoutes := t } = { g r with learnedRoutes := t }

section
variable {α : Type} {g k : Routing → Routing} {r r' : Routing}

theorem Blind.routes (h : Blind g) (r : Routing) : (g r).learnedRoutes = r.learnedRoutes := by
  have hsame := congrArg Routing.learnedRoutes (h r r.learnedRoutes)
  exact hsame

theorem Blind.alike (h : Blind g) (hr : Alike r r') : Alike (g r) (g r') := by
  obtain ⟨t, rfl, ht⟩ := hr
  refine ⟨t, h r t, ?_⟩
  rw [h.routes]
  exact ht

theorem Blind.comp (h : Blind g) (h' : Blind k) : Blind fun r => k (g r) := by
  intro r t
  dsimp only
  rw [h, h']

theorem Blind.ite {c : Routing → Prop} [∀ r, Decidable (c r)] (hc : ∀ r t, c { r with learnedRoutes := t } ↔ c r)
    (h : Blind g) (h' : Blind k) : Blind fun r => if c r then g r else k r := by
  intro r t
  dsimp only
  by_cases hr : c r
  · rw [if_pos hr, if_pos ((hc r t).2 hr), h]
  · rw [if_neg hr, if_neg (fun hr' => hr ((hc r t).1 hr')), h']

theorem blind_id : Blind id := fun _ _ => rfl

theorem alike_ite {c : Prop} [Decidable c] {u u' : Routing} (h : Alike r r') (h' : Alike u u') :
    Alike (if c then r else u) (if c then r' else u') := by
  split
  · exact h
  · exact h'

theorem Blind.respects (h : Blind g) : Respects Alike (modify g : RM PUnit) := respects_modify fun _ _ => h.alike

/-- What is read of the state does not depend on the learned routes. -/
theorem respects_read {f : Routing → RM α} (hf : ∀ r t, f { r with learnedRoutes := t } = f r)
    (h : ∀ r, Respects Alike (f r)) : Respects Alike (get >>= f) := by
  refine respects_get_bind fun r r' hr => ?_
  have hsame : f r' = f r := by
    obtain ⟨t, rfl, -⟩ := hr
    exact hf r t
  rw [hsame]
  exact h r r r' hr

end

/-! ### Next hops -/

section
variable {S : Suite} {G : Schnorr} {cfg : RoutingConfig} {env : RoutingEnv} {t t' : LearnedRouteTable} {r r' : Routing}
  {p : PeerId}

theorem usablePeer_alike (h : t.Alike t') (destNodeHex : NodeAddr) (excludedPeer : Option PeerId) (minMtu : Nat) :
    usablePeer S env destNodeHex excludedPeer minMtu t' = usablePeer S env destNodeHex excludedPeer minMtu t := by
  have hmtu (q : PeerId) : pathMtuFor S env destNodeHex q t' = pathMtuFor S env destNodeHex q t := by
    unfold pathMtuFor
    rw [h.pathMtu]
  funext nodeHex
  unfold usablePeer
  simp only [hmtu]

theorem selectLearned_alike (h : t.Alike t') (destNodeHex : NodeAddr) (excludedPeer : Option PeerId) (minMtu : Nat) :
    (selectLearned S cfg env destNodeHex excludedPeer minMtu t').1 =
        (selectLearned S cfg env destNodeHex excludedPeer minMtu t).1 ∧
      (selectLearned S cfg env destNodeHex excludedPeer minMtu t).2.Alike
        (selectLearned S cfg env destNodeHex excludedPeer minMtu t').2 := by
  unfold selectLearned
  rw [usablePeer_alike h]
  cases cfg.routingMode with
  | replyLearned => exact ⟨h.selectNextHop.1.symm, h.selectNextHop.2⟩
  | tree => exact ⟨rfl, h⟩

theorem treeOrDefault_alike (h : Alike r r') (destNodeHex : NodeAddr) (excludedPeer : Option PeerId) (minMtu : Nat) :
    treeOrDefault S cfg env destNodeHex excludedPeer minMtu r' = treeOrDefault S cfg env destNodeHex excludedPeer minMtu r := by
  obtain ⟨t, rfl, ht⟩ := h
  unfold treeOrDefault
  dsimp only
  rw [usablePeer_alike ht]

theorem nextHopFor_alike (h : Alike r r') (destNodeHex : NodeAddr) (excludedPeer : Option PeerId) (minMtu : Nat) :
    (nextHopFor S cfg env destNodeHex excludedPeer minMtu r').1 = (nextHopFor S cfg env destNodeHex excludedPeer minMtu r).1 ∧
      Alike (nextHopFor S cfg env destNodeHex excludedPeer minMtu r).2
        (nextHopFor S cfg env destNodeHex excludedPeer minMtu r').2 := by
  obtain ⟨t, rfl, ht⟩ := h
  obtain ⟨hsame, hselected⟩ := @selectLearned_alike S cfg env r.learnedRoutes t ht destNodeHex excludedPeer minMtu
  unfold nextHopFor
  dsimp only
  rw [usablePeer_alike ht]
  cases usablePeer S env destNodeHex excludedPeer minMtu r.learnedRoutes destNodeHex with
  | some direct => exact ⟨rfl, t, rfl, ht⟩
  | none =>
    dsimp only
    rw [hsame]
    have halike : Alike { r with learnedRoutes := (selectLearned S cfg env destNodeHex excludedPeer minMtu r.learnedRoutes).2 }
        { r with learnedRoutes := (selectLearned S cfg env destNodeHex excludedPeer minMtu t).2 } := ⟨_, rfl, hselected⟩
    cases (selectLearned S cfg env destNodeHex excludedPeer minMtu r.learnedRoutes).1 with
    | some nodeHex =>
      refine ⟨?_, halike⟩
      dsimp only
      rw [usablePeer_alike hselected]
    | none => exact ⟨treeOrDefault_alike halike _ _ _, halike⟩

theorem respects_nextHop (destNodeHex : NodeAddr) (excludedPeer : Option PeerId) (minMtu : Nat) :
    Respects Alike (nextHop S cfg env destNodeHex excludedPeer minMtu) := by
  intro r r' h
  obtain ⟨hsame, halike⟩ := @nextHopFor_alike S cfg env r r' h destNodeHex excludedPeer minMtu
  exact twin_of_ok (t := (nextHopFor S cfg env destNodeHex excludedPeer minMtu r).2) rfl (by rw [← hsame]; rfl) halike

theorem alike_learnReverseRoute (destinationNodeHex : NodeAddr) (nextHop : PeerId) (pathMtu : Option Nat) (h : Alike r r') :
    Alike (learnReverseRoute S cfg env destinationNodeHex nextHop pathMtu r)
      (learnReverseRoute S cfg env destinationNodeHex nextHop pathMtu r') := by
  obtain ⟨t, rfl, ht⟩ := h
  unfold learnReverseRoute
  split
  · exact ⟨t, rfl, ht⟩
  · split
    · exact ⟨t, rfl, ht⟩
    · exact ⟨_, rfl, ht.learn _ _ _⟩

/-! ### Announcements -/

theorem blind_modifyRole (f : PeerRole → PeerRole) : Blind (modifyRole p f) := fun _ _ => rfl

theorem blind_modifyReverse (rid : ReverseId) (f : LookupReversePath → LookupReversePath) : Blind (modifyReverse rid f) :=
  fun _ _ => rfl

theorem blind_later (task : RoutingTask) : Blind (later task) := fun _ _ => rfl

theorem blind_transmit (cause : SendCause) (msgType : Nat) (payload : Bytes) : Blind (transmit env cause p msgType payload) :=
  fun _ _ => rfl

theorem blind_sendLinkMessage (msgType : Nat) (payload : Bytes) : Blind (sendLinkMessage env p msgType payload) :=
  fun _ _ => rfl

theorem respects_sendTreeAnnounce : Respects Alike (sendTreeAnnounce S G cfg env p) := by
  unfold sendTreeAnnounce
  refine Respects.ite (fun _ => respects_pure _) fun _ => Respects.ite (fun _ => ?_) fun _ => ?_
  · refine respects_read (fun _ _ => rfl) fun r => Respects.ite (fun _ => ?_) fun _ => ?_
    · exact (blind_sendLinkMessage _ _).respects.bind fun _ => respects_pure _
    · refine Blind.respects (fun _ _ => rfl) |>.bind fun _ => respects_read (fun _ _ => rfl) fun r => ?_
      exact (blind_sendLinkMessage _ _).respects.bind fun _ => respects_pure _
  · refine respects_read (fun _ _ => rfl) fun r => (respects_lift _).bind fun encoded => ?_
    exact (blind_sendLinkMessage _ _).respects.bind fun _ => respects_pure _

theorem alike_sendTreeAnnounceToAll (h : Alike r r') :
    Alike (sendTreeAnnounceToAll S G cfg env r) (sendTreeAnnounceToAll S G cfg env r') :=
  related_foldl (f := fun r p => settled (discard (sendTreeAnnounce S G cfg env p)) r)
    (fun _ _ _ hs => respects_sendTreeAnnounce.discard.after hs) _ h

theorem respects_sendFilter : Respects Alike (sendFilter S cfg env p) := by
  unfold sendFilter
  refine Respects.ite (fun _ => respects_pure _) fun _ => respects_get_bind fun r r' h => ?_
  obtain ⟨t, rfl, ht⟩ := h
  have halike : Alike r { r with learnedRoutes := t } := ⟨t, rfl, ht⟩
  refine twin_lift_bind (z := outgoingFilterFor S cfg env p r) halike fun filter _ => ?_
  refine Twin.ite (fun _ => respects_pure _ _ _ halike) fun _ => ?_
  refine Twin.bind (twin_set ⟨t, rfl, ht⟩) fun _ => ?_
  refine (respects_lift _).bind fun encoded => (blind_sendLinkMessage _ _).respects.bind fun _ => ?_
  exact Respects.ite (fun _ => (blind_later _).respects.bind fun _ => respects_pure _) fun _ => respects_pure _

theorem alike_bloomSendAll (excludedPeer : Option PeerId) (h : Alike r r') :
    Alike (bloomSendAll S cfg env excludedPeer r) (bloomSendAll S cfg env excludedPeer r') := by
  unfold bloomSendAll
  split
  · exact h
  · exact related_foldl (f := fun r p => settled (discard (sendFilter S cfg env p)) r)
      (fun _ _ _ hs => respects_sendFilter.discard.after hs) _ h

theorem blind_scheduleTreeAnnounce : Blind (scheduleTreeAnnounce cfg p) := by
  have hfilter : Blind fun r => if !cfg.strictClient ∧ !(r.roles p).filterAnnounced then
      later (.filterAnnounce p) (r.modifyRole p fun role => { role with filterAnnounced := true }) else r :=
    Blind.ite (fun _ _ => Iff.rfl) (fun _ _ => rfl) blind_id
  have htree : Blind fun r => if (r.roles p).treeAnnounced then r
      else later (.treeAnnounce p) (r.modifyRole p fun role => { role with treeAnnounced := true }) :=
    Blind.ite (fun _ _ => Iff.rfl) blind_id fun _ _ => rfl
  exact hfilter.comp htree

theorem alike_announceTimer {send : RM Bool} (hsend : Respects Alike send) (failed : RoutingTask) (h : Alike r r') :
    Alike (announceTimer send failed r) (announceTimer send failed r') := by
  unfold announceTimer
  rcases (hsend r r' h).cases with ⟨ok, u, u', hx, hy, hu⟩ | ⟨e, u, u', hx, hy, hu⟩
  · rw [hx, hy]
    cases ok with
    | true => exact hu
    | false => exact (blind_later failed).alike hu
  · rw [hx, hy]
    exact (blind_later failed).alike hu

theorem alike_refreshClientRole (h : Alike r r') :
    Alike (refreshClientRole S G cfg env r) (refreshClientRole S G cfg env r') := by
  unfold refreshClientRole
  split
  · exact alike_sendTreeAnnounceToAll h
  · exact h

theorem alike_removePeer (peerNodeAddr : NodeAddr) (h : Alike r r') :
    Alike (removePeer S G cfg env peerNodeAddr r) (removePeer S G cfg env peerNodeAddr r') := by
  obtain ⟨t, rfl, ht⟩ := h
  unfold removePeer
  dsimp only
  have hremoved : Alike { r with treeState := (r.treeState.removePeer peerNodeAddr env.nowSeconds).2 }
      { r with treeState := (r.treeState.removePeer peerNodeAddr env.nowSeconds).2, learnedRoutes := t } := ⟨t, rfl, ht⟩
  have hannounced := @alike_ite _ _ ((r.treeState.removePeer peerNodeAddr env.nowSeconds).1 = true) _ _ _
    (@alike_sendTreeAnnounceToAll S G cfg env _ _ hremoved) hremoved
  exact alike_ite (alike_bloomSendAll none hannounced) hannounced

theorem respects_handleClientSupport (payload : Bytes) : Respects Alike (handleClientSupport S G cfg env p payload) := by
  unfold handleClientSupport
  refine respects_read (fun _ _ => rfl) fun r => Respects.ite (fun _ => respects_pure _) fun _ => ?_
  refine (blind_modifyRole _).respects.bind fun _ => Respects.ite (fun _ => ?_) fun _ => ?_
  · exact respects_sendTreeAnnounce.discard
  · exact (blind_sendLinkMessage _ _).respects

theorem respects_handleClientOnly (payload : Bytes) : Respects Alike (handleClientOnly S G cfg env p payload) := by
  unfold handleClientOnly
  refine Respects.ite (fun _ => respects_pure _) fun _ => respects_read (fun _ _ => rfl) fun r => ?_
  refine Respects.ite (fun _ => respects_pure _) fun _ => (blind_modifyRole _).respects.bind fun _ => ?_
  refine Respects.ite (fun _ => (blind_modifyRole _).respects.bind fun _ => ?_) fun _ => respects_pure _
  refine (respects_modify fun _ _ h => alike_removePeer _ h).bind fun _ => ?_
  exact respects_modify fun _ _ h => alike_bloomSendAll none h

theorem respects_handleTreeAnnounce (payload : Bytes) : Respects Alike (handleTreeAnnounce S G cfg env p payload) := by
  unfold handleTreeAnnounce
  refine respects_read (fun _ _ => rfl) fun r => (respects_lift _).bind fun announced => ?_
  cases announced with
  | none => exact respects_pure _
  | some announced =>
    refine (blind_modifyRole _).respects.bind fun _ => respects_get_bind fun r r' h => ?_
    obtain ⟨t, rfl, ht⟩ := h
    refine Twin.bind (twin_set ⟨t, rfl, ht⟩) fun _ => ?_
    have hfilters {c c' : Prop} [Decidable c] [Decidable c'] : Respects Alike (if c then
        if c' then (modify (later (.bloomSendAll none)) : RM PUnit) else modify (bloomSendAll S cfg env none) else pure ⟨⟩) :=
      Respects.ite (fun _ => Respects.ite (fun _ => (blind_later _).respects) fun _ =>
        respects_modify fun _ _ h => alike_bloomSendAll none h) fun _ => respects_pure _
    refine Respects.ite (fun _ => ?_) fun _ => hfilters
    exact (respects_modify fun _ _ h => alike_sendTreeAnnounceToAll h).bind fun _ => hfilters

theorem respects_handleFilterAnnounce (payload : Bytes) : Respects Alike (handleFilterAnnounce S cfg env p payload) := by
  unfold handleFilterAnnounce
  refine (respects_lift _).bind fun announce => respects_read (fun _ _ => rfl) fun r => ?_
  refine Respects.ite (fun _ => respects_pure _) fun _ => Respects.ite (fun _ => respects_pure _) fun _ => ?_
  refine (blind_modifyRole _).respects.bind fun _ => respects_read (fun _ _ => rfl) fun r => ?_
  exact Respects.ite (fun _ => respects_modify fun _ _ h => alike_bloomSendAll _ h) fun _ => respects_pure _

/-! ### Coordinates, reverse paths and resolutions -/

theorem blind_cacheCoordinates (nodeAddr : NodeAddr) (coords : List NodeAddr) : Blind (cacheCoordinates nodeAddr coords) :=
  Blind.ite (fun _ _ => Iff.rfl) (fun _ _ => rfl) blind_id

theorem blind_cacheEnds (datagram : SessionDatagram) (srcCoords destCoords : List NodeAddr) :
    Blind (cacheEnds datagram srcCoords destCoords) :=
  (blind_cacheCoordinates _ _).comp (blind_cacheCoordinates _ _)

theorem blind_cacheSessionCoordinates (datagram : SessionDatagram) : Blind (cacheSessionCoordinates datagram) := by
  intro r t
  unfold cacheSessionCoordinates
  dsimp only
  split
  · cases decodeSessionSetup datagram.payload with
    | ok setup => exact blind_cacheEnds _ _ _ r t
    | error e => rfl
  · split
    · cases decodeSessionAck datagram.payload with
      | ok ack => exact blind_cacheEnds _ _ _ r t
      | error e => rfl
    · split
      · cases decodeFspEstablished datagram.payload with
        | ok established => exact blind_cacheEnds _ _ _ r t
        | error e => rfl
      · rfl

theorem blind_deleteReverse (key : ReverseKey) : Blind (deleteReverse key) := fun _ _ => rfl

theorem blind_pruneLookupReversePaths (nowMs : ℚ) : Blind (pruneLookupReversePaths nowMs) := fun _ _ => rfl

theorem blind_reserveLookupReversePath : Blind reserveLookupReversePath := by
  intro r t
  obtain ⟨_, _, paths, _⟩ := r
  unfold reserveLookupReversePath
  dsimp only
  split
  · rfl
  · cases paths with
    | nil => rfl
    | cons oldest rest => rfl

theorem blind_addReverse (key : ReverseKey) (reverse : LookupReversePath) : Blind (addReverse key reverse) :=
  blind_reserveLookupReversePath.comp (k := fun r => { r with
    lookupReversePaths := r.lookupReversePaths.set key r.reverses.length, reverses := r.reverses ++ [reverse] }) fun _ _ => rfl

theorem blind_addForwarded (rid : ReverseId) (nextHops : Finset NodeAddr) : Blind (addForwarded rid nextHops) :=
  blind_modifyReverse _ _

theorem blind_dropForwarded (rid : ReverseId) (nextHop : NodeAddr) : Blind (dropForwarded rid nextHop) :=
  blind_modifyReverse _ _

theorem blind_foldl {γ : Type} {f : Routing → γ → Routing} (hf : ∀ c, Blind fun r => f r c) (cs : List γ) :
    Blind fun r => cs.foldl f r := by
  induction cs with
  | nil => exact blind_id
  | cons c cs ih => exact (hf c).comp ih

theorem blind_transmitAll (cause : SendCause) (peers : List PeerId) (msgType : Nat) (payload : Bytes) :
    Blind (transmitAll env cause peers msgType payload) :=
  blind_foldl (fun _ => blind_transmit _ _ _) peers

theorem respects_resolveRoute (destNodeAddr : NodeAddr) : Respects Alike (resolveRoute destNodeAddr) := by
  unfold resolveRoute
  refine respects_get_bind fun r r' h => ?_
  obtain ⟨t, rfl, ht⟩ := h
  have halike : Alike r { r with learnedRoutes := t } := ⟨t, rfl, ht⟩
  dsimp only
  cases r.pendingRouteResolutions.get destNodeAddr with
  | some promise => exact respects_pure _ _ _ halike
  | none =>
    refine Twin.ite (fun _ => respects_throw _ _ _ halike) fun _ => ?_
    exact Twin.bind (twin_set ⟨t, rfl, ht⟩) fun _ => respects_pure _

theorem blind_finishResolution (destNodeAddr : NodeAddr) (promise : Nat) (owner : Bool) :
    Blind (finishResolution destNodeAddr promise owner) :=
  Blind.ite (fun _ _ => Iff.rfl) (fun _ _ => rfl) blind_id

/-! ### Lookups -/

theorem respects_answerLookup (request : LookupRequest) : Respects Alike (answerLookup S G cfg env p request) := by
  unfold answerLookup
  refine respects_read (fun _ _ => rfl) fun r => (respects_lift _).bind fun proofBytes => (respects_lift _).bind fun payload => ?_
  exact (blind_sendLinkMessage _ _).respects

theorem alike_resolveAndForwardLookup (key : ReverseKey) (rid : ReverseId) (target : NodeAddr) (h : Alike r r') :
    Alike (resolveAndForwardLookup key rid p target r) (resolveAndForwardLookup key rid p target r') := by
  unfold resolveAndForwardLookup
  rcases (respects_resolveRoute target r r' h).cases with ⟨a, u, u', hx, hy, hu⟩ | ⟨e, u, u', hx, hy, hu⟩
  · rw [hx, hy]
    exact (blind_later _).alike hu
  · rw [hx, hy]
    exact hu

theorem respects_forwardTo (key : ReverseKey) (rid : ReverseId) (request : LookupRequest) (nextHops : List PeerId) :
    Respects Alike (forwardTo S env key rid request nextHops) := by
  unfold forwardTo
  refine Respects.ite (fun _ => respects_pure _) fun _ => (blind_addForwarded _ _).respects.bind fun _ => ?_
  refine (respects_lift _).bind fun encoded => (blind_transmitAll _ _ _ _).respects.bind fun _ => ?_
  exact (blind_later _).respects

theorem respects_pursue (key : ReverseKey) (rid : ReverseId) (request : LookupRequest) (resolving : Bool)
    (nextHops : List PeerId) : Respects Alike (pursue S env p key rid request resolving nextHops) := by
  unfold pursue
  refine Respects.ite (fun _ => ?_) fun _ => respects_forwardTo _ _ _ _
  refine Respects.bind (respects_modify fun _ _ h => ?_) fun _ => respects_forwardTo _ _ _ _
  exact alike_resolveAndForwardLookup _ _ _ h

theorem respects_passOn (request : LookupRequest) (key : ReverseKey) (existing : Option (ReverseId × LookupReversePath)) :
    Respects Alike (passOn S cfg env p request key existing) := by
  unfold passOn
  refine (respects_nextHop _ _ _).bind fun directOrLearned => respects_read (fun _ _ => rfl) fun r => ?_
  refine Respects.ite (fun _ => respects_pure _) fun _ => ?_
  cases existing with
  | some existing => exact respects_pursue _ _ _ _ _
  | none => exact (blind_addReverse _ _).respects.bind fun _ => respects_pursue _ _ _ _ _

theorem respects_handleLookupRequest (request : LookupRequest) :
    Respects Alike (handleLookupRequest S G cfg env p request) := by
  unfold handleLookupRequest
  refine Respects.ite (fun _ => respects_pure _) fun _ => Respects.ite (fun _ => respects_answerLookup _) fun _ => ?_
  refine Respects.ite (fun _ => respects_pure _) fun _ => (blind_pruneLookupReversePaths _).respects.bind fun _ => ?_
  refine respects_read (fun _ _ => rfl) fun r => ?_
  cases r.reverseAt (lookupReverseKey request.requestId request.target) with
  | none => exact respects_passOn _ _ _
  | some found =>
    refine Respects.ite (fun _ => respects_pure _) fun _ => ?_
    exact (blind_modifyReverse _ _).respects.bind fun _ => respects_passOn _ _ _

theorem blind_finishForward (key : ReverseKey) (rid : ReverseId) (results : List (NodeAddr × Bool)) :
    Blind (finishForward key rid results) := by
  have hdropped := blind_foldl (f := fun r (e : NodeAddr × Bool) => dropForwarded rid e.1 r)
    (fun e => blind_dropForwarded rid e.1) (results.filter fun e => !e.2)
  refine hdropped.comp (k := fun r => if results.all (fun e => !e.2) ∧
    (r.reverses[rid]?).any (fun reverse => reverse.forwardedNextHops = ∅) then deleteReverse key r else r) ?_
  exact Blind.ite (fun _ _ => Iff.rfl) (blind_deleteReverse key) blind_id

theorem respects_forwardOne (rid : ReverseId) (request : LookupRequest) : Respects Alike (forwardOne S env rid request p) := by
  unfold forwardOne
  refine (blind_addForwarded _ _).respects.bind fun _ => (respects_lift _).bind fun encoded => ?_
  exact (blind_transmit _ _ _).respects.bind fun _ => (blind_later _).respects

theorem respects_forwardResolved (key : ReverseKey) (rid : ReverseId) : Respects Alike (forwardResolved S cfg env key rid p) := by
  unfold forwardResolved
  refine respects_read (fun _ _ => rfl) fun r => ?_
  cases r.reverseAt key with
  | none => exact respects_pure _
  | some found =>
    refine Respects.ite (fun _ => respects_pure _) fun _ => (respects_nextHop _ _ _).bind fun hop => ?_
    cases hop with
    | none => exact respects_pure _
    | some hop => exact Respects.ite (fun _ => respects_pure _) fun _ => respects_forwardOne _ _

theorem alike_replayPendingLookupsFor (h : Alike r r') :
    Alike (replayPendingLookupsFor S env p r) (replayPendingLookupsFor S env p r') := by
  unfold replayPendingLookupsFor
  refine alike_ite h (alike_ite h ?_)
  have hpruned := (blind_pruneLookupReversePaths env.nowMs).alike h
  have hpending : pendingLookupsFor S env p (pruneLookupReversePaths env.nowMs r') =
      pendingLookupsFor S env p (pruneLookupReversePaths env.nowMs r) := by
    obtain ⟨t, rfl, -⟩ := h
    rfl
  dsimp only
  rw [hpending]
  exact related_foldl (f := fun r (e : ReverseId × LookupRequest) => settled (forwardOne S env e.1 e.2 p) r)
    (fun _ _ e hs => (respects_forwardOne e.1 e.2).after hs) _ hpruned

theorem respects_forwardLookupResponse (payload : Bytes) : Respects Alike (forwardLookupResponse S cfg env p payload) := by
  unfold forwardLookupResponse
  refine (respects_lift _).bind fun response => (blind_pruneLookupReversePaths _).respects.bind fun _ => ?_
  refine respects_read (fun _ _ => rfl) fun r => ?_
  cases r.reverseAt (lookupReverseKey response.requestId response.target) with
  | none => exact respects_pure _
  | some found =>
    refine Respects.ite (fun _ => respects_pure _) fun _ => Respects.ite (fun _ => respects_pure _) fun _ => ?_
    refine (blind_cacheCoordinates _ _).respects.bind fun _ => ?_
    refine Respects.bind (respects_modify fun _ _ h => alike_learnReverseRoute _ _ _ h) fun _ => ?_
    refine (blind_deleteReverse _).respects.bind fun _ => (respects_lift _).bind fun encoded => ?_
    exact (blind_transmit _ _ _).respects

theorem respects_handleOriginLookupResponse (payload : Bytes) :
    Respects Alike (handleOriginLookupResponse S G cfg env p payload) := by
  unfold handleOriginLookupResponse
  refine (respects_lift _).bind fun response => respects_read (fun _ _ => rfl) fun r => ?_
  cases r.originLookups.findRequest response.requestId with
  | none => exact respects_pure _
  | some lid =>
    dsimp only
    cases r.originLookups.objs[lid]? with
    | none => exact respects_pure _
    | some pending =>
      refine Respects.ite (fun _ => respects_pure _) fun _ => Respects.ite (fun _ => respects_pure _) fun _ => ?_
      refine (respects_lift _).bind fun valid => Respects.ite (fun _ => respects_pure _) fun _ => ?_
      refine Respects.ite (fun _ => respects_pure _) fun _ => (blind_cacheCoordinates _ _).respects.bind fun _ => ?_
      refine Respects.bind (respects_modify fun _ _ h => alike_learnReverseRoute _ _ _ h) fun _ => ?_
      exact (Blind.respects fun _ _ => rfl).bind fun _ => respects_pure _

theorem respects_sendLookup (lid : LookupId) (request : LookupRequest) (excludedPeer : Option PeerId) :
    Respects Alike (sendLookup S cfg env lid request excludedPeer) := by
  unfold sendLookup
  refine respects_read (fun _ _ => rfl) fun r => ?_
  cases r.originLookups.objs[lid]? with
  | none => exact respects_pure _
  | some pending => exact (respects_lift _).bind fun encoded => (blind_transmitAll _ _ _ _).respects

theorem respects_tryRound (lid : LookupId) (request : LookupRequest) (excludedPeer : Option PeerId) (first : Bool) :
    Respects Alike (tryRound S cfg env lid request excludedPeer first) := by
  unfold tryRound
  refine Respects.ite (fun _ => respects_read (fun _ _ => rfl) fun r => ?_) fun _ => respects_sendLookup _ _ _
  exact (respects_lift _).bind fun g => (Blind.respects fun _ _ => rfl).bind fun _ => respects_sendLookup _ _ _

theorem alike_retryRound (lid : LookupId) (request : LookupRequest) (excludedPeer : Option PeerId) (first : Bool)
    (h : Alike r r') :
    Alike (retryRound S cfg env lid request excludedPeer first r) (retryRound S cfg env lid request excludedPeer first r') := by
  have hpending : r'.originLookups = r.originLookups := by
    obtain ⟨t, rfl, -⟩ := h
    rfl
  unfold retryRound
  rw [hpending]
  refine alike_ite ?_ h
  rcases (respects_tryRound lid request excludedPeer first r r' h).cases with ⟨a, u, u', hx, hy, hu⟩ | ⟨e, u, u', hx, hy, hu⟩
  · rw [hx, hy]
    exact (blind_later _).alike hu
  · rw [hx, hy]
    exact Blind.alike (g := fun r => { r with originLookups := r.originLookups.fail lid e }) (fun _ _ => rfl) hu

theorem respects_startLookup (target : NodeAddr) (targetPubkey : Option Bytes) (minMtu : Nat) (excludedPeer : Option PeerId) :
    Respects Alike (startLookup S cfg env target targetPubkey minMtu excludedPeer) := by
  unfold startLookup
  refine respects_read (fun _ _ => rfl) fun r => (respects_lift _).bind fun created => ?_
  refine (Blind.respects fun _ _ => rfl).bind fun _ => respects_read (fun _ _ => rfl) fun r => ?_
  refine Respects.bind (respects_modify fun _ _ h => alike_retryRound _ _ _ _ h) fun _ => ?_
  exact respects_pure _

theorem respects_ensureFirstContactRoute (target : NodeAddr) (targetPubkey : Bytes) :
    Respects Alike (ensureFirstContactRoute S cfg env target targetPubkey) := by
  unfold ensureFirstContactRoute
  refine respects_read (fun _ _ => rfl) fun r => Respects.ite (fun _ => ?_) fun _ => respects_pure _
  exact (respects_startLookup _ _ _ _).discard

/-! ### Datagrams -/

section
variable {d : OutboundSessionDatagram} {hop : PeerId} {minMtu : Nat} {frames : Option (Bytes × List Bytes)}

theorem respects_sendFrame (payload : Bytes) (rest : List Bytes) : Respects Alike (sendFrame env d hop payload rest) := by
  unfold sendFrame
  refine (respects_lift _).bind fun encoded => (blind_transmit _ _ _).respects.bind fun _ => ?_
  exact Respects.ite (fun _ => (blind_later _).respects) fun _ => respects_pure _

theorem respects_refreshTransitRoute : Respects Alike (refreshTransitRoute S cfg env d minMtu frames) := by
  unfold refreshTransitRoute
  refine respects_read (fun _ _ => rfl) fun r => ?_
  cases r.originLookups.get d.destAddr with
  | some lid => exact (blind_later _).respects
  | none =>
    refine Respects.ite (fun _ => respects_throw _) fun _ => (respects_startLookup _ _ _ _).bind fun lid => ?_
    exact (blind_later _).respects

theorem respects_sendFrames (frames : List Bytes) : Respects Alike (sendFrames S cfg env d hop frames) := by
  cases frames with
  | nil => exact respects_pure _
  | cons payload rest =>
    unfold sendFrames
    refine respects_get_bind fun r r' h => ?_
    have hmtu : pathMtuFor S env d.destAddr hop r'.learnedRoutes = pathMtuFor S env d.destAddr hop r.learnedRoutes := by
      obtain ⟨t, rfl, ht⟩ := h
      unfold pathMtuFor
      rw [ht.pathMtu]
    rw [hmtu]
    refine Twin.ite (fun _ => ?_) fun _ => respects_sendFrame payload rest r r' h
    refine (respects_nextHop _ _ _ r r' h).bind fun found => ?_
    cases found with
    | some hop => exact respects_sendFrame payload rest
    | none => exact respects_refreshTransitRoute

theorem respects_dispatch (found : Option PeerId) : Respects Alike (dispatch S cfg env d found) := by
  cases found with
  | none => exact respects_throw _
  | some hop => exact respects_sendFrames _

theorem respects_sendSessionDatagram : Respects Alike (sendSessionDatagram S cfg env d) := by
  unfold sendSessionDatagram
  refine (respects_nextHop _ _ _).bind fun found => ?_
  cases found with
  | some hop => exact respects_dispatch _
  | none =>
    refine Respects.ite (fun _ => ?_) fun _ => respects_refreshTransitRoute
    exact (respects_resolveRoute _).bind fun resolution => (blind_later _).respects

theorem respects_refreshed (lid : LookupId) (own : Bool) : Respects Alike (refreshed S cfg env d lid own minMtu frames) := by
  unfold refreshed
  refine respects_read (fun _ _ => rfl) fun r => ?_
  cases r.originLookups.objs[lid]? with
  | none => exact respects_pure _
  | some pending =>
    refine Respects.ite (fun _ => respects_throw _) fun _ => Respects.ite (fun _ => ?_) fun _ => respects_refreshTransitRoute
    cases frames with
    | none => exact (respects_nextHop _ _ _).bind fun found => respects_dispatch found
    | some f =>
      dsimp only
      cases env.selectCarrier S (pending.nextHop.bind env.getPeerByNodeAddr) d.previousHop minMtu with
      | none => exact respects_throw _
      | some hop => exact respects_sendFrame _ _

end

theorem respects_sendFspReplyToward (remoteNodeAddr : NodeAddr) (fspFrame : Bytes) :
    Respects Alike (sendFspReplyToward cfg env remoteNodeAddr fspFrame p) := by
  unfold sendFspReplyToward
  exact (respects_lift _).bind fun encoded => (blind_sendLinkMessage _ _).respects

theorem respects_assertNodeAllowed (nodeAddr : NodeAddr) : Respects Alike (assertNodeAllowed env nodeAddr) :=
  Respects.ite (fun _ => respects_throw _) fun _ => respects_pure _

theorem respects_handleSessionDatagram (payload : Bytes) : Respects Alike (handleSessionDatagram S cfg env p payload) := by
  unfold handleSessionDatagram
  refine (respects_lift _).bind fun datagram => (respects_assertNodeAllowed _).bind fun _ => ?_
  refine (respects_assertNodeAllowed _).bind fun _ => (blind_cacheSessionCoordinates _).respects.bind fun _ => ?_
  refine Respects.ite (fun _ => Blind.respects fun _ _ => rfl) fun _ => ?_
  exact Respects.ite (fun _ => respects_pure _) fun _ => respects_sendSessionDatagram

/-! ### Messages, tasks and events -/

theorem respects_handleLookupRequestMessage (payload : Bytes) :
    Respects Alike (handleLookupRequestMessage S G cfg env p payload) := by
  unfold handleLookupRequestMessage
  refine (respects_lift _).bind fun request => (respects_assertNodeAllowed _).bind fun _ => ?_
  refine (respects_assertNodeAllowed _).bind fun _ => respects_read (fun _ _ => rfl) fun r => ?_
  exact Respects.ite (fun _ => respects_pure _) fun _ => respects_handleLookupRequest _

theorem respects_handleLookupResponseMessage (payload : Bytes) :
    Respects Alike (handleLookupResponseMessage S G cfg env p payload) := by
  unfold handleLookupResponseMessage
  refine (respects_handleOriginLookupResponse _).bind fun own => ?_
  exact Respects.ite (fun _ => (blind_later _).respects) fun _ => respects_pure _

theorem respects_handleLinkMessage (msgType : Nat) (payload : Bytes) :
    Respects Alike (handleLinkMessage S G cfg env p msgType payload) := by
  unfold handleLinkMessage
  refine Respects.ite (fun _ => respects_handleClientSupport _) fun _ => ?_
  refine Respects.ite (fun _ => respects_handleClientOnly _) fun _ => ?_
  refine Respects.ite (fun _ => respects_handleTreeAnnounce _) fun _ => ?_
  refine Respects.ite (fun _ => respects_handleFilterAnnounce _) fun _ => ?_
  refine Respects.ite (fun _ => respects_handleLookupRequestMessage _) fun _ => ?_
  refine Respects.ite (fun _ => respects_handleLookupResponseMessage _) fun _ => ?_
  exact Respects.ite (fun _ => respects_handleSessionDatagram _) fun _ => respects_pure _

theorem respects_runTask (task : RoutingTask) : Respects Alike (runTask S G cfg env task) := by
  cases task with
  | treeAnnounce p => exact respects_modify fun _ _ h => alike_announceTimer respects_sendTreeAnnounce _ h
  | treeAnnounceFailed p => exact (blind_modifyRole _).respects
  | filterAnnounce p => exact respects_modify fun _ _ h => alike_announceTimer respects_sendFilter _ h
  | filterAnnounceFailed p => exact (blind_modifyRole _).respects
  | filterFailed p sequence previous => exact (blind_modifyRole _).respects
  | bloomSendAll excludedPeer => exact respects_modify fun _ _ h => alike_bloomSendAll _ h
  | forwarded key rid results => exact (blind_finishForward _ _ _).respects
  | sent rid nextHop ok => exact Respects.ite (fun _ => respects_pure _) fun _ => (blind_dropForwarded _ _).respects
  | resolveLookup key rid source promise owner =>
    refine (blind_finishResolution _ _ _).respects.bind fun _ => respects_read (fun _ _ => rfl) fun r => ?_
    exact Respects.ite (fun _ => respects_forwardResolved _ _) fun _ => respects_pure _
  | forwardLookupResponse p payload => exact respects_forwardLookupResponse _
  | retry lid request excludedPeer => exact respects_modify fun _ _ h => alike_retryRound _ _ _ _ h
  | datagramResolving d promise owner =>
    refine (blind_finishResolution _ _ _).respects.bind fun _ => respects_read (fun _ _ => rfl) fun r => ?_
    refine Respects.ite (fun _ => respects_throw _) fun _ => ?_
    exact (respects_nextHop _ _ _).bind fun found => respects_dispatch found
  | datagramRefreshing d lid own minMtu frames => exact respects_refreshed lid own
  | datagramSending d hop frames => exact respects_sendFrames frames

theorem alike_continueTask (index : Nat) (h : Alike r r') :
    Alike (continueTask S G cfg env index r) (continueTask S G cfg env index r') := by
  obtain ⟨t, rfl, ht⟩ := h
  have halike : Alike r { r with learnedRoutes := t } := ⟨t, rfl, ht⟩
  unfold continueTask
  dsimp only
  cases r.tasks[index]? with
  | none => exact halike
  | some task =>
    have hwaits : waits { r with learnedRoutes := t } task = waits r task := by
      cases task <;> rfl
    dsimp only
    rw [hwaits]
    exact alike_ite halike ((respects_runTask task).after ⟨t, rfl, ht⟩)

theorem blind_settleResolution (promise : Nat) (outcome : PromiseState) : Blind (settleResolution promise outcome) :=
  Blind.ite (fun _ _ => Iff.rfl) (fun _ _ => rfl) blind_id

theorem alike_stop (h : Alike r r') : Alike (stop env r) (stop env r') := by
  obtain ⟨t, rfl, -⟩ := h
  exact ⟨LearnedRouteTable.empty, rfl, .empty⟩

/-- Every event takes alike states to alike states. -/
theorem alike_step (e : Event) (h : Alike r r') : Alike (step S G cfg r e) (step S G cfg r' e) := by
  cases e with
  | handleLinkMessage env p msgType payload => exact (respects_handleLinkMessage _ _).after h
  | task env index => exact alike_continueTask index h
  | resolution promise outcome => exact (blind_settleResolution _ _).alike h
  | lookupTimeout lid => exact Blind.alike (g := fun r => { r with originLookups := r.originLookups.fail lid "no route" }) (fun _ _ => rfl) h
  | removePeer env peerNodeAddr => exact alike_removePeer _ h
  | scheduleTreeAnnounce p => exact blind_scheduleTreeAnnounce.alike h
  | refreshClientRole env => exact alike_refreshClientRole h
  | replayPendingLookupsFor env p => exact alike_replayPendingLookupsFor h
  | ensureFirstContactRoute env target targetPubkey => exact (respects_ensureFirstContactRoute _ _).after h
  | sendFspToward env remoteNodeAddr fspFrame => exact respects_sendSessionDatagram.after h
  | sendFspReplyToward env remoteNodeAddr fspFrame previousHop => exact (respects_sendFspReplyToward _ _).after h
  | learnReverseRoute env destination nextHop pathMtu => exact alike_learnReverseRoute _ _ _ h
  | hasUsableRoute env nodeAddr => exact (nextHopFor_alike h _ _ _).2
  | stop env => exact alike_stop h

theorem Alike.log (h : Alike r r') : r'.log = r.log := by
  obtain ⟨t, rfl, -⟩ := h
  rfl

theorem Alike.symm (h : Alike r r') : Alike r' r := by
  obtain ⟨t, rfl, ht⟩ := h
  exact ⟨r.learnedRoutes, rfl, ht.symm⟩

theorem Alike.trans {r'' : Routing} (h : Alike r r') (h' : Alike r' r'') : Alike r r'' := by
  obtain ⟨t, rfl, ht⟩ := h
  obtain ⟨t', rfl, ht'⟩ := h'
  exact ⟨t', rfl, ht.trans ht'⟩

end

/-! ### Queries -/

section
variable (S : Suite) (cfg : RoutingConfig)

/-- A query finds a carrier of the destination itself, or the learned routes are not asked, or at most one of them can be
taken and none has expired. -/
def Unsteered (env : RoutingEnv) (d : NodeAddr) (r : Routing) : Prop :=
  (usablePeer S env d none 0 r.learnedRoutes d).isSome = true ∨ cfg.routingMode = .tree ∨
    r.learnedRoutes.Uncontested d env.nowMs fun nextHop => (usablePeer S env d none 0 r.learnedRoutes nextHop).isSome

namespace Event

def isQuery : Event → Bool
  | hasUsableRoute .. => true
  | _ => false

/-- The event is no query, or it is met in such a state. -/
def Unsteered (r : Routing) : Event → Prop
  | hasUsableRoute env d => Routing.Unsteered S cfg env d r
  | _ => True

end Event

end

section
variable {S : Suite} {G : Schnorr} {cfg : RoutingConfig} {env : RoutingEnv} {d : NodeAddr} {r r' : Routing}

/-- Such a query leaves the state as it is, but for what nothing reads. -/
theorem alike_query (h : Unsteered S cfg env d r) (hr : Alike r r') : Alike (nextHopFor S cfg env d none 0 r).2 r' := by
  obtain ⟨t, rfl, ht⟩ := hr
  unfold nextHopFor
  cases hdirect : usablePeer S env d none 0 r.learnedRoutes d with
  | some direct => exact ⟨t, rfl, ht⟩
  | none =>
    have hselected : (selectLearned S cfg env d none 0 r.learnedRoutes).2.Alike t := by
      rcases h with h | h | h
      · rw [hdirect] at h
        cases h
      · unfold selectLearned
        rw [h]
        exact ht
      · unfold selectLearned
        cases cfg.routingMode with
        | tree => exact ht
        | replyLearned => exact (h.selectNextHop ht.left).symm.trans ht
    dsimp only
    cases (selectLearned S cfg env d none 0 r.learnedRoutes).1 with
    | some nodeHex => exact ⟨t, rfl, hselected⟩
    | none => exact ⟨t, rfl, hselected⟩

theorem alike_new (nowSeconds : Nat) : Alike (new cfg nowSeconds) (new cfg nowSeconds) :=
  ⟨LearnedRouteTable.empty, rfl, .empty⟩

/-- In a run whose queries are met in such states, everything goes to the peers it would have gone to without them. -/
theorem queries_steer_nothing (S : Suite) (G : Schnorr) (cfg : RoutingConfig) (nowSeconds : Nat) (es : List Event)
    (h : Run.Along (fun r e => e.Unsteered S cfg r) (step S G cfg) (new cfg nowSeconds) es) :
    (Run.run (step S G cfg) (new cfg nowSeconds) es).log =
      (Run.run (step S G cfg) (new cfg nowSeconds) (es.filter fun e => !e.isQuery)).log := by
  refine (Alike.log (h.without (fun _ _ e hr => alike_step e hr) (fun r r' e hquery hunsteered hr => ?_)
    (alike_new nowSeconds))).symm
  cases e with
  | hasUsableRoute env d => exact alike_query hunsteered hr
  | _ => cases hquery

end

/-! ### Two neighbours -/

/-- Peers 0 and 1 are two neighbours, found by their addresses. -/
def toyPair : RoutingEnv :=
  { toyNeighbours [0, 1] true with
    getPeerByNodeAddr := fun nodeAddr =>
      if nodeAddr = (toyIdentity 2).nodeAddr then some 0
      else if nodeAddr = (toyIdentity 3).nodeAddr then some 1 else none }

/-- A node that both neighbours have answered for. -/
def toyTarget : NodeAddr := List.replicate 16 9

/-- A route to it that has been selected `selected` times. -/
def toyRoute (n : UInt8) (currentWeight : ℚ) (selected : Nat) : LearnedRoute :=
  { LearnedRouteTable.fresh (toyIdentity n).nodeAddr 0 300000 none with currentWeight, selected }

def toyRoutes (routes : List LearnedRoute) : Routing :=
  { new toyRelay 0 with learnedRoutes := ⟨[(toyTarget, routes)]⟩ }

/-- Routes through neighbour `p` of `toyPair`, heard of at time 0. -/
theorem learn_toy {p : PeerId} {routes routes' : List LearnedRoute}
    (hheard : LearnedRouteTable.heard (toyPair.peerNodeKey toySuite p) 0 (0 + (300 : ℚ) * 1000) none routes = routes')
    (hne : toyTarget ≠ toyPair.peerNodeKey toySuite p) (hsorted : routes'.Pairwise fun a b => compareRoutes a b ≠ .gt)
    (hlength : routes'.length ≤ MAX_REPLY_LEARNED_ROUTES_PER_DESTINATION) :
    learnReverseRoute toySuite toyRelay toyPair toyTarget p none (toyRoutes routes) = toyRoutes routes' := by
  unfold learnReverseRoute
  rw [if_neg (by decide), if_neg (by decide +kernel)]
  have hget : ((toyRoutes routes).learnedRoutes.routes.get toyTarget).getD [] = routes := rfl
  have hlearn : (toyRoutes routes).learnedRoutes.learn toyTarget (toyPair.peerNodeKey toySuite p) toyPair.nowMs
      REPLY_LEARNED_ROUTE_TTL_SECONDS MAX_REPLY_LEARNED_ROUTES_PER_DESTINATION none = ⟨[(toyTarget, routes')]⟩ := by
    unfold LearnedRouteTable.learn
    rw [if_neg (by rintro (h | h); exacts [hne h, absurd h (by decide)]), hget]
    dsimp only
    rw [show LearnedRouteTable.heard (toyPair.peerNodeKey toySuite p) toyPair.nowMs
      (toyPair.nowMs + (REPLY_LEARNED_ROUTE_TTL_SECONDS : ℚ) * 1000) none routes = routes' from hheard,
      LearnedRouteTable.sortAndTruncate_of_pairwise hsorted, List.take_of_length_le hlength]
    rfl
  rw [hlearn]
  rfl

theorem learned_toy : learnReverseRoute toySuite toyRelay toyPair toyTarget 1 none
    (learnReverseRoute toySuite toyRelay toyPair toyTarget 0 none (toyRoutes [])) =
      toyRoutes [toyRoute 2 0 0, toyRoute 3 0 0] := by
  rw [@learn_toy 0 _ [toyRoute 2 0 0] (by decide +kernel) (by decide +kernel) (by decide +kernel) (by decide)]
  exact learn_toy (by decide +kernel) (by decide +kernel) (by decide +kernel) (by decide)

/-- What both neighbours are asked with `toyPair`. -/
def toySends (routes : List LearnedRoute) (nextHop : NodeAddr) : Bool :=
  (usablePeer toySuite toyPair toyTarget none 0 ⟨[(toyTarget, routes)]⟩ nextHop).isSome

/-- A choice among routes whose order does not change. -/
theorem select_toy {routes charged paid : List LearnedRoute} {first : Nat × ℚ} {rest : List (Nat × ℚ)} {sel p : Nat}
    {hop : NodeAddr} (hlive : LearnedRouteTable.retainLive routes 0 = routes) (hne : routes ≠ [])
    (hsend : LearnedRouteTable.sendable id (toySends routes) routes = first :: rest)
    (hrounds : (first :: rest).foldl LearnedRouteTable.candidateRound (routes, first.1) = (charged, sel))
    (hpaid : charged.modify sel (LearnedRouteTable.pay ((first :: rest).map Prod.snd).sum) = paid)
    (hsorted : paid.Pairwise fun a b => compareRoutes a b ≠ .gt) (hhop : paid[sel]?.map LearnedRoute.nextHop = some hop)
    (hdirect : usablePeer toySuite toyPair toyTarget none 0 ⟨[(toyTarget, routes)]⟩ toyTarget = none)
    (hpeer : usablePeer toySuite toyPair toyTarget none 0 ⟨[(toyTarget, paid)]⟩ hop = some p) :
    nextHopFor toySuite toyRelay toyPair toyTarget none 0 (toyRoutes routes) = (some p, toyRoutes paid) := by
  have hselected : selectLearned toySuite toyRelay toyPair toyTarget none 0 ⟨[(toyTarget, routes)]⟩ =
      (some hop, ⟨[(toyTarget, paid)]⟩) := by
    show LearnedRouteTable.selectNextHop id toyTarget 0 (toySends routes) ⟨[(toyTarget, routes)]⟩ = _
    have hget : (⟨[(toyTarget, routes)]⟩ : LearnedRouteTable).routes.get toyTarget = some routes := rfl
    unfold LearnedRouteTable.selectNextHop
    rw [hget]
    dsimp only
    rw [hlive, if_neg hne, hsend]
    dsimp only
    rw [hrounds]
    dsimp only
    rw [hpaid, hhop, LearnedRouteTable.sortAndTruncate_of_pairwise hsorted, List.take_length]
    rfl
  unfold nextHopFor
  rw [show (toyRoutes routes).learnedRoutes = ⟨[(toyTarget, routes)]⟩ from rfl, hdirect]
  dsimp only
  rw [hselected]
  dsimp only
  rw [hpeer]
  rfl

theorem select_first : nextHopFor toySuite toyRelay toyPair toyTarget none 0 (toyRoutes [toyRoute 2 0 0, toyRoute 3 0 0]) =
    (some 0, toyRoutes [toyRoute 2 (-1) 1, toyRoute 3 1 0]) :=
  @select_toy _ [toyRoute 2 1 0, toyRoute 3 1 0] _ (0, 1) [(1, 1)] 0 0 (toyIdentity 2).nodeAddr (by decide +kernel) (by simp)
    (by decide +kernel) (by decide +kernel) (by decide +kernel) (by decide +kernel) (by decide +kernel) (by decide +kernel)
    (by decide +kernel)

theorem select_second : nextHopFor toySuite toyRelay toyPair toyTarget none 0 (toyRoutes [toyRoute 2 (-1) 1, toyRoute 3 1 0]) =
    (some 1, toyRoutes [toyRoute 2 0 1, toyRoute 3 0 1]) :=
  @select_toy _ [toyRoute 2 0 1, toyRoute 3 2 0] _ (0, 1) [(1, 1)] 1 1 (toyIdentity 3).nodeAddr (by decide +kernel) (by simp)
    (by decide +kernel) (by decide +kernel) (by decide +kernel) (by decide +kernel) (by decide +kernel) (by decide +kernel)
    (by decide +kernel)

/-- A datagram goes to the next hop that is found. -/
theorem sendSessionDatagram_of_nextHop {S : Suite} {cfg : RoutingConfig} {env : RoutingEnv} {d : OutboundSessionDatagram}
    {r r' : Routing} {hop : PeerId} (h : nextHopFor S cfg env d.destAddr d.previousHop 0 r = (some hop, r')) :
    settled (sendSessionDatagram S cfg env d) r = settled (dispatch S cfg env d (some hop)) r' := by
  have hnext : (nextHop S cfg env d.destAddr d.previousHop 0).run r = .ok (some hop) r' := by
    show EStateM.Result.ok (nextHopFor S cfg env d.destAddr d.previousHop 0 r).1
      (nextHopFor S cfg env d.destAddr d.previousHop 0 r).2 = _
    rw [h]
  unfold settled after sendSessionDatagram
  rw [EStateM.run_bind, hnext]

/-- The peers that messages have gone to. -/
def sentTo (r : Routing) : List PeerId :=
  r.log.filterMap fun effect =>
    match effect with
    | .send m => some m.peer
    | _ => none

def toyLearned : List Event :=
  [.learnReverseRoute toyPair toyTarget 0 none, .learnReverseRoute toyPair toyTarget 1 none]

set_option maxRecDepth 8000 in
/-- One query, and the frame goes to the other neighbour. -/
theorem query_turns_round_robin :
    sentTo (Run.run (step toySuite toySchnorr toyRelay) (new toyRelay 0)
      (toyLearned ++ [.sendFspToward toyPair toyTarget (some [])])) = [0] ∧
    sentTo (Run.run (step toySuite toySchnorr toyRelay) (new toyRelay 0)
      (toyLearned ++ [.hasUsableRoute toyPair toyTarget, .sendFspToward toyPair toyTarget (some [])])) = [1] := by
  have hlearned : Run.run (step toySuite toySchnorr toyRelay) (new toyRelay 0) toyLearned =
      toyRoutes [toyRoute 2 0 0, toyRoute 3 0 0] := learned_toy
  rw [Run.run_append, Run.run_append, hlearned]
  constructor
  · show sentTo (settled (sendSessionDatagram toySuite toyRelay toyPair
      ⟨64, FSP_DEFAULT_PATH_MTU, toyRelay.identity.nodeAddr, toyTarget, .own (some [])⟩) _) = _
    rw [sendSessionDatagram_of_nextHop select_first]
    decide +kernel
  · show sentTo (settled (sendSessionDatagram toySuite toyRelay toyPair
      ⟨64, FSP_DEFAULT_PATH_MTU, toyRelay.identity.nodeAddr, toyTarget, .own (some [])⟩)
        (nextHopFor toySuite toyRelay toyPair toyTarget none 0 _).2) = _
    rw [select_first, sendSessionDatagram_of_nextHop select_second]
    decide +kernel

theorem queries_steer_nothing_toy :
    let es : List Event := [.learnReverseRoute toyPair toyTarget 0 none, .hasUsableRoute toyPair toyTarget,
      .sendFspToward toyPair toyTarget (some [])]
    es.countP Event.isQuery = 1 ∧
      (Run.run (step toySuite toySchnorr toyRelay) (new toyRelay 0) es).log =
        (Run.run (step toySuite toySchnorr toyRelay) (new toyRelay 0) (es.filter fun e => !e.isQuery)).log := by
  intro es
  have hlearned : step toySuite toySchnorr toyRelay (new toyRelay 0) (.learnReverseRoute toyPair toyTarget 0 none) =
      toyRoutes [toyRoute 2 0 0] :=
    @learn_toy 0 [] [toyRoute 2 0 0] (by decide +kernel) (by decide +kernel) (by decide +kernel) (by decide)
  have hrun : Run.Along (fun r e => e.Unsteered toySuite toyRelay r) (step toySuite toySchnorr toyRelay)
      (new toyRelay 0) es := by
    refine ⟨trivial, ?_, trivial, trivial⟩
    show Unsteered toySuite toyRelay toyPair toyTarget (step _ _ _ _ _)
    rw [hlearned]
    exact .inr (.inr ⟨by decide +kernel, by decide +kernel⟩)
  exact ⟨rfl, queries_steer_nothing toySuite toySchnorr toyRelay 0 es hrun⟩

end Routing
end Fips
