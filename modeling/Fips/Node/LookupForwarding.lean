import Fips.Node.ReversePaths

/-!
# Handlers of lookups

What each handler does to the reverse paths: their invariant is kept, a handler that receives a request makes at
most one reverse path, and next hops are put on record and struck from it as their messages are sent and fail.
-/

namespace Fips
open Exec LittleEndian

/-- The connected peers of a stretch belong to the network `N`, and no two of them have one identity. -/
structure RoutingEnv.Network (S : Suite) (N : Set NodeAddr) (env : RoutingEnv) : Prop where
  known : ∀ p, env.established p = true → env.peerNodeKey S p ∈ N
  distinct : ((env.getPeers.filter env.established).map (env.peerNodeKey S)).Nodup

namespace Routing

/-- A step from `r` to `r'` that makes reverse paths for at most the requests `D`. -/
structure Forwards (S : Suite) (env : RoutingEnv) (D : Multiset LookupRequest) (r r' : Routing) : Prop where
  inv : r'.lookups.Inv
  transit : r'.transit = r.transit
  log : r.log <+: r'.log
  requests : r'.lookups.requests ≤ r.lookups.requests + D
  claimed : ∀ N, env.Network S N → r.lookups.Claimed S N → r'.lookups.Claimed S N

section
variable {S : Suite} {env : RoutingEnv} {D D' : Multiset LookupRequest} {r r' r'' : Routing}

theorem Kept.forwards (h : Kept r r') (hr : r.lookups.Inv) : Forwards S env D r r' := by
  refine ⟨h.lookups ▸ hr, h.transit, h.log, ?_, fun N _ hc => h.lookups ▸ hc⟩
  rw [h.lookups]
  exact Multiset.le_add_right _ _

theorem forwards_refl (hr : r.lookups.Inv) : Forwards S env D r r := (Kept.refl r).forwards hr

theorem Forwards.trans (h : Forwards S env D r r') (h' : Forwards S env D' r' r'') : Forwards S env (D + D') r r'' where
  inv := h'.inv
  transit := h'.transit.trans h.transit
  log := h.log.trans h'.log
  requests := by
    refine h'.requests.trans ?_
    rw [← add_assoc]
    exact add_le_add_left h.requests _
  claimed N hN hc := h'.claimed N hN (h.claimed N hN hc)

theorem Forwards.trans_zero (h : Forwards S env D r r') (h' : Forwards S env 0 r' r'') : Forwards S env D r r'' := by
  have hboth := h.trans h'
  rwa [add_zero] at hboth

theorem Forwards.zero_trans (h : Forwards S env 0 r r') (h' : Forwards S env D r' r'') : Forwards S env D r r'' := by
  have hboth := h.trans h'
  rwa [zero_add] at hboth

theorem Forwards.mono (h : Forwards S env D r r') (hD : D ≤ D') : Forwards S env D' r r' :=
  ⟨h.inv, h.transit, h.log, h.requests.trans (add_le_add_right hD _), h.claimed⟩

/-- Reverse paths leave the table. -/
theorem forwards_of_sublist (hr : r.lookups.Inv) {paths : JsMap ReverseKey ReverseId}
    (hs : paths.Sublist r.lookupReversePaths) : Forwards S env D r { r with lookupReversePaths := paths } where
  inv := hr.of_sublist hs
  transit := rfl
  log := List.prefix_rfl
  requests := Multiset.le_add_right _ _
  claimed _ _ hc := hc.of_reverses rfl rfl fun _ v hv => ⟨v, hv, subset_rfl⟩

theorem forwards_pruneLookupReversePaths (hr : r.lookups.Inv) (nowMs : ℚ) :
    Forwards S env D r (pruneLookupReversePaths nowMs r) := forwards_of_sublist hr List.filter_sublist

theorem forwards_deleteReverse (hr : r.lookups.Inv) (key : ReverseKey) : Forwards S env D r (deleteReverse key r) :=
  forwards_of_sublist hr List.filter_sublist

/-- A reverse path gets another source. -/
theorem forwards_modifyPeer (hr : r.lookups.Inv) (rid : ReverseId) (p : PeerId) :
    Forwards S env D r (modifyReverse rid (fun reverse => { reverse with peer := p }) r) where
  inv := hr.modify fun _ => rfl
  transit := rfl
  log := List.prefix_rfl
  requests := by
    have hreq : (r.lookups.modify rid fun reverse => { reverse with peer := p }).requests = r.lookups.requests :=
      Lookups.requests_modify fun _ => rfl
    exact hreq.le.trans (Multiset.le_add_right _ _)
  claimed _ _ hc := by
    refine hc.of_reverses rfl rfl fun i v hv => ?_
    have hi : (r.reverses.modify rid fun reverse => { reverse with peer := p })[i]? = _ := List.getElem?_modify ..
    change r.reverses[i]? = some v at hv
    rw [hv] at hi
    refine ⟨_, hi, ?_⟩
    split
    · exact subset_rfl
    · exact subset_rfl

theorem reverseAt_eq_some {key : ReverseKey} {rid : ReverseId} {reverse : LookupReversePath}
    (h : r.reverseAt key = some (rid, reverse)) :
    r.lookupReversePaths.get key = some rid ∧ r.reverses[rid]? = some reverse := by
  obtain ⟨rid', hget, h⟩ := Option.bind_eq_some_iff.1 h
  obtain ⟨reverse', hrev, h⟩ := Option.bind_eq_some_iff.1 h
  cases h
  exact ⟨hget, hrev⟩

theorem reverseAt_eq_none (hr : r.lookups.Inv) {key : ReverseKey} (h : r.reverseAt key = none) :
    r.lookupReversePaths.get key = none := by
  cases hget : r.lookupReversePaths.get key with
  | none => rfl
  | some rid =>
    obtain ⟨v, hv, -⟩ := hr.keyed _ (JsMap.mem_of_get hget)
    change r.reverses[rid]? = some v at hv
    simp [reverseAt, hget, hv] at h

/-- The table has room for one more entry afterwards, and no new ones. -/
theorem reserve_eq (r : Routing) : ∃ paths, (reserveLookupReversePath r) = { r with lookupReversePaths := paths } ∧
    paths.Sublist r.lookupReversePaths ∧
      (r.lookupReversePaths.length ≤ MAX_LOOKUP_REVERSE_PATHS → paths.length < MAX_LOOKUP_REVERSE_PATHS) := by
  unfold reserveLookupReversePath
  split
  · rename_i hlt
    exact ⟨r.lookupReversePaths, rfl, List.Sublist.refl _, fun _ => hlt⟩
  · split
    · rename_i hnil
      exact ⟨r.lookupReversePaths, rfl, List.Sublist.refl _, fun _ => by rw [hnil]; decide⟩
    · rename_i oldest rest hcons
      refine ⟨r.lookupReversePaths.delete oldest.1, rfl, List.filter_sublist, fun hle => ?_⟩
      rw [hcons] at hle ⊢
      have hhead : JsMap.delete (oldest :: rest) oldest.1 = rest.filter (·.1 ≠ oldest.1) :=
        List.filter_cons_of_neg (by simp)
      rw [hhead]
      exact (List.length_filter_le _ _).trans_lt hle

/-- A received request as it is passed on. -/
def lowerRequest (request : LookupRequest) : LookupRequest := { request with ttl := request.ttl - 1 }

/-- A new reverse path for a request. -/
theorem forwards_addReverse (hr : r.lookups.Inv) {reverse : LookupReversePath} (hwire : reverse.request.Wire)
    (habsent : r.lookupReversePaths.get reverse.key = none) :
    Forwards S env {reverse.request} r (addReverse reverse.key reverse r) ∧
      (addReverse reverse.key reverse r).reverses = r.reverses ++ [reverse] := by
  obtain ⟨paths, heq, hsub, hroom⟩ := reserve_eq r
  have hres : Forwards S env 0 r (reserveLookupReversePath r) := heq ▸ forwards_of_sublist hr hsub
  have hpaths : (reserveLookupReversePath r).lookupReversePaths = paths := by rw [heq]
  have habsent' : paths.get reverse.key = none := by
    cases hget : paths.get reverse.key with
    | none => rfl
    | some rid =>
      have hget' : r.lookupReversePaths.get reverse.key = some rid :=
        JsMap.Nodup.get_of_mem hr.keys (hsub.subset (JsMap.mem_of_get hget))
      rw [habsent] at hget'
      cases hget'
  refine ⟨hres.zero_trans ⟨?_, rfl, List.prefix_rfl, (Lookups.requests_add _ _).le, fun _ _ hc => ?_⟩, ?_⟩
  · refine hres.inv.add hwire ?_ ?_
    · show (reserveLookupReversePath r).lookupReversePaths.get _ = none
      rw [hpaths]
      exact habsent'
    · show (reserveLookupReversePath r).lookupReversePaths.length < _
      rw [hpaths]
      exact hroom hr.few
  · refine hc.of_reverses rfl rfl fun i v hv => ⟨v, ?_, subset_rfl⟩
    exact (List.getElem?_append_left (List.getElem?_eq_some_iff.1 hv).1).trans hv
  · show (reserveLookupReversePath r).reverses ++ [reverse] = _
    rw [heq]

/-! ### Requests to next hops -/

variable {rid : ReverseId}

theorem transmitAll_eq (cause : SendCause) (nextHops : List PeerId) (msgType : Nat) (payload : Bytes) (r : Routing) :
    transmitAll env cause nextHops msgType payload r = { r with
      log := r.log ++ nextHops.map fun p => .send ⟨cause, p, env.peer p, msgType, payload, env.sends p msgType payload⟩ } := by
  unfold transmitAll
  induction nextHops generalizing r with
  | nil => simp
  | cons p nextHops ih =>
    rw [List.foldl_cons, ih, transmit]
    simp

theorem lookups_transmitAll (nextHops : List PeerId) (msgType : Nat) (payload : Bytes) (r : Routing) :
    (transmitAll env (.reverse rid) nextHops msgType payload r).lookups = r.lookups.extend
        (nextHops.map fun p => .send ⟨.reverse rid, p, env.peer p, msgType, payload, env.sends p msgType payload⟩) [] ∧
      (transmitAll env (.reverse rid) nextHops msgType payload r).transit = r.transit := by
  rw [transmitAll_eq]
  constructor
  · have hall : (nextHops.map fun p => RoutingEffect.send
        ⟨.reverse rid, p, env.peer p, msgType, payload, env.sends p msgType payload⟩).filter RoutingEffect.lookup = _ :=
      List.filter_eq_self.2 fun e he => by
        obtain ⟨p, -, rfl⟩ := List.mem_map.1 he
        rfl
    simp [lookups, Lookups.extend, List.filter_append, hall]
  · have hnone : (nextHops.map fun p => RoutingEffect.send
        ⟨.reverse rid, p, env.peer p, msgType, payload, env.sends p msgType payload⟩).filterMap RoutingEffect.transit = [] := by
      refine List.filterMap_eq_nil_iff.2 fun e he => ?_
      obtain ⟨p, -, rfl⟩ := List.mem_map.1 he
      rfl
    simp [transit, List.filterMap_append, hnone]

/-- A request is sent to next hops that were not on record; `task` knows how each call will end. -/
theorem forwards_send (hr : r.lookups.Inv) {reverse : LookupReversePath} (hrid : r.reverses[rid]? = some reverse)
    {nextHops : List PeerId} {encoded : Bytes} {task : RoutingTask}
    (hencoded : encodeLookupRequestPayload reverse.request = .ok encoded)
    (htask : task.lookup = true) (htransit : task.transit = [])
    (hunreached : task.unreached = (nextHops.filter fun p => !env.sends p LinkMessageType.LookupRequest encoded).map
      fun p => (rid, env.peerNodeKey S p))
    (hup : ∀ p ∈ nextHops, env.established p = true)
    (hnew : ∀ p ∈ nextHops, env.peerNodeKey S p ∉ reverse.forwardedNextHops)
    (hdistinct : ∀ N, env.Network S N → (nextHops.map (env.peerNodeKey S)).Nodup) :
    Forwards S env 0 r (later task (transmitAll env (.reverse rid) nextHops LinkMessageType.LookupRequest encoded
      (addForwarded rid (nextHops.map (env.peerNodeKey S)).toFinset r))) := by
  have hw := hr.wire reverse (List.mem_of_getElem? hrid)
  have hdec := decodeLookupRequest_encode hw.target hw.origin hencoded
  obtain ⟨hsent, hstill⟩ := @lookups_transmitAll env rid nextHops LinkMessageType.LookupRequest encoded
    (addForwarded rid (nextHops.map (env.peerNodeKey S)).toFinset r)
  have hlookups : (later task (transmitAll env (.reverse rid) nextHops LinkMessageType.LookupRequest encoded
      (addForwarded rid (nextHops.map (env.peerNodeKey S)).toFinset r))).lookups =
      (r.lookups.modify rid fun v => { v with forwardedNextHops := v.forwardedNextHops ∪
        (nextHops.map (env.peerNodeKey S)).toFinset }).extend (nextHops.map fun p => .send ⟨.reverse rid, p, env.peer p,
          LinkMessageType.LookupRequest, encoded, env.sends p LinkMessageType.LookupRequest encoded⟩) [task] := by
    have hlater (r' : Routing) : (later task r').lookups = r'.lookups.extend [] [task] := by
      simp [later, lookups, Lookups.extend, htask]
    rw [hlater, hsent]
    simp only [Lookups.extend, List.append_nil]
    rfl
  have hinv := @Lookups.Inv.modify _ rid
    (fun v => { v with forwardedNextHops := v.forwardedNextHops ∪ (nextHops.map (env.peerNodeKey S)).toFinset }) hr
    fun _ => rfl
  refine ⟨?_, ?_, ?_, ?_, fun N hN hc => ?_⟩
  · rw [hlookups]
    obtain ⟨v, hv, hreq⟩ := (@Lookups.getElem?_modify_of _ rid (fun v =>
      { v with forwardedNextHops := v.forwardedNextHops ∪ (nextHops.map (env.peerNodeKey S)).toFinset })) (fun _ => rfl)
      (show r.lookups.reverses[rid]? = some reverse from hrid)
    refine hinv.extend hv [task] fun e he => ?_
    obtain ⟨p, -, rfl⟩ := List.mem_map.1 he
    exact ⟨_, rfl, rfl, rfl, by rw [hreq]; exact hdec⟩
  · rw [transit_later, htransit, hstill]
    exact add_zero _
  · rw [transmitAll_eq]
    exact List.prefix_append _ _
  · rw [hlookups]
    have hreq : (r.lookups.modify rid fun v => { v with forwardedNextHops := v.forwardedNextHops ∪
        (nextHops.map (env.peerNodeKey S)).toFinset }).requests = r.lookups.requests := Lookups.requests_modify fun _ => rfl
    exact hreq.le.trans (Multiset.le_add_right _ _)
  · rw [hlookups]
    refine hc.extend hrid (hdistinct N hN) (fun a ha => ?_) (fun a ha => ?_) ?_
    · obtain ⟨p, hp, rfl⟩ := List.mem_map.1 ha
      exact hnew p hp
    · obtain ⟨p, hp, rfl⟩ := List.mem_map.1 ha
      exact hN.known p (hup p hp)
    · rw [List.flatMap_singleton, hunreached, List.map_map]
      clear hunreached hup hnew hdistinct hsent hstill hlookups hinv
      induction nextHops with
      | nil => exact List.Perm.refl _
      | cons p nextHops ih =>
        rw [List.map_cons, List.map_cons, List.filterMap_cons, List.filter_cons]
        by_cases hok : env.sends p LinkMessageType.LookupRequest encoded = true
        · simp only [RoutingEffect.reached, hok, Bool.not_true, Bool.false_eq_true, if_false, true_and, if_true]
          exact ih.cons _
        · simp only [RoutingEffect.reached, hok, Bool.not_false, if_true]
          exact List.perm_middle.trans (ih.cons _)

end

section
variable {S : Suite} {G : Schnorr} {cfg : RoutingConfig} {env : RoutingEnv} {r : Routing} {rid : ReverseId} {key : ReverseKey}

/-- A handler that makes reverse paths for at most the requests `D`. -/
def Forwarding {α : Type} (S : Suite) (env : RoutingEnv) (D : Multiset LookupRequest) (x : RM α) (r : Routing) : Prop :=
  wp x (fun _ => Forwards S env D r) (fun _ => Forwards S env D r) r

theorem Quiet.forwarding {α : Type} {x : RM α} {D : Multiset LookupRequest} (h : Quiet x) (hr : r.lookups.Inv) :
    Forwarding S env D x r := wp_mono (h r) (fun _ _ hk => hk.forwards hr) fun _ _ hk => hk.forwards hr

theorem forwarding_forwardTo (hr : r.lookups.Inv) {reverse : LookupReversePath} (hrid : r.reverses[rid]? = some reverse)
    {nextHops : List PeerId} (hup : ∀ p ∈ nextHops, env.established p = true)
    (hnew : ∀ p ∈ nextHops, env.peerNodeKey S p ∉ reverse.forwardedNextHops)
    (hdistinct : ∀ N, env.Network S N → (nextHops.map (env.peerNodeKey S)).Nodup) :
    Forwarding S env 0 (forwardTo S env key rid reverse.request nextHops) r := by
  obtain ⟨encoded, hencoded⟩ : ∃ b, encodeLookupRequestPayload reverse.request = .ok b :=
    ⟨_, (hr.wire reverse (List.mem_of_getElem? hrid)).encode⟩
  unfold Forwarding forwardTo
  refine wp_ite.2 ⟨fun _ => wp_pure.2 (forwards_refl hr), fun _ => ?_⟩
  rw [hencoded, wp_bind, wp_modify, wp_bind]
  refine wp_lift.2 ⟨fun encoded' he => ?_, nofun⟩
  cases he
  rw [wp_bind, wp_modify, wp_modify]
  refine forwards_send hr hrid hencoded rfl rfl ?_ hup hnew hdistinct
  show ((nextHops.map _).filter _).map _ = _
  rw [List.filter_map, List.map_map]
  rfl

theorem forwarding_forwardOne (hr : r.lookups.Inv) {reverse : LookupReversePath} (hrid : r.reverses[rid]? = some reverse)
    {p : PeerId} (hup : env.established p = true) (hnew : env.peerNodeKey S p ∉ reverse.forwardedNextHops) :
    Forwarding S env 0 (forwardOne S env rid reverse.request p) r := by
  obtain ⟨encoded, hencoded⟩ : ∃ b, encodeLookupRequestPayload reverse.request = .ok b :=
    ⟨_, (hr.wire reverse (List.mem_of_getElem? hrid)).encode⟩
  unfold Forwarding forwardOne
  rw [hencoded, wp_bind, wp_modify, wp_bind]
  refine wp_lift.2 ⟨fun encoded' he => ?_, nofun⟩
  cases he
  rw [wp_bind, wp_modify, wp_modify]
  refine @forwards_send _ _ _ _ hr _ hrid [p] _ (.sent rid (env.peerNodeKey S p)
    (env.sends p LinkMessageType.LookupRequest encoded)) hencoded rfl rfl ?_ ?_ ?_ fun _ _ => List.nodup_singleton _
  · show (if _ then _ else _) = _
    rw [List.filter_cons]
    cases env.sends p LinkMessageType.LookupRequest encoded <;> rfl
  · intro q hq
    obtain rfl := List.mem_singleton.1 hq
    exact hup
  · intro q hq
    obtain rfl := List.mem_singleton.1 hq
    exact hnew

/-! ### Next hops are connected -/

theorem RoutingEnv.usable_established {excludedPeer : Option PeerId} {minMtu : Nat} {p : PeerId}
    (h : env.usable excludedPeer minMtu p = true) : env.established p = true := by
  unfold RoutingEnv.usable at h
  simp only [Bool.and_eq_true] at h
  exact h.1.1

theorem usable_of_selectCarrier {preferred excludedPeer : Option PeerId} {minMtu : Nat} {p : PeerId}
    (h : env.selectCarrier S preferred excludedPeer minMtu = some p) : env.usable excludedPeer minMtu p = true := by
  unfold RoutingEnv.selectCarrier at h
  split at h
  · cases h
  · split at h
    · cases h
      assumption
    · have hp := List.find?_some h
      rw [Bool.and_eq_true] at hp
      exact hp.1

theorem usable_of_usablePeer {dest nodeHex : NodeAddr} {excludedPeer : Option PeerId} {minMtu : Nat} {t : LearnedRouteTable}
    {p : PeerId} (h : usablePeer S env dest excludedPeer minMtu t nodeHex = some p) :
    env.usable excludedPeer minMtu p = true := usable_of_selectCarrier (Option.filter_eq_some_iff.1 h).1

/-- A next hop is one that `selectCarrier` may take. -/
theorem usable_of_nextHopFor {dest : NodeAddr} {excludedPeer : Option PeerId} {minMtu : Nat} {p : PeerId}
    (h : (nextHopFor S cfg env dest excludedPeer minMtu r).1 = some p) : env.usable excludedPeer minMtu p = true := by
  unfold nextHopFor at h
  split at h
  · rename_i direct hdirect
    cases h
    exact usable_of_usablePeer hdirect
  · dsimp only at h
    split at h
    · exact usable_of_usablePeer h
    · unfold treeOrDefault at h
      dsimp only at h
      split at h
      · exact usable_of_usablePeer h
      · obtain ⟨q, -, hq⟩ := Option.bind_eq_some_iff.1 h
        exact usable_of_usablePeer hq

/-! ### Requests -/

theorem mem_fallbackPeers {p q : PeerId} {request : LookupRequest} (h : q ∈ fallbackPeers S cfg env p request r) :
    q ≠ p ∧ env.established q = true ∧ request.minMtu ≤ env.frameCapacity q := by
  have hq := (List.mem_filter.1 (List.mem_of_mem_take h)).2
  simp only [Bool.decide_and, Bool.and_eq_true, decide_eq_true_eq] at hq
  exact ⟨hq.1, hq.2.1, hq.2.2.2.2⟩

theorem fallbackPeers_distinct {N : Set NodeAddr} (h : env.Network S N) (p : PeerId) (request : LookupRequest) :
    ((fallbackPeers S cfg env p request r).map (env.peerNodeKey S)).Nodup := by
  refine h.distinct.sublist (List.Sublist.map _ ((List.take_sublist _ _).trans ?_))
  refine List.monotone_filter_right _ fun q hq => ?_
  simp only [Bool.decide_and, Bool.and_eq_true, decide_eq_true_eq] at hq
  exact hq.2.1

/-- The reverse path a request finds under its key, if any, is one of the table with the fields `existing` shows. -/
def Existing (r : Routing) (key : ReverseKey) : Option (ReverseId × LookupReversePath) → Prop
  | none => r.lookupReversePaths.get key = none
  | some (rid, reverse) => ∃ v, r.reverses[rid]? = some v ∧ v.key = key ∧ v.request = reverse.request ∧
      v.forwardedNextHops = reverse.forwardedNextHops

/-- The next hops of a request: the one that was found, or all that remain in a tree or a learning network. -/
theorem candidates_up {found : Option PeerId} {excludedPeer : Option PeerId} {minMtu : Nat}
    (hfound : ∀ q, found = some q → env.usable excludedPeer minMtu q = true) {p : PeerId} {request : LookupRequest}
    {q : PeerId} (hq : q ∈ found.elim (if found.isNone then fallbackPeers S cfg env p request r else []) fun p => [p]) :
    env.established q = true := by
  cases found with
  | none => exact (mem_fallbackPeers hq).2.1
  | some a =>
    obtain rfl := List.mem_singleton.1 hq
    exact RoutingEnv.usable_established (hfound q rfl)

theorem candidates_distinct {N : Set NodeAddr} (h : env.Network S N) (found : Option PeerId) (p : PeerId)
    (request : LookupRequest) :
    ((found.elim (if found.isNone then fallbackPeers S cfg env p request r else []) fun p => [p]).map
      (env.peerNodeKey S)).Nodup := by
  cases found with
  | none => exact fallbackPeers_distinct h p request
  | some a => exact List.nodup_singleton _

theorem forwarding_pursue (hr : r.lookups.Inv) {reverse : LookupReversePath} (hrid : r.reverses[rid]? = some reverse)
    {nextHops : List PeerId} (hup : ∀ p ∈ nextHops, env.established p = true)
    (hnew : ∀ p ∈ nextHops, env.peerNodeKey S p ∉ reverse.forwardedNextHops)
    (hdistinct : ∀ N, env.Network S N → (nextHops.map (env.peerNodeKey S)).Nodup) (p : PeerId) (resolving : Bool) :
    Forwarding S env 0 (pursue S env p key rid reverse.request resolving nextHops) r := by
  unfold Forwarding pursue
  dsimp only
  refine wp_ite.2 ⟨fun _ => ?_, fun _ => forwarding_forwardTo hr hrid hup hnew hdistinct⟩
  rw [wp_bind, wp_modify]
  have hkept : Kept r (resolveAndForwardLookup key rid p key.2 r) := kept_resolveAndForwardLookup ..
  have hstep : Forwards S env 0 r _ := hkept.forwards hr
  have hrid' : (resolveAndForwardLookup key rid p key.2 r).reverses[rid]? = some reverse := by
    have hrev : (resolveAndForwardLookup key rid p key.2 r).reverses = r.reverses :=
      congrArg Lookups.reverses hkept.lookups
    rw [hrev, hrid]
  exact wp_mono (forwarding_forwardTo hstep.inv hrid' hup hnew hdistinct) (fun _ _ => hstep.trans_zero)
    fun _ _ => hstep.trans_zero

theorem forwarding_passOn (hr : r.lookups.Inv) {p : PeerId} {request : LookupRequest} (hwire : request.Wire)
    {existing : Option (ReverseId × LookupReversePath)}
    (hexisting : Existing r (lookupReverseKey request.requestId request.target) existing) :
    Forwarding S env {lowerRequest request}
      (passOn S cfg env p request (lookupReverseKey request.requestId request.target) existing) r := by
  unfold Forwarding passOn
  rw [wp_bind, wp_nextHop]
  have hhop (q : PeerId) := @usable_of_nextHopFor S cfg env r request.target (some p) request.minMtu q
  have hkept := @kept_nextHopFor S cfg env r request.target (some p) request.minMtu
  generalize nextHopFor S cfg env request.target (some p) request.minMtu r = found at hhop hkept
  have hfound : Forwards S env 0 r found.2 := hkept.forwards hr
  rw [wp_bind, wp_get]
  dsimp only
  have hup (q : PeerId) := @candidates_up S cfg _ found.2 _ _ _ hhop p request q
  have hdistinct (N : Set NodeAddr) (hN : env.Network S N) :=
    (@candidates_distinct _ cfg _ found.2) hN found.1 p request
  generalize (found.1.elim (if found.1.isNone = true then fallbackPeers S cfg env p request found.2 else []) fun p => [p]) =
    candidates at hup hdistinct
  have hmem {q : PeerId} (hq : q ∈ candidates.filter fun q => !existing.any fun e =>
      decide (env.peerNodeKey S q ∈ e.2.forwardedNextHops)) := List.mem_filter.1 hq
  have hsub : (candidates.filter fun q => !existing.any fun e =>
      decide (env.peerNodeKey S q ∈ e.2.forwardedNextHops)).Sublist candidates := List.filter_sublist
  refine wp_ite.2 ⟨fun _ => wp_pure.2 ((hfound.trans_zero (forwards_refl hfound.inv)).mono (Multiset.zero_le _)), fun _ => ?_⟩
  have hreverses : found.2.reverses = r.reverses := congrArg Lookups.reverses hkept.lookups
  have hpaths : found.2.lookupReversePaths = r.lookupReversePaths := congrArg Lookups.paths hkept.lookups
  cases existing with
  | none =>
    dsimp only
    rw [wp_bind, wp_modify]
    obtain ⟨hadd, hnew⟩ := @forwards_addReverse S env found.2 hfound.inv ⟨p, env.nowMs + LOOKUP_REVERSE_PATH_TTL_MS,
        ∅, lowerRequest request⟩
      ⟨hwire.requestId, hwire.target, hwire.origin, by have := hwire.ttl; show request.ttl - 1 < 256; omega, hwire.minMtu,
        hwire.coords, hwire.some_coords, hwire.few_coords⟩ (by rw [hpaths]; exact hexisting)
    have hstep := hfound.zero_trans hadd
    have hrid := congrArg (fun l : List LookupReversePath => l[found.2.reverses.length]?) hnew
    rw [List.getElem?_concat_length] at hrid
    refine wp_mono (forwarding_pursue hstep.inv hrid (fun q hq => hup q (hmem hq).1) (fun q _ => Finset.notMem_empty _)
      (fun N hN => (hdistinct N hN).sublist (hsub.map _)) p _) (fun _ _ => hstep.trans_zero) fun _ _ => hstep.trans_zero
  | some e =>
    obtain ⟨v, hv, hk, hreq, hrec⟩ := hexisting
    dsimp only
    rw [← hreq]
    refine wp_mono (forwarding_pursue hfound.inv (hreverses ▸ hv) (fun q hq => hup q (hmem hq).1) (fun q hq => ?_)
      (fun N hN => (hdistinct N hN).sublist (hsub.map _)) p _)
      (fun _ _ h => (hfound.trans_zero h).mono (Multiset.zero_le _)) fun _ _ h => (hfound.trans_zero h).mono (Multiset.zero_le _)
    have hnot := (hmem hq).2
    simp only [Option.any_some, Bool.not_eq_true', decide_eq_false_iff_not] at hnot
    rw [hrec]
    exact hnot

theorem forwarding_handleLookupRequest (hr : r.lookups.Inv) {p : PeerId} {request : LookupRequest} (hwire : request.Wire) :
    Forwarding S env (if request.ttl = 0 then 0 else {lowerRequest request}) (handleLookupRequest S G cfg env p request) r := by
  unfold Forwarding handleLookupRequest
  refine wp_ite.2 ⟨fun _ => wp_pure.2 (forwards_refl hr), fun _ => ?_⟩
  refine wp_ite.2 ⟨fun _ => (quiet_answerLookup p request).forwarding hr, fun _ => ?_⟩
  refine wp_ite.2 ⟨fun _ => wp_pure.2 (forwards_refl hr), fun hpass => ?_⟩
  rw [if_neg fun httl => hpass (.inr httl), wp_bind, wp_modify, wp_bind, wp_get]
  have hprune := (@forwards_pruneLookupReversePaths S env 0) hr env.nowMs
  split
  · rename_i hnone
    have hget := reverseAt_eq_none hprune.inv hnone
    exact wp_mono (forwarding_passOn hprune.inv hwire hget) (fun _ _ => hprune.zero_trans) fun _ _ => hprune.zero_trans
  · rename_i rid reverse hsome
    obtain ⟨hget, hrid⟩ := reverseAt_eq_some hsome
    obtain ⟨v, hv, hkey⟩ := hprune.inv.keyed _ (JsMap.mem_of_get hget)
    change (pruneLookupReversePaths env.nowMs r).reverses[rid]? = some v at hv
    obtain rfl := Option.some.inj (hv.symm.trans hrid)
    refine wp_ite.2 ⟨fun _ => wp_pure.2 (hprune.mono (Multiset.zero_le _)), fun _ => ?_⟩
    rw [wp_bind, wp_modify]
    have hpeer := (@forwards_modifyPeer S env 0) hprune.inv rid p
    have hstep := hprune.trans_zero hpeer
    refine wp_mono (@forwarding_passOn _ _ _ _ hpeer.inv _ _ hwire (some (rid, v)) ⟨{ v with peer := p }, ?_, hkey, rfl, rfl⟩)
      (fun _ _ => hstep.zero_trans) fun _ _ => hstep.zero_trans
    show ((pruneLookupReversePaths env.nowMs r).reverses.modify rid _)[rid]? = _
    rw [List.getElem?_modify, hv]
    simp

/-- The request a payload is passed on as, if it may be. -/
def loweredRequest (payload : Bytes) : Multiset LookupRequest :=
  match decodeLookupRequest payload with
  | .ok request => if request.ttl = 0 then 0 else {lowerRequest request}
  | .error _ => 0

theorem Quiet.bind_forwarding {α β : Type} {x : RM α} {f : α → RM β} {D : Multiset LookupRequest} (h : Quiet x)
    (hr : r.lookups.Inv) (hf : ∀ a r', r'.lookups.Inv → Forwarding S env D (f a) r') : Forwarding S env D (x >>= f) r := by
  refine wp_bind.2 (wp_mono (h r) (fun a r' hr' => ?_) fun _ _ hk => hk.forwards hr)
  have hstep : Forwards S env 0 r r' := hr'.forwards hr
  exact wp_mono (hf a r' hstep.inv) (fun _ _ => hstep.zero_trans) fun _ _ => hstep.zero_trans

theorem forwarding_handleLookupRequestMessage (hr : r.lookups.Inv) (p : PeerId) (payload : Bytes) :
    Forwarding S env (loweredRequest payload) (handleLookupRequestMessage S G cfg env p payload) r := by
  unfold handleLookupRequestMessage loweredRequest
  refine wp_bind.2 (wp_lift.2 ⟨fun request hdec => ?_, fun _ _ => forwards_refl hr⟩)
  rw [hdec]
  refine (quiet_assertNodeAllowed request.origin).bind_forwarding hr (fun _ r₁ hr₁ => ?_)
  refine (quiet_assertNodeAllowed request.target).bind_forwarding hr₁ (fun _ r₂ hr₂ => ?_)
  refine quiet_get.bind_forwarding hr₂ (fun r₃ r₄ hr₄ => ?_)
  dsimp only
  refine wp_ite.2 ⟨fun _ => wp_pure.2 (forwards_refl hr₄), fun _ => ?_⟩
  exact forwarding_handleLookupRequest hr₄ (decodeLookupRequest_eq_ok hdec)

/-! ### Resolved transports, established targets and responses -/

theorem forwarding_forwardResolved (hr : r.lookups.Inv) (p : PeerId) :
    Forwarding S env 0 (forwardResolved S cfg env key rid p) r := by
  unfold Forwarding forwardResolved
  rw [wp_bind, wp_get]
  split
  · exact wp_pure.2 (forwards_refl hr)
  · rename_i current reverse hsome
    refine wp_ite.2 ⟨fun _ => wp_pure.2 (forwards_refl hr), fun hcurrent => ?_⟩
    obtain rfl := not_not.1 hcurrent
    rw [wp_bind, wp_nextHop]
    have hhop (q : PeerId) := @usable_of_nextHopFor S cfg env r reverse.request.target (some p) reverse.request.minMtu q
    have hkept := @kept_nextHopFor S cfg env r reverse.request.target (some p)
      reverse.request.minMtu
    generalize nextHopFor S cfg env reverse.request.target (some p) reverse.request.minMtu r = found at hhop hkept
    have hfound : Forwards S env 0 r found.2 := hkept.forwards hr
    have hreverses : found.2.reverses = r.reverses := congrArg Lookups.reverses hkept.lookups
    split
    · exact wp_pure.2 hfound
    · rename_i q hq
      refine wp_ite.2 ⟨fun _ => wp_pure.2 hfound, fun hnew => ?_⟩
      exact wp_mono (forwarding_forwardOne hfound.inv (hreverses ▸ (reverseAt_eq_some hsome).2)
        (RoutingEnv.usable_established (hhop q hq)) hnew) (fun _ _ => hfound.trans_zero) fun _ _ => hfound.trans_zero

theorem Forwarding.forwards {D : Multiset LookupRequest} {x : RM Unit} (h : Forwarding S env D x r) :
    Forwards S env D r (settled x r) := wp_after.2 h

/-- A request that waits for its target. -/
def Waits (S : Suite) (env : RoutingEnv) (p : PeerId) (r : Routing) (e : ReverseId × LookupRequest) : Prop :=
  ∃ reverse, r.reverses[e.1]? = some reverse ∧ reverse.request = e.2 ∧ env.peerNodeKey S p ∉ reverse.forwardedNextHops

theorem waits_of_forwardOne {p : PeerId} {e e' : ReverseId × LookupRequest} (hne : e'.1 ≠ e.1)
    (h : Waits S env p r e') : Waits S env p (settled (forwardOne S env e.1 e.2 p) r) e' := by
  obtain ⟨reverse, hrev, hreq, hnew⟩ := h
  refine ⟨reverse, ?_, hreq, hnew⟩
  have hmodified : (settled (forwardOne S env e.1 e.2 p) r).reverses = (addForwarded e.1 {env.peerNodeKey S p} r).reverses := by
    refine (wp_after (P := fun r' : Routing => r'.reverses = (addForwarded e.1 {env.peerNodeKey S p} r).reverses)).2 ?_
    unfold forwardOne
    rw [wp_bind, wp_modify, wp_bind]
    refine wp_lift.2 ⟨fun encoded _ => ?_, fun _ _ => rfl⟩
    rw [wp_bind, wp_modify, wp_modify]
    rfl
  rw [hmodified]
  show (r.reverses.modify e.1 _)[e'.1]? = _
  simp only [List.getElem?_modify, if_neg (Ne.symm hne), hrev]
  rfl

theorem forwards_replay {p : PeerId} (hup : env.established p = true) (es : List (ReverseId × LookupRequest))
    (hr : r.lookups.Inv) (hdistinct : (es.map Prod.fst).Nodup) (hwaits : ∀ e ∈ es, Waits S env p r e) :
    Forwards S env 0 r (es.foldl (fun r e => settled (forwardOne S env e.1 e.2 p) r) r) := by
  induction es generalizing r with
  | nil => exact forwards_refl hr
  | cons e es ih =>
    obtain ⟨reverse, hrev, hreq, hnew⟩ := hwaits e List.mem_cons_self
    have hcons := List.nodup_cons.1 hdistinct
    have hone : Forwards S env 0 r (settled (forwardOne S env e.1 e.2 p) r) := by
      rw [← hreq]
      exact (forwarding_forwardOne hr hrev hup hnew).forwards
    refine hone.trans_zero (ih hone.inv hcons.2 fun e' he' => ?_)
    refine waits_of_forwardOne (fun heq => hcons.1 ?_) (hwaits e' (List.mem_cons_of_mem _ he'))
    rw [← heq]
    exact List.mem_map_of_mem he'

theorem pendingLookupsFor_handles (p : PeerId) (r : Routing) :
    ((pendingLookupsFor S env p r).map Prod.fst).Sublist (r.lookupReversePaths.map Prod.snd) := by
  unfold pendingLookupsFor
  induction r.lookupReversePaths with
  | nil => exact List.Sublist.refl _
  | cons e es ih =>
    rw [List.filterMap_cons]
    split
    · exact ih.cons _
    · rename_i found hfound
      obtain ⟨reverse, -, hfound⟩ := Option.bind_eq_some_iff.1 hfound
      split at hfound
      · cases hfound
        exact ih.cons_cons _
      · cases hfound

theorem waits_of_mem_pendingLookupsFor {p : PeerId} {e : ReverseId × LookupRequest} (h : e ∈ pendingLookupsFor S env p r) :
    Waits S env p r e := by
  obtain ⟨entry, -, hentry⟩ := List.mem_filterMap.1 h
  obtain ⟨reverse, hrev, hentry⟩ := Option.bind_eq_some_iff.1 hentry
  split at hentry
  · rename_i hpending
    cases hentry
    exact ⟨reverse, hrev, rfl, hpending.2.2.1⟩
  · cases hentry

theorem forwards_replayPendingLookupsFor (hr : r.lookups.Inv) (p : PeerId) :
    Forwards S env 0 r (replayPendingLookupsFor S env p r) := by
  unfold replayPendingLookupsFor
  split
  · exact forwards_refl hr
  · rename_i hup
    split
    · exact forwards_refl hr
    · have hprune := (@forwards_pruneLookupReversePaths S env 0) hr env.nowMs
      refine hprune.trans_zero (forwards_replay (by simpa using hup) _ hprune.inv ?_ fun e => waits_of_mem_pendingLookupsFor)
      exact hprune.inv.handles.sublist (pendingLookupsFor_handles p _)

theorem forwarding_forwardLookupResponse (hr : r.lookups.Inv) (p : PeerId) (payload : Bytes) :
    Forwarding S env 0 (forwardLookupResponse S cfg env p payload) r := by
  unfold Forwarding forwardLookupResponse
  refine wp_bind.2 (wp_lift.2 ⟨fun response _ => ?_, fun _ _ => forwards_refl hr⟩)
  dsimp only
  rw [wp_bind, wp_modify, wp_bind, wp_get]
  have hprune := (@forwards_pruneLookupReversePaths S env 0) hr env.nowMs
  generalize pruneLookupReversePaths env.nowMs r = r₁ at hprune
  split
  · exact wp_pure.2 hprune
  · rename_i rid reverse hsome
    refine wp_ite.2 ⟨fun _ => wp_pure.2 hprune, fun _ => wp_ite.2 ⟨fun _ => wp_pure.2 hprune, fun _ => ?_⟩⟩
    rw [wp_bind, wp_modify, wp_bind, wp_modify, wp_bind, wp_modify, wp_bind]
    obtain ⟨hget, -⟩ := reverseAt_eq_some hsome
    -- the reverse path, with the coordinates cached and the route learned
    have hkept : Kept r₁ (learnReverseRoute S cfg env response.target p
        (some (min response.pathMtu (env.frameCapacity p))) (cacheCoordinates response.target response.targetCoords r₁)) :=
      (kept_cacheCoordinates ..).trans (kept_learnReverseRoute ..)
    have hlearn := hprune.trans_zero (hkept.forwards hprune.inv)
    have hpaths := congrArg Lookups.paths hkept.lookups
    generalize learnReverseRoute S cfg env response.target p (some (min response.pathMtu (env.frameCapacity p)))
      (cacheCoordinates response.target response.targetCoords r₁) = r₂ at hlearn hpaths
    have hget₂ : r₂.lookups.paths.get (lookupReverseKey response.requestId response.target) = some rid := by
      rw [hpaths]
      exact hget
    have hdelete := (@forwards_deleteReverse S env 0) hlearn.inv
      (lookupReverseKey response.requestId response.target)
    refine wp_lift.2 ⟨fun encoded _ => wp_modify.2 (hlearn.trans_zero ?_), fun _ _ => hlearn.trans_zero hdelete⟩
    have hlookups : (transmit env (.reverse rid) reverse.peer LinkMessageType.LookupResponse encoded
        (deleteReverse (lookupReverseKey response.requestId response.target) r₂)).lookups =
        (r₂.lookups.withPaths (r₂.lookups.paths.delete (lookupReverseKey response.requestId response.target))).extend
          [.send ⟨.reverse rid, reverse.peer, env.peer reverse.peer, LinkMessageType.LookupResponse, encoded,
            env.sends reverse.peer LinkMessageType.LookupResponse encoded⟩] [] := by
      simp [transmit, deleteReverse, lookups, Lookups.withPaths, Lookups.extend, RoutingEffect.lookup]
    refine ⟨?_, ?_, List.prefix_append _ _, ?_, fun N _ hc => ?_⟩
    · rw [hlookups]
      exact hlearn.inv.answer hget₂ rfl rfl
    · exact (@lookups_transmitAll _ _ [reverse.peer] ..).2
    · rw [hlookups]
      exact Multiset.le_add_right _ _
    · rw [hlookups]
      have hclaims : ((r₂.lookups.withPaths (r₂.lookups.paths.delete (lookupReverseKey response.requestId response.target))).extend
          [.send ⟨.reverse rid, reverse.peer, env.peer reverse.peer, LinkMessageType.LookupResponse, encoded,
            env.sends reverse.peer LinkMessageType.LookupResponse encoded⟩] []).claims S = r₂.lookups.claims S := by
        simp [Lookups.claims, Lookups.extend, Lookups.withPaths, RoutingEffect.reached, LinkMessageType.LookupResponse,
          LinkMessageType.LookupRequest]
      exact ⟨hclaims ▸ hc.nodup, fun e he => hc.recorded e (hclaims ▸ he), fun e he => hc.known e (hclaims ▸ he)⟩

end

end Routing

end Fips
