import Fips.Node.RoutingStep

/-!
# What the routing layer does for other nodes

Of a state, `lookups` is what requests of other nodes are in and `transit` counts their datagrams: those that have been
passed on and those that wait. Announcements, roles, the tree, learned routes and the node's own lookups leave
both alone. A refresh that waits for a lookup of its own knows what MTU that asks for.
-/

namespace Fips
open Exec LittleEndian

/-! ### Requests of other nodes -/

/-- The tasks that know what became of a request. -/
def RoutingTask.lookup : RoutingTask → Bool
  | .forwarded .. | .sent .. => true
  | _ => false

/-- The messages of reverse paths. -/
def RoutingEffect.lookup : RoutingEffect → Bool
  | .send m =>
    match m.cause with
    | .reverse _ => true
    | _ => false
  | _ => false

/-- The messages sent for other nodes. -/
def RoutingEffect.forwarded : RoutingEffect → Bool
  | .send m => m.cause ≠ .own
  | _ => false

structure Lookups where
  reverses : List LookupReversePath
  paths : JsMap ReverseKey ReverseId
  tasks : List RoutingTask
  log : List RoutingEffect

/-! ### Datagrams of other nodes -/

/-- A datagram as it is on the wire. -/
def SessionDatagram.wire (d : SessionDatagram) : SessionDatagram := { d with ttl := d.ttl % 256 }

namespace OutboundSessionDatagram

/-- What these frames are, if the datagram belongs to another node. -/
def inTransit (d : OutboundSessionDatagram) (frames : List Bytes) : List SessionDatagram :=
  match d.source with
  | .own _ => []
  | .transit _ _ => frames.map fun payload => (d.withPayload payload).wire

/-- The datagram, if it belongs to another node. -/
def waiting (d : OutboundSessionDatagram) : List SessionDatagram :=
  match d.source with
  | .own _ => []
  | .transit _ payload => [(d.withPayload payload).wire]

end OutboundSessionDatagram

/-- The datagrams of other nodes that a task has still to send. -/
def RoutingTask.transit : RoutingTask → List SessionDatagram
  | .datagramResolving d _ _ => d.waiting
  | .datagramRefreshing d _ _ _ frames => frames.elim d.waiting fun f => d.inTransit (f.1 :: f.2)
  | .datagramSending d _ frames => d.inTransit frames
  | _ => []

/-- The datagram of another node that has been passed on. -/
def LinkSend.transit (m : LinkSend) : Option SessionDatagram :=
  match m.cause with
  | .transit _ => if m.ok then (decodeSessionDatagramPayload m.payload).toOption else none
  | _ => none

def RoutingEffect.transit : RoutingEffect → Option SessionDatagram
  | .send m => m.transit
  | _ => none

/-! ### Refreshes -/

namespace OriginLookupRegistry

/-- What the lookups ask for, also those that have been removed. -/
def minMtus (g : OriginLookupRegistry) : List Nat := g.objs.map (·.minMtu)

/-- The table leads to lookups. -/
def Valid (g : OriginLookupRegistry) : Prop := ∀ t (lid : Nat), g.get t = some lid → lid < g.minMtus.length

/-- What the lookups ask for stays. -/
structure Follows (g g' : OriginLookupRegistry) : Prop where
  minMtus : g.minMtus <+: g'.minMtus
  valid : g.Valid → g'.Valid

theorem Follows.refl (g : OriginLookupRegistry) : Follows g g := ⟨List.prefix_rfl, id⟩

theorem Follows.trans {g g' g'' : OriginLookupRegistry} (h : Follows g g') (h' : Follows g' g'') : Follows g g'' :=
  ⟨h.minMtus.trans h'.minMtus, h'.valid ∘ h.valid⟩

/-- No lookup is new. -/
theorem Follows.of_eq {g g' : OriginLookupRegistry} (hminMtus : g'.minMtus = g.minMtus)
    (hget : ∀ t lid, g'.get t = some lid → g.get t = some lid) : Follows g g' :=
  ⟨hminMtus ▸ List.prefix_rfl, fun hvalid t lid h => hminMtus ▸ hvalid t lid (hget t lid h)⟩

theorem follows_settle (lid : LookupId) (nextHop : Option NodeAddr) (outcome : PromiseState) (g : OriginLookupRegistry) :
    Follows g (g.settle lid nextHop outcome) := by
  unfold settle
  split
  · exact .refl g
  split
  swap
  · exact .refl g
  rename_i pending hobj _
  refine .of_eq ?_ fun t l hl => ?_
  · obtain ⟨hlt, rfl⟩ := List.getElem?_eq_some_iff.1 hobj
    refine List.ext_getElem? fun l => ?_
    show ((g.objs.set lid _).map _)[l]? = (g.objs.map _)[l]?
    rw [List.getElem?_map, List.getElem?_map, List.getElem?_set]
    by_cases hl : lid = l
    · subst hl
      rw [if_pos rfl, if_pos hlt, hobj]
      rfl
    · rw [if_neg hl]
  · change (g.byTarget.delete pending.targetHex).get t = some l at hl
    rw [JsMap.get_delete] at hl
    split at hl
    · cases hl
    · exact hl

theorem follows_stop (g : OriginLookupRegistry) : Follows g g.stop := by
  unfold stop
  generalize g.byTarget.map Prod.snd = lids
  induction lids generalizing g with
  | nil => exact .refl g
  | cons lid lids ih => exact (follows_settle lid none _ g).trans (ih _)

theorem follows_renew {lid : LookupId} {random : List Bytes} {g g' : OriginLookupRegistry}
    (h : g.renew lid random = .ok g') : Follows g g' := by
  obtain ⟨requestId, -, h⟩ := except_bind_eq_ok.1 h
  cases h
  refine .of_eq (List.ext_getElem? fun l => ?_) fun _ _ => id
  show ((g.objs.modify lid _).map _)[l]? = (g.objs.map _)[l]?
  rw [List.getElem?_map, List.getElem?_map, List.getElem?_modify]
  cases g.objs[l]? with
  | none => rfl
  | some pending =>
    by_cases hl : lid = l <;> simp [hl]

theorem follows_create {targetHex : NodeAddr} {targetPubkey : Option Bytes} {minMtu : Nat} {random : List Bytes}
    {g g' : OriginLookupRegistry} {lid : Nat} (h : g.create targetHex targetPubkey minMtu random = .ok (lid, g')) :
    Follows g g' ∧ g'.minMtus[lid]? = some minMtu := by
  unfold create at h
  split at h
  · cases h
  obtain ⟨requestId, -, h⟩ := except_bind_eq_ok.1 h
  cases h
  refine ⟨⟨?_, fun hvalid t l hl => ?_⟩, by simp [minMtus]⟩
  · rw [minMtus, minMtus, List.map_append]
    exact List.prefix_append _ _
  · change (g.byTarget.set targetHex g.objs.length).get t = some l at hl
    show l < ((g.objs ++ [_]).map _).length
    rw [JsMap.get_set] at hl
    split at hl
    · cases hl
      simp
    · have hlt := hvalid t l hl
      simp only [minMtus, List.length_map] at hlt
      simp only [List.length_map, List.length_append, List.length_singleton]
      omega

end OriginLookupRegistry

/-- The length of the FMP packet of a frame, `minMtu` of the call that sends it. -/
def routedLength (payload : Bytes) : Nat := payload.length + ROUTED_FRAME_OVERHEAD

/-- A datagram of another node is one frame. -/
def OutboundSessionDatagram.Behind (d : OutboundSessionDatagram) (rest : List Bytes) : Prop := d.previousHop ≠ none → rest = []

/-- A refresh asks for what its frame needs, and so does the lookup it has started. -/
def RoutingTask.Founded (minMtus : List Nat) : RoutingTask → Prop
  | .datagramRefreshing d lid own minMtu frames =>
    minMtu = frames.elim 0 (fun f => routedLength f.1) ∧ lid < minMtus.length ∧ (own = true → minMtus[lid]? = some minMtu) ∧
      d.Behind (frames.elim [] Prod.snd)
  | .datagramSending d _ frames => d.Behind frames
  | _ => True

theorem RoutingTask.Founded.mono {minMtus minMtus' : List Nat} {task : RoutingTask} (h : task.Founded minMtus)
    (hsub : minMtus <+: minMtus') : task.Founded minMtus' := by
  cases task with
  | datagramRefreshing d lid own minMtu frames =>
    obtain ⟨later, rfl⟩ := hsub
    obtain ⟨hmtu, hlt, hown, hrest⟩ := h
    refine ⟨hmtu, ?_, fun ho => ?_, hrest⟩
    · rw [List.length_append]
      exact hlt.trans_le (Nat.le_add_right _ _)
    · rw [List.getElem?_append_left hlt, hown ho]
  | datagramSending d hop frames => exact h
  | _ => trivial

namespace Routing

structure Founded (r : Routing) : Prop where
  lookups : r.originLookups.Valid
  refreshes : ∀ task ∈ r.tasks, task.Founded r.originLookups.minMtus

theorem Founded.of_tasks {r r' : Routing} (h : r.Founded) (htasks : r'.tasks ⊆ r.tasks)
    (hlookups : OriginLookupRegistry.Follows r.originLookups r'.originLookups) : r'.Founded :=
  ⟨hlookups.valid h.lookups, fun task ht => (h.refreshes task (htasks ht)).mono hlookups.minMtus⟩

theorem Founded.later {r : Routing} (h : r.Founded) {task : RoutingTask} (htask : task.Founded r.originLookups.minMtus) :
    (later task r).Founded := by
  refine ⟨h.lookups, fun t ht => ?_⟩
  rcases List.mem_append.1 ht with hold | hnew
  · exact h.refreshes t hold
  · rw [List.mem_singleton.1 hnew]
    exact htask

def lookups (r : Routing) : Lookups where
  reverses := r.reverses
  paths := r.lookupReversePaths
  tasks := r.tasks.filter RoutingTask.lookup
  log := r.log.filter RoutingEffect.lookup

def transit (r : Routing) : Multiset SessionDatagram :=
  ↑(r.log.filterMap RoutingEffect.transit) + ↑(r.tasks.flatMap RoutingTask.transit)

/-- Nothing was done for other nodes, and what has been logged stays. -/
structure Kept (r r' : Routing) : Prop where
  lookups : r'.lookups = r.lookups
  transit : r'.transit = r.transit
  log : r.log <+: r'.log
  forwarded : r'.log.filter RoutingEffect.forwarded = r.log.filter RoutingEffect.forwarded
  originLookups : OriginLookupRegistry.Follows r.originLookups r'.originLookups
  tasks : ∀ task ∈ r'.tasks, task ∈ r.tasks ∨ ∀ minMtus, task.Founded minMtus

/-- A method that does nothing for other nodes. -/
def Quiet {α : Type} (x : RM α) : Prop := ∀ r, wp x (fun _ => Kept r) (fun _ => Kept r) r

section
variable {α β : Type} {x : RM α} {r r' r'' : Routing}

/-- The rest of the state does not matter. -/
theorem Kept.same (reverses : r'.reverses = r.reverses) (paths : r'.lookupReversePaths = r.lookupReversePaths)
    (tasks : r'.tasks = r.tasks) (log : r'.log = r.log)
    (originLookups : OriginLookupRegistry.Follows r.originLookups r'.originLookups) : Kept r r' where
  lookups := by
    unfold Routing.lookups
    rw [reverses, paths, tasks, log]
  transit := by
    unfold Routing.transit
    rw [tasks, log]
  log := log ▸ List.prefix_rfl
  forwarded := by rw [log]
  originLookups
  tasks task ht := .inl (tasks ▸ ht)

theorem Kept.refl (r : Routing) : Kept r r := .same rfl rfl rfl rfl (.refl _)

theorem Kept.trans (h : Kept r r') (h' : Kept r' r'') : Kept r r'' :=
  ⟨h'.lookups.trans h.lookups, h'.transit.trans h.transit, h.log.trans h'.log, h'.forwarded.trans h.forwarded,
    h.originLookups.trans h'.originLookups, fun task ht => (h'.tasks task ht).elim (h.tasks task) .inr⟩

theorem Quiet.bind {f : α → RM β} (h : Quiet x) (hf : ∀ a, Quiet (f a)) : Quiet (x >>= f) :=
  fun r => wp_bind.2 (wp_mono (h r)
    (fun a r' hr' => wp_mono (hf a r') (fun _ _ => hr'.trans) fun _ _ => hr'.trans) fun _ _ hr' => hr')

theorem quiet_pure (a : α) : Quiet (pure a) := Kept.refl

theorem quiet_throw (e : String) : Quiet (throw e : RM α) := Kept.refl

theorem quiet_get : Quiet (get : RM Routing) := Kept.refl

theorem quiet_lift (y : Except String α) : Quiet (lift y : RM α) :=
  fun r => wp_lift.2 ⟨fun _ _ => .refl r, fun _ _ => .refl r⟩

theorem quiet_modify {f : Routing → Routing} (h : ∀ r, Kept r (f r)) : Quiet (modify f) := h

theorem Quiet.ite {c : Prop} [Decidable c] {y : RM α} (h : Quiet x) (h' : Quiet y) : Quiet (if c then x else y) := by
  split
  · exact h
  · exact h'

theorem Quiet.discard (h : Quiet x) : Quiet (discard x) := h.bind fun _ => quiet_pure _

theorem Kept.founded (h : Kept r r') (hr : r.Founded) : r'.Founded := by
  refine ⟨h.originLookups.valid hr.lookups, fun task ht => ?_⟩
  rcases h.tasks task ht with hold | hnew
  · exact (hr.refreshes task hold).mono h.originLookups.minMtus
  · exact hnew _

theorem kept_settled {x : RM Unit} (h : Quiet x) (r : Routing) : Kept r (settled x r) := wp_after.2 (h r)

theorem kept_foldl {γ : Type} {f : Routing → γ → Routing} (h : ∀ r a, Kept r (f r a)) (l : List γ) (r : Routing) :
    Kept r (l.foldl f r) := by
  induction l generalizing r with
  | nil => exact .refl r
  | cons a l ih => exact (h r a).trans (ih _)

/-- Lookups of the node are settled or go on. -/
theorem kept_originLookups {g : OriginLookupRegistry} (h : OriginLookupRegistry.Follows r.originLookups g) :
    Kept r { r with originLookups := g } := .same rfl rfl rfl rfl h

/-! ### Primitive operations -/

/-- What is logged that is not for another node. -/
theorem kept_log {e : RoutingEffect} (h : e.lookup = false) (h' : e.transit = none) (hf : e.forwarded = false) :
    Kept r { r with log := r.log ++ [e] } :=
  ⟨by simp [lookups, h], by simp [transit, List.filterMap_cons_none h'], List.prefix_append _ _, by simp [hf],
    .refl _, fun _ => .inl⟩

theorem kept_sendLinkMessage (env : RoutingEnv) (p : PeerId) (msgType : Nat) (payload : Bytes) :
    Kept r (sendLinkMessage env p msgType payload r) := kept_log rfl rfl rfl

theorem kept_transmitOwn (env : RoutingEnv) (p : PeerId) (msgType : Nat) (payload : Bytes) :
    Kept r (transmit env .own p msgType payload r) := kept_sendLinkMessage env p msgType payload

theorem kept_modifyRole (p : PeerId) (f : PeerRole → PeerRole) : Kept r (r.modifyRole p f) := .same rfl rfl rfl rfl (.refl _)

theorem kept_later {task : RoutingTask} (h : task.lookup = false ∧ task.transit = [] ∧ ∀ minMtus, task.Founded minMtus) :
    Kept r (later task r) := by
  refine ⟨by simp [later, lookups, h.1], by simp [later, transit, h.2.1], List.prefix_rfl, rfl, .refl _, fun t ht => ?_⟩
  rcases List.mem_append.1 ht with hold | hnew
  · exact .inl hold
  · rw [List.mem_singleton.1 hnew]
    exact .inr h.2.2

theorem kept_cacheCoordinates (nodeAddr : NodeAddr) (coords : List NodeAddr) :
    Kept r (cacheCoordinates nodeAddr coords r) := by
  unfold cacheCoordinates
  split <;> exact .same rfl rfl rfl rfl (.refl _)

theorem kept_cacheEnds (d : SessionDatagram) (srcCoords destCoords : List NodeAddr) :
    Kept r (cacheEnds d srcCoords destCoords r) :=
  (kept_cacheCoordinates d.srcAddr srcCoords).trans (kept_cacheCoordinates d.destAddr destCoords)

theorem kept_cacheSessionCoordinates (d : SessionDatagram) : Kept r (cacheSessionCoordinates d r) := by
  unfold cacheSessionCoordinates
  dsimp only
  split
  · split
    · exact kept_cacheEnds d _ _
    · exact .refl r
  split
  · split
    · exact kept_cacheEnds d _ _
    · exact .refl r
  split
  · split
    · exact kept_cacheEnds d _ _
    · exact .refl r
  · exact .same rfl rfl rfl rfl (.refl _)

theorem kept_finishResolution (destNodeAddr : NodeAddr) (promise : Nat) (owner : Bool) :
    Kept r (finishResolution destNodeAddr promise owner r) := by
  unfold finishResolution
  split <;> exact .same rfl rfl rfl rfl (.refl _)

end

section
variable {S : Suite} {G : Schnorr} {cfg : RoutingConfig} {env : RoutingEnv} {r : Routing}

theorem kept_learnReverseRoute (destination : NodeAddr) (nextHop : PeerId) (pathMtu : Option Nat) :
    Kept r (learnReverseRoute S cfg env destination nextHop pathMtu r) := by
  unfold learnReverseRoute
  split
  · exact .same rfl rfl rfl rfl (.refl _)
  split <;> exact .same rfl rfl rfl rfl (.refl _)

theorem kept_nextHopFor (destNodeHex : NodeAddr) (excludedPeer : Option PeerId) (minMtu : Nat) :
    Kept r (nextHopFor S cfg env destNodeHex excludedPeer minMtu r).2 := by
  unfold nextHopFor
  split
  · exact .same rfl rfl rfl rfl (.refl _)
  dsimp only
  split <;> exact .same rfl rfl rfl rfl (.refl _)

theorem wp_nextHop {destNodeHex : NodeAddr} {excludedPeer : Option PeerId} {minMtu : Nat}
    {Q : Option PeerId → Routing → Prop} {E : String → Routing → Prop} :
    wp (nextHop S cfg env destNodeHex excludedPeer minMtu) Q E r ↔
      Q (nextHopFor S cfg env destNodeHex excludedPeer minMtu r).1
        (nextHopFor S cfg env destNodeHex excludedPeer minMtu r).2 := Iff.rfl

theorem quiet_nextHop (destNodeHex : NodeAddr) (excludedPeer : Option PeerId) (minMtu : Nat) :
    Quiet (nextHop S cfg env destNodeHex excludedPeer minMtu) :=
  fun _ => wp_nextHop.2 (kept_nextHopFor ..)

theorem quiet_resolveRoute (destNodeAddr : NodeAddr) : Quiet (resolveRoute destNodeAddr) := by
  refine fun r => ?_
  unfold resolveRoute
  rw [wp_bind, wp_get]
  split
  · exact wp_pure.2 (.refl r)
  · refine wp_ite.2 ⟨fun _ => ?_, fun _ => ?_⟩
    · rw [wp_bind, wp_throw]
      exact .refl r
    · rw [wp_bind, wp_set, wp_pure]
      have hpending : Kept r { r with
          promises := r.promises ++ [PromiseState.pending]
          pendingRouteResolutions := r.pendingRouteResolutions.set destNodeAddr r.promises.length } :=
        .same rfl rfl rfl rfl (.refl _)
      exact hpending.trans (kept_log (e := .resolveAndConnect destNodeAddr r.promises.length) rfl rfl rfl)

/-! ### Announcements -/

theorem quiet_sendTreeAnnounce (p : PeerId) : Quiet (sendTreeAnnounce S G cfg env p) := by
  unfold sendTreeAnnounce
  refine Quiet.ite (quiet_pure _) (Quiet.ite (quiet_get.bind fun r => Quiet.ite ?_ ?_) (quiet_get.bind fun r => ?_))
  · exact (quiet_modify fun _ => kept_sendLinkMessage ..).bind fun _ => quiet_pure _
  · refine Quiet.bind (quiet_modify fun r => ?_) fun _ => quiet_get.bind fun r => ?_
    · exact .same rfl rfl rfl rfl (.refl _)
    exact (quiet_modify fun _ => kept_sendLinkMessage ..).bind fun _ => quiet_pure _
  · refine (quiet_lift _).bind fun encoded => ?_
    exact (quiet_modify fun _ => kept_sendLinkMessage ..).bind fun _ => quiet_pure _

theorem kept_sendTreeAnnounceToAll : Kept r (sendTreeAnnounceToAll S G cfg env r) :=
  kept_foldl (fun _ p => kept_settled (quiet_sendTreeAnnounce p).discard _) _ _

theorem quiet_sendFilter (p : PeerId) : Quiet (sendFilter S cfg env p) := by
  refine fun r => ?_
  unfold sendFilter
  refine wp_ite.2 ⟨fun _ => wp_pure.2 (.refl r), fun _ => ?_⟩
  rw [wp_bind, wp_get]
  refine wp_bind.2 (wp_lift.2 ⟨fun filter _ => ?_, fun _ _ => .refl r⟩)
  refine wp_ite.2 ⟨fun _ => wp_pure.2 (.refl r), fun _ => ?_⟩
  rw [wp_bind, wp_set]
  refine wp_bind.2 (wp_lift.2 ⟨fun encoded _ => ?_, fun _ _ => .same rfl rfl rfl rfl (.refl _)⟩)
  rw [wp_bind, wp_modify]
  have hsent (r' : Routing) (h : Kept r r') : Kept r (sendLinkMessage env p LinkMessageType.FilterAnnounce encoded.tail r') :=
    h.trans (kept_sendLinkMessage ..)
  refine wp_ite.2 ⟨fun _ => ?_, fun _ => wp_pure.2 (hsent _ (.same rfl rfl rfl rfl (.refl _)))⟩
  rw [wp_bind, wp_modify, wp_pure]
  refine Kept.trans (hsent _ ?_) (kept_later ⟨rfl, rfl, fun _ => trivial⟩)
  exact .same rfl rfl rfl rfl (.refl _)

theorem kept_bloomSendAll (excludedPeer : Option PeerId) : Kept r (bloomSendAll S cfg env excludedPeer r) := by
  unfold bloomSendAll
  split
  · exact .same rfl rfl rfl rfl (.refl _)
  · exact kept_foldl (fun _ p => kept_settled (quiet_sendFilter p).discard _) _ _

theorem kept_scheduleTreeAnnounce (p : PeerId) : Kept r (scheduleTreeAnnounce cfg p r) := by
  have hfilter : Kept r (later (.filterAnnounce p) (r.modifyRole p fun role => { role with filterAnnounced := true })) :=
    (kept_modifyRole ..).trans (kept_later ⟨rfl, rfl, fun _ => trivial⟩)
  unfold scheduleTreeAnnounce
  dsimp only
  split
  · split
    · exact hfilter
    · exact hfilter.trans ((kept_modifyRole ..).trans (kept_later ⟨rfl, rfl, fun _ => trivial⟩))
  · split
    · exact .same rfl rfl rfl rfl (.refl _)
    · exact (kept_modifyRole ..).trans (kept_later ⟨rfl, rfl, fun _ => trivial⟩)

theorem kept_announceTimer {send : RM Bool} (h : Quiet send) {failed : RoutingTask}
    (hf : failed.lookup = false ∧ failed.transit = [] ∧ ∀ minMtus, failed.Founded minMtus) :
    Kept r (announceTimer send failed r) := by
  obtain ⟨hok, herror⟩ := wp_iff.1 (h r)
  unfold announceTimer
  split
  · exact hok _ _ ‹_›
  · exact (hok _ _ ‹_›).trans (kept_later hf)
  · exact (herror _ _ ‹_›).trans (kept_later hf)

theorem kept_refreshClientRole : Kept r (refreshClientRole S G cfg env r) := by
  unfold refreshClientRole
  split
  · exact kept_sendTreeAnnounceToAll
  · exact .same rfl rfl rfl rfl (.refl _)

theorem kept_removePeer (peerNodeAddr : NodeAddr) : Kept r (removePeer S G cfg env peerNodeAddr r) := by
  have htree : Kept r { r with treeState := (r.treeState.removePeer peerNodeAddr env.nowSeconds).2 } :=
    .same rfl rfl rfl rfl (.refl _)
  unfold removePeer
  dsimp only
  split
  · refine Kept.trans ?_ (kept_bloomSendAll none)
    split
    · exact htree.trans kept_sendTreeAnnounceToAll
    · exact htree
  · split
    · exact htree.trans kept_sendTreeAnnounceToAll
    · exact htree

theorem quiet_handleClientSupport (p : PeerId) (payload : Bytes) : Quiet (handleClientSupport S G cfg env p payload) := by
  unfold handleClientSupport
  refine quiet_get.bind fun r => Quiet.ite (quiet_pure _) ?_
  refine (quiet_modify fun _ => kept_modifyRole ..).bind fun _ => ?_
  exact Quiet.ite (quiet_sendTreeAnnounce p).discard (quiet_modify fun _ => kept_sendLinkMessage ..)

theorem quiet_handleClientOnly (p : PeerId) (payload : Bytes) : Quiet (handleClientOnly S G cfg env p payload) := by
  unfold handleClientOnly
  refine Quiet.ite (quiet_pure _) (quiet_get.bind fun r => Quiet.ite (quiet_pure _) ?_)
  refine (quiet_modify fun _ => kept_modifyRole ..).bind fun _ => Quiet.ite ?_ (quiet_pure _)
  refine (quiet_modify fun _ => kept_modifyRole ..).bind fun _ => ?_
  refine (quiet_modify fun _ => kept_removePeer _).bind fun _ => ?_
  exact quiet_modify fun _ => kept_bloomSendAll _

theorem quiet_handleTreeAnnounce (p : PeerId) (payload : Bytes) : Quiet (handleTreeAnnounce S G cfg env p payload) := by
  unfold handleTreeAnnounce
  refine quiet_get.bind fun r₀ => (quiet_lift _).bind fun announced => ?_
  cases announced with
  | none => exact quiet_pure _
  | some e =>
    refine (quiet_modify fun _ => kept_modifyRole ..).bind fun _ => fun r => ?_
    rw [wp_bind, wp_get, wp_bind, wp_set]
    have htree : Kept r { r with treeState := (r.treeState.updatePeer e.1 e.2 env.nowSeconds).2 } :=
      .same rfl rfl rfl rfl (.refl _)
    refine wp_mono (Quiet.ite ((quiet_modify fun _ => kept_sendTreeAnnounceToAll).bind fun _ => ?_) ?_ _)
      (fun _ _ => htree.trans) fun _ _ => htree.trans
    · refine Quiet.ite (Quiet.ite (quiet_modify fun _ => kept_later ⟨rfl, rfl, fun _ => trivial⟩) ?_) (quiet_pure _)
      exact quiet_modify fun _ => kept_bloomSendAll _
    · refine Quiet.ite (Quiet.ite (quiet_modify fun _ => kept_later ⟨rfl, rfl, fun _ => trivial⟩) ?_) (quiet_pure _)
      exact quiet_modify fun _ => kept_bloomSendAll _

theorem quiet_handleFilterAnnounce (p : PeerId) (payload : Bytes) :
    Quiet (handleFilterAnnounce S cfg env p payload) := by
  unfold handleFilterAnnounce
  refine (quiet_lift _).bind fun announce => quiet_get.bind fun r => Quiet.ite (quiet_pure _) ?_
  refine Quiet.ite (quiet_pure _) ((quiet_modify fun _ => kept_modifyRole ..).bind fun _ => ?_)
  exact quiet_get.bind fun r => Quiet.ite (quiet_modify fun _ => kept_bloomSendAll _) (quiet_pure _)

/-! ### Lookups of this node -/

theorem kept_transmitAllOwn (peers : List PeerId) (msgType : Nat) (payload : Bytes) :
    Kept r (transmitAll env .own peers msgType payload r) :=
  kept_foldl (fun _ p => kept_transmitOwn env p msgType payload) _ _

theorem quiet_answerLookup (p : PeerId) (request : LookupRequest) : Quiet (answerLookup S G cfg env p request) := by
  unfold answerLookup
  refine quiet_get.bind fun r => (quiet_lift _).bind fun proofBytes => (quiet_lift _).bind fun payload => ?_
  exact quiet_modify fun _ => kept_sendLinkMessage ..

theorem kept_resolveAndForwardLookup (key : ReverseKey) (rid : ReverseId) (p : PeerId) (target : NodeAddr) :
    Kept r (resolveAndForwardLookup key rid p target r) := by
  obtain ⟨hok, herror⟩ := wp_iff.1 (quiet_resolveRoute target r)
  unfold resolveAndForwardLookup
  split
  · exact (hok _ _ ‹_›).trans (kept_later ⟨rfl, rfl, fun _ => trivial⟩)
  · exact herror _ _ ‹_›

theorem quiet_handleOriginLookupResponse (p : PeerId) (payload : Bytes) :
    Quiet (handleOriginLookupResponse S G cfg env p payload) := by
  unfold handleOriginLookupResponse
  refine (quiet_lift _).bind fun response => quiet_get.bind fun r => ?_
  split
  · exact quiet_pure _
  · split
    · exact quiet_pure _
    · dsimp only
      refine Quiet.ite (quiet_pure _) (Quiet.ite (quiet_pure _) ((quiet_lift _).bind fun valid => ?_))
      refine Quiet.ite (quiet_pure _) (Quiet.ite (quiet_pure _) ?_)
      refine (quiet_modify fun _ => kept_cacheCoordinates ..).bind fun _ => ?_
      refine (quiet_modify fun _ => kept_learnReverseRoute ..).bind fun _ => ?_
      refine Quiet.bind (quiet_modify fun r => ?_) fun _ => quiet_pure _
      exact kept_originLookups (OriginLookupRegistry.follows_settle ..)

theorem quiet_sendLookup (lid : LookupId) (request : LookupRequest) (excludedPeer : Option PeerId) :
    Quiet (sendLookup S cfg env lid request excludedPeer) := by
  unfold sendLookup
  refine quiet_get.bind fun r => ?_
  cases r.originLookups.objs[lid]? with
  | none => exact quiet_pure _
  | some pending => exact (quiet_lift _).bind fun encoded => quiet_modify fun _ => kept_transmitAllOwn ..

theorem quiet_tryRound (lid : LookupId) (request : LookupRequest) (excludedPeer : Option PeerId) (first : Bool) :
    Quiet (tryRound S cfg env lid request excludedPeer first) := by
  unfold tryRound
  dsimp only
  refine Quiet.ite (fun r => ?_) (quiet_sendLookup lid request excludedPeer)
  rw [wp_bind, wp_get]
  refine wp_bind.2 (wp_lift.2 ⟨fun g hg => ?_, fun _ _ => .refl r⟩)
  rw [wp_bind, wp_modify]
  have hrenewed : Kept r { r with originLookups := g } := kept_originLookups (OriginLookupRegistry.follows_renew hg)
  exact wp_mono (quiet_sendLookup lid request excludedPeer _) (fun _ _ => hrenewed.trans) fun _ _ => hrenewed.trans

theorem kept_retryRound (lid : LookupId) (request : LookupRequest) (excludedPeer : Option PeerId) (first : Bool) :
    Kept r (retryRound S cfg env lid request excludedPeer first r) := by
  obtain ⟨hok, herror⟩ := wp_iff.1 ((@quiet_tryRound S cfg env lid request excludedPeer first) r)
  unfold retryRound
  split
  · split
    · exact (hok _ _ ‹_›).trans (kept_later ⟨rfl, rfl, fun _ => trivial⟩)
    · rename_i hrun
      have hkept := herror _ _ hrun
      exact hkept.trans (kept_originLookups (OriginLookupRegistry.follows_settle ..))
  · exact .same rfl rfl rfl rfl (.refl _)

theorem quiet_startLookup (target : NodeAddr) (targetPubkey : Option Bytes) (minMtu : Nat) (excludedPeer : Option PeerId) :
    Quiet (startLookup S cfg env target targetPubkey minMtu excludedPeer) := by
  unfold startLookup
  intro r
  rw [wp_bind, wp_get]
  refine wp_bind.2 (wp_lift.2 ⟨fun e he => ?_, fun _ _ => .refl r⟩)
  have hcreated : Kept r { r with originLookups := e.2 } := kept_originLookups (OriginLookupRegistry.follows_create he).1
  rw [wp_bind, wp_modify, wp_bind, wp_get, wp_bind, wp_modify, wp_pure]
  exact hcreated.trans (kept_retryRound ..)

theorem quiet_ensureFirstContactRoute (target : NodeAddr) (targetPubkey : Bytes) :
    Quiet (ensureFirstContactRoute S cfg env target targetPubkey) := by
  unfold ensureFirstContactRoute
  exact quiet_get.bind fun r => Quiet.ite (Quiet.discard (quiet_startLookup target _ 0 none)) (quiet_pure _)

theorem quiet_assertNodeAllowed (nodeAddr : NodeAddr) : Quiet (assertNodeAllowed env nodeAddr) := by
  unfold assertNodeAllowed
  exact Quiet.ite (quiet_throw _) (quiet_pure _)

theorem quiet_sendFspReplyToward (remoteNodeAddr : NodeAddr) (frame : Bytes) (previousHop : PeerId) :
    Quiet (sendFspReplyToward cfg env remoteNodeAddr frame previousHop) := by
  unfold sendFspReplyToward
  exact (quiet_lift _).bind fun encoded => quiet_modify fun _ => kept_sendLinkMessage ..

theorem quiet_handleLookupResponseMessage (p : PeerId) (payload : Bytes) :
    Quiet (handleLookupResponseMessage S G cfg env p payload) := by
  unfold handleLookupResponseMessage
  refine (quiet_handleOriginLookupResponse p payload).bind fun mine => Quiet.ite ?_ (quiet_pure _)
  exact quiet_modify fun _ => kept_later ⟨rfl, rfl, fun _ => trivial⟩

end

end Routing

end Fips
