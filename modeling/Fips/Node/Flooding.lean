import Fips.Node.LookupForwarding

/-!
# Steps and runs of the routing layer

A step makes reverse paths for at most the request it receives and passes on at most the datagram it receives; a task
that runs strikes from the record exactly the next hops it knows to have failed.
-/

namespace Fips
open Exec LittleEndian

namespace Routing.Event

/-- The surroundings of the event. -/
def env : Event → Option RoutingEnv
  | .handleLinkMessage env .. | .task env _ | .removePeer env _ | .refreshClientRole env | .replayPendingLookupsFor env _
  | .ensureFirstContactRoute env .. | .sendFspToward env .. | .sendFspReplyToward env .. | .learnReverseRoute env ..
  | .hasUsableRoute env _ | .stop env => some env
  | .resolution .. | .lookupTimeout _ | .scheduleTreeAnnounce _ => none

/-- The message that is received. -/
def received (msgType : Nat) : Event → Option Bytes
  | .handleLinkMessage _ _ ty payload => if ty = msgType then some payload else none
  | _ => none

/-- What is passed on of a received request. -/
def requests (e : Event) : Multiset LookupRequest :=
  (e.received LinkMessageType.LookupRequest).elim 0 Routing.loweredRequest

/-- What is passed on of a received datagram. -/
def datagrams (e : Event) : List SessionDatagram :=
  (e.received LinkMessageType.SessionDatagram).elim [] Routing.lowered

def Network (S : Suite) (N : Set NodeAddr) (e : Event) : Prop := ∀ env ∈ e.env, env.Network S N

end Routing.Event

namespace Routing

/-- What a step does for other nodes. -/
structure Passes (S : Suite) (e : Event) (r r' : Routing) : Prop where
  inv : r'.lookups.Inv
  transit : r'.transit ≤ r.transit + e.datagrams
  log : r.log <+: r'.log
  requests : r'.lookups.requests ≤ r.lookups.requests + e.requests
  claimed : ∀ N, e.Network S N → r.lookups.Claimed S N → r'.lookups.Claimed S N

section
variable {S : Suite} {G : Schnorr} {cfg : RoutingConfig} {env : RoutingEnv} {r r' : Routing} {e : Event}

theorem Kept.passes (h : Kept r r') (hr : r.lookups.Inv) : Passes S e r r' := by
  refine ⟨h.lookups ▸ hr, ?_, h.log, ?_, fun N _ hc => h.lookups ▸ hc⟩
  · rw [h.transit]
    exact Multiset.le_add_right _ _
  · rw [h.lookups]
    exact Multiset.le_add_right _ _

theorem Forwards.passes {D : Multiset LookupRequest} (h : Forwards S env D r r') (henv : e.env = some env) (hD : D ≤ e.requests) :
    Passes S e r r' where
  inv := h.inv
  transit := h.transit.le.trans (Multiset.le_add_right _ _)
  log := h.log
  requests := h.requests.trans (add_le_add_right hD _)
  claimed N hN := h.claimed N (hN env henv)

theorem PassesOn.passes {D : List SessionDatagram} {x : RM Unit} (h : PassesOn D x) (hr : r.lookups.Inv) (hD : D = e.datagrams) :
    Passes S e r (settled x r) := by
  obtain ⟨hl, ht, hlog⟩ := h.passed r
  refine ⟨hl ▸ hr, hD ▸ ht, hlog, ?_, fun N _ hc => hl ▸ hc⟩
  rw [hl]
  exact Multiset.le_add_right _ _

/-! ### Messages -/

theorem passes_handleLinkMessage (hr : r.lookups.Inv) (p : PeerId) (msgType : Nat) (payload : Bytes) :
    Passes S (.handleLinkMessage env p msgType payload) r (settled (handleLinkMessage S G cfg env p msgType payload) r) := by
  have hquiet {x : RM Unit} (h : Quiet x) : Passes S (.handleLinkMessage env p msgType payload) r (settled x r) :=
    (kept_settled h r).passes hr
  unfold handleLinkMessage
  split
  · exact hquiet (quiet_handleClientSupport p payload)
  split
  · exact hquiet (quiet_handleClientOnly p payload)
  split
  · exact hquiet (quiet_handleTreeAnnounce p payload)
  split
  · exact hquiet (quiet_handleFilterAnnounce p payload)
  split
  · rename_i hty
    refine (forwarding_handleLookupRequestMessage hr p payload).forwards.passes rfl ?_
    simp [Event.requests, Event.received, hty]
  split
  · exact hquiet (quiet_handleLookupResponseMessage p payload)
  split
  · rename_i hty
    refine (passesOn_handleSessionDatagram p payload).passes hr ?_
    simp [Event.datagrams, Event.received, hty]
  · exact hquiet (quiet_pure _)

/-! ### Tasks -/

variable {i : Nat} {task : RoutingTask}

theorem tasks_perm (h : r.tasks[i]? = some task) : r.tasks.Perm (task :: r.tasks.eraseIdx i) := by
  obtain ⟨hi, rfl⟩ := List.getElem?_eq_some_iff.1 h
  exact (List.getElem_cons_eraseIdx_perm hi).symm

theorem transit_eraseIdx (h : r.tasks[i]? = some task) :
    r.transit = ({ r with tasks := r.tasks.eraseIdx i } : Routing).transit + task.transit := by
  have hperm := (tasks_perm h).flatMap_right RoutingTask.transit
  rw [List.flatMap_cons] at hperm
  show ↑_ + ↑_ = (↑_ + ↑_) + _
  rw [Multiset.coe_eq_coe.2 hperm, ← Multiset.coe_add, add_assoc, add_comm (↑task.transit : Multiset SessionDatagram)]

theorem flatMap_unreached (tasks : List RoutingTask) :
    (tasks.filter RoutingTask.lookup).flatMap RoutingTask.unreached = tasks.flatMap RoutingTask.unreached := by
  induction tasks with
  | nil => rfl
  | cons task tasks ih =>
    rw [List.filter_cons, List.flatMap_cons, ← ih]
    cases task <;> rfl

theorem claims_eraseIdx (h : r.tasks[i]? = some task) :
    (r.lookups.claims S).Perm (task.unreached ++ ({ r with tasks := r.tasks.eraseIdx i } : Routing).lookups.claims S) := by
  have hperm := (tasks_perm h).flatMap_right RoutingTask.unreached
  rw [List.flatMap_cons] at hperm
  have hclaims (r : Routing) : r.lookups.claims S = (r.log.filter RoutingEffect.lookup).filterMap (RoutingEffect.reached S) ++
      r.tasks.flatMap RoutingTask.unreached := by
    rw [← flatMap_unreached]
    rfl
  rw [hclaims, hclaims]
  refine (hperm.append_left _).trans ?_
  rw [← List.append_assoc, ← List.append_assoc]
  exact List.perm_append_comm.append_right _

/-- Without the task, and with what it will strike still on record. -/
theorem claimed_eraseIdx {N : Set NodeAddr} (h : r.tasks[i]? = some task) (hc : r.lookups.Claimed S N) :
    ({ r with tasks := r.tasks.eraseIdx i } : Routing).lookups.Claimed S N ∧
      ∀ e ∈ task.unreached, e ∉ ({ r with tasks := r.tasks.eraseIdx i } : Routing).lookups.claims S := by
  have hperm := claims_eraseIdx (S := S) h
  obtain ⟨-, hnodup, hdisjoint⟩ := List.nodup_append.1 (hperm.nodup_iff.1 hc.nodup)
  have hsub {e : ReverseId × NodeAddr} (he : e ∈ ({ r with tasks := r.tasks.eraseIdx i } : Routing).lookups.claims S) :=
    hperm.mem_iff.2 (List.mem_append_right _ he)
  exact ⟨⟨hnodup, fun e he => hc.recorded e (hsub he), fun e he => hc.known e (hsub he)⟩,
    fun e he he' => hdisjoint e he e he' rfl⟩

/-! ### Failed next hops -/

theorem claims_dropForwarded (rid : ReverseId) (nextHop : NodeAddr) (r : Routing) :
    (dropForwarded rid nextHop r).lookups.claims S = r.lookups.claims S := rfl

/-- The state after next hops have been struck from the record of a reverse path. -/
structure Struck (S : Suite) (r r' : Routing) : Prop where
  inv : r'.lookups.Inv
  transit : r'.transit = r.transit
  log : r.log <+: r'.log
  requests : r'.lookups.requests = r.lookups.requests

theorem struck_dropForwarded (hr : r.lookups.Inv) (rid : ReverseId) (nextHop : NodeAddr) :
    Struck S r (dropForwarded rid nextHop r) :=
  ⟨hr.modify fun _ => rfl, rfl, List.prefix_rfl, @Lookups.requests_modify r.lookups rid (fun reverse =>
    { reverse with forwardedNextHops := reverse.forwardedNextHops.erase nextHop }) fun _ => rfl⟩

theorem claimed_dropForwarded {N : Set NodeAddr} {rid : ReverseId} {nextHop : NodeAddr} (hc : r.lookups.Claimed S N)
    (hnot : (rid, nextHop) ∉ r.lookups.claims S) : (dropForwarded rid nextHop r).lookups.Claimed S N := by
  refine Lookups.Claimed.drop hc.nodup (fun e he => ⟨fun heq => hnot (heq ▸ he), hc.recorded e he⟩) hc.known

theorem struck_foldl (hr : r.lookups.Inv) (rid : ReverseId) (failed : List (NodeAddr × Bool)) :
    Struck S r (failed.foldl (fun r e => dropForwarded rid e.1 r) r) ∧
      ∀ N, r.lookups.Claimed S N → (∀ e ∈ failed, (rid, e.1) ∉ r.lookups.claims S) →
        (failed.foldl (fun r e => dropForwarded rid e.1 r) r).lookups.Claimed S N := by
  induction failed generalizing r with
  | nil => exact ⟨⟨hr, rfl, List.prefix_rfl, rfl⟩, fun N hc _ => hc⟩
  | cons e failed ih =>
    have hone := struck_dropForwarded (S := S) hr rid e.1
    obtain ⟨hrest, hclaimed⟩ := ih hone.inv
    refine ⟨⟨hrest.inv, hrest.transit.trans hone.transit, hone.log.trans hrest.log, hrest.requests.trans hone.requests⟩,
      fun N hc hnot => ?_⟩
    refine hclaimed N (claimed_dropForwarded hc (hnot e List.mem_cons_self)) fun e' he' => ?_
    rw [claims_dropForwarded]
    exact hnot e' (List.mem_cons_of_mem _ he')

theorem struck_finishForward (hr : r.lookups.Inv) (key : ReverseKey) (rid : ReverseId) (results : List (NodeAddr × Bool)) :
    Struck S r (finishForward key rid results r) ∧ ∀ N, r.lookups.Claimed S N →
      (∀ e ∈ (RoutingTask.forwarded key rid results).unreached, e ∉ r.lookups.claims S) →
        (finishForward key rid results r).lookups.Claimed S N := by
  obtain ⟨hstruck, hclaimed⟩ := struck_foldl (S := S) hr rid (results.filter fun e => !e.2)
  have hnot (hall : ∀ e ∈ (RoutingTask.forwarded key rid results).unreached, e ∉ r.lookups.claims S) :
      ∀ e ∈ results.filter fun e => !e.2, (rid, e.1) ∉ r.lookups.claims S :=
    fun e he => hall (rid, e.1) (List.mem_map_of_mem (f := fun e : NodeAddr × Bool => (rid, e.1)) he)
  unfold finishForward
  dsimp only
  split
  · have hdelete := @Lookups.Inv.of_sublist _ hstruck.inv (JsMap.delete _ key) List.filter_sublist
    refine ⟨⟨hdelete, hstruck.transit, hstruck.log, hstruck.requests⟩, fun N hc hall => ?_⟩
    exact (hclaimed N hc (hnot hall)).of_reverses rfl rfl fun _ v hv => ⟨v, hv, subset_rfl⟩
  · exact ⟨hstruck, fun N hc hall => hclaimed N hc (hnot hall)⟩

/-! ### Steps -/

/-- What the running of a task does to the state without the task. -/
structure Ran (S : Suite) (env : RoutingEnv) (task : RoutingTask) (r r' : Routing) : Prop where
  inv : r'.lookups.Inv
  transit : r'.transit ≤ r.transit + task.transit
  log : r.log <+: r'.log
  requests : r'.lookups.requests ≤ r.lookups.requests
  claimed : ∀ N, env.Network S N → r.lookups.Claimed S N → (∀ e ∈ task.unreached, e ∉ r.lookups.claims S) →
    r'.lookups.Claimed S N

theorem Kept.ran (h : Kept r r') (hr : r.lookups.Inv) : Ran S env task r r' := by
  refine ⟨h.lookups ▸ hr, h.transit.le.trans (Multiset.le_add_right _ _), h.log, ?_, fun N _ hc _ => h.lookups ▸ hc⟩
  rw [h.lookups]

theorem Quiet.ran {x : RM Unit} (h : Quiet x) (hr : r.lookups.Inv) : Ran S env task r (settled x r) := (kept_settled h r).ran hr

theorem Forwarding.ran {x : RM Unit} (h : Forwarding S env 0 x r) : Ran S env task r (settled x r) := by
  have hs := h.forwards
  exact ⟨hs.inv, hs.transit.le.trans (Multiset.le_add_right _ _), hs.log, by simpa using hs.requests,
    fun N hN hc _ => hs.claimed N hN hc⟩

theorem PassesOn.ran {x : RM Unit} (h : PassesOn task.transit x) (hr : r.lookups.Inv) : Ran S env task r (settled x r) := by
  obtain ⟨hl, ht, hlog⟩ := h.passed r
  refine ⟨hl ▸ hr, ht, hlog, ?_, fun N _ hc _ => hl ▸ hc⟩
  rw [hl]

theorem Struck.ran (h : Struck S r r') (hclaimed : ∀ N, r.lookups.Claimed S N →
    (∀ e ∈ task.unreached, e ∉ r.lookups.claims S) → r'.lookups.Claimed S N) : Ran S env task r r' :=
  ⟨h.inv, h.transit.le.trans (Multiset.le_add_right _ _), h.log, h.requests.le, fun N _ => hclaimed N⟩

theorem ran_runTask (hr : r.lookups.Inv) (task : RoutingTask) : Ran S env task r (settled (runTask S G cfg env task) r) := by
  cases task with
  | treeAnnounce p =>
    exact Quiet.ran (quiet_modify fun _ => kept_announceTimer (quiet_sendTreeAnnounce p) ⟨rfl, rfl, fun _ => trivial⟩) hr
  | treeAnnounceFailed p => exact Quiet.ran (quiet_modify fun _ => kept_modifyRole ..) hr
  | filterAnnounce p => exact Quiet.ran (quiet_modify fun _ => kept_announceTimer (quiet_sendFilter p) ⟨rfl, rfl, fun _ => trivial⟩) hr
  | filterAnnounceFailed p => exact Quiet.ran (quiet_modify fun _ => kept_modifyRole ..) hr
  | filterFailed p sequence previous => exact Quiet.ran (quiet_modify fun _ => kept_modifyRole ..) hr
  | bloomSendAll excludedPeer => exact Quiet.ran (quiet_modify fun _ => kept_bloomSendAll _) hr
  | forwarded key rid results =>
    obtain ⟨hstruck, hclaimed⟩ := struck_finishForward (S := S) hr key rid results
    exact hstruck.ran hclaimed
  | sent rid nextHop ok =>
    cases ok with
    | true => exact Quiet.ran (quiet_pure _) hr
    | false =>
      exact (struck_dropForwarded hr rid nextHop).ran fun N hc hall =>
        claimed_dropForwarded hc (hall _ (List.mem_singleton_self _))
  | resolveLookup key rid source promise owner =>
    refine Forwarding.ran ((quiet_modify fun _ => kept_finishResolution ..).bind_forwarding hr fun _ r₁ hr₁ => ?_)
    refine quiet_get.bind_forwarding hr₁ fun r₂ r₃ hr₃ => wp_ite.2 ⟨fun _ => forwarding_forwardResolved hr₃ source, fun _ => ?_⟩
    exact wp_pure.2 (forwards_refl hr₃)
  | forwardLookupResponse p payload => exact (forwarding_forwardLookupResponse hr p payload).ran
  | retry lid request excludedPeer => exact Quiet.ran (quiet_modify fun _ => kept_retryRound ..) hr
  | datagramResolving d promise owner =>
    refine PassesOn.ran ((quiet_modify fun _ => kept_finishResolution ..).bind_passesOn fun _ => ?_) hr
    refine quiet_get.bind_passesOn fun r₁ => PassesOn.ite (passesOn_throw _ _) ?_
    exact (quiet_nextHop _ _ _).bind_passesOn fun found => passesOn_dispatch found
  | datagramRefreshing d lid own minMtu frames =>
    exact (@PassesOn.ran _ _ _ (.datagramRefreshing d lid own minMtu frames)) (passesOn_refreshed lid own minMtu frames) hr
  | datagramSending d hop frames =>
    exact (@PassesOn.ran _ _ _ (.datagramSending d hop frames)) (passesOn_sendFrames hop frames) hr

theorem passes_step (hr : r.lookups.Inv) (e : Event) : Passes S e r (step S G cfg r e) := by
  cases e with
  | handleLinkMessage env p msgType payload => exact passes_handleLinkMessage hr p msgType payload
  | task env index =>
    show Passes S _ r (continueTask S G cfg env index r)
    unfold continueTask
    split
    · exact (Kept.refl r).passes hr
    · rename_i task htask
      split
      · exact (Kept.refl r).passes hr
      · have hr₀ : ({ r with tasks := r.tasks.eraseIdx index } : Routing).lookups.Inv := hr.withTasks _
        obtain ⟨hinv, htransit, hlog, hrequests, hclaimed⟩ := (@ran_runTask S G cfg env) hr₀ task
        refine ⟨hinv, ?_, hlog, hrequests.trans (Multiset.le_add_right _ _), fun N hN hc => ?_⟩
        · rw [← transit_eraseIdx htask] at htransit
          exact htransit.trans (Multiset.le_add_right _ _)
        · obtain ⟨hc₀, hnot⟩ := claimed_eraseIdx htask hc
          exact hclaimed N (hN env rfl) hc₀ hnot
  | resolution promise outcome =>
    refine Kept.passes ?_ hr
    show Kept r (settleResolution promise outcome r)
    unfold settleResolution
    split <;> exact .same rfl rfl rfl rfl (.refl _)
  | lookupTimeout lid => exact (kept_originLookups (OriginLookupRegistry.follows_settle ..)).passes hr
  | removePeer env peerNodeAddr => exact (kept_removePeer _).passes hr
  | scheduleTreeAnnounce p => exact (kept_scheduleTreeAnnounce p).passes hr
  | refreshClientRole env => exact kept_refreshClientRole.passes hr
  | replayPendingLookupsFor env p => exact (forwards_replayPendingLookupsFor hr p).passes rfl (Multiset.zero_le _)
  | ensureFirstContactRoute env target targetPubkey =>
    exact (kept_settled (quiet_ensureFirstContactRoute target targetPubkey) r).passes hr
  | sendFspToward env remoteNodeAddr frame => exact (passesOn_sendFspToward remoteNodeAddr frame).passes hr rfl
  | sendFspReplyToward env remoteNodeAddr frame previousHop =>
    exact (kept_settled (quiet_sendFspReplyToward remoteNodeAddr frame previousHop) r).passes hr
  | learnReverseRoute env destination nextHop pathMtu => exact (kept_learnReverseRoute ..).passes hr
  | hasUsableRoute env nodeAddr => exact (kept_nextHopFor ..).passes hr
  | stop env =>
    have hstop := (@forwards_of_sublist S env 0) hr (List.nil_sublist _)
    exact ⟨hstop.inv, Multiset.le_add_right _ _, List.prefix_rfl, Multiset.le_add_right _ _,
      fun N hN hc => hstop.claimed N (hN env rfl) hc⟩

end

end Routing

end Fips
