import Fips.Lib.HopLimit
import Fips.Lib.Run
import Fips.Node.Flooding

/-!
# The bound on flooding

What a node has sent for others after a run goes back to what it has received: every datagram to one datagram with a larger
hop limit, every request to the request its reverse path was made for, once for each next hop. In a network where messages
are not received more often than they are sent, whatever is originated therefore causes a bounded number of messages.

The limit of a request is lowered when its reverse path is made. A copy that comes again with a smaller one makes the node
send the request of the reverse path, not the copy.
-/

namespace Fips
open Exec LittleEndian

/-- The request that has been sent on a reverse path. -/
def RoutingEffect.flooded : RoutingEffect → Option LookupRequest
  | .send m =>
    match m.cause with
    | .reverse _ =>
      if m.ok ∧ m.msgType = LinkMessageType.LookupRequest then (decodeLookupRequest m.payload).toOption else none
    | _ => none
  | _ => none

namespace Routing

namespace Event

/-- The request that is received. -/
def heardRequest (e : Event) : Multiset LookupRequest :=
  (e.received LinkMessageType.LookupRequest).elim 0 fun payload => ↑(decodeLookupRequest payload).toOption.toList

/-- The datagram that is received. -/
def heardDatagram (e : Event) : Multiset SessionDatagram :=
  (e.received LinkMessageType.SessionDatagram).elim 0 fun payload => ↑(decodeSessionDatagramPayload payload).toOption.toList

end Event

/-- The requests that have been sent on reverse paths. -/
def flooded (r : Routing) : Multiset LookupRequest := ↑(r.log.filterMap RoutingEffect.flooded)

/-- The datagrams of other nodes that have been sent. -/
def passedOn (r : Routing) : Multiset SessionDatagram := ↑(r.log.filterMap RoutingEffect.transit)

/-- The requests for which reverse paths have been made. -/
def paths (r : Routing) : Multiset LookupRequest := ↑(r.reverses.map LookupReversePath.request)

/-- What a node has done for other nodes after the events. -/
structure Bounded (S : Suite) (es : List Event) (r : Routing) : Prop where
  inv : r.lookups.Inv
  transit : r.transit ≤ (es.map fun e => (↑e.datagrams : Multiset SessionDatagram)).sum
  requests : r.paths ≤ (es.map Event.requests).sum
  claimed : ∀ N, (∀ e ∈ es, e.Network S N) → r.lookups.Claimed S N

section
variable {S : Suite} {G : Schnorr} {cfg : RoutingConfig} {r r' : Routing} {e : Event} {es : List Event}
  {N : Set NodeAddr}

theorem bounded_new (nowSeconds : Nat) : Bounded S [] (new cfg nowSeconds) where
  inv :=
    { keyed := fun _ he => absurd he List.not_mem_nil
      keys := List.nodup_nil
      few := Nat.zero_le _
      wire := fun _ h => absurd h List.not_mem_nil
      sent := fun _ h => absurd h List.not_mem_nil
      answered := fun _ => Nat.zero_le _ }
  transit := le_rfl
  requests := le_rfl
  claimed _ _ :=
    { nodup := List.nodup_nil
      recorded := fun _ h => absurd h List.not_mem_nil
      known := fun _ h => absurd h List.not_mem_nil }

theorem Bounded.step (h : Bounded S es r) (e : Event) : Bounded S (es ++ [e]) (step S G cfg r e) := by
  have hpasses := @passes_step S G cfg r h.inv e
  refine ⟨hpasses.inv, ?_, ?_, fun N hN => ?_⟩
  · rw [List.map_append, List.sum_append, List.map_singleton, List.sum_singleton]
    exact hpasses.transit.trans (add_le_add_left h.transit _)
  · rw [List.map_append, List.sum_append, List.map_singleton, List.sum_singleton]
    exact hpasses.requests.trans (add_le_add_left h.requests _)
  · refine hpasses.claimed N (hN e (List.mem_append_right _ (List.mem_singleton_self e))) ?_
    exact h.claimed N fun e' he' => hN e' (List.mem_append_left _ he')

theorem bounded_run (nowSeconds : Nat) (es : List Event) :
    Bounded S es (Run.run (Routing.step S G cfg) (new cfg nowSeconds) es) := by
  induction es using List.reverseRecOn with
  | nil => exact bounded_new nowSeconds
  | append_singleton es e ih =>
    rw [Run.run_append]
    exact ih.step e

/-! ### What is sent -/

theorem Bounded.sent (h : Bounded S es r) {m : LinkSend} {rid : ReverseId} (hm : .send m ∈ r.log)
    (hcause : m.cause = .reverse rid) : r.lookups.Sent rid m := by
  refine h.inv.sent m (List.mem_filter.2 ⟨hm, ?_⟩) rid hcause
  simp only [RoutingEffect.lookup, hcause]

theorem reached_lookup (log : List RoutingEffect) :
    (log.filter RoutingEffect.lookup).filterMap (RoutingEffect.reached S) = log.filterMap (RoutingEffect.reached S) := by
  rw [List.filterMap_filter]
  refine List.filterMap_congr fun effect _ => ?_
  cases effect with
  | send m =>
    cases hcause : m.cause with
    | own => simp only [RoutingEffect.lookup, RoutingEffect.reached, hcause, Bool.false_eq_true, if_false]
    | transit q => simp only [RoutingEffect.lookup, RoutingEffect.reached, hcause, Bool.false_eq_true, if_false]
    | reverse rid => simp only [RoutingEffect.lookup, hcause, if_true]
  | handleLocalSession p src payload => rfl
  | resolveAndConnect dest promise => rfl

/-- Of the messages of reverse paths, what has been sent is on record. -/
theorem reached_claims (h : r.lookups.Claimed S N) : (r.log.filterMap (RoutingEffect.reached S)).Nodup ∧
    ∀ c ∈ r.log.filterMap (RoutingEffect.reached S), c.1 < r.reverses.length ∧ c.2 ∈ N := by
  rw [← reached_lookup]
  refine ⟨h.nodup.of_append_left, fun c hc => ?_⟩
  have hclaim : c ∈ r.lookups.claims S := List.mem_append_left _ hc
  obtain ⟨reverse, hreverse, -⟩ := h.recorded c hclaim
  exact ⟨(List.getElem?_eq_some_iff.1 hreverse).1, h.known c hclaim⟩

/-- What is sent on a reverse path weighs what its request does. -/
theorem flooded_weight (h : Bounded S es r) (f : LookupRequest → Nat) :
    (r.flooded.map f).sum = ((r.log.filterMap (RoutingEffect.reached S)).map fun c =>
      (r.reverses[c.1]?).elim 0 fun reverse => f reverse.request).sum := by
  unfold flooded
  rw [Multiset.map_coe, Multiset.sum_coe, List.map_filterMap, List.map_filterMap]
  refine congrArg List.sum (List.filterMap_congr fun effect heffect => ?_)
  cases effect with
  | handleLocalSession p src payload => rfl
  | resolveAndConnect dest promise => rfl
  | send m =>
    cases hcause : m.cause with
    | own => simp only [RoutingEffect.flooded, RoutingEffect.reached, hcause, Option.map_none]
    | transit q => simp only [RoutingEffect.flooded, RoutingEffect.reached, hcause, Option.map_none]
    | reverse rid =>
      obtain ⟨reverse, hreverse, hsent⟩ := h.sent heffect hcause
      simp only [RoutingEffect.flooded, RoutingEffect.reached, hcause]
      by_cases hok : m.ok ∧ m.msgType = LinkMessageType.LookupRequest
      · rw [if_pos hok, if_pos hok]
        rcases hsent with ⟨-, hdecode⟩ | hresponse
        · rw [hdecode]
          show some (f reverse.request) = some ((r.reverses[rid]?).elim 0 fun reverse => f reverse.request)
          rw [show r.reverses[rid]? = some reverse from hreverse]
          rfl
        · exact absurd (hok.2.symm.trans hresponse) (by decide)
      · rw [if_neg hok, if_neg hok]
        rfl

open HopLimit

theorem charge_loweredRequest (n : Nat) (payload : Bytes) : n * charge n LookupRequest.ttl (loweredRequest payload) ≤
    total n LookupRequest.ttl ↑(decodeLookupRequest payload).toOption.toList := by
  unfold loweredRequest
  cases decodeLookupRequest payload with
  | error _ => exact (Nat.mul_zero n).le
  | ok request =>
    have htotal : total n LookupRequest.ttl ↑((Except.ok request : Except String LookupRequest).toOption.toList) =
        cost n request.ttl := Multiset.sum_singleton _
    rw [htotal]
    dsimp only
    split
    · exact (Nat.mul_zero n).le.trans (Nat.zero_le _)
    · rename_i httl
      obtain ⟨t, ht⟩ := Nat.exists_eq_succ_of_ne_zero httl
      have hcharge : charge n LookupRequest.ttl {lowerRequest request} = cost n t + 1 := by
        show cost n (request.ttl - 1) + 1 + 0 = _
        rw [ht]
        rfl
      rw [hcharge, ht]
      rfl

theorem charge_requests (n : Nat) (es : List Event) : n * charge n LookupRequest.ttl (es.map Event.requests).sum ≤
    total n LookupRequest.ttl (es.map Event.heardRequest).sum := by
  induction es with
  | nil => exact (Nat.mul_zero n).le
  | cons e es ih =>
    rw [List.map_cons, List.map_cons, List.sum_cons, List.sum_cons, charge_add, total_add, Nat.mul_add]
    refine add_le_add ?_ ih
    unfold Event.requests Event.heardRequest
    cases e.received LinkMessageType.LookupRequest with
    | none => exact (Nat.mul_zero n).le
    | some payload => exact charge_loweredRequest n payload

/-- The requests that a node has sent are paid for by those that it has received. -/
theorem charge_flooded {N : Finset NodeAddr} (h : Bounded S es r) (hN : ∀ e ∈ es, e.Network S N) :
    charge N.card LookupRequest.ttl r.flooded ≤ total N.card LookupRequest.ttl (es.map Event.heardRequest).sum := by
  obtain ⟨hnodup, hmem⟩ := reached_claims (h.claimed N hN)
  calc charge N.card LookupRequest.ttl r.flooded
      = ((r.log.filterMap (RoutingEffect.reached S)).map fun c =>
          (r.reverses[c.1]?).elim 0 fun reverse => cost N.card reverse.request.ttl + 1).sum :=
        flooded_weight h fun request => cost N.card request.ttl + 1
    _ ≤ N.card * ∑ i ∈ Finset.range r.reverses.length,
          (r.reverses[i]?).elim 0 fun reverse => cost N.card reverse.request.ttl + 1 :=
        sum_le_of_nodup hnodup hmem fun i => (r.reverses[i]?).elim 0 fun reverse => cost N.card reverse.request.ttl + 1
    _ = N.card * charge N.card LookupRequest.ttl r.paths := by
      rw [sum_range_get]
      unfold charge paths
      rw [Multiset.map_coe, Multiset.sum_coe, List.map_map]
      rfl
    _ ≤ N.card * charge N.card LookupRequest.ttl (es.map Event.requests).sum :=
        Nat.mul_le_mul_left _ (charge_mono h.requests)
    _ ≤ total N.card LookupRequest.ttl (es.map Event.heardRequest).sum := charge_requests _ _

theorem charge_lowered (payload : Bytes) : charge 1 SessionDatagram.ttl ↑(lowered payload) ≤
    total 1 SessionDatagram.ttl ↑(decodeSessionDatagramPayload payload).toOption.toList := by
  unfold lowered
  cases decodeSessionDatagramPayload payload with
  | error _ => exact le_rfl
  | ok d =>
    have htotal : total 1 SessionDatagram.ttl ↑((Except.ok d : Except String SessionDatagram).toOption.toList) =
        cost 1 d.ttl := Multiset.sum_singleton _
    rw [htotal, cost_one]
    dsimp only
    split
    · rename_i httl
      show cost 1 (d.ttl - 1) + 1 + 0 ≤ _
      rw [cost_one]
      omega
    · exact Nat.zero_le _

theorem charge_datagrams (es : List Event) :
    charge 1 SessionDatagram.ttl (es.map fun e => (↑e.datagrams : Multiset SessionDatagram)).sum ≤
      total 1 SessionDatagram.ttl (es.map Event.heardDatagram).sum := by
  induction es with
  | nil => exact le_rfl
  | cons e es ih =>
    rw [List.map_cons, List.map_cons, List.sum_cons, List.sum_cons, charge_add, total_add]
    refine add_le_add ?_ ih
    unfold Event.datagrams Event.heardDatagram
    cases e.received LinkMessageType.SessionDatagram with
    | none => exact le_rfl
    | some payload => exact charge_lowered payload

theorem passedOn_le (r : Routing) : r.passedOn ≤ r.transit := Multiset.le_add_right _ _

/-- So are the datagrams. -/
theorem charge_passedOn (h : Bounded S es r) :
    charge 1 SessionDatagram.ttl r.passedOn ≤ total 1 SessionDatagram.ttl (es.map Event.heardDatagram).sum :=
  (charge_mono ((passedOn_le r).trans h.transit)).trans (charge_datagrams es)

/-! ### Nodes and networks -/

/-- What a node may send for other nodes after the events. -/
structure Disciplined (es : List Event) (r : Routing) : Prop where
  few : r.lookupReversePaths.length ≤ MAX_LOOKUP_REVERSE_PATHS
  /-- Each reverse path has a received request, with a smaller limit. -/
  paths : r.paths ≤ (es.map Event.requests).sum
  lowerRequest : ∀ request ∈ r.paths, ∃ e ∈ es, ∃ heard ∈ e.heardRequest, request = Routing.lowerRequest heard ∧
    request.ttl < heard.ttl
  /-- A request sent on a reverse path is that of the path. -/
  request : ∀ m rid, .send m ∈ r.log → m.cause = .reverse rid → m.msgType = LinkMessageType.LookupRequest →
    ∃ reverse, r.reverses[rid]? = some reverse ∧ decodeLookupRequest m.payload = .ok reverse.request
  response : ∀ rid, r.log.countP (RoutingEffect.answers rid) ≤ 1
  datagrams : r.passedOn ≤ (es.map fun e => (↑e.datagrams : Multiset SessionDatagram)).sum
  lowerDatagram : ∀ d ∈ r.passedOn, ∃ e ∈ es, ∃ heard ∈ e.heardDatagram, d = lower heard ∧ 0 < d.ttl ∧ d.ttl < heard.ttl

theorem mem_requests {request : LookupRequest} (h : request ∈ e.requests) :
    ∃ heard ∈ e.heardRequest, request = lowerRequest heard ∧ request.ttl < heard.ttl := by
  unfold Event.requests at h
  unfold Event.heardRequest
  cases hpayload : e.received LinkMessageType.LookupRequest with
  | none =>
    rw [hpayload] at h
    exact absurd h (Multiset.notMem_zero _)
  | some payload =>
    rw [hpayload] at h
    simp only [Option.elim_some, loweredRequest] at h ⊢
    cases hdecode : decodeLookupRequest payload with
    | error _ =>
      rw [hdecode] at h
      exact absurd h (Multiset.notMem_zero _)
    | ok heard =>
      rw [hdecode] at h
      dsimp only at h
      split at h
      · exact absurd h (Multiset.notMem_zero _)
      · rename_i httl
        rw [Multiset.mem_singleton.1 h]
        exact ⟨heard, List.mem_singleton_self _, rfl, Nat.sub_lt (Nat.pos_of_ne_zero httl) one_pos⟩

theorem mem_datagrams {d : SessionDatagram} (h : d ∈ e.datagrams) :
    ∃ heard ∈ e.heardDatagram, d = lower heard ∧ 0 < d.ttl ∧ d.ttl < heard.ttl := by
  unfold Event.datagrams at h
  unfold Event.heardDatagram
  cases hpayload : e.received LinkMessageType.SessionDatagram with
  | none =>
    rw [hpayload] at h
    exact absurd h List.not_mem_nil
  | some payload =>
    rw [hpayload] at h
    simp only [Option.elim_some, lowered] at h ⊢
    cases hdecode : decodeSessionDatagramPayload payload with
    | error _ =>
      rw [hdecode] at h
      exact absurd h List.not_mem_nil
    | ok heard =>
      rw [hdecode] at h
      dsimp only at h
      split at h
      · rename_i httl
        rw [List.mem_singleton.1 h]
        refine ⟨heard, List.mem_singleton_self _, rfl, Nat.sub_pos_of_lt httl, ?_⟩
        exact Nat.sub_lt (zero_lt_one.trans httl) one_pos
      · exact absurd h List.not_mem_nil

theorem mem_sum {α : Type} {f : Event → Multiset α} {a : α} (h : a ∈ (es.map f).sum) : ∃ e ∈ es, a ∈ f e := by
  induction es with
  | nil => exact absurd h (Multiset.notMem_zero _)
  | cons e es ih =>
    rw [List.map_cons, List.sum_cons, Multiset.mem_add] at h
    rcases h with h | h
    · exact ⟨e, List.mem_cons_self, h⟩
    · obtain ⟨e', he', ha⟩ := ih h
      exact ⟨e', List.mem_cons_of_mem _ he', ha⟩

theorem Bounded.disciplined (h : Bounded S es r) : Disciplined es r where
  few := h.inv.few
  paths := h.requests
  lowerRequest request hrequest := by
    obtain ⟨e, he, hmem⟩ := mem_sum (Multiset.mem_of_le h.requests hrequest)
    exact ⟨e, he, mem_requests hmem⟩
  request m rid hm hcause hty := by
    obtain ⟨reverse, hreverse, ⟨-, hdecode⟩ | hresponse⟩ := h.sent hm hcause
    · exact ⟨reverse, hreverse, hdecode⟩
    · exact absurd (hty.symm.trans hresponse) (by decide)
  response rid := by
    have hanswered := (Nat.le_add_right _ _).trans (h.inv.answered rid)
    refine le_trans (le_of_eq ?_) hanswered
    unfold Lookups.responses lookups
    rw [List.countP_filter]
    refine List.countP_congr fun effect _ => ?_
    cases effect with
    | send m =>
      simp only [RoutingEffect.answers, RoutingEffect.lookup, Bool.decide_and, Bool.and_eq_true, decide_eq_true_eq]
      constructor
      · intro hm
        rw [hm.1]
        exact ⟨⟨rfl, hm.2⟩, rfl⟩
      · exact fun hm => hm.1
    | handleLocalSession p src payload => simp [RoutingEffect.answers]
    | resolveAndConnect dest promise => simp [RoutingEffect.answers]
  datagrams := (passedOn_le r).trans h.transit
  lowerDatagram d hd := by
    obtain ⟨e, he, hmem⟩ := mem_sum (Multiset.mem_of_le ((passedOn_le r).trans h.transit) hd)
    exact ⟨e, he, mem_datagrams hmem⟩

end

/-- A node of a network, and what happens to it. -/
structure Station where
  cfg : RoutingConfig
  nowSeconds : Nat
  events : List Event

namespace Station

def state (S : Suite) (G : Schnorr) (n : Station) : Routing :=
  Run.run (step S G n.cfg) (new n.cfg n.nowSeconds) n.events

def heardRequests (n : Station) : Multiset LookupRequest := (n.events.map Event.heardRequest).sum

def heardDatagrams (n : Station) : Multiset SessionDatagram := (n.events.map Event.heardDatagram).sum

end Station

open HopLimit in
/-- Every node keeps to its received messages, and a node with one carrier for each identity sends no next hop the request
of a reverse path twice. Where no message is heard more often than it has been originated or sent, the messages that the
originated ones cause are bounded. -/
theorem flooding_bounded (S : Suite) (G : Schnorr) {ι : Type} [Fintype ι] (nodes : ι → Station) :
    (∀ i, Disciplined (nodes i).events ((nodes i).state S G)) ∧
      (∀ i, (∀ e ∈ (nodes i).events, e.Network S Set.univ) →
        (((nodes i).state S G).log.filterMap (RoutingEffect.reached S)).Nodup) ∧
      (∀ N : Finset NodeAddr, (∀ i, ∀ e ∈ (nodes i).events, e.Network S N) → ∀ originated : Multiset LookupRequest,
        ∑ i, (nodes i).heardRequests ≤ originated + ∑ i, ((nodes i).state S G).flooded →
          Multiset.card (∑ i, ((nodes i).state S G).flooded) ≤ total N.card LookupRequest.ttl originated) ∧
      ∀ originated : Multiset SessionDatagram,
        ∑ i, (nodes i).heardDatagrams ≤ originated + ∑ i, ((nodes i).state S G).passedOn →
          Multiset.card (∑ i, ((nodes i).state S G).passedOn) ≤ (originated.map SessionDatagram.ttl).sum := by
  have hbounded (i : ι) : Bounded S (nodes i).events ((nodes i).state S G) := bounded_run _ _
  refine ⟨fun i => (hbounded i).disciplined, fun i hN => (reached_claims ((hbounded i).claimed Set.univ hN)).1,
    fun N hN originated hheard => card_le ?_ hheard, fun originated hheard => ?_⟩
  · rw [charge_sum, total_sum]
    exact Finset.sum_le_sum fun i _ => charge_flooded (hbounded i) (hN i)
  · have hcard : Multiset.card (∑ i, ((nodes i).state S G).passedOn) ≤ total 1 SessionDatagram.ttl originated := by
      refine card_le ?_ hheard
      rw [charge_sum, total_sum]
      exact Finset.sum_le_sum fun i _ => charge_passedOn (hbounded i)
    unfold total at hcard
    simpa only [cost_one] using hcard

/-! ### A copy with a smaller limit -/

/-- The first `n` peers are connected. -/
def toyHub (n : Nat) : RoutingEnv :=
  { toyNeighbours (List.range n) true with
    peer := fun p => ⟨(toyIdentity (UInt8.ofNat (p + 2))).publicKey, decide (p < n), 1280, none⟩ }

/-- The events of a node that hears a request twice, and meets another neighbour in between. -/
def toyCopies : List Event :=
  [.handleLinkMessage (toyHub 2) 0 LinkMessageType.LookupRequest (toyRequest 7),
    .handleLinkMessage (toyHub 3) 0 LinkMessageType.LookupRequest (toyRequest 1)]

/-- The copy with the limit 1 makes the node send the request with the limit 6. -/
theorem copy_outlived :
    (toyCopies.map fun e => e.heardRequest.map LookupRequest.ttl) = [{7}, {1}] ∧
      ((Run.run (step toySuite toySchnorr toyRelay) (new toyRelay 0) toyCopies).log.drop
        (Run.run (step toySuite toySchnorr toyRelay) (new toyRelay 0) (toyCopies.take 1)).log.length).filterMap
          (fun effect => effect.flooded.map LookupRequest.ttl) = [6] := by
  constructor
  · decide +kernel
  · decide +kernel

theorem toyHub_network {n : Nat} (hn : n ≤ 3)
    (hdistinct : (((toyHub n).getPeers.filter (toyHub n).established).map ((toyHub n).peerNodeKey toySuite)).Nodup) :
    (toyHub n).Network toySuite
      ↑({(toyIdentity 2).nodeAddr, (toyIdentity 3).nodeAddr, (toyIdentity 4).nodeAddr} : Finset NodeAddr) := by
  refine ⟨fun p hp => ?_, hdistinct⟩
  have hlt : p < 3 := lt_of_lt_of_le (of_decide_eq_true hp) hn
  have hkey : (toyHub n).peerNodeKey toySuite p = (toyHub 3).peerNodeKey toySuite p := rfl
  rw [hkey, Finset.mem_coe]
  interval_cases p
  · decide +kernel
  · decide +kernel
  · decide +kernel

theorem flooding_bounded_toy :
    let nodes : Unit → Station := fun _ => ⟨toyRelay, 0, toyCopies⟩
    let sent := ∑ i, ((nodes i).state toySuite toySchnorr).flooded
    Multiset.card sent = 2 ∧ ∑ i, (nodes i).heardRequests ≤ ∑ i, (nodes i).heardRequests + sent ∧
      Multiset.card sent ≤ HopLimit.total 3 LookupRequest.ttl (∑ i, (nodes i).heardRequests) := by
  intro nodes sent
  have hheard : ∑ i, (nodes i).heardRequests ≤ ∑ i, (nodes i).heardRequests + sent := Multiset.le_add_right _ _
  have hN : ∀ i, ∀ e ∈ (nodes i).events, e.Network toySuite
      ↑({(toyIdentity 2).nodeAddr, (toyIdentity 3).nodeAddr, (toyIdentity 4).nodeAddr} : Finset NodeAddr) := by
    intro i e he env henv
    rcases List.mem_cons.1 he with rfl | he
    · obtain rfl := Option.some.inj henv
      exact toyHub_network (by decide) (by decide +kernel)
    · obtain rfl := List.mem_singleton.1 he
      obtain rfl := Option.some.inj henv
      exact toyHub_network (by decide) (by decide +kernel)
  have hbound := (flooding_bounded toySuite toySchnorr nodes).2.2.1 _ hN _ hheard
  refine ⟨by decide +kernel, hheard, ?_⟩
  exact hbound

end Routing
end Fips
