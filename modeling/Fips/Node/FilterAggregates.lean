import Fips.Node.FilterAnnouncements
import Fips.Node.RoleMessages
import Fips.Protocol.Membership

/-!
# What an outgoing filter contains

`outgoingFilterFor` merges the filters of the tree peers into one that starts with this node's address. Every step
extends the filter, so the address stays; what a peer's filter contains comes along if this node's filter covers it,
which an announcement with fewer hashes than this node's five need not be.
-/

namespace Fips
open Exec LittleEndian

namespace BloomFilter
variable {S : Suite} {f g filter : BloomFilter} {qs : List PeerId} {step : BloomFilter → PeerId → Except String BloomFilter}

theorem Standard.numBits (h : f.Standard) : f.numBits = 8192 := by
  rw [BloomFilter.numBits, h.1]

/-- Steps that extend the filter, one after the other: the filter of each step is between the first and the last. -/
theorem foldlM_extends (hf : 0 < f.numBits) (hrun : qs.foldlM step f = .ok filter)
    (hstep : ∀ f q g, 0 < f.numBits → step f q = .ok g → f.Extends g) :
    f.Extends filter ∧ ∀ q ∈ qs, ∃ f' g, f.Extends f' ∧ step f' q = .ok g ∧ g.Extends filter := by
  induction qs generalizing f with
  | nil =>
    cases hrun
    exact ⟨.refl, fun q hq => by cases hq⟩
  | cons q qs ih =>
    rw [List.foldlM_cons] at hrun
    obtain ⟨g, hq, hrun⟩ := except_bind_eq_ok.1 hrun
    have he := hstep f q g hf hq
    obtain ⟨hfirst, hlater⟩ := ih (he.numBits ▸ hf) hrun
    refine ⟨he.trans hfirst, fun q' hq' => ?_⟩
    rcases List.mem_cons.1 hq' with rfl | hmem
    · exact ⟨f, g, .refl, hq, hfirst⟩
    · obtain ⟨f', g', hf', hg', hlast⟩ := hlater q' hmem
      exact ⟨f', g', he.trans hf', hg', hlast⟩

end BloomFilter

namespace Routing
open BloomFilter

/-- This node's filter before any other is merged into it. -/
def ownFilter (S : Suite) (cfg : RoutingConfig) : BloomFilter := BloomFilter.empty.insertBytes S cfg.identity.nodeAddr

/-- The filter of `q` is one of those merged for `p`. -/
structure Aggregated (S : Suite) (env : RoutingEnv) (p : PeerId) (r : Routing) (q : PeerId) (inbound : BloomFilter) : Prop where
  known : q ∈ env.getPeers
  other : q ≠ p
  established : env.established q = true
  transit : (r.roles q).clientOnly = false
  tree : r.treeState.isTreePeer (env.peerNodeKey S q) = true
  inbound : (r.roles q).inboundFilter = some inbound

/-- A call of `send` for `p` has announced `filter`. -/
def SendsFilter (S : Suite) (cfg : RoutingConfig) (env : RoutingEnv) (p : PeerId) (r : Routing) (filter : BloomFilter) : Prop :=
  ∃ sequence ok, (settled (discard (sendFilter S cfg env p)) r).filterSends p = r.filterSends p ++ [((sequence, filter), ok)]

section
variable {S : Suite} {cfg : RoutingConfig} {env : RoutingEnv} {p q : PeerId} {r : Routing} {filter inbound : BloomFilter}

theorem ownFilter_numBits : (ownFilter S cfg).numBits = 8192 := (standard_empty.insertBytes _).numBits

theorem ownFilter_contains : (ownFilter S cfg).containsBytes S cfg.identity.nodeAddr = true :=
  insertBytes_contains (by rw [standard_empty.numBits]; decide)

theorem encodeFilterAnnounce_sequence {sequence : Nat} {encoded : Bytes}
    (h : (do encodeFilterAnnounce (← buildFilterAnnounce filter sequence)) = .ok encoded) : sequence < 2 ^ 64 := by
  obtain ⟨announce, hbuild, hencode⟩ := except_bind_eq_ok.1 h
  have hsequence : announce.sequence = sequence := by
    obtain ⟨expected, -, hbuild⟩ := except_bind_eq_ok.1 hbuild
    dsimp only at hbuild
    split at hbuild
    · cases hbuild
    · cases hbuild
      rfl
  unfold encodeFilterAnnounce at hencode
  obtain ⟨expected, -, hencode⟩ := except_bind_eq_ok.1 hencode
  dsimp only at hencode
  split at hencode
  · cases hencode
  split at hencode
  · cases hencode
  obtain ⟨msgType, -, hencode⟩ := except_bind_eq_ok.1 hencode
  obtain ⟨bytes, hbytes, -⟩ := except_bind_eq_ok.1 hencode
  have hlt := (BinaryWriter.uint_eq_ok hbytes).1
  rw [hsequence] at hlt
  omega

/-- After the sequence has run out, nothing is announced. -/
theorem sendFilter_exhausted (hlast : ¬r.filterSequence + 1 < 2 ^ 64) :
    (settled (discard (sendFilter S cfg env p)) r).filterSends p = r.filterSends p := by
  generalize hQ : (fun r' : Routing => r'.filterSends p = r.filterSends p) = Q
  have hwp : wp (discard (sendFilter S cfg env p)) (fun _ => Q) (fun _ => Q) r := ?_
  · subst hQ
    exact wp_after.2 hwp
  subst hQ
  refine wp_bind.2 ?_
  unfold sendFilter
  refine wp_ite.2 ⟨fun _ => wp_pure.2 rfl, fun _ => ?_⟩
  rw [wp_bind, wp_get]
  refine wp_bind.2 (wp_lift.2 ⟨fun filter hfilter => ?_, fun _ _ => rfl⟩)
  refine wp_ite.2 ⟨fun _ => wp_pure.2 rfl, fun _ => ?_⟩
  rw [wp_bind, wp_set]
  refine wp_bind.2 (wp_lift.2 ⟨fun encoded hencoded => ?_, fun _ _ => rfl⟩)
  exact absurd (encodeFilterAnnounce_sequence hencoded) hlast

/-- What is announced is `outgoingFilterFor`. -/
theorem SendsFilter.outgoing (h : SendsFilter S cfg env p r filter) : outgoingFilterFor S cfg env p r = .ok filter := by
  obtain ⟨sequence, ok, hsends⟩ := h
  by_cases hlast : r.filterSequence + 1 < 2 ^ 64
  · rcases @sendFilter_cases S cfg env p r hlast with hsame | ⟨filter', ok', hfilter, hannounced⟩
    · rw [hsame] at hsends
      exact absurd hsends (by simp)
    · have heq := List.append_cancel_left (hannounced.sends.symm.trans hsends)
      cases heq
      exact hfilter
  · rw [sendFilter_exhausted hlast] at hsends
    exact absurd hsends (by simp)

theorem outgoing_spec (h : outgoingFilterFor S cfg env p r = .ok filter) : (ownFilter S cfg).Extends filter ∧
    (cfg.forwarding = true → ∀ q inbound, Aggregated S env p r q inbound →
      ∃ f g, (ownFilter S cfg).Extends f ∧ f.merge inbound = .ok g ∧ g.Extends filter) := by
  have hpos : 0 < (ownFilter S cfg).numBits := by rw [ownFilter_numBits]; decide
  unfold outgoingFilterFor at h
  dsimp only at h
  by_cases hforwarding : cfg.forwarding = true
  · rw [if_neg (by simp [hforwarding])] at h
    obtain ⟨hextends, heach⟩ := foldlM_extends hpos h (by
      intro f q g hf hq
      split at hq
      · cases hq
        exact insertBytes_extends hf
      split at hq
      · cases hq
        exact .refl
      split at hq
      · exact merge_extends hq
      · cases hq
        exact .refl)
    refine ⟨hextends, fun _ q inbound hq => ?_⟩
    obtain ⟨f, g, hf, hg, hlast⟩ := heach q hq.known
    rw [if_neg (by simp [hq.transit]), if_neg (by simp [hq.other, hq.established, hq.tree]), hq.inbound] at hg
    exact ⟨f, g, hf, hg, hlast⟩
  · rw [if_pos (by simpa using hforwarding)] at h
    cases h
    exact ⟨.refl, fun hf => absurd hf hforwarding⟩

theorem outgoing_includes (h : outgoingFilterFor S cfg env p r = .ok filter) (hforwarding : cfg.forwarding = true)
    (hq : Aggregated S env p r q inbound) (hcovers : (ownFilter S cfg).Covers S inbound.numBits inbound.hashCount) :
    inbound.Includes S filter := by
  obtain ⟨f, g, hf, hmerge, hg⟩ := (outgoing_spec h).2 hforwarding q inbound hq
  have hpos : 0 < f.numBits := by rw [hf.numBits, ownFilter_numBits]; decide
  exact (merge_includes_other hpos hmerge (hf.covers hcovers)).trans hg.includes

/-- A node with one peer, which counts it as its parent. -/
def childRouting (cfg : RoutingConfig) (addr : NodeAddr) (inbound : BloomFilter) : Routing :=
  { Routing.new cfg 0 with
    treeState := { TreeState.new cfg.identity 0 with peers := [(addr, ⟨1, cfg.identity.nodeAddr, []⟩)] }
    roles := fun _ => { PeerRole.new with inboundFilter := some inbound } }

def childEnv : RoutingEnv where
  nowMs := 0
  peer _ := ⟨[], true, 1280, none⟩
  getPeers := [0]
  getPeerByPubkey _ := none
  getPeerByNodeAddr _ := none
  nodeAllowed _ := true
  random := []
  sends _ _ _ := true
  frames _ := []

theorem aggregated_child (inbound : BloomFilter) :
    Aggregated S childEnv 1 (childRouting cfg (childEnv.peerNodeKey S 0) inbound) 0 inbound where
  known := List.mem_cons_self
  other := by decide
  established := rfl
  transit := rfl
  tree := by
    have hget : (childRouting cfg (childEnv.peerNodeKey S 0) inbound).treeState.peers.get (childEnv.peerNodeKey S 0) =
        some ⟨1, cfg.identity.nodeAddr, []⟩ := by
      simp [childRouting, JsMap.get]
    rw [TreeState.isTreePeer, hget]
    split
    · rfl
    · simp [childRouting, TreeState.new]
  inbound := rfl

theorem outgoing_child (hforwarding : cfg.forwarding = true) (inbound : BloomFilter) :
    outgoingFilterFor S cfg childEnv 1 (childRouting cfg (childEnv.peerNodeKey S 0) inbound) =
      (ownFilter S cfg).merge inbound := by
  have hq := @aggregated_child S cfg inbound
  unfold outgoingFilterFor
  dsimp only
  rw [if_neg (by simp [hforwarding]), show childEnv.getPeers = [0] from rfl, List.foldlM_cons,
    if_neg (by simp [hq.transit]), if_neg (by simp [hq.other, hq.established, hq.tree]), hq.inbound]
  exact bind_pure _

/-- The hash counts of other filters whose items all get into this node's filters are those its own filter covers. -/
theorem outgoing_exact (hforwarding : cfg.forwarding = true) {k : Nat} (hk : k ≠ 0) (hk' : k ≤ 255) :
    (∀ env p r q inbound filter, Aggregated S env p r q inbound → inbound.Valid → inbound.numBits = 8192 →
      inbound.hashCount = k → outgoingFilterFor S cfg env p r = .ok filter → inbound.Includes S filter) ↔
      (ownFilter S cfg).Covers S 8192 k := by
  constructor
  · intro hall
    refine covers_of_includes (by decide) (by decide) hk hk' fun g hg hsize hcount => ?_
    obtain ⟨h, hmerge⟩ := @merge_ok (ownFilter S cfg) g (ownFilter_numBits.trans hsize.symm)
    obtain ⟨-, -, -, hget⟩ := merge_spec hmerge
    refine ⟨h, merge_extends hmerge, fun j hj => (hget j).1 hj, ?_⟩
    exact hall _ _ _ _ g h (aggregated_child g) hg hsize hcount ((outgoing_child hforwarding g).trans hmerge)
  · intro hcovers env p r q inbound filter hq _ hsize hcount hfilter
    exact outgoing_includes hfilter hforwarding hq (by rw [hsize, hcount]; exact hcovers)

end
end Routing

/-! ### No item is lost -/

section
open BloomFilter FilterOp Routing

/-- Where the receivers cover their operands, what a filter has or should get from a call is in it as long as a run goes on,
and what a node announces has the items of the filters merged into it; and no weaker condition on the receiver and on the
size and hash count of the operand does. -/
theorem no_false_negatives (S : Suite) :
    (∀ fs before op after, (∀ f ∈ fs, f.Valid) → Run.Along (Covered S) (FilterOp.step S) fs (before ++ op :: after) →
      ∀ k item, HasItem S (Run.run (FilterOp.step S) fs before) k item ∨
          (∃ fs', call S (Run.run (FilterOp.step S) fs before) op = .ok fs' ∧
            Added S (Run.run (FilterOp.step S) fs before) op k item) →
        HasItem S (Run.run (FilterOp.step S) fs (before ++ op :: after)) k item) ∧
    (∀ f : BloomFilter, f.Valid → ∀ n k, n ≠ 0 → n % 8 = 0 → k ≠ 0 → k ≤ 255 →
      ((∀ g : BloomFilter, g.Valid → g.numBits = n → g.hashCount = k → ∀ h, f.merge g = .ok h →
        f.Includes S h ∧ g.Includes S h) ↔ (f.numBits = n → f.Covers S n k)) ∧
      ((∀ g : BloomFilter, g.Valid → g.numBits = n → g.hashCount = k → ∀ h, f.union g = .ok h →
        f.Includes S h ∧ g.Includes S h) ↔ f.Covers S n k)) ∧
    (∀ cfg env p r filter, SendsFilter S cfg env p r filter → filter.containsBytes S cfg.identity.nodeAddr = true ∧
      (cfg.forwarding = true → ∀ q inbound, Aggregated S env p r q inbound →
        (ownFilter S cfg).Covers S inbound.numBits inbound.hashCount → inbound.Includes S filter)) ∧
    ∀ cfg : RoutingConfig, cfg.forwarding = true → ∀ k, k ≠ 0 → k ≤ 255 →
      ((∀ env p r q inbound filter, Aggregated S env p r q inbound → inbound.Valid → inbound.numBits = 8192 →
        inbound.hashCount = k → outgoingFilterFor S cfg env p r = .ok filter → inbound.Includes S filter) ↔
          (ownFilter S cfg).Covers S 8192 k) := by
  refine ⟨fun fs before op after hvalid hcovered k item hitem => ?_, fun f hf n k hn h8 hk hk' => ⟨?_, ?_⟩,
    fun cfg env p r filter hsends => ⟨?_, fun hforwarding q inbound hq hcovers => ?_⟩,
    fun cfg hforwarding k hk hk' => outgoing_exact hforwarding hk hk'⟩
  · rcases hitem with hitem | ⟨fs', hcall, hadded⟩
    · rw [Run.run_append]
      exact run_hasItem (run_valid hvalid) hitem
    · exact run_added hvalid hcovered hcall hadded
  · constructor
    · rintro hkeeps rfl
      exact (merge_exact hf hk hk').1 fun g hg hsize hcount h hmerge => (hkeeps g hg hsize hcount h hmerge).2
    · intro hcovers g hg hsize hcount h hmerge
      have hsame : f.numBits = n := (merge_spec hmerge).1.trans hsize
      subst hsame
      exact ⟨(merge_extends hmerge).includes, (merge_exact hf hk hk').2 (hcovers rfl) g hg hsize hcount h hmerge⟩
  · constructor
    · intro hkeeps
      exact (union_exact hf hn h8 hk hk').1 fun g hg hsize hcount h hunion => (hkeeps g hg hsize hcount h hunion).2
    · intro hcovers g hg hsize hcount h hunion
      exact ⟨(union_extends hunion).includes, (union_exact hf hn h8 hk hk').2 hcovers g hg hsize hcount h hunion⟩
  · exact (outgoing_spec hsends.outgoing).1.includes _ ownFilter_contains
  · exact outgoing_includes hsends.outgoing hforwarding hq hcovers

/-- A filter of five hashes takes in one of seven. -/
def toyFilterOps : List FilterOp := [.withParams 64 5, .withParams 64 7, .insertBytes 1 [1, 2, 3], .merge 0 1]

theorem no_false_negatives_toy : HasItem toySuite (Run.run (FilterOp.step toySuite) [] toyFilterOps) 0 [1, 2, 3] := by
  have hcounts : (Run.run (FilterOp.step toySuite) [] (toyFilterOps.take 3)).map BloomFilter.hashCount = [5, 7] := by
    decide +kernel
  have hcovered : Run.Along (Covered toySuite) (FilterOp.step toySuite) [] toyFilterOps := by
    refine ⟨trivial, trivial, trivial, fun f g hf hg hsize => ?_, trivial⟩
    have hf5 : some f.hashCount = some 5 := by
      rw [← Option.map_some, ← hf, ← List.getElem?_map]
      exact congrArg (·[0]?) hcounts
    have hg7 : some g.hashCount = some 7 := by
      rw [← Option.map_some, ← hg, ← List.getElem?_map]
      exact congrArg (·[1]?) hcounts
    rw [← hsize]
    exact covers_of_le (by have := Option.some.inj hf5; have := Option.some.inj hg7; omega)
  have hcall : (call toySuite (Run.run (FilterOp.step toySuite) [] (toyFilterOps.take 3)) (.merge 0 1)).toOption.isSome =
      true := by decide +kernel
  have hitem : ((Run.run (FilterOp.step toySuite) [] (toyFilterOps.take 3))[1]?).any
      (fun g => g.containsBytes toySuite [1, 2, 3]) = true := by decide +kernel
  refine (no_false_negatives toySuite).1 [] (toyFilterOps.take 3) (.merge 0 1) [] nofun hcovered 0 [1, 2, 3]
    (.inr ⟨_, eq_ok_get hcall, rfl, by decide +kernel, ?_⟩)
  obtain ⟨g, hg, hcontains⟩ := (Option.any_eq_true _ _).1 hitem
  exact ⟨g, hg, hcontains⟩

/-! ### A filter of one hash -/

/-- A node whose address is not the smallest. -/
def toyAggregator : RoutingConfig := { toyForwarder with identity := toyIdentity 2 }

/-- Its peers; peer 0 has the smallest address. -/
def toyAggregating : RoutingEnv :=
  { toyNeighbours [0, 1] true with
    peer := fun p => ⟨(toyIdentity (if p = 0 then 1 else 3)).publicKey, true, 1280, none⟩ }

/-- The address of peer 0, under one hash. -/
def toyOneHash : BloomFilter := ((BloomFilter.withParams 8192 1).toOption.getD BloomFilter.empty).insertBytes toySuite
  (toyIdentity 1).nodeAddr

/-- Peer 0 announces its tree and its filter. -/
def toyAggregates : Routing :=
  [(LinkMessageType.TreeAnnounce,
      (do encodeTreeAnnounce (← (TreeState.new (toyIdentity 1) 0).announce toySuite toySchnorr)).toOption.getD []),
    (LinkMessageType.FilterAnnounce, (do encodeFilterAnnounce (← buildFilterAnnounce toyOneHash 1)).toOption.getD [])].foldl
    (fun r m => settled (handleLinkMessage toySuite toySchnorr toyAggregator toyAggregating 0 m.1 m.2.tail) r)
    (Routing.new toyAggregator 0)

/-- Its address is in the filter it has announced, and not in the one that is announced to peer 1 thereafter. -/
theorem one_hash_lost :
    (toyAggregates.roles 0).inboundFilter.any (fun f => f.containsBytes toySuite (toyIdentity 1).nodeAddr) = true ∧
    (outgoingFilterFor toySuite toyAggregator toyAggregating 1 toyAggregates).toOption =
      (toyAggregates.filterSends 1).getLast?.map (fun m => m.1.2) ∧
    toyAggregates.treeState.isTreePeer (toyAggregating.peerNodeKey toySuite 0) = true ∧
    (toyAggregates.filterSends 1).getLast?.any (fun m => !m.1.2.containsBytes toySuite (toyIdentity 1).nodeAddr) = true := by
  decide +kernel

end

end Fips
