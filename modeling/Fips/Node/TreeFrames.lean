import Fips.Node.TreeVersions
import Fips.Fmp.Channel

/-!
# Announcements inside FMP frames

A received ancestry is bounded by the frame it came in; the node's own is one entry longer and has to fit a
frame again. An ancestry of 2044 entries fits, one of 2045 does not.
-/

namespace Fips
open Exec LittleEndian

namespace FmpLink
variable {S : Suite} {l : FmpLink} {key payload : Bytes} {idx msgType : Nat} {nowMs : ℚ}

theorem length_decodeFmpInner {plaintext : Bytes} {inner : FmpInnerPacket} (h : decodeFmpInner plaintext = .ok inner) :
    plaintext.length = inner.payload.length + 5 := by
  unfold decodeFmpInner at h
  split at h
  · cases h
  obtain ⟨r', h⟩ := BinaryReader.run_eq_ok.1 h
  obtain ⟨timestamp, r₁, htimestamp, h⟩ := BinaryReader.bind_eq_ok.1 h
  obtain ⟨msgType, r₂, hmsgType, h⟩ := BinaryReader.bind_eq_ok.1 h
  obtain ⟨payload, r₃, hpayload, h⟩ := BinaryReader.bind_eq_ok.1 h
  cases h
  cases hpayload
  obtain ⟨-, h₁, -⟩ := BinaryReader.uint_eq_ok htimestamp
  obtain ⟨-, h₂, -⟩ := BinaryReader.uint_eq_ok hmsgType
  change plaintext = _ at h₁
  rw [h₁, h₂, List.length_append, List.length_append, length_leBytes, length_leBytes]
  show 4 + (1 + r₂.rest.length) = r₂.rest.length + 5
  omega

/-- A payload is sealed if it leaves room for the five bytes of the inner header. -/
theorem sealing_ok_iff (h : l.Seals key idx) (hidx : idx < 2 ^ 32) (hn : l.txCounter < 2 ^ 64) (hm : msgType < 256) :
    (∃ s, l.sealing S payload msgType nowMs = .ok s) ↔ payload.length + 5 < 65536 := by
  constructor
  · rintro ⟨s, hs⟩
    obtain ⟨-, -, -, hlen, -, -, hinner⟩ := sealing_eq_ok h hs
    rw [length_decodeFmpInner hinner] at hlen
    exact hlen
  · intro hlen
    have hts : toU32 (nowMs - l.sessionStartMs) < 256 ^ 4 := by
      have := Int.emod_lt_of_pos ⌊nowMs - l.sessionStartMs⌋ (b := 2 ^ 32) (by decide)
      unfold toU32
      omega
    have hinner : encodeFmpInner ⟨toU32 (nowMs - l.sessionStartMs), msgType, payload⟩ =
        .ok (leBytes 4 (toU32 (nowMs - l.sessionStartMs)) ++ leBytes 1 msgType ++ payload) := by
      rw [encodeFmpInner, BinaryWriter.u32le, BinaryWriter.u8, BinaryWriter.uint_of_lt hts, BinaryWriter.uint_of_lt hm]
      rfl
    have hlen' : (leBytes 4 (toU32 (nowMs - l.sessionStartMs)) ++ leBytes 1 msgType ++ payload).length < 65536 := by
      simp only [List.length_append, length_leBytes]
      omega
    unfold sealing
    rw [hinner, h.idx, Option.getD_some]
    show ∃ s, (do let aad ← encodeFmpEstablishedHeader 0 idx l.txCounter _; _ : Except String Seal) = .ok s
    rw [encodeFmpEstablishedHeader_eq (by decide) hidx hn hlen', keyOf, h.tx]
    show ∃ s, (do let ciphertext ← aeadSeal S key l.txCounter _ _; _ : Except String Seal) = .ok s
    rw [aeadSeal, if_neg (not_not.2 h.key)]
    exact ⟨_, rfl⟩

/-- An established end whose counter is not exhausted sends exactly the payloads that fit. -/
theorem encryptOutgoing_ok_iff (h : l.Seals key idx) (hidx : idx < 2 ^ 32) (hn : l.txCounter < maxNonce)
    (hm : msgType < 256) :
    (∃ packet l', (encryptOutgoing S payload msgType nowMs).run l = .ok packet l') ↔ payload.length + 5 < 65536 := by
  have hn64 : l.txCounter < 2 ^ 64 := hn.trans (by decide)
  rw [← @sealing_ok_iff S _ _ _ _ _ nowMs h hidx hn64 hm, run_encryptOutgoing h, if_neg (not_le.2 hn)]
  cases l.sealing S payload msgType nowMs with
  | error e => simp
  | ok s => simp

/-- A fresh receiver opens whatever the sender sends. -/
theorem decryptIncoming_of_sent {receiver sender' : FmpLink} {packet : Bytes} (hS : S.Lawful) (h : l.Seals key idx)
    (hr : receiver.Opens key idx) (hnew : receiver.rxReplay = .new)
    (hsent : (encryptOutgoing S payload msgType nowMs).run l = .ok packet sender') (nowMs' : ℚ) :
    ∃ receiver', (decryptIncoming S packet nowMs').run receiver = .ok (msgType, payload) receiver' := by
  have hinv : FmpChannel.Inv S key idx (.new l receiver) := .init h hr hnew
  have hinv' := hinv.send payload msgType nowMs
  have hproduced : ((FmpChannel.new l receiver).send S payload msgType nowMs).produced =
      [⟨packet, l.txCounter, msgType, payload⟩] := by
    unfold FmpChannel.send
    rw [show (FmpChannel.new l receiver).sender = l from rfl, hsent]
    rfl
  have hsame : ((FmpChannel.new l receiver).send S payload msgType nowMs).receiver = receiver ∧
      ((FmpChannel.new l receiver).send S payload msgType nowMs).accepted = [] := by
    unfold FmpChannel.send
    rw [show (FmpChannel.new l receiver).sender = l from rfl, hsent]
    exact ⟨rfl, rfl⟩
  have hmem : ⟨packet, l.txCounter, msgType, payload⟩ ∈
      ((FmpChannel.new l receiver).send S payload msgType nowMs).produced := by
    rw [hproduced]
    exact List.mem_singleton_self _
  obtain ⟨receiver', h'⟩ := (@FmpChannel.Inv.accepts _ _ _ _ nowMs') hS hinv' hmem
    (by
      rintro ⟨a, ha, -⟩
      rw [hsame.2] at ha
      cases ha)
    (by
      rw [hsame.1, hnew]
      show (-1 : Int) - 2048 < l.txCounter
      omega)
  rw [hsame.1] at h'
  exact ⟨receiver', h'⟩

end FmpLink

namespace TreeState
variable {S : Suite} {G : Schnorr} {t : TreeState} {identity : FipsIdentity} {nowSeconds : Nat} {a : TreeAnnounce}

/-! ### Frames in and out -/

/-- `FipsRouting.handleTreeAnnounce` up to the update of the tree: the peer and its announcement, or `none` when the
peer has taken a later role. -/
def handleTreeAnnounce (S : Suite) (G : Schnorr) (peerPubkey payload : Bytes) (routingRoleSequence : Option Nat) :
    Except String (Option (NodeAddr × TreeAnnounce)) := do
  let announce ← decodeTreeAnnouncePayload payload
  let peerNodeAddr ← deriveNodeAddr S peerPubkey
  if (addrs announce.ancestry).headD [] ≠ peerNodeAddr then
    throw "TreeAnnounce node address does not match authenticated peer"
  if !(← verifyTreeAnnounce S G announce peerPubkey) then throw "TreeAnnounce signature verification failed"
  return (some (peerNodeAddr, announce)).filter fun _ => !routingRoleSequence.any fun last => announce.sequence ≤ last

/-- `FipsRouting.sendTreeAnnounce` on the link of a peer, for a node that is not a strict client. -/
def sendTreeAnnounce (S : Suite) (G : Schnorr) (t : TreeState) (nowMs : ℚ) : EStateM String FmpLink Bytes := do
  let encoded ← lift (do encodeTreeAnnounce (← t.announce S G))
  FmpLink.encryptOutgoing S encoded.tail LinkMessageType.TreeAnnounce nowMs

/-- A frame arrives on a link with a peer, or a peer goes. -/
inductive FrameEvent
  | receive (link : FmpLink) (peerPubkey : Bytes) (routingRoleSequence : Option Nat) (packet : Bytes) (nowMs : ℚ)
    (nowSeconds : Nat)
  | removePeer (peerNodeAddr : NodeAddr) (nowSeconds : Nat)
  | reset (nowSeconds : Nat)

namespace FrameEvent

def clock : FrameEvent → Nat
  | .receive _ _ _ _ _ nowSeconds => nowSeconds
  | .removePeer _ nowSeconds => nowSeconds
  | .reset nowSeconds => nowSeconds

/-- What a frame does to the tree, if it is accepted. -/
def treeEvent (S : Suite) (G : Schnorr) : FrameEvent → Option TreeEvent
  | .receive link peerPubkey routingRoleSequence packet nowMs nowSeconds =>
    match (FmpLink.decryptIncoming S packet nowMs).run link with
    | .ok (msgType, payload) _ =>
      if msgType = LinkMessageType.TreeAnnounce then
        match handleTreeAnnounce S G peerPubkey payload routingRoleSequence with
        | .ok (some (peerNodeAddr, announce)) => some (.updatePeer peerNodeAddr announce nowSeconds)
        | _ => none
      else none
    | .error _ _ => none
  | .removePeer peerNodeAddr nowSeconds => some (.removePeer peerNodeAddr nowSeconds)
  | .reset nowSeconds => some (.reset nowSeconds)

end FrameEvent

def frameStep (S : Suite) (G : Schnorr) (t : TreeState) (e : FrameEvent) : TreeState :=
  match e.treeEvent S G with
  | some event => step t event
  | none => t

/-! ### What frames leave in the tree -/

/-- An announcement that came over the wire. -/
def TreeEvent.Wire : TreeEvent → Prop
  | .updatePeer _ announce _ => announce.Wire
  | _ => True

theorem handleTreeAnnounce_eq_ok {peerPubkey payload : Bytes} {routingRoleSequence : Option Nat} {key : NodeAddr}
    (h : handleTreeAnnounce S G peerPubkey payload routingRoleSequence = .ok (some (key, a))) :
    decodeTreeAnnouncePayload payload = .ok a ∧ (addrs a.ancestry).headD [] = key := by
  obtain ⟨announce, hdecode, h⟩ := Exec.except_bind_eq_ok.1 h
  obtain ⟨peerNodeAddr, -, h⟩ := Exec.except_bind_eq_ok.1 h
  split at h
  · cases h
  rename_i hhead
  obtain ⟨verified, -, h⟩ := Exec.except_bind_eq_ok.1 h
  split at h
  · cases h
  obtain ⟨hsome, -⟩ := Option.filter_eq_some_iff.1 (Except.ok.inj h)
  cases hsome
  exact ⟨hdecode, not_not.1 hhead⟩

theorem FrameEvent.treeEvent_valid {e : FrameEvent} {event : TreeEvent} (h : e.treeEvent S G = some event) :
    event.Valid ∧ event.Wire ∧ event.clock = e.clock := by
  cases e with
  | removePeer peerNodeAddr nowSeconds => cases h; exact ⟨trivial, trivial, rfl⟩
  | reset nowSeconds => cases h; exact ⟨trivial, trivial, rfl⟩
  | receive link peerPubkey routingRoleSequence packet nowMs nowSeconds =>
    simp only [FrameEvent.treeEvent] at h
    split at h
    · split at h
      · split at h
        · rename_i peerNodeAddr announce hhandle
          cases h
          obtain ⟨hdecode, hhead⟩ := handleTreeAnnounce_eq_ok hhandle
          obtain ⟨hwire, hvalid⟩ := decodeTreeAnnounce_eq_ok hdecode
          refine ⟨⟨hvalid, ?_⟩, hwire, rfl⟩
          have hne : addrs announce.ancestry ≠ [] := by
            intro hnil
            exact (validateTreeAnnounceSemantics_ok.1 hvalid).nonempty (List.map_eq_nil_iff.1 hnil)
          rw [List.head?_eq_some_head hne, ← hhead, List.headD_eq_head?_getD, List.head?_eq_some_head hne]
          rfl
        · cases h
      · cases h
    · cases h

/-- The tree only sees the accepted frames. -/
theorem run_frameStep (t : TreeState) (es : List FrameEvent) :
    Run.run (frameStep S G) t es = Run.run step t (es.filterMap (FrameEvent.treeEvent S G)) := by
  induction es generalizing t with
  | nil => rfl
  | cons e es ih =>
    rw [Run.run_cons, ih, frameStep]
    cases h : e.treeEvent S G with
    | none => rw [List.filterMap_cons_none h]
    | some event => rw [List.filterMap_cons_some h, Run.run_cons]

/-- The entries behind the node's own came over the wire. -/
structure WireInv (t : TreeState) : Prop where
  peers : ∀ e ∈ t.peers, ∀ entry ∈ e.2.ancestry, entry.Wire
  ancestry : ∀ entry ∈ t.ancestry.tail, entry.Wire

theorem evaluateParent_wire (h : t.WireInv) : (t.evaluateParent nowSeconds).2.WireInv := by
  rw [evaluateParent_eq]
  split
  · exact h
  · refine ⟨h.peers, fun entry he => ?_⟩
    change entry ∈ t.choose.2.tail at he
    cases hp : t.preferred with
    | none =>
      rw [choose_of_none hp] at he
      cases he
    | some best =>
      rw [choose_of_some hp] at he
      exact h.peers best (mem_candidates.1 (preferred_some hp).1).1 entry he

theorem step_wire {e : TreeEvent} (h : t.WireInv) (he : e.Wire) : (step t e).WireInv := by
  rcases step_eq t e with hs | ⟨hs, -⟩
  · rw [hs]
    refine evaluateParent_wire ⟨fun p hp => ?_, h.ancestry⟩
    change p ∈ e.apply t.peers at hp
    cases e with
    | updatePeer peerNodeAddr announce nowSeconds =>
      simp only [TreeEvent.apply] at hp
      split at hp
      · exact h.peers p hp
      · rcases JsMap.mem_set hp with rfl | hp
        · exact fun entry hentry => TreeAnnounce.Wire.ancestry he entry hentry
        · exact h.peers p hp
    | removePeer peerNodeAddr nowSeconds =>
      simp only [TreeEvent.apply] at hp
      split at hp
      · exact h.peers p (JsMap.mem_delete.1 hp).1
      · exact h.peers p hp
    | reset nowSeconds => cases hp
  · rw [hs]
    exact h

theorem run_wire {es : List TreeEvent} (h : t.WireInv) (hes : ∀ e ∈ es, e.Wire) : (Run.run step t es).WireInv := by
  induction es generalizing t with
  | nil => exact h
  | cons e es ih => exact ih (step_wire h (hes e List.mem_cons_self)) fun e' he' => hes e' (List.mem_cons_of_mem _ he')

/-! ### Sending -/

/-- An announcement with as many entries as the count field holds fits the wire. -/
theorem announce_wire (hG : G.Lawful S) (hinv : t.Inv) (hwire : t.WireInv) (hsem : a.Semantics)
    (h : t.announce S G = .ok a) (hs : t.sequence < 2 ^ 64) (ht : t.timestamp < 2 ^ 64)
    (hlen : t.ancestry.length < 65536) : a.Wire := by
  obtain ⟨declaration, -, rfl⟩ := announce_eq_ok h
  have haddr : ∀ addr ∈ t.coords, addr.length = 16 := fun addr ha => (hsem.minimum addr ha).1
  obtain ⟨tail, htail⟩ := List.head?_eq_some_iff.1 hinv.head
  have hself : t.identity.nodeAddr ∈ t.coords := by
    rw [coords, addrs, htail]
    exact List.mem_cons_self
  refine ⟨hs, ht, ?_, ?_, hlen, hG.sign_length _ _⟩
  · show t.parent.length = 16
    rw [hinv.parent_eq]
    cases hsecond : t.coords[1]? with
    | none => exact haddr _ hself
    | some addr => exact haddr addr (List.mem_of_getElem? hsecond)
  · intro entry he
    change entry ∈ t.ancestry at he
    rw [htail] at he
    rcases List.mem_cons.1 he with rfl | he
    · exact ⟨haddr _ hself, hs, ht⟩
    · exact hwire.ancestry entry (by rw [htail]; exact he)

theorem encodeTreeAnnounce_length {encoded : Bytes} (h : encodeTreeAnnounce a = .ok encoded) :
    a.ancestry.length < 65536 := by
  obtain ⟨-, -, h⟩ := Exec.except_bind_eq_ok.1 h
  split at h
  · cases h
  obtain ⟨b₁, -, h⟩ := Exec.except_bind_eq_ok.1 h
  obtain ⟨b₂, -, h⟩ := Exec.except_bind_eq_ok.1 h
  obtain ⟨b₃, -, h⟩ := Exec.except_bind_eq_ok.1 h
  obtain ⟨b₄, -, h⟩ := Exec.except_bind_eq_ok.1 h
  obtain ⟨b₅, hcount, h⟩ := Exec.except_bind_eq_ok.1 h
  exact (BinaryWriter.uint_eq_ok hcount).1

/-- A settled tree is sent on an established link if its ancestry has at most 2044 entries. -/
theorem send_ok_iff (hG : G.Lawful S) (hinv : t.Inv) (hwire : t.WireInv) (hlen : t.identity.nodeAddr.length = 16)
    (hs : t.sequence < 2 ^ 64) (ht : t.timestamp < 2 ^ 64) {l : FmpLink} {key : Bytes} {idx : Nat}
    (hl : l.Seals key idx) (hidx : idx < 2 ^ 32) (hn : l.txCounter < maxNonce) (nowMs : ℚ) :
    (∃ packet l', (sendTreeAnnounce S G t nowMs).run l = .ok packet l') ↔ t.ancestry.length ≤ 2044 := by
  obtain ⟨a, ha⟩ := announce_of_lt (S := S) (G := G) hs ht
  have hancestry : a.ancestry = t.ancestry := by
    obtain ⟨declaration, -, rfl⟩ := announce_eq_ok ha
    rfl
  have hsem := hinv.semantics hlen ha
  have hvalid := validateTreeAnnounceSemantics_ok.2 hsem
  have hrun : (do encodeTreeAnnounce (← t.announce S G)) = encodeTreeAnnounce a := by rw [ha]; rfl
  unfold sendTreeAnnounce
  rw [hrun, EStateM.run_bind]
  by_cases hcount : t.ancestry.length < 65536
  · have hw := announce_wire hG hinv hwire hsem ha hs ht hcount
    rw [encodeTreeAnnounce_eq hw hvalid, run_lift_ok]
    show (∃ packet l', (FmpLink.encryptOutgoing S a.bytes.tail _ nowMs).run l = .ok packet l') ↔ _
    rw [FmpLink.encryptOutgoing_ok_iff hl hidx hn (by decide), List.length_tail, length_bytes hw, hancestry]
    omega
  · constructor
    · rintro ⟨packet, l', h⟩
      cases henc : encodeTreeAnnounce a with
      | ok encoded => exact absurd (hancestry ▸ encodeTreeAnnounce_length henc) hcount
      | error e =>
        rw [henc] at h
        cases h
    · intro hle
      omega

/-- In a run fed by frames, the announcement can be sent exactly while the ancestry has at most 2044 entries. -/
theorem sendTreeAnnounce_ok_iff (hS : S.Lawful) (hG : G.Lawful S) (hid : identity.Valid S) (nowSeconds : Nat)
    (es : List FrameEvent) (hnow : nowSeconds < 2 ^ 64) (hclock : ∀ e ∈ es, e.clock < 2 ^ 64)
    (hlength : es.length + 1 < 2 ^ 64) (t : TreeState)
    (ht : t = Run.run (frameStep S G) (TreeState.new identity nowSeconds) es) (l : FmpLink) {key : Bytes} {idx : Nat}
    (hl : l.Seals key idx) (hidx : idx < 2 ^ 32) (hn : l.txCounter < maxNonce) (nowMs : ℚ) :
    (∃ packet l', (sendTreeAnnounce S G t nowMs).run l = .ok packet l') ↔ t.ancestry.length ≤ 2044 := by
  rw [run_frameStep] at ht
  have hevents : ∀ e ∈ es.filterMap (FrameEvent.treeEvent S G), e.Valid ∧ e.Wire ∧ e.clock < 2 ^ 64 := by
    intro event hevent
    obtain ⟨e, he, htree⟩ := List.mem_filterMap.1 hevent
    obtain ⟨hv, hw, hc⟩ := FrameEvent.treeEvent_valid htree
    exact ⟨hv, hw, hc ▸ hclock e he⟩
  have hinv : t.Inv := ht ▸ run_inv (new_inv identity nowSeconds) fun e he => (hevents e he).1
  have hwire : t.WireInv := by
    rw [ht]
    refine run_wire ⟨fun e he => (by cases he), fun entry he => (by cases he)⟩ fun e he => (hevents e he).2.1
  have hident : t.identity = identity := ht ▸ run_identity _ _
  have hseq := run_sequence_le (TreeState.new identity nowSeconds) (es.filterMap (FrameEvent.treeEvent S G))
  rw [← ht] at hseq
  have hfilter := List.length_filterMap_le (FrameEvent.treeEvent S G) es
  change t.sequence ≤ 1 + _ at hseq
  refine send_ok_iff hG hinv hwire ?_ (by omega) ?_ hl hidx hn nowMs
  · rw [hident]
    exact length_of_deriveNodeAddr hS hid.nodeAddr
  · rw [ht]
    exact run_timestamp_lt hnow fun e he => (hevents e he).2.2

/-- The announcement of the initiator, a new node, arrives at the responder. -/
def toyArrival (h : FmpHandshake) : List FrameEvent :=
  match (sendTreeAnnounce toySuite toySchnorr (TreeState.new (toyIdentity 1) 9) 5).run h.initiator with
  | .ok packet _ => [.receive h.responder (toyIdentity 1).publicKey none packet 5 10]
  | .error _ _ => []

theorem toyArrival_clock (h : FmpHandshake) :
    (toyArrival h).length ≤ 1 ∧ ∀ e ∈ toyArrival h, e.clock = 10 := by
  unfold toyArrival
  generalize (sendTreeAnnounce toySuite toySchnorr (TreeState.new (toyIdentity 1) 9) 5).run h.initiator = sent
  cases sent with
  | ok packet _ => exact ⟨Nat.le_refl 1, fun e he => by rw [List.mem_singleton.1 he]; rfl⟩
  | error _ _ => exact ⟨Nat.zero_le 1, fun e he => absurd he List.not_mem_nil⟩

/-- The responder adopts the initiator as its parent. -/
theorem toyArrival_ancestry : (FmpChannel.toyHandshake.toOption.map fun h =>
    addrs (Run.run (frameStep toySuite toySchnorr) (TreeState.new (toyIdentity 2) 9) (toyArrival h)).ancestry) =
      some [(toyIdentity 2).nodeAddr, (toyIdentity 1).nodeAddr] := by
  decide +kernel

/-- The responder announces the parent that it has heard of. -/
theorem sendTreeAnnounce_ok_toy : ∃ h t packet responder', FmpChannel.toyHandshake = .ok h ∧
    t = Run.run (frameStep toySuite toySchnorr) (TreeState.new (toyIdentity 2) 9) (toyArrival h) ∧
    addrs t.ancestry = [(toyIdentity 2).nodeAddr, (toyIdentity 1).nodeAddr] ∧
    (sendTreeAnnounce toySuite toySchnorr t 6).run h.responder = .ok packet responder' := by
  obtain ⟨m, h, -, hh, -, -, -, -, -, -, -, -, hends⟩ := @FmpLink.handshake_completes _ _ _ _ 7 9 0 0
    toySuite_lawful (toyParty_valid 1 11) (toyParty_valid 2 12) (toyIdentity_sameX 2)
    (by decide) (by decide)
  obtain ⟨kr, hkr, hlr⟩ := hends.rx_key
  have hn : h.responder.txCounter < maxNonce := by rw [hends.fresh.2.1]; decide
  have hancestry : addrs (Run.run (frameStep toySuite toySchnorr) (TreeState.new (toyIdentity 2) 9)
      (toyArrival h)).ancestry = [(toyIdentity 2).nodeAddr, (toyIdentity 1).nodeAddr] := by
    have hadopted := toyArrival_ancestry
    rw [show FmpChannel.toyHandshake = .ok h from hh] at hadopted
    exact Option.some.inj hadopted
  have hlength := congrArg List.length hancestry
  rw [addrs, List.length_map] at hlength
  have harrival := toyArrival_clock h
  have hevents : (toyArrival h).length + 1 < 2 ^ 64 := Nat.lt_of_le_of_lt (Nat.succ_le_succ harrival.1) (by decide)
  obtain ⟨packet, responder', hpacket⟩ := (sendTreeAnnounce_ok_iff toySuite_lawful toySchnorr_lawful (toyIdentity_valid 2)
    9 (toyArrival h) (by decide) (fun e he => by rw [harrival.2 e he]; decide) hevents _ rfl h.responder
    ⟨hends.r_state, hends.r_tx ▸ hkr, hlr, hends.r_idx.2⟩ (by decide) hn 6).2 (by rw [hlength]; decide)
  exact ⟨h, _, packet, responder', hh, rfl, hancestry, hpacket⟩

/-! ### The longest ancestry a frame carries -/

/-- A tree whose ancestry has 2044 entries, the parent and everything above it at one smallest address. -/
def longTree : TreeState where
  identity := toyIdentity 2
  sequence := 1
  timestamp := 0
  parent := smallerPeer
  ancestry := ⟨(toyIdentity 2).nodeAddr, 1, 0⟩ :: List.replicate 2043 ⟨smallerPeer, 1, 0⟩
  peers := []

theorem longTree_ancestry : addrs longTree.ancestry = (toyIdentity 2).nodeAddr :: List.replicate 2043 smallerPeer := by
  show (toyIdentity 2).nodeAddr :: (List.replicate 2043 _).map TreeCoordEntry.nodeAddr = _
  rw [List.map_replicate]

theorem longTree_root : rootOf longTree.ancestry = smallerPeer := by
  have hrep : List.replicate 2043 smallerPeer = List.replicate 2042 smallerPeer ++ [smallerPeer] := List.replicate_succ'
  rw [rootOf, longTree_ancestry, hrep, ← List.cons_append, List.getLast?_concat]
  rfl

/-- It is announced, and the announcement is one frame long. -/
theorem longTree_announce : ∃ a, longTree.announce toySuite toySchnorr = .ok a ∧ a.ancestry = longTree.ancestry ∧
    a.Wire ∧ a.Semantics := by
  obtain ⟨a, ha⟩ := announce_of_lt (S := toySuite) (G := toySchnorr) (t := longTree) (by decide) (by decide)
  obtain ⟨declaration, -, rfl⟩ := announce_eq_ok ha
  have hlen : (toyIdentity 2).nodeAddr.length = 16 := by decide +kernel
  have h64 : (1 : Nat) < 2 ^ 64 ∧ (0 : Nat) < 2 ^ 64 := by decide
  refine ⟨_, ha, rfl, ⟨h64.1, h64.2, rfl, ?_, ?_, length_leBytes _ _⟩, ⟨?_, ?_, ?_, ?_⟩⟩
  · intro entry he
    rcases List.mem_cons.1 he with rfl | he
    · exact ⟨hlen, by decide, by decide⟩
    · rw [(List.mem_replicate.1 he).2]
      exact ⟨by decide, by decide, by decide⟩
  · show (_ :: List.replicate 2043 _).length < 65536
    rw [List.length_cons, List.length_replicate]
    decide
  · exact List.cons_ne_nil _ _
  · intro hparent
    change (addrs longTree.ancestry).head? = some smallerPeer at hparent
    rw [longTree_ancestry, List.head?_cons] at hparent
    exact absurd (Option.some_inj.1 hparent) (by decide +kernel)
  · intro _
    change (addrs longTree.ancestry)[1]?.getD [] = smallerPeer
    rw [longTree_ancestry]
    rfl
  · intro addr haddr
    change addr ∈ addrs longTree.ancestry at haddr
    change addr.length = 16 ∧ rootOf longTree.ancestry ≤ addr
    rw [longTree_root]
    rw [longTree_ancestry] at haddr
    rcases List.mem_cons.1 haddr with rfl | haddr
    · exact ⟨hlen, by decide +kernel⟩
    · rw [(List.mem_replicate.1 haddr).2]
      exact ⟨by decide, by decide⟩

/-- The payload of a sealed announcement opens to the announcement. -/
theorem handleTreeAnnounce_longTree {a : TreeAnnounce} (ha : longTree.announce toySuite toySchnorr = .ok a)
    (hw : a.Wire) (hs : a.Semantics) :
    handleTreeAnnounce toySuite toySchnorr (toyIdentity 2).publicKey a.bytes.tail none =
      .ok (some ((toyIdentity 2).nodeAddr, a)) := by
  have hdecode : decodeTreeAnnouncePayload a.bytes.tail = .ok a :=
    decodeTreeAnnounce_bytes hw (validateTreeAnnounceSemantics_ok.2 hs)
  have hverify := verify_announce toySuite_lawful toySchnorr_lawful (toyIdentity_valid 2) rfl ha
  have hhead : (addrs a.ancestry).headD [] = (toyIdentity 2).nodeAddr := by
    obtain ⟨declaration, -, rfl⟩ := announce_eq_ok ha
    rfl
  unfold handleTreeAnnounce
  rw [hdecode]
  show (do let peerNodeAddr ← deriveNodeAddr toySuite (toyIdentity 2).publicKey; _ : Except String _) = _
  rw [(toyIdentity_valid 2).nodeAddr]
  show (if (addrs a.ancestry).headD [] ≠ (toyIdentity 2).nodeAddr then _ else _) = _
  rw [if_neg (not_not.2 hhead), show longTree.identity = toyIdentity 2 from rfl] at *
  rw [hverify]
  rfl

/-- The node that adopts it has 2045 entries. -/
theorem adopt_longTree {a : TreeAnnounce} (ha : a.ancestry = longTree.ancestry) (hs : a.Semantics) :
    (step (TreeState.new (toyIdentity 1) 9) (.updatePeer (toyIdentity 2).nodeAddr a 10)).ancestry.length = 2045 := by
  have hself : (toyIdentity 1).nodeAddr ∉ addrs longTree.ancestry := by
    rw [longTree_ancestry]
    intro hmem
    rcases List.mem_cons.1 hmem with h | h
    · exact absurd h (by decide +kernel)
    · exact absurd (List.mem_replicate.1 h).2 (by decide +kernel)
  have hvalid : (TreeEvent.updatePeer (toyIdentity 2).nodeAddr a 10).Valid := by
    refine ⟨validateTreeAnnounceSemantics_ok.2 hs, ?_⟩
    rw [ha, longTree_ancestry]
    rfl
  have hinv := step_inv (new_inv (toyIdentity 1) 9) hvalid
  have hpeers : (step (TreeState.new (toyIdentity 1) 9) (.updatePeer (toyIdentity 2).nodeAddr a 10)).peers =
      [((toyIdentity 2).nodeAddr, a.stored)] := step_peers _ _
  have hident := step_identity (TreeState.new (toyIdentity 1) 9) (.updatePeer (toyIdentity 2).nodeAddr a 10)
  generalize step (TreeState.new (toyIdentity 1) 9) (.updatePeer (toyIdentity 2).nodeAddr a 10) = t at *
  have hcand : ((toyIdentity 2).nodeAddr, a.stored) ∈ t.candidates := by
    rw [mem_candidates, hpeers, hident]
    refine ⟨List.mem_singleton_self _, ?_⟩
    show (toyIdentity 1).nodeAddr ∉ addrs a.ancestry
    rw [ha]
    exact hself
  have hpref : t.preferred = some ((toyIdentity 2).nodeAddr, a.stored) := by
    refine preferred_eq hinv.nodup hcand (fun e he => ?_) ?_
    · have hmem := (mem_candidates.1 he).1
      rw [hpeers, List.mem_singleton] at hmem
      rw [hmem]
      exact (PeerTreeState.Precedes.total _ _).elim id id
    · show rootOf a.ancestry < t.identity.nodeAddr
      rw [ha, longTree_root, hident]
      decide +kernel
  have hcoords := congrArg List.length (hinv.coords_of_some hpref)
  change (addrs t.ancestry).length = (t.identity.nodeAddr :: addrs a.ancestry).length at hcoords
  rw [ha, longTree_ancestry, List.length_cons, List.length_cons, List.length_replicate, addrs, List.length_map] at hcoords
  exact hcoords

/-- An announcement of 2044 entries is received and adopted, and can then not be sent on. -/
theorem longTree_not_sent_on : ∃ h packet responder', FmpChannel.toyHandshake = .ok h ∧
    (sendTreeAnnounce toySuite toySchnorr longTree 0).run h.responder = .ok packet responder' ∧
    ¬∃ packet' initiator', (sendTreeAnnounce toySuite toySchnorr
      (Run.run (frameStep toySuite toySchnorr) (TreeState.new (toyIdentity 1) 9)
        [.receive h.initiator (toyIdentity 2).publicKey none packet 0 10]) 0).run h.initiator =
      .ok packet' initiator' := by
  obtain ⟨m, h, -, hh, -, -, -, -, -, -, -, -, hends⟩ := @FmpLink.handshake_completes _ _ _ _ 7 9 0 0
    toySuite_lawful (toyParty_valid 1 11) (toyParty_valid 2 12) (toyIdentity_sameX 2)
    (by decide) (by decide)
  obtain ⟨kt, hkt, hlt⟩ := hends.tx_key
  obtain ⟨kr, hkr, hlr⟩ := hends.rx_key
  have hresp : h.responder.Seals kr 7 := ⟨hends.r_state, hends.r_tx ▸ hkr, hlr, hends.r_idx.2⟩
  have hinit : h.initiator.Seals kt 9 := ⟨hends.i_state, hkt, hlt, hends.i_idx.2⟩
  obtain ⟨a, ha, hanc, hw, hs⟩ := longTree_announce
  have hlength : longTree.ancestry.length = 2044 := by
    have := congrArg List.length longTree_ancestry
    rwa [addrs, List.length_map, List.length_cons, List.length_replicate] at this
  have hrun : (do encodeTreeAnnounce (← longTree.announce toySuite toySchnorr)) = .ok a.bytes := by
    rw [ha]
    exact encodeTreeAnnounce_eq hw (validateTreeAnnounceSemantics_ok.2 hs)
  have hsend : (sendTreeAnnounce toySuite toySchnorr longTree 0).run h.responder =
      (FmpLink.encryptOutgoing toySuite a.bytes.tail LinkMessageType.TreeAnnounce 0).run h.responder := by
    unfold sendTreeAnnounce
    rw [hrun, EStateM.run_bind, run_lift_ok]
  have hn : h.responder.txCounter < maxNonce := by rw [hends.fresh.2.1]; decide
  obtain ⟨packet, responder', hpacket⟩ := (@FmpLink.encryptOutgoing_ok_iff toySuite _ _ a.bytes.tail _
      LinkMessageType.TreeAnnounce 0 hresp (by decide) hn (by decide)).2 (by
      rw [List.length_tail, length_bytes hw, hanc, hlength]
      decide)
  obtain ⟨receiver, hdecrypt⟩ := FmpLink.decryptIncoming_of_sent toySuite_lawful hresp
    ⟨hends.i_state, hkr, hlr, hends.i_idx.1⟩ hends.fresh.2.2.1 hpacket 0
  have hevent : (FrameEvent.receive h.initiator (toyIdentity 2).publicKey none packet 0 10).treeEvent toySuite toySchnorr =
      some (.updatePeer (toyIdentity 2).nodeAddr a 10) := by
    simp only [FrameEvent.treeEvent, hdecrypt, if_true, handleTreeAnnounce_longTree ha hw hs]
  refine ⟨h, packet, responder', hh, hsend.trans hpacket, ?_⟩
  rw [sendTreeAnnounce_ok_iff toySuite_lawful toySchnorr_lawful (toyIdentity_valid 1) 9 _ (by decide)
    (List.forall_mem_singleton.2 (by show (10 : Nat) < _; decide)) (by simp) _ rfl h.initiator hinit (by decide)
    (by rw [hends.fresh.1]; decide) 0]
  rw [Run.run_cons, Run.run_nil, frameStep, hevent]
  show ¬(step (TreeState.new (toyIdentity 1) 9) (.updatePeer (toyIdentity 2).nodeAddr a 10)).ancestry.length ≤ 2044
  rw [adopt_longTree hanc hs]
  decide

end TreeState

end Fips
