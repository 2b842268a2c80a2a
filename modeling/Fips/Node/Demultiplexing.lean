import Fips.Crypto.Toy
import Fips.Fmp.Rejection
import Fips.Fsp.Reassembly
import Fips.Fsp.Records
import Fips.Fsp.Rejection
import Fips.Node.PacketProcessor
import Fips.Protocol.Exactness
import Fips.Transport.WebSocketRecords

/-!
# Physical records fall in one class

The packets of a path are of five classes, and each is told by a test of its own (`RecordClass.Is`). The first byte sets
them apart, except a direct FSP record from an Established frame: those two differ in a flag and in where the ciphertext
starts. So the processor and the WebSocket transport, which make the tests in different orders, find the same class.
-/

namespace Fips
open Exec LittleEndian

inductive RecordClass
  | fragment
  | directFsp
  | msg1
  | msg2
  | established
deriving DecidableEq

namespace RecordClass

/-- The test of a class, by itself. -/
def Is : RecordClass → Bytes → Prop
  | .fragment, data => isDirectFspTransportFragment data = true
  | .directFsp, data => isDirectFspEstablished data = true
  | .msg1, data => ∃ m, decodeFmpMsg1 data = .ok m
  | .msg2, data => ∃ m, decodeFmpMsg2 data = .ok m
  | .established, data => ∃ p, decodeFmpEstablished data = .ok p

/-- The class of a packet that is neither a fragment nor a direct FSP record. -/
def ofPhase (data : Bytes) : Option RecordClass :=
  match peekFmpPhase data with
  | .ok 0 => some .established
  | .ok 1 => some .msg1
  | .ok 2 => some .msg2
  | _ => none

/-- The tests in the order of the packet processor. -/
def ofProcessor (data : Bytes) : Option RecordClass :=
  if isDirectFspTransportFragment data then some .fragment
  else if isDirectFspEstablished data then some .directFsp
  else ofPhase data

/-- The tests in the order of the WebSocket transport. -/
def ofWebSocket (wire : Bytes) : Option RecordClass :=
  if isDirectFspEstablished wire then some .directFsp
  else if isDirectFspTransportFragment wire then some .fragment
  else ofPhase wire

/-- The byte a class starts with. -/
def lead : RecordClass → UInt8
  | .fragment => 0x44
  | .directFsp => 0
  | .msg1 => 1
  | .msg2 => 2
  | .established => 0

end RecordClass

/-! ### The first byte -/

section
variable {data rest : Bytes} {c c' : RecordClass} {phase flags payloadLen : Nat}

theorem prefixBytes_eq (phase flags payloadLen : Nat) :
    prefixBytes phase flags payloadLen = UInt8.ofNat phase :: UInt8.ofNat flags :: leBytes 2 payloadLen := by
  simp [prefixBytes, leBytes]

theorem head_of_isFragment (h : isDirectFspTransportFragment data = true) : data.head? = some 0x44 := by
  have htake : data.take FRAGMENT_MAGIC.length = FRAGMENT_MAGIC := of_decide_eq_true h
  cases data with
  | nil => cases htake
  | cons b rest =>
    rw [FRAGMENT_MAGIC, List.length_cons, List.take_succ_cons] at htake
    exact congrArg some (List.cons.inj htake).1

theorem isDirectFsp_cons {b₀ b₁ : UInt8} : isDirectFspEstablished (b₀ :: b₁ :: rest) = true ↔
    10 ≤ rest.length ∧ b₀.toNat / 16 = 0 ∧ b₀.toNat % 16 = 0 ∧ hasFlag b₁.toNat FSP_FLAG_DIRECT_TRANSPORT = true := by
  rw [show isDirectFspEstablished (b₀ :: b₁ :: rest) = decide (12 ≤ rest.length + 1 + 1 ∧ b₀.toNat / 16 = 0 ∧
    b₀.toNat % 16 = 0 ∧ hasFlag b₁.toNat FSP_FLAG_DIRECT_TRANSPORT = true) from rfl, decide_eq_true_iff]
  constructor
  · rintro ⟨h₁, h₂⟩
    exact ⟨by omega, h₂⟩
  · rintro ⟨h₁, h₂⟩
    exact ⟨by omega, h₂⟩

theorem head_of_isDirectFsp (h : isDirectFspEstablished data = true) : data.head? = some 0 := by
  match data, h with
  | b₀ :: b₁ :: rest, h =>
    obtain ⟨-, hhigh, hlow, -⟩ := isDirectFsp_cons.1 h
    have hzero : b₀ = 0 := UInt8.toNat_inj.1 (show b₀.toNat = 0 by omega)
    exact congrArg some hzero

theorem isDirectFsp_prefix (hp : phase < 16) (hf : flags < 256) :
    isDirectFspEstablished (prefixBytes phase flags payloadLen ++ rest) = true ↔
      8 ≤ rest.length ∧ phase = 0 ∧ hasFlag flags FSP_FLAG_DIRECT_TRANSPORT = true := by
  have h₀ : (UInt8.ofNat phase).toNat = phase := by
    rw [UInt8.toNat_ofNat']
    omega
  have h₁ : (UInt8.ofNat flags).toNat = flags := by
    rw [UInt8.toNat_ofNat']
    omega
  rw [prefixBytes_eq, List.cons_append, List.cons_append, isDirectFsp_cons, h₀, h₁, List.length_append, length_leBytes]
  constructor
  · rintro ⟨hlen, hhigh, hlow, hflag⟩
    exact ⟨by omega, by omega, hflag⟩
  · rintro ⟨hlen, rfl, hflag⟩
    exact ⟨by omega, rfl, rfl, hflag⟩

/-- A packet of a class starts with the byte of the class. -/
theorem RecordClass.Is.head (h : c.Is data) : data.head? = some c.lead := by
  cases c with
  | fragment => exact head_of_isFragment h
  | directFsp => exact head_of_isDirectFsp h
  | msg1 =>
    obtain ⟨m, hm⟩ := h
    rw [(decodeFmpMsg1_bytes hm).2.2, prefixBytes_eq]
    rfl
  | msg2 =>
    obtain ⟨m, hm⟩ := h
    rw [(decodeFmpMsg2_bytes hm).2.2.2, prefixBytes_eq]
    rfl
  | established =>
    obtain ⟨p, hp⟩ := h
    rw [(decodeFmpEstablished_eq_ok hp).2.2.2.2.2, fmpHeaderBytes, prefixBytes_eq]
    rfl

/-- Two tests that both pass are those of direct FSP records and of Established frames. -/
theorem RecordClass.Is.unique (h : c.Is data) (h' : c'.Is data) (hnot : ¬(isDirectFspEstablished data = true ∧
    ∃ p, decodeFmpEstablished data = .ok p)) : c' = c := by
  have hlead : c.lead = c'.lead := Option.some.inj (h.head.symm.trans h'.head)
  by_contra hne
  have hpair : (c = .directFsp ∧ c' = .established) ∨ (c = .established ∧ c' = .directFsp) := by
    revert hlead hne
    cases c <;> cases c' <;> decide
  rcases hpair with ⟨rfl, rfl⟩ | ⟨rfl, rfl⟩
  · exact hnot ⟨h, h'⟩
  · exact hnot ⟨h', h⟩

theorem not_isFragment_of_isDirectFsp (h : isDirectFspEstablished data = true) :
    isDirectFspTransportFragment data = false := by
  by_contra hfragment
  have hhead := (head_of_isFragment (Bool.eq_true_of_not_eq_false hfragment)).symm.trans (head_of_isDirectFsp h)
  exact absurd (Option.some.inj hhead) (by decide)

/-- The order of the two tests does not matter. -/
theorem RecordClass.ofWebSocket_eq (data : Bytes) : ofWebSocket data = ofProcessor data := by
  unfold ofWebSocket ofProcessor
  by_cases hdirect : isDirectFspEstablished data = true
  · rw [if_pos hdirect, not_isFragment_of_isDirectFsp hdirect, if_neg Bool.false_ne_true, if_pos hdirect]
  · rw [if_neg hdirect, if_neg hdirect]

theorem RecordClass.ofPhase_of_head {b : UInt8} (h : data.head? = some b) (c : RecordClass) (hb : b = c.lead)
    (hne : c ≠ .fragment) (hne' : c ≠ .directFsp) : ofPhase data = some c := by
  cases data with
  | nil => cases h
  | cons b' rest =>
    cases h
    rw [hb]
    cases c with
    | fragment => exact absurd rfl hne
    | directFsp => exact absurd rfl hne'
    | msg1 => rfl
    | msg2 => rfl
    | established => rfl

/-- The processor finds the class of a packet that passes one test only. -/
theorem RecordClass.Is.ofProcessor (h : c.Is data) (hnot : ¬(isDirectFspEstablished data = true ∧
    ∃ p, decodeFmpEstablished data = .ok p)) : RecordClass.ofProcessor data = some c := by
  unfold RecordClass.ofProcessor
  by_cases hfragment : isDirectFspTransportFragment data = true
  · rw [if_pos hfragment, @Is.unique _ _ .fragment h hfragment hnot]
  by_cases hdirect : isDirectFspEstablished data = true
  · rw [if_neg hfragment, if_pos hdirect, @Is.unique _ _ .directFsp h hdirect hnot]
  rw [if_neg hfragment, if_neg hdirect]
  refine ofPhase_of_head h.head c rfl ?_ ?_
  · rintro rfl
    exact hfragment h
  · rintro rfl
    exact hdirect h

end

/-! ### What the WebSocket transport accepts -/

/-- The check of a class. -/
def RecordClass.validate : RecordClass → Bytes → Except String Unit
  | .fragment, wire => validateDirectFspFragment wire
  | .directFsp, wire => discard (decodeFspEstablished wire)
  | .msg1, wire => discard (decodeFmpMsg1 wire)
  | .msg2, wire => discard (decodeFmpMsg2 wire)
  | .established, wire => discard (decodeFmpEstablished wire)

section
variable {data wire packet : Bytes} {c : RecordClass} {maxBytes : Nat}

theorem discard_eq_ok {α : Type} {x : Except String α} : discard x = .ok () ↔ ∃ a, x = .ok a := by
  constructor
  · intro h
    obtain ⟨a, ha, -⟩ := except_bind_eq_ok.1 h
    exact ⟨a, ha⟩
  · rintro ⟨a, rfl⟩
    rfl

/-- The transport checks a message by its class. -/
theorem validateFipsRecord_eq_ok : validateFipsRecord wire maxBytes = .ok () ↔
    wire ≠ [] ∧ wire.length ≤ maxBytes ∧ ∃ c, RecordClass.ofWebSocket wire = some c ∧ c.validate wire = .ok () := by
  unfold validateFipsRecord
  by_cases hsize : wire.length = 0 ∨ wire.length > maxBytes
  · rw [if_pos hsize]
    refine ⟨nofun, fun ⟨hne, hle, _⟩ => ?_⟩
    have := List.length_pos_iff.2 hne
    omega
  have hne : wire ≠ [] := fun hnil => hsize (.inl (by rw [hnil]; rfl))
  have hle : wire.length ≤ maxBytes := by omega
  rw [if_neg hsize]
  simp only [hne, hle, ne_eq, not_false_eq_true, true_and]
  unfold RecordClass.ofWebSocket
  by_cases hdirect : isDirectFspEstablished wire = true
  · simp [hdirect, RecordClass.validate]
  by_cases hfragment : isDirectFspTransportFragment wire = true
  · simp [hdirect, hfragment, RecordClass.validate]
  simp only [hdirect, hfragment, Bool.false_eq_true, if_false]
  obtain ⟨b, rest, rfl⟩ := List.exists_cons_of_ne_nil hne
  have hpeek : peekFmpPhase (b :: rest) = .ok (b.toNat % 16) := rfl
  rw [RecordClass.ofPhase, hpeek, ok_bind]
  generalize b.toNat % 16 = phase
  match phase with
  | 0 => simp [RecordClass.validate]
  | 1 => simp [RecordClass.validate]
  | 2 => simp [RecordClass.validate]
  | n + 3 => simp

/-- A key hint starts like a Msg1 and has not the length of one. -/
theorem decodeLocalKeyHint_of_valid (h : validateFipsRecord wire maxBytes = .ok ()) : decodeLocalKeyHint wire = none := by
  obtain ⟨-, -, c, hc, hvalid⟩ := validateFipsRecord_eq_ok.1 h
  by_cases hhead : wire.head? = some LOCAL_KEY_HINT_VERSION
  swap
  · rw [decodeLocalKeyHint, if_pos hhead]
  have hmsg1 : c = .msg1 := by
    have hdirect : ¬isDirectFspEstablished wire = true := fun hd =>
      absurd (Option.some.inj (hhead.symm.trans (head_of_isDirectFsp hd))) (by decide)
    have hfragment : ¬isDirectFspTransportFragment wire = true := fun hf =>
      absurd (Option.some.inj (hhead.symm.trans (head_of_isFragment hf))) (by decide)
    rw [RecordClass.ofWebSocket, if_neg hdirect, if_neg hfragment,
      RecordClass.ofPhase_of_head hhead .msg1 rfl (by decide) (by decide)] at hc
    exact (Option.some.inj hc).symm
  subst hmsg1
  obtain ⟨m, hm⟩ := discard_eq_ok.1 hvalid
  obtain ⟨-, hnoise, hbytes⟩ := decodeFmpMsg1_bytes hm
  have hlen : wire.length = 114 := by
    rw [hbytes]
    simp [hnoise]
  rw [decodeLocalKeyHint, if_neg (not_not.2 hhead), hlen]
  exact if_pos (by decide)

/-! ### Packets of one class -/

/-- A packet that passes the test of one class, and the check of that class. -/
structure RecordClass.Sole (c : RecordClass) (packet : Bytes) : Prop where
  is : c.Is packet
  alone : ¬(isDirectFspEstablished packet = true ∧ ∃ p, decodeFmpEstablished packet = .ok p)
  valid : c.validate packet = .ok ()

theorem not_isDirectFsp_of_head {b : UInt8} (h : packet.head? = some b) (hb : b ≠ 0) :
    ¬isDirectFspEstablished packet = true :=
  fun hd => hb (Option.some.inj (h.symm.trans (head_of_isDirectFsp hd)))

theorem sole_msg1 {m : FmpMsg1} (h : decodeFmpMsg1 packet = .ok m) : RecordClass.Sole .msg1 packet := by
  have his : RecordClass.Is .msg1 packet := ⟨m, h⟩
  exact ⟨his, fun hboth => not_isDirectFsp_of_head his.head (by decide) hboth.1, discard_eq_ok.2 ⟨m, h⟩⟩

theorem sole_msg2 {m : FmpMsg2} (h : decodeFmpMsg2 packet = .ok m) : RecordClass.Sole .msg2 packet := by
  have his : RecordClass.Is .msg2 packet := ⟨m, h⟩
  exact ⟨his, fun hboth => not_isDirectFsp_of_head his.head (by decide) hboth.1, discard_eq_ok.2 ⟨m, h⟩⟩

/-- A frame with clear flags is no direct FSP record. -/
theorem sole_established {p : FmpEstablished} (h : decodeFmpEstablished packet = .ok p) (hflags : p.flags = 0) :
    RecordClass.Sole .established packet := by
  refine ⟨⟨p, h⟩, fun hboth => ?_, discard_eq_ok.2 ⟨p, h⟩⟩
  obtain ⟨-, -, -, -, -, hbytes⟩ := decodeFmpEstablished_eq_ok h
  have hdirect := hboth.1
  rw [hbytes, hflags, fmpHeaderBytes, List.append_assoc, List.append_assoc,
    isDirectFsp_prefix (by decide) (by decide)] at hdirect
  exact absurd hdirect.2.2 (by decide)

/-- A direct FSP record without coordinates is four bytes shorter than a frame with its length field. -/
theorem sole_directFsp {est : FspEstablished} (h : decodeFspEstablished packet = .ok est)
    (hdirect : hasFlag est.flags FSP_FLAG_DIRECT_TRANSPORT = true) (hcp : hasFlag est.flags FSP_FLAG_CP = false) :
    RecordClass.Sole .directFsp packet := by
  obtain ⟨hw, -, hbytes⟩ := decodeFspEstablished_bytes h
  have hparts : packet = prefixBytes 0 est.flags est.payloadLen ++ (leBytes 8 est.counter ++ est.ciphertext) := by
    rw [hbytes, FspEstablished.bytes, FspEstablished.coordsPart, if_neg (Bool.eq_false_iff.1 hcp), List.append_nil,
      fspHeaderBytes, List.append_assoc]
  refine ⟨?_, fun hboth => ?_, discard_eq_ok.2 ⟨est, h⟩⟩
  · show isDirectFspEstablished packet = true
    rw [hparts, isDirectFsp_prefix (by decide) hw.flags]
    exact ⟨by simp, rfl, hdirect⟩
  · obtain ⟨p, hp⟩ := hboth.2
    obtain ⟨-, -, -, hlt, hct, hframe⟩ := decodeFmpEstablished_eq_ok hp
    rw [fmpHeaderBytes, List.append_assoc, List.append_assoc] at hframe
    obtain ⟨hlead, -⟩ := List.append_inj (hparts.symm.trans hframe) (by simp)
    have hlen : est.payloadLen = p.payloadLen := by
      have htail := (List.append_inj' hlead (by simp)).2
      exact leBytes_inj hw.payloadLen hlt htail
    have htotal := congrArg List.length (hparts.symm.trans hframe)
    simp only [List.length_append, length_prefixBytes, length_leBytes, hw.ciphertext, hct] at htotal
    omega

theorem sole_fragment {record : Bytes} {pathMtu counter size count index : Nat} (cut : Cut record pathMtu counter size count)
    (hi : index < count) : RecordClass.Sole .fragment (cutFragment record counter size count index) := by
  have his : RecordClass.Is .fragment (cutFragment record counter size count index) := isFragment_encodeFragment _ _
  refine ⟨his, fun hboth => not_isDirectFsp_of_head his.head (by decide) hboth.1, ?_⟩
  have hshort := cut.short
  have hfew := cut.few
  have hcount := cut.count_le
  have hpiece := cut.piece_pos hi
  have hwhole : (Chunks.piece size record index).length ≤ record.length := by
    rw [Chunks.piece, List.length_take, List.length_drop]
    omega
  have hseveral := cut.several
  simp only [DIRECT_FSP_TRANSPORT_MAX_REASSEMBLED_LEN, DIRECT_FSP_TRANSPORT_MAX_FRAGMENTS] at hshort hfew
  have hlen : (cutFragment record counter size count index).length = 20 + (Chunks.piece size record index).length :=
    length_encodeFragment _ _
  show validateDirectFspFragment _ = .ok ()
  unfold validateDirectFspFragment
  have hheader : readFragmentHeader (cutFragment record counter size count index) = ⟨counter, record.length, index, count⟩ :=
    readFragmentHeader_encode cut.counter (show record.length < 2 ^ 32 by omega) (show index < 65536 by omega)
      (show count < 65536 by omega) _
  rw [if_neg (by omega), hheader]
  exact if_neg (by omega)

namespace RecordClass.Sole

theorem existsUnique (h : c.Sole packet) : ∃! c' : RecordClass, c'.Is packet :=
  ⟨c, h.is, fun _ h' => h.is.unique h' h.alone⟩

theorem accepted (h : c.Sole packet) (hlen : packet.length ≤ maxBytes) : validateFipsRecord packet maxBytes = .ok () := by
  have hne : packet ≠ [] := by
    rintro rfl
    cases h.is.head
  exact validateFipsRecord_eq_ok.2 ⟨hne, hlen, c, (ofWebSocket_eq packet).trans (h.is.ofProcessor h.alone), h.valid⟩

end RecordClass.Sole

end

/-! ### What a node produces -/

/-- The packets that links, sessions and segmentation make, with their classes. -/
inductive Produced (S : Suite) : Bytes → RecordClass → Prop
  | msg1 {l l' : FmpLink} {random packet : Bytes} (hl : l.Reachable S)
      (h : (FmpLink.buildMsg1 S random).run l = .ok packet l') : Produced S packet .msg1
  | msg2 {l l' : FmpLink} {msg1 random reply : Bytes} {nowMs : ℚ} {result : FmpHandshakeResult} (hl : l.Reachable S)
      (h : (FmpLink.handleMsg1 S msg1 random nowMs).run l = .ok result l') (hreply : result.reply = some reply) :
      Produced S reply .msg2
  | established {l l' : FmpLink} {payload packet : Bytes} {msgType : Nat} {nowMs : ℚ} (hl : l.Reachable S)
      (h : (FmpLink.encryptOutgoing S payload msgType nowMs).run l = .ok packet l') : Produced S packet .established
  | directFsp {cfg : ManagerConfig} {env : Env} {route : Session.Route} {msgType : Nat} {payload frame : Bytes}
      {dest : NodeAddr} {c c' : SessionCtx} (hpeer : c.session.fsp.remoteDirectFspTransport = true ∧ route.directPeer = true)
      (h : (Session.sendSessionMessage S cfg env route msgType payload).run c = .ok () c')
      (hsend : c'.log = c.log ++ [.send dest frame]) : Produced S frame .directFsp
  | fragment {record packet : Bytes} {pathMtu : Nat} {packets : List Bytes}
      (h : segmentDirectFspTransportRecord record pathMtu = .ok packets) (hcut : packets ≠ [record])
      (hp : packet ∈ packets) : Produced S packet .fragment

namespace FmpLink
variable {S : Suite} {l l' : FmpLink} {packet random : Bytes} {nowMs : ℚ}

theorem buildMsg1_decodes (h : (buildMsg1 S random).run l = .ok packet l') : ∃ m, decodeFmpMsg1 packet = .ok m := by
  have hwp : wp (buildMsg1 S random) (fun packet _ => ∃ m, decodeFmpMsg1 packet = .ok m) (fun _ _ => True) l := ?_
  · exact (wp_of_ok h).1 hwp
  unfold buildMsg1
  simp only [wp_bind, wp_get, requireHs, wp_ite, wp_throw, wp_pure, wp_modify, implies_true, true_and]
  intro _ _ _
  refine wp_onHs_any (fun _ => trivial) (fun msg hs' => ?_) fun _ _ => trivial
  simp only [wp_ite, wp_bind, wp_throw, wp_lift, implies_true, true_and, and_true]
  exact fun _ encoded hencode => ⟨_, decodeFmpMsg1_encoded hencode⟩

/-- The Msg2 that a link keeps is one. -/
def Answers (l : FmpLink) : Prop := ∀ reply, l.establishedMsg2 = some reply → ∃ m, decodeFmpMsg2 reply = .ok m

theorem replayedMsg1_answers (h : l.Answers) {result : FmpHandshakeResult} (hr : l.replayedMsg1 packet = .ok result)
    {reply : Bytes} (hreply : result.reply = some reply) : ∃ m, decodeFmpMsg2 reply = .ok m := by
  unfold replayedMsg1 at hr
  split at hr
  · rename_i msg1 msg2 remotePubkey _ hmsg2 _
    split at hr
    · cases hr
      cases hreply
      exact h reply hmsg2
    · cases hr
  · cases hr

/-- A responder answers with a Msg2, whether it is new or the one it has kept. -/
theorem handleMsg1_answers (h : l.Answers) : wp (handleMsg1 S packet random nowMs)
    (fun result l' => l'.Answers ∧ ∀ reply, result.reply = some reply → ∃ m, decodeFmpMsg2 reply = .ok m)
    (fun _ l' => l'.Answers) l := by
  unfold handleMsg1
  simp only [wp_bind, wp_get, requireHs, wp_ite, wp_throw, wp_pure, wp_lift]
  refine ⟨fun _ => h, fun _ => ⟨fun _ => ⟨fun result hr => ⟨h, fun _ => replayedMsg1_answers h hr⟩, fun _ _ => h⟩,
    fun _ => ⟨fun _ => h, fun _ => ⟨fun msg1 _ => ?_, fun _ _ => h⟩⟩⟩⟩
  refine wp_onHs_any (fun _ => h) (fun payload hs₁ => ?_) fun _ _ => h
  simp only [wp_ite, wp_bind, wp_throw, wp_modify, wp_get]
  refine ⟨fun _ => h, fun _ => ?_⟩
  cases (some hs₁).bind NoiseHandshake.getRemoteStatic with
  | none => exact h
  | some rs =>
    simp only [wp_bind, wp_modify]
    refine wp_onHs_any (fun _ => h) (fun noiseMsg2 hs₂ => ?_) fun _ _ => h
    simp only [wp_ite, wp_bind, wp_throw, wp_lift, wp_modify]
    refine ⟨fun _ => h, fun _ => ⟨fun reply hencode => ?_, fun _ _ => h⟩⟩
    have hmsg2 : ∀ reply', some reply = some reply' → ∃ m, decodeFmpMsg2 reply' = .ok m := by
      rintro _ ⟨⟩
      exact ⟨_, decodeFmpMsg2_encoded hencode⟩
    exact wp_finalize (fun _ => hmsg2) fun tx rx => wp_pure.2 ⟨hmsg2, hmsg2⟩

theorem handleMsg2_answers (h : l.Answers) : (after (handleMsg2 S packet nowMs) l).Answers := by
  rw [wp_after (P := Answers)]
  unfold handleMsg2
  simp only [wp_bind, wp_get, requireHs, wp_ite, wp_throw, wp_pure, wp_lift]
  refine ⟨fun _ => h, fun _ => ⟨fun _ => ⟨fun _ => h, fun _ => h⟩, fun _ => ⟨fun _ => h, fun _ =>
    ⟨fun msg2 hdecode => ⟨fun _ => h, fun _ => ?_⟩, fun _ _ => h⟩⟩⟩⟩
  refine wp_onHs_any (fun _ => h) (fun payload hs₁ => ?_) fun _ _ => h
  simp only [wp_ite, wp_bind, wp_throw, wp_modify]
  have hmsg2 : ∀ reply, some packet = some reply → ∃ m, decodeFmpMsg2 reply = .ok m := by
    rintro _ ⟨⟩
    exact ⟨msg2, hdecode⟩
  exact ⟨fun _ => h, fun _ => wp_finalize (fun _ => hmsg2) fun tx rx => hmsg2⟩

theorem Answers.step (h : l.Answers) (e : FmpLinkEvent) : (l.step S e).Answers := by
  cases e with
  | buildMsg1 random =>
    show (after _ l).Answers
    rw [wp_after (P := Answers)]
    unfold buildMsg1
    simp only [wp_bind, wp_get, requireHs, wp_ite, wp_throw, wp_pure, wp_modify]
    refine ⟨fun _ => h, fun _ => ⟨fun _ => h, fun _ => ⟨fun _ => h, fun _ => ?_⟩⟩⟩
    refine wp_onHs_any (fun _ => h) (fun msg hs' => ?_) fun _ _ => h
    simp only [wp_ite, wp_bind, wp_throw, wp_lift]
    exact ⟨fun _ => h, fun _ => ⟨fun _ _ => h, fun _ _ => h⟩⟩
  | handleMsg1 packet random nowMs =>
    exact wp_after.2 (wp_mono (handleMsg1_answers h) (fun _ _ h' => h'.1) fun _ _ h' => h')
  | handleMsg2 packet nowMs => exact handleMsg2_answers h
  | encryptOutgoing payload msgType nowMs =>
    show (after _ l).Answers
    rw [wp_after (P := Answers)]
    unfold FmpLink.encryptOutgoing
    simp only [wp_bind, wp_get]
    split
    · simp only [wp_ite, wp_bind, wp_throw, wp_set, wp_lift]
      exact ⟨fun _ => h, fun _ => ⟨fun _ _ => ⟨fun _ _ => ⟨fun _ _ => ⟨fun _ _ => h, fun _ _ => h⟩, fun _ _ => h⟩,
        fun _ _ => h⟩, fun _ _ => h⟩⟩
    · exact h
  | decryptIncoming packet nowMs =>
    show (after _ l).Answers
    rw [wp_after (P := Answers)]
    unfold FmpLink.decryptIncoming
    simp only [wp_bind, wp_get]
    split
    · simp only [wp_ite, wp_bind, wp_throw, wp_lift, wp_modify, wp_pure]
      exact ⟨fun _ _ => ⟨fun _ => h, fun _ => ⟨fun _ => h, fun _ => ⟨fun _ _ => ⟨fun _ _ => ⟨fun _ _ => h, fun _ _ => h⟩,
        fun _ _ => h⟩, fun _ _ => h⟩⟩⟩, fun _ _ => h⟩
    · exact h
  | receiverReportFor senderReport nowMs =>
    simp only [FmpLink.step, receiverReportFor]
    split <;> exact h
  | close => exact h

theorem Answers.run (h : l.Answers) (es : List FmpLinkEvent) : (Run.run (FmpLink.step S) l es).Answers := by
  induction es generalizing l with
  | nil => exact h
  | cons e es ih => exact ih (h.step e)

theorem Reachable.answers (h : l.Reachable S) : l.Answers := by
  obtain ⟨identity, remotePubkey, role, sessionIdx, localEpoch, ephemeralOverride, l₀, es, hnew, rfl⟩ := h
  refine Answers.run ?_ es
  unfold FmpLink.new at hnew
  split at hnew
  · cases hnew
  · obtain ⟨hs, -, hnew⟩ := except_bind_eq_ok.1 hnew
    cases hnew
    exact nofun

/-- A frame is made with clear flags. -/
theorem encryptOutgoing_decodes (hS : S.Lawful) {payload : Bytes} {msgType : Nat}
    (h : (encryptOutgoing S payload msgType nowMs).run l = .ok packet l') :
    ∃ p, decodeFmpEstablished packet = .ok p ∧ p.flags = 0 := by
  have hwp : wp (encryptOutgoing S payload msgType nowMs)
      (fun packet _ => ∃ p, decodeFmpEstablished packet = .ok p ∧ p.flags = 0) (fun _ _ => True) l := ?_
  · exact (wp_of_ok h).1 hwp
  unfold encryptOutgoing
  simp only [wp_bind, wp_get]
  split
  swap
  · exact trivial
  rename_i tx remoteSessionIdx _ _ _
  simp only [wp_ite, wp_bind, wp_throw, wp_set, wp_lift, implies_true, true_and, and_true]
  intro _ inner hinner aad haad ct hct frame hframe
  obtain ⟨key, -, hct⟩ := except_bind_eq_ok.1 hct
  obtain ⟨header, hheader, hframe⟩ := except_bind_eq_ok.1 hframe
  cases hframe
  obtain ⟨hidx, hcounter, hlen, rfl⟩ := encodeFmpEstablishedHeader_eq_ok (show 0 < 256 by decide) hheader
  have hctlen : ct.length = inner.length + 16 := by
    unfold aeadSeal at hct
    split at hct
    · cases hct
    · cases hct
      exact hS.encrypt_length _ _ _ _
  exact ⟨_, decodeFmpEstablished_append (show 0 < 256 by decide) hidx hcounter hlen hctlen, rfl⟩

end FmpLink

/-- What goes to an adjacent peer is sealed with the direct flag and without coordinates. -/
theorem Session.sendSessionMessage_direct {S : Suite} (hS : S.Lawful) {cfg : ManagerConfig} {env : Env} {route : Route}
    {msgType : Nat} {payload frame : Bytes} {dest : NodeAddr} {c c' : SessionCtx}
    (hpeer : c.session.fsp.remoteDirectFspTransport = true ∧ route.directPeer = true)
    (h : (sendSessionMessage S cfg env route msgType payload).run c = .ok () c')
    (hsend : c'.log = c.log ++ [.send dest frame]) :
    ∃ est, decodeFspEstablished frame = .ok est ∧ est.flags = FSP_FLAG_DIRECT_TRANSPORT ||| c.session.kFlag := by
  have hwp : wp (sendSessionMessage S cfg env route msgType payload) (fun _ c' => ∀ dest frame,
      c'.log = c.log ++ [.send dest frame] → ∃ est, decodeFspEstablished frame = .ok est ∧
        est.flags = FSP_FLAG_DIRECT_TRANSPORT ||| c.session.kFlag) (fun _ _ => True) c := ?_
  · exact (wp_of_ok h).1 hwp dest frame hsend
  unfold sendSessionMessage
  simp only [wp_bind, wp_get, wp_lift, implies_true, and_true]
  intro _ _
  refine wp_ite.2 ⟨fun _ => ?_, fun hnot => absurd hpeer hnot⟩
  simp only [wp_bind, update, wp_modify, onFsp, wp_zoom, emit]
  refine wp_iff.2 ⟨fun sealed f' hrun dest frame hlog => ?_, fun _ _ _ => trivial⟩
  have hframe : sealed = frame := by
    have hlast := List.append_cancel_left hlog
    cases hlast
    rfl
  obtain ⟨r, est, hsealing, hcarries⟩ := FspSession.encryptMessage_carries hS hrun
  obtain ⟨-, -, hflags, -⟩ := FspSession.sealing_eq_ok hsealing
  exact ⟨est, hframe ▸ hcarries.decodes, hcarries.flags.trans hflags⟩

theorem direct_flags (s : Session) : hasFlag (FSP_FLAG_DIRECT_TRANSPORT ||| s.kFlag) FSP_FLAG_DIRECT_TRANSPORT = true ∧
    hasFlag (FSP_FLAG_DIRECT_TRANSPORT ||| s.kFlag) FSP_FLAG_CP = false := by
  unfold Session.kFlag
  split <;> exact ⟨rfl, rfl⟩

/-- Everything that is produced passes the test of its class, and of no other. -/
theorem Produced.sole {S : Suite} (hS : S.Lawful) {packet : Bytes} {c : RecordClass} (h : Produced S packet c) :
    c.Sole packet := by
  cases h with
  | msg1 hl h =>
    obtain ⟨m, hm⟩ := FmpLink.buildMsg1_decodes h
    exact sole_msg1 hm
  | msg2 hl h hreply =>
    obtain ⟨m, hm⟩ := ((wp_of_ok h).1 (FmpLink.handleMsg1_answers hl.answers)).2 _ hreply
    exact sole_msg2 hm
  | established hl h =>
    obtain ⟨p, hp, hflags⟩ := FmpLink.encryptOutgoing_decodes hS h
    exact sole_established hp hflags
  | directFsp hpeer h hsend =>
    obtain ⟨est, hest, hflags⟩ := Session.sendSessionMessage_direct hS hpeer h hsend
    obtain ⟨hdirect, hcp⟩ := direct_flags _
    exact sole_directFsp hest (hflags ▸ hdirect) (hflags ▸ hcp)
  | fragment h hcut hp =>
    rcases segment_eq_ok h with ⟨hwhole, -⟩ | ⟨established, size, count, -, cut, rfl⟩
    · exact absurd hwhole hcut
    · obtain ⟨index, hi, rfl⟩ := List.mem_map.1 hp
      exact sole_fragment cut (List.mem_range.1 hi)

/-! ### Dispatch -/

namespace PacketProcessor

/-- What the processor does with a packet of a class. -/
def handlerOf (S : Suite) (cfg : NodeConfig) (env : NodeEnv) (transport : TransportId) (remoteAddr : TransportAddress)
    (peer : Option PeerId) (data : Bytes) : RecordClass → NM Unit
  | .fragment => do
    let _ ← directPeer peer "direct FSP fragment before adjacent link handshake complete"
    match env.ingest data with
    | some packet => processPacket S cfg env transport remoteAddr peer packet
    | none => return
  | .directFsp => processDirectFsp S cfg env peer data
  | .msg1 => handleMsg1 S cfg env transport remoteAddr (transportAddressKey remoteAddr) peer data
  | .msg2 => handleMsg2 S cfg env remoteAddr peer data
  | .established => handleEstablished S cfg env data

/-- The check of a known peer, before anything is looked at. -/
def admitting (peer : Option PeerId) (x : NM Unit) : NM Unit := do
  let n ← get
  match peer with
  | some pid => if (n.peer pid).pubkey ≠ [] then FipsNode.assertPeerAllowed (n.peer pid).pubkey
  | none => pure ()
  x

variable {S : Suite} {cfg : NodeConfig} {env : NodeEnv} {transport : TransportId} {remoteAddr : TransportAddress}
  {peer : Option PeerId} {data : Bytes} {c : RecordClass}

theorem processPacket_eq (hfragment : isDirectFspTransportFragment data = false) (h : RecordClass.ofProcessor data = some c) :
    processPacket S cfg env transport remoteAddr peer data = handlerOf S cfg env transport remoteAddr peer data c := by
  unfold processPacket
  rw [RecordClass.ofProcessor, hfragment, if_neg Bool.false_ne_true] at h
  by_cases hdirect : isDirectFspEstablished data = true
  · rw [if_pos hdirect] at h ⊢
    cases h
    rfl
  rw [if_neg hdirect] at h ⊢
  unfold RecordClass.ofPhase at h
  cases hphase : peekFmpPhase data with
  | error e =>
    rw [hphase] at h
    cases h
  | ok phase =>
    rw [hphase] at h
    match phase, h with
    | 0, h => cases h; rfl
    | 1, h => cases h; rfl
    | 2, h => cases h; rfl
    | n + 3, h => cases h

/-- A packet goes to the handler of its class. -/
theorem process_eq (h : RecordClass.ofProcessor data = some c) (n : FipsNode) :
    (process S cfg env transport remoteAddr data).run n = (admitting (addressedPeer transport remoteAddr n)
      (handlerOf S cfg env transport remoteAddr (addressedPeer transport remoteAddr n) data c)).run n := by
  unfold process admitting
  by_cases hfragment : isDirectFspTransportFragment data = true
  · have hc : c = .fragment := by
      rw [RecordClass.ofProcessor, if_pos hfragment] at h
      exact (Option.some.inj h).symm
    subst hc
    simp only [if_pos hfragment]
    rfl
  · have hfalse := Bool.eq_false_iff.2 hfragment
    simp only [if_neg hfragment, processPacket_eq hfalse h]
    rfl

end PacketProcessor

/-! ### Demultiplexing -/

/-- Every packet that is produced is of one class, goes to the handler of that class and is accepted by the WebSocket
transport; and on what that transport accepts the two classifications agree, and nothing of it reads as a key hint. -/
theorem records_demultiplexed {S : Suite} (hS : S.Lawful) :
    (∀ packet c, Produced S packet c → c.Is packet ∧ (∃! c' : RecordClass, c'.Is packet) ∧
      (∀ cfg env transport remoteAddr (n : FipsNode),
        (PacketProcessor.process S cfg env transport remoteAddr packet).run n =
          (PacketProcessor.admitting (PacketProcessor.addressedPeer transport remoteAddr n)
            (PacketProcessor.handlerOf S cfg env transport remoteAddr
              (PacketProcessor.addressedPeer transport remoteAddr n) packet c)).run n) ∧
      ∀ maxBytes, packet.length ≤ maxBytes → validateFipsRecord packet maxBytes = .ok ()) ∧
    ∀ wire maxBytes, validateFipsRecord wire maxBytes = .ok () →
      (∃ c, RecordClass.ofWebSocket wire = some c ∧ RecordClass.ofProcessor wire = some c) ∧
        decodeLocalKeyHint wire = none := by
  constructor
  · intro packet c hpacket
    have hsole := hpacket.sole hS
    have hclass := hsole.is.ofProcessor hsole.alone
    exact ⟨hsole.is, hsole.existsUnique, fun cfg env transport remoteAddr n => PacketProcessor.process_eq hclass n,
      fun maxBytes hlen => hsole.accepted hlen⟩
  · intro wire maxBytes hvalid
    obtain ⟨-, -, c, hc, -⟩ := validateFipsRecord_eq_ok.1 hvalid
    exact ⟨⟨c, hc, (RecordClass.ofWebSocket_eq wire).symm.trans hc⟩, decodeLocalKeyHint_of_valid hvalid⟩

/-- A record of 60 bytes on a path of 40. -/
def toyFragments : List Bytes := ((segmentDirectFspTransportRecord (toyDirectRecord 5) 40).toOption).getD []

theorem records_demultiplexed_toy : toyFragments.length = 3 ∧ ∀ packet ∈ toyFragments,
    (∃! c : RecordClass, c.Is packet) ∧ validateFipsRecord packet 40 = .ok () ∧ decodeLocalKeyHint packet = none := by
  have hsome : (segmentDirectFspTransportRecord (toyDirectRecord 5) 40).toOption.isSome = true := by decide +kernel
  have hsegment : segmentDirectFspTransportRecord (toyDirectRecord 5) 40 = .ok toyFragments := by
    rw [toyFragments, eq_ok_get hsome]
    rfl
  have hcut : toyFragments ≠ [toyDirectRecord 5] := by decide +kernel
  have hlen : ∀ packet ∈ toyFragments, packet.length ≤ 40 := by decide +kernel
  refine ⟨by decide +kernel, fun packet hp => ?_⟩
  obtain ⟨-, hone, -, hvalid⟩ := (records_demultiplexed toySuite_lawful).1 packet _ (.fragment hsegment hcut hp)
  have haccepted := hvalid 40 (hlen packet hp)
  exact ⟨hone, haccepted, ((records_demultiplexed toySuite_lawful).2 packet 40 haccepted).2⟩

end Fips
