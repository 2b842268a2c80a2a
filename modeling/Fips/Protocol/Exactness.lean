import Fips.Lib.ExactCodec
import Fips.Fmp.Wire
import Fips.Protocol.Filter
import Fips.Protocol.Tree

/-!
# The codecs are exact

The decoders of FMP and FSP records and of the routing messages accept the encodings of well-formed values and nothing
else. Those of the handshake messages and of FilterAnnounce also accept an encoding with bytes behind it: they are exact
on the inputs whose inner lengths add up to the whole.
-/

namespace Fips
open ExactCodec LittleEndian Exec

/-! ### Records -/

theorem exact_fmpMsg1 : Exact FmpMsg1.Wire encodeFmpMsg1 decodeFmpMsg1 := by
  refine .of_bytes (fun m h => encodeFmpMsg1_eq h.senderIdx h.noiseMsg1)
    (fun m h => decodeFmpMsg1_append h.senderIdx h.noiseMsg1) fun b m h => ?_
  obtain ⟨hidx, hlen, hb⟩ := decodeFmpMsg1_bytes h
  exact ⟨⟨hidx, hlen⟩, hb⟩

theorem exact_fmpMsg2 : Exact FmpMsg2.Wire encodeFmpMsg2 decodeFmpMsg2 := by
  refine .of_bytes (fun m h => encodeFmpMsg2_eq h.senderIdx h.receiverIdx h.noiseMsg2)
    (fun m h => decodeFmpMsg2_append h.senderIdx h.receiverIdx h.noiseMsg2) fun b m h => ?_
  obtain ⟨hsender, hreceiver, hlen, hb⟩ := decodeFmpMsg2_bytes h
  exact ⟨⟨hsender, hreceiver, hlen⟩, hb⟩

/-- What an encoder has encoded is decoded to the same value. -/
theorem decodeFmpMsg1_encoded {m : FmpMsg1} {b : Bytes} (h : encodeFmpMsg1 m = .ok b) : decodeFmpMsg1 b = .ok m := by
  have hwire : m.Wire := by
    unfold encodeFmpMsg1 at h
    split at h
    · cases h
    rename_i hlen
    obtain ⟨header, -, h⟩ := except_bind_eq_ok.1 h
    obtain ⟨si, hsi, -⟩ := except_bind_eq_ok.1 h
    have hlt := (BinaryWriter.uint_eq_ok hsi).1
    exact ⟨by omega, not_not.1 hlen⟩
  exact exact_fmpMsg1.decode_of_encode hwire h

theorem decodeFmpMsg2_encoded {m : FmpMsg2} {b : Bytes} (h : encodeFmpMsg2 m = .ok b) : decodeFmpMsg2 b = .ok m := by
  have hwire : m.Wire := by
    unfold encodeFmpMsg2 at h
    split at h
    · cases h
    rename_i hlen
    obtain ⟨header, -, h⟩ := except_bind_eq_ok.1 h
    obtain ⟨si, hsi, h⟩ := except_bind_eq_ok.1 h
    obtain ⟨ri, hri, -⟩ := except_bind_eq_ok.1 h
    have hsender := (BinaryWriter.uint_eq_ok hsi).1
    have hreceiver := (BinaryWriter.uint_eq_ok hri).1
    exact ⟨by omega, by omega, not_not.1 hlen⟩
  exact exact_fmpMsg2.decode_of_encode hwire h

theorem exact_fmpEstablished : Exact FmpEstablished.Wire encodeFmpEstablished decodeFmpEstablished := by
  refine .of_bytes (fun p h => ?_)
    (fun p h => decodeFmpEstablished_append h.flags h.receiverIdx h.counter h.payloadLen h.ciphertext) fun b p h => ?_
  · rw [encodeFmpEstablished, encodeFmpEstablishedHeader_eq h.flags h.receiverIdx h.counter h.payloadLen]
    rfl
  · obtain ⟨hflags, hidx, hcounter, hlen, hct, hb⟩ := decodeFmpEstablished_eq_ok h
    exact ⟨⟨hflags, hidx, hcounter, hlen, hct⟩, hb⟩

theorem encodeFmpInner_eq {p : FmpInnerPacket} (h : p.Wire) :
    encodeFmpInner p = .ok (leBytes 4 p.timestamp ++ leBytes 1 p.msgType ++ p.payload) := by
  rw [encodeFmpInner, BinaryWriter.u32le_of_lt h.timestamp, BinaryWriter.u8_of_lt h.msgType]
  rfl

theorem exact_fmpInner : Exact FmpInnerPacket.Wire encodeFmpInner decodeFmpInner := by
  refine .of_bytes (fun p h => encodeFmpInner_eq h) (fun p h => decodeFmpInner_encode (encodeFmpInner_eq h)) fun b p h => ?_
  obtain ⟨htimestamp, htype, hb⟩ := decodeFmpInner_bytes h
  exact ⟨⟨htimestamp, htype⟩, hb⟩

theorem encodeFspInner_eq {p : FspInnerPacket} (h : p.Wire) : encodeFspInner p =
    .ok (leBytes 4 p.timestamp ++ leBytes 1 p.msgType ++ leBytes 1 p.innerFlags ++ p.payload) := by
  rw [encodeFspInner, BinaryWriter.u32le_of_lt h.timestamp, BinaryWriter.u8_of_lt h.msgType,
    BinaryWriter.u8_of_lt h.innerFlags]
  rfl

theorem exact_fspInner : Exact FspInnerPacket.Wire encodeFspInner decodeFspInner := by
  refine .of_bytes (fun p h => encodeFspInner_eq h) (fun p h => decodeFspInner_encode (encodeFspInner_eq h)) fun b p h => ?_
  obtain ⟨htimestamp, htype, hflags, hb⟩ := decodeFspInner_bytes h
  exact ⟨⟨htimestamp, htype, hflags⟩, hb⟩

theorem exact_dataPacket : Exact DataPacket.Wire encodeDataPacket decodeDataPacket :=
  .of_bytes (fun _ h => h.encode) (fun _ h => h.decode) fun _ _ h => decodeDataPacket_bytes h

/-- Every record codec is exact; an empty list of FSP coordinates reads back as none, and the associated data that a
receiver encodes from the fields it has decoded is the header it has received. -/
theorem record_codecs_exact :
    Canonical FmpMsg1.Wire encodeFmpMsg1 decodeFmpMsg1 ∧ Canonical FmpMsg2.Wire encodeFmpMsg2 decodeFmpMsg2 ∧
      Canonical FmpEstablished.Wire encodeFmpEstablished decodeFmpEstablished ∧
      Canonical FmpInnerPacket.Wire encodeFmpInner decodeFmpInner ∧
      (∀ p : FspEstablished, p.Wire →
        ∃ b, encodeFspEstablished p = .ok b ∧ decodeFspEstablished b = .ok p.normal) ∧
      (∀ b p, decodeFspEstablished b = .ok p → p.Wire ∧ encodeFspEstablished p = .ok b) ∧
      Canonical FspInnerPacket.Wire encodeFspInner decodeFspInner ∧
      Canonical DataPacket.Wire encodeDataPacket decodeDataPacket ∧
      (∀ b p, decodeFmpEstablished b = .ok p →
        encodeFmpEstablishedHeader p.flags p.receiverIdx p.counter p.payloadLen =
          .ok (b.take FMP_ESTABLISHED_HEADER_LEN)) ∧
      ∀ b p, decodeFspEstablished b = .ok p →
        encodeFspEstablishedHeader p.flags p.counter p.payloadLen = .ok (b.take FSP_ESTABLISHED_HEADER_LEN) := by
  refine ⟨exact_fmpMsg1.canonical, exact_fmpMsg2.canonical, exact_fmpEstablished.canonical, exact_fmpInner.canonical,
    fun p h => ⟨_, h.encode, h.decode⟩, fun b p h => ?_, exact_fspInner.canonical, exact_dataPacket.canonical,
    fun b p h => ?_, fun b p h => ?_⟩
  · obtain ⟨hw, -, rfl⟩ := decodeFspEstablished_bytes h
    exact ⟨hw, hw.encode⟩
  · obtain ⟨hflags, hidx, hcounter, hlen, -, hb⟩ := decodeFmpEstablished_eq_ok h
    rw [encodeFmpEstablishedHeader_eq hflags hidx hcounter hlen, hb, FMP_ESTABLISHED_HEADER_LEN,
      List.take_left' length_fmpHeaderBytes]
  · obtain ⟨hw, -, rfl⟩ := decodeFspEstablished_bytes h
    rw [encodeFspEstablishedHeader_eq hw.flags hw.counter hw.payloadLen, FspEstablished.bytes, List.append_assoc,
      FSP_ESTABLISHED_HEADER_LEN, List.take_left' length_fspHeaderBytes]

/-! ### Routing messages -/

/-- An announcement the encoder takes. -/
def TreeAnnounce.Valid (announce : TreeAnnounce) : Prop :=
  announce.Wire ∧ validateTreeAnnounceSemantics announce = .ok ()

theorem exact_lookupRequest : Exact LookupRequest.Wire encodeLookupRequestPayload decodeLookupRequest :=
  .of_bytes (fun _ h => h.encode) (fun _ h => h.decode) fun _ _ h => decodeLookupRequest_bytes h

theorem exact_lookupResponse : Exact LookupResponse.Wire encodeLookupResponsePayload decodeLookupResponse :=
  .of_bytes (fun _ h => h.encode) (fun _ h => h.decode) fun _ _ h => decodeLookupResponse_bytes h

theorem exact_treeAnnounce : Exact TreeAnnounce.Valid encodeTreeAnnounce decodeTreeAnnounce := by
  refine .of_bytes (fun a h => encodeTreeAnnounce_eq h.1 h.2) (fun a h => decodeTreeAnnounce_bytes h.1 h.2) fun b a h => ?_
  obtain ⟨hw, hv, hb⟩ := decodeTreeAnnounce_eq_bytes h
  exact ⟨⟨hw, hv⟩, hb⟩

theorem exact_sessionDatagram : Exact SessionDatagram.Wire encodeSessionDatagram decodeSessionDatagram :=
  .of_bytes (fun _ h => h.encode) (fun _ h => h.decode_typed) fun _ _ h => decodeSessionDatagram_bytes h

theorem routing_codecs_exact :
    Canonical LookupRequest.Wire encodeLookupRequestPayload decodeLookupRequest ∧
      Canonical LookupResponse.Wire encodeLookupResponsePayload decodeLookupResponse ∧
      Canonical TreeAnnounce.Valid encodeTreeAnnounce decodeTreeAnnounce ∧
      Canonical SessionDatagram.Wire encodeSessionDatagram decodeSessionDatagram :=
  ⟨exact_lookupRequest.canonical, exact_lookupResponse.canonical, exact_treeAnnounce.canonical,
    exact_sessionDatagram.canonical⟩

/-! ### Handshake messages and filters -/

theorem wholeSetup_setupFrame {msg : SessionSetup} (h : msg.Fits) (phase : Nat) : WholeSetup (setupFrame phase msg) :=
  (@wholeSetup_iff _ _ h phase [] (by rw [List.append_nil]; rfl)).2 rfl

theorem exactOn_sessionSetup : ExactOn SessionSetup.Fits WholeSetup encodeSessionSetup decodeSessionSetup := by
  refine .of_bytes (fun m h => h.encodeSetup) (fun m h => h.decodeSetup) (fun m h => wholeSetup_setupFrame h _)
    fun b m h => ?_
  obtain ⟨hfits, hwhole⟩ := decodeSessionSetup_bytes h
  exact ⟨hfits, hwhole.1⟩

theorem exactOn_sessionAck : ExactOn SessionSetup.Fits WholeSetup encodeSessionAck decodeSessionAck := by
  refine .of_bytes (fun m h => h.encodeAck) (fun m h => h.decodeAck) (fun m h => wholeSetup_setupFrame h _)
    fun b m h => ?_
  obtain ⟨hfits, hwhole⟩ := decodeSessionAck_bytes h
  exact ⟨hfits, hwhole.1⟩

theorem exactOn_sessionMsg3 : ExactOn SessionMsg3.Fits WholeMsg3 encodeSessionMsg3 decodeSessionMsg3 := by
  refine .of_bytes (fun m h => h.encode) (fun m h => h.decode) (fun m h => ?_) fun b m h => ?_
  · exact (decodeSessionMsg3_bytes h.decode).2.2 rfl
  · obtain ⟨hfits, hwhole⟩ := decodeSessionMsg3_bytes h
    exact ⟨hfits, hwhole.1⟩

theorem exactOn_fspHandshake :
    ExactOn FspHandshakeFrame.Wire FspHandshakeFrame.Whole encodeFspHandshake decodeFspHandshake := by
  refine .of_bytes (fun f h => h.encode) (fun f h => h.decode) (fun f h => ?_) fun b f h => ?_
  · exact (decodeFspHandshake_bytes h.decode).2.2 rfl
  · obtain ⟨hwire, hwhole⟩ := decodeFspHandshake_bytes h
    exact ⟨hwire, hwhole.1⟩

theorem exactOn_filterAnnounce :
    ExactOn FilterAnnounce.Wire FilterAnnounce.Whole encodeFilterAnnounce decodeFilterAnnounce := by
  refine .of_bytes (fun f h => h.encode) (fun f h => h.decode) (fun f h => ?_) fun b f h => ?_
  · exact (FilterAnnounce.of_decode h.decode).2.2 rfl
  · obtain ⟨hwire, hwhole⟩ := FilterAnnounce.of_decode h
    exact ⟨hwire, hwhole.1⟩

/-- The handshake messages and FilterAnnounce have one encoding, and a byte string is that of its message, just where
the lengths inside add up to the length of the whole. -/
theorem handshake_codecs_exact_iff (b : Bytes) :
    CanonicalAt SessionSetup.Fits WholeSetup encodeSessionSetup decodeSessionSetup b ∧
      CanonicalAt SessionSetup.Fits WholeSetup encodeSessionAck decodeSessionAck b ∧
      CanonicalAt SessionMsg3.Fits WholeMsg3 encodeSessionMsg3 decodeSessionMsg3 b ∧
      CanonicalAt FspHandshakeFrame.Wire FspHandshakeFrame.Whole encodeFspHandshake decodeFspHandshake b ∧
      CanonicalAt FilterAnnounce.Wire FilterAnnounce.Whole encodeFilterAnnounce decodeFilterAnnounce b :=
  ⟨exactOn_sessionSetup.canonical b, exactOn_sessionAck.canonical b, exactOn_sessionMsg3.canonical b,
    exactOn_fspHandshake.canonical b, exactOn_filterAnnounce.canonical b⟩

/-- One byte behind the Noise message, and behind the filter, goes unnoticed. -/
theorem trailing_bytes_accepted :
    (∃ m, decodeSessionSetup [1, 0, 8, 0, 0, 0, 0, 0, 0, 0, 0, 9] = .ok m ∧
        encodeSessionSetup m ≠ .ok [1, 0, 8, 0, 0, 0, 0, 0, 0, 0, 0, 9]) ∧
      (∃ m, decodeSessionAck [2, 0, 8, 0, 0, 0, 0, 0, 0, 0, 0, 9] = .ok m ∧
        encodeSessionAck m ≠ .ok [2, 0, 8, 0, 0, 0, 0, 0, 0, 0, 0, 9]) ∧
      (∃ m, decodeSessionMsg3 [3, 0, 4, 0, 0, 0, 0, 9] = .ok m ∧ encodeSessionMsg3 m ≠ .ok [3, 0, 4, 0, 0, 0, 0, 9]) ∧
      (∃ f, decodeFspHandshake ([1, 0, 33, 0] ++ List.replicate 34 9) = .ok f ∧
        encodeFspHandshake f ≠ .ok ([1, 0, 33, 0] ++ List.replicate 34 9)) ∧
      ∃ fa, decodeFilterAnnounce ([0x20, 0, 0, 0, 0, 0, 0, 0, 0, 5, 1] ++ List.replicate 1025 9) = .ok fa ∧
        encodeFilterAnnounce fa ≠ .ok ([0x20, 0, 0, 0, 0, 0, 0, 0, 0, 5, 1] ++ List.replicate 1025 9) := by
  refine ⟨⟨⟨[], [], 0, []⟩, by decide, by decide⟩, ⟨⟨[], [], 0, []⟩, by decide, by decide⟩,
    ⟨⟨0, []⟩, by decide, by decide⟩, ⟨⟨.msg1, List.replicate 33 9⟩, by decide, by decide⟩,
    ⟨⟨⟨List.replicate 1024 9, 5⟩, 0, 5, 1⟩, by decide +kernel, by decide +kernel⟩⟩

end Fips
