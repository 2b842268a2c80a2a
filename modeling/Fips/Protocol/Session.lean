import Fips.Fsp.Wire

/-!
# `protocol/session.ts`: the handshake frames of an FSP session

SessionSetup and SessionAck carry coordinates and a Noise message, SessionMsg3 the Noise message alone.
Every frame that encodes is decoded back to what was encoded.
-/

namespace Fips
open LittleEndian BinaryReader Exec

def SESSION_FLAG_DIRECT_FSP_TRANSPORT : Nat := 0x04

/-- `SessionSetup`; `SessionAck` has the same fields. -/
structure SessionSetup where
  srcCoords : List NodeAddr
  destCoords : List NodeAddr
  flags : Nat
  handshakePayload : Bytes
deriving DecidableEq

abbrev SessionAck := SessionSetup

structure SessionMsg3 where
  flags : Nat
  handshakePayload : Bytes
deriving DecidableEq

def encodeSessionHandshakeFrame (phase : Nat) (body : Bytes) : Except String Bytes := do
  let b0 ← BinaryWriter.u8 (phase % 16)
  let b1 ← BinaryWriter.u8 0
  let len ← BinaryWriter.u16le body.length
  return b0 ++ b1 ++ len ++ body

def decodeSessionHandshakeFrame (expectedPhase : Nat) (frame : Bytes) : Except String Bytes :=
  BinaryReader.run (do
    let p ← decodeCommonPrefix
    if p.version ≠ 0 then throw "bad FSP version"
    if p.phase ≠ expectedPhase then throw s!"expected FSP phase {expectedPhase}, got {p.phase}"
    if p.flags ≠ 0 then throw "FSP handshake flags must be zero"
    let body ← bytes p.payloadLen
    let rest ← takeRest
    if rest.length ≠ 0 then throw "trailing bytes after FSP handshake frame"
    return body) frame

def encodeCoords (coords : List NodeAddr) : Except String Bytes := do
  let count ← BinaryWriter.u16le coords.length
  return count ++ (← encodeAddrs "coord NodeAddr must be 16 bytes" coords)

/-- `count` reads of 16 bytes. -/
def readAddrs : Nat → Read (List NodeAddr)
  | 0 => return []
  | count + 1 => do
    let addr ← bytes 16
    return addr :: (← readAddrs count)

def decodeCoords : Read (List NodeAddr) := do readAddrs (← u16le)

/-- The length-prefixed Noise message. -/
def encodePayload (payload : Bytes) : Except String Bytes := do
  let len ← BinaryWriter.u16le payload.length
  return len ++ payload

def decodePayload : Read Bytes := do bytes (← u16le)

def encodeSetupBody (msg : SessionSetup) : Except String Bytes := do
  let flags ← BinaryWriter.u8 (msg.flags % 256)
  let src ← encodeCoords msg.srcCoords
  let dest ← encodeCoords msg.destCoords
  let payload ← encodePayload msg.handshakePayload
  return flags ++ (src ++ (dest ++ payload))

def decodeSetupBody : Read SessionSetup := do
  let flags ← u8
  let src ← decodeCoords
  let dest ← decodeCoords
  let payload ← decodePayload
  return ⟨src, dest, flags, payload⟩

def encodeSessionSetup (msg : SessionSetup) : Except String Bytes := do
  encodeSessionHandshakeFrame FSP_PHASE_MSG1 (← encodeSetupBody msg)

def decodeSessionSetup (frame : Bytes) : Except String SessionSetup := do
  let body ← decodeSessionHandshakeFrame FSP_PHASE_MSG1 frame
  BinaryReader.run decodeSetupBody body

def encodeSessionAck (msg : SessionAck) : Except String Bytes := do
  encodeSessionHandshakeFrame FSP_PHASE_MSG2 (← encodeSetupBody msg)

def decodeSessionAck (frame : Bytes) : Except String SessionAck := do
  let body ← decodeSessionHandshakeFrame FSP_PHASE_MSG2 frame
  BinaryReader.run decodeSetupBody body

def encodeSessionMsg3 (msg : SessionMsg3) : Except String Bytes := do
  let flags ← BinaryWriter.u8 (msg.flags % 256)
  let payload ← encodePayload msg.handshakePayload
  encodeSessionHandshakeFrame FSP_PHASE_MSG3 (flags ++ payload)

def decodeSessionMsg3 (frame : Bytes) : Except String SessionMsg3 := do
  let body ← decodeSessionHandshakeFrame FSP_PHASE_MSG3 frame
  BinaryReader.run (do
    let flags ← u8
    let payload ← decodePayload
    return ⟨flags, payload⟩) body

/-! ### Round trips -/

section
variable {phase off : Nat} {body b rest : Bytes} {coords : List NodeAddr} {msg : SessionSetup}

theorem encodeSessionHandshakeFrame_eq (hp : phase < 16) (hl : body.length < 65536) :
    encodeSessionHandshakeFrame phase body = .ok (prefixBytes phase 0 body.length ++ body) := by
  have h₀ : BinaryWriter.u8 (phase % 16) = .ok (leBytes 1 phase) := by
    rw [Nat.mod_eq_of_lt hp]
    exact BinaryWriter.uint_of_lt (by omega)
  have h₁ : BinaryWriter.u8 0 = .ok (leBytes 1 0) := BinaryWriter.uint_of_lt (by omega)
  have h₂ : BinaryWriter.u16le body.length = .ok (leBytes 2 body.length) := BinaryWriter.uint_of_lt hl
  simp [encodeSessionHandshakeFrame, h₀, h₁, h₂, prefixBytes]

theorem decodeSessionHandshakeFrame_append (hp : phase < 16) (hl : body.length < 65536) :
    decodeSessionHandshakeFrame phase (prefixBytes phase 0 body.length ++ body) = .ok body := by
  have h := @decodeCommonPrefix_append 0 phase 0 _ body hp (by omega) hl
  refine run_eq_ok.2 ⟨⟨4 + body.length, []⟩, ?_⟩
  rw [bind_of_ok h]
  simp only [ne_eq, not_true_eq_false, if_false]
  rw [bind_of_ok (bytes_all rfl), bind_of_ok takeRest_eq]
  rfl

theorem encodeCoords_eq (h : ∀ a ∈ coords, a.length = 16) (hl : coords.length < 65536) :
    encodeCoords coords = .ok (leBytes 2 coords.length ++ coords.flatten) := by
  have h₁ : BinaryWriter.u16le coords.length = .ok (leBytes 2 coords.length) := BinaryWriter.uint_of_lt hl
  simp [encodeCoords, h₁, encodeAddrs_eq h]

theorem readAddrs_append (h : ∀ a ∈ coords, a.length = 16) :
    readAddrs coords.length ⟨off, coords.flatten ++ rest⟩ = .ok (coords, ⟨off + 16 * coords.length, rest⟩) := by
  induction coords generalizing off with
  | nil => rfl
  | cons a coords ih =>
    have ha : a.length = 16 := h a (by simp)
    simp only [List.length_cons, readAddrs, List.flatten_cons, List.append_assoc]
    rw [bind_of_ok (bytes_append ha), bind_of_ok (ih fun b hb => h b (by simp [hb]))]
    show Except.ok _ = _
    rw [show off + 16 + 16 * coords.length = off + 16 * (coords.length + 1) by omega]

theorem decodeCoords_append (h : ∀ a ∈ coords, a.length = 16) (hl : coords.length < 65536) :
    decodeCoords ⟨off, leBytes 2 coords.length ++ coords.flatten ++ rest⟩ =
      .ok (coords, ⟨off + 2 + 16 * coords.length, rest⟩) := by
  simp only [decodeCoords, List.append_assoc]
  rw [bind_of_ok (u16le_append hl), readAddrs_append h]

theorem decodePayload_append {payload : Bytes} (hl : payload.length < 65536) :
    decodePayload ⟨off, leBytes 2 payload.length ++ payload ++ rest⟩ =
      .ok (payload, ⟨off + 2 + payload.length, rest⟩) := by
  simp only [decodePayload, List.append_assoc]
  rw [bind_of_ok (u16le_append hl), bytes_append rfl]

theorem readAddrs_eq_ok {n : Nat} {r r' : BinaryReader} (h : readAddrs n r = .ok (coords, r')) :
    coords.length = n ∧ (∀ a ∈ coords, a.length = 16) ∧ r.rest = coords.flatten ++ r'.rest := by
  induction n generalizing r coords with
  | zero =>
    cases h
    exact ⟨rfl, nofun, rfl⟩
  | succ n ih =>
    obtain ⟨addr, r₁, haddr, h⟩ := bind_eq_ok.1 h
    obtain ⟨rest, r₂, hrest, h⟩ := bind_eq_ok.1 h
    cases h
    obtain ⟨haddr, hr, -⟩ := bytes_eq_ok haddr
    obtain ⟨hlen, hall, hr₁⟩ := ih hrest
    refine ⟨by rw [List.length_cons, hlen], fun a ha => ?_, ?_⟩
    · rcases List.mem_cons.1 ha with rfl | ha
      · exact haddr
      · exact hall a ha
    · rw [hr, hr₁, List.flatten_cons, List.append_assoc]

theorem decodeCoords_eq_ok {r r' : BinaryReader} (h : decodeCoords r = .ok (coords, r')) :
    coords.length < 65536 ∧ (∀ a ∈ coords, a.length = 16) ∧ r.rest = leBytes 2 coords.length ++ coords.flatten ++ r'.rest := by
  obtain ⟨count, r₁, hcount, h⟩ := bind_eq_ok.1 h
  obtain ⟨hlt, hr, -⟩ := uint_eq_ok hcount
  obtain ⟨rfl, hall, hr₁⟩ := readAddrs_eq_ok h
  exact ⟨hlt, hall, by rw [hr, hr₁, List.append_assoc]⟩

theorem decodePayload_eq_ok {payload : Bytes} {r r' : BinaryReader} (h : decodePayload r = .ok (payload, r')) :
    payload.length < 65536 ∧ r.rest = leBytes 2 payload.length ++ payload ++ r'.rest := by
  obtain ⟨len, r₁, hlen, h⟩ := bind_eq_ok.1 h
  obtain ⟨hlt, hr, -⟩ := uint_eq_ok hlen
  obtain ⟨rfl, hr₁, -⟩ := bytes_eq_ok h
  exact ⟨hlt, by rw [hr, hr₁, List.append_assoc]⟩

theorem decodeSessionHandshakeFrame_eq_ok {frame : Bytes} (h : decodeSessionHandshakeFrame phase frame = .ok body) :
    body.length < 65536 ∧ frame = prefixBytes phase 0 body.length ++ body := by
  obtain ⟨r', h⟩ := run_eq_ok.1 h
  obtain ⟨p, r₁, h₁, h⟩ := bind_eq_ok.1 h
  dsimp only at h
  split at h
  · cases h
  rename_i hversion
  split at h
  · cases h
  rename_i hphase
  split at h
  · cases h
  rename_i hflags
  obtain ⟨body', r₂, h₂, h⟩ := bind_eq_ok.1 h
  obtain ⟨rest, r₃, h₃, h⟩ := bind_eq_ok.1 h
  split at h
  · cases h
  rename_i htrailing
  cases h
  cases h₃
  obtain ⟨-, -, hlt, -, hr₁⟩ := decodeCommonPrefix_eq_ok h₁
  obtain ⟨hlen, hr₂, -⟩ := bytes_eq_ok h₂
  have hend := List.length_eq_zero_iff.1 (not_not.1 htrailing)
  refine ⟨by omega, ?_⟩
  rw [show frame = _ from hr₁ (not_not.1 hversion), not_not.1 hphase, not_not.1 hflags, hr₂, hend, List.append_nil, hlen]

/-- Coordinates that are NodeAddrs, and a body that fits the frame's length field. -/
structure SessionSetup.Fits (msg : SessionSetup) : Prop where
  flags : msg.flags < 256
  src : ∀ a ∈ msg.srcCoords, a.length = 16
  dest : ∀ a ∈ msg.destCoords, a.length = 16
  size : 7 + 16 * (msg.srcCoords.length + msg.destCoords.length) + msg.handshakePayload.length < 65536

/-- The body of a fitting message. -/
def setupBody (msg : SessionSetup) : Bytes :=
  leBytes 1 msg.flags ++ (leBytes 2 msg.srcCoords.length ++ msg.srcCoords.flatten
    ++ (leBytes 2 msg.destCoords.length ++ msg.destCoords.flatten
    ++ (leBytes 2 msg.handshakePayload.length ++ msg.handshakePayload)))

theorem SessionSetup.Fits.length_body (h : msg.Fits) : (setupBody msg).length < 65536 := by
  have := h.size
  simp [setupBody, length_flatten_addrs h.src, length_flatten_addrs h.dest]
  omega

theorem SessionSetup.Fits.encode (h : msg.Fits) : encodeSetupBody msg = .ok (setupBody msg) := by
  have hsize := h.size
  have h₀ : BinaryWriter.u8 (msg.flags % 256) = .ok (leBytes 1 msg.flags) := by
    rw [Nat.mod_eq_of_lt h.flags]
    exact BinaryWriter.uint_of_lt h.flags
  have h₁ : BinaryWriter.u16le msg.handshakePayload.length = .ok (leBytes 2 msg.handshakePayload.length) :=
    BinaryWriter.uint_of_lt (by omega)
  simp [encodeSetupBody, h₀, encodeCoords_eq h.src (by omega), encodeCoords_eq h.dest (by omega), encodePayload, h₁,
    setupBody]

theorem SessionSetup.Fits.decode (h : msg.Fits) : BinaryReader.run decodeSetupBody (setupBody msg) = .ok msg := by
  have hsize := h.size
  refine run_eq_ok.2 ⟨⟨0 + 1 + 2 + 16 * msg.srcCoords.length + 2 + 16 * msg.destCoords.length + 2
    + msg.handshakePayload.length, []⟩, ?_⟩
  simp only [decodeSetupBody, setupBody]
  rw [bind_of_ok (u8_append h.flags), bind_of_ok (decodeCoords_append h.src (by omega)),
    bind_of_ok (decodeCoords_append h.dest (by omega))]
  have hp := (@decodePayload_append (0 + 1 + 2 + 16 * msg.srcCoords.length + 2 + 16 * msg.destCoords.length) [])
      (show msg.handshakePayload.length < 65536 by omega)
  rw [List.append_nil] at hp
  rw [bind_of_ok hp]
  rfl

/-- A frame around the body of a fitting message. -/
def setupFrame (phase : Nat) (msg : SessionSetup) : Bytes := prefixBytes phase 0 (setupBody msg).length ++ setupBody msg

theorem SessionSetup.Fits.encodeSetup (h : msg.Fits) : encodeSessionSetup msg = .ok (setupFrame FSP_PHASE_MSG1 msg) := by
  rw [encodeSessionSetup, h.encode, ok_bind]
  exact encodeSessionHandshakeFrame_eq (by decide) h.length_body

theorem SessionSetup.Fits.decodeSetup (h : msg.Fits) : decodeSessionSetup (setupFrame FSP_PHASE_MSG1 msg) = .ok msg := by
  rw [decodeSessionSetup, setupFrame, decodeSessionHandshakeFrame_append (by decide) h.length_body, ok_bind, h.decode]

theorem SessionSetup.Fits.encodeAck (h : msg.Fits) : encodeSessionAck msg = .ok (setupFrame FSP_PHASE_MSG2 msg) := by
  rw [encodeSessionAck, h.encode, ok_bind]
  exact encodeSessionHandshakeFrame_eq (by decide) h.length_body

theorem SessionSetup.Fits.decodeAck (h : msg.Fits) : decodeSessionAck (setupFrame FSP_PHASE_MSG2 msg) = .ok msg := by
  rw [decodeSessionAck, setupFrame, decodeSessionHandshakeFrame_append (by decide) h.length_body, ok_bind, h.decode]

theorem encodeSessionSetup_eq (h : msg.Fits) :
    ∃ frame, encodeSessionSetup msg = .ok frame ∧ decodeSessionSetup frame = .ok msg ∧ frame.head? = some 1 :=
  ⟨_, h.encodeSetup, h.decodeSetup, rfl⟩

theorem encodeSessionAck_eq (h : msg.Fits) :
    ∃ frame, encodeSessionAck msg = .ok frame ∧ decodeSessionAck frame = .ok msg ∧ frame.head? = some 2 :=
  ⟨_, h.encodeAck, h.decodeAck, rfl⟩

/-- A Msg3 whose body fits the frame's length field. -/
structure SessionMsg3.Fits (m : SessionMsg3) : Prop where
  flags : m.flags < 256
  size : 3 + m.handshakePayload.length < 65536

def msg3Body (m : SessionMsg3) : Bytes :=
  leBytes 1 m.flags ++ (leBytes 2 m.handshakePayload.length ++ m.handshakePayload)

def msg3Frame (m : SessionMsg3) : Bytes := prefixBytes FSP_PHASE_MSG3 0 (msg3Body m).length ++ msg3Body m

section
variable {m : SessionMsg3}

theorem length_msg3Body : (msg3Body m).length = 3 + m.handshakePayload.length := by
  simp only [msg3Body, List.length_append, length_leBytes]
  omega

theorem SessionMsg3.Fits.encode (h : m.Fits) : encodeSessionMsg3 m = .ok (msg3Frame m) := by
  have hsize := h.size
  have hpayload : encodePayload m.handshakePayload = .ok (leBytes 2 m.handshakePayload.length ++ m.handshakePayload) := by
    rw [encodePayload, BinaryWriter.u16le_of_lt (by omega)]
    rfl
  rw [encodeSessionMsg3, Nat.mod_eq_of_lt h.flags, BinaryWriter.u8_of_lt h.flags, ok_bind, hpayload, ok_bind]
  exact encodeSessionHandshakeFrame_eq (by decide) (by rw [← msg3Body, length_msg3Body]; exact hsize)

theorem SessionMsg3.Fits.decode (h : m.Fits) : decodeSessionMsg3 (msg3Frame m) = .ok m := by
  have hsize := h.size
  rw [decodeSessionMsg3, msg3Frame, decodeSessionHandshakeFrame_append (by decide) (by rw [length_msg3Body]; exact hsize),
    ok_bind]
  refine run_eq_ok.2 ⟨⟨0 + 1 + 2 + m.handshakePayload.length, []⟩, ?_⟩
  have hp := @decodePayload_append (0 + 1) [] m.handshakePayload (by omega)
  rw [List.append_nil] at hp
  rw [msg3Body, bind_of_ok (u8_append h.flags), bind_of_ok hp]
  rfl

theorem encodeSessionMsg3_eq (hf : m.flags < 256) (hl : m.handshakePayload.length < 60000) :
    ∃ frame, encodeSessionMsg3 m = .ok frame ∧ decodeSessionMsg3 frame = .ok m ∧ frame.head? = some 3 :=
  have hfits : m.Fits := ⟨hf, by omega⟩
  ⟨_, hfits.encode, hfits.decode, rfl⟩

end

/-! ### What is decoded, up to trailing bytes

The frame is read to its end, the body inside it is not: what follows the Noise message is dropped. -/

/-- The length that the counts inside a SessionSetup or SessionAck body add up to. -/
def setupLength (body : Bytes) : Nat :=
  let src := leNat ((body.drop 1).take 2)
  let dest := leNat ((body.drop (3 + 16 * src)).take 2)
  let payload := leNat ((body.drop (5 + 16 * (src + dest))).take 2)
  7 + 16 * (src + dest) + payload

/-- The body of the frame ends where its counts say. -/
def WholeSetup (frame : Bytes) : Prop := frame.length = 4 + setupLength (frame.drop 4)

def WholeMsg3 (frame : Bytes) : Prop := frame.length = 7 + leNat ((frame.drop 5).take 2)

instance (frame : Bytes) : Decidable (WholeSetup frame) := inferInstanceAs (Decidable (_ = _))
instance (frame : Bytes) : Decidable (WholeMsg3 frame) := inferInstanceAs (Decidable (_ = _))

/-- The number at offset `k`. -/
theorem leNat_take_drop {before : Bytes} {k v : Nat} (hk : before.length = k) (hv : v < 65536) :
    leNat (((before ++ (leBytes 2 v ++ rest)).drop k).take 2) = v := by
  rw [List.drop_left' hk, List.take_left' (length_leBytes 2 v)]
  exact @leNat_leBytes 2 v hv

theorem setupLength_append (h : msg.Fits) : setupLength (setupBody msg ++ rest) = (setupBody msg).length := by
  have hsize := h.size
  have hsrc : leNat (((setupBody msg ++ rest).drop 1).take 2) = msg.srcCoords.length := by
    simp only [setupBody, List.append_assoc]
    exact leNat_take_drop (length_leBytes 1 _) (by omega)
  have hdest : leNat (((setupBody msg ++ rest).drop (3 + 16 * msg.srcCoords.length)).take 2) = msg.destCoords.length := by
    simp only [setupBody, List.append_assoc]
    rw [← List.append_assoc, ← List.append_assoc]
    refine leNat_take_drop ?_ (by omega)
    simp only [List.length_append, length_leBytes, length_flatten_addrs h.src]
  have hpayload : leNat (((setupBody msg ++ rest).drop (5 + 16 * (msg.srcCoords.length + msg.destCoords.length))).take 2) =
      msg.handshakePayload.length := by
    simp only [setupBody, List.append_assoc]
    rw [← List.append_assoc, ← List.append_assoc, ← List.append_assoc, ← List.append_assoc]
    refine leNat_take_drop ?_ (by omega)
    simp only [List.length_append, length_leBytes, length_flatten_addrs h.src, length_flatten_addrs h.dest]
    omega
  have hlen : (setupBody msg).length =
      7 + 16 * (msg.srcCoords.length + msg.destCoords.length) + msg.handshakePayload.length := by
    simp only [setupBody, List.length_append, length_leBytes, length_flatten_addrs h.src, length_flatten_addrs h.dest]
    omega
  unfold setupLength
  dsimp only
  rw [hsrc, hdest, hpayload, hlen]

theorem decodeSetupBody_eq_ok (hlt : body.length < 65536) (h : BinaryReader.run decodeSetupBody body = .ok msg) :
    msg.Fits ∧ ∃ trailing, body = setupBody msg ++ trailing := by
  obtain ⟨r', h⟩ := run_eq_ok.1 h
  obtain ⟨flags, r₁, h₁, h⟩ := bind_eq_ok.1 h
  obtain ⟨src, r₂, h₂, h⟩ := bind_eq_ok.1 h
  obtain ⟨dest, r₃, h₃, h⟩ := bind_eq_ok.1 h
  obtain ⟨payload, r₄, h₄, h⟩ := bind_eq_ok.1 h
  cases h
  obtain ⟨hflags, hr₁, -⟩ := uint_eq_ok h₁
  obtain ⟨-, hsrc, hr₂⟩ := decodeCoords_eq_ok h₂
  obtain ⟨-, hdest, hr₃⟩ := decodeCoords_eq_ok h₃
  obtain ⟨-, hr₄⟩ := decodePayload_eq_ok h₄
  have hbody : body = setupBody ⟨src, dest, flags, payload⟩ ++ r'.rest := by
    rw [show body = _ from hr₁, hr₂, hr₃, hr₄, setupBody]
    simp only [List.append_assoc]
  refine ⟨⟨hflags, hsrc, hdest, ?_⟩, r'.rest, hbody⟩
  rw [hbody] at hlt
  simp only [setupBody, List.length_append, length_leBytes, length_flatten_addrs hsrc, length_flatten_addrs hdest] at hlt
  show 7 + 16 * (src.length + dest.length) + payload.length < 65536
  omega

/-- A frame with the body of a message and something behind it; whole when that is nothing. -/
theorem wholeSetup_iff {frame : Bytes} (h : msg.Fits) {phase : Nat} {trailing : Bytes}
    (hframe : frame = prefixBytes phase 0 (setupBody msg ++ trailing).length ++ (setupBody msg ++ trailing)) :
    WholeSetup frame ↔ frame = setupFrame phase msg := by
  have hdrop : frame.drop 4 = setupBody msg ++ trailing := by
    rw [hframe, List.drop_left' (length_prefixBytes ..)]
  have hlen : frame.length = 4 + (setupBody msg).length + trailing.length := by
    rw [hframe, List.length_append, length_prefixBytes, List.length_append, Nat.add_assoc]
  rw [WholeSetup, hdrop, setupLength_append h, hlen]
  constructor
  · intro hwhole
    have hnil : trailing = [] := List.length_eq_zero_iff.1 (by omega)
    rw [hframe, hnil, List.append_nil, setupFrame]
  · intro hwhole
    have := congrArg List.length hwhole
    rw [hlen, setupFrame, List.length_append, length_prefixBytes] at this
    exact this

theorem decodeSessionSetup_bytes {frame : Bytes} (h : decodeSessionSetup frame = .ok msg) :
    msg.Fits ∧ (WholeSetup frame ↔ frame = setupFrame FSP_PHASE_MSG1 msg) := by
  obtain ⟨body, hbody, h⟩ := except_bind_eq_ok.1 h
  obtain ⟨hlt, hframe⟩ := decodeSessionHandshakeFrame_eq_ok hbody
  obtain ⟨hfits, trailing, rfl⟩ := decodeSetupBody_eq_ok hlt h
  exact ⟨hfits, wholeSetup_iff hfits hframe⟩

theorem decodeSessionAck_bytes {frame : Bytes} (h : decodeSessionAck frame = .ok msg) :
    msg.Fits ∧ (WholeSetup frame ↔ frame = setupFrame FSP_PHASE_MSG2 msg) := by
  obtain ⟨body, hbody, h⟩ := except_bind_eq_ok.1 h
  obtain ⟨hlt, hframe⟩ := decodeSessionHandshakeFrame_eq_ok hbody
  obtain ⟨hfits, trailing, rfl⟩ := decodeSetupBody_eq_ok hlt h
  exact ⟨hfits, wholeSetup_iff hfits hframe⟩

theorem decodeSessionMsg3_bytes {frame : Bytes} {m : SessionMsg3} (h : decodeSessionMsg3 frame = .ok m) :
    m.Fits ∧ (WholeMsg3 frame ↔ frame = msg3Frame m) := by
  obtain ⟨body, hbody, h⟩ := except_bind_eq_ok.1 h
  obtain ⟨hlt, hframe⟩ := decodeSessionHandshakeFrame_eq_ok hbody
  obtain ⟨r', h⟩ := run_eq_ok.1 h
  obtain ⟨flags, r₁, h₁, h⟩ := bind_eq_ok.1 h
  obtain ⟨payload, r₂, h₂, h⟩ := bind_eq_ok.1 h
  cases h
  obtain ⟨hflags, hr₁, -⟩ := uint_eq_ok h₁
  obtain ⟨hpayload, hr₂⟩ := decodePayload_eq_ok h₂
  have hbody : body = msg3Body ⟨flags, payload⟩ ++ r'.rest := by
    rw [show body = _ from hr₁, hr₂, msg3Body]
    simp only [List.append_assoc]
  have hlen := congrArg List.length hbody
  rw [List.length_append, length_msg3Body] at hlen
  refine ⟨⟨hflags, by show 3 + payload.length < 65536; dsimp only at hlen; omega⟩, ?_⟩
  have hcount : leNat ((frame.drop 5).take 2) = payload.length := by
    rw [hframe, hbody, msg3Body, List.append_assoc, List.append_assoc, ← List.append_assoc]
    refine leNat_take_drop ?_ hpayload
    simp only [List.length_append, length_prefixBytes, length_leBytes]
  have htotal : frame.length = 4 + body.length := by rw [hframe, List.length_append, length_prefixBytes]
  rw [WholeMsg3, hcount, htotal, hlen]
  constructor
  · intro hwhole
    have hnil : r'.rest = [] := List.length_eq_zero_iff.1 (by dsimp only at hwhole; omega)
    rw [hframe, hbody, hnil, List.append_nil, msg3Frame]
  · intro hwhole
    have := congrArg List.length hwhole
    rw [htotal, hlen, msg3Frame, List.length_append, length_prefixBytes, length_msg3Body] at this
    dsimp only at this ⊢
    omega

/-! ### What encodes, fits -/

theorem encodeAddrs_eq_ok {error : String} (h : encodeAddrs error coords = .ok b) :
    (∀ a ∈ coords, a.length = 16) ∧ b.length = 16 * coords.length := by
  induction coords generalizing b with
  | nil =>
    cases h
    exact ⟨nofun, rfl⟩
  | cons a coords ih =>
    unfold encodeAddrs at h
    split at h
    · cases h
    · rename_i ha
      obtain ⟨c, hc, h⟩ := except_bind_eq_ok.1 h
      cases h
      obtain ⟨hall, hlen⟩ := ih hc
      refine ⟨fun x hx => ?_, ?_⟩
      · rcases List.mem_cons.1 hx with rfl | hx
        · exact not_not.1 ha
        · exact hall x hx
      · rw [List.length_append, hlen, not_not.1 ha, List.length_cons]
        omega

theorem encodeCoords_eq_ok (h : encodeCoords coords = .ok b) :
    (∀ a ∈ coords, a.length = 16) ∧ b.length = 2 + 16 * coords.length := by
  obtain ⟨count, hcount, h⟩ := except_bind_eq_ok.1 h
  obtain ⟨addrs, haddrs, h⟩ := except_bind_eq_ok.1 h
  cases h
  obtain ⟨-, rfl⟩ := BinaryWriter.uint_eq_ok hcount
  obtain ⟨hall, hlen⟩ := encodeAddrs_eq_ok haddrs
  exact ⟨hall, by rw [List.length_append, hlen, length_leBytes]⟩

theorem encodeSessionHandshakeFrame_eq_ok (h : encodeSessionHandshakeFrame phase body = .ok b) : body.length < 65536 := by
  obtain ⟨b₀, -, h⟩ := except_bind_eq_ok.1 h
  obtain ⟨b₁, -, h⟩ := except_bind_eq_ok.1 h
  obtain ⟨len, hlen, -⟩ := except_bind_eq_ok.1 h
  exact (BinaryWriter.uint_eq_ok hlen).1

theorem encodeSessionAck_fits (hf : msg.flags < 256) (h : encodeSessionAck msg = .ok b) : msg.Fits := by
  obtain ⟨body, hbody, hframe⟩ := except_bind_eq_ok.1 h
  have hlt := encodeSessionHandshakeFrame_eq_ok hframe
  obtain ⟨flags, hflags, hbody⟩ := except_bind_eq_ok.1 hbody
  obtain ⟨src, hsrc, hbody⟩ := except_bind_eq_ok.1 hbody
  obtain ⟨dest, hdest, hbody⟩ := except_bind_eq_ok.1 hbody
  obtain ⟨payload, hpayload, hbody⟩ := except_bind_eq_ok.1 hbody
  obtain ⟨len, hlen, hpayload⟩ := except_bind_eq_ok.1 hpayload
  cases hpayload
  cases hbody
  obtain ⟨-, rfl⟩ := BinaryWriter.uint_eq_ok hflags
  obtain ⟨-, rfl⟩ := BinaryWriter.uint_eq_ok hlen
  obtain ⟨hs, hls⟩ := encodeCoords_eq_ok hsrc
  obtain ⟨hd, hld⟩ := encodeCoords_eq_ok hdest
  refine ⟨hf, hs, hd, ?_⟩
  simp only [List.length_append, length_leBytes] at hlt
  omega

end

end Fips
