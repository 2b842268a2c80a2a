import Fips.Fmp.Handshake
import Fips.Fsp.Session

/-!
# The XK handshake between two sessions

What each handshake method of `FspSession` does when the Noise message in its frame is read, and from
that the whole exchange: `buildSessionSetup`, `handleSessionSetup`, `handleSessionAck` and
`handleSessionMsg3` complete, and the keys of the two sessions are the split of the Noise states.
-/

namespace Fips
open Exec

namespace FspSession
variable {S : Suite} {f : FspSession} {hs hs' hs'' : NoiseHandshake} {α : Type} {a : α} {nowMs : ℚ}
  {random packet payload noiseMsg reply : Bytes} {tx rx : CipherState}

theorem run_onHs {x : EStateM String NoiseHandshake α} (hf : f.hs = some hs) (hx : x.run hs = .ok a hs') :
    (onHs x).run f = .ok a { f with hs := some hs' } := run_zoomSome_ok hf hx

theorem run_finalize (hf : f.hs = some hs) (hsplit : hs.splitTxRx S = .ok (tx, rx)) :
    (finalize S nowMs).run f = .ok () { f with
      tx := some tx, rx := some rx, sessionStartMs := nowMs, state := .established, hs := none } := by
  simp [finalize, hf, hsplit]

/-- The coordinates a SessionSetup goes out with. -/
def setupCoords (f : FspSession) (remoteNodeAddr : NodeAddr) (src dest : List NodeAddr) :
    List NodeAddr × List NodeAddr :=
  if f.strictClient then ([f.identity.nodeAddr], [remoteNodeAddr]) else (src, dest)

theorem run_buildSessionSetup {remotePubkey : Bytes} {remoteNodeAddr : NodeAddr} {src dest : List NodeAddr}
    (hrole : f.role = .initiator) (hrem : f.remotePubkey = some remotePubkey)
    (haddr : deriveNodeAddr S remotePubkey = .ok remoteNodeAddr) (hf : f.hs = some hs)
    (hw : (NoiseHandshake.writeMessage S random []).run hs = .ok noiseMsg hs') (hlen : noiseMsg.length = 33)
    (henc : encodeSessionSetup ⟨(f.setupCoords remoteNodeAddr src dest).1, (f.setupCoords remoteNodeAddr src dest).2,
      4, noiseMsg⟩ = .ok packet) :
    (buildSessionSetup S random src dest).run f = .ok packet { f with state := .handshaking, hs := some hs' } := by
  have hx := run_onHs (f := { f with state := .handshaking }) hf hw
  cases f
  dsimp only at *
  subst hrole hrem hf
  rename_i strictClient _ _ _ _ _ _ _ _ _ _ _ _
  cases strictClient
  · simp only [setupCoords, Bool.false_eq_true, if_false] at henc
    simp [buildSessionSetup, requireHs, hx, hlen, NOISE_XK_MSG1_LEN, SESSION_FLAG_DIRECT_FSP_TRANSPORT, henc]
  · simp only [setupCoords, if_true] at henc
    simp [buildSessionSetup, requireHs, hx, hlen, NOISE_XK_MSG1_LEN, haddr, Except.map,
      SESSION_FLAG_DIRECT_FSP_TRANSPORT, henc]

/-- The coordinates a SessionAck goes out with. -/
def ackCoords (f : FspSession) (remoteNodeAddr : Option NodeAddr) (localCoords srcCoords : List NodeAddr) :
    List NodeAddr × List NodeAddr :=
  if f.strictClient then ([f.identity.nodeAddr], (remoteNodeAddr.map ([·])).getD (srcCoords.take 1))
  else (localCoords, srcCoords)

theorem run_acceptSessionSetup {setup : SessionSetup} {localCoords : List NodeAddr}
    {remoteNodeAddr : Option NodeAddr} (hf : f.hs = some hs) (hdec : decodeSessionSetup packet = .ok setup)
    (hlen : setup.handshakePayload.length = 33)
    (hr : (NoiseHandshake.readMessage S setup.handshakePayload).run hs = .ok [] hs')
    (hw : (NoiseHandshake.writeMessage S random f.localEpoch).run hs' = .ok noiseMsg hs'')
    (hlen₂ : noiseMsg.length = 57)
    (henc : encodeSessionAck ⟨(f.ackCoords remoteNodeAddr localCoords setup.srcCoords).1,
      (f.ackCoords remoteNodeAddr localCoords setup.srcCoords).2, 4, noiseMsg⟩ = .ok reply) :
    (acceptSessionSetup S packet random localCoords remoteNodeAddr).run f = .ok reply { f with
      hs := some hs'', remoteDirectFspTransport := hasFlag setup.flags SESSION_FLAG_DIRECT_FSP_TRANSPORT,
      state := .handshaking, receivedSessionSetup := some packet, sentSessionAck := some reply } := by
  have h₁ := run_onHs hf hr
  have h₂ (g : FspSession) (hg : g.hs = some hs') := run_onHs hg hw
  cases f
  dsimp only at *
  subst hf
  rename_i strictClient _ _ _ _ _ _ _ _ _ _ _ _
  cases strictClient
  · simp only [ackCoords, Bool.false_eq_true, if_false] at henc
    simp [acceptSessionSetup, requireHs, hdec, hlen, NOISE_XK_MSG1_LEN, h₁, h₂, hlen₂, NOISE_XK_MSG2_LEN,
      SESSION_FLAG_DIRECT_FSP_TRANSPORT, henc]
  · simp only [ackCoords, if_true] at henc
    simp [acceptSessionSetup, requireHs, hdec, hlen, NOISE_XK_MSG1_LEN, h₁, h₂, hlen₂, NOISE_XK_MSG2_LEN,
      SESSION_FLAG_DIRECT_FSP_TRANSPORT, henc]

theorem run_acceptSessionAck {ack : SessionAck} (hf : f.hs = some hs) (hdec : decodeSessionAck packet = .ok ack)
    (hlen : ack.handshakePayload.length = 57)
    (hr : (NoiseHandshake.readMessage S ack.handshakePayload).run hs = .ok payload hs') (hpl : payload.length = 8)
    (hw : (NoiseHandshake.writeMessage S random f.localEpoch).run hs' = .ok noiseMsg hs'')
    (hlen₃ : noiseMsg.length = 73) (henc : encodeSessionMsg3 ⟨0, noiseMsg⟩ = .ok reply)
    (hsplit : hs''.splitTxRx S = .ok (tx, rx)) :
    (acceptSessionAck S packet random nowMs).run f = .ok reply { f with
      remoteDirectFspTransport := hasFlag ack.flags SESSION_FLAG_DIRECT_FSP_TRANSPORT, remoteEpoch := some payload,
      receivedSessionAck := some packet, sentSessionMsg3 := some reply,
      tx := some tx, rx := some rx, sessionStartMs := nowMs, state := .established, hs := none } := by
  have h₁ := run_onHs hf hr
  have h₂ (g : FspSession) (hg : g.hs = some hs') := run_onHs hg hw
  have h₃ (g : FspSession) (hg : g.hs = some hs'') := (@run_finalize _ _ _ nowMs) hg hsplit
  cases f
  dsimp only at *
  subst hf
  simp [acceptSessionAck, requireHs, hdec, hlen, NOISE_XK_MSG2_LEN, h₁, hpl, EPOCH_LEN, h₂, hlen₃, NOISE_XK_MSG3_LEN,
    henc, h₃]

theorem run_acceptSessionMsg3 {msg3 : SessionMsg3} {rs : Bytes} (hf : f.hs = some hs)
    (hdec : decodeSessionMsg3 packet = .ok msg3) (hlen : msg3.handshakePayload.length = 73)
    (hr : (NoiseHandshake.readMessage S msg3.handshakePayload).run hs = .ok payload hs') (hpl : payload.length = 8)
    (hrs : hs'.rs = some rs) (hsplit : hs'.splitTxRx S = .ok (tx, rx)) :
    (acceptSessionMsg3 S packet nowMs).run f = .ok () { f with
      remoteEpoch := some payload, remotePubkey := some rs, establishedMsg3 := some packet,
      tx := some tx, rx := some rx, sessionStartMs := nowMs, state := .established, hs := none } := by
  have h₁ := run_onHs hf hr
  have h₃ (g : FspSession) (hg : g.hs = some hs') := (@run_finalize _ _ _ nowMs) hg hsplit
  cases f
  dsimp only at *
  subst hf
  simp [acceptSessionMsg3, requireHs, hdec, hlen, NOISE_XK_MSG3_LEN, h₁, hpl, EPOCH_LEN,
    NoiseHandshake.getRemoteStatic, hrs, h₃]

theorem run_handleSessionSetup_fresh {localCoords : List NodeAddr} {remoteNodeAddr : Option NodeAddr}
    (hrole : f.role = .responder) (hnone : f.receivedSessionSetup = none) :
    (handleSessionSetup S packet random localCoords remoteNodeAddr).run f =
      (acceptSessionSetup S packet random localCoords remoteNodeAddr).run f := by
  simp only [handleSessionSetup, EStateM.run_bind, run_get, hrole, hnone, ne_eq, not_true_eq_false, if_false]

theorem run_handleSessionAck_fresh (hrole : f.role = .initiator) (hnone : f.receivedSessionAck = none) :
    (handleSessionAck S packet random nowMs).run f = (acceptSessionAck S packet random nowMs).run f := by
  simp only [handleSessionAck, EStateM.run_bind, run_get, hrole, hnone, ne_eq, not_true_eq_false, if_false]

theorem run_handleSessionMsg3_fresh (hrole : f.role = .responder) (hstate : f.state ≠ .established) :
    (handleSessionMsg3 S packet nowMs).run f = (acceptSessionMsg3 S packet nowMs).run f := by
  simp only [handleSessionMsg3, EStateM.run_bind, run_get, hrole, hstate, ne_eq, not_true_eq_false, if_false]

end FspSession

/-- What one end brings to a session handshake; `peerCoords` are the coordinates an initiator knows for
its peer. -/
structure FspEnd where
  party : Party
  oid : Nat
  strictClient : Bool
  coords : List NodeAddr
  peerCoords : List NodeAddr
  nowMs : ℚ

/-- A valid party whose coordinates are NodeAddrs. -/
structure FspEnd.Valid (S : Suite) (e : FspEnd) : Prop where
  party : e.party.Valid S
  coords : ∀ a ∈ e.coords, a.length = 16
  peerCoords : ∀ a ∈ e.peerCoords, a.length = 16

/-- The coordinates fit the 16-bit length of a SessionSetup and of the SessionAck that echoes them. -/
structure CoordsFit (I R : FspEnd) : Prop where
  setup : 40 + 16 * (I.coords.length + I.peerCoords.length) < 65536
  ack : 64 + 16 * (R.coords.length + I.coords.length + 1) < 65536

/-- The frames and the two sessions after them. -/
structure FspHandshake where
  setup : Bytes
  ack : Bytes
  msg3 : Bytes
  initiator : FspSession
  responder : FspSession

/-- The handshake through the sessions; `remoteNodeAddr` is what the responder takes the source of the
SessionSetup to be. -/
def FspSession.handshake (S : Suite) (I R : FspEnd) (remoteStatic : Bytes) (remoteNodeAddr : Option NodeAddr) :
    Except String FspHandshake := do
  let i ← FspSession.new S I.oid I.party.identity .initiator (some remoteStatic) I.party.ephemeralOverride
    I.party.epoch I.strictClient
  let r ← FspSession.new S R.oid R.party.identity .responder none R.party.ephemeralOverride R.party.epoch R.strictClient
  let (setup, i) ← call (buildSessionSetup S I.party.random I.coords I.peerCoords) i
  let (ack, r) ← call (handleSessionSetup S setup R.party.random R.coords remoteNodeAddr) r
  let (msg3, i) ← call (handleSessionAck S ack I.party.random I.nowMs) i
  let (_, r) ← call (handleSessionMsg3 S msg3 R.nowMs) r
  return ⟨setup, ack, msg3, i, r⟩

/-- The established ends of one session handshake. -/
structure FspEnds (I R : FspEnd) (i r : FspSession) : Prop where
  i_state : i.state = .established
  r_state : r.state = .established
  i_tx : i.tx = r.rx
  r_tx : r.tx = i.rx
  tx_key : ∃ k, i.tx = some ⟨some k, 0⟩ ∧ k.length = 32
  rx_key : ∃ k, i.rx = some ⟨some k, 0⟩ ∧ k.length = 32
  r_remote : r.remotePubkey = some I.party.identity.publicKey
  i_epoch : i.remoteEpoch = some R.party.epoch
  r_epoch : r.remoteEpoch = some I.party.epoch
  fresh : i.txCounter = 0 ∧ r.txCounter = 0 ∧ i.replay = .new ∧ r.replay = .new

/-- The sessions and frames an honest handshake goes through. -/
structure FspExchange (S : Suite) (I R : FspEnd) (remoteStatic : Bytes) (remoteNodeAddr : Option NodeAddr)
    (x : NoiseHandshake.XkExchange S I.party R.party remoteStatic) where
  (i₀ i₁ i₂ r₀ r₁ r₂ : FspSession)
  (setup ack msg3 : Bytes)
  new_i : FspSession.new S I.oid I.party.identity .initiator (some remoteStatic) I.party.ephemeralOverride
    I.party.epoch I.strictClient = .ok i₀
  new_r : FspSession.new S R.oid R.party.identity .responder none R.party.ephemeralOverride R.party.epoch
    R.strictClient = .ok r₀
  build : (FspSession.buildSessionSetup S I.party.random I.coords I.peerCoords).run i₀ = .ok setup i₁
  accept : (FspSession.handleSessionSetup S setup R.party.random R.coords remoteNodeAddr).run r₀ = .ok ack r₁
  complete : ∀ random, (FspSession.handleSessionAck S ack random I.nowMs).run i₁ = .ok msg3 i₂
  finish : (FspSession.handleSessionMsg3 S msg3 R.nowMs).run r₁ = .ok () r₂
  setup_msg : ∃ m, decodeSessionSetup setup = .ok m ∧ m.handshakePayload = x.msg1
  ack_msg : ∃ m, decodeSessionAck ack = .ok m ∧ m.handshakePayload = x.msg2
  msg3_msg : ∃ m, decodeSessionMsg3 msg3 = .ok m ∧ m.handshakePayload = x.msg3
  split_i : ∃ tx rx, x.i₃.splitTxRx S = .ok (tx, rx) ∧ i₂.tx = some tx ∧ i₂.rx = some rx
  split_r : ∃ tx rx, x.r₃.splitTxRx S = .ok (tx, rx) ∧ r₂.tx = some tx ∧ r₂.rx = some rx
  ends : FspEnds I R i₂ r₂

section
variable {S : Suite} {I R : FspEnd} {remoteStatic : Bytes} {remoteNodeAddr : Option NodeAddr}

theorem FspSession.setupCoords_fits {f : FspSession} {addr : NodeAddr} {src dest : List NodeAddr} {noiseMsg : Bytes}
    (hnode : f.identity.nodeAddr.length = 16) (haddr : addr.length = 16) (hsrc : ∀ a ∈ src, a.length = 16)
    (hdest : ∀ a ∈ dest, a.length = 16) (hsize : 40 + 16 * (src.length + dest.length) < 65536)
    (hlen : noiseMsg.length = 33) :
    (⟨(f.setupCoords addr src dest).1, (f.setupCoords addr src dest).2, 4, noiseMsg⟩ : SessionSetup).Fits ∧
      (f.setupCoords addr src dest).1.length ≤ src.length + 1 := by
  unfold FspSession.setupCoords
  split
  · exact ⟨⟨show 4 < 256 by decide, by simpa using hnode, by simpa using haddr, by simp; omega⟩, by simp⟩
  · exact ⟨⟨show 4 < 256 by decide, hsrc, hdest, by dsimp only; omega⟩, by dsimp only; omega⟩

theorem FspSession.ackCoords_fits {f : FspSession} {remoteNodeAddr : Option NodeAddr} {loc src : List NodeAddr}
    {noiseMsg : Bytes} (hnode : f.identity.nodeAddr.length = 16) (hrna : ∀ a ∈ remoteNodeAddr, a.length = 16)
    (hloc : ∀ a ∈ loc, a.length = 16) (hsrc : ∀ a ∈ src, a.length = 16)
    (hsize : 64 + 16 * (loc.length + src.length) < 65536) (hlen : noiseMsg.length = 57) :
    (⟨(f.ackCoords remoteNodeAddr loc src).1, (f.ackCoords remoteNodeAddr loc src).2, 4, noiseMsg⟩ :
      SessionSetup).Fits := by
  unfold FspSession.ackCoords
  split
  · cases remoteNodeAddr with
    | none =>
      refine ⟨show 4 < 256 by decide, by simpa using hnode, fun a ha => hsrc a (List.mem_of_mem_take ha), ?_⟩
      have htake : (src.take 1).length ≤ 1 := by simp
      simp only [List.length_singleton, Option.map_none, Option.getD_none]
      omega
    | some a => exact ⟨show 4 < 256 by decide, by simpa using hnode, by simpa using hrna a rfl, by simp; omega⟩
  · exact ⟨show 4 < 256 by decide, hloc, hsrc, by dsimp only; omega⟩

theorem FspSession.exchange (hS : S.Lawful) (hI : I.Valid S) (hR : R.Valid S)
    (hfit : CoordsFit I R) (hr : SameX remoteStatic R.party.identity.publicKey)
    (hrna : ∀ a ∈ remoteNodeAddr, a.length = 16) (x : NoiseHandshake.XkExchange S I.party R.party remoteStatic) :
    Nonempty (FspExchange S I R remoteStatic remoteNodeAddr x) := by
  obtain ⟨c₁, c₂, hs₁, hs₂, ⟨k₁, rfl, hk₁⟩, ⟨k₂, rfl, hk₂⟩⟩ :=
    NoiseHandshake.splitTxRx_mirror hS x.ss x.role_i x.role_r
  have haddr := deriveNodeAddr_compressed (S := S) hr.1
  obtain ⟨addr, haddr'⟩ : ∃ a, a = (S.sha256 remoteStatic.tail).take 16 := ⟨_, rfl⟩
  rw [← haddr'] at haddr
  have hlenA : addr.length = 16 := length_of_deriveNodeAddr hS haddr
  have hlenI := length_of_deriveNodeAddr hS hI.party.identity.nodeAddr
  have hlenR := length_of_deriveNodeAddr hS hR.party.identity.nodeAddr
  have hsR := hfit.ack
  obtain ⟨i, hi, hi'⟩ : ∃ i, FspSession.new S I.oid I.party.identity .initiator (some remoteStatic)
      I.party.ephemeralOverride I.party.epoch I.strictClient = .ok i ∧ i = _ :=
    ⟨_, by simp [FspSession.new, EPOCH_LEN, hI.party.epoch, x.new_i]; rfl, rfl⟩
  obtain ⟨r, hr', hr''⟩ : ∃ r, FspSession.new S R.oid R.party.identity .responder none R.party.ephemeralOverride
      R.party.epoch R.strictClient = .ok r ∧ r = _ :=
    ⟨_, by simp [FspSession.new, EPOCH_LEN, hR.party.epoch, x.new_r]; rfl, rfl⟩
  have hnodeI : i.identity.nodeAddr.length = 16 := by rw [hi']; exact hlenI
  have hnodeR : r.identity.nodeAddr.length = 16 := by rw [hr'']; exact hlenR
  obtain ⟨hfit₁, hsrc₁⟩ := FspSession.setupCoords_fits hnodeI hlenA hI.coords hI.peerCoords hfit.setup x.length₁
  obtain ⟨p₁, henc₁, hdec₁, -⟩ := encodeSessionSetup_eq hfit₁
  have hfit₂ := (@FspSession.ackCoords_fits r _ R.coords) hnodeR hrna hR.coords hfit₁.src
    (by dsimp only; omega) x.length₂
  obtain ⟨p₂, henc₂, hdec₂, -⟩ := encodeSessionAck_eq hfit₂
  obtain ⟨p₃, henc₃, hdec₃, -⟩ := encodeSessionMsg3_eq (m := ⟨0, x.msg3⟩) (show 0 < 256 by decide)
    (by simp [x.length₃])
  obtain ⟨i₁, hb, hi₁⟩ : ∃ i₁, (FspSession.buildSessionSetup S I.party.random I.coords I.peerCoords).run i =
      .ok p₁ i₁ ∧ i₁ = _ :=
    ⟨_, (@FspSession.run_buildSessionSetup _ _ x.i₀) (by rw [hi']) (by rw [hi']) haddr (by rw [hi']) x.write₁ x.length₁
      henc₁, rfl⟩
  obtain ⟨r₁, ha, hr₁⟩ : ∃ r₁, (FspSession.acceptSessionSetup S p₁ R.party.random R.coords remoteNodeAddr).run r =
      .ok p₂ r₁ ∧ r₁ = _ :=
    ⟨_, (@FspSession.run_acceptSessionSetup _ _ x.r₀) (by rw [hr'']) hdec₁ x.length₁ x.read₁
      (by rw [hr'']; exact x.write₂) x.length₂ henc₂, rfl⟩
  obtain ⟨i₂, hc, hi₂⟩ : ∃ i₂, (∀ random, (FspSession.acceptSessionAck S p₂ random I.nowMs).run i₁ = .ok p₃ i₂) ∧
      i₂ = _ :=
    ⟨_, fun random => (@FspSession.run_acceptSessionAck _ _ x.i₁) (by rw [hi₁]) hdec₂ x.length₂ x.read₂
      hR.party.epoch (by rw [hi₁, hi']; exact x.write₃ random) x.length₃ henc₃ hs₁, rfl⟩
  obtain ⟨r₂, hf, hr₂⟩ : ∃ r₂, (FspSession.acceptSessionMsg3 S p₃ R.nowMs).run r₁ = .ok () r₂ ∧ r₂ = _ :=
    ⟨_, (@FspSession.run_acceptSessionMsg3 _ _ x.r₂) (by rw [hr₁]) hdec₃ x.length₃ x.read₃ hI.party.epoch x.remote
      hs₂, rfl⟩
  rw [← FspSession.run_handleSessionSetup_fresh (by rw [hr'']) (by rw [hr''])] at ha
  rw [← FspSession.run_handleSessionMsg3_fresh (by rw [hr₁, hr'']) (by rw [hr₁]; simp)] at hf
  have hc' (random : Bytes) : (FspSession.handleSessionAck S p₂ random I.nowMs).run i₁ = .ok p₃ i₂ := by
    rw [FspSession.run_handleSessionAck_fresh (by rw [hi₁, hi']) (by rw [hi₁, hi'])]
    exact hc random
  subst hi₂ hr₂ hi₁ hr₁ hi' hr''
  exact ⟨⟨_, _, _, _, _, _, _, _, _, hi, hr', hb, ha, hc', hf, ⟨_, hdec₁, rfl⟩, ⟨_, hdec₂, rfl⟩, ⟨_, hdec₃, rfl⟩,
    ⟨_, _, hs₁, rfl, rfl⟩, ⟨_, _, hs₂, rfl, rfl⟩,
    ⟨rfl, rfl, rfl, rfl, ⟨k₁, rfl, hk₁⟩, ⟨k₂, rfl, hk₂⟩, rfl, rfl, rfl, ⟨rfl, rfl, rfl, rfl⟩⟩⟩⟩

theorem NoiseHandshake.XkExchange.messages (x : NoiseHandshake.XkExchange S I.party R.party remoteStatic) :
    NoiseHandshake.xkMessages S I.party R.party remoteStatic = .ok ⟨x.msg1, x.msg2, x.msg3, x.i₃, x.r₃⟩ := by
  simp [NoiseHandshake.xkMessages, x.new_i, x.new_r, call_of_ok x.write₁, call_of_ok x.read₁, call_of_ok x.write₂,
    call_of_ok x.read₂, call_of_ok (x.write₃ I.party.random), call_of_ok x.read₃]

theorem FspExchange.handshake {x : NoiseHandshake.XkExchange S I.party R.party remoteStatic}
    (e : FspExchange S I R remoteStatic remoteNodeAddr x) :
    FspSession.handshake S I R remoteStatic remoteNodeAddr = .ok ⟨e.setup, e.ack, e.msg3, e.i₂, e.r₂⟩ := by
  simp [FspSession.handshake, e.new_i, e.new_r, call_of_ok e.build, call_of_ok e.accept,
    call_of_ok (e.complete I.party.random), call_of_ok e.finish]

/-- Honest runs of both handshakes complete: IK through two links and XK through two sessions, whichever
parity the initiator holds of the responder's key. The ends agree on the handshake hash and, crosswise,
on the keys; the responder learns the initiator's key and each side the other's epoch; and the Noise
messages in the packets are 106 and 57, or 33, 57 and 73 bytes long. -/
theorem honest_handshakes_complete (hS : S.Lawful) (hI : I.Valid S) (hR : R.Valid S) (hfit : CoordsFit I R)
    (hr : SameX remoteStatic R.party.identity.publicKey) (hrna : ∀ a ∈ remoteNodeAddr, a.length = 16)
    {idxI idxR : Nat} (hiI : idxI < 2 ^ 32) (hiR : idxR < 2 ^ 32) :
    (∃ m h, NoiseHandshake.ikMessages S I.party R.party remoteStatic = .ok m ∧
      FmpLink.handshake S I.party R.party remoteStatic idxI idxR I.nowMs R.nowMs = .ok h ∧
      decodeFmpMsg1 h.msg1 = .ok ⟨idxI, m.msg1⟩ ∧ decodeFmpMsg2 h.msg2 = .ok ⟨idxR, idxI, m.msg2⟩ ∧
      m.msg1.length = 106 ∧ m.msg2.length = 57 ∧
      m.initiator.getHandshakeHash = m.responder.getHandshakeHash ∧
      m.responder.getRemoteStatic = some I.party.identity.publicKey ∧
      (do let (tx, rx) ← m.initiator.splitTxRx S; return (some tx, some rx)) =
        .ok (h.initiator.tx, h.initiator.rx) ∧
      (do let (tx, rx) ← m.responder.splitTxRx S; return (some tx, some rx)) =
        .ok (h.responder.tx, h.responder.rx) ∧
      Ends S I.party R.party h.initiator h.responder idxI idxR) ∧
    (∃ m h, NoiseHandshake.xkMessages S I.party R.party remoteStatic = .ok m ∧
      FspSession.handshake S I R remoteStatic remoteNodeAddr = .ok h ∧
      (∃ s, decodeSessionSetup h.setup = .ok s ∧ s.handshakePayload = m.msg1) ∧
      (∃ a, decodeSessionAck h.ack = .ok a ∧ a.handshakePayload = m.msg2) ∧
      (∃ t, decodeSessionMsg3 h.msg3 = .ok t ∧ t.handshakePayload = m.msg3) ∧
      m.msg1.length = 33 ∧ m.msg2.length = 57 ∧ m.msg3.length = 73 ∧
      m.initiator.getHandshakeHash = m.responder.getHandshakeHash ∧
      m.responder.getRemoteStatic = some I.party.identity.publicKey ∧
      (do let (tx, rx) ← m.initiator.splitTxRx S; return (some tx, some rx)) =
        .ok (h.initiator.tx, h.initiator.rx) ∧
      (do let (tx, rx) ← m.responder.splitTxRx S; return (some tx, some rx)) =
        .ok (h.responder.tx, h.responder.rx) ∧
      FspEnds I R h.initiator h.responder) := by
  refine ⟨FmpLink.handshake_completes hS hI.party hR.party hr hiI hiR, ?_⟩
  obtain ⟨x⟩ := NoiseHandshake.xk_exchange hS hI.party hR.party hr
  obtain ⟨e⟩ := FspSession.exchange hS hI hR hfit hr hrna x
  obtain ⟨ti, ri, hsi, hti, hri⟩ := e.split_i
  obtain ⟨tr, rr, hsr, htr, hrr⟩ := e.split_r
  refine ⟨_, _, x.messages, e.handshake, e.setup_msg, e.ack_msg, e.msg3_msg, x.length₁, x.length₂, x.length₃,
    congrArg SymmetricState.h x.ss, x.remote, ?_, ?_, e.ends⟩
  · simp [hsi, hti, hri]
  · simp [hsr, htr, hrr]

/-- A toy end with its own coordinates. -/
def toyEnd (n ephemeral : UInt8) (strictClient : Bool) : FspEnd :=
  ⟨toyParty n ephemeral, n.toNat, strictClient, [List.replicate 16 n], [List.replicate 16 n], 0⟩

theorem toyEnd_valid (n ephemeral : UInt8) (strictClient : Bool) : (toyEnd n ephemeral strictClient).Valid toySuite :=
  ⟨toyParty_valid n ephemeral, by simp [toyEnd], by simp [toyEnd]⟩

theorem honest_handshakes_complete_toy : ∃ h, FspSession.handshake toySuite (toyEnd 1 11 false) (toyEnd 2 12 true)
    (3 :: List.replicate 32 2) (some (List.replicate 16 1)) = .ok h ∧
      FspEnds (toyEnd 1 11 false) (toyEnd 2 12 true) h.initiator h.responder := by
  obtain ⟨-, m, h, -, hh, -, -, -, -, -, -, -, -, -, -, hends⟩ :=
    @honest_handshakes_complete _ _ _ _ (some (List.replicate 16 1)) toySuite_lawful (toyEnd_valid 1 11 false)
        (toyEnd_valid 2 12 true) ⟨by decide, by decide⟩ (toyIdentity_sameX 2) (by simp) 7 9
      (by decide) (by decide)
  exact ⟨h, hh, hends⟩

end

end Fips
