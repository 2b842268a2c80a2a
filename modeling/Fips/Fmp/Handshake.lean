import Fips.Fmp.Link
import Fips.Noise.Exchange

/-!
# The IK handshake between two links

`FmpLink.handshake` runs `buildMsg1`, `handleMsg1` and `handleMsg2` on two fresh links, and
`NoiseHandshake.ikMessages` the same exchange on bare Noise states. With lawful primitives both
complete, and the keys of the links are the split of the Noise states.
-/

namespace Fips
open Exec LittleEndian

/-- Two packets and the two links after them. -/
structure FmpHandshake where
  msg1 : Bytes
  msg2 : Bytes
  initiator : FmpLink
  responder : FmpLink

/-- The handshake through the links, with the session indices and clock readings of the two ends. -/
def FmpLink.handshake (S : Suite) (I R : Party) (remoteStatic : Bytes) (idxI idxR : Nat) (nowI nowR : ℚ) :
    Except String FmpHandshake := do
  let i ← FmpLink.new S I.identity (some remoteStatic) .initiator idxI I.epoch I.ephemeralOverride
  let r ← FmpLink.new S R.identity none .responder idxR R.epoch R.ephemeralOverride
  let (msg1, i) ← call (buildMsg1 S I.random) i
  let (result, r) ← call (handleMsg1 S msg1 R.random nowR) r
  let msg2 := result.reply.getD []
  let (_, i) ← call (handleMsg2 S msg2 nowI) i
  return ⟨msg1, msg2, i, r⟩

namespace FmpLink
variable {S : Suite} {l : FmpLink} {hs hs' : NoiseHandshake} {α : Type} {a : α} {nowMs : ℚ}

theorem run_onHs {x : EStateM String NoiseHandshake α} (hl : l.hs = some hs) (hx : x.run hs = .ok a hs') :
    (onHs x).run l = .ok a { l with hs := some hs' } := run_zoomSome_ok hl hx

theorem run_finalize {tx rx : CipherState} (hl : l.hs = some hs) (hsplit : hs.splitTxRx S = .ok (tx, rx)) :
    (finalize S nowMs).run l = .ok () { l with
      tx := some tx, rx := some rx, sessionStartMs := nowMs, state := .established, hs := none } := by
  simp [finalize, hl, hsplit]

/-- The state of the initiator once its Msg1 is out. -/
theorem run_buildMsg1 {random noiseMsg1 packet remotePubkey : Bytes} (hrole : l.role = .initiator)
    (hrem : l.remotePubkey = some remotePubkey) (hl : l.hs = some hs)
    (hw : (NoiseHandshake.writeMessage S random l.localEpoch).run hs = .ok noiseMsg1 hs')
    (hlen : noiseMsg1.length = 106) (henc : encodeFmpMsg1 ⟨l.localSessionIdx, noiseMsg1⟩ = .ok packet) :
    (buildMsg1 S random).run l = .ok packet { l with state := .handshaking, hs := some hs' } := by
  have hx := run_onHs (l := { l with state := .handshaking }) hl hw
  cases l
  dsimp only at *
  subst hrole hrem hl
  simp [buildMsg1, requireHs, hx, hlen, NOISE_IK_MSG1_LEN, henc]

/-- A fresh responder that can read the Noise message of a Msg1 answers it. -/
theorem run_handleMsg1 {packet random payload rs noiseMsg2 reply : Bytes} {msg1 : FmpMsg1}
    {hs'' : NoiseHandshake} {tx rx : CipherState} (hrole : l.role = .responder) (hstate : l.state ≠ .established)
    (hl : l.hs = some hs) (hdec : decodeFmpMsg1 packet = .ok msg1)
    (hr : (NoiseHandshake.readMessage S msg1.noiseMsg1).run hs = .ok payload hs') (hpl : payload.length = 8)
    (hrs : hs'.rs = some rs)
    (hw : (NoiseHandshake.writeMessage S random l.localEpoch).run hs' = .ok noiseMsg2 hs'')
    (hlen : noiseMsg2.length = 57)
    (henc : encodeFmpMsg2 ⟨l.localSessionIdx, msg1.senderIdx, noiseMsg2⟩ = .ok reply)
    (hsplit : hs''.splitTxRx S = .ok (tx, rx)) :
    (handleMsg1 S packet random nowMs).run l = .ok ⟨some reply, true, rs⟩ { l with
      remoteEpoch := some payload, remoteSessionIdx := some msg1.senderIdx, remotePubkey := some rs,
      establishedMsg1 := some packet, establishedMsg2 := some reply,
      tx := some tx, rx := some rx, sessionStartMs := nowMs, state := .established, hs := none } := by
  have h₁ := run_onHs hl hr
  have h₂ (l : FmpLink) (hl : l.hs = some hs') := run_onHs hl hw
  have h₃ (l : FmpLink) (hl : l.hs = some hs'') := (@run_finalize _ _ _ nowMs) hl hsplit
  cases l
  dsimp only at *
  subst hrole hl
  simp [handleMsg1, hstate, requireHs, hdec, h₁, hpl, EPOCH_PAYLOAD_LEN, NoiseHandshake.getRemoteStatic,
    hrs, h₂, hlen, NOISE_IK_MSG2_LEN, henc, h₃]

theorem run_handleMsg2 {packet payload : Bytes} {msg2 : FmpMsg2} {tx rx : CipherState}
    (hrole : l.role = .initiator) (hstate : l.state ≠ .established) (hl : l.hs = some hs)
    (hdec : decodeFmpMsg2 packet = .ok msg2) (hidx : msg2.receiverIdx = l.localSessionIdx)
    (hr : (NoiseHandshake.readMessage S msg2.noiseMsg2).run hs = .ok payload hs') (hpl : payload.length = 8)
    (hsplit : hs'.splitTxRx S = .ok (tx, rx)) :
    (handleMsg2 S packet nowMs).run l = .ok ⟨none, true, l.remotePubkey.getD []⟩ { l with
      remoteEpoch := some payload, remoteSessionIdx := some msg2.senderIdx, establishedMsg2 := some packet,
      tx := some tx, rx := some rx, sessionStartMs := nowMs, state := .established, hs := none } := by
  have h₁ := run_onHs hl hr
  have h₂ (l : FmpLink) (hl : l.hs = some hs') := (@run_finalize _ _ _ nowMs) hl hsplit
  cases l
  dsimp only at *
  subst hrole hl
  simp [handleMsg2, hstate, requireHs, hdec, hidx, h₁, hpl, EPOCH_PAYLOAD_LEN, h₂]

end FmpLink

section
variable {S : Suite} {I R : Party} {remoteStatic : Bytes} {idxI idxR : Nat} {nowI nowR : ℚ}

/-- The established ends of one handshake: equal keys crosswise, and each knows the other's index. -/
structure Ends (S : Suite) (I R : Party) (i r : FmpLink) (idxI idxR : Nat) : Prop where
  i_state : i.state = .established
  r_state : r.state = .established
  i_tx : i.tx = r.rx
  r_tx : r.tx = i.rx
  tx_key : ∃ k, i.tx = some ⟨some k, 0⟩ ∧ k.length = 32
  rx_key : ∃ k, i.rx = some ⟨some k, 0⟩ ∧ k.length = 32
  i_idx : i.localSessionIdx = idxI ∧ i.remoteSessionIdx = some idxR
  r_idx : r.localSessionIdx = idxR ∧ r.remoteSessionIdx = some idxI
  r_remote : r.remotePubkey = some I.identity.publicKey
  i_epoch : i.remoteEpoch = some R.epoch
  r_epoch : r.remoteEpoch = some I.epoch
  fresh : i.txCounter = 0 ∧ r.txCounter = 0 ∧ i.rxReplay = .new ∧ r.rxReplay = .new

/-- An honest IK run completes, through the links as on the bare Noise states. -/
theorem FmpLink.handshake_completes (hS : S.Lawful) (hI : I.Valid S) (hR : R.Valid S)
    (hr : SameX remoteStatic R.identity.publicKey) (hiI : idxI < 2 ^ 32) (hiR : idxR < 2 ^ 32) :
    ∃ m h, NoiseHandshake.ikMessages S I R remoteStatic = .ok m ∧
      FmpLink.handshake S I R remoteStatic idxI idxR nowI nowR = .ok h ∧
      decodeFmpMsg1 h.msg1 = .ok ⟨idxI, m.msg1⟩ ∧ decodeFmpMsg2 h.msg2 = .ok ⟨idxR, idxI, m.msg2⟩ ∧
      m.msg1.length = 106 ∧ m.msg2.length = 57 ∧
      m.initiator.getHandshakeHash = m.responder.getHandshakeHash ∧
      m.responder.getRemoteStatic = some I.identity.publicKey ∧
      (do let (tx, rx) ← m.initiator.splitTxRx S; return (some tx, some rx)) =
        .ok (h.initiator.tx, h.initiator.rx) ∧
      (do let (tx, rx) ← m.responder.splitTxRx S; return (some tx, some rx)) =
        .ok (h.responder.tx, h.responder.rx) ∧
      Ends S I R h.initiator h.responder idxI idxR := by
  obtain ⟨x⟩ := NoiseHandshake.ik_exchange hS hI hR hr
  obtain ⟨p₁, henc₁, hdec₁⟩ : ∃ p, encodeFmpMsg1 ⟨idxI, x.msg1⟩ = .ok p ∧ decodeFmpMsg1 p = .ok ⟨idxI, x.msg1⟩ :=
    ⟨_, encodeFmpMsg1_eq hiI x.length₁, decodeFmpMsg1_append hiI x.length₁⟩
  obtain ⟨p₂, henc₂, hdec₂⟩ : ∃ p, encodeFmpMsg2 ⟨idxR, idxI, x.msg2⟩ = .ok p ∧
      decodeFmpMsg2 p = .ok ⟨idxR, idxI, x.msg2⟩ :=
    ⟨_, encodeFmpMsg2_eq hiR hiI x.length₂, decodeFmpMsg2_append hiR hiI x.length₂⟩
  obtain ⟨c₁, c₂, hs₁, hs₂, ⟨k₁, rfl, hk₁⟩, ⟨k₂, rfl, hk₂⟩⟩ :=
    NoiseHandshake.splitTxRx_mirror hS x.ss x.role_i x.role_r
  have hmsgs : NoiseHandshake.ikMessages S I R remoteStatic = .ok ⟨x.msg1, x.msg2, x.i₂, x.r₂⟩ := by
    simp [NoiseHandshake.ikMessages, x.new_i, x.new_r, call_of_ok x.write₁, call_of_ok x.read₁,
      call_of_ok x.write₂, call_of_ok x.read₂]
  obtain ⟨i, hi, hi'⟩ : ∃ i, FmpLink.new S I.identity (some remoteStatic) .initiator idxI I.epoch
      I.ephemeralOverride = .ok i ∧ i = _ :=
    ⟨_, by simp [FmpLink.new, EPOCH_PAYLOAD_LEN, hI.epoch, x.new_i]; rfl, rfl⟩
  obtain ⟨r, hr, hr'⟩ : ∃ r, FmpLink.new S R.identity none .responder idxR R.epoch
      R.ephemeralOverride = .ok r ∧ r = _ :=
    ⟨_, by simp [FmpLink.new, EPOCH_PAYLOAD_LEN, hR.epoch, x.new_r]; rfl, rfl⟩
  have hb := (@FmpLink.run_buildMsg1 S i x.i₀ _ I.random) (by rw [hi']) (by rw [hi'])
    (by rw [hi']) (by rw [hi']; exact x.write₁) x.length₁ (by rw [hi']; exact henc₁)
  obtain ⟨r', hh₁, hr''⟩ : ∃ r', (FmpLink.handleMsg1 S _ R.random nowR).run r = .ok _ r' ∧ r' = _ :=
    ⟨_, (@FmpLink.run_handleMsg1 _ _ x.r₀) (by rw [hr']) (by simp [hr']) (by rw [hr']) hdec₁ x.read₁ hI.epoch x.remote
      (by rw [hr']; exact x.write₂)
      x.length₂ (by rw [hr']; exact henc₂) hs₂, rfl⟩
  obtain ⟨i', hh₂, hi''⟩ : ∃ i', (FmpLink.handleMsg2 S _ nowI).run
      { i with state := .handshaking, hs := some x.i₁ } = .ok _ i' ∧ i' = _ :=
    ⟨_, (@FmpLink.run_handleMsg2 _ _ x.i₁) (by rw [hi']) (by simp) rfl hdec₂ (by rw [hi']) x.read₂ hR.epoch hs₁, rfl⟩
  refine ⟨_, ⟨_, _, i', r'⟩, hmsgs, ?_, hdec₁, hdec₂, x.length₁, x.length₂, congrArg SymmetricState.h x.ss, x.remote₂,
    ?_, ?_, ?_⟩
  · simp [FmpLink.handshake, hi, hr, call_of_ok hb, call_of_ok hh₁, call_of_ok hh₂]
  · simp [hs₁, hi'']
  · simp [hs₂, hr'']
  · subst hi'' hr'' hi' hr'
    exact ⟨rfl, rfl, rfl, rfl, ⟨k₁, rfl, hk₁⟩, ⟨k₂, rfl, hk₂⟩, ⟨rfl, rfl⟩, ⟨rfl, rfl⟩, rfl, rfl, rfl,
      ⟨rfl, rfl, rfl, rfl⟩⟩

end

end Fips
