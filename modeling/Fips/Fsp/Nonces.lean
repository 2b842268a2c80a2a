import Fips.Fmp.Nonces
import Fips.Fsp.Records
import Fips.Fsp.Rejection

/-!
# The nonces of a session

A session as a sealer, like a link. Between the AEAD call and the return of a frame the coordinates are
encoded, which may throw: such a call has made a seal that no frame carries, and its counter stays taken.
-/

namespace Fips
open Exec LittleEndian KeyedCounter

namespace FspSession
variable {S : Suite} {f f₀ : FspSession} {payload packet random frame : Bytes} {msgType flags : Nat} {nowMs : ℚ}
  {coords : Option (List NodeAddr × List NodeAddr)}

/-- `encryptMessage` up to its AEAD call: the key and the counter it seals under. -/
def sealCall (S : Suite) (msgType : Nat) (payload : Bytes) (flags : Nat) (coords : Option (List NodeAddr × List NodeAddr))
    (nowMs : ℚ) (f : FspSession) : Except String (Bytes × Nat) := do
  match f.state, f.tx with
  | .established, some tx =>
    if msgType > 0xff then throw "FSP message type must be one byte"
    if f.txCounter ≥ maxNonce then throw "FSP nonce exhausted"
    let inner ← encodeFspInner ⟨toU32 (nowMs - f.sessionStartMs), msgType, 0, payload⟩
    validateEstablishedFlags flags
    let (flags, _, _) ← recordCoords S f flags coords
    let aad ← encodeFspEstablishedHeader flags f.txCounter inner.length
    let key ← tx.getKey
    let _ ← aeadSeal S key f.txCounter inner aad
    return (key, f.txCounter)
  | _, _ => throw "FSP not established"

/-- The counter in the header of a sealed frame. -/
def frameCounter (frame : Bytes) : Nat := leNat ((frame.drop 4).take 8)

theorem frameCounter_header {counter payloadLen : Nat} {rest : Bytes} (hc : counter < 2 ^ 64) :
    frameCounter (fspHeaderBytes flags counter payloadLen ++ rest) = counter := by
  rw [frameCounter, fspHeaderBytes, List.append_assoc, List.drop_left' (by simp), List.take_left' (by simp),
    leNat_leBytes (by omega)]

/-- It is the counter the receiver decodes. -/
theorem frameCounter_of_decode {est : FspEstablished} (h : decodeFspEstablished frame = .ok est) :
    frameCounter frame = est.counter := by
  obtain ⟨hwire, -, hbytes⟩ := decodeFspEstablished_bytes h
  rw [hbytes, FspEstablished.bytes, List.append_assoc]
  exact frameCounter_header hwire.counter

theorem recordCoords_flags {flags' : Nat} {src dest : Option (List NodeAddr)}
    (h : recordCoords S f flags coords = .ok (flags', src, dest)) (hf : flags < 256) : flags' < 256 := by
  have hor : flags ||| FSP_FLAG_CP < 2 ^ 8 := Nat.or_lt_two_pow hf (by decide)
  unfold recordCoords at h
  cases coords with
  | none => cases h; exact hf
  | some c =>
    obtain ⟨csrc, cdest⟩ := c
    dsimp only at h
    split at h
    · cases hkey : f.remotePubkey with
      | none =>
        rw [hkey] at h
        cases h
        exact hor
      | some remotePubkey =>
        rw [hkey] at h
        obtain ⟨dest', -, h⟩ := except_bind_eq_ok.1 h
        cases h
        exact hor
    · cases h
      exact hor

/-- The part of `encryptMessage` after the counter is taken. -/
theorem seal_eq_ok {tx : CipherState} (hstate : f.state = .established) (htx : f.tx = some tx)
    (htype : ¬msgType > 0xff) (hn : ¬f.txCounter ≥ maxNonce)
    (h : (do
      let inner ← encodeFspInner ⟨toU32 (nowMs - f.sessionStartMs), msgType, 0, payload⟩
      validateEstablishedFlags flags
      let (flags, srcCoords, destCoords) ← recordCoords S f flags coords
      let aad ← encodeFspEstablishedHeader flags f.txCounter inner.length
      let ciphertext ← aeadSeal S (← tx.getKey) f.txCounter inner aad
      encodeFspEstablished ⟨flags, f.txCounter, inner.length, srcCoords, destCoords, ciphertext⟩) = .ok frame) :
    frameCounter frame = f.txCounter ∧
      ∃ key, f.sealCall S msgType payload flags coords nowMs = .ok (key, f.txCounter) := by
  obtain ⟨inner, hinner, h⟩ := except_bind_eq_ok.1 h
  obtain ⟨_, hflags, h⟩ := except_bind_eq_ok.1 h
  obtain ⟨⟨flags', src, dest⟩, hcoords, h⟩ := except_bind_eq_ok.1 h
  obtain ⟨aad, haad, h⟩ := except_bind_eq_ok.1 h
  obtain ⟨key, hkey, h⟩ := except_bind_eq_ok.1 h
  obtain ⟨ct, hct, h⟩ := except_bind_eq_ok.1 h
  refine ⟨?_, key, ?_⟩
  · have hlt := recordCoords_flags hcoords (validateEstablishedFlags_eq_ok hflags).1
    obtain ⟨hc, -, hbytes⟩ := encodeFspEstablishedHeader_eq_ok hlt haad
    unfold encodeFspEstablished at h
    dsimp only at h
    split at h
    · cases h
    rw [haad, ok_bind] at h
    obtain ⟨part, -, h⟩ := except_bind_eq_ok.1 h
    cases h
    rw [hbytes, List.append_assoc]
    exact frameCounter_header hc
  · simp only [sealCall, hstate, htx, htype, hn, if_false, hinner, hflags, hcoords, haad, hkey, hct, ok_bind]
    rfl

/-- A call that returns a frame made one seal, under the counter it takes and puts into the frame; one that throws
may have taken its counter too, and has if it made a seal. -/
theorem wp_encryptMessage_seals :
    wp (encryptMessage S msgType payload flags coords nowMs)
      (fun frame f' => f' = { f with txCounter := f.txCounter + 1 } ∧ frameCounter frame = f.txCounter ∧
        ∃ key, f.sealCall S msgType payload flags coords nowMs = .ok (key, f.txCounter))
      (fun _ f' => f' = { f with txCounter := f.txCounter + 1 } ∨
        f' = f ∧ ∃ e, f.sealCall S msgType payload flags coords nowMs = .error e) f := by
  unfold encryptMessage
  simp only [wp_bind, wp_get]
  split
  case h_2 hclosed =>
    refine .inr ⟨rfl, "FSP not established", ?_⟩
    unfold sealCall
    split
    · exact (hclosed _ ‹_› ‹_›).elim
    · rfl
  case h_1 tx hstate htx =>
    by_cases htype : msgType > 0xff
    · simp only [htype, if_true, wp_bind, wp_throw]
      refine .inr ⟨trivial, "FSP message type must be one byte", ?_⟩
      simp only [sealCall, hstate, htx, htype, if_true]
      rfl
    · by_cases hn : f.txCounter ≥ maxNonce
      · simp only [htype, hn, if_true, if_false, wp_bind, wp_throw]
        refine .inr ⟨trivial, "FSP nonce exhausted", ?_⟩
        simp only [sealCall, hstate, htx, htype, hn, if_true, if_false]
        rfl
      · simp only [htype, hn, if_false, wp_bind, wp_set, wp_lift]
        refine ⟨fun frame hframe => ⟨trivial, ?_⟩, fun _ _ => .inl trivial⟩
        exact seal_eq_ok hstate htx htype hn hframe

theorem sealCall_eq_ok {key : Bytes} {n : Nat} (h : f.sealCall S msgType payload flags coords nowMs = .ok (key, n)) :
    f.txKey = some key ∧ n = f.txCounter ∧ f.txCounter < maxNonce := by
  unfold sealCall at h
  split at h
  case h_2 => cases h
  case h_1 tx hstate htx =>
    by_cases htype : msgType > 0xff
    · rw [if_pos htype] at h
      cases h
    rw [if_neg htype] at h
    dsimp only at h
    by_cases hn : f.txCounter ≥ maxNonce
    · rw [if_pos hn] at h
      cases h
    rw [if_neg hn] at h
    obtain ⟨inner, -, h⟩ := except_bind_eq_ok.1 h
    obtain ⟨_, -, h⟩ := except_bind_eq_ok.1 h
    obtain ⟨⟨flags', src, dest⟩, -, h⟩ := except_bind_eq_ok.1 h
    obtain ⟨aad, -, h⟩ := except_bind_eq_ok.1 h
    obtain ⟨key', hkey, h⟩ := except_bind_eq_ok.1 h
    obtain ⟨ct, -, h⟩ := except_bind_eq_ok.1 h
    cases h
    exact ⟨Option.bind_eq_some_iff.2 ⟨tx, htx, CipherState.getKey_eq_ok.1 hkey⟩, rfl, not_le.1 hn⟩

/-! ### What a call does to the keys -/

/-- A call keeps the traffic keys and the counter, or completes the handshake and ends the Noise state, or drops
everything. -/
structure KeepsKeys (f f' : FspSession) : Prop where
  counter : f.txCounter ≤ f'.txCounter
  hs : f'.hs.isSome = true → f.hs.isSome = true
  keys : (f'.tx, f'.rx) = (f.tx, f.rx) ∨ (f'.tx, f'.rx) = (none, none) ∨ f.hs.isSome = true ∧ f'.hs = none

theorem KeepsKeys.refl (f : FspSession) : KeepsKeys f f := ⟨le_rfl, id, .inl rfl⟩

/-- A handshake in progress, whose keys are not touched yet. -/
structure Underway (f₀ f : FspSession) : Prop where
  started : f₀.hs.isSome = true
  counter : f₀.txCounter ≤ f.txCounter
  keys : (f.tx, f.rx) = (f₀.tx, f₀.rx)

theorem Underway.keepsKeys (h : Underway f₀ f) : KeepsKeys f₀ f := ⟨h.counter, fun _ => h.started, .inl h.keys⟩

theorem underway_self (h : ¬f.hs.isNone = true) : Underway f f := ⟨FmpLink.isSome_of_not_isNone h, le_rfl, rfl⟩

theorem wp_onHs_underway {α : Type} {x : EStateM String NoiseHandshake α} {Q : α → FspSession → Prop}
    (h : Underway f₀ f) (hQ : ∀ a hs, Underway f₀ { f with hs := some hs } → Q a { f with hs := some hs }) :
    wp (onHs x) Q (fun _ => KeepsKeys f₀) f :=
  wp_onHs_any (fun _ => h.keepsKeys) (fun a _ => hQ a _ ⟨h.started, h.counter, h.keys⟩)
    fun _ _ => ⟨h.counter, fun _ => h.started, .inl h.keys⟩

theorem wp_finalize_underway (h : Underway f₀ f) {Q : Unit → FspSession → Prop} (hQ : ∀ f', KeepsKeys f₀ f' → Q () f') :
    wp (finalize S nowMs) Q (fun _ => KeepsKeys f₀) f :=
  wp_finalize (fun _ => h.keepsKeys) fun _ _ => hQ _ ⟨h.counter, nofun, .inr (.inr ⟨h.started, rfl⟩)⟩

theorem buildSessionSetup_keepsKeys {srcCoords destCoords : List NodeAddr} :
    wp (buildSessionSetup S random srcCoords destCoords) (fun _ => KeepsKeys f) (fun _ => KeepsKeys f) f := by
  unfold buildSessionSetup
  simp only [wp_bind, wp_get, wp_ite, wp_throw]
  refine ⟨fun _ => .refl f, fun _ => ?_⟩
  cases f.remotePubkey with
  | none => exact .refl f
  | some remotePubkey =>
    simp only [wp_bind, wp_get, requireHs, wp_ite, wp_throw, wp_pure, wp_modify]
    refine ⟨fun _ => .refl f, fun hhs => ?_⟩
    obtain ⟨h₁, h₂, h₃⟩ := underway_self hhs
    refine wp_onHs_underway ⟨h₁, h₂, h₃⟩ fun msg hs h => ?_
    simp only [wp_ite, wp_bind, wp_throw, wp_lift]
    exact ⟨fun _ => h.keepsKeys, fun _ => ⟨fun _ _ => ⟨fun _ _ => h.keepsKeys, fun _ _ => h.keepsKeys⟩,
      fun _ _ => h.keepsKeys⟩⟩

theorem handleSessionSetup_keepsKeys {localCoords : List NodeAddr} {remoteNodeAddr : Option NodeAddr} :
    wp (handleSessionSetup S packet random localCoords remoteNodeAddr) (fun _ => KeepsKeys f) (fun _ => KeepsKeys f) f := by
  unfold handleSessionSetup
  simp only [wp_bind, wp_get, wp_ite, wp_throw]
  refine ⟨fun _ => .refl f, fun _ => ?_⟩
  cases f.receivedSessionSetup with
  | some received =>
    cases f.sentSessionAck with
    | some ack =>
      simp only [wp_ite, wp_throw, wp_pure]
      exact ⟨fun _ => .refl f, fun _ => .refl f⟩
    | none => exact .refl f
  | none =>
    show wp (acceptSessionSetup S packet random localCoords remoteNodeAddr) _ _ f
    unfold acceptSessionSetup
    simp only [wp_bind, wp_get, requireHs, wp_ite, wp_throw, wp_pure, wp_lift]
    refine ⟨fun _ => .refl f, fun hhs => ⟨fun setup _ => ⟨fun _ => .refl f, fun _ => ?_⟩, fun _ _ => .refl f⟩⟩
    refine wp_onHs_underway (underway_self hhs) fun payload hs₁ h₁ => ?_
    simp only [wp_ite, wp_bind, wp_throw, wp_modify]
    refine ⟨fun _ => h₁.keepsKeys, fun _ => ?_⟩
    refine wp_onHs_underway ⟨h₁.started, h₁.counter, h₁.keys⟩ fun msg hs₂ h₂ => ?_
    simp only [wp_ite, wp_bind, wp_throw, wp_lift, wp_modify, wp_pure]
    exact ⟨fun _ => h₂.keepsKeys, fun _ => ⟨fun _ _ => ⟨h₂.counter, fun _ => h₂.started, .inl h₂.keys⟩,
      fun _ _ => h₂.keepsKeys⟩⟩

theorem handleSessionAck_keepsKeys :
    wp (handleSessionAck S packet random nowMs) (fun _ => KeepsKeys f) (fun _ => KeepsKeys f) f := by
  unfold handleSessionAck
  simp only [wp_bind, wp_get, wp_ite, wp_throw]
  refine ⟨fun _ => .refl f, fun _ => ?_⟩
  cases f.receivedSessionAck with
  | some received =>
    cases f.sentSessionMsg3 with
    | some msg3 =>
      simp only [wp_ite, wp_throw, wp_pure]
      exact ⟨fun _ => .refl f, fun _ => .refl f⟩
    | none => exact .refl f
  | none =>
    show wp (acceptSessionAck S packet random nowMs) _ _ f
    unfold acceptSessionAck
    simp only [wp_bind, wp_get, requireHs, wp_ite, wp_throw, wp_pure, wp_lift]
    refine ⟨fun _ => .refl f, fun hhs => ⟨fun ack _ => ⟨fun _ => .refl f, fun _ => ?_⟩, fun _ _ => .refl f⟩⟩
    refine wp_onHs_underway (underway_self hhs) fun payload hs₁ h₁ => ?_
    simp only [wp_ite, wp_bind, wp_throw, wp_modify]
    refine ⟨fun _ => h₁.keepsKeys, fun _ => ?_⟩
    refine wp_onHs_underway ⟨h₁.started, h₁.counter, h₁.keys⟩ fun msg hs₂ h₂ => ?_
    simp only [wp_ite, wp_bind, wp_throw, wp_lift, wp_modify]
    refine ⟨fun _ => h₂.keepsKeys, fun _ => ⟨fun reply _ => ?_, fun _ _ => h₂.keepsKeys⟩⟩
    refine wp_finalize_underway ?_ fun f' h => wp_pure.2 h
    exact ⟨h₂.started, h₂.counter, h₂.keys⟩

/-- Completing a responder, from the point where the last message was read. -/
theorem wp_complete_keepsKeys {hs₁ : NoiseHandshake} {error : String}
    (h : Underway f₀ { f with remoteEpoch := some payload, hs := some hs₁ }) :
    wp (match (some hs₁).bind NoiseHandshake.getRemoteStatic with
      | none => throw error
      | some rs => do
        modify ({ · with remotePubkey := some rs, establishedMsg3 := some packet })
        finalize S nowMs : EStateM String FspSession Unit) (fun _ => KeepsKeys f₀) (fun _ => KeepsKeys f₀)
      { f with remoteEpoch := some payload, hs := some hs₁ } := by
  cases (some hs₁).bind NoiseHandshake.getRemoteStatic with
  | none => exact h.keepsKeys
  | some rs =>
    simp only [wp_bind, wp_modify]
    refine wp_finalize_underway ?_ fun f' h' => h'
    exact ⟨h.started, h.counter, h.keys⟩

theorem handleSessionMsg3_keepsKeys :
    wp (handleSessionMsg3 S packet nowMs) (fun _ => KeepsKeys f) (fun _ => KeepsKeys f) f := by
  unfold handleSessionMsg3 acceptSessionMsg3
  simp only [wp_bind, wp_get, requireHs, wp_ite, wp_throw, wp_pure, wp_lift]
  refine ⟨fun _ => .refl f, fun _ => ⟨fun _ => ⟨fun _ => .refl f, fun _ => .refl f⟩, fun _ => ⟨fun _ => .refl f, fun hhs =>
    ⟨fun msg3 _ => ⟨fun _ => .refl f, fun _ => ?_⟩, fun _ _ => .refl f⟩⟩⟩⟩
  refine wp_onHs_underway (underway_self hhs) fun payload hs₁ h₁ => ?_
  simp only [wp_ite, wp_bind, wp_throw, wp_modify, wp_get]
  exact ⟨fun _ => h₁.keepsKeys, fun _ => wp_complete_keepsKeys ⟨h₁.started, h₁.counter, h₁.keys⟩⟩

theorem buildMsg1_keepsKeys : wp (buildMsg1 S random) (fun _ => KeepsKeys f) (fun _ => KeepsKeys f) f := by
  unfold buildMsg1
  simp only [wp_bind, wp_get, requireHs, wp_ite, wp_throw, wp_pure, wp_modify]
  refine ⟨fun _ => .refl f, fun _ => ⟨fun _ => .refl f, fun _ => ⟨fun _ => .refl f, fun hhs => ?_⟩⟩⟩
  obtain ⟨h₁, h₂, h₃⟩ := underway_self hhs
  refine wp_onHs_underway ⟨h₁, h₂, h₃⟩ fun msg hs h => ?_
  simp only [wp_ite, wp_bind, wp_throw, wp_lift]
  exact ⟨fun _ => h.keepsKeys, fun _ => ⟨fun _ _ => h.keepsKeys, fun _ _ => h.keepsKeys⟩⟩

theorem handleMsg1_keepsKeys : wp (handleMsg1 S packet random) (fun _ => KeepsKeys f) (fun _ => KeepsKeys f) f := by
  unfold handleMsg1
  simp only [wp_bind, wp_get, requireHs, wp_ite, wp_throw, wp_pure, wp_lift]
  refine ⟨fun _ => .refl f, fun _ => ⟨fun _ => .refl f, fun hhs => ⟨fun frame _ => ⟨fun _ => .refl f, fun _ => ?_⟩,
    fun _ _ => .refl f⟩⟩⟩
  refine wp_onHs_underway (underway_self hhs) fun payload hs₁ h₁ => ?_
  simp only [wp_ite, wp_bind, wp_throw]
  refine ⟨fun _ => h₁.keepsKeys, fun _ => wp_onHs_underway h₁ fun msg hs₂ h₂ => ?_⟩
  simp only [wp_ite, wp_bind, wp_throw, wp_lift]
  exact ⟨fun _ => h₂.keepsKeys, fun _ => ⟨fun _ _ => h₂.keepsKeys, fun _ _ => h₂.keepsKeys⟩⟩

theorem handleMsg2_keepsKeys :
    wp (handleMsg2 S packet random nowMs) (fun _ => KeepsKeys f) (fun _ => KeepsKeys f) f := by
  unfold handleMsg2
  simp only [wp_bind, wp_get, requireHs, wp_ite, wp_throw, wp_pure, wp_lift]
  refine ⟨fun _ => .refl f, fun _ => ⟨fun _ => .refl f, fun hhs => ⟨fun frame _ => ⟨fun _ => .refl f, fun _ =>
    ⟨fun _ => .refl f, fun _ => ?_⟩⟩, fun _ _ => .refl f⟩⟩⟩
  refine wp_onHs_underway (underway_self hhs) fun payload hs₁ h₁ => ?_
  simp only [wp_ite, wp_bind, wp_throw, wp_modify]
  refine ⟨fun _ => h₁.keepsKeys, fun _ => ?_⟩
  refine wp_onHs_underway ⟨h₁.started, h₁.counter, h₁.keys⟩ fun msg hs₂ h₂ => ?_
  simp only [wp_ite, wp_bind, wp_throw]
  refine ⟨fun _ => h₂.keepsKeys, fun _ => wp_finalize_underway h₂ fun f' h => ?_⟩
  exact wp_lift.2 ⟨fun _ _ => h, fun _ _ => h⟩

theorem handleMsg3_keepsKeys : wp (handleMsg3 S packet nowMs) (fun _ => KeepsKeys f) (fun _ => KeepsKeys f) f := by
  unfold handleMsg3
  simp only [wp_bind, wp_get, requireHs, wp_ite, wp_throw, wp_pure, wp_lift]
  refine ⟨fun _ => .refl f, fun _ => ⟨fun _ => ⟨fun _ => .refl f, fun _ => .refl f⟩, fun _ => ⟨fun _ => .refl f, fun hhs =>
    ⟨fun frame _ => ⟨fun _ => .refl f, fun _ => ⟨fun _ => .refl f, fun _ => ?_⟩⟩, fun _ _ => .refl f⟩⟩⟩⟩
  refine wp_onHs_underway (underway_self hhs) fun payload hs₁ h₁ => ?_
  simp only [wp_ite, wp_bind, wp_throw, wp_modify, wp_get]
  exact ⟨fun _ => h₁.keepsKeys, fun _ => wp_complete_keepsKeys ⟨h₁.started, h₁.counter, h₁.keys⟩⟩

/-- What one call does to the keys. -/
theorem keepsKeys_step (f : FspSession) (e : FspSessionEvent) : KeepsKeys f (f.step S e) := by
  cases e with
  | buildSessionSetup random srcCoords destCoords => exact wp_after.2 buildSessionSetup_keepsKeys
  | handleSessionSetup packet random localCoords remoteNodeAddr => exact wp_after.2 handleSessionSetup_keepsKeys
  | handleSessionAck packet random nowMs => exact wp_after.2 handleSessionAck_keepsKeys
  | handleSessionMsg3 packet nowMs => exact wp_after.2 handleSessionMsg3_keepsKeys
  | buildMsg1 random => exact wp_after.2 buildMsg1_keepsKeys
  | handleMsg1 packet random => exact wp_after.2 handleMsg1_keepsKeys
  | handleMsg2 packet random nowMs => exact wp_after.2 handleMsg2_keepsKeys
  | handleMsg3 packet nowMs => exact wp_after.2 handleMsg3_keepsKeys
  | encryptMessage msgType payload flags coords nowMs =>
    have hnext : KeepsKeys f { f with txCounter := f.txCounter + 1 } := ⟨Nat.le_succ _, id, .inl rfl⟩
    refine wp_after.2 (wp_mono wp_encryptMessage_seals (fun _ f' h => ?_) fun _ f' h => ?_)
    · rw [h.1]
      exact hnext
    · rcases h with h | ⟨h, -⟩
      · rw [h]
        exact hnext
      · rw [h]
        exact .refl f
  | openRecord packet =>
    have htaken (counter : Nat) : KeepsKeys f (f.taken counter) := ⟨le_rfl, id, .inl rfl⟩
    refine wp_after.2 (wp_mono wp_openRecord (fun _ f' h => ?_) fun _ f' h => ?_)
    · obtain ⟨est, pt, -, -, rfl⟩ := h
      exact htaken _
    · rcases h with ⟨rfl, -⟩ | ⟨est, pt, -, -, rfl⟩
      · exact .refl _
      · exact htaken _
  | close => exact ⟨le_rfl, nofun, .inr (.inl rfl)⟩

/-! ### The session as a sealer -/

def used (S : Suite) (f : FspSession) : FspSessionEvent → Option (Bytes × Nat)
  | .encryptMessage msgType payload flags coords nowMs => (f.sealCall S msgType payload flags coords nowMs).toOption
  | _ => none

/-- The frame a call returns, if it seals one. -/
def sealedFrame (S : Suite) (f : FspSession) : FspSessionEvent → Option Bytes
  | .encryptMessage msgType payload flags coords nowMs =>
    (call (encryptMessage S msgType payload flags coords nowMs) f).toOption.map Prod.fst
  | _ => none

def sealer (S : Suite) : Sealer FspSession FspSessionEvent (Option CipherState × Option CipherState) Bytes where
  step := step S
  pending f := f.hs.isSome
  keys f := (f.tx, f.rx)
  blank := (none, none)
  sealKey keys := FmpLink.keyOf keys.1
  counter := txCounter
  limit := maxNonce
  used := used S

theorem used_eq_some {e : FspSessionEvent} {key : Bytes} {n : Nat} (h : used S f e = some (key, n)) :
    f.txKey = some key ∧ n = f.txCounter ∧ n < maxNonce ∧ (f.step S e).txCounter = f.txCounter + 1 := by
  cases e with
  | encryptMessage msgType payload flags coords nowMs =>
    have hcall : f.sealCall S msgType payload flags coords nowMs = .ok (key, n) := mem_toOption.1 h
    obtain ⟨hkey, hn, hlt⟩ := sealCall_eq_ok hcall
    refine ⟨hkey, hn, hn ▸ hlt, ?_⟩
    refine (wp_after (P := fun f' : FspSession => f'.txCounter = f.txCounter + 1)).2
      (wp_mono wp_encryptMessage_seals (fun _ f' h' => ?_) fun e f' h' => ?_)
    · rw [h'.1]
    · rcases h' with h' | ⟨-, e', h'⟩
      · rw [h']
      · rw [hcall] at h'
        cases h'
  | _ => cases h

theorem sealer_lawful (S : Suite) : (sealer S).Lawful where
  blank := rfl
  counter_le f e := (keepsKeys_step f e).counter
  used_key f e key n h := (used_eq_some h).1
  used_counter f e key n h := by
    obtain ⟨-, hn, hlt, hnext⟩ := used_eq_some h
    refine ⟨hn, hlt, ?_⟩
    show n < (f.step S e).txCounter
    omega
  keys f e := by
    rcases (keepsKeys_step (S := S) f e).keys with h | h | ⟨h, h'⟩
    · exact .inl h
    · exact .inr (.inl h)
    · exact .inr (.inr ⟨h, by show (f.step S e).hs.isSome = false; rw [h']; rfl⟩)
  pending f e := (keepsKeys_step f e).hs

/-- A frame a call returns carries the counter of the seal the call made. -/
theorem sealedFrame_used {e : FspSessionEvent} (h : sealedFrame S f e = some frame) :
    (used S f e).map Prod.snd = some (frameCounter frame) := by
  cases e with
  | encryptMessage msgType payload flags coords nowMs =>
    have hwp := @wp_encryptMessage_seals S f payload msgType flags nowMs coords
    change (Except.toOption _).map Prod.fst = some frame at h
    show (Except.toOption _).map Prod.snd = _
    cases hrun : (encryptMessage S msgType payload flags coords nowMs).run f with
    | ok frame' f' =>
      obtain ⟨-, hc, key, hcall⟩ := (wp_of_ok hrun).1 hwp
      rw [call_of_ok hrun] at h
      cases h
      rw [hcall, hc]
      rfl
    | error e f' =>
      rw [call, hrun] at h
      cases h
  | _ => cases h

theorem new_fresh {oid : Nat} {identity : FipsIdentity} {role : Role} {remotePubkey ephemeralOverride : Option Bytes}
    {localEpoch : Bytes} {strictClient : Bool}
    (h : FspSession.new S oid identity role remotePubkey ephemeralOverride localEpoch strictClient = .ok f) :
    (sealer S).Fresh f := by
  unfold FspSession.new at h
  split at h
  · cases h
  · obtain ⟨hs, -, h⟩ := except_bind_eq_ok.1 h
    cases h
    exact fun _ => rfl

end FspSession

/-! ### No nonce is used twice -/

/-- The seals of a run: the frames carry increasing counters below the reserved one, in the order of the seals; the
keys are installed at most once; no two seals share key and nonce. -/
structure SealsOnce {σ ε : Type} (E : Sealer σ ε (Option CipherState × Option CipherState) Bytes)
    (sealedFrame : σ → ε → Option Bytes) (frameCounter : Bytes → Nat) (s : σ) (es : List ε) : Prop where
  carried : ((E.outputs sealedFrame s es).map frameCounter).Sublist ((E.log s es).map Prod.snd)
  increasing : ((E.outputs sealedFrame s es).map frameCounter).Pairwise (· < ·)
  bound : ∀ frame ∈ E.outputs sealedFrame s es, frameCounter frame < 2 ^ 64 - 1
  installs : E.installs s es ≤ 1
  nonces : ((E.log s es).map fun u => (u.1, noiseNonce u.2)).Nodup

theorem SealsOnce.of_lawful {σ ε : Type} {E : Sealer σ ε (Option CipherState × Option CipherState) Bytes}
    {sealedFrame : σ → ε → Option Bytes} {frameCounter : Bytes → Nat} (h : E.Lawful) (hlimit : E.limit = maxNonce)
    (hout : ∀ s e frame, sealedFrame s e = some frame → (E.used s e).map Prod.snd = some (frameCounter frame))
    (s : σ) (es : List ε) : SealsOnce E sealedFrame frameCounter s es := by
  have hcarried := Sealer.outputs_sublist hout s es
  have hlog := h.log_increasing s es
  have hbound {u : Bytes × Nat} (hu : u ∈ E.log s es) : u.2 < 2 ^ 64 - 1 := by
    have hlt := h.lt_limit es hu
    rw [hlimit] at hlt
    exact hlt
  refine ⟨hcarried, ?_, fun frame hframe => ?_, h.installs_le_one s es, ?_⟩
  · exact (List.pairwise_map.2 hlog).sublist hcarried
  · obtain ⟨u, hu, hcounter⟩ := List.mem_map.1 (hcarried.subset (List.mem_map_of_mem hframe))
    rw [← hcounter]
    exact hbound hu
  · refine List.pairwise_map.2 (hlog.imp_of_mem fun {u v} hu hv hlt heq => ?_)
    have hu64 := hbound hu
    have hv64 := hbound hv
    have hsame := noiseNonce_inj (by omega) (by omega) (congrArg Prod.snd heq)
    omega

/-- No link and no session uses a key and a nonce for two seals, whatever calls are made on it. -/
theorem nonces_unique (S : Suite) :
    (∀ identity remotePubkey role sessionIdx localEpoch ephemeralOverride l,
      FmpLink.new S identity remotePubkey role sessionIdx localEpoch ephemeralOverride = .ok l →
      ∀ es, SealsOnce (FmpLink.sealer S) (FmpLink.sealedFrame S) FmpLink.frameCounter l es) ∧
    (∀ oid identity role remotePubkey ephemeralOverride localEpoch strictClient f,
      FspSession.new S oid identity role remotePubkey ephemeralOverride localEpoch strictClient = .ok f →
      ∀ es, SealsOnce (FspSession.sealer S) (FspSession.sealedFrame S) FspSession.frameCounter f es) ∧
    (∀ n, (noiseNonce n).length = 12) ∧
    ∀ m n, m < 2 ^ 64 → n < 2 ^ 64 → noiseNonce m = noiseNonce n → m = n := by
  refine ⟨?_, ?_, length_noiseNonce, fun m n => noiseNonce_inj⟩
  · intro _ _ _ _ _ _ l _ es
    refine .of_lawful (FmpLink.sealer_lawful S) rfl (fun l e frame h => ?_) l es
    show (FmpLink.used S l e).map Prod.snd = _
    rw [← FmpLink.sealedFrame_eq, h]
    rfl
  · intro _ _ _ _ _ _ _ f _ es
    exact .of_lawful (FspSession.sealer_lawful S) rfl (fun f e frame h => FspSession.sealedFrame_used h) f es

theorem toyResponder_isSome :
    (FmpLink.new toySuite (toyIdentity 2) none .responder 9 (List.replicate 8 2) none).toOption.isSome = true := by
  decide +kernel

/-- The second Msg1 repeats the first, and the message type 256 makes the second sealing throw. -/
theorem nonces_unique_toy : ∃ h l es, FmpChannel.toyHandshake = .ok h ∧
    FmpLink.new toySuite (toyIdentity 2) none .responder 9 (List.replicate 8 2) none = .ok l ∧
    es = [.encryptOutgoing [1] 16 5, .handleMsg1 h.msg1 (List.replicate 32 12) 5, .encryptOutgoing [1] 16 6,
      .encryptOutgoing [1] 256 7, .handleMsg1 h.msg1 (List.replicate 32 13) 8, .encryptOutgoing [1] 16 9, .close,
      .encryptOutgoing [2] 16 10] ∧
    ((FmpLink.sealer toySuite).outputs (FmpLink.sealedFrame toySuite) l es).map FmpLink.frameCounter = [0, 2] ∧
    SealsOnce (FmpLink.sealer toySuite) (FmpLink.sealedFrame toySuite) FmpLink.frameCounter l es := by
  refine ⟨_, _, _, eq_ok_get FmpChannel.toyHandshake_isSome, eq_ok_get toyResponder_isSome, rfl, by decide +kernel, ?_⟩
  exact (nonces_unique toySuite).1 _ _ _ _ _ _ _ (eq_ok_get toyResponder_isSome) _

end Fips
