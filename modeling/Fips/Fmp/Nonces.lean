import Fips.Fmp.Channel
import Fips.Fmp.Rejection
import Fips.Lib.KeyedCounter

/-!
# The nonces of a link

A link as a sealer: it installs its keys when the handshake completes, which ends the Noise state, and no
call brings a Noise state back. `sealCall` is `encryptOutgoing` up to its AEAD call; the counter is taken
before anything that could throw, so a counter that was taken for nothing is not taken again.
-/

namespace Fips
open Exec LittleEndian KeyedCounter

theorem length_noiseNonce (counter : Nat) : (noiseNonce counter).length = 12 := by
  simp [noiseNonce]

theorem noiseNonce_inj {m n : Nat} (hm : m < 2 ^ 64) (hn : n < 2 ^ 64) (h : noiseNonce m = noiseNonce n) : m = n :=
  (@leBytes_inj 8) (by omega) (by omega) (List.append_cancel_left h)

namespace FmpLink
variable {S : Suite} {l : FmpLink} {payload packet random frame : Bytes} {msgType : Nat} {nowMs : ℚ}

/-- `encryptOutgoing` up to its AEAD call: the key and the counter it seals under. -/
def sealCall (S : Suite) (payload : Bytes) (msgType : Nat) (nowMs : ℚ) (l : FmpLink) : Except String (Bytes × Nat) := do
  match l.state, l.tx, l.remoteSessionIdx with
  | .established, some tx, some remoteSessionIdx =>
    if l.txCounter ≥ maxNonce then throw "FMP nonce exhausted"
    let inner ← encodeFmpInner ⟨toU32 (nowMs - l.sessionStartMs), msgType, payload⟩
    let aad ← encodeFmpEstablishedHeader 0 remoteSessionIdx l.txCounter inner.length
    let key ← tx.getKey
    let _ ← aeadSeal S key l.txCounter inner aad
    return (key, l.txCounter)
  | _, _, _ => throw "FMP link not established"

/-- The counter in the header of a sealed frame. -/
def frameCounter (frame : Bytes) : Nat := leNat ((frame.drop 8).take 8)

theorem frameCounter_header {flags idx counter payloadLen : Nat} {rest : Bytes} (hc : counter < 2 ^ 64) :
    frameCounter (fmpHeaderBytes flags idx counter payloadLen ++ rest) = counter := by
  have hsplit : fmpHeaderBytes flags idx counter payloadLen ++ rest =
      (prefixBytes 0 flags payloadLen ++ leBytes 4 idx) ++ (leBytes 8 counter ++ rest) := by
    simp [fmpHeaderBytes]
  rw [frameCounter, hsplit, List.drop_left' (by simp), List.take_left' (by simp), leNat_leBytes (by omega)]

/-- It is the counter the receiver decodes. -/
theorem frameCounter_of_decode {est : FmpEstablished} (h : decodeFmpEstablished frame = .ok est) :
    frameCounter frame = est.counter := by
  obtain ⟨-, -, hc, -, -, hbytes⟩ := decodeFmpEstablished_eq_ok h
  rw [hbytes]
  exact frameCounter_header hc

/-- A call that seals takes one counter and carries it in its frame; one that throws made no seal. -/
theorem wp_encryptOutgoing_seals :
    wp (encryptOutgoing S payload msgType nowMs)
      (fun frame l' => l' = { l with txCounter := l.txCounter + 1 } ∧ frameCounter frame = l.txCounter ∧
        ∃ key, l.sealCall S payload msgType nowMs = .ok (key, l.txCounter))
      (fun e l' => (l' = l ∨ l' = { l with txCounter := l.txCounter + 1 }) ∧
        l.sealCall S payload msgType nowMs = .error e) l := by
  unfold encryptOutgoing
  simp only [wp_bind, wp_get]
  split
  case h_2 hclosed =>
    refine ⟨.inl rfl, ?_⟩
    unfold sealCall
    split
    · exact (hclosed _ _ ‹_› ‹_› ‹_›).elim
    · rfl
  case h_1 tx idx hstate htx hidx =>
    by_cases hn : l.txCounter ≥ maxNonce
    · simp only [hn, if_true, wp_bind, wp_throw]
      refine ⟨.inl trivial, ?_⟩
      simp only [sealCall, hstate, htx, hidx, hn, if_true]
      rfl
    · have hcall : l.sealCall S payload msgType nowMs = (do
          let inner ← encodeFmpInner ⟨toU32 (nowMs - l.sessionStartMs), msgType, payload⟩
          let aad ← encodeFmpEstablishedHeader 0 idx l.txCounter inner.length
          let key ← tx.getKey
          let _ ← aeadSeal S key l.txCounter inner aad
          return (key, l.txCounter)) := by
        simp only [sealCall, hstate, htx, hidx, hn, if_false]
      rw [hcall]
      simp only [hn, if_false, wp_bind, wp_set, wp_lift]
      refine ⟨fun inner hinner => ?_, fun e he => ⟨.inr trivial, by rw [he]; rfl⟩⟩
      rw [hinner, ok_bind]
      refine ⟨fun aad haad => ?_, fun e he => ⟨.inr trivial, by rw [he]; rfl⟩⟩
      rw [haad, ok_bind]
      obtain ⟨-, hc, -, rfl⟩ := encodeFmpEstablishedHeader_eq_ok (by omega) haad
      cases hkey : tx.getKey with
      | error e =>
        refine ⟨fun _ hok => ?_, fun e' he => ?_⟩
        · cases hok
        · cases he
          exact ⟨.inr trivial, rfl⟩
      | ok key =>
        simp only [ok_bind]
        refine ⟨fun ciphertext hct => ⟨fun frame hframe => ?_, fun e he => ?_⟩, fun e he => ⟨.inr trivial, by rw [he]; rfl⟩⟩
        · rw [hct]
          rw [encodeFmpEstablished, haad, ok_bind] at hframe
          cases hframe
          exact ⟨trivial, frameCounter_header hc, key, rfl⟩
        · rw [encodeFmpEstablished, haad] at he
          cases he

theorem sealCall_eq_ok {key : Bytes} {n : Nat} (h : l.sealCall S payload msgType nowMs = .ok (key, n)) :
    keyOf l.tx = some key ∧ n = l.txCounter ∧ l.txCounter < maxNonce := by
  unfold sealCall at h
  split at h
  case h_2 => cases h
  case h_1 tx idx hstate htx hidx =>
    split at h
    · cases h
    rename_i hn
    obtain ⟨inner, -, h⟩ := except_bind_eq_ok.1 h
    obtain ⟨aad, -, h⟩ := except_bind_eq_ok.1 h
    obtain ⟨key', hkey, h⟩ := except_bind_eq_ok.1 h
    obtain ⟨ct, -, h⟩ := except_bind_eq_ok.1 h
    cases h
    rw [htx]
    unfold CipherState.getKey at hkey
    refine ⟨?_, rfl, not_le.1 hn⟩
    show tx.key = some key
    cases hk : tx.key with
    | none => rw [hk] at hkey; cases hkey
    | some k => rw [hk] at hkey; cases hkey; rfl

/-! ### What a call does to the keys -/

/-- A call keeps the traffic keys and the counter, or completes the handshake and ends the Noise state. -/
structure KeepsKeys (l l' : FmpLink) : Prop where
  counter : l.txCounter ≤ l'.txCounter
  hs : l'.hs.isSome = true → l.hs.isSome = true
  keys : (l'.tx, l'.rx) = (l.tx, l.rx) ∨ l.hs.isSome = true ∧ l'.hs = none
  role : l'.role = l.role
  remotePubkey : l.remotePubkey.isSome = true → l'.remotePubkey.isSome = true

theorem KeepsKeys.refl (l : FmpLink) : KeepsKeys l l := ⟨le_rfl, id, .inl rfl, rfl, id⟩

/-- A handshake in progress, whose keys are not touched yet. -/
structure Underway (l₀ l : FmpLink) : Prop where
  started : l₀.hs.isSome = true
  counter : l₀.txCounter ≤ l.txCounter
  keys : (l.tx, l.rx) = (l₀.tx, l₀.rx)
  role : l.role = l₀.role
  remotePubkey : l₀.remotePubkey.isSome = true → l.remotePubkey.isSome = true

theorem Underway.keepsKeys {l₀ : FmpLink} (h : Underway l₀ l) : KeepsKeys l₀ l :=
  ⟨h.counter, fun _ => h.started, .inl h.keys, h.role, h.remotePubkey⟩

theorem isSome_of_not_isNone {hs : Option NoiseHandshake} (h : ¬hs.isNone = true) : hs.isSome = true := by
  rw [Option.isSome_iff_ne_none, ne_eq, ← Option.isNone_iff_eq_none]
  exact h

theorem underway_self (h : ¬l.hs.isNone = true) : Underway l l := ⟨isSome_of_not_isNone h, le_rfl, rfl, rfl, id⟩

theorem wp_onHs_underway {l₀ : FmpLink} {α : Type} {x : EStateM String NoiseHandshake α} {Q : α → FmpLink → Prop}
    (h : Underway l₀ l) (hQ : ∀ a hs, Underway l₀ { l with hs := some hs } → Q a { l with hs := some hs }) :
    wp (onHs x) Q (fun _ => KeepsKeys l₀) l := by
  have hnext (hs : NoiseHandshake) : Underway l₀ { l with hs := some hs } :=
    ⟨h.started, h.counter, h.keys, h.role, h.remotePubkey⟩
  exact wp_onHs_any (fun _ => h.keepsKeys) (fun a hs => hQ a hs (hnext hs)) fun _ hs => (hnext hs).keepsKeys

theorem wp_finalize_underway {l₀ : FmpLink} (h : Underway l₀ l) {Q : Unit → FmpLink → Prop}
    (hQ : ∀ l', KeepsKeys l₀ l' → Q () l') : wp (finalize S nowMs) Q (fun _ => KeepsKeys l₀) l :=
  wp_finalize (fun _ => h.keepsKeys) fun _ _ => hQ _ ⟨h.counter, nofun, .inr ⟨h.started, rfl⟩, h.role, h.remotePubkey⟩

theorem buildMsg1_keepsKeys : wp (buildMsg1 S random) (fun _ => KeepsKeys l) (fun _ => KeepsKeys l) l := by
  unfold buildMsg1
  simp only [wp_bind, wp_get, requireHs, wp_ite, wp_throw, wp_pure, wp_modify]
  refine ⟨fun _ => .refl l, fun _ => ⟨fun _ => .refl l, fun _ => ⟨fun _ => .refl l, fun hhs => ?_⟩⟩⟩
  obtain ⟨h₁, h₂, h₃, h₄, h₅⟩ := underway_self hhs
  refine wp_onHs_underway ⟨h₁, h₂, h₃, h₄, h₅⟩ fun msg hs h => ?_
  simp only [wp_ite, wp_bind, wp_throw, wp_lift]
  exact ⟨fun _ => h.keepsKeys, fun _ => ⟨fun _ _ => h.keepsKeys, fun _ _ => h.keepsKeys⟩⟩

theorem handleMsg1_keepsKeys : wp (handleMsg1 S packet random nowMs) (fun _ => KeepsKeys l) (fun _ => KeepsKeys l) l := by
  unfold handleMsg1
  simp only [wp_bind, wp_get, requireHs, wp_ite, wp_throw, wp_pure, wp_lift]
  refine ⟨fun _ => .refl l, fun _ => ⟨fun _ => ⟨fun _ _ => .refl l, fun _ _ => .refl l⟩, fun _ => ⟨fun _ => .refl l,
    fun hhs => ⟨fun msg1 _ => ?_, fun _ _ => .refl l⟩⟩⟩⟩
  refine wp_onHs_underway (underway_self hhs) fun payload hs₁ h₁ => ?_
  simp only [wp_ite, wp_bind, wp_throw, wp_modify, wp_get]
  refine ⟨fun _ => h₁.keepsKeys, fun _ => ?_⟩
  cases (some hs₁).bind NoiseHandshake.getRemoteStatic with
  | none => exact ⟨h₁.counter, fun _ => h₁.started, .inl h₁.keys, h₁.role, h₁.remotePubkey⟩
  | some rs =>
    simp only [wp_bind, wp_modify]
    refine wp_onHs_underway ⟨h₁.started, h₁.counter, h₁.keys, h₁.role, fun _ => rfl⟩ fun msg hs₂ h₂ => ?_
    simp only [wp_ite, wp_bind, wp_throw, wp_lift, wp_modify]
    refine ⟨fun _ => h₂.keepsKeys, fun _ => ⟨fun reply _ => ?_, fun _ _ => h₂.keepsKeys⟩⟩
    refine wp_finalize_underway ?_ fun l' h => wp_pure.2 h
    exact ⟨h₂.started, h₂.counter, h₂.keys, h₂.role, h₂.remotePubkey⟩

theorem handleMsg2_keepsKeys : wp (handleMsg2 S packet nowMs) (fun _ => KeepsKeys l) (fun _ => KeepsKeys l) l := by
  unfold handleMsg2
  simp only [wp_bind, wp_get, requireHs, wp_ite, wp_throw, wp_pure, wp_lift]
  refine ⟨fun _ => .refl l, fun _ => ⟨fun _ => ⟨fun _ => .refl l, fun _ => .refl l⟩, fun _ => ⟨fun _ => .refl l, fun hhs =>
    ⟨fun msg2 _ => ⟨fun _ => .refl l, fun _ => ?_⟩, fun _ _ => .refl l⟩⟩⟩⟩
  refine wp_onHs_underway (underway_self hhs) fun payload hs₁ h₁ => ?_
  simp only [wp_ite, wp_bind, wp_throw, wp_modify]
  refine ⟨fun _ => h₁.keepsKeys, fun _ => ?_⟩
  refine wp_finalize_underway ?_ fun l' h => wp_pure.2 h
  exact ⟨h₁.started, h₁.counter, h₁.keys, h₁.role, h₁.remotePubkey⟩

theorem decryptIncoming_keepsKeys :
    wp (decryptIncoming S packet nowMs) (fun _ => KeepsKeys l) (fun _ => KeepsKeys l) l := by
  unfold decryptIncoming
  simp only [wp_bind, wp_get]
  have hsame {w : ReplayWindow} {r : FmpReceiverReports} : KeepsKeys l { l with rxReplay := w, receiverReports := r } :=
    ⟨le_rfl, id, .inl rfl, rfl, id⟩
  split
  · simp only [wp_ite, wp_bind, wp_throw, wp_lift, wp_modify, wp_pure]
    exact ⟨fun _ _ => ⟨fun _ => .refl l, fun _ => ⟨fun _ => .refl l, fun _ => ⟨fun _ _ => ⟨fun _ _ =>
      ⟨fun _ _ => hsame, fun _ _ => hsame⟩, fun _ _ => .refl l⟩, fun _ _ => .refl l⟩⟩⟩, fun _ _ => .refl l⟩
  · exact .refl l

/-- What one call does to the keys. -/
theorem keepsKeys_step (l : FmpLink) (e : FmpLinkEvent) : KeepsKeys l (l.step S e) := by
  cases e with
  | buildMsg1 random => exact wp_after.2 buildMsg1_keepsKeys
  | handleMsg1 packet random nowMs => exact wp_after.2 handleMsg1_keepsKeys
  | handleMsg2 packet nowMs => exact wp_after.2 handleMsg2_keepsKeys
  | encryptOutgoing payload msgType nowMs =>
    have hnext : KeepsKeys l { l with txCounter := l.txCounter + 1 } :=
      ⟨Nat.le_succ _, id, .inl rfl, rfl, id⟩
    refine wp_after.2 (wp_mono wp_encryptOutgoing_seals (fun _ l' h => ?_) fun _ l' h => ?_)
    · rw [h.1]
      exact hnext
    · rcases h.1 with h | h
      · rw [h]
        exact .refl l
      · rw [h]
        exact hnext
  | decryptIncoming packet nowMs => exact wp_after.2 decryptIncoming_keepsKeys
  | receiverReportFor senderReport nowMs =>
    simp only [FmpLink.step, receiverReportFor]
    split
    · exact .refl l
    · exact ⟨le_rfl, id, .inl rfl, rfl, id⟩
  | close => exact ⟨le_rfl, id, .inl rfl, rfl, id⟩

/-! ### The link as a sealer -/

def used (S : Suite) (l : FmpLink) : FmpLinkEvent → Option (Bytes × Nat)
  | .encryptOutgoing payload msgType nowMs => (l.sealCall S payload msgType nowMs).toOption
  | _ => none

/-- The frame a call returns, if it seals one. -/
def sealedFrame (S : Suite) (l : FmpLink) : FmpLinkEvent → Option Bytes
  | .encryptOutgoing payload msgType nowMs => (call (encryptOutgoing S payload msgType nowMs) l).toOption.map Prod.fst
  | _ => none

def sealer (S : Suite) : Sealer FmpLink FmpLinkEvent (Option CipherState × Option CipherState) Bytes where
  step := step S
  pending l := l.hs.isSome
  keys l := (l.tx, l.rx)
  blank := (none, none)
  sealKey keys := keyOf keys.1
  counter := txCounter
  limit := maxNonce
  used := used S

theorem used_eq_some {e : FmpLinkEvent} {key : Bytes} {n : Nat} (h : used S l e = some (key, n)) :
    keyOf l.tx = some key ∧ n = l.txCounter ∧ n < maxNonce ∧ (l.step S e).txCounter = l.txCounter + 1 := by
  cases e with
  | encryptOutgoing payload msgType nowMs =>
    have hcall : l.sealCall S payload msgType nowMs = .ok (key, n) := mem_toOption.1 h
    obtain ⟨hkey, hn, hlt⟩ := sealCall_eq_ok hcall
    refine ⟨hkey, hn, hn ▸ hlt, ?_⟩
    refine (wp_after (P := fun l' : FmpLink => l'.txCounter = l.txCounter + 1)).2
      (wp_mono wp_encryptOutgoing_seals (fun _ l' h' => ?_) fun e l' h' => ?_)
    · rw [h'.1]
    · rw [hcall] at h'
      cases h'.2
  | _ => cases h

theorem sealer_lawful (S : Suite) : (sealer S).Lawful where
  blank := rfl
  counter_le l e := (keepsKeys_step l e).counter
  used_key l e key n h := (used_eq_some h).1
  used_counter l e key n h := by
    obtain ⟨-, hn, hlt, hnext⟩ := used_eq_some h
    refine ⟨hn, hlt, ?_⟩
    show n < (l.step S e).txCounter
    omega
  keys l e := by
    rcases (keepsKeys_step (S := S) l e).keys with h | ⟨h, h'⟩
    · exact .inl h
    · exact .inr (.inr ⟨h, by show (l.step S e).hs.isSome = false; rw [h']; rfl⟩)
  pending l e := (keepsKeys_step l e).hs

/-- A call returns a frame exactly when it makes a seal, and the frame carries the counter of the seal. -/
theorem sealedFrame_eq (S : Suite) (l : FmpLink) (e : FmpLinkEvent) :
    (sealedFrame S l e).map frameCounter = (used S l e).map Prod.snd := by
  cases e with
  | encryptOutgoing payload msgType nowMs =>
    show (Option.map Prod.fst _).map frameCounter = (Except.toOption _).map Prod.snd
    have hwp := @wp_encryptOutgoing_seals S l payload msgType nowMs
    cases hrun : (encryptOutgoing S payload msgType nowMs).run l with
    | ok frame l' =>
      obtain ⟨-, hc, key, hcall⟩ := (wp_of_ok hrun).1 hwp
      rw [call_of_ok hrun, hcall]
      exact congrArg some hc
    | error e l' =>
      have hcall := ((wp_of_error hrun).1 hwp).2
      rw [hcall, call, hrun]
      rfl
  | _ => rfl

theorem new_fresh {identity : FipsIdentity} {remotePubkey ephemeralOverride : Option Bytes} {role : Role}
    {sessionIdx : Nat} {localEpoch : Bytes}
    (h : FmpLink.new S identity remotePubkey role sessionIdx localEpoch ephemeralOverride = .ok l) :
    (sealer S).Fresh l := by
  unfold FmpLink.new at h
  split at h
  · cases h
  · obtain ⟨hs, -, h⟩ := except_bind_eq_ok.1 h
    cases h
    exact fun _ => rfl

end FmpLink

end Fips
