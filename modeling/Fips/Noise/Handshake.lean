import Fips.Noise.SymmetricState

/-!
# `noise/handshake.ts`: the IK and XK handshakes

One method per source method. `writeMessage` draws its ephemeral from the argument `random` (the 32
bytes `randomBytes(32)` returns) unless the constructor was given one. A throw keeps what the method
had already written, except that `readMessage` restores the symmetric state, the remote keys and the
step.
-/

namespace Fips
open Exec

inductive NoisePattern
  | IK
  | XK
deriving DecidableEq

inductive Role
  | initiator
  | responder
deriving DecidableEq

inductive Token
  | e
  | s
  | ee
  | es
  | se
  | ss
deriving DecidableEq

structure KeyPair where
  priv : Bytes
  pub : Bytes
deriving DecidableEq

def deriveKeyPair (S : Suite) (priv : Bytes) : Except String KeyPair := do
  return ⟨priv, ← S.getPublicKey priv⟩

def genKeyPair (S : Suite) (override : Option Bytes) (random : Bytes) : Except String KeyPair :=
  match override with
  | some priv =>
    if priv.length ≠ 32 then .error "ephemeral override must be 32 bytes" else deriveKeyPair S priv
  | none => deriveKeyPair S random

def protocolName : NoisePattern → String
  | .IK => "Noise_IK_secp256k1_ChaChaPoly_SHA256"
  | .XK => "Noise_XK_secp256k1_ChaChaPoly_SHA256"

structure NoiseHandshake where
  pattern : NoisePattern
  role : Role
  ss : SymmetricState
  s : KeyPair
  e : Option KeyPair
  rs : Option Bytes
  re : Option Bytes
  ephemeralOverride : Option Bytes
  step : Nat
deriving DecidableEq

namespace NoiseHandshake

/-- Both ends hash the responder's static with parity byte `0x02`. -/
def normalized (responderStatic : Bytes) : Bytes := responderStatic.set 0 0x02

def new (S : Suite) (pattern : NoisePattern) (role : Role) (identity : FipsIdentity)
    (remoteStatic ephemeralOverride : Option Bytes) : Except String NoiseHandshake := do
  let s ← deriveKeyPair S identity.secretKey
  let ss := SymmetricState.new S (protocolName pattern)
  let responderStatic := if role = .responder then some s.pub else remoteStatic
  match responderStatic with
  | none => throw "noise IK/XK initiator must know responder's static pubkey"
  | some responderStatic =>
    return ⟨pattern, role, ss.mixHash S (normalized responderStatic), s, none, remoteStatic, none,
      ephemeralOverride, 0⟩

def getHandshakeHash (hs : NoiseHandshake) : Bytes := hs.ss.h

def getRemoteStatic (hs : NoiseHandshake) : Option Bytes := hs.rs

def tokensForStep (hs : NoiseHandshake) (step : Nat) : Except String (List Token) :=
  match hs.pattern, step with
  | .IK, 0 => .ok [.e, .es, .s, .ss]
  | .IK, 1 => .ok [.e, .ee, .se]
  | .XK, 0 => .ok [.e, .es]
  | .XK, 1 => .ok [.e, .ee]
  | .XK, 2 => .ok [.s, .se]
  | .IK, step => .error s!"no tokens for IK step {step}"
  | .XK, step => .error s!"no tokens for XK step {step}"

def isSenderForStep (hs : NoiseHandshake) (step : Nat) : Bool :=
  (step % 2 == 0) == (hs.role == .initiator)

/-- Runs a symmetric-state method on the `ss` field. -/
def onSs {α : Type} (x : EStateM String SymmetricState α) : EStateM String NoiseHandshake α :=
  zoom (·.ss) (fun ss hs => { hs with ss }) x

/-- The reads of `this.e!`, `this.rs!` and `this.re!` throw when the key is not there yet. -/
def require {α : Type} (x : Option α) : Except String α :=
  match x with
  | some a => .ok a
  | none => .error "Cannot read properties of undefined"

/-- The private and public operand of a DH token. For `se` the IK pattern takes the operands of `es`
a second time, as the Rust implementation does. -/
def dhOperands (hs : NoiseHandshake) (tok : Token) : Except String (Bytes × Bytes) :=
  let ephemeralStatic := do return ((← require hs.e).priv, ← require hs.rs)
  let staticEphemeral := do return (hs.s.priv, ← require hs.re)
  match tok with
  | .ee => do return ((← require hs.e).priv, ← require hs.re)
  | .es => if hs.role = .initiator then ephemeralStatic else staticEphemeral
  | .se =>
    if hs.pattern = .IK then if hs.role = .initiator then ephemeralStatic else staticEphemeral
    else if hs.role = .initiator then staticEphemeral else ephemeralStatic
  | .ss => do return (hs.s.priv, ← require hs.rs)
  | .e | .s => .error "unknown token"

def dh (S : Suite) (tok : Token) : EStateM String NoiseHandshake Unit := do
  let (priv, pub) ← lift (dhOperands (← get) tok)
  let shared ← lift (ecdh S priv pub)
  if shared.length ≠ 32 then throw "noise DH must produce 32-byte output"
  onSs (SymmetricState.mixKey S shared)

/-- One token of an outbound message: the bytes it appends. -/
def writeToken (S : Suite) (random : Bytes) (tok : Token) : EStateM String NoiseHandshake Bytes := do
  match tok with
  | .e =>
    let kp ← lift (genKeyPair S (← get).ephemeralOverride random)
    modify ({ · with e := some kp })
    modify fun hs => { hs with ss := hs.ss.mixHash S kp.pub }
    return kp.pub
  | .s => onSs (SymmetricState.encryptAndHash S (← get).s.pub)
  | tok =>
    dh S tok
    return []

def writeTokens (S : Suite) (random : Bytes) : List Token → EStateM String NoiseHandshake Bytes
  | [] => return []
  | tok :: toks => do
    let chunk ← writeToken S random tok
    return chunk ++ (← writeTokens S random toks)

def writeMessage (S : Suite) (random payload : Bytes) : EStateM String NoiseHandshake Bytes := do
  let hs ← get
  let tokens ← lift (hs.tokensForStep hs.step)
  if !hs.isSenderForStep hs.step then throw s!"not our turn to write at step {hs.step}"
  let mut out ← writeTokens S random tokens
  -- an empty payload writes no tag either, as the Rust `write_xk_message_1`
  if payload.length > 0 then
    out := out ++ (← onSs (SymmetricState.encryptAndHash S payload))
  modify fun hs => { hs with step := hs.step + 1 }
  return out

/-- One token of an inbound message: what is left of the message. -/
def readToken (S : Suite) (message : Bytes) (tok : Token) : EStateM String NoiseHandshake Bytes := do
  match tok with
  | .e =>
    if message.length < 33 then throw "noise: short message reading e"
    modify ({ · with re := some (message.take 33) })
    modify fun hs => { hs with ss := hs.ss.mixHash S (message.take 33) }
    return message.drop 33
  | .s =>
    let encLen := if (← get).ss.cipherHasKey then 33 + 16 else 33
    if message.length < encLen then throw "noise: short message reading s"
    let rs ← onSs (SymmetricState.decryptAndHash S (message.take encLen))
    modify ({ · with rs := some rs })
    if rs.length ≠ 33 then throw "noise: decrypted s is wrong length"
    return message.drop encLen
  | tok =>
    dh S tok
    return message

def readTokens (S : Suite) (message : Bytes) : List Token → EStateM String NoiseHandshake Bytes
  | [] => return message
  | tok :: toks => do readTokens S (← readToken S message tok) toks

def readMessageInPlace (S : Suite) (message : Bytes) : EStateM String NoiseHandshake Bytes := do
  let hs ← get
  let tokens ← lift (hs.tokensForStep hs.step)
  if hs.isSenderForStep hs.step then throw s!"not our turn to read at step {hs.step}"
  let remaining ← readTokens S message tokens
  let payload ← if remaining.length > 0 then onSs (SymmetricState.decryptAndHash S remaining) else pure []
  modify fun hs => { hs with step := hs.step + 1 }
  return payload

/-- A failed read must not poison a handshake kept for a retry. -/
def readMessage (S : Suite) (message : Bytes) : EStateM String NoiseHandshake Bytes :=
  onThrow (fun previous hs =>
      { hs with ss := previous.ss, rs := previous.rs, re := previous.re, step := previous.step })
    (readMessageInPlace S message)

/-- `(tx, rx)` of our role. -/
def splitTxRx (S : Suite) (hs : NoiseHandshake) : Except String (CipherState × CipherState) := do
  let (c1, c2) ← hs.ss.split S
  return if hs.role = .initiator then (c1, c2) else (c2, c1)

/-! ### Failed reads -/

/-- Restoring what a failed read restores gives `hs` back. -/
def RestoresTo (hs hs' : NoiseHandshake) : Prop := { hs' with ss := hs.ss, rs := hs.rs, re := hs.re, step := hs.step } = hs

section
variable {S : Suite} {message : Bytes} {hs₀ hs : NoiseHandshake}

theorem RestoresTo.refl (hs : NoiseHandshake) : RestoresTo hs hs := rfl

theorem wp_onSs {α : Type} {x : EStateM String SymmetricState α} {Q : α → NoiseHandshake → Prop}
    {E : String → NoiseHandshake → Prop} (hQ : ∀ a ss, Q a { hs with ss }) (hE : ∀ e ss, E e { hs with ss }) :
    wp (onSs x) Q E hs := by
  unfold onSs
  rw [wp_zoom, wp_iff]
  exact ⟨fun a ss _ => hQ a ss, fun e ss _ => hE e ss⟩

theorem wp_dh {tok : Token} (h : RestoresTo hs₀ hs) :
    wp (dh S tok) (fun _ => RestoresTo hs₀) (fun _ => RestoresTo hs₀) hs := by
  unfold dh
  simp only [wp_bind, wp_get, wp_lift, wp_ite, wp_throw]
  exact ⟨fun _ _ => ⟨fun _ _ => ⟨fun _ => h, fun _ => wp_onSs (fun _ _ => h) (fun _ _ => h)⟩, fun _ _ => h⟩, fun _ _ => h⟩

theorem wp_readToken {tok : Token} (h : RestoresTo hs₀ hs) :
    wp (readToken S message tok) (fun _ => RestoresTo hs₀) (fun _ => RestoresTo hs₀) hs := by
  unfold readToken
  cases tok with
  | e =>
    simp only [wp_bind, wp_ite, wp_throw, wp_modify, wp_pure]
    exact ⟨fun _ => h, fun _ => h⟩
  | s =>
    simp only [wp_bind, wp_get, wp_ite, wp_throw]
    refine ⟨fun _ => h, fun _ => wp_onSs (fun rs ss => ?_) (fun _ _ => h)⟩
    simp only [wp_bind, wp_modify, wp_ite, wp_throw, wp_pure]
    exact ⟨fun _ => h, fun _ => h⟩
  | ee => exact wp_bind.2 (wp_mono (wp_dh h) (fun _ _ => id) (fun _ _ => id))
  | es => exact wp_bind.2 (wp_mono (wp_dh h) (fun _ _ => id) (fun _ _ => id))
  | se => exact wp_bind.2 (wp_mono (wp_dh h) (fun _ _ => id) (fun _ _ => id))
  | ss => exact wp_bind.2 (wp_mono (wp_dh h) (fun _ _ => id) (fun _ _ => id))

theorem wp_readTokens {toks : List Token} (h : RestoresTo hs₀ hs) :
    wp (readTokens S message toks) (fun _ => RestoresTo hs₀) (fun _ => RestoresTo hs₀) hs := by
  induction toks generalizing message hs with
  | nil => exact h
  | cons tok toks ih => exact wp_bind.2 (wp_mono (wp_readToken h) (fun _ _ h' => ih h') (fun _ _ => id))

theorem wp_readMessageInPlace :
    wp (readMessageInPlace S message) (fun _ => RestoresTo hs) (fun _ => RestoresTo hs) hs := by
  unfold readMessageInPlace
  simp only [wp_bind, wp_get, wp_lift, wp_ite, wp_throw]
  refine ⟨fun toks _ => ⟨fun _ => .refl hs, fun _ => ?_⟩, fun _ _ => .refl hs⟩
  refine wp_mono (wp_readTokens (.refl hs)) (fun remaining hs' h => ?_) (fun _ _ => id)
  rw [wp_ite]
  exact ⟨fun _ => wp_bind.2 (wp_onSs (fun _ _ => h) (fun _ _ => h)), fun _ => h⟩

/-- A message that does not authenticate leaves the handshake as it was. -/
theorem readMessage_eq_error {e : String} {hs' : NoiseHandshake} (h : (readMessage S message).run hs = .error e hs') :
    hs' = hs := by
  have hr := @wp_readMessageInPlace S message hs
  unfold readMessage onThrow at h
  simp only [EStateM.run] at h
  unfold wp at hr
  cases hrun : (readMessageInPlace S message).run hs with
  | ok a s' =>
    rw [EStateM.run] at hrun
    simp [hrun] at h
  | error e' s' =>
    simp only [hrun] at hr
    rw [EStateM.run] at hrun
    simp only [hrun, EStateM.Result.error.injEq] at h
    exact h.2.symm.trans hr

end

end NoiseHandshake

end Fips
