import Fips.Fsp.Session

/-!
# What the methods do to a session object

A handshake method either leaves the object alone, or works on a handshake in progress: it may then
throw with the keys untouched, or complete it, which installs the keys and ends the Noise state. Sealing
moves only the counter and opening only the replay window.
-/

namespace Fips
open Exec

namespace FspSession

/-- A handshake in progress that did not complete: everything records depend on is unchanged. -/
structure SameKeys (f f' : FspSession) : Prop where
  oid : f'.oid = f.oid
  role : f'.role = f.role
  state : f'.state = f.state
  hs : f'.hs.isSome = f.hs.isSome
  tx : f'.tx = f.tx
  rx : f'.rx = f.rx
  txCounter : f'.txCounter = f.txCounter
  replay : f'.replay = f.replay
  setup : f'.receivedSessionSetup = f.receivedSessionSetup
  initiator : f.role = .initiator → f'.remotePubkey = f.remotePubkey

/-- A handshake that completed. -/
structure Completes (f f' : FspSession) : Prop where
  oid : f'.oid = f.oid
  role : f'.role = f.role
  state : f'.state = .established
  hs : f'.hs = none
  tx : f'.tx.isSome
  rx : f'.rx.isSome
  txCounter : f'.txCounter = f.txCounter
  replay : f'.replay = f.replay
  setup : f'.receivedSessionSetup = f.receivedSessionSetup

theorem SameKeys.refl (f : FspSession) : SameKeys f f :=
  ⟨rfl, rfl, rfl, rfl, rfl, rfl, rfl, rfl, rfl, fun _ => rfl⟩

variable {S : Suite} {f : FspSession} {frame random : Bytes} {coords : List NodeAddr} {src : Option NodeAddr}
  {nowMs : ℚ}

/-- A SessionSetup the object has answered changes nothing. -/
theorem wp_handleSessionSetup_of_matches (h : f.matchesSessionSetup frame = true) :
    wp (handleSessionSetup S frame random coords src) (fun _ f' => f' = f) (fun _ f' => f' = f) f := by
  have hrec : f.receivedSessionSetup = some frame := by simpa [matchesSessionSetup] using h
  unfold handleSessionSetup
  simp only [wp_bind, wp_get, wp_ite, wp_throw, hrec]
  refine ⟨fun _ => trivial, fun _ => ?_⟩
  cases f.sentSessionAck with
  | none => exact rfl
  | some ack => exact rfl

/-- A Noise method on the state at hand. -/
theorem wp_onHs {α : Type} {x : EStateM String NoiseHandshake α} {Q : α → FspSession → Prop}
    {E : String → FspSession → Prop} (hnone : f.hs = none → E "noise handshake state missing" f)
    (hsome : ∀ hs, f.hs = some hs →
      wp x (fun a hs' => Q a { f with hs := some hs' }) (fun e hs' => E e { f with hs := some hs' }) hs) :
    wp (onHs x) Q E f := wp_zoomSome hnone hsome

/-- A Noise method that may end in any way. -/
theorem wp_onHs_any {α : Type} {x : EStateM String NoiseHandshake α} {Q : α → FspSession → Prop}
    {E : String → FspSession → Prop} (hnone : f.hs = none → E "noise handshake state missing" f)
    (hQ : ∀ a hs, Q a { f with hs := some hs }) (hE : ∀ e hs, E e { f with hs := some hs }) :
    wp (onHs x) Q E f :=
  wp_onHs hnone fun _ _ => wp_of_forall hQ hE

theorem wp_finalize {Q : Unit → FspSession → Prop} {E : String → FspSession → Prop} (hE : ∀ e, E e f)
    (hQ : ∀ tx rx, Q () { f with
      tx := some tx, rx := some rx, sessionStartMs := nowMs, state := .established, hs := none }) :
    wp (finalize S nowMs) Q E f := by
  unfold finalize
  simp only [wp_bind, wp_get]
  cases h : f.hs with
  | none => exact hE _
  | some hs =>
    simp only [wp_bind, wp_lift, wp_modify]
    exact ⟨fun p _ => hQ p.1 p.2, fun e _ => hE e⟩

theorem wp_acceptSessionAck (h : f.hs.isSome) :
    wp (acceptSessionAck S frame random nowMs) (fun _ => Completes f) (fun _ => SameKeys f) f := by
  obtain ⟨hs, hhs⟩ := Option.isSome_iff_exists.1 h
  unfold acceptSessionAck
  simp only [wp_bind, wp_get, requireHs, wp_ite, wp_throw, wp_pure, wp_lift, hhs]
  refine ⟨fun _ => .refl f, fun _ => ⟨fun ack _ => ⟨fun _ => .refl f, fun _ => ?_⟩, fun _ _ => .refl f⟩⟩
  refine wp_onHs_any (fun _ => .refl f) (fun payload hs₁ => ?_) (fun _ _ => by constructor <;> simp [hhs])
  simp only [wp_ite, wp_bind, wp_throw, wp_modify]
  refine ⟨fun _ => by constructor <;> simp [hhs], fun _ => ?_⟩
  refine wp_onHs_any (by rintro ⟨⟩) (fun noiseMsg hs₂ => ?_) (fun _ _ => by constructor <;> simp [hhs])
  simp only [wp_ite, wp_bind, wp_throw, wp_lift, wp_modify]
  refine ⟨fun _ => by constructor <;> simp [hhs], fun _ => ⟨fun reply _ => ?_, fun _ _ => by constructor <;> simp [hhs]⟩⟩
  refine wp_finalize (fun _ => by constructor <;> simp [hhs]) (fun tx rx => ?_)
  simp only [wp_pure]
  constructor <;> rfl

theorem wp_acceptSessionMsg3 (hrole : f.role = .responder) (h : f.hs.isSome) :
    wp (acceptSessionMsg3 S frame nowMs) (fun _ f' => Completes f f' ∧ f'.remotePubkey.isSome) (fun _ => SameKeys f) f := by
  obtain ⟨hs, hhs⟩ := Option.isSome_iff_exists.1 h
  unfold acceptSessionMsg3
  simp only [wp_bind, wp_get, requireHs, wp_ite, wp_throw, wp_pure, wp_lift, hhs]
  refine ⟨fun _ => .refl f, fun _ => ⟨fun msg3 _ => ⟨fun _ => .refl f, fun _ => ?_⟩, fun _ _ => .refl f⟩⟩
  refine wp_onHs_any (fun _ => .refl f) (fun payload hs₁ => ?_) (fun _ _ => by constructor <;> simp [hhs])
  simp only [wp_ite, wp_bind, wp_throw, wp_modify, wp_get]
  refine ⟨fun _ => by constructor <;> simp [hhs], fun _ => ?_⟩
  cases hrs : (some hs₁).bind NoiseHandshake.getRemoteStatic with
  | none => constructor <;> simp [hhs]
  | some rs =>
    simp only [wp_bind, wp_modify]
    exact wp_finalize (fun _ => by constructor <;> simp [hhs, hrole]) (fun tx rx => ⟨by constructor <;> rfl, rfl⟩)

/-- Without a Noise state the handshake methods change nothing. -/
theorem wp_handleSessionAck_of_hs_none (h : f.hs = none) :
    wp (handleSessionAck S frame random nowMs) (fun _ f' => f' = f ∧ f.receivedSessionAck.isSome) (fun _ f' => f' = f) f := by
  unfold handleSessionAck acceptSessionAck
  simp only [wp_bind, wp_get, wp_ite, wp_throw]
  refine ⟨fun _ => trivial, fun _ => ?_⟩
  cases hr : f.receivedSessionAck with
  | none => simp [requireHs, h]
  | some received =>
    cases f.sentSessionMsg3 with
    | none => exact rfl
    | some msg3 =>
      simp only [wp_ite, wp_pure, wp_throw]
      exact ⟨fun _ => ⟨trivial, rfl⟩, fun _ => trivial⟩

/-- Only an initiator reads a SessionAck, and it keeps the key it was made for. -/
theorem wp_handleSessionAck_remotePubkey :
    wp (handleSessionAck S frame random nowMs) (fun _ f' => f.role = .initiator ∧ f'.remotePubkey = f.remotePubkey)
      (fun _ _ => True) f := by
  unfold handleSessionAck
  simp only [wp_bind, wp_get, wp_ite, wp_throw, implies_true, true_and]
  intro hrole
  have hrole : f.role = .initiator := not_not.1 hrole
  cases f.receivedSessionAck with
  | some received =>
    cases f.sentSessionMsg3 with
    | none => exact trivial
    | some msg3 =>
      simp only [wp_ite, wp_pure, wp_throw, implies_true, and_true]
      exact fun _ => hrole
  | none =>
    unfold acceptSessionAck
    simp only [wp_bind, wp_get, requireHs, wp_ite, wp_throw, wp_pure, wp_lift, implies_true, true_and, and_true]
    intro _ ack _ _
    refine wp_onHs_any (fun _ => trivial) (fun payload hs₁ => ?_) (fun _ _ => trivial)
    simp only [wp_ite, wp_bind, wp_throw, wp_modify, implies_true, true_and]
    intro _
    refine wp_onHs_any (fun _ => trivial) (fun noiseMsg hs₂ => ?_) (fun _ _ => trivial)
    simp only [wp_ite, wp_bind, wp_throw, wp_lift, wp_modify, implies_true, true_and, and_true]
    intro _ reply _
    refine wp_finalize (fun _ => trivial) (fun tx rx => ?_)
    simp only [wp_pure]
    exact ⟨hrole, trivial⟩

/-- Everything `handleSessionAck` does: it completes a handshake in progress, answers a duplicate, or
throws. -/
theorem wp_handleSessionAck (h : f.hs.isSome) :
    wp (handleSessionAck S frame random nowMs) (fun _ f' => f' = f ∨ Completes f f') (fun _ => SameKeys f) f := by
  unfold handleSessionAck
  simp only [wp_bind, wp_get, wp_ite, wp_throw]
  refine ⟨fun _ => .refl f, fun _ => ?_⟩
  cases f.receivedSessionAck with
  | none => exact wp_mono (wp_acceptSessionAck h) (fun _ _ => .inr) (fun _ _ => id)
  | some received =>
    cases f.sentSessionMsg3 with
    | none => exact .refl f
    | some msg3 =>
      simp only [wp_ite, wp_pure, wp_throw]
      exact ⟨fun _ => .inl trivial, fun _ => .refl f⟩

theorem wp_handleSessionMsg3_of_hs_none (h : f.hs = none) :
    wp (handleSessionMsg3 S frame nowMs) (fun _ f' => f' = f ∧ f.state = .established) (fun _ f' => f' = f) f := by
  unfold handleSessionMsg3 acceptSessionMsg3
  simp only [wp_bind, wp_get, wp_ite, wp_throw, wp_pure]
  exact ⟨fun _ => trivial, fun _ => ⟨fun hst => ⟨fun _ => ⟨trivial, hst⟩, fun _ => trivial⟩, fun _ => by simp [requireHs, h]⟩⟩

theorem wp_handleSessionMsg3 (h : f.hs.isSome) :
    wp (handleSessionMsg3 S frame nowMs)
      (fun _ f' => f' = f ∧ f.state = .established ∨ Completes f f' ∧ f'.remotePubkey.isSome) (fun _ => SameKeys f) f := by
  unfold handleSessionMsg3
  simp only [wp_bind, wp_get, wp_ite, wp_throw, wp_pure]
  refine ⟨fun _ => .refl f, fun hrole => ⟨fun hst => ⟨fun _ => .inl ⟨trivial, hst⟩, fun _ => .refl f⟩, fun _ => ?_⟩⟩
  exact wp_mono (wp_acceptSessionMsg3 (not_not.1 hrole) h) (fun _ _ => .inr) (fun _ _ => id)

/-! ### Frames a handshake rejects -/

/-- The Noise message a handshake is waiting for: it reads `noiseMsg` without an error. -/
def ReadsNoise (S : Suite) (noiseMsg : Bytes) (f : FspSession) : Prop :=
  ∃ hs payload hs', f.hs = some hs ∧ (NoiseHandshake.readMessage S noiseMsg).run hs = .ok payload hs'

/-- A SessionAck that authenticates, or the one the handshake has been completed by. -/
def AuthenticAck (S : Suite) (frame : Bytes) (f : FspSession) : Prop :=
  f.receivedSessionAck = some frame ∨ ∃ ack, decodeSessionAck frame = .ok ack ∧ f.ReadsNoise S ack.handshakePayload

/-- The same for a SessionMsg3. -/
def AuthenticMsg3 (S : Suite) (frame : Bytes) (f : FspSession) : Prop :=
  f.establishedMsg3 = some frame ∨ ∃ msg3, decodeSessionMsg3 frame = .ok msg3 ∧ f.ReadsNoise S msg3.handshakePayload

theorem wp_onHs_readMessage {noiseMsg : Bytes} {Q : Bytes → FspSession → Prop} {E : String → FspSession → Prop}
    (hE : ∀ e, E e f) (hQ : f.ReadsNoise S noiseMsg → ∀ payload hs, Q payload { f with hs := some hs }) :
    wp (onHs (NoiseHandshake.readMessage S noiseMsg)) Q E f := by
  refine wp_onHs (fun _ => hE _) fun hs hf => ?_
  have hput : { f with hs := some hs } = f := by rw [← hf]
  rw [wp_iff]
  refine ⟨fun payload hs' hrun => hQ ⟨hs, payload, hs', hf, hrun⟩ payload hs', fun e hs' hrun => ?_⟩
  rw [NoiseHandshake.readMessage_eq_error hrun, hput]
  exact hE e

/-- A SessionAck that does not authenticate changes nothing. -/
theorem wp_handleSessionAck_of_not_authentic (h : ¬ f.AuthenticAck S frame) :
    wp (handleSessionAck S frame random nowMs) (fun _ _ => False) (fun _ f' => f' = f) f := by
  unfold handleSessionAck
  simp only [wp_bind, wp_get, wp_ite, wp_throw]
  refine ⟨fun _ => trivial, fun _ => ?_⟩
  cases hr : f.receivedSessionAck with
  | none =>
    unfold acceptSessionAck
    simp only [wp_bind, wp_get, requireHs, wp_ite, wp_throw, wp_pure, wp_lift]
    refine ⟨fun _ => trivial, fun _ => ⟨fun ack hack => ⟨fun _ => trivial, fun _ => ?_⟩, fun _ _ => trivial⟩⟩
    exact wp_onHs_readMessage (fun _ => rfl) (fun hreads => absurd (.inr ⟨ack, hack, hreads⟩) h)
  | some received =>
    cases f.sentSessionMsg3 with
    | none => exact rfl
    | some msg3 =>
      simp only [wp_ite, wp_pure, wp_throw]
      exact ⟨fun heq => h (.inl (heq ▸ hr)), fun _ => trivial⟩

/-- A SessionMsg3 that does not authenticate changes nothing. -/
theorem wp_handleSessionMsg3_of_not_authentic (h : ¬ f.AuthenticMsg3 S frame) :
    wp (handleSessionMsg3 S frame nowMs) (fun _ _ => False) (fun _ f' => f' = f) f := by
  unfold handleSessionMsg3
  simp only [wp_bind, wp_get, wp_ite, wp_throw, wp_pure]
  refine ⟨fun _ => trivial, fun _ => ⟨fun _ => ⟨fun hdup => h (.inl hdup), fun _ => trivial⟩, fun _ => ?_⟩⟩
  unfold acceptSessionMsg3
  simp only [wp_bind, wp_get, requireHs, wp_ite, wp_throw, wp_pure, wp_lift]
  refine ⟨fun _ => trivial, fun _ => ⟨fun msg3 hmsg3 => ⟨fun _ => trivial, fun _ => ?_⟩, fun _ _ => trivial⟩⟩
  exact wp_onHs_readMessage (fun _ => rfl) (fun hreads => absurd (.inr ⟨msg3, hmsg3, hreads⟩) h)

/-! ### Sealing -/

/-- Sealing moves only the counter. -/
theorem wp_encryptMessage {msgType flags : Nat} {payload : Bytes} {cs : Option (List NodeAddr × List NodeAddr)} :
    wp (encryptMessage S msgType payload flags cs nowMs) (fun _ f' => ∃ n, f' = { f with txCounter := n })
      (fun _ f' => ∃ n, f' = { f with txCounter := n }) f := by
  unfold encryptMessage
  simp only [wp_bind, wp_get]
  split
  · simp only [wp_ite, wp_throw, wp_bind, wp_set, wp_lift]
    exact ⟨fun _ => ⟨_, rfl⟩, fun _ => ⟨fun _ => ⟨_, rfl⟩, fun _ => ⟨fun _ _ => ⟨_, rfl⟩, fun _ _ => ⟨_, rfl⟩⟩⟩⟩
  · exact ⟨_, rfl⟩

/-! ### Opening a record -/

/-- The part of `openRecord` that decides: the record and its plaintext, if its counter is fresh and it
opens under the receive key. -/
def authenticate (S : Suite) (packet : Bytes) (f : FspSession) : Except String (FspEstablished × Bytes) :=
  match f.state, f.rx with
  | .established, some rx => do
    let est ← decodeFspEstablished packet
    if !f.replay.check est.counter then throw "FSP replay/duplicate counter"
    let aad ← encodeFspEstablishedHeader est.flags est.counter est.payloadLen
    let plaintext ← aeadOpen S (← rx.getKey) est.counter est.ciphertext aad
    return (est, plaintext)
  | _, _ => throw "FSP not established"

/-- The session once the counter has been taken. -/
def taken (counter : Nat) (f : FspSession) : FspSession := { f with replay := (f.replay.accept counter).2 }

theorem run_openRecord : (openRecord S frame).run f =
    match f.authenticate S frame with
    | .error e => .error e f
    | .ok (est, pt) =>
      match decodeFspInner pt with
      | .error e => .error e (f.taken est.counter)
      | .ok inner => .ok (⟨est.counter, inner.timestamp, pt.length, false⟩, inner) (f.taken est.counter) := by
  unfold openRecord authenticate
  rw [EStateM.run_bind, run_get]
  dsimp only
  cases f.state with
  | established =>
    cases f.rx with
    | none => rfl
    | some rx =>
      simp only [EStateM.run_bind]
      cases decodeFspEstablished frame with
      | error e => rfl
      | ok est =>
        simp only [run_lift_ok, ok_bind]
        cases f.replay.check est.counter with
        | false => rfl
        | true =>
          simp only [Bool.not_true, Bool.false_eq_true, if_false, EStateM.run_bind]
          cases encodeFspEstablishedHeader est.flags est.counter est.payloadLen with
          | error e => rfl
          | ok aad =>
            simp only [run_lift_ok, ok_bind]
            cases rx.getKey with
            | error e => rfl
            | ok key =>
              simp only [ok_bind]
              cases aeadOpen S key est.counter est.ciphertext aad with
              | error e => rfl
              | ok pt =>
                simp only [run_lift_ok, ok_bind, run_modify, pure_eq_ok]
                cases decodeFspInner pt <;> rfl
  | _ => rfl

/-- Opening takes the counter of an authenticated record and changes nothing otherwise. -/
theorem wp_openRecord : wp (openRecord S frame)
    (fun r f' => ∃ est pt, f.authenticate S frame = .ok (est, pt) ∧ decodeFspInner pt = .ok r.2 ∧
      f' = f.taken est.counter)
    (fun e f' => f' = f ∧ f.authenticate S frame = .error e ∨
      ∃ est pt, f.authenticate S frame = .ok (est, pt) ∧ decodeFspInner pt = .error e ∧ f' = f.taken est.counter) f := by
  unfold wp
  rw [run_openRecord]
  cases ha : f.authenticate S frame with
  | error e => exact .inl ⟨rfl, rfl⟩
  | ok r =>
    obtain ⟨est, pt⟩ := r
    dsimp only
    cases hi : decodeFspInner pt with
    | error e => exact .inr ⟨est, pt, rfl, hi, rfl⟩
    | ok inner => exact ⟨est, pt, rfl, hi, rfl⟩

/-- An authenticated record is one the key of the session opens, with a fresh counter. -/
theorem authenticate_eq_ok {est : FspEstablished} {pt : Bytes} (h : f.authenticate S frame = .ok (est, pt)) :
    ∃ rx key aad, f.state = .established ∧ f.rx = some rx ∧ rx.getKey = .ok key ∧
      decodeFspEstablished frame = .ok est ∧ f.replay.check est.counter = true ∧
      encodeFspEstablishedHeader est.flags est.counter est.payloadLen = .ok aad ∧
      aeadOpen S key est.counter est.ciphertext aad = .ok pt := by
  unfold authenticate at h
  split at h
  · rename_i rx hst hrx
    obtain ⟨est', hest, h⟩ := except_bind_eq_ok.1 h
    by_cases hc : f.replay.check est'.counter = true
    · simp only [hc, Bool.not_true, Bool.false_eq_true, if_false] at h
      obtain ⟨aad, haad, h⟩ := except_bind_eq_ok.1 h
      obtain ⟨key, hkey, h⟩ := except_bind_eq_ok.1 h
      obtain ⟨pt', hpt, h⟩ := except_bind_eq_ok.1 h
      cases h
      exact ⟨rx, key, aad, hst, hrx, hkey, hest, hc, haad, hpt⟩
    · simp [hc] at h
  · cases h

/-! ### New objects -/

/-- An object that has not completed a handshake. -/
structure Unkeyed (f : FspSession) (oid : Nat) (role : Role) : Prop where
  oid : f.oid = oid
  role : f.role = role
  rx : f.rx = none
  tx : f.tx = none
  txCounter : f.txCounter = 0
  replay : f.replay = .new
  hs : f.hs.isSome

theorem new_eq_ok {oid : Nat} {identity : FipsIdentity} {role : Role} {remotePubkey eph : Option Bytes}
    {epoch : Bytes} {strict : Bool} (h : new S oid identity role remotePubkey eph epoch strict = .ok f) :
    Unkeyed f oid role ∧ f.state = .init ∧ f.remotePubkey = remotePubkey ∧ f.receivedSessionSetup = none ∧
      f.receivedSessionAck = none := by
  unfold new at h
  by_cases hl : epoch.length = EPOCH_LEN
  · simp only [hl, ne_eq, not_true_eq_false, if_false] at h
    obtain ⟨hs, -, h⟩ := except_bind_eq_ok.1 h
    cases h
    exact ⟨⟨rfl, rfl, rfl, rfl, rfl, rfl, rfl⟩, rfl, rfl, rfl, rfl⟩
  · simp [hl] at h

/-- A fresh responder that answers a SessionSetup remembers it. -/
theorem wp_handleSessionSetup_fresh {oid : Nat} (h : Unkeyed f oid .responder) (hrec : f.receivedSessionSetup = none) :
    wp (handleSessionSetup S frame random coords src)
      (fun _ f' => Unkeyed f' oid .responder ∧ f'.state = .handshaking ∧ f'.remotePubkey = f.remotePubkey ∧
        f'.receivedSessionSetup = some frame) (fun _ _ => True) f := by
  obtain ⟨hs, hhs⟩ := Option.isSome_iff_exists.1 h.hs
  unfold handleSessionSetup
  simp only [wp_bind, wp_get, wp_ite, wp_throw, implies_true, true_and, hrec]
  intro _
  unfold acceptSessionSetup
  simp only [wp_bind, wp_get, requireHs, wp_ite, wp_throw, implies_true, true_and, wp_pure, wp_lift, and_true]
  intro _ setup _ _
  refine wp_onHs_any (fun _ => trivial) (fun payload hs₁ => ?_) (fun _ _ => trivial)
  simp only [wp_ite, wp_bind, wp_throw, implies_true, true_and, wp_modify]
  intro _
  refine wp_onHs_any (fun _ => trivial) (fun noiseMsg hs₂ => ?_) (fun _ _ => trivial)
  simp only [wp_ite, wp_bind, wp_throw, implies_true, true_and, wp_modify, wp_lift, wp_pure, and_true]
  intro _ reply _
  exact ⟨h.oid, h.role, h.rx, h.tx, h.txCounter, h.replay, rfl⟩

/-- Building a SessionSetup, even if it throws, leaves an initiator without keys. -/
theorem wp_buildSessionSetup {oid : Nat} {dest : List NodeAddr} (h : Unkeyed f oid .initiator) :
    wp (buildSessionSetup S random coords dest)
      (fun _ f' => Unkeyed f' oid .initiator ∧ f'.state = .handshaking ∧ f'.remotePubkey = f.remotePubkey ∧
        f'.receivedSessionSetup = f.receivedSessionSetup)
      (fun _ f' => Unkeyed f' oid .initiator ∧ (f'.state = f.state ∨ f'.state = .handshaking) ∧
        f'.remotePubkey = f.remotePubkey ∧ f'.receivedSessionSetup = f.receivedSessionSetup) f := by
  unfold buildSessionSetup
  simp only [wp_bind, wp_get, wp_ite, wp_throw]
  refine ⟨fun _ => ⟨h, .inl trivial, trivial, trivial⟩, fun _ => ?_⟩
  cases hrem : f.remotePubkey with
  | none => exact ⟨h, .inl rfl, hrem, rfl⟩
  | some remotePubkey =>
    simp only [wp_bind, wp_get, requireHs, wp_ite, wp_throw, wp_pure, wp_modify]
    refine ⟨fun _ => ⟨h, .inl trivial, hrem, trivial⟩, fun _ => ?_⟩
    have hkept (hs : NoiseHandshake) : Unkeyed { f with state := .handshaking, hs := some hs } oid .initiator :=
      ⟨h.oid, h.role, h.rx, h.tx, h.txCounter, h.replay, rfl⟩
    refine wp_onHs_any (fun _ => ⟨⟨h.oid, h.role, h.rx, h.tx, h.txCounter, h.replay, h.hs⟩, .inr rfl, hrem, rfl⟩)
      (fun noiseMsg hs => ?_) (fun _ hs => ⟨hkept hs, .inr rfl, hrem, rfl⟩)
    simp only [wp_bind, wp_ite, wp_throw, wp_lift]
    refine ⟨fun _ => ⟨hkept hs, .inr trivial, hrem, trivial⟩, fun _ => ⟨fun _ _ => ⟨fun _ _ => ?_, fun _ _ => ?_⟩,
      fun _ _ => ?_⟩⟩
    · exact ⟨hkept hs, trivial, hrem, trivial⟩
    · exact ⟨hkept hs, .inr trivial, hrem, trivial⟩
    · exact ⟨hkept hs, .inr trivial, hrem, trivial⟩

end FspSession

end Fips
