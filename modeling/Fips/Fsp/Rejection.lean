import Fips.Fmp.Rejection
import Fips.Fsp.Evolution
import Fips.Fsp.Handshake

/-!
# Rejected handshake frames at a session

`handleSessionAck` leaves the session alone whenever it throws. `handleSessionSetup` does so unless the
SessionSetup is read and cannot be answered, and `handleSessionMsg3` unless a SessionMsg3 is read in the place
of the first message.
-/

namespace Fips
open Exec

/-! ### Runs of a session -/

inductive FspSessionEvent
  | buildSessionSetup (random : Bytes) (srcCoords destCoords : List NodeAddr)
  | handleSessionSetup (packet random : Bytes) (localCoords : List NodeAddr) (remoteNodeAddr : Option NodeAddr)
  | handleSessionAck (packet random : Bytes) (nowMs : ℚ)
  | handleSessionMsg3 (packet : Bytes) (nowMs : ℚ)
  | buildMsg1 (random : Bytes)
  | handleMsg1 (packet random : Bytes)
  | handleMsg2 (packet random : Bytes) (nowMs : ℚ)
  | handleMsg3 (packet : Bytes) (nowMs : ℚ)
  | encryptMessage (msgType : Nat) (payload : Bytes) (flags : Nat) (coords : Option (List NodeAddr × List NodeAddr))
    (nowMs : ℚ)
  | openRecord (packet : Bytes)
  | close

namespace FspSession
variable {S : Suite} {f : FspSession} {packet random : Bytes} {nowMs : ℚ}

def step (S : Suite) (f : FspSession) : FspSessionEvent → FspSession
  | .buildSessionSetup random srcCoords destCoords => after (buildSessionSetup S random srcCoords destCoords) f
  | .handleSessionSetup packet random localCoords remoteNodeAddr =>
    after (FspSession.handleSessionSetup S packet random localCoords remoteNodeAddr) f
  | .handleSessionAck packet random nowMs => after (FspSession.handleSessionAck S packet random nowMs) f
  | .handleSessionMsg3 packet nowMs => after (FspSession.handleSessionMsg3 S packet nowMs) f
  | .buildMsg1 random => after (FspSession.buildMsg1 S random) f
  | .handleMsg1 packet random => after (FspSession.handleMsg1 S packet random) f
  | .handleMsg2 packet random nowMs => after (FspSession.handleMsg2 S packet random nowMs) f
  | .handleMsg3 packet nowMs => after (FspSession.handleMsg3 S packet nowMs) f
  | .encryptMessage msgType payload flags coords nowMs =>
    after (FspSession.encryptMessage S msgType payload flags coords nowMs) f
  | .openRecord packet => after (FspSession.openRecord S packet) f
  | .close => f.close

/-- A session with its Noise state, whatever has happened to it. -/
structure Kept (S : Suite) (f : FspSession) : Prop where
  epoch : f.localEpoch.length = 8
  noise : ∀ hs, f.hs = some hs → hs.Sound S ∧ hs.pattern = .XK ∧ hs.role = f.role

theorem new_kept {oid : Nat} {identity : FipsIdentity} {role : Role} {remotePubkey ephemeralOverride : Option Bytes}
    {localEpoch : Bytes} {strictClient : Bool}
    (h : FspSession.new S oid identity role remotePubkey ephemeralOverride localEpoch strictClient = .ok f) : f.Kept S := by
  unfold FspSession.new at h
  split at h
  · cases h
  · rename_i hepoch
    obtain ⟨hs, hnew, h⟩ := Exec.except_bind_eq_ok.1 h
    cases h
    refine ⟨not_not.1 hepoch, fun hs' hhs => ?_⟩
    cases hhs
    unfold NoiseHandshake.new at hnew
    obtain ⟨s, hs', hnew⟩ := Exec.except_bind_eq_ok.1 hnew
    dsimp only at hnew
    split at hnew
    · cases hnew
    · cases hnew
      exact ⟨⟨deriveKeyPair_valid hs', fun hne => absurd rfl hne⟩, rfl, rfl⟩

theorem Kept.setHs {hs hs' : NoiseHandshake} (h : f.Kept S) (hhs : f.hs = some hs)
    (h' : hs'.Sound S ∧ hs'.pattern = hs.pattern ∧ hs'.role = hs.role) : Kept S { f with hs := some hs' } := by
  obtain ⟨-, hpat, hrole⟩ := h.noise hs hhs
  refine ⟨h.epoch, fun hs'' he => ?_⟩
  cases he
  exact ⟨h'.1, h'.2.1.trans hpat, h'.2.2.trans hrole⟩

/-- A Noise method that keeps a sound state of the same party keeps the session. -/
theorem wp_onHs_kept {α : Type} {x : EStateM String NoiseHandshake α} {Q : α → FspSession → Prop}
    {E : String → FspSession → Prop} (h : f.Kept S)
    (hx : ∀ hs : NoiseHandshake, hs.Sound S →
      wp x (fun _ hs' => hs'.Sound S ∧ hs'.pattern = hs.pattern ∧ hs'.role = hs.role)
        (fun _ hs' => hs'.Sound S ∧ hs'.pattern = hs.pattern ∧ hs'.role = hs.role) hs)
    (hnone : f.hs = none → E "noise handshake state missing" f)
    (hQ : ∀ a hs', Kept S { f with hs := some hs' } → Q a { f with hs := some hs' })
    (hE : ∀ e hs', Kept S { f with hs := some hs' } → E e { f with hs := some hs' }) : wp (onHs x) Q E f := by
  refine wp_onHs hnone fun hs hhs => ?_
  exact wp_mono (hx hs (h.noise hs hhs).1) (fun a hs' h' => hQ a hs' (h.setHs hhs h'))
    (fun e hs' h' => hE e hs' (h.setHs hhs h'))

section
variable (hS : S.Lawful)
include hS

theorem wp_read_kept {message : Bytes} {Q : Bytes → FspSession → Prop} (h : f.Kept S)
    (hQ : ∀ a hs', Kept S { f with hs := some hs' } → Q a { f with hs := some hs' }) :
    wp (onHs (NoiseHandshake.readMessage S message)) Q (fun _ => Kept S) f :=
  wp_onHs_kept h (fun _ hs' => NoiseHandshake.wp_readMessage_sound hS message hs') (fun _ => h) hQ (fun _ _ h' => h')

theorem wp_write_kept {payload : Bytes} {Q : Bytes → FspSession → Prop} (h : f.Kept S)
    (hQ : ∀ a hs', Kept S { f with hs := some hs' } → Q a { f with hs := some hs' }) :
    wp (onHs (NoiseHandshake.writeMessage S random payload)) Q (fun _ => Kept S) f :=
  wp_onHs_kept h (fun _ hs' => NoiseHandshake.wp_writeMessage_sound hS hs') (fun _ => h) hQ (fun _ _ h' => h')

theorem buildSessionSetup_kept {srcCoords destCoords : List NodeAddr} (h : f.Kept S) :
    (after (buildSessionSetup S random srcCoords destCoords) f).Kept S := by
  rw [wp_after (P := Kept S)]
  unfold buildSessionSetup
  simp only [wp_bind, wp_get, wp_ite, wp_throw]
  refine ⟨fun _ => h, fun _ => ?_⟩
  cases f.remotePubkey with
  | none => exact h
  | some remotePubkey =>
    simp only [wp_bind, wp_get, requireHs, wp_ite, wp_throw, wp_pure, wp_modify]
    refine ⟨fun _ => h, fun _ => wp_write_kept hS ⟨h.epoch, h.noise⟩ fun msg hs' h' => ?_⟩
    simp only [wp_ite, wp_bind, wp_throw, wp_lift]
    exact ⟨fun _ => h', fun _ => ⟨fun _ _ => ⟨fun _ _ => h', fun _ _ => h'⟩, fun _ _ => h'⟩⟩

theorem handleSessionSetup_kept {localCoords : List NodeAddr} {remoteNodeAddr : Option NodeAddr} (h : f.Kept S) :
    (after (handleSessionSetup S packet random localCoords remoteNodeAddr) f).Kept S := by
  rw [wp_after (P := Kept S)]
  unfold handleSessionSetup
  simp only [wp_bind, wp_get, wp_ite, wp_throw]
  refine ⟨fun _ => h, fun _ => ?_⟩
  cases f.receivedSessionSetup with
  | some received =>
    cases f.sentSessionAck with
    | some ack =>
      simp only [wp_ite, wp_throw, wp_pure]
      exact ⟨fun _ => h, fun _ => h⟩
    | none => exact h
  | none =>
    show wp (acceptSessionSetup S packet random localCoords remoteNodeAddr) _ _ f
    unfold acceptSessionSetup
    simp only [wp_bind, wp_get, requireHs, wp_ite, wp_throw, wp_pure, wp_lift]
    refine ⟨fun _ => h, fun _ => ⟨fun setup _ => ⟨fun _ => h, fun _ => wp_read_kept hS h fun payload hs₁ h₁ => ?_⟩,
      fun _ _ => h⟩⟩
    simp only [wp_ite, wp_bind, wp_throw, wp_modify]
    refine ⟨fun _ => h₁, fun _ => wp_write_kept hS ⟨h₁.epoch, h₁.noise⟩ fun msg hs₂ h₂ => ?_⟩
    simp only [wp_ite, wp_bind, wp_throw, wp_lift, wp_modify, wp_pure]
    exact ⟨fun _ => h₂, fun _ => ⟨fun _ _ => ⟨h₂.epoch, h₂.noise⟩, fun _ _ => h₂⟩⟩

theorem handleSessionAck_kept (h : f.Kept S) : (after (handleSessionAck S packet random nowMs) f).Kept S := by
  rw [wp_after (P := Kept S)]
  unfold handleSessionAck
  simp only [wp_bind, wp_get, wp_ite, wp_throw]
  refine ⟨fun _ => h, fun _ => ?_⟩
  cases f.receivedSessionAck with
  | some received =>
    cases f.sentSessionMsg3 with
    | some msg3 =>
      simp only [wp_ite, wp_throw, wp_pure]
      exact ⟨fun _ => h, fun _ => h⟩
    | none => exact h
  | none =>
    show wp (acceptSessionAck S packet random nowMs) _ _ f
    unfold acceptSessionAck
    simp only [wp_bind, wp_get, requireHs, wp_ite, wp_throw, wp_pure, wp_lift]
    refine ⟨fun _ => h, fun _ => ⟨fun ack _ => ⟨fun _ => h, fun _ => wp_read_kept hS h fun payload hs₁ h₁ => ?_⟩,
      fun _ _ => h⟩⟩
    simp only [wp_ite, wp_bind, wp_throw, wp_modify]
    refine ⟨fun _ => h₁, fun _ => wp_write_kept hS ⟨h₁.epoch, h₁.noise⟩ fun msg hs₂ h₂ => ?_⟩
    simp only [wp_ite, wp_bind, wp_throw, wp_lift, wp_modify]
    refine ⟨fun _ => h₂, fun _ => ⟨fun reply _ => ?_, fun _ _ => h₂⟩⟩
    exact wp_finalize (fun _ => ⟨h₂.epoch, h₂.noise⟩) (fun tx rx => ⟨h₂.epoch, by rintro _ ⟨⟩⟩)

theorem handleSessionMsg3_kept (h : f.Kept S) : (after (handleSessionMsg3 S packet nowMs) f).Kept S := by
  rw [wp_after (P := Kept S)]
  unfold handleSessionMsg3 acceptSessionMsg3
  simp only [wp_bind, wp_get, requireHs, wp_ite, wp_throw, wp_pure, wp_lift]
  refine ⟨fun _ => h, fun _ => ⟨fun _ => ⟨fun _ => h, fun _ => h⟩, fun _ => ⟨fun _ => h, fun _ => ⟨fun msg3 _ =>
    ⟨fun _ => h, fun _ => wp_read_kept hS h fun payload hs₁ h₁ => ?_⟩, fun _ _ => h⟩⟩⟩⟩
  simp only [wp_ite, wp_bind, wp_throw, wp_modify, wp_get]
  refine ⟨fun _ => h₁, fun _ => ?_⟩
  cases (some hs₁).bind NoiseHandshake.getRemoteStatic with
  | none => exact ⟨h₁.epoch, h₁.noise⟩
  | some rs =>
    simp only [wp_bind, wp_modify]
    exact wp_finalize (fun _ => ⟨h₁.epoch, h₁.noise⟩) (fun tx rx => ⟨h₁.epoch, by rintro _ ⟨⟩⟩)

theorem buildMsg1_kept (h : f.Kept S) : (after (buildMsg1 S random) f).Kept S := by
  rw [wp_after (P := Kept S)]
  unfold buildMsg1
  simp only [wp_bind, wp_get, requireHs, wp_ite, wp_throw, wp_pure, wp_modify]
  refine ⟨fun _ => h, fun _ => ⟨fun _ => h, fun _ => ⟨fun _ => h, fun _ =>
    wp_write_kept hS ⟨h.epoch, h.noise⟩ fun msg hs' h' => ?_⟩⟩⟩
  simp only [wp_ite, wp_bind, wp_throw, wp_lift]
  exact ⟨fun _ => h', fun _ => ⟨fun _ _ => h', fun _ _ => h'⟩⟩

theorem handleMsg1_kept (h : f.Kept S) : (after (handleMsg1 S packet random) f).Kept S := by
  rw [wp_after (P := Kept S)]
  unfold handleMsg1
  simp only [wp_bind, wp_get, requireHs, wp_ite, wp_throw, wp_pure, wp_lift]
  refine ⟨fun _ => h, fun _ => ⟨fun _ => h, fun _ => ⟨fun frame _ => ⟨fun _ => h, fun _ =>
    wp_read_kept hS h fun payload hs₁ h₁ => ?_⟩, fun _ _ => h⟩⟩⟩
  simp only [wp_ite, wp_bind, wp_throw]
  refine ⟨fun _ => h₁, fun _ => wp_write_kept hS h₁ fun msg hs₂ h₂ => ?_⟩
  simp only [wp_ite, wp_bind, wp_throw, wp_lift]
  exact ⟨fun _ => h₂, fun _ => ⟨fun _ _ => h₂, fun _ _ => h₂⟩⟩

theorem handleMsg2_kept (h : f.Kept S) : (after (handleMsg2 S packet random nowMs) f).Kept S := by
  rw [wp_after (P := Kept S)]
  unfold handleMsg2
  simp only [wp_bind, wp_get, requireHs, wp_ite, wp_throw, wp_pure, wp_lift]
  refine ⟨fun _ => h, fun _ => ⟨fun _ => h, fun _ => ⟨fun frame _ => ⟨fun _ => h, fun _ => ⟨fun _ => h, fun _ =>
    wp_read_kept hS h fun payload hs₁ h₁ => ?_⟩⟩, fun _ _ => h⟩⟩⟩
  simp only [wp_ite, wp_bind, wp_throw, wp_modify]
  refine ⟨fun _ => h₁, fun _ => wp_write_kept hS ⟨h₁.epoch, h₁.noise⟩ fun msg hs₂ h₂ => ?_⟩
  simp only [wp_ite, wp_bind, wp_throw]
  refine ⟨fun _ => h₂, fun _ => wp_finalize (fun _ => h₂) (fun tx rx => ?_)⟩
  rw [wp_lift]
  exact ⟨fun _ _ => ⟨h₂.epoch, by rintro _ ⟨⟩⟩, fun _ _ => ⟨h₂.epoch, by rintro _ ⟨⟩⟩⟩

theorem handleMsg3_kept (h : f.Kept S) : (after (handleMsg3 S packet nowMs) f).Kept S := by
  rw [wp_after (P := Kept S)]
  unfold handleMsg3
  simp only [wp_bind, wp_get, requireHs, wp_ite, wp_throw, wp_pure, wp_lift]
  refine ⟨fun _ => h, fun _ => ⟨fun _ => ⟨fun _ => h, fun _ => h⟩, fun _ => ⟨fun _ => h, fun _ => ⟨fun frame _ =>
    ⟨fun _ => h, fun _ => ⟨fun _ => h, fun _ => wp_read_kept hS h fun payload hs₁ h₁ => ?_⟩⟩, fun _ _ => h⟩⟩⟩⟩
  simp only [wp_ite, wp_bind, wp_throw, wp_modify, wp_get]
  refine ⟨fun _ => h₁, fun _ => ?_⟩
  cases (some hs₁).bind NoiseHandshake.getRemoteStatic with
  | none => exact ⟨h₁.epoch, h₁.noise⟩
  | some rs =>
    simp only [wp_bind, wp_modify]
    exact wp_finalize (fun _ => ⟨h₁.epoch, h₁.noise⟩) (fun tx rx => ⟨h₁.epoch, by rintro _ ⟨⟩⟩)

omit hS in
theorem encryptMessage_kept {msgType flags : Nat} {payload : Bytes} {coords : Option (List NodeAddr × List NodeAddr)}
    (h : f.Kept S) : (after (encryptMessage S msgType payload flags coords nowMs) f).Kept S := by
  rw [wp_after (P := Kept S)]
  unfold encryptMessage
  simp only [wp_bind, wp_get]
  split
  · simp only [wp_ite, wp_bind, wp_throw, wp_set, wp_lift]
    exact ⟨fun _ => h, fun _ => ⟨fun _ => h, fun _ => ⟨fun _ _ => ⟨h.epoch, h.noise⟩, fun _ _ => ⟨h.epoch, h.noise⟩⟩⟩⟩
  · exact h

omit hS in
theorem openRecord_kept (h : f.Kept S) : (after (openRecord S packet) f).Kept S := by
  rw [wp_after (P := Kept S)]
  unfold openRecord
  simp only [wp_bind, wp_get]
  split
  · simp only [wp_ite, wp_bind, wp_throw, wp_lift, wp_modify, wp_pure]
    exact ⟨fun _ _ => ⟨fun _ => h, fun _ => ⟨fun _ _ => ⟨fun _ _ => ⟨fun _ _ => ⟨h.epoch, h.noise⟩,
      fun _ _ => ⟨h.epoch, h.noise⟩⟩, fun _ _ => h⟩, fun _ _ => h⟩⟩, fun _ _ => h⟩
  · exact h

/-- Every method keeps it. -/
theorem Kept.step (h : f.Kept S) (e : FspSessionEvent) : (f.step S e).Kept S := by
  cases e with
  | buildSessionSetup random srcCoords destCoords => exact buildSessionSetup_kept hS h
  | handleSessionSetup packet random localCoords remoteNodeAddr => exact handleSessionSetup_kept hS h
  | handleSessionAck packet random nowMs => exact handleSessionAck_kept hS h
  | handleSessionMsg3 packet nowMs => exact handleSessionMsg3_kept hS h
  | buildMsg1 random => exact buildMsg1_kept hS h
  | handleMsg1 packet random => exact handleMsg1_kept hS h
  | handleMsg2 packet random nowMs => exact handleMsg2_kept hS h
  | handleMsg3 packet nowMs => exact handleMsg3_kept hS h
  | encryptMessage msgType payload flags coords nowMs => exact encryptMessage_kept h
  | openRecord packet => exact openRecord_kept h
  | close => exact ⟨h.epoch, by rintro _ ⟨⟩⟩

theorem Kept.run (h : f.Kept S) (es : List FspSessionEvent) : (Run.run (FspSession.step S) f es).Kept S := by
  induction es generalizing f with
  | nil => exact h
  | cons e es ih => exact ih (h.step hS e)

end

/-! ### What a throw leaves -/

/-- The SessionAck to a SessionSetup has NodeAddrs for coordinates, and no more of them than a frame holds. -/
structure AckFits (f : FspSession) (remoteNodeAddr : Option NodeAddr) (localCoords srcCoords : List NodeAddr) : Prop where
  src : ∀ a ∈ (f.ackCoords remoteNodeAddr localCoords srcCoords).1, a.length = 16
  dest : ∀ a ∈ (f.ackCoords remoteNodeAddr localCoords srcCoords).2, a.length = 16
  size : 64 + 16 * ((f.ackCoords remoteNodeAddr localCoords srcCoords).1.length +
    (f.ackCoords remoteNodeAddr localCoords srcCoords).2.length) < 65536

/-- A SessionSetup that is read, with no SessionAck to answer it. -/
def SetupStuck (S : Suite) (packet random : Bytes) (localCoords : List NodeAddr) (remoteNodeAddr : Option NodeAddr)
    (f : FspSession) : Prop :=
  f.role = .responder ∧ f.receivedSessionSetup = none ∧ ∃ hs setup, f.hs = some hs ∧
    decodeSessionSetup packet = .ok setup ∧ setup.handshakePayload.length = 33 ∧ hs.Readable S setup.handshakePayload ∧
    ¬(hs.CanAnswer S random ∧ f.AckFits remoteNodeAddr localCoords setup.srcCoords)

/-- A SessionMsg3 that is read as the first message of the handshake. -/
def Msg3Stuck (S : Suite) (packet : Bytes) (f : FspSession) : Prop :=
  f.role = .responder ∧ f.state ≠ .established ∧ ∃ hs msg3, f.hs = some hs ∧ hs.step = 0 ∧
    decodeSessionMsg3 packet = .ok msg3 ∧ msg3.handshakePayload.length = 73 ∧ hs.Readable S msg3.handshakePayload

section
variable {hs hs' : NoiseHandshake} {setup : SessionSetup} {msg3 : SessionMsg3} {payload noiseMsg : Bytes}
  {localCoords : List NodeAddr} {remoteNodeAddr : Option NodeAddr}

theorem ackCoords_fst (srcCoords : List NodeAddr) : (f.ackCoords remoteNodeAddr localCoords srcCoords).1 =
    if f.strictClient then [f.identity.nodeAddr] else localCoords := by
  unfold ackCoords
  split <;> rfl

theorem ackCoords_snd (srcCoords : List NodeAddr) : (f.ackCoords remoteNodeAddr localCoords srcCoords).2 =
    if f.strictClient then (remoteNodeAddr.map ([·])).getD (srcCoords.take 1) else srcCoords := by
  unfold ackCoords
  split <;> rfl

theorem ackFits_iff {srcCoords : List NodeAddr} (hlen : noiseMsg.length = 57) :
    f.AckFits remoteNodeAddr localCoords srcCoords ↔
      SessionSetup.Fits ⟨(f.ackCoords remoteNodeAddr localCoords srcCoords).1,
        (f.ackCoords remoteNodeAddr localCoords srcCoords).2, 4, noiseMsg⟩ := by
  constructor
  · intro h
    have hsize := h.size
    refine ⟨(by decide : 4 < 256), h.src, h.dest, ?_⟩
    dsimp only
    omega
  · intro h
    have hsize := h.size
    dsimp only at hsize
    exact ⟨h.src, h.dest, by omega⟩

variable (hS : S.Lawful) (hE : S.Exact)
include hS hE

/-- What a responder has once the first message is read. -/
theorem Kept.reads_setup (h : f.Kept S) (hrole : f.role = .responder) (hhs : f.hs = some hs) {message : Bytes}
    (hlen : message.length = 33) (hr : (NoiseHandshake.readMessage S message).run hs = .ok payload hs') :
    hs.step = 0 ∧ hs'.pattern = .XK ∧ hs'.role = .responder ∧ hs'.step = 1 ∧ payload = [] ∧
      hs'.ephemeralOverride = hs.ephemeralOverride ∧ ∃ re, hs'.re = some re ∧ IsPoint S re := by
  obtain ⟨hsound, hp, hrl⟩ := h.noise hs hhs
  rw [hrole] at hrl
  have h0 : hs.step = 0 := by
    rcases (NoiseHandshake.readMessage_step hr).1 hrl with h0 | ⟨h2, -⟩
    · exact h0
    · -- the last message has more than 33 bytes
      have hlong := (NoiseHandshake.reads_xk_last hS hE hp h2 hsound hr).2.2
      omega
  obtain ⟨hreads, hre⟩ := NoiseHandshake.reads_xk_first hS hE hp hrl h0 hr
  have hpl := hreads.length
  rw [hlen] at hpl
  refine ⟨h0, hreads.pattern.trans hp, hreads.role.trans hrl, ?_, List.length_eq_zero_iff.1 hpl,
    hreads.ephemeralOverride, hre⟩
  rw [hreads.step, h0]

/-- Unless it is stuck on its answer, a rejected SessionSetup leaves no trace. -/
theorem Kept.handleSessionSetup_atomic (h : f.Kept S) (hstuck : ¬SetupStuck S packet random localCoords remoteNodeAddr f) :
    Atomic (handleSessionSetup S packet random localCoords remoteNodeAddr) f := by
  refine atomic_of_wp ?_
  unfold handleSessionSetup
  simp only [wp_bind, wp_get, wp_ite, wp_throw]
  refine ⟨fun _ => trivial, fun hrole => ?_⟩
  have hrole : f.role = .responder := not_not.1 hrole
  cases hrec : f.receivedSessionSetup with
  | some received =>
    cases f.sentSessionAck with
    | some ack =>
      simp only [wp_ite, wp_throw, wp_pure]
      exact ⟨fun _ => trivial, fun _ => trivial⟩
    | none => exact rfl
  | none =>
    show wp (acceptSessionSetup S packet random localCoords remoteNodeAddr) _ _ f
    by_cases hread : ∃ hs setup, f.hs = some hs ∧ decodeSessionSetup packet = .ok setup ∧
        setup.handshakePayload.length = 33 ∧ hs.Readable S setup.handshakePayload
    · obtain ⟨hs, setup, hhs, hdec, hlen, payload, hs', hr⟩ := hread
      have hanswer : hs.CanAnswer S random ∧ f.AckFits remoteNodeAddr localCoords setup.srcCoords := by
        by_contra hne
        exact hstuck ⟨hrole, hrec, hs, setup, hhs, hdec, hlen, ⟨payload, hs', hr⟩, hne⟩
      obtain ⟨⟨kp, hkp⟩, hfits⟩ := hanswer
      obtain ⟨-, hp, hrl, h1, rfl, hov, re, hre, hpoint⟩ := h.reads_setup hS hE hrole hhs hlen hr
      obtain ⟨noiseMsg, hs₂, hw, hlen₂, -⟩ := (@NoiseHandshake.writes_xk_answer _ _ _ random) hS hE hp hrl h1 hre
          hpoint (hov.symm ▸ hkp) h.epoch
      obtain ⟨reply, henc, -, -⟩ := encodeSessionAck_eq ((ackFits_iff hlen₂).1 hfits)
      rw [wp_of_ok (run_acceptSessionSetup hhs hdec hlen hr hw hlen₂ henc)]
      trivial
    · unfold acceptSessionSetup
      simp only [wp_bind, wp_get, requireHs, wp_ite, wp_throw, wp_pure, wp_lift]
      refine ⟨fun _ => trivial, fun _ => ⟨fun setup hdec => ⟨fun _ => trivial, fun hlen => ?_⟩, fun _ _ => trivial⟩⟩
      refine wp_onHs (fun _ => rfl) fun hs hhs => ?_
      refine NoiseHandshake.wp_readMessage (fun payload hs' hr => ?_) (fun e => ?_)
      · exact absurd ⟨hs, setup, hhs, hdec, not_not.1 hlen, payload, hs', hr⟩ hread
      · show { f with hs := some hs } = f
        rw [← hhs]

/-- A SessionSetup that is stuck on its answer is rejected after the Noise state has moved on. -/
theorem Kept.handleSessionSetup_stuck (h : f.Kept S) (hstuck : SetupStuck S packet random localCoords remoteNodeAddr f) :
    ¬Atomic (handleSessionSetup S packet random localCoords remoteNodeAddr) f := by
  obtain ⟨hrole, hrec, hs, setup, hhs, hdec, hlen, ⟨payload, hs', hr⟩, hne⟩ := hstuck
  obtain ⟨h0, hp, hrl, h1, rfl, hov, re, hre, hpoint⟩ := h.reads_setup hS hE hrole hhs hlen hr
  have hsend : hs'.isSenderForStep hs'.step = true := by rw [NoiseHandshake.isSenderForStep, h1, hrl]; decide
  have ht : hs'.tokensForStep hs'.step = .ok [.e, .ee] := by simp [NoiseHandshake.tokensForStep, hp, h1]
  have hthrow : wp (handleSessionSetup S packet random localCoords remoteNodeAddr) (fun _ _ => False)
      (fun _ f' => ∃ hs'', f'.hs = some hs'' ∧ hs''.step ≠ 0) f := by
    rw [wp, run_handleSessionSetup_fresh hrole hrec]
    show wp (acceptSessionSetup S packet random localCoords remoteNodeAddr) _ _ f
    unfold acceptSessionSetup
    simp only [wp_bind, wp_get, requireHs, wp_ite, wp_throw, wp_pure, wp_lift]
    refine ⟨fun hnone => ?_, fun _ => ⟨fun setup' hdec' => ?_, fun e he => ?_⟩⟩
    · rw [hhs] at hnone
      cases hnone
    · obtain rfl : setup = setup' := Except.ok.inj (hdec.symm.trans hdec')
      refine ⟨fun hl => absurd hlen hl, fun _ => ?_⟩
      rw [wp_of_ok (run_onHs hhs hr)]
      simp only [wp_bind, wp_ite, wp_throw, wp_modify]
      refine ⟨fun hl => absurd rfl hl, fun _ => ?_⟩
      refine wp_onHs (by rintro ⟨⟩) fun hs₁ he => ?_
      obtain rfl : hs' = hs₁ := Option.some.inj he
      by_cases hkp : hs.CanAnswer S random
      · have hfits : ¬f.AckFits remoteNodeAddr localCoords setup.srcCoords := fun hfits => hne ⟨hkp, hfits⟩
        obtain ⟨kp, hkp⟩ := hkp
        obtain ⟨noiseMsg, hs₂, hw, hlen₂, h2⟩ := (@NoiseHandshake.writes_xk_answer _ _ _ random) hS hE hp hrl h1 hre
            hpoint (hov.symm ▸ hkp) h.epoch
        rw [wp_of_ok hw]
        simp only [wp_bind, wp_ite, wp_throw, wp_lift]
        refine ⟨fun hl => absurd hlen₂ hl, fun _ => ⟨fun reply henc => ?_, fun _ _ => ⟨hs₂, rfl, by rw [h2]; decide⟩⟩⟩
        rw [← @ackCoords_fst _ _ remoteNodeAddr setup.srcCoords,
          ← (@ackCoords_snd _ localCoords)] at henc
        exact absurd ((ackFits_iff hlen₂).2 (encodeSessionAck_fits (by decide : 4 < 256) henc)) hfits
      · have herr : ∃ e, genKeyPair S hs'.ephemeralOverride random = .error e := by
          rw [hov]
          cases hg : genKeyPair S hs.ephemeralOverride random with
          | error e => exact ⟨e, rfl⟩
          | ok kp => exact absurd ⟨kp, hg⟩ hkp
        obtain ⟨e, herr⟩ := herr
        rw [wp_of_error (NoiseHandshake.run_writeMessage_error ht hsend herr)]
        exact ⟨hs', rfl, by rw [h1]; decide⟩
    · rw [hdec] at he
      cases he
  refine not_atomic_of_wp hthrow fun h => ?_
  obtain ⟨hs'', hhs'', hstep⟩ := h
  rw [hhs] at hhs''
  cases hhs''
  exact hstep h0

/-- A rejected SessionAck leaves no trace. -/
theorem Kept.handleSessionAck_atomic (h : f.Kept S) : Atomic (handleSessionAck S packet random nowMs) f := by
  refine atomic_of_wp ?_
  unfold handleSessionAck
  simp only [wp_bind, wp_get, wp_ite, wp_throw]
  refine ⟨fun _ => trivial, fun hrole => ?_⟩
  cases f.receivedSessionAck with
  | some received =>
    cases f.sentSessionMsg3 with
    | some msg3 =>
      simp only [wp_ite, wp_throw, wp_pure]
      exact ⟨fun _ => trivial, fun _ => trivial⟩
    | none => exact rfl
  | none =>
    show wp (acceptSessionAck S packet random nowMs) _ _ f
    by_cases hread : ∃ hs ack, f.hs = some hs ∧ decodeSessionAck packet = .ok ack ∧
        ack.handshakePayload.length = 57 ∧ hs.Readable S ack.handshakePayload
    · -- once it is read, SessionMsg3 can be written and sent
      obtain ⟨hs, ack, hhs, hdec, hlen, payload, hs', hr⟩ := hread
      obtain ⟨hsound, hp, hrl⟩ := h.noise hs hhs
      rw [not_not.1 hrole] at hrl
      have h1 := (NoiseHandshake.readMessage_step hr).2 hrl
      obtain ⟨hreads, re, hre, hpoint⟩ := NoiseHandshake.reads_xk_answer hS hE hp h1 hr
      obtain ⟨hsound', -, -⟩ := NoiseHandshake.readMessage_sound hS hsound hr
      obtain ⟨key, n, hcipher, hn⟩ := hreads.cipher
      have hpl := hreads.length
      rw [hlen] at hpl
      obtain ⟨noiseMsg, hs₂, hw, hlen₃, -⟩ := (@NoiseHandshake.writes_xk_last _ _ _ random) hS hE
        (hreads.pattern.trans hp) (hreads.role.trans hrl) (by rw [hreads.step, h1]) hsound' hre hpoint hcipher hn h.epoch
      obtain ⟨reply, henc, -, -⟩ := encodeSessionMsg3_eq (m := ⟨0, noiseMsg⟩) (by decide : 0 < 256)
        (by show noiseMsg.length < 60000; omega)
      obtain ⟨tx, rx, hsplit⟩ := NoiseHandshake.splitTxRx_ok hS hs₂
      rw [wp_of_ok (run_acceptSessionAck hhs hdec hlen hr hpl hw hlen₃ henc hsplit)]
      trivial
    · unfold acceptSessionAck
      simp only [wp_bind, wp_get, requireHs, wp_ite, wp_throw, wp_pure, wp_lift]
      refine ⟨fun _ => trivial, fun _ => ⟨fun ack hdec => ⟨fun _ => trivial, fun hlen => ?_⟩, fun _ _ => trivial⟩⟩
      refine wp_onHs (fun _ => rfl) fun hs hhs => ?_
      refine NoiseHandshake.wp_readMessage (fun payload hs' hr => ?_) (fun e => ?_)
      · exact absurd ⟨hs, ack, hhs, hdec, not_not.1 hlen, payload, hs', hr⟩ hread
      · show { f with hs := some hs } = f
        rw [← hhs]

/-- Unless it is read in the place of the first message, a rejected SessionMsg3 leaves no trace. -/
theorem Kept.handleSessionMsg3_atomic (h : f.Kept S) (hstuck : ¬Msg3Stuck S packet f) :
    Atomic (handleSessionMsg3 S packet nowMs) f := by
  refine atomic_of_wp ?_
  unfold handleSessionMsg3 acceptSessionMsg3
  simp only [wp_bind, wp_get, requireHs, wp_ite, wp_throw, wp_pure, wp_lift]
  refine ⟨fun _ => trivial, fun hrole => ⟨fun _ => ⟨fun _ => trivial, fun _ => trivial⟩, fun hstate =>
    ⟨fun _ => trivial, fun _ => ⟨fun msg3 hdec => ⟨fun _ => trivial, fun hlen => ?_⟩, fun _ _ => trivial⟩⟩⟩⟩
  have hlen : msg3.handshakePayload.length = 73 := not_not.1 hlen
  refine wp_onHs (fun _ => rfl) fun hs hhs => ?_
  refine NoiseHandshake.wp_readMessage (fun payload hs' hr => ?_) (fun e => ?_)
  · obtain ⟨hsound, hp, hrl⟩ := h.noise hs hhs
    rw [not_not.1 hrole] at hrl
    rcases (NoiseHandshake.readMessage_step hr).1 hrl with h0 | ⟨h2, -⟩
    · exact absurd ⟨not_not.1 hrole, hstate, hs, msg3, hhs, h0, hdec, hlen, payload, hs', hr⟩ hstuck
    · -- the last message is read: nothing is left that could throw
      obtain ⟨hreads, hrs, -⟩ := NoiseHandshake.reads_xk_last hS hE hp h2 hsound hr
      obtain ⟨rs, hrs⟩ := Option.isSome_iff_exists.1 hrs
      have hpl := hreads.length
      rw [hlen] at hpl
      obtain ⟨tx, rx, hsplit⟩ := NoiseHandshake.splitTxRx_ok hS hs'
      simp only [wp_ite, wp_bind, wp_throw, wp_modify, wp_get]
      refine ⟨fun hl => absurd hpl hl, fun _ => ?_⟩
      simp only [Option.bind_some, NoiseHandshake.getRemoteStatic, hrs, wp_bind, wp_modify]
      rw [wp_of_ok (run_finalize rfl hsplit)]
      trivial
  · show { f with hs := some hs } = f
    rw [← hhs]

/-- A SessionMsg3 read as the first message is rejected after the Noise state has moved on. -/
theorem Kept.handleSessionMsg3_stuck (h : f.Kept S) (hstuck : Msg3Stuck S packet f) :
    ¬Atomic (handleSessionMsg3 S packet nowMs) f := by
  obtain ⟨hrole, hstate, hs, msg3, hhs, h0, hdec, hlen, payload, hs', hr⟩ := hstuck
  obtain ⟨hsound, hp, hrl⟩ := h.noise hs hhs
  rw [hrole] at hrl
  obtain ⟨hreads, -⟩ := NoiseHandshake.reads_xk_first hS hE hp hrl h0 hr
  have hpl := hreads.length
  rw [hlen] at hpl
  have hthrow : wp (handleSessionMsg3 S packet nowMs) (fun _ _ => False)
      (fun _ f' => ∃ hs'', f'.hs = some hs'' ∧ hs''.step ≠ 0) f := by
    rw [wp, run_handleSessionMsg3_fresh hrole hstate]
    show wp (acceptSessionMsg3 S packet nowMs) _ _ f
    unfold acceptSessionMsg3
    simp only [wp_bind, wp_get, requireHs, wp_ite, wp_throw, wp_pure, wp_lift]
    refine ⟨fun hnone => ?_, fun _ => ⟨fun msg hdec' => ?_, fun e he => ?_⟩⟩
    · rw [hhs] at hnone
      cases hnone
    · obtain rfl : msg3 = msg := Except.ok.inj (hdec.symm.trans hdec')
      refine ⟨fun hl => absurd hlen hl, fun _ => ?_⟩
      rw [wp_of_ok (run_onHs hhs hr)]
      simp only [wp_bind, wp_ite, wp_throw]
      refine ⟨fun _ => ⟨hs', rfl, by rw [hreads.step, h0]; decide⟩, fun hl => ?_⟩
      rw [not_not.1 hl] at hpl
      cases hpl
    · rw [hdec] at he
      cases he
  refine not_atomic_of_wp hthrow fun h => ?_
  obtain ⟨hs'', hhs'', hstep⟩ := h
  rw [hhs] at hhs''
  cases hhs''
  exact hstep h0

end

end FspSession

/-! ### Rejection -/

/-- A link some run of its methods leads to. -/
def FmpLink.Reachable (S : Suite) (l : FmpLink) : Prop :=
  ∃ identity remotePubkey role sessionIdx localEpoch ephemeralOverride l₀ es,
    FmpLink.new S identity remotePubkey role sessionIdx localEpoch ephemeralOverride = .ok l₀ ∧
      l = Run.run (FmpLink.step S) l₀ es

/-- A session some run of its methods leads to. -/
def FspSession.Reachable (S : Suite) (f : FspSession) : Prop :=
  ∃ oid identity role remotePubkey ephemeralOverride localEpoch strictClient f₀ es,
    FspSession.new S oid identity role remotePubkey ephemeralOverride localEpoch strictClient = .ok f₀ ∧
      f = Run.run (FspSession.step S) f₀ es

/-- When a handshake message that is rejected leaves the link or the session as it was. -/
theorem rejection_atomic {S : Suite} (hS : S.Lawful) (hE : S.Exact) {l : FmpLink} (hl : l.Reachable S) {f : FspSession}
    (hf : f.Reachable S) (packet random : Bytes) (nowMs : ℚ) (localCoords : List NodeAddr)
    (remoteNodeAddr : Option NodeAddr) :
    (Atomic (FmpLink.handleMsg1 S packet random nowMs) l ↔ ¬l.Msg1Stuck S packet random) ∧
    Atomic (FmpLink.handleMsg2 S packet nowMs) l ∧
    (Atomic (FspSession.handleSessionSetup S packet random localCoords remoteNodeAddr) f ↔
      ¬f.SetupStuck S packet random localCoords remoteNodeAddr) ∧
    Atomic (FspSession.handleSessionAck S packet random nowMs) f ∧
    (Atomic (FspSession.handleSessionMsg3 S packet nowMs) f ↔ ¬f.Msg3Stuck S packet) := by
  obtain ⟨identity, remotePubkey, role, sessionIdx, localEpoch, ephemeralOverride, l₀, es, hnew, rfl⟩ := hl
  obtain ⟨oid, identity', role', remotePubkey', ephemeralOverride', localEpoch', strictClient, f₀, es', hnew', rfl⟩ := hf
  have hl := (FmpLink.new_kept hnew).run hS es
  have hf := (FspSession.new_kept hnew').run hS es'
  refine ⟨⟨fun h hstuck => hl.handleMsg1_stuck hS hE hstuck h, hl.handleMsg1_atomic hS hE⟩, hl.handleMsg2_atomic hS hE,
    ⟨fun h hstuck => hf.handleSessionSetup_stuck hS hE hstuck h, hf.handleSessionSetup_atomic hS hE⟩,
    hf.handleSessionAck_atomic hS hE,
    ⟨fun h hstuck => hf.handleSessionMsg3_stuck hS hE hstuck h, hf.handleSessionMsg3_atomic hS hE⟩⟩

/-- A link and a session before they dial a peer. -/
def toyDialling : Except String (FmpLink × FspSession) := do
  let l ← FmpLink.new toySuite (toyIdentity 1) (some (3 :: List.replicate 32 2)) .initiator 7 (List.replicate 8 1) none
  let f ← FspSession.new toySuite 1 (toyIdentity 1) .initiator (some (3 :: List.replicate 32 2)) none
    (List.replicate 8 1) false
  return (l, f)

/-- The peer's answers to their first messages, with another last byte. -/
def toyTampered : Except String (Bytes × Bytes) := do
  let link ← FmpLink.handshake toySuite (toyParty 1 11) (toyParty 2 12) (3 :: List.replicate 32 2) 7 9 0 0
  let session ← FspSession.handshake toySuite (toyEnd 1 11 false) (toyEnd 2 12 true) (3 :: List.replicate 32 2)
    (some (List.replicate 16 1))
  return (link.msg2.modify (link.msg2.length - 1) (· + 1), session.ack.modify (session.ack.length - 1) (· + 1))

/-- The link and the session when they have sent their first messages. -/
def toyDialled : FmpLink × FspSession → FmpLink × FspSession
  | (l, f) => (Run.run (FmpLink.step toySuite) l [.buildMsg1 (toyParty 1 11).random],
      Run.run (FspSession.step toySuite) f [.buildSessionSetup (toyParty 1 11).random [List.replicate 16 1]
        [List.replicate 16 1]])

/-- The answers fail at their authentication tag, when the keys of the handshake have been mixed. -/
theorem rejection_atomic_toy : ∃ x l f msg2 ack, toyDialling = .ok x ∧ toyDialled x = (l, f) ∧
    toyTampered = .ok (msg2, ack) ∧ (∃ e, (FmpLink.handleMsg2 toySuite msg2 0).run l = .error e l) ∧
      ∃ e, (FspSession.handleSessionAck toySuite ack (toyParty 1 11).random 0).run f = .error e f := by
  have hthrow : (do
      let dialling ← toyDialling
      let answers ← toyTampered
      return (throws (FmpLink.handleMsg2 toySuite answers.1 0) (toyDialled dialling).1,
        throws (FspSession.handleSessionAck toySuite answers.2 (toyParty 1 11).random 0) (toyDialled dialling).2)) =
          .ok (true, true) := by
    decide +kernel
  obtain ⟨⟨l₀, f₀⟩, hdialling, hthrow⟩ := except_bind_eq_ok.1 hthrow
  obtain ⟨⟨msg2, ack⟩, htampered, hthrow⟩ := except_bind_eq_ok.1 hthrow
  obtain ⟨hmsg2, hack⟩ := Prod.mk.inj (Except.ok.inj hthrow)
  obtain ⟨l', hl, hrest⟩ := except_bind_eq_ok.1 hdialling
  obtain ⟨f', hf, hpair⟩ := except_bind_eq_ok.1 hrest
  cases hpair
  obtain ⟨e, hmsg2⟩ := run_of_throws hmsg2
  obtain ⟨e', hack⟩ := run_of_throws hack
  have hl : (toyDialled (l₀, f₀)).1.Reachable toySuite := ⟨_, _, _, _, _, _, l₀, _, hl, rfl⟩
  have hf : (toyDialled (l₀, f₀)).2.Reachable toySuite := ⟨_, _, _, _, _, _, _, f₀, _, hf, rfl⟩
  have hlink := (rejection_atomic toySuite_lawful toySuite_exact hl hf msg2 [] 0 [] none).2.1
  have hsession := (rejection_atomic toySuite_lawful toySuite_exact hl hf ack (toyParty 1 11).random 0 [] none).2.2.2.1
  refine ⟨_, _, _, msg2, ack, hdialling, rfl, htampered, ⟨e, ?_⟩, e', ?_⟩
  · exact hmsg2.trans (congrArg _ (hlink e _ hmsg2))
  · exact hack.trans (congrArg _ (hsession e' _ hack))

/-- A SessionSetup with 4092 source coordinates is read by a fresh responder, and its SessionAck is too long. -/
theorem crowded_setup_not_atomic : ∃ f packet setup,
    FspSession.new toySuite 0 (toyIdentity 2) .responder none none (List.replicate 8 2) false = .ok f ∧
    decodeSessionSetup packet = .ok setup ∧ setup.srcCoords = List.replicate 4092 (toyIdentity 1).nodeAddr ∧
    ¬Atomic (FspSession.handleSessionSetup toySuite packet (List.replicate 32 12) [(toyIdentity 2).nodeAddr]
      (some (toyIdentity 1).nodeAddr)) f := by
  obtain ⟨x⟩ := NoiseHandshake.xk_exchange toySuite_lawful (toyParty_valid 1 11) (toyParty_valid 2 12)
    (toyIdentity_sameX 2)
  obtain ⟨f, hf, hhs, hrole, hrec⟩ : ∃ f, FspSession.new toySuite 0 (toyIdentity 2) .responder none none
      (List.replicate 8 2) false = .ok f ∧ f.hs = some x.r₀ ∧ f.role = .responder ∧ f.receivedSessionSetup = none := by
    have hnew : NoiseHandshake.new toySuite .XK .responder (toyIdentity 2) none none = .ok x.r₀ := x.new_r
    refine ⟨_, by rw [FspSession.new, if_neg (by decide), hnew]; rfl, rfl, rfl, rfl⟩
  have hfits : SessionSetup.Fits ⟨List.replicate 4092 (toyIdentity 1).nodeAddr, [], 4, x.msg1⟩ := by
    refine ⟨(by decide : 4 < 256), fun a ha => ?_, by rintro _ ⟨⟩, ?_⟩
    · rw [List.eq_of_mem_replicate ha]
      rfl
    · dsimp only
      rw [x.length₁, List.length_replicate]
      decide
  obtain ⟨packet, -, hdec, -⟩ := encodeSessionSetup_eq hfits
  refine ⟨f, packet, _, hf, hdec, rfl, (FspSession.new_kept hf).handleSessionSetup_stuck toySuite_lawful toySuite_exact ?_⟩
  refine ⟨hrole, hrec, x.r₀, _, hhs, hdec, x.length₁, ⟨_, _, x.read₁⟩, fun h => ?_⟩
  have hsize := h.2.size
  rw [FspSession.ackCoords_fst, FspSession.ackCoords_snd] at hsize
  have hstrict : f.strictClient = false := by
    cases hf
    rfl
  rw [hstrict, if_neg (by decide), if_neg (by decide), List.length_replicate] at hsize
  exact absurd hsize (by decide)

end Fips
