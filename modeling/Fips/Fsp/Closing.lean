import Fips.Fsp.Nonces

/-!
# After `close`

`FspSession.close` drops the Noise state and the keys, so nothing brings the session back. `FmpLink.close` only
sets the state: a link that is closed with its Noise state in place starts again on the next handshake call.
-/

namespace Fips
open Exec

namespace FmpLink
variable {S : Suite} {l : FmpLink} {packet random : Bytes} {nowMs : ℚ} {e : FmpLinkEvent}

/-- Neither handshaking nor established, and no frame is sealed or opened. -/
structure Terminal (S : Suite) (l : FmpLink) : Prop where
  handshaking : l.state ≠ .handshaking
  established : l.state ≠ .established
  seals : ∀ payload msgType nowMs, throws (encryptOutgoing S payload msgType nowMs) l = true
  opens : ∀ packet nowMs, throws (decryptIncoming S packet nowMs) l = true

/-- There is a Msg1 that the Noise state reads and the link can answer. -/
def Answerable (S : Suite) (l : FmpLink) : Prop :=
  ∃ packet random hs msg1, l.hs = some hs ∧ decodeFmpMsg1 packet = .ok msg1 ∧ hs.Readable S msg1.noiseMsg1 ∧
    hs.CanAnswer S random ∧ l.localSessionIdx < 2 ^ 32

/-- No handshake can be started or completed any more: the Noise state is gone, or it is a responder's and answers
nothing. -/
def Spent (S : Suite) (l : FmpLink) : Prop := l.hs = none ∨ l.role = .responder ∧ ¬l.Answerable S

theorem encryptOutgoing_of_not_established {payload : Bytes} {msgType : Nat} (h : l.state ≠ .established) :
    (encryptOutgoing S payload msgType nowMs).run l = .error "FMP link not established" l := by
  unfold encryptOutgoing
  rw [EStateM.run_bind, run_get]
  dsimp only
  split
  · exact absurd ‹_› h
  · rfl

theorem decryptIncoming_of_not_established (h : l.state ≠ .established) :
    (decryptIncoming S packet nowMs).run l = .error "FMP link not established" l := by
  unfold decryptIncoming
  rw [EStateM.run_bind, run_get]
  dsimp only
  split
  · exact absurd ‹_› h
  · rfl

theorem terminal_of_closed (h : l.state = .closed) : l.Terminal S := by
  have hne : l.state ≠ .established := by rw [h]; decide
  refine ⟨by rw [h]; decide, hne, fun payload msgType nowMs => ?_, fun packet nowMs => ?_⟩
  · rw [throws, encryptOutgoing_of_not_established hne]
  · rw [throws, decryptIncoming_of_not_established hne]

/-! ### A spent link stays closed -/

theorem wp_buildMsg1_of_spent (h : l.Spent S) : wp (buildMsg1 S random) (fun _ _ => False) (fun _ l' => l' = l) l := by
  unfold buildMsg1
  simp only [wp_bind, wp_get, requireHs, wp_ite, wp_throw, wp_pure, implies_true, true_and]
  intro hrole _ hhs
  rcases h with h | ⟨h, -⟩
  · rw [h] at hhs
    exact absurd rfl hhs
  · rw [h] at hrole
    exact absurd (by decide) hrole

theorem wp_handleMsg2_of_spent (hstate : l.state = .closed) (h : l.Spent S) :
    wp (handleMsg2 S packet nowMs) (fun _ _ => False) (fun _ l' => l' = l) l := by
  unfold handleMsg2
  simp only [wp_bind, wp_get, requireHs, wp_ite, wp_throw, wp_pure, implies_true, true_and]
  intro hrole
  refine ⟨fun hest => ?_, fun _ hhs => ?_⟩
  · rw [hstate] at hest
    cases hest
  · rcases h with h | ⟨h, -⟩
    · rw [h] at hhs
      exact absurd rfl hhs
    · rw [h] at hrole
      exact absurd (by decide) hrole

/-- A Msg1 that is not stuck on its answer is not read at all. -/
theorem wp_handleMsg1_of_spent (hstate : l.state = .closed) (h : l.Spent S) (hstuck : ¬Msg1Stuck S packet random l) :
    wp (handleMsg1 S packet random nowMs) (fun _ _ => False) (fun _ l' => l' = l) l := by
  unfold handleMsg1
  simp only [wp_bind, wp_get, requireHs, wp_ite, wp_throw, wp_pure, wp_lift, implies_true, true_and]
  intro hrole
  refine ⟨fun hest => ?_, fun hne hhs => ⟨fun msg1 hdec => ?_, trivial⟩⟩
  · rw [hstate] at hest
    cases hest
  · refine wp_onHs (fun _ => rfl) fun hs hsome => ?_
    refine NoiseHandshake.wp_readMessage (fun payload hs' hr => ?_) (fun e => ?_)
    · exfalso
      rcases h with h | ⟨-, hno⟩
      · rw [h] at hsome
        cases hsome
      · refine hstuck ⟨not_not.1 hrole, hne, hs, msg1, hsome, hdec, ⟨payload, hs', hr⟩, fun hanswer => ?_⟩
        exact hno ⟨packet, random, hs, msg1, hsome, hdec, ⟨payload, hs', hr⟩, hanswer.1, hanswer.2⟩
    · show { l with hs := some hs } = l
      rw [← hsome]

structure Shut (S : Suite) (l : FmpLink) : Prop where
  kept : l.Kept S
  closed : l.state = .closed
  spent : l.Spent S

/-- A responder whose Noise state has moved on reads no Msg1. -/
theorem Kept.not_answerable {hs : NoiseHandshake} (h : l.Kept S) (hrole : l.role = .responder) (hhs : l.hs = some hs)
    (hstep : hs.step ≠ 0) : ¬l.Answerable S := by
  rintro ⟨packet, random, hs', msg1, hhs', -, ⟨payload, hs'', hr⟩, -, -⟩
  obtain rfl : hs = hs' := Option.some.inj (hhs.symm.trans hhs')
  obtain ⟨-, hpattern, hrole'⟩ := h.noise hs hhs
  rcases (NoiseHandshake.readMessage_step hr).1 (hrole'.trans hrole) with h0 | ⟨-, hxk⟩
  · exact hstep h0
  · rw [hpattern] at hxk
    cases hxk

section
variable (hS : S.Lawful) (hE : S.Exact)
include hS hE

theorem Shut.step (h : l.Shut S) (e : FmpLinkEvent) : (l.step S e).Shut S := by
  have hne : l.state ≠ .established := by rw [h.closed]; decide
  have hkept := h.kept.step hS e
  cases e with
  | buildMsg1 random =>
    exact wp_after.2 (wp_mono (wp_buildMsg1_of_spent h.spent) (fun _ _ => False.elim) fun _ l' h' => h' ▸ h)
  | handleMsg1 packet random nowMs =>
    by_cases hstuck : Msg1Stuck S packet random l
    · have hrole := (keepsKeys_step (S := S) l (.handleMsg1 packet random nowMs)).role
      obtain ⟨hstate, hs', hhs', hstep⟩ : (l.step S (.handleMsg1 packet random nowMs)).state = l.state ∧
          ∃ hs', (l.step S (.handleMsg1 packet random nowMs)).hs = some hs' ∧ hs'.step ≠ 0 :=
        (wp_after (P := fun l' : FmpLink => l'.state = l.state ∧ ∃ hs', l'.hs = some hs' ∧ hs'.step ≠ 0)).2
          (wp_mono (h.kept.wp_handleMsg1_stuck hS hE hstuck) (fun _ _ => False.elim) fun _ _ => id)
      refine ⟨hkept, hstate.trans h.closed, .inr ⟨hrole.trans hstuck.1, ?_⟩⟩
      exact hkept.not_answerable (hrole.trans hstuck.1) hhs' hstep
    · exact wp_after.2 (wp_mono (wp_handleMsg1_of_spent h.closed h.spent hstuck) (fun _ _ => False.elim)
        fun _ l' h' => h' ▸ h)
  | handleMsg2 packet nowMs =>
    exact wp_after.2 (wp_mono (wp_handleMsg2_of_spent h.closed h.spent) (fun _ _ => False.elim) fun _ l' h' => h' ▸ h)
  | encryptOutgoing payload msgType nowMs =>
    have hsame : l.step S (.encryptOutgoing payload msgType nowMs) = l := by
      rw [FmpLink.step, after, encryptOutgoing_of_not_established hne]
    rw [hsame]
    exact h
  | decryptIncoming packet nowMs =>
    have hsame : l.step S (.decryptIncoming packet nowMs) = l := by
      rw [FmpLink.step, after, decryptIncoming_of_not_established hne]
    rw [hsame]
    exact h
  | receiverReportFor senderReport nowMs =>
    have hsame : l.step S (.receiverReportFor senderReport nowMs) = l := by
      rw [FmpLink.step, receiverReportFor, if_pos hne]
    rw [hsame]
    exact h
  | close => exact ⟨hkept, rfl, h.spent⟩

theorem Shut.run (h : l.Shut S) (es : List FmpLinkEvent) : (Run.run (FmpLink.step S) l es).Shut S := by
  induction es generalizing l with
  | nil => exact h
  | cons e es ih => exact ih (h.step hS hE e)

end

/-! ### A link with its Noise state starts again -/

/-- An initiator says that it is handshaking before it asks the Noise state for anything. -/
theorem buildMsg1_handshaking (hrole : l.role = .initiator) (hremote : l.remotePubkey.isSome = true)
    (hhs : l.hs.isSome = true) : (after (buildMsg1 S random) l).state = .handshaking := by
  refine (wp_after (P := fun l' : FmpLink => l'.state = .handshaking)).2 ?_
  unfold buildMsg1
  simp only [wp_bind, wp_get, requireHs, wp_ite, wp_throw, wp_pure, wp_modify]
  refine ⟨fun hne => absurd hrole hne, fun _ => ⟨fun hnone => ?_, fun _ => ⟨fun hnone => ?_, fun _ => ?_⟩⟩⟩
  · rw [Option.isNone_iff_eq_none.1 hnone] at hremote
    cases hremote
  · rw [Option.isNone_iff_eq_none.1 hnone] at hhs
    cases hhs
  · refine wp_onHs_any (fun _ => rfl) (fun msg hs' => ?_) fun _ _ => rfl
    simp only [wp_ite, wp_bind, wp_throw, wp_lift]
    exact ⟨fun _ => trivial, fun _ => ⟨fun _ _ => trivial, fun _ _ => trivial⟩⟩

/-- A Msg1 that is answered establishes the link. -/
theorem handleMsg1_establishes : wp (handleMsg1 S packet random nowMs) (fun _ l' => l'.state = .established)
    (fun _ _ => True) l := by
  unfold handleMsg1
  simp only [wp_bind, wp_get, requireHs, wp_ite, wp_throw, wp_pure, wp_lift, implies_true, true_and, and_true]
  intro _
  refine ⟨fun hest _ _ => hest, fun _ _ msg1 _ => ?_⟩
  refine wp_onHs_any (fun _ => trivial) (fun payload hs₁ => ?_) fun _ _ => trivial
  simp only [wp_ite, wp_bind, wp_throw, wp_modify, wp_get, implies_true, true_and]
  intro _
  cases (some hs₁).bind NoiseHandshake.getRemoteStatic with
  | none => exact trivial
  | some rs =>
    simp only [wp_bind, wp_modify]
    refine wp_onHs_any (by rintro ⟨⟩) (fun msg hs₂ => ?_) fun _ _ => trivial
    simp only [wp_ite, wp_bind, wp_throw, wp_lift, wp_modify, implies_true, true_and, and_true]
    intro _ reply _
    exact wp_finalize (fun _ => trivial) fun tx rx => rfl

theorem new_initiator {identity : FipsIdentity} {remotePubkey ephemeralOverride : Option Bytes} {role : Role}
    {sessionIdx : Nat} {localEpoch : Bytes}
    (h : FmpLink.new S identity remotePubkey role sessionIdx localEpoch ephemeralOverride = .ok l)
    (hrole : l.role = .initiator) : l.remotePubkey.isSome = true := by
  unfold FmpLink.new at h
  split at h
  · cases h
  obtain ⟨hs, hnew, h⟩ := except_bind_eq_ok.1 h
  cases h
  obtain rfl : role = .initiator := hrole
  unfold NoiseHandshake.new at hnew
  obtain ⟨s, -, hnew⟩ := except_bind_eq_ok.1 hnew
  cases remotePubkey with
  | none => cases hnew
  | some remotePubkey => rfl

/-- An initiator knows whom it is made for, whatever happens to it. -/
theorem run_initiator (h : l.role = .initiator → l.remotePubkey.isSome = true) (es : List FmpLinkEvent) :
    (Run.run (step S) l es).role = .initiator → (Run.run (step S) l es).remotePubkey.isSome = true := by
  induction es generalizing l with
  | nil => exact h
  | cons e es ih =>
    have hstep := keepsKeys_step (S := S) l e
    exact ih fun hrole => hstep.remotePubkey (h (hstep.role.symm.trans hrole))

/-- When closing a link is final. -/
theorem closed_terminal_iff (hS : S.Lawful) (hE : S.Exact) (hl : l.Reachable S) :
    (∀ es, (Run.run (step S) l.close es).Terminal S) ↔ l.Spent S := by
  obtain ⟨identity, remotePubkey, role, sessionIdx, localEpoch, ephemeralOverride, l₀, es₀, hnew, rfl⟩ := hl
  have hkept := (new_kept hnew).run hS es₀
  have hinit := run_initiator (S := S) (new_initiator hnew) es₀
  generalize Run.run (step S) l₀ es₀ = l at hkept hinit
  have hclose : l.close.Kept S := hkept.step hS .close
  constructor
  · intro hterm
    by_contra hspent
    obtain ⟨hs, hhs⟩ : ∃ hs, l.hs = some hs := by
      cases hhs : l.hs with
      | none => exact absurd (.inl hhs) hspent
      | some hs => exact ⟨hs, rfl⟩
    cases hrole : l.role with
    | initiator =>
      refine (hterm [.buildMsg1 []]).handshaking ?_
      exact buildMsg1_handshaking hrole (hinit hrole) (by show l.hs.isSome = true; rw [hhs]; rfl)
    | responder =>
      have hans : l.Answerable S := by
        by_contra hno
        exact hspent (.inr ⟨hrole, hno⟩)
      obtain ⟨packet, random, hs', msg1, hhs', hdec, ⟨payload, hs'', hr⟩, ⟨kp, hkp⟩, hidx⟩ := hans
      have hopen : l.close.state ≠ .established := by
        show LinkState.closed ≠ .established
        decide
      obtain ⟨result, l', hrun⟩ := (@Kept.run_handleMsg1 _ _ _ _ 0) hS hE hclose hrole hopen hhs' hdec hr hkp hidx
      refine (hterm [.handleMsg1 packet random 0]).established ?_
      show (after (FmpLink.handleMsg1 S packet random 0) l.close).state = _
      rw [after, hrun]
      exact (wp_of_ok hrun).1 handleMsg1_establishes
  · intro hspent es
    exact terminal_of_closed (Shut.run hS hE ⟨hclose, rfl, hspent⟩ es).closed

end FmpLink

namespace FspSession
variable {S : Suite} {f : FspSession} {packet random : Bytes} {nowMs : ℚ}

/-- Neither handshaking nor established, and no record is sealed or opened. -/
structure Terminal (S : Suite) (f : FspSession) : Prop where
  handshaking : f.state ≠ .handshaking
  established : f.state ≠ .established
  seals : ∀ msgType payload flags coords nowMs, throws (encryptMessage S msgType payload flags coords nowMs) f = true
  opens : ∀ packet, throws (openRecord S packet) f = true

theorem encryptMessage_of_not_established {msgType flags : Nat} {payload : Bytes}
    {coords : Option (List NodeAddr × List NodeAddr)} (h : f.state ≠ .established) :
    (encryptMessage S msgType payload flags coords nowMs).run f = .error "FSP not established" f := by
  unfold encryptMessage
  rw [EStateM.run_bind, run_get]
  dsimp only
  split
  · exact absurd ‹_› h
  · rfl

theorem openRecord_of_not_established (h : f.state ≠ .established) :
    (openRecord S packet).run f = .error "FSP not established" f := by
  unfold openRecord
  rw [EStateM.run_bind, run_get]
  dsimp only
  split
  · exact absurd ‹_› h
  · rfl

theorem terminal_of_closed (h : f.state = .closed) : f.Terminal S := by
  have hne : f.state ≠ .established := by rw [h]; decide
  refine ⟨by rw [h]; decide, hne, fun msgType payload flags coords nowMs => ?_, fun packet => ?_⟩
  · rw [throws, encryptMessage_of_not_established hne]
  · rw [throws, openRecord_of_not_established hne]

/-- Once the Noise state is gone a closed session does not change. -/
theorem step_of_closed (hstate : f.state = .closed) (hhs : f.hs = none) (e : FspSessionEvent) :
    (f.step S e).state = .closed ∧ (f.step S e).hs = none := by
  have hne : f.state ≠ .established := by rw [hstate]; decide
  have hsame {α : Type} {x : EStateM String FspSession α} (h : wp x (fun _ f' => f' = f) (fun _ f' => f' = f) f) :
      (after x f).state = .closed ∧ (after x f).hs = none := by
    have hx : after x f = f := (wp_after (P := fun f' => f' = f)).2 h
    rw [hx]
    exact ⟨hstate, hhs⟩
  have hrequire {P : Prop} (h : ¬(none : Option NoiseHandshake).isNone = true) : P := absurd rfl h
  cases e with
  | buildSessionSetup random srcCoords destCoords =>
    refine hsame ?_
    unfold buildSessionSetup
    simp only [wp_bind, wp_get, wp_ite, wp_throw, implies_true, true_and]
    intro _
    cases f.remotePubkey with
    | none => exact rfl
    | some remotePubkey =>
      simp only [wp_bind, wp_get, requireHs, wp_ite, wp_throw, wp_pure, hhs, implies_true, true_and]
      exact hrequire
  | handleSessionSetup packet random localCoords remoteNodeAddr =>
    refine hsame ?_
    unfold handleSessionSetup
    simp only [wp_bind, wp_get, wp_ite, wp_throw, implies_true, true_and]
    intro _
    cases f.receivedSessionSetup with
    | some received =>
      cases f.sentSessionAck with
      | some ack =>
        simp only [wp_ite, wp_throw, wp_pure]
        exact ⟨fun _ => trivial, fun _ => trivial⟩
      | none => exact rfl
    | none =>
      show wp (acceptSessionSetup S packet random localCoords remoteNodeAddr) _ _ f
      unfold acceptSessionSetup
      simp only [wp_bind, wp_get, requireHs, wp_ite, wp_throw, wp_pure, hhs, implies_true, true_and]
      exact hrequire
  | handleSessionAck packet random nowMs =>
    exact hsame (wp_mono (wp_handleSessionAck_of_hs_none hhs) (fun _ _ h => h.1) fun _ _ h => h)
  | handleSessionMsg3 packet nowMs =>
    exact hsame (wp_mono (wp_handleSessionMsg3_of_hs_none hhs) (fun _ _ h => h.1) fun _ _ h => h)
  | buildMsg1 random =>
    refine hsame ?_
    unfold buildMsg1
    simp only [wp_bind, wp_get, requireHs, wp_ite, wp_throw, wp_pure, hhs, implies_true, true_and]
    exact fun _ _ => hrequire
  | handleMsg1 packet random =>
    refine hsame ?_
    unfold handleMsg1
    simp only [wp_bind, wp_get, requireHs, wp_ite, wp_throw, wp_pure, hhs, implies_true, true_and]
    exact fun _ => hrequire
  | handleMsg2 packet random nowMs =>
    refine hsame ?_
    unfold handleMsg2
    simp only [wp_bind, wp_get, requireHs, wp_ite, wp_throw, wp_pure, hhs, implies_true, true_and]
    exact fun _ => hrequire
  | handleMsg3 packet nowMs =>
    refine hsame ?_
    unfold handleMsg3
    simp only [wp_bind, wp_get, requireHs, wp_ite, wp_throw, wp_pure, hhs, implies_true, true_and]
    exact fun _ _ => hrequire
  | encryptMessage msgType payload flags coords nowMs =>
    have hx : f.step S (.encryptMessage msgType payload flags coords nowMs) = f := by
      rw [FspSession.step, after, encryptMessage_of_not_established hne]
    rw [hx]
    exact ⟨hstate, hhs⟩
  | openRecord packet =>
    have hx : f.step S (.openRecord packet) = f := by
      rw [FspSession.step, after, openRecord_of_not_established hne]
    rw [hx]
    exact ⟨hstate, hhs⟩
  | close => exact ⟨rfl, rfl⟩

/-- Closing a session is final. -/
theorem closed_terminal (f : FspSession) (es : List FspSessionEvent) : (Run.run (step S) f.close es).Terminal S := by
  suffices h : ∀ (es : List FspSessionEvent) (g : FspSession), g.state = .closed → g.hs = none →
      (Run.run (step S) g es).state = .closed from terminal_of_closed (h es f.close rfl rfl)
  intro es
  induction es with
  | nil => exact fun g hstate _ => hstate
  | cons e es ih =>
    intro g hstate hhs
    obtain ⟨hstate', hhs'⟩ := step_of_closed (S := S) hstate hhs e
    exact ih _ hstate' hhs'

end FspSession

/-- Closing a session is final, and closing a link is as long as its Noise state is spent. -/
theorem close_terminal {S : Suite} (hS : S.Lawful) (hE : S.Exact) :
    (∀ l : FmpLink, l.Reachable S →
      ((∀ es, (Run.run (FmpLink.step S) l.close es).Terminal S) ↔ l.Spent S)) ∧
    ∀ (f : FspSession) (es : List FspSessionEvent), (Run.run (FspSession.step S) f.close es).Terminal S :=
  ⟨fun _ hl => FmpLink.closed_terminal_iff hS hE hl, FspSession.closed_terminal⟩

/-- A responder whose handshake is complete before it is closed. -/
theorem close_terminal_toy : ∃ h l₀ l, FmpChannel.toyHandshake = .ok h ∧
    FmpLink.new toySuite (toyIdentity 2) none .responder 9 (List.replicate 8 2) none = .ok l₀ ∧
    l = Run.run (FmpLink.step toySuite) l₀ [.handleMsg1 h.msg1 (List.replicate 32 12) 5] ∧
    ∀ es, (Run.run (FmpLink.step toySuite) l.close es).Terminal toySuite := by
  refine ⟨_, _, _, eq_ok_get FmpChannel.toyHandshake_isSome, eq_ok_get toyResponder_isSome, rfl, ?_⟩
  refine ((close_terminal toySuite_lawful toySuite_exact).1 _ ?_).2 (.inl (by decide +kernel))
  exact ⟨_, _, _, _, _, _, _, _, eq_ok_get toyResponder_isSome, rfl⟩

/-- A responder that is closed before its Msg1 arrives is established by it, and seals. -/
theorem closed_link_revived : ∃ h l l', FmpChannel.toyHandshake = .ok h ∧
    FmpLink.new toySuite (toyIdentity 2) none .responder 9 (List.replicate 8 2) none = .ok l ∧
    l' = Run.run (FmpLink.step toySuite) l.close [.handleMsg1 h.msg1 (List.replicate 32 12) 5] ∧
    l'.state = .established ∧ throws (FmpLink.encryptOutgoing toySuite [1, 2, 3] 16 6) l' = false := by
  refine ⟨_, _, _, eq_ok_get FmpChannel.toyHandshake_isSome, eq_ok_get toyResponder_isSome, rfl, ?_, ?_⟩
  · decide +kernel
  · decide +kernel

end Fips
