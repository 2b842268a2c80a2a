import Fips.Fmp.Handshake
import Fips.Lib.Run
import Fips.Noise.Rejection

/-!
# Rejected handshake packets at a link

`handleMsg2` leaves the link alone whenever it throws. `handleMsg1` does so too unless the Msg1 is read and
then no answer can be made: the Noise state has then moved on and is not put back.
-/

namespace Exec

/-- A call that throws leaves the object as it was. -/
def Atomic {ε σ α : Type} (x : EStateM ε σ α) (s : σ) : Prop := ∀ e s', x.run s = .error e s' → s' = s

theorem atomic_of_wp {ε σ α : Type} {x : EStateM ε σ α} {s : σ} (h : wp x (fun _ _ => True) (fun _ s' => s' = s) s) :
    Atomic x s := fun _ _ he => (wp_of_error he).1 h

/-- A call that always throws, into states that are not the one before. -/
theorem not_atomic_of_wp {ε σ α : Type} {x : EStateM ε σ α} {s : σ} {P : σ → Prop}
    (h : wp x (fun _ _ => False) (fun _ => P) s) (hs : ¬P s) : ¬Atomic x s := by
  intro hatomic
  cases hrun : x.run s with
  | ok a s' => exact (wp_of_ok hrun).1 h
  | error e s' =>
    have hp := (wp_of_error hrun).1 h
    rw [hatomic e s' hrun] at hp
    exact hs hp

end Exec

namespace Fips
open Exec

namespace NoiseHandshake
variable {S : Suite} {hs hs' : NoiseHandshake} {message payload : Bytes}

theorem wp_readMessage {Q : Bytes → NoiseHandshake → Prop} {E : String → NoiseHandshake → Prop}
    (hQ : ∀ payload hs', (readMessage S message).run hs = .ok payload hs' → Q payload hs') (hE : ∀ e, E e hs) :
    wp (readMessage S message) Q E hs :=
  wp_iff.2 ⟨hQ, fun e _ he => readMessage_eq_error he ▸ hE e⟩

theorem wp_readMessage_sound (hS : S.Lawful) (message : Bytes) (h : hs.Sound S) :
    wp (readMessage S message) (fun _ hs' => hs'.Sound S ∧ hs'.pattern = hs.pattern ∧ hs'.role = hs.role)
      (fun _ hs' => hs'.Sound S ∧ hs'.pattern = hs.pattern ∧ hs'.role = hs.role) hs := by
  refine wp_readMessage (fun payload hs' hr => ?_) (fun _ => ⟨h, rfl, rfl⟩)
  obtain ⟨hs'', hp, hr', -⟩ := readMessage_sound hS h hr
  exact ⟨hs'', hp, hr'⟩

/-- A party reads in the steps of its peer. -/
theorem readMessage_step (h : (readMessage S message).run hs = .ok payload hs') :
    (hs.role = .responder → hs.step = 0 ∨ hs.step = 2 ∧ hs.pattern = .XK) ∧ (hs.role = .initiator → hs.step = 1) := by
  obtain ⟨toks, remaining, hs₁, hs₂, htoks, hsend, -, -, -⟩ := readMessage_ok h
  unfold tokensForStep at htoks
  unfold isSenderForStep at hsend
  split at htoks
  case h_6 => cases htoks
  case h_7 => cases htoks
  case h_1 _ hstep =>
    rw [hstep] at hsend ⊢
    exact ⟨fun _ => .inl rfl, fun hr => by rw [hr] at hsend; cases hsend⟩
  case h_2 _ hstep =>
    rw [hstep] at hsend ⊢
    exact ⟨fun hr => (by rw [hr] at hsend; cases hsend), fun _ => rfl⟩
  case h_3 _ hstep =>
    rw [hstep] at hsend ⊢
    exact ⟨fun _ => .inl rfl, fun hr => by rw [hr] at hsend; cases hsend⟩
  case h_4 _ hstep =>
    rw [hstep] at hsend ⊢
    exact ⟨fun hr => (by rw [hr] at hsend; cases hsend), fun _ => rfl⟩
  case h_5 hpat hstep =>
    rw [hstep] at hsend ⊢
    exact ⟨fun _ => .inr ⟨rfl, hpat⟩, fun hr => by rw [hr] at hsend; cases hsend⟩

theorem splitTxRx_ok (hS : S.Lawful) (hs : NoiseHandshake) : ∃ tx rx, hs.splitTxRx S = .ok (tx, rx) := by
  unfold splitTxRx
  rw [SymmetricState.split_eq hS]
  rw [ok_bind]
  dsimp only
  by_cases hr : hs.role = .initiator
  · exact ⟨_, _, by rw [if_pos hr]; rfl⟩
  · exact ⟨_, _, by rw [if_neg hr]; rfl⟩

end NoiseHandshake

/-! ### Runs of a link -/

inductive FmpLinkEvent
  | buildMsg1 (random : Bytes)
  | handleMsg1 (packet random : Bytes) (nowMs : ℚ)
  | handleMsg2 (packet : Bytes) (nowMs : ℚ)
  | encryptOutgoing (payload : Bytes) (msgType : Nat) (nowMs : ℚ)
  | decryptIncoming (packet : Bytes) (nowMs : ℚ)
  | receiverReportFor (senderReport : Bytes) (nowMs : ℚ)
  | close

namespace FmpLink
variable {S : Suite} {l : FmpLink} {packet random : Bytes} {nowMs : ℚ}

def step (S : Suite) (l : FmpLink) : FmpLinkEvent → FmpLink
  | .buildMsg1 random => after (buildMsg1 S random) l
  | .handleMsg1 packet random nowMs => after (FmpLink.handleMsg1 S packet random nowMs) l
  | .handleMsg2 packet nowMs => after (FmpLink.handleMsg2 S packet nowMs) l
  | .encryptOutgoing payload msgType nowMs => after (FmpLink.encryptOutgoing S payload msgType nowMs) l
  | .decryptIncoming packet nowMs => after (FmpLink.decryptIncoming S packet nowMs) l
  | .receiverReportFor senderReport nowMs => (l.receiverReportFor senderReport nowMs).2
  | .close => l.close

/-- A link with its Noise state, whatever has happened to it. -/
structure Kept (S : Suite) (l : FmpLink) : Prop where
  epoch : l.localEpoch.length = 8
  noise : ∀ hs, l.hs = some hs → hs.Sound S ∧ hs.pattern = .IK ∧ hs.role = l.role

theorem wp_onHs {α : Type} {x : EStateM String NoiseHandshake α} {Q : α → FmpLink → Prop} {E : String → FmpLink → Prop}
    (hnone : l.hs = none → E "noise handshake state missing" l)
    (hsome : ∀ hs, l.hs = some hs →
      wp x (fun a hs' => Q a { l with hs := some hs' }) (fun e hs' => E e { l with hs := some hs' }) hs) :
    wp (onHs x) Q E l := wp_zoomSome hnone hsome

/-- A Noise method that may end in any way. -/
theorem wp_onHs_any {α : Type} {x : EStateM String NoiseHandshake α} {Q : α → FmpLink → Prop} {E : String → FmpLink → Prop}
    (hnone : l.hs = none → E "noise handshake state missing" l) (hQ : ∀ a hs, Q a { l with hs := some hs })
    (hE : ∀ e hs, E e { l with hs := some hs }) : wp (onHs x) Q E l :=
  wp_onHs hnone fun _ _ => wp_of_forall hQ hE

theorem wp_finalize {Q : Unit → FmpLink → Prop} {E : String → FmpLink → Prop} (hE : ∀ e, E e l)
    (hQ : ∀ tx rx, Q () { l with
      tx := some tx, rx := some rx, sessionStartMs := nowMs, state := .established, hs := none }) :
    wp (finalize S nowMs) Q E l := by
  unfold finalize
  simp only [wp_bind, wp_get]
  cases h : l.hs with
  | none => exact hE _
  | some hs =>
    simp only [wp_bind, wp_lift, wp_modify]
    exact ⟨fun p _ => hQ p.1 p.2, fun e _ => hE e⟩

theorem new_kept {identity : FipsIdentity} {remotePubkey ephemeralOverride : Option Bytes} {role : Role}
    {sessionIdx : Nat} {localEpoch : Bytes}
    (h : FmpLink.new S identity remotePubkey role sessionIdx localEpoch ephemeralOverride = .ok l) : l.Kept S := by
  unfold FmpLink.new at h
  split at h
  · cases h
  · rename_i hepoch
    obtain ⟨hs, hnew, h⟩ := Exec.except_bind_eq_ok.1 h
    cases h
    refine ⟨not_not.1 hepoch, fun hs' hhs => ?_⟩
    cases hhs
    unfold NoiseHandshake.new at hnew
    obtain ⟨s, hs', hnew⟩ := Exec.except_bind_eq_ok.1 hnew
    dsimp only at hnew
    split at hnew
    · cases hnew
    · cases hnew
      exact ⟨⟨deriveKeyPair_valid hs', fun hne => absurd rfl hne⟩, rfl, rfl⟩

section
variable (hS : S.Lawful)
include hS

omit hS in
theorem Kept.setHs {hs hs' : NoiseHandshake} (h : l.Kept S) (hhs : l.hs = some hs)
    (h' : hs'.Sound S ∧ hs'.pattern = hs.pattern ∧ hs'.role = hs.role) : Kept S { l with hs := some hs' } := by
  obtain ⟨-, hpat, hrole⟩ := h.noise hs hhs
  refine ⟨h.epoch, fun hs'' he => ?_⟩
  cases he
  exact ⟨h'.1, h'.2.1.trans hpat, h'.2.2.trans hrole⟩

omit hS in
/-- A Noise method that keeps a sound state of the same party keeps the link. -/
theorem wp_onHs_kept {α : Type} {x : EStateM String NoiseHandshake α} {Q : α → FmpLink → Prop}
    {E : String → FmpLink → Prop} (h : l.Kept S)
    (hx : ∀ hs : NoiseHandshake, hs.Sound S →
      wp x (fun _ hs' => hs'.Sound S ∧ hs'.pattern = hs.pattern ∧ hs'.role = hs.role)
        (fun _ hs' => hs'.Sound S ∧ hs'.pattern = hs.pattern ∧ hs'.role = hs.role) hs)
    (hnone : l.hs = none → E "noise handshake state missing" l)
    (hQ : ∀ a hs', Kept S { l with hs := some hs' } → Q a { l with hs := some hs' })
    (hE : ∀ e hs', Kept S { l with hs := some hs' } → E e { l with hs := some hs' }) : wp (onHs x) Q E l := by
  refine wp_onHs hnone fun hs hhs => ?_
  exact wp_mono (hx hs (h.noise hs hhs).1) (fun a hs' h' => hQ a hs' (h.setHs hhs h'))
    (fun e hs' h' => hE e hs' (h.setHs hhs h'))

theorem buildMsg1_kept (h : l.Kept S) : (after (buildMsg1 S random) l).Kept S := by
  rw [wp_after (P := Kept S)]
  unfold buildMsg1
  simp only [wp_bind, wp_get, requireHs, wp_ite, wp_throw, wp_pure, wp_modify]
  refine ⟨fun _ => h, fun _ => ⟨fun _ => h, fun _ => ⟨fun _ => h, fun _ => ?_⟩⟩⟩
  refine wp_onHs_kept ⟨h.epoch, h.noise⟩ (fun hs hs' => NoiseHandshake.wp_writeMessage_sound hS hs')
    (fun _ => ⟨h.epoch, h.noise⟩) (fun msg hs' h' => ?_) (fun _ _ h' => h')
  simp only [wp_ite, wp_bind, wp_throw, wp_lift]
  exact ⟨fun _ => h', fun _ => ⟨fun _ _ => h', fun _ _ => h'⟩⟩

theorem handleMsg1_kept (h : l.Kept S) : (after (handleMsg1 S packet random nowMs) l).Kept S := by
  rw [wp_after (P := Kept S)]
  unfold handleMsg1
  simp only [wp_bind, wp_get, requireHs, wp_ite, wp_throw, wp_pure, wp_lift]
  refine ⟨fun _ => h, fun _ => ⟨fun _ => ⟨fun _ _ => h, fun _ _ => h⟩, fun _ => ⟨fun _ => h, fun _ =>
    ⟨fun msg1 _ => ?_, fun _ _ => h⟩⟩⟩⟩
  refine wp_onHs_kept h (fun hs hs' => NoiseHandshake.wp_readMessage_sound hS _ hs') (fun _ => h) (fun payload hs₁ h₁ => ?_)
    (fun _ _ h' => h')
  simp only [wp_ite, wp_bind, wp_throw, wp_modify, wp_get]
  refine ⟨fun _ => h₁, fun _ => ?_⟩
  cases (some hs₁).bind NoiseHandshake.getRemoteStatic with
  | none => exact ⟨h₁.epoch, h₁.noise⟩
  | some rs =>
    simp only [wp_bind, wp_modify]
    refine wp_onHs_kept ⟨h₁.epoch, h₁.noise⟩ (fun hs hs' => NoiseHandshake.wp_writeMessage_sound hS hs')
      (by rintro ⟨⟩) (fun msg hs₂ h₂ => ?_) (fun _ _ h' => h')
    simp only [wp_ite, wp_bind, wp_throw, wp_lift, wp_modify]
    refine ⟨fun _ => h₂, fun _ => ⟨fun reply _ => ?_, fun _ _ => h₂⟩⟩
    refine wp_finalize (fun _ => ⟨h₂.epoch, h₂.noise⟩) (fun tx rx => ?_)
    exact ⟨h₂.epoch, by rintro _ ⟨⟩⟩

theorem handleMsg2_kept (h : l.Kept S) : (after (handleMsg2 S packet nowMs) l).Kept S := by
  rw [wp_after (P := Kept S)]
  unfold handleMsg2
  simp only [wp_bind, wp_get, requireHs, wp_ite, wp_throw, wp_pure, wp_lift]
  refine ⟨fun _ => h, fun _ => ⟨fun _ => ⟨fun _ => h, fun _ => h⟩, fun _ => ⟨fun _ => h, fun _ =>
    ⟨fun msg2 _ => ⟨fun _ => h, fun _ => ?_⟩, fun _ _ => h⟩⟩⟩⟩
  refine wp_onHs_kept h (fun hs hs' => NoiseHandshake.wp_readMessage_sound hS _ hs') (fun _ => h) (fun payload hs₁ h₁ => ?_)
    (fun _ _ h' => h')
  simp only [wp_ite, wp_bind, wp_throw, wp_modify]
  refine ⟨fun _ => h₁, fun _ => ?_⟩
  exact wp_finalize (fun _ => ⟨h₁.epoch, h₁.noise⟩) (fun tx rx => ⟨h₁.epoch, by rintro _ ⟨⟩⟩)

omit hS in
theorem encryptOutgoing_kept {payload : Bytes} {msgType : Nat} (h : l.Kept S) :
    (after (encryptOutgoing S payload msgType nowMs) l).Kept S := by
  rw [wp_after (P := Kept S)]
  unfold encryptOutgoing
  simp only [wp_bind, wp_get]
  split
  · simp only [wp_ite, wp_bind, wp_throw, wp_set, wp_lift]
    refine ⟨fun _ => h, fun _ => ⟨fun _ _ => ⟨fun _ _ => ⟨fun _ _ => ⟨fun _ _ => ⟨h.epoch, h.noise⟩,
      fun _ _ => ⟨h.epoch, h.noise⟩⟩, fun _ _ => ⟨h.epoch, h.noise⟩⟩, fun _ _ => ⟨h.epoch, h.noise⟩⟩,
      fun _ _ => ⟨h.epoch, h.noise⟩⟩⟩
  · exact h

omit hS in
theorem decryptIncoming_kept (h : l.Kept S) : (after (decryptIncoming S packet nowMs) l).Kept S := by
  rw [wp_after (P := Kept S)]
  unfold decryptIncoming
  simp only [wp_bind, wp_get]
  split
  · simp only [wp_ite, wp_bind, wp_throw, wp_lift, wp_modify, wp_pure]
    refine ⟨fun _ _ => ⟨fun _ => h, fun _ => ⟨fun _ => h, fun _ => ⟨fun _ _ => ⟨fun _ _ => ⟨fun _ _ => ⟨h.epoch, h.noise⟩,
      fun _ _ => ⟨h.epoch, h.noise⟩⟩, fun _ _ => h⟩, fun _ _ => h⟩⟩⟩, fun _ _ => h⟩
  · exact h

/-- Every method keeps it. -/
theorem Kept.step (h : l.Kept S) (e : FmpLinkEvent) : (l.step S e).Kept S := by
  cases e with
  | buildMsg1 random => exact buildMsg1_kept hS h
  | handleMsg1 packet random nowMs => exact handleMsg1_kept hS h
  | handleMsg2 packet nowMs => exact handleMsg2_kept hS h
  | encryptOutgoing payload msgType nowMs => exact encryptOutgoing_kept h
  | decryptIncoming packet nowMs => exact decryptIncoming_kept h
  | receiverReportFor senderReport nowMs =>
    simp only [FmpLink.step, receiverReportFor]
    split
    · exact h
    · exact ⟨h.epoch, h.noise⟩
  | close => exact ⟨h.epoch, h.noise⟩

theorem Kept.run (h : l.Kept S) (es : List FmpLinkEvent) : (Run.run (FmpLink.step S) l es).Kept S := by
  induction es generalizing l with
  | nil => exact h
  | cons e es ih => exact ih (h.step hS e)

end

/-! ### What a throw leaves -/

/-- A Msg1 that is read, with no Msg2 to answer it: no ephemeral key, or an index that is no u32. -/
def Msg1Stuck (S : Suite) (packet random : Bytes) (l : FmpLink) : Prop :=
  l.role = .responder ∧ l.state ≠ .established ∧ ∃ hs msg1, l.hs = some hs ∧ decodeFmpMsg1 packet = .ok msg1 ∧
    hs.Readable S msg1.noiseMsg1 ∧ ¬(hs.CanAnswer S random ∧ l.localSessionIdx < 2 ^ 32)

section
variable {hs hs' : NoiseHandshake} {msg1 : FmpMsg1} {payload : Bytes}

variable (hS : S.Lawful) (hE : S.Exact)
include hS hE

/-- What the responder has once a Msg1 is read. -/
theorem Kept.reads_msg1 (h : l.Kept S) (hrole : l.role = .responder) (hhs : l.hs = some hs)
    (hdec : decodeFmpMsg1 packet = .ok msg1)
    (hr : (NoiseHandshake.readMessage S msg1.noiseMsg1).run hs = .ok payload hs') :
    hs.step = 0 ∧ hs'.pattern = .IK ∧ hs'.role = .responder ∧ hs'.step = 1 ∧ hs'.Sound S ∧ payload.length = 8 ∧
      hs'.ephemeralOverride = hs.ephemeralOverride ∧ hs'.rs.isSome = true ∧ ∃ re, hs'.re = some re ∧ IsPoint S re := by
  obtain ⟨hsound, hp, hrl⟩ := h.noise hs hhs
  rw [hrole] at hrl
  have h0 : hs.step = 0 := by
    rcases (NoiseHandshake.readMessage_step hr).1 hrl with h0 | ⟨-, hxk⟩
    · exact h0
    · rw [hp] at hxk
      cases hxk
  obtain ⟨hreads, hrs, hre⟩ := NoiseHandshake.reads_ik_first hS hE hp hrl h0 hr
  obtain ⟨hsound', -, -⟩ := NoiseHandshake.readMessage_sound hS hsound hr
  have hlen := (decodeFmpMsg1_eq_ok hdec).2
  refine ⟨h0, hreads.pattern.trans hp, hreads.role.trans hrl, ?_, hsound', ?_, hreads.ephemeralOverride, hrs, hre⟩
  · rw [hreads.step, h0]
  · rw [hreads.length, hlen]

/-- A Msg1 that can be answered establishes the link. -/
theorem Kept.run_handleMsg1 (h : l.Kept S) (hrole : l.role = .responder) (hstate : l.state ≠ .established)
    (hhs : l.hs = some hs) (hdec : decodeFmpMsg1 packet = .ok msg1)
    (hr : (NoiseHandshake.readMessage S msg1.noiseMsg1).run hs = .ok payload hs') {kp : KeyPair}
    (hkp : genKeyPair S hs.ephemeralOverride random = .ok kp) (hidx : l.localSessionIdx < 2 ^ 32) :
    ∃ result l', (handleMsg1 S packet random nowMs).run l = .ok result l' := by
  obtain ⟨-, hp, hrl, h1, hsound, hpl, hov, hrs, re, hre, hpoint⟩ := h.reads_msg1 hS hE hrole hhs hdec hr
  obtain ⟨rs, hrs⟩ := Option.isSome_iff_exists.1 hrs
  obtain ⟨noiseMsg2, hs₂, hw, hlen, -⟩ := (@NoiseHandshake.writes_ik_answer _ _ _ random) hS hE hp hrl h1 hsound hre
      hpoint (hov.symm ▸ hkp) h.epoch
  have hsender := (decodeFmpMsg1_eq_ok hdec).1
  obtain ⟨tx, rx, hsplit⟩ := NoiseHandshake.splitTxRx_ok hS hs₂
  exact ⟨_, _, FmpLink.run_handleMsg1 hrole hstate hhs hdec hr hpl hrs hw hlen
    (encodeFmpMsg2_eq hidx hsender hlen) hsplit⟩

/-- Unless it is stuck on its answer, a rejected Msg1 leaves no trace. -/
theorem Kept.handleMsg1_atomic (h : l.Kept S) (hstuck : ¬Msg1Stuck S packet random l) :
    Atomic (handleMsg1 S packet random nowMs) l := by
  by_cases hread : ∃ hs msg1 payload hs', l.role = .responder ∧ l.state ≠ .established ∧ l.hs = some hs ∧
      decodeFmpMsg1 packet = .ok msg1 ∧ (NoiseHandshake.readMessage S msg1.noiseMsg1).run hs = .ok payload hs'
  · obtain ⟨hs, msg1, payload, hs', hrole, hstate, hhs, hdec, hr⟩ := hread
    have hanswer : hs.CanAnswer S random ∧ l.localSessionIdx < 2 ^ 32 := by
      by_contra hne
      exact hstuck ⟨hrole, hstate, hs, msg1, hhs, hdec, ⟨payload, hs', hr⟩, hne⟩
    obtain ⟨⟨kp, hkp⟩, hidx⟩ := hanswer
    obtain ⟨result, l', hrun⟩ := (@Kept.run_handleMsg1 _ _ _ _ nowMs) hS hE h hrole hstate hhs hdec hr hkp hidx
    intro e l'' herr
    rw [hrun] at herr
    cases herr
  · refine atomic_of_wp ?_
    unfold handleMsg1
    simp only [wp_bind, wp_get, requireHs, wp_ite, wp_throw, wp_pure, wp_lift]
    refine ⟨fun _ => trivial, fun hrole => ⟨fun _ => ⟨fun _ _ => trivial, fun _ _ => trivial⟩, fun hstate =>
      ⟨fun _ => trivial, fun _ => ⟨fun msg1 hdec => ?_, fun _ _ => trivial⟩⟩⟩⟩
    refine wp_onHs (fun _ => rfl) fun hs hhs => ?_
    refine NoiseHandshake.wp_readMessage (fun payload hs' hr => ?_) (fun e => ?_)
    · exact absurd ⟨hs, msg1, payload, hs', not_not.1 hrole, hstate, hhs, hdec, hr⟩ hread
    · show { l with hs := some hs } = l
      rw [← hhs]

/-- Handling a Msg1 that is stuck on its answer throws with the Noise state past its first step. -/
theorem Kept.wp_handleMsg1_stuck (h : l.Kept S) (hstuck : Msg1Stuck S packet random l) :
    wp (handleMsg1 S packet random nowMs) (fun _ _ => False)
      (fun _ l' => l'.state = l.state ∧ ∃ hs', l'.hs = some hs' ∧ hs'.step ≠ 0) l := by
  obtain ⟨hrole, hstate, hs, msg1, hhs, hdec, ⟨payload, hs', hr⟩, hne⟩ := hstuck
  obtain ⟨h0, hp, hrl, h1, hsound, hpl, hov, hrs, re, hre, hpoint⟩ := h.reads_msg1 hS hE hrole hhs hdec hr
  obtain ⟨rs, hrs⟩ := Option.isSome_iff_exists.1 hrs
  have hsend : hs'.isSenderForStep hs'.step = true := by rw [NoiseHandshake.isSenderForStep, h1, hrl]; decide
  have ht : hs'.tokensForStep hs'.step = .ok [.e, .ee, .se] := by simp [NoiseHandshake.tokensForStep, hp, h1]
  unfold handleMsg1
  simp only [wp_bind, wp_get, requireHs, wp_ite, wp_throw, wp_pure, wp_lift]
  refine ⟨fun hne => absurd hrole hne, fun _ => ⟨fun he => absurd he hstate, fun _ => ⟨fun hnone => ?_, fun _ => ?_⟩⟩⟩
  · rw [hhs] at hnone
    cases hnone
  · refine ⟨fun msg hmsg => ?_, fun e he => ?_⟩
    · obtain rfl : msg1 = msg := Except.ok.inj (hdec.symm.trans hmsg)
      rw [wp_of_ok (run_onHs hhs hr)]
      simp only [wp_bind, wp_ite, wp_throw, wp_modify, wp_get]
      refine ⟨fun hl => absurd hpl hl, fun _ => ?_⟩
      simp only [Option.bind_some, NoiseHandshake.getRemoteStatic, hrs, wp_bind, wp_modify]
      refine wp_onHs (by rintro ⟨⟩) fun hs₁ he => ?_
      obtain rfl : hs' = hs₁ := Option.some.inj he
      by_cases hkp : hs.CanAnswer S random
      · obtain ⟨kp, hkp⟩ := hkp
        have hidx : ¬ l.localSessionIdx < 2 ^ 32 := fun hidx => hne ⟨⟨kp, hkp⟩, hidx⟩
        obtain ⟨noiseMsg2, hs₂, hw, hlen, h2⟩ := (@NoiseHandshake.writes_ik_answer _ _ _ random) hS hE hp hrl h1
            hsound hre hpoint (hov.symm ▸ hkp) h.epoch
        rw [wp_of_ok hw]
        simp only [wp_bind, wp_ite, wp_throw, wp_lift]
        refine ⟨fun hl => absurd hlen hl, fun _ => ⟨fun reply henc => absurd (encodeFmpMsg2_fits henc) hidx, fun _ _ => ?_⟩⟩
        exact ⟨trivial, hs₂, rfl, by rw [h2]; decide⟩
      · have herr : ∃ e, genKeyPair S hs'.ephemeralOverride random = .error e := by
          rw [hov]
          cases hg : genKeyPair S hs.ephemeralOverride random with
          | error e => exact ⟨e, rfl⟩
          | ok kp => exact absurd ⟨kp, hg⟩ hkp
        obtain ⟨e, herr⟩ := herr
        rw [wp_of_error (NoiseHandshake.run_writeMessage_error ht hsend herr)]
        exact ⟨rfl, hs', rfl, by rw [h1]; decide⟩
    · rw [hdec] at he
      cases he

/-- A Msg1 that is stuck on its answer is rejected after the Noise state has moved on. -/
theorem Kept.handleMsg1_stuck (h : l.Kept S) (hstuck : Msg1Stuck S packet random l) :
    ¬Atomic (handleMsg1 S packet random nowMs) l := by
  have hthrow := (@Kept.wp_handleMsg1_stuck _ _ _ _ nowMs) hS hE h hstuck
  obtain ⟨hrole, hstate, hs, msg1, hhs, hdec, ⟨payload, hs', hr⟩, hne⟩ := hstuck
  obtain ⟨h0, -⟩ := h.reads_msg1 hS hE hrole hhs hdec hr
  exact not_atomic_of_wp hthrow fun ⟨_, hs'', hhs'', hstep⟩ => by
    rw [hhs] at hhs''
    cases hhs''
    exact hstep h0

/-- A rejected Msg2 leaves no trace. -/
theorem Kept.handleMsg2_atomic (h : l.Kept S) : Atomic (handleMsg2 S packet nowMs) l := by
  refine atomic_of_wp ?_
  unfold handleMsg2
  simp only [wp_bind, wp_get, requireHs, wp_ite, wp_throw, wp_pure, wp_lift]
  refine ⟨fun _ => trivial, fun hrole => ⟨fun _ => ⟨fun _ => trivial, fun _ => trivial⟩, fun _ => ⟨fun _ => trivial, fun _ =>
    ⟨fun msg2 hdec => ⟨fun _ => trivial, fun _ => ?_⟩, fun _ _ => trivial⟩⟩⟩⟩
  refine wp_onHs (fun _ => rfl) fun hs hhs => ?_
  refine NoiseHandshake.wp_readMessage (fun payload hs' hr => ?_) (fun e => ?_)
  · -- once it is read nothing is left that could throw
    obtain ⟨hsound, hp, hrl⟩ := h.noise hs hhs
    have h1 := (NoiseHandshake.readMessage_step hr).2 (hrl.trans (not_not.1 hrole))
    have hlen := (NoiseHandshake.reads_ik_answer hS hE hp h1 hr).length
    rw [(decodeFmpMsg2_eq_ok hdec).2.2] at hlen
    obtain ⟨tx, rx, hsplit⟩ := NoiseHandshake.splitTxRx_ok hS hs'
    simp only [wp_ite, wp_bind, wp_throw, wp_modify]
    refine ⟨fun hl => absurd hlen hl, fun _ => ?_⟩
    rw [wp_of_ok (run_finalize rfl hsplit)]
    trivial
  · show { l with hs := some hs } = l
    rw [← hhs]

end

end FmpLink

end Fips
