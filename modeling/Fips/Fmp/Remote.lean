import Fips.Fmp.Nonces

/-!
# What a link knows of its remote

An initiator is made for a key, and a responder learns one from the Msg1 that it authenticates. A link with
traffic keys has such a key and has ended its handshake, and no call gives it another.
-/

namespace Fips
open Exec

namespace NoiseHandshake
variable {S : Suite} {hs hs₀ : NoiseHandshake} {message random payload : Bytes}

/-- The static key of the remote, if it is there, has the length of a compressed one. -/
def Remote (hs : NoiseHandshake) : Prop := ∀ rs, hs.rs = some rs → rs.length = 33

theorem wp_dh_rs {tok : Token} (h : hs.rs = hs₀.rs) :
    wp (dh S tok) (fun _ hs' => hs'.rs = hs₀.rs) (fun _ hs' => hs'.rs = hs₀.rs) hs := by
  unfold dh
  simp only [wp_bind, wp_get, wp_lift, wp_ite, wp_throw]
  exact ⟨fun _ _ => ⟨fun _ _ => ⟨fun _ => h, fun _ => wp_onSs (fun _ _ => h) (fun _ _ => h)⟩, fun _ _ => h⟩, fun _ _ => h⟩

theorem wp_writeToken_rs {tok : Token} (h : hs.rs = hs₀.rs) :
    wp (writeToken S random tok) (fun _ hs' => hs'.rs = hs₀.rs) (fun _ hs' => hs'.rs = hs₀.rs) hs := by
  unfold writeToken
  cases tok with
  | e =>
    simp only [wp_bind, wp_get, wp_lift, wp_modify, wp_pure]
    exact ⟨fun _ _ => h, fun _ _ => h⟩
  | s =>
    simp only [wp_bind, wp_get]
    exact wp_onSs (fun _ _ => h) (fun _ _ => h)
  | ee => exact wp_bind.2 (wp_mono (wp_dh_rs h) (fun _ _ => id) (fun _ _ => id))
  | es => exact wp_bind.2 (wp_mono (wp_dh_rs h) (fun _ _ => id) (fun _ _ => id))
  | se => exact wp_bind.2 (wp_mono (wp_dh_rs h) (fun _ _ => id) (fun _ _ => id))
  | ss => exact wp_bind.2 (wp_mono (wp_dh_rs h) (fun _ _ => id) (fun _ _ => id))

theorem wp_writeTokens_rs {toks : List Token} (h : hs.rs = hs₀.rs) :
    wp (writeTokens S random toks) (fun _ hs' => hs'.rs = hs₀.rs) (fun _ hs' => hs'.rs = hs₀.rs) hs := by
  induction toks generalizing hs with
  | nil => exact h
  | cons tok toks ih =>
    refine wp_bind.2 (wp_mono (wp_writeToken_rs h) (fun chunk hs' h' => ?_) (fun _ _ => id))
    exact wp_bind.2 (wp_mono (ih h') (fun _ _ => id) (fun _ _ => id))

/-- Writing a message leaves the remote's key alone. -/
theorem wp_writeMessage_rs (h : hs.rs = hs₀.rs) :
    wp (writeMessage S random payload) (fun _ hs' => hs'.rs = hs₀.rs) (fun _ hs' => hs'.rs = hs₀.rs) hs := by
  unfold writeMessage
  simp only [wp_bind, wp_get, wp_lift, wp_ite, wp_throw]
  refine ⟨fun toks _ => ⟨fun _ => h, fun _ => ?_⟩, fun _ _ => h⟩
  refine wp_mono (wp_writeTokens_rs h) (fun out hs' h' => ?_) (fun _ _ => id)
  rw [wp_ite]
  exact ⟨fun _ => wp_bind.2 (wp_onSs (fun _ _ => h') (fun _ _ => h')), fun _ => h'⟩

theorem wp_readToken_remote {tok : Token} (h : hs.Remote) :
    wp (readToken S message tok) (fun _ => Remote) (fun _ _ => True) hs := by
  have hdh (tok : Token) : wp (dh S tok) (fun _ => Remote) (fun _ _ => True) hs := by
    refine wp_mono (wp_dh_rs rfl) (fun _ hs' heq => ?_) (fun _ _ _ => trivial)
    unfold Remote
    rw [heq]
    exact h
  unfold readToken
  cases tok with
  | e =>
    simp only [wp_bind, wp_ite, wp_throw, wp_modify, wp_pure]
    exact ⟨fun _ => trivial, fun _ => h⟩
  | s =>
    simp only [wp_bind, wp_get, wp_ite, wp_throw]
    refine ⟨fun _ => trivial, fun _ => wp_onSs (fun rs ss => ?_) (fun _ _ => trivial)⟩
    simp only [wp_bind, wp_modify, wp_ite, wp_throw, wp_pure]
    refine ⟨fun _ => trivial, fun hlen rs' hrs' => ?_⟩
    cases hrs'
    exact not_not.1 hlen
  | ee => exact wp_bind.2 (hdh .ee)
  | es => exact wp_bind.2 (hdh .es)
  | se => exact wp_bind.2 (hdh .se)
  | ss => exact wp_bind.2 (hdh .ss)

theorem wp_readTokens_remote {toks : List Token} (h : hs.Remote) :
    wp (readTokens S message toks) (fun _ => Remote) (fun _ _ => True) hs := by
  induction toks generalizing message hs with
  | nil => exact h
  | cons tok toks ih => exact wp_bind.2 (wp_mono (wp_readToken_remote h) (fun _ _ h' => ih h') (fun _ _ => id))

theorem wp_readMessageInPlace_remote (h : hs.Remote) :
    wp (readMessageInPlace S message) (fun _ => Remote) (fun _ _ => True) hs := by
  unfold readMessageInPlace
  simp only [wp_bind, wp_get, wp_lift, wp_ite, wp_throw]
  refine ⟨fun toks _ => ⟨fun _ => trivial, fun _ => ?_⟩, fun _ _ => trivial⟩
  refine wp_mono (wp_readTokens_remote h) (fun remaining hs' h' => ?_) (fun _ _ => id)
  rw [wp_ite]
  exact ⟨fun _ => wp_bind.2 (wp_onSs (fun _ _ => h') (fun _ _ => trivial)), fun _ => h'⟩

/-- A key that a message brings has been checked for its length. -/
theorem wp_readMessage_remote (h : hs.Remote) :
    wp (readMessage S message) (fun _ => Remote) (fun _ => Remote) hs := by
  refine wp_readMessage (fun payload hs' hr => ?_) fun _ => h
  have hin := (wp_iff.1 (@wp_readMessageInPlace_remote S hs message h)).1
  unfold readMessage onThrow at hr
  simp only [EStateM.run] at hr
  cases hrun : (readMessageInPlace S message).run hs with
  | ok a s' =>
    have hrun' := hrun
    rw [EStateM.run] at hrun
    rw [hrun] at hr
    cases hr
    exact hin _ _ hrun'
  | error e s' =>
    rw [EStateM.run] at hrun
    rw [hrun] at hr
    cases hr

end NoiseHandshake

namespace FmpLink
variable {S : Suite} {l l' l'' : FmpLink} {packet random : Bytes} {nowMs : ℚ}

structure Keyed (l : FmpLink) : Prop where
  noise : ∀ hs, l.hs = some hs → hs.Remote
  established : l.state = .established → l.hs = none ∧ ∃ pk, l.remotePubkey = some pk ∧ pk.length = 33
  initiator : l.role = .initiator → ∃ pk, l.remotePubkey = some pk ∧ pk.length = 33

/-- The link has been used or closed; it knows its remote as before, and an initiator may have been answered. -/
structure Weaker (l l' : FmpLink) : Prop where
  role : l'.role = l.role
  remotePubkey : l'.remotePubkey = l.remotePubkey
  hs : l'.hs.isSome = true → l.hs.isSome = true
  established : l'.state = .established → l.state = .established ∨ l.role = .initiator
  keyed : l.Keyed → l'.Keyed

theorem Weaker.refl (l : FmpLink) : Weaker l l := ⟨rfl, rfl, id, .inl, id⟩

theorem Weaker.trans (h : Weaker l l') (h' : Weaker l' l'') : Weaker l l'' := by
  refine ⟨h'.role.trans h.role, h'.remotePubkey.trans h.remotePubkey, fun hs => h.hs (h'.hs hs), fun hestablished => ?_,
    fun hkeyed => h'.keyed (h.keyed hkeyed)⟩
  rcases h'.established hestablished with hold | hrole
  · exact h.established hold
  · exact .inr (h.role.symm.trans hrole)

theorem Weaker.hs_none (h : Weaker l l') (hnone : l.hs = none) : l'.hs = none := by
  rw [← Option.not_isSome_iff_eq_none]
  intro hsome
  have hold := h.hs hsome
  rw [hnone] at hold
  cases hold

theorem weaker_close : Weaker l l.close := by
  refine ⟨rfl, rfl, id, ?_, fun h => ⟨h.noise, ?_, h.initiator⟩⟩
  · rintro ⟨⟩
  · rintro ⟨⟩

/-- Only the counters and the reports have changed. -/
theorem weaker_of_eq (hrole : l'.role = l.role) (hremote : l'.remotePubkey = l.remotePubkey) (hhs : l'.hs = l.hs)
    (hstate : l'.state = l.state) : Weaker l l' := by
  refine ⟨hrole, hremote, ?_, ?_, fun h => ⟨?_, ?_, ?_⟩⟩
  · rw [hhs]
    exact id
  · rw [hstate]
    exact .inl
  · rw [hhs]
    exact h.noise
  · rw [hstate, hhs, hremote]
    exact h.established
  · rw [hrole, hremote]
    exact h.initiator

theorem weaker_encryptOutgoing {payload : Bytes} {msgType : Nat} :
    wp (encryptOutgoing S payload msgType nowMs) (fun _ => Weaker l) (fun _ => Weaker l) l := by
  have hnext : Weaker l { l with txCounter := l.txCounter + 1 } := weaker_of_eq rfl rfl rfl rfl
  unfold encryptOutgoing
  simp only [wp_bind, wp_get]
  split
  · simp only [wp_ite, wp_bind, wp_throw, wp_set, wp_lift]
    exact ⟨fun _ => .refl l, fun _ => ⟨fun _ _ => ⟨fun _ _ => ⟨fun _ _ => ⟨fun _ _ => hnext, fun _ _ => hnext⟩,
      fun _ _ => hnext⟩, fun _ _ => hnext⟩, fun _ _ => hnext⟩⟩
  · exact .refl l

/-- Only an established link opens a frame. -/
theorem weaker_decryptIncoming : wp (decryptIncoming S packet nowMs)
    (fun _ l' => Weaker l l' ∧ l'.state = .established) (fun _ => Weaker l) l := by
  have hsame {w : ReplayWindow} {r : FmpReceiverReports} : Weaker l { l with rxReplay := w, receiverReports := r } :=
    weaker_of_eq rfl rfl rfl rfl
  unfold decryptIncoming
  simp only [wp_bind, wp_get]
  split
  · rename_i hstate _
    simp only [wp_ite, wp_bind, wp_throw, wp_lift, wp_modify, wp_pure]
    exact ⟨fun _ _ => ⟨fun _ => .refl l, fun _ => ⟨fun _ => .refl l, fun _ => ⟨fun _ _ => ⟨fun _ _ =>
      ⟨fun _ _ => ⟨hsame, hstate⟩, fun _ _ => hsame⟩, fun _ _ => .refl l⟩, fun _ _ => .refl l⟩⟩⟩, fun _ _ => .refl l⟩
  · exact .refl l

theorem weaker_receiverReportFor {senderReport : Bytes} : Weaker l (l.receiverReportFor senderReport nowMs).2 := by
  unfold receiverReportFor
  split
  · exact .refl l
  · exact weaker_of_eq rfl rfl rfl rfl

/-- A link in its handshake, of which the key is checked. -/
theorem keyed_of_handshaking (hstate : l.state ≠ .established) (hnoise : ∀ hs, l.hs = some hs → hs.Remote)
    (hinitiator : l.role = .initiator → ∃ pk, l.remotePubkey = some pk ∧ pk.length = 33) : l.Keyed :=
  ⟨hnoise, fun hestablished => absurd hestablished hstate, hinitiator⟩

theorem weaker_buildMsg1 : wp (buildMsg1 S random) (fun _ => Weaker l) (fun _ => Weaker l) l := by
  unfold buildMsg1
  simp only [wp_bind, wp_get, requireHs, wp_ite, wp_throw, wp_pure, wp_modify]
  refine ⟨fun _ => .refl l, fun hrole => ⟨fun _ => .refl l, fun _ => ⟨fun _ => .refl l, fun hhs => ?_⟩⟩⟩
  have hinitiator : l.role = .initiator := not_not.1 hrole
  have hbegun : Weaker l { l with state := .handshaking } := by
    refine ⟨rfl, rfl, id, fun _ => .inr hinitiator, fun h => ⟨h.noise, ?_, h.initiator⟩⟩
    rintro ⟨⟩
  refine wp_onHs (fun _ => hbegun) fun hs hl => ?_
  have hnext : ∀ hs' : NoiseHandshake, hs'.rs = hs.rs → Weaker l { l with state := .handshaking, hs := some hs' } := by
    intro hs' hrs
    refine ⟨rfl, rfl, fun _ => (by rw [hl]; rfl), fun _ => .inr hinitiator, fun h => ?_⟩
    refine keyed_of_handshaking (by rintro ⟨⟩) (fun hs'' heq => ?_) h.initiator
    cases heq
    unfold NoiseHandshake.Remote
    rw [hrs]
    exact h.noise hs hl
  refine wp_mono (NoiseHandshake.wp_writeMessage_rs rfl) (fun msg hs' hrs => ?_) (fun _ hs' hrs => hnext hs' hrs)
  simp only [wp_ite, wp_bind, wp_throw, wp_lift]
  exact ⟨fun _ => hnext hs' hrs, fun _ => ⟨fun _ _ => hnext hs' hrs, fun _ _ => hnext hs' hrs⟩⟩

theorem weaker_handleMsg2 : wp (handleMsg2 S packet nowMs) (fun _ => Weaker l) (fun _ => Weaker l) l := by
  unfold handleMsg2
  simp only [wp_bind, wp_get, requireHs, wp_ite, wp_throw, wp_pure, wp_lift]
  refine ⟨fun _ => .refl l, fun hrole => ⟨fun _ => ⟨fun _ => .refl l, fun _ => .refl l⟩, fun hstate => ⟨fun _ => .refl l,
    fun hhs => ⟨fun msg2 _ => ⟨fun _ => .refl l, fun _ => ?_⟩, fun _ _ => .refl l⟩⟩⟩⟩
  have hinitiator : l.role = .initiator := not_not.1 hrole
  refine wp_onHs (fun _ => .refl l) fun hs hl => ?_
  have hread : ∀ hs' : NoiseHandshake, (hs.Remote → hs'.Remote) → Weaker l { l with hs := some hs' } := by
    intro hs' hremote
    refine ⟨rfl, rfl, fun _ => (by rw [hl]; rfl), .inl, fun h => ?_⟩
    refine keyed_of_handshaking hstate (fun hs'' heq => ?_) h.initiator
    cases heq
    exact hremote (h.noise hs hl)
  refine wp_iff.2 ⟨fun payload hs' hr => ?_, fun e hs' hr => hread hs' fun h => ?_⟩
  · have hnext : Weaker l { l with hs := some hs' } :=
      hread hs' fun h => (wp_iff.1 (NoiseHandshake.wp_readMessage_remote h)).1 _ _ hr
    simp only [wp_ite, wp_bind, wp_throw, wp_modify]
    refine ⟨fun _ => hnext, fun _ => ?_⟩
    refine wp_finalize (fun _ => hnext.trans (weaker_of_eq rfl rfl rfl rfl)) fun tx rx => ?_
    refine ⟨rfl, rfl, by rintro ⟨⟩, fun _ => .inr hinitiator, fun h => ⟨by rintro _ ⟨⟩, fun _ => ⟨rfl, ?_⟩, h.initiator⟩⟩
    exact h.initiator hinitiator
  · exact (wp_iff.1 (NoiseHandshake.wp_readMessage_remote h)).2 _ _ hr

/-- What a Msg1 makes of a link: a responder that has not read one yet gets the key it brings. -/
theorem wp_handleMsg1_remote (h : l.Keyed) : wp (handleMsg1 S packet random nowMs)
    (fun r l' => l'.Keyed ∧ l'.role = .responder ∧ l'.state = .established ∧ l'.remotePubkey = some r.remotePubkey ∧
      (l' = l ∨ l.hs.isSome = true))
    (fun _ l' => l' = l ∨ l'.Keyed ∧ l'.role = .responder ∧ l'.state ≠ .established ∧ l.hs.isSome = true) l := by
  unfold handleMsg1
  simp only [wp_bind, wp_get, requireHs, wp_ite, wp_throw, wp_pure, wp_lift]
  refine ⟨fun _ => .inl trivial, fun hrole => ⟨fun hstate => ⟨fun r hr => ?_, fun _ _ => .inl trivial⟩, fun hstate => ⟨fun _ => .inl trivial,
    fun hhs => ⟨fun msg1 _ => ?_, fun _ _ => .inl trivial⟩⟩⟩⟩
  · have hresponder : l.role = .responder := not_not.1 hrole
    refine ⟨h, hresponder, hstate, ?_, .inl trivial⟩
    unfold replayedMsg1 at hr
    split at hr
    · rename_i hremote
      split at hr
      · cases hr
        exact hremote
      · cases hr
    · cases hr
  · have hresponder : l.role = .responder := not_not.1 hrole
    have hsome : l.hs.isSome = true := isSome_of_not_isNone hhs
    refine wp_onHs (fun _ => .inl rfl) fun hs hl => ?_
    -- until its end the handshake leaves the state of the link alone
    have hunder : ∀ l' : FmpLink, l'.role = l.role → l'.state = l.state → (∀ hs', l'.hs = some hs' → hs'.Remote) →
        l' = l ∨ l'.Keyed ∧ l'.role = .responder ∧ l'.state ≠ .established ∧ l.hs.isSome = true := by
      intro l' hrole' hstate' hnoise
      refine .inr ⟨keyed_of_handshaking (hstate'.trans_ne hstate) hnoise fun hinitiator => ?_, hrole'.trans hresponder,
        hstate'.trans_ne hstate, hsome⟩
      rw [hrole', hresponder] at hinitiator
      cases hinitiator
    have hone : ∀ hs' : NoiseHandshake, hs'.Remote → ∀ hs'', some hs' = some hs'' → hs''.Remote := by
      rintro hs' hremote hs'' ⟨⟩
      exact hremote
    refine wp_mono (NoiseHandshake.wp_readMessage_remote (h.noise hs hl)) (fun payload hs₁ h₁ => ?_)
      (fun _ hs₁ h₁ => hunder _ rfl rfl (hone hs₁ h₁))
    simp only [wp_ite, wp_bind, wp_throw, wp_modify, wp_get]
    refine ⟨fun _ => hunder _ rfl rfl (hone hs₁ h₁), fun _ => ?_⟩
    cases hrs : (some hs₁).bind NoiseHandshake.getRemoteStatic with
    | none => exact hunder _ rfl rfl (hone hs₁ h₁)
    | some rs =>
      have hlen : rs.length = 33 := h₁ rs hrs
      simp only [wp_bind, wp_modify]
      refine wp_onHs (by rintro ⟨⟩) fun hs₂ heq => ?_
      cases heq
      have hremote : ∀ hs' : NoiseHandshake, hs'.rs = hs₁.rs → hs'.Remote := by
        intro hs' heq
        unfold NoiseHandshake.Remote
        rw [heq]
        exact h₁
      refine wp_mono (NoiseHandshake.wp_writeMessage_rs rfl) (fun msg hs' hw => ?_)
        (fun _ hs' hw => hunder _ rfl rfl (hone hs' (hremote hs' hw)))
      simp only [wp_ite, wp_bind, wp_throw, wp_lift, wp_modify]
      refine ⟨fun _ => hunder _ rfl rfl (hone hs' (hremote hs' hw)), fun _ => ⟨fun reply _ => ?_,
        fun _ _ => hunder _ rfl rfl (hone hs' (hremote hs' hw))⟩⟩
      refine wp_finalize (fun _ => hunder _ rfl rfl (hone hs' (hremote hs' hw))) fun tx rx => ?_
      refine ⟨⟨by rintro _ ⟨⟩, fun _ => ⟨rfl, rs, rfl, hlen⟩, fun hinitiator => ⟨rs, rfl, hlen⟩⟩, hresponder, rfl, rfl,
        .inr hsome⟩

theorem new_keyed {identity : FipsIdentity} {remotePubkey ephemeralOverride : Option Bytes} {role : Role} {sessionIdx : Nat}
    {localEpoch : Bytes} (h : FmpLink.new S identity remotePubkey role sessionIdx localEpoch ephemeralOverride = .ok l)
    (hremote : ∀ pk, remotePubkey = some pk → pk.length = 33) (hrole : role = .initiator → remotePubkey.isSome = true) :
    l.Keyed ∧ l.role = role ∧ l.state = .init ∧ l.remotePubkey = remotePubkey := by
  unfold FmpLink.new at h
  split at h
  · cases h
  · obtain ⟨hs, hnew, h⟩ := Exec.except_bind_eq_ok.1 h
    cases h
    refine ⟨⟨fun hs' hhs => ?_, by rintro ⟨⟩, fun hinitiator => ?_⟩, rfl, rfl, rfl⟩
    · cases hhs
      unfold NoiseHandshake.new at hnew
      obtain ⟨s, -, hnew⟩ := Exec.except_bind_eq_ok.1 hnew
      dsimp only at hnew
      split at hnew
      · cases hnew
      · cases hnew
        exact hremote
    · obtain ⟨pk, hpk⟩ := Option.isSome_iff_exists.1 (hrole hinitiator)
      exact ⟨pk, hpk, hremote pk hpk⟩

end FmpLink

end Fips
