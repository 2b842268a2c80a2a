import Fips.Noise.Handshake

/-!
# The two ends of a handshake stay in step

`Mirror S w r`: between two messages the ends share one symmetric state, each knows the other's
ephemeral as it was sent, and each one's copy of the other's static is right up to the parity byte. A
token written by `w` and read by `r` (`Exchange`) keeps it; the DH tokens because the operands of the
two roles are the two ends of one Diffie-Hellman exchange.
-/

namespace Fips
open Exec SymmetricState

/-- The public key is that of the private scalar. -/
def KeyPair.Valid (S : Suite) (kp : KeyPair) : Prop := S.getPublicKey kp.priv = .ok kp.pub

namespace NoiseHandshake

/-- The ends `w` and `r` of one handshake, between two tokens. -/
structure Mirror (S : Suite) (w r : NoiseHandshake) : Prop where
  pattern : w.pattern = r.pattern
  role : w.role ≠ r.role
  step : w.step = r.step
  ss : w.ss = r.ss
  w_s : KeyPair.Valid S w.s
  r_s : KeyPair.Valid S r.s
  w_e : ∀ kp, w.e = some kp → KeyPair.Valid S kp
  r_e : ∀ kp, r.e = some kp → KeyPair.Valid S kp
  r_re : r.re = w.e.map KeyPair.pub
  w_re : w.re = r.e.map KeyPair.pub
  r_rs : ∀ b, r.rs = some b → SameX b w.s.pub
  w_rs : ∀ b, w.rs = some b → SameX b r.s.pub

variable {S : Suite} {w r w' r' : NoiseHandshake} {random : Bytes}

theorem Mirror.symm (h : Mirror S w r) : Mirror S r w :=
  ⟨h.pattern.symm, h.role.symm, h.step.symm, h.ss.symm, h.r_s, h.w_s, h.r_e, h.w_e, h.w_re, h.r_re,
    h.w_rs, h.r_rs⟩

theorem Mirror.initiator_of_ne (h : Mirror S w r) (hw : w.role ≠ .initiator) : r.role = .initiator := by
  have hne := h.role
  cases hr : r.role with
  | initiator => rfl
  | responder => cases hww : w.role <;> simp_all

theorem Mirror.responder (h : Mirror S w r) (hw : w.role = .initiator) : r.role = .responder := by
  cases hr : r.role with
  | initiator => exact absurd (hw.trans hr.symm) h.role
  | responder => rfl

/-- Replacing the shared symmetric state at both ends. -/
theorem Mirror.setSs (h : Mirror S w r) (ss : SymmetricState) :
    Mirror S { w with ss } { r with ss } :=
  ⟨h.pattern, h.role, h.step, rfl, h.w_s, h.r_s, h.w_e, h.r_e, h.r_re, h.w_re, h.r_rs, h.w_rs⟩

theorem Mirror.setStep (h : Mirror S w r) (step : Nat) : Mirror S { w with step } { r with step } :=
  ⟨h.pattern, h.role, rfl, h.ss, h.w_s, h.r_s, h.w_e, h.r_e, h.r_re, h.w_re, h.r_rs, h.w_rs⟩

/-- The keys a DH token needs, at the initiator `i` and the responder `r`. -/
def Ready (tok : Token) (i r : NoiseHandshake) : Prop :=
  match tok with
  | .ee => i.e.isSome ∧ r.e.isSome
  | .es => i.e.isSome ∧ i.rs.isSome
  | .se => if i.pattern = .IK then i.e.isSome ∧ i.rs.isSome else r.e.isSome ∧ r.rs.isSome
  | .ss => i.rs.isSome ∧ r.rs.isSome
  | .e | .s => False

/-- The operands of a ready DH token are the two ends of one exchange. -/
theorem Mirror.operands (hS : S.Lawful) (h : Mirror S w r) (hw : w.role = .initiator) {tok : Token}
    (ht : Ready tok w r) : ∃ a A A' b B B', w.dhOperands tok = .ok (a, B') ∧ r.dhOperands tok = .ok (b, A') ∧
      S.getPublicKey a = .ok A ∧ S.getPublicKey b = .ok B ∧ SameX A' A ∧ SameX B' B := by
  have hx : ∀ {priv pub : Bytes}, S.getPublicKey priv = .ok pub → SameX pub pub := fun h => .refl (hS.publicKey h)
  have hr := h.responder hw
  have hwre := h.w_re
  have hrre := h.r_re
  cases tok with
  | e | s => exact absurd ht (by simp [Ready])
  | ee =>
    obtain ⟨h₁, h₂⟩ := ht
    obtain ⟨kw, hkw⟩ := Option.isSome_iff_exists.1 h₁
    obtain ⟨kr, hkr⟩ := Option.isSome_iff_exists.1 h₂
    rw [hkw] at hrre; rw [hkr] at hwre
    exact ⟨_, _, _, _, _, _, by simp [dhOperands, require, hkw, hwre], by simp [dhOperands, require, hkr, hrre],
      h.w_e kw hkw, h.r_e kr hkr, hx (h.w_e kw hkw), hx (h.r_e kr hkr)⟩
  | es =>
    obtain ⟨h₁, h₂⟩ := ht
    obtain ⟨kw, hkw⟩ := Option.isSome_iff_exists.1 h₁
    obtain ⟨b, hb⟩ := Option.isSome_iff_exists.1 h₂
    rw [hkw] at hrre
    exact ⟨_, _, _, _, _, _, by simp [dhOperands, require, hw, hkw, hb],
      by simp [dhOperands, require, hr, hrre], h.w_e kw hkw, h.r_s, hx (h.w_e kw hkw), h.w_rs b hb⟩
  | se =>
    simp only [Ready] at ht
    split at ht
    · next hp =>
      obtain ⟨kw, hkw⟩ := Option.isSome_iff_exists.1 ht.1
      obtain ⟨b, hb⟩ := Option.isSome_iff_exists.1 ht.2
      rw [hkw] at hrre
      exact ⟨_, _, _, _, _, _, by simp [dhOperands, require, hp, hw, hkw, hb],
        by simp [dhOperands, require, ← h.pattern, hp, hr, hrre], h.w_e kw hkw, h.r_s,
        hx (h.w_e kw hkw), h.w_rs b hb⟩
    · next hp =>
      obtain ⟨kr, hkr⟩ := Option.isSome_iff_exists.1 ht.1
      obtain ⟨b, hb⟩ := Option.isSome_iff_exists.1 ht.2
      rw [hkr] at hwre
      exact ⟨_, _, _, _, _, _, by simp [dhOperands, require, hp, hw, hwre],
        by simp [dhOperands, require, ← h.pattern, hp, hr, hkr, hb], h.w_s, h.r_e kr hkr,
        h.r_rs b hb, hx (h.r_e kr hkr)⟩
  | ss =>
    obtain ⟨h₁, h₂⟩ := ht
    obtain ⟨b, hb⟩ := Option.isSome_iff_exists.1 h₁
    obtain ⟨b', hb'⟩ := Option.isSome_iff_exists.1 h₂
    exact ⟨_, _, _, _, _, _, by simp [dhOperands, require, hb], by simp [dhOperands, require, hb'],
      h.w_s, h.r_s, h.r_rs b' hb', h.w_rs b hb⟩

section
variable (hS : S.Lawful)
include hS

/-- Both ends of a ready DH token mix the same secret. -/
theorem Mirror.run_dh (h : Mirror S w r) (hw : w.role = .initiator) {tok : Token} (ht : Ready tok w r) :
    ∃ z, (dh S tok).run w = .ok () { w with ss := keyed S z w.ss } ∧
      (dh S tok).run r = .ok () { r with ss := keyed S z r.ss } := by
  obtain ⟨a, A, A', b, B, B', how, hor, ha, hb, hA, hB⟩ := h.operands hS hw ht
  obtain ⟨z, hz, hz', hlen⟩ := ecdh_comm hS ha hb hA hB
  exact ⟨z, by simp [dh, how, hz, hlen, onSs, run_zoom_ok (run_mixKey hS z w.ss)],
    by simp [dh, hor, hz', hlen, onSs, run_zoom_ok (run_mixKey hS z r.ss)]⟩

end

/-- `tok` written at `w` as `bytes` and read at `r`, which consumes exactly `bytes`. -/
structure TokenStep (S : Suite) (random : Bytes) (tok : Token) (w r : NoiseHandshake) (bytes : Bytes)
    (w' r' : NoiseHandshake) : Prop where
  write : (writeToken S random tok).run w = .ok bytes w'
  read : ∀ rest, (readToken S (bytes ++ rest) tok).run r = .ok rest r'
  mirror : Mirror S w' r'

/-- The tokens of a message, written at `w` and read at `r`. -/
inductive Exchange (S : Suite) (random : Bytes) :
    List Token → NoiseHandshake → NoiseHandshake → Bytes → NoiseHandshake → NoiseHandshake → Prop
  | nil {w r : NoiseHandshake} (h : Mirror S w r) : Exchange S random [] w r [] w r
  | cons {tok : Token} {toks : List Token} {b b' : Bytes} {w r w₁ r₁ w' r' : NoiseHandshake}
      (h : TokenStep S random tok w r b w₁ r₁) (hs : Exchange S random toks w₁ r₁ b' w' r') :
      Exchange S random (tok :: toks) w r (b ++ b') w' r'

namespace Exchange
variable {toks : List Token} {b : Bytes}

theorem mirror (h : Exchange S random toks w r b w' r') : Mirror S w' r' := by
  induction h with
  | nil h => exact h
  | cons _ _ ih => exact ih

theorem write (h : Exchange S random toks w r b w' r') : (writeTokens S random toks).run w = .ok b w' := by
  induction h with
  | nil => rfl
  | cons h _ ih => simp [writeTokens, h.write, ih]

theorem read (h : Exchange S random toks w r b w' r') (rest : Bytes) :
    (readTokens S (b ++ rest) toks).run r = .ok rest r' := by
  induction h with
  | nil => rfl
  | cons h _ ih => simp [readTokens, h.read, ih]

end Exchange

section
variable (hS : S.Lawful)
include hS

theorem Mirror.token_e (h : Mirror S w r) {kp : KeyPair}
    (hkp : genKeyPair S w.ephemeralOverride random = .ok kp) (hv : kp.Valid S) :
    TokenStep S random .e w r kp.pub { w with e := some kp, ss := mixHash S kp.pub w.ss }
      { r with re := some kp.pub, ss := mixHash S kp.pub w.ss } := by
  have hlen : kp.pub.length = 33 := (hS.publicKey hv).1
  refine ⟨by simp [writeToken, hkp], fun rest => by simp [readToken, hlen, h.ss], ?_⟩
  exact ⟨h.pattern, h.role, h.step, rfl, h.w_s, h.r_s, fun _ hk => by cases hk; exact hv, h.r_e, rfl, h.w_re,
    h.r_rs, h.w_rs⟩

theorem Mirror.token_s (h : Mirror S w r) {key : Bytes} (hk : w.ss.cipher.key = some key)
    (hn : w.ss.cipher.n < maxNonce) :
    TokenStep S random .s w r (sealed S key w.s.pub w.ss)
      { w with ss := advanced S (sealed S key w.s.pub w.ss) w.ss }
      { r with rs := some w.s.pub, ss := advanced S (sealed S key w.s.pub w.ss) w.ss } := by
  have hpub := hS.publicKey h.w_s
  have hlen : (sealed S key w.s.pub w.ss).length = 49 := by rw [length_sealed hS, hpub.1]
  refine ⟨by simp [writeToken, onSs, run_zoom_ok (run_encryptAndHash hk hn w.s.pub)], fun rest => ?_, ?_⟩
  · have hd := run_decryptAndHash hS hk hn w.s.pub
    rw [h.ss] at hd hk hlen ⊢
    have htake : (sealed S key w.s.pub r.ss ++ rest).take 49 = sealed S key w.s.pub r.ss := by
      rw [← hlen, List.take_left]
    have hdrop : (sealed S key w.s.pub r.ss ++ rest).drop 49 = rest := by rw [← hlen, List.drop_left]
    simp [readToken, cipherHasKey, hk, hlen, htake, hdrop, onSs, run_zoom_ok hd, hpub.1]
  · exact ⟨h.pattern, h.role, h.step, rfl, h.w_s, h.r_s, h.w_e, h.r_e, h.r_re, h.w_re,
      fun _ hb => by cases hb; exact .refl hpub, h.w_rs⟩

/-- A ready DH token, whichever role writes it. -/
theorem Mirror.token_dh (h : Mirror S w r) {tok : Token}
    (ht : if w.role = .initiator then Ready tok w r else Ready tok r w) :
    ∃ z, TokenStep S random tok w r [] { w with ss := keyed S z w.ss } { r with ss := keyed S z w.ss } := by
  have hdh : ∃ z, (dh S tok).run w = .ok () { w with ss := keyed S z w.ss } ∧
      (dh S tok).run r = .ok () { r with ss := keyed S z r.ss } := by
    split at ht
    · exact h.run_dh hS ‹_› ht
    · obtain ⟨z, h₁, h₂⟩ := h.symm.run_dh hS (h.initiator_of_ne ‹_›) ht
      exact ⟨z, h₂, h₁⟩
  obtain ⟨z, hw, hr⟩ := hdh
  rw [← h.ss] at hr
  refine ⟨z, ?_, fun rest => ?_, h.setSs _⟩
  · cases tok with
    | e | s => exact absurd ht (by simp [Ready])
    | ee | es | se | ss => simp [writeToken, hw]
  · cases tok with
    | e | s => exact absurd ht (by simp [Ready])
    | ee | es | se | ss => simp [readToken, hr]

omit hS in
theorem Mirror.not_sender (h : Mirror S w r) {step : Nat} (hs : w.isSenderForStep step = true) :
    r.isSenderForStep step = false := by
  have hne := h.role
  cases hw : w.role <;> cases hr : r.role <;> simp_all [isSenderForStep]

omit hS in
theorem Mirror.tokensForStep_eq (h : Mirror S w r) (step : Nat) : r.tokensForStep step = w.tokensForStep step := by
  simp only [tokensForStep, h.pattern]

/-- A whole message: its tokens, then the payload under the current key unless it is empty. -/
theorem Mirror.message (h : Mirror S w r) {toks : List Token} {b payload : Bytes}
    (htok : w.tokensForStep w.step = .ok toks) (hsend : w.isSenderForStep w.step = true)
    (hx : Exchange S random toks w r b w' r') (hstep : w'.step = w.step)
    (hp : payload ≠ [] → ∃ key, w'.ss.cipher.key = some key ∧ w'.ss.cipher.n < maxNonce) :
    ∃ m ss, (writeMessage S random payload).run w = .ok m { w' with ss, step := w.step + 1 } ∧
      (readMessage S m).run r = .ok payload { r' with ss, step := w.step + 1 } ∧
      Mirror S { w' with ss, step := w.step + 1 } { r' with ss, step := w.step + 1 } ∧
      (ss.cipher.key = w'.ss.cipher.key ∧ ss.cipher.n ≤ w'.ss.cipher.n + 1) ∧
      m.length = b.length + (if payload = [] then 0 else payload.length + 16) := by
  have hread : r.isSenderForStep r.step = false := h.step ▸ h.not_sender hsend
  have htokr : r.tokensForStep r.step = .ok toks := by rw [← h.step, h.tokensForStep_eq, htok]
  have hstepr : r'.step = w.step := by rw [← hx.mirror.step, hstep]
  have hmir (ss : SymmetricState) :
      Mirror S { w' with ss, step := w.step + 1 } { r' with ss, step := w.step + 1 } :=
    (hx.mirror.setSs ss).setStep (w.step + 1)
  by_cases hempty : payload = []
  · subst hempty
    have hr := hx.read []
    rw [List.append_nil] at hr
    refine ⟨b, w'.ss, by simp [writeMessage, htok, hsend, hx.write, hstep], ?_, hmir _, by simp, by simp⟩
    refine run_onThrow_ok ?_
    simp [readMessageInPlace, htokr, hread, hr, hstepr, hx.mirror.ss]
  · obtain ⟨key, hk, hn⟩ := hp hempty
    have hlen : 0 < payload.length := List.length_pos_iff.2 hempty
    have henc := run_encryptAndHash (S := S) hk hn payload
    have hdec := run_decryptAndHash hS hk hn payload
    refine ⟨b ++ sealed S key payload w'.ss, advanced S (sealed S key payload w'.ss) w'.ss, ?_, ?_, hmir _,
      ⟨rfl, le_rfl⟩, ?_⟩
    · simp [writeMessage, htok, hsend, hx.write, hlen, onSs, run_zoom_ok henc, hstep]
    · rw [hx.mirror.ss] at hdec ⊢
      have hpos : 0 < (sealed S key payload r'.ss).length := by rw [length_sealed hS]; omega
      refine run_onThrow_ok ?_
      simp [readMessageInPlace, htokr, hread, hx.read, hpos, onSs, run_zoom_ok hdec, hstepr]
    · simp [length_sealed hS, hempty]

/-! ### The five messages -/

variable {i : NoiseHandshake} {kp : KeyPair} {payload : Bytes}

omit hS in
theorem keyed_ready (z : Bytes) (ss : SymmetricState) :
    ∃ key, (keyed S z ss).cipher.key = some key ∧ (keyed S z ss).cipher.n < maxNonce :=
  ⟨_, rfl, by simp [keyed, maxNonce]⟩

/-- `-> e, es, s, ss` -/
theorem Mirror.ik_msg1 (h : Mirror S i r) (hi : i.role = .initiator) (hp : i.pattern = .IK) (h0 : i.step = 0)
    (hrs : i.rs.isSome) (hkp : genKeyPair S i.ephemeralOverride random = .ok kp) (hv : kp.Valid S)
    (hpl : payload ≠ []) :
    ∃ m ss, (writeMessage S random payload).run i = .ok m { i with e := some kp, ss, step := 1 } ∧
      (readMessage S m).run r =
        .ok payload { r with re := some kp.pub, rs := some i.s.pub, ss, step := 1 } ∧
      Mirror S { i with e := some kp, ss, step := 1 }
        { r with re := some kp.pub, rs := some i.s.pub, ss, step := 1 } ∧
      m.length = 98 + payload.length := by
  have s₁ := h.token_e hS hkp hv
  obtain ⟨z₁, s₂⟩ := @NoiseHandshake.Mirror.token_dh _ _ _ random hS s₁.mirror .es (by simp [hi, Ready, hrs])
  obtain ⟨key, hk, hn⟩ := keyed_ready (S := S) z₁ (mixHash S kp.pub i.ss)
  have s₃ := (@NoiseHandshake.Mirror.token_s _ _ _ random) hS s₂.mirror hk hn
  obtain ⟨z₂, s₄⟩ := @NoiseHandshake.Mirror.token_dh _ _ _ random hS s₃.mirror .ss (by simp [hi, Ready, hrs])
  have hx := Exchange.cons s₁ (.cons s₂ (.cons s₃ (.cons s₄ (.nil s₄.mirror))))
  obtain ⟨m, ss, hw, hr, hm, -, hlen⟩ := @NoiseHandshake.Mirror.message _ _ _ _ _ _ hS h _ _ payload (by simp [tokensForStep, hp, h0])
    (by simp [isSenderForStep, h0, hi]) hx rfl (fun _ => keyed_ready _ _)
  rw [h0] at hw hr hm
  refine ⟨m, ss, hw, hr, hm, ?_⟩
  rw [hlen]
  simp [(hS.publicKey hv).1, length_sealed hS, (hS.publicKey h.w_s).1, hpl]
  omega

/-- `<- e, ee, se`, where `se` repeats the operands of `es` -/
theorem Mirror.ik_msg2 (h : Mirror S r i) (hi : i.role = .initiator) (hp : i.pattern = .IK) (h1 : i.step = 1)
    (he : i.e.isSome) (hrs : i.rs.isSome) (hkp : genKeyPair S r.ephemeralOverride random = .ok kp)
    (hv : kp.Valid S) (hpl : payload ≠ []) :
    ∃ m ss, (writeMessage S random payload).run r = .ok m { r with e := some kp, ss, step := 2 } ∧
      (readMessage S m).run i = .ok payload { i with re := some kp.pub, ss, step := 2 } ∧
      m.length = 49 + payload.length := by
  have hr := h.symm.responder hi
  have s₁ := h.token_e hS hkp hv
  obtain ⟨z₁, s₂⟩ := @NoiseHandshake.Mirror.token_dh _ _ _ random hS s₁.mirror .ee (by simp [hr, Ready, he])
  obtain ⟨z₂, s₃⟩ := @NoiseHandshake.Mirror.token_dh _ _ _ random hS s₂.mirror .se (by simp [hr, Ready, he, hrs, hp])
  have hx := Exchange.cons s₁ (.cons s₂ (.cons s₃ (.nil s₃.mirror)))
  have h1' : r.step = 1 := h.step.trans h1
  obtain ⟨m, ss, hw, hrd, -, -, hlen⟩ := @NoiseHandshake.Mirror.message _ _ _ _ _ _ hS h _ _ payload
    (by simp [tokensForStep, h.pattern, hp, h1']) (by simp [isSenderForStep, h1', hr]) hx rfl
    (fun _ => keyed_ready _ _)
  rw [h1'] at hw hrd
  refine ⟨m, ss, hw, hrd, ?_⟩
  rw [hlen]
  simp [(hS.publicKey hv).1, hpl]
  omega

/-- `-> e, es` with no payload -/
theorem Mirror.xk_msg1 (h : Mirror S i r) (hi : i.role = .initiator) (hp : i.pattern = .XK) (h0 : i.step = 0)
    (hrs : i.rs.isSome) (hkp : genKeyPair S i.ephemeralOverride random = .ok kp) (hv : kp.Valid S) :
    ∃ m ss, (writeMessage S random []).run i = .ok m { i with e := some kp, ss, step := 1 } ∧
      (readMessage S m).run r = .ok [] { r with re := some kp.pub, ss, step := 1 } ∧
      Mirror S { i with e := some kp, ss, step := 1 } { r with re := some kp.pub, ss, step := 1 } ∧
      m.length = 33 := by
  have s₁ := h.token_e hS hkp hv
  obtain ⟨z₁, s₂⟩ := @NoiseHandshake.Mirror.token_dh _ _ _ random hS s₁.mirror .es (by simp [hi, Ready, hrs])
  have hx := Exchange.cons s₁ (.cons s₂ (.nil s₂.mirror))
  obtain ⟨m, ss, hw, hr, hm, -, hlen⟩ := @NoiseHandshake.Mirror.message _ _ _ _ _ _ hS h _ _ [] (by simp [tokensForStep, hp, h0])
    (by simp [isSenderForStep, h0, hi]) hx rfl (fun hne => absurd rfl hne)
  rw [h0] at hw hr hm
  exact ⟨m, ss, hw, hr, hm, by rw [hlen]; simp [(hS.publicKey hv).1]⟩

/-- `<- e, ee` -/
theorem Mirror.xk_msg2 (h : Mirror S r i) (hi : i.role = .initiator) (hp : i.pattern = .XK) (h1 : i.step = 1)
    (he : i.e.isSome) (hkp : genKeyPair S r.ephemeralOverride random = .ok kp) (hv : kp.Valid S)
    (hpl : payload ≠ []) :
    ∃ m ss, (writeMessage S random payload).run r = .ok m { r with e := some kp, ss, step := 2 } ∧
      (readMessage S m).run i = .ok payload { i with re := some kp.pub, ss, step := 2 } ∧
      Mirror S { r with e := some kp, ss, step := 2 } { i with re := some kp.pub, ss, step := 2 } ∧
      (∃ key, ss.cipher.key = some key ∧ ss.cipher.n < maxNonce) ∧ m.length = 49 + payload.length := by
  have hr := h.symm.responder hi
  have s₁ := h.token_e hS hkp hv
  obtain ⟨z₁, s₂⟩ := @NoiseHandshake.Mirror.token_dh _ _ _ random hS s₁.mirror .ee (by simp [hr, Ready, he])
  have hx := Exchange.cons s₁ (.cons s₂ (.nil s₂.mirror))
  have h1' : r.step = 1 := h.step.trans h1
  obtain ⟨m, ss, hw, hrd, hm, hss, hlen⟩ := @NoiseHandshake.Mirror.message _ _ _ _ _ _ hS h _ _ payload
    (by simp [tokensForStep, h.pattern, hp, h1']) (by simp [isSenderForStep, h1', hr]) hx rfl
    (fun _ => keyed_ready _ _)
  rw [h1'] at hw hrd hm
  refine ⟨m, ss, hw, hrd, hm, ?_, ?_⟩
  · refine ⟨_, hss.1, Nat.lt_of_le_of_lt hss.2 ?_⟩
    simp [keyed, maxNonce]
  · rw [hlen]
    simp [(hS.publicKey hv).1, hpl]
    omega

/-- `-> s, se` -/
theorem Mirror.xk_msg3 (h : Mirror S i r) (hi : i.role = .initiator) (hp : i.pattern = .XK) (h2 : i.step = 2)
    (he : r.e.isSome) (hk : ∃ key, i.ss.cipher.key = some key ∧ i.ss.cipher.n < maxNonce) (hpl : payload ≠ []) :
    ∃ m ss, (writeMessage S random payload).run i = .ok m { i with ss, step := 3 } ∧
      (readMessage S m).run r = .ok payload { r with rs := some i.s.pub, ss, step := 3 } ∧
      m.length = 65 + payload.length := by
  obtain ⟨key, hk, hn⟩ := hk
  have s₁ := (@NoiseHandshake.Mirror.token_s _ _ _ random) hS h hk hn
  obtain ⟨z₁, s₂⟩ := @NoiseHandshake.Mirror.token_dh _ _ _ random hS s₁.mirror .se (by simp [hi, Ready, hp, he])
  have hx := Exchange.cons s₁ (.cons s₂ (.nil s₂.mirror))
  obtain ⟨m, ss, hw, hr, -, -, hlen⟩ := @NoiseHandshake.Mirror.message _ _ _ _ _ _ hS h _ _ payload (by simp [tokensForStep, hp, h2])
    (by simp [isSenderForStep, h2, hi]) hx rfl (fun _ => keyed_ready _ _)
  rw [h2] at hw hr
  refine ⟨m, ss, hw, hr, ?_⟩
  rw [hlen]
  simp [length_sealed hS, (hS.publicKey h.w_s).1, hpl]
  omega

/-! ### Fresh ends -/

omit hS in
theorem normalized_eq {a b : Bytes} (h : SameX a b) : normalized a = normalized b := by
  obtain ⟨⟨ha, -⟩, ⟨hb, -⟩, ht⟩ := h
  match a, b with
  | x :: xs, y :: ys => simp only [normalized, List.set_cons_zero, List.cons.injEq, true_and]; exact ht
  | [], _ => cases ha
  | _ :: _, [] => cases hb

omit hS in
/-- The two ends of a handshake before its first message: the initiator may have either parity of the
responder's static. -/
theorem Mirror.fresh {idI idR : FipsIdentity} (pattern : NoisePattern) (hI : idI.Valid S) (hR : idR.Valid S)
    {remote : Bytes} (hr : SameX remote idR.publicKey) (ovI ovR : Option Bytes) :
    ∃ i r, NoiseHandshake.new S pattern .initiator idI (some remote) ovI = .ok i ∧
      NoiseHandshake.new S pattern .responder idR none ovR = .ok r ∧ Mirror S i r ∧
      i.role = .initiator ∧ i.pattern = pattern ∧ i.step = 0 ∧ i.e = none ∧ i.rs = some remote ∧
      i.s.pub = idI.publicKey ∧ i.ephemeralOverride = ovI ∧ r.role = .responder ∧ r.ephemeralOverride = ovR := by
  have hI' : deriveKeyPair S idI.secretKey = .ok ⟨idI.secretKey, idI.publicKey⟩ := by
    simp [deriveKeyPair, hI.publicKey]
  have hR' : deriveKeyPair S idR.secretKey = .ok ⟨idR.secretKey, idR.publicKey⟩ := by
    simp [deriveKeyPair, hR.publicKey]
  refine ⟨_, _, by simp [NoiseHandshake.new, hI']; rfl, by simp [NoiseHandshake.new, hR']; rfl, ?_,
    rfl, rfl, rfl, rfl, rfl, rfl, rfl, rfl, rfl⟩
  exact ⟨rfl, nofun, rfl, by rw [normalized_eq hr], hI.publicKey, hR.publicKey, nofun, nofun, rfl, rfl, nofun,
    fun b hb => by cases hb; exact hr⟩

end

end NoiseHandshake

end Fips
