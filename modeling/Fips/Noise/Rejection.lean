import Fips.Crypto.Toy
import Fips.Noise.Exchange

/-!
# What a message that was read guarantees

After a read the length of the payload follows from that of the message, and the answer of that step can be
written: the DH that read the message has shown that the peer's ephemeral is a point. `Sound` is what holds
of every Noise state a link or a session keeps.
-/

namespace Fips
open Exec

/-- What the primitives return when they do not throw: plaintexts 16 bytes shorter than their ciphertexts, and a
secret for every scalar with a point that has one for some scalar. -/
structure Suite.Exact (S : Suite) : Prop where
  decrypt_length : ∀ {k n ad ct pt}, S.decrypt k n ad ct = .ok pt → ct.length = pt.length + 16
  shared_of_point : ∀ {a b pub point z}, S.getSharedSecret a point = .ok z → S.getPublicKey b = .ok pub →
    ∃ z', S.getSharedSecret b point = .ok z'

theorem toySuite_exact : toySuite.Exact where
  decrypt_length {k n ad ct pt} h := by
    change Toy.decrypt k n ad ct = .ok pt at h
    unfold Toy.decrypt at h
    dsimp only at h
    split at h
    · rename_i heq
      cases h
      have hlen := congrArg List.length heq
      simp only [Toy.encrypt, Toy.tag, List.length_append, LittleEndian.length_leBytes] at hlen
      exact hlen
    · cases h
  shared_of_point {a b pub point z} h _ := by
    change Toy.getSharedSecret a point = .ok z at h
    unfold Toy.getSharedSecret at h
    split at h
    · rename_i hc
      exact ⟨_, if_pos hc⟩
    · cases h

/-- A compressed key with which some scalar has a secret. -/
def IsPoint (S : Suite) (pub : Bytes) : Prop := pub.length = 33 ∧ ∃ a z, S.getSharedSecret a pub = .ok z

theorem IsPoint.ecdh {S : Suite} {pub : Bytes} (hE : S.Exact) (h : IsPoint S pub) {kp : KeyPair} (hkp : kp.Valid S) :
    ∃ z, Fips.ecdh S kp.priv pub = .ok z := by
  obtain ⟨hlen, a, z, hz⟩ := h
  obtain ⟨z', hz'⟩ := hE.shared_of_point hz hkp
  refine ⟨S.sha256 z'.tail, ?_⟩
  rw [Fips.ecdh, if_neg (not_not.2 hlen), hz']
  rfl

theorem isPoint_of_ecdh {S : Suite} {priv pub z : Bytes} (h : ecdh S priv pub = .ok z) : IsPoint S pub := by
  unfold ecdh at h
  split at h
  · cases h
  · rename_i hlen
    obtain ⟨w, hw, -⟩ := Exec.except_bind_eq_ok.1 h
    exact ⟨not_not.1 hlen, priv, w, hw⟩

theorem length_ecdh {S : Suite} (hS : S.Lawful) {priv pub z : Bytes} (h : ecdh S priv pub = .ok z) : z.length = 32 := by
  unfold ecdh at h
  split at h
  · cases h
  · obtain ⟨w, -, hz⟩ := Exec.except_bind_eq_ok.1 h
    cases hz
    exact hS.sha256_length _

namespace SymmetricState
variable {S : Suite} {ss ss' : SymmetricState} {ct pt : Bytes}

/-- Under a key the plaintext is 16 bytes shorter and the key stays. -/
theorem decryptAndHash_ok (hE : S.Exact) {key : Bytes} (hk : ss.cipher.key = some key)
    (h : (decryptAndHash S ct).run ss = .ok pt ss') :
    ct.length = pt.length + 16 ∧ ss'.cipher = ⟨some key, ss.cipher.n + 1⟩ := by
  obtain ⟨pt', ss₁, hpt, h⟩ := bind_eq_ok.1 h
  obtain ⟨⟨⟩, ss₂, hmod, h⟩ := bind_eq_ok.1 h
  cases h
  cases hmod
  unfold onCipher at hpt
  have hwp : wp (zoom (·.cipher) (fun cipher ss => { ss with cipher }) (CipherState.decryptWithAd S [] ct))
      (fun pt ss₁ => ct.length = pt.length + 16 ∧ ss₁.cipher = ⟨some key, ss.cipher.n + 1⟩) (fun _ _ => True) ss := by
    rw [wp_zoom]
    unfold CipherState.decryptWithAd
    simp only [wp_bind, wp_get, hk, wp_ite, wp_throw, wp_lift, wp_set, wp_pure]
    refine ⟨fun _ => trivial, fun _ => ⟨fun pt hpt => ⟨hE.decrypt_length hpt, trivial⟩, fun _ _ => trivial⟩⟩
  have h' := (wp_of_ok hpt).1 hwp
  exact h'

end SymmetricState

namespace NoiseHandshake
variable {S : Suite} {hs hs' hs₀ : NoiseHandshake} {message payload random : Bytes} {tok : Token} {toks : List Token}

/-- The message authenticates in this state. -/
def Readable (S : Suite) (message : Bytes) (hs : NoiseHandshake) : Prop :=
  ∃ payload hs', (readMessage S message).run hs = .ok payload hs'

/-- There is an ephemeral key for an answer. -/
def CanAnswer (S : Suite) (random : Bytes) (hs : NoiseHandshake) : Prop :=
  ∃ kp, genKeyPair S hs.ephemeralOverride random = .ok kp

/-! ### The state a link or a session keeps -/

/-- The static key pair is valid, and there is a cipher key from the second step on. -/
structure Sound (S : Suite) (hs : NoiseHandshake) : Prop where
  s : KeyPair.Valid S hs.s
  keyed : hs.step ≠ 0 → hs.ss.cipher.key.isSome = true

/-- The same party at the same step, with a cipher key if it had one. -/
structure Keeps (hs hs' : NoiseHandshake) : Prop where
  pattern : hs'.pattern = hs.pattern
  role : hs'.role = hs.role
  s : hs'.s = hs.s
  ephemeralOverride : hs'.ephemeralOverride = hs.ephemeralOverride
  step : hs'.step = hs.step
  keyed : hs.ss.cipher.key.isSome = true → hs'.ss.cipher.key.isSome = true

theorem Keeps.refl (hs : NoiseHandshake) : Keeps hs hs := ⟨rfl, rfl, rfl, rfl, rfl, id⟩

theorem Keeps.trans (h : Keeps hs₀ hs) (h' : Keeps hs hs') : Keeps hs₀ hs' :=
  ⟨h'.pattern.trans h.pattern, h'.role.trans h.role, h'.s.trans h.s, h'.ephemeralOverride.trans h.ephemeralOverride,
    h'.step.trans h.step, fun hk => h'.keyed (h.keyed hk)⟩

/-- The DH tokens set a cipher key. -/
def isDh : Token → Bool
  | .e | .s => false
  | .ee | .es | .se | .ss => true

theorem tokensForStep_isDh (h : hs.tokensForStep hs.step = .ok toks) : toks.any isDh = true := by
  unfold tokensForStep at h
  split at h
  case h_6 => cases h
  case h_7 => cases h
  all_goals (cases h; rfl)

section
variable (hS : S.Lawful)
include hS

theorem wp_dh_keeps : wp (dh S tok) (fun _ hs' => Keeps hs hs' ∧ hs'.ss.cipher.key.isSome = true) (fun _ => Keeps hs) hs := by
  unfold dh
  simp only [wp_bind, wp_get, wp_lift, wp_ite, wp_throw]
  refine ⟨fun _ _ => ⟨fun shared _ => ⟨fun _ => .refl hs, fun _ => ?_⟩, fun _ _ => .refl hs⟩, fun _ _ => .refl hs⟩
  unfold onSs
  rw [wp_zoom, wp_of_ok (SymmetricState.run_mixKey hS shared hs.ss)]
  exact ⟨⟨rfl, rfl, rfl, rfl, rfl, fun _ => rfl⟩, rfl⟩

omit hS in
theorem wp_onSs_keeps {α : Type} {x : EStateM String SymmetricState α}
    (hx : wp x (fun _ ss => hs.ss.cipher.key.isSome = true → ss.cipher.key.isSome = true)
      (fun _ ss => hs.ss.cipher.key.isSome = true → ss.cipher.key.isSome = true) hs.ss) :
    wp (onSs x) (fun _ => Keeps hs) (fun _ => Keeps hs) hs := by
  unfold onSs
  rw [wp_zoom]
  exact wp_mono hx (fun _ _ h => ⟨rfl, rfl, rfl, rfl, rfl, h⟩) (fun _ _ h => ⟨rfl, rfl, rfl, rfl, rfl, h⟩)

omit hS in
theorem wp_encryptAndHash_keeps (pt : Bytes) : wp (onSs (SymmetricState.encryptAndHash S pt)) (fun _ => Keeps hs)
    (fun _ => Keeps hs) hs := by
  refine wp_onSs_keeps ?_
  unfold SymmetricState.encryptAndHash SymmetricState.onCipher CipherState.encryptWithAd
  simp only [wp_bind, wp_zoom, wp_get]
  cases hk : hs.ss.cipher.key with
  | none => simp [SymmetricState.mixHash]
  | some key =>
    simp only [wp_ite, wp_bind, wp_throw, wp_set, wp_pure, wp_modify, SymmetricState.mixHash]
    exact ⟨fun _ _ => by rw [hk]; rfl, fun _ _ => rfl⟩

omit hS in
theorem wp_decryptAndHash_keeps (ct : Bytes) : wp (onSs (SymmetricState.decryptAndHash S ct)) (fun _ => Keeps hs)
    (fun _ => Keeps hs) hs := by
  refine wp_onSs_keeps ?_
  unfold SymmetricState.decryptAndHash SymmetricState.onCipher CipherState.decryptWithAd
  simp only [wp_bind, wp_zoom, wp_get]
  cases hk : hs.ss.cipher.key with
  | none => simp [SymmetricState.mixHash]
  | some key =>
    simp only [wp_ite, wp_bind, wp_throw, wp_set, wp_pure, wp_modify, wp_lift, SymmetricState.mixHash]
    exact ⟨fun _ _ => by rw [hk]; rfl, fun _ => ⟨fun _ _ _ => rfl, fun _ _ _ => by rw [hk]; rfl⟩⟩

/-- Written or read, a token keeps the party, and a DH token leaves a key. -/
theorem wp_writeToken_keeps : wp (writeToken S random tok)
    (fun _ hs' => Keeps hs hs' ∧ (isDh tok = true → hs'.ss.cipher.key.isSome = true)) (fun _ => Keeps hs) hs := by
  have hdh {t : Token} : wp (do dh S t; return ([] : Bytes))
      (fun _ hs' => Keeps hs hs' ∧ (isDh t = true → hs'.ss.cipher.key.isSome = true)) (fun _ => Keeps hs) hs := by
    rw [wp_bind]
    exact wp_mono (wp_dh_keeps hS) (fun _ _ h => ⟨h.1, fun _ => h.2⟩) (fun _ _ => id)
  cases tok with
  | e =>
    unfold writeToken
    simp only [wp_bind, wp_get, wp_lift, wp_modify, wp_pure]
    exact ⟨fun kp _ => ⟨⟨rfl, rfl, rfl, rfl, rfl, id⟩, by rintro ⟨⟩⟩, fun _ _ => .refl hs⟩
  | s => exact wp_mono (wp_encryptAndHash_keeps _) (fun _ _ h => ⟨h, by rintro ⟨⟩⟩) (fun _ _ => id)
  | ee => exact hdh
  | es => exact hdh
  | se => exact hdh
  | ss => exact hdh

theorem wp_writeTokens_keeps : wp (writeTokens S random toks)
    (fun _ hs' => Keeps hs hs' ∧ (toks.any isDh = true → hs'.ss.cipher.key.isSome = true)) (fun _ => Keeps hs) hs := by
  induction toks generalizing hs with
  | nil => exact ⟨.refl hs, nofun⟩
  | cons tok toks ih =>
    rw [writeTokens, wp_bind]
    refine wp_mono (wp_writeToken_keeps hS) (fun chunk hs₁ h₁ => ?_) (fun _ _ => id)
    rw [wp_bind]
    refine wp_mono ih (fun rest hs₂ h₂ => ⟨h₁.1.trans h₂.1, fun hany => ?_⟩) (fun _ _ h => h₁.1.trans h)
    rw [List.any_cons, Bool.or_eq_true] at hany
    rcases hany with hany | hany
    · exact h₂.1.keyed (h₁.2 hany)
    · exact h₂.2 hany

theorem wp_writeMessage_sound (h : hs.Sound S) :
    wp (writeMessage S random payload)
      (fun _ hs' => hs'.Sound S ∧ hs'.pattern = hs.pattern ∧ hs'.role = hs.role)
      (fun _ hs' => hs'.Sound S ∧ hs'.pattern = hs.pattern ∧ hs'.role = hs.role) hs := by
  have hkeeps {hs' : NoiseHandshake} (hk : Keeps hs hs') : hs'.Sound S ∧ hs'.pattern = hs.pattern ∧ hs'.role = hs.role :=
    ⟨⟨hk.s ▸ h.s, fun hne => hk.keyed (h.keyed (hk.step ▸ hne))⟩, hk.pattern, hk.role⟩
  unfold writeMessage
  simp only [wp_bind, wp_get, wp_lift, wp_ite, wp_throw]
  refine ⟨fun toks htoks => ⟨fun _ => ⟨h, trivial, trivial⟩, fun _ => ?_⟩, fun _ _ => ⟨h, trivial, trivial⟩⟩
  refine wp_mono (wp_writeTokens_keeps hS) (fun out hs₁ h₁ => ?_) (fun _ _ hk => hkeeps hk)
  have hkey := h₁.2 (tokensForStep_isDh htoks)
  refine wp_ite.2 ⟨fun _ => ?_, fun _ => ?_⟩
  · rw [wp_bind]
    refine wp_mono (wp_encryptAndHash_keeps payload) (fun ct hs₂ h₂ => ?_) (fun _ _ h₂ => hkeeps (h₁.1.trans h₂))
    rw [wp_bind, wp_modify, wp_pure]
    have hk := h₁.1.trans h₂
    exact ⟨⟨hk.s ▸ h.s, fun _ => h₂.keyed hkey⟩, hk.pattern, hk.role⟩
  · rw [wp_bind, wp_modify, wp_pure]
    exact ⟨⟨h₁.1.s ▸ h.s, fun _ => hkey⟩, h₁.1.pattern, h₁.1.role⟩

theorem wp_readToken_keeps : wp (readToken S message tok)
    (fun _ hs' => Keeps hs hs' ∧ (isDh tok = true → hs'.ss.cipher.key.isSome = true)) (fun _ _ => True) hs := by
  have hdh {t : Token} : wp (do dh S t; return message)
      (fun _ hs' => Keeps hs hs' ∧ (isDh t = true → hs'.ss.cipher.key.isSome = true)) (fun _ _ => True) hs := by
    rw [wp_bind]
    exact wp_mono (wp_dh_keeps hS) (fun _ _ h => ⟨h.1, fun _ => h.2⟩) (fun _ _ _ => trivial)
  cases tok with
  | e =>
    unfold readToken
    simp only [wp_bind, wp_ite, wp_throw, wp_modify, wp_pure]
    exact ⟨fun _ => trivial, fun _ => ⟨⟨rfl, rfl, rfl, rfl, rfl, id⟩, by rintro ⟨⟩⟩⟩
  | s =>
    unfold readToken
    simp only [wp_bind, wp_get, wp_ite, wp_throw, implies_true, true_and]
    intro _
    refine wp_mono (wp_decryptAndHash_keeps _) (fun rs hs₁ h₁ => ?_) (fun _ _ _ => trivial)
    simp only [wp_bind, wp_modify, wp_ite, wp_throw, wp_pure]
    exact ⟨fun _ => trivial, fun _ => ⟨⟨h₁.pattern, h₁.role, h₁.s, h₁.ephemeralOverride, h₁.step, h₁.keyed⟩, by rintro ⟨⟩⟩⟩
  | ee => exact hdh
  | es => exact hdh
  | se => exact hdh
  | ss => exact hdh

theorem wp_readTokens_keeps : wp (readTokens S message toks)
    (fun _ hs' => Keeps hs hs' ∧ (toks.any isDh = true → hs'.ss.cipher.key.isSome = true)) (fun _ _ => True) hs := by
  induction toks generalizing message hs with
  | nil => exact ⟨.refl hs, nofun⟩
  | cons tok toks ih =>
    rw [readTokens, wp_bind]
    refine wp_mono (wp_readToken_keeps hS) (fun rest hs₁ h₁ => ?_) (fun _ _ _ => trivial)
    refine wp_mono ih (fun rest hs₂ h₂ => ⟨h₁.1.trans h₂.1, fun hany => ?_⟩) (fun _ _ _ => trivial)
    rw [List.any_cons, Bool.or_eq_true] at hany
    rcases hany with hany | hany
    · exact h₂.1.keyed (h₁.2 hany)
    · exact h₂.2 hany

omit hS in
/-- A read is the tokens of its step and then the payload. -/
theorem readMessage_ok (h : (readMessage S message).run hs = .ok payload hs') :
    ∃ toks remaining hs₁ hs₂, hs.tokensForStep hs.step = .ok toks ∧ hs.isSenderForStep hs.step = false ∧
      (readTokens S message toks).run hs = .ok remaining hs₁ ∧
      (if remaining.length > 0 then onSs (SymmetricState.decryptAndHash S remaining) else pure []).run hs₁ =
        .ok payload hs₂ ∧ hs' = { hs₂ with step := hs₂.step + 1 } := by
  have hplace : (readMessageInPlace S message).run hs = .ok payload hs' := by
    unfold readMessage onThrow at h
    simp only [EStateM.run] at h ⊢
    split at h
    · rename_i hx
      rw [hx, h]
    · cases h
  unfold readMessageInPlace at hplace
  obtain ⟨hs₀, hs₀', hget, h⟩ := bind_eq_ok.1 hplace
  cases hget
  obtain ⟨toks, hs₁, htoks, h⟩ := bind_eq_ok.1 h
  cases ht : hs.tokensForStep hs.step with
  | error e => rw [ht] at htoks; cases htoks
  | ok toks' =>
    rw [ht] at htoks
    cases htoks
    cases hsend : hs.isSenderForStep hs.step with
    | true => rw [hsend, if_pos rfl] at h; cases h
    | false =>
      rw [hsend, if_neg (by decide)] at h
      obtain ⟨remaining, hs₂, hread, h⟩ := bind_eq_ok.1 h
      split at h
      · rename_i hlen
        obtain ⟨payload', hs₃, hpayload, h⟩ := bind_eq_ok.1 h
        obtain ⟨⟨⟩, hs₄, hmod, h⟩ := bind_eq_ok.1 h
        cases hmod
        cases h
        exact ⟨toks, remaining, hs₂, hs₃, rfl, rfl, hread, by rw [if_pos hlen]; exact hpayload, rfl⟩
      · rename_i hlen
        cases h
        exact ⟨toks, remaining, hs₂, hs₂, rfl, rfl, hread, by rw [if_neg hlen]; rfl, rfl⟩

/-- A read leaves the next step with a cipher key. -/
theorem readMessage_sound (h : hs.Sound S) (hr : (readMessage S message).run hs = .ok payload hs') :
    hs'.Sound S ∧ hs'.pattern = hs.pattern ∧ hs'.role = hs.role ∧ hs'.s = hs.s ∧
      hs'.ephemeralOverride = hs.ephemeralOverride ∧ hs'.step = hs.step + 1 := by
  obtain ⟨toks, remaining, hs₁, hs₂, htoks, -, hread, hpayload, rfl⟩ := readMessage_ok hr
  have h₁ := (wp_of_ok hread).1 (@wp_readTokens_keeps _ hs message toks hS)
  have h₂ : Keeps hs₁ hs₂ := by
    split at hpayload
    · exact (wp_of_ok hpayload).1 (@wp_decryptAndHash_keeps S hs₁ remaining)
    · cases hpayload
      exact .refl _
  have hk := h₁.1.trans h₂
  refine ⟨⟨hk.s ▸ h.s, fun _ => h₂.keyed (h₁.2 (tokensForStep_isDh htoks))⟩, hk.pattern, hk.role, hk.s,
    hk.ephemeralOverride, ?_⟩
  show hs₂.step + 1 = _
  rw [hk.step]

end

/-! ### What was read, and what can be written -/

section
variable (hS : S.Lawful) (hE : S.Exact)

theorem dh_ok (h : (dh S tok).run hs = .ok () hs') : ∃ priv pub z, dhOperands hs tok = .ok (priv, pub) ∧
    ecdh S priv pub = .ok z := by
  unfold dh at h
  obtain ⟨hs₀, hs₀', hget, h⟩ := bind_eq_ok.1 h
  cases hget
  obtain ⟨⟨priv, pub⟩, hs₁, hop, h⟩ := bind_eq_ok.1 h
  obtain ⟨z, hs₂, hz, h⟩ := bind_eq_ok.1 h
  cases hop' : dhOperands hs tok with
  | error e => rw [hop'] at hop; cases hop
  | ok p =>
    rw [hop'] at hop
    cases hop
    cases hz' : ecdh S priv pub with
    | error e => rw [hz'] at hz; cases hz
    | ok z' => exact ⟨priv, pub, z', rfl, hz'⟩

include hS in
/-- The effect of a DH token that succeeds. -/
theorem run_dh {priv pub z : Bytes} (hop : dhOperands hs tok = .ok (priv, pub)) (hz : ecdh S priv pub = .ok z) :
    (dh S tok).run hs = .ok () { hs with ss := hs.ss.keyed S z } := by
  have hlen := length_ecdh hS hz
  have hmix := (@run_zoom_ok _ _ _ _ NoiseHandshake.ss (fun ss hs => { hs with ss }))
    (SymmetricState.run_mixKey hS z hs.ss)
  unfold dh
  rw [EStateM.run_bind, run_get]
  dsimp only
  rw [hop, EStateM.run_bind, run_lift_ok]
  dsimp only
  rw [hz, EStateM.run_bind, run_lift_ok]
  dsimp only
  rw [if_neg (not_not.2 hlen)]
  exact hmix

theorem readToken_e_ok {rest : Bytes} (h : (readToken S message .e).run hs = .ok rest hs') :
    33 ≤ message.length ∧ rest = message.drop 33 ∧
      hs' = { hs with re := some (message.take 33), ss := hs.ss.mixHash S (message.take 33) } := by
  unfold readToken at h
  dsimp only at h
  split at h
  · cases h
  · rename_i hlen
    cases h
    exact ⟨not_lt.1 hlen, rfl, rfl⟩

include hS in
theorem readToken_dh_ok {rest : Bytes} (ht : isDh tok = true) (h : (readToken S message tok).run hs = .ok rest hs') :
    rest = message ∧ ∃ priv pub z, dhOperands hs tok = .ok (priv, pub) ∧ ecdh S priv pub = .ok z ∧
      hs' = { hs with ss := hs.ss.keyed S z } := by
  have hdh : (do dh S tok; return message : EStateM String NoiseHandshake Bytes).run hs = .ok rest hs' := by
    cases tok with
    | e => cases ht
    | s => cases ht
    | ee => exact h
    | es => exact h
    | se => exact h
    | ss => exact h
  obtain ⟨⟨⟩, hs₁, hd, hret⟩ := bind_eq_ok.1 hdh
  cases hret
  obtain ⟨priv, pub, z, hop, hz⟩ := dh_ok hd
  rw [run_dh hS hop hz] at hd
  cases hd
  exact ⟨rfl, priv, pub, z, hop, hz, rfl⟩

include hE in
theorem readToken_s_ok {rest key : Bytes} (hk : hs.ss.cipher.key = some key)
    (h : (readToken S message .s).run hs = .ok rest hs') :
    49 ≤ message.length ∧ rest = message.drop 49 ∧ ∃ rs ss, hs' = { hs with ss, rs := some rs } ∧
      ss.cipher = ⟨some key, hs.ss.cipher.n + 1⟩ := by
  unfold readToken at h
  dsimp only at h
  obtain ⟨hs₀, hs₀', hget, h⟩ := bind_eq_ok.1 h
  cases hget
  have henc : (if hs.ss.cipherHasKey = true then 33 + 16 else 33) = 49 := by
    rw [SymmetricState.cipherHasKey, hk]
    rfl
  rw [henc] at h
  split at h
  · cases h
  · rename_i hlen
    obtain ⟨rs, hs₁, hrs, h⟩ := bind_eq_ok.1 h
    obtain ⟨⟨⟩, hs₂, hmod, h⟩ := bind_eq_ok.1 h
    cases hmod
    split at h
    · cases h
    · cases h
      have hwp : wp (onSs (SymmetricState.decryptAndHash S (message.take 49)))
          (fun _ hs₁ => ∃ ss, hs₁ = { hs with ss } ∧ ss.cipher = ⟨some key, hs.ss.cipher.n + 1⟩) (fun _ _ => True) hs := by
        unfold onSs
        rw [wp_zoom, wp_iff]
        exact ⟨fun pt ss hss => ⟨ss, rfl, (SymmetricState.decryptAndHash_ok hE hk hss).2⟩, fun _ _ _ => trivial⟩
      obtain ⟨ss, rfl, hcipher⟩ := (wp_of_ok hrs).1 hwp
      exact ⟨not_lt.1 hlen, rfl, rs, ss, rfl, hcipher⟩

include hE in
/-- The payload is what follows the tokens, less the tag. -/
theorem payload_ok {remaining key : Bytes} (hk : hs.ss.cipher.key = some key)
    (h : (if remaining.length > 0 then onSs (SymmetricState.decryptAndHash S remaining) else pure []).run hs =
      .ok payload hs') : payload.length = remaining.length - 16 ∧ ∃ ss n, hs' = { hs with ss } ∧
      ss.cipher = ⟨some key, n⟩ ∧ n ≤ hs.ss.cipher.n + 1 := by
  split at h
  · have hwp : wp (onSs (SymmetricState.decryptAndHash S remaining))
        (fun payload hs' => payload.length = remaining.length - 16 ∧ ∃ ss n, hs' = { hs with ss } ∧
          ss.cipher = ⟨some key, n⟩ ∧ n ≤ hs.ss.cipher.n + 1) (fun _ _ => True) hs := by
      unfold onSs
      rw [wp_zoom, wp_iff]
      refine ⟨fun pt ss hss => ?_, fun _ _ _ => trivial⟩
      obtain ⟨hlen, hcipher⟩ := SymmetricState.decryptAndHash_ok hE hk hss
      exact ⟨by omega, ss, _, rfl, hcipher, le_rfl⟩
    exact (wp_of_ok h).1 hwp
  · rename_i hlen
    cases h
    refine ⟨by simp only [List.length_nil]; omega, hs.ss, hs.ss.cipher.n, rfl, ?_, Nat.le_succ _⟩
    rw [← hk]

/-! ### The reads of the protocol -/

/-- The outcome of a read that the protocol makes: the payload length, and the keys it leaves. -/
structure Reads (S : Suite) (hs hs' : NoiseHandshake) (payload : Bytes) (length : Nat) : Prop where
  length : payload.length = length
  step : hs'.step = hs.step + 1
  pattern : hs'.pattern = hs.pattern
  role : hs'.role = hs.role
  s : hs'.s = hs.s
  e : hs'.e = hs.e
  ephemeralOverride : hs'.ephemeralOverride = hs.ephemeralOverride
  cipher : ∃ key n, hs'.ss.cipher = ⟨some key, n⟩ ∧ n ≤ 2

include hS hE in
/-- A first message read by an XK responder; its length decides whether there is a payload. -/
theorem reads_xk_first (hp : hs.pattern = .XK) (hr : hs.role = .responder) (h0 : hs.step = 0)
    (h : (readMessage S message).run hs = .ok payload hs') :
    Reads S hs hs' payload (message.length - 33 - 16) ∧ ∃ re, hs'.re = some re ∧ IsPoint S re := by
  obtain ⟨toks, remaining, hs₁, hs₂, htoks, -, hread, hpayload, rfl⟩ := readMessage_ok h
  have ht : hs.tokensForStep hs.step = .ok [.e, .es] := by simp [tokensForStep, hp, h0]
  obtain rfl : [.e, .es] = toks := Except.ok.inj (ht.symm.trans htoks)
  obtain ⟨rest₁, g₁, he, hread⟩ := bind_eq_ok.1 hread
  obtain ⟨rest₂, g₂, hes, hread⟩ := bind_eq_ok.1 hread
  cases hread
  obtain ⟨-, rfl, rfl⟩ := readToken_e_ok he
  obtain ⟨rfl, priv, pub, z, hop, hz, rfl⟩ := readToken_dh_ok hS rfl hes
  have hpub : pub = message.take 33 := by
    simp only [dhOperands, hr, require] at hop
    cases hop
    rfl
  obtain ⟨hpl, ss, n, rfl, hcipher, hn⟩ := @payload_ok _ _ _ _ hE _ ((noiseHkdf2 S _ z).2) rfl hpayload
  refine ⟨⟨?_, rfl, rfl, rfl, rfl, rfl, rfl, _, n, hcipher, ?_⟩, pub, ?_, isPoint_of_ecdh hz⟩
  · rw [hpl, List.length_drop]
  · exact hn.trans (by decide : (0 : Nat) + 1 ≤ 2)
  · rw [hpub]

include hS hE in
/-- The answer an XK initiator reads. -/
theorem reads_xk_answer (hp : hs.pattern = .XK) (h1 : hs.step = 1)
    (h : (readMessage S message).run hs = .ok payload hs') :
    Reads S hs hs' payload (message.length - 33 - 16) ∧ ∃ re, hs'.re = some re ∧ IsPoint S re := by
  obtain ⟨toks, remaining, hs₁, hs₂, htoks, -, hread, hpayload, rfl⟩ := readMessage_ok h
  have ht : hs.tokensForStep hs.step = .ok [.e, .ee] := by simp [tokensForStep, hp, h1]
  obtain rfl : [.e, .ee] = toks := Except.ok.inj (ht.symm.trans htoks)
  obtain ⟨rest₁, g₁, he, hread⟩ := bind_eq_ok.1 hread
  obtain ⟨rest₂, g₂, hee, hread⟩ := bind_eq_ok.1 hread
  cases hread
  obtain ⟨-, rfl, rfl⟩ := readToken_e_ok he
  obtain ⟨rfl, priv, pub, z, hop, hz, rfl⟩ := readToken_dh_ok hS rfl hee
  have hpub : pub = message.take 33 := by
    obtain ⟨kp, hkp, hop⟩ := Exec.except_bind_eq_ok.1 hop
    cases hop
    rfl
  obtain ⟨hpl, ss, n, rfl, hcipher, hn⟩ := @payload_ok _ _ _ _ hE _ ((noiseHkdf2 S _ z).2) rfl hpayload
  refine ⟨⟨?_, rfl, rfl, rfl, rfl, rfl, rfl, _, n, hcipher, ?_⟩, pub, ?_, isPoint_of_ecdh hz⟩
  · rw [hpl, List.length_drop]
  · exact hn.trans (by decide : (0 : Nat) + 1 ≤ 2)
  · rw [hpub]

include hS hE in
/-- The last message, which brings the initiator's static key. -/
theorem reads_xk_last (hp : hs.pattern = .XK) (h2 : hs.step = 2) (hsound : hs.Sound S)
    (h : (readMessage S message).run hs = .ok payload hs') :
    Reads S hs hs' payload (message.length - 49 - 16) ∧ hs'.rs.isSome = true ∧ 49 ≤ message.length := by
  obtain ⟨toks, remaining, hs₁, hs₂, htoks, -, hread, hpayload, rfl⟩ := readMessage_ok h
  have ht : hs.tokensForStep hs.step = .ok [.s, .se] := by simp [tokensForStep, hp, h2]
  obtain rfl : [.s, .se] = toks := Except.ok.inj (ht.symm.trans htoks)
  obtain ⟨key, hkey⟩ := Option.isSome_iff_exists.1 (hsound.keyed (by rw [h2]; decide))
  obtain ⟨rest₁, g₁, hst, hread⟩ := bind_eq_ok.1 hread
  obtain ⟨rest₂, g₂, hse, hread⟩ := bind_eq_ok.1 hread
  cases hread
  obtain ⟨hlen, rfl, rs, ss₁, rfl, -⟩ := readToken_s_ok hE hkey hst
  obtain ⟨rfl, priv, pub, z, -, -, rfl⟩ := readToken_dh_ok hS rfl hse
  obtain ⟨hpl, ss, n, rfl, hcipher, hn⟩ := @payload_ok _ _ _ _ hE _ ((noiseHkdf2 S _ z).2) rfl hpayload
  refine ⟨⟨?_, rfl, rfl, rfl, rfl, rfl, rfl, _, n, hcipher, ?_⟩, rfl, hlen⟩
  · rw [hpl, List.length_drop]
  · exact hn.trans (by decide : (0 : Nat) + 1 ≤ 2)

include hS hE in
/-- The first message of an IK initiator. -/
theorem reads_ik_first (hp : hs.pattern = .IK) (hr : hs.role = .responder) (h0 : hs.step = 0)
    (h : (readMessage S message).run hs = .ok payload hs') :
    Reads S hs hs' payload (message.length - 33 - 49 - 16) ∧ hs'.rs.isSome = true ∧
      ∃ re, hs'.re = some re ∧ IsPoint S re := by
  obtain ⟨toks, remaining, hs₁, hs₂, htoks, -, hread, hpayload, rfl⟩ := readMessage_ok h
  have ht : hs.tokensForStep hs.step = .ok [.e, .es, .s, .ss] := by simp [tokensForStep, hp, h0]
  obtain rfl : [.e, .es, .s, .ss] = toks := Except.ok.inj (ht.symm.trans htoks)
  obtain ⟨rest₁, g₁, he, hread⟩ := bind_eq_ok.1 hread
  obtain ⟨rest₂, g₂, hes, hread⟩ := bind_eq_ok.1 hread
  obtain ⟨rest₃, g₃, hst, hread⟩ := bind_eq_ok.1 hread
  obtain ⟨rest₄, g₄, hss, hread⟩ := bind_eq_ok.1 hread
  cases hread
  obtain ⟨-, rfl, rfl⟩ := readToken_e_ok he
  obtain ⟨rfl, priv, pub, z, hop, hz, rfl⟩ := readToken_dh_ok hS rfl hes
  have hpub : pub = message.take 33 := by
    simp only [dhOperands, hr, require] at hop
    cases hop
    rfl
  obtain ⟨-, rfl, rs, ss₁, rfl, -⟩ := @readToken_s_ok _ _ _ _ hE _ ((noiseHkdf2 S _ z).2) rfl hst
  obtain ⟨rfl, priv', pub', z', -, -, rfl⟩ := readToken_dh_ok hS rfl hss
  obtain ⟨hpl, ss, n, rfl, hcipher, hn⟩ := @payload_ok _ _ _ _ hE _ ((noiseHkdf2 S _ z').2) rfl hpayload
  refine ⟨⟨?_, rfl, rfl, rfl, rfl, rfl, rfl, _, n, hcipher, ?_⟩, rfl, pub, ?_, isPoint_of_ecdh hz⟩
  · rw [hpl, List.length_drop, List.length_drop]
  · exact hn.trans (by decide : (0 : Nat) + 1 ≤ 2)
  · rw [hpub]

include hS hE in
/-- The answer an IK initiator reads. -/
theorem reads_ik_answer (hp : hs.pattern = .IK) (h1 : hs.step = 1)
    (h : (readMessage S message).run hs = .ok payload hs') :
    Reads S hs hs' payload (message.length - 33 - 16) := by
  obtain ⟨toks, remaining, hs₁, hs₂, htoks, -, hread, hpayload, rfl⟩ := readMessage_ok h
  have ht : hs.tokensForStep hs.step = .ok [.e, .ee, .se] := by simp [tokensForStep, hp, h1]
  obtain rfl : [.e, .ee, .se] = toks := Except.ok.inj (ht.symm.trans htoks)
  obtain ⟨rest₁, g₁, he, hread⟩ := bind_eq_ok.1 hread
  obtain ⟨rest₂, g₂, hee, hread⟩ := bind_eq_ok.1 hread
  obtain ⟨rest₃, g₃, hse, hread⟩ := bind_eq_ok.1 hread
  cases hread
  obtain ⟨-, rfl, rfl⟩ := readToken_e_ok he
  obtain ⟨rfl, priv, pub, z, -, -, rfl⟩ := readToken_dh_ok hS rfl hee
  obtain ⟨rfl, priv', pub', z', -, -, rfl⟩ := readToken_dh_ok hS rfl hse
  obtain ⟨hpl, ss, n, rfl, hcipher, hn⟩ := @payload_ok _ _ _ _ hE _ ((noiseHkdf2 S _ z').2) rfl hpayload
  refine ⟨?_, rfl, rfl, rfl, rfl, rfl, rfl, _, n, hcipher, ?_⟩
  · rw [hpl, List.length_drop]
  · exact hn.trans (by decide : (0 : Nat) + 1 ≤ 2)

/-! ### The writes that answer them -/

theorem run_writeToken_e {kp : KeyPair} (hkp : genKeyPair S hs.ephemeralOverride random = .ok kp) :
    (writeToken S random .e).run hs = .ok kp.pub { hs with e := some kp, ss := hs.ss.mixHash S kp.pub } := by
  unfold writeToken
  dsimp only
  rw [EStateM.run_bind, run_get]
  dsimp only
  rw [hkp]
  rfl

include hS in
theorem run_writeToken_dh (ht : isDh tok = true) {priv pub z : Bytes} (hop : dhOperands hs tok = .ok (priv, pub))
    (hz : ecdh S priv pub = .ok z) :
    (writeToken S random tok).run hs = .ok [] { hs with ss := hs.ss.keyed S z } := by
  have hdh : (do dh S tok; return [] : EStateM String NoiseHandshake Bytes).run hs =
      .ok [] { hs with ss := hs.ss.keyed S z } := by
    rw [EStateM.run_bind, run_dh hS hop hz]
    rfl
  cases tok with
  | e => cases ht
  | s => cases ht
  | ee => exact hdh
  | es => exact hdh
  | se => exact hdh
  | ss => exact hdh

theorem run_seal {key : Bytes} {n : Nat} (hc : hs.ss.cipher = ⟨some key, n⟩) (hn : n < maxNonce) (pt : Bytes) :
    (onSs (SymmetricState.encryptAndHash S pt)).run hs =
      .ok (hs.ss.sealed S key pt) { hs with ss := hs.ss.advanced S (hs.ss.sealed S key pt) } := by
  have hrun := @SymmetricState.run_encryptAndHash S hs.ss key (by rw [hc]) (by rw [hc]; exact hn) pt
  exact (@run_zoom_ok _ _ _ _ NoiseHandshake.ss (fun ss hs => { hs with ss })) hrun

theorem run_writeMessage_of {out key : Bytes} {n : Nat} {hs₁ : NoiseHandshake} (ht : hs.tokensForStep hs.step = .ok toks)
    (hsend : hs.isSenderForStep hs.step = true) (hw : (writeTokens S random toks).run hs = .ok out hs₁)
    (hc : hs₁.ss.cipher = ⟨some key, n⟩) (hn : n < maxNonce) (hpl : 0 < payload.length) :
    (writeMessage S random payload).run hs = .ok (out ++ hs₁.ss.sealed S key payload)
      { hs₁ with ss := hs₁.ss.advanced S (hs₁.ss.sealed S key payload), step := hs₁.step + 1 } := by
  unfold writeMessage
  rw [EStateM.run_bind, run_get]
  dsimp only
  rw [ht, EStateM.run_bind, run_lift_ok]
  dsimp only
  rw [hsend, if_neg (by decide), EStateM.run_bind, hw]
  dsimp only
  rw [if_pos hpl, EStateM.run_bind, run_seal hc hn]
  rfl

include hS hE in
/-- After a first message an XK responder can answer if it has an ephemeral key. -/
theorem writes_xk_answer (hp : hs.pattern = .XK) (hr : hs.role = .responder) (h1 : hs.step = 1) {re : Bytes}
    (hre : hs.re = some re) (hpoint : IsPoint S re) {kp : KeyPair}
    (hkp : genKeyPair S hs.ephemeralOverride random = .ok kp) (hpl : payload.length = 8) :
    ∃ msg hs', (writeMessage S random payload).run hs = .ok msg hs' ∧ msg.length = 57 ∧ hs'.step = 2 := by
  have hvalid := genKeyPair_valid hkp
  obtain ⟨z, hz⟩ := hpoint.ecdh hE hvalid
  have hw : (writeTokens S random [.e, .ee]).run hs = .ok (kp.pub ++ ([] ++ []))
      { hs with e := some kp, ss := (hs.ss.mixHash S kp.pub).keyed S z } := by
    rw [writeTokens, EStateM.run_bind, run_writeToken_e hkp]
    dsimp only
    rw [EStateM.run_bind, writeTokens, EStateM.run_bind, (@run_writeToken_dh _ _ _ _ hS rfl kp.priv re) _ hz]
    · rfl
    · simp [dhOperands, require, hre]
  have hrun := (@run_writeMessage_of _ _ payload _ [.e, .ee] _ ((noiseHkdf2 S (hs.ss.mixHash S kp.pub).ck z).2) 0)
      (by simp [tokensForStep, hp, h1])
    (by rw [isSenderForStep, h1, hr]; decide) hw rfl
    (by decide) (by omega)
  refine ⟨_, _, hrun, ?_, ?_⟩
  · rw [List.length_append, List.length_append, SymmetricState.length_sealed hS, hpl, (hS.publicKey hvalid).1]
    rfl
  · show hs.step + 1 = 2
    rw [h1]

include hS hE in
/-- After a first message an IK responder can answer if it has an ephemeral key. -/
theorem writes_ik_answer (hp : hs.pattern = .IK) (hr : hs.role = .responder) (h1 : hs.step = 1) (hs' : hs.Sound S)
    {re : Bytes} (hre : hs.re = some re) (hpoint : IsPoint S re) {kp : KeyPair}
    (hkp : genKeyPair S hs.ephemeralOverride random = .ok kp) (hpl : payload.length = 8) :
    ∃ msg hs', (writeMessage S random payload).run hs = .ok msg hs' ∧ msg.length = 57 ∧ hs'.step = 2 := by
  have hvalid := genKeyPair_valid hkp
  obtain ⟨z, hz⟩ := hpoint.ecdh hE hvalid
  obtain ⟨z', hz'⟩ := hpoint.ecdh hE hs'.s
  have hw : (writeTokens S random [.e, .ee, .se]).run hs = .ok (kp.pub ++ ([] ++ ([] ++ [])))
      { hs with e := some kp, ss := ((hs.ss.mixHash S kp.pub).keyed S z).keyed S z' } := by
    rw [writeTokens, EStateM.run_bind, run_writeToken_e hkp]
    dsimp only
    rw [EStateM.run_bind, writeTokens, EStateM.run_bind, (@run_writeToken_dh _ _ _ _ hS rfl kp.priv re) _ hz]
    · dsimp only
      rw [EStateM.run_bind, writeTokens, EStateM.run_bind, (@run_writeToken_dh _ _ _ _ hS rfl hs.s.priv re) _ hz']
      · rfl
      · simp [dhOperands, require, hre, hp, hr]
    · simp [dhOperands, require, hre]
  have hrun := (@run_writeMessage_of _ _ payload _ [.e, .ee, .se] _ ((noiseHkdf2 S ((hs.ss.mixHash S kp.pub).keyed S
      z).ck z').2) 0) (by simp [tokensForStep, hp, h1])
    (by rw [isSenderForStep, h1, hr]; decide) hw rfl (by decide) (by omega)
  refine ⟨_, _, hrun, ?_, ?_⟩
  · rw [List.length_append, List.length_append, SymmetricState.length_sealed hS, hpl, (hS.publicKey hvalid).1]
    rfl
  · show hs.step + 1 = 2
    rw [h1]

include hS hE in
/-- After the answer an XK initiator can write the last message. -/
theorem writes_xk_last (hp : hs.pattern = .XK) (hr : hs.role = .initiator) (h2 : hs.step = 2) (hs' : hs.Sound S)
    {re : Bytes} (hre : hs.re = some re) (hpoint : IsPoint S re) {key : Bytes} {n : Nat}
    (hc : hs.ss.cipher = ⟨some key, n⟩) (hn : n ≤ 2) (hpl : payload.length = 8) :
    ∃ msg hs', (writeMessage S random payload).run hs = .ok msg hs' ∧ msg.length = 73 ∧ hs'.step = 3 := by
  obtain ⟨z, hz⟩ := hpoint.ecdh hE hs'.s
  have hw : (writeTokens S random [.s, .se]).run hs = .ok (hs.ss.sealed S key hs.s.pub ++ ([] ++ []))
      { hs with ss := (hs.ss.advanced S (hs.ss.sealed S key hs.s.pub)).keyed S z } := by
    have htok : (writeToken S random .s).run hs = .ok (hs.ss.sealed S key hs.s.pub)
        { hs with ss := hs.ss.advanced S (hs.ss.sealed S key hs.s.pub) } := by
      unfold writeToken
      dsimp only
      rw [EStateM.run_bind, run_get]
      dsimp only
      exact run_seal hc (lt_of_le_of_lt hn (by decide)) hs.s.pub
    rw [writeTokens, EStateM.run_bind, htok]
    dsimp only
    rw [EStateM.run_bind, writeTokens, EStateM.run_bind, (@run_writeToken_dh _ _ _ _ hS rfl hs.s.priv re) _ hz]
    · rfl
    · simp [dhOperands, require, hre, hp, hr]
  have hrun := (@run_writeMessage_of _ _ payload _ [.s, .se] _ ((noiseHkdf2 S (hs.ss.advanced S (hs.ss.sealed S key
      hs.s.pub)).ck z).2) 0) (by simp [tokensForStep, hp, h2])
    (by rw [isSenderForStep, h2, hr]; decide) hw rfl (by decide) (by omega)
  refine ⟨_, _, hrun, ?_, ?_⟩
  · rw [List.length_append, List.length_append, SymmetricState.length_sealed hS, SymmetricState.length_sealed hS, hpl,
      (hS.publicKey hs'.s).1]
    rfl
  · show hs.step + 1 = 3
    rw [h2]

/-- An answer starts with the ephemeral key: without one nothing is written. -/
theorem run_writeMessage_error {e : String} {rest : List Token} (ht : hs.tokensForStep hs.step = .ok (.e :: rest))
    (hsend : hs.isSenderForStep hs.step = true) (hkp : genKeyPair S hs.ephemeralOverride random = .error e) :
    (writeMessage S random payload).run hs = .error e hs := by
  have htok : (writeToken S random .e).run hs = .error e hs := by
    unfold writeToken
    dsimp only
    rw [EStateM.run_bind, run_get]
    dsimp only
    rw [hkp]
    rfl
  unfold writeMessage
  rw [EStateM.run_bind, run_get]
  dsimp only
  rw [ht, EStateM.run_bind, run_lift_ok]
  dsimp only
  rw [hsend, if_neg (by decide), EStateM.run_bind, writeTokens, EStateM.run_bind, htok]

end

end NoiseHandshake

end Fips
