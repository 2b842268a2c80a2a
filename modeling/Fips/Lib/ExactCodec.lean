import Mathlib

/-!
# Encoders and decoders that are exact

An encoder `α → Except ε β` and a decoder `β → Except ε α` are exact over the values in `wf` and the inputs in `whole`
when what is encoded is decoded again, and what is decoded encodes to the input just when that is in `whole`. Where
`whole` is everything, the decoder accepts the image of the encoder and nothing else.
-/

namespace ExactCodec
variable {α β ε : Type*} {wf : α → Prop} {whole : β → Prop} {encode : α → Except ε β} {decode : β → Except ε α}
  {a : α} {b b' : β}

/-- The two directions; `whole` are the inputs on which the second one is byte for byte. -/
structure ExactOn (wf : α → Prop) (whole : β → Prop) (encode : α → Except ε β) (decode : β → Except ε α) : Prop where
  decode_encode : ∀ a, wf a → ∃ b, encode a = .ok b ∧ whole b ∧ decode b = .ok a
  encode_decode : ∀ b a, decode b = .ok a → wf a ∧ (encode a = .ok b ↔ whole b)

/-- Both directions, on every input. -/
def Exact (wf : α → Prop) (encode : α → Except ε β) (decode : β → Except ε α) : Prop :=
  ExactOn wf (fun _ => True) encode decode

/-- The form in which a codec gives its bytes: `enc` is the encoding of a well-formed value, and what is accepted starts
with it. -/
theorem ExactOn.of_bytes {enc : α → β} (hencode : ∀ a, wf a → encode a = .ok (enc a))
    (hdecode : ∀ a, wf a → decode (enc a) = .ok a) (henc : ∀ a, wf a → whole (enc a))
    (hsound : ∀ b a, decode b = .ok a → wf a ∧ (whole b → b = enc a)) : ExactOn wf whole encode decode where
  decode_encode a ha := ⟨enc a, hencode a ha, henc a ha, hdecode a ha⟩
  encode_decode b a h := by
    obtain ⟨ha, hb⟩ := hsound b a h
    refine ⟨ha, fun he => ?_, fun hw => by rw [hencode a ha, hb hw]⟩
    rw [hencode a ha] at he
    cases he
    exact henc a ha

theorem Exact.of_bytes {enc : α → β} (hencode : ∀ a, wf a → encode a = .ok (enc a))
    (hdecode : ∀ a, wf a → decode (enc a) = .ok a) (hsound : ∀ b a, decode b = .ok a → wf a ∧ b = enc a) :
    Exact wf encode decode :=
  @ExactOn.of_bytes _ _ _ _ (fun _ => True) _ _ enc hencode hdecode (fun _ _ => trivial) fun b a h =>
    ⟨(hsound b a h).1, fun _ => (hsound b a h).2⟩

/-- Of the inputs in `whole`, no two decode to one value. -/
theorem ExactOn.injective (h : ExactOn wf whole encode decode) (hb : whole b) (hb' : whole b') (hd : decode b = .ok a)
    (hd' : decode b' = .ok a) : b = b' := by
  have he := (h.encode_decode b a hd).2.2 hb
  have he' := (h.encode_decode b' a hd').2.2 hb'
  exact Except.ok.inj (he.symm.trans he')

theorem Exact.injective (h : Exact wf encode decode) (hd : decode b = .ok a) (hd' : decode b' = .ok a) : b = b' :=
  ExactOn.injective h trivial trivial hd hd'

theorem Exact.encode_of_decode (h : Exact wf encode decode) (hd : decode b = .ok a) : wf a ∧ encode a = .ok b :=
  ⟨(h.encode_decode b a hd).1, (h.encode_decode b a hd).2.2 trivial⟩

theorem Exact.decode_of_encode (h : Exact wf encode decode) (ha : wf a) (he : encode a = .ok b) : decode b = .ok a := by
  obtain ⟨c, hc, -, hd⟩ := h.decode_encode a ha
  rw [he] at hc
  cases hc
  exact hd

/-- The decoder accepts the encodings of well-formed values, and no other input. -/
theorem Exact.accepts_iff (h : Exact wf encode decode) : (∃ a, decode b = .ok a) ↔ ∃ a, wf a ∧ encode a = .ok b := by
  constructor
  · rintro ⟨a, hd⟩
    exact ⟨a, h.encode_of_decode hd⟩
  · rintro ⟨a, ha, he⟩
    exact ⟨a, h.decode_of_encode ha he⟩

/-- What exactness comes to: the decoder accepts exactly the image of the encoder, and is injective on it. -/
structure Canonical (wf : α → Prop) (encode : α → Except ε β) (decode : β → Except ε α) : Prop where
  exact : Exact wf encode decode
  accepts_iff : ∀ b, (∃ a, decode b = .ok a) ↔ ∃ a, wf a ∧ encode a = .ok b
  injective : ∀ b b' a, decode b = .ok a → decode b' = .ok a → b = b'

theorem Exact.canonical (h : Exact wf encode decode) : Canonical wf encode decode :=
  ⟨h, fun _ => h.accepts_iff, fun _ _ _ => h.injective⟩

/-- What exactness on `whole` comes to at one input: inside, no other input of `whole` decodes to the same value, and
outside another one does. -/
structure CanonicalAt (wf : α → Prop) (whole : β → Prop) (encode : α → Except ε β) (decode : β → Except ε α)
    (b : β) : Prop where
  decode_encode : ∀ a, wf a → ∃ c, encode a = .ok c ∧ whole c ∧ decode c = .ok a
  encode_decode : ∀ a, decode b = .ok a → wf a ∧ (encode a = .ok b ↔ whole b)
  injective : ∀ b' a, whole b → whole b' → decode b = .ok a → decode b' = .ok a → b = b'
  collides : ∀ a, decode b = .ok a → ¬whole b → ∃ b', b' ≠ b ∧ decode b' = .ok a

theorem ExactOn.canonical (h : ExactOn wf whole encode decode) (b : β) : CanonicalAt wf whole encode decode b where
  decode_encode := h.decode_encode
  encode_decode := h.encode_decode b
  injective _ _ := h.injective
  collides a hd hb := by
    obtain ⟨b', he, hb', hd'⟩ := h.decode_encode a (h.encode_decode b a hd).1
    refine ⟨b', fun heq => hb ?_, hd'⟩
    exact heq ▸ hb'

end ExactCodec
