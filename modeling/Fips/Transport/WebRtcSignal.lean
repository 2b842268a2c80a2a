import Fips.Lib.Exec
import Fips.Transport.WebRtcConfig

/-!
# `WebRtcSignal.ts`: negotiation signals

A signal is what `decodeLinkNegotiationMessage` accepts. Answers, candidates and rejects must name a
negotiation that is known; no two signals of one kind may name the same negotiation.
-/

namespace Fips
open Exec UnitStrings

abbrev NegotiationId := UnitString

inductive SignalKind
  | offer
  | answer
  | candidate
  | reject
deriving DecidableEq

/-- The name of a kind on the wire. -/
def SignalKind.name : SignalKind → UnitString
  | offer => js "offer"
  | answer => js "answer"
  | candidate => js "candidate"
  | reject => js "reject"

/-- `sdp` if it is a string, and the `candidate` strings if `candidates` is an array. -/
structure WebRtcSignalPayload where
  sdp : Option UnitString
  candidates : Option (List UnitString)
deriving DecidableEq

/-- The payload is none if it is no object. -/
structure WebRtcSignal where
  negotiationId : NegotiationId
  linkType : UnitString
  kind : SignalKind
  createdAtMs : Int
  expiresAtMs : Int
  payload : Option WebRtcSignalPayload
deriving DecidableEq

def webrtcLinkType : UnitString := js "webrtc"

def MAX_SDP_LENGTH : Nat := 48 * 1024
def MAX_CANDIDATES : Nat := 32
def MAX_CANDIDATE_LENGTH : Nat := 2048

def createWebRtcSignal (nowMs : Int) (negotiationId : NegotiationId) (kind : SignalKind)
    (payload : WebRtcSignalPayload) : WebRtcSignal :=
  ⟨negotiationId, webrtcLinkType, kind, nowMs, nowMs + 60000, some payload⟩

/-- The key of a signal in the replay window. -/
def replayKey (negotiationId : NegotiationId) (kind : SignalKind) : UnitString := negotiationId ++ unit ':' :: kind.name

structure WebRtcSignalValidationContext where
  knownNegotiationIds : List NegotiationId
  seenNegotiationIds : List UnitString
  nowMs : Int

def validateSignalBody (kind : SignalKind) (payload : WebRtcSignalPayload) : Except UnitString Unit :=
  if kind = .offer ∨ kind = .answer then
    match payload.sdp with
    | none => .error (js "offer/answer requires sdp")
    | some sdp =>
      if sdp = [] then .error (js "offer/answer requires sdp")
      else if sdp.length > MAX_SDP_LENGTH then .error (js "offer/answer SDP is too large")
      else .ok ()
  else if kind = .candidate then
    match payload.candidates with
    | none => .error (js "candidate signal requires candidates[]")
    | some candidates =>
      if candidates = [] then .error (js "candidate signal requires candidates[]")
      else if candidates.length > MAX_CANDIDATES ∨ candidates.any (fun c => c.length > MAX_CANDIDATE_LENGTH) then
        .error (js "candidate signal exceeds limits")
      else .ok ()
  else .ok ()

def validateSignalSession (signal : WebRtcSignal) (ctx : WebRtcSignalValidationContext) : Except UnitString Unit :=
  if signal.kind ≠ .offer ∧ signal.negotiationId ∉ ctx.knownNegotiationIds then
    .error (js "unknown negotiationId for answer/candidate")
  else if replayKey signal.negotiationId signal.kind ∈ ctx.seenNegotiationIds then
    .error (js "duplicate signal in replay window")
  else .ok ()

def validateWebRtcSignal (message : WebRtcSignal) (ctx : WebRtcSignalValidationContext) : Except UnitString WebRtcSignal :=
  if message.linkType ≠ webrtcLinkType then .error (js "bad link type " ++ message.linkType)
  else if message.expiresAtMs < ctx.nowMs then .error (js "signal expired")
  else if message.createdAtMs > ctx.nowMs + 60000 then .error (js "signal createdAtMs in future")
  else
    match message.payload with
    | none => .error (js "WebRTC negotiation payload must be an object")
    | some payload => do
      validateSignalBody message.kind payload
      validateSignalSession message ctx
      return message

theorem validateWebRtcSignal_eq_ok {signal valid : WebRtcSignal} {ctx : WebRtcSignalValidationContext}
    (h : validateWebRtcSignal signal ctx = .ok valid) :
    valid = signal ∧ validateSignalSession signal ctx = .ok () := by
  unfold validateWebRtcSignal at h
  split at h
  · cases h
  split at h
  · cases h
  split at h
  · cases h
  split at h
  · cases h
  · obtain ⟨-, -, h⟩ := except_bind_eq_ok.1 h
    obtain ⟨⟨⟩, hsession, h⟩ := except_bind_eq_ok.1 h
    cases h
    exact ⟨rfl, hsession⟩

end Fips
