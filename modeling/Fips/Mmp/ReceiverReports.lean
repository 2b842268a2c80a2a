import Fips.Codec.Binary

/-!
# `mmp/receiverReports.ts`, `fmp/receiverReports.ts`

Receiver-side measurements of one key epoch. Times are milliseconds as `performance.now()` returns
them; they and the jitter and transit estimates are rationals, so that the arithmetic is exact where
the code rounds to doubles. Counters are the code's own integers with its saturations.
-/

namespace Fips
open LittleEndian

/-- `Math.floor(ms) >>> 0`. -/
def toU32 (ms : ℚ) : Nat := (⌊ms⌋ % 2 ^ 32).toNat

/-- What a link or session reports about an authenticated record. -/
structure ReceivedRecord where
  counter : Nat
  timestamp : Nat
  bytes : Nat
  ceFlag : Bool
deriving DecidableEq

structure ReceiverReports where
  packets : Nat
  bytes : Nat
  highest : Nat
  expected : Option Nat
  intervalPackets : Nat
  intervalBytes : Nat
  reordered : Nat
  ecnCe : Nat
  timestamp : Nat
  receivedAt : Option ℚ
  jitterUs : ℚ
  burst : Nat
  bursts : Nat
  maxBurst : Nat
  totalBurst : Nat
  /-- `(time, transit)`, oldest first, at most 32. -/
  transitSamples : List (ℚ × ℚ)
deriving DecidableEq

namespace ReceiverReports

def new : ReceiverReports := ⟨0, 0, 0, none, 0, 0, 0, 0, 0, none, 0, 0, 0, 0, 0, []⟩

def resetEpoch (r : ReceiverReports) : ReceiverReports := { new with packets := r.packets, bytes := r.bytes }

def finishBurst (r : ReceiverReports) : ReceiverReports :=
  { r with maxBurst := max r.maxBurst r.burst, totalBurst := r.totalBurst + r.burst, burst := 0 }

/-- The burst accounting of one current-epoch record. -/
def recordBurst (counter : Nat) (r : ReceiverReports) : ReceiverReports :=
  let r := match r.expected with
    | some expected =>
      if counter > expected then
        { r with
          bursts := if r.burst = 0 then r.bursts + 1 else r.bursts
          burst := min (r.burst + (counter - expected)) 0xffff }
      else r.finishBurst
    | none => r.finishBurst
  match r.expected with
  | some expected => if counter ≥ expected then { r with expected := some (counter + 1) } else r
  | none => { r with expected := some (counter + 1) }

/-- The jitter and transit samples of one current-epoch record. -/
def recordTiming (timestamp : Nat) (nowMs : ℚ) (r : ReceiverReports) : ReceiverReports :=
  let (jitterUs, transit) := match r.receivedAt with
    | some receivedAt =>
      let sentDeltaMs : Int := ((timestamp : Int) - r.timestamp).bmod (2 ^ 32)
      let transitDeltaUs : ℚ := ((nowMs - receivedAt) - sentDeltaMs) * 1000
      (r.jitterUs + (|transitDeltaUs| - r.jitterUs) / 16,
        (r.transitSamples.getLast?.map Prod.snd).getD 0 + transitDeltaUs / 1000)
    | none => (r.jitterUs, 0)
  let samples := r.transitSamples ++ [(nowMs, transit)]
  { r with
    jitterUs
    transitSamples := if samples.length > 32 then samples.tail else samples
    timestamp
    receivedAt := some nowMs }

def record (received : ReceivedRecord) (nowMs : ℚ) (currentEpoch : Bool) (r : ReceiverReports) : ReceiverReports :=
  let r := { r with packets := r.packets + 1, bytes := r.bytes + received.bytes }
  -- records of an older key epoch only count towards the lifetime totals
  if !currentEpoch then r
  else
    let r := { r with
      intervalPackets := min (r.intervalPackets + 1) 0xffffffff
      intervalBytes := min (r.intervalBytes + received.bytes) 0xffffffff
      ecnCe := if received.ceFlag then min (r.ecnCe + 1) 0xffffffff else r.ecnCe
      reordered := if received.counter < r.highest then (r.reordered + 1) % 2 ^ 32 else r.reordered
      highest := if received.counter < r.highest then r.highest else received.counter }
    (r.recordBurst received.counter).recordTiming received.timestamp nowMs

/-- Least-squares slope of the transit samples, scaled and clamped to an `i32`. -/
def transitTrend (r : ReceiverReports) : Int :=
  let samples := r.transitSamples
  if samples.length < 2 then 0
  else
    let meanTime := (samples.map Prod.fst).sum / samples.length
    let meanTransit := (samples.map Prod.snd).sum / samples.length
    let covariance := (samples.map fun p => (p.1 - meanTime) * (p.2 - meanTransit)).sum
    let variance := (samples.map fun p => (p.1 - meanTime) * (p.1 - meanTime)).sum
    let slope := if variance > 0 then covariance / variance * 1000000 else 0
    let clamped := max (-0x80000000) (min 0x7fffffff slope)
    if 0 ≤ clamped then ⌊clamped⌋ else ⌈clamped⌉

def build (nowMs : ℚ) (r : ReceiverReports) : Option Bytes × ReceiverReports :=
  match r.receivedAt with
  | none => (none, r)
  | some receivedAt =>
    if r.intervalPackets = 0 then (none, r)
    else
      let r := r.finishBurst
      let dwell := (max 0 ⌊nowMs - receivedAt⌋).toNat
      let body := leBytes 2 0 ++ leBytes 8 r.highest ++ leBytes 8 r.packets ++ leBytes 8 r.bytes
        ++ leBytes 4 (if dwell > 0xffff then 0 else r.timestamp) ++ leBytes 2 (min dwell 0xffff)
        ++ leBytes 2 r.maxBurst
        ++ leBytes 2 (if r.bursts = 0 then 0 else min 0xffff (r.totalBurst * 256 / r.bursts))
        ++ leBytes 2 0 ++ leBytes 4 (min 0xffffffff ⌊r.jitterUs⌋.toNat) ++ leBytes 4 r.ecnCe
        ++ leBytes 4 (r.transitTrend % 2 ^ 32).toNat ++ leBytes 4 r.bursts ++ leBytes 4 r.reordered
        ++ leBytes 4 r.intervalPackets ++ leBytes 4 r.intervalBytes
      (some body, { r with intervalPackets := 0, intervalBytes := 0, bursts := 0, maxBurst := 0, totalBurst := 0 })

end ReceiverReports

/-- Link reports: rate limited, and one reserved byte before the session body. -/
structure FmpReceiverReports where
  reports : ReceiverReports
  lastReportAt : Option ℚ
deriving DecidableEq

namespace FmpReceiverReports

def new : FmpReceiverReports := ⟨.new, none⟩

def record (received : ReceivedRecord) (nowMs : ℚ) (r : FmpReceiverReports) : FmpReceiverReports :=
  { r with reports := r.reports.record received nowMs true }

def forSenderReport (payload : Bytes) (nowMs : ℚ) (r : FmpReceiverReports) : Option Bytes × FmpReceiverReports :=
  if payload.length < 47 then (none, r)
  else if (r.lastReportAt.map fun last => decide (nowMs - last < 200)).getD false then (none, r)
  else
    match r.reports.build nowMs with
    | (none, reports) => (none, { r with reports })
    | (some body, reports) => (some (0 :: body), { reports, lastReportAt := some nowMs })

end FmpReceiverReports

end Fips
