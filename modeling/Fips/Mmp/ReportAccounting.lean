import Fips.Mmp.ReceiverReports
import Fips.Lib.Run

/-!
# The accounts of the receiver reports

A history is the list of calls made on one `ReceiverReports`. Beside the code's counters stand the
records of the history they count: all of them, those of the current epoch since the last reset, and
those of the pending interval. The counters agree with the records after every call, and a report
says what the counters say.
-/

namespace Fips
open LittleEndian

namespace ReceiverReports

inductive Call
  | record (received : ReceivedRecord) (nowMs : ℚ) (currentEpoch : Bool)
  | build (nowMs : ℚ)
  | resetEpoch

namespace Call

def received : Call → Option ReceivedRecord
  | record received _ _ => some received
  | _ => none

/-- The record of a call that counts for the epoch. -/
def current : Call → Option ReceivedRecord
  | record received _ true => some received
  | _ => none

def resets : Call → Bool
  | resetEpoch => true
  | _ => false

/-- The calls that end a report interval. A `build` with nothing to report ends an empty one. -/
def closes : Call → Bool
  | record .. => false
  | _ => true

end Call

/-- One call: the state after it and the report it returns. -/
def call (r : ReceiverReports) : Call → ReceiverReports × Option Bytes
  | .record received nowMs currentEpoch => (r.record received nowMs currentEpoch, none)
  | .build nowMs => ((r.build nowMs).2, (r.build nowMs).1)
  | .resetEpoch => (r.resetEpoch, none)

/-- The state after a history. -/
def after (h : List Call) : ReceiverReports := Run.run (fun r c => (r.call c).1) new h

/-- The reports that the calls `cs` return, starting from `r`. -/
def built (r : ReceiverReports) : List Call → List Bytes
  | [] => []
  | c :: cs => (r.call c).2.toList ++ built (r.call c).1 cs

/-! ## The records of a history -/

/-- The calls after the last one that meets `p`. -/
def since (p : Call → Bool) (h : List Call) : List Call := (h.reverse.takeWhile fun c => !p c).reverse

def received (h : List Call) : List ReceivedRecord := h.filterMap Call.received

/-- The current-epoch records since the last reset. -/
def epoch (h : List Call) : List ReceivedRecord := (since Call.resets h).filterMap Call.current

/-- The current-epoch records of the pending interval. -/
def interval (h : List Call) : List ReceivedRecord := (since Call.closes h).filterMap Call.current

def bytesOf (rs : List ReceivedRecord) : Nat := (rs.map ReceivedRecord.bytes).sum

/-- No interval of the history reaches a saturation limit. -/
def BelowLimits (h : List Call) : Prop :=
  ∀ h' ∈ h.inits, (interval h').length ≤ 0xffffffff ∧ bytesOf (interval h') ≤ 0xffffffff

instance (h : List Call) : Decidable (BelowLimits h) :=
  inferInstanceAs (Decidable (∀ h' ∈ h.inits, _ ∧ _))

variable {h : List Call} {c : Call} {r : ReceiverReports}

@[simp] theorem since_nil {p : Call → Bool} : since p [] = [] := rfl

theorem since_append {p : Call → Bool} : since p (h ++ [c]) = if p c then [] else since p h ++ [c] := by
  unfold since
  by_cases hp : p c <;> simp [hp]

theorem after_append : after (h ++ [c]) = ((after h).call c).1 := by
  simp [after, Run.run_append]

theorem built_append (cs : List Call) : r.built (cs ++ [c]) =
    r.built cs ++ ((Run.run (fun r c => (r.call c).1) r cs).call c).2.toList := by
  induction cs generalizing r with
  | nil => simp [built]
  | cons c' cs ih => simp only [List.cons_append, built, ih, Run.run_cons, List.append_assoc]

theorem BelowLimits.of_append (hb : BelowLimits (h ++ [c])) : BelowLimits h := by
  intro h' hm
  rw [List.mem_inits] at hm
  exact hb h' ((List.mem_inits _ _).2 (hm.trans (List.prefix_append h [c])))

theorem BelowLimits.last (hb : BelowLimits h) :
    (interval h).length ≤ 0xffffffff ∧ bytesOf (interval h) ≤ 0xffffffff :=
  hb h ((List.mem_inits _ _).2 (List.prefix_refl h))

@[simp] theorem bytesOf_append (rs : List ReceivedRecord) (x : ReceivedRecord) :
    bytesOf (rs ++ [x]) = bytesOf rs + x.bytes := by simp [bytesOf]

/-! ## Bursts -/

/-- The closed bursts of the interval: each is at least one record long and none longer than the
maximum; an open burst is counted but not yet measured. -/
structure BurstsMeasured (r : ReceiverReports) : Prop where
  counted : r.burst ≠ 0 → 1 ≤ r.bursts
  atLeast : r.bursts - (if r.burst = 0 then 0 else 1) ≤ r.totalBurst
  atMost : r.totalBurst ≤ (r.bursts - (if r.burst = 0 then 0 else 1)) * r.maxBurst
  short : r.burst ≤ 0xffff
  shortMax : r.maxBurst ≤ 0xffff

theorem BurstsMeasured.finishBurst (hr : r.BurstsMeasured) : r.finishBurst.BurstsMeasured := by
  obtain ⟨hc, hl, hm, hs, hx⟩ := hr
  refine ⟨fun hne => absurd rfl hne, ?_, ?_, Nat.zero_le _, max_le hx hs⟩
  · show r.bursts - 0 ≤ r.totalBurst + r.burst
    split at hl
    · omega
    · have := hc ‹_›
      omega
  · show r.totalBurst + r.burst ≤ (r.bursts - 0) * max r.maxBurst r.burst
    split at hm
    · rename_i h0
      have : r.bursts * r.maxBurst ≤ r.bursts * max r.maxBurst r.burst :=
        Nat.mul_le_mul_left _ (le_max_left _ _)
      simp only [h0, Nat.sub_zero, Nat.add_zero] at *
      omega
    · rename_i h0
      obtain ⟨k, hk⟩ : ∃ k, r.bursts = k + 1 := ⟨r.bursts - 1, by have := hc h0; omega⟩
      have hle : k * r.maxBurst ≤ k * max r.maxBurst r.burst := Nat.mul_le_mul_left _ (le_max_left _ _)
      have hr := le_max_right r.maxBurst r.burst
      rw [hk] at hm ⊢
      simp only [Nat.add_sub_cancel, Nat.sub_zero, Nat.add_mul, Nat.one_mul] at *
      omega

/-- A gap opens a burst or extends the open one. -/
theorem BurstsMeasured.gap (hr : r.BurstsMeasured) {lost : Nat} (hl : 0 < lost) :
    BurstsMeasured { r with bursts := if r.burst = 0 then r.bursts + 1 else r.bursts,
                            burst := min (r.burst + lost) 0xffff } := by
  obtain ⟨hc, hat, hm, hs, hx⟩ := hr
  have hne : min (r.burst + lost) 0xffff ≠ 0 := by omega
  by_cases h0 : r.burst = 0
  · refine ⟨fun _ => ?_, ?_, ?_, min_le_right _ _, hx⟩
    · simp [h0]
    · simpa [h0, hne, Nat.ne_of_gt hl] using hat
    · simpa [h0, hne, Nat.ne_of_gt hl] using hm
  · refine ⟨fun _ => ?_, ?_, ?_, min_le_right _ _, hx⟩
    · simpa [h0] using hc h0
    · simpa [h0, hne] using hat
    · simpa [h0, hne] using hm

/-- The next counter is known and no record before it was lost, or none is known yet: the open burst
ends. -/
theorem recordBurst_finish {counter : Nat} (hc : ∀ e, r.expected = some e → counter ≤ e) :
    ∃ expected, r.recordBurst counter = { r.finishBurst with expected } := by
  rcases he : r.expected with _ | e
  · exact ⟨some (counter + 1), by simp [recordBurst, he, finishBurst]⟩
  · have hn : ¬counter > e := Nat.not_lt.2 (hc e he)
    by_cases hge : counter ≥ e
    · exact ⟨some (counter + 1), by simp [recordBurst, he, hn, finishBurst, hge]⟩
    · exact ⟨some e, by simp [recordBurst, he, hn, finishBurst, hge]⟩

theorem recordBurst_gap {counter e : Nat} (he : r.expected = some e) (hc : counter > e) :
    r.recordBurst counter = { r with
      expected := some (counter + 1)
      bursts := if r.burst = 0 then r.bursts + 1 else r.bursts
      burst := min (r.burst + (counter - e)) 0xffff } := by
  simp [recordBurst, he, hc, le_of_lt hc]

theorem BurstsMeasured.with_expected (hr : r.BurstsMeasured) (expected : Option Nat) :
    BurstsMeasured { r with expected } := ⟨hr.1, hr.2, hr.3, hr.4, hr.5⟩

/-- What the burst accounting leaves alone, and what it counts. -/
theorem BurstsMeasured.recordBurst (hr : r.BurstsMeasured) (counter : Nat) :
    ∃ expected burst bursts maxBurst totalBurst,
      r.recordBurst counter = { r with expected, burst, bursts, maxBurst, totalBurst } ∧
      BurstsMeasured { r with expected, burst, bursts, maxBurst, totalBurst } ∧ bursts ≤ r.bursts + 1 := by
  by_cases hc : ∀ e, r.expected = some e → counter ≤ e
  · obtain ⟨expected, he⟩ := recordBurst_finish hc
    exact ⟨_, _, _, _, _, he, hr.finishBurst.with_expected expected, Nat.le_succ _⟩
  · push Not at hc
    obtain ⟨e, he, hlt⟩ := hc
    refine ⟨_, _, _, _, _, recordBurst_gap he hlt, (hr.gap (Nat.sub_pos_of_lt hlt)).with_expected _, ?_⟩
    split <;> omega

/-! ## The invariant -/

/-- The state of the counters after the history `h`. -/
structure Accounted (h : List Call) (r : ReceiverReports) : Prop where
  packets : r.packets = (received h).length
  bytes : r.bytes = bytesOf (received h)
  started : r.receivedAt = none ↔ epoch h = []
  highest : ∀ x ∈ epoch h, x.counter ≤ r.highest
  attained : epoch h ≠ [] → ∃ x ∈ epoch h, x.counter = r.highest
  unattained : epoch h = [] → r.highest = 0
  intervalPackets : r.intervalPackets = (interval h).length
  intervalBytes : r.intervalBytes = bytesOf (interval h)
  bursts : r.BurstsMeasured
  fewBursts : r.bursts ≤ (interval h).length

theorem accounted_new : Accounted [] new where
  packets := rfl
  bytes := rfl
  started := by simp [new, epoch]
  highest := by simp [epoch]
  attained := by simp [epoch]
  unattained := fun _ => rfl
  intervalPackets := rfl
  intervalBytes := rfl
  bursts := ⟨by simp [new], by simp [new], by simp [new], by simp [new], by simp [new]⟩
  fewBursts := Nat.le_refl _

section
variable {x : ReceivedRecord} {nowMs : ℚ} {currentEpoch : Bool}

theorem received_record : received (h ++ [.record x nowMs currentEpoch]) = received h ++ [x] := by
  simp [received, Call.received]

theorem epoch_record : epoch (h ++ [.record x nowMs true]) = epoch h ++ [x] := by
  simp [epoch, since_append, Call.resets, Call.current]

theorem epoch_record_old : epoch (h ++ [.record x nowMs false]) = epoch h := by
  simp [epoch, since_append, Call.resets, Call.current]

theorem interval_record : interval (h ++ [.record x nowMs true]) = interval h ++ [x] := by
  simp [interval, since_append, Call.closes, Call.current]

theorem interval_record_old : interval (h ++ [.record x nowMs false]) = interval h := by
  simp [interval, since_append, Call.closes, Call.current]

theorem received_build : received (h ++ [.build nowMs]) = received h := by
  simp [received, Call.received]

theorem epoch_build : epoch (h ++ [.build nowMs]) = epoch h := by
  simp [epoch, since_append, Call.resets, Call.current]

theorem interval_build : interval (h ++ [.build nowMs]) = [] := by
  simp [interval, since_append, Call.closes]

theorem received_resetEpoch : received (h ++ [.resetEpoch]) = received h := by
  simp [received, Call.received]

theorem epoch_resetEpoch : epoch (h ++ [.resetEpoch]) = [] := by
  simp [epoch, since_append, Call.resets]

theorem interval_resetEpoch : interval (h ++ [.resetEpoch]) = [] := by
  simp [interval, since_append, Call.closes]

theorem Accounted.record_old (ha : Accounted h r) :
    Accounted (h ++ [.record x nowMs false]) (r.record x nowMs false) := by
  obtain ⟨hp, hb, hs, hh, hat, hun, hip, hib, hbu, hf⟩ := ha
  refine ⟨?_, ?_, ?_, ?_, ?_, ?_, ?_, ?_, ?_, ?_⟩
  · rw [received_record, List.length_append, ← hp]; rfl
  · rw [received_record, bytesOf_append, ← hb]; rfl
  · rw [epoch_record_old]; exact hs
  · rw [epoch_record_old]; exact hh
  · rw [epoch_record_old]; exact hat
  · rw [epoch_record_old]; exact hun
  · rw [interval_record_old]; exact hip
  · rw [interval_record_old]; exact hib
  · exact ⟨hbu.1, hbu.2, hbu.3, hbu.4, hbu.5⟩
  · rw [interval_record_old]; exact hf

theorem Accounted.record_current (ha : Accounted h r)
    (hb : (interval h ++ [x]).length ≤ 0xffffffff ∧ bytesOf (interval h ++ [x]) ≤ 0xffffffff) :
    Accounted (h ++ [.record x nowMs true]) (r.record x nowMs true) := by
  obtain ⟨hpk, hby, hs, hh, hat, hun, hip, hib, hbu, hf⟩ := ha
  obtain ⟨hlen, hsum⟩ := hb
  rw [List.length_append, List.length_singleton] at hlen
  rw [bytesOf_append] at hsum
  let r₁ : ReceiverReports := { r with
    packets := r.packets + 1
    bytes := r.bytes + x.bytes
    intervalPackets := min (r.intervalPackets + 1) 0xffffffff
    intervalBytes := min (r.intervalBytes + x.bytes) 0xffffffff
    ecnCe := if x.ceFlag then min (r.ecnCe + 1) 0xffffffff else r.ecnCe
    reordered := if x.counter < r.highest then (r.reordered + 1) % 2 ^ 32 else r.reordered
    highest := if x.counter < r.highest then r.highest else x.counter }
  have hr : r.record x nowMs true = (r₁.recordBurst x.counter).recordTiming x.timestamp nowMs := rfl
  have hb₁ : r₁.BurstsMeasured := ⟨hbu.1, hbu.2, hbu.3, hbu.4, hbu.5⟩
  obtain ⟨expected, burst, bursts, maxBurst, totalBurst, he, hm, hle⟩ := hb₁.recordBurst x.counter
  have hhigh : r.highest ≤ r₁.highest ∧ x.counter ≤ r₁.highest := by
    show r.highest ≤ ite _ _ _ ∧ x.counter ≤ ite _ _ _
    split <;> omega
  rw [hr, he]
  refine ⟨?_, ?_, ?_, ?_, ?_, ?_, ?_, ?_, ?_, ?_⟩
  · rw [received_record, List.length_append, ← hpk]; rfl
  · rw [received_record, bytesOf_append, ← hby]; rfl
  · rw [epoch_record]
    simp [recordTiming]
  · rw [epoch_record]
    intro y hy
    rcases List.mem_append.1 hy with hy | hy
    · exact (hh y hy).trans hhigh.1
    · rw [List.mem_singleton.1 hy]; exact hhigh.2
  · rw [epoch_record]
    intro _
    by_cases hlt : x.counter < r.highest
    · have hne : epoch h ≠ [] := by
        intro hnil
        rw [hun hnil] at hlt
        exact absurd hlt (Nat.not_lt_zero _)
      obtain ⟨y, hy, hyc⟩ := hat hne
      exact ⟨y, List.mem_append_left _ hy, hyc.trans (if_pos hlt).symm⟩
    · exact ⟨x, List.mem_append_right _ (List.mem_singleton.2 rfl), (if_neg hlt).symm⟩
  · rw [epoch_record]
    intro hnil
    simp at hnil
  · rw [interval_record, List.length_append, ← hip]
    exact min_eq_left (by omega)
  · rw [interval_record, bytesOf_append, ← hib]
    exact min_eq_left (by omega)
  · exact ⟨hm.1, hm.2, hm.3, hm.4, hm.5⟩
  · rw [interval_record, List.length_append]
    exact hle.trans (Nat.add_le_add_right hf 1)

/-- The pending interval lies within the epoch. -/
theorem interval_sublist : (interval h).Sublist (epoch h) := by
  induction h using List.reverseRecOn with
  | nil => exact List.Sublist.refl []
  | append_singleton h c ih =>
    cases c with
    | record x nowMs currentEpoch =>
      cases currentEpoch with
      | false => rw [interval_record_old, epoch_record_old]; exact ih
      | true => rw [interval_record, epoch_record]; exact ih.append (List.Sublist.refl _)
    | build nowMs => rw [interval_build]; exact List.nil_sublist _
    | resetEpoch => rw [interval_resetEpoch]; exact List.nil_sublist _

/-- The state once a report is out: the interval starts over. -/
def reported (r : ReceiverReports) : ReceiverReports :=
  { r.finishBurst with intervalPackets := 0, intervalBytes := 0, bursts := 0, maxBurst := 0, totalBurst := 0 }

theorem build_none (hr : r.intervalPackets = 0 ∨ r.receivedAt = none) : r.build nowMs = (none, r) := by
  unfold build
  rcases hat : r.receivedAt with _ | t
  · rfl
  · rcases hr with hr | hr
    · exact if_pos hr
    · rw [hat] at hr
      cases hr

theorem build_some (hr : r.intervalPackets ≠ 0) (hat : r.receivedAt ≠ none) :
    ∃ body, r.build nowMs = (some body, r.reported) := by
  obtain ⟨t, ht⟩ := Option.ne_none_iff_exists'.1 hat
  unfold build
  simp only [ht, if_neg hr]
  exact ⟨_, rfl⟩

theorem Accounted.build_some (ha : Accounted h r) (hne : interval h ≠ []) :
    ∃ body, (r.build nowMs).1 = some body := by
  have hpos : r.intervalPackets ≠ 0 := by
    rw [ha.intervalPackets]
    exact fun h0 => hne (List.eq_nil_of_length_eq_zero h0)
  have hat : r.receivedAt ≠ none := by
    intro hnone
    exact hne (List.sublist_nil.1 (ha.started.1 hnone ▸ interval_sublist))
  obtain ⟨body, hbody⟩ := @ReceiverReports.build_some r nowMs hpos hat
  exact ⟨body, by rw [hbody]⟩

theorem Accounted.build (ha : Accounted h r) : Accounted (h ++ [.build nowMs]) (r.build nowMs).2 := by
  obtain ⟨hpk, hby, hs, hh, hat, hun, hip, hib, hbu, hf⟩ := ha
  by_cases hr : r.intervalPackets = 0
  · have hnil : interval h = [] := List.eq_nil_of_length_eq_zero (hip ▸ hr)
    have hsame : (r.build nowMs).2 = r := by rw [build_none (.inl hr)]
    rw [hsame]
    refine ⟨?_, ?_, ?_, ?_, ?_, ?_, ?_, ?_, hbu, ?_⟩
    · rw [received_build]; exact hpk
    · rw [received_build]; exact hby
    · rw [epoch_build]; exact hs
    · rw [epoch_build]; exact hh
    · rw [epoch_build]; exact hat
    · rw [epoch_build]; exact hun
    · rw [interval_build, hr]; rfl
    · rw [interval_build, hib, hnil]
    · rw [interval_build, ← hnil]; exact hf
  · have hne : r.receivedAt ≠ none := by
      intro hnone
      have hnil : interval h = [] := List.sublist_nil.1 (hs.1 hnone ▸ interval_sublist)
      rw [hip, hnil] at hr
      exact hr rfl
    obtain ⟨body, hbody⟩ := @ReceiverReports.build_some r nowMs hr hne
    rw [hbody]
    refine ⟨?_, ?_, ?_, ?_, ?_, ?_, ?_, ?_, ?_, Nat.zero_le _⟩
    · rw [received_build]; exact hpk
    · rw [received_build]; exact hby
    · rw [epoch_build]; exact hs
    · rw [epoch_build]; exact hh
    · rw [epoch_build]; exact hat
    · rw [epoch_build]; exact hun
    · rw [interval_build]; rfl
    · rw [interval_build]; rfl
    · exact ⟨fun hb => absurd rfl hb, Nat.zero_le _, Nat.zero_le _, Nat.zero_le _, Nat.zero_le _⟩

theorem Accounted.resetEpoch (ha : Accounted h r) : Accounted (h ++ [.resetEpoch]) r.resetEpoch := by
  obtain ⟨hpk, hby, -, -, -, -, -, -, -, -⟩ := ha
  refine ⟨?_, ?_, ?_, ?_, ?_, ?_, ?_, ?_, ?_, Nat.zero_le _⟩
  · rw [received_resetEpoch]; exact hpk
  · rw [received_resetEpoch]; exact hby
  · rw [epoch_resetEpoch]; exact iff_of_true rfl rfl
  · rw [epoch_resetEpoch]; exact accounted_new.highest
  · rw [epoch_resetEpoch]; exact accounted_new.attained
  · intro _; rfl
  · rw [interval_resetEpoch]; rfl
  · rw [interval_resetEpoch]; rfl
  · exact ⟨fun hb => absurd rfl hb, Nat.zero_le _, Nat.zero_le _, Nat.zero_le _, Nat.zero_le _⟩

end

/-- The counters agree with the records after every history below the limits. -/
theorem accounted_after (hb : BelowLimits h) : Accounted h (after h) := by
  induction h using List.reverseRecOn with
  | nil => exact accounted_new
  | append_singleton h c ih =>
    have ha := ih hb.of_append
    rw [after_append]
    cases c with
    | record x nowMs currentEpoch =>
      cases currentEpoch with
      | false => exact ha.record_old
      | true => exact ha.record_current (by rw [← @interval_record h x nowMs]; exact hb.last)
    | build nowMs => exact ha.build
    | resetEpoch => exact ha.resetEpoch

/-! ## What a report says -/

/-- The little-endian field of a report body. -/
def field (body : Bytes) (offset width : Nat) : Nat := leNat ((body.drop offset).take width)

theorem field_append {a b : Bytes} {offset width : Nat} (h : offset + width ≤ a.length) :
    field (a ++ b) offset width = field a offset width := by
  unfold field
  rw [List.drop_append_of_le_length (by omega), List.take_append_of_le_length (by rw [List.length_drop]; omega)]

theorem field_leBytes {a : Bytes} {offset width v : Nat} (h : a.length = offset) :
    field (a ++ leBytes width v) offset width = v % 256 ^ width := by
  unfold field
  rw [List.drop_left' h, List.take_of_length_le (by simp), leNat_leBytes_mod]

/-- The layout of a report body. -/
theorem body_fields (highest packets bytes timestamp dwell maxBurst mean jitter ecnCe trend bursts reordered
    intervalPackets intervalBytes : Nat) {body : Bytes}
    (hb : body = leBytes 2 0 ++ leBytes 8 highest ++ leBytes 8 packets ++ leBytes 8 bytes ++ leBytes 4 timestamp
      ++ leBytes 2 dwell ++ leBytes 2 maxBurst ++ leBytes 2 mean ++ leBytes 2 0 ++ leBytes 4 jitter
      ++ leBytes 4 ecnCe ++ leBytes 4 trend ++ leBytes 4 bursts ++ leBytes 4 reordered
      ++ leBytes 4 intervalPackets ++ leBytes 4 intervalBytes) :
    field body 2 8 = highest % 256 ^ 8 ∧ field body 10 8 = packets % 256 ^ 8 ∧
      field body 18 8 = bytes % 256 ^ 8 ∧ field body 32 2 = maxBurst % 256 ^ 2 ∧
      field body 34 2 = mean % 256 ^ 2 ∧ field body 50 4 = bursts % 256 ^ 4 ∧
      field body 58 4 = intervalPackets % 256 ^ 4 ∧ field body 62 4 = intervalBytes % 256 ^ 4 := by
  subst hb
  refine ⟨?_, ?_, ?_, ?_, ?_, ?_, ?_, ?_⟩ <;>
    simp (disch := simp) only [field_append, field_leBytes]

/-- The fields of a report that the accounts are about. -/
theorem build_fields {nowMs : ℚ} {body : Bytes} (hb : (r.build nowMs).1 = some body) :
    r.intervalPackets ≠ 0 ∧ r.receivedAt ≠ none ∧ field body 2 8 = r.highest % 256 ^ 8 ∧
      field body 10 8 = r.packets % 256 ^ 8 ∧ field body 18 8 = r.bytes % 256 ^ 8 ∧
      field body 32 2 = r.finishBurst.maxBurst % 256 ^ 2 ∧
      field body 34 2 = (if r.bursts = 0 then 0 else min 0xffff (r.finishBurst.totalBurst * 256 / r.bursts)) % 256 ^ 2 ∧
      field body 50 4 = r.bursts % 256 ^ 4 ∧ field body 58 4 = r.intervalPackets % 256 ^ 4 ∧
      field body 62 4 = r.intervalBytes % 256 ^ 4 := by
  unfold build at hb
  rcases hat : r.receivedAt with _ | t
  · rw [hat] at hb
    cases hb
  · rw [hat] at hb
    dsimp only at hb
    split at hb
    · cases hb
    · rename_i hne
      exact ⟨hne, by rintro ⟨⟩, body_fields _ _ _ _ _ _ _ _ _ _ _ _ _ _ (Option.some.inj hb).symm⟩

/-- The report `body` gives the records of the history as they are; its 64-bit fields keep the low
64 bits of the totals and of the counter. -/
structure Accounts (h : List Call) (body : Bytes) : Prop where
  packets : field body 10 8 = (received h).length % 2 ^ 64
  bytes : field body 18 8 = bytesOf (received h) % 2 ^ 64
  highest : ∃ m, IsGreatest {n | ∃ x ∈ epoch h, x.counter = n} m ∧ field body 2 8 = m % 2 ^ 64
  intervalPackets : field body 58 4 = (interval h).length
  intervalBytes : field body 62 4 = bytesOf (interval h)

/-- The report `body` gives the bursts that `r` has measured. Its mean has eight fraction bits. -/
structure GivesBursts (r : ReceiverReports) (body : Bytes) : Prop where
  bursts : field body 50 4 = r.bursts
  maxBurst : field body 32 2 = r.maxBurst
  atLeast : r.bursts ≤ r.totalBurst
  atMost : r.totalBurst ≤ r.bursts * r.maxBurst
  mean : field body 34 2 = min 0xffff (r.totalBurst * 256 / r.bursts)
  meanAtLeast : 1 * 256 ≤ field body 34 2
  meanAtMost : field body 34 2 ≤ field body 32 2 * 256

theorem Accounted.accounts {nowMs : ℚ} {body : Bytes} (ha : Accounted h r) (hb : (r.build nowMs).1 = some body)
    (hlim : (interval h).length ≤ 0xffffffff ∧ bytesOf (interval h) ≤ 0xffffffff) : Accounts h body := by
  obtain ⟨hpk, hby, hs, hh, hat, -, hip, hib, -, -⟩ := ha
  obtain ⟨-, hne, h2, h10, h18, -, -, -, h58, h62⟩ := build_fields hb
  have hepoch : epoch h ≠ [] := fun hnil => hne (hs.2 hnil)
  have hpow : 256 ^ 8 = 2 ^ 64 := by norm_num
  rw [hpow] at h2 h10 h18
  refine ⟨?_, ?_, ⟨r.highest, ⟨hat hepoch, ?_⟩, h2⟩, ?_, ?_⟩
  · rw [h10, hpk]
  · rw [h18, hby]
  · rintro _ ⟨x, hx, rfl⟩
    exact hh x hx
  · rw [h58, hip]
    exact Nat.mod_eq_of_lt (Nat.lt_succ_of_le hlim.1)
  · rw [h62, hib]
    exact Nat.mod_eq_of_lt (Nat.lt_succ_of_le hlim.2)

theorem Accounted.givesBursts {nowMs : ℚ} {body : Bytes} (ha : Accounted h r)
    (hb : (r.build nowMs).1 = some body) (hlim : (interval h).length ≤ 0xffffffff)
    (hne : field body 50 4 ≠ 0) : GivesBursts r.finishBurst body := by
  obtain ⟨-, -, -, -, -, h32, h34, h50, -, -⟩ := build_fields hb
  have hfew : r.bursts < 256 ^ 4 := Nat.lt_succ_of_le (ha.fewBursts.trans hlim)
  rw [Nat.mod_eq_of_lt hfew] at h50
  have hpos : 0 < r.bursts := Nat.pos_of_ne_zero (h50 ▸ hne)
  obtain ⟨-, hleast, hmost, -, hmax⟩ := ha.bursts.finishBurst
  have hshort : r.finishBurst.maxBurst < 256 ^ 2 := Nat.lt_succ_of_le hmax
  rw [Nat.mod_eq_of_lt hshort] at h32
  rw [if_neg hpos.ne', Nat.mod_eq_of_lt (by omega)] at h34
  have hl : r.bursts ≤ r.finishBurst.totalBurst := hleast
  have hm : r.finishBurst.totalBurst ≤ r.bursts * r.finishBurst.maxBurst := hmost
  have hlow : 256 ≤ r.finishBurst.totalBurst * 256 / r.bursts :=
    (Nat.le_div_iff_mul_le hpos).2 (by rw [Nat.mul_comm]; exact Nat.mul_le_mul_right 256 hl)
  have hhigh : r.finishBurst.totalBurst * 256 / r.bursts ≤ r.finishBurst.maxBurst * 256 := by
    refine Nat.div_le_of_le_mul ?_
    rw [← Nat.mul_assoc]
    exact Nat.mul_le_mul_right 256 hm
  refine ⟨h50, h32, hl, hm, h34, ?_, ?_⟩
  · rw [h34]
    omega
  · rw [h34, h32]
    omega

/-- A quantity that each report of the span gives for its interval adds up, with the pending
interval, to that of the whole span. -/
theorem built_sum {before span : List Call} (size : ReceivedRecord → Nat) (given : Bytes → Nat)
    (hgiven : ∀ h nowMs body, h ++ [.build nowMs] <+: before ++ span →
      ((after h).build nowMs).1 = some body → given body = ((interval h).map size).sum)
    (hb : BelowLimits (before ++ span)) (fresh : interval before = []) (hspan : Call.resetEpoch ∉ span) :
    (((after before).built span).map given).sum + ((interval (before ++ span)).map size).sum
      = ((span.filterMap Call.current).map size).sum := by
  induction span using List.reverseRecOn with
  | nil => simp [built, fresh]
  | append_singleton span c ih =>
    rw [← List.append_assoc] at hgiven hb ⊢
    have hsum := ih (fun h nowMs body hp => hgiven h nowMs body (hp.trans (List.prefix_append _ _)))
      hb.of_append (fun hm => hspan (List.mem_append_left _ hm))
    have hstate : Run.run (fun r c => (r.call c).1) (after before) span = after (before ++ span) :=
      (Run.run_append span).symm
    rw [built_append, hstate, List.filterMap_append, List.map_append, List.map_append, List.sum_append,
      List.sum_append, ← hsum]
    cases c with
    | record x nowMs currentEpoch =>
      cases currentEpoch with
      | false =>
        rw [interval_record_old]
        simp [call, Call.current, List.filterMap_cons]
      | true =>
        rw [interval_record]
        simp [call, Call.current, Nat.add_assoc]
    | build nowMs =>
      rw [interval_build]
      rcases hbody : ((after (before ++ span)).build nowMs).1 with _ | body
      · have ha := accounted_after hb.of_append
        have hnil : interval (before ++ span) = [] := by
          by_contra hne
          obtain ⟨body, hsome⟩ := @Accounted.build_some _ _ nowMs ha hne
          rw [hbody] at hsome
          cases hsome
        simp [call, Call.current, List.filterMap_cons, hbody, hnil]
      · have hg := hgiven (before ++ span) nowMs body (List.prefix_refl _) hbody
        simp [call, Call.current, List.filterMap_cons, hbody, hg]
    | resetEpoch => exact absurd (List.mem_append_right _ (List.mem_singleton.2 rfl)) hspan

/-- Below the saturation limits every report gives the records of its history: the lifetime totals
over both epochs, the highest counter since the reset, the bursts of the interval with a mean between
one and the maximum. From a reset on, the reports and the pending interval together count each
current-epoch record and its bytes once. -/
theorem reports_account (calls : List Call) (below : BelowLimits calls) :
    (∀ h nowMs body, h ++ [.build nowMs] <+: calls → ((after h).build nowMs).1 = some body →
      Accounts h body ∧ (field body 50 4 ≠ 0 → GivesBursts (after h).finishBurst body)) ∧
    ∀ before span, before ++ span = calls → (before = [] ∨ ∃ h, before = h ++ [.resetEpoch]) →
      .resetEpoch ∉ span →
      let current := span.filterMap Call.current
      (((after before).built span).map (field · 58 4)).sum + (after calls).intervalPackets = current.length ∧
      (((after before).built span).map (field · 62 4)).sum + (after calls).intervalBytes = bytesOf current := by
  have hreport : ∀ h nowMs body, h ++ [.build nowMs] <+: calls → ((after h).build nowMs).1 = some body →
      Accounts h body ∧ (field body 50 4 ≠ 0 → GivesBursts (after h).finishBurst body) := by
    intro h nowMs body hp hbody
    have hb : BelowLimits h := by
      intro h' hm
      rw [List.mem_inits] at hm
      exact below h' ((List.mem_inits _ _).2 (hm.trans ((List.prefix_append h _).trans hp)))
    have ha := accounted_after hb
    exact ⟨ha.accounts hbody hb.last, ha.givesBursts hbody hb.last.1⟩
  refine ⟨hreport, ?_⟩
  rintro before span rfl hfresh hspan
  dsimp only
  have fresh : interval before = [] := by
    rcases hfresh with rfl | ⟨h, rfl⟩
    · rfl
    · exact interval_resetEpoch
  have ha := accounted_after below
  constructor
  · have hsum := built_sum (fun _ => 1) (field · 58 4)
      (fun h nowMs body hp hbody => by
        rw [(hreport h nowMs body hp hbody).1.intervalPackets]
        simp)
      below fresh hspan
    rw [ha.intervalPackets]
    simpa using hsum
  · have hsum := built_sum ReceivedRecord.bytes (field · 62 4)
      (fun h nowMs body hp hbody => (hreport h nowMs body hp hbody).1.intervalBytes) below fresh hspan
    rw [ha.intervalBytes]
    exact hsum

/-- A record, one after a gap of three that a report cuts short, an old one, and a second report. -/
theorem reports_account_toy :
    let calls : List Call := [.record ⟨5, 0, 100, false⟩ 0 true, .record ⟨9, 1, 50, false⟩ 1 true, .build 2,
      .record ⟨7, 2, 30, true⟩ 3 false, .record ⟨12, 2, 20, false⟩ 4 true, .build 5]
    ((new.built calls).map (field · 58 4)).sum + (after calls).intervalPackets = 3 :=
  ((reports_account _ (by decide)).2 [] _ rfl (.inl rfl) (by simp)).1

end ReceiverReports

end Fips
