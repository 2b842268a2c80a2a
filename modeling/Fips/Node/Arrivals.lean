import Fips.Crypto.Replay
import Fips.Node.IdentityBinding

/-!
# Records over a whole run

`openings` lists the records that opened during a run, each with the keys that opened it. The replay
window of an `FspSession` has accepted exactly the counters of its openings, wherever the object has been
in the meantime; so no record opens twice under one object. An event that opens nothing delivers nothing.
-/

namespace Fips
open Exec Session

namespace Manager

section
variable {S : Suite} {cfg : ManagerConfig} {m m' : Manager} {e : ManagerEvent} {a : Arrival} {o : Opening}

/-- The time of an arrival. -/
def ManagerEvent.dateMs : ManagerEvent → Option ℚ
  | .fromPeer env _ _ _ => some env.dateMs
  | .drain env _ => some env.dateMs
  | _ => none

theorem arrival_dateMs (ha : m.arrival cfg e = some a) : e.dateMs = some a.env.dateMs := by
  unfold arrival at ha
  split at ha
  · split at ha
    · obtain ⟨_, -, rfl⟩ := Option.map_eq_some_iff.1 ha
      rfl
    · cases ha
  · split at ha
    · obtain ⟨_, -, rfl⟩ := Option.map_eq_some_iff.1 ha
      rfl
    · cases ha
  · cases ha

theorem arrival_objs (ha : m.arrival cfg e = some a) : m.objs[a.sid]? = some a.session := by
  unfold arrival at ha
  split at ha
  · split at ha
    · obtain ⟨⟨sid, s⟩, hl, rfl⟩ := Option.map_eq_some_iff.1 ha
      exact objs_of_lookup hl
    · cases ha
  · split at ha
    · obtain ⟨s, ho, rfl⟩ := Option.map_eq_some_iff.1 ha
      exact ho
    · cases ha
  · cases ha

/-- Its source is the node of its session. -/
theorem arrival_src (hm : Safe S m) (ha : m.arrival cfg e = some a) : a.src = a.session.remoteNodeAddr := by
  unfold arrival at ha
  split at ha
  · split at ha
    · obtain ⟨⟨sid, s⟩, hl, rfl⟩ := Option.map_eq_some_iff.1 ha
      exact (hm.wf.stored.remoteNodeAddr hl).symm
    · cases ha
  · split at ha
    · obtain ⟨s, ho, rfl⟩ := Option.map_eq_some_iff.1 ha
      rfl
    · cases ha
  · cases ha

/-- What a record that arrives makes of its session is all it makes of the manager. -/
theorem step_arrival (ha : m.arrival cfg e = some a) : ∃ s' l ds,
    Receipt S cfg a.env a.peer a.src a.frame a.session s' l ∧
      step S cfg m e = ({ m with drains := ds }.setObj a.sid s').logged l := by
  unfold arrival at ha
  split at ha
  · rename_i env peer src frame
    split at ha
    · rename_i hphase
      obtain ⟨hallow, hp⟩ := hphase
      obtain ⟨⟨sid, s⟩, hl, rfl⟩ := Option.map_eq_some_iff.1 ha
      refine (wp_after (P := fun m' : Manager => ∃ s' l ds, Receipt S cfg env peer src frame s s' l ∧
        m' = ({ m with drains := ds }.setObj sid s').logged l)).2 ?_
      unfold handleFromPeer
      simp only [wp_bind, wp_lift, hallow, hp, wp_get, Except.ok.injEq, forall_eq', if_true, hl, reduceCtorEq,
        false_implies, implies_true, and_true, onSession, wp_zoom]
      refine fun _ _ => wp_mono wp_handleEstablished ?_ ?_
      · rintro _ ⟨s', log⟩ ⟨l, hr, rfl⟩
        exact ⟨s', l, m.drains, hr, rfl⟩
      · rintro _ ⟨s', log⟩ ⟨l, hr, rfl⟩
        exact ⟨s', l, m.drains, hr, rfl⟩
    · cases ha
  · rename_i env i
    split at ha
    · rename_i sid record rest hd
      obtain ⟨s, ho, rfl⟩ := Option.map_eq_some_iff.1 ha
      simp only [step, drainRecord, hd, ho]
      refine (wp_after (P := fun m' : Manager => ∃ s' l ds,
        Receipt S cfg env record.peer s.remoteNodeAddr record.frame s s' l ∧
          m' = ({ m with drains := ds }.setObj sid s').logged l)).2 ?_
      simp only [onSession, wp_zoom]
      refine wp_mono wp_handleEstablished ?_ ?_
      · rintro _ ⟨s', log⟩ ⟨l, hr, rfl⟩
        exact ⟨s', l, m.drains.set i (sid, rest), hr, rfl⟩
      · rintro _ ⟨s', log⟩ ⟨l, hr, rfl⟩
        exact ⟨s', l, m.drains.set i (sid, rest), hr, rfl⟩
    · cases ha
  · cases ha

/-- What an opened record delivers, to listeners that know its sender by `name`. -/
def Opening.effects (cfg : ManagerConfig) (name : Bytes) (o : Opening) : List Effect :=
  match decodeFspInner o.plaintext with
  | .ok inner => recordEffects cfg name o.fsp.remotePubkey inner
  | .error _ => []

/-- The name listeners know the sender of an opened record by. -/
def Opening.sender (slot : ReceiveSlot) (o : Opening) : Bytes :=
  (slot.received o.env o.session o.fsp o.est).eventName o.src

/-- A record that opens: its session `s'` has taken the counter under the keys that opened it, and the
effects `l` deliver its content. -/
structure OpenStep (S : Suite) (cfg : ManagerConfig) (m : Manager) (e : ManagerEvent) (o : Opening) (slot : ReceiveSlot)
    (s' : Session) (l : List Effect) : Prop where
  arrival : m.arrival cfg e = some o.toArrival
  auth : Authenticated S o.env o.frame o.session slot o.fsp o.est o.plaintext
  session : s' = slot.take o.env o.session o.fsp o.est ∨
    ∃ reports, s' = { slot.received o.env o.session o.fsp o.est with receiverReports := reports }
  delivered : l.filter Effect.isDelivery = (o.effects cfg (o.sender slot)).filter Effect.isDelivery
  content : ∀ inner, decodeFspInner o.plaintext = .ok inner →
    l = .reverseRoute o.src o.peer :: o.effects cfg (o.sender slot)
  result : ∃ ds, step S cfg m e = ({ m with drains := ds }.setObj o.sid s').logged l

theorem step_opening (ho : m.opening S cfg e = some o) : ∃ slot s' l, OpenStep S cfg m e o slot s' l := by
  unfold opening at ho
  obtain ⟨a, ha, ho⟩ := Option.bind_eq_some_iff.1 ho
  obtain ⟨⟨f, est, pt⟩, hauth, ho⟩ := Option.bind_eq_some_iff.1 ho
  cases ho
  obtain ⟨s', l, ds, hr, hstep⟩ := step_arrival (S := S) ha
  have hsome {P : Prop} (hna : a.session.authenticates S a.env a.frame = none) : P := by
    rw [hauth] at hna
    cases hna
  cases hr with
  | dropped hna => exact hsome hna
  | pruned hna h => exact hsome hna
  | queued hna h => exact hsome hna
  | @taken slot f' est' pt' e' h hi =>
    rw [h.authenticates] at hauth
    cases hauth
    refine ⟨slot, _, [], ha, h, .inl rfl, ?_, fun inner hinner => ?_, ds, hstep⟩
    · simp [Opening.effects, hi]
    · exact absurd (hi.symm.trans hinner) nofun
  | @opened slot f' est' pt' inner h hi reports =>
    rw [h.authenticates] at hauth
    cases hauth
    have heff : Opening.effects cfg (Opening.sender slot ⟨a, f, est, pt⟩) ⟨a, f, est, pt⟩ =
        recordEffects cfg ((slot.received a.env a.session f est).eventName a.src) f.remotePubkey inner := by
      simp only [Opening.effects, hi, Opening.sender]
    refine ⟨slot, _, _, ha, h, .inr ⟨reports, rfl⟩, ?_, fun _ _ => ?_, ds, hstep⟩
    · rw [heff]
      rfl
    · rw [heff]

/-- A record that opens nothing changes no key epoch of its session; an expired previous one is closed. -/
theorem step_arrival_of_not_opening (ha : m.arrival cfg e = some a) (hno : m.opening S cfg e = none) : ∃ s' ds,
    step S cfg m e = { m with drains := ds }.setObj a.sid s' ∧
      (s' = a.session ∨ s' = a.session.queue a.peer a.frame ∨ a.session.fsp.state = .established ∧
        (s' = a.session.prunePreviousFsp a.env.dateMs ∨
          s' = (a.session.prunePreviousFsp a.env.dateMs).queue a.peer a.frame)) := by
  obtain ⟨s', l, ds, hr, hstep⟩ := step_arrival (S := S) ha
  have hauth : a.session.authenticates S a.env a.frame = none := by
    unfold opening at hno
    simp only [ha, Option.bind_eq_bind, Option.bind_some] at hno
    cases h : a.session.authenticates S a.env a.frame with
    | none => rfl
    | some r => simp [h] at hno
  have hsome {P : Prop} {r : FspSession × FspEstablished × Bytes}
      (hs : a.session.authenticates S a.env a.frame = some r) : P := by
    rw [hauth] at hs
    cases hs
  cases hr with
  | dropped hna => exact ⟨_, ds, by simpa using hstep, .inl rfl⟩
  | pruned hna h => exact ⟨_, ds, by simpa using hstep, .inr (.inr ⟨h, .inl rfl⟩)⟩
  | queued hna h =>
    refine ⟨_, ds, by simpa using hstep, ?_⟩
    rcases h with rfl | ⟨hst, rfl⟩
    · exact .inr (.inl rfl)
    · exact .inr (.inr ⟨hst, .inr rfl⟩)
  | taken h hi => exact hsome h.authenticates
  | opened h hi reports => exact hsome h.authenticates

end

/-! ### Replay windows -/

/-- The counters that have opened under the object `oid`. -/
def counters (H : List Opening) (oid : Nat) : Set Int := {c | ∃ o ∈ H, o.fsp.oid = oid ∧ (o.est.counter : Int) = c}

/-- The replay windows of `m` after the openings `H`. -/
structure Windows (H : List Opening) (m : Manager) : Prop where
  window : ∀ s ∈ m.objs, ∀ f ∈ s.fsps, f.state ≠ .closed → f.replay.Accepted (counters H f.oid)
  unopened : ∀ s ∈ m.objs, ∀ f ∈ s.fsps, f.hs.isSome → counters H f.oid = ∅
  lt : ∀ o ∈ H, o.fsp.oid < m.nextOid
  nodup : (H.map fun o => (o.fsp.oid, o.est.counter)).Nodup

section
variable {S : Suite} {cfg : ManagerConfig} {m m' : Manager} {e : ManagerEvent} {o : Opening} {H : List Opening}
  {s s' : Session} {f f' : FspSession} {oid : Nat}

theorem counters_append_ne (h : o.fsp.oid ≠ oid) : counters (H ++ [o]) oid = counters H oid := by
  ext c
  simp only [counters, List.mem_append, List.mem_singleton, Set.mem_ofPred_eq]
  constructor
  · rintro ⟨o', ho' | rfl, hoid, hc⟩
    · exact ⟨o', ho', hoid, hc⟩
    · exact absurd hoid h
  · rintro ⟨o', ho', hoid, hc⟩
    exact ⟨o', .inl ho', hoid, hc⟩

theorem counters_append_self : counters (H ++ [o]) o.fsp.oid = insert (o.est.counter : Int) (counters H o.fsp.oid) := by
  ext c
  simp only [counters, List.mem_append, List.mem_singleton, Set.mem_ofPred_eq, Set.mem_insert_iff]
  constructor
  · rintro ⟨o', ho' | rfl, hoid, hc⟩
    · exact .inr ⟨o', ho', hoid, hc⟩
    · exact .inl hc.symm
  · rintro (rfl | ⟨o', ho', hoid, hc⟩)
    · exact ⟨o, .inr rfl, rfl, rfl⟩
    · exact ⟨o', .inl ho', hoid, hc⟩

theorem counters_eq_empty (h : ∀ o ∈ H, o.fsp.oid ≠ oid) : counters H oid = ∅ := by
  ext c
  simp only [counters, Set.mem_ofPred_eq, Set.mem_empty_iff_false, iff_false]
  rintro ⟨o, ho, hoid, -⟩
  exact h o ho hoid

/-- While nothing opens, a window stays the window of its counters. -/
theorem moves_window (h : f.Moves False f') (hk : f.Keyless)
    (hw : f.state ≠ .closed → f.replay.Accepted (counters H f.oid)) (hu : f.hs.isSome → counters H f.oid = ∅) :
    (f'.state ≠ .closed → f'.replay.Accepted (counters H f'.oid)) ∧ (f'.hs.isSome → counters H f'.oid = ∅) := by
  cases h with
  | refl => exact ⟨hw, hu⟩
  | sealed n => exact ⟨hw, hu⟩
  | taken h c hst => exact h.elim
  | progress hs h =>
    rw [h.state, h.replay, h.oid]
    exact ⟨hw, fun _ => hu hs⟩
  | completes hs h =>
    rw [h.replay, h.oid, h.hs, (hk hs).2.2, hu hs]
    exact ⟨fun _ => ReplayWindow.accepted_new, fun h => absurd h (by simp)⟩
  | closed oid => exact ⟨fun h => absurd rfl h, fun h => absurd h (by simp [FspSession.close])⟩

theorem Windows.step_quiet (hm : Safe S m) (h : Windows H m) (hno : m.opening S cfg e = none) :
    Windows H (Manager.step S cfg m e) := by
  have ht : Transition S cfg m e (Manager.step S cfg m e) := hm.wf.transition e
  have hold {s s' : Session} {fresh : FspSession → Prop} (hs : s ∈ m.objs) (hk : Kept False fresh s s') {f' : FspSession}
      (hf' : f' ∈ s'.fsps) (hfresh : ¬ fresh f') : (f'.state ≠ .closed → f'.replay.Accepted (counters H f'.oid)) ∧
        (f'.hs.isSome → counters H f'.oid = ∅) := by
    obtain ⟨f, hf, hmv⟩ := (hk.moves f' hf').resolve_right hfresh
    exact moves_window hmv (hm.wf.keyless s hs f hf) (h.window s hs f hf) (h.unopened s hs f hf)
  have hnew {f' : FspSession} (hf' : m.NewFsp f') : (f'.state ≠ .closed → f'.replay.Accepted (counters H f'.oid)) ∧
      (f'.hs.isSome → counters H f'.oid = ∅) := by
    obtain ⟨⟨role, hun⟩, -⟩ := hf'
    have hempty : counters H f'.oid = ∅ := counters_eq_empty fun o ho => by
      have := h.lt o ho
      rw [hun.oid]
      omega
    rw [hempty, hun.replay]
    exact ⟨fun _ => ReplayWindow.accepted_new, fun _ => rfl⟩
  have hall : ∀ s' ∈ (Manager.step S cfg m e).objs, ∀ f' ∈ s'.fsps,
      (f'.state ≠ .closed → f'.replay.Accepted (counters H f'.oid)) ∧ (f'.hs.isSome → counters H f'.oid = ∅) := by
    intro s' hs' f' hf'
    obtain ⟨i, hi⟩ := List.getElem?_of_mem hs'
    rcases ht.objects with ⟨-, hch⟩ | ⟨-, k, hch⟩
    · obtain ⟨s, hs, hn⟩ := hch i s' hi
      have hk := hn.kept
      rw [hno, Option.isSome_none, Bool.false_eq_true] at hk
      exact hold (List.mem_of_getElem? hs) hk hf' id
    · rcases hch i s' hi with hs | ⟨-, hc⟩
      · exact ⟨h.window s' (List.mem_of_getElem? hs) f' hf', h.unopened s' (List.mem_of_getElem? hs) f' hf'⟩
      · rcases hc.kept with ⟨s, hs, hk⟩ | ⟨-, hone, hnew'⟩
        · by_cases hfresh : m.NewFsp f'
          · exact hnew hfresh
          · exact hold (List.mem_of_getElem? hs) hk hf' hfresh
        · rw [hone, List.mem_singleton] at hf'
          exact hf' ▸ hnew hnew'
  have hle : m.nextOid ≤ (Manager.step S cfg m e).nextOid := by
    rcases ht.objects with ⟨hn, -⟩ | ⟨hn, -⟩ <;> omega
  exact ⟨fun s hs f hf => (hall s hs f hf).1, fun s hs f hf => (hall s hs f hf).2,
    fun o ho => (h.lt o ho).trans_le hle, h.nodup⟩

theorem OpenStep.mem {slot : ReceiveSlot} {l : List Effect} (h : OpenStep S cfg m e o slot s' l)
    (hg : f ∈ s'.fsps) : f = o.fsp.taken o.est.counter ∨ f ∈ o.session.fsps := by
  rcases h.session with rfl | ⟨reports, rfl⟩
  · exact h.auth.mem_take hg
  · exact h.auth.mem_take (h.auth.subperm_received.subset hg)

theorem OpenStep.taken_mem {slot : ReceiveSlot} {l : List Effect} (h : OpenStep S cfg m e o slot s' l) :
    o.fsp.taken o.est.counter ∈ s'.fsps := by
  rcases h.session with rfl | ⟨reports, rfl⟩
  · exact h.auth.taken_mem_take
  · exact h.auth.taken_mem_received

/-- The objects after a record has opened: the one that took the counter, and the others as they were. -/
theorem mem_step_opening (hm : Safe S m) (ho : m.opening S cfg e = some o) (hs : s ∈ (Manager.step S cfg m e).objs)
    (hf : f ∈ s.fsps) : f = o.fsp.taken o.est.counter ∨ f.oid ≠ o.fsp.oid ∧ ∃ s₀ ∈ m.objs, f ∈ s₀.fsps := by
  obtain ⟨slot, s', l, hstep⟩ := Manager.step_opening ho
  obtain ⟨ds, hres⟩ := hstep.result
  have hsid := arrival_objs hstep.arrival
  have hobjs : (Manager.step S cfg m e).objs = m.objs.set o.sid s' := by rw [hres]; rfl
  have hnodup := (@Safe.next _ cfg _ hm e).unshared.nodup
  obtain ⟨i, hi⟩ := List.getElem?_of_mem hs
  rw [hobjs] at hi
  by_cases hne : o.sid = i
  · subst hne
    rw [List.getElem?_set_self (List.getElem?_eq_some_iff.1 hsid).1] at hi
    cases hi
    by_cases htaken : f = o.fsp.taken o.est.counter
    · exact .inl htaken
    · refine .inr ⟨fun hoid => ?_, o.session, List.mem_of_getElem? hsid, (hstep.mem hf).resolve_left htaken⟩
      exact htaken (List.inj_on_of_nodup_map (hnodup _ hs) hf hstep.taken_mem hoid)
  · rw [List.getElem?_set_ne hne] at hi
    refine .inr ⟨fun hoid => ?_, s, List.mem_of_getElem? hi, hf⟩
    exact hne (hm.unshared.apart i o.sid s o.session hi hsid f hf o.fsp hstep.auth.mem hoid).symm

/-- The window that opened the record takes its counter; the others stay. -/
theorem Windows.step_opening (hm : Safe S m) (h : Windows H m) (ho : m.opening S cfg e = some o) :
    Windows (H ++ [o]) (Manager.step S cfg m e) := by
  obtain ⟨slot, s', l, hstep⟩ := Manager.step_opening ho
  obtain ⟨ds, hres⟩ := hstep.result
  have hs₀ : o.session ∈ m.objs := List.mem_of_getElem? (arrival_objs hstep.arrival)
  obtain ⟨_, _, _, hst, _, _, _, hcheck, -⟩ := FspSession.authenticate_eq_ok hstep.auth.auth
  have hwin : o.fsp.replay.Accepted (counters H o.fsp.oid) :=
    h.window _ hs₀ _ hstep.auth.mem (by simp [hst])
  have hnext : (Manager.step S cfg m e).nextOid = m.nextOid := by rw [hres]; rfl
  have hfresh : (o.est.counter : Int) ∉ counters H o.fsp.oid := (hwin.check_iff.1 hcheck).2.2.2
  constructor
  · intro s hs f hf hst'
    rcases mem_step_opening hm ho hs hf with rfl | ⟨hne, s₀, hs₀, hf₀⟩
    · show (o.fsp.replay.accept o.est.counter).2.Accepted (counters (H ++ [o]) o.fsp.oid)
      rw [counters_append_self]
      exact (hwin.accept hcheck).2
    · rw [counters_append_ne (Ne.symm hne)]
      exact h.window s₀ hs₀ f hf₀ hst'
  · intro s hs f hf hhs
    rcases mem_step_opening hm ho hs hf with rfl | ⟨hne, s₀, hs₀, hf₀⟩
    · exact absurd hst (hm.wf.keyless o.session ‹_› o.fsp hstep.auth.mem hhs).1
    · rw [counters_append_ne (Ne.symm hne)]
      exact h.unopened s₀ hs₀ f hf₀ hhs
  · intro o' ho'
    rw [hnext]
    rcases List.mem_append.1 ho' with ho' | ho'
    · exact h.lt o' ho'
    · cases List.mem_singleton.1 ho'
      exact hm.unshared.lt o.session hs₀ o.fsp hstep.auth.mem
  · rw [List.map_append, List.map_singleton, List.nodup_append]
    refine ⟨h.nodup, List.nodup_singleton _, ?_⟩
    rintro x hx y hy rfl
    obtain ⟨o', ho', heq⟩ := List.mem_map.1 hx
    obtain ⟨hoid, hc⟩ := Prod.mk.inj (heq.trans (List.mem_singleton.1 hy))
    exact hfresh ⟨o', ho', hoid, congrArg Nat.cast hc⟩

/-- A window takes every counter that has not opened yet and is not too old. -/
theorem Windows.check (h : Windows H m) (hs : s ∈ m.objs) (hf : f ∈ s.fsps) (hst : f.state ≠ .closed) {c : Nat}
    (hbound : c < maxNonce) (hnew : ∀ o ∈ H, o.fsp.oid = f.oid → o.est.counter ≠ c)
    (hwin : ∀ o ∈ H, o.fsp.oid = f.oid → o.est.counter < c + 2048) : f.replay.check c = true := by
  have hacc := h.window s hs f hf hst
  refine hacc.check_iff.2 ⟨by omega, by simp only [maxNonce] at hbound; omega, ?_, ?_⟩
  · rcases hacc.high_mem with hhigh | ⟨o, ho, hoid, hcounter⟩
    · omega
    · have := hwin o ho hoid
      omega
  · rintro ⟨o, ho, hoid, hcounter⟩
    exact hnew o ho hoid (by omega)

/-! ### Runs -/

/-- The records that open while `m` goes through the events. -/
def openings (S : Suite) (cfg : ManagerConfig) (m : Manager) : List PolicyEvent → List Opening
  | [] => []
  | pe :: es =>
    (m.opening S (cfg.under S pe.admission pe.localEpoch) pe.event).toList ++ openings S cfg (stepUnder S cfg m pe) es

theorem openings_concat {es : List PolicyEvent} {pe : PolicyEvent} : openings S cfg m (es ++ [pe]) =
    openings S cfg m es ++ ((Run.run (stepUnder S cfg) m es).opening S (cfg.under S pe.admission pe.localEpoch)
      pe.event).toList := by
  induction es generalizing m with
  | nil => simp [openings]
  | cons pe' es ih =>
    rw [List.cons_append, openings, openings, ih, List.append_assoc, Run.run_cons]

/-- Along every run the replay windows are those of the records that have opened. -/
theorem windows_run {es : List PolicyEvent} :
    Windows (openings S cfg init es) (Run.run (stepUnder S cfg) init es) := by
  induction es using List.reverseRecOn with
  | nil =>
    exact ⟨fun s hs => absurd hs List.not_mem_nil, fun s hs => absurd hs List.not_mem_nil,
      fun o ho => absurd ho List.not_mem_nil, List.nodup_nil⟩
  | append_singleton es pe ih =>
    rw [openings_concat, run_stepUnder_concat]
    have hm : Safe S (Run.run (stepUnder S cfg) init es) := safe_runUnder
    cases ho : (Run.run (stepUnder S cfg) init es).opening S (cfg.under S pe.admission pe.localEpoch) pe.event with
    | none =>
      rw [Option.toList_none, List.append_nil]
      exact ih.step_quiet hm ho
    | some o => exact ih.step_opening hm ho

end

end Manager

end Fips
