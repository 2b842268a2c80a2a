import Fips.Node.LifecycleRuns

/-!
# Starts and stops that do not overlap

A start begins only when no stop holds its slot, unless a caller read the slot before the stop took it. In
runs without that a started node is desired, all its transports run, and what they deliver is not stale.
-/

namespace Fips

namespace NodeLifecycle

variable {transports : Nat} {s s' : NodeLifecycle} {a : Action}

/-- A start begins while a stop holds its slot. -/
def Overlaps (transports : Nat) (s : NodeLifecycle) (a : Action) : Prop :=
  (s.step transports a).startTasks.next ≠ s.startTasks.next ∧ s.stopTask.isSome = true

instance : Decidable (Overlaps transports s a) := instDecidableAnd

/-! ### The invariant -/

/-- The last start that succeeded is the one whose packets the node processes, under its own startup epoch. -/
def Current (s : NodeLifecycle) : Prop :=
  ∃ run, s.runs.getLast? = some run ∧ run.generation = s.discoveryGeneration ∧ run.startupEpoch = s.startupEpoch

/-- The last update of the policy has not begun. -/
def Awaits (s : NodeLifecycle) : Prop :=
  ∃ u previous, s.admissionUpdate = some u ∧ s.updates.get u = .awaitingPrevious previous

structure Orderly (transports : Nat) (s : NodeLifecycle) : Prop where
  stopped : s.stopTask.isSome = true → s.started = false
  bounded : ∀ r < s.startTasks.next, (s.startTasks.get r).generation ≤ s.discoveryGeneration
  fresh : ∀ r i, (s.startTasks.get r).stage = .starting i → (s.startTasks.get r).generation = s.discoveryGeneration →
    s.stopTask = none ∧ ∀ j ≤ i, s.runs? j = true
  running : s.started = true → s.desiredRunning = true ∧ ∀ i < transports, s.runs? i = true
  current : s.started = true → s.Current ∨ s.Awaits
  updating : ∀ u, s.admissionUpdate = some u → s.admissionUpdating = false → ∃ ok, s.updates.get u = .settled ok
  known : ∀ u, s.admissionUpdate = some u → u < s.updates.next

theorem orderly_new (startupEpoch : BitVec 64) (admission : PeerAdmission) :
    Orderly transports (new startupEpoch admission) where
  stopped h := by cases h
  bounded r hr := absurd hr (Nat.not_lt_zero r)
  fresh r i hr := by cases hr
  running h := by cases h
  current h := by cases h
  updating u hu := by cases hu
  known u hu := by cases hu

/-- What the invariant is about is the same, and an update may have gone on. -/
structure SameOrder (s s' : NodeLifecycle) : Prop where
  started : s'.started = s.started
  desiredRunning : s'.desiredRunning = s.desiredRunning
  stopTask : s'.stopTask = s.stopTask
  startTasks : s'.startTasks = s.startTasks
  discoveryGeneration : s'.discoveryGeneration = s.discoveryGeneration
  startupEpoch : s'.startupEpoch = s.startupEpoch
  runs : s'.runs = s.runs
  calls : s'.calls = s.calls

theorem Orderly.same (h : Orderly transports s) (hsame : SameOrder s s') (hawaits : s.Awaits → s'.Awaits)
    (hupdating : ∀ u, s'.admissionUpdate = some u → s'.admissionUpdating = false → ∃ ok, s'.updates.get u = .settled ok)
    (hknown : ∀ u, s'.admissionUpdate = some u → u < s'.updates.next) : Orderly transports s' := by
  obtain ⟨hstarted, hdesired, hstopTask, hstartTasks, hgeneration, hepoch, hruns, hcalls⟩ := hsame
  refine ⟨?_, ?_, ?_, ?_, ?_, hupdating, hknown⟩
  · rw [hstopTask, hstarted]
    exact h.stopped
  · rw [hstartTasks, hgeneration]
    exact h.bounded
  · rw [hstartTasks, hgeneration, hstopTask]
    unfold runs?
    rw [hcalls]
    exact h.fresh
  · rw [hstarted, hdesired]
    unfold runs?
    rw [hcalls]
    exact h.running
  · rw [hstarted]
    intro hstarted
    rcases h.current hstarted with hcurrent | hwaits
    · left
      unfold Current
      rw [hruns, hgeneration, hepoch]
      exact hcurrent
    · exact .inr (hawaits hwaits)

/-- What the invariant is about is the same. -/
theorem Orderly.frame (h : Orderly transports s) (hsame : SameOrder s s') (hupdate : s'.admissionUpdate = s.admissionUpdate)
    (hupdating : s'.admissionUpdating = s.admissionUpdating) (hupdates : s'.updates = s.updates) : Orderly transports s' := by
  refine h.same hsame ?_ ?_ ?_
  · unfold Awaits
    rw [hupdate, hupdates]
    exact fun hwaits => hwaits
  · rw [hupdate, hupdating, hupdates]
    exact h.updating
  · rw [hupdate, hupdates]
    exact h.known

/-- An update that is under way comes to another stage. -/
theorem Orderly.setUpdate (h : Orderly transports s) {u : UpdateId} {stage : UpdateStage}
    (hbegun : ∀ previous, s.updates.get u ≠ .awaitingPrevious previous) (hunsettled : ∀ ok, s.updates.get u ≠ .settled ok) :
    Orderly transports (s.setUpdate u stage) := by
  have hother : ∀ u', u' ≠ u → (s.setUpdate u stage).updates.get u' = s.updates.get u' := by
    intro u' hne
    show (s.updates.modify u fun _ => stage).get u' = s.updates.get u'
    exact Heap.get_modify_of_ne hne
  refine h.same ⟨rfl, rfl, rfl, rfl, rfl, rfl, rfl, rfl⟩ ?_ ?_ h.known
  · rintro ⟨u', previous, hu', hstage⟩
    have hne : u' ≠ u := by
      rintro rfl
      exact hbegun previous hstage
    exact ⟨u', previous, hu', (hother u' hne).trans hstage⟩
  · intro u' hu' hidle
    obtain ⟨ok, hstage⟩ := h.updating u' hu' hidle
    have hne : u' ≠ u := by
      rintro rfl
      exact hunsettled ok hstage
    exact ⟨ok, (hother u' hne).trans hstage⟩

/-- The node is not started. -/
theorem orderly_of_stopped (hstarted : s.started = false)
    (hbounded : ∀ r < s.startTasks.next, (s.startTasks.get r).generation ≤ s.discoveryGeneration)
    (hfresh : ∀ r i, (s.startTasks.get r).stage = .starting i → (s.startTasks.get r).generation = s.discoveryGeneration →
      s.stopTask = none ∧ ∀ j ≤ i, s.runs? j = true)
    (hupdating : ∀ u, s.admissionUpdate = some u → s.admissionUpdating = false → ∃ ok, s.updates.get u = .settled ok)
    (hknown : ∀ u, s.admissionUpdate = some u → u < s.updates.next) : Orderly transports s := by
  refine ⟨fun _ => hstarted, hbounded, hfresh, fun hsome => ?_, fun hsome => ?_, hupdating, hknown⟩
  · rw [hstarted] at hsome
    cases hsome
  · rw [hstarted] at hsome
    cases hsome

/-! ### Starts -/

theorem runs?_start {i j : TransportIdx} (hcalls : s'.calls = s.calls ++ [.start j]) :
    s'.runs? i = if j = i then true else s.runs? i := by
  unfold runs?
  rw [hcalls]
  exact lastStarts_start

/-- A start that is current comes to transport `i`, those before it running. -/
theorem orderly_startFrom (hsound : Sound transports s) {r : StartTaskId} {i : TransportIdx}
    (hbounded : ∀ r < s.startTasks.next, (s.startTasks.get r).generation ≤ s.discoveryGeneration)
    (hupdating : ∀ u, s.admissionUpdate = some u → s.admissionUpdating = false → ∃ ok, s.updates.get u = .settled ok)
    (hknown : ∀ u, s.admissionUpdate = some u → u < s.updates.next) (hr : s.startResult r = none) (hdesired : s.desiredRunning = true) (hslot : s.stopTask = none)
    (hgeneration : (s.startTasks.get r).generation = s.discoveryGeneration) (hbefore : ∀ j < i, s.runs? j = true) :
    Orderly transports (s.startFrom transports r i) := by
  have hget : ∀ stage r', ((s.startTasks.modify r fun t => { t with stage := stage }).get r').generation =
      (s.startTasks.get r').generation := by
    intro stage r'
    rw [Heap.get_modify]
    split
    · rfl
    · rfl
  have hstays : ∀ stage, ∀ r' < s.startTasks.next,
      ((s.startTasks.modify r fun t => { t with stage := stage }).get r').generation ≤ s.discoveryGeneration := by
    intro stage r' hr'
    rw [hget]
    exact hbounded r' hr'
  unfold NodeLifecycle.startFrom
  split
  · refine orderly_of_stopped (hsound.starting r hr) (hstays _) (fun r' j hstage _ => ⟨hslot, fun k hk => ?_⟩) hupdating hknown
    have hle : k ≤ i := by
      have hmodified : ((s.startTasks.modify r fun t => { t with stage := .starting i }).get r').stage = .starting j := hstage
      rw [Heap.get_modify] at hmodified
      split at hmodified
      · cases hmodified
        exact hk
      · rename_i hne
        refine absurd (hsound.one_start hr ?_) hne
        unfold startResult
        rw [hmodified]
        rfl
    rw [@runs?_start s _ k i rfl]
    split
    · rfl
    · rename_i hne
      exact hbefore k (Nat.lt_of_le_of_ne hle fun heq => hne heq.symm)
  · rename_i hall
    unfold startSucceeds
    refine ⟨fun hsome => ?_, hstays _, fun r' j hstage _ => ?_, fun _ => ⟨hdesired, fun k hk => ?_⟩, fun _ => .inl ?_,
      hupdating, hknown⟩
    · have hsome' : s.stopTask.isSome = true := hsome
      rw [hslot] at hsome'
      cases hsome'
    · -- the start has settled, and no other is under way
      have hmodified : ((s.startTasks.modify r fun t => { t with stage := .settled true }).get r').stage = .starting j := hstage
      rw [Heap.get_modify] at hmodified
      split at hmodified
      · cases hmodified
      · rename_i hne
        refine absurd (hsound.one_start hr ?_) hne
        unfold startResult
        rw [hmodified]
        rfl
    · exact hbefore k (Nat.lt_of_lt_of_le hk (Nat.not_lt.1 hall))
    · exact ⟨⟨(s.startTasks.get r).generation, s.startupEpoch⟩, List.getLast?_concat, hgeneration, rfl⟩

/-- A start begins while no stop holds its slot. -/
theorem Orderly.startNode (h : Orderly transports s) (hsound : Sound transports s) (hdesired : s.desiredRunning = true)
    (hslot : s.startTask = none → s.stopTask = none) : Orderly transports (s.startNode transports) := by
  rcases @startNode_cases transports s with ⟨-, heq⟩ | ⟨-, hstarted, heq⟩ | ⟨hnone, hstarted, heq⟩
  · rw [heq]
    exact h
  · rw [heq]
    have hget : ∀ r < s.startTasks.next + 1, ∀ t : StartTask, t.generation = s.discoveryGeneration →
        ((s.startTasks.alloc t).get r).generation ≤ s.discoveryGeneration := by
      intro r hr t ht
      rcases Nat.lt_succ_iff_lt_or_eq.1 hr with hlt | rfl
      · rw [Heap.get_alloc_of_lt hlt]
        exact h.bounded r hlt
      · rw [Heap.get_alloc_self, ht]
    refine ⟨h.stopped, fun r hr => hget r hr _ rfl, fun r i hstage hgeneration => ?_, h.running, h.current, h.updating,
      h.known⟩
    by_cases hne : r = s.startTasks.next
    · have hstage' : ((s.startTasks.alloc ⟨s.discoveryGeneration, .settled true⟩).get r).stage = .starting i := hstage
      rw [hne, Heap.get_alloc_self] at hstage'
      cases hstage'
    · have hget : (s.startTasks.alloc ⟨s.discoveryGeneration, .settled true⟩).get r = s.startTasks.get r :=
        Heap.get_alloc_of_ne hne
      refine h.fresh r i ?_ ?_
      · rw [← hget]
        exact hstage
      · rw [← hget]
        exact hgeneration
  · rw [heq]
    have hself : s.beginStart.startTasks.get s.startTasks.next = ⟨s.discoveryGeneration + 1, .starting 0⟩ := by
      unfold beginStart
      dsimp only
      rw [Heap.get_alloc_self]
    have hbegun : Sound transports s.beginStart :=
      hsound.newStart hnone rfl rfl rfl rfl rfl rfl rfl fun _ => hstarted
    refine orderly_startFrom hbegun (fun r hr => ?_) h.updating h.known ?_ hdesired (hslot hnone) ?_ ?_
    · rcases Nat.lt_succ_iff_lt_or_eq.1 hr with hlt | rfl
      · have hold : s.beginStart.startTasks.get r = s.startTasks.get r := Heap.get_alloc_of_lt hlt
        rw [hold]
        exact (h.bounded r hlt).trans (Nat.le_succ _)
      · rw [hself]
        exact Nat.le_refl _
    · unfold startResult
      rw [hself]
      rfl
    · rw [hself]
      rfl
    · intro j hj
      exact absurd hj (Nat.not_lt_zero j)

/-- A start that is being undone. -/
theorem orderly_undoFrom (hsound : Sound transports s) {r : StartTaskId} {rest : List TransportIdx} {closed : Bool}
    (hbounded : ∀ r < s.startTasks.next, (s.startTasks.get r).generation ≤ s.discoveryGeneration)
    (hupdating : ∀ u, s.admissionUpdate = some u → s.admissionUpdating = false → ∃ ok, s.updates.get u = .settled ok)
    (hknown : ∀ u, s.admissionUpdate = some u → u < s.updates.next) (hr : s.startResult r = none) :
    Orderly transports (s.undoFrom r rest closed) := by
  have hnone : ∀ stage : StartStage, (∀ j, stage ≠ .starting j) → ∀ r' j,
      ((s.startTasks.modify r fun t => { t with stage := stage }).get r').stage ≠ .starting j := by
    intro stage hstage r' j hmodified
    rw [Heap.get_modify] at hmodified
    split at hmodified
    · exact hstage j hmodified
    · rename_i hne
      refine hne (hsound.one_start hr ?_)
      unfold startResult
      rw [hmodified]
      rfl
  have hstays : ∀ stage : StartStage, ∀ r' < s.startTasks.next,
      ((s.startTasks.modify r fun t => { t with stage := stage }).get r').generation ≤ s.discoveryGeneration := by
    intro stage r' hr'
    rw [Heap.get_modify]
    split
    · exact hbounded r' hr'
    · exact hbounded r' hr'
  unfold undoFrom
  split
  · exact orderly_of_stopped (hsound.starting r hr) (hstays _)
      (fun r' j hstage _ => absurd hstage (hnone (.settled false) (by rintro j ⟨⟩) r' j)) hupdating hknown
  · rename_i k rest
    exact orderly_of_stopped (hsound.starting r hr) (hstays _)
      (fun r' j hstage _ => absurd hstage (hnone (.undoing (k :: rest) closed) (by rintro j ⟨⟩) r' j)) hupdating hknown

theorem Orderly.transportStarted (h : Orderly transports s) (hsound : Sound transports s) {r : StartTaskId} {ok : Bool} :
    Orderly transports (s.transportStarted transports r ok) := by
  unfold NodeLifecycle.transportStarted
  split
  · rename_i i hstage
    have hr : s.startResult r = none := by
      unfold startResult
      rw [hstage]
      rfl
    split
    · rename_i hgoes
      rw [Bool.and_eq_true, Bool.and_eq_true, decide_eq_true_eq] at hgoes
      obtain ⟨⟨-, hgeneration⟩, hdesired⟩ := hgoes
      obtain ⟨hslot, hruns⟩ := h.fresh r i hstage hgeneration
      exact orderly_startFrom hsound h.bounded h.updating h.known hr hdesired hslot hgeneration fun j hj =>
        hruns j (Nat.le_of_lt_succ hj)
    · have hbumped : Sound transports { s with discoveryGeneration := s.discoveryGeneration + 1 } :=
        hsound.same ⟨rfl, rfl, rfl, rfl, rfl, rfl, rfl⟩
      exact orderly_undoFrom hbumped (fun r' hr' => (h.bounded r' hr').trans (Nat.le_succ _)) h.updating h.known hr
  · exact h

theorem Orderly.transportUndone (h : Orderly transports s) (hsound : Sound transports s) {r : StartTaskId} {ok : Bool} :
    Orderly transports (s.transportUndone r ok) := by
  unfold NodeLifecycle.transportUndone
  split
  · rename_i i rest closed hstage
    refine orderly_undoFrom hsound h.bounded h.updating h.known ?_
    unfold startResult
    rw [hstage]
    rfl
  · exact h

theorem Orderly.startCleared (h : Orderly transports s) {r : StartTaskId} : Orderly transports (s.startCleared r) := by
  unfold NodeLifecycle.startCleared
  split
  · exact h.frame ⟨rfl, rfl, rfl, rfl, rfl, rfl, rfl, rfl⟩ rfl rfl rfl
  · exact h

/-! ### Stops -/

/-- A stop that holds its slot makes its calls. -/
theorem Orderly.stopFrom (h : Orderly transports s) (hslot : s.stopTask.isSome = true) {r : StopTaskId} {i : TransportIdx}
    {failed : Bool} : Orderly transports (s.stopFrom transports r i failed) := by
  have hfresh : ∀ r' j, (s.startTasks.get r').stage = .starting j →
      (s.startTasks.get r').generation = s.discoveryGeneration → False := by
    intro r' j hstage hgeneration
    rw [(h.fresh r' j hstage hgeneration).1] at hslot
    cases hslot
  unfold NodeLifecycle.stopFrom
  split
  · exact orderly_of_stopped (h.stopped hslot) h.bounded
      (fun r' j hstage hgeneration => (hfresh r' j hstage hgeneration).elim) h.updating h.known
  · exact orderly_of_stopped (h.stopped hslot) h.bounded
      (fun r' j hstage hgeneration => (hfresh r' j hstage hgeneration).elim) h.updating h.known

/-- A stop leaves a node that is not started, whether or not the node was desired. -/
theorem orderly_stopNode (hsound : Sound transports s) {departs : Bool} (hstopped : s.stopTask.isSome = true → s.started = false)
    (hbounded : ∀ r < s.startTasks.next, (s.startTasks.get r).generation ≤ s.discoveryGeneration)
    (hfresh : ∀ r i, (s.startTasks.get r).stage = .starting i → (s.startTasks.get r).generation = s.discoveryGeneration →
      s.stopTask = none ∧ ∀ j ≤ i, s.runs? j = true)
    (hupdating : ∀ u, s.admissionUpdate = some u → s.admissionUpdating = false → ∃ ok, s.updates.get u = .settled ok)
    (hknown : ∀ u, s.admissionUpdate = some u → u < s.updates.next) :
    Orderly transports (s.stopNode transports departs) ∧ (s.stopNode transports departs).started = false := by
  rcases @stopNode_cases transports s departs with ⟨hslot, heq⟩ | ⟨-, ⟨hstarted, hnone⟩, heq⟩ | ⟨-, heq⟩
  · rw [heq]
    exact ⟨orderly_of_stopped (hstopped hslot) hbounded hfresh hupdating hknown, hstopped hslot⟩
  · rw [heq]
    refine ⟨orderly_of_stopped hstarted hbounded (fun r i hstage _ => ?_) hupdating hknown, hstarted⟩
    have hr : s.startResult r = none := by
      unfold startResult
      rw [hstage]
      rfl
    rw [hsound.startSlot r hr] at hnone
    cases hnone
  · rw [heq]
    have hbegun : Orderly transports s.beginStop := by
      refine orderly_of_stopped rfl (fun r hr => (hbounded r hr).trans (Nat.le_succ _)) (fun r i hstage hgeneration => ?_)
        hupdating hknown
      have hbefore : r < s.startTasks.next := by
        refine hsound.startKnown r (hsound.startSlot r ?_)
        have hstage' : (s.startTasks.get r).stage = .starting i := hstage
        unfold startResult
        rw [hstage']
        rfl
      have hle := hbounded r hbefore
      have hgeneration' : (s.startTasks.get r).generation = s.discoveryGeneration + 1 := hgeneration
      rw [hgeneration'] at hle
      exact absurd hle (Nat.not_succ_le_self _)
    split
    · exact ⟨hbegun, rfl⟩
    · refine ⟨hbegun.stopFrom rfl, ?_⟩
      unfold NodeLifecycle.stopFrom
      split
      · rfl
      · rfl

theorem Orderly.departed (h : Orderly transports s) (hsound : Sound transports s) {r : StopTaskId} :
    Orderly transports (s.departed transports r) := by
  unfold NodeLifecycle.departed
  split
  · rename_i hstage
    refine h.stopFrom ?_
    rw [hsound.stopSlot r (by unfold stopResult; rw [hstage]; rfl)]
    rfl
  · exact h

theorem Orderly.transportStopped (h : Orderly transports s) (hsound : Sound transports s) {r : StopTaskId} {ok : Bool} :
    Orderly transports (s.transportStopped transports r ok) := by
  unfold NodeLifecycle.transportStopped
  split
  · rename_i i failed hstage
    refine h.stopFrom ?_
    rw [hsound.stopSlot r (by unfold stopResult; rw [hstage]; rfl)]
    rfl
  · exact h

theorem Orderly.drained (h : Orderly transports s) {r : StopTaskId} : Orderly transports (s.drained r) := by
  unfold NodeLifecycle.drained
  split
  · exact h.frame ⟨rfl, rfl, rfl, rfl, rfl, rfl, rfl, rfl⟩ rfl rfl rfl
  · exact h

theorem Orderly.stopFinished (h : Orderly transports s) {r : StopTaskId} : Orderly transports (s.stopFinished r) := by
  unfold NodeLifecycle.stopFinished
  split
  · split
    · exact h
    · exact h.frame ⟨rfl, rfl, rfl, rfl, rfl, rfl, rfl, rfl⟩ rfl rfl rfl
  · exact h

theorem Orderly.stopCleared (h : Orderly transports s) {r : StopTaskId} : Orderly transports (s.stopCleared r) := by
  unfold NodeLifecycle.stopCleared
  split
  · exact ⟨by rintro ⟨⟩, h.bounded, fun r' i hstage hgeneration => ⟨rfl, (h.fresh r' i hstage hgeneration).2⟩, h.running,
      h.current, h.updating, h.known⟩
  · exact h

/-! ### Callers -/

theorem Orderly.setBlockedPeerPubkeys (h : Orderly transports s) (hsound : Sound transports s) {keys : List Bytes} :
    Orderly transports (s.setBlockedPeerPubkeys keys) := by
  unfold NodeLifecycle.setBlockedPeerPubkeys
  split
  · exact h
  split
  · exact h
  refine ⟨h.stopped, fun r hr => (h.bounded r hr).trans (Nat.le_succ _), fun r i hstage hgeneration => ?_, h.running,
    fun _ => .inr ⟨s.updates.next, s.admissionUpdate, rfl, Heap.get_alloc_self⟩, ?_, ?_⟩
  · have hknown : r < s.startTasks.next := by
      refine hsound.startKnown r (hsound.startSlot r ?_)
      have hstage' : (s.startTasks.get r).stage = .starting i := hstage
      unfold startResult
      rw [hstage']
      rfl
    have hle := h.bounded r hknown
    have hgeneration' : (s.startTasks.get r).generation = s.discoveryGeneration + 1 := hgeneration
    rw [hgeneration'] at hle
    exact absurd hle (Nat.not_succ_le_self _)
  · rintro u - ⟨⟩
  · rintro u ⟨⟩
    exact Nat.lt_succ_self _

theorem next_startNode (hnone : s.startTask = none) :
    (s.startNode transports).startTasks.next = s.startTasks.next + 1 := by
  rcases @startNode_cases transports s with ⟨hsome, -⟩ | ⟨-, -, heq⟩ | ⟨-, -, heq⟩
  · rw [hnone] at hsome
    cases hsome
  · rw [heq]
    rfl
  · rw [heq]
    unfold startFrom
    split
    · rfl
    · rfl

/-- A caller that may start the node. -/
theorem Orderly.startDesired (h : Orderly transports s) (hsound : Sound transports s) {c : StartCallId}
    (hslot : (s.startDesired transports c).startTasks.next ≠ s.startTasks.next → s.stopTask = none) :
    Orderly transports (s.startDesired transports c) := by
  unfold NodeLifecycle.startDesired at hslot ⊢
  split
  · rename_i hdesired
    rw [if_pos hdesired] at hslot
    refine (h.startNode hsound hdesired fun hnone => ?_).frame ⟨rfl, rfl, rfl, rfl, rfl, rfl, rfl, rfl⟩ rfl rfl rfl
    refine hslot ?_
    have hnext : (s.startNode transports).startTasks.next = s.startTasks.next + 1 := next_startNode hnone
    show (s.startNode transports).startTasks.next ≠ s.startTasks.next
    rw [hnext]
    exact Nat.succ_ne_self _
  · exact h.frame ⟨rfl, rfl, rfl, rfl, rfl, rfl, rfl, rfl⟩ rfl rfl rfl

theorem Orderly.startCall (h : Orderly transports s) (hsound : Sound transports s) {c : StartCallId}
    (hslot : (s.startCall transports c).startTasks.next ≠ s.startTasks.next → s.stopTask = none) :
    Orderly transports (s.startCall transports c) := by
  have hcall : ∀ stage, Orderly transports (s.setStartCall c stage) := fun _ =>
    h.frame ⟨rfl, rfl, rfl, rfl, rfl, rfl, rfl, rfl⟩ rfl rfl rfl
  revert hslot
  unfold NodeLifecycle.startCall
  split
  · split
    · exact fun _ => h
    split
    · exact fun _ => hcall _
    · exact fun hslot => h.startDesired hsound hslot
  · split
    · exact fun _ => h
    · exact fun _ => hcall _
    · exact fun hslot => h.startDesired hsound hslot
  · split
    · exact fun _ => h
    · exact fun _ => hcall _
  · exact fun _ => h

theorem updates_startNode : (s.startNode transports).updates = s.updates := by
  rcases @startNode_cases transports s with ⟨-, heq⟩ | ⟨-, -, heq⟩ | ⟨-, -, heq⟩
  · rw [heq]
  · rw [heq]
  · rw [heq]
    unfold startFrom
    split
    · rfl
    · rfl

theorem updates_stopNode (departs : Bool) : (s.stopNode transports departs).updates = s.updates := by
  rcases @stopNode_cases transports s departs with ⟨-, heq⟩ | ⟨-, -, heq⟩ | ⟨-, heq⟩
  · rw [heq]
  · rw [heq]
  · rw [heq]
    split
    · rfl
    · unfold stopFrom
      split
      · rfl
      · rfl

/-- The `finally` of an update. -/
theorem Orderly.finally (h : Orderly transports s) {u : UpdateId} {ok : Bool} (hran : s.updates.get u = .ran ok) :
    Orderly transports (NodeLifecycle.setUpdate
      (if s.admissionUpdate = some u then { s with admissionUpdating := false } else s) u (.settled ok)) := by
  have hbegun : ∀ previous, s.updates.get u ≠ .awaitingPrevious previous := by
    rw [hran]
    rintro previous ⟨⟩
  have hother : ∀ u', u' ≠ u → (s.updates.modify u fun _ => .settled ok).get u' = s.updates.get u' := fun u' hne =>
    Heap.get_modify_of_ne hne
  have hself : (s.updates.modify u fun _ => .settled ok).get u = .settled ok := Heap.get_modify_self
  split
  · rename_i hlast
    refine h.same ⟨rfl, rfl, rfl, rfl, rfl, rfl, rfl, rfl⟩ ?_ ?_ h.known
    · rintro ⟨u', previous, hu', hstage⟩
      rw [hlast] at hu'
      cases hu'
      exact absurd hstage (hbegun previous)
    · intro u' hu' _
      have hu'' : s.admissionUpdate = some u' := hu'
      rw [hlast] at hu''
      cases hu''
      exact ⟨ok, hself⟩
  · exact h.setUpdate hbegun (by rw [hran]; rintro ok ⟨⟩)

theorem Orderly.update (h : Orderly transports s) (hsound : Sound transports s) {u : UpdateId} {departs : Bool}
    (hslot : (s.update transports u departs).startTasks.next ≠ s.startTasks.next → s.stopTask = none) :
    Orderly transports (s.update transports u departs) := by
  revert hslot
  unfold NodeLifecycle.update
  split
  · rename_i previous hstage
    split
    · exact fun _ => h
    · intro _
      obtain ⟨hstops, hstarted⟩ :=
        @orderly_stopNode transports s hsound departs h.stopped h.bounded h.fresh h.updating h.known
      refine orderly_of_stopped hstarted hstops.bounded hstops.fresh (fun u' hu' hidle => ?_) hstops.known
      obtain ⟨ok, hsettled⟩ := hstops.updating u' hu' hidle
      refine ⟨ok, ?_⟩
      have hne : u' ≠ u := by
        rintro rfl
        rw [updates_stopNode, hstage] at hsettled
        cases hsettled
      show ((s.stopNode transports departs).updates.modify u fun _ => _).get u' = _
      rw [Heap.get_modify_of_ne hne]
      exact hsettled
  · rename_i r hstage
    have hbegun : ∀ previous, s.updates.get u ≠ .awaitingPrevious previous := by
      rw [hstage]
      rintro previous ⟨⟩
    have hunsettled : ∀ ok, s.updates.get u ≠ .settled ok := by
      rw [hstage]
      rintro ok ⟨⟩
    split
    · exact fun _ => h
    · exact fun _ => h.setUpdate hbegun hunsettled
    · split
      · rename_i hdesired
        intro hslot
        have hstarts : Orderly transports (s.startNode transports) := by
          refine h.startNode hsound hdesired fun hnone => hslot ?_
          have hnext : (s.startNode transports).startTasks.next = s.startTasks.next + 1 := next_startNode hnone
          show (s.startNode transports).startTasks.next ≠ s.startTasks.next
          rw [hnext]
          exact Nat.succ_ne_self _
        refine hstarts.setUpdate ?_ ?_
        · rw [updates_startNode]
          exact hbegun
        · rw [updates_startNode]
          exact hunsettled
      · exact fun _ => h.setUpdate hbegun hunsettled
  · rename_i r hstage
    have hbegun : ∀ previous, s.updates.get u ≠ .awaitingPrevious previous := by
      rw [hstage]
      rintro previous ⟨⟩
    have hunsettled : ∀ ok, s.updates.get u ≠ .settled ok := by
      rw [hstage]
      rintro ok ⟨⟩
    split
    · exact fun _ => h
    · exact fun _ => h.setUpdate hbegun hunsettled
  · rename_i ok hran
    exact fun _ => h.finally hran
  · exact fun _ => h

/-! ### Runs -/

theorem Orderly.step (h : Orderly transports s) (hsound : Sound transports s) (hoverlaps : ¬ Overlaps transports s a) :
    Orderly transports (s.step transports a) := by
  have hslot : (s.step transports a).startTasks.next ≠ s.startTasks.next → s.stopTask = none := by
    intro hbegins
    rw [← Option.isNone_iff_eq_none, ← Option.isSome_eq_false_iff, ← Bool.not_eq_true]
    exact fun hsome => hoverlaps ⟨hbegins, hsome⟩
  cases a with
  | start =>
    exact ⟨h.stopped, h.bounded, h.fresh, fun hstarted => ⟨rfl, (h.running hstarted).2⟩, h.current, h.updating, h.known⟩
  | stop departs =>
    have hundesired : Sound transports { s with desiredRunning := false } := hsound.same ⟨rfl, rfl, rfl, rfl, rfl, rfl, rfl⟩
    obtain ⟨hstops, hstarted⟩ := @orderly_stopNode transports _ hundesired departs h.stopped h.bounded h.fresh h.updating h.known
    exact hstops.frame ⟨rfl, rfl, rfl, rfl, rfl, rfl, rfl, rfl⟩ rfl rfl rfl
  | setBlockedPeerPubkeys keys => exact h.setBlockedPeerPubkeys hsound
  | startCall c => exact h.startCall hsound hslot
  | stopCall c =>
    show Orderly transports (s.stopCall c)
    have hcall : ∀ stage, Orderly transports (s.setStopCall c stage) := fun _ =>
      h.frame ⟨rfl, rfl, rfl, rfl, rfl, rfl, rfl, rfl⟩ rfl rfl rfl
    unfold NodeLifecycle.stopCall
    split
    · split
      · exact h
      · exact hcall _
    · split
      · exact h
      · exact hcall _
    · exact h
  | update u departs => exact h.update hsound hslot
  | transportStarted r ok => exact h.transportStarted hsound
  | transportUndone r ok => exact h.transportUndone hsound
  | startCleared r => exact h.startCleared
  | departed r => exact h.departed hsound
  | transportStopped r ok => exact h.transportStopped hsound
  | drained r => exact h.drained
  | stopFinished r => exact h.stopFinished
  | stopCleared r => exact h.stopCleared

theorem orderly_run {startupEpoch : BitVec 64} {admission : PeerAdmission} {es : List Action}
    (hquiet : Run.Along (fun s a => ¬ Overlaps transports s a) (step transports) (new startupEpoch admission) es) :
    Orderly transports (Run.run (step transports) (new startupEpoch admission) es) := by
  have h := hquiet.invariant (I := fun s => Sound transports s ∧ Orderly transports s)
    (fun s a h hoverlaps => ⟨h.1.step a, h.2.step h.1 hoverlaps⟩) ⟨sound_new _ _, orderly_new _ _⟩
  exact h.2

/-- A started node serves, in every run in which no start begins while a stop holds its slot: it is desired to run, no stop
is under way, all its transports run, and unless an update of the policy is under way, what they deliver is processed under
the startup epoch of the last start. -/
theorem started_serves (transports : Nat) (startupEpoch : BitVec 64) (admission : PeerAdmission) (es : List Action)
    (hquiet : Run.Along (fun s a => ¬ Overlaps transports s a) (step transports) (new startupEpoch admission) es) :
    let s := Run.run (step transports) (new startupEpoch admission) es
    s.started = true → s.desiredRunning = true ∧ s.stopTask = none ∧ (∀ i < transports, s.runs? i = true) ∧
      (s.admissionUpdating = false → s.Current) := by
  intro s hstarted
  have h : Orderly transports s := orderly_run hquiet
  obtain ⟨hdesired, hruns⟩ := h.running hstarted
  refine ⟨hdesired, ?_, hruns, fun hidle => ?_⟩
  · rw [← Option.isNone_iff_eq_none, ← Option.isSome_eq_false_iff, ← Bool.not_eq_true]
    intro hsome
    rw [h.stopped hsome] at hstarted
    cases hstarted
  · rcases h.current hstarted with hcurrent | ⟨u, previous, hu, hstage⟩
    · exact hcurrent
    · obtain ⟨ok, hsettled⟩ := h.updating u hu hidle
      rw [hstage] at hsettled
      cases hsettled

/-- A node is started, changes its policy, is stopped and started again. -/
def restarted : List Action :=
  [.start, .startCall 0, .transportStarted 0 true, .startCleared 0,
    .setBlockedPeerPubkeys [2 :: List.replicate 32 3], .update 0 false, .transportStopped 0 true, .drained 0,
    .stopFinished 0, .stopCleared 0, .update 0 false, .transportStarted 1 true, .startCleared 1, .update 0 false,
    .update 0 false,
    .stop true, .departed 1, .transportStopped 1 true, .drained 1, .stopFinished 1, .stopCleared 1,
    .start, .startCall 1, .transportStarted 2 true, .startCleared 2]

theorem started_serves_example :
    let s := Run.run (step 1) (new 7 ⟨[]⟩) restarted
    s.started = true ∧ s.runs.map NodeRun.startupEpoch = [7, 8, 9] ∧ s.admissionUpdating = false ∧
      s.desiredRunning = true ∧ s.stopTask = none ∧ (∀ i < 1, s.runs? i = true) ∧ s.Current := by
  intro s
  have hstarted : s.started = true := by decide +kernel
  have hidle : s.admissionUpdating = false := by decide +kernel
  obtain ⟨hdesired, hstop, hruns, hcurrent⟩ := started_serves 1 7 ⟨[]⟩ restarted (by decide +kernel) hstarted
  exact ⟨hstarted, by decide +kernel, hidle, hdesired, hstop, hruns, hcurrent hidle⟩

/-- Where a start overlaps a stop, the stop can take a transport from a node that is started. -/
example :
    let s := Run.run (step 2) (new 7 ⟨[]⟩) [.start, .startCall 0, .transportStarted 0 true, .transportStarted 0 true,
      .startCleared 0, .start, .stop false, .start, .startCall 1, .transportStarted 1 true, .transportStarted 1 true,
      .transportStopped 0 true]
    s.started = true ∧ s.runs? 1 = false := by decide

end NodeLifecycle

end Fips
