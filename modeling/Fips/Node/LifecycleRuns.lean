import Fips.Node.Lifecycle

/-!
# Runs of a node's lifecycle

A start that is under way holds its slot, and so does a stop. What a node has started it stops again: a
transport that runs belongs to a node that is started, or to a start or a stop that has still to stop it.
-/

namespace Fips

/-- A start at this stage has started transport `i`, and has not stopped it. -/
def StartStage.Holds (i : TransportIdx) : StartStage → Prop
  | .starting j => i ≤ j
  | .undoing rest _ => i ∈ rest.tail
  | .settled _ => False

/-- A stop at this stage has still to stop transport `i`. -/
def StopStage.WillStop (i : TransportIdx) : StopStage → Prop
  | .departing => True
  | .stopping j _ => j < i
  | _ => False

theorem StartStage.Holds.unsettled {stage : StartStage} {i : TransportIdx} (h : stage.Holds i) : stage.result = none := by
  cases stage with
  | starting j => rfl
  | undoing rest closed => rfl
  | settled ok => exact h.elim

theorem StopStage.WillStop.unsettled {stage : StopStage} {i : TransportIdx} (h : stage.WillStop i) : stage.result = none := by
  cases stage with
  | departing => rfl
  | stopping j failed => rfl
  | draining failed => rfl
  | finishing start failed => rfl
  | settled failed => exact h.elim

namespace NodeLifecycle

variable {transports : Nat} {s s' : NodeLifecycle} {i : TransportIdx}

/-! ### Transports that run -/

/-- Whether the last call of transport `i` was its start. -/
def lastStarts (i : TransportIdx) (calls : List TransportCall) : Bool :=
  calls.foldl (fun running call =>
    match call with
    | .start j => if j = i then true else running
    | .stop j => if j = i then false else running) false

/-- A transport whose stop has failed does not run. -/
def runs? (s : NodeLifecycle) (i : TransportIdx) : Bool := lastStarts i s.calls

theorem lastStarts_start {calls : List TransportCall} {j : TransportIdx} :
    lastStarts i (calls ++ [.start j]) = if j = i then true else lastStarts i calls := by
  unfold lastStarts
  rw [List.foldl_append]
  rfl

theorem lastStarts_stop {calls : List TransportCall} {j : TransportIdx} :
    lastStarts i (calls ++ [.stop j]) = if j = i then false else lastStarts i calls := by
  unfold lastStarts
  rw [List.foldl_append]
  rfl

/-! ### The invariant -/

structure Sound (transports : Nat) (s : NodeLifecycle) : Prop where
  startSlot : ∀ r, s.startResult r = none → s.startTask = some r
  stopSlot : ∀ r, s.stopResult r = none → s.stopTask = some r
  startKnown : ∀ r, s.startTask = some r → r < s.startTasks.next
  stopKnown : ∀ r, s.stopTask = some r → r < s.stopTasks.next
  heartbeat : s.heartbeatTimer = s.started
  starting : ∀ r, s.startResult r = none → s.started = false
  owned : ∀ i, s.runs? i = true → i < transports ∧ (s.started = true ∨ (∃ r, (s.startTasks.get r).stage.Holds i) ∨ ∃ r, (s.stopTasks.get r).WillStop i)

/-- What the invariant is about is the same. -/
structure SameTasks (s s' : NodeLifecycle) : Prop where
  started : s'.started = s.started
  heartbeatTimer : s'.heartbeatTimer = s.heartbeatTimer
  startTask : s'.startTask = s.startTask
  stopTask : s'.stopTask = s.stopTask
  startTasks : s'.startTasks = s.startTasks
  stopTasks : s'.stopTasks = s.stopTasks
  calls : s'.calls = s.calls

theorem Sound.same (h : Sound transports s) (hsame : SameTasks s s') : Sound transports s' := by
  obtain ⟨hstarted, hheartbeat, hstartTask, hstopTask, hstartTasks, hstopTasks, hcalls⟩ := hsame
  have hstart : ∀ r, s'.startResult r = s.startResult r := by
    intro r
    unfold startResult
    rw [hstartTasks]
  have hstop : ∀ r, s'.stopResult r = s.stopResult r := by
    intro r
    unfold stopResult
    rw [hstopTasks]
  refine ⟨?_, ?_, ?_, ?_, ?_, ?_, ?_⟩
  · intro r hr
    rw [hstart] at hr
    rw [hstartTask]
    exact h.startSlot r hr
  · intro r hr
    rw [hstop] at hr
    rw [hstopTask]
    exact h.stopSlot r hr
  · rw [hstartTask, hstartTasks]
    exact h.startKnown
  · rw [hstopTask, hstopTasks]
    exact h.stopKnown
  · rw [hheartbeat, hstarted]
    exact h.heartbeat
  · intro r hr
    rw [hstart] at hr
    rw [hstarted]
    exact h.starting r hr
  · intro i hi
    unfold runs? at hi
    rw [hcalls] at hi
    obtain ⟨hlt, howned⟩ := h.owned i hi
    refine ⟨hlt, ?_⟩
    rw [hstarted, hstartTasks, hstopTasks]
    exact howned

theorem sound_new (startupEpoch : BitVec 64) (admission : PeerAdmission) : Sound transports (new startupEpoch admission) where
  startSlot r hr := by cases hr
  stopSlot r hr := by cases hr
  startKnown r hr := by cases hr
  stopKnown r hr := by cases hr
  heartbeat := rfl
  starting r hr := by cases hr
  owned i hi := by cases hi

/-! ### A task and its stage -/

/-- No two starts are under way. -/
theorem Sound.one_start (h : Sound transports s) {r r' : StartTaskId} (hr : s.startResult r = none)
    (hr' : s.startResult r' = none) : r' = r :=
  Option.some.inj ((h.startSlot r' hr').symm.trans (h.startSlot r hr))

theorem Sound.one_stop (h : Sound transports s) {r r' : StopTaskId} (hr : s.stopResult r = none)
    (hr' : s.stopResult r' = none) : r' = r :=
  Option.some.inj ((h.stopSlot r' hr').symm.trans (h.stopSlot r hr))

/-- The start under way comes to another stage. -/
theorem Sound.startStage (h : Sound transports s) {r : StartTaskId} {stage : StartStage} (hr : s.startResult r = none)
    (hstartTasks : s'.startTasks = s.startTasks.modify r fun t => { t with stage := stage })
    (hstopTasks : s'.stopTasks = s.stopTasks) (hstartTask : s'.startTask = s.startTask) (hstopTask : s'.stopTask = s.stopTask)
    (hheartbeat : s'.heartbeatTimer = s'.started) (hstarted : stage.result = none → s'.started = false)
    (howned : ∀ i, s'.runs? i = true → i < transports ∧
      (s'.started = true ∨ stage.Holds i ∨ ∃ r, (s.stopTasks.get r).WillStop i)) : Sound transports s' := by
  have hself : (s'.startTasks.get r).stage = stage := by
    rw [hstartTasks, Heap.get_modify_self]
  have hother : ∀ r', r' ≠ r → s'.startTasks.get r' = s.startTasks.get r' := by
    intro r' hne
    rw [hstartTasks, Heap.get_modify_of_ne hne]
  have hunsettled : ∀ r', s'.startResult r' = none → r' = r ∧ stage.result = none := by
    intro r' hr'
    by_cases hne : r' = r
    · rw [hne] at hr'
      unfold startResult at hr'
      rw [hself] at hr'
      exact ⟨hne, hr'⟩
    · unfold startResult at hr'
      rw [hother r' hne] at hr'
      exact absurd (h.one_start hr hr') hne
  have hstop : ∀ r', s'.stopResult r' = s.stopResult r' := by
    intro r'
    unfold stopResult
    rw [hstopTasks]
  refine ⟨?_, ?_, ?_, ?_, hheartbeat, ?_, ?_⟩
  · intro r' hr'
    rw [hstartTask, (hunsettled r' hr').1]
    exact h.startSlot r hr
  · intro r' hr'
    rw [hstop] at hr'
    rw [hstopTask]
    exact h.stopSlot r' hr'
  · rw [hstartTask, hstartTasks]
    exact h.startKnown
  · rw [hstopTask, hstopTasks]
    exact h.stopKnown
  · intro r' hr'
    exact hstarted (hunsettled r' hr').2
  · intro i hi
    obtain ⟨hlt, howned⟩ := howned i hi
    refine ⟨hlt, ?_⟩
    rcases howned with hstarted | hholds | hwill
    · exact .inl hstarted
    · refine .inr (.inl ⟨r, ?_⟩)
      rw [hself]
      exact hholds
    · rw [hstopTasks]
      exact .inr (.inr hwill)

/-- The stop under way comes to another stage. -/
theorem Sound.stopStage (h : Sound transports s) {r : StopTaskId} {stage : StopStage} (hr : s.stopResult r = none)
    (hstopTasks : s'.stopTasks = s.stopTasks.modify r fun _ => stage)
    (hstartTasks : s'.startTasks = s.startTasks) (hstartTask : s'.startTask = s.startTask)
    (hstopTask : s'.stopTask = s.stopTask) (hheartbeat : s'.heartbeatTimer = s.heartbeatTimer)
    (hstarted : s'.started = s.started)
    (howned : ∀ i, s'.runs? i = true → s.runs? i = true ∧ ((s.stopTasks.get r).WillStop i → stage.WillStop i)) :
    Sound transports s' := by
  have hself : s'.stopTasks.get r = stage := by
    rw [hstopTasks, Heap.get_modify_self]
  have hother : ∀ r', r' ≠ r → s'.stopTasks.get r' = s.stopTasks.get r' := by
    intro r' hne
    rw [hstopTasks, Heap.get_modify_of_ne hne]
  have hstart : ∀ r', s'.startResult r' = s.startResult r' := by
    intro r'
    unfold startResult
    rw [hstartTasks]
  refine ⟨?_, ?_, ?_, ?_, ?_, ?_, ?_⟩
  · intro r' hr'
    rw [hstart] at hr'
    rw [hstartTask]
    exact h.startSlot r' hr'
  · intro r' hr'
    rw [hstopTask]
    by_cases hne : r' = r
    · rw [hne]
      exact h.stopSlot r hr
    · unfold stopResult at hr'
      rw [hother r' hne] at hr'
      exact absurd (h.one_stop hr hr') hne
  · rw [hstartTask, hstartTasks]
    exact h.startKnown
  · rw [hstopTask, hstopTasks]
    exact h.stopKnown
  · rw [hheartbeat, hstarted]
    exact h.heartbeat
  · intro r' hr'
    rw [hstart] at hr'
    rw [hstarted]
    exact h.starting r' hr'
  · intro i hi
    obtain ⟨hold, hwill⟩ := howned i hi
    obtain ⟨hlt, hcases⟩ := h.owned i hold
    refine ⟨hlt, ?_⟩
    rw [hstarted, hstartTasks]
    rcases hcases with hstarted | hholds | ⟨r', hr'⟩
    · exact .inl hstarted
    · exact .inr (.inl hholds)
    · by_cases hne : r' = r
      · rw [hne] at hr'
        refine .inr (.inr ⟨r, ?_⟩)
        rw [hself]
        exact hwill hr'
      · refine .inr (.inr ⟨r', ?_⟩)
        rw [hother r' hne]
        exact hr'

/-! ### Starts -/

/-- The loop of the start under way goes on. -/
theorem Sound.startFrom (h : Sound transports s) {r : StartTaskId} {j : TransportIdx}
    (hr : (s.startTasks.get r).stage = .starting j) (hij : j ≤ i) : Sound transports (s.startFrom transports r i) := by
  have hunsettled : s.startResult r = none := by
    unfold startResult
    rw [hr]
    rfl
  have hstarted := h.starting r hunsettled
  have howned : ∀ k, s.runs? k = true → k < transports ∧
      (k ≤ i ∨ ∃ r, (s.stopTasks.get r).WillStop k) := by
    intro k hk
    obtain ⟨hlt, hcases⟩ := h.owned k hk
    refine ⟨hlt, ?_⟩
    rcases hcases with hsome | ⟨r', hr'⟩ | hwill
    · rw [hstarted] at hsome
      cases hsome
    · have heq := h.one_start hunsettled hr'.unsettled
      rw [heq, hr] at hr'
      exact .inl (Nat.le_trans hr' hij)
    · exact .inr hwill
  unfold NodeLifecycle.startFrom
  split
  · rename_i hlt
    refine h.startStage hunsettled rfl rfl rfl rfl h.heartbeat (fun _ => hstarted) fun k hk => ?_
    unfold runs? at hk
    have hcalls : lastStarts k (s.calls ++ [.start i]) = true := hk
    rw [lastStarts_start] at hcalls
    by_cases hik : i = k
    · exact ⟨hik ▸ hlt, .inr (.inl (Nat.le_of_eq hik.symm))⟩
    · rw [if_neg hik] at hcalls
      obtain ⟨hlt', hcases⟩ := howned k hcalls
      exact ⟨hlt', .inr hcases⟩
  · unfold startSucceeds
    refine h.startStage hunsettled rfl rfl rfl rfl rfl (by rintro ⟨⟩) fun k hk => ?_
    exact ⟨(howned k hk).1, .inl rfl⟩

/-- The loop of the `catch` goes on. -/
theorem Sound.undoFrom (h : Sound transports s) {r : StartTaskId} {rest : List TransportIdx} {closed : Bool}
    (hunsettled : s.startResult r = none) (hrest : ∀ k, (s.startTasks.get r).stage.Holds k → k ∈ rest) :
    Sound transports (s.undoFrom r rest closed) := by
  have hstarted := h.starting r hunsettled
  have howned : ∀ k, s.runs? k = true → k < transports ∧ (k ∈ rest ∨ ∃ r, (s.stopTasks.get r).WillStop k) := by
    intro k hk
    obtain ⟨hlt, hcases⟩ := h.owned k hk
    refine ⟨hlt, ?_⟩
    rcases hcases with hsome | ⟨r', hr'⟩ | hwill
    · rw [hstarted] at hsome
      cases hsome
    · have heq := h.one_start hunsettled hr'.unsettled
      rw [heq] at hr'
      exact .inl (hrest k hr')
    · exact .inr hwill
  unfold NodeLifecycle.undoFrom
  split
  · refine h.startStage hunsettled rfl rfl rfl rfl h.heartbeat (by rintro ⟨⟩) fun k hk => ?_
    obtain ⟨hlt, hcases⟩ := howned k hk
    rcases hcases with hnil | hwill
    · cases hnil
    · exact ⟨hlt, .inr (.inr hwill)⟩
  · rename_i j rest
    refine h.startStage hunsettled rfl rfl rfl rfl h.heartbeat (fun _ => hstarted) fun k hk => ?_
    have hcalls : lastStarts k (s.calls ++ [.stop j]) = true := hk
    rw [lastStarts_stop] at hcalls
    split at hcalls
    · cases hcalls
    · rename_i hjk
      obtain ⟨hlt, hcases⟩ := howned k hcalls
      rcases hcases with hmem | hwill
      · rcases List.mem_cons.1 hmem with heq | hmem
        · exact absurd heq.symm hjk
        · exact ⟨hlt, .inr (.inl hmem)⟩
      · exact ⟨hlt, .inr (.inr hwill)⟩

theorem Sound.transportStarted (h : Sound transports s) {r : StartTaskId} {ok : Bool} :
    Sound transports (s.transportStarted transports r ok) := by
  unfold NodeLifecycle.transportStarted
  split
  · rename_i i hr
    split
    · exact h.startFrom hr (Nat.le_succ i)
    · have hbumped : Sound transports { s with discoveryGeneration := s.discoveryGeneration + 1 } :=
        h.same ⟨rfl, rfl, rfl, rfl, rfl, rfl, rfl⟩
      refine hbumped.undoFrom ?_ fun k hk => ?_
      · show (s.startTasks.get r).stage.result = none
        rw [hr]
        rfl
      · have hholds : (s.startTasks.get r).stage.Holds k := hk
        rw [hr] at hholds
        rw [List.mem_reverse, List.mem_range]
        exact Nat.lt_succ_of_le hholds
  · exact h

theorem Sound.transportUndone (h : Sound transports s) {r : StartTaskId} {ok : Bool} :
    Sound transports (s.transportUndone r ok) := by
  unfold NodeLifecycle.transportUndone
  split
  · rename_i i rest closed hr
    refine h.undoFrom ?_ fun k hk => ?_
    · unfold startResult
      rw [hr]
      rfl
    · rw [hr] at hk
      exact hk
  · exact h

theorem Sound.startCleared (h : Sound transports s) {r : StartTaskId} : Sound transports (s.startCleared r) := by
  unfold NodeLifecycle.startCleared
  split
  · rename_i hcleared
    refine ⟨fun r' hr' => ?_, h.stopSlot, by rintro r' ⟨⟩, h.stopKnown, h.heartbeat, h.starting, h.owned⟩
    -- whatever is under way holds the slot, and `r` is not
    have hslot : s.startTask = some r' := h.startSlot r' hr'
    rw [hcleared.2] at hslot
    cases hslot
    have hnone : s.startResult r = none := hr'
    rw [hnone] at hcleared
    cases hcleared.1
  · exact h

/-- A start that is new. -/
theorem Sound.newStart (h : Sound transports s) {t : StartTask} (hslot : s.startTask = none)
    (hstartTasks : s'.startTasks = s.startTasks.alloc t) (hstartTask : s'.startTask = some s.startTasks.next)
    (hstopTasks : s'.stopTasks = s.stopTasks) (hstopTask : s'.stopTask = s.stopTask)
    (hheartbeat : s'.heartbeatTimer = s.heartbeatTimer) (hstarted : s'.started = s.started) (hcalls : s'.calls = s.calls)
    (hstarting : t.stage.result = none → s.started = false) : Sound transports s' := by
  have hnone : ∀ r, s.startResult r ≠ none := by
    intro r hr
    rw [h.startSlot r hr] at hslot
    cases hslot
  have hself : s'.startTasks.get s.startTasks.next = t := by
    rw [hstartTasks, Heap.get_alloc_self]
  have hother : ∀ r, r ≠ s.startTasks.next → s'.startTasks.get r = s.startTasks.get r := by
    intro r hne
    rw [hstartTasks, Heap.get_alloc_of_ne hne]
  have hunsettled : ∀ r, s'.startResult r = none → r = s.startTasks.next ∧ t.stage.result = none := by
    intro r hr
    by_cases hne : r = s.startTasks.next
    · rw [hne] at hr
      unfold startResult at hr
      rw [hself] at hr
      exact ⟨hne, hr⟩
    · unfold startResult at hr
      rw [hother r hne] at hr
      exact absurd hr (hnone r)
  refine ⟨?_, ?_, ?_, ?_, ?_, ?_, ?_⟩
  · intro r hr
    rw [hstartTask, (hunsettled r hr).1]
  · intro r hr
    have hr' : s.stopResult r = none := by
      unfold stopResult at hr ⊢
      rw [← hstopTasks]
      exact hr
    rw [hstopTask]
    exact h.stopSlot r hr'
  · intro r hr
    rw [hstartTask] at hr
    cases hr
    rw [hstartTasks]
    exact Nat.lt_succ_self _
  · rw [hstopTask, hstopTasks]
    exact h.stopKnown
  · rw [hheartbeat, hstarted]
    exact h.heartbeat
  · intro r hr
    rw [hstarted]
    exact hstarting (hunsettled r hr).2
  · intro i hi
    unfold runs? at hi
    rw [hcalls] at hi
    obtain ⟨hlt, hcases⟩ := h.owned i hi
    refine ⟨hlt, ?_⟩
    rw [hstarted, hstopTasks]
    rcases hcases with hsome | ⟨r, hr⟩ | hwill
    · exact .inl hsome
    · exact absurd hr.unsettled (hnone r)
    · exact .inr (.inr hwill)

/-- The state in which `startTransports` comes to its loop, with its slot taken. -/
def beginStart (s : NodeLifecycle) : NodeLifecycle :=
  { s with
    startupEpoch := if s.hasStarted then s.startupEpoch + 1 else s.startupEpoch
    needsTransportCleanup := true
    discoveryGeneration := s.discoveryGeneration + 1
    startTasks := s.startTasks.alloc ⟨s.discoveryGeneration + 1, .starting 0⟩
    startTask := some s.startTasks.next }

theorem startNode_cases : s.startTask.isSome = true ∧ s.startNode transports = s ∨
    s.startTask = none ∧ s.started = true ∧ s.startNode transports =
      { s with
        startTasks := s.startTasks.alloc ⟨s.discoveryGeneration, .settled true⟩
        startTask := some s.startTasks.next } ∨
    s.startTask = none ∧ s.started = false ∧
      s.startNode transports = s.beginStart.startFrom transports s.startTasks.next 0 := by
  unfold startNode
  cases hslot : s.startTask with
  | some r => exact .inl ⟨rfl, rfl⟩
  | none =>
    unfold startTransports
    cases hstarted : s.started with
    | true => exact .inr (.inl ⟨rfl, rfl, rfl⟩)
    | false =>
      refine .inr (.inr ⟨rfl, rfl, ?_⟩)
      unfold beginStart startFrom startSucceeds
      by_cases htransports : 0 < transports
      · simp [htransports, hslot, hstarted, setStartStage]
      · simp [htransports, hslot, setStartStage]

theorem Sound.startNode (h : Sound transports s) : Sound transports (s.startNode transports) := by
  rcases @startNode_cases transports s with ⟨-, heq⟩ | ⟨hslot, hstarted, heq⟩ | ⟨hslot, hstarted, heq⟩
  · rw [heq]
    exact h
  · rw [heq]
    exact h.newStart hslot rfl rfl rfl rfl rfl rfl rfl (by rintro ⟨⟩)
  · rw [heq]
    have hbegun : Sound transports s.beginStart := h.newStart hslot rfl rfl rfl rfl rfl rfl rfl fun _ => hstarted
    refine hbegun.startFrom ?_ (Nat.le_refl 0)
    unfold beginStart
    dsimp only
    rw [Heap.get_alloc_self]

/-! ### Stops -/

/-- The loop of the stop under way goes on. -/
theorem Sound.stopFrom (h : Sound transports s) {r : StopTaskId} {failed : Bool} (hr : s.stopResult r = none)
    (hrest : ∀ k, s.runs? k = true → (s.stopTasks.get r).WillStop k → i ≤ k) :
    Sound transports (s.stopFrom transports r i failed) := by
  unfold NodeLifecycle.stopFrom
  split
  · refine h.stopStage hr rfl rfl rfl rfl rfl rfl fun k hk => ?_
    have hcalls : lastStarts k (s.calls ++ [.stop i]) = true := hk
    rw [lastStarts_stop] at hcalls
    split at hcalls
    · cases hcalls
    · rename_i hne
      exact ⟨hcalls, fun hwill => Nat.lt_of_le_of_ne (hrest k hcalls hwill) hne⟩
  · rename_i hall
    refine h.stopStage hr rfl rfl rfl rfl rfl rfl fun k hk => ⟨hk, fun hwill => ?_⟩
    exact absurd (Nat.lt_of_le_of_lt (hrest k hk hwill) (h.owned k hk).1) hall

/-- A stop that is new; one that has not settled has all transports to stop. -/
theorem Sound.newStop (h : Sound transports s) {stage : StopStage} (hslot : s.stopTask = none)
    (hstopTasks : s'.stopTasks = s.stopTasks.alloc stage) (hstopTask : s'.stopTask = some s.stopTasks.next)
    (hstartTasks : s'.startTasks = s.startTasks) (hstartTask : s'.startTask = s.startTask)
    (hheartbeat : s'.heartbeatTimer = s'.started) (hcalls : s'.calls = s.calls)
    (hstarted : s'.started = s.started ∨ s'.started = false ∧ stage = .departing) : Sound transports s' := by
  have hnone : ∀ r, s.stopResult r ≠ none := by
    intro r hr
    rw [h.stopSlot r hr] at hslot
    cases hslot
  have hself : s'.stopTasks.get s.stopTasks.next = stage := by
    rw [hstopTasks, Heap.get_alloc_self]
  have hstart : ∀ r, s'.startResult r = s.startResult r := by
    intro r
    unfold startResult
    rw [hstartTasks]
  refine ⟨?_, ?_, ?_, ?_, hheartbeat, ?_, ?_⟩
  · intro r hr
    rw [hstart] at hr
    rw [hstartTask]
    exact h.startSlot r hr
  · intro r hr
    rw [hstopTask]
    by_cases hne : r = s.stopTasks.next
    · rw [hne]
    · unfold stopResult at hr
      rw [hstopTasks, Heap.get_alloc_of_ne hne] at hr
      exact absurd hr (hnone r)
  · rw [hstartTask, hstartTasks]
    exact h.startKnown
  · intro r hr
    rw [hstopTask] at hr
    cases hr
    rw [hstopTasks]
    exact Nat.lt_succ_self _
  · intro r hr
    rw [hstart] at hr
    rcases hstarted with hsame | ⟨hfalse, -⟩
    · rw [hsame]
      exact h.starting r hr
    · exact hfalse
  · intro i hi
    unfold runs? at hi
    rw [hcalls] at hi
    obtain ⟨hlt, hcases⟩ := h.owned i hi
    refine ⟨hlt, ?_⟩
    rcases hstarted with hsame | ⟨-, rfl⟩
    · rw [hsame, hstartTasks]
      rcases hcases with hsome | hholds | ⟨r, hr⟩
      · exact .inl hsome
      · exact .inr (.inl hholds)
      · exact absurd hr.unsettled (hnone r)
    · refine .inr (.inr ⟨s.stopTasks.next, ?_⟩)
      rw [hself]
      trivial

/-- The state in which `stopTransports` comes to the departures, with its slot taken. -/
def beginStop (s : NodeLifecycle) : NodeLifecycle :=
  { s with
    started := false
    heartbeatTimer := false
    discoveryGeneration := s.discoveryGeneration + 1
    stopTasks := s.stopTasks.alloc .departing
    stopTask := some s.stopTasks.next }

theorem stopNode_cases (departs : Bool) : s.stopTask.isSome = true ∧ s.stopNode transports departs = s ∨
    s.stopTask = none ∧ (s.started = false ∧ s.startTask = none) ∧ s.stopNode transports departs =
      { s with stopTasks := s.stopTasks.alloc (.settled false), stopTask := some s.stopTasks.next } ∨
    s.stopTask = none ∧ s.stopNode transports departs =
      if departs then s.beginStop else s.beginStop.stopFrom transports s.stopTasks.next 0 false := by
  unfold stopNode
  cases hslot : s.stopTask with
  | some r => exact .inl ⟨rfl, rfl⟩
  | none =>
    refine .inr ?_
    unfold stopTransports
    cases hguard : !s.needsTransportCleanup && !s.started && s.startTask.isNone with
    | true =>
      rw [Bool.and_eq_true, Bool.and_eq_true, Bool.not_eq_true', Bool.not_eq_true', Option.isNone_iff_eq_none] at hguard
      exact .inl ⟨rfl, ⟨hguard.1.2, hguard.2⟩, rfl⟩
    | false =>
      refine .inr ⟨rfl, ?_⟩
      unfold beginStop stopFrom
      cases departs with
      | true => rfl
      | false =>
        by_cases htransports : 0 < transports
        · simp [htransports, setStopStage]
        · simp [htransports, setStopStage]

theorem Sound.stopNode (h : Sound transports s) {departs : Bool} : Sound transports (s.stopNode transports departs) := by
  rcases @stopNode_cases transports s departs with ⟨-, heq⟩ | ⟨hslot, -, heq⟩ | ⟨hslot, heq⟩
  · rw [heq]
    exact h
  · rw [heq]
    exact h.newStop hslot rfl rfl rfl rfl h.heartbeat rfl (.inl rfl)
  · rw [heq]
    have hbegun : Sound transports s.beginStop := h.newStop hslot rfl rfl rfl rfl rfl rfl (.inr ⟨rfl, rfl⟩)
    split
    · exact hbegun
    · refine hbegun.stopFrom ?_ fun k _ _ => Nat.zero_le k
      unfold stopResult beginStop
      dsimp only
      rw [Heap.get_alloc_self]
      rfl

theorem Sound.departed (h : Sound transports s) {r : StopTaskId} : Sound transports (s.departed transports r) := by
  unfold NodeLifecycle.departed
  split
  · rename_i hr
    refine h.stopFrom ?_ fun k _ _ => Nat.zero_le k
    unfold stopResult
    rw [hr]
    rfl
  · exact h

theorem Sound.transportStopped (h : Sound transports s) {r : StopTaskId} {ok : Bool} :
    Sound transports (s.transportStopped transports r ok) := by
  unfold NodeLifecycle.transportStopped
  split
  · rename_i i failed hr
    refine h.stopFrom ?_ fun k _ hwill => ?_
    · unfold stopResult
      rw [hr]
      rfl
    · rw [hr] at hwill
      exact hwill
  · exact h

theorem Sound.drained (h : Sound transports s) {r : StopTaskId} : Sound transports (s.drained r) := by
  unfold NodeLifecycle.drained
  split
  · rename_i failed hr
    refine h.stopStage ?_ rfl rfl rfl rfl rfl rfl fun k hk => ⟨hk, fun hwill => ?_⟩
    · unfold stopResult
      rw [hr]
      rfl
    · rw [hr] at hwill
      exact hwill
  · exact h

theorem Sound.stopFinished (h : Sound transports s) {r : StopTaskId} : Sound transports (s.stopFinished r) := by
  unfold NodeLifecycle.stopFinished
  split
  · rename_i start failed hr
    split
    · exact h
    · refine h.stopStage ?_ rfl rfl rfl rfl rfl rfl fun k hk => ⟨hk, fun hwill => ?_⟩
      · unfold stopResult
        rw [hr]
        rfl
      · rw [hr] at hwill
        exact hwill
  · exact h

theorem Sound.stopCleared (h : Sound transports s) {r : StopTaskId} : Sound transports (s.stopCleared r) := by
  unfold NodeLifecycle.stopCleared
  split
  · rename_i hcleared
    refine ⟨h.startSlot, fun r' hr' => ?_, h.startKnown, by rintro r' ⟨⟩, h.heartbeat, h.starting, h.owned⟩
    have hslot : s.stopTask = some r' := h.stopSlot r' hr'
    rw [hcleared.2] at hslot
    cases hslot
    have hnone : s.stopResult r = none := hr'
    rw [hnone] at hcleared
    cases hcleared.1
  · exact h

/-! ### Callers -/

theorem Sound.startDesired (h : Sound transports s) {c : StartCallId} : Sound transports (s.startDesired transports c) := by
  unfold NodeLifecycle.startDesired
  split
  · exact h.startNode.same ⟨rfl, rfl, rfl, rfl, rfl, rfl, rfl⟩
  · exact h.same ⟨rfl, rfl, rfl, rfl, rfl, rfl, rfl⟩

theorem Sound.startCall (h : Sound transports s) {c : StartCallId} : Sound transports (s.startCall transports c) := by
  have hcall : ∀ stage, Sound transports (s.setStartCall c stage) := fun _ => h.same ⟨rfl, rfl, rfl, rfl, rfl, rfl, rfl⟩
  unfold NodeLifecycle.startCall
  split
  · split
    · exact h
    split
    · exact hcall _
    · exact h.startDesired
  · split
    · exact h
    · exact hcall _
    · exact h.startDesired
  · split
    · exact h
    · exact hcall _
  · exact h

theorem Sound.update (h : Sound transports s) {u : UpdateId} {departs : Bool} :
    Sound transports (s.update transports u departs) := by
  have hupdate : ∀ stage, Sound transports (s.setUpdate u stage) := fun _ => h.same ⟨rfl, rfl, rfl, rfl, rfl, rfl, rfl⟩
  unfold NodeLifecycle.update
  split
  · split
    · exact h
    · exact h.stopNode.same ⟨rfl, rfl, rfl, rfl, rfl, rfl, rfl⟩
  · split
    · exact h
    · exact hupdate _
    · split
      · exact h.startNode.same ⟨rfl, rfl, rfl, rfl, rfl, rfl, rfl⟩
      · exact hupdate _
  · split
    · exact h
    · exact hupdate _
  · dsimp only
    split
    · exact h.same ⟨rfl, rfl, rfl, rfl, rfl, rfl, rfl⟩
    · exact hupdate _
  · exact h

theorem Sound.step (h : Sound transports s) (a : Action) : Sound transports (s.step transports a) := by
  cases a with
  | start => exact h.same ⟨rfl, rfl, rfl, rfl, rfl, rfl, rfl⟩
  | stop departs =>
    have hundesired : Sound transports { s with desiredRunning := false } := h.same ⟨rfl, rfl, rfl, rfl, rfl, rfl, rfl⟩
    exact hundesired.stopNode.same ⟨rfl, rfl, rfl, rfl, rfl, rfl, rfl⟩
  | setBlockedPeerPubkeys keys =>
    show Sound transports (s.setBlockedPeerPubkeys keys)
    unfold NodeLifecycle.setBlockedPeerPubkeys
    split
    · exact h
    split
    · exact h
    · exact h.same ⟨rfl, rfl, rfl, rfl, rfl, rfl, rfl⟩
  | startCall c => exact h.startCall
  | stopCall c =>
    show Sound transports (s.stopCall c)
    have hcall : ∀ stage, Sound transports (s.setStopCall c stage) := fun _ => h.same ⟨rfl, rfl, rfl, rfl, rfl, rfl, rfl⟩
    unfold NodeLifecycle.stopCall
    split
    · split
      · exact h
      · exact hcall _
    · split
      · exact h
      · exact hcall _
    · exact h
  | update u departs => exact h.update
  | transportStarted r ok => exact h.transportStarted
  | transportUndone r ok => exact h.transportUndone
  | startCleared r => exact h.startCleared
  | departed r => exact h.departed
  | transportStopped r ok => exact h.transportStopped
  | drained r => exact h.drained
  | stopFinished r => exact h.stopFinished
  | stopCleared r => exact h.stopCleared

theorem sound_run (startupEpoch : BitVec 64) (admission : PeerAdmission) (es : List Action) :
    Sound transports (Run.run (step transports) (new startupEpoch admission) es) := by
  have hkeeps : ∀ (es : List Action) s, Sound transports s → Sound transports (Run.run (step transports) s es) := by
    intro es
    induction es with
    | nil => exact fun s h => h
    | cons a es ih => exact fun s h => ih _ (h.step a)
  exact hkeeps es _ (sound_new _ _)

/-- The transports of a node in every run. One that runs is one of the node's, and the node is started, or a start or a
stop under way has still to stop it; so none runs once they have settled and the node is not started. -/
theorem transports_owned (transports : Nat) (startupEpoch : BitVec 64) (admission : PeerAdmission) (es : List Action) :
    let s := Run.run (step transports) (new startupEpoch admission) es
    (∀ i, s.runs? i = true → i < transports ∧
      (s.started = true ∨ (∃ r, (s.startTasks.get r).stage.Holds i) ∨ ∃ r, (s.stopTasks.get r).WillStop i)) ∧
    (s.started = false → (∀ r, s.startResult r ≠ none) → (∀ r, s.stopResult r ≠ none) →
      s.heartbeatTimer = false ∧ ∀ i, s.runs? i = false) := by
  intro s
  have h : Sound transports s := sound_run startupEpoch admission es
  refine ⟨h.owned, fun hstarted hstarts hstops => ⟨h.heartbeat.trans hstarted, fun i => ?_⟩⟩
  rw [← Bool.not_eq_true]
  intro hi
  rcases (h.owned i hi).2 with hsome | ⟨r, hr⟩ | ⟨r, hr⟩
  · rw [hstarted] at hsome
    cases hsome
  · exact hstarts r hr.unsettled
  · exact hstops r hr.unsettled

/-! ### What is desired -/

/-- A call of `stop` joins a stop that is under way, although the node has been started since. -/
def Joins (s : NodeLifecycle) (a : Action) : Prop :=
  (∃ departs, a = .stop departs) ∧ s.stopTask.isSome = true ∧ s.started = true

/-- A started node is desired to run. -/
def Desired (s : NodeLifecycle) : Prop := s.started = true → s.desiredRunning = true

theorem Desired.of_eq (h : Desired s) (hstarted : s'.started = s.started) (hdesired : s'.desiredRunning = s.desiredRunning) :
    Desired s' := by
  unfold Desired
  rw [hstarted, hdesired]
  exact h

theorem Desired.of_stopped (hstarted : s.started = false) : Desired s := by
  intro hsome
  rw [hstarted] at hsome
  cases hsome

theorem desiredRunning_startFrom (r : StartTaskId) (i : TransportIdx) :
    (s.startFrom transports r i).desiredRunning = s.desiredRunning := by
  unfold startFrom
  split
  · rfl
  · rfl

theorem desiredRunning_startNode : (s.startNode transports).desiredRunning = s.desiredRunning := by
  rcases @startNode_cases transports s with ⟨-, heq⟩ | ⟨-, -, heq⟩ | ⟨-, -, heq⟩
  · rw [heq]
  · rw [heq]
  · rw [heq, desiredRunning_startFrom]
    rfl

/-- A stop leaves the node as it was, or not started. -/
theorem started_stopNode (departs : Bool) : (s.stopNode transports departs).desiredRunning = s.desiredRunning ∧
    (s.stopTask.isSome = true ∧ s.stopNode transports departs = s ∨ (s.stopNode transports departs).started = false) := by
  rcases @stopNode_cases transports s departs with ⟨hslot, heq⟩ | ⟨-, hidle, heq⟩ | ⟨-, heq⟩
  · rw [heq]
    exact ⟨rfl, .inl ⟨hslot, rfl⟩⟩
  · rw [heq]
    exact ⟨rfl, .inr hidle.1⟩
  · rw [heq]
    split
    · exact ⟨rfl, .inr rfl⟩
    · unfold stopFrom
      split
      · exact ⟨rfl, .inr rfl⟩
      · exact ⟨rfl, .inr rfl⟩

theorem Desired.startDesired (h : Desired s) {c : StartCallId} : Desired (s.startDesired transports c) := by
  unfold NodeLifecycle.startDesired
  split
  · rename_i hdesired
    intro _
    exact (@desiredRunning_startNode transports s).trans hdesired
  · exact h

theorem Desired.step (h : Desired s) {a : Action} (hjoins : ¬ s.Joins a) : Desired (s.step transports a) := by
  cases a with
  | start => exact fun _ => rfl
  | stop departs =>
    obtain ⟨-, hslot | hstopped⟩ := @started_stopNode transports { s with desiredRunning := false } departs
    · refine Desired.of_stopped ?_
      show (stopNode transports { s with desiredRunning := false } departs).started = false
      rw [hslot.2]
      rw [← Bool.not_eq_true]
      exact fun hstarted => hjoins ⟨⟨departs, rfl⟩, hslot.1, hstarted⟩
    · exact Desired.of_stopped hstopped
  | setBlockedPeerPubkeys keys =>
    show Desired (s.setBlockedPeerPubkeys keys)
    unfold NodeLifecycle.setBlockedPeerPubkeys
    split
    · exact h
    split
    · exact h
    · exact h
  | startCall c =>
    show Desired (s.startCall transports c)
    unfold NodeLifecycle.startCall
    split
    · split
      · exact h
      split
      · exact h
      · exact h.startDesired
    · split
      · exact h
      · exact h
      · exact h.startDesired
    · split
      · exact h
      · exact h
    · exact h
  | stopCall c =>
    show Desired (s.stopCall c)
    unfold NodeLifecycle.stopCall
    split
    · split
      · exact h
      · exact h
    · split
      · exact h
      · exact h
    · exact h
  | update u departs =>
    show Desired (s.update transports u departs)
    unfold NodeLifecycle.update
    split
    · split
      · exact h
      · obtain ⟨hdesired, hslot | hstopped⟩ := @started_stopNode transports s departs
        · dsimp only
          rw [hslot.2]
          exact h
        · exact Desired.of_stopped hstopped
    · split
      · exact h
      · exact h
      · split
        · rename_i hdesired
          intro _
          exact (@desiredRunning_startNode transports s).trans hdesired
        · exact h
    · split
      · exact h
      · exact h
    · dsimp only
      split
      · exact h
      · exact h
    · exact h
  | transportStarted r ok =>
    show Desired (s.transportStarted transports r ok)
    unfold NodeLifecycle.transportStarted
    split
    · split
      · rename_i hgoes
        rw [Bool.and_eq_true] at hgoes
        intro _
        rw [desiredRunning_startFrom]
        exact hgoes.2
      · unfold undoFrom
        split
        · exact h
        · exact h
    · exact h
  | transportUndone r ok =>
    show Desired (s.transportUndone r ok)
    unfold NodeLifecycle.transportUndone
    split
    · unfold undoFrom
      split
      · exact h
      · exact h
    · exact h
  | startCleared r =>
    show Desired (s.startCleared r)
    unfold NodeLifecycle.startCleared
    split
    · exact h
    · exact h
  | departed r =>
    show Desired (s.departed transports r)
    unfold NodeLifecycle.departed stopFrom
    split
    · split
      · exact h
      · exact h
    · exact h
  | transportStopped r ok =>
    show Desired (s.transportStopped transports r ok)
    unfold NodeLifecycle.transportStopped stopFrom
    split
    · split
      · exact h
      · exact h
    · exact h
  | drained r =>
    show Desired (s.drained r)
    unfold NodeLifecycle.drained
    split
    · exact h
    · exact h
  | stopFinished r =>
    show Desired (s.stopFinished r)
    unfold NodeLifecycle.stopFinished
    split
    · split
      · exact h
      · exact h
    · exact h
  | stopCleared r =>
    show Desired (s.stopCleared r)
    unfold NodeLifecycle.stopCleared
    split
    · exact h
    · exact h

/-- A node that is started is desired to run, in every state of a run, exactly if no `stop` of the run joins a stop under
way after the node has been started again. -/
theorem desired_iff (transports : Nat) (startupEpoch : BitVec 64) (admission : PeerAdmission) (es : List Action) :
    (∀ pre suf, es = pre ++ suf → Desired (Run.run (step transports) (new startupEpoch admission) pre)) ↔
      Run.Along (fun s a => ¬ s.Joins a) (step transports) (new startupEpoch admission) es := by
  refine Run.along_iff (fun s a h hjoins => h.step hjoins) (fun s a _ hjoins h => ?_) (by rintro ⟨⟩)
  rw [not_not] at hjoins
  obtain ⟨⟨departs, rfl⟩, hslot, hstarted⟩ := hjoins
  have hsame : stopNode transports { s with desiredRunning := false } departs = { s with desiredRunning := false } :=
    if_pos hslot
  have hdesired : (s.step transports (.stop departs)).desiredRunning = true := by
    refine h ?_
    show (stopNode transports { s with desiredRunning := false } departs).started = true
    rw [hsame]
    exact hstarted
  have hfalse : (stopNode transports { s with desiredRunning := false } departs).desiredRunning = true := hdesired
  rw [hsame] at hfalse
  cases hfalse

/-- Such a run: the first of two starts goes on while the `stop` between them is under way. -/
example : (Run.run (step 1) (new 0 ⟨[]⟩) [.start, .startCall 0, .transportStarted 0 true, .startCleared 0, .start, .stop false,
    .start, .startCall 1, .transportStarted 1 true, .stop false]).started = true := by decide

end NodeLifecycle

end Fips
