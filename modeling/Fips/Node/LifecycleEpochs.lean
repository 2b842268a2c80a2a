import Fips.Node.LifecycleRuns

/-!
# The startup epochs of a node

A start that succeeds makes a run of the node, under the generation and the startup epoch that it has begun
with. No two runs share either.
-/

namespace Fips

namespace NodeLifecycle

variable {transports : Nat} {s s' : NodeLifecycle} {a : Action} {e : BitVec 64}

/-- A start at `.starting` would succeed in the state's startup epoch. -/
def Starting (s : NodeLifecycle) : Prop := ∃ r i, (s.startTasks.get r).stage = .starting i

/-- The startup epoch has been counted `k` times from `e`, and the runs have had the counts of `counts`. -/
structure Counted (e : BitVec 64) (s : NodeLifecycle) (k : Nat) (counts : List Nat) : Prop where
  startupEpoch : s.startupEpoch = e + BitVec.ofNat 64 k
  runs : s.runs.map (·.startupEpoch) = counts.map fun c => e + BitVec.ofNat 64 c
  increasing : counts.Pairwise (· < ·)
  counted : ∀ c ∈ counts, c ≤ k
  first : s.hasStarted = false → counts = []
  next : s.Starting → ∀ c ∈ counts, c < k
  starts : k ≤ s.startTasks.next

structure Distinct (e : BitVec 64) (s : NodeLifecycle) : Prop where
  increasing : (s.runs.map (·.generation)).Pairwise (· < ·)
  bounded : ∀ run ∈ s.runs, run.generation ≤ s.discoveryGeneration
  later : ∀ r i, (s.startTasks.get r).stage = .starting i → ∀ run ∈ s.runs, run.generation < (s.startTasks.get r).generation
  counted : ∃ k counts, Counted e s k counts

theorem distinct_new (admission : PeerAdmission) : Distinct e (new e admission) where
  increasing := .nil
  bounded run hrun := by cases hrun
  later r i hr := by cases hr
  counted := by
    refine ⟨0, [], (BitVec.add_zero e).symm, rfl, .nil, ?_, fun _ => rfl, ?_, Nat.le_refl 0⟩
    · rintro c ⟨⟩
    · rintro - c ⟨⟩

/-- What the invariant is about is the same, though a start may have gone on. -/
structure SameRuns (s s' : NodeLifecycle) : Prop where
  runs : s'.runs = s.runs
  startupEpoch : s'.startupEpoch = s.startupEpoch
  hasStarted : s'.hasStarted = s.hasStarted
  discoveryGeneration : s.discoveryGeneration ≤ s'.discoveryGeneration
  starts : s.startTasks.next ≤ s'.startTasks.next
  starting : ∀ r i, (s'.startTasks.get r).stage = .starting i →
    (∃ j, (s.startTasks.get r).stage = .starting j) ∧ (s'.startTasks.get r).generation = (s.startTasks.get r).generation

theorem Distinct.same (h : Distinct e s) (hsame : SameRuns s s') : Distinct e s' := by
  obtain ⟨hruns, hepoch, hstarted, hgeneration, hstarts, hstarting⟩ := hsame
  obtain ⟨k, counts, hcounted⟩ := h.counted
  refine ⟨?_, ?_, ?_, k, counts, ?_, ?_, hcounted.increasing, hcounted.counted, ?_, ?_, hcounted.starts.trans hstarts⟩
  · rw [hruns]
    exact h.increasing
  · rw [hruns]
    exact fun run hrun => (h.bounded run hrun).trans hgeneration
  · intro r i hr
    obtain ⟨⟨j, hj⟩, heq⟩ := hstarting r i hr
    rw [hruns, heq]
    exact h.later r j hj
  · rw [hepoch]
    exact hcounted.startupEpoch
  · rw [hruns]
    exact hcounted.runs
  · rw [hstarted]
    exact hcounted.first
  · rintro ⟨r, i, hr⟩
    obtain ⟨j, hj⟩ := (hstarting r i hr).1
    exact hcounted.next ⟨r, j, hj⟩

/-- The starts are the same. -/
theorem Distinct.frame (h : Distinct e s) (hruns : s'.runs = s.runs) (hepoch : s'.startupEpoch = s.startupEpoch)
    (hstarted : s'.hasStarted = s.hasStarted) (hgeneration : s.discoveryGeneration ≤ s'.discoveryGeneration)
    (hstarts : s'.startTasks = s.startTasks) : Distinct e s' := by
  refine h.same ⟨hruns, hepoch, hstarted, hgeneration, ?_, fun r i hr => ?_⟩
  · rw [hstarts]
  · rw [hstarts] at hr ⊢
    exact ⟨⟨i, hr⟩, rfl⟩

/-- A start that is not, or no longer, at `.starting`. -/
theorem Distinct.setStartStage (h : Distinct e s) {r : StartTaskId} {stage : StartStage} (hstage : ∀ i, stage ≠ .starting i) :
    Distinct e (s.setStartStage r stage) := by
  refine h.same ⟨rfl, rfl, rfl, Nat.le_refl _, Nat.le_refl _, fun r' i hr => ?_⟩
  have hmodified : ((s.startTasks.modify r fun t => { t with stage := stage }).get r').stage = .starting i := hr
  show _ ∧ ((s.startTasks.modify r fun t => { t with stage := stage }).get r').generation = _
  rw [Heap.get_modify] at hmodified ⊢
  split at hmodified
  · exact absurd hmodified (hstage i)
  · rename_i hne
    rw [if_neg hne]
    exact ⟨⟨i, hmodified⟩, rfl⟩

/-- The start under way, which is current, goes on. -/
theorem Distinct.startFrom (h : Distinct e s) (hsound : Sound transports s) {r : StartTaskId} {i j : TransportIdx}
    (hr : (s.startTasks.get r).stage = .starting j) (hgeneration : (s.startTasks.get r).generation = s.discoveryGeneration) :
    Distinct e (s.startFrom transports r i) := by
  unfold NodeLifecycle.startFrom
  split
  · refine h.same ⟨rfl, rfl, rfl, Nat.le_refl _, Nat.le_refl _, fun r' k hr' => ?_⟩
    have hmodified : ((s.startTasks.modify r fun t => { t with stage := .starting i }).get r').stage = .starting k := hr'
    show _ ∧ ((s.startTasks.modify r fun t => { t with stage := .starting i }).get r').generation = _
    rw [Heap.get_modify] at hmodified ⊢
    by_cases hself : r' = r
    · rw [if_pos hself, hself]
      exact ⟨⟨j, hr⟩, rfl⟩
    · rw [if_neg hself] at hmodified ⊢
      exact ⟨⟨k, hmodified⟩, rfl⟩
  · unfold startSucceeds
    obtain ⟨k, counts, hcounted⟩ := h.counted
    have hnone : ∀ r' i, ((s.startTasks.modify r fun t => { t with stage := .settled true }).get r').stage ≠ .starting i := by
      intro r' i hr'
      rw [Heap.get_modify] at hr'
      split at hr'
      · cases hr'
      · rename_i hne
        refine hne (hsound.one_start ?_ ?_)
        · unfold startResult
          rw [hr]
          rfl
        · unfold startResult
          rw [hr']
          rfl
    refine ⟨?_, ?_, fun r' i hr' => absurd hr' (hnone r' i), k, counts ++ [k], hcounted.startupEpoch, ?_, ?_, ?_, ?_, ?_,
      hcounted.starts⟩
    · show ((s.runs ++ [(⟨(s.startTasks.get r).generation, s.startupEpoch⟩ : NodeRun)]).map (·.generation)).Pairwise (· < ·)
      rw [List.map_append, List.pairwise_append]
      refine ⟨h.increasing, List.pairwise_singleton _ _, ?_⟩
      intro g hg g' hg'
      obtain ⟨run, hrun, rfl⟩ := List.mem_map.1 hg
      rw [List.map_singleton, List.mem_singleton] at hg'
      rw [hg']
      exact h.later r j hr run hrun
    · intro run hrun
      rcases List.mem_append.1 hrun with hold | hnew
      · exact h.bounded run hold
      · rw [List.mem_singleton.1 hnew]
        exact Nat.le_of_eq hgeneration
    · show (s.runs ++ [(⟨(s.startTasks.get r).generation, s.startupEpoch⟩ : NodeRun)]).map (·.startupEpoch) = _
      rw [List.map_append, List.map_append, hcounted.runs, List.map_singleton, List.map_singleton, hcounted.startupEpoch]
    · rw [List.pairwise_append]
      refine ⟨hcounted.increasing, List.pairwise_singleton _ _, fun c hc c' hc' => ?_⟩
      rw [List.mem_singleton.1 hc']
      exact hcounted.next ⟨r, j, hr⟩ c hc
    · intro c hc
      rcases List.mem_append.1 hc with hold | hnew
      · exact hcounted.counted c hold
      · exact Nat.le_of_eq (List.mem_singleton.1 hnew)
    · rintro ⟨⟩
    · rintro ⟨r', i, hr'⟩
      exact absurd hr' (hnone r' i)

/-- A start begins under a new generation, and under a new epoch once the node has run. -/
theorem Distinct.beginStart (h : Distinct e s) (hsound : Sound transports s) (hslot : s.startTask = none) :
    Distinct e s.beginStart := by
  obtain ⟨k, counts, hcounted⟩ := h.counted
  have hother : ∀ r i, (s.startTasks.get r).stage ≠ .starting i := by
    intro r i hr
    have hunsettled : s.startResult r = none := by
      unfold startResult
      rw [hr]
      rfl
    rw [hsound.startSlot r hunsettled] at hslot
    cases hslot
  refine ⟨h.increasing, fun run hrun => (h.bounded run hrun).trans (Nat.le_succ _), fun r i hr run hrun => ?_, ?_⟩
  · have hnew : r = s.startTasks.next := by
      by_contra hne
      have hold : s.beginStart.startTasks.get r = s.startTasks.get r := Heap.get_alloc_of_ne hne
      rw [hold] at hr
      exact hother r i hr
    have hself : s.beginStart.startTasks.get r = ⟨s.discoveryGeneration + 1, .starting 0⟩ := by
      rw [hnew]
      exact Heap.get_alloc_self
    rw [hself]
    exact Nat.lt_succ_of_le (h.bounded run hrun)
  · cases hstarted : s.hasStarted with
    | true =>
      refine ⟨k + 1, counts, ?_, hcounted.runs, hcounted.increasing, fun c hc => (hcounted.counted c hc).trans (Nat.le_succ k),
        ?_, fun _ c hc => Nat.lt_succ_of_le (hcounted.counted c hc), Nat.succ_le_succ hcounted.starts⟩
      · show (if s.hasStarted then s.startupEpoch + 1 else s.startupEpoch) = _
        rw [hstarted, if_pos rfl, hcounted.startupEpoch, BitVec.add_assoc, BitVec.ofNat_add]
        rfl
      · intro hnever
        have hnever' : s.hasStarted = false := hnever
        rw [hstarted] at hnever'
        cases hnever'
    | false =>
      have hnil := hcounted.first hstarted
      refine ⟨k, counts, ?_, hcounted.runs, hcounted.increasing, hcounted.counted, fun _ => hnil, fun _ c hc => ?_,
        hcounted.starts.trans (Nat.le_succ _)⟩
      · show (if s.hasStarted then s.startupEpoch + 1 else s.startupEpoch) = _
        rw [hstarted, if_neg Bool.false_ne_true]
        exact hcounted.startupEpoch
      · rw [hnil] at hc
        cases hc

theorem Distinct.startNode (h : Distinct e s) (hsound : Sound transports s) : Distinct e (s.startNode transports) := by
  rcases @startNode_cases transports s with ⟨-, heq⟩ | ⟨-, -, heq⟩ | ⟨hslot, hstarted, heq⟩
  · rw [heq]
    exact h
  · rw [heq]
    refine h.same ⟨rfl, rfl, rfl, Nat.le_refl _, Nat.le_succ _, fun r i hr => ?_⟩
    by_cases hnew : r = s.startTasks.next
    · have hself : (s.startTasks.alloc ⟨s.discoveryGeneration, .settled true⟩).get r = ⟨s.discoveryGeneration, .settled true⟩ := by
        rw [hnew]
        exact Heap.get_alloc_self
      have hstage : ((s.startTasks.alloc ⟨s.discoveryGeneration, .settled true⟩).get r).stage = .starting i := hr
      rw [hself] at hstage
      cases hstage
    · have hold : (s.startTasks.alloc ⟨s.discoveryGeneration, .settled true⟩).get r = s.startTasks.get r :=
        Heap.get_alloc_of_ne hnew
      have hstage : ((s.startTasks.alloc ⟨s.discoveryGeneration, .settled true⟩).get r).stage = .starting i := hr
      rw [hold] at hstage
      exact ⟨⟨i, hstage⟩, congrArg StartTask.generation hold⟩
  · rw [heq]
    have hbegun : Sound transports s.beginStart := hsound.newStart hslot rfl rfl rfl rfl rfl rfl rfl fun _ => hstarted
    have hself : s.beginStart.startTasks.get s.startTasks.next = ⟨s.discoveryGeneration + 1, .starting 0⟩ :=
      Heap.get_alloc_self
    refine (h.beginStart hsound hslot).startFrom hbegun (j := 0) ?_ ?_
    · rw [hself]
    · rw [hself]
      rfl

theorem Distinct.stopFrom (h : Distinct e s) {r : StopTaskId} {i : TransportIdx} {failed : Bool} :
    Distinct e (s.stopFrom transports r i failed) := by
  unfold NodeLifecycle.stopFrom
  split
  · exact h.frame rfl rfl rfl (Nat.le_refl _) rfl
  · exact h.frame rfl rfl rfl (Nat.le_refl _) rfl

theorem Distinct.stopNode (h : Distinct e s) {departs : Bool} : Distinct e (s.stopNode transports departs) := by
  rcases @stopNode_cases transports s departs with ⟨-, heq⟩ | ⟨-, -, heq⟩ | ⟨-, heq⟩
  · rw [heq]
    exact h
  · rw [heq]
    exact h.frame rfl rfl rfl (Nat.le_refl _) rfl
  · rw [heq]
    have hbegun : Distinct e s.beginStop := h.frame rfl rfl rfl (Nat.le_succ _) rfl
    split
    · exact hbegun
    · exact hbegun.stopFrom

theorem Distinct.undoFrom (h : Distinct e s) {r : StartTaskId} {rest : List TransportIdx} {closed : Bool} :
    Distinct e (s.undoFrom r rest closed) := by
  unfold NodeLifecycle.undoFrom
  split
  · have hcleaned : Distinct e { s with needsTransportCleanup := !closed } := h.frame rfl rfl rfl (Nat.le_refl _) rfl
    exact hcleaned.setStartStage (by rintro i ⟨⟩)
  · rename_i i rest
    have hcalled : Distinct e { s with calls := s.calls ++ [.stop i] } := h.frame rfl rfl rfl (Nat.le_refl _) rfl
    exact hcalled.setStartStage (by rintro i ⟨⟩)

theorem Distinct.startDesired (h : Distinct e s) (hsound : Sound transports s) {c : StartCallId} :
    Distinct e (s.startDesired transports c) := by
  unfold NodeLifecycle.startDesired
  split
  · exact (h.startNode hsound).frame rfl rfl rfl (Nat.le_refl _) rfl
  · exact h.frame rfl rfl rfl (Nat.le_refl _) rfl

theorem Distinct.step (h : Distinct e s) (hsound : Sound transports s) : Distinct e (s.step transports a) := by
  cases a with
  | start => exact h.frame rfl rfl rfl (Nat.le_refl _) rfl
  | stop departs =>
    have hundesired : Distinct e { s with desiredRunning := false } := h.frame rfl rfl rfl (Nat.le_refl _) rfl
    have hstopped : Distinct e (NodeLifecycle.stopNode transports { s with desiredRunning := false } departs) := hundesired.stopNode
    exact hstopped.frame rfl rfl rfl (Nat.le_refl _) rfl
  | setBlockedPeerPubkeys keys =>
    show Distinct e (s.setBlockedPeerPubkeys keys)
    unfold NodeLifecycle.setBlockedPeerPubkeys
    split
    · exact h
    split
    · exact h
    · exact h.frame rfl rfl rfl (Nat.le_succ _) rfl
  | startCall c =>
    show Distinct e (s.startCall transports c)
    have hcall : ∀ stage, Distinct e (s.setStartCall c stage) := fun _ => h.frame rfl rfl rfl (Nat.le_refl _) rfl
    unfold NodeLifecycle.startCall
    split
    · split
      · exact h
      split
      · exact hcall _
      · exact h.startDesired hsound
    · split
      · exact h
      · exact hcall _
      · exact h.startDesired hsound
    · split
      · exact h
      · exact hcall _
    · exact h
  | stopCall c =>
    show Distinct e (s.stopCall c)
    have hcall : ∀ stage, Distinct e (s.setStopCall c stage) := fun _ => h.frame rfl rfl rfl (Nat.le_refl _) rfl
    unfold NodeLifecycle.stopCall
    split
    · split
      · exact h
      · exact hcall _
    · split
      · exact h
      · exact hcall _
    · exact h
  | update u departs =>
    show Distinct e (s.update transports u departs)
    have hupdate : ∀ stage, Distinct e (s.setUpdate u stage) := fun _ => h.frame rfl rfl rfl (Nat.le_refl _) rfl
    unfold NodeLifecycle.update
    split
    · split
      · exact h
      · have hstopped : Distinct e (s.stopNode transports departs) := h.stopNode
        exact hstopped.frame rfl rfl rfl (Nat.le_refl _) rfl
    · split
      · exact h
      · exact hupdate _
      · split
        · exact (h.startNode hsound).frame rfl rfl rfl (Nat.le_refl _) rfl
        · exact hupdate _
    · split
      · exact h
      · exact hupdate _
    · dsimp only
      split
      · exact h.frame rfl rfl rfl (Nat.le_refl _) rfl
      · exact hupdate _
    · exact h
  | transportStarted r ok =>
    show Distinct e (s.transportStarted transports r ok)
    unfold NodeLifecycle.transportStarted
    split
    · rename_i i hr
      split
      · rename_i hgoes
        rw [Bool.and_eq_true, Bool.and_eq_true, decide_eq_true_eq] at hgoes
        exact h.startFrom hsound hr hgoes.1.2
      · have hbumped : Distinct e { s with discoveryGeneration := s.discoveryGeneration + 1 } :=
          h.frame rfl rfl rfl (Nat.le_succ _) rfl
        exact hbumped.undoFrom
    · exact h
  | transportUndone r ok =>
    show Distinct e (s.transportUndone r ok)
    unfold NodeLifecycle.transportUndone
    split
    · exact h.undoFrom
    · exact h
  | startCleared r =>
    show Distinct e (s.startCleared r)
    unfold NodeLifecycle.startCleared
    split
    · exact h.frame rfl rfl rfl (Nat.le_refl _) rfl
    · exact h
  | departed r =>
    show Distinct e (s.departed transports r)
    unfold NodeLifecycle.departed
    split
    · exact h.stopFrom
    · exact h
  | transportStopped r ok =>
    show Distinct e (s.transportStopped transports r ok)
    unfold NodeLifecycle.transportStopped
    split
    · exact h.stopFrom
    · exact h
  | drained r =>
    show Distinct e (s.drained r)
    unfold NodeLifecycle.drained
    split
    · exact h.frame rfl rfl rfl (Nat.le_refl _) rfl
    · exact h
  | stopFinished r =>
    show Distinct e (s.stopFinished r)
    unfold NodeLifecycle.stopFinished
    split
    · split
      · exact h
      · exact h.frame rfl rfl rfl (Nat.le_refl _) rfl
    · exact h
  | stopCleared r =>
    show Distinct e (s.stopCleared r)
    unfold NodeLifecycle.stopCleared
    split
    · exact h.frame rfl rfl rfl (Nat.le_refl _) rfl
    · exact h

theorem distinct_run (startupEpoch : BitVec 64) (admission : PeerAdmission) (es : List Action) :
    Distinct startupEpoch (Run.run (step transports) (new startupEpoch admission) es) := by
  have hkeeps : ∀ (es : List Action) s, Sound transports s → Distinct startupEpoch s →
      Distinct startupEpoch (Run.run (step transports) s es) := by
    intro es
    induction es with
    | nil => exact fun s _ h => h
    | cons a es ih => exact fun s hsound h => ih _ (hsound.step a) (h.step hsound)
  exact hkeeps es _ (sound_new _ _) (distinct_new admission)

/-- The runs of a node, in every run of its lifecycle: their generations increase, and until the node has been started
`2 ^ 64` times no two have the same startup epoch. -/
theorem runs_distinct (transports : Nat) (startupEpoch : BitVec 64) (admission : PeerAdmission) (es : List Action) :
    let s := Run.run (step transports) (new startupEpoch admission) es
    (s.runs.map (·.generation)).Pairwise (· < ·) ∧
      (s.startTasks.next < 2 ^ 64 → (s.runs.map (·.startupEpoch)).Nodup) := by
  intro s
  have h : Distinct startupEpoch s := distinct_run startupEpoch admission es
  refine ⟨h.increasing, fun hstarts => ?_⟩
  obtain ⟨k, counts, hcounted⟩ := h.counted
  rw [hcounted.runs]
  refine List.Nodup.map_on ?_ (hcounted.increasing.imp Nat.ne_of_lt)
  intro c hc c' hc' heq
  have hlt : ∀ c ∈ counts, c < 2 ^ 64 := fun c hc =>
    ((hcounted.counted c hc).trans hcounted.starts).trans_lt hstarts
  have hnat := congrArg BitVec.toNat ((BitVec.add_right_inj startupEpoch).1 heq)
  rwa [BitVec.toNat_ofNat, BitVec.toNat_ofNat, Nat.mod_eq_of_lt (hlt c hc), Nat.mod_eq_of_lt (hlt c' hc')] at hnat

/-- A node that is started again after a stop. -/
theorem runs_distinct_example :
    ((Run.run (step 1) (new 7 ⟨[]⟩) [.start, .startCall 0, .transportStarted 0 true, .startCleared 0, .stop false,
      .transportStopped 0 true, .drained 0, .stopFinished 0, .stopCleared 0, .start, .startCall 1,
      .transportStarted 1 true]).runs.map (·.startupEpoch)).Nodup :=
  (runs_distinct 1 7 ⟨[]⟩ [.start, .startCall 0, .transportStarted 0 true, .startCleared 0, .stop false,
    .transportStopped 0 true, .drained 0, .stopFinished 0, .stopCleared 0, .start, .startCall 1,
    .transportStarted 1 true]).2 (by decide)

end NodeLifecycle

end Fips
