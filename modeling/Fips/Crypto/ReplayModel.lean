import Fips.Crypto.Replay
import Fips.Lib.Run

/-!
# The replay window against its reference model

The reference model is the list of the counters accepted since the last reset. `Tracked` runs a window with
that list beside it, filled from what `accept` returns, and `Tracked.Matches` ties the two together after any
sequence of calls.
-/

namespace Fips
open SlidingWindow

namespace ReplayWindow

/-- Forget all state. -/
def reset (_ : ReplayWindow) : ReplayWindow := Slots.empty

/-- The largest of the counters, `-1` if there is none. -/
def largest (accepted : List Int) : Int := accepted.foldr max (-1)

/-- The reference model takes a counter: in range, not too old, not taken before. -/
def Admits (accepted : List Int) (c : Int) : Prop :=
  0 ≤ c ∧ c < 2 ^ 64 - 1 ∧ largest accepted - 2048 < c ∧ c ∉ accepted

instance (accepted : List Int) (c : Int) : Decidable (Admits accepted c) := by
  unfold Admits
  infer_instance

theorem le_largest {accepted : List Int} {c : Int} (h : c ∈ accepted) : c ≤ largest accepted := by
  induction accepted with
  | nil => cases h
  | cons d ds ih =>
    rcases List.mem_cons.1 h with rfl | h
    · exact le_max_left _ _
    · exact (ih h).trans (le_max_right _ _)

theorem largest_mem (accepted : List Int) : largest accepted = -1 ∨ largest accepted ∈ accepted := by
  induction accepted with
  | nil => exact .inl rfl
  | cons d ds ih =>
    show max d (largest ds) = -1 ∨ max d (largest ds) ∈ d :: ds
    rcases max_choice d (largest ds) with h | h
    · rw [h]
      exact .inr List.mem_cons_self
    · rw [h]
      exact ih.imp_right (List.mem_cons_of_mem d)

/-! ### A window and what it has accepted -/

inductive Call
  | accept (counter : Int)
  | check (counter : Int)
  | reset

/-- A window, and the counters its `accept` has answered `true` to since the last reset. -/
structure Tracked where
  window : ReplayWindow
  accepted : List Int

namespace Tracked

def new : Tracked := ⟨ReplayWindow.new, []⟩

def step (t : Tracked) : Call → Tracked
  | .accept counter =>
    let (taken, window) := t.window.accept counter
    ⟨window, if taken then counter :: t.accepted else t.accepted⟩
  | .check _ => t
  | .reset => ⟨t.window.reset, []⟩

/-- The slots represent the accepted counters, none of which was accepted twice. -/
structure Matches (t : Tracked) : Prop where
  accepted : Accepted t.window {c | c ∈ t.accepted}
  nodup : t.accepted.Nodup

variable {t : Tracked} {c : Int}

theorem new_matches : new.Matches := by
  refine ⟨?_, List.nodup_nil⟩
  have hempty : {c : Int | c ∈ new.accepted} = ∅ := Set.eq_empty_of_forall_notMem fun _ => List.not_mem_nil
  rw [hempty]
  exact accepted_new

/-- The highest counter of the window is the largest of the model. -/
theorem Matches.high (h : t.Matches) : t.window.high = largest t.accepted := by
  refine le_antisymm ?_ ?_
  · rcases h.accepted.high_mem with hnone | hmem
    · rw [hnone]
      rcases largest_mem t.accepted with hl | hl
      · exact hl.ge
      · exact (by decide : (-1 : Int) ≤ 0).trans (h.accepted.nonneg _ hl)
    · exact le_largest hmem
  · rcases largest_mem t.accepted with hl | hl
    · rw [hl]
      exact h.accepted.high_ge
    · exact h.accepted.le_high _ hl

theorem Matches.check_iff (h : t.Matches) : t.window.check c = true ↔ Admits t.accepted c := by
  rw [h.accepted.check_iff, h.high]
  rfl

theorem accept_fst : (t.window.accept c).1 = t.window.check c := by
  unfold ReplayWindow.accept Slots.accept ReplayWindow.check
  split
  · rename_i hc
    exact hc.symm
  · rename_i hc
    exact (Bool.eq_false_iff.2 hc).symm

theorem accept_of_not_check (hc : ¬ t.window.check c = true) : t.window.accept c = (false, t.window) := by
  unfold ReplayWindow.accept Slots.accept
  exact if_neg hc

theorem step_accept : t.step (.accept c) =
    ⟨(t.window.accept c).2, if (t.window.accept c).1 then c :: t.accepted else t.accepted⟩ := rfl

/-- Any one call keeps the window and the model together. -/
theorem Matches.step (h : t.Matches) (call : Call) : (t.step call).Matches := by
  cases call with
  | check counter => exact h
  | reset => exact new_matches
  | accept counter =>
    by_cases hc : t.window.check counter = true
    · obtain ⟨htaken, hrep⟩ := h.accepted.accept hc
      obtain ⟨-, -, -, hfresh⟩ := h.check_iff.1 hc
      rw [step_accept, if_pos htaken]
      refine ⟨?_, List.nodup_cons.2 ⟨hfresh, h.nodup⟩⟩
      have hset : {c : Int | c ∈ counter :: t.accepted} = insert counter {c | c ∈ t.accepted} :=
        Set.ext fun _ => List.mem_cons
      rw [hset]
      exact hrep
    · rw [step_accept, accept_of_not_check hc]
      exact h

theorem Matches.run (h : t.Matches) (calls : List Call) : (Run.run Tracked.step t calls).Matches := by
  induction calls generalizing t with
  | nil => exact h
  | cons call calls ih => exact ih (h.step call)

/-- After any calls, the window answers as the reference model does, a refused counter changes nothing, and
no counter was accepted twice. -/
theorem window_equals_reference (calls : List Call) :
    let t := Run.run Tracked.step new calls
    (∀ c, ((t.window.accept c).1 = true ↔ Admits t.accepted c) ∧ (t.window.check c = true ↔ Admits t.accepted c) ∧
      ((t.window.accept c).1 = false → (t.window.accept c).2 = t.window)) ∧
    t.accepted.Nodup := by
  intro t
  have h : t.Matches := new_matches.run calls
  refine ⟨fun c => ⟨?_, h.check_iff, fun hrefused => ?_⟩, h.nodup⟩
  · rw [accept_fst]
    exact h.check_iff
  · rw [accept_fst] at hrefused
    rw [accept_of_not_check (by rw [hrefused]; decide)]

end Tracked

end ReplayWindow

end Fips
