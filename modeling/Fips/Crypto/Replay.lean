import Fips.Lib.SlidingWindow

/-!
# `crypto/replay.ts`: `ReplayWindow`

The sliding window over 2048 counters; the counter `2 ^ 64 - 1` is reserved.
-/

namespace Fips
open SlidingWindow

abbrev ReplayWindow := Slots

namespace ReplayWindow

def WINDOW : Int := 2048

def new : ReplayWindow := Slots.empty

/-- Would `accept(counter)` succeed right now? -/
def check (w : ReplayWindow) (counter : Int) : Bool := Slots.check WINDOW 0xffffffffffffffff w counter

def accept (w : ReplayWindow) (counter : Int) : Bool × ReplayWindow :=
  Slots.accept WINDOW 0xffffffffffffffff w counter

/-- The window after exactly the counters of `A` have been accepted. -/
def Accepted (w : ReplayWindow) (A : Set Int) : Prop := Slots.Represents WINDOW w A

variable {w : ReplayWindow} {A : Set Int} {c : Int}

theorem accepted_new : Accepted new ∅ := Slots.Represents.empty

theorem Accepted.check_iff (h : Accepted w A) :
    w.check c = true ↔ 0 ≤ c ∧ c < 0xffffffffffffffff ∧ w.high - 2048 < c ∧ c ∉ A :=
  Slots.Represents.check_iff h

theorem accept_of_check (hc : w.check c = true) : w.accept c = (true, w.put WINDOW c) := by
  simp only [accept, Slots.accept, show Slots.check WINDOW 0xffffffffffffffff w c = true from hc, if_true]

theorem Accepted.accept (h : Accepted w A) (hc : w.check c = true) :
    (w.accept c).1 = true ∧ Accepted (w.accept c).2 (insert c A) := by
  rw [accept_of_check hc]
  exact ⟨rfl, Slots.Represents.put (by decide) h hc⟩

end ReplayWindow

end Fips
