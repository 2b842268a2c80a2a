import Mathlib

/-!
# Runs of a step function

An event carries every choice the environment makes, so a step is a function and a run the fold of the
events. `Along C` says that each step of a run meets `C`; what `C`-steps preserve holds of every state
such a run reaches.
-/

namespace Run

variable {σ ε : Type}

/-- The state after the events. -/
def run (step : σ → ε → σ) (s : σ) (es : List ε) : σ := es.foldl step s

/-- Every event of the run meets `C` in the state it is taken in. -/
def Along (C : σ → ε → Prop) (step : σ → ε → σ) : σ → List ε → Prop
  | _, [] => True
  | s, e :: es => C s e ∧ Along C step (step s e) es

instance Along.decidable {C : σ → ε → Prop} {step : σ → ε → σ} [∀ s e, Decidable (C s e)] :
    ∀ (s : σ) (es : List ε), Decidable (Along C step s es)
  | _, [] => .isTrue trivial
  | s, e :: es => @instDecidableAnd _ _ _ (Along.decidable (step s e) es)

section
variable {C : σ → ε → Prop} {step : σ → ε → σ} {I : σ → Prop} {s : σ} {es : List ε} {e : ε}

@[simp] theorem run_nil : run step s [] = s := rfl

@[simp] theorem run_cons : run step s (e :: es) = run step (step s e) es := rfl

theorem run_append (es' : List ε) : run step s (es ++ es') = run step (run step s es) es' :=
  List.foldl_append

theorem along_append {es' : List ε} :
    Along C step s (es ++ es') ↔ Along C step s es ∧ Along C step (run step s es) es' := by
  induction es generalizing s with
  | nil => simp [Along]
  | cons e es ih => simp only [List.cons_append, Along, run_cons, ih, and_assoc]

/-- The invariant rule. -/
theorem Along.invariant (hstep : ∀ s e, I s → C s e → I (step s e)) (h : Along C step s es) (h0 : I s) :
    I (run step s es) := by
  induction es generalizing s with
  | nil => exact h0
  | cons e es ih => exact ih h.2 (hstep s e h0 h.1)

/-- The exact rule: where `C` is just what a step needs to keep `I`, the runs that stay in `I` are those along `C`. -/
theorem along_iff (hkeeps : ∀ s e, I s → C s e → I (step s e)) (hbreaks : ∀ s e, I s → ¬ C s e → ¬ I (step s e))
    (h0 : I s) : (∀ pre suf, es = pre ++ suf → I (run step s pre)) ↔ Along C step s es := by
  constructor
  · intro hall
    induction es generalizing s with
    | nil => trivial
    | cons e es ih =>
      have hstep : I (step s e) := hall [e] es rfl
      refine ⟨?_, ih hstep fun pre suf heq => hall (e :: pre) suf (congrArg (e :: ·) heq)⟩
      by_contra hC
      exact hbreaks s e h0 hC hstep
  · rintro halong pre suf rfl
    exact (along_append.1 halong).1.invariant hkeeps h0

end

end Run
