import Fips.Lib.Exec
import Fips.Lib.Run

/-!
# Two runs side by side

`Twin R x y s s'`: from `s` and `s'` the computations `x` and `y` return or throw the same, into states that `R` relates.
`Respects R x` says it of one computation from any related states; the rules take a `do` block apart. On runs, a step that
respects `R` and events that only move the first run within `R` can be dropped from it: what `R` shows of a state is the same
with them and without.
-/

namespace Exec

variable {ε σ α β : Type}

/-- From `s` and `s'` both end alike, in related states. -/
def Twin (R : σ → σ → Prop) (x y : EStateM ε σ α) (s s' : σ) : Prop :=
  wp x (fun a t => wp y (fun a' t' => a' = a ∧ R t t') (fun _ _ => False) s')
    (fun e t => wp y (fun _ _ => False) (fun e' t' => e' = e ∧ R t t') s') s

/-- From related states the computation ends alike, in related states. -/
def Respects (R : σ → σ → Prop) (x : EStateM ε σ α) : Prop := ∀ s s', R s s' → Twin R x x s s'

section
variable {R : σ → σ → Prop} {x y : EStateM ε σ α} {s s' : σ}

theorem Twin.cases (h : Twin R x y s s') :
    (∃ a t t', x.run s = .ok a t ∧ y.run s' = .ok a t' ∧ R t t') ∨
      ∃ e t t', x.run s = .error e t ∧ y.run s' = .error e t' ∧ R t t' := by
  unfold Twin at h
  cases hx : x.run s with
  | ok a t =>
    rw [wp_of_ok hx] at h
    cases hy : y.run s' with
    | ok a' t' =>
      obtain ⟨rfl, hr⟩ := (wp_of_ok hy).1 h
      exact .inl ⟨_, t, t', rfl, rfl, hr⟩
    | error e' t' => exact ((wp_of_error hy).1 h).elim
  | error e t =>
    rw [wp_of_error hx] at h
    cases hy : y.run s' with
    | ok a' t' => exact ((wp_of_ok hy).1 h).elim
    | error e' t' =>
      obtain ⟨rfl, hr⟩ := (wp_of_error hy).1 h
      exact .inr ⟨_, t, t', rfl, rfl, hr⟩

theorem twin_of_ok {a : α} {t t' : σ} (hx : x.run s = .ok a t) (hy : y.run s' = .ok a t') (hr : R t t') :
    Twin R x y s s' := (wp_of_ok hx).2 ((wp_of_ok hy).2 ⟨rfl, hr⟩)

theorem twin_of_error {e : ε} {t t' : σ} (hx : x.run s = .error e t) (hy : y.run s' = .error e t') (hr : R t t') :
    Twin R x y s s' := (wp_of_error hx).2 ((wp_of_error hy).2 ⟨rfl, hr⟩)

theorem Twin.bind {f g : α → EStateM ε σ β} (h : Twin R x y s s')
    (hf : ∀ a t t', R t t' → Twin R (f a) (g a) t t') : Twin R (x >>= f) (y >>= g) s s' := by
  rcases h.cases with ⟨a, t, t', hx, hy, hr⟩ | ⟨e, t, t', hx, hy, hr⟩
  · have hbind : (x >>= f).run s = (f a).run t := by rw [EStateM.run_bind, hx]
    have hbind' : (y >>= g).run s' = (g a).run t' := by rw [EStateM.run_bind, hy]
    rcases (hf a t t' hr).cases with ⟨b, u, u', hfa, hga, hu⟩ | ⟨e, u, u', hfa, hga, hu⟩
    · exact twin_of_ok (hbind.trans hfa) (hbind'.trans hga) hu
    · exact twin_of_error (hbind.trans hfa) (hbind'.trans hga) hu
  · exact twin_of_error (by rw [EStateM.run_bind, hx]) (by rw [EStateM.run_bind, hy]) hr

theorem Twin.after (h : Twin R x y s s') : R (after x s) (after y s') := by
  unfold Exec.after
  rcases h.cases with ⟨a, t, t', hx, hy, hr⟩ | ⟨e, t, t', hx, hy, hr⟩
  · rw [hx, hy]
    exact hr
  · rw [hx, hy]
    exact hr

theorem twin_set {t t' : σ} (h : R t t') : Twin R (set t : EStateM ε σ PUnit) (set t') s s' := twin_of_ok rfl rfl h

/-- A pure computation leaves both states where they are. -/
theorem twin_lift_bind {z : Except ε α} {f g : α → EStateM ε σ β} (hr : R s s')
    (h : ∀ a, z = .ok a → Twin R (f a) (g a) s s') : Twin R (lift z >>= f) (lift z >>= g) s s' := by
  cases z with
  | ok a => exact h a rfl
  | error e => exact twin_of_error rfl rfl hr

theorem Twin.ite {c : Prop} [Decidable c] {x' y' : EStateM ε σ α} (h : c → Twin R x y s s') (h' : ¬c → Twin R x' y' s s') :
    Twin R (if c then x else x') (if c then y else y') s s' := by
  split
  · exact h ‹_›
  · exact h' ‹_›

theorem respects_pure (a : α) : Respects R (pure a : EStateM ε σ α) := fun _ _ h => twin_of_ok rfl rfl h

theorem respects_throw (e : ε) : Respects R (throw e : EStateM ε σ α) := fun _ _ h => twin_of_error rfl rfl h

theorem respects_lift (z : Except ε α) : Respects R (lift z : EStateM ε σ α) := by
  intro s s' h
  cases z with
  | ok a => exact twin_of_ok rfl rfl h
  | error e => exact twin_of_error rfl rfl h

theorem respects_modify {f : σ → σ} (h : ∀ s s', R s s' → R (f s) (f s')) :
    Respects R (modify f : EStateM ε σ PUnit) := fun s s' hr => twin_of_ok rfl rfl (h s s' hr)

theorem Respects.bind {f : α → EStateM ε σ β} (h : Respects R x) (hf : ∀ a, Respects R (f a)) : Respects R (x >>= f) :=
  fun s s' hr => (h s s' hr).bind fun a t t' => hf a t t'

/-- A method that begins by reading the state. -/
theorem respects_get_bind {f : σ → EStateM ε σ β} (h : ∀ s s', R s s' → Twin R (f s) (f s') s s') :
    Respects R (get >>= f) := h

theorem Respects.ite {c : Prop} [Decidable c] (h : c → Respects R x) (h' : ¬c → Respects R y) :
    Respects R (if c then x else y) := by
  split
  · exact h ‹_›
  · exact h' ‹_›

theorem Respects.discard (h : Respects R x) : Respects R (discard x) := h.bind fun _ => respects_pure _

theorem Respects.after (h : Respects R x) (hr : R s s') : R (Exec.after x s) (Exec.after x s') := (h s s' hr).after

/-- A loop on both sides. -/
theorem related_foldl {γ : Type} {f : σ → γ → σ} (hf : ∀ s s' c, R s s' → R (f s c) (f s' c)) (cs : List γ)
    (hr : R s s') : R (cs.foldl f s) (cs.foldl f s') := by
  induction cs generalizing s s' with
  | nil => exact hr
  | cons c cs ih => exact ih (hf s s' c hr)

end

end Exec

namespace Run

variable {σ ε : Type} {R : σ → σ → Prop} {C : σ → ε → Prop} {step : σ → ε → σ} {silent : ε → Bool} {s s' : σ}
  {es : List ε}

/-- The silent events, each met in a state where it leads to a related one, can be left out of a run. -/
theorem Along.without (hstep : ∀ s s' e, R s s' → R (step s e) (step s' e))
    (hsilent : ∀ s s' e, silent e = true → C s e → R s s' → R (step s e) s') (h : Along C step s es) (hr : R s s') :
    R (run step s es) (run step s' (es.filter fun e => !silent e)) := by
  induction es generalizing s s' with
  | nil => exact hr
  | cons e es ih =>
    obtain ⟨hc, hrest⟩ := h
    rw [run_cons, List.filter_cons]
    by_cases he : silent e = true
    · rw [if_neg (by simp [he])]
      exact ih hrest (hsilent s s' e he hc hr)
    · rw [if_pos (by simp [he]), run_cons]
      exact ih hrest (hstep s s' e hr)

end Run
