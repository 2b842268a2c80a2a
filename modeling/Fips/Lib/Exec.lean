import Mathlib

/-!
# Stateful computations that may throw

A method of a mutable object is an `EStateM ε σ α`: it returns or throws, and in both cases leaves the
object in some state (a throw does not undo what was written before it). `after` is that state, `call`
the run as an `Except` for callers that stop at the first throw. `wp x Q E` is the weakest precondition
under which `x` returns into `Q` or throws into `E`; its `simp` set takes a `do` block apart.
-/

namespace Exec

variable {ε σ α β : Type}

@[simp] theorem ok_bind (a : α) (f : α → Except ε β) : (Except.ok a >>= f) = f a := rfl

@[simp] theorem error_bind (e : ε) (f : α → Except ε β) : (Except.error e >>= f) = .error e := rfl

@[simp] theorem throw_eq_error (e : ε) : (throw e : Except ε α) = .error e := rfl

@[simp] theorem pure_eq_ok (a : α) : (pure a : Except ε α) = .ok a := rfl

theorem except_bind_eq_ok {x : Except ε α} {f : α → Except ε β} {b : β} :
    (x >>= f) = .ok b ↔ ∃ a, x = .ok a ∧ f a = .ok b := by
  cases x with
  | error e => exact ⟨nofun, nofun⟩
  | ok a => exact ⟨fun h => ⟨a, rfl, h⟩, fun ⟨_, h, h'⟩ => by cases h; exact h'⟩

theorem mem_toOption {x : Except ε α} {a : α} : a ∈ x.toOption ↔ x = .ok a := by
  cases x <;> simp [Except.toOption]

theorem eq_ok_get {x : Except ε α} (h : x.toOption.isSome = true) : x = .ok (x.toOption.get h) := by
  cases x with
  | error e => cases h
  | ok a => rfl

theorem bind_eq_ok {x : EStateM ε σ α} {f : α → EStateM ε σ β} {s s'' : σ} {b : β} :
    (x >>= f).run s = .ok b s'' ↔ ∃ a s', x.run s = .ok a s' ∧ (f a).run s' = .ok b s'' := by
  rw [EStateM.run_bind]
  constructor
  · intro h
    split at h
    · exact ⟨_, _, ‹_›, h⟩
    · cases h
  · rintro ⟨a, s', h, h'⟩
    rw [h]; exact h'

/-- A pure fallible computation as a method: a throw leaves the state alone. -/
def lift (x : Except ε α) : EStateM ε σ α := fun s =>
  match x with
  | .ok a => .ok a s
  | .error e => .error e s

/-- A method of a component of the object; what it wrote before a throw stays written. -/
def zoom {τ : Type} (get : σ → τ) (put : τ → σ → σ) (x : EStateM ε τ α) : EStateM ε σ α := fun s =>
  match x.run (get s) with
  | .ok a t => .ok a (put t s)
  | .error e t => .error e (put t s)

/-- A method of a component that may be missing, where its absence throws. -/
def zoomSome {τ : Type} (get : σ → Option τ) (missing : ε) (put : τ → σ → σ) (x : EStateM ε τ α) : EStateM ε σ α := fun s =>
  match get s with
  | none => .error missing s
  | some t => zoom (fun _ => t) put x s

/-- `try { x } catch (e) { restore; throw e }`: `restore` sees the state before and the state at the throw. -/
def onThrow (restore : σ → σ → σ) (x : EStateM ε σ α) : EStateM ε σ α := fun s =>
  match x.run s with
  | .ok a s' => .ok a s'
  | .error e s' => .error e (restore s s')

/-- `try { x } catch (e) { y }` for the errors of `p`; the others are thrown on. -/
def catching (p : ε → Bool) (x y : EStateM ε σ α) : EStateM ε σ α := fun s =>
  match x.run s with
  | .ok a s' => .ok a s'
  | .error e s' => if p e then y s' else .error e s'

theorem run_onThrow_ok {restore : σ → σ → σ} {x : EStateM ε σ α} {a : α} {s s' : σ} (h : x.run s = .ok a s') :
    (onThrow restore x).run s = .ok a s' := by
  simp [onThrow, EStateM.run, show x s = .ok a s' from h]

section
variable {τ : Type} {get : σ → τ} {put : τ → σ → σ}

@[simp] theorem run_lift_ok (a : α) (s : σ) : (lift (.ok a) : EStateM ε σ α).run s = .ok a s := rfl

theorem run_lift_eq_ok {x : Except ε α} {a : α} {s s' : σ} :
    (lift x : EStateM ε σ α).run s = .ok a s' ↔ x = .ok a ∧ s' = s := by
  cases x with
  | error e => exact ⟨nofun, nofun⟩
  | ok b =>
    constructor
    · rintro ⟨⟩
      exact ⟨rfl, rfl⟩
    · rintro ⟨⟨⟩, rfl⟩
      rfl

@[simp] theorem run_lift_error (e : ε) (s : σ) : (lift (.error e) : EStateM ε σ α).run s = .error e s := rfl

theorem run_zoom_ok {x : EStateM ε τ α} {a : α} {t : τ} {s : σ} (h : x.run (get s) = .ok a t) :
    (zoom get put x).run s = .ok a (put t s) := by
  simp [zoom, EStateM.run, show x (get s) = .ok a t from h]

theorem run_zoomSome_ok {get : σ → Option τ} {missing : ε} {x : EStateM ε τ α} {a : α} {s : σ} {t t' : τ}
    (hs : get s = some t) (h : x.run t = .ok a t') : (zoomSome get missing put x).run s = .ok a (put t' s) := by
  simp only [zoomSome, EStateM.run, hs]
  exact run_zoom_ok h

end

/-- The state a call leaves, however it ends. -/
def after (x : EStateM ε σ α) (s : σ) : σ :=
  match x.run s with
  | .ok _ s' => s'
  | .error _ s' => s'

/-- A call whose throw ends the caller too. -/
def call (x : EStateM ε σ α) (s : σ) : Except ε (α × σ) :=
  match x.run s with
  | .ok a s' => .ok (a, s')
  | .error e _ => .error e

theorem call_eq_ok {x : EStateM ε σ α} {s s' : σ} {a : α} : call x s = .ok (a, s') ↔ x.run s = .ok a s' := by
  unfold call
  split <;> simp_all

theorem call_of_ok {x : EStateM ε σ α} {s s' : σ} {a : α} (h : x.run s = .ok a s') : call x s = .ok (a, s') :=
  call_eq_ok.2 h

def throws (x : EStateM ε σ α) (s : σ) : Bool :=
  match x.run s with
  | .ok _ _ => false
  | .error _ _ => true

theorem run_of_throws {x : EStateM ε σ α} {s : σ} (h : throws x s = true) : ∃ e, x.run s = .error e (after x s) := by
  unfold throws at h
  unfold after
  cases hx : x.run s with
  | ok a s' => simp [hx] at h
  | error e s' => exact ⟨e, rfl⟩

@[simp] theorem run_pure (a : α) (s : σ) : (pure a : EStateM ε σ α).run s = .ok a s := rfl

@[simp] theorem run_throw (e : ε) (s : σ) : (throw e : EStateM ε σ α).run s = .error e s := rfl

@[simp] theorem run_get (s : σ) : (get : EStateM ε σ σ).run s = .ok s s := rfl

@[simp] theorem run_set (s s' : σ) : (set s' : EStateM ε σ PUnit).run s = .ok ⟨⟩ s' := rfl

@[simp] theorem run_modify (f : σ → σ) (s : σ) : (modify f : EStateM ε σ PUnit).run s = .ok ⟨⟩ (f s) := rfl

/-! ### Weakest preconditions -/

def wp (x : EStateM ε σ α) (Q : α → σ → Prop) (E : ε → σ → Prop) (s : σ) : Prop :=
  match x.run s with
  | .ok a s' => Q a s'
  | .error e s' => E e s'

section
variable {x : EStateM ε σ α} {Q Q' : α → σ → Prop} {E E' : ε → σ → Prop} {s : σ}

theorem wp_after {P : σ → Prop} : P (after x s) ↔ wp x (fun _ => P) (fun _ => P) s := by
  unfold after wp
  split <;> rfl

theorem wp_mono (h : wp x Q E s) (hQ : ∀ a s', Q a s' → Q' a s') (hE : ∀ e s', E e s' → E' e s') :
    wp x Q' E' s := by
  unfold wp at *
  split at h
  · exact hQ _ _ h
  · exact hE _ _ h

theorem wp_of_ok {a : α} {s' : σ} (h : x.run s = .ok a s') : wp x Q E s ↔ Q a s' := by
  rw [wp, h]

theorem wp_of_error {e : ε} {s' : σ} (h : x.run s = .error e s') : wp x Q E s ↔ E e s' := by
  rw [wp, h]

/-- What holds of every outcome. -/
theorem wp_iff : wp x Q E s ↔
    (∀ a s', x.run s = .ok a s' → Q a s') ∧ (∀ e s', x.run s = .error e s' → E e s') := by
  unfold wp
  constructor
  · intro h
    exact ⟨fun a s' hx => by rwa [hx] at h, fun e s' hx => by rwa [hx] at h⟩
  · rintro ⟨hq, he⟩
    split
    · exact hq _ _ ‹_›
    · exact he _ _ ‹_›

@[simp] theorem wp_pure {a : α} : wp (pure a) Q E s ↔ Q a s := Iff.rfl

@[simp] theorem wp_throw {e : ε} : wp (throw e) Q E s ↔ E e s := Iff.rfl

@[simp] theorem wp_get {Q : σ → σ → Prop} : wp get Q E s ↔ Q s s := Iff.rfl

@[simp] theorem wp_set {Q : PUnit → σ → Prop} {s' : σ} : wp (set s') Q E s ↔ Q ⟨⟩ s' := Iff.rfl

@[simp] theorem wp_modify {Q : PUnit → σ → Prop} {f : σ → σ} : wp (modify f) Q E s ↔ Q ⟨⟩ (f s) := Iff.rfl

@[simp] theorem wp_bind {f : α → EStateM ε σ β} {Q : β → σ → Prop} :
    wp (x >>= f) Q E s ↔ wp x (fun a => wp (f a) Q E) E s := by
  unfold wp
  rw [EStateM.run_bind]
  cases x.run s <;> rfl

theorem wp_lift {x : Except ε α} : wp (lift x) Q E s ↔ (∀ a, x = .ok a → Q a s) ∧ (∀ e, x = .error e → E e s) := by
  cases x with
  | ok a => exact ⟨fun h => ⟨fun _ he => by cases he; exact h, nofun⟩, fun h => h.1 a rfl⟩
  | error e => exact ⟨fun h => ⟨nofun, fun _ he => by cases he; exact h⟩, fun h => h.2 e rfl⟩

@[simp] theorem wp_zoom {τ : Type} {get : σ → τ} {put : τ → σ → σ} {x : EStateM ε τ α} :
    wp (zoom get put x) Q E s ↔ wp x (fun a t => Q a (put t s)) (fun e t => E e (put t s)) (get s) := by
  unfold wp zoom
  simp only [EStateM.run]
  cases x (get s) <;> rfl

theorem wp_of_forall (hQ : ∀ a s', Q a s') (hE : ∀ e s', E e s') : wp x Q E s :=
  wp_iff.2 ⟨fun a s' _ => hQ a s', fun e s' _ => hE e s'⟩

/-- What is left of a component is put back, also at a throw. -/
theorem wp_zoomSome {τ : Type} {get : σ → Option τ} {missing : ε} {put : τ → σ → σ} {x : EStateM ε τ α}
    (hnone : get s = none → E missing s)
    (hsome : ∀ t, get s = some t → wp x (fun a t' => Q a (put t' s)) (fun e t' => E e (put t' s)) t) :
    wp (zoomSome get missing put x) Q E s := by
  unfold wp zoomSome
  simp only [EStateM.run]
  cases h : get s with
  | none => exact hnone h
  | some t => exact wp_zoom.2 (hsome t h)

theorem wp_catching {p : ε → Bool} {y : EStateM ε σ α} :
    wp (catching p x y) Q E s ↔ wp x Q (fun e s' => if p e then wp y Q E s' else E e s') s := by
  unfold wp catching
  simp only [EStateM.run]
  cases x s with
  | ok a s' => rfl
  | error e s' => cases hp : p e <;> simp [hp]

theorem wp_ite {c : Prop} [Decidable c] {y : EStateM ε σ α} :
    wp (if c then x else y) Q E s ↔ (c → wp x Q E s) ∧ (¬ c → wp y Q E s) := by
  split <;> simp_all

end

/-! ### What a method keeps -/

/-- `x` keeps `I`, whether it returns or throws. -/
def Keeps (I : σ → Prop) (x : EStateM ε σ α) : Prop := ∀ s, I s → wp x (fun _ => I) (fun _ => I) s

section
variable {I : σ → Prop} {x : EStateM ε σ α} {s : σ}

theorem Keeps.after (h : Keeps I x) (hs : I s) : I (after x s) := wp_after.2 (h s hs)

theorem keeps_pure (a : α) : Keeps I (pure a : EStateM ε σ α) := fun _ h => h

theorem keeps_throw (e : ε) : Keeps I (throw e : EStateM ε σ α) := fun _ h => h

theorem keeps_get : Keeps I (get : EStateM ε σ σ) := fun _ h => h

theorem keeps_modify {f : σ → σ} (h : ∀ s, I s → I (f s)) : Keeps I (modify f : EStateM ε σ PUnit) := h

theorem keeps_lift (y : Except ε α) : Keeps I (lift y : EStateM ε σ α) := fun _ h => wp_lift.2 ⟨fun _ _ => h, fun _ _ => h⟩

theorem Keeps.bind {f : α → EStateM ε σ β} (h : Keeps I x) (hf : ∀ a, Keeps I (f a)) : Keeps I (x >>= f) :=
  fun s hs => wp_bind.2 (wp_mono (h s hs) (fun a s' hs' => hf a s' hs') fun _ _ hs' => hs')

/-- A method that begins by reading the state. -/
theorem keeps_get_bind {f : σ → EStateM ε σ β} (h : ∀ s, I s → wp (f s) (fun _ => I) (fun _ => I) s) :
    Keeps I (get >>= f) := fun s hs => wp_bind.2 (h s hs)

theorem Keeps.ite {c : Prop} [Decidable c] {y : EStateM ε σ α} (h : c → Keeps I x) (h' : ¬c → Keeps I y) :
    Keeps I (if c then x else y) := by
  split
  · exact h ‹_›
  · exact h' ‹_›

theorem Keeps.discard (h : Keeps I x) : Keeps I (discard x) := h.bind fun _ => keeps_pure _

end

end Exec
