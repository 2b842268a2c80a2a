import Fips.Lib.Run

/-!
# Counters under keys that are installed once

A sealer takes the next counter for each seal and never goes back. Its keys are blank until it installs
them, which it can do only while it is `pending`, and it is never pending again after that; it may drop the
keys for good. `Sealer.Lawful` says so of one step, and the results about `log` of whole runs: the counters
go up, every seal is under one key, and the keys were installed at most once.
-/

namespace KeyedCounter

variable {σ ε κ K : Type}

structure Sealer (σ ε κ K : Type) where
  step : σ → ε → σ
  /-- Keys may still be installed. -/
  pending : σ → Bool
  keys : σ → κ
  blank : κ
  sealKey : κ → Option K
  counter : σ → ℕ
  limit : ℕ
  /-- The key and the counter of the seal a step makes. -/
  used : σ → ε → Option (K × ℕ)

namespace Sealer
variable (E : Sealer σ ε κ K) {s : σ} {e : ε}

structure Lawful : Prop where
  blank : E.sealKey E.blank = none
  counter_le : ∀ s e, E.counter s ≤ E.counter (E.step s e)
  used_key : ∀ s e k n, E.used s e = some (k, n) → E.sealKey (E.keys s) = some k
  used_counter : ∀ s e k n, E.used s e = some (k, n) → n = E.counter s ∧ n < E.limit ∧ n < E.counter (E.step s e)
  keys : ∀ s e, E.keys (E.step s e) = E.keys s ∨ E.keys (E.step s e) = E.blank ∨
    E.pending s = true ∧ E.pending (E.step s e) = false
  pending : ∀ s e, E.pending (E.step s e) = true → E.pending s = true

/-- The seals of a run, in order. -/
def log : σ → List ε → List (K × ℕ)
  | _, [] => []
  | s, e :: es => (E.used s e).toList ++ log (E.step s e) es

/-- What the steps of a run put out, in order. -/
def outputs {φ : Type} (out : σ → ε → Option φ) : σ → List ε → List φ
  | _, [] => []
  | s, e :: es => (out s e).toList ++ outputs out (E.step s e) es

/-- A step puts other keys in place. -/
def Installs (s : σ) (e : ε) : Prop := E.keys (E.step s e) ≠ E.keys s ∧ E.keys (E.step s e) ≠ E.blank

instance [DecidableEq κ] (s : σ) (e : ε) : Decidable (E.Installs s e) := instDecidableAnd

/-- How often a run installs keys. -/
def installs [DecidableEq κ] : σ → List ε → ℕ
  | _, [] => 0
  | s, e :: es => (if E.Installs s e then 1 else 0) + installs (E.step s e) es

/-- No keys are in place while they may still be installed. -/
def Fresh (s : σ) : Prop := E.pending s = true → E.keys s = E.blank

variable {E}

/-- If every output carries the counter of the seal of its step, the outputs of a run carry counters of its log, in
order. -/
theorem outputs_sublist {φ : Type} {out : σ → ε → Option φ} {counterOf : φ → ℕ}
    (hout : ∀ s e a, out s e = some a → (E.used s e).map Prod.snd = some (counterOf a)) (s : σ) (es : List ε) :
    ((E.outputs out s es).map counterOf).Sublist ((E.log s es).map Prod.snd) := by
  induction es generalizing s with
  | nil => exact List.Sublist.slnil
  | cons e es ih =>
    show (((out s e).toList ++ _).map counterOf).Sublist (((E.used s e).toList ++ _).map Prod.snd)
    rw [List.map_append, List.map_append]
    refine List.Sublist.append ?_ (ih _)
    cases ha : out s e with
    | none => exact List.nil_sublist _
    | some a =>
      obtain ⟨u, hu, hua⟩ := Option.map_eq_some_iff.1 (hout s e a ha)
      rw [hu]
      show [counterOf a].Sublist [u.2]
      rw [hua]

theorem mem_log_cons {es : List ε} {u : K × ℕ} : u ∈ E.log s (e :: es) ↔ E.used s e = some u ∨ u ∈ E.log (E.step s e) es := by
  show u ∈ (E.used s e).toList ++ E.log (E.step s e) es ↔ _
  rw [List.mem_append, Option.mem_toList]

variable (h : E.Lawful)
include h

theorem Lawful.fresh_step (hs : E.Fresh s) (e : ε) : E.Fresh (E.step s e) := by
  intro hp
  have hpend := h.pending s e hp
  rcases h.keys s e with hk | hk | ⟨-, hno⟩
  · rw [hk]
    exact hs hpend
  · exact hk
  · rw [hp] at hno
    cases hno

theorem Lawful.counter_le_of_mem (es : List ε) {u : K × ℕ} (hu : u ∈ E.log s es) : E.counter s ≤ u.2 := by
  induction es generalizing s with
  | nil => cases hu
  | cons e es ih =>
    rcases mem_log_cons.1 hu with hused | hrest
    · exact (h.used_counter s e u.1 u.2 hused).1.ge
    · exact (h.counter_le s e).trans (ih hrest)

/-- The counters of a run go up. -/
theorem Lawful.log_increasing (s : σ) (es : List ε) : (E.log s es).Pairwise fun u v => u.2 < v.2 := by
  induction es generalizing s with
  | nil => exact List.Pairwise.nil
  | cons e es ih =>
    show ((E.used s e).toList ++ E.log (E.step s e) es).Pairwise _
    cases hused : E.used s e with
    | none => exact ih _
    | some u =>
      obtain ⟨k, n⟩ := u
      refine List.pairwise_cons.2 ⟨fun v hv => ?_, ih _⟩
      obtain ⟨-, -, hlt⟩ := h.used_counter s e k n hused
      exact lt_of_lt_of_le hlt (h.counter_le_of_mem es hv)

theorem Lawful.lt_limit (es : List ε) {u : K × ℕ} (hu : u ∈ E.log s es) : u.2 < E.limit := by
  induction es generalizing s with
  | nil => cases hu
  | cons e es ih =>
    rcases mem_log_cons.1 hu with hused | hrest
    · exact (h.used_counter s e u.1 u.2 hused).2.1
    · exact ih hrest

/-- Once nothing is pending a step keeps the keys or drops them. -/
theorem Lawful.settled_step (hs : E.pending s = false) (e : ε) :
    (E.keys (E.step s e) = E.keys s ∨ E.keys (E.step s e) = E.blank) ∧ E.pending (E.step s e) = false := by
  refine ⟨?_, ?_⟩
  · rcases h.keys s e with hk | hk | ⟨hp, -⟩
    · exact .inl hk
    · exact .inr hk
    · rw [hs] at hp
      cases hp
  · by_contra hne
    rw [h.pending s e (Bool.not_eq_false _ ▸ hne)] at hs
    cases hs

/-- Once nothing is pending every seal is under the key in place. -/
theorem Lawful.key_of_settled (hs : E.pending s = false) (es : List ε) {u : K × ℕ} (hu : u ∈ E.log s es) :
    E.sealKey (E.keys s) = some u.1 := by
  induction es generalizing s with
  | nil => cases hu
  | cons e es ih =>
    rcases mem_log_cons.1 hu with hused | hrest
    · exact h.used_key s e u.1 u.2 hused
    · obtain ⟨hkeys, hpend⟩ := h.settled_step hs e
      have hkey := ih hpend hrest
      rcases hkeys with hk | hk
      · rw [← hk]
        exact hkey
      · rw [hk, h.blank] at hkey
        cases hkey

/-- All seals of a run are under one key. -/
theorem Lawful.one_key (hs : E.Fresh s) (es : List ε) {u v : K × ℕ} (hu : u ∈ E.log s es) (hv : v ∈ E.log s es) :
    u.1 = v.1 := by
  induction es generalizing s with
  | nil => cases hu
  | cons e es ih =>
    by_cases hp : E.pending s = true
    · -- with blank keys the step makes no seal
      have hnone {w : K × ℕ} (hw : E.used s e = some w) : False := by
        have hkey := h.used_key s e w.1 w.2 hw
        rw [hs hp, h.blank] at hkey
        cases hkey
      rcases mem_log_cons.1 hu with hused | hu
      · exact (hnone hused).elim
      · rcases mem_log_cons.1 hv with hused | hv
        · exact (hnone hused).elim
        · exact ih (h.fresh_step hs e) hu hv
    · have hp : E.pending s = false := Bool.eq_false_iff.2 hp
      exact Option.some.inj ((h.key_of_settled hp _ hu).symm.trans (h.key_of_settled hp _ hv))

variable [DecidableEq κ]

theorem Lawful.installs_of_settled (hs : E.pending s = false) (es : List ε) : E.installs s es = 0 := by
  induction es generalizing s with
  | nil => rfl
  | cons e es ih =>
    obtain ⟨hkeys, hpend⟩ := h.settled_step hs e
    have hno : ¬E.Installs s e := fun ⟨hne, hnb⟩ => hkeys.elim hne hnb
    show (if E.Installs s e then 1 else 0) + E.installs (E.step s e) es = 0
    rw [if_neg hno, ih hpend]

/-- A run installs keys at most once. -/
theorem Lawful.installs_le_one (s : σ) (es : List ε) : E.installs s es ≤ 1 := by
  induction es generalizing s with
  | nil => exact Nat.zero_le 1
  | cons e es ih =>
    show (if E.Installs s e then 1 else 0) + E.installs (E.step s e) es ≤ 1
    by_cases hi : E.Installs s e
    · have hp : E.pending (E.step s e) = false := by
        rcases h.keys s e with hk | hk | ⟨-, hp⟩
        · exact absurd hk hi.1
        · exact absurd hk hi.2
        · exact hp
      rw [if_pos hi, h.installs_of_settled hp]
    · rw [if_neg hi, Nat.zero_add]
      exact ih _

end Sealer

end KeyedCounter
