import Fips.Node.Spanning

/-!
# The versions of a node's announcement

Parent and coordinates change together with the sequence, so the sequence identifies an announcement of a
run. A neighbour takes strictly greater sequences and ends with the last announcement it was sent.
-/

namespace Fips
open Exec

namespace TreeState
variable {S : Suite} {G : Schnorr} {t t' : TreeState} {identity : FipsIdentity} {nowSeconds : Nat}
  {es : List TreeEvent} {a : TreeAnnounce}

/-! ### Versions of the state -/

/-- The same version, or a later one. -/
def Follows (t t' : TreeState) : Prop := SameAnnounce t t' ∨ t.sequence < t'.sequence

theorem Follows.trans {t'' : TreeState} (h : Follows t t') (h' : Follows t' t'') : Follows t t'' := by
  rcases h with h | h
  · rcases h' with h' | h'
    · exact .inl (h.trans h')
    · exact .inr (h.sequence ▸ h')
  · rcases h' with h' | h'
    · exact .inr (h'.sequence.symm ▸ h)
    · exact .inr (h.trans h')

theorem step_follows (t : TreeState) (e : TreeEvent) : Follows t (step t e) := by
  rcases step_announce t e with h | ⟨h, -⟩
  · exact .inl h
  · exact .inr (h.sequence ▸ Nat.lt_succ_self _)

theorem run_follows (t : TreeState) (es : List TreeEvent) : Follows t (Run.run step t es) := by
  induction es generalizing t with
  | nil => exact .inl ⟨rfl, rfl, rfl, rfl, rfl⟩
  | cons e es ih => exact (step_follows t e).trans (ih _)

/-- One sequence number a step at most. -/
theorem run_sequence_le (t : TreeState) (es : List TreeEvent) :
    (Run.run step t es).sequence ≤ t.sequence + es.length := by
  induction es generalizing t with
  | nil => exact le_rfl
  | cons e es ih =>
    have hstep : (step t e).sequence ≤ t.sequence + 1 := by
      rcases step_announce t e with h | ⟨h, -⟩
      · rw [h.sequence]
        omega
      · rw [h.sequence]
    have hrest := ih (step t e)
    rw [Run.run_cons, List.length_cons]
    omega

theorem run_timestamp_lt {bound : Nat} (ht : t.timestamp < bound) (hes : ∀ e ∈ es, e.clock < bound) :
    (Run.run step t es).timestamp < bound := by
  induction es generalizing t with
  | nil => exact ht
  | cons e es ih =>
    refine ih ?_ fun e' he' => hes e' (List.mem_cons_of_mem _ he')
    rcases step_announce t e with h | ⟨-, h⟩
    · rw [h.timestamp]
      exact ht
    · rw [h]
      exact hes e List.mem_cons_self

/-! ### Announcements -/

theorem treeDeclarationBytes_ok {nodeAddr parent : NodeAddr} {sequence timestamp : Nat} (hs : sequence < 2 ^ 64)
    (ht : timestamp < 2 ^ 64) : ∃ declaration, treeDeclarationBytes nodeAddr parent sequence timestamp = .ok declaration := by
  unfold treeDeclarationBytes BinaryWriter.u64le
  rw [BinaryWriter.uint_of_lt hs, BinaryWriter.uint_of_lt ht]
  exact ⟨_, rfl⟩

theorem announce_eq_ok (h : t.announce S G = .ok a) :
    ∃ declaration, treeDeclarationBytes t.identity.nodeAddr t.parent t.sequence t.timestamp = .ok declaration ∧
      a = ⟨t.sequence, t.timestamp, t.parent, t.ancestry, signSchnorr G t.identity (S.sha256 declaration)⟩ := by
  obtain ⟨declaration, hd, h⟩ := Exec.except_bind_eq_ok.1 h
  exact ⟨declaration, hd, (Except.ok.inj h).symm⟩

theorem announce_stored (h : t.announce S G = .ok a) : a.stored = ⟨t.sequence, t.parent, t.ancestry⟩ := by
  obtain ⟨declaration, -, rfl⟩ := announce_eq_ok h
  rfl

theorem announce_of_lt (hs : t.sequence < 2 ^ 64) (ht : t.timestamp < 2 ^ 64) : ∃ a, t.announce S G = .ok a := by
  obtain ⟨declaration, hd⟩ := (@treeDeclarationBytes_ok t.identity.nodeAddr t.parent) hs ht
  refine ⟨⟨t.sequence, t.timestamp, t.parent, t.ancestry, signSchnorr G t.identity (S.sha256 declaration)⟩, ?_⟩
  unfold announce buildTreeAnnounce
  rw [hd]
  rfl

/-- The signature is over what is announced, so equal versions announce the same. -/
theorem SameAnnounce.announce_eq (h : SameAnnounce t t') : t'.announce S G = t.announce S G := by
  unfold announce
  rw [h.identity, h.sequence, h.timestamp, h.parent, h.ancestry]

theorem Inv.semantics (hinv : t.Inv) (hlen : t.identity.nodeAddr.length = 16) (h : t.announce S G = .ok a) :
    a.Semantics := by
  obtain ⟨declaration, -, rfl⟩ := announce_eq_ok h
  have hroot : rootOf t.ancestry = t.root := rfl
  refine ⟨?_, ?_, ?_, ?_⟩
  · intro hnil
    have hhead := hinv.head
    rw [show t.ancestry = [] from hnil] at hhead
    cases hhead
  · intro hparent
    change t.coords.head? = some t.parent at hparent
    change t.ancestry.length = 1
    have hlength : t.ancestry.length = t.coords.length := (List.length_map _).symm
    cases hp : t.preferred with
    | none => rw [hlength, hinv.coords_of_none hp, List.length_singleton]
    | some best =>
      -- the parent is the first address of an ancestry without self
      obtain ⟨hmem, -⟩ := preferred_some hp
      have hhead := (hinv.sound best (mem_candidates.1 hmem).1).head
      have hpe := hinv.parent_eq
      rw [hinv.coords_of_some hp] at hparent hpe
      rw [List.getElem?_cons_succ, ← List.head?_eq_getElem?, hhead] at hpe
      have hself : t.identity.nodeAddr = best.1 := (Option.some_inj.1 hparent).trans hpe
      refine absurd ?_ (mem_candidates.1 hmem).2
      rw [hself]
      exact List.mem_of_mem_head? hhead
  · intro hparent
    change t.coords.head? ≠ some t.parent at hparent
    change t.coords[1]?.getD [] = t.parent
    have hpe := hinv.parent_eq
    cases hp : t.preferred with
    | none =>
      rw [hinv.coords_of_none hp] at hparent hpe
      exact absurd (congrArg some hpe.symm) hparent
    | some best =>
      obtain ⟨hmem, -⟩ := preferred_some hp
      have hhead := (hinv.sound best (mem_candidates.1 hmem).1).head
      rw [hpe, hinv.coords_of_some hp, List.getElem?_cons_succ, ← List.head?_eq_getElem?, hhead]
      rfl
  · intro addr haddr
    change addr ∈ t.coords at haddr
    refine ⟨?_, hinv.root_le.2 addr haddr⟩
    cases hp : t.preferred with
    | none =>
      rw [hinv.coords_of_none hp] at haddr
      rw [List.mem_singleton.1 haddr, hlen]
    | some best =>
      rw [hinv.coords_of_some hp] at haddr
      rcases List.mem_cons.1 haddr with rfl | haddr
      · exact hlen
      · exact (hinv.sound best (mem_candidates.1 (preferred_some hp).1).1).length addr haddr

/-- A node's announcement verifies under its own key. -/
theorem verify_announce (hS : S.Lawful) (hG : G.Lawful S) (hid : t.identity.Valid S)
    (hhead : t.ancestry.head? = some t.selfEntry) (h : t.announce S G = .ok a) :
    verifyTreeAnnounce S G a t.identity.publicKey = .ok true := by
  obtain ⟨declaration, hd, rfl⟩ := announce_eq_ok h
  have hself : (addrs t.ancestry).headD [] = t.identity.nodeAddr := by
    rw [List.headD_eq_head?_getD, addrs, List.head?_map, hhead]
    rfl
  have hkey : t.identity.publicKey.tail.length = 32 := by
    rw [List.length_tail, (hS.publicKey hid.publicKey).1]
  have hsig := hG.sign_length (S.sha256 declaration) t.identity.secretKey
  have hver := hG.verify_sign hid.publicKey (S.sha256 declaration)
  unfold verifyTreeAnnounce
  rw [show (addrs _).headD [] = t.identity.nodeAddr from hself, hd]
  show Except.ok (verifySchnorr G _ _ _) = _
  rw [verifySchnorr, signSchnorr, hver, hsig, hkey]
  rfl

/-! ### Runs -/

/-- Announced in some state of the run. -/
def Announced (S : Suite) (G : Schnorr) (identity : FipsIdentity) (nowSeconds : Nat) (es : List TreeEvent)
    (a : TreeAnnounce) : Prop :=
  ∃ es₁ es₂, es = es₁ ++ es₂ ∧ (Run.run step (TreeState.new identity nowSeconds) es₁).announce S G = .ok a

/-- Of two states of a run one follows the other. -/
theorem prefixes_follow {es₁ es₂ es₁' es₂' : List TreeEvent} (h : es₁ ++ es₂ = es₁' ++ es₂') (t : TreeState) :
    Follows (Run.run step t es₁) (Run.run step t es₁') ∨ Follows (Run.run step t es₁') (Run.run step t es₁) := by
  rcases List.append_eq_append_iff.1 h with ⟨mid, rfl, -⟩ | ⟨mid, rfl, -⟩
  · rw [Run.run_append]
    exact .inl (run_follows _ _)
  · rw [Run.run_append]
    exact .inr (run_follows _ _)

/-- A sequence number stands for one announcement. -/
theorem Announced.eq_of_sequence {a' : TreeAnnounce} (h : Announced S G identity nowSeconds es a)
    (h' : Announced S G identity nowSeconds es a') (hseq : a.sequence = a'.sequence) : a = a' := by
  obtain ⟨es₁, es₂, rfl, ha⟩ := h
  obtain ⟨es₁', es₂', hsplit, ha'⟩ := h'
  have hs : ∀ {t b}, announce S G t = .ok b → b.sequence = t.sequence := by
    intro t b hb
    obtain ⟨declaration, -, rfl⟩ := announce_eq_ok hb
    rfl
  rw [hs ha, hs ha'] at hseq
  rcases prefixes_follow hsplit (TreeState.new identity nowSeconds) with (hsame | hlt) | (hsame | hlt)
  · rw [hsame.announce_eq, ha] at ha'
    exact Except.ok.inj ha'
  · omega
  · rw [hsame.announce_eq, ha'] at ha
    exact (Except.ok.inj ha).symm
  · omega

/-- The last announcement of a run has the greatest sequence. -/
theorem Announced.sequence_le {a' : TreeAnnounce} (h : Announced S G identity nowSeconds es a')
    (ha : (Run.run step (TreeState.new identity nowSeconds) es).announce S G = .ok a) : a'.sequence ≤ a.sequence := by
  obtain ⟨es₁, es₂, rfl, ha'⟩ := h
  obtain ⟨declaration, -, rfl⟩ := announce_eq_ok ha
  obtain ⟨declaration', -, rfl⟩ := announce_eq_ok ha'
  show (Run.run step _ es₁).sequence ≤ (Run.run step _ (es₁ ++ es₂)).sequence
  rw [Run.run_append]
  rcases run_follows (Run.run step (TreeState.new identity nowSeconds) es₁) es₂ with h | h
  · exact h.sequence.ge
  · exact h.le

/-- Every announcement of a run is valid, signed and carries its version; a version has one parent and one list of
coordinates, and whoever hears announcements of the run, the last one among them, ends with that one. -/
theorem announce_versions (hS : S.Lawful) (hG : G.Lawful S) (hid : identity.Valid S) (nowSeconds : Nat)
    (es : List TreeEvent) (hes : ∀ e ∈ es, e.Valid) (t : TreeState)
    (ht : t = Run.run step (TreeState.new identity nowSeconds) es) :
    (∀ a, t.announce S G = .ok a →
      validateTreeAnnounceSemantics a = .ok () ∧ verifyTreeAnnounce S G a identity.publicKey = .ok true ∧
      a.ancestry.head? = some ⟨identity.nodeAddr, a.sequence, a.timestamp⟩) ∧
    (nowSeconds < 2 ^ 64 → (∀ e ∈ es, e.clock < 2 ^ 64) → es.length + 1 < 2 ^ 64 → ∃ a, t.announce S G = .ok a) ∧
    (∀ es₁ es₂ t₁, es = es₁ ++ es₂ → t₁ = Run.run step (TreeState.new identity nowSeconds) es₁ →
      t₁.sequence ≤ t.sequence ∧ (t.parent ≠ t₁.parent ∨ t.coords ≠ t₁.coords → t₁.sequence < t.sequence)) ∧
    (∀ a a', Announced S G identity nowSeconds es a → Announced S G identity nowSeconds es a' →
      a.sequence = a'.sequence → a = a') ∧
    (∀ a, t.announce S G = .ok a → ∀ (neighbour : FipsIdentity) (nowSeconds' : Nat) (es' : List TreeEvent),
      (∀ a' ∈ heard identity.nodeAddr es', Announced S G identity nowSeconds es a') →
      a ∈ heard identity.nodeAddr es' →
      ∃ p, (Run.run step (TreeState.new neighbour nowSeconds') es').peers.get identity.nodeAddr = some p ∧
        p.sequence = t.sequence ∧ p.parent = t.parent ∧ addrs p.ancestry = t.coords) := by
  have hinv : t.Inv := ht ▸ run_inv (new_inv identity nowSeconds) hes
  have hident : t.identity = identity := ht ▸ run_identity _ es
  have hlen : t.identity.nodeAddr.length = 16 := hident ▸ length_of_deriveNodeAddr hS hid.nodeAddr
  refine ⟨?_, ?_, ?_, ?_, ?_⟩
  · intro a ha
    refine ⟨validateTreeAnnounceSemantics_ok.2 (hinv.semantics hlen ha), ?_, ?_⟩
    · rw [← hident]
      exact verify_announce hS hG (hident ▸ hid) hinv.head ha
    · obtain ⟨declaration, -, rfl⟩ := announce_eq_ok ha
      rw [← hident]
      exact hinv.head
  · intro hnow hclock hlength
    have hseq := run_sequence_le (TreeState.new identity nowSeconds) es
    rw [← ht] at hseq
    refine announce_of_lt ?_ (ht ▸ run_timestamp_lt hnow hclock)
    change t.sequence ≤ 1 + es.length at hseq
    omega
  · rintro es₁ es₂ t₁ rfl rfl
    rw [ht, Run.run_append]
    rcases run_follows (Run.run step (TreeState.new identity nowSeconds) es₁) es₂ with h | h
    · refine ⟨h.sequence.ge, ?_⟩
      rintro (hne | hne)
      · exact absurd h.parent hne
      · exact absurd (congrArg addrs h.ancestry) hne
    · exact ⟨h.le, fun _ => h⟩
  · intro a a' ha ha' hseq
    exact ha.eq_of_sequence ha' hseq
  · intro a ha neighbour nowSeconds' es' hall hlast
    rw [ht] at ha
    have hannounced : Announced S G identity nowSeconds es a := ⟨es, [], (List.append_nil es).symm, ha⟩
    have hheld : latest identity.nodeAddr es' = some a :=
      Versions.held_eq_of_max hlast (fun b hb => (hall b hb).sequence_le ha)
        (fun b hb hseq => (hall b hb).eq_of_sequence hannounced hseq)
    refine ⟨a.stored, ?_, ?_⟩
    · rw [run_get, hheld]
      rfl
    · rw [ht, announce_stored ha]
      exact ⟨rfl, rfl, rfl⟩

/-- A node with a smaller peer announces two coordinates. -/
theorem announce_versions_toy :
    ∃ a, (Run.run step (TreeState.new (toyIdentity 1) 9) toyHeard).announce toySuite toySchnorr = .ok a ∧
      validateTreeAnnounceSemantics a = .ok () ∧
      verifyTreeAnnounce toySuite toySchnorr a (toyIdentity 1).publicKey = .ok true ∧ a.ancestry.length = 2 := by
  have h := announce_versions (S := toySuite) (G := toySchnorr) toySuite_lawful toySchnorr_lawful (toyIdentity_valid 1) 9
    toyHeard (List.forall_mem_cons.2 ⟨⟨rfl, rfl⟩, List.forall_mem_singleton.2 ⟨rfl, rfl⟩⟩) _ rfl
  obtain ⟨a, ha⟩ := h.2.1 (by decide) (by decide) (by decide)
  refine ⟨a, ha, (h.1 a ha).1, (h.1 a ha).2.1, ?_⟩
  obtain ⟨declaration, -, rfl⟩ := announce_eq_ok ha
  have hlen : (Run.run step (TreeState.new (toyIdentity 1) 9) toyHeard).ancestry.length = 2 := by decide +kernel
  exact hlen

end TreeState

end Fips
