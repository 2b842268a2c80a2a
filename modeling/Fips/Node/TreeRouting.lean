import Fips.Node.Spanning
import Fips.Lib.RootedTree

/-!
# Greedy routing

`treeDistance` is the length of the path through the node where two paths to the root meet. `nextHop` takes
an eligible peer that is strictly nearer, and where the states describe one tree some neighbour in the tree
always is, so a datagram arrives within the distance.
-/

namespace Fips
open RootedTree Walk

/-! ### The distance -/

theorem commonLength_append (p x y : List NodeAddr) :
    commonLength (p ++ x) (p ++ y) = p.length + commonLength x y := by
  induction p with
  | nil => simp
  | cons a p ih =>
    rw [List.cons_append, List.cons_append, commonLength, if_pos rfl, ih, List.length_cons]
    omega

theorem commonLength_of_differ {x y : List NodeAddr} (h : ∀ u, x.head? = some u → y.head? ≠ some u) :
    commonLength x y = 0 := by
  cases x with
  | nil => simp [commonLength]
  | cons a x =>
    cases y with
    | nil => simp [commonLength]
    | cons b y =>
      rw [commonLength, if_neg]
      rintro rfl
      exact h a rfl rfl

theorem treeDistance_of_meets {a b s x y : List NodeAddr} (h : Meets a b s x y) (hs : s ≠ []) :
    treeDistance a b = ((x.length + y.length : Nat) : ℕ∞) := by
  have hcommon : commonLength a.reverse b.reverse = s.length := by
    rw [h.left, h.right, List.reverse_append, List.reverse_append, commonLength_append, commonLength_of_differ,
      List.length_reverse, Nat.add_zero]
    intro u
    rw [List.head?_reverse, List.head?_reverse]
    exact h.differ u
  have hlast : a.getLast? = b.getLast? := by
    rw [h.left, h.right, List.getLast?_append_of_ne_nil _ hs, List.getLast?_append_of_ne_nil _ hs]
  have hne : ¬(a = [] ∨ b = [] ∨ a.getLast? ≠ b.getLast?) := by
    rintro (ha | hb | hne)
    · exact hs (List.append_eq_nil_iff.1 (h.left ▸ ha)).2
    · exact hs (List.append_eq_nil_iff.1 (h.right ▸ hb)).2
    · exact hne hlast
  rw [treeDistance, if_neg hne, hcommon, h.left, h.right, List.length_append, List.length_append]
  congr 1
  omega

namespace TreeState
variable {t : TreeState} {destCoords : List NodeAddr} {eligible : NodeAddr → Bool}

/-! ### The next hop -/

/-- An eligible peer strictly nearer to the destination than the node itself. -/
def Nearer (t : TreeState) (destCoords : List NodeAddr) (eligible : NodeAddr → Bool) (e : NodeAddr × PeerTreeState) :
    Prop :=
  eligible e.1 = true ∧ treeDistance (addrs e.2.ancestry) destCoords < treeDistance t.coords destCoords

theorem closer_of_not {best : Option (NodeAddr × ℕ∞)} {e : NodeAddr × PeerTreeState}
    (h : ¬t.Nearer destCoords eligible e) : t.closer destCoords eligible best e = best := by
  refine if_pos ?_
  by_cases he : eligible e.1 = true
  · exact .inr (not_lt.1 fun hlt => h ⟨he, hlt⟩)
  · exact .inl (by simpa using he)

/-- A nearer peer takes the place of the best so far or leaves it. -/
theorem closer_of_nearer {best : Option (NodeAddr × ℕ∞)} {e : NodeAddr × PeerTreeState}
    (h : t.Nearer destCoords eligible e) :
    t.closer destCoords eligible best e = some (e.1, treeDistance (addrs e.2.ancestry) destCoords) ∨
      t.closer destCoords eligible best e = best ∧ best.isSome = true := by
  have hneg : ¬((!eligible e.1) = true ∨
      treeDistance (addrs e.2.ancestry) destCoords ≥ treeDistance t.coords destCoords) := by
    rintro (he | hge)
    · rw [h.1] at he
      cases he
    · exact absurd h.2 (not_lt.2 hge)
  unfold closer
  rw [if_neg hneg]
  cases best with
  | none => exact .inl rfl
  | some b =>
    dsimp only
    split
    · exact .inl rfl
    · exact .inr ⟨rfl, rfl⟩

theorem foldl_closer {peers : List (NodeAddr × PeerTreeState)} {best : Option (NodeAddr × ℕ∞)} {k : NodeAddr} {n : ℕ∞}
    (h : peers.foldl (t.closer destCoords eligible) best = some (k, n)) :
    best = some (k, n) ∨ ∃ p, (k, p) ∈ peers ∧ t.Nearer destCoords eligible (k, p) := by
  induction peers generalizing best with
  | nil => exact .inl h
  | cons e peers ih =>
    rcases ih h with hbest | ⟨p, hp, hnear⟩
    · by_cases he : t.Nearer destCoords eligible e
      · rcases (@closer_of_nearer _ _ _ best) he with heq | ⟨heq, -⟩
        · rw [heq] at hbest
          cases hbest
          exact .inr ⟨e.2, List.mem_cons_self, he⟩
        · exact .inl (heq ▸ hbest)
      · rw [closer_of_not he] at hbest
        exact .inl hbest
    · exact .inr ⟨p, List.mem_cons_of_mem _ hp, hnear⟩

theorem foldl_closer_isSome {peers : List (NodeAddr × PeerTreeState)} {best : Option (NodeAddr × ℕ∞)}
    (h : best.isSome = true ∨ ∃ e ∈ peers, t.Nearer destCoords eligible e) :
    (peers.foldl (t.closer destCoords eligible) best).isSome = true := by
  induction peers generalizing best with
  | nil =>
    rcases h with h | ⟨e, he, -⟩
    · exact h
    · cases he
  | cons e peers ih =>
    refine ih ?_
    by_cases he : t.Nearer destCoords eligible e
    · rcases (@closer_of_nearer _ _ _ best) he with heq | ⟨heq, hsome⟩
      · rw [heq]
        exact .inl rfl
      · rw [heq]
        exact .inl hsome
    · rw [closer_of_not he]
      rcases h with h | ⟨e', he', hnear⟩
      · exact .inl h
      · rcases List.mem_cons.1 he' with rfl | he'
        · exact absurd hnear he
        · exact .inr ⟨e', he', hnear⟩

/-- The next hop is nearer. -/
theorem nextHop_nearer {k : NodeAddr} (h : t.nextHop destCoords eligible = some k) :
    ∃ p, (k, p) ∈ t.peers ∧ t.Nearer destCoords eligible (k, p) := by
  unfold nextHop at h
  split at h
  · cases h
  · obtain ⟨⟨k', n⟩, hfold, rfl⟩ := Option.map_eq_some_iff.1 h
    rcases foldl_closer hfold with hbest | hp
    · cases hbest
    · exact hp

/-- There is a next hop if a peer is nearer and the roots agree. -/
theorem exists_nextHop {e : NodeAddr × PeerTreeState} (hroot : destCoords.getLast? = some t.root) (he : e ∈ t.peers)
    (hnear : t.Nearer destCoords eligible e) : ∃ k, t.nextHop destCoords eligible = some k := by
  have hne : ¬(destCoords = [] ∨ destCoords.getLast? ≠ some t.root) := by
    rintro (hnil | hne)
    · rw [hnil] at hroot
      cases hroot
    · exact hne hroot
  have hsome := @foldl_closer_isSome _ _ _ _ none (.inr ⟨e, he, hnear⟩)
  obtain ⟨b, hb⟩ := Option.isSome_iff_exists.1 hsome
  refine ⟨b.1, ?_⟩
  unfold nextHop
  rw [if_neg hne, hb]
  rfl

/-! ### Networks -/

/-- The states of all nodes describe one tree, and neighbours in the tree are stored and eligible. -/
structure Consistent (nodes : Finset NodeAddr) (root : NodeAddr) (parent : NodeAddr → NodeAddr)
    (path : NodeAddr → List NodeAddr) (state : NodeAddr → TreeState) (eligible : NodeAddr → NodeAddr → Bool) : Prop where
  rooted : Rooted (↑nodes) root parent path
  coords : ∀ v ∈ nodes, (state v).coords = path v
  stored : ∀ v ∈ nodes, ∀ e ∈ (state v).peers, e.1 ∈ nodes ∧ addrs e.2.ancestry = path e.1
  parent_stored : ∀ v ∈ nodes, v ≠ root → eligible v (parent v) = true ∧ ∃ p, (parent v, p) ∈ (state v).peers
  child_stored : ∀ v ∈ nodes, v ≠ root → eligible (parent v) v = true ∧ ∃ p, (v, p) ∈ (state (parent v)).peers

/-- One hop towards `dest`, which keeps what is addressed to it. -/
def hop (state : NodeAddr → TreeState) (eligible : NodeAddr → NodeAddr → Bool) (dest v : NodeAddr) : Option NodeAddr :=
  if v = dest then none else (state v).nextHop (state dest).coords (eligible v)

namespace Consistent
variable {nodes : Finset NodeAddr} {root : NodeAddr} {parent : NodeAddr → NodeAddr} {path : NodeAddr → List NodeAddr}
  {state : NodeAddr → TreeState} {eligible : NodeAddr → NodeAddr → Bool}
  (h : Consistent nodes root parent path state eligible) {v d : NodeAddr}
include h

theorem root_eq (hv : v ∈ nodes) : (state v).root = root := by
  rw [TreeState.root, h.coords v hv, h.rooted.getLast_path hv]
  rfl

/-- The distance is finite, and zero from the destination alone. -/
theorem distance (hv : v ∈ nodes) (hd : d ∈ nodes) :
    ∃ n : Nat, treeDistance (path v) (path d) = n ∧ (n = 0 ↔ v = d) := by
  obtain ⟨s, x, y, hm⟩ := exists_meets (path v) (path d)
  refine ⟨x.length + y.length, treeDistance_of_meets hm (h.rooted.meets_ne_nil hv hd hm), ?_⟩
  constructor
  · intro hz
    have hx : x = [] := List.length_eq_zero_iff.1 (by omega)
    have hy : y = [] := List.length_eq_zero_iff.1 (by omega)
    exact h.rooted.path_injective hv hd (by rw [hm.left, hm.right, hx, hy])
  · rintro rfl
    cases x with
    | nil =>
      cases y with
      | nil => rfl
      | cons b y =>
        have hlen := congrArg List.length (hm.left.symm.trans hm.right)
        simp only [List.nil_append, List.length_append, List.length_cons] at hlen
        omega
    | cons a x =>
      have hxy : a :: x = y := List.append_cancel_right (hm.left.symm.trans hm.right)
      subst hxy
      obtain ⟨u, hu⟩ : ∃ u, (a :: x).getLast? = some u := ⟨_, List.getLast?_eq_some_getLast (List.cons_ne_nil a x)⟩
      exact absurd hu (hm.differ u hu)

/-- Short of the destination a stored eligible peer is nearer. -/
theorem exists_nearer (hv : v ∈ nodes) (hd : d ∈ nodes) (hne : v ≠ d) :
    ∃ e ∈ (state v).peers, (state v).Nearer (state d).coords (eligible v) e := by
  obtain ⟨s, x, y, hm⟩ := exists_meets (path v) (path d)
  have hs := h.rooted.meets_ne_nil hv hd hm
  have hdist := treeDistance_of_meets hm hs
  cases x with
  | cons u x =>
    obtain ⟨hvr, hm'⟩ := h.rooted.parent_nearer hv hd hm rfl
    obtain ⟨hel, p, hp⟩ := h.parent_stored v hv hvr
    refine ⟨(parent v, p), hp, hel, ?_⟩
    rw [(h.stored v hv _ hp).2, h.coords v hv, h.coords d hd, hdist, treeDistance_of_meets hm' hs]
    exact ENat.natCast_lt_natCast.2 (by simp)
  | nil =>
    obtain ⟨w, y', hw, hwr, hwp, hlen, hm'⟩ := h.rooted.child_nearer hv hd hne hm
    obtain ⟨hel, p, hp⟩ := h.child_stored w hw hwr
    rw [hwp] at hel hp
    refine ⟨(w, p), hp, hel, ?_⟩
    rw [(h.stored v hv _ hp).2, h.coords v hv, h.coords d hd, hdist,
      treeDistance_of_meets hm' (List.cons_ne_nil w s)]
    exact ENat.natCast_lt_natCast.2 (by rw [hlen]; simp)

/-- A hop leads to a node of the network that is strictly nearer. -/
theorem hop_nearer (hv : v ∈ nodes) (hd : d ∈ nodes) (hne : v ≠ d) :
    ∃ w, hop state eligible d v = some w ∧ w ∈ nodes ∧
      treeDistance (path w) (path d) < treeDistance (path v) (path d) := by
  obtain ⟨e, he, hnear⟩ := h.exists_nearer hv hd hne
  have hroot : (state d).coords.getLast? = some (state v).root := by
    rw [h.root_eq hv, h.coords d hd, h.rooted.getLast_path hd]
  obtain ⟨k, hk⟩ := exists_nextHop hroot he hnear
  obtain ⟨p, hp, hnear'⟩ := nextHop_nearer hk
  obtain ⟨hkn, hpath⟩ := h.stored v hv _ hp
  refine ⟨k, by rw [hop, if_neg hne, hk], hkn, ?_⟩
  have hlt := hnear'.2
  rw [hpath, h.coords v hv, h.coords d hd] at hlt
  exact hlt

/-- Hop by hop a datagram reaches its destination within the distance and passes no node twice. -/
theorem delivers (hv : v ∈ nodes) (hd : d ∈ nodes) :
    ∃ n : Nat, treeDistance (state v).coords (state d).coords = n ∧ ∀ hops ≥ n,
      (walk (hop state eligible d) hops v).length ≤ n + 1 ∧
      (walk (hop state eligible d) hops v).getLast? = some d ∧ (walk (hop state eligible d) hops v).Nodup := by
  have hzero : ∀ u ∈ nodes, (treeDistance (path u) (path d)).toNat = 0 ↔ u = d := by
    intro u hu
    obtain ⟨n, hn, hz⟩ := h.distance hu hd
    rw [hn, ENat.toNat_natCast, hz]
  have hnext : ∀ u, u ∈ nodes → (treeDistance (path u) (path d)).toNat ≠ 0 →
      ∃ w, hop state eligible d u = some w ∧ w ∈ nodes ∧
        (treeDistance (path w) (path d)).toNat < (treeDistance (path u) (path d)).toNat := by
    intro u hu hnz
    obtain ⟨w, hw, hwn, hlt⟩ := h.hop_nearer hu hd fun heq => hnz ((hzero u hu).2 heq)
    obtain ⟨m, hm, -⟩ := h.distance hwn hd
    obtain ⟨n, hn, -⟩ := h.distance hu hd
    rw [hm, hn] at hlt
    refine ⟨w, hw, hwn, ?_⟩
    rw [hm, hn, ENat.toNat_natCast, ENat.toNat_natCast]
    exact ENat.natCast_lt_natCast.1 hlt
  have hstop : ∀ u, u ∈ nodes → (treeDistance (path u) (path d)).toNat = 0 → hop state eligible d u = none := by
    intro u hu hz
    rw [hop, if_pos ((hzero u hu).1 hz)]
  obtain ⟨n, hn, -⟩ := h.distance hv hd
  refine ⟨n, by rw [h.coords v hv, h.coords d hd, hn], fun hops hle => ?_⟩
  have hμ : (treeDistance (path v) (path d)).toNat = n := by rw [hn, ENat.toNat_natCast]
  obtain ⟨hlen, u, hu, hun, hz⟩ := walk_arrives hnext hstop hv (hμ ▸ hle)
  rw [hμ] at hlen
  exact ⟨hlen, (hzero u hun).1 hz ▸ hu, nodup_walk hnext hstop hv⟩

end Consistent

/-- `nextHop` makes progress at each node, and in a consistent network it delivers. -/
theorem nextHop_progress :
    (∀ (t : TreeState) (destCoords : List NodeAddr) (eligible : NodeAddr → Bool) (k : NodeAddr),
      t.nextHop destCoords eligible = some k →
      eligible k = true ∧ ∃ p, (k, p) ∈ t.peers ∧
        treeDistance (addrs p.ancestry) destCoords < treeDistance t.coords destCoords) ∧
    (∀ (nodes : Finset NodeAddr) (root : NodeAddr) (parent : NodeAddr → NodeAddr) (path : NodeAddr → List NodeAddr)
      (state : NodeAddr → TreeState) (eligible : NodeAddr → NodeAddr → Bool),
      Consistent nodes root parent path state eligible → ∀ v ∈ nodes, ∀ d ∈ nodes,
      ∃ n : Nat, treeDistance (state v).coords (state d).coords = n ∧ ∀ hops ≥ n,
        (walk (hop state eligible d) hops v).length ≤ n + 1 ∧
        (walk (hop state eligible d) hops v).getLast? = some d ∧ (walk (hop state eligible d) hops v).Nodup) := by
  constructor
  · intro t destCoords eligible k hk
    obtain ⟨p, hp, hnear⟩ := nextHop_nearer hk
    exact ⟨hnear.1, p, hp, hnear.2⟩
  · intro nodes root parent path state eligible h v hv d hd
    exact h.delivers hv hd

/-- Below a root one child, with a child of its own, and another one. -/
def toyParent (v : NodeAddr) : NodeAddr := if v = [2] then [1] else [0]

def toyPath (v : NodeAddr) : List NodeAddr := if v = [0] then [[0]] else if v = [2] then [[2], [1], [0]] else [v, [0]]

def toyLinks (v : NodeAddr) : List NodeAddr :=
  if v = [0] then [[1], [3]] else if v = [1] then [[0], [2]] else [toyParent v]

/-- A node that knows its links. -/
def toyTree (v : NodeAddr) : TreeState where
  identity := { toyIdentity 1 with nodeAddr := v }
  sequence := 1
  timestamp := 0
  parent := toyParent v
  ancestry := (toyPath v).map fun nodeAddr => ⟨nodeAddr, 1, 0⟩
  peers := (toyLinks v).map fun w => (w, ⟨1, toyParent w, (toyPath w).map fun nodeAddr => ⟨nodeAddr, 1, 0⟩⟩)

theorem toyTree_consistent : Consistent {[0], [1], [2], [3]} [0] toyParent toyPath toyTree (fun _ _ => true) where
  rooted := ⟨by decide, rfl, by decide, by decide⟩
  coords := by decide
  stored := by decide
  parent_stored := by
    intro v hv hr
    have hlink : ∀ v ∈ ({[0], [1], [2], [3]} : Finset NodeAddr), v ≠ [0] → toyParent v ∈ toyLinks v := by decide
    exact ⟨rfl, _, List.mem_map.2 ⟨_, hlink v hv hr, rfl⟩⟩
  child_stored := by
    intro v hv hr
    have hlink : ∀ v ∈ ({[0], [1], [2], [3]} : Finset NodeAddr), v ≠ [0] → v ∈ toyLinks (toyParent v) := by decide
    exact ⟨rfl, _, List.mem_map.2 ⟨_, hlink v hv hr, rfl⟩⟩

/-- From the grandchild over its parent and the root to the other child. -/
theorem nextHop_progress_toy :
    ∃ n : Nat, treeDistance (toyTree [2]).coords (toyTree [3]).coords = n ∧ ∀ hops ≥ n,
      (walk (hop toyTree (fun _ _ => true) [3]) hops [2]).length ≤ n + 1 ∧
      (walk (hop toyTree (fun _ _ => true) [3]) hops [2]).getLast? = some [3] ∧
      (walk (hop toyTree (fun _ _ => true) [3]) hops [2]).Nodup :=
  nextHop_progress.2 _ _ _ _ _ _ toyTree_consistent [2] (by decide) [3] (by decide)

end TreeState

end Fips
