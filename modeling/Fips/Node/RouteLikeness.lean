import Fips.Node.RouteShares

/-!
# Tables of learned routes that behave alike

How often a route has been selected and where it stands in its list are read by nothing: selections compare the weights and
the order of the routes, and what is learned goes to the route of its next hop. So tables that list the same routes up to
these two choose the same next hops, now and later. A selection with a single candidate among live routes changes nothing
else.
-/

namespace Fips
namespace LearnedRouteTable

/-- A route without the count of its selections. -/
def bare (route : LearnedRoute) : LearnedRoute := { route with selected := 0 }

/-- The tables list the same routes, but for the order and the counts. -/
structure Alike (t t' : LearnedRouteTable) : Prop where
  left : t.Distinct
  right : t'.Distinct
  routes : ∀ d, ((t.list d).map bare).Perm ((t'.list d).map bare)

section
variable {routes routes' : List LearnedRoute} {route : LearnedRoute} {f : LearnedRoute → LearnedRoute} {hop : NodeAddr}
  {nowMs expiresAtMs : ℚ} {mtu : Option Nat}

theorem eq_of_bare {a b : LearnedRoute} (h : bare a = bare b) : b = { a with selected := b.selected } := by
  cases a
  cases b
  cases h
  rfl

theorem map_nextHop_bare : (routes.map bare).map LearnedRoute.nextHop = routes.map LearnedRoute.nextHop := by
  rw [List.map_map]
  rfl

theorem exists_bare (h : (routes.map bare).Perm (routes'.map bare)) (hroute : route ∈ routes) :
    ∃ route' ∈ routes', bare route' = bare route :=
  List.mem_map.1 (h.mem_iff.1 (List.mem_map_of_mem hroute))

theorem modifyRoute_eq_map (hnodup : (routes.map LearnedRoute.nextHop).Nodup) :
    modifyRoute hop f routes = routes.map fun route => if route.nextHop = hop then f route else route := by
  induction routes with
  | nil => rfl
  | cons q routes ih =>
    obtain ⟨hnot, hnodup⟩ := List.nodup_cons.1 hnodup
    unfold modifyRoute
    rw [List.map_cons]
    by_cases hq : q.nextHop = hop
    · rw [if_pos hq, if_pos hq]
      refine congrArg (List.cons (f q)) ?_
      have hrest : routes.map (fun route => if route.nextHop = hop then f route else route) = routes.map id := by
        refine List.map_congr_left fun route hroute => if_neg fun hsame => hnot ?_
        rw [hq, ← hsame]
        exact List.mem_map_of_mem hroute
      rw [hrest, List.map_id]
    · rw [if_neg hq, if_neg hq, ih hnodup]

/-- `heard` does not look at the counts. -/
theorem map_bare_heard (hnodup : (routes.map LearnedRoute.nextHop).Nodup) :
    (heard hop nowMs expiresAtMs mtu routes).map bare = heard hop nowMs expiresAtMs mtu (routes.map bare) := by
  have hany : (routes.map bare).any (fun route => route.nextHop = hop) = routes.any (fun route => route.nextHop = hop) := by
    rw [List.any_map]
    rfl
  unfold heard
  rw [hany]
  split
  · rw [modifyRoute_eq_map hnodup, modifyRoute_eq_map (by rw [map_nextHop_bare]; exact hnodup), List.map_map, List.map_map]
    refine List.map_congr_left fun route _ => ?_
    show bare (if route.nextHop = hop then reinforce nowMs expiresAtMs mtu route else route) =
      if route.nextHop = hop then reinforce nowMs expiresAtMs mtu (bare route) else bare route
    split
    · rfl
    · rfl
  · rw [List.map_append]
    rfl

theorem perm_heard (hnodup : (routes.map LearnedRoute.nextHop).Nodup) (h : routes.Perm routes') :
    (heard hop nowMs expiresAtMs mtu routes).Perm (heard hop nowMs expiresAtMs mtu routes') := by
  have hnodup' : (routes'.map LearnedRoute.nextHop).Nodup := ((h.map _).nodup_iff).1 hnodup
  have hany : routes.any (fun route => route.nextHop = hop) = routes'.any (fun route => route.nextHop = hop) := h.any_eq
  unfold heard
  rw [hany]
  split
  · rw [modifyRoute_eq_map hnodup, modifyRoute_eq_map hnodup']
    exact h.map _
  · exact h.append_right _

theorem sortAndTruncate_of_pairwise {maximum : Nat} (h : routes.Pairwise fun a b => compareRoutes a b ≠ .gt) :
    sortAndTruncate routes maximum = routes.take maximum := by
  unfold sortAndTruncate
  rw [List.mergeSort_of_pairwise (h.imp fun hab => decide_eq_true hab)]

theorem map_bare_sortAndTruncate (maximum : Nat) :
    (sortAndTruncate routes maximum).map bare = sortAndTruncate (routes.map bare) maximum := by
  unfold sortAndTruncate
  rw [List.map_take]
  exact congrArg (List.take maximum) (List.map_mergeSort fun a _ b _ => rfl)

theorem perm_sortAndTruncate (hnodup : (routes.map LearnedRoute.nextHop).Nodup) (h : routes.Perm routes') (maximum : Nat) :
    (sortAndTruncate routes maximum).Perm (sortAndTruncate routes' maximum) := by
  have hnodup' : (routes'.map LearnedRoute.nextHop).Nodup := ((h.map _).nodup_iff).1 hnodup
  refine (List.perm_ext_iff_of_nodup (nodup_sortAndTruncate hnodup _).of_map (nodup_sortAndTruncate hnodup' _).of_map).2 ?_
  intro route
  have hkept (hroute : route ∈ routes) : route ∈ sortAndTruncate routes maximum ↔ route ∈ sortAndTruncate routes' maximum := by
    rw [mem_sortAndTruncate hnodup hroute, mem_sortAndTruncate hnodup' (h.mem_iff.1 hroute), (h.filter _).length_eq]
  constructor
  · intro hroute
    exact (hkept (mem_of_mem_sortAndTruncate hroute)).1 hroute
  · intro hroute
    exact (hkept (h.mem_iff.2 (mem_of_mem_sortAndTruncate hroute))).2 hroute

end

section
variable {t t' t'' : LearnedRouteTable} {d hop : NodeAddr} {nowMs : ℚ} {pow15 : ℚ → ℚ} {canSend : NodeAddr → Bool}

theorem Alike.refl (h : t.Distinct) : Alike t t := ⟨h, h, fun _ => .refl _⟩

theorem Alike.symm (h : Alike t t') : Alike t' t := ⟨h.right, h.left, fun d => (h.routes d).symm⟩

theorem Alike.trans (h : Alike t t') (h' : Alike t' t'') : Alike t t'' :=
  ⟨h.left, h'.right, fun d => (h.routes d).trans (h'.routes d)⟩

theorem Alike.empty : Alike empty empty := .refl distinct_empty

theorem Alike.learn (h : Alike t t') (ttlSeconds : ℚ) (maximum : Nat) (mtu : Option Nat) :
    Alike (t.learn d hop nowMs ttlSeconds maximum mtu) (t'.learn d hop nowMs ttlSeconds maximum mtu) := by
  refine ⟨h.left.learn _ _ _, h.right.learn _ _ _, fun d' => ?_⟩
  by_cases hcall : d = hop ∨ maximum = 0
  · have hsame (u : LearnedRouteTable) : u.learn d hop nowMs ttlSeconds maximum mtu = u := by
      unfold LearnedRouteTable.learn
      rw [if_pos hcall]
    rw [hsame, hsame]
    exact h.routes d'
  · obtain ⟨hne, hmax⟩ := not_or.1 hcall
    rw [learn_list hne hmax, learn_list hne hmax]
    split
    · have hbare : (((t.list d).map bare).map LearnedRoute.nextHop).Nodup := by
        rw [map_nextHop_bare]
        exact h.left.list
      rw [map_bare_sortAndTruncate, map_bare_sortAndTruncate, map_bare_heard h.left.list, map_bare_heard h.right.list]
      exact perm_sortAndTruncate (nodup_heard hbare _ _ _) (perm_heard hbare (h.routes d)) maximum
    · exact h.routes d'

/-- Alike tables know the same path MTUs. -/
theorem Alike.pathMtu (h : Alike t t') : t.pathMtu d hop nowMs = t'.pathMtu d hop nowMs := by
  unfold LearnedRouteTable.pathMtu
  have hlist : ∀ t : LearnedRouteTable, (t.routes.get d).getD [] = t.list d := fun _ => rfl
  rw [hlist, hlist]
  cases hfind : (t.list d).find? (·.nextHop = hop) with
  | none =>
    have hnone : (t'.list d).find? (·.nextHop = hop) = none := by
      refine List.find?_eq_none.2 fun route' hroute' => ?_
      obtain ⟨route, hroute, hbare⟩ := exists_bare (h.routes d).symm hroute'
      rw [eq_of_bare hbare]
      exact List.find?_eq_none.1 hfind route hroute
    rw [hnone]
  | some route =>
    obtain ⟨route', hroute', hbare⟩ := exists_bare (h.routes d) (List.mem_of_find?_eq_some hfind)
    have hhop : route.nextHop = hop := by simpa using List.find?_some hfind
    have hfind' := find_of_mem h.right.list hroute'
    rw [eq_of_bare hbare.symm] at hfind'
    rw [← hhop, hfind']

end

/-! ### Selections -/

section
variable {t t' : LearnedRouteTable} {d hop : NodeAddr} {nowMs : ℚ} {pow15 : ℚ → ℚ} {canSend : NodeAddr → Bool}
  {routes routes' : List LearnedRoute} {route r : LearnedRoute} {sel : Nat}

theorem bare_charge : bare (charge pow15 canSend route) = charge pow15 canSend (bare route) := by
  unfold charge
  show bare (if canSend route.nextHop then _ else _) = if canSend route.nextHop then _ else _
  split
  · rfl
  · rfl

theorem map_bare_charged : (t.charged pow15 d nowMs canSend).map bare =
    (((t.list d).map bare).filter fun route => nowMs < route.expiresAtMs).map (charge pow15 canSend) := by
  unfold charged retainLive
  rw [List.map_map, List.filter_map, List.map_map]
  exact List.map_congr_left fun route _ => bare_charge

theorem Alike.charged (h : Alike t t') :
    ((t.charged pow15 d nowMs canSend).map bare).Perm ((t'.charged pow15 d nowMs canSend).map bare) := by
  rw [map_bare_charged, map_bare_charged]
  exact ((h.routes d).filter _).map _

theorem Distinct.charged (h : t.Distinct) : ((t.charged pow15 d nowMs canSend).map LearnedRoute.nextHop).Nodup := by
  unfold LearnedRouteTable.charged
  have hhops : ((retainLive (t.list d) nowMs).map (charge pow15 canSend)).map LearnedRoute.nextHop =
      (retainLive (t.list d) nowMs).map LearnedRoute.nextHop := by
    rw [List.map_map]
    exact List.map_congr_left fun route _ => charge_nextHop
  rw [hhops]
  exact h.list.sublist (List.filter_sublist.map _)

theorem Alike.totalWeight (h : Alike t t') : LearnedRouteTable.totalWeight pow15 canSend (retainLive (t.list d) nowMs) =
    LearnedRouteTable.totalWeight pow15 canSend (retainLive (t'.list d) nowMs) := by
  have hbare (u : LearnedRouteTable) : LearnedRouteTable.totalWeight pow15 canSend (retainLive (u.list d) nowMs) =
      (((((u.list d).map bare).filter fun route => nowMs < route.expiresAtMs).filter fun route =>
        canSend route.nextHop).map (routeWeight pow15)).sum := by
    unfold LearnedRouteTable.totalWeight retainLive
    rw [List.filter_map, List.filter_map, List.map_map]
    rfl
  rw [hbare, hbare]
  exact ((((h.routes d).filter _).filter _).map _).sum_eq

/-- Of two routes that are ahead of each other both are the same. -/
theorem nextHop_eq_of_ahead {a b : LearnedRoute} (hab : Ahead a b) (hba : Ahead b a) : a.nextHop = b.nextHop := by
  rcases hab with hab | ⟨hweight, hab⟩
  · rcases hba with hba | ⟨hba, -⟩
    · exact absurd hba (lt_asymm hab)
    · exact absurd hba hab.ne
  · rcases hba with hba | ⟨-, hba⟩
    · exact absurd hweight hba.ne
    · rcases Outranks.trichotomy a b with h | ⟨-, -, h⟩ | h
      · exact absurd h hba
      · exact h
      · exact absurd h hab

/-- Alike tables select the same next hop. -/
theorem Selects.nextHop_eq {sel' : Nat} {r' : LearnedRoute} (h : Alike t t') (hr : Selects pow15 d nowMs canSend t sel r)
    (hr' : Selects pow15 d nowMs canSend t' sel' r') : r.nextHop = r'.nextHop := by
  obtain ⟨q', hq', hbare'⟩ := exists_bare h.charged (List.mem_of_getElem? hr.selected)
  obtain ⟨q, hq, hbare⟩ := exists_bare h.charged.symm (List.mem_of_getElem? hr'.selected)
  refine nextHop_eq_of_ahead ?_ ?_
  · have hahead := hr.ahead q hq (by rw [eq_of_bare hbare.symm]; exact hr'.sends)
    rw [eq_of_bare hbare.symm] at hahead
    exact hahead
  · have hahead := hr'.ahead q' hq' (by rw [eq_of_bare hbare'.symm]; exact hr.sends)
    rw [eq_of_bare hbare'.symm] at hahead
    exact hahead

/-- The routes of the destination after a selection. -/
theorem Selects.map_bare (hdistinct : t.Distinct) (hr : Selects pow15 d nowMs canSend t sel r) :
    (((t.selectNextHop pow15 d nowMs canSend).2.list d).map bare).Perm
      (((t.charged pow15 d nowMs canSend).map bare).map fun q =>
        if q.nextHop = r.nextHop then
          bare (pay (LearnedRouteTable.totalWeight pow15 canSend (retainLive (t.list d) nowMs)) q) else q) := by
  rw [hr.result, list_set, if_pos rfl]
  refine (perm_sorted.map _).trans (.of_eq ?_)
  rw [modify_eq_map hdistinct.charged hr.selected, List.map_map, List.map_map]
  refine List.map_congr_left fun q _ => ?_
  show bare (if q.nextHop = r.nextHop then _ else q) = if q.nextHop = r.nextHop then _ else bare q
  split
  · rfl
  · rfl

theorem selectNextHop_list_of_ne {d' : NodeAddr} (hne : d ≠ d') :
    (t.selectNextHop pow15 d nowMs canSend).2.list d' = t.list d' := by
  rcases @selectNextHop_list pow15 t d nowMs canSend d' with h | ⟨sel, r, -, h⟩
  · rw [h, if_neg hne]
  · rw [h, if_neg hne]

/-- Alike tables choose alike, and stay alike. -/
theorem Alike.selectNextHop (h : Alike t t') :
    (t.selectNextHop pow15 d nowMs canSend).1 = (t'.selectNextHop pow15 d nowMs canSend).1 ∧
      Alike (t.selectNextHop pow15 d nowMs canSend).2 (t'.selectNextHop pow15 d nowMs canSend).2 := by
  have hother {d' : NodeAddr} (hne : d ≠ d') : (((t.selectNextHop pow15 d nowMs canSend).2.list d').map bare).Perm
      (((t'.selectNextHop pow15 d nowMs canSend).2.list d').map bare) := by
    rw [selectNextHop_list_of_ne hne, selectNextHop_list_of_ne hne]
    exact h.routes d'
  by_cases hsome : ∃ route ∈ t.list d, nowMs < route.expiresAtMs ∧ canSend route.nextHop = true
  · obtain ⟨route, hroute, hlive, hsend⟩ := hsome
    obtain ⟨route', hroute', hbare⟩ := exists_bare (h.routes d) hroute
    obtain ⟨sel, r, hr⟩ := @exists_selects pow15 _ _ _ _ _ hroute hlive hsend
    obtain ⟨sel', r', hr'⟩ := @exists_selects pow15 canSend t' d nowMs route' hroute'
      (by rw [eq_of_bare hbare.symm]; exact hlive) (by rw [eq_of_bare hbare.symm]; exact hsend)
    have hhop := hr.nextHop_eq h hr'
    refine ⟨by rw [hr.result, hr'.result, hhop], h.left.selectNextHop _ _, h.right.selectNextHop _ _, fun d' => ?_⟩
    by_cases hd : d = d'
    · subst hd
      refine (hr.map_bare h.left).trans (.trans ?_ (hr'.map_bare h.right).symm)
      rw [hhop, h.totalWeight]
      exact h.charged.map _
    · exact hother hd
  · have hnone : ∀ route ∈ t.list d, nowMs < route.expiresAtMs → canSend route.nextHop = false := fun route hroute hlive =>
      Bool.eq_false_iff.2 fun hsend => hsome ⟨route, hroute, hlive, hsend⟩
    have hnone' : ∀ route ∈ t'.list d, nowMs < route.expiresAtMs → canSend route.nextHop = false := by
      intro route' hroute' hlive
      obtain ⟨route, hroute, hbare⟩ := exists_bare (h.routes d).symm hroute'
      have heq := eq_of_bare hbare
      rw [heq] at hlive ⊢
      exact hnone route hroute hlive
    refine ⟨by rw [selectNextHop_none hnone, selectNextHop_none hnone'], h.left.selectNextHop _ _,
      h.right.selectNextHop _ _, fun d' => ?_⟩
    by_cases hd : d = d'
    · subst hd
      rw [selectNextHop_none hnone, selectNextHop_none hnone', has_list, has_list, if_pos rfl, if_pos rfl]
      have hlive (u : LearnedRouteTable) : (retainLive (u.list d) nowMs).map bare =
          ((u.list d).map bare).filter fun route => nowMs < route.expiresAtMs := by
        unfold retainLive
        rw [List.filter_map]
        rfl
      rw [hlive, hlive]
      exact (h.routes d).filter _
    · exact hother hd

/-- Of live routes at most one is a candidate: nothing is weighed against another. -/
def Uncontested (d : NodeAddr) (nowMs : ℚ) (canSend : NodeAddr → Bool) (t : LearnedRouteTable) : Prop :=
  (∀ route ∈ t.list d, nowMs < route.expiresAtMs) ∧
    ((t.list d).filter fun route => canSend route.nextHop).length ≤ 1

theorem Uncontested.retainLive_eq (h : t.Uncontested d nowMs canSend) : retainLive (t.list d) nowMs = t.list d :=
  List.filter_eq_self.2 fun route hroute => decide_eq_true (h.1 route hroute)

theorem eq_singleton_of_mem {α : Type} {l : List α} {a : α} (h : a ∈ l) (hl : l.length ≤ 1) : l = [a] := by
  cases l with
  | nil => cases h
  | cons b l =>
    have hnil : l = [] := List.eq_nil_of_length_eq_zero (by rw [List.length_cons] at hl; omega)
    subst hnil
    rw [List.mem_singleton.1 h]

/-- A sole candidate pays what it has been charged. -/
theorem Uncontested.selectNextHop (h : t.Uncontested d nowMs canSend) (hdistinct : t.Distinct) :
    Alike t (t.selectNextHop pow15 d nowMs canSend).2 := by
  refine ⟨hdistinct, hdistinct.selectNextHop _ _, fun d' => ?_⟩
  by_cases hd : d = d'
  swap
  · rw [selectNextHop_list_of_ne hd]
  subst hd
  by_cases hsome : ∃ route ∈ t.list d, canSend route.nextHop = true
  · obtain ⟨route, hroute, hsend⟩ := hsome
    obtain ⟨sel, r, hr⟩ := @exists_selects pow15 _ _ _ _ _ hroute (h.1 route hroute) hsend
    refine .trans (.of_eq ?_) (hr.map_bare hdistinct).symm
    unfold LearnedRouteTable.charged
    rw [h.retainLive_eq, List.map_map, List.map_map]
    refine List.map_congr_left fun q hq => ?_
    show bare q = if (bare (charge pow15 canSend q)).nextHop = r.nextHop then _ else _
    rw [show (bare (charge pow15 canSend q)).nextHop = q.nextHop from charge_nextHop]
    by_cases hqsend : canSend q.nextHop = true
    · have hsole : (t.list d).filter (fun route => canSend route.nextHop) = [q] :=
        eq_singleton_of_mem (List.mem_filter.2 ⟨hq, hqsend⟩) h.2
      have hrq : q.nextHop = r.nextHop := by
        obtain ⟨old, hold, -, w, n, hweighed⟩ := mem_charged (List.mem_of_getElem? hr.selected)
        have hsends := hr.sends
        rw [hweighed] at hsends ⊢
        have hmem : old ∈ (t.list d).filter fun route => canSend route.nextHop := List.mem_filter.2 ⟨hold, hsends⟩
        rw [hsole] at hmem
        rw [List.mem_singleton.1 hmem]
      rw [if_pos hrq, LearnedRouteTable.totalWeight, hsole, List.map_singleton, List.sum_singleton, charge, if_pos hqsend]
      unfold bare pay
      dsimp only
      rw [add_sub_cancel_right]
    · have hne : q.nextHop ≠ r.nextHop := by
        intro hsame
        rw [hsame] at hqsend
        exact hqsend hr.sends
      rw [if_neg hne, charge, if_neg hqsend]
  · rw [selectNextHop_none fun route hroute _ => Bool.eq_false_iff.2 fun hsend => hsome ⟨route, hroute, hsend⟩, has_list,
      if_pos rfl, h.retainLive_eq]

end
end LearnedRouteTable
end Fips
