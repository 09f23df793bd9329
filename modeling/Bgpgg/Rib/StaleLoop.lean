import Bgpgg.Rib.LocRibView

namespace Bgpgg.Rib

open Net List

section

variable (peerIp : IpAddr) (strategy : StaleStrategy) (path : Path)

def StaleStrategy.drops : Bool := match strategy with
  | .sweep => true
  | .transitionToLlgr => path.attrs.communities.contains NO_LLGR

def StaleStrategy.tag : Path := match strategy with
  | .sweep => path
  | .transitionToLlgr =>
    if path.attrs.communities.contains LLGR_STALE then path
    else { path with attrs := { path.attrs with communities := path.attrs.communities ++ [LLGR_STALE] } }

def staleDropped : Bool := isStaleOf peerIp path && strategy.drops path

def staleTagged : Path := if isStaleOf peerIp path then strategy.tag path else path

theorem strategy_apply_eq (fresh : Nat) (path : Arc Path) :
    strategy.apply fresh path = if strategy.drops path.value then none else some ⟨fresh, strategy.tag path.value⟩ := by
  cases strategy with
  | sweep => rfl
  | transitionToLlgr =>
    simp only [StaleStrategy.apply, StaleStrategy.drops, StaleStrategy.tag]
    by_cases refused : path.value.attrs.communities.contains NO_LLGR = true
    · rw [if_pos refused, if_pos refused]
    · by_cases tagged : path.value.attrs.communities.contains LLGR_STALE = true
      · rw [if_pos tagged, if_pos tagged]
      · rw [if_neg tagged, if_neg tagged]

theorem staleTagged_cases : staleTagged peerIp strategy path = path ∨ staleTagged peerIp strategy path =
      { path with attrs := { path.attrs with communities := path.attrs.communities ++ [LLGR_STALE] } } := by
  unfold staleTagged
  split
  · cases strategy with
    | sweep => exact .inl rfl
    | transitionToLlgr =>
      rw [StaleStrategy.tag]
      split
      · exact .inl rfl
      · exact .inr rfl
  · exact .inl rfl

end

section

variable {Alloc : Type} [PathIdAllocator Alloc] (peerIp : IpAddr) (strategy : StaleStrategy)

variable (paths : List (Arc Path)) (pathIds : Alloc) (arcs : Nat)

theorem applyStaleLoop_values : (applyStaleLoop peerIp strategy paths pathIds arcs).1.map Arc.value =
      (paths.filter fun path => !staleDropped peerIp strategy path.value).map fun path =>
        staleTagged peerIp strategy path.value := by
  induction paths generalizing pathIds arcs with
  | nil => rfl
  | cons path rest ih =>
    by_cases stale : isStaleOf peerIp path.value = true
    · by_cases dropped : strategy.drops path.value = true
      · simp [applyStaleLoop, strategy_apply_eq, staleDropped, stale, dropped, ih]
      · simp [applyStaleLoop, strategy_apply_eq, staleDropped, staleTagged, stale, dropped, ih]
    · simp [applyStaleLoop, staleDropped, staleTagged, stale, ih]

theorem applyStaleLoop_pathIds : (applyStaleLoop peerIp strategy paths pathIds arcs).2.1 =
      freeAll pathIds (localIds (paths.filter fun path => staleDropped peerIp strategy path.value)) := by
  induction paths generalizing pathIds arcs with
  | nil => rfl
  | cons path rest ih =>
    by_cases stale : isStaleOf peerIp path.value = true
    · by_cases dropped : strategy.drops path.value = true
      · cases ident : path.value.localPathId with
        | none => simp [applyStaleLoop, strategy_apply_eq, staleDropped, stale, dropped, ih, localIds, ident]
        | some id =>
          simp [applyStaleLoop, strategy_apply_eq, staleDropped, stale, dropped, ih, localIds, ident, freeAll]
      · simp [applyStaleLoop, strategy_apply_eq, staleDropped, stale, dropped, ih]
    · simp [applyStaleLoop, staleDropped, stale, ih]

theorem applyStaleLoop_arcs : arcs ≤ (applyStaleLoop peerIp strategy paths pathIds arcs).2.2 ∧
      ∀ kept ∈ (applyStaleLoop peerIp strategy paths pathIds arcs).1,
        kept ∈ paths ∨ arcs ≤ kept.ptr ∧ kept.ptr < (applyStaleLoop peerIp strategy paths pathIds arcs).2.2 := by
  induction paths generalizing pathIds arcs with
  | nil => exact ⟨Nat.le_refl _, fun kept member => by cases member⟩
  | cons path rest ih =>
    by_cases stale : isStaleOf peerIp path.value = true
    · by_cases dropped : strategy.drops path.value = true
      · simp only [applyStaleLoop, stale, strategy_apply_eq, dropped]
        refine ⟨Nat.le_of_succ_le (ih _ _).1, fun kept member => ?_⟩
        rcases (ih _ _).2 kept member with old | ⟨low, high⟩
        · exact .inl (mem_cons_of_mem _ old)
        · exact .inr ⟨Nat.le_of_succ_le low, high⟩
      · obtain ⟨grows, origin⟩ := ih pathIds (arcs + 1)
        simp only [applyStaleLoop, stale, strategy_apply_eq, dropped, Bool.false_eq_true]
        refine ⟨Nat.le_of_succ_le grows, fun kept member => ?_⟩
        rcases mem_cons.mp member with rfl | later
        · exact .inr ⟨Nat.le_refl _, grows⟩
        · rcases origin kept later with old | ⟨low, high⟩
          · exact .inl (mem_cons_of_mem _ old)
          · exact .inr ⟨Nat.le_of_succ_le low, high⟩
    · obtain ⟨grows, origin⟩ := ih pathIds arcs
      simp only [applyStaleLoop, stale, Bool.false_eq_true]
      refine ⟨grows, fun kept member => ?_⟩
      rcases mem_cons.mp member with rfl | later
      · exact .inl mem_cons_self
      · rcases origin kept later with old | fresh
        · exact .inl (mem_cons_of_mem _ old)
        · exact .inr fresh

theorem applyStaleLoop_distinct (below : ∀ path ∈ paths, path.ptr < arcs) (distinct : (paths.map Arc.ptr).Nodup) :
    ((applyStaleLoop peerIp strategy paths pathIds arcs).1.map Arc.ptr).Nodup := by
  induction paths generalizing pathIds arcs with
  | nil => exact nodup_nil
  | cons path rest ih =>
    obtain ⟨apart, restDistinct⟩ := nodup_cons.mp distinct
    have headBelow := below path mem_cons_self
    have restBelow : ∀ other ∈ rest, other.ptr < arcs := fun other member => below other (mem_cons_of_mem _ member)
    have restLater : ∀ other ∈ rest, other.ptr < arcs + 1 := fun other member => Nat.lt_succ_of_lt (restBelow other member)
    by_cases stale : isStaleOf peerIp path.value = true
    · by_cases dropped : strategy.drops path.value = true
      · simp only [applyStaleLoop, stale, strategy_apply_eq, dropped]
        exact ih _ (arcs + 1) restLater restDistinct
      · simp only [applyStaleLoop, stale, if_true, strategy_apply_eq, dropped, Bool.false_eq_true, if_false, map_cons]
        refine nodup_cons.mpr ⟨?_, ih pathIds (arcs + 1) restLater restDistinct⟩
        intro member
        obtain ⟨kept, keptMember, same⟩ := mem_map.mp member
        cases (applyStaleLoop_arcs peerIp strategy rest pathIds (arcs + 1)).2 kept keptMember with
        | inl old =>
          have low := restBelow kept old
          omega
        | inr fresh => omega
    · simp only [applyStaleLoop, stale]
      refine nodup_cons.mpr ⟨?_, ih pathIds arcs restBelow restDistinct⟩
      intro member
      obtain ⟨kept, keptMember, same⟩ := mem_map.mp member
      cases (applyStaleLoop_arcs peerIp strategy rest pathIds arcs).2 kept keptMember with
      | inl old => exact apart (same ▸ mem_map_of_mem old)
      | inr fresh => omega

end

namespace LocRib

variable {Alloc : Type} [PathIdAllocator Alloc]

structure StaleEffect (peerIp : IpAddr) (strategy : StaleStrategy) (key : RouteKey) (rib final : LocRib Alloc)
    (route : LocRoute) : Prop where
  routes : ∀ other, final.getRoute other = if other = key then
      (some { route with
        paths := sortPaths (applyStaleLoop peerIp strategy route.paths rib.pathIds rib.arcs).1 }).filter
        fun route => !route.paths.isEmpty
    else rib.getRoute other
  pathIds : final.pathIds = (applyStaleLoop peerIp strategy route.paths rib.pathIds rib.arcs).2.1
  arcs : final.arcs = (applyStaleLoop peerIp strategy route.paths rib.pathIds rib.arcs).2.2
  config : final.config = rib.config

section

variable {peerIp : IpAddr} (strategy : StaleStrategy) {rib : LocRib Alloc} (delta : RouteDelta) {key : RouteKey}

theorem handleStaleKey_idle (idle : ∀ path ∈ rib.getAllPaths key, isStaleOf peerIp path.value = false) :
    handleStaleKey peerIp strategy (rib, delta) key = (rib, delta) := by
  cases found : rib.getRoute key with
  | none => simp [handleStaleKey, found]
  | some route =>
    have noneStale : hasStale peerIp route = false := by simpa [hasStale, getAllPaths, found] using idle
    simp [handleStaleKey, found, noneStale]

theorem handleStaleKey_cases (peerIp : IpAddr) (strategy : StaleStrategy) (rib : LocRib Alloc) (delta : RouteDelta)
    (key : RouteKey) : (∀ path ∈ rib.getAllPaths key, isStaleOf peerIp path.value = false) ∧
        handleStaleKey peerIp strategy (rib, delta) key = (rib, delta) ∨
      ∃ route, rib.getRoute key = some route ∧
        StaleEffect peerIp strategy key rib (handleStaleKey peerIp strategy (rib, delta) key).1 route ∧
        (handleStaleKey peerIp strategy (rib, delta) key).2 = {
          bestChanged := delta.bestChanged ++
            if (handleStaleKey peerIp strategy (rib, delta) key).1.bestPathChanged key (rib.getBestPath key) then [key]
            else []
          changed := delta.changed ++ [key] } := by
  by_cases idle : ∀ path ∈ rib.getAllPaths key, isStaleOf peerIp path.value = false
  · exact .inl ⟨idle, handleStaleKey_idle strategy delta idle⟩
  · cases found : rib.getRoute key with
    | none => exact absurd (by simp [getAllPaths, found]) idle
    | some route =>
      have stale : hasStale peerIp route = true := by simpa [hasStale, getAllPaths, found] using idle
      refine .inr ⟨route, rfl, ?_⟩
      simp only [handleStaleKey, found, stale, Bool.not_true, Bool.false_eq_true, if_false, and_true]
      generalize loop : applyStaleLoop peerIp strategy route.paths rib.pathIds rib.arcs = result
      have sameConfig : ∀ newRoute, (rib.writeRoute key newRoute).config = rib.config := by
        intro newRoute
        rcases key with (net | net) | nlri <;> rfl
      have removed : ∀ written : LocRib Alloc, (written.removeRouteEntry key).pathIds = written.pathIds ∧
          (written.removeRouteEntry key).arcs = written.arcs ∧ (written.removeRouteEntry key).config = written.config := by
        intro written
        rcases key with (net | net) | nlri <;> exact ⟨rfl, rfl, rfl⟩
      by_cases empty : (sortPaths result.1).isEmpty = true
      · rw [if_pos empty]
        refine ⟨?_, by rw [(removed _).1, loop], by rw [(removed _).2.1, loop], by rw [(removed _).2.2]; exact sameConfig _⟩
        intro other
        rw [getRoute_removeRouteEntry, loop, Option.filter_some_neg (by simp [empty])]
        by_cases same : other = key
        · rw [if_pos same, if_pos same]
        · rw [if_neg same, if_neg same, getRoute_withIds, getRoute_writeRoute, if_neg same]
      · rw [if_neg empty]
        refine ⟨?_, by rw [loop], by rw [loop], sameConfig _⟩
        intro other
        rw [loop, Option.filter_some_pos (by simp [empty]), getRoute_withIds, getRoute_writeRoute]

theorem StaleEffect.getAllPaths {strategy : StaleStrategy}
    {rib final : LocRib Alloc} {route : LocRoute} (effect : StaleEffect peerIp strategy key rib final route)
    (other : RouteKey) : final.getAllPaths other =
      if other = key then sortPaths (applyStaleLoop peerIp strategy route.paths rib.pathIds rib.arcs).1
      else rib.getAllPaths other := by
  rw [LocRib.getAllPaths, effect.routes]
  by_cases same : other = key
  · rw [if_pos same, if_pos same, getAllPaths_filter_nonempty]
    rfl
  · rw [if_neg same, if_neg same, LocRib.getAllPaths]

theorem handleStaleKey_values (peerIp : IpAddr) (strategy : StaleStrategy) (rib : LocRib Alloc) (delta : RouteDelta)
    (key other : RouteKey) : (((handleStaleKey peerIp strategy (rib, delta) key).1.getAllPaths other).map Arc.value).Perm
      (if other = key then ((rib.getAllPaths other).filter fun path => !staleDropped peerIp strategy path.value).map
        fun path => staleTagged peerIp strategy path.value else (rib.getAllPaths other).map Arc.value) := by
  cases handleStaleKey_cases peerIp strategy rib delta key with
  | inl idle =>
    rw [idle.2]
    split
    next here =>
      subst here
      rw [filter_eq_self.mpr fun path member => by simp [staleDropped, idle.1 path member]]
      exact .of_eq (map_congr_left fun path member => by simp [staleTagged, idle.1 path member])
    next => exact .refl _
  | inr active =>
    obtain ⟨route, found, effect, -⟩ := active
    rw [effect.getAllPaths]
    split
    next here =>
      have stored : rib.getAllPaths other = route.paths := by simp [getAllPaths, here, found]
      rw [stored, ← applyStaleLoop_values peerIp strategy route.paths rib.pathIds rib.arcs]
      exact (sortBy_perm _ _).map _
    next => exact .refl _

theorem mem_handleStaleKey {strategy : StaleStrategy} {delta : RouteDelta} {key other : RouteKey} {path : Arc Path}
    (member : path ∈ (handleStaleKey peerIp strategy (rib, delta) key).1.getAllPaths other) :
    ∃ old ∈ rib.getAllPaths other, other ≠ key ∧ old.value = path.value ∨
      staleDropped peerIp strategy old.value = false ∧ staleTagged peerIp strategy old.value = path.value := by
  have value := (handleStaleKey_values peerIp strategy rib delta key other).mem_iff.mp (mem_map_of_mem member)
  split at value
  next here =>
    obtain ⟨old, kept, same⟩ := mem_map.mp value
    exact ⟨old, mem_of_mem_filter kept, .inr ⟨by simpa using (mem_filter.mp kept).2, same⟩⟩
  next different =>
    obtain ⟨old, listed, same⟩ := mem_map.mp value
    exact ⟨old, listed, .inl ⟨different, same⟩⟩

end

theorem handleStale_fold {peerIp : IpAddr} {strategy : StaleStrategy} (property : LocRib Alloc × RouteDelta → Prop)
    (kept : ∀ state key, property state → property (handleStaleKey peerIp strategy state key))
    (rib : LocRib Alloc) (afiSafis : List AfiSafi) (initial : property (rib, .new)) :
    property (rib.handleStale peerIp afiSafis strategy) := by
  refine List.foldlRecOn afiSafis _ initial fun state holds family _ => ?_
  exact List.foldlRecOn _ _ holds fun state holds key _ => kept state key holds

theorem handleStale_invariant {peerIp : IpAddr} {strategy : StaleStrategy} (property : LocRib Alloc → Prop)
    (kept : ∀ rib delta key, property rib → property (handleStaleKey peerIp strategy (rib, delta) key).1)
    (rib : LocRib Alloc) (afiSafis : List AfiSafi) (initial : property rib) :
    property (rib.handleStale peerIp afiSafis strategy).1 :=
  handleStale_fold (fun state => property state.1) (fun state key => kept state.1 state.2 key) rib afiSafis initial

end LocRib

end Bgpgg.Rib
