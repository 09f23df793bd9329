import Mathlib.Data.List.Dedup
import Bgpgg.Rib.ArcIdentity

namespace Bgpgg.Rib.LocRib

open Net Wire List

section

variable {Alloc : Type}

variable {before after : LocRib Alloc}

-- A key outside the delta has the paths, or the best path, it had: the same Arcs.
structure Covers (delta : RouteDelta) (before after : LocRib Alloc) : Prop where
  best : ∀ key, key ∉ delta.bestChanged → after.getBestPath key = before.getBestPath key
  paths : ∀ key, key ∉ delta.changed → after.getAllPaths key = before.getAllPaths key

theorem Covers.refl (delta : RouteDelta) (rib : LocRib Alloc) : Covers delta rib rib := ⟨fun _ _ => rfl, fun _ _ => rfl⟩

theorem Covers.trans {first second third : LocRib Alloc} {delta later : RouteDelta} (before : Covers delta first second)
    (after : Covers later second third) : Covers (delta.extend later) first third := by
  refine ⟨?_, ?_⟩
  · intro key unlisted
    simp only [RouteDelta.extend, mem_append, not_or] at unlisted
    exact (after.best key unlisted.2).trans (before.best key unlisted.1)
  · intro key unlisted
    simp only [RouteDelta.extend, mem_append, not_or] at unlisted
    exact (after.paths key unlisted.2).trans (before.paths key unlisted.1)

theorem covers_of_touched (sound : before.ArcsSound) (renewal : Renewal before after)
    (touched : List RouteKey) (frame : ∀ key, key ∉ touched → after.getAllPaths key = before.getAllPaths key) :
    Covers ⟨touched.filter fun key => after.bestPathChanged key (before.getBestPath key), touched⟩ before after := by
  refine ⟨?_, frame⟩
  intro key unlisted
  by_cases member : key ∈ touched
  · have unchanged : after.bestPathChanged key (before.getBestPath key) = false := by
      by_contra changed
      exact unlisted (mem_filter.mpr ⟨member, by simpa using changed⟩)
    exact getBestPath_of_unchanged sound renewal unchanged
  · rw [getBestPath_eq_head, getBestPath_eq_head, frame key member]

theorem covers_of_single (sound : before.ArcsSound) (renewal : Renewal before after)
    (key : RouteKey) (frame : ∀ other, other ≠ key → after.getAllPaths other = before.getAllPaths other) :
    Covers ⟨if after.bestPathChanged key (before.getBestPath key) then [key] else [], [key]⟩ before after := by
  have covers := covers_of_touched sound renewal [key] fun other unlisted =>
    frame other (by simpa using unlisted)
  simpa only [filter_cons, filter_nil] using covers

theorem mem_getPeerRouteKeys (rib : LocRib Alloc) (peerIp : IpAddr) (key : RouteKey) :
    key ∈ rib.getPeerRouteKeys peerIp ↔ ∃ route, rib.getRoute key = some route ∧ hasPeer peerIp route = true := by
  have v4 : ∀ net route, rib.ipv4Unicast.get net = some route ↔ ⟨net, route⟩ ∈ rib.ipv4Unicast.map.entries := by
    intro net route
    exact AList.mem_lookup_iff
  have v6 : ∀ net route, rib.ipv6Unicast.get net = some route ↔ ⟨net, route⟩ ∈ rib.ipv6Unicast.map.entries := by
    intro net route
    exact AList.mem_lookup_iff
  have ls : ∀ nlri route, rib.linkState.lookup nlri = some route ↔ ⟨nlri, route⟩ ∈ rib.linkState.entries := by
    intro nlri route
    exact AList.mem_lookup_iff
  cases key with
  | pfx net => cases net <;> simp [getPeerRouteKeys, getRoute, v4, v6]
  | linkState nlri => simp [getPeerRouteKeys, getRoute, ls]

end

section

variable {Alloc : Type} [PathIdAllocator Alloc]

variable (rib : LocRib Alloc) (key other : RouteKey) (peerIp : IpAddr) (importPolicy : ImportPolicy)
  (pendingRoutes : List PendingRoute) (state : LocRib Alloc × List RouteKey)

theorem getAllPaths_removePeerPath_other (remotePathId : Option UInt32) (different : other ≠ key) :
    (rib.removePeerPath key peerIp remotePathId).getAllPaths other = rib.getAllPaths other := by
  have removed := getAllPaths_removePaths rib key other (isWithdrawnBy peerIp remotePathId)
  rw [if_neg different] at removed
  exact removed

theorem getAllPaths_upsertPath_other (path : Path) (different : other ≠ key) :
    (rib.upsertPath key path).2.getAllPaths other = rib.getAllPaths other := by
  cases limit : rib.lsLimitReached key with
  | true => rw [upsertPath_refused rib key path limit]
  | false =>
    obtain ⟨-, paths, effect⟩ := upsertPath_accepted rib key path limit
    rw [effect.getAllPaths, if_neg different]

theorem getAllPaths_applyPending_other (pending : PendingRoute) (other : RouteKey) (different : other ≠ pending.routeKey) :
    (applyPending peerIp importPolicy state pending).1.getAllPaths other = state.1.getAllPaths other := by
  apply applyPending_keeps (motive := fun next => next.getAllPaths other = state.1.getAllPaths other) peerIp rfl
  · exact fun remotePathId => getAllPaths_removePeerPath_other state.1 _ other peerIp remotePathId different
  · rintro key announced rfl -
    exact getAllPaths_upsertPath_other state.1 key other _ different

theorem getAllPaths_pending_other (other : RouteKey) (absent : other ∉ pendingRoutes.map PendingRoute.routeKey) :
    (pendingRoutes.foldl (applyPending peerIp importPolicy) state).1.getAllPaths other = state.1.getAllPaths other := by
  induction pendingRoutes generalizing state with
  | nil => rfl
  | cons pending rest ih =>
    rw [map_cons, mem_cons, not_or] at absent
    rw [foldl_cons, ih _ absent.2]
    exact getAllPaths_applyPending_other peerIp importPolicy state pending other absent.1

theorem applyPeerUpdate_covers (importPolicy : ImportPolicy) (sound : rib.ArcsSound)
    (harmless : ∀ key ∈ (pendingRoutes.foldl (applyPending peerIp importPolicy) (rib, [])).2,
      (rib.applyPeerUpdate peerIp pendingRoutes importPolicy).1.getAllPaths key = rib.getAllPaths key) :
    Covers (rib.applyPeerUpdate peerIp pendingRoutes importPolicy).2 rib
      (rib.applyPeerUpdate peerIp pendingRoutes importPolicy).1 := by
  refine covers_of_touched sound (pending_renewal peerIp importPolicy pendingRoutes (rib, [])) _ ?_
  intro key untouched
  by_cases rejected : key ∈ (pendingRoutes.foldl (applyPending peerIp importPolicy) (rib, [])).2
  · exact harmless key rejected
  · refine getAllPaths_pending_other peerIp importPolicy pendingRoutes (rib, []) key fun member => untouched ?_
    refine mem_filter.mpr ⟨mem_dedup.mpr member, ?_⟩
    simpa using rejected

theorem upsertPath_covers (key : RouteKey) (path : Path) (sound : rib.ArcsSound) :
    Covers ⟨if (rib.upsertPath key path).2.bestPathChanged key (rib.getBestPath key) then [key] else [], [key]⟩ rib
      (rib.upsertPath key path).2 :=
  covers_of_single sound (upsertPath_renewal rib key path) key fun other different =>
    getAllPaths_upsertPath_other rib key other path different

omit [PathIdAllocator Alloc] in
theorem retained_of_nothing_freed {key : RouteKey} {shouldRemove : Path → Bool}
    (identified : ∀ path ∈ rib.getAllPaths key, path.value.localPathId.isSome = true)
    (nothing : (rib.removePaths key shouldRemove).1 = []) :
    retained shouldRemove (rib.getAllPaths key) = rib.getAllPaths key := by
  rw [retained, filter_eq_self]
  intro path member
  by_contra removed
  rw [removePaths_freed, localIds, filterMap_eq_nil_iff] at nothing
  have unidentified := nothing path (mem_filter.mpr ⟨member, by simpa using removed⟩)
  have identifiedPath := identified path member
  rw [unidentified] at identifiedPath
  cases identifiedPath

theorem removeLocalRoute_covers (key : RouteKey) (sound : rib.ArcsSound)
    (identified : ∀ path ∈ rib.getAllPaths key, path.value.localPathId.isSome = true) :
    Covers (rib.removeLocalRoute key).2 rib (rib.removeLocalRoute key).1 := by
  have frame : ∀ other, other ≠ key → (rib.removePaths key isLocal).2.getAllPaths other = rib.getAllPaths other := by
    intro other different
    rw [getAllPaths_removePaths, if_neg different]
  by_cases nothing : (rib.removePaths key isLocal).1 = []
  · have result : rib.removeLocalRoute key = ((rib.removePaths key isLocal).2, .new) := by
      simp [removeLocalRoute, nothing]
    have same : ∀ other, (rib.removePaths key isLocal).2.getAllPaths other = rib.getAllPaths other := by
      intro other
      by_cases here : other = key
      · subst here
        rw [getAllPaths_removePaths, if_pos rfl, retained_of_nothing_freed rib identified nothing]
      · exact frame other here
    rw [result]
    refine ⟨fun other _ => ?_, fun other _ => same other⟩
    rw [getBestPath_eq_head, getBestPath_eq_head, same other]
  · have result : rib.removeLocalRoute key = ((rib.removeLocalRoute key).1, {
        bestChanged := if (rib.removeLocalRoute key).1.bestPathChanged key (rib.getBestPath key) then [key] else []
        changed := [key] }) := by
      simp [removeLocalRoute, nothing]
    rw [result]
    refine covers_of_single sound (removeLocalRoute_renewal rib key) key fun other different => ?_
    rw [removeLocalRoute_rib]
    exact frame other different

theorem removeRoutesFromPeer_covers (sound : rib.ArcsSound) :
    Covers (rib.removeRoutesFromPeer peerIp).2 rib (rib.removeRoutesFromPeer peerIp).1 := by
  refine covers_of_touched sound (clearPeerPaths_renewal rib peerIp) _ ?_
  intro key untouched
  rw [getAllPaths_clearPeerPaths, retained, filter_eq_self]
  intro path member
  by_contra mine
  refine untouched ((mem_getPeerRouteKeys rib peerIp key).mpr ?_)
  cases found : rib.getRoute key with
  | none =>
    rw [getAllPaths, found] at member
    cases member
  | some route =>
    rw [getAllPaths, found] at member
    exact ⟨route, rfl, any_eq_true.mpr ⟨path, member, by simpa using mine⟩⟩

theorem handleStaleKey_covers (strategy : StaleStrategy) {start rib : LocRib Alloc}
    {delta : RouteDelta} (key : RouteKey) (sound : rib.ArcsSound) (covers : Covers delta start rib) :
    Covers (handleStaleKey peerIp strategy (rib, delta) key).2 start
      (handleStaleKey peerIp strategy (rib, delta) key).1 := by
  have renewal := handleStaleKey_renewal peerIp strategy rib delta key
  cases handleStaleKey_cases peerIp strategy rib delta key with
  | inl idle =>
    rw [idle.2]
    exact covers
  | inr active =>
    obtain ⟨route, found, effect, extended⟩ := active
    rw [extended]
    refine covers.trans (covers_of_single sound renewal key fun other different => ?_)
    rw [effect.getAllPaths, if_neg different]

theorem handleStale_covers (afiSafis : List AfiSafi) (strategy : StaleStrategy) (sound : rib.ArcsSound) :
    Covers (rib.handleStale peerIp afiSafis strategy).2 rib (rib.handleStale peerIp afiSafis strategy).1 := by
  have stepKept : ∀ (state : LocRib Alloc × RouteDelta) (key : RouteKey), state.1.ArcsSound ∧ Covers state.2 rib state.1 →
      (handleStaleKey peerIp strategy state key).1.ArcsSound ∧
        Covers (handleStaleKey peerIp strategy state key).2 rib (handleStaleKey peerIp strategy state key).1 := by
    intro state key holds
    exact ⟨handleStaleKey_arcsSound peerIp strategy state.1 state.2 key holds.1,
      handleStaleKey_covers peerIp strategy key holds.1 holds.2⟩
  exact (handleStale_fold (fun state => state.1.ArcsSound ∧ Covers state.2 rib state.1) stepKept rib
    afiSafis ⟨sound, .refl _ rib⟩).2

end

end Bgpgg.Rib.LocRib
