import Bgpgg.Rib.LocRib

namespace Bgpgg.Rib

open Net Wire Lib Table AssocMap

section

variable {Item Result : Type}

variable (test : Item → Bool) (change : Item → Item) (items : List Item)

theorem find_none_of (missing : items.find? test = none) : ∀ item ∈ items, test item = false := by
  intro item member
  simpa using List.find?_eq_none.mp missing item member

theorem map_updateFirst (project : Item → Result) (items : List Item)
    (same : ∀ found, items.find? test = some found → project (change found) = project found) :
    (updateFirst test change items).map project = items.map project := by
  induction items with
  | nil => rfl
  | cons item rest ih =>
    by_cases found : test item = true
    · simp [updateFirst, if_pos found, same item (by simp [found])]
    · simp only [updateFirst, if_neg found, List.map_cons]
      rw [ih fun other search => same other (by simpa [found] using search)]

theorem mem_updateFirst (item : Item) (member : item ∈ updateFirst test change items) :
    item ∈ items ∨ ∃ found, items.find? test = some found ∧ item = change found := by
  induction items with
  | nil => cases member
  | cons head rest ih =>
    by_cases found : test head = true
    · simp only [updateFirst, if_pos found, List.mem_cons] at member
      rcases member with rfl | later
      · exact .inr ⟨head, by simp [found], rfl⟩
      · exact .inl (List.mem_cons_of_mem _ later)
    · simp only [updateFirst, if_neg found, List.mem_cons] at member
      rcases member with rfl | later
      · exact .inl List.mem_cons_self
      · rcases ih later with old | ⟨other, search, same⟩
        · exact .inl (List.mem_cons_of_mem _ old)
        · exact .inr ⟨other, by simpa [found] using search, same⟩

theorem updateFirst_ne_nil (nonempty : items ≠ []) : updateFirst test change items ≠ [] := by
  cases items with
  | nil => exact absurd rfl nonempty
  | cons head rest =>
    by_cases found : test head = true <;> simp [updateFirst, found]

end

namespace LocRib

section

variable {Alloc : Type}

variable (rib : LocRib Alloc) (key other : RouteKey) (shouldRemove : Path → Bool)

@[simp] theorem getRoute_withIds (pathIds : Alloc) (arcs : Nat) (key : RouteKey) :
    ({ rib with pathIds := pathIds, arcs := arcs } : LocRib Alloc).getRoute key = rib.getRoute key := by
  cases key with
  | pfx net => cases net <;> rfl
  | linkState nlri => rfl

section

variable (peerIp : IpAddr) (afiSafi : AfiSafi) (route : LocRoute)

@[simp] theorem getRoute_writeRoute :
    (rib.writeRoute key route).getRoute other = if other = key then some route else rib.getRoute other := by
  cases key with
  | pfx net =>
    cases net with
    | v4 net | v6 net =>
      cases other with
      | pfx target => cases target <;> simp [writeRoute, getRoute]
      | linkState target => simp [writeRoute, getRoute]
  | linkState nlri =>
    cases other with
    | pfx target => cases target <;> simp [writeRoute, getRoute]
    | linkState target => simp [writeRoute, getRoute, lookup_insert_if]

theorem lookup_ensure (table : AssocMap LsNlri LocRoute) (nlri other : LsNlri) (route : LocRoute) :
    (if contains table nlri then table else table.insert nlri route).lookup other =
      if other = nlri then some ((table.lookup nlri).getD route) else table.lookup other := by
  cases found : table.lookup nlri with
  | none => simp [contains, found, lookup_insert_if]
  | some stored =>
    by_cases same : other = nlri
    · subst same
      simp [contains, found]
    · simp [contains, found, same]

@[simp] theorem getRoute_ensureRoute : (rib.ensureRoute key).getRoute other =
      if other = key then some ((rib.getRoute key).getD ⟨key, []⟩) else rib.getRoute other := by
  cases key with
  | pfx net =>
    cases net with
    | v4 net | v6 net =>
      cases other with
      | pfx target => cases target <;> simp [ensureRoute, getRoute]
      | linkState target => simp [ensureRoute, getRoute]
  | linkState nlri =>
    have linkStateOf : (rib.ensureRoute (.linkState nlri)).linkState = if contains rib.linkState nlri then rib.linkState
        else rib.linkState.insert nlri ⟨.linkState nlri, []⟩ := by
      by_cases stored : contains rib.linkState nlri = true <;> simp [ensureRoute, stored]
    cases other with
    | pfx target =>
      have apart : RouteKey.pfx target ≠ .linkState nlri := by intro same; cases same
      rw [if_neg apart]
      by_cases stored : contains rib.linkState nlri = true
      · rw [ensureRoute, if_pos stored]
      · rw [ensureRoute, if_neg stored]
        cases target <;> rfl
    | linkState target =>
      rw [getRoute, linkStateOf, lookup_ensure]
      simp [getRoute]

@[simp] theorem getRoute_removeRouteEntry :
    (rib.removeRouteEntry key).getRoute other = if other = key then none else rib.getRoute other := by
  cases key with
  | pfx net =>
    cases net with
    | v4 net | v6 net =>
      cases other with
      | pfx target => cases target <;> simp [removeRouteEntry, getRoute]
      | linkState target => simp [removeRouteEntry, getRoute]
  | linkState nlri =>
    cases other with
    | pfx target => cases target <;> simp [removeRouteEntry, getRoute]
    | linkState target => simp [removeRouteEntry, getRoute, lookup_erase_if]

-- What get_routes ranges over: the keys of the table that holds a family. Both
-- link-state families share one table.
def familyHolds (key : RouteKey) : Bool := match afiSafi.afi, afiSafi.safi, key with
  | .ipv4, .unicast, .pfx (.v4 _) => true
  | .ipv6, .unicast, .pfx (.v6 _) => true
  | .linkState, .linkState, .linkState _ => true
  | .linkState, .linkStateVpn, .linkState _ => true
  | _, _, _ => false

def LINK_STATE : AfiSafi := ⟨.linkState, .linkState⟩
def LINK_STATE_VPN : AfiSafi := ⟨.linkState, .linkStateVpn⟩

def SharesTable (first second : AfiSafi) : Prop :=
  first = LINK_STATE ∧ second = LINK_STATE_VPN ∨ first = LINK_STATE_VPN ∧ second = LINK_STATE

theorem familyHolds_iff {marked : AfiSafi} {key : RouteKey} :
    familyHolds marked key = true ↔ marked = key.afiSafi ∨ SharesTable marked key.afiSafi := by
  obtain ⟨afi, safi⟩ := marked
  cases key with
  | pfx net =>
    cases net <;> cases afi <;> cases safi <;>
      simp [familyHolds, RouteKey.afiSafi, IpNetwork.afiSafi, SharesTable, LINK_STATE, LINK_STATE_VPN]
  | linkState nlri =>
    cases vpn : nlri.isVpn <;> cases afi <;> cases safi <;>
      simp [familyHolds, RouteKey.afiSafi, LsNlri.safi, vpn, SharesTable, LINK_STATE, LINK_STATE_VPN]

theorem mem_getRoutes : route ∈ rib.getRoutes afiSafi ↔ ∃ key, familyHolds afiSafi key = true ∧ rib.getRoute key = some route := by
  obtain ⟨afi, safi⟩ := afiSafi
  constructor
  · intro member
    cases afi <;> cases safi <;> simp only [getRoutes, List.not_mem_nil, PrefixMap.mem_values_iff, mem_values_iff] at member
    · obtain ⟨net, found⟩ := member
      exact ⟨.pfx (.v4 net), rfl, found⟩
    · obtain ⟨net, found⟩ := member
      exact ⟨.pfx (.v6 net), rfl, found⟩
    · obtain ⟨nlri, found⟩ := member
      exact ⟨.linkState nlri, rfl, found⟩
    · obtain ⟨nlri, found⟩ := member
      exact ⟨.linkState nlri, rfl, found⟩
  · rintro ⟨key, holds, found⟩
    cases key with
    | pfx net =>
      cases net with
      | v4 net => cases afi <;> cases safi <;> first | exact (PrefixMap.mem_values_iff _ _).mpr ⟨net, found⟩ | cases holds
      | v6 net => cases afi <;> cases safi <;> first | exact (PrefixMap.mem_values_iff _ _).mpr ⟨net, found⟩ | cases holds
    | linkState nlri => cases afi <;> cases safi <;> first | exact (mem_values_iff _ _).mpr ⟨nlri, found⟩ | cases holds

theorem getRoute_markPeerRoutesStale (key : RouteKey) : (rib.markPeerRoutesStale peerIp afiSafi).getRoute key =
      if familyHolds afiSafi key then (rib.getRoute key).map (markStale peerIp) else rib.getRoute key := by
  obtain ⟨afi, safi⟩ := afiSafi
  cases key with
  | pfx net =>
    cases net with
    | v4 net | v6 net => cases afi <;> cases safi <;> simp [markPeerRoutesStale, getRoute, familyHolds]
  | linkState nlri =>
    cases afi <;> cases safi <;> simp [markPeerRoutesStale, getRoute, familyHolds, lookup_filterMapValues, Option.map_eq_bind]

theorem getAllPaths_markPeerRoutesStale (key : RouteKey) : (rib.markPeerRoutesStale peerIp afiSafi).getAllPaths key =
      if familyHolds afiSafi key then (markStale peerIp ⟨key, rib.getAllPaths key⟩).paths else rib.getAllPaths key := by
  rw [getAllPaths, getRoute_markPeerRoutesStale, getAllPaths]
  split
  · cases rib.getRoute key <;> rfl
  · rfl

end

theorem getBestPath_eq_head (key : RouteKey) : rib.getBestPath key = (rib.getAllPaths key).head? := by
  rw [getBestPath, getAllPaths]
  cases rib.getRoute key <;> rfl

def retained (shouldRemove : Path → Bool) (paths : List (Arc Path)) : List (Arc Path) := paths.filter fun path => !shouldRemove path.value

theorem removePaths_some {key : RouteKey} (shouldRemove : Path → Bool) {route : LocRoute} (found : rib.getRoute key = some route) :
    rib.removePaths key shouldRemove = (localIds (route.paths.filter fun path => shouldRemove path.value),
        if (retained shouldRemove route.paths).isEmpty then rib.removeRouteEntry key
        else rib.writeRoute key { route with paths := retained shouldRemove route.paths }) := by
  simp only [removePaths, found, removePathsFromRoute]
  exact (apply_ite (Prod.mk _) _ _ _).symm

theorem removePaths_freed (key : RouteKey) (shouldRemove : Path → Bool) : (rib.removePaths key shouldRemove).1 =
      localIds ((rib.getAllPaths key).filter fun path => shouldRemove path.value) := by
  cases found : rib.getRoute key with
  | none => simp [removePaths, getAllPaths, found, localIds]
  | some route => rw [removePaths_some rib shouldRemove found, getAllPaths, found]; rfl

theorem getRoute_removePaths : (rib.removePaths key shouldRemove).2.getRoute other = if other = key then
        ((rib.getRoute key).map fun route => { route with paths := retained shouldRemove route.paths }).filter
          fun route => !route.paths.isEmpty
      else rib.getRoute other := by
  cases found : rib.getRoute key with
  | none =>
    by_cases same : other = key
    · subst same
      simp [removePaths, found]
    · simp [removePaths, found, same]
  | some route =>
    rw [removePaths_some rib shouldRemove found]
    by_cases empty : (retained shouldRemove route.paths).isEmpty = true
    · rw [if_pos empty, getRoute_removeRouteEntry, Option.map_some, Option.filter_some_neg (by simp [empty])]
    · rw [if_neg empty, getRoute_writeRoute, Option.map_some, Option.filter_some_pos (by simp [empty])]

theorem getAllPaths_filter_nonempty (route : Option LocRoute) :
    ((route.filter fun route => !route.paths.isEmpty).map Route.paths).getD [] = (route.map Route.paths).getD [] := by
  cases route with
  | none => rfl
  | some route =>
    by_cases empty : route.paths.isEmpty = true
    · rw [Option.filter_some_neg (by simp [empty])]
      simpa using empty.symm
    · rw [Option.filter_some_pos (by simp [empty])]

theorem getAllPaths_removePaths : (rib.removePaths key shouldRemove).2.getAllPaths other =
      if other = key then retained shouldRemove (rib.getAllPaths key) else rib.getAllPaths other := by
  rw [getAllPaths, getRoute_removePaths]
  by_cases same : other = key
  · rw [if_pos same, if_pos same, getAllPaths_filter_nonempty, getAllPaths]
    cases rib.getRoute key <;> rfl
  · rw [if_neg same, if_neg same, getAllPaths]

theorem pathIds_removePaths (key : RouteKey) (shouldRemove : Path → Bool) : (rib.removePaths key shouldRemove).2.pathIds = rib.pathIds ∧
      (rib.removePaths key shouldRemove).2.arcs = rib.arcs ∧
      (rib.removePaths key shouldRemove).2.config = rib.config := by
  have removed : (rib.removeRouteEntry key).pathIds = rib.pathIds ∧ (rib.removeRouteEntry key).arcs = rib.arcs ∧
      (rib.removeRouteEntry key).config = rib.config := by
    cases key with
    | pfx net => cases net <;> exact ⟨rfl, rfl, rfl⟩
    | linkState nlri => exact ⟨rfl, rfl, rfl⟩
  have written : ∀ route, (rib.writeRoute key route).pathIds = rib.pathIds ∧
      (rib.writeRoute key route).arcs = rib.arcs ∧ (rib.writeRoute key route).config = rib.config := by
    intro route
    cases key with
    | pfx net => cases net <;> exact ⟨rfl, rfl, rfl⟩
    | linkState nlri => exact ⟨rfl, rfl, rfl⟩
  cases found : rib.getRoute key with
  | none => simp [removePaths, found]
  | some route =>
    rw [removePaths_some rib shouldRemove found]
    by_cases empty : (retained shouldRemove route.paths).isEmpty = true
    · rw [if_pos empty]
      exact removed
    · rw [if_neg empty]
      exact written _

theorem config_writeRoute_ensureRoute (key : RouteKey) (route : LocRoute) :
    ((rib.ensureRoute key).writeRoute key route).config = rib.config := by
  cases key with
  | pfx net => cases net <;> rfl
  | linkState nlri =>
    by_cases stored : contains rib.linkState nlri = true <;> simp [writeRoute, ensureRoute, stored]

end

section

variable {Alloc : Type} [PathIdAllocator Alloc]

variable (rib : LocRib Alloc) (peerIp : IpAddr) (key : RouteKey) (path : Path) (pathAttrs : PathAttrs)

@[simp] theorem getRoute_freeIds (freed : List UInt32) (key : RouteKey) : (rib.freeIds freed).getRoute key = rib.getRoute key :=
  getRoute_withIds rib (freeAll rib.pathIds freed) rib.arcs key

theorem getRoute_clearPeerPaths : (rib.clearPeerPaths peerIp).getRoute key =
      ((rib.getRoute key).map (dropPeerPaths peerIp)).filter fun route => !route.paths.isEmpty := by
  cases key with
  | pfx net => cases net <;> simp [clearPeerPaths, getRoute, freeIds]
  | linkState nlri =>
    simp only [clearPeerPaths, getRoute, freeIds, lookup_filterMapValues]
    cases rib.linkState.lookup nlri <;> rfl

theorem getAllPaths_clearPeerPaths :
    (rib.clearPeerPaths peerIp).getAllPaths key = retained (fun path => path.isFromPeer peerIp) (rib.getAllPaths key) := by
  rw [getAllPaths, getRoute_clearPeerPaths, getAllPaths_filter_nonempty, getAllPaths]
  cases rib.getRoute key <;> rfl

theorem pathIds_clearPeerPaths : (rib.clearPeerPaths peerIp).pathIds = freeAll rib.pathIds (collectPeerPathIds peerIp
      (rib.ipv4Unicast.values ++ rib.ipv6Unicast.values ++ values rib.linkState)) := by
  simp [clearPeerPaths, freeIds, freeAll, collectPeerPathIds]

inductive Upserted (path : Arc Path) (fresh : Nat) (pathIds : Alloc) (paths : List (Arc Path)) :
    List (Arc Path) → Alloc → Prop where
  | replaced (existing : Arc Path)
      (found : paths.find? (fun stored => stored.value.matchesRemote path.value) = some existing)
      (different : existing.value.attrs ≠ path.value.attrs) :
      Upserted path fresh pathIds paths
        (updateFirst (fun stored => stored.value.matchesRemote path.value)
          (fun _ => ⟨path.ptr, { path.value with localPathId := existing.value.localPathId }⟩) paths) pathIds
  | refreshed (existing : Arc Path)
      (found : paths.find? (fun stored => stored.value.matchesRemote path.value) = some existing)
      (same : existing.value.attrs = path.value.attrs) :
      Upserted path fresh pathIds paths
        (updateFirst (fun stored => stored.value.matchesRemote path.value) (refreshMetadata path.value fresh) paths)
        pathIds
  | added (missing : paths.find? (fun stored => stored.value.matchesRemote path.value) = none) :
      Upserted path fresh pathIds paths
        (paths ++ [⟨path.ptr, { path.value with localPathId := some (PathIdAllocator.alloc pathIds).1 }⟩])
        (PathIdAllocator.alloc pathIds).2

theorem upsertPathInRoute_cases (route : LocRoute) (path : Arc Path) (pathIds : Alloc) (fresh : Nat) :
    ∃ paths, Upserted path fresh pathIds route.paths paths (upsertPathInRoute route path pathIds fresh).2 ∧
      (upsertPathInRoute route path pathIds fresh).1 = { route with paths := sortPaths paths } := by
  cases found : route.paths.find? (fun stored => stored.value.matchesRemote path.value) with
  | none =>
    have result : upsertPathInRoute route path pathIds fresh = ({ route with paths := sortPaths (route.paths ++
          [⟨path.ptr, { path.value with localPathId := some (PathIdAllocator.alloc pathIds).1 }⟩]) },
          (PathIdAllocator.alloc pathIds).2) := by
      simp [upsertPathInRoute, found]
    rw [result]
    exact ⟨_, .added found, rfl⟩
  | some existing =>
    by_cases same : existing.value.attrs = path.value.attrs
    · have result : upsertPathInRoute route path pathIds fresh =
          ({ route with paths := sortPaths (updateFirst (fun stored => stored.value.matchesRemote path.value)
            (refreshMetadata path.value fresh) route.paths) }, pathIds) := by
        simp [upsertPathInRoute, found, same]
      rw [result]
      exact ⟨_, .refreshed existing found same, rfl⟩
    · have result : upsertPathInRoute route path pathIds fresh =
          ({ route with paths := sortPaths (updateFirst (fun stored => stored.value.matchesRemote path.value)
            (fun _ => ⟨path.ptr, { path.value with localPathId := existing.value.localPathId }⟩) route.paths) },
            pathIds) := by
        simp [upsertPathInRoute, found, same]
      rw [result]
      exact ⟨_, .replaced existing found same, rfl⟩

structure UpsertEffect (rib : LocRib Alloc) (key : RouteKey) (path : Path) (final : LocRib Alloc)
    (paths : List (Arc Path)) : Prop where
  upserted : Upserted ⟨rib.arcs, path⟩ (rib.arcs + 1) rib.pathIds (rib.getAllPaths key) paths final.pathIds
  routes : ∀ other, final.getRoute other =
    if other = key then some ⟨((rib.getRoute key).getD ⟨key, []⟩).key, sortPaths paths⟩ else rib.getRoute other
  arcs : final.arcs = rib.arcs + 2
  config : final.config = rib.config

theorem upsertPath_refused (limit : rib.lsLimitReached key = true) : rib.upsertPath key path = (false, rib) := by
  rw [upsertPath, if_pos limit]

theorem upsertPath_accepted (available : rib.lsLimitReached key = false) :
    (rib.upsertPath key path).1 = true ∧ ∃ paths, UpsertEffect rib key path (rib.upsertPath key path).2 paths := by
  obtain ⟨paths, upserted, written⟩ := upsertPathInRoute_cases ((rib.getRoute key).getD ⟨key, []⟩)
    ⟨rib.arcs, path⟩ rib.pathIds (rib.arcs + 1)
  have stored : ((rib.getRoute key).getD ⟨key, []⟩).paths = rib.getAllPaths key := by
    rw [getAllPaths]
    cases rib.getRoute key <;> rfl
  rw [stored] at upserted
  simp only [upsertPath, available, Bool.false_eq_true, if_false]
  refine ⟨trivial, paths, upserted, ?_, rfl, config_writeRoute_ensureRoute rib key _⟩
  intro other
  rw [getRoute_withIds, getRoute_writeRoute, getRoute_ensureRoute, written]
  by_cases same : other = key
  · rw [if_pos same, if_pos same]
  · rw [if_neg same, if_neg same, if_neg same]

theorem UpsertEffect.getAllPaths {rib final : LocRib Alloc} {key : RouteKey} {path : Path} {paths : List (Arc Path)}
    (effect : UpsertEffect rib key path final paths) (other : RouteKey) :
    final.getAllPaths other = if other = key then sortPaths paths else rib.getAllPaths other := by
  rw [LocRib.getAllPaths, effect.routes]
  by_cases same : other = key
  · rw [if_pos same, if_pos same]
    rfl
  · rw [if_neg same, if_neg same, LocRib.getAllPaths]

theorem Upserted.ne_nil {path : Arc Path} {fresh : Nat} {pathIds pathIdsAfter : Alloc} {paths result : List (Arc Path)}
    (upserted : Upserted path fresh pathIds paths result pathIdsAfter) : result ≠ [] := by
  cases upserted with
  | replaced existing found different | refreshed existing found same =>
    exact updateFirst_ne_nil _ _ _ (List.ne_nil_of_mem (List.mem_of_find?_eq_some found))
  | added missing => simp

def localPath (pathAttrs : PathAttrs) : Path where
  localPathId := none
  remotePathId := none
  stale := false
  rpkiState := .notFound
  attrs := { pathAttrs with source := .localSource, localPref := pathAttrs.localPref.or (some 100) }

theorem addLocalRoute_refused (limit : rib.lsLimitReached key = true) :
    rib.addLocalRoute key pathAttrs = (rib, .error (.maxLsEntriesReached rib.config.maxLsEntries)) := by
  simp [addLocalRoute, upsertPath_refused _ _ _ limit]

theorem addLocalRoute_accepted (available : rib.lsLimitReached key = false) :
    rib.addLocalRoute key pathAttrs = ((rib.upsertPath key (localPath pathAttrs)).2, .ok {
      bestChanged := if (rib.upsertPath key (localPath pathAttrs)).2.bestPathChanged key (rib.getBestPath key) then [key]
        else []
      changed := [key] }) := by
  obtain ⟨inserted, -⟩ := upsertPath_accepted rib key (localPath pathAttrs) available
  rw [localPath] at inserted ⊢
  simp only [addLocalRoute]
  generalize rib.upsertPath key _ = result at inserted ⊢
  obtain ⟨done, final⟩ := result
  cases inserted
  rfl

theorem addLocalRoute_rib : (rib.addLocalRoute key pathAttrs).1 = (rib.upsertPath key (localPath pathAttrs)).2 := by
  cases limit : rib.lsLimitReached key with
  | true => rw [addLocalRoute_refused rib key pathAttrs limit, upsertPath_refused _ _ _ limit]
  | false => rw [addLocalRoute_accepted rib key pathAttrs limit]

theorem removeLocalRoute_rib :
    (rib.removeLocalRoute key).1 = (rib.removePaths key isLocal).2.freeIds (rib.removePaths key isLocal).1 := by
  simp only [removeLocalRoute]
  by_cases nothing : (rib.removePaths key isLocal).1.isEmpty = true
  · rw [List.isEmpty_iff.mp nothing]
    rfl
  · rw [if_neg nothing]

inductive PendingStep (peerIp : IpAddr) (importPolicy : ImportPolicy) (rib : LocRib Alloc) (rejected : List RouteKey) :
    PendingRoute → LocRib Alloc × List RouteKey → Prop where
  | withdrawn (key : RouteKey) (remotePathId : Option UInt32) :
      PendingStep peerIp importPolicy rib rejected (.withdraw key remotePathId)
        (rib.removePeerPath key peerIp remotePathId, rejected)
  | denied (key : RouteKey) (announced : Path) (denial : (importPolicy key announced).1 = false) :
      PendingStep peerIp importPolicy rib rejected (.announce key announced)
        (rib.removePeerPath key peerIp announced.remotePathId, rejected)
  | stored (key : RouteKey) (announced : Path) (accepted : (importPolicy key announced).1 = true)
      (available : rib.lsLimitReached key = false) :
      PendingStep peerIp importPolicy rib rejected (.announce key announced)
        ((rib.upsertPath key (importPolicy key announced).2).2, rejected)
  | refused (key : RouteKey) (announced : Path) (accepted : (importPolicy key announced).1 = true)
      (limit : rib.lsLimitReached key = true) :
      PendingStep peerIp importPolicy rib rejected (.announce key announced) (rib, key :: rejected)

theorem applyPending_step (importPolicy : ImportPolicy) (state : LocRib Alloc × List RouteKey) (pending : PendingRoute) :
    PendingStep peerIp importPolicy state.1 state.2 pending (applyPending peerIp importPolicy state pending) := by
  cases pending with
  | withdraw key remotePathId => exact .withdrawn key remotePathId
  | announce key announced =>
    cases accepted : (importPolicy key announced).1 with
    | false =>
      simp only [applyPending, accepted, Bool.false_eq_true]
      exact .denied key announced accepted
    | true =>
      simp only [applyPending, accepted]
      cases limit : state.1.lsLimitReached key with
      | true =>
        rw [upsertPath_refused _ _ _ limit]
        exact .refused key announced accepted limit
      | false =>
        obtain ⟨inserted, -⟩ := upsertPath_accepted state.1 key (importPolicy key announced).2 limit
        have whole : state.1.upsertPath key (importPolicy key announced).2 =
            (true, (state.1.upsertPath key (importPolicy key announced).2).2) := Prod.ext inserted rfl
        rw [whole]
        exact .stored key announced accepted limit

variable {motive : LocRib Alloc → Prop} {importPolicy : ImportPolicy}

theorem applyPending_keeps {state : LocRib Alloc × List RouteKey} {pending : PendingRoute} (holds : motive state.1)
    (removes : ∀ remotePathId, motive (state.1.removePeerPath pending.routeKey peerIp remotePathId))
    (stores : ∀ key path, pending = .announce key path → (importPolicy key path).1 = true →
      motive (state.1.upsertPath key (importPolicy key path).2).2) : motive (applyPending peerIp importPolicy state pending).1 := by
  have step := applyPending_step peerIp importPolicy state pending
  generalize applyPending peerIp importPolicy state pending = next at step ⊢
  cases step with
  | withdrawn key remotePathId => exact removes remotePathId
  | denied key announced denial => exact removes announced.remotePathId
  | stored key announced accepted available => exact stores key announced rfl accepted
  | refused key announced accepted limit => exact holds

theorem applyPeerUpdate_keeps {pendingRoutes : List PendingRoute}
    (holds : motive rib) (step : ∀ (state : LocRib Alloc × List RouteKey), ∀ pending ∈ pendingRoutes, motive state.1 →
      motive (applyPending peerIp importPolicy state pending).1) :
    motive (rib.applyPeerUpdate peerIp pendingRoutes importPolicy).1 :=
  List.foldlRecOn pendingRoutes (applyPending peerIp importPolicy) (motive := fun state => motive state.1) holds
    fun state current pending member => step state pending member current

end

end LocRib

end Bgpgg.Rib
