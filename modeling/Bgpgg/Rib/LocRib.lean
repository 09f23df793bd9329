import Bgpgg.Rib.PathIdAllocator
import Bgpgg.Rpki.VrpTable
import Bgpgg.Table.PrefixMap

namespace Bgpgg.Rib

open Net Wire Lib Table Rpki

-- An Arc with the identity that Arc::ptr_eq compares. The delta of an operation compares
-- a clone it took of the old best path with the stored one, and make_mut reallocates
-- while that clone lives, so here every make_mut under a snapshot takes a new identity.
structure Arc (Value : Type) where
  ptr : Nat
  value : Value
deriving DecidableEq, Repr

inductive PendingRoute where
  | announce (key : RouteKey) (path : Path)
  | withdraw (key : RouteKey) (remotePathId : Option UInt32)
deriving DecidableEq, Repr

def PendingRoute.routeKey : PendingRoute → RouteKey
  | .announce key _ => key
  | .withdraw key _ => key

structure RouteDelta where
  bestChanged : List RouteKey
  changed : List RouteKey
deriving DecidableEq, Repr

def RouteDelta.new : RouteDelta := ⟨[], []⟩

def RouteDelta.hasChanges (delta : RouteDelta) : Bool := !delta.bestChanged.isEmpty || !delta.changed.isEmpty

def RouteDelta.extend (delta other : RouteDelta) : RouteDelta :=
  ⟨delta.bestChanged ++ other.bestChanged, delta.changed ++ other.changed⟩

structure LocRibConfig where
  maxLsEntries : UInt32
deriving DecidableEq, Repr

inductive LocRibError where
  | maxLsEntriesReached (limit : UInt32)
deriving DecidableEq, Repr

inductive StaleStrategy where
  | sweep
  | transitionToLlgr
deriving DecidableEq, Repr

abbrev LocRoute := Route (Arc Path)

structure LocRib (Alloc : Type) where
  ipv4Unicast : PrefixMap 32 LocRoute
  ipv6Unicast : PrefixMap 128 LocRoute
  linkState : AssocMap LsNlri LocRoute
  pathIds : Alloc
  config : LocRibConfig
  arcs : Nat

abbrev ImportPolicy := RouteKey → Path → Bool × Path

def sortPaths (paths : List (Arc Path)) : List (Arc Path) :=
  sortBy (fun a b => b.value.bestPathCmp a.value) paths

def updateFirst {Item : Type} (test : Item → Bool) (change : Item → Item) : List Item → List Item
  | [] => []
  | item :: rest => if test item then change item :: rest else item :: updateFirst test change rest

section

variable {Alloc : Type} [PathIdAllocator Alloc]

variable (peerIp : IpAddr) (path : Path) (route : LocRoute)

def refreshMetadata (fresh : Nat) (existing : Arc Path) : Arc Path :=
  if existing.value.rpkiState ≠ path.rpkiState ∨ existing.value.stale then
    ⟨fresh, { existing.value with rpkiState := path.rpkiState, stale := false }⟩
  else existing

def upsertPathInRoute (path : Arc Path) (pathIds : Alloc) (fresh : Nat) : LocRoute × Alloc :=
  let isMatch (stored : Arc Path) : Bool := stored.value.matchesRemote path.value
  match route.paths.find? isMatch with
  | some existing =>
    if existing.value.attrs ≠ path.value.attrs then
      let replacement := { path with value := { path.value with localPathId := existing.value.localPathId } }
      ({ route with paths := sortPaths (updateFirst isMatch (fun _ => replacement) route.paths) }, pathIds)
    else
      ({ route with paths := sortPaths (updateFirst isMatch (refreshMetadata path.value fresh) route.paths) },
        pathIds)
  | none =>
    let (id, pathIds) := PathIdAllocator.alloc pathIds
    let allocated := { path with value := { path.value with localPathId := some id } }
    ({ route with paths := sortPaths (route.paths ++ [allocated]) }, pathIds)

def localIds (paths : List (Arc Path)) : List UInt32 := paths.filterMap fun path => path.value.localPathId

def removePathsFromRoute (shouldRemove : Path → Bool) : List UInt32 × LocRoute :=
  (localIds (route.paths.filter fun path => shouldRemove path.value),
    { route with paths := route.paths.filter fun path => !shouldRemove path.value })

def isStaleOf : Bool := path.isFromPeer peerIp && path.stale

def StaleStrategy.apply (strategy : StaleStrategy) (fresh : Nat) (path : Arc Path) : Option (Arc Path) :=
  match strategy with
  | .sweep => none
  | .transitionToLlgr =>
    if path.value.attrs.communities.contains NO_LLGR then none
    else if path.value.attrs.communities.contains LLGR_STALE then some ⟨fresh, path.value⟩
    else some ⟨fresh, { path.value with attrs := { path.value.attrs with
      communities := path.value.attrs.communities ++ [LLGR_STALE] } }⟩

def applyStaleLoop (peerIp : IpAddr) (strategy : StaleStrategy) : List (Arc Path) → Alloc → Nat → List (Arc Path) × Alloc × Nat
  | [], pathIds, arcs => ([], pathIds, arcs)
  | path :: rest, pathIds, arcs =>
    if isStaleOf peerIp path.value then
      match strategy.apply arcs path with
      | none =>
        let pathIds := match path.value.localPathId with
          | some id => PathIdAllocator.free pathIds id
          | none => pathIds
        applyStaleLoop peerIp strategy rest pathIds (arcs + 1)
      | some kept =>
        let (others, pathIds, arcs) := applyStaleLoop peerIp strategy rest pathIds (arcs + 1)
        (kept :: others, pathIds, arcs)
    else
      let (others, pathIds, arcs) := applyStaleLoop peerIp strategy rest pathIds arcs
      (path :: others, pathIds, arcs)

def markStale : LocRoute :=
  { route with paths := route.paths.map fun path =>
      if path.value.isFromPeer peerIp then { path with value := { path.value with stale := true } } else path }

def dropPeerPaths : LocRoute :=
  { route with paths := route.paths.filter fun path => !path.value.isFromPeer peerIp }

def collectPeerPathIds (routes : List LocRoute) : List UInt32 :=
  routes.flatMap fun route => localIds (route.paths.filter fun path => path.value.isFromPeer peerIp)

end

namespace LocRib

variable {Alloc : Type} [PathIdAllocator Alloc]

def withPathIds (pathIds : Alloc) (config : LocRibConfig) : LocRib Alloc :=
  ⟨.new, .new, ∅, pathIds, config, 0⟩

def new (config : LocRibConfig) : LocRib BitmapPathIdAllocator := withPathIds .new config

variable (rib : LocRib Alloc) (key : RouteKey) (peerIp : IpAddr) (afiSafi : AfiSafi) (afiSafis : List AfiSafi)
  (strategy : StaleStrategy)

def getRoute : RouteKey → Option LocRoute
  | .pfx (.v4 net) => rib.ipv4Unicast.get net
  | .pfx (.v6 net) => rib.ipv6Unicast.get net
  | .linkState nlri => rib.linkState.lookup nlri

section

variable (remotePathId : Option UInt32) (path : Path) (route : LocRoute)

-- An assignment through the reference that get_route_mut or an entry returned.
def writeRoute : LocRib Alloc :=
  match key with
  | .pfx (.v4 net) => { rib with ipv4Unicast := rib.ipv4Unicast.write net route }
  | .pfx (.v6 net) => { rib with ipv6Unicast := rib.ipv6Unicast.write net route }
  | .linkState nlri => { rib with linkState := rib.linkState.insert nlri route }

def ensureRoute : LocRib Alloc :=
  match key with
  | .pfx (.v4 net) => { rib with ipv4Unicast := rib.ipv4Unicast.getOrInsert net ⟨key, []⟩ }
  | .pfx (.v6 net) => { rib with ipv6Unicast := rib.ipv6Unicast.getOrInsert net ⟨key, []⟩ }
  | .linkState nlri =>
    if AssocMap.contains rib.linkState nlri then rib
    else { rib with linkState := rib.linkState.insert nlri ⟨key, []⟩ }

def removeRouteEntry : LocRib Alloc :=
  match key with
  | .pfx (.v4 net) => { rib with ipv4Unicast := rib.ipv4Unicast.remove net }
  | .pfx (.v6 net) => { rib with ipv6Unicast := rib.ipv6Unicast.remove net }
  | .linkState nlri => { rib with linkState := rib.linkState.erase nlri }

def getAllPaths : List (Arc Path) :=
  ((rib.getRoute key).map Route.paths).getD []

def getBestPath : Option (Arc Path) :=
  (rib.getRoute key).bind fun route => route.paths.head?

def removePaths (shouldRemove : Path → Bool) : List UInt32 × LocRib Alloc :=
  match rib.getRoute key with
  | none => ([], rib)
  | some route =>
    let (freed, route) := removePathsFromRoute route shouldRemove
    if route.paths.isEmpty then (freed, rib.removeRouteEntry key) else (freed, rib.writeRoute key route)

def lsLimitReached : RouteKey → Bool
  | .linkState nlri =>
    rib.config.maxLsEntries > 0 && !AssocMap.contains rib.linkState nlri &&
      AssocMap.size rib.linkState ≥ rib.config.maxLsEntries.toNat
  | .pfx _ => false

-- The path arrives in an Arc of its own: its identity is the next one.
def upsertPath (path : Path) : Bool × LocRib Alloc :=
  if rib.lsLimitReached key then (false, rib)
  else
    let stored := (rib.getRoute key).getD ⟨key, []⟩
    let (route, pathIds) := upsertPathInRoute stored ⟨rib.arcs, path⟩ rib.pathIds (rib.arcs + 1)
    (true, { (rib.ensureRoute key).writeRoute key route with pathIds := pathIds, arcs := rib.arcs + 2 })

def isWithdrawnBy : Bool :=
  path.isFromPeer peerIp &&
    match remotePathId with
    | none => true
    | some id => path.remotePathId == some id

def freeIds (freed : List UInt32) : LocRib Alloc :=
  { rib with pathIds := freeAll rib.pathIds freed }

def removePeerPath : LocRib Alloc :=
  let (freed, rib) := rib.removePaths key (isWithdrawnBy peerIp remotePathId)
  rib.freeIds freed

def getRoutes : List LocRoute :=
  match afiSafi.afi, afiSafi.safi with
  | .ipv4, .unicast => rib.ipv4Unicast.values
  | .ipv6, .unicast => rib.ipv6Unicast.values
  | .linkState, .linkState => AssocMap.values rib.linkState
  | .linkState, .linkStateVpn => AssocMap.values rib.linkState
  | _, _ => []

def bestPathChanged (old : Option (Arc Path)) : Bool :=
  match old, rib.getBestPath key with
  | some old, some new => old.ptr != new.ptr
  | none, none => false
  | _, _ => true

-- One turn of the loop over the pending routes; the second component is the set of keys
-- with an announcement that the link-state limit refused.
def applyPending (peerIp : IpAddr) (importPolicy : ImportPolicy) (state : LocRib Alloc × List RouteKey)
    (pending : PendingRoute) : LocRib Alloc × List RouteKey :=
  match pending with
  | .withdraw key remotePathId => (state.1.removePeerPath key peerIp remotePathId, state.2)
  | .announce key announced =>
    let (accepted, path) := importPolicy key announced
    if accepted then
      match state.1.upsertPath key path with
      | (true, rib) => (rib, state.2)
      | (false, rib) => (rib, key :: state.2)
    else (state.1.removePeerPath key peerIp announced.remotePathId, state.2)

def applyPeerUpdate (pendingRoutes : List PendingRoute) (importPolicy : ImportPolicy) : LocRib Alloc × RouteDelta :=
  let affected := (pendingRoutes.map PendingRoute.routeKey).dedup
  let (final, rejected) := pendingRoutes.foldl (applyPending peerIp importPolicy) (rib, [])
  let affected := affected.filter fun key => !rejected.contains key
  (final, {
    bestChanged := affected.filter fun key => final.bestPathChanged key (rib.getBestPath key)
    changed := affected })

def addLocalRoute (pathAttrs : PathAttrs) : LocRib Alloc × Except LocRibError RouteDelta :=
  let path : Path := {
    localPathId := none
    remotePathId := none
    stale := false
    rpkiState := .notFound
    attrs := { pathAttrs with source := .localSource, localPref := pathAttrs.localPref.or (some 100) } }
  match rib.upsertPath key path with
  | (false, final) => (final, .error (.maxLsEntriesReached rib.config.maxLsEntries))
  | (true, final) =>
    (final, .ok {
      bestChanged := if final.bestPathChanged key (rib.getBestPath key) then [key] else []
      changed := [key] })

def isLocal : Bool := path.attrs.source == .localSource

def removeLocalRoute : LocRib Alloc × RouteDelta :=
  let (freed, final) := rib.removePaths key isLocal
  if freed.isEmpty then (final, .new)
  else
    let final := final.freeIds freed
    (final, {
      bestChanged := if final.bestPathChanged key (rib.getBestPath key) then [key] else []
      changed := [key] })

def hasPeer : Bool := route.paths.any fun path => path.value.isFromPeer peerIp

def getPeerRouteKeys : List RouteKey :=
  (rib.ipv4Unicast.map.entries.filter fun entry => hasPeer peerIp entry.2).map (fun entry => .pfx (.v4 entry.1)) ++
  (rib.ipv6Unicast.map.entries.filter fun entry => hasPeer peerIp entry.2).map (fun entry => .pfx (.v6 entry.1)) ++
  (rib.linkState.entries.filter fun entry => hasPeer peerIp entry.2).map (fun entry => .linkState entry.1)

def clearPeerPaths : LocRib Alloc :=
  let keep (route : LocRoute) : Bool := !route.paths.isEmpty
  let rib := { rib.freeIds (collectPeerPathIds peerIp rib.ipv4Unicast.values) with
    ipv4Unicast := (rib.ipv4Unicast.mapValues (dropPeerPaths peerIp)).retain keep }
  let rib := { rib.freeIds (collectPeerPathIds peerIp rib.ipv6Unicast.values) with
    ipv6Unicast := (rib.ipv6Unicast.mapValues (dropPeerPaths peerIp)).retain keep }
  { rib.freeIds (collectPeerPathIds peerIp (AssocMap.values rib.linkState)) with
    linkState := AssocMap.filterMapValues
      (fun _ route => some (dropPeerPaths peerIp route) |>.filter keep) rib.linkState }

def removeRoutesFromPeer : LocRib Alloc × RouteDelta :=
  let changed := rib.getPeerRouteKeys peerIp
  let final := rib.clearPeerPaths peerIp
  (final, {
    bestChanged := changed.filter fun key => final.bestPathChanged key (rib.getBestPath key)
    changed := changed })

def markPeerRoutesStale : LocRib Alloc :=
  match afiSafi.afi, afiSafi.safi with
  | .ipv4, .unicast => { rib with ipv4Unicast := rib.ipv4Unicast.mapValues (markStale peerIp) }
  | .ipv6, .unicast => { rib with ipv6Unicast := rib.ipv6Unicast.mapValues (markStale peerIp) }
  | .linkState, .linkState =>
    { rib with linkState := AssocMap.filterMapValues (fun _ route => some (markStale peerIp route)) rib.linkState }
  | .linkState, .linkStateVpn =>
    { rib with linkState := AssocMap.filterMapValues (fun _ route => some (markStale peerIp route)) rib.linkState }
  | _, _ => rib

def hasStale : Bool := route.paths.any fun path => isStaleOf peerIp path.value

end

def handleStaleKey (peerIp : IpAddr) (strategy : StaleStrategy) (state : LocRib Alloc × RouteDelta)
    (key : RouteKey) : LocRib Alloc × RouteDelta :=
  let (rib, delta) := state
  match rib.getRoute key with
  | none => (rib, delta)
  | some route =>
    if !hasStale peerIp route then (rib, delta)
    else
      let (kept, pathIds, arcs) := applyStaleLoop peerIp strategy route.paths rib.pathIds rib.arcs
      let route := { route with paths := sortPaths kept }
      let written := { rib.writeRoute key route with pathIds := pathIds, arcs := arcs }
      let final := if route.paths.isEmpty then written.removeRouteEntry key else written
      (final, {
        bestChanged := delta.bestChanged ++ if final.bestPathChanged key (rib.getBestPath key) then [key] else []
        changed := delta.changed ++ [key] })

def handleStaleFamily (state : LocRib Alloc × RouteDelta) (afiSafi : AfiSafi) : LocRib Alloc × RouteDelta :=
  (((state.1.getRoutes afiSafi).filter (hasStale peerIp)).map Route.key).foldl
    (handleStaleKey peerIp strategy) state

def handleStale : LocRib Alloc × RouteDelta :=
  afiSafis.foldl (handleStaleFamily peerIp strategy) (rib, .new)

def applyLlgr : LocRib Alloc × RouteDelta :=
  rib.handleStale peerIp afiSafis .transitionToLlgr

def removePeerRoutesStale : LocRib Alloc × RouteDelta :=
  rib.handleStale peerIp afiSafis .sweep

def staleAfiSafis : List AfiSafi :=
  let ipv4 : List AfiSafi :=
    if rib.ipv4Unicast.values.any (hasStale peerIp) then [⟨.ipv4, .unicast⟩] else []
  let ipv6 : List AfiSafi :=
    if rib.ipv6Unicast.values.any (hasStale peerIp) then [⟨.ipv6, .unicast⟩] else []
  let linkState : List AfiSafi :=
    (rib.linkState.entries.filter fun entry => hasStale peerIp entry.2).map fun entry =>
      ⟨.linkState, entry.1.safi⟩
  (ipv4 ++ ipv6 ++ linkState).dedup

def subtreePrefixes : IpNetwork → List IpNetwork
  | .v4 net => (rib.ipv4Unicast.subtree net).map .v4
  | .v6 net => (rib.ipv6Unicast.subtree net).map .v6

def affectedPrefixes (added removed : List Vrp) : List IpNetwork :=
  ((added ++ removed).flatMap fun vrp => rib.subtreePrefixes vrp.pfx).dedup

end LocRib

end Bgpgg.Rib
