import Bgpgg.Server.State

namespace Bgpgg.Server

open Net Wire Rib Policies Peer Rpki

variable (peer : PeerInfo) (routes : List PendingRoute) (path : Path)

def announcedOf : List RoutePath :=
  routes.filterMap fun
    | .announce key path => some ⟨key, path⟩
    | .withdraw _ _ => none

def withdrawnOf : List Withdrawal :=
  routes.filterMap fun
    | .announce _ _ => none
    | .withdraw key remotePathId => some (key, remotePathId)

-- All withdrawals are taken out before the first announcement goes in.
def storeUnprocessed (adjRibIn : AdjRibIn) (routes : List PendingRoute) : AdjRibIn :=
  (announcedOf routes).foldl (fun table routePath => AdjRibIn.addRoute table routePath.key routePath.path)
    ((withdrawnOf routes).foldl (fun table withdrawal => AdjRibIn.removeRoute table withdrawal.1 withdrawal.2)
      adjRibIn)

def PeerInfo.storeRoutes : PeerInfo :=
  { peer with adjRibIn := storeUnprocessed peer.adjRibIn routes }

def PeerInfo.enter (state : BgpState) : PeerInfo :=
  { peer with conn := { peer.conn with state := state } }

-- The second component is false when the UPDATE is to be ignored.
def validateAfiSafi (peer : PeerInfo) (negotiated : List AfiSafi) : List RoutePath → PeerInfo × Bool
  | [] => (peer, true)
  | routePath :: rest =>
    let afiSafi := routePath.key.afiSafi
    if peer.disabledAfiSafi.contains afiSafi then (peer, false)
    else if !negotiated.isEmpty && !negotiated.contains afiSafi then
      ({ peer with
          adjRibIn := AdjRibIn.drainAfiSafi peer.adjRibIn afiSafi
          disabledAfiSafi := afiSafi :: peer.disabledAfiSafi }, false)
    else validateAfiSafi peer negotiated rest

def AS_TRANS : UInt32 := 23456

def checkFirstAs (peerAsn : UInt32) : Bool :=
  match path.attrs.asPath.head? with
  | none => true
  | some firstSegment =>
    match firstSegment.asnList.head? with
    | none => true
    | some leftmostAs => leftmostAs == AS_TRANS || leftmostAs == peerAsn

def isNextHopLocal (localAddress : Option IpAddr) : Bool :=
  match path.attrs.nextHop, localAddress with
  | .ipv4 nextHop, some (.v4 localIp) => nextHop == localIp
  | .ipv6 nextHop, some (.v6 localIp) => nextHop == localIp
  | _, _ => false

def hasAsPathLoop (localAsn : UInt32) : Bool :=
  path.attrs.asPath.any fun segment => segment.asnList.contains localAsn

def hasRouteReflectorLoop (localBgpId clusterId : Ipv4Addr) : Bool :=
  path.attrs.originatorId == some localBgpId || path.attrs.clusterList.contains clusterId

structure ImportChecks where
  localAsn : UInt32
  peerAsn : UInt32
  enforceFirstAs : Bool
  localAddress : Option IpAddr
  localBgpId : Ipv4Addr
  clusterId : Ipv4Addr
deriving DecidableEq, Repr

namespace ImportChecks

def isEbgp (checks : ImportChecks) : Bool := checks.peerAsn != checks.localAsn

def fails (checks : ImportChecks) (path : Path) : Bool :=
  (checks.isEbgp && checks.enforceFirstAs && !checkFirstAs path checks.peerAsn) ||
    isNextHopLocal path checks.localAddress ||
    hasAsPathLoop path checks.localAsn ||
    (!checks.isEbgp && hasRouteReflectorLoop path checks.localBgpId checks.clusterId)

end ImportChecks

def rejectAnnouncement : PendingRoute → PendingRoute
  | .announce key path => .withdraw key path.remotePathId
  | .withdraw key remotePathId => .withdraw key remotePathId

variable (peerCfg : PeerConfig) (adjRibIn : AdjRibIn) (routes : List PendingRoute)

def rejectAnnouncements : List PendingRoute := routes.map rejectAnnouncement

def GRACEFUL_SHUTDOWN : UInt32 := 0xFFFF0000

def scrubEbgpPath (path : Path) : Path :=
  { path with attrs := { path.attrs with
      originatorId := none
      clusterList := []
      extendedCommunities := path.attrs.extendedCommunities.filter fun extcomm => !isRpkiStateCommunity extcomm
      localPref := if path.attrs.communities.contains GRACEFUL_SHUTDOWN then some 0 else path.attrs.localPref } }

def scrubEbgpPendingRoute : PendingRoute → PendingRoute
  | .announce key path => .announce key (scrubEbgpPath path)
  | .withdraw key remotePathId => .withdraw key remotePathId

-- The checks and the scrubbing that stand between the adj-rib-in and the import policy. Only
-- the first announced path is checked, for all announcements of the batch.
def screenBatch (checks : ImportChecks) (routes : List PendingRoute) : List PendingRoute :=
  let checked := match (announcedOf routes).head? with
    | some first => if checks.fails first.path then rejectAnnouncements routes else routes
    | none => routes
  if checks.isEbgp then checked.map scrubEbgpPendingRoute else checked

def familiesInUpdate : List AfiSafi :=
  (routes.map fun route => route.routeKey.afiSafi).dedup

def exceededAction (family : AfiSafi) : Option MaxPrefixAction :=
  match peerCfg.effectiveMaxPrefix family with
  | none => none
  | some setting =>
    if FamilyTables.familyCount adjRibIn family > setting.limit.toNat then some setting.action else none

-- None when a family whose action is to terminate has exceeded its limit, else the routes
-- without the announcements of the families to discard.
def checkMaxPrefix : Option (List PendingRoute) :=
  let exceeds (action : MaxPrefixAction) (family : AfiSafi) : Bool :=
    exceededAction peerCfg adjRibIn family == some action
  let families := familiesInUpdate routes
  if families.any (exceeds .terminate) then none
  else
    let discardFamilies := families.filter (exceeds .discard)
    some (routes.filter fun
      | .announce key _ => !discardFamilies.contains key.afiSafi
      | .withdraw _ _ => true)

def applyImport (vrpTable : VrpTable) (localAsn : UInt32) (importPolicies : AfiSafiPolicies) : ImportPolicy :=
  fun key path =>
    let validated := match key with
      | .pfx net => { path with rpkiState := vrpTable.validate net (path.originAs.getD localAsn) }
      | .linkState _ => path
    let preferred := { validated with attrs := { validated.attrs with
      localPref := validated.attrs.localPref.or (some 100) } }
    evaluatePolicies key ((importPolicies.lookup key.afiSafi).getD []) preferred

def shouldClearGr (capability : GracefulRestartCapability) (afiSafi : AfiSafi) : Bool :=
  (capability.afiSafiList.find? fun entry => entry.1 == afiSafi).map Prod.snd != some true

def shouldClearLlgr (capability : LlgrCapability) (afiSafi : AfiSafi) : Bool :=
  match capability.entries.find? fun entry => entry.afiSafi == afiSafi with
  | some entry => !entry.forwardingPreserved
  | none => true

inductive ServerOp where
  | peerStateChanged (peerIp : IpAddr) (state : BgpState)
  | peerHandshakeComplete (peerIp : IpAddr) (asn : UInt32)
  | peerConnectionInfo (peerIp : IpAddr) (bgpId : UInt32) (connInfo : ConnectionInfo)
      (capabilities : PeerCapabilities)
  | peerUpdate (peerIp : IpAddr) (routes : List PendingRoute)
  | peerDisconnected (peerIp : IpAddr) (grAfiSafis : List AfiSafi)
  | routeRefresh (peerIp : IpAddr) (afiSafi : AfiSafi)
  | routeRefreshBoRR (peerIp : IpAddr) (afiSafi : AfiSafi)
  | routeRefreshEoRR (peerIp : IpAddr) (afiSafi : AfiSafi)
  | gracefulRestartTimerExpired (peerIp : IpAddr) (llgrAfiSafis : List (AfiSafi × UInt32))
  | gracefulRestartComplete (peerIp : IpAddr) (afiSafi : AfiSafi)
  | llgrTimerExpired (peerIp : IpAddr) (afiSafi : AfiSafi)
  | enhancedRrStaleTimerExpired (peerIp : IpAddr) (afiSafi : AfiSafi)
  | vrpUpdate (added removed : List Vrp)
  | addRoute (key : RouteKey) (attrs : PathAttrs)
  | removeRoute (key : RouteKey)
  | addPeer (peerIp : IpAddr)
  | removePeer (peerIp : IpAddr)

namespace BgpServer

variable (server : BgpServer) (key : RouteKey) (prefixes : List IpNetwork) (peerIp : IpAddr)
  (llgrAfiSafis : List (AfiSafi × UInt32))

def commit (outcome : LocRib BitmapPathIdAllocator × RouteDelta) (originatingPeer : Option IpAddr) : BgpServer :=
  { server with locRib := outcome.1 }.propagateRoutes outcome.2 originatingPeer

def handlePeerHandshakeComplete (asn : UInt32) : BgpServer :=
  match server.config.findPeer peerIp with
  | none => server
  | some peerConfig =>
    let (importPolicies, exportPolicies) := server.buildPeerPolicies peerConfig (asn != server.config.asn)
    server.modifyPeer peerIp fun peer => { peer with
      conn := { peer.conn with asn := some asn }
      importPolicies := importPolicies
      exportPolicies := exportPolicies }

def handlePeerConnectionInfo (bgpId : UInt32) (connInfo : ConnectionInfo) (capabilities : PeerCapabilities) : BgpServer :=
  server.modifyPeer peerIp fun peer => { peer with conn := { peer.conn with
    bgpId := some bgpId, connInfo := some connInfo, capabilities := some capabilities } }

def handlePeerDisconnected (grAfiSafis : List AfiSafi) : BgpServer :=
  match server.peers.lookup peerIp with
  | none => server
  | some peer =>
    let reset := { peer with conn := {}, adjRibOut := .new }
    if grAfiSafis.isEmpty then
      let server := server.setPeer peerIp { reset with adjRibIn := .new, disabledAfiSafi := [] }
      if peer.conn.state = .established then
        server.commit (server.locRib.removeRoutesFromPeer peerIp) (some peerIp)
      else server
    else
      let mark (rib : LocRib BitmapPathIdAllocator) (afiSafi : AfiSafi) : LocRib BitmapPathIdAllocator :=
        rib.markPeerRoutesStale peerIp afiSafi
      { server.setPeer peerIp reset with locRib := grAfiSafis.foldl mark server.locRib }

def grToClear (capabilities : PeerCapabilities) : List AfiSafi :=
  match capabilities.gracefulRestart with
  | some capability => (server.locRib.staleAfiSafis peerIp).filter (shouldClearGr capability)
  | none => server.locRib.staleAfiSafis peerIp

def llgrToClear (peer : PeerInfo) (capabilities : PeerCapabilities) : List AfiSafi :=
  match capabilities.llgr with
  | some capability => peer.llgrTimers.filter (shouldClearLlgr capability)
  | none => peer.llgrTimers

def sweepStale (peer : PeerInfo) (capabilities : PeerCapabilities) : BgpServer :=
  let toClear := llgrToClear peer capabilities
  let swept := server.locRib.removePeerRoutesStale peerIp (server.grToClear peerIp capabilities)
  let sweptLlgr := swept.1.removePeerRoutesStale peerIp toClear
  let running := peer.llgrTimers.filter fun afiSafi => !toClear.contains afiSafi
  (server.setPeer peerIp { peer with llgrTimers := running }).commit
    (sweptLlgr.1, swept.2.extend sweptLlgr.2) (some peerIp)

def resendAll (afiSafis : List AfiSafi) : BgpServer :=
  afiSafis.foldl (fun server afiSafi => server.resendRoutesToPeer peerIp afiSafi) server

def handlePeerStateChanged (state : BgpState) : BgpServer :=
  match server.peers.lookup peerIp with
  | none => server
  | some peer =>
    let peer := peer.enter state
    let server := server.setPeer peerIp peer
    match state, peer.conn.capabilities with
    | .established, some capabilities =>
      server.sweepStale peerIp peer capabilities |>.resendAll peerIp (familiesOf capabilities.multiprotocol)
    | _, _ => server

def llgrFamilies : List AfiSafi :=
  ((llgrAfiSafis.filter fun entry => entry.2 != 0).map Prod.fst).dedup

def expireStale : LocRib BitmapPathIdAllocator × RouteDelta :=
  let llgrMap := llgrFamilies llgrAfiSafis
  let stale := server.locRib.staleAfiSafis peerIp
  let swept := server.locRib.removePeerRoutesStale peerIp (stale.filter fun afiSafi => !llgrMap.contains afiSafi)
  let tagged := swept.1.applyLlgr peerIp (stale.filter fun afiSafi => llgrMap.contains afiSafi)
  (tagged.1, swept.2.extend tagged.2)

def handleGrTimerExpired : BgpServer :=
  let llgrMap := llgrFamilies llgrAfiSafis
  let armed := server.modifyPeer peerIp fun peer => { peer with
    llgrTimers := llgrMap ++ peer.llgrTimers.filter fun afiSafi => !llgrMap.contains afiSafi }
  armed.commit (server.expireStale peerIp llgrAfiSafis) (some peerIp)

-- Also the end of an enhanced route refresh, whose own timers are not part of the state.
def sweepAfiSafi (afiSafi : AfiSafi) : BgpServer :=
  server.commit (server.locRib.removePeerRoutesStale peerIp [afiSafi]) (some peerIp)

def clearStaleAfiSafi (afiSafi : AfiSafi) : BgpServer :=
  (server.modifyPeer peerIp fun peer => { peer with
    llgrTimers := peer.llgrTimers.filter fun running => running != afiSafi }).sweepAfiSafi peerIp afiSafi

def handleMaxPrefixTerminate : BgpServer :=
  let server := server.modifyPeer peerIp fun peer => { peer with
    adjRibIn := .new
    disabledAfiSafi := []
    adjRibOut := .new
    conn := if peer.conn.state = .established then {} else peer.conn }
  server.commit (server.locRib.removeRoutesFromPeer peerIp) (some peerIp)

def peerCfgOf : PeerConfig := (server.config.findPeer peerIp).getD {}

def importChecks (peer : PeerInfo) (peerCfg : PeerConfig) (peerAsn : UInt32) : ImportChecks where
  localAsn := server.config.asn
  peerAsn := peerAsn
  enforceFirstAs := peerCfg.enforceFirstAs
  localAddress := peer.conn.connInfo.map ConnectionInfo.localAddress
  localBgpId := server.config.routerId
  clusterId := server.config.clusterId

def importRoutes (rib : LocRib BitmapPathIdAllocator) (peerIp : IpAddr) (peer : PeerInfo)
    (routes : List PendingRoute) : LocRib BitmapPathIdAllocator × RouteDelta :=
  rib.applyPeerUpdate peerIp routes (applyImport server.vrpTable server.config.asn peer.importPolicies)

def handlePeerUpdate (routes : List PendingRoute) : BgpServer :=
  match server.peers.lookup peerIp with
  | none => server
  | some peer =>
    match peer.establishedConn.bind ConnectionState.asn with
    | none => server
    | some peerAsn =>
      let peerCfg := server.peerCfgOf peerIp
      let (validated, acceptable) :=
        validateAfiSafi (peer.storeRoutes routes) peer.conn.negotiatedAfiSafis (announcedOf routes)
      let server := server.setPeer peerIp validated
      if !acceptable then server
      else
        let screened := screenBatch (server.importChecks peer peerCfg peerAsn) routes
        match checkMaxPrefix peerCfg validated.adjRibIn screened with
        | none => if peerCfg.allowAutomaticStop then server.handleMaxPrefixTerminate peerIp else server
        | some routes => server.commit (server.importRoutes server.locRib peerIp validated routes) (some peerIp)

def affectedPaths (peer : PeerInfo) : List PendingRoute :=
  prefixes.flatMap fun net => (AdjRibIn.paths peer.adjRibIn (.pfx net)).map (PendingRoute.announce (.pfx net))

def affectedRoutes : List (IpAddr × List PendingRoute) :=
  server.peers.entries.filterMap fun entry =>
    if (affectedPaths prefixes entry.2).isEmpty then none else some (entry.1, affectedPaths prefixes entry.2)

def reevaluatePeer (state : LocRib BitmapPathIdAllocator × RouteDelta)
    (affected : IpAddr × List PendingRoute) : LocRib BitmapPathIdAllocator × RouteDelta :=
  match server.peers.lookup affected.1 with
  | none => state
  | some peer =>
    let (rib, delta) := server.importRoutes state.1 affected.1 peer affected.2
    (rib, state.2.extend delta)

def reevaluateRoutes (routes : List (IpAddr × List PendingRoute)) : LocRib BitmapPathIdAllocator × RouteDelta :=
  routes.foldl server.reevaluatePeer (server.locRib, .new)

def handleVrpUpdate (added removed : List Vrp) : BgpServer :=
  let server := { server with vrpTable := (server.vrpTable.add added).remove removed }
  let affected := server.locRib.affectedPrefixes added removed
  if affected.isEmpty then server else server.commit (server.reevaluateRoutes (server.affectedRoutes affected)) none

-- The key is the one that add_local_route receives: with the configured instance identifier
-- already set when it is a link-state one.
def handleAddRoute (attrs : PathAttrs) : BgpServer :=
  match server.locRib.addLocalRoute key attrs with
  | (rib, .ok delta) => server.commit (rib, delta) none
  | (rib, .error _) => { server with locRib := rib }

def handleRemoveRoute : BgpServer :=
  server.commit (server.locRib.removeLocalRoute key) none

-- spawn_and_start_peer, which is called for an address that has no entry.
def addPeer : BgpServer := match server.peers.lookup peerIp with
  | none => server.setPeer peerIp .new
  | some _ => server

-- shutdown_and_remove_peer; what it sends to the peer task is not followed.
def removePeer : BgpServer := match server.peers.lookup peerIp with
  | none => server
  | some _ => { server with peers := server.peers.erase peerIp }.commit (server.locRib.removeRoutesFromPeer peerIp) none

def handleServerOp (server : BgpServer) : ServerOp → BgpServer
  | .peerStateChanged peerIp state => server.handlePeerStateChanged peerIp state
  | .peerHandshakeComplete peerIp asn => server.handlePeerHandshakeComplete peerIp asn
  | .peerConnectionInfo peerIp bgpId connInfo capabilities =>
    server.handlePeerConnectionInfo peerIp bgpId connInfo capabilities
  | .peerUpdate peerIp routes => server.handlePeerUpdate peerIp routes
  | .peerDisconnected peerIp grAfiSafis => server.handlePeerDisconnected peerIp grAfiSafis
  | .routeRefresh peerIp afiSafi => server.resendRoutesToPeer peerIp afiSafi
  | .routeRefreshBoRR peerIp afiSafi =>
    { server with locRib := server.locRib.markPeerRoutesStale peerIp afiSafi }
  | .routeRefreshEoRR peerIp afiSafi => server.sweepAfiSafi peerIp afiSafi
  | .gracefulRestartTimerExpired peerIp llgrAfiSafis => server.handleGrTimerExpired peerIp llgrAfiSafis
  | .gracefulRestartComplete peerIp afiSafi => server.clearStaleAfiSafi peerIp afiSafi
  | .llgrTimerExpired peerIp afiSafi => server.clearStaleAfiSafi peerIp afiSafi
  | .enhancedRrStaleTimerExpired peerIp afiSafi => server.sweepAfiSafi peerIp afiSafi
  | .vrpUpdate added removed => server.handleVrpUpdate added removed
  | .addRoute key attrs => server.handleAddRoute key attrs
  | .removeRoute key => server.handleRemoveRoute key
  | .addPeer peerIp => server.addPeer peerIp
  | .removePeer peerIp => server.removePeer peerIp

end BgpServer

end Bgpgg.Server
