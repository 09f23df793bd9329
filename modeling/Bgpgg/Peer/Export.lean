import Bgpgg.Policies.Statement
import Bgpgg.Rib.AdjRib
import Bgpgg.Rib.LocRib
import Bgpgg.Wire.Format

namespace Bgpgg.Peer

open Net Wire Rib Policies

inductive AddPathMode where
  | receive
  | send
  | both
deriving DecidableEq, Repr

def AddPathMode.canSend : AddPathMode → Bool
  | .receive => false
  | .send => true
  | .both => true

structure GracefulRestartCapability where
  afiSafiList : List (AfiSafi × Bool)
deriving DecidableEq, Repr

structure LlgrEntry where
  afiSafi : AfiSafi
  forwardingPreserved : Bool
  staleTime : UInt32
deriving DecidableEq, Repr

structure LlgrCapability where
  entries : List LlgrEntry
deriving DecidableEq, Repr

structure PeerCapabilities where
  multiprotocol : List AfiSafi
  enhancedRouteRefresh : Bool
  fourOctetAsn : Option UInt32
  gracefulRestart : Option GracefulRestartCapability
  addPath : Option (List (AfiSafi × AddPathMode))
  llgr : Option LlgrCapability
deriving DecidableEq, Repr

def familiesOf (negotiated : List AfiSafi) : List AfiSafi :=
  if negotiated.isEmpty then [⟨.ipv4, .unicast⟩] else negotiated

def PeerCapabilities.sendFormat (capabilities : PeerCapabilities) (isEbgp : Bool) : MessageFormat where
  use4byteAsn := capabilities.fourOctetAsn.isSome
  addPath := ((capabilities.addPath.getD []).filter fun entry => entry.2.canSend).foldl
    (fun mask entry => mask.withFamily entry.1) .none
  isEbgp := isEbgp
  enhancedRr := capabilities.enhancedRouteRefresh

-- The channel to the peer task is not part of the context here: what is sent is returned.
structure PeerExportContext where
  peerAddr : IpAddr
  localAsn : UInt32
  peerAsn : UInt32
  localNextHop : IpAddr
  localLinkLocal : Option Ipv6Addr
  exportPolicies : AfiSafiPolicies
  rrClient : Bool
  rsClient : Bool
  clusterId : Ipv4Addr
  sendFormat : MessageFormat
  negotiatedAfiSafis : List AfiSafi
  nextHopSelf : Bool
  gracefulShutdown : Bool
  llgrCapability : Option LlgrCapability
  sendRpkiCommunity : Bool

variable (extcomm : UInt64)

def extType : UInt8 := (extcomm >>> 56).toUInt8
def extSubtype : UInt8 := (extcomm >>> 48).toUInt8
def isTransitive : Bool := extType extcomm &&& 0x40 == 0
def isRpkiStateCommunity : Bool := extType extcomm == 0x43 && extSubtype extcomm == 0
def fromRpkiStateCommunity (state : UInt8) : UInt64 := ((0x43 : UInt64) <<< 56) ||| state.toUInt64

def rpkiToU8 : RpkiValidation → UInt8
  | .valid => 0
  | .notFound => 1
  | .invalid => 2

def isUnspecified : NextHopAddr → Bool
  | .ipv4 addr => addr == 0
  | .ipv6 addr => addr == 0
  | .ipv6WithLinkLocal global linkLocal => global == 0 && linkLocal == 0

def nextHopOf : IpAddr → NextHopAddr
  | .v4 addr => .ipv4 addr
  | .v6 addr => .ipv6 addr

def isUnknownTransitive (attr : PathAttribute) : Bool :=
  match attr.value with
  | .unknown _ flags _ => flags &&& 0x40 != 0
  | _ => false

namespace PeerExportContext

variable (ctx : PeerExportContext)

def isEbgp : Bool := ctx.localAsn != ctx.peerAsn

def isIbgp : Bool := ctx.localAsn == ctx.peerAsn

def afiSafis : List AfiSafi := familiesOf ctx.negotiatedAfiSafis

end PeerExportContext

def shouldFilterByCommunity (communities : List UInt32) (localAsn peerAsn : UInt32) : Bool :=
  if communities.contains NO_ADVERTISE then true
  else localAsn != peerAsn && (communities.contains NO_EXPORT || communities.contains NO_EXPORT_SUBCONFED)

variable (key : RouteKey) (path : Path) (localNextHop : IpAddr)

section

variable (ctx : PeerExportContext)

def shouldExportToPeer : Bool :=
  if ctx.isIbgp && path.source.isIbgp && !path.source.isRrClient && !ctx.rrClient then false
  else if path.source.peerIp = some ctx.peerAddr then false
  else if shouldFilterByCommunity path.attrs.communities ctx.localAsn ctx.peerAsn then false
  else if path.attrs.communities.contains LLGR_STALE && ctx.llgrCapability.isNone then false
  else true

-- segment_len is the new length as u8: it wraps for a segment that already held 255.
def prependLocalAsn (asPath : List AsPathSegment) (localAsn : UInt32) : List AsPathSegment :=
  match asPath with
  | [] => [⟨.asSequence, 1, [localAsn]⟩]
  | first :: rest =>
    if first.segmentType = .asSequence then
      ⟨.asSequence, UInt8.ofNat (first.asnList.length + 1), localAsn :: first.asnList⟩ :: rest
    else ⟨.asSequence, 1, [localAsn]⟩ :: first :: rest

def buildExportAsPath : List AsPathSegment :=
  if ctx.rsClient then path.attrs.asPath
  else if path.source = .localSource ∧ path.attrs.asPath = [] then
    if ctx.isEbgp then [⟨.asSequence, 1, [ctx.localAsn]⟩] else []
  else if ctx.isEbgp then prependLocalAsn path.attrs.asPath ctx.localAsn
  else path.attrs.asPath

def buildExportLocalPref : Option UInt32 :=
  if ctx.localAsn = ctx.peerAsn then path.attrs.localPref else none

def buildExportMed : Option UInt32 :=
  if ctx.rsClient then path.attrs.med
  else if ctx.isIbgp then path.attrs.med
  else if path.source = .localSource then path.attrs.med
  else
    match path.attrs.asPath.head? with
    | none => path.attrs.med
    | some segment =>
      if segment.asnList.head? ≠ some ctx.localAsn then none
      else if segment.segmentType = .asSet then none
      else path.attrs.med

def buildExportExtendedCommunities : List UInt64 :=
  if ctx.rsClient then path.attrs.extendedCommunities
  else if ctx.isEbgp then path.attrs.extendedCommunities.filter isTransitive
  else if ctx.sendRpkiCommunity then
    (path.attrs.extendedCommunities.filter fun extcomm => !isRpkiStateCommunity extcomm) ++
      [fromRpkiStateCommunity (rpkiToU8 path.rpkiState)]
  else path.attrs.extendedCommunities

def buildExportCommunities : List UInt32 :=
  if ctx.gracefulShutdown && !path.attrs.communities.contains GRACEFUL_SHUTDOWN then
    path.attrs.communities ++ [GRACEFUL_SHUTDOWN]
  else path.attrs.communities

def buildExportUnknownAttrs : List PathAttribute :=
  if ctx.rsClient then path.attrs.unknownAttrs
  else if ctx.isEbgp then path.attrs.unknownAttrs.filter isUnknownTransitive
  else path.attrs.unknownAttrs

def addressFamiliesMatch : NextHopAddr → IpAddr → Bool
  | .ipv4 _, .v4 _ => true
  | .ipv6 _, .v6 _ => true
  | .ipv6WithLinkLocal _ _, .v6 _ => true
  | _, _ => false

def buildEbgpNextHop : Option NextHopAddr :=
  if addressFamiliesMatch path.attrs.nextHop localNextHop then some (nextHopOf localNextHop)
  else if !isUnspecified path.attrs.nextHop then some path.attrs.nextHop
  else none

def buildIbgpNextHop : Option NextHopAddr :=
  if path.source ≠ .localSource then some path.attrs.nextHop
  else if !isUnspecified path.attrs.nextHop then some path.attrs.nextHop
  else if addressFamiliesMatch path.attrs.nextHop localNextHop then some (nextHopOf localNextHop)
  else none

def buildExportNextHop (key : RouteKey) : Option NextHopAddr :=
  match key with
  | .linkState _ =>
    if ctx.rsClient then some path.attrs.nextHop
    else if ctx.isEbgp || ctx.nextHopSelf then some (nextHopOf ctx.localNextHop)
    else some path.attrs.nextHop
  | .pfx _ =>
    if ctx.rsClient then some path.attrs.nextHop
    else
      let nextHop :=
        if ctx.isEbgp then buildEbgpNextHop path ctx.localNextHop
        else if ctx.nextHopSelf then some (nextHopOf ctx.localNextHop)
        else buildIbgpNextHop path ctx.localNextHop
      match nextHop, ctx.localLinkLocal with
      | some (.ipv6 global), some linkLocal =>
        if ctx.isEbgp then some (.ipv6WithLinkLocal global linkLocal) else nextHop
      | _, _ => nextHop

def buildExportRrAttrs (isIbgp : Bool) : Option Ipv4Addr × List Ipv4Addr :=
  if !(isIbgp && (path.source.isIbgp || path.attrs.originatorId.isSome)) then (none, [])
  else if path.source.isIbgp then
    (path.attrs.originatorId.or path.attrs.source.bgpId, ctx.clusterId :: path.attrs.clusterList)
  else (path.attrs.originatorId, path.attrs.clusterList)

def buildExportAttrs (key : RouteKey) : Option PathAttrs :=
  let (originatorId, clusterList) :=
    if ctx.rsClient then (none, []) else buildExportRrAttrs path ctx ctx.isIbgp
  (buildExportNextHop path ctx key).map fun nextHop => {
    origin := path.attrs.origin
    asPath := buildExportAsPath path ctx
    nextHop := nextHop
    source := path.attrs.source
    localPref := buildExportLocalPref path ctx
    med := buildExportMed path ctx
    atomicAggregate := path.attrs.atomicAggregate
    aggregator := path.attrs.aggregator
    communities := buildExportCommunities path ctx
    extendedCommunities := buildExportExtendedCommunities path ctx
    largeCommunities := path.attrs.largeCommunities
    unknownAttrs := buildExportUnknownAttrs path ctx
    originatorId := originatorId
    clusterList := clusterList
    lsAttr := path.attrs.lsAttr }

def computeExportPath : Option Path :=
  if !shouldExportToPeer path ctx then none
  else
    let (accepted, exported) := evaluatePolicies key ((ctx.exportPolicies.lookup key.afiSafi).getD []) path
    if !accepted then none
    else (buildExportAttrs exported ctx key).map fun attrs => {
      localPathId := exported.localPathId
      remotePathId := exported.remotePathId
      attrs := attrs
      stale := false
      rpkiState := .notFound }

end

section

variable {Alloc : Type}

variable (key : RouteKey)

section

variable (ctx : PeerExportContext) (delta : RouteDelta) (locRib : LocRib Alloc) (afiSafi : AfiSafi)

def exportRoutePath (path : Arc Path) : Option RoutePath :=
  (computeExportPath key path.value ctx).map (RoutePath.mk key)

def selectPathsForExport (sendAddPath : Bool) (locRib : LocRib Alloc) (ctx : PeerExportContext) : List RoutePath :=
  if sendAddPath then (locRib.getAllPaths key).filterMap (exportRoutePath key ctx)
  else if ctx.rsClient then ((locRib.getAllPaths key).findSome? (exportRoutePath key ctx)).toList
  else ((locRib.getBestPath key).bind (exportRoutePath key ctx)).toList

def buildWithdrawalsForRoute (stalePaths : List Path) (exportPaths : List RoutePath) (sendAddPath : Bool) : List Withdrawal :=
  if sendAddPath then stalePaths.filterMap fun path => path.localPathId.map fun id => (key, some id)
  else if exportPaths.isEmpty && !stalePaths.isEmpty then [(key, none)]
  else []

structure FamilyExport where
  announcements : List RoutePath
  withdrawals : List Withdrawal
  adjRibOut : AdjRibOut

def removeStale (table : AdjRibOut) (path : Path) : AdjRibOut :=
  match path.localPathId with
  | none => table
  | some id => AdjRibOut.removePath table key id

def exportKey (state : FamilyExport) (key : RouteKey) : FamilyExport :=
  if key.afiSafi ≠ afiSafi then state
  else
    let sendAddPath := ctx.sendFormat.addPath.contains afiSafi
    let exportPaths := selectPathsForExport key sendAddPath locRib ctx
    let stalePaths := AdjRibOut.stalePaths state.adjRibOut key exportPaths
    { announcements := state.announcements ++ exportPaths
      withdrawals := state.withdrawals ++ buildWithdrawalsForRoute key stalePaths exportPaths sendAddPath
      adjRibOut := stalePaths.foldl (removeStale key) state.adjRibOut }

def routeKeysFor : List RouteKey :=
  if ctx.sendFormat.addPath.contains afiSafi || ctx.rsClient then delta.changed else delta.bestChanged

def exportFamily (adjRibOut : AdjRibOut) (afiSafi : AfiSafi) : FamilyExport :=
  let gathered := (routeKeysFor ctx delta afiSafi).foldl (exportKey ctx locRib afiSafi) ⟨[], [], adjRibOut⟩
  let record (table : AdjRibOut) (routePath : RoutePath) : AdjRibOut :=
    AdjRibOut.insert table routePath.key routePath.path
  { gathered with adjRibOut := gathered.announcements.foldl record gathered.adjRibOut }

-- The adj-rib-out after the call, and per family what was handed to send_withdrawals and
-- send_batched_announcements.
def propagateRoutesToPeer (adjRibOut : AdjRibOut) : AdjRibOut × List FamilyExport :=
  ctx.afiSafis.foldl (fun state afiSafi =>
    let exported := exportFamily ctx delta locRib state.1 afiSafi
    (exported.adjRibOut, state.2 ++ [exported])) (adjRibOut, [])

end

end

def unicastSession (peerAsn : UInt32) : PeerExportContext where
  peerAddr := .v4 0xc0000209
  localAsn := 65000
  peerAsn := peerAsn
  localNextHop := .v4 0xc0000201
  localLinkLocal := none
  exportPolicies := AList.insert (⟨.ipv6, .unicast⟩ : AfiSafi) [.permitAll]
    ((∅ : AfiSafiPolicies).insert ⟨.ipv4, .unicast⟩ [.permitAll])
  rrClient := false
  rsClient := false
  clusterId := 0x01010101
  sendFormat := ⟨true, .none, peerAsn != 65000, false⟩
  negotiatedAfiSafis := [⟨.ipv4, .unicast⟩, ⟨.ipv6, .unicast⟩]
  nextHopSelf := false
  gracefulShutdown := false
  llgrCapability := none
  sendRpkiCommunity := false

def routeVia (nextHop : NextHopAddr) : Path where
  localPathId := some 1
  remotePathId := none
  stale := false
  rpkiState := .notFound
  attrs := {
    origin := .igp
    asPath := [⟨.asSequence, 1, [65001]⟩]
    nextHop := nextHop
    source := .ebgp (.v4 0xc0000205) 0xc0000205
    localPref := some 100
    med := none
    atomicAggregate := false
    aggregator := none
    communities := []
    extendedCommunities := []
    largeCommunities := []
    unknownAttrs := []
    originatorId := none
    clusterList := []
    lsAttr := none }

end Bgpgg.Peer
