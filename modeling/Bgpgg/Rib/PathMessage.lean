import Bgpgg.Rib.Path
import Bgpgg.Wire.Update

namespace Bgpgg.Wire

open Net Rib

def makeNlriList (prefixes : List IpNetwork) (pathId : Option UInt32) : List Nlri := prefixes.map fun net => ⟨net, pathId⟩

def isIpv4Network : IpNetwork → Bool
  | .v4 _ => true
  | .v6 _ => false

def NextHopAddr.isIpv4 : NextHopAddr → Bool
  | .ipv4 _ => true
  | _ => false

end Bgpgg.Wire

namespace Bgpgg.Rib

open Net Wire

def Path.pathIdFor (path : Path) (addPath : AddPathMask) (afiSafi : AfiSafi) : Option UInt32 :=
  if addPath.contains afiSafi then path.localPathId else none

end Bgpgg.Rib

namespace Bgpgg.Wire.UpdateMessage

open Net Rib

variable (path : Path)

def knownPathAttrs : List PathAttribute := [⟨TRANSITIVE, .origin path.attrs.origin⟩, ⟨TRANSITIVE, .asPath ⟨path.attrs.asPath⟩⟩] ++
    (path.attrs.localPref.map fun pref => PathAttribute.mk TRANSITIVE (.localPref pref)).toList ++
    (path.attrs.med.map fun metric => PathAttribute.mk OPTIONAL (.multiExtiDisc metric)).toList ++
    (if path.attrs.atomicAggregate then [⟨TRANSITIVE, .atomicAggregate⟩] else []) ++
    (path.attrs.aggregator.map fun aggregator => PathAttribute.mk (OPTIONAL ||| TRANSITIVE) (.aggregator aggregator)).toList ++
    (if path.attrs.communities.isEmpty then [] else [⟨OPTIONAL ||| TRANSITIVE, .communities path.attrs.communities⟩]) ++
    (path.attrs.originatorId.map fun originator => PathAttribute.mk OPTIONAL (.originatorId originator)).toList ++
    (if path.attrs.clusterList.isEmpty then [] else [⟨OPTIONAL, .clusterList path.attrs.clusterList⟩]) ++
    (if path.attrs.extendedCommunities.isEmpty then []
      else [⟨OPTIONAL ||| TRANSITIVE, .extendedCommunities path.attrs.extendedCommunities⟩]) ++
    (if path.attrs.largeCommunities.isEmpty then []
      else [⟨OPTIONAL ||| TRANSITIVE, .largeCommunities path.attrs.largeCommunities⟩])

def buildCommonPathAttrs : List PathAttribute := knownPathAttrs path ++ path.attrs.unknownAttrs

def nextHopAttr (ipv4Routes : List IpNetwork) : List PathAttribute :=
  if !ipv4Routes.isEmpty && path.attrs.nextHop.isIpv4 then [⟨TRANSITIVE, .nextHop path.attrs.nextHop⟩] else []

def mpReachAttr (ipv6Routes : List IpNetwork) (format : MessageFormat) : List PathAttribute := if ipv6Routes.isEmpty then []
  else [⟨OPTIONAL, .mpReachNlri ⟨.ipv6, .unicast, path.attrs.nextHop,
    makeNlriList ipv6Routes (path.pathIdFor format.addPath ipv6Unicast), []⟩⟩]

def new (nlriList : List IpNetwork) (format : MessageFormat) : UpdateMessage := let ipv4Routes := nlriList.filter isIpv4Network
  let ipv6Routes := nlriList.filter fun net => !isIpv4Network net
  let pathAttributes := buildCommonPathAttrs path ++ nextHopAttr path ipv4Routes ++ mpReachAttr path ipv6Routes format
  { withdrawnRoutesLen := 0
    withdrawnRoutes := []
    totalPathAttributesLen := sectionLen (writePathAttributes pathAttributes format.use4byteAsn)
    pathAttributes := pathAttributes
    nlriList := makeNlriList ipv4Routes (path.pathIdFor format.addPath ipv4Unicast)
    format := format }

def newLs (lsNlri : List LsNlri) (afiSafi : AfiSafi) (format : MessageFormat) : UpdateMessage :=
  let pathAttributes := buildCommonPathAttrs path ++
    [⟨OPTIONAL, .mpReachNlri ⟨afiSafi.afi, afiSafi.safi, path.attrs.nextHop, [], lsNlri⟩⟩] ++
    (path.attrs.lsAttr.map fun lsAttr => PathAttribute.mk (OPTIONAL ||| TRANSITIVE) (.lsAttr lsAttr)).toList
  { withdrawnRoutesLen := 0
    withdrawnRoutes := []
    totalPathAttributesLen := sectionLen (writePathAttributes pathAttributes format.use4byteAsn)
    pathAttributes := pathAttributes
    nlriList := []
    format := format }

def nextHopOf : PathAttrValue → Option NextHopAddr
  | .nextHop nextHop => some nextHop
  | _ => none

section

variable (message : UpdateMessage)

def origin : Option Origin := message.attrValues.findSome? fun
  | .origin origin => some origin
  | _ => none

def asPath : Option (List AsPathSegment) := message.attrValues.findSome? fun
  | .asPath path => some path.segments
  | _ => none

def as4Path : Option (List AsPathSegment) := message.attrValues.findSome? fun
  | .as4Path path => some path.segments
  | _ => none

def aggregator : Option Aggregator := message.attrValues.findSome? fun
  | .aggregator aggregator => some aggregator
  | _ => none

def as4Aggregator : Option Aggregator := message.attrValues.findSome? fun
  | .as4Aggregator aggregator => some aggregator
  | _ => none

def nextHop : Option NextHopAddr :=
  ((message.attrValues.findSome? mpReach).map MpReachNlri.nextHop).or (message.attrValues.findSome? nextHopOf)

def localPref : Option UInt32 := message.attrValues.findSome? fun
  | .localPref pref => some pref
  | _ => none

def med : Option UInt32 := message.attrValues.findSome? fun
  | .multiExtiDisc med => some med
  | _ => none

def atomicAggregate : Bool := message.attrValues.any fun value => value == .atomicAggregate

def communities : Option (List UInt32) := message.attrValues.findSome? fun
  | .communities communities => some communities
  | _ => none

def extendedCommunities : Option (List UInt64) := message.attrValues.findSome? fun
  | .extendedCommunities communities => some communities
  | _ => none

def largeCommunities : Option (List LargeCommunity) := message.attrValues.findSome? fun
  | .largeCommunities communities => some communities
  | _ => none

def originatorId : Option Ipv4Addr := message.attrValues.findSome? fun
  | .originatorId originator => some originator
  | _ => none

def clusterList : Option (List Ipv4Addr) := message.attrValues.findSome? fun
  | .clusterList clusters => some clusters
  | _ => none

def lsAttr : Option LsAttr := message.attrValues.findSome? fun
  | .lsAttr lsAttr => some lsAttr
  | _ => none

def unknownAttrs : List PathAttribute := message.pathAttributes.filter fun attr => attr.value.attrType.isNone

end

end Bgpgg.Wire.UpdateMessage

namespace Bgpgg.Wire

def countNonConfedAsns (path : AsPath) : Nat :=
  ((path.segments.filter fun segment => !isConfedSegment segment.segmentType).map fun segment => segment.asnList.length).sum

def copyLeading (prependCount : Nat) : Nat → List AsPathSegment → List AsPathSegment
  | _, [] => []
  | prepended, segment :: rest =>
    if isConfedSegment segment.segmentType then
      if prepended < prependCount then segment :: copyLeading prependCount prepended rest else []
    else if prepended < prependCount then
      let takeCount := min (prependCount - prepended) segment.asnList.length
      if takeCount > 0 then
        ⟨segment.segmentType, UInt8.ofNat takeCount, segment.asnList.take takeCount⟩ ::
          copyLeading prependCount (prepended + takeCount) rest
      else copyLeading prependCount prepended rest
    else []

def mergeAsPaths (asPath as4Path : AsPath) : AsPath := if countNonConfedAsns as4Path > countNonConfedAsns asPath then asPath
  else ⟨copyLeading (countNonConfedAsns asPath - countNonConfedAsns as4Path) 0 asPath.segments ++
    as4Path.segments.filter fun segment => !isConfedSegment segment.segmentType⟩

end Bgpgg.Wire

namespace Bgpgg.Rib.Path

open Wire

section

variable (message : UpdateMessage) (source : RouteSource) (peerSupports4byteAsn : Bool)

end

end Bgpgg.Rib.Path
