import Bgpgg.Net.Network

namespace Bgpgg.Wire

open Net

structure LsTlv where
  tlvType : UInt16
  value : List UInt8
deriving DecidableEq, Repr

structure NodeDescriptor where
  asNumber : Option UInt32 := none
  bgpLsId : Option UInt32 := none
  ospfAreaId : Option UInt32 := none
  igpRouterId : Option (List UInt8) := none
  unknown : List LsTlv := []
deriving DecidableEq, Repr

structure LinkDescriptor where
  linkLocalId : Option UInt32 := none
  linkRemoteId : Option UInt32 := none
  ipv4InterfaceAddr : Option (List UInt8) := none
  ipv4NeighborAddr : Option (List UInt8) := none
  ipv6InterfaceAddr : Option (List UInt8) := none
  ipv6NeighborAddr : Option (List UInt8) := none
  multiTopologyId : Option (List UInt16) := none
  unknown : List LsTlv := []
deriving DecidableEq, Repr

structure PrefixDescriptor where
  multiTopologyId : Option (List UInt16) := none
  ospfRouteType : Option UInt8 := none
  ipReachability : Option (List UInt8) := none
  unknown : List LsTlv := []
deriving DecidableEq, Repr

inductive LsNlriType where
  | node
  | link
  | prefixV4
  | prefixV6
deriving DecidableEq, Repr

inductive LsDescriptors where
  | node (localNode : NodeDescriptor)
  | link (localNode remoteNode : NodeDescriptor) (linkDescriptors : LinkDescriptor)
  | prefixV4 (localNode : NodeDescriptor) (prefixDescriptors : PrefixDescriptor)
  | prefixV6 (localNode : NodeDescriptor) (prefixDescriptors : PrefixDescriptor)
deriving DecidableEq, Repr

structure LsNlriBody where
  protocolId : UInt8
  identifier : UInt64
  descriptors : LsDescriptors
deriving DecidableEq, Repr

-- raw never holds the route distinguisher. Equality looks at every field, so two
-- decodings of the same bytes are the same key only when their bodies agree too.
structure LsNlri where
  nlriType : UInt16
  raw : List UInt8
  body : Option LsNlriBody
  routeDistinguisher : Option (List UInt8)
deriving DecidableEq, Repr

def LsNlri.isVpn (nlri : LsNlri) : Bool := nlri.routeDistinguisher.isSome

def LsNlri.safi (nlri : LsNlri) : Safi := if nlri.isVpn then .linkStateVpn else .linkState

inductive NodeAttrTlv where
  | flagBits (flags : UInt8)
  | opaqueData (data : List UInt8)
  | name (name : String)
  | isisAreaId (area : List UInt8)
  | ipv4RouterId (addr : Ipv4Addr)
  | ipv6RouterId (addr : Ipv6Addr)
deriving DecidableEq, Repr

inductive LinkAttrTlv where
  | ipv4RouterIdLocal (addr : Ipv4Addr)
  | ipv6RouterIdLocal (addr : Ipv6Addr)
  | ipv4RouterIdRemote (addr : Ipv4Addr)
  | ipv6RouterIdRemote (addr : Ipv6Addr)
  | adminGroup (value : UInt32)
  | maxLinkBw (value : UInt32)
  | maxRsvblLinkBw (value : UInt32)
  | unreservedBw (values : List UInt32)
  | teDefaultMetric (value : UInt32)
  | linkProtection (value : UInt16)
  | mplsProtocolMask (value : UInt8)
  | igpMetric (value : UInt32)
  | srlg (groups : List UInt32)
  | opaqueData (data : List UInt8)
  | name (name : String)
deriving DecidableEq, Repr

inductive PrefixAttrTlv where
  | igpFlags (flags : UInt8)
  | igpRouteTag (tags : List UInt32)
  | igpExtendedRouteTag (tags : List UInt64)
  | metric (value : UInt32)
  | ospfFwdAddr (addr : IpAddr)
  | opaqueData (data : List UInt8)
deriving DecidableEq, Repr

inductive LsAttrTlv where
  | node (tlv : NodeAttrTlv)
  | link (tlv : LinkAttrTlv)
  | pfx (tlv : PrefixAttrTlv)
  | unknown (tlv : LsTlv)
deriving DecidableEq, Repr

structure LsAttr where
  raw : List UInt8
  tlvs : List LsAttrTlv
deriving DecidableEq, Repr

end Bgpgg.Wire
