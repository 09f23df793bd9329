import Bgpgg.Wire.LinkState

namespace Bgpgg.Wire

open Net

inductive Origin where
  | igp
  | egp
  | incomplete
deriving DecidableEq, Repr

def Origin.toU8 : Origin → UInt8
  | .igp => 0
  | .egp => 1
  | .incomplete => 2

inductive AsPathSegmentType where
  | asSet
  | asSequence
  | asConfedSequence
  | asConfedSet
deriving DecidableEq, Repr

-- segmentLen is stored next to the list it counts; only the decoder keeps the two equal.
structure AsPathSegment where
  segmentType : AsPathSegmentType
  segmentLen : UInt8
  asnList : List UInt32
deriving DecidableEq, Repr

structure AsPath where
  segments : List AsPathSegment
deriving DecidableEq, Repr

inductive NextHopAddr where
  | ipv4 (addr : Ipv4Addr)
  | ipv6 (addr : Ipv6Addr)
  | ipv6WithLinkLocal (global linkLocal : Ipv6Addr)
deriving DecidableEq, Repr

structure Aggregator where
  asn : UInt32
  ipAddr : Ipv4Addr
deriving DecidableEq, Repr

structure LargeCommunity where
  globalAdmin : UInt32
  localData1 : UInt32
  localData2 : UInt32
deriving DecidableEq, Repr

structure Nlri where
  pfx : IpNetwork
  pathId : Option UInt32
deriving DecidableEq, Repr

structure MpReachNlri where
  afi : Afi
  safi : Safi
  nextHop : NextHopAddr
  nlri : List Nlri
  lsNlri : List LsNlri
deriving DecidableEq, Repr

structure MpUnreachNlri where
  afi : Afi
  safi : Safi
  withdrawnRoutes : List Nlri
  lsWithdrawn : List LsNlri
deriving DecidableEq, Repr

inductive PathAttrValue where
  | origin (origin : Origin)
  | asPath (path : AsPath)
  | nextHop (addr : NextHopAddr)
  | multiExtiDisc (value : UInt32)
  | localPref (value : UInt32)
  | atomicAggregate
  | aggregator (aggregator : Aggregator)
  | communities (communities : List UInt32)
  | originatorId (addr : Ipv4Addr)
  | clusterList (clusters : List Ipv4Addr)
  | mpReachNlri (mp : MpReachNlri)
  | mpUnreachNlri (mp : MpUnreachNlri)
  | extendedCommunities (communities : List UInt64)
  | as4Path (path : AsPath)
  | as4Aggregator (aggregator : Aggregator)
  | largeCommunities (communities : List LargeCommunity)
  | lsAttr (attr : LsAttr)
  | unknown (typeCode : UInt8) (flags : UInt8) (data : List UInt8)
deriving DecidableEq, Repr

structure PathAttribute where
  flags : UInt8
  value : PathAttrValue
deriving DecidableEq, Repr

def AS_TRANS : UInt32 := 23456
def MAX_2BYTE_ASN : UInt32 := 65535

end Bgpgg.Wire
