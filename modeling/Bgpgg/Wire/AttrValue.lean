import Bgpgg.Wire.AttrType
import Bgpgg.Wire.Format
import Bgpgg.Wire.LsAttrCodec

namespace Bgpgg.Wire

open Net Lib

def Origin.tryFrom (value : UInt8) : Option Origin := if value = 0 then some .igp
  else if value = 1 then some .egp
  else if value = 2 then some .incomplete
  else none

def AsPathSegmentType.toU8 : AsPathSegmentType → UInt8
  | .asSet => 1
  | .asSequence => 2
  | .asConfedSequence => 3
  | .asConfedSet => 4

def AsPathSegmentType.tryFrom (value : UInt8) : Option AsPathSegmentType := if value = 1 then some .asSet
  else if value = 2 then some .asSequence
  else if value = 3 then some .asConfedSequence
  else if value = 4 then some .asConfedSet
  else none

def malformedAsPath : ParserError := ⟨.malformedASPath, []⟩
def optionalAttribute : ParserError := ⟨.optionalAttributeError, []⟩
def attributeLength : ParserError := ⟨.attributeLengthError, []⟩
def invalidNextHop : ParserError := ⟨.invalidNextHopAttribute, []⟩

def readAsns (bytes : List UInt8) (asnSize : Nat) : Nat → Nat → Parse (List UInt32)
  | _, 0 => .ok []
  | pos, count + 1 => do
    let asn ← bytesAt bytes pos asnSize
    let rest ← readAsns bytes asnSize (pos + asnSize) count
    .ok (u32FromBytes asn :: rest)

-- A turn never passes the end of the buffer, so the check after the loop that all bytes were
-- taken has nothing to find.
def readSegment (asnSize : Nat) (segments : List AsPathSegment) (bytes : List UInt8) : Parse (List AsPathSegment × List UInt8) :=
  if 2 > bytes.length then .err malformedAsPath
  else do
    let typeByte ← byteAt bytes 0
    let segmentType ← Checked.ofOption malformedAsPath (AsPathSegmentType.tryFrom typeByte)
    let segmentLen ← byteAt bytes 1
    if segmentLen = 0 then .err malformedAsPath
    else
      let segmentTotalSize := 2 + segmentLen.toNat * asnSize
      if segmentTotalSize > bytes.length then .err malformedAsPath
      else do
        let asnList ← readAsns bytes asnSize 2 segmentLen.toNat
        .ok (segments ++ [⟨segmentType, segmentLen, asnList⟩], bytes.drop segmentTotalSize)

variable (order : HashOrder UInt16) (bytes : List UInt8) (format : MessageFormat) (use4byteAsn : Bool) (offset : Nat)

def tryReadAsPath (asnSize : Nat) : Parse AsPath := do
  let segments ← scan (readSegment asnSize) [] bytes
  .ok ⟨segments⟩

def asnSize : Nat := if use4byteAsn then 4 else 2

def readAttrAsPath : Parse AsPath := if bytes.isEmpty then .ok ⟨[]⟩ else tryReadAsPath bytes (asnSize use4byteAsn)

def isConfedSegment : AsPathSegmentType → Bool
  | .asConfedSequence | .asConfedSet => true
  | .asSet | .asSequence => false

def readAttrAs4Path : Parse AsPath := if bytes.length < 6 ∨ bytes.length % 2 ≠ 0 then .err malformedAsPath
  else do
    let path ← tryReadAsPath bytes 4
    .ok ⟨path.segments.filter fun segment => !isConfedSegment segment.segmentType⟩

def isValidUnicastIpv4 (ip : Ipv4Addr) : Bool := !(ip == 0 || ip == 0xFFFFFFFF || ip &&& 0xF0000000 == 0xE0000000)

def parseIpv4Addr : Parse Ipv4Addr := do
  let source ← slice bytes offset (offset + 4)
  let octets ← copyExact 4 source
  .ok (Ipv4Addr.fromOctets octets)

def parseIpv6Addr : Parse Ipv6Addr := do
  let source ← slice bytes offset (offset + 16)
  let octets ← copyExact 16 source
  .ok (Ipv6Addr.fromOctets octets)

def parseIpv4NextHop : Parse NextHopAddr := do
  let addr ← parseIpv4Addr bytes offset
  .ok (.ipv4 addr)

def parseIpv6NextHop (offset len : Nat) : Parse NextHopAddr := do
  let global ← parseIpv6Addr bytes offset
  if len = 32 then do
    let linkLocal ← parseIpv6Addr bytes (offset + 16)
    .ok (.ipv6WithLinkLocal global linkLocal)
  else .ok (.ipv6 global)

def readAttrNextHop : Parse NextHopAddr := parseIpv4NextHop bytes 0

def readAttrOriginatorId : Parse Ipv4Addr := parseIpv4Addr bytes 0

def readU32 : Parse UInt32 := if bytes.length = 4 then do
    let word ← bytesAt bytes 0 4
    .ok (u32FromBytes word)
  else .err attributeLength

def readAttrAggregator : Parse Aggregator := if bytes.length = 8 then do
    let asn ← bytesAt bytes 0 4
    let ipAddr ← bytesAt bytes 4 4
    .ok ⟨u32FromBytes asn, Ipv4Addr.fromOctets ipAddr⟩
  else do
    let asn ← bytesAt bytes 0 2
    let ipAddr ← bytesAt bytes 2 4
    .ok ⟨u32FromBytes asn, Ipv4Addr.fromOctets ipAddr⟩

def readAttrAs4Aggregator : Parse Aggregator := if bytes.length ≠ 8 then .err optionalAttribute else readAttrAggregator bytes

def readMultiple {Item : Type} (size : Nat) (build : List UInt8 → Item) (bytes : List UInt8) : Parse (List Item) :=
  if bytes.length % size ≠ 0 then .err optionalAttribute else .ok ((chunks size bytes).map build)

def LargeCommunity.fromBytes : LargeCommunity where
  globalAdmin := u32FromBytes (bytes.take 4)
  localData1 := u32FromBytes ((bytes.drop 4).take 4)
  localData2 := u32FromBytes ((bytes.drop 8).take 4)

def LargeCommunity.toBytes (community : LargeCommunity) : List UInt8 :=
  u32Bytes community.globalAdmin ++ u32Bytes community.localData1 ++ u32Bytes community.localData2

def readAttrCommunities : Parse (List UInt32) := readMultiple 4 u32FromBytes bytes

def readAttrExtendedCommunities : Parse (List UInt64) := readMultiple 8 u64FromBytes bytes

def readAttrLargeCommunities : Parse (List LargeCommunity) := readMultiple 12 LargeCommunity.fromBytes bytes

def readAttrClusterList : List Ipv4Addr := (chunks 4 bytes).map Ipv4Addr.fromOctets

def MP_HEADER_SIZE : Nat := 4
def MP_RESERVED_SIZE : Nat := 1

section

variable (afi : Afi) (safi : Safi) (nextHopLen : Nat)

def nextHopLenValid : Bool := match afi, safi with
  | .ipv4, .unicast | .ipv4, .multicast | .ipv4, .mplsLabel => nextHopLen == 4
  | .ipv6, .unicast | .ipv6, .multicast | .ipv6, .mplsLabel => nextHopLen == 16 || nextHopLen == 32
  | .linkState, .linkStateVpn => nextHopLen == RD_LEN + 4 || nextHopLen == RD_LEN + 16
  | .linkState, .linkState => nextHopLen == 4 || nextHopLen == 16 || nextHopLen == 32
  | _, _ => false

def validateMpReachBuffer (bytes : List UInt8) : Parse Unit := if !nextHopLenValid afi safi nextHopLen then .err attributeLength
  else if bytes.length < MP_HEADER_SIZE + nextHopLen + MP_RESERVED_SIZE then .err attributeLength
  else .ok ()

-- A link-state next hop forwards nothing, so any address is taken; the VPN form starts with
-- a distinguisher of zeros that is skipped.
def parseMpNextHop : Parse NextHopAddr := match afi with
  | .ipv4 => do
    let addr ← parseIpv4Addr bytes offset
    if !isValidUnicastIpv4 addr then .err invalidNextHop else .ok (.ipv4 addr)
  | .ipv6 => parseIpv6NextHop bytes offset nextHopLen
  | .linkState =>
    if nextHopLen = 4 then parseIpv4NextHop bytes offset
    else if nextHopLen = RD_LEN + 4 then parseIpv4NextHop bytes (offset + RD_LEN)
    else if nextHopLen = 16 ∨ nextHopLen = 32 then parseIpv6NextHop bytes offset nextHopLen
    else if nextHopLen = RD_LEN + 16 then parseIpv6NextHop bytes (offset + RD_LEN) 16
    else .err invalidNextHop

def parseMpNlri (nlriBytes : List UInt8) (addPath : Bool) : Parse (List Nlri × List LsNlri) := match afi with
  | .ipv4 => do
    let nlri ← parseNlriList nlriBytes addPath
    .ok (nlri, [])
  | .ipv6 => do
    let nlri ← parseNlriV6List nlriBytes addPath
    .ok (nlri, [])
  | .linkState => do
    let lsNlri ← parseLsNlriList order nlriBytes safi
    .ok ([], lsNlri)

def readAttrMpReachNlri : Parse MpReachNlri := if bytes.length < MP_HEADER_SIZE + MP_RESERVED_SIZE then .err optionalAttribute
  else do
    let afiBytes ← bytesAt bytes 0 2
    let afi ← Checked.ofOption optionalAttribute (Afi.tryFrom (u16FromBytes afiBytes))
    let safiByte ← byteAt bytes 2
    let safi ← Checked.ofOption optionalAttribute (Safi.tryFrom safiByte)
    let nextHopByte ← byteAt bytes 3
    let nextHopLen := nextHopByte.toNat
    validateMpReachBuffer afi safi nextHopLen bytes
    let nextHop ← parseMpNextHop bytes MP_HEADER_SIZE afi nextHopLen
    let nlriBytes ← slice bytes (MP_HEADER_SIZE + nextHopLen + MP_RESERVED_SIZE) bytes.length
    let (nlri, lsNlri) ← parseMpNlri order afi safi nlriBytes (format.addPath.contains ⟨afi, safi⟩)
    .ok ⟨afi, safi, nextHop, nlri, lsNlri⟩

def readAttrMpUnreachNlri : Parse MpUnreachNlri := if bytes.length < 3 then .err optionalAttribute
  else do
    let afiBytes ← bytesAt bytes 0 2
    let afi ← Checked.ofOption optionalAttribute (Afi.tryFrom (u16FromBytes afiBytes))
    let safiByte ← byteAt bytes 2
    let safi ← Checked.ofOption optionalAttribute (Safi.tryFrom safiByte)
    let nlriBytes ← slice bytes 3 bytes.length
    let (withdrawnRoutes, lsWithdrawn) ← parseMpNlri order afi safi nlriBytes (format.addPath.contains ⟨afi, safi⟩)
    .ok ⟨afi, safi, withdrawnRoutes, lsWithdrawn⟩

def validateNlriAfi (nlriList : List Nlri) : Bool := nlriList.all fun nlri =>
    match afi, nlri.pfx with
    | .ipv4, .v4 _ => true
    | .ipv6, .v6 _ => true
    | _, _ => false

def parseAttrValue (attrType : AttrType) (attrData : List UInt8) (format : MessageFormat) : Checked Unit PathAttrValue :=
  match attrType with
  | .origin => do
    let value ← byteAt attrData 0
    let origin ← Checked.ofOption () (Origin.tryFrom value)
    .ok (.origin origin)
  | .asPath => do
    let path ← (readAttrAsPath attrData format.use4byteAsn).silent
    .ok (.asPath path)
  | .nextHop => do
    let nextHop ← (readAttrNextHop attrData).silent
    match nextHop with
    | .ipv4 addr => if !isValidUnicastIpv4 addr then .err () else .ok (.nextHop nextHop)
    | _ => .ok (.nextHop nextHop)
  | .multiExtiDisc => do
    let med ← (readU32 attrData).silent
    .ok (.multiExtiDisc med)
  | .localPref =>
    if format.isEbgp then .err ()
    else do
      let localPref ← (readU32 attrData).silent
      .ok (.localPref localPref)
  | .atomicAggregate => .ok .atomicAggregate
  | .aggregator => do
    let aggregator ← (readAttrAggregator attrData).silent
    .ok (.aggregator aggregator)
  | .communities => do
    let communities ← (readAttrCommunities attrData).silent
    .ok (.communities communities)
  | .originatorId =>
    if format.isEbgp then .err ()
    else do
      let originatorId ← (readAttrOriginatorId attrData).silent
      .ok (.originatorId originatorId)
  | .clusterList => if format.isEbgp then .err () else .ok (.clusterList (readAttrClusterList attrData))
  | .mpReachNlri => do
    let mpReach ← (readAttrMpReachNlri order attrData format).silent
    if validateNlriAfi mpReach.afi mpReach.nlri then .ok (.mpReachNlri mpReach) else .err ()
  | .mpUnreachNlri => do
    let mpUnreach ← (readAttrMpUnreachNlri order attrData format).silent
    if validateNlriAfi mpUnreach.afi mpUnreach.withdrawnRoutes then .ok (.mpUnreachNlri mpUnreach) else .err ()
  | .extendedCommunities => do
    let communities ← (readAttrExtendedCommunities attrData).silent
    .ok (.extendedCommunities communities)
  | .largeCommunities => do
    let communities ← (readAttrLargeCommunities attrData).silent
    .ok (.largeCommunities communities)
  | .as4Path => do
    let path ← (readAttrAs4Path attrData).silent
    .ok (.as4Path path)
  | .as4Aggregator => do
    let aggregator ← (readAttrAs4Aggregator attrData).silent
    .ok (.as4Aggregator aggregator)
  | .linkState => do
    let lsAttr ← parseLsAttr attrData
    .ok (.lsAttr lsAttr)

def encodeAsn (asn : UInt32) (use4byteAsn : Bool) : List UInt8 := if use4byteAsn then u32Bytes asn else u16Bytes asn.toUInt16

def writeSegment (segment : AsPathSegment) : List UInt8 :=
  [segment.segmentType.toU8, segment.segmentLen] ++ segment.asnList.flatMap fun asn => encodeAsn asn use4byteAsn

def writeAsPath (path : AsPath) (use4byteAsn : Bool) : List UInt8 := path.segments.flatMap (writeSegment use4byteAsn)

def nextHopOctets : NextHopAddr → List UInt8
  | .ipv4 addr => addr.octets
  | .ipv6 addr => addr.octets
  | .ipv6WithLinkLocal global linkLocal => global.octets ++ linkLocal.octets

def writeMpNextHop (nextHop : NextHopAddr) (vpn : Bool) : List UInt8 := let rd := if vpn then List.replicate RD_LEN 0 else []
  let octets := rd ++ nextHopOctets nextHop
  UInt8.ofNat octets.length :: octets

def writeMpNlri (nlri : List Nlri) (lsNlri : List LsNlri) : List UInt8 :=
  if afi = .linkState then writeLsNlriList lsNlri else writeNlriList nlri

end

def writeAttrMpReachNlri (mpReach : MpReachNlri) : List UInt8 :=
  u16Bytes mpReach.afi.toU16 ++ [mpReach.safi.toU8] ++ writeMpNextHop mpReach.nextHop (mpReach.safi == .linkStateVpn) ++
    [0] ++ writeMpNlri mpReach.afi mpReach.nlri mpReach.lsNlri

def writeAttrMpUnreachNlri (mpUnreach : MpUnreachNlri) : List UInt8 := u16Bytes mpUnreach.afi.toU16 ++ [mpUnreach.safi.toU8] ++
    writeMpNlri mpUnreach.afi mpUnreach.withdrawnRoutes mpUnreach.lsWithdrawn

def writeAggregator (aggregator : Aggregator) (use4byteAsn : Bool) : List UInt8 :=
  encodeAsn aggregator.asn use4byteAsn ++ aggregator.ipAddr.octets

def writeAttrValue (value : PathAttrValue) (use4byteAsn : Bool) : Option (List UInt8) := match value with
  | .origin origin => some [origin.toU8]
  | .asPath path => some (writeAsPath path use4byteAsn)
  | .nextHop (.ipv6WithLinkLocal _ _) => none
  | .nextHop nextHop => some (nextHopOctets nextHop)
  | .multiExtiDisc value => some (u32Bytes value)
  | .localPref value => some (u32Bytes value)
  | .atomicAggregate => some []
  | .aggregator aggregator => some (writeAggregator aggregator use4byteAsn)
  | .communities communities => some (communities.flatMap u32Bytes)
  | .originatorId originatorId => some originatorId.octets
  | .clusterList clusterList => some (clusterList.flatMap Ipv4Addr.octets)
  | .mpReachNlri mpReach => some (writeAttrMpReachNlri mpReach)
  | .mpUnreachNlri mpUnreach => some (writeAttrMpUnreachNlri mpUnreach)
  | .extendedCommunities communities => some (communities.flatMap u64Bytes)
  | .largeCommunities communities => some (communities.flatMap LargeCommunity.toBytes)
  | .as4Path path => some (writeAsPath path true)
  | .as4Aggregator aggregator => some (writeAggregator aggregator true)
  | .lsAttr attr => some attr.raw
  | .unknown _ _ data => some data

def mpLsNlri : PathAttrValue → List LsNlri
  | .mpReachNlri mp => mp.lsNlri
  | .mpUnreachNlri mp => mp.lsWithdrawn
  | _ => []

end Bgpgg.Wire
