import Bgpgg.Wire.AttrList

namespace Bgpgg.Wire

open Net Lib

def WITHDRAWN_ROUTES_LENGTH_SIZE : Nat := 2
def TOTAL_ATTR_LENGTH_SIZE : Nat := 2
def BGP_HEADER_SIZE_BYTES : Nat := 19
def MAX_MESSAGE_SIZE : Nat := 4096

def MAX_BODY_SIZE : Nat := MAX_MESSAGE_SIZE - BGP_HEADER_SIZE_BYTES

structure UpdateMessage where
  withdrawnRoutesLen : UInt16
  withdrawnRoutes : List Nlri
  totalPathAttributesLen : UInt16
  pathAttributes : List PathAttribute
  nlriList : List Nlri
  format : MessageFormat
deriving DecidableEq, Repr

-- The two hash tables a decoder walks: TLVs by type, and the routes of a message that is
-- turned into a withdrawal.
structure Hashing where
  tlvs : HashOrder UInt16
  routes : HashOrder Nlri

instance : Inhabited Hashing := ⟨⟨default, default⟩⟩

def validateUpdateMessageLengths (withdrawnRoutesLen totalPathAttributesLen bodyLength : Nat) : Parse Unit :=
  if withdrawnRoutesLen + totalPathAttributesLen + (WITHDRAWN_ROUTES_LENGTH_SIZE + TOTAL_ATTR_LENGTH_SIZE) > bodyLength then
    .err malformedAttributeList
  else .ok ()

variable (attrs : List PathAttribute)

def hasValue (wanted : PathAttrValue → Bool) : Bool := attrs.any fun attr => wanted attr.value

def validateWellKnownMandatoryAttributes : Bool := hasValue attrs (fun value => value.attrType == some .origin) &&
    hasValue attrs (fun value => value.attrType == some .asPath) &&
    (hasValue attrs (fun value => value.attrType == some .nextHop) || hasValue attrs fun value => value.attrType == some .mpReachNlri)

def announcesMp : PathAttrValue → Bool
  | .mpReachNlri mp => !mp.nlri.isEmpty
  | _ => false

def shouldEscalateToSessionReset (nlriList : List Nlri) (hasMpReachNlri : Bool) (attrs : List PathAttribute)
    (totalPathAttributesLen : Nat) : Bool :=
  if !nlriList.isEmpty || hasMpReachNlri then false
  else if totalPathAttributesLen == 0 then false
  else
    match attrs with
    | [attr] => attr.value.attrType != some .mpUnreachNlri
    | _ => true

def mpNlri : PathAttrValue → List Nlri
  | .mpReachNlri mp => mp.nlri
  | .mpUnreachNlri mp => mp.withdrawnRoutes
  | _ => []

def collectMpNlri : List Nlri := attrs.flatMap fun attr => mpNlri attr.value

def isV4 (nlri : Nlri) : Bool := match nlri.pfx with
  | .v4 _ => true
  | .v6 _ => false

def sectionLen (bytes : List UInt8) : UInt16 := UInt16.ofNat bytes.length

def UpdateMessage.newWithdraw (withdrawn : List Nlri) (format : MessageFormat) : UpdateMessage :=
  let ipv4Withdrawn := withdrawn.filter isV4
  let ipv6Withdrawn := withdrawn.filter fun nlri => !isV4 nlri
  let pathAttributes : List PathAttribute := if ipv6Withdrawn.isEmpty then []
    else [⟨OPTIONAL, .mpUnreachNlri ⟨.ipv6, .unicast, ipv6Withdrawn, []⟩⟩]
  { withdrawnRoutesLen := sectionLen (writeNlriList ipv4Withdrawn)
    withdrawnRoutes := ipv4Withdrawn
    totalPathAttributesLen := sectionLen (writePathAttributes pathAttributes format.use4byteAsn)
    pathAttributes := pathAttributes
    nlriList := []
    format := format }

def UpdateMessage.newLsWithdraw (lsWithdrawn : List LsNlri) (afiSafi : AfiSafi) (format : MessageFormat) : UpdateMessage :=
  let pathAttributes : List PathAttribute := [⟨OPTIONAL, .mpUnreachNlri ⟨afiSafi.afi, afiSafi.safi, [], lsWithdrawn⟩⟩]
  { withdrawnRoutesLen := 0
    withdrawnRoutes := []
    totalPathAttributesLen := sectionLen (writePathAttributes pathAttributes format.use4byteAsn)
    pathAttributes := pathAttributes
    nlriList := []
    format := format }

def ipv4Unicast : AfiSafi := ⟨.ipv4, .unicast⟩
def ipv6Unicast : AfiSafi := ⟨.ipv6, .unicast⟩

structure DecodedBody where
  withdrawnRoutesLen : UInt16
  withdrawnRoutes : List Nlri
  totalPathAttributesLen : UInt16
  pathAttributes : List PathAttribute
  nlriList : List Nlri
  treatAsWithdraw : Bool
deriving DecidableEq, Repr

def decodeBody (order : HashOrder UInt16) (bytes : List UInt8) (format : MessageFormat) : Parse DecodedBody := do
  let ipv4AddPath := format.addPath.contains ipv4Unicast
  let withdrawnLenBytes ← bytesAt bytes 0 2
  let withdrawnRoutesLen := u16FromBytes withdrawnLenBytes
  let withdrawnBytes ← slice bytes WITHDRAWN_ROUTES_LENGTH_SIZE (WITHDRAWN_ROUTES_LENGTH_SIZE + withdrawnRoutesLen.toNat)
  -- A field that cannot be read is skipped by its length and the message becomes a withdrawal.
  let withdrawnRoutes ← (parseNlriList withdrawnBytes ipv4AddPath).optional
  let offset := WITHDRAWN_ROUTES_LENGTH_SIZE + withdrawnRoutesLen.toNat
  let attrLenBytes ← bytesAt bytes offset 2
  let totalPathAttributesLen := u16FromBytes attrLenBytes
  validateUpdateMessageLengths withdrawnRoutesLen.toNat totalPathAttributesLen.toNat bytes.length
  let offset := offset + TOTAL_ATTR_LENGTH_SIZE
  let attrBytes ← slice bytes offset (offset + totalPathAttributesLen.toNat)
  let (pathAttributes, attrTreatAsWithdraw) ← readPathAttributes order attrBytes format
  let offset := offset + totalPathAttributesLen.toNat
  let nlriList ←
    if totalPathAttributesLen = 0 then .ok []
    else do
      let nlriBytes ← slice bytes offset bytes.length
      parseNlriList nlriBytes ipv4AddPath
  .ok ⟨withdrawnRoutesLen, withdrawnRoutes.getD [], totalPathAttributesLen, pathAttributes, nlriList,
    withdrawnRoutes.isNone || attrTreatAsWithdraw⟩

def DecodedBody.hasMpReachNlri (body : DecodedBody) : Bool := hasValue body.pathAttributes announcesMp

def DecodedBody.withdrawAll (body : DecodedBody) : Bool := body.treatAsWithdraw ||
    ((!body.nlriList.isEmpty || body.hasMpReachNlri) && !validateWellKnownMandatoryAttributes body.pathAttributes)

def DecodedBody.escalates (body : DecodedBody) : Bool :=
  shouldEscalateToSessionReset body.nlriList body.hasMpReachNlri body.pathAttributes body.totalPathAttributesLen.toNat

def DecodedBody.allRoutes (body : DecodedBody) : List Nlri := body.withdrawnRoutes ++ body.nlriList ++ collectMpNlri body.pathAttributes

def DecodedBody.asMessage (body : DecodedBody) (format : MessageFormat) : UpdateMessage :=
  ⟨body.withdrawnRoutesLen, body.withdrawnRoutes, body.totalPathAttributesLen, body.pathAttributes, body.nlriList, format⟩

def UpdateMessage.fromBytes (hashing : Hashing) (bytes : List UInt8) (format : MessageFormat) : Parse UpdateMessage := do
  let body ← decodeBody hashing.tlvs bytes format
  if body.withdrawAll then
    if body.escalates then .err malformedAttributeList
    else .ok (UpdateMessage.newWithdraw (hashing.routes.keys body.allRoutes) format)
  else .ok (body.asMessage format)

namespace UpdateMessage

variable (message : UpdateMessage)

def attrValues : List PathAttrValue := message.pathAttributes.map PathAttribute.value

def mpReach : PathAttrValue → Option MpReachNlri
  | .mpReachNlri mp => some mp
  | _ => none

def mpUnreach : PathAttrValue → Option MpUnreachNlri
  | .mpUnreachNlri mp => some mp
  | _ => none

def allNlri : List Nlri := message.nlriList ++ (message.attrValues.filterMap mpReach).flatMap MpReachNlri.nlri

def allWithdrawnRoutes : List Nlri :=
  message.withdrawnRoutes ++ (message.attrValues.filterMap mpUnreach).flatMap MpUnreachNlri.withdrawnRoutes

def lsNlriList : List LsNlri := (message.attrValues.filterMap mpReach).flatMap fun mp => if mp.afi = .linkState then mp.lsNlri else []

def lsWithdrawnList : List LsNlri :=
  (message.attrValues.filterMap mpUnreach).flatMap fun mp => if mp.afi = .linkState then mp.lsWithdrawn else []

def eorAfiSafi : Option AfiSafi := if !message.withdrawnRoutes.isEmpty || !message.nlriList.isEmpty then none
  else
    match message.pathAttributes with
    | [] => some ipv4Unicast
    | [attr] =>
      match attr.value with
      | .mpUnreachNlri mp =>
        if mp.withdrawnRoutes.isEmpty && mp.lsWithdrawn.isEmpty then some ⟨mp.afi, mp.safi⟩ else none
      | _ => none
    | _ => none

end UpdateMessage

def isAs4Attribute : PathAttrValue → Bool
  | .as4Path _ => true
  | .as4Aggregator _ => true
  | _ => false

def transSegment (segment : AsPathSegment) : AsPathSegment :=
  { segment with asnList := segment.asnList.map fun asn => if asn > MAX_2BYTE_ASN then AS_TRANS else asn }

def hasLargeAsn (path : AsPath) : Bool := path.segments.any fun segment => segment.asnList.any fun asn => asn > MAX_2BYTE_ASN

variable (attr : PathAttribute)

def transformAsPathForOldSpeaker (path : AsPath) : List PathAttribute := if !hasLargeAsn path then [attr]
  else
    let segments4byte := path.segments.filter fun segment => !isConfedSegment segment.segmentType
    ⟨attr.flags, .asPath ⟨path.segments.map transSegment⟩⟩ ::
      if segments4byte.isEmpty then [] else [⟨OPTIONAL ||| TRANSITIVE, .as4Path ⟨segments4byte⟩⟩]

def transformAggregatorForOldSpeaker (aggregator : Aggregator) : List PathAttribute := if aggregator.asn ≤ MAX_2BYTE_ASN then [attr]
  else
    [⟨attr.flags, .aggregator { aggregator with asn := AS_TRANS }⟩, ⟨OPTIONAL ||| TRANSITIVE, .as4Aggregator aggregator⟩]

def transformForOldSpeaker : List PathAttribute := match attr.value with
  | .asPath path => transformAsPathForOldSpeaker attr path
  | .aggregator aggregator => transformAggregatorForOldSpeaker attr aggregator
  | _ => [attr]

namespace UpdateMessage

variable (message : UpdateMessage)

def wireAttributes : List PathAttribute :=
  if message.format.use4byteAsn then message.pathAttributes.filter fun attr => !isAs4Attribute attr.value
  else message.pathAttributes.flatMap transformForOldSpeaker

def toBytes : List UInt8 := let withdrawnRoutesBytes := writeNlriList message.withdrawnRoutes
  let pathAttributesBytes := writePathAttributes message.wireAttributes message.format.use4byteAsn
  u16Bytes (sectionLen withdrawnRoutesBytes) ++ withdrawnRoutesBytes ++
    u16Bytes (sectionLen pathAttributesBytes) ++ pathAttributesBytes ++ writeNlriList message.nlriList

def UPDATE_TYPE : UInt8 := 2

def serialize : List UInt8 :=
  List.replicate 16 0xFF ++ u16Bytes (UInt16.ofNat BGP_HEADER_SIZE_BYTES + UInt16.ofNat message.toBytes.length) ++
    [UPDATE_TYPE] ++ message.toBytes

end UpdateMessage

end Bgpgg.Wire
