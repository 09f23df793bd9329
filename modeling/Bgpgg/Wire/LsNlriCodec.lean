import Bgpgg.Lib.HashOrder
import Bgpgg.Wire.NlriCodec

namespace Bgpgg.Wire

open Net Lib List Checked

def TLV_HEADER_LEN : Nat := 4
def NLRI_BODY_HEADER_LEN : Nat := 9
def RD_LEN : Nat := 8

-- Type, length and value, the framing of the NLRI list, of the descriptors and of the
-- attribute. The buffer starts at the cursor.
def readTlv {Error : Type} (truncated : Error) (overflow : UInt16 → Nat → Nat → Error) (bytes : List UInt8) :
    Checked Error (LsTlv × List UInt8) :=
  if bytes.length < TLV_HEADER_LEN then .err truncated
  else do
    let typeBytes ← bytesAt bytes 0 2
    let lenBytes ← bytesAt bytes 2 2
    let tlvType := u16FromBytes typeBytes
    let tlvLen := (u16FromBytes lenBytes).toNat
    let bytes := bytes.drop TLV_HEADER_LEN
    if tlvLen > bytes.length then .err (overflow tlvType tlvLen bytes.length)
    else do
      let value ← slice bytes 0 tlvLen
      .ok (⟨tlvType, value⟩, bytes.drop tlvLen)

def writeTlvRaw (tlv : LsTlv) : List UInt8 := u16Bytes tlv.tlvType ++ u16Bytes (UInt16.ofNat tlv.value.length) ++ tlv.value

inductive LsTlvType where
  | localNodeDescriptors
  | remoteNodeDescriptors
  | linkLocalRemoteId
  | ipv4InterfaceAddr
  | ipv4NeighborAddr
  | ipv6InterfaceAddr
  | ipv6NeighborAddr
  | multiTopologyId
  | ospfRouteType
  | ipReachabilityInfo
  | autonomousSystem
  | bgpLsId
  | ospfAreaId
  | igpRouterId
deriving DecidableEq, Repr

def LsTlvType.toU16 : LsTlvType → UInt16
  | .localNodeDescriptors => 256
  | .remoteNodeDescriptors => 257
  | .linkLocalRemoteId => 258
  | .ipv4InterfaceAddr => 259
  | .ipv4NeighborAddr => 260
  | .ipv6InterfaceAddr => 261
  | .ipv6NeighborAddr => 262
  | .multiTopologyId => 263
  | .ospfRouteType => 264
  | .ipReachabilityInfo => 265
  | .autonomousSystem => 512
  | .bgpLsId => 513
  | .ospfAreaId => 514
  | .igpRouterId => 515

def LsTlvType.all : List LsTlvType :=
  [.localNodeDescriptors, .remoteNodeDescriptors, .linkLocalRemoteId, .ipv4InterfaceAddr, .ipv4NeighborAddr,
    .ipv6InterfaceAddr, .ipv6NeighborAddr, .multiTopologyId, .ospfRouteType, .ipReachabilityInfo, .autonomousSystem,
    .bgpLsId, .ospfAreaId, .igpRouterId]

def LsTlvType.fromU16 (value : UInt16) : Option LsTlvType := LsTlvType.all.find? fun known => known.toU16 == value

-- Recoverable: the entry is kept without its body.
inductive LsNlriError where
  | bodyTooShort (len : Nat)
  | tlvTruncated (offset remaining : Nat)
  | tlvOverflow (tlvType : UInt16) (len available : Nat)
  | tlvOrdering (prevType : UInt16) (prevLen : Nat) (currType : UInt16) (currLen : Nat)
  | missingTlv (name : String)
  | duplicateSubTlv (tlvType : UInt16)
  | invalidLength (name : String) (actual expected : Nat)
  | unalignedLength (name : String) (actual alignment : Nat)
deriving DecidableEq, Repr

abbrev LsParse := Checked LsNlriError

def parseTlv (total : Nat) (tlvs : List LsTlv) (bytes : List UInt8) : LsParse (List LsTlv × List UInt8) := do
  let (tlv, rest) ← readTlv (.tlvTruncated (total - bytes.length) bytes.length) .tlvOverflow bytes
  .ok (tlvs ++ [tlv], rest)

section

variable (value : List UInt8) (order : HashOrder UInt16) (bytes : List UInt8) (safi : Safi) (entries : List LsNlri)
  (tlvs : List LsTlv)

def parseTlvList : LsParse (List LsTlv) := scan (parseTlv bytes.length) [] bytes

def tlvOrdering (prev curr : LsTlv) : Ordering := (compare prev.tlvType curr.tlvType).then
    ((compare prev.value.length curr.value.length).then (List.compareLex compare prev.value curr.value))

def validateTlvOrdering : List LsTlv → LsParse Unit
  | prev :: curr :: rest =>
    if tlvOrdering prev curr = .gt then
      .err (.tlvOrdering prev.tlvType prev.value.length curr.tlvType curr.value.length)
    else validateTlvOrdering (curr :: rest)
  | _ => .ok ()

def validateUniqueTlv (seenTypes : List UInt16) : List LsTlv → LsParse Unit
  | [] => .ok ()
  | tlv :: rest =>
    if seenTypes.contains tlv.tlvType then .err (.duplicateSubTlv tlv.tlvType)
    else validateUniqueTlv (seenTypes ++ [tlv.tlvType]) rest

def fixedValue (name : String) (expected : Nat) (value : List UInt8) : LsParse (List UInt8) :=
  if value.length ≠ expected then .err (.invalidLength name value.length expected) else bytesAt value 0 expected

def parseNodeSubTlv (descriptor : NodeDescriptor) (tlv : LsTlv) : LsParse NodeDescriptor := match LsTlvType.fromU16 tlv.tlvType with
  | some .autonomousSystem => do
    let value ← fixedValue "AS sub-TLV" 4 tlv.value
    .ok { descriptor with asNumber := some (u32FromBytes value) }
  | some .bgpLsId => do
    let value ← fixedValue "BGP-LS ID sub-TLV" 4 tlv.value
    .ok { descriptor with bgpLsId := some (u32FromBytes value) }
  | some .ospfAreaId => do
    let value ← fixedValue "OSPF Area-ID sub-TLV" 4 tlv.value
    .ok { descriptor with ospfAreaId := some (u32FromBytes value) }
  | some .igpRouterId => .ok { descriptor with igpRouterId := some tlv.value }
  | _ => .ok { descriptor with unknown := descriptor.unknown ++ [tlv] }

def parseNodeDescriptor : LsParse NodeDescriptor := do
  let subTlvs ← parseTlvList bytes
  validateUniqueTlv [] subTlvs
  subTlvs.foldlM parseNodeSubTlv {}

def firstTlv (tlvType : LsTlvType) : Option (List UInt8) := (tlvs.find? fun tlv => tlv.tlvType == tlvType.toU16).map LsTlv.value

def unknownTlvs : List LsTlv :=
  ((order.keys (tlvs.map LsTlv.tlvType)).filter fun tlvType => (LsTlvType.fromU16 tlvType).isNone).flatMap fun tlvType =>
    tlvs.filter fun tlv => tlv.tlvType == tlvType

def optionalTlv {Value : Type} (found : Option (List UInt8)) (parse : List UInt8 → LsParse Value) : LsParse (Option Value) :=
  match found with
  | none => .ok none
  | some value => do
    let parsed ← parse value
    .ok (some parsed)

def parseLinkIds : LsParse (UInt32 × UInt32) := if value.length ≠ 8 then .err (.invalidLength "Link Local/Remote ID" value.length 8)
  else do
    let localId ← bytesAt value 0 4
    let remoteId ← bytesAt value 4 4
    .ok (u32FromBytes localId, u32FromBytes remoteId)

def chunksExact (size : Nat) : Nat → List UInt8 → List (List UInt8)
  | 0, _ => []
  | count + 1, bytes => bytes.take size :: chunksExact size count (bytes.drop size)

def chunks (size : Nat) (bytes : List UInt8) : List (List UInt8) := chunksExact size (bytes.length / size) bytes

def parseMultiTopologyId : LsParse (List UInt16) :=
  if value.length % 2 ≠ 0 then .err (.unalignedLength "Multi-Topology ID" value.length 2)
  else .ok ((chunks 2 value).map u16FromBytes)

def parseLinkDescriptor : LsParse LinkDescriptor := do
  let ids ← optionalTlv (firstTlv tlvs .linkLocalRemoteId) parseLinkIds
  let ipv4Interface ← optionalTlv (firstTlv tlvs .ipv4InterfaceAddr) (fixedValue "IPv4 Interface Address" 4)
  let ipv4Neighbor ← optionalTlv (firstTlv tlvs .ipv4NeighborAddr) (fixedValue "IPv4 Neighbor Address" 4)
  let ipv6Interface ← optionalTlv (firstTlv tlvs .ipv6InterfaceAddr) (fixedValue "IPv6 Interface Address" 16)
  let ipv6Neighbor ← optionalTlv (firstTlv tlvs .ipv6NeighborAddr) (fixedValue "IPv6 Neighbor Address" 16)
  let multiTopologyId ← optionalTlv (firstTlv tlvs .multiTopologyId) parseMultiTopologyId
  .ok { linkLocalId := ids.map Prod.fst
        linkRemoteId := ids.map Prod.snd
        ipv4InterfaceAddr := ipv4Interface
        ipv4NeighborAddr := ipv4Neighbor
        ipv6InterfaceAddr := ipv6Interface
        ipv6NeighborAddr := ipv6Neighbor
        multiTopologyId := multiTopologyId
        unknown := unknownTlvs order tlvs }

def parseRouteType : LsParse UInt8 := if value.length ≠ 1 then .err (.invalidLength "OSPF Route Type" value.length 1) else byteAt value 0

def parsePrefixDescriptor : LsParse PrefixDescriptor := do
  let multiTopologyId ← optionalTlv (firstTlv tlvs .multiTopologyId) parseMultiTopologyId
  let ospfRouteType ← optionalTlv (firstTlv tlvs .ospfRouteType) parseRouteType
  .ok { multiTopologyId := multiTopologyId
        ospfRouteType := ospfRouteType
        ipReachability := firstTlv tlvs .ipReachabilityInfo
        unknown := unknownTlvs order tlvs }

def LsNlriType.fromU16 (value : UInt16) : Option LsNlriType := if value = 1 then some .node
  else if value = 2 then some .link
  else if value = 3 then some .prefixV4
  else if value = 4 then some .prefixV6
  else none

def requiredNode (tlvs : List LsTlv) (tlvType : LsTlvType) (name : String) : LsParse NodeDescriptor := match firstTlv tlvs tlvType with
  | some value => parseNodeDescriptor value
  | none => .err (.missingTlv name)

def parseLsNlriDescriptors (order : HashOrder UInt16) (nlriType : LsNlriType) (bytes : List UInt8) : LsParse LsDescriptors := do
  let tlvs ← parseTlvList bytes
  validateTlvOrdering tlvs
  let localNode ← requiredNode tlvs .localNodeDescriptors "Local Node Descriptors"
  match nlriType with
  | .node => .ok (.node localNode)
  | .link => do
    let remoteNode ← requiredNode tlvs .remoteNodeDescriptors "Remote Node Descriptors"
    let linkDescriptors ← parseLinkDescriptor order tlvs
    .ok (.link localNode remoteNode linkDescriptors)
  | .prefixV4 => do
    let prefixDescriptors ← parsePrefixDescriptor order tlvs
    .ok (.prefixV4 localNode prefixDescriptors)
  | .prefixV6 => do
    let prefixDescriptors ← parsePrefixDescriptor order tlvs
    .ok (.prefixV6 localNode prefixDescriptors)

def parseLsNlriBody (order : HashOrder UInt16) (nlriType : LsNlriType) (body : List UInt8) : LsParse LsNlriBody :=
  if body.length < NLRI_BODY_HEADER_LEN then .err (.bodyTooShort body.length)
  else do
    let protocolId ← byteAt body 0
    let identifier ← bytesAt body 1 8
    let bytes ← slice body NLRI_BODY_HEADER_LEN body.length
    let descriptors ← parseLsNlriDescriptors order nlriType bytes
    .ok ⟨protocolId, u64FromBytes identifier, descriptors⟩

def makeParserError : ParserError := ⟨.optionalAttributeError, []⟩

def parseKnownBody (nlriType : UInt16) (body : List UInt8) : Parse (Option LsNlriBody) := match LsNlriType.fromU16 nlriType with
  | some knownType => (parseLsNlriBody order knownType body).optional
  | none => .ok none

-- A body too short for its route distinguisher is dropped without an error.
def parseLsNlri (bytes : List UInt8) : Parse (List LsNlri × List UInt8) := do
  let (framed, rest) ← readTlv makeParserError (fun _ _ _ => makeParserError) bytes
  let fullBody := framed.value
  if safi = .linkStateVpn then
    if fullBody.length < RD_LEN then .ok (entries, rest)
    else do
      let rd ← slice fullBody 0 RD_LEN
      let lsBody ← slice fullBody RD_LEN fullBody.length
      let parsed ← parseKnownBody order framed.tlvType lsBody
      .ok (entries ++ [⟨framed.tlvType, lsBody, parsed, some rd⟩], rest)
  else do
    let parsed ← parseKnownBody order framed.tlvType fullBody
    .ok (entries ++ [⟨framed.tlvType, fullBody, parsed, none⟩], rest)

def parseLsNlriList : Parse (List LsNlri) := scan (parseLsNlri order safi) [] bytes

def writeLsNlri (entry : LsNlri) : List UInt8 := let rd := entry.routeDistinguisher.getD []
  let rdLen := if entry.routeDistinguisher.isSome then RD_LEN else 0
  u16Bytes entry.nlriType ++ u16Bytes (UInt16.ofNat (entry.raw.length + rdLen)) ++ rd ++ entry.raw

def writeLsNlriList : List UInt8 := entries.flatMap writeLsNlri

end

section

variable {Error : Type} (truncated : Error) (overflow : UInt16 → Nat → Nat → Error)

variable (bytes rest : List UInt8) (tlv : LsTlv)

theorem length_writeTlvRaw : (writeTlvRaw tlv).length = TLV_HEADER_LEN + tlv.value.length := by
  simp only [writeTlvRaw, TLV_HEADER_LEN, length_append, length_u16Bytes]

theorem readTlv_eq (bytes : List UInt8) (header : TLV_HEADER_LEN ≤ bytes.length) : readTlv truncated overflow bytes =
      let tlvType := u16FromBytes (bytes.take 2)
      let tlvLen := (u16FromBytes ((bytes.drop 2).take 2)).toNat
      if tlvLen > (bytes.drop TLV_HEADER_LEN).length then .err (overflow tlvType tlvLen (bytes.drop TLV_HEADER_LEN).length)
      else .ok (⟨tlvType, (bytes.drop TLV_HEADER_LEN).take tlvLen⟩, (bytes.drop TLV_HEADER_LEN).drop tlvLen) := by
  have four : 2 + 2 ≤ bytes.length := header
  rw [readTlv, if_neg (Nat.not_lt.mpr header), bytesAt_eq_ok bytes 0 2 (by omega), bytesAt_eq_ok bytes 2 2 four]
  simp only [ok_bind]
  split
  · rfl
  · rename_i inside
    rw [slice_eq_ok _ 0 _ ⟨Nat.zero_le _, Nat.not_lt.mp inside⟩]
    rfl

theorem readTlv_returns (bytes : List UInt8) : ¬ (readTlv truncated overflow bytes).Faults := by
  by_cases header : TLV_HEADER_LEN ≤ bytes.length
  · rw [readTlv_eq truncated overflow bytes header]
    dsimp only
    split
    · exact faults_err _
    · exact faults_ok _
  · rw [readTlv, if_pos (Nat.not_le.mp header)]
    exact faults_err _

theorem readTlv_write (rest : List UInt8) (fits : tlv.value.length < 2 ^ 16) :
    readTlv truncated overflow (writeTlvRaw tlv ++ rest) = .ok (tlv, rest) := by
  have header : TLV_HEADER_LEN ≤ (writeTlvRaw tlv ++ rest).length := by
    rw [length_append, length_writeTlvRaw]
    omega
  have typeBytes : (writeTlvRaw tlv ++ rest).take 2 = u16Bytes tlv.tlvType := by
    exact take_left' (length_u16Bytes _)
  have lenBytes : ((writeTlvRaw tlv ++ rest).drop 2).take 2 = u16Bytes (UInt16.ofNat tlv.value.length) := by
    exact take_left' (length_u16Bytes _)
  have body : (writeTlvRaw tlv ++ rest).drop TLV_HEADER_LEN = tlv.value ++ rest := by
    rw [writeTlvRaw, append_assoc]
    exact drop_left' (by simp [TLV_HEADER_LEN])
  rw [readTlv_eq truncated overflow _ header, typeBytes, lenBytes, body]
  simp only [u16FromBytes_u16Bytes, UInt16.toNat_ofNat_of_lt' fits, length_append]
  rw [if_neg (by omega), take_left, drop_left]

theorem readTlv_exact (read : readTlv truncated overflow bytes = .ok (tlv, rest)) :
    bytes = writeTlvRaw tlv ++ rest ∧ tlv.value.length < 2 ^ 16 := by
  by_cases header : TLV_HEADER_LEN ≤ bytes.length
  · rw [readTlv_eq truncated overflow bytes header] at read
    dsimp only at read
    split at read
    · cases read
    · rename_i inside
      obtain ⟨rfl, rfl⟩ := read
      have four : 4 ≤ bytes.length := header
      have wide := (u16FromBytes ((bytes.drop 2).take 2)).toNat_lt
      have whole : ((bytes.drop TLV_HEADER_LEN).take (u16FromBytes ((bytes.drop 2).take 2)).toNat).length =
          (u16FromBytes ((bytes.drop 2).take 2)).toNat := length_take_of_le (Nat.not_lt.mp inside)
      refine ⟨?_, by rw [whole]; exact wide⟩
      simp only [writeTlvRaw, whole, UInt16.ofNat_toNat]
      rw [u16Bytes_u16FromBytes _ (by rw [length_take]; omega),
        u16Bytes_u16FromBytes _ (by rw [length_take, length_drop]; omega), append_assoc, append_assoc,
        take_append_drop, show TLV_HEADER_LEN = 2 + 2 from rfl, ← drop_drop, take_append_drop,
        take_append_drop]
  · rw [readTlv, if_pos (Nat.not_le.mp header)] at read
    cases read

theorem writeTlvRaw_ne_nil : writeTlvRaw tlv ≠ [] := by
  intro empty
  have long := length_writeTlvRaw tlv
  rw [empty, length_nil, TLV_HEADER_LEN] at long
  omega

theorem readTlv_shorter (read : readTlv truncated overflow bytes = .ok (tlv, rest)) : rest.length < bytes.length := by
  obtain ⟨rfl, -⟩ := readTlv_exact truncated overflow bytes rest tlv read
  have positive := length_pos_iff.mpr (writeTlvRaw_ne_nil tlv)
  rw [length_append]
  omega

end

inductive Framed : List UInt8 → Prop where
  | nil : Framed []
  | cons (tlv : LsTlv) (rest : List UInt8) (fits : tlv.value.length < 2 ^ 16) (later : Framed rest) :
      Framed (writeTlvRaw tlv ++ rest)

theorem Framed.tail_iff (tlv : LsTlv) (rest : List UInt8) (fits : tlv.value.length < 2 ^ 16) :
    Framed (writeTlvRaw tlv ++ rest) ↔ Framed rest := by
  constructor
  · intro framed
    generalize same : writeTlvRaw tlv ++ rest = bytes at framed
    cases framed with
    | nil => exact absurd (append_eq_nil_iff.mp same).1 (writeTlvRaw_ne_nil tlv)
    | cons other left otherFits later =>
      have read := readTlv_write () (fun _ _ _ => ()) tlv rest fits
      rw [same, readTlv_write () _ other left otherFits] at read
      simp only [Checked.ok.injEq, Prod.mk.injEq] at read
      rw [← read.2]
      exact later
  · exact .cons tlv rest fits

section

variable (value : List UInt8) (order : HashOrder UInt16) (nlriType : LsNlriType) (bytes : List UInt8) (tlvs : List LsTlv)

theorem parseTlv_advances (total limit : Nat) : Advances (parseTlv total) limit := by
  intro tlvs bytes next rest _ _ parsed
  obtain ⟨⟨tlv, left⟩, read, same⟩ := of_bind parsed
  simp only [Checked.ok.injEq, Prod.mk.injEq] at same
  rw [← same.2]
  exact readTlv_shorter _ _ bytes left tlv read

@[simp] theorem parseTlvList_returns : ¬ (parseTlvList bytes).Faults := by
  refine scan_returns (parseTlv_advances bytes.length bytes.length) ?_ [] bytes (Nat.le_refl _)
  simp [parseTlv, readTlv_returns]

@[simp] theorem validateTlvOrdering_returns : ¬ (validateTlvOrdering tlvs).Faults := by
  fun_induction validateTlvOrdering tlvs with
  | case1 prev curr rest greater => exact faults_err _
  | case2 prev curr rest inOrder ih => exact ih
  | case3 => exact faults_ok _

@[simp] theorem validateUniqueTlv_returns (seenTypes : List UInt16) (tlvs : List LsTlv) :
    ¬ (validateUniqueTlv seenTypes tlvs).Faults := by
  fun_induction validateUniqueTlv seenTypes tlvs with
  | case1 => exact faults_ok _
  | case2 => exact faults_err _
  | case3 _ _ _ _ ih => exact ih

@[simp] theorem fixedValue_returns (name : String) (expected : Nat) (value : List UInt8) :
    ¬ (fixedValue name expected value).Faults := by
  unfold fixedValue
  split
  · exact faults_err _
  · exact faults_bytesAt value 0 expected (by omega)

@[simp] theorem parseNodeSubTlv_returns (descriptor : NodeDescriptor) (tlv : LsTlv) :
    ¬ (parseNodeSubTlv descriptor tlv).Faults := by
  unfold parseNodeSubTlv
  split <;> simp

@[simp] theorem parseNodeDescriptor_returns : ¬ (parseNodeDescriptor bytes).Faults := by
  simp [parseNodeDescriptor, faults_foldlM parseNodeSubTlv parseNodeSubTlv_returns]

@[simp] theorem parseLinkIds_returns : ¬ (parseLinkIds value).Faults := by
  unfold parseLinkIds
  split
  · exact faults_err _
  · rw [bytesAt_eq_ok value 0 4 (by omega), bytesAt_eq_ok value 4 4 (by omega)]
    exact faults_ok _

@[simp] theorem parseMultiTopologyId_returns : ¬ (parseMultiTopologyId value).Faults := by
  unfold parseMultiTopologyId
  split
  · exact faults_err _
  · exact faults_ok _

@[simp] theorem parseRouteType_returns : ¬ (parseRouteType value).Faults := by
  unfold parseRouteType
  split
  · exact faults_err _
  · rw [faults_byteAt]
    omega

theorem optionalTlv_returns {Value : Type} (found : Option (List UInt8)) {parse : List UInt8 → LsParse Value}
    (safe : ∀ value, ¬ (parse value).Faults) : ¬ (optionalTlv found parse).Faults := by
  cases found with
  | none => exact faults_ok _
  | some value => simp [optionalTlv, safe]

@[simp] theorem parseLinkDescriptor_returns :
    ¬ (parseLinkDescriptor order tlvs).Faults := by
  simp [parseLinkDescriptor, optionalTlv_returns]

@[simp] theorem parsePrefixDescriptor_returns :
    ¬ (parsePrefixDescriptor order tlvs).Faults := by
  simp [parsePrefixDescriptor, optionalTlv_returns]

@[simp] theorem requiredNode_returns (tlvType : LsTlvType) (name : String) :
    ¬ (requiredNode tlvs tlvType name).Faults := by
  unfold requiredNode
  split <;> simp

@[simp] theorem parseLsNlriDescriptors_returns :
    ¬ (parseLsNlriDescriptors order nlriType bytes).Faults := by
  cases nlriType <;> simp [parseLsNlriDescriptors]

@[simp] theorem parseLsNlriBody_returns (body : List UInt8) :
    ¬ (parseLsNlriBody order nlriType body).Faults := by
  unfold parseLsNlriBody
  split
  · exact faults_err _
  · rename_i long
    have nine : 1 + 8 ≤ body.length := Nat.not_lt.mp long
    have present : ¬ body.length ≤ 0 := by omega
    have header : NLRI_BODY_HEADER_LEN ≤ body.length := nine
    simp [faults_bytesAt body 1 8 nine, header, present]

end

def decodedBody (order : HashOrder UInt16) (nlriType : UInt16) (body : List UInt8) : Option LsNlriBody :=
  match LsNlriType.fromU16 nlriType with
  | none => none
  | some knownType =>
    match parseLsNlriBody order knownType body with
    | .ok parsed => some parsed
    | _ => none

section

variable (order : HashOrder UInt16) (bytes : List UInt8) (safi : Safi) (entries : List LsNlri)

theorem parseKnownBody_eq (nlriType : UInt16) (body : List UInt8) :
    parseKnownBody order nlriType body = .ok (decodedBody order nlriType body) := by
  unfold parseKnownBody decodedBody
  split
  · rename_i knownType known
    rw [known]
    have returns := parseLsNlriBody_returns order knownType body
    cases parsed : parseLsNlriBody order knownType body with
    | ok nlri | err error => simp [Checked.optional, parsed]
    | fault reason =>
      rw [parsed] at returns
      exact absurd (faults_fault reason) returns
  · rename_i unknown
    rw [unknown]

def pushLsNlri (order : HashOrder UInt16) (safi : Safi) (framed : LsTlv) (entries : List LsNlri) : List LsNlri :=
  if safi = .linkStateVpn then
    if framed.value.length < RD_LEN then entries
    else entries ++ [⟨framed.tlvType, framed.value.drop RD_LEN,
      decodedBody order framed.tlvType (framed.value.drop RD_LEN), some (framed.value.take RD_LEN)⟩]
  else entries ++ [⟨framed.tlvType, framed.value, decodedBody order framed.tlvType framed.value, none⟩]

theorem parseLsNlri_eq (bytes : List UInt8) : parseLsNlri order safi entries bytes =
      (readTlv makeParserError (fun _ _ _ => makeParserError) bytes >>= fun read =>
        .ok (pushLsNlri order safi read.1 entries, read.2)) := by
  unfold parseLsNlri
  congr 1
  funext read
  obtain ⟨framed, rest⟩ := read
  simp only [parseKnownBody_eq, ok_bind, pushLsNlri]
  by_cases vpn : safi = .linkStateVpn
  · rw [if_pos vpn, if_pos vpn]
    by_cases short : framed.value.length < RD_LEN
    · rw [if_pos short, if_pos short]
    · have long := Nat.not_lt.mp short
      rw [if_neg short, if_neg short, slice_eq_ok _ 0 RD_LEN ⟨Nat.zero_le _, long⟩, slice_eq_ok _ RD_LEN _ ⟨long, Nat.le_refl _⟩]
      have rest : (framed.value.drop RD_LEN).take (framed.value.length - RD_LEN) = framed.value.drop RD_LEN :=
        take_of_length_le (Nat.le_of_eq length_drop)
      simp [rest]
  · rw [if_neg vpn, if_neg vpn]

theorem parseLsNlri_write (framed : LsTlv) (rest : List UInt8) (fits : framed.value.length < 2 ^ 16) :
    parseLsNlri order safi entries (writeTlvRaw framed ++ rest) = .ok (pushLsNlri order safi framed entries, rest) := by
  rw [parseLsNlri_eq, readTlv_write _ _ framed rest fits]
  rfl

theorem parseLsNlri_exact {entries next : List LsNlri} {bytes rest : List UInt8}
    (parsed : parseLsNlri order safi entries bytes = .ok (next, rest)) :
    ∃ framed : LsTlv, framed.value.length < 2 ^ 16 ∧ bytes = writeTlvRaw framed ++ rest := by
  rw [parseLsNlri_eq] at parsed
  obtain ⟨⟨framed, left⟩, read, same⟩ := of_bind parsed
  simp only [Checked.ok.injEq, Prod.mk.injEq] at same
  obtain ⟨whole, fits⟩ := readTlv_exact _ _ bytes left framed read
  rw [same.2] at whole
  exact ⟨framed, fits, whole⟩

theorem parseLsNlri_advances (limit : Nat) : Advances (parseLsNlri order safi) limit := by
  intro entries bytes next rest _ _ parsed
  obtain ⟨framed, -, rfl⟩ := parseLsNlri_exact order safi parsed
  have positive := length_pos_iff.mpr (writeTlvRaw_ne_nil framed)
  rw [length_append]
  omega

theorem parseLsNlriList_returns : ¬ (parseLsNlriList order bytes safi).Faults := by
  refine scan_returns (parseLsNlri_advances order safi bytes.length) ?_ [] bytes (Nat.le_refl _)
  intro entries left _
  rw [parseLsNlri_eq]
  simp [readTlv_returns]

theorem parseLsNlriList_accepts : (∃ entries, parseLsNlriList order bytes safi = .ok entries) ↔ Framed bytes := by
  refine scan_induct (parseLsNlri_advances order safi bytes.length)
    (fun _ bytes outcome => (∃ entries, outcome = .ok entries) ↔ Framed bytes) ?_ ?_ ?_ ?_ [] bytes (Nat.le_refl _)
  · intro entries
    exact iff_of_true ⟨entries, rfl⟩ .nil
  · intro entries bytes error nonempty _ failed
    refine iff_of_false (by simp) ?_
    intro framed
    cases framed with
    | nil => exact nonempty rfl
    | cons tlv rest fits later =>
      rw [parseLsNlri_write order safi entries tlv rest fits] at failed
      cases failed
  · intro entries bytes reason _ _ faulted
    have returns : ¬ (parseLsNlri order safi entries bytes).Faults := by
      rw [parseLsNlri_eq]
      simp [readTlv_returns]
    rw [faulted] at returns
    exact absurd (faults_fault reason) returns
  · intro entries bytes next rest _ _ moved holds
    obtain ⟨framed, fits, rfl⟩ := parseLsNlri_exact order safi moved
    rw [Framed.tail_iff framed rest fits]
    exact holds

end

end Bgpgg.Wire
