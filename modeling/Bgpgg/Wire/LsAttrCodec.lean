import Bgpgg.Wire.LsNlriCodec

namespace Bgpgg.Wire

open Net Lib Checked

inductive LsAttrTlvType where
  | nodeFlagBits
  | opaqueNodeAttr
  | nodeName
  | isisAreaId
  | ipv4RouterIdLocal
  | ipv6RouterIdLocal
  | ipv4RouterIdRemote
  | ipv6RouterIdRemote
  | adminGroup
  | maxLinkBw
  | maxRsvblLinkBw
  | unreservedBw
  | teDefaultMetric
  | linkProtection
  | mplsProtocolMask
  | igpMetric
  | srlg
  | opaqueLinkAttr
  | linkName
  | igpFlags
  | igpRouteTag
  | igpExtendedRouteTag
  | prefixMetric
  | ospfFwdAddr
  | opaquePrefixAttr
deriving DecidableEq, Repr

def LsAttrTlvType.toU16 : LsAttrTlvType → UInt16
  | .nodeFlagBits => 1024
  | .opaqueNodeAttr => 1025
  | .nodeName => 1026
  | .isisAreaId => 1027
  | .ipv4RouterIdLocal => 1028
  | .ipv6RouterIdLocal => 1029
  | .ipv4RouterIdRemote => 1030
  | .ipv6RouterIdRemote => 1031
  | .adminGroup => 1088
  | .maxLinkBw => 1089
  | .maxRsvblLinkBw => 1090
  | .unreservedBw => 1091
  | .teDefaultMetric => 1092
  | .linkProtection => 1093
  | .mplsProtocolMask => 1094
  | .igpMetric => 1095
  | .srlg => 1096
  | .opaqueLinkAttr => 1097
  | .linkName => 1098
  | .igpFlags => 1152
  | .igpRouteTag => 1153
  | .igpExtendedRouteTag => 1154
  | .prefixMetric => 1155
  | .ospfFwdAddr => 1156
  | .opaquePrefixAttr => 1157

def LsAttrTlvType.all : List LsAttrTlvType :=
  [.nodeFlagBits, .opaqueNodeAttr, .nodeName, .isisAreaId, .ipv4RouterIdLocal, .ipv6RouterIdLocal, .ipv4RouterIdRemote,
    .ipv6RouterIdRemote, .adminGroup, .maxLinkBw, .maxRsvblLinkBw, .unreservedBw, .teDefaultMetric, .linkProtection,
    .mplsProtocolMask, .igpMetric, .srlg, .opaqueLinkAttr, .linkName, .igpFlags, .igpRouteTag, .igpExtendedRouteTag,
    .prefixMetric, .ospfFwdAddr, .opaquePrefixAttr]

def LsAttrTlvType.fromU16 (value : UInt16) : Option LsAttrTlvType := LsAttrTlvType.all.find? fun known => known.toU16 == value

-- A TLV that cannot be read makes the whole attribute unreadable; nothing more is reported.
abbrev LsAttrParse := Checked Unit

section

variable (value : List UInt8) (expected : Nat)

def checkLen : LsAttrParse Unit := if value.length ≠ expected then .err () else .ok ()

def checkMultiple (multiple : Nat) : LsAttrParse Unit := if value.length % multiple ≠ 0 then .err () else .ok ()

def fixedBytes : LsAttrParse (List UInt8) := do
  checkLen value expected
  bytesAt value 0 expected

def fixedAddress : LsAttrParse Ipv6Addr := do
  checkLen value 16
  let octets ← copyExact 16 value
  .ok (Ipv6Addr.fromOctets octets)

def fixedByte : LsAttrParse UInt8 := do
  checkLen value 1
  byteAt value 0

def utf8Name : LsAttrParse String := Checked.ofOption () (String.fromUTF8? ⟨value.toArray⟩)

end

def words (size : Nat) (value : List UInt8) : List Nat := (chunks size value).map fromBe

def parseAttrTlv (tlvType : UInt16) (value : List UInt8) : LsAttrParse LsAttrTlv := match LsAttrTlvType.fromU16 tlvType with
  | none => .ok (.unknown ⟨tlvType, value⟩)
  | some .nodeFlagBits => do
    let flags ← fixedByte value
    .ok (.node (.flagBits flags))
  | some .opaqueNodeAttr => .ok (.node (.opaqueData value))
  | some .nodeName => do
    let name ← utf8Name value
    .ok (.node (.name name))
  | some .isisAreaId => .ok (.node (.isisAreaId value))
  -- 1028 and 1029 belong to nodes and to links; they are read as the node's.
  | some .ipv4RouterIdLocal => do
    let octets ← fixedBytes value 4
    .ok (.node (.ipv4RouterId (Ipv4Addr.fromOctets octets)))
  | some .ipv6RouterIdLocal => do
    let addr ← fixedAddress value
    .ok (.node (.ipv6RouterId addr))
  | some .ipv4RouterIdRemote => do
    let octets ← fixedBytes value 4
    .ok (.link (.ipv4RouterIdRemote (Ipv4Addr.fromOctets octets)))
  | some .ipv6RouterIdRemote => do
    let addr ← fixedAddress value
    .ok (.link (.ipv6RouterIdRemote addr))
  | some .adminGroup => do
    let word ← fixedBytes value 4
    .ok (.link (.adminGroup (u32FromBytes word)))
  | some .maxLinkBw => do
    let word ← fixedBytes value 4
    .ok (.link (.maxLinkBw (u32FromBytes word)))
  | some .maxRsvblLinkBw => do
    let word ← fixedBytes value 4
    .ok (.link (.maxRsvblLinkBw (u32FromBytes word)))
  | some .unreservedBw => do
    checkLen value 32
    .ok (.link (.unreservedBw ((words 4 value).map UInt32.ofNat)))
  | some .teDefaultMetric => do
    let word ← fixedBytes value 4
    .ok (.link (.teDefaultMetric (u32FromBytes word)))
  | some .linkProtection => do
    let word ← fixedBytes value 2
    .ok (.link (.linkProtection (u16FromBytes word)))
  | some .mplsProtocolMask => do
    let mask ← fixedByte value
    .ok (.link (.mplsProtocolMask mask))
  | some .igpMetric =>
    if value = [] ∨ value.length > 3 then .err () else .ok (.link (.igpMetric (UInt32.ofNat (fromBe value))))
  | some .srlg => do
    checkMultiple value 4
    .ok (.link (.srlg ((words 4 value).map UInt32.ofNat)))
  | some .opaqueLinkAttr => .ok (.link (.opaqueData value))
  | some .linkName => do
    let name ← utf8Name value
    .ok (.link (.name name))
  | some .igpFlags => do
    let flags ← fixedByte value
    .ok (.pfx (.igpFlags flags))
  | some .igpRouteTag => do
    checkMultiple value 4
    .ok (.pfx (.igpRouteTag ((words 4 value).map UInt32.ofNat)))
  | some .igpExtendedRouteTag => do
    checkMultiple value 8
    .ok (.pfx (.igpExtendedRouteTag ((words 8 value).map UInt64.ofNat)))
  | some .prefixMetric => do
    let word ← fixedBytes value 4
    .ok (.pfx (.metric (u32FromBytes word)))
  | some .ospfFwdAddr =>
    if value.length = 4 then do
      let octets ← bytesAt value 0 4
      .ok (.pfx (.ospfFwdAddr (.v4 (Ipv4Addr.fromOctets octets))))
    else if value.length = 16 then do
      let octets ← copyExact 16 value
      .ok (.pfx (.ospfFwdAddr (.v6 (Ipv6Addr.fromOctets octets))))
    else .err ()
  | some .opaquePrefixAttr => .ok (.pfx (.opaqueData value))

def parseNextAttrTlv (tlvs : List LsAttrTlv) (bytes : List UInt8) : LsAttrParse (List LsAttrTlv × List UInt8) := do
  let (framed, rest) ← readTlv () (fun _ _ _ => ()) bytes
  let tlv ← parseAttrTlv framed.tlvType framed.value
  .ok (tlvs ++ [tlv], rest)

def parseAttrTlvList (bytes : List UInt8) : LsAttrParse (List LsAttrTlv) := scan parseNextAttrTlv [] bytes

def parseLsAttr (data : List UInt8) : LsAttrParse LsAttr := if data.isEmpty then .ok ⟨[], []⟩
  else do
    let tlvs ← parseAttrTlvList data
    .ok ⟨data, tlvs⟩

section

variable (data : List UInt8) (value : List UInt8) (expected : Nat)

@[simp] theorem checkLen_returns : ¬ (checkLen value expected).Faults := by
  unfold checkLen
  split <;> simp

@[simp] theorem checkMultiple_returns (multiple : Nat) : ¬ (checkMultiple value multiple).Faults := by
  unfold checkMultiple
  split <;> simp

theorem checkLen_exact (accepted : checkLen value expected = .ok ()) : value.length = expected := by
  unfold checkLen at accepted
  split at accepted
  · cases accepted
  · omega

@[simp] theorem fixedBytes_returns : ¬ (fixedBytes value expected).Faults := by
  simp only [fixedBytes, faults_bind, checkLen_returns, false_or, not_exists, not_and]
  intro _ accepted
  have exact := checkLen_exact value expected accepted
  exact faults_bytesAt value 0 expected (by omega)

@[simp] theorem fixedAddress_returns : ¬ (fixedAddress value).Faults := by
  simp only [fixedAddress, faults_bind, checkLen_returns, false_or, not_exists, not_and]
  intro _ accepted
  simp [copyExact, checkLen_exact value 16 accepted]

@[simp] theorem fixedByte_returns : ¬ (fixedByte value).Faults := by
  simp only [fixedByte, faults_bind, checkLen_returns, false_or, not_exists, not_and]
  intro _ accepted
  have exact := checkLen_exact value 1 accepted
  rw [faults_byteAt]
  omega

@[simp] theorem utf8Name_returns : ¬ (utf8Name value).Faults := faults_ofOption _ _

@[simp] theorem parseAttrTlv_returns (tlvType : UInt16) (value : List UInt8) : ¬ (parseAttrTlv tlvType value).Faults := by
  unfold parseAttrTlv
  cases LsAttrTlvType.fromU16 tlvType with
  | none => exact faults_ok _
  | some kind =>
    cases kind with
    | igpMetric =>
      dsimp only
      split <;> simp
    | ospfFwdAddr =>
      dsimp only
      split
      · simp [bytesAt_eq_ok value 0 4 (by omega)]
      · split
        · rename_i sixteen
          simp [copyExact, sixteen]
        · exact faults_err _
    | _ => simp

theorem parseNextAttrTlv_advances (limit : Nat) : Advances parseNextAttrTlv limit := by
  intro tlvs bytes next rest _ _ parsed
  obtain ⟨⟨framed, left⟩, read, more⟩ := of_bind parsed
  obtain ⟨tlv, -, same⟩ := of_bind more
  simp only [Checked.ok.injEq, Prod.mk.injEq] at same
  rw [← same.2]
  exact readTlv_shorter _ _ bytes left framed read

theorem parseLsAttr_returns : ¬ (parseLsAttr data).Faults := by
  have list : ¬ (parseAttrTlvList data).Faults := by
    refine scan_returns (parseNextAttrTlv_advances data.length) ?_ [] data (Nat.le_refl _)
    simp [parseNextAttrTlv, readTlv_returns]
  unfold parseLsAttr
  split
  · exact faults_ok _
  · simp [list]

theorem parseLsAttr_raw (attr : LsAttr) (parsed : parseLsAttr data = .ok attr) : attr.raw = data := by
  unfold parseLsAttr at parsed
  split at parsed
  · rename_i empty
    cases parsed
    exact (List.isEmpty_iff.mp empty).symm
  · obtain ⟨tlvs, -, same⟩ := of_bind parsed
    cases same
    rfl

end

end Bgpgg.Wire
