import Bgpgg.Lib.Checked
import Bgpgg.Peer.Export

namespace Bgpgg.Peer

open Net Wire Lib List

def BGP_VERSION : UInt8 := 4

def AddPathMode.fromFlags (send receive : Bool) : Option AddPathMode := match send, receive with
  | true, true => some .both
  | true, false => some .send
  | false, true => some .receive
  | false, false => none

def AddPathMode.canReceive : AddPathMode → Bool
  | .receive => true
  | .send => false
  | .both => true

def AddPathMode.toU8 : AddPathMode → UInt8
  | .receive => 1
  | .send => 2
  | .both => 3

def AddPathMode.tryFrom (value : UInt8) : Option AddPathMode := if value = 1 then some .receive
  else if value = 2 then some .send
  else if value = 3 then some .both
  else none

inductive BgpCapabilityCode where
  | multiprotocol
  | routeRefresh
  | gracefulRestart
  | fourOctetAsn
  | addPath
  | enhancedRouteRefresh
  | llgr
  | unknown
deriving DecidableEq, Repr

def BgpCapabilityCode.fromU8 (value : UInt8) : BgpCapabilityCode := if value = 1 then .multiprotocol
  else if value = 2 then .routeRefresh
  else if value = 64 then .gracefulRestart
  else if value = 65 then .fourOctetAsn
  else if value = 69 then .addPath
  else if value = 70 then .enhancedRouteRefresh
  else if value = 71 then .llgr
  else .unknown

def BgpCapabilityCode.asU8 : BgpCapabilityCode → UInt8
  | .multiprotocol => 1
  | .routeRefresh => 2
  | .gracefulRestart => 64
  | .fourOctetAsn => 65
  | .addPath => 69
  | .enhancedRouteRefresh => 70
  | .llgr => 71
  | .unknown => 0

theorem BgpCapabilityCode.fromU8_asU8 (code : BgpCapabilityCode) : fromU8 code.asU8 = code := by
  cases code <;> rfl

inductive OptParamType where
  | capabilities
  | unknown (value : UInt8)
deriving DecidableEq, Repr

def OptParamType.fromU8 (value : UInt8) : OptParamType := if value = 2 then .capabilities else .unknown value

def OptParamType.asU8 : OptParamType → UInt8
  | .capabilities => 2
  | .unknown value => value

-- The length is a byte of its own: a longer value has the length of its last part.
structure Capability where
  code : BgpCapabilityCode
  len : UInt8
  val : List UInt8
deriving DecidableEq, Repr

def byteLen (bytes : List UInt8) : UInt8 := UInt8.ofNat bytes.length

namespace Capability

variable (afiSafi : AfiSafi) (cap : Capability)

def toBytes : List UInt8 := cap.code.asU8 :: cap.len :: cap.val

def ofVal (code : BgpCapabilityCode) (val : List UInt8) : Capability := ⟨code, byteLen val, val⟩

def newRouteRefresh : Capability := ⟨.routeRefresh, 0, []⟩

def newEnhancedRouteRefresh : Capability := ⟨.enhancedRouteRefresh, 0, []⟩

def afiSafiToCapabilityBytes : List UInt8 := u16Bytes afiSafi.afi.toU16 ++ [0, afiSafi.safi.toU8]

def newMultiprotocol : Capability := ofVal .multiprotocol (afiSafiToCapabilityBytes afiSafi)

def newFourOctetAsn (asn : UInt32) : Capability := ⟨.fourOctetAsn, 4, u32Bytes asn⟩

def asFourOctetAsn : Option UInt32 := if cap.code = .fourOctetAsn ∧ cap.val.length = 4 then some (u32FromBytes cap.val) else none

def familyBytes (rest : List UInt8) : List UInt8 := u16Bytes afiSafi.afi.toU16 ++ afiSafi.safi.toU8 :: rest

def GR_RESTART_TIME_MASK : UInt16 := 0x0FFF

def newGracefulRestart (restartTime : UInt16) (restartState : Bool) (afiSafiList : List (AfiSafi × Bool)) : Capability :=
  let restartFlags : UInt8 := if restartState then 0x80 else 0
  let restartTimeMasked := restartTime &&& GR_RESTART_TIME_MASK
  ofVal .gracefulRestart ((restartFlags ||| (restartTimeMasked >>> 8).toUInt8) :: (restartTimeMasked &&& 0xFF).toUInt8 ::
    afiSafiList.flatMap fun entry => familyBytes entry.1 [if entry.2 then 0x80 else 0])

def newAddPath (entries : List (AfiSafi × AddPathMode)) : Capability :=
  ofVal .addPath (entries.flatMap fun entry => familyBytes entry.1 [entry.2.toU8])

def newLlgr (entries : List LlgrEntry) : Capability := ofVal .llgr (entries.flatMap fun entry : LlgrEntry => familyBytes entry.afiSafi
    [if entry.forwardingPreserved then 0x80 else 0, (entry.staleTime >>> 16).toUInt8, (entry.staleTime >>> 8).toUInt8,
      entry.staleTime.toUInt8])

def familyOf (afiHigh afiLow safi : UInt8) : Option AfiSafi := do
  let afi ← Afi.tryFrom (u16FromBytes [afiHigh, afiLow])
  let safi ← Safi.tryFrom safi
  return ⟨afi, safi⟩

-- The loops step over an entry that they cannot read, and stop at less than a whole entry.
def addPathEntries : List UInt8 → List (AfiSafi × AddPathMode)
  | afiHigh :: afiLow :: safi :: mode :: rest =>
    (match familyOf afiHigh afiLow safi, AddPathMode.tryFrom mode with
      | some afiSafi, some mode => [(afiSafi, mode)]
      | _, _ => []) ++ addPathEntries rest
  | _ => []

def asAddPath : Option (List (AfiSafi × AddPathMode)) := if cap.code = .addPath then some (addPathEntries cap.val) else none

def gracefulRestartEntries : List UInt8 → List (AfiSafi × Bool)
  | afiHigh :: afiLow :: safi :: flags :: rest =>
    (match familyOf afiHigh afiLow safi with
      | some afiSafi => [(afiSafi, flags &&& 0x80 != 0)]
      | none => []) ++ gracefulRestartEntries rest
  | _ => []

def asGracefulRestart : Option GracefulRestartCapability := match cap.val with
  | _ :: _ :: entries => if cap.code = .gracefulRestart then some ⟨gracefulRestartEntries entries⟩ else none
  | _ => none

def llgrEntries : List UInt8 → List LlgrEntry
  | afiHigh :: afiLow :: safi :: flags :: high :: middle :: low :: rest =>
    (match familyOf afiHigh afiLow safi with
      | some afiSafi =>
        [⟨afiSafi, flags &&& 0x80 != 0, (high.toUInt32 <<< 16) ||| (middle.toUInt32 <<< 8) ||| low.toUInt32⟩]
      | none => []) ++ llgrEntries rest
  | _ => []

def asLlgr : Option LlgrCapability := if cap.code = .llgr then some ⟨llgrEntries cap.val⟩ else none

end Capability

inductive OptParamVal where
  | capabilities (caps : List Capability)
  | unknown (data : List UInt8)
deriving DecidableEq, Repr

def OptParamVal.toBytes : OptParamVal → List UInt8
  | .capabilities caps => caps.flatMap Capability.toBytes
  | .unknown data => data

structure OptionalParam where
  paramType : OptParamType
  paramLen : UInt8
  paramValue : OptParamVal
deriving DecidableEq, Repr

namespace OptionalParam

def toBytes (param : OptionalParam) : List UInt8 := param.paramType.asU8 :: param.paramLen :: param.paramValue.toBytes

def fromCapabilities (caps : List Capability) : OptionalParam :=
  ⟨.capabilities, UInt8.ofNat (caps.map fun cap => 2 + cap.len.toNat).sum, .capabilities caps⟩

def capabilities (param : OptionalParam) : List Capability := match param.paramValue with
  | .capabilities caps => caps
  | .unknown _ => []

def findFourOctetAsn (params : List OptionalParam) : Option UInt32 := (params.flatMap capabilities).findSome? Capability.asFourOctetAsn

end OptionalParam

structure OpenMessage where
  version : UInt8
  asn : UInt32
  holdTime : UInt16
  bgpIdentifier : UInt32
  optionalParamsLen : UInt8
  optionalParams : List OptionalParam
deriving DecidableEq, Repr

inductive OpenMessageError where
  | unsupportedVersionNumber
  | badPeerAs
  | badBgpIdentifier
  | unsupportedOptionalParameter
  | unacceptedHoldTime
  | unsupportedCapability
  | unknown (code : UInt8)
deriving DecidableEq, Repr

structure OpenError where
  error : OpenMessageError
  data : List UInt8
deriving DecidableEq, Repr

def openMsgError : OpenError := ⟨.unknown 0, []⟩

-- The framing of parameters and of capabilities. The buffer starts at the cursor.
def parseOpenTlv {Item : Type} (make : UInt8 → UInt8 → List UInt8 → Checked OpenError Item) (items : List Item) (bytes : List UInt8) :
    Checked OpenError (List Item × List UInt8) := if bytes.length < 2 then .err openMsgError
  else do
    let kind ← byteAt bytes 0
    let len ← byteAt bytes 1
    let bytes := bytes.drop 2
    if bytes.length < len.toNat then .err openMsgError
    else do
      let value ← slice bytes 0 len.toNat
      let item ← make kind len value
      .ok (items ++ [item], bytes.drop len.toNat)

def parseCapability : List Capability → List UInt8 → Checked OpenError (List Capability × List UInt8) :=
  parseOpenTlv fun code len val => .ok ⟨.fromU8 code, len, val⟩

def parseCapabilityTlvs (bytes : List UInt8) : Checked OpenError (List Capability) := scan parseCapability [] bytes

def parseParamValue (paramType : OptParamType) (bytes : List UInt8) : Checked OpenError OptParamVal := match paramType with
  | .capabilities => do
    let caps ← parseCapabilityTlvs bytes
    .ok (.capabilities caps)
  | .unknown _ => .ok (.unknown bytes)

def parseOptionalParam : List OptionalParam → List UInt8 → Checked OpenError (List OptionalParam × List UInt8) :=
  parseOpenTlv fun paramType len bytes => do
    let value ← parseParamValue (.fromU8 paramType) bytes
    .ok ⟨.fromU8 paramType, len, value⟩

def readOptionalParameters (bytes : List UInt8) : Checked OpenError (List OptionalParam) := scan parseOptionalParam [] bytes

def validateVersion (version : UInt8) : Checked OpenError Unit :=
  if version ≠ BGP_VERSION then .err ⟨.unsupportedVersionNumber, [0, BGP_VERSION]⟩ else .ok ()

def validateHoldTime (holdTime : UInt16) : Checked OpenError Unit :=
  if holdTime = 1 ∨ holdTime = 2 then .err ⟨.unacceptedHoldTime, []⟩ else .ok ()

def validateBgpIdentifier (bgpIdentifier : UInt32) : Checked OpenError Unit :=
  if bgpIdentifier = 0 then .err ⟨.badBgpIdentifier, []⟩ else .ok ()

namespace OpenMessage

def new (asn : UInt32) (holdTime : UInt16) (bgpIdentifier : UInt32) : OpenMessage := ⟨BGP_VERSION, asn, holdTime, bgpIdentifier, 0, []⟩

def toBytes (message : OpenMessage) : List UInt8 :=
  message.version :: u16Bytes (if message.asn > MAX_2BYTE_ASN then AS_TRANS.toUInt16 else message.asn.toUInt16) ++
    u16Bytes message.holdTime ++ u32Bytes message.bgpIdentifier ++ message.optionalParamsLen ::
    message.optionalParams.flatMap OptionalParam.toBytes

def readParams (optionalParamsLen : UInt8) (rest : List UInt8) : Checked OpenError (List OptionalParam) :=
  if optionalParamsLen = 0 then .ok []
  else do
    let area ← slice rest 0 optionalParamsLen.toNat
    readOptionalParameters area

-- AS_TRANS stands for the AS number in the capability, which has to be there.
def realAsn (asn2byte : UInt16) (optionalParams : List OptionalParam) : Checked OpenError UInt32 := if asn2byte = AS_TRANS.toUInt16 then
    Checked.ofOption ⟨.badPeerAs, u16Bytes AS_TRANS.toUInt16⟩ (OptionalParam.findFourOctetAsn optionalParams)
  else .ok asn2byte.toUInt32

def fromBytes (bytes : List UInt8) : Checked OpenError OpenMessage := match bytes with
  | version :: asn1 :: asn2 :: hold1 :: hold2 :: id1 :: id2 :: id3 :: id4 :: optionalParamsLen :: rest => do
    let asn2byte := u16FromBytes [asn1, asn2]
    let holdTime := u16FromBytes [hold1, hold2]
    let bgpIdentifier := u32FromBytes [id1, id2, id3, id4]
    if optionalParamsLen ≠ byteLen rest then .err openMsgError
    else
      validateVersion version
      validateHoldTime holdTime
      validateBgpIdentifier bgpIdentifier
      let optionalParams ← readParams optionalParamsLen rest
      let asn ← realAsn asn2byte optionalParams
      .ok ⟨version, asn, holdTime, bgpIdentifier, optionalParamsLen, optionalParams⟩
  | _ => .err openMsgError

end OpenMessage

section

open OptionalParam
variable {caps : List Capability} {entries : List (AfiSafi × AddPathMode)}

section

variable {Item : Type} (make : UInt8 → UInt8 → List UInt8 → Checked OpenError Item)

theorem parseOpenTlv_cons (items : List Item) (kind len : UInt8) (bytes : List UInt8) :
    parseOpenTlv make items (kind :: len :: bytes) = if bytes.length < len.toNat then .err openMsgError
      else make kind len (bytes.take len.toNat) >>= fun item => .ok (items ++ [item], bytes.drop len.toNat) := by
  have long : ¬ (kind :: len :: bytes).length < 2 := by simp
  rw [parseOpenTlv, if_neg long]
  simp only [byteAt_cons_zero, byteAt_cons_succ, Checked.ok_bind, drop_succ_cons, drop_zero]
  split
  · rfl
  · rw [slice_eq_ok bytes 0 _ ⟨Nat.zero_le _, by omega⟩]
    rfl

theorem parseOpenTlv_ok {items next : List Item} {bytes rest : List UInt8} (read : parseOpenTlv make items bytes = .ok (next, rest)) :
    ∃ kind len tail item, bytes = kind :: len :: tail ∧ len.toNat ≤ tail.length ∧ make kind len (tail.take len.toNat) = .ok item ∧
      next = items ++ [item] ∧ rest = tail.drop len.toNat := by
  match bytes with
  | [] | [_] => cases read
  | kind :: len :: tail =>
    rw [parseOpenTlv_cons] at read
    split at read
    · cases read
    · obtain ⟨item, made, same⟩ := Checked.of_bind read
      cases same
      exact ⟨kind, len, tail, item, rfl, by omega, made, rfl, rfl⟩

theorem parseOpenTlv_advances (limit : Nat) : Advances (parseOpenTlv make) limit := by
  intro items bytes next rest _ _ read
  obtain ⟨kind, len, tail, item, rfl, -, -, -, rfl⟩ := parseOpenTlv_ok make read
  simp only [length_drop, length_cons]
  omega

end

theorem parseCapability_write (done : List Capability) (cap : Capability) (rest : List UInt8)
    (sized : cap.len.toNat = cap.val.length) : parseCapability done (cap.toBytes ++ rest) = .ok (done ++ [cap], rest) := by
  rw [Capability.toBytes, cons_append, cons_append, parseCapability, parseOpenTlv_cons, length_append, sized,
    if_neg (by omega), take_left, drop_left, BgpCapabilityCode.fromU8_asU8]
  rfl

section

variable (sized : ∀ cap ∈ caps, cap.len.toNat = cap.val.length)

include sized

theorem parseCapabilityTlvs_write : parseCapabilityTlvs (caps.flatMap Capability.toBytes) = .ok caps :=
  scan_items (parseOpenTlv_advances _ _) Capability.toBytes (fun cap => cap.len.toNat = cap.val.length)
    (fun _ => cons_ne_nil _ _) parseCapability_write caps sized (Nat.le_refl _)

theorem sum_cap_len : (caps.map fun cap => 2 + cap.len.toNat).sum = (caps.flatMap Capability.toBytes).length := by
  induction caps with
  | nil => rfl
  | cons cap caps ih =>
    rw [map_cons, sum_cons, ih fun other member => sized other (mem_cons_of_mem _ member),
      flatMap_cons, length_append, sized cap mem_cons_self, Capability.toBytes]
    simp only [length_cons]
    omega

end

theorem readOptionalParameters_fromCapabilities (sized : ∀ cap ∈ caps, cap.len.toNat = cap.val.length)
    (fits : (caps.flatMap Capability.toBytes).length < 256) :
    readOptionalParameters (fromCapabilities caps).toBytes = .ok [fromCapabilities caps] := by
  have read := @scan_items _ _ _ parseOptionalParam (parseOpenTlv_advances _ _) OptionalParam.toBytes (fun param => param = .fromCapabilities caps)
    (fun _ => cons_ne_nil _ _) (fun done param rest same => ?_) [fromCapabilities caps]
    (fun param member => mem_singleton.mp member) (Nat.le_refl _)
  · rw [flatMap_singleton] at read
    exact read
  · subst same
    have whole : (fromCapabilities caps).paramLen.toNat = (caps.flatMap Capability.toBytes).length := by
      rw [fromCapabilities, UInt8.toNat_ofNat', sum_cap_len sized, Nat.mod_eq_of_lt fits]
    have value : (fromCapabilities caps).paramValue.toBytes = caps.flatMap Capability.toBytes := rfl
    rw [OptionalParam.toBytes, cons_append, cons_append, parseOptionalParam, parseOpenTlv_cons, whole, value, length_append,
      if_neg (by omega), take_left, drop_left]
    simp only [parseParamValue, parseCapabilityTlvs_write sized]
    rfl

theorem cap_shorter {cap : Capability} (member : cap ∈ caps) : cap.val.length < (caps.flatMap Capability.toBytes).length := by
  induction caps with
  | nil => cases member
  | cons other caps ih =>
    rw [flatMap_cons, length_append, Capability.toBytes]
    simp only [length_cons]
    rcases mem_cons.mp member with rfl | later
    · omega
    · have shorter := ih later
      omega

section

variable (lens : ∀ cap ∈ caps, cap.len = byteLen cap.val) (fits : (OptionalParam.fromCapabilities caps).toBytes.length ≤ 255)

include lens fits

theorem lengths_fit : (fromCapabilities caps).toBytes.length = 2 + (caps.flatMap Capability.toBytes).length ∧
    (∀ cap ∈ caps, cap.len.toNat = cap.val.length) ∧
    UInt8.ofNat (2 + (fromCapabilities caps).paramLen.toNat) = byteLen (fromCapabilities caps).toBytes := by
  have whole : (fromCapabilities caps).toBytes.length = 2 + (caps.flatMap Capability.toBytes).length := by
    rw [OptionalParam.toBytes, fromCapabilities, OptParamVal.toBytes]
    simp only [length_cons]
    omega
  have sized : ∀ cap ∈ caps, cap.len.toNat = cap.val.length := by
    intro cap member
    have shorter := cap_shorter member
    rw [lens cap member, byteLen, UInt8.toNat_ofNat', Nat.mod_eq_of_lt (by omega)]
  have value : (fromCapabilities caps).paramLen.toNat = (caps.flatMap Capability.toBytes).length := by
    rw [fromCapabilities, UInt8.toNat_ofNat', sum_cap_len sized, Nat.mod_eq_of_lt (by omega)]
  exact ⟨whole, sized, by rw [byteLen, value, whole]⟩

theorem readParams_fits : OpenMessage.readParams (UInt8.ofNat (2 + (fromCapabilities caps).paramLen.toNat))
      (fromCapabilities caps).toBytes = .ok [fromCapabilities caps] := by
  obtain ⟨whole, sized, said⟩ := lengths_fit lens fits
  have len : (byteLen (fromCapabilities caps).toBytes).toNat = (fromCapabilities caps).toBytes.length := by
    rw [byteLen, UInt8.toNat_ofNat', Nat.mod_eq_of_lt (by omega)]
  have present : byteLen (fromCapabilities caps).toBytes ≠ 0 := by
    intro zero
    rw [zero, UInt8.toNat_zero] at len
    omega
  rw [said, OpenMessage.readParams, if_neg present, len, slice_eq_ok _ 0 _ ⟨Nat.zero_le _, Nat.le_refl _⟩, drop_zero, Nat.sub_zero,
    take_length]
  exact readOptionalParameters_fromCapabilities sized (by omega)

end

theorem OpenMessage.readParams_ok {len : UInt8} {rest : List UInt8} {params : List OptionalParam} (read : readParams len rest = .ok params) :
    len = 0 ∧ params = [] ∨ len.toNat ≤ rest.length ∧ readOptionalParameters (rest.take len.toNat) = .ok params := by
  unfold readParams at read
  split at read
  · rename_i zero
    cases read
    exact .inl ⟨zero, rfl⟩
  · obtain ⟨area, sliced, read⟩ := Checked.of_bind read
    unfold slice at sliced
    split at sliced
    · rename_i inside
      cases sliced
      exact .inr ⟨inside.2, read⟩
    · cases sliced

theorem Capability.familyOf_write (afiSafi : AfiSafi) (rest : List UInt8) : ∃ afiHigh afiLow safi,
    familyBytes afiSafi rest = afiHigh :: afiLow :: safi :: rest ∧ familyOf afiHigh afiLow safi = some afiSafi := by
  refine ⟨_, _, _, rfl, ?_⟩
  have afi : u16FromBytes (u16Bytes afiSafi.afi.toU16) = afiSafi.afi.toU16 := u16FromBytes_u16Bytes _
  change (Afi.tryFrom (u16FromBytes (u16Bytes afiSafi.afi.toU16))).bind _ = _
  rw [afi, afi_tryFrom_toU16, safi_tryFrom_toU8]
  rfl

theorem AddPathMode.tryFrom_toU8 (mode : AddPathMode) : tryFrom mode.toU8 = some mode := by
  cases mode <;> rfl

theorem Capability.asAddPath_newAddPath (entries : List (AfiSafi × AddPathMode)) : (newAddPath entries).asAddPath = some entries := by
  have read : addPathEntries (entries.flatMap fun entry => familyBytes entry.1 [entry.2.toU8]) = entries := by
    induction entries with
    | nil => rfl
    | cons entry entries ih =>
      obtain ⟨afiHigh, afiLow, safi, written, family⟩ := familyOf_write entry.1 [entry.2.toU8]
      rw [flatMap_cons, written]
      simp only [cons_append, nil_append]
      rw [addPathEntries, family, AddPathMode.tryFrom_toU8, ih]
      rfl
  rw [asAddPath, newAddPath, ofVal, if_pos rfl, read]

def asnField (asn : UInt32) : UInt16 := if asn > MAX_2BYTE_ASN then AS_TRANS.toUInt16 else asn.toUInt16

namespace OpenMessage

theorem fromBytes_toBytes {message arrived : OpenMessage} : fromBytes message.toBytes = .ok arrived ↔
      message.optionalParamsLen = byteLen (message.optionalParams.flatMap OptionalParam.toBytes) ∧
      validateVersion message.version = .ok () ∧ validateHoldTime message.holdTime = .ok () ∧
      validateBgpIdentifier message.bgpIdentifier = .ok () ∧
      ∃ params, readParams message.optionalParamsLen (message.optionalParams.flatMap OptionalParam.toBytes) = .ok params ∧
        ∃ asn, realAsn (asnField message.asn) params = .ok asn ∧
          (⟨message.version, asn, message.holdTime, message.bgpIdentifier, message.optionalParamsLen, params⟩ : OpenMessage) = arrived := by
  have asnBack : u16FromBytes (u16Bytes (asnField message.asn)) = asnField message.asn := u16FromBytes_u16Bytes _
  have holdBack : u16FromBytes (u16Bytes message.holdTime) = message.holdTime := u16FromBytes_u16Bytes _
  have idBack : u32FromBytes (u32Bytes message.bgpIdentifier) = message.bgpIdentifier := u32FromBytes_u32Bytes _
  unfold asnField at asnBack ⊢
  rw [toBytes]
  simp only [u16Bytes, u32Bytes, beBytes] at asnBack holdBack idBack
  simp only [u16Bytes, u32Bytes, beBytes, cons_append, nil_append, fromBytes, asnBack, holdBack, idBack]
  split
  · rename_i different
    constructor
    · intro read
      cases read
    · intro both
      exact absurd both.1 different
  · rename_i sameLen
    rw [not_not] at sameLen
    simp only [Checked.bind_eq_ok, Checked.ok.injEq, sameLen, true_and]
    constructor
    · rintro ⟨_, version, _, holdTime, _, identifier, params, read, asn, real, same⟩
      exact ⟨version, holdTime, identifier, params, read, asn, real, same⟩
    · rintro ⟨version, holdTime, identifier, params, read, asn, real, same⟩
      exact ⟨_, version, _, holdTime, _, identifier, params, read, asn, real, same⟩

theorem fromBytes_params {message arrived : OpenMessage} (read : fromBytes message.toBytes = .ok arrived) :
    message.optionalParamsLen = byteLen (message.optionalParams.flatMap OptionalParam.toBytes) ∧
      readParams message.optionalParamsLen (message.optionalParams.flatMap OptionalParam.toBytes) = .ok arrived.optionalParams := by
  obtain ⟨said, -, -, -, params, parsed, -, -, rfl⟩ := fromBytes_toBytes.mp read
  exact ⟨said, parsed⟩

end OpenMessage

end

end Bgpgg.Peer
