import Bgpgg.Lib.Checked
import Bgpgg.Rpki.CacheSession

namespace Bgpgg.Rpki.Rtr

open Net Lib Checked List

def PROTOCOL_VERSION : UInt8 := 1
def HEADER_SIZE : Nat := 8
def MAX_MESSAGE_SIZE : UInt32 := 65536

inductive MessageType where
  | serialNotify
  | serialQuery
  | resetQuery
  | cacheResponse
  | ipv4Prefix
  | ipv6Prefix
  | endOfData
  | cacheReset
  | routerKey
  | errorReport
deriving DecidableEq, Repr

def MessageType.toU8 : MessageType → UInt8
  | serialNotify => 0
  | serialQuery => 1
  | resetQuery => 2
  | cacheResponse => 3
  | ipv4Prefix => 4
  | ipv6Prefix => 6
  | endOfData => 7
  | cacheReset => 8
  | routerKey => 9
  | errorReport => 10

def MessageType.fromU8 (val : UInt8) : Option MessageType := if val = 0 then some .serialNotify
  else if val = 1 then some .serialQuery
  else if val = 2 then some .resetQuery
  else if val = 3 then some .cacheResponse
  else if val = 4 then some .ipv4Prefix
  else if val = 6 then some .ipv6Prefix
  else if val = 7 then some .endOfData
  else if val = 8 then some .cacheReset
  else if val = 9 then some .routerKey
  else if val = 10 then some .errorReport
  else none

theorem MessageType.fromU8_toU8 (messageType : MessageType) : fromU8 messageType.toU8 = some messageType := by
  cases messageType <;> rfl

def errorCodeToU16 : ErrorCode → UInt16
  | .corruptData => 0
  | .internalError => 1
  | .noDataAvailable => 2
  | .invalidRequest => 3
  | .unsupportedProtocolVersion => 4
  | .unsupportedMessageType => 5
  | .withdrawalOfUnknownRecord => 6
  | .duplicateAnnouncementReceived => 7
  | .unexpectedProtocolVersion => 8

def errorCodeFromU16 (val : UInt16) : Option ErrorCode := if val = 0 then some .corruptData
  else if val = 1 then some .internalError
  else if val = 2 then some .noDataAvailable
  else if val = 3 then some .invalidRequest
  else if val = 4 then some .unsupportedProtocolVersion
  else if val = 5 then some .unsupportedMessageType
  else if val = 6 then some .withdrawalOfUnknownRecord
  else if val = 7 then some .duplicateAnnouncementReceived
  else if val = 8 then some .unexpectedProtocolVersion
  else none

theorem errorCodeFromU16_toU16 (code : ErrorCode) : errorCodeFromU16 (errorCodeToU16 code) = some code := by
  cases code <;> rfl

inductive ParseError where
  | tooShort (expected actual : Nat)
  | invalidLength (messageType : MessageType) (length : UInt32)
  | unknownMessageType (value : UInt8)
  | unsupportedVersion (version : UInt8)
  | unknownErrorCode (code : UInt16)
  | malformedErrorReport
  | invalidErrorText
deriving DecidableEq, Repr

structure SubjectKeyIdentifier where
  bytes : List UInt8
  size : bytes.length = 20
deriving DecidableEq, Repr

inductive Message where
  | serialNotify (sessionId : UInt16) (serial : UInt32)
  | serialQuery (sessionId : UInt16) (serial : UInt32)
  | resetQuery
  | cacheResponse (sessionId : UInt16)
  | ipv4Prefix (pdu : PrefixPdu Ipv4Addr)
  | ipv6Prefix (pdu : PrefixPdu Ipv6Addr)
  | endOfData (sessionId : UInt16) (serial refreshInterval retryInterval expireInterval : UInt32)
  | cacheReset
  | routerKey (flags : UInt8) (subjectKeyIdentifier : SubjectKeyIdentifier) (asn : UInt32) (subjectPublicKeyInfo : List UInt8)
  | errorReport (errorCode : ErrorCode) (erroneousPdu : Option (List UInt8)) (errorText : String)
deriving DecidableEq, Repr

def textBytes (text : String) : List UInt8 := text.toByteArray.data.toList

def fromUtf8 (bytes : List UInt8) : Option String := String.fromUTF8? ⟨bytes.toArray⟩

theorem fromUtf8_textBytes (text : String) : fromUtf8 (textBytes text) = some text := by
  unfold fromUtf8 textBytes String.fromUTF8?
  rw [dif_pos text.isValidUTF8]
  rfl

def u32Len (bytes : List UInt8) : List UInt8 := u32Bytes (UInt32.ofNat bytes.length)

namespace Message

def messageType : Message → MessageType
  | serialNotify _ _ => .serialNotify
  | serialQuery _ _ => .serialQuery
  | resetQuery => .resetQuery
  | cacheResponse _ => .cacheResponse
  | ipv4Prefix _ => .ipv4Prefix
  | ipv6Prefix _ => .ipv6Prefix
  | endOfData _ _ _ _ _ => .endOfData
  | cacheReset => .cacheReset
  | routerKey _ _ _ _ => .routerKey
  | errorReport _ _ _ => .errorReport

-- The third field of the header, which a router key and an error report use for themselves.
def sessionField : Message → UInt16
  | serialNotify sessionId _ | serialQuery sessionId _ | cacheResponse sessionId | endOfData sessionId _ _ _ _ => sessionId
  | resetQuery | ipv4Prefix _ | ipv6Prefix _ | cacheReset => 0
  | routerKey flags _ _ _ => flags.toUInt16 <<< 8
  | errorReport errorCode _ _ => errorCodeToU16 errorCode

def toBytes : Message → List UInt8
  | serialNotify _ serial | serialQuery _ serial => u32Bytes serial
  | resetQuery | cacheResponse _ | cacheReset => []
  | ipv4Prefix pdu => [pdu.flags, pdu.prefixLength, pdu.maxLength, 0] ++ (beBytes 4 pdu.pfx.toNat ++ u32Bytes pdu.asn)
  | ipv6Prefix pdu => [pdu.flags, pdu.prefixLength, pdu.maxLength, 0] ++ (beBytes 16 pdu.pfx.toNat ++ u32Bytes pdu.asn)
  | endOfData _ serial refreshInterval retryInterval expireInterval =>
    u32Bytes serial ++ (u32Bytes refreshInterval ++ (u32Bytes retryInterval ++ u32Bytes expireInterval))
  | routerKey _ subjectKeyIdentifier asn subjectPublicKeyInfo =>
    subjectKeyIdentifier.bytes ++ (u32Bytes asn ++ subjectPublicKeyInfo)
  | errorReport _ erroneousPdu errorText =>
    u32Len (erroneousPdu.getD []) ++ (erroneousPdu.getD [] ++ (u32Len (textBytes errorText) ++ textBytes errorText))

def length (message : Message) : UInt32 := UInt32.ofNat (HEADER_SIZE + message.toBytes.length)

def serialize (message : Message) : List UInt8 :=
  PROTOCOL_VERSION :: message.messageType.toU8 :: (u16Bytes message.sessionField ++ (u32Bytes message.length ++ message.toBytes))

end Message

section

section

variable (bytes : List UInt8)

def u32At (start : Nat) : Checked ParseError UInt32 := do
  let four ← bytesAt bytes start 4
  .ok (u32FromBytes four)

def expectLength (messageType : MessageType) (expected length : UInt32) : Checked ParseError Unit :=
  if length ≠ expected then .err (.invalidLength messageType length) else .ok ()

def atLeast (messageType : MessageType) (least length : UInt32) : Checked ParseError Unit :=
  if length < least then .err (.invalidLength messageType length) else .ok ()

def parseIpv4Prefix (length : UInt32) (body : List UInt8) : Checked ParseError Message := do
  expectLength .ipv4Prefix 20 length
  let flags ← byteAt body 0
  let prefixLength ← byteAt body 1
  let maxLength ← byteAt body 2
  let octets ← bytesAt body 4 4
  let asn ← u32At body 8
  .ok (.ipv4Prefix ⟨flags, prefixLength, maxLength, BitVec.ofNat 32 (fromBe octets), asn⟩)

def parseIpv6Prefix (length : UInt32) (body : List UInt8) : Checked ParseError Message := do
  expectLength .ipv6Prefix 32 length
  let part ← slice body 4 20
  let octets ← copyExact 16 part
  let flags ← byteAt body 0
  let prefixLength ← byteAt body 1
  let maxLength ← byteAt body 2
  let asn ← u32At body 20
  .ok (.ipv6Prefix ⟨flags, prefixLength, maxLength, BitVec.ofNat 128 (fromBe octets), asn⟩)

def parseEndOfData (sessionId : UInt16) (length : UInt32) (body : List UInt8) : Checked ParseError Message := do
  expectLength .endOfData 24 length
  let serial ← u32At body 0
  let refreshInterval ← u32At body 4
  let retryInterval ← u32At body 8
  let expireInterval ← u32At body 12
  .ok (.endOfData sessionId serial refreshInterval retryInterval expireInterval)

def keyIdentifier : Checked ParseError SubjectKeyIdentifier := if size : bytes.length = 20 then .ok ⟨bytes, size⟩ else .fault .outOfBounds

def parseRouterKey (flags : UInt8) (length : UInt32) (body : List UInt8) : Checked ParseError Message := do
  atLeast .routerKey 32 length
  let part ← slice body 0 20
  let ski ← keyIdentifier part
  let asn ← u32At body 20
  let info ← slice body 24 body.length
  .ok (.routerKey flags ski asn info)

def parseErroneousPdu (body : List UInt8) (pduLength : Nat) : Checked ParseError (Option (List UInt8)) := if pduLength > 0 then do
    let pdu ← slice body 4 (4 + pduLength)
    .ok (some pdu)
  else .ok none

def parseErrorText (body : List UInt8) (start textLength : Nat) : Checked ParseError String := if textLength > 0 then do
    let text ← slice body start (start + textLength)
    Checked.ofOption .invalidErrorText (fromUtf8 text)
  else .ok ""

def parseErrorReport (errorCode : ErrorCode) (length : UInt32) (body : List UInt8) : Checked ParseError Message := do
  atLeast .errorReport 16 length
  if body.length < 8 then .err .malformedErrorReport
  else
    let pduLength ← u32At body 0
    if body.length < 4 + pduLength.toNat + 4 then .err .malformedErrorReport
    else
      let erroneousPdu ← parseErroneousPdu body pduLength.toNat
      let textOffset := 4 + pduLength.toNat
      let textLength ← u32At body textOffset
      let textDataOffset := textOffset + 4
      if body.length < textDataOffset + textLength.toNat then .err .malformedErrorReport
      else
        let errorText ← parseErrorText body textDataOffset textLength.toNat
        .ok (.errorReport errorCode erroneousPdu errorText)

-- The flags of a router key are the high byte of the session field, read from the whole message.
def parseBody (messageType : MessageType) (sessionId : UInt16) (length : UInt32) (body : List UInt8) : Checked ParseError Message :=
  match messageType with
  | .serialNotify => do
    expectLength .serialNotify 12 length
    let serial ← u32At body 0
    .ok (.serialNotify sessionId serial)
  | .serialQuery => do
    expectLength .serialQuery 12 length
    let serial ← u32At body 0
    .ok (.serialQuery sessionId serial)
  | .resetQuery => do
    expectLength .resetQuery 8 length
    .ok .resetQuery
  | .cacheResponse => do
    expectLength .cacheResponse 8 length
    .ok (.cacheResponse sessionId)
  | .ipv4Prefix => parseIpv4Prefix length body
  | .ipv6Prefix => parseIpv6Prefix length body
  | .endOfData => parseEndOfData sessionId length body
  | .cacheReset => do
    expectLength .cacheReset 8 length
    .ok .cacheReset
  | .routerKey => do
    let flags ← byteAt bytes 2
    parseRouterKey flags length body
  | .errorReport => do
    let errorCode ← Checked.ofOption (.unknownErrorCode sessionId) (errorCodeFromU16 sessionId)
    parseErrorReport errorCode length body

def fromBytes : Checked ParseError (Message × Nat) := if bytes.length < HEADER_SIZE then .err (.tooShort HEADER_SIZE bytes.length)
  else do
    let version ← byteAt bytes 0
    if version ≠ PROTOCOL_VERSION then .err (.unsupportedVersion version)
    else
      let typeVal ← byteAt bytes 1
      let session ← bytesAt bytes 2 2
      let sessionId := u16FromBytes session
      let length ← u32At bytes 4
      if length.toNat < HEADER_SIZE ∨ length > MAX_MESSAGE_SIZE then
        let messageType ← Checked.ofOption (.unknownMessageType typeVal) (MessageType.fromU8 typeVal)
        .err (.invalidLength messageType length)
      else if bytes.length < length.toNat then .err (.tooShort length.toNat bytes.length)
      else
        let messageType ← Checked.ofOption (.unknownMessageType typeVal) (MessageType.fromU8 typeVal)
        let body ← slice bytes HEADER_SIZE length.toNat
        let message ← parseBody bytes messageType sessionId length body
        .ok (message, length.toNat)

end

end

section

variable (bytes : List UInt8) (start : Nat) (messageType : MessageType) (sessionId : UInt16) (length : UInt32)
  (body : List UInt8)

variable {next : Unit → Checked ParseError Message}

theorem u32At_eq_ok (inside : start + 4 ≤ bytes.length) : u32At bytes start = .ok (u32FromBytes ((bytes.drop start).take 4)) := by
  rw [u32At, bytesAt_eq_ok bytes start 4 inside]
  rfl

theorem faults_u32At (inside : start + 4 ≤ bytes.length) : ¬ (u32At bytes start).Faults := by
  rw [u32At_eq_ok bytes start inside]
  exact faults_ok _

theorem expectLength_cases {expected length : UInt32}
    (safe : length = expected → ¬ (next ()).Faults) : ¬ (expectLength messageType expected length >>= next).Faults := by
  unfold expectLength
  by_cases same : length = expected
  · rw [if_neg (not_not.mpr same)]
    exact safe same
  · rw [if_pos same]
    exact faults_err _

theorem atLeast_cases {least length : UInt32}
    (safe : least ≤ length → ¬ (next ()).Faults) : ¬ (atLeast messageType least length >>= next).Faults := by
  unfold atLeast
  by_cases small : length < least
  · rw [if_pos small]
    exact faults_err _
  · rw [if_neg small]
    exact safe (UInt32.not_lt.mp small)

section

variable (whole : length.toNat = HEADER_SIZE + body.length)

include whole

theorem faults_parseIpv4Prefix : ¬ (parseIpv4Prefix length body).Faults := by
  refine expectLength_cases _ fun fixed => ?_
  have size : body.length = 12 := by
    rw [fixed] at whole
    change 20 = 8 + body.length at whole
    omega
  simp only [faults_bind, faults_byteAt, faults_bytesAt body 4 4 (by omega), faults_u32At body 8 (by omega), size]
  simp

theorem faults_parseIpv6Prefix : ¬ (parseIpv6Prefix length body).Faults := by
  refine expectLength_cases _ fun fixed => ?_
  have size : body.length = 24 := by
    rw [fixed] at whole
    change 32 = 8 + body.length at whole
    omega
  have copied : copyExact 16 ((body.drop 4).take (20 - 4)) = (.ok ((body.drop 4).take 16) : Checked ParseError _) := by
    rw [copyExact, if_pos (by rw [length_take, length_drop]; omega)]
  rw [slice_eq_ok body 4 20 (by omega), ok_bind, copied]
  simp only [faults_bind, faults_byteAt, faults_u32At body 20 (by omega), size]
  simp

theorem faults_parseEndOfData : ¬ (parseEndOfData sessionId length body).Faults := by
  refine expectLength_cases _ fun fixed => ?_
  have size : body.length = 16 := by
    rw [fixed] at whole
    change 24 = 8 + body.length at whole
    omega
  simp only [faults_bind, faults_u32At body 0 (by omega), faults_u32At body 4 (by omega),
    faults_u32At body 8 (by omega), faults_u32At body 12 (by omega)]
  simp

end

theorem keyIdentifier_eq_ok (size : bytes.length = 20) : keyIdentifier bytes = .ok ⟨bytes, size⟩ := dif_pos size

theorem faults_parseRouterKey (flags : UInt8) {length : UInt32} {body : List UInt8}
    (whole : length.toNat = HEADER_SIZE + body.length) : ¬ (parseRouterKey flags length body).Faults := by
  refine atLeast_cases _ fun large => ?_
  have size : 24 ≤ body.length := by
    have counted := UInt32.le_iff_toNat_le.mp large
    rw [whole] at counted
    change 32 ≤ 8 + body.length at counted
    omega
  have part : ((body.drop 0).take (20 - 0)).length = 20 := by rw [length_take, length_drop]; omega
  rw [slice_eq_ok body 0 20 (by omega), ok_bind, keyIdentifier_eq_ok _ part, slice_eq_ok body 24 body.length (by omega)]
  simp only [faults_bind, faults_u32At body 20 (by omega)]
  simp

theorem faults_parseErroneousPdu {pduLength : Nat} (inside : 4 + pduLength ≤ body.length) :
    ¬ (parseErroneousPdu body pduLength).Faults := by
  unfold parseErroneousPdu
  rw [slice_eq_ok body 4 (4 + pduLength) (by omega)]
  split <;> simp

theorem faults_parseErrorText {start textLength : Nat} (inside : start + textLength ≤ body.length) :
    ¬ (parseErrorText body start textLength).Faults := by
  unfold parseErrorText
  rw [slice_eq_ok body start (start + textLength) (by omega)]
  split <;> simp

theorem faults_parseErrorReport (errorCode : ErrorCode) (length : UInt32) (body : List UInt8) :
    ¬ (parseErrorReport errorCode length body).Faults := by
  refine atLeast_cases _ fun _ => ?_
  split
  · exact faults_err _
  · refine returns_bind _ _ (faults_u32At body 0 (by omega)) fun pduLength _ => ?_
    split
    · exact faults_err _
    · refine returns_bind _ _ (faults_parseErroneousPdu _ (by omega)) fun erroneousPdu _ => ?_
      refine returns_bind _ _ (faults_u32At body _ (by omega)) fun textLength _ => ?_
      dsimp only
      split
      · exact faults_err _
      · refine returns_bind _ _ (faults_parseErrorText _ (by omega)) fun errorText _ => ?_
        exact faults_ok _

theorem faults_parseBody (headed : HEADER_SIZE ≤ bytes.length) (whole : length.toNat = HEADER_SIZE + body.length) :
    ¬ (parseBody bytes messageType sessionId length body).Faults := by
  have serial : length = 12 → ¬ (u32At body 0).Faults := by
    intro fixed
    rw [fixed] at whole
    change 12 = 8 + body.length at whole
    exact faults_u32At body 0 (by omega)
  cases messageType with
  | serialNotify | serialQuery =>
    exact expectLength_cases _ fun fixed => returns_bind _ _ (serial fixed) fun _ _ => faults_ok _
  | resetQuery | cacheResponse => exact expectLength_cases _ fun _ => faults_ok _
  | ipv4Prefix => exact faults_parseIpv4Prefix length body whole
  | ipv6Prefix => exact faults_parseIpv6Prefix length body whole
  | endOfData => exact faults_parseEndOfData sessionId length body whole
  | cacheReset => exact expectLength_cases _ fun _ => faults_ok _
  | routerKey =>
    refine returns_bind _ _ ?_ fun flags _ => faults_parseRouterKey flags whole
    rw [faults_byteAt]
    change 8 ≤ bytes.length at headed
    omega
  | errorReport =>
    exact returns_bind _ _ (faults_ofOption _ _) fun errorCode _ => faults_parseErrorReport errorCode length body

theorem faults_fromBytes : ¬ (fromBytes bytes).Faults := by
  unfold fromBytes
  split
  · exact faults_err _
  · rename_i long
    have headed : 8 ≤ bytes.length := not_lt.mp long
    refine returns_bind _ _ (by rw [faults_byteAt]; omega) fun version _ => ?_
    split
    · exact faults_err _
    · refine returns_bind _ _ (by rw [faults_byteAt]; omega) fun typeVal _ => ?_
      refine returns_bind _ _ (faults_bytesAt bytes 2 2 (by omega)) fun session _ => ?_
      refine returns_bind _ _ (faults_u32At bytes 4 (by omega)) fun length _ => ?_
      split
      · exact returns_bind _ _ (faults_ofOption _ _) fun _ _ => faults_err _
      · rename_i sized
        split
        · exact faults_err _
        · rename_i present
          have bounds : HEADER_SIZE ≤ length.toNat ∧ length.toNat ≤ bytes.length := by
            rw [not_or] at sized
            exact ⟨not_lt.mp sized.1, not_lt.mp present⟩
          refine returns_bind _ _ (faults_ofOption _ _) fun messageType _ => ?_
          rw [slice_eq_ok bytes HEADER_SIZE length.toNat bounds, ok_bind]
          refine returns_bind _ _ (faults_parseBody bytes messageType _ length _ headed ?_) fun _ _ => faults_ok _
          rw [length_take, length_drop]
          omega

theorem fromBytes_consumed (message : Message) (consumed : Nat)
    (returned : fromBytes bytes = .ok (message, consumed)) : consumed ≤ bytes.length := by
  unfold fromBytes at returned
  split at returned
  · cases returned
  · obtain ⟨version, -, returned⟩ := of_bind returned
    split at returned
    · cases returned
    · obtain ⟨typeVal, -, returned⟩ := of_bind returned
      obtain ⟨session, -, returned⟩ := of_bind returned
      obtain ⟨length, -, returned⟩ := of_bind returned
      split at returned
      · obtain ⟨messageType, -, returned⟩ := of_bind returned
        cases returned
      · split at returned
        · cases returned
        · rename_i present
          obtain ⟨messageType, -, returned⟩ := of_bind returned
          obtain ⟨body, -, returned⟩ := of_bind returned
          obtain ⟨read, -, returned⟩ := of_bind returned
          cases returned
          exact not_lt.mp present

end

section

variable (flags : UInt8) (front : List UInt8) (message : Message)

def Message.InRange : Message → Prop
  | errorReport _ erroneousPdu _ => erroneousPdu ≠ some []
  | _ => True

instance (message : Message) : Decidable message.InRange := by
  cases message <;> unfold Message.InRange <;> infer_instance

theorem drop_front {front : List UInt8} (rest : List UInt8) {start : Nat} (here : front.length = start) :
    (front ++ rest).drop start = rest := by
  rw [← here, drop_left]

theorem u32At_write (value : UInt32) (rest : List UInt8) (start : Nat) (here : front.length = start) :
    u32At (front ++ (u32Bytes value ++ rest)) start = .ok value := by
  have inside : start + 4 ≤ (front ++ (u32Bytes value ++ rest)).length := by
    simp only [length_append, length_u32Bytes]
    omega
  rw [u32At_eq_ok _ start inside, drop_front _ here, take_left' (length_u32Bytes value), u32FromBytes_u32Bytes]

theorem slice_write {Error : Type} (front part rest : List UInt8) (start stop : Nat) (here : front.length = start)
    (there : start + part.length = stop) : slice (front ++ (part ++ rest)) start stop = (.ok part : Checked Error _) := by
  have inside : start ≤ stop ∧ stop ≤ (front ++ (part ++ rest)).length := by
    simp only [length_append]
    omega
  rw [slice_eq_ok _ start stop inside, drop_front _ here, take_left' (by omega)]

theorem atLeast_large (messageType : MessageType) {least length : UInt32} (large : least.toNat ≤ length.toNat) :
    atLeast messageType least length = .ok () :=
  if_neg (UInt32.not_lt.mpr (UInt32.le_iff_toNat_le.mpr large))

theorem ofBe_addr (width : Nat) (addr : BitVec (8 * width)) : BitVec.ofNat (8 * width) (fromBe (beBytes width addr.toNat)) = addr := by
  have bound : addr.toNat < 256 ^ width := by
    have below := addr.isLt
    rwa [Nat.pow_mul] at below
  rw [fromBe_beBytes, Nat.mod_eq_of_lt bound, BitVec.ofNat_toNat, BitVec.setWidth_eq]

theorem length_serialize : message.serialize.length = HEADER_SIZE + message.toBytes.length := by
  simp only [Message.serialize, length_cons, length_append, length_u16Bytes, length_u32Bytes, HEADER_SIZE]
  omega

theorem length_toNat (small : message.serialize.length ≤ 65536) : message.length.toNat = HEADER_SIZE + message.toBytes.length := by
  rw [length_serialize] at small
  exact UInt32.toNat_ofNat_of_lt' (Nat.lt_of_le_of_lt small (by decide))

theorem parseRouterKey_toBytes {ski : SubjectKeyIdentifier} {asn : UInt32} {info : List UInt8} {length : UInt32}
    (whole : length.toNat = HEADER_SIZE + (Message.routerKey flags ski asn info).toBytes.length) :
    parseRouterKey flags length (Message.routerKey flags ski asn info).toBytes = .ok (.routerKey flags ski asn info) := by
  generalize written : (Message.routerKey flags ski asn info).toBytes = body at whole ⊢
  replace written : ski.bytes ++ (u32Bytes asn ++ info) = body := written
  have size : body.length = 24 + info.length := by
    simp only [← written, length_append, length_u32Bytes, ski.size]
    omega
  have identifier : slice body 0 20 = (.ok ski.bytes : Checked ParseError _) :=
    written ▸ slice_write [] ski.bytes _ 0 20 rfl (by rw [ski.size])
  have number : u32At body 20 = .ok asn := written ▸ u32At_write ski.bytes asn info 20 ski.size
  have rest : slice body 24 body.length = (.ok info : Checked ParseError _) := by
    have last := @slice_write ParseError (ski.bytes ++ u32Bytes asn) info [] 24 body.length (by simp [ski.size]) size.symm
    rwa [append_nil, append_assoc, written] at last
  have large : (32 : UInt32).toNat ≤ length.toNat := by
    rw [whole]
    change 32 ≤ 8 + _
    omega
  rw [parseRouterKey, atLeast_large _ large, identifier, number, rest]
  simp [keyIdentifier_eq_ok _ ski.size]

theorem u32Len_toNat (bytes : List UInt8) (small : bytes.length ≤ 65536) : (UInt32.ofNat bytes.length).toNat = bytes.length :=
  UInt32.toNat_ofNat_of_lt' (Nat.lt_of_le_of_lt small (by decide))

theorem parseErroneousPdu_write {erroneousPdu : Option (List UInt8)} (present : erroneousPdu ≠ some []) (rest : List UInt8) :
    parseErroneousPdu (u32Len (erroneousPdu.getD []) ++ (erroneousPdu.getD [] ++ rest)) (erroneousPdu.getD []).length =
      .ok erroneousPdu := by
  cases erroneousPdu with
  | none => rfl
  | some pdu =>
    have positive : pdu.length > 0 := length_pos_iff.mpr fun empty => present (by rw [empty])
    rw [Option.getD_some, parseErroneousPdu, if_pos positive,
      slice_write (u32Len pdu) pdu rest 4 (4 + pdu.length) (length_u32Bytes _) rfl]
    rfl

theorem parseErrorText_write (text : String) (start : Nat) (here : front.length = start) :
    parseErrorText (front ++ textBytes text) start (textBytes text).length = .ok text := by
  unfold parseErrorText
  by_cases filled : (textBytes text).length > 0
  · have part := @slice_write ParseError front (textBytes text) [] start (start + (textBytes text).length) here rfl
    rw [append_nil] at part
    rw [if_pos filled, part, ok_bind, fromUtf8_textBytes]
    rfl
  · have empty : textBytes text = textBytes "" := length_eq_zero_iff.mp (by omega)
    have same : some text = some "" := by rw [← fromUtf8_textBytes text, empty, fromUtf8_textBytes]
    rw [if_neg filled, Option.some.inj same]

theorem parseErrorReport_toBytes {code : ErrorCode} {pdu : Option (List UInt8)} {text : String} (present : pdu ≠ some [])
    {length : UInt32} (whole : length.toNat = HEADER_SIZE + (Message.errorReport code pdu text).toBytes.length)
    (small : length.toNat ≤ 65536) :
    parseErrorReport code length (Message.errorReport code pdu text).toBytes = .ok (.errorReport code pdu text) := by
  generalize written : (Message.errorReport code pdu text).toBytes = body at whole ⊢
  generalize quoted : pdu.getD [] = bytes at written
  replace written : u32Len bytes ++ (bytes ++ (u32Len (textBytes text) ++ textBytes text)) = body := quoted ▸ written
  have size : body.length = 4 + bytes.length + 4 + (textBytes text).length := by
    simp only [← written, u32Len, length_append, length_u32Bytes]
    omega
  have large : (16 : UInt32).toNat ≤ length.toNat := by
    rw [whole]
    change 16 ≤ 8 + _
    omega
  have pduLength : (UInt32.ofNat bytes.length).toNat = bytes.length := u32Len_toNat _ (by omega)
  have textLength : (UInt32.ofNat (textBytes text).length).toNat = (textBytes text).length := u32Len_toNat _ (by omega)
  have first : u32At body 0 = .ok (UInt32.ofNat bytes.length) := written ▸ u32At_write [] _ _ 0 rfl
  have second : u32At body (4 + bytes.length) = .ok (UInt32.ofNat (textBytes text).length) := by
    have field := u32At_write (u32Len bytes ++ bytes) (UInt32.ofNat (textBytes text).length) (textBytes text) (4 + bytes.length)
      (by rw [length_append, u32Len, length_u32Bytes])
    rwa [append_assoc, ← u32Len, written] at field
  have told : parseErrorText body (4 + bytes.length + 4) (textBytes text).length = .ok text := by
    have last := parseErrorText_write (u32Len bytes ++ (bytes ++ u32Len (textBytes text))) text (4 + bytes.length + 4)
      (by simp only [length_append, u32Len, length_u32Bytes]; omega)
    rwa [append_assoc, append_assoc, written] at last
  have erroneous : parseErroneousPdu body bytes.length = .ok pdu := by
    rw [← written, ← quoted]
    exact parseErroneousPdu_write present _
  rw [parseErrorReport, atLeast_large _ large, first]
  simp only [ok_bind, pduLength, erroneous, second, textLength, told]
  rw [if_neg (by omega), if_neg (by omega), if_neg (by omega)]

theorem high_byte : (u16Bytes (flags.toUInt16 <<< 8)).head? = some flags := by
  have bound : flags.toNat * 256 < 65536 := by
    have below := flags.toNat_lt
    omega
  have value : (flags.toUInt16 <<< 8).toNat = flags.toNat * 256 := by
    rw [UInt16.toNat_shiftLeft, Nat.shiftLeft_eq]
    exact Nat.mod_eq_of_lt bound
  rw [u16Bytes, value, beBytes, head?_cons, Nat.pow_one, Nat.mul_div_cancel _ (by decide), UInt8.ofNat_toNat]

theorem byteAt_two (front : UInt8) (second : UInt8) {field : List UInt8} (rest : List UInt8) {byte : UInt8}
    (first : field.head? = some byte) : (byteAt (front :: second :: (field ++ rest)) 2 : Checked ParseError UInt8) = .ok byte := by
  cases field with
  | nil => cases first
  | cons head tail =>
    cases first
    rfl

-- A body of fixed size is a list of that many bytes, so reading it is computing.
theorem parseBody_serialize (inRange : message.InRange) (small : message.serialize.length ≤ 65536) :
    parseBody message.serialize message.messageType message.sessionField message.length message.toBytes = .ok message := by
  have whole := length_toNat message small
  rw [length_serialize, ← whole] at small
  cases message with
  | serialNotify sessionId serial =>
    change Checked.ok (Message.serialNotify sessionId (u32FromBytes (u32Bytes serial))) = _
    rw [u32FromBytes_u32Bytes]
  | serialQuery sessionId serial =>
    change Checked.ok (Message.serialQuery sessionId (u32FromBytes (u32Bytes serial))) = _
    rw [u32FromBytes_u32Bytes]
  | resetQuery | cacheResponse sessionId => rfl
  | ipv4Prefix pdu =>
    change Checked.ok (Message.ipv4Prefix ⟨pdu.flags, pdu.prefixLength, pdu.maxLength,
      BitVec.ofNat (8 * 4) (fromBe (beBytes 4 pdu.pfx.toNat)), u32FromBytes (u32Bytes pdu.asn)⟩) = _
    rw [u32FromBytes_u32Bytes, ofBe_addr 4 pdu.pfx]
  | ipv6Prefix pdu =>
    change Checked.ok (Message.ipv6Prefix ⟨pdu.flags, pdu.prefixLength, pdu.maxLength,
      BitVec.ofNat (8 * 16) (fromBe (beBytes 16 pdu.pfx.toNat)), u32FromBytes (u32Bytes pdu.asn)⟩) = _
    rw [u32FromBytes_u32Bytes, ofBe_addr 16 pdu.pfx]
  | endOfData sessionId serial refresh retry expire =>
    change Checked.ok (Message.endOfData sessionId (u32FromBytes (u32Bytes serial)) (u32FromBytes (u32Bytes refresh))
      (u32FromBytes (u32Bytes retry)) (u32FromBytes (u32Bytes expire))) = _
    simp
  | cacheReset => rfl
  | routerKey flags ski asn info =>
    have flag : (byteAt (Message.routerKey flags ski asn info).serialize 2 : Checked ParseError UInt8) = .ok flags :=
      byteAt_two _ _ _ (high_byte flags)
    rw [Message.messageType, parseBody, flag]
    exact parseRouterKey_toBytes _ whole
  | errorReport code pdu text =>
    rw [Message.messageType, parseBody, Message.sessionField, errorCodeFromU16_toU16]
    exact parseErrorReport_toBytes inRange whole small

theorem u32At_serialize (rest : List UInt8) : u32At (message.serialize ++ rest) 4 = .ok message.length := by
  have written := u32At_write ([PROTOCOL_VERSION, message.messageType.toU8] ++ u16Bytes message.sessionField) message.length
    (message.toBytes ++ rest) 4 (by simp)
  simpa [Message.serialize] using written

theorem fromBytes_serialize (inRange : message.InRange) (small : message.serialize.length ≤ 65536) :
    fromBytes message.serialize = .ok (message, message.serialize.length) := by
  have whole := length_toNat message small
  have body := parseBody_serialize message inRange small
  rw [length_serialize] at small
  have session : (bytesAt message.serialize 2 2 : Checked ParseError (List UInt8)) = .ok (u16Bytes message.sessionField) := rfl
  have field : u32At message.serialize 4 = .ok message.length := by
    have read := u32At_serialize message []
    rwa [append_nil] at read
  have bytes : (slice message.serialize HEADER_SIZE (HEADER_SIZE + message.toBytes.length) : Checked ParseError (List UInt8)) =
      .ok message.toBytes := by
    have written := @slice_write ParseError (PROTOCOL_VERSION :: message.messageType.toU8 :: (u16Bytes message.sessionField ++
      u32Bytes message.length)) message.toBytes [] HEADER_SIZE (HEADER_SIZE + message.toBytes.length) (by simp [HEADER_SIZE]) rfl
    simpa [Message.serialize] using written
  have sized : ¬ (message.length.toNat < HEADER_SIZE ∨ message.length > MAX_MESSAGE_SIZE) := by
    rw [gt_iff_lt, UInt32.lt_iff_toNat_lt]
    change ¬ (_ ∨ 65536 < _)
    omega
  have version : (byteAt message.serialize 0 : Checked ParseError UInt8) = .ok PROTOCOL_VERSION := rfl
  have typeVal : (byteAt message.serialize 1 : Checked ParseError UInt8) = .ok message.messageType.toU8 := rfl
  rw [fromBytes, length_serialize, version, typeVal, session, field]
  simp only [ok_bind]
  rw [if_neg sized, whole, MessageType.fromU8_toU8]
  simp [ofOption, bytes, body]

end

end Bgpgg.Rpki.Rtr
