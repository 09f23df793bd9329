import Bgpgg.Lib.Tlv
import Bgpgg.Peer.OpenMessage

namespace Bgpgg.Peer

open Wire Lib List OptionalParam

def capabilitiesIn (item : UInt8 × List UInt8) : List (UInt8 × List UInt8) := if item.1 = 2 then tlvs item.2 else []

def capabilityItems (bytes : List UInt8) : List (UInt8 × List UInt8) := (tlvs bytes).flatMap capabilitiesIn

-- The codes that as_u8 gives back, zero being what it gives for every other one.
def KNOWN_CODES : List UInt8 := [0, 1, 2, 64, 65, 69, 70, 71]

-- The AS number of the first capability 65 with a value of four bytes.
def announcedAsn (bytes : List UInt8) : Option UInt32 :=
  (capabilityItems bytes).findSome? fun item => if item.1 = 65 ∧ item.2.length = 4 then some (u32FromBytes item.2) else none

structure Reencodes (bytes : List UInt8) : Prop where
  size : bytes.length ≤ 265
  codes : ∀ item ∈ capabilityItems (bytes.drop 10), item.1 ∈ KNOWN_CODES
  asn : u16FromBytes ((bytes.drop 1).take 2) = AS_TRANS.toUInt16 →
    ∀ asn, announcedAsn (bytes.drop 10) = some asn → asn > MAX_2BYTE_ASN ∨ asn = AS_TRANS

def capabilityOf (item : UInt8 × List UInt8) : Capability := ⟨.fromU8 item.1, byteLen item.2, item.2⟩

structure ReadFrom (item : UInt8 × List UInt8) (param : OptionalParam) : Prop where
  paramType : param.paramType = .fromU8 item.1
  paramLen : param.paramLen = byteLen item.2
  value : parseParamValue (.fromU8 item.1) item.2 = .ok param.paramValue

section

variable {bytes : List UInt8} {caps : List Capability} {params : List OptionalParam} {items : List (UInt8 × List UInt8)}

theorem asU8_fromU8_iff (code : UInt8) : (BgpCapabilityCode.fromU8 code).asU8 = code ↔ code ∈ KNOWN_CODES := by
  unfold BgpCapabilityCode.fromU8 KNOWN_CODES
  split_ifs <;> simp_all [BgpCapabilityCode.asU8, eq_comm]

theorem optParamType_asU8_fromU8 (value : UInt8) : (OptParamType.fromU8 value).asU8 = value := by
  unfold OptParamType.fromU8
  split
  · rename_i two
    exact two.symm
  · rfl

theorem parseOpenTlv_reads {Item : Type} (make : UInt8 → UInt8 → List UInt8 → Checked OpenError Item) :
    ReadsTlv (parseOpenTlv make) fun items item next => ∃ made, make item.1 (byteLen item.2) item.2 = .ok made ∧ next = items ++ [made] := by
  intro items bytes next rest read
  obtain ⟨kind, len, tail, made, rfl, within, taken, rfl, rfl⟩ := parseOpenTlv_ok make read
  have same : byteLen (tail.take len.toNat) = len := lenByte_take within
  refine ⟨(kind, tail.take len.toNat), short_take _ _ _, ?_, made, ?_, rfl⟩
  · rw [writeTlv, lenByte_take within, cons_append, cons_append, take_append_drop]
  · rw [same]
    exact taken

theorem parseCapabilityTlvs_items (read : parseCapabilityTlvs bytes = .ok caps) :
    (∀ item ∈ tlvs bytes, Short item) ∧ bytes = (tlvs bytes).flatMap writeTlv ∧ caps = (tlvs bytes).map capabilityOf := by
  obtain ⟨items, short, written, made⟩ := scan_tlvs (parseOpenTlv_advances _ bytes.length) (parseOpenTlv_reads _)
    (fun caps items final => final = caps ++ items.map capabilityOf) (fun caps => (append_nil _).symm)
    (fun caps item next items final one later => by
      obtain ⟨made, same, grown⟩ := one
      cases same
      rw [later, grown, append_assoc]
      rfl)
    (Nat.le_refl _) read
  have same : tlvs bytes = items := by rw [written, tlvs_write short]
  rw [same]
  exact ⟨short, written, made⟩

theorem readOptionalParameters_items (read : readOptionalParameters bytes = .ok params) :
    bytes = (tlvs bytes).flatMap writeTlv ∧ List.Forall₂ ReadFrom (tlvs bytes) params := by
  obtain ⟨items, short, written, added, same, made⟩ := scan_tlvs (parseOpenTlv_advances _ bytes.length) (parseOpenTlv_reads _)
    (fun params items final => ∃ added, final = params ++ added ∧ List.Forall₂ ReadFrom items added)
    (fun params => ⟨[], (append_nil _).symm, .nil⟩)
    (fun params item next items final one later => by
      obtain ⟨param, taken, grown⟩ := one
      obtain ⟨value, parsed, built⟩ := Checked.of_bind taken
      cases built
      obtain ⟨added, same, made⟩ := later
      exact ⟨_ :: added, by rw [same, grown, append_assoc]; rfl, .cons ⟨rfl, rfl, parsed⟩ made⟩)
    (Nat.le_refl _) read
  have found : tlvs bytes = items := by rw [written, tlvs_write short]
  rw [found]
  exact ⟨written, same ▸ made⟩

theorem ReadFrom.write {item : UInt8 × List UInt8} {param : OptionalParam} (read : ReadFrom item param) :
    param.toBytes.length = (writeTlv item).length ∧ param.capabilities = (capabilitiesIn item).map capabilityOf ∧
      (param.toBytes = writeTlv item ↔ ∀ inner ∈ capabilitiesIn item, inner.1 ∈ KNOWN_CODES) := by
  obtain ⟨paramType, paramLen, paramValue⟩ := param
  obtain ⟨rfl, rfl, value⟩ := read
  have front : OptionalParam.toBytes ⟨.fromU8 item.1, byteLen item.2, paramValue⟩ = item.1 :: byteLen item.2 :: paramValue.toBytes := by
    rw [OptionalParam.toBytes, optParamType_asU8_fromU8]
  rw [front]
  unfold capabilitiesIn
  by_cases two : item.1 = 2
  · rw [if_pos two]
    rw [two] at value
    obtain ⟨caps, parsed, same⟩ := Checked.of_bind value
    cases same
    obtain ⟨-, written, made⟩ := parseCapabilityTlvs_items parsed
    have room : ∀ inner ∈ tlvs item.2, ((capabilityOf inner).toBytes).length = (writeTlv inner).length := fun _ _ => rfl
    have again : (OptParamVal.capabilities caps).toBytes = (tlvs item.2).flatMap fun inner => (capabilityOf inner).toBytes := by
      rw [OptParamVal.toBytes, made, flatMap_map]
    have each : ∀ inner ∈ tlvs item.2, (capabilityOf inner).toBytes = writeTlv inner ↔ inner.1 ∈ KNOWN_CODES := by
      intro inner _
      rw [← asU8_fromU8_iff, writeTlv, Capability.toBytes, capabilityOf]
      simp only [cons.injEq, and_iff_left_iff_imp]
      exact fun _ => ⟨rfl, trivial⟩
    refine ⟨?_, made, ?_⟩
    · rw [again, writeTlv]
      have same : ((tlvs item.2).flatMap fun inner => (capabilityOf inner).toBytes).length = item.2.length := by
        conv_rhs => rw [written]
        rw [length_flatMap, length_flatMap]
        exact congrArg sum (map_congr_left room)
      simp [same]
    · rw [again, writeTlv]
      simp only [cons.injEq, true_and]
      have split : ((tlvs item.2).flatMap fun inner => (capabilityOf inner).toBytes) = item.2 ↔
          ((tlvs item.2).flatMap fun inner => (capabilityOf inner).toBytes) = (tlvs item.2).flatMap writeTlv := by
        rw [← written]
      have lens : byteLen item.2 = lenByte item.2 := rfl
      rw [split, flatMap_eq_iff room]
      exact ⟨fun same inner member => (each inner member).mp (same.2 inner member),
        fun known => ⟨lens, fun inner member => (each inner member).mpr (known inner member)⟩⟩
  · rw [if_neg two]
    have other : OptParamType.fromU8 item.1 = .unknown item.1 := by rw [OptParamType.fromU8, if_neg two]
    rw [other] at value
    cases value
    exact ⟨rfl, rfl, fun _ _ member => absurd member not_mem_nil, fun _ => rfl⟩

theorem params_write (read : List.Forall₂ ReadFrom items params) :
    (params.flatMap OptionalParam.toBytes).length = (items.flatMap writeTlv).length ∧
    params.flatMap capabilities = (items.flatMap capabilitiesIn).map capabilityOf ∧
    (params.flatMap OptionalParam.toBytes = items.flatMap writeTlv ↔ ∀ item ∈ items.flatMap capabilitiesIn, item.1 ∈ KNOWN_CODES) := by
  induction read with
  | nil => exact ⟨rfl, rfl, fun _ _ member => absurd member not_mem_nil, fun _ => rfl⟩
  | cons one rest ih =>
    obtain ⟨room, caps, same⟩ := one.write
    obtain ⟨restRoom, restCaps, restSame⟩ := ih
    simp only [flatMap_cons, length_append, map_append, forall_mem_append]
    refine ⟨by rw [room, restRoom], by rw [caps, restCaps], ?_⟩
    rw [← same, ← restSame]
    constructor
    · exact fun whole => append_inj whole room
    · exact fun both => by rw [both.1, both.2]

end

namespace OpenMessage

variable {message : OpenMessage} {bytes : List UInt8}

variable {params : List OptionalParam}

theorem readParams_write {rest : List UInt8} (read : readParams (byteLen rest) rest = .ok params) :
    (params.flatMap OptionalParam.toBytes = rest ↔ rest.length < 256 ∧ ∀ item ∈ capabilityItems rest, item.1 ∈ KNOWN_CODES) ∧
      (rest.length < 256 → findFourOctetAsn params = announcedAsn rest) := by
  have len : (byteLen rest).toNat = rest.length % 256 := by rw [byteLen, UInt8.toNat_ofNat']
  obtain ⟨zero, rfl⟩ | ⟨-, read⟩ := readParams_ok read
  · rw [zero] at len
    constructor
    · constructor
      · intro empty
        rw [← empty]
        exact ⟨by decide, fun _ member => absurd member not_mem_nil⟩
      · intro fits
        rw [Nat.mod_eq_of_lt fits.1] at len
        exact (length_eq_zero_iff.mp len.symm).symm
    · intro fits
      rw [Nat.mod_eq_of_lt fits] at len
      rw [length_eq_zero_iff.mp len.symm]
      rfl
  · obtain ⟨written, items⟩ := readOptionalParameters_items read
    obtain ⟨room, caps, same⟩ := params_write items
    by_cases fits : rest.length < 256
    · rw [len, Nat.mod_eq_of_lt fits, take_length] at written room caps same
      rw [← written] at same
      refine ⟨by rw [same]; exact (and_iff_right fits).symm, fun _ => ?_⟩
      rw [findFourOctetAsn, caps, findSome?_map, announcedAsn]
      congr 1
      funext item
      have code : BgpCapabilityCode.fromU8 item.1 = .fourOctetAsn ↔ item.1 = 65 := by
        constructor
        · intro named
          unfold BgpCapabilityCode.fromU8 at named
          split_ifs at named
          assumption
        · intro named
          rw [named]
          rfl
      simp only [Function.comp_apply, Capability.asFourOctetAsn, capabilityOf, code]
    · refine ⟨⟨fun whole => absurd ?_ fits, fun both => absurd both.1 fits⟩, fun within => absurd within fits⟩
      rw [← written, whole, length_take] at room
      omega

theorem realAsn_write {asn2byte : UInt16} {asn : UInt32} (read : realAsn asn2byte params = .ok asn) :
    (if asn > MAX_2BYTE_ASN then AS_TRANS.toUInt16 else asn.toUInt16) = asn2byte ↔
      (asn2byte = AS_TRANS.toUInt16 → ∀ found, findFourOctetAsn params = some found → found > MAX_2BYTE_ASN ∨ found = AS_TRANS) := by
  unfold realAsn at read
  split at read
  · rename_i trans
    cases found : findFourOctetAsn params with
    | none =>
      rw [found] at read
      cases read
    | some other =>
      rw [found] at read
      cases read
      simp only [trans, Option.some.injEq, forall_eq', forall_const]
      by_cases large : asn > MAX_2BYTE_ASN
      · simp [large]
      · simp only [large, if_false, false_or]
        constructor
        · intro same
          apply UInt32.toNat_inj.mp
          have low : asn.toNat < 65536 := by
            have bound : asn.toNat ≤ 65535 := UInt32.le_iff_toNat_le.mp (UInt32.not_lt.mp large)
            omega
          have value := congrArg UInt16.toNat same
          rw [UInt32.toNat_toUInt16, Nat.mod_eq_of_lt low] at value
          exact value
        · intro same
          rw [same]
  · rename_i other
    cases read
    have low : asn2byte.toUInt32.toNat ≤ 65535 := by
      rw [UInt16.toNat_toUInt32]
      have bound : asn2byte.toNat < 65536 := asn2byte.toNat_lt
      omega
    have small : ¬ asn2byte.toUInt32 > MAX_2BYTE_ASN := UInt32.not_lt.mpr (UInt32.le_iff_toNat_le.mpr low)
    rw [if_neg small, UInt16.toUInt16_toUInt32]
    exact ⟨fun _ trans => absurd trans other, fun _ => rfl⟩

theorem u16Bytes_eq_iff (value : UInt16) (first second : UInt8) :
    u16Bytes value = [first, second] ↔ value = u16FromBytes [first, second] := by
  constructor
  · intro same
    rw [← same, u16FromBytes_u16Bytes]
  · intro same
    rw [same, u16Bytes_u16FromBytes _ rfl]

theorem toBytes_eq_iff_reencodes (read : fromBytes bytes = .ok message) : message.toBytes = bytes ↔ Reencodes bytes := by
  unfold fromBytes at read
  split at read
  · rename_i version asn1 asn2 hold1 hold2 id1 id2 id3 id4 optionalParamsLen rest
    split at read
    · cases read
    · rename_i sameLen
      rw [not_not] at sameLen
      obtain ⟨-, -, read⟩ := Checked.of_bind read
      obtain ⟨-, -, read⟩ := Checked.of_bind read
      obtain ⟨-, -, read⟩ := Checked.of_bind read
      obtain ⟨params, parsed, read⟩ := Checked.of_bind read
      obtain ⟨asn, real, same⟩ := Checked.of_bind read
      cases same
      rw [sameLen] at parsed
      obtain ⟨paramsBack, announced⟩ := readParams_write parsed
      have asnBack := realAsn_write real
      have written : toBytes ⟨version, asn, u16FromBytes [hold1, hold2], u32FromBytes [id1, id2, id3, id4], optionalParamsLen, params⟩ =
          version :: (u16Bytes (if asn > MAX_2BYTE_ASN then AS_TRANS.toUInt16 else asn.toUInt16) ++
            hold1 :: hold2 :: id1 :: id2 :: id3 :: id4 :: optionalParamsLen :: params.flatMap OptionalParam.toBytes) := by
        rw [toBytes, u16Bytes_u16FromBytes [hold1, hold2] rfl, u32Bytes_u32FromBytes [id1, id2, id3, id4] rfl]
        simp
      have split : toBytes ⟨version, asn, u16FromBytes [hold1, hold2], u32FromBytes [id1, id2, id3, id4], optionalParamsLen, params⟩ =
            version :: asn1 :: asn2 :: hold1 :: hold2 :: id1 :: id2 :: id3 :: id4 :: optionalParamsLen :: rest ↔
          (if asn > MAX_2BYTE_ASN then AS_TRANS.toUInt16 else asn.toUInt16) = u16FromBytes [asn1, asn2] ∧
            params.flatMap OptionalParam.toBytes = rest := by
        rw [written, ← u16Bytes_eq_iff]
        generalize (if asn > MAX_2BYTE_ASN then AS_TRANS.toUInt16 else asn.toUInt16) = value
        constructor
        · intro whole
          have tail : u16Bytes value ++ hold1 :: hold2 :: id1 :: id2 :: id3 :: id4 :: optionalParamsLen ::
              params.flatMap OptionalParam.toBytes =
              [asn1, asn2] ++ hold1 :: hold2 :: id1 :: id2 :: id3 :: id4 :: optionalParamsLen :: rest := (cons.inj whole).2
          obtain ⟨front, back⟩ := append_inj tail (length_u16Bytes value)
          simp only [cons.injEq, true_and] at back
          exact ⟨front, back⟩
        · intro both
          rw [both.1, both.2]
          rfl
      rw [split, asnBack, paramsBack]
      constructor
      · intro back
        refine ⟨?_, back.2.2, ?_⟩
        · simp only [length_cons]
          omega
        · intro trans found announcedHere
          exact back.1 trans found ((announced back.2.1).trans announcedHere)
      · intro back
        have fits : rest.length < 256 := by
          have size := back.size
          simp only [length_cons] at size
          omega
        refine ⟨?_, fits, back.codes⟩
        intro trans found foundHere
        exact back.asn trans found ((announced fits).symm.trans foundHere)
  · cases read

section

theorem parseOpenTlv_returns {Item : Type} {make : UInt8 → UInt8 → List UInt8 → Checked OpenError Item}
    (safe : ∀ kind len value, ¬ (make kind len value).Faults) (bytes : List UInt8) : ¬ (scan (parseOpenTlv make) [] bytes).Faults := by
  refine scan_returns (parseOpenTlv_advances make bytes.length) (fun items bytes _ => ?_) [] bytes (Nat.le_refl _)
  match bytes with
  | [] | [_] => exact id
  | kind :: len :: rest =>
    rw [parseOpenTlv_cons]
    split <;> simp [safe]

theorem fromBytes_returns : ¬ (fromBytes bytes).Faults := by
  have params : ∀ bytes, ¬ (readOptionalParameters bytes).Faults := parseOpenTlv_returns fun paramType len bytes => by
    have caps : ¬ (parseCapabilityTlvs bytes).Faults := parseOpenTlv_returns (fun _ _ _ => Checked.faults_ok _) bytes
    unfold parseParamValue
    split <;> simp [caps]
  unfold fromBytes
  split
  · rename_i version asn1 asn2 hold1 hold2 id1 id2 id3 id4 optionalParamsLen rest
    split
    · exact Checked.faults_err _
    · rename_i sameLen
      have inside : optionalParamsLen.toNat ≤ rest.length := by
        rw [not_not.mp sameLen, byteLen, UInt8.toNat_ofNat']
        exact Nat.mod_le _ _
      simp [apply_ite Checked.Faults, validateVersion, validateHoldTime, validateBgpIdentifier, readParams, realAsn, params, inside]
  · exact Checked.faults_err _

variable (bytes)

def Fills (bytes : List UInt8) : Prop := bytes = (tlvs bytes).flatMap writeTlv

structure FilledExactly : Prop where
  size : ∃ len, bytes[9]? = some len ∧ bytes.length = 10 + len.toNat
  params : Fills (bytes.drop 10)
  capabilities : ∀ param ∈ tlvs (bytes.drop 10), param.1 = 2 → Fills param.2

def ReadsSafely : Prop := ¬ (fromBytes bytes).Faults ∧ ∀ message, fromBytes bytes = .ok message → FilledExactly bytes

variable {bytes}

theorem fromBytes_filled (read : fromBytes bytes = .ok message) (short : bytes.length ≤ 265) : FilledExactly bytes := by
  unfold fromBytes at read
  split at read
  · rename_i version asn1 asn2 hold1 hold2 id1 id2 id3 id4 optionalParamsLen rest
    split at read
    · cases read
    · rename_i sameLen
      rw [not_not] at sameLen
      obtain ⟨-, -, read⟩ := Checked.of_bind read
      obtain ⟨-, -, read⟩ := Checked.of_bind read
      obtain ⟨-, -, read⟩ := Checked.of_bind read
      obtain ⟨params, parsed, -⟩ := Checked.of_bind read
      have size : rest.length = optionalParamsLen.toNat := by
        simp only [length_cons] at short
        rw [sameLen, byteLen, UInt8.toNat_ofNat', Nat.mod_eq_of_lt (by omega)]
      have counted : ∃ len, some optionalParamsLen = some len ∧ rest.length + 10 = 10 + len.toNat := ⟨_, rfl, by omega⟩
      obtain ⟨zero, rfl⟩ | ⟨-, parsed⟩ := readParams_ok parsed
      · rw [zero] at size
        cases length_eq_zero_iff.mp size
        exact ⟨counted, rfl, fun _ member => absurd member not_mem_nil⟩
      · rw [← size, take_length] at parsed
        obtain ⟨written, items⟩ := readOptionalParameters_items parsed
        refine ⟨counted, written, ((forall₂_and_left _ _).mp (items.imp fun param made read => ⟨fun two => ?_, read⟩)).1⟩
        have value := read.value
        rw [two] at value
        obtain ⟨caps, parsed, -⟩ := Checked.of_bind value
        exact (parseCapabilityTlvs_items parsed).2.1
  · cases read

theorem accepted_open_filled_iff (bytes : List UInt8) :
    ReadsSafely bytes ↔ ∀ message, fromBytes bytes = .ok message → bytes.length ≤ 265 := by
  constructor
  · intro safe message read
    obtain ⟨len, -, size⟩ := (safe.2 message read).size
    have below := len.toNat_lt
    omega
  · exact fun short => ⟨fromBytes_returns, fun message read => fromBytes_filled read (short message read)⟩

theorem long_open_accepted : ¬ ReadsSafely ([4, 0, 1, 0, 180, 1, 1, 1, 1, 0] ++ replicate 256 0) := by
  intro safe
  obtain ⟨len, field, size⟩ := (safe.2 ⟨4, 1, 180, 0x01010101, 0, []⟩ (by decide +kernel)).size
  rw [length_append, length_replicate] at size
  cases field
  cases size

end

end OpenMessage

end Bgpgg.Peer
