import Bgpgg.Wire.LsRoundTrip
import Bgpgg.Wire.PathCodec

namespace Bgpgg.Wire

open Net Lib Checked List

def mpDistinguisher (safi : Safi) : List UInt8 := if safi == .linkStateVpn then List.replicate RD_LEN 0 else []

def mpNextHopLen (safi : Safi) (nextHop : NextHopAddr) : Nat := (mpDistinguisher safi ++ nextHopOctets nextHop).length

def NextHopReads (family : AfiSafi) (nextHop : NextHopAddr) : Prop :=
  nextHopLenValid family.afi family.safi (mpNextHopLen family.safi nextHop) = true ∧
    (family.afi = .ipv4 → ∀ addr, nextHop = .ipv4 addr → isValidUnicastIpv4 addr = true)

section

variable (family : AfiSafi) {bytes : List UInt8} (before rest : List UInt8) (addr : Ipv6Addr)

theorem parseIpv4NextHop_at (addr : Ipv4Addr) :
    parseIpv4NextHop (before ++ Ipv4Addr.octets addr ++ rest) before.length = .ok (.ipv4 addr) := by
  rw [parseIpv4NextHop_eq _ _ (by simp), append_assoc, drop_left, take_left' (length_ipv4_octets addr), ipv4_fromOctets_octets]

theorem parseIpv6Addr_at : parseIpv6Addr (before ++ Ipv6Addr.octets addr ++ rest) before.length = .ok addr := by
  rw [parseIpv6Addr_eq _ _ (by simp), append_assoc, drop_left, take_left' (length_ipv6_octets addr), ipv6_fromOctets_octets]

theorem parseIpv6NextHop_at : parseIpv6NextHop (before ++ Ipv6Addr.octets addr ++ rest) before.length 16 = .ok (.ipv6 addr) := by
  rw [parseIpv6NextHop, parseIpv6Addr_at, ok_bind, if_neg (by decide)]

theorem parseIpv6LinkLocal_at (global linkLocal : Ipv6Addr) :
    parseIpv6NextHop (before ++ (Ipv6Addr.octets global ++ Ipv6Addr.octets linkLocal) ++ rest) before.length 32 =
      .ok (.ipv6WithLinkLocal global linkLocal) := by
  have first := parseIpv6Addr_at before (Ipv6Addr.octets linkLocal ++ rest) global
  have second := parseIpv6Addr_at (before ++ Ipv6Addr.octets global) rest linkLocal
  rw [length_append, length_ipv6_octets] at second
  have shape : before ++ (Ipv6Addr.octets global ++ Ipv6Addr.octets linkLocal) ++ rest =
      before ++ Ipv6Addr.octets global ++ (Ipv6Addr.octets linkLocal ++ rest) := by simp
  have shapeSecond : before ++ (Ipv6Addr.octets global ++ Ipv6Addr.octets linkLocal) ++ rest =
      before ++ Ipv6Addr.octets global ++ Ipv6Addr.octets linkLocal ++ rest := by simp
  rw [← shape] at first
  rw [← shapeSecond] at second
  rw [parseIpv6NextHop, first, ok_bind, if_pos rfl, second, ok_bind]

theorem parseMpNextHop_write (nextHop : NextHopAddr) (reads : NextHopReads family nextHop)
    (header rest : List UInt8) (four : header.length = MP_HEADER_SIZE) :
    parseMpNextHop (header ++ (mpDistinguisher family.safi ++ nextHopOctets nextHop) ++ rest) MP_HEADER_SIZE family.afi
      (mpNextHopLen family.safi nextHop) = .ok nextHop := by
  obtain ⟨afi, safi⟩ := family
  obtain ⟨sized, unicast⟩ := reads
  rw [← four]
  -- Each family admits one or two of the three forms; the length tells which.
  cases afi with
  | ipv4 =>
    cases nextHop with
    | ipv4 addr =>
      have plain : mpDistinguisher safi = [] := by cases safi <;> first | rfl | cases sized
      have valid := unicast rfl addr rfl
      have read := parseIpv4NextHop_at header rest addr
      obtain ⟨found, parsed, same⟩ := of_bind read
      cases same
      simp only [parseMpNextHop, plain, nil_append, nextHopOctets, parsed, ok_bind, valid, Bool.not_true, Bool.false_eq_true, if_false]
    | ipv6 addr => cases safi <;> simp [nextHopLenValid, mpNextHopLen, nextHopOctets] at sized
    | ipv6WithLinkLocal global linkLocal =>
      cases safi <;> simp [nextHopLenValid, mpNextHopLen, nextHopOctets] at sized
  | ipv6 =>
    have plain : mpDistinguisher safi = [] := by
      cases safi <;> first | rfl | simp [nextHopLenValid] at sized
    cases nextHop with
    | ipv4 addr => cases safi <;> simp [nextHopLenValid, mpNextHopLen, mpDistinguisher, nextHopOctets] at sized
    | ipv6 addr =>
      simp only [mpNextHopLen, plain, nextHopOctets]
      exact parseIpv6NextHop_at header rest addr
    | ipv6WithLinkLocal global linkLocal =>
      simp only [mpNextHopLen, plain, length_append]
      exact parseIpv6LinkLocal_at header rest global linkLocal
  | linkState =>
    cases safi with
    | unicast | multicast => simp [nextHopLenValid] at sized
    | mplsLabel => simp [nextHopLenValid] at sized
    | linkState =>
      cases nextHop with
      | ipv4 addr => exact parseIpv4NextHop_at header rest addr
      | ipv6 addr => exact parseIpv6NextHop_at header rest addr
      | ipv6WithLinkLocal global linkLocal => exact parseIpv6LinkLocal_at header rest global linkLocal
    | linkStateVpn =>
      cases nextHop with
      | ipv4 addr =>
        have read := parseIpv4NextHop_at (header ++ replicate RD_LEN 0) rest addr
        simpa [parseMpNextHop, mpNextHopLen, mpDistinguisher, nextHopOctets, RD_LEN] using read
      | ipv6 addr =>
        have read := parseIpv6NextHop_at (header ++ replicate RD_LEN 0) rest addr
        simpa [parseMpNextHop, mpNextHopLen, mpDistinguisher, nextHopOctets, RD_LEN] using read
      | ipv6WithLinkLocal global linkLocal =>
        simp [nextHopLenValid, mpNextHopLen, nextHopOctets, RD_LEN] at sized

theorem parseIpv4NextHop_form {offset : Nat} {nextHop : NextHopAddr}
    (parsed : parseIpv4NextHop bytes offset = .ok nextHop) : ∃ addr, nextHop = .ipv4 addr := by
  obtain ⟨addr, -, same⟩ := of_bind parsed
  cases same
  exact ⟨addr, rfl⟩

theorem parseIpv6NextHop_form {offset len : Nat} {nextHop : NextHopAddr} (parsed : parseIpv6NextHop bytes offset len = .ok nextHop) :
    (len = 32 → ∃ global linkLocal, nextHop = .ipv6WithLinkLocal global linkLocal) ∧ (len ≠ 32 → ∃ addr, nextHop = .ipv6 addr) := by
  obtain ⟨global, -, more⟩ := of_bind parsed
  split at more
  · rename_i both
    obtain ⟨linkLocal, -, same⟩ := of_bind more
    cases same
    exact ⟨fun _ => ⟨global, linkLocal, rfl⟩, fun other => absurd both other⟩
  · rename_i one
    cases more
    exact ⟨fun both => absurd both one, fun _ => ⟨global, rfl⟩⟩

attribute [local simp] nextHopLenValid mpNextHopLen mpDistinguisher nextHopOctets

theorem parseMpNextHop_reads {offset nextHopLen : Nat} {nextHop : NextHopAddr}
    (sized : nextHopLenValid family.afi family.safi nextHopLen = true)
    (parsed : parseMpNextHop bytes offset family.afi nextHopLen = .ok nextHop) : NextHopReads family nextHop := by
  obtain ⟨afi, safi⟩ := family
  cases afi with
  | ipv4 =>
    obtain ⟨addr, -, more⟩ := of_bind parsed
    split at more
    · cases more
    · rename_i valid
      cases more
      refine ⟨?_, ?_⟩
      · cases safi <;> simp_all
      · intro _ other same
        cases same
        simpa using valid
  | ipv6 =>
    refine ⟨?_, by intro wrong; cases wrong⟩
    obtain ⟨both, one⟩ := parseIpv6NextHop_form parsed
    by_cases long : nextHopLen = 32
    · obtain ⟨global, linkLocal, rfl⟩ := both long
      cases safi <;> simp_all
    · obtain ⟨addr, rfl⟩ := one long
      cases safi <;> simp_all
  | linkState =>
    refine ⟨?_, by intro wrong; cases wrong⟩
    simp only [parseMpNextHop] at parsed
    split at parsed
    · obtain ⟨addr, rfl⟩ := parseIpv4NextHop_form parsed
      cases safi <;> simp_all
    · split at parsed
      · obtain ⟨addr, rfl⟩ := parseIpv4NextHop_form parsed
        cases safi <;> simp_all
      · split at parsed
        · obtain ⟨both, one⟩ := parseIpv6NextHop_form parsed
          by_cases long : nextHopLen = 32
          · obtain ⟨global, linkLocal, rfl⟩ := both long
            cases safi <;> simp_all [RD_LEN]
          · obtain ⟨addr, rfl⟩ := one long
            cases safi <;> simp_all
        · split at parsed
          · obtain ⟨addr, rfl⟩ := (parseIpv6NextHop_form parsed).2 (by decide)
            cases safi <;> simp_all
          · cases parsed

end

section

variable (order : HashOrder UInt16) (format : MessageFormat)

def ListsReadable (family : AfiSafi) (nlri : List Nlri) (lsNlri : List LsNlri) : Prop := match family.afi with
  | .ipv4 => lsNlri = [] ∧ ∀ entry ∈ nlri, Rewritable ipv4Family (format.addPath.contains family) entry
  | .ipv6 => lsNlri = [] ∧ ∀ entry ∈ nlri, Rewritable ipv6Family (format.addPath.contains family) entry
  | .linkState => nlri = [] ∧ ∀ entry ∈ lsNlri, LsRewritable order family.safi entry

def Readable : PathAttrValue → Prop
  | .origin _ => True
  | .asPath path => ∀ segment ∈ path.segments, SegmentRewritable format.use4byteAsn segment
  | .nextHop nextHop => ∃ addr, nextHop = .ipv4 addr ∧ isValidUnicastIpv4 addr = true
  | .multiExtiDisc _ => True
  | .localPref _ => format.isEbgp = false
  | .atomicAggregate => True
  | .aggregator aggregator => AsnFits format.use4byteAsn aggregator.asn
  | .communities communities => communities ≠ []
  | .originatorId _ => format.isEbgp = false
  | .clusterList clusters => format.isEbgp = false ∧ clusters ≠ []
  | .mpReachNlri mp => NextHopReads ⟨mp.afi, mp.safi⟩ mp.nextHop ∧ ListsReadable order format ⟨mp.afi, mp.safi⟩ mp.nlri mp.lsNlri
  | .mpUnreachNlri mp => ListsReadable order format ⟨mp.afi, mp.safi⟩ mp.withdrawnRoutes mp.lsWithdrawn
  | .extendedCommunities communities => communities ≠ []
  | .as4Path path => path.segments ≠ [] ∧
      ∀ segment ∈ path.segments, SegmentRewritable true segment ∧ isConfedSegment segment.segmentType = false
  | .as4Aggregator _ => True
  | .largeCommunities communities => communities ≠ []
  | .lsAttr attr => parseLsAttr attr.raw = .ok attr
  | .unknown .. => False

end

section

variable {order : HashOrder UInt16} {format : MessageFormat}

theorem parseMpNlri_write {family : AfiSafi} {nlri : List Nlri} {lsNlri : List LsNlri}
    (readable : ListsReadable order format family nlri lsNlri) :
    parseMpNlri order family.afi family.safi (writeMpNlri family.afi nlri lsNlri) (format.addPath.contains family) =
      .ok (nlri, lsNlri) := by
  obtain ⟨afi, safi⟩ := family
  cases afi with
  | ipv4 =>
    obtain ⟨rfl, rewritable⟩ := readable
    have read := parseNlris_rewritable rewritable
    simp [parseMpNlri, writeMpNlri, parseNlriList, read]
  | ipv6 =>
    obtain ⟨rfl, rewritable⟩ := readable
    have read := parseNlris_rewritable rewritable
    simp [parseMpNlri, writeMpNlri, parseNlriV6List, read]
  | linkState =>
    obtain ⟨rfl, rewritable⟩ := readable
    simp [parseMpNlri, writeMpNlri, parseLsNlriList_rewritable rewritable]

theorem parseMpNlri_readable {family : AfiSafi} {field : List UInt8} {lists : List Nlri × List LsNlri}
    (parsed : parseMpNlri order family.afi family.safi field (format.addPath.contains family) = .ok lists) :
    ListsReadable order format family lists.1 lists.2 := by
  obtain ⟨afi, safi⟩ := family
  cases afi with
  | ipv4 =>
    obtain ⟨nlri, read, same⟩ := of_bind parsed
    cases same
    exact ⟨rfl, parseNlris_rewritable_v4 _ field nlri read⟩
  | ipv6 =>
    obtain ⟨nlri, read, same⟩ := of_bind parsed
    cases same
    exact ⟨rfl, parseNlris_rewritable_v6 _ field nlri read⟩
  | linkState =>
    obtain ⟨lsNlri, read, same⟩ := of_bind parsed
    cases same
    exact ⟨rfl, parseLsNlriList_decoded field lsNlri read⟩

theorem mpFamily_write (afi : Afi) (safi : Safi) (rest : List UInt8) :
    mpFamily (u16Bytes afi.toU16 ++ [safi.toU8] ++ rest) = some ⟨afi, safi⟩ := by
  cases afi <;> cases safi <;> rfl

theorem mpUnreachField_write (mp : MpUnreachNlri) : mpUnreachField (writeAttrMpUnreachNlri mp) =
    some (⟨mp.afi, mp.safi⟩, writeMpNlri mp.afi mp.withdrawnRoutes mp.lsWithdrawn) := by
  rw [mpUnreachField, writeAttrMpUnreachNlri, mpFamily_write, Option.map_some, drop_left' (by simp)]

theorem parseAttrValue_mpUnreach {mp : MpUnreachNlri}
    (readable : ListsReadable order format ⟨mp.afi, mp.safi⟩ mp.withdrawnRoutes mp.lsWithdrawn) :
    parseAttrValue order .mpUnreachNlri (writeAttrMpUnreachNlri mp) format = .ok (.mpUnreachNlri mp) := by
  have lists := parseMpNlri_write readable
  simp [parseMpUnreach_some format (mpUnreachField_write mp), lists]

theorem mpNextHopLen_lt (safi : Safi) (nextHop : NextHopAddr) : mpNextHopLen safi nextHop < 256 := by
  cases safi <;> cases nextHop <;> simp [mpNextHopLen, mpDistinguisher, nextHopOctets, RD_LEN]

theorem writeAttrMpReachNlri_eq (mp : MpReachNlri) : writeAttrMpReachNlri mp =
    (u16Bytes mp.afi.toU16 ++ [mp.safi.toU8] ++ [UInt8.ofNat (mpNextHopLen mp.safi mp.nextHop)]) ++
      (mpDistinguisher mp.safi ++ nextHopOctets mp.nextHop) ++ ([0] ++ writeMpNlri mp.afi mp.nlri mp.lsNlri) := by
  simp [writeAttrMpReachNlri, writeMpNextHop, mpNextHopLen, mpDistinguisher]

theorem parseAttrValue_mpReach {mp : MpReachNlri} (hop : NextHopReads ⟨mp.afi, mp.safi⟩ mp.nextHop)
    (readable : ListsReadable order format ⟨mp.afi, mp.safi⟩ mp.nlri mp.lsNlri) :
    parseAttrValue order .mpReachNlri (writeAttrMpReachNlri mp) format = .ok (.mpReachNlri mp) := by
  have lists := parseMpNlri_write readable
  have afi := parseMpNlri_afi lists
  have small := mpNextHopLen_lt mp.safi mp.nextHop
  have lenByte : (UInt8.ofNat (mpNextHopLen mp.safi mp.nextHop)).toNat = mpNextHopLen mp.safi mp.nextHop := UInt8.toNat_ofNat_of_lt' small
  have whole : (writeAttrMpReachNlri mp).length =
      MP_HEADER_SIZE + mpNextHopLen mp.safi mp.nextHop + MP_RESERVED_SIZE + (writeMpNlri mp.afi mp.nlri mp.lsNlri).length := by
    rw [writeAttrMpReachNlri_eq]
    simp only [length_append, length_u16Bytes, length_cons, length_nil, MP_HEADER_SIZE, MP_RESERVED_SIZE, mpNextHopLen]
    omega
  have read : parseMpNextHop (writeAttrMpReachNlri mp) MP_HEADER_SIZE mp.afi (mpNextHopLen mp.safi mp.nextHop) = .ok mp.nextHop := by
    rw [writeAttrMpReachNlri_eq]
    exact parseMpNextHop_write ⟨mp.afi, mp.safi⟩ mp.nextHop hop _ _ (by simp [MP_HEADER_SIZE])
  have family : mpFamily (writeAttrMpReachNlri mp) = some ⟨mp.afi, mp.safi⟩ := by
    exact mpFamily_write mp.afi mp.safi _
  have fourth : (writeAttrMpReachNlri mp)[3]? = some (UInt8.ofNat (mpNextHopLen mp.safi mp.nextHop)) := by
    rfl
  have field : (writeAttrMpReachNlri mp).drop (MP_HEADER_SIZE + mpNextHopLen mp.safi mp.nextHop + MP_RESERVED_SIZE) =
      writeMpNlri mp.afi mp.nlri mp.lsNlri := by
    rw [writeAttrMpReachNlri_eq, ← append_assoc _ [0]]
    exact drop_left' (by
      simp only [length_append, length_u16Bytes, length_cons, length_nil, MP_HEADER_SIZE, MP_RESERVED_SIZE, mpNextHopLen])
  have long : ¬ (writeAttrMpReachNlri mp).length < MP_HEADER_SIZE + MP_RESERVED_SIZE := by omega
  have room : ¬ (writeAttrMpReachNlri mp).length < MP_HEADER_SIZE + mpNextHopLen mp.safi mp.nextHop + MP_RESERVED_SIZE := by omega
  have three : 3 ≤ (writeAttrMpReachNlri mp).length := by
    rw [MP_HEADER_SIZE] at whole
    omega
  have value : readAttrMpReachNlri order (writeAttrMpReachNlri mp) format = .ok mp := by
    rw [readAttrMpReachNlri, if_neg long, readFamily_eq three fun afi safi => _, family]
    simp only [byteAt, fourth, ok_bind, lenByte, validateMpReachBuffer, hop.1, if_neg room, read]
    rw [slice_eq_ok _ _ _ ⟨Nat.not_lt.mp room, Nat.le_refl _⟩, take_of_length_le (by rw [length_drop]), field]
    simp [lists]
  simp [parseAttrValue, value, afi]

end

section

variable {order : HashOrder UInt16} {format : MessageFormat}

variable (attrType : AttrType) (data : List UInt8) (use4byteAsn : Bool) (path : AsPath) {value : PathAttrValue}

theorem readU32_write (value : UInt32) : readU32 (u32Bytes value) = .ok value := by
  rw [readU32, if_pos (length_u32Bytes value), bytesAt_eq_ok _ 0 4 (by simp), drop_zero,
    take_of_length_le (by simp), ok_bind, u32FromBytes_u32Bytes]

theorem readAttrAggregator_write (aggregator : Aggregator) (use4byteAsn : Bool) (fits : AsnFits use4byteAsn aggregator.asn) :
    readAttrAggregator (writeAggregator aggregator use4byteAsn) = .ok aggregator := by
  have total : (writeAggregator aggregator use4byteAsn).length = asnSize use4byteAsn + 4 := by
    rw [writeAggregator, length_append, length_encodeAsn, length_ipv4_octets]
  have asn : (writeAggregator aggregator use4byteAsn).take (asnSize use4byteAsn) = encodeAsn aggregator.asn use4byteAsn :=
    take_left' (length_encodeAsn _ _)
  have addr : ((writeAggregator aggregator use4byteAsn).drop (asnSize use4byteAsn)).take 4 = Ipv4Addr.octets aggregator.ipAddr := by
    rw [writeAggregator, drop_left' (length_encodeAsn _ _), take_of_length_le (by simp)]
  have read := u32FromBytes_encodeAsn fits
  rw [readAttrAggregator]
  cases use4byteAsn with
  | true =>
    simp only [asnSize, if_true] at total asn addr
    rw [if_pos total, bytesAt_eq_ok _ 0 4 (by omega), bytesAt_eq_ok _ 4 4 (by omega)]
    simp [asn, addr, read]
  | false =>
    simp only [asnSize, Bool.false_eq_true, if_false] at total asn addr
    rw [if_neg (by omega), bytesAt_eq_ok _ 0 2 (by omega), bytesAt_eq_ok _ 2 4 (by omega)]
    simp [asn, addr, read]

theorem readAttrAggregator_fits (bytes : List UInt8) (use4byteAsn : Bool) (sized : bytes.length = asnSize use4byteAsn + 4)
    (aggregator : Aggregator) (read : readAttrAggregator bytes = .ok aggregator) : AsnFits use4byteAsn aggregator.asn := by
  intro narrow
  subst narrow
  have six : bytes.length = 6 := sized
  rw [readAttrAggregator, if_neg (by omega), bytesAt_eq_ok _ 0 2 (by omega), bytesAt_eq_ok _ 2 4 (by omega)] at read
  cases read
  exact asnFits_u32FromBytes false _ (length_take_of_le (by simp [six])) rfl

theorem readAttrAs4Path_write (some : path.segments ≠ [])
    (rewritable : ∀ segment ∈ path.segments, SegmentRewritable true segment ∧ isConfedSegment segment.segmentType = false) :
    readAttrAs4Path (writeAsPath path true) = .ok path := by
  have even : (writeAsPath path true).length % 2 = 0 ∧ 6 ≤ (writeAsPath path true).length := by
    obtain ⟨segments⟩ := path
    have lengths : ∀ segments : List AsPathSegment, (segments.flatMap (writeSegment true)).length % 2 = 0 := by
      intro segments
      induction segments with
      | nil => rfl
      | cons segment rest ih =>
        rw [flatMap_cons, length_append, length_writeSegment]
        simp only [asnSize, if_true]
        omega
    refine ⟨lengths segments, ?_⟩
    cases segments with
    | nil => exact absurd rfl some
    | cons segment rest =>
      have positive := length_pos_iff.mpr (rewritable segment mem_cons_self).1.nonempty
      simp only [writeAsPath, flatMap_cons, length_append, length_writeSegment, asnSize, if_true]
      omega
  have read := tryReadAsPath_write path fun segment member => (rewritable segment member).1
  have plain : path.segments.filter (fun segment => !isConfedSegment segment.segmentType) = path.segments := by
    rw [filter_eq_self]
    intro segment member
    rw [(rewritable segment member).2]
    rfl
  rw [readAttrAs4Path, if_neg (by omega), show (4 : Nat) = asnSize true from rfl, read, ok_bind, plain]

theorem parseAttrValue_write {attrType : AttrType} (kind : value.attrType = some attrType)
    (readable : Readable order format value) :
    ∃ data, writeAttrValue value format.use4byteAsn = some data ∧ attributeLengthValid attrType data.length format.use4byteAsn = true ∧
      parseAttrValue order attrType data format = .ok value := by
  cases value with
  | unknown => cases readable
  | origin origin =>
    cases kind
    exact ⟨_, rfl, rfl, by cases origin <;> rfl⟩
  | asPath path =>
    cases kind
    refine ⟨_, rfl, rfl, ?_⟩
    have read := tryReadAsPath_write path readable
    by_cases empty : (writeAsPath path format.use4byteAsn).isEmpty = true
    · have noSegments : path = ⟨[]⟩ := by
        obtain ⟨segments⟩ := path
        cases segments with
        | nil => rfl
        | cons segment rest => simp [writeAsPath, writeSegment] at empty
      rw [noSegments]
      rfl
    · simp only [parseAttrValue, readAttrAsPath, if_neg empty, read, silent_ok, ok_bind]
  | nextHop nextHop =>
    cases kind
    obtain ⟨addr, rfl, valid⟩ := readable
    have read := parseIpv4NextHop_at [] [] addr
    rw [nil_append, append_nil, length_nil] at read
    refine ⟨_, rfl, by simp [attributeLengthValid, nextHopOctets], ?_⟩
    simp [parseAttrValue, readAttrNextHop, nextHopOctets, read, valid]
  | multiExtiDisc value =>
    cases kind
    exact ⟨_, rfl, by simp [attributeLengthValid], by simp [parseAttrValue, readU32_write]⟩
  | localPref value =>
    cases kind
    have ibgp : format.isEbgp = false := readable
    exact ⟨_, rfl, by simp [attributeLengthValid], by simp [parseAttrValue, readU32_write, ibgp]⟩
  | atomicAggregate =>
    cases kind
    exact ⟨_, rfl, rfl, rfl⟩
  | aggregator aggregator =>
    cases kind
    refine ⟨_, rfl, ?_, ?_⟩
    · cases wide : format.use4byteAsn <;> simp [attributeLengthValid, writeAggregator, asnSize]
    · simp [parseAttrValue, readAttrAggregator_write aggregator _ readable]
  | communities communities =>
    cases kind
    refine ⟨_, rfl, listLength_valid u32Bytes 4 (by decide) length_u32Bytes readable, ?_⟩
    simp [parseAttrValue, readAttrCommunities,
      readMultiple_flatMap u32Bytes u32FromBytes 4 (by decide) length_u32Bytes u32FromBytes_u32Bytes]
  | originatorId addr =>
    cases kind
    have ibgp : format.isEbgp = false := readable
    have read := parseIpv4Addr_eq (Ipv4Addr.octets addr) 0 (by simp)
    rw [take_of_length_le (by simp)] at read
    exact ⟨_, rfl, by simp [attributeLengthValid], by simp [parseAttrValue, ibgp, readAttrOriginatorId, read]⟩
  | clusterList clusters =>
    cases kind
    refine ⟨_, rfl, listLength_valid Ipv4Addr.octets 4 (by decide) length_ipv4_octets readable.2, ?_⟩
    have read : readAttrClusterList (clusters.flatMap Ipv4Addr.octets) = clusters := by
      rw [readAttrClusterList, chunks_flatMap Ipv4Addr.octets 4 (by decide) length_ipv4_octets]
      simp [Function.comp_def]
    simp [parseAttrValue, readable.1, read]
  | mpReachNlri mp =>
    cases kind
    exact ⟨_, rfl, rfl, parseAttrValue_mpReach readable.1 readable.2⟩
  | mpUnreachNlri mp =>
    cases kind
    exact ⟨_, rfl, rfl, parseAttrValue_mpUnreach readable⟩
  | extendedCommunities communities =>
    cases kind
    refine ⟨_, rfl, listLength_valid u64Bytes 8 (by decide) length_u64Bytes readable, ?_⟩
    simp [parseAttrValue, readAttrExtendedCommunities,
      readMultiple_flatMap u64Bytes u64FromBytes 8 (by decide) length_u64Bytes u64FromBytes_u64Bytes]
  | as4Path path =>
    cases kind
    refine ⟨_, rfl, rfl, ?_⟩
    simp [parseAttrValue, readAttrAs4Path_write path readable.1 readable.2]
  | as4Aggregator aggregator =>
    cases kind
    have eight : ¬ (writeAggregator aggregator true).length ≠ 8 := by simp [writeAggregator, asnSize]
    refine ⟨_, rfl, rfl, ?_⟩
    simp [parseAttrValue, readAttrAs4Aggregator, if_neg eight, readAttrAggregator_write aggregator true (by intro narrow; cases narrow)]
  | largeCommunities communities =>
    cases kind
    refine ⟨_, rfl, listLength_valid LargeCommunity.toBytes 12 (by decide) length_largeCommunity readable, ?_⟩
    simp [parseAttrValue, readAttrLargeCommunities, readMultiple_flatMap LargeCommunity.toBytes LargeCommunity.fromBytes
      12 (by decide) length_largeCommunity largeCommunity_fromBytes_toBytes]
  | lsAttr attr =>
    cases kind
    have read : parseLsAttr attr.raw = .ok attr := readable
    refine ⟨_, rfl, rfl, ?_⟩
    simp [parseAttrValue, read]

theorem readAttrAsPath_rewritable (read : readAttrAsPath data use4byteAsn = .ok path) :
    (∀ segment ∈ path.segments, SegmentRewritable use4byteAsn segment) ∧ writeAsPath path use4byteAsn = data := by
  rw [readAttrAsPath] at read
  split at read
  · rename_i empty
    cases read
    simp [writeAsPath, isEmpty_iff.mp empty]
  · exact tryReadAsPath_sound data path read

theorem readAttrAs4Path_rewritable (read : readAttrAs4Path data = .ok path) :
    ∀ segment ∈ path.segments, SegmentRewritable true segment ∧ isConfedSegment segment.segmentType = false := by
  rw [readAttrAs4Path] at read
  split at read
  · cases read
  · obtain ⟨whole, scanned, same⟩ := of_bind read
    cases same
    have wide : tryReadAsPath data (asnSize true) = .ok whole := scanned
    intro segment member
    obtain ⟨inWhole, plain⟩ := mem_filter.mp member
    exact ⟨(tryReadAsPath_sound data whole wide).1 segment inWhole, by simpa using plain⟩

-- What the decoder hands out it would take again, but for an AS4_PATH that had only
-- confederation segments and lost them.
theorem parseAttrValue_readable (value : PathAttrValue) (sized : attributeLengthValid attrType data.length format.use4byteAsn = true)
    (parsed : parseAttrValue order attrType data format = .ok value) :
    Readable order format value ∨ value = .as4Path ⟨[]⟩ := by
  cases attrType with
  | as4Path =>
    obtain ⟨path, read, same⟩ := of_bind parsed
    cases same
    have rewritable := readAttrAs4Path_rewritable data path ((silent_eq_ok _ _).mp read)
    obtain ⟨segments⟩ := path
    by_cases empty : segments = []
    · subst empty
      exact .inr rfl
    · exact .inl ⟨empty, rewritable⟩
  | origin =>
    obtain ⟨byte, -, more⟩ := of_bind parsed
    obtain ⟨origin, -, same⟩ := of_bind more
    cases same
    exact .inl trivial
  | asPath =>
    obtain ⟨path, read, same⟩ := of_bind parsed
    cases same
    exact .inl (readAttrAsPath_rewritable data _ path ((silent_eq_ok _ _).mp read)).1
  | nextHop =>
    obtain ⟨nextHop, read, more⟩ := of_bind parsed
    obtain ⟨addr, rfl⟩ := parseIpv4NextHop_form ((silent_eq_ok _ _).mp read)
    dsimp only at more
    split at more
    · cases more
    · rename_i valid
      cases more
      exact .inl ⟨addr, rfl, by simpa using valid⟩
  | multiExtiDisc =>
    obtain ⟨med, -, same⟩ := of_bind parsed
    cases same
    exact .inl trivial
  | localPref =>
    simp only [parseAttrValue] at parsed
    split at parsed
    · cases parsed
    · rename_i ibgp
      obtain ⟨localPref, -, same⟩ := of_bind parsed
      cases same
      exact .inl (by simpa [Readable] using ibgp)
  | originatorId =>
    simp only [parseAttrValue] at parsed
    split at parsed
    · cases parsed
    · rename_i ibgp
      obtain ⟨originatorId, -, same⟩ := of_bind parsed
      cases same
      exact .inl (by simpa [Readable] using ibgp)
  | clusterList =>
    simp only [attributeLengthValid, Bool.and_eq_true, decide_eq_true_eq, beq_iff_eq] at sized
    simp only [parseAttrValue] at parsed
    split at parsed
    · cases parsed
    · rename_i ibgp
      cases parsed
      refine .inl ⟨Bool.not_eq_true _ ▸ ibgp, ?_⟩
      intro empty
      exact chunks_ne_nil 4 data sized.1 sized.2 (map_eq_nil_iff.mp empty)
  | atomicAggregate =>
    cases parsed
    exact .inl trivial
  | aggregator =>
    obtain ⟨aggregator, read, same⟩ := of_bind parsed
    cases same
    have exact : data.length = asnSize format.use4byteAsn + 4 := by
      cases wide : format.use4byteAsn with
      | true | false => simpa [attributeLengthValid, wide, asnSize] using sized
    exact .inl (readAttrAggregator_fits data _ exact aggregator ((silent_eq_ok _ _).mp read))
  | communities =>
    simp only [attributeLengthValid, Bool.and_eq_true, decide_eq_true_eq] at sized
    obtain ⟨communities, read, same⟩ := of_bind parsed
    cases same
    exact .inl (readMultiple_ne_nil 4 u32FromBytes data sized.1 ((silent_eq_ok _ _).mp read))
  | extendedCommunities =>
    simp only [attributeLengthValid, Bool.and_eq_true, decide_eq_true_eq] at sized
    obtain ⟨communities, read, same⟩ := of_bind parsed
    cases same
    exact .inl (readMultiple_ne_nil 8 u64FromBytes data sized.1 ((silent_eq_ok _ _).mp read))
  | largeCommunities =>
    simp only [attributeLengthValid, Bool.and_eq_true, decide_eq_true_eq] at sized
    obtain ⟨communities, read, same⟩ := of_bind parsed
    cases same
    exact .inl (readMultiple_ne_nil 12 LargeCommunity.fromBytes data sized.1 ((silent_eq_ok _ _).mp read))
  | mpReachNlri =>
    obtain ⟨family, field, nextHop, lists, -, ⟨nextHopLen, valid, hop⟩, read, rfl⟩ := parseMpReach_value parsed
    exact .inl ⟨parseMpNextHop_reads family valid hop, parseMpNlri_readable read⟩
  | mpUnreachNlri =>
    obtain ⟨family, field, lists, -, read, rfl⟩ := parseMpUnreach_value parsed
    exact .inl (parseMpNlri_readable read)
  | as4Aggregator =>
    obtain ⟨aggregator, -, same⟩ := of_bind parsed
    cases same
    exact .inl trivial
  | linkState =>
    obtain ⟨attr, read, same⟩ := of_bind parsed
    cases same
    have raw := parseLsAttr_raw data attr read
    refine .inl ?_
    rw [Readable, raw]
    exact read

theorem readable_of_stable (readable : Readable order format value) (other : HashOrder UInt16)
    (stable : ∀ entry ∈ mpLsNlri value, StableBody entry.nlriType entry.raw) : Readable other format value := by
  have entries : ∀ family nlri lsNlri, (∀ entry ∈ lsNlri, StableBody entry.nlriType entry.raw) →
      ListsReadable order format family nlri lsNlri → ListsReadable other format family nlri lsNlri := by
    intro family nlri lsNlri stable lists
    obtain ⟨afi, safi⟩ := family
    cases afi with
    | ipv4 | ipv6 => exact lists
    | linkState =>
      refine ⟨lists.1, fun entry member => ?_⟩
      obtain ⟨sized, vpn, distinguisher, body⟩ := lists.2 entry member
      refine ⟨sized, vpn, distinguisher, body.trans ?_⟩
      exact (decodedBody_stable_iff _ _).mpr (stable entry member) order other
  cases value with
  | mpReachNlri mp => exact ⟨readable.1, entries _ _ _ stable readable.2⟩
  | mpUnreachNlri mp => exact entries _ _ _ stable readable
  | _ => exact readable

theorem stable_of_readable (readable : ∀ order, Readable order format value) :
    ∀ entry ∈ mpLsNlri value, StableBody entry.nlriType entry.raw := by
  have entries : ∀ family nlri lsNlri, (∀ order, ListsReadable order format family nlri lsNlri) →
      ∀ entry ∈ lsNlri, StableBody entry.nlriType entry.raw := by
    intro family nlri lsNlri lists entry member
    obtain ⟨afi, safi⟩ := family
    cases afi with
    | ipv4 | ipv6 =>
      rw [(lists default).1] at member
      cases member
    | linkState =>
      rw [← decodedBody_stable_iff]
      intro first second
      rw [← ((lists first).2 entry member).body, ← ((lists second).2 entry member).body]
  cases value with
  | mpReachNlri mp => exact entries _ _ _ fun order => (readable order).2
  | mpUnreachNlri mp => exact entries _ _ _ readable
  | _ => simp [mpLsNlri]

end

end Bgpgg.Wire
