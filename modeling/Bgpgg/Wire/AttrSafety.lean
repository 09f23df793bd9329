import Bgpgg.Wire.AttrList

namespace Bgpgg.Wire

open Net Lib Checked List AttrType

-- Where the prefixes of a multiprotocol attribute are, when its header can be read.
def mpFamily : List UInt8 → Option AfiSafi
  | first :: second :: safiByte :: _ => do
    let afi ← Afi.tryFrom (u16FromBytes [first, second])
    let safi ← Safi.tryFrom safiByte
    some ⟨afi, safi⟩
  | _ => none

section

variable (format : MessageFormat) (family : AfiSafi) (field : List UInt8)

def NextHopAccepted (nextHopLen : Nat) (data : List UInt8) : Prop := nextHopLenValid family.afi family.safi nextHopLen = true ∧
    MP_HEADER_SIZE + nextHopLen + MP_RESERVED_SIZE ≤ data.length ∧
    (family.afi = .ipv4 → isValidUnicastIpv4 (Ipv4Addr.fromOctets ((data.drop MP_HEADER_SIZE).take 4)) = true)

instance (family : AfiSafi) (nextHopLen : Nat) (data : List UInt8) : Decidable (NextHopAccepted family nextHopLen data) :=
  inferInstanceAs (Decidable (_ ∧ _ ∧ (_ → _)))

def mpReachField (data : List UInt8) : Option (AfiSafi × List UInt8) := do
  let family ← mpFamily data
  let nextHopByte ← data[3]?
  if NextHopAccepted family nextHopByte.toNat data then
    some (family, data.drop (MP_HEADER_SIZE + nextHopByte.toNat + MP_RESERVED_SIZE))
  else none

def mpUnreachField (data : List UInt8) : Option (AfiSafi × List UInt8) := (mpFamily data).map fun family => (family, data.drop 3)

def mpField (attrType : AttrType) (data : List UInt8) : Option (AfiSafi × List UInt8) := match attrType with
  | .mpReachNlri => mpReachField data
  | .mpUnreachNlri => mpUnreachField data
  | _ => none

def FieldWhole : Prop := match family.afi with
  | .ipv4 => Entries ipv4Family (format.addPath.contains family) field
  | .ipv6 => Entries ipv6Family (format.addPath.contains family) field
  | .linkState => Framed field

def FieldEndsAfterPathId : Prop := match family.afi with
  | .ipv4 => EndsAfterPathId ipv4Family (format.addPath.contains family) field
  | .ipv6 => EndsAfterPathId ipv6Family (format.addPath.contains family) field
  | .linkState => False

end

section

variable (bytes : List UInt8) (asnSize : Nat) (offset : Nat)

theorem parseIpv4Addr_eq (inside : offset + 4 ≤ bytes.length) :
    parseIpv4Addr bytes offset = .ok (Ipv4Addr.fromOctets ((bytes.drop offset).take 4)) := by
  have exact : ((bytes.drop offset).take 4).length = 4 := length_take_of_le (by rw [length_drop]; omega)
  rw [parseIpv4Addr, slice_eq_ok bytes offset _ ⟨by omega, inside⟩]
  simp [copyExact, exact]

theorem parseIpv6Addr_eq (inside : offset + 16 ≤ bytes.length) :
    parseIpv6Addr bytes offset = .ok (Ipv6Addr.fromOctets ((bytes.drop offset).take 16)) := by
  have exact : ((bytes.drop offset).take 16).length = 16 := length_take_of_le (by rw [length_drop]; omega)
  rw [parseIpv6Addr, slice_eq_ok bytes offset _ ⟨by omega, inside⟩]
  simp [copyExact, exact]

theorem parseIpv4NextHop_eq (inside : offset + 4 ≤ bytes.length) :
    parseIpv4NextHop bytes offset = .ok (.ipv4 (Ipv4Addr.fromOctets ((bytes.drop offset).take 4))) := by
  rw [parseIpv4NextHop, parseIpv4Addr_eq bytes offset inside, ok_bind]

theorem parseIpv6NextHop_ok (offset len : Nat) (global : offset + 16 ≤ bytes.length)
    (linkLocal : len = 32 → offset + 32 ≤ bytes.length) : ∃ nextHop, parseIpv6NextHop bytes offset len = .ok nextHop := by
  rw [parseIpv6NextHop, parseIpv6Addr_eq bytes offset global]
  by_cases both : len = 32
  · rw [ok_bind, if_pos both, parseIpv6Addr_eq bytes (offset + 16) (by have := linkLocal both; omega)]
    exact ⟨_, rfl⟩
  · rw [ok_bind, if_neg both]
    exact ⟨_, rfl⟩

theorem parseMpNextHop_outcome {afi : Afi} {safi : Safi} {nextHopLen : Nat} (sized : nextHopLenValid afi safi nextHopLen = true)
    (room : MP_HEADER_SIZE + nextHopLen + MP_RESERVED_SIZE ≤ bytes.length) : (NextHopAccepted ⟨afi, safi⟩ nextHopLen bytes →
      ∃ nextHop, parseMpNextHop bytes MP_HEADER_SIZE afi nextHopLen = .ok nextHop) ∧
    (¬ NextHopAccepted ⟨afi, safi⟩ nextHopLen bytes → parseMpNextHop bytes MP_HEADER_SIZE afi nextHopLen = .err invalidNextHop) := by
  have enough : 4 + nextHopLen + 1 ≤ bytes.length := room
  cases afi with
  | ipv4 =>
    have four : nextHopLen = 4 := by cases safi <;> simp_all [nextHopLenValid]
    have inside : MP_HEADER_SIZE + 4 ≤ bytes.length := by rw [MP_HEADER_SIZE]; omega
    simp only [parseMpNextHop, parseIpv4Addr_eq bytes _ inside, ok_bind, NextHopAccepted, sized, room, true_and]
    cases isValidUnicastIpv4 (Ipv4Addr.fromOctets ((bytes.drop MP_HEADER_SIZE).take 4)) <;> simp
  | ipv6 =>
    have form : nextHopLen = 16 ∨ nextHopLen = 32 := by cases safi <;> simp_all [nextHopLenValid]
    have accepted : NextHopAccepted ⟨.ipv6, safi⟩ nextHopLen bytes := ⟨sized, room, by simp⟩
    refine ⟨fun _ => ?_, fun refused => absurd accepted refused⟩
    exact parseIpv6NextHop_ok bytes _ nextHopLen (by rw [MP_HEADER_SIZE]; omega) (by rw [MP_HEADER_SIZE]; omega)
  | linkState =>
    have accepted : NextHopAccepted ⟨.linkState, safi⟩ nextHopLen bytes := ⟨sized, room, by simp⟩
    have form : nextHopLen = 4 ∨ nextHopLen = 12 ∨ nextHopLen = 16 ∨ nextHopLen = 32 ∨ nextHopLen = 24 := by
      cases safi <;> simp_all [nextHopLenValid, RD_LEN] <;> omega
    refine ⟨fun _ => ?_, fun refused => absurd accepted refused⟩
    obtain rfl | rfl | rfl | rfl | rfl := form
    · exact ⟨_, parseIpv4NextHop_eq bytes 4 (by omega)⟩
    · exact ⟨_, parseIpv4NextHop_eq bytes 12 (by omega)⟩
    · exact parseIpv6NextHop_ok bytes 4 16 (by omega) (by omega)
    · exact parseIpv6NextHop_ok bytes 4 32 (by omega) (by omega)
    · exact parseIpv6NextHop_ok bytes 12 16 (by omega) (by omega)

section

variable (order : HashOrder UInt16) {data : List UInt8} (format : MessageFormat)

theorem parseMpNlri_outcome (family : AfiSafi) (field : List UInt8) :
    ((∃ lists, parseMpNlri order family.afi family.safi field (format.addPath.contains family) = .ok lists) ↔
      FieldWhole format family field) ∧
    ((parseMpNlri order family.afi family.safi field (format.addPath.contains family)).Faults ↔
      FieldEndsAfterPathId format family field) := by
  obtain ⟨afi, safi⟩ := family
  cases afi with
  | ipv4 =>
    have outcome : ((∃ nlriList, parseNlris ipv4Family field (format.addPath.contains ⟨.ipv4, safi⟩) = .ok nlriList) ↔ _) ∧ _ :=
      parseNlris_outcome field
    simp only [parseMpNlri, FieldWhole, FieldEndsAfterPathId, bind_eq_ok]
    rw [← outcome.1, ← outcome.2]
    simp [parseNlriList]
  | ipv6 =>
    have outcome : ((∃ nlriList, parseNlris ipv6Family field (format.addPath.contains ⟨.ipv6, safi⟩) = .ok nlriList) ↔ _) ∧ _ :=
      parseNlris_outcome field
    simp only [parseMpNlri, FieldWhole, FieldEndsAfterPathId, bind_eq_ok]
    rw [← outcome.1, ← outcome.2]
    simp [parseNlriV6List]
  | linkState =>
    simp only [parseMpNlri, FieldWhole, FieldEndsAfterPathId, bind_eq_ok]
    rw [← parseLsNlriList_accepts order field safi]
    simp [parseLsNlriList_returns]

theorem mpFamily_eq_none (short : data.length < 3) : mpFamily data = none := by
  cases data with
  | nil => rfl
  | cons first rest =>
    cases rest with
    | nil => rfl
    | cons second rest =>
      cases rest with
      | nil => rfl
      | cons third rest =>
        simp only [length_cons] at short
        omega

theorem readFamily_eq {Value : Type} (long : 3 ≤ data.length) (next : Afi → Safi → Parse Value) : (do
      let afiBytes ← bytesAt data 0 2
      let afi ← ofOption optionalAttribute (Afi.tryFrom (u16FromBytes afiBytes))
      let safiByte ← byteAt data 2
      let safi ← ofOption optionalAttribute (Safi.tryFrom safiByte)
      next afi safi) =
      match mpFamily data with
      | some family => next family.afi family.safi
      | none => .err optionalAttribute := by
  cases data with
  | nil => simp at long
  | cons first rest =>
    cases rest with
    | nil => simp at long
    | cons second rest =>
      cases rest with
      | nil => simp at long
      | cons safiByte rest =>
        rw [bytesAt_eq_ok _ 0 2 (by simp)]
        simp only [ok_bind, drop_zero, take_succ_cons, take_zero, byteAt_cons_succ, byteAt_cons_zero, mpFamily]
        cases Afi.tryFrom (u16FromBytes [first, second]) with
        | none => rfl
        | some afi =>
          cases Safi.tryFrom safiByte <;> rfl

theorem readAttrMpReachNlri_none (missing : mpReachField data = none) : ∃ error, readAttrMpReachNlri order data format = .err error := by
  unfold readAttrMpReachNlri
  by_cases short : data.length < MP_HEADER_SIZE + MP_RESERVED_SIZE
  · exact ⟨_, if_pos short⟩
  · have long : 5 ≤ data.length := Nat.not_lt.mp short
    rw [if_neg short, readFamily_eq (by omega) fun afi safi => _]
    cases family : mpFamily data with
    | none => exact ⟨_, rfl⟩
    | some found =>
      obtain ⟨nextHopByte, present⟩ : ∃ byte, data[3]? = some byte := ⟨_, getElem?_eq_getElem (by omega)⟩
      simp only [mpReachField, family, present, Option.bind_eq_bind, Option.bind_some] at missing
      have refused : ¬ NextHopAccepted found nextHopByte.toNat data := by
        intro accepted
        rw [if_pos accepted] at missing
        cases missing
      simp only [byteAt, present, validateMpReachBuffer]
      by_cases sized : nextHopLenValid found.afi found.safi nextHopByte.toNat = true
      · by_cases room : data.length < MP_HEADER_SIZE + nextHopByte.toNat + MP_RESERVED_SIZE
        · simp [room]
        · have nextHop := (parseMpNextHop_outcome data sized (Nat.not_lt.mp room)).2 refused
          simp [sized, room, nextHop]
      · simp [sized]

theorem readAttrMpUnreachNlri_none
    (missing : mpUnreachField data = none) : ∃ error, readAttrMpUnreachNlri order data format = .err error := by
  unfold readAttrMpUnreachNlri
  by_cases short : data.length < 3
  · exact ⟨_, if_pos short⟩
  · have absent : mpFamily data = none := by simpa [mpUnreachField] using missing
    rw [if_neg short, readFamily_eq (Nat.not_lt.mp short) fun afi safi => _, absent]
    exact ⟨_, rfl⟩

end

theorem parseNlris_built {family : PrefixFamily} {addPath : Bool} {bytes : List UInt8} {nlriList : List Nlri}
    (parsed : parseNlris family bytes addPath = .ok nlriList) :
    ∀ nlri ∈ nlriList, ∃ octets prefixLength, nlri.pfx = family.build octets prefixLength :=
  parseNlris_pushed family addPath (fun nlri => ∃ octets prefixLength, nlri.pfx = family.build octets prefixLength)
    (fun _ _ prefixLength _ _ _ => ⟨_, prefixLength, rfl⟩) bytes nlriList parsed

theorem parseMpNlri_afi {order : HashOrder UInt16} {afi : Afi} {safi : Safi} {field : List UInt8} {addPath : Bool}
    {lists : List Nlri × List LsNlri} (parsed : parseMpNlri order afi safi field addPath = .ok lists) :
    validateNlriAfi afi lists.1 = true := by
  cases afi with
  | ipv4 | ipv6 =>
    obtain ⟨nlri, read, same⟩ := of_bind parsed
    cases same
    refine all_eq_true.mpr fun entry member => ?_
    obtain ⟨octets, prefixLength, built⟩ := parseNlris_built read entry member
    rw [built]
    rfl
  | linkState =>
    obtain ⟨lsNlri, -, same⟩ := of_bind parsed
    cases same
    rfl

theorem readAsns_returns (asnSize pos count : Nat) (inside : pos + count * asnSize ≤ bytes.length) :
    ¬ (readAsns bytes asnSize pos count).Faults := by
  induction count generalizing pos with
  | zero => exact faults_ok _
  | succ count ih =>
    rw [Nat.succ_mul] at inside
    rw [readAsns, bytesAt_eq_ok bytes pos asnSize (by omega)]
    simp [ih (pos + asnSize) (by omega)]

theorem readSegment_returns (segments : List AsPathSegment) (bytes : List UInt8) : ¬ (readSegment asnSize segments bytes).Faults := by
  unfold readSegment
  split
  · exact faults_err _
  · have zero : ¬ bytes.length ≤ 0 := by omega
    have one : ¬ bytes.length ≤ 1 := by omega
    simp only [faults_bind, faults_byteAt, zero, one, faults_ofOption, false_or, not_exists, not_and]
    intro typeByte _ segmentType _ segmentLen _
    split
    · exact faults_err _
    · split
      · exact faults_err _
      · simp [readAsns_returns bytes asnSize 2 segmentLen.toNat (by omega)]

theorem readSegment_advances (asnSize limit : Nat) : Advances (readSegment asnSize) limit := by
  intro segments bytes next rest nonempty _ read
  unfold readSegment at read
  split at read
  · cases read
  · obtain ⟨typeByte, -, more⟩ := of_bind read
    obtain ⟨segmentType, -, more⟩ := of_bind more
    obtain ⟨segmentLen, -, more⟩ := of_bind more
    split at more
    · cases more
    · dsimp only at more
      split at more
      · cases more
      · obtain ⟨asnList, -, same⟩ := of_bind more
        cases same
        rw [length_drop]
        omega

@[simp] theorem tryReadAsPath_returns : ¬ (tryReadAsPath bytes asnSize).Faults := by
  have segments := scan_returns (readSegment_advances asnSize bytes.length)
    (fun state left _ => readSegment_returns asnSize state left) [] bytes (Nat.le_refl _)
  simp [tryReadAsPath, segments]

@[simp] theorem readAttrAsPath_returns (use4byteAsn : Bool) :
    ¬ (readAttrAsPath bytes use4byteAsn).Faults := by
  unfold readAttrAsPath
  split <;> simp

@[simp] theorem readAttrAs4Path_returns : ¬ (readAttrAs4Path bytes).Faults := by
  unfold readAttrAs4Path
  split <;> simp

@[simp] theorem readU32_returns : ¬ (readU32 bytes).Faults := by
  unfold readU32
  split
  · rw [bytesAt_eq_ok bytes 0 4 (by omega)]
    exact faults_ok _
  · exact faults_err _

@[simp] theorem readMultiple_returns {Item : Type} (size : Nat) (build : List UInt8 → Item) (bytes : List UInt8) :
    ¬ (readMultiple size build bytes).Faults := by
  unfold readMultiple
  split <;> simp

theorem readAttrAggregator_returns (long : 6 ≤ bytes.length) : ¬ (readAttrAggregator bytes).Faults := by
  unfold readAttrAggregator
  split
  · rw [bytesAt_eq_ok bytes 0 4 (by omega), bytesAt_eq_ok bytes 4 4 (by omega)]
    exact faults_ok _
  · rw [bytesAt_eq_ok bytes 0 2 (by omega), bytesAt_eq_ok bytes 2 4 (by omega)]
    exact faults_ok _

end

section

variable (order : HashOrder UInt16) {attrType : AttrType} (data : List UInt8) (format : MessageFormat)

section

variable {order} {data field : List UInt8} {family : AfiSafi}

theorem parseMpReach_some (found : mpReachField data = some (family, field)) :
    ∃ nextHop, (∃ nextHopLen, nextHopLenValid family.afi family.safi nextHopLen = true ∧
        parseMpNextHop data MP_HEADER_SIZE family.afi nextHopLen = .ok nextHop) ∧
      parseAttrValue order .mpReachNlri data format =
        (parseMpNlri order family.afi family.safi field (format.addPath.contains family)).silent >>= fun lists =>
          .ok (.mpReachNlri ⟨family.afi, family.safi, nextHop, lists.1, lists.2⟩) := by
  unfold mpReachField at found
  simp only [Option.bind_eq_bind, Option.bind_eq_some_iff] at found
  obtain ⟨known, familyFound, nextHopByte, present, rest⟩ := found
  split at rest
  · rename_i accepted
    simp only [Option.some.injEq, Prod.mk.injEq] at rest
    obtain ⟨rfl, after⟩ := rest
    have room := accepted.2.1
    have long : ¬ data.length < MP_HEADER_SIZE + MP_RESERVED_SIZE := by omega
    have three : 3 ≤ data.length := by
      rw [MP_HEADER_SIZE] at room
      omega
    obtain ⟨nextHop, parsed⟩ := (parseMpNextHop_outcome data accepted.1 room).1 accepted
    refine ⟨nextHop, ⟨_, accepted.1, parsed⟩, ?_⟩
    rw [parseAttrValue, readAttrMpReachNlri, if_neg long, readFamily_eq three fun afi safi => _, familyFound]
    simp only [byteAt, present, ok_bind, validateMpReachBuffer, accepted.1, if_neg (Nat.not_lt.mpr room), parsed]
    rw [slice_eq_ok data _ _ ⟨room, Nat.le_refl _⟩, take_of_length_le (by rw [length_drop]), after]
    cases read : parseMpNlri order known.afi known.safi field (format.addPath.contains known) with
    | ok lists => simp [read, parseMpNlri_afi read]
    | err error | fault reason => simp [read, silent]
  · cases rest

theorem parseMpUnreach_some (found : mpUnreachField data = some (family, field)) :
    parseAttrValue order .mpUnreachNlri data format =
      (parseMpNlri order family.afi family.safi field (format.addPath.contains family)).silent >>= fun lists =>
        .ok (.mpUnreachNlri ⟨family.afi, family.safi, lists.1, lists.2⟩) := by
  obtain ⟨known, familyFound, same⟩ := Option.map_eq_some_iff.mp found
  obtain ⟨rfl, rfl⟩ := same
  have long : ¬ data.length < 3 := by
    intro short
    rw [mpFamily_eq_none short] at familyFound
    cases familyFound
  rw [parseAttrValue, readAttrMpUnreachNlri, if_neg long, readFamily_eq (Nat.not_lt.mp long) fun afi safi => _, familyFound]
  rw [slice_eq_ok data 3 _ ⟨Nat.not_lt.mp long, Nat.le_refl _⟩, take_of_length_le (by rw [length_drop])]
  cases read : parseMpNlri order family.afi family.safi (data.drop 3) (format.addPath.contains family) with
  | ok lists => simp [read, parseMpNlri_afi read]
  | err error | fault reason => simp [read, silent]

end

theorem parseMp_outcome (kind : attrType = .mpReachNlri ∨ attrType = .mpUnreachNlri) :
    ((∃ value, parseAttrValue order attrType data format = .ok value) ↔
      ∃ family field, mpField attrType data = some (family, field) ∧ FieldWhole format family field) ∧
    ((parseAttrValue order attrType data format).Faults ↔
      ∃ family field, mpField attrType data = some (family, field) ∧ FieldEndsAfterPathId format family field) := by
  cases located : mpField attrType data with
  | none =>
    have failed : ∃ error, parseAttrValue order attrType data format = .err error := by
      rcases kind with rfl | rfl
      · obtain ⟨error, failed⟩ := readAttrMpReachNlri_none order format located
        simp [parseAttrValue, failed, silent]
      · obtain ⟨error, failed⟩ := readAttrMpUnreachNlri_none order format located
        simp [parseAttrValue, failed, silent]
    obtain ⟨error, failed⟩ := failed
    simp [failed]
  | some found =>
    obtain ⟨family, field⟩ := found
    have read : ∃ build : _ → PathAttrValue, parseAttrValue order attrType data format =
        (parseMpNlri order family.afi family.safi field (format.addPath.contains family)).silent >>= fun lists => .ok (build lists) := by
      rcases kind with rfl | rfl
      · obtain ⟨nextHop, -, read⟩ := parseMpReach_some format located
        exact ⟨_, read⟩
      · exact ⟨_, parseMpUnreach_some format located⟩
    obtain ⟨build, read⟩ := read
    obtain ⟨accepts, faults⟩ := parseMpNlri_outcome order format family field
    simpa [read, bind_eq_ok, silent_eq_ok] using And.intro accepts faults

end

section

variable {order : HashOrder UInt16} {format : MessageFormat} {data : List UInt8} {value : PathAttrValue}

theorem parseMpReach_value (parsed : parseAttrValue order .mpReachNlri data format = .ok value) :
    ∃ family field nextHop lists, mpReachField data = some (family, field) ∧
      (∃ nextHopLen, nextHopLenValid family.afi family.safi nextHopLen = true ∧
        parseMpNextHop data MP_HEADER_SIZE family.afi nextHopLen = .ok nextHop) ∧
      parseMpNlri order family.afi family.safi field (format.addPath.contains family) = .ok lists ∧
      value = .mpReachNlri ⟨family.afi, family.safi, nextHop, lists.1, lists.2⟩ := by
  obtain ⟨family, field, located, -⟩ := (parseMp_outcome order data format (.inl rfl)).1.mp ⟨value, parsed⟩
  obtain ⟨nextHop, hop, read⟩ := parseMpReach_some format located
  rw [read] at parsed
  obtain ⟨lists, readLists, same⟩ := of_bind parsed
  cases same
  exact ⟨family, field, nextHop, lists, located, hop, (silent_eq_ok _ _).mp readLists, rfl⟩

theorem parseMpUnreach_value (parsed : parseAttrValue order .mpUnreachNlri data format = .ok value) :
    ∃ family field lists, mpUnreachField data = some (family, field) ∧
      parseMpNlri order family.afi family.safi field (format.addPath.contains family) = .ok lists ∧
      value = .mpUnreachNlri ⟨family.afi, family.safi, lists.1, lists.2⟩ := by
  obtain ⟨family, field, located, -⟩ := (parseMp_outcome order data format (.inr rfl)).1.mp ⟨value, parsed⟩
  rw [parseMpUnreach_some format located] at parsed
  obtain ⟨lists, readLists, same⟩ := of_bind parsed
  cases same
  exact ⟨family, field, lists, located, (silent_eq_ok _ _).mp readLists, rfl⟩

end

section

variable (order : HashOrder UInt16) {attrType : AttrType} (format : MessageFormat) (frames : List AttrFrame)
  (state : AttrScan) (frame : AttrFrame)

theorem parseAttrValue_faults {data : List UInt8} {format : MessageFormat}
    (sized : attributeLengthValid attrType data.length format.use4byteAsn = true) : (parseAttrValue order attrType data format).Faults ↔
      ∃ family field, mpField attrType data = some (family, field) ∧ FieldEndsAfterPathId format family field := by
  cases attrType with
  | mpReachNlri => exact (parseMp_outcome order data format (.inl rfl)).2
  | mpUnreachNlri => exact (parseMp_outcome order data format (.inr rfl)).2
  | origin =>
    have one : data.length = 1 := by simpa [attributeLengthValid] using sized
    simp [parseAttrValue, mpField, one]
  | nextHop =>
    have four : data.length = 4 := by simpa [attributeLengthValid] using sized
    simp only [parseAttrValue, mpField, readAttrNextHop, parseIpv4NextHop_eq data 0 (by omega), silent_ok, ok_bind]
    split <;> simp
  | originatorId =>
    have four : data.length = 4 := by simpa [attributeLengthValid] using sized
    simp only [parseAttrValue, mpField, readAttrOriginatorId, parseIpv4Addr_eq data 0 (by omega), silent_ok]
    split <;> simp
  | localPref | clusterList =>
    simp only [parseAttrValue, mpField]
    split <;> simp
  | aggregator =>
    have long : 6 ≤ data.length := by
      cases wide : format.use4byteAsn with
      | true =>
        have eight : data.length = 8 := by simpa [attributeLengthValid, wide] using sized
        omega
      | false =>
        have six : data.length = 6 := by simpa [attributeLengthValid, wide] using sized
        omega
    simp [parseAttrValue, mpField, readAttrAggregator_returns data long]
  | as4Aggregator =>
    simp only [parseAttrValue, mpField, readAttrAs4Aggregator]
    split
    · simp
    · simp [readAttrAggregator_returns data (by omega)]
  | linkState => simp [parseAttrValue, mpField, parseLsAttr_returns]
  | asPath | as4Path => simp [parseAttrValue, mpField]
  | multiExtiDisc | atomicAggregate => simp [parseAttrValue, mpField]
  | communities => simp [parseAttrValue, mpField, readAttrCommunities]
  | extendedCommunities => simp [parseAttrValue, mpField, readAttrExtendedCommunities]
  | largeCommunities => simp [parseAttrValue, mpField, readAttrLargeCommunities]

theorem parseAttrValue_attrType {data : List UInt8} {format : MessageFormat}
    {value : PathAttrValue} (parsed : parseAttrValue order attrType data format = .ok value) :
    value.attrType = some attrType := by
  cases attrType with
  | nextHop =>
    obtain ⟨nextHop, -, more⟩ := of_bind parsed
    cases nextHop with
    | ipv4 addr =>
      dsimp only at more
      split at more
      · cases more
      · cases more
        rfl
    | ipv6 addr | ipv6WithLinkLocal global linkLocal =>
      cases more
      rfl
  | origin =>
    obtain ⟨byte, -, more⟩ := of_bind parsed
    obtain ⟨origin, -, same⟩ := of_bind more
    cases same
    rfl
  | localPref | originatorId =>
    simp only [parseAttrValue] at parsed
    split at parsed
    · cases parsed
    · obtain ⟨read, -, same⟩ := of_bind parsed
      cases same
      rfl
  | clusterList =>
    simp only [parseAttrValue] at parsed
    split at parsed
    · cases parsed
    · cases parsed
      rfl
  | mpReachNlri | mpUnreachNlri =>
    obtain ⟨mp, -, more⟩ := of_bind parsed
    split at more
    · cases more
      rfl
    · cases more
  | atomicAggregate =>
    cases parsed
    rfl
  | asPath | multiExtiDisc | aggregator | communities | extendedCommunities | largeCommunities | as4Path | as4Aggregator
  | linkState =>
    obtain ⟨read, -, same⟩ := of_bind parsed
    cases same
    rfl

-- What a frame does to the reading of its section, from its bytes alone.

def Overreads : Prop := ∃ attrType family field, AttrType.tryFrom frame.typeCode = some attrType ∧ FlagsValid frame.flags attrType ∧
    mpField attrType frame.data = some (family, field) ∧ FieldEndsAfterPathId format family field

def CarriesMp : Prop := ∃ attrType family field, AttrType.tryFrom frame.typeCode = some attrType ∧ FlagsValid frame.flags attrType ∧
    mpField attrType frame.data = some (family, field) ∧ FieldWhole format family field

def ResetsSession : Prop := (AttrType.tryFrom frame.typeCode = none ∧ frame.flags &&& OPTIONAL = 0) ∨
    (AttrType.tryFrom frame.typeCode = some .mpReachNlri ∧ ¬ Overreads format frame ∧ ¬ CarriesMp format frame)

theorem overreads_iff {frame : AttrFrame} (known : tryFrom frame.typeCode = some attrType) :
    Overreads format frame ↔ FlagsValid frame.flags attrType ∧
      ∃ family field, mpField attrType frame.data = some (family, field) ∧ FieldEndsAfterPathId format family field := by
  simp [Overreads, known]

theorem carriesMp_iff {frame : AttrFrame} (known : tryFrom frame.typeCode = some attrType) :
    CarriesMp format frame ↔ FlagsValid frame.flags attrType ∧
      ∃ family field, mpField attrType frame.data = some (family, field) ∧ FieldWhole format family field := by
  simp [CarriesMp, known]

theorem mpField_sized {data field : List UInt8} {family : AfiSafi} (attrLen : Nat) (use4byteAsn : Bool)
    (located : mpField attrType data = some (family, field)) :
    (attrType = .mpReachNlri ∨ attrType = .mpUnreachNlri) ∧ attributeLengthValid attrType attrLen use4byteAsn = true := by
  cases attrType <;> simp_all [mpField, attributeLengthValid]

theorem readFrame_faults : (readFrame order format frame).Faults ↔ Overreads format frame := by
  cases known : tryFrom frame.typeCode with
  | none =>
    simp only [readFrame, known, Overreads]
    split <;> simp
  | some attrType =>
    rw [overreads_iff format known]
    simp only [readFrame, known]
    by_cases valid : FlagsValid frame.flags attrType
    · by_cases sized : attributeLengthValid attrType frame.data.length format.use4byteAsn = true
      · rw [← parseAttrValue_faults order sized]
        simp only [valid, sized, not_true_eq_false, if_false]
        cases parseAttrValue order attrType frame.data format with
        | ok value => simp
        | err error =>
          dsimp only
          split <;> simp
        | fault reason => simp
      · have unlocated : ¬ ∃ family field, mpField attrType frame.data = some (family, field) ∧
            FieldEndsAfterPathId format family field := by
          rintro ⟨family, field, located, -⟩
          exact sized (mpField_sized _ _ located).2
        simp [valid, sized, unlocated]
    · simp only [valid, not_false_eq_true, if_true, false_and]
      split <;> simp

theorem typeCode_of_attrType (flags : UInt8) {value : PathAttrValue}
    (same : value.attrType = some attrType) : (PathAttribute.mk flags value).typeCode = attrType.toU8 := by
  cases value <;> simp_all [PathAttribute.typeCode, PathAttrValue.attrType]

theorem isMp_toU8 (attrType : AttrType) : isMp attrType.toU8 = true ↔ attrType = .mpReachNlri ∨ attrType = .mpUnreachNlri := by
  cases attrType <;> decide

section

variable {order} {format} {frame} {attr : PathAttribute}

theorem readFrame_known (read : readFrame order format frame = .ok (.parsed attr))
    (known : AttrType.tryFrom frame.typeCode = some attrType) :
    FlagsValid frame.flags attrType ∧ attributeLengthValid attrType frame.data.length format.use4byteAsn = true ∧
      parseAttrValue order attrType frame.data format = .ok attr.value := by
  simp only [readFrame, known] at read
  split at read
  · split at read <;> cases read
  · rename_i valid
    split at read
    · cases read
    · rename_i sized
      split at read
      · rename_i value parsed
        cases read
        exact ⟨not_not.mp valid, not_not.mp sized, parsed⟩
      · split at read <;> cases read
      · cases read

theorem readFrame_unknown (read : readFrame order format frame = .ok (.parsed attr)) (unknown : AttrType.tryFrom frame.typeCode = none) :
    ∃ flags, attr.value = .unknown frame.typeCode flags frame.data := by
  simp only [readFrame, unknown] at read
  split at read
  · cases read
  · cases read
    exact ⟨_, rfl⟩

end

theorem readFrame_typeCode {attr : PathAttribute}
    (read : readFrame order format frame = .ok (.parsed attr)) : attr.typeCode = frame.typeCode := by
  cases known : tryFrom frame.typeCode with
  | none =>
    obtain ⟨flags, value⟩ := readFrame_unknown read known
    rw [PathAttribute.typeCode, value]
  | some attrType =>
    obtain ⟨-, -, parsed⟩ := readFrame_known read known
    have kind := parseAttrValue_attrType order parsed
    exact (typeCode_of_attrType attr.flags kind).trans (tryFrom_eq_some known)

theorem carriesMp_parsed (carries : CarriesMp format frame) :
    isMp frame.typeCode = true ∧ ∃ value, readFrame order format frame = .ok (.parsed ⟨frame.flags, value⟩) := by
  obtain ⟨attrType, family, field, known, valid, located, whole⟩ := carries
  obtain ⟨kind, sized⟩ := mpField_sized frame.data.length format.use4byteAsn located
  obtain ⟨value, read⟩ := (parseMp_outcome order frame.data format kind).1.mpr ⟨family, field, located, whole⟩
  refine ⟨?_, value, ?_⟩
  · rw [← tryFrom_eq_some known]
    exact (isMp_toU8 attrType).mpr kind
  · simp [readFrame, known, valid, sized, read]

theorem not_carriesMp {order : HashOrder UInt16} {format : MessageFormat} {frame : AttrFrame}
    (unread : ∀ attr, readFrame order format frame ≠ .ok (.parsed attr)) : ¬ CarriesMp format frame := by
  intro carries
  obtain ⟨-, value, parsed⟩ := carriesMp_parsed order format frame carries
  exact unread _ parsed

theorem parsed_carriesMp {order : HashOrder UInt16} {format : MessageFormat} {frame : AttrFrame} {attr : PathAttribute}
    (read : readFrame order format frame = .ok (.parsed attr)) (mp : isMp frame.typeCode = true) : CarriesMp format frame := by
  cases known : tryFrom frame.typeCode with
  | none =>
    simp only [isMp, Bool.or_eq_true, beq_iff_eq] at mp
    cases mp with
    | inl reach =>
      rw [reach] at known
      cases known
    | inr unreach =>
      rw [unreach] at known
      cases known
  | some attrType =>
    have kind : attrType = .mpReachNlri ∨ attrType = .mpUnreachNlri := by
      rw [← isMp_toU8, tryFrom_eq_some known]
      exact mp
    obtain ⟨valid, -, parsed⟩ := readFrame_known read known
    exact (carriesMp_iff format known).mpr ⟨valid, (parseMp_outcome order frame.data format kind).1.mp ⟨_, parsed⟩⟩

theorem readFrame_errs : (∃ error, readFrame order format frame = .err error) ↔ ResetsSession format frame := by
  constructor
  · rintro ⟨error, read⟩
    have noFault : ¬ Overreads format frame := by
      rw [← readFrame_faults order, read]
      exact faults_err error
    have noMp := not_carriesMp fun _ parsed => by cases read.symm.trans parsed
    cases known : tryFrom frame.typeCode with
    | none =>
      simp only [readFrame, known] at read
      split at read
      · rename_i wellKnown
        exact .inl ⟨known, wellKnown⟩
      · cases read
    | some attrType =>
      by_cases reach : attrType = .mpReachNlri
      · subst reach
        exact .inr ⟨known, noFault, noMp⟩
      · simp only [readFrame, known, reach] at read
        split at read
        · cases read
        · split at read
          · cases read
          · split at read <;> cases read
  · intro resets
    cases resets with
    | inl wellKnown =>
      exact ⟨_, by simp only [readFrame, wellKnown.1, wellKnown.2]; rfl⟩
    | inr reach =>
      obtain ⟨known, noFault, noMp⟩ := reach
      rw [← readFrame_faults order] at noFault
      have mp : isMp frame.typeCode = true := by
        rw [← tryFrom_eq_some known]
        rfl
      cases read : readFrame order format frame with
      | err error => exact ⟨error, rfl⟩
      | fault reason =>
        rw [read] at noFault
        exact absurd (faults_fault reason) noFault
      | ok result =>
        cases result with
        | parsed attr => exact absurd (parsed_carriesMp read mp) noMp
        | malformed action =>
          simp only [readFrame, known] at read
          split at read
          · cases read
          · split at read
            · rename_i unsized
              exact absurd rfl unsized
            · split at read <;> cases read

-- Frames that are all taken: none ends the session, none is read past its end, and no
-- multiprotocol attribute comes twice.
def SectionReads : Prop := (∀ frame ∈ frames, ¬ ResetsSession format frame ∧ ¬ Overreads format frame) ∧
    frames.Pairwise fun first second =>
      CarriesMp format first → CarriesMp format second → first.typeCode ≠ second.typeCode

theorem recordResult_returns (result : PathAttrResult) : ¬ (recordResult state result).Faults := by
  cases result with
  | malformed action => cases action <;> simp [recordResult]
  | parsed attr =>
    simp only [recordResult]
    split
    · split <;> simp
    · simp

theorem applyFrame_faults : (applyFrame order format state frame).Faults ↔ Overreads format frame := by
  simp [applyFrame, readFrame_faults, recordResult_returns]

theorem applyFrame_taken : (∃ next, applyFrame order format state frame = .ok next) ↔
      ¬ ResetsSession format frame ∧ ¬ Overreads format frame ∧ (CarriesMp format frame → frame.typeCode ∉ state.seenTypeCodes) := by
  rw [← readFrame_errs order, ← readFrame_faults order, applyFrame]
  cases read : readFrame order format frame with
  | err error | fault reason => simp
  | ok result =>
    cases result with
    | malformed action =>
      have noMp := not_carriesMp fun _ parsed => by cases read.symm.trans parsed
      cases action <;> simp [recordResult, noMp]
    | parsed attr =>
      have code := readFrame_typeCode order format frame read
      simp only [ok_bind, recordResult, code]
      by_cases mp : isMp frame.typeCode = true
      · have carries := parsed_carriesMp read mp
        by_cases seen : frame.typeCode ∈ state.seenTypeCodes
        · simp [mp, seen, carries]
        · simp [seen]
      · have noMp : ¬ CarriesMp format frame := fun carries => mp (carriesMp_parsed order format frame carries).1
        by_cases seen : frame.typeCode ∈ state.seenTypeCodes
        · simp [mp, seen, noMp]
        · simp [seen]

theorem applyFrame_seen {order : HashOrder UInt16} {format : MessageFormat} {state next : AttrScan} {frame : AttrFrame}
    (taken : applyFrame order format state frame = .ok next) {code : UInt8} (mp : isMp code = true) :
    code ∈ next.seenTypeCodes ↔ code ∈ state.seenTypeCodes ∨ (CarriesMp format frame ∧ frame.typeCode = code) := by
  obtain ⟨result, read, recorded⟩ := of_bind taken
  cases result with
  | malformed action =>
    have noMp := not_carriesMp fun _ parsed => by cases read.symm.trans parsed
    cases action <;> cases recorded <;> simp [noMp]
  | parsed attr =>
    have same := readFrame_typeCode order format frame read
    simp only [recordResult, same] at recorded
    split at recorded
    · rename_i seen
      have present : frame.typeCode ∈ state.seenTypeCodes := by simpa using seen
      split at recorded
      · cases recorded
      · cases recorded
        refine ⟨Or.inl, fun either => ?_⟩
        cases either with
        | inl before => exact before
        | inr fresh => exact fresh.2 ▸ present
    · cases recorded
      simp only [mem_cons]
      constructor
      · intro either
        cases either with
        | inl fresh =>
          subst fresh
          exact .inr ⟨parsed_carriesMp read mp, rfl⟩
        | inr before => exact .inl before
      · intro either
        cases either with
        | inl before => exact .inr before
        | inr fresh => exact .inl fresh.2.symm

theorem foldlM_taken : (∃ final, frames.foldlM (applyFrame order format) state = .ok final) ↔
      SectionReads format frames ∧ ∀ frame ∈ frames, CarriesMp format frame → frame.typeCode ∉ state.seenTypeCodes := by
  induction frames generalizing state with
  | nil => exact iff_of_true ⟨state, rfl⟩ ⟨⟨by simp, .nil⟩, by simp⟩
  | cons frame rest ih =>
    have walked : (∃ final, (frame :: rest).foldlM (applyFrame order format) state = .ok final) ↔
        ∃ next, applyFrame order format state frame = .ok next ∧ ∃ final, rest.foldlM (applyFrame order format) next = .ok final := by
      simp only [foldlM_cons, bind_eq_ok]
      exact ⟨fun ⟨final, next, taken, more⟩ => ⟨next, taken, final, more⟩, fun ⟨next, taken, final, more⟩ => ⟨final, next, taken, more⟩⟩
    rw [walked]
    constructor
    · rintro ⟨next, taken, more⟩
      obtain ⟨noReset, noOver, fresh⟩ := (applyFrame_taken order format state frame).mp ⟨next, taken⟩
      obtain ⟨reads, unseen⟩ := (ih next).mp more
      have later : ∀ other ∈ rest, CarriesMp format other →
          other.typeCode ∉ state.seenTypeCodes ∧ ¬ (CarriesMp format frame ∧ frame.typeCode = other.typeCode) := by
        intro other member carries
        have absent := unseen other member carries
        rw [applyFrame_seen taken (carriesMp_parsed order format other carries).1] at absent
        exact not_or.mp absent
      refine ⟨⟨?_, ?_⟩, ?_⟩
      · intro other member
        cases mem_cons.mp member with
        | inl here =>
          rw [here]
          exact ⟨noReset, noOver⟩
        | inr inRest => exact reads.1 other inRest
      · refine List.Pairwise.cons ?_ reads.2
        intro other member first second same
        exact (later other member second).2 ⟨first, same⟩
      · intro other member carries
        cases mem_cons.mp member with
        | inl here =>
          rw [here] at carries ⊢
          exact fresh carries
        | inr inRest => exact (later other inRest carries).1
    · rintro ⟨⟨each, distinct⟩, unseen⟩
      have here := each frame mem_cons_self
      obtain ⟨next, taken⟩ := (applyFrame_taken order format state frame).mpr ⟨here.1, here.2, unseen frame mem_cons_self⟩
      refine ⟨next, taken, (ih next).mpr ⟨⟨?_, (pairwise_cons.mp distinct).2⟩, ?_⟩⟩
      · intro other member
        exact each other (mem_cons_of_mem _ member)
      · intro other member carries
        rw [applyFrame_seen taken (carriesMp_parsed order format other carries).1]
        intro either
        cases either with
        | inl before => exact unseen other (mem_cons_of_mem _ member) carries before
        | inr fresh => exact (pairwise_cons.mp distinct).1 other member fresh.1 carries fresh.2

def SectionOverreads : Prop :=
  ∃ before frame after, frames = before ++ frame :: after ∧ SectionReads format before ∧ Overreads format frame

theorem readPathAttributes_outcome {bytes : List UInt8} (short : bytes.length ≤ ATTR_SECTION_LIMIT) :
    ((∃ result, readPathAttributes order bytes format = .ok result) ↔ SectionReads format (attrFrames bytes)) ∧
      ((readPathAttributes order bytes format).Faults ↔ SectionOverreads format (attrFrames bytes)) := by
  have fresh : ∀ frames : List AttrFrame,
      (∃ final, frames.foldlM (applyFrame order format) {} = .ok final) ↔ SectionReads format frames := by
    intro frames
    rw [foldlM_taken]
    simp
  rw [readPathAttributes_frames order format bytes short]
  constructor
  · rw [← fresh]
    simp only [bind_eq_ok]
    exact ⟨fun ⟨_, final, walked, _⟩ => ⟨final, walked⟩, fun ⟨final, walked⟩ => ⟨_, final, walked, rfl⟩⟩
  · simp only [faults_bind, faults_ok, and_false, exists_false, or_false]
    rw [faults_foldlM_iff]
    constructor
    · rintro ⟨before, frame, after, split, reached, walked, stuck⟩
      exact ⟨before, frame, after, split, (fresh before).mp ⟨reached, walked⟩, (applyFrame_faults order format _ _).mp stuck⟩
    · rintro ⟨before, frame, after, split, reads, overreads⟩
      obtain ⟨reached, walked⟩ := (fresh before).mpr reads
      exact ⟨before, frame, after, split, reached, walked, (applyFrame_faults order format _ _).mpr overreads⟩

end

end Bgpgg.Wire
