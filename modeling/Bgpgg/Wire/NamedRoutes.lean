import Bgpgg.Wire.ParseSafety

namespace Bgpgg.Wire

open Net Lib

inductive NamesRoute (family : PrefixFamily) (addPath : Bool) : List UInt8 → Prop where
  | here (id body rest : List UInt8) (prefixLength : UInt8) (identified : id.length = pathIdLen addPath)
      (bounded : prefixLength ≤ family.maxPrefixLen) (whole : body.length = prefixByteLen prefixLength)
      (kept : family.ignored (family.build (body ++ List.replicate (family.addressLen - body.length) 0) prefixLength) = false)
      (later : Entries family addPath rest) : NamesRoute family addPath ((id ++ prefixLength :: body) ++ rest)
  | there (entry rest : List UInt8) (first : Entry family addPath entry) (later : NamesRoute family addPath rest) :
      NamesRoute family addPath (entry ++ rest)

inductive NamesLinkState (safi : Safi) : List UInt8 → Prop where
  | here (tlv : LsTlv) (rest : List UInt8) (fits : tlv.value.length < 2 ^ 16)
      (room : safi = .linkStateVpn → RD_LEN ≤ tlv.value.length) (later : Framed rest) :
      NamesLinkState safi (writeTlvRaw tlv ++ rest)
  | there (tlv : LsTlv) (rest : List UInt8) (fits : tlv.value.length < 2 ^ 16) (later : NamesLinkState safi rest) :
      NamesLinkState safi (writeTlvRaw tlv ++ rest)

section

variable {family : PrefixFamily} {addPath : Bool}

theorem NamesRoute.entries {field : List UInt8} (names : NamesRoute family addPath field) : Entries family addPath field := by
  induction names with
  | here id body rest prefixLength identified bounded whole _ later =>
    exact .cons _ rest (.mk id body prefixLength identified bounded whole) later
  | there entry rest first _ ih => exact .cons entry rest first ih

theorem not_namesRoute_nil : ¬ NamesRoute family addPath [] := by
  intro names
  generalize empty : ([] : List UInt8) = field at names
  cases names with
  | here id body rest prefixLength =>
    have shape := congrArg List.length empty
    simp at shape
  | there entry rest first =>
    exact first.ne_nil (List.append_eq_nil_iff.mp empty.symm).1

theorem entry_unique {id otherId body otherBody rest left : List UInt8} {prefixLength otherLength : UInt8}
    (identified : id.length = pathIdLen addPath) (otherIdentified : otherId.length = pathIdLen addPath)
    (whole : body.length = prefixByteLen prefixLength) (otherWhole : otherBody.length = prefixByteLen otherLength)
    (same : (id ++ prefixLength :: body) ++ rest = (otherId ++ otherLength :: otherBody) ++ left) :
    id = otherId ∧ prefixLength = otherLength ∧ body = otherBody ∧ rest = left := by
  rw [List.append_assoc, List.append_assoc] at same
  obtain ⟨sameId, more⟩ := List.append_inj same (identified.trans otherIdentified.symm)
  rw [List.cons_append, List.cons_append, List.cons.injEq] at more
  obtain ⟨sameLength, more⟩ := more
  subst sameLength
  obtain ⟨sameBody, sameRest⟩ := List.append_inj more (whole.trans otherWhole.symm)
  exact ⟨sameId, rfl, sameBody, sameRest⟩

theorem namesRoute_entry_iff (id body rest : List UInt8) (prefixLength : UInt8) (identified : id.length = pathIdLen addPath)
    (bounded : prefixLength ≤ family.maxPrefixLen) (whole : body.length = prefixByteLen prefixLength) :
    NamesRoute family addPath ((id ++ prefixLength :: body) ++ rest) ↔
      (family.ignored (family.build (body ++ List.replicate (family.addressLen - body.length) 0) prefixLength) = false ∧
        Entries family addPath rest) ∨ NamesRoute family addPath rest := by
  constructor
  · intro names
    generalize same : (id ++ prefixLength :: body) ++ rest = field at names
    cases names with
    | here otherId otherBody left otherLength otherIdentified otherBounded otherWhole kept later =>
      obtain ⟨rfl, rfl, rfl, rfl⟩ := entry_unique identified otherIdentified whole otherWhole same
      exact .inl ⟨kept, later⟩
    | there entry left first later =>
      have sameRest := (Entry.mk id body prefixLength identified bounded whole).unique first same
      rw [sameRest]
      exact .inr later
  · intro either
    cases either with
    | inl here => exact .here id body rest prefixLength identified bounded whole here.1 here.2
    | inr later => exact .there _ rest (.mk id body prefixLength identified bounded whole) later

theorem parseNlris_names {bytes : List UInt8} {nlriList : List Nlri}
    (parsed : parseNlris family bytes addPath = .ok nlriList) : nlriList ≠ [] ↔ NamesRoute family addPath bytes := by
  have advances : Advances (parseNlri family addPath) bytes.length := parseNlri_advances _
  have names := scan_induct advances (fun state bytes outcome => ∀ final, outcome = .ok final → Entries family addPath bytes →
      (final ≠ [] ↔ state ≠ [] ∨ NamesRoute family addPath bytes))
    (by
      intro state final same _
      cases same
      simp [not_namesRoute_nil])
    (by intro _ _ _ _ _ _ final same; cases same)
    (by intro _ _ _ _ _ _ final same; cases same)
    (by
      intro state bytes next rest _ _ moved kept final same entries
      obtain ⟨entry, shape, rfl⟩ := parseNlri_shape moved
      have later := (Entries.tail_iff shape).mp entries
      rw [kept final same later]
      cases shape with
      | mk id body prefixLength identified bounded whole =>
        rw [parseNlri_entry id body rest prefixLength state identified bounded whole] at moved
        rw [namesRoute_entry_iff id body rest prefixLength identified bounded whole]
        simp only [pushEntry] at moved
        obtain ⟨rfl, -⟩ := moved
        split
        · rename_i ignored
          simp [ignored]
        · rename_i notIgnored
          simp [notIgnored, later])
    [] bytes (Nat.le_refl _)
  have whole := (parseNlris_outcome bytes).1.mp ⟨nlriList, parsed⟩
  simpa using names nlriList parsed whole

end

theorem NamesLinkState.framed {safi : Safi} {field : List UInt8} (names : NamesLinkState safi field) : Framed field := by
  induction names with
  | here tlv rest fits _ later => exact .cons tlv rest fits later
  | there tlv rest fits _ ih => exact .cons tlv rest fits ih

section

variable (safi : Safi) {order : HashOrder UInt16} {format : MessageFormat} {family : AfiSafi} {field : List UInt8}
  {frame : AttrFrame} {attr : PathAttribute}

theorem not_namesLinkState_nil : ¬ NamesLinkState safi [] := by
  intro names
  generalize empty : ([] : List UInt8) = field at names
  cases names with
  | here tlv | there tlv => exact writeTlvRaw_ne_nil tlv (List.append_eq_nil_iff.mp empty.symm).1

theorem tlv_unique {tlv other : LsTlv} {rest left : List UInt8} (fits : tlv.value.length < 2 ^ 16)
    (otherFits : other.value.length < 2 ^ 16) (same : writeTlvRaw tlv ++ rest = writeTlvRaw other ++ left) :
    tlv = other ∧ rest = left := by
  have read := readTlv_write () (fun _ _ _ => ()) tlv rest fits
  rw [same, readTlv_write () _ other left otherFits] at read
  simp only [Checked.ok.injEq, Prod.mk.injEq] at read
  exact ⟨read.1.symm, read.2.symm⟩

theorem namesLinkState_frame_iff (tlv : LsTlv) (rest : List UInt8) (fits : tlv.value.length < 2 ^ 16) :
    NamesLinkState safi (writeTlvRaw tlv ++ rest) ↔
      ((safi = .linkStateVpn → RD_LEN ≤ tlv.value.length) ∧ Framed rest) ∨ NamesLinkState safi rest := by
  constructor
  · intro names
    generalize same : writeTlvRaw tlv ++ rest = field at names
    cases names with
    | here other left otherFits room later =>
      obtain ⟨rfl, rfl⟩ := tlv_unique fits otherFits same
      exact .inl ⟨room, later⟩
    | there other left otherFits later =>
      obtain ⟨rfl, rfl⟩ := tlv_unique fits otherFits same
      exact .inr later
  · intro either
    cases either with
    | inl here => exact .here tlv rest fits here.1 here.2
    | inr later => exact .there tlv rest fits later

theorem parseLsNlriList_names {safi : Safi} {bytes : List UInt8} {entries : List LsNlri}
    (parsed : parseLsNlriList order bytes safi = .ok entries) : entries ≠ [] ↔ NamesLinkState safi bytes := by
  have names := scan_induct (parseLsNlri_advances order safi bytes.length)
    (fun state bytes outcome => ∀ final, outcome = .ok final → Framed bytes → (final ≠ [] ↔ state ≠ [] ∨ NamesLinkState safi bytes))
    (by
      intro state final same _
      cases same
      simp [not_namesLinkState_nil])
    (by intro _ _ _ _ _ _ final same; cases same)
    (by intro _ _ _ _ _ _ final same; cases same)
    (by
      intro state bytes next rest _ _ moved kept final same framed
      obtain ⟨tlv, fits, rfl⟩ := parseLsNlri_exact order safi moved
      have later := (Framed.tail_iff tlv rest fits).mp framed
      rw [kept final same later, namesLinkState_frame_iff safi tlv rest fits]
      rw [parseLsNlri_write order safi state tlv rest fits] at moved
      simp only [pushLsNlri] at moved
      obtain ⟨rfl, -⟩ := moved
      by_cases vpn : safi = .linkStateVpn
      · by_cases short : tlv.value.length < RD_LEN
        · simp [vpn, short, Nat.not_le.mpr short]
        · simp [vpn, short, Nat.not_lt.mp short, later]
      · simp [vpn, later])
    [] bytes (Nat.le_refl _)
  have whole := (parseLsNlriList_accepts order bytes safi).mp ⟨entries, parsed⟩
  simpa using names entries parsed whole

-- What the field of a multiprotocol attribute names, by its family.

def FieldNamesRoute (format : MessageFormat) (family : AfiSafi) (field : List UInt8) : Prop := match family.afi with
  | .ipv4 => NamesRoute ipv4Family (format.addPath.contains family) field
  | .ipv6 => NamesRoute ipv6Family (format.addPath.contains family) field
  | .linkState => False

def FieldNamesLinkState (family : AfiSafi) (field : List UInt8) : Prop := family.afi = .linkState ∧ NamesLinkState family.safi field

theorem FieldNamesLinkState.whole (names : FieldNamesLinkState family field) : FieldWhole format family field := by
  rw [FieldWhole, names.1]
  exact names.2.framed

theorem parseMpNlri_names {lists : List Nlri × List LsNlri}
    (parsed : parseMpNlri order family.afi family.safi field (format.addPath.contains family) = .ok lists) :
    (lists.1 ≠ [] ↔ FieldNamesRoute format family field) ∧ (lists.2 ≠ [] ↔ FieldNamesLinkState family field) := by
  obtain ⟨afi, safi⟩ := family
  cases afi with
  | ipv4 | ipv6 =>
    obtain ⟨nlri, read, same⟩ := Checked.of_bind parsed
    cases same
    exact ⟨parseNlris_names read, by simp [FieldNamesLinkState]⟩
  | linkState =>
    obtain ⟨lsNlri, read, same⟩ := Checked.of_bind parsed
    cases same
    simpa [FieldNamesLinkState, FieldNamesRoute] using parseLsNlriList_names read

end

section

variable {order : HashOrder UInt16} {format : MessageFormat} {data : List UInt8} {value : PathAttrValue}

theorem parseAttrValue_names {attrType : AttrType} (parsed : parseAttrValue order attrType data format = .ok value) :
    (mpNlri value ≠ [] ↔ ∃ family field, mpField attrType data = some (family, field) ∧ FieldNamesRoute format family field) ∧
      (mpLsNlri value ≠ [] ↔ ∃ family field, mpField attrType data = some (family, field) ∧ FieldNamesLinkState family field) := by
  by_cases reach : attrType = .mpReachNlri
  · subst reach
    obtain ⟨family, field, nextHop, lists, located, -, read, rfl⟩ := parseMpReach_value parsed
    simpa [mpField, located, mpNlri, mpLsNlri] using parseMpNlri_names read
  · by_cases unreach : attrType = .mpUnreachNlri
    · subst unreach
      obtain ⟨family, field, lists, located, read, rfl⟩ := parseMpUnreach_value parsed
      simpa [mpField, located, mpNlri, mpLsNlri] using parseMpNlri_names read
    · have kind := parseAttrValue_attrType order parsed
      have unlocated : mpField attrType data = none := by cases attrType <;> first | rfl | contradiction
      have plain : mpNlri value = [] ∧ mpLsNlri value = [] := by
        cases value <;> first
          | exact ⟨rfl, rfl⟩
          | (simp only [PathAttrValue.attrType, Option.some.injEq] at kind
             first | exact absurd kind.symm reach | exact absurd kind.symm unreach)
      simp [plain, unlocated]

end

def FrameNamesRoute (format : MessageFormat) (frame : AttrFrame) : Prop :=
  ∃ attrType family field, AttrType.tryFrom frame.typeCode = some attrType ∧ FlagsValid frame.flags attrType ∧
    mpField attrType frame.data = some (family, field) ∧ FieldNamesRoute format family field

def FrameNamesLinkState (frame : AttrFrame) : Prop :=
  ∃ attrType family field, AttrType.tryFrom frame.typeCode = some attrType ∧ FlagsValid frame.flags attrType ∧
    mpField attrType frame.data = some (family, field) ∧ FieldNamesLinkState family field

theorem readFrame_names {order : HashOrder UInt16} {format : MessageFormat} {frame : AttrFrame} {attr : PathAttribute}
    (read : readFrame order format frame = .ok (.parsed attr)) :
    (mpNlri attr.value ≠ [] ↔ FrameNamesRoute format frame) ∧ (mpLsNlri attr.value ≠ [] ↔ FrameNamesLinkState frame) := by
  cases known : AttrType.tryFrom frame.typeCode with
  | none =>
    obtain ⟨flags, value⟩ := readFrame_unknown read known
    simp [FrameNamesRoute, FrameNamesLinkState, known, value, mpNlri, mpLsNlri]
  | some attrType =>
    obtain ⟨valid, -, parsed⟩ := readFrame_known read known
    simpa [FrameNamesRoute, FrameNamesLinkState, known, valid] using parseAttrValue_names parsed

section

variable (order : HashOrder UInt16) {format : MessageFormat} {frame : AttrFrame}

variable {field : List UInt8} {family : AfiSafi}

theorem isMp_of_mpField {attrType : AttrType}
    (known : AttrType.tryFrom frame.typeCode = some attrType) (located : mpField attrType frame.data = some (family, field)) :
    isMp frame.typeCode = true := by
  rw [← AttrType.tryFrom_eq_some known]
  exact (isMp_toU8 attrType).mpr (mpField_sized 0 true located).1

theorem FrameNamesRoute.isMp (names : FrameNamesRoute format frame) : isMp frame.typeCode = true := by
  obtain ⟨attrType, family, field, known, -, located, -⟩ := names
  exact isMp_of_mpField known located

theorem FrameNamesLinkState.isMp (names : FrameNamesLinkState frame) : isMp frame.typeCode = true := by
  obtain ⟨attrType, family, field, known, -, located, -⟩ := names
  exact isMp_of_mpField known located

theorem FieldNamesRoute.whole (names : FieldNamesRoute format family field) : FieldWhole format family field := by
  obtain ⟨afi, safi⟩ := family
  cases afi with
  | ipv4 | ipv6 => exact NamesRoute.entries names
  | linkState => exact names.elim

theorem frameNamesRoute_parsed (names : FrameNamesRoute format frame) : ∃ attr, readFrame order format frame = .ok (.parsed attr) := by
  obtain ⟨attrType, family, field, known, valid, located, inside⟩ := names
  obtain ⟨-, value, read⟩ := carriesMp_parsed order format frame ⟨attrType, family, field, known, valid, located, inside.whole⟩
  exact ⟨_, read⟩

theorem frameNamesLinkState_parsed (format : MessageFormat)
    (names : FrameNamesLinkState frame) : ∃ attr, readFrame order format frame = .ok (.parsed attr) := by
  obtain ⟨attrType, family, field, known, valid, located, inside⟩ := names
  obtain ⟨-, value, read⟩ := carriesMp_parsed order format frame ⟨attrType, family, field, known, valid, located, inside.whole⟩
  exact ⟨_, read⟩

end

end Bgpgg.Wire
