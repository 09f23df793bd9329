import Bgpgg.Wire.BodySections
import Bgpgg.Wire.ValueCodec

namespace Bgpgg.Wire

open Lib PathAttribute List

def clearExtended (flags : UInt8) : UInt8 := flags &&& 0xEF

-- An attribute without the choice between a short and a long length field. An unknown
-- attribute holds its flags twice.
def PathAttribute.upToLength (attr : PathAttribute) : PathAttribute := ⟨clearExtended attr.flags, match attr.value with
    | .unknown typeCode flags data => .unknown typeCode (clearExtended flags) data
    | value => value⟩

def passedFlags (flags : UInt8) : UInt8 := if flags &&& TRANSITIVE ≠ 0 then flags ||| PARTIAL else flags

def writtenFlags (attr : PathAttribute) (data : List UInt8) : UInt8 :=
  if data.length > 255 || extendedLen (baseFlags attr) then baseFlags attr ||| EXTENDED_LENGTH else baseFlags attr

def writtenFrame (attr : PathAttribute) (data : List UInt8) : AttrFrame := ⟨writtenFlags attr data, attr.typeCode, data⟩

section

section

variable (flags : UInt8) {first second : UInt8} (attr : PathAttribute) (data : List UInt8)

theorem or_and_disjoint {extra mask : UInt8} (disjoint : extra &&& mask = 0) : (flags ||| extra) &&& mask = flags &&& mask := by
  have zero := congrArg UInt8.toBitVec disjoint
  apply UInt8.toBitVec_inj.mp
  simp only [UInt8.toBitVec_and, UInt8.toBitVec_or] at zero ⊢
  rw [BitVec.and_or_distrib_right, zero]
  simp

theorem writtenFlags_and (mask : UInt8) (disjoint : EXTENDED_LENGTH &&& mask = 0) :
    writtenFlags attr data &&& mask = baseFlags attr &&& mask := by
  rw [writtenFlags]
  split
  · exact or_and_disjoint _ disjoint
  · rfl

theorem extendedLen_written : extendedLen (writtenFlags attr data) = (decide (data.length > 255) || extendedLen (baseFlags attr)) := by
  have marked : ∀ flags : UInt8, extendedLen (flags ||| EXTENDED_LENGTH) = true := by
    rintro ⟨flags⟩
    revert flags
    decide
  rw [writtenFlags]
  split
  · rename_i long
    rw [marked, long]
  · rename_i short
    have both : (decide (data.length > 255) || extendedLen (baseFlags attr)) = false := Bool.not_eq_true _ ▸ short
    rw [both]
    exact (Bool.or_eq_false_iff.mp both).2

theorem clearExtended_and {mask : UInt8} (outside : 0xEF &&& mask = mask) : clearExtended flags &&& mask = flags &&& mask := by
  rw [clearExtended, UInt8.and_assoc, outside]

theorem and_of_clearExtended (same : clearExtended first = clearExtended second) {mask : UInt8}
    (outside : 0xEF &&& mask = mask) : first &&& mask = second &&& mask := by
  rw [← clearExtended_and first outside, same, clearExtended_and second outside]

theorem flagsValid_congr (same : clearExtended first = clearExtended second) (attrType : AttrType) :
    FlagsValid first attrType ↔ FlagsValid second attrType := by
  rw [FlagsValid, FlagsValid, and_of_clearExtended same (by decide), and_of_clearExtended same (by decide)]

theorem clearExtended_written : clearExtended (writtenFlags attr data) = clearExtended (baseFlags attr) :=
  writtenFlags_and attr data 0xEF (by decide)

end

end

section

variable {attr : PathAttribute} {data : List UInt8} {use4byteAsn : Bool}

theorem writePathAttribute_frame (written : writeAttrValue attr.value use4byteAsn = some data) (short : data.length < 2 ^ 16) :
    writePathAttribute attr use4byteAsn = (writtenFrame attr data).bytes := by
  have length : (UInt16.ofNat data.length).toNat = data.length := UInt16.toNat_ofNat_of_lt' short
  simp only [writePathAttribute, written, AttrFrame.bytes, writtenFrame, attributeHeader, extendedLen_written, length]
  rfl

theorem writtenFrame_fits (short : data.length < 2 ^ 16) : (writtenFrame attr data).Fits := by
  rw [AttrFrame.Fits, writtenFrame, extendedLen_written]
  by_cases long : data.length > 255
  · simpa [long] using short
  · split
    · exact short
    · have narrow : data.length < 256 := by omega
      exact narrow

theorem writePathAttribute_short (written : writeAttrValue attr.value use4byteAsn = some data)
    (short : (writePathAttribute attr use4byteAsn).length < 2 ^ 16) : data.length < 2 ^ 16 := by
  simp only [writePathAttribute, written, length_append] at short
  omega

end

section

variable (order : HashOrder UInt16) (format : MessageFormat) (attr : PathAttribute)

def AttrReadable : Prop := match attr.value with
  | .unknown typeCode flags _ => AttrType.tryFrom typeCode = none ∧ flags &&& OPTIONAL ≠ 0 ∧
      (flags &&& TRANSITIVE ≠ 0 → flags &&& PARTIAL ≠ 0) ∧ clearExtended attr.flags = clearExtended flags
  | value => Readable order format value ∧ ∀ attrType, value.attrType = some attrType → FlagsValid attr.flags attrType

def ReadsBack : Prop := ∃ data read, writeAttrValue attr.value format.use4byteAsn = some data ∧
    readFrame order format (writtenFrame attr data) = .ok (.parsed read) ∧ read.upToLength = attr.upToLength

end

section

variable {order : HashOrder UInt16} {format : MessageFormat} {attr read : PathAttribute} {attrType : AttrType}

theorem unknown_of_attrType {value : PathAttrValue} (none : value.attrType = none) :
    ∃ typeCode flags data, value = .unknown typeCode flags data := by
  cases value with
  | unknown typeCode flags data => exact ⟨typeCode, flags, data, rfl⟩
  | _ => cases none

section

variable (kind : attr.value.attrType = some attrType)

include kind

theorem attrReadable_known : AttrReadable order format attr ↔ Readable order format attr.value ∧ FlagsValid attr.flags attrType := by
  obtain ⟨flags, value⟩ := attr
  cases value <;> cases kind <;> simp [AttrReadable, PathAttrValue.attrType]

theorem baseFlags_known : baseFlags attr = attr.flags := by
  obtain ⟨flags, value⟩ := attr
  cases value <;> first | rfl | cases kind

theorem upToLength_known : attr.upToLength = ⟨clearExtended attr.flags, attr.value⟩ := by
  obtain ⟨flags, value⟩ := attr
  cases value <;> first | rfl | cases kind

end

theorem upToLength_attrType (attr : PathAttribute) : attr.upToLength.value.attrType = attr.value.attrType := by
  obtain ⟨flags, value⟩ := attr
  cases value <;> rfl

theorem upToLength_typeCode (attr : PathAttribute) : attr.upToLength.typeCode = attr.typeCode := by
  obtain ⟨flags, value⟩ := attr
  cases value <;> rfl

theorem upToLength_value (same : read.upToLength = attr.upToLength) (kind : read.value.attrType = some attrType) :
    attr.value = read.value := by
  have kinds : attr.value.attrType = some attrType := by rw [← upToLength_attrType, ← same, upToLength_attrType, kind]
  rw [upToLength_known kind, upToLength_known kinds] at same
  exact (congrArg value same).symm

theorem readsBack_known (kind : attr.value.attrType = some attrType) : ReadsBack order format attr ↔ AttrReadable order format attr := by
  have code : AttrType.tryFrom attr.typeCode = some attrType := by
    rw [typeCode_of_attrType attr.flags kind, attrType_tryFrom_toU8]
  have flags (data : List UInt8) : FlagsValid (writtenFlags attr data) attrType ↔ FlagsValid attr.flags attrType := by
    have same := clearExtended_written attr data
    rw [baseFlags_known kind] at same
    exact flagsValid_congr same attrType
  rw [attrReadable_known kind]
  constructor
  · rintro ⟨data, read, written, parsed, same⟩
    obtain ⟨valid, sized, value⟩ := readFrame_known parsed code
    have whole := upToLength_value same (parseAttrValue_attrType order value)
    rw [whole]
    refine ⟨?_, (flags data).mp valid⟩
    cases parseAttrValue_readable attrType _ _ sized value with
    | inl readable => exact readable
    | inr empty =>
      rw [whole, empty] at written kind
      cases kind
      cases written
      cases value
  · intro condition
    obtain ⟨data, written, sized, value⟩ := parseAttrValue_write kind condition.1
    refine ⟨data, ⟨writtenFlags attr data, attr.value⟩, written, ?_, ?_⟩
    · have valid := (flags data).mpr condition.2
      simp [readFrame, writtenFrame, code, valid, sized, value]
    · have same := clearExtended_written attr data
      rw [baseFlags_known kind] at same
      have left : (PathAttribute.mk (writtenFlags attr data) attr.value).upToLength =
          ⟨clearExtended (writtenFlags attr data), attr.value⟩ := upToLength_known kind
      rw [left, upToLength_known kind, same]

theorem readFrame_unrecognized {frame : AttrFrame} (unknown : AttrType.tryFrom frame.typeCode = none) :
    readFrame order format frame = .ok (.parsed read) ↔ frame.flags &&& OPTIONAL ≠ 0 ∧
      read = ⟨passedFlags frame.flags, .unknown frame.typeCode (passedFlags frame.flags) frame.data⟩ := by
  simp only [readFrame, unknown]
  by_cases wellKnown : frame.flags &&& OPTIONAL = 0
  · simp [wellKnown]
  · simp only [wellKnown, if_false, Checked.ok.injEq, PathAttrResult.parsed.injEq, ne_eq, not_false_eq_true, true_and]
    exact eq_comm

theorem clearExtended_passed (flags : UInt8) :
    clearExtended (passedFlags flags) = clearExtended flags ↔ (flags &&& TRANSITIVE ≠ 0 → flags &&& PARTIAL ≠ 0) := by
  obtain ⟨flags⟩ := flags
  revert flags
  decide

theorem readsBack_unknown (flags typeCode own : UInt8) (data : List UInt8) :
    ReadsBack order format ⟨flags, .unknown typeCode own data⟩ ↔ AttrReadable order format ⟨flags, .unknown typeCode own data⟩ := by
  have bits (mask : UInt8) (disjoint : EXTENDED_LENGTH &&& mask = 0) :
      writtenFlags ⟨flags, .unknown typeCode own data⟩ data &&& mask = own &&& mask :=
    writtenFlags_and ⟨flags, .unknown typeCode own data⟩ data mask disjoint
  have cleared : clearExtended (writtenFlags ⟨flags, .unknown typeCode own data⟩ data) = clearExtended own :=
    clearExtended_written ⟨flags, .unknown typeCode own data⟩ data
  have passed := clearExtended_passed (writtenFlags ⟨flags, .unknown typeCode own data⟩ data)
  rw [bits TRANSITIVE (by decide), bits PARTIAL (by decide), cleared] at passed
  constructor
  · rintro ⟨written, read, same, parsed, equal⟩
    cases same
    cases known : AttrType.tryFrom typeCode with
    | some attrType =>
      have kind := parseAttrValue_attrType order (readFrame_known parsed known).2.2
      rw [← upToLength_value equal kind] at kind
      cases kind
    | none =>
      obtain ⟨optional, rfl⟩ := (readFrame_unrecognized known).mp parsed
      simp only [upToLength, PathAttribute.mk.injEq, PathAttrValue.unknown.injEq] at equal
      refine ⟨known, ?_, passed.mp equal.2.2.1, equal.1.symm.trans equal.2.2.1⟩
      rw [← bits OPTIONAL (by decide)]
      exact optional
  · rintro ⟨unknown, optional, marked, same⟩
    refine ⟨data, _, rfl, (readFrame_unrecognized unknown).mpr ⟨?_, rfl⟩, ?_⟩
    · rw [writtenFrame, bits OPTIONAL (by decide)]
      exact optional
    · have back := passed.mpr marked
      simp only [upToLength, writtenFrame, back, same]
      rfl

theorem readsBack_iff (attr : PathAttribute) : ReadsBack order format attr ↔ AttrReadable order format attr := by
  cases kind : attr.value.attrType with
  | some attrType => exact readsBack_known kind
  | none =>
    obtain ⟨typeCode, own, data, shape⟩ := unknown_of_attrType kind
    obtain ⟨flags, value⟩ := attr
    subst shape
    exact readsBack_unknown flags typeCode own data

end

def framesOf (use4byteAsn : Bool) (attrs : List PathAttribute) : List AttrFrame :=
  attrs.filterMap fun attr => (writeAttrValue attr.value use4byteAsn).map (writtenFrame attr)

def RoundTrips (format : MessageFormat) (attrs : List PathAttribute) : Prop :=
  ∀ order, ∃ out, readPathAttributes order (writePathAttributes attrs format.use4byteAsn) format = .ok (out, false) ∧
    out.map PathAttribute.upToLength = attrs.map PathAttribute.upToLength

section

variable {order : HashOrder UInt16} {format : MessageFormat}

variable (attrs : List PathAttribute)

variable {use4byteAsn : Bool}

def EncodedShort (use4byteAsn : Bool) (attrs : List PathAttribute) : Prop :=
  ∀ attr ∈ attrs, (writePathAttribute attr use4byteAsn).length < 2 ^ 16

theorem writePathAttributes_frames {attrs : List PathAttribute} (short : EncodedShort use4byteAsn attrs) :
    writePathAttributes attrs use4byteAsn = (framesOf use4byteAsn attrs).flatMap AttrFrame.bytes := by
  induction attrs with
  | nil => rfl
  | cons attr rest ih =>
    have tail := ih fun other member => short other (mem_cons_of_mem _ member)
    rw [writePathAttributes, flatMap_cons, ← writePathAttributes, tail]
    cases written : writeAttrValue attr.value use4byteAsn with
    | none => simp [framesOf, written, writePathAttribute]
    | some data =>
      have small := writePathAttribute_short written (short attr mem_cons_self)
      rw [writePathAttribute_frame written small]
      simp [framesOf, written]

theorem encodedShort_of_total {attrs : List PathAttribute}
    (short : (writePathAttributes attrs use4byteAsn).length < 2 ^ 16) : EncodedShort use4byteAsn attrs := by
  intro attr member
  have part : (writePathAttribute attr use4byteAsn).Sublist (writePathAttributes attrs use4byteAsn) :=
    sublist_flatten_of_mem (mem_map.mpr ⟨attr, member, rfl⟩)
  exact Nat.lt_of_le_of_lt part.length_le short

theorem framesOf_fit {attrs : List PathAttribute} (short : EncodedShort use4byteAsn attrs) :
    ∀ frame ∈ framesOf use4byteAsn attrs, frame.Fits ∧ frame.bytes.length < 2 ^ 16 := by
  intro frame member
  obtain ⟨attr, inList, made⟩ := mem_filterMap.mp member
  obtain ⟨data, written, rfl⟩ := Option.map_eq_some_iff.mp made
  have whole := short attr inList
  have small := writePathAttribute_short written whole
  rw [writePathAttribute_frame written small] at whole
  exact ⟨writtenFrame_fits small, whole⟩

theorem readPathAttributes_written (short : EncodedShort format.use4byteAsn attrs) :
    readPathAttributes order (writePathAttributes attrs format.use4byteAsn) format =
      ((framesOf format.use4byteAsn attrs).foldlM (applyFrame order format) {} >>= fun final =>
        .ok (final.pathAttributes, final.treatAsWithdraw)) := by
  rw [writePathAttributes_frames short]
  exact readPathAttributes_flatMap order format _ (framesOf_fit short)

theorem applyFrame_written {attr read : PathAttribute} {data : List UInt8} (state : AttrScan)
    (parsed : readFrame order format (writtenFrame attr data) = .ok (.parsed read)) (fresh : attr.typeCode ∉ state.seenTypeCodes) :
    applyFrame order format state (writtenFrame attr data) = .ok { state with
      pathAttributes := state.pathAttributes ++ [read]
      seenTypeCodes := attr.typeCode :: state.seenTypeCodes } := by
  have code : read.typeCode = attr.typeCode := readFrame_typeCode order format _ parsed
  have unseen : state.seenTypeCodes.contains attr.typeCode = false := by simpa using fresh
  simp only [applyFrame, parsed, Checked.ok_bind, recordResult, code, unseen, Bool.false_eq_true, if_false]

theorem foldlM_framesOf (back : ∀ attr ∈ attrs, ReadsBack order format attr) (distinct : (attrs.map typeCode).Nodup) (state : AttrScan)
    (fresh : ∀ attr ∈ attrs, attr.typeCode ∉ state.seenTypeCodes) :
    ∃ out seen, (framesOf format.use4byteAsn attrs).foldlM (applyFrame order format) state =
        .ok { state with pathAttributes := state.pathAttributes ++ out, seenTypeCodes := seen } ∧
      out.map upToLength = attrs.map upToLength := by
  induction attrs generalizing state with
  | nil => exact ⟨[], state.seenTypeCodes, by simp [framesOf], rfl⟩
  | cons attr rest ih =>
    obtain ⟨data, read, written, parsed, same⟩ := back attr mem_cons_self
    obtain ⟨notLater, later⟩ := nodup_cons.mp distinct
    have step := applyFrame_written state parsed (fresh attr mem_cons_self)
    have unseen : ∀ other ∈ rest, other.typeCode ∉ attr.typeCode :: state.seenTypeCodes := by
      intro other member seen
      cases mem_cons.mp seen with
      | inl equal => exact notLater (equal ▸ mem_map_of_mem member)
      | inr older => exact fresh other (mem_cons_of_mem _ member) older
    obtain ⟨out, seen, walked, equal⟩ := ih (fun other member => back other (mem_cons_of_mem _ member)) later
      { state with pathAttributes := state.pathAttributes ++ [read], seenTypeCodes := attr.typeCode :: state.seenTypeCodes }
      unseen
    refine ⟨read :: out, seen, ?_, by rw [map_cons, map_cons, same, equal]⟩
    have frames : framesOf format.use4byteAsn (attr :: rest) = writtenFrame attr data :: framesOf format.use4byteAsn rest := by
      simp [framesOf, written]
    rw [frames, foldlM_cons, step, Checked.ok_bind, walked, append_assoc, singleton_append]

theorem readsBack_of_kept (attrs out : List PathAttribute) (distinct : (attrs.map typeCode).Nodup)
    (same : out.map upToLength = attrs.map upToLength)
    (kept : ∀ read ∈ out, ∃ frame ∈ framesOf format.use4byteAsn attrs, readFrame order format frame = .ok (.parsed read))
    (attr : PathAttribute) (member : attr ∈ attrs) : ReadsBack order format attr := by
  have image : attr.upToLength ∈ out.map upToLength := by
    rw [same]
    exact mem_map_of_mem member
  obtain ⟨read, inOut, equal⟩ := mem_map.mp image
  obtain ⟨frame, inFrames, parsed⟩ := kept read inOut
  obtain ⟨source, inList, made⟩ := mem_filterMap.mp inFrames
  obtain ⟨data, written, rfl⟩ := Option.map_eq_some_iff.mp made
  have codes : source.typeCode = attr.typeCode := by
    rw [← upToLength_typeCode attr, ← equal, upToLength_typeCode, readFrame_typeCode order format _ parsed]
    rfl
  have one : source = attr := inj_on_of_nodup_map distinct inList member codes
  subst one
  exact ⟨data, read, written, parsed, equal⟩

theorem roundTrips_iff_readsBack (distinct : (attrs.map typeCode).Nodup) (short : EncodedShort format.use4byteAsn attrs) :
    RoundTrips format attrs ↔ ∀ attr ∈ attrs, ∀ order, ReadsBack order format attr := by
  constructor
  · intro trips attr member order
    obtain ⟨out, read, same⟩ := trips order
    rw [readPathAttributes_written attrs short] at read
    obtain ⟨final, walked, result⟩ := Checked.of_bind read
    simp only [Checked.ok.injEq, Prod.mk.injEq] at result
    obtain ⟨rfl, -⟩ := result
    exact readsBack_of_kept attrs _ distinct same (reading_of_foldlM _ _ walked).kept attr member
  · intro back order
    obtain ⟨out, seen, walked, same⟩ := foldlM_framesOf attrs (fun attr member => back attr member order) distinct {} (by simp)
    refine ⟨out, ?_, same⟩
    rw [readPathAttributes_written attrs short, walked]
    rfl

end

theorem attrReadable_order (format : MessageFormat) (attr : PathAttribute) : (∀ order, AttrReadable order format attr) ↔
      AttrReadable default format attr ∧ ∀ entry ∈ mpLsNlri attr.value, StableBody entry.nlriType entry.raw := by
  cases kind : attr.value.attrType with
  | some attrType =>
    simp only [attrReadable_known kind]
    constructor
    · intro every
      exact ⟨every default, stable_of_readable fun order => (every order).1⟩
    · intro once order
      exact ⟨readable_of_stable once.1.1 order once.2, once.1.2⟩
  | none =>
    obtain ⟨typeCode, own, data, shape⟩ := unknown_of_attrType kind
    obtain ⟨flags, value⟩ := attr
    subst shape
    simp [AttrReadable, mpLsNlri]

-- An UPDATE's attributes and prefixes come back as they were written, the attributes
-- exactly when each of them has a form that the reader takes.
theorem update_codec_round_trip_iff (format : MessageFormat) (attrs : List PathAttribute)
    (distinct : (attrs.map PathAttribute.typeCode).Nodup) (short : EncodedShort format.use4byteAsn attrs) :
    (RoundTrips format attrs ↔ ∀ attr ∈ attrs, AttrReadable default format attr ∧
      ∀ entry ∈ mpLsNlri attr.value, StableBody entry.nlriType entry.raw) ∧
    ∀ family addPath nlriList, (∀ nlri ∈ nlriList, Writable family addPath nlri) →
      parseNlris family (writeNlriList nlriList) addPath = .ok nlriList := by
  constructor
  · rw [roundTrips_iff_readsBack attrs distinct short]
    simp [readsBack_iff, attrReadable_order]
  · exact parseNlris_writeNlriList

def linkLocalAttrs : List PathAttribute := [⟨TRANSITIVE, .origin .igp⟩,
  ⟨OPTIONAL, .mpReachNlri ⟨.ipv6, .unicast, .ipv6WithLinkLocal 0x20010db8000000000000000000000001 0xfe800000000000000000000000000001,
    [⟨.v6 ⟨0x20010db8000000000000000000000000, 32⟩, none⟩], []⟩⟩]

theorem link_local_announcement_round_trip : RoundTrips PRE_OPEN_FORMAT linkLocalAttrs := by
  have readable : ∀ attr ∈ linkLocalAttrs, AttrReadable default PRE_OPEN_FORMAT attr ∧
      ∀ entry ∈ mpLsNlri attr.value, StableBody entry.nlriType entry.raw := by
    intro attr member
    simp only [linkLocalAttrs, mem_cons, not_mem_nil, or_false] at member
    obtain rfl | rfl := member
    · exact ⟨⟨trivial, by intro attrType kind; cases kind; decide⟩, by intro entry absent; cases absent⟩
    · refine ⟨⟨⟨⟨by decide, by intro v4; cases v4⟩, rfl, ?_⟩, by intro attrType kind; cases kind; decide⟩,
        by intro entry absent; cases absent⟩
      intro nlri only
      rw [mem_singleton.mp only]
      exact (Writable.v6 _ none ⟨by decide, by decide⟩).rewritable
  exact (update_codec_round_trip_iff PRE_OPEN_FORMAT linkLocalAttrs (by decide) (by unfold EncodedShort; decide)).1.mpr readable

def twoUnknown : List UInt8 := [1, 0, 0, 0, 0, 0, 0, 0, 0] ++ [1, 0, 0, 0] ++ [3, 0xe8, 0, 0] ++ [3, 0xe9, 0, 0]

def twoUnknownAttr : PathAttribute :=
  ⟨OPTIONAL, .mpReachNlri ⟨.linkState, .linkState, .ipv4 0x0a000001, [], [⟨3, twoUnknown, decodedBody default 3 twoUnknown, none⟩]⟩⟩

def vpnLinkLocalAttr : PathAttribute := ⟨OPTIONAL, .mpReachNlri ⟨.linkState, .linkStateVpn, .ipv6WithLinkLocal 1 2, [], []⟩⟩

-- An AS4_PATH of confederation segments is read as an empty one, which is written in a form
-- that is refused. An address with its link-local one is written for a VPN, and not
-- read. The descriptors without a name change places.
theorem readable_attributes_lost : readPathAttributes default [OPTIONAL ||| TRANSITIVE, 17, 6, 3, 1, 0, 1, 0, 0] PRE_OPEN_FORMAT =
        .ok ([⟨OPTIONAL ||| TRANSITIVE, .as4Path ⟨[]⟩⟩], false) ∧
      ¬ RoundTrips PRE_OPEN_FORMAT [⟨OPTIONAL ||| TRANSITIVE, .as4Path ⟨[]⟩⟩] ∧
      ¬ RoundTrips PRE_OPEN_FORMAT [vpnLinkLocalAttr] ∧
      readPathAttributes default (writePathAttributes [twoUnknownAttr] false) PRE_OPEN_FORMAT = .ok ([twoUnknownAttr], false) ∧
      ¬ RoundTrips PRE_OPEN_FORMAT [twoUnknownAttr] := by
  refine ⟨by decide +kernel, ?_, ?_, by decide +kernel, ?_⟩
  · intro trips
    obtain ⟨out, read, same⟩ := trips default
    cases read
    cases same
  · intro trips
    obtain ⟨out, read, same⟩ := trips default
    cases read
  · intro trips
    obtain ⟨out, read, same⟩ := trips (HashOrder.reversed default)
    cases read
    exact absurd same (by decide +kernel)

end Bgpgg.Wire
