import Mathlib.Data.List.Flatten
import Bgpgg.Rib.PathMessage
import Bgpgg.Wire.MessageCodec

namespace Bgpgg.Rib

open Net Wire

structure Relayed (path : Path) : Prop where
  form : ∀ attr ∈ path.attrs.unknownAttrs, ∃ typeCode flags data,
    attr.value = .unknown typeCode flags data ∧ AttrType.tryFrom typeCode = none ∧ flags &&& OPTIONAL ≠ 0
  distinct : (path.attrs.unknownAttrs.map PathAttribute.typeCode).Nodup

structure SegmentCounted (segment : AsPathSegment) : Prop where
  counted : segment.segmentLen.toNat = segment.asnList.length
  nonempty : segment.asnList ≠ []

inductive Announces (path : Path) (format : MessageFormat) : UpdateMessage → Prop where
  | ip (nlriList : List IpNetwork) : Announces path format (UpdateMessage.new path nlriList format)
  | ls (lsNlri : List LsNlri) (afiSafi : AfiSafi) : Announces path format (UpdateMessage.newLs path lsNlri afiSafi format)

end Bgpgg.Rib

namespace Bgpgg.Wire

open Net Lib Rib List UpdateMessage PathAttribute

section

variable (use4byteAsn : Bool) (attr : PathAttribute)

def wireForm : List PathAttribute := if use4byteAsn then if isAs4Attribute attr.value then [] else [attr] else transformForOldSpeaker attr

def wireCodes (code : UInt8) : List UInt8 := if code = AttrType.asPath.toU8 then [code, AttrType.as4Path.toU8]
  else if code = AttrType.aggregator.toU8 then [code, AttrType.as4Aggregator.toU8]
  else [code]

theorem wireAttributes_eq (message : UpdateMessage) :
    message.wireAttributes = message.pathAttributes.flatMap (wireForm message.format.use4byteAsn) := by
  rw [wireAttributes]
  cases message.format.use4byteAsn with
  | true =>
    simp only [if_true]
    induction message.pathAttributes with
    | nil => rfl
    | cons attr rest ih =>
      rw [flatMap_cons, ← ih, filter_cons, wireForm]
      cases isAs4Attribute attr.value <;> simp
  | false => rfl

theorem wireForm_codes : ((wireForm use4byteAsn attr).map PathAttribute.typeCode).Sublist (wireCodes attr.typeCode) := by
  have own : [attr.typeCode].Sublist (wireCodes attr.typeCode) := by
    rw [wireCodes]
    split
    · exact .cons_cons _ (nil_sublist _)
    · split
      · exact .cons_cons _ (nil_sublist _)
      · exact List.Sublist.refl _
  rw [wireForm]
  split
  · split
    · exact nil_sublist _
    · exact own
  · rw [transformForOldSpeaker]
    split
    · rename_i path same
      obtain ⟨flags, value⟩ := attr
      subst same
      rw [transformAsPathForOldSpeaker]
      split
      · exact own
      · dsimp only
        split
        · exact own
        · exact List.Sublist.refl _
    · rename_i aggregator same
      obtain ⟨flags, value⟩ := attr
      subst same
      rw [transformAggregatorForOldSpeaker]
      split
      · exact own
      · exact List.Sublist.refl _
    · exact own

theorem wire_codes {attrs : List PathAttribute} {codes : List UInt8} (inside : (attrs.map PathAttribute.typeCode).Sublist codes) :
    ((attrs.flatMap (wireForm use4byteAsn)).map PathAttribute.typeCode).Sublist (codes.flatMap wireCodes) := by
  rw [map_flatMap]
  refine List.Sublist.trans ?_ (inside.flatMap wireCodes)
  rw [flatMap_map]
  exact List.Sublist.flatMap_right attrs fun attr _ => wireForm_codes use4byteAsn attr

end

def ibgpOnly : AttrType → Bool
  | .localPref | .originatorId | .clusterList => true
  | _ => false

-- Attributes that the old encoding replaces, or that stand for them.
def reshaped : AttrType → Bool
  | .asPath | .aggregator | .as4Path | .as4Aggregator => true
  | _ => false

theorem expectedFlags_valid (attrType : AttrType) : FlagsValid attrType.expectedFlags attrType := by
  cases attrType <;> decide

section

variable {order : HashOrder UInt16} {format : MessageFormat} {attr : PathAttribute}

theorem tolerated_readable (readable : AttrReadable order format attr) : Tolerated order format attr := by
  obtain ⟨data, read, written, parsed, -⟩ := (readsBack_iff attr).mpr readable
  intro other writtenOther
  rw [written] at writtenOther
  cases writtenOther
  exact ⟨_, parsed, by simp⟩

theorem tolerated_unknown {typeCode flags : UInt8} {data : List UInt8} (shape : attr.value = .unknown typeCode flags data)
    (unknown : AttrType.tryFrom typeCode = none) (optional : flags &&& OPTIONAL ≠ 0) : Tolerated order format attr := by
  obtain ⟨own, value⟩ := attr
  subst shape
  intro written same
  cases same
  have kept : writtenFlags ⟨own, .unknown typeCode flags data⟩ data &&& OPTIONAL ≠ 0 := by
    rw [writtenFlags_and _ _ OPTIONAL (by decide)]
    exact optional
  exact ⟨_, (readFrame_unrecognized unknown).mpr ⟨kept, rfl⟩, by simp⟩

theorem readFrame_valid (order : HashOrder UInt16) (format : MessageFormat) {attrType : AttrType}
    (kind : attr.value.attrType = some attrType) (flags : FlagsValid attr.flags attrType)
    (routeless : isMp attrType.toU8 = false) (data : List UInt8) :
    (attributeLengthValid attrType data.length format.use4byteAsn = true ∧
      ∃ value, parseAttrValue order attrType data format = .ok value ∧
        readFrame order format (writtenFrame attr data) = .ok (.parsed ⟨writtenFlags attr data, value⟩)) ∨
    ((attributeLengthValid attrType data.length format.use4byteAsn = true →
        ∀ value, parseAttrValue order attrType data format ≠ .ok value) ∧
      readFrame order format (writtenFrame attr data) = .ok (.malformed (malformedAttrAction attrType format.isEbgp))) := by
  have code : AttrType.tryFrom attr.typeCode = some attrType := by
    rw [typeCode_of_attrType attr.flags kind, attrType_tryFrom_toU8]
  have same := clearExtended_written attr data
  rw [baseFlags_known kind] at same
  have valid := (flagsValid_congr same attrType).mpr flags
  have notReach : attrType ≠ .mpReachNlri := by
    intro reach
    subst reach
    cases routeless
  have noField : mpField attrType data = none := by
    cases attrType <;> first | rfl | cases routeless
  by_cases sized : attributeLengthValid attrType data.length format.use4byteAsn = true
  · have returns := parseAttrValue_faults order sized
    simp only [readFrame, writtenFrame, code, valid, sized, notReach, not_true_eq_false]
    cases parsed : parseAttrValue order attrType data format with
    | ok value => exact .inl ⟨trivial, value, rfl, rfl⟩
    | err error => exact .inr ⟨by simp, rfl⟩
    | fault reason =>
      rw [parsed, noField] at returns
      obtain ⟨family, field, located, -⟩ := returns.mp (Checked.faults_fault reason)
      cases located
  · simp [readFrame, writtenFrame, code, valid, sized]

theorem tolerated_discarded {attrType : AttrType} (kind : attr.value.attrType = some attrType)
    (flags : FlagsValid attr.flags attrType) (routeless : isMp attrType.toU8 = false)
    (discard : malformedAttrAction attrType format.isEbgp = .discard) : Tolerated order format attr := by
  intro data _
  cases readFrame_valid order format kind flags routeless data with
  | inl parsed =>
    obtain ⟨-, value, -, read⟩ := parsed
    exact ⟨_, read, by simp⟩
  | inr malformed =>
    rw [discard] at malformed
    exact ⟨_, malformed.2, by simp⟩

theorem tolerated_asPath_iff (path : AsPath) : Tolerated order format ⟨TRANSITIVE, .asPath path⟩ ↔
    ∃ read, readAttrAsPath (writeAsPath path format.use4byteAsn) format.use4byteAsn = .ok read := by
  have kind : (PathAttribute.mk TRANSITIVE (.asPath path)).value.attrType = some .asPath := rfl
  have outcome := readFrame_valid order format kind (expectedFlags_valid .asPath) rfl (writeAsPath path format.use4byteAsn)
  constructor
  · intro tolerated
    obtain ⟨result, read, fine⟩ := tolerated _ rfl
    cases outcome with
    | inl parsed =>
      obtain ⟨-, value, parse, -⟩ := parsed
      obtain ⟨segments, scanned, -⟩ := Checked.of_bind parse
      exact ⟨segments, (Checked.silent_eq_ok _ _).mp scanned⟩
    | inr malformed =>
      rw [malformed.2] at read
      cases read
      exact absurd rfl fine
  · rintro ⟨segments, scanned⟩
    intro data written
    cases written
    cases outcome with
    | inl parsed =>
      obtain ⟨-, value, -, read⟩ := parsed
      exact ⟨_, read, by simp⟩
    | inr malformed =>
      refine absurd ?_ (malformed.1 rfl (.asPath segments))
      simp [parseAttrValue, scanned]

theorem asPath_read {path : AsPath} (tolerated : Tolerated order format ⟨TRANSITIVE, .asPath path⟩) :
    ∃ read, ReadAs order format ⟨TRANSITIVE, .asPath path⟩ read ∧ read.value.attrType = some .asPath := by
  obtain ⟨result, read, fine⟩ := tolerated _ rfl
  have kind : (PathAttribute.mk TRANSITIVE (.asPath path)).value.attrType = some .asPath := rfl
  cases readFrame_valid order format kind (expectedFlags_valid .asPath) rfl (writeAsPath path format.use4byteAsn) with
  | inl parsed =>
    obtain ⟨-, value, parse, framed⟩ := parsed
    exact ⟨_, ⟨_, rfl, framed⟩, parseAttrValue_attrType order parse⟩
  | inr malformed =>
    rw [malformed.2] at read
    cases read
    exact absurd rfl fine

end

def KNOWN_CODES : List UInt8 := [1, 2, 5, 4, 6, 7, 8, 9, 10, 16, 32]

section

variable {order : HashOrder UInt16} {format : MessageFormat} {path : Path}

variable (use4byteAsn : Bool) (segments : List AsPathSegment) {segment : AsPathSegment}

theorem toList_codes {Field : Type} (field : Option Field) {make : Field → PathAttribute} {code : UInt8}
    (same : ∀ value, (make value).typeCode = code) : ((field.map make).toList.map PathAttribute.typeCode).Sublist [code] := by
  cases field with
  | none => exact nil_sublist _
  | some value =>
    rw [Option.map_some, Option.toList_some, map_singleton, same]

theorem guarded_codes (omitted : Bool) (attr : PathAttribute) :
    ((if omitted then [] else [attr]).map PathAttribute.typeCode).Sublist [attr.typeCode] := by
  cases omitted with
  | true => exact nil_sublist _
  | false => exact List.Sublist.refl _

theorem knownPathAttrs_codes (path : Path) : ((knownPathAttrs path).map PathAttribute.typeCode).Sublist KNOWN_CODES := by
  have atomic : ((if path.attrs.atomicAggregate then [⟨TRANSITIVE, .atomicAggregate⟩] else [] : List PathAttribute).map
      PathAttribute.typeCode).Sublist [6] := by
    cases path.attrs.atomicAggregate with
    | true => exact List.Sublist.refl _
    | false => exact nil_sublist _
  have codes : KNOWN_CODES = [1, 2] ++ [5] ++ [4] ++ [6] ++ [7] ++ [8] ++ [9] ++ [10] ++ [16] ++ [32] := rfl
  rw [codes]
  simp only [knownPathAttrs, map_append]
  repeat' apply List.Sublist.append
  · exact List.Sublist.refl _
  · exact toList_codes _ fun _ => rfl
  · exact toList_codes _ fun _ => rfl
  · exact atomic
  · exact toList_codes _ fun _ => rfl
  · exact guarded_codes _ _
  · exact toList_codes _ fun _ => rfl
  · exact guarded_codes _ _
  · exact guarded_codes _ _
  · exact guarded_codes _ _

theorem knownPathAttrs_valid (order : HashOrder UInt16) (format : MessageFormat) {attr : PathAttribute}
    (member : attr ∈ knownPathAttrs path) :
    ∃ attrType, attr.value.attrType = some attrType ∧ FlagsValid attr.flags attrType ∧ (attr = ⟨TRANSITIVE, .asPath ⟨path.attrs.asPath⟩⟩ ∨
        (∃ aggregator, path.attrs.aggregator = some aggregator ∧ attr = ⟨OPTIONAL ||| TRANSITIVE, .aggregator aggregator⟩) ∨
        (reshaped attrType = false ∧ ((ibgpOnly attrType = true → format.isEbgp = false) → Readable order format attr.value))) := by
  simp only [knownPathAttrs, mem_append, mem_cons, not_mem_nil, or_false, Option.mem_toList, Option.map_eq_some_iff,
    mem_ite_nil_left, mem_ite_nil_right] at member
  obtain (((((((((rfl | rfl) | ⟨pref, -, rfl⟩) | ⟨metric, -, rfl⟩) | ⟨-, rfl⟩) | ⟨aggregator, present, rfl⟩) | ⟨some, rfl⟩) |
    ⟨originator, -, rfl⟩) | ⟨some, rfl⟩) | ⟨some, rfl⟩) | ⟨some, rfl⟩ := member
  · exact ⟨.origin, rfl, expectedFlags_valid .origin, .inr (.inr ⟨rfl, fun _ => trivial⟩)⟩
  · exact ⟨.asPath, rfl, expectedFlags_valid .asPath, .inl rfl⟩
  · exact ⟨.localPref, rfl, expectedFlags_valid .localPref, .inr (.inr ⟨rfl, fun only => only rfl⟩)⟩
  · exact ⟨.multiExtiDisc, rfl, expectedFlags_valid .multiExtiDisc, .inr (.inr ⟨rfl, fun _ => trivial⟩)⟩
  · exact ⟨.atomicAggregate, rfl, expectedFlags_valid .atomicAggregate, .inr (.inr ⟨rfl, fun _ => trivial⟩)⟩
  · exact ⟨.aggregator, rfl, expectedFlags_valid .aggregator, .inr (.inl ⟨aggregator, present, rfl⟩)⟩
  · exact ⟨.communities, rfl, expectedFlags_valid .communities, .inr (.inr ⟨rfl, fun _ => by simpa [Readable] using some⟩)⟩
  · exact ⟨.originatorId, rfl, expectedFlags_valid .originatorId, .inr (.inr ⟨rfl, fun only => only rfl⟩)⟩
  · exact ⟨.clusterList, rfl, expectedFlags_valid .clusterList, .inr (.inr ⟨rfl, fun only => ⟨only rfl, by simpa using some⟩⟩)⟩
  · exact ⟨.extendedCommunities, rfl, expectedFlags_valid .extendedCommunities, .inr (.inr ⟨rfl, fun _ => by simpa [Readable] using some⟩)⟩
  · exact ⟨.largeCommunities, rfl, expectedFlags_valid .largeCommunities, .inr (.inr ⟨rfl, fun _ => by simpa [Readable] using some⟩)⟩

theorem wireForm_plain {attr : PathAttribute} (use4byteAsn : Bool)
    (plain : ∀ attrType, attr.value.attrType = some attrType → reshaped attrType = false) : wireForm use4byteAsn attr = [attr] := by
  obtain ⟨flags, value⟩ := attr
  cases use4byteAsn with
  | true =>
    cases value with
    | as4Path | as4Aggregator => cases plain _ rfl
    | _ => rfl
  | false =>
    cases value with
    | asPath | aggregator => cases plain _ rfl
    | _ => rfl

theorem transSegment_rewritable (counted : SegmentCounted segment) : SegmentRewritable false (transSegment segment) := by
  refine ⟨?_, ?_, ?_⟩
  · rw [transSegment, length_map]
    exact counted.counted
  · simpa [transSegment] using counted.nonempty
  · intro asn member _
    obtain ⟨original, -, same⟩ := mem_map.mp member
    rw [← same]
    split
    · decide
    · rename_i small
      exact UInt32.not_lt.mp small

theorem segmentRewritable_wide (counted : SegmentCounted segment) : SegmentRewritable true segment :=
  ⟨counted.counted, counted.nonempty, fun _ _ narrow => by cases narrow⟩

theorem hasLargeAsn_false {segments : List AsPathSegment} (small : hasLargeAsn ⟨segments⟩ = false)
    (member : segment ∈ segments) {asn : UInt32} (inside : asn ∈ segment.asnList) : asn ≤ MAX_2BYTE_ASN := by
  have fits := any_eq_false.mp (Bool.not_eq_true _ ▸ any_eq_false.mp small segment member) asn inside
  exact UInt32.not_lt.mp (by simpa using fits)

theorem wireForm_asPath (counted : ∀ segment ∈ segments, SegmentCounted segment) :
    ∀ attr ∈ wireForm format.use4byteAsn ⟨TRANSITIVE, .asPath ⟨segments⟩⟩, AttrReadable order format attr := by
  intro attr member
  cases wide : format.use4byteAsn with
  | true =>
    rw [wide] at member
    rw [mem_singleton.mp member, attrReadable_known rfl]
    refine ⟨?_, expectedFlags_valid .asPath⟩
    intro segment inside
    rw [wide]
    exact segmentRewritable_wide (counted segment inside)
  | false =>
    rw [wide, wireForm] at member
    simp only [Bool.false_eq_true, if_false, transformForOldSpeaker, transformAsPathForOldSpeaker] at member
    split at member
    · rename_i small
      rw [mem_singleton.mp member, attrReadable_known rfl]
      refine ⟨?_, expectedFlags_valid .asPath⟩
      intro segment inside
      refine ⟨(counted segment inside).counted, (counted segment inside).nonempty, ?_⟩
      intro asn listed _
      exact hasLargeAsn_false (by simpa using small) inside listed
    · cases mem_cons.mp member with
      | inl same =>
        rw [same, attrReadable_known rfl]
        refine ⟨?_, expectedFlags_valid .asPath⟩
        intro segment inside
        obtain ⟨original, listed, rfl⟩ := mem_map.mp inside
        rw [wide]
        exact transSegment_rewritable (counted original listed)
      | inr extra =>
        split at extra
        · cases extra
        · rename_i some
          rw [mem_singleton.mp extra, attrReadable_known rfl]
          refine ⟨⟨by simpa using some, ?_⟩, expectedFlags_valid .as4Path⟩
          intro segment inside
          obtain ⟨listed, plain⟩ := mem_filter.mp inside
          exact ⟨segmentRewritable_wide (counted segment listed), by simpa using plain⟩

theorem wireForm_aggregator (aggregator : Aggregator) :
    ∀ attr ∈ wireForm format.use4byteAsn ⟨OPTIONAL ||| TRANSITIVE, .aggregator aggregator⟩, AttrReadable order format attr := by
  intro attr member
  cases wide : format.use4byteAsn with
  | true =>
    rw [wide] at member
    rw [mem_singleton.mp member, attrReadable_known rfl]
    refine ⟨?_, expectedFlags_valid .aggregator⟩
    intro narrow
    rw [wide] at narrow
    cases narrow
  | false =>
    rw [wide, wireForm] at member
    simp only [Bool.false_eq_true, if_false, transformForOldSpeaker, transformAggregatorForOldSpeaker] at member
    split at member
    · rename_i small
      rw [mem_singleton.mp member, attrReadable_known rfl]
      exact ⟨fun _ => small, expectedFlags_valid .aggregator⟩
    · cases mem_cons.mp member with
      | inl same =>
        rw [same, attrReadable_known rfl]
        have small : AS_TRANS ≤ MAX_2BYTE_ASN := by decide
        exact ⟨fun _ => small, expectedFlags_valid .aggregator⟩
      | inr extra =>
        rw [mem_singleton.mp extra, attrReadable_known rfl]
        exact ⟨trivial, expectedFlags_valid .as4Aggregator⟩

def wireAsPath (use4byteAsn : Bool) (segments : List AsPathSegment) : AsPath :=
  if !use4byteAsn && hasLargeAsn ⟨segments⟩ then ⟨segments.map transSegment⟩ else ⟨segments⟩

def AsPathScans (use4byteAsn : Bool) (segments : List AsPathSegment) : Prop :=
  ∃ read, readAttrAsPath (writeAsPath (wireAsPath use4byteAsn segments) use4byteAsn) use4byteAsn = .ok read

theorem mem_wireForm_asPath :
    ⟨TRANSITIVE, .asPath (wireAsPath use4byteAsn segments)⟩ ∈ wireForm use4byteAsn ⟨TRANSITIVE, .asPath ⟨segments⟩⟩ ∧
      ∀ attr ∈ wireForm use4byteAsn ⟨TRANSITIVE, .asPath ⟨segments⟩⟩, attr = ⟨TRANSITIVE, .asPath (wireAsPath use4byteAsn segments)⟩ ∨
          ∃ path, attr = ⟨OPTIONAL ||| TRANSITIVE, .as4Path path⟩ := by
  cases use4byteAsn with
  | true =>
    refine ⟨mem_cons_self, ?_⟩
    intro attr member
    exact .inl (mem_singleton.mp member)
  | false =>
    simp only [wireForm, transformForOldSpeaker, transformAsPathForOldSpeaker, wireAsPath,
      Bool.not_false]
    cases large : hasLargeAsn ⟨segments⟩ with
    | false =>
      refine ⟨mem_cons_self, ?_⟩
      intro attr member
      exact .inl (mem_singleton.mp member)
    | true =>
      refine ⟨mem_cons_self, ?_⟩
      intro attr member
      cases mem_cons.mp member with
      | inl same => exact .inl same
      | inr extra =>
        split at extra
        · cases extra
        · exact .inr ⟨_, mem_singleton.mp extra⟩

theorem asPathScans_of_counted (counted : ∀ segment ∈ segments, SegmentCounted segment) : AsPathScans use4byteAsn segments := by
  have readable : AttrReadable default ⟨use4byteAsn, .none, false, false⟩ ⟨TRANSITIVE, .asPath (wireAsPath use4byteAsn segments)⟩ :=
    wireForm_asPath segments counted _ (mem_wireForm_asPath use4byteAsn segments).1
  exact (tolerated_asPath_iff _).mp (tolerated_readable readable)

theorem knownPathAttrs_tolerated (scans : AsPathScans format.use4byteAsn path.attrs.asPath) :
    ∀ attr ∈ (knownPathAttrs path).flatMap (wireForm format.use4byteAsn), Tolerated order format attr := by
  intro attr member
  obtain ⟨source, inKnown, formed⟩ := mem_flatMap.mp member
  obtain ⟨attrType, kind, flags, asPath | aggregator | other⟩ := knownPathAttrs_valid order format inKnown
  · subst asPath
    cases (mem_wireForm_asPath format.use4byteAsn path.attrs.asPath).2 attr formed with
    | inl main =>
      rw [main]
      exact (tolerated_asPath_iff _).mpr scans
    | inr extra =>
      obtain ⟨as4Path, rfl⟩ := extra
      exact tolerated_discarded rfl (expectedFlags_valid .as4Path) rfl rfl
  · obtain ⟨aggregator, -, rfl⟩ := aggregator
    exact tolerated_readable (wireForm_aggregator aggregator attr formed)
  · obtain ⟨plain, readable⟩ := other
    have same : wireForm format.use4byteAsn source = [source] := by
      apply wireForm_plain
      intro own same
      rw [kind] at same
      cases same
      exact plain
    rw [same, mem_singleton] at formed
    subst formed
    by_cases skipped : ibgpOnly attrType = true ∧ format.isEbgp = true
    · obtain ⟨only, ebgp⟩ := skipped
      refine tolerated_discarded kind flags ?_ ?_
      · cases attrType <;> first | rfl | cases only
      · rw [ebgp]
        cases attrType <;> first | rfl | cases only
    · apply tolerated_readable
      rw [attrReadable_known kind]
      refine ⟨readable fun only => ?_, flags⟩
      cases ebgp : format.isEbgp with
      | false => rfl
      | true => exact absurd ⟨only, ebgp⟩ skipped

end

structure Layout (path : Path) (format : MessageFormat) (message : UpdateMessage) (tail : List PathAttribute) : Prop where
  attrs : message.pathAttributes = UpdateMessage.knownPathAttrs path ++ path.attrs.unknownAttrs ++ tail
  kinds : ∀ attr ∈ tail, ∃ attrType, attr.value.attrType = some attrType ∧ reshaped attrType = false
  codes : (tail.map PathAttribute.typeCode).Sublist [3, 14, 29]
  format : message.format = format
  withdrawn : message.withdrawnRoutes = []

section

variable {path : Path} {format : MessageFormat} {message : UpdateMessage} {tail : List PathAttribute}

theorem layout_new (path : Path) (format : MessageFormat) (nlriList : List IpNetwork) :
    Layout path format (UpdateMessage.new path nlriList format)
      (nextHopAttr path (nlriList.filter isIpv4Network) ++ mpReachAttr path (nlriList.filter fun net => !isIpv4Network net) format) := by
  refine ⟨?_, ?_, ?_, rfl, rfl⟩
  · simp [UpdateMessage.new, buildCommonPathAttrs]
  · intro attr member
    simp only [nextHopAttr, mpReachAttr, mem_append] at member
    cases member with
    | inl hop =>
      split at hop
      · exact ⟨.nextHop, by rw [mem_singleton.mp hop]; rfl, rfl⟩
      · cases hop
    | inr reach =>
      split at reach
      · cases reach
      · exact ⟨.mpReachNlri, by rw [mem_singleton.mp reach]; rfl, rfl⟩
  · have codes : ([3, 14, 29] : List UInt8) = [3] ++ [14, 29] := rfl
    rw [codes, map_append]
    apply List.Sublist.append
    · rw [nextHopAttr]
      split
      · exact List.Sublist.refl _
      · exact nil_sublist _
    · rw [mpReachAttr]
      split
      · exact nil_sublist _
      · exact .cons_cons _ (nil_sublist _)

theorem wire_plain (use4byteAsn : Bool) {attrs : List PathAttribute}
    (plain : ∀ attr ∈ attrs, ∀ attrType, attr.value.attrType = some attrType → reshaped attrType = false) :
    attrs.flatMap (wireForm use4byteAsn) = attrs := by
  induction attrs with
  | nil => rfl
  | cons attr rest ih =>
    rw [flatMap_cons, wireForm_plain use4byteAsn (plain attr mem_cons_self),
      ih fun other member => plain other (mem_cons_of_mem _ member), singleton_append]

section

variable (layout : Layout path format message tail) (relayed : Relayed path)

include layout relayed

theorem Layout.wire : message.wireAttributes =
    (knownPathAttrs path).flatMap (wireForm format.use4byteAsn) ++ path.attrs.unknownAttrs ++ tail := by
  have unknown := wire_plain format.use4byteAsn (by
    intro attr member attrType kind
    obtain ⟨typeCode, flags, data, shape, -, -⟩ := relayed.form attr member
    rw [shape] at kind
    cases kind)
  have hops := wire_plain format.use4byteAsn (by
    intro attr member attrType kind
    obtain ⟨own, same, plain⟩ := layout.kinds attr member
    rw [kind] at same
    cases same
    exact plain)
  rw [wireAttributes_eq, layout.format, layout.attrs, flatMap_append, flatMap_append, unknown, hops]

theorem Layout.distinct : (message.wireAttributes.map PathAttribute.typeCode).Nodup := by
  have known := wire_codes format.use4byteAsn (knownPathAttrs_codes path)
  have unassigned : ∀ code ∈ path.attrs.unknownAttrs.map PathAttribute.typeCode, AttrType.tryFrom code = none := by
    intro code member
    obtain ⟨attr, listed, same⟩ := mem_map.mp member
    obtain ⟨typeCode, flags, data, shape, unknown, -⟩ := relayed.form attr listed
    rw [← same, PathAttribute.typeCode, shape]
    exact unknown
  have apart : (KNOWN_CODES.flatMap wireCodes ++ [3, 14, 29]).Nodup := by decide
  have assigned : ∀ code ∈ KNOWN_CODES.flatMap wireCodes ++ [3, 14, 29], AttrType.tryFrom code ≠ none := by
    intro code member
    rw [← Option.isSome_iff_ne_none]
    exact all_eq_true.mp (by decide : ((KNOWN_CODES.flatMap wireCodes ++ [3, 14, 29]).all fun code =>
      (AttrType.tryFrom code).isSome) = true) code member
  rw [layout.wire relayed, map_append, map_append]
  refine List.Nodup.sublist ((known.append (List.Sublist.refl _)).append layout.codes) ?_
  rw [nodup_append, nodup_append]
  refine ⟨⟨(nodup_append.mp apart).1, relayed.distinct, ?_⟩, (nodup_append.mp apart).2.1, ?_⟩
  · intro code field other unknown same
    exact assigned code (mem_append_left _ field) (unassigned code (same ▸ unknown))
  · intro code member other hop same
    cases mem_append.mp member with
    | inl field =>
      subst same
      exact (nodup_append.mp apart).2.2 code field code hop rfl
    | inr unknown =>
      subst same
      exact assigned code (mem_append_right _ hop) (unassigned code unknown)

theorem Layout.tolerated {order : HashOrder UInt16} (scans : AsPathScans format.use4byteAsn path.attrs.asPath)
    (hops : ∀ attr ∈ tail, Tolerated order format attr) :
    ∀ attr ∈ message.wireAttributes, Tolerated order format attr := by
  intro attr member
  rw [layout.wire relayed, mem_append, mem_append] at member
  obtain (known | unknown) | hop := member
  · exact knownPathAttrs_tolerated scans attr known
  · obtain ⟨typeCode, flags, data, shape, unassigned, optional⟩ := relayed.form attr unknown
    exact tolerated_unknown shape unassigned optional
  · exact hops attr hop

end

end

section

variable {Field : Type} {pick : PathAttrValue → Option Field} {attrType : AttrType}

section

variable (attrs : List PathAttribute) (distinct : (attrs.map PathAttribute.typeCode).Nodup)
  (only : ∀ value field, pick value = some field → value.attrType = some attrType)

include distinct only

theorem findSome_iff (field : Field) : (attrs.map value).findSome? pick = some field ↔ ∃ attr ∈ attrs, pick attr.value = some field := by
  constructor
  · intro found
    obtain ⟨value, member, picked⟩ := exists_of_findSome?_eq_some found
    obtain ⟨attr, listed, rfl⟩ := mem_map.mp member
    exact ⟨attr, listed, picked⟩
  · rintro ⟨attr, member, picked⟩
    cases found : (attrs.map value).findSome? pick with
    | none =>
      have nothing := findSome?_eq_none_iff.mp found attr.value (mem_map_of_mem member)
      rw [picked] at nothing
      cases nothing
    | some other =>
      obtain ⟨value, inValues, otherPicked⟩ := exists_of_findSome?_eq_some found
      obtain ⟨source, listed, rfl⟩ := mem_map.mp inValues
      have codes : source.typeCode = attr.typeCode := by
        rw [typeCode_of_attrType source.flags (only _ _ otherPicked),
          typeCode_of_attrType attr.flags (only _ _ picked)]
      have one : source = attr := inj_on_of_nodup_map distinct listed member codes
      rw [← otherPicked, one, picked]

theorem filterMap_eq_toList : (attrs.map value).filterMap pick = ((attrs.map value).findSome? pick).toList := by
  induction attrs with
  | nil => rfl
  | cons attr rest ih =>
    obtain ⟨notLater, later⟩ := nodup_cons.mp distinct
    rw [map_cons, filterMap_cons, findSome?_cons]
    cases picked : pick attr.value with
    | none => exact ih later
    | some field =>
      have nothing : (rest.map value).filterMap pick = [] := by
        rw [filterMap_eq_nil_iff]
        intro value member
        obtain ⟨other, listed, rfl⟩ := mem_map.mp member
        cases otherPicked : pick other.value with
        | none => rfl
        | some otherField =>
          have codes : other.typeCode = attr.typeCode := by
            rw [typeCode_of_attrType other.flags (only _ _ otherPicked),
              typeCode_of_attrType attr.flags (only _ _ picked)]
          exact absurd (mem_map.mpr ⟨other, listed, codes⟩) notLater
      rw [nothing]
      rfl

end

theorem lookup_read {order : HashOrder UInt16} {format : MessageFormat} {attrs out : List PathAttribute}
    (section_ : SectionRead order format attrs out) (only : ∀ value field, pick value = some field → value.attrType = some attrType)
    (readable : ∀ attr ∈ attrs, attr.typeCode = attrType.toU8 → AttrReadable order format attr) (field : Field) :
    (out.map value).findSome? pick = some field ↔ ∃ attr ∈ attrs, pick attr.value = some field := by
  rw [findSome_iff out section_.distinct only]
  constructor
  · rintro ⟨read, member, picked⟩
    obtain ⟨attr, listed, data, written, parsed⟩ := (section_.mem read).mp member
    have kind := only _ _ picked
    have code : attr.typeCode = attrType.toU8 := by
      rw [← typeCode_of_attrType read.flags kind]
      exact (readFrame_typeCode order format _ parsed).symm
    obtain ⟨other, back, writtenBack, parsedBack, same⟩ := (readsBack_iff attr).mpr (readable attr listed code)
    rw [written] at writtenBack
    cases writtenBack
    rw [parsed] at parsedBack
    cases parsedBack
    refine ⟨attr, listed, ?_⟩
    rw [upToLength_value same kind]
    exact picked
  · rintro ⟨attr, listed, picked⟩
    have kind := only _ _ picked
    obtain ⟨data, read, written, parsed, same⟩ :=
      (readsBack_iff attr).mpr (readable attr listed (typeCode_of_attrType attr.flags kind))
    refine ⟨read, (section_.mem read).mpr ⟨attr, listed, data, written, parsed⟩, ?_⟩
    rw [upToLength_value same.symm kind]
    exact picked

end

structure HopsReadable (order : HashOrder UInt16) (format : MessageFormat) (message : UpdateMessage) : Prop where
  readable : ∀ attr ∈ message.pathAttributes,
    attr.value.attrType ∈ [some .nextHop, some .mpReachNlri, some .linkState] → AttrReadable order format attr
  present : ∃ attr ∈ message.pathAttributes, attr.value.attrType ∈ [some .nextHop, some .mpReachNlri]
  routes : ∀ nlri ∈ message.nlriList, Rewritable ipv4Family (format.addPath.contains ipv4Unicast) nlri

section

variable {order : HashOrder UInt16} {format : MessageFormat} {attrs out : List PathAttribute}

variable {attr : PathAttribute} {attrType : AttrType}

theorem SectionRead.kept (section_ : SectionRead order format attrs out) (member : attr ∈ attrs)
    (readable : AttrReadable order format attr) : ∃ read ∈ out, read.upToLength = attr.upToLength := by
  obtain ⟨data, read, written, parsed, same⟩ := (readsBack_iff attr).mpr readable
  exact ⟨read, (section_.mem read).mpr ⟨attr, member, data, written, parsed⟩, same⟩

theorem SectionRead.hasType (section_ : SectionRead order format attrs out) (member : attr ∈ attrs)
    (readable : AttrReadable order format attr) (kind : attr.value.attrType = some attrType) :
    hasValue out (fun value => value.attrType == some attrType) = true := by
  obtain ⟨read, inOut, same⟩ := section_.kept member readable
  refine any_eq_true.mpr ⟨read, inOut, ?_⟩
  rw [beq_iff_eq, ← upToLength_attrType, same, upToLength_attrType, kind]

theorem readAs_parsed {attr read : PathAttribute} (readAs : ReadAs order format attr read) (code : attr.typeCode = attrType.toU8) :
    ∃ data, writeAttrValue attr.value format.use4byteAsn = some data ∧ parseAttrValue order attrType data format = .ok read.value ∧
      (Readable order format read.value ∨ read.value = .as4Path ⟨[]⟩) := by
  obtain ⟨data, written, parsed⟩ := readAs
  have known : AttrType.tryFrom (writtenFrame attr data).typeCode = some attrType := by
    rw [writtenFrame, code, attrType_tryFrom_toU8]
  obtain ⟨-, sized, value⟩ := readFrame_known parsed known
  exact ⟨data, written, value, parseAttrValue_readable attrType data read.value sized value⟩

end

section

variable {path : Path} {format : MessageFormat} {message : UpdateMessage} {tail : List PathAttribute} {hashing : Hashing}

theorem origin_readable (order : HashOrder UInt16) (origin : Origin) : AttrReadable order format ⟨TRANSITIVE, .origin origin⟩ := by
  rw [attrReadable_known rfl]
  exact ⟨trivial, expectedFlags_valid .origin⟩

section

variable (layout : Layout path format message tail)

include layout

variable {attr : PathAttribute} {order : HashOrder UInt16} {attrType : AttrType} {out : List PathAttribute}

theorem Layout.mem_wire (relayed : Relayed path) {source attr : PathAttribute}
    (known : source ∈ knownPathAttrs path) (formed : attr ∈ wireForm format.use4byteAsn source) :
    attr ∈ message.wireAttributes := by
  rw [layout.wire relayed, mem_append, mem_append]
  exact .inl (.inl (mem_flatMap.mpr ⟨source, known, formed⟩))

theorem Layout.origin_wire (relayed : Relayed path) : ⟨TRANSITIVE, .origin path.attrs.origin⟩ ∈ message.wireAttributes := by
  have known : ⟨TRANSITIVE, .origin path.attrs.origin⟩ ∈ knownPathAttrs path := by
    simp [knownPathAttrs]
  apply layout.mem_wire relayed known
  rw [wireForm_plain _ (by intro attrType kind; cases kind; rfl)]
  exact mem_cons_self

theorem Layout.asPath_wire (relayed : Relayed path) :
    ⟨TRANSITIVE, .asPath (wireAsPath format.use4byteAsn path.attrs.asPath)⟩ ∈ message.wireAttributes := by
  have known : ⟨TRANSITIVE, .asPath ⟨path.attrs.asPath⟩⟩ ∈ knownPathAttrs path := by
    simp [knownPathAttrs]
  exact layout.mem_wire relayed known (mem_wireForm_asPath _ _).1

theorem Layout.tail_kind (member : attr ∈ tail) : attr.value.attrType ∈ [some .nextHop, some .mpReachNlri, some .linkState] := by
  obtain ⟨attrType, kind, -⟩ := layout.kinds attr member
  have code := layout.codes.subset (mem_map_of_mem member)
  rw [typeCode_of_attrType attr.flags kind] at code
  rw [kind]
  revert code
  cases attrType <;> decide

theorem Layout.tail_mem (member : attr ∈ tail) : attr ∈ message.pathAttributes := by
  rw [layout.attrs]
  exact mem_append_right _ member

section

variable (relayed : Relayed path)

include relayed

theorem Layout.hop_tail (member : attr ∈ message.pathAttributes)
    (kind : attr.value.attrType ∈ [some .nextHop, some .mpReachNlri, some .linkState]) : attr ∈ tail := by
  rw [layout.attrs, mem_append, mem_append] at member
  obtain (known | unknown) | hop := member
  · have code := (knownPathAttrs_codes path).subset (mem_map_of_mem known)
    obtain ⟨attrType, own, -, -⟩ := knownPathAttrs_valid default format known
    rw [typeCode_of_attrType attr.flags own] at code
    rw [own] at kind
    exfalso
    revert code kind
    cases attrType <;> decide
  · obtain ⟨typeCode, flags, data, shape, -, -⟩ := relayed.form attr unknown
    rw [shape] at kind
    simp [PathAttrValue.attrType] at kind
  · exact hop

theorem Layout.wire_hop (member : attr ∈ message.wireAttributes) (code : attr.typeCode = attrType.toU8)
    (hop : attrType.toU8 ∉ KNOWN_CODES.flatMap wireCodes) : attr ∈ tail := by
  rw [layout.wire relayed, mem_append, mem_append] at member
  obtain (known | unknown) | inTail := member
  · have listed := (wire_codes format.use4byteAsn (knownPathAttrs_codes path)).subset (mem_map_of_mem known)
    rw [code] at listed
    exact absurd listed hop
  · obtain ⟨typeCode, flags, data, shape, unassigned, -⟩ := relayed.form attr unknown
    have codeOf : attr.typeCode = typeCode := by rw [PathAttribute.typeCode, shape]
    rw [← codeOf, code, attrType_tryFrom_toU8] at unassigned
    cases unassigned
  · exact inTail

theorem Layout.hopsReadable (readable : ∀ attr ∈ tail, AttrReadable order format attr)
    (present : ∃ attr ∈ tail, attr.value.attrType ∈ [some .nextHop, some .mpReachNlri])
    (routes : ∀ nlri ∈ message.nlriList, Rewritable ipv4Family (format.addPath.contains ipv4Unicast) nlri) :
    HopsReadable order format message where
  readable := fun attr member kind => readable attr (layout.hop_tail relayed member kind)
  present := by
    obtain ⟨attr, member, kind⟩ := present
    exact ⟨attr, layout.tail_mem member, kind⟩
  routes := routes

theorem Layout.read_hop (section_ : SectionRead order format message.wireAttributes out) {read : PathAttribute} (member : read ∈ out)
      (kind : read.value.attrType = some attrType) (hop : attrType.toU8 ∉ KNOWN_CODES.flatMap wireCodes) :
    ∃ attr ∈ tail, ReadAs order format attr read ∧ attr.typeCode = attrType.toU8 := by
  obtain ⟨attr, inWire, data, written, parsed⟩ := (section_.mem read).mp member
  have code : attr.typeCode = attrType.toU8 := by
    rw [← typeCode_of_attrType read.flags kind]
    exact (readFrame_typeCode order format _ parsed).symm
  exact ⟨attr, layout.wire_hop relayed inWire code hop, ⟨data, written, parsed⟩, code⟩

end

theorem Layout.lookup_hop {Field : Type} {pick : PathAttrValue → Option Field} (relayed : Relayed path)
    (section_ : SectionRead order format message.wireAttributes out) (readable : ∀ attr ∈ tail, AttrReadable order format attr)
    (only : ∀ value field, pick value = some field → value.attrType = some attrType)
    (hop : attrType.toU8 ∉ KNOWN_CODES.flatMap wireCodes) : (out.map value).findSome? pick = (tail.map value).findSome? pick := by
  have apart : (tail.map PathAttribute.typeCode).Nodup := List.Nodup.sublist layout.codes (by decide)
  apply Option.ext
  intro field
  rw [findSome_iff tail apart only, lookup_read section_ only fun attr member code =>
    readable attr (layout.wire_hop relayed member code hop)]
  constructor
  · rintro ⟨attr, member, picked⟩
    have code := typeCode_of_attrType attr.flags (only _ _ picked)
    exact ⟨attr, layout.wire_hop relayed member code hop, picked⟩
  · rintro ⟨attr, member, picked⟩
    refine ⟨attr, ?_, picked⟩
    rw [layout.wire relayed]
    exact mem_append_right _ member

end

theorem attrBytes_ne_nil {attr : PathAttribute} {data : List UInt8} (member : attr ∈ message.wireAttributes)
    (written : writeAttrValue attr.value message.format.use4byteAsn = some data) : (attrBytes message).length ≠ 0 := by
  have part : (writePathAttribute attr message.format.use4byteAsn).Sublist (attrBytes message) :=
    sublist_flatten_of_mem (mem_map.mpr ⟨attr, member, rfl⟩)
  have long := part.length_le
  have header : 2 ≤ (writePathAttribute attr message.format.use4byteAsn).length := by
    simp only [writePathAttribute, written, length_append, length_cons]
    omega
  omega

theorem Layout.delivered (layout : Layout path format message tail) (relayed : Relayed path)
    (scans : AsPathScans format.use4byteAsn path.attrs.asPath) (hops : HopsReadable hashing.tlvs format message)
    (short : (attrBytes message).length < 2 ^ 16) :
    ∃ out, SectionRead hashing.tlvs format message.wireAttributes out ∧ validateWellKnownMandatoryAttributes out = true ∧
      Taken hashing message.toBytes format ⟨0, [], sectionLen (attrBytes message), out, message.nlriList, format⟩ := by
  have same := layout.format
  subst same
  have sizes := encodedShort_of_total short
  obtain ⟨out, read⟩ := readPathAttributes_tolerated (layout.distinct relayed) sizes (layout.tolerated relayed scans fun attr member =>
      tolerated_readable (hops.readable attr (layout.tail_mem member) (layout.tail_kind member)))
  have section_ := (readPathAttributes_read (layout.distinct relayed) sizes read).1
  have routes : parseNlriAfter (attrBytes message) (writeNlriList message.nlriList) message.format = .ok message.nlriList := by
    rw [parseNlriAfter, if_neg (attrBytes_ne_nil (layout.origin_wire relayed) rfl)]
    exact parseNlris_rewritable hops.routes
  suffices mandatory : validateWellKnownMandatoryAttributes out = true from
    ⟨out, section_, mandatory, (taken_iff layout.withdrawn short _).mpr ⟨out, message.nlriList, read, routes, fun _ => mandatory, rfl⟩⟩
  have hasOrigin := section_.hasType (layout.origin_wire relayed) (origin_readable _ _) rfl
  have hasPath : hasValue out (fun value => value.attrType == some .asPath) = true := by
    obtain ⟨scanned, readAs, kind⟩ := asPath_read ((tolerated_asPath_iff _).mpr scans)
    exact any_eq_true.mpr ⟨scanned, (section_.mem scanned).mpr ⟨_, layout.asPath_wire relayed, readAs⟩, beq_iff_eq.mpr kind⟩
  obtain ⟨hop, inAttrs, kind⟩ := hops.present
  have inTail := layout.hop_tail relayed inAttrs (mem_append_left [some AttrType.linkState] kind)
  have hopWire : hop ∈ message.wireAttributes := by
    rw [layout.wire relayed]
    exact mem_append_right _ inTail
  have hopReadable := hops.readable hop inAttrs (layout.tail_kind inTail)
  simp only [validateWellKnownMandatoryAttributes, hasOrigin, hasPath, Bool.true_and, Bool.or_eq_true]
  simp only [mem_cons, not_mem_nil, or_false] at kind
  cases kind with
  | inl nextHop => exact .inl (section_.hasType hopWire hopReadable nextHop)
  | inr mpReach => exact .inr (section_.hasType hopWire hopReadable mpReach)

end

end Bgpgg.Wire
