import Bgpgg.Peer.Export
import Bgpgg.Rib.PathEncoding

namespace Bgpgg.Peer

open Wire Lib Rib List

section

variable (path : Path) (ctx : PeerExportContext)

def PathCounted : Prop := ∀ segment ∈ path.attrs.asPath, SegmentCounted segment

def CountWraps : Prop := ctx.rsClient = false ∧ ctx.isEbgp = true ∧
    ∃ first rest, path.attrs.asPath = first :: rest ∧ first.segmentType = .asSequence ∧ first.asnList.length = 255

theorem buildExportAsPath_eq : buildExportAsPath path ctx =
    if ctx.rsClient = false ∧ ctx.isEbgp = true then prependLocalAsn path.attrs.asPath ctx.localAsn else path.attrs.asPath := by
  rw [buildExportAsPath]
  cases ctx.rsClient with
  | true => rfl
  | false =>
    by_cases fresh : path.source = .localSource ∧ path.attrs.asPath = []
    · rw [fresh.2]
      cases ctx.isEbgp <;> simp [prependLocalAsn]
    · cases ctx.isEbgp <;> simp [fresh]

end

section

variable {path : Path} {ctx : PeerExportContext} {segments : List AsPathSegment}

theorem prependLocalAsn_asns (localAsn : UInt32) :
    (prependLocalAsn segments localAsn).flatMap AsPathSegment.asnList = localAsn :: segments.flatMap AsPathSegment.asnList := by
  cases segments with
  | nil => rfl
  | cons first rest =>
    rw [prependLocalAsn]
    split <;> rfl

theorem prependLocalAsn_counted (localAsn : UInt32) (counted : ∀ segment ∈ segments, SegmentCounted segment)
    (spare : ¬ ∃ first rest, segments = first :: rest ∧ first.segmentType = .asSequence ∧ first.asnList.length = 255) :
    ∀ segment ∈ prependLocalAsn segments localAsn, SegmentCounted segment := by
  have one : SegmentCounted ⟨.asSequence, 1, [localAsn]⟩ := ⟨rfl, cons_ne_nil _ _⟩
  cases segments with
  | nil => exact forall_mem_cons.mpr ⟨one, counted⟩
  | cons first rest =>
    rw [prependLocalAsn]
    split
    · rename_i sequence
      obtain ⟨own, others⟩ := forall_mem_cons.mp counted
      have bound : first.asnList.length < 256 := own.counted ▸ first.segmentLen.toNat_lt
      have free : first.asnList.length ≠ 255 := fun full => spare ⟨first, rest, rfl, sequence, full⟩
      refine forall_mem_cons.mpr ⟨⟨?_, cons_ne_nil _ _⟩, others⟩
      rw [UInt8.toNat_ofNat_of_lt' (by simp only [UInt8.size]; omega), length_cons]
    · exact forall_mem_cons.mpr ⟨one, counted⟩

theorem CountWraps.head (wraps : CountWraps path ctx) :
    ∃ segment rest, buildExportAsPath path ctx = segment :: rest ∧ segment.segmentLen = 0 ∧ segment.asnList ≠ [] := by
  obtain ⟨client, ebgp, first, rest, shape, sequence, full⟩ := wraps
  rw [buildExportAsPath_eq, if_pos ⟨client, ebgp⟩, shape, prependLocalAsn, if_pos sequence, full]
  exact ⟨_, _, rfl, rfl, cons_ne_nil _ _⟩

theorem exported_counted_iff (counted : PathCounted path) :
    (∀ segment ∈ buildExportAsPath path ctx, SegmentCounted segment) ↔ ¬ CountWraps path ctx := by
  constructor
  · intro exported wraps
    obtain ⟨segment, rest, shape, zero, some⟩ := wraps.head
    have own := (exported segment (shape ▸ mem_cons_self)).counted
    rw [zero] at own
    exact some (length_eq_zero_iff.mp own.symm)
  · intro spare
    rw [buildExportAsPath_eq]
    split
    · rename_i prepends
      exact prependLocalAsn_counted _ counted fun full => spare ⟨prepends.1, prepends.2, full⟩
    · exact counted

end

-- The length field of an attribute has two octets: a longer AS_PATH is cut when it is read.
theorem asPath_decoded_iff {segments : List AsPathSegment} (counted : ∀ segment ∈ segments, SegmentCounted segment)
    (order : HashOrder UInt16) {format : MessageFormat} (wide : format.use4byteAsn = true) :
    (∃ flags offset, readPathAttribute order (writePathAttribute ⟨TRANSITIVE, .asPath ⟨segments⟩⟩ true) format =
        .ok (.parsed ⟨flags, .asPath ⟨segments⟩⟩, offset)) ↔
      (writeAsPath ⟨segments⟩ true).length < 2 ^ 16 := by
  constructor
  · rintro ⟨flags, offset, read⟩
    by_contra long
    generalize size : (writeAsPath ⟨segments⟩ true).length % 2 ^ 16 = kept
    have cut : ((writeAsPath ⟨segments⟩ true).take kept).length = kept := length_take_of_le (by omega)
    have length : UInt16.ofNat (writeAsPath ⟨segments⟩ true).length = UInt16.ofNat kept := UInt16.toNat_inj.mp (by simp [← size])
    have framed : writePathAttribute ⟨TRANSITIVE, .asPath ⟨segments⟩⟩ true =
        (⟨TRANSITIVE ||| EXTENDED_LENGTH, 2, (writeAsPath ⟨segments⟩ true).take kept⟩ : AttrFrame).bytes ++
          (writeAsPath ⟨segments⟩ true).drop kept := by
      have above : (writeAsPath ⟨segments⟩ true).length > 255 := by omega
      simp only [AttrFrame.bytes, cut, append_assoc, take_append_drop]
      simp only [writePathAttribute, writeAttrValue, above, length]
      rfl
    have fits : (⟨TRANSITIVE ||| EXTENDED_LENGTH, 2, (writeAsPath ⟨segments⟩ true).take kept⟩ : AttrFrame).Fits := by
      have marked : extendedLen (TRANSITIVE ||| EXTENDED_LENGTH) = true := rfl
      simp only [AttrFrame.Fits, marked, if_true]
      omega
    rw [framed, readPathAttribute_frame _ _ _ _ fits] at read
    obtain ⟨result, parsed, same⟩ := Checked.of_bind read
    cases same
    obtain ⟨-, -, value⟩ := readFrame_known parsed rfl
    obtain ⟨found, scanned, same⟩ := Checked.of_bind value
    cases same
    have whole := congrArg List.length (readAttrAsPath_rewritable _ _ _ ((Checked.silent_eq_ok _ _).mp scanned)).2
    rw [wide, cut] at whole
    omega
  · intro short
    have kind : (⟨TRANSITIVE, .asPath ⟨segments⟩⟩ : PathAttribute).value.attrType = some .asPath := rfl
    have readable : AttrReadable order format ⟨TRANSITIVE, .asPath ⟨segments⟩⟩ := by
      refine (attrReadable_known kind).mpr ⟨?_, expectedFlags_valid .asPath⟩
      intro segment member
      rw [wide]
      exact segmentRewritable_wide (counted segment member)
    obtain ⟨data, attr, written, parsed, same⟩ := (readsBack_known kind).mpr readable
    rw [wide] at written
    cases written
    rw [writePathAttribute_frame rfl short, ← append_nil (AttrFrame.bytes _),
      readPathAttribute_frame _ _ _ _ (writtenFrame_fits short), parsed]
    obtain ⟨flags, value⟩ := attr
    cases (upToLength_value same.symm kind : value = _)
    exact ⟨flags, _, rfl⟩

structure AsPathExported (path : Path) (ctx : PeerExportContext) : Prop where
  counted : ∀ segment ∈ buildExportAsPath path ctx, SegmentCounted segment
  asns : (buildExportAsPath path ctx).flatMap AsPathSegment.asnList =
    (if ctx.rsClient = false ∧ ctx.isEbgp = true then [ctx.localAsn] else []) ++ path.attrs.asPath.flatMap AsPathSegment.asnList
  decoded : ∀ order format, format.use4byteAsn = true → ∃ flags offset,
    readPathAttribute order (writePathAttribute ⟨TRANSITIVE, .asPath ⟨buildExportAsPath path ctx⟩⟩ true) format =
      .ok (.parsed ⟨flags, .asPath ⟨buildExportAsPath path ctx⟩⟩, offset)

theorem as_path_exported_iff (path : Path) (ctx : PeerExportContext) (counted : PathCounted path) :
    AsPathExported path ctx ↔ ¬ CountWraps path ctx ∧ (writeAsPath ⟨buildExportAsPath path ctx⟩ true).length < 2 ^ 16 := by
  have wide : (⟨true, .none, false, false⟩ : MessageFormat).use4byteAsn = true := rfl
  constructor
  · intro exported
    exact ⟨(exported_counted_iff counted).mp exported.counted,
      (asPath_decoded_iff exported.counted default wide).mp (exported.decoded default _ wide)⟩
  · rintro ⟨spare, short⟩
    have exported := (exported_counted_iff counted).mpr spare
    refine ⟨exported, ?_, fun order format wide => (asPath_decoded_iff exported order wide).mpr short⟩
    rw [buildExportAsPath_eq]
    split
    · exact prependLocalAsn_asns _
    · rfl

def routeAlong (asns : List UInt32) : Path := { routeVia (.ipv4 0xc0000207) with
    attrs := { (routeVia (.ipv4 0xc0000207)).attrs with asPath := [⟨.asSequence, UInt8.ofNat asns.length, asns⟩] } }

theorem short_path_exported : AsPathExported (routeAlong [64500]) (unicastSession 64501) := by
  refine (as_path_exported_iff _ _ ?_).mpr ⟨?_, by decide⟩
  · exact forall_mem_singleton.mpr ⟨rfl, cons_ne_nil _ _⟩
  · rintro ⟨-, -, first, rest, shape, -, full⟩
    cases shape
    cases full

theorem full_segment_wraps : PathCounted (routeAlong (List.replicate 255 64500)) ∧
    buildExportAsPath (routeAlong (List.replicate 255 64500)) (unicastSession 64501) =
      [⟨.asSequence, 0, 65000 :: List.replicate 255 64500⟩] := by
  refine ⟨forall_mem_singleton.mpr ⟨?_, cons_ne_nil _ _⟩, ?_⟩
  · rw [length_replicate]
    rfl
  · rw [buildExportAsPath_eq]
    simp only [routeAlong, prependLocalAsn, length_replicate]
    rfl

end Bgpgg.Peer
