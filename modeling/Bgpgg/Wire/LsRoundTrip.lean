import Bgpgg.Wire.LsAttrCodec

namespace Bgpgg.Wire

open Net Lib List

def distinguisherLen (entry : LsNlri) : Nat := if entry.routeDistinguisher.isSome then RD_LEN else 0

-- What the parser takes as it was written: a whole distinguisher exactly in the VPN family, a
-- length that fits its field, and the body that the parser makes of the bytes.
structure LsRewritable (order : HashOrder UInt16) (safi : Safi) (entry : LsNlri) : Prop where
  sized : entry.raw.length + distinguisherLen entry < 2 ^ 16
  vpn : entry.routeDistinguisher.isSome = true ↔ safi = .linkStateVpn
  distinguisher : ∀ rd, entry.routeDistinguisher = some rd → rd.length = RD_LEN
  body : entry.body = decodedBody order entry.nlriType entry.raw

section

variable {order : HashOrder UInt16} {safi : Safi}

theorem LsRewritable.parsed {entry : LsNlri} (rewritable : LsRewritable order safi entry) (entries : List LsNlri)
    (rest : List UInt8) : parseLsNlri order safi entries (writeLsNlri entry ++ rest) = .ok (entries ++ [entry], rest) := by
  obtain ⟨sized, vpn, distinguisher, body⟩ := rewritable
  obtain ⟨nlriType, raw, parsedBody, rd⟩ := entry
  cases rd with
  | none =>
    have plain : safi ≠ .linkStateVpn := by simpa using vpn
    have fits : raw.length < 2 ^ 16 := by simpa [distinguisherLen] using sized
    have written : writeLsNlri ⟨nlriType, raw, parsedBody, none⟩ = writeTlvRaw ⟨nlriType, raw⟩ := by
      simp [writeLsNlri, writeTlvRaw]
    rw [written, parseLsNlri_write order safi entries ⟨nlriType, raw⟩ rest fits, pushLsNlri, if_neg plain, ← body]
  | some rd =>
    have isVpn : safi = .linkStateVpn := vpn.mp rfl
    have eight : rd.length = RD_LEN := distinguisher rd rfl
    have total : raw.length + rd.length < 2 ^ 16 := by simpa [distinguisherLen, eight] using sized
    have fits : (rd ++ raw).length < 2 ^ 16 := by
      rw [length_append]
      omega
    have written : writeLsNlri ⟨nlriType, raw, parsedBody, some rd⟩ = writeTlvRaw ⟨nlriType, rd ++ raw⟩ := by
      simp [writeLsNlri, writeTlvRaw, eight, Nat.add_comm]
    have long : ¬ (rd ++ raw).length < RD_LEN := by
      rw [length_append]
      omega
    rw [written, parseLsNlri_write order safi entries ⟨nlriType, rd ++ raw⟩ rest fits, pushLsNlri, if_pos isVpn,
      if_neg long, drop_left' eight, take_left' eight, ← body]

theorem writeLsNlri_ne_nil (entry : LsNlri) : writeLsNlri entry ≠ [] := by
  simp [writeLsNlri, u16Bytes, beBytes]

theorem parseLsNlriList_rewritable {entries : List LsNlri} (rewritable : ∀ entry ∈ entries, LsRewritable order safi entry) :
    parseLsNlriList order (writeLsNlriList entries) safi = .ok entries := by
  exact scan_items (parseLsNlri_advances order safi _) writeLsNlri (LsRewritable order safi) writeLsNlri_ne_nil
    (fun done _ rest readable => readable.parsed done rest) entries rewritable (Nat.le_refl _)

theorem pushLsNlri_rewritable (framed : LsTlv) (entries : List LsNlri) (fits : framed.value.length < 2 ^ 16) :
    ∀ entry ∈ pushLsNlri order safi framed entries, entry ∈ entries ∨ LsRewritable order safi entry := by
  intro entry member
  simp only [pushLsNlri] at member
  split at member
  · rename_i vpn
    split at member
    · exact .inl member
    · rename_i long
      rcases mem_append.mp member with older | last
      · exact .inl older
      · rw [mem_singleton.mp last]
        refine .inr ⟨?_, by simp [vpn], ?_, rfl⟩
        · simp only [distinguisherLen, Option.isSome_some, if_true, length_drop]
          omega
        · intro rd same
          cases same
          exact length_take_of_le (Nat.not_lt.mp long)
  · rename_i plain
    rcases mem_append.mp member with older | last
    · exact .inl older
    · rw [mem_singleton.mp last]
      exact .inr ⟨by simpa [distinguisherLen] using fits, by simp [plain], by simp, rfl⟩

theorem parseLsNlriList_decoded (bytes : List UInt8) (entries : List LsNlri)
    (parsed : parseLsNlriList order bytes safi = .ok entries) : ∀ entry ∈ entries, LsRewritable order safi entry := by
  refine scan_invariant (parseLsNlri_advances order safi bytes.length)
    (fun done _ => ∀ entry ∈ done, LsRewritable order safi entry) ?_ (Nat.le_refl _) (by simp) parsed
  intro state bytes next rest moved before entry member
  obtain ⟨framed, fits, rfl⟩ := parseLsNlri_exact order safi moved
  rw [parseLsNlri_write order safi state framed rest fits] at moved
  cases moved
  rcases pushLsNlri_rewritable framed state fits entry member with older | fresh
  · exact before entry older
  · exact fresh

end

-- Unknown descriptor TLVs are kept grouped by type, in the order the table is walked.

def LsTlv.Unknown (tlv : LsTlv) : Prop := (LsTlvType.fromU16 tlv.tlvType).isNone = true

def OneUnknownType (tlvs : List LsTlv) : Prop :=
  ∀ first ∈ tlvs, ∀ second ∈ tlvs, first.Unknown → second.Unknown → first.tlvType = second.tlvType

theorem unknownTlvs_of_one (first second : HashOrder UInt16) {tlvs : List LsTlv} (one : OneUnknownType tlvs) :
    unknownTlvs first tlvs = unknownTlvs second tlvs := by
  rw [unknownTlvs, unknownTlvs, first.filter_keys_of_single second]
  intro tlvType member otherType otherMember picked otherPicked
  obtain ⟨tlv, inTlvs, rfl⟩ := mem_map.mp member
  obtain ⟨other, otherInTlvs, rfl⟩ := mem_map.mp otherMember
  exact one tlv inTlvs other otherInTlvs picked otherPicked

theorem head_unknown_groups {tlvs : List LsTlv} {types : List UInt16} (present : ∀ tlvType ∈ types, tlvType ∈ tlvs.map LsTlv.tlvType) :
    ((types.flatMap fun tlvType => tlvs.filter fun tlv => tlv.tlvType == tlvType).head?.map LsTlv.tlvType) = types.head? := by
  cases types with
  | nil => rfl
  | cons tlvType rest =>
    obtain ⟨tlv, member, same⟩ := mem_map.mp (present tlvType mem_cons_self)
    have group : tlv ∈ tlvs.filter fun tlv => tlv.tlvType == tlvType := by
      rw [mem_filter]
      exact ⟨member, by simp [same]⟩
    have all : ∀ other ∈ tlvs.filter fun tlv => tlv.tlvType == tlvType, other.tlvType = tlvType := by
      simp
    rw [flatMap_cons]
    generalize tlvs.filter (fun tlv => tlv.tlvType == tlvType) = found at group all
    cases found with
    | nil => cases group
    | cons head tail => simp [all head mem_cons_self]

theorem unknownTlvs_stable_iff (tlvs : List LsTlv) :
    (∀ first second, unknownTlvs first tlvs = unknownTlvs second tlvs) ↔ OneUnknownType tlvs := by
  constructor
  · intro stable first firstIn second secondIn firstUnknown secondUnknown
    by_contra different
    let order : HashOrder UInt16 := default
    let picked : UInt16 → Bool := fun tlvType => (LsTlvType.fromU16 tlvType).isNone
    have distinct := (order.nodup_keys (tlvs.map LsTlv.tlvType)).filter picked
    have here : first.tlvType ∈ (order.keys (tlvs.map LsTlv.tlvType)).filter picked := by
      rw [mem_filter, order.mem_keys]
      exact ⟨mem_map_of_mem firstIn, firstUnknown⟩
    have there : second.tlvType ∈ (order.keys (tlvs.map LsTlv.tlvType)).filter picked := by
      rw [mem_filter, order.mem_keys]
      exact ⟨mem_map_of_mem secondIn, secondUnknown⟩
    have heads := congrArg (fun found : List LsTlv => found.head?.map LsTlv.tlvType) (stable order order.reversed)
    have present : ∀ tlvType ∈ (order.keys (tlvs.map LsTlv.tlvType)).filter picked, tlvType ∈ tlvs.map LsTlv.tlvType := by
      intro tlvType member
      exact (order.mem_keys _ _).mp (mem_filter.mp member).1
    have backwards : (order.reversed.keys (tlvs.map LsTlv.tlvType)).filter picked =
        ((order.keys (tlvs.map LsTlv.tlvType)).filter picked).reverse := filter_reverse
    simp only [unknownTlvs] at heads
    rw [backwards, head_unknown_groups present,
      head_unknown_groups fun tlvType member => present tlvType (mem_reverse.mp member)] at heads
    exact HashOrder.head_reverse_ne distinct here there different heads
  · intro one first second
    exact unknownTlvs_of_one first second one

def LsDescriptors.withUnknown (unknown : List LsTlv) : LsDescriptors → LsDescriptors
  | .node localNode => .node localNode
  | .link localNode remoteNode descriptor => .link localNode remoteNode { descriptor with unknown := unknown }
  | .prefixV4 localNode descriptor => .prefixV4 localNode { descriptor with unknown := unknown }
  | .prefixV6 localNode descriptor => .prefixV6 localNode { descriptor with unknown := unknown }

def LsDescriptors.isNode : LsDescriptors → Bool
  | .node _ => true
  | _ => false

def LsNlriBody.withUnknown (unknown : List LsTlv) (body : LsNlriBody) : LsNlriBody :=
  { body with descriptors := body.descriptors.withUnknown unknown }

theorem withUnknown_inj {body : LsNlriBody} {first second : List LsTlv} (different : body.descriptors.isNode = false)
    (same : body.withUnknown first = body.withUnknown second) : first = second := by
  obtain ⟨protocolId, identifier, descriptors⟩ := body
  cases descriptors with
  | node localNode => cases different
  | link localNode remoteNode descriptor => simpa [LsNlriBody.withUnknown, LsDescriptors.withUnknown] using same
  | prefixV4 localNode descriptor => simpa [LsNlriBody.withUnknown, LsDescriptors.withUnknown] using same
  | prefixV6 localNode descriptor => simpa [LsNlriBody.withUnknown, LsDescriptors.withUnknown] using same

theorem withUnknown_node {body : LsNlriBody} (node : body.descriptors.isNode = true) (unknown : List LsTlv) :
    body.withUnknown unknown = body := by
  obtain ⟨protocolId, identifier, descriptors⟩ := body
  cases descriptors with
  | node localNode => rfl
  | link localNode remoteNode descriptor | prefixV4 localNode descriptor => cases node
  | prefixV6 localNode descriptor => cases node

-- The order of the walk shows in the unknown TLVs and nowhere else.
section

variable (first second : HashOrder UInt16)

theorem parseLsNlriDescriptors_order (nlriType : LsNlriType) (bytes : List UInt8) (tlvs : List LsTlv)
    (parsed : parseTlvList bytes = .ok tlvs) :
    parseLsNlriDescriptors second nlriType bytes = (parseLsNlriDescriptors first nlriType bytes >>= fun descriptors =>
      .ok (descriptors.withUnknown (unknownTlvs second tlvs))) := by
  cases nlriType <;> simp only [parseLsNlriDescriptors, parseLinkDescriptor, parsePrefixDescriptor, parsed, Checked.ok_bind, bind_assoc,
      LsDescriptors.withUnknown]

theorem decodedBody_order (nlriType : UInt16) {raw : List UInt8} {tlvs : List LsTlv}
    (parsed : parseTlvList (raw.drop NLRI_BODY_HEADER_LEN) = .ok tlvs) :
    decodedBody second nlriType raw = (decodedBody first nlriType raw).map (LsNlriBody.withUnknown (unknownTlvs second tlvs)) := by
  simp only [decodedBody]
  cases LsNlriType.fromU16 nlriType with
  | none => rfl
  | some knownType =>
    by_cases short : raw.length < NLRI_BODY_HEADER_LEN
    · simp only [parseLsNlriBody, if_pos short]
      rfl
    · have whole : (raw.drop NLRI_BODY_HEADER_LEN).take (raw.length - NLRI_BODY_HEADER_LEN) = raw.drop NLRI_BODY_HEADER_LEN :=
        take_of_length_le (by rw [length_drop])
      have nine : 1 + 8 ≤ raw.length := Nat.not_lt.mp short
      simp only [parseLsNlriBody, if_neg short, slice_eq_ok raw _ _ ⟨Nat.not_lt.mp short, Nat.le_refl _⟩, whole,
        bytesAt_eq_ok raw 1 8 nine, Checked.ok_bind, parseLsNlriDescriptors_order first second knownType _ tlvs parsed]
      cases (byteAt raw 0 : LsParse UInt8) with
      | ok protocolId => cases parseLsNlriDescriptors first knownType (raw.drop NLRI_BODY_HEADER_LEN) <;> rfl
      | err error | fault reason => rfl

theorem decodedBody_unparsed (order : HashOrder UInt16) (nlriType : UInt16) {raw : List UInt8}
    (unparsed : ∀ tlvs, parseTlvList (raw.drop NLRI_BODY_HEADER_LEN) ≠ .ok tlvs) : decodedBody order nlriType raw = none := by
  simp only [decodedBody]
  cases LsNlriType.fromU16 nlriType with
  | none => rfl
  | some knownType =>
    cases outcome : parseLsNlriBody order knownType raw with
    | err error | fault reason => simp [outcome]
    | ok body =>
      rw [parseLsNlriBody] at outcome
      split at outcome
      · cases outcome
      · rename_i long
        obtain ⟨protocolId, -, more⟩ := Checked.of_bind outcome
        obtain ⟨identifier, -, more⟩ := Checked.of_bind more
        rw [slice_eq_ok raw _ _ ⟨Nat.not_lt.mp long, Nat.le_refl _⟩, take_of_length_le (by rw [length_drop]), Checked.ok_bind] at more
        obtain ⟨descriptors, read, -⟩ := Checked.of_bind more
        obtain ⟨tlvs, parsed, -⟩ := Checked.of_bind read
        exact absurd parsed (unparsed tlvs)

end

-- A link or prefix object whose descriptors can be read has unknown TLVs of one type at most.
def StableBody (nlriType : UInt16) (raw : List UInt8) : Prop :=
  ∀ tlvs body, parseTlvList (raw.drop NLRI_BODY_HEADER_LEN) = .ok tlvs → decodedBody default nlriType raw = some body →
    body.descriptors.isNode = false → OneUnknownType tlvs

theorem decodedBody_stable_iff (nlriType : UInt16) (raw : List UInt8) :
    (∀ first second, decodedBody first nlriType raw = decodedBody second nlriType raw) ↔ StableBody nlriType raw := by
  constructor
  · intro stable tlvs body parsed decoded notNode
    rw [← unknownTlvs_stable_iff]
    intro first second
    have firstBody := decodedBody_order default first nlriType parsed
    have secondBody := decodedBody_order default second nlriType parsed
    rw [stable first second, secondBody, decoded] at firstBody
    exact (withUnknown_inj notNode (Option.some.inj firstBody)).symm
  · intro stable first second
    by_cases unparsed : ∀ tlvs, parseTlvList (raw.drop NLRI_BODY_HEADER_LEN) ≠ .ok tlvs
    · rw [decodedBody_unparsed first nlriType unparsed, decodedBody_unparsed second nlriType unparsed]
    · obtain ⟨tlvs, parsed⟩ := not_forall_not.mp unparsed
      rw [decodedBody_order default first nlriType parsed, decodedBody_order default second nlriType parsed]
      cases decoded : decodedBody default nlriType raw with
      | none => rfl
      | some body =>
        cases node : body.descriptors.isNode with
        | true => simp [withUnknown_node node]
        | false => rw [unknownTlvs_of_one first second (stable tlvs body parsed decoded node)]

end Bgpgg.Wire
