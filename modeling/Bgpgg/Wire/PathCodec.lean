import Bgpgg.Wire.AttrSafety

namespace Bgpgg.Wire

open Lib List Checked

section

variable {Item : Type}

variable (write : Item → List UInt8) (size : Nat) (build : List UInt8 → Item) (bytes : List UInt8)

theorem length_flatMap_const (sized : ∀ item, (write item).length = size)
    (items : List Item) : (items.flatMap write).length = items.length * size := by
  induction items with
  | nil => simp
  | cons item rest ih =>
    rw [flatMap_cons, length_append, sized, length_cons, Nat.succ_mul]
    omega

theorem chunksExact_flatMap (sized : ∀ item, (write item).length = size)
    (items : List Item) : chunksExact size items.length (items.flatMap write) = items.map write := by
  induction items with
  | nil => rfl
  | cons item rest ih =>
    rw [length_cons, chunksExact, flatMap_cons, take_left' (sized item), drop_left' (sized item), ih, map_cons]

theorem chunks_flatMap (positive : 0 < size)
    (sized : ∀ item, (write item).length = size) (items : List Item) : chunks size (items.flatMap write) = items.map write := by
  rw [chunks, length_flatMap_const write size sized, Nat.mul_div_cancel _ positive]
  exact chunksExact_flatMap write size sized items

theorem readMultiple_flatMap (size : Nat) (positive : 0 < size)
    (sized : ∀ item, (write item).length = size) (inverse : ∀ item, build (write item) = item) (items : List Item) :
    readMultiple size build (items.flatMap write) = .ok items := by
  have aligned : ¬ (items.flatMap write).length % size ≠ 0 := by
    rw [length_flatMap_const write size sized]
    simp
  rw [readMultiple, if_neg aligned, chunks_flatMap write size positive sized]
  simp [Function.comp_def, inverse]

theorem listLength_valid (positive : 0 < size) (sized : ∀ item, (write item).length = size) {items : List Item} (nonempty : items ≠ []) :
    (decide (0 < (items.flatMap write).length) && (items.flatMap write).length % size == 0) = true := by
  rw [length_flatMap_const write size sized]
  simpa using Nat.mul_pos (length_pos_iff.mpr nonempty) positive

theorem length_chunksExact (size count : Nat) (bytes : List UInt8) : (chunksExact size count bytes).length = count := by
  induction count generalizing bytes with
  | zero => rfl
  | succ count ih => rw [chunksExact, length_cons, ih]

theorem chunks_ne_nil (some : 0 < bytes.length) (aligned : bytes.length % size = 0) : chunks size bytes ≠ [] := by
  intro empty
  have counted := length_chunksExact size (bytes.length / size) bytes
  rw [show chunksExact size (bytes.length / size) bytes = [] from empty, length_nil] at counted
  have whole := Nat.div_add_mod bytes.length size
  rw [← counted] at whole
  omega

theorem readMultiple_ne_nil
    (some : 0 < bytes.length) {items : List Item} (read : readMultiple size build bytes = .ok items) : items ≠ [] := by
  rw [readMultiple] at read
  split at read
  · cases read
  · rename_i aligned
    cases read
    intro empty
    exact chunks_ne_nil size bytes some (not_not.mp aligned) (map_eq_nil_iff.mp empty)

end

def AsnFits (use4byteAsn : Bool) (asn : UInt32) : Prop := use4byteAsn = false → asn ≤ MAX_2BYTE_ASN

structure SegmentRewritable (use4byteAsn : Bool) (segment : AsPathSegment) : Prop where
  counted : segment.segmentLen.toNat = segment.asnList.length
  nonempty : segment.asnList ≠ []
  fits : ∀ asn ∈ segment.asnList, AsnFits use4byteAsn asn

@[simp] theorem length_encodeAsn (asn : UInt32) (use4byteAsn : Bool) : (encodeAsn asn use4byteAsn).length = asnSize use4byteAsn := by
  cases use4byteAsn <;> simp [encodeAsn, asnSize]

theorem u32FromBytes_encodeAsn {asn : UInt32} {use4byteAsn : Bool} (fits : AsnFits use4byteAsn asn) :
    u32FromBytes (encodeAsn asn use4byteAsn) = asn := by
  cases use4byteAsn with
  | true => exact u32FromBytes_u32Bytes asn
  | false =>
    have small : asn.toNat ≤ 65535 := fits rfl
    have low : asn.toUInt16.toNat = asn.toNat := by
      rw [UInt32.toNat_toUInt16]
      omega
    have bound : asn.toNat < 256 ^ 2 := by omega
    rw [encodeAsn, if_neg (by decide), u16Bytes, low, u32FromBytes, fromBe_beBytes, Nat.mod_eq_of_lt bound, UInt32.ofNat_toNat]

theorem asnFits_u32FromBytes (use4byteAsn : Bool) (bytes : List UInt8) (sized : bytes.length = asnSize use4byteAsn) :
    AsnFits use4byteAsn (u32FromBytes bytes) := by
  intro narrow
  subst narrow
  have bound : fromBe bytes < 256 ^ 2 := by
    have below := fromBe_lt bytes
    rw [sized] at below
    exact below
  have wide : fromBe bytes < 2 ^ 32 := by omega
  have exact : (u32FromBytes bytes).toNat = fromBe bytes := UInt32.toNat_ofNat_of_lt' wide
  rw [UInt32.le_iff_toNat_le]
  have limit : MAX_2BYTE_ASN.toNat = 65535 := rfl
  omega

theorem encodeAsn_u32FromBytes (use4byteAsn : Bool) (bytes : List UInt8) (sized : bytes.length = asnSize use4byteAsn) :
    encodeAsn (u32FromBytes bytes) use4byteAsn = bytes := by
  cases use4byteAsn with
  | true => exact u32Bytes_u32FromBytes bytes sized
  | false =>
    have same : (u32FromBytes bytes).toUInt16 = u16FromBytes bytes := by
      simp [u32FromBytes, u16FromBytes]
    rw [encodeAsn, if_neg (by decide), same]
    exact u16Bytes_u16FromBytes bytes sized

theorem length_flatMap_encodeAsn (asnList : List UInt32) (use4byteAsn : Bool) :
    (asnList.flatMap fun asn => encodeAsn asn use4byteAsn).length = asnList.length * asnSize use4byteAsn :=
  length_flatMap_const _ _ (fun asn => length_encodeAsn asn use4byteAsn) asnList

section

variable {use4byteAsn : Bool}

variable (bytes : List UInt8) (path : AsPath) (segment : AsPathSegment)

theorem readAsns_write {asnList : List UInt32} (before rest : List UInt8) (fits : ∀ asn ∈ asnList, AsnFits use4byteAsn asn) :
    readAsns (before ++ (asnList.flatMap fun asn => encodeAsn asn use4byteAsn) ++ rest) (asnSize use4byteAsn) before.length
      asnList.length = .ok asnList := by
  induction asnList generalizing before with
  | nil => rfl
  | cons asn later ih =>
    have shape : before ++ ((asn :: later).flatMap fun asn => encodeAsn asn use4byteAsn) ++ rest =
        (before ++ encodeAsn asn use4byteAsn) ++ (later.flatMap fun asn => encodeAsn asn use4byteAsn) ++ rest := by
      simp
    have inside : before.length + asnSize use4byteAsn ≤
        (before ++ ((asn :: later).flatMap fun asn => encodeAsn asn use4byteAsn) ++ rest).length := by
      rw [shape]
      simp only [length_append, length_encodeAsn]
      omega
    have here : ((before ++ ((asn :: later).flatMap fun asn => encodeAsn asn use4byteAsn) ++ rest).drop before.length).take
        (asnSize use4byteAsn) = encodeAsn asn use4byteAsn := by
      rw [flatMap_cons, append_assoc, append_assoc, drop_left]
      exact take_left' (length_encodeAsn asn use4byteAsn)
    have tail := ih (before ++ encodeAsn asn use4byteAsn) fun other member => fits other (mem_cons_of_mem _ member)
    rw [length_append, length_encodeAsn, ← shape] at tail
    rw [length_cons, readAsns, bytesAt_eq_ok _ _ _ inside, here, tail]
    simp [u32FromBytes_encodeAsn (fits asn mem_cons_self)]

theorem readAsns_sound (pos count : Nat) (inside : pos + count * asnSize use4byteAsn ≤ bytes.length)
    (asnList : List UInt32) (read : readAsns bytes (asnSize use4byteAsn) pos count = .ok asnList) :
    asnList.length = count ∧ (∀ asn ∈ asnList, AsnFits use4byteAsn asn) ∧
      (asnList.flatMap fun asn => encodeAsn asn use4byteAsn) = (bytes.drop pos).take (count * asnSize use4byteAsn) := by
  induction count generalizing pos asnList with
  | zero =>
    cases read
    simp
  | succ count ih =>
    rw [Nat.succ_mul] at inside
    rw [readAsns, bytesAt_eq_ok bytes pos _ (by omega), ok_bind] at read
    obtain ⟨rest, later, same⟩ := of_bind read
    cases same
    obtain ⟨counted, fits, written⟩ := ih (pos + asnSize use4byteAsn) (by omega) rest later
    have sized : ((bytes.drop pos).take (asnSize use4byteAsn)).length = asnSize use4byteAsn :=
      length_take_of_le (by rw [length_drop]; omega)
    refine ⟨by rw [length_cons, counted], forall_mem_cons.mpr ⟨asnFits_u32FromBytes use4byteAsn _ sized, fits⟩, ?_⟩
    rw [flatMap_cons, encodeAsn_u32FromBytes use4byteAsn _ sized, written, Nat.succ_mul, Nat.add_comm (count * _), take_add, drop_drop]

@[simp] theorem segmentType_tryFrom_toU8 (segmentType : AsPathSegmentType) :
    AsPathSegmentType.tryFrom segmentType.toU8 = some segmentType := by
  cases segmentType <;> rfl

theorem segmentType_toU8_tryFrom {byte : UInt8} {segmentType : AsPathSegmentType}
    (known : (Checked.ofOption malformedAsPath (AsPathSegmentType.tryFrom byte) : Parse AsPathSegmentType) = .ok segmentType) :
    segmentType.toU8 = byte := by
  unfold AsPathSegmentType.tryFrom at known
  split_ifs at known with set sequence confedSequence confedSet <;> cases known <;> simp [AsPathSegmentType.toU8, *]

theorem length_writeSegment : (writeSegment use4byteAsn segment).length = 2 + segment.asnList.length * asnSize use4byteAsn := by
  rw [writeSegment, length_append, length_flatMap_encodeAsn]
  rfl

theorem writeSegment_ne_nil : writeSegment use4byteAsn segment ≠ [] := by
  simp [writeSegment]

theorem readSegment_write {segment : AsPathSegment} (rewritable : SegmentRewritable use4byteAsn segment)
    (segments : List AsPathSegment) (rest : List UInt8) :
    readSegment (asnSize use4byteAsn) segments (writeSegment use4byteAsn segment ++ rest) = .ok (segments ++ [segment], rest) := by
  obtain ⟨counted, nonempty, fits⟩ := rewritable
  obtain ⟨segmentType, segmentLen, asnList⟩ := segment
  replace counted : segmentLen.toNat = asnList.length := counted
  have positive : 0 < asnList.length := length_pos_iff.mpr nonempty
  have some : segmentLen ≠ 0 := by
    intro zero
    subst zero
    have empty : 0 = asnList.length := counted
    omega
  have total : (writeSegment use4byteAsn ⟨segmentType, segmentLen, asnList⟩).length = 2 + asnList.length * asnSize use4byteAsn :=
    length_writeSegment _
  have long : ¬ 2 > (writeSegment use4byteAsn ⟨segmentType, segmentLen, asnList⟩ ++ rest).length := by
    rw [length_append]
    omega
  have inside : ¬ 2 + segmentLen.toNat * asnSize use4byteAsn >
      (writeSegment use4byteAsn ⟨segmentType, segmentLen, asnList⟩ ++ rest).length := by
    rw [length_append, counted]
    omega
  have asns := readAsns_write [segmentType.toU8, segmentLen] rest fits
  have typeByte : (byteAt (writeSegment use4byteAsn ⟨segmentType, segmentLen, asnList⟩ ++ rest) 0 : Parse UInt8) =
      .ok segmentType.toU8 := rfl
  have lenByte : (byteAt (writeSegment use4byteAsn ⟨segmentType, segmentLen, asnList⟩ ++ rest) 1 : Parse UInt8) = .ok segmentLen := rfl
  have taken : (writeSegment use4byteAsn ⟨segmentType, segmentLen, asnList⟩ ++ rest).drop
      (2 + segmentLen.toNat * asnSize use4byteAsn) = rest := drop_left' (by rw [total, counted])
  rw [readSegment, typeByte, lenByte]
  simp only [ok_bind, segmentType_tryFrom_toU8, if_neg some, if_neg inside, taken]
  rw [counted]
  have read : readAsns (writeSegment use4byteAsn ⟨segmentType, segmentLen, asnList⟩ ++ rest) (asnSize use4byteAsn) 2
      asnList.length = .ok asnList := asns
  rw [read]
  rfl

theorem readSegment_sound {segments next : List AsPathSegment} {bytes rest : List UInt8}
    (read : readSegment (asnSize use4byteAsn) segments bytes = .ok (next, rest)) :
    ∃ segment, next = segments ++ [segment] ∧ SegmentRewritable use4byteAsn segment ∧
      writeSegment use4byteAsn segment ++ rest = bytes := by
  rw [readSegment] at read
  split at read
  · cases read
  · rename_i long
    obtain ⟨typeByte, byteType, more⟩ := of_bind read
    obtain ⟨segmentType, known, more⟩ := of_bind more
    obtain ⟨segmentLen, byteLen, more⟩ := of_bind more
    split at more
    · cases more
    · rename_i some
      dsimp only at more
      split at more
      · cases more
      · rename_i inside
        obtain ⟨asnList, asns, same⟩ := of_bind more
        cases same
        obtain ⟨counted, fits, written⟩ := readAsns_sound bytes 2 segmentLen.toNat (Nat.not_lt.mp inside) asnList asns
        refine ⟨_, rfl, ⟨counted.symm, ?_, fits⟩, ?_⟩
        · intro empty
          rw [show asnList = [] from empty] at counted
          exact some (UInt8.toNat_inj.mp counted.symm)
        · obtain ⟨first, second, body, rfl⟩ : ∃ first second body, bytes = first :: second :: body := by
            match bytes, long with
            | first :: second :: body, _ => exact ⟨first, second, body, rfl⟩
          cases byteType
          cases byteLen
          rw [writeSegment, written, segmentType_toU8_tryFrom known, Nat.add_comm 2]
          simp

theorem tryReadAsPath_write (rewritable : ∀ segment ∈ path.segments, SegmentRewritable use4byteAsn segment) :
    tryReadAsPath (writeAsPath path use4byteAsn) (asnSize use4byteAsn) = .ok path := by
  have read := scan_items (readSegment_advances (asnSize use4byteAsn) _) (writeSegment use4byteAsn)
    (SegmentRewritable use4byteAsn) writeSegment_ne_nil (fun done _ rest readable => readSegment_write readable done rest)
    path.segments rewritable (Nat.le_refl _)
  rw [tryReadAsPath, writeAsPath, read]
  rfl

theorem tryReadAsPath_sound (read : tryReadAsPath bytes (asnSize use4byteAsn) = .ok path) :
    (∀ segment ∈ path.segments, SegmentRewritable use4byteAsn segment) ∧ writeAsPath path use4byteAsn = bytes := by
  obtain ⟨segments, scanned, same⟩ := of_bind read
  cases same
  have whole := scan_invariant (readSegment_advances (asnSize use4byteAsn) bytes.length)
    (fun done left => (∀ segment ∈ done, SegmentRewritable use4byteAsn segment) ∧
      writeAsPath ⟨done⟩ use4byteAsn ++ left = bytes) ?_ (Nat.le_refl _) (by simp [writeAsPath]) scanned
  · rwa [append_nil] at whole
  · intro state left next rest moved before
    obtain ⟨segment, rfl, rewritable, taken⟩ := readSegment_sound moved
    refine ⟨forall_mem_append.mpr ⟨before.1, forall_mem_singleton.mpr rewritable⟩, ?_⟩
    rw [← before.2, ← taken]
    simp [writeAsPath]

end

@[simp] theorem length_largeCommunity (community : LargeCommunity) : community.toBytes.length = 12 := by
  simp [LargeCommunity.toBytes]

theorem largeCommunity_fromBytes_toBytes (community : LargeCommunity) : LargeCommunity.fromBytes community.toBytes = community := by
  simp only [LargeCommunity.fromBytes, LargeCommunity.toBytes, append_assoc]
  rw [take_left' (length_u32Bytes _), drop_left' (length_u32Bytes _), take_left' (length_u32Bytes _),
    show 8 = 4 + 4 from rfl, ← drop_drop, take_of_length_le (by simp)]
  simp

end Bgpgg.Wire
