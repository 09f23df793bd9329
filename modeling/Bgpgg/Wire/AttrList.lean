import Bgpgg.Wire.AttrValue

namespace Bgpgg.Wire

open Lib List

inductive PathAttrResult where
  | parsed (attr : PathAttribute)
  | malformed (action : PathAttrError)
deriving DecidableEq, Repr

def readAttrLen (flags : UInt8) (bytes : List UInt8) : Parse UInt16 := if extendedLen flags then do
    let lenBytes ← bytesAt bytes 2 2
    .ok (u16FromBytes lenBytes)
  else do
    let lenByte ← byteAt bytes 2
    .ok (UInt16.ofNat lenByte.toNat)

def parseAttrType (bytes : List UInt8) (flags attrTypeCode : UInt8) (attrLen : UInt16) : Parse (Option AttrType) :=
  match AttrType.tryFrom attrTypeCode with
  | some attrType => .ok (some attrType)
  | none =>
    if flags &&& OPTIONAL = 0 then do
      let attrData ← slice bytes 0 (min (headerLen flags + attrLen.toNat) bytes.length)
      .err ⟨.unrecognizedWellKnownAttribute, attrData⟩
    else .ok none

def flagErrorAction : AttrType → PathAttrError
  | .atomicAggregate | .aggregator => .discard
  | _ => .treatAsWithdraw

section

variable (attr : PathAttribute) (order : HashOrder UInt16) (format : MessageFormat)

def readPathAttribute (bytes : List UInt8) (format : MessageFormat) : Parse (PathAttrResult × UInt16) := do
  let flags ← byteAt bytes 0
  if bytes.length < headerLen flags then .ok (.malformed .treatAsWithdraw, UInt16.ofNat bytes.length)
  else do
    let attrTypeCode ← byteAt bytes 1
    let attrLen ← readAttrLen flags bytes
    let totalOffset := headerLen flags + attrLen.toNat
    if totalOffset > bytes.length then .ok (.malformed .treatAsWithdraw, UInt16.ofNat bytes.length)
    else do
      let knownType ← parseAttrType bytes flags attrTypeCode attrLen
      match knownType with
      | some attrType => do
        let attrBytes ← slice bytes 0 totalOffset
        match validateAttributeFlags flags attrType attrTypeCode attrLen with
        | .err error =>
          if attrType = .mpReachNlri then .err error
          else .ok (.malformed (flagErrorAction attrType), UInt16.ofNat totalOffset)
        | .fault reason => .fault reason
        | .ok () =>
          match validateAttributeLength attrType attrLen attrBytes format.use4byteAsn with
          | .err error =>
            if attrType = .mpReachNlri then .err error
            else .ok (.malformed (malformedAttrAction attrType format.isEbgp), UInt16.ofNat totalOffset)
          | .fault reason => .fault reason
          | .ok () => do
            let attrData ← slice bytes (headerLen flags) totalOffset
            let value ← (parseAttrValue order attrType attrData format).optional
            match value with
            | some value => .ok (.parsed ⟨flags, value⟩, UInt16.ofNat totalOffset)
            | none =>
              if attrType = .mpReachNlri then .err ⟨.optionalAttributeError, attrBytes⟩
              else .ok (.malformed (malformedAttrAction attrType format.isEbgp), UInt16.ofNat totalOffset)
      | none => do
        let data ← slice bytes (headerLen flags) totalOffset
        let flags := if flags &&& TRANSITIVE ≠ 0 then flags ||| PARTIAL else flags
        .ok (.parsed ⟨flags, .unknown attrTypeCode flags data⟩, UInt16.ofNat totalOffset)

structure AttrScan where
  pathAttributes : List PathAttribute := []
  seenTypeCodes : List UInt8 := []
  treatAsWithdraw : Bool := false
deriving DecidableEq, Repr

def malformedAttributeList : ParserError := ⟨.malformedAttributeList, []⟩

def isMp (typeCode : UInt8) : Bool := typeCode == AttrType.mpReachNlri.toU8 || typeCode == AttrType.mpUnreachNlri.toU8

def recordResult (state : AttrScan) : PathAttrResult → Parse AttrScan
  | .parsed attr =>
    if state.seenTypeCodes.contains attr.typeCode then
      if isMp attr.typeCode then .err malformedAttributeList else .ok state
    else .ok { state with
      pathAttributes := state.pathAttributes ++ [attr]
      seenTypeCodes := attr.typeCode :: state.seenTypeCodes }
  | .malformed .treatAsWithdraw => .ok { state with treatAsWithdraw := true }
  | .malformed .discard => .ok state

def readNextAttribute (state : AttrScan) (bytes : List UInt8) : Parse (AttrScan × List UInt8) := do
  let (result, offset) ← readPathAttribute order bytes format
  let next ← recordResult state result
  .ok (next, bytes.drop offset.toNat)

def readPathAttributes (bytes : List UInt8) (format : MessageFormat) : Parse (List PathAttribute × Bool) := do
  let final ← scan (readNextAttribute order format) {} bytes
  .ok (final.pathAttributes, final.treatAsWithdraw)

def baseFlags : UInt8 := match attr.value with
  | .unknown _ flags _ => flags
  | _ => attr.flags

def writePathAttribute (use4byteAsn : Bool) : List UInt8 := match writeAttrValue attr.value use4byteAsn with
  | none => []
  | some value =>
    let extended := value.length > 255 || extendedLen (baseFlags attr)
    let flags := if extended then baseFlags attr ||| EXTENDED_LENGTH else baseFlags attr
    [flags, attr.typeCode] ++ (if extended then u16Bytes (UInt16.ofNat value.length) else [UInt8.ofNat value.length]) ++ value

def writePathAttributes (attrs : List PathAttribute) (use4byteAsn : Bool) : List UInt8 :=
  attrs.flatMap fun attr => writePathAttribute attr use4byteAsn

-- How an attribute section is laid out, apart from what its attributes mean.
structure AttrFrame where
  flags : UInt8
  typeCode : UInt8
  data : List UInt8
deriving DecidableEq, Repr

def AttrFrame.bytes (frame : AttrFrame) : List UInt8 :=
  attributeHeader frame.flags frame.typeCode (UInt16.ofNat frame.data.length) ++ frame.data

def AttrFrame.Fits (frame : AttrFrame) : Prop := frame.data.length < if extendedLen frame.flags then 2 ^ 16 else 2 ^ 8

def splitFrame : List UInt8 → Option (AttrFrame × List UInt8)
  | flags :: typeCode :: rest =>
    let lenSize := headerLen flags - 2
    let attrLen := fromBe (rest.take lenSize)
    let body := rest.drop lenSize
    if rest.length < lenSize ∨ body.length < attrLen then none
    else some (⟨flags, typeCode, body.take attrLen⟩, body.drop attrLen)
  | _ => none

def framesWithin : Nat → List UInt8 → List AttrFrame × List UInt8
  | 0, bytes => ([], bytes)
  | fuel + 1, bytes =>
    match splitFrame bytes with
    | none => ([], bytes)
    | some (frame, rest) => (frame :: (framesWithin fuel rest).1, (framesWithin fuel rest).2)

def attrFrames (bytes : List UInt8) : List AttrFrame := (framesWithin bytes.length bytes).1

def attrTail (bytes : List UInt8) : List UInt8 := (framesWithin bytes.length bytes).2

def readFrame (frame : AttrFrame) : Parse PathAttrResult := match AttrType.tryFrom frame.typeCode with
  | none =>
    if frame.flags &&& OPTIONAL = 0 then .err ⟨.unrecognizedWellKnownAttribute, frame.bytes⟩
    else
      let flags := if frame.flags &&& TRANSITIVE ≠ 0 then frame.flags ||| PARTIAL else frame.flags
      .ok (.parsed ⟨flags, .unknown frame.typeCode flags frame.data⟩)
  | some attrType =>
    if ¬ FlagsValid frame.flags attrType then
      if attrType = .mpReachNlri then
        .err ⟨.attributeFlagsError, attributeHeader frame.flags frame.typeCode (UInt16.ofNat frame.data.length)⟩
      else .ok (.malformed (flagErrorAction attrType))
    else if ¬ attributeLengthValid attrType frame.data.length format.use4byteAsn then
      .ok (.malformed (malformedAttrAction attrType format.isEbgp))
    else
      match parseAttrValue order attrType frame.data format with
      | .ok value => .ok (.parsed ⟨frame.flags, value⟩)
      | .err () =>
        if attrType = .mpReachNlri then .err ⟨.optionalAttributeError, frame.bytes⟩
        else .ok (.malformed (malformedAttrAction attrType format.isEbgp))
      | .fault reason => .fault reason

def applyFrame (state : AttrScan) (frame : AttrFrame) : Parse AttrScan := do
  let result ← readFrame order format frame
  recordResult state result

end

section

variable (flags : UInt8) (order : HashOrder UInt16) (frame : AttrFrame) (rest : List UInt8) (format : MessageFormat)
  (frames : List AttrFrame) (state : AttrScan) (bytes : List UInt8)

theorem headerLen_pos : 3 ≤ headerLen flags ∧ headerLen flags ≤ 4 := by
  unfold headerLen
  split <;> omega

theorem length_attributeHeader (flags typeCode : UInt8) (attrLen : UInt16) :
    (attributeHeader flags typeCode attrLen).length = headerLen flags := by
  unfold attributeHeader headerLen
  split <;> simp

theorem length_attrFrame_bytes : frame.bytes.length = headerLen frame.flags + frame.data.length := by
  rw [AttrFrame.bytes, length_append, length_attributeHeader]

theorem attrLen_lt : fromBe (rest.take (headerLen flags - 2)) < if extendedLen flags then 2 ^ 16 else 2 ^ 8 := by
  have below := fromBe_lt (rest.take (headerLen flags - 2))
  have short : (rest.take (headerLen flags - 2)).length ≤ headerLen flags - 2 := length_take_le _ _
  have power := Nat.pow_le_pow_right (show 0 < 256 by decide) short
  unfold headerLen at below short power ⊢
  split at power <;> simp_all <;> omega

theorem attributeHeader_of_len {flags : UInt8} (typeCode : UInt8) {lenBytes : List UInt8} (exact : lenBytes.length = headerLen flags - 2) :
    attributeHeader flags typeCode (UInt16.ofNat (fromBe lenBytes)) = flags :: typeCode :: lenBytes := by
  unfold attributeHeader headerLen at *
  cases extended : extendedLen flags with
  | true =>
    rw [extended] at exact
    exact congrArg (fun tail => flags :: typeCode :: tail) (u16Bytes_u16FromBytes lenBytes exact)
  | false =>
    rw [extended] at exact
    obtain ⟨byte, rfl⟩ := length_eq_one_iff.mp exact
    have small : fromBe [byte] = byte.toNat := by simp [fromBe]
    rw [small]
    simp

theorem splitFrame_exact {bytes rest : List UInt8} {frame : AttrFrame} (split : splitFrame bytes = some (frame, rest)) :
    frame.Fits ∧ bytes = frame.bytes ++ rest := by
  unfold splitFrame at split
  split at split
  · rename_i flags typeCode tail
    dsimp only at split
    split at split
    · cases split
    · have bounds : headerLen flags - 2 ≤ tail.length ∧
          fromBe (tail.take (headerLen flags - 2)) ≤ (tail.drop (headerLen flags - 2)).length := by omega
      obtain ⟨rfl, rfl⟩ := split
      have dataLen : ((tail.drop (headerLen flags - 2)).take (fromBe (tail.take (headerLen flags - 2)))).length =
          fromBe (tail.take (headerLen flags - 2)) := length_take_of_le bounds.2
      refine ⟨?_, ?_⟩
      · unfold AttrFrame.Fits
        rw [dataLen]
        exact attrLen_lt flags tail
      · unfold AttrFrame.bytes
        rw [dataLen, attributeHeader_of_len typeCode (length_take_of_le bounds.1)]
        rw [append_assoc, take_append_drop, cons_append, cons_append, take_append_drop]
  · cases split

theorem splitFrame_bytes (fits : frame.Fits) : splitFrame (frame.bytes ++ rest) = some (frame, rest) := by
  obtain ⟨flags, typeCode, data⟩ := frame
  unfold AttrFrame.Fits at fits
  cases extended : extendedLen flags with
  | true =>
    simp only [extended] at fits
    have decoded : fromBe (u16Bytes (UInt16.ofNat data.length)) = data.length := by
      rw [u16Bytes, fromBe_beBytes, UInt16.toNat_ofNat_of_lt' fits]
      exact Nat.mod_eq_of_lt fits
    simp only [AttrFrame.bytes, attributeHeader, extended, if_true, cons_append, nil_append, append_assoc, splitFrame, headerLen]
    have whole : ¬ ((u16Bytes (UInt16.ofNat data.length) ++ (data ++ rest)).length < 4 - 2 ∨ (data ++ rest).length < data.length) := by
      rw [length_append, length_u16Bytes, length_append]
      omega
    rw [take_left' (length_u16Bytes _), drop_left' (length_u16Bytes _), decoded, if_neg whole, take_left, drop_left]
  | false =>
    simp only [extended, Bool.false_eq_true] at fits
    have wide : data.length < 2 ^ 16 := Nat.lt_trans fits (by decide)
    have decoded : fromBe [UInt8.ofNat (UInt16.ofNat data.length).toNat] = data.length := by
      rw [UInt16.toNat_ofNat_of_lt' wide]
      simp only [fromBe, length_nil, Nat.pow_zero, Nat.mul_one]
      exact UInt8.toNat_ofNat_of_lt' fits
    simp only [AttrFrame.bytes, attributeHeader, extended, Bool.false_eq_true, if_false, cons_append,
      nil_append, splitFrame, headerLen, take_succ_cons, take_zero, decoded]
    simp

theorem readAttrLen_eq {flags : UInt8} (first typeCode : UInt8) {rest : List UInt8} (header : headerLen flags - 2 ≤ rest.length) :
    readAttrLen flags (first :: typeCode :: rest) = .ok (UInt16.ofNat (fromBe (rest.take (headerLen flags - 2)))) := by
  unfold readAttrLen
  unfold headerLen at header ⊢
  cases extended : extendedLen flags with
  | true =>
    rw [extended] at header
    have two : 2 + 2 ≤ (first :: typeCode :: rest).length := by
      simp only [length_cons]
      simp only [if_true] at header
      omega
    rw [bytesAt_eq_ok _ 2 2 two]
    rfl
  | false =>
    rw [extended] at header
    cases rest with
    | nil => simp at header
    | cons lenByte rest => simp [fromBe]

theorem readPathAttribute_truncated (format : MessageFormat) (nonempty : bytes ≠ []) (truncated : splitFrame bytes = none) :
    readPathAttribute order bytes format = .ok (.malformed .treatAsWithdraw, UInt16.ofNat bytes.length) := by
  cases bytes with
  | nil => exact absurd rfl nonempty
  | cons flags tail =>
    have three := headerLen_pos flags
    simp only [readPathAttribute, byteAt_cons_zero, Checked.ok_bind]
    cases tail with
    | nil => rw [if_pos (by simp only [length_cons, length_nil]; omega)]
    | cons typeCode rest =>
      by_cases short : (flags :: typeCode :: rest).length < headerLen flags
      · rw [if_pos short]
      · have header : headerLen flags - 2 ≤ rest.length := by
          simp only [length_cons] at short
          omega
        have overrun : (rest.drop (headerLen flags - 2)).length < fromBe (rest.take (headerLen flags - 2)) := by
          simp only [splitFrame] at truncated
          split at truncated
          · omega
          · cases truncated
        have wide : fromBe (rest.take (headerLen flags - 2)) < 2 ^ 16 := by
          have bound := attrLen_lt flags rest
          split at bound <;> omega
        rw [if_neg short]
        simp only [byteAt_cons_succ, byteAt_cons_zero, Checked.ok_bind, readAttrLen_eq flags typeCode header]
        rw [if_pos]
        rw [UInt16.toNat_ofNat_of_lt' wide]
        simp only [length_cons, length_drop] at overrun ⊢
        omega

theorem readPathAttribute_frame (fits : frame.Fits) : readPathAttribute order (frame.bytes ++ rest) format =
      (readFrame order format frame >>= fun result => .ok (result, UInt16.ofNat frame.bytes.length)) := by
  have whole := length_attrFrame_bytes frame
  have wide : frame.data.length < 2 ^ 16 := by
    unfold AttrFrame.Fits at fits
    split at fits <;> omega
  have long : ¬ (frame.bytes ++ rest).length < headerLen frame.flags := by
    rw [length_append]
    omega
  have inside : ¬ headerLen frame.flags + frame.data.length > (frame.bytes ++ rest).length := by
    rw [length_append]
    omega
  have attrBytes : (slice (frame.bytes ++ rest) 0 (headerLen frame.flags + frame.data.length) : Parse (List UInt8)) =
      .ok frame.bytes := by
    rw [slice_eq_ok _ _ _ ⟨Nat.zero_le _, Nat.not_lt.mp inside⟩, drop_zero, Nat.sub_zero, ← whole, take_left]
  have attrData : (slice (frame.bytes ++ rest) (headerLen frame.flags) (headerLen frame.flags + frame.data.length) :
      Parse (List UInt8)) = .ok frame.data := by
    rw [slice_eq_ok _ _ _ ⟨Nat.le_add_right _ _, Nat.not_lt.mp inside⟩, Nat.add_sub_cancel_left, AttrFrame.bytes,
      append_assoc, drop_left' (length_attributeHeader _ _ _), take_left]
  have flagsByte : (byteAt (frame.bytes ++ rest) 0 : Parse UInt8) = .ok frame.flags := rfl
  have codeByte : (byteAt (frame.bytes ++ rest) 1 : Parse UInt8) = .ok frame.typeCode := rfl
  have lenField : readAttrLen frame.flags (frame.bytes ++ rest) = .ok (UInt16.ofNat frame.data.length) := by
    have split := splitFrame_bytes frame rest fits
    have shape : frame.bytes ++ rest = frame.flags :: frame.typeCode :: ((frame.bytes ++ rest).drop 2) := rfl
    have header : headerLen frame.flags - 2 ≤ ((frame.bytes ++ rest).drop 2).length := by
      rw [length_drop]
      omega
    rw [shape, readAttrLen_eq _ _ header]
    rw [shape, splitFrame] at split
    split at split
    · cases split
    · simp only [Option.some.injEq, Prod.mk.injEq] at split
      have dataLen := congrArg (fun found : AttrFrame => found.data.length) split.1
      rw [length_take_of_le (by omega)] at dataLen
      rw [dataLen]
  simp only [readPathAttribute, flagsByte, codeByte, lenField, Checked.ok_bind, if_neg long,
    UInt16.toNat_ofNat_of_lt' wide, if_neg inside, parseAttrType, readFrame]
  cases known : AttrType.tryFrom frame.typeCode with
  | none =>
    by_cases wellKnown : frame.flags &&& OPTIONAL = 0
    · rw [Nat.min_eq_left (Nat.not_lt.mp inside), attrBytes]
      simp [if_pos wellKnown]
    · simp [if_neg wellKnown, attrData, whole]
  | some attrType =>
    simp only [Checked.ok_bind, attrBytes, validateAttributeFlags_eq, validateAttributeLength, attrData,
      UInt16.toNat_ofNat_of_lt' wide, whole]
    by_cases valid : FlagsValid frame.flags attrType
    · simp only [valid, not_true_eq_false]
      by_cases sized : attributeLengthValid attrType frame.data.length format.use4byteAsn = true
      · simp only [sized, if_true, not_true_eq_false]
        cases parseAttrValue order attrType frame.data format with
        | ok value => rfl
        | err error =>
          split <;> rfl
        | fault reason => rfl
      · have notReach : attrType ≠ .mpReachNlri := by
          intro reach
          subst reach
          exact sized rfl
        simp [sized, notReach]
    · simp only [valid, not_false_eq_true]
      by_cases reach : attrType = .mpReachNlri <;> simp [reach]

theorem AttrFrame.bytes_ne_nil : frame.bytes ≠ [] := by
  unfold AttrFrame.bytes attributeHeader
  simp

theorem splitFrame_shorter {bytes rest : List UInt8} {frame : AttrFrame} (split : splitFrame bytes = some (frame, rest)) :
    rest.length < bytes.length := by
  obtain ⟨-, rfl⟩ := splitFrame_exact split
  have positive := length_pos_iff.mpr frame.bytes_ne_nil
  rw [length_append]
  omega

theorem framesWithin_fuel (fuel : Nat) (bytes : List UInt8) (enough : bytes.length ≤ fuel) :
    framesWithin fuel bytes = framesWithin bytes.length bytes := by
  induction fuel using Nat.strongRecOn generalizing bytes with
  | _ fuel ih =>
    cases fuel with
    | zero => rw [Nat.le_zero.mp enough]
    | succ fuel =>
      cases split : splitFrame bytes with
      | none =>
        cases bytes with
        | nil => rfl
        | cons byte rest => simp [framesWithin, split]
      | some found =>
        obtain ⟨frame, rest⟩ := found
        have shorter := splitFrame_shorter split
        obtain ⟨count, count_eq⟩ : ∃ count, bytes.length = count + 1 := ⟨bytes.length - 1, by omega⟩
        rw [count_eq]
        simp only [framesWithin, split]
        rw [ih fuel (by omega) rest (by omega)]
        by_cases same : count = fuel
        · rw [same, ih fuel (by omega) rest (by omega)]
        · rw [ih count (by omega) rest (by omega)]

theorem attrFrames_none (split : splitFrame bytes = none) : attrFrames bytes = [] ∧ attrTail bytes = bytes := by
  unfold attrFrames attrTail
  cases bytes with
  | nil => exact ⟨rfl, rfl⟩
  | cons byte rest =>
    simp only [framesWithin, length_cons, split]
    exact ⟨trivial, trivial⟩

theorem attrFrames_some {bytes rest : List UInt8} {frame : AttrFrame} (split : splitFrame bytes = some (frame, rest)) :
    attrFrames bytes = frame :: attrFrames rest ∧ attrTail bytes = attrTail rest := by
  have shorter := splitFrame_shorter split
  obtain ⟨count, count_eq⟩ : ∃ count, bytes.length = count + 1 := ⟨bytes.length - 1, by omega⟩
  unfold attrFrames attrTail
  rw [count_eq]
  simp only [framesWithin, split]
  rw [framesWithin_fuel count rest (by omega)]
  exact ⟨rfl, rfl⟩

@[simp] theorem attrFrames_nil : attrFrames [] = [] := rfl

@[simp] theorem attrTail_nil : attrTail [] = [] := rfl

theorem attrFrames_frame (fits : frame.Fits) :
    attrFrames (frame.bytes ++ rest) = frame :: attrFrames rest ∧ attrTail (frame.bytes ++ rest) = attrTail rest :=
  attrFrames_some (splitFrame_bytes frame rest fits)

theorem frames_induct (holds : List UInt8 → Prop) (finished : holds [])
    (truncated : ∀ bytes, bytes ≠ [] → splitFrame bytes = none → holds bytes)
    (framed : ∀ (frame : AttrFrame) rest, frame.Fits → holds rest → holds (frame.bytes ++ rest)) (bytes : List UInt8) :
    holds bytes := by
  generalize exact : bytes.length = length
  induction length using Nat.strongRecOn generalizing bytes with
  | _ length ih =>
    by_cases empty : bytes = []
    · rw [empty]
      exact finished
    · cases split : splitFrame bytes with
      | none => exact truncated bytes empty split
      | some found =>
        obtain ⟨frame, rest⟩ := found
        have shorter := splitFrame_shorter split
        obtain ⟨fits, whole⟩ := splitFrame_exact split
        rw [whole]
        exact framed frame rest fits (ih rest.length (by omega) rest rfl)

theorem attrFrames_layout : bytes = (attrFrames bytes).flatMap AttrFrame.bytes ++ attrTail bytes ∧
      (∀ frame ∈ attrFrames bytes, frame.Fits) ∧ splitFrame (attrTail bytes) = none := by
  refine frames_induct (fun bytes => bytes = (attrFrames bytes).flatMap AttrFrame.bytes ++ attrTail bytes ∧
    (∀ frame ∈ attrFrames bytes, frame.Fits) ∧ splitFrame (attrTail bytes) = none) ?_ ?_ ?_ bytes
  · exact ⟨rfl, by simp, rfl⟩
  · intro bytes _ split
    obtain ⟨frames, tail⟩ := attrFrames_none bytes split
    rw [frames, tail]
    exact ⟨rfl, by simp, split⟩
  · rintro frame rest fits ⟨whole, allFit, last⟩
    obtain ⟨frames, tail⟩ := attrFrames_frame frame rest fits
    rw [frames, tail]
    refine ⟨?_, ?_, last⟩
    · rw [flatMap_cons, append_assoc, ← whole]
    · intro other member
      cases mem_cons.mp member with
      | inl here =>
        rw [here]
        exact fits
      | inr later => exact allFit other later

def closeScan (tail : List UInt8) (final : AttrScan) : AttrScan := if tail = [] then final else { final with treatAsWithdraw := true }

def ATTR_SECTION_LIMIT : Nat := 2 ^ 16 - 1

theorem readNextAttribute_frame (frame : AttrFrame) (rest : List UInt8) (fits : frame.Fits) (small : frame.bytes.length < 2 ^ 16) :
    readNextAttribute order format state (frame.bytes ++ rest) =
      (applyFrame order format state frame >>= fun next => .ok (next, rest)) := by
  have offset : (UInt16.ofNat frame.bytes.length).toNat = frame.bytes.length := UInt16.toNat_ofNat_of_lt' small
  rw [readNextAttribute, readPathAttribute_frame order frame rest format fits, applyFrame]
  cases readFrame order format frame with
  | ok result =>
    simp [offset]
  | err error | fault reason => rfl

theorem small_of_short {frame : AttrFrame} {rest : List UInt8} (short : (frame.bytes ++ rest).length ≤ ATTR_SECTION_LIMIT) :
    frame.bytes.length < 2 ^ 16 := by
  rw [length_append, ATTR_SECTION_LIMIT] at short
  omega

theorem readNextAttribute_truncated (nonempty : bytes ≠ []) (truncated : splitFrame bytes = none)
    (short : bytes.length ≤ ATTR_SECTION_LIMIT) :
    readNextAttribute order format state bytes = .ok ({ state with treatAsWithdraw := true }, []) := by
  have offset : (UInt16.ofNat bytes.length).toNat = bytes.length := by
    have small : bytes.length < 2 ^ 16 := by
      rw [ATTR_SECTION_LIMIT] at short
      omega
    exact UInt16.toNat_ofNat_of_lt' small
  rw [readNextAttribute, readPathAttribute_truncated order bytes format nonempty truncated]
  simp [recordResult, offset]

theorem readNextAttribute_advances : Advances (readNextAttribute order format) ATTR_SECTION_LIMIT := by
  intro state bytes next rest nonempty short read
  cases split : splitFrame bytes with
  | none =>
    rw [readNextAttribute_truncated order format state bytes nonempty split short] at read
    cases read
    exact length_pos_iff.mpr nonempty
  | some found =>
    obtain ⟨frame, left⟩ := found
    have shorter := splitFrame_shorter split
    obtain ⟨fits, rfl⟩ := splitFrame_exact split
    rw [readNextAttribute_frame order format state frame left fits (small_of_short short)] at read
    obtain ⟨after, -, same⟩ := Checked.of_bind read
    cases same
    exact shorter

theorem scan_frames (state : AttrScan) (short : bytes.length ≤ ATTR_SECTION_LIMIT) : scan (readNextAttribute order format) state bytes =
      ((attrFrames bytes).foldlM (applyFrame order format) state >>= fun final => .ok (closeScan (attrTail bytes) final)) := by
  revert state short
  refine frames_induct (fun bytes => ∀ state, bytes.length ≤ ATTR_SECTION_LIMIT → scan (readNextAttribute order format) state bytes =
      ((attrFrames bytes).foldlM (applyFrame order format) state >>= fun final =>
        .ok (closeScan (attrTail bytes) final))) ?_ ?_ ?_ bytes
  · intro state _
    rfl
  · intro bytes nonempty split state short
    obtain ⟨frames, tail⟩ := attrFrames_none bytes split
    rw [scan_step (readNextAttribute_advances order format) state bytes nonempty short,
      readNextAttribute_truncated order format state bytes nonempty split short, frames, tail]
    simp [closeScan, if_neg nonempty]
  · intro frame rest fits kept state short
    obtain ⟨frames, tail⟩ := attrFrames_frame frame rest fits
    have nonempty : frame.bytes ++ rest ≠ [] := fun empty => frame.bytes_ne_nil (append_eq_nil_iff.mp empty).1
    have shortRest : rest.length ≤ ATTR_SECTION_LIMIT := by
      rw [length_append] at short
      omega
    rw [scan_step (readNextAttribute_advances order format) state _ nonempty short,
      readNextAttribute_frame order format state frame rest fits (small_of_short short), frames, tail, foldlM_cons]
    cases applyFrame order format state frame with
    | ok next => exact kept next shortRest
    | err error | fault reason => rfl

theorem readPathAttributes_frames (short : bytes.length ≤ ATTR_SECTION_LIMIT) : readPathAttributes order bytes format =
      ((attrFrames bytes).foldlM (applyFrame order format) {} >>= fun final =>
        .ok (final.pathAttributes, (closeScan (attrTail bytes) final).treatAsWithdraw)) := by
  rw [readPathAttributes, scan_frames order format bytes {} short]
  cases (attrFrames bytes).foldlM (applyFrame order format) {} with
  | ok final =>
    simp only [closeScan]
    split <;> rfl
  | err error | fault reason => rfl

section

variable (fit : ∀ frame ∈ frames, frame.Fits ∧ frame.bytes.length < 2 ^ 16)

include fit

theorem consume_frames (fuel : Nat) (state : AttrScan) (enough : (frames.flatMap AttrFrame.bytes).length ≤ fuel) :
    consume (readNextAttribute order format) fuel state (frames.flatMap AttrFrame.bytes) =
      frames.foldlM (applyFrame order format) state := by
  induction frames generalizing fuel state with
  | nil => cases fuel <;> rfl
  | cons frame rest ih =>
    obtain ⟨fits, small⟩ := fit frame mem_cons_self
    have positive := length_pos_iff.mpr frame.bytes_ne_nil
    rw [flatMap_cons, length_append] at enough
    obtain ⟨left, rfl⟩ : ∃ left, fuel = left + 1 := ⟨fuel - 1, by omega⟩
    have turn := readNextAttribute_frame order format state frame (rest.flatMap AttrFrame.bytes) fits small
    rw [flatMap_cons, foldlM_cons]
    have shape : frame.bytes ++ rest.flatMap AttrFrame.bytes = frame.flags :: (frame.bytes ++ rest.flatMap AttrFrame.bytes).tail := rfl
    rw [shape, consume, ← shape, turn]
    cases applyFrame order format state frame with
    | ok next =>
      exact ih (fun other member => fit other (mem_cons_of_mem _ member)) left next (by omega)
    | err error | fault reason => rfl

theorem readPathAttributes_flatMap : readPathAttributes order (frames.flatMap AttrFrame.bytes) format =
      (frames.foldlM (applyFrame order format) {} >>= fun final => .ok (final.pathAttributes, final.treatAsWithdraw)) := by
  rw [readPathAttributes, scan, consume_frames order format frames fit _ {} (Nat.le_refl _)]

end

end

end Bgpgg.Wire
