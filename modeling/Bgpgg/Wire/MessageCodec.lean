import Bgpgg.Wire.RoundTrip

namespace Bgpgg.Wire

open Lib List

def layBody (withdrawn attrs nlri : List UInt8) : List UInt8 :=
  u16Bytes (sectionLen withdrawn) ++ withdrawn ++ u16Bytes (sectionLen attrs) ++ attrs ++ nlri

section

variable (withdrawn attrs nlri : List UInt8)

theorem sectionLen_toNat {bytes : List UInt8} (short : bytes.length < 2 ^ 16) : (sectionLen bytes).toNat = bytes.length :=
  UInt16.toNat_ofNat_of_lt' short

theorem length_layBody : (layBody withdrawn attrs nlri).length = withdrawn.length + attrs.length + nlri.length + 4 := by
  simp only [layBody, length_append, length_u16Bytes]
  omega

theorem withdrawnLen_layBody (short : withdrawn.length < 2 ^ 16) : withdrawnLen (layBody withdrawn attrs nlri) = withdrawn.length := by
  have head : (layBody withdrawn attrs nlri).take 2 = u16Bytes (sectionLen withdrawn) := by
    exact take_left' (length_u16Bytes _)
  rw [withdrawnLen, head, u16FromBytes_u16Bytes, sectionLen_toNat short]

theorem drop_withdrawn_layBody : (layBody withdrawn attrs nlri).drop (2 + withdrawn.length) =
    u16Bytes (sectionLen attrs) ++ (attrs ++ nlri) := by
  simp only [layBody, append_assoc]
  rw [← append_assoc]
  exact drop_left' (by simp)

theorem attrLen_layBody (withdrawnShort : withdrawn.length < 2 ^ 16) (attrsShort : attrs.length < 2 ^ 16) :
    attrLen (layBody withdrawn attrs nlri) = attrs.length := by
  rw [attrLen, withdrawnLen_layBody withdrawn attrs nlri withdrawnShort, drop_withdrawn_layBody,
    take_left' (length_u16Bytes _), u16FromBytes_u16Bytes, sectionLen_toNat attrsShort]

theorem withdrawnField_layBody (short : withdrawn.length < 2 ^ 16) : withdrawnField (layBody withdrawn attrs nlri) = withdrawn := by
  rw [withdrawnField, withdrawnLen_layBody withdrawn attrs nlri short]
  simp only [layBody, append_assoc]
  rw [drop_left' (length_u16Bytes _), take_left]

theorem drop_attrs_layBody : (layBody withdrawn attrs nlri).drop (2 + withdrawn.length + 2) = attrs ++ nlri := by
  rw [← drop_drop, drop_withdrawn_layBody, drop_left' (length_u16Bytes _)]

theorem attrField_layBody (withdrawnShort : withdrawn.length < 2 ^ 16) (attrsShort : attrs.length < 2 ^ 16) :
    attrField (layBody withdrawn attrs nlri) = attrs := by
  rw [attrField, withdrawnLen_layBody withdrawn attrs nlri withdrawnShort,
    attrLen_layBody withdrawn attrs nlri withdrawnShort attrsShort, drop_attrs_layBody, take_left]

theorem nlriField_layBody (withdrawnShort : withdrawn.length < 2 ^ 16) (attrsShort : attrs.length < 2 ^ 16) :
    nlriField (layBody withdrawn attrs nlri) = nlri := by
  rw [nlriField, withdrawnLen_layBody withdrawn attrs nlri withdrawnShort,
    attrLen_layBody withdrawn attrs nlri withdrawnShort attrsShort, ← drop_drop, drop_attrs_layBody, drop_left]

def parseNlriAfter (attrs nlri : List UInt8) (format : MessageFormat) : Parse (List Nlri) :=
  if attrs.length = 0 then .ok [] else parseNlriList nlri (format.addPath.contains ipv4Unicast)

theorem decodeBody_layBody (order : HashOrder UInt16) (format : MessageFormat) (withdrawnShort : withdrawn.length < 2 ^ 16)
    (attrsShort : attrs.length < 2 ^ 16) :
    decodeBody order (layBody withdrawn attrs nlri) format = (do
      let routes ← (parseNlriList withdrawn (format.addPath.contains ipv4Unicast)).optional
      let (pathAttributes, attrTreatAsWithdraw) ← readPathAttributes order attrs format
      let nlriList ← parseNlriAfter attrs nlri format
      .ok ⟨sectionLen withdrawn, routes.getD [], sectionLen attrs, pathAttributes, nlriList, routes.isNone || attrTreatAsWithdraw⟩) := by
  have total := length_layBody withdrawn attrs nlri
  have withdrawnLength := withdrawnLen_layBody withdrawn attrs nlri withdrawnShort
  have attrLength := attrLen_layBody withdrawn attrs nlri withdrawnShort attrsShort
  have fields : HasLengthFields (layBody withdrawn attrs nlri) := by
    rw [HasLengthFields]
    omega
  have agree : LengthsAgree (layBody withdrawn attrs nlri) := by
    rw [LengthsAgree, withdrawnLength]
    omega
  simp only [decodeBody_eq order _ format fields, decodeSections, agree, parseNlriField,
    withdrawnField_layBody withdrawn attrs nlri withdrawnShort, attrField_layBody withdrawn attrs nlri withdrawnShort attrsShort,
    nlriField_layBody withdrawn attrs nlri withdrawnShort attrsShort, withdrawnLength, attrLength]
  rfl

end

section

variable (message : UpdateMessage) (order : HashOrder UInt16) (format : MessageFormat)

def attrBytes : List UInt8 := writePathAttributes message.wireAttributes message.format.use4byteAsn

theorem toBytes_layBody : message.toBytes =
    layBody (writeNlriList message.withdrawnRoutes) (attrBytes message) (writeNlriList message.nlriList) := rfl

def ReadAs (attr read : PathAttribute) : Prop := ∃ data, writeAttrValue attr.value format.use4byteAsn = some data ∧
    readFrame order format (writtenFrame attr data) = .ok (.parsed read)

-- The attribute neither ends the session nor turns the message into a withdrawal.
def Tolerated (attr : PathAttribute) : Prop := ∀ data, writeAttrValue attr.value format.use4byteAsn = some data →
    ∃ result, readFrame order format (writtenFrame attr data) = .ok result ∧ result ≠ .malformed .treatAsWithdraw

end

section

variable {order : HashOrder UInt16} {format : MessageFormat} {attrs : List PathAttribute}

variable (use4byteAsn : Bool) (frames : List AttrFrame)

theorem mem_framesOf (frame : AttrFrame) : frame ∈ framesOf use4byteAsn attrs ↔
    ∃ attr ∈ attrs, ∃ data, writeAttrValue attr.value use4byteAsn = some data ∧ frame = writtenFrame attr data := by
  simp only [framesOf, mem_filterMap, Option.map_eq_some_iff]
  constructor
  all_goals
    rintro ⟨attr, member, data, written, same⟩
    exact ⟨attr, member, data, written, same.symm⟩

theorem framesOf_codes (attrs : List PathAttribute) :
    ((framesOf use4byteAsn attrs).map AttrFrame.typeCode).Sublist (attrs.map PathAttribute.typeCode) := by
  induction attrs with
  | nil => exact .slnil
  | cons attr rest ih =>
    cases written : writeAttrValue attr.value use4byteAsn with
    | none =>
      have skipped : framesOf use4byteAsn (attr :: rest) = framesOf use4byteAsn rest := by simp [framesOf, written]
      rw [skipped]
      exact ih.cons _
    | some data =>
      have framed : framesOf use4byteAsn (attr :: rest) = writtenFrame attr data :: framesOf use4byteAsn rest := by
        simp [framesOf, written]
      rw [framed, map_cons]
      exact ih.cons_cons _

theorem readFrame_of_foldlM (state final : AttrScan) (walked : frames.foldlM (applyFrame order format) state = .ok final) :
    ∀ frame ∈ frames, ∃ result, readFrame order format frame = .ok result := by
  induction frames generalizing state with
  | nil => simp
  | cons first rest ih =>
    obtain ⟨next, step, later⟩ := Checked.of_bind walked
    obtain ⟨result, read, -⟩ := Checked.of_bind step
    intro frame member
    cases mem_cons.mp member with
    | inl same => exact ⟨result, same ▸ read⟩
    | inr inRest => exact ih next later frame inRest

theorem foldlM_of_readFrame (distinct : (frames.map AttrFrame.typeCode).Nodup)
    (reads : ∀ frame ∈ frames, ∃ result, readFrame order format frame = .ok result) (state : AttrScan)
    (fresh : ∀ frame ∈ frames, frame.typeCode ∉ state.seenTypeCodes) :
    ∃ final, frames.foldlM (applyFrame order format) state = .ok final := by
  induction frames generalizing state with
  | nil => exact ⟨state, rfl⟩
  | cons first rest ih =>
    obtain ⟨notLater, later⟩ := nodup_cons.mp distinct
    obtain ⟨result, read⟩ := reads first mem_cons_self
    have go : ∀ next : AttrScan, (∀ code ∈ next.seenTypeCodes, code = first.typeCode ∨ code ∈ state.seenTypeCodes) →
        applyFrame order format state first = .ok next →
        ∃ final, (first :: rest).foldlM (applyFrame order format) state = .ok final := by
      intro next codes step
      obtain ⟨final, walked⟩ := ih later (fun frame member => reads frame (mem_cons_of_mem _ member)) next
        (fun frame member seen => by
          cases codes _ seen with
          | inl same => exact notLater (same ▸ mem_map_of_mem member)
          | inr older => exact fresh frame (mem_cons_of_mem _ member) older)
      refine ⟨final, ?_⟩
      rw [foldlM_cons, step, Checked.ok_bind, walked]
    cases result with
    | malformed action =>
      cases action with
      | treatAsWithdraw =>
        exact go { state with treatAsWithdraw := true } (fun code seen => .inr seen)
          (by simp [applyFrame, read, recordResult])
      | discard => exact go state (fun code seen => .inr seen) (by simp [applyFrame, read, recordResult])
    | parsed attr =>
      have code := readFrame_typeCode order format first read
      have unseen : state.seenTypeCodes.contains first.typeCode = false := by
        simpa using fresh first mem_cons_self
      exact go { state with pathAttributes := state.pathAttributes ++ [attr]
                            seenTypeCodes := first.typeCode :: state.seenTypeCodes }
        (fun other seen => mem_cons.mp seen)
        (by simp only [applyFrame, read, Checked.ok_bind, recordResult, code, unseen, Bool.false_eq_true, if_false])

structure SectionRead (order : HashOrder UInt16) (format : MessageFormat) (attrs out : List PathAttribute) : Prop where
  mem : ∀ read, read ∈ out ↔ ∃ attr ∈ attrs, ReadAs order format attr read
  distinct : (out.map PathAttribute.typeCode).Nodup

section

variable (distinct : (attrs.map PathAttribute.typeCode).Nodup)

include distinct

theorem SectionRead.of_reading {final : AttrScan}
    (reading : Reading order format (framesOf format.use4byteAsn attrs) final) :
    SectionRead order format attrs final.pathAttributes := by
  have kept : ∀ read ∈ final.pathAttributes, ∃ attr ∈ attrs, ReadAs order format attr read := by
    intro read member
    obtain ⟨frame, inFrames, parsed⟩ := reading.kept read member
    obtain ⟨attr, inList, data, written, rfl⟩ := (mem_framesOf _ _).mp inFrames
    exact ⟨attr, inList, data, written, parsed⟩
  refine ⟨fun read => ⟨kept read, ?_⟩, reading.distinct⟩
  rintro ⟨attr, inList, data, written, parsed⟩
  obtain ⟨other, inOut, code, -⟩ := reading.coded _ ((mem_framesOf _ _).mpr ⟨attr, inList, data, written, rfl⟩) read parsed
  obtain ⟨attr', inList', data', written', parsed'⟩ := kept other inOut
  have codes : attr'.typeCode = attr.typeCode := (readFrame_typeCode order format _ parsed').symm.trans code
  have one : attr' = attr := inj_on_of_nodup_map distinct inList' inList codes
  subst one
  rw [written] at written'
  cases written'
  rw [parsed] at parsed'
  cases parsed'
  exact inOut

theorem readPathAttributes_read
    (short : EncodedShort format.use4byteAsn attrs) {out : List PathAttribute} {flag : Bool}
    (read : readPathAttributes order (writePathAttributes attrs format.use4byteAsn) format = .ok (out, flag)) :
    SectionRead order format attrs out ∧ (flag = false → ∀ attr ∈ attrs, Tolerated order format attr) := by
  rw [readPathAttributes_written attrs short] at read
  obtain ⟨final, walked, result⟩ := Checked.of_bind read
  obtain ⟨rfl, rfl⟩ := result
  have reading := reading_of_foldlM _ _ walked
  refine ⟨.of_reading distinct reading, ?_⟩
  intro unflagged attr member data written
  have framed := (mem_framesOf format.use4byteAsn _).mpr ⟨attr, member, data, written, rfl⟩
  obtain ⟨result, parsed⟩ := readFrame_of_foldlM _ _ _ walked _ framed
  refine ⟨result, parsed, ?_⟩
  intro withdraw
  subst withdraw
  have flagged := reading.flagged.mpr ⟨_, framed, parsed⟩
  rw [unflagged] at flagged
  cases flagged

theorem readPathAttributes_tolerated
    (short : EncodedShort format.use4byteAsn attrs) (tolerated : ∀ attr ∈ attrs, Tolerated order format attr) :
    ∃ out, readPathAttributes order (writePathAttributes attrs format.use4byteAsn) format = .ok (out, false) := by
  have reads : ∀ frame ∈ framesOf format.use4byteAsn attrs,
      ∃ result, readFrame order format frame = .ok result ∧ result ≠ .malformed .treatAsWithdraw := by
    intro frame member
    obtain ⟨attr, inList, data, written, rfl⟩ := (mem_framesOf _ _).mp member
    exact tolerated attr inList data written
  obtain ⟨final, walked⟩ := foldlM_of_readFrame (framesOf format.use4byteAsn attrs)
    (distinct.sublist (framesOf_codes _ _)) (fun frame member => (reads frame member).imp fun _ both => both.1) {} (by simp)
  have unflagged : final.treatAsWithdraw = false := by
    rw [← Bool.not_eq_true, (reading_of_foldlM _ _ walked).flagged]
    rintro ⟨frame, member, malformed⟩
    obtain ⟨result, read, fine⟩ := reads frame member
    rw [malformed] at read
    cases read
    exact fine rfl
  refine ⟨final.pathAttributes, ?_⟩
  rw [readPathAttributes_written attrs short, walked, Checked.ok_bind, unflagged]

end

end

def Taken (hashing : Hashing) (bytes : List UInt8) (format : MessageFormat) (decoded : UpdateMessage) : Prop :=
  ∃ body, decodeBody hashing.tlvs bytes format = .ok body ∧ body.withdrawAll = false ∧ body.asMessage format = decoded

section

variable {hashing : Hashing} {bytes : List UInt8} {format : MessageFormat} {decoded : UpdateMessage}

theorem Taken.fromBytes (taken : Taken hashing bytes format decoded) : UpdateMessage.fromBytes hashing bytes format = .ok decoded := by
  obtain ⟨body, sections, kept, rfl⟩ := taken
  simp [UpdateMessage.fromBytes, sections, kept]

end

section

variable {hashing : Hashing} {message : UpdateMessage}

def announcing (attrs : List PathAttribute) (nlriList : List Nlri) : Bool := !nlriList.isEmpty || hasValue attrs announcesMp

theorem taken_iff (noWithdrawn : message.withdrawnRoutes = []) (short : (attrBytes message).length < 2 ^ 16) (decoded : UpdateMessage) :
    Taken hashing message.toBytes message.format decoded ↔ ∃ out nlriList,
      readPathAttributes hashing.tlvs (attrBytes message) message.format = .ok (out, false) ∧
      parseNlriAfter (attrBytes message) (writeNlriList message.nlriList) message.format = .ok nlriList ∧
      (announcing out nlriList = true → validateWellKnownMandatoryAttributes out = true) ∧
      decoded = ⟨0, [], sectionLen (attrBytes message), out, nlriList, message.format⟩ := by
  have empty : parseNlriList (writeNlriList []) (message.format.addPath.contains ipv4Unicast) = .ok [] := rfl
  rw [Taken, toBytes_layBody, noWithdrawn, decodeBody_layBody _ _ _ _ _ (by decide) short, empty]
  simp only [Checked.optional, Checked.ok_bind, Checked.bind_eq_ok, Prod.exists]
  constructor
  · rintro ⟨body, ⟨out, flag, read, nlriList, parsed, same⟩, kept, rfl⟩
    cases same
    simp only [DecodedBody.withdrawAll, Option.isNone_some, Bool.false_or, Bool.or_eq_false_iff,
      Bool.and_eq_false_imp, Bool.not_eq_false'] at kept
    obtain ⟨unflagged, mandatory⟩ := kept
    rw [unflagged] at read
    exact ⟨out, nlriList, read, parsed, mandatory, rfl⟩
  · rintro ⟨out, nlriList, read, parsed, mandatory, rfl⟩
    refine ⟨_, ⟨out, false, read, nlriList, parsed, rfl⟩, ?_, rfl⟩
    simp only [DecodedBody.withdrawAll, Option.isNone_some, Bool.false_or, Bool.and_eq_false_imp,
      Bool.not_eq_false']
    exact mandatory

end

end Bgpgg.Wire
