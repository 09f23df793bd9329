import Mathlib.Data.List.Induction
import Bgpgg.Wire.NamedRoutes

namespace Bgpgg.Wire

open Lib List Checked

section

variable {order : HashOrder UInt16} {format : MessageFormat}

theorem applyFrame_cases {state next : AttrScan} {frame : AttrFrame} (taken : applyFrame order format state frame = .ok next) :
    (∃ attr, readFrame order format frame = .ok (.parsed attr) ∧ attr.typeCode = frame.typeCode ∧
      ((frame.typeCode ∉ state.seenTypeCodes ∧ next = { state with
          pathAttributes := state.pathAttributes ++ [attr]
          seenTypeCodes := frame.typeCode :: state.seenTypeCodes }) ∨
        (frame.typeCode ∈ state.seenTypeCodes ∧ isMp frame.typeCode = false ∧ next = state))) ∨
      (readFrame order format frame = .ok (.malformed .treatAsWithdraw) ∧ next = { state with treatAsWithdraw := true }) ∨
      (readFrame order format frame = .ok (.malformed .discard) ∧ next = state) := by
  obtain ⟨result, read, recorded⟩ := of_bind taken
  cases result with
  | malformed action =>
    cases action with
    | treatAsWithdraw =>
      cases recorded
      exact .inr (.inl ⟨read, rfl⟩)
    | discard =>
      cases recorded
      exact .inr (.inr ⟨read, rfl⟩)
  | parsed attr =>
    have code := readFrame_typeCode order format frame read
    refine .inl ⟨attr, read, code, ?_⟩
    simp only [recordResult, code] at recorded
    split at recorded
    · rename_i seen
      split at recorded
      · cases recorded
      · rename_i notMp
        cases recorded
        exact .inr ⟨by simpa using seen, Bool.not_eq_true _ ▸ notMp, rfl⟩
    · rename_i unseen
      cases recorded
      exact .inl ⟨by simpa using unseen, rfl⟩

-- What a whole section leaves: the first attribute of each type code, and whether some
-- attribute asked for a withdrawal.
structure Reading (order : HashOrder UInt16) (format : MessageFormat) (frames : List AttrFrame) (final : AttrScan) : Prop where
  kept : ∀ attr ∈ final.pathAttributes, ∃ frame ∈ frames, readFrame order format frame = .ok (.parsed attr)
  coded : ∀ frame ∈ frames, ∀ attr, readFrame order format frame = .ok (.parsed attr) →
    ∃ other ∈ final.pathAttributes, other.typeCode = frame.typeCode ∧ (isMp frame.typeCode = true → other = attr)
  seen : ∀ code, code ∈ final.seenTypeCodes ↔ ∃ attr ∈ final.pathAttributes, attr.typeCode = code
  distinct : (final.pathAttributes.map PathAttribute.typeCode).Nodup
  flagged : final.treatAsWithdraw = true ↔ ∃ frame ∈ frames, readFrame order format frame = .ok (.malformed .treatAsWithdraw)

variable {before : List AttrFrame} {state : AttrScan}

theorem Reading.record (reading : Reading order format before state)
    {frame : AttrFrame} {attr : PathAttribute} (read : readFrame order format frame = .ok (.parsed attr))
    (code : attr.typeCode = frame.typeCode) (fresh : frame.typeCode ∉ state.seenTypeCodes) :
    Reading order format (before ++ [frame]) { state with
      pathAttributes := state.pathAttributes ++ [attr]
      seenTypeCodes := frame.typeCode :: state.seenTypeCodes } := by
  constructor
  · intro other member
    cases mem_append.mp member with
    | inl older =>
      obtain ⟨source, inBefore, parsed⟩ := reading.kept other older
      exact ⟨source, by simp [inBefore], parsed⟩
    | inr last =>
      rw [mem_singleton.mp last]
      exact ⟨frame, by simp, read⟩
  · intro source member parsed sourceRead
    cases mem_append.mp member with
    | inl inBefore =>
      obtain ⟨other, inState, same⟩ := reading.coded source inBefore parsed sourceRead
      exact ⟨other, by simp [inState], same⟩
    | inr last =>
      rw [mem_singleton.mp last] at sourceRead ⊢
      rw [read] at sourceRead
      cases sourceRead
      exact ⟨attr, by simp, code, fun _ => rfl⟩
  · intro wanted
    have older := reading.seen wanted
    simp only [mem_cons, mem_append, not_mem_nil, or_false, older]
    constructor
    · rintro (same | ⟨other, member, same⟩)
      · exact ⟨attr, .inr rfl, code.trans same.symm⟩
      · exact ⟨other, .inl member, same⟩
    · rintro ⟨other, member | last, same⟩
      · exact .inr ⟨other, member, same⟩
      · rw [last, code] at same
        exact .inl same.symm
  · rw [map_append, nodup_append]
    refine ⟨reading.distinct, by simp, ?_⟩
    intro older inOlder last isLast same
    obtain ⟨other, member, otherCode⟩ := mem_map.mp inOlder
    rw [map_singleton, mem_singleton, code] at isLast
    exact fresh ((reading.seen _).mpr ⟨other, member, otherCode.trans (same.trans isLast)⟩)
  · have older := reading.flagged
    simp [older, read]

theorem Reading.pass (reading : Reading order format before state) {frame : AttrFrame} (flag : Bool)
    (recorded : ∀ attr, readFrame order format frame = .ok (.parsed attr) →
      isMp frame.typeCode = false ∧ frame.typeCode ∈ state.seenTypeCodes)
    (flagged : flag = true ↔ state.treatAsWithdraw = true ∨ readFrame order format frame = .ok (.malformed .treatAsWithdraw)) :
    Reading order format (before ++ [frame]) { state with treatAsWithdraw := flag } := by
  constructor
  · intro attr member
    obtain ⟨source, inBefore, parsed⟩ := reading.kept attr member
    exact ⟨source, by simp [inBefore], parsed⟩
  · intro source member attr read
    cases mem_append.mp member with
    | inl inBefore => exact reading.coded source inBefore attr read
    | inr last =>
      rw [mem_singleton.mp last] at read ⊢
      obtain ⟨notMp, seen⟩ := recorded attr read
      obtain ⟨other, inState, code⟩ := (reading.seen _).mp seen
      exact ⟨other, inState, code, fun mp => absurd (mp.symm.trans notMp) (by decide)⟩
  · exact reading.seen
  · exact reading.distinct
  · rw [flagged, reading.flagged]
    simp

theorem reading_of_foldlM (frames : List AttrFrame) (final : AttrScan)
    (walked : frames.foldlM (applyFrame order format) {} = .ok final) : Reading order format frames final := by
  induction frames using reverseRecOn generalizing final with
  | nil =>
    cases walked
    exact ⟨by simp, by simp, by simp, by simp, by simp⟩
  | append_singleton before frame ih =>
    rw [foldlM_append] at walked
    obtain ⟨state, earlier, last⟩ := of_bind walked
    have reading := ih state earlier
    have taken : applyFrame order format state frame = .ok final := by
      simp only [foldlM_cons, foldlM_nil, bind_eq_ok, pure_eq, Checked.ok.injEq] at last
      obtain ⟨next, taken, rfl⟩ := last
      exact taken
    obtain ⟨attr, read, code, fresh | known⟩ | withdraw | discard := applyFrame_cases taken
    · obtain ⟨unseen, rfl⟩ := fresh
      exact reading.record read code unseen
    · obtain ⟨seen, notMp, rfl⟩ := known
      exact reading.pass final.treatAsWithdraw (fun _ _ => ⟨notMp, seen⟩) (by simp [read])
    · obtain ⟨read, rfl⟩ := withdraw
      exact reading.pass true (by simp [read]) (by simp [read])
    · obtain ⟨read, rfl⟩ := discard
      exact reading.pass final.treatAsWithdraw (by simp [read]) (by simp [read])

end

theorem attrField_short (bytes : List UInt8) : (attrField bytes).length ≤ ATTR_SECTION_LIMIT := by
  have taken : (attrField bytes).length ≤ attrLen bytes := length_take_le _ _
  have narrow : attrLen bytes < 2 ^ 16 := UInt16.toNat_lt _
  rw [ATTR_SECTION_LIMIT]
  omega

def readWithdrawn (bytes : List UInt8) (format : MessageFormat) : Parse (List Nlri) :=
  parseNlriList (withdrawnField bytes) (format.addPath.contains ipv4Unicast)

structure Decoded (order : HashOrder UInt16) (bytes : List UInt8) (format : MessageFormat) (body : DecodedBody)
    (final : AttrScan) : Prop where
  fields : HasLengthFields bytes
  agree : LengthsAgree bytes
  withdrawn : readWithdrawn bytes format = .ok body.withdrawnRoutes ∨
    (body.withdrawnRoutes = [] ∧ ∃ error, readWithdrawn bytes format = .err error)
  attributes : Reading order format (attrFrames (attrField bytes)) final
  sections : SectionReads format (attrFrames (attrField bytes))
  recorded : body.pathAttributes = final.pathAttributes
  attrLength : body.totalPathAttributesLen.toNat = attrLen bytes
  nlri : parseNlriField bytes format = .ok body.nlriList
  flag : body.treatAsWithdraw = true ↔ (∃ error, readWithdrawn bytes format = .err error) ∨
    attrTail (attrField bytes) ≠ [] ∨ final.treatAsWithdraw = true

theorem decodeBody_decoded {order : HashOrder UInt16} {bytes : List UInt8} {format : MessageFormat} {body : DecodedBody}
    (decoded : decodeBody order bytes format = .ok body) : ∃ final, Decoded order bytes format body final := by
  have fields : HasLengthFields bytes := by
    by_contra missing
    have faulty := decodeBody_faults_short order bytes format missing
    rw [decoded] at faulty
    exact faults_ok _ faulty
  rw [decodeBody_eq order bytes format fields] at decoded
  obtain ⟨withdrawnRoutes, withdrawn, more⟩ := of_bind decoded
  by_cases agree : LengthsAgree bytes
  · rw [if_neg (not_not.mpr agree)] at more
    obtain ⟨⟨pathAttributes, attrWithdraw⟩, attributes, more⟩ := of_bind more
    obtain ⟨nlriList, nlri, same⟩ := of_bind more
    have sections := (readPathAttributes_outcome order format (attrField_short bytes)).1.mp ⟨_, attributes⟩
    rw [readPathAttributes_frames order format _ (attrField_short bytes)] at attributes
    obtain ⟨final, walked, shape⟩ := of_bind attributes
    obtain ⟨rfl, rfl⟩ := shape
    cases same
    have closed : (closeScan (attrTail (attrField bytes)) final).treatAsWithdraw = true ↔
        attrTail (attrField bytes) ≠ [] ∨ final.treatAsWithdraw = true := by
      rw [closeScan]
      split
      · rename_i empty
        simp [empty]
      · rename_i nonempty
        simp [nonempty]
    have lengthField : (UInt16.ofNat (attrLen bytes)).toNat = attrLen bytes := UInt16.toNat_ofNat_of_lt' (UInt16.toNat_lt _)
    cases parsed : readWithdrawn bytes format with
    | ok routes =>
      rw [show parseNlriList _ _ = readWithdrawn bytes format from rfl, parsed] at withdrawn
      cases withdrawn
      refine ⟨final, fields, agree, .inl parsed, reading_of_foldlM _ final walked, sections, rfl, lengthField, nlri, ?_⟩
      simp [closed, parsed]
    | err error =>
      rw [show parseNlriList _ _ = readWithdrawn bytes format from rfl, parsed] at withdrawn
      cases withdrawn
      refine ⟨final, fields, agree, .inr ⟨rfl, error, parsed⟩, reading_of_foldlM _ final walked, sections, rfl, lengthField, nlri, ?_⟩
      simp [parsed]
    | fault reason =>
      rw [show parseNlriList _ _ = readWithdrawn bytes format from rfl, parsed] at withdrawn
      cases withdrawn
  · rw [if_pos agree] at more
    cases more

end Bgpgg.Wire
