import Bgpgg.Wire.TreatAsWithdraw

namespace Bgpgg.Wire

open Net Lib UpdateMessage List AttrType

def EorMarker (family : AfiSafi) (bytes : List UInt8) : Prop := (bytes = [0, 0, 0, 0] ∧ family = ipv4Unicast) ∨
    (withdrawnLen bytes = 0 ∧ nlriField bytes = [] ∧ attrTail (attrField bytes) = [] ∧
      ∃ frame, attrFrames (attrField bytes) = [frame] ∧ frame.typeCode = AttrType.mpUnreachNlri.toU8 ∧
        mpUnreachField frame.data = some (family, []))

-- Bodies with an unreadable withdrawn field, a truncated attribute or an attribute whose
-- error asks for a withdrawal.
def AsksForWithdraw (order : HashOrder UInt16) (format : MessageFormat) (bytes : List UInt8) : Prop :=
  ¬ Entries ipv4Family (format.addPath.contains ipv4Unicast) (withdrawnField bytes) ∨ attrTail (attrField bytes) ≠ [] ∨
    ∃ frame ∈ attrFrames (attrField bytes), readFrame order format frame = .ok (.malformed .treatAsWithdraw)

inductive KeepsSomething (order : HashOrder UInt16) (format : MessageFormat) (bytes : List UInt8) : Prop where
  | withdrawn (names : NamesRoute ipv4Family (format.addPath.contains ipv4Unicast) (withdrawnField bytes))
  | nlri (attributes : attrLen bytes ≠ 0)
      (names : NamesRoute ipv4Family (format.addPath.contains ipv4Unicast) (nlriField bytes))
  | otherAttribute (frame : AttrFrame) (attr : PathAttribute) (member : frame ∈ attrFrames (attrField bytes))
      (read : readFrame order format frame = .ok (.parsed attr)) (other : frame.typeCode ≠ AttrType.mpUnreachNlri.toU8)
  | route (frame : AttrFrame) (member : frame ∈ attrFrames (attrField bytes)) (names : FrameNamesRoute format frame)
  | linkState (frame : AttrFrame) (member : frame ∈ attrFrames (attrField bytes)) (names : FrameNamesLinkState frame)
      (stays : ¬ AsksForWithdraw order format bytes)

-- Nothing was in the body but MP_UNREACH_NLRI attributes without routes.
structure NothingDropped (bytes : List UInt8) : Prop where
  withdrawn : withdrawnField bytes = []
  nlri : nlriField bytes = []
  tail : attrTail (attrField bytes) = []
  attributes : ∀ frame ∈ attrFrames (attrField bytes), frame.typeCode = AttrType.mpUnreachNlri.toU8 ∧
    FlagsValid frame.flags .mpUnreachNlri ∧ ∃ family, mpUnreachField frame.data = some (family, [])

theorem eorAfiSafi_eq_some (message : UpdateMessage) (family : AfiSafi) : message.eorAfiSafi = some family ↔
    message.withdrawnRoutes = [] ∧ message.nlriList = [] ∧ ((message.pathAttributes = [] ∧ family = ipv4Unicast) ∨
        ∃ flags mp, message.pathAttributes = [⟨flags, .mpUnreachNlri mp⟩] ∧ mp.withdrawnRoutes = [] ∧ mp.lsWithdrawn = [] ∧
          family = ⟨mp.afi, mp.safi⟩) := by
  obtain ⟨_, withdrawnRoutes, _, pathAttributes, nlriList, _⟩ := message
  rw [eorAfiSafi]
  by_cases routes : withdrawnRoutes = [] ∧ nlriList = []
  · obtain ⟨rfl, rfl⟩ := routes
    cases pathAttributes with
    | nil => simp [eq_comm]
    | cons attr rest =>
      cases rest with
      | cons second rest => simp
      | nil =>
        obtain ⟨flags, value⟩ := attr
        cases value with
        | mpUnreachNlri mp =>
          obtain ⟨afi, safi, withdrawn, lsWithdrawn⟩ := mp
          by_cases empty : withdrawn = [] ∧ lsWithdrawn = []
          · obtain ⟨rfl, rfl⟩ := empty
            simp [eq_comm]
          · have some : (withdrawn.isEmpty && lsWithdrawn.isEmpty) = false := by
              rw [Bool.and_eq_false_iff, isEmpty_eq_false_iff, isEmpty_eq_false_iff]
              exact Decidable.not_and_iff_or_not.mp empty
            simp only [some, if_false, ite_self, reduceCtorEq, false_iff]
            rintro ⟨-, -, ⟨none, -⟩ | ⟨_, _, same, first, second, -⟩⟩
            · cases none
            · cases same
              exact empty ⟨first, second⟩
        | _ => simp
  · have some : (!withdrawnRoutes.isEmpty || !nlriList.isEmpty) = true := by
      rw [Bool.or_eq_true, Bool.not_eq_true', Bool.not_eq_true', isEmpty_eq_false_iff, isEmpty_eq_false_iff]
      exact Decidable.not_and_iff_or_not.mp routes
    simp only [some, if_true, reduceCtorEq, false_iff]
    rintro ⟨first, second, -⟩
    exact routes ⟨first, second⟩

theorem eorAfiSafi_newWithdraw (withdrawn : List Nlri) (format : MessageFormat) :
    (∃ family, (newWithdraw withdrawn format).eorAfiSafi = some family) ↔ withdrawn = [] := by
  constructor
  · rintro ⟨family, eor⟩
    obtain ⟨noRoutes, -, marker⟩ := (eorAfiSafi_eq_some _ _).mp eor
    have noV6 : withdrawn.filter (fun nlri => !isV4 nlri) = [] := by
      by_contra some
      have recorded : (newWithdraw withdrawn format).pathAttributes =
          [⟨OPTIONAL, .mpUnreachNlri ⟨.ipv6, .unicast, withdrawn.filter fun nlri => !isV4 nlri, []⟩⟩] := by
        simp [newWithdraw, some]
      rw [recorded] at marker
      obtain ⟨none, -⟩ | ⟨flags, mp, same, empty, -⟩ := marker
      · cases none
      · cases same
        exact some empty
    rw [eq_nil_iff_forall_not_mem]
    intro nlri member
    have both : nlri ∈ withdrawn.filter isV4 ++ withdrawn.filter fun nlri => !isV4 nlri := by
      rw [← newWithdraw_allWithdrawnRoutes withdrawn format]
      exact (mem_newWithdraw withdrawn format nlri).mpr member
    rw [noV6, show withdrawn.filter isV4 = [] from noRoutes] at both
    cases both
  · rintro rfl
    exact ⟨ipv4Unicast, rfl⟩

section

variable {order : HashOrder UInt16} {format : MessageFormat} {bytes : List UInt8} {body : DecodedBody} {final : AttrScan}

section

variable (decoded : Decoded order bytes format body final)

include decoded

theorem Decoded.withdrawn_nonempty :
    body.withdrawnRoutes ≠ [] ↔ NamesRoute ipv4Family (format.addPath.contains ipv4Unicast) (withdrawnField bytes) := by
  cases decoded.withdrawn with
  | inl kept => exact parseNlris_names kept
  | inr failed =>
    obtain ⟨empty, error, failed⟩ := failed
    refine iff_of_false (not_not.mpr empty) fun names => ?_
    obtain ⟨routes, parsed⟩ := (parseNlris_outcome (withdrawnField bytes)).1.mpr names.entries
    rw [show parseNlris ipv4Family _ _ = readWithdrawn bytes format from rfl, failed] at parsed
    cases parsed

theorem Decoded.nlri_nonempty :
    body.nlriList ≠ [] ↔ attrLen bytes ≠ 0 ∧ NamesRoute ipv4Family (format.addPath.contains ipv4Unicast) (nlriField bytes) := by
  by_cases none : attrLen bytes = 0
  · simp [none, (decoded.emptyAttributes none).2]
  · have parsed := decoded.nlri
    rw [parseNlriField, if_neg none] at parsed
    rw [parseNlris_names parsed]
    simp [none]

theorem Decoded.flag_iff : body.treatAsWithdraw = true ↔ AsksForWithdraw order format bytes := by
  have unreadable : (∃ error, readWithdrawn bytes format = .err error) ↔
      ¬ Entries ipv4Family (format.addPath.contains ipv4Unicast) (withdrawnField bytes) := by
    rw [← (parseNlris_outcome (withdrawnField bytes)).1]
    rw [show parseNlris ipv4Family _ _ = readWithdrawn bytes format from rfl]
    cases decoded.withdrawn with
    | inl kept => simp [kept]
    | inr failed =>
      obtain ⟨-, error, failed⟩ := failed
      simp [failed]
  rw [decoded.flag, unreadable, decoded.attributes.flagged, AsksForWithdraw]

theorem Decoded.kept_from {attr : PathAttribute} (member : attr ∈ body.pathAttributes) :
    ∃ frame ∈ attrFrames (attrField bytes), readFrame order format frame = .ok (.parsed attr) := by
  rw [decoded.recorded] at member
  exact decoded.attributes.kept attr member

theorem Decoded.other_attribute : (∃ attr ∈ body.pathAttributes, attr.typeCode ≠ mpUnreachNlri.toU8) ↔
      ∃ frame ∈ attrFrames (attrField bytes), (∃ attr, readFrame order format frame = .ok (.parsed attr)) ∧
        frame.typeCode ≠ mpUnreachNlri.toU8 := by
  constructor
  · rintro ⟨attr, member, other⟩
    obtain ⟨frame, inFrames, read⟩ := decoded.kept_from member
    exact ⟨frame, inFrames, ⟨attr, read⟩, readFrame_typeCode order format frame read ▸ other⟩
  · rintro ⟨frame, inFrames, ⟨attr, read⟩, other⟩
    obtain ⟨recorded, inFinal, code, -⟩ := decoded.attributes.coded frame inFrames attr read
    exact ⟨recorded, decoded.recorded ▸ inFinal, code ▸ other⟩

theorem Decoded.names_route : (∃ attr ∈ body.pathAttributes, mpNlri attr.value ≠ []) ↔
      ∃ frame ∈ attrFrames (attrField bytes), FrameNamesRoute format frame := by
  constructor
  · rintro ⟨attr, member, names⟩
    obtain ⟨frame, inFrames, read⟩ := decoded.kept_from member
    exact ⟨frame, inFrames, (readFrame_names read).1.mp names⟩
  · rintro ⟨frame, inFrames, names⟩
    obtain ⟨attr, read⟩ := frameNamesRoute_parsed order names
    exact ⟨attr, decoded.mp_recorded inFrames read names.isMp, (readFrame_names read).1.mpr names⟩

theorem Decoded.names_linkState : (∃ attr ∈ body.pathAttributes, mpLsNlri attr.value ≠ []) ↔
      ∃ frame ∈ attrFrames (attrField bytes), FrameNamesLinkState frame := by
  constructor
  · rintro ⟨attr, member, names⟩
    obtain ⟨frame, inFrames, read⟩ := decoded.kept_from member
    exact ⟨frame, inFrames, (readFrame_names read).2.mp names⟩
  · rintro ⟨frame, inFrames, names⟩
    obtain ⟨attr, read⟩ := frameNamesLinkState_parsed order format names
    exact ⟨attr, decoded.mp_recorded inFrames read names.isMp, (readFrame_names read).2.mpr names⟩

theorem Decoded.unreach_value {attr : PathAttribute} (member : attr ∈ body.pathAttributes) (code : attr.typeCode = mpUnreachNlri.toU8) :
    ∃ mp, attr.value = .mpUnreachNlri mp := by
  obtain ⟨frame, -, read⟩ := decoded.kept_from member
  have frameCode := readFrame_typeCode order format frame read
  have known : tryFrom frame.typeCode = some .mpUnreachNlri := by
    rw [← frameCode, code, attrType_tryFrom_toU8]
  obtain ⟨family, field, lists, -, -, value⟩ := parseMpUnreach_value (readFrame_known read known).2.2
  exact ⟨_, value⟩

theorem Decoded.single {code : UInt8} (same : ∀ attr ∈ body.pathAttributes, attr.typeCode = code) :
    body.pathAttributes = [] ∨ ∃ attr, body.pathAttributes = [attr] := by
  have distinct := decoded.attributes.distinct
  rw [← decoded.recorded] at distinct
  generalize body.pathAttributes = attrs at same distinct
  cases attrs with
  | nil => exact .inl rfl
  | cons first rest =>
    cases rest with
    | nil => exact .inr ⟨first, rfl⟩
    | cons second rest =>
      have equal : first.typeCode = second.typeCode := (same first (by simp)).trans (same second (by simp)).symm
      simp [equal] at distinct

theorem Decoded.keeps_iff : KeepsSomething order format bytes ↔ body.withdrawnRoutes ≠ [] ∨ body.nlriList ≠ [] ∨
      (∃ attr ∈ body.pathAttributes, attr.typeCode ≠ mpUnreachNlri.toU8) ∨
      (∃ attr ∈ body.pathAttributes, mpNlri attr.value ≠ []) ∨
      ((∃ attr ∈ body.pathAttributes, mpLsNlri attr.value ≠ []) ∧ body.treatAsWithdraw = false) := by
  rw [decoded.withdrawn_nonempty, decoded.nlri_nonempty, decoded.other_attribute, decoded.names_route,
    decoded.names_linkState, ← Bool.not_eq_true, decoded.flag_iff]
  constructor
  · intro keeps
    cases keeps with
    | withdrawn names => exact .inl names
    | nlri attributes names => exact .inr (.inl ⟨attributes, names⟩)
    | otherAttribute frame attr member read other => exact .inr (.inr (.inl ⟨frame, member, ⟨attr, read⟩, other⟩))
    | route frame member names => exact .inr (.inr (.inr (.inl ⟨frame, member, names⟩)))
    | linkState frame member names stays => exact .inr (.inr (.inr (.inr ⟨⟨frame, member, names⟩, stays⟩)))
  · rintro (names | ⟨attributes, names⟩ | ⟨frame, member, ⟨attr, read⟩, other⟩ | ⟨frame, member, names⟩ | ⟨⟨frame, member, names⟩, stays⟩)
    · exact .withdrawn names
    · exact .nlri attributes names
    · exact .otherAttribute frame attr member read other
    · exact .route frame member names
    · exact .linkState frame member names stays

end

theorem allRoutes_eq_nil (body : DecodedBody) : body.allRoutes = [] ↔
    body.withdrawnRoutes = [] ∧ body.nlriList = [] ∧ ∀ attr ∈ body.pathAttributes, mpNlri attr.value = [] := by
  simp [DecodedBody.allRoutes, collectMpNlri]

theorem hasMpReachNlri_eq_false (none : ∀ attr ∈ body.pathAttributes, mpNlri attr.value = []) :
    body.hasMpReachNlri = false := by
  rw [DecodedBody.hasMpReachNlri, hasValue, any_eq_false]
  intro attr member
  have empty := none attr member
  generalize attr.value = value at empty
  cases value with
  | mpReachNlri mp => simpa [announcesMp, mpNlri] using empty
  | _ => simp [announcesMp]

theorem withdrawAll_of_noRoutes (body : DecodedBody) (noNlri : body.nlriList = [])
    (none : ∀ attr ∈ body.pathAttributes, mpNlri attr.value = []) : body.withdrawAll = body.treatAsWithdraw := by
  simp [DecodedBody.withdrawAll, noNlri, hasMpReachNlri_eq_false none]

theorem Decoded.unescalated (decoded : Decoded order bytes format body final) (noNlri : body.nlriList = [])
    (none : ∀ attr ∈ body.pathAttributes, mpNlri attr.value = []) (stays : body.escalates = false) :
    ∀ attr ∈ body.pathAttributes, attr.typeCode = mpUnreachNlri.toU8 := by
  intro attr member
  by_cases zero : attrLen bytes = 0
  · rw [(decoded.emptyAttributes zero).1] at member
    cases member
  · simp only [DecodedBody.escalates, shouldEscalateToSessionReset, noNlri, hasMpReachNlri_eq_false none,
      decoded.attrLength, beq_iff_eq, zero, isEmpty_nil, Bool.not_true, Bool.or_self, Bool.false_eq_true, if_false] at stays
    split at stays
    · rename_i lone shape
      rw [shape, mem_singleton] at member
      subst member
      exact typeCode_of_attrType attr.flags (by simpa using stays)
    · cases stays

theorem Decoded.eor_asMessage (decoded : Decoded order bytes format body final) :
    (∃ family, (body.asMessage format).eorAfiSafi = some family) ↔ body.withdrawnRoutes = [] ∧ body.nlriList = [] ∧
      ∀ attr ∈ body.pathAttributes, attr.typeCode = mpUnreachNlri.toU8 ∧ mpNlri attr.value = [] ∧ mpLsNlri attr.value = [] := by
  simp only [eorAfiSafi_eq_some, DecodedBody.asMessage]
  constructor
  · rintro ⟨family, noWithdrawn, noNlri, ⟨empty, -⟩ | ⟨flags, mp, lone, noRoutes, noEntries, -⟩⟩
    · exact ⟨noWithdrawn, noNlri, by simp [empty]⟩
    · refine ⟨noWithdrawn, noNlri, ?_⟩
      intro attr member
      rw [lone, mem_singleton] at member
      subst member
      exact ⟨rfl, noRoutes, noEntries⟩
  · rintro ⟨noWithdrawn, noNlri, each⟩
    cases decoded.single fun attr member => (each attr member).1 with
    | inl empty => exact ⟨ipv4Unicast, noWithdrawn, noNlri, .inl ⟨empty, rfl⟩⟩
    | inr lone =>
      obtain ⟨⟨flags, value⟩, lone⟩ := lone
      have member : (⟨flags, value⟩ : PathAttribute) ∈ body.pathAttributes := by simp [lone]
      obtain ⟨code, noRoutes, noEntries⟩ := each _ member
      obtain ⟨mp, rfl⟩ : ∃ mp, value = .mpUnreachNlri mp := decoded.unreach_value member code
      exact ⟨_, noWithdrawn, noNlri, .inr ⟨flags, mp, lone, noRoutes, noEntries, rfl⟩⟩

end

theorem eor_iff_keeps_nothing {hashing : Hashing} {bytes : List UInt8} {format : MessageFormat} {message : UpdateMessage}
    (read : fromBytes hashing bytes format = .ok message) :
    (∃ family, message.eorAfiSafi = some family) ↔ ¬ KeepsSomething hashing.tlvs format bytes := by
  obtain ⟨body, decoded, -⟩ := Checked.of_bind read
  obtain ⟨final, sections⟩ := decodeBody_decoded decoded
  rw [sections.keeps_iff]
  simp only [not_or, not_exists, not_and, not_not, Bool.not_eq_false]
  cases all : body.withdrawAll with
  | true =>
    obtain ⟨stays, rfl⟩ := fromBytes_withdrawn decoded all read
    have collected : hashing.routes.keys body.allRoutes = [] ↔ body.allRoutes = [] := by
      simp [eq_nil_iff_forall_not_mem, HashOrder.mem_keys]
    rw [eorAfiSafi_newWithdraw, collected, allRoutes_eq_nil]
    constructor
    · rintro ⟨noWithdrawn, noNlri, noRoutes⟩
      refine ⟨noWithdrawn, noNlri, sections.unescalated noNlri noRoutes stays, noRoutes, fun _ => ?_⟩
      rw [← withdrawAll_of_noRoutes body noNlri noRoutes, all]
    · rintro ⟨noWithdrawn, noNlri, -, noRoutes, -⟩
      exact ⟨noWithdrawn, noNlri, noRoutes⟩
  | false =>
    rw [fromBytes_kept decoded all read, sections.eor_asMessage]
    have unflagged : body.treatAsWithdraw = false := (Bool.or_eq_false_iff.mp all).1
    constructor
    · rintro ⟨noWithdrawn, noNlri, each⟩
      refine ⟨noWithdrawn, noNlri, fun attr member => (each attr member).1, fun attr member => (each attr member).2.1, ?_⟩
      rintro ⟨attr, member, names⟩
      exact absurd (each attr member).2.2 names
    · rintro ⟨noWithdrawn, noNlri, codes, noRoutes, noEntries⟩
      refine ⟨noWithdrawn, noNlri, fun attr member => ⟨codes attr member, noRoutes attr member, ?_⟩⟩
      by_contra names
      have flagged := noEntries ⟨attr, member, names⟩
      rw [unflagged] at flagged
      cases flagged

section

variable {order : HashOrder UInt16} {format : MessageFormat} {bytes : List UInt8} {body : DecodedBody} {final : AttrScan}

theorem length_withdrawnField (fields : HasLengthFields bytes) : (withdrawnField bytes).length = withdrawnLen bytes := by
  rw [HasLengthFields] at fields
  exact length_take_of_le (by rw [length_drop]; omega)

theorem length_attrField (agree : LengthsAgree bytes) : (attrField bytes).length = attrLen bytes := by
  rw [LengthsAgree] at agree
  exact length_take_of_le (by rw [length_drop]; omega)

theorem zero_pair {first second : UInt8} (zero : (u16FromBytes [first, second]).toNat = 0) : [first, second] = [0, 0] := by
  have none : u16FromBytes [first, second] = 0 := UInt16.toNat_inj.mp zero
  have written := u16Bytes_u16FromBytes [first, second] rfl
  rw [none] at written
  exact written.symm

theorem four_zero_bytes (fields : HasLengthFields bytes) (noWithdrawn : withdrawnLen bytes = 0) (noAttributes : attrLen bytes = 0)
    (noNlri : nlriField bytes = []) : bytes = [0, 0, 0, 0] := by
  rw [HasLengthFields, noWithdrawn] at fields
  rw [nlriField, noWithdrawn, noAttributes, drop_eq_nil_iff] at noNlri
  rw [attrLen, noWithdrawn] at noAttributes
  obtain ⟨a, b, c, d, rfl⟩ := length_eq_four.mp (Nat.le_antisymm noNlri fields)
  have first := zero_pair noWithdrawn
  have second := zero_pair noAttributes
  simp only [cons.injEq, and_true] at first second
  rw [first.1, first.2, second.1, second.2]

theorem Decoded.noNlri (decoded : Decoded order bytes format body final) (empty : nlriField bytes = []) : body.nlriList = [] := by
  by_contra some
  have names := (decoded.nlri_nonempty.mp some).2
  rw [empty] at names
  exact not_namesRoute_nil names

theorem Decoded.marker_flags (decoded : Decoded order bytes format body final) {frame : AttrFrame}
    (lone : attrFrames (attrField bytes) = [frame]) (code : frame.typeCode = mpUnreachNlri.toU8)
    (empty : nlriField bytes = []) (stays : body.withdrawAll = true → body.escalates = false) :
    FlagsValid frame.flags .mpUnreachNlri := by
  by_contra invalid
  have known : tryFrom frame.typeCode = some .mpUnreachNlri := by rw [code, attrType_tryFrom_toU8]
  have read : readFrame order format frame = .ok (.malformed .treatAsWithdraw) := by
    simp [readFrame, known, invalid, flagErrorAction]
  have noAttributes : body.pathAttributes = [] := by
    rw [eq_nil_iff_forall_not_mem]
    intro attr member
    obtain ⟨source, inFrames, parsed⟩ := decoded.kept_from member
    rw [lone, mem_singleton] at inFrames
    rw [inFrames, read] at parsed
    cases parsed
  have noNlri := decoded.noNlri empty
  have flagged : body.treatAsWithdraw = true := decoded.flag_iff.mpr (.inr (.inr ⟨frame, by simp [lone], read⟩))
  have nonzero : attrLen bytes ≠ 0 := by
    intro zero
    have noBytes : attrField bytes = [] := by rw [attrField, zero, take_zero]
    rw [noBytes] at lone
    cases lone
  have escapes := stays (by simp [DecodedBody.withdrawAll, flagged])
  simp [DecodedBody.escalates, shouldEscalateToSessionReset, noNlri, DecodedBody.hasMpReachNlri, hasValue, noAttributes,
    decoded.attrLength, nonzero] at escapes

section

variable (nothing : NothingDropped bytes)

include nothing

theorem NothingDropped.carriesMp {frame : AttrFrame} (member : frame ∈ attrFrames (attrField bytes)) : CarriesMp format frame := by
  obtain ⟨code, valid, family, located⟩ := nothing.attributes frame member
  refine ⟨.mpUnreachNlri, family, [], by rw [code, attrType_tryFrom_toU8], valid, located, ?_⟩
  obtain ⟨afi, safi⟩ := family
  cases afi with
  | ipv4 | ipv6 => exact .nil
  | linkState => exact .nil

theorem NothingDropped.frames (sections : SectionReads format (attrFrames (attrField bytes))) :
    attrFrames (attrField bytes) = [] ∨ ∃ frame, attrFrames (attrField bytes) = [frame] := by
  have each := nothing.attributes
  have carries : ∀ frame ∈ attrFrames (attrField bytes), CarriesMp format frame := fun _ => nothing.carriesMp
  have distinct := sections.2
  generalize attrFrames (attrField bytes) = frames at each carries distinct
  cases frames with
  | nil => exact .inl rfl
  | cons first rest =>
    cases rest with
    | nil => exact .inr ⟨first, rfl⟩
    | cons second rest =>
      have other := (pairwise_cons.mp distinct).1 second (by simp) (carries first (by simp)) (carries second (by simp))
      exact absurd ((each first (by simp)).1.trans (each second (by simp)).1.symm) other

theorem NothingDropped.keeps_unflagged : ¬ AsksForWithdraw order format bytes := by
  rintro (unreadable | truncated | ⟨frame, member, malformed⟩)
  · rw [nothing.withdrawn] at unreadable
    exact unreadable .nil
  · exact truncated nothing.tail
  · obtain ⟨-, value, read⟩ := carriesMp_parsed order format frame (nothing.carriesMp member)
    rw [malformed] at read
    cases read

end

end

section

variable {hashing : Hashing} {bytes : List UInt8} {format : MessageFormat} {message : UpdateMessage} {family : AfiSafi}

theorem EorMarker.nothingDropped (marker : EorMarker family bytes) (read : fromBytes hashing bytes format = .ok message) :
    NothingDropped bytes := by
  obtain ⟨rfl, -⟩ | ⟨noWithdrawn, noNlri, noTail, frame, lone, code, located⟩ := marker
  · exact ⟨rfl, rfl, rfl, by rintro frame ⟨⟩⟩
  · obtain ⟨body, decoded, -⟩ := Checked.of_bind read
    obtain ⟨final, sections⟩ := decodeBody_decoded decoded
    refine ⟨by rw [withdrawnField, noWithdrawn, take_zero], noNlri, noTail, ?_⟩
    intro other member
    rw [lone, mem_singleton] at member
    subst member
    exact ⟨code, sections.marker_flags lone code noNlri fun all => (fromBytes_withdrawn decoded all read).1, family, located⟩

theorem NothingDropped.marker (nothing : NothingDropped bytes) (read : fromBytes hashing bytes format = .ok message)
    (eor : message.eorAfiSafi = some family) : EorMarker family bytes := by
  obtain ⟨body, decoded, -⟩ := Checked.of_bind read
  obtain ⟨final, sections⟩ := decodeBody_decoded decoded
  have noWithdrawn : withdrawnLen bytes = 0 := by
    rw [← length_withdrawnField sections.fields, nothing.withdrawn, length_nil]
  have layout := (attrFrames_layout (attrField bytes)).1
  obtain none | ⟨frame, lone⟩ := nothing.frames sections.sections
  · rw [none, nothing.tail, flatMap_nil, nil_append] at layout
    have noAttributes : attrLen bytes = 0 := by rw [← length_attrField sections.agree, layout, length_nil]
    have zeros := four_zero_bytes sections.fields noWithdrawn noAttributes nothing.nlri
    subst zeros
    have empty : fromBytes hashing [0, 0, 0, 0] format = .ok ⟨0, [], 0, [], [], format⟩ := rfl
    rw [empty] at read
    cases read
    cases eor
    exact .inl ⟨rfl, rfl⟩
  · obtain ⟨code, -, found, located⟩ := nothing.attributes frame (by simp [lone])
    have keeps := (eor_iff_keeps_nothing read).mp ⟨family, eor⟩
    rw [sections.keeps_iff] at keeps
    simp only [not_or, not_exists, not_and, not_not] at keeps
    have unflagged : body.treatAsWithdraw = false := by
      rw [← Bool.not_eq_true, sections.flag_iff]
      exact nothing.keeps_unflagged
    have kept : body.withdrawAll = false := by rw [withdrawAll_of_noRoutes body keeps.2.1 keeps.2.2.2.1, unflagged]
    rw [fromBytes_kept decoded kept read, eorAfiSafi_eq_some] at eor
    obtain ⟨mp, value, parsed⟩ := carriesMp_parsed hashing.tlvs format frame (nothing.carriesMp (by simp [lone]))
    have recorded := sections.mp_recorded (by simp [lone]) parsed mp
    obtain ⟨-, -, ⟨noAttributes, -⟩ | ⟨flags, unreach, shape, -, -, rfl⟩⟩ := eor
    · rw [show body.pathAttributes = [] from noAttributes] at recorded
      cases recorded
    · rw [show body.pathAttributes = [⟨flags, .mpUnreachNlri unreach⟩] from shape, mem_singleton] at recorded
      rw [recorded] at parsed
      have known : tryFrom frame.typeCode = some .mpUnreachNlri := by rw [code, attrType_tryFrom_toU8]
      obtain ⟨other, field, lists, same, -, valueShape⟩ := parseMpUnreach_value (readFrame_known parsed known).2.2
      rw [located] at same
      cases same
      cases valueShape
      exact .inr ⟨noWithdrawn, nothing.nlri, nothing.tail, frame, lone, code, located⟩

-- The decoder takes only markers for markers exactly on the bodies of which it keeps
-- something or drops nothing.
theorem eor_only_marker_iff (hashing : Hashing) (bytes : List UInt8) (format : MessageFormat) (message : UpdateMessage)
    (read : UpdateMessage.fromBytes hashing bytes format = .ok message) :
    (∀ family, message.eorAfiSafi = some family → EorMarker family bytes) ↔
      KeepsSomething hashing.tlvs format bytes ∨ NothingDropped bytes := by
  constructor
  · intro onlyMarkers
    by_cases keeps : KeepsSomething hashing.tlvs format bytes
    · exact .inl keeps
    · obtain ⟨family, eor⟩ := (eor_iff_keeps_nothing read).mpr keeps
      exact .inr ((onlyMarkers family eor).nothingDropped read)
  · intro either family eor
    cases either with
    | inl keeps => exact absurd keeps ((eor_iff_keeps_nothing read).mp ⟨family, eor⟩)
    | inr nothing => exact nothing.marker read eor

theorem ipv6_marker_taken : ∃ message, UpdateMessage.fromBytes default [0, 0, 0, 6, 0x80, 15, 3, 0, 2, 1] PRE_OPEN_FORMAT = .ok message ∧
      message.eorAfiSafi = some ipv6Unicast ∧ EorMarker ipv6Unicast [0, 0, 0, 6, 0x80, 15, 3, 0, 2, 1] := by
  obtain ⟨message, read, eor⟩ : ∃ message, fromBytes default [0, 0, 0, 6, 0x80, 15, 3, 0, 2, 1] PRE_OPEN_FORMAT = .ok message ∧
        message.eorAfiSafi = some ipv6Unicast := ⟨_, rfl, by decide +kernel⟩
  refine ⟨message, read, eor, (eor_only_marker_iff default _ _ message read).mpr (.inr ⟨rfl, rfl, rfl, ?_⟩) _ eor⟩
  intro frame member
  rw [mem_singleton.mp member]
  exact ⟨rfl, by decide +kernel, ipv6Unicast, by decide +kernel⟩

theorem EorMarker.shape (marker : EorMarker family bytes) :
    bytes = [0, 0, 0, 0] ∨ (withdrawnLen bytes = 0 ∧ nlriField bytes = [] ∧
      (attrFrames (attrField bytes)).map AttrFrame.typeCode = [mpUnreachNlri.toU8]) := by
  obtain ⟨zeros, -⟩ | ⟨noWithdrawn, noNlri, -, frame, lone, code, -⟩ := marker
  · exact .inl zeros
  · exact .inr ⟨noWithdrawn, noNlri, by simp [lone, code]⟩

end

def TakenForMarker (bytes : List UInt8) : Prop := ∃ message, UpdateMessage.fromBytes default bytes PRE_OPEN_FORMAT = .ok message ∧
    message.eorAfiSafi = some ipv4Unicast ∧ ¬ EorMarker ipv4Unicast bytes

-- A withdrawn multicast prefix; bytes after an empty attribute section; an attribute that is
-- dropped; and the lost withdrawal of a link-state node.
theorem dropped_bodies_taken_for_markers : TakenForMarker [0, 2, 8, 224, 0, 0] ∧ TakenForMarker [0, 0, 0, 0, 8, 10] ∧
      TakenForMarker [0, 0, 0, 4, 0x40, 6, 1, 0] ∧ TakenForMarker nodeWithdrawal := by
  refine ⟨?_, ?_, ?_, ?_⟩ <;> exact ⟨_, rfl, by decide +kernel, fun marker => absurd marker.shape (by decide +kernel)⟩

end Bgpgg.Wire
