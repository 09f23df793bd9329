import Bgpgg.Wire.BodySections

namespace Bgpgg.Wire

open Lib UpdateMessage List

section

variable (order : HashOrder UInt16) (format : MessageFormat) (bytes : List UInt8)

def NamesNlri (nlri : Nlri) : Prop := (∃ routes, readWithdrawn bytes format = .ok routes ∧ nlri ∈ routes) ∨
    (∃ routes, parseNlriList (nlriField bytes) (format.addPath.contains ipv4Unicast) = .ok routes ∧ nlri ∈ routes) ∨
    ∃ frame ∈ attrFrames (attrField bytes), ∃ attr, readFrame order format frame = .ok (.parsed attr) ∧ nlri ∈ mpNlri attr.value

def NamesLsNlri (entry : LsNlri) : Prop :=
  ∃ frame ∈ attrFrames (attrField bytes), ∃ attr, readFrame order format frame = .ok (.parsed attr) ∧ entry ∈ mpLsNlri attr.value

end

structure WithdrawsAllNamed (order : HashOrder UInt16) (format : MessageFormat) (bytes : List UInt8)
    (message : UpdateMessage) : Prop where
  noNlri : message.allNlri = []
  noLsNlri : message.lsNlriList = []
  withdrawn : ∀ nlri, NamesNlri order format bytes nlri → nlri ∈ message.allWithdrawnRoutes
  lsWithdrawn : ∀ entry, NamesLsNlri order format bytes entry → entry ∈ message.lsWithdrawnList

-- Bodies with no link-state object, and no route after an empty attribute section.
structure RoutesCollected (format : MessageFormat) (bytes : List UInt8) : Prop where
  linkState : ∀ frame ∈ attrFrames (attrField bytes), ¬ FrameNamesLinkState frame
  nlri : attrLen bytes = 0 → ¬ NamesRoute ipv4Family (format.addPath.contains ipv4Unicast) (nlriField bytes)

section

variable (withdrawn : List Nlri) (format : MessageFormat)

theorem newWithdraw_allNlri : (newWithdraw withdrawn format).allNlri = [] := by
  simp only [newWithdraw]
  split <;> rfl

theorem newWithdraw_lsNlriList : (newWithdraw withdrawn format).lsNlriList = [] := by
  simp only [newWithdraw]
  split <;> rfl

theorem newWithdraw_lsWithdrawnList : (newWithdraw withdrawn format).lsWithdrawnList = [] := by
  simp only [newWithdraw]
  split <;> rfl

theorem newWithdraw_allWithdrawnRoutes : (newWithdraw withdrawn format).allWithdrawnRoutes =
    withdrawn.filter isV4 ++ withdrawn.filter fun nlri => !isV4 nlri := by
  simp only [allWithdrawnRoutes, newWithdraw, attrValues]
  split
  · rename_i empty
    simp [isEmpty_iff.mp empty]
  · simp [mpUnreach]

theorem mem_newWithdraw (nlri : Nlri) : nlri ∈ (newWithdraw withdrawn format).allWithdrawnRoutes ↔ nlri ∈ withdrawn := by
  rw [newWithdraw_allWithdrawnRoutes, mem_append, mem_filter, mem_filter]
  cases isV4 nlri <;> simp

end

section

variable {hashing : Hashing} {bytes : List UInt8} {format : MessageFormat} {body : DecodedBody} {message : UpdateMessage}

section

variable (decoded : decodeBody hashing.tlvs bytes format = .ok body)

include decoded

theorem fromBytes_withdrawn (all : body.withdrawAll = true) (read : fromBytes hashing bytes format = .ok message) :
    body.escalates = false ∧ message = .newWithdraw (hashing.routes.keys body.allRoutes) format := by
  rw [fromBytes, decoded, Checked.ok_bind, if_pos all] at read
  split at read
  · cases read
  · rename_i stays
    cases read
    exact ⟨Bool.not_eq_true _ ▸ stays, rfl⟩

theorem fromBytes_kept (some : body.withdrawAll = false)
    (read : fromBytes hashing bytes format = .ok message) : message = body.asMessage format := by
  rw [fromBytes, decoded, Checked.ok_bind, if_neg (by simp [some])] at read
  cases read
  rfl

end

end

section

variable {order : HashOrder UInt16} {format : MessageFormat} {bytes : List UInt8} {body : DecodedBody} {final : AttrScan}

section

variable (decoded : Decoded order bytes format body final)

include decoded

theorem Decoded.mp_recorded {frame : AttrFrame} (member : frame ∈ attrFrames (attrField bytes)) {attr : PathAttribute}
    (read : readFrame order format frame = .ok (.parsed attr)) (mp : isMp frame.typeCode = true) :
    attr ∈ body.pathAttributes := by
  obtain ⟨other, inFinal, -, same⟩ := decoded.attributes.coded frame member attr read
  rw [decoded.recorded, ← same mp]
  exact inFinal

theorem Decoded.emptyAttributes (none : attrLen bytes = 0) : body.pathAttributes = [] ∧ body.nlriList = [] := by
  have empty : attrField bytes = [] := by rw [attrField, none, take_zero]
  have noFrames : attrFrames (attrField bytes) = [] := by rw [empty, attrFrames_nil]
  have nlri := decoded.nlri
  rw [parseNlriField, if_pos none, Checked.ok.injEq] at nlri
  refine ⟨?_, nlri.symm⟩
  rw [decoded.recorded, eq_nil_iff_forall_not_mem]
  intro attr member
  obtain ⟨frame, inFrames, -⟩ := decoded.attributes.kept attr member
  rw [noFrames] at inFrames
  cases inFrames

theorem Decoded.collects
    (some : attrLen bytes ≠ 0 ∨ ¬ NamesRoute ipv4Family (format.addPath.contains ipv4Unicast) (nlriField bytes)) (nlri : Nlri)
    (names : NamesNlri order format bytes nlri) : nlri ∈ body.allRoutes := by
  simp only [DecodedBody.allRoutes, mem_append, collectMpNlri, mem_flatMap]
  obtain ⟨routes, read, member⟩ | ⟨routes, read, member⟩ | ⟨frame, inFrames, attr, read, member⟩ := names
  · cases decoded.withdrawn with
    | inl kept =>
      rw [read] at kept
      cases kept
      exact .inl (.inl member)
    | inr failed =>
      obtain ⟨-, error, failed⟩ := failed
      rw [read] at failed
      cases failed
  · have nonempty : routes ≠ [] := ne_nil_of_mem member
    have inside := (parseNlris_names read).mp nonempty
    cases some with
    | inl nonzero =>
      have kept := decoded.nlri
      rw [parseNlriField, if_neg nonzero, read] at kept
      cases kept
      exact .inl (.inr member)
    | inr nothing => exact absurd inside nothing
  · have mp := ((readFrame_names read).1.mp (ne_nil_of_mem member)).isMp
    exact .inr ⟨attr, decoded.mp_recorded inFrames read mp, member⟩

theorem Decoded.nothing_collected (all : body.withdrawAll = true) (none : attrLen bytes = 0) : body.allRoutes = [] := by
  obtain ⟨noAttributes, noNlri⟩ := decoded.emptyAttributes none
  have flagged : body.treatAsWithdraw = true := by
    simpa [DecodedBody.withdrawAll, noNlri, DecodedBody.hasMpReachNlri, hasValue, noAttributes] using all
  have noWithdrawn : body.withdrawnRoutes = [] := by
    cases decoded.withdrawn with
    | inr failed => exact failed.1
    | inl kept =>
      have empty : attrField bytes = [] := by rw [attrField, none, take_zero]
      have either := decoded.flag.mp flagged
      rw [kept, empty] at either
      have unflagged : final.treatAsWithdraw = true := by simpa using either
      obtain ⟨frame, inFrames, -⟩ := decoded.attributes.flagged.mp unflagged
      rw [empty] at inFrames
      cases inFrames
  simp [DecodedBody.allRoutes, noWithdrawn, noNlri, noAttributes, collectMpNlri]

end

end

theorem namesLsNlri_exists (order : HashOrder UInt16) (format : MessageFormat) (bytes : List UInt8) :
    (∃ entry, NamesLsNlri order format bytes entry) ↔ ∃ frame ∈ attrFrames (attrField bytes), FrameNamesLinkState frame := by
  constructor
  · rintro ⟨entry, frame, member, attr, read, named⟩
    exact ⟨frame, member, (readFrame_names read).2.mp (ne_nil_of_mem named)⟩
  · rintro ⟨frame, member, names⟩
    obtain ⟨attr, read⟩ := frameNamesLinkState_parsed order format names
    obtain ⟨entry, named⟩ := exists_mem_of_ne_nil _ ((readFrame_names read).2.mpr names)
    exact ⟨entry, frame, member, attr, read, named⟩

-- A message that became a withdrawal withdraws every route its body named exactly when the
-- body named no link-state object and no route after an empty attribute section.
theorem withdraws_all_named_iff (hashing : Hashing) (bytes : List UInt8) (format : MessageFormat) (body : DecodedBody)
    (message : UpdateMessage) (decoded : decodeBody hashing.tlvs bytes format = .ok body) (all : body.withdrawAll = true)
    (read : UpdateMessage.fromBytes hashing bytes format = .ok message) :
    WithdrawsAllNamed hashing.tlvs format bytes message ↔ RoutesCollected format bytes := by
  obtain ⟨final, sections⟩ := decodeBody_decoded decoded
  obtain ⟨-, rfl⟩ := fromBytes_withdrawn decoded all read
  constructor
  · intro covers
    constructor
    · intro frame member names
      obtain ⟨entry, named⟩ := (namesLsNlri_exists hashing.tlvs format bytes).mpr ⟨frame, member, names⟩
      have listed := covers.lsWithdrawn entry named
      rw [newWithdraw_lsWithdrawnList] at listed
      cases listed
    · intro none names
      obtain ⟨routes, parsed⟩ := (parseNlris_outcome (nlriField bytes)).1.mpr names.entries
      obtain ⟨nlri, member⟩ := exists_mem_of_ne_nil _ ((parseNlris_names parsed).mpr names)
      have listed := covers.withdrawn nlri (.inr (.inl ⟨routes, parsed, member⟩))
      rw [mem_newWithdraw, HashOrder.mem_keys, sections.nothing_collected all none] at listed
      cases listed
  · intro collected
    refine ⟨newWithdraw_allNlri _ _, newWithdraw_lsNlriList _ _, ?_, ?_⟩
    · intro nlri names
      rw [mem_newWithdraw, HashOrder.mem_keys]
      exact sections.collects (Decidable.not_or_of_imp collected.nlri) nlri names
    · intro entry named
      obtain ⟨frame, member, names⟩ := (namesLsNlri_exists hashing.tlvs format bytes).mp ⟨entry, named⟩
      exact absurd names (collected.linkState frame member)

def incompleteAnnouncement : List UInt8 := [0, 0, 0, 4, 0x40, 1, 1, 0, 8, 10]

theorem incomplete_announcement_withdrawn : ∃ message,
    UpdateMessage.fromBytes default incompleteAnnouncement PRE_OPEN_FORMAT = .ok message ∧
      message.withdrawnRoutes ≠ [] ∧ WithdrawsAllNamed default PRE_OPEN_FORMAT incompleteAnnouncement message := by
  obtain ⟨body, decoded, all⟩ : ∃ body, decodeBody default incompleteAnnouncement PRE_OPEN_FORMAT = .ok body ∧
      body.withdrawAll = true := ⟨_, rfl, by decide +kernel⟩
  obtain ⟨message, read, kept⟩ : ∃ message,
      fromBytes default incompleteAnnouncement PRE_OPEN_FORMAT = .ok message ∧ message.withdrawnRoutes ≠ [] :=
    ⟨_, rfl, by decide +kernel⟩
  refine ⟨message, read, kept, (withdraws_all_named_iff default _ _ body message decoded all read).mpr ⟨?_, ?_⟩⟩
  · rintro frame member ⟨attrType, family, field, known, -, located, -⟩
    rw [mem_singleton.mp member] at known
    cases known
    cases located
  · intro none
    exact absurd none (by decide +kernel)

-- The withdrawal of a link-state node next to a COMMUNITIES attribute of one byte.
def nodeWithdrawal : List UInt8 :=
  [0, 0, 0, 27, 0x80, 15, 20, 0x40, 4, 71, 0, 1, 0, 13, 2, 0, 0, 0, 0, 0, 0, 0, 1, 1, 0, 0, 0, 0xC0, 8, 1, 0]

theorem node_withdrawal_lost : ∃ body message entry, decodeBody default nodeWithdrawal PRE_OPEN_FORMAT = .ok body ∧
    body.withdrawAll = true ∧ UpdateMessage.fromBytes default nodeWithdrawal PRE_OPEN_FORMAT = .ok message ∧
    NamesLsNlri default PRE_OPEN_FORMAT nodeWithdrawal entry ∧ entry ∉ message.lsWithdrawnList := by
  refine ⟨_, _, ⟨1, [2, 0, 0, 0, 0, 0, 0, 0, 1, 1, 0, 0, 0], some ⟨2, 1, .node ⟨none, none, none, none, []⟩⟩, none⟩, rfl,
    by decide +kernel, rfl, ?_, by decide +kernel⟩
  exact ⟨⟨0x80, 15, [0x40, 4, 71, 0, 1, 0, 13, 2, 0, 0, 0, 0, 0, 0, 0, 1, 1, 0, 0, 0]⟩, by decide +kernel, _, rfl, by decide +kernel⟩

end Bgpgg.Wire
