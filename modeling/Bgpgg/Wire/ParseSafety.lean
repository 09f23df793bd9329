import Bgpgg.Wire.AttrSafety
import Bgpgg.Wire.Update

namespace Bgpgg.Wire

open Lib Checked

section

variable (bytes : List UInt8)

def withdrawnLen : Nat := (u16FromBytes (bytes.take 2)).toNat

def attrLen : Nat := (u16FromBytes ((bytes.drop (2 + withdrawnLen bytes)).take 2)).toNat

def withdrawnField : List UInt8 := (bytes.drop 2).take (withdrawnLen bytes)

def attrField : List UInt8 := (bytes.drop (2 + withdrawnLen bytes + 2)).take (attrLen bytes)

def nlriField : List UInt8 := bytes.drop (2 + withdrawnLen bytes + 2 + attrLen bytes)

def HasLengthFields : Prop := 2 + withdrawnLen bytes + 2 ≤ bytes.length

def LengthsAgree : Prop := withdrawnLen bytes + attrLen bytes + 4 ≤ bytes.length

end

def EndsInPathId (format : MessageFormat) (field : List UInt8) : Prop :=
  EndsAfterPathId ipv4Family (format.addPath.contains ipv4Unicast) field

-- Bodies that are never read past their end: both length fields are there, and no list of
-- prefixes that is reached ends after a path identifier.
structure ReadableBody (format : MessageFormat) (bytes : List UInt8) : Prop where
  lengthFields : HasLengthFields bytes
  withdrawn : ¬ EndsInPathId format (withdrawnField bytes)
  attributes : LengthsAgree bytes → ¬ SectionOverreads format (attrFrames (attrField bytes))
  nlri : LengthsAgree bytes → SectionReads format (attrFrames (attrField bytes)) → attrLen bytes ≠ 0 →
    ¬ EndsInPathId format (nlriField bytes)

section

variable (order : HashOrder UInt16) (bytes : List UInt8) (format : MessageFormat)

theorem parseNlriList_faults (field : List UInt8) :
    (parseNlriList field (format.addPath.contains ipv4Unicast)).Faults ↔ EndsInPathId format field :=
  (parseNlris_outcome field).2

instance (bytes : List UInt8) : Decidable (LengthsAgree bytes) := inferInstanceAs (Decidable (_ ≤ _))

instance (bytes : List UInt8) : Decidable (HasLengthFields bytes) := inferInstanceAs (Decidable (_ ≤ _))

def parseNlriField (bytes : List UInt8) (format : MessageFormat) : Parse (List Nlri) :=
  if attrLen bytes = 0 then .ok [] else parseNlriList (nlriField bytes) (format.addPath.contains ipv4Unicast)

def decodeSections (order : HashOrder UInt16) (bytes : List UInt8) (format : MessageFormat) : Parse DecodedBody := do
  let withdrawnRoutes ← (parseNlriList (withdrawnField bytes) (format.addPath.contains ipv4Unicast)).optional
  if ¬ LengthsAgree bytes then .err malformedAttributeList
  else do
    let (pathAttributes, attrTreatAsWithdraw) ← readPathAttributes order (attrField bytes) format
    let nlriList ← parseNlriField bytes format
    .ok ⟨UInt16.ofNat (withdrawnLen bytes), withdrawnRoutes.getD [], UInt16.ofNat (attrLen bytes), pathAttributes, nlriList,
      withdrawnRoutes.isNone || attrTreatAsWithdraw⟩

theorem decodeBody_eq (fields : HasLengthFields bytes) : decodeBody order bytes format = decodeSections order bytes format := by
  unfold HasLengthFields at fields
  have withdrawnSlice : (slice bytes WITHDRAWN_ROUTES_LENGTH_SIZE (WITHDRAWN_ROUTES_LENGTH_SIZE + withdrawnLen bytes) :
      Parse (List UInt8)) = .ok (withdrawnField bytes) := by
    rw [WITHDRAWN_ROUTES_LENGTH_SIZE, slice_eq_ok bytes 2 _ ⟨by omega, by omega⟩, Nat.add_sub_cancel_left]
    rfl
  have lenBytes : (bytesAt bytes (WITHDRAWN_ROUTES_LENGTH_SIZE + withdrawnLen bytes) 2 : Parse (List UInt8)) =
      .ok ((bytes.drop (2 + withdrawnLen bytes)).take 2) := bytesAt_eq_ok bytes _ 2 fields
  have zero : (u16FromBytes ((bytes.drop (2 + withdrawnLen bytes)).take 2) = 0) ↔ attrLen bytes = 0 := by
    rw [← UInt16.toNat_inj]
    rfl
  rw [decodeBody, bytesAt_eq_ok bytes 0 2 (by omega)]
  simp only [ok_bind, List.drop_zero]
  rw [show (u16FromBytes (bytes.take 2)).toNat = withdrawnLen bytes from rfl, withdrawnSlice, ok_bind]
  congr 1
  funext withdrawnRoutes
  rw [lenBytes]
  simp only [ok_bind, WITHDRAWN_ROUTES_LENGTH_SIZE, TOTAL_ATTR_LENGTH_SIZE]
  rw [show (u16FromBytes ((bytes.drop (2 + withdrawnLen bytes)).take 2)).toNat = attrLen bytes from rfl]
  by_cases agree : LengthsAgree bytes
  · have inside : withdrawnLen bytes + attrLen bytes + 4 ≤ bytes.length := agree
    have claimed : validateUpdateMessageLengths (withdrawnLen bytes) (attrLen bytes) bytes.length = .ok () :=
      if_neg (Nat.not_lt.mpr agree)
    rw [claimed, if_neg (not_not.mpr agree)]
    rw [slice_eq_ok bytes _ _ ⟨by omega, by omega⟩, Nat.add_sub_cancel_left]
    simp only [ok_bind]
    congr 1
    funext attributes
    have nlriSlice : (slice bytes (2 + withdrawnLen bytes + 2 + attrLen bytes) bytes.length : Parse (List UInt8)) =
        .ok (nlriField bytes) := by
      rw [slice_eq_ok bytes _ _ ⟨by omega, Nat.le_refl _⟩, List.take_of_length_le (by rw [List.length_drop])]
      rfl
    have firstLen : UInt16.ofNat (withdrawnLen bytes) = u16FromBytes (bytes.take 2) := UInt16.ofNat_toNat
    have secondLen : UInt16.ofNat (attrLen bytes) = u16FromBytes ((bytes.drop (2 + withdrawnLen bytes)).take 2) := UInt16.ofNat_toNat
    rw [nlriSlice, firstLen, secondLen, parseNlriField]
    by_cases none : attrLen bytes = 0
    · rw [if_pos (zero.mpr none), if_pos none]
      rfl
    · rw [if_neg (none ∘ zero.mp), if_neg none]
      rfl
  · have claimed : validateUpdateMessageLengths (withdrawnLen bytes) (attrLen bytes) bytes.length =
        .err malformedAttributeList := if_pos (Nat.not_le.mp agree)
    rw [claimed, if_pos agree]
    rfl

theorem decodeBody_faults_short (missing : ¬ HasLengthFields bytes) : (decodeBody order bytes format).Faults := by
  rw [decodeBody, faults_bind]
  by_cases two : 0 + 2 ≤ bytes.length
  · refine .inr ⟨bytes.take 2, bytesAt_eq_ok bytes 0 2 two, ?_⟩
    rw [faults_bind]
    by_cases inside : WITHDRAWN_ROUTES_LENGTH_SIZE + withdrawnLen bytes ≤ bytes.length
    · refine .inr ⟨_, slice_eq_ok bytes _ _ ⟨Nat.le_add_right _ _, inside⟩, ?_⟩
      rw [faults_bind]
      generalize parseNlriList _ _ = withdrawn
      cases withdrawn with
      | fault reason => exact .inl (faults_fault reason)
      | ok routes =>
        refine .inr ⟨some routes, rfl, ?_⟩
        rw [faults_bind]
        exact .inl (faults_bytesAt_short bytes _ 2 (by omega) (Nat.not_le.mp missing))
      | err error =>
        refine .inr ⟨none, rfl, ?_⟩
        rw [faults_bind]
        exact .inl (faults_bytesAt_short bytes _ 2 (by omega) (Nat.not_le.mp missing))
    · exact .inl ((faults_slice bytes _ _).mpr fun both => inside both.2)
  · exact .inl (faults_bytesAt_short bytes 0 2 (by omega) (Nat.not_le.mp two))

theorem decodeSections_faults (short : bytes.length ≤ MAX_BODY_SIZE) : (decodeSections order bytes format).Faults ↔
      EndsInPathId format (withdrawnField bytes) ∨ (LengthsAgree bytes ∧ (SectionOverreads format (attrFrames (attrField bytes)) ∨
          (SectionReads format (attrFrames (attrField bytes)) ∧ attrLen bytes ≠ 0 ∧ EndsInPathId format (nlriField bytes)))) := by
  have sectionShort : (attrField bytes).length ≤ ATTR_SECTION_LIMIT := by
    have taken : (attrField bytes).length ≤ bytes.length := by
      rw [attrField, List.length_take, List.length_drop]
      omega
    have limit : MAX_BODY_SIZE ≤ ATTR_SECTION_LIMIT := by decide
    omega
  obtain ⟨reads, overreads⟩ := readPathAttributes_outcome order format sectionShort
  have nlriFaults : (parseNlriField bytes format).Faults ↔ attrLen bytes ≠ 0 ∧ EndsInPathId format (nlriField bytes) := by
    rw [← parseNlriList_faults, parseNlriField]
    split
    · rename_i none
      simp [none]
    · rename_i some
      simp [some]
  rw [← parseNlriList_faults format (withdrawnField bytes), decodeSections, faults_bind, faults_optional]
  by_cases faulty : (parseNlriList (withdrawnField bytes) (format.addPath.contains ipv4Unicast)).Faults
  · simp [faulty]
  · obtain ⟨withdrawnRoutes, read⟩ : ∃ routes : Option (List Nlri),
        ((parseNlriList (withdrawnField bytes) (format.addPath.contains ipv4Unicast)).optional : Parse _) = .ok routes := by
      cases parsed : parseNlriList (withdrawnField bytes) (format.addPath.contains ipv4Unicast) with
      | ok routes => exact ⟨some routes, rfl⟩
      | err error => exact ⟨none, rfl⟩
      | fault reason =>
        rw [parsed] at faulty
        exact absurd (faults_fault reason) faulty
    simp only [read, Checked.ok.injEq, exists_eq_left']
    by_cases agree : LengthsAgree bytes
    · rw [if_neg (not_not.mpr agree)]
      rw [← overreads, ← reads, ← nlriFaults]
      simp [agree]
    · simp [agree]

end

theorem fromBytes_returns_iff (hashing : Hashing) (bytes : List UInt8) (format : MessageFormat) (short : bytes.length ≤ MAX_BODY_SIZE) :
    ((∃ message, UpdateMessage.fromBytes hashing bytes format = .ok message) ∨
      ∃ error, UpdateMessage.fromBytes hashing bytes format = .err error) ↔ ReadableBody format bytes := by
  have decoded : (UpdateMessage.fromBytes hashing bytes format).Faults ↔ (decodeBody hashing.tlvs bytes format).Faults := by
    rw [UpdateMessage.fromBytes, faults_bind]
    constructor
    · intro either
      cases either with
      | inl here => exact here
      | inr later =>
        obtain ⟨body, -, faulty⟩ := later
        split at faulty
        · split at faulty
          · exact absurd faulty (faults_err _)
          · exact absurd faulty (faults_ok _)
        · exact absurd faulty (faults_ok _)
    · exact Or.inl
  rw [← returns_iff, decoded]
  by_cases fields : HasLengthFields bytes
  · rw [decodeBody_eq hashing.tlvs bytes format fields, decodeSections_faults hashing.tlvs bytes format short]
    constructor
    · intro returns
      obtain ⟨noWithdrawn, noRest⟩ := not_or.mp returns
      refine ⟨fields, noWithdrawn, ?_, ?_⟩
      · intro agree overreads
        exact noRest ⟨agree, .inl overreads⟩
      · intro agree reads some ends
        exact noRest ⟨agree, .inr ⟨reads, some, ends⟩⟩
    · intro readable either
      cases either with
      | inl ends => exact readable.withdrawn ends
      | inr rest =>
        obtain ⟨agree, inside⟩ := rest
        cases inside with
        | inl overreads => exact readable.attributes agree overreads
        | inr nlri => exact readable.nlri agree nlri.1 nlri.2.1 nlri.2.2
  · exact iff_of_false (not_not.mpr (decodeBody_faults_short hashing.tlvs bytes format fields)) fun readable =>
      fields readable.lengthFields

def addPathFormat : MessageFormat := ⟨true, ⟨3⟩, true, false⟩

def addPathBody : List UInt8 := [0, 6, 0, 0, 0, 1, 8, 10, 0, 30, 0x80, 14, 27, 0, 2, 1, 16] ++ List.replicate 15 0 ++
  [1, 0, 0, 0, 0, 2, 8, 0x20, 0, 0, 0, 3, 8, 11]

theorem add_path_body_returns : (∃ message, UpdateMessage.fromBytes default addPathBody addPathFormat = .ok message) ∨
    ∃ error, UpdateMessage.fromBytes default addPathBody addPathFormat = .err error := by
  have whole : ∀ field ∈ [withdrawnField addPathBody, nlriField addPathBody], ¬ EndsInPathId addPathFormat field := by
    intro field member
    rw [← parseNlriList_faults]
    revert field
    decide +kernel
  refine (fromBytes_returns_iff default addPathBody addPathFormat (by decide)).mpr
    ⟨by decide +kernel, whole _ (by simp), fun _ => ?_, fun _ _ _ => whole _ (by simp)⟩
  rw [← (readPathAttributes_outcome default addPathFormat (by decide +kernel)).2]
  decide +kernel

-- An empty body has no length fields; a withdrawn field of one path identifier has no prefix.
theorem short_bodies_read_out_of_bounds : (UpdateMessage.fromBytes default [] PRE_OPEN_FORMAT).Faults ∧
      (UpdateMessage.fromBytes default [0, 4, 0, 0, 0, 1, 0, 0] ⟨true, ⟨1⟩, true, false⟩).Faults := by
  decide +kernel

end Bgpgg.Wire
