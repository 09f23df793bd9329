import Bgpgg.Lib.Checked
import Bgpgg.Wire.Attributes

namespace Bgpgg.Wire

open Net Lib List Checked

inductive UpdateMessageError where
  | malformedAttributeList
  | unrecognizedWellKnownAttribute
  | missingWellKnownAttribute
  | attributeFlagsError
  | attributeLengthError
  | invalidOriginAttribute
  | invalidNextHopAttribute
  | optionalAttributeError
  | invalidNetworkField
  | malformedASPath
  | unknown (code : UInt8)
deriving DecidableEq, Repr

-- The decoder of UPDATE bodies makes no other kind of ParserError.
structure ParserError where
  error : UpdateMessageError
  data : List UInt8
deriving DecidableEq, Repr

abbrev Parse := Checked ParserError

def MAX_IPV4_PREFIX_LEN : UInt8 := 32
def MAX_IPV6_PREFIX_LEN : UInt8 := 128
def PATH_ID_LEN : Nat := 4

def invalidNetworkField : ParserError := ⟨.invalidNetworkField, []⟩

def prefixByteLen (prefixLength : UInt8) : Nat := (prefixLength.toNat + 7) / 8

def validateAndCalculateByteLen (prefixLength maxPrefixLen : UInt8) (remainingBytes : Nat) : Parse Nat :=
  if prefixLength > maxPrefixLen then .err invalidNetworkField
  else if prefixByteLen prefixLength > remainingBytes then .err invalidNetworkField
  else .ok (prefixByteLen prefixLength)

section

variable (bytes : List UInt8) (addPath : Bool)

def parsePathId : Parse (Option UInt32) := if !addPath then .ok none
  else if bytes.length < PATH_ID_LEN then .err invalidNetworkField
  else do
    let id ← bytesAt bytes 0 4
    .ok (some (u32FromBytes id))

-- What the two prefix parsers differ in. The address buffer has room for the longest prefix.
structure PrefixFamily where
  maxPrefixLen : UInt8
  addressLen : Nat
  build : List UInt8 → UInt8 → IpNetwork
  ignored : IpNetwork → Bool
  room : prefixByteLen maxPrefixLen ≤ addressLen

def ipv4Family : PrefixFamily where
  maxPrefixLen := MAX_IPV4_PREFIX_LEN
  addressLen := 4
  build buffer prefixLength := .v4 ⟨Ipv4Addr.fromOctets buffer, prefixLength⟩
  ignored
    | .v4 net => Ipv4Net.isMulticast net
    | .v6 _ => false
  room := by decide

def ipv6Family : PrefixFamily where
  maxPrefixLen := MAX_IPV6_PREFIX_LEN
  addressLen := 16
  build buffer prefixLength := .v6 ⟨Ipv6Addr.fromOctets buffer, prefixLength⟩
  ignored _ := false
  room := by decide

def parseNlri (family : PrefixFamily) (addPath : Bool) (nlriList : List Nlri) (bytes : List UInt8) :
    Parse (List Nlri × List UInt8) := do
  let pathId ← parsePathId bytes addPath
  let bytes := if pathId.isSome then bytes.drop PATH_ID_LEN else bytes
  let prefixLength ← byteAt bytes 0
  let bytes := bytes.drop 1
  let byteLen ← validateAndCalculateByteLen prefixLength family.maxPrefixLen bytes.length
  let copied ← slice bytes 0 byteLen
  let ipBuffer ← copyInto family.addressLen copied
  let net := family.build ipBuffer prefixLength
  let nlriList := if family.ignored net then nlriList else nlriList ++ [⟨net, pathId⟩]
  .ok (nlriList, bytes.drop byteLen)

def parseNlris (family : PrefixFamily) (bytes : List UInt8) (addPath : Bool) : Parse (List Nlri) :=
  scan (parseNlri family addPath) [] bytes

def parseNlriList : Parse (List Nlri) := parseNlris ipv4Family bytes addPath

def parseNlriV6List : Parse (List Nlri) := parseNlris ipv6Family bytes addPath

def writePrefix {width : Nat} (net : IpNet width) : List UInt8 :=
  net.prefixLength :: (addrOctets net.address).take (prefixByteLen net.prefixLength)

def writePathId (pathId : Option UInt32) : List UInt8 := (pathId.map u32Bytes).getD []

def writeNlri (nlri : Nlri) : List UInt8 := writePathId nlri.pathId ++ match nlri.pfx with
    | .v4 net => writePrefix net
    | .v6 net => writePrefix net

def writeNlriList (nlriList : List Nlri) : List UInt8 := nlriList.flatMap writeNlri

-- The shape of a prefix field. Entry bytes are an identifier when there are any, a length and
-- the address bytes of that length.

def pathIdLen : Nat := if addPath then PATH_ID_LEN else 0

end

inductive Entry (family : PrefixFamily) (addPath : Bool) : List UInt8 → Prop where
  | mk (id body : List UInt8) (prefixLength : UInt8) (identified : id.length = pathIdLen addPath)
      (bounded : prefixLength ≤ family.maxPrefixLen) (whole : body.length = prefixByteLen prefixLength) :
      Entry family addPath (id ++ prefixLength :: body)

inductive Entries (family : PrefixFamily) (addPath : Bool) : List UInt8 → Prop where
  | nil : Entries family addPath []
  | cons (entry rest : List UInt8) (first : Entry family addPath entry) (later : Entries family addPath rest) :
      Entries family addPath (entry ++ rest)

def EndsAfterPathId (family : PrefixFamily) (addPath : Bool) (bytes : List UInt8) : Prop :=
  addPath = true ∧ ∃ entries id, bytes = entries ++ id ∧ Entries family addPath entries ∧ id.length = PATH_ID_LEN

section

variable {family : PrefixFamily} {addPath : Bool}

variable (nlriList : List Nlri) (bytes : List UInt8) {entry rest : List UInt8}

def decodedPathId (addPath : Bool) (bytes : List UInt8) : Option UInt32 :=
  if addPath then some (u32FromBytes (bytes.take PATH_ID_LEN)) else none

def pushEntry (family : PrefixFamily) (pathId : Option UInt32) (prefixLength : UInt8) (body : List UInt8)
    (nlriList : List Nlri) : List Nlri :=
  let net := family.build (body ++ List.replicate (family.addressLen - body.length) 0) prefixLength
  if family.ignored net then nlriList else nlriList ++ [⟨net, pathId⟩]

theorem prefixByteLen_mono {first second : UInt8} (below : first ≤ second) : prefixByteLen first ≤ prefixByteLen second := by
  have smaller : first.toNat ≤ second.toNat := below
  unfold prefixByteLen
  omega

theorem parsePathId_eq (addPath : Bool) :
    parsePathId bytes addPath = if addPath = true ∧ bytes.length < PATH_ID_LEN then .err invalidNetworkField
      else .ok (decodedPathId addPath bytes) := by
  cases addPath with
  | false => simp [parsePathId, decodedPathId]
  | true =>
    by_cases short : bytes.length < PATH_ID_LEN
    · simp [parsePathId, short]
    · have enough : 0 + 4 ≤ bytes.length := by
        rw [PATH_ID_LEN] at short
        omega
      simp [parsePathId, bytesAt_eq_ok bytes 0 4 enough, decodedPathId, PATH_ID_LEN]

theorem parseNlri_eq : parseNlri family addPath nlriList bytes =
      if addPath = true ∧ bytes.length < PATH_ID_LEN then .err invalidNetworkField
      else match bytes.drop (pathIdLen addPath) with
        | [] => .fault .outOfBounds
        | prefixLength :: body =>
          if prefixLength ≤ family.maxPrefixLen ∧ prefixByteLen prefixLength ≤ body.length then
            .ok (pushEntry family (decodedPathId addPath bytes) prefixLength (body.take (prefixByteLen prefixLength)) nlriList,
              body.drop (prefixByteLen prefixLength))
          else .err invalidNetworkField := by
  rw [parseNlri, parsePathId_eq]
  by_cases short : addPath = true ∧ bytes.length < PATH_ID_LEN
  · rw [if_pos short, if_pos short]
    rfl
  · have skipped : (if (decodedPathId addPath bytes).isSome then bytes.drop PATH_ID_LEN else bytes) = bytes.drop (pathIdLen addPath) := by
      cases addPath <;> simp [decodedPathId, pathIdLen]
    rw [if_neg short, if_neg short]
    simp only [ok_bind, skipped]
    cases bytes.drop (pathIdLen addPath) with
    | nil => rfl
    | cons prefixLength body =>
      simp only [byteAt_cons_zero, ok_bind, drop_succ_cons, drop_zero, validateAndCalculateByteLen]
      by_cases bounded : prefixLength ≤ family.maxPrefixLen
      · rw [if_neg (UInt8.not_lt.mpr bounded)]
        by_cases whole : prefixByteLen prefixLength ≤ body.length
        · have room : (body.take (prefixByteLen prefixLength)).length ≤ family.addressLen :=
            Nat.le_trans (length_take_le _ _) (Nat.le_trans (prefixByteLen_mono bounded) family.room)
          rw [if_neg (Nat.not_lt.mpr whole), if_pos ⟨bounded, whole⟩]
          simp only [ok_bind, slice_eq_ok body 0 _ ⟨Nat.zero_le _, whole⟩, drop_zero, Nat.sub_zero, copyInto, if_pos room]
          rfl
        · rw [if_pos (Nat.not_le.mp whole), if_neg fun both => whole both.2]
          rfl
      · rw [if_pos (UInt8.not_le.mp bounded), if_neg fun both => bounded both.1]
        rfl

theorem parseNlri_entry (id body rest : List UInt8) (prefixLength : UInt8) (nlriList : List Nlri)
    (identified : id.length = pathIdLen addPath) (bounded : prefixLength ≤ family.maxPrefixLen)
    (whole : body.length = prefixByteLen prefixLength) :
    parseNlri family addPath nlriList ((id ++ prefixLength :: body) ++ rest) =
      .ok (pushEntry family (decodedPathId addPath id) prefixLength body nlriList, rest) := by
  have long : ¬ (addPath = true ∧ ((id ++ prefixLength :: body) ++ rest).length < PATH_ID_LEN) := by
    intro both
    have four : id.length = PATH_ID_LEN := by rw [identified, pathIdLen, if_pos both.1]
    have least := both.2
    simp only [length_append, length_cons] at least
    omega
  have front : ((id ++ prefixLength :: body) ++ rest).drop (pathIdLen addPath) = prefixLength :: (body ++ rest) := by
    rw [← identified, append_assoc, drop_left, cons_append]
  have sameId : decodedPathId addPath ((id ++ prefixLength :: body) ++ rest) = decodedPathId addPath id := by
    cases addPath with
    | false => rfl
    | true =>
      have four : id.length = PATH_ID_LEN := identified
      simp only [decodedPathId]
      rw [append_assoc, ← four, take_left, take_length]
  rw [parseNlri_eq, if_neg long, front]
  simp only [← whole, length_append, bounded, Nat.le_add_right, and_self, if_true, take_left, drop_left, sameId]

theorem Entry.parsed (shape : Entry family addPath entry) (nlriList : List Nlri) (rest : List UInt8) :
    ∃ next, parseNlri family addPath nlriList (entry ++ rest) = .ok (next, rest) := by
  cases shape with
  | mk id body prefixLength identified bounded whole =>
    exact ⟨_, parseNlri_entry id body rest prefixLength nlriList identified bounded whole⟩

theorem parseNlri_shape {nlriList next : List Nlri} {bytes rest : List UInt8}
    (parsed : parseNlri family addPath nlriList bytes = .ok (next, rest)) :
    ∃ entry, Entry family addPath entry ∧ bytes = entry ++ rest := by
  rw [parseNlri_eq] at parsed
  split at parsed
  · cases parsed
  · split at parsed
    · cases parsed
    · rename_i prefixLength body front
      split at parsed
      · rename_i inside
        obtain ⟨-, rfl⟩ := parsed
        refine ⟨bytes.take (pathIdLen addPath) ++ prefixLength :: body.take (prefixByteLen prefixLength),
          .mk _ _ prefixLength ?_ inside.1 (length_take_of_le inside.2), ?_⟩
        · have present : 0 < (bytes.drop (pathIdLen addPath)).length := by rw [front]; exact Nat.succ_pos _
          rw [length_drop] at present
          exact length_take_of_le (by omega)
        · rw [append_assoc, cons_append, take_append_drop, ← front, take_append_drop]
      · cases parsed

-- The only read of a turn outside the buffer is the length byte after an identifier.
theorem parseNlri_faults_iff (nonempty : bytes ≠ []) :
    (parseNlri family addPath nlriList bytes).Faults ↔ addPath = true ∧ bytes.length = PATH_ID_LEN := by
  rw [parseNlri_eq]
  cases addPath with
  | false =>
    cases bytes with
    | nil => exact absurd rfl nonempty
    | cons byte rest =>
      simp only [pathIdLen, Bool.false_eq_true, false_and, if_false, drop_zero]
      split <;> simp
  | true =>
    simp only [pathIdLen, true_and, if_true]
    by_cases short : bytes.length < PATH_ID_LEN
    · simp only [short, if_true, faults_err, false_iff]
      omega
    · simp only [short, if_false]
      cases front : bytes.drop PATH_ID_LEN with
      | nil =>
        have exhausted := drop_eq_nil_iff.mp front
        simp only [faults_fault, true_iff]
        omega
      | cons prefixLength body =>
        have longer : bytes.length ≠ PATH_ID_LEN := by
          intro same
          rw [drop_eq_nil_iff.mpr (by omega)] at front
          cases front
        simp only [longer]
        split <;> simp

theorem Entry.ne_nil (shape : Entry family addPath entry) : entry ≠ [] := by
  cases shape
  simp

theorem parseNlri_advances (limit : Nat) : Advances (parseNlri family addPath) limit := by
  intro nlriList bytes next rest _ _ parsed
  obtain ⟨entry, shape, rfl⟩ := parseNlri_shape parsed
  have positive := length_pos_iff.mpr shape.ne_nil
  rw [length_append]
  omega

theorem Entry.unique {entry other rest left : List UInt8} (shape : Entry family addPath entry)
    (otherShape : Entry family addPath other) (same : entry ++ rest = other ++ left) : rest = left := by
  obtain ⟨next, parsed⟩ := shape.parsed [] rest
  obtain ⟨otherNext, otherParsed⟩ := otherShape.parsed [] left
  rw [same, otherParsed] at parsed
  simp only [Checked.ok.injEq, Prod.mk.injEq] at parsed
  exact parsed.2.symm

theorem Entries.tail_iff (shape : Entry family addPath entry) : Entries family addPath (entry ++ rest) ↔ Entries family addPath rest := by
  refine ⟨fun entries => ?_, .cons entry rest shape⟩
  generalize same : entry ++ rest = bytes at entries
  cases entries with
  | nil => exact absurd (append_eq_nil_iff.mp same).1 shape.ne_nil
  | cons other left first later =>
    rw [shape.unique first same]
    exact later

theorem EndsAfterPathId.bare (id : List UInt8) (four : id.length = PATH_ID_LEN) : EndsAfterPathId family true id :=
  ⟨rfl, [], id, rfl, .nil, four⟩

theorem EndsAfterPathId.tail_iff (shape : Entry family addPath entry) :
    EndsAfterPathId family addPath (entry ++ rest) ↔ EndsAfterPathId family addPath rest := by
  refine ⟨fun ends => ?_, fun ends => ?_⟩
  · obtain ⟨identified, entries, id, split, whole, four⟩ := ends
    subst identified
    cases whole with
    | nil =>
      obtain ⟨next, parsed⟩ := shape.parsed [] rest
      have nonempty : entry ++ rest ≠ [] := fun empty => shape.ne_nil (append_eq_nil_iff.mp empty).1
      have faulty : (parseNlri family true [] (entry ++ rest)).Faults :=
        (parseNlri_faults_iff [] (entry ++ rest) nonempty).mpr ⟨rfl, by rw [split]; exact four⟩
      rw [parsed] at faulty
      exact absurd faulty (faults_ok _)
    | cons other left first later =>
      rw [append_assoc] at split
      exact ⟨rfl, left, id, shape.unique first split, later, four⟩
  · obtain ⟨identified, entries, id, rfl, whole, four⟩ := ends
    exact ⟨identified, entry ++ entries, id, (append_assoc _ _ _).symm, .cons entry entries shape whole, four⟩

theorem parseNlris_outcome : ((∃ nlriList, parseNlris family bytes addPath = .ok nlriList) ↔ Entries family addPath bytes) ∧
      ((parseNlris family bytes addPath).Faults ↔ EndsAfterPathId family addPath bytes) := by
  refine scan_induct (parseNlri_advances bytes.length) (fun _ bytes outcome =>
    ((∃ nlriList, outcome = .ok nlriList) ↔ Entries family addPath bytes) ∧
      (outcome.Faults ↔ EndsAfterPathId family addPath bytes)) ?_ ?_ ?_ ?_ [] bytes (Nat.le_refl _)
  · intro nlriList
    refine ⟨iff_of_true ⟨nlriList, rfl⟩ .nil, iff_of_false (faults_ok _) fun ends => ?_⟩
    obtain ⟨-, entries, id, split, -, four⟩ := ends
    rw [(append_eq_nil_iff.mp split.symm).2] at four
    cases four
  · intro nlriList bytes error nonempty _ failed
    have noEntry : ∀ entry rest, Entry family addPath entry → bytes ≠ entry ++ rest := by
      intro entry rest shape same
      obtain ⟨next, parsed⟩ := shape.parsed nlriList rest
      rw [same, parsed] at failed
      cases failed
    refine ⟨iff_of_false (by simp) fun entries => ?_, iff_of_false (faults_err _) fun ends => ?_⟩
    · cases entries with
      | nil => exact absurd rfl nonempty
      | cons entry rest first later => exact absurd rfl (noEntry entry rest first)
    · obtain ⟨identified, entries, id, split, whole, four⟩ := ends
      cases whole with
      | nil =>
        have faulty : (parseNlri family addPath nlriList bytes).Faults :=
          (parseNlri_faults_iff nlriList bytes nonempty).mpr ⟨identified, by rw [split]; exact four⟩
        rw [failed] at faulty
        exact faulty
      | cons entry rest first later => exact noEntry entry (rest ++ id) first (by rw [split, append_assoc])
  · intro nlriList bytes reason nonempty _ faulted
    have faulty := (parseNlri_faults_iff nlriList bytes nonempty).mp (by rw [faulted]; exact faults_fault _)
    obtain ⟨rfl, four⟩ := faulty
    refine ⟨iff_of_false (by simp) fun entries => ?_, iff_of_true (faults_fault _) (.bare bytes four)⟩
    cases entries with
    | nil => exact absurd rfl nonempty
    | cons entry rest first later =>
      obtain ⟨next, parsed⟩ := first.parsed nlriList rest
      rw [parsed] at faulted
      cases faulted
  · intro nlriList bytes next rest _ _ moved holds
    obtain ⟨entry, shape, rfl⟩ := parseNlri_shape moved
    rw [Entries.tail_iff shape, EndsAfterPathId.tail_iff shape]
    exact holds

end

section

variable {width : Nat} (pathId : Option UInt32) {family : PrefixFamily} {addPath : Bool} {nlri : Nlri}

theorem addrOctets_canonical {net : IpNet width} (aligned : 8 * (width / 8) = width) (canonical : Canonical net) :
    (addrOctets net.address).take (prefixByteLen net.prefixLength) ++
        replicate (width / 8 - prefixByteLen net.prefixLength) 0 = addrOctets net.address := by
  have bytes : prefixByteLen net.prefixLength ≤ width / 8 := by
    have bound := canonical.1
    unfold prefixByteLen
    omega
  have low : net.address.toNat % 256 ^ (width / 8 - prefixByteLen net.prefixLength) = 0 := by
    have divides : 256 ^ (width / 8 - prefixByteLen net.prefixLength) ∣ 2 ^ (width - net.prefixLength.toNat) := by
      rw [show (256 : Nat) = 2 ^ 8 by rfl, ← Nat.pow_mul]
      refine Nat.pow_dvd_pow 2 ?_
      unfold prefixByteLen
      omega
    exact Nat.mod_eq_zero_of_dvd (Nat.dvd_trans divides (Nat.dvd_of_mod_eq_zero canonical.2))
  have zeros := beBytes_low_zero (width / 8) (width / 8 - prefixByteLen net.prefixLength) net.address.toNat (Nat.sub_le _ _) low
  rw [Nat.sub_sub_self bytes] at zeros
  exact zeros.symm

def FillsOctets (net : IpNet width) : Prop := net.prefixLength.toNat ≤ width ∧
    (addrOctets net.address).take (prefixByteLen net.prefixLength) ++
      List.replicate (width / 8 - prefixByteLen net.prefixLength) 0 = addrOctets net.address

-- What a parser takes as it was written: prefixes of its family that it does not skip, with
-- identifiers when it expects them.
inductive Rewritable : PrefixFamily → Bool → Nlri → Prop where
  | v4 (net : Ipv4Net) (pathId : Option UInt32) (fills : FillsOctets net) (unicast : Ipv4Net.isMulticast net = false) :
      Rewritable ipv4Family pathId.isSome ⟨.v4 net, pathId⟩
  | v6 (net : Ipv6Net) (pathId : Option UInt32) (fills : FillsOctets net) :
      Rewritable ipv6Family pathId.isSome ⟨.v6 net, pathId⟩

inductive Writable : PrefixFamily → Bool → Nlri → Prop where
  | v4 (net : Ipv4Net) (pathId : Option UInt32) (canonical : Canonical net) (unicast : Ipv4Net.isMulticast net = false) :
      Writable ipv4Family pathId.isSome ⟨.v4 net, pathId⟩
  | v6 (net : Ipv6Net) (pathId : Option UInt32) (canonical : Canonical net) :
      Writable ipv6Family pathId.isSome ⟨.v6 net, pathId⟩

theorem length_writePathId : (writePathId pathId).length = pathIdLen pathId.isSome := by
  cases pathId <;> simp [writePathId, pathIdLen, PATH_ID_LEN]

theorem decodedPathId_writePathId : decodedPathId pathId.isSome (writePathId pathId) = pathId := by
  cases pathId with
  | none => rfl
  | some id =>
    have whole : (u32Bytes id).take PATH_ID_LEN = u32Bytes id := take_of_length_le (by simp [PATH_ID_LEN])
    simp [decodedPathId, writePathId, whole]

theorem Rewritable.parsed (rewritable : Rewritable family addPath nlri) (nlriList : List Nlri) (rest : List UInt8) :
    parseNlri family addPath nlriList (writeNlri nlri ++ rest) = .ok (nlriList ++ [nlri], rest) := by
  cases rewritable with
  | v4 net pathId fills unicast =>
    have bounded : net.prefixLength ≤ ipv4Family.maxPrefixLen := fills.1
    have bytes : prefixByteLen net.prefixLength ≤ 4 := prefixByteLen_mono bounded
    have whole : ((addrOctets net.address).take (prefixByteLen net.prefixLength)).length =
        prefixByteLen net.prefixLength := length_take_of_le (by simpa using bytes)
    simp only [writeNlri, writePrefix]
    rw [parseNlri_entry _ _ rest net.prefixLength nlriList (length_writePathId pathId) bounded whole, decodedPathId_writePathId]
    simp only [pushEntry, ipv4Family, whole]
    rw [fills.2,
      Ipv4Addr.fromOctets, addrFromOctets_addrOctets _ rfl]
    simp [unicast]
  | v6 net pathId fills =>
    have bounded : net.prefixLength ≤ ipv6Family.maxPrefixLen := fills.1
    have bytes : prefixByteLen net.prefixLength ≤ 16 := prefixByteLen_mono bounded
    have whole : ((addrOctets net.address).take (prefixByteLen net.prefixLength)).length =
        prefixByteLen net.prefixLength := length_take_of_le (by simpa using bytes)
    simp only [writeNlri, writePrefix]
    rw [parseNlri_entry _ _ rest net.prefixLength nlriList (length_writePathId pathId) bounded whole, decodedPathId_writePathId]
    simp only [pushEntry, ipv6Family, whole]
    rw [fills.2,
      Ipv6Addr.fromOctets, addrFromOctets_addrOctets _ rfl]
    simp

theorem Writable.rewritable (writable : Writable family addPath nlri) : Rewritable family addPath nlri := by
  cases writable with
  | v4 net pathId canonical unicast => exact .v4 net pathId ⟨canonical.1, addrOctets_canonical rfl canonical⟩ unicast
  | v6 net pathId canonical => exact .v6 net pathId ⟨canonical.1, addrOctets_canonical rfl canonical⟩

theorem writeNlri_ne_nil (nlri : Nlri) : writeNlri nlri ≠ [] := by
  unfold writeNlri
  cases nlri.pfx <;> simp [writePrefix]

theorem parseNlris_rewritable {nlriList : List Nlri} (rewritable : ∀ nlri ∈ nlriList, Rewritable family addPath nlri) :
    parseNlris family (writeNlriList nlriList) addPath = .ok nlriList := by
  exact scan_items (parseNlri_advances _) writeNlri (Rewritable family addPath) writeNlri_ne_nil
    (fun done _ rest readable => readable.parsed done rest) nlriList rewritable (Nat.le_refl _)

end

theorem parseNlris_writeNlriList (family : PrefixFamily) (addPath : Bool) (nlriList : List Nlri)
    (writable : ∀ nlri ∈ nlriList, Writable family addPath nlri) :
    parseNlris family (writeNlriList nlriList) addPath = .ok nlriList :=
  parseNlris_rewritable fun nlri member => (writable nlri member).rewritable

section

theorem parseNlris_pushed (family : PrefixFamily) (addPath : Bool) (holds : Nlri → Prop)
    (entry : ∀ (id body : List UInt8) (prefixLength : UInt8), prefixLength ≤ family.maxPrefixLen →
      body.length = prefixByteLen prefixLength →
      family.ignored (family.build (body ++ replicate (family.addressLen - body.length) 0) prefixLength) = false →
      holds ⟨family.build (body ++ replicate (family.addressLen - body.length) 0) prefixLength, decodedPathId addPath id⟩)
    (bytes : List UInt8) (nlriList : List Nlri) (parsed : parseNlris family bytes addPath = .ok nlriList) :
    ∀ nlri ∈ nlriList, holds nlri := by
  have advances : Advances (parseNlri family addPath) bytes.length := parseNlri_advances _
  refine scan_invariant advances (fun done _ => ∀ nlri ∈ done, holds nlri) ?_ (Nat.le_refl _) (by simp) parsed
  intro state bytes next rest moved before
  obtain ⟨shape, isEntry, rfl⟩ := parseNlri_shape moved
  cases isEntry with
  | mk id body prefixLength identified bounded whole =>
    rw [parseNlri_entry id body rest prefixLength state identified bounded whole] at moved
    cases moved
    intro nlri member
    simp only [pushEntry] at member
    split at member
    · exact before nlri member
    · rename_i unignored
      cases mem_append.mp member with
      | inl older => exact before nlri older
      | inr last =>
        rw [mem_singleton.mp last]
        exact entry id body prefixLength bounded whole (Bool.not_eq_true _ ▸ unignored)

section

variable (addPath : Bool) (bytes : List UInt8) (nlriList : List Nlri)

theorem decodedPathId_isSome : (decodedPathId addPath bytes).isSome = addPath := by
  cases addPath <;> rfl

theorem fillsOctets_built {width : Nat} (aligned : 8 * (width / 8) = width) {body : List UInt8} {prefixLength : UInt8}
    (bounded : prefixLength.toNat ≤ width) (whole : body.length = prefixByteLen prefixLength) :
    FillsOctets (⟨addrFromOctets width (body ++ replicate (width / 8 - body.length) 0), prefixLength⟩ : IpNet width) := by
  have room : body.length ≤ width / 8 := by
    rw [whole, prefixByteLen]
    omega
  have octets : addrOctets (addrFromOctets width (body ++ replicate (width / 8 - body.length) 0)) =
      body ++ replicate (width / 8 - body.length) 0 :=
    addrOctets_addrFromOctets aligned (by rw [length_append, length_replicate]; omega)
  refine ⟨bounded, ?_⟩
  rw [octets, ← whole, take_left]

theorem parseNlris_rewritable_v4
    (parsed : parseNlris ipv4Family bytes addPath = .ok nlriList) : ∀ nlri ∈ nlriList, Rewritable ipv4Family addPath nlri := by
  refine parseNlris_pushed ipv4Family addPath (Rewritable ipv4Family addPath) ?_ bytes nlriList parsed
  intro id body prefixLength bounded whole kept
  have rewritable := Rewritable.v4 ⟨Ipv4Addr.fromOctets (body ++ replicate (4 - body.length) 0), prefixLength⟩
    (decodedPathId addPath id) (fillsOctets_built (rfl : 8 * (32 / 8) = 32) bounded whole) kept
  rw [decodedPathId_isSome] at rewritable
  exact rewritable

theorem parseNlris_rewritable_v6
    (parsed : parseNlris ipv6Family bytes addPath = .ok nlriList) : ∀ nlri ∈ nlriList, Rewritable ipv6Family addPath nlri := by
  refine parseNlris_pushed ipv6Family addPath (Rewritable ipv6Family addPath) ?_ bytes nlriList parsed
  intro id body prefixLength bounded whole _
  have rewritable := Rewritable.v6 ⟨Ipv6Addr.fromOctets (body ++ replicate (16 - body.length) 0), prefixLength⟩
    (decodedPathId addPath id) (fillsOctets_built (rfl : 8 * (128 / 8) = 128) bounded whole)
  rw [decodedPathId_isSome] at rewritable
  exact rewritable

end

end

end Bgpgg.Wire
