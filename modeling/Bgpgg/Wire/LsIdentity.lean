import Bgpgg.Wire.LsRoundTrip

namespace Bgpgg.Wire

open Net Lib

def lsKeyAt (order : HashOrder UInt16) (bytes : List UInt8) (safi : Safi) (index : Nat) : Option LsNlri :=
  match parseLsNlriList order bytes safi with
  | .ok entries => entries[index]?
  | _ => none

def LsNlri.SameBytes (first second : LsNlri) : Prop :=
  first.nlriType = second.nlriType ∧ first.routeDistinguisher = second.routeDistinguisher ∧ first.raw = second.raw

def LsNlri.walked (order : HashOrder UInt16) (entry : LsNlri) : LsNlri :=
  { entry with body := decodedBody order entry.nlriType entry.raw }

theorem pushLsNlri_walked (order other : HashOrder UInt16) (safi : Safi) (framed : LsTlv) (entries : List LsNlri) :
    pushLsNlri other safi framed (entries.map (LsNlri.walked other)) =
      (pushLsNlri order safi framed entries).map (LsNlri.walked other) := by
  simp only [pushLsNlri]
  split
  · split
    · rfl
    · rw [List.map_append]
      rfl
  · rw [List.map_append]
    rfl

section

variable {order : HashOrder UInt16} {bytes : List UInt8} {safi : Safi}

theorem parseLsNlriList_walked (other : HashOrder UInt16) {entries : List LsNlri}
    (parsed : parseLsNlriList order bytes safi = .ok entries) :
    parseLsNlriList other bytes safi = .ok (entries.map (LsNlri.walked other)) := by
  have walk := scan_induct (parseLsNlri_advances order safi bytes.length)
    (fun state left outcome => left.length ≤ bytes.length → ∀ final, outcome = .ok final →
      scan (parseLsNlri other safi) (state.map (LsNlri.walked other)) left = .ok (final.map (LsNlri.walked other)))
    (by intro state _ final same; cases same; rfl)
    (by intro _ _ _ _ _ _ _ final same; cases same)
    (by intro _ _ _ _ _ _ _ final same; cases same)
    (by
      intro state left next rest nonempty short moved kept _ final same
      obtain ⟨framed, fits, rfl⟩ := parseLsNlri_exact order safi moved
      rw [parseLsNlri_write order safi state framed rest fits] at moved
      cases moved
      rw [scan_step (parseLsNlri_advances other safi bytes.length) _ _ nonempty short, parseLsNlri_write other safi _ framed rest fits,
        pushLsNlri_walked order other]
      rw [List.length_append] at short
      exact kept (by omega) final same)
    [] bytes (Nat.le_refl _)
  exact walk (Nat.le_refl _) entries parsed

theorem lsKeyAt_walked (other : HashOrder UInt16) {index : Nat} {entry : LsNlri} (found : lsKeyAt order bytes safi index = some entry) :
    lsKeyAt other bytes safi index = some (entry.walked other) := by
  unfold lsKeyAt at found ⊢
  split at found
  · rename_i entries parsed
    rw [parseLsNlriList_walked other parsed]
    dsimp only
    rw [List.getElem?_map, found]
    rfl
  · cases found

end

-- Keys tell NLRIs apart as their bytes do, whatever order the tables are walked in, unless the
-- same link or prefix brings unknown descriptors of two types.
theorem ls_key_identity_iff (firstBytes secondBytes : List UInt8) (firstSafi secondSafi : Safi) (firstIndex secondIndex : Nat)
    (first second : LsNlri) (firstFound : lsKeyAt default firstBytes firstSafi firstIndex = some first)
    (secondFound : lsKeyAt default secondBytes secondSafi secondIndex = some second) :
    (∀ order other : HashOrder UInt16, ∃ key another, lsKeyAt order firstBytes firstSafi firstIndex = some key ∧
      lsKeyAt other secondBytes secondSafi secondIndex = some another ∧ (key = another ↔ key.SameBytes another)) ↔
      (first.SameBytes second → StableBody first.nlriType first.raw) := by
  constructor
  · intro identity same
    rw [← decodedBody_stable_iff]
    intro order other
    obtain ⟨key, another, read, readOther, equal⟩ := identity order other
    rw [lsKeyAt_walked order firstFound] at read
    rw [lsKeyAt_walked other secondFound] at readOther
    cases read
    cases readOther
    have bodies := congrArg LsNlri.body (equal.mpr same)
    obtain ⟨sameType, -, sameRaw⟩ := same
    rw [LsNlri.walked, LsNlri.walked, ← sameType, ← sameRaw] at bodies
    exact bodies
  · intro stable order other
    refine ⟨first.walked order, second.walked other, lsKeyAt_walked order firstFound,
      lsKeyAt_walked other secondFound, fun equal => ?_, fun same => ?_⟩
    · rw [equal]
      exact ⟨rfl, rfl, rfl⟩
    · have bodies := (decodedBody_stable_iff first.nlriType first.raw).mpr (stable same) order other
      obtain ⟨sameType, sameRd, sameRaw⟩ := same
      obtain ⟨nlriType, raw, body, rd⟩ := first
      cases sameType
      cases sameRd
      cases sameRaw
      exact congrArg (fun body => LsNlri.mk _ _ body _) bodies

def prefixNlri : List UInt8 := [1, 0, 0, 0, 0, 0, 0, 0, 0] ++ [1, 0, 0, 0] ++ [3, 0xe8, 0, 0]

def prefixKey : LsNlri := ⟨3, prefixNlri, decodedBody default 3 prefixNlri, none⟩

theorem prefixNlri_stable : StableBody 3 prefixNlri := by
  intro tlvs body parsed _ _
  have shown : parseTlvList (prefixNlri.drop NLRI_BODY_HEADER_LEN) = .ok [⟨256, []⟩, ⟨1000, []⟩] := by decide +kernel
  rw [shown] at parsed
  cases parsed
  unfold OneUnknownType LsTlv.Unknown
  decide

theorem ls_key_identity_of_prefix : lsKeyAt default ([0, 3, 0, 17] ++ prefixNlri) .linkState 0 = some prefixKey ∧
      ∀ order other : HashOrder UInt16, ∃ key another, lsKeyAt order ([0, 3, 0, 17] ++ prefixNlri) .linkState 0 = some key ∧
        lsKeyAt other ([0, 3, 0, 17] ++ prefixNlri) .linkState 0 = some another ∧ (key = another ↔ key.SameBytes another) := by
  have found : lsKeyAt default ([0, 3, 0, 17] ++ prefixNlri) .linkState 0 = some prefixKey := by decide +kernel
  exact ⟨found, (ls_key_identity_iff _ _ _ _ 0 0 prefixKey prefixKey found found).mpr fun _ => prefixNlri_stable⟩

-- Another such descriptor, and the same bytes become two keys.
def unnamedPrefix : List UInt8 := [0, 3, 0, 21] ++ prefixNlri ++ [3, 0xe9, 0, 0]

theorem ls_key_depends_on_order : (lsKeyAt default unnamedPrefix .linkState 0).isSome = true ∧
      lsKeyAt default unnamedPrefix .linkState 0 ≠ lsKeyAt (HashOrder.reversed default) unnamedPrefix .linkState 0 := by
  decide +kernel

end Bgpgg.Wire
