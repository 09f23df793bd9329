import Bgpgg.Wire.BodySections

namespace Bgpgg.Wire

open Lib Checked List

def firstFrame (code : UInt8) (bytes : List UInt8) : Option AttrFrame := (attrFrames bytes).find? (·.typeCode == code)

structure FirstUsed (order : HashOrder UInt16) (format : MessageFormat) (bytes : List UInt8) (attrs : List PathAttribute) : Prop where
  distinct : (attrs.map PathAttribute.typeCode).Nodup
  first : ∀ attr ∈ attrs, ∃ frame, firstFrame attr.typeCode bytes = some frame ∧ readFrame order format frame = .ok (.parsed attr)

section

variable {order : HashOrder UInt16} {format : MessageFormat} {state final : AttrScan} {frames : List AttrFrame}

theorem foldlM_keeps (walked : frames.foldlM (applyFrame order format) state = .ok final) :
    state.pathAttributes ⊆ final.pathAttributes := by
  induction frames generalizing state with
  | nil =>
    cases walked
    exact Subset.refl _
  | cons frame rest ih =>
    obtain ⟨next, taken, later⟩ := of_bind walked
    refine Subset.trans ?_ (ih later)
    obtain ⟨attr, -, -, ⟨-, rfl⟩ | ⟨-, -, rfl⟩⟩ | ⟨-, rfl⟩ | ⟨-, rfl⟩ := applyFrame_cases taken
    · exact subset_append_left _ _
    all_goals exact Subset.refl _

theorem first_kept {code : UInt8} {first : AttrFrame} {attr : PathAttribute}
    (walked : frames.foldlM (applyFrame order format) {} = .ok final) (found : frames.find? (·.typeCode == code) = some first)
    (read : readFrame order format first = .ok (.parsed attr)) : attr ∈ final.pathAttributes := by
  obtain ⟨own, before, after, rfl, others⟩ := find?_eq_some_iff_append.mp found
  rw [foldlM_append] at walked
  obtain ⟨state, earlier, onward⟩ := of_bind walked
  obtain ⟨next, taken, later⟩ := of_bind onward
  have reading := reading_of_foldlM before state earlier
  apply foldlM_keeps later
  obtain ⟨parsed, same, -, ⟨-, rfl⟩ | ⟨seen, -⟩⟩ | ⟨malformed, -⟩ | ⟨malformed, -⟩ := applyFrame_cases taken
  · cases read.symm.trans same
    exact mem_append_right _ mem_cons_self
  · obtain ⟨other, held, code⟩ := (reading.seen _).mp seen
    obtain ⟨frame, inside, source⟩ := reading.kept other held
    have distinct := others frame inside
    rw [← readFrame_typeCode order format frame source, code, own] at distinct
    cases distinct
  all_goals cases read.symm.trans malformed

theorem first_occurrence_used_iff {bytes : List UInt8} (attrs : List PathAttribute) (withdraw : Bool)
    (short : bytes.length ≤ ATTR_SECTION_LIMIT) (read : readPathAttributes order bytes format = .ok (attrs, withdraw)) :
    FirstUsed order format bytes attrs ↔
      ∀ frame ∈ attrFrames bytes, ∀ attr, readFrame order format frame = .ok (.parsed attr) →
        ∃ first earlier, firstFrame frame.typeCode bytes = some first ∧ readFrame order format first = .ok (.parsed earlier) := by
  rw [readPathAttributes_frames order format bytes short] at read
  obtain ⟨final, walked, same⟩ := of_bind read
  cases same
  have reading := reading_of_foldlM _ final walked
  constructor
  · intro used frame member attr parsed
    obtain ⟨other, held, code, -⟩ := reading.coded frame member attr parsed
    obtain ⟨first, found, source⟩ := used.first other held
    exact ⟨first, other, code ▸ found, source⟩
  · intro sound
    refine ⟨reading.distinct, fun attr held => ?_⟩
    obtain ⟨frame, member, parsed⟩ := reading.kept attr held
    obtain ⟨first, earlier, found, source⟩ := sound frame member attr parsed
    have code := readFrame_typeCode order format frame parsed
    have own : first.typeCode = frame.typeCode := by
      rw [firstFrame] at found
      simpa using find?_some found
    have kept := inj_on_of_nodup_map reading.distinct (first_kept walked found source) held
      ((readFrame_typeCode order format first source).trans (own.trans code.symm))
    exact ⟨first, code ▸ found, kept ▸ source⟩

end

-- The second ATOMIC_AGGREGATE is dropped; the malformed ORIGIN has no other to take its place.
def atomicTwice : List UInt8 := [0x40, 6, 0, 0x40, 1, 0, 0x40, 6, 0]

theorem second_atomic_dropped : readPathAttributes default atomicTwice PRE_OPEN_FORMAT = .ok ([⟨0x40, .atomicAggregate⟩], true) ∧
    FirstUsed default PRE_OPEN_FORMAT atomicTwice [⟨0x40, .atomicAggregate⟩] := by
  have read : readPathAttributes default atomicTwice PRE_OPEN_FORMAT = .ok ([⟨0x40, .atomicAggregate⟩], true) := by decide +kernel
  refine ⟨read, (first_occurrence_used_iff _ _ (by decide) read).mpr fun frame member attr parsed => ?_⟩
  have met : attrFrames atomicTwice = [⟨0x40, 6, []⟩, ⟨0x40, 1, []⟩, ⟨0x40, 6, []⟩] := by decide +kernel
  rw [met] at member
  simp only [mem_cons, not_mem_nil, or_false] at member
  obtain rfl | rfl | rfl := member
  · exact ⟨⟨0x40, 6, []⟩, _, rfl, parsed⟩
  · cases parsed
  · exact ⟨⟨0x40, 6, []⟩, _, rfl, parsed⟩

-- The first ATOMIC_AGGREGATE has a length of 1, so it is discarded without being remembered.
theorem duplicate_of_discarded_used :
    readPathAttributes default [0x40, 6, 1, 0, 0x40, 6, 0] PRE_OPEN_FORMAT = .ok ([⟨0x40, .atomicAggregate⟩], false) ∧
      firstFrame 6 [0x40, 6, 1, 0, 0x40, 6, 0] = some ⟨0x40, 6, [0]⟩ ∧
      ¬ FirstUsed default PRE_OPEN_FORMAT [0x40, 6, 1, 0, 0x40, 6, 0] [⟨0x40, .atomicAggregate⟩] := by
  refine ⟨by decide +kernel, rfl, fun used => ?_⟩
  obtain ⟨frame, first, parsed⟩ := used.first _ mem_cons_self
  cases first
  cases parsed

end Bgpgg.Wire
