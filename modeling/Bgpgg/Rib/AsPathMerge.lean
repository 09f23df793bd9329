import Bgpgg.Rib.PathEncoding

namespace Bgpgg.Wire

open Rib List

section

variable (segments : List AsPathSegment)

def plainSegments : List AsPathSegment := segments.filter fun segment => !isConfedSegment segment.segmentType

def plainAsns : List UInt32 := (plainSegments segments).flatMap AsPathSegment.asnList

def leadingConfed : List AsPathSegment := segments.takeWhile fun segment => isConfedSegment segment.segmentType

end

section

variable {prependCount prepended : Nat} {segments : List AsPathSegment}

theorem plainAsns_cons (segment : AsPathSegment) (rest : List AsPathSegment) : plainAsns (segment :: rest) =
      if isConfedSegment segment.segmentType then plainAsns rest else segment.asnList ++ plainAsns rest := by
  cases confed : isConfedSegment segment.segmentType with
  | true => simp [plainAsns, plainSegments, confed]
  | false => simp [plainAsns, plainSegments, confed]

theorem copyLeading_done (segments : List AsPathSegment) (done : ¬ prepended < prependCount) :
    copyLeading prependCount prepended segments = [] := by
  cases segments with
  | nil => rfl
  | cons segment rest => simp [copyLeading, done]

theorem plainAsns_copyLeading :
    plainAsns (copyLeading prependCount prepended segments) = (plainAsns segments).take (prependCount - prepended) := by
  induction segments generalizing prepended with
  | nil => simp [copyLeading, plainAsns, plainSegments]
  | cons segment rest ih =>
    by_cases more : prepended < prependCount
    · rw [copyLeading, plainAsns_cons]
      by_cases confed : isConfedSegment segment.segmentType = true
      · rw [if_pos confed, if_pos more, if_pos confed, plainAsns_cons, if_pos confed, ih]
      · rw [if_neg confed, if_pos more, if_neg confed, take_append]
        by_cases cut : min (prependCount - prepended) segment.asnList.length > 0
        · have left : prependCount - (prepended + min (prependCount - prepended) segment.asnList.length) =
              prependCount - prepended - segment.asnList.length := by
            omega
          rw [if_pos cut, plainAsns_cons, if_neg confed, ih, left]
          congr 1
          exact take_eq_take_iff.mpr (by omega)
        · have empty : segment.asnList = [] := length_eq_zero_iff.mp (by omega)
          simp [ih, empty]
    · have spent : prependCount - prepended = 0 := by omega
      rw [copyLeading_done _ more, spent]
      rfl

theorem leadingConfed_copyLeading (more : prepended < prependCount) :
    leadingConfed segments <+: copyLeading prependCount prepended segments := by
  induction segments with
  | nil => exact nil_prefix
  | cons segment rest ih =>
    rw [leadingConfed, takeWhile_cons]
    split
    · rename_i confed
      rw [copyLeading, if_pos confed, if_pos more]
      exact (prefix_cons_inj segment).mpr ih
    · exact nil_prefix

theorem copyLeading_counted (counted : ∀ segment ∈ segments, SegmentCounted segment) :
    ∀ segment ∈ copyLeading prependCount prepended segments, segment.segmentLen.toNat = segment.asnList.length := by
  induction segments generalizing prepended with
  | nil => exact fun segment member => by cases member
  | cons first rest ih =>
    obtain ⟨own, others⟩ := forall_mem_cons.mp counted
    have byte : first.asnList.length < UInt8.size := own.counted ▸ first.segmentLen.toNat_lt
    have cut : (UInt8.ofNat (min (prependCount - prepended) first.asnList.length)).toNat =
        (first.asnList.take (min (prependCount - prepended) first.asnList.length)).length := by
      rw [length_take, UInt8.toNat_ofNat_of_lt' (by omega)]
      omega
    simp only [copyLeading]
    split_ifs
    · exact forall_mem_cons.mpr ⟨own.counted, ih others⟩
    · exact fun segment member => by cases member
    · exact forall_mem_cons.mpr ⟨cut, ih others⟩
    · exact ih others
    · exact fun segment member => by cases member

end

-- What RFC 6793 asks of the path rebuilt from AS_PATH and AS4_PATH.
structure Rebuilt (asPath as4Path merged : AsPath) : Prop where
  asns : plainAsns merged.segments =
    (plainAsns asPath.segments).take (countNonConfedAsns asPath - countNonConfedAsns as4Path) ++ plainAsns as4Path.segments
  leading : leadingConfed asPath.segments <+: merged.segments
  counted : ∀ segment ∈ merged.segments, segment.segmentLen.toNat = segment.asnList.length

-- With nothing to put in front, the walk over AS_PATH stops before its first segment, so
-- confederation segments at its head are lost.
theorem merge_as_paths_iff (asPath as4Path : AsPath) (counted : ∀ segment ∈ asPath.segments, SegmentCounted segment)
    (counted4 : ∀ segment ∈ as4Path.segments, SegmentCounted segment) :
    (countNonConfedAsns as4Path ≤ countNonConfedAsns asPath → Rebuilt asPath as4Path (mergeAsPaths asPath as4Path)) ∧
        (countNonConfedAsns asPath < countNonConfedAsns as4Path → mergeAsPaths asPath as4Path = asPath) ↔
      (countNonConfedAsns as4Path = countNonConfedAsns asPath → leadingConfed asPath.segments = []) := by
  have kept : ∀ segment ∈ plainSegments as4Path.segments, isConfedSegment segment.segmentType = false := by
    intro segment member
    simpa using (mem_filter.mp member).2
  constructor
  · rintro ⟨rebuilds, _⟩ same
    have leading := (rebuilds (Nat.le_of_eq same)).leading
    rw [mergeAsPaths, if_neg (by omega), same, Nat.sub_self, copyLeading_done _ (Nat.lt_irrefl 0)] at leading
    refine eq_nil_iff_forall_not_mem.mpr fun segment member => ?_
    have confed := all_eq_true.mp all_takeWhile segment member
    rw [kept segment (leading.subset member)] at confed
    cases confed
  · intro bare
    refine ⟨fun fits => ?_, fun longer => if_pos longer⟩
    rw [mergeAsPaths, if_neg (Nat.not_lt.mpr fits)]
    refine ⟨?_, ?_, ?_⟩
    · have front := @plainAsns_copyLeading (countNonConfedAsns asPath - countNonConfedAsns as4Path) 0 asPath.segments
      rw [Nat.sub_zero] at front
      rw [← front, plainAsns, plainAsns, plainAsns, plainSegments, plainSegments, plainSegments, filter_append,
        flatMap_append, filter_filter]
      simp
    · by_cases more : countNonConfedAsns as4Path < countNonConfedAsns asPath
      · exact (leadingConfed_copyLeading (by omega)).trans (prefix_append _ _)
      · rw [bare (by omega)]
        exact nil_prefix
    · intro segment member
      rcases mem_append.mp member with front | back
      · exact copyLeading_counted counted segment front
      · exact (counted4 segment (mem_of_mem_filter back)).counted

def confedThenPath : AsPath := ⟨[⟨.asConfedSequence, 1, [65001]⟩, ⟨.asSequence, 2, [64500, 23456]⟩]⟩

theorem confed_kept_when_longer :
    Rebuilt confedThenPath ⟨[⟨.asSequence, 1, [70000]⟩]⟩ (mergeAsPaths confedThenPath ⟨[⟨.asSequence, 1, [70000]⟩]⟩) := by
  refine ((merge_as_paths_iff confedThenPath ⟨[⟨.asSequence, 1, [70000]⟩]⟩ ?_ ?_).mpr fun same => by cases same).1 (by decide)
  · exact forall_mem_cons.mpr ⟨⟨rfl, by decide⟩, forall_mem_cons.mpr ⟨⟨rfl, by decide⟩, fun _ none => by cases none⟩⟩
  · exact forall_mem_cons.mpr ⟨⟨rfl, by decide⟩, fun _ none => by cases none⟩

theorem leading_confed_lost : leadingConfed confedThenPath.segments = [⟨.asConfedSequence, 1, [65001]⟩] ∧
      mergeAsPaths confedThenPath ⟨[⟨.asSequence, 2, [64500, 70000]⟩]⟩ = ⟨[⟨.asSequence, 2, [64500, 70000]⟩]⟩ := by
  exact ⟨rfl, rfl⟩

end Bgpgg.Wire
