import Bgpgg.Rib.Path

namespace Bgpgg.Rib.Path

open Net Std

variable (a b : Path) (path : Path)

def llgrRank : Nat := if path.attrs.communities.contains LLGR_STALE then 0 else 1

def sourceRank : Nat := match path.source with
  | .ibgp .. => 0
  | .ebgp .. => 1
  | .localSource => 2

def originatorRank : Ipv4Addr := match path.source with
  | .ibgp _ bgpId _ => path.attrs.originatorId.getD bgpId
  | _ => 0

def bgpIdRank : Ipv4Addr := path.source.bgpId.getD 0

def beforeMed : Path → Path → Ordering := compareLex llgrStep (compareLex localPrefStep (compareLex asPathLengthStep originStep))

def afterMed : Path → Path → Ordering := compareLex sourceStep (compareLex clusterListStep (compareLex originatorStep bgpIdStep))

theorem bestPathCmp_split : a.bestPathCmp b = (beforeMed a b).then ((medStep a b).then (afterMed a b)) := by
  simp [bestPathCmp, beforeMed, afterMed, compareLex, Ordering.then_assoc]

theorem llgrStep_eq_rank : llgrStep = compareOn llgrRank := by
  funext self other
  simp only [llgrStep, compareOn, llgrRank]
  cases self.attrs.communities.contains LLGR_STALE <;> cases other.attrs.communities.contains LLGR_STALE <;> rfl

-- Two paths that reach the later steps have sources of one kind, so there the steps
-- that apply to some pairs only compare a rank that every path has.
theorem afterMed_eq_rank : afterMed = compareLex (compareOn sourceRank) (compareLex clusterListStep
    (compareLex (fun self other => compareOn originatorRank other self) (fun self other => compareOn bgpIdRank other self))) := by
  funext self other
  simp only [afterMed, compareLex, compareOn, sourceStep, originatorStep, bgpIdStep, sourceRank, originatorRank, bgpIdRank]
  cases self.source with
  | ebgp peerIp bgpId | ibgp peerIp bgpId rrClient => cases other.source <;> rfl
  | localSource => cases other.source <;> rfl

instance localPrefStep_trans : TransCmp localPrefStep :=
  inferInstanceAs (TransCmp (compareOn fun path : Path => path.attrs.localPref.getD 100))

instance asPathLengthStep_trans : TransCmp asPathLengthStep :=
  inferInstanceAs (TransCmp fun self other => compareOn asPathLength other self)

instance originStep_trans : TransCmp originStep :=
  inferInstanceAs (TransCmp fun self other => compareOn (fun path : Path => path.attrs.origin.toU8) other self)

instance clusterListStep_trans : TransCmp clusterListStep :=
  inferInstanceAs (TransCmp fun self other => compareOn (fun path : Path => path.attrs.clusterList.length) other self)

instance beforeMed_trans : TransCmp beforeMed := by
  unfold beforeMed
  rw [llgrStep_eq_rank]
  infer_instance

instance afterMed_trans : TransCmp afterMed := by
  rw [afterMed_eq_rank]
  infer_instance

theorem medStep_swap : medStep a b = (medStep b a).swap := by
  by_cases same : a.neighboringAs = b.neighboringAs
  · rw [medStep, medStep, if_pos same, if_pos same.symm]
    exact OrientedCmp.eq_swap
  · rw [medStep, medStep, if_neg same, if_neg (Ne.symm same)]
    rfl

theorem bestPathCmp_swap : a.bestPathCmp b = (b.bestPathCmp a).swap := by
  have before : beforeMed a b = (beforeMed b a).swap := OrientedCmp.eq_swap
  have after : afterMed a b = (afterMed b a).swap := OrientedCmp.eq_swap
  rw [bestPathCmp_split, bestPathCmp_split, Ordering.swap_then, Ordering.swap_then, ← before, ← medStep_swap, ← after]

theorem then_isGE (first second : Ordering) : (first.then second).isGE = true ↔ first = .gt ∨ first = .eq ∧ second.isGE = true := by
  cases first <;> cases second <;> decide

-- Two paths of one neighbouring AS with a third between them: MED prefers the first to the
-- second, the steps after it the second to the third and the third to the first.
structure AgainstMed (better worse other : Path) : Prop where
  tie : beforeMed better worse = .eq
  tieOther : beforeMed worse other = .eq
  neighbor : better.neighboringAs = worse.neighboringAs
  lower : better.effectiveMed < worse.effectiveMed
  foreign : worse.neighboringAs ≠ other.neighboringAs
  fromWorse : (afterMed worse other).isGE = true
  toBetter : (afterMed other better).isGE = true

theorem medStep_cases (a b : Path) : medStep a b = .eq ∨
    a.neighboringAs = b.neighboringAs ∧ (medStep a b = .gt ∧ a.effectiveMed < b.effectiveMed ∨
      medStep a b = .lt ∧ b.effectiveMed < a.effectiveMed) := by
  by_cases same : a.neighboringAs = b.neighboringAs
  · rw [medStep, if_pos same]
    cases order : compare b.effectiveMed a.effectiveMed with
    | lt => exact .inr ⟨same, .inr ⟨rfl, compare_eq_lt.mp order⟩⟩
    | eq => exact .inl rfl
    | gt => exact .inr ⟨same, .inl ⟨rfl, compare_eq_gt.mp order⟩⟩
  · exact .inl (if_neg same)

theorem tail_trans {a b c : Path} (tieAb : beforeMed a b = .eq) (tieBc : beforeMed b c = .eq)
    (ordered : ¬ (AgainstMed a b c ∨ AgainstMed b c a ∨ AgainstMed c a b))
    (ab : ((medStep a b).then (afterMed a b)).isGE = true)
    (bc : ((medStep b c).then (afterMed b c)).isGE = true) : ((medStep a c).then (afterMed a c)).isGE = true := by
  by_cases allSame : a.neighboringAs = b.neighboringAs ∧ b.neighboringAs = c.neighboringAs
  · obtain ⟨sameAb, sameBc⟩ := allSame
    rw [medStep, if_pos sameAb] at ab
    rw [medStep, if_pos sameBc] at bc
    rw [medStep, if_pos (sameAb.trans sameBc)]
    let lexicographic := compareLex (fun self other => compareOn effectiveMed other self) afterMed
    have ordered : TransCmp lexicographic := inferInstance
    exact ordered.isGE_trans ab bc
  · have tieCa : beforeMed c a = .eq := OrientedCmp.eq_symm (TransCmp.eq_trans tieAb tieBc)
    have turned : afterMed a c = (afterMed c a).swap := OrientedCmp.eq_swap
    by_contra fails
    -- MED compares at most one of the three pairs, and each pair gives one of the arrangements.
    rcases medStep_cases a b with silentAb | ⟨sameAb, ⟨stepAb, lessAb⟩ | ⟨stepAb, -⟩⟩
    · rcases medStep_cases b c with silentBc | ⟨sameBc, ⟨stepBc, lessBc⟩ | ⟨stepBc, -⟩⟩
      · rw [silentAb] at ab
        rw [silentBc] at bc
        rcases medStep_cases a c with silentAc | ⟨sameAc, ⟨stepAc, -⟩ | ⟨-, lessAc⟩⟩
        · rw [silentAc] at fails
          exact fails (afterMed_trans.isGE_trans ab bc)
        · simp [stepAc] at fails
        · exact ordered (.inr (.inr ⟨tieCa, tieAb, sameAc.symm, lessAc, fun same => allSame ⟨same, same.symm.trans sameAc⟩, ab, bc⟩))
      · rw [silentAb] at ab
        have silentAc : medStep a c = .eq := if_neg fun same => allSame ⟨same.trans sameBc.symm, sameBc⟩
        refine ordered (.inr (.inl ⟨tieBc, tieCa, sameBc, lessBc, fun same => allSame ⟨same.symm.trans sameBc.symm, sameBc⟩, ?_, ab⟩))
        cases after : afterMed c a <;> simp_all
      · simp [stepBc] at bc
    · have silentBc : medStep b c = .eq := if_neg fun same => allSame ⟨sameAb, same⟩
      have silentAc : medStep a c = .eq := if_neg fun same => allSame ⟨sameAb, sameAb.symm.trans same⟩
      rw [silentBc] at bc
      refine ordered (.inl ⟨tieAb, tieBc, sameAb, lessAb, fun same => allSame ⟨sameAb, same⟩, bc, ?_⟩)
      cases after : afterMed c a <;> simp_all
    · simp [stepAb] at ab

theorem bestPathCmp_trans {a b c : Path} (ordered : ¬ (AgainstMed a b c ∨ AgainstMed b c a ∨ AgainstMed c a b))
    (ab : (a.bestPathCmp b).isGE = true) (bc : (b.bestPathCmp c).isGE = true) : (a.bestPathCmp c).isGE = true := by
  rw [bestPathCmp_split, then_isGE] at ab bc ⊢
  rcases ab with aboveAb | ⟨tieAb, restAb⟩
  · rcases bc with aboveBc | ⟨tieBc, restBc⟩
    · exact .inl (TransCmp.gt_trans aboveAb aboveBc)
    · exact .inl ((TransCmp.congr_right tieBc).symm.trans aboveAb)
  · rcases bc with aboveBc | ⟨tieBc, restBc⟩
    · exact .inl ((TransCmp.congr_left tieAb).trans aboveBc)
    · exact .inr ⟨(TransCmp.congr_left tieAb).trans tieBc, tail_trans tieAb tieBc ordered restAb restBc⟩

theorem AgainstMed.cycle {better worse other : Path} (against : AgainstMed better worse other) :
    (worse.bestPathCmp other).isGE = true ∧ (other.bestPathCmp better).isGE = true ∧ better.bestPathCmp worse = .gt := by
  have tieLast : beforeMed other better = .eq := OrientedCmp.eq_symm (TransCmp.eq_trans against.tie against.tieOther)
  have preferred : medStep better worse = .gt := by
    rw [medStep, if_pos against.neighbor]
    exact compare_eq_gt.mpr against.lower
  have foreign : other.neighboringAs ≠ better.neighboringAs := fun same => against.foreign (against.neighbor.symm.trans same.symm)
  have silentWorse : medStep worse other = .eq := if_neg against.foreign
  have silentOther : medStep other better = .eq := if_neg foreign
  simp only [bestPathCmp_split, against.tie, against.tieOther, tieLast, preferred, silentWorse, silentOther]
  exact ⟨against.fromWorse, against.toBetter, rfl⟩

-- best_path_cmp is oriented on all paths, and transitive on exactly the triples in which no
-- path stands between two others against MED.
theorem best_path_cmp_preorder : (∀ a b : Path, a.bestPathCmp b = (b.bestPathCmp a).swap) ∧
      (∀ a b c : Path, ¬ (AgainstMed a b c ∨ AgainstMed b c a ∨ AgainstMed c a b) →
        (a.bestPathCmp b).isGE = true → (b.bestPathCmp c).isGE = true → (a.bestPathCmp c).isGE = true) ∧
      ∀ a b c : Path, AgainstMed c a b →
        (a.bestPathCmp b).isGE = true ∧ (b.bestPathCmp c).isGE = true ∧ c.bestPathCmp a = .gt :=
  ⟨bestPathCmp_swap, fun _ _ _ => bestPathCmp_trans, fun _ _ _ => AgainstMed.cycle⟩

def ebgpExample (neighbor : UInt32) (med : Option UInt32) (bgpId : Ipv4Addr) : Path where
  localPathId := some 1
  remotePathId := none
  attrs := {
    origin := .igp
    asPath := [⟨.asSequence, 1, [neighbor]⟩]
    nextHop := .ipv4 0x0A000001
    source := .ebgp (.v4 bgpId) bgpId
    localPref := none
    med := med
    atomicAggregate := false
    aggregator := none
    communities := []
    extendedCommunities := []
    largeCommunities := []
    unknownAttrs := []
    originatorId := none
    clusterList := []
    lsAttr := none
  }
  stale := false
  rpkiState := .notFound

-- Two paths of AS 65001 with different MEDs and one of AS 65002 that does not stand between them.
theorem best_path_cmp_preorder_on_neighbors :
    ((ebgpExample 65001 (some 10) 1).bestPathCmp (ebgpExample 65002 none 3)).isGE = true ∧
      (ebgpExample 65001 (some 10) 3).bestPathCmp (ebgpExample 65001 (some 20) 1) = .gt :=
  ⟨best_path_cmp_preorder.2.1 (ebgpExample 65001 (some 10) 1) (ebgpExample 65001 (some 20) 2) (ebgpExample 65002 none 3)
      (by rintro (against | against | against)
          exacts [absurd against.toBetter (by decide), absurd against.neighbor (by decide), absurd against.neighbor (by decide)])
      (by decide) (by decide),
    (best_path_cmp_preorder.2.2 (ebgpExample 65001 (some 20) 1) (ebgpExample 65002 none 2) (ebgpExample 65001 (some 10) 3)
      ⟨rfl, rfl, rfl, by decide, by decide, rfl, rfl⟩).2.2⟩

theorem best_path_cmp_med_cycle : (ebgpExample 65001 (some 20) 1).bestPathCmp (ebgpExample 65002 none 2) = .gt ∧
      (ebgpExample 65002 none 2).bestPathCmp (ebgpExample 65001 (some 10) 3) = .gt ∧
      (ebgpExample 65001 (some 20) 1).bestPathCmp (ebgpExample 65001 (some 10) 3) = .lt := by
  decide

end Bgpgg.Rib.Path
