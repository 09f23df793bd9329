import Bgpgg.Lib.PatriciaTree
import Bgpgg.Table.Trie

namespace Bgpgg.Table

open Net Lib List

variable {width : Nat}

variable (first second : BitVec width) (net : IpNet width) (pos : Nat) (len : Nat)

theorem canonical_iff : Canonical net ↔
    net.prefixLength.toNat ≤ width ∧ ∀ pos < width, net.prefixLength.toNat ≤ pos → net.address.getMsbD pos = false := by
  refine and_congr_right fun bounded => ?_
  constructor
  · intro clear pos inside host
    have bit := congrArg (Nat.testBit · (width - 1 - pos)) clear
    rw [Nat.testBit_mod_two_pow, Nat.zero_testBit, decide_eq_true (show width - 1 - pos < _ by omega), Bool.true_and] at bit
    rw [BitVec.getMsbD, BitVec.getLsbD, bit, Bool.and_false]
  · intro clear
    refine Nat.eq_of_testBit_eq fun pos => ?_
    rw [Nat.testBit_mod_two_pow, Nat.zero_testBit]
    by_cases host : pos < width - net.prefixLength.toNat
    · have bit := clear (width - 1 - pos) (by omega) (by omega)
      rw [BitVec.getMsbD, BitVec.getLsbD, decide_eq_true (show width - 1 - pos < width by omega), Bool.true_and,
        show width - 1 - (width - 1 - pos) = pos by omega] at bit
      rw [bit, Bool.and_false]
    · rw [decide_eq_false host, Bool.false_and]

theorem host_bits_zero {net : IpNet width} (canonical : Canonical net) {pos : Nat} (inside : pos < width)
    (host : net.prefixLength.toNat ≤ pos) : net.address.getMsbD pos = false :=
  ((canonical_iff net).mp canonical).2 pos inside host

def CanonicalNet (width : Nat) : Type := { net : IpNet width // Canonical net }

instance : DecidableEq (CanonicalNet width) := inferInstanceAs (DecidableEq { net : IpNet width // Canonical net })

def netBits (net : IpNet width) : List Bool := (List.range net.prefixLength.toNat).map net.address.getMsbD

@[simp] theorem length_netBits : (netBits net).length = net.prefixLength.toNat := by
  simp [netBits]

theorem getD_netBits (inside : pos < net.prefixLength.toNat) : (netBits net).getD pos false = net.address.getMsbD pos := by
  simp [netBits, inside]

theorem take_netBits (inside : len ≤ net.prefixLength.toNat) : (netBits net).take len = (range len).map net.address.getMsbD := by
  rw [netBits, ← map_take, take_range, Nat.min_eq_left inside]

theorem netBits_injective {net other : IpNet width} (canonical : Canonical net) (otherCanonical : Canonical other)
    (same : netBits net = netBits other) : net = other := by
  have lengths : net.prefixLength.toNat = other.prefixLength.toNat := by
    simpa using congrArg length same
  have address : net.address = other.address := by
    refine BitVec.eq_of_getMsbD_eq fun pos below => ?_
    by_cases inside : pos < net.prefixLength.toNat
    · rw [← getD_netBits net pos inside, same, getD_netBits other pos (lengths ▸ inside)]
    · rw [host_bits_zero canonical below (by omega), host_bits_zero otherCanonical below (by omega)]
  cases net
  cases other
  simp only [IpNet.mk.injEq]
  exact ⟨address, UInt8.toNat_inj.mp lengths⟩

theorem bitAt_inside (bounded : net.prefixLength.toNat ≤ width) (pos : Nat) (inside : pos < net.prefixLength.toNat) :
    bitAt net pos = some ((netBits net).getD pos false) := by
  rw [bitAt, if_pos (Nat.lt_of_lt_of_le inside bounded), getD_netBits net pos inside]

theorem masked_prefixLength (inside : len ≤ net.prefixLength.toNat) : (masked net len).prefixLength.toNat = len := by
  have small := net.prefixLength.toNat_lt
  rw [masked]
  split
  · rename_i zero
    rw [zero]
    rfl
  · rw [UInt8.toNat_ofNat']
    omega

theorem masked_getMsbD (inside : len ≤ width) (pos : Nat) :
    (masked net len).address.getMsbD pos = (decide (pos < len) && net.address.getMsbD pos) := by
  rw [masked]
  split
  · rename_i zero
    simp [zero]
  · rw [BitVec.getMsbD_and, BitVec.getMsbD_shiftLeft, BitVec.getMsbD_allOnes, Bool.and_comm]
    congr 1
    rw [decide_eq_decide]
    omega

theorem masked_canonical (bounded : net.prefixLength.toNat ≤ width) (len : Nat) (inside : len ≤ net.prefixLength.toNat) :
    Canonical (masked net len) := by
  refine (canonical_iff _).mpr ⟨by rw [masked_prefixLength net len inside]; omega, fun pos _ outside => ?_⟩
  rw [masked_prefixLength net len inside] at outside
  rw [masked_getMsbD net len (by omega)]
  simp [Nat.not_lt.mpr outside]

theorem netBits_masked (bounded : net.prefixLength.toNat ≤ width) (len : Nat) (inside : len ≤ net.prefixLength.toNat) :
    netBits (masked net len) = (netBits net).take len := by
  rw [take_netBits net len inside, netBits, masked_prefixLength net len inside]
  refine map_congr_left fun pos member => ?_
  rw [masked_getMsbD net len (by omega)]
  simp [mem_range.mp member]

instance : BitKey (CanonicalNet width) where
  bits net := netBits net.val
  cut net len := ⟨masked net.val (min len net.val.prefixLength.toNat), masked_canonical net.val net.property.1 _ (Nat.min_le_right _ _)⟩
  injective first second same := Subtype.ext (netBits_injective first.property second.property same)
  bits_cut net len inside := by
    rw [length_netBits] at inside
    simp only [Nat.min_eq_left inside]
    exact netBits_masked net.val net.property.1 len inside

theorem leadingZeros_agree (below : pos < leadingZeros (first ^^^ second)) : first.getMsbD pos = second.getMsbD pos := by
  have clear := not_of_lt_findIdx below
  cases left : first.getMsbD pos <;> cases right : second.getMsbD pos <;> simp [left, right] at clear ⊢

theorem leadingZeros_differ (inside : leadingZeros (first ^^^ second) < width) :
    first.getMsbD (leadingZeros (first ^^^ second)) ≠ second.getMsbD (leadingZeros (first ^^^ second)) := by
  have inRange : (range width).findIdx (fun pos => (first ^^^ second).getMsbD pos) < (range width).length := by
    simpa [leadingZeros] using inside
  have found := @findIdx_getElem _ (fun pos => (first ^^^ second).getMsbD pos) (range width) inRange
  rw [getElem_range, BitVec.getMsbD_xor] at found
  change (first.getMsbD (leadingZeros (first ^^^ second)) ^^ second.getMsbD (leadingZeros (first ^^^ second))) = true at found
  intro same
  rw [same, Bool.xor_self] at found
  cases found

theorem commonPrefixLen_eq (net other : IpNet width) (bounded : net.prefixLength.toNat ≤ width) :
    commonPrefixLen net other = commonLen (netBits net) (netBits other) := by
  rw [eq_comm]
  refine commonLen_unique ?_ ?_ ?_ ?_
  · rw [length_netBits, commonPrefixLen]
    omega
  · rw [length_netBits, commonPrefixLen]
    omega
  · rw [take_netBits net _ (by rw [commonPrefixLen]; omega), take_netBits other _ (by rw [commonPrefixLen]; omega)]
    refine map_congr_left fun pos member => ?_
    refine leadingZeros_agree net.address other.address pos ?_
    have below := mem_range.mp member
    rw [commonPrefixLen] at below
    omega
  · intro inNet inOther
    rw [length_netBits] at inNet inOther
    have stopped : commonPrefixLen net other = leadingZeros (net.address ^^^ other.address) := by
      rw [commonPrefixLen] at inNet inOther ⊢
      omega
    rw [getD_netBits net _ inNet, getD_netBits other _ inOther, stopped]
    exact leadingZeros_differ net.address other.address (by omega)

-- The addresses that a prefix stands for. One prefix lies in another when its addresses do.
def addresses (net : IpNet width) : Set (BitVec width) :=
  { address | ∀ pos < net.prefixLength.toNat, address.getMsbD pos = net.address.getMsbD pos }

def farthest (net : IpNet width) : BitVec width := net.address ^^^ (BitVec.allOnes width >>> net.prefixLength.toNat)

theorem getMsbD_farthest {pos : Nat} (inside : pos < width) :
    (farthest net).getMsbD pos = (net.address.getMsbD pos ^^ decide (net.prefixLength.toNat ≤ pos)) := by
  rw [farthest, BitVec.getMsbD_xor, BitVec.getMsbD_ushiftRight]
  by_cases host : net.prefixLength.toNat ≤ pos
  · have shifted : pos - net.prefixLength.toNat < width := by omega
    simp [host, inside, shifted, Nat.not_lt.mpr host]
  · simp [host, Nat.not_le.mp host]

theorem addresses_subset_iff (inner outer : CanonicalNet width) :
    addresses inner.val ⊆ addresses outer.val ↔ bits outer <+: bits inner := by
  have innerLength : (bits inner).length = inner.val.prefixLength.toNat := length_netBits inner.val
  have outerLength : (bits outer).length = outer.val.prefixLength.toNat := length_netBits outer.val
  have outerBound := outer.property.1
  constructor
  · intro subset
    have near : inner.val.address ∈ addresses outer.val := subset fun _ _ => rfl
    have far : farthest inner.val ∈ addresses outer.val := subset fun pos below => by
      have bound := inner.property.1
      rw [getMsbD_farthest inner.val (by omega)]
      simp [Nat.not_le.mpr below]
    have shorter : outer.val.prefixLength.toNat ≤ inner.val.prefixLength.toNat := by
      by_contra longer
      have same := (near _ (Nat.not_le.mp longer)).trans (far _ (Nat.not_le.mp longer)).symm
      rw [getMsbD_farthest inner.val (by omega)] at same
      simp at same
    rw [prefix_iff_eq_take, outerLength]
    change netBits outer.val = (netBits inner.val).take _
    rw [take_netBits inner.val _ shorter]
    refine map_congr_left fun pos member => ?_
    exact (near pos (mem_range.mp member)).symm
  · intro starts address inside pos below
    have shorter := starts.length_le
    have agree : netBits outer.val = (netBits inner.val).take (netBits outer.val).length := prefix_iff_eq_take.mp starts
    rw [inside pos (by omega), ← getD_netBits inner.val pos (by omega), ← getD_netBits outer.val pos below, agree]
    simp [below]

section

variable {query : IpNet width} (bounded : query.prefixLength.toNat ≤ width)

include bounded

theorem netBits_masked_self : netBits (masked query query.prefixLength.toNat) = netBits query := by
  rw [netBits_masked query bounded _ (Nat.le_refl _), take_of_length_le (by simp)]

theorem addresses_masked : addresses (masked query query.prefixLength.toNat) = addresses query := by
  have bits : ∀ pos < query.prefixLength.toNat,
      (masked query query.prefixLength.toNat).address.getMsbD pos = query.address.getMsbD pos := by
    intro pos below
    rw [masked_getMsbD query _ bounded, decide_eq_true below, Bool.true_and]
  ext address
  rw [addresses, masked_prefixLength query _ (Nat.le_refl _)]
  exact forall₂_congr fun pos below => by rw [bits pos below]

end

end Bgpgg.Table
