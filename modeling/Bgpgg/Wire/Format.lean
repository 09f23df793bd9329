import Bgpgg.Net.Network

namespace Bgpgg.Wire

open Net

-- One bit for each family that ADD-PATH can be negotiated for.
structure AddPathMask where
  bits : UInt32
deriving DecidableEq, Repr

namespace AddPathMask

def none : AddPathMask := ⟨0⟩

variable (family : AfiSafi) (families : List AfiSafi) (mask : AddPathMask) (afiSafi : AfiSafi)

def fromAfiSafi : UInt32 := match afiSafi.afi, afiSafi.safi with
  | .ipv4, .unicast => 1
  | .ipv6, .unicast => 2
  | .ipv4, .multicast => 4
  | .ipv6, .multicast => 8
  | .ipv4, .mplsLabel => 16
  | .ipv6, .mplsLabel => 32
  | .linkState, .linkState => 64
  | .linkState, .linkStateVpn => 128
  | _, _ => 0

def withFamily : AddPathMask := ⟨mask.bits ||| fromAfiSafi afiSafi⟩

def contains : Bool := mask.bits &&& fromAfiSafi afiSafi != 0

def Representable : Prop := fromAfiSafi afiSafi ≠ 0

instance (afiSafi : AfiSafi) : Decidable (Representable afiSafi) := inferInstanceAs (Decidable (_ ≠ _))

theorem fromAfiSafi_and (first second : AfiSafi) :
    fromAfiSafi first &&& fromAfiSafi second ≠ 0 ↔ Representable second ∧ second = first := by
  obtain ⟨afi, safi⟩ := first
  obtain ⟨otherAfi, otherSafi⟩ := second
  cases afi <;> cases safi <;> cases otherAfi <;> cases otherSafi <;> decide

def ofFamilies : AddPathMask := families.foldl withFamily none

theorem foldl_withFamily : (families.foldl withFamily mask).bits = mask.bits ||| (ofFamilies families).bits := by
  induction families generalizing mask with
  | nil => simp [ofFamilies, none]
  | cons family families ih =>
    rw [ofFamilies, List.foldl_cons, List.foldl_cons, ih, ih (none.withFamily family), withFamily, withFamily, none]
    simp [UInt32.or_assoc]

theorem ofFamilies_cons : (ofFamilies (family :: families)).bits = fromAfiSafi family ||| (ofFamilies families).bits := by
  rw [ofFamilies, List.foldl_cons, foldl_withFamily]
  simp [withFamily, none]

theorem or_and_ne_zero (first second bit : UInt32) : (first ||| second) &&& bit ≠ 0 ↔ first &&& bit ≠ 0 ∨ second &&& bit ≠ 0 := by
  have spread : (first ||| second) &&& bit = first &&& bit ||| second &&& bit := by
    apply UInt32.toBitVec_inj.mp
    exact BitVec.and_or_distrib_right
  rw [spread, ne_eq, UInt32.or_eq_zero_iff, not_and_or]

theorem contains_ofFamilies (family : AfiSafi) :
    (ofFamilies families).contains family = true ↔ Representable family ∧ family ∈ families := by
  rw [contains, bne_iff_ne]
  induction families with
  | nil => simp [ofFamilies, none]
  | cons other families ih => rw [ofFamilies_cons, or_and_ne_zero, ih, fromAfiSafi_and, List.mem_cons, and_or_left]

theorem ofFamilies_absorbs {families : List AfiSafi} {family : AfiSafi} (member : family ∈ families) :
    (ofFamilies families).bits ||| fromAfiSafi family = (ofFamilies families).bits := by
  induction families with
  | nil => cases member
  | cons other families ih =>
    rw [ofFamilies_cons]
    rcases List.mem_cons.mp member with rfl | later
    · rw [UInt32.or_comm, ← UInt32.or_assoc, UInt32.or_self]
    · rw [UInt32.or_assoc, ih later]

theorem ofFamilies_covers {first second : List AfiSafi} (inside : ∀ family, Representable family → family ∈ second → family ∈ first) :
    (ofFamilies first).bits ||| (ofFamilies second).bits = (ofFamilies first).bits := by
  induction second with
  | nil => simp [ofFamilies, none]
  | cons family second ih =>
    have head : (ofFamilies first).bits ||| fromAfiSafi family = (ofFamilies first).bits := by
      by_cases bit : Representable family
      · exact ofFamilies_absorbs (inside family bit List.mem_cons_self)
      · rw [not_not.mp bit, UInt32.or_zero]
    rw [ofFamilies_cons, ← UInt32.or_assoc, head]
    exact ih fun other bit member => inside other bit (List.mem_cons_of_mem _ member)

theorem ofFamilies_eq_iff (first second : List AfiSafi) :
    ofFamilies first = ofFamilies second ↔ ∀ family, Representable family → (family ∈ first ↔ family ∈ second) := by
  refine ⟨fun same family bit => ?_, fun same => ?_⟩
  · have inFirst := contains_ofFamilies first family
    rw [same, contains_ofFamilies second family] at inFirst
    simpa only [bit, true_and] using inFirst.symm
  · have forward := ofFamilies_covers fun family bit member => (same family bit).mpr member
    have backward := ofFamilies_covers fun family bit member => (same family bit).mp member
    have bits : (ofFamilies first).bits = (ofFamilies second).bits := by
      rw [← forward, UInt32.or_comm]
      exact backward
    exact congrArg AddPathMask.mk bits

end AddPathMask

structure MessageFormat where
  use4byteAsn : Bool
  addPath : AddPathMask
  isEbgp : Bool
  enhancedRr : Bool
deriving DecidableEq, Repr

def PRE_OPEN_FORMAT : MessageFormat := ⟨false, .none, false, false⟩

end Bgpgg.Wire
