import Mathlib.Algebra.GroupWithZero.Nat
import Mathlib.Data.Nat.Basic

namespace Bgpgg.Lib

-- Network byte order: the most significant byte comes first. Both directions
-- work on naturals, so one pair of lemmas serves every word size.
def beBytes : Nat → Nat → List UInt8
  | 0, _ => []
  | width + 1, value => UInt8.ofNat (value / 256 ^ width) :: beBytes width value

def fromBe : List UInt8 → Nat
  | [] => 0
  | byte :: rest => byte.toNat * 256 ^ rest.length + fromBe rest

section

variable (width value : Nat) (bytes : List UInt8)

@[simp] theorem length_beBytes : (beBytes width value).length = width := by
  induction width with
  | zero => rfl
  | succ width ih => simp [beBytes, ih]

theorem fromBe_lt : fromBe bytes < 256 ^ bytes.length := by
  induction bytes with
  | nil => simp [fromBe]
  | cons byte rest ih =>
    have small : byte.toNat + 1 ≤ 256 := byte.toNat_lt
    have scaled := Nat.mul_le_mul_right (256 ^ rest.length) small
    rw [fromBe, List.length_cons]
    rw [Nat.add_mul] at scaled
    omega

theorem fromBe_beBytes : fromBe (beBytes width value) = value % 256 ^ width := by
  induction width with
  | zero => simp [beBytes, fromBe, Nat.mod_one]
  | succ width ih =>
    have digits : value % 256 ^ (width + 1) = value % 256 ^ width + 256 ^ width * (value / 256 ^ width % 256) := by
      rw [Nat.pow_succ, Nat.mod_mul]
    rw [beBytes, fromBe, length_beBytes, ih, digits, Nat.mul_comm (256 ^ width)]
    exact Nat.add_comm _ _

theorem beBytes_mod : ∀ extra, width ≤ extra → beBytes width (value % 256 ^ extra) = beBytes width value := by
  induction width with
  | zero => intros; rfl
  | succ width ih =>
    intro extra bounded
    have split : (256 : Nat) ^ extra = 256 ^ width * (256 * 256 ^ (extra - width - 1)) := by
      rw [← Nat.pow_succ', ← Nat.pow_add]
      congr 1
      omega
    have digit : value % 256 ^ extra / 256 ^ width % 256 = value / 256 ^ width % 256 := by
      rw [split, Nat.mod_mul_right_div_self, Nat.mod_mul_right_mod]
    rw [beBytes, ih extra (by omega)]
    congr 1
    apply UInt8.toNat_inj.mp
    simpa only [UInt8.toNat_ofNat'] using digit

theorem beBytes_fromBe : beBytes bytes.length (fromBe bytes) = bytes := by
  induction bytes with
  | nil => rfl
  | cons byte rest ih =>
    have low := fromBe_lt rest
    have positive : 0 < 256 ^ rest.length := Nat.pow_pos (by omega)
    have head : fromBe (byte :: rest) / 256 ^ rest.length = byte.toNat := by
      rw [fromBe, Nat.mul_comm, Nat.mul_add_div positive, Nat.div_eq_of_lt low, Nat.add_zero]
    have tail : fromBe (byte :: rest) % 256 ^ rest.length = fromBe rest := by
      rw [fromBe, Nat.mul_comm, Nat.mul_add_mod, Nat.mod_eq_of_lt low]
    rw [List.length_cons, beBytes, head, ← beBytes_mod _ _ rest.length (Nat.le_refl _), tail, ih, UInt8.ofNat_toNat]

theorem beBytes_low_zero (width low value : Nat) (bounded : low ≤ width) (multiple : value % 256 ^ low = 0) :
    beBytes width value = (beBytes width value).take (width - low) ++ List.replicate low 0 := by
  induction width generalizing low with
  | zero =>
    obtain rfl := Nat.le_zero.mp bounded
    rfl
  | succ width ih =>
    by_cases whole : low = width + 1
    · subst whole
      have split : (256 : Nat) ^ (width + 1) = 256 ^ width * 256 := Nat.pow_succ ..
      have digit : value / 256 ^ width % 256 = 0 := by
        rw [← Nat.mod_mul_right_div_self, ← split, multiple, Nat.zero_div]
      have rest : value % 256 ^ width = 0 := by
        rw [← Nat.mod_mul_right_mod value (256 ^ width) 256, ← split, multiple, Nat.zero_mod]
      have first : UInt8.ofNat (value / 256 ^ width) = 0 := by
        apply UInt8.toNat_inj.mp
        exact digit
      have zeros := ih width (Nat.le_refl _) rest
      rw [Nat.sub_self, List.take_zero, List.nil_append] at zeros
      rw [beBytes, first, Nat.sub_self, List.take_zero, List.nil_append, List.replicate_succ, zeros]
    · have zeros := ih low (by omega) multiple
      rw [beBytes, show width + 1 - low = (width - low) + 1 by omega, List.take_succ_cons, List.cons_append, ← zeros]

def u16Bytes (value : UInt16) : List UInt8 := beBytes 2 value.toNat
def u32Bytes (value : UInt32) : List UInt8 := beBytes 4 value.toNat
def u64Bytes (value : UInt64) : List UInt8 := beBytes 8 value.toNat

def u16FromBytes (bytes : List UInt8) : UInt16 := UInt16.ofNat (fromBe bytes)
def u32FromBytes (bytes : List UInt8) : UInt32 := UInt32.ofNat (fromBe bytes)
def u64FromBytes (bytes : List UInt8) : UInt64 := UInt64.ofNat (fromBe bytes)

@[simp] theorem length_u16Bytes (value : UInt16) : (u16Bytes value).length = 2 := length_beBytes _ _
@[simp] theorem length_u32Bytes (value : UInt32) : (u32Bytes value).length = 4 := length_beBytes _ _
@[simp] theorem length_u64Bytes (value : UInt64) : (u64Bytes value).length = 8 := length_beBytes _ _

@[simp] theorem u16FromBytes_u16Bytes (value : UInt16) : u16FromBytes (u16Bytes value) = value := by
  have bound : value.toNat < 256 ^ 2 := value.toNat_lt
  rw [u16FromBytes, u16Bytes, fromBe_beBytes, Nat.mod_eq_of_lt bound, UInt16.ofNat_toNat]

theorem u16Bytes_u16FromBytes (two : bytes.length = 2) : u16Bytes (u16FromBytes bytes) = bytes := by
  have bound : fromBe bytes < 2 ^ 16 := by
    have below := fromBe_lt bytes
    rw [two] at below
    exact below
  rw [u16Bytes, u16FromBytes, UInt16.toNat_ofNat_of_lt' bound, ← two]
  exact beBytes_fromBe bytes

@[simp] theorem u32FromBytes_u32Bytes (value : UInt32) : u32FromBytes (u32Bytes value) = value := by
  have bound : value.toNat < 256 ^ 4 := value.toNat_lt
  rw [u32FromBytes, u32Bytes, fromBe_beBytes, Nat.mod_eq_of_lt bound, UInt32.ofNat_toNat]

theorem u32Bytes_u32FromBytes (four : bytes.length = 4) : u32Bytes (u32FromBytes bytes) = bytes := by
  have bound : fromBe bytes < 2 ^ 32 := by
    have below := fromBe_lt bytes
    rw [four] at below
    exact below
  rw [u32Bytes, u32FromBytes, UInt32.toNat_ofNat_of_lt' bound, ← four]
  exact beBytes_fromBe bytes

end

@[simp] theorem u64FromBytes_u64Bytes (value : UInt64) : u64FromBytes (u64Bytes value) = value := by
  have bound : value.toNat < 256 ^ 8 := value.toNat_lt
  rw [u64FromBytes, u64Bytes, fromBe_beBytes, Nat.mod_eq_of_lt bound, UInt64.ofNat_toNat]

end Bgpgg.Lib
