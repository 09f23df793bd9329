import Bgpgg.Lib.BigEndian

namespace Bgpgg.Net

open Lib

abbrev Ipv4Addr := BitVec 32
abbrev Ipv6Addr := BitVec 128

inductive IpAddr where
  | v4 (addr : Ipv4Addr)
  | v6 (addr : Ipv6Addr)
deriving DecidableEq, Repr

structure SocketAddr where
  ip : IpAddr
  port : UInt16
deriving DecidableEq, Repr

-- Ipv4Net and Ipv6Net differ only in the address width. Nothing clears the host
-- bits and nothing bounds the length: both are what the decoder happened to read.
structure IpNet (width : Nat) where
  address : BitVec width
  prefixLength : UInt8
deriving DecidableEq, Repr

abbrev Ipv4Net := IpNet 32
abbrev Ipv6Net := IpNet 128

variable {width : Nat} (addr : BitVec width)

def Canonical (net : IpNet width) : Prop := net.prefixLength.toNat ≤ width ∧ net.address.toNat % 2 ^ (width - net.prefixLength.toNat) = 0

instance {width : Nat} (net : IpNet width) : Decidable (Canonical net) := inferInstanceAs (Decidable (_ ∧ _))

inductive IpNetwork where
  | v4 (net : Ipv4Net)
  | v6 (net : Ipv6Net)
deriving DecidableEq, Repr

inductive Afi where
  | ipv4
  | ipv6
  | linkState
deriving DecidableEq, Repr

inductive Safi where
  | unicast
  | multicast
  | mplsLabel
  | linkState
  | linkStateVpn
deriving DecidableEq, Repr

structure AfiSafi where
  afi : Afi
  safi : Safi
deriving DecidableEq, Repr

def Afi.toU16 : Afi → UInt16
  | .ipv4 => 1
  | .ipv6 => 2
  | .linkState => 16388

def Afi.tryFrom (value : UInt16) : Option Afi := if value = 1 then some .ipv4
  else if value = 2 then some .ipv6
  else if value = 16388 then some .linkState
  else none

def Safi.toU8 : Safi → UInt8
  | .unicast => 1
  | .multicast => 2
  | .mplsLabel => 4
  | .linkState => 71
  | .linkStateVpn => 72

def Safi.tryFrom (value : UInt8) : Option Safi := if value = 1 then some .unicast
  else if value = 2 then some .multicast
  else if value = 4 then some .mplsLabel
  else if value = 71 then some .linkState
  else if value = 72 then some .linkStateVpn
  else none

@[simp] theorem afi_tryFrom_toU16 (afi : Afi) : Afi.tryFrom afi.toU16 = some afi := by
  cases afi <;> rfl

@[simp] theorem safi_tryFrom_toU8 (safi : Safi) : Safi.tryFrom safi.toU8 = some safi := by
  cases safi <;> rfl

def addrOctets : List UInt8 := beBytes (width / 8) addr.toNat

def addrFromOctets (width : Nat) (octets : List UInt8) : BitVec width := BitVec.ofNat width (fromBe octets)

def Ipv4Addr.octets (addr : Ipv4Addr) : List UInt8 := addrOctets addr
def Ipv6Addr.octets (addr : Ipv6Addr) : List UInt8 := addrOctets addr
def Ipv4Addr.fromOctets (octets : List UInt8) : Ipv4Addr := addrFromOctets 32 octets
def Ipv6Addr.fromOctets (octets : List UInt8) : Ipv6Addr := addrFromOctets 128 octets

@[simp] theorem length_addrOctets : (addrOctets addr).length = width / 8 := length_beBytes _ _

theorem addrFromOctets_addrOctets (aligned : 8 * (width / 8) = width) : addrFromOctets width (addrOctets addr) = addr := by
  have bound : addr.toNat < 256 ^ (width / 8) := by
    have wide : (256 : Nat) ^ (width / 8) = 2 ^ width := by
      rw [show (256 : Nat) = 2 ^ 8 by rfl, ← Nat.pow_mul, aligned]
    rw [wide]
    exact addr.isLt
  rw [addrFromOctets, addrOctets, fromBe_beBytes, Nat.mod_eq_of_lt bound, BitVec.ofNat_toNat, BitVec.setWidth_eq]

theorem addrOctets_addrFromOctets {octets : List UInt8} (aligned : 8 * (width / 8) = width)
    (exact : octets.length = width / 8) : addrOctets (addrFromOctets width octets) = octets := by
  have below : fromBe octets < 2 ^ width := by
    have bound := fromBe_lt octets
    rw [exact, show (256 : Nat) = 2 ^ 8 by rfl, ← Nat.pow_mul, aligned] at bound
    exact bound
  rw [addrOctets, addrFromOctets, BitVec.toNat_ofNat, Nat.mod_eq_of_lt below, ← exact]
  exact beBytes_fromBe octets

@[simp] theorem ipv4_fromOctets_octets (addr : Ipv4Addr) : Ipv4Addr.fromOctets (Ipv4Addr.octets addr) = addr :=
  addrFromOctets_addrOctets addr rfl

@[simp] theorem ipv6_fromOctets_octets (addr : Ipv6Addr) : Ipv6Addr.fromOctets (Ipv6Addr.octets addr) = addr :=
  addrFromOctets_addrOctets addr rfl

@[simp] theorem length_ipv4_octets (addr : Ipv4Addr) : (Ipv4Addr.octets addr).length = 4 := length_addrOctets addr

@[simp] theorem length_ipv6_octets (addr : Ipv6Addr) : (Ipv6Addr.octets addr).length = 16 := length_addrOctets addr

def IpNetwork.prefixLen : IpNetwork → UInt8
  | .v4 net => net.prefixLength
  | .v6 net => net.prefixLength

def IpNetwork.afiSafi : IpNetwork → AfiSafi
  | .v4 _ => ⟨.ipv4, .unicast⟩
  | .v6 _ => ⟨.ipv6, .unicast⟩

structure StdParse where
  u8 : String → Option UInt8
  ipv4Addr : String → Option Ipv4Addr
  ipv6Addr : String → Option Ipv6Addr

def IpNetwork.fromStr (std : StdParse) (text : String) : Except String IpNetwork := match text.splitOn "/" with
  | [addr, length] =>
    match std.u8 length with
    | none => .error ("invalid prefix length '" ++ length ++ "'")
    | some prefixLen =>
      match std.ipv4Addr addr, std.ipv6Addr addr with
      | some ipv4Addr, _ =>
        if prefixLen > 32 then .error ("IPv4 prefix length " ++ toString prefixLen ++ " exceeds 32")
        else .ok (.v4 ⟨ipv4Addr, prefixLen⟩)
      | none, some ipv6Addr =>
        if prefixLen > 128 then .error ("IPv6 prefix length " ++ toString prefixLen ++ " exceeds 128")
        else .ok (.v6 ⟨ipv6Addr, prefixLen⟩)
      | none, none => .error ("invalid IP address '" ++ addr ++ "'")
  | _ => .error ("invalid CIDR format '" ++ text ++ "' (expected address/length)")

-- The first octet decides, whatever the length: 224.0.0.0/1 counts as multicast.
def Ipv4Net.isMulticast (net : Ipv4Net) : Bool := 224 ≤ net.address.toNat / 2 ^ 24 && net.address.toNat / 2 ^ 24 ≤ 239

end Bgpgg.Net
