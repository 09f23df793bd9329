import Bgpgg.Peer.OpenReencode
import Bgpgg.Wire.Update

namespace Bgpgg.Bmp

open Net Wire Lib Peer

def encodeIpAddress : IpAddr → List UInt8
  | .v4 addr => List.replicate 12 0 ++ beBytes 4 addr.toNat
  | .v6 addr => beBytes 16 addr.toNat

inductive PeerDistinguisher where
  | global
  | rd (value : UInt64)
  | local (id : UInt64)
deriving DecidableEq, Repr

def PeerDistinguisher.toU64 : PeerDistinguisher → UInt64
  | .global => 0
  | .rd value => value
  | .local id => id

def PeerDistinguisher.peerType : PeerDistinguisher → UInt8
  | .global => 0
  | .rd _ => 1
  | .local _ => 2

structure InformationTlv where
  infoType : UInt16
  infoValue : List UInt8
deriving DecidableEq, Repr

def InformationTlv.toBytes (tlv : InformationTlv) : List UInt8 :=
  u16Bytes tlv.infoType ++ u16Bytes (UInt16.ofNat tlv.infoValue.length) ++ tlv.infoValue

structure PeerHeader where
  peerDistinguisher : PeerDistinguisher
  peerFlags : UInt8
  peerAddress : IpAddr
  peerAs : UInt32
  peerBgpId : UInt32
  timestampSeconds : UInt32
  timestampMicroseconds : UInt32
deriving DecidableEq, Repr

def PEER_HEADER_SIZE : Nat := 42

namespace PeerHeader

def buildPeerFlags (peerAddress : IpAddr) (postPolicy use4byteAsn : Bool) : UInt8 := (match peerAddress with
    | .v6 _ => 0x80
    | .v4 _ => 0) ||| (if postPolicy then 0x40 else 0) ||| (if use4byteAsn then 0 else 0x20)

def new (peerDistinguisher : PeerDistinguisher) (peerAddress : IpAddr) (peerAs peerBgpId : UInt32)
    (postPolicy use4byteAsn : Bool) (timestamp : Option (UInt32 × UInt32)) : PeerHeader where
  peerDistinguisher := peerDistinguisher
  peerFlags := buildPeerFlags peerAddress postPolicy use4byteAsn
  peerAddress := peerAddress
  peerAs := peerAs
  peerBgpId := peerBgpId
  timestampSeconds := (timestamp.getD (0, 0)).1
  timestampMicroseconds := (timestamp.getD (0, 0)).2

def toBytes (header : PeerHeader) : List UInt8 :=
  header.peerDistinguisher.peerType :: header.peerFlags :: u64Bytes header.peerDistinguisher.toU64 ++
    encodeIpAddress header.peerAddress ++ u32Bytes header.peerAs ++ u32Bytes header.peerBgpId ++
    u32Bytes header.timestampSeconds ++ u32Bytes header.timestampMicroseconds

theorem length_toBytes (header : PeerHeader) : header.toBytes.length = PEER_HEADER_SIZE := by
  cases address : header.peerAddress <;> simp [toBytes, encodeIpAddress, address, PEER_HEADER_SIZE]

end PeerHeader

def OPEN_TYPE : UInt8 := 1

def openSerialize (message : OpenMessage) : List UInt8 :=
  List.replicate 16 0xFF ++ u16Bytes (UInt16.ofNat BGP_HEADER_SIZE_BYTES + UInt16.ofNat message.toBytes.length) ++
    [OPEN_TYPE] ++ message.toBytes

structure PeerUpMessage where
  peerHeader : PeerHeader
  localAddress : IpAddr
  localPort : UInt16
  remotePort : UInt16
  sentOpenMessage : OpenMessage
  receivedOpenMessage : OpenMessage
  information : List InformationTlv

namespace PeerUpMessage

def toBytes (message : PeerUpMessage) : List UInt8 :=
  message.peerHeader.toBytes ++ encodeIpAddress message.localAddress ++ u16Bytes message.localPort ++
    u16Bytes message.remotePort ++ openSerialize message.sentOpenMessage ++ openSerialize message.receivedOpenMessage ++
    message.information.flatMap InformationTlv.toBytes

variable (message : PeerUpMessage)

def receivedOpenOffset : Nat := PEER_HEADER_SIZE + 16 + 2 + 2 + (openSerialize message.sentOpenMessage).length + BGP_HEADER_SIZE_BYTES

def embeddedOpen : List UInt8 := (message.toBytes.drop message.receivedOpenOffset).take message.receivedOpenMessage.toBytes.length

theorem embeddedOpen_eq : message.embeddedOpen = message.receivedOpenMessage.toBytes := by
  have address : (encodeIpAddress message.localAddress).length = 16 := by
    cases message.localAddress <;> simp [encodeIpAddress]
  have split : message.toBytes = (message.peerHeader.toBytes ++ encodeIpAddress message.localAddress ++ u16Bytes message.localPort ++
      u16Bytes message.remotePort ++ openSerialize message.sentOpenMessage ++ List.replicate 16 0xFF ++
      u16Bytes (UInt16.ofNat BGP_HEADER_SIZE_BYTES + UInt16.ofNat message.receivedOpenMessage.toBytes.length) ++ [OPEN_TYPE]) ++
      (message.receivedOpenMessage.toBytes ++ message.information.flatMap InformationTlv.toBytes) := by
    rw [toBytes]
    conv_lhs => rw [openSerialize.eq_def message.receivedOpenMessage]
    simp
  have front : message.receivedOpenOffset = (message.peerHeader.toBytes ++ encodeIpAddress message.localAddress ++
      u16Bytes message.localPort ++ u16Bytes message.remotePort ++ openSerialize message.sentOpenMessage ++
      List.replicate 16 0xFF ++
      u16Bytes (UInt16.ofNat BGP_HEADER_SIZE_BYTES + UInt16.ofNat message.receivedOpenMessage.toBytes.length) ++ [OPEN_TYPE]).length := by
    simp only [receivedOpenOffset, List.length_append, PeerHeader.length_toBytes, address, length_u16Bytes,
      List.length_replicate, List.length_singleton, BGP_HEADER_SIZE_BYTES]
  rw [embeddedOpen, split, front, List.drop_left, List.take_left]

theorem carries_received_open_iff (message : PeerUpMessage) (bytes : List UInt8)
    (received : OpenMessage.fromBytes bytes = .ok message.receivedOpenMessage) :
    message.embeddedOpen = bytes ↔ Reencodes bytes := by
  rw [embeddedOpen_eq]
  exact OpenMessage.toBytes_eq_iff_reencodes received

def sample (received : OpenMessage) : PeerUpMessage where
  peerHeader := .new .global (.v4 0xC0000201) 65001 0x0A000001 false true none
  localAddress := .v4 0xC0000202
  localPort := 179
  remotePort := 33000
  sentOpenMessage := .new 65000 180 0x0A000002
  receivedOpenMessage := received
  information := []

def plainOpen : List UInt8 := [4, 0xFD, 0xE9, 0, 180, 10, 0, 0, 1, 8, 2, 6, 65, 4, 0, 0, 0xFD, 0xE9]

def plainMessage : OpenMessage :=
  ⟨4, 65001, 180, 0x0A000001, 8, [⟨.capabilities, 6, .capabilities [⟨.fourOctetAsn, 4, [0, 0, 0xFD, 0xE9]⟩]⟩]⟩

theorem carries_plain_open :
    OpenMessage.fromBytes plainOpen = .ok plainMessage ∧ ((sample plainMessage).embeddedOpen = plainOpen ↔ Reencodes plainOpen) ∧
      (sample plainMessage).embeddedOpen = plainOpen :=
  ⟨by decide +kernel, carries_received_open_iff _ _ (by decide +kernel), by decide +kernel⟩

def unknownCodeOpen : List UInt8 := [4, 0xFD, 0xE9, 0, 180, 10, 0, 0, 1, 4, 2, 2, 128, 0]

def smallAsnOpen : List UInt8 := [4, 0x5B, 0xA0, 0, 180, 10, 0, 0, 1, 8, 2, 6, 65, 4, 0, 0, 0xFD, 0xE9]

-- The length byte says zero and 256 bytes follow.
def trailingOpen : List UInt8 := [4, 0xFD, 0xE9, 0, 180, 10, 0, 0, 1, 0] ++ List.replicate 256 0

theorem reencoded_open_differs : OpenMessage.fromBytes unknownCodeOpen =
      .ok ⟨4, 65001, 180, 0x0A000001, 4, [⟨.capabilities, 2, .capabilities [⟨.unknown, 0, []⟩]⟩]⟩ ∧
    (sample ⟨4, 65001, 180, 0x0A000001, 4, [⟨.capabilities, 2, .capabilities [⟨.unknown, 0, []⟩]⟩]⟩).embeddedOpen =
      [4, 0xFD, 0xE9, 0, 180, 10, 0, 0, 1, 4, 2, 2, 0, 0] ∧
    OpenMessage.fromBytes smallAsnOpen = .ok plainMessage ∧ (sample plainMessage).embeddedOpen = plainOpen ∧
    OpenMessage.fromBytes trailingOpen = .ok (.new 65001 180 0x0A000001) ∧
    (sample (.new 65001 180 0x0A000001)).embeddedOpen = [4, 0xFD, 0xE9, 0, 180, 10, 0, 0, 1, 0] ∧
    ¬ ∀ (message : PeerUpMessage) (bytes : List UInt8), OpenMessage.fromBytes bytes = .ok message.receivedOpenMessage →
        message.embeddedOpen = bytes := by
  have read : OpenMessage.fromBytes smallAsnOpen = .ok plainMessage := by decide +kernel
  have shown : (sample plainMessage).embeddedOpen = plainOpen := by decide +kernel
  refine ⟨by decide +kernel, by decide +kernel, read, shown, by decide +kernel, by decide +kernel, fun always => ?_⟩
  have same := (shown.symm.trans (always (sample plainMessage) smallAsnOpen read))
  exact absurd same (by decide)

end PeerUpMessage

end Bgpgg.Bmp
