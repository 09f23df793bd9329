import Bgpgg.Server.Ops

namespace Bgpgg.Server

open Net Lib Rib

namespace BgpServer

variable (server : BgpServer) (delta : RouteDelta) (originatingPeer : Option IpAddr)

@[simp] theorem lookup_setPeer (peerIp other : IpAddr) (peer : PeerInfo) :
    (server.setPeer peerIp peer).peers.lookup other = if other = peerIp then some peer else server.peers.lookup other :=
  AssocMap.lookup_insert_if server.peers peerIp other peer

section

variable (peerIp : IpAddr) (change : PeerInfo → PeerInfo) (peer : PeerInfo)

@[simp] theorem setPeer_locRib : (server.setPeer peerIp peer).locRib = server.locRib := rfl

@[simp] theorem setPeer_config : (server.setPeer peerIp peer).config = server.config := rfl

@[simp] theorem setPeer_vrpTable : (server.setPeer peerIp peer).vrpTable = server.vrpTable := rfl

@[simp] theorem lookup_modifyPeer (peerIp other : IpAddr) (change : PeerInfo → PeerInfo) :
    (server.modifyPeer peerIp change).peers.lookup other =
      if other = peerIp then (server.peers.lookup peerIp).map change else server.peers.lookup other := by
  cases found : server.peers.lookup peerIp with
  | none =>
    simp only [modifyPeer, found, Option.map_none]
    by_cases same : other = peerIp
    · rw [if_pos same, same, found]
    · rw [if_neg same]
  | some peer =>
    simp only [modifyPeer, found]
    exact server.lookup_setPeer peerIp other (change peer)

@[simp] theorem modifyPeer_locRib : (server.modifyPeer peerIp change).locRib = server.locRib := by
  unfold modifyPeer
  split <;> rfl

@[simp] theorem modifyPeer_config : (server.modifyPeer peerIp change).config = server.config := by
  unfold modifyPeer
  split <;> rfl

@[simp] theorem modifyPeer_localAddr : (server.modifyPeer peerIp change).localAddr = server.localAddr := by
  unfold modifyPeer
  split <;> rfl

theorem propagateToPeer_eq :
    ∃ adjRibOut, server.propagateToPeer delta originatingPeer peerIp peer = { peer with adjRibOut := adjRibOut } := by
  unfold propagateToPeer
  split
  · split
    · exact ⟨peer.adjRibOut, rfl⟩
    · split
      · exact ⟨peer.adjRibOut, rfl⟩
      · exact ⟨_, rfl⟩
  · exact ⟨peer.adjRibOut, rfl⟩

theorem propagateToPeer_originating : server.propagateToPeer delta (some peerIp) peerIp peer = peer := by
  unfold propagateToPeer
  split
  · simp [shouldPropagateToPeer]
  · rfl

@[simp] theorem propagateRoutes_locRib : (server.propagateRoutes delta originatingPeer).locRib = server.locRib := by
  unfold propagateRoutes
  split <;> rfl

@[simp] theorem propagateRoutes_config : (server.propagateRoutes delta originatingPeer).config = server.config := by
  unfold propagateRoutes
  split <;> rfl

@[simp] theorem propagateRoutes_vrpTable : (server.propagateRoutes delta originatingPeer).vrpTable = server.vrpTable := by
  unfold propagateRoutes
  split <;> rfl

@[simp] theorem propagateRoutes_localAddr : (server.propagateRoutes delta originatingPeer).localAddr = server.localAddr := by
  unfold propagateRoutes
  split <;> rfl

theorem lookup_propagateRoutes :
    (server.propagateRoutes delta originatingPeer).peers.lookup peerIp = (server.peers.lookup peerIp).map fun peer =>
      if delta.hasChanges then server.propagateToPeer delta originatingPeer peerIp peer else peer := by
  by_cases changes : delta.hasChanges = true
  · simp only [propagateRoutes, changes, Bool.not_true, Bool.false_eq_true, if_false]
    rw [AssocMap.lookup_filterMapValues, Option.map_eq_bind]
    rfl
  · simp [propagateRoutes, changes]

theorem lookup_propagateRoutes_originating :
    (server.propagateRoutes delta (some peerIp)).peers.lookup peerIp = server.peers.lookup peerIp := by
  rw [lookup_propagateRoutes]
  cases found : server.peers.lookup peerIp with
  | none => rfl
  | some peer => simp [propagateToPeer_originating]

end

variable (outcome : LocRib BitmapPathIdAllocator × RouteDelta)

@[simp] theorem commit_locRib : (server.commit outcome originatingPeer).locRib = outcome.1 := by
  simp [commit]

@[simp] theorem commit_config : (server.commit outcome originatingPeer).config = server.config := by
  simp [commit]

@[simp] theorem commit_vrpTable : (server.commit outcome originatingPeer).vrpTable = server.vrpTable := by
  simp [commit]

@[simp] theorem commit_localAddr : (server.commit outcome originatingPeer).localAddr = server.localAddr := by
  simp [commit]

theorem lookup_commit_originating (peerIp : IpAddr) :
    (server.commit outcome (some peerIp)).peers.lookup peerIp = server.peers.lookup peerIp :=
  lookup_propagateRoutes_originating _ _ peerIp

end BgpServer

end Bgpgg.Server
