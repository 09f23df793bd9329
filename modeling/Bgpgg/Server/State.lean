import Bgpgg.Peer.Export

namespace Bgpgg.Server

open Net Wire Lib Rib Policies Peer Rpki

inductive MaxPrefixAction where
  | terminate
  | discard
deriving DecidableEq, Repr

structure MaxPrefixSetting where
  limit : UInt32
  action : MaxPrefixAction
deriving DecidableEq, Repr

structure AfiSafiConfig where
  afiSafi : AfiSafi
  maxPrefix : Option MaxPrefixSetting
  importPolicy : List String
  exportPolicy : List String
deriving DecidableEq, Repr

structure PeerConfig where
  ip : Option IpAddr := none
  allowAutomaticStop : Bool := true
  maxPrefix : Option MaxPrefixSetting := none
  rrClient : Bool := false
  rsClient : Bool := false
  enforceFirstAs : Bool := true
  nextHopSelf : Bool := false
  gracefulShutdown : Bool := false
  sendRpkiCommunity : Bool := false
  afiSafis : List AfiSafiConfig := []
deriving DecidableEq, Repr

def PeerConfig.effectiveMaxPrefix (config : PeerConfig) (family : AfiSafi) : Option MaxPrefixSetting :=
  ((config.afiSafis.find? fun entry => entry.afiSafi == family).bind AfiSafiConfig.maxPrefix).or config.maxPrefix

-- validate refuses a configuration that names a peer address twice.
structure BgpConfig where
  asn : UInt32
  routerId : Ipv4Addr
  clusterIdSetting : Option Ipv4Addr
  peers : List PeerConfig
  distinct : (peers.filterMap PeerConfig.ip).Nodup

def BgpConfig.clusterId (config : BgpConfig) : Ipv4Addr := config.clusterIdSetting.getD config.routerId

def BgpConfig.findPeer (config : BgpConfig) (ip : IpAddr) : Option PeerConfig := config.peers.find? fun peer => peer.ip == some ip

inductive BgpState where
  | idle
  | connect
  | active
  | openSent
  | openConfirm
  | established
deriving DecidableEq, Repr

structure ConnectionInfo where
  localAddress : IpAddr
  localLinkLocal : Option Ipv6Addr
deriving DecidableEq, Repr

structure ConnectionState where
  state : BgpState := .idle
  asn : Option UInt32 := none
  bgpId : Option UInt32 := none
  connInfo : Option ConnectionInfo := none
  capabilities : Option PeerCapabilities := none
deriving DecidableEq, Repr

def ConnectionState.sendFormat (conn : ConnectionState) : MessageFormat :=
  (conn.capabilities.map fun capabilities => capabilities.sendFormat false).getD PRE_OPEN_FORMAT

def ConnectionState.negotiatedAfiSafis (conn : ConnectionState) : List AfiSafi :=
  (conn.capabilities.map PeerCapabilities.multiprotocol).getD []

structure PeerInfo where
  importPolicies : AfiSafiPolicies
  exportPolicies : AfiSafiPolicies
  conn : ConnectionState
  adjRibIn : AdjRibIn
  adjRibOut : AdjRibOut
  disabledAfiSafi : List AfiSafi
  llgrTimers : List AfiSafi

def PeerInfo.new : PeerInfo := ⟨∅, ∅, {}, .new, .new, [], []⟩

def PeerInfo.establishedConn (peer : PeerInfo) : Option ConnectionState := if peer.conn.state = .established then some peer.conn else none

-- policies is the table that policy_ctx resolves names in.
structure BgpServer where
  peers : AssocMap IpAddr PeerInfo
  locRib : LocRib BitmapPathIdAllocator
  config : BgpConfig
  policies : AssocMap String Policy
  localAddr : IpAddr
  vrpTable : VrpTable

namespace BgpServer

variable (server : BgpServer) (peerIp : IpAddr) (afiSafi : AfiSafi)

-- An assignment through the reference that peers.get_mut returned.
def setPeer (peer : PeerInfo) : BgpServer := { server with peers := server.peers.insert peerIp peer }

def modifyPeer (change : PeerInfo → PeerInfo) : BgpServer := match server.peers.lookup peerIp with
  | none => server
  | some peer => server.setPeer peerIp (change peer)

def resolvePolicies (names : List String) (isEbgp : Bool) : List Policy :=
  names.filterMap (fun name => server.policies.lookup name) ++ [if isEbgp then .denyAll else .permitAll]

-- The map of families: a family listed twice takes the later entry.
def buildPeerPolicies (peerConfig : PeerConfig) (isEbgp : Bool) : AfiSafiPolicies × AfiSafiPolicies :=
  let byFamily : List AfiSafiConfig := if peerConfig.afiSafis.isEmpty then [⟨⟨.ipv4, .unicast⟩, none, [], []⟩] else peerConfig.afiSafis
  byFamily.foldl (fun built entry =>
    (built.1.insert entry.afiSafi (server.resolvePolicies entry.importPolicy isEbgp),
      built.2.insert entry.afiSafi (server.resolvePolicies entry.exportPolicy isEbgp))) (∅, ∅)

def exportContext (peerCfg : PeerConfig) (peer : PeerInfo) (peerAsn : UInt32)
    (capabilities : PeerCapabilities) : PeerExportContext where
  peerAddr := peerIp
  localAsn := server.config.asn
  peerAsn := peerAsn
  localNextHop := (peer.conn.connInfo.map ConnectionInfo.localAddress).getD server.localAddr
  localLinkLocal := peer.conn.connInfo.bind ConnectionInfo.localLinkLocal
  exportPolicies := peer.exportPolicies
  rrClient := peerCfg.rrClient
  rsClient := peerCfg.rsClient
  clusterId := server.config.clusterId
  sendFormat := peer.conn.sendFormat
  negotiatedAfiSafis := peer.conn.negotiatedAfiSafis
  nextHopSelf := peerCfg.nextHopSelf
  gracefulShutdown := peerCfg.gracefulShutdown
  llgrCapability := capabilities.llgr
  sendRpkiCommunity := peerCfg.sendRpkiCommunity

-- peer_cfg_by_ip is a map built from the list: the last entry of an address wins.
def peerCfgByIp : Option PeerConfig := (server.config.peers.filter fun peer => peer.ip == some peerIp).getLast?

def shouldPropagateToPeer (state : BgpState) (originatingPeer : Option IpAddr) : Bool :=
  originatingPeer != some peerIp && state == .established

def propagateToPeer (delta : RouteDelta) (originatingPeer : Option IpAddr) (peerIp : IpAddr) (peer : PeerInfo) : PeerInfo :=
  match server.peerCfgByIp peerIp, peer.establishedConn with
  | some peerCfg, some conn =>
    if !shouldPropagateToPeer peerIp conn.state originatingPeer then peer
    else
      match conn.capabilities with
      | none => peer
      | some capabilities =>
        let ctx := server.exportContext peerIp peerCfg peer (conn.asn.getD server.config.asn) capabilities
        { peer with adjRibOut := (propagateRoutesToPeer ctx delta server.locRib peer.adjRibOut).1 }
  | _, _ => peer

def propagateRoutes (server : BgpServer) (delta : RouteDelta) (originatingPeer : Option IpAddr) : BgpServer :=
  if !delta.hasChanges then server
  else
    let visit (peerIp : IpAddr) (peer : PeerInfo) : Option PeerInfo := some (server.propagateToPeer delta originatingPeer peerIp peer)
    { server with peers := AssocMap.filterMapValues visit server.peers }

def resendSupported : Bool := match afiSafi.afi, afiSafi.safi with
  | .ipv4, .unicast => true
  | .ipv6, .unicast => true
  | .linkState, .linkState => true
  | .linkState, .linkStateVpn => true
  | _, _ => false

def resendRoutesToPeer : BgpServer := match server.peers.lookup peerIp with
  | none => server
  | some peer =>
    if !resendSupported afiSafi then server
    else
      match peer.establishedConn.bind fun conn => conn.asn.bind fun asn => conn.capabilities.map (Prod.mk asn),
        server.config.findPeer peerIp with
      | some (peerAsn, capabilities), some peerCfg =>
        let allKeys := (server.locRib.getRoutes afiSafi).map Route.key
        let ctx := server.exportContext peerIp peerCfg peer peerAsn capabilities
        server.setPeer peerIp { peer with
          adjRibOut := (propagateRoutesToPeer ctx ⟨allKeys, allKeys⟩ server.locRib peer.adjRibOut).1 }
      | _, _ => server

end BgpServer

end Bgpgg.Server
