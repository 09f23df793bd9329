import Bgpgg.Peer.Selection
import Bgpgg.Rib.OtherPeers
import Bgpgg.Server.RibOps

namespace Bgpgg.Server

open Net Rib Peer

theorem findPeer_eq_getLast (config : BgpConfig) (peerIp : IpAddr) :
    (config.peers.filter fun peer => peer.ip == some peerIp).getLast? = config.findPeer peerIp := by
  have distinct := config.distinct
  rw [BgpConfig.findPeer]
  generalize config.peers = peers at distinct ⊢
  induction peers with
  | nil => rfl
  | cons first rest ih =>
    by_cases here : first.ip = some peerIp
    · -- No other entry has the address, so the first match is the only one.
      have alone : rest.filter (fun peer => peer.ip == some peerIp) = [] := by
        rw [List.filterMap_cons, here, List.nodup_cons] at distinct
        refine List.filter_eq_nil_iff.mpr fun other member same => distinct.1 ?_
        exact List.mem_filterMap.mpr ⟨other, member, by simpa using same⟩
      simp [here, alone]
    · have later : (rest.filterMap PeerConfig.ip).Nodup := by
        cases named : first.ip with
        | none => simpa [named] using distinct
        | some ip =>
          rw [List.filterMap_cons, named] at distinct
          exact (List.nodup_cons.mp distinct).2
      simpa [here] using ih later

structure PeerInfo.SameSession (before after : PeerInfo) : Prop where
  conn : after.conn = before.conn
  exportPolicies : after.exportPolicies = before.exportPolicies
  adjRibOut : after.adjRibOut = before.adjRibOut

namespace BgpServer

section

variable (server : BgpServer) (peerIp : IpAddr) (peer : PeerInfo)

def exportContextOf : Option PeerExportContext := match server.peerCfgByIp peerIp, peer.establishedConn with
  | some peerCfg, some conn =>
    conn.capabilities.map (server.exportContext peerIp peerCfg peer (conn.asn.getD server.config.asn))
  | _, _ => none

structure SameSpeaker (before after : BgpServer) : Prop where
  config : after.config = before.config
  localAddr : after.localAddr = before.localAddr

theorem SameSpeaker.trans {first second third : BgpServer} (front : SameSpeaker first second)
    (back : SameSpeaker second third) : SameSpeaker first third :=
  ⟨back.config.trans front.config, back.localAddr.trans front.localAddr⟩

theorem SameSpeaker.exportContextOf {before after : BgpServer} (same : SameSpeaker before after) (peerIp : IpAddr)
    (peer : PeerInfo) : after.exportContextOf peerIp peer = before.exportContextOf peerIp peer := by
  have context : after.exportContext peerIp = before.exportContext peerIp := by
    funext peerCfg peer peerAsn capabilities
    simp [exportContext, same.config, same.localAddr]
  simp [BgpServer.exportContextOf, peerCfgByIp, same.config, context]

theorem setPeer_sameSpeaker : SameSpeaker server (server.setPeer peerIp peer) := ⟨rfl, rfl⟩

theorem modifyPeer_sameSpeaker (change : PeerInfo → PeerInfo) : SameSpeaker server (server.modifyPeer peerIp change) :=
  ⟨modifyPeer_config server peerIp change, modifyPeer_localAddr server peerIp change⟩

theorem commit_sameSpeaker (outcome : LocRib BitmapPathIdAllocator × RouteDelta)
    (originatingPeer : Option IpAddr) : SameSpeaker server (server.commit outcome originatingPeer) :=
  ⟨commit_config server originatingPeer outcome, commit_localAddr server originatingPeer outcome⟩

end

section

variable {server : BgpServer} {peerIp : IpAddr} {peer : PeerInfo} {ctx : PeerExportContext}

section

variable (context : server.exportContextOf peerIp peer = some ctx)

include context

theorem exportContextOf_established : peer.conn.state = .established := by
  by_contra other
  have closed : peer.establishedConn = none := by simp [PeerInfo.establishedConn, other]
  simp [exportContextOf, closed] at context

theorem exportContextOf_peerAddr : ctx.peerAddr = peerIp := by
  rw [exportContextOf] at context
  split at context
  · obtain ⟨capabilities, -, rfl⟩ := Option.map_eq_some_iff.mp context
    rfl
  · cases context

theorem exportContextOf_afiSafis :
    ∃ capabilities, peer.conn.capabilities = some capabilities ∧ ctx.afiSafis = familiesOf capabilities.multiprotocol := by
  have opened : peer.establishedConn = some peer.conn := by
    simp [PeerInfo.establishedConn, exportContextOf_established context]
  rw [exportContextOf, opened] at context
  split at context
  · rename_i peerCfg conn configured same
    obtain rfl := Option.some.inj same
    obtain ⟨capabilities, present, rfl⟩ := Option.map_eq_some_iff.mp context
    simp [PeerExportContext.afiSafis, exportContext, ConnectionState.negotiatedAfiSafis, present]
  · cases context

end

theorem exportContextOf_adjRibOut (adjRibOut : AdjRibOut) :
    server.exportContextOf peerIp { peer with adjRibOut := adjRibOut } = server.exportContextOf peerIp peer := rfl

theorem propagateToPeer_of_context (delta : RouteDelta) (originatingPeer : Option IpAddr) :
    server.propagateToPeer delta originatingPeer peerIp peer = match server.exportContextOf peerIp peer with
      | none => peer
      | some ctx =>
        if originatingPeer = some peerIp then peer
        else { peer with adjRibOut := (propagateRoutesToPeer ctx delta server.locRib peer.adjRibOut).1 } := by
  by_cases established : peer.conn.state = .established
  · have opened : peer.establishedConn = some peer.conn := by simp [PeerInfo.establishedConn, established]
    cases configured : server.peerCfgByIp peerIp with
    | none => simp [propagateToPeer, exportContextOf, configured]
    | some peerCfg =>
      simp only [propagateToPeer, exportContextOf, configured, opened, shouldPropagateToPeer, established]
      by_cases mine : originatingPeer = some peerIp <;> cases peer.conn.capabilities <;> simp
  · have closed : peer.establishedConn = none := by simp [PeerInfo.establishedConn, established]
    simp [propagateToPeer, exportContextOf, closed]

end

-- What the adj-rib-out of a peer records, for a Loc-RIB: nothing outside a session, and in a
-- session the selection under every key of its families.
structure PeerSound (server : BgpServer) (rib : LocRib BitmapPathIdAllocator) (peerIp : IpAddr) (peer : PeerInfo) :
    Prop where
  keyed : AdjRibOut.Keyed peer.adjRibOut
  idle : peer.conn.state ≠ .established → ∀ key id, AdjRibOut.pathAt peer.adjRibOut key id = none
  advertises : ∀ ctx, server.exportContextOf peerIp peer = some ctx →
    ∀ key, key.afiSafi ∈ ctx.afiSafis → Advertised ctx rib peer.adjRibOut key

def PeersSound (server : BgpServer) : Prop :=
  ∀ peerIp peer, server.peers.lookup peerIp = some peer → PeerSound server server.locRib peerIp peer

theorem selection_of_covers {ctx : PeerExportContext} {delta : RouteDelta} {before after : LocRib BitmapPathIdAllocator}
    (covers : LocRib.Covers delta before after) {key : RouteKey} (unlisted : key ∉ routeKeysFor ctx delta key.afiSafi) :
    selection ctx after key = selection ctx before key := by
  rw [routeKeysFor] at unlisted
  cases wide : ctx.sendFormat.addPath.contains key.afiSafi || ctx.rsClient with
  | true =>
    rw [if_pos wide] at unlisted
    refine selection_of_exports ctx before after key ?_
    rw [exportsOf, exportsOf, covers.paths key unlisted]
  | false =>
    rw [wide] at unlisted
    exact selection_of_best ctx before after key wide (covers.best key unlisted)

theorem routeKeysFor_of_unchanged (ctx : PeerExportContext) {delta : RouteDelta} (afiSafi : AfiSafi)
    (unchanged : delta.hasChanges = false) : routeKeysFor ctx delta afiSafi = [] := by
  simp only [RouteDelta.hasChanges, Bool.or_eq_false_iff, Bool.not_eq_false', List.isEmpty_iff] at unchanged
  rw [routeKeysFor, unchanged.1, unchanged.2, ite_self]

section

variable {server : BgpServer} {rib : LocRib BitmapPathIdAllocator} {peerIp : IpAddr} {peer : PeerInfo}

variable {next : LocRib BitmapPathIdAllocator}

theorem PeerSound.of_speaker {after : BgpServer} (sound : PeerSound server rib peerIp peer)
    (same : SameSpeaker server after) : PeerSound after rib peerIp peer :=
  ⟨sound.keyed, sound.idle, fun ctx context => sound.advertises ctx (same.exportContextOf peerIp peer ▸ context)⟩

theorem PeerSound.of_session {after : PeerInfo} (sound : PeerSound server rib peerIp peer)
    (same : peer.SameSession after) : PeerSound server rib peerIp after := by
  obtain ⟨conn, exportPolicies, adjRibOut⟩ := same
  have built : ∀ peerCfg, server.exportContext peerIp peerCfg after = server.exportContext peerIp peerCfg peer := by
    intro peerCfg
    funext peerAsn capabilities
    simp [exportContext, conn, exportPolicies]
  have context : server.exportContextOf peerIp after = server.exportContextOf peerIp peer := by
    simp [exportContextOf, PeerInfo.establishedConn, conn, built]
  refine ⟨adjRibOut ▸ sound.keyed, ?_, ?_⟩
  · rw [conn, adjRibOut]
    exact sound.idle
  · rw [context, adjRibOut]
    exact sound.advertises

theorem PeerSound.of_closed (closed : peer.conn.state ≠ .established)
    (empty : ∀ key id, AdjRibOut.pathAt peer.adjRibOut key id = none) : PeerSound server rib peerIp peer := by
  refine ⟨fun key id path stored => ?_, fun _ => empty, fun ctx context => ?_⟩
  · rw [empty key id] at stored
    cases stored
  · exact absurd (exportContextOf_established context) closed

theorem PeerSound.of_selection (sound : PeerSound server rib peerIp peer)
    (same : ∀ ctx, server.exportContextOf peerIp peer = some ctx → ∀ key, key.afiSafi ∈ ctx.afiSafis →
      ∀ routePath, routePath ∈ selection ctx next key ↔ routePath ∈ selection ctx rib key) :
    PeerSound server next peerIp peer :=
  ⟨sound.keyed, sound.idle, fun ctx context key family =>
    (sound.advertises ctx context key family).of_selection (same ctx context key family)⟩

theorem PeerSound.propagated {delta : RouteDelta} {ctx : PeerExportContext}
    (sound : PeerSound server rib peerIp peer) (context : server.exportContextOf peerIp peer = some ctx)
    (valid : next.Valid) (covers : LocRib.Covers delta rib next) :
    PeerSound server next peerIp { peer with
      adjRibOut := (propagateRoutesToPeer ctx delta next peer.adjRibOut).1 } := by
  have effect := propagateRoutesToPeer_propagated ctx delta next peer.adjRibOut sound.keyed (Valid.identified valid ctx)
  refine ⟨effect.keyed, fun closed => absurd (exportContextOf_established context) closed, ?_⟩
  intro other otherContext key family
  rw [exportContextOf_adjRibOut, context] at otherContext
  obtain rfl := Option.some.inj otherContext
  by_cases listed : key ∈ routeKeysFor ctx delta key.afiSafi
  · exact effect.advertised key ⟨family, listed⟩
  · have unchanged : ∀ id, AdjRibOut.pathAt (propagateRoutesToPeer ctx delta next peer.adjRibOut).1 key id =
        AdjRibOut.pathAt peer.adjRibOut key id := effect.others key fun exported => listed exported.2
    have advertised := sound.advertises ctx context key family
    refine Advertised.congr (Advertised.of_selection advertised fun routePath => ?_) unchanged
    rw [selection_of_covers covers listed]

end

theorem setPeer_peersSound {server : BgpServer} {peerIp : IpAddr} {peer : PeerInfo} (sound : server.PeersSound)
    (changed : PeerSound server server.locRib peerIp peer) : (server.setPeer peerIp peer).PeersSound := by
  intro other after stored
  refine PeerSound.of_speaker ?_ (setPeer_sameSpeaker server peerIp peer)
  rw [lookup_setPeer] at stored
  by_cases here : other = peerIp
  · rw [if_pos here, Option.some.injEq] at stored
    subst here stored
    exact changed
  · rw [if_neg here] at stored
    exact sound other after stored

theorem modifyPeer_peersSound {server : BgpServer} {peerIp : IpAddr} {change : PeerInfo → PeerInfo} (sound : server.PeersSound)
    (changed : ∀ peer, server.peers.lookup peerIp = some peer → PeerSound server server.locRib peerIp (change peer)) :
    (server.modifyPeer peerIp change).PeersSound := by
  unfold modifyPeer
  split
  · exact sound
  · rename_i peer found
    exact setPeer_peersSound sound (changed peer found)

section

variable {server : BgpServer} {outcome : LocRib BitmapPathIdAllocator × RouteDelta} {originatingPeer : Option IpAddr}

variable {peerIp : IpAddr}

theorem lookup_commit_some {after : PeerInfo} (found : (server.commit outcome originatingPeer).peers.lookup peerIp = some after) :
    ∃ peer, server.peers.lookup peerIp = some peer := by
  rw [commit, lookup_propagateRoutes] at found
  obtain ⟨peer, stored, -⟩ := Option.map_eq_some_iff.mp found
  exact ⟨peer, stored⟩

theorem commit_peerSound {peer after : PeerInfo} (found : server.peers.lookup peerIp = some peer)
    (sound : PeerSound server server.locRib peerIp peer) (valid : outcome.1.Valid)
    (covers : LocRib.Covers outcome.2 server.locRib outcome.1) (served : originatingPeer ≠ some peerIp)
    (stored : (server.commit outcome originatingPeer).peers.lookup peerIp = some after) :
    PeerSound (server.commit outcome originatingPeer) outcome.1 peerIp after := by
  refine PeerSound.of_speaker ?_ (commit_sameSpeaker server outcome originatingPeer)
  have unchanged : (∀ ctx, server.exportContextOf peerIp peer = some ctx → outcome.2.hasChanges = false) →
      PeerSound server outcome.1 peerIp peer := by
    intro quiet
    refine sound.of_selection fun ctx context key _ routePath => ?_
    rw [selection_of_covers covers]
    rw [routeKeysFor_of_unchanged ctx key.afiSafi (quiet ctx context)]
    exact List.not_mem_nil
  have moved : ({ server with locRib := outcome.1 } : BgpServer).exportContextOf peerIp peer = server.exportContextOf peerIp peer := rfl
  rw [commit, lookup_propagateRoutes, found, Option.map_some, Option.some.injEq] at stored
  subst stored
  by_cases changes : outcome.2.hasChanges = true
  · rw [if_pos changes, propagateToPeer_of_context, moved]
    cases context : server.exportContextOf peerIp peer with
    | none => exact unchanged fun ctx present => by cases context.symm.trans present
    | some ctx =>
      simp only [if_neg served]
      exact sound.propagated context valid covers
  · rw [if_neg changes]
    exact unchanged fun _ _ => by simpa using changes

theorem commit_peersSound (sound : server.PeersSound) (valid : outcome.1.Valid) (covers : LocRib.Covers outcome.2 server.locRib outcome.1)
    (skipped : ∀ peerIp peer, originatingPeer = some peerIp → server.peers.lookup peerIp = some peer →
      PeerSound server outcome.1 peerIp peer) :
    (server.commit outcome originatingPeer).PeersSound := by
  intro peerIp after stored
  rw [commit_locRib]
  obtain ⟨peer, found⟩ := lookup_commit_some stored
  by_cases served : originatingPeer = some peerIp
  · subst served
    rw [lookup_commit_originating, found, Option.some.injEq] at stored
    subst stored
    exact (skipped peerIp peer rfl found).of_speaker (commit_sameSpeaker server outcome (some peerIp))
  · exact commit_peerSound found (sound peerIp peer found) valid covers served stored

theorem modify_commit_peersSound {change : PeerInfo → PeerInfo} (sound : server.PeersSound)
    (same : ∀ peer, server.peers.lookup peerIp = some peer → peer.SameSession (change peer)) (valid : outcome.1.Valid)
    (covers : LocRib.Covers outcome.2 server.locRib outcome.1)
    (skipped : ∀ peer, server.peers.lookup peerIp = some peer → PeerSound server outcome.1 peerIp peer) :
    ((server.modifyPeer peerIp change).commit outcome (some peerIp)).PeersSound := by
  have speaker := modifyPeer_sameSpeaker server peerIp change
  refine commit_peersSound (modifyPeer_peersSound sound fun peer found => (sound peerIp peer found).of_session (same peer found))
    valid ((modifyPeer_locRib server peerIp change).symm ▸ covers) ?_
  intro other after here stored
  obtain rfl := Option.some.inj here
  rw [lookup_modifyPeer, if_pos rfl] at stored
  obtain ⟨peer, found, rfl⟩ := Option.map_eq_some_iff.mp stored
  exact ((skipped peer found).of_session (same peer found)).of_speaker speaker

end

-- A peer in whose name the Loc-RIB is changed is not served, so nothing it could be sent may
-- hang on the key: it takes every path of the family, or none of those stored.
def spared (ctx : PeerExportContext) (rib : LocRib BitmapPathIdAllocator) (key : RouteKey) : Bool :=
  ctx.sendFormat.addPath.contains key.afiSafi || (rib.getAllPaths key).all fun path => (computeExportPath key path.value ctx).isNone

theorem mem_selection_others {ctx : PeerExportContext} (rib : LocRib BitmapPathIdAllocator) {key : RouteKey}
    (addPath : ctx.sendFormat.addPath.contains key.afiSafi = true) (routePath : RoutePath) :
    routePath ∈ selection ctx rib key ↔
      ∃ path ∈ rib.others ctx.peerAddr key, (computeExportPath key path ctx).map (RoutePath.mk key) = some routePath := by
  rw [mem_selection_addPath ctx rib key addPath]
  constructor
  · rintro ⟨path, stored, exported⟩
    refine ⟨path.value, (LocRib.mem_others rib ctx.peerAddr key path.value).mpr ⟨?_, path, stored, rfl⟩, exported⟩
    by_contra own
    rw [exportRoutePath, computeExportPath_own key (by simpa using own)] at exported
    cases exported
  · rintro ⟨path, member, exported⟩
    obtain ⟨-, stored, storedMember, rfl⟩ := (LocRib.mem_others rib ctx.peerAddr key path).mp member
    exact ⟨stored, storedMember, exported⟩

theorem selection_of_spared {ctx : PeerExportContext} {before after : LocRib BitmapPathIdAllocator} {key : RouteKey}
    (spares : LocRib.SparesOthers ctx.peerAddr before after) (unheard : spared ctx before key = true) (routePath : RoutePath) :
    routePath ∈ selection ctx after key ↔ routePath ∈ selection ctx before key := by
  by_cases addPath : ctx.sendFormat.addPath.contains key.afiSafi = true
  · simp [mem_selection_others _ addPath, (spares key).mem_iff]
  · have silentBefore : ∀ path ∈ before.getAllPaths key, computeExportPath key path.value ctx = none := by
      rw [spared, Bool.or_eq_true, List.all_eq_true] at unheard
      intro path stored
      exact Option.isNone_iff_eq_none.mp (unheard.resolve_left addPath path stored)
    have silentAfter : ∀ path ∈ after.getAllPaths key, computeExportPath key path.value ctx = none := by
      intro path stored
      by_cases own : path.value.isFromPeer ctx.peerAddr = true
      · exact computeExportPath_own key own
      · have member := (LocRib.mem_others after ctx.peerAddr key path.value).mpr ⟨by simpa using own, path, stored, rfl⟩
        obtain ⟨-, old, oldStored, same⟩ := (LocRib.mem_others before ctx.peerAddr key path.value).mp ((spares key).mem_iff.mp member)
        rw [← same]
        exact silentBefore old oldStored
    rw [selection_of_silent ctx before key silentBefore, selection_of_silent ctx after key silentAfter]

theorem PeerSound.skipped {server : BgpServer} {rib next : LocRib BitmapPathIdAllocator} {peerIp : IpAddr}
    {peer : PeerInfo} {delta : RouteDelta} (sound : PeerSound server rib peerIp peer) (spares : LocRib.SparesOthers peerIp rib next)
    (covers : LocRib.Covers delta rib next) (unheard : ∀ ctx, server.exportContextOf peerIp peer = some ctx →
      ∀ key, key ∈ routeKeysFor ctx delta key.afiSafi → spared ctx rib key = true) :
    PeerSound server next peerIp peer := by
  refine sound.of_selection fun ctx context key _ routePath => ?_
  by_cases reported : key ∈ routeKeysFor ctx delta key.afiSafi
  · rw [← exportContextOf_peerAddr context] at spares
    exact selection_of_spared spares (unheard ctx context key reported) routePath
  · rw [selection_of_covers covers reported]

end BgpServer

end Bgpgg.Server
