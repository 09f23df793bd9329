import Bgpgg.Server.Advertising

namespace Bgpgg.Server.BgpServer

open Net Wire Rib Peer

def resentKeys (rib : LocRib BitmapPathIdAllocator) (afiSafi : AfiSafi) : List RouteKey := (rib.getRoutes afiSafi).map Route.key

theorem lsSafi_cases (nlri : LsNlri) : nlri.safi = .linkState ∨ nlri.safi = .linkStateVpn := by
  cases vpn : nlri.isVpn with
  | false => exact .inl (by simp [LsNlri.safi, vpn])
  | true => exact .inr (by simp [LsNlri.safi, vpn])

theorem resendSupported_key (key : RouteKey) : resendSupported key.afiSafi = true := by
  cases key with
  | pfx net => cases net <;> rfl
  | linkState nlri => cases lsSafi_cases nlri with
    | inl plain => simp [RouteKey.afiSafi, resendSupported, plain]
    | inr vpn => simp [RouteKey.afiSafi, resendSupported, vpn]

theorem selection_of_unsent {rib : LocRib BitmapPathIdAllocator} (valid : rib.Valid) (ctx : PeerExportContext)
    {key : RouteKey} (unsent : key ∉ resentKeys rib key.afiSafi) : selection ctx rib key = [] := by
  refine selection_of_silent ctx rib key fun path stored => ?_
  cases found : rib.getRoute key with
  | none => simp [LocRib.getAllPaths, found] at stored
  | some route =>
    have listed := (LocRib.mem_getRoutes rib key.afiSafi route).mpr ⟨key, LocRib.familyHolds_iff.mpr (.inl rfl), found⟩
    exact absurd (List.mem_map.mpr ⟨route, listed, valid.keyed key route found⟩) unsent

structure Filling (ctx : PeerExportContext) (rib : LocRib BitmapPathIdAllocator) (table : AdjRibOut) : Prop where
  keyed : AdjRibOut.Keyed table
  partly : ∀ key, Advertised ctx rib table key ∨ ∀ id, AdjRibOut.pathAt table key id = none

theorem resend_fills {ctx : PeerExportContext} {rib : LocRib BitmapPathIdAllocator} {table : AdjRibOut}
    (valid : rib.Valid) (filling : Filling ctx rib table) (afiSafi : AfiSafi) :
    let next := (propagateRoutesToPeer ctx ⟨resentKeys rib afiSafi, resentKeys rib afiSafi⟩ rib table).1
    Filling ctx rib next ∧ (∀ key, Advertised ctx rib table key → Advertised ctx rib next key) ∧
      ∀ key, key.afiSafi = afiSafi → afiSafi ∈ ctx.afiSafis → Advertised ctx rib next key := by
  intro next
  have effect := propagateRoutesToPeer_propagated ctx ⟨resentKeys rib afiSafi, resentKeys rib afiSafi⟩ rib table
    filling.keyed (Valid.identified valid ctx)
  have kept : ∀ key, Advertised ctx rib next key ∨ ∀ id, AdjRibOut.pathAt next key id = AdjRibOut.pathAt table key id := by
    intro key
    by_cases exported : key.afiSafi ∈ ctx.afiSafis ∧ key ∈ routeKeysFor ctx ⟨resentKeys rib afiSafi, resentKeys rib afiSafi⟩ key.afiSafi
    · exact .inl (effect.advertised key exported)
    · exact .inr (effect.others key exported)
  refine ⟨⟨effect.keyed, fun key => ?_⟩, fun key advertised => ?_, fun key family negotiated => ?_⟩
  · cases kept key with
    | inl advertised => exact .inl advertised
    | inr same => cases filling.partly key with
      | inl advertised => exact .inl (advertised.congr same)
      | inr empty => exact .inr fun id => (same id).trans (empty id)
  · cases kept key with
    | inl now => exact now
    | inr same => exact advertised.congr same
  · subst family
    by_cases sent : key ∈ resentKeys rib key.afiSafi
    · refine effect.advertised key ⟨negotiated, ?_⟩
      rw [routeKeysFor, ite_self]
      exact sent
    · cases kept key with
      | inl advertised => exact advertised
      | inr same => cases filling.partly key with
        | inl advertised => exact advertised.congr same
        | inr empty =>
          intro id path
          rw [same id, empty id, selection_of_unsent valid ctx sent]
          simp

section

variable {server : BgpServer} {peerIp : IpAddr} {peer : PeerInfo} {ctx : PeerExportContext}

variable (families : List AfiSafi)

def resent (ctx : PeerExportContext) (rib : LocRib BitmapPathIdAllocator) (afiSafi : AfiSafi) (peer : PeerInfo) : PeerInfo :=
  { peer with adjRibOut := (propagateRoutesToPeer ctx ⟨resentKeys rib afiSafi, resentKeys rib afiSafi⟩ rib peer.adjRibOut).1 }

theorem resendRoutesToPeer_of_context (found : server.peers.lookup peerIp = some peer)
    (context : server.exportContextOf peerIp peer = some ctx) (known : peer.conn.asn.isSome = true) (afiSafi : AfiSafi)
    (supported : resendSupported afiSafi = true) :
    server.resendRoutesToPeer peerIp afiSafi = server.setPeer peerIp (resent ctx server.locRib afiSafi peer) := by
  obtain ⟨peerAsn, asn⟩ := Option.isSome_iff_exists.mp known
  have opened : peer.establishedConn = some peer.conn := by
    simp [PeerInfo.establishedConn, exportContextOf_established context]
  rw [exportContextOf, opened, peerCfgByIp, findPeer_eq_getLast] at context
  split at context
  · rename_i peerCfg conn configured same
    obtain rfl := Option.some.inj same
    obtain ⟨capabilities, present, rfl⟩ := Option.map_eq_some_iff.mp context
    simp only [resendRoutesToPeer, found, supported, opened,
      Option.bind_some, asn, present, configured]
    rfl
  · cases context

theorem resendRoutesToPeer_cases (server : BgpServer) (peerIp : IpAddr) (afiSafi : AfiSafi) :
    server.resendRoutesToPeer peerIp afiSafi = server ∨
      ∃ peer ctx, server.peers.lookup peerIp = some peer ∧ server.exportContextOf peerIp peer = some ctx ∧
        server.resendRoutesToPeer peerIp afiSafi = server.setPeer peerIp (resent ctx server.locRib afiSafi peer) := by
  cases found : server.peers.lookup peerIp with
  | none => exact .inl (by simp [resendRoutesToPeer, found])
  | some peer =>
    by_cases supported : resendSupported afiSafi = true
    · by_cases known : peer.conn.asn.isSome = true
      · cases context : server.exportContextOf peerIp peer with
        | some ctx =>
          exact .inr ⟨peer, ctx, rfl, context, resendRoutesToPeer_of_context found context known afiSafi supported⟩
        | none =>
          rw [exportContextOf, peerCfgByIp, findPeer_eq_getLast] at context
          cases configured : server.config.findPeer peerIp with
          | none => simp [resendRoutesToPeer, found, configured]
          | some peerCfg => cases opened : peer.establishedConn with
            | none => simp [resendRoutesToPeer, found, opened]
            | some conn =>
              rw [configured, opened] at context
              simp [resendRoutesToPeer, found, opened, Option.map_eq_none_iff.mp context]
      · have unknown : peer.establishedConn.bind ConnectionState.asn = none := by
          rw [PeerInfo.establishedConn]
          split
          · simpa using known
          · rfl
        cases opened : peer.establishedConn with
        | none => simp [resendRoutesToPeer, found, opened]
        | some conn =>
          rw [opened, Option.bind_some] at unknown
          simp [resendRoutesToPeer, found, opened, unknown]
    · exact .inl (by simp [resendRoutesToPeer, found, supported])

theorem resendRoutesToPeer_sameSpeaker (server : BgpServer) (peerIp : IpAddr) (afiSafi : AfiSafi) :
    SameSpeaker server (server.resendRoutesToPeer peerIp afiSafi) := by
  cases resendRoutesToPeer_cases server peerIp afiSafi with
  | inl same => rw [same]; exact ⟨rfl, rfl⟩
  | inr sent =>
    obtain ⟨peer, ctx, -, -, result⟩ := sent
    rw [result]
    exact setPeer_sameSpeaker server peerIp _

theorem resendRoutesToPeer_lookup_other (server : BgpServer) {peerIp other : IpAddr} (afiSafi : AfiSafi) (different : other ≠ peerIp) :
    (server.resendRoutesToPeer peerIp afiSafi).peers.lookup other = server.peers.lookup other := by
  cases resendRoutesToPeer_cases server peerIp afiSafi with
  | inl same => rw [same]
  | inr sent =>
    obtain ⟨peer, ctx, -, -, result⟩ := sent
    rw [result, lookup_setPeer, if_neg different]

theorem resendRoutesToPeer_peersSound (sound : server.PeersSound) (valid : server.locRib.Valid) (peerIp : IpAddr)
    (afiSafi : AfiSafi) : (server.resendRoutesToPeer peerIp afiSafi).PeersSound := by
  cases resendRoutesToPeer_cases server peerIp afiSafi with
  | inl same => rw [same]; exact sound
  | inr sent =>
    obtain ⟨peer, ctx, found, context, result⟩ := sent
    rw [result]
    exact setPeer_peersSound sound ((sound peerIp peer found).propagated context valid (.refl _ server.locRib))

theorem resendAll_fills (server : BgpServer) (peer : PeerInfo)
    (found : server.peers.lookup peerIp = some peer) (context : server.exportContextOf peerIp peer = some ctx)
    (known : peer.conn.asn.isSome = true) (valid : server.locRib.Valid) (filling : Filling ctx server.locRib peer.adjRibOut) :
    ∃ table, (server.resendAll peerIp families).peers.lookup peerIp = some { peer with adjRibOut := table } ∧
      Filling ctx server.locRib table ∧
      (∀ key, Advertised ctx server.locRib peer.adjRibOut key → Advertised ctx server.locRib table key) ∧
      ∀ key, key.afiSafi ∈ families → key.afiSafi ∈ ctx.afiSafis → Advertised ctx server.locRib table key := by
  induction families generalizing server peer with
  | nil => exact ⟨peer.adjRibOut, found, filling, fun _ advertised => advertised, fun key member => absurd member List.not_mem_nil⟩
  | cons family rest ih =>
    by_cases supported : resendSupported family = true
    · obtain ⟨fills, kept, filled⟩ := resend_fills valid filling family
      have step := resendRoutesToPeer_of_context found context known family supported
      have stored : (server.resendRoutesToPeer peerIp family).peers.lookup peerIp =
          some (resent ctx server.locRib family peer) := by rw [step, lookup_setPeer, if_pos rfl]
      have sameRib : (server.resendRoutesToPeer peerIp family).locRib = server.locRib := by rw [step]; rfl
      have sameContext : (server.resendRoutesToPeer peerIp family).exportContextOf peerIp
          (resent ctx server.locRib family peer) = some ctx := by
        rw [(resendRoutesToPeer_sameSpeaker server peerIp family).exportContextOf]
        exact context
      obtain ⟨table, last, tableFills, keptLater, filledLater⟩ := ih _ _ stored sameContext known (sameRib ▸ valid) (sameRib ▸ fills)
      rw [sameRib] at tableFills keptLater filledLater
      refine ⟨table, last, tableFills, fun key advertised => keptLater key (kept key advertised), ?_⟩
      intro key member negotiated
      cases List.mem_cons.mp member with
      | inl here => exact keptLater key (filled key here (here ▸ negotiated))
      | inr later => exact filledLater key later negotiated
    · have idle : server.resendRoutesToPeer peerIp family = server := by simp [resendRoutesToPeer, found, supported]
      obtain ⟨table, last, tableFills, keptLater, filledLater⟩ := ih server peer found context known valid filling
      refine ⟨table, ?_, tableFills, keptLater, ?_⟩
      · rw [resendAll, List.foldl_cons, idle]
        exact last
      · intro key member negotiated
        cases List.mem_cons.mp member with
        | inl here => exact absurd (here ▸ resendSupported_key key) supported
        | inr later => exact filledLater key later negotiated

theorem resendAll_sameSpeaker (server : BgpServer) (peerIp : IpAddr) : SameSpeaker server (server.resendAll peerIp families) := by
  induction families generalizing server with
  | nil => exact ⟨rfl, rfl⟩
  | cons family rest ih => exact (resendRoutesToPeer_sameSpeaker server peerIp family).trans (ih _)

theorem resendAll_lookup_other (server : BgpServer) (peerIp other : IpAddr) (different : other ≠ peerIp) :
    (server.resendAll peerIp families).peers.lookup other = server.peers.lookup other := by
  induction families generalizing server with
  | nil => rfl
  | cons family rest ih =>
    exact (ih _).trans (resendRoutesToPeer_lookup_other server family different)

theorem resendAll_idle (server : BgpServer) (peerIp : IpAddr)
    (silent : ∀ peer, server.peers.lookup peerIp = some peer → server.exportContextOf peerIp peer = none) :
    server.resendAll peerIp families = server := by
  induction families with
  | nil => rfl
  | cons family rest ih =>
    have idle : server.resendRoutesToPeer peerIp family = server := by
      refine (resendRoutesToPeer_cases server peerIp family).resolve_right fun sent => ?_
      obtain ⟨peer, ctx, found, context, -⟩ := sent
      rw [silent peer found] at context
      cases context
    rw [resendAll, List.foldl_cons, idle]
    exact ih

theorem resendAll_peersSound {capabilities : PeerCapabilities} (found : server.peers.lookup peerIp = some peer)
    (valid : server.locRib.Valid) (present : peer.conn.capabilities = some capabilities)
    (known : peer.conn.asn.isSome = true) (empty : ∀ key id, AdjRibOut.pathAt peer.adjRibOut key id = none)
    (others : ∀ other after, other ≠ peerIp → server.peers.lookup other = some after → PeerSound server server.locRib other after) :
    (server.resendAll peerIp (familiesOf capabilities.multiprotocol)).PeersSound := by
  have speaker := resendAll_sameSpeaker (familiesOf capabilities.multiprotocol) server peerIp
  intro other after stored
  rw [(resendAll_frame server peerIp _).1]
  refine PeerSound.of_speaker ?_ speaker
  by_cases here : other = peerIp
  · subst here
    have unkeyed : AdjRibOut.Keyed peer.adjRibOut := by
      intro key id path recorded
      rw [empty key id] at recorded
      cases recorded
    cases context : server.exportContextOf other peer with
    | none =>
      have idle : ∀ current, server.peers.lookup other = some current → server.exportContextOf other current = none := by
        intro current same
        rw [found, Option.some.injEq] at same
        exact same ▸ context
      rw [resendAll_idle _ server other idle, found, Option.some.injEq] at stored
      subst stored
      exact ⟨unkeyed, fun _ => empty, fun ctx present => by cases context.symm.trans present⟩
    | some ctx =>
      obtain ⟨table, last, fills, -, filled⟩ := resendAll_fills (familiesOf capabilities.multiprotocol) server peer found
        context known valid ⟨unkeyed, fun key => .inr (empty key)⟩
      rw [last, Option.some.injEq] at stored
      subst stored
      refine ⟨fills.keyed, fun closed => absurd (exportContextOf_established context) closed, ?_⟩
      intro current same key negotiated
      rw [exportContextOf_adjRibOut, context, Option.some.injEq] at same
      subst same
      obtain ⟨negotiatedBy, sameCapabilities, families⟩ := exportContextOf_afiSafis context
      obtain rfl := Option.some.inj (present.symm.trans sameCapabilities)
      exact filled key (families ▸ negotiated) negotiated
  · rw [resendAll_lookup_other _ server peerIp other here] at stored
    exact others other after here stored

end

end Bgpgg.Server.BgpServer
