import Bgpgg.Server.Session

namespace Bgpgg.Server.BgpServer

open Net Rib Peer Rpki LocRib

-- The operations that a handler asks of the Loc-RIB, in order.

section

variable (server : BgpServer) (peerIp : IpAddr) (added removed : List Vrp)

def establishOps : List LocRib.Op := match (server.peers.lookup peerIp).bind fun peer => peer.conn.capabilities.map (Prod.mk peer) with
  | none => []
  | some (peer, capabilities) =>
    [.removePeerRoutesStale peerIp (server.grToClear peerIp capabilities), .removePeerRoutesStale peerIp (llgrToClear peer capabilities)]

def disconnectOps (grAfiSafis : List AfiSafi) : List LocRib.Op := match server.peers.lookup peerIp with
  | none => []
  | some peer =>
    if grAfiSafis.isEmpty then
      if peer.conn.state = .established then [.removeRoutesFromPeer peerIp] else []
    else grAfiSafis.map (.markPeerRoutesStale peerIp)

def withVrps : BgpServer := { server with vrpTable := (server.vrpTable.add added).remove removed }

def reevaluateOps (routes : List (IpAddr × List PendingRoute)) : List LocRib.Op :=
  routes.filterMap fun affected => (server.peers.lookup affected.1).map fun peer =>
    .applyPeerUpdate affected.1 affected.2 (server.sessionImport peer)

def vrpOps : List LocRib.Op := let affected := server.locRib.affectedPrefixes added removed
  if affected.isEmpty then []
  else (server.withVrps added removed).reevaluateOps (server.affectedRoutes affected)

def grExpiredOps (llgrAfiSafis : List (AfiSafi × UInt32)) : List LocRib.Op := let llgrMap := llgrFamilies llgrAfiSafis
  let stale := server.locRib.staleAfiSafis peerIp
  [.removePeerRoutesStale peerIp (stale.filter fun afiSafi => !llgrMap.contains afiSafi),
    .applyLlgr peerIp (stale.filter fun afiSafi => llgrMap.contains afiSafi)]

def ribOps (server : BgpServer) : ServerOp → List LocRib.Op
  | .peerStateChanged peerIp state => if state = .established then server.establishOps peerIp else []
  | .peerHandshakeComplete _ _ => []
  | .peerConnectionInfo _ _ _ _ => []
  | .peerUpdate peerIp routes => server.updateOps peerIp routes
  | .peerDisconnected peerIp grAfiSafis => server.disconnectOps peerIp grAfiSafis
  | .routeRefresh _ _ => []
  | .routeRefreshBoRR peerIp afiSafi => [.markPeerRoutesStale peerIp afiSafi]
  | .routeRefreshEoRR peerIp afiSafi => [.removePeerRoutesStale peerIp [afiSafi]]
  | .gracefulRestartTimerExpired peerIp llgrAfiSafis => server.grExpiredOps peerIp llgrAfiSafis
  | .gracefulRestartComplete peerIp afiSafi => [.removePeerRoutesStale peerIp [afiSafi]]
  | .llgrTimerExpired peerIp afiSafi => [.removePeerRoutesStale peerIp [afiSafi]]
  | .enhancedRrStaleTimerExpired peerIp afiSafi => [.removePeerRoutesStale peerIp [afiSafi]]
  | .vrpUpdate added removed => server.vrpOps added removed
  | .addRoute key attrs => [.addLocalRoute key attrs]
  | .removeRoute key => [.removeLocalRoute key]
  | .addPeer _ => []
  | .removePeer peerIp => if (server.peers.lookup peerIp).isSome then [.removeRoutesFromPeer peerIp] else []

theorem mem_affectedPaths (prefixes : List IpNetwork) (peer : PeerInfo) (key : RouteKey) (path : Path) :
    .announce key path ∈ affectedPaths prefixes peer ↔ ∃ net ∈ prefixes, key = .pfx net ∧ path ∈ AdjRibIn.paths peer.adjRibIn key := by
  rw [affectedPaths, List.mem_flatMap]
  refine exists_congr fun net => and_congr_right fun _ => ?_
  rw [List.mem_map]
  constructor
  · rintro ⟨stored, member, same⟩
    cases same
    exact ⟨rfl, member⟩
  · rintro ⟨rfl, member⟩
    exact ⟨path, member, rfl⟩

theorem mem_vrpOps (op : LocRib.Op) (member : op ∈ server.vrpOps added removed) : ∃ peerIp peer, server.peers.lookup peerIp = some peer ∧
      op = .applyPeerUpdate peerIp (affectedPaths (server.locRib.affectedPrefixes added removed) peer)
        ((server.withVrps added removed).sessionImport peer) := by
  rw [vrpOps] at member
  by_cases unaffected : (server.locRib.affectedPrefixes added removed).isEmpty = true
  · simp [unaffected] at member
  · rw [if_neg unaffected, reevaluateOps, List.mem_filterMap] at member
    obtain ⟨⟨peerIp, routes⟩, affected, mapped⟩ := member
    obtain ⟨peer, found, rfl⟩ := Option.map_eq_some_iff.mp mapped
    rw [affectedRoutes, List.mem_filterMap] at affected
    obtain ⟨entry, listed, collected⟩ := affected
    by_cases nothing : (affectedPaths (server.locRib.affectedPrefixes added removed) entry.2).isEmpty = true
    · simp [nothing] at collected
    · rw [if_neg nothing, Option.some.injEq] at collected
      obtain ⟨rfl, rfl⟩ := collected
      have stored : server.peers.lookup entry.1 = some entry.2 := AList.mem_lookup_iff.mpr listed
      obtain rfl := Option.some.inj (stored.symm.trans found)
      exact ⟨entry.1, entry.2, stored, rfl⟩

end

section

variable (server : BgpServer)

variable (peerIp : IpAddr) (state : BgpState) (peer : PeerInfo)

theorem resendRoutesToPeer_frame (afiSafi : AfiSafi) : (server.resendRoutesToPeer peerIp afiSafi).locRib = server.locRib ∧
      (server.resendRoutesToPeer peerIp afiSafi).config = server.config := by
  unfold resendRoutesToPeer
  split
  · exact ⟨rfl, rfl⟩
  · split
    · exact ⟨rfl, rfl⟩
    · split <;> exact ⟨rfl, rfl⟩

theorem resendAll_frame (families : List AfiSafi) : (server.resendAll peerIp families).locRib = server.locRib ∧
      (server.resendAll peerIp families).config = server.config := by
  induction families generalizing server with
  | nil => exact ⟨rfl, rfl⟩
  | cons family rest ih =>
    have first := server.resendRoutesToPeer_frame peerIp family
    have later := ih (server.resendRoutesToPeer peerIp family)
    exact ⟨later.1.trans first.1, later.2.trans first.2⟩

theorem handlePeerStateChanged_established (capabilities : PeerCapabilities)
    (found : server.peers.lookup peerIp = some peer) (known : peer.conn.capabilities = some capabilities) :
    server.handlePeerStateChanged peerIp .established =
      ((server.setPeer peerIp (peer.enter .established)).sweepStale peerIp (peer.enter .established) capabilities).resendAll
        peerIp (familiesOf capabilities.multiprotocol) := by
  simp only [handlePeerStateChanged, found]
  have entered : (peer.enter .established).conn.capabilities = some capabilities := known
  rw [entered]

theorem handlePeerStateChanged_quiet (found : server.peers.lookup peerIp = some peer)
    (quiet : state ≠ .established ∨ peer.conn.capabilities = none) :
    server.handlePeerStateChanged peerIp state = server.setPeer peerIp (peer.enter state) := by
  simp only [handlePeerStateChanged, found]
  cases quiet with
  | inl other =>
    cases state with
    | established => exact absurd rfl other
    | _ => rfl
  | inr unknown =>
    have entered : (peer.enter state).conn.capabilities = none := unknown
    rw [entered]
    cases state <;> rfl

theorem updateOps_locRib (routes : List PendingRoute) :
    (server.handlePeerUpdate peerIp routes).locRib = (server.updateOps peerIp routes).foldl step server.locRib ∧
      (server.handlePeerUpdate peerIp routes).config = server.config := by
  have step := server.handlePeerUpdate_step peerIp routes
  generalize server.handlePeerUpdate peerIp routes = next at step ⊢
  generalize server.updateOps peerIp routes = ops at step ⊢
  cases step with
  | unknown noSession | ignored peer after peerAsn session continues refused => exact ⟨rfl, rfl⟩
  | stopped peer after peerAsn session continues accepted exceeded =>
    split
    · simp [handleMaxPrefixTerminate, step]
    · exact ⟨rfl, rfl⟩
  | imported peer after peerAsn session continues accepted kept checked => simp [step]

theorem disconnectOps_locRib (grAfiSafis : List AfiSafi) : (server.handlePeerDisconnected peerIp grAfiSafis).locRib =
        (server.disconnectOps peerIp grAfiSafis).foldl step server.locRib ∧
      (server.handlePeerDisconnected peerIp grAfiSafis).config = server.config := by
  cases found : server.peers.lookup peerIp with
  | none => simp [handlePeerDisconnected, disconnectOps, found]
  | some peer =>
    simp only [handlePeerDisconnected, disconnectOps, found]
    by_cases hard : grAfiSafis.isEmpty = true
    · rw [if_pos hard, if_pos hard]
      by_cases established : peer.conn.state = .established
      · rw [if_pos established, if_pos established]
        simp [step]
      · rw [if_neg established, if_neg established]
        exact ⟨rfl, rfl⟩
    · rw [if_neg hard, if_neg hard, List.foldl_map]
      exact ⟨rfl, rfl⟩

theorem establishOps_locRib : (server.handlePeerStateChanged peerIp state).locRib =
        (if state = .established then server.establishOps peerIp else []).foldl step server.locRib ∧
      (server.handlePeerStateChanged peerIp state).config = server.config := by
  cases found : server.peers.lookup peerIp with
  | none =>
    simp only [handlePeerStateChanged, establishOps, found, and_true]
    split <;> rfl
  | some peer =>
    by_cases quiet : state ≠ .established ∨ peer.conn.capabilities = none
    · rw [server.handlePeerStateChanged_quiet peerIp state peer found quiet]
      refine ⟨?_, rfl⟩
      cases quiet with
      | inl other => rw [if_neg other, setPeer_locRib, List.foldl_nil]
      | inr unknown => simp [establishOps, found, unknown]
    · simp only [not_or, not_not] at quiet
      obtain ⟨rfl, known⟩ := quiet
      obtain ⟨capabilities, present⟩ := Option.ne_none_iff_exists'.mp known
      rw [server.handlePeerStateChanged_established peerIp peer capabilities found present]
      obtain ⟨sameRib, sameConfig⟩ := resendAll_frame ((server.setPeer peerIp
        (peer.enter .established)).sweepStale peerIp (peer.enter .established) capabilities) peerIp
        (familiesOf capabilities.multiprotocol)
      rw [sameRib, sameConfig]
      simp only [sweepStale, commit_locRib, commit_config, setPeer_config, and_true, establishOps, found,
        Option.bind_some, present, Option.map_some]
      rfl

theorem reevaluateOps_locRib (routes : List (IpAddr × List PendingRoute)) (state : LocRib BitmapPathIdAllocator × RouteDelta) :
    (routes.foldl server.reevaluatePeer state).1 = (server.reevaluateOps routes).foldl step state.1 := by
  induction routes generalizing state with
  | nil => rfl
  | cons affected rest ih =>
    rw [List.foldl_cons, ih]
    cases found : server.peers.lookup affected.1 with
    | none => simp [reevaluatePeer, reevaluateOps, found]
    | some peer => simp [reevaluatePeer, reevaluateOps, found, step, importRoutes, sessionImport]

theorem handleVrpUpdate_eq (added removed : List Vrp) : server.handleVrpUpdate added removed =
    if (server.locRib.affectedPrefixes added removed).isEmpty then server.withVrps added removed
    else (server.withVrps added removed).commit ((server.withVrps added removed).reevaluateRoutes
      (server.affectedRoutes (server.locRib.affectedPrefixes added removed))) none := rfl

theorem vrpOps_locRib (added removed : List Vrp) :
    (server.handleVrpUpdate added removed).locRib = (server.vrpOps added removed).foldl step server.locRib ∧
      (server.handleVrpUpdate added removed).config = server.config := by
  rw [handleVrpUpdate_eq, vrpOps]
  by_cases unaffected : (server.locRib.affectedPrefixes added removed).isEmpty = true
  · rw [if_pos unaffected, if_pos unaffected]
    exact ⟨rfl, rfl⟩
  · rw [if_neg unaffected, if_neg unaffected, commit_locRib, commit_config]
    exact ⟨reevaluateOps_locRib _ _ _, rfl⟩

theorem handleServerOp_ribOps (op : ServerOp) : (server.handleServerOp op).locRib = (server.ribOps op).foldl step server.locRib ∧
      (server.handleServerOp op).config = server.config := by
  cases op with
  | peerStateChanged peerIp state => exact server.establishOps_locRib peerIp state
  | peerHandshakeComplete peerIp asn =>
    simp only [handleServerOp, handlePeerHandshakeComplete]
    split
    · exact ⟨rfl, rfl⟩
    · exact ⟨modifyPeer_locRib _ _ _, modifyPeer_config _ _ _⟩
  | peerConnectionInfo peerIp bgpId connInfo capabilities => exact ⟨modifyPeer_locRib _ _ _, modifyPeer_config _ _ _⟩
  | peerUpdate peerIp routes => exact server.updateOps_locRib peerIp routes
  | peerDisconnected peerIp grAfiSafis => exact server.disconnectOps_locRib peerIp grAfiSafis
  | routeRefresh peerIp afiSafi => exact server.resendRoutesToPeer_frame peerIp afiSafi
  | routeRefreshBoRR peerIp afiSafi => exact ⟨rfl, rfl⟩
  | routeRefreshEoRR peerIp afiSafi => exact ⟨commit_locRib _ _ _, commit_config _ _ _⟩
  | gracefulRestartTimerExpired peerIp llgrAfiSafis =>
    simp only [handleServerOp, handleGrTimerExpired, commit_locRib, commit_config, modifyPeer_config, and_true]
    rfl
  | gracefulRestartComplete peerIp afiSafi | llgrTimerExpired peerIp afiSafi =>
    simp [handleServerOp, clearStaleAfiSafi, sweepAfiSafi, ribOps, step]
  | enhancedRrStaleTimerExpired peerIp afiSafi => exact ⟨commit_locRib _ _ _, commit_config _ _ _⟩
  | vrpUpdate added removed => exact server.vrpOps_locRib added removed
  | addRoute key attrs =>
    simp only [handleServerOp, handleAddRoute, ribOps, List.foldl_cons, step]
    split
    · rename_i rib delta added
      rw [commit_locRib, commit_config, added]
      exact ⟨rfl, rfl⟩
    · rename_i rib error refused
      rw [refused]
      exact ⟨rfl, rfl⟩
  | removeRoute key => exact ⟨commit_locRib _ _ _, commit_config _ _ _⟩
  | addPeer peerIp =>
    simp only [handleServerOp, addPeer]
    split <;> exact ⟨rfl, rfl⟩
  | removePeer peerIp =>
    rw [handleServerOp, removePeer, ribOps]
    cases server.peers.lookup peerIp with
    | none => exact ⟨rfl, rfl⟩
    | some peer => exact ⟨commit_locRib _ _ _, commit_config _ _ _⟩

end

end Bgpgg.Server.BgpServer
