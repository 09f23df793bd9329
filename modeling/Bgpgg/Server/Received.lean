import Bgpgg.Rib.LivePaths
import Bgpgg.Server.LoopFree

namespace Bgpgg.Server

open Net Rib AdjRibIn

section

variable (table : AdjRibIn) (announced : List RoutePath) (routes : List PendingRoute) (key : RouteKey)
  (remotePathId : Option UInt32)

theorem mem_withdrawnOf : (key, remotePathId) ∈ withdrawnOf routes ↔ .withdraw key remotePathId ∈ routes := by
  rw [withdrawnOf, List.mem_filterMap]
  refine ⟨fun ⟨route, member, withdrawn⟩ => ?_, fun member => ⟨_, member, rfl⟩⟩
  cases route with
  | announce other path => cases withdrawn
  | withdraw other named =>
    cases withdrawn
    exact member

theorem holds_removeAll (withdrawn : List Withdrawal) (key : RouteKey) (remotePathId : Option UInt32) :
    AdjRibIn.Holds (withdrawn.foldl (fun table withdrawal => removeRoute table withdrawal.1 withdrawal.2) table)
        key remotePathId ↔ AdjRibIn.Holds table key remotePathId ∧ (key, remotePathId) ∉ withdrawn := by
  induction withdrawn generalizing table with
  | nil => simp
  | cons first rest ih =>
    rw [List.foldl_cons, ih, holds_removeRoute, List.mem_cons, not_or, and_assoc, Prod.ext_iff]

theorem holds_addAll : AdjRibIn.Holds (announced.foldl (fun table routePath => addRoute table routePath.key routePath.path) table)
        key remotePathId ↔
      (∃ path, ⟨key, path⟩ ∈ announced ∧ path.remotePathId = remotePathId) ∨ AdjRibIn.Holds table key remotePathId := by
  induction announced generalizing table with
  | nil => simp
  | cons first rest ih =>
    rw [List.foldl_cons, ih, holds_addRoute, ← or_assoc]
    refine or_congr_left ⟨fun stored => ?_, fun stored => ?_⟩
    · cases stored with
      | inl later =>
        obtain ⟨path, member, same⟩ := later
        exact ⟨path, List.mem_cons_of_mem _ member, same⟩
      | inr here =>
        obtain ⟨rfl, rfl⟩ := here
        exact ⟨first.path, List.mem_cons_self, rfl⟩
    · obtain ⟨path, member, rfl⟩ := stored
      cases List.mem_cons.mp member with
      | inl here => exact .inr ⟨congrArg RoutePath.key here, congrArg (fun routePath => routePath.path.remotePathId) here⟩
      | inr later => exact .inl ⟨path, later, rfl⟩

theorem holds_storeUnprocessed : AdjRibIn.Holds (storeUnprocessed table routes) key remotePathId ↔
      (∃ path, .announce key path ∈ routes ∧ path.remotePathId = remotePathId) ∨
        AdjRibIn.Holds table key remotePathId ∧ .withdraw key remotePathId ∉ routes := by
  rw [storeUnprocessed, holds_addAll, holds_removeAll, mem_withdrawnOf]
  simp [mem_announcedOf]

theorem mem_paths_storeUnprocessed (path : Path) (member : path ∈ paths (storeUnprocessed table routes) key) :
    .announce key path ∈ routes ∨ path ∈ paths table key := by
  have removed : ∀ withdrawn : List Withdrawal, path ∈ paths (withdrawn.foldl (fun table withdrawal =>
        removeRoute table withdrawal.1 withdrawal.2) table) key → path ∈ paths table key := by
    intro withdrawn
    refine List.foldlRecOn (motive := fun next => path ∈ paths next key → path ∈ paths table key) _ _ id
      fun next before first _ kept => before ?_
    rw [paths_removeRoute] at kept
    split at kept
    · rename_i here
      exact here ▸ List.mem_of_mem_filter kept
    · exact kept
  have added : ∀ (announced : List RoutePath) (table : AdjRibIn), path ∈ paths (announced.foldl (fun table routePath =>
        addRoute table routePath.key routePath.path) table) key →
      ⟨key, path⟩ ∈ announced ∨ path ∈ paths table key := by
    intro announced table
    refine List.foldlRecOn (motive := fun next => path ∈ paths next key → ⟨key, path⟩ ∈ announced ∨ path ∈ paths table key) _ _ .inr
      fun next before first listed kept => ?_
    rw [paths_addRoute] at kept
    split at kept
    · rename_i here
      rcases mem_replacePath kept with new | old
      · rw [here, new]
        exact .inl listed
      · exact before (here ▸ old)
    · exact before kept
  refine (added _ _ member).imp (fun announced => ?_) (removed _)
  exact (mem_announcedOf routes ⟨key, path⟩).mp announced

end

section

variable (peer : PeerInfo) (announced : List RoutePath) (routes : List PendingRoute)

-- The family whose table a refused batch empties: the first one announced that the session
-- does not accept, unless it is disabled already.
def drainedFamily : Option AfiSafi :=
  ((announced.map fun routePath => routePath.key.afiSafi).find? fun family => !decide (peer.AcceptsFamily family)).filter
    fun family => !peer.disabledAfiSafi.contains family

theorem drainedFamily_accepted {peer : PeerInfo} {routes : List PendingRoute} (accepted : peer.Accepts routes) :
    drainedFamily peer (announcedOf routes) = none := by
  have missing : ((announcedOf routes).map fun routePath => routePath.key.afiSafi).find?
      (fun family => !decide (peer.AcceptsFamily family)) = none := by
    rw [List.find?_eq_none, List.forall_mem_map]
    intro routePath member
    simp [accepted routePath member]
  rw [drainedFamily, missing]
  rfl

def drained (table : AdjRibIn) : Option AfiSafi → AdjRibIn
  | none => table
  | some family => AdjRibIn.drainAfiSafi table family

theorem validateAfiSafi_adjRibIn : (validateAfiSafi peer peer.conn.negotiatedAfiSafis announced).1.adjRibIn =
      drained peer.adjRibIn (drainedFamily peer announced) := by
  induction announced with
  | nil => rfl
  | cons routePath rest ih =>
    by_cases accepted : peer.AcceptsFamily routePath.key.afiSafi
    · rw [validateAfiSafi_accepted rest accepted, ih]
      simp [drainedFamily, accepted]
    · rw [validateAfiSafi_refused rest accepted]
      by_cases disabled : routePath.key.afiSafi ∈ peer.disabledAfiSafi <;>
        simp [drainedFamily, drained, accepted, disabled, Option.filter_some]

def PeerInfo.received : AdjRibIn := drained (storeUnprocessed peer.adjRibIn routes) (drainedFamily peer (announcedOf routes))

theorem received_accepted {peer : PeerInfo} {routes : List PendingRoute} (accepted : peer.Accepts routes) :
    peer.received routes = storeUnprocessed peer.adjRibIn routes := by
  rw [PeerInfo.received, drainedFamily_accepted accepted]
  rfl

theorem holds_received (key : RouteKey) (remotePathId : Option UInt32) : AdjRibIn.Holds (peer.received routes) key remotePathId ↔
      AdjRibIn.Holds (storeUnprocessed peer.adjRibIn routes) key remotePathId ∧
      ∀ family, drainedFamily peer (announcedOf routes) = some family → drains family key = false := by
  rw [PeerInfo.received]
  cases drainedFamily peer (announcedOf routes) with
  | none => simp [drained]
  | some family =>
    rw [drained, holds_drainAfiSafi, and_comm]
    simp

end

theorem mem_paths_received {peer : PeerInfo} {routes : List PendingRoute} {key : RouteKey} {path : Path}
    (member : path ∈ paths (peer.received routes) key) :
    .announce key path ∈ routes ∨ path ∈ paths peer.adjRibIn key := by
  refine mem_paths_storeUnprocessed peer.adjRibIn routes key path ?_
  rw [PeerInfo.received] at member
  cases family : drainedFamily peer (announcedOf routes) with
  | none => rwa [family] at member
  | some family' =>
    rw [family, drained, paths_drainAfiSafi] at member
    split at member
    · cases member
    · exact member

namespace BgpServer

def adjRibInOf (server : BgpServer) (peerIp : IpAddr) : AdjRibIn := ((server.peers.lookup peerIp).map PeerInfo.adjRibIn).getD .new

section

variable (server : BgpServer)

section

variable (peerIp : IpAddr)

theorem adjRibInOf_found (peer : PeerInfo) (found : server.peers.lookup peerIp = some peer) :
    server.adjRibInOf peerIp = peer.adjRibIn := by
  simp [adjRibInOf, found]

theorem adjRibInOf_missing (missing : server.peers.lookup peerIp = none) : server.adjRibInOf peerIp = .new := by
  simp [adjRibInOf, missing]

theorem adjRibInOf_setPeer (peerIp other : IpAddr) (peer : PeerInfo) :
    (server.setPeer peerIp peer).adjRibInOf other = if other = peerIp then peer.adjRibIn else server.adjRibInOf other := by
  rw [adjRibInOf, lookup_setPeer]
  split <;> rfl

theorem adjRibInOf_setPeer_kept (peer after : PeerInfo)
    (found : server.peers.lookup peerIp = some peer) (kept : after.adjRibIn = peer.adjRibIn) :
    (server.setPeer peerIp after).adjRibInOf = server.adjRibInOf := by
  funext other
  rw [adjRibInOf_setPeer]
  split
  · rename_i here
    rw [here, kept, server.adjRibInOf_found peerIp peer found]
  · rfl

theorem adjRibInOf_modifyPeer (change : PeerInfo → PeerInfo) (kept : ∀ peer, (change peer).adjRibIn = peer.adjRibIn) :
    (server.modifyPeer peerIp change).adjRibInOf = server.adjRibInOf := by
  unfold modifyPeer
  split
  · rfl
  · rename_i peer found
    exact server.adjRibInOf_setPeer_kept peerIp peer _ found (kept peer)

@[simp] theorem adjRibInOf_commit (outcome : LocRib BitmapPathIdAllocator × RouteDelta) (originatingPeer : Option IpAddr) :
    (server.commit outcome originatingPeer).adjRibInOf = server.adjRibInOf := by
  funext peerIp
  rw [adjRibInOf, adjRibInOf, commit, lookup_propagateRoutes]
  cases found : server.peers.lookup peerIp with
  | none => rfl
  | some peer =>
    simp only [Option.map_some]
    split
    · obtain ⟨adjRibOut, same⟩ := propagateToPeer_eq { server with locRib := outcome.1 } outcome.2 originatingPeer peerIp peer
      rw [same]
    · rfl

theorem adjRibInOf_resendRoutesToPeer (afiSafi : AfiSafi) :
    (server.resendRoutesToPeer peerIp afiSafi).adjRibInOf = server.adjRibInOf := by
  unfold resendRoutesToPeer
  split
  · rfl
  · rename_i peer found
    split
    · rfl
    · split
      · exact server.adjRibInOf_setPeer_kept peerIp peer _ found rfl
      · rfl

theorem adjRibInOf_resendAll (families : List AfiSafi) : (server.resendAll peerIp families).adjRibInOf = server.adjRibInOf := by
  induction families generalizing server with
  | nil => rfl
  | cons family rest ih => exact (ih _).trans (server.adjRibInOf_resendRoutesToPeer peerIp family)

theorem adjRibInOf_handlePeerStateChanged (state : BgpState) :
    (server.handlePeerStateChanged peerIp state).adjRibInOf = server.adjRibInOf := by
  cases found : server.peers.lookup peerIp with
  | none => simp [handlePeerStateChanged, found]
  | some peer =>
    have entered := server.adjRibInOf_setPeer_kept peerIp peer (peer.enter state) found rfl
    simp only [handlePeerStateChanged, found]
    split
    · rw [adjRibInOf_resendAll, sweepStale, adjRibInOf_commit]
      refine (adjRibInOf_setPeer_kept _ peerIp (peer.enter .established) _ ?_ ?_).trans entered
      · rw [lookup_setPeer, if_pos rfl]
      · rfl
    · exact entered

end

theorem adjRibInOf_removePeer (peerIp other : IpAddr) :
    (server.removePeer peerIp).adjRibInOf other = if other = peerIp then .new else server.adjRibInOf other := by
  unfold removePeer
  split
  · rename_i missing
    split
    · rename_i here
      rw [here, server.adjRibInOf_missing peerIp missing]
    · rfl
  · rw [adjRibInOf_commit, adjRibInOf, Lib.AssocMap.lookup_erase_if]
    split <;> rfl

theorem adjRibInOf_handleServerOp (op : ServerOp) (notUpdate : ∀ peerIp routes, op ≠ .peerUpdate peerIp routes)
    (notEnd : ∀ peerIp grAfiSafis, op ≠ .peerDisconnected peerIp grAfiSafis) (notRemoved : ∀ peerIp, op ≠ .removePeer peerIp) :
    (server.handleServerOp op).adjRibInOf = server.adjRibInOf := by
  cases op with
  | peerUpdate peerIp routes => exact absurd rfl (notUpdate peerIp routes)
  | peerDisconnected peerIp grAfiSafis => exact absurd rfl (notEnd peerIp grAfiSafis)
  | removePeer peerIp => exact absurd rfl (notRemoved peerIp)
  | addPeer peerIp =>
    funext other
    rw [handleServerOp]
    unfold addPeer
    split
    · rename_i missing
      rw [adjRibInOf_setPeer]
      split
      · rename_i here
        rw [here, server.adjRibInOf_missing peerIp missing]
        rfl
      · rfl
    · rfl
  | peerStateChanged peerIp state => exact server.adjRibInOf_handlePeerStateChanged peerIp state
  | peerHandshakeComplete peerIp asn =>
    simp only [handleServerOp, handlePeerHandshakeComplete]
    split
    · rfl
    · exact server.adjRibInOf_modifyPeer peerIp _ fun _ => rfl
  | peerConnectionInfo peerIp bgpId connInfo capabilities => exact server.adjRibInOf_modifyPeer peerIp _ fun _ => rfl
  | routeRefresh peerIp afiSafi => exact server.adjRibInOf_resendRoutesToPeer peerIp afiSafi
  | routeRefreshBoRR peerIp afiSafi => rfl
  | routeRefreshEoRR peerIp afiSafi => exact server.adjRibInOf_commit _ _
  | gracefulRestartTimerExpired peerIp llgrAfiSafis | gracefulRestartComplete peerIp afiSafi =>
    exact (adjRibInOf_commit _ _ _).trans (server.adjRibInOf_modifyPeer peerIp _ fun _ => rfl)
  | llgrTimerExpired peerIp afiSafi =>
    exact (adjRibInOf_commit _ _ _).trans (server.adjRibInOf_modifyPeer peerIp _ fun _ => rfl)
  | enhancedRrStaleTimerExpired peerIp afiSafi => exact server.adjRibInOf_commit _ _
  | vrpUpdate added removed =>
    simp only [handleServerOp, handleVrpUpdate]
    split
    · rfl
    · exact adjRibInOf_commit _ _ _
  | addRoute key attrs =>
    simp only [handleServerOp, handleAddRoute]
    split
    · exact server.adjRibInOf_commit _ _
    · rfl
  | removeRoute key => exact server.adjRibInOf_commit _ _

theorem adjRibInOf_handlePeerDisconnected (peerIp other : IpAddr) (grAfiSafis : List AfiSafi) :
    (server.handlePeerDisconnected peerIp grAfiSafis).adjRibInOf other =
      if grAfiSafis = [] ∧ other = peerIp then .new else server.adjRibInOf other := by
  cases found : server.peers.lookup peerIp with
  | none =>
    simp only [handlePeerDisconnected, found]
    split
    · rename_i here
      rw [here.2, server.adjRibInOf_missing peerIp found]
    · rfl
  | some peer =>
    simp only [handlePeerDisconnected, found, List.isEmpty_iff]
    by_cases hard : grAfiSafis = []
    · rw [if_pos hard]
      have cleared : ∀ after : PeerInfo, after.adjRibIn = .new → (server.setPeer peerIp after).adjRibInOf other =
          if grAfiSafis = [] ∧ other = peerIp then .new else server.adjRibInOf other := by
        intro after empty
        rw [adjRibInOf_setPeer, empty]
        simp [hard]
      split
      · rw [adjRibInOf_commit]
        exact cleared _ rfl
      · exact cleared _ rfl
    · rw [if_neg hard, if_neg fun both => hard both.1]
      exact congrFun (server.adjRibInOf_setPeer_kept peerIp peer { peer with conn := {}, adjRibOut := .new } found rfl) other

end

-- The server drops a batch after storing it: a family is not accepted, or a limit is exceeded
-- and the session is not to be stopped.
def Refuses (server : BgpServer) (peerIp : IpAddr) (peer : PeerInfo) (peerAsn : UInt32) (routes : List PendingRoute) : Prop :=
  ¬ peer.Accepts routes ∨ (server.peerCfgOf peerIp).allowAutomaticStop = false ∧
    checkMaxPrefix (server.peerCfgOf peerIp) (storeUnprocessed peer.adjRibIn routes)
      (screenBatch (server.sessionChecks peerIp peer peerAsn) routes) = none

inductive UpdateTables (server : BgpServer) (peerIp : IpAddr) (peer : PeerInfo) (peerAsn : UInt32)
    (routes : List PendingRoute) : LocRib BitmapPathIdAllocator → AdjRibIn → Prop where
  | refused (refuses : server.Refuses peerIp peer peerAsn routes) :
      UpdateTables server peerIp peer peerAsn routes server.locRib (peer.received routes)
  | stopped (accepted : peer.Accepts routes) (stop : (server.peerCfgOf peerIp).allowAutomaticStop = true) :
      UpdateTables server peerIp peer peerAsn routes (server.locRib.removeRoutesFromPeer peerIp).1 .new
  | imported (accepted : peer.Accepts routes) (kept : List PendingRoute)
      (checked : checkMaxPrefix (server.peerCfgOf peerIp) (storeUnprocessed peer.adjRibIn routes)
        (screenBatch (server.sessionChecks peerIp peer peerAsn) routes) = some kept) :
      UpdateTables server peerIp peer peerAsn routes
        (server.locRib.applyPeerUpdate peerIp kept (server.sessionImport peer)).1 (storeUnprocessed peer.adjRibIn routes)

section

variable {server : BgpServer} {peerIp : IpAddr} {peer : PeerInfo} {peerAsn : UInt32}

theorem handlePeerUpdate_other (routes : List PendingRoute) {other : IpAddr} (different : other ≠ peerIp) :
    (server.handlePeerUpdate peerIp routes).adjRibInOf other = server.adjRibInOf other := by
  have written : ∀ after : PeerInfo, (server.setPeer peerIp after).adjRibInOf other = server.adjRibInOf other := by
    intro after
    rw [adjRibInOf_setPeer, if_neg different]
  have step := server.handlePeerUpdate_step peerIp routes
  generalize server.handlePeerUpdate peerIp routes = next at step ⊢
  generalize server.updateOps peerIp routes = ops at step
  cases step with
  | unknown noSession => rfl
  | ignored peer after peerAsn session continues refused => exact written after
  | stopped peer after peerAsn session continues accepted exceeded =>
    split
    · rw [handleMaxPrefixTerminate, adjRibInOf_commit, adjRibInOf, lookup_modifyPeer, if_neg different]
      exact written after
    · exact written after
  | imported peer after peerAsn session continues accepted kept checked =>
    rw [adjRibInOf_commit]
    exact written after

theorem handlePeerUpdate_outside (routes : List PendingRoute) (noSession : ∀ peer peerAsn, ¬ server.InSession peerIp peer peerAsn) :
    server.handlePeerUpdate peerIp routes = server := by
  have step := server.handlePeerUpdate_step peerIp routes
  generalize server.handlePeerUpdate peerIp routes = next at step ⊢
  generalize server.updateOps peerIp routes = ops at step
  cases step with
  | unknown none => rfl
  | ignored peer after peerAsn session | stopped peer after peerAsn session => exact absurd session (noSession peer peerAsn)
  | imported peer after peerAsn session => exact absurd session (noSession peer peerAsn)

theorem handlePeerUpdate_tables (session : server.InSession peerIp peer peerAsn) (routes : List PendingRoute) :
    UpdateTables server peerIp peer peerAsn routes (server.handlePeerUpdate peerIp routes).locRib
      ((server.handlePeerUpdate peerIp routes).adjRibInOf peerIp) := by
  have current : peer.establishedConn.bind ConnectionState.asn = some peerAsn := by
    simp [PeerInfo.establishedConn, session.established, session.asn]
  have spec := validateAfiSafi_spec (peer.storeRoutes routes) (announcedOf routes)
  have table : (validateAfiSafi (peer.storeRoutes routes) peer.conn.negotiatedAfiSafis (announcedOf routes)).1.adjRibIn =
      peer.received routes := validateAfiSafi_adjRibIn (peer.storeRoutes routes) (announcedOf routes)
  have policies : (validateAfiSafi (peer.storeRoutes routes) peer.conn.negotiatedAfiSafis
      (announcedOf routes)).1.importPolicies = peer.importPolicies :=
    ((peer.continues_storeRoutes routes).trans spec.1).importPolicies
  have sameChecks : ∀ after, (server.setPeer peerIp after).importChecks peer (server.peerCfgOf peerIp) peerAsn =
      server.sessionChecks peerIp peer peerAsn := fun _ => rfl
  have written : ∀ after : PeerInfo, (server.setPeer peerIp after).adjRibInOf peerIp = after.adjRibIn := by
    intro after
    rw [adjRibInOf_setPeer, if_pos rfl]
  simp only [handlePeerUpdate, session.found, current, sameChecks]
  cases valid : (validateAfiSafi (peer.storeRoutes routes) peer.conn.negotiatedAfiSafis (announcedOf routes)).2 with
  | false =>
    simp only [Bool.not_false, if_true]
    rw [written, table]
    exact .refused (.inl fun accepted => Bool.false_ne_true (valid.symm.trans (spec.2.mpr accepted)))
  | true =>
    have accepted : peer.Accepts routes := spec.2.mp valid
    rw [received_accepted accepted] at table
    simp only [Bool.not_true, Bool.false_eq_true, if_false, table]
    cases checked : checkMaxPrefix (server.peerCfgOf peerIp) (storeUnprocessed peer.adjRibIn routes)
        (screenBatch (server.sessionChecks peerIp peer peerAsn) routes) with
    | none =>
      cases stop : (server.peerCfgOf peerIp).allowAutomaticStop with
      | true =>
        simp only [if_true, handleMaxPrefixTerminate, commit_locRib, adjRibInOf_commit, modifyPeer_locRib]
        have emptied : ((server.setPeer peerIp (validateAfiSafi (peer.storeRoutes routes)
            peer.conn.negotiatedAfiSafis (announcedOf routes)).1).modifyPeer peerIp fun peer => { peer with
              adjRibIn := .new
              disabledAfiSafi := []
              adjRibOut := .new
              conn := if peer.conn.state = .established then {} else peer.conn }).adjRibInOf peerIp = .new := by
          rw [adjRibInOf, lookup_modifyPeer, if_pos rfl, lookup_setPeer, if_pos rfl]
          rfl
        rw [emptied]
        exact .stopped accepted stop
      | false =>
        simp only [Bool.false_eq_true, if_false]
        rw [written, table, ← received_accepted accepted]
        exact .refused (.inr ⟨stop, checked⟩)
    | some kept =>
      simp only [importRoutes, commit_locRib, adjRibInOf_commit, policies]
      rw [written, table]
      exact .imported accepted kept checked

theorem handleServerOp_adjRibs (property : IpAddr → AdjRibIn → Prop) (empty : ∀ peerIp, property peerIp .new)
    (op : ServerOp) (received : ∀ peerIp routes peer peerAsn, op = .peerUpdate peerIp routes →
      server.InSession peerIp peer peerAsn → property peerIp peer.adjRibIn → property peerIp (peer.received routes))
    (before : ∀ peerIp, property peerIp (server.adjRibInOf peerIp)) (peerIp : IpAddr) :
    property peerIp ((server.handleServerOp op).adjRibInOf peerIp) := by
  by_cases update : ∃ sender routes, op = .peerUpdate sender routes
  · obtain ⟨sender, routes, rfl⟩ := update
    rw [handleServerOp]
    by_cases here : peerIp = sender
    · subst here
      by_cases noSession : ∀ peer peerAsn, ¬ server.InSession peerIp peer peerAsn
      · rw [handlePeerUpdate_outside routes noSession]
        exact before peerIp
      · simp only [not_forall, not_not] at noSession
        obtain ⟨peer, peerAsn, session⟩ := noSession
        have stored := received peerIp routes peer peerAsn rfl session (server.adjRibInOf_found peerIp peer session.found ▸ before peerIp)
        have tables := handlePeerUpdate_tables session routes
        generalize (server.handlePeerUpdate peerIp routes).locRib = rib at tables
        generalize (server.handlePeerUpdate peerIp routes).adjRibInOf peerIp = table at tables ⊢
        cases tables with
        | refused refuses => exact stored
        | stopped accepted stop => exact empty peerIp
        | imported accepted kept checked => rwa [received_accepted accepted] at stored
    · rw [handlePeerUpdate_other routes here]
      exact before peerIp
  · by_cases ended : ∃ gone grAfiSafis, op = .peerDisconnected gone grAfiSafis
    · obtain ⟨gone, grAfiSafis, rfl⟩ := ended
      rw [handleServerOp, adjRibInOf_handlePeerDisconnected]
      split
      · exact empty peerIp
      · exact before peerIp
    · by_cases removed : ∃ gone, op = .removePeer gone
      · obtain ⟨gone, rfl⟩ := removed
        rw [handleServerOp, adjRibInOf_removePeer]
        split
        · exact empty peerIp
        · exact before peerIp
      · rw [server.adjRibInOf_handleServerOp op (fun sender routes same => update ⟨sender, routes, same⟩)
          (fun gone grAfiSafis same => ended ⟨gone, grAfiSafis, same⟩) fun gone same => removed ⟨gone, same⟩]
        exact before peerIp

end

def Heard (start : BgpServer) (ops : List ServerOp) (peerIp : IpAddr) (table : AdjRibIn) : Prop :=
  ∀ key, ∀ path ∈ paths table key, path ∈ paths (start.adjRibInOf peerIp) key ∨
    ∃ routes, .peerUpdate peerIp routes ∈ ops ∧ .announce key path ∈ routes

theorem adj_rib_in_heard (start : BgpServer) (ops : List ServerOp) (peerIp : IpAddr) :
    Heard start ops peerIp ((ops.foldl handleServerOp start).adjRibInOf peerIp) := by
  refine List.foldlRecOn ops handleServerOp (motive := fun server => ∀ peerIp, Heard start ops peerIp (server.adjRibInOf peerIp))
    (fun _ _ _ member => .inl member) (fun server heard op listed => ?_) peerIp
  refine handleServerOp_adjRibs (Heard start ops) ?_ op ?_ heard
  · intro sender key path member
    simp [paths] at member
  · rintro sender routes peer peerAsn rfl - before key path member
    cases mem_paths_received member with
    | inl announced => exact .inr ⟨routes, listed, announced⟩
    | inr stored => exact before key path stored

end BgpServer

end Bgpgg.Server
