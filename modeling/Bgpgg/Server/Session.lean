import Bgpgg.Rib.LocRibInvariant
import Bgpgg.Server.Frame

namespace Bgpgg.Server

open Net Rib

def PeerInfo.AcceptsFamily (peer : PeerInfo) (family : AfiSafi) : Prop :=
  family ∉ peer.disabledAfiSafi ∧ (peer.conn.negotiatedAfiSafis = [] ∨ family ∈ peer.conn.negotiatedAfiSafis)

instance (peer : PeerInfo) (family : AfiSafi) : Decidable (peer.AcceptsFamily family) := inferInstanceAs (Decidable (_ ∧ _))

def PeerInfo.Accepts (peer : PeerInfo) (routes : List PendingRoute) : Prop :=
  ∀ routePath ∈ announcedOf routes, peer.AcceptsFamily routePath.key.afiSafi

instance (peer : PeerInfo) (routes : List PendingRoute) : Decidable (peer.Accepts routes) :=
  inferInstanceAs (Decidable (∀ routePath ∈ announcedOf routes, _))

-- What storing and validating a batch may change of a peer: its adj-rib-in, and the disabled
-- families by one that the session did not accept anyway.
structure PeerInfo.Continues (before after : PeerInfo) : Prop where
  kept : after = { before with adjRibIn := after.adjRibIn, disabledAfiSafi := after.disabledAfiSafi }
  families : ∀ family, after.AcceptsFamily family ↔ before.AcceptsFamily family

namespace PeerInfo

section

variable (peer : PeerInfo) {before after : PeerInfo}

theorem Continues.conn (continues : before.Continues after) : after.conn = before.conn := by
  rw [continues.kept]

theorem Continues.importPolicies (continues : before.Continues after) : after.importPolicies = before.importPolicies := by
  rw [continues.kept]

theorem Continues.trans {first second third : PeerInfo} (front : first.Continues second)
    (back : second.Continues third) : first.Continues third := by
  refine ⟨?_, fun family => (back.families family).trans (front.families family)⟩
  rw [back.kept, front.kept]

theorem Continues.refl : peer.Continues peer := ⟨rfl, fun _ => Iff.rfl⟩

theorem continues_storeRoutes (routes : List PendingRoute) : peer.Continues (peer.storeRoutes routes) := ⟨rfl, fun _ => Iff.rfl⟩

theorem Continues.accepts (continues : before.Continues after)
    (routes : List PendingRoute) : after.Accepts routes ↔ before.Accepts routes := by
  refine forall_congr' fun routePath => forall_congr' fun _ => ?_
  exact continues.families _

end

end PeerInfo

theorem acceptsFamily_iff {peer : PeerInfo} {family : AfiSafi} (enabled : peer.disabledAfiSafi.contains family = false) :
    peer.AcceptsFamily family ↔ ¬ (!peer.conn.negotiatedAfiSafis.isEmpty && !peer.conn.negotiatedAfiSafis.contains family) = true := by
  have absent : family ∉ peer.disabledAfiSafi := by simpa using enabled
  simp [PeerInfo.AcceptsFamily, absent, or_iff_not_imp_left]

theorem disabled_continues {peer : PeerInfo} (adjRibIn : AdjRibIn) {family : AfiSafi} (refused : ¬ peer.AcceptsFamily family) :
    peer.Continues { peer with adjRibIn := adjRibIn, disabledAfiSafi := family :: peer.disabledAfiSafi } := by
  refine ⟨rfl, fun other => ?_⟩
  simp only [PeerInfo.AcceptsFamily, List.mem_cons, not_or]
  refine ⟨fun accepted => ⟨accepted.1.2, accepted.2⟩, fun accepted => ⟨⟨?_, accepted.1⟩, accepted.2⟩⟩
  intro same
  exact refused (same ▸ accepted)

theorem validateAfiSafi_accepted {peer : PeerInfo} {routePath : RoutePath} (rest : List RoutePath)
    (accepted : peer.AcceptsFamily routePath.key.afiSafi) :
    validateAfiSafi peer peer.conn.negotiatedAfiSafis (routePath :: rest) = validateAfiSafi peer peer.conn.negotiatedAfiSafis rest := by
  have enabled : peer.disabledAfiSafi.contains routePath.key.afiSafi = false := by simpa using accepted.1
  rw [validateAfiSafi, enabled, if_neg Bool.false_ne_true, if_neg ((acceptsFamily_iff enabled).mp accepted)]

theorem validateAfiSafi_refused {peer : PeerInfo} {routePath : RoutePath} (rest : List RoutePath)
    (refused : ¬ peer.AcceptsFamily routePath.key.afiSafi) :
    validateAfiSafi peer peer.conn.negotiatedAfiSafis (routePath :: rest) =
      (if peer.disabledAfiSafi.contains routePath.key.afiSafi then peer else { peer with
        adjRibIn := AdjRibIn.drainAfiSafi peer.adjRibIn routePath.key.afiSafi
        disabledAfiSafi := routePath.key.afiSafi :: peer.disabledAfiSafi }, false) := by
  rw [validateAfiSafi]
  cases disabled : peer.disabledAfiSafi.contains routePath.key.afiSafi with
  | true => rfl
  | false => rw [if_neg Bool.false_ne_true, if_pos (not_not.mp (refused ∘ (acceptsFamily_iff disabled).mpr)), if_neg Bool.false_ne_true]

theorem validateAfiSafi_spec (peer : PeerInfo) (announced : List RoutePath) :
    peer.Continues (validateAfiSafi peer peer.conn.negotiatedAfiSafis announced).1 ∧
    ((validateAfiSafi peer peer.conn.negotiatedAfiSafis announced).2 = true ↔
      ∀ routePath ∈ announced, peer.AcceptsFamily routePath.key.afiSafi) := by
  induction announced with
  | nil => exact ⟨.refl peer, by simp [validateAfiSafi]⟩
  | cons routePath rest ih =>
    by_cases accepted : peer.AcceptsFamily routePath.key.afiSafi
    · rw [validateAfiSafi_accepted rest accepted]
      simpa [accepted] using ih
    · rw [validateAfiSafi_refused rest accepted]
      refine ⟨?_, by simp [accepted]⟩
      split
      · exact .refl peer
      · exact disabled_continues _ accepted

section

variable (checks : ImportChecks)

variable (rejected : Bool) (routes : List PendingRoute) (key : RouteKey)

def screenRoute (rejected : Bool) (route : PendingRoute) : PendingRoute :=
  let checked := if rejected then rejectAnnouncement route else route
  if checks.isEbgp then scrubEbgpPendingRoute checked else checked

@[simp] theorem screenRoute_withdraw (remotePathId : Option UInt32) :
    screenRoute checks rejected (.withdraw key remotePathId) = .withdraw key remotePathId := by
  cases rejected <;> cases ebgp : checks.isEbgp <;> simp [screenRoute, rejectAnnouncement, scrubEbgpPendingRoute]

theorem screenRoute_routeKey (route : PendingRoute) : (screenRoute checks rejected route).routeKey = route.routeKey := by
  cases route with
  | withdraw key remotePathId => rw [screenRoute_withdraw]
  | announce key path =>
    cases rejected <;> cases ebgp : checks.isEbgp <;>
      simp [screenRoute, rejectAnnouncement, scrubEbgpPendingRoute, ebgp, PendingRoute.routeKey]

theorem map_screenRoute : routes.map (screenRoute checks rejected) =
      let checked := if rejected then rejectAnnouncements routes else routes
      if checks.isEbgp then checked.map scrubEbgpPendingRoute else checked := by
  change routes.map (fun route => screenRoute checks rejected route) = _
  cases rejected <;> cases ebgp : checks.isEbgp <;> simp [screenRoute, rejectAnnouncements, ebgp]

theorem screenBatch_eq_map : screenBatch checks routes = routes.map (screenRoute checks
      ((announcedOf routes).head?.any fun first => checks.fails first.path)) := by
  rw [map_screenRoute, screenBatch]
  cases first : (announcedOf routes).head? <;> rfl

theorem mem_announcedOf (routePath : RoutePath) : routePath ∈ announcedOf routes ↔ .announce routePath.key routePath.path ∈ routes := by
  rw [announcedOf, List.mem_filterMap]
  refine ⟨fun ⟨route, member, announced⟩ => ?_, fun member => ⟨_, member, rfl⟩⟩
  cases route with
  | announce key path =>
    cases announced
    exact member
  | withdraw key remotePathId => cases announced

theorem mem_screenBatch {path : Path} (member : .announce key path ∈ screenBatch checks routes) :
    ∃ original, ⟨key, original⟩ ∈ announcedOf routes ∧ (∀ first ∈ (announcedOf routes).head?, checks.fails first.path = false) ∧
      path = if checks.isEbgp then scrubEbgpPath original else original := by
  rw [screenBatch_eq_map, List.mem_map] at member
  obtain ⟨route, listed, screened⟩ := member
  cases route with
  | withdraw other remotePathId => simp at screened
  | announce other original =>
    cases failed : (announcedOf routes).head?.any fun first => checks.fails first.path with
    | true => cases ebgp : checks.isEbgp <;>
        simp [failed, screenRoute, rejectAnnouncement, scrubEbgpPendingRoute] at screened
    | false =>
      have passed : ∀ first ∈ (announcedOf routes).head?, checks.fails first.path = false := by
        intro first isFirst
        rw [Option.mem_def.mp isFirst] at failed
        exact failed
      rw [failed] at screened
      cases ebgp : checks.isEbgp with
      | true =>
        simp only [screenRoute, ebgp, Bool.false_eq_true, if_false, if_true, scrubEbgpPendingRoute,
          PendingRoute.announce.injEq] at screened
        obtain ⟨rfl, rfl⟩ := screened
        exact ⟨original, (mem_announcedOf routes ⟨other, original⟩).mpr listed, passed, rfl⟩
      | false =>
        simp only [screenRoute, ebgp, Bool.false_eq_true, if_false, PendingRoute.announce.injEq] at screened
        obtain ⟨rfl, rfl⟩ := screened
        exact ⟨original, (mem_announcedOf routes ⟨other, original⟩).mpr listed, passed, rfl⟩

end

namespace BgpServer

structure InSession (server : BgpServer) (peerIp : IpAddr) (peer : PeerInfo) (peerAsn : UInt32) : Prop where
  found : server.peers.lookup peerIp = some peer
  established : peer.conn.state = .established
  asn : peer.conn.asn = some peerAsn

section

variable (server : BgpServer) (peerIp : IpAddr) (peer : PeerInfo)

def NoMaxPrefix : Prop := ∀ family, (server.peerCfgOf peerIp).effectiveMaxPrefix family = none

def sessionChecks (peerAsn : UInt32) : ImportChecks := server.importChecks peer (server.peerCfgOf peerIp) peerAsn

def sessionImport : ImportPolicy := applyImport server.vrpTable server.config.asn peer.importPolicies

def updateChecks : Option ImportChecks := (server.peers.lookup peerIp).bind fun peer =>
    (peer.establishedConn.bind ConnectionState.asn).map (server.sessionChecks peerIp peer)

end

section

variable {server : BgpServer} {peerIp : IpAddr} (peerCfg : PeerConfig) (adjRibIn : AdjRibIn)

theorem InSession.updateChecks {peer : PeerInfo} {peerAsn : UInt32} (session : server.InSession peerIp peer peerAsn) :
    server.updateChecks peerIp = some (server.sessionChecks peerIp peer peerAsn) := by
  simp [BgpServer.updateChecks, session.found, PeerInfo.establishedConn, session.established, session.asn]

theorem checkMaxPrefix_unlimited (routes : List PendingRoute) (unlimited : ∀ family, peerCfg.effectiveMaxPrefix family = none) :
    checkMaxPrefix peerCfg adjRibIn routes = some routes := by
  have never : ∀ family, exceededAction peerCfg adjRibIn family = none := by
    intro family
    rw [exceededAction, unlimited]
  have none_exceeds : (familiesInUpdate routes).any (fun family =>
      exceededAction peerCfg adjRibIn family == some .terminate) = false := by simp [never]
  simp only [checkMaxPrefix, none_exceeds, Bool.false_eq_true, if_false, Option.some.injEq, List.filter_eq_self]
  intro route _
  cases route with
  | announce key path => simp [never]
  | withdraw key remotePathId => rfl

theorem mem_checkMaxPrefix (routes kept : List PendingRoute)
    (checked : checkMaxPrefix peerCfg adjRibIn routes = some kept) : kept ⊆ routes := by
  simp only [checkMaxPrefix] at checked
  split at checked
  · cases checked
  · cases checked
    exact fun route member => List.mem_of_mem_filter member

def updateOps (server : BgpServer) (peerIp : IpAddr) (routes : List PendingRoute) : List LocRib.Op :=
  match server.peers.lookup peerIp with
  | none => []
  | some peer =>
    match peer.establishedConn.bind ConnectionState.asn with
    | none => []
    | some peerAsn =>
      let (validated, acceptable) := validateAfiSafi (peer.storeRoutes routes) peer.conn.negotiatedAfiSafis (announcedOf routes)
      if !acceptable then []
      else
        match checkMaxPrefix (server.peerCfgOf peerIp) validated.adjRibIn
          (screenBatch (server.sessionChecks peerIp peer peerAsn) routes) with
        | none => if (server.peerCfgOf peerIp).allowAutomaticStop then [.removeRoutesFromPeer peerIp] else []
        | some kept => [.applyPeerUpdate peerIp kept (server.sessionImport validated)]

inductive UpdateStep (server : BgpServer) (peerIp : IpAddr) (routes : List PendingRoute) :
    List LocRib.Op → BgpServer → Prop where
  | unknown (noSession : ∀ peer peerAsn, ¬ server.InSession peerIp peer peerAsn) :
      UpdateStep server peerIp routes [] server
  | ignored (peer after : PeerInfo) (peerAsn : UInt32) (session : server.InSession peerIp peer peerAsn)
      (continues : peer.Continues after) (refused : ¬ peer.Accepts routes) :
      UpdateStep server peerIp routes [] (server.setPeer peerIp after)
  | stopped (peer after : PeerInfo) (peerAsn : UInt32) (session : server.InSession peerIp peer peerAsn)
      (continues : peer.Continues after) (accepted : peer.Accepts routes)
      (exceeded : checkMaxPrefix (server.peerCfgOf peerIp) after.adjRibIn
        (screenBatch (server.sessionChecks peerIp peer peerAsn) routes) = none) :
      UpdateStep server peerIp routes
        (if (server.peerCfgOf peerIp).allowAutomaticStop then [.removeRoutesFromPeer peerIp] else [])
        (if (server.peerCfgOf peerIp).allowAutomaticStop then
          (server.setPeer peerIp after).handleMaxPrefixTerminate peerIp
        else server.setPeer peerIp after)
  | imported (peer after : PeerInfo) (peerAsn : UInt32) (session : server.InSession peerIp peer peerAsn)
      (continues : peer.Continues after) (accepted : peer.Accepts routes) (kept : List PendingRoute)
      (checked : checkMaxPrefix (server.peerCfgOf peerIp) after.adjRibIn
        (screenBatch (server.sessionChecks peerIp peer peerAsn) routes) = some kept) :
      UpdateStep server peerIp routes [.applyPeerUpdate peerIp kept (server.sessionImport peer)]
        ((server.setPeer peerIp after).commit (server.locRib.applyPeerUpdate peerIp kept (server.sessionImport peer)) (some peerIp))

theorem handlePeerUpdate_step (server : BgpServer) (peerIp : IpAddr) (routes : List PendingRoute) :
    UpdateStep server peerIp routes (server.updateOps peerIp routes) (server.handlePeerUpdate peerIp routes) := by
  cases found : server.peers.lookup peerIp with
  | none =>
    simp only [handlePeerUpdate, updateOps, found]
    refine .unknown fun peer peerAsn session => ?_
    rw [session.found] at found
    cases found
  | some peer =>
    cases current : peer.establishedConn.bind ConnectionState.asn with
    | none =>
      simp only [handlePeerUpdate, updateOps, found, current]
      refine .unknown fun other peerAsn session => ?_
      rw [session.found] at found
      cases found
      simp [PeerInfo.establishedConn, session.established, session.asn] at current
    | some peerAsn =>
      have session : server.InSession peerIp peer peerAsn := by
        by_cases established : peer.conn.state = .established
        · exact ⟨found, established, by simpa [PeerInfo.establishedConn, established] using current⟩
        · simp [PeerInfo.establishedConn, established] at current
      have spec := validateAfiSafi_spec (peer.storeRoutes routes) (announcedOf routes)
      have continues := (peer.continues_storeRoutes routes).trans spec.1
      simp only [handlePeerUpdate, updateOps, found, current]
      cases valid : (validateAfiSafi (peer.storeRoutes routes) peer.conn.negotiatedAfiSafis (announcedOf routes)).2 with
      | false =>
        refine .ignored peer _ peerAsn session continues fun accepted => ?_
        exact Bool.false_ne_true (valid.symm.trans (spec.2.mpr accepted))
      | true =>
        have accepted : peer.Accepts routes := spec.2.mp valid
        have sameChecks : ∀ after, (server.setPeer peerIp after).importChecks peer (server.peerCfgOf peerIp) peerAsn =
            server.sessionChecks peerIp peer peerAsn := fun _ => rfl
        rw [sameChecks]
        cases checked : checkMaxPrefix (server.peerCfgOf peerIp) (validateAfiSafi (peer.storeRoutes routes)
            peer.conn.negotiatedAfiSafis (announcedOf routes)).1.adjRibIn
            (screenBatch (server.sessionChecks peerIp peer peerAsn) routes) with
        | none => exact .stopped peer _ peerAsn session continues accepted checked
        | some kept =>
          have policies : (validateAfiSafi (peer.storeRoutes routes) peer.conn.negotiatedAfiSafis
              (announcedOf routes)).1.importPolicies = peer.importPolicies := continues.importPolicies
          simp only [importRoutes, sessionImport, policies]
          exact .imported peer _ peerAsn session continues accepted kept checked

theorem InSession.unique {peer other : PeerInfo} {peerAsn otherAsn : UInt32}
    (session : server.InSession peerIp peer peerAsn) (same : server.InSession peerIp other otherAsn) :
    peer = other ∧ peerAsn = otherAsn := by
  have samePeer : peer = other := Option.some.inj (session.found.symm.trans same.found)
  subst samePeer
  exact ⟨rfl, Option.some.inj (session.asn.symm.trans same.asn)⟩

end

end BgpServer

end Bgpgg.Server
