import Bgpgg.Rib.PathInvariant
import Bgpgg.Server.RibOps

namespace Bgpgg.Server

open Net Wire Lib Rib Policies Rpki

-- What the Loc-RIB should hold of a path: no trace of this speaker in what a peer sent, and
-- no reflector attribute from outside the AS.
structure LoopFree (config : BgpConfig) (attrs : PathAttrs) : Prop where
  asPath : attrs.source ≠ .localSource → ∀ segment ∈ attrs.asPath, config.asn ∉ segment.asnList
  reflected : attrs.source.isIbgp = true → attrs.originatorId ≠ some config.routerId ∧ config.clusterId ∉ attrs.clusterList
  external : attrs.source.isEbgp = true → attrs.originatorId = none ∧ attrs.clusterList = []

variable {config : BgpConfig} (checks : ImportChecks)

-- The property reads four attributes, and import policies leave all four alone.
theorem LoopFree.of_untouched {before after : Path} (free : LoopFree config before.attrs)
    (untouched : Untouched before after) : LoopFree config after.attrs where
  asPath := by
    rw [untouched.source, untouched.asPath]
    exact free.asPath
  reflected := by
    rw [untouched.source, untouched.originatorId, untouched.clusterList]
    exact free.reflected
  external := by
    rw [untouched.source, untouched.originatorId, untouched.clusterList]
    exact free.external

theorem LoopFree.tagged (attrs : PathAttrs) (free : LoopFree config attrs) :
    LoopFree config { attrs with communities := attrs.communities ++ [LLGR_STALE] } :=
  ⟨free.asPath, free.reflected, free.external⟩

theorem applyImport_untouched (vrpTable : VrpTable) (localAsn : UInt32) (importPolicies : AfiSafiPolicies)
    (key : RouteKey) (path : Path) : Untouched path (applyImport vrpTable localAsn importPolicies key path).2 := by
  refine Untouched.trans ?_ (evaluatePolicies_untouched key _ _)
  cases key <;> exact ⟨rfl, rfl, rfl, rfl, rfl, rfl, rfl, rfl, rfl⟩

def ImportChecks.sessionType : SessionType := if checks.isEbgp then .ebgp else .ibgp

def ImportChecks.looped (path : Path) : Bool := hasAsPathLoop path checks.localAsn ||
    (!checks.isEbgp && hasRouteReflectorLoop path checks.localBgpId checks.clusterId)

def isSessionSource (sessionType : SessionType) (peerIp : IpAddr) : RouteSource → Bool
  | .ebgp ip bgpId => RouteSource.ebgp ip bgpId == .fromSession sessionType peerIp bgpId false
  | .ibgp ip bgpId rrClient => RouteSource.ibgp ip bgpId rrClient == .fromSession sessionType peerIp bgpId rrClient
  | .localSource => false

theorem isSessionSource_iff (sessionType : SessionType) (peerIp : IpAddr) (source : RouteSource) :
    isSessionSource sessionType peerIp source = true ↔ ∃ bgpId rrClient, source = .fromSession sessionType peerIp bgpId rrClient := by
  cases sessionType <;> cases source <;> simp [isSessionSource, RouteSource.fromSession]

namespace BgpServer

structure Started (server : BgpServer) : Prop where
  locRib : ∃ config, server.locRib = LocRib.new config
  peers : ∀ peerIp peer, server.peers.lookup peerIp = some peer → peer = .new

-- The paths of a PeerUpdate carry the source that the peer task made from its session.
def sourcedBySession (server : BgpServer) : ServerOp → Bool
  | .peerUpdate peerIp routes => (server.updateChecks peerIp).all fun checks =>
    (announcedOf routes).all fun routePath => isSessionSource checks.sessionType peerIp routePath.path.attrs.source
  | _ => true

theorem sourced_peerIp {server : BgpServer} {peerIp : IpAddr} {peer : PeerInfo} {peerAsn : UInt32}
    (session : server.InSession peerIp peer peerAsn) {routes : List PendingRoute}
    (sourced : server.sourcedBySession (.peerUpdate peerIp routes) = true) {key : RouteKey} {path : Path}
    (member : .announce key path ∈ routes) : path.attrs.source.peerIp = some peerIp := by
  rw [sourcedBySession, session.updateChecks, Option.all_some, List.all_eq_true] at sourced
  obtain ⟨bgpId, rrClient, source⟩ := (isSessionSource_iff _ _ _).mp (sourced _ ((mem_announcedOf routes ⟨key, path⟩).mpr member))
  rw [source]
  cases (server.sessionChecks peerIp peer peerAsn).sessionType <;> rfl

-- No announced path of a batch is looped when its first one passes the checks, and what a
-- VRP update takes again from an adj-rib-in is loop free as it was received.
def LoopChecked (server : BgpServer) : ServerOp → Prop
  | .peerUpdate peerIp routes => ∀ checks ∈ server.updateChecks peerIp,
      (∀ first ∈ (announcedOf routes).head?, checks.fails first.path = false) →
      ∀ routePath ∈ announcedOf routes, checks.looped routePath.path = false
  | .vrpUpdate added removed => ∀ peerIp peer, server.peers.lookup peerIp = some peer →
      ∀ net ∈ server.locRib.affectedPrefixes added removed, ∀ path ∈ AdjRibIn.paths peer.adjRibIn (.pfx net),
        LoopFree server.config path.attrs
  | _ => True

section

variable (server : BgpServer) (op : ServerOp) (peerIp : IpAddr)

theorem screened_loopFree {peer : PeerInfo} {peerAsn : UInt32} {original : Path}
    (sourced : isSessionSource (server.sessionChecks peerIp peer peerAsn).sessionType peerIp original.attrs.source = true)
    (unlooped : (server.sessionChecks peerIp peer peerAsn).looped original = false) :
    LoopFree server.config
      (if (server.sessionChecks peerIp peer peerAsn).isEbgp then scrubEbgpPath original else original).attrs := by
  obtain ⟨bgpId, rrClient, source⟩ := (isSessionSource_iff _ _ _).mp sourced
  rw [ImportChecks.looped, Bool.or_eq_false_iff, Bool.and_eq_false_iff] at unlooped
  have noLoop : hasAsPathLoop original server.config.asn = false := unlooped.1
  have asPath : ∀ segment ∈ original.attrs.asPath, server.config.asn ∉ segment.asnList := by
    intro segment member
    simpa using List.any_eq_false.mp noLoop segment member
  cases ebgp : (server.sessionChecks peerIp peer peerAsn).isEbgp with
  | true =>
    rw [ImportChecks.sessionType, ebgp] at source
    refine ⟨fun _ => asPath, fun reflected => ?_, fun _ => ⟨rfl, rfl⟩⟩
    have same : (scrubEbgpPath original).attrs.source = .ebgp peerIp bgpId := source
    rw [if_pos rfl, same] at reflected
    cases reflected
  | false =>
    rw [ImportChecks.sessionType, ebgp] at source
    refine ⟨fun _ => asPath, fun _ => ?_, fun external => ?_⟩
    · have noReflection : hasRouteReflectorLoop original server.config.routerId server.config.clusterId = false := by
        refine unlooped.2.resolve_left ?_
        rw [ebgp]
        exact Bool.noConfusion
      rw [hasRouteReflectorLoop, Bool.or_eq_false_iff] at noReflection
      exact ⟨by simpa using noReflection.1, by simpa using noReflection.2⟩
    · have same : original.attrs.source = .ibgp peerIp bgpId rrClient := source
      rw [if_neg Bool.false_ne_true, same] at external
      cases external

theorem updateOps_brings (routes : List PendingRoute) (sourced : server.sourcedBySession (.peerUpdate peerIp routes) = true)
    (checked : server.LoopChecked (.peerUpdate peerIp routes)) :
    ∀ op ∈ server.updateOps peerIp routes, LocRib.Brings (LoopFree server.config) op := by
  have step := server.handlePeerUpdate_step peerIp routes
  generalize server.handlePeerUpdate peerIp routes = next at step
  generalize server.updateOps peerIp routes = ops at step ⊢
  cases step with
  | unknown noSession | ignored peer after peerAsn session continues refused => simp
  | stopped peer after peerAsn session continues accepted exceeded =>
    split
    · simp [LocRib.Brings]
    · simp
  | imported peer after peerAsn session continues accepted kept limited =>
    rw [List.forall_mem_singleton]
    intro key path member _
    obtain ⟨original, announced, passed, rfl⟩ := mem_screenBatch _ routes key (mem_checkMaxPrefix _ _ _ _ limited member)
    refine LoopFree.of_untouched ?_ (applyImport_untouched _ _ _ _ _)
    rw [sourcedBySession, session.updateChecks, Option.all_some, List.all_eq_true] at sourced
    exact screened_loopFree server peerIp (sourced _ announced) (checked _ session.updateChecks passed _ announced)

theorem vrpOps_brings (added removed : List Vrp) (checked : server.LoopChecked (.vrpUpdate added removed)) :
    ∀ op ∈ server.vrpOps added removed, LocRib.Brings (LoopFree server.config) op := by
  intro op member
  obtain ⟨peerIp, peer, found, rfl⟩ := server.mem_vrpOps added removed op member
  intro key path announced _
  obtain ⟨net, affected, rfl, stored⟩ := (mem_affectedPaths _ peer key path).mp announced
  exact LoopFree.of_untouched (checked peerIp peer found net affected path stored) (applyImport_untouched _ _ _ _ _)

theorem ribOps_brings (sourced : server.sourcedBySession op = true)
    (checked : server.LoopChecked op) : ∀ ribOp ∈ server.ribOps op, LocRib.Brings (LoopFree server.config) ribOp := by
  cases op with
  | peerUpdate peerIp routes => exact server.updateOps_brings peerIp routes sourced checked
  | vrpUpdate added removed => exact server.vrpOps_brings added removed checked
  | addRoute key attrs =>
    rw [ribOps, List.forall_mem_singleton]
    refine ⟨fun peerSent => absurd rfl peerSent, fun reflected => ?_, fun external => ?_⟩
    · exact absurd reflected Bool.false_ne_true
    · exact absurd external Bool.false_ne_true
  | peerStateChanged peerIp state =>
    rw [ribOps, establishOps]
    split
    · split <;> simp [LocRib.Brings]
    · simp
  | peerDisconnected peerIp grAfiSafis =>
    rw [ribOps, disconnectOps]
    split
    · simp
    · split
      · split <;> simp [LocRib.Brings]
      · simp [LocRib.Brings]
  | removePeer peerIp =>
    rw [ribOps]
    split <;> simp [LocRib.Brings]
  | peerHandshakeComplete _ _ | peerConnectionInfo _ _ _ _ => simp [ribOps]
  | routeRefresh _ _ | addPeer _ => simp [ribOps]
  | routeRefreshBoRR _ _ | routeRefreshEoRR _ _ => simp [ribOps, LocRib.Brings]
  | gracefulRestartTimerExpired _ _ => simp [ribOps, grExpiredOps, LocRib.Brings]
  | gracefulRestartComplete _ _ | llgrTimerExpired _ _ => simp [ribOps, LocRib.Brings]
  | enhancedRrStaleTimerExpired _ _ | removeRoute _ => simp [ribOps, LocRib.Brings]

theorem handleServerOp_carries (carried : server.locRib.Carries (LoopFree server.config)) (sourced : server.sourcedBySession op = true)
    (checked : server.LoopChecked op) : (server.handleServerOp op).locRib.Carries (LoopFree (server.handleServerOp op).config) := by
  have brought := server.ribOps_brings op sourced checked
  rw [(server.handleServerOp_ribOps op).1, (server.handleServerOp_ribOps op).2]
  generalize server.ribOps op = ops at brought
  generalize server.locRib = rib at carried
  induction ops generalizing rib with
  | nil => exact carried
  | cons first rest ih =>
    refine ih (fun later member => brought later (List.mem_cons_of_mem _ member)) _ ?_
    exact LocRib.step_carries LoopFree.tagged carried first (brought first List.mem_cons_self)

theorem started_carries (started : server.Started) : server.locRib.Carries (LoopFree server.config) := by
  obtain ⟨config, empty⟩ := started.locRib
  intro key path member
  rw [empty, LocRib.getAllPaths, LocRib.getRoute_new] at member
  cases member

-- In every run whose batches and re-evaluations meet the condition, every state reached is
-- loop free.
theorem loop_free_in_checked_runs (start final : BgpServer) (started : start.Started)
    (run : Reaches handleServerOp (fun server op => server.sourcedBySession op = true ∧ server.LoopChecked op) start final) :
    final.locRib.Carries (LoopFree final.config) :=
  run.invariant (fun server => server.locRib.Carries (LoopFree server.config)) (started_carries start started)
    fun server op carried permitted => server.handleServerOp_carries op carried permitted.1 permitted.2

def reflectorIp : IpAddr := .v4 0x0A000002

def startExample : BgpServer where
  peers := (∅ : AssocMap IpAddr PeerInfo).insert reflectorIp .new
  locRib := .new ⟨0⟩
  config := ⟨65000, 0x01010101, none, [{ ip := some reflectorIp }], by decide⟩
  policies := ∅
  localAddr := .v4 0
  vrpTable := .new

theorem startExample_started : startExample.Started := by
  refine ⟨⟨⟨0⟩, rfl⟩, fun peerIp peer found => ?_⟩
  rw [startExample, AssocMap.lookup_insert_if] at found
  by_cases here : peerIp = reflectorIp
  · rw [if_pos here] at found
    exact (Option.some.inj found).symm
  · rw [if_neg here] at found
    cases found

def establishExample : List ServerOp := [.peerHandshakeComplete reflectorIp 65000,
    .peerConnectionInfo reflectorIp 0x0A000002 ⟨.v4 0x0A000001, none⟩
      ⟨[⟨.ipv4, .unicast⟩], false, some 65000, none, none, none⟩,
    .peerStateChanged reflectorIp .established]

def receivedExample (net : Ipv4Net) (asPath : List AsPathSegment) : PendingRoute :=
  .announce (.pfx (.v4 net)) ⟨none, none, { LocRib.localExample with
    nextHop := .ipv4 0x0A000002, source := .ibgp reflectorIp 0x0A000002 false, asPath := asPath }, false, .notFound⟩

def cleanRunExample : List ServerOp := establishExample ++ [.peerUpdate reflectorIp [receivedExample ⟨0x0A020000, 16⟩ []]]

theorem loop_free_in_clean_run : (cleanRunExample.foldl handleServerOp startExample).locRib.Carries
      (LoopFree (cleanRunExample.foldl handleServerOp startExample).config) := by
  refine loop_free_in_checked_runs startExample _ startExample_started (Reaches.of_permits _ _ ?_)
  refine ⟨⟨rfl, trivial⟩, ⟨rfl, trivial⟩, ⟨rfl, trivial⟩, ⟨by decide +kernel, ?_⟩, trivial⟩
  intro checks _ _ routePath announced
  obtain rfl := List.mem_singleton.mp announced
  simp [ImportChecks.looped, hasAsPathLoop, hasRouteReflectorLoop, LocRib.localExample]

-- A looped path behind a clean one in a batch, and a looped path that was rejected when it
-- came and is imported when a VRP update takes it again from the adj-rib-in.
def batchRunExample : List ServerOp := establishExample ++ [.peerUpdate reflectorIp
    [receivedExample ⟨0x0A020000, 16⟩ [], receivedExample ⟨0x0A010000, 16⟩ [⟨.asSequence, 1, [65000]⟩]]]

def vrpRunExample : List ServerOp := establishExample ++ [.addRoute (.pfx (.v4 ⟨0x0A010000, 16⟩)) LocRib.localExample,
    .peerUpdate reflectorIp [receivedExample ⟨0x0A010000, 16⟩ [⟨.asSequence, 1, [65000]⟩]],
    .vrpUpdate [⟨.v4 ⟨0x0A010000, 16⟩, 16, 65001⟩] []]

theorem not_carries_of_looped (key : RouteKey) (looped : (server.locRib.getAllPaths key).any (fun path =>
      path.value.attrs.source != .localSource && hasAsPathLoop path.value server.config.asn) = true) :
    ¬ server.locRib.Carries (LoopFree server.config) := by
  intro carried
  obtain ⟨path, member, both⟩ := List.any_eq_true.mp looped
  rw [Bool.and_eq_true, bne_iff_ne] at both
  obtain ⟨segment, segmentMember, contained⟩ := List.any_eq_true.mp both.2
  exact (carried key path member).asPath both.1 segment segmentMember (by simpa using contained)

end

theorem looped_route_enters_loc_rib : startExample.Started ∧
    Permits handleServerOp (fun server op => server.sourcedBySession op = true) startExample batchRunExample ∧
    ¬ (batchRunExample.foldl handleServerOp startExample).locRib.Carries
      (LoopFree (batchRunExample.foldl handleServerOp startExample).config) ∧
    Permits handleServerOp (fun server op => server.sourcedBySession op = true) startExample vrpRunExample ∧
    ¬ (vrpRunExample.foldl handleServerOp startExample).locRib.Carries
      (LoopFree (vrpRunExample.foldl handleServerOp startExample).config) := by
  refine ⟨startExample_started, ⟨rfl, rfl, rfl, by decide +kernel, trivial⟩, ?_,
    ⟨rfl, rfl, rfl, rfl, by decide +kernel, rfl, trivial⟩, ?_⟩
  · exact not_carries_of_looped _ (.pfx (.v4 ⟨0x0A010000, 16⟩)) (by decide +kernel)
  · exact not_carries_of_looped _ (.pfx (.v4 ⟨0x0A010000, 16⟩)) (by decide +kernel)

end BgpServer

end Bgpgg.Server
