import Bgpgg.Server.LoopFree

namespace Bgpgg.Server

open Net Rib Policies Peer Rpki

-- One session inside the AS, from the router that has a route to the next one. The wire keeps
-- the reflector attributes, whatever becomes of the others.
structure Hop where
  ctx : PeerExportContext
  wire : PathAttrs → PathAttrs
  keeps : ∀ attrs, (wire attrs).originatorId = attrs.originatorId ∧ (wire attrs).clusterList = attrs.clusterList
  remotePathId : Option UInt32
  next : BgpConfig
  peerIp : IpAddr
  rrClient : Bool
  enforceFirstAs : Bool
  localAddress : Option IpAddr
  importPolicies : AfiSafiPolicies
  vrpTable : VrpTable

-- A route at a router, with the router from which the first reflector has it or will have it
-- and the clusters of the reflectors it came through.
structure Carried where
  router : BgpConfig
  path : Path
  origin : Ipv4Addr
  reflectors : List Ipv4Addr

-- The route comes into the chain: originated here, learned from outside, or learned from a
-- router of the AS that is not part of the chain.
def Carried.enter (router : BgpConfig) (path : Path) : Carried where
  router := router
  path := path
  origin := if path.source.isIbgp then path.source.bgpId.getD router.routerId else router.routerId
  reflectors := []

namespace Hop

def checks (hop : Hop) : ImportChecks where
  localAsn := hop.next.asn
  peerAsn := hop.ctx.localAsn
  enforceFirstAs := hop.enforceFirstAs
  localAddress := hop.localAddress
  localBgpId := hop.next.routerId
  clusterId := hop.next.clusterId

def arrived (hop : Hop) (sender : BgpConfig) (exported : Path) : Path where
  localPathId := none
  remotePathId := hop.remotePathId
  attrs := { hop.wire exported.attrs with source := .fromSession .ibgp hop.peerIp sender.routerId hop.rrClient }
  stale := false
  rpkiState := .notFound

structure Joins (hop : Hop) (router : BgpConfig) : Prop where
  sender : hop.ctx.localAsn = router.asn
  receiver : hop.ctx.peerAsn = hop.next.asn
  internal : router.asn = hop.next.asn
  cluster : hop.ctx.clusterId = router.clusterId
  plain : hop.ctx.rsClient = false
  distinct : hop.next.routerId ≠ router.routerId

end Hop

-- Export at one router and import at the next, the route alone in its batch.
def Carried.pass (key : RouteKey) (carried : Carried) (hop : Hop) : Option Carried :=
  match computeExportPath key carried.path hop.ctx with
  | none => none
  | some exported =>
    match screenBatch hop.checks [.announce key (hop.arrived carried.router exported)] with
    | [.announce _ path] =>
      let (accepted, imported) := applyImport hop.vrpTable hop.next.asn hop.importPolicies key path
      if accepted then some
        { carried with
          router := hop.next
          path := imported
          reflectors := if carried.path.source.isIbgp then carried.router.clusterId :: carried.reflectors
            else carried.reflectors }
      else none
    | _ => none

def Linked : BgpConfig → List Hop → Prop
  | _, [] => True
  | router, hop :: rest => hop.Joins router ∧ Linked hop.next rest

section

variable {key : RouteKey} {carried after : Carried} {hop : Hop}

theorem exported_reflection {path exported : Path} {ctx : PeerExportContext} (internal : ctx.localAsn = ctx.peerAsn)
    (plain : ctx.rsClient = false) (sent : computeExportPath key path ctx = some exported) :
    (exported.attrs.originatorId, exported.attrs.clusterList) = buildExportRrAttrs path ctx true := by
  have ibgp : ctx.isIbgp = true := beq_iff_eq.mpr internal
  have untouched := evaluatePolicies_untouched key ((ctx.exportPolicies.lookup key.afiSafi).getD []) path
  rw [computeExportPath] at sent
  split at sent
  · cases sent
  · dsimp only at sent
    split at sent
    · cases sent
    · obtain ⟨attrs, built, rfl⟩ := Option.map_eq_some_iff.mp sent
      have same : buildExportRrAttrs (evaluatePolicies key ((ctx.exportPolicies.lookup key.afiSafi).getD []) path).2 ctx true =
          buildExportRrAttrs path ctx true := by
        simp only [buildExportRrAttrs, Rib.Path.source, untouched.source, untouched.originatorId, untouched.clusterList]
        rfl
      rw [buildExportAttrs, plain, ibgp, same] at built
      obtain ⟨nextHop, -, rfl⟩ := Option.map_eq_some_iff.mp built
      rfl

theorem pass_reflection (joins : hop.Joins carried.router) (passed : carried.pass key hop = some after) :
    after.router = hop.next ∧ after.origin = carried.origin ∧
      after.reflectors = (if carried.path.source.isIbgp then carried.router.clusterId :: carried.reflectors else carried.reflectors) ∧
      after.path.attrs.source = .ibgp hop.peerIp carried.router.routerId hop.rrClient ∧
      (after.path.attrs.originatorId, after.path.attrs.clusterList) = buildExportRrAttrs carried.path hop.ctx true ∧
      after.path.attrs.originatorId ≠ some hop.next.routerId ∧ hop.next.clusterId ∉ after.path.attrs.clusterList := by
  rw [Carried.pass] at passed
  split at passed
  · cases passed
  · rename_i exported sent
    have attrs := exported_reflection (joins.sender.trans (joins.internal.trans joins.receiver.symm)) joins.plain sent
    have kept := hop.keeps exported.attrs
    have internal : hop.checks.isEbgp = false := by
      rw [ImportChecks.isEbgp, bne_eq_false_iff_eq]
      exact joins.sender.trans joins.internal
    cases failed : hop.checks.fails (hop.arrived carried.router exported) with
    | true => simp [screenBatch, announcedOf, internal, failed, rejectAnnouncements, rejectAnnouncement] at passed
    | false =>
      have unlooped : hasRouteReflectorLoop (hop.arrived carried.router exported) hop.next.routerId hop.next.clusterId = false := by
        simp only [ImportChecks.fails, internal, Bool.or_eq_false_iff, Bool.not_false] at failed
        exact failed.2
      have untouched := applyImport_untouched hop.vrpTable hop.next.asn hop.importPolicies key (hop.arrived carried.router exported)
      simp only [screenBatch, announcedOf, internal, failed, List.filterMap_cons, List.head?_cons,
        Bool.false_eq_true, if_false, Option.ite_none_right_eq_some, Option.some.injEq] at passed
      obtain ⟨-, rfl⟩ := passed
      rw [hasRouteReflectorLoop, Bool.or_eq_false_iff, beq_eq_false_iff_ne] at unlooped
      rw [untouched.source, untouched.originatorId, untouched.clusterList, ← attrs]
      refine ⟨rfl, rfl, rfl, rfl, ?_, unlooped.1, by simpa using unlooped.2⟩
      exact Prod.ext kept.1 kept.2

end

-- Before the first reflection the route has the ORIGINATOR_ID it came with; from then on it has
-- one, and the clusters it came through stand first in its list.
structure Carried.Traced (entry carried : Carried) : Prop where
  origin : carried.origin = entry.origin
  fresh : carried.reflectors = [] → carried.path.attrs.originatorId = entry.path.attrs.originatorId ∧
    (carried.path.source.isIbgp = true → carried.path.source.bgpId = some entry.origin) ∧
    (carried.path.source.isIbgp = false → carried.router.routerId = entry.origin)
  reflected : carried.reflectors ≠ [] → carried.path.source.isIbgp = true ∧
    carried.path.attrs.originatorId = entry.path.attrs.originatorId.or (some entry.origin)
  clusters : carried.reflectors <+: carried.path.attrs.clusterList

theorem Carried.traced_enter (router : BgpConfig) (path : Path) : (enter router path).Traced (enter router path) where
  origin := rfl
  fresh _ := by
    refine ⟨rfl, fun ibgp => ?_, fun other => ?_⟩
    · cases source : path.source <;> simp [enter, source, RouteSource.isIbgp, RouteSource.bgpId] at ibgp ⊢
    · replace other : path.source.isIbgp = false := other
      simp [enter, other]
  reflected some := absurd rfl some
  clusters := List.nil_prefix

theorem Carried.Traced.pass {key : RouteKey} {entry carried after : Carried} {hop : Hop} (traced : entry.Traced carried)
    (joins : hop.Joins carried.router) (passed : carried.pass key hop = some after) :
    entry.Traced after ∧ after.router.clusterId ∉ after.reflectors ∧ (after.reflectors = [] → after.router.routerId ≠ entry.origin) ∧
      after.path.attrs.originatorId ≠ some after.router.routerId := by
  obtain ⟨router, origin, reflectors, source, attrs, notOrigin, notCluster⟩ := pass_reflection joins passed
  have ibgp : after.path.source.isIbgp = true := by rw [Rib.Path.source, source]; rfl
  have bgpId : after.path.source.bgpId = some carried.router.routerId := by rw [Rib.Path.source, source]; rfl
  rw [← router] at notOrigin notCluster
  cases learned : carried.path.source.isIbgp with
  | true =>
    rw [learned] at reflectors
    simp only [buildExportRrAttrs, learned, Bool.true_and, Bool.true_or, Bool.not_true, Bool.false_eq_true, if_false, if_true,
      joins.cluster, Prod.mk.injEq] at attrs
    have clusters : after.reflectors <+: after.path.attrs.clusterList := by
      rw [reflectors, attrs.2]
      exact (List.prefix_cons_inj _).mpr traced.clusters
    refine ⟨⟨origin.trans traced.origin, fun none => ?_, fun _ => ⟨ibgp, ?_⟩, clusters⟩,
      fun member => notCluster (clusters.subset member), fun none => ?_, notOrigin⟩
    · rw [reflectors] at none
      cases none
    · rw [attrs.1]
      by_cases first : carried.reflectors = []
      · rw [(traced.fresh first).1]
        exact congrArg _ ((traced.fresh first).2.1 learned)
      · rw [(traced.reflected first).2]
        cases entry.path.attrs.originatorId <;> rfl
    · rw [reflectors] at none
      cases none
  | false =>
    have first : carried.reflectors = [] := by
      by_contra some
      rw [(traced.reflected some).1] at learned
      cases learned
    obtain ⟨given, -, here⟩ := traced.fresh first
    rw [learned, first] at reflectors
    have originator : after.path.attrs.originatorId = carried.path.attrs.originatorId := by
      simp only [buildExportRrAttrs, learned, Bool.true_and, Bool.false_or, Bool.not_eq_true', Option.isSome_eq_false_iff,
        Option.isNone_iff_eq_none, Bool.false_eq_true] at attrs
      split at attrs
      · rename_i none
        rw [none]
        exact congrArg Prod.fst attrs
      · exact congrArg Prod.fst attrs
    refine ⟨⟨origin.trans traced.origin, fun _ => ⟨originator.trans given, fun _ => ?_, fun other => ?_⟩,
      fun some => absurd reflectors some, ?_⟩, ?_, fun _ => ?_, notOrigin⟩
    · rw [bgpId, here learned]
    · rw [ibgp] at other
      cases other
    · rw [reflectors]
      exact List.nil_prefix
    · rw [reflectors]
      exact List.not_mem_nil
    · rw [router, ← here learned]
      exact joins.distinct

theorem traced_chain {key : RouteKey} {entry : Carried} {chain : List Hop} {carried final : Carried} (traced : entry.Traced carried)
    (linked : Linked carried.router chain) (passed : chain.foldlM (Carried.pass key) carried = some final) :
    entry.Traced final ∧ (chain ≠ [] → final.router.clusterId ∉ final.reflectors ∧
      (final.reflectors = [] → final.router.routerId ≠ entry.origin) ∧
      final.path.attrs.originatorId ≠ some final.router.routerId) := by
  induction chain generalizing carried with
  | nil =>
    cases passed
    exact ⟨traced, fun some => absurd rfl some⟩
  | cons hop rest ih =>
    obtain ⟨after, first, later⟩ := Option.bind_eq_some_iff.mp passed
    obtain ⟨next, apart⟩ := traced.pass linked.1 first
    have onward : Linked after.router rest := by
      rw [(pass_reflection linked.1 first).1]
      exact linked.2
    have ended := ih next onward later
    refine ⟨ended.1, fun _ => ?_⟩
    cases rest with
    | nil =>
      cases later
      exact apart
    | cons second others => exact ended.2 (List.cons_ne_nil _ _)

-- The three promises of reflection, for the router at the end of the chain: the ORIGINATOR_ID
-- names where the first reflector has the route from, the clusters of all reflectors stand
-- first in the CLUSTER_LIST, and the router has neither sent the route nor reflected it.
structure Carried.LoopSafe (carried : Carried) : Prop where
  originator : carried.reflectors ≠ [] → carried.path.attrs.originatorId = some carried.origin
  clusters : carried.reflectors <+: carried.path.attrs.clusterList
  sender : carried.router.routerId ≠ carried.origin
  cluster : carried.router.clusterId ∉ carried.reflectors

-- Every hop but the first reflects, and the first one does if the route was learned inside the AS.
theorem reflected_chain {key : RouteKey} {chain : List Hop} {carried final : Carried} (linked : Linked carried.router chain)
    (passed : chain.foldlM (Carried.pass key) carried = some final) : final.reflectors ≠ [] ↔
      carried.reflectors ≠ [] ∨ chain ≠ [] ∧ (carried.path.source.isIbgp = true ∨ 1 < chain.length) := by
  induction chain generalizing carried with
  | nil =>
    cases passed
    simp
  | cons hop rest ih =>
    obtain ⟨after, first, later⟩ := Option.bind_eq_some_iff.mp passed
    obtain ⟨router, -, reflectors, source, -⟩ := pass_reflection linked.1 first
    have ibgp : after.path.source.isIbgp = true := by rw [Rib.Path.source, source]; rfl
    rw [ih (router ▸ linked.2) later, ibgp, reflectors]
    cases carried.path.source.isIbgp <;> simp [List.length_pos_iff]

theorem reflection_loop_free_iff (key : RouteKey) (router : BgpConfig) (path : Path) (chain : List Hop) (final : Carried)
    (nonempty : chain ≠ []) (linked : Linked router chain)
    (passed : chain.foldlM (Carried.pass key) (.enter router path) = some final) :
    final.LoopSafe ↔ (path.source.isIbgp = true ∨ 1 < chain.length →
      path.attrs.originatorId = none ∨ path.attrs.originatorId = some (Carried.enter router path).origin) := by
  have reflected : final.reflectors ≠ [] ↔ path.source.isIbgp = true ∨ 1 < chain.length := by
    rw [reflected_chain linked passed]
    simp [Carried.enter, nonempty]
  rw [← reflected]
  obtain ⟨traced, apart⟩ := traced_chain (Carried.traced_enter router path) linked passed
  obtain ⟨cluster, sender, notOriginator⟩ := apart nonempty
  have named : final.reflectors ≠ [] → (final.path.attrs.originatorId = some final.origin ↔
      path.attrs.originatorId = none ∨ path.attrs.originatorId = some (Carried.enter router path).origin) := by
    intro some
    rw [(traced.reflected some).2, traced.origin]
    change path.attrs.originatorId.or _ = _ ↔ _
    cases path.attrs.originatorId <;> simp
  constructor
  · exact fun safe some => (named some).mp (safe.originator some)
  · intro known
    refine ⟨fun some => (named some).mpr (known some), traced.clusters, ?_, cluster⟩
    rw [traced.origin]
    by_cases first : final.reflectors = []
    · exact sender first
    · intro same
      refine notOriginator ?_
      rw [(named first).mpr (known first), traced.origin, same]

def routerNamed (routerId : Ipv4Addr) : BgpConfig := ⟨65000, routerId, none, [], List.nodup_nil⟩

def hopTo (sender next : Ipv4Addr) : Hop where
  ctx := { unicastSession 65000 with peerAddr := .v4 next, rrClient := true, clusterId := sender }
  wire := id
  keeps _ := ⟨rfl, rfl⟩
  remotePathId := none
  next := routerNamed next
  peerIp := .v4 sender
  rrClient := true
  enforceFirstAs := false
  localAddress := none
  importPolicies := (∅ : AfiSafiPolicies).insert ⟨.ipv4, .unicast⟩ [.permitAll]
  vrpTable := .new

def ownRoute (originatorId : Option Ipv4Addr) : Path :=
  ⟨some 1, none, { LocRib.localExample with nextHop := .ipv4 0x0A000001, originatorId := originatorId }, false, .notFound⟩

def ownKey : RouteKey := .pfx (.v4 ⟨0x0A010000, 16⟩)

theorem linked_hops : Linked (routerNamed 1) [hopTo 1 2, hopTo 2 3] ∧ Linked (routerNamed 1) [hopTo 1 2, hopTo 2 3, hopTo 3 1] := by
  have joins : ∀ sender next : Ipv4Addr, next ≠ sender → (hopTo sender next).Joins (routerNamed sender) :=
    fun sender next apart => ⟨rfl, rfl, rfl, rfl, rfl, apart⟩
  exact ⟨⟨joins 1 2 (by decide), joins 2 3 (by decide), trivial⟩,
    ⟨joins 1 2 (by decide), joins 2 3 (by decide), joins 3 1 (by decide), trivial⟩⟩

theorem reflected_once_is_loop_free :
    ∃ final, [hopTo 1 2, hopTo 2 3].foldlM (Carried.pass ownKey) (.enter (routerNamed 1) (ownRoute none)) = some final ∧
      final.reflectors = [2] ∧ final.LoopSafe := by
  obtain ⟨final, passed, reflectors⟩ : ∃ final, [hopTo 1 2, hopTo 2 3].foldlM (Carried.pass ownKey)
      (.enter (routerNamed 1) (ownRoute none)) = some final ∧ final.reflectors = [2] := ⟨_, rfl, rfl⟩
  refine ⟨final, passed, reflectors, ?_⟩
  exact (reflection_loop_free_iff ownKey (routerNamed 1) (ownRoute none) _ final (List.cons_ne_nil _ _) linked_hops.1 passed).mpr
    fun _ => .inl rfl

-- A route added with an ORIGINATOR_ID of its own comes back to the router that originates it.
theorem own_route_is_accepted_back :
    ∃ final, [hopTo 1 2, hopTo 2 3, hopTo 3 1].foldlM (Carried.pass ownKey) (.enter (routerNamed 1) (ownRoute (some 9))) =
        some final ∧ Linked (routerNamed 1) [hopTo 1 2, hopTo 2 3, hopTo 3 1] ∧
      final.router.routerId = final.origin ∧ final.path.attrs.originatorId = some 9 ∧ ¬ final.LoopSafe := by
  refine ⟨_, rfl, linked_hops.2, rfl, rfl, fun safe => ?_⟩
  exact safe.sender rfl

end Bgpgg.Server
