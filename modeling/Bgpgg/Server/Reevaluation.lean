import Bgpgg.Rib.OtherPeers
import Bgpgg.Rib.PeerViews
import Bgpgg.Server.Coalesce
import Bgpgg.Server.Retained

namespace Bgpgg.Server

open Net Wire Lib Rib Policies Peer Rpki LocRib AdjRibIn List

def tableRoutes (table : AdjRibIn) : List RoutePath :=
  (table.ipv4Unicast.entries.flatMap fun entry => entry.2.paths.map (RoutePath.mk (.pfx (.v4 entry.1)))) ++
    (table.ipv6Unicast.entries.flatMap fun entry => entry.2.paths.map (RoutePath.mk (.pfx (.v6 entry.1)))) ++
    table.linkState.entries.flatMap fun entry => entry.2.paths.map (RoutePath.mk (.linkState entry.1))

theorem filter_keyed {Entry : Type} (entries : List Entry) (keyOf : Entry → RouteKey) (pathsOf : Entry → List Path) (key : RouteKey) :
    (entries.flatMap fun entry => (pathsOf entry).map (RoutePath.mk (keyOf entry))).filter (fun route => route.key == key) =
      (entries.flatMap fun entry => if keyOf entry = key then pathsOf entry else []).map (RoutePath.mk key) := by
  rw [filter_flatMap, map_flatMap]
  refine flatMap_congr fun entry _ => ?_
  rw [filter_map]
  by_cases here : keyOf entry = key
  · have all : (pathsOf entry).filter ((fun route : RoutePath => route.key == key) ∘ RoutePath.mk (keyOf entry)) =
        pathsOf entry := filter_eq_self.mpr fun _ _ => by simp [here]
    rw [all, if_pos here, here]
  · have nothing : (pathsOf entry).filter ((fun route : RoutePath => route.key == key) ∘ RoutePath.mk (keyOf entry)) = [] :=
      filter_eq_nil_iff.mpr fun _ _ => by simp [here]
    rw [nothing, if_neg here]
    rfl

theorem mem_tableRoutes (table : AdjRibIn) (key : RouteKey) (path : Path) : ⟨key, path⟩ ∈ tableRoutes table ↔ path ∈ paths table key := by
  have stored : ∀ {Key : Type} [DecidableEq Key] (routes : AssocMap Key (Route Path)) (build : Key → RouteKey),
      ⟨key, path⟩ ∈ (routes.entries.flatMap fun entry => entry.2.paths.map (RoutePath.mk (build entry.1))) ↔
        ∃ own, build own = key ∧ path ∈ ((routes.lookup own).map Route.paths).getD [] := by
    intro Key _ routes build
    simp only [mem_flatMap, mem_map, RoutePath.mk.injEq]
    constructor
    · rintro ⟨entry, member, found, listed, rfl, rfl⟩
      have looked : routes.lookup entry.1 = some entry.2 := AList.mem_lookup_iff.mpr member
      exact ⟨entry.1, rfl, by simpa [looked] using listed⟩
    · rintro ⟨own, rfl, listed⟩
      cases found : routes.lookup own with
      | none => simp [found] at listed
      | some route => exact ⟨⟨own, route⟩, AList.mem_lookup_iff.mp found, path, by simpa [found] using listed, rfl, rfl⟩
  rw [tableRoutes, mem_append, mem_append]
  refine (or_congr (or_congr (stored table.ipv4Unicast fun net => .pfx (.v4 net))
    (stored table.ipv6Unicast fun net => .pfx (.v6 net))) (stored table.linkState RouteKey.linkState)).trans ?_
  cases key with
  | pfx net => cases net <;> simp [paths, FamilyTables.get]
  | linkState nlri => simp [paths, FamilyTables.get]

theorem tableRoutes_at (table : AdjRibIn) (net : IpNetwork) : (tableRoutes table).filter (fun route => route.key == .pfx net) =
      (paths table (.pfx net)).map (RoutePath.mk (.pfx net)) := by
  have nothing : ∀ {Entry : Type} (entries : List Entry), entries.flatMap (fun _ => ([] : List Path)) = [] := by
    simp
  rw [tableRoutes, filter_append, filter_append, filter_keyed, filter_keyed, filter_keyed]
  cases net with
  | v4 net =>
    have here := AssocMap.flatMap_entries_at table.ipv4Unicast net Route.paths
    simp [paths, FamilyTables.get, here]
  | v6 net =>
    have here := AssocMap.flatMap_entries_at table.ipv6Unicast net Route.paths
    simp [paths, FamilyTables.get, here, nothing]

namespace BgpServer

variable {server : BgpServer} {peerIp : IpAddr} {peer : PeerInfo} {peerAsn : UInt32}

theorem affectedPaths_at (prefixes : List IpNetwork) (distinct : prefixes.Nodup) (peer : PeerInfo) (net : IpNetwork) :
    (affectedPaths prefixes peer).filter (fun route => route.routeKey == .pfx net) =
      if net ∈ prefixes then (paths peer.adjRibIn (.pfx net)).map (.announce (.pfx net)) else [] := by
  have one : ∀ first, ((paths peer.adjRibIn (.pfx first)).map (PendingRoute.announce (.pfx first))).filter
      (fun route => route.routeKey == .pfx net) =
        if first = net then (paths peer.adjRibIn (.pfx net)).map (.announce (.pfx net)) else [] := by
    intro first
    by_cases here : first = net
    · subst here
      rw [if_pos rfl, filter_eq_self]
      exact forall_mem_map.mpr fun path _ => by simp [PendingRoute.routeKey]
    · rw [if_neg here, filter_eq_nil_iff]
      exact forall_mem_map.mpr fun path _ => by simp [PendingRoute.routeKey, here]
  induction prefixes with
  | nil => rfl
  | cons first rest ih =>
    obtain ⟨fresh, later⟩ := nodup_cons.mp distinct
    rw [affectedPaths, flatMap_cons, filter_append, one first]
    have rest_at := ih later
    rw [affectedPaths] at rest_at
    rw [rest_at]
    by_cases here : first = net
    · subst here
      simp [fresh]
    · simp [here, Ne.symm here]

def entryOps (server : BgpServer) (added removed : List Vrp) (entry : Sigma fun _ : IpAddr => PeerInfo) : List LocRib.Op :=
  let routes := affectedPaths (server.locRib.affectedPrefixes added removed) entry.2
  if routes.isEmpty then [] else [.applyPeerUpdate entry.1 routes ((server.withVrps added removed).sessionImport entry.2)]

theorem vrpOps_entries (server : BgpServer) (added removed : List Vrp) :
    server.vrpOps added removed = server.peers.entries.flatMap (server.entryOps added removed) := by
  have found : ∀ entry ∈ server.peers.entries, (server.withVrps added removed).peers.lookup entry.1 = some entry.2 :=
    fun entry member => AList.mem_lookup_iff.mpr member
  rw [vrpOps]
  by_cases unaffected : (server.locRib.affectedPrefixes added removed).isEmpty = true
  · have none_affected := isEmpty_iff.mp unaffected
    simp [entryOps, none_affected, affectedPaths]
  · rw [if_neg unaffected, reevaluateOps, affectedRoutes, filterMap_filterMap]
    rw [filterMap_eq_flatMap_toList]
    refine flatMap_congr fun entry member => ?_
    rw [entryOps]
    by_cases nothing : (affectedPaths (server.locRib.affectedPrefixes added removed) entry.2).isEmpty = true
    · rw [if_pos nothing, if_pos nothing]
      rfl
    · rw [if_neg nothing, if_neg nothing, Option.bind_some, found entry member]
      rfl

theorem peerViews_spared {before after : LocRib BitmapPathIdAllocator} {sender : IpAddr} (other : peerIp ≠ sender)
    (spared : LocRib.SparesOthers sender before after) (key : RouteKey) :
    after.peerViews peerIp key = before.peerViews peerIp key := by
  have shown : ∀ (rib : LocRib BitmapPathIdAllocator) (view : PathView), view ∈ rib.peerViews peerIp key ↔
      view.slot.1.peerIp = some peerIp ∧ ∃ path ∈ rib.others sender key, viewOf path = view := by
    intro rib view
    rw [mem_peerViews]
    refine and_congr_right fun mine => ⟨?_, ?_⟩
    · rintro ⟨path, member, rfl⟩
      refine ⟨path.value, (mem_others rib sender key path.value).mpr ⟨?_, path, member, rfl⟩, rfl⟩
      have source : path.value.attrs.source.peerIp = some peerIp := mine
      simp [Path.isFromPeer, source, other]
    · rintro ⟨path, member, rfl⟩
      obtain ⟨-, stored, listed, rfl⟩ := (mem_others rib sender key path).mp member
      exact ⟨stored, listed, rfl⟩
  ext view
  rw [shown, shown]
  simp [(spared key).mem_iff]

section

variable (fromPeers : server.AdjRibsSourced) (added removed : List Vrp)

include fromPeers

theorem affectedPaths_sourced (prefixes : List IpNetwork) (found : server.peers.lookup peerIp = some peer) :
    LocRib.SourcedBy peerIp (affectedPaths prefixes peer) := by
  intro key path member
  obtain ⟨net, -, rfl, stored⟩ := (mem_affectedPaths prefixes peer key path).mp member
  rw [← server.adjRibInOf_found peerIp peer found] at stored
  exact fromPeers peerIp _ path stored

theorem entryOps_other (entry : Sigma fun _ : IpAddr => PeerInfo) (member : entry ∈ server.peers.entries)
    (other : peerIp ≠ entry.1) (rib : LocRib BitmapPathIdAllocator) (key : RouteKey) :
    ((server.entryOps added removed entry).foldl step rib).peerViews peerIp key = rib.peerViews peerIp key := by
  have sourced := affectedPaths_sourced fromPeers (server.locRib.affectedPrefixes added removed) (AList.mem_lookup_iff.mpr member)
  rw [entryOps]
  split
  · rfl
  · refine peerViews_spared other (applyPeerUpdate_spares ?_ ?_) key
    · intro routeKey path listed
      simp [Path.isFromPeer, sourced routeKey path listed]
    · intro routeKey path
      exact congrArg Prod.fst (sessionImport_keepsSlots _ entry.2 routeKey path)

theorem entryOps_others (entries : List (Sigma fun _ : IpAddr => PeerInfo)) (listed : ∀ entry ∈ entries, entry ∈ server.peers.entries)
    (others : peerIp ∉ entries.map Sigma.fst) (rib : LocRib BitmapPathIdAllocator) (key : RouteKey) :
    ((entries.flatMap (server.entryOps added removed)).foldl step rib).peerViews peerIp key = rib.peerViews peerIp key := by
  induction entries generalizing rib with
  | nil => rfl
  | cons entry rest ih =>
    obtain ⟨here, later⟩ := forall_mem_cons.mp listed
    rw [map_cons, mem_cons, not_or] at others
    rw [flatMap_cons, foldl_append, ih later others.2, entryOps_other fromPeers added removed entry here others.1]

theorem entryOps_own (found : server.peers.lookup peerIp = some peer) (net : IpNetwork)
    (rib : LocRib BitmapPathIdAllocator) (ribDistinct : rib.SlotsDistinct) :
    ((server.entryOps added removed ⟨peerIp, peer⟩).foldl step rib).peerViews peerIp (.pfx net) =
      (if net ∈ server.locRib.affectedPrefixes added removed then
        (paths peer.adjRibIn (.pfx net)).map (importResult ((server.withVrps added removed).sessionImport peer) (.pfx net))
        else []).foldl (Result.apply peerIp) (rib.peerViews peerIp (.pfx net)) := by
  have imported := afterPending_views (sessionImport_keepsSlots (server.withVrps added removed) peer) ribDistinct
    (affectedPaths (server.locRib.affectedPrefixes added removed) peer) (affectedPaths_sourced fromPeers _ found) net
  rw [affectedPaths_at (server.locRib.affectedPrefixes added removed) (nodup_dedup _)] at imported
  have shown : ((server.entryOps added removed ⟨peerIp, peer⟩).foldl step rib).peerViews peerIp (.pfx net) =
      (rib.afterPending peerIp ((server.withVrps added removed).sessionImport peer)
        (affectedPaths (server.locRib.affectedPrefixes added removed) peer)).peerViews peerIp (.pfx net) := by
    rw [entryOps]
    split
    · rename_i nothing
      rw [isEmpty_iff.mp nothing]
      rfl
    · rfl
  rw [shown, imported]
  split
  · rw [foldl_map, foldl_map]
    rfl
  · rfl

theorem vrpUpdate_views (distinct : server.locRib.SlotsDistinct) (found : server.peers.lookup peerIp = some peer) (net : IpNetwork) :
    (server.handleVrpUpdate added removed).locRib.peerViews peerIp (.pfx net) =
      (if net ∈ server.locRib.affectedPrefixes added removed then
        (paths peer.adjRibIn (.pfx net)).map (importResult ((server.withVrps added removed).sessionImport peer) (.pfx net))
        else []).foldl (Result.apply peerIp) (server.locRib.peerViews peerIp (.pfx net)) := by
  obtain ⟨front, back, split⟩ := append_of_mem (AList.mem_lookup_iff.mp found)
  have keys := server.peers.nodupKeys
  rw [List.NodupKeys, List.keys, split, map_append, map_cons, nodup_middle, nodup_cons, mem_append, not_or] at keys
  have listed : ∀ entry, entry ∈ front ∨ entry ∈ back → entry ∈ server.peers.entries := by
    intro entry member
    rw [split, mem_append, mem_cons]
    exact member.imp_right .inr
  rw [(vrpOps_locRib server added removed).1, vrpOps_entries, split, flatMap_append, flatMap_cons, foldl_append, foldl_append,
    entryOps_others fromPeers added removed back (fun entry member => listed entry (.inr member)) keys.1.2,
    entryOps_own fromPeers added removed found net _ (slotsDistinct_stable.steps distinct _),
    entryOps_others fromPeers added removed front (fun entry member => listed entry (.inl member)) keys.1.1]

end

def redeliveries (peer : PeerInfo) : List (List PendingRoute) :=
  (tableRoutes peer.adjRibIn).map fun routePath => [.announce routePath.key routePath.path]

-- What handle_peer_update leaves of a route that is alone in its batch, when its family is accepted.
def deliveryResult (checks : ImportChecks) (importPolicy : ImportPolicy) (key : RouteKey) (path : Path) : Result :=
  if checks.fails path then LocRib.withdrawResult path
  else LocRib.importResult importPolicy key (if checks.isEbgp then scrubEbgpPath path else path)

section

variable (table : AdjRibIn) (checks : ImportChecks) (key : RouteKey) (path : Path)

theorem viewEffect_screened (importPolicy : ImportPolicy) (key : RouteKey) (path : Path) (views : Set PathView) :
    viewEffect peerIp importPolicy views (screenRoute checks (checks.fails path) (.announce key path)) =
      (deliveryResult checks importPolicy key path).apply peerIp views := by
  rw [deliveryResult, screenRoute]
  cases failed : checks.fails path <;> cases ebgp : checks.isEbgp <;> rfl

theorem screenBatch_single : screenBatch checks [.announce key path] = [screenRoute checks (checks.fails path) (.announce key path)] := by
  rw [screenBatch_eq_map]
  rfl

theorem accepts_single : peer.Accepts [.announce key path] ↔ peer.AcceptsFamily key.afiSafi := by
  simp [PeerInfo.Accepts, announcedOf]

theorem screenEach_at (net : IpNetwork) : (screenEach checks peer (redeliveries peer)).filter (fun route => route.routeKey == .pfx net) =
      if peer.AcceptsFamily (RouteKey.pfx net).afiSafi then
        (paths peer.adjRibIn (.pfx net)).map fun path => screenRoute checks (checks.fails path) (.announce (.pfx net) path)
      else [] := by
  have keyed : ∀ (routes : List RoutePath) (batch : RoutePath → List PendingRoute),
      (∀ routePath, ∀ route ∈ batch routePath, route.routeKey = routePath.key) →
      (routes.flatMap batch).filter (fun route => route.routeKey == .pfx net) =
        (routes.filter fun routePath => routePath.key == .pfx net).flatMap batch := by
    intro routes batch own
    induction routes with
    | nil => rfl
    | cons first rest ih =>
      rw [flatMap_cons, filter_append, ih, filter_cons]
      by_cases here : first.key = .pfx net
      · rw [if_pos (by simpa using here), flatMap_cons, filter_eq_self.mpr]
        intro route member
        simp [own first route member, here]
      · rw [if_neg (by simpa using here), filter_eq_nil_iff.mpr, nil_append]
        intro route member
        simp [own first route member, here]
  have batches : screenEach checks peer (redeliveries peer) = (tableRoutes peer.adjRibIn).flatMap fun routePath =>
      if peer.AcceptsFamily routePath.key.afiSafi then
        [screenRoute checks (checks.fails routePath.path) (.announce routePath.key routePath.path)] else [] := by
    simp [screenEach, redeliveries, flatMap_map, accepts_single, screenBatch_single]
  rw [batches, keyed, tableRoutes_at, flatMap_map]
  · by_cases accepted : peer.AcceptsFamily (RouteKey.pfx net).afiSafi
    · simp only [accepted]
      exact map_eq_flatMap.symm
    · simp [accepted]
  · intro routePath route member
    split at member
    · rw [mem_singleton.mp member, screenRoute_routeKey]
      rfl
    · cases member

theorem redelivery_sourced (fromPeers : server.AdjRibsSourced) (found : server.peers.lookup peerIp = some peer)
    (checks : ImportChecks) : LocRib.SourcedBy peerIp (screenEach checks peer (redeliveries peer)) := by
  intro key path member
  obtain ⟨batch, listed, screened⟩ := mem_flatMap.mp member
  obtain ⟨⟨own, original⟩, stored, rfl⟩ := mem_map.mp listed
  split at screened
  · obtain ⟨announced, inBatch, -, rfl⟩ := mem_screenBatch checks _ key screened
    have same := (mem_announcedOf _ ⟨key, announced⟩).mp inBatch
    simp only [mem_singleton, PendingRoute.announce.injEq] at same
    obtain ⟨rfl, rfl⟩ := same
    have there := (mem_tableRoutes peer.adjRibIn key announced).mp stored
    rw [← server.adjRibInOf_found peerIp peer found] at there
    have source := fromPeers peerIp key announced there
    split <;> exact source
  · cases screened

theorem redelivery_views (session : server.InSession peerIp peer peerAsn) (unlimited : server.NoMaxPrefix peerIp)
    (fromPeers : server.AdjRibsSourced) (distinct : server.locRib.SlotsDistinct) (net : IpNetwork) :
    (server.handleEach peerIp (redeliveries peer)).locRib.peerViews peerIp (.pfx net) =
      (if peer.AcceptsFamily (RouteKey.pfx net).afiSafi then
        (paths peer.adjRibIn (.pfx net)).map
          (deliveryResult (server.sessionChecks peerIp peer peerAsn) (server.sessionImport peer) (.pfx net))
        else []).foldl (Result.apply peerIp) (server.locRib.peerViews peerIp (.pfx net)) := by
  rw [handleEach_locRib session unlimited, afterPending_views (sessionImport_keepsSlots server peer) distinct _
    (redelivery_sourced fromPeers session.found _), screenEach_at]
  split
  · rw [foldl_map, foldl_map]
    refine foldl_ext _ _ _ fun views path _ => ?_
    exact viewEffect_screened _ _ _ path views
  · rfl

-- The paths of the peer under each prefix are those that delivering its adj-rib-in again under the
-- new VRPs leaves, one route to a batch.
def Reevaluated (server : BgpServer) (peerIp : IpAddr) (peer : PeerInfo) (added removed : List Vrp) : Prop :=
  ∀ net, ((server.handleVrpUpdate added removed).locRib.peerPaths peerIp (.pfx net)).Perm
    (((server.withVrps added removed).handleEach peerIp (redeliveries peer)).locRib.peerPaths peerIp (.pfx net))

section

variable (server : BgpServer) (peer : PeerInfo) (net : IpNetwork)

def reimports (affected : List IpNetwork) : List Result :=
  if net ∈ affected then (AdjRibIn.paths peer.adjRibIn (.pfx net)).map (LocRib.importResult (server.sessionImport peer) (.pfx net)) else []

-- What the checks, the scrubbing and apply_import make of it, for a family that is accepted.
def deliveries (peerIp : IpAddr) (peerAsn : UInt32) : List Result :=
  if peer.AcceptsFamily (RouteKey.pfx net).afiSafi then (AdjRibIn.paths peer.adjRibIn (.pfx net)).map
    (deliveryResult (server.sessionChecks peerIp peer peerAsn) (server.sessionImport peer) (.pfx net)) else []

end

-- Under each prefix the two come to the same, one result after the other in the order of the table
-- over what the Loc-RIB has of the peer: a path under its identifier, or a removal, which without
-- an identifier is one of all the peer's paths there.
def UpToDate (server : BgpServer) (peerIp : IpAddr) (peer : PeerInfo) (peerAsn : UInt32) (added removed : List Vrp) : Prop :=
  ∀ net, ((server.withVrps added removed).reimports peer net (server.locRib.affectedPrefixes added removed)).foldl (Result.apply peerIp)
      (server.locRib.peerViews peerIp (.pfx net)) =
    ((server.withVrps added removed).deliveries peer net peerIp peerAsn).foldl (Result.apply peerIp)
      (server.locRib.peerViews peerIp (.pfx net))

structure Consistent (server : BgpServer) : Prop where
  sourced : server.AdjRibsSourced
  slots : server.locRib.SlotsDistinct

theorem Started.consistent (started : server.Started) : server.Consistent := by
  refine ⟨started.retained.2, fun key => ?_⟩
  obtain ⟨config, empty⟩ := started.locRib
  rw [empty, getAllPaths, getRoute_new]
  exact nodup_nil

theorem handleServerOp_consistent (consistent : server.Consistent) {op : ServerOp}
    (sourced : server.sourcedBySession op = true) : (server.handleServerOp op).Consistent := by
  refine ⟨handleServerOp_adjRibsSourced consistent.sourced op sourced, ?_⟩
  rw [(handleServerOp_ribOps server op).1]
  exact slotsDistinct_stable.steps consistent.slots _

theorem reevaluated_iff_upToDate (consistent : server.Consistent) (session : server.InSession peerIp peer peerAsn)
    (unlimited : server.NoMaxPrefix peerIp) (added removed : List Vrp) :
    server.Reevaluated peerIp peer added removed ↔ server.UpToDate peerIp peer peerAsn added removed := by
  have next : (server.withVrps added removed).InSession peerIp peer peerAsn := ⟨session.found, session.established, session.asn⟩
  have vrpSlots : (server.handleVrpUpdate added removed).locRib.SlotsDistinct := by
    rw [(vrpOps_locRib server added removed).1]
    exact slotsDistinct_stable.steps consistent.slots _
  have deliverySlots : ((server.withVrps added removed).handleEach peerIp (redeliveries peer)).locRib.SlotsDistinct := by
    rw [handleEach_locRib next unlimited]
    exact slotsDistinct_stable.applyPeerUpdate peerIp _ _ consistent.slots
  refine forall_congr' fun net => ?_
  rw [peerPaths_perm_iff vrpSlots deliverySlots, vrpUpdate_views consistent.sourced added removed consistent.slots
    session.found, redelivery_views next unlimited consistent.sourced consistent.slots]
  rfl

-- In every state that a run reaches, for every peer with a session and without a limit and every
-- VRP update.
theorem reevaluation_complete_iff (start server : BgpServer) (started : start.Started)
    (run : Reaches handleServerOp (fun server op => server.sourcedBySession op = true) start server)
    (peerIp : IpAddr) (peer : PeerInfo) (peerAsn : UInt32) (session : server.InSession peerIp peer peerAsn)
    (unlimited : server.NoMaxPrefix peerIp) (added removed : List Vrp) :
    server.Reevaluated peerIp peer added removed ↔ server.UpToDate peerIp peer peerAsn added removed := by
  have consistent := run.invariant Consistent started.consistent fun _ op holds permitted => handleServerOp_consistent holds permitted
  exact reevaluated_iff_upToDate consistent session unlimited added removed

theorem inSession_of_lookup
    (known : ((server.peers.lookup peerIp).any fun peer =>
      peer.conn.state == .established && peer.conn.asn == some peerAsn) = true) :
    server.InSession peerIp ((server.peers.lookup peerIp).getD .new) peerAsn := by
  cases found : server.peers.lookup peerIp with
  | none => simp [found] at known
  | some peer =>
    simp only [found, Option.any_some, Bool.and_eq_true, beq_iff_eq] at known
    exact ⟨found, known.1, known.2⟩

end

theorem upToDate_of_routes {added removed : List Vrp}
    (agree : ((tableRoutes peer.adjRibIn).all fun routePath =>
      match routePath.key with
      | .pfx net => decide ((server.withVrps added removed).reimports peer net (server.locRib.affectedPrefixes added removed) =
          (server.withVrps added removed).deliveries peer net peerIp peerAsn)
      | .linkState _ => true) = true) : server.UpToDate peerIp peer peerAsn added removed := by
  intro net
  by_cases empty : AdjRibIn.paths peer.adjRibIn (.pfx net) = []
  · simp [reimports, deliveries, empty]
  · obtain ⟨path, member⟩ := exists_mem_of_ne_nil _ empty
    have same := all_eq_true.mp agree _ ((mem_tableRoutes peer.adjRibIn (.pfx net) path).mpr member)
    rw [of_decide_eq_true same]

def roaExample (asn : UInt32) : Vrp := ⟨.v4 ⟨0x0A010000, 16⟩, 16, asn⟩

def validatedRunExample : List ServerOp :=
  establishExample ++ [.peerUpdate reflectorIp [receivedExample ⟨0x0A010000, 16⟩ [⟨.asSequence, 1, [65002]⟩]]]

def numberedExample : PendingRoute := .announce (.pfx (.v4 ⟨0x0A010000, 16⟩)) ⟨none, some 7, { LocRib.localExample with
    nextHop := .ipv4 0x0A000002, source := .ibgp reflectorIp 0x0A000002 false }, false, .notFound⟩

def validatedExample : BgpServer :=
  (validatedRunExample ++ [ServerOp.peerUpdate reflectorIp [numberedExample]]).foldl handleServerOp startExample

def validatedPeerExample : PeerInfo := (validatedExample.peers.lookup reflectorIp).getD .new

-- The table holds a path without an identifier next to one with an identifier.
theorem reevaluation_complete_of_stored_route : validatedExample.Reevaluated reflectorIp validatedPeerExample [roaExample 65002] [] := by
  refine (reevaluation_complete_iff startExample validatedExample startExample_started (Reaches.of_permits _ _ ?_) reflectorIp
    validatedPeerExample 65000 (inSession_of_lookup (by decide +kernel)) ?_ _ _).mpr ?_
  · exact ⟨rfl, rfl, rfl, by decide +kernel, by decide +kernel, trivial⟩
  · intro family
    rfl
  · exact upToDate_of_routes (by decide +kernel)

-- A route that the import policy rejects as Invalid is in no trie, so the removal of the VRP does
-- not find it; and a route with a loop, rejected when it came, is imported once a VRP changes
-- for its prefix.
def dropInvalidExample : Policy := ⟨"drop-invalid", [⟨[.rpkiValidation .invalid], [.reject]⟩]⟩

def filteredPeerExample : PeerConfig where
  ip := some reflectorIp
  afiSafis := [⟨⟨.ipv4, .unicast⟩, none, ["drop-invalid"], []⟩]

def filteredExample : BgpServer := { startExample with
    config := ⟨65000, 0x01010101, none, [filteredPeerExample], by decide⟩
    policies := (∅ : AssocMap String Policy).insert "drop-invalid" dropInvalidExample }

def rejectedRunExample : List ServerOp := .vrpUpdate [roaExample 65001] [] :: validatedRunExample

def loopedRunExample : List ServerOp := establishExample ++ [.addRoute (.pfx (.v4 ⟨0x0A010000, 16⟩)) LocRib.localExample,
    .peerUpdate reflectorIp [receivedExample ⟨0x0A010000, 16⟩ [⟨.asSequence, 1, [65000]⟩]]]

theorem not_reevaluated_of_length (server : BgpServer) (peerIp : IpAddr) (peer : PeerInfo) (added removed : List Vrp)
    (net : IpNetwork) (different : ((server.handleVrpUpdate added removed).locRib.peerPaths peerIp (.pfx net)).length ≠
      (((server.withVrps added removed).handleEach peerIp (redeliveries peer)).locRib.peerPaths peerIp (.pfx net)).length) :
    ¬ server.Reevaluated peerIp peer added removed :=
  fun complete => different (complete net).length_eq

theorem rejected_route_stays_out : filteredExample.Started ∧
    Permits handleServerOp (fun server op => server.sourcedBySession op = true) filteredExample rejectedRunExample ∧
    ¬ (rejectedRunExample.foldl handleServerOp filteredExample).Reevaluated reflectorIp
      (((rejectedRunExample.foldl handleServerOp filteredExample).peers.lookup reflectorIp).getD .new) [] [roaExample 65001] ∧
    Permits handleServerOp (fun server op => server.sourcedBySession op = true) startExample loopedRunExample ∧
    ¬ (loopedRunExample.foldl handleServerOp startExample).Reevaluated reflectorIp
      (((loopedRunExample.foldl handleServerOp startExample).peers.lookup reflectorIp).getD .new) [roaExample 65001] [] := by
  refine ⟨⟨startExample_started.locRib, startExample_started.peers⟩, ⟨rfl, rfl, rfl, rfl, by decide +kernel, trivial⟩,
    not_reevaluated_of_length _ _ _ _ _ (.v4 ⟨0x0A010000, 16⟩) (by decide +kernel),
    ⟨rfl, rfl, rfl, rfl, by decide +kernel, trivial⟩,
    not_reevaluated_of_length _ _ _ _ _ (.v4 ⟨0x0A010000, 16⟩) (by decide +kernel)⟩

end BgpServer

end Bgpgg.Server
