import Bgpgg.Server.Received

namespace Bgpgg.Server

open Net Wire Rib List PendingRoute

section

variable (table : AdjRibIn) (entry : RouteKey × Option UInt32) (routes : List PendingRoute)

def storeRoute : PendingRoute → AdjRibIn
  | .announce key path => AdjRibIn.addRoute table key path
  | .withdraw key remotePathId => AdjRibIn.removeRoute table key remotePathId

def entryOf : PendingRoute → RouteKey × Option UInt32
  | .announce key path => (key, path.remotePathId)
  | .withdraw key remotePathId => (key, remotePathId)

def leaves : PendingRoute → Option Path
  | .announce _ path => some path
  | .withdraw _ _ => none

def pathAt : Option Path := (AdjRibIn.paths table entry.1).find? fun path => path.remotePathId = entry.2

def named : List PendingRoute := routes.filter fun route => entryOf route = entry

-- An entry that the batch announces is announced by the last route for it.
def AnnouncedLast : Prop := ∀ route ∈ routes, (leaves route).isSome → ((named (entryOf route) routes).getLast?.bind leaves).isSome

end

instance (routes : List PendingRoute) : Decidable (AnnouncedLast routes) := inferInstanceAs (Decidable (∀ route ∈ routes, _ → _))

section

variable (table : AdjRibIn) (routes : List PendingRoute) (entry : RouteKey × Option UInt32)

theorem find_replacePath (path : Path) (existing : List Path) (remotePathId : Option UInt32) :
    (AdjRibIn.replacePath path existing).find? (fun stored => stored.remotePathId = remotePathId) =
      if remotePathId = path.remotePathId then some path
      else existing.find? fun stored => stored.remotePathId = remotePathId := by
  induction existing with
  | nil => simp [AdjRibIn.replacePath, eq_comm]
  | cons first rest ih =>
    by_cases same : first.remotePathId = path.remotePathId
    · by_cases asked : remotePathId = path.remotePathId
      · simp [AdjRibIn.replacePath, same, asked]
      · simp [AdjRibIn.replacePath, same, asked, Ne.symm asked]
    · rw [AdjRibIn.replacePath, if_neg same, find?_cons, ih, find?_cons]
      by_cases asked : remotePathId = path.remotePathId
      · simp [asked, same]
      · simp [asked]

theorem find_kept (existing : List Path) (removed remotePathId : Option UInt32) :
    (existing.filter fun path => path.remotePathId != removed).find? (fun stored => stored.remotePathId = remotePathId) =
      if remotePathId = removed then none else existing.find? fun stored => stored.remotePathId = remotePathId := by
  rw [find?_filter]
  by_cases same : remotePathId = removed
  · subst same
    simp
  · rw [if_neg same]
    congr 1
    funext stored
    by_cases asked : stored.remotePathId = remotePathId
    · simp [asked, same]
    · simp [asked]

theorem pathAt_storeRoute (route : PendingRoute) :
    pathAt (storeRoute table route) entry = if entryOf route = entry then leaves route else pathAt table entry := by
  obtain ⟨key, remotePathId⟩ := entry
  cases route with
  | announce other path =>
    rw [storeRoute, pathAt, AdjRibIn.paths_addRoute]
    by_cases here : key = other
    · subst here
      simp only [if_true, find_replacePath, entryOf, leaves, pathAt, Prod.mk.injEq]
      simp [eq_comm]
    · simp [here, entryOf, pathAt, Ne.symm here]
  | withdraw other removed =>
    rw [storeRoute, pathAt, AdjRibIn.paths_removeRoute]
    by_cases here : key = other
    · subst here
      simp only [if_true, find_kept, entryOf, leaves, pathAt, Prod.mk.injEq]
      simp [eq_comm]
    · simp [here, entryOf, pathAt, Ne.symm here]

theorem pathAt_foldl :
    pathAt (routes.foldl storeRoute table) entry = ((named entry routes).getLast?.map leaves).getD (pathAt table entry) := by
  induction routes using reverseRecOn with
  | nil => rfl
  | append_singleton before route ih =>
    rw [foldl_concat, pathAt_storeRoute, ih, named, named]
    by_cases same : entryOf route = entry <;> simp [same]

theorem storeUnprocessed_eq : storeUnprocessed table routes = (routes.filter (fun route => (leaves route).isNone) ++
      routes.filter fun route => (leaves route).isSome).foldl storeRoute table := by
  rw [storeUnprocessed, announcedOf, withdrawnOf, foldl_filterMap, foldl_filterMap, foldl_append, foldl_filter, foldl_filter]
  congr 1
  · funext table route
    cases route <;> rfl
  · congr 1
    funext table route
    cases route <;> rfl

theorem getLast_announced {routes : List PendingRoute} {last : PendingRoute} (atEnd : routes.getLast? = some last)
    (announces : (leaves last).isSome) : (routes.filter fun route => (leaves route).isSome).getLast? = some last := by
  obtain ⟨before, rfl⟩ := getLast?_eq_some_iff.mp atEnd
  simp [announces]

-- Withdrawals first gives the same where the last route is an announcement, or none is.
theorem pathAt_stored_iff : pathAt (storeUnprocessed table routes) entry = pathAt (routes.foldl storeRoute table) entry ↔
      ((∃ route ∈ named entry routes, (leaves route).isSome) → ((named entry routes).getLast?.bind leaves).isSome) := by
  have parts : ∀ holds : PendingRoute → Bool, named entry (routes.filter holds) = (named entry routes).filter holds := by
    intro holds
    rw [named, named, filter_comm]
  rw [storeUnprocessed_eq, pathAt_foldl, pathAt_foldl, named, filter_append, ← named, ← named, parts, parts, getLast?_append]
  generalize named entry routes = mine
  cases atEnd : mine.getLast? with
  | none => simp [getLast?_eq_none_iff.mp atEnd]
  | some last =>
    cases left : leaves last with
    | some path =>
      rw [getLast_announced atEnd (by rw [left]; rfl)]
      simp [left]
    | none =>
      cases announced : (mine.filter fun route => (leaves route).isSome).getLast? with
      | none =>
        have silent := filter_eq_nil_iff.mp (getLast?_eq_none_iff.mp announced)
        have all : (mine.filter fun route => (leaves route).isNone) = mine := by
          refine filter_eq_self.mpr fun route member => ?_
          simpa using silent route member
        rw [all, atEnd]
        simpa [left] using silent
      | some route =>
        obtain ⟨member, announces⟩ := mem_filter.mp (mem_of_getLast? announced)
        obtain ⟨path, stored⟩ := Option.isSome_iff_exists.mp announces
        simp only [Option.some_or, Option.map_some, Option.getD_some, stored, left, reduceCtorEq, Option.bind_some,
          Option.isSome_none, false_iff, not_forall]
        exact ⟨⟨route, member, announces⟩, not_false⟩

theorem stored_in_order_iff : (∀ entry, pathAt (storeUnprocessed table routes) entry = pathAt (routes.foldl storeRoute table) entry) ↔
      AnnouncedLast routes := by
  simp only [pathAt_stored_iff]
  constructor
  · intro all route member announces
    refine all (entryOf route) ⟨route, mem_filter.mpr ⟨member, decide_eq_true rfl⟩, announces⟩
  · rintro last entry ⟨route, member, announces⟩
    obtain ⟨listed, same⟩ := mem_filter.mp member
    rw [← of_decide_eq_true same]
    exact last route listed announces

end

theorem screenBatch_keys (checks : ImportChecks) (routes : List PendingRoute) :
    (screenBatch checks routes).map routeKey = routes.map routeKey := by
  have rejected : (rejectAnnouncements routes).map routeKey = routes.map routeKey := by
    rw [rejectAnnouncements, map_map]
    exact map_congr_left fun route _ => by cases route <;> rfl
  have scrubbed : ∀ checked : List PendingRoute, (checked.map scrubEbgpPendingRoute).map routeKey = checked.map routeKey := by
    intro checked
    rw [map_map]
    exact map_congr_left fun route _ => by cases route <;> rfl
  simp only [screenBatch, apply_ite (List.map routeKey), scrubbed, ite_self]
  split
  · split
    · exact rejected
    · rfl
  · rfl

namespace BgpServer

section

variable {server : BgpServer} {peerIp : IpAddr} {peer : PeerInfo} {peerAsn : UInt32} {routes : List PendingRoute}

theorem checkMaxPrefix_within {checks : ImportChecks} {table : AdjRibIn} {peerCfg : PeerConfig}
    (within : ∀ family ∈ familiesInUpdate routes, exceededAction peerCfg table family = none) :
    checkMaxPrefix peerCfg table (screenBatch checks routes) ≠ none := by
  have families : familiesInUpdate (screenBatch checks routes) = familiesInUpdate routes := by
    have keys := congrArg (List.map RouteKey.afiSafi) (screenBatch_keys checks routes)
    rw [map_map, map_map] at keys
    exact congrArg dedup keys
  unfold checkMaxPrefix
  rw [families]
  dsimp only
  rw [if_neg]
  · exact Option.some_ne_none _
  · intro exceeded
    obtain ⟨family, listed, exceeds⟩ := any_eq_true.mp exceeded
    rw [within family listed] at exceeds
    cases exceeds

theorem received_negotiated (negotiated : ∀ routePath ∈ announcedOf routes, routePath.key.afiSafi ∈ peer.conn.negotiatedAfiSafis) :
    peer.received routes = storeUnprocessed peer.adjRibIn routes := by
  have kept : drainedFamily peer (announcedOf routes) = none := by
    rw [drainedFamily, Option.filter_eq_none_iff]
    intro family found
    obtain ⟨routePath, member, rfl⟩ := mem_map.mp (mem_of_find?_eq_some found)
    have refused : ¬ peer.AcceptsFamily routePath.key.afiSafi := by simpa using find?_some found
    by_contra enabled
    exact refused ⟨by simpa using enabled, .inr (negotiated routePath member)⟩
  rw [PeerInfo.received, kept]
  rfl

theorem adjRibInOf_update (session : server.InSession peerIp peer peerAsn)
    (negotiated : ∀ routePath ∈ announcedOf routes, routePath.key.afiSafi ∈ peer.conn.negotiatedAfiSafis)
    (within : ∀ family ∈ familiesInUpdate routes,
      exceededAction (server.peerCfgOf peerIp) (storeUnprocessed peer.adjRibIn routes) family = none) :
    (server.handlePeerUpdate peerIp routes).adjRibInOf peerIp = storeUnprocessed peer.adjRibIn routes := by
  have current : peer.establishedConn.bind ConnectionState.asn = some peerAsn := by
    simp [PeerInfo.establishedConn, session.established, session.asn]
  have table : (validateAfiSafi (peer.storeRoutes routes) peer.conn.negotiatedAfiSafis (announcedOf routes)).1.adjRibIn =
      storeUnprocessed peer.adjRibIn routes :=
    (validateAfiSafi_adjRibIn (peer.storeRoutes routes) (announcedOf routes)).trans (received_negotiated negotiated)
  simp only [handlePeerUpdate, session.found, current]
  split
  · rw [adjRibInOf_setPeer, if_pos rfl, table]
  · split
    · rename_i exceeded
      rw [table] at exceeded
      exact absurd exceeded (checkMaxPrefix_within within)
    · rw [adjRibInOf_commit, adjRibInOf_setPeer, if_pos rfl, table]

-- A batch is stored as if its routes came one by one exactly if no entry is announced and
-- then withdrawn for good.
theorem batch_stored_in_order_iff (session : server.InSession peerIp peer peerAsn)
    (negotiated : ∀ routePath ∈ announcedOf routes, routePath.key.afiSafi ∈ peer.conn.negotiatedAfiSafis)
    (within : ∀ family ∈ familiesInUpdate routes,
      exceededAction (server.peerCfgOf peerIp) (storeUnprocessed peer.adjRibIn routes) family = none) :
    (∀ entry, pathAt ((server.handlePeerUpdate peerIp routes).adjRibInOf peerIp) entry =
        pathAt (routes.foldl storeRoute peer.adjRibIn) entry) ↔ AnnouncedLast routes := by
  rw [adjRibInOf_update session negotiated within]
  exact stored_in_order_iff peer.adjRibIn routes

end

def sessionExample : BgpServer := establishExample.foldl handleServerOp startExample

def peerExample : PeerInfo := (sessionExample.peers.lookup reflectorIp).getD .new

theorem inSession_example : sessionExample.InSession reflectorIp peerExample 65000 := by
  refine ⟨?_, by decide +kernel, by decide +kernel⟩
  rfl

theorem replaced_in_order : pathAt ((sessionExample.handlePeerUpdate reflectorIp
        [.withdraw (.pfx (.v4 ⟨0x0A010000, 16⟩)) none, receivedExample ⟨0x0A010000, 16⟩ []]).adjRibInOf reflectorIp)
        (.pfx (.v4 ⟨0x0A010000, 16⟩), none) =
      pathAt ([.withdraw (.pfx (.v4 ⟨0x0A010000, 16⟩)) none, receivedExample ⟨0x0A010000, 16⟩ []].foldl storeRoute
        peerExample.adjRibIn) (.pfx (.v4 ⟨0x0A010000, 16⟩), none) :=
  (batch_stored_in_order_iff inSession_example (by decide +kernel) (by decide +kernel)).mpr (by decide +kernel) _

-- Announced and withdrawn again in one batch: the announcement is stored last.
theorem withdrawn_route_is_kept : let batch := [receivedExample ⟨0x0A010000, 16⟩ [], .withdraw (.pfx (.v4 ⟨0x0A010000, 16⟩)) none]
    (∀ routePath ∈ announcedOf batch, routePath.key.afiSafi ∈ peerExample.conn.negotiatedAfiSafis) ∧ (∀ family ∈ familiesInUpdate batch,
      exceededAction (sessionExample.peerCfgOf reflectorIp) (storeUnprocessed peerExample.adjRibIn batch) family = none) ∧
    pathAt ((sessionExample.handlePeerUpdate reflectorIp batch).adjRibInOf reflectorIp) (.pfx (.v4 ⟨0x0A010000, 16⟩), none) ≠
      pathAt (batch.foldl storeRoute peerExample.adjRibIn) (.pfx (.v4 ⟨0x0A010000, 16⟩), none) := by
  decide +kernel

end BgpServer

end Bgpgg.Server
