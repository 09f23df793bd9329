import Bgpgg.Server.StaleSafety
import Bgpgg.Rib.PeerViews
import Bgpgg.Peer.OpenMessage

namespace Bgpgg.Server

open Net Lib Rib Peer LocRib List BgpServer

-- What the task of an Established peer receives, the moment when it passes on the routes it has
-- collected, and what the server does meanwhile for others. A route refresh that the negotiated
-- capabilities do not allow does nothing, like a KEEPALIVE.
inductive SessionEvent where
  | openReceived (message : OpenMessage)
  | updateReceived (routes : List PendingRoute)
  | endOfRib (afiSafi : AfiSafi)
  | routeRefresh (afiSafi : AfiSafi)
  | beginningOfRefresh (afiSafi : AfiSafi)
  | endOfRefresh (afiSafi : AfiSafi)
  | keepalive
  | flushPendingRoutes
  | serverOp (op : ServerOp)

structure SessionState where
  sessionType : SessionType
  peerIp : IpAddr
  rrClient : Bool
  bgpId : Ipv4Addr
  pendingRoutes : List PendingRoute
  server : BgpServer

def sourcedAs (source : RouteSource) : PendingRoute → PendingRoute
  | .announce key path => .announce key { path with attrs := { path.attrs with source := source } }
  | .withdraw key remotePathId => .withdraw key remotePathId

namespace SessionState

variable (state : SessionState)

def source : RouteSource := .fromSession state.sessionType state.peerIp state.bgpId state.rrClient

def send (op : ServerOp) : SessionState := { state with server := state.server.handleServerOp op }

def flush : SessionState := { state.send (.peerUpdate state.peerIp state.pendingRoutes) with pendingRoutes := [] }

-- The state machine ignores an OPEN in Established, after handle_message has stored its identifier.
def step : SessionEvent → SessionState
  | .openReceived message => { state with bgpId := message.bgpIdentifier.toBitVec }
  | .updateReceived routes => { state with pendingRoutes := state.pendingRoutes ++ routes.map (sourcedAs state.source) }
  | .endOfRib afiSafi => state.flush.send (.gracefulRestartComplete state.peerIp afiSafi)
  | .routeRefresh afiSafi => state.send (.routeRefresh state.peerIp afiSafi)
  | .beginningOfRefresh afiSafi => state.send (.routeRefreshBoRR state.peerIp afiSafi)
  | .endOfRefresh afiSafi => state.flush.send (.routeRefreshEoRR state.peerIp afiSafi)
  | .keepalive => state
  | .flushPendingRoutes => state.flush
  | .serverOp op => state.send op

-- The identifier stays, and no other task announces routes of the peer.
def KeepsId : SessionEvent → Prop
  | .openReceived message => message.bgpIdentifier.toBitVec = state.bgpId
  | .serverOp (.peerUpdate sender routes) => sender ≠ state.peerIp ∧
      ∀ key path, .announce key path ∈ routes → path.attrs.source.peerIp = some sender
  | _ => True

end SessionState

namespace SessionState

variable {state : SessionState}

def Sourced (state : SessionState) (sender : IpAddr) (source : RouteSource) : Prop :=
  source.peerIp = some sender ∧ (sender = state.peerIp → source = state.source)

structure Uniform (state : SessionState) : Prop where
  distinct : state.server.locRib.SlotsDistinct
  live : ∀ key slot, state.server.locRib.Live key slot → slot.1.peerIp = some state.peerIp → slot.1 = state.source
  stored : ∀ sender key, ∀ path ∈ AdjRibIn.paths (state.server.adjRibInOf sender) key, state.Sourced sender path.attrs.source
  pending : ∀ key path, .announce key path ∈ state.pendingRoutes → path.attrs.source = state.source

theorem source_peerIp (state : SessionState) : state.source.peerIp = some state.peerIp := by
  rw [source]
  cases state.sessionType <;> rfl

theorem Uniform.listed (uniform : state.Uniform) {op : ServerOp}
    (sourced : ∀ sender routes key path, op = .peerUpdate sender routes → .announce key path ∈ routes →
      state.Sourced sender path.attrs.source) {key : RouteKey} {slot : LocRib.Slot} (mine : slot.1.peerIp = some state.peerIp)
    (live : (state.server.handleServerOp op).locRib.Live key slot) : slot.1 = state.source := by
  have before : state.server.locRib.Live key slot → slot.1 = state.source := fun held => uniform.live key slot held mine
  by_cases update : ∃ sender routes, op = .peerUpdate sender routes
  · obtain ⟨sender, routes, rfl⟩ := update
    obtain held | ⟨-, path, announced, rfl⟩ := update_listed live
    · exact before held
    · obtain ⟨address, own⟩ := sourced sender routes key path rfl announced
      exact own (Option.some.inj (address.symm.trans mine))
  · by_cases vrps : ∃ added removed, op = .vrpUpdate added removed
    · obtain ⟨added, removed, rfl⟩ := vrps
      obtain held | ⟨net, -, -, path, again, rfl⟩ := vrp_live mine (fun sender key path member =>
        (uniform.stored sender key path member).1) live
      · exact before held
      · exact (uniform.stored state.peerIp key path again).2 rfl
    · exact before (quiet_live op (fun sender routes same => update ⟨sender, routes, same⟩)
        (fun added removed same => vrps ⟨added, removed, same⟩) key slot mine live)

theorem Uniform.send (uniform : state.Uniform) (op : ServerOp)
    (sourced : ∀ sender routes key path, op = .peerUpdate sender routes → .announce key path ∈ routes →
      state.Sourced sender path.attrs.source) : (state.send op).Uniform where
  distinct := (state.server.handleServerOp_ribOps op).1.symm ▸ slotsDistinct_stable.steps uniform.distinct _
  live := fun _ _ live mine => uniform.listed sourced mine live
  stored := by
    refine handleServerOp_adjRibs (fun sender table => ∀ key, ∀ path ∈ AdjRibIn.paths table key,
      state.Sourced sender path.attrs.source) ?_ op ?_ uniform.stored
    · intro sender key path member
      simp [AdjRibIn.paths] at member
    · intro sender routes peer peerAsn same session before key path member
      exact (mem_paths_received member).elim (sourced sender routes key path same) (before key path)
  pending := uniform.pending

theorem Uniform.quiet (uniform : state.Uniform) (op : ServerOp) (notUpdate : ∀ sender routes, op ≠ .peerUpdate sender routes) :
    (state.send op).Uniform :=
  uniform.send op fun sender routes _ _ same => absurd same (notUpdate sender routes)

theorem Uniform.flush (uniform : state.Uniform) : state.flush.Uniform := by
  have sent := uniform.send (.peerUpdate state.peerIp state.pendingRoutes) fun sender routes key path same announced => by
    cases same
    have own := uniform.pending key path announced
    exact ⟨own ▸ state.source_peerIp, fun _ => own⟩
  exact ⟨sent.distinct, sent.live, sent.stored, fun _ _ member => by cases member⟩

theorem Uniform.step (uniform : state.Uniform) (event : SessionEvent) (kept : state.KeepsId event) :
    (state.step event).Uniform ∧ (state.step event).peerIp = state.peerIp := by
  cases event with
  | openReceived message =>
    rw [SessionState.step, show message.bgpIdentifier.toBitVec = state.bgpId from kept]
    exact ⟨uniform, rfl⟩
  | updateReceived routes =>
    refine ⟨⟨uniform.distinct, uniform.live, uniform.stored, fun key path member => ?_⟩, rfl⟩
    obtain before | new := mem_append.mp member
    · exact uniform.pending key path before
    · obtain ⟨route, -, same⟩ := mem_map.mp new
      cases route <;> cases same
      rfl
  | endOfRib afiSafi | endOfRefresh afiSafi => exact ⟨uniform.flush.quiet _ fun _ _ => nofun, rfl⟩
  | routeRefresh afiSafi | beginningOfRefresh afiSafi => exact ⟨uniform.quiet _ fun _ _ => nofun, rfl⟩
  | keepalive => exact ⟨uniform, rfl⟩
  | flushPendingRoutes => exact ⟨uniform.flush, rfl⟩
  | serverOp op =>
    refine ⟨uniform.send op fun sender routes key path same announced => ?_, rfl⟩
    subst same
    exact ⟨kept.2 key path announced, fun mine => absurd mine kept.1⟩

def sessionExample (bgpId : Ipv4Addr) (before : List ServerOp) : SessionState :=
  ⟨.ibgp, reflectorIp, false, bgpId, [], (establishExample ++ before).foldl handleServerOp startExample⟩

end SessionState

end Bgpgg.Server
