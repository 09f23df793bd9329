import Bgpgg.Rib.StaleSweep
import Bgpgg.Server.Retained

namespace Bgpgg.Server

open Net Wire Lib Rib Peer Rpki LocRib BgpServer List

inductive Event where
  | marked (peerIp : IpAddr) (afiSafi : AfiSafi)
  | received (peerIp : IpAddr) (routes : List PendingRoute)

def announcesTo (key : RouteKey) (remotePathId : Option UInt32) : PendingRoute → Bool
  | .announce announced path => announced == key && path.remotePathId == remotePathId
  | .withdraw _ _ => false

-- Whether the peer announced the key and identifier since its paths under the key were last
-- marked stale. The history starts with the latest event.
def announcedSince (peerIp : IpAddr) (key : RouteKey) (remotePathId : Option UInt32) : List Event → Bool
  | [] => false
  | .marked marked afiSafi :: earlier =>
    if marked = peerIp ∧ LocRib.familyHolds afiSafi key = true then false
    else announcedSince peerIp key remotePathId earlier
  | .received sender routes :: earlier =>
    sender == peerIp && routes.any (announcesTo key remotePathId) || announcedSince peerIp key remotePathId earlier

def markOf : LocRib.Op → Option Event
  | .markPeerRoutesStale peerIp afiSafi => some (.marked peerIp afiSafi)
  | _ => none

structure Traced where
  server : BgpServer
  history : List Event

namespace Traced

def eventsOf (server : BgpServer) (op : ServerOp) : List Event := match op with
  | .peerUpdate peerIp routes => [.received peerIp routes]
  | op => (server.ribOps op).filterMap markOf

def step (traced : Traced) (op : ServerOp) : Traced := ⟨traced.server.handleServerOp op, eventsOf traced.server op ++ traced.history⟩

-- Each path of a peer that is not stale was announced since the last mark, and the tables the
-- sweep and the re-evaluation rely on are in order.
structure Settled (traced : Traced) : Prop where
  announced : ∀ peerIp key slot, slot.1.peerIp = some peerIp → traced.server.locRib.Live key slot →
    announcedSince peerIp key slot.2 traced.history = true
  keyed : traced.server.locRib.Keyed
  sourced : traced.server.AdjRibsSourced

-- What a VRP update takes again from an adj-rib-in was announced since the last mark, and the
-- Loc-RIB holds no stale path in its place.
def Current (traced : Traced) : ServerOp → Prop
  | .vrpUpdate added removed => ∀ peerIp peer, traced.server.peers.lookup peerIp = some peer →
      ∀ net ∈ traced.server.locRib.affectedPrefixes added removed, ∀ path ∈ AdjRibIn.paths peer.adjRibIn (.pfx net),
        announcedSince peerIp (.pfx net) path.remotePathId traced.history = true ∧
        ∀ stored ∈ traced.server.locRib.getAllPaths (.pfx net), LocRib.slotOf stored.value = LocRib.slotOf path →
          stored.value.stale = false
  | _ => True

theorem announcedSince_unmarked {peerIp : IpAddr} {key : RouteKey} (remotePathId : Option UInt32)
    {ops : List LocRib.Op} {slot : LocRib.Slot} (mine : slot.1.peerIp = some peerIp)
    (unmarked : ∀ op ∈ ops, ¬ op.Marks key slot) (history : List Event) :
    announcedSince peerIp key remotePathId (ops.filterMap markOf ++ history) = announcedSince peerIp key remotePathId history := by
  induction ops with
  | nil => rfl
  | cons op rest ih =>
    have later := ih fun other member => unmarked other (mem_cons_of_mem _ member)
    have own := unmarked op mem_cons_self
    cases op with
    | markPeerRoutesStale marked afiSafi =>
      have missed : ¬ (marked = peerIp ∧ familyHolds afiSafi key = true) := by
        rintro ⟨rfl, held⟩
        exact own ⟨mine, held⟩
      simp [markOf, announcedSince, if_neg missed, later]
    | _ => simpa only [filterMap_cons, markOf] using later

theorem announcedSince_received {peerIp : IpAddr} (sender : IpAddr) {key : RouteKey} {remotePathId : Option UInt32}
    (routes : List PendingRoute) {history : List Event} (before : announcedSince peerIp key remotePathId history = true) :
    announcedSince peerIp key remotePathId (.received sender routes :: history) = true := by
  rw [announcedSince, before, Bool.or_true]

theorem announcedSince_here (peerIp : IpAddr) {key : RouteKey} {path : Path} {routes : List PendingRoute}
    (history : List Event) (member : .announce key path ∈ routes) :
    announcedSince peerIp key path.remotePathId (.received peerIp routes :: history) = true := by
  have listed : routes.any (announcesTo key path.remotePathId) = true := any_eq_true.mpr ⟨_, member, by simp [announcesTo]⟩
  rw [announcedSince, listed, beq_self_eq_true]
  rfl

section

variable {traced : Traced}

variable (server : BgpServer) (op : ServerOp)

section

variable (notUpdate : ∀ peerIp routes, op ≠ .peerUpdate peerIp routes)

include notUpdate

theorem quiet_unmarked {peerIp : IpAddr} (key : RouteKey) (slot : LocRib.Slot) (mine : slot.1.peerIp = some peerIp)
    (live : (server.handleServerOp op).locRib.Live key slot) : ∀ ribOp ∈ server.ribOps op, ¬ ribOp.Marks key slot := by
  by_cases vrps : ∃ added removed, op = .vrpUpdate added removed
  · obtain ⟨added, removed, rfl⟩ := vrps
    intro ribOp member
    obtain ⟨sender, peer, found, rfl⟩ := server.mem_vrpOps added removed ribOp member
    exact id
  · have notVrp : ∀ added removed, op ≠ .vrpUpdate added removed := fun added removed same => vrps ⟨added, removed, same⟩
    have silent := quiet_silent server op notUpdate notVrp key slot
    rw [(server.handleServerOp_ribOps op).1] at live
    exact foldl_step_unmarked _ (fun ribOp member => (silent ribOp member).1) (not_local mine)
      (fun ribOp member => (silent ribOp member).2) live

theorem eventsOf_quiet : eventsOf server op = (server.ribOps op).filterMap markOf := by
  cases op with
  | peerUpdate peerIp routes => exact absurd rfl (notUpdate peerIp routes)
  | _ => rfl

end

theorem step_announced (settled : traced.Settled) (op : ServerOp)
    (sourced : traced.server.sourcedBySession op = true) (current : traced.Current op) (peerIp : IpAddr) (key : RouteKey)
    (slot : LocRib.Slot) (mine : slot.1.peerIp = some peerIp) (live : (traced.step op).server.locRib.Live key slot) :
    announcedSince peerIp key slot.2 (traced.step op).history = true := by
  by_cases update : ∃ sender routes, op = .peerUpdate sender routes
  · obtain ⟨sender, routes, rfl⟩ := update
    cases update_live sourced mine live with
    | inl before => exact announcedSince_received _ _ (settled.announced peerIp key slot mine before)
    | inr announced =>
      obtain ⟨rfl, path, listed, rfl⟩ := announced
      exact announcedSince_here sender _ listed
  · have notUpdate : ∀ sender routes, op ≠ .peerUpdate sender routes := fun sender routes same =>
      update ⟨sender, routes, same⟩
    rw [step, eventsOf_quiet traced.server op notUpdate, announcedSince_unmarked slot.2 mine
      (quiet_unmarked traced.server op notUpdate key slot mine live)]
    by_cases vrps : ∃ added removed, op = .vrpUpdate added removed
    · obtain ⟨added, removed, rfl⟩ := vrps
      cases vrp_live mine settled.sourced live with
      | inl before => exact settled.announced peerIp key slot mine before
      | inr again =>
        obtain ⟨net, affected, rfl, path, stored, rfl⟩ := again
        cases found : traced.server.peers.lookup peerIp with
        | none => simp [adjRibInOf, found, AdjRibIn.paths] at stored
        | some peer =>
          rw [traced.server.adjRibInOf_found peerIp peer found] at stored
          exact (current peerIp peer found net affected path stored).1
    · refine settled.announced peerIp key slot mine (quiet_live op notUpdate ?_ key slot mine live)
      exact fun added removed same => vrps ⟨added, removed, same⟩

theorem step_settled (settled : traced.Settled) (op : ServerOp) (sourced : traced.server.sourcedBySession op = true)
    (current : traced.Current op) : (traced.step op).Settled := by
  refine ⟨step_announced settled op sourced current, ?_, handleServerOp_adjRibsSourced settled.sourced op sourced⟩
  have moved := (traced.server.handleServerOp_ribOps op).1
  exact moved.symm ▸ keyed_stable.steps settled.keyed _

def sweepOf : ServerOp → Option (IpAddr × AfiSafi)
  | .routeRefreshEoRR peerIp afiSafi => some (peerIp, afiSafi)
  | .gracefulRestartComplete peerIp afiSafi => some (peerIp, afiSafi)
  | .llgrTimerExpired peerIp afiSafi => some (peerIp, afiSafi)
  | .enhancedRrStaleTimerExpired peerIp afiSafi => some (peerIp, afiSafi)
  | _ => none

theorem sweepOf_ribOps (peerIp : IpAddr) (afiSafi : AfiSafi)
    (sweeps : sweepOf op = some (peerIp, afiSafi)) : server.ribOps op = [.removePeerRoutesStale peerIp [afiSafi]] := by
  cases op <;> first | cases sweeps; rfl | cases sweeps

theorem sweep_leaves_announced (settled : traced.Settled) (op : ServerOp)
    (sourced : traced.server.sourcedBySession op = true) (current : traced.Current op) (peerIp : IpAddr) (afiSafi : AfiSafi)
    (sweeps : sweepOf op = some (peerIp, afiSafi)) (key : RouteKey) (held : familyHolds afiSafi key = true)
    (path : Arc Path) (member : path ∈ (traced.step op).server.locRib.getAllPaths key) (mine : path.value.isFromPeer peerIp = true) :
    announcedSince peerIp key path.value.remotePathId (traced.step op).history = true := by
  have moved := (traced.server.handleServerOp_ribOps op).1
  rw [sweepOf_ribOps traced.server op peerIp afiSafi sweeps] at moved
  have fresh := removePeerRoutesStale_fresh peerIp afiSafi key settled.keyed held
  have listed : path ∈ (traced.server.locRib.removePeerRoutesStale peerIp [afiSafi]).1.getAllPaths key := by
    have swept : (traced.step op).server.locRib = (traced.server.locRib.removePeerRoutesStale peerIp [afiSafi]).1 := moved
    rwa [swept] at member
  have notStale : path.value.stale = false := by simpa [isStaleOf, mine] using fresh path listed
  exact step_announced settled op sourced current peerIp key (slotOf path.value)
    (by simpa [Path.isFromPeer, slotOf] using mine) ⟨path, member, rfl, notStale⟩

def StaleSlot (rib : LocRib BitmapPathIdAllocator) (key : RouteKey) (slot : LocRib.Slot) : Prop :=
  (∃ path ∈ rib.getAllPaths key, LocRib.slotOf path.value = slot) ∧ ¬ rib.Live key slot

theorem stale_cleared_by_announcement (settled : traced.Settled) {op : ServerOp}
    (sourced : traced.server.sourcedBySession op = true) (current : traced.Current op) {peerIp : IpAddr} {key : RouteKey}
    {slot : LocRib.Slot} (mine : slot.1.peerIp = some peerIp) (stale : StaleSlot traced.server.locRib key slot)
    (live : (traced.step op).server.locRib.Live key slot) :
    ∃ routes, op = .peerUpdate peerIp routes ∧ ∃ path, .announce key path ∈ routes ∧ slotOf path = slot := by
  by_cases update : ∃ sender routes, op = .peerUpdate sender routes
  · obtain ⟨sender, routes, rfl⟩ := update
    obtain ⟨rfl, announced⟩ := (update_live sourced mine live).resolve_left stale.2
    exact ⟨routes, rfl, announced⟩
  · exfalso
    have notUpdate : ∀ sender routes, op ≠ .peerUpdate sender routes := fun sender routes same =>
      update ⟨sender, routes, same⟩
    by_cases vrps : ∃ added removed, op = .vrpUpdate added removed
    · obtain ⟨added, removed, rfl⟩ := vrps
      obtain ⟨net, affected, rfl, path, stored, rfl⟩ := (vrp_live mine settled.sourced live).resolve_left stale.2
      cases found : traced.server.peers.lookup peerIp with
      | none => simp [adjRibInOf, found, AdjRibIn.paths] at stored
      | some peer =>
        rw [traced.server.adjRibInOf_found peerIp peer found] at stored
        obtain ⟨old, listed, same⟩ := stale.1
        have notStale := (current peerIp peer found net affected path stored).2 old listed same
        exact stale.2 ⟨old, listed, same, notStale⟩
    · refine stale.2 (quiet_live op notUpdate ?_ key slot mine live)
      exact fun added removed same => vrps ⟨added, removed, same⟩

end

theorem started_settled {start : BgpServer} (started : start.Started) : Settled ⟨start, []⟩ := by
  obtain ⟨config, empty⟩ := started.locRib
  refine ⟨fun peerIp key slot _ live => ?_, ?_, started.retained.2⟩
  · obtain ⟨path, member, -⟩ := live
    simp [empty, getAllPaths, getRoute_new] at member
  · simp only [empty]
    exact new_keyed config

-- The operation keeps graceful restart safe in this state: what it leaves behind when it is a
-- sweep was announced since the last mark, and only an announcement clears a stale flag.
structure RestartSafe (traced : Traced) (op : ServerOp) : Prop where
  swept : ∀ peerIp afiSafi, sweepOf op = some (peerIp, afiSafi) → ∀ key, LocRib.familyHolds afiSafi key = true →
    ∀ path ∈ (traced.step op).server.locRib.getAllPaths key, path.value.isFromPeer peerIp = true →
      announcedSince peerIp key path.value.remotePathId (traced.step op).history = true
  cleared : ∀ peerIp key slot, slot.1.peerIp = some peerIp → StaleSlot traced.server.locRib key slot →
    (traced.step op).server.locRib.Live key slot →
      ∃ routes, op = .peerUpdate peerIp routes ∧ ∃ path, .announce key path ∈ routes ∧ LocRib.slotOf path = slot

-- In every run whose re-evaluations are current, each further such operation is safe.
theorem restart_safe_in_current_runs (start : BgpServer) (started : start.Started) (final : Traced)
    (run : Reaches step (fun traced op => traced.server.sourcedBySession op = true ∧ traced.Current op) ⟨start, []⟩ final)
    (op : ServerOp) (sourced : final.server.sourcedBySession op = true) (current : final.Current op) :
    final.RestartSafe op := by
  have settled := run.invariant Settled (started_settled started)
    fun traced op holds permitted => step_settled holds op permitted.1 permitted.2
  exact ⟨fun peerIp afiSafi sweeps key held path member mine =>
      sweep_leaves_announced settled op sourced current peerIp afiSafi sweeps key held path member mine,
    fun peerIp key slot mine stale live => stale_cleared_by_announcement settled sourced current mine stale live⟩

theorem current_of_entries {traced : Traced} {added removed : List Vrp} (checked : (traced.server.peers.entries.all fun entry =>
      (traced.server.locRib.affectedPrefixes added removed).all fun net =>
        (AdjRibIn.paths entry.2.adjRibIn (.pfx net)).all fun path =>
          announcedSince entry.1 (.pfx net) path.remotePathId traced.history &&
            (traced.server.locRib.getAllPaths (.pfx net)).all fun stored =>
              slotOf stored.value != slotOf path || !stored.value.stale) = true) :
    traced.Current (.vrpUpdate added removed) := by
  intro peerIp peer found net affected path member
  simp only [all_eq_true] at checked
  have both := checked ⟨peerIp, peer⟩ (AList.mem_lookup_iff.mp found) net affected path member
  rw [Bool.and_eq_true, all_eq_true] at both
  refine ⟨both.1, fun stored listed same => ?_⟩
  simpa [same] using both.2 stored listed

def ipv4Family : AfiSafi := ⟨.ipv4, .unicast⟩

def restartExample : List ServerOp := [.peerDisconnected BgpServer.reflectorIp [ipv4Family],
    .peerHandshakeComplete BgpServer.reflectorIp 65000,
    .peerConnectionInfo BgpServer.reflectorIp 0x0A000002 ⟨.v4 0x0A000001, none⟩
      ⟨[ipv4Family], false, some 65000, some ⟨[(ipv4Family, true)]⟩, none, none⟩,
    .peerStateChanged BgpServer.reflectorIp .established]

def announceExample (net : Ipv4Net) : ServerOp := .peerUpdate BgpServer.reflectorIp [BgpServer.receivedExample net []]

def vrpExample (net : Ipv4Net) : ServerOp := .vrpUpdate [⟨.v4 net, 16, 65001⟩] []

def currentRunExample : List ServerOp :=
  BgpServer.establishExample ++ [announceExample ⟨0x0A010000, 16⟩, announceExample ⟨0x0A020000, 16⟩] ++
    restartExample ++ [announceExample ⟨0x0A010000, 16⟩, vrpExample ⟨0x0A010000, 16⟩]

def completeExample : ServerOp := .gracefulRestartComplete BgpServer.reflectorIp ipv4Family

def tracedExample : Traced := ⟨BgpServer.startExample, []⟩

theorem restart_safe_after_reannouncement : (currentRunExample.foldl step tracedExample).RestartSafe completeExample := by
  refine restart_safe_in_current_runs _ startExample_started _ (Reaches.of_permits _ _ ?_) _ rfl trivial
  refine ⟨⟨rfl, trivial⟩, ⟨rfl, trivial⟩, ⟨rfl, trivial⟩, ⟨by decide +kernel, trivial⟩, ⟨by decide +kernel, trivial⟩,
    ⟨rfl, trivial⟩, ⟨rfl, trivial⟩, ⟨rfl, trivial⟩, ⟨rfl, trivial⟩, ⟨by decide +kernel, trivial⟩,
    ⟨rfl, current_of_entries (by decide +kernel)⟩, trivial⟩

-- A VRP update between the disconnection and the sweep takes the old route again from the
-- adj-rib-in, so the sweep leaves a path that the peer has not announced since.
def vrpRestartExample : List ServerOp :=
  BgpServer.establishExample ++ [announceExample ⟨0x0A010000, 16⟩] ++ restartExample ++ [vrpExample ⟨0x0A010000, 16⟩]

theorem vrp_update_clears_stale_flag : BgpServer.startExample.Started ∧
    Permits step (fun traced op => traced.server.sourcedBySession op = true) tracedExample vrpRestartExample ∧
    ¬ (vrpRestartExample.foldl step tracedExample).RestartSafe completeExample := by
  refine ⟨startExample_started, ⟨rfl, rfl, rfl, by decide +kernel, rfl, rfl, rfl, rfl, rfl, trivial⟩, ?_⟩
  intro safe
  have left : (((vrpRestartExample.foldl step tracedExample).step completeExample).server.locRib.getAllPaths
      (.pfx (.v4 ⟨0x0A010000, 16⟩))).any (fun path => path.value.isFromPeer reflectorIp &&
        !announcedSince reflectorIp (.pfx (.v4 ⟨0x0A010000, 16⟩)) path.value.remotePathId
          ((vrpRestartExample.foldl step tracedExample).step completeExample).history) = true := by
    decide +kernel
  obtain ⟨path, member, facts⟩ := any_eq_true.mp left
  rw [Bool.and_eq_true, Bool.not_eq_true'] at facts
  have announced := safe.swept _ _ rfl (.pfx (.v4 ⟨0x0A010000, 16⟩)) rfl path member facts.1
  exact absurd (announced.symm.trans facts.2) Bool.noConfusion

end Traced

namespace BgpServer

-- What RFC 4724 asks for after a session went down with families to preserve.
structure RestartKept (server : BgpServer) (peerIp : IpAddr) (grAfiSafis : List AfiSafi) : Prop where
  paths : ∀ key, ∀ path ∈ server.locRib.getAllPaths key, path.value.isFromPeer peerIp = true →
    path.value.stale = true ∧ key.afiSafi ∈ grAfiSafis
  routes : ∀ peer, server.peers.lookup peerIp = some peer → ∀ key, AdjRibIn.paths peer.adjRibIn key ≠ [] → key.afiSafi ∈ grAfiSafis

theorem getAllPaths_foldl_mark (rib : LocRib BitmapPathIdAllocator) (peerIp : IpAddr) (grAfiSafis : List AfiSafi) (key : RouteKey) :
    (grAfiSafis.foldl (fun rib afiSafi => rib.markPeerRoutesStale peerIp afiSafi) rib).getAllPaths key =
      if grAfiSafis.any fun afiSafi => familyHolds afiSafi key then (markStale peerIp ⟨key, rib.getAllPaths key⟩).paths
      else rib.getAllPaths key := by
  induction grAfiSafis generalizing rib with
  | nil => rfl
  | cons first rest ih =>
    rw [foldl_cons, ih, getAllPaths_markPeerRoutesStale, any_cons]
    cases familyHolds first key with
    | false => simp
    | true =>
      split
      · simp only [markStale, if_true, map_map]
        refine map_congr_left fun path _ => ?_
        cases own : path.value.isFromPeer peerIp <;> simp_all [Path.isFromPeer]
      · rfl

theorem restart_keeps_listed_iff (server : BgpServer) (peerIp : IpAddr) (grAfiSafis : List AfiSafi) {peer : PeerInfo}
    (found : server.peers.lookup peerIp = some peer) (some : grAfiSafis ≠ []) :
    (server.handlePeerDisconnected peerIp grAfiSafis).RestartKept peerIp grAfiSafis ↔
      (∀ key, ∀ path ∈ server.locRib.getAllPaths key, path.value.isFromPeer peerIp = true → key.afiSafi ∈ grAfiSafis) ∧
        ∀ key, AdjRibIn.paths peer.adjRibIn key ≠ [] → key.afiSafi ∈ grAfiSafis := by
  rw [handlePeerDisconnected, found]
  simp only [List.isEmpty_iff, some, if_false]
  constructor
  · intro kept
    refine ⟨fun key path member own => ?_, ?_⟩
    on_goal 2 => exact fun key => kept.routes _ ((lookup_setPeer server peerIp peerIp _).trans (if_pos rfl)) key
    have stays : ∃ item ∈ (grAfiSafis.foldl (fun rib afiSafi => rib.markPeerRoutesStale peerIp afiSafi) server.locRib).getAllPaths key,
        item.value.isFromPeer peerIp = true := by
      rw [getAllPaths_foldl_mark]
      split
      · refine ⟨_, mem_map_of_mem member, ?_⟩
        rw [if_pos own]
        exact own
      · exact ⟨path, member, own⟩
    obtain ⟨item, inside, same⟩ := stays
    exact (kept.paths key item inside same).2
  · rintro ⟨listed, held⟩
    refine ⟨fun key path member own => ?_, fun after stored key there => ?_⟩
    · have inside : path ∈ (grAfiSafis.foldl (fun rib afiSafi => rib.markPeerRoutesStale peerIp afiSafi)
          server.locRib).getAllPaths key := member
      rw [getAllPaths_foldl_mark] at inside
      by_cases holds : (grAfiSafis.any fun afiSafi => familyHolds afiSafi key) = true
      · rw [if_pos holds, markStale, mem_map] at inside
        obtain ⟨old, there, rfl⟩ := inside
        split at own
        · rename_i mine
          rw [if_pos mine]
          exact ⟨rfl, listed key old there mine⟩
        · rename_i foreign
          exact absurd own foreign
      · rw [if_neg holds] at inside
        have family := listed key path inside own
        exact absurd (any_eq_true.mpr ⟨_, family, familyHolds_iff.mpr (.inl rfl)⟩) holds
    · rw [lookup_setPeer, if_pos rfl] at stored
      cases stored
      exact held key there

def announcedExample : BgpServer :=
  (establishExample ++ [Traced.announceExample ⟨0x0A010000, 16⟩]).foldl handleServerOp startExample

theorem restart_keeps_listed_route :
    (announcedExample.handlePeerDisconnected reflectorIp [⟨.ipv4, .unicast⟩]).RestartKept reflectorIp [⟨.ipv4, .unicast⟩] ∧
      ((announcedExample.handlePeerDisconnected reflectorIp [⟨.ipv4, .unicast⟩]).locRib.getAllPaths (.pfx (.v4 ⟨0x0A010000, 16⟩))).map
        (fun path => (path.value.isFromPeer reflectorIp, path.value.stale)) = [(true, true)] := by
  refine ⟨(restart_keeps_listed_iff announcedExample reflectorIp _ rfl (cons_ne_nil _ _)).mpr ⟨?_, ?_⟩, by decide +kernel⟩
  · intro key path member
    cases key with
    | pfx net =>
      cases net with
      | v4 net => exact fun _ => mem_cons_self
      | v6 net => cases member
    | linkState nlri => cases member
  · intro key held
    cases key with
    | pfx net =>
      cases net with
      | v4 net => exact mem_cons_self
      | v6 net => exact absurd rfl held
    | linkState nlri => exact absurd rfl held

theorem unlisted_family_stays_current : announcedExample.peers.lookup reflectorIp ≠ none ∧
      ((announcedExample.handlePeerDisconnected reflectorIp [⟨.ipv6, .unicast⟩]).locRib.getAllPaths
        (.pfx (.v4 ⟨0x0A010000, 16⟩))).map (fun path => (path.value.isFromPeer reflectorIp, path.value.stale)) = [(true, false)] := by
  decide +kernel

end BgpServer

end Bgpgg.Server
