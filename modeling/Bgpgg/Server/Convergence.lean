import Bgpgg.Rib.LsOccupancy
import Bgpgg.Server.LoopFree
import Bgpgg.Server.Resend

namespace Bgpgg.Server.BgpServer

open Net Lib Rib Peer Rpki LocRib List

section

variable (ctx : PeerExportContext) (server : BgpServer)

variable {rib : LocRib BitmapPathIdAllocator} {routes : List PendingRoute} {peerIp : IpAddr}

-- What every Established peer was sent is what the Loc-RIB selects for it now, key by key.
def Converged : Prop := ∀ peerIp peer ctx, server.peers.lookup peerIp = some peer → server.exportContextOf peerIp peer = some ctx →
    ∀ key, key.afiSafi ∈ ctx.afiSafis → Advertised ctx server.locRib peer.adjRibOut key

-- The order in which a peer task reports: the handshake and the connection come before the
-- Established state, and the loss of the session before any other state.
def inOrder : ServerOp → Bool
  | .peerStateChanged peerIp state => (server.peers.lookup peerIp).all fun peer =>
    peer.conn.state != .established && (state != .established || peer.conn.asn.isSome)
  | .peerHandshakeComplete peerIp _ => (server.peers.lookup peerIp).all fun peer => peer.conn.state != .established
  | .peerConnectionInfo peerIp _ _ _ => (server.peers.lookup peerIp).all fun peer => peer.conn.state != .established
  | _ => true

-- What a skipped peer is to be told of a delta does not hang on its keys.
def Unheard (peerIp : IpAddr) (delta : RouteDelta) : Prop :=
  ∀ peer ctx, server.peers.lookup peerIp = some peer → server.exportContextOf peerIp peer = some ctx →
    ∀ key, key ∈ routeKeysFor ctx delta key.afiSafi → spared ctx server.locRib key = true

-- The operations whose propagation skips a peer that may be Established.
def SkipHarmless : ServerOp → Prop
  | .peerUpdate peerIp routes => ∀ kept importPolicy, .applyPeerUpdate peerIp kept importPolicy ∈ server.updateOps peerIp routes →
      server.Unheard peerIp (server.locRib.applyPeerUpdate peerIp kept importPolicy).2
  | .routeRefreshEoRR peerIp afiSafi | .gracefulRestartComplete peerIp afiSafi | .llgrTimerExpired peerIp afiSafi
  | .enhancedRrStaleTimerExpired peerIp afiSafi => server.Unheard peerIp (server.locRib.removePeerRoutesStale peerIp [afiSafi]).2
  | .gracefulRestartTimerExpired peerIp llgrAfiSafis => server.Unheard peerIp (server.expireStale peerIp llgrAfiSafis).2
  | _ => True

-- The limit on link-state entries takes no key of the batch out of the delta that changes.
def RefusalsReported : ServerOp → Prop
  | .peerUpdate peerIp routes => ∀ kept importPolicy, .applyPeerUpdate peerIp kept importPolicy ∈ server.updateOps peerIp routes →
      LocRib.RefusalsHarmless server.locRib peerIp importPolicy kept
  | _ => True

def RoomFor (op : ServerOp) : Prop := Permits LocRib.step LocRib.Roomy server.locRib (server.ribOps op)

instance (server : BgpServer) (op : ServerOp) : Decidable (server.RoomFor op) := inferInstanceAs (Decidable (Permits _ _ _ _))

structure Harmless (server : BgpServer) (op : ServerOp) : Prop where
  room : server.RoomFor op
  reported : server.RefusalsReported op
  skipped : server.SkipHarmless op

structure Sound (server : BgpServer) : Prop where
  valid : server.locRib.Valid
  arcs : server.locRib.ArcsSound
  peers : server.PeersSound

theorem Sound.converged {server : BgpServer} (sound : server.Sound) : server.Converged :=
  fun peerIp peer ctx found context => (sound.peers peerIp peer found).advertises ctx context

theorem foldl_step_sound {ops : List LocRib.Op} (valid : rib.Valid) (arcs : rib.ArcsSound) (room : Permits step LocRib.Roomy rib ops) :
    (ops.foldl step rib).Valid ∧ (ops.foldl step rib).ArcsSound :=
  (Reaches.of_permits rib ops room).invariant (fun rib => rib.Valid ∧ rib.ArcsSound) ⟨valid, arcs⟩
    fun state op holds roomy => ⟨step_valid state op holds.1 roomy, arcsSound_stable.step holds.2 op⟩

theorem markPeerRoutesStale_exports (rib : LocRib BitmapPathIdAllocator) (peerIp : IpAddr) (afiSafi : AfiSafi) (key : RouteKey) :
    exportsOf ctx (rib.markPeerRoutesStale peerIp afiSafi) key = exportsOf ctx rib key := by
  rw [exportsOf, getAllPaths_markPeerRoutesStale]
  split
  · rw [markStale, map_map]
    refine map_congr_left fun path _ => ?_
    simp only [Function.comp_apply, exportRoutePath]
    split
    · exact congrArg _ (computeExportPath_withStale true key path.value ctx)
    · rfl
  · rfl

theorem screened_isFromPeer {server : BgpServer} {peer : PeerInfo} {peerAsn : UInt32} (session : server.InSession peerIp peer peerAsn)
    (sourced : server.sourcedBySession (.peerUpdate peerIp routes) = true) {key : RouteKey} {path : Path}
    (member : .announce key path ∈ screenBatch (server.sessionChecks peerIp peer peerAsn) routes) :
    path.isFromPeer peerIp = true := by
  obtain ⟨original, announced, -, rfl⟩ := mem_screenBatch _ routes key member
  have source := sourced_peerIp session sourced ((mem_announcedOf routes ⟨key, original⟩).mp announced)
  have kept : (if (server.sessionChecks peerIp peer peerAsn).isEbgp then scrubEbgpPath original else original).attrs.source =
      original.attrs.source := by
    split <;> rfl
  rw [Path.isFromPeer, kept, source]
  exact beq_self_eq_true _

theorem idle_not_established : ({} : ConnectionState).state ≠ .established := by decide

theorem relabel_peersSound {server : BgpServer} {next : LocRib BitmapPathIdAllocator} (sound : server.PeersSound)
    (same : ∀ ctx key, exportsOf ctx next key = exportsOf ctx server.locRib key) :
    ({ server with locRib := next } : BgpServer).PeersSound := by
  intro peerIp peer found
  have speaker : SameSpeaker server { server with locRib := next } := ⟨rfl, rfl⟩
  refine PeerSound.of_speaker ((sound peerIp peer found).of_selection fun ctx _ key _ routePath => ?_) speaker
  rw [selection_of_exports ctx server.locRib next key (same ctx key)]

theorem markAll_exports (peerIp : IpAddr) (afiSafis : List AfiSafi) (rib : LocRib BitmapPathIdAllocator) (key : RouteKey) :
    exportsOf ctx (afiSafis.foldl (fun rib afiSafi => rib.markPeerRoutesStale peerIp afiSafi) rib) key = exportsOf ctx rib key := by
  induction afiSafis generalizing rib with
  | nil => rfl
  | cons afiSafi rest ih => exact (ih _).trans (markPeerRoutesStale_exports ctx rib peerIp afiSafi key)

def OnlyPrefixes (routes : List PendingRoute) : Prop := ∀ nlri path, .announce (.linkState nlri) path ∉ routes

theorem refusalsHarmless_of_prefixes {importPolicy : ImportPolicy} (prefixes : OnlyPrefixes routes) :
    LocRib.RefusalsHarmless rib peerIp importPolicy routes := by
  rintro nlri ⟨done, announced, left, split, -⟩
  refine absurd ?_ (prefixes nlri announced)
  rw [split]
  simp

theorem affectedRoutes_prefixes (prefixes : List IpNetwork) : ∀ affected ∈ server.affectedRoutes prefixes, OnlyPrefixes affected.2 := by
  intro affected member nlri path announced
  rw [affectedRoutes, mem_filterMap] at member
  obtain ⟨entry, -, collected⟩ := member
  split at collected
  · cases collected
  · cases collected
    rw [affectedPaths, mem_flatMap] at announced
    obtain ⟨net, -, mapped⟩ := announced
    obtain ⟨stored, -, same⟩ := mem_map.mp mapped
    cases same

end

theorem reevaluate_covers {server : BgpServer} {routes : List (IpAddr × List PendingRoute)}
    (prefixes : ∀ affected ∈ routes, OnlyPrefixes affected.2) (arcs : server.locRib.ArcsSound) :
    LocRib.Covers (server.reevaluateRoutes routes).2 server.locRib (server.reevaluateRoutes routes).1 := by
  refine (foldlRecOn (motive := fun state => state.1.ArcsSound ∧ LocRib.Covers state.2 server.locRib state.1) routes
    server.reevaluatePeer (b := (server.locRib, .new)) ⟨arcs, .refl _ server.locRib⟩ fun state holds affected listed => ?_).2
  cases found : server.peers.lookup affected.1 with
  | none =>
    simp only [reevaluatePeer, found]
    exact holds
  | some peer =>
    simp only [reevaluatePeer, found]
    have harmless : LocRib.RefusalsHarmless state.1 affected.1 (server.sessionImport peer) affected.2 :=
      refusalsHarmless_of_prefixes (prefixes affected listed)
    exact ⟨arcsSound_stable.applyPeerUpdate affected.1 affected.2 (server.sessionImport peer) holds.1,
      holds.2.trans (LocRib.RefusalsHarmless.covers state.1 affected.1 affected.2 (server.sessionImport peer) holds.1 harmless)⟩

section

variable {server : BgpServer} (sound : server.Sound)

include sound

variable (key : RouteKey) (peerIp : IpAddr) (afiSafi : AfiSafi)

theorem imported_peersSound (peer after : PeerInfo) (peerAsn : UInt32)
    (session : server.InSession peerIp peer peerAsn) (continues : peer.Continues after) (routes kept : List PendingRoute)
    (checked : checkMaxPrefix (server.peerCfgOf peerIp) after.adjRibIn
      (screenBatch (server.sessionChecks peerIp peer peerAsn) routes) = some kept)
    (sourced : server.sourcedBySession (.peerUpdate peerIp routes) = true)
    (reported : LocRib.RefusalsHarmless server.locRib peerIp (server.sessionImport peer) kept)
    (unheard : server.Unheard peerIp (server.locRib.applyPeerUpdate peerIp kept (server.sessionImport peer)).2)
    (valid : (server.locRib.applyPeerUpdate peerIp kept (server.sessionImport peer)).1.Valid) :
    ((server.setPeer peerIp after).commit (server.locRib.applyPeerUpdate peerIp kept (server.sessionImport peer))
      (some peerIp)).PeersSound := by
  have modified : server.setPeer peerIp after = server.modifyPeer peerIp fun _ => after := by
    simp [modifyPeer, session.found]
  rw [modified]
  have covers := LocRib.RefusalsHarmless.covers server.locRib peerIp kept (server.sessionImport peer) sound.arcs reported
  refine modify_commit_peersSound sound.peers ?_ valid covers ?_
  · intro found stored
    obtain rfl := Option.some.inj (session.found.symm.trans stored)
    rw [continues.kept]
    exact ⟨rfl, rfl, rfl⟩
  · intro found stored
    refine (sound.peers peerIp found stored).skipped (applyPeerUpdate_spares ?_ ?_) covers fun ctx => unheard found ctx stored
    · intro key path member
      exact screened_isFromPeer session sourced (mem_checkMaxPrefix _ _ _ _ checked member)
    · exact fun key path => (applyImport_untouched _ _ _ key path).source

theorem closed_commit_peersSound (after : PeerInfo) (closed : after.conn.state ≠ .established)
    (empty : after.adjRibOut = .new) (valid : (server.locRib.removeRoutesFromPeer peerIp).1.Valid) :
    ((server.setPeer peerIp after).commit (server.locRib.removeRoutesFromPeer peerIp) (some peerIp)).PeersSound := by
  have idle : ∀ rib, PeerSound server rib peerIp after := by
    intro rib
    refine PeerSound.of_closed closed fun key id => ?_
    rw [empty, AdjRibOut.pathAt_new]
  refine commit_peersSound (setPeer_peersSound sound.peers (idle server.locRib)) valid
    (removeRoutesFromPeer_covers server.locRib peerIp sound.arcs) ?_
  intro other peer here stored
  obtain rfl := Option.some.inj here
  rw [lookup_setPeer, if_pos rfl, Option.some.injEq] at stored
  subst stored
  exact (idle _).of_speaker (setPeer_sameSpeaker server peerIp after)

theorem terminate_peersSound (peer : PeerInfo) (found : server.peers.lookup peerIp = some peer)
    (established : peer.conn.state = .established) (valid : (server.handleMaxPrefixTerminate peerIp).locRib.Valid) :
    (server.handleMaxPrefixTerminate peerIp).PeersSound := by
  simp only [handleMaxPrefixTerminate, modifyPeer, found, established] at valid ⊢
  rw [commit_locRib] at valid
  exact closed_commit_peersSound sound peerIp _ idle_not_established rfl valid

theorem update_peersSound (routes : List PendingRoute) (sourced : server.sourcedBySession (.peerUpdate peerIp routes) = true)
    (harmless : server.Harmless (.peerUpdate peerIp routes)) (valid : (server.handlePeerUpdate peerIp routes).locRib.Valid) :
    (server.handlePeerUpdate peerIp routes).PeersSound := by
  have reported := harmless.reported
  have skipped := harmless.skipped
  rw [RefusalsReported] at reported
  rw [SkipHarmless] at skipped
  have step := server.handlePeerUpdate_step peerIp routes
  generalize server.handlePeerUpdate peerIp routes = next at step valid ⊢
  generalize server.updateOps peerIp routes = ops at step reported skipped
  have continued : ∀ peer after peerAsn, server.InSession peerIp peer peerAsn → peer.Continues after →
      (server.setPeer peerIp after).Sound := by
    intro peer after peerAsn session continues
    refine ⟨sound.valid, sound.arcs, setPeer_peersSound sound.peers ((sound.peers peerIp peer session.found).of_session ?_)⟩
    rw [continues.kept]
    exact ⟨rfl, rfl, rfl⟩
  cases step with
  | unknown noSession => exact sound.peers
  | ignored peer after peerAsn session continues refused => exact (continued peer after peerAsn session continues).peers
  | stopped peer after peerAsn session continues accepted exceeded =>
    by_cases automatic : (server.peerCfgOf peerIp).allowAutomaticStop = true
    · rw [if_pos automatic] at valid ⊢
      refine terminate_peersSound (continued peer after peerAsn session continues) peerIp after ?_ ?_ valid
      · rw [lookup_setPeer, if_pos rfl]
      · rw [continues.conn]
        exact session.established
    · rw [if_neg automatic]
      exact (continued peer after peerAsn session continues).peers
  | imported peer after peerAsn session continues accepted kept checked =>
    rw [commit_locRib] at valid
    exact imported_peersSound sound peerIp peer after peerAsn session continues routes kept checked sourced
      (reported kept _ mem_cons_self) (skipped kept _ mem_cons_self) valid

theorem disconnected_peersSound (grAfiSafis : List AfiSafi) (valid : (server.handlePeerDisconnected peerIp grAfiSafis).locRib.Valid) :
    (server.handlePeerDisconnected peerIp grAfiSafis).PeersSound := by
  cases found : server.peers.lookup peerIp with
  | none =>
    simp only [handlePeerDisconnected, found]
    exact sound.peers
  | some peer =>
    have closed : ∀ after : PeerInfo, after.conn = {} → after.adjRibOut = .new → (server.setPeer peerIp after).PeersSound := by
      intro after conn empty
      refine setPeer_peersSound sound.peers (PeerSound.of_closed ?_ ?_)
      · rw [conn]
        exact idle_not_established
      · intro key id
        rw [empty, AdjRibOut.pathAt_new]
    simp only [handlePeerDisconnected, found] at valid ⊢
    by_cases hard : grAfiSafis.isEmpty = true
    · rw [if_pos hard] at valid ⊢
      by_cases established : peer.conn.state = .established
      · rw [if_pos established] at valid ⊢
        rw [commit_locRib] at valid
        exact closed_commit_peersSound sound peerIp _ idle_not_established rfl valid
      · rw [if_neg established]
        exact closed _ rfl rfl
    · rw [if_neg hard]
      exact relabel_peersSound (closed _ rfl rfl) fun ctx key => markAll_exports ctx peerIp grAfiSafis server.locRib key

section

variable (unheard : server.Unheard peerIp (server.locRib.removePeerRoutesStale peerIp [afiSafi]).2)

include unheard

theorem sweep_skipped (peer : PeerInfo) (found : server.peers.lookup peerIp = some peer) :
    PeerSound server (server.locRib.removePeerRoutesStale peerIp [afiSafi]).1 peerIp peer :=
  (sound.peers peerIp peer found).skipped (handleStale_spares .sweep [afiSafi])
    (handleStale_covers server.locRib peerIp [afiSafi] .sweep sound.arcs) fun ctx => unheard peer ctx found

theorem sweepAfiSafi_peersSound
    (valid : (server.sweepAfiSafi peerIp afiSafi).locRib.Valid) : (server.sweepAfiSafi peerIp afiSafi).PeersSound := by
  rw [sweepAfiSafi, commit_locRib] at valid
  refine commit_peersSound sound.peers valid
    (handleStale_covers server.locRib peerIp [afiSafi] .sweep sound.arcs) fun other peer here found => ?_
  obtain rfl := Option.some.inj here
  exact sweep_skipped sound _ afiSafi unheard peer found

theorem clearStaleAfiSafi_peersSound
    (valid : (server.clearStaleAfiSafi peerIp afiSafi).locRib.Valid) : (server.clearStaleAfiSafi peerIp afiSafi).PeersSound := by
  rw [clearStaleAfiSafi, sweepAfiSafi, modifyPeer_locRib] at valid ⊢
  rw [commit_locRib] at valid
  exact modify_commit_peersSound sound.peers (fun peer _ => ⟨rfl, rfl, rfl⟩) valid
    (handleStale_covers server.locRib peerIp [afiSafi] .sweep sound.arcs) (sweep_skipped sound peerIp afiSafi unheard)

end

theorem grTimerExpired_peersSound (llgrAfiSafis : List (AfiSafi × UInt32))
    (unheard : server.Unheard peerIp (server.expireStale peerIp llgrAfiSafis).2)
    (valid : (server.handleGrTimerExpired peerIp llgrAfiSafis).locRib.Valid) :
    (server.handleGrTimerExpired peerIp llgrAfiSafis).PeersSound := by
  rw [handleGrTimerExpired, commit_locRib] at valid
  have covers : LocRib.Covers (server.expireStale peerIp llgrAfiSafis).2 server.locRib (server.expireStale peerIp llgrAfiSafis).1 :=
    (handleStale_covers server.locRib peerIp _ .sweep sound.arcs).trans
      (handleStale_covers _ peerIp _ .transitionToLlgr (arcsSound_stable.handleStale peerIp _ .sweep sound.arcs))
  refine modify_commit_peersSound sound.peers (fun peer _ => ⟨rfl, rfl, rfl⟩) valid covers fun peer found => ?_
  exact (sound.peers peerIp peer found).skipped ((handleStale_spares .sweep _).trans (handleStale_spares .transitionToLlgr _)) covers
    fun ctx => unheard peer ctx found

theorem stateChanged_peersSound (state : BgpState) (ordered : server.inOrder (.peerStateChanged peerIp state) = true)
    (valid : (server.handlePeerStateChanged peerIp state).locRib.Valid) : (server.handlePeerStateChanged peerIp state).PeersSound := by
  cases found : server.peers.lookup peerIp with
  | none =>
    simp only [handlePeerStateChanged, found]
    exact sound.peers
  | some peer =>
    rw [inOrder, found, Option.all_some, Bool.and_eq_true, bne_iff_ne, Bool.or_eq_true, bne_iff_ne] at ordered
    have empty := (sound.peers peerIp peer found).idle ordered.1
    by_cases quiet : state ≠ .established ∨ peer.conn.capabilities = none
    · rw [server.handlePeerStateChanged_quiet peerIp state peer found quiet]
      refine setPeer_peersSound sound.peers ⟨(sound.peers peerIp peer found).keyed, fun _ => empty, ?_⟩
      intro ctx context
      obtain ⟨capabilities, present, -⟩ := exportContextOf_afiSafis context
      cases quiet with
      | inl other => exact absurd (exportContextOf_established context) other
      | inr unknown =>
        have sent : peer.conn.capabilities = some capabilities := present
        rw [unknown] at sent
        cases sent
    · simp only [not_or, not_not] at quiet
      obtain ⟨rfl, known⟩ := quiet
      obtain ⟨capabilities, present⟩ := Option.ne_none_iff_exists'.mp known
      rw [server.handlePeerStateChanged_established peerIp peer capabilities found present] at valid ⊢
      rw [(resendAll_frame _ peerIp _).1] at valid
      simp only [sweepStale] at valid ⊢
      rw [commit_locRib] at valid
      have sweptArcs := arcsSound_stable.handleStale peerIp (server.grToClear peerIp capabilities) .sweep sound.arcs
      have covers := (handleStale_covers server.locRib peerIp (server.grToClear peerIp capabilities) .sweep
        sound.arcs).trans (handleStale_covers _ peerIp (llgrToClear (peer.enter .established) capabilities) .sweep
        sweptArcs)
      have entered : ∀ (base : BgpServer) outcome timed,
          ((base.setPeer peerIp timed).commit outcome (some peerIp)).peers.lookup peerIp = some timed := by
        intro base outcome timed
        rw [lookup_commit_originating, lookup_setPeer, if_pos rfl]
      refine resendAll_peersSound (entered _ _ _) ?_ present (ordered.2.resolve_left fun other => other rfl) empty ?_
      · rw [commit_locRib]
        exact valid
      · intro other after different stored
        rw [commit_locRib]
        obtain ⟨before, earlier⟩ := lookup_commit_some stored
        have original : server.peers.lookup other = some before := by
          simpa only [lookup_setPeer, if_neg different] using earlier
        refine commit_peerSound earlier ?_ valid covers (fun same => different (Option.some.inj same).symm) stored
        exact (sound.peers other before original).of_speaker ⟨rfl, rfl⟩

theorem vrpUpdate_peersSound (added removed : List Vrp) (valid : (server.handleVrpUpdate added removed).locRib.Valid) :
    (server.handleVrpUpdate added removed).PeersSound := by
  have updated : (server.withVrps added removed).PeersSound := fun peerIp peer found =>
    (sound.peers peerIp peer found).of_speaker ⟨rfl, rfl⟩
  rw [handleVrpUpdate_eq] at valid ⊢
  split
  · exact updated
  · rename_i affected
    rw [if_neg affected, commit_locRib] at valid
    refine commit_peersSound updated valid ?_ fun peerIp peer here => by cases here
    exact reevaluate_covers (affectedRoutes_prefixes server _) sound.arcs

theorem addRoute_peersSound (attrs : PathAttrs)
    (valid : (server.handleAddRoute key attrs).locRib.Valid) : (server.handleAddRoute key attrs).PeersSound := by
  cases limit : server.locRib.lsLimitReached key with
  | true =>
    have refused := addLocalRoute_refused server.locRib key attrs limit
    simp only [handleAddRoute, refused]
    exact sound.peers
  | false =>
    have accepted := addLocalRoute_accepted server.locRib key attrs limit
    simp only [handleAddRoute, accepted] at valid ⊢
    rw [commit_locRib] at valid
    exact commit_peersSound sound.peers valid (upsertPath_covers server.locRib key _ sound.arcs) fun peerIp peer here => by cases here

theorem removeRoute_peersSound (valid : (server.handleRemoveRoute key).locRib.Valid) : (server.handleRemoveRoute key).PeersSound := by
  rw [handleRemoveRoute, commit_locRib] at valid
  refine commit_peersSound sound.peers valid (removeLocalRoute_covers server.locRib key sound.arcs ?_)
    fun peerIp peer here => by cases here
  intro path stored
  cases found : server.locRib.getRoute key with
  | none => simp [getAllPaths, found] at stored
  | some route =>
    obtain ⟨id, ident, -⟩ := sound.valid.wellFormed.hasLocalId key route path found (by
      simpa [getAllPaths, found] using stored)
    rw [ident]
    rfl

theorem addPeer_peersSound : (server.addPeer peerIp).PeersSound := by
  unfold addPeer
  split
  · exact setPeer_peersSound sound.peers (PeerSound.of_closed idle_not_established AdjRibOut.pathAt_new)
  · exact sound.peers

theorem removePeer_peersSound (valid : (server.removePeer peerIp).locRib.Valid) : (server.removePeer peerIp).PeersSound := by
  unfold removePeer at valid ⊢
  split at valid
  · exact sound.peers
  · rw [commit_locRib] at valid
    have left : ({ server with peers := server.peers.erase peerIp } : BgpServer).PeersSound := by
      intro other peer found
      rw [AssocMap.lookup_erase_if] at found
      split at found
      · cases found
      · exact (sound.peers other peer found).of_speaker ⟨rfl, rfl⟩
    exact commit_peersSound left valid (removeRoutesFromPeer_covers server.locRib peerIp sound.arcs) fun _ _ here => by cases here

theorem handleServerOp_sound (op : ServerOp) (ordered : server.inOrder op = true)
    (sourced : server.sourcedBySession op = true) (harmless : server.Harmless op) : (server.handleServerOp op).Sound := by
  have rib := foldl_step_sound sound.valid sound.arcs harmless.room
  rw [← (server.handleServerOp_ribOps op).1] at rib
  have stillClosed : ∀ peerIp, ((server.peers.lookup peerIp).all fun peer => peer.conn.state != .established) = true →
      ∀ change : PeerInfo → PeerInfo, (∀ peer, (change peer).conn.state = peer.conn.state) →
      (∀ peer, (change peer).adjRibOut = peer.adjRibOut) → (server.modifyPeer peerIp change).PeersSound := by
    intro peerIp closed change state table
    refine modifyPeer_peersSound sound.peers fun peer found => ?_
    rw [found, Option.all_some, bne_iff_ne] at closed
    refine PeerSound.of_closed ((state peer).symm ▸ closed) ?_
    rw [table peer]
    exact (sound.peers peerIp peer found).idle closed
  refine ⟨rib.1, rib.2, ?_⟩
  cases op with
  | peerStateChanged peerIp state => exact stateChanged_peersSound sound peerIp state ordered rib.1
  | peerHandshakeComplete peerIp asn =>
    simp only [handleServerOp, handlePeerHandshakeComplete]
    split
    · exact sound.peers
    · exact stillClosed peerIp ordered _ (fun _ => rfl) fun _ => rfl
  | peerConnectionInfo peerIp bgpId connInfo capabilities =>
    exact stillClosed peerIp ordered _ (fun _ => rfl) fun _ => rfl
  | peerUpdate peerIp routes => exact update_peersSound sound peerIp routes sourced harmless rib.1
  | peerDisconnected peerIp grAfiSafis => exact disconnected_peersSound sound peerIp grAfiSafis rib.1
  | routeRefresh peerIp afiSafi => exact resendRoutesToPeer_peersSound sound.peers sound.valid peerIp afiSafi
  | routeRefreshBoRR peerIp afiSafi =>
    exact relabel_peersSound sound.peers fun ctx key => markPeerRoutesStale_exports ctx server.locRib peerIp afiSafi key
  | routeRefreshEoRR peerIp afiSafi => exact sweepAfiSafi_peersSound sound peerIp afiSafi harmless.skipped rib.1
  | gracefulRestartTimerExpired peerIp llgrAfiSafis =>
    exact grTimerExpired_peersSound sound peerIp llgrAfiSafis harmless.skipped rib.1
  | gracefulRestartComplete peerIp afiSafi =>
    exact clearStaleAfiSafi_peersSound sound peerIp afiSafi harmless.skipped rib.1
  | llgrTimerExpired peerIp afiSafi => exact clearStaleAfiSafi_peersSound sound peerIp afiSafi harmless.skipped rib.1
  | enhancedRrStaleTimerExpired peerIp afiSafi =>
    exact sweepAfiSafi_peersSound sound peerIp afiSafi harmless.skipped rib.1
  | vrpUpdate added removed => exact vrpUpdate_peersSound sound added removed rib.1
  | addRoute key attrs => exact addRoute_peersSound sound key attrs rib.1
  | removeRoute key => exact removeRoute_peersSound sound key rib.1
  | addPeer peerIp => exact addPeer_peersSound sound peerIp
  | removePeer peerIp => exact removePeer_peersSound sound peerIp rib.1

end

section

variable (client : IpAddr) {server : BgpServer}

theorem Started.sound (started : server.Started) : server.Sound := by
  obtain ⟨config, empty⟩ := started.locRib
  refine ⟨empty ▸ new_valid config, empty ▸ new_arcsSound config, fun peerIp peer found => ?_⟩
  rw [started.peers peerIp peer found]
  exact PeerSound.of_closed idle_not_established AdjRibOut.pathAt_new

theorem Converged.own_best (converged : server.Converged) (peerIp : IpAddr) (peer : PeerInfo)
    (ctx : PeerExportContext) (found : server.peers.lookup peerIp = some peer)
    (context : server.exportContextOf peerIp peer = some ctx) (key : RouteKey) (negotiated : key.afiSafi ∈ ctx.afiSafis)
    (single : (ctx.sendFormat.addPath.contains key.afiSafi || ctx.rsClient) = false) (best : Arc Path)
    (selected : server.locRib.getBestPath key = some best) (own : best.value.isFromPeer peerIp = true) (id : UInt32) :
    AdjRibOut.pathAt peer.adjRibOut key id = none := by
  have silent : selection ctx server.locRib key = [] := by
    rw [Bool.or_eq_false_iff] at single
    rw [← exportContextOf_peerAddr context] at own
    simp [selection, selectPathsForExport, single.1, single.2, selected, exportRoutePath, computeExportPath_own key own]
  cases recorded : AdjRibOut.pathAt peer.adjRibOut key id with
  | none => rfl
  | some path =>
    obtain ⟨-, routePath, member, -⟩ := (converged peerIp peer ctx found context key negotiated id path).mp recorded
    rw [silent] at member
    cases member

-- In every run whose steps meet the condition, what every Established peer was sent is what
-- the Loc-RIB selects for it.
theorem converged_in_harmless_runs (start final : BgpServer) (started : start.Started) (run : Reaches handleServerOp (fun server op =>
      server.inOrder op = true ∧ server.sourcedBySession op = true ∧ server.Harmless op) start final) :
    final.Converged ∧
    ∀ peerIp peer ctx, final.peers.lookup peerIp = some peer → final.exportContextOf peerIp peer = some ctx →
      ∀ key, key.afiSafi ∈ ctx.afiSafis → (ctx.sendFormat.addPath.contains key.afiSafi || ctx.rsClient) = false →
      ∀ best, final.locRib.getBestPath key = some best → best.value.isFromPeer peerIp = true →
      ∀ id, AdjRibOut.pathAt peer.adjRibOut key id = none := by
  have sound : final.Sound := run.invariant Sound started.sound fun server op sound permitted =>
    handleServerOp_sound sound op permitted.1 permitted.2.1 permitted.2.2
  refine ⟨sound.converged, ?_⟩
  intro peerIp peer ctx found context key negotiated single best selected own id
  exact sound.converged.own_best peerIp peer ctx found context key negotiated single best selected own id

theorem reported_of_prefixes (server : BgpServer) (peerIp : IpAddr) {routes : List PendingRoute}
    (prefixes : OnlyPrefixes routes) : server.RefusalsReported (.peerUpdate peerIp routes) := by
  intro kept importPolicy member
  refine refusalsHarmless_of_prefixes fun nlri path announced => ?_
  have step := server.handlePeerUpdate_step peerIp routes
  generalize server.handlePeerUpdate peerIp routes = next at step
  generalize server.updateOps peerIp routes = ops at step member
  cases step with
  | unknown noSession | ignored peer after peerAsn session continues refused => cases member
  | stopped peer after peerAsn session continues accepted exceeded => split at member <;> simp at member
  | imported peer after peerAsn session continues accepted taken checked =>
    rw [mem_singleton] at member
    cases member
    obtain ⟨original, listed, -⟩ := mem_screenBatch _ routes _ (mem_checkMaxPrefix _ _ _ _ checked announced)
    exact prefixes nlri original ((mem_announcedOf routes _).mp listed)

theorem unheard_of_empty (peerIp : IpAddr) (delta : RouteDelta) (config : LocRibConfig) (empty : server.locRib = .new config) :
    server.Unheard peerIp delta := by
  intro peer ctx found context key reported
  simp [spared, empty, LocRib.getAllPaths, LocRib.getRoute_new]

def clientA : IpAddr := .v4 0x0A000002
def clientB : IpAddr := .v4 0x0A000003

def pairExample : BgpServer where
  peers := ((∅ : AssocMap IpAddr PeerInfo).insert clientA .new).insert clientB .new
  locRib := .new ⟨0⟩
  config := ⟨65000, 0x01010101, none, [{ ip := some clientA, rrClient := true }, { ip := some clientB, rrClient := true }], by decide⟩
  policies := ∅
  localAddr := .v4 0x0A000001
  vrpTable := .new

theorem pairExample_started : pairExample.Started := by
  refine ⟨⟨⟨0⟩, rfl⟩, fun peerIp peer found => ?_⟩
  rw [pairExample, AssocMap.lookup_insert_if, AssocMap.lookup_insert_if] at found
  by_cases isB : peerIp = clientB
  · rw [if_pos isB] at found
    exact (Option.some.inj found).symm
  · rw [if_neg isB] at found
    by_cases isA : peerIp = clientA
    · rw [if_pos isA] at found
      exact (Option.some.inj found).symm
    · rw [if_neg isA] at found
      cases found

def establishRun : List ServerOp := [.peerHandshakeComplete client 65000, .peerConnectionInfo client 0x0A000002 ⟨.v4 0x0A000001, none⟩
      ⟨[⟨.ipv4, .unicast⟩], false, some 65000, none, none, none⟩,
    .peerStateChanged client .established]

def netExample : RouteKey := .pfx (.v4 ⟨0x0A010000, 16⟩)

def clientUpdate (localPref : UInt32) : ServerOp := .peerUpdate client [.announce netExample ⟨none, none, { LocRib.localExample with
    nextHop := .ipv4 0x0A000063, localPref := some localPref, source := .ibgp client 0x0A000002 true }, false, .notFound⟩]

end

def oneClientRun : List ServerOp := establishRun clientA ++ establishRun clientB ++ [clientUpdate clientB 100]

theorem converged_in_one_client_run : (oneClientRun.foldl handleServerOp pairExample).Converged := by
  refine (converged_in_harmless_runs pairExample _ pairExample_started (Reaches.of_permits _ _ ?_)).1
  refine ⟨?_, ?_, ?_, ?_, ?_, ?_, ⟨rfl, by decide +kernel, by decide +kernel, ?_, ?_⟩, trivial⟩
  iterate 6 exact ⟨by decide +kernel, rfl, by decide +kernel, trivial, trivial⟩
  · refine reported_of_prefixes _ _ fun nlri path announced => ?_
    cases mem_singleton.mp announced
  · exact fun kept importPolicy _ => unheard_of_empty _ _ ⟨0⟩ rfl

-- B's path is sent to A, then A announces a better one: the propagation skips A, which keeps
-- B's path on record.
def bothClientsRun : List ServerOp := oneClientRun ++ [clientUpdate clientA 200]

theorem not_converged_of_record (server : BgpServer) (peerIp : IpAddr) (key : RouteKey) (id : UInt32)
    (stale : ((server.peers.lookup peerIp).any fun peer => (server.exportContextOf peerIp peer).any fun ctx =>
      ctx.afiSafis.contains key.afiSafi && (selection ctx server.locRib key).isEmpty &&
        (AdjRibOut.pathAt peer.adjRibOut key id).isSome) = true) :
    ¬ server.Converged := by
  intro converged
  obtain ⟨peer, found, rest⟩ := Option.any_eq_true _ _ |>.mp stale
  obtain ⟨ctx, context, facts⟩ := Option.any_eq_true _ _ |>.mp rest
  rw [Bool.and_eq_true, Bool.and_eq_true] at facts
  obtain ⟨path, recorded⟩ := Option.isSome_iff_exists.mp facts.2
  obtain ⟨-, routePath, member, -⟩ := (converged peerIp peer ctx found context key (by simpa using facts.1.1) id path).mp recorded
  rw [isEmpty_iff.mp facts.1.2] at member
  cases member

theorem own_route_leaves_stale_advertisement : pairExample.Started ∧ Permits handleServerOp (fun server op =>
      server.inOrder op = true ∧ server.sourcedBySession op = true ∧ server.RoomFor op) pairExample bothClientsRun ∧
    ¬ (bothClientsRun.foldl handleServerOp pairExample).Converged :=
  ⟨pairExample_started, by decide +kernel, not_converged_of_record _ clientA netExample 1 (by decide +kernel)⟩

end Bgpgg.Server.BgpServer
