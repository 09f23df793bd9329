import Bgpgg.Server.Received

namespace Bgpgg.Server.BgpServer

open Net Lib Rib Rpki LocRib AdjRibIn

theorem sessionImport_keepsSlots (server : BgpServer) (peer : PeerInfo) : LocRib.KeepsSlots (server.sessionImport peer) := by
  intro key path
  have untouched := applyImport_untouched server.vrpTable server.config.asn peer.importPolicies key path
  exact Prod.ext untouched.source untouched.remotePathId

section

variable {server : BgpServer} {peerIp : IpAddr} {peer : PeerInfo} {peerAsn : UInt32}

variable (routes kept : List PendingRoute) (adjRibIn : AdjRibIn)

section

variable
  (checked : checkMaxPrefix (server.peerCfgOf peerIp) adjRibIn (screenBatch (server.sessionChecks peerIp peer peerAsn) routes) = some kept)
  (key : RouteKey)

include checked

theorem kept_announces (slot : LocRib.Slot) (pending : PendingRoute) (member : pending ∈ kept)
    (announces : LocRib.Announces key slot pending) :
    ∃ path, .announce key path ∈ routes ∧ slotOf path = slot := by
  obtain ⟨path, rfl, rfl⟩ := announces
  obtain ⟨original, announced, -, rfl⟩ := mem_screenBatch _ routes key (mem_checkMaxPrefix _ _ _ _ checked member)
  refine ⟨original, (mem_announcedOf routes ⟨key, original⟩).mp announced, ?_⟩
  split <;> rfl

theorem kept_withdraws (remotePathId : Option UInt32) (member : .withdraw key remotePathId ∈ routes) :
    .withdraw key remotePathId ∈ kept := by
  have screened : PendingRoute.withdraw key remotePathId ∈ screenBatch (server.sessionChecks peerIp peer peerAsn) routes := by
    rw [screenBatch_eq_map]
    exact List.mem_map.mpr ⟨_, member, screenRoute_withdraw _ _ key remotePathId⟩
  simp only [checkMaxPrefix] at checked
  split at checked
  · cases checked
  · cases checked
    exact List.mem_filter.mpr ⟨screened, rfl⟩

end

end

-- A path of a peer that is in use and not stale has its entry in the peer's adj-rib-in, for
-- every peer, whatever state its session is in.
def Retained (server : BgpServer) : Prop := ∀ peerIp key slot, slot.1.peerIp = some peerIp → server.locRib.Live key slot →
    AdjRibIn.Holds (server.adjRibInOf peerIp) key slot.2

def AdjRibsSourced (server : BgpServer) : Prop :=
  ∀ peerIp key, ∀ path ∈ AdjRibIn.paths (server.adjRibInOf peerIp) key, path.attrs.source.peerIp = some peerIp

-- A batch that the server refuses takes no path in use out of the adj-rib-in, neither by a
-- withdrawal nor with a family; and a session that ends before it is Established has no path
-- in use.
def SparesLive (server : BgpServer) : ServerOp → Prop
  | .peerUpdate peerIp routes => ∀ peer peerAsn, server.InSession peerIp peer peerAsn → server.Refuses peerIp peer peerAsn routes →
      ∀ key slot, slot.1.peerIp = some peerIp → server.locRib.Live key slot →
        (.withdraw key slot.2 ∈ routes → ∃ path, .announce key path ∈ routes ∧ path.remotePathId = slot.2) ∧
        ∀ family, drainedFamily peer (announcedOf routes) = some family → AdjRibIn.drains family key = false
  | .peerDisconnected peerIp grAfiSafis => grAfiSafis = [] → ∀ peer, server.peers.lookup peerIp = some peer →
      peer.conn.state ≠ .established → ∀ key slot, slot.1.peerIp = some peerIp → ¬ server.locRib.Live key slot
  | _ => True

section

variable {server : BgpServer}

variable {peerIp : IpAddr} {slot : LocRib.Slot} {peerAsn : UInt32} {peer : PeerInfo}

theorem not_local (mine : slot.1.peerIp = some peerIp) : slot.1 ≠ .localSource := by
  intro here
  rw [here] at mine
  cases mine

theorem refused_retained_iff (retained : server.Retained)
    (session : server.InSession peerIp peer peerAsn) (routes : List PendingRoute) {key : RouteKey}
    (mine : slot.1.peerIp = some peerIp) (live : server.locRib.Live key slot) :
    AdjRibIn.Holds (peer.received routes) key slot.2 ↔
      (.withdraw key slot.2 ∈ routes → ∃ path, .announce key path ∈ routes ∧ path.remotePathId = slot.2) ∧
      ∀ family, drainedFamily peer (announcedOf routes) = some family → drains family key = false := by
  have stored := retained peerIp key slot mine live
  rw [server.adjRibInOf_found peerIp peer session.found] at stored
  rw [holds_received, holds_storeUnprocessed]
  refine and_congr_left fun _ => ?_
  constructor
  · rintro (announced | kept) withdrawn
    · exact announced
    · exact absurd withdrawn kept.2
  · intro again
    by_cases withdrawn : PendingRoute.withdraw key slot.2 ∈ routes
    · exact .inl (again withdrawn)
    · exact .inr ⟨stored, withdrawn⟩

theorem imported_holds (retained : server.Retained) (session : server.InSession peerIp peer peerAsn) (routes kept : List PendingRoute)
    (checked : checkMaxPrefix (server.peerCfgOf peerIp) (storeUnprocessed peer.adjRibIn routes)
      (screenBatch (server.sessionChecks peerIp peer peerAsn) routes) = some kept)
    (key : RouteKey) (slot : LocRib.Slot) (mine : slot.1.peerIp = some peerIp)
    (live : (server.locRib.applyPeerUpdate peerIp kept (server.sessionImport peer)).1.Live key slot) :
    AdjRibIn.Holds (storeUnprocessed peer.adjRibIn routes) key slot.2 := by
  rw [holds_storeUnprocessed]
  cases applyPeerUpdate_live peerIp (server.sessionImport_keepsSlots peer) live with
  | inl announced =>
    obtain ⟨pending, member, announces⟩ := announced
    obtain ⟨path, listed, rfl⟩ := kept_announces routes kept _ checked key slot pending member announces
    exact .inl ⟨path, listed, rfl⟩
  | inr before =>
    have stored := retained peerIp key slot mine before.1
    rw [server.adjRibInOf_found peerIp peer session.found] at stored
    refine .inr ⟨stored, fun withdrawn => ?_⟩
    refine before.2 _ (kept_withdraws routes kept _ checked key slot.2 withdrawn) ⟨slot.2, rfl, ?_⟩
    obtain ⟨source, id⟩ := slot
    cases id <;> simpa [namesSlot] using mine

theorem update_listed {sender : IpAddr} {routes : List PendingRoute} {key : RouteKey}
    (live : (server.handlePeerUpdate sender routes).locRib.Live key slot) : server.locRib.Live key slot ∨
      (∃ peer peerAsn, server.InSession sender peer peerAsn) ∧ ∃ path, .announce key path ∈ routes ∧ slotOf path = slot := by
  by_cases noSession : ∀ peer peerAsn, ¬ server.InSession sender peer peerAsn
  · rw [handlePeerUpdate_outside routes noSession] at live
    exact .inl live
  · simp only [not_forall, not_not] at noSession
    obtain ⟨peer, peerAsn, session⟩ := noSession
    have tables := handlePeerUpdate_tables session routes
    generalize (server.handlePeerUpdate sender routes).locRib = rib at tables live
    generalize (server.handlePeerUpdate sender routes).adjRibInOf sender = table at tables
    cases tables with
    | refused refuses => exact .inl live
    | stopped accepted stop => exact .inl (removeRoutesFromPeer_live sender live).1
    | imported accepted kept checked =>
      cases applyPeerUpdate_live sender (server.sessionImport_keepsSlots peer) live with
      | inr before => exact .inl before.1
      | inl announced =>
        obtain ⟨pending, member, announces⟩ := announced
        exact .inr ⟨⟨peer, peerAsn, session⟩, kept_announces routes kept _ checked key slot pending member announces⟩

theorem update_live {peerIp sender : IpAddr} {routes : List PendingRoute}
    (sourced : server.sourcedBySession (.peerUpdate sender routes) = true) {key : RouteKey}
    (mine : slot.1.peerIp = some peerIp) (live : (server.handlePeerUpdate sender routes).locRib.Live key slot) :
    server.locRib.Live key slot ∨ sender = peerIp ∧ ∃ path, .announce key path ∈ routes ∧ slotOf path = slot := by
  refine (update_listed live).imp_right ?_
  rintro ⟨⟨peer, peerAsn, session⟩, path, listed, rfl⟩
  have source := sourced_peerIp session sourced listed
  exact ⟨Option.some.inj (source.symm.trans mine), path, listed, rfl⟩

theorem peerUpdate_retained_iff (retained : server.Retained) {routes : List PendingRoute}
    (sourced : server.sourcedBySession (.peerUpdate peerIp routes) = true) :
    (server.handlePeerUpdate peerIp routes).Retained ↔ server.SparesLive (.peerUpdate peerIp routes) := by
  by_cases noSession : ∀ peer peerAsn, ¬ server.InSession peerIp peer peerAsn
  · rw [handlePeerUpdate_outside routes noSession]
    exact iff_of_true retained fun peer peerAsn session => absurd session (noSession peer peerAsn)
  · simp only [not_forall, not_not] at noSession
    obtain ⟨peer, peerAsn, session⟩ := noSession
    have others : ∀ other, other ≠ peerIp → ∀ key slot, slot.1.peerIp = some other →
        (server.handlePeerUpdate peerIp routes).locRib.Live key slot →
        AdjRibIn.Holds ((server.handlePeerUpdate peerIp routes).adjRibInOf other) key slot.2 := by
      intro other different key slot theirs live
      rw [handlePeerUpdate_other routes different]
      refine retained other key slot theirs ((update_live sourced theirs live).resolve_right ?_)
      exact fun announced => different announced.1.symm
    have own : (server.handlePeerUpdate peerIp routes).Retained ↔ ∀ key slot, slot.1.peerIp = some peerIp →
        (server.handlePeerUpdate peerIp routes).locRib.Live key slot →
        AdjRibIn.Holds ((server.handlePeerUpdate peerIp routes).adjRibInOf peerIp) key slot.2 := by
      refine ⟨fun after => after peerIp, fun mine other key slot theirs live => ?_⟩
      by_cases here : other = peerIp
      · subst here
        exact mine key slot theirs live
      · exact others other here key slot theirs live
    have only : server.SparesLive (.peerUpdate peerIp routes) ↔ (server.Refuses peerIp peer peerAsn routes →
        ∀ key slot, slot.1.peerIp = some peerIp → server.locRib.Live key slot → AdjRibIn.Holds (peer.received routes) key slot.2) := by
      constructor
      · intro spares refuses key slot mine live
        exact (refused_retained_iff retained session routes mine live).mpr (spares peer peerAsn session refuses key slot mine live)
      · intro held other otherAsn same refuses key slot mine live
        obtain ⟨rfl, rfl⟩ := session.unique same
        exact (refused_retained_iff retained session routes mine live).mp (held refuses key slot mine live)
    rw [own, only]
    have tables := handlePeerUpdate_tables session routes
    generalize (server.handlePeerUpdate peerIp routes).locRib = rib at tables
    generalize (server.handlePeerUpdate peerIp routes).adjRibInOf peerIp = table at tables
    cases tables with
    | refused refuses => exact ⟨fun held _ => held, fun held => held refuses⟩
    | stopped accepted stop =>
      refine iff_of_true (fun key slot mine live => ?_) fun refuses => ?_
      · exact absurd mine (removeRoutesFromPeer_live peerIp live).2
      · cases refuses with
        | inl refused => exact absurd accepted refused
        | inr exceeded => exact absurd (stop.symm.trans exceeded.1) Bool.noConfusion
    | imported accepted kept checked =>
      refine iff_of_true (imported_holds retained session routes kept checked) fun refuses => ?_
      cases refuses with
      | inl refused => exact absurd accepted refused
      | inr exceeded =>
        rw [checked] at exceeded
        cases exceeded.2

theorem quiet_silent (server : BgpServer) (op : ServerOp) (notUpdate : ∀ peerIp routes, op ≠ .peerUpdate peerIp routes)
    (notVrp : ∀ added removed, op ≠ .vrpUpdate added removed) (key : RouteKey) (slot : LocRib.Slot) :
    ∀ ribOp ∈ server.ribOps op, ribOp.KeepsSlots ∧ ¬ ribOp.Announces key slot := by
  cases op with
  | peerUpdate peerIp routes => exact absurd rfl (notUpdate peerIp routes)
  | vrpUpdate added removed => exact absurd rfl (notVrp added removed)
  | peerStateChanged peerIp state =>
    rw [ribOps, establishOps]
    split
    · split <;> simp [LocRib.Op.KeepsSlots, LocRib.Op.Announces]
    · simp
  | peerDisconnected peerIp grAfiSafis =>
    rw [ribOps, disconnectOps]
    split
    · simp
    · split
      · split <;> simp [LocRib.Op.KeepsSlots, LocRib.Op.Announces]
      · simp [LocRib.Op.KeepsSlots, LocRib.Op.Announces]
  | removePeer peerIp =>
    rw [ribOps]
    split <;> simp [LocRib.Op.KeepsSlots, LocRib.Op.Announces]
  | _ => simp [ribOps, grExpiredOps, LocRib.Op.KeepsSlots, LocRib.Op.Announces]

theorem quiet_live (op : ServerOp) (notUpdate : ∀ peerIp routes, op ≠ .peerUpdate peerIp routes)
    (notVrp : ∀ added removed, op ≠ .vrpUpdate added removed) (key : RouteKey) (slot : LocRib.Slot)
    (mine : slot.1.peerIp = some peerIp) (live : (server.handleServerOp op).locRib.Live key slot) :
    server.locRib.Live key slot := by
  have silent := quiet_silent server op notUpdate notVrp key slot
  rw [(server.handleServerOp_ribOps op).1] at live
  refine (foldl_step_live _ (fun ribOp member => (silent ribOp member).1) (not_local mine) live).resolve_right ?_
  rintro ⟨ribOp, member, announces⟩
  exact (silent ribOp member).2 announces

theorem vrp_live {added removed : List Vrp} {key : RouteKey}
    (mine : slot.1.peerIp = some peerIp) (fromPeers : server.AdjRibsSourced)
    (live : (server.handleVrpUpdate added removed).locRib.Live key slot) :
    server.locRib.Live key slot ∨ ∃ net ∈ server.locRib.affectedPrefixes added removed, key = .pfx net ∧
      ∃ path ∈ paths (server.adjRibInOf peerIp) key, slotOf path = slot := by
  rw [(server.vrpOps_locRib added removed).1] at live
  have keeps : ∀ op ∈ server.vrpOps added removed, op.KeepsSlots := by
    intro op member
    obtain ⟨sender, peer, found, rfl⟩ := server.mem_vrpOps added removed op member
    exact sessionImport_keepsSlots _ peer
  refine (foldl_step_live _ keeps (not_local mine) live).imp_right ?_
  rintro ⟨op, member, announces⟩
  obtain ⟨sender, peer, found, rfl⟩ := server.mem_vrpOps added removed op member
  obtain ⟨pending, listed, path, rfl, rfl⟩ := announces
  obtain ⟨net, affected, rfl, stored⟩ := (mem_affectedPaths _ peer _ path).mp listed
  rw [← server.adjRibInOf_found sender peer found] at stored
  have source := fromPeers sender _ path stored
  obtain rfl := Option.some.inj (source.symm.trans mine)
  exact ⟨net, affected, rfl, path, stored, rfl⟩

theorem vrpUpdate_retained (retained : server.Retained) (fromPeers : server.AdjRibsSourced) (added removed : List Vrp) :
    (server.handleServerOp (.vrpUpdate added removed)).Retained := by
  intro peerIp key slot mine live
  rw [server.adjRibInOf_handleServerOp (.vrpUpdate added removed) (fun _ _ => nofun) (fun _ _ => nofun) fun _ => nofun]
  cases vrp_live mine fromPeers live with
  | inl before => exact retained peerIp key slot mine before
  | inr again =>
    obtain ⟨net, -, -, path, stored, rfl⟩ := again
    exact ⟨path, stored, rfl⟩

theorem peerDisconnected_retained_iff (retained : server.Retained) (peerIp : IpAddr) (grAfiSafis : List AfiSafi) :
    (server.handleServerOp (.peerDisconnected peerIp grAfiSafis)).Retained ↔ server.SparesLive (.peerDisconnected peerIp grAfiSafis) := by
  have tables : ∀ other, (server.handleServerOp (.peerDisconnected peerIp grAfiSafis)).adjRibInOf other =
      if grAfiSafis = [] ∧ other = peerIp then .new else server.adjRibInOf other :=
    fun other => server.adjRibInOf_handlePeerDisconnected peerIp other grAfiSafis
  have before : ∀ other key slot, slot.1.peerIp = some other →
      (server.handleServerOp (.peerDisconnected peerIp grAfiSafis)).locRib.Live key slot → server.locRib.Live key slot :=
    fun other key slot theirs => quiet_live (.peerDisconnected peerIp grAfiSafis) (fun _ _ => nofun) (fun _ _ => nofun) key slot theirs
  constructor
  · intro after hard peer found notEstablished key slot mine live
    have same : (server.handleServerOp (.peerDisconnected peerIp grAfiSafis)).locRib = server.locRib := by
      simp [handleServerOp, handlePeerDisconnected, found, hard, notEstablished]
    have holds := after peerIp key slot mine (same.symm ▸ live)
    rw [tables, if_pos ⟨hard, rfl⟩] at holds
    exact not_holds_new key slot.2 holds
  · intro spares other key slot theirs live
    rw [tables]
    split
    · rename_i emptied
      obtain ⟨hard, rfl⟩ := emptied
      exfalso
      cases found : server.peers.lookup other with
      | none =>
        have stored := retained other key slot theirs (before other key slot theirs live)
        exact not_holds_new key slot.2 (server.adjRibInOf_missing other found ▸ stored)
      | some peer =>
        by_cases established : peer.conn.state = .established
        · simp only [handleServerOp, handlePeerDisconnected, found, hard, List.isEmpty_nil, if_true, established,
            commit_locRib] at live
          exact (removeRoutesFromPeer_live other live).2 theirs
        · exact spares hard peer found established key slot theirs (before other key slot theirs live)
    · exact retained other key slot theirs (before other key slot theirs live)

theorem removePeer_retained (retained : server.Retained) (peerIp : IpAddr) : (server.handleServerOp (.removePeer peerIp)).Retained := by
  intro other key slot theirs live
  have before := quiet_live (.removePeer peerIp) (fun _ _ => nofun) (fun _ _ => nofun) key slot theirs live
  have stored := retained other key slot theirs before
  rw [handleServerOp, adjRibInOf_removePeer]
  split
  · rename_i here
    subst here
    cases found : server.peers.lookup other with
    | none => exact server.adjRibInOf_missing other found ▸ stored
    | some peer =>
      simp only [handleServerOp, removePeer, found, commit_locRib] at live
      exact absurd theirs (removeRoutesFromPeer_live other live).2
  · exact stored

theorem handleServerOp_retained_iff (retained : server.Retained) (fromPeers : server.AdjRibsSourced) {op : ServerOp}
    (sourced : server.sourcedBySession op = true) : (server.handleServerOp op).Retained ↔ server.SparesLive op := by
  by_cases update : ∃ peerIp routes, op = .peerUpdate peerIp routes
  · obtain ⟨peerIp, routes, rfl⟩ := update
    exact peerUpdate_retained_iff retained sourced
  · by_cases ended : ∃ peerIp grAfiSafis, op = .peerDisconnected peerIp grAfiSafis
    · obtain ⟨peerIp, grAfiSafis, rfl⟩ := ended
      exact peerDisconnected_retained_iff retained peerIp grAfiSafis
    · have notUpdate : ∀ peerIp routes, op ≠ .peerUpdate peerIp routes := fun peerIp routes same =>
        update ⟨peerIp, routes, same⟩
      have notEnd : ∀ peerIp grAfiSafis, op ≠ .peerDisconnected peerIp grAfiSafis := fun peerIp grAfiSafis same =>
        ended ⟨peerIp, grAfiSafis, same⟩
      have spares : server.SparesLive op := by
        cases op with
        | peerUpdate peerIp routes => exact absurd rfl (notUpdate peerIp routes)
        | peerDisconnected peerIp grAfiSafis => exact absurd rfl (notEnd peerIp grAfiSafis)
        | _ => exact trivial
      refine iff_of_true ?_ spares
      by_cases vrps : ∃ added removed, op = .vrpUpdate added removed
      · obtain ⟨added, removed, rfl⟩ := vrps
        exact vrpUpdate_retained retained fromPeers added removed
      · by_cases gone : ∃ peerIp, op = .removePeer peerIp
        · obtain ⟨peerIp, rfl⟩ := gone
          exact removePeer_retained retained peerIp
        · intro peerIp key slot mine live
          rw [server.adjRibInOf_handleServerOp op notUpdate notEnd fun peerIp same => gone ⟨peerIp, same⟩]
          refine retained peerIp key slot mine (quiet_live op notUpdate ?_ key slot mine live)
          exact fun added removed same => vrps ⟨added, removed, same⟩

theorem handleServerOp_adjRibsSourced (fromPeers : server.AdjRibsSourced) (op : ServerOp)
    (sourced : server.sourcedBySession op = true) : (server.handleServerOp op).AdjRibsSourced := by
  refine handleServerOp_adjRibs (fun peerIp table => ∀ key, ∀ path ∈ paths table key,
    path.attrs.source.peerIp = some peerIp) ?_ op ?_ fromPeers
  · intro peerIp key path member
    simp [paths] at member
  · rintro peerIp routes peer peerAsn rfl session before key path member
    cases mem_paths_received member with
    | inl announced => exact sourced_peerIp session sourced announced
    | inr stored => exact before key path stored

end

-- The two tables agree about an Established peer: each of its paths in the Loc-RIB that is not
-- stale has its key and identifier in the adj-rib-in.
def TablesAgree (server : BgpServer) : Prop := ∀ peerIp peer, server.peers.lookup peerIp = some peer → peer.conn.state = .established →
    ∀ key, ∀ path ∈ server.locRib.getAllPaths key, path.value.isFromPeer peerIp = true → path.value.stale = false →
      AdjRibIn.Holds peer.adjRibIn key path.value.remotePathId

theorem Retained.tablesAgree {server : BgpServer} (retained : server.Retained) : server.TablesAgree := by
  intro peerIp peer found _ key path member mine current
  rw [← server.adjRibInOf_found peerIp peer found]
  exact retained peerIp key (slotOf path.value) (by simpa [Path.isFromPeer, slotOf] using mine) ⟨path, member, rfl, current⟩

theorem Started.adjRibInOf {server : BgpServer} (started : server.Started) (peerIp : IpAddr) : server.adjRibInOf peerIp = .new := by
  rw [BgpServer.adjRibInOf]
  cases found : server.peers.lookup peerIp with
  | none => rfl
  | some peer =>
    rw [started.peers peerIp peer found]
    rfl

theorem Started.retained {server : BgpServer} (started : server.Started) : server.Retained ∧ server.AdjRibsSourced := by
  obtain ⟨config, empty⟩ := started.locRib
  refine ⟨fun peerIp key slot _ live => ?_, fun peerIp key path member => ?_⟩
  · obtain ⟨path, member, -⟩ := live
    rw [empty, getAllPaths, getRoute_new] at member
    cases member
  · rw [started.adjRibInOf] at member
    simp [paths] at member

-- In every run whose steps spare what is in use, the tables agree in every state reached.
theorem tables_agree_in_sparing_runs (start final : BgpServer) (started : start.Started)
    (run : Reaches handleServerOp (fun server op => server.sourcedBySession op = true ∧ server.SparesLive op) start final) :
    final.TablesAgree := by
  have invariant := run.invariant (fun server => server.Retained ∧ server.AdjRibsSourced) started.retained
    fun server op holds permitted =>
      ⟨(handleServerOp_retained_iff holds.1 holds.2 permitted.1).mpr permitted.2, handleServerOp_adjRibsSourced holds.2 op permitted.1⟩
  exact invariant.1.tablesAgree

instance (server : BgpServer) (peerIp : IpAddr) (peer : PeerInfo) (peerAsn : UInt32) (routes : List PendingRoute) :
    Decidable (server.Refuses peerIp peer peerAsn routes) :=
  inferInstanceAs (Decidable (_ ∨ _ ∧ _))

theorem sparesLive_accepted {server : BgpServer} {peerIp : IpAddr} {routes : List PendingRoute}
    (taken : ((server.peers.lookup peerIp).all fun peer => peer.conn.asn.all fun peerAsn =>
      !decide (server.Refuses peerIp peer peerAsn routes)) = true) : server.SparesLive (.peerUpdate peerIp routes) := by
  intro peer peerAsn session refuses
  simp [session.found, session.asn, refuses] at taken

def withdrawnExample (net : Ipv4Net) : PendingRoute := .withdraw (.pfx (.v4 net)) none

def foreignExample : PendingRoute := .announce (.linkState ⟨1, [], none, none⟩) ⟨none, none, { LocRib.localExample with
    nextHop := .ipv4 0x0A000002, source := .ibgp reflectorIp 0x0A000002 false }, false, .notFound⟩

def sparingRunExample : List ServerOp := establishExample ++ [.peerUpdate reflectorIp [receivedExample ⟨0x0A010000, 16⟩ []],
      .peerUpdate reflectorIp [withdrawnExample ⟨0x0A010000, 16⟩, receivedExample ⟨0x0A020000, 16⟩ []],
      .peerUpdate reflectorIp [foreignExample]]

theorem drains_linkState {family : AfiSafi} (linkState : family.afi = .linkState) (key : RouteKey) : drains family key = false := by
  obtain ⟨afi, safi⟩ := family
  cases linkState
  cases safi <;> rfl

theorem tables_agree_in_sparing_run : (sparingRunExample.foldl handleServerOp startExample).TablesAgree := by
  refine tables_agree_in_sparing_runs startExample _ startExample_started (Reaches.of_permits _ _ ?_)
  refine ⟨⟨rfl, trivial⟩, ⟨rfl, trivial⟩, ⟨rfl, trivial⟩, ⟨by decide +kernel, ?_⟩, ⟨by decide +kernel, ?_⟩,
    ⟨by decide +kernel, ?_⟩, trivial⟩
  · exact sparesLive_accepted (by decide +kernel)
  · exact sparesLive_accepted (by decide +kernel)
  · intro peer peerAsn _ _ key slot _ _
    refine ⟨fun withdrawn => ?_, fun family drained => drains_linkState ?_ key⟩
    · simp [foreignExample] at withdrawn
    · obtain ⟨found, -⟩ := Option.filter_eq_some_iff.mp drained
      have listed := List.mem_of_find?_eq_some found
      simp only [announcedOf, foreignExample, List.filterMap_cons, List.filterMap_nil, List.map_cons, List.map_nil,
        List.mem_singleton] at listed
      rw [listed]
      rfl

-- The withdrawal is lost behind an announcement of a family that is not negotiated, and behind
-- an exceeded limit when the session is not to be stopped.
def mixedRunExample : List ServerOp := establishExample ++ [.peerUpdate reflectorIp [receivedExample ⟨0x0A010000, 16⟩ []],
      .peerUpdate reflectorIp [withdrawnExample ⟨0x0A010000, 16⟩, foreignExample]]

def limitedPeerExample : PeerConfig where
  ip := some reflectorIp
  allowAutomaticStop := false
  maxPrefix := some ⟨1, .terminate⟩

def limitedExample : BgpServer := { startExample with config := ⟨65000, 0x01010101, none, [limitedPeerExample], by decide⟩ }

def limitedRunExample : List ServerOp := establishExample ++ [.peerUpdate reflectorIp [receivedExample ⟨0x0A010000, 16⟩ []],
      .peerUpdate reflectorIp [withdrawnExample ⟨0x0A010000, 16⟩, receivedExample ⟨0x0A020000, 16⟩ [],
        receivedExample ⟨0x0A030000, 16⟩ []]]

theorem not_tablesAgree_of_lost (server : BgpServer) (peerIp : IpAddr) (key : RouteKey)
    (lost : ((server.peers.lookup peerIp).any fun peer => peer.conn.state == .established &&
      (server.locRib.getAllPaths key).any fun path => path.value.isFromPeer peerIp && !path.value.stale &&
        (paths peer.adjRibIn key).all fun stored => stored.remotePathId != path.value.remotePathId) = true) :
    ¬ server.TablesAgree := by
  intro agree
  cases found : server.peers.lookup peerIp with
  | none => simp [found] at lost
  | some peer =>
    rw [found, Option.any_some, Bool.and_eq_true, beq_iff_eq] at lost
    obtain ⟨path, member, facts⟩ := List.any_eq_true.mp lost.2
    rw [Bool.and_eq_true, Bool.and_eq_true, Bool.not_eq_true'] at facts
    obtain ⟨stored, listed, same⟩ := agree peerIp peer found lost.1 key path member facts.1.1 facts.1.2
    exact absurd same (by simpa using List.all_eq_true.mp facts.2 stored listed)

theorem withdrawn_path_stays_in_use : startExample.Started ∧
    Permits handleServerOp (fun server op => server.sourcedBySession op = true) startExample mixedRunExample ∧
    ¬ (mixedRunExample.foldl handleServerOp startExample).TablesAgree ∧
    limitedExample.Started ∧
    Permits handleServerOp (fun server op => server.sourcedBySession op = true) limitedExample limitedRunExample ∧
    ¬ (limitedRunExample.foldl handleServerOp limitedExample).TablesAgree := by
  refine ⟨startExample_started, ⟨rfl, rfl, rfl, by decide +kernel, by decide +kernel, trivial⟩, ?_,
    ⟨startExample_started.locRib, startExample_started.peers⟩,
    ⟨rfl, rfl, rfl, by decide +kernel, by decide +kernel, trivial⟩, ?_⟩
  · exact not_tablesAgree_of_lost _ reflectorIp (.pfx (.v4 ⟨0x0A010000, 16⟩)) (by decide +kernel)
  · exact not_tablesAgree_of_lost _ reflectorIp (.pfx (.v4 ⟨0x0A010000, 16⟩)) (by decide +kernel)

end Bgpgg.Server.BgpServer
