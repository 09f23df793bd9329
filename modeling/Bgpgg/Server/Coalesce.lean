import Bgpgg.Rib.PeerReplay
import Bgpgg.Server.Session

namespace Bgpgg.Server

open Net Wire Lib Rib Rib.LocRib Policies List

section

variable (peerIp : IpAddr) (importPolicy : ImportPolicy)

variable (rib : LocRib BitmapPathIdAllocator)

theorem applyPending_rib (first second : List RouteKey) (pending : PendingRoute) :
    (applyPending peerIp importPolicy (rib, first) pending).1 = (applyPending peerIp importPolicy (rib, second) pending).1 := by
  have left := applyPending_step peerIp importPolicy (rib, first) pending
  have right := applyPending_step peerIp importPolicy (rib, second) pending
  generalize applyPending peerIp importPolicy (rib, first) pending = leftEnd at left ⊢
  generalize applyPending peerIp importPolicy (rib, second) pending = rightEnd at right ⊢
  cases left <;> cases right <;> simp_all

theorem foldl_applyPending_rib (routes : List PendingRoute) (first second : LocRib BitmapPathIdAllocator × List RouteKey)
    (same : first.1 = second.1) : (routes.foldl (applyPending peerIp importPolicy) first).1 =
      (routes.foldl (applyPending peerIp importPolicy) second).1 := by
  induction routes generalizing first second with
  | nil => exact same
  | cons pending rest ih =>
    refine ih _ _ ?_
    obtain ⟨rib, rejected⟩ := first
    obtain ⟨otherRib, otherRejected⟩ := second
    cases same
    exact applyPending_rib peerIp importPolicy rib rejected otherRejected pending

theorem afterPending_append (front back : List PendingRoute) : rib.afterPending peerIp importPolicy (front ++ back) =
      (rib.afterPending peerIp importPolicy front).afterPending peerIp importPolicy back := by
  rw [afterPending, foldl_append]
  exact foldl_applyPending_rib peerIp importPolicy back _ _ rfl

theorem getAllPaths_afterWithdrawals (withdrawn : List Withdrawal) (key : RouteKey) :
    (rib.afterPending peerIp importPolicy (withdrawn.map fun withdrawal => .withdraw withdrawal.1 withdrawal.2)).getAllPaths
      key = (rib.getAllPaths key).filter fun path =>
        !withdrawn.any fun withdrawal => withdrawal.1 == key && isWithdrawnBy peerIp withdrawal.2 path.value := by
  induction withdrawn generalizing rib with
  | nil => simp [afterPending]
  | cons withdrawal rest ih =>
    have step : rib.afterPending peerIp importPolicy ((withdrawal :: rest).map fun withdrawal => .withdraw withdrawal.1 withdrawal.2) =
        (rib.removePeerPath withdrawal.1 peerIp withdrawal.2).afterPending peerIp importPolicy
          (rest.map fun withdrawal => .withdraw withdrawal.1 withdrawal.2) := rfl
    rw [step, ih, getAllPaths_removePeerPath]
    by_cases here : key = withdrawal.1
    · subst here
      simp only [if_true, retained, filter_filter, any_cons, BEq.rfl, Bool.true_and, Bool.not_or]
      refine filter_congr fun path _ => ?_
      rw [Bool.and_comm]
    · have away : (withdrawal.1 == key) = false := by simpa using fun same => here same.symm
      simp [here, away]

end

namespace BgpServer

variable {server : BgpServer} {peerIp : IpAddr} {peer : PeerInfo} {peerAsn : UInt32}

theorem handlePeerUpdate_session (session : server.InSession peerIp peer peerAsn) (routes : List PendingRoute)
    (unlimited : server.NoMaxPrefix peerIp) :
    ∃ after, peer.Continues after ∧ (server.handlePeerUpdate peerIp routes).InSession peerIp after peerAsn ∧
      (server.handlePeerUpdate peerIp routes).config = server.config ∧
      (server.handlePeerUpdate peerIp routes).vrpTable = server.vrpTable ∧
      (server.handlePeerUpdate peerIp routes).locRib = if peer.Accepts routes then
          server.locRib.afterPending peerIp (server.sessionImport peer) (screenBatch (server.sessionChecks peerIp peer peerAsn) routes)
        else server.locRib := by
  have step := handlePeerUpdate_step server peerIp routes
  generalize server.handlePeerUpdate peerIp routes = next at step ⊢
  generalize server.updateOps peerIp routes = ops at step
  cases step with
  | unknown noSession => exact absurd session (noSession peer peerAsn)
  | ignored other after otherAsn same continues refused =>
    obtain ⟨rfl, rfl⟩ := session.unique same
    refine ⟨after, continues, ⟨?_, continues.conn ▸ session.established, continues.conn ▸ session.asn⟩, rfl, rfl, ?_⟩
    · rw [lookup_setPeer, if_pos rfl]
    · rw [setPeer_locRib, if_neg refused]
  | stopped other after otherAsn same continues accepted exceeded =>
    rw [checkMaxPrefix_unlimited _ _ _ unlimited] at exceeded
    cases exceeded
  | imported other after otherAsn same continues accepted kept checked =>
    obtain ⟨rfl, rfl⟩ := session.unique same
    rw [checkMaxPrefix_unlimited _ _ _ unlimited] at checked
    cases checked
    refine ⟨after, continues, ⟨?_, continues.conn ▸ session.established, continues.conn ▸ session.asn⟩, ?_, ?_, ?_⟩
    · rw [lookup_commit_originating, lookup_setPeer, if_pos rfl]
    · rw [commit_config, setPeer_config]
    · rw [commit_vrpTable, setPeer_vrpTable]
    · rw [commit_locRib, if_pos accepted]
      rfl

def handleEach (server : BgpServer) (peerIp : IpAddr) (updates : List (List PendingRoute)) : BgpServer :=
  updates.foldl (fun server update => server.handlePeerUpdate peerIp update) server

def screenEach (checks : ImportChecks) (peer : PeerInfo) (updates : List (List PendingRoute)) : List PendingRoute :=
  updates.flatMap fun update => if peer.Accepts update then screenBatch checks update else []

theorem handleEach_locRib (session : server.InSession peerIp peer peerAsn) (unlimited : server.NoMaxPrefix peerIp)
    (updates : List (List PendingRoute)) :
    (server.handleEach peerIp updates).locRib = server.locRib.afterPending peerIp (server.sessionImport peer)
      (screenEach (server.sessionChecks peerIp peer peerAsn) peer updates) := by
  induction updates generalizing server peer with
  | nil => rfl
  | cons update rest ih =>
    obtain ⟨after, continues, next, config, vrpTable, locRib⟩ := handlePeerUpdate_session session update unlimited
    have unlimitedNext : (server.handlePeerUpdate peerIp update).NoMaxPrefix peerIp := by
      rw [NoMaxPrefix, peerCfgOf, config]
      exact unlimited
    have sameChecks : (server.handlePeerUpdate peerIp update).sessionChecks peerIp after peerAsn =
        server.sessionChecks peerIp peer peerAsn := by
      simp [sessionChecks, importChecks, peerCfgOf, config, continues.conn]
    have sameImport : (server.handlePeerUpdate peerIp update).sessionImport after = server.sessionImport peer := by
      simp [sessionImport, config, vrpTable, continues.importPolicies]
    have sameScreen : ∀ checks, screenEach checks after rest = screenEach checks peer rest := by
      simp [screenEach, continues.accepts]
    have unfolded : server.handleEach peerIp (update :: rest) = (server.handlePeerUpdate peerIp update).handleEach peerIp rest := rfl
    rw [unfolded, ih next unlimitedNext, sameChecks, sameImport, sameScreen, locRib]
    have screened : screenEach (server.sessionChecks peerIp peer peerAsn) peer (update :: rest) =
        (if peer.Accepts update then screenBatch (server.sessionChecks peerIp peer peerAsn) update else []) ++
          screenEach (server.sessionChecks peerIp peer peerAsn) peer rest := rfl
    rw [screened, afterPending_append]
    by_cases accepted : peer.Accepts update
    · rw [if_pos accepted, if_pos accepted]
    · rw [if_neg accepted, if_neg accepted]
      rfl

end BgpServer

section

variable (checks : ImportChecks)

variable (routes : List PendingRoute)

theorem announcedOf_append (front back : List PendingRoute) :
    announcedOf (front ++ back) = announcedOf front ++ announcedOf back := filterMap_append

theorem announcedOf_flatten (updates : List (List PendingRoute)) : announcedOf updates.flatten = updates.flatMap announcedOf := by
  induction updates with
  | nil => rfl
  | cons update rest ih => rw [flatten_cons, announcedOf_append, ih, flatMap_cons]

theorem eq_withdrawnOf (silent : announcedOf routes = []) :
    routes = (withdrawnOf routes).map fun withdrawal => .withdraw withdrawal.1 withdrawal.2 := by
  induction routes with
  | nil => rfl
  | cons route rest ih =>
    cases route with
    | announce key path => simp [announcedOf] at silent
    | withdraw key remotePathId => exact congrArg (PendingRoute.withdraw key remotePathId :: ·) (ih silent)

theorem screenBatch_uniform (rejected : Bool) (uniform : ∀ routePath ∈ announcedOf routes, checks.fails routePath.path = rejected) :
    screenBatch checks routes = routes.map (screenRoute checks rejected) := by
  rw [screenBatch_eq_map]
  cases announced : announcedOf routes with
  | nil =>
    rw [eq_withdrawnOf routes announced]
    simp
  | cons first rest =>
    have verdict := uniform first (by simp [announced])
    simp [verdict]

theorem screenBatch_silent (silent : announcedOf routes = []) :
    screenBatch checks routes = (withdrawnOf routes).map fun withdrawal => .withdraw withdrawal.1 withdrawal.2 := by
  rw [screenBatch_uniform checks routes false (by simp [silent])]
  conv => lhs; rw [eq_withdrawnOf routes silent]
  simp

end

inductive Fate where
  | ignored
  | rejected
  | imported
deriving DecidableEq, Repr

section

variable (checks : ImportChecks) (peer : PeerInfo) (rejected : Bool) (routes : List PendingRoute)

def Fate.ofVerdict : Fate := if rejected then .rejected else .imported

theorem Fate.ofVerdict_inj (first second : Bool) : ofVerdict first = ofVerdict second ↔ first = second := by
  cases first <;> cases second <;> decide

def fateOf : PendingRoute × PendingRoute → Option Fate
  | (.announce _ _, .announce _ _) => some .imported
  | (.announce _ _, .withdraw _ _) => some .rejected
  | (.withdraw _ _, _) => none

def fates : List Fate := if peer.Accepts routes then (routes.zip (screenBatch checks routes)).filterMap fateOf
  else (announcedOf routes).map fun _ => .ignored

-- What should become of those of one UPDATE: each is judged by its own path.
def ownFates (update : List PendingRoute) : List Fate := (announcedOf update).map fun routePath =>
    if peer.Accepts update then .ofVerdict (checks.fails routePath.path) else .ignored

theorem fateOf_screened (key : RouteKey) (path : Path) : fateOf (.announce key path, screenRoute checks rejected (.announce key path)) =
      some (.ofVerdict rejected) := by
  cases rejected <;> cases ebgp : checks.isEbgp <;>
    simp [screenRoute, rejectAnnouncement, scrubEbgpPendingRoute, fateOf, Fate.ofVerdict, ebgp]

theorem fates_screened : (routes.zip (routes.map (screenRoute checks rejected))).filterMap fateOf =
      (announcedOf routes).map fun _ => .ofVerdict rejected := by
  induction routes with
  | nil => rfl
  | cons route rest ih =>
    cases route with
    | announce key path =>
      simp [fateOf_screened, ih, announcedOf]
    | withdraw key remotePathId =>
      simp [filterMap_cons, fateOf, ih, announcedOf]

theorem accepts_update {updates : List (List PendingRoute)} (accepted : peer.Accepts updates.flatten)
    {update : List PendingRoute} (member : update ∈ updates) : peer.Accepts update := by
  intro routePath announced
  refine accepted routePath ?_
  rw [announcedOf_flatten]
  exact mem_flatMap.mpr ⟨update, member, announced⟩

end

def withoutLocalId (path : Path) : Path := { path with localPathId := none }

def SameRoutes (first second : LocRib BitmapPathIdAllocator) : Prop :=
  ∀ key, (first.getAllPaths key).map (fun path => withoutLocalId path.value) =
    (second.getAllPaths key).map fun path => withoutLocalId path.value

namespace BgpServer

-- Either nothing is ignored and all announced paths have one verdict, or the merged batch is
-- ignored and the UPDATEs that would not have been announce nothing and withdraw nothing stored.
def Coalescible (server : BgpServer) (peerIp : IpAddr) (peer : PeerInfo) (checks : ImportChecks)
    (updates : List (List PendingRoute)) : Prop :=
  (peer.Accepts updates.flatten ∧ ∀ first ∈ announcedOf updates.flatten, ∀ second ∈ announcedOf updates.flatten,
    checks.fails first.path = checks.fails second.path) ∨
  (¬ peer.Accepts updates.flatten ∧ ∀ update ∈ updates, peer.Accepts update → announcedOf update = [] ∧
    ∀ withdrawal ∈ withdrawnOf update, ∀ path ∈ server.locRib.getAllPaths withdrawal.1,
      isWithdrawnBy peerIp withdrawal.2 path.value = false)

section

variable (checks : ImportChecks) (peer : PeerInfo) (updates : List (List PendingRoute))

theorem fates_accepted (accepted : peer.Accepts updates.flatten) :
    fates checks peer updates.flatten = updates.flatMap (ownFates checks peer) ↔
      ∀ first ∈ announcedOf updates.flatten, ∀ second ∈ announcedOf updates.flatten,
        checks.fails first.path = checks.fails second.path := by
  have own : updates.flatMap (ownFates checks peer) = (announcedOf updates.flatten).map fun routePath =>
      .ofVerdict (checks.fails routePath.path) := by
    rw [announcedOf_flatten, map_flatMap]
    refine flatMap_congr fun update member => ?_
    simp [ownFates, accepts_update peer accepted member]
  rw [own, fates, if_pos accepted, screenBatch_eq_map, fates_screened]
  cases announcedOf updates.flatten with
  | nil => simp
  | cons first rest =>
    simp only [map_inj_left, Fate.ofVerdict_inj]
    refine ⟨fun agree left leftMember right rightMember => ?_, fun agree routePath member => ?_⟩
    · rw [← agree left leftMember, ← agree right rightMember]
    · exact agree first mem_cons_self routePath member

theorem screenEach_accepted (accepted : peer.Accepts updates.flatten)
    (agree : ∀ first ∈ announcedOf updates.flatten, ∀ second ∈ announcedOf updates.flatten,
      checks.fails first.path = checks.fails second.path) :
    screenEach checks peer updates = screenBatch checks updates.flatten := by
  obtain ⟨rejected, uniform⟩ : ∃ rejected, ∀ routePath ∈ announcedOf updates.flatten, checks.fails routePath.path = rejected := by
    cases announced : announcedOf updates.flatten with
    | nil => exact ⟨false, by simp⟩
    | cons first rest =>
      rw [announced] at agree
      exact ⟨checks.fails first.path, fun routePath member => agree routePath member first mem_cons_self⟩
  rw [screenBatch_uniform checks _ rejected uniform, map_flatten]
  refine flatMap_congr fun update member => ?_
  rw [if_pos (accepts_update peer accepted member)]
  refine screenBatch_uniform checks update rejected fun routePath announced => uniform routePath ?_
  rw [announcedOf_flatten]
  exact mem_flatMap.mpr ⟨update, member, announced⟩

theorem fates_ignored (refused : ¬ peer.Accepts updates.flatten) :
    fates checks peer updates.flatten = updates.flatMap (ownFates checks peer) ↔
      ∀ update ∈ updates, peer.Accepts update → announcedOf update = [] := by
  rw [fates, if_neg refused, announcedOf_flatten, map_flatMap]
  refine ⟨fun same update member accepted => ?_, fun silent => ?_⟩
  · have none_ignored : ∀ fate ∈ ownFates checks peer update, fate ≠ .ignored := by
      intro fate fateOfUpdate
      obtain ⟨routePath, -, rfl⟩ := mem_map.mp fateOfUpdate
      rw [if_pos accepted]
      cases checks.fails routePath.path <;> decide
    have all_ignored : ∀ fate ∈ ownFates checks peer update, fate = .ignored := by
      intro fate fateOfUpdate
      have listed : fate ∈ updates.flatMap (ownFates checks peer) := mem_flatMap.mpr ⟨update, member, fateOfUpdate⟩
      rw [← same] at listed
      obtain ⟨_, -, mapped⟩ := mem_flatMap.mp listed
      obtain ⟨_, -, rfl⟩ := mem_map.mp mapped
      rfl
    have empty : ownFates checks peer update = [] :=
      eq_nil_iff_forall_not_mem.mpr fun fate mine => none_ignored fate mine (all_ignored fate mine)
    exact map_eq_nil_iff.mp empty
  · refine flatMap_congr fun update member => ?_
    by_cases accepted : peer.Accepts update
    · simp [ownFates, silent update member accepted]
    · simp [ownFates, accepted]

def effectiveWithdrawals : List Withdrawal := updates.flatMap fun update => if peer.Accepts update then withdrawnOf update else []

theorem screenEach_silent (silent : ∀ update ∈ updates, peer.Accepts update → announcedOf update = []) :
    screenEach checks peer updates = (effectiveWithdrawals peer updates).map fun withdrawal => .withdraw withdrawal.1 withdrawal.2 := by
  rw [effectiveWithdrawals, map_flatMap]
  refine flatMap_congr fun update member => ?_
  by_cases accepted : peer.Accepts update
  · rw [if_pos accepted, if_pos accepted, screenBatch_silent checks update (silent update member accepted)]
  · rw [if_neg accepted, if_neg accepted]
    rfl

theorem sameRoutes_afterWithdrawals (rib : LocRib BitmapPathIdAllocator) (peerIp : IpAddr) (importPolicy : ImportPolicy)
    (withdrawn : List Withdrawal) :
    SameRoutes rib (rib.afterPending peerIp importPolicy
        (withdrawn.map fun withdrawal => .withdraw withdrawal.1 withdrawal.2)) ↔
      ∀ withdrawal ∈ withdrawn, ∀ path ∈ rib.getAllPaths withdrawal.1, isWithdrawnBy peerIp withdrawal.2 path.value = false := by
  refine ⟨fun same withdrawal member path stored => ?_, fun untouched key => ?_⟩
  · have lengths := congrArg length (same withdrawal.1)
    rw [getAllPaths_afterWithdrawals, length_map, length_map] at lengths
    have kept := length_filter_eq_length_iff.mp lengths.symm path stored
    rw [Bool.not_eq_true', any_eq_false] at kept
    simpa using kept withdrawal member
  · rw [getAllPaths_afterWithdrawals, filter_eq_self.mpr]
    intro path stored
    rw [Bool.not_eq_true', any_eq_false]
    intro withdrawal member hit
    rw [Bool.and_eq_true, beq_iff_eq] at hit
    obtain ⟨rfl, removed⟩ := hit
    rw [untouched withdrawal member path stored] at removed
    exact Bool.false_ne_true removed

end

theorem coalescing_transparent_iff (server : BgpServer) (peerIp : IpAddr) (peer : PeerInfo) (peerAsn : UInt32)
    (updates : List (List PendingRoute)) (session : server.InSession peerIp peer peerAsn) (unlimited : server.NoMaxPrefix peerIp) :
    (SameRoutes (server.handlePeerUpdate peerIp updates.flatten).locRib (server.handleEach peerIp updates).locRib ∧
      fates (server.sessionChecks peerIp peer peerAsn) peer updates.flatten =
        updates.flatMap (ownFates (server.sessionChecks peerIp peer peerAsn) peer)) ↔
    server.Coalescible peerIp peer (server.sessionChecks peerIp peer peerAsn) updates := by
  obtain ⟨-, -, -, -, -, merged⟩ := handlePeerUpdate_session session updates.flatten unlimited
  rw [merged, handleEach_locRib session unlimited, Coalescible]
  by_cases accepted : peer.Accepts updates.flatten
  · rw [fates_accepted _ _ _ accepted]
    simp only [accepted, true_and, not_true_eq_false, false_and, or_false]
    refine ⟨And.right, fun agree => ⟨?_, agree⟩⟩
    rw [screenEach_accepted _ _ _ accepted agree]
    exact fun _ => rfl
  · rw [if_neg accepted, fates_ignored _ _ _ accepted]
    simp only [accepted, false_and, not_false_eq_true, true_and, false_or]
    refine ⟨fun ⟨same, silent⟩ update member mine => ⟨silent update member mine, ?_⟩, fun harmless => ?_⟩
    · rw [screenEach_silent _ _ _ silent, sameRoutes_afterWithdrawals] at same
      intro withdrawal withdrawn
      refine same withdrawal (mem_flatMap.mpr ⟨update, member, ?_⟩)
      rwa [if_pos mine]
    · have silent : ∀ update ∈ updates, peer.Accepts update → announcedOf update = [] :=
        fun update member mine => (harmless update member mine).1
      refine ⟨?_, silent⟩
      rw [screenEach_silent _ _ _ silent, sameRoutes_afterWithdrawals]
      intro withdrawal withdrawn
      obtain ⟨update, member, listed⟩ := mem_flatMap.mp withdrawn
      by_cases mine : peer.Accepts update
      · rw [if_pos mine] at listed
        exact (harmless update member mine).2 withdrawal listed
      · rw [if_neg mine] at listed
        exact absurd listed not_mem_nil

def peerIpExample : IpAddr := .v4 0x0A000002

def ibgpPeerExample : PeerInfo := { PeerInfo.new with
    conn := { state := .established, asn := some 65000 }
    importPolicies := (∅ : AfiSafiPolicies).insert ⟨.ipv4, .unicast⟩ [.permitAll] }

def serverExample : BgpServer where
  peers := (∅ : AssocMap IpAddr PeerInfo).insert peerIpExample ibgpPeerExample
  locRib := .new ⟨0⟩
  config := ⟨65000, 0x01010101, none, [], by decide⟩
  policies := ∅
  localAddr := .v4 0
  vrpTable := .new

def announcementExample (net : Ipv4Net) (asPath : List AsPathSegment) : PendingRoute := .announce (.pfx (.v4 net))
    ⟨none, none, { localExample with source := .ibgp peerIpExample 0x0A000002 false, asPath := asPath }, false, .notFound⟩

def loopedExample : PendingRoute := announcementExample ⟨0x0A010000, 16⟩ [⟨.asSequence, 1, [65000]⟩]

def cleanExample : PendingRoute := announcementExample ⟨0x0A020000, 16⟩ []

theorem serverExample_session : serverExample.InSession peerIpExample ibgpPeerExample 65000 := ⟨AList.lookup_insert _, rfl, rfl⟩

theorem serverExample_unlimited : serverExample.NoMaxPrefix peerIpExample := fun _ => rfl

def cleanUpdates : List (List PendingRoute) := [[cleanExample], [announcementExample ⟨0x0A030000, 16⟩ [], cleanExample],
    [.withdraw (.pfx (.v4 ⟨0x0A020000, 16⟩)) none]]

theorem coalescing_transparent_clean_updates : SameRoutes (serverExample.handlePeerUpdate peerIpExample cleanUpdates.flatten).locRib
      (serverExample.handleEach peerIpExample cleanUpdates).locRib ∧
    ((serverExample.handlePeerUpdate peerIpExample cleanUpdates.flatten).locRib.getAllPaths (.pfx (.v4 ⟨0x0A030000, 16⟩))).length = 1 :=
  ⟨((coalescing_transparent_iff serverExample peerIpExample ibgpPeerExample 65000 cleanUpdates
    serverExample_session serverExample_unlimited).mpr (.inl ⟨by decide +kernel, by decide +kernel⟩)).1, by decide +kernel⟩

-- An UPDATE with a looped path, and one with a clean path to another prefix: on its own the
-- second is imported, in one batch with the first it is withdrawn.
theorem coalescing_withdraws_clean_route :
    serverExample.InSession peerIpExample ibgpPeerExample 65000 ∧ serverExample.NoMaxPrefix peerIpExample ∧
    ¬ SameRoutes (serverExample.handlePeerUpdate peerIpExample [[loopedExample], [cleanExample]].flatten).locRib
      (serverExample.handleEach peerIpExample [[loopedExample], [cleanExample]]).locRib ∧
    fates (serverExample.sessionChecks peerIpExample ibgpPeerExample 65000) ibgpPeerExample
      [[loopedExample], [cleanExample]].flatten = [.rejected, .rejected] ∧
    [[loopedExample], [cleanExample]].flatMap
      (ownFates (serverExample.sessionChecks peerIpExample ibgpPeerExample 65000) ibgpPeerExample) = [.rejected, .imported] := by
  refine ⟨serverExample_session, serverExample_unlimited, fun same => ?_, by decide +kernel, by decide +kernel⟩
  have lengths := congrArg length (same (.pfx (.v4 ⟨0x0A020000, 16⟩)))
  revert lengths
  decide +kernel

end BgpServer

end Bgpgg.Server
