import Bgpgg.Rib.BestPath
import Bgpgg.Rib.PathInvariant

namespace Bgpgg.Rib

section

variable {Item : Type} {below coarse : Item → Item → Prop} [DecidableRel below] [IsTrans Item coarse]
  (coarser : ∀ a b, below a b → coarse a b) (passed : ∀ a b, ¬ below a b → coarse b a)

include coarser passed

theorem orderedInsert_coarse (item : Item) (placed : List Item) (ordered : placed.Pairwise coarse) :
    (placed.orderedInsert below item).Pairwise coarse := by
  induction placed with
  | nil => exact List.pairwise_singleton _ _
  | cons head rest ih =>
    obtain ⟨first, others⟩ := List.pairwise_cons.mp ordered
    by_cases stops : below item head
    · rw [List.orderedInsert_cons_of_le _ _ stops, List.pairwise_cons, List.forall_mem_cons]
      have ahead := coarser item head stops
      exact ⟨⟨ahead, fun later member => trans_of coarse ahead (first later member)⟩, ordered⟩
    · rw [List.orderedInsert_of_not_le _ _ stops, List.pairwise_cons]
      refine ⟨fun later member => ?_, ih others⟩
      cases (List.mem_orderedInsert ..).mp member with
      | inl same => exact same ▸ passed item head stops
      | inr old => exact first later old

-- A sort by a comparison that is not transitive still sorts by a coarser one that is.
theorem insertionSort_coarse (items : List Item) : (items.insertionSort below).Pairwise coarse := by
  induction items with
  | nil => exact .nil
  | cons item rest ih => exact orderedInsert_coarse coarser passed item _ ih

end

namespace LocRib

open Net Lib Bgpgg.Rib.Path

-- LLGR_STALE, LOCAL_PREF, AS_PATH length and ORIGIN: the steps before the MED step.
def Leads (a b : Arc Path) : Prop := (beforeMed a.value b.value).isGE = true

theorem sortPaths_ranked (paths : List (Arc Path)) (few : paths.length ≤ 20) : (sortPaths paths).Pairwise Leads := by
  have : IsTrans (Arc Path) fun a b => Leads b a := ⟨fun _ _ _ ba cb => beforeMed_trans.isGE_trans cb ba⟩
  rw [sortPaths, sortBy, if_pos few, List.pairwise_reverse]
  apply insertionSort_coarse
  · intro a b above
    rw [bestPathCmp_split] at above
    cases ahead : beforeMed b.value a.value with
    | lt => simp [ahead] at above
    | eq | gt => simp [Leads, ahead]
  · intro a b below
    rw [bestPathCmp_swap, bestPathCmp_split, not_not] at below
    cases ahead : beforeMed a.value b.value with
    | lt => simp [ahead] at below
    | eq | gt => simp [Leads, ahead]

def Ranked {Alloc : Type} (rib : LocRib Alloc) : Prop :=
  ∀ key, (rib.getAllPaths key).length ≤ 20 ∧ (rib.getAllPaths key).Pairwise Leads

variable {Alloc : Type} {rib final : LocRib Alloc} {peerIp : IpAddr} {key : RouteKey}

theorem Ranked.sublist (ranked : rib.Ranked) (kept : ∀ key, (final.getAllPaths key).Sublist (rib.getAllPaths key)) : final.Ranked :=
  fun key => ⟨(kept key).length_le.trans (ranked key).1, (ranked key).2.sublist (kept key)⟩

theorem Ranked.resorted (ranked : rib.Ranked) {paths : List (Arc Path)} (few : paths.length ≤ 20)
    (stored : ∀ other, final.getAllPaths other = if other = key then sortPaths paths else rib.getAllPaths other) :
    final.Ranked := by
  intro other
  rw [stored]
  split
  next => exact ⟨(sortBy_perm _ paths).length_eq.trans_le few, sortPaths_ranked paths few⟩
  next => exact ranked other

theorem Ranked.removed (ranked : rib.Ranked) (shouldRemove : Path → Bool) : (rib.removePaths key shouldRemove).2.Ranked := by
  refine ranked.sublist fun other => ?_
  rw [getAllPaths_removePaths]
  split
  next here => exact here ▸ List.filter_sublist
  next => exact .refl _

theorem Ranked.marked (ranked : rib.Ranked) (peerIp : IpAddr) (afiSafi : AfiSafi) : (rib.markPeerRoutesStale peerIp afiSafi).Ranked := by
  intro key
  rw [getAllPaths_markPeerRoutesStale]
  split
  next =>
    rw [markStale, List.length_map, List.pairwise_map]
    refine ⟨(ranked key).1, (ranked key).2.imp fun {a b} leads => ?_⟩
    split <;> split <;> exact leads
  next => exact ranked key

variable [PathIdAllocator Alloc]

theorem Ranked.upserted (ranked : rib.Ranked) (path : Path)
    (few : ((rib.upsertPath key path).2.getAllPaths key).length ≤ 20) : (rib.upsertPath key path).2.Ranked := by
  cases limit : rib.lsLimitReached key with
  | true => rwa [upsertPath_refused rib key path limit]
  | false =>
    obtain ⟨-, paths, effect⟩ := upsertPath_accepted rib key path limit
    rw [effect.getAllPaths, if_pos rfl, sortPaths, (sortBy_perm _ paths).length_eq] at few
    exact ranked.resorted few effect.getAllPaths

theorem Ranked.staleKey (strategy : StaleStrategy) (delta : RouteDelta) (key : RouteKey) (ranked : rib.Ranked) :
    (handleStaleKey peerIp strategy (rib, delta) key).1.Ranked := by
  cases handleStaleKey_cases peerIp strategy rib delta key with
  | inl idle => rwa [idle.2]
  | inr active =>
    obtain ⟨route, -, effect, -⟩ := active
    have shorter := (handleStaleKey_values peerIp strategy rib delta key key).length_eq
    rw [if_pos rfl, List.length_map, List.length_map, effect.getAllPaths, if_pos rfl, sortPaths,
      (sortBy_perm _ _).length_eq] at shorter
    exact ranked.resorted (shorter.trans_le ((List.length_filter_le ..).trans (ranked key).1)) effect.getAllPaths

-- No sort of the operation has more than twenty paths before it.
def SortsFew (rib : LocRib Alloc) : Op → Prop
  | .applyPeerUpdate peerIp pendingRoutes importPolicy => Permits (applyPending peerIp importPolicy) (fun state pending =>
      ((applyPending peerIp importPolicy state pending).1.getAllPaths pending.routeKey).length ≤ 20) (rib, []) pendingRoutes
  | .addLocalRoute key pathAttrs => ((rib.addLocalRoute key pathAttrs).1.getAllPaths key).length ≤ 20
  | _ => True

theorem Ranked.applyPending {importPolicy : ImportPolicy} {state : LocRib Alloc × List RouteKey} {pending : PendingRoute}
    (ranked : state.1.Ranked)
    (few : ((applyPending peerIp importPolicy state pending).1.getAllPaths pending.routeKey).length ≤ 20) :
    (applyPending peerIp importPolicy state pending).1.Ranked := by
  have step := applyPending_step peerIp importPolicy state pending
  generalize LocRib.applyPending peerIp importPolicy state pending = next at step few ⊢
  cases step with
  | withdrawn key remotePathId | denied key announced denial => exact ranked.removed _
  | stored key announced accepted available => exact ranked.upserted _ few
  | refused key announced accepted limit => exact ranked

theorem Ranked.step (ranked : rib.Ranked) (op : Op) (few : rib.SortsFew op) : (rib.step op).Ranked := by
  cases op with
  | applyPeerUpdate peerIp pendingRoutes importPolicy =>
    exact (Reaches.of_permits _ _ few).invariant (fun state => state.1.Ranked) ranked fun _ _ holds short => holds.applyPending short
  | addLocalRoute key pathAttrs =>
    rw [SortsFew, addLocalRoute_rib] at few
    rw [LocRib.step, addLocalRoute_rib]
    exact ranked.upserted _ few
  | removeLocalRoute key =>
    rw [LocRib.step, removeLocalRoute_rib]
    exact ranked.removed _
  | removeRoutesFromPeer peerIp =>
    refine ranked.sublist fun key => ?_
    rw [LocRib.step, removeRoutesFromPeer, getAllPaths_clearPeerPaths]
    exact List.filter_sublist
  | markPeerRoutesStale peerIp afiSafi => exact ranked.marked peerIp afiSafi
  | applyLlgr peerIp afiSafis | removePeerRoutesStale peerIp afiSafis =>
    exact handleStale_invariant Ranked (fun rib delta key => Ranked.staleKey _ delta key) _ afiSafis ranked

-- In a run that never sorts more than twenty paths no path stands before one that these steps
-- prefer, the best path included, whatever the MED step does to the order among those they
-- leave equal.
theorem paths_ranked_in_every_run (config : LocRibConfig) (rib : LocRib BitmapPathIdAllocator) (run : Reaches step SortsFew (new config) rib) :
    rib.Ranked := by
  refine run.invariant Ranked (fun key => ?_) fun rib op ranked few => ranked.step op few
  rw [getAllPaths, getRoute_new]
  exact ⟨by decide, .nil⟩

def medExample (neighbor : UInt32) (med : Option UInt32) (bgpId : Ipv4Addr) : Op :=
  .applyPeerUpdate (.v4 bgpId) [.announce (.pfx (.v4 ⟨0x0A000000, 8⟩)) (ebgpExample neighbor med bgpId)] fun _ path => (true, path)

-- Three paths that the whole comparison prefers in a circle, and a local one.
def medRun : List Op := [medExample 65001 (some 20) 1, medExample 65002 none 2, medExample 65001 (some 10) 3,
  .addLocalRoute (.pfx (.v4 ⟨0x0A000000, 8⟩)) localExample]

theorem paths_ranked_in_med_run : (medRun.foldl step (new ⟨0⟩)).Ranked := by
  refine paths_ranked_in_every_run ⟨0⟩ _ (Reaches.of_permits _ _ ?_)
  refine ⟨⟨?_, trivial⟩, ⟨?_, trivial⟩, ⟨?_, trivial⟩, ?_, trivial⟩
  all_goals exact show _ ≤ 20 by decide +kernel

end LocRib

end Bgpgg.Rib
