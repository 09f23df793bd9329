import Bgpgg.Peer.Advertise
import Bgpgg.Rib.LocRibInvariant

namespace Bgpgg.Peer

open Net Lib Rib Rib.LocRib Policies List AdjRibOut

theorem computeExportPath_withStale (stale : Bool) (key : RouteKey) (path : Path) (ctx : PeerExportContext) :
    computeExportPath key (withStale stale path) ctx = computeExportPath key path ctx := by
  have judged : shouldExportToPeer (withStale stale path) ctx = shouldExportToPeer path ctx := rfl
  rw [computeExportPath, evaluatePolicies_withStale]
  rfl

theorem computeExportPath_own (key : RouteKey) {path : Path} {ctx : PeerExportContext}
    (own : path.isFromPeer ctx.peerAddr = true) : computeExportPath key path ctx = none := by
  have source : path.source.peerIp = some ctx.peerAddr := by
    rw [Path.isFromPeer, beq_iff_eq] at own
    exact own
  have refused : shouldExportToPeer path ctx = false := by simp [shouldExportToPeer, source]
  rw [computeExportPath, refused]
  rfl

theorem computeExportPath_localPathId {key : RouteKey} {path exported : Path} {ctx : PeerExportContext}
    (computed : computeExportPath key path ctx = some exported) : exported.localPathId = path.localPathId := by
  have untouched := evaluatePolicies_untouched key ((ctx.exportPolicies.lookup key.afiSafi).getD []) path
  rw [computeExportPath] at computed
  split at computed
  · cases computed
  · simp only at computed
    split at computed
    · cases computed
    · obtain ⟨attrs, -, rfl⟩ := Option.map_eq_some_iff.mp computed
      exact untouched.localPathId

section

variable {Alloc : Type}

variable (ctx : PeerExportContext) (before after : LocRib Alloc) (locRib : LocRib Alloc) (key : RouteKey)

def exportsOf (ctx : PeerExportContext) (locRib : LocRib Alloc) (key : RouteKey) : List (Option RoutePath) :=
  (locRib.getAllPaths key).map (exportRoutePath key ctx)

theorem selection_eq : selection ctx locRib key =
      if ctx.sendFormat.addPath.contains key.afiSafi then (exportsOf ctx locRib key).filterMap id
      else if ctx.rsClient then ((exportsOf ctx locRib key).findSome? id).toList
      else ((exportsOf ctx locRib key).head?.bind id).toList := by
  rw [selection, selectPathsForExport, exportsOf, getBestPath_eq_head]
  simp [findSome?_map, Option.bind_map]

theorem selection_of_exports (same : exportsOf ctx after key = exportsOf ctx before key) :
    selection ctx after key = selection ctx before key := by
  rw [selection_eq, selection_eq, same]

theorem selection_of_best (single : (ctx.sendFormat.addPath.contains key.afiSafi || ctx.rsClient) = false)
    (same : after.getBestPath key = before.getBestPath key) :
    selection ctx after key = selection ctx before key := by
  rw [Bool.or_eq_false_iff] at single
  simp [selection, selectPathsForExport, single.1, single.2, same]

theorem mem_selection_addPath (addPath : ctx.sendFormat.addPath.contains key.afiSafi = true) (routePath : RoutePath) :
    routePath ∈ selection ctx locRib key ↔ ∃ path ∈ locRib.getAllPaths key, exportRoutePath key ctx path = some routePath := by
  rw [selection, selectPathsForExport, if_pos addPath, mem_filterMap]

theorem selection_of_silent (silent : ∀ path ∈ locRib.getAllPaths key, computeExportPath key path.value ctx = none) :
    selection ctx locRib key = [] := by
  refine eq_nil_iff_forall_not_mem.mpr fun routePath member => ?_
  obtain ⟨-, path, stored, computed⟩ := selection_key ctx locRib member
  rw [silent path stored] at computed
  cases computed

theorem Advertised.of_selection {ctx : PeerExportContext} {before after : LocRib Alloc} {table : AdjRibOut}
    {key : RouteKey} (advertised : Advertised ctx before table key)
    (same : ∀ routePath, routePath ∈ selection ctx after key ↔ routePath ∈ selection ctx before key) :
    Advertised ctx after table key := by
  intro id path
  rw [advertised id path]
  simp [same]

end

structure IdsApart {Alloc : Type} (rib : LocRib Alloc) : Prop where
  named : ∀ key, ∀ path ∈ rib.getAllPaths key, path.value.localPathId.isSome = true
  apart : ∀ key, ((rib.getAllPaths key).map fun path => path.value.localPathId).Nodup

theorem IdsApart.identified {Alloc : Type} {rib : LocRib Alloc} (ids : IdsApart rib) (ctx : PeerExportContext) (key : RouteKey) :
    Identified ctx rib key where
  named routePath member := by
    obtain ⟨-, path, stored, computed⟩ := selection_key ctx rib member
    rw [computeExportPath_localPathId computed]
    exact ids.named key path stored
  unique first firstMember second secondMember same := by
    obtain ⟨-, path, stored, computed⟩ := selection_key ctx rib firstMember
    obtain ⟨-, other, otherStored, otherComputed⟩ := selection_key ctx rib secondMember
    rw [computeExportPath_localPathId computed,
      computeExportPath_localPathId otherComputed] at same
    rw [inj_on_of_nodup_map (ids.apart key) stored otherStored same, otherComputed] at computed
    exact (Option.some.inj computed).symm

theorem Valid.idsApart {rib : LocRib BitmapPathIdAllocator} (valid : rib.Valid) : IdsApart rib where
  named key path stored := by
    cases found : rib.getRoute key with
    | none => simp [getAllPaths, found] at stored
    | some route =>
      obtain ⟨id, ident, -⟩ := valid.wellFormed.hasLocalId key route path found (by
        simpa [getAllPaths, found] using stored)
      rw [ident]
      rfl
  apart key := by
    cases found : rib.getRoute key with
    | none => simp [getAllPaths, found]
    | some route =>
      rw [show rib.getAllPaths key = route.paths by simp [getAllPaths, found]]
      exact pairwise_map.mpr (valid.wellFormed.localIdWithin key route found)

theorem Valid.identified {rib : LocRib BitmapPathIdAllocator} (valid : rib.Valid) (ctx : PeerExportContext)
    (key : RouteKey) : Identified ctx rib key := (Valid.idsApart valid).identified ctx key

section

variable {Alloc : Type} {table : AdjRibOut}

structure Formed (table : AdjRibOut) : Prop where
  keyed : AdjRibOut.Keyed table
  filled : ∀ key, table.get key ≠ none → ∃ id, AdjRibOut.pathAt table key id ≠ none

theorem filled_write {key : RouteKey} {stored : AssocMap UInt32 Path} (id : UInt32) (present : stored.lookup id ≠ none)
    (filled : ∀ key, table.get key ≠ none → ∃ id, pathAt table key id ≠ none) :
    ∀ other, (table.write key stored).get other ≠ none → ∃ id, pathAt (table.write key stored) other id ≠ none := by
  intro other there
  rw [FamilyTables.get_write] at there
  simp only [pathAt_write]
  by_cases here : other = key
  · exact ⟨id, by rwa [if_pos here]⟩
  · rw [if_neg here] at there
    simpa only [if_neg here] using filled other there

section

variable (formed : Formed table)

include formed

theorem Formed.insert (key : RouteKey) (path : Path) : Formed (AdjRibOut.insert table key path) where
  keyed := keyed_insert formed.keyed key path
  filled := by
    unfold AdjRibOut.insert
    split
    · exact formed.filled
    · rename_i id _
      exact filled_write id (by simp) formed.filled

theorem Formed.removePath (key : RouteKey) (id : UInt32) : Formed (AdjRibOut.removePath table key id) where
  keyed := by
    intro other stored path found
    rw [pathAt_removePath] at found
    split at found
    · cases found
    · exact formed.keyed other stored path found
  filled := by
    unfold AdjRibOut.removePath
    split
    · exact formed.filled
    · dsimp only
      split
      · intro other there
        rw [FamilyTables.get_remove] at there
        simp only [pathAt, FamilyTables.get_remove]
        by_cases here : other = key
        · simp [here] at there
        · rw [if_neg here] at there
          simp only [if_neg here]
          exact formed.filled other there
      · rename_i stored found some
        have nonempty : (stored.erase id).entries ≠ [] := fun none => some (by rw [AssocMap.size, none]; rfl)
        obtain ⟨entry, rest, same⟩ := exists_cons_of_ne_nil nonempty
        refine filled_write entry.1 ?_ formed.filled
        rw [AList.mem_lookup_iff.mpr (same ▸ mem_cons_self)]
        exact Option.some_ne_none _

theorem Formed.propagated (ctx : PeerExportContext) (delta : RouteDelta) (locRib : LocRib Alloc) :
    Formed (propagateRoutesToPeer ctx delta locRib table).1 := by
  have removed : ∀ key (paths : List Path) (table : AdjRibOut), Formed table → Formed (paths.foldl (removeStale key) table) := by
    intro key paths table start
    refine foldlRecOn paths (removeStale key) start fun table formed path _ => ?_
    unfold removeStale
    split
    · exact formed
    · exact formed.removePath key _
  have family : ∀ (table : AdjRibOut) (afiSafi : AfiSafi), Formed table →
      Formed (exportFamily ctx delta locRib table afiSafi).adjRibOut := by
    intro table afiSafi start
    refine foldlRecOn _ _ ?_ fun table formed routePath _ => formed.insert _ _
    refine foldlRecOn (motive := fun state : FamilyExport => Formed state.adjRibOut) _ _ start fun state formed key _ => ?_
    unfold exportKey
    split
    · exact formed
    · exact removed key _ _ formed
  exact foldlRecOn (motive := fun state : AdjRibOut × List FamilyExport => Formed state.1) _ _ formed
    fun state formed afiSafi _ => family state.1 afiSafi formed

theorem Formed.get_eq_none (key : RouteKey) : table.get key = none ↔ ∀ id, pathAt table key id = none := by
  constructor
  · intro absent id
    rw [pathAt, absent]
    rfl
  · intro empty
    by_contra present
    obtain ⟨id, found⟩ := formed.filled key present
    exact found (empty id)

end

-- What is recorded after a propagation: the selection of every key that was to be propagated,
-- and what was there before of all others.
theorem propagated_table_exact (ctx : PeerExportContext) (delta : RouteDelta) (locRib : LocRib Alloc) (table : AdjRibOut)
    (formed : Formed table) (ids : IdsApart locRib) (key : RouteKey) :
    let after := (propagateRoutesToPeer ctx delta locRib table).1
    if key.afiSafi ∈ ctx.afiSafis ∧ key ∈ routeKeysFor ctx delta key.afiSafi then
      (∀ id path, AdjRibOut.pathAt after key id = some path ↔ path.localPathId = some id ∧ ⟨key, path⟩ ∈ selection ctx locRib key) ∧
      (after.get key = none ↔ selection ctx locRib key = [])
    else (∀ id, AdjRibOut.pathAt after key id = AdjRibOut.pathAt table key id) ∧ (after.get key = none ↔ table.get key = none) := by
  intro after
  have propagated := propagateRoutesToPeer_propagated ctx delta locRib table formed.keyed (ids.identified ctx)
  have absent := (formed.propagated ctx delta locRib).get_eq_none key
  by_cases exported : key.afiSafi ∈ ctx.afiSafis ∧ key ∈ routeKeysFor ctx delta key.afiSafi
  · rw [if_pos exported]
    have entries : ∀ id path, pathAt after key id = some path ↔ path.localPathId = some id ∧ ⟨key, path⟩ ∈ selection ctx locRib key := by
      intro id path
      rw [propagated.advertised key exported id path]
      refine and_congr_right fun _ => ⟨?_, fun member => ⟨_, member, rfl⟩⟩
      rintro ⟨⟨own, exportedPath⟩, member, rfl⟩
      obtain rfl : own = key := (selection_key ctx locRib member).1
      exact member
    refine ⟨entries, absent.trans ⟨fun none => ?_, fun empty id => ?_⟩⟩
    · refine eq_nil_iff_forall_not_mem.mpr fun routePath member => ?_
      obtain ⟨id, ident⟩ := Option.isSome_iff_exists.mp ((ids.identified ctx key).named routePath member)
      have same := (selection_key ctx locRib member).1
      have stored := (entries id routePath.path).mpr ⟨ident, same ▸ member⟩
      rw [none id] at stored
      cases stored
    · refine Option.eq_none_iff_forall_ne_some.mpr fun path found => ?_
      have member := ((entries id path).mp found).2
      rw [empty] at member
      cases member
  · rw [if_neg exported]
    have same := propagated.others key exported
    refine ⟨same, absent.trans ?_⟩
    rw [formed.get_eq_none key]
    simp [same]

end

theorem recorded_path_is_replaced : let key : RouteKey := .pfx (.v4 ⟨0x0A000000, 8⟩)
    let rib := (LocRib.new ⟨0⟩).step (.addLocalRoute key LocRib.localExample)
    let table := AdjRibOut.insert .new key { routeVia (.ipv4 1) with localPathId := some 7 }
    Formed table ∧ IdsApart rib ∧
      ∀ id path, AdjRibOut.pathAt (propagateRoutesToPeer (unicastSession 65002) ⟨[key], [key, key]⟩ rib table).1 key id = some path ↔
        path.localPathId = some id ∧ ⟨key, path⟩ ∈ selection (unicastSession 65002) rib key := by
  intro key rib table
  have formed : Formed table := Formed.insert ⟨keyed_new, fun key present => absurd (FamilyTables.get_new key) present⟩ key _
  have ids : IdsApart rib := Valid.idsApart (LocRib.step_valid _ _ (LocRib.new_valid ⟨0⟩) (by change length [] < 2 ^ 32 - 1; decide))
  have recorded := propagated_table_exact (unicastSession 65002) ⟨[key], [key, key]⟩ rib table formed ids key
  rw [if_pos (by decide +kernel)] at recorded
  exact ⟨formed, ids, recorded.1⟩

end Bgpgg.Peer
