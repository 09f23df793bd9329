import Mathlib.Data.List.Infix
import Bgpgg.Lib.Registry
import Bgpgg.Rib.StaleLoop

namespace Bgpgg.Rib.LocRib

open Net Wire Lib Table List BitmapPathIdAllocator

abbrev Slot := RouteSource × Option UInt32

def slotOf (path : Path) : Slot := (path.attrs.source, path.remotePathId)

def entryOf (path : Path) : Slot × Option Nat := (slotOf path, path.localPathId.map UInt32.toNat)

def entriesOf (paths : List (Arc Path)) : List (Slot × Option Nat) := paths.map fun path => entryOf path.value

-- The Loc-RIB as a registry: an entry's slot is the source and the peer's path
-- identifier, its identifier the one that pathIds handed out.
def registry (rib : LocRib BitmapPathIdAllocator) : Registry RouteKey Slot where
  entries key := entriesOf (rib.getAllPaths key)
  held := rib.pathIds.Held

structure Valid (rib : LocRib BitmapPathIdAllocator) : Prop where
  nonempty : ∀ key route, rib.getRoute key = some route → route.paths ≠ []
  keyed : ∀ key route, rib.getRoute key = some route → route.key = key
  consistent : rib.registry.Consistent
  packed : rib.pathIds.Packed

theorem matchesRemote_iff (path other : Path) : path.matchesRemote other = true ↔ slotOf path = slotOf other := by
  simp [Path.matchesRemote, slotOf]

section

variable {before after : LocRib BitmapPathIdAllocator} (config : LocRibConfig) (rib : LocRib BitmapPathIdAllocator)
  (key : RouteKey) (peerIp : IpAddr) (strategy : StaleStrategy) (path : Path) (paths : List (Arc Path)) (route : LocRoute)

theorem entriesOf_sortPaths : (entriesOf (sortPaths paths)).Perm (entriesOf paths) := (sortBy_perm _ paths).map _

theorem entriesOf_partition (drop : Path → Bool) (paths : List (Arc Path)) : (entriesOf paths).Perm (entriesOf (retained drop paths) ++
      entriesOf (paths.filter fun path => drop path.value)) := by
  have split := filter_append_perm (fun path : Arc Path => !drop path.value) paths
  simp only [Bool.not_not] at split
  simpa only [entriesOf, retained, map_append] using (split.map fun path => entryOf path.value).symm

theorem dropped_id_iff (id : Nat) : (∃ entry ∈ entriesOf paths, entry.2 = some id) ↔ ∃ freed ∈ localIds paths, id = freed.toNat := by
  simp only [entriesOf, localIds, mem_map, mem_filterMap, entryOf]
  constructor
  · rintro ⟨entry, ⟨path, member, rfl⟩, carries⟩
    obtain ⟨freed, stored, same⟩ := Option.map_eq_some_iff.mp carries
    exact ⟨freed, ⟨path, member, stored⟩, same.symm⟩
  · rintro ⟨freed, ⟨path, member, stored⟩, rfl⟩
    exact ⟨_, ⟨path, member, rfl⟩, by simp [stored]⟩

theorem getRoute_new : (LocRib.new config).getRoute key = none := by
  cases key with
  | pfx net => cases net <;> rfl
  | linkState nlri => rfl

theorem new_valid : (LocRib.new config).Valid := by
  have noneSet : ∀ index, BitmapPathIdAllocator.new.isSet index = false := by
    simp [isSet, BitmapPathIdAllocator.new, wordBit]
  refine ⟨?_, ?_, Registry.Consistent.empty _ ?_ ?_, ?_⟩
  · intro key route found
    rw [getRoute_new] at found
    cases found
  · intro key route found
    rw [getRoute_new] at found
    cases found
  · simp [registry, getAllPaths, getRoute_new, entriesOf]
  · rintro id ⟨index, -, set⟩
    have unset := noneSet index
    simp only [LocRib.new, withPathIds] at set
    rw [unset] at set
    cases set
  · intro index below
    simp [LocRib.new, withPathIds, BitmapPathIdAllocator.new] at below

-- Every operation that only drops paths: rewrites keep the slots and identifiers of
-- what stays, and exactly the identifiers of what goes are released.
theorem Valid.of_drop (valid : before.Valid) (dropped : RouteKey → List (Arc Path))
    (split : ∀ key, (entriesOf (before.getAllPaths key)).Perm (entriesOf (after.getAllPaths key) ++ entriesOf (dropped key)))
    (routes : ∀ key route, after.getRoute key = some route → route.paths ≠ [] ∧ route.key = key)
    (freed : List UInt32) (freedIff : ∀ id, id ∈ freed ↔ ∃ key, id ∈ localIds (dropped key))
    (released : after.pathIds = freeAll before.pathIds freed) : after.Valid where
  nonempty key route found := (routes key route found).1
  keyed key route found := (routes key route found).2
  consistent := by
    refine valid.consistent.drop (fun key => entriesOf (dropped key)) split ?_
    intro id
    change after.pathIds.Held id ↔ before.pathIds.Held id ∧ _
    rw [released, freeAll_held]
    refine and_congr_right fun _ => ?_
    constructor
    · rintro untouched ⟨key, entry, member, carries⟩
      obtain ⟨gone, inDropped, same⟩ := (dropped_id_iff _ id).mp ⟨entry, member, carries⟩
      exact untouched gone ((freedIff gone).mpr ⟨key, inDropped⟩) same
    · rintro untouched gone inFreed same
      obtain ⟨key, inDropped⟩ := (freedIff gone).mp inFreed
      obtain ⟨entry, member, carries⟩ := (dropped_id_iff _ id).mpr ⟨gone, inDropped, same⟩
      exact untouched ⟨key, entry, member, carries⟩
  packed := by
    rw [released]
    exact freeAll_packed freed before.pathIds valid.packed

theorem Valid.of_rewrite (valid : before.Valid)
    (same : ∀ key, (entriesOf (after.getAllPaths key)).Perm (entriesOf (before.getAllPaths key)))
    (routes : ∀ key route, after.getRoute key = some route → route.paths ≠ [] ∧ route.key = key)
    (ids : after.pathIds = before.pathIds) : after.Valid where
  nonempty key route found := (routes key route found).1
  keyed key route found := (routes key route found).2
  consistent := valid.consistent.perm same fun id => by
    change after.pathIds.Held id ↔ before.pathIds.Held id
    rw [ids]
  packed := ids ▸ valid.packed

theorem routes_of_removal (valid : before.Valid) (key : RouteKey)
    (change : LocRoute → LocRoute) (sameKey : ∀ route, (change route).key = route.key)
    (found : after.getRoute key = ((before.getRoute key).map change).filter fun route => !route.paths.isEmpty)
    (route : LocRoute) (stored : after.getRoute key = some route) : route.paths ≠ [] ∧ route.key = key := by
  rw [found, Option.filter_eq_some_iff, Option.map_eq_some_iff] at stored
  obtain ⟨⟨old, oldFound, rfl⟩, nonempty⟩ := stored
  refine ⟨by simpa using nonempty, ?_⟩
  rw [sameKey]
  exact valid.keyed key old oldFound

theorem removePaths_valid (shouldRemove : Path → Bool) (valid : rib.Valid) :
    ((rib.removePaths key shouldRemove).2.freeIds (rib.removePaths key shouldRemove).1).Valid := by
  have paths : ∀ other, ((rib.removePaths key shouldRemove).2.freeIds (rib.removePaths key shouldRemove).1).getAllPaths
      other = if other = key then retained shouldRemove (rib.getAllPaths key) else rib.getAllPaths other := by
    intro other
    rw [← getAllPaths_removePaths, getAllPaths, getRoute_freeIds, getAllPaths]
  refine valid.of_drop (fun other => if other = key then (rib.getAllPaths key).filter fun path =>
    shouldRemove path.value else []) ?_ ?_ (rib.removePaths key shouldRemove).1 ?_ ?_
  · intro other
    rw [paths]
    by_cases same : other = key
    · subst same
      rw [if_pos rfl, if_pos rfl]
      exact entriesOf_partition shouldRemove _
    · rw [if_neg same, if_neg same]
      simp [entriesOf]
  · intro other route found
    rw [getRoute_freeIds] at found
    by_cases same : other = key
    · subst same
      exact routes_of_removal valid other (fun route => { route with paths := retained shouldRemove route.paths })
        (fun _ => rfl) (by rw [getRoute_removePaths, if_pos rfl]) route found
    · rw [getRoute_removePaths, if_neg same] at found
      exact ⟨valid.nonempty other route found, valid.keyed other route found⟩
  · intro id
    rw [removePaths_freed]
    constructor
    · intro member
      exact ⟨key, by rwa [if_pos rfl]⟩
    · rintro ⟨other, member⟩
      by_cases same : other = key
      · rwa [if_pos same] at member
      · rw [if_neg same] at member
        cases member
  · rw [freeIds, (pathIds_removePaths rib key shouldRemove).1]

theorem find_slot (existing : Arc Path) (found : paths.find? (fun stored => stored.value.matchesRemote path) = some existing) :
    slotOf existing.value = slotOf path := by
  have matched := find?_some found
  exact (matchesRemote_iff existing.value path).mp matched

theorem refreshMetadata_entry (fresh : Nat) (existing : Arc Path) :
    entryOf (refreshMetadata path fresh existing).value = entryOf existing.value := by
  by_cases changed : existing.value.rpkiState ≠ path.rpkiState ∨ existing.value.stale
  · rw [refreshMetadata, if_pos changed]
    rfl
  · rw [refreshMetadata, if_neg changed]

theorem UpsertEffect.routes_valid {rib final : LocRib BitmapPathIdAllocator} {key : RouteKey} {path : Path}
    {paths : List (Arc Path)} (valid : rib.Valid) (effect : UpsertEffect rib key path final paths) (other : RouteKey)
    (route : LocRoute) (found : final.getRoute other = some route) : route.paths ≠ [] ∧ route.key = other := by
  rw [effect.routes] at found
  by_cases same : other = key
  · subst same
    rw [if_pos rfl, Option.some.injEq] at found
    subst found
    refine ⟨fun empty => effect.upserted.ne_nil ((sortBy_eq_nil_iff _ _).mp empty), ?_⟩
    cases stored : rib.getRoute other with
    | none => rfl
    | some old => exact valid.keyed other old stored
  · rw [if_neg same] at found
    exact ⟨valid.nonempty other route found, valid.keyed other route found⟩

theorem upsert_rewrite_valid {rib final : LocRib BitmapPathIdAllocator} {key : RouteKey} {path : Path}
    {paths : List (Arc Path)} (valid : rib.Valid) (effect : UpsertEffect rib key path final paths)
    (same : entriesOf paths = entriesOf (rib.getAllPaths key)) (ids : final.pathIds = rib.pathIds) : final.Valid := by
  refine valid.of_rewrite ?_ (effect.routes_valid valid) ids
  intro other
  rw [effect.getAllPaths]
  by_cases here : other = key
  · subst here
    rw [if_pos rfl, ← same]
    exact entriesOf_sortPaths paths
  · rw [if_neg here]

theorem upsert_added_valid {rib final : LocRib BitmapPathIdAllocator} {key : RouteKey} {path : Path} {ptr : Nat}
    (valid : rib.Valid) (room : rib.pathIds.HasRoom)
    (missing : (rib.getAllPaths key).find? (fun stored => stored.value.matchesRemote path) = none)
    (effect : UpsertEffect rib key path final (rib.getAllPaths key ++ [⟨ptr, { path with localPathId := some rib.pathIds.alloc.1 }⟩]))
    (ids : final.pathIds = rib.pathIds.alloc.2) : final.Valid := by
  obtain ⟨freeId, positive, packed, taken⟩ := alloc_held rib.pathIds valid.packed room
  refine ⟨fun other route found => (effect.routes_valid valid other route found).1,
    fun other route found => (effect.routes_valid valid other route found).2,
    valid.consistent.push key (slotOf path) rib.pathIds.alloc.1.toNat ?_ ?_ ?_ freeId positive ?_, ids ▸ packed⟩
  · change (entriesOf (final.getAllPaths key)).Perm _
    rw [effect.getAllPaths, if_pos rfl]
    refine (entriesOf_sortPaths _).trans ?_
    simp only [entriesOf, map_append]
    rfl
  · intro other different
    change entriesOf (final.getAllPaths other) = _
    rw [effect.getAllPaths, if_neg different]
    rfl
  · intro entry member
    obtain ⟨stored, storedMember, rfl⟩ := mem_map.mp member
    intro sameSlot
    have unmatched := find_none_of _ _ missing stored storedMember
    rw [(matchesRemote_iff stored.value path).mpr sameSlot] at unmatched
    cases unmatched
  · intro other
    change final.pathIds.Held other ↔ _
    rw [ids]
    exact taken other

theorem upsertPath_valid (valid : rib.Valid) (room : rib.pathIds.HasRoom) : (rib.upsertPath key path).2.Valid := by
  by_cases limit : rib.lsLimitReached key = true
  · rw [upsertPath_refused rib key path limit]
    exact valid
  · obtain ⟨-, paths, effect⟩ := upsertPath_accepted rib key path (by simpa using limit)
    generalize (rib.upsertPath key path).2 = final at *
    obtain ⟨upserted, -, -, -⟩ := id effect
    generalize idsOf : final.pathIds = ids at upserted
    cases upserted with
    | replaced existing found different =>
      refine upsert_rewrite_valid valid effect (map_updateFirst _ _ _ _ ?_) idsOf
      intro other search
      have same : other = existing := Option.some.inj (search.symm.trans found)
      subst same
      have slot := find_slot path _ other found
      simp only [entryOf, slotOf, Prod.mk.injEq] at slot ⊢
      exact ⟨⟨slot.1.symm, slot.2.symm⟩, trivial⟩
    | refreshed existing found same =>
      exact upsert_rewrite_valid valid effect (map_updateFirst _ _ _ _ fun other _ => refreshMetadata_entry path _ other) idsOf
    | added missing => exact upsert_added_valid valid room missing effect idsOf

theorem mem_allRoutes : route ∈ rib.ipv4Unicast.values ++ rib.ipv6Unicast.values ++ AssocMap.values rib.linkState ↔
      ∃ key, rib.getRoute key = some route := by
  rw [mem_append, mem_append, PrefixMap.mem_values_iff, PrefixMap.mem_values_iff, AssocMap.mem_values_iff]
  constructor
  · rintro ((⟨net, found⟩ | ⟨net, found⟩) | ⟨nlri, found⟩)
    · exact ⟨.pfx (.v4 net), found⟩
    · exact ⟨.pfx (.v6 net), found⟩
    · exact ⟨.linkState nlri, found⟩
  · rintro ⟨key, found⟩
    cases key with
    | pfx net =>
      cases net with
      | v4 net => exact .inl (.inl ⟨net, found⟩)
      | v6 net => exact .inl (.inr ⟨net, found⟩)
    | linkState nlri => exact .inr ⟨nlri, found⟩

theorem mem_collectPeerPathIds (id : UInt32) : id ∈ collectPeerPathIds peerIp
        (rib.ipv4Unicast.values ++ rib.ipv6Unicast.values ++ AssocMap.values rib.linkState) ↔
      ∃ key, id ∈ localIds ((rib.getAllPaths key).filter fun path => path.value.isFromPeer peerIp) := by
  simp only [collectPeerPathIds, mem_flatMap]
  constructor
  · rintro ⟨route, member, freed⟩
    obtain ⟨key, found⟩ := (mem_allRoutes rib route).mp member
    exact ⟨key, by simpa only [getAllPaths, found, Option.map_some, Option.getD_some] using freed⟩
  · rintro ⟨key, freed⟩
    cases found : rib.getRoute key with
    | none =>
      simp only [getAllPaths, found] at freed
      cases freed
    | some route =>
      simp only [getAllPaths, found, Option.map_some] at freed
      exact ⟨route, (mem_allRoutes rib route).mpr ⟨key, found⟩, freed⟩

theorem clearPeerPaths_valid (valid : rib.Valid) : (rib.clearPeerPaths peerIp).Valid := by
  refine valid.of_drop (fun key => (rib.getAllPaths key).filter fun path => path.value.isFromPeer peerIp) ?_ ?_ _
    (mem_collectPeerPathIds rib peerIp) (pathIds_clearPeerPaths rib peerIp)
  · intro key
    rw [getAllPaths_clearPeerPaths]
    exact entriesOf_partition _ _
  · intro key route found
    exact routes_of_removal valid key (dropPeerPaths peerIp) (fun _ => rfl) (getRoute_clearPeerPaths rib peerIp key) route found

theorem markStale_entries : entriesOf (markStale peerIp route).paths = entriesOf route.paths := by
  simp only [entriesOf, markStale, map_map]
  apply map_congr_left
  intro path member
  by_cases mine : path.value.isFromPeer peerIp = true
  · simp [mine, entryOf, slotOf]
  · simp [mine]

theorem markPeerRoutesStale_valid (afiSafi : AfiSafi) (valid : rib.Valid) : (rib.markPeerRoutesStale peerIp afiSafi).Valid := by
  refine valid.of_rewrite ?_ ?_ ?_
  · intro key
    rw [getAllPaths_markPeerRoutesStale]
    split
    · exact .of_eq (markStale_entries peerIp _)
    · exact .refl _
  · intro key route found
    rw [getRoute_markPeerRoutesStale] at found
    by_cases holds : familyHolds afiSafi key = true
    · rw [if_pos holds, Option.map_eq_some_iff] at found
      obtain ⟨old, stored, rfl⟩ := found
      refine ⟨?_, valid.keyed key old stored⟩
      simpa [markStale] using valid.nonempty key old stored
    · rw [if_neg holds] at found
      exact ⟨valid.nonempty key route found, valid.keyed key route found⟩
  · obtain ⟨afi, safi⟩ := afiSafi
    cases afi <;> cases safi <;> rfl

theorem staleTagged_entry : entryOf (staleTagged peerIp strategy path) = entryOf path := by
  cases staleTagged_cases peerIp strategy path with
  | inl same => rw [same]
  | inr tagged =>
    rw [tagged]
    rfl

theorem applyStaleLoop_entries (pathIds : BitmapPathIdAllocator) (arcs : Nat) :
    entriesOf (applyStaleLoop peerIp strategy paths pathIds arcs).1 = entriesOf (retained (staleDropped peerIp strategy) paths) := by
  have values := congrArg (List.map entryOf) (applyStaleLoop_values peerIp strategy paths pathIds arcs)
  simp only [map_map] at values
  refine Eq.trans values ?_
  apply map_congr_left
  intro path member
  exact staleTagged_entry peerIp strategy path.value

theorem handleStaleKey_valid (rib : LocRib BitmapPathIdAllocator) (delta : RouteDelta) (key : RouteKey) (valid : rib.Valid) :
    (handleStaleKey peerIp strategy (rib, delta) key).1.Valid := by
  cases handleStaleKey_cases peerIp strategy rib delta key with
  | inl idle =>
    rw [idle.2]
    exact valid
  | inr active =>
    obtain ⟨route, found, effect, -⟩ := active
    have stored : rib.getAllPaths key = route.paths := by rw [getAllPaths, found]; rfl
    refine valid.of_drop (fun other => if other = key then route.paths.filter fun path =>
      staleDropped peerIp strategy path.value else []) ?_ ?_ _ ?_
      (effect.pathIds.trans (applyStaleLoop_pathIds peerIp strategy route.paths rib.pathIds rib.arcs))
    · intro other
      rw [effect.getAllPaths]
      by_cases same : other = key
      · subst same
        rw [if_pos rfl, if_pos rfl, stored]
        refine (entriesOf_partition (staleDropped peerIp strategy) route.paths).trans ?_
        rw [← applyStaleLoop_entries peerIp strategy route.paths rib.pathIds rib.arcs]
        exact (entriesOf_sortPaths _).symm.append_right _
      · rw [if_neg same, if_neg same]
        simp [entriesOf]
    · intro other newRoute newFound
      rw [effect.routes] at newFound
      by_cases same : other = key
      · subst same
        rw [if_pos rfl, Option.filter_eq_some_iff, Option.some.injEq] at newFound
        obtain ⟨rfl, nonempty⟩ := newFound
        exact ⟨by simpa using nonempty, valid.keyed other route found⟩
      · rw [if_neg same] at newFound
        exact ⟨valid.nonempty other newRoute newFound, valid.keyed other newRoute newFound⟩
    · intro id
      constructor
      · intro member
        exact ⟨key, by rwa [if_pos rfl]⟩
      · rintro ⟨other, member⟩
        by_cases same : other = key
        · rwa [if_pos same] at member
        · rw [if_neg same] at member
          cases member

theorem removePeerPath_valid (remotePathId : Option UInt32) (valid : rib.Valid) : (rib.removePeerPath key peerIp remotePathId).Valid :=
  removePaths_valid rib key (isWithdrawnBy peerIp remotePathId) valid

theorem applyPending_valid (importPolicy : ImportPolicy)
    {state : LocRib BitmapPathIdAllocator × List RouteKey} (pending : PendingRoute) (valid : state.1.Valid)
    (room : state.1.pathIds.HasRoom) : (applyPending peerIp importPolicy state pending).1.Valid :=
  applyPending_keeps peerIp valid (fun remotePathId => removePeerPath_valid state.1 _ peerIp remotePathId valid)
    fun key _ _ _ => upsertPath_valid state.1 key _ valid room

inductive Op where
  | applyPeerUpdate (peerIp : IpAddr) (pendingRoutes : List PendingRoute) (importPolicy : ImportPolicy)
  | addLocalRoute (key : RouteKey) (pathAttrs : PathAttrs)
  | removeLocalRoute (key : RouteKey)
  | removeRoutesFromPeer (peerIp : IpAddr)
  | markPeerRoutesStale (peerIp : IpAddr) (afiSafi : AfiSafi)
  | applyLlgr (peerIp : IpAddr) (afiSafis : List AfiSafi)
  | removePeerRoutesStale (peerIp : IpAddr) (afiSafis : List AfiSafi)

def step {Alloc : Type} [PathIdAllocator Alloc] (rib : LocRib Alloc) : Op → LocRib Alloc
  | .applyPeerUpdate peerIp pendingRoutes importPolicy => (rib.applyPeerUpdate peerIp pendingRoutes importPolicy).1
  | .addLocalRoute key pathAttrs => (rib.addLocalRoute key pathAttrs).1
  | .removeLocalRoute key => (rib.removeLocalRoute key).1
  | .removeRoutesFromPeer peerIp => (rib.removeRoutesFromPeer peerIp).1
  | .markPeerRoutesStale peerIp afiSafi => rib.markPeerRoutesStale peerIp afiSafi
  | .applyLlgr peerIp afiSafis => (rib.applyLlgr peerIp afiSafis).1
  | .removePeerRoutesStale peerIp afiSafis => (rib.removePeerRoutesStale peerIp afiSafis).1

-- The allocator holds fewer than 2^32 - 1 identifiers whenever an operation may ask it
-- for one more: before each pending route of a batch and before a local route.
def Roomy (rib : LocRib BitmapPathIdAllocator) : Op → Prop
  | .applyPeerUpdate peerIp pendingRoutes importPolicy => ∀ done left, pendingRoutes = done ++ left →
      (done.foldl (applyPending peerIp importPolicy) (rib, [])).1.pathIds.HasRoom
  | .addLocalRoute _ _ => rib.pathIds.HasRoom
  | _ => True

instance (rib : LocRib BitmapPathIdAllocator) (op : Op) : Decidable (rib.Roomy op) := match op with
  | .applyPeerUpdate peerIp pendingRoutes importPolicy =>
    decidable_of_iff (∀ done ∈ pendingRoutes.inits, (done.foldl (applyPending peerIp importPolicy) (rib, [])).1.pathIds.HasRoom) <| by
      simp only [List.mem_inits]
      exact ⟨fun room done left split => room done ⟨left, split.symm⟩, fun room done ⟨left, split⟩ => room done left split.symm⟩
  | .addLocalRoute _ _ => inferInstanceAs (Decidable rib.pathIds.HasRoom)
  | .removeLocalRoute _ => .isTrue trivial
  | .removeRoutesFromPeer _ => .isTrue trivial
  | .markPeerRoutesStale _ _ => .isTrue trivial
  | .applyLlgr _ _ => .isTrue trivial
  | .removePeerRoutesStale _ _ => .isTrue trivial

theorem applyPeerUpdate_valid {pendingRoutes : List PendingRoute} {importPolicy : ImportPolicy} (valid : rib.Valid)
    (roomy : rib.Roomy (.applyPeerUpdate peerIp pendingRoutes importPolicy)) :
    (rib.applyPeerUpdate peerIp pendingRoutes importPolicy).1.Valid := by
  have processed : ∀ done left, pendingRoutes = done ++ left → (done.foldl (applyPending peerIp importPolicy) (rib, [])).1.Valid := by
    intro done
    induction done using reverseRecOn with
    | nil => exact fun left whole => valid
    | append_singleton front last ih =>
      intro left whole
      rw [foldl_append]
      have split : pendingRoutes = front ++ (last :: left) := by simpa using whole
      exact applyPending_valid peerIp _ last (ih _ split) (roomy front _ split)
  exact processed pendingRoutes [] (append_nil _).symm

theorem step_valid (op : Op) (valid : rib.Valid) (roomy : rib.Roomy op) : (rib.step op).Valid := by
  cases op with
  | applyPeerUpdate peerIp pendingRoutes importPolicy =>
    exact applyPeerUpdate_valid rib peerIp valid roomy
  | addLocalRoute key pathAttrs =>
    rw [step, addLocalRoute_rib]
    exact upsertPath_valid rib key _ valid roomy
  | removeLocalRoute key =>
    rw [step, removeLocalRoute_rib]
    exact removePaths_valid rib key isLocal valid
  | removeRoutesFromPeer peerIp => exact clearPeerPaths_valid rib peerIp valid
  | markPeerRoutesStale peerIp afiSafi => exact markPeerRoutesStale_valid rib peerIp afiSafi valid
  | applyLlgr peerIp afiSafis | removePeerRoutesStale peerIp afiSafis =>
    exact handleStale_invariant Valid (handleStaleKey_valid peerIp _) rib afiSafis valid

abbrev Reachable (config : LocRibConfig) (rib : LocRib BitmapPathIdAllocator) : Prop := Reaches step Roomy (LocRib.new config) rib

theorem reachable_valid (run : Reachable config rib) : rib.Valid := run.invariant Valid (new_valid config) step_valid

-- The invariant in terms of the three tables and the bitmap. Held id says that the bit of
-- identifier id is set.
structure WellFormed (rib : LocRib BitmapPathIdAllocator) : Prop where
  noEmptyRoute : ∀ key route, rib.getRoute key = some route → route.paths ≠ []
  routeKey : ∀ key route, rib.getRoute key = some route → route.key = key
  distinctRemote : ∀ key route, rib.getRoute key = some route → route.paths.Pairwise fun first second =>
    (first.value.attrs.source, first.value.remotePathId) ≠ (second.value.attrs.source, second.value.remotePathId)
  hasLocalId : ∀ key route path, rib.getRoute key = some route → path ∈ route.paths → ∃ id, path.value.localPathId = some id ∧ 1 ≤ id
  localIdWithin : ∀ key route, rib.getRoute key = some route → route.paths.Pairwise fun first second =>
    first.value.localPathId ≠ second.value.localPathId
  localIdAcross : ∀ key other route rival, key ≠ other → rib.getRoute key = some route →
    rib.getRoute other = some rival → ∀ first ∈ route.paths, ∀ second ∈ rival.paths,
    first.value.localPathId ≠ second.value.localPathId
  heldExactly : ∀ id : Nat, rib.pathIds.Held id ↔ ∃ key route path localId, rib.getRoute key = some route ∧
    path ∈ route.paths ∧ path.value.localPathId = some localId ∧ localId.toNat = id

theorem entries_of_getRoute (found : rib.getRoute key = some route) : rib.registry.entries key = entriesOf route.paths := by
  simp [registry, getAllPaths, found]

theorem mem_entries_of_mem {path : Arc Path} (found : rib.getRoute key = some route) (member : path ∈ route.paths) :
    entryOf path.value ∈ rib.registry.entries key := by
  rw [entries_of_getRoute rib key route found]
  exact mem_map_of_mem member

theorem exists_route_of_mem_entries (entry : Slot × Option Nat) (member : entry ∈ rib.registry.entries key) :
    ∃ route path, rib.getRoute key = some route ∧ path ∈ route.paths ∧ entryOf path.value = entry := by
  cases found : rib.getRoute key with
  | none =>
    simp only [registry, getAllPaths, found] at member
    cases member
  | some route =>
    rw [entries_of_getRoute rib key route found] at member
    obtain ⟨path, stored, same⟩ := mem_map.mp member
    exact ⟨route, path, rfl, stored, same⟩

end

theorem Valid.wellFormed {rib : LocRib BitmapPathIdAllocator} (valid : rib.Valid) : rib.WellFormed where
  noEmptyRoute := valid.nonempty
  routeKey := valid.keyed
  distinctRemote key route found := by
    have slots := valid.consistent.slots key
    rw [entries_of_getRoute rib key route found, entriesOf, map_map, List.Nodup, pairwise_map] at slots
    exact slots
  hasLocalId key route path found member := by
    obtain ⟨number, carries, positive⟩ := valid.consistent.identified key _ (mem_entries_of_mem rib key route found member)
    obtain ⟨id, stored, same⟩ := Option.map_eq_some_iff.mp carries
    refine ⟨id, stored, ?_⟩
    rw [UInt32.le_iff_toNat_le, same]
    exact positive
  localIdWithin key route found := by
    have unique := valid.consistent.unique key
    rw [entries_of_getRoute rib key route found, entriesOf, map_map, List.Nodup, pairwise_map] at unique
    refine unique.imp ?_
    intro first second different same
    exact different (congrArg (Option.map UInt32.toNat) same)
  localIdAcross key other route rival different found rivalFound first firstMember second secondMember same :=
    valid.consistent.apart key other different _ (mem_entries_of_mem rib key route found firstMember) _
      (mem_entries_of_mem rib other rival rivalFound secondMember) (congrArg (Option.map UInt32.toNat) same)
  heldExactly id := by
    refine (valid.consistent.exact id).trans ?_
    constructor
    · rintro ⟨key, entry, member, carries⟩
      obtain ⟨route, path, found, stored, rfl⟩ := exists_route_of_mem_entries rib key entry member
      obtain ⟨localId, localOf, same⟩ := Option.map_eq_some_iff.mp carries
      exact ⟨key, route, path, localId, found, stored, localOf, same⟩
    · rintro ⟨key, route, path, localId, found, stored, localOf, same⟩
      exact ⟨key, _, mem_entries_of_mem rib key route found stored, by simp [entryOf, localOf, same]⟩

theorem loc_rib_well_formed (config : LocRibConfig) (rib : LocRib BitmapPathIdAllocator) (run : Reachable config rib) : rib.WellFormed :=
  (reachable_valid config rib run).wellFormed

def localExample : PathAttrs where
  origin := .igp
  asPath := []
  nextHop := .ipv4 0x0A000001
  source := .localSource
  localPref := none
  med := none
  atomicAggregate := false
  aggregator := none
  communities := []
  extendedCommunities := []
  largeCommunities := []
  unknownAttrs := []
  originatorId := none
  clusterList := []
  lsAttr := none

def updateExample (bgpId : Ipv4Addr) (pending : PathAttrs → PendingRoute) : Op :=
  .applyPeerUpdate (.v4 bgpId) [pending { localExample with source := .ebgp (.v4 bgpId) bgpId }] fun _ path => (true, path)

def announcedExample (net : Ipv4Net) (attrs : PathAttrs) : PendingRoute := .announce (.pfx (.v4 net)) ⟨none, none, attrs, false, .notFound⟩

def sharedPrefixRun : List Op := [updateExample 1 (announcedExample ⟨0x0A000000, 8⟩), updateExample 2 (announcedExample ⟨0x0A000000, 8⟩),
  updateExample 1 fun _ => .withdraw (.pfx (.v4 ⟨0x0A000000, 8⟩)) none, .addLocalRoute (.pfx (.v4 ⟨0x0A000000, 8⟩)) localExample,
  updateExample 3 (announcedExample ⟨0x0B000000, 8⟩)]

theorem loc_rib_well_formed_shared_prefix : (sharedPrefixRun.foldl step (LocRib.new ⟨0⟩)).WellFormed :=
  loc_rib_well_formed ⟨0⟩ _ (Reaches.of_permits _ _ (by decide +kernel))

end Bgpgg.Rib.LocRib
