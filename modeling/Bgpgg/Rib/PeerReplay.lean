import Bgpgg.Rib.PathInvariant

namespace Bgpgg.Rib.LocRib

open Net List

section

variable {Item : Type}

theorem mem_updateFirst_iff (test : Item → Bool) (change : Item → Item) (items : List Item) (found item : Item)
    (unique : items.Pairwise fun first second => ¬ (test first = true ∧ test second = true)) (search : items.find? test = some found) :
    item ∈ updateFirst test change items ↔ item ∈ items ∧ test item = false ∨ item = change found := by
  induction items with
  | nil => cases search
  | cons head rest ih =>
    obtain ⟨alone, later⟩ := pairwise_cons.mp unique
    by_cases here : test head = true
    · have same : found = head := by simpa [here] using search.symm
      subst same
      have unmatched : ∀ other ∈ rest, test other = false := by
        intro other member
        by_contra hit
        exact alone other member ⟨here, by simpa using hit⟩
      simp only [updateFirst, if_pos here, mem_cons]
      constructor
      · rintro (rfl | member)
        · exact .inr rfl
        · exact .inl ⟨.inr member, unmatched item member⟩
      · rintro (⟨rfl | member, miss⟩ | rfl)
        · rw [here] at miss
          cases miss
        · exact .inr member
        · exact .inl rfl
    · have step := ih later (by simpa [here] using search)
      simp only [updateFirst, if_neg here, mem_cons, step]
      constructor
      · rintro (rfl | ⟨member, miss⟩ | rfl)
        · exact .inl ⟨.inl rfl, by simpa using here⟩
        · exact .inl ⟨.inr member, miss⟩
        · exact .inr rfl
      · rintro (⟨rfl | member, miss⟩ | rfl)
        · exact .inl rfl
        · exact .inr (.inl ⟨member, miss⟩)
        · exact .inr (.inr rfl)

theorem filter_updateFirst {test keep : Item → Bool} {change : Item → Item} {items : List Item}
    (hidden : ∀ found, items.find? test = some found → keep found = false ∧ keep (change found) = false) :
    (updateFirst test change items).filter keep = items.filter keep := by
  induction items with
  | nil => rfl
  | cons head rest ih =>
    by_cases here : test head = true
    · obtain ⟨before, after⟩ := hidden head (by simp [here])
      simp [updateFirst, here, before, after]
    · have step := ih fun found search => hidden found (by simpa [here] using search)
      simp [updateFirst, if_neg here, filter_cons, step]

end

structure PeerEntry where
  attrs : PathAttrs
  stale : Bool
  rpkiState : RpkiValidation
deriving DecidableEq, Repr

def peerEntry (path : Path) : PeerEntry := ⟨path.attrs, path.stale, path.rpkiState⟩

-- The abstract state: what one source has announced, by key and remote path identifier.
abbrev PeerTable := RouteKey → Option UInt32 → Option PeerEntry

def PeerTable.set (table : PeerTable) (key : RouteKey) (remotePathId : Option UInt32) (entry : PeerEntry) : PeerTable :=
  fun other remote => if other = key ∧ remote = remotePathId then some entry else table other remote

def PeerTable.removeFrom (table : PeerTable) (key : RouteKey) (remotePathId : Option UInt32) : PeerTable :=
  fun other remote => if other = key ∧ (remotePathId = none ∨ remote = remotePathId) then none else table other remote

def PeerTable.replay (importPolicy : ImportPolicy) (table : PeerTable) : PendingRoute → PeerTable
  | .withdraw key remotePathId => table.removeFrom key remotePathId
  | .announce key announced =>
    let (accepted, path) := importPolicy key announced
    if accepted then table.set key path.remotePathId ⟨path.attrs, false, path.rpkiState⟩
    else table.removeFrom key announced.remotePathId

section

variable {Alloc : Type} (rib : LocRib Alloc) (source : RouteSource)

def peerTable : PeerTable := fun key remotePathId =>
  ((rib.getAllPaths key).find? fun path => slotOf path.value == (source, remotePathId)).map fun path =>
    peerEntry path.value

def Represents (table : PeerTable) : Prop := ∀ key remotePathId entry, table key remotePathId = some entry ↔
    ∃ path ∈ rib.getAllPaths key, slotOf path.value = (source, remotePathId) ∧ peerEntry path.value = entry

end

section

variable (path : Path) {rib : LocRib BitmapPathIdAllocator} {source : RouteSource} {peerIp : IpAddr}
  {start : LocRib BitmapPathIdAllocator} {importPolicy : ImportPolicy} {pendingRoutes : List PendingRoute}
  {table : PeerTable}

variable {pathIds after : BitmapPathIdAllocator} {paths result : List (Arc Path)} {ptr fresh : Nat} {key : RouteKey}

theorem Valid.slots_nodup (valid : rib.Valid) (key : RouteKey) : ((rib.getAllPaths key).map fun path => slotOf path.value).Nodup := by
  have slots := valid.consistent.slots key
  simp only [registry, entriesOf, map_map] at slots
  exact slots

theorem Valid.slot_inj (valid : rib.Valid) (key : RouteKey) (first second : Arc Path)
    (firstMember : first ∈ rib.getAllPaths key) (secondMember : second ∈ rib.getAllPaths key)
    (same : slotOf first.value = slotOf second.value) : first = second :=
  inj_on_of_nodup_map (valid.slots_nodup key) firstMember secondMember same

theorem peerTable_represents (rib : LocRib BitmapPathIdAllocator) (source : RouteSource) (valid : rib.Valid) :
    Represents rib source (peerTable rib source) := by
  intro key remotePathId entry
  simp only [peerTable, Option.map_eq_some_iff]
  constructor
  · rintro ⟨path, search, same⟩
    exact ⟨path, mem_of_find?_eq_some search, by simpa using find?_some search, same⟩
  · rintro ⟨path, member, slot, same⟩
    have some : ((rib.getAllPaths key).find? fun path => slotOf path.value == (source, remotePathId)).isSome := by
      rw [find?_isSome]
      exact ⟨path, member, by simpa using slot⟩
    obtain ⟨found, search⟩ := Option.isSome_iff_exists.mp some
    have foundSlot : slotOf found.value = (source, remotePathId) := by simpa using find?_some search
    have equal := valid.slot_inj key found path (mem_of_find?_eq_some search) member (foundSlot.trans slot.symm)
    exact ⟨found, search, equal ▸ same⟩

theorem Represents.eq_peerTable (represents : Represents rib source table) (valid : rib.Valid) : peerTable rib source = table := by
  funext key remotePathId
  apply Option.ext
  intro entry
  rw [peerTable_represents rib source valid key remotePathId entry, represents key remotePathId entry]

-- What upsert_path_in_route leaves when the slots of the list are distinct: the other
-- slots as they were, and one path in the slot of the new one.
structure Installed (path : Path) (paths result : List (Arc Path)) (stored : Arc Path) : Prop where
  members : ∀ item, item ∈ result ↔ item ∈ paths ∧ slotOf item.value ≠ slotOf path ∨ item = stored
  slot : slotOf stored.value = slotOf path
  entry : peerEntry stored.value = ⟨path.attrs, false, path.rpkiState⟩
  localId : ∀ existing ∈ paths, slotOf existing.value = slotOf path → stored.value.localPathId = existing.value.localPathId

theorem test_unique (paths : List (Arc Path)) (distinct : (paths.map fun path => slotOf path.value).Nodup) :
    paths.Pairwise fun first second =>
      ¬ (first.value.matchesRemote path = true ∧ second.value.matchesRemote path = true) := by
  rw [List.Nodup, pairwise_map] at distinct
  refine distinct.imp ?_
  rintro first second apart ⟨firstMatch, secondMatch⟩
  exact apart (((matchesRemote_iff _ _).mp firstMatch).trans ((matchesRemote_iff _ _).mp secondMatch).symm)

theorem miss_iff (item : Arc Path) : item.value.matchesRemote path = false ↔ slotOf item.value ≠ slotOf path := by
  rw [← Bool.not_eq_true, matchesRemote_iff]

theorem Upserted.members {path : Path} (upserted : Upserted ⟨ptr, path⟩ fresh pathIds paths result after)
    (distinct : (paths.map fun path => slotOf path.value).Nodup) :
    ∃ stored : Arc Path, (∀ item, item ∈ result ↔ item ∈ paths ∧ slotOf item.value ≠ slotOf path ∨ item = stored) ∧
      slotOf stored.value = slotOf path ∧
      (stored.value.attrs = path.attrs ∧ stored.value.rpkiState = path.rpkiState ∧ (path.stale = false → stored.value.stale = false)) ∧
      ∀ existing ∈ paths, slotOf existing.value = slotOf path → stored.value.localPathId = existing.value.localPathId := by
  have unique := test_unique path paths distinct
  have alone : ∀ existing, paths.find? (fun stored => stored.value.matchesRemote path) = some existing →
      ∀ other ∈ paths, slotOf other.value = slotOf path → existing.value.localPathId = other.value.localPathId := by
    intro existing found other member sameSlot
    have slot := find_slot path paths existing found
    rw [inj_on_of_nodup_map distinct member (mem_of_find?_eq_some found) (sameSlot.trans slot.symm)]
  cases upserted with
  | replaced existing found different =>
    refine ⟨⟨ptr, { path with localPathId := existing.value.localPathId }⟩, fun item => ?_, rfl, ⟨rfl, rfl, id⟩, alone existing found⟩
    rw [mem_updateFirst_iff _ _ _ existing item unique found, miss_iff]
  | refreshed existing found same =>
    have slot := find_slot path paths existing found
    refine ⟨refreshMetadata path fresh existing, fun item => ?_, ?_⟩
    · rw [mem_updateFirst_iff _ _ _ existing item unique found, miss_iff]
    · rw [refreshMetadata]
      split
      next => exact ⟨slot, ⟨same, rfl, fun _ => rfl⟩, alone existing found⟩
      next unchanged =>
        simp only [not_or, not_not, Bool.not_eq_true] at unchanged
        exact ⟨slot, ⟨same, unchanged.1, fun _ => unchanged.2⟩, alone existing found⟩
  | added missing =>
    have free : ∀ item ∈ paths, slotOf item.value ≠ slotOf path := by
      intro item member
      exact (miss_iff path item).mp (find_none_of _ _ missing item member)
    refine ⟨⟨ptr, { path with localPathId := some (PathIdAllocator.alloc pathIds).1 }⟩, fun item => ?_, rfl,
      ⟨rfl, rfl, id⟩, fun other member sameSlot => absurd sameSlot (free other member)⟩
    rw [mem_append, mem_singleton]
    exact or_congr_left ⟨fun member => ⟨member, free item member⟩, And.left⟩

theorem Upserted.installed {path : Path} (upserted : Upserted ⟨ptr, path⟩ fresh pathIds paths result after)
    (distinct : (paths.map fun path => slotOf path.value).Nodup) (current : path.stale = false) :
    ∃ stored, Installed path paths result stored := by
  obtain ⟨stored, members, slot, ⟨attrs, rpkiState, notStale⟩, localId⟩ := upserted.members distinct
  exact ⟨stored, members, slot, by simp [peerEntry, attrs, rpkiState, notStale current], localId⟩

theorem set_represents {final : LocRib BitmapPathIdAllocator} {path : Path} {stored : Arc Path}
    (represents : Represents rib path.attrs.source table) (effect : UpsertEffect rib key path final paths)
    (installed : Installed path (rib.getAllPaths key) paths stored) :
    Represents final path.attrs.source
      (table.set key path.remotePathId ⟨path.attrs, false, path.rpkiState⟩) := by
  intro other remotePathId entry
  rw [effect.getAllPaths]
  by_cases here : other = key
  · subst here
    rw [if_pos rfl]
    by_cases slot : remotePathId = path.remotePathId
    · subst slot
      simp only [PeerTable.set, and_self, if_true, Option.some.injEq, sortPaths, mem_sortBy]
      constructor
      · rintro rfl
        exact ⟨stored, (installed.members stored).mpr (.inr rfl), installed.slot, installed.entry⟩
      · rintro ⟨item, member, itemSlot, rfl⟩
        rcases (installed.members item).mp member with ⟨-, apart⟩ | rfl
        · exact absurd itemSlot apart
        · exact installed.entry.symm
    · simp only [PeerTable.set, slot, and_false, if_false, sortPaths, mem_sortBy, represents other remotePathId entry]
      constructor
      · rintro ⟨item, member, itemSlot, same⟩
        refine ⟨item, (installed.members item).mpr (.inl ⟨member, ?_⟩), itemSlot, same⟩
        rw [itemSlot, ne_eq, Prod.mk.injEq]
        exact fun both => slot both.2
      · rintro ⟨item, member, itemSlot, same⟩
        rcases (installed.members item).mp member with ⟨old, -⟩ | rfl
        · exact ⟨item, old, itemSlot, same⟩
        · rw [installed.slot, Prod.mk.injEq] at itemSlot
          exact absurd itemSlot.2.symm slot
  · simp only [PeerTable.set, here, false_and]
    exact represents other remotePathId entry

theorem getAllPaths_removePeerPath (rib : LocRib BitmapPathIdAllocator) (key other : RouteKey) (peerIp : IpAddr)
    (remotePathId : Option UInt32) : (rib.removePeerPath key peerIp remotePathId).getAllPaths other =
      if other = key then retained (isWithdrawnBy peerIp remotePathId) (rib.getAllPaths key)
      else rib.getAllPaths other := by
  rw [← getAllPaths_removePaths, removePeerPath, getAllPaths, getRoute_freeIds, getAllPaths]

theorem isFromPeer_iff (peerIp : IpAddr) : path.isFromPeer peerIp = true ↔ path.attrs.source.peerIp = some peerIp := by
  simp [Path.isFromPeer]

theorem isWithdrawnBy_iff (remotePathId : Option UInt32) {path : Path} (mine : path.isFromPeer peerIp = true) :
    isWithdrawnBy peerIp remotePathId path = true ↔ remotePathId = none ∨ path.remotePathId = remotePathId := by
  cases remotePathId with
  | none | some id => simp [isWithdrawnBy, mine]

theorem remove_represents (represents : Represents rib source table) (key : RouteKey) (remotePathId : Option UInt32)
    (peer : source.peerIp = some peerIp) :
    Represents (rib.removePeerPath key peerIp remotePathId) source (table.removeFrom key remotePathId) := by
  intro other remote entry
  rw [getAllPaths_removePeerPath]
  by_cases here : other = key
  · subst here
    have reads : ∀ path : Arc Path, slotOf path.value = (source, remote) →
        (isWithdrawnBy peerIp remotePathId path.value = true ↔ remotePathId = none ∨ remote = remotePathId) := by
      intro path slot
      simp only [slotOf, Prod.mk.injEq] at slot
      rw [isWithdrawnBy_iff remotePathId ((isFromPeer_iff _ _).mpr (slot.1 ▸ peer)), slot.2]
    rw [if_pos rfl]
    by_cases gone : remotePathId = none ∨ remote = remotePathId
    · simp only [PeerTable.removeFrom, gone, retained, mem_filter]
      constructor
      · intro impossible
        cases impossible
      · rintro ⟨path, ⟨-, keptPath⟩, slot, -⟩
        rw [(reads path slot).mpr gone] at keptPath
        cases keptPath
    · simp only [PeerTable.removeFrom, gone, and_false, if_false, retained, mem_filter, represents other remote entry]
      constructor
      · rintro ⟨path, member, slot, same⟩
        refine ⟨path, ⟨member, ?_⟩, slot, same⟩
        simpa using fun withdrawn => gone ((reads path slot).mp withdrawn)
      · rintro ⟨path, ⟨member, -⟩, slot, same⟩
        exact ⟨path, member, slot, same⟩
  · simp only [PeerTable.removeFrom, here, false_and]
    exact represents other remote entry

structure SingleSource (importPolicy : ImportPolicy) (peerIp : IpAddr) (source : RouteSource)
    (pendingRoutes : List PendingRoute) : Prop where
  peer : source.peerIp = some peerIp
  announced : ∀ key path, .announce key path ∈ pendingRoutes → path.attrs.source = source
  current : ∀ key path, .announce key path ∈ pendingRoutes → (importPolicy key path).1 = true → (importPolicy key path).2.stale = false
  policy : ∀ key path, (importPolicy key path).2.attrs.source = path.attrs.source ∧
    (importPolicy key path).2.remotePathId = path.remotePathId

structure ReplayInv (source : RouteSource) (peerIp : IpAddr) (start rib : LocRib BitmapPathIdAllocator)
    (table : PeerTable) : Prop where
  valid : rib.Valid
  unlimited : rib.config.maxLsEntries = 0
  owned : ∀ key, ∀ path ∈ rib.getAllPaths key, path.value.isFromPeer peerIp = true → path.value.attrs.source = source
  represents : Represents rib source table
  others : ∀ key, ((rib.getAllPaths key).filter fun path => path.value.attrs.source != source).Perm
    ((start.getAllPaths key).filter fun path => path.value.attrs.source != source)

theorem removePeerPath_replay (inv : ReplayInv source peerIp start rib table) (peer : source.peerIp = some peerIp)
    (key : RouteKey) (remotePathId : Option UInt32) :
    ReplayInv source peerIp start (rib.removePeerPath key peerIp remotePathId) (table.removeFrom key remotePathId) := by
  refine ⟨removePeerPath_valid rib key peerIp remotePathId inv.valid, ?_, ?_, remove_represents inv.represents key remotePathId peer, ?_⟩
  · exact (congrArg LocRibConfig.maxLsEntries (pathIds_removePaths rib key _).2.2).trans inv.unlimited
  · intro other path member mine
    exact inv.owned other path (mem_removePeerPath member).1 mine
  · intro other
    rw [getAllPaths_removePeerPath]
    by_cases here : other = key
    · subst here
      rw [if_pos rfl]
      refine List.Perm.trans (.of_eq ?_) (inv.others other)
      rw [retained, filter_filter]
      apply filter_congr
      intro path member
      by_cases foreign : path.value.attrs.source = source
      · simp [foreign]
      · have notMine : path.value.isFromPeer peerIp = false := by
          by_contra mine
          exact foreign (inv.owned other path member (by simpa using mine))
        simp [isWithdrawnBy, notMine]
    · rw [if_neg here]
      exact inv.others other

theorem filter_upserted {path : Path} (upserted : Upserted ⟨ptr, path⟩ fresh pathIds paths result after)
    (drop : Slot → Bool) (dropped : drop (slotOf path) = true) :
    result.filter (fun item => !drop (slotOf item.value)) = paths.filter fun item => !drop (slotOf item.value) := by
  cases upserted with
  | replaced existing found different =>
    refine filter_updateFirst fun other search => ?_
    rw [find_slot path paths other search, dropped]
    exact ⟨rfl, congrArg not dropped⟩
  | refreshed existing found same =>
    refine filter_updateFirst fun other search => ?_
    have kept := congrArg Prod.fst (refreshMetadata_entry path fresh other)
    simp only [entryOf] at kept
    rw [kept, find_slot path paths other search, dropped]
    exact ⟨rfl, rfl⟩
  | added missing =>
    have last : drop (slotOf { path with localPathId := some (PathIdAllocator.alloc pathIds).1 }) = true := dropped
    simp [last]

theorem lsLimit_unlimited (key : RouteKey) (unlimited : rib.config.maxLsEntries = 0) : rib.lsLimitReached key = false := by
  cases key with
  | pfx net => rfl
  | linkState nlri => simp [lsLimitReached, unlimited]

theorem upsertPath_replay (inv : ReplayInv source peerIp start rib table) (key : RouteKey) {path : Path}
    (mine : path.attrs.source = source) (current : path.stale = false) (room : rib.pathIds.HasRoom) :
    ReplayInv source peerIp start (rib.upsertPath key path).2
      (table.set key path.remotePathId ⟨path.attrs, false, path.rpkiState⟩) := by
  subst mine
  obtain ⟨-, paths, effect⟩ := upsertPath_accepted rib key path (lsLimit_unlimited key inv.unlimited)
  obtain ⟨stored, installed⟩ := effect.upserted.installed (inv.valid.slots_nodup key) current
  refine ⟨upsertPath_valid rib key path inv.valid room, ?_, ?_, set_represents inv.represents effect installed, ?_⟩
  · rw [effect.config]
    exact inv.unlimited
  · intro other item member peerOwned
    rcases mem_upsertPath member with old | new
    · exact inv.owned other item old peerOwned
    · exact congrArg Prod.fst new.2.1
  · intro other
    rw [effect.getAllPaths]
    by_cases here : other = key
    · subst here
      rw [if_pos rfl]
      refine ((sortBy_perm _ paths).filter _).trans ?_
      have kept := filter_upserted effect.upserted (fun slot => slot.1 == path.attrs.source) (beq_self_eq_true _)
      exact kept ▸ inv.others other
    · rw [if_neg here]
      exact inv.others other

theorem applyPending_replay (single : SingleSource importPolicy peerIp source pendingRoutes)
    (state : LocRib BitmapPathIdAllocator × List RouteKey) (inv : ReplayInv source peerIp start state.1 table)
    (pending : PendingRoute) (member : pending ∈ pendingRoutes) (room : state.1.pathIds.HasRoom) :
    ReplayInv source peerIp start (applyPending peerIp importPolicy state pending).1
      (table.replay importPolicy pending) := by
  have step := applyPending_step peerIp importPolicy state pending
  generalize applyPending peerIp importPolicy state pending = next at step ⊢
  cases step with
  | withdrawn key remotePathId => exact removePeerPath_replay inv single.peer key remotePathId
  | denied key announced denial =>
    simp only [PeerTable.replay, denial, Bool.false_eq_true]
    exact removePeerPath_replay inv single.peer key announced.remotePathId
  | stored key announced accepted available =>
    have mine := (single.policy key announced).1.trans (single.announced key announced member)
    have stored := upsertPath_replay inv key mine (single.current key announced member accepted) room
    simpa only [PeerTable.replay, accepted, if_true] using stored
  | refused key announced accepted limit =>
    rw [lsLimit_unlimited key inv.unlimited] at limit
    cases limit

def Removes (importPolicy : ImportPolicy) (key : RouteKey) (remotePathId : Option UInt32) : PendingRoute → Prop
  | .withdraw other withdrawn => other = key ∧ (withdrawn = none ∨ remotePathId = withdrawn)
  | .announce other announced => (importPolicy other announced).1 = false ∧ other = key ∧
      (announced.remotePathId = none ∨ remotePathId = announced.remotePathId)

def KeepsLocalId (source : RouteSource) (key : RouteKey) (remotePathId : Option UInt32)
    (before after : LocRib BitmapPathIdAllocator) : Prop :=
  ∀ old ∈ before.getAllPaths key, slotOf old.value = (source, remotePathId) →
    ∃ new ∈ after.getAllPaths key, slotOf new.value = (source, remotePathId) ∧ new.value.localPathId = old.value.localPathId

theorem removePeerPath_keepsLocalId (rib : LocRib BitmapPathIdAllocator) {other : RouteKey}
    {remotePathId withdrawn : Option UInt32} (peer : source.peerIp = some peerIp)
    (spared : ¬ (other = key ∧ (withdrawn = none ∨ remotePathId = withdrawn))) :
    KeepsLocalId source key remotePathId rib (rib.removePeerPath other peerIp withdrawn) := by
  intro old member slot
  refine ⟨old, ?_, slot, rfl⟩
  rw [getAllPaths_removePeerPath]
  by_cases here : key = other
  · subst here
    simp only [slotOf, Prod.mk.injEq] at slot
    have unmatched : ¬ isWithdrawnBy peerIp withdrawn old.value = true := by
      rw [isWithdrawnBy_iff withdrawn ((isFromPeer_iff _ _).mpr (slot.1 ▸ peer)), slot.2]
      exact fun gone => spared ⟨rfl, gone⟩
    rw [if_pos rfl]
    exact mem_filter.mpr ⟨member, by simpa using unmatched⟩
  · rwa [if_neg here]

theorem upsertPath_keepsLocalId (valid : rib.Valid)
    (unlimited : rib.config.maxLsEntries = 0) (key other : RouteKey) (remotePathId : Option UInt32) {path : Path}
    (current : path.stale = false) :
    KeepsLocalId source key remotePathId rib (rib.upsertPath other path).2 := by
  obtain ⟨-, paths, effect⟩ := upsertPath_accepted rib other path (lsLimit_unlimited other unlimited)
  obtain ⟨stored, installed⟩ := effect.upserted.installed (valid.slots_nodup other) current
  intro old member slot
  rw [effect.getAllPaths]
  by_cases here : key = other
  · subst here
    rw [if_pos rfl]
    by_cases replaced : slotOf old.value = slotOf path
    · refine ⟨stored, ?_, ?_, installed.localId old member replaced⟩
      · rw [sortPaths, mem_sortBy, installed.members]
        exact .inr rfl
      · rw [installed.slot, ← replaced, slot]
    · refine ⟨old, ?_, slot, rfl⟩
      rw [sortPaths, mem_sortBy, installed.members]
      exact .inl ⟨member, replaced⟩
  · rw [if_neg here]
    exact ⟨old, member, slot, rfl⟩

theorem applyPending_keepsLocalId (single : SingleSource importPolicy peerIp source pendingRoutes)
    {state : LocRib BitmapPathIdAllocator × List RouteKey} (inv : ReplayInv source peerIp start state.1 table)
    {pending : PendingRoute} (member : pending ∈ pendingRoutes) {remotePathId : Option UInt32}
    (spared : ¬ Removes importPolicy key remotePathId pending) :
    KeepsLocalId source key remotePathId state.1 (applyPending peerIp importPolicy state pending).1 := by
  have step := applyPending_step peerIp importPolicy state pending
  generalize applyPending peerIp importPolicy state pending = next at step ⊢
  cases step with
  | withdrawn other withdrawn =>
    exact removePeerPath_keepsLocalId state.1 single.peer spared
  | denied other announced denial =>
    refine removePeerPath_keepsLocalId state.1 single.peer ?_
    exact fun gone => spared ⟨denial, gone⟩
  | stored other announced accepted available =>
    exact upsertPath_keepsLocalId inv.valid inv.unlimited key other remotePathId (single.current other announced member accepted)
  | refused other announced accepted limit =>
    exact fun old oldMember slot => ⟨old, oldMember, slot, rfl⟩

def afterPending (rib : LocRib BitmapPathIdAllocator) (peerIp : IpAddr) (importPolicy : ImportPolicy)
    (done : List PendingRoute) : LocRib BitmapPathIdAllocator :=
  (done.foldl (applyPending peerIp importPolicy) (rib, [])).1

theorem afterPending_replay (single : SingleSource importPolicy peerIp source pendingRoutes)
    (roomy : rib.Roomy (.applyPeerUpdate peerIp pendingRoutes importPolicy))
    (initial : ReplayInv source peerIp rib rib (peerTable rib source)) (done left : List PendingRoute)
    (split : pendingRoutes = done ++ left) :
    ReplayInv source peerIp rib (rib.afterPending peerIp importPolicy done)
      (done.foldl (PeerTable.replay importPolicy) (peerTable rib source)) := by
  induction done using reverseRecOn generalizing left with
  | nil => exact initial
  | append_singleton front last ih =>
    have shifted : pendingRoutes = front ++ (last :: left) := by simpa using split
    rw [afterPending, foldl_append, foldl_append]
    exact applyPending_replay single _ (ih _ shifted) last (shifted ▸ by simp) (roomy front _ shifted)

theorem afterPending_keepsLocalId (single : SingleSource importPolicy peerIp source pendingRoutes)
    (roomy : rib.Roomy (.applyPeerUpdate peerIp pendingRoutes importPolicy))
    (initial : ReplayInv source peerIp rib rib (peerTable rib source)) (done middle left : List PendingRoute)
    (split : pendingRoutes = done ++ middle ++ left) (key : RouteKey) (remotePathId : Option UInt32)
    (spared : ∀ pending ∈ middle, ¬ Removes importPolicy key remotePathId pending) :
    KeepsLocalId source key remotePathId (rib.afterPending peerIp importPolicy done)
      (rib.afterPending peerIp importPolicy (done ++ middle)) := by
  induction middle using reverseRecOn generalizing left with
  | nil =>
    intro old member slot
    exact ⟨old, by rwa [append_nil], slot, rfl⟩
  | append_singleton front last ih =>
    have shifted : pendingRoutes = done ++ front ++ (last :: left) := by simpa using split
    have before := ih _ shifted fun pending member => spared pending (mem_append_left _ member)
    have state := afterPending_replay single roomy initial (done ++ front) _ shifted
    have step := applyPending_keepsLocalId single state (shifted ▸ by simp) (spared last (by simp))
    intro old member slot
    obtain ⟨kept, keptMember, keptSlot, keptId⟩ := before old member slot
    obtain ⟨new, newMember, newSlot, newId⟩ := step kept keptMember keptSlot
    refine ⟨new, ?_, newSlot, newId.trans keptId⟩
    rw [← append_assoc, afterPending, foldl_append]
    exact newMember

end

theorem apply_peer_update_refines (config : LocRibConfig) (rib : LocRib BitmapPathIdAllocator) (peerIp : IpAddr)
    (source : RouteSource) (pendingRoutes : List PendingRoute) (importPolicy : ImportPolicy)
    (run : Reachable config rib) (unlimited : rib.config.maxLsEntries = 0)
    (single : SingleSource importPolicy peerIp source pendingRoutes)
    (owned : ∀ key, ∀ path ∈ rib.getAllPaths key, path.value.isFromPeer peerIp = true → path.value.attrs.source = source)
    (roomy : rib.Roomy (.applyPeerUpdate peerIp pendingRoutes importPolicy)) :
    (∀ key, (((rib.applyPeerUpdate peerIp pendingRoutes importPolicy).1.getAllPaths key).filter
        fun path => path.value.attrs.source != source).Perm
      ((rib.getAllPaths key).filter fun path => path.value.attrs.source != source)) ∧
    peerTable (rib.applyPeerUpdate peerIp pendingRoutes importPolicy).1 source =
      pendingRoutes.foldl (PeerTable.replay importPolicy) (peerTable rib source) ∧
    (∀ key, ∀ path ∈ (rib.applyPeerUpdate peerIp pendingRoutes importPolicy).1.getAllPaths key,
      path.value.isFromPeer peerIp = true → path.value.attrs.source = source ∧
        peerTable (rib.applyPeerUpdate peerIp pendingRoutes importPolicy).1 source key path.value.remotePathId =
          some (peerEntry path.value)) ∧
    ∀ done middle left key remotePathId, pendingRoutes = done ++ middle ++ left →
      (∀ pending ∈ middle, ¬ Removes importPolicy key remotePathId pending) →
      KeepsLocalId source key remotePathId (rib.afterPending peerIp importPolicy done)
        (rib.afterPending peerIp importPolicy (done ++ middle)) := by
  have valid := reachable_valid config rib run
  have initial : ReplayInv source peerIp rib rib (peerTable rib source) :=
    ⟨valid, unlimited, owned, peerTable_represents rib source valid, fun _ => .refl _⟩
  have final := afterPending_replay single roomy initial pendingRoutes [] (append_nil _).symm
  refine ⟨final.others, final.represents.eq_peerTable final.valid, ?_, ?_⟩
  · intro key path member mine
    have sourceOf := final.owned key path member mine
    refine ⟨sourceOf, ?_⟩
    exact (peerTable_represents _ source final.valid _ _ _).mpr ⟨path, member, by rw [slotOf, sourceOf], rfl⟩
  · intro done middle left key remotePathId split spared
    exact afterPending_keepsLocalId single roomy initial done middle left split key remotePathId spared

def peerExample : RouteSource := .ebgp (.v4 0x0A000002) 0x0A000002

def announcement (net : Ipv4Net) (med : Option UInt32) (stale : Bool) : PendingRoute :=
  .announce (.pfx (.v4 net)) ⟨none, some 7, { localExample with source := peerExample, med := med }, stale, .notFound⟩

def refusesMed : ImportPolicy := fun _ path => (path.attrs.med != some 9, path)

def storedBatch : List PendingRoute := [announcement ⟨0x0A000000, 8⟩ none false, announcement ⟨0x0B000000, 8⟩ none false]

def secondBatch : List PendingRoute := [announcement ⟨0x0A000000, 8⟩ (some 5) false, announcement ⟨0x0B000000, 8⟩ (some 9) false,
  .withdraw (.pfx (.v4 ⟨0x0A000000, 8⟩)) none, announcement ⟨0x0A000000, 8⟩ (some 6) false]

theorem singleSource_batches : SingleSource refusesMed (.v4 0x0A000002) peerExample (storedBatch ++ secondBatch) := by
  refine ⟨rfl, fun key path member => ?_, fun key path member _ => ?_, fun _ _ => ⟨rfl, rfl⟩⟩
  all_goals
    simp [storedBatch, secondBatch, announcement] at member
    rcases member with ⟨-, rfl⟩ | ⟨-, rfl⟩ | ⟨-, rfl⟩ | ⟨-, rfl⟩ | ⟨-, rfl⟩ <;> rfl

def storedRib : LocRib BitmapPathIdAllocator := ((LocRib.new ⟨0⟩).applyPeerUpdate (.v4 0x0A000002) storedBatch refusesMed).1

theorem SingleSource.part {importPolicy : ImportPolicy} {peerIp : IpAddr} {source : RouteSource} {all some : List PendingRoute}
    (single : SingleSource importPolicy peerIp source all) (inside : some ⊆ all) : SingleSource importPolicy peerIp source some :=
  ⟨single.peer, fun key path member => single.announced key path (inside member),
    fun key path member => single.current key path (inside member), single.policy⟩

theorem apply_peer_update_refines_second_batch :
    peerTable (storedRib.applyPeerUpdate (.v4 0x0A000002) secondBatch refusesMed).1 peerExample =
      secondBatch.foldl (PeerTable.replay refusesMed) (peerTable storedRib peerExample) := by
  have stored : Reachable ⟨0⟩ storedRib :=
    .tail .refl (Op.applyPeerUpdate (.v4 0x0A000002) storedBatch refusesMed) (by decide +kernel)
  have first := apply_peer_update_refines ⟨0⟩ (LocRib.new ⟨0⟩) (.v4 0x0A000002) peerExample storedBatch refusesMed
    .refl rfl (singleSource_batches.part (subset_append_left _ _)) (fun key path member => by simp [getAllPaths, getRoute_new] at member)
    (by decide +kernel)
  exact (apply_peer_update_refines ⟨0⟩ storedRib (.v4 0x0A000002) peerExample secondBatch refusesMed stored rfl
    (singleSource_batches.part (subset_append_right _ _)) (fun key path member mine => (first.2.2.1 key path member mine).1)
    (by decide +kernel)).2.1

-- An announcement that is stale as it comes is stored so, unless its attributes are already there.
theorem stale_announcement_stored : (peerTable ((LocRib.new ⟨0⟩).applyPeerUpdate (.v4 0x0A000002)
      [announcement ⟨0x0A000000, 8⟩ none true] refusesMed).1 peerExample (.pfx (.v4 ⟨0x0A000000, 8⟩)) (some 7)).map PeerEntry.stale = some true ∧
    ([announcement ⟨0x0A000000, 8⟩ none true].foldl (PeerTable.replay refusesMed) (peerTable (LocRib.new ⟨0⟩) peerExample)
      (.pfx (.v4 ⟨0x0A000000, 8⟩)) (some 7)).map PeerEntry.stale = some false := by
  decide +kernel

end Bgpgg.Rib.LocRib
