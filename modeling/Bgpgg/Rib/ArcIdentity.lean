import Bgpgg.Rib.PathInvariant

namespace Bgpgg.Rib.LocRib

open Net List Lib

section

variable {Alloc : Type}

variable {start now : LocRib Alloc} (rib : LocRib Alloc) (key : RouteKey) (shouldRemove : Path → Bool)

-- One address holds one path: within a route every Arc has an address of its own, and
-- no address is in use that a later allocation could return.
structure ArcsSound (rib : LocRib Alloc) : Prop where
  bounded : ∀ key, ∀ path ∈ rib.getAllPaths key, path.ptr < rib.arcs
  distinct : ∀ key, ((rib.getAllPaths key).map Arc.ptr).Nodup

-- From start to now no stored path was changed in place: what is stored now was stored
-- under the same key at the start or was allocated since.
structure Renewal (start now : LocRib Alloc) : Prop where
  grows : start.arcs ≤ now.arcs
  origin : ∀ key, ∀ path ∈ now.getAllPaths key, path ∈ start.getAllPaths key ∨ start.arcs ≤ path.ptr ∧ path.ptr < now.arcs

theorem Renewal.refl : Renewal rib rib := ⟨Nat.le_refl _, fun _ _ member => .inl member⟩

theorem Renewal.trans {first second third : LocRib Alloc} (before : Renewal first second)
    (after : Renewal second third) : Renewal first third := by
  refine ⟨Nat.le_trans before.grows after.grows, ?_⟩
  intro key path member
  cases after.origin key path member with
  | inl stored =>
    cases before.origin key path stored with
    | inl original => exact .inl original
    | inr renewed => exact .inr ⟨renewed.1, Nat.lt_of_lt_of_le renewed.2 after.grows⟩
  | inr renewed => exact .inr ⟨Nat.le_trans before.grows renewed.1, renewed.2⟩

theorem Renewal.bounded (renewal : Renewal start now) (sound : start.ArcsSound)
    (key : RouteKey) (path : Arc Path) (member : path ∈ now.getAllPaths key) : path.ptr < now.arcs := by
  cases renewal.origin key path member with
  | inl stored => exact Nat.lt_of_lt_of_le (sound.bounded key path stored) renewal.grows
  | inr renewed => exact renewed.2

theorem ArcsSound.inj {rib : LocRib Alloc} (sound : rib.ArcsSound) (key : RouteKey) (first second : Arc Path)
    (firstMember : first ∈ rib.getAllPaths key) (secondMember : second ∈ rib.getAllPaths key)
    (same : first.ptr = second.ptr) : first = second :=
  inj_on_of_nodup_map (sound.distinct key) firstMember secondMember same

-- Comparing the addresses of the best paths is exact: nothing else was put at the old one.
theorem getBestPath_of_unchanged (sound : start.ArcsSound) (renewal : Renewal start now)
    {key : RouteKey} (unchanged : now.bestPathChanged key (start.getBestPath key) = false) :
    now.getBestPath key = start.getBestPath key := by
  cases old : start.getBestPath key with
  | none =>
    cases new : now.getBestPath key with
    | none => rfl
    | some path => simp [bestPathChanged, old, new] at unchanged
  | some oldPath =>
    cases new : now.getBestPath key with
    | none => simp [bestPathChanged, old, new] at unchanged
    | some newPath =>
      have samePtr : oldPath.ptr = newPath.ptr := by simpa [bestPathChanged, old, new] using unchanged
      rw [getBestPath_eq_head] at old new
      have oldMember := mem_of_mem_head? old
      cases renewal.origin key newPath (mem_of_mem_head? new) with
      | inl stored => rw [sound.inj key newPath oldPath stored oldMember samePtr.symm]
      | inr renewed =>
        have below := sound.bounded key oldPath oldMember
        omega

theorem removePaths_renewal : Renewal rib (rib.removePaths key shouldRemove).2 :=
  ⟨Nat.le_of_eq (pathIds_removePaths rib key shouldRemove).2.1.symm, fun _ _ member => .inl (mem_removePaths member).1⟩

theorem ArcsSound.of_renewal (sound : start.ArcsSound) (renewal : Renewal start now)
    (distinct : ∀ key, ((now.getAllPaths key).map Arc.ptr).Nodup) : now.ArcsSound :=
  ⟨renewal.bounded sound, distinct⟩

theorem removePaths_arcsSound (sound : rib.ArcsSound) : (rib.removePaths key shouldRemove).2.ArcsSound := by
  refine sound.of_renewal (removePaths_renewal rib key shouldRemove) ?_
  intro other
  rw [getAllPaths_removePaths]
  by_cases here : other = key
  · rw [if_pos here]
    exact (sound.distinct key).sublist (filter_sublist.map _)
  · rw [if_neg here]
    exact sound.distinct other

theorem markPeerRoutesStale_arcsSound (peerIp : IpAddr) (afiSafi : AfiSafi)
    (sound : rib.ArcsSound) : (rib.markPeerRoutesStale peerIp afiSafi).ArcsSound := by
  have samePtrs : ∀ key, ((rib.markPeerRoutesStale peerIp afiSafi).getAllPaths key).map Arc.ptr = (rib.getAllPaths key).map Arc.ptr := by
    intro key
    rw [getAllPaths_markPeerRoutesStale]
    split
    · rw [markStale, map_map]
      refine map_congr_left fun path _ => ?_
      simp only [Function.comp_apply]
      split <;> rfl
    · rfl
  have sameArcs : (rib.markPeerRoutesStale peerIp afiSafi).arcs = rib.arcs := by
    obtain ⟨afi, safi⟩ := afiSafi
    cases afi <;> cases safi <;> rfl
  refine ⟨?_, fun key => by rw [samePtrs]; exact sound.distinct key⟩
  intro key path member
  have ptrMember : path.ptr ∈ (rib.getAllPaths key).map Arc.ptr := by
    rw [← samePtrs]
    exact mem_map_of_mem member
  obtain ⟨stored, storedMember, same⟩ := mem_map.mp ptrMember
  rw [sameArcs, ← same]
  exact sound.bounded key stored storedMember

end

section

variable {Alloc : Type} [PathIdAllocator Alloc]

variable (config : LocRibConfig) (rib : LocRib Alloc) (key : RouteKey) (path : Path) (peerIp : IpAddr)
  (strategy : StaleStrategy) (importPolicy : ImportPolicy) (pendingRoutes : List PendingRoute)
  (state : LocRib Alloc × List RouteKey) (pending : PendingRoute)

theorem updateFirst_ptr (test : Arc Path → Bool) {change : Arc Path → Arc Path} {paths : List (Arc Path)} {bound : Nat}
    (below : ∀ path ∈ paths, path.ptr < bound) (distinct : (paths.map Arc.ptr).Nodup)
    (fresh : ∀ path ∈ paths, (change path).ptr = path.ptr ∨ bound ≤ (change path).ptr) :
    ((updateFirst test change paths).map Arc.ptr).Nodup := by
  induction paths with
  | nil => exact nodup_nil
  | cons head rest ih =>
    obtain ⟨apart, restDistinct⟩ := nodup_cons.mp distinct
    by_cases here : test head = true
    · simp only [updateFirst, if_pos here]
      refine nodup_cons.mpr ⟨?_, restDistinct⟩
      intro member
      cases fresh head mem_cons_self with
      | inl kept => exact apart (kept ▸ member)
      | inr high =>
        obtain ⟨other, otherMember, same⟩ := mem_map.mp member
        have low := below other (mem_cons_of_mem _ otherMember)
        omega
    · simp only [updateFirst, if_neg here]
      refine nodup_cons.mpr ⟨?_, ih (fun path member => below path (mem_cons_of_mem _ member)) restDistinct
        fun path member => fresh path (mem_cons_of_mem _ member)⟩
      intro member
      obtain ⟨other, otherMember, same⟩ := mem_map.mp member
      cases mem_updateFirst test change rest other otherMember with
      | inl stored => exact apart (same ▸ mem_map_of_mem stored)
      | inr changed =>
        obtain ⟨found, search, rfl⟩ := changed
        have foundMember := mem_of_find?_eq_some search
        cases fresh found (mem_cons_of_mem _ foundMember) with
        | inl kept => exact apart (same ▸ kept ▸ mem_map_of_mem foundMember)
        | inr high =>
          have low := below head mem_cons_self
          omega

theorem refreshMetadata_ptr (fresh : Nat) (existing : Arc Path) :
    refreshMetadata path fresh existing = existing ∨ (refreshMetadata path fresh existing).ptr = fresh := by
  rw [refreshMetadata]
  split
  · exact .inr rfl
  · exact .inl rfl

theorem Upserted.distinct {path : Arc Path} {fresh : Nat} {pathIds pathIdsAfter : Alloc} {paths result : List (Arc Path)}
    (upserted : Upserted path fresh pathIds paths result pathIdsAfter) (ordered : path.ptr ≤ fresh)
    (below : ∀ stored ∈ paths, stored.ptr < path.ptr) (distinct : (paths.map Arc.ptr).Nodup) : (result.map Arc.ptr).Nodup := by
  cases upserted with
  | replaced existing found different =>
    exact updateFirst_ptr _ below distinct fun _ _ => .inr (Nat.le_refl _)
  | refreshed existing found same =>
    refine updateFirst_ptr _ below distinct fun old _ => ?_
    cases refreshMetadata_ptr path.value fresh old with
    | inl kept => exact .inl (congrArg Arc.ptr kept)
    | inr renewed => exact .inr (by rw [renewed]; exact ordered)
  | added missing =>
    rw [map_append, nodup_append]
    refine ⟨distinct, nodup_singleton _, ?_⟩
    intro old oldMember new newMember same
    obtain ⟨stored, storedMember, rfl⟩ := mem_map.mp oldMember
    have low := below stored storedMember
    simp only [map_cons, map_nil, mem_singleton] at newMember
    omega

theorem upsertPath_renewal : Renewal rib (rib.upsertPath key path).2 := by
  by_cases limit : rib.lsLimitReached key = true
  · rw [upsertPath_refused rib key path limit]
    exact .refl rib
  · obtain ⟨-, paths, effect⟩ := upsertPath_accepted rib key path (by simpa using limit)
    refine ⟨by rw [effect.arcs]; omega, fun other stored member => (mem_upsertPath member).imp_right fun new => ?_⟩
    rw [effect.arcs]
    omega

theorem upsertPath_arcsSound (sound : rib.ArcsSound) : (rib.upsertPath key path).2.ArcsSound := by
  refine sound.of_renewal (upsertPath_renewal rib key path) ?_
  by_cases limit : rib.lsLimitReached key = true
  · rw [upsertPath_refused rib key path limit]
    exact sound.distinct
  · obtain ⟨-, paths, effect⟩ := upsertPath_accepted rib key path (by simpa using limit)
    intro other
    rw [effect.getAllPaths]
    by_cases here : other = key
    · rw [if_pos here]
      refine (((sortBy_perm _ paths).map Arc.ptr).nodup_iff).mpr ?_
      exact effect.upserted.distinct (Nat.le_succ _) (sound.bounded key) (sound.distinct key)
    · rw [if_neg here]
      exact sound.distinct other

theorem freeIds_renewal {start now : LocRib Alloc} (renewal : Renewal start now) (freed : List UInt32) :
    Renewal start (now.freeIds freed) :=
  ⟨renewal.grows, renewal.origin⟩

theorem removePeerPath_renewal (remotePathId : Option UInt32) : Renewal rib (rib.removePeerPath key peerIp remotePathId) :=
  freeIds_renewal (removePaths_renewal rib key (isWithdrawnBy peerIp remotePathId)) _

theorem applyPending_renewal : Renewal state.1 (applyPending peerIp importPolicy state pending).1 :=
  applyPending_keeps peerIp (.refl state.1) (removePeerPath_renewal state.1 _ peerIp) fun key _ _ _ =>
    upsertPath_renewal state.1 key _

theorem pending_renewal : Renewal state.1 (pendingRoutes.foldl (applyPending peerIp importPolicy) state).1 := by
  induction pendingRoutes generalizing state with
  | nil => exact .refl state.1
  | cons pending rest ih => exact (applyPending_renewal peerIp importPolicy state pending).trans (ih _)

theorem clearPeerPaths_renewal : Renewal rib (rib.clearPeerPaths peerIp) :=
  ⟨Nat.le_refl _, fun _ _ member => .inl (mem_removeRoutesFromPeer member).1⟩

theorem handleStaleKey_renewal (rib : LocRib Alloc) (delta : RouteDelta)
    (key : RouteKey) : Renewal rib (handleStaleKey peerIp strategy (rib, delta) key).1 := by
  cases handleStaleKey_cases peerIp strategy rib delta key with
  | inl idle =>
    rw [idle.2]
    exact .refl rib
  | inr active =>
    obtain ⟨route, found, effect, -⟩ := active
    have loop := applyStaleLoop_arcs peerIp strategy route.paths rib.pathIds rib.arcs
    refine ⟨by rw [effect.arcs]; exact loop.1, ?_⟩
    intro other path member
    rw [effect.getAllPaths] at member
    by_cases here : other = key
    · subst here
      rw [if_pos rfl, sortPaths, mem_sortBy] at member
      rw [effect.arcs, getAllPaths, found]
      exact loop.2 path member
    · rw [if_neg here] at member
      exact .inl member

theorem handleStaleKey_arcsSound (rib : LocRib Alloc) (delta : RouteDelta)
    (key : RouteKey) (sound : rib.ArcsSound) : (handleStaleKey peerIp strategy (rib, delta) key).1.ArcsSound := by
  refine sound.of_renewal (handleStaleKey_renewal peerIp strategy rib delta key) ?_
  cases handleStaleKey_cases peerIp strategy rib delta key with
  | inl idle =>
    rw [idle.2]
    exact sound.distinct
  | inr active =>
    obtain ⟨route, found, effect, -⟩ := active
    have stored : rib.getAllPaths key = route.paths := by rw [getAllPaths, found]; rfl
    intro other
    rw [effect.getAllPaths]
    by_cases here : other = key
    · rw [if_pos here]
      refine (((sortBy_perm _ _).map Arc.ptr).nodup_iff).mpr ?_
      exact applyStaleLoop_distinct peerIp strategy route.paths _ _ (stored ▸ sound.bounded key) (stored ▸ sound.distinct key)
    · rw [if_neg here]
      exact sound.distinct other

theorem clearPeerPaths_arcsSound (sound : rib.ArcsSound) : (rib.clearPeerPaths peerIp).ArcsSound := by
  refine sound.of_renewal (clearPeerPaths_renewal rib peerIp) ?_
  intro key
  rw [getAllPaths_clearPeerPaths]
  exact (sound.distinct key).sublist (filter_sublist.map _)

theorem removeLocalRoute_renewal : Renewal rib (rib.removeLocalRoute key).1 := by
  rw [removeLocalRoute_rib]
  exact freeIds_renewal (removePaths_renewal rib key isLocal) _

theorem arcsSound_stable : Stable (fun rib : LocRib Alloc => rib.ArcsSound) where
  removed rib key shouldRemove := removePaths_arcsSound rib key shouldRemove
  freed _ _ sound := ⟨sound.bounded, sound.distinct⟩
  upserted rib key path := upsertPath_arcsSound rib key path
  cleared rib peerIp := clearPeerPaths_arcsSound rib peerIp
  marked rib peerIp afiSafi := markPeerRoutesStale_arcsSound rib peerIp afiSafi
  staleKey peerIp strategy rib delta key := handleStaleKey_arcsSound peerIp strategy rib delta key

theorem new_arcsSound : (LocRib.new config).ArcsSound := by
  refine ⟨?_, ?_⟩
  · intro key path member
    rw [getAllPaths, getRoute_new] at member
    cases member
  · intro key
    rw [getAllPaths, getRoute_new]
    exact nodup_nil

theorem reachable_arcsSound {allowed : LocRib BitmapPathIdAllocator → Op → Prop} {rib : LocRib BitmapPathIdAllocator}
    (run : Reaches step allowed (LocRib.new config) rib) : rib.ArcsSound :=
  run.invariant ArcsSound (new_arcsSound config) fun _ op sound _ => arcsSound_stable.step sound op

end

end Bgpgg.Rib.LocRib
