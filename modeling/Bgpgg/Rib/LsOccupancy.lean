import Mathlib.Data.Multiset.Filter
import Bgpgg.Rib.DeltaCover

namespace Bgpgg.Rib.LocRib

open Net Wire Lib AssocMap

-- The abstract link-state table: which slots are taken under which NLRI. It forgets the
-- attributes, the local path identifiers and the order of the paths.
abbrev LsOccupancy := AssocMap LsNlri (Multiset Slot)

namespace LsOccupancy

section

variable (occupancy : LsOccupancy) (limit : UInt32) (nlri : LsNlri)

def refuses : Bool := limit > 0 && !AssocMap.contains occupancy nlri && AssocMap.size occupancy ≥ limit.toNat

def release (gone : Slot → Bool) : LsOccupancy := match occupancy.lookup nlri with
  | none => occupancy
  | some slots =>
    if slots.filter (fun slot => gone slot = false) = 0 then occupancy.erase nlri
    else occupancy.insert nlri (slots.filter fun slot => gone slot = false)

def take (slot : Slot) : LsOccupancy := let slots := (occupancy.lookup nlri).getD 0
  occupancy.insert nlri (if slot ∈ slots then slots else slot ::ₘ slots)

def isReleasedBy (peerIp : IpAddr) (remotePathId : Option UInt32) (slot : Slot) : Bool := slot.1.peerIp == some peerIp &&
    match remotePathId with
    | none => true
    | some id => slot.2 == some id

def replay (limit : UInt32) (peerIp : IpAddr) (importPolicy : ImportPolicy) (occupancy : LsOccupancy) : PendingRoute → LsOccupancy
  | .withdraw (.linkState nlri) remotePathId => occupancy.release nlri (isReleasedBy peerIp remotePathId)
  | .announce (.linkState nlri) announced =>
    if (importPolicy (.linkState nlri) announced).1 then
      if occupancy.refuses limit nlri then occupancy
      else occupancy.take nlri (slotOf (importPolicy (.linkState nlri) announced).2)
    else occupancy.release nlri (isReleasedBy peerIp announced.remotePathId)
  | .withdraw (.pfx _) _ => occupancy
  | .announce (.pfx _) _ => occupancy

def Taken : Prop := (occupancy.lookup nlri).getD 0 ≠ 0

theorem lookup_release (nlri other : LsNlri) (gone : Slot → Bool) : (occupancy.release nlri gone).lookup other = if other = nlri then
        ((occupancy.lookup nlri).map fun slots => slots.filter fun slot => gone slot = false).filter fun slots => slots ≠ 0
      else occupancy.lookup other := by
  rw [release]
  cases found : occupancy.lookup nlri with
  | none =>
    by_cases same : other = nlri
    · rw [if_pos same, same, found]
      rfl
    · rw [if_neg same]
  | some slots =>
    by_cases empty : slots.filter (fun slot => gone slot = false) = 0
    · simp only [if_pos empty, lookup_erase_if, Option.map_some]
      rw [Option.filter_some_neg (by simpa using empty)]
    · simp only [if_neg empty, lookup_insert_if, Option.map_some]
      rw [Option.filter_some_pos (by simpa using empty)]

end

end LsOccupancy

def slotsIn (paths : List (Arc Path)) : Multiset Slot := ↑(paths.map fun path => slotOf path.value)

def slotsOf (route : LocRoute) : Multiset Slot := slotsIn route.paths

section

variable {Alloc : Type}

variable {occupancy : LsOccupancy} {rib : LocRib Alloc}

def lsOccupancy (rib : LocRib Alloc) : LsOccupancy := AssocMap.filterMapValues (fun _ route => some (slotsOf route)) rib.linkState

def Occupies (rib : LocRib Alloc) (occupancy : LsOccupancy) : Prop :=
  ∀ nlri, occupancy.lookup nlri = (rib.getRoute (.linkState nlri)).map slotsOf

theorem lsOccupancy_occupies (rib : LocRib Alloc) : Occupies rib rib.lsOccupancy := by
  intro nlri
  rw [lsOccupancy, lookup_filterMapValues, Option.map_eq_bind]
  rfl

theorem Occupies.refuses (occupies : Occupies rib occupancy)
    (nlri : LsNlri) : occupancy.refuses rib.config.maxLsEntries nlri = rib.lsLimitReached (.linkState nlri) := by
  have stored : ∀ other, contains occupancy other = contains rib.linkState other := by
    intro other
    rw [contains, occupies other, Option.isSome_map]
    rfl
  rw [LsOccupancy.refuses, lsLimitReached, stored nlri, size_congr stored]

theorem Occupies.taken_iff (occupies : Occupies rib occupancy)
    (nlri : LsNlri) : occupancy.Taken nlri ↔ rib.getAllPaths (.linkState nlri) ≠ [] := by
  rw [LsOccupancy.Taken, occupies nlri, getAllPaths]
  cases rib.getRoute (.linkState nlri) with
  | none => simp
  | some route => simp [slotsOf, slotsIn]

theorem Occupies.other_family {rib final : LocRib Alloc} (occupies : Occupies rib occupancy)
    (same : ∀ nlri, final.getRoute (.linkState nlri) = rib.getRoute (.linkState nlri)) : Occupies final occupancy := by
  intro nlri
  rw [same nlri]
  exact occupies nlri

theorem isReleasedBy_slotOf (peerIp : IpAddr) (remotePathId : Option UInt32) (path : Path) :
    LsOccupancy.isReleasedBy peerIp remotePathId (slotOf path) = isWithdrawnBy peerIp remotePathId path := by
  cases remotePathId <;> rfl

theorem slotsOf_retained (route : LocRoute) (peerIp : IpAddr) (remotePathId : Option UInt32) :
    slotsOf { route with paths := retained (isWithdrawnBy peerIp remotePathId) route.paths } =
      (slotsOf route).filter fun slot => LsOccupancy.isReleasedBy peerIp remotePathId slot = false := by
  simp only [slotsOf, slotsIn, retained, Multiset.filter_coe, List.filter_map, Function.comp_def, isReleasedBy_slotOf]
  congr 3
  funext path
  cases isWithdrawnBy peerIp remotePathId path.value <;> rfl

def bestView (path : Arc Path) : PathAttrs × Option UInt32 := (path.value.attrs, path.value.localPathId)

-- The keys whose best path differs are in best_changed and those whose set of paths
-- differs in changed; view is what of a path the sets are compared by.
structure DeltaComplete {View : Type} (view : Arc Path → View) (before after : LocRib Alloc) (delta : RouteDelta) :
    Prop where
  best : ∀ key, (after.getBestPath key).map bestView ≠ (before.getBestPath key).map bestView → key ∈ delta.bestChanged
  paths : ∀ key, ¬ (∀ seen, seen ∈ (after.getAllPaths key).map view ↔ seen ∈ (before.getAllPaths key).map view) → key ∈ delta.changed

theorem Covers.complete {View : Type} (view : Arc Path → View) {before after : LocRib Alloc} {delta : RouteDelta}
    (covers : Covers delta before after) : DeltaComplete view before after delta := by
  refine ⟨?_, ?_⟩
  · intro key differs
    by_contra unlisted
    exact differs (congrArg _ (covers.best key unlisted))
  · intro key differs
    by_contra unlisted
    exact differs fun seen => by rw [covers.paths key unlisted]

end

section

variable {Alloc : Type} [PathIdAllocator Alloc]

variable (rib : LocRib Alloc) (peerIp : IpAddr) (importPolicy : ImportPolicy) (pendingRoutes : List PendingRoute)
  (nlri : LsNlri) (state : LocRib Alloc × List RouteKey) (key : RouteKey) (pending : PendingRoute) (occupancy : LsOccupancy)

theorem release_occupies {rib : LocRib Alloc} {occupancy : LsOccupancy} (occupies : Occupies rib occupancy)
    (nlri : LsNlri) (peerIp : IpAddr) (remotePathId : Option UInt32) :
    Occupies (rib.removePeerPath (.linkState nlri) peerIp remotePathId)
      (occupancy.release nlri (LsOccupancy.isReleasedBy peerIp remotePathId)) := by
  intro other
  have routes : (rib.removePeerPath (.linkState nlri) peerIp remotePathId).getRoute (.linkState other) = _ :=
    getRoute_removePaths rib (.linkState nlri) (.linkState other) (isWithdrawnBy peerIp remotePathId)
  rw [routes, LsOccupancy.lookup_release]
  by_cases here : other = nlri
  · rw [if_pos here, if_pos (congrArg _ here), occupies nlri]
    cases rib.getRoute (.linkState nlri) with
    | none => rfl
    | some route =>
      simp only [Option.map_some, ← slotsOf_retained]
      by_cases empty : retained (isWithdrawnBy peerIp remotePathId) route.paths = []
      · rw [Option.filter_some_neg (by simp [slotsOf, slotsIn, empty]), Option.filter_some_neg (by simp [empty])]
        rfl
      · rw [Option.filter_some_pos (by simp [slotsOf, slotsIn, empty]), Option.filter_some_pos (by simp [empty])]
        rfl
  · have different : RouteKey.linkState other ≠ .linkState nlri := fun same => here (RouteKey.linkState.inj same)
    rw [if_neg here, if_neg different]
    exact occupies other

theorem Upserted.slots {path : Arc Path} {fresh : Nat} {pathIds pathIdsAfter : Alloc} {paths result : List (Arc Path)}
    (upserted : Upserted path fresh pathIds paths result pathIdsAfter) :
    slotsIn result = if slotOf path.value ∈ slotsIn paths then slotsIn paths else slotOf path.value ::ₘ slotsIn paths := by
  have known : ∀ existing, paths.find? (fun stored => stored.value.matchesRemote path.value) = some existing →
      slotOf path.value ∈ slotsIn paths := by
    intro existing found
    rw [← find_slot path.value paths existing found]
    exact Multiset.mem_coe.mpr (List.mem_map.mpr ⟨existing, List.mem_of_find?_eq_some found, rfl⟩)
  cases upserted with
  | replaced existing found different =>
    rw [if_pos (known existing found), slotsIn, map_updateFirst, slotsIn]
    intro other search
    rw [find_slot path.value paths other search]
    rfl
  | refreshed existing found same =>
    rw [if_pos (known existing found), slotsIn, map_updateFirst, slotsIn]
    intro other search
    exact congrArg Prod.fst (refreshMetadata_entry path.value fresh other)
  | added missing =>
    have unknown : slotOf path.value ∉ slotsIn paths := by
      intro member
      obtain ⟨stored, storedMember, same⟩ := List.mem_map.mp member
      have unmatched := find_none_of _ paths missing stored storedMember
      rw [(matchesRemote_iff stored.value path.value).mpr same] at unmatched
      cases unmatched
    rw [if_neg unknown, slotsIn, slotsIn, List.map_append, Multiset.cons_coe, Multiset.coe_eq_coe]
    exact List.perm_append_singleton _ _

theorem take_occupies {rib : LocRib Alloc} {occupancy : LsOccupancy} (occupies : Occupies rib occupancy)
    {nlri : LsNlri} (path : Path) (available : rib.lsLimitReached (.linkState nlri) = false) :
    Occupies (rib.upsertPath (.linkState nlri) path).2 (occupancy.take nlri (slotOf path)) := by
  obtain ⟨-, paths, effect⟩ := upsertPath_accepted rib (.linkState nlri) path available
  have before : (occupancy.lookup nlri).getD 0 = slotsIn (rib.getAllPaths (.linkState nlri)) := by
    rw [occupies nlri, LocRib.getAllPaths]
    cases rib.getRoute (.linkState nlri) <;> rfl
  intro other
  rw [effect.routes, LsOccupancy.take, lookup_insert_if]
  by_cases here : other = nlri
  · rw [if_pos here, if_pos (congrArg _ here), Option.map_some, before]
    have sorted : slotsOf ⟨((rib.getRoute (.linkState nlri)).getD ⟨.linkState nlri, []⟩).key, sortPaths paths⟩ = slotsIn paths :=
      Multiset.coe_eq_coe.mpr ((sortBy_perm _ paths).map _)
    rw [sorted, effect.upserted.slots]
  · have different : RouteKey.linkState other ≠ .linkState nlri := fun same => here (RouteKey.linkState.inj same)
    rw [if_neg here, if_neg different]
    exact occupies other

theorem config_applyPending : (applyPending peerIp importPolicy state pending).1.config = state.1.config := by
  have step := applyPending_step peerIp importPolicy state pending
  generalize applyPending peerIp importPolicy state pending = next at step ⊢
  cases step with
  | withdrawn key remotePathId | denied key announced denial => exact (pathIds_removePaths state.1 key _).2.2
  | stored key announced accepted available =>
    obtain ⟨-, paths, effect⟩ := upsertPath_accepted state.1 key (importPolicy key announced).2 available
    exact effect.config
  | refused key announced accepted limit => rfl

theorem applyPending_occupies (occupies : Occupies state.1 occupancy) : Occupies (applyPending peerIp importPolicy state pending).1
      (occupancy.replay state.1.config.maxLsEntries peerIp importPolicy pending) := by
  have removedElsewhere : ∀ net remotePathId, Occupies (state.1.removePeerPath (.pfx net) peerIp remotePathId) occupancy := by
    intro net remotePathId
    refine occupies.other_family fun nlri => ?_
    exact getRoute_removePaths state.1 (.pfx net) (.linkState nlri) (isWithdrawnBy peerIp remotePathId)
  have step := applyPending_step peerIp importPolicy state pending
  generalize applyPending peerIp importPolicy state pending = next at step ⊢
  cases step with
  | withdrawn key remotePathId =>
    cases key with
    | pfx net => exact removedElsewhere net remotePathId
    | linkState nlri => exact release_occupies occupies nlri peerIp remotePathId
  | denied key announced denial =>
    cases key with
    | pfx net => exact removedElsewhere net announced.remotePathId
    | linkState nlri =>
      simp only [LsOccupancy.replay, denial, Bool.false_eq_true]
      exact release_occupies occupies nlri peerIp announced.remotePathId
  | stored key announced accepted available =>
    cases key with
    | pfx net =>
      obtain ⟨-, paths, effect⟩ := upsertPath_accepted state.1 (.pfx net) (importPolicy (.pfx net) announced).2 available
      exact occupies.other_family fun nlri => effect.routes (.linkState nlri)
    | linkState nlri =>
      simp only [LsOccupancy.replay, accepted, occupies.refuses nlri, available, Bool.false_eq_true]
      exact take_occupies occupies _ available
  | refused key announced accepted limit =>
    cases key with
    | pfx net => exact occupies
    | linkState nlri =>
      simp only [LsOccupancy.replay, accepted, occupies.refuses nlri, limit]
      exact occupies

theorem pending_occupies (occupies : Occupies state.1 occupancy) :
    Occupies (pendingRoutes.foldl (applyPending peerIp importPolicy) state).1
      (pendingRoutes.foldl (LsOccupancy.replay state.1.config.maxLsEntries peerIp importPolicy) occupancy) ∧
    (pendingRoutes.foldl (applyPending peerIp importPolicy) state).1.config = state.1.config := by
  induction pendingRoutes generalizing state occupancy with
  | nil => exact ⟨occupies, rfl⟩
  | cons pending rest ih =>
    have sameConfig := config_applyPending peerIp importPolicy state pending
    obtain ⟨later, kept⟩ := ih (applyPending peerIp importPolicy state pending) _
      (applyPending_occupies peerIp importPolicy state pending occupancy occupies)
    rw [sameConfig] at later kept
    exact ⟨later, kept⟩

theorem mem_rejected_iff : key ∈ (pendingRoutes.foldl (applyPending peerIp importPolicy) state).2 ↔
      key ∈ state.2 ∨ ∃ done announced left, pendingRoutes = done ++ .announce key announced :: left ∧
        (importPolicy key announced).1 = true ∧
        (done.foldl (applyPending peerIp importPolicy) state).1.lsLimitReached key = true := by
  induction pendingRoutes generalizing state with
  | nil => simp
  | cons pending rest ih =>
    have now : key ∈ (applyPending peerIp importPolicy state pending).2 ↔ key ∈ state.2 ∨
        ∃ announced, pending = .announce key announced ∧ (importPolicy key announced).1 = true ∧ state.1.lsLimitReached key = true := by
      have step := applyPending_step peerIp importPolicy state pending
      generalize applyPending peerIp importPolicy state pending = next at step ⊢
      cases step with
      | withdrawn other remotePathId => simp
      | denied other announced denial | stored other announced accepted available => grind
      | refused other announced accepted limit => grind
    rw [List.foldl_cons, ih, now, or_assoc]
    refine or_congr_right ⟨?_, ?_⟩
    · intro refused
      cases refused with
      | inl here =>
        obtain ⟨announced, rfl, accepted, limit⟩ := here
        exact ⟨[], announced, rest, rfl, accepted, limit⟩
      | inr later =>
        obtain ⟨done, announced, left, rfl, accepted, limit⟩ := later
        exact ⟨pending :: done, announced, left, rfl, accepted, limit⟩
    · rintro ⟨done, announced, left, split, accepted, limit⟩
      cases done with
      | nil =>
        obtain ⟨rfl, rfl⟩ := List.cons.inj split
        exact .inl ⟨announced, rfl, accepted, limit⟩
      | cons first front =>
        obtain ⟨rfl, rfl⟩ := List.cons.inj split
        exact .inr ⟨front, announced, left, rfl, accepted, limit⟩

def occupancyAfter (rib : LocRib Alloc) (peerIp : IpAddr) (importPolicy : ImportPolicy) (done : List PendingRoute) : LsOccupancy :=
  done.foldl (LsOccupancy.replay rib.config.maxLsEntries peerIp importPolicy) rib.lsOccupancy

def Refused (rib : LocRib Alloc) (peerIp : IpAddr) (importPolicy : ImportPolicy) (pendingRoutes : List PendingRoute)
    (nlri : LsNlri) : Prop :=
  ∃ done announced left, pendingRoutes = done ++ .announce (.linkState nlri) announced :: left ∧
    (importPolicy (.linkState nlri) announced).1 = true ∧
    (rib.occupancyAfter peerIp importPolicy done).refuses rib.config.maxLsEntries nlri = true

-- Every NLRI that the limit refuses is absent before the batch and absent after it.
def RefusalsHarmless (rib : LocRib Alloc) (peerIp : IpAddr) (importPolicy : ImportPolicy) (pendingRoutes : List PendingRoute) : Prop :=
  ∀ nlri, Refused rib peerIp importPolicy pendingRoutes nlri →
    ¬ rib.lsOccupancy.Taken nlri ∧ ¬ (rib.occupancyAfter peerIp importPolicy pendingRoutes).Taken nlri

theorem refused_iff : key ∈ (pendingRoutes.foldl (applyPending peerIp importPolicy) (rib, [])).2 ↔
      ∃ nlri, key = .linkState nlri ∧ Refused rib peerIp importPolicy pendingRoutes nlri := by
  have limitOf : ∀ done nlri, (done.foldl (applyPending peerIp importPolicy) (rib, [])).1.lsLimitReached (.linkState nlri) =
      (rib.occupancyAfter peerIp importPolicy done).refuses rib.config.maxLsEntries nlri := by
    intro done nlri
    obtain ⟨occupies, sameConfig⟩ := pending_occupies peerIp importPolicy done (rib, []) rib.lsOccupancy (lsOccupancy_occupies rib)
    rw [← occupies.refuses nlri, sameConfig]
    rfl
  rw [mem_rejected_iff]
  refine ⟨?_, ?_⟩
  · intro refused
    cases refused with
    | inl early => cases early
    | inr later =>
      obtain ⟨done, announced, left, split, accepted, limit⟩ := later
      cases key with
      | pfx net => cases limit
      | linkState nlri => exact ⟨nlri, rfl, done, announced, left, split, accepted, limitOf done nlri ▸ limit⟩
  · rintro ⟨nlri, rfl, done, announced, left, split, accepted, limit⟩
    exact .inr ⟨done, announced, left, split, accepted, (limitOf done nlri).trans limit⟩

theorem taken_after_iff : (rib.occupancyAfter peerIp importPolicy pendingRoutes).Taken nlri ↔
      (rib.applyPeerUpdate peerIp pendingRoutes importPolicy).1.getAllPaths (.linkState nlri) ≠ [] :=
  (pending_occupies peerIp importPolicy pendingRoutes (rib, []) rib.lsOccupancy (lsOccupancy_occupies rib)).1.taken_iff nlri

-- A refused key was empty in the middle of the batch, so nothing stored before it is left.
theorem refused_renewed (refused : Refused rib peerIp importPolicy pendingRoutes nlri) (path : Arc Path)
    (member : path ∈ (rib.applyPeerUpdate peerIp pendingRoutes importPolicy).1.getAllPaths (.linkState nlri)) :
    rib.arcs ≤ path.ptr := by
  obtain ⟨done, announced, left, rfl, accepted, limit⟩ := refused
  obtain ⟨occupies, sameConfig⟩ := pending_occupies peerIp importPolicy done (rib, []) rib.lsOccupancy (lsOccupancy_occupies rib)
  have absent : (done.foldl (applyPending peerIp importPolicy) (rib, [])).1.getAllPaths (.linkState nlri) = [] := by
    by_contra stored
    have taken := (occupies.taken_iff nlri).mpr stored
    simp only [LsOccupancy.refuses, contains, Bool.and_eq_true, Bool.not_eq_true', Option.isSome_eq_false_iff,
      Option.isNone_iff_eq_none] at limit
    exact taken (by rw [occupancyAfter] at limit; rw [limit.1.2]; rfl)
  have before := pending_renewal peerIp importPolicy done (rib, [])
  have after := pending_renewal peerIp importPolicy (.announce (.linkState nlri) announced :: left)
    (done.foldl (applyPending peerIp importPolicy) (rib, []))
  rw [← List.foldl_append] at after
  cases after.origin (.linkState nlri) path member with
  | inl stored =>
    rw [absent] at stored
    cases stored
  | inr renewed => exact Nat.le_trans before.grows renewed.1

theorem RefusalsHarmless.covers (importPolicy : ImportPolicy) (sound : rib.ArcsSound)
    (harmless : RefusalsHarmless rib peerIp importPolicy pendingRoutes) :
    Covers (rib.applyPeerUpdate peerIp pendingRoutes importPolicy).2 rib
      (rib.applyPeerUpdate peerIp pendingRoutes importPolicy).1 := by
  refine applyPeerUpdate_covers rib peerIp pendingRoutes importPolicy sound fun key rejected => ?_
  obtain ⟨nlri, rfl, refused⟩ := (refused_iff rib peerIp importPolicy pendingRoutes key).mp rejected
  obtain ⟨before, after⟩ := harmless nlri refused
  rw [(lsOccupancy_occupies rib).taken_iff, not_not] at before
  rw [taken_after_iff, not_not] at after
  rw [before, after]

theorem apply_peer_update_delta_complete_iff (rib : LocRib Alloc) (peerIp : IpAddr) (pendingRoutes : List PendingRoute)
    (importPolicy : ImportPolicy) (sound : rib.ArcsSound) :
    (DeltaComplete id rib (rib.applyPeerUpdate peerIp pendingRoutes importPolicy).1
        (rib.applyPeerUpdate peerIp pendingRoutes importPolicy).2 ↔
      RefusalsHarmless rib peerIp importPolicy pendingRoutes) ∧
    (RefusalsHarmless rib peerIp importPolicy pendingRoutes →
      DeltaComplete Arc.value rib (rib.applyPeerUpdate peerIp pendingRoutes importPolicy).1
        (rib.applyPeerUpdate peerIp pendingRoutes importPolicy).2) := by
  have covered := RefusalsHarmless.covers rib peerIp pendingRoutes importPolicy sound
  refine ⟨⟨?_, fun harmless => (covered harmless).complete id⟩, fun harmless => (covered harmless).complete Arc.value⟩
  intro complete nlri refused
  have unlisted : RouteKey.linkState nlri ∉ (rib.applyPeerUpdate peerIp pendingRoutes importPolicy).2.changed := by
    intro listed
    have rejected := (refused_iff rib peerIp importPolicy pendingRoutes _).mpr ⟨nlri, rfl, refused⟩
    have kept := (List.mem_filter.mp listed).2
    simp [rejected] at kept
  have same : ∀ path, path ∈ (rib.applyPeerUpdate peerIp pendingRoutes importPolicy).1.getAllPaths (.linkState nlri) ↔
      path ∈ rib.getAllPaths (.linkState nlri) := by
    by_contra differs
    exact unlisted (complete.paths _ (by simpa using differs))
  have apart : ∀ path, path ∉ rib.getAllPaths (.linkState nlri) := by
    intro path member
    have low := sound.bounded _ path member
    have high := refused_renewed rib peerIp importPolicy pendingRoutes nlri refused path ((same path).mpr member)
    omega
  refine ⟨?_, ?_⟩
  · rw [(lsOccupancy_occupies rib).taken_iff, not_not]
    exact List.eq_nil_iff_forall_not_mem.mpr apart
  · rw [taken_after_iff, not_not]
    exact List.eq_nil_iff_forall_not_mem.mpr fun path member => apart path ((same path).mp member)

end

def nodeExample (byte : UInt8) : LsNlri := ⟨1, [byte], none, none⟩

def lsAnnounceExample (byte : UInt8) : PendingRoute := .announce (.linkState (nodeExample byte))
    ⟨none, none, { localExample with source := .ibgp (.v4 0x0A000002) 0x0A000002 false }, false, .notFound⟩

def lsBatchExample (limit : UInt32) (pendingRoutes : List PendingRoute) : LocRib BitmapPathIdAllocator × RouteDelta :=
  ((LocRib.new ⟨limit⟩).applyPeerUpdate (.v4 0x0A000002) [lsAnnounceExample 1] fun _ path => (true, path)).1.applyPeerUpdate
    (.v4 0x0A000002) pendingRoutes fun _ path => (true, path)

-- With room for one entry: the stored NLRI is withdrawn, another one takes its place and
-- the first is announced again and refused.
theorem apply_peer_update_delta_misses_refused :
    (lsBatchExample 1 [.withdraw (.linkState (nodeExample 1)) none, lsAnnounceExample 2, lsAnnounceExample 1]).2 =
      ⟨[.linkState (nodeExample 2)], [.linkState (nodeExample 2)]⟩ ∧
    ¬ DeltaComplete Arc.value (lsBatchExample 1 []).1
      (lsBatchExample 1 [.withdraw (.linkState (nodeExample 1)) none, lsAnnounceExample 2, lsAnnounceExample 1]).1
      (lsBatchExample 1 [.withdraw (.linkState (nodeExample 1)) none, lsAnnounceExample 2, lsAnnounceExample 1]).2 := by
  refine ⟨by decide, fun complete => ?_⟩
  have listed := complete.best (.linkState (nodeExample 1)) (by decide)
  revert listed
  decide

theorem apply_peer_update_delta_complete_at_limit :
    DeltaComplete id (lsBatchExample 1 []).1 (lsBatchExample 1 [lsAnnounceExample 2]).1 (lsBatchExample 1 [lsAnnounceExample 2]).2 := by
  refine (apply_peer_update_delta_complete_iff (lsBatchExample 1 []).1 (.v4 0x0A000002) [lsAnnounceExample 2]
    (fun _ path => (true, path)) (reachable_arcsSound ⟨1⟩ (Reaches.of_run (LocRib.new ⟨1⟩)
      [Op.applyPeerUpdate (.v4 0x0A000002) [lsAnnounceExample 1] _, Op.applyPeerUpdate (.v4 0x0A000002) [] _]))).1.mpr ?_
  rintro nlri ⟨done, announced, left, split, -, -⟩
  have only : PendingRoute.announce (.linkState nlri) announced ∈ [lsAnnounceExample 2] := by simp [split]
  obtain ⟨rfl, -⟩ : nlri = nodeExample 2 ∧ _ := by simpa [lsAnnounceExample] using only
  exact ⟨show ¬ _ ≠ _ by decide, show ¬ _ ≠ _ by decide⟩

end Bgpgg.Rib.LocRib
