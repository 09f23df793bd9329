import Bgpgg.Rib.LocRibInvariant

namespace Bgpgg.Rib.LocRib

open Net

-- A property of the whole table that each way of changing it keeps, whatever is stored.
structure Stable {Alloc : Type} [PathIdAllocator Alloc] (property : LocRib Alloc → Prop) : Prop where
  removed : ∀ rib key shouldRemove, property rib → property (rib.removePaths key shouldRemove).2
  freed : ∀ rib freed, property rib → property (rib.freeIds freed)
  upserted : ∀ rib key path, property rib → property (rib.upsertPath key path).2
  cleared : ∀ rib peerIp, property rib → property (rib.removeRoutesFromPeer peerIp).1
  marked : ∀ rib peerIp afiSafi, property rib → property (rib.markPeerRoutesStale peerIp afiSafi)
  staleKey : ∀ peerIp strategy rib delta key, property rib → property (handleStaleKey peerIp strategy (rib, delta) key).1

section

variable {Alloc : Type} [PathIdAllocator Alloc] {property : LocRib Alloc → Prop} {rib : LocRib Alloc}

section

variable (stable : Stable property)

include stable

theorem Stable.removePeerPath (key : RouteKey) (peerIp : IpAddr) (remotePathId : Option UInt32)
    (holds : property rib) : property (rib.removePeerPath key peerIp remotePathId) :=
  stable.freed _ _ (stable.removed rib key _ holds)

theorem Stable.applyPending (peerIp : IpAddr) (importPolicy : ImportPolicy) (state : LocRib Alloc × List RouteKey)
    (pending : PendingRoute) (holds : property state.1) :
    property (applyPending peerIp importPolicy state pending).1 :=
  applyPending_keeps peerIp holds (fun remotePathId => stable.removePeerPath _ peerIp remotePathId holds)
    fun key _ _ _ => stable.upserted _ key _ holds

theorem Stable.applyPeerUpdate (peerIp : IpAddr) (pendingRoutes : List PendingRoute) (importPolicy : ImportPolicy)
    (holds : property rib) :
    property (rib.applyPeerUpdate peerIp pendingRoutes importPolicy).1 :=
  applyPeerUpdate_keeps rib peerIp holds fun state pending _ => stable.applyPending peerIp importPolicy state pending

theorem Stable.handleStale (peerIp : IpAddr) (afiSafis : List AfiSafi) (strategy : StaleStrategy)
    (holds : property rib) : property (rib.handleStale peerIp afiSafis strategy).1 :=
  handleStale_invariant property (stable.staleKey peerIp strategy) rib afiSafis holds

theorem Stable.step (holds : property rib) (op : Op) : property (rib.step op) := by
  cases op with
  | applyPeerUpdate peerIp pendingRoutes importPolicy =>
    exact stable.applyPeerUpdate peerIp pendingRoutes importPolicy holds
  | addLocalRoute key pathAttrs =>
    rw [LocRib.step, addLocalRoute_rib]
    exact stable.upserted rib key _ holds
  | removeLocalRoute key =>
    rw [LocRib.step, removeLocalRoute_rib]
    exact stable.freed _ _ (stable.removed rib key _ holds)
  | removeRoutesFromPeer peerIp => exact stable.cleared rib peerIp holds
  | markPeerRoutesStale peerIp afiSafi => exact stable.marked rib peerIp afiSafi holds
  | applyLlgr peerIp afiSafis | removePeerRoutesStale peerIp afiSafis => exact stable.handleStale peerIp afiSafis _ holds

theorem Stable.steps (holds : property rib) (ops : List Op) : property (ops.foldl LocRib.step rib) := by
  exact List.foldlRecOn ops _ holds fun _ holds op _ => stable.step holds op

end

end

section

variable {Alloc : Type} {rib : LocRib Alloc} {key other : RouteKey} {item : Arc Path}

theorem mem_removePaths {shouldRemove : Path → Bool} (member : item ∈ (rib.removePaths key shouldRemove).2.getAllPaths other) :
    item ∈ rib.getAllPaths other ∧ (other = key → shouldRemove item.value = false) := by
  rw [getAllPaths_removePaths] at member
  by_cases here : other = key
  · rw [if_pos here, retained, List.mem_filter] at member
    exact ⟨here ▸ member.1, fun _ => by simpa using member.2⟩
  · rw [if_neg here] at member
    exact ⟨member, fun same => absurd same here⟩

theorem mem_markPeerRoutesStale {peerIp : IpAddr} {afiSafi : AfiSafi}
    (member : item ∈ (rib.markPeerRoutesStale peerIp afiSafi).getAllPaths key) :
    ∃ old ∈ rib.getAllPaths key, item = old ∧ (familyHolds afiSafi key = true → old.value.isFromPeer peerIp = false) ∨
      item.value = { old.value with stale := true } := by
  rw [getAllPaths_markPeerRoutesStale] at member
  by_cases held : familyHolds afiSafi key = true
  · rw [if_pos held, markStale, List.mem_map] at member
    obtain ⟨old, listed, rfl⟩ := member
    refine ⟨old, listed, ?_⟩
    split
    next => exact .inr rfl
    next foreign => exact .inl ⟨rfl, fun _ => by simpa using foreign⟩
  · rw [if_neg held] at member
    exact ⟨item, member, .inl ⟨rfl, fun holds => absurd holds held⟩⟩

variable [PathIdAllocator Alloc]

theorem mem_removePeerPath {peerIp : IpAddr} {remotePathId : Option UInt32}
    (member : item ∈ (rib.removePeerPath key peerIp remotePathId).getAllPaths other) :
    item ∈ rib.getAllPaths other ∧ (other = key → isWithdrawnBy peerIp remotePathId item.value = false) := by
  exact mem_removePaths member

theorem mem_removeLocalRoute (member : item ∈ (rib.removeLocalRoute key).1.getAllPaths other) :
    item ∈ rib.getAllPaths other ∧ (other = key → isLocal item.value = false) := by
  rw [removeLocalRoute_rib, getAllPaths, getRoute_freeIds] at member
  exact mem_removePaths member

theorem mem_removeRoutesFromPeer {peerIp : IpAddr} (member : item ∈ (rib.removeRoutesFromPeer peerIp).1.getAllPaths key) :
    item ∈ rib.getAllPaths key ∧ item.value.isFromPeer peerIp = false := by
  have cleared : item ∈ (rib.clearPeerPaths peerIp).getAllPaths key := member
  rw [getAllPaths_clearPeerPaths, retained, List.mem_filter] at cleared
  exact ⟨cleared.1, by simpa using cleared.2⟩

theorem Upserted.stored {path : Arc Path} {fresh : Nat} {pathIds after : Alloc} {paths result : List (Arc Path)}
    (upserted : Upserted path fresh pathIds paths result after) (member : item ∈ result) :
    item ∈ paths ∨ slotOf item.value = slotOf path.value ∧ item.value.attrs = path.value.attrs ∧
      (item.value.localPathId.isSome = true ∨ ∃ old ∈ paths, item.value.localPathId = old.value.localPathId) ∧
      (item.ptr = path.ptr ∨ item.ptr = fresh) := by
  cases upserted with
  | replaced existing found different =>
    refine (mem_updateFirst _ _ _ _ member).imp_right fun changed => ?_
    obtain ⟨_, _, rfl⟩ := changed
    exact ⟨rfl, rfl, .inr ⟨existing, List.mem_of_find?_eq_some found, rfl⟩, .inl rfl⟩
  | refreshed existing found same =>
    have listed := List.mem_of_find?_eq_some found
    cases mem_updateFirst _ _ _ _ member with
    | inl old => exact .inl old
    | inr changed =>
      obtain ⟨old, search, rfl⟩ := changed
      cases search.symm.trans found
      rw [refreshMetadata]
      split
      · exact .inr ⟨find_slot path.value paths existing found, same, .inr ⟨existing, listed, rfl⟩, .inr rfl⟩
      · exact .inl listed
  | added missing =>
    refine (List.mem_append.mp member).imp_right fun new => ?_
    rw [List.mem_singleton.mp new]
    exact ⟨rfl, rfl, .inl rfl, .inl rfl⟩

theorem mem_upsertPath {path : Path} (member : item ∈ (rib.upsertPath key path).2.getAllPaths other) :
    item ∈ rib.getAllPaths other ∨ other = key ∧ slotOf item.value = slotOf path ∧ item.value.attrs = path.attrs ∧
      (item.value.localPathId.isSome = true ∨ ∃ old ∈ rib.getAllPaths key, item.value.localPathId = old.value.localPathId) ∧
      (item.ptr = rib.arcs ∨ item.ptr = rib.arcs + 1) := by
  cases limit : rib.lsLimitReached key with
  | true =>
    rw [upsertPath_refused rib key path limit] at member
    exact .inl member
  | false =>
    obtain ⟨-, paths, effect⟩ := upsertPath_accepted rib key path limit
    rw [effect.getAllPaths] at member
    by_cases here : other = key
    · rw [if_pos here, sortPaths, mem_sortBy] at member
      exact (effect.upserted.stored member).imp (fun old => here ▸ old) fun new => ⟨here, new⟩
    · rw [if_neg here] at member
      exact .inl member

def Identified (rib : LocRib Alloc) : Prop := ∀ key, ∀ path ∈ rib.getAllPaths key, path.value.localPathId.isSome = true

theorem identified_stable : Stable (fun rib : LocRib Alloc => rib.Identified) where
  removed _ _ _ before key path member := before key path (mem_removePaths member).1
  freed _ _ before key path member := by
    exact before key path member
  upserted _ _ _ before key path member := by
    cases mem_upsertPath member with
    | inl old => exact before key path old
    | inr stored =>
      obtain ⟨rfl, -, -, fresh | ⟨old, listed, same⟩, -⟩ := stored
      · exact fresh
      · exact same ▸ before key old listed
  cleared _ _ before key path member := before key path (mem_removeRoutesFromPeer member).1
  marked _ _ _ before key path member := by
    obtain ⟨old, listed, ⟨rfl, -⟩ | marked⟩ := mem_markPeerRoutesStale member
    · exact before key path listed
    · exact marked ▸ before key old listed
  staleKey peerIp strategy _ _ _ before key path member := by
    obtain ⟨old, listed, ⟨-, same⟩ | ⟨-, same⟩⟩ := mem_handleStaleKey member
    · exact same ▸ before key old listed
    · rw [← same]
      cases staleTagged_cases peerIp strategy old.value with
      | inl kept | inr kept =>
        rw [kept]
        exact before key old listed

end

-- A property of the attributes that all stored paths have. The tables move paths, renumber
-- them and mark them, but the only attribute they ever write is a community.
def Carries {Alloc : Type} (holds : PathAttrs → Prop) (rib : LocRib Alloc) : Prop :=
  ∀ key, ∀ path ∈ rib.getAllPaths key, holds path.value.attrs

section

variable {Alloc : Type} {holds : PathAttrs → Prop} {rib : LocRib Alloc}

theorem Carries.of_sublist {final : LocRib Alloc} (carried : rib.Carries holds)
    (kept : ∀ key, ∀ path ∈ final.getAllPaths key, path ∈ rib.getAllPaths key) : final.Carries holds :=
  fun key path member => carried key path (kept key path member)

theorem markPeerRoutesStale_carries (carried : rib.Carries holds) (peerIp : IpAddr) (afiSafi : AfiSafi) :
    (rib.markPeerRoutesStale peerIp afiSafi).Carries holds := by
  intro key path member
  obtain ⟨old, listed, ⟨rfl, -⟩ | marked⟩ := mem_markPeerRoutesStale member
  · exact carried key path listed
  · rw [marked]
    exact carried key old listed

variable [PathIdAllocator Alloc]

theorem removePeerPath_carries (carried : rib.Carries holds) (key : RouteKey) (peerIp : IpAddr)
    (remotePathId : Option UInt32) : (rib.removePeerPath key peerIp remotePathId).Carries holds :=
  carried.of_sublist fun _ _ member => (mem_removePeerPath member).1

section

variable (carried : rib.Carries holds)

include carried

theorem upsertPath_carries (key : RouteKey) {path : Path} (new : holds path.attrs) : (rib.upsertPath key path).2.Carries holds := by
  intro other item member
  cases mem_upsertPath member with
  | inl old => exact carried other item old
  | inr stored => exact stored.2.2.1 ▸ new

theorem applyPeerUpdate_carries (peerIp : IpAddr) {pendingRoutes : List PendingRoute} {importPolicy : ImportPolicy}
    (imported : ∀ key path, .announce key path ∈ pendingRoutes → (importPolicy key path).1 = true →
      holds (importPolicy key path).2.attrs) :
    (rib.applyPeerUpdate peerIp pendingRoutes importPolicy).1.Carries holds := by
  apply applyPeerUpdate_keeps rib peerIp carried
  intro state pending listed current
  apply applyPending_keeps peerIp current (removePeerPath_carries current _ peerIp)
  rintro key announced rfl accepted
  exact upsertPath_carries current _ (imported key announced listed accepted)

end

theorem handleStale_carries (tagged : ∀ attrs : PathAttrs, holds attrs →
      holds { attrs with communities := attrs.communities ++ [LLGR_STALE] })
    (carried : rib.Carries holds) (peerIp : IpAddr) (afiSafis : List AfiSafi) (strategy : StaleStrategy) :
    (rib.handleStale peerIp afiSafis strategy).1.Carries holds := by
  refine handleStale_invariant (Carries holds) ?_ rib afiSafis carried
  intro current delta key before other path member
  obtain ⟨old, listed, ⟨-, same⟩ | ⟨-, same⟩⟩ := mem_handleStaleKey member
  · exact same ▸ before other old listed
  · rw [← same]
    cases staleTagged_cases peerIp strategy old.value with
    | inl kept => exact kept.symm ▸ before other old listed
    | inr written => exact written.symm ▸ tagged _ (before other old listed)

def Brings (holds : PathAttrs → Prop) : Op → Prop
  | .applyPeerUpdate _ pendingRoutes importPolicy => ∀ key path, .announce key path ∈ pendingRoutes →
      (importPolicy key path).1 = true → holds (importPolicy key path).2.attrs
  | .addLocalRoute _ pathAttrs => holds (localPath pathAttrs).attrs
  | _ => True

theorem step_carries (tagged : ∀ attrs : PathAttrs, holds attrs → holds { attrs with communities := attrs.communities ++ [LLGR_STALE] })
    (carried : rib.Carries holds) (op : Op) (brought : Brings holds op) : (rib.step op).Carries holds := by
  cases op with
  | applyPeerUpdate peerIp pendingRoutes importPolicy =>
    exact applyPeerUpdate_carries carried peerIp brought
  | addLocalRoute key pathAttrs =>
    rw [step, addLocalRoute_rib]
    exact upsertPath_carries carried key brought
  | removeLocalRoute key => exact carried.of_sublist fun _ _ member => (mem_removeLocalRoute member).1
  | removeRoutesFromPeer peerIp => exact carried.of_sublist fun _ _ member => (mem_removeRoutesFromPeer member).1
  | markPeerRoutesStale peerIp afiSafi => exact markPeerRoutesStale_carries carried peerIp afiSafi
  | applyLlgr peerIp afiSafis => exact handleStale_carries tagged carried peerIp afiSafis _
  | removePeerRoutesStale peerIp afiSafis => exact handleStale_carries tagged carried peerIp afiSafis _

end

end Bgpgg.Rib.LocRib
