import Bgpgg.Rib.LivePaths
import Bgpgg.Rib.PeerReplay

namespace Bgpgg.Rib.LocRib

open Net List

def SlotsDistinct {Alloc : Type} (rib : LocRib Alloc) : Prop := ∀ key, ((rib.getAllPaths key).map fun path => slotOf path.value).Nodup

section

variable {Alloc : Type} [PathIdAllocator Alloc]

theorem Upserted.slots_nodup {path : Arc Path} {fresh : Nat} {pathIds after : Alloc} {paths result : List (Arc Path)}
    (upserted : Upserted path fresh pathIds paths result after)
    (distinct : (paths.map fun path => slotOf path.value).Nodup) : (result.map fun path => slotOf path.value).Nodup := by
  cases upserted with
  | replaced existing found different =>
    rw [map_updateFirst]
    · exact distinct
    · intro old search
      exact (find_slot path.value paths old search).symm
  | refreshed existing found same =>
    rw [map_updateFirst]
    · exact distinct
    · intro old _
      exact congrArg Prod.fst (refreshMetadata_entry path.value fresh old)
  | added missing =>
    rw [map_append, nodup_append]
    refine ⟨distinct, nodup_singleton _, ?_⟩
    intro slot old other new same
    obtain ⟨stored, member, rfl⟩ := mem_map.mp old
    rw [map_singleton, mem_singleton] at new
    exact (miss_iff path.value stored).mp (find_none_of _ _ missing stored member) (same.trans new)

theorem sortPaths_slots {paths : List (Arc Path)} (distinct : (paths.map fun path => slotOf path.value).Nodup) :
    ((sortPaths paths).map fun path => slotOf path.value).Nodup :=
  (((sortBy_perm _ paths).map fun path => slotOf path.value).nodup_iff).mpr distinct

theorem slotsDistinct_stable : Stable (fun rib : LocRib Alloc => rib.SlotsDistinct) where
  removed rib target shouldRemove distinct := by
    intro key
    rw [getAllPaths_removePaths]
    split
    · exact (distinct target).sublist (filter_sublist.map _)
    · exact distinct key
  freed rib freed distinct := by
    intro key
    exact distinct key
  upserted rib target path distinct := by
    cases limit : rib.lsLimitReached target with
    | true =>
      rw [upsertPath_refused rib target path limit]
      exact distinct
    | false =>
      obtain ⟨-, paths, effect⟩ := upsertPath_accepted rib target path limit
      intro key
      rw [effect.getAllPaths]
      split
      · exact sortPaths_slots (effect.upserted.slots_nodup (distinct target))
      · exact distinct key
  cleared rib peerIp distinct := by
    intro key
    have cleared : (rib.removeRoutesFromPeer peerIp).1.getAllPaths key = (rib.clearPeerPaths peerIp).getAllPaths key := rfl
    rw [cleared, getAllPaths_clearPeerPaths]
    exact (distinct key).sublist (filter_sublist.map _)
  marked rib peerIp afiSafi distinct := by
    intro key
    rw [getAllPaths_markPeerRoutesStale]
    split
    · rw [markStale, map_map]
      refine Eq.mp (congrArg List.Nodup (map_congr_left fun path _ => ?_)) (distinct key)
      simp only [Function.comp_apply]
      split <;> rfl
    · exact distinct key
  staleKey peerIp strategy rib delta target distinct := by
    intro key
    have values := (handleStaleKey_values peerIp strategy rib delta target key).map slotOf
    rw [map_map] at values
    refine values.nodup_iff.mpr ?_
    split
    · have kept : (slotOf ∘ fun path : Arc Path => staleTagged peerIp strategy path.value) = fun path => slotOf path.value :=
        funext fun path => congrArg Prod.fst (staleTagged_entry peerIp strategy path.value)
      rw [map_map, kept]
      exact (distinct key).sublist (filter_sublist.map _)
    · rw [map_map]
      exact distinct key

end

structure PathView where
  remotePathId : Option UInt32
  attrs : PathAttrs
  rpkiState : RpkiValidation
deriving DecidableEq, Repr

section

variable (path : Path) {Alloc : Type} (rib : LocRib Alloc) (peerIp : IpAddr) (key : RouteKey)

def viewOf : PathView := ⟨path.remotePathId, path.attrs, path.rpkiState⟩

def PathView.slot (view : PathView) : Slot := (view.attrs.source, view.remotePathId)

def peerPaths : List PathView := ((rib.getAllPaths key).filter fun path => path.value.isFromPeer peerIp).map fun path => viewOf path.value

def peerViews : Set PathView := {view | view ∈ rib.peerPaths peerIp key}

theorem mem_peerViews (view : PathView) : view ∈ rib.peerViews peerIp key ↔
      view.slot.1.peerIp = some peerIp ∧ ∃ path ∈ rib.getAllPaths key, viewOf path.value = view := by
  change view ∈ rib.peerPaths peerIp key ↔ _
  simp only [peerPaths, mem_map, mem_filter, Path.isFromPeer, beq_iff_eq]
  constructor
  · rintro ⟨path, ⟨member, mine⟩, rfl⟩
    exact ⟨mine, path, member, rfl⟩
  · rintro ⟨mine, path, member, rfl⟩
    exact ⟨path, ⟨member, mine⟩, rfl⟩

theorem peerPaths_perm_iff {first second : LocRib Alloc} (firstDistinct : first.SlotsDistinct)
    (secondDistinct : second.SlotsDistinct) (peerIp : IpAddr) (key : RouteKey) :
    (first.peerPaths peerIp key).Perm (second.peerPaths peerIp key) ↔ first.peerViews peerIp key = second.peerViews peerIp key := by
  have nodup : ∀ rib : LocRib Alloc, rib.SlotsDistinct → (rib.peerPaths peerIp key).Nodup := by
    intro rib distinct
    refine List.Nodup.of_map PathView.slot ?_
    rw [peerPaths, map_map]
    exact (distinct key).sublist (filter_sublist.map _)
  rw [perm_ext_iff_of_nodup (nodup first firstDistinct) (nodup second secondDistinct), Set.ext_iff]
  rfl

-- What the import leaves of one route of a peer: a path in the slot of the route, or nothing
-- under its identifier.
structure Result where
  slot : Slot
  stored : Option PathView
deriving DecidableEq

def Result.apply (views : Set PathView) (result : Result) : Set PathView := match result.stored with
  | some view => {other | other = view ∨ other ∈ views ∧ other.slot ≠ view.slot}
  | none => {other | other ∈ views ∧ namesSlot peerIp result.slot.2 other.slot = false}

def importResult (importPolicy : ImportPolicy) (key : RouteKey) (path : Path) : Result :=
  ⟨slotOf path, if (importPolicy key path).1 then some (viewOf (importPolicy key path).2) else none⟩

def withdrawResult : Result := ⟨slotOf path, none⟩

end

section

variable {rib : LocRib BitmapPathIdAllocator} {peerIp : IpAddr}

theorem removePeerPath_views (target key : RouteKey) (remotePathId : Option UInt32) :
    (rib.removePeerPath target peerIp remotePathId).peerViews peerIp key =
      if key = target then {view | view ∈ rib.peerViews peerIp key ∧ namesSlot peerIp remotePathId view.slot = false}
      else rib.peerViews peerIp key := by
  by_cases here : key = target
  · subst here
    ext view
    rw [if_pos rfl, mem_peerViews, getAllPaths_removePeerPath, if_pos rfl]
    change _ ↔ view ∈ rib.peerViews peerIp key ∧ _
    rw [mem_peerViews, and_assoc]
    refine and_congr_right fun _ => ?_
    simp only [retained, mem_filter, Bool.not_eq_true']
    constructor
    · rintro ⟨path, ⟨member, kept⟩, rfl⟩
      exact ⟨⟨path, member, rfl⟩, kept⟩
    · rintro ⟨⟨path, member, rfl⟩, kept⟩
      exact ⟨path, ⟨member, kept⟩, rfl⟩
  · rw [if_neg here]
    ext view
    rw [mem_peerViews, mem_peerViews, getAllPaths_removePeerPath, if_neg here]

theorem Upserted.views {path : Path} {ptr fresh : Nat} {pathIds after : BitmapPathIdAllocator} {paths result : List (Arc Path)}
    (upserted : Upserted ⟨ptr, path⟩ fresh pathIds paths result after) (distinct : (paths.map fun path => slotOf path.value).Nodup) :
    ∃ stored : Arc Path, viewOf stored.value = viewOf path ∧
      ∀ item, item ∈ result ↔ item ∈ paths ∧ slotOf item.value ≠ slotOf path ∨ item = stored := by
  obtain ⟨stored, members, slot, ⟨attrs, rpkiState, -⟩, -⟩ := upserted.members distinct
  have remote : stored.value.remotePathId = path.remotePathId := congrArg Prod.snd slot
  exact ⟨stored, by simp [viewOf, attrs, rpkiState, remote], members⟩

theorem upsertPath_views (distinct : rib.SlotsDistinct) {target : RouteKey} (key : RouteKey) {path : Path}
    (mine : path.attrs.source.peerIp = some peerIp) (available : rib.lsLimitReached target = false) :
    (rib.upsertPath target path).2.peerViews peerIp key =
      if key = target then Result.apply peerIp (rib.peerViews peerIp key) ⟨slotOf path, some (viewOf path)⟩
      else rib.peerViews peerIp key := by
  obtain ⟨-, paths, effect⟩ := upsertPath_accepted rib target path available
  obtain ⟨stored, same, members⟩ := effect.upserted.views (distinct target)
  by_cases here : key = target
  · subst here
    rw [if_pos rfl]
    ext view
    change _ ↔ view = viewOf path ∨ view ∈ rib.peerViews peerIp key ∧ view.slot ≠ slotOf path
    rw [mem_peerViews, mem_peerViews, effect.getAllPaths, if_pos rfl]
    simp only [sortPaths, mem_sortBy, members]
    constructor
    · rintro ⟨owner, item, ⟨old, apart⟩ | rfl, rfl⟩
      · exact .inr ⟨⟨owner, item, old, rfl⟩, apart⟩
      · exact .inl same
    · rintro (rfl | ⟨⟨owner, item, old, rfl⟩, apart⟩)
      · exact ⟨mine, stored, .inr rfl, same⟩
      · exact ⟨owner, item, .inl ⟨old, apart⟩, rfl⟩
  · rw [if_neg here]
    ext view
    rw [mem_peerViews, mem_peerViews, effect.getAllPaths, if_neg here]

variable {importPolicy : ImportPolicy}

def viewEffect (peerIp : IpAddr) (importPolicy : ImportPolicy) (views : Set PathView) : PendingRoute → Set PathView
  | .announce key path => (importResult importPolicy key path).apply peerIp views
  | .withdraw _ remotePathId => {view | view ∈ views ∧ namesSlot peerIp remotePathId view.slot = false}

def SourcedBy (peerIp : IpAddr) (routes : List PendingRoute) : Prop :=
  ∀ key path, .announce key path ∈ routes → path.attrs.source.peerIp = some peerIp

section

variable (keeps : KeepsSlots importPolicy)

include keeps

theorem applyPending_views {state : LocRib BitmapPathIdAllocator × List RouteKey}
    (distinct : state.1.SlotsDistinct) {pending : PendingRoute} (sourced : SourcedBy peerIp [pending]) (net : IpNetwork) :
    (applyPending peerIp importPolicy state pending).1.peerViews peerIp (.pfx net) =
      if pending.routeKey = .pfx net then viewEffect peerIp importPolicy (state.1.peerViews peerIp (.pfx net)) pending
      else state.1.peerViews peerIp (.pfx net) := by
  have step := applyPending_step peerIp importPolicy state pending
  generalize applyPending peerIp importPolicy state pending = next at step ⊢
  cases step with
  | withdrawn key remotePathId =>
    rw [removePeerPath_views]
    simp only [PendingRoute.routeKey, viewEffect, eq_comm]
  | denied key announced denial =>
    rw [removePeerPath_views]
    simp only [PendingRoute.routeKey, viewEffect, importResult, denial, Bool.false_eq_true, if_false, Result.apply, slotOf, eq_comm]
  | stored key announced accepted available =>
    have slots := keeps key announced
    have source : (importPolicy key announced).2.attrs.source = announced.attrs.source := congrArg Prod.fst slots
    have mine : (importPolicy key announced).2.attrs.source.peerIp = some peerIp := source ▸ sourced key announced mem_cons_self
    rw [upsertPath_views distinct _ mine available]
    simp [PendingRoute.routeKey, viewEffect, importResult, accepted, slots, eq_comm]
  | refused key announced accepted limit =>
    have other : key ≠ .pfx net := by
      rintro rfl
      cases limit
    simp [PendingRoute.routeKey, other]

theorem afterPending_views (distinct : rib.SlotsDistinct) (routes : List PendingRoute)
    (sourced : SourcedBy peerIp routes) (net : IpNetwork) : (rib.afterPending peerIp importPolicy routes).peerViews peerIp (.pfx net) =
      (routes.filter fun route => route.routeKey == .pfx net).foldl (viewEffect peerIp importPolicy)
        (rib.peerViews peerIp (.pfx net)) := by
  have looped : ∀ (routes : List PendingRoute) (state : LocRib BitmapPathIdAllocator × List RouteKey),
      SourcedBy peerIp routes → state.1.SlotsDistinct →
      (routes.foldl (applyPending peerIp importPolicy) state).1.peerViews peerIp (.pfx net) =
        (routes.filter fun route => route.routeKey == .pfx net).foldl (viewEffect peerIp importPolicy)
          (state.1.peerViews peerIp (.pfx net)) := by
    intro routes
    induction routes with
    | nil => exact fun _ _ _ => rfl
    | cons pending rest ih =>
      intro state sourced current
      have first : SourcedBy peerIp [pending] := by
        intro key path member
        rw [mem_singleton] at member
        exact sourced key path (member ▸ mem_cons_self)
      rw [foldl_cons, ih _ (fun key path member => sourced key path (mem_cons_of_mem _ member))
        (slotsDistinct_stable.applyPending peerIp importPolicy state pending current),
        applyPending_views keeps current first net]
      by_cases here : pending.routeKey = .pfx net <;> simp [here]
  exact looped routes (rib, []) sourced distinct

end

end

end Bgpgg.Rib.LocRib
