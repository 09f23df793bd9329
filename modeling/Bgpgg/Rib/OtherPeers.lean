import Bgpgg.Rib.DeltaCover
import Bgpgg.Rib.PeerReplay

namespace Bgpgg.Rib.LocRib

open Net

variable {Alloc : Type}

section

variable (rib : LocRib Alloc) (peerIp : IpAddr) (key : RouteKey)

def others : List Path := ((rib.getAllPaths key).filter fun path => !path.value.isFromPeer peerIp).map Arc.value

-- An operation in the name of a peer leaves the paths of all others alone; a new sort may
-- still move them.
def SparesOthers (before after : LocRib Alloc) : Prop := ∀ key, (after.others peerIp key).Perm (before.others peerIp key)

theorem mem_others (path : Path) :
    path ∈ rib.others peerIp key ↔ path.isFromPeer peerIp = false ∧ ∃ stored ∈ rib.getAllPaths key, stored.value = path := by
  simp only [others, List.mem_map, List.mem_filter, Bool.not_eq_true']
  refine ⟨fun ⟨stored, ⟨member, foreign⟩, same⟩ => ⟨same ▸ foreign, stored, member, same⟩,
    fun ⟨foreign, stored, member, same⟩ => ⟨stored, ⟨member, same ▸ foreign⟩, same⟩⟩

theorem SparesOthers.refl (rib : LocRib Alloc) : SparesOthers peerIp rib rib := fun _ => .refl _

end

theorem SparesOthers.trans {peerIp : IpAddr} {first second third : LocRib Alloc}
    (front : SparesOthers peerIp first second) (back : SparesOthers peerIp second third) :
    SparesOthers peerIp first third :=
  fun key => (back key).trans (front key)

variable {peerIp : IpAddr} {rib : LocRib BitmapPathIdAllocator}

variable (strategy : StaleStrategy) (afiSafis : List AfiSafi) (key : RouteKey)

theorem removePeerPath_spares (remotePathId : Option UInt32) : SparesOthers peerIp rib (rib.removePeerPath key peerIp remotePathId) := by
  intro other
  rw [others, others, getAllPaths_removePeerPath]
  by_cases here : other = key
  · subst here
    rw [if_pos rfl, retained, List.filter_filter]
    refine .of_eq (congrArg _ (List.filter_congr fun path _ => ?_))
    cases mine : path.value.isFromPeer peerIp <;> simp [isWithdrawnBy, mine]
  · rw [if_neg here]

theorem upsertPath_spares {path : Path} (mine : path.isFromPeer peerIp = true) : SparesOthers peerIp rib (rib.upsertPath key path).2 := by
  cases limit : rib.lsLimitReached key with
  | true =>
    rw [upsertPath_refused rib key path limit]
    exact .refl peerIp rib
  | false =>
    obtain ⟨-, paths, effect⟩ := upsertPath_accepted rib key path limit
    intro other
    rw [others, others, effect.getAllPaths]
    by_cases here : other = key
    · subst here
      have kept : paths.filter (fun item => !item.value.isFromPeer peerIp) =
          (rib.getAllPaths other).filter fun item => !item.value.isFromPeer peerIp :=
        filter_upserted effect.upserted (fun slot => slot.1.peerIp == some peerIp) mine
      rw [if_pos rfl, ← kept]
      exact ((sortBy_perm _ paths).filter _).map _
    · rw [if_neg here]

theorem applyPeerUpdate_spares {pendingRoutes : List PendingRoute} {importPolicy : ImportPolicy}
    (mine : ∀ key path, .announce key path ∈ pendingRoutes → path.isFromPeer peerIp = true)
    (sourced : ∀ key path, (importPolicy key path).2.attrs.source = path.attrs.source) :
    SparesOthers peerIp rib (rib.applyPeerUpdate peerIp pendingRoutes importPolicy).1 := by
  apply applyPeerUpdate_keeps rib peerIp (.refl peerIp rib)
  intro state pending listed spared
  apply applyPending_keeps peerIp spared fun remotePathId => spared.trans (removePeerPath_spares _ remotePathId)
  rintro key announced rfl -
  refine spared.trans (upsertPath_spares _ ?_)
  rw [Path.isFromPeer, sourced]
  exact mine key announced listed

theorem isFromPeer_staleTagged (peerIp : IpAddr) (strategy : StaleStrategy) (path : Path) :
    (staleTagged peerIp strategy path).isFromPeer peerIp = path.isFromPeer peerIp := by
  cases staleTagged_cases peerIp strategy path with
  | inl same => rw [same]
  | inr tagged =>
    rw [tagged]
    rfl

theorem others_staleTagged (peerIp : IpAddr) (strategy : StaleStrategy) (paths : List (Arc Path)) :
    ((paths.filter fun path => !staleDropped peerIp strategy path.value).map fun path =>
        staleTagged peerIp strategy path.value).filter (fun path => !path.isFromPeer peerIp) =
      (paths.map Arc.value).filter fun path => !path.isFromPeer peerIp := by
  induction paths with
  | nil => rfl
  | cons path rest ih =>
    cases mine : path.value.isFromPeer peerIp with
    | true =>
      cases dropped : staleDropped peerIp strategy path.value <;> simp [dropped, isFromPeer_staleTagged, mine, ih]
    | false =>
      have live : isStaleOf peerIp path.value = false := by simp [isStaleOf, mine]
      have kept : staleDropped peerIp strategy path.value = false := by simp [staleDropped, live]
      have same : staleTagged peerIp strategy path.value = path.value := by simp [staleTagged, live]
      simp [kept, same, mine, ih]

theorem handleStaleKey_spares (delta : RouteDelta) (key : RouteKey) :
    SparesOthers peerIp rib (handleStaleKey peerIp strategy (rib, delta) key).1 := by
  intro other
  have commute : ∀ items : List (Arc Path), (items.filter fun path => !path.value.isFromPeer peerIp).map Arc.value =
      (items.map Arc.value).filter fun path => !path.isFromPeer peerIp := by
    intro items
    rw [List.filter_map]
    rfl
  rw [others, others, commute, commute]
  refine ((handleStaleKey_values peerIp strategy rib delta key other).filter _).trans ?_
  split
  · rw [others_staleTagged]
  · exact .refl _

theorem handleStale_spares : SparesOthers peerIp rib (rib.handleStale peerIp afiSafis strategy).1 :=
  handleStale_invariant (SparesOthers peerIp rib)
    (fun _ delta key spared => spared.trans (handleStaleKey_spares strategy delta key)) rib afiSafis (.refl peerIp rib)

end Bgpgg.Rib.LocRib
