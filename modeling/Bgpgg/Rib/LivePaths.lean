import Bgpgg.Rib.PathInvariant

namespace Bgpgg.Rib.LocRib

open Net Wire

def Live {Alloc : Type} (rib : LocRib Alloc) (key : RouteKey) (slot : Slot) : Prop :=
  ∃ path ∈ rib.getAllPaths key, slotOf path.value = slot ∧ path.value.stale = false

-- The slots that a withdrawal of the peer names: without an identifier it names all of them.
def namesSlot (peerIp : IpAddr) (remotePathId : Option UInt32) (slot : Slot) : Bool := slot.1.peerIp == some peerIp &&
    match remotePathId with
    | none => true
    | some id => slot.2 == some id

theorem isWithdrawnBy_slotOf (peerIp : IpAddr) (remotePathId : Option UInt32) (path : Path) :
    isWithdrawnBy peerIp remotePathId path = namesSlot peerIp remotePathId (slotOf path) := rfl

section

variable {Alloc : Type} {rib final : LocRib Alloc} {key : RouteKey} {slot : Slot}

theorem Live.of_subset (live : final.Live key slot)
    (kept : ∀ path ∈ final.getAllPaths key, path ∈ rib.getAllPaths key) : rib.Live key slot := by
  obtain ⟨path, member, facts⟩ := live
  exact ⟨path, kept path member, facts⟩

theorem markPeerRoutesStale_live {peerIp : IpAddr} {afiSafi : AfiSafi} (live : (rib.markPeerRoutesStale peerIp afiSafi).Live key slot) :
    rib.Live key slot ∧ (familyHolds afiSafi key = true → slot.1.peerIp ≠ some peerIp) := by
  obtain ⟨path, member, rfl, current⟩ := live
  obtain ⟨old, listed, ⟨rfl, foreign⟩ | marked⟩ := mem_markPeerRoutesStale member
  · refine ⟨⟨path, listed, rfl, current⟩, fun held same => ?_⟩
    have own : path.value.isFromPeer peerIp = true := by simpa [Path.isFromPeer, slotOf] using same
    exact Bool.false_ne_true ((foreign held).symm.trans own)
  · rw [marked] at current
    cases current

variable [PathIdAllocator Alloc]

variable (target : RouteKey) (peerIp : IpAddr)

theorem removePeerPath_live {remotePathId : Option UInt32} (live : (rib.removePeerPath target peerIp remotePathId).Live key slot) :
    rib.Live key slot ∧ (key = target → namesSlot peerIp remotePathId slot = false) := by
  obtain ⟨path, member, rfl, current⟩ := live
  obtain ⟨listed, kept⟩ := mem_removePeerPath member
  exact ⟨⟨path, listed, rfl, current⟩, fun here => isWithdrawnBy_slotOf peerIp remotePathId path.value ▸ kept here⟩

theorem upsertPath_live {path : Path} (live : (rib.upsertPath target path).2.Live key slot) :
    rib.Live key slot ∨ key = target ∧ slot = slotOf path := by
  obtain ⟨item, member, same, current⟩ := live
  cases mem_upsertPath member with
  | inl old => exact .inl ⟨item, old, same, current⟩
  | inr new => exact .inr ⟨new.1, same.symm.trans new.2.1⟩

def Announces (key : RouteKey) (slot : Slot) (pending : PendingRoute) : Prop := ∃ path, pending = .announce key path ∧ slotOf path = slot

def Withdraws (peerIp : IpAddr) (key : RouteKey) (slot : Slot) (pending : PendingRoute) : Prop :=
  ∃ remotePathId, pending = .withdraw key remotePathId ∧ namesSlot peerIp remotePathId slot = true

def KeepsSlots (importPolicy : ImportPolicy) : Prop := ∀ key path, slotOf (importPolicy key path).2 = slotOf path

theorem applyPending_live {importPolicy : ImportPolicy} (keeps : KeepsSlots importPolicy)
    {state : LocRib Alloc × List RouteKey} {pending : PendingRoute}
    (live : (applyPending peerIp importPolicy state pending).1.Live key slot) :
    Announces key slot pending ∨ state.1.Live key slot ∧ ¬ Withdraws peerIp key slot pending := by
  have step := applyPending_step peerIp importPolicy state pending
  generalize applyPending peerIp importPolicy state pending = next at step live
  have notWithdrawn : ∀ target path, ¬ Withdraws peerIp key slot (.announce target path) := by
    rintro target path ⟨remotePathId, same, -⟩
    cases same
  cases step with
  | withdrawn target remotePathId =>
    obtain ⟨before, kept⟩ := removePeerPath_live target peerIp live
    refine .inr ⟨before, fun cleared => ?_⟩
    obtain ⟨named, same, names⟩ := cleared
    cases same
    exact Bool.false_ne_true ((kept rfl).symm.trans names)
  | denied target announced denial =>
    exact .inr ⟨(removePeerPath_live target peerIp live).1, notWithdrawn _ _⟩
  | stored target announced accepted available =>
    cases upsertPath_live _ live with
    | inl before => exact .inr ⟨before, notWithdrawn _ _⟩
    | inr new =>
      obtain ⟨rfl, rfl⟩ := new
      exact .inl ⟨announced, rfl, (keeps key announced).symm⟩
  | refused target announced accepted limit => exact .inr ⟨live, notWithdrawn _ _⟩

theorem applyPeerUpdate_live {pendingRoutes : List PendingRoute} {importPolicy : ImportPolicy} (keeps : KeepsSlots importPolicy)
    (live : (rib.applyPeerUpdate peerIp pendingRoutes importPolicy).1.Live key slot) :
    (∃ pending ∈ pendingRoutes, Announces key slot pending) ∨
      rib.Live key slot ∧ ∀ pending ∈ pendingRoutes, ¬ Withdraws peerIp key slot pending := by
  have looped : ∀ (routes : List PendingRoute) (state : LocRib Alloc × List RouteKey),
      (routes.foldl (applyPending peerIp importPolicy) state).1.Live key slot →
      (∃ pending ∈ routes, Announces key slot pending) ∨
        state.1.Live key slot ∧ ∀ pending ∈ routes, ¬ Withdraws peerIp key slot pending := by
    intro routes
    induction routes with
    | nil => exact fun state before => .inr ⟨before, by simp⟩
    | cons pending rest ih =>
      intro state after
      cases ih _ after with
      | inl later =>
        obtain ⟨announcing, member, announces⟩ := later
        exact .inl ⟨announcing, List.mem_cons_of_mem _ member, announces⟩
      | inr kept =>
        cases applyPending_live peerIp keeps kept.1 with
        | inl announces => exact .inl ⟨pending, List.mem_cons_self, announces⟩
        | inr before => exact .inr ⟨before.1, List.forall_mem_cons.mpr ⟨before.2, kept.2⟩⟩
  exact looped pendingRoutes (rib, []) live

theorem removeRoutesFromPeer_live (live : (rib.removeRoutesFromPeer peerIp).1.Live key slot) :
    rib.Live key slot ∧ slot.1.peerIp ≠ some peerIp := by
  obtain ⟨path, member, rfl, current⟩ := live
  obtain ⟨listed, foreign⟩ := mem_removeRoutesFromPeer member
  refine ⟨⟨path, listed, rfl, current⟩, fun mine => ?_⟩
  simp [Path.isFromPeer, show path.value.attrs.source.peerIp = some peerIp from mine] at foreign

theorem staleTagged_stale (strategy : StaleStrategy) (path : Path) : (staleTagged peerIp strategy path).stale = path.stale := by
  cases staleTagged_cases peerIp strategy path with
  | inl same | inr same => rw [same]

theorem handleStale_live (afiSafis : List AfiSafi) (strategy : StaleStrategy)
    (live : (rib.handleStale peerIp afiSafis strategy).1.Live key slot) : rib.Live key slot := by
  refine handleStale_invariant (fun current => current.Live key slot → rib.Live key slot) ?_ rib afiSafis id live
  rintro current delta target before ⟨path, member, rfl, notStale⟩
  obtain ⟨old, listed, ⟨-, same⟩ | ⟨-, same⟩⟩ := mem_handleStaleKey member
  · exact before ⟨old, listed, same ▸ rfl, same ▸ notStale⟩
  · have slotKept := congrArg Prod.fst (staleTagged_entry peerIp strategy old.value)
    rw [← same, staleTagged_stale] at notStale
    exact before ⟨old, listed, slotKept.symm.trans (congrArg slotOf same), notStale⟩

def Op.Announces (key : RouteKey) (slot : Slot) : Op → Prop
  | .applyPeerUpdate _ pendingRoutes _ => ∃ pending ∈ pendingRoutes, LocRib.Announces key slot pending
  | _ => False

def Op.KeepsSlots : Op → Prop
  | .applyPeerUpdate _ _ importPolicy => LocRib.KeepsSlots importPolicy
  | _ => True

theorem step_live (op : Op) (keeps : op.KeepsSlots) (peerSlot : slot.1 ≠ .localSource)
    (live : (rib.step op).Live key slot) : rib.Live key slot ∨ op.Announces key slot := by
  cases op with
  | applyPeerUpdate peerIp pendingRoutes importPolicy =>
    cases applyPeerUpdate_live peerIp keeps live with
    | inl announced => exact .inr announced
    | inr before => exact .inl before.1
  | addLocalRoute target pathAttrs =>
    rw [step, addLocalRoute_rib] at live
    refine .inl ((upsertPath_live target live).resolve_right fun new => peerSlot ?_)
    rw [new.2]
    rfl
  | removeLocalRoute target => exact .inl (live.of_subset fun _ member => (mem_removeLocalRoute member).1)
  | removeRoutesFromPeer peerIp => exact .inl (removeRoutesFromPeer_live peerIp live).1
  | markPeerRoutesStale peerIp afiSafi => exact .inl (markPeerRoutesStale_live live).1
  | applyLlgr peerIp afiSafis | removePeerRoutesStale peerIp afiSafis => exact .inl (handleStale_live peerIp afiSafis _ live)

theorem foldl_step_live (ops : List Op) (keeps : ∀ op ∈ ops, op.KeepsSlots) (peerSlot : slot.1 ≠ .localSource)
    (live : (ops.foldl step rib).Live key slot) : rib.Live key slot ∨ ∃ op ∈ ops, op.Announces key slot := by
  induction ops generalizing rib with
  | nil => exact .inl live
  | cons first rest ih =>
    cases ih (fun op member => keeps op (List.mem_cons_of_mem _ member)) live with
    | inr later =>
      obtain ⟨op, member, announces⟩ := later
      exact .inr ⟨op, List.mem_cons_of_mem _ member, announces⟩
    | inl between =>
      refine (step_live first (keeps first List.mem_cons_self) peerSlot between).imp_right fun announces => ?_
      exact ⟨first, List.mem_cons_self, announces⟩

end

end Bgpgg.Rib.LocRib
