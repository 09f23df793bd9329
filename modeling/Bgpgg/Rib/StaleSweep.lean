import Bgpgg.Rib.LivePaths

namespace Bgpgg.Rib.LocRib

open Net List

-- Every route is stored under its own key. The sweep looks routes up by the key they carry.
def Keyed {Alloc : Type} (rib : LocRib Alloc) : Prop := ∀ key route, rib.getRoute key = some route → route.key = key

section

variable {Alloc : Type} {rib final : LocRib Alloc}

theorem Keyed.of_routes (keyed : rib.Keyed) (kept : ∀ key route, final.getRoute key = some route →
    route.key = key ∨ ∃ old, rib.getRoute key = some old ∧ route.key = old.key) : final.Keyed := by
  intro key route found
  cases kept key route found with
  | inl same => exact same
  | inr stored =>
    obtain ⟨old, oldFound, same⟩ := stored
    exact same.trans (keyed key old oldFound)

theorem new_keyed (config : LocRibConfig) : (LocRib.new config).Keyed := by
  intro key route found
  rw [getRoute_new] at found
  cases found

theorem removePaths_keyed (keyed : rib.Keyed) (target : RouteKey) (shouldRemove : Path → Bool) :
    (rib.removePaths target shouldRemove).2.Keyed := by
  refine keyed.of_routes fun key route found => .inr ?_
  rw [getRoute_removePaths] at found
  by_cases here : key = target
  · rw [if_pos here] at found
    obtain ⟨mapped, -⟩ := Option.filter_eq_some_iff.mp found
    obtain ⟨old, stored, rfl⟩ := Option.map_eq_some_iff.mp mapped
    exact ⟨old, here ▸ stored, rfl⟩
  · rw [if_neg here] at found
    exact ⟨route, found, rfl⟩

theorem markPeerRoutesStale_keyed (keyed : rib.Keyed) (peerIp : IpAddr) (afiSafi : AfiSafi) :
    (rib.markPeerRoutesStale peerIp afiSafi).Keyed := by
  refine keyed.of_routes fun key route found => .inr ?_
  rw [getRoute_markPeerRoutesStale] at found
  split at found
  · obtain ⟨old, stored, rfl⟩ := Option.map_eq_some_iff.mp found
    exact ⟨old, stored, rfl⟩
  · exact ⟨route, found, rfl⟩

variable [PathIdAllocator Alloc]

theorem upsertPath_keyed (keyed : rib.Keyed) (target : RouteKey) (path : Path) : (rib.upsertPath target path).2.Keyed := by
  cases limit : rib.lsLimitReached target with
  | true =>
    rw [upsertPath_refused rib target path limit]
    exact keyed
  | false =>
    obtain ⟨-, paths, effect⟩ := upsertPath_accepted rib target path limit
    refine keyed.of_routes fun key route found => ?_
    rw [effect.routes] at found
    by_cases here : key = target
    · rw [if_pos here] at found
      cases found
      cases stored : rib.getRoute target with
      | none => exact .inl here.symm
      | some old => exact .inr ⟨old, here ▸ stored, rfl⟩
    · rw [if_neg here] at found
      exact .inr ⟨route, found, rfl⟩

theorem handleStaleKey_keyed (keyed : rib.Keyed) (peerIp : IpAddr) (strategy : StaleStrategy) (delta : RouteDelta)
    (target : RouteKey) : (handleStaleKey peerIp strategy (rib, delta) target).1.Keyed := by
  cases handleStaleKey_cases peerIp strategy rib delta target with
  | inl idle =>
    rw [idle.2]
    exact keyed
  | inr active =>
    obtain ⟨stored, found, effect, -⟩ := active
    refine keyed.of_routes fun key route later => .inr ?_
    rw [effect.routes] at later
    by_cases here : key = target
    · rw [if_pos here] at later
      obtain ⟨same, -⟩ := Option.filter_eq_some_iff.mp later
      cases same
      exact ⟨stored, here ▸ found, rfl⟩
    · rw [if_neg here] at later
      exact ⟨route, later, rfl⟩

theorem keyed_stable : Stable (fun rib : LocRib Alloc => rib.Keyed) where
  removed _ target shouldRemove keyed := removePaths_keyed keyed target shouldRemove
  freed rib freed keyed := by
    intro key route found
    exact keyed key route found
  upserted _ target path keyed := upsertPath_keyed keyed target path
  cleared rib peerIp keyed := by
    refine keyed.of_routes fun key route found => .inr ?_
    have kept : (rib.clearPeerPaths peerIp).getRoute key = some route := found
    rw [getRoute_clearPeerPaths] at kept
    obtain ⟨mapped, -⟩ := Option.filter_eq_some_iff.mp kept
    obtain ⟨old, stored, rfl⟩ := Option.map_eq_some_iff.mp mapped
    exact ⟨old, stored, rfl⟩
  marked _ peerIp afiSafi keyed := markPeerRoutesStale_keyed keyed peerIp afiSafi
  staleKey peerIp strategy _ delta target keyed := handleStaleKey_keyed keyed peerIp strategy delta target

end

def Fresh {Alloc : Type} (rib : LocRib Alloc) (peerIp : IpAddr) (key : RouteKey) : Prop :=
  ∀ path ∈ rib.getAllPaths key, isStaleOf peerIp path.value = false

section

variable {Alloc : Type} [PathIdAllocator Alloc] {rib : LocRib Alloc} {peerIp : IpAddr}

variable (delta : RouteDelta)

theorem handleStaleKey_sweep_own (key : RouteKey) : (handleStaleKey peerIp .sweep (rib, delta) key).1.Fresh peerIp key := by
  intro path member
  obtain ⟨old, -, ⟨apart, -⟩ | ⟨kept, same⟩⟩ := mem_handleStaleKey member
  · exact absurd rfl apart
  · have notStale : isStaleOf peerIp old.value = false := by simpa [staleDropped, StaleStrategy.drops] using kept
    rw [← same, staleTagged, notStale]
    exact notStale

theorem handleStaleKey_sweep_fresh (target : RouteKey) {key : RouteKey} (fresh : rib.Fresh peerIp key) :
    (handleStaleKey peerIp .sweep (rib, delta) target).1.Fresh peerIp key := by
  by_cases here : key = target
  · subst here
    exact handleStaleKey_sweep_own delta key
  · intro path member
    have value := (handleStaleKey_values peerIp .sweep rib delta target key).mem_iff.mp (mem_map_of_mem member)
    rw [if_neg here, mem_map] at value
    obtain ⟨old, listed, same⟩ := value
    exact same ▸ fresh old listed

theorem handleStaleFamily_sweep {afiSafi : AfiSafi} {key : RouteKey} (keyed : rib.Keyed)
    (held : familyHolds afiSafi key = true) : (handleStaleFamily peerIp .sweep (rib, delta) afiSafi).1.Fresh peerIp key := by
  have swept : ∀ (keys : List RouteKey) (state : LocRib Alloc × RouteDelta), state.1.Fresh peerIp key ∨ key ∈ keys →
      (keys.foldl (handleStaleKey peerIp .sweep) state).1.Fresh peerIp key := by
    intro keys
    induction keys with
    | nil => exact fun state done => done.resolve_right not_mem_nil
    | cons first rest ih =>
      intro state before
      refine ih _ ?_
      cases before with
      | inl fresh => exact .inl (handleStaleKey_sweep_fresh state.2 first fresh)
      | inr listed =>
        cases mem_cons.mp listed with
        | inl here =>
          subst here
          exact .inl (handleStaleKey_sweep_own state.2 key)
        | inr later => exact .inr later
  refine swept _ (rib, delta) ?_
  by_cases fresh : rib.Fresh peerIp key
  · exact .inl fresh
  · refine .inr ?_
    simp only [Fresh, not_forall, Bool.not_eq_false] at fresh
    obtain ⟨path, member, stale⟩ := fresh
    cases found : rib.getRoute key with
    | none => simp [getAllPaths, found] at member
    | some route =>
      have listed : path ∈ route.paths := by simpa [getAllPaths, found] using member
      refine mem_map.mpr ⟨route, mem_filter.mpr ⟨?_, ?_⟩, keyed key route found⟩
      · exact (mem_getRoutes rib afiSafi route).mpr ⟨key, held, found⟩
      · exact any_eq_true.mpr ⟨path, listed, stale⟩

theorem removePeerRoutesStale_fresh (peerIp : IpAddr) (afiSafi : AfiSafi) (key : RouteKey) (keyed : rib.Keyed)
    (held : familyHolds afiSafi key = true) : (rib.removePeerRoutesStale peerIp [afiSafi]).1.Fresh peerIp key :=
  handleStaleFamily_sweep .new keyed held

end

section

variable {Alloc : Type} [PathIdAllocator Alloc] {rib : LocRib Alloc} {key : RouteKey} {slot : Slot}

def Op.Marks (key : RouteKey) (slot : Slot) : Op → Prop
  | .markPeerRoutesStale peerIp afiSafi => slot.1.peerIp = some peerIp ∧ familyHolds afiSafi key = true
  | _ => False

theorem step_unmarked (rib : LocRib Alloc) (op : Op) (live : (rib.step op).Live key slot) : ¬ op.Marks key slot := by
  cases op with
  | markPeerRoutesStale peerIp afiSafi =>
    intro marks
    exact (markPeerRoutesStale_live live).2 marks.2 marks.1
  | _ => exact id

theorem foldl_step_unmarked (ops : List Op) (keeps : ∀ op ∈ ops, op.KeepsSlots) (peerSlot : slot.1 ≠ .localSource)
    (silent : ∀ op ∈ ops, ¬ op.Announces key slot) (live : (ops.foldl step rib).Live key slot) :
    ∀ op ∈ ops, ¬ op.Marks key slot := by
  induction ops generalizing rib with
  | nil => simp
  | cons first rest ih =>
    have keepsRest := fun op member => keeps op (mem_cons_of_mem first member)
    have silentRest := fun op member => silent op (mem_cons_of_mem first member)
    refine forall_mem_cons.mpr ⟨?_, ih keepsRest silentRest live⟩
    refine step_unmarked rib first ?_
    refine (foldl_step_live rest keepsRest peerSlot live).resolve_right ?_
    rintro ⟨op, member, announces⟩
    exact silentRest op member announces

end

section

variable {Alloc : Type} [PathIdAllocator Alloc] {rib : LocRib Alloc} {peerIp : IpAddr} {marked : AfiSafi} {key : RouteKey}

def NoPathsUnder (rib : LocRib Alloc) (peerIp : IpAddr) (afiSafi : AfiSafi) : Prop :=
  ∀ key : RouteKey, key.afiSafi = afiSafi → ∀ path ∈ rib.getAllPaths key, path.value.isFromPeer peerIp = false

def SameUnder (rib final : LocRib Alloc) (afiSafi : AfiSafi) : Prop :=
  ∀ key : RouteKey, key.afiSafi = afiSafi → (final.getAllPaths key).map Arc.value = (rib.getAllPaths key).map Arc.value

theorem handleStale_other (strategy : StaleStrategy) (keyed : rib.Keyed)
    (untouched : familyHolds marked key = true → ∀ path ∈ rib.getAllPaths key, path.value.isFromPeer peerIp = false) :
    (rib.handleStale peerIp [marked] strategy).1.getAllPaths key = rib.getAllPaths key := by
  refine foldlRecOn (motive := fun state : LocRib Alloc × RouteDelta => state.1.getAllPaths key = rib.getAllPaths key) _
    (handleStaleKey peerIp strategy) (b := (rib, .new)) rfl fun (now, delta) same target listed => ?_
  by_cases here : key = target
  · have own : familyHolds marked key = true := by
      obtain ⟨route, filtered, rfl⟩ := mem_map.mp listed
      obtain ⟨target, held, found⟩ := (mem_getRoutes rib marked route).mp (mem_of_mem_filter filtered)
      rw [here, keyed target route found]
      exact held
    subst here
    rw [handleStaleKey_idle _ _ fun path member => ?_]
    · exact same
    · rw [isStaleOf, untouched own path (same ▸ member), Bool.false_and]
  · cases handleStaleKey_cases peerIp strategy now delta target with
    | inl idle =>
      rw [idle.2]
      exact same
    | inr active =>
      obtain ⟨route, -, effect, -⟩ := active
      rw [effect.getAllPaths, if_neg here]
      exact same

-- Marking and sweeping one link-state family reach the paths of the other, which stand in the
-- same table.
theorem families_separate_iff (rib : LocRib Alloc) (peerIp : IpAddr) (marked other : AfiSafi) (keyed : rib.Keyed)
    (distinct : marked ≠ other) :
    SameUnder rib (rib.markPeerRoutesStale peerIp marked) other ∧ SameUnder rib (rib.applyLlgr peerIp [marked]).1 other ∧
        SameUnder rib (rib.removePeerRoutesStale peerIp [marked]).1 other ↔
      (SharesTable marked other → NoPathsUnder rib peerIp other) := by
  constructor
  · rintro ⟨marks, _, sweeps⟩ shares key family path member
    have held : familyHolds marked key = true := familyHolds_iff.mpr (.inr (family ▸ shares))
    have stays : ∀ final : LocRib Alloc, (final.getAllPaths key).map Arc.value = (rib.getAllPaths key).map Arc.value →
        ∃ item ∈ final.getAllPaths key, item.value = path.value := fun final same =>
      mem_map.mp (same ▸ mem_map_of_mem member)
    refine Bool.eq_false_iff.mpr fun own => ?_
    cases stale : path.value.stale with
    | true =>
      obtain ⟨item, kept, same⟩ := stays _ (sweeps key family)
      have fresh := removePeerRoutesStale_fresh peerIp marked key keyed held item kept
      rw [same, isStaleOf, own, stale] at fresh
      cases fresh
    | false =>
      obtain ⟨item, kept, same⟩ := stays _ (marks key family)
      obtain ⟨old, -, ⟨rfl, foreign⟩ | made⟩ := mem_markPeerRoutesStale kept
      · rw [same, own] at foreign
        cases foreign held
      · rw [← same, made] at stale
        cases stale
  · intro clear
    have untouched : ∀ key : RouteKey, key.afiSafi = other → familyHolds marked key = true →
        ∀ path ∈ rib.getAllPaths key, path.value.isFromPeer peerIp = false := by
      intro key family held
      rcases familyHolds_iff.mp held with same | shares
      · exact absurd (same.trans family) distinct
      · exact clear (family ▸ shares) key family
    refine ⟨fun key family => ?_, fun key family => ?_, fun key family => ?_⟩
    · rw [getAllPaths_markPeerRoutesStale]
      split
      · rename_i held
        rw [markStale, map_map]
        refine map_congr_left fun path member => ?_
        simp [untouched key family held path member]
      · rfl
    · exact congrArg _ (handleStale_other .transitionToLlgr keyed (untouched key family))
    · exact congrArg _ (handleStale_other .sweep keyed (untouched key family))

end

def vpnNode : RouteKey := .linkState ⟨1, [], none, some [0, 0, 0, 0, 0, 0, 0, 1]⟩

def vpnPath (stale : Bool) : Path :=
  ⟨none, none, { localExample with source := .ibgp (.v4 0x0A000002) 0x0A000002 false }, stale, .notFound⟩

def vpnRib : LocRib BitmapPathIdAllocator := ((LocRib.new ⟨0⟩).upsertPath vpnNode (vpnPath false)).2

theorem unicast_mark_spares_vpn : SameUnder vpnRib (vpnRib.markPeerRoutesStale (.v4 0x0A000002) ⟨.ipv4, .unicast⟩) LINK_STATE_VPN := by
  refine ((families_separate_iff vpnRib (.v4 0x0A000002) ⟨.ipv4, .unicast⟩ LINK_STATE_VPN ?_ (by decide)).mpr ?_).1
  · exact upsertPath_keyed (new_keyed ⟨0⟩) _ _
  · rintro (⟨same, -⟩ | ⟨same, -⟩) <;> cases same

theorem link_state_mark_reaches_vpn : vpnNode.afiSafi = LINK_STATE_VPN ∧
      ((vpnRib.markPeerRoutesStale (.v4 0x0A000002) LINK_STATE).getAllPaths vpnNode).map (fun path => path.value.stale) = [true] ∧
      (vpnRib.getAllPaths vpnNode).map (fun path => path.value.stale) = [false] := by
  decide

end Bgpgg.Rib.LocRib
