import Bgpgg.Server.Convergence

namespace Bgpgg.Server

open Net Wire Rib LocRib

def stdIpAddr (std : StdParse) (text : String) : Option IpAddr := match std.ipv4Addr text, std.ipv6Addr text with
  | some ipv4, _ => some (.v4 ipv4)
  | none, some ipv6 => some (.v6 ipv6)
  | none, none => none

-- What a request says about a link-state NLRI. Its type, protocol and descriptors are read
-- by the same proto_to_ls_nlri in both requests.
structure ProtoLsNlri where
  nlriType : UInt16
  protocolId : UInt8
  identifier : UInt64
  descriptors : LsDescriptors
deriving DecidableEq, Repr

inductive RouteName where
  | pfx (text : String)
  | lsNlri (nlri : ProtoLsNlri)
deriving DecidableEq, Repr

section

-- encode_ls_nlri_body stays arbitrary: no result depends on the bytes it writes.
variable (std : StdParse) (encodeLsNlriBody : UInt8 → UInt64 → LsDescriptors → List UInt8)

def setIdentifier (nlri : LsNlri) (identifier : UInt64) : LsNlri := match nlri.body with
  | none => nlri
  | some body => { nlri with
      body := some { body with identifier := identifier }
      raw := encodeLsNlriBody body.protocolId identifier body.descriptors }

def buildLsNlri (nlri : ProtoLsNlri) (routeDistinguisher : Option (List UInt8)) : LsNlri where
  nlriType := nlri.nlriType
  raw := encodeLsNlriBody nlri.protocolId nlri.identifier nlri.descriptors
  body := some ⟨nlri.protocolId, nlri.identifier, nlri.descriptors⟩
  routeDistinguisher := routeDistinguisher

-- add_route and then handle_add_route, with config.bgp_ls.instance_id.
def addRouteKey (instanceId : UInt64) : RouteName → Option RouteKey
  | .pfx text => (IpNetwork.fromStr std text).toOption.map .pfx
  | .lsNlri nlri => some (.linkState (setIdentifier encodeLsNlriBody (buildLsNlri encodeLsNlriBody nlri none) instanceId))

def removeRouteKey : RouteName → Option RouteKey
  | .pfx text =>
    match text.splitOn "/" with
    | [address, length] =>
      match stdIpAddr std address, std.u8 length with
      | some (.v4 ipv4), some prefixLength => some (.pfx (.v4 ⟨ipv4, prefixLength⟩))
      | some (.v6 ipv6), some prefixLength => some (.pfx (.v6 ⟨ipv6, prefixLength⟩))
      | _, _ => none
    | _ => none
  | .lsNlri nlri => some (.linkState (buildLsNlri encodeLsNlriBody nlri none))

def RouteName.keepsIdentifier (instanceId : UInt64) : RouteName → Bool
  | .pfx _ => true
  | .lsNlri nlri => nlri.identifier == instanceId

theorem removeRouteKey_pfx {text : String} {net : IpNetwork} (parsed : IpNetwork.fromStr std text = .ok net) :
    removeRouteKey std encodeLsNlriBody (.pfx text) = some (.pfx net) := by
  unfold IpNetwork.fromStr at parsed
  simp only [removeRouteKey, stdIpAddr]
  generalize text.splitOn "/" = pieces at parsed ⊢
  rcases pieces with _ | ⟨address, _ | ⟨length, _ | ⟨extra, more⟩⟩⟩
  · cases parsed
  · cases parsed
  · cases lengthRead : std.u8 length with
    | none => simp [lengthRead] at parsed
    | some prefixLength =>
      cases ipv4 : std.ipv4Addr address <;> cases ipv6 : std.ipv6Addr address <;>
        simp only [lengthRead, ipv4, ipv6, reduceCtorEq] at parsed ⊢ <;> split at parsed <;> cases parsed <;> rfl
  · cases parsed

theorem removeRouteKey_eq_iff {instanceId : UInt64} {request : RouteName} {key : RouteKey}
    (installed : addRouteKey std encodeLsNlriBody instanceId request = some key) :
    ∃ removed, removeRouteKey std encodeLsNlriBody request = some removed ∧
      (removed = key ↔ request.keepsIdentifier instanceId = true) := by
  cases request with
  | pfx text =>
    obtain ⟨net, parsed, rfl⟩ := Option.map_eq_some_iff.mp installed
    cases outcome : IpNetwork.fromStr std text with
    | error message => simp [outcome, Except.toOption] at parsed
    | ok network =>
      cases (show some network = some net by simpa [outcome, Except.toOption] using parsed)
      exact ⟨.pfx net, removeRouteKey_pfx std encodeLsNlriBody outcome, by simp [RouteName.keepsIdentifier]⟩
  | lsNlri nlri =>
    cases installed
    refine ⟨_, rfl, ?_⟩
    simp only [setIdentifier, buildLsNlri, RouteName.keepsIdentifier, beq_iff_eq, RouteKey.linkState.injEq, LsNlri.mk.injEq,
      Option.some.injEq, LsNlriBody.mk.injEq]
    exact ⟨fun same => same.2.2.1.2.1, fun same => by simp [same]⟩

end

def originates (rib : LocRib BitmapPathIdAllocator) (key : RouteKey) : Prop :=
  ∃ path ∈ rib.getAllPaths key, LocRib.isLocal path.value = true

-- The answer to a request that names removed takes back what stands under key and nothing else.
structure TakesBack (rib : LocRib BitmapPathIdAllocator) (key removed : RouteKey) : Prop where
  gone : ¬ originates (rib.removeLocalRoute removed).1 key
  others : ∀ other, other ≠ key → (rib.removeLocalRoute removed).1.getAllPaths other = rib.getAllPaths other
  foreign : ((rib.removeLocalRoute removed).1.getAllPaths key).filter (fun path => !LocRib.isLocal path.value) =
    (rib.getAllPaths key).filter fun path => !LocRib.isLocal path.value
  named : (rib.removeLocalRoute removed).1.getAllPaths key ≠ rib.getAllPaths key → key ∈ (rib.removeLocalRoute removed).2.changed

section

variable {rib : LocRib BitmapPathIdAllocator} {key removed : RouteKey}

theorem getAllPaths_removeLocalRoute (other : RouteKey) : (rib.removeLocalRoute removed).1.getAllPaths other =
    if other = removed then retained isLocal (rib.getAllPaths removed) else rib.getAllPaths other := by
  rw [removeLocalRoute_rib, getAllPaths, getRoute_freeIds, ← getAllPaths, getAllPaths_removePaths]

theorem retained_eq_self_iff : retained isLocal (rib.getAllPaths key) = rib.getAllPaths key ↔ ¬ originates rib key := by
  simp [retained, originates]

theorem takesBack_self (identified : rib.Identified) : TakesBack rib key key where
  gone := by
    rintro ⟨path, member, isLocal⟩
    rw [(mem_removeLocalRoute member).2 rfl] at isLocal
    cases isLocal
  others other different := by rw [getAllPaths_removeLocalRoute, if_neg different]
  foreign := by simp [getAllPaths_removeLocalRoute, retained]
  named changed := by
    by_cases nothing : (rib.removePaths key isLocal).1 = []
    · refine absurd ?_ changed
      rw [getAllPaths_removeLocalRoute, if_pos rfl]
      exact retained_of_nothing_freed rib (identified key) nothing
    · simp [removeLocalRoute, nothing]

theorem takesBack_other_iff (different : removed ≠ key) :
    TakesBack rib key removed ↔ ¬ originates rib key ∧ ¬ originates rib removed := by
  have kept : (rib.removeLocalRoute removed).1.getAllPaths key = rib.getAllPaths key := by
    rw [getAllPaths_removeLocalRoute, if_neg different.symm]
  constructor
  · intro back
    have same := back.others removed different
    rw [getAllPaths_removeLocalRoute, if_pos rfl, retained_eq_self_iff] at same
    refine ⟨fun stands => back.gone ?_, same⟩
    rwa [originates, kept]
  · rintro ⟨absent, absentRemoved⟩
    refine ⟨by rwa [originates, kept], fun other _ => ?_, by rw [kept], fun changed => absurd kept changed⟩
    rw [getAllPaths_removeLocalRoute]
    split
    next here => rw [here, retained_eq_self_iff.mpr absentRemoved]
    next => rfl

end

theorem foldl_handleServerOp_identified (ops : List ServerOp) {server : BgpServer} (identified : server.locRib.Identified) :
    (ops.foldl BgpServer.handleServerOp server).locRib.Identified := by
  induction ops generalizing server with
  | nil => exact identified
  | cons op rest ih =>
    refine ih ?_
    rw [(server.handleServerOp_ribOps op).1]
    exact identified_stable.steps identified _

-- The run goes on between the two requests, and the route may be replaced or taken back in
-- the meantime. The request misses the route exactly when the instance identifier of the
-- configuration is not the one it names, unless nothing local is left under either key.
theorem remove_route_undoes_add_route_iff (std : StdParse)
    (encodeLsNlriBody : UInt8 → UInt64 → LsDescriptors → List UInt8) (instanceId : UInt64) {start later : BgpServer}
    (started : start.Started) (before between : List ServerOp) (request : RouteName) (attrs : PathAttrs) {key : RouteKey}
    (installed : addRouteKey std encodeLsNlriBody instanceId request = some key)
    (reached : later = (before ++ .addRoute key attrs :: between).foldl BgpServer.handleServerOp start) :
    ∃ removed, removeRouteKey std encodeLsNlriBody request = some removed ∧
      (TakesBack later.locRib key removed ↔ request.keepsIdentifier instanceId = true ∨
        ¬ originates later.locRib key ∧ ¬ originates later.locRib removed) := by
  obtain ⟨removed, named, same⟩ := removeRouteKey_eq_iff std encodeLsNlriBody installed
  refine ⟨removed, named, ?_⟩
  have initial : start.locRib.Identified := by
    obtain ⟨⟨config, empty⟩, -⟩ := started
    intro key path member
    rw [empty, getAllPaths, getRoute_new] at member
    cases member
  have identified : later.locRib.Identified := reached ▸ foldl_handleServerOp_identified _ initial
  rw [← same]
  by_cases here : removed = key
  · subst here
    exact iff_of_true (takesBack_self identified) (.inl rfl)
  · rw [takesBack_other_iff here]
    exact ⟨.inr, fun holds => holds.resolve_left here⟩

def stdExample : StdParse where
  u8 text := if text = "8" then some 8 else none
  ipv4Addr text := if text = "10.0.0.0" then some 0x0A000000 else none
  ipv6Addr _ := none

-- encode_ls_nlri_body on a node without sub-TLVs: after the header an empty container, TLV 256.
def nodeBody (protocolId : UInt8) (identifier : UInt64) (_ : LsDescriptors) : List UInt8 :=
  protocolId :: Lib.u64Bytes identifier ++ [1, 0, 0, 0]

def nodeRequest (identifier : UInt64) : RouteName := .lsNlri ⟨1, 2, identifier, .node {}⟩

def nodeKey (identifier : UInt64) : RouteKey :=
  .linkState ⟨1, [2, 0, 0, 0, 0, 0, 0, 0, identifier.toUInt8, 1, 0, 0, 0], some ⟨2, identifier, .node {}⟩, none⟩

theorem named_instance_is_taken_back : addRouteKey stdExample nodeBody 7 (nodeRequest 7) = some (nodeKey 7) ∧
    ∃ removed, removeRouteKey stdExample nodeBody (nodeRequest 7) = some removed ∧
      TakesBack (BgpServer.pairExample.handleServerOp (.addRoute (nodeKey 7) LocRib.localExample)).locRib (nodeKey 7) removed := by
  have installed : addRouteKey stdExample nodeBody 7 (nodeRequest 7) = some (nodeKey 7) := by decide +kernel
  obtain ⟨removed, named, undone⟩ := remove_route_undoes_add_route_iff stdExample nodeBody 7
    BgpServer.pairExample_started [] [] (nodeRequest 7) localExample installed rfl
  exact ⟨installed, removed, named, undone.mpr (.inl rfl)⟩

-- With instance 7 configured, a node added under identifier 0 stays when it is removed under
-- identifier 0, and the answer is still Ok.
theorem other_instance_is_kept : addRouteKey stdExample nodeBody 7 (nodeRequest 0) = some (nodeKey 7) ∧
    removeRouteKey stdExample nodeBody (nodeRequest 0) = some (nodeKey 0) ∧
      originates ((BgpServer.pairExample.handleAddRoute (nodeKey 7) LocRib.localExample).handleRemoveRoute (nodeKey 0)).locRib (nodeKey 7) ∧
      ¬ TakesBack (BgpServer.pairExample.handleAddRoute (nodeKey 7) LocRib.localExample).locRib (nodeKey 7) (nodeKey 0) := by
  refine ⟨by decide +kernel, by decide +kernel, ?_⟩
  have stands : originates (((LocRib.new ⟨0⟩).addLocalRoute (nodeKey 7) localExample).1.removeLocalRoute (nodeKey 0)).1 (nodeKey 7) := by
    unfold originates
    decide +kernel
  exact ⟨stands, fun back => back.gone stands⟩

end Bgpgg.Server
