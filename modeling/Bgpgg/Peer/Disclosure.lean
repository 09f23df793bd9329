import Bgpgg.Peer.Export
import Bgpgg.Rib.PathMessage

namespace Bgpgg.Peer

open Net Wire Rib Policies

-- A path without what is not meant to leave the AS.
def outside (path : Path) : Path := { path with
  attrs := { path.attrs with
    localPref := none
    extendedCommunities := path.attrs.extendedCommunities.filter isTransitive
    unknownAttrs := path.attrs.unknownAttrs.filter isUnknownTransitive
    originatorId := none
    clusterList := [] }
  stale := false
  rpkiState := .notFound }

def SameOutside (first second : Path) : Prop := outside first = outside second

-- A set of extended communities is matched against all those of the path, so asking for all of
-- them to be in the set also asks about the ones that stay inside.
def readsInternal : Condition → Bool
  | .rpkiValidation _ => true
  | .extCommunitySet _ .all => true
  | .extCommunitySet set _ => !set.extCommunities.all isTransitive
  | _ => false

section

variable {first second : Path}

theorem apply_filter {Community : Type} [DecidableEq Community] (op : CommunityOp Community) (keep : Community → Bool)
    {first second : List Community} (same : first.filter keep = second.filter keep) :
    (op.apply first).filter keep = (op.apply second).filter keep := by
  cases op with
  | add toAdd =>
    refine List.foldl_rel (r := fun left right : List Community => left.filter keep = right.filter keep) same ?_
    intro community _ left right alike
    have found : ∀ list : List Community, keep community = true → list.contains community = (list.filter keep).contains community := by
      intro list kept
      simp [kept]
    cases kept : keep community with
    | false => split <;> split <;> simp [kept, alike]
    | true =>
      rw [found left kept, found right kept, alike]
      split
      · exact alike
      · rw [List.filter_append, List.filter_append, alike]
  | remove toRemove => rw [CommunityOp.apply, CommunityOp.apply, List.filter_comm, same, List.filter_comm]
  | replace replacement => rfl

theorem action_outside (action : Policies.Action) (first second : Path) (same : SameOutside first second) :
    SameOutside (action.apply first).2 (action.apply second).2 := by
  cases action with
  | setLocalPref value force =>
    simp only [Policies.Action.apply]
    split <;> split <;> exact same
  | setMed value =>
    exact congrArg (fun path : Path => { path with attrs := { path.attrs with med := value } }) same
  | setCommunity op =>
    exact congrArg (fun path : Path =>
      { path with attrs := { path.attrs with communities := op.apply path.attrs.communities } }) same
  | setLargeCommunity op =>
    exact congrArg (fun path : Path =>
      { path with attrs := { path.attrs with largeCommunities := op.apply path.attrs.largeCommunities } }) same
  | setExtCommunity op =>
    have transitive := apply_filter op isTransitive (congrArg (fun path => path.attrs.extendedCommunities) same)
    exact congrArg₂ (fun (path : Path) communities =>
      { path with attrs := { path.attrs with extendedCommunities := communities } }) same transitive
  | _ => exact same

theorem blind_outside {condition : Condition} (unread : readsInternal condition = false) (key : RouteKey) :
    condition.BlindTo SameOutside key := by
  intro first second same
  suffices ∀ path, condition.matches key path = condition.matches key (outside path) by rw [this, this second, same]
  intro path
  cases condition with
  | rpkiValidation state => cases unread
  | extCommunitySet set option =>
    have transitive : ∀ community ∈ set.extCommunities, isTransitive community = true := by
      cases option with
      | all => cases unread
      | any | invert => simpa only [readsInternal, Bool.not_eq_false', List.all_eq_true] using unread
    have inSet : ∀ community, (isTransitive community && set.extCommunities.contains community) =
        set.extCommunities.contains community := by
      intro community
      cases listed : set.extCommunities.contains community with
      | false => rw [Bool.and_false]
      | true => rw [transitive community (List.contains_iff_mem.mp listed), Bool.and_true]
    have found : ∀ communities : List UInt64, communities.any set.extCommunities.contains =
        (communities.filter isTransitive).any set.extCommunities.contains := by
      intro communities
      rw [List.any_filter]
      simp only [inSet]
    cases option with
    | all => cases unread
    | any => exact found _
    | invert => exact congrArg not (found _)
  | _ => rfl

theorem buildExportAttrs_outside {ctx : PeerExportContext} (external : ctx.isEbgp = true) (plain : ctx.rsClient = false)
    (path : Path) (key : RouteKey) : buildExportAttrs path ctx key = buildExportAttrs (outside path) ctx key := by
  have different : ctx.localAsn ≠ ctx.peerAsn := by simpa [PeerExportContext.isEbgp] using external
  have notIbgp : ctx.isIbgp = false := by simpa [PeerExportContext.isIbgp] using different
  have hop : buildExportNextHop path ctx key = buildExportNextHop (outside path) ctx key := by
    rfl
  simp [buildExportAttrs, hop, plain, external, notIbgp, different, buildExportRrAttrs, buildExportLocalPref,
    buildExportExtendedCommunities, buildExportUnknownAttrs, outside, buildExportAsPath, buildExportMed, buildExportCommunities,
    Rib.Path.source]

theorem computeExportPath_outside {ctx : PeerExportContext} {key : RouteKey} (external : ctx.isEbgp = true)
    (plain : ctx.rsClient = false) (unread : ∀ policy ∈ (ctx.exportPolicies.lookup key.afiSafi).getD [],
      ∀ statement ∈ policy.statements, ∀ condition ∈ statement.conditions, readsInternal condition = false)
    (same : SameOutside first second) : computeExportPath key first ctx = computeExportPath key second ctx := by
  have judged : shouldExportToPeer (outside first) ctx = shouldExportToPeer (outside second) ctx :=
    congrArg (fun path => shouldExportToPeer path ctx) same
  obtain ⟨verdict, result⟩ := evaluatePolicies_alike key action_outside (fun policy listed statement stated condition member =>
    blind_outside (unread policy listed statement stated condition member) key) same
  rw [computeExportPath, computeExportPath, show shouldExportToPeer first ctx = _ from judged]
  generalize evaluatePolicies key _ first = left at verdict result ⊢
  generalize evaluatePolicies key _ second = right at verdict result ⊢
  obtain ⟨accepted, exported⟩ := left
  obtain ⟨otherAccepted, other⟩ := right
  cases verdict
  have attrs : buildExportAttrs exported ctx key = buildExportAttrs other ctx key := by
    rw [buildExportAttrs_outside external plain, result, ← buildExportAttrs_outside external plain]
  have localId : exported.localPathId = other.localPathId := (congrArg Path.localPathId result :)
  have remoteId : exported.remotePathId = other.remotePathId := (congrArg Path.remotePathId result :)
  simp only [attrs, localId, remoteId]
  rfl

-- An external peer is sent the same bytes for any two paths that differ only inside, or nothing for both.
theorem internal_attributes_stay_inside (net : IpNetwork) {ctx : PeerExportContext} (external : ctx.isEbgp = true)
    (plain : ctx.rsClient = false) (unread : ∀ policy ∈ (ctx.exportPolicies.lookup net.afiSafi).getD [],
      ∀ statement ∈ policy.statements, ∀ condition ∈ statement.conditions, readsInternal condition = false)
    (same : SameOutside first second) :
    let sent := fun path => (computeExportPath (.pfx net) path ctx).map fun exported =>
      (UpdateMessage.new exported [net] ctx.sendFormat).serialize
    (computeExportPath (.pfx net) first ctx).isSome = (computeExportPath (.pfx net) second ctx).isSome ∧ sent first = sent second := by
  have exported := @computeExportPath_outside first second ctx (.pfx net) external plain unread same
  exact ⟨congrArg _ exported, congrArg _ exported⟩

end

theorem reflected_path_sent_alike : let path := routeVia (.ipv4 0xc0000263)
    let inner : Path := { path with
      attrs := { path.attrs with
        localPref := some 200, extendedCommunities := [0x4300000000000002], originatorId := some 7, clusterList := [9] }
      stale := true
      rpkiState := .invalid }
    let sent := fun path => (computeExportPath (.pfx (.v4 ⟨0x0A010000, 16⟩)) path (unicastSession 65001)).map fun exported =>
      (UpdateMessage.new exported [.v4 ⟨0x0A010000, 16⟩] (unicastSession 65001).sendFormat).serialize
    (sent path).isSome = true ∧ sent path = sent inner :=
  ⟨by decide +kernel,
    (internal_attributes_stay_inside (.v4 ⟨0x0A010000, 16⟩) (by decide) rfl (by decide +kernel) (by unfold SameOutside; decide)).2⟩

end Bgpgg.Peer
