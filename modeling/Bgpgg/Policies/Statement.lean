import Bgpgg.Lib.AssocMap
import Bgpgg.Rib.Path

namespace Bgpgg.Policies

open Net Wire Lib Rib

-- A compiled regular expression is known by the texts it matches.
structure Regex where
  isMatch : String → Bool

structure PrefixMatch where
  network : IpNetwork
  minLen : UInt8
  maxLen : UInt8

structure PrefixSet where
  name : String
  prefixes : List PrefixMatch

structure NeighborSet where
  name : String
  neighbors : List IpAddr

structure AsPathSet where
  name : String
  patterns : List Regex

structure CommunitySet where
  name : String
  communities : List UInt32

structure ExtCommunitySet where
  name : String
  extCommunities : List UInt64

structure LargeCommunitySet where
  name : String
  largeCommunities : List LargeCommunity

inductive MatchOption where
  | any
  | all
  | invert

inductive RouteType where
  | ebgp
  | ibgp
  | localType

inductive CommunityOp (Community : Type) where
  | add (communities : List Community)
  | remove (communities : List Community)
  | replace (communities : List Community)

inductive AfiSafiMatch where
  | ipv4Unicast
  | ipv6Unicast
  | bgpLs

inductive LsNlriTypeMatch where
  | node
  | link
  | prefixV4
  | prefixV6

inductive LsProtocolIdMatch where
  | isIsL1
  | isIsL2
  | ospfV2
  | direct
  | staticRoute
  | ospfV3

inductive Action where
  | accept
  | reject
  | setLocalPref (value : UInt32) (force : Bool)
  | setMed (value : Option UInt32)
  | setCommunity (op : CommunityOp UInt32)
  | setExtCommunity (op : CommunityOp UInt64)
  | setLargeCommunity (op : CommunityOp LargeCommunity)
  | setRpkiState (state : RpkiValidation)

inductive Condition where
  | pfx (net : IpNetwork)
  | prefixSet (set : PrefixSet) (option : MatchOption)
  | neighbor (neighbor : IpAddr)
  | neighborSet (set : NeighborSet) (option : MatchOption)
  | asPath (asn : UInt32)
  | asPathSet (set : AsPathSet) (option : MatchOption)
  | community (community : UInt32)
  | communitySet (set : CommunitySet) (option : MatchOption)
  | extCommunitySet (set : ExtCommunitySet) (option : MatchOption)
  | largeCommunitySet (set : LargeCommunitySet) (option : MatchOption)
  | routeType (routeType : RouteType)
  | rpkiValidation (state : RpkiValidation)
  | afiSafi (family : AfiSafiMatch)
  | lsNlriType (nlriType : LsNlriTypeMatch)
  | lsProtocolId (protocol : LsProtocolIdMatch)
  | lsInstanceId (id : UInt64)
  | lsNodeAs (asn : UInt32)
  | lsNodeRouterId (ip : IpAddr)

structure Statement where
  conditions : List Condition
  actions : List Action

structure Policy where
  name : String
  statements : List Statement

inductive PolicyResult where
  | accept
  | reject
  | proceed
deriving DecidableEq, Repr

-- The shift by 32 - prefix_length is on u8, and a shift by the whole width wraps to none.
def sameNetwork {width : Nat} (net other : IpNet width) : Bool :=
  let mask := BitVec.allOnes width <<< ((UInt8.ofNat width - net.prefixLength).toNat % width)
  net.address &&& mask == other.address &&& mask

def networkContains : IpNetwork → IpNetwork → Bool
  | .v4 net, .v4 other => sameNetwork net other
  | .v6 net, .v6 other => sameNetwork net other
  | _, _ => false

def PrefixMatch.contains (prefixMatch : PrefixMatch) (net : IpNetwork) : Bool :=
  if net.prefixLen < prefixMatch.minLen || net.prefixLen > prefixMatch.maxLen then false
  else networkContains prefixMatch.network net

def MatchOption.over {Item : Type} (option : MatchOption) (items : List Item) (test : Item → Bool) : Bool := match option with
  | .any => items.any test
  | .all => items.all test
  | .invert => !items.any test

def asPathText (path : Path) : String :=
  String.intercalate "_" ((path.attrs.asPath.flatMap AsPathSegment.asnList).map fun asn => toString asn.toNat)

def LsProtocolIdMatch.toU8 : LsProtocolIdMatch → UInt8
  | .isIsL1 => 1
  | .isIsL2 => 2
  | .ospfV2 => 3
  | .direct => 4
  | .staticRoute => 5
  | .ospfV3 => 6

def LsNlriTypeMatch.toU16 : LsNlriTypeMatch → UInt16
  | .node => 1
  | .link => 2
  | .prefixV4 => 3
  | .prefixV6 => 4

def lsBodyTest (key : RouteKey) (test : LsNlriBody → Bool) : Bool := match key with
  | .linkState nlri => nlri.body.any test
  | .pfx _ => false

def localNode : LsDescriptors → NodeDescriptor
  | .node localNode => localNode
  | .link localNode _ _ => localNode
  | .prefixV4 localNode _ => localNode
  | .prefixV6 localNode _ => localNode

def Condition.matches (condition : Condition) (key : RouteKey) (path : Path) : Bool := match condition with
  | .pfx net => key == .pfx net
  | .prefixSet set option =>
    match key with
    | .pfx net => option.over set.prefixes fun prefixMatch => prefixMatch.contains net
    | .linkState _ => false
  | .neighbor address => path.source.peerIp == some address
  | .neighborSet set option =>
    match path.source.peerIp with
    | none => false
    | some peerIp => option.over set.neighbors fun address => address == peerIp
  | .asPath asn => (path.attrs.asPath.flatMap AsPathSegment.asnList).contains asn
  | .asPathSet set option => option.over set.patterns fun pattern => pattern.isMatch (asPathText path)
  | .community value => path.attrs.communities.contains value
  | .communitySet set option => option.over path.attrs.communities set.communities.contains
  | .extCommunitySet set option => option.over path.attrs.extendedCommunities set.extCommunities.contains
  | .largeCommunitySet set option => option.over path.attrs.largeCommunities set.largeCommunities.contains
  | .routeType kind =>
    match kind, path.source with
    | .ebgp, .ebgp .. => true
    | .ibgp, .ibgp .. => true
    | .localType, .localSource => true
    | _, _ => false
  | .rpkiValidation state => path.rpkiState == state
  | .afiSafi family =>
    match family with
    | .ipv4Unicast => key.afiSafi == ⟨.ipv4, .unicast⟩
    | .ipv6Unicast => key.afiSafi == ⟨.ipv6, .unicast⟩
    | .bgpLs => key.afiSafi == ⟨.linkState, .linkState⟩ || key.afiSafi == ⟨.linkState, .linkStateVpn⟩
  | .lsNlriType nlriType =>
    match key with
    | .linkState nlri => nlri.nlriType == nlriType.toU16
    | .pfx _ => false
  | .lsProtocolId protocol => lsBodyTest key fun body => body.protocolId == protocol.toU8
  | .lsInstanceId id => lsBodyTest key fun body => body.identifier == id
  | .lsNodeAs asn => lsBodyTest key fun body => (localNode body.descriptors).asNumber == some asn
  | .lsNodeRouterId ip => lsBodyTest key fun body => (localNode body.descriptors).igpRouterId.any fun routerId =>
    match ip with
    | .v4 addr => routerId == Ipv4Addr.octets addr
    | .v6 addr => routerId == Ipv6Addr.octets addr

def CommunityOp.apply {Community : Type} [DecidableEq Community] (op : CommunityOp Community)
    (communities : List Community) : List Community :=
  match op with
  | .add toAdd => toAdd.foldl (fun kept community =>
    if kept.contains community then kept else kept ++ [community]) communities
  | .remove toRemove => communities.filter fun community => !toRemove.contains community
  | .replace replacement => replacement

def Action.apply (action : Action) (path : Path) : Bool × Path := match action with
  | .accept => (true, path)
  | .reject => (false, path)
  | .setLocalPref value force =>
    (true, if force || path.attrs.localPref.isNone then
      { path with attrs := { path.attrs with localPref := some value } } else path)
  | .setMed value => (true, { path with attrs := { path.attrs with med := value } })
  | .setCommunity op =>
    (true, { path with attrs := { path.attrs with communities := op.apply path.attrs.communities } })
  | .setExtCommunity op =>
    (true, { path with attrs := { path.attrs with extendedCommunities := op.apply path.attrs.extendedCommunities } })
  | .setLargeCommunity op =>
    (true, { path with attrs := { path.attrs with largeCommunities := op.apply path.attrs.largeCommunities } })
  | .setRpkiState state => (true, { path with rpkiState := state })

def Statement.matches (statement : Statement) (key : RouteKey) (path : Path) : Bool :=
  statement.conditions.isEmpty || statement.conditions.all fun condition => condition.matches key path

-- The verdict is the conjunction over the actions, which all run.
def applyAction (state : Bool × Path) (action : Action) : Bool × Path := (state.1 && (action.apply state.2).1, (action.apply state.2).2)

def applyActions (actions : List Action) (path : Path) : Bool × Path := actions.foldl applyAction (true, path)

def Statement.apply (statement : Statement) (key : RouteKey) (path : Path) : Option Bool × Path := if statement.matches key path then
    let (accept, path) := applyActions statement.actions path
    (some accept, path)
  else (none, path)

def evaluateStatements (key : RouteKey) : List Statement → Path → PolicyResult × Path
  | [], path => (.proceed, path)
  | statement :: rest, path =>
    match statement.apply key path with
    | (some accept, path) => (if accept then .accept else .reject, path)
    | (none, path) => evaluateStatements key rest path

def Policy.evaluate (policy : Policy) (key : RouteKey) (path : Path) : PolicyResult × Path :=
  evaluateStatements key policy.statements path

def Policy.permitAll : Policy := ⟨"default-permit-all", [⟨[], [.accept]⟩]⟩

def Policy.denyAll : Policy := ⟨"default-deny-all", [⟨[], [.reject]⟩]⟩

abbrev AfiSafiPolicies := AssocMap AfiSafi (List Policy)

def evaluatePolicies (key : RouteKey) : List Policy → Path → Bool × Path
  | [], path => (false, path)
  | policy :: rest, path =>
    match policy.evaluate key path with
    | (.accept, path) => (true, path)
    | (.reject, path) => (false, path)
    | (.proceed, path) => evaluatePolicies key rest path

-- What no action touches, with the stale flag apart: policies carry it along unread.
structure Untouched (before after : Path) : Prop where
  localPathId : after.localPathId = before.localPathId
  remotePathId : after.remotePathId = before.remotePathId
  stale : after.stale = before.stale
  source : after.attrs.source = before.attrs.source
  asPath : after.attrs.asPath = before.attrs.asPath
  originatorId : after.attrs.originatorId = before.attrs.originatorId
  clusterList : after.attrs.clusterList = before.attrs.clusterList
  nextHop : after.attrs.nextHop = before.attrs.nextHop
  unknownAttrs : after.attrs.unknownAttrs = before.attrs.unknownAttrs

section

variable (action : Action) (actions : List Action) (key : RouteKey) (policies : List Policy)
  (statements : List Statement) (path : Path)

theorem Untouched.refl : Untouched path path := ⟨rfl, rfl, rfl, rfl, rfl, rfl, rfl, rfl, rfl⟩

theorem Untouched.trans {first second third : Path} (before : Untouched first second)
    (after : Untouched second third) : Untouched first third where
  localPathId := after.localPathId.trans before.localPathId
  remotePathId := after.remotePathId.trans before.remotePathId
  stale := after.stale.trans before.stale
  source := after.source.trans before.source
  asPath := after.asPath.trans before.asPath
  originatorId := after.originatorId.trans before.originatorId
  clusterList := after.clusterList.trans before.clusterList
  nextHop := after.nextHop.trans before.nextHop
  unknownAttrs := after.unknownAttrs.trans before.unknownAttrs

theorem action_untouched : Untouched path (action.apply path).2 := by
  cases action with
  | setLocalPref value force =>
    simp only [Action.apply]
    split
    · exact ⟨rfl, rfl, rfl, rfl, rfl, rfl, rfl, rfl, rfl⟩
    · exact .refl path
  | _ => exact ⟨rfl, rfl, rfl, rfl, rfl, rfl, rfl, rfl, rfl⟩

theorem applyActions_untouched : Untouched path (applyActions actions path).2 := by
  exact List.foldlRecOn (motive := fun state : Bool × Path => Untouched path state.2) actions _ (.refl path)
    fun state before action _ => before.trans (action_untouched action state.2)

theorem evaluateStatements_untouched : Untouched path (evaluateStatements key statements path).2 := by
  induction statements with
  | nil => exact .refl path
  | cons statement rest ih =>
    by_cases hit : statement.matches key path = true
    · simp only [evaluateStatements, Statement.apply, hit]
      exact applyActions_untouched statement.actions path
    · simp only [evaluateStatements, Statement.apply, hit]
      exact ih

theorem evaluatePolicies_untouched : Untouched path (evaluatePolicies key policies path).2 := by
  induction policies generalizing path with
  | nil => exact .refl path
  | cons policy rest ih =>
    have once : Untouched path (policy.evaluate key path).2 := evaluateStatements_untouched key policy.statements path
    rw [evaluatePolicies]
    cases result : policy.evaluate key path with
    | mk verdict changed =>
      rw [result] at once
      cases verdict with
      | accept | reject => exact once
      | proceed => exact once.trans (ih changed)

end

section

variable {related : Path → Path → Prop} {first second : Path} (key : RouteKey)
  (acts : ∀ (action : Action) (first second : Path), related first second → related (action.apply first).2 (action.apply second).2)

def Condition.BlindTo (related : Path → Path → Prop) (key : RouteKey) (condition : Condition) : Prop :=
  ∀ first second, related first second → condition.matches key first = condition.matches key second

def Alike {Verdict : Type} (related : Path → Path → Prop) (first second : Verdict × Path) : Prop :=
  first.1 = second.1 ∧ related first.2 second.2

include acts

theorem applyActions_alike (actions : List Action) (same : related first second) :
    Alike related (applyActions actions first) (applyActions actions second) := by
  refine List.foldl_rel ⟨rfl, same⟩ fun action _ left right alike => ⟨?_, acts action _ _ alike.2⟩
  rw [applyAction, alike.1]
  cases action <;> rfl

theorem evaluateStatements_alike {statements : List Statement}
    (blind : ∀ statement ∈ statements, ∀ condition ∈ statement.conditions, condition.BlindTo related key)
    (same : related first second) :
    Alike related (evaluateStatements key statements first) (evaluateStatements key statements second) := by
  induction statements with
  | nil => exact ⟨rfl, same⟩
  | cons statement rest ih =>
    have unread : statement.matches key first = statement.matches key second := by
      rw [Statement.matches]
      refine congrArg _ (Bool.eq_iff_iff.mpr ?_)
      rw [List.all_eq_true, List.all_eq_true]
      refine forall₂_congr fun condition member => ?_
      rw [blind statement List.mem_cons_self condition member first second same]
    by_cases hit : statement.matches key second = true
    · obtain ⟨verdict, result⟩ := applyActions_alike acts statement.actions same
      simpa only [evaluateStatements, Statement.apply, unread, hit, verdict] using ⟨rfl, result⟩
    · simp only [evaluateStatements, Statement.apply, unread, hit]
      exact ih fun statement member => blind statement (List.mem_cons_of_mem _ member)

theorem evaluatePolicies_alike {policies : List Policy} (blind : ∀ policy ∈ policies, ∀ statement ∈ policy.statements,
      ∀ condition ∈ statement.conditions, condition.BlindTo related key) (same : related first second) :
    Alike related (evaluatePolicies key policies first) (evaluatePolicies key policies second) := by
  induction policies generalizing first second with
  | nil => exact ⟨rfl, same⟩
  | cons policy rest ih =>
    obtain ⟨verdict, result⟩ := evaluateStatements_alike key acts (blind policy List.mem_cons_self) same
    rw [evaluatePolicies, evaluatePolicies, Policy.evaluate, Policy.evaluate]
    generalize evaluateStatements key policy.statements first = left at verdict result ⊢
    generalize evaluateStatements key policy.statements second = right at verdict result ⊢
    obtain ⟨outcome, changed⟩ := left
    obtain ⟨other, otherChanged⟩ := right
    cases verdict
    cases outcome with
    | accept | reject => exact ⟨rfl, result⟩
    | proceed => exact ih (fun other member => blind other (List.mem_cons_of_mem _ member)) result

end

-- No condition reads the stale flag and no action writes it.
def withStale (stale : Bool) (path : Path) : Path := { path with stale := stale }

theorem action_withStale (stale : Bool) (action : Action) (path : Path) :
    (action.apply (withStale stale path)).2 = withStale stale (action.apply path).2 := by
  cases action with
  | setLocalPref value force =>
    have unread : (withStale stale path).attrs = path.attrs := rfl
    simp only [Action.apply, unread]
    by_cases written : (force || path.attrs.localPref.isNone) = true
    · rw [if_pos written, if_pos written]
      rfl
    · rw [if_neg written, if_neg written]
  | _ => rfl

theorem evaluatePolicies_withStale (stale : Bool) (key : RouteKey) (policies : List Policy) (path : Path) :
    evaluatePolicies key policies (withStale stale path) =
      ((evaluatePolicies key policies path).1, withStale stale (evaluatePolicies key policies path).2) := by
  obtain ⟨verdict, result⟩ := @evaluatePolicies_alike (fun first second => first = withStale stale second)
    (withStale stale path) path key (fun action _ path same => same ▸ action_withStale stale action path) policies
    (by rintro policy - statement - condition - first second rfl; rfl) rfl
  exact Prod.ext verdict result

theorem evaluateStatements_find (key : RouteKey) (statements : List Statement) (path : Path) :
    evaluateStatements key statements path = match statements.find? fun statement => statement.matches key path with
      | some statement => (if (applyActions statement.actions path).1 then .accept else .reject, (applyActions statement.actions path).2)
      | none => (.proceed, path) := by
  induction statements with
  | nil => rfl
  | cons statement rest ih =>
    by_cases hit : statement.matches key path = true
    · simp [evaluateStatements, Statement.apply, hit]
    · simp [evaluateStatements, Statement.apply, hit, ih]

-- The first statement that matches the path as it came has the last word, whichever policy
-- it stands in and whether or not one of its actions accepts or rejects.
theorem first_match_decides (key : RouteKey) (policies : List Policy) (path : Path) : evaluatePolicies key policies path =
      match (policies.flatMap Policy.statements).find? fun statement => statement.matches key path with
      | some statement => applyActions statement.actions path
      | none => (false, path) := by
  induction policies with
  | nil => rfl
  | cons policy rest ih =>
    rw [evaluatePolicies, Policy.evaluate, evaluateStatements_find, List.flatMap_cons, List.find?_append]
    cases policy.statements.find? fun statement => statement.matches key path with
    | none => exact ih
    | some statement =>
      simp only [Option.some_or]
      generalize applyActions statement.actions path = result
      obtain ⟨verdict, changed⟩ := result
      cases verdict <;> rfl

end Bgpgg.Policies
