import Bgpgg.Policies.Statement

namespace Bgpgg.Policies

open Rib

inductive DefinedSet where
  | prefixes (set : PrefixSet)
  | neighbors (set : NeighborSet)
  | asPaths (set : AsPathSet)
  | communities (set : CommunitySet)
  | extCommunities (set : ExtCommunitySet)
  | largeCommunities (set : LargeCommunitySet)

namespace DefinedSet

def condition (option : MatchOption) : DefinedSet → Condition
  | .prefixes set => .prefixSet set option
  | .neighbors set => .neighborSet set option
  | .asPaths set => .asPathSet set option
  | .communities set => .communitySet set option
  | .extCommunities set => .extCommunitySet set option
  | .largeCommunities set => .largeCommunitySet set option

def hits (key : RouteKey) (path : Path) : DefinedSet → List Bool
  | .prefixes set => set.prefixes.map fun member => match key with
    | .pfx net => member.contains net
    | .linkState _ => false
  | .neighbors set => set.neighbors.map fun member => path.source.peerIp.any (member == ·)
  | .asPaths set => set.patterns.map fun member => member.isMatch (asPathText path)
  | .communities set => set.communities.map path.attrs.communities.contains
  | .extCommunities set => set.extCommunities.map path.attrs.extendedCommunities.contains
  | .largeCommunities set => set.largeCommunities.map path.attrs.largeCommunities.contains

def Applies (key : RouteKey) (path : Path) : DefinedSet → Prop
  | .prefixes _ => ∃ net, key = .pfx net
  | .neighbors _ => path.source.peerIp.isSome = true
  | _ => True

end DefinedSet

structure OptionLaws (holds : MatchOption → Bool) (hits : List Bool) : Prop where
  all : holds .all = true ↔ ∀ hit ∈ hits, hit = true
  any : holds .any = true ↔ ∃ hit ∈ hits, hit = true
  invert : holds .invert = true ↔ ∀ hit ∈ hits, hit = false
  implies : holds .all = true → holds .any = true

def DefinedSet.Documented (set : DefinedSet) (key : RouteKey) (path : Path) : Prop :=
  OptionLaws (fun option => (set.condition option).matches key path) (set.hits key path)

-- The route carries exactly the communities of the set, or each has one that the other lacks.
def Balanced {Community : Type} (carried members : List Community) : Prop := carried ⊆ members ↔ members ⊆ carried

def DefinedSet.BalancedOn (path : Path) : DefinedSet → Prop
  | .communities set => Balanced path.attrs.communities set.communities
  | .extCommunities set => Balanced path.attrs.extendedCommunities set.extCommunities
  | .largeCommunities set => Balanced path.attrs.largeCommunities set.largeCommunities
  | _ => True

theorem over_members {Item : Type} {items : List Item} {test : Item → Bool} (nonempty : items.map test ≠ []) :
    OptionLaws (fun option => option.over items test) (items.map test) where
  all := by simp [MatchOption.over]
  any := by simp [MatchOption.over]
  invert := by simp [MatchOption.over]
  implies holds := by
    cases items with
    | nil => exact absurd rfl nonempty
    | cons first rest => simp_all [MatchOption.over]

theorem over_carried_iff {Community : Type} [DecidableEq Community] {carried members : List Community}
    (nonempty : members.map carried.contains ≠ []) :
    OptionLaws (fun option => option.over carried members.contains) (members.map carried.contains) ↔ Balanced carried members := by
  have all : MatchOption.all.over carried members.contains = true ↔ carried ⊆ members := by
    simp [MatchOption.over, List.subset_def]
  have any : MatchOption.any.over carried members.contains = true ↔ ∃ community ∈ members, community ∈ carried := by
    simp [MatchOption.over, and_comm]
  have every : (∀ hit ∈ members.map carried.contains, hit = true) ↔ members ⊆ carried := by simp [List.subset_def]
  constructor
  · intro laws
    exact (all.symm.trans laws.all).trans every
  · intro balanced
    refine ⟨all.trans (balanced.trans every.symm), any.trans (by simp), ?_, fun holds => any.mpr ?_⟩
    · have apart : (∀ community ∈ carried, community ∉ members) ↔ ∀ community ∈ members, community ∉ carried :=
        forall_congr' fun _ => imp_not_comm
      simpa [MatchOption.over] using apart
    · cases members with
      | nil => exact absurd rfl nonempty
      | cons first rest => exact ⟨first, List.mem_cons_self, balanced.mp (all.mp holds) List.mem_cons_self⟩

theorem match_options_documented_iff (set : DefinedSet) (key : RouteKey) (path : Path) (applies : set.Applies key path)
    (nonempty : set.hits key path ≠ []) : set.Documented key path ↔ set.BalancedOn path := by
  cases set with
  | prefixes set =>
    obtain ⟨net, rfl⟩ := applies
    exact iff_true_intro (over_members nonempty)
  | neighbors set =>
    obtain ⟨peerIp, learned⟩ := Option.isSome_iff_exists.mp applies
    simp only [DefinedSet.Documented, Condition.matches, DefinedSet.hits, learned] at nonempty ⊢
    exact iff_true_intro (over_members nonempty)
  | asPaths set => exact iff_true_intro (over_members nonempty)
  | communities set => exact over_carried_iff nonempty
  | extCommunities set => exact over_carried_iff nonempty
  | largeCommunities set => exact over_carried_iff nonempty

def twoCommunities : DefinedSet := .communities ⟨"two", [1, 2]⟩

def carrying (communities : List UInt32) : Path :=
  ⟨none, none, ⟨.igp, [], .ipv4 0, .localSource, none, none, false, none, communities, [], [], [], none, [], none⟩, false, .notFound⟩

theorem both_communities_documented : twoCommunities.Documented (.pfx (.v4 ⟨0, 0⟩)) (carrying [2, 1]) :=
  (match_options_documented_iff twoCommunities _ _ trivial (by decide)).mpr (iff_of_true (by decide) (by decide))

theorem untagged_route_matches_all : (twoCommunities.condition .all).matches (.pfx (.v4 ⟨0, 0⟩)) (carrying []) = true ∧
    (twoCommunities.condition .any).matches (.pfx (.v4 ⟨0, 0⟩)) (carrying []) = false ∧
    ¬ twoCommunities.Documented (.pfx (.v4 ⟨0, 0⟩)) (carrying []) :=
  ⟨rfl, rfl, fun laws => Bool.false_ne_true (laws.implies rfl)⟩

end Bgpgg.Policies
