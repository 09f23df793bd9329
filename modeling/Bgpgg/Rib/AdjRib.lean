import Bgpgg.Lib.AssocMap
import Bgpgg.Rib.Path

namespace Bgpgg.Rib

open Net Wire Lib List

structure FamilyTables (Value : Type) where
  ipv4Unicast : AssocMap Ipv4Net Value
  ipv6Unicast : AssocMap Ipv6Net Value
  linkState : AssocMap LsNlri Value

namespace FamilyTables

variable {Value : Type}

variable (tables : FamilyTables Value) (key other : RouteKey)

def new : FamilyTables Value := ⟨∅, ∅, ∅⟩

def get (tables : FamilyTables Value) : RouteKey → Option Value
  | .pfx (.v4 net) => tables.ipv4Unicast.lookup net
  | .pfx (.v6 net) => tables.ipv6Unicast.lookup net
  | .linkState nlri => tables.linkState.lookup nlri

def write (tables : FamilyTables Value) (key : RouteKey) (value : Value) : FamilyTables Value := match key with
  | .pfx (.v4 net) => { tables with ipv4Unicast := tables.ipv4Unicast.insert net value }
  | .pfx (.v6 net) => { tables with ipv6Unicast := tables.ipv6Unicast.insert net value }
  | .linkState nlri => { tables with linkState := tables.linkState.insert nlri value }

def remove (tables : FamilyTables Value) (key : RouteKey) : FamilyTables Value := match key with
  | .pfx (.v4 net) => { tables with ipv4Unicast := tables.ipv4Unicast.erase net }
  | .pfx (.v6 net) => { tables with ipv6Unicast := tables.ipv6Unicast.erase net }
  | .linkState nlri => { tables with linkState := tables.linkState.erase nlri }

def clearFamily (tables : FamilyTables Value) (family : AfiSafi) : FamilyTables Value := match family.afi, family.safi with
  | .ipv4, .unicast => { tables with ipv4Unicast := ∅ }
  | .ipv6, .unicast => { tables with ipv6Unicast := ∅ }
  | .linkState, .linkState => { tables with linkState := ∅ }
  | .linkState, .linkStateVpn => { tables with linkState := ∅ }
  | _, _ => tables

def familyCount (tables : FamilyTables Value) (family : AfiSafi) : Nat := match family.afi, family.safi with
  | .ipv4, .unicast => AssocMap.size tables.ipv4Unicast
  | .ipv6, .unicast => AssocMap.size tables.ipv6Unicast
  | .linkState, .linkState => AssocMap.size tables.linkState
  | .linkState, .linkStateVpn => AssocMap.size tables.linkState
  | _, _ => 0

@[simp] theorem get_new (key : RouteKey) : (new : FamilyTables Value).get key = none := by
  cases key with
  | pfx net => cases net <;> rfl
  | linkState nlri => rfl

@[simp] theorem get_write (value : Value) :
    (tables.write key value).get other = if other = key then some value else tables.get other := by
  cases key with
  | pfx net =>
    cases net <;> cases other with
    | linkState nlri => simp [write, get]
    | pfx otherNet => cases otherNet <;> simp [write, get, AssocMap.lookup_insert_if]
  | linkState nlri =>
    cases other with
    | pfx otherNet => cases otherNet <;> simp [write, get]
    | linkState otherNlri => simp [write, get, AssocMap.lookup_insert_if]

@[simp] theorem get_remove : (tables.remove key).get other = if other = key then none else tables.get other := by
  cases key with
  | pfx net =>
    cases net <;> cases other with
    | linkState nlri => simp [remove, get]
    | pfx otherNet => cases otherNet <;> simp [remove, get, AssocMap.lookup_erase_if]
  | linkState nlri =>
    cases other with
    | pfx otherNet => cases otherNet <;> simp [remove, get]
    | linkState otherNlri => simp [remove, get, AssocMap.lookup_erase_if]

end FamilyTables

abbrev AdjRibIn := FamilyTables (Route Path)

namespace AdjRibIn

def replacePath (path : Path) : List Path → List Path
  | [] => [path]
  | existing :: rest =>
    if existing.remotePathId = path.remotePathId then path :: rest else existing :: replacePath path rest

section

variable (table : AdjRibIn) (key : RouteKey)

def addRoute (path : Path) : AdjRibIn := let route := (table.get key).getD ⟨key, []⟩
  table.write key { route with paths := replacePath path route.paths }

def removeRoute (remotePathId : Option UInt32) : AdjRibIn := match table.get key with
  | none => table
  | some route =>
    let kept := route.paths.filter fun path => path.remotePathId != remotePathId
    if kept.isEmpty then table.remove key else table.write key { route with paths := kept }

def drainAfiSafi (family : AfiSafi) : AdjRibIn := match family.afi, family.safi with
  | .ipv4, .unicast => table.clearFamily family
  | .ipv6, .unicast => table.clearFamily family
  | _, _ => table

end

def paths (table : AdjRibIn) (key : RouteKey) : List Path := ((table.get key).map Route.paths).getD []

theorem mem_replacePath {path stored : Path} {existing : List Path} (member : stored ∈ replacePath path existing) :
    stored = path ∨ stored ∈ existing := by
  induction existing with
  | nil => exact .inl (mem_singleton.mp member)
  | cons head rest ih =>
    by_cases same : head.remotePathId = path.remotePathId
    · simp only [replacePath, if_pos same, mem_cons] at member
      exact member.imp_right (mem_cons_of_mem _)
    · simp only [replacePath, if_neg same, mem_cons] at member
      cases member with
      | inl here => exact .inr (mem_cons.mpr (.inl here))
      | inr later => exact (ih later).imp_right (mem_cons_of_mem _)

section

variable (table : AdjRibIn) (family : AfiSafi) (key other : RouteKey) (path : Path) (existing : List Path)
  (remotePathId : Option UInt32)

theorem paths_addRoute : paths (addRoute table key path) other =
      if other = key then replacePath path (paths table key) else paths table other := by
  rw [paths, addRoute, FamilyTables.get_write]
  by_cases here : other = key
  · rw [if_pos here, if_pos here, paths]
    cases FamilyTables.get table key <;> rfl
  · rw [if_neg here, if_neg here, paths]

theorem paths_removeRoute : paths (removeRoute table key remotePathId) other =
      if other = key then (paths table key).filter fun path => path.remotePathId != remotePathId
      else paths table other := by
  have here : paths (removeRoute table key remotePathId) key =
      (paths table key).filter fun path => path.remotePathId != remotePathId := by
    rw [removeRoute]
    cases found : FamilyTables.get table key with
    | none => simp [paths, found]
    | some route =>
      by_cases empty : (route.paths.filter fun path => path.remotePathId != remotePathId).isEmpty = true
      · simp only [if_pos empty, paths, FamilyTables.get_remove, found]
        exact (isEmpty_iff.mp empty).symm
      · simp only [if_neg empty, paths, FamilyTables.get_write, found, if_true, Option.map_some, Option.getD_some]
  by_cases same : other = key
  · rw [if_pos same, same, here]
  · rw [if_neg same, removeRoute]
    cases found : FamilyTables.get table key with
    | none => rfl
    | some route =>
      simp only
      split <;> simp [paths, if_neg same]

def drains (family : AfiSafi) (key : RouteKey) : Bool := match family.afi, family.safi, key with
  | .ipv4, .unicast, .pfx (.v4 _) => true
  | .ipv6, .unicast, .pfx (.v6 _) => true
  | _, _, _ => false

theorem paths_drainAfiSafi (key : RouteKey) :
    paths (drainAfiSafi table family) key = if drains family key then [] else paths table key := by
  obtain ⟨afi, safi⟩ := family
  cases key with
  | pfx net =>
    cases net <;> cases afi <;> cases safi <;> simp [drainAfiSafi, FamilyTables.clearFamily, FamilyTables.get, drains, paths]
  | linkState nlri => cases afi <;> cases safi <;> rfl

def Holds (table : AdjRibIn) (key : RouteKey) (remotePathId : Option UInt32) : Prop :=
  ∃ path ∈ paths table key, path.remotePathId = remotePathId

theorem replacePath_holds : (∃ stored ∈ replacePath path existing, stored.remotePathId = remotePathId) ↔
      remotePathId = path.remotePathId ∨ ∃ stored ∈ existing, stored.remotePathId = remotePathId := by
  induction existing with
  | nil => simp [replacePath, eq_comm]
  | cons head rest ih =>
    by_cases same : head.remotePathId = path.remotePathId
    · rw [replacePath, if_pos same, exists_mem_cons_iff, exists_mem_cons_iff, same, ← or_assoc, eq_comm, or_self]
    · rw [replacePath, if_neg same, exists_mem_cons_iff, exists_mem_cons_iff, ih, or_left_comm]

theorem holds_addRoute : Holds (addRoute table key path) other remotePathId ↔
      other = key ∧ remotePathId = path.remotePathId ∨ Holds table other remotePathId := by
  rw [Holds, paths_addRoute]
  by_cases here : other = key
  · subst here
    rw [if_pos rfl, replacePath_holds]
    simp [Holds]
  · simp [here, Holds]

theorem holds_removeRoute (removed remotePathId : Option UInt32) : Holds (removeRoute table key removed) other remotePathId ↔
      Holds table other remotePathId ∧ ¬ (other = key ∧ remotePathId = removed) := by
  rw [Holds, paths_removeRoute]
  by_cases here : other = key
  · subst here
    simp only [if_true, mem_filter, bne_iff_ne, true_and]
    constructor
    · rintro ⟨path, ⟨member, kept⟩, rfl⟩
      exact ⟨⟨path, member, rfl⟩, kept⟩
    · rintro ⟨⟨path, member, rfl⟩, kept⟩
      exact ⟨path, ⟨member, kept⟩, rfl⟩
  · simp [here, Holds]

theorem holds_drainAfiSafi (key : RouteKey) (remotePathId : Option UInt32) :
    Holds (drainAfiSafi table family) key remotePathId ↔ drains family key = false ∧ Holds table key remotePathId := by
  rw [Holds, paths_drainAfiSafi]
  cases drains family key <;> simp [Holds]

end

theorem not_holds_new (key : RouteKey) (remotePathId : Option UInt32) : ¬ Holds .new key remotePathId := by
  simp [Holds, paths]

end AdjRibIn

abbrev AdjRibOut := FamilyTables (AssocMap UInt32 Path)

structure RoutePath where
  key : RouteKey
  path : Path
deriving DecidableEq, Repr

abbrev Withdrawal := RouteKey × Option UInt32

namespace AdjRibOut

def insert (table : AdjRibOut) (key : RouteKey) (path : Path) : AdjRibOut := match path.localPathId with
  | none => table
  | some id => table.write key (((table.get key).getD ∅).insert id path)

section

variable (table : AdjRibOut) (key : RouteKey) (id : UInt32)

def removePath : AdjRibOut := match table.get key with
  | none => table
  | some stored =>
    let stored := stored.erase id
    if AssocMap.size stored = 0 then table.remove key else table.write key stored

def stalePaths (active : List RoutePath) : List Path := match table.get key with
  | none => []
  | some stored =>
    let activeIds := active.filterMap fun routePath => routePath.path.localPathId
    (stored.entries.filter fun entry => !activeIds.contains entry.1).map Sigma.snd

def pathAt : Option Path := (table.get key).bind fun stored => stored.lookup id

end

end AdjRibOut

end Bgpgg.Rib
