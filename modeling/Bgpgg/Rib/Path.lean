import Bgpgg.Wire.Attributes
import Mathlib.Data.List.Sort

namespace Bgpgg.Rib

open Net Wire

inductive RpkiValidation where
  | valid
  | invalid
  | notFound
deriving DecidableEq, Repr

inductive RouteSource where
  | ebgp (peerIp : IpAddr) (bgpId : Ipv4Addr)
  | ibgp (peerIp : IpAddr) (bgpId : Ipv4Addr) (rrClient : Bool)
  | localSource
deriving DecidableEq, Repr

def RouteSource.peerIp : RouteSource → Option IpAddr
  | .ebgp peerIp _ => some peerIp
  | .ibgp peerIp _ _ => some peerIp
  | .localSource => none

def RouteSource.bgpId : RouteSource → Option Ipv4Addr
  | .ebgp _ bgpId => some bgpId
  | .ibgp _ bgpId _ => some bgpId
  | .localSource => none

def RouteSource.isRrClient : RouteSource → Bool
  | .ibgp _ _ rrClient => rrClient
  | _ => false

def RouteSource.isIbgp : RouteSource → Bool
  | .ibgp .. => true
  | _ => false

def RouteSource.isEbgp : RouteSource → Bool
  | .ebgp .. => true
  | _ => false

inductive SessionType where
  | ebgp
  | ibgp
deriving DecidableEq, Repr

def RouteSource.fromSession (sessionType : SessionType) (peerIp : IpAddr) (bgpId : Ipv4Addr) (rrClient : Bool) : RouteSource :=
  match sessionType with
  | .ebgp => .ebgp peerIp bgpId
  | .ibgp => .ibgp peerIp bgpId rrClient

inductive RouteKey where
  | pfx (net : IpNetwork)
  | linkState (nlri : LsNlri)
deriving DecidableEq, Repr

def RouteKey.afiSafi : RouteKey → AfiSafi
  | .pfx net => net.afiSafi
  | .linkState nlri => ⟨.linkState, nlri.safi⟩

structure PathAttrs where
  origin : Origin
  asPath : List AsPathSegment
  nextHop : NextHopAddr
  source : RouteSource
  localPref : Option UInt32
  med : Option UInt32
  atomicAggregate : Bool
  aggregator : Option Aggregator
  communities : List UInt32
  extendedCommunities : List UInt64
  largeCommunities : List LargeCommunity
  unknownAttrs : List PathAttribute
  originatorId : Option Ipv4Addr
  clusterList : List Ipv4Addr
  lsAttr : Option LsAttr
deriving DecidableEq, Repr

-- attrs is an Arc in the source, but its pointer is never compared, so here it is the value.
structure Path where
  localPathId : Option UInt32
  remotePathId : Option UInt32
  attrs : PathAttrs
  stale : Bool
  rpkiState : RpkiValidation
deriving DecidableEq, Repr

-- Stored is Path in the adjacency tables and a counted pointer to one in the Loc-RIB,
-- the only table whose pointers are compared.
structure Route (Stored : Type) where
  key : RouteKey
  paths : List Stored
deriving DecidableEq, Repr

def Path.source (path : Path) : RouteSource := path.attrs.source

def Path.isFromPeer (path : Path) (peerIp : IpAddr) : Bool := path.attrs.source.peerIp == some peerIp

def Path.matchesRemote (path other : Path) : Bool := path.attrs.source == other.attrs.source && path.remotePathId == other.remotePathId

def Path.asPathLength (path : Path) : Nat := (path.attrs.asPath.map fun segment =>
    match segment.segmentType with
    | .asSequence => segment.asnList.length
    | .asSet => 1
    | .asConfedSequence => 0
    | .asConfedSet => 0).sum

def Path.neighboringAs (path : Path) : Option UInt32 := path.attrs.asPath.findSome? fun segment =>
    if segment.segmentType = .asSequence then segment.asnList.head? else none

def Path.originAs (path : Path) : Option UInt32 := path.attrs.asPath.getLast?.bind fun last =>
    match last.segmentType with
    | .asSequence => last.asnList.getLast?
    | _ => some 0

def NO_EXPORT : UInt32 := 0xFFFFFF01
def NO_ADVERTISE : UInt32 := 0xFFFFFF02
def NO_EXPORT_SUBCONFED : UInt32 := 0xFFFFFF03
def GRACEFUL_SHUTDOWN : UInt32 := 0xFFFF0000
def LLGR_STALE : UInt32 := 0xFFFF0006
def NO_LLGR : UInt32 := 0xFFFF0007

namespace Path

variable (self other : Path)

-- The steps of best_path_cmp in its order. Greater means that self is preferred,
-- so the steps that prefer the lower value compare other with self.
def llgrStep : Ordering := let selfLlgr := self.attrs.communities.contains LLGR_STALE
  let otherLlgr := other.attrs.communities.contains LLGR_STALE
  if selfLlgr != otherLlgr then if otherLlgr then .gt else .lt else .eq

def localPrefStep : Ordering := compare (self.attrs.localPref.getD 100) (other.attrs.localPref.getD 100)

def asPathLengthStep : Ordering := compare other.asPathLength self.asPathLength

def originStep : Ordering := compare other.attrs.origin.toU8 self.attrs.origin.toU8

def effectiveMed (path : Path) : UInt32 := path.attrs.med.getD 0

-- MED is comparable only between routes learned from the same neighbouring AS.
def medStep : Ordering := if self.neighboringAs = other.neighboringAs then compare other.effectiveMed self.effectiveMed else .eq

def sourceStep : Ordering := match self.source, other.source with
  | .ebgp .., .ibgp .. => .gt
  | .ibgp .., .ebgp .. => .lt
  | .localSource, .ebgp .. => .gt
  | .localSource, .ibgp .. => .gt
  | .ebgp .., .localSource => .lt
  | .ibgp .., .localSource => .lt
  | _, _ => .eq

def clusterListStep : Ordering := compare other.attrs.clusterList.length self.attrs.clusterList.length

def originatorStep : Ordering := match self.source, other.source with
  | .ibgp _ selfBgpId _, .ibgp _ otherBgpId _ =>
    compare (other.attrs.originatorId.getD otherBgpId) (self.attrs.originatorId.getD selfBgpId)
  | _, _ => .eq

def bgpIdStep : Ordering := match self.source, other.source with
  | .ebgp _ a, .ebgp _ b => compare b a
  | .ibgp _ a _, .ibgp _ b _ => compare b a
  | _, _ => .eq

def bestPathCmp : Ordering := (llgrStep self other).then <| (localPrefStep self other).then <| (asPathLengthStep self other).then <|
  (originStep self other).then <| (medStep self other).then <| (sourceStep self other).then <|
  (clusterListStep self other).then <| (originatorStep self other).then <| bgpIdStep self other

end Path

-- slice::sort_by. On up to twenty elements insertion_sort_shift_left takes the elements
-- from the left and moves each one left past the sorted ones it is less than. Read from
-- the right, this is Mathlib's insertion sort. Above that it merges, and the order it gives is
-- specified for total orders only.
def sortBy {Item : Type} (cmp : Item → Item → Ordering) (items : List Item) : List Item :=
  if items.length ≤ 20 then (items.reverse.insertionSort fun item placed => cmp item placed ≠ .lt).reverse
  else items.mergeSort fun item later => cmp item later ≠ .gt

section

variable {Item : Type} (cmp : Item → Item → Ordering) (items : List Item)

theorem sortBy_perm : (sortBy cmp items).Perm items := by
  rw [sortBy]
  split
  · exact (List.reverse_perm _).trans ((List.perm_insertionSort _ _).trans (List.reverse_perm items))
  · exact List.mergeSort_perm items _

@[simp] theorem mem_sortBy (item : Item) :
    item ∈ sortBy cmp items ↔ item ∈ items :=
  (sortBy_perm cmp items).mem_iff

@[simp] theorem sortBy_eq_nil_iff :
    sortBy cmp items = [] ↔ items = [] := by
  constructor
  · intro empty
    exact ((sortBy_perm cmp items).symm.trans (empty ▸ List.Perm.refl _)).eq_nil
  · rintro rfl
    rfl

end

end Bgpgg.Rib
