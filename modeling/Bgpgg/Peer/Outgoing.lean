import Bgpgg.Peer.Export
import Bgpgg.Rib.PathMessage

namespace Bgpgg.Peer

open Net Wire Lib Rib

def networkOf : RouteKey → Option IpNetwork
  | .pfx net => some net
  | .linkState _ => none

def lsNlriOf : RouteKey → Option LsNlri
  | .pfx _ => none
  | .linkState nlri => some nlri

def ipWithdrawal (withdrawal : Withdrawal) : Option Nlri := (networkOf withdrawal.1).map fun net => ⟨net, withdrawal.2⟩

-- The path identifier of a link-state withdrawal is dropped.
def lsWithdrawal (vpn : Bool) (withdrawal : Withdrawal) : Option LsNlri := (lsNlriOf withdrawal.1).filter fun nlri => nlri.isVpn == vpn

section

variable (vpn : Bool) (nlri : LsNlri) (net : IpNetwork) (id : Option UInt32)

@[simp] theorem ipWithdrawal_pfx : ipWithdrawal (.pfx net, id) = some ⟨net, id⟩ := rfl

@[simp] theorem ipWithdrawal_linkState : ipWithdrawal (.linkState nlri, id) = none := rfl

@[simp] theorem lsWithdrawal_pfx :
    lsWithdrawal vpn (.pfx net, id) = none := rfl

@[simp] theorem lsWithdrawal_linkState :
    lsWithdrawal vpn (.linkState nlri, id) = if nlri.isVpn = vpn then some nlri else none := by
  simp [lsWithdrawal, lsNlriOf, Option.filter_some]

end

def splitWithdrawals (withdrawn : List Withdrawal) : List Nlri × List LsNlri × List LsNlri :=
  (withdrawn.filterMap ipWithdrawal, withdrawn.filterMap (lsWithdrawal false), withdrawn.filterMap (lsWithdrawal true))

def lsAfiSafi : AfiSafi := ⟨.linkState, .linkState⟩

def lsVpnAfiSafi : AfiSafi := ⟨.linkState, .linkStateVpn⟩

-- The messages that are handed to the peer task, in order. None is measured.
def sendWithdrawals (withdrawn : List Withdrawal) (format : MessageFormat) : List UpdateMessage := if withdrawn.isEmpty then []
  else
    let (ipWithdrawn, lsWithdrawn, lsVpnWithdrawn) := splitWithdrawals withdrawn
    (if ipWithdrawn.isEmpty then [] else [UpdateMessage.newWithdraw ipWithdrawn format]) ++
      (if lsWithdrawn.isEmpty then [] else [UpdateMessage.newLsWithdraw lsWithdrawn lsAfiSafi format]) ++
      (if lsVpnWithdrawn.isEmpty then [] else [UpdateMessage.newLsWithdraw lsVpnWithdrawn lsVpnAfiSafi format])

structure AnnouncementBatch where
  afiSafi : AfiSafi
  path : Path
  keys : List RouteKey
deriving DecidableEq, Repr

def AnnouncementBatch.toUpdate (batch : AnnouncementBatch) (format : MessageFormat) : UpdateMessage := match batch.afiSafi.afi with
  | .ipv4 | .ipv6 => UpdateMessage.new batch.path (batch.keys.filterMap networkOf) format
  | .linkState => UpdateMessage.newLs batch.path (batch.keys.filterMap lsNlriOf) batch.afiSafi format

abbrev BatchingKey := AfiSafi × PathAttrs × Option UInt32

def batchingKey (routePath : RoutePath) : BatchingKey := (routePath.key.afiSafi, routePath.path.attrs, routePath.path.localPathId)

def addToBatch (batches : AssocMap BatchingKey AnnouncementBatch) (routePath : RoutePath) : AssocMap BatchingKey AnnouncementBatch :=
  let batch := (batches.lookup (batchingKey routePath)).getD ⟨routePath.key.afiSafi, routePath.path, []⟩
  batches.insert (batchingKey routePath) { batch with keys := batch.keys ++ [routePath.key] }

def batchAnnouncements (order : HashOrder BatchingKey) (toAnnounce : List RoutePath) : List AnnouncementBatch :=
  let batches := toAnnounce.foldl addToBatch ∅
  (order.keys batches.keys).filterMap fun key => batches.lookup key

-- A message that is too long is dropped, and nothing is told to the caller.
def sendBatchedAnnouncements (order : HashOrder BatchingKey) (toSend : List RoutePath) (format : MessageFormat) : List UpdateMessage :=
  ((batchAnnouncements order toSend).map fun batch => batch.toUpdate format).filter fun message =>
    message.serialize.length ≤ MAX_MESSAGE_SIZE

def sendFamily (order : HashOrder BatchingKey) (ctx : PeerExportContext) (exported : FamilyExport) : List UpdateMessage :=
  sendWithdrawals exported.withdrawals ctx.sendFormat ++ sendBatchedAnnouncements order exported.announcements ctx.sendFormat

def sentUpdates {Alloc : Type} (order : HashOrder BatchingKey) (ctx : PeerExportContext) (delta : RouteDelta)
    (locRib : LocRib Alloc) (adjRibOut : AdjRibOut) : List UpdateMessage :=
  (propagateRoutesToPeer ctx delta locRib adjRibOut).2.flatMap (sendFamily order ctx)

end Bgpgg.Peer
