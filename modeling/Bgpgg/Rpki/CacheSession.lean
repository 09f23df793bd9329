import Bgpgg.Rpki.Manager

namespace Bgpgg.Rpki

open Net

inductive ErrorCode where
  | corruptData
  | internalError
  | noDataAvailable
  | invalidRequest
  | unsupportedProtocolVersion
  | unsupportedMessageType
  | withdrawalOfUnknownRecord
  | duplicateAnnouncementReceived
  | unexpectedProtocolVersion
deriving DecidableEq, Repr

def ErrorCode.debug : ErrorCode → String
  | corruptData => "CorruptData"
  | internalError => "InternalError"
  | noDataAvailable => "NoDataAvailable"
  | invalidRequest => "InvalidRequest"
  | unsupportedProtocolVersion => "UnsupportedProtocolVersion"
  | unsupportedMessageType => "UnsupportedMessageType"
  | withdrawalOfUnknownRecord => "WithdrawalOfUnknownRecord"
  | duplicateAnnouncementReceived => "DuplicateAnnouncementReceived"
  | unexpectedProtocolVersion => "UnexpectedProtocolVersion"

-- Serial numbers compare by RFC 1982: the difference as a signed number.
def serialAtLeast (serial other : UInt32) : Bool := !(decide (0 < (other - serial).toNat) && decide ((other - serial).toNat < 2 ^ 31))

structure PrefixPdu (Address : Type) where
  flags : UInt8
  prefixLength : UInt8
  maxLength : UInt8
  pfx : Address
  asn : UInt32
deriving DecidableEq, Repr

def PrefixPdu.isAnnouncement {Address : Type} (pdu : PrefixPdu Address) : Bool := pdu.flags &&& 1 != 0

-- The timers that EndOfData carries and the fields of a router key decide nothing here.
inductive Message where
  | serialNotify (sessionId : UInt16) (serial : UInt32)
  | serialQuery (sessionId : UInt16) (serial : UInt32)
  | resetQuery
  | cacheResponse (sessionId : UInt16)
  | ipv4Prefix (pdu : PrefixPdu Ipv4Addr)
  | ipv6Prefix (pdu : PrefixPdu Ipv6Addr)
  | endOfData (sessionId : UInt16) (serial : UInt32)
  | cacheReset
  | routerKey
  | errorReport (errorCode : ErrorCode) (errorText : String)
deriving DecidableEq, Repr

-- An address is printed and parsed again on the way, which gives it back.
def makeIpNetwork (addr : IpAddr) (prefixLen : UInt8) : Option IpNetwork := match addr with
  | .v4 v4 => if prefixLen > 32 then none else some (.v4 ⟨v4, prefixLen⟩)
  | .v6 v6 => if prefixLen > 128 then none else some (.v6 ⟨v6, prefixLen⟩)

inductive SessionResult where
  | shutdown
  | disconnected
  | fatalError (message : String)
deriving DecidableEq, Repr

structure CacheSession where
  address : SocketAddr
  sessionId : Option UInt16
  serialNumber : Option UInt32
  localVrps : Finset Vrp
  syncing : Bool
  pendingAnnounced : Finset Vrp
  pendingWithdrawn : Finset Vrp

-- What handling a message leaves: the session, what it wrote to the cache, what it
-- reported to the manager, and whether the connection is over.
structure Handled where
  session : CacheSession
  written : List Message
  batch : Option VrpBatch
  result : Option SessionResult

namespace CacheSession

def new (address : SocketAddr) : CacheSession := ⟨address, none, none, ∅, false, ∅, ∅⟩

variable (session : CacheSession) (writes : Bool)

def hasSerial : Bool := session.serialNumber.isSome

def resetSession : CacheSession := { session with sessionId := none, serialNumber := none }

def buildQuery : Message := match session.sessionId, session.serialNumber with
  | some sessionId, some serial => .serialQuery sessionId serial
  | _, _ => .resetQuery

def goOn : Handled := ⟨session, [], none, none⟩

section

variable (code : ErrorCode) (text : String) (sessionId : UInt16) (serial : UInt32)

def protocolError : Handled := ⟨session.resetSession, [.errorReport code text], none, some .disconnected⟩

def handleMsgSerialNotify (writes : Bool) : Handled :=
  if session.serialNumber.any fun ourSerial => serialAtLeast ourSerial serial then session.goOn
  else if writes then ⟨{ session with syncing := false }, [session.buildQuery], none, none⟩
  else ⟨session.resetSession, [], none, some .disconnected⟩

def handleMsgCacheResponse : Handled := if session.sessionId.any fun expected => sessionId != expected then
    session.protocolError .corruptData "session ID mismatch"
  else
    let session := { session with sessionId := some sessionId }
    if session.syncing then session.protocolError .corruptData "CacheResponse while sync already in progress"
    else goOn { session with syncing := true, pendingAnnounced := ∅, pendingWithdrawn := ∅ }

def handleMsgPrefix (isAnnouncement : Bool) (vrp : Option Vrp) : Handled :=
  if !session.syncing then session.protocolError .corruptData "prefix PDU outside of sync cycle"
  else
    match vrp with
    | none => session.goOn
    | some vrp =>
      if isAnnouncement then
        if vrp ∈ session.pendingAnnounced then
          session.protocolError .duplicateAnnouncementReceived "duplicate announcement in sync cycle"
        else
          let session := { session with pendingAnnounced := insert vrp session.pendingAnnounced }
          if session.hasSerial = true ∧ vrp ∈ session.localVrps then
            session.protocolError .duplicateAnnouncementReceived "duplicate announcement of existing VRP"
          else session.goOn
      else if !session.hasSerial then
        session.protocolError .corruptData "withdrawal in reset response, expected announcements only"
      else if vrp ∉ session.localVrps then
        session.protocolError .withdrawalOfUnknownRecord "withdrawal of unknown record"
      else goOn { session with pendingWithdrawn := insert vrp session.pendingWithdrawn }

def handleMsgEndOfData : Handled := if !session.syncing then session.protocolError .corruptData "EndOfData outside of sync cycle"
  else
    let localVrps := if !session.hasSerial then session.pendingAnnounced
      else (session.localVrps ∪ session.pendingAnnounced) \ session.pendingWithdrawn
    let session := { session with
      syncing := false
      localVrps := localVrps
      serialNumber := some serial
      pendingAnnounced := ∅
      pendingWithdrawn := ∅ }
    ⟨session, [], some ⟨session.address, sessionId, serial, session.localVrps⟩, none⟩

def handleMsgErrorReport : Handled := match code with
  | .noDataAvailable => session.goOn
  | _ => ⟨session, [], none, some (.fatalError ("error report from cache: " ++ code.debug ++ " - " ++ text))⟩

end

def handleMsgCacheReset : Handled := let session := { session with localVrps := ∅ }.resetSession
  if writes then ⟨{ session with syncing := false }, [.resetQuery], none, none⟩
  else ⟨session, [], none, some .disconnected⟩

def pduVrp {Address : Type} (wrap : Address → IpAddr) (pdu : PrefixPdu Address) : Option Vrp :=
  (makeIpNetwork (wrap pdu.pfx) pdu.prefixLength).map fun net => ⟨net, pdu.maxLength, pdu.asn⟩

def handleMessage : Message → Handled
  | .serialNotify _ serial => session.handleMsgSerialNotify serial writes
  | .cacheResponse sessionId => session.handleMsgCacheResponse sessionId
  | .ipv4Prefix pdu => session.handleMsgPrefix pdu.isAnnouncement (pduVrp IpAddr.v4 pdu)
  | .ipv6Prefix pdu => session.handleMsgPrefix pdu.isAnnouncement (pduVrp IpAddr.v6 pdu)
  | .endOfData sessionId serial => session.handleMsgEndOfData sessionId serial
  | .cacheReset => session.handleMsgCacheReset writes
  | .errorReport code text => session.handleMsgErrorReport code text
  | .routerKey => session.goOn
  | .resetQuery => session.goOn
  | .serialQuery _ _ => session.goOn

-- The start of run_session, and what its two timers do. None is a failed write.
def startSession : Option (CacheSession × Message) :=
  if writes then some ({ session with syncing := false }, session.buildQuery) else none

def handleRefresh : Handled := match session.sessionId, session.serialNumber with
  | some sessionId, some serial =>
    if writes then ⟨{ session with syncing := false }, [.serialQuery sessionId serial], none, none⟩
    else ⟨session, [], none, some .disconnected⟩
  | _, _ => session.goOn

def handleExpire : CacheSession := { session with localVrps := ∅ }

end CacheSession

end Bgpgg.Rpki
