import Bgpgg.Peer.Fsm

namespace Bgpgg.Peer

open Net Rib Server

inductive RouteRefreshSubtype where
  | normal
  | boRR
  | eoRR
  | unknown (code : UInt8)
deriving DecidableEq, Repr

-- An UPDATE is given by what eor_afi_safi and handle_update make of it.
inductive BgpMessage where
  | opens (message : OpenMessage)
  | update (eor : Option AfiSafi) (announced : List RoutePath) (withdrawn : List Withdrawal)
  | keepalive
  | notification (notif : NotificationMessage)
  | routeRefresh (afiSafi : AfiSafi) (subtype : RouteRefreshSubtype)

-- What comes out of the read task of a connection, parsed. An error carries the NOTIFICATION
-- that from_parser_error makes of it.
inductive Incoming where
  | message (message : BgpMessage)
  | parseError (notif : Option NotificationMessage)
  | readError (notif : Option NotificationMessage)
  | closed

inductive PlainMessage where
  | opens (message : OpenMessage)
  | keepalive
  | notification (notif : NotificationMessage)
deriving DecidableEq, Repr

inductive PeerDownReason where
  | localNotification (notif : NotificationMessage)
  | localNoNotification (event : FsmEvent)
  | remoteNotification (notif : NotificationMessage)
  | remoteNoNotification
  | peerDeConfigured
deriving DecidableEq, Repr

inductive AdminState where
  | up
  | down
  | prefixLimitReached
deriving DecidableEq, Repr

-- The operations a peer task sends to the server, but for PeerUpdate.
inductive Report where
  | peerStateChanged (state : BgpState)
  | peerHandshakeComplete (asn : UInt32)
  | peerConnectionInfo (conn : Nat) (sentOpen receivedOpen : OpenMessage) (capabilities : PeerCapabilities)
  | peerDisconnected (reason : PeerDownReason) (grAfiSafis : List AfiSafi)
  | setAdminState (state : AdminState)
  | routeRefresh (afiSafi : AfiSafi)
  | routeRefreshBoRR (afiSafi : AfiSafi)
  | routeRefreshEoRR (afiSafi : AfiSafi)
  | gracefulRestartTimerExpired (llgrAfiSafis : List (AfiSafi × UInt32))
  | gracefulRestartComplete (afiSafi : AfiSafi)
deriving DecidableEq, Repr

inductive Action where
  | write (conn : Nat) (message : PlainMessage)
  | report (op : Report)
deriving DecidableEq, Repr

structure TaskConfig where
  passiveMode : Bool := false
  idleHoldTimeSecs : Option Nat := some 30
  delayOpenTimeSecs : Option Nat := none
  sendNotificationWithoutOpen : Bool := false
  minRouteAdvertisementIntervalSecs : Option Nat := none
  adminDown : Bool := false
deriving DecidableEq, Repr

-- restart_timer is the list that the spawned timer will send, none when it has fired or was
-- aborted. What in_restart records is read by nothing.
structure GracefulRestartState where
  restartTimer : Option (List (AfiSafi × UInt32))
  eorReceived : List AfiSafi := []
  afiSafis : List AfiSafi
  eorSent : List AfiSafi := []
  locRibReceived : List AfiSafi := []
deriving DecidableEq, Repr

-- The fields of Peer that the state machine works on: all but the queues of routes and
-- updates. Connections are numbered. The number of sessions that have reached Established,
-- the writes that still succeed and the actions done so far are not part of the source's
-- state; the last two are inputs and outputs of a step.
structure Control where
  fsm : Fsm := {}
  config : TaskConfig := {}
  speaker : Speaker
  conn : Option Nat := none
  connPending : Option Nat := none
  connDialed : Bool := false
  manuallyStopped : Bool := false
  openSent : Bool := false
  sentOpen : Option OpenMessage := none
  receivedOpen : Option OpenMessage := none
  capabilities : PeerCapabilities := noCapabilities
  routeRefresh : Bool := false
  restartTime : UInt16 := 0
  grState : Option GracefulRestartState := none
  session : Nat := 0
  writesLeft : Nat := 0
  out : List Action := []

namespace OpenMessage

variable (message : OpenMessage)

def sentCapabilities : List Capability := message.optionalParams.flatMap OptionalParam.capabilities

def offersRouteRefresh : Bool := message.sentCapabilities.any fun cap => cap.code == .routeRefresh

-- The restart time of the capability that extract_capabilities keeps: the last one.
def restartTime : UInt16 :=
  match (message.sentCapabilities.filter fun cap => cap.code == .gracefulRestart).getLast?.map Capability.val with
  | some (first :: second :: _) => ((first &&& 0x0F).toUInt16 <<< 8) ||| second.toUInt16
  | _ => 0

end OpenMessage

def PeerCapabilities.grAfiSafis (capabilities : PeerCapabilities) : List AfiSafi :=
  ((capabilities.gracefulRestart.map GracefulRestartCapability.afiSafiList).getD []).map Prod.fst

namespace Control

variable (control : Control) (reason : PeerDownReason) (newState : BgpState) (event : FsmEvent)

def getIdleHoldTime : Option Nat := control.config.idleHoldTimeSecs

def autoReconnect : Bool := control.getIdleHoldTime.isSome && !control.manuallyStopped

def report (control : Control) (op : Report) : Control := { control with out := control.out ++ [.report op] }

abbrev Outcome := Bool × Control

def andThen (outcome : Outcome) (next : Control → Outcome) : Outcome := if outcome.1 then next outcome.2 else outcome

def writeTo (conn : Nat) (message : PlainMessage) : Outcome := match control.writesLeft with
  | 0 => (false, control)
  | left + 1 => (true, { control with writesLeft := left, out := control.out ++ [.write conn message] })

def write (message : PlainMessage) : Outcome := match control.conn with
  | none => (false, control)
  | some conn => control.writeTo conn message

def startConnectRetry : Control := { control with fsm.timers.connectRetry := true }
def stopConnectRetry : Control := { control with fsm.timers.connectRetry := false }
def startHoldTimer : Control := { control with fsm.timers.hold := true }
def startDelayOpenTimer : Control := { control with fsm.timers.delayOpen := true }
def stopDelayOpenTimer : Control := { control with fsm.timers.delayOpen := false }

def stopSessionTimers : Control := { control with fsm.timers.hold := false, fsm.timers.keepalive := false }

def heardFromPeer : Control := if control.fsm.timers.holdTime > 0 then control.startHoldTimer else control

def sendOpen : Outcome := andThen (control.write (.opens control.speaker.buildOpenMessage)) fun control =>
    (true, { control with sentOpen := some control.speaker.buildOpenMessage, openSent := true })

def restartKeepaliveTimer : Control := if control.fsm.timers.holdTime > 0 then { control with fsm.timers.keepalive := true } else control

def sendKeepalive : Outcome := andThen (control.write .keepalive) fun control => (true, control.restartKeepaliveTimer)

def canSendNotification : Bool := control.conn.isSome && (control.config.sendNotificationWithoutOpen || control.openSent)

section

variable (pending : Nat) (subcode : CeaseSubcode) (message : OpenMessage) (notif : NotificationMessage)

def sendNotification : Outcome := if control.canSendNotification then control.write (.notification notif) else (true, control)

def shouldPreserveRoutesWithGr : Bool := match reason with
  | .remoteNotification _ | .localNotification _ => false
  | _ =>
    control.fsm.state == .established && !control.capabilities.grAfiSafis.isEmpty && (control.restartTime > 0 ||
        (control.capabilities.llgr.map LlgrCapability.entries).any fun entries => entries.any fun entry => entry.staleTime > 0)

def startGrRestartTimer : Control := if control.capabilities.grAfiSafis.isEmpty then control
  else
    let llgrAfiSafis := ((control.capabilities.llgr.map LlgrCapability.entries).getD []).map fun entry =>
      (entry.afiSafi, entry.staleTime)
    { control with grState := some { restartTimer := some llgrAfiSafis, afiSafis := control.capabilities.grAfiSafis.dedup } }

-- The damping counter decides how long the idle hold is, which is an input.
def disconnect : Control := let grAfiSafis := if control.shouldPreserveRoutesWithGr reason then control.capabilities.grAfiSafis else []
  let closed := { control with conn := none, connPending := none, connDialed := false }.stopSessionTimers.stopDelayOpenTimer
  if control.conn.isSome then
    (if grAfiSafis.isEmpty then closed else closed.startGrRestartTimer).report (.peerDisconnected reason grAfiSafis)
  else closed

def transitionToIdleOnError : Control := (control.disconnect reason).stopConnectRetry.stopSessionTimers

def closeAs (reason : PeerDownReason) : Control := (control.sendNotification notif).2.transitionToIdleOnError reason

def closeWith : Control := control.closeAs notif (.localNotification notif)

def administrativeShutdown : NotificationMessage := ⟨.cease .administrativeShutdown, []⟩
def fsmErrorNotification : NotificationMessage := ⟨.finiteStateMachineError, []⟩

def handleManualStop : Outcome := (true, { control with manuallyStopped := true }.closeWith administrativeShutdown)

def adminStateOf : AdminState := if subcode = .maxPrefixesReached then .prefixLimitReached else .down

def handleAutomaticStop : Outcome := (false, (control.closeWith ⟨.cease subcode, []⟩).report (.setAdminState (adminStateOf subcode)))

def handleHoldTimerExpires : Outcome := (true, control.closeWith ⟨.holdTimerExpired, []⟩)

def handleBgpMessageError : Outcome := (true, control.closeWith notif)

def handleFsmError : Outcome := (false, control.closeWith fsmErrorNotification)

-- enter_open_confirm assigns the capabilities before its last check, for a large local ASN.
def noteCapabilities : Control := let peerCaps := extractCapabilities message
  { control with
    capabilities := { peerCaps with
      multiprotocol := negotiateMultiprotocol (advertisedAfiSafis control.speaker.config) peerCaps.multiprotocol
      addPath := control.speaker.negotiateAddPath peerCaps }
    routeRefresh := message.offersRouteRefresh
    restartTime := message.restartTime
    fsm.gracefulRestartNegotiated := peerCaps.gracefulRestart.isSome }

def startSessionTimers : Control := if control.fsm.timers.holdTime ≠ 0 then control.startHoldTimer else control.stopSessionTimers

def enterOpenConfirm (control : Control) (message : OpenMessage) : Outcome := match control.speaker.enterOpenConfirm message with
  | .ok negotiated =>
    let control := { control.noteCapabilities message with fsm.timers.holdTime := negotiated.holdTime.toNat }
    andThen control.sendKeepalive fun control =>
      (true, control.startSessionTimers.report (.peerHandshakeComplete negotiated.asn))
  | .err rejection =>
    let control := if rejection.notification.error = .unsupportedOptionalParameter then control.noteCapabilities message else control
    (false, (control.sendNotification (.ofRejection rejection)).2)
  | .fault _ => (false, control)

def idleTransitions : Outcome := match newState with
  | .connect | .active => (true, control.startConnectRetry)
  | _ => (true, control)

def enterOpenSent : Outcome := { control with fsm.timers.holdTime := INITIAL_HOLD_TIME }.startHoldTimer.sendOpen

def openWithDelayOpen : Outcome :=
  andThen control.stopConnectRetry.stopDelayOpenTimer.sendOpen fun control => control.enterOpenConfirm message

def stopAndDisconnect : Control := control.stopConnectRetry.stopDelayOpenTimer.disconnect reason

def connectTransitions : Outcome := match newState, event with
  | .connect, .connectRetryTimerExpires | .active, .tcpConnectionFails =>
    (true, (control.disconnect .remoteNoNotification).stopDelayOpenTimer.startConnectRetry)
  | .idle, .bgpHeaderErr notif | .idle, .bgpOpenMsgErr notif =>
    (true, (control.sendNotification notif).2.stopAndDisconnect .remoteNoNotification)
  | .idle, .notifMsgVerErr notif | .idle, .notifMsg notif => (true, control.stopAndDisconnect (.remoteNotification notif))
  | .idle, .manualStop =>
    (true, { control.disconnect .remoteNoNotification with manuallyStopped := true }.stopConnectRetry)
  | .idle, .bgpKeepaliveReceived | .idle, .bgpUpdateReceived =>
    (false, (control.sendNotification fsmErrorNotification).2.stopAndDisconnect .remoteNoNotification)
  | .idle, .automaticStop _ | .idle, .holdTimerExpires | .idle, .keepaliveTimerExpires
  | .idle, .idleHoldTimerExpires | .idle, .bgpOpenReceived _ | .idle, .bgpUpdateMsgErr _ =>
    (true, control.stopAndDisconnect .remoteNoNotification)
  | .openSent, .delayOpenTimerExpires => control.stopDelayOpenTimer.enterOpenSent
  | .openSent, .tcpConnectionConfirmed => control.stopConnectRetry.enterOpenSent
  | .openConfirm, .bgpOpenWithDelayOpenTimer message => control.openWithDelayOpen message
  | _, _ => (true, control)

def activeTransitions : Outcome := match newState, event with
  | .connect, .connectRetryTimerExpires => (true, control.startConnectRetry)
  | .idle, .tcpConnectionFails =>
    (true, (control.disconnect .remoteNoNotification).stopDelayOpenTimer.startConnectRetry)
  | .idle, .bgpHeaderErr notif | .idle, .bgpOpenMsgErr notif =>
    (true, (control.sendNotification notif).2.stopAndDisconnect .remoteNoNotification)
  | .idle, .notifMsgVerErr notif | .idle, .notifMsg notif => (true, control.stopAndDisconnect (.remoteNotification notif))
  | .idle, .bgpKeepaliveReceived | .idle, .bgpUpdateReceived =>
    (false, ((control.sendNotification fsmErrorNotification).2.stopConnectRetry).disconnect .remoteNoNotification)
  | .idle, .automaticStop _ | .idle, .holdTimerExpires | .idle, .keepaliveTimerExpires
  | .idle, .idleHoldTimerExpires | .idle, .bgpOpenReceived _ | .idle, .bgpUpdateMsgErr _ =>
    (true, control.stopConnectRetry.disconnect .remoteNoNotification)
  | .idle, .manualStop =>
    let control := if control.fsm.timers.delayOpen && control.config.sendNotificationWithoutOpen then
        (control.sendNotification administrativeShutdown).2
      else control
    (true, { control.disconnect .remoteNoNotification with manuallyStopped := true }.stopConnectRetry.stopDelayOpenTimer)
  | .openSent, .delayOpenTimerExpires => control.stopConnectRetry.stopDelayOpenTimer.enterOpenSent
  | .openSent, .tcpConnectionConfirmed => control.stopConnectRetry.enterOpenSent
  | .openConfirm, .bgpOpenWithDelayOpenTimer message => control.openWithDelayOpen message
  | _, _ => (true, control)

def openSentTransitions : Outcome := match newState, event with
  | .idle, .manualStop =>
    (true, { control with manuallyStopped := true }.closeAs administrativeShutdown .remoteNoNotification)
  | .idle, .automaticStop subcode =>
    (false, (control.closeAs ⟨.cease subcode, []⟩ .remoteNoNotification).report (.setAdminState (adminStateOf subcode)))
  | .idle, .holdTimerExpires => (true, control.closeAs ⟨.holdTimerExpired, []⟩ .remoteNoNotification)
  | .active, .tcpConnectionFails => (true, (control.disconnect .remoteNoNotification).startConnectRetry)
  | .idle, .bgpHeaderErr notif | .idle, .bgpOpenMsgErr notif =>
    (true, ((control.sendNotification notif).2.disconnect .remoteNoNotification).stopConnectRetry)
  | .idle, .notifMsgVerErr notif => (true, control.stopConnectRetry.disconnect (.remoteNotification notif))
  | .idle, .notifMsg notif =>
    (true, (control.sendNotification fsmErrorNotification).2.stopConnectRetry.disconnect (.remoteNotification notif))
  | .idle, .connectRetryTimerExpires | .idle, .keepaliveTimerExpires | .idle, .delayOpenTimerExpires
  | .idle, .idleHoldTimerExpires | .idle, .bgpKeepaliveReceived | .idle, .bgpUpdateReceived =>
    (false, (control.sendNotification fsmErrorNotification).2.stopConnectRetry.disconnect .remoteNoNotification)
  | .idle, .bgpUpdateMsgErr notif =>
    (false, ((control.sendNotification notif).2.disconnect .remoteNoNotification).stopSessionTimers)
  | .openConfirm, .bgpOpenReceived message | .openConfirm, .bgpOpenWithDelayOpenTimer message =>
    control.stopDelayOpenTimer.stopConnectRetry.enterOpenConfirm message
  | _, _ => (true, control)

def enterEstablished : Control := let control := { control.startHoldTimer with session := control.session + 1 }
  match control.sentOpen, control.receivedOpen, control.conn with
  | some sentOpen, some receivedOpen, some conn =>
    control.report (.peerConnectionInfo conn sentOpen receivedOpen control.capabilities)
  | _, _, _ => control

def openConfirmTransitions : Outcome := match newState, event with
  | .idle, .manualStop => control.handleManualStop
  | .idle, .automaticStop subcode => control.handleAutomaticStop subcode
  | .idle, .holdTimerExpires => control.handleHoldTimerExpires
  | .idle, .tcpConnectionFails => (true, control.transitionToIdleOnError .remoteNoNotification)
  | .idle, .notifMsgVerErr notif => (true, (control.disconnect (.remoteNotification notif)).stopConnectRetry)
  | .idle, .notifMsg notif => (true, control.transitionToIdleOnError (.remoteNotification notif))
  | .idle, .bgpHeaderErr notif | .idle, .bgpOpenMsgErr notif => control.handleBgpMessageError notif
  | .openConfirm, .keepaliveTimerExpires => control.sendKeepalive
  | .established, .bgpKeepaliveReceived => (true, control.enterEstablished)
  | .idle, .connectRetryTimerExpires | .idle, .delayOpenTimerExpires | .idle, .idleHoldTimerExpires
  | .idle, .bgpOpenWithDelayOpenTimer _ | .idle, .bgpUpdateReceived | .idle, .bgpUpdateMsgErr _ => control.handleFsmError
  | _, _ => (true, control)

def establishedTransitions : Outcome := match newState, event with
  | .idle, .manualStop => control.handleManualStop
  | .idle, .automaticStop subcode => control.handleAutomaticStop subcode
  | .idle, .holdTimerExpires => control.handleHoldTimerExpires
  | .idle, .bgpUpdateMsgErr notif => (false, (control.handleBgpMessageError notif).2)
  | .idle, .tcpConnectionFails => (true, control.transitionToIdleOnError .remoteNoNotification)
  | .idle, .notifMsg notif | .idle, .notifMsgVerErr notif =>
    (true, control.transitionToIdleOnError (.remoteNotification notif))
  | .established, .keepaliveTimerExpires => control.sendKeepalive
  | .established, .bgpKeepaliveReceived | .established, .bgpUpdateReceived => (true, control.heardFromPeer)
  | .idle, .connectRetryTimerExpires | .idle, .delayOpenTimerExpires | .idle, .idleHoldTimerExpires
  | .idle, .bgpOpenWithDelayOpenTimer _ | .idle, .bgpHeaderErr _ | .idle, .bgpOpenMsgErr _ => control.handleFsmError
  | _, _ => (true, control)

def transitions (oldState newState : BgpState) (event : FsmEvent) : Outcome := match oldState with
  | .idle => control.idleTransitions newState
  | .connect => control.connectTransitions newState event
  | .active => control.activeTransitions newState event
  | .openSent => control.openSentTransitions newState event
  | .openConfirm => control.openConfirmTransitions newState event
  | .established => control.establishedTransitions newState event

def notifyStateChange : Control := control.report (.peerStateChanged control.fsm.state)

def processEvent (control : Control) (event : FsmEvent) : Outcome := let newState := control.fsm.handleEvent event
  andThen ({ control with fsm.state := newState }.transitions control.fsm.state newState event) fun acted =>
    (true, if control.fsm.state ≠ newState then acted.notifyStateChange else acted)

def tryProcessEvent : Control := (control.processEvent event).2

def orDisconnect (outcome : Outcome) (reason : PeerDownReason) : Control := if outcome.1 then outcome.2 else outcome.2.disconnect reason

def connectionReady : Control := if control.config.delayOpenTimeSecs.isSome then control.stopConnectRetry.startDelayOpenTimer
  else orDisconnect (control.stopConnectRetry.processEvent .tcpConnectionConfirmed) (.localNoNotification .tcpConnectionConfirmed)

def localWinsCollision : Bool :=
  if control.speaker.localConfig.bgpId ≠ message.bgpIdentifier then control.speaker.localConfig.bgpId > message.bgpIdentifier
  else control.speaker.localConfig.asn > (extractCapabilities message).fourOctetAsn.getD message.asn

def resolveCollisionDialedWins : Control := { control with connPending := none }

def replaceConnWithPending : Control := { control with conn := some pending, connPending := none, connDialed := false }

def sendOpenOrDisconnect : Outcome := if control.sendOpen.1 then control.sendOpen
  else (false, control.sendOpen.2.disconnect (.localNoNotification .tcpConnectionFails))

def promotePendingAfterConnLoss : Control := let control := control.replaceConnWithPending pending
  if control.fsm.timers.delayOpen then control.stopDelayOpenTimer.connectionReady else control.sendOpenOrDisconnect.2

def handleOpen : Outcome := { control with receivedOpen := some message }.processEvent (.bgpOpenReceived message)

def processDelayOpen : Control := orDisconnect
    ({ control.stopDelayOpenTimer with receivedOpen := some message }.processEvent (.bgpOpenWithDelayOpenTimer message))
    (.localNoNotification (.bgpOpenWithDelayOpenTimer message))

def collisionResolution : NotificationMessage := ⟨.cease .connectionCollisionResolution, []⟩

def adoptWithDelayOpen (message : Option OpenMessage) : Control := match message with
  | some message => control.processDelayOpen message
  | none => control.stopDelayOpenTimer.connectionReady

def openPromoted (message : Option OpenMessage) : Control := match message with
  | some message =>
    if control.sendOpenOrDisconnect.1 then
      orDisconnect (control.sendOpenOrDisconnect.2.handleOpen message) .remoteNoNotification
    else control.sendOpenOrDisconnect.2
  | none => control.sendOpenOrDisconnect.2

def adoptPendingAfterCollisionLoss (message : Option OpenMessage) : Control := let delayOpen := control.fsm.timers.delayOpen
  let told := if delayOpen then control else (control.sendNotification collisionResolution).2
  match told.connPending with
  | none => told
  | some pending =>
    if delayOpen then (told.replaceConnWithPending pending).adoptWithDelayOpen message
    else (told.replaceConnWithPending pending).openPromoted message

def resolveCollision : Control := if control.localWinsCollision message then control.resolveCollisionDialedWins
  else control.adoptPendingAfterCollisionLoss (some message)

def handleConnPendingMsg : Incoming → Control
  | .message (.opens message) => control.resolveCollision message
  | _ => { control with connPending := none }

def startEvent : FsmEvent := if control.config.passiveMode then .automaticStartPassive else .automaticStart

def grNegotiated : Bool := (control.capabilities.gracefulRestart.map GracefulRestartCapability.afiSafiList).any fun list => !list.isEmpty

def connectionRejected : NotificationMessage := ⟨.cease .connectionRejected, []⟩

-- A refused or dropped connection is closed. The Cease on a rejected one is written by a task
-- of its own.
def onConnAccepted (accepted : Nat) : Control := let adopted := { control with conn := some accepted, connDialed := false }
  let held := if control.connDialed && control.connPending.isNone then { control with connPending := some accepted } else control
  match control.fsm.state with
  | .idle => if control.autoReconnect then adopted.tryProcessEvent control.startEvent else control
  | .connect | .active => if control.conn.isNone then adopted.connectionReady else held
  | .openSent => held
  | .openConfirm => control
  | .established =>
    if !control.grNegotiated then (control.writeTo accepted (.notification connectionRejected)).2
    else
      { (control.disconnect .remoteNoNotification).tryProcessEvent .tcpConnectionConfirmed with
        conn := some accepted, connDialed := false }

def trackNotification : Control := if notif.error = .openMessageError .unsupportedOptionalParameter then
    { control with speaker.capabilitiesSuppressed := true }
  else control

def handleNotificationReceived : Control :=
  control.tryProcessEvent (if notif.isVersionError then .notifMsgVerErr notif else .notifMsg notif)

end

def parseErrorToFsmEvent : Option NotificationMessage → FsmEvent
  | none => .tcpConnectionFails
  | some notif =>
    match notif.error with
    | .messageHeaderError _ => .bgpHeaderErr notif
    | .openMessageError _ => .bgpOpenMsgErr notif
    | _ => .tcpConnectionFails

def handleDelayOpenMessage : Incoming → Control
  | .message (.opens message) =>
    if control.connPending.isSome && !control.localWinsCollision message then
      control.adoptPendingAfterCollisionLoss none
    else control.resolveCollisionDialedWins.processDelayOpen message
  | .message (.notification notif) => (control.trackNotification notif).handleNotificationReceived notif
  | .message _ => control.disconnect .remoteNoNotification
  | .parseError notif => control.tryProcessEvent (parseErrorToFsmEvent notif)
  | .readError notif =>
    match control.connPending with
    | some pending => control.promotePendingAfterConnLoss pending
    | none => control.tryProcessEvent (parseErrorToFsmEvent notif)
  | .closed =>
    match control.connPending with
    | some pending => control.promotePendingAfterConnLoss pending
    | none => control.tryProcessEvent .tcpConnectionFails

def failWith : Option NotificationMessage → Control
  | some notif => (control.sendNotification notif).2.disconnect (.localNotification notif)
  | none => control.disconnect .remoteNoNotification

-- The Cease goes out even before an OPEN.
def hardReset : Control := (control.write (.notification ⟨.cease .administrativeReset, []⟩)).2.tryProcessEvent
    (.notifMsgVerErr ⟨.cease .administrativeReset, []⟩)

end Control

end Bgpgg.Peer
