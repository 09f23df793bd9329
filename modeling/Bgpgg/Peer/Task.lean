import Bgpgg.Peer.Control

namespace Bgpgg.Peer

open Net Rib Server

-- The requests for statistics and capabilities are answered on a channel of their own.
inductive PeerOp where
  | sendUpdate (bytes : List UInt8)
  | sendRouteRefresh (afiSafi : AfiSafi) (subtype : RouteRefreshSubtype)
  | getStatistics
  | getNegotiatedCapabilities
  | shutdown (subcode : CeaseSubcode)
  | hardReset
  | manualStart
  | manualStop
  | automaticStart
  | manualStartPassive
  | automaticStartPassive
  | tcpConnectionAccepted (conn : Nat)
  | localRibSent (afiSafi : AfiSafi)
deriving DecidableEq, Repr

-- The number of an operation in the order of queueing, and the session of the peer in which
-- the server queued it.
structure Stamp where
  serial : Nat
  session : Nat
deriving DecidableEq, Repr

-- What a task does that the peer or the server can see, each with the session it belongs to.
-- A message made for an operation of the server carries that operation's stamp, a route the
-- session it was parsed in.
inductive Effect where
  | dial
  | action (session : Nat) (action : Action)
  | update (session conn : Nat) (stamp : Stamp) (bytes : List UInt8)
  | routeRefresh (session conn : Nat) (stamp : Stamp) (afiSafi : AfiSafi) (subtype : RouteRefreshSubtype)
  | endOfRib (session conn : Nat) (stamp : Stamp) (afiSafi : AfiSafi)
  | peerUpdate (routes : List (Nat × PendingRoute))
deriving DecidableEq, Repr

-- The operations wait in peer_rx. Whether the interval since the last UPDATE has passed is
-- an input.
structure PeerTask where
  control : Control
  dialing : Bool := false
  queue : List (Stamp × PeerOp) := []
  queued : Nat := 0
  closed : Bool := false
  lastUpdateSent : Bool := false
  pendingUpdates : List (Stamp × List UInt8) := []
  pendingRoutes : List (Nat × PendingRoute) := []
  running : Bool := true
  shutdownTaken : Bool := false
  log : List Effect := []

structure Expired where
  connectRetry : Bool := false
  hold : Bool := false
  keepalive : Bool := false
  delayOpen : Bool := false
deriving DecidableEq, Repr

-- What the select loops wait for, one constructor for each kind of branch. proceed is a step
-- that waits for nothing; it looks up the interface when it dials. The first two are the
-- server's doing, and a timer for graceful restart is a task of its own.
inductive Event where
  | queue (session : Nat) (op : PeerOp)
  | close
  | grTimer
  | proceed (resolved : Bool)
  | takeOp (elapsed : Bool)
  | receive (incoming : Incoming)
  | receivePending (incoming : Incoming)
  | tick (expired : Expired)
  | idleHold
  | connectRetry
  | dialed (conn : Option Nat)
  | flush
  | mrai

structure Input where
  event : Event
  writes : Nat := 8

def ROUTE_FLUSH_WATERMARK : Nat := 1000

namespace PeerTask

def new (config : TaskConfig) (speaker : Speaker) : PeerTask := { control := {
      fsm := { passiveMode := config.passiveMode }
      config := config
      speaker := speaker
      manuallyStopped := config.adminDown } }

variable (task : PeerTask) (stamp : Stamp) (afiSafi : AfiSafi) (subtype : RouteRefreshSubtype) (update : Stamp × List UInt8)
  (event : Event)

def stop : PeerTask := { task with running := false }

def fresh : Control := { task.control with out := [] }

def performs (act : Control → Control.Outcome) : Bool × PeerTask := let outcome := act task.fresh
  (outcome.1, { task with
    control := { outcome.2 with out := [] }
    log := task.log ++ outcome.2.out.map (Effect.action outcome.2.session) })

def perform (act : Control → Control) : PeerTask := (task.performs fun control => (true, act control)).2

def report (task : PeerTask) (op : Report) : PeerTask := task.perform fun control => control.report op

def flushPendingRoutes : PeerTask := { task with pendingRoutes := [], log := task.log ++ [.peerUpdate task.pendingRoutes] }

def write (message : Nat → Effect) : Bool × PeerTask := match task.control.conn, task.control.writesLeft with
  | some conn, left + 1 => (true, { task with control.writesLeft := left, log := task.log ++ [message conn] })
  | _, _ => (false, task)

def sendUpdate : Bool × PeerTask := let wrote := task.write fun conn => .update task.control.session conn update.1 update.2
  if wrote.1 then (true, { wrote.2 with control := wrote.2.control.restartKeepaliveTimer }) else wrote

def modifyGr (change : GracefulRestartState → GracefulRestartState) : PeerTask :=
  { task with control.grState := task.control.grState.map change }

def sendEorMarkers (task : PeerTask) (stamp : Stamp) : List AfiSafi → PeerTask
  | [] => task
  | afiSafi :: rest =>
    if (task.control.grState.map GracefulRestartState.eorSent).any fun sent => sent.contains afiSafi then
      task.sendEorMarkers stamp rest
    else
      let wrote := task.write fun conn => .endOfRib task.control.session conn stamp afiSafi
      if wrote.1 then
        (wrote.2.modifyGr fun state => { state with eorSent := afiSafi :: state.eorSent }).sendEorMarkers stamp rest
      else wrote.2

section

variable (elapsed : Bool) (resolved : Bool) (control : Control) (checksRetry : Bool) (state : GracefulRestartState)

def allEorsReceived : Bool := state.afiSafis.all fun afiSafi => state.eorReceived.contains afiSafi

def noteEor : GracefulRestartState := let noted := { state with eorReceived := afiSafi :: state.eorReceived }
  if allEorsReceived noted then { noted with restartTimer := none } else noted

def handleEorReceived : PeerTask := match task.control.grState with
  | none => task
  | some state =>
    if !state.afiSafis.contains afiSafi || state.eorReceived.contains afiSafi then task
    else ((task.modifyGr (noteEor afiSafi)).flushPendingRoutes).report (.gracefulRestartComplete afiSafi)

def handleRouteRefresh : PeerTask := if !task.control.routeRefresh || !task.control.capabilities.multiprotocol.contains afiSafi then task
  else
    match subtype with
    | .normal => task.report (.routeRefresh afiSafi)
    | .boRR =>
      if !task.control.capabilities.enhancedRouteRefresh then task
      else if task.control.capabilities.gracefulRestart.isSome &&
          (task.control.grState.map GracefulRestartState.eorReceived).any fun received => !received.contains afiSafi then task
      else task.report (.routeRefreshBoRR afiSafi)
    | .eoRR =>
      if !task.control.capabilities.enhancedRouteRefresh then task
      else task.flushPendingRoutes.report (.routeRefreshEoRR afiSafi)
    | .unknown _ => task

def acceptRoutes (announced : List RoutePath) (withdrawn : List Withdrawal) : PeerTask :=
  { task with pendingRoutes := task.pendingRoutes ++
      (withdrawn.map fun withdrawal => (task.control.session, PendingRoute.withdraw withdrawal.1 withdrawal.2)) ++
      announced.map fun routePath => (task.control.session, PendingRoute.announce routePath.key routePath.path) }

def handleUpdate (task : PeerTask) (eor : Option AfiSafi) (announced : List RoutePath) (withdrawn : List Withdrawal) : PeerTask :=
  match eor with
  | some afiSafi => (task.handleEorReceived afiSafi).perform Control.heardFromPeer
  | none => (task.perform Control.heardFromPeer).acceptRoutes announced withdrawn

def handleReceivedMessage (task : PeerTask) : BgpMessage → Bool × PeerTask
  | .opens message => task.performs fun control => control.handleOpen message
  | .keepalive => (true, task.perform fun control => (control.tryProcessEvent .bgpKeepaliveReceived).heardFromPeer)
  | .notification notif =>
    (false, task.perform fun control => (control.trackNotification notif).handleNotificationReceived notif)
  | .update eor announced withdrawn =>
    let outcome := task.performs fun control => control.processEvent .bgpUpdateReceived
    if outcome.1 then (true, outcome.2.handleUpdate eor announced withdrawn) else outcome
  | .routeRefresh afiSafi subtype => (true, task.handleRouteRefresh afiSafi subtype)

def handleMessage (message : BgpMessage) : PeerTask := let outcome := task.handleReceivedMessage message
  if outcome.1 then outcome.2 else outcome.2.perform fun control => control.disconnect .remoteNoNotification

def PeerOp.isShutdown : PeerOp → Bool
  | .shutdown _ => true
  | _ => false

def took (op : PeerOp) (rest : List (Stamp × PeerOp)) : PeerTask :=
  { task with queue := rest, shutdownTaken := task.shutdownTaken || PeerOp.isShutdown op }

-- peer_rx.recv(): nothing happens while the queue is empty and open.
def receiveOp (task : PeerTask) (handle : PeerTask → Option (Stamp × PeerOp) → PeerTask) : PeerTask := match task.queue with
  | [] => if task.closed then handle task none else task
  | (stamp, op) :: rest => handle (task.took op rest) (some (stamp, op))

def start (passive manual : Bool) : PeerTask := if task.control.config.passiveMode ≠ passive then task
  else task.perform fun control =>
    match passive, manual with
    | false, true => { control with manuallyStopped := false }.tryProcessEvent .manualStart
    | false, false => control.tryProcessEvent .automaticStart
    | true, true => { control with manuallyStopped := false }.tryProcessEvent .manualStartPassive
    | true, false => control.tryProcessEvent .automaticStartPassive

def idleOp : Option (Stamp × PeerOp) → PeerTask
  | none => task.stop
  | some (_, op) =>
    match op with
    | .shutdown _ => task.stop
    | .manualStart => task.start false true
    | .automaticStart => task.start false false
    | .manualStartPassive => task.start true true
    | .automaticStartPassive => task.start true false
    | .tcpConnectionAccepted conn => task.perform fun control => control.onConnAccepted conn
    | _ => task

def handleIdle : Event → PeerTask
  | .takeOp _ => task.receiveOp idleOp
  | .idleHold =>
    if task.control.autoReconnect then task.perform fun control => control.tryProcessEvent .idleHoldTimerExpires else task
  | _ => task

-- In Connect and Active every operation that is not named is dropped, a shutdown too, and so
-- is the end of the queue.
def waitingOp : Option (Stamp × PeerOp) → PeerTask
  | some (_, .manualStop) => task.perform fun control => control.tryProcessEvent .manualStop
  | some (_, .tcpConnectionAccepted conn) => task.perform fun control => control.onConnAccepted conn
  | _ => task

def delayOpenTick (expired : Expired) : Control := if checksRetry && control.fsm.timers.connectRetry && expired.connectRetry then
    control.tryProcessEvent .connectRetryTimerExpires
  else if control.config.delayOpenTimeSecs.isSome && expired.delayOpen then
    Control.orDisconnect (control.processEvent .delayOpenTimerExpires) (.localNoNotification .delayOpenTimerExpires)
  else control

-- The wait of Connect looks at the connect retry timer, that of Active does not.
def delayOpenWait : Event → PeerTask
  | .receive incoming => task.perform fun control => control.handleDelayOpenMessage incoming
  | .receivePending incoming =>
    if task.control.connPending.isSome then task.perform fun control => control.handleConnPendingMsg incoming else task
  | .tick expired => task.perform fun control => delayOpenTick control checksRetry expired
  | .takeOp _ => task.receiveOp waitingOp
  | _ => task

def startDial : PeerTask := if resolved then { task with dialing := true, log := task.log ++ [.dial] }
  else task.perform fun control => control.tryProcessEvent .tcpConnectionFails

-- try_recv before a dial. An operation that is not named is consumed, and the dial goes on.
def enterConnect : PeerTask := match task.queue with
  | (_, .tcpConnectionAccepted _) :: _ | (_, .manualStop) :: _ => task.receiveOp waitingOp
  | [] => task.startDial resolved
  | _ :: _ => (task.receiveOp waitingOp).startDial resolved

-- Whatever ends the wait cancels the dial.
def dialWait : Event → PeerTask
  | .dialed (some conn) =>
    { task with dialing := false }.perform fun control =>
      { control with conn := some conn, connDialed := true }.connectionReady
  | .dialed none => { task with dialing := false }.perform fun control => control.tryProcessEvent .tcpConnectionFails
  | .connectRetry => { task with dialing := false }.perform fun control => control.tryProcessEvent .connectRetryTimerExpires
  | .takeOp _ =>
    if task.queue.isEmpty && !task.closed then task else { task with dialing := false }.receiveOp waitingOp
  | _ => task

def ready : Event → PeerTask
  | .proceed _ => task.perform Control.connectionReady
  | _ => task

def handleConnect : PeerTask := if task.control.fsm.timers.delayOpen then task.delayOpenWait true event
  else if task.control.conn.isSome then task.ready event
  else if task.dialing then task.dialWait event
  else
    match event with
    | .proceed resolved => task.enterConnect resolved
    | _ => task

def handleActive : PeerTask := if task.control.fsm.timers.delayOpen then task.delayOpenWait false event
  else if task.control.conn.isSome then task.ready event
  else
    match event with
    | .connectRetry => task.perform fun control => control.tryProcessEvent .connectRetryTimerExpires
    | .takeOp _ => task.receiveOp waitingOp
    | _ => task

def sessionTick (expired : Expired) : Control := if control.fsm.timers.hold && expired.hold then control.tryProcessEvent .holdTimerExpires
  else if control.fsm.timers.keepalive && expired.keepalive then
    Control.orDisconnect (control.processEvent .keepaliveTimerExpires) (.localNoNotification .keepaliveTimerExpires)
  else control

-- In the session states the end of the queue disables the branch.
def sessionOp : PeerOp → PeerTask
  | .hardReset => task.perform Control.hardReset
  | .shutdown subcode => (task.perform fun control => (control.sendNotification ⟨.cease subcode, []⟩).2).stop
  | .manualStop => task.perform fun control => control.tryProcessEvent .manualStop
  | .tcpConnectionAccepted conn => task.perform fun control => control.onConnAccepted conn
  | _ => task

def openOp : Option (Stamp × PeerOp) → PeerTask
  | none => task
  | some (_, op) => task.sessionOp op

-- A pending connection is promoted when the dialed one is lost, and an OPEN decides between
-- the two. One that has lost is discarded.
def openReceive (incoming : Incoming) : PeerTask := match task.control.connPending, incoming with
  | some _, .message (.opens message) =>
    if task.control.localWinsCollision message then
      (task.perform Control.resolveCollisionDialedWins).handleMessage (.opens message)
    else task.perform fun control => control.adoptPendingAfterCollisionLoss none
  | some pending, .message (.notification notif) =>
    task.perform fun control => (control.trackNotification notif).promotePendingAfterConnLoss pending
  | some pending, .readError _ | some pending, .closed =>
    task.perform fun control => control.promotePendingAfterConnLoss pending
  | _, .message message => task.handleMessage message
  | _, .parseError notif => task.perform fun control => control.failWith notif
  | none, .readError notif => task.perform fun control => control.failWith notif
  | none, .closed => task.perform fun control => control.disconnect .remoteNoNotification

def handleOpenStates : PeerTask := match task.control.conn, event with
  | none, .proceed _ => task.perform fun control => control.tryProcessEvent .tcpConnectionFails
  | none, _ => task
  | some _, .receive incoming => task.openReceive incoming
  | some _, .receivePending incoming =>
    if task.control.connPending.isSome then task.perform fun control => control.handleConnPendingMsg incoming else task
  | some _, .takeOp _ => task.receiveOp openOp
  | some _, .tick expired => task.perform fun control => sessionTick control expired
  | some _, _ => task

def canSend : Bool := task.control.config.minRouteAdvertisementIntervalSecs.getD 0 = 0 || !task.lastUpdateSent || elapsed

def sendUpdateNow : PeerTask := let sent := task.sendUpdate update
  if sent.1 then { sent.2 with lastUpdateSent := true }
  else sent.2.perform fun control => control.disconnect (.localNoNotification .bgpUpdateReceived)

def eorSentFor : Bool := (task.control.grState.map GracefulRestartState.eorSent).all fun sent => sent.contains afiSafi

def sendRouteRefresh : PeerTask := if !task.control.routeRefresh || !task.control.capabilities.multiprotocol.contains afiSafi then task
  else if (subtype == .boRR || subtype == .eoRR) && !task.eorSentFor afiSafi then task
  else (task.write fun conn => .routeRefresh task.control.session conn stamp afiSafi subtype).2

def localRibSent : PeerTask := let noted := task.modifyGr fun state => { state with locRibReceived := afiSafi :: state.locRibReceived }
  match noted.control.grState with
  | none => noted
  | some state =>
    if state.afiSafis.all fun afiSafi => state.locRibReceived.contains afiSafi then noted.sendEorMarkers stamp state.afiSafis
    else noted

def establishedOp (task : PeerTask) : Option (Stamp × PeerOp) → PeerTask
  | none => task
  | some (stamp, op) =>
    match op with
    | .sendUpdate bytes =>
      if task.canSend elapsed then task.sendUpdateNow (stamp, bytes)
      else { task with pendingUpdates := task.pendingUpdates ++ [(stamp, bytes)] }
    | .sendRouteRefresh afiSafi subtype => task.sendRouteRefresh stamp afiSafi subtype
    | .localRibSent afiSafi => task.localRibSent stamp afiSafi
    | op => task.sessionOp op

end

def sendPending (task : PeerTask) : List (Stamp × List UInt8) → PeerTask
  | [] => { task with lastUpdateSent := true }
  | update :: rest =>
    let sent := task.sendUpdate update
    if sent.1 then sent.2.sendPending rest
    else sent.2.perform fun control => control.disconnect (.localNoNotification .bgpUpdateReceived)

def flushAtWatermark : PeerTask := if task.pendingRoutes.length ≥ ROUTE_FLUSH_WATERMARK then task.flushPendingRoutes else task

def establishedReceive : Incoming → PeerTask
  | .message message =>
    let outcome := task.handleReceivedMessage message
    if outcome.1 then outcome.2.flushAtWatermark
    else outcome.2.perform fun control => control.disconnect .remoteNoNotification
  | .parseError notif | .readError notif => task.perform fun control => control.failWith notif
  | .closed => task.perform fun control => control.disconnect .remoteNoNotification

def handleEstablished : PeerTask := match task.control.conn, event with
  | none, .proceed _ => task.perform fun control => control.tryProcessEvent .tcpConnectionFails
  | none, _ => task
  | some _, .receive incoming => task.establishedReceive incoming
  | some _, .takeOp elapsed => task.receiveOp (establishedOp elapsed)
  | some _, .tick expired => task.perform fun control => sessionTick control expired
  | some _, .flush => if task.pendingRoutes.isEmpty then task else task.flushPendingRoutes
  | some _, .mrai =>
    if task.pendingUpdates.isEmpty || !task.lastUpdateSent then task
    else { task with pendingUpdates := [] }.sendPending task.pendingUpdates
  | some _, _ => task

def act : PeerTask := match task.control.fsm.state with
  | .idle => task.handleIdle event
  | .connect => task.handleConnect event
  | .active => task.handleActive event
  | .openSent | .openConfirm => task.handleOpenStates event
  | .established => task.handleEstablished event

-- The timer outlives the task that spawned it.
def fireGrTimer : PeerTask := match task.control.grState.bind GracefulRestartState.restartTimer with
  | none => task
  | some llgrAfiSafis =>
    (task.modifyGr fun state => { state with restartTimer := none }).report (.gracefulRestartTimerExpired llgrAfiSafis)

def step (task : PeerTask) (input : Input) : PeerTask := match input.event with
  | .queue session op =>
    if task.closed then task
    else { task with queue := task.queue ++ [(⟨task.queued, session⟩, op)], queued := task.queued + 1 }
  | .close => { task with closed := true }
  | .grTimer => task.fireGrTimer
  | event => if task.running then { task with control.writesLeft := input.writes }.act event else task

def establish (conn : Nat) (other : Speaker) : List Input :=
  [{ event := .queue 0 .manualStart }, { event := .takeOp false }, { event := .proceed true },
    { event := .dialed (some conn) }, { event := .receive (.message (.opens other.buildOpenMessage)) },
    { event := .receive (.message .keepalive) }]

end PeerTask

end Bgpgg.Peer
